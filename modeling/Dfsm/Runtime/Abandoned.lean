import Dfsm.Engine.Completion
import Dfsm.Runtime.Rejection

/-! What a call leaves behind when every store operation succeeds. Between its lease and
its settling commit anything that throws ends the call, and the record stays where it was. -/
namespace Dfsm
open Protocol Act

variable {Context Data : Type}

/-- A settled status, without a step and without a lease. -/
def TransactionRecord.IsSettled (row : TransactionRecord Context Data) : Prop :=
  row.status.IsSettled ∧ row.activeStep = none ∧ row.leaseOwner = none ∧ row.leaseExpiresAt = none

def TransactionRecord.InStep (row : TransactionRecord Context Data) : Prop :=
  row.status = .IN_FLIGHT ∨ row.status = .COMPENSATING

/-- Where a call stands: the record as its own updates have made it, whether it took the
lease, whether something between lease and commit has gone wrong, and the matches left. -/
structure Footing (Context Data : Type) where
  record : Option (TransactionRecord Context Data) := none
  leased : Bool := false
  broken : Bool := false
  left : List MatchedTransition := []

section
variable (actor : Actor) (event : String)

/-- The step has no target to go to, or one that does not resolve. -/
def unresolved (workingState : StateValue) (sourceStatePath targetRef : String) : Bool :=
  (applyTargetTransition actor.machine.toRawMachine workingState sourceStatePath targetRef).isNone

/-- A target that the handler returned, or the fallback of a handler that failed, does not resolve. -/
def stepBreaks (workingState : StateValue) (result : Except String (TransitionOutput Context Data)) (m : MatchedTransition) : Bool :=
  match actor.compiledBindings (bindingKey m.sourceNode.path m.edge.event) with
  | none => true
  | some binding => match fallbackCompensate binding result with
    | .ok output => (given (output.targetState.or binding.edge.target)).any (unresolved actor workingState m.sourceNode.path)
    | .failed _ _ fallbackTarget => unresolved actor workingState m.sourceNode.path fallbackTarget

namespace Footing

def breaks (f : Footing Context Data) : Footing Context Data := { f with broken := true }

def ran (f : Footing Context Data) (workingState : StateValue) (result : Except String (TransitionOutput Context Data)) :
    Footing Context Data :=
  { f with
    left := f.left.tail
    broken := f.broken || f.left.head?.any (stepBreaks actor workingState result) }

def updated (f : Footing Context Data) (patch : TransactionUpdatePatch Context Data) : Footing Context Data :=
  { f with
    record := f.record.map patch.apply
    leased := f.leased || patch.status = some .IN_FLIGHT }

def read (f : Footing Context Data) (snapshot : TransactionSnapshot Context Data) : Footing Context Data :=
  { f with
    record := some snapshot.toTransactionRecord
    left := resolveTransitionsForEvent actor.machine.toRawMachine snapshot.stateValue event }

def next (f : Footing Context Data) : (op : Op Context Data) → Reply Context Data op → Footing Context Data
  | .getTransaction _, some snapshot => if f.record.isNone then f.read actor event snapshot else f
  | .updateTransaction _ _ patch _, .ok _ => f.updated patch
  | .handler _ call, (result,_) => f.ran actor call.currentState result
  | .compensate _ _, .error _ => f.breaks
  | .hook (.onCompensate _ _ _ _ _ _ _ _ _), .error _ => f.breaks
  | .recordTransition _, .error _ => f.breaks
  | _, _ => f

/-- A call that took the lease leaves its record settled exactly when nothing broke. -/
def Released (f : Footing Context Data) : Prop :=
  f.leased = true → ((∃ row, f.record = some row ∧ row.IsSettled) ↔ f.broken = false)

end Footing

/-- Store operations succeed; everything else may be answered in any way. -/
def footing : Protocol (Reply Context Data) (Footing Context Data) where
  allowed _ _ := True
  replies op r := match op, r with
    | .updateTransaction _ _ _ _, r => ∃ version, r = .ok version
    | _, _ => True
  after f op r := f.next actor event op r

end

section
variable {actor : Actor} {event : String}

@[simp] theorem footingAfter (f : Footing Context Data) (op : Op Context Data) (r : Reply Context Data op) :
    (footing actor event).after f op r = f.next actor event op r := rfl

/-- The record is still in its step, where this call has leased it. -/
def Footing.Open (f : Footing Context Data) : Prop :=
  f.leased = true → ∃ row, f.record = some row ∧ row.InStep

/-- In the step, with these matches left. -/
structure Footing.Going (broken : Bool) (left : List MatchedTransition) (f : Footing Context Data) : Prop where
  known : f.record.isSome = true
  opened : f.Open
  broken : f.broken = broken
  left : f.left = left

def Footing.Closed (f : Footing Context Data) : Prop :=
  f.broken = false ∧ ∃ row, f.record = some row ∧ row.IsSettled

theorem inStepNotSettled {row : TransactionRecord Context Data} (inStep : row.InStep) : ¬row.IsSettled := by
  rintro ⟨final,_⟩
  rcases inStep with h | h <;> simp [TransactionStatus.IsSettled,h] at final

theorem resolvedSettled (machine : RawMachine) (v : StateValue) (unwound : Bool) :
    (resolveSettledTransactionStatus machine v unwound).IsSettled := by
  unfold resolveSettledTransactionStatus TransactionStatus.IsSettled
  split
  · simp
  · split
    · simp
    · dsimp only
      split <;> simp

/-- A failed step settles in a settled status. -/
def StepSettles (failed : Option FailedStep) : Prop := ∀ step, failed = some step → step.settledStatus.IsSettled

theorem openBroken {f : Footing Context Data} (opened : f.Open) (broken : f.broken = true) : f.Released := by
  intro leased
  obtain ⟨row,here,inStep⟩ := opened leased
  refine iff_of_false ?_ (by simp [broken])
  rintro ⟨other,same,settled⟩
  cases Option.some.inj (here.symm.trans same)
  exact inStepNotSettled inStep settled

theorem closedReleased {f : Footing Context Data} (closed : f.Closed) : f.Released :=
  fun _ => iff_of_true closed.2 closed.1

theorem goingBreaks {f : Footing Context Data} {b left} (going : f.Going b left) : f.breaks.Released :=
  openBroken going.opened rfl

abbrev Leaves {α : Type} (good : Footing Context Data → α → Prop) : Footing Context Data → Except DfsmError α → Prop :=
  Within good Footing.Released

theorem footingNow {β : Type} {f : Footing Context Data} {post} {k : Int → Act Context Data β}
    (rest : ∀ at_, (footing actor event).Obeys post f (k at_)) : (footing actor event).Obeys post f (now >>= k) :=
  obeysAsk trivial (fun r _ => rest r)

theorem footingUpdate {β : Type} {f : Footing Context Data} {post} {t version patch append} {k : Nat → Act Context Data β}
    (rest : ∀ w, (footing actor event).Obeys post (f.updated patch) (k w)) :
    (footing actor event).Obeys post f (updateTransaction t version patch append >>= k) := by
  refine And.intro trivial (fun r succeeds => ?_)
  obtain ⟨w,rfl⟩ := succeeds
  exact rest w

theorem goingUpdate {f : Footing Context Data} {b left} {patch : TransactionUpdatePatch Context Data} (going : f.Going b left)
    (keeps : patch.status = none ∨ patch.status = some .COMPENSATING) : (f.updated patch).Going b left := by
  refine ⟨by simpa [Footing.updated] using going.known,fun leased => ?_,going.broken,going.left⟩
  have before : f.leased = true := by
    rcases keeps with same | same <;> simpa [Footing.updated,same] using leased
  obtain ⟨row,here,inStep⟩ := going.opened before
  refine ⟨patch.apply row,by simp [Footing.updated,here],?_⟩
  rcases keeps with same | same
  · simpa [TransactionRecord.InStep,TransactionUpdatePatch.apply,same] using inStep
  · exact .inr (by simp [TransactionUpdatePatch.apply,same])

theorem goingApply {β : Type} {f : Footing Context Data} {left good workingState path target} {k : AppliedTransition → Act Context Data β}
    (going : f.Going (unresolved actor workingState path target) left)
    (rest : ∀ applied, f.Going false left → (footing actor event).Obeys (Leaves good) f (k applied)) :
    (footing actor event).Obeys (Leaves good) f (orThrow (actor.applyTarget workingState path target) >>= k) := by
  unfold Actor.applyTarget
  have judged := going.broken
  unfold unresolved at judged
  cases applies : applyTargetTransition actor.machine.toRawMachine workingState path target with
  | none => exact openBroken going.opened (by simpa [applies] using judged)
  | some applied =>
    refine rest applied ⟨going.known,going.opened,?_,going.left⟩
    simpa [applies] using judged

variable {snapshot : TransactionSnapshot Context Data} {stepStartedAt : Int} {metadata : Metadata Data}
  {f : Footing Context Data} {b : Bool} {left : List MatchedTransition}

theorem goingCompensate {t reason entry} {context : Context} (going : f.Going b left) :
    (footing actor event).Obeys (Leaves fun f _ => f.Going b left) f (actor.compensateEntry t reason context entry) := by
  unfold Actor.compensateEntry
  cases actor.resolveCompensate entry.compensateKey with
  | none => exact going
  | some resolvedName =>
    refine And.intro trivial (fun r _ => ?_)
    cases r with
    | ok updated => exact going
    | error e => exact goingBreaks going

theorem goingUnwindEntry {t reason entry} {unwound : Context × Nat} (going : f.Going b left) :
    (footing actor event).Obeys (Leaves fun f _ => f.Going b left) f (actor.unwindEntry t reason unwound entry) := by
  unfold Actor.unwindEntry
  refine obeysSeq _ (goingCompensate going) (fun f ctx going => ?_)
  refine footingNow (fun at_ => And.intro trivial (fun _ _ => And.intro trivial (fun r _ => ?_)))
  cases r with
  | ok _ => exact going
  | error e => exact goingBreaks going

theorem goingUnwind {t reason} {context : Context} (going : f.Going b left) :
    (footing actor event).Obeys (Leaves fun f _ => f.Going b left) f (actor.unwindCompensationStack t context reason) := by
  unfold Actor.unwindCompensationStack
  refine And.intro trivial (fun stack _ => ?_)
  exact obeysFold (fun _ (f : Footing Context Data) (_ : Context × Nat) => f.Going b left)
    (fun entry rest f unwound going => goingUnwindEntry going) stack going

theorem goingFlush {w : Working Context Data} (going : f.Going b left) :
    (footing actor event).Obeys (Leaves fun f _ => f.Going b left) f (Actor.flushCompensations snapshot w) := by
  unfold Actor.flushCompensations
  split
  · exact going
  · refine footingNow (fun at_ => ?_)
    rw [← bind_pure (updateTransaction _ _ _ _)]
    exact footingUpdate (fun version => goingUpdate going (.inl rfl))

theorem goingRollBack {version error compensateRequested} {context : Context} (going : f.Going b left) :
    (footing actor event).Obeys (Leaves fun f _ => f.Going b left) f
      (actor.rollBack snapshot version error compensateRequested context) := by
  unfold Actor.rollBack
  cases compensateRequested with
  | false => exact going
  | true =>
    refine footingNow (fun at_ => footingUpdate (fun current => ?_))
    exact obeysSeq _ (goingUnwind (goingUpdate going (.inr rfl))) (fun f unwound going => going)

theorem goingFail {m error compensateRequested fallbackTarget} {w : Working Context Data}
    (going : f.Going (unresolved actor w.workingState m.sourceNode.path fallbackTarget) left) :
    (footing actor event).Obeys (Leaves fun f (p : Working Context Data × FailedStep) =>
        f.Going false left ∧ p.2.settledStatus.IsSettled) f
      (actor.failStep snapshot m error compensateRequested fallbackTarget w) := by
  unfold Actor.failStep
  refine obeysSeq _ (goingFlush going) (fun f flushed going => ?_)
  refine obeysSeq _ (goingRollBack going) (fun f unwound going => ?_)
  exact goingApply going (fun applied going => ⟨going,resolvedSettled _ _ _⟩)

theorem goingSucceed {m binding input output} {w : Working Context Data}
    (going : f.Going ((given (output.targetState.or binding.edge.target)).any (unresolved actor w.workingState m.sourceNode.path)) left) :
    (footing actor event).Obeys (Leaves fun f _ => f.Going false left) f
      (actor.succeedStep event m binding input output w) := by
  have recorded {f : Footing Context Data} (moved : Working Context Data) (going : f.Going false left) :
      (footing actor event).Obeys (Leaves fun f _ => f.Going false left) f
        (Actor.recordCompensation event m binding input w moved) := by
    unfold Actor.recordCompensation
    cases given binding.resolvedCompensateName with
    | none => exact going
    | some key => exact footingNow (fun _ => going)
  unfold Actor.succeedStep
  cases named : given (output.targetState.or binding.edge.target) with
  | none =>
    rw [named] at going
    exact recorded _ going
  | some target =>
    rw [named] at going
    exact goingApply going (fun applied going => recorded _ going)

theorem goingOutcome {m binding input result} {w : Working Context Data}
    (bound : actor.compiledBindings (bindingKey m.sourceNode.path m.edge.event) = some binding)
    (going : f.Going (stepBreaks actor w.workingState result m) left) :
    (footing actor event).Obeys (Leaves fun f (p : Working Context Data × Option FailedStep × LogOutcome) =>
        f.Going false left ∧ StepSettles p.2.1) f
      (actor.stepOutcome snapshot event m binding input result w) := by
  unfold Actor.stepOutcome
  unfold stepBreaks at going
  rw [bound] at going
  dsimp only at going
  split
  · rename_i output same
    rw [same] at going
    exact obeysSeq _ (goingSucceed going) (fun f next going => ⟨going,by simp [StepSettles]⟩)
  · rename_i same
    rw [same] at going
    refine obeysSeq _ (goingFail going) ?_
    rintro f ⟨next,step⟩ ⟨going,settles⟩
    exact ⟨going,fun other same => by cases same; exact settles⟩

theorem goingTelemetry {binding from_ to_ attempts t0 outcome error} (going : f.Going false left) :
    (footing actor event).Obeys (Leaves fun f _ => f.Going false left) f
      (actor.recordTelemetry snapshot event binding from_ to_ attempts t0 outcome error) := by
  unfold Actor.recordTelemetry
  refine footingNow (fun ended => ?_)
  cases binding.benchmarkEnabled with
  | false => exact going
  | true =>
    refine footingNow (fun timestamp => And.intro trivial (fun r _ => ?_))
    cases r with
    | ok _ => exact going
    | error _ => exact goingBreaks going

theorem goingMatch {m input} {w : Working Context Data} (bound : ∃ binding, actor.binding m.sourceNode.path m.edge.event = .ok binding)
    (going : f.Going false (m::left)) :
    (footing actor event).Obeys (Leaves fun f (p : Working Context Data × Option FailedStep) =>
        f.Going false left ∧ StepSettles p.2) f
      (actor.runMatch snapshot event stepStartedAt metadata m input w) := by
  obtain ⟨binding,bound⟩ := bound
  unfold Actor.runMatch
  rw [bound]
  refine footingNow (fun t0 => obeysAsk trivial ?_)
  rintro ⟨result,attempts⟩ _
  have stored : actor.compiledBindings (bindingKey m.sourceNode.path m.edge.event) = some binding := by
    unfold Actor.binding at bound
    split at bound
    · contradiction
    · cases bound; assumption
  have ran : (f.ran actor w.workingState result).Going (stepBreaks actor w.workingState result m) left := by
    refine ⟨going.known,going.opened,?_,?_⟩
    · simp [Footing.ran,going.broken,going.left]
    · simp [Footing.ran,going.left]
  refine obeysSeq _ (goingOutcome stored ran) ?_
  rintro f ⟨next,failed,outcome⟩ ⟨going,settles⟩
  exact obeysSeq _ (goingTelemetry going) (fun f _ going => ⟨going,settles⟩)

theorem goingMatches (matches_ : List (MatchedTransition × Data))
    (bound : ∀ m ∈ matches_.map (·.1), ∃ binding, actor.binding m.sourceNode.path m.edge.event = .ok binding) :
    ∀ {f : Footing Context Data} {w : Working Context Data}, f.Going false (matches_.map (·.1)) →
      (footing actor event).Obeys (Leaves fun f (p : Working Context Data × Option FailedStep) =>
          (∃ left, f.Going false left) ∧ StepSettles p.2) f
        (actor.runMatches snapshot event stepStartedAt metadata matches_ w) := by
  induction matches_ with
  | nil => intro f w going; exact ⟨⟨_,going⟩,by simp [StepSettles]⟩
  | cons x rest ih =>
    obtain ⟨m,input⟩ := x
    intro f w going
    rw [Actor.runMatches]
    refine obeysSeq _ (goingMatch (bound m List.mem_cons_self) going) ?_
    rintro f ⟨next,failed⟩ ⟨going,settles⟩
    cases failed with
    | none => exact ih (fun m mem => bound m (List.mem_cons_of_mem _ mem)) going
    | some step => exact ⟨⟨_,going⟩,settles⟩

theorem goingInputs {rawInput matched} (free : f.leased = false) :
    (footing actor event).Obeys (Leaves fun f' inputs => f' = f ∧ inputs.length = matched.length ∧
        ∀ m ∈ matched, ∃ binding, actor.binding m.sourceNode.path m.edge.event = .ok binding) f
      (actor.validateInputs rawInput matched : Act Context Data (List Data)) := by
  have released : f.Released := fun leased => by rw [free] at leased; contradiction
  unfold Actor.validateInputs
  induction matched with
  | nil => exact ⟨rfl,rfl,by simp⟩
  | cons m rest ih =>
    rw [List.mapM_cons]
    have one : (footing actor event).Obeys (Leaves fun f' _ => f' = f ∧
        ∃ binding, actor.binding m.sourceNode.path m.edge.event = .ok binding) f (do
          let _ ← orThrow (actor.binding m.sourceNode.path m.edge.event)
          orThrow (← ask (.validateInput m.sourceNode.path m.edge.event rawInput)) : Act Context Data Data) := by
      cases actor.binding m.sourceNode.path m.edge.event with
      | error e => exact released
      | ok binding =>
        refine obeysAsk trivial (fun r _ => ?_)
        cases r with
        | ok a => exact ⟨rfl,binding,rfl⟩
        | error e => exact released
    refine obeysSeq _ one ?_
    rintro _ input ⟨rfl,bound⟩
    refine obeysSeq _ ih ?_
    rintro _ inputs ⟨rfl,length,all⟩
    refine ⟨rfl,by simp [length],fun m' mem => ?_⟩
    rcases List.mem_cons.mp mem with rfl | later
    · exact bound
    · exact all m' later

theorem doneResolves (loaded : Loaded actor.machine) {v pending target}
    (found : findPendingOnDone actor.machine.toRawMachine v = some pending) (named : given pending.edge.target = some target)
    (workingState : StateValue) : unresolved actor workingState pending.sourceNode.path target = false := by
  rw [findPending] at found
  obtain ⟨path,_,here⟩ := List.exists_of_findSome?_eq_some found
  obtain ⟨stored,onDone,_⟩ := pendingAtIff.mp here
  have step : Dotted.parts path ≠ [] := by
    intro empty
    rw [getNodeByPath,lookupByDotPath,empty] at stored
    contradiction
  obtain ⟨path,resolves⟩ := onDoneResolves loaded stored step onDone named
  obtain ⟨applied,did⟩ := resolvedApplies loaded workingState resolves
  rw [unresolved,did]
  rfl

theorem goingCascade (loaded : Loaded actor.machine) (rounds : Nat) : ∀ {f : Footing Context Data} {w : Working Context Data},
    f.Going false left → (footing actor event).Obeys (Leaves fun f _ => f.Going false left) f
      (actor.cascade snapshot metadata rounds w) := by
  induction rounds with
  | zero => intro f w going; exact going
  | succ rounds ih =>
    intro f w going
    rw [Actor.cascade]
    split
    · exact going
    · rename_i pendingDone pending
      have ran : (footing actor event).Obeys (Leaves fun f _ => f.Going false left) f
          (actor.runDoneHandler snapshot metadata pendingDone w) := by
        unfold Actor.runDoneHandler
        split
        · exact going
        · refine footingNow (fun at_ => obeysAsk trivial ?_)
          rintro ⟨result,attempts⟩ _
          cases result <;> exact going
      refine obeysSeq _ ran (fun f ran going => ?_)
      split
      · exact going
      · rename_i target named
        have here := doneResolves loaded pending named ran.workingState
        exact goingApply (by rw [here]; exact going) (fun applied going => ih going)

theorem goingSettle {w : Working Context Data} {status lastError completedAt append} (going : f.Going false left)
    (final : status.IsSettled) : (footing actor event).Obeys (Leaves fun f _ => f.Closed ∧ f.record.isSome = true) f
      (Actor.settle snapshot w status lastError completedAt append) := by
  refine footingUpdate (fun version => And.intro trivial (fun _ _ => ?_))
  obtain ⟨row,here⟩ := Option.isSome_iff_exists.mp going.known
  refine ⟨⟨going.broken,_,congrArg (Option.map _) here,?_⟩,by simp [Footing.updated,Footing.next,going.known]⟩
  exact ⟨final,rfl,rfl,rfl⟩

/-! After the settling commit a call only reads, and notifies its surroundings. -/

theorem stillReread {t before after} (known : f.record.isSome = true) :
    (footing actor event).Obeys (Within (fun f' _ => f' = f) (· = f)) f
      (Actor.rereadMoved t before after : Act Context Data (Option (TransactionSnapshot Context Data))) := by
  unfold Actor.rereadMoved
  split
  · exact rfl
  · refine And.intro trivial (fun found _ => ?_)
    cases found with
    | none => exact rfl
    | some latest =>
      have kept : f.record.isNone = false := by cases h : f.record <;> simp_all
      show (if f.record.isNone then f.read actor event latest else f) = f
      rw [kept]
      rfl

theorem stillEmit {hook : HookEvent Context Data} (quiet : ∀ a b c d e g h i j, hook ≠ .onCompensate a b c d e g h i j) :
    (footing actor event).Obeys (Within (fun f' _ => f' = f) (· = f)) f (emit hook) := by
  refine And.intro trivial (fun r _ => ?_)
  have kept : f.next actor event (.hook hook) r = f := by
    cases hook with
    | onCompensate => exact absurd rfl (quiet _ _ _ _ _ _ _ _ _)
    | _ => rfl
  rw [footingAfter,kept]
  cases r <;> exact rfl

theorem stillEffects {t state effects} {context : Context} (known : f.record.isSome = true) :
    (footing actor event).Obeys (Within (fun f' _ => f' = f) (· = f)) f
      (actor.invokeEffects t state context effects : Act Context Data Unit) := by
  have frame {name depth} {request : EffectRequest Context Data} :
      (footing actor event).Obeys (Within (fun f' _ => f' = f) (· = f)) f (Actor.runEffectFrame name depth request) := by
    unfold Actor.runEffectFrame
    refine obeysAsk trivial (fun _ _ => obeysAsk trivial (fun ran _ => ?_))
    refine obeysAsk trivial (fun _ _ => obeysAsk trivial (fun _ _ => ?_))
    cases ran <;> exact rfl
  have single (revision : Nat) (item : EffectInvocation Data) : (footing actor event).Obeys (Within (fun f' _ => f' = f) (· = f)) f
      (actor.invokeSingleEffect t state context revision item) := by
    unfold Actor.invokeSingleEffect
    split
    · split <;> exact rfl
    · refine obeysAsk trivial (fun depth _ => ?_)
      dsimp only
      split
      · exact rfl
      · refine obeysAsk trivial (fun _ _ => obeysSeq _ (stillReread known) ?_)
        intro f' latest same
        rw [same]
        exact frame
  unfold Actor.invokeEffects
  refine obeysAsk trivial (fun revision _ => ?_)
  refine obeysFold (fun _ (f' : Footing Context Data) (_ : Unit) => f' = f) ?_ effects rfl
  intro item rest f' _ same
  rw [same]
  exact single revision item

theorem stillTerminal {t state status error} {context : Context} :
    (footing actor event).Obeys (Within (fun f' _ => f' = f) (· = f)) f
      (actor.emitSettledTerminalHooks t state status context error : Act Context Data Unit) := by
  unfold Actor.emitSettledTerminalHooks
  split
  · have last : (footing actor event).Obeys (Within (fun f' _ => f' = f) (· = f)) f
        (emit (.onTerminal t actor.machine.id actor.actorId state status context error)) := stillEmit (by simp)
    by_cases complete : status = .COMPLETED
    · simp only [complete,if_true] at last ⊢
      refine obeysSeq _ (stillEmit (by simp)) ?_
      intro f' _ same
      rw [same]
      exact last
    · simp only [complete,if_false]
      exact last
  · exact rfl

theorem stillConclude {input value steps duration error} {w : Working Context Data} {status} (known : f.record.isSome = true) :
    (footing actor event).Obeys (Within (fun f' _ => f' = f) (· = f)) f
      (actor.conclude snapshot event input w status value steps duration error) := by
  have dropped : (footing actor event).Obeys (Within (fun f' _ => f' = f) (· = f)) f (Actor.dropRevision snapshot) := by
    unfold Actor.dropRevision
    refine obeysAsk trivial (fun depth _ => ?_)
    split
    · exact ⟨trivial,fun _ _ => rfl⟩
    · exact rfl
  unfold Actor.conclude
  refine obeysSeq _ (stillEmit (by simp)) ?_
  rintro _ _ rfl
  refine obeysSeq _ stillTerminal ?_
  rintro _ _ rfl
  refine obeysAsk trivial (fun revBefore _ => obeysSeq _ (stillEffects known) ?_)
  rintro _ _ rfl
  refine obeysAsk trivial (fun revision _ => obeysSeq _ dropped ?_)
  rintro _ _ rfl
  refine obeysSeq _ (stillReread known) ?_
  rintro _ latest rfl
  cases latest <;> exact rfl

theorem goingLease {rawInput startedAt} (known : f.record.isSome = true) (free : f.leased = false) (whole : f.broken = false) :
    (footing actor event).Obeys (Leaves fun f' _ => f'.Going false f.left) f
      (actor.takeLease snapshot event rawInput startedAt) := by
  unfold Actor.takeLease
  split
  · exact ⟨known,fun leased => by rw [free] at leased; contradiction,whole,rfl⟩
  · rw [← bind_pure (updateTransaction _ _ _ _)]
    refine footingUpdate (fun version => ⟨by simpa [Footing.updated] using known,fun _ => ?_,whole,rfl⟩)
    obtain ⟨row,here⟩ := Option.isSome_iff_exists.mp known
    exact ⟨_,congrArg (Option.map _) here,.inl rfl⟩

theorem goingSettleStep (loaded : Loaded actor.machine) {input failed} {w : Working Context Data}
    (going : f.Going false left) (settles : StepSettles failed) :
    (footing actor event).Obeys (Leaves fun f _ => f.Released) f
      (actor.settleStep snapshot event metadata input stepStartedAt w failed) := by
  have concluded {f : Footing Context Data} {w : Working Context Data} {status value steps duration error}
      (closed : f.Closed ∧ f.record.isSome = true) : (footing actor event).Obeys (Leaves fun f _ => f.Released) f
        (actor.conclude snapshot event input w status value steps duration error) := by
    refine obeysMono (stillConclude closed.2) ?_
    intro f' r same
    cases r with
    | ok _ => rw [show f' = f from same]; exact closedReleased closed.1
    | error _ => rw [show f' = f from same]; exact closedReleased closed.1
  cases failed with
  | some step =>
    exact footingNow (fun completedAt => obeysSeq _ (goingSettle going (settles step rfl)) (fun f _ closed => concluded closed))
  | none =>
    refine obeysSeq _ (goingCascade loaded 20 going) (fun f w going => footingNow (fun completedAt => ?_))
    exact obeysSeq _ (goingSettle going (resolvedSettled _ _ _)) (fun f _ closed => concluded closed)

end

end Dfsm
