import Dfsm.Java.Store

/-! What a transition of the Java SDK leaves behind when every store operation succeeds: the
record that it leased, and the compensation entries that it has marked. -/
namespace Dfsm.Java
open Protocol Act

variable {Context Data : Type}

/-- A settled status, without a step and without a lease. -/
def TransactionRecord.IsSettled (row : TransactionRecord Context Data) : Prop :=
  row.status.IsSettled ∧ row.activeStep.isNone = true ∧ row.leaseOwner = none ∧ row.leaseExpiresAt = none

instance (row : TransactionRecord Context Data) : Decidable row.IsSettled := by
  unfold TransactionRecord.IsSettled TransactionStatus.IsSettled
  infer_instance

def TransactionRecord.InStep (row : TransactionRecord Context Data) : Prop :=
  row.status = .IN_FLIGHT ∨ row.status = .COMPENSATING

/-- Where a call stands with its lease: the record it has last read, as its own updates have
made it since; whether it has leased that record, and with what the step is left to go through;
whether its step has broken; and whether it went on from a lease that it had not settled. -/
structure Lease (Context Data : Type) where
  record : Option (TransactionRecord Context Data) := none
  leased : Bool := false
  left : List MatchedTransition := []
  broken : Bool := false
  abandoned : Bool := false

/-- Where it stands with its compensations: what is left of the stack it unwinds, the entry
whose handler has just returned, whether every mark was for such an entry, and whether the
unwinding has come to an entry that has no handler. -/
structure Marks (Context Data : Type) where
  queue : List (CompensationEntryRecord Context Data) := []
  returned : Option Nat := none
  honest : Bool := true
  orphaned : Bool := false

structure Footing (Context Data : Type) where
  lease : Lease Context Data := {}
  marks : Marks Context Data := {}

section
variable (actor : DfsmActor)

/-- The target does not resolve. -/
def unresolved (workingState : StateValue) (sourceStatePath targetRef : String) : Bool :=
  (applyTargetTransition actor.machine.toRawMachine workingState sourceStatePath targetRef).isNone

/-- A completed container leads to a target that does not resolve. -/
def doneBreaks : Nat → StateValue → Bool
  | 0, _ => false
  | rounds+1, workingState => (findPendingOnDone actor.machine.toRawMachine workingState).any (fun pendingDone =>
      (given pendingDone.edge.target).any (fun target =>
        match applyTargetTransition actor.machine.toRawMachine workingState pendingDone.sourceNode.path target with
        | none => true
        | some applied => doneBreaks rounds applied.nextStateValue))

/-- After a handler that succeeded its own target, the declared one, or that of a container
which is completed after the last match; after one that failed its fallback. -/
def stepBreaks (workingState : StateValue) (result : Except (Option String) (Success Context Data)) (m : MatchedTransition)
    (rest : List MatchedTransition) : Bool :=
  match actor.binding m.sourceNode.path m.edge.event with
  | .error _ => true
  | .ok binding => match fallbackCompensate binding result with
    | .failure _ _ fallbackTarget => unresolved actor workingState m.sourceNode.path fallbackTarget
    | .success result => match given (result.output.targetState.or binding.edge.target) with
      | none => rest.isEmpty && doneBreaks actor 20 workingState
      | some target =>
        match applyTargetTransition actor.machine.toRawMachine workingState m.sourceNode.path target with
        | none => true
        | some applied => rest.isEmpty && doneBreaks actor 20 applied.nextStateValue

namespace Lease

def breaks (l : Lease Context Data) : Lease Context Data := { l with broken := l.broken || l.leased }

def ran (l : Lease Context Data) (workingState : StateValue) (result : Except (Option String) (Success Context Data)) :
    Lease Context Data :=
  { l with
    left := l.left.tail
    broken := l.broken || (l.leased && l.left.head?.any (fun m => stepBreaks actor workingState result m l.left.tail)) }

def updated (l : Lease Context Data) (patch : TransactionPatch Context Data) : Lease Context Data :=
  { l with
    record := l.record.map patch.apply
    leased := l.leased || patch.status = some .IN_FLIGHT
    left := match l.record, patch.activeStep with
      | some row, some (some step) => resolveTransitionsForEvent actor.machine.toRawMachine row.stateValue step.event
      | _, _ => l.left }

/-- A lease that has been settled is forgotten with the next read. -/
def read (l : Lease Context Data) (snapshot : TransactionSnapshot Context Data) : Lease Context Data :=
  { record := some snapshot.toTransactionRecord
    broken := l.broken
    abandoned := l.abandoned || (l.leased && !l.record.any (fun row => row.IsSettled)) }

def next (l : Lease Context Data) : (op : Op Context Data) → Reply Context Data op → Lease Context Data
  | .getTransaction _, .ok (some snapshot) => l.read snapshot
  | .updateTransaction _ _ patch _, .ok _ => l.updated actor patch
  | .handler _ call, (result,_) => l.ran actor call.currentState result
  | .convertContext _, .error _ => l.breaks
  | .compensate _ _, .error _ => l.breaks
  | .hook (.onCompensate _ _ _ _ _ _ _ _ _), .error _ => l.breaks
  | .recordTransition _, .error _ => l.breaks
  | _, _ => l

/-- Every record that was leased has been settled. -/
def Kept (l : Lease Context Data) : Prop :=
  l.abandoned = false ∧ (l.leased = true → ∃ row, l.record = some row ∧ row.IsSettled)

end Lease

namespace Marks

def orphan (queue : List (CompensationEntryRecord Context Data)) : Bool :=
  queue.head?.any (fun entry => (actor.resolveCompensate entry.compensateKey).isNone)

def comes (k : Marks Context Data) (queue : List (CompensationEntryRecord Context Data)) : Marks Context Data :=
  { k with queue, orphaned := k.orphaned || orphan actor queue }

def next (k : Marks Context Data) : (op : Op Context Data) → Reply Context Data op → Marks Context Data
  | .getUncompensatedStack _, .ok stack => k.comes actor stack
  | .compensate _ request, .ok _ => { k with returned := some request.stepSeq }
  | .markCompensationExecuted _ stepSeq _, .ok _ => { k with honest := k.honest && k.returned = some stepSeq, returned := none }
  | .hook (.onCompensate _ _ _ _ _ _ _ _ _), .ok _ => k.comes actor k.queue.tail
  | _, _ => k

/-- The marks are honest unless the unwinding came to an entry without a handler. -/
def Even (k : Marks Context Data) : Prop := k.honest = !k.orphaned

end Marks

def Footing.next (f : Footing Context Data) (op : Op Context Data) (r : Reply Context Data op) : Footing Context Data :=
  { lease := f.lease.next actor op r, marks := f.marks.next actor op r }

/-- Store operations succeed; everything else may be answered in any way. -/
def footing : Protocol (Reply Context Data) (Footing Context Data) where
  allowed _ _ := True
  replies op r := match op, r with
    | .initializeStore, r => r = .ok ()
    | .getTransaction _, r => ∃ found, r = .ok found
    | .updateTransaction _ _ _ _, r => ∃ version, r = .ok version
    | .getUncompensatedStack _, r => ∃ stack, r = .ok stack
    | .markCompensationExecuted _ _ _, r => r = .ok ()
    | .deleteTransaction _ _, r => ∃ deleted, r = .ok deleted
    | .listInFlight _ _ _, r => ∃ found, r = .ok found
    | .listByStatuses _ _ _, r => ∃ found, r = .ok found
    | _, _ => True
  after f op r := f.next actor op r

end

/-- What holds however a call ends. -/
structure Footing.Ended (f : Footing Context Data) : Prop where
  kept : f.lease.Kept ↔ f.lease.broken = false
  even : f.marks.Even

/-- In the step, with these matches left; it breaks or does not where the call has leased it. -/
structure Lease.Going (breaks : Bool) (left : List MatchedTransition) (l : Lease Context Data) : Prop where
  known : l.record.isSome = true
  opened : l.leased = true → ∃ row, l.record = some row ∧ row.InStep
  left : l.leased = true → l.left = left
  broken : l.broken = (l.leased && breaks)
  settled : l.abandoned = false

/-- Between steps. -/
structure Lease.Closed (l : Lease Context Data) : Prop where
  broken : l.broken = false
  settled : l.abandoned = false
  kept : l.leased = true → ∃ row, l.record = some row ∧ row.IsSettled

abbrev Leaves {α : Type} (good : Footing Context Data → α → Prop) : Footing Context Data → Except Throwable α → Prop :=
  Within good Footing.Ended

section
variable {actor : DfsmActor}

theorem inStepNotSettled {row : TransactionRecord Context Data} (inStep : row.InStep) : ¬row.IsSettled := by
  rintro ⟨final,_⟩
  rcases inStep with h | h <;> simp [TransactionStatus.IsSettled,h] at final

theorem resolvedSettled (machine : RawMachine) (v : StateValue) (unwound : Bool) :
    (resolveSettledTransactionStatus machine v unwound).IsSettled := by
  unfold resolveSettledTransactionStatus TransactionStatus.IsSettled
  split
  · simp
  · split
    · simp
    · dsimp only
      split <;> simp

theorem closedKept {l : Lease Context Data} (closed : l.Closed) : l.Kept ↔ l.broken = false :=
  iff_of_true ⟨closed.settled,closed.kept⟩ closed.broken

theorem goingKept {l : Lease Context Data} {left} (going : l.Going true left) : l.Kept ↔ l.broken = false := by
  rw [going.broken,Bool.and_true]
  cases leased : l.leased with
  | false =>
    refine iff_of_true ⟨going.settled,fun h => ?_⟩ rfl
    rw [leased] at h
    contradiction
  | true =>
    refine iff_of_false ?_ (by decide)
    rintro ⟨_,kept⟩
    obtain ⟨row,here,settled⟩ := kept leased
    obtain ⟨other,same,inStep⟩ := going.opened leased
    cases Option.some.inj (here.symm.trans same)
    exact inStepNotSettled inStep settled

theorem goingBreaks {l : Lease Context Data} {b left} (going : l.Going b left) : l.breaks.Going true left := by
  refine ⟨going.known,going.opened,going.left,?_,going.settled⟩
  simp only [Lease.breaks,going.broken]
  cases l.leased <;> simp

theorem goingUpdate {l : Lease Context Data} {b left} {patch : TransactionPatch Context Data} (going : l.Going b left)
    (keeps : patch.status = none ∨ patch.status = some .COMPENSATING) (step : patch.activeStep = none) :
    (l.updated actor patch).Going b left := by
  have leased : (l.updated actor patch).leased = l.leased := by
    rcases keeps with same | same <;> simp [Lease.updated,same]
  refine ⟨by simpa [Lease.updated] using going.known,fun h => ?_,fun h => ?_,by rw [leased]; exact going.broken,going.settled⟩
  · obtain ⟨row,here,inStep⟩ := going.opened (leased ▸ h)
    refine ⟨patch.apply row,by simp [Lease.updated,here],?_⟩
    rcases keeps with same | same
    · simpa [TransactionRecord.InStep,TransactionPatch.apply,same] using inStep
    · exact .inr (by simp [TransactionPatch.apply,same])
  · have same : (l.updated actor patch).left = l.left := by
      simp only [Lease.updated,step]
      cases l.record <;> rfl
    rw [same]
    exact going.left (leased ▸ h)

variable {f : Footing Context Data}

theorem footingNow {β : Type} {post} {k : Int → Act Context Data β} (rest : ∀ at_, (footing actor).Obeys post f (k at_)) :
    (footing actor).Obeys post f (now >>= k) :=
  obeysAsk trivial (fun r _ => rest r)

theorem footingGet {β : Type} {post} {t} {k : Option (TransactionSnapshot Context Data) → Act Context Data β}
    (absent : (footing actor).Obeys post f (k none))
    (found : ∀ snapshot, (footing actor).Obeys post ⟨f.lease.read snapshot,f.marks⟩ (k (some snapshot))) :
    (footing actor).Obeys post f (getTransaction t >>= k) := by
  refine And.intro trivial (fun r succeeds => ?_)
  obtain ⟨snapshot,rfl⟩ := succeeds
  cases snapshot with
  | none => exact absent
  | some snapshot => exact found snapshot

theorem footingUpdate {β : Type} {post} {t version patch append} {k : Nat → Act Context Data β}
    (rest : ∀ w, (footing actor).Obeys post ⟨f.lease.updated actor patch,f.marks⟩ (k w)) :
    (footing actor).Obeys post f (updateTransaction t version patch append >>= k) := by
  refine And.intro trivial (fun r succeeds => ?_)
  obtain ⟨w,rfl⟩ := succeeds
  exact rest w

/-! The unwinding, wherever the lease is. -/

/-- Between unwindings. -/
structure Marks.Rest (k : Marks Context Data) : Prop where
  even : k.Even
  returned : k.returned = none

/-- Before the next of these entries: one without a handler has been noticed. -/
structure Marks.Coming (actor : DfsmActor) (entries : List (CompensationEntryRecord Context Data)) (k : Marks Context Data) : Prop where
  queue : k.queue = entries
  returned : k.returned = none
  noticed : k.honest = false ∧ k.orphaned = true ∨ k.honest = true ∧ k.orphaned = Marks.orphan actor entries

/-- The same lease, or where the unwinding has thrown one that it broke. -/
abbrev Unwinds {α : Type} (l : Lease Context Data) (good : Marks Context Data → Prop) :
    Footing Context Data → Except Throwable α → Prop :=
  Within (fun f _ => f.lease = l ∧ good f.marks) (fun f => f.lease = l.breaks ∧ f.marks.Even)

variable {l : Lease Context Data} {b : Bool} {left : List MatchedTransition}

theorem comesEven {k : Marks Context Data} (even : k.Even) (returned : k.returned = none) (queue : List (CompensationEntryRecord Context Data)) :
    (k.comes actor queue).Coming actor queue := by
  refine ⟨rfl,returned,?_⟩
  have same : k.honest = !k.orphaned := even
  simp only [Marks.comes,same]
  cases k.orphaned <;> simp

theorem unwindsMark {t name reason} {entry : CompensationEntryRecord Context Data} {rest} {ctx : Context} {n : Nat}
    (here : f.lease = l) (queue : f.marks.queue = entry::rest)
    (due : Marks.Even { f.marks with honest := f.marks.honest && f.marks.returned = some entry.stepSeq }) :
    (footing actor).Obeys (Unwinds l (Marks.Coming actor rest)) f (do
      let compensatedAt ← now
      orThrow (← ask (.markCompensationExecuted t entry.stepSeq compensatedAt))
      emit (.onCompensate t actor.machine.id actor.actorId entry.stepSeq name entry.fromState entry.inputSnapshot ctx reason)
      pure (ctx,n) : Act Context Data (Context × Nat)) := by
  refine footingNow (fun at_ => And.intro trivial ?_)
  rintro _ rfl
  refine And.intro trivial (fun r _ => ?_)
  cases r with
  | error e => exact ⟨by rw [← here]; rfl,due⟩
  | ok _ =>
    refine ⟨here,?_⟩
    have tail : f.marks.queue.tail = rest := by rw [queue]; rfl
    have comes := @comesEven _ _ actor
      { f.marks with honest := f.marks.honest && f.marks.returned = some entry.stepSeq, returned := none } due rfl rest
    rw [← tail] at comes ⊢
    exact comes

theorem unwindsEntry {t reason} {entry : CompensationEntryRecord Context Data} {rest} {unwound : Context × Nat}
    (here : f.lease = l) (coming : f.marks.Coming actor (entry::rest)) :
    (footing actor).Obeys (Unwinds l (Marks.Coming actor rest)) f (actor.unwindEntry t reason unwound entry) := by
  unfold DfsmActor.unwindEntry DfsmActor.compensateEntry
  obtain ⟨queue,returned,noticed⟩ := coming
  cases resolved : actor.resolveCompensate entry.compensateKey with
  | none =>
    have orphaned : f.marks.orphaned = true := by
      rcases noticed with ⟨_,orphaned⟩ | ⟨_,orphaned⟩
      · exact orphaned
      · rw [orphaned,Marks.orphan]
        simp [resolved]
    exact unwindsMark here queue (by simp [Marks.Even,orphaned,returned])
  | some resolvedName =>
    have even : f.marks.Even := by
      rcases noticed with ⟨honest,orphaned⟩ | ⟨honest,orphaned⟩
      · rw [Marks.Even,honest,orphaned]
        rfl
      · rw [Marks.Even,honest,orphaned,Marks.orphan]
        simp [resolved]
    have threw : f.lease.breaks = l.breaks ∧ f.marks.Even := ⟨by rw [here],even⟩
    refine And.intro trivial (fun r _ => ?_)
    cases r with
    | error e => exact threw
    | ok contextBefore =>
      refine And.intro trivial (fun r _ => ?_)
      cases r with
      | error e => exact threw
      | ok updated =>
        refine unwindsMark here queue ?_
        simpa [footing,Footing.next,Marks.next,Marks.Even] using even

theorem unwindsStack {t reason} {ctx : Context} (here : f.lease = l) (rest : f.marks.Rest) :
    (footing actor).Obeys (Unwinds l Marks.Rest) f (actor.unwindCompensationStack t ctx reason) := by
  unfold DfsmActor.unwindCompensationStack
  refine And.intro trivial (fun r succeeds => ?_)
  obtain ⟨stack,rfl⟩ := succeeds
  have loop := @obeysFold _ _ _ _ _ (footing actor) ⟨f.lease,f.marks.comes actor stack⟩ _
    (fun left (f : Footing Context Data) (_ : Context × Nat) => f.lease = l ∧ f.marks.Coming actor left)
    (fun f => f.lease = l.breaks ∧ f.marks.Even) (actor.unwindEntry t reason)
    (fun entry left f unwound both => unwindsEntry both.1 both.2) stack (ctx,0) ⟨here,comesEven rest.even rest.returned stack⟩
  refine obeysMono loop ?_
  intro f r holds
  cases r with
  | error e => exact holds
  | ok unwound =>
    obtain ⟨same,_,returned,noticed⟩ := holds
    refine ⟨same,?_,returned⟩
    rcases noticed with ⟨honest,orphaned⟩ | ⟨honest,orphaned⟩ <;> rw [Marks.Even,honest,orphaned] <;> rfl

/-! The step. -/

/-- In the step, between unwindings. -/
structure Footing.Going (breaks : Bool) (left : List MatchedTransition) (f : Footing Context Data) : Prop where
  lease : f.lease.Going breaks left
  marks : f.marks.Rest

theorem goingEnded (going : f.Going true left) : f.Ended := ⟨goingKept going.lease,going.marks.even⟩

theorem goingUnwind {t reason} {ctx : Context} (going : f.Going b left) :
    (footing actor).Obeys (Leaves fun f _ => f.Going b left) f (actor.unwindCompensationStack t ctx reason) := by
  refine obeysMono (unwindsStack rfl going.marks) ?_
  intro f' r holds
  cases r with
  | ok _ => exact ⟨by rw [holds.1]; exact going.lease,holds.2⟩
  | error e => exact ⟨by rw [holds.1]; exact goingKept (goingBreaks going.lease),holds.2⟩

theorem goingApply {β : Type} {good workingState path target} {k : AppliedTransition → Act Context Data β}
    (going : f.Going (unresolved actor workingState path target) left)
    (rest : ∀ applied, f.Going false left → (footing actor).Obeys (Leaves good) f (k applied)) :
    (footing actor).Obeys (Leaves good) f (orThrow (actor.applyTarget workingState path target) >>= k) := by
  unfold DfsmActor.applyTarget
  unfold unresolved at going
  cases applies : applyTargetTransition actor.machine.toRawMachine workingState path target with
  | none =>
    rw [applies] at going
    exact goingEnded going
  | some applied =>
    rw [applies] at going
    exact rest applied going

variable {snapshot : TransactionSnapshot Context Data} {event : String} {stepStartedAt : Int} {metadata : List (String × Data)}

theorem goingFlush {w : Working Context Data} (going : f.Going b left) :
    (footing actor).Obeys (Leaves fun f _ => f.Going b left) f (DfsmActor.flushCompensations snapshot w) := by
  unfold DfsmActor.flushCompensations
  split
  · exact going
  · refine footingNow (fun at_ => ?_)
    rw [← bind_pure (updateTransaction _ _ _ _)]
    exact footingUpdate (fun version => ⟨goingUpdate going.lease (.inl rfl) rfl,going.marks⟩)

theorem goingRollBack {version failErr compensateRequested} {ctx : Context} (going : f.Going b left) :
    (footing actor).Obeys (Leaves fun f _ => f.Going b left) f
      (actor.rollBack snapshot version failErr compensateRequested ctx) := by
  unfold DfsmActor.rollBack
  cases compensateRequested with
  | false => exact going
  | true =>
    refine footingNow (fun at_ => footingUpdate (fun current => ?_))
    exact obeysSeq _ (goingUnwind ⟨goingUpdate going.lease (.inr rfl) rfl,going.marks⟩) (fun f unwound going => going)

theorem goingFail {m failErr compensateRequested fallbackTarget} {w : Working Context Data}
    (going : f.Going (unresolved actor w.workingState m.sourceNode.path fallbackTarget) left) :
    (footing actor).Obeys (Leaves fun f (p : Working Context Data × FailedStep) => f.Going false left ∧ p.2.failStatus.IsSettled) f
      (actor.failStep snapshot m failErr compensateRequested fallbackTarget w) := by
  unfold DfsmActor.failStep
  refine obeysSeq _ (goingFlush going) (fun f flushed going => ?_)
  refine obeysSeq _ (goingRollBack going) (fun f unwound going => ?_)
  exact goingApply going (fun applied going => ⟨going,resolvedSettled _ _ _⟩)

/-- What is left to go wrong after a step that succeeded: after the last, the cascade. -/
abbrev Onward (actor : DfsmActor) (left : List MatchedTransition) (f : Footing Context Data) (w : Working Context Data) : Prop :=
  f.Going (left.isEmpty && doneBreaks actor 20 w.workingState) left

theorem goingSucceed {m binding input result} {w : Working Context Data}
    (bound : actor.binding m.sourceNode.path m.edge.event = .ok binding)
    (going : f.Going (stepBreaks actor w.workingState (.ok result) m left) left) :
    (footing actor).Obeys (Leaves (Onward actor left)) f (actor.succeedStep event m binding input result w) := by
  have recorded {f : Footing Context Data} {moved : Working Context Data} (going : Onward actor left f moved) :
      (footing actor).Obeys (Leaves (Onward actor left)) f (DfsmActor.recordCompensation event m binding input w moved) := by
    unfold DfsmActor.recordCompensation
    cases binding.resolvedCompensateName with
    | none => exact going
    | some key => exact footingNow (fun _ => going)
  simp only [stepBreaks,bound,fallbackCompensate] at going
  unfold DfsmActor.succeedStep
  cases named : given (result.output.targetState.or binding.edge.target) with
  | none =>
    rw [named] at going
    exact recorded going
  | some target =>
    rw [named] at going
    dsimp only at going ⊢
    unfold DfsmActor.applyTarget
    cases applies : applyTargetTransition actor.machine.toRawMachine w.workingState m.sourceNode.path target with
    | none =>
      rw [applies] at going
      exact goingEnded going
    | some applied =>
      rw [applies] at going
      exact recorded going

def StepSettles (failed : Option FailedStep) : Prop := ∀ step, failed = some step → step.failStatus.IsSettled

/-- A failed step has nothing to go wrong any more, and one that succeeded what lies ahead. -/
def Resolved (actor : DfsmActor) (left : List MatchedTransition) (f : Footing Context Data) (w : Working Context Data)
    (failed : Option FailedStep) : Prop :=
  StepSettles failed ∧ if failed.isSome then f.Going false left else Onward actor left f w

theorem goingResolve {m binding input result} {w : Working Context Data}
    (bound : actor.binding m.sourceNode.path m.edge.event = .ok binding)
    (going : f.Going (stepBreaks actor w.workingState result m left) left) :
    (footing actor).Obeys (Leaves fun f (p : Working Context Data × Option FailedStep × BenchmarkOutcome) =>
        Resolved actor left f p.1 p.2.1) f
      (actor.resolveStep snapshot event m binding input result w) := by
  unfold DfsmActor.resolveStep
  cases result with
  | ok result => exact obeysSeq _ (goingSucceed bound going) (fun f next onward => ⟨by simp [StepSettles],onward⟩)
  | error failErr =>
    simp only [stepBreaks,bound,fallbackCompensate] at going ⊢
    refine obeysSeq _ (goingFail going) ?_
    rintro f ⟨next,step⟩ ⟨going,settles⟩
    exact ⟨fun other same => by cases same; exact settles,going⟩

theorem goingRecord {binding from_ to_ attempts t0 outcome error} (going : f.Going b left) :
    (footing actor).Obeys (Leaves fun f _ => f.Going b left) f
      (actor.recordBenchmark snapshot event binding from_ to_ attempts t0 outcome error) := by
  unfold DfsmActor.recordBenchmark
  refine footingNow (fun ended => ?_)
  split
  · refine footingNow (fun timestamp => And.intro trivial (fun r _ => ?_))
    cases r with
    | ok _ => exact going
    | error _ => exact ⟨goingKept (goingBreaks going.lease),going.marks.even⟩
  · exact going

theorem goingMatch {m input} {w : Working Context Data} (bound : ∃ binding, actor.binding m.sourceNode.path m.edge.event = .ok binding)
    (going : f.Going false (m::left)) :
    (footing actor).Obeys (Leaves fun f (p : Working Context Data × Option FailedStep) => Resolved actor left f p.1 p.2) f
      (actor.executeMatch snapshot event stepStartedAt metadata m input w) := by
  obtain ⟨binding,bound⟩ := bound
  unfold DfsmActor.executeMatch
  rw [bound]
  refine footingNow (fun t0 => obeysAsk trivial ?_)
  rintro ⟨result,attempts⟩ _
  have ran : (f.lease.ran actor w.workingState result).Going (stepBreaks actor w.workingState result m left) left := by
    obtain ⟨known,opened,split,broken,settled⟩ := going.lease
    refine ⟨known,opened,fun leased => ?_,?_,settled⟩
    · simp [Lease.ran,split leased]
    · simp only [Lease.ran,broken,Bool.and_false,Bool.false_or]
      cases leased : f.lease.leased with
      | false => rfl
      | true => simp [split leased]
  refine obeysSeq _ (goingResolve bound ⟨ran,going.marks⟩) ?_
  rintro f ⟨next,failed,outcome⟩ ⟨settles,going⟩
  have recorded {b : Bool} (going : f.Going b left) := @goingRecord _ _ actor f b left snapshot event binding w.workingState
    next.workingState attempts t0 outcome (failed.bind (·.failErr)) going
  cases failed with
  | none => exact obeysSeq _ (recorded going) (fun f _ going => ⟨settles,going⟩)
  | some step => exact obeysSeq _ (recorded going) (fun f _ going => ⟨settles,going⟩)

/-- After the matches: a failed step can settle, and one that succeeded has its cascade ahead. -/
def Ready (actor : DfsmActor) (f : Footing Context Data) (w : Working Context Data) (failed : Option FailedStep) : Prop :=
  StepSettles failed ∧ ∃ left, f.Going (failed.isNone && doneBreaks actor 20 w.workingState) left

theorem goingMatches (matches_ : List (MatchedTransition × Option Data)) (nonempty : matches_ ≠ [])
    (bound : ∀ m ∈ matches_.map (·.1), ∃ binding, actor.binding m.sourceNode.path m.edge.event = .ok binding) :
    ∀ {f : Footing Context Data} {w : Working Context Data}, f.Going false (matches_.map (·.1)) →
      (footing actor).Obeys (Leaves fun f (p : Working Context Data × Option FailedStep) => Ready actor f p.1 p.2) f
        (actor.executeMatches snapshot event stepStartedAt metadata matches_ w) := by
  induction matches_ with
  | nil => contradiction
  | cons x rest ih =>
    obtain ⟨m,input⟩ := x
    intro f w going
    rw [DfsmActor.executeMatches]
    refine obeysSeq _ (goingMatch (bound m List.mem_cons_self) going) ?_
    rintro f ⟨next,failed⟩ ⟨settles,going⟩
    cases failed with
    | some step => exact ⟨settles,_,going⟩
    | none =>
      cases rest with
      | nil => exact ⟨settles,_,going⟩
      | cons y rest => exact ih (by simp) (fun m mem => bound m (List.mem_cons_of_mem _ mem)) going

/-! Between steps. -/

/-- The call has leased nothing that it has not settled, and has come to no grief. -/
structure Footing.Closed (f : Footing Context Data) : Prop where
  lease : f.lease.Closed
  marks : f.marks.Rest

structure Footing.Free (f : Footing Context Data) : Prop where
  leased : f.lease.leased = false
  broken : f.lease.broken = false
  settled : f.lease.abandoned = false
  marks : f.marks.Rest

structure Footing.Fresh (snapshot : TransactionSnapshot Context Data) (f : Footing Context Data) : Prop extends f.Free where
  record : f.lease.record = some snapshot.toTransactionRecord

theorem closedEnded (closed : f.Closed) : f.Ended := ⟨closedKept closed.lease,closed.marks.even⟩

theorem freeClosed (free : f.Free) : f.Closed := by
  refine ⟨⟨free.broken,free.settled,fun leased => ?_⟩,free.marks⟩
  rw [free.leased] at leased
  contradiction

theorem freeUpdate {patch : TransactionPatch Context Data} (free : f.Free) (other : patch.status ≠ some .IN_FLIGHT) :
    Footing.Free ⟨f.lease.updated actor patch,f.marks⟩ :=
  ⟨by simp [Lease.updated,free.leased,other],free.broken,free.settled,free.marks⟩

theorem closedRead (closed : f.Closed) (snapshot : TransactionSnapshot Context Data) :
    Footing.Fresh snapshot ⟨f.lease.read snapshot,f.marks⟩ := by
  refine ⟨⟨rfl,closed.lease.broken,?_,closed.marks⟩,rfl⟩
  simp only [Lease.read,closed.lease.settled,Bool.false_or]
  cases leased : f.lease.leased with
  | false => rfl
  | true =>
    obtain ⟨row,here,settled⟩ := closed.lease.kept leased
    simp [here,settled]

/-- What decides nothing: it leaves the footing whatever the reply. -/
def Op.Quiet : Op Context Data → Prop
  | .getTransaction _ | .updateTransaction _ _ _ _ | .handler _ _ | .convertContext _ | .compensate _ _ => False
  | .recordTransition _ | .getUncompensatedStack _ | .markCompensationExecuted _ _ _ => False
  | .hook (.onCompensate _ _ _ _ _ _ _ _ _) => False
  | _ => True

theorem quietKeeps {op : Op Context Data} (quiet : op.Quiet) (r : Reply Context Data op) : f.next actor op r = f := by
  cases op with
  | hook event => cases event <;> first | rfl | exact absurd quiet id
  | _ => first | rfl | exact absurd quiet id

def Op.Still : Op Context Data → Prop
  | .getTransaction _ => True
  | op => op.Quiet

theorem stillCloses {op : Op Context Data} (still : op.Still) (r : Reply Context Data op) (closed : f.Closed) :
    (f.next actor op r).Closed := by
  by_cases quiet : op.Quiet
  · rw [quietKeeps quiet]
    exact closed
  · cases op with
    | getTransaction t =>
      cases r with
      | error e => exact closed
      | ok found =>
        cases found with
        | none => exact closed
        | some snapshot => exact freeClosed (closedRead closed snapshot).toFree
    | _ => exact absurd still quiet

theorem closedAsks {α : Type} {p : Act Context Data α} (asks : p.Asks Op.Still) (closed : f.Closed) :
    (footing actor).Obeys (Leaves fun f _ => f.Closed) f p := by
  refine obeysMono (@obeysAsks _ _ _ _ _ (footing actor) f Op.Still Footing.Closed p asks ?_ closed) ?_
  · intro f op closed still
    exact ⟨trivial,fun r _ => stillCloses still r closed⟩
  · intro f r closed
    cases r with
    | ok _ => exact closed
    | error _ => exact closedEnded closed

theorem quietAsks {α : Type} {p : Act Context Data α} (asks : p.Asks Op.Quiet) (closed : f.Closed) :
    (footing actor).Obeys (Leaves fun f' _ => f' = f) f p := by
  refine obeysMono (@obeysAsks _ _ _ _ _ (footing actor) f Op.Quiet (· = f) p asks ?_ rfl) ?_
  · rintro _ op rfl quiet
    exact ⟨trivial,fun r _ => quietKeeps quiet r⟩
  · rintro _ r rfl
    cases r with
    | ok _ => rfl
    | error _ => exact closedEnded closed

theorem emitStill {event : HookEvent Context Data} (quiet : (Op.hook event).Quiet) : (emit event).Asks Op.Still :=
  Program.asksRequest quiet (fun _ => Program.asksExcept)

theorem whenStill {fires : Bool} {event : HookEvent Context Data} (quiet : (Op.hook event).Quiet) :
    (DfsmActor.emitWhen fires event).Asks Op.Still := by
  unfold DfsmActor.emitWhen
  split
  · exact emitStill quiet
  · trivial

theorem terminalStill {t state status error} {ctx : Context} :
    (actor.emitSettledTerminalHooks t state status ctx error : Act Context Data Unit).Asks Op.Still :=
  Program.asksBind (whenStill trivial) (fun _ => whenStill trivial)

theorem getStill {t : String} : (getTransaction t : Act Context Data (Option (TransactionSnapshot Context Data))).Asks Op.Still :=
  Program.asksRequest trivial (fun _ => Program.asksExcept)

theorem effectStill {t state} {ctx : Context} {eff : EffectInvocation Data} :
    (actor.invokeSingleEffect t state ctx eff).Asks Op.Still := by
  have executes {name payload} : (actor.executeEffect t state ctx name payload : Act Context Data Unit).Asks Op.Still := by
    refine Program.asksRequest trivial (fun revision => Program.asksBind ?_ (fun latest => ?_))
    · unfold DfsmActor.readMoved
      split
      · exact getStill
      · trivial
    · exact Program.asksRequest trivial (fun _ => Program.asksExcept)
  unfold DfsmActor.invokeSingleEffect
  refine Program.asksRequest trivial (fun depth => ?_)
  dsimp only
  split
  · trivial
  · split
    · split <;> trivial
    · refine Program.asksRequest trivial (fun _ => Program.asksBind (Program.asksAttempt executes) (fun _ => ?_))
      exact Program.asksRequest trivial (fun _ => Program.asksRequest trivial (fun _ => Program.asksExcept))

theorem concludeStill {input value steps duration error} {w : Working Context Data} {status} :
    (actor.conclude snapshot event input w status value steps duration error).Asks Op.Still := by
  have dropped : (DfsmActor.dropRevision snapshot : Act Context Data Unit).Asks Op.Still := by
    refine Program.asksRequest trivial (fun depth => ?_)
    split
    · exact ⟨trivial,fun _ => trivial⟩
    · trivial
  have reread {before after} : (DfsmActor.rereadNested snapshot before after).Asks Op.Still := by
    unfold DfsmActor.rereadNested
    split
    · trivial
    · exact getStill
  unfold DfsmActor.conclude
  refine Program.asksBind (emitStill trivial) (fun _ => Program.asksBind terminalStill (fun _ => ?_))
  refine Program.asksRequest trivial (fun _ => Program.asksBind (Program.asksFold (fun _ _ => effectStill) _ _) (fun _ => ?_))
  refine Program.asksRequest trivial (fun _ => Program.asksBind dropped (fun _ => Program.asksBind reread (fun latest => ?_)))
  cases latest <;> trivial

/-! From the lease to the settling commit. -/

theorem goingLease {rawInput} (fresh : f.Fresh snapshot) :
    (footing actor).Obeys (Leaves fun f _ =>
        f.Going false (resolveTransitionsForEvent actor.machine.toRawMachine snapshot.stateValue event)) f
      (actor.takeLease snapshot event stepStartedAt rawInput) := by
  have unleased {p : Prop} (leased : f.lease.leased = true) : p := by
    rw [fresh.leased] at leased
    contradiction
  unfold DfsmActor.takeLease
  split
  · exact ⟨⟨by rw [fresh.record]; rfl,unleased,unleased,by simp [fresh.broken],fresh.settled⟩,fresh.marks⟩
  · rw [← bind_pure (updateTransaction _ _ _ _)]
    refine footingUpdate (fun version => ⟨⟨?_,fun _ => ?_,fun _ => ?_,?_,fresh.settled⟩,fresh.marks⟩)
    · simp [Lease.updated,fresh.record]
    · exact ⟨_,by rw [Lease.updated,fresh.record]; rfl,.inl rfl⟩
    · simp [Lease.updated,fresh.record]
    · simp [Lease.updated,fresh.broken]

theorem doneKeeps {pendingDone} {w : Working Context Data} (going : f.Going b left) :
    (footing actor).Obeys (Leaves fun f w' => f.Going b left ∧ w'.workingState = w.workingState) f
      (actor.executeDone snapshot metadata pendingDone w) := by
  unfold DfsmActor.executeDone
  split
  · exact ⟨going,rfl⟩
  · refine footingNow (fun at_ => obeysAsk trivial ?_)
    rintro ⟨result,attempts⟩ _
    cases result <;> exact ⟨going,rfl⟩

theorem goingCascade (rounds : Nat) : ∀ {f : Footing Context Data} {w : Working Context Data},
    f.Going (doneBreaks actor rounds w.workingState) left →
      (footing actor).Obeys (Leaves fun f _ => f.Going false left) f (actor.cascadeDone snapshot metadata rounds w) := by
  induction rounds with
  | zero => intro f w going; exact going
  | succ rounds ih =>
    intro f w going
    rw [doneBreaks] at going
    rw [DfsmActor.cascadeDone]
    cases pending : findPendingOnDone actor.machine.toRawMachine w.workingState with
    | none =>
      rw [pending] at going
      exact going
    | some pendingDone =>
      refine obeysSeq _ (doneKeeps going) ?_
      rintro f ran ⟨going,same⟩
      rw [pending,Option.any_some] at going
      cases named : given pendingDone.edge.target with
      | none =>
        rw [named] at going
        exact going
      | some target =>
        rw [named,Option.any_some,← same] at going
        dsimp only
        unfold DfsmActor.applyTarget
        cases applies : applyTargetTransition actor.machine.toRawMachine ran.workingState pendingDone.sourceNode.path target with
        | none =>
          rw [applies] at going
          exact goingEnded going
        | some applied =>
          rw [applies] at going
          exact ih going

theorem goingSettle {w : Working Context Data} {status lastError completedAt append} (going : f.Going false left)
    (final : status.IsSettled) : (footing actor).Obeys (Leaves fun f _ => f.Closed) f
      (DfsmActor.settle snapshot w status lastError completedAt append) := by
  refine footingUpdate (fun version => And.intro trivial (fun _ _ => ?_))
  obtain ⟨row,here⟩ := Option.isSome_iff_exists.mp going.lease.known
  refine ⟨⟨?_,going.lease.settled,fun _ => ⟨_,congrArg (Option.map _) here,final,rfl,rfl,rfl⟩⟩,going.marks⟩
  exact going.lease.broken.trans (Bool.and_false _)

theorem goingSettleStep {input failed} {w : Working Context Data} (ready : Ready actor f w failed) :
    (footing actor).Obeys (Leaves fun f _ => f.Closed) f
      (actor.settleStep snapshot event stepStartedAt metadata input w failed) := by
  obtain ⟨settles,left,going⟩ := ready
  cases failed with
  | some step =>
    refine footingNow (fun completedAt => obeysSeq _ (goingSettle going (settles step rfl)) ?_)
    exact fun f _ closed => closedAsks concludeStill closed
  | none =>
    refine obeysSeq _ (goingCascade 20 going) (fun f w going => footingNow (fun completedAt => ?_))
    refine obeysSeq _ (goingSettle going (resolvedSettled _ _ _)) ?_
    exact fun f _ closed => closedAsks concludeStill closed

theorem inputsQuiet {rawInput matched} (closed : f.Closed) :
    (footing actor).Obeys (Leaves fun f' inputs => f' = f ∧ inputs.length = matched.length ∧
        ∀ m ∈ matched, ∃ binding, actor.binding m.sourceNode.path m.edge.event = .ok binding) f
      (actor.validateInputs rawInput matched : Act Context Data (List (Option Data))) := by
  unfold DfsmActor.validateInputs
  induction matched with
  | nil => exact ⟨rfl,rfl,by simp⟩
  | cons m rest ih =>
    rw [List.mapM_cons]
    have one : (footing actor).Obeys (Leaves fun f' _ => f' = f ∧
        ∃ binding, actor.binding m.sourceNode.path m.edge.event = .ok binding) f (do
          let _ ← orThrow (actor.binding m.sourceNode.path m.edge.event)
          orThrow (← ask (.validateInput m.sourceNode.path m.edge.event rawInput)) : Act Context Data (Option Data)) := by
      cases actor.binding m.sourceNode.path m.edge.event with
      | error e => exact closedEnded closed
      | ok binding =>
        refine obeysAsk trivial (fun r _ => ?_)
        cases r with
        | ok a => exact ⟨rfl,binding,rfl⟩
        | error e => exact closedEnded closed
    refine obeysSeq _ one ?_
    rintro _ input ⟨rfl,bound⟩
    refine obeysSeq _ ih ?_
    rintro _ inputs ⟨rfl,length,all⟩
    refine ⟨rfl,by simp [length],fun m' mem => ?_⟩
    rcases List.mem_cons.mp mem with rfl | later
    · exact bound
    · exact all m' later

theorem freshExecutes {rawInput} (fresh : f.Fresh snapshot) :
    (footing actor).Obeys (Leaves fun f _ => f.Closed) f (actor.executeTransitionOnSnapshot snapshot event rawInput metadata) := by
  have closed := freeClosed fresh.toFree
  unfold DfsmActor.executeTransitionOnSnapshot
  dsimp only
  split
  · exact closedEnded closed
  · rename_i some
    refine obeysSeq _ (inputsQuiet closed) ?_
    rintro _ inputs ⟨rfl,length,bound⟩
    refine obeysSeq _ (quietAsks (Program.asksRequest trivial (fun _ => Program.asksExcept)) closed) ?_
    rintro _ _ rfl
    unfold DfsmActor.executeLeased
    refine footingNow (fun startedAt => obeysSeq _ (goingLease fresh) (fun f version going => ?_))
    have zipped : (List.zip (resolveTransitionsForEvent actor.machine.toRawMachine snapshot.stateValue event) inputs).map (·.1) =
        resolveTransitionsForEvent actor.machine.toRawMachine snapshot.stateValue event := List.map_fst_zip (by omega)
    refine obeysSeq _ (goingMatches _ ?_ (by rw [zipped]; exact bound) (by rw [zipped]; exact going)) ?_
    · intro empty
      rw [empty] at zipped
      exact some zipped.symm
    · rintro f ⟨w,failed⟩ ready
      exact goingSettleStep ready

/-! Recovery, which an actor that is not ready yet begins with. -/

theorem freeUnwind {t reason} {ctx : Context} (free : f.Free) :
    (footing actor).Obeys (Leaves fun f _ => f.Free) f (actor.unwindCompensationStack t ctx reason) := by
  refine obeysMono (unwindsStack rfl free.marks) ?_
  intro f' r holds
  cases r with
  | ok _ => exact ⟨holds.1 ▸ free.leased,holds.1 ▸ free.broken,holds.1 ▸ free.settled,holds.2⟩
  | error e =>
    have whole : f.lease.breaks.broken = false := by simp [Lease.breaks,free.broken,free.leased]
    refine ⟨holds.1 ▸ iff_of_true ⟨free.settled,fun leased => ?_⟩ whole,holds.2⟩
    have leased : f.lease.leased = true := leased
    rw [free.leased] at leased
    contradiction

theorem freeLast {t version} {patch : Int → TransactionPatch Context Data} (free : f.Free) (other : ∀ at_, (patch at_).status ≠ some .IN_FLIGHT) :
    (footing actor).Obeys (Leaves fun f _ => f.Closed) f (do
      let updatedAt ← now
      let _ ← updateTransaction t version (patch updatedAt) : Act Context Data Unit) :=
  footingNow (fun at_ => footingUpdate (fun _ => freeClosed (freeUpdate free (other at_))))

theorem freshContinues {t} (fresh : f.Fresh snapshot) :
    (footing actor).Obeys (Leaves fun f _ => f.Closed) f (actor.recoverByContinuing t snapshot) := by
  unfold DfsmActor.recoverByContinuing
  refine footingNow (fun at_ => footingUpdate (fun v => ?_))
  have free : Footing.Free ⟨f.lease.updated actor (unlocked at_),f.marks⟩ := freeUpdate fresh.toFree (by simp [unlocked])
  cases snapshot.activeStep with
  | none => exact freeClosed free
  | some activeStep =>
    refine footingGet (freeClosed free) (fun again => ?_)
    have reread := closedRead (freeClosed free) again
    dsimp only
    split
    · exact obeysSeq _ (freshExecutes reread) (fun _ _ closed => closed)
    · exact freeClosed reread.toFree

theorem freshRecovers {t mode} (fresh : f.Fresh snapshot) :
    (footing actor).Obeys (Leaves fun f _ => f.Closed) f (actor.applyToSnapshot t mode snapshot) := by
  cases mode with
  | STOP => exact freeClosed fresh.toFree
  | DELETE =>
    refine And.intro trivial (fun r succeeds => ?_)
    obtain ⟨deleted,rfl⟩ := succeeds
    exact freeClosed fresh.toFree
  | MARK_FAIL => exact freeLast fresh.toFree (fun at_ => by simp [markedFailed])
  | COMPENSATE =>
    refine footingNow (fun at_ => footingUpdate (fun v => ?_))
    refine obeysSeq _ (freeUnwind (freeUpdate fresh.toFree (by simp))) (fun f unwind free => ?_)
    exact freeLast free (fun at_ => by simp [compensated])
  | CONTINUE => exact freshContinues fresh

theorem closedRecovers {t mode} (closed : f.Closed) :
    (footing actor).Obeys (Leaves fun f _ => f.Closed) f (actor.applyRecoveryMode t mode : Act Context Data Unit) :=
  footingGet closed (fun snapshot => freshRecovers (closedRead closed snapshot))

theorem closedSweeps {swept summary} (closed : f.Closed) :
    (footing actor).Obeys (Leaves fun f _ => f.Closed) f (actor.sweepSummary swept summary : Act Context Data _) := by
  unfold DfsmActor.sweepSummary
  dsimp only
  split
  · exact closed
  · exact obeysSeq _ (closedRecovers closed) (fun _ _ closed => closed)

theorem purgeStill {sweptAt threshold retentionMs} : (actor.purgeExpired sweptAt threshold retentionMs : Act Context Data Nat).Asks Op.Still := by
  unfold DfsmActor.purgeExpired
  split
  · trivial
  · refine Program.asksRequest trivial (fun r => Program.asksBind Program.asksExcept (fun expired => ?_))
    refine Program.asksFold (fun purged exp => Program.asksRequest trivial (fun r => ?_)) _ _
    exact Program.asksBind Program.asksExcept (fun _ => trivial)

theorem closedSweep {threshold retentionMs} (closed : f.Closed) :
    (footing actor).Obeys (Leaves fun f _ => f.Closed) f (actor.runRecoverySweep threshold retentionMs : Act Context Data SweepReport) := by
  unfold DfsmActor.runRecoverySweep
  refine footingNow (fun sweptAt => And.intro trivial (fun r succeeds => ?_))
  obtain ⟨stuckList,rfl⟩ := succeeds
  show (footing actor).Obeys _ f (actor.sweepBatch sweptAt threshold retentionMs stuckList)
  unfold DfsmActor.sweepBatch
  refine obeysSeq (fun f _ => f.Closed) ?_ (fun f swept closed => ?_)
  · exact obeysFold (fun _ (f : Footing Context Data) _ => f.Closed) (fun item rest f swept closed => closedSweeps closed) stuckList closed
  · exact obeysSeq _ (closedAsks purgeStill closed) (fun _ _ closed => closed)

theorem closedReadies (closed : f.Closed) :
    (footing actor).Obeys (Leaves fun f _ => f.Closed) f (actor.ensureReady : Act Context Data Unit) := by
  have sweeps {f : Footing Context Data} (closed : f.Closed) :
      (footing actor).Obeys (Leaves fun f _ => f.Closed) f (actor.initialSweep : Act Context Data Unit) := by
    unfold DfsmActor.initialSweep
    split
    · exact obeysSeq _ (closedSweep closed) (fun _ _ closed => closed)
    · exact closed
  have starts {f : Footing Context Data} (closed : f.Closed) :
      (footing actor).Obeys (Leaves fun f _ => f.Closed) f (actor.startEnabled : Act Context Data Unit) := by
    unfold DfsmActor.startEnabled
    split
    · exact ⟨trivial,fun _ _ => closed⟩
    · exact closed
  unfold DfsmActor.ensureReady DfsmActor.initializeActor
  refine obeysAsk trivial (fun isClosed _ => ?_)
  cases isClosed with
  | true => exact closedEnded closed
  | false =>
    refine obeysAsk trivial (fun isInitialized _ => ?_)
    cases isInitialized with
    | true => exact closed
    | false =>
      refine obeysAsk trivial (fun isInitialized _ => ?_)
      cases isInitialized with
      | true => exact closed
      | false =>
        refine And.intro trivial ?_
        rintro _ rfl
        exact obeysAsk trivial (fun _ _ => obeysSeq _ (sweeps closed) (fun _ _ closed => starts closed))

end

/-- No abandoned step and an honest rollback: whatever user code does, when a transition ends
every record that it leased is settled exactly when nothing broke between the lease and the
commit, and every mark is for an entry whose handler has returned exactly when the unwinding
came to no entry without one. -/
theorem leasesKept (actor : DfsmActor) (t event : String) (input : Option Data) (fields : List (String × Data)) :
    (footing actor).Obeys (fun f _ => (f.lease.Kept ↔ f.lease.broken = false) ∧ (f.marks.honest = true ↔ f.marks.orphaned = false))
      ({} : Footing Context Data) (actor.transition t event input fields) := by
  have start : ({} : Footing Context Data).Closed :=
    ⟨⟨rfl,rfl,fun leased => absurd leased (by simp)⟩,⟨rfl,rfl⟩⟩
  have whole : (footing actor).Obeys (Leaves fun f _ => f.Closed) ({} : Footing Context Data)
      (actor.transition t event input fields) := by
    unfold DfsmActor.transition
    refine obeysSeq _ (closedReadies start) (fun f _ closed => ?_)
    unfold DfsmActor.transitionReady
    refine footingGet (closedEnded closed) (fun snapshot => ?_)
    have fresh := closedRead closed snapshot
    dsimp only
    split
    · exact freshExecutes fresh
    · exact closedEnded (freeClosed fresh.toFree)
  refine obeysMono whole (fun f r holds => ?_)
  have ended : f.Ended := by
    cases r with
    | ok _ => exact closedEnded holds
    | error _ => exact holds
  refine ⟨ended.kept,?_⟩
  rw [show f.marks.honest = !f.marks.orphaned from ended.even]
  simp

/-- What `finalizeAndValidate` lets through. -/
def Accepted (machine : MachineDefinition) : Prop := ∃ raw, finalizeAndValidate raw = .ok machine

def gate : RawMachine where
  id := "gate"
  initial := some "shut"
  states := [("shut",{ key := "shut", path := "shut", type := .atomic
                       on := [("open",{ event := "open", target := some "opened", transition := some "unlock" })] }),
    ("opened",{ key := "opened", path := "opened", type := .final })]

def gateActor : DfsmActor where
  machine := withErrorState gate
  actorId := "porter"
  compiledBindings := [("shut::open",{
    edge := { event := "open", target := some "opened", transition := some "unlock" }, resolvedTransitionName := some "unlock" })]
  resolveCompensate _ := none

theorem gateAccepted : Accepted gateActor.machine := ⟨gate,rfl⟩

def gateRecord : TransactionSnapshot Unit Unit where
  transactionId := "t"
  machineId := "gate"
  machineVersion := "1.0.0"
  actorId := "porter"
  stateValue := .str "shut"
  context := ()
  status := .IDLE
  version := 1
  createdAt := 0
  updatedAt := 0
  compensationStack := []

/-- The gate's handler returns a state that the gate does not have. -/
theorem leasesKeptNowhere : ¬∀ (actor : DfsmActor), Accepted actor.machine → ∀ t event (input : Option Unit) fields,
    (footing actor).Obeys (fun f _ => f.lease.Kept ∧ f.marks.honest = true) ({} : Footing Unit Unit)
      (actor.transition t event input fields) := by
  intro claim
  have start := claim gateActor gateAccepted "t" "open" none []
  have opened := And.right start false trivial
  have ready := And.right opened true trivial
  have read := And.right ready (.ok (some gateRecord)) ⟨_,rfl⟩
  have validated := And.right read (.ok none) trivial
  have notified := And.right validated (.ok ()) trivial
  have stamped := And.right notified (0 : Int) trivial
  have leased := And.right stamped (.ok 2) ⟨2,rfl⟩
  have begun := And.right leased (0 : Int) trivial
  have ran := And.right begun (.ok { output := { targetState := some "nowhere" }, nextContext := () },1) trivial
  obtain ⟨row,here,settled⟩ := ran.1.2 rfl
  cases here
  exact absurd settled.1 (by simp [TransactionStatus.IsSettled,TransactionPatch.apply])

end Dfsm.Java
