import Dfsm.Runtime.Recovery
import Dfsm.Lib.Pool

/-! The stages one call goes through on one transaction, as its requests and their
replies show them, and that every operation of the actor keeps to them. -/
namespace Dfsm

variable {Context Data : Type}

def HookEvent.transactionId : HookEvent Context Data → String
  | .onStart id _ _ _ _ _ => id
  | .beforeTransition id _ _ _ _ _ _ => id
  | .afterTransition id _ _ _ _ _ _ _ _ _ _ _ _ => id
  | .onCompensate id _ _ _ _ _ _ _ _ => id
  | .onComplete id _ _ _ _ => id
  | .onTerminal id _ _ _ _ _ _ => id

/-- The transaction a request is about; scans, deletions and the rest are about none. -/
def Op.about : Op Context Data → Option String
  | .createTransaction record => some record.transactionId
  | .getTransaction id => some id
  | .updateTransaction id _ _ _ => some id
  | .getUncompensatedStack id => some id
  | .markCompensationExecuted id _ _ => some id
  | .handler _ call => some call.transactionId
  | .doneHandler _ call => some call.transactionId
  | .compensate _ request => some request.transactionId
  | .effect _ request => some request.transactionId
  | .hook event => some event.transactionId
  | .recordTransition telemetry => some telemetry.transactionId
  | .bumpTransitionRevision id => some id
  | .transitionRevision id => some id
  | .dropTransitionRevision id => some id
  | .effectChainDepth id => some id
  | .setEffectChainDepth id _ => some id
  | _ => none

inductive Stage (Context Data : Type) where
  | idle
  /-- Listed by a scan. -/
  | scanned (version : Nat) (status : TransactionStatus)
  /-- Read again after the scan. -/
  | reread (version : Nat) (status : TransactionStatus)
  /-- Read, or unlocked by the call itself. -/
  | loaded (version : Nat) (status : TransactionStatus)
  /-- In a forward step: with the lease, or on a snapshot that was in flight already. -/
  | holding (version : Nat)
  | compensating (version : Nat)
  /-- The stack has been read; these entries are still to be marked. -/
  | unwinding (version : Nat) (entries : List (CompensationEntryRecord Context Data))
  /-- The handler of the first of them has run. -/
  | handled (version : Nat) (entries : List (CompensationEntryRecord Context Data))
  | settled
  | ended

namespace TransactionUpdatePatch

def IsUnlock (patch : TransactionUpdatePatch Context Data) : Prop :=
  patch.status = some .IDLE ∧ patch.stateValue = none

/-- An update of a forward step: its compensations, the start of a rollback, or its commit. -/
def IsForward (patch : TransactionUpdatePatch Context Data) (append : List (PendingCompensation Context Data)) : Prop :=
  patch.stateValue = none ∧ patch.status = none ∨
  patch.stateValue = none ∧ patch.status = some .COMPENSATING ∧ append = [] ∨
  patch.stateValue.isSome = true ∧
    (patch.status = some .IDLE ∨ patch.status = some .COMPLETED ∨ patch.status = some .FAILED)

/-- What a call may make of a transaction it has only scanned. -/
def IsRecovery (patch : TransactionUpdatePatch Context Data) : Prop :=
  patch.stateValue = none ∧ patch.status = some .COMPENSATING ∨ patch.IsUnlock ∨
  patch.stateValue.isSome = true ∧ (patch.status = some .FAILED ∨ patch.status = some .COMPENSATED)

/-- A lease is set only as an actor takes it, and runs from the update on. -/
def Leases (actors : Actor → Prop) (patch : TransactionUpdatePatch Context Data) : Prop :=
  ∀ expiry, patch.leaseExpiresAt = some (some expiry) → patch.status = some .IN_FLIGHT ∧
    ∃ actor, actors actor ∧ expiry = patch.updatedAt + max 30000 actor.recoveryConfig.stuckThresholdMs

end TransactionUpdatePatch

theorem leaseless {actors : Actor → Prop} {patch : TransactionUpdatePatch Context Data} (none : patch.leaseExpiresAt.join = none) :
    patch.Leases actors := by
  intro expiry set
  rw [set] at none
  contradiction

/-- A new record: settled already or idle, and without a lease. -/
def TransactionRecord.IsNew (record : TransactionRecord Context Data) : Prop :=
  (record.status = .IDLE ∨ record.status = .COMPLETED ∨ record.status = .FAILED) ∧ record.leaseExpiresAt = none

namespace Stage

def updates : Stage Context Data → Nat → TransactionUpdatePatch Context Data →
    List (PendingCompensation Context Data) → Prop
  | .scanned version _, v, patch, append => v = version ∧ append = [] ∧ patch.IsRecovery
  | .reread version _, v, patch, append => v = version ∧ append = [] ∧ patch.IsUnlock
  | .loaded version status, v, patch, append => v = version ∧
      status ≠ .IN_FLIGHT ∧ append = [] ∧ patch.stateValue = none ∧ patch.status = some .IN_FLIGHT
  | .holding version, v, patch, append => v = version ∧ patch.IsForward append
  | .unwinding version [], v, patch, append => v = version ∧ append = [] ∧
      patch.stateValue.isSome = true ∧ patch.status = some .COMPENSATED
  | _, _, _, _ => False

def updated (version : Nat) (patch : TransactionUpdatePatch Context Data) : Stage Context Data :=
  match patch.status with
  | none => .holding version
  | some .IN_FLIGHT => .holding version
  | some .COMPENSATING => .compensating version
  | some .IDLE => if patch.stateValue.isNone then .loaded version .IDLE else .settled
  | _ => .settled

/-- The entry a call is at, before its handler has run. -/
def At (s : Stage Context Data) (entry : CompensationEntryRecord Context Data) : Prop :=
  ∃ version rest, s = .unwinding version (entry::rest)

def allows (actors : Actor → Prop) (s : Stage Context Data) : Op Context Data → Prop
  | .createTransaction _ => False
  | .getTransaction _ => s = .idle ∨ (∃ version status, s = .scanned version status) ∨ s = .settled
  | .updateTransaction _ version patch append => s.updates version patch append ∧ patch.Leases actors
  | .getUncompensatedStack _ => ∃ version, s = .compensating version
  | .compensate resolvedName request => ∃ entry, s.At entry ∧ request.stepSeq = entry.stepSeq ∧
      ∃ actor, actors actor ∧ actor.resolveCompensate entry.compensateKey = some resolvedName
  | .markCompensationExecuted _ stepSeq _ => ∃ entry, stepSeq = entry.stepSeq ∧
      (s.At entry ∧ (∃ actor, actors actor ∧ actor.resolveCompensate entry.compensateKey = none) ∨
        ∃ version rest, s = .handled version (entry::rest))
  | .handler _ _ => ∃ version, s = .holding version
  | .doneHandler _ _ => ∃ version, s = .holding version
  | .queryTransactions _ _ _ => False
  | .deleteTransactions _ => False
  | _ => True

def next (s : Stage Context Data) : (op : Op Context Data) → Reply Context Data op → Stage Context Data
  | .createTransaction _, .ok _ => .settled
  | .createTransaction _, .error _ => .ended
  | .getTransaction _, found => match s, found with
    | .settled, _ => .settled
    | _, none => .ended
    | .scanned _ _, some snapshot => .reread snapshot.version snapshot.status
    | _, some snapshot => .loaded snapshot.version snapshot.status
  | .updateTransaction _ _ patch _, .ok version => updated version patch
  | .updateTransaction _ _ _ _, .error _ => .ended
  | .getUncompensatedStack _, entries => match s with
    | .compensating version => .unwinding version entries
    | _ => s
  | .compensate _ _, .ok _ => match s with
    | .unwinding version entries => .handled version entries
    | _ => s
  | .compensate _ _, .error _ => .ended
  | .markCompensationExecuted _ _ _, _ => match s with
    | .unwinding version entries => .unwinding version entries.tail
    | .handled version entries => .unwinding version entries.tail
    | _ => s
  | .hook _, .error _ => .ended
  | .hook (.beforeTransition _ _ _ _ _ _ _), .ok _ => match s with
    | .loaded version .IN_FLIGHT => .holding version
    | _ => s
  | .recordTransition _, .error _ => .ended
  | _, _ => s

end Stage

/-- The protocol of a call on one transaction, which exists; a call that has ended asks
nothing more. -/
def stages (actors : Actor → Prop) (t : String) : Protocol (Reply Context Data) (Stage Context Data) where
  allowed s op := s ≠ .ended ∧ (op.about = none ∨ op.about = some t) ∧ s.allows actors op
  replies op r := match op, r with
    | .getTransaction id, some snapshot => snapshot.transactionId = id
    | _, _ => True
  after s op r := s.next op r

section
open Protocol Act
variable {actors : Actor → Prop} {t : String}

@[simp] theorem stagesAfter (s : Stage Context Data) (op : Op Context Data) (r : Reply Context Data op) :
    (stages actors t).after s op r = s.next op r := rfl

theorem quiet {s : Stage Context Data} {op : Op Context Data} (running : s ≠ .ended)
    (here : op.about = none ∨ op.about = some t) (allowed : s.allows actors op) : (stages actors t).allowed s op :=
  ⟨running,here,allowed⟩

theorem obeysNow {β : Type} {s : Stage Context Data} {post} {f : Int → Act Context Data β} (running : s ≠ .ended)
    (rest : ∀ at_, (stages actors t).Obeys post s (f at_)) : (stages actors t).Obeys post s (now >>= f) :=
  obeysAsk (quiet running (.inl rfl) trivial) (fun r _ => rest r)

theorem obeysEmit {β : Type} {s : Stage Context Data} {good : Stage Context Data → β → Prop} {event : HookEvent Context Data}
    {f : Unit → Act Context Data β} (running : s ≠ .ended) (here : event.transactionId = t)
    (stays : s.next (.hook event) (.ok ()) = s) (rest : (stages actors t).Obeys (Ends good) s (f ())) : (stages actors t).Obeys (Ends good) s (emit event >>= f) := by
  refine And.intro (quiet running (.inr (congrArg some here)) trivial) (fun r _ => ?_)
  cases r with
  | ok _ =>
    rw [stagesAfter,stays]
    exact rest
  | error _ => trivial

theorem obeysUpdate {β : Type} {s : Stage Context Data} {good : Stage Context Data → β → Prop} {version patch append}
    {f : Nat → Act Context Data β} (running : s ≠ .ended) (allowed : s.updates version patch append)
    (leases : patch.Leases actors) (rest : ∀ w, (stages actors t).Obeys (Ends good) (Stage.updated w patch) (f w)) :
    (stages actors t).Obeys (Ends good) s (updateTransaction t version patch append >>= f) := by
  refine And.intro (quiet running (.inr rfl) ⟨allowed,leases⟩) (fun r _ => ?_)
  cases r with
  | ok w => exact rest w
  | error _ => trivial

theorem settledForward (machine : RawMachine) (v : StateValue) :
    resolveSettledTransactionStatus machine v false = .IDLE ∨ resolveSettledTransactionStatus machine v false = .COMPLETED ∨
      resolveSettledTransactionStatus machine v false = .FAILED := by
  unfold resolveSettledTransactionStatus
  simp only [Bool.false_eq_true,if_false]
  split
  · exact .inr (.inr rfl)
  · split
    · exact .inr (.inl rfl)
    · exact .inl rfl

variable {snapshot : TransactionSnapshot Context Data} {event : String} {stepStartedAt : Int} {metadata : Metadata Data}
  {actor : Actor}

theorem validateInputsStages {s : Stage Context Data} (running : s ≠ .ended) {rawInput matched} :
    (stages actors t).Obeys (Ends fun s' _ => s' = s) s (actor.validateInputs rawInput matched) := by
  unfold Actor.validateInputs
  induction matched with
  | nil => exact rfl
  | cons m rest ih =>
    rw [List.mapM_cons]
    have one : (stages actors t).Obeys (Ends fun s' _ => s' = s) s (do
        let _ ← orThrow (actor.binding m.sourceNode.path m.edge.event)
        orThrow (← ask (.validateInput m.sourceNode.path m.edge.event rawInput)) : Act Context Data Data) := by
      refine obeysExcept (fun binding _ => obeysAsk (quiet running (.inl rfl) trivial) (fun r _ => ?_))
      cases r with
      | ok a => exact rfl
      | error e => trivial
    refine obeysSeq _ one ?_
    rintro _ input rfl
    exact obeysSeq _ ih (fun _ _ here => here)

theorem succeedStepStages {s : Stage Context Data} (running : s ≠ .ended) {m binding input output} {w : Working Context Data} :
    (stages actors t).Obeys (Ends fun s' (w' : Working Context Data) => s' = s ∧ w'.currentVersion = w.currentVersion) s
      (actor.succeedStep event m binding input output w) := by
  have recorded (moved : Working Context Data) (kept : moved.currentVersion = w.currentVersion) :
      (stages actors t).Obeys (Ends fun s' (w' : Working Context Data) => s' = s ∧ w'.currentVersion = w.currentVersion) s
        (Actor.recordCompensation event m binding input w moved) := by
    unfold Actor.recordCompensation
    cases given binding.resolvedCompensateName with
    | none => exact ⟨rfl,kept⟩
    | some key => exact obeysNow running (fun _ => ⟨rfl,kept⟩)
  unfold Actor.succeedStep
  cases given (output.targetState.or binding.edge.target) with
  | none => exact recorded _ rfl
  | some target => exact obeysExcept (fun applied _ => recorded _ rfl)

/-- After a failed step: ready to settle, in a forward status or as compensated. -/
def FailedAt (s : Stage Context Data) (version : Nat) (status : TransactionStatus) : Prop :=
  s = .holding version ∧ (status = .IDLE ∨ status = .COMPLETED ∨ status = .FAILED) ∨
  s = .unwinding version [] ∧ status = .COMPENSATED

theorem flushStages {w : Working Context Data} :
    (stages actors snapshot.transactionId).Obeys (Ends fun (s : Stage Context Data) version => s = .holding version)
      (.holding w.currentVersion) (Actor.flushCompensations snapshot w) := by
  unfold Actor.flushCompensations
  split
  · exact rfl
  · refine obeysNow (by simp) (fun at_ => ?_)
    rw [← bind_pure (updateTransaction _ _ _ _)]
    exact obeysUpdate (by simp) ⟨rfl,.inl ⟨rfl,rfl⟩⟩ (leaseless rfl) (fun version => rfl)

theorem telemetryStages {s : Stage Context Data} (running : s ≠ .ended) {binding from_ to_ attempts t0 outcome error} :
    (stages actors snapshot.transactionId).Obeys (Ends fun s' _ => s' = s) s
      (actor.recordTelemetry snapshot event binding from_ to_ attempts t0 outcome error) := by
  unfold Actor.recordTelemetry
  refine obeysNow running (fun ended => ?_)
  cases binding.benchmarkEnabled with
  | false => exact rfl
  | true =>
    refine obeysNow running (fun timestamp => obeysAsk (quiet running (.inr rfl) trivial) (fun r _ => ?_))
    cases r with
    | ok _ => exact rfl
    | error _ => trivial

theorem doneHandlerStages {pendingDone} {w : Working Context Data} :
    (stages actors snapshot.transactionId).Obeys
      (Ends fun s' (w' : Working Context Data) => s' = .holding w'.currentVersion) (.holding w.currentVersion)
      (actor.runDoneHandler snapshot metadata pendingDone w) := by
  unfold Actor.runDoneHandler
  split
  · exact rfl
  · refine obeysNow (by simp) (fun at_ => obeysAsk (quiet (by simp) (.inr rfl) ⟨_,rfl⟩) ?_)
    rintro ⟨result,attempts⟩ _
    cases result <;> exact rfl

theorem cascadeStages (rounds : Nat) : ∀ {version : Nat} {w : Working Context Data}, w.currentVersion = version →
    (stages actors snapshot.transactionId).Obeys (Ends fun s' (w' : Working Context Data) => s' = .holding w'.currentVersion)
      (.holding version) (actor.cascade snapshot metadata rounds w) := by
  induction rounds with
  | zero => intro version w same; exact congrArg Stage.holding same.symm
  | succ rounds ih =>
    intro version w same
    subst same
    rw [Actor.cascade]
    split
    · exact rfl
    · refine obeysSeq _ doneHandlerStages ?_
      intro _ ran here
      rw [here]
      split
      · exact rfl
      · exact obeysExcept (fun applied _ => ih rfl)

theorem settleStages {s : Stage Context Data} {w : Working Context Data} {status lastError completedAt append}
    (ready : s = .holding w.currentVersion ∧ (status = .IDLE ∨ status = .COMPLETED ∨ status = .FAILED) ∨
      s = .unwinding w.currentVersion [] ∧ status = .COMPENSATED ∧ append = []) :
    (stages actors snapshot.transactionId).Obeys (Ends fun s' _ => s' = .settled) s
      (Actor.settle snapshot w status lastError completedAt append) := by
  have running : s ≠ .ended := by
    rcases ready with ⟨rfl,_⟩ | ⟨rfl,_⟩ <;> simp
  refine obeysUpdate running ?_ (leaseless rfl) (fun version => ?_)
  · rcases ready with ⟨rfl,final⟩ | ⟨rfl,rfl,rfl⟩
    · exact ⟨rfl,.inr (.inr ⟨rfl,by simpa using final⟩)⟩
    · exact ⟨rfl,rfl,rfl,rfl⟩
  · have done : @Stage.updated Context Data version {
        stateValue := some w.workingState, context := some w.workingContext, status := some status
        activeStep := some none, lastError := some lastError, leaseOwner := some none, leaseExpiresAt := some none
        updatedAt := completedAt } = .settled := by
      rcases ready with ⟨_,rfl | rfl | rfl⟩ | ⟨_,rfl,_⟩ <;> rfl
    rw [done]
    exact ⟨quiet (by simp) (.inr rfl) trivial,fun _ _ => rfl⟩

theorem settledAllows {op : Op Context Data} (here : op.about = some t) (allowed : Stage.settled.allows actors op) :
    (stages actors t).allowed .settled op :=
  quiet (by simp) (.inr here) allowed

theorem rereadStages {before after : Nat} :
    (stages actors t).Obeys (Ends fun s _ => s = (.settled : Stage Context Data)) .settled
      (Actor.rereadMoved t before after) := by
  unfold Actor.rereadMoved
  split
  · exact rfl
  · exact ⟨settledAllows rfl (.inr (.inr rfl)),fun _ _ => rfl⟩

theorem effectFrameStages {name depth} {request : EffectRequest Context Data} :
    (stages actors request.transactionId).Obeys (Ends fun s _ => s = .settled) .settled
      (Actor.runEffectFrame name depth request) := by
  unfold Actor.runEffectFrame
  refine obeysAsk (settledAllows rfl trivial) (fun _ _ => obeysAsk (settledAllows rfl trivial) (fun ran _ => ?_))
  refine obeysAsk (settledAllows rfl trivial) (fun _ _ => obeysAsk (settledAllows rfl trivial) (fun _ _ => ?_))
  cases ran with
  | ok _ => exact rfl
  | error _ => trivial

theorem singleEffectStages {state revision item} {context : Context} :
    (stages actors t).Obeys (Ends fun s _ => s = (.settled : Stage Context Data)) .settled
      (actor.invokeSingleEffect t state context revision item) := by
  unfold Actor.invokeSingleEffect
  split
  · split
    · trivial
    · exact rfl
  · refine obeysAsk (settledAllows rfl trivial) (fun depth _ => ?_)
    dsimp only
    split
    · trivial
    · refine obeysAsk (settledAllows rfl trivial) (fun _ _ => obeysSeq _ rereadStages ?_)
      rintro _ latest rfl
      exact effectFrameStages

theorem effectsStages {state effects} {context : Context} :
    (stages actors t).Obeys (Ends fun s _ => s = (.settled : Stage Context Data)) .settled
      (actor.invokeEffects t state context effects) := by
  unfold Actor.invokeEffects
  refine obeysAsk (settledAllows rfl trivial) (fun revision _ => ?_)
  refine obeysFold (fun _ (s : Stage Context Data) (_ : Unit) => s = .settled) ?_ effects rfl
  rintro item rest _ _ rfl
  exact singleEffectStages

theorem terminalHooksStages {state status error} {context : Context} :
    (stages actors t).Obeys (Ends fun s _ => s = (.settled : Stage Context Data)) .settled
      (actor.emitSettledTerminalHooks t state status context error) := by
  unfold Actor.emitSettledTerminalHooks
  have last : (stages actors t).Obeys (Ends fun s _ => s = (.settled : Stage Context Data)) .settled
      (emit (.onTerminal t actor.machine.id actor.actorId state status context error)) := by
    rw [← bind_pure (emit _)]
    exact obeysEmit (by simp) rfl rfl rfl
  split
  · by_cases complete : status = .COMPLETED
    · simp only [complete,if_true] at last ⊢
      exact obeysEmit (by simp) rfl rfl last
    · simp only [complete,if_false]
      exact last
  · exact rfl

theorem concludeStages {input value steps duration error} {w : Working Context Data} {status} :
    (stages actors snapshot.transactionId).Obeys (Ends fun _ _ => True) .settled
      (actor.conclude snapshot event input w status value steps duration error) := by
  unfold Actor.conclude
  refine obeysEmit (by simp) rfl rfl (obeysSeq _ terminalHooksStages ?_)
  rintro _ _ rfl
  refine obeysAsk (settledAllows rfl trivial) (fun _ _ => obeysSeq _ effectsStages ?_)
  rintro _ _ rfl
  refine obeysAsk (settledAllows rfl trivial) (fun _ _ => ?_)
  have dropped : (stages actors snapshot.transactionId).Obeys (Ends fun s _ => s = .settled) .settled
      (Actor.dropRevision snapshot) := by
    unfold Actor.dropRevision
    refine obeysAsk (settledAllows rfl trivial) (fun depth _ => ?_)
    split
    · exact ⟨settledAllows rfl trivial,fun _ _ => rfl⟩
    · exact rfl
  refine obeysSeq _ dropped ?_
  rintro _ _ rfl
  refine obeysSeq _ rereadStages ?_
  rintro _ latest rfl
  cases latest <;> trivial

theorem failedRuns {s : Stage Context Data} {version status} (failed : FailedAt s version status) : s ≠ .ended := by
  rcases failed with ⟨rfl,_⟩ | ⟨rfl,_⟩ <;> simp

/-- After some of the matches: the next may run, or a step has failed. -/
def LoopAt (s : Stage Context Data) (p : Working Context Data × Option FailedStep) : Prop :=
  match p.2 with
  | none => s = .holding p.1.currentVersion
  | some step => FailedAt s p.1.currentVersion step.settledStatus

theorem settleStepStages {s : Stage Context Data} {input failed} {w : Working Context Data} (at_ : LoopAt s (w,failed)) :
    (stages actors snapshot.transactionId).Obeys (Ends fun _ _ => True) s
      (actor.settleStep snapshot event metadata input stepStartedAt w failed) := by
  cases failed with
  | some step =>
    refine obeysNow (failedRuns at_) (fun completedAt => obeysSeq _ (settleStages ?_) ?_)
    · rcases at_ with ⟨rfl,final⟩ | ⟨rfl,final⟩
      · exact .inl ⟨rfl,final⟩
      · exact .inr ⟨rfl,final,rfl⟩
    · rintro _ _ rfl
      exact concludeStages
  | none =>
    rw [show s = _ from at_]
    refine obeysSeq _ (cascadeStages 20 rfl) (fun s w here => ?_)
    rw [here]
    refine obeysNow (by simp) (fun completedAt => obeysSeq _ (settleStages ?_) ?_)
    · exact .inl ⟨rfl,settledForward _ _⟩
    · rintro _ _ rfl
      exact concludeStages

/-- Past its first hook a call is in its step where the snapshot was in flight already. -/
def begun (snapshot : TransactionSnapshot Context Data) : Stage Context Data :=
  if snapshot.status = .IN_FLIGHT then .holding snapshot.version else .loaded snapshot.version snapshot.status

theorem begunRuns (snapshot : TransactionSnapshot Context Data) : begun snapshot ≠ .ended := by
  unfold begun
  split <;> simp

theorem beforeStages {machineId actorId event state} {input : Data} {context : Context} :
    (stages actors snapshot.transactionId).Obeys (Ends fun s _ => s = begun snapshot)
      (.loaded snapshot.version snapshot.status)
      (emit (.beforeTransition snapshot.transactionId machineId actorId event input state context)) := by
  have first : Stage.next (.loaded snapshot.version snapshot.status)
      (.hook (.beforeTransition snapshot.transactionId machineId actorId event input state context)) (.ok ()) =
        begun snapshot := by
    unfold begun
    cases snapshot.status <;> rfl
  refine And.intro (quiet (by simp) (.inr rfl) trivial) (fun r _ => ?_)
  cases r with
  | ok _ => exact first
  | error _ => trivial

variable (member : actors actor)
include member

theorem takeLeaseStages {rawInput startedAt} : (stages actors snapshot.transactionId).Obeys
    (Ends fun s version => s = .holding version) (begun snapshot) (actor.takeLease snapshot event rawInput startedAt) := by
  unfold Actor.takeLease begun
  split
  · exact rfl
  · rename_i free
    rw [← bind_pure (updateTransaction _ _ _ _)]
    exact obeysUpdate (by simp) ⟨rfl,free,rfl,rfl,rfl⟩
      (fun expiry set => ⟨rfl,actor,member,by cases set; rfl⟩) (fun version => rfl)

theorem compensateEntryStages {version : Nat} {entry} {rest : List (CompensationEntryRecord Context Data)} {reason context} :
    (stages actors t).Obeys (Ends fun s _ => s = .handled version (entry::rest) ∨
        s = .unwinding version (entry::rest) ∧ actor.resolveCompensate entry.compensateKey = none)
      (.unwinding version (entry::rest)) (actor.compensateEntry t reason context entry) := by
  unfold Actor.compensateEntry
  cases resolved : actor.resolveCompensate entry.compensateKey with
  | none => exact .inr ⟨rfl,rfl⟩
  | some resolvedName =>
    refine obeysAsk (quiet (by simp) (.inr rfl) ?_) (fun r _ => obeysExcept (fun updated ok => ?_))
    · exact ⟨entry,⟨version,rest,rfl⟩,rfl,actor,member,resolved⟩
    · subst ok
      exact .inl rfl

theorem unwindEntryStages {version : Nat} {entry} {rest : List (CompensationEntryRecord Context Data)} {reason unwound} :
    (stages actors t).Obeys (Ends fun s _ => s = .unwinding version rest) (.unwinding version (entry::rest))
      (actor.unwindEntry t reason unwound entry) := by
  unfold Actor.unwindEntry
  refine obeysSeq _ (compensateEntryStages member) ?_
  rintro s ctx (rfl | ⟨rfl,unresolved⟩)
  · refine obeysNow (by simp) (fun at_ => obeysAsk (quiet (by simp) (.inr rfl) ?_) (fun _ _ => ?_))
    · exact ⟨entry,rfl,.inr ⟨version,rest,rfl⟩⟩
    · exact obeysEmit (by simp [Stage.next]) rfl rfl rfl
  · refine obeysNow (by simp) (fun at_ => obeysAsk (quiet (by simp) (.inr rfl) ?_) (fun _ _ => ?_))
    · exact ⟨entry,rfl,.inl ⟨⟨version,rest,rfl⟩,actor,member,unresolved⟩⟩
    · exact obeysEmit (by simp [Stage.next]) rfl rfl rfl

theorem unwindStages {version : Nat} {context : Context} {reason} :
    (stages actors t).Obeys (Ends fun s _ => s = (.unwinding version [] : Stage Context Data)) (.compensating version)
      (actor.unwindCompensationStack t context reason) := by
  unfold Actor.unwindCompensationStack
  refine obeysAsk (quiet (by simp) (.inr rfl) ⟨version,rfl⟩) (fun stack _ => ?_)
  refine obeysFold (fun left (s : Stage Context Data) (_ : Context × Nat) => s = .unwinding version left) ?_ stack rfl
  rintro entry rest s unwound rfl
  exact unwindEntryStages member

theorem rollBackStages {version : Nat} {error compensateRequested} {context : Context} :
    (stages actors snapshot.transactionId).Obeys
      (Ends fun (s : Stage Context Data) unwound =>
        s = if compensateRequested then .unwinding unwound.1 [] else .holding unwound.1)
      (.holding version) (actor.rollBack snapshot version error compensateRequested context) := by
  unfold Actor.rollBack
  cases compensateRequested with
  | false => exact rfl
  | true =>
    refine obeysNow (by simp) (fun at_ => obeysUpdate (by simp) ⟨rfl,.inr (.inl ⟨rfl,rfl,rfl⟩)⟩ (leaseless rfl) (fun current => ?_))
    refine obeysSeq _ (unwindStages member) ?_
    rintro _ unwound rfl
    exact rfl

theorem failStepStages {m error compensateRequested fallbackTarget} {w : Working Context Data} :
    (stages actors snapshot.transactionId).Obeys
      (Ends fun s (p : Working Context Data × FailedStep) => FailedAt s p.1.currentVersion p.2.settledStatus)
      (.holding w.currentVersion) (actor.failStep snapshot m error compensateRequested fallbackTarget w) := by
  unfold Actor.failStep
  refine obeysSeq _ flushStages ?_
  rintro _ flushed rfl
  refine obeysSeq _ (rollBackStages member) ?_
  rintro _ unwound rfl
  refine obeysExcept (fun applied _ => ?_)
  cases compensateRequested with
  | false => exact .inl ⟨rfl,settledForward _ _⟩
  | true => exact .inr ⟨rfl,by simp [resolveSettledTransactionStatus]⟩

theorem outcomeStages {m binding input result} {w : Working Context Data} :
    (stages actors snapshot.transactionId).Obeys
      (Ends fun s (p : Working Context Data × Option FailedStep × LogOutcome) => match p.2.1 with
        | none => s = .holding p.1.currentVersion
        | some step => FailedAt s p.1.currentVersion step.settledStatus)
      (.holding w.currentVersion) (actor.stepOutcome snapshot event m binding input result w) := by
  unfold Actor.stepOutcome
  split
  · refine obeysSeq _ (succeedStepStages (by simp)) ?_
    rintro _ next ⟨rfl,version⟩
    exact congrArg Stage.holding version.symm
  · refine obeysSeq _ (failStepStages member) ?_
    rintro s ⟨next,step⟩ failed
    exact failed

theorem runMatchStages {m input} {w : Working Context Data} :
    (stages actors snapshot.transactionId).Obeys (Ends LoopAt) (.holding w.currentVersion)
      (actor.runMatch snapshot event stepStartedAt metadata m input w) := by
  unfold Actor.runMatch
  refine obeysExcept (fun binding _ => obeysNow (by simp) (fun t0 => ?_))
  refine obeysAsk (quiet (by simp) (.inr rfl) ⟨_,rfl⟩) ?_
  rintro ⟨result,attempts⟩ _
  refine obeysSeq _ (outcomeStages member) ?_
  rintro s ⟨next,failed,outcome⟩ at_
  have running : s ≠ .ended := by
    cases failed with
    | none => rw [show s = _ from at_]; simp
    | some step => exact failedRuns at_
  refine obeysSeq _ (telemetryStages running) ?_
  rintro _ _ rfl
  exact at_

theorem runMatchesStages (matches_ : List (MatchedTransition × Data)) : ∀ {version : Nat} {w : Working Context Data},
    w.currentVersion = version → (stages actors snapshot.transactionId).Obeys (Ends LoopAt) (.holding version)
      (actor.runMatches snapshot event stepStartedAt metadata matches_ w) := by
  induction matches_ with
  | nil => intro version w same; exact congrArg Stage.holding same.symm
  | cons x rest ih =>
    obtain ⟨m,input⟩ := x
    intro version w same
    subst same
    rw [Actor.runMatches]
    refine obeysSeq _ (runMatchStages member) ?_
    rintro s ⟨next,failed⟩ at_
    cases failed with
    | none =>
      rw [show s = _ from at_]
      exact ih rfl
    | some step => exact at_

theorem executeStages {rawInput} : (stages actors snapshot.transactionId).Obeys (Ends fun _ _ => True)
    (.loaded snapshot.version snapshot.status)
    (actor.executeTransitionOnSnapshot snapshot event rawInput metadata) := by
  unfold Actor.executeTransitionOnSnapshot
  dsimp only
  split
  · trivial
  · refine obeysSeq _ (validateInputsStages (by simp)) ?_
    rintro _ inputs rfl
    refine obeysSeq _ beforeStages ?_
    rintro _ _ rfl
    refine obeysNow (begunRuns snapshot) (fun startedAt => obeysSeq _ (takeLeaseStages member) ?_)
    rintro _ version rfl
    refine obeysSeq _ (runMatchesStages member _ rfl) ?_
    rintro s ⟨w,failed⟩ at_
    exact settleStepStages at_

theorem transitionStages {input fields} : (stages actors t).Obeys (Ends fun _ _ => True) (.idle : Stage Context Data)
    (actor.transition t event input fields) := by
  unfold Actor.transition
  refine obeysAsk (quiet (by simp) (.inr rfl) (.inl rfl)) (fun found known => ?_)
  cases found with
  | none => trivial
  | some snapshot =>
    obtain rfl : snapshot.transactionId = t := known
    dsimp only
    split
    · exact executeStages member
    · trivial

end

end Dfsm
