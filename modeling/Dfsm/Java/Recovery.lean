import Dfsm.Java.Actor

/-! Recovery sweeps of the Java SDK, its clean-up, and what it takes for an actor to be ready. -/
namespace Dfsm.Java
open Keyed (Record)

structure SweepReport where
  sweptAt : Int
  stuckRecoveredCount : Nat
  expiredPurgedCount : Nat
  actionsByTxId : Record OnRestartMode

inductive ForceCleanUpAction where
  | DELETE | MARK_FAIL | COMPENSATE | FORCE_UNLOCK
  deriving DecidableEq, Repr

structure ForceCleanUpOptions where
  action : ForceCleanUpAction := .DELETE
  statuses : List TransactionStatus := [.COMPLETED,.FAILED,.COMPENSATED]
  includeInFlight : Bool := false
  stuckOnly : Bool := false
  olderThanMs : Option Int := none
  dryRun : Bool := false
  limit : Int := 500

structure ForceCleanUpReport where
  dryRun : Bool
  action : ForceCleanUpAction
  matchedCount : Nat
  affectedCount : Nat
  transactionIds : List String

def TERMINAL_STATUSES : List TransactionStatus := [.COMPLETED,.COMPENSATED,.FAILED]

variable {Context Data : Type}
open Act

/-- `FAILED` in the error state, without a step and without a lease. -/
def markedFailed (lastError : String) (updatedAt : Int) : TransactionPatch Context Data :=
  { stateValue := some (.str "error"), status := some .FAILED, activeStep := some none
    lastError := some (some lastError), lease := some (none,none), updatedAt }

def compensated (context : Context) (updatedAt : Int) : TransactionPatch Context Data :=
  { stateValue := some (.str "error"), context := some context, status := some .COMPENSATED, activeStep := some none
    lastError := some (some "Compensated by recovery policy"), lease := some (none,none), updatedAt }

/-- Back to `IDLE`, without a step and without a lease. -/
def unlocked (updatedAt : Int) : TransactionPatch Context Data :=
  { status := some .IDLE, activeStep := some none, lease := some (none,none), updatedAt }

namespace DfsmActor
variable (actor : DfsmActor)

def resolveRecoveryMode (sv : StateValue) : OnRestartMode :=
  match (match sv with
    | .str leaf => Keyed.get actor.recoveryConfig.perStateActions leaf
    | .obj _ => none) with
  | some mode => mode
  | none => actor.recoveryConfig.defaultAction.getD .STOP

def recoverByCompensation (txId : String) (snap : TransactionSnapshot Context Data) : Act Context Data Unit := do
  let startedAt ← now
  let v ← updateTransaction txId snap.version { status := some .COMPENSATING, updatedAt := startedAt }
  let unwind ← actor.unwindCompensationStack txId snap.context (some "Compensated by recovery policy")
  let updatedAt ← now
  let _ ← updateTransaction txId v (compensated unwind.1 updatedAt)

/-- Unlocks the transaction, and runs the step that was interrupted again. -/
def recoverByContinuing (txId : String) (snap : TransactionSnapshot Context Data) : Act Context Data Unit := do
  let updatedAt ← now
  let v ← updateTransaction txId snap.version (unlocked updatedAt)
  match snap.activeStep with
  | none => pure ()
  | some activeStep => do
    match ← getTransaction txId with
    | none => pure ()
    | some snap =>
      if snap.version = v then do
        let _ ← actor.executeTransitionOnSnapshot snap activeStep.event activeStep.input []
      else pure ()

def applyToSnapshot (txId : String) (mode : OnRestartMode) (snap : TransactionSnapshot Context Data) : Act Context Data Unit :=
  match mode with
  | .STOP => pure ()
  | .DELETE => do
    let _ ← orThrow (← ask (.deleteTransaction txId snap.version))
  | .MARK_FAIL => do
    let updatedAt ← now
    let _ ← updateTransaction txId snap.version (markedFailed "Marked FAILED by recovery policy" updatedAt)
  | .COMPENSATE => actor.recoverByCompensation txId snap
  | .CONTINUE => actor.recoverByContinuing txId snap

def applyRecoveryMode (txId : String) (mode : OnRestartMode) : Act Context Data Unit := do
  match ← getTransaction txId with
  | none => pure ()
  | some snap => actor.applyToSnapshot txId mode snap

/-- One round of the loop of a sweep: what it has recovered, and the actions it reports. -/
def sweepSummary (swept : Nat × Record OnRestartMode) (summary : TransactionSummary Context Data) :
    Act Context Data (Nat × Record OnRestartMode) := do
  let mode := actor.resolveRecoveryMode summary.stateValue
  let actions := put swept.2 summary.transactionId mode
  if mode = .STOP then pure (swept.1,actions)
  else do
    actor.applyRecoveryMode summary.transactionId mode
    pure (swept.1+1,actions)

def purge (expired : List (TransactionSummary Context Data)) : Act Context Data Nat :=
  expired.foldlM (fun purgedCount exp => do
    let deleted ← orThrow (← ask (.deleteTransaction exp.transactionId exp.version))
    pure (if deleted then purgedCount+1 else purgedCount)) 0

/-- `retentionMs != null && retentionMs >= 0` -/
def retention (retentionMs : Option Int) : Option Int := retentionMs.filter (fun ms => 0 ≤ ms)

def purgeExpired (sweptAt stuckThresholdMs : Int) (retentionMs : Option Int) : Act Context Data Nat :=
  match retention retentionMs with
  | none => pure 0
  | some retentionMs => do
    let expired ← orThrow (← ask (.listByStatuses {
      machineId := some actor.machine.id, actorId := none, statuses := TERMINAL_STATUSES
      updatedBeforeEpochMs := some (sweptAt - retentionMs), limit := actor.schedulerConfig.batchSize, offset := 0 }
      sweptAt stuckThresholdMs))
    purge expired

def stuckFilter (limit : Int) : InFlightFilter :=
  { machineId := some actor.machine.id, actorId := none, stuckOnly := true, includeCompensating := true, stateEquals := none
    limit, offset := 0 }

/-- What a sweep does with the batch that its scan has found. -/
def sweepBatch (sweptAt stuckThresholdMs : Int) (retentionMs : Option Int) (stuckList : List (TransactionSummary Context Data)) :
    Act Context Data SweepReport := do
  let (stuckRecoveredCount,actionsByTxId) ← stuckList.foldlM actor.sweepSummary (0,[])
  let expiredPurgedCount ← actor.purgeExpired sweptAt stuckThresholdMs retentionMs
  pure { sweptAt, stuckRecoveredCount, expiredPurgedCount, actionsByTxId }

def runRecoverySweep (stuckThresholdMs : Int) (retentionMs : Option Int) : Act Context Data SweepReport := do
  let sweptAt ← now
  let stuckList ← orThrow (← ask (.listInFlight (actor.stuckFilter actor.schedulerConfig.batchSize) sweptAt stuckThresholdMs))
  actor.sweepBatch sweptAt stuckThresholdMs retentionMs stuckList

/-- The statuses a clean-up asks for: none of them in flight unless it includes those. -/
def targetStatuses (opts : ForceCleanUpOptions) : List TransactionStatus :=
  let statuses := (if opts.statuses = [] then TERMINAL_STATUSES else opts.statuses).eraseDups
  if opts.includeInFlight then (statuses ++ ([.IN_FLIGHT,.COMPENSATING] : List TransactionStatus)).eraseDups
  else statuses.filter (fun status => status != .IN_FLIGHT && status != .COMPENSATING)

def candidates (opts : ForceCleanUpOptions) (now : Int) : Act Context Data (List (TransactionSummary Context Data)) := do
  if opts.stuckOnly then
    orThrow (← ask (.listInFlight (actor.stuckFilter opts.limit) now actor.recoveryConfig.stuckThresholdMs))
  else
    orThrow (← ask (.listByStatuses {
      machineId := some actor.machine.id, actorId := none, statuses := targetStatuses opts
      updatedBeforeEpochMs := opts.olderThanMs.map (now - ·), limit := opts.limit, offset := 0 }
      now actor.recoveryConfig.stuckThresholdMs))

def cleanUpSnapshot (transactionId : String) (action : ForceCleanUpAction) (snap : TransactionSnapshot Context Data) :
    Act Context Data Bool :=
  match action with
  | .DELETE => do orThrow (← ask (.deleteTransaction transactionId snap.version))
  | .MARK_FAIL => do
    let updatedAt ← now
    let _ ← updateTransaction transactionId snap.version (markedFailed "Marked FAILED via forceCleanUp" updatedAt)
    pure true
  | .COMPENSATE => do
    actor.applyRecoveryMode transactionId .COMPENSATE
    pure true
  | .FORCE_UNLOCK => do
    let updatedAt ← now
    let _ ← updateTransaction transactionId snap.version (unlocked updatedAt)
    pure true

/-- What `forceCleanUpTransaction` does once the actor is ready. -/
def cleanUpReady (transactionId : String) (action : ForceCleanUpAction) : Act Context Data Bool := do
  match ← getTransaction transactionId with
  | none => pure false
  | some snap => actor.cleanUpSnapshot transactionId action snap

/-! Readiness. -/

def initialSweep : Act Context Data Unit :=
  if actor.recoveryConfig.enabled then do
    let _ ← actor.runRecoverySweep actor.recoveryConfig.stuckThresholdMs none
  else pure ()

def startEnabled : Act Context Data Unit := if actor.schedulerConfig.enabled then ask .startScheduler else pure ()

/-- The flag is set before the sweep, and the scheduler is started after it. -/
def initializeActor : Act Context Data Unit := do
  if ← ask .initialized then pure ()
  else do
    orThrow (← ask .initializeStore)
    ask .setInitialized
    actor.initialSweep
    actor.startEnabled

def ensureReady : Act Context Data Unit := do
  if ← ask .closed then .fail (.actorClosed actor.actorId)
  else if ← ask .initialized then pure ()
  else actor.initializeActor

def transition (transactionId event : String) (input : Option Data) (metadata : List (String × Data)) :
    Act Context Data (TransitionExecutionResult Context Data) := do
  actor.ensureReady
  actor.transitionReady transactionId event input metadata

def triggerSweepNow : Act Context Data SweepReport := do
  actor.ensureReady
  actor.runRecoverySweep actor.schedulerConfig.stuckThresholdMs actor.schedulerConfig.retentionMs

def forceCleanUpTransaction (transactionId : String) (action : ForceCleanUpAction) : Act Context Data Bool := do
  actor.ensureReady
  actor.cleanUpReady transactionId action

/-- A readiness that is asked for again and again finds the actor ready. -/
def forceCleanUp (opts : ForceCleanUpOptions) : Act Context Data ForceCleanUpReport := do
  actor.ensureReady
  let startedAt ← now
  let found ← actor.candidates opts startedAt
  let matchedIds := found.map (·.transactionId)
  if opts.dryRun then
    pure { dryRun := true, action := opts.action, matchedCount := matchedIds.length, affectedCount := 0, transactionIds := matchedIds }
  else do
    let affectedCount ← found.foldlM (fun affected c => do
      let done ← actor.forceCleanUpTransaction c.transactionId opts.action
      pure (if done then affected+1 else affected)) 0
    pure { dryRun := false, action := opts.action, matchedCount := matchedIds.length, affectedCount, transactionIds := matchedIds }

end DfsmActor
end Dfsm.Java
