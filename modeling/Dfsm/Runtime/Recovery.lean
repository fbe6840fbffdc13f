import Dfsm.Runtime.Actor

/-! Recovery sweeps over stuck transactions and administrative clean-up, by an actor
and by the registry. -/
namespace Dfsm

structure RecoveryError where
  transactionId : String
  error : String

structure RecoverySweepReport where
  sweptAt : Int
  scannedInFlight : Nat := 0
  stuckDetected : Nat := 0
  actionsTaken : List (OnRestartMode × String) := []
  retentionDeleted : Nat := 0
  errors : List RecoveryError := []

inductive CleanUpAction where
  | DELETE | MARK_FAIL | COMPENSATE | FORCE_UNLOCK
  deriving DecidableEq, Repr

structure ForceCleanUpOptions where
  machineId : Option String := none
  actorId : Option String := none
  transactionIds : Option (List String) := none
  statuses : Option (List TransactionStatus) := none
  includeInFlight : Bool := false
  stuckOnly : Bool := false
  stuckThresholdMs : Option Int := none
  olderThanMs : Option Int := none
  action : CleanUpAction := .DELETE
  dryRun : Bool := false

structure CleanUpReport where
  scanned : Nat
  matched : Nat
  deleted : List String := []
  markedFailed : List String := []
  compensated : List String := []
  unlocked : List String := []
  dryRun : Bool
  errors : List RecoveryError := []

variable {Context Data : Type}
open Act

/-- `status: FAILED`, in the error state and without a lease -/
def markFailed (lastError : String) (updatedAt : Int) : TransactionUpdatePatch Context Data :=
  { stateValue := some (.str "error"), status := some .FAILED, activeStep := some none
    lastError := some (some lastError), leaseOwner := some none, leaseExpiresAt := some none, updatedAt }

def compensated (context : Option Context) (lastError : String) (updatedAt : Int) : TransactionUpdatePatch Context Data :=
  { stateValue := some (.str "error"), context, status := some .COMPENSATED, activeStep := some none
    lastError := some (some lastError), leaseOwner := some none, leaseExpiresAt := some none, updatedAt }

/-- `{ ...fullSnap, status: "IDLE", version: unlockedVer }` -/
def TransactionSnapshot.refreshed (fullSnap : TransactionSnapshot Context Data) (unlockedVer : Nat) :
    TransactionSnapshot Context Data :=
  { fullSnap with status := .IDLE, version := unlockedVer }

namespace Actor
variable (actor : Actor)

def resolveRecoveryModeForState (stateValue : StateValue) : OnRestartMode :=
  let topKey := match stateValue with
    | .str key => key
    | .obj entries => (Keyed.keys entries).headD ""
  let serialized := match stateValue with
    | .str key => key
    | .obj _ => stateValue.stringify
  match if topKey = "" then none else Keyed.get actor.recoveryConfig.stateActions topKey with
  | some mode => mode
  | none => (Keyed.get actor.recoveryConfig.stateActions serialized).getD actor.recoveryConfig.defaultAction

/-- Rolls a scanned transaction back under its scanned version. -/
def compensateTransaction (item : TransactionSummary Context Data) (reason : String) : Act Context Data Unit := do
  let startedAt ← now
  let ver ← updateTransaction item.transactionId item.version { status := some .COMPENSATING, updatedAt := startedAt }
  let unwound ← actor.unwindCompensationStack item.transactionId item.context reason
  let updatedAt ← now
  let _ ← updateTransaction item.transactionId ver (compensated (some unwound.1) reason updatedAt)
  pure ()

/-- Unlocks a scanned transaction and runs its interrupted step again. -/
def continueTransaction (item : TransactionSummary Context Data) : Act Context Data Bool := do
  match ← ask (.getTransaction item.transactionId) with
  | none => pure false
  | some fullSnap => match fullSnap.activeStep with
    | some activeStep => do
      let updatedAt ← now
      let unlockedVer ← updateTransaction fullSnap.transactionId fullSnap.version {
        status := some .IDLE, activeStep := some none, leaseOwner := some none, leaseExpiresAt := some none, updatedAt }
      let _ ← actor.executeTransitionOnSnapshot (fullSnap.refreshed unlockedVer) activeStep.event activeStep.input
        (.recoveredByActor actor.actorId)
      pure true
    | none => do
      let updatedAt ← now
      let _ ← updateTransaction fullSnap.transactionId fullSnap.version {
        status := some .IDLE, leaseOwner := some none, leaseExpiresAt := some none, updatedAt }
      pure true

/-- One recovery action; false where it finds nothing to act on. -/
def recover (item : TransactionSummary Context Data) : OnRestartMode → Act Context Data Bool
  | .STOP => do
    orThrow (← ask (.logRecovery actor.actorId
      s!"Stuck transaction '{item.transactionId}' encountered STOP policy" item.stateValue))
    pure true
  | .DELETE => do
    let _ ← ask (.deleteTransactions [item.transactionId])
    pure true
  | .MARK_FAIL => do
    let updatedAt ← now
    let _ ← updateTransaction item.transactionId item.version
      (markFailed "Marked FAILED by Actor stuck-transaction recovery" updatedAt)
    pure true
  | .COMPENSATE => do
    actor.compensateTransaction item "Compensated by Actor stuck-transaction recovery"
    pure true
  | .CONTINUE => actor.continueTransaction item

/-- STOP is reported before it is logged; the other actions once they are done. -/
def sweepTransaction (report : RecoverySweepReport) (item : TransactionSummary Context Data) :
    Act Context Data RecoverySweepReport := do
  if !item.isStuck then pure report else
  let action := actor.resolveRecoveryModeForState item.stateValue
  let stuck := { report with stuckDetected := report.stuckDetected + 1 }
  let reported := { stuck with actionsTaken := report.actionsTaken ++ [(action,item.transactionId)] }
  match ← (actor.recover item action).attempt with
  | .ok true => pure reported
  | .ok false => pure stuck
  | .error err => pure { (if action = .STOP then reported else stuck) with
      errors := report.errors ++ [⟨item.transactionId,err.message⟩] }

def retentionCleanUp (sweptAt stuckThresholdMs : Int) : Act Context Data Nat := do
  match actor.schedulerConfig.retentionMs with
  | none => pure 0
  | some retentionMs =>
    if retentionMs < 0 then pure 0 else
    let expiredTerminal ← ask (.queryTransactions {
      machineId := some actor.machine.id, statuses := [.COMPLETED,.FAILED,.COMPENSATED]
      olderThanTimestamp := some (sweptAt - retentionMs), limit := some actor.schedulerConfig.batchSize }
      sweptAt stuckThresholdMs)
    if expiredTerminal.isEmpty then pure 0
    else ask (.deleteTransactions (expiredTerminal.map (·.transactionId)))

def executeRecoverySweep (stuckThresholdMs : Int) : Act Context Data RecoverySweepReport := do
  let sweptAt ← now
  let inFlightList ← ask (.queryTransactions {
    machineId := some actor.machine.id, statuses := [.IN_FLIGHT,.COMPENSATING]
    limit := some actor.schedulerConfig.batchSize } sweptAt stuckThresholdMs)
  let report ← inFlightList.foldlM actor.sweepTransaction { sweptAt, scannedInFlight := inFlightList.length }
  let retentionDeleted ← actor.retentionCleanUp sweptAt stuckThresholdMs
  let stopIds := (report.actionsTaken.filter (·.1 = .STOP)).map (·.2)
  if !stopIds.isEmpty && actor.recoveryConfig.haltActorOnStop then
    .fail (.actorStoppedByRecovery actor.actorId stopIds)
  pure { report with retentionDeleted }

end Actor

/-- The ids the filter is given; one that is absent and one that is empty are the same to it. -/
@[simp] def ForceCleanUpOptions.ids (options : ForceCleanUpOptions) : List String := options.transactionIds.getD []

def ForceCleanUpOptions.scanned (options : ForceCleanUpOptions) : List TransactionStatus :=
  options.statuses.getD (if options.includeInFlight
    then [.IDLE,.IN_FLIGHT,.COMPENSATING,.COMPLETED,.FAILED,.COMPENSATED]
    else [.COMPLETED,.FAILED,.COMPENSATED])

/-- Clean-up as the actor and the registry share it: the scan, deletion at once, and any
other action transaction by transaction, with its errors collected. -/
def cleanUp (options : ForceCleanUpOptions) (machineId : Option String) (threshold : Int)
    (act : CleanUpReport → TransactionSummary Context Data → Act Context Data CleanUpReport) :
    Act Context Data CleanUpReport := do
  let startedAt ← now
  let candidates ← ask (.queryTransactions {
    machineId, actorId := options.actorId, transactionIds := options.ids, statuses := options.scanned
    stuckBeforeTimestamp := if options.stuckOnly then some (startedAt - threshold) else none
    olderThanTimestamp := options.olderThanMs.map (startedAt - ·) } startedAt threshold)
  let report : CleanUpReport :=
    { scanned := candidates.length, matched := candidates.length, dryRun := options.dryRun }
  if options.dryRun || candidates.isEmpty then pure report
  else if options.action = .DELETE then do
    let ids := candidates.map (·.transactionId)
    let _ ← ask (.deleteTransactions ids)
    pure { report with deleted := ids }
  else candidates.foldlM (fun report item => do
    match ← (act report item).attempt with
    | .ok report => pure report
    | .error err => pure { report with errors := report.errors ++ [⟨item.transactionId,err.message⟩] }) report

/-- `FORCE_UNLOCK` -/
def unlockTransaction (report : CleanUpReport) (item : TransactionSummary Context Data) : Act Context Data CleanUpReport := do
  let updatedAt ← now
  let _ ← updateTransaction item.transactionId item.version {
    status := some .IDLE, activeStep := some none, leaseOwner := some none, leaseExpiresAt := some none, updatedAt }
  pure { report with unlocked := report.unlocked ++ [item.transactionId] }

def failTransaction (reason : String) (report : CleanUpReport) (item : TransactionSummary Context Data) :
    Act Context Data CleanUpReport := do
  let updatedAt ← now
  let _ ← updateTransaction item.transactionId item.version (markFailed reason updatedAt)
  pure { report with markedFailed := report.markedFailed ++ [item.transactionId] }

def Actor.cleanUpTransaction (actor : Actor) (action : CleanUpAction) (report : CleanUpReport)
    (item : TransactionSummary Context Data) : Act Context Data CleanUpReport :=
  match action with
  | .DELETE => pure report
  | .MARK_FAIL => failTransaction "Marked FAILED via administrative forceCleanUp" report item
  | .FORCE_UNLOCK => unlockTransaction report item
  | .COMPENSATE => do
    actor.compensateTransaction item "Compensated via administrative forceCleanUp"
    pure { report with compensated := report.compensated ++ [item.transactionId] }

def Actor.forceCleanUp (actor : Actor) (options : ForceCleanUpOptions) : Act Context Data CleanUpReport :=
  cleanUp options (some actor.machine.id) (options.stuckThresholdMs.getD actor.recoveryConfig.stuckThresholdMs)
    (actor.cleanUpTransaction options.action)

def Actor.forceCleanUpTransaction (actor : Actor) (transactionId : String) (action : CleanUpAction) :
    Act Context Data CleanUpReport :=
  actor.forceCleanUp { transactionIds := some [transactionId], includeInFlight := true, action }

namespace FSMRegistry

/-- With no actor bound to the machine a compensation only rewrites the row. -/
def cleanUpTransaction (activeActors : List Actor) (action : CleanUpAction) (report : CleanUpReport)
    (item : TransactionSummary Context Data) : Act Context Data CleanUpReport :=
  match action with
  | .DELETE => pure report
  | .MARK_FAIL => failTransaction "Marked FAILED via FSMRegistry.forceCleanUp" report item
  | .FORCE_UNLOCK => unlockTransaction report item
  | .COMPENSATE => match activeActors.find? (·.machine.id = item.machineId) with
    | some matchingActor => do
      let sub ← matchingActor.forceCleanUpTransaction item.transactionId .COMPENSATE
      pure { report with compensated := report.compensated ++ sub.compensated, errors := report.errors ++ sub.errors }
    | none => do
      let updatedAt ← now
      let _ ← updateTransaction item.transactionId item.version
        (compensated none "Compensated via FSMRegistry.forceCleanUp" updatedAt)
      pure { report with compensated := report.compensated ++ [item.transactionId] }

def forceCleanUp (activeActors : List Actor) (options : ForceCleanUpOptions) : Act Context Data CleanUpReport :=
  cleanUp options options.machineId (options.stuckThresholdMs.getD 30000)
    (cleanUpTransaction activeActors options.action)

end FSMRegistry

end Dfsm
