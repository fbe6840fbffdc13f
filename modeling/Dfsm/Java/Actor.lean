import Dfsm.Java.Operations

/-! The actor of the Java SDK: starting a transaction, and a transition under its lease with
the saga it may unwind, the automatic transitions after it, and the effects it runs. -/
namespace Dfsm.Java
open Keyed (Record)

/-- A compiled binding; its pipeline is reached by the binding's key. -/
structure CompiledBinding where
  edge : TransitionEdgeIR
  resolvedTransitionName : Option String := none
  resolvedCompensateName : Option String := none
  onFailCompensate : Bool := false
  onFailTarget : Option String := none
  benchmarkEnabled : Bool := true

inductive OnRestartMode where
  | STOP | MARK_FAIL | DELETE | COMPENSATE | CONTINUE
  deriving DecidableEq, Repr

structure RecoveryConfig where
  enabled : Bool := false
  stuckThresholdMs : Int := 30000
  defaultAction : Option OnRestartMode := some .STOP
  perStateActions : Record OnRestartMode := []

structure SchedulerConfig where
  enabled : Bool := false
  stuckThresholdMs : Int := 30000
  retentionMs : Option Int := none
  batchSize : Int := 100

/-- An actor as it was constructed: its bindings under their keys, and the names its resolver
has handlers for. -/
structure DfsmActor where
  machine : MachineDefinition
  machineVersion : String := "1.0.0"
  actorId : String
  compiledBindings : Record CompiledBinding
  resolveCompensate : String → Option String
  resolveEffect : String → Option String := fun _ => none
  hasLogger : Bool := true
  recoveryConfig : RecoveryConfig := {}
  schedulerConfig : SchedulerConfig := {}
  maxEffectChainDepth : Nat := 25

structure TransitionExecutionResult (Context Data : Type) where
  transactionId : String
  previousState : StateValue
  currentState : StateValue
  status : TransactionStatus
  value : Option Data
  context : Context
  compensatedSteps : Nat
  error : Option String

def isTerminal (status : TransactionStatus) : Bool :=
  status = .COMPLETED || status = .COMPENSATED || status = .FAILED

def bindingKey (statePath event : String) : String := statePath ++ "::" ++ event

def qualifyHandlerName (handlerName : String) (namespaceName : Option String) : String :=
  if isBlank handlerName then handlerName
  else match given namespaceName with
    | none => handlerName
    | some ns => if Dotted.under ns handlerName then handlerName else ns ++ "." ++ handlerName

variable {Context Data : Type}

/-- The outcome of a chain once its fallback decorator has caught what it threw. -/
inductive ExecutionOutcome (Context Data : Type) where
  | success (result : Success Context Data)
  | failure (error : Option String) (compensateRequested : Bool) (fallbackTarget : String)

def fallbackCompensate (binding : CompiledBinding) : Except (Option String) (Success Context Data) → ExecutionOutcome Context Data
  | .ok result => .success result
  | .error error => .failure error binding.onFailCompensate ((given binding.onFailTarget).getD "error")

/-- What the loop over the matches carries along. -/
structure Working (Context Data : Type) where
  currentVersion : Nat
  workingState : StateValue
  workingContext : Context
  lastReturnValue : Option Data := none
  pendingEffects : List (EffectInvocation Data) := []
  pendingCompensations : List (NewCompensationEntry Context Data) := []

/-- What a failed step leaves for its settling commit. -/
structure FailedStep where
  failStatus : TransactionStatus
  failErr : Option String
  compensatedSteps : Nat

namespace DfsmActor
open Act
variable (actor : DfsmActor)

def applyTarget (workingState : StateValue) (sourceStatePath targetRef : String) : Except Throwable AppliedTransition :=
  match applyTargetTransition actor.machine.toRawMachine workingState sourceStatePath targetRef with
  | none => .error (.unresolvedTarget targetRef sourceStatePath actor.machine.id)
  | some applied => .ok applied

def binding (statePath event : String) : Except Throwable CompiledBinding :=
  match Keyed.get actor.compiledBindings (bindingKey statePath event) with
  | none => .error .nullPointer
  | some binding => .ok binding

def named (names : List String) : List (EffectInvocation Data) := names.map (fun name => { name })

/-- The handler of one entry, where its key resolves. -/
def compensateEntry (transactionId : String) (failureError : Option String) (ctx : Context)
    (entry : CompensationEntryRecord Context Data) : Act Context Data Context :=
  match actor.resolveCompensate entry.compensateKey with
  | none => pure ctx
  | some resolvedName => do
    let contextBefore ← orThrow (← ask (.convertContext entry.contextBefore))
    let updated ← orThrow (← ask (.compensate resolvedName {
      transactionId, machineId := actor.machine.id, actorId := actor.actorId, stepSeq := entry.stepSeq
      fromState := entry.fromState, inputSnapshot := entry.inputSnapshot, contextBefore, currentContext := ctx, failureError }))
    pure (updated.getD ctx)

/-- One round of the loop over the stack. The mark does not ask whether there was a handler. -/
def unwindEntry (transactionId : String) (failureError : Option String) (unwound : Context × Nat)
    (entry : CompensationEntryRecord Context Data) : Act Context Data (Context × Nat) := do
  let ctx ← actor.compensateEntry transactionId failureError unwound.1 entry
  let compensatedAt ← now
  orThrow (← ask (.markCompensationExecuted transactionId entry.stepSeq compensatedAt))
  emit (.onCompensate transactionId actor.machine.id actor.actorId entry.stepSeq
    ((actor.resolveCompensate entry.compensateKey).getD entry.compensateKey) entry.fromState entry.inputSnapshot ctx failureError)
  pure (ctx,unwound.2+1)

def unwindCompensationStack (transactionId : String) (currentContext : Context) (failureError : Option String) :
    Act Context Data (Context × Nat) := do
  let stack ← orThrow (← ask (.getUncompensatedStack transactionId))
  stack.foldlM (actor.unwindEntry transactionId failureError) (currentContext,0)

def emitWhen (fires : Bool) (event : HookEvent Context Data) : Act Context Data Unit := if fires then emit event else pure ()

def emitSettledTerminalHooks (transactionId : String) (finalState : StateValue) (status : TransactionStatus) (ctx : Context)
    (error : Option String) : Act Context Data Unit := do
  emitWhen (status = .COMPLETED) (.onComplete transactionId actor.machine.id actor.actorId finalState ctx)
  emitWhen (isTerminal status) (.onTerminal transactionId actor.machine.id actor.actorId finalState status ctx error)

/-- The transaction is read again once one of its steps has settled in this actor. -/
def readMoved (transactionId : String) (revision : Nat) : Act Context Data (Option (TransactionSnapshot Context Data)) :=
  if 0 < revision then getTransaction transactionId else pure none

/-- What `finally` makes of the depth, which the effect may have changed. -/
def leaveEffect (transactionId : String) : Act Context Data Unit := do
  let depth ← ask (.effectChainDepth transactionId)
  let nextDepth := depth.getD 1 - 1
  ask (.setEffectChainDepth transactionId (if nextDepth = 0 then none else some nextDepth))

def executeEffect (transactionId : String) (fallbackState : StateValue) (fallbackContext : Context) (resolvedName : String)
    (payload : Option Data) : Act Context Data Unit := do
  let revision ← ask (.getRevision transactionId)
  let latest ← readMoved transactionId revision
  orThrow (← ask (.effect {
    transactionId, machineId := actor.machine.id, actorId := actor.actorId
    state := (latest.map (·.stateValue)).getD fallbackState, context := (latest.map (·.context)).getD fallbackContext
    handlerName := resolvedName, payload }))

def invokeSingleEffect (transactionId : String) (fallbackState : StateValue) (fallbackContext : Context)
    (eff : EffectInvocation Data) : Act Context Data Unit := do
  let depth ← ask (.effectChainDepth transactionId)
  let currentDepth := depth.getD 0
  if actor.maxEffectChainDepth ≤ currentDepth then .fail (.maxEffectChainDepth transactionId actor.maxEffectChainDepth)
  else match actor.resolveEffect eff.name with
    | none =>
      if actor.machine.registry.strict then
        .fail (.unregisteredHandler actor.machine.id "effect" (qualifyHandlerName eff.name actor.machine.registry.namespaceName))
      else pure ()
    | some resolvedName => do
      ask (.setEffectChainDepth transactionId (some (currentDepth+1)))
      thenFinally (actor.executeEffect transactionId fallbackState fallbackContext resolvedName eff.payload) (leaveEffect transactionId)

def invokeEffects (transactionId : String) (fallbackState : StateValue) (fallbackContext : Context)
    (effects : List (EffectInvocation Data)) : Act Context Data Unit :=
  effects.foldlM (fun _ eff => actor.invokeSingleEffect transactionId fallbackState fallbackContext eff) ()

def chosenId (customTransactionId : Option String) : Act Context Data String :=
  match given customTransactionId with
  | some id => pure id
  | none => ask .randomUUID

/-- Of an actor that is ready. -/
def startTransaction (initialContext : Context) (customTransactionId : Option String) : Act Context Data String := do
  let validatedInitial ← orThrow (← ask (.validateContext initialContext))
  let txId ← chosenId customTransactionId
  let startedAt ← now
  match resolveInitialState actor.machine.toRawMachine with
  | none => .fail .nullPointer
  | some init => do
    let status := resolveSettledTransactionStatus actor.machine.toRawMachine init.stateValue false
    orThrow (← ask (.createTransaction {
      transactionId := txId, machineId := actor.machine.id, machineVersion := actor.machineVersion, actorId := actor.actorId
      stateValue := init.stateValue, context := validatedInitial, status, version := 1, createdAt := startedAt, updatedAt := startedAt }))
    emit (.onStart txId actor.machine.id actor.actorId init.stateValue status validatedInitial)
    actor.emitSettledTerminalHooks txId init.stateValue status validatedInitial none
    actor.invokeEffects txId init.stateValue validatedInitial (named init.entryEffects)
    pure txId

def validateInputs (rawInput : Option Data) (matched : List MatchedTransition) : Act Context Data (List (Option Data)) :=
  matched.mapM (fun m => do
    let _ ← orThrow (actor.binding m.sourceNode.path m.edge.event)
    orThrow (← ask (.validateInput m.sourceNode.path m.edge.event rawInput)))

section
variable (snapshot : TransactionSnapshot Context Data) (event : String) (stepStartedAt : Int) (metadata : List (String × Data))

/-- The compensation a step leaves behind, where its binding names one. -/
def recordCompensation (m : MatchedTransition) (binding : CompiledBinding) (validatedInput : Option Data)
    (before after : Working Context Data) : Act Context Data (Working Context Data) :=
  match binding.resolvedCompensateName with
  | none => pure after
  | some compensateKey => do
    let createdAt ← now
    pure { after with pendingCompensations := before.pendingCompensations ++ [{
      transitionKey := binding.resolvedTransitionName.getD (m.sourceNode.path ++ "." ++ event)
      compensateKey
      fromState := before.workingState
      inputSnapshot := validatedInput
      contextBefore := before.workingContext
      createdAt }] }

/-- The branch of the resolver for an outcome that is ok. -/
def succeedStep (m : MatchedTransition) (binding : CompiledBinding) (validatedInput : Option Data) (result : Success Context Data)
    (w : Working Context Data) : Act Context Data (Working Context Data) := do
  let moved ← match given (result.output.targetState.or binding.edge.target) with
    | some effectiveTarget => do
      let applied ← orThrow (actor.applyTarget w.workingState m.sourceNode.path effectiveTarget)
      pure { w with
        workingState := applied.nextStateValue
        pendingEffects := w.pendingEffects ++ named applied.exitEffects ++ named binding.edge.effects ++
          named result.output.effects ++ named applied.entryEffects }
    | none => pure { w with pendingEffects := w.pendingEffects ++ named binding.edge.effects ++ named result.output.effects }
  recordCompensation event m binding validatedInput w { moved with
    workingContext := result.nextContext
    lastReturnValue := result.output.value.or w.lastReturnValue }

/-- Puts the steps before a failed one on the stack. -/
def flushCompensations (w : Working Context Data) : Act Context Data Nat :=
  match w.pendingCompensations with
  | [] => pure w.currentVersion
  | toFlush => do
    let updatedAt ← now
    updateTransaction snapshot.transactionId w.currentVersion { updatedAt } toFlush

/-- Unwinds the stack where the policy of the failed step asks for it. -/
def rollBack (updatedVersion : Nat) (failErr : Option String) (compensateRequested : Bool) (nextCtx : Context) :
    Act Context Data (Nat × Context × Nat) :=
  if compensateRequested then do
    let updatedAt ← now
    let updatedVersion ← updateTransaction snapshot.transactionId updatedVersion
      { status := some .COMPENSATING, lastError := some failErr, updatedAt }
    let unwind ← actor.unwindCompensationStack snapshot.transactionId nextCtx failErr
    pure (updatedVersion,unwind)
  else pure (updatedVersion,nextCtx,0)

/-- The failure branch of the resolver. -/
def failStep (m : MatchedTransition) (failErr : Option String) (compensateRequested : Bool) (fallbackTarget : String)
    (w : Working Context Data) : Act Context Data (Working Context Data × FailedStep) := do
  let flushed ← flushCompensations snapshot w
  let unwound ← actor.rollBack snapshot flushed failErr compensateRequested w.workingContext
  let fbApplied ← orThrow (actor.applyTarget w.workingState m.sourceNode.path fallbackTarget)
  pure ({ w with
      currentVersion := unwound.1
      workingState := fbApplied.nextStateValue
      workingContext := unwound.2.1
      pendingEffects := named fbApplied.exitEffects ++ named fbApplied.entryEffects
      pendingCompensations := [] },
    { failStatus := resolveSettledTransactionStatus actor.machine.toRawMachine fbApplied.nextStateValue compensateRequested
      failErr
      compensatedSteps := unwound.2.2 })

/-- The step after its chain, and how it is logged. -/
def resolveStep (m : MatchedTransition) (binding : CompiledBinding) (validatedInput : Option Data)
    (result : Except (Option String) (Success Context Data)) (w : Working Context Data) :
    Act Context Data (Working Context Data × Option FailedStep × BenchmarkOutcome) :=
  match fallbackCompensate binding result with
  | .success result => do
    let next ← actor.succeedStep event m binding validatedInput result w
    pure (next,none,.SUCCESS)
  | .failure error compensateRequested fallbackTarget => do
    let (next,step) ← actor.failStep snapshot m error compensateRequested fallbackTarget w
    pure (next,some step,if compensateRequested then .COMPENSATED
      else if next.workingState = .str "error" then .FAILED else .FALLBACK)

def recordBenchmark (binding : CompiledBinding) (fromState toState : StateValue) (attempts : Nat) (t0 : Int)
    (outcome : BenchmarkOutcome) (error : Option String) : Act Context Data Unit := do
  let ended ← now
  if binding.benchmarkEnabled && actor.hasLogger then
    let timestamp ← now
    orThrow (← ask (.recordTransition {
      timestamp, transactionId := snapshot.transactionId, machineId := actor.machine.id, actorId := actor.actorId, event
      transitionHandler := binding.resolvedTransitionName, fromState, toState, attempts
      durationMs := max 0 (ended - t0), outcome, error }))

/-- `executeWithTelemetry` of the binding of a match. -/
def executeMatch (m : MatchedTransition) (validatedInput : Option Data) (w : Working Context Data) :
    Act Context Data (Working Context Data × Option FailedStep) := do
  let binding ← orThrow (actor.binding m.sourceNode.path m.edge.event)
  let t0 ← now
  let (result,attempts) ← ask (.handler (bindingKey m.sourceNode.path m.edge.event) {
    transactionId := snapshot.transactionId, machineId := actor.machine.id, actorId := actor.actorId, event
    transitionHandlerName := binding.resolvedTransitionName, currentState := w.workingState, input := validatedInput
    contextData := w.workingContext, startedAt := stepStartedAt, metadata })
  let (next,failed,outcome) ← actor.resolveStep snapshot event m binding validatedInput result w
  actor.recordBenchmark snapshot event binding w.workingState next.workingState attempts t0 outcome (failed.bind (·.failErr))
  pure (next,failed)

/-- The loop over the matches; it ends at the first step that fails. -/
def executeMatches : List (MatchedTransition × Option Data) → Working Context Data →
    Act Context Data (Working Context Data × Option FailedStep)
  | [], w => pure (w,none)
  | (m,validatedInput)::rest, w => do
    let (next,failed) ← actor.executeMatch snapshot event stepStartedAt metadata m validatedInput w
    match failed with
    | some step => pure (next,some step)
    | none => executeMatches rest next

/-- The handler of an automatic transition, where it has one; a failure of it is passed over. -/
def executeDone (pendingDone : MatchedTransition) (w : Working Context Data) : Act Context Data (Working Context Data) := do
  match (Keyed.get actor.compiledBindings (bindingKey pendingDone.sourceNode.path "$onDone")).bind (·.resolvedTransitionName) with
  | none => pure w
  | some handlerName => do
    let startedAt ← now
    let (doneOut,_) ← ask (.doneHandler (bindingKey pendingDone.sourceNode.path "$onDone") {
      transactionId := snapshot.transactionId, machineId := actor.machine.id, actorId := actor.actorId
      event := "$onDone", transitionHandlerName := some handlerName, currentState := w.workingState
      input := none, contextData := w.workingContext, startedAt, metadata })
    match doneOut with
    | .ok result => pure { w with
        workingContext := result.nextContext, pendingEffects := w.pendingEffects ++ named result.output.effects }
    | .error _ => pure w

/-- For as many rounds as `safetyCounter` leaves. -/
def cascadeDone : Nat → Working Context Data → Act Context Data (Working Context Data)
  | 0, w => pure w
  | rounds+1, w => match findPendingOnDone actor.machine.toRawMachine w.workingState with
    | none => pure w
    | some pendingDone => do
      let ran ← actor.executeDone snapshot metadata pendingDone w
      match given pendingDone.edge.target with
      | none => pure { ran with pendingEffects := ran.pendingEffects ++ named pendingDone.edge.effects }
      | some target => do
        let appliedDone ← orThrow (actor.applyTarget ran.workingState pendingDone.sourceNode.path target)
        cascadeDone rounds { ran with
          workingState := appliedDone.nextStateValue
          pendingEffects := ran.pendingEffects ++ named appliedDone.exitEffects ++ named pendingDone.edge.effects ++
            named appliedDone.entryEffects }

/-- The settling commit. -/
def settle (w : Working Context Data) (status : TransactionStatus) (lastError : Option String) (completedAt : Int)
    (appendCompensations : List (NewCompensationEntry Context Data)) : Act Context Data Unit := do
  let _ ← updateTransaction snapshot.transactionId w.currentVersion {
    stateValue := some w.workingState, context := some w.workingContext, status := some status
    activeStep := some none, lastError := some lastError, lease := some (none,none), updatedAt := completedAt } appendCompensations
  ask (.bumpRevision snapshot.transactionId)

/-- The revision is dropped once no effect of the transaction is running. -/
def dropRevision : Act Context Data Unit := do
  let depth ← ask (.effectChainDepth snapshot.transactionId)
  if depth.isNone then ask (.removeRevision snapshot.transactionId) else pure ()

def rereadNested (before after : Nat) : Act Context Data (Option (TransactionSnapshot Context Data)) :=
  if after = before then pure none else getTransaction snapshot.transactionId

/-- What follows a settled step: the hooks, the effects, and the result, which is read again
where an effect has moved the transaction on. -/
def conclude (input : Option Data) (w : Working Context Data) (status : TransactionStatus) (value : Option Data)
    (compensatedSteps : Nat) (durationMs : Int) (error : Option String) :
    Act Context Data (TransitionExecutionResult Context Data) := do
  emit (.afterTransition snapshot.transactionId actor.machine.id actor.actorId event input snapshot.stateValue
    w.workingState status value w.workingContext compensatedSteps durationMs error)
  actor.emitSettledTerminalHooks snapshot.transactionId w.workingState status w.workingContext error
  let revBefore ← ask (.getRevision snapshot.transactionId)
  actor.invokeEffects snapshot.transactionId w.workingState w.workingContext w.pendingEffects
  let revision ← ask (.getRevision snapshot.transactionId)
  dropRevision snapshot
  match ← rereadNested snapshot revBefore revision with
  | some latest => pure {
      transactionId := snapshot.transactionId, previousState := snapshot.stateValue, currentState := latest.stateValue
      status := latest.status, value, context := latest.context, compensatedSteps, error := latest.lastError }
  | none => pure {
      transactionId := snapshot.transactionId, previousState := snapshot.stateValue, currentState := w.workingState
      status, value, context := w.workingContext, compensatedSteps, error }

/-- The lease; a snapshot that is IN_FLIGHT goes on without one of its own. -/
def takeLease (rawInput : Option Data) : Act Context Data Nat :=
  if snapshot.status = .IN_FLIGHT then pure snapshot.version
  else updateTransaction snapshot.transactionId snapshot.version {
    status := some .IN_FLIGHT, activeStep := some (some { event, input := rawInput, startedAt := stepStartedAt })
    lease := some (some actor.actorId,some (stepStartedAt + max 30000 actor.recoveryConfig.stuckThresholdMs))
    updatedAt := stepStartedAt }

/-- From the last match on: the cascade after a success, and the settling commit. -/
def settleStep (input : Option Data) (w : Working Context Data) :
    Option FailedStep → Act Context Data (TransitionExecutionResult Context Data)
  | some step => do
    let errMsg := step.failErr.getD "Transition failed"
    let completedAt ← now
    settle snapshot w step.failStatus (some errMsg) completedAt []
    actor.conclude snapshot event input w step.failStatus none step.compensatedSteps
      (max 0 (completedAt - stepStartedAt)) (some errMsg)
  | none => do
    let w ← actor.cascadeDone snapshot metadata 20 w
    let finalStatus := resolveSettledTransactionStatus actor.machine.toRawMachine w.workingState false
    let completedAt ← now
    settle snapshot w finalStatus none completedAt w.pendingCompensations
    actor.conclude snapshot event input w finalStatus w.lastReturnValue 0 (max 0 (completedAt - stepStartedAt)) none

end

/-- The step, from its lease on. -/
def executeLeased (snapshot : TransactionSnapshot Context Data) (event : String) (rawInput : Option Data)
    (metadata : List (String × Data)) (matched : List MatchedTransition) (validatedInputs : List (Option Data)) :
    Act Context Data (TransitionExecutionResult Context Data) := do
  let stepStartedAt ← now
  let currentVersion ← actor.takeLease snapshot event stepStartedAt rawInput
  let (w,failed) ← actor.executeMatches snapshot event stepStartedAt metadata (matched.zip validatedInputs)
    { currentVersion, workingState := snapshot.stateValue, workingContext := snapshot.context }
  actor.settleStep snapshot event stepStartedAt metadata (validatedInputs.headD rawInput) w failed

def executeTransitionOnSnapshot (snapshot : TransactionSnapshot Context Data) (event : String) (rawInput : Option Data)
    (metadata : List (String × Data)) : Act Context Data (TransitionExecutionResult Context Data) :=
  let matched := resolveTransitionsForEvent actor.machine.toRawMachine snapshot.stateValue event
  if matched = [] then
    .fail (.invalidTransition actor.machine.id event snapshot.stateValue
      (getAvailableEvents actor.machine.toRawMachine snapshot.stateValue))
  else do
    let validatedInputs ← actor.validateInputs rawInput matched
    emit (.beforeTransition snapshot.transactionId actor.machine.id actor.actorId event (validatedInputs.headD rawInput)
      snapshot.stateValue snapshot.context)
    actor.executeLeased snapshot event rawInput metadata matched validatedInputs

/-- What `transition` does once the actor is ready. -/
def transitionReady (transactionId event : String) (input : Option Data) (metadata : List (String × Data)) :
    Act Context Data (TransitionExecutionResult Context Data) := do
  match ← getTransaction transactionId with
  | none => .fail (.transactionNotFound transactionId)
  | some snapshot =>
    if snapshot.machineId = actor.machine.id then actor.executeTransitionOnSnapshot snapshot event input metadata
    else .fail (.transactionNotFound transactionId)

end DfsmActor
end Dfsm.Java
