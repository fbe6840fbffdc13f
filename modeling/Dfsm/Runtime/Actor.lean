import Dfsm.Runtime.Operations

/-! The actor: starting a transaction, running a transition under a lease, unwinding
the compensation stack, recovery sweeps and administrative clean-up. -/
namespace Dfsm

/-- A compiled binding; its pipeline is reached by the binding's key. -/
structure CompiledTransitionBinding where
  edge : TransitionEdgeIR
  resolvedTransitionName : Option String := none
  resolvedCompensateName : Option String := none
  onFailCompensate : Bool := false
  onFailTarget : Option String := none
  benchmarkEnabled : Bool := true

inductive OnRestartMode where
  | STOP | MARK_FAIL | DELETE | COMPENSATE | CONTINUE
  deriving DecidableEq, Repr

structure InFlightRecoveryConfig where
  stuckThresholdMs : Int := 30000
  defaultAction : OnRestartMode := .MARK_FAIL
  stateActions : List (String × OnRestartMode) := []
  haltActorOnStop : Bool := false

structure ActorSchedulerConfig where
  retentionMs : Option Int := none
  batchSize : Int := 100

/-- An actor after `initialize`: its machine, its bindings under their keys, and the
names its registry resolves. -/
structure Actor where
  machine : MachineDefinition
  actorId : String
  compiledBindings : String → Option CompiledTransitionBinding
  resolveCompensate : String → Option String
  resolveEffect : String → Option String := fun _ => none
  recoveryConfig : InFlightRecoveryConfig := {}
  schedulerConfig : ActorSchedulerConfig := {}
  maxEffectChainDepth : Nat := 25

structure TransitionExecutionResult (Context Data : Type) where
  transactionId : String
  previousState : StateValue
  currentState : StateValue
  status : TransactionStatus
  value : Option Data
  context : Context
  compensatedSteps : Nat
  error : Option String

def isTerminalStatus (status : TransactionStatus) : Bool :=
  status = .COMPLETED || status = .COMPENSATED || status = .FAILED

def bindingKey (statePath event : String) : String := statePath ++ "::" ++ event

variable {Context Data : Type}

/-- The outcome of a pipeline once the fallback decorator has caught a failure. -/
inductive PipelineExecutionOutcome (Context Data : Type) where
  | ok (output : TransitionOutput Context Data)
  | failed (error : String) (compensateRequested : Bool) (fallbackTarget : String)

def fallbackCompensate (binding : CompiledTransitionBinding) :
    Except String (TransitionOutput Context Data) → PipelineExecutionOutcome Context Data
  | .ok output => .ok output
  | .error error => .failed error binding.onFailCompensate ((given binding.onFailTarget).getD "error")

/-- What the loop over the matches carries along. -/
structure Working (Context Data : Type) where
  currentVersion : Nat
  workingState : StateValue
  workingContext : Context
  lastReturnValue : Option Data := none
  pendingEffects : List (EffectInvocation Data) := []
  pendingCompensations : List (PendingCompensation Context Data) := []

/-- What a failed step leaves for its settling commit. -/
structure FailedStep where
  settledStatus : TransactionStatus
  errorMessage : String
  compensatedSteps : Nat

namespace Actor
open Act
variable (actor : Actor)

def applyTarget (workingState : StateValue) (sourceStatePath targetRef : String) : Except DfsmError AppliedTransition :=
  match applyTargetTransition actor.machine.toRawMachine workingState sourceStatePath targetRef with
  | none => .error (.unresolvedTarget targetRef sourceStatePath actor.machine.id)
  | some applied => .ok applied

def binding (statePath event : String) : Except DfsmError CompiledTransitionBinding :=
  match actor.compiledBindings (bindingKey statePath event) with
  | none => .error (.thrown "Cannot read properties of undefined")
  | some binding => .ok binding

def named (names : List String) : List (EffectInvocation Data) := names.map (fun name => { handler := name })

/-- The handler of one entry, where its key resolves. -/
def compensateEntry (transactionId failureError : String) (currentContext : Context)
    (entry : CompensationEntryRecord Context Data) : Act Context Data Context := do
  match actor.resolveCompensate entry.compensateKey with
  | none => pure currentContext
  | some resolvedName =>
    let updated ← orThrow (← ask (.compensate resolvedName {
      transactionId, machineId := actor.machine.id, actorId := actor.actorId, stepSeq := entry.stepSeq
      fromState := entry.fromState, inputSnapshot := entry.inputSnapshot, contextBefore := entry.contextBefore
      currentContext, failureError }))
    pure (updated.getD currentContext)

/-- One round of the loop over the stack: the handler, the mark, the hook. -/
def unwindEntry (transactionId failureError : String) (unwound : Context × Nat)
    (entry : CompensationEntryRecord Context Data) : Act Context Data (Context × Nat) := do
  let ctx ← actor.compensateEntry transactionId failureError unwound.1 entry
  let compensatedAt ← now
  ask (.markCompensationExecuted transactionId entry.stepSeq compensatedAt)
  emit (.onCompensate transactionId actor.machine.id actor.actorId entry.stepSeq
    ((actor.resolveCompensate entry.compensateKey).getD entry.compensateKey) entry.fromState entry.inputSnapshot
    ctx failureError)
  pure (ctx,unwound.2+1)

def unwindCompensationStack (transactionId : String) (currentContext : Context) (failureError : String) :
    Act Context Data (Context × Nat) := do
  let stack ← ask (.getUncompensatedStack transactionId)
  stack.foldlM (actor.unwindEntry transactionId failureError) (currentContext,0)

def emitSettledTerminalHooks (transactionId : String) (finalState : StateValue) (status : TransactionStatus)
    (context : Context) (error : Option String) : Act Context Data Unit :=
  if isTerminalStatus status then do
    if status = .COMPLETED then emit (.onComplete transactionId actor.machine.id actor.actorId finalState context)
    emit (.onTerminal transactionId actor.machine.id actor.actorId finalState status context error)
  else pure ()

/-- Reads the transaction again where its revision has moved. -/
def rereadMoved (transactionId : String) (before after : Nat) :
    Act Context Data (Option (TransactionSnapshot Context Data)) :=
  if after = before then pure none else ask (.getTransaction transactionId)

/-- The effect inside its frame, which is left also where the effect has thrown. -/
def runEffectFrame (resolvedName : String) (nextDepth : Nat) (request : EffectRequest Context Data) :
    Act Context Data Unit := do
  ask (.setEffectChainDepth request.transactionId (some nextDepth))
  let ran ← ask (.effect resolvedName request)
  let depth ← ask (.effectChainDepth request.transactionId)
  let remaining := depth.getD 1 - 1
  ask (.setEffectChainDepth request.transactionId (if remaining = 0 then none else some remaining))
  orThrow ran

def invokeSingleEffect (transactionId : String) (fallbackState : StateValue) (fallbackContext : Context)
    (baselineRevision : Nat) (item : EffectInvocation Data) : Act Context Data Unit :=
  match actor.resolveEffect item.handler with
  | none =>
    if actor.machine.registry.strict then
      .fail (.unregisteredHandler actor.machine.id
        [qualifyHandlerName item.handler actor.machine.registry.namespaceName])
    else pure ()
  | some resolvedName => do
    let depth ← ask (.effectChainDepth transactionId)
    let nextDepth := depth.getD 0 + 1
    if actor.maxEffectChainDepth < nextDepth then
      .fail (.maxEffectChainDepth actor.maxEffectChainDepth transactionId resolvedName)
    else do
      let revision ← ask (.transitionRevision transactionId)
      let latest ← rereadMoved transactionId baselineRevision revision
      runEffectFrame resolvedName nextDepth {
        transactionId, machineId := actor.machine.id, actorId := actor.actorId
        state := (latest.map (·.stateValue)).getD fallbackState
        context := (latest.map (·.context)).getD fallbackContext
        payload := item.payload, baselineRevision }

def invokeEffects (transactionId : String) (state : StateValue) (context : Context)
    (effects : List (EffectInvocation Data)) : Act Context Data Unit := do
  let baselineRevision ← ask (.transitionRevision transactionId)
  effects.foldlM (fun _ item => actor.invokeSingleEffect transactionId state context baselineRevision item) ()

/-- `customTransactionId ?? randomUUID()` -/
def chosenId : Option String → Act Context Data String
  | some id => pure id
  | none => ask .randomUUID

def startTransaction (initialContext : Context) (customTransactionId : Option String) : Act Context Data String := do
  let validatedInitial ← orThrow (← ask (.validateContext initialContext))
  let txId ← chosenId customTransactionId
  let startedAt ← now
  let (stateValue,entered) := resolveInitialState actor.machine.toRawMachine
  let status := resolveSettledTransactionStatus actor.machine.toRawMachine stateValue false
  orThrow (← ask (.createTransaction {
    transactionId := txId, machineId := actor.machine.id, actorId := actor.actorId
    stateValue, context := validatedInitial, status, version := 1
    createdAt := startedAt, updatedAt := startedAt }))
  emit (.onStart txId actor.machine.id actor.actorId stateValue status validatedInitial)
  actor.emitSettledTerminalHooks txId stateValue status validatedInitial none
  actor.invokeEffects txId stateValue validatedInitial (named (entered.flatMap (·.entry)))
  pure txId

def validateInputs (rawInput : Data) (matched : List MatchedTransition) : Act Context Data (List Data) :=
  matched.mapM (fun m => do
    let _ ← orThrow (actor.binding m.sourceNode.path m.edge.event)
    orThrow (← ask (.validateInput m.sourceNode.path m.edge.event rawInput)))

section
variable (snapshot : TransactionSnapshot Context Data) (event : String) (stepStartedAt : Int) (metadata : Metadata Data)

/-- The compensation a step leaves behind, where its binding names one. -/
def recordCompensation (m : MatchedTransition) (binding : CompiledTransitionBinding) (validatedInput : Data)
    (before after : Working Context Data) : Act Context Data (Working Context Data) := do
  match given binding.resolvedCompensateName with
  | none => pure after
  | some compensateKey =>
    let createdAt ← now
    pure { after with pendingCompensations := before.pendingCompensations ++ [{
      transitionKey := binding.resolvedTransitionName.getD (m.sourceNode.path ++ "." ++ event)
      compensateKey
      fromState := before.workingState
      inputSnapshot := validatedInput
      contextBefore := before.workingContext
      createdAt }] }

/-- A step whose handler succeeded. -/
def succeedStep (m : MatchedTransition) (binding : CompiledTransitionBinding) (validatedInput : Data)
    (output : TransitionOutput Context Data) (w : Working Context Data) : Act Context Data (Working Context Data) := do
  let moved ← match given (output.targetState.or binding.edge.target) with
    | some effectiveTarget => do
      let applied ← orThrow (actor.applyTarget w.workingState m.sourceNode.path effectiveTarget)
      pure { w with
        workingState := applied.nextStateValue
        pendingEffects := w.pendingEffects ++ named applied.exitEffects ++ named binding.edge.effects ++
          output.effects ++ named applied.entryEffects }
    | none => pure { w with pendingEffects := w.pendingEffects ++ named binding.edge.effects ++ output.effects }
  recordCompensation event m binding validatedInput w { moved with
    workingContext := output.nextContext
    lastReturnValue := output.value.or w.lastReturnValue }

/-- Puts the steps before a failed one on the stack. -/
def flushCompensations (w : Working Context Data) : Act Context Data Nat :=
  match w.pendingCompensations with
  | [] => pure w.currentVersion
  | pending => do
    let updatedAt ← now
    updateTransaction snapshot.transactionId w.currentVersion { updatedAt } pending

/-- Unwinds the stack where the policy of the failed step asks for it. -/
def rollBack (version : Nat) (error : String) (compensateRequested : Bool) (workingContext : Context) :
    Act Context Data (Nat × Context × Nat) :=
  if compensateRequested then do
    let updatedAt ← now
    let currentVersion ← updateTransaction snapshot.transactionId version
      { status := some .COMPENSATING, lastError := some (some error), updatedAt }
    let unwound ← actor.unwindCompensationStack snapshot.transactionId workingContext error
    pure (currentVersion,unwound)
  else pure (version,workingContext,0)

/-- A step whose pipeline failed: after the rollback the fallback target is entered. -/
def failStep (m : MatchedTransition) (error : String) (compensateRequested : Bool) (fallbackTarget : String)
    (w : Working Context Data) : Act Context Data (Working Context Data × FailedStep) := do
  let flushed ← flushCompensations snapshot w
  let unwound ← actor.rollBack snapshot flushed error compensateRequested w.workingContext
  let applied ← orThrow (actor.applyTarget w.workingState m.sourceNode.path fallbackTarget)
  pure ({ w with
      currentVersion := unwound.1
      workingState := applied.nextStateValue
      workingContext := unwound.2.1
      pendingEffects := named applied.exitEffects ++ named applied.entryEffects
      pendingCompensations := [] },
    { settledStatus := resolveSettledTransactionStatus actor.machine.toRawMachine applied.nextStateValue compensateRequested
      errorMessage := error
      compensatedSteps := unwound.2.2 })

/-- The step after its pipeline, and how it is logged. -/
def stepOutcome (m : MatchedTransition) (binding : CompiledTransitionBinding) (validatedInput : Data)
    (result : Except String (TransitionOutput Context Data)) (w : Working Context Data) :
    Act Context Data (Working Context Data × Option FailedStep × LogOutcome) :=
  match fallbackCompensate binding result with
  | .ok output => do
    let next ← actor.succeedStep event m binding validatedInput output w
    pure (next,none,.SUCCESS)
  | .failed error compensateRequested fallbackTarget => do
    let (next,step) ← actor.failStep snapshot m error compensateRequested fallbackTarget w
    pure (next,some step,if compensateRequested then .COMPENSATED
      else if next.workingState = .str "error" then .FAILED else .FALLBACK)

def recordTelemetry (binding : CompiledTransitionBinding) (fromState toState : StateValue) (attempts : Nat)
    (t0 : Int) (outcome : LogOutcome) (error : Option String) : Act Context Data Unit := do
  let ended ← now
  if binding.benchmarkEnabled then
    let timestamp ← now
    orThrow (← ask (.recordTransition {
      timestamp, transactionId := snapshot.transactionId, machineId := actor.machine.id, actorId := actor.actorId, event
      transitionHandler := binding.resolvedTransitionName, fromState, toState, attempts
      durationMs := max 0 (ended - t0), outcome, error }))

def runMatch (m : MatchedTransition) (validatedInput : Data) (w : Working Context Data) :
    Act Context Data (Working Context Data × Option FailedStep) := do
  let binding ← orThrow (actor.binding m.sourceNode.path m.edge.event)
  let t0 ← now
  let (result,attempts) ← ask (.handler (bindingKey m.sourceNode.path m.edge.event) {
    transactionId := snapshot.transactionId, machineId := actor.machine.id, actorId := actor.actorId, event
    transitionHandlerName := binding.resolvedTransitionName, currentState := w.workingState
    input := some validatedInput, contextData := w.workingContext, startedAt := stepStartedAt, metadata })
  let (next,failed,outcome) ← actor.stepOutcome snapshot event m binding validatedInput result w
  actor.recordTelemetry snapshot event binding w.workingState next.workingState attempts t0 outcome
    (failed.map (·.errorMessage))
  pure (next,failed)

/-- The loop over the matches; it ends at the first step that fails. -/
def runMatches : List (MatchedTransition × Data) → Working Context Data →
    Act Context Data (Working Context Data × Option FailedStep)
  | [], w => pure (w,none)
  | (m,validatedInput)::rest, w => do
    let (next,failed) ← actor.runMatch snapshot event stepStartedAt metadata m validatedInput w
    match failed with
    | some step => pure (next,some step)
    | none => runMatches rest next

/-- The `$onDone` handler of a container that is done, where it has one. -/
def runDoneHandler (pendingDone : MatchedTransition) (w : Working Context Data) :
    Act Context Data (Working Context Data) := do
  match (actor.compiledBindings (bindingKey pendingDone.sourceNode.path "$onDone")).bind
      (fun doneBinding => given doneBinding.resolvedTransitionName) with
  | none => pure w
  | some handlerName => do
    let startedAt ← now
    let (result,_) ← ask (.doneHandler (bindingKey pendingDone.sourceNode.path "$onDone") {
      transactionId := snapshot.transactionId, machineId := actor.machine.id, actorId := actor.actorId
      event := "$onDone", transitionHandlerName := some handlerName, currentState := w.workingState
      input := none, contextData := w.workingContext, startedAt, metadata })
    match result with
    | .ok output => pure { w with
        workingContext := output.nextContext, pendingEffects := w.pendingEffects ++ output.effects }
    | .error _ => pure w

/-- The loop over completed containers, for as many rounds as `safetyCounter` leaves. -/
def cascade : Nat → Working Context Data → Act Context Data (Working Context Data)
  | 0, w => pure w
  | rounds+1, w => match findPendingOnDone actor.machine.toRawMachine w.workingState with
    | none => pure w
    | some pendingDone => do
      let ran ← actor.runDoneHandler snapshot metadata pendingDone w
      match given pendingDone.edge.target with
      | none => pure { ran with pendingEffects := ran.pendingEffects ++ named pendingDone.edge.effects }
      | some target => do
        let applied ← orThrow (actor.applyTarget ran.workingState pendingDone.sourceNode.path target)
        cascade rounds { ran with
          workingState := applied.nextStateValue
          pendingEffects := ran.pendingEffects ++ named applied.exitEffects ++ named pendingDone.edge.effects ++
            named applied.entryEffects }

/-- The settling commit. -/
def settle (w : Working Context Data) (status : TransactionStatus) (lastError : Option String) (completedAt : Int)
    (appendCompensations : List (PendingCompensation Context Data)) : Act Context Data Unit := do
  let _ ← updateTransaction snapshot.transactionId w.currentVersion {
    stateValue := some w.workingState, context := some w.workingContext, status := some status
    activeStep := some none, lastError := some lastError, leaseOwner := some none, leaseExpiresAt := some none
    updatedAt := completedAt } appendCompensations
  ask (.bumpTransitionRevision snapshot.transactionId)

/-- The revision counter is dropped once no effect of the transaction is running. -/
def dropRevision : Act Context Data Unit := do
  let depth ← ask (.effectChainDepth snapshot.transactionId)
  if depth.isNone then ask (.dropTransitionRevision snapshot.transactionId) else pure ()

/-- What follows a settled step: the hooks, the effects, and the result, which is read
again where an effect has moved the transaction on. -/
def conclude (input : Data) (w : Working Context Data) (status : TransactionStatus) (value : Option Data)
    (compensatedSteps : Nat) (durationMs : Int) (error : Option String) :
    Act Context Data (TransitionExecutionResult Context Data) := do
  emit (.afterTransition snapshot.transactionId actor.machine.id actor.actorId event input snapshot.stateValue
    w.workingState status value w.workingContext compensatedSteps durationMs error)
  actor.emitSettledTerminalHooks snapshot.transactionId w.workingState status w.workingContext error
  let revBeforeEffects ← ask (.transitionRevision snapshot.transactionId)
  actor.invokeEffects snapshot.transactionId w.workingState w.workingContext w.pendingEffects
  let revision ← ask (.transitionRevision snapshot.transactionId)
  dropRevision snapshot
  match ← rereadMoved snapshot.transactionId revBeforeEffects revision with
  | some latest => pure {
      transactionId := snapshot.transactionId, previousState := snapshot.stateValue, currentState := latest.stateValue
      status := latest.status, value, context := latest.context, compensatedSteps, error := given latest.lastError }
  | none => pure {
      transactionId := snapshot.transactionId, previousState := snapshot.stateValue, currentState := w.workingState
      status, value, context := w.workingContext, compensatedSteps, error }

end

/-- The lease; a snapshot that is already IN_FLIGHT goes on without one of its own. -/
def takeLease (snapshot : TransactionSnapshot Context Data) (event : String) (rawInput : Data) (stepStartedAt : Int) :
    Act Context Data Nat :=
  if snapshot.status = .IN_FLIGHT then pure snapshot.version
  else updateTransaction snapshot.transactionId snapshot.version {
    status := some .IN_FLIGHT, activeStep := some (some { event, input := rawInput, startedAt := stepStartedAt })
    leaseOwner := some (some actor.actorId)
    leaseExpiresAt := some (some (stepStartedAt + max 30000 actor.recoveryConfig.stuckThresholdMs))
    updatedAt := stepStartedAt }

/-- From the last match on: the cascade after a success, and the settling commit. -/
def settleStep (snapshot : TransactionSnapshot Context Data) (event : String) (metadata : Metadata Data) (input : Data)
    (stepStartedAt : Int) (w : Working Context Data) :
    Option FailedStep → Act Context Data (TransitionExecutionResult Context Data)
  | some step => do
    let completedAt ← now
    settle snapshot w step.settledStatus (some step.errorMessage) completedAt []
    actor.conclude snapshot event input w step.settledStatus none step.compensatedSteps
      (max 0 (completedAt - stepStartedAt)) (some step.errorMessage)
  | none => do
    let w ← actor.cascade snapshot metadata 20 w
    let finalStatus := resolveSettledTransactionStatus actor.machine.toRawMachine w.workingState false
    let completedAt ← now
    settle snapshot w finalStatus none completedAt w.pendingCompensations
    actor.conclude snapshot event input w finalStatus w.lastReturnValue 0 (max 0 (completedAt - stepStartedAt)) none

def executeTransitionOnSnapshot (snapshot : TransactionSnapshot Context Data) (event : String) (rawInput : Data)
    (metadata : Metadata Data) : Act Context Data (TransitionExecutionResult Context Data) :=
  let matched := resolveTransitionsForEvent actor.machine.toRawMachine snapshot.stateValue event
  if matched = [] then
    .fail (.invalidTransition actor.machine.id event snapshot.stateValue
      (getAvailableEvents actor.machine.toRawMachine snapshot.stateValue))
  else do
    let validatedInputs ← actor.validateInputs rawInput matched
    let input := validatedInputs.headD rawInput
    emit (.beforeTransition snapshot.transactionId actor.machine.id actor.actorId event input snapshot.stateValue
      snapshot.context)
    let stepStartedAt ← now
    let currentVersion ← actor.takeLease snapshot event rawInput stepStartedAt
    let (w,failed) ← actor.runMatches snapshot event stepStartedAt metadata (matched.zip validatedInputs)
      { currentVersion, workingState := snapshot.stateValue, workingContext := snapshot.context }
    actor.settleStep snapshot event metadata input stepStartedAt w failed

def transition (transactionId event : String) (input : Data) (metadata : List (String × Data)) :
    Act Context Data (TransitionExecutionResult Context Data) := do
  match ← ask (.getTransaction transactionId) with
  | none => .fail (.transactionNotFound transactionId)
  | some snapshot =>
    if snapshot.machineId = actor.machine.id then
      actor.executeTransitionOnSnapshot snapshot event input (.caller metadata)
    else .fail (.transactionNotFound transactionId)

end Actor

end Dfsm
