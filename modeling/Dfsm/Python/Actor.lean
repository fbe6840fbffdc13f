import Dfsm.Python.Operations

/-! The actor of the Python SDK: a transition with its retries, its circuit breaker, its saga
and its completions. -/
namespace Dfsm.Python

/-- Whether it has a type for its contexts, and the context that is an empty dictionary. -/
structure DfsmActor (Data : Type) where
  machine : MachineDefinition
  contextType : Bool := false
  empty : Data

structure TransitionExecutionResult (Data : Type) where
  transactionId : String
  eventName : String
  previousState : StateValue
  currentState : StateValue
  status : TransactionStatus
  version : Int
  outputValue : Option Data
  compensatedSteps : Nat
  rollbackOccurred : Bool

variable {Data : Type}

/-- The match that is taken, and what goes with it. -/
structure Chosen where
  matched : MatchedTransition
  handlerName : String
  registered : Bool
  policy : TransitionPolicy

/-- The variables of the loop over the attempts. -/
structure Tried (Data : Type) where
  lastErr : Option Exn := none
  userCtx : Option Data
  contextJson : String
  output : Option Data := none
  attempts : Nat := 0

/-- The variables of the rollback. -/
structure Unwound (Data : Type) where
  userCtx : Option Data
  contextJson : String
  compensatedSteps : Nat := 0

namespace DfsmActor
open Act
variable (a : DfsmActor Data) (txId event : String)

/-- An `except Exception` that goes on with `value`. -/
def orElse {α : Type} (value : α) : Except Exn α → Act Data α
  | .ok x => pure x
  | .error e => if e.isException then pure value else .fail (.raised e)

def serializeContext : Option Data → Act Data (Except Exn String)
  | none => pure (.ok "{}")
  | some ctx => ask (.serializeContext ctx)

def deserializeContext (json : String) : Act Data (Option Data) :=
  if json = "" ∨ json = "{}" then
    if a.contextType then do orElse (some a.empty) (← ask .newContext)
    else pure (some a.empty)
  else do orElse (some a.empty) (← ask (.deserializeContext json))

def callHook (hookType : HookType) (payload : HookEvent) (h : String) : Act Data Unit := do
  match ← ask (.hook h payload) with
  | .ok _ => pure ()
  | .error e =>
    if e.isException then orRaise (← ask (.printHookError hookType e))
    else .fail (.raised e)

def fireHook (hookType : HookType) (payload : HookEvent) : Act Data Unit := do
  let hooks ← ask (.findHooks hookType)
  hooks.foldlM (fun _ h => callHook hookType payload h) ()

/-- The context of an effect, which is read anew where it is `None`. -/
def effectContext : Option Data → Act Data (Option Data)
  | some ctx => pure (some ctx)
  | none => do
    match ← orRaise (← ask (.getTransaction txId)) with
    | none => pure none
    | some record => a.deserializeContext record.contextJson

def runEffect (effectName : String) (userCtx : Option Data) (state : StateValue) : Act Data Unit := do
  if ← ask (.findEffect effectName) then
    let context ← a.effectContext txId userCtx
    orRaise (← ask (.effect effectName { transactionId := txId, context, eventName := event, state }))
  else if a.machine.strict then .fail (.raised (.unregisteredHandler "effect" effectName))
  else pure ()

def runEffects (userCtx : Option Data) (state : StateValue) (effects : List String) : Act Data Unit :=
  effects.foldlM (fun _ eff => a.runEffect txId event eff userCtx state) ()

def loadOrCreate : Act Data TransactionRecord := do
  match ← orRaise (← ask (.getTransaction txId)) with
  | some record => pure record
  | none =>
    let now ← ask .nowMs
    let record : TransactionRecord := {
      transactionId := txId, machineId := a.machine.id, currentState := (resolveInitialState a.machine).1, status := .IDLE
      contextJson := "{}", version := 1, createdAt := now, updatedAt := now }
    orRaise (← ask (.createTransaction record))
    pure record

def choose (matched : MatchedTransition) : Act Data Chosen := do
  let handlerName := (given matched.edge.transition).getD event
  let regTx ← ask (.findTransition handlerName)
  let globalPolicy ← ask .globalPolicy
  pure { matched, handlerName, registered := regTx.isSome
         policy := merge [regTx.join,matched.policy,a.machine.defaults,globalPolicy] }

def markInFlight (record : TransactionRecord) : Act Data TransactionRecord := do
  let updatedAt ← ask .nowMs
  let marked := { record with status := .IN_FLIGHT, updatedAt, version := record.version + 1 }
  orRaise (← ask (.updateTransaction marked record.version))
  pure marked

def getBreaker (chosen : Chosen) : Act Data (Option Nat) :=
  match chosen.policy.circuitBreaker with
  | none => pure none
  | some policy => if policy.enabled then do pure (some (← ask (.getBreaker chosen.handlerName policy))) else pure none

/-- The time to wait where the breaker refuses. -/
def beforeExecution : Option Nat → Act Data (Option Int)
  | none => pure none
  | some breaker => do
    let (cb,now) ← ask (.readBreaker breaker)
    ask (.writeBreaker breaker (cb.beforeExecution now).1)
    pure (cb.beforeExecution now).2

def onSuccess : Option Nat → Act Data Unit
  | none => pure ()
  | some breaker => do
    let (cb,_) ← ask (.readBreaker breaker)
    ask (.writeBreaker breaker cb.onSuccess)

def onFailure : Option Nat → Act Data Unit
  | none => pure ()
  | some breaker => do
    let (cb,now) ← ask (.readBreaker breaker)
    ask (.writeBreaker breaker (cb.onFailure now))

def invokeTransition (chosen : Chosen) (request : TransitionRequest Data) : Act Data (Except Exn (TransitionOutput Data)) :=
  if chosen.registered then do
    match ← ask (.handler chosen.handlerName request) with
    | .error e => pure (.error e)
    | .ok returned => pure (.ok (returned.toOutput request.context))
  else pure (.ok { context := request.context })

/-- From a handler that has returned to the end of the `try`. -/
def takeOutput (breaker : Option Nat) (t : Tried Data) (result : TransitionOutput Data) : Act Data (Except Exn Unit × Tried Data) :=
  match result.context with
  | none => do
    onSuccess breaker
    pure (.ok (),{ t with output := result.output })
  | some ctx => do
    match ← serializeContext (some ctx) with
    | .error e => pure (.error e,{ t with userCtx := some ctx })
    | .ok contextJson =>
      onSuccess breaker
      pure (.ok (),{ t with userCtx := some ctx, contextJson, output := result.output })

/-- What the `try` of an attempt does. -/
def tryOnce (chosen : Chosen) (breaker : Option Nat) (input : Option Data) (currentState : StateValue) (t : Tried Data) :
    Act Data (Except Exn Unit × Tried Data) := do
  match ← beforeExecution breaker with
  | some waitMs => pure (.error (.circuitOpen chosen.handlerName waitMs),t)
  | none =>
    match ← invokeTransition chosen { transactionId := txId, context := t.userCtx, input, currentState, eventName := event } with
    | .error e => pure (.error e,t)
    | .ok result => takeOutput breaker t result

/-- The attempts that are left. The back-off sleeps in the `except`. -/
def retryLoop (chosen : Chosen) (breaker : Option Nat) (input : Option Data) (currentState : StateValue) :
    Nat → Tried Data → Act Data (Tried Data)
  | 0, t => pure t
  | left+1, t => do
    match ← tryOnce txId event chosen breaker input currentState { t with attempts := t.attempts + 1 } with
    | (.ok _,t) => pure { t with lastErr := none }
    | (.error ex,t) =>
      if ex.isException then
        onFailure breaker
        if left ≠ 0 then orRaise (← ask (.backOff t.attempts))
        retryLoop chosen breaker input currentState left { t with lastErr := some ex }
      else .fail (.raised ex)

def serializeInput : Option Data → Act Data (Option String)
  | none => pure none
  | some input => do pure (some (← orRaise (← ask (.serializeInput input))))

/-- `if matched.edge.compensate` -/
def pushStep (chosen : Chosen) (input : Option Data) (prevState targetState : StateValue) (originalCtxJson : String) : Act Data Unit :=
  match given chosen.matched.edge.compensate with
  | none => pure ()
  | some compensateHandler => do
    let inputSnapshotJson ← serializeInput input
    let stamp ← ask .nowMs
    let timestamp ← ask .nowMs
    orRaise (← ask (.pushSagaStep txId {
      stepId := txId ++ "-" ++ toString stamp, stepName := chosen.handlerName, compensateHandler, fromState := prevState, targetState
      inputSnapshotJson, contextBeforeJson := some originalCtxJson, timestamp }))

/-- The loop has no bound in the source. -/
def cascadeOnDone (userCtx : Option Data) : Nat → StateValue → Act Data StateValue
  | 0, _ => .fail .running
  | rounds+1, sv => match computeOnDone a.machine sv with
    | none => pure sv
    | some (nextSv,onDoneEdges) => do
      a.runEffects txId event userCtx nextSv (onDoneEdges.flatMap (·.effects))
      cascadeOnDone userCtx rounds nextSv

def isFinal (sv : StateValue) : Bool :=
  match sv with
  | .str name => isFinalIn a.machine.states name
  | .obj _ => false

def notifySuccess (record : TransactionRecord) (prevState : StateValue) (userCtx : Option Data) (effects : List String) : Act Data Unit := do
  fireHook .AFTER_TRANSITION (.afterTransition txId event prevState record.currentState record.status 0)
  if record.status = .COMPLETED then
    fireHook .ON_COMPLETE (.onComplete txId record.currentState record.version)
    fireHook .ON_TERMINAL (.onTerminal txId record.currentState record.status)
  a.runEffects txId event userCtx record.currentState effects

/-- `matched.edge.target or matched.source_path[-1]` -/
def targetName (matched : MatchedTransition) : String := (given matched.edge.target).getD (matched.sourcePath.getLastD "")

/-- From a handler that succeeded to the result. -/
def succeed (rounds : Nat) (durationMs : Int) (input : Option Data) (chosen : Chosen) (record : TransactionRecord) (tried : Tried Data) :
    Act Data (TransitionExecutionResult Data) := do
  let prevState := record.currentState
  let applied := applyTargetTransition a.machine prevState chosen.matched.sourcePath (targetName chosen.matched)
  orRaise (← ask (.record {
    transactionId := txId, machineId := a.machine.id, eventName := event, handlerName := chosen.handlerName, attempts := tried.attempts
    outcome := .SUCCESS, durationMs, previousState := prevState, currentState := applied.nextStateValue }))
  pushStep txId chosen input prevState applied.nextStateValue record.contextJson
  let settled ← a.cascadeOnDone txId event tried.userCtx rounds applied.nextStateValue
  let updatedAt ← ask .nowMs
  let committed := { record with
    currentState := settled, contextJson := tried.contextJson, status := if a.isFinal settled then .COMPLETED else .IDLE, updatedAt
    version := record.version + 1 }
  orRaise (← ask (.updateTransaction committed record.version))
  a.notifySuccess txId event committed prevState tried.userCtx chosen.matched.edge.effects
  pure { transactionId := txId, eventName := event, previousState := prevState, currentState := settled, status := committed.status
         version := committed.version, outputValue := tried.output, compensatedSteps := 0, rollbackOccurred := false }

def parseSnapshot : Option String → Act Data (Option Data)
  | none => pure none
  | some json => do orRaise (← ask (.parseSnapshot json))

def compensateStep (w : Unwound Data) (step : SagaStepRecord) : Act Data (Unwound Data) := do
  if ← ask (.findCompensate step.compensateHandler) then
    let inputSnapshot ← parseSnapshot (given step.inputSnapshotJson)
    orRaise (← ask (.compensation step.compensateHandler {
      transactionId := txId, context := w.userCtx, stepName := step.stepName, inputSnapshot, fromState := step.fromState
      targetState := step.targetState }))
    match given step.contextBeforeJson with
    | none => pure w
    | some contextJson =>
      let userCtx ← a.deserializeContext contextJson
      pure { w with userCtx, contextJson }
  else pure w

/-- At most as many rounds as there were steps on the stack. -/
def unwind : Nat → Unwound Data → Act Data (Unwound Data)
  | 0, w => pure w
  | remaining+1, w => do
    match ← orRaise (← ask (.popSagaStep txId)) with
    | none => pure w
    | some step =>
      let w ← a.compensateStep txId w step
      fireHook .ON_COMPENSATE (.onCompensate txId step.stepName step.fromState step.targetState remaining)
      unwind remaining { w with compensatedSteps := w.compensatedSteps + 1 }

def rollBack (rollbackTriggered : Bool) (w : Unwound Data) : Act Data (Unwound Data) :=
  if rollbackTriggered then do
    let stack ← orRaise (← ask (.getSagaStack txId))
    a.unwind txId stack.length w
  else pure w

def failTarget (policy : TransitionPolicy) : String := (given (policy.onFail.bind (·.target))).getD "error"

/-- From a handler that failed to the result. -/
def fail (durationMs : Int) (chosen : Chosen) (record : TransactionRecord) (tried : Tried Data) (lastErr : Exn) :
    Act Data (TransitionExecutionResult Data) := do
  orRaise (← ask (.record {
    transactionId := txId, machineId := a.machine.id, eventName := event, handlerName := chosen.handlerName, attempts := tried.attempts
    outcome := .FAILED, durationMs, previousState := record.currentState, currentState := record.currentState, error := some lastErr }))
  let rollbackTriggered := chosen.policy.onFail.any (·.compensate)
  let unwound ← a.rollBack txId rollbackTriggered { userCtx := tried.userCtx, contextJson := tried.contextJson }
  let applied := applyTargetTransition a.machine record.currentState chosen.matched.sourcePath (failTarget chosen.policy)
  let updatedAt ← ask .nowMs
  let settled := { record with
    currentState := applied.nextStateValue, contextJson := unwound.contextJson
    status := if rollbackTriggered then .COMPENSATED else .FAILED, updatedAt, version := record.version + 1 }
  orRaise (← ask (.updateTransaction settled record.version))
  fireHook .ON_TERMINAL (.onTerminal txId settled.currentState settled.status)
  pure { transactionId := txId, eventName := event, previousState := settled.currentState, currentState := settled.currentState
         status := settled.status, version := settled.version, outputValue := none, compensatedSteps := unwound.compensatedSteps
         rollbackOccurred := rollbackTriggered }

/-- From the record that was marked to the result. -/
def execute (rounds : Nat) (input : Option Data) (chosen : Chosen) (marked : TransactionRecord) :
    Act Data (TransitionExecutionResult Data) := do
  let breaker ← getBreaker chosen
  let userCtx ← a.deserializeContext marked.contextJson
  let started ← ask .nowMs
  let tried ← retryLoop txId event chosen breaker input marked.currentState (max 1 chosen.policy.maxAttempts).toNat
    { userCtx, contextJson := marked.contextJson }
  let ended ← ask .nowMs
  match tried.lastErr with
  | none => a.succeed txId event rounds (ended - started) input chosen marked tried
  | some lastErr => a.fail txId event (ended - started) chosen marked tried lastErr

def isTerminal (status : TransactionStatus) : Bool := status = .COMPLETED || status = .FAILED || status = .COMPENSATED

/-- From the record on. A terminal transaction still takes an event that its state handles. -/
def transitionOn (rounds : Nat) (input : Option Data) (record : TransactionRecord) : Act Data (TransitionExecutionResult Data) :=
  match findTransitions a.machine record.currentState event with
  | [] => .fail (.raised (if isTerminal record.status then .alreadyTerminal record.currentState event txId record.status
      else .noTransition record.currentState event))
  | matched::_ => do
    let chosen ← a.choose event matched
    fireHook .BEFORE_TRANSITION (.beforeTransition txId record.currentState event)
    let marked ← markInFlight record
    a.execute txId event rounds input chosen marked

/-- Completions are followed for as many rounds. -/
def transition (rounds : Nat) (depth : Int) (input : Option Data) : Act Data (TransitionExecutionResult Data) :=
  if a.machine.maxEffectChainDepth ≤ depth then .fail (.raised (.maxEffectChainDepthExceeded txId a.machine.maxEffectChainDepth))
  else do
    let record ← a.loadOrCreate txId
    a.transitionOn txId event rounds input record

end DfsmActor
end Dfsm.Python
