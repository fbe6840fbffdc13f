import Dfsm.Csharp.Operations

/-! The actor of the C# SDK: a transition with its retries, its circuit breaker and its saga,
and the clean-up that operators force. -/
namespace Dfsm.Csharp
open Keyed (Record)

/-- What is registered, by name. -/
structure FSMRegistry where
  transitions : Record PartialTransitionPolicy := []
  compensations : List String := []
  effects : List String := []
  hooks : HookType → List String := fun _ => []
  globalPolicy : PartialTransitionPolicy := {}

/-- The part after the last dot, where there is one. -/
def unqualified (name : String) : Option String :=
  if (Dotted.split name).length > 1 then (Dotted.split name).getLast? else none

namespace FSMRegistry
variable (r : FSMRegistry)

def getTransition (name : String) : Option PartialTransitionPolicy :=
  (Keyed.get r.transitions name).or ((unqualified name).bind (Keyed.get r.transitions))

def getCompensate (name : String) : Bool := r.compensations.contains name || (unqualified name).any r.compensations.contains

def getEffect (name : String) : Bool := r.effects.contains name || (unqualified name).any r.effects.contains

end FSMRegistry

/-- With `default(TContext)`, and which contexts are null. -/
structure DfsmActor (Context : Type) where
  machine : MachineDefinition
  registry : FSMRegistry
  defaultContext : Context
  isNull : Context → Bool

structure TransitionExecutionResult (Data : Type) where
  transactionId : String
  eventName : String
  previousState : StateValue
  currentState : StateValue
  status : TransactionStatus
  outputValue : Option Data
  compensatedSteps : Nat
  rollbackTriggered : Bool

inductive ForceCleanUpAction where
  | COMPENSATE | MARK_FAIL | DELETE | CONTINUE
  deriving DecidableEq, Repr

structure ForceCleanUpOptions where
  action : ForceCleanUpAction := .COMPENSATE
  transactionIds : List String := []
  stuckOnly : Bool := false
  olderThanMs : Option Int := none
  dryRun : Bool := false
  limit : Int := 100

structure ForceCleanUpResult where
  matchedCount : Nat
  processedCount : Nat
  dryRun : Bool
  action : ForceCleanUpAction
  affectedTransactionIds : List String

variable {Context Data : Type}

/-- How the handler ended after its attempts. -/
structure Tried (Context Data : Type) where
  lastError : Option Exn := none
  output : HandlerOutput Context Data := {}
  attempts : Nat

/-- The match that is taken, and what goes with it. -/
structure Chosen where
  matched : MatchedTransition
  handlerName : String
  registered : Bool
  policy : TransitionPolicy

namespace DfsmActor
open Act
variable (a : DfsmActor Context) (txId eventName : String)

/-- `log` of an exception that is not passed on. -/
def logged (line : Exn → LogLine) : Except Exn Unit → Act Context Data Unit
  | .ok _ => pure ()
  | .error e => do orThrow (← ask (.log (line e)))

def fireHook (hookType : HookType) (event : HookEvent Context Data) : Act Context Data Unit :=
  (a.registry.hooks hookType).foldlM (fun _ h => do logged (.hookError hookType) (← ask (.hook h event))) ()

def serializeContext (context : Context) : Act Context Data String :=
  if a.isNull context then pure "{}" else do orThrow (← ask (.serializeContext context))

def deserializeContext (json : String) : Act Context Data Context :=
  if isBlank json || json = "{}" then pure a.defaultContext else do orThrow (← ask (.deserializeContext json))

def runEffectInternal (depth : Int) (context : Context) (state : StateValue) (effectName : String) (payload : Option Data) :
    Act Context Data Unit :=
  if a.registry.getEffect effectName then do
    orThrow (← ask (.effect effectName (depth+1) { transactionId := txId, context, eventName, state, payload }))
  else pure ()

def runEffects (depth : Int) (context : Context) (state : StateValue) (effects : List String) : Act Context Data Unit :=
  effects.foldlM (fun _ eff => a.runEffectInternal txId eventName depth context state eff none) ()

def create (depth now : Int) : Act Context Data TransactionRecord :=
  match resolveInitialState a.machine with
  | none => .fail (.thrown (.keyNotFound a.machine.initial))
  | some (initVal,entryEffects) => do
    let contextJson ← a.serializeContext a.defaultContext
    let record : TransactionRecord := {
      transactionId := txId, machineId := a.machine.id, currentState := initVal, status := .IDLE, contextJson, version := 1
      createdAt := now, updatedAt := now }
    orThrow (← ask (.createTransaction record))
    a.fireHook .OnStart (.onStart txId initVal a.defaultContext)
    a.runEffects txId eventName depth a.defaultContext initVal entryEffects
    pure record

def loadOrCreate (depth : Int) : Act Context Data TransactionRecord := do
  let found ← orThrow (← ask (.getTransaction txId))
  let now ← ask .nowMs
  match found with
  | some record => pure record
  | none => a.create txId eventName depth now

/-- `matchedList[0]` -/
def selectTransition (sv : StateValue) : Option MatchedTransition := (resolveTransitionsForEvent a.machine sv eventName).head?

def choose (matched : MatchedTransition) : Chosen :=
  let handlerName := matched.edge.handler.getD eventName
  let regTx := a.registry.getTransition handlerName
  { matched, handlerName, registered := regTx.isSome
    policy := merge [regTx,matched.edge.policy,a.machine.defaults,some a.registry.globalPolicy] }

def coerceInput (chosen : Chosen) : Option Data → Act Context Data (Option Data)
  | none => pure none
  | some input => if chosen.registered then do pure (some (← orThrow (← ask (.coerce chosen.handlerName input)))) else pure (some input)

def validateInput : Option Data → Act Context Data Unit
  | none => pure ()
  | some input => do orThrow (← ask (.validate input s!"input for event '{eventName}'"))

/-- The record as it has been marked, and stored. -/
def markInFlight (record : TransactionRecord) : Act Context Data TransactionRecord := do
  let updatedAt ← ask .nowMs
  let marked := { record with status := .IN_FLIGHT, updatedAt, version := record.version + 1 }
  orThrow (← ask (.updateTransaction marked record.version))
  pure marked

def getBreaker (chosen : Chosen) : Act Context Data (Option Nat) :=
  match chosen.policy.circuitBreaker with
  | none => pure none
  | some policy => do pure (some (← ask (.getBreaker chosen.handlerName policy)))

/-- Outside of the `try` of the attempts. -/
def beforeExecution (handlerName : String) : Option Nat → Act Context Data Unit
  | none => pure ()
  | some breaker => do
    let (cb,now) ← ask (.lockBreaker breaker .beforeExecution)
    ask (.unlockBreaker breaker (cb.beforeExecution now).1)
    match (cb.beforeExecution now).2 with
    | some waitMs => .fail (.thrown (.circuitOpen handlerName waitMs))
    | none => pure ()

def onSuccess : Option Nat → Act Context Data Unit
  | none => pure ()
  | some breaker => do
    let (cb,_) ← ask (.lockBreaker breaker .onSuccess)
    ask (.unlockBreaker breaker cb.onSuccess)

def onFailure : Option Nat → Act Context Data Unit
  | none => pure ()
  | some breaker => do
    let (cb,now) ← ask (.lockBreaker breaker .onFailure)
    ask (.unlockBreaker breaker (cb.onFailure now))

/-- The attempts that are left, after `made` of them. The back-off sleeps in the `catch`. -/
def retryLoop (breaker : Option Nat) (handlerName : String) (request : TransitionRequest Context Data) :
    Nat → Nat → Option Exn → Act Context Data (Tried Context Data)
  | 0, made, lastError => pure { lastError, attempts := made }
  | left+1, made, _ => do
    match ← ask (.handler handlerName request) with
    | .ok output =>
      onSuccess breaker
      pure { output, attempts := made+1 }
    | .error ex =>
      onFailure breaker
      if left ≠ 0 then orThrow (← ask (.sleep (made+1)))
      retryLoop breaker handlerName request left (made+1) (some ex)

def executeHandler (chosen : Chosen) (breaker : Option Nat) (currentCtx : Context) (coercedInput : Option Data) (currentState : StateValue) :
    Act Context Data (Tried Context Data) :=
  if chosen.registered then do
    beforeExecution chosen.handlerName breaker
    retryLoop breaker chosen.handlerName { transactionId := txId, data := currentCtx, input := coercedInput, currentState, eventName }
      chosen.policy.maxAttempts.toNat 0 none
  else pure { attempts := 1 }

def applyTarget (sv : StateValue) (sourcePath targetRef : String) : Except Stop AppliedTransition :=
  match applyTargetTransition a.machine sv sourcePath targetRef with
  | none => .error (.thrown (.unresolvedTarget targetRef sourcePath a.machine.id))
  | some applied => .ok applied

/-- The loop has no bound in the source. -/
def cascadeOnDone : Nat → StateValue → Except Stop StateValue
  | 0, _ => .error .running
  | rounds+1, sv => match findPendingOnDone a.machine sv with
    | none => .ok sv
    | some pending => match a.applyTarget sv pending.sourcePath pending.edge.target with
      | .error stop => .error stop
      | .ok applied => cascadeOnDone rounds applied.nextStateValue

def serializeInput : Option Data → Act Context Data (Option String)
  | none => pure none
  | some input => do pure (some (← orThrow (← ask (.serializeInput input))))

/-- `string.IsNullOrEmpty(policy.CompensateWith)`, or the step that is pushed. -/
def pushStep (chosen : Chosen) (input : Option Data) (prevState targetState : StateValue) (currentCtx : Context) : Act Context Data Unit :=
  match given chosen.policy.compensateWith with
  | none => pure ()
  | some compensateHandler => do
    let stepId ← ask .newGuid
    let inputSnapshotJson ← serializeInput input
    let contextBeforeJson ← a.serializeContext currentCtx
    let timestamp ← ask .nowMs
    orThrow (← ask (.pushSagaStep txId {
      stepId, stepName := chosen.handlerName, compensateHandler, fromState := prevState, targetState, inputSnapshotJson
      contextBeforeJson := some contextBeforeJson, timestamp }))

def notifySuccess (depth : Int) (record : TransactionRecord) (prevState : StateValue) (updatedCtx : Context)
    (applied : AppliedTransition) : Act Context Data Unit := do
  a.fireHook .AfterTransition (.afterTransition txId eventName prevState record.currentState record.status 0)
  if record.status = .COMPLETED then do
    a.fireHook .OnComplete (.onComplete txId record.currentState updatedCtx)
    a.fireHook .OnTerminal (.onTerminal txId record.currentState record.status updatedCtx)
  a.runEffects txId eventName depth updatedCtx record.currentState applied.exitEffects
  a.runEffects txId eventName depth updatedCtx record.currentState applied.entryEffects

/-- The context as the handler has left it, or as it was stored. -/
def nextContextJson (record : TransactionRecord) : Option Context → Act Context Data String
  | none => pure record.contextJson
  | some context => a.serializeContext context

/-- From a handler that succeeded to the result. -/
def succeed (rounds : Nat) (depth durationMs : Int) (input : Option Data) (chosen : Chosen) (record : TransactionRecord)
    (currentCtx : Context) (tried : Tried Context Data) : Act Context Data (TransitionExecutionResult Data) := do
  let applied ← .ofExcept (a.applyTarget record.currentState chosen.matched.sourcePath chosen.matched.edge.target)
  let contextJson ← a.nextContextJson record tried.output.context
  a.pushStep txId chosen input record.currentState applied.nextStateValue currentCtx
  let settled ← .ofExcept (a.cascadeOnDone rounds applied.nextStateValue)
  let updatedAt ← ask .nowMs
  let committed := { record with
    currentState := settled, contextJson, status := resolveSettledTransactionStatus a.machine settled false, updatedAt
    version := record.version + 1 }
  orThrow (← ask (.updateTransaction committed record.version))
  orThrow (← ask (.record {
    transactionId := txId, machineId := a.machine.id, eventName, handlerName := chosen.handlerName, attempts := tried.attempts
    outcome := .SUCCESS, durationMs, previousState := record.currentState, currentState := settled }))
  a.notifySuccess txId eventName depth committed record.currentState (tried.output.context.getD currentCtx) applied
  pure { transactionId := txId, eventName, previousState := record.currentState, currentState := settled, status := committed.status
         outputValue := tried.output.output, compensatedSteps := 0, rollbackTriggered := false }

/-- What the `try` around a compensation does. -/
def tryCompensate (currentCtx : Context) (step : SagaStepRecord) : Act Context Data (Except Exn Unit) :=
  let call (inputSnapshot : Option Data) : Act Context Data (Except Exn Unit) :=
    ask (.compensation step.compensateHandler {
      transactionId := txId, context := currentCtx, stepName := step.stepName, inputSnapshot, fromState := step.fromState
      targetState := step.targetState })
  match step.inputSnapshotJson with
  | none => call none
  | some json => do
    match ← ask (.parseSnapshot json) with
    | .error e => pure (.error e)
    | .ok snapshot => call (some snapshot)

def compensateStep (currentCtx : Context) (step : SagaStepRecord) : Act Context Data Unit :=
  if a.registry.getCompensate step.compensateHandler then do
    logged (.compensateError txId step.stepName) (← tryCompensate txId currentCtx step)
  else pure ()

/-- At most as many rounds as there were steps on the stack; the number of those compensated. -/
def unwind (currentCtx : Context) : Nat → Nat → Act Context Data Nat
  | 0, compensatedSteps => pure compensatedSteps
  | remaining+1, compensatedSteps => do
    match ← orThrow (← ask (.popSagaStep txId)) with
    | none => pure compensatedSteps
    | some step =>
      a.compensateStep txId currentCtx step
      a.fireHook .OnCompensate (.onCompensate txId step.stepName step.fromState step.targetState remaining)
      unwind currentCtx remaining (compensatedSteps+1)

def rollBack (rollbackTriggered : Bool) (currentCtx : Context) : Act Context Data Nat :=
  if rollbackTriggered then do
    let sagaStack ← orThrow (← ask (.getSagaStack txId))
    a.unwind txId currentCtx sagaStack.length 0
  else pure 0

/-- `policy.OnFail?.Target ?? "error"` -/
def failTarget (policy : TransitionPolicy) : String := (policy.onFail.bind (·.target)).getD "error"

/-- From a handler that failed to the result. -/
def fail (durationMs : Int) (chosen : Chosen) (record : TransactionRecord) (currentCtx : Context) (attempts : Nat) (lastError : Exn) :
    Act Context Data (TransitionExecutionResult Data) := do
  orThrow (← ask (.record {
    transactionId := txId, machineId := a.machine.id, eventName, handlerName := chosen.handlerName, attempts
    outcome := .FAILED, durationMs, previousState := record.currentState, currentState := record.currentState, error := some lastError }))
  let rollbackTriggered := chosen.policy.onFail.any (·.compensate)
  let compensatedSteps ← a.rollBack txId rollbackTriggered currentCtx
  let applied ← .ofExcept (a.applyTarget record.currentState chosen.matched.sourcePath (failTarget chosen.policy))
  let updatedAt ← ask .nowMs
  let status := resolveSettledTransactionStatus a.machine applied.nextStateValue rollbackTriggered
  let settled := { record with currentState := applied.nextStateValue, status, updatedAt, version := record.version + 1 }
  orThrow (← ask (.updateTransaction settled record.version))
  a.fireHook .OnTerminal (.onTerminal txId applied.nextStateValue status currentCtx)
  pure { transactionId := txId, eventName, previousState := applied.nextStateValue, currentState := applied.nextStateValue, status
         outputValue := none, compensatedSteps, rollbackTriggered }

/-- From the record that was marked to the result. -/
def execute (rounds : Nat) (depth : Int) (input coercedInput : Option Data) (chosen : Chosen) (marked : TransactionRecord) :
    Act Context Data (TransitionExecutionResult Data) := do
  let currentCtx ← a.deserializeContext marked.contextJson
  let breaker ← getBreaker chosen
  let tried ← executeHandler txId eventName chosen breaker currentCtx coercedInput marked.currentState
  let durationMs ← ask .elapsedMilliseconds
  match tried.lastError with
  | none => a.succeed txId eventName rounds depth durationMs input chosen marked currentCtx tried
  | some lastError => a.fail txId eventName durationMs chosen marked currentCtx tried.attempts lastError

/-- From the record on. -/
def transitionOn (rounds : Nat) (depth : Int) (input : Option Data) (record : TransactionRecord) :
    Act Context Data (TransitionExecutionResult Data) :=
  if record.status = .COMPLETED ∨ record.status = .FAILED then
    .fail (.thrown (.alreadyTerminal record.currentState eventName txId record.status))
  else match a.selectTransition eventName record.currentState with
    | none => .fail (.thrown (.noTransition record.currentState eventName a.machine.id))
    | some matched => do
      let chosen := a.choose eventName matched
      let coercedInput ← coerceInput chosen input
      validateInput eventName coercedInput
      a.fireHook .BeforeTransition (.beforeTransition txId record.currentState eventName input)
      let marked ← markInFlight record
      a.execute txId eventName rounds depth input coercedInput chosen marked

/-- `depth` is what `EffectChainDepth` holds in the flow of the call; completions are followed
for as many rounds. -/
def transitionAsync (rounds : Nat) (depth : Int) (input : Option Data) : Act Context Data (TransitionExecutionResult Data) :=
  if a.machine.maxEffectChainDepth ≤ depth then
    .fail (.thrown (.maxEffectChainDepth a.machine.maxEffectChainDepth txId eventName))
  else do
    let record ← a.loadOrCreate txId eventName depth
    a.transitionOn txId eventName rounds depth input record

/-- An effect on its own, in the flow of a call. -/
def runEffectAsync (depth : Int) (effectName : String) (payload : Option Data) : Act Context Data Unit := do
  match ← orThrow (← ask (.getTransaction txId)) with
  | none => .fail (.thrown (.transactionNotFound txId))
  | some record =>
    let context ← a.deserializeContext record.contextJson
    a.runEffectInternal txId "EFFECT" depth context record.currentState effectName payload

/-! Clean-up. -/

/-- A transaction that is not there is left out. -/
def readCandidates : List String → Act Context Data (List TransactionRecord)
  | [] => pure []
  | id::rest => do
    match ← orThrow (← ask (.getTransaction id)) with
    | some record => do pure (record::(← readCandidates rest))
    | none => readCandidates rest

def candidates (options : ForceCleanUpOptions) : Act Context Data (List TransactionRecord) :=
  if options.transactionIds.isEmpty then do orThrow (← ask (.listActiveTransactions a.machine.id options.limit))
  else readCandidates options.transactionIds

def isMatched (options : ForceCleanUpOptions) (now : Int) (record : TransactionRecord) : Bool :=
  !options.olderThanMs.any (fun olderThanMs => now - record.updatedAt < olderThanMs) &&
    !(options.stuckOnly && record.status != .IN_FLIGHT && record.status != .COMPENSATING)

/-- The `try` with an empty `catch`. -/
def cleanUpStep (record : TransactionRecord) (step : SagaStepRecord) : Act Context Data Unit :=
  if a.registry.getCompensate step.compensateHandler then do
    let _ ← (do
      let context ← a.deserializeContext record.contextJson
      orThrow (← tryCompensate record.transactionId context step) : Act Context Data Unit).attempt
    pure ()
  else pure ()

/-- Pops until the stack is empty, however many steps are pushed meanwhile. -/
def compensateAll (record : TransactionRecord) : Nat → Act Context Data Unit
  | 0 => .fail .running
  | rounds+1 => do
    match ← orThrow (← ask (.popSagaStep record.transactionId)) with
    | none => pure ()
    | some step =>
      a.cleanUpStep record step
      compensateAll record rounds

def endWith (record : TransactionRecord) (now : Int) (status : TransactionStatus) (currentState : StateValue) : Act Context Data Unit := do
  orThrow (← ask (.updateTransaction { record with status, currentState, updatedAt := now, version := record.version + 1 } record.version))

def processOne (rounds : Nat) (action : ForceCleanUpAction) (now : Int) (record : TransactionRecord) : Act Context Data Unit :=
  match action with
  | .DELETE => do orThrow (← ask (.deleteTransaction record.transactionId))
  | .MARK_FAIL => endWith record now .FAILED (Go.leaf "error")
  | .COMPENSATE => do
    a.compensateAll record rounds
    endWith record now .FAILED (Go.leaf "error")
  | .CONTINUE => endWith record now .IDLE record.currentState

/-- The number of transactions processed. -/
def processAll (rounds : Nat) (options : ForceCleanUpOptions) (now : Int) (matched : List TransactionRecord) : Act Context Data Nat :=
  if options.dryRun then pure 0
  else matched.foldlM (fun processed record => do
    a.processOne rounds options.action now record
    pure (processed+1)) 0

def forceCleanUpAsync (rounds : Nat) (options : ForceCleanUpOptions) : Act Context Data ForceCleanUpResult := do
  let candidates ← a.candidates options
  let now ← ask .nowMs
  let matched := candidates.filter (isMatched options now)
  let processedCount ← a.processAll rounds options now matched
  pure { matchedCount := matched.length, processedCount, dryRun := options.dryRun, action := options.action
         affectedTransactionIds := matched.map (·.transactionId) }

end DfsmActor
end Dfsm.Csharp
