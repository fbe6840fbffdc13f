import Dfsm.Go.Operations

/-! The actor of the Go SDK: a transition with its retries, its circuit breaker and its
saga, and the clean-up that operators force. -/
namespace Dfsm.Go
open Keyed (Record)

structure RegisteredTransition where
  /-- a handler that is not nil -/
  handler : Bool := true
  policy : Option PartialTransitionPolicy := none

/-- What is registered, by name; `coerce` decodes an input again into the type that the
handler takes, and the last four stand for `encoding/json`. -/
structure FSMRegistry (Context Data : Type) where
  transitions : Record RegisteredTransition := []
  compensations : List String := []
  effects : List String := []
  hooks : HookType → List String := fun _ => []
  validator : Bool := true
  globalPolicy : Option PartialTransitionPolicy := none
  coerce : String → Data → Data := fun _ input => input
  zeroContext : Context
  marshalContext : Context → String
  unmarshalContext : String → Context → Context
  marshalData : Data → String
  unmarshalData : String → Option Data

/-- The part after the last dot, where there is one. -/
def unqualified (name : String) : Option String :=
  if (Dotted.split name).length > 1 then (Dotted.split name).getLast? else none

namespace FSMRegistry
variable {Context Data : Type} (r : FSMRegistry Context Data)

def getTransition (name : String) : Option RegisteredTransition :=
  (Keyed.get r.transitions name).or ((unqualified name).bind (Keyed.get r.transitions))

def getCompensate (name : String) : Bool :=
  r.compensations.contains name || (unqualified name).any r.compensations.contains

def getEffect (name : String) : Bool :=
  r.effects.contains name || (unqualified name).any r.effects.contains

/-- `json.Unmarshal`, skipped for a context that was never written -/
def loadContext (contextJson : String) : Context :=
  if contextJson != "" && contextJson != "{}" then r.unmarshalContext contextJson r.zeroContext else r.zeroContext

end FSMRegistry

structure DfsmActor (Context Data : Type) where
  machine : MachineDefinition
  registry : FSMRegistry Context Data

structure TransitionExecutionResult (Data : Type) where
  transactionId : String
  eventName : String
  previousState : StateValue
  currentState : StateValue
  status : TransactionStatus
  outputValue : Option Data
  compensatedSteps : Nat
  rollbackOccurred : Bool

inductive ForceCleanUpAction where
  | COMPENSATE | MARK_FAIL | DELETE | CONTINUE
  deriving DecidableEq, Repr

structure ForceCleanUpOptions where
  action : ForceCleanUpAction
  transactionIds : List String := []
  stuckOnly : Bool := false
  olderThanMs : Option Int := none
  dryRun : Bool := false
  limit : Int := 0

structure ForceCleanUpResult where
  matchedCount : Nat
  processedCount : Nat
  dryRun : Bool
  action : ForceCleanUpAction
  affectedTransactionIds : List String

variable {Context Data : Type}

/-- How the handler ended after its attempts. -/
structure Tried (Context Data : Type) where
  lastErr : Option String := none
  output : HandlerOutput Context Data := {}
  attempts : Nat

/-- The match that is taken, and what goes with it. -/
structure Chosen (Data : Type) where
  matched : MatchedTransition
  handlerName : String
  registered : Bool
  policy : TransitionPolicy
  coercedInput : Option Data

namespace DfsmActor
open Act
variable (a : DfsmActor Context Data) (ord : Order) (txId eventName : String)

def fireHook (hookType : HookType) (event : HookEvent Context Data) : Act Context Data Unit :=
  (a.registry.hooks hookType).foldlM (fun _ h => do orPanic (← ask (.hook h event))) ()

/-- The error an effect returns is dropped by every caller. -/
def runEffectInternal (depth : Int) (userCtx : Context) (state : StateValue) (effectName : String) : Act Context Data Unit :=
  if a.registry.getEffect effectName then do
    let _ ← orPanic (← ask (.effect effectName (depth+1) { transactionId := txId, context := userCtx, eventName, state }))
  else pure ()

def runEffects (depth : Int) (userCtx : Context) (state : StateValue) (effects : List String) : Act Context Data Unit :=
  effects.foldlM (fun _ eff => a.runEffectInternal txId eventName depth userCtx state eff) ()

def create (depth now : Int) : Act Context Data TransactionRecord :=
  match resolveInitialState (ord.below "initial") a.machine with
  | none => .fail (.panicked ⟨"invalid memory address or nil pointer dereference"⟩)
  | some (initVal,entryEffects) => do
    let rec_ : TransactionRecord := {
      transactionId := txId, machineId := a.machine.id, currentState := initVal, status := .IDLE
      contextJson := a.registry.marshalContext a.registry.zeroContext, version := 1, createdAt := now, updatedAt := now }
    orReturn (← ask (.createTransaction rec_))
    a.fireHook .onStart (.onStart txId initVal a.registry.zeroContext)
    a.runEffects txId eventName depth a.registry.zeroContext initVal entryEffects
    pure rec_

def loadOrCreate (depth : Int) : Act Context Data TransactionRecord := do
  let found ← orReturn (← ask (.getTransaction txId))
  let now ← ask .nowMs
  match found with
  | some rec_ => pure rec_
  | none => a.create ord txId eventName depth now

/-- `matchedList[0]` -/
def selectTransition (sv : StateValue) : Option MatchedTransition :=
  (resolveTransitionsForEvent (ord.below "event") a.machine sv eventName).head?

def choose (matched : MatchedTransition) (input : Option Data) : Chosen Data :=
  let handlerName := if matched.edge.handler = "" then eventName else matched.edge.handler
  let found := a.registry.getTransition handlerName
  let registered := found.any (·.handler)
  { matched, handlerName, registered
    policy := mergePolicies [found.bind (·.policy),matched.edge.policy,a.machine.defaults,a.registry.globalPolicy]
    coercedInput := if registered then input.map (a.registry.coerce handlerName) else input }

def validateInput (coercedInput : Option Data) : Act Context Data Unit :=
  match coercedInput with
  | none => pure ()
  | some input =>
    if a.registry.validator then do
      match ← orPanic (← ask (.validate input s!"input for event '{eventName}'")) with
      | .ok _ => pure ()
      | .error message => .fail (.returned (.validation message))
    else pure ()

/-- The record as it has been marked, and stored. -/
def markInFlight (rec_ : TransactionRecord) : Act Context Data TransactionRecord := do
  let updatedAt ← ask .nowMs
  let marked := { rec_ with status := .IN_FLIGHT, updatedAt, version := rec_.version + 1 }
  orReturn (← ask (.updateTransaction marked rec_.version))
  pure marked

def loadBreaker (chosen : Chosen Data) : Act Context Data (Option Nat) :=
  match chosen.policy.circuitBreaker with
  | none => pure none
  | some policy => do pure (some (← ask (.loadBreaker chosen.handlerName policy)))

def beforeExecution (handlerName : String) : Option Nat → Act Context Data Unit
  | none => pure ()
  | some breaker => do
    let (cb,now) ← ask (.lockBreaker breaker .beforeExecution)
    ask (.unlockBreaker breaker (cb.beforeExecution now).1)
    match (cb.beforeExecution now).2 with
    | some waitMs => .fail (.returned (.circuitOpen handlerName waitMs))
    | none => pure ()

def onSuccess : Option Nat → Act Context Data Unit
  | none => pure ()
  | some breaker => do
    let (cb,_) ← ask (.lockBreaker breaker .onSuccess)
    ask (.unlockBreaker breaker cb.onSuccess)

def onFailure : Option Nat → Act Context Data Unit
  | none => pure ()
  | some breaker => do
    let (cb,now) ← ask (.lockBreaker breaker .onFailure)
    ask (.unlockBreaker breaker (cb.onFailure now))

/-- The attempts that are left, after `made` of them. -/
def retryLoop (breaker : Option Nat) (handlerName : String) (request : TransitionRequest Context Data) :
    Nat → Nat → Option String → Act Context Data (Tried Context Data)
  | 0, made, lastErr => pure { lastErr, attempts := made }
  | left+1, made, _ => do
    match ← orPanic (← ask (.handler handlerName request)) with
    | .ok output =>
      onSuccess breaker
      pure { output, attempts := made+1 }
    | .error err =>
      onFailure breaker
      if left ≠ 0 then ask (.sleep (made+1))
      retryLoop breaker handlerName request left (made+1) (some err)

def executeHandler (chosen : Chosen Data) (breaker : Option Nat) (userCtx : Context) (currentState : StateValue) :
    Act Context Data (Tried Context Data) :=
  if chosen.registered then do
    beforeExecution chosen.handlerName breaker
    retryLoop breaker chosen.handlerName { transactionId := txId, data := userCtx, input := chosen.coercedInput, currentState, eventName }
      chosen.policy.maxAttempts.toNat 0 none
  else pure { attempts := 1 }

def panicUnresolved (sourcePath targetRef : String) : Stop :=
  .panicked ⟨s!"cannot resolve target state '{targetRef}' from '{sourcePath}'"⟩

def applyTarget (place : String) (sv : StateValue) (sourcePath targetRef : String) : Except Stop AppliedTransition :=
  match applyTargetTransition (ord.below place) a.machine sv sourcePath targetRef with
  | none => .error (panicUnresolved sourcePath targetRef)
  | some applied => .ok applied

/-- The loop has no bound in the source. -/
def cascadeOnDone (ord : Order) : Nat → StateValue → Except Stop StateValue
  | 0, _ => .error .running
  | rounds+1, sv => match findPendingOnDone (ord.below "pending") a.machine sv with
    | none => .ok sv
    | some pending => match a.applyTarget ord "done" sv pending.sourcePath pending.edge.target with
      | .error stop => .error stop
      | .ok applied => cascadeOnDone (ord.below "next") rounds applied.nextStateValue

/-- Whatever the store says of the step is dropped. -/
def pushStep (chosen : Chosen Data) (prevState targetState : StateValue) (contextBefore : String) : Act Context Data Unit :=
  if chosen.policy.compensateWith = "" then pure ()
  else do
    let stamp ← ask .nowMs
    let timestamp ← ask .nowMs
    let _ ← ask (.pushSagaStep txId {
      stepId := s!"step-{stamp}", stepName := chosen.handlerName, compensateHandler := chosen.policy.compensateWith
      fromState := prevState, targetState, inputSnapshotJson := chosen.coercedInput.elim "" a.registry.marshalData
      contextBeforeJson := contextBefore, timestamp })

def notifySuccess (depth : Int) (rec_ : TransactionRecord) (prevState : StateValue) (updatedCtx : Context)
    (applied : AppliedTransition) : Act Context Data Unit := do
  a.fireHook .afterTransition (.afterTransition txId eventName prevState rec_.currentState rec_.status 0)
  if rec_.status = .COMPLETED then do
    a.fireHook .onComplete (.onComplete txId rec_.currentState updatedCtx)
    a.fireHook .onTerminal (.onTerminal txId rec_.currentState rec_.status updatedCtx)
  a.runEffects txId eventName depth updatedCtx rec_.currentState applied.exitEffects
  a.runEffects txId eventName depth updatedCtx rec_.currentState applied.entryEffects

/-- From a handler that succeeded to the result. -/
def succeed (rounds : Nat) (depth durationMs : Int) (chosen : Chosen Data) (rec_ : TransactionRecord) (userCtx : Context)
    (tried : Tried Context Data) : Act Context Data (TransitionExecutionResult Data) := do
  let applied ← .ofExcept (a.applyTarget ord "apply" rec_.currentState chosen.matched.sourcePath chosen.matched.edge.target)
  let contextJson := tried.output.context.elim rec_.contextJson a.registry.marshalContext
  a.pushStep txId chosen rec_.currentState applied.nextStateValue rec_.contextJson
  let settled ← .ofExcept (a.cascadeOnDone (ord.below "cascade") rounds applied.nextStateValue)
  let updatedAt ← ask .nowMs
  let committed := { rec_ with
    currentState := settled, contextJson, status := resolveSettledStatus (ord.below "status") a.machine settled false
    updatedAt, version := rec_.version + 1 }
  orReturn (← ask (.updateTransaction committed rec_.version))
  orPanic (← ask (.record {
    transactionId := txId, machineId := a.machine.id, eventName, handlerName := chosen.handlerName, attempts := tried.attempts
    outcome := .SUCCESS, durationMs, previousState := rec_.currentState, currentState := settled }))
  a.notifySuccess txId eventName depth committed rec_.currentState (tried.output.context.getD userCtx) applied
  pure { transactionId := txId, eventName, previousState := rec_.currentState, currentState := settled, status := committed.status
         outputValue := tried.output.output, compensatedSteps := 0, rollbackOccurred := false }

/-- What the loop over the stack carries along. -/
structure Unwound (Context : Type) where
  userCtx : Context
  contextJson : String
  compensatedSteps : Nat := 0

/-- The compensation of one step, where its handler is registered. -/
def compensateStep (step : SagaStepRecord) (unwound : Unwound Context) : Act Context Data (Unwound Context) :=
  if a.registry.getCompensate step.compensateHandler then do
    let inputSnapshot := if step.inputSnapshotJson = "" then none else a.registry.unmarshalData step.inputSnapshotJson
    orPanic (← ask (.compensation step.compensateHandler {
      transactionId := txId, context := unwound.userCtx, stepName := step.stepName, inputSnapshot
      fromState := step.fromState, targetState := step.targetState }))
    if step.contextBeforeJson = "" then pure unwound
    else pure { unwound with
      userCtx := a.registry.unmarshalContext step.contextBeforeJson unwound.userCtx, contextJson := step.contextBeforeJson }
  else pure unwound

/-- At most as many rounds as there were steps on the stack. -/
def unwind : Nat → Unwound Context → Act Context Data (Unwound Context)
  | 0, unwound => pure unwound
  | remaining+1, unwound => do
    match ← ask (.popSagaStep txId) with
    | .ok (some step) =>
      let unwound ← a.compensateStep txId step unwound
      a.fireHook .onCompensate (.onCompensate txId step.stepName step.fromState step.targetState remaining)
      unwind remaining { unwound with compensatedSteps := unwound.compensatedSteps + 1 }
    | _ => pure unwound

def rollBack (rollbackTriggered : Bool) (unwound : Unwound Context) : Act Context Data (Unwound Context) :=
  if rollbackTriggered then do
    match ← ask (.getSagaStack txId) with
    | .ok stack => a.unwind txId stack.length unwound
    | .error _ => pure unwound
  else pure unwound

def failTarget (policy : TransitionPolicy) : String :=
  match policy.onFail with
  | none => "error"
  | some onFail => if onFail.target = "" then "error" else onFail.target

/-- From a handler that failed to the result. Whether the update was accepted is not asked. -/
def fail (durationMs : Int) (chosen : Chosen Data) (rec_ : TransactionRecord) (userCtx : Context) (attempts : Nat) (lastErr : String) :
    Act Context Data (TransitionExecutionResult Data) := do
  orPanic (← ask (.record {
    transactionId := txId, machineId := a.machine.id, eventName, handlerName := chosen.handlerName, attempts
    outcome := .FAILED, durationMs, previousState := rec_.currentState, currentState := rec_.currentState, errorMessage := lastErr }))
  let rollbackTriggered := chosen.policy.onFail.any (·.compensate)
  let unwound ← a.rollBack txId rollbackTriggered { userCtx, contextJson := rec_.contextJson }
  let applied ← .ofExcept (a.applyTarget ord "fail" rec_.currentState chosen.matched.sourcePath (failTarget chosen.policy))
  let updatedAt ← ask .nowMs
  let status := resolveSettledStatus (ord.below "status") a.machine applied.nextStateValue rollbackTriggered
  let settled := { rec_ with
    currentState := applied.nextStateValue, contextJson := unwound.contextJson, status, updatedAt, version := rec_.version + 1 }
  let _ ← ask (.updateTransaction settled rec_.version)
  a.fireHook .onTerminal (.onTerminal txId applied.nextStateValue status unwound.userCtx)
  pure { transactionId := txId, eventName, previousState := applied.nextStateValue, currentState := applied.nextStateValue, status
         outputValue := none, compensatedSteps := unwound.compensatedSteps, rollbackOccurred := rollbackTriggered }

/-- From the record that was marked to the result. -/
def execute (rounds : Nat) (depth : Int) (chosen : Chosen Data) (marked : TransactionRecord) :
    Act Context Data (TransitionExecutionResult Data) := do
  let userCtx := a.registry.loadContext marked.contextJson
  let breaker ← loadBreaker chosen
  let startTime ← ask .timeNow
  let tried ← executeHandler txId eventName chosen breaker userCtx marked.currentState
  let ended ← ask .timeNow
  match tried.lastErr with
  | none => a.succeed ord txId eventName rounds depth (ended - startTime) chosen marked userCtx tried
  | some lastErr => a.fail ord txId eventName (ended - startTime) chosen marked userCtx tried.attempts lastErr

/-- From the record on. -/
def transitionOn (rounds : Nat) (depth : Int) (input : Option Data) (rec_ : TransactionRecord) :
    Act Context Data (TransitionExecutionResult Data) :=
  if rec_.status = .COMPLETED ∨ rec_.status = .FAILED then
    .fail (.returned (.alreadyTerminal rec_.currentState eventName txId rec_.status))
  else match a.selectTransition ord eventName rec_.currentState with
    | none => .fail (.returned (.noTransition rec_.currentState eventName a.machine.id))
    | some matched => do
      let chosen := a.choose eventName matched input
      a.validateInput eventName chosen.coercedInput
      a.fireHook .beforeTransition (.beforeTransition txId rec_.currentState eventName chosen.coercedInput)
      let marked ← markInFlight rec_
      a.execute ord txId eventName rounds depth chosen marked

/-- `depth` is the depth of the effect chain that the context carries; completions are
followed for as many rounds. -/
def transition (rounds : Nat) (depth : Int) (input : Option Data) : Act Context Data (TransitionExecutionResult Data) :=
  if a.machine.maxEffectChainDepth ≤ depth then
    .fail (.returned (.maxEffectChainDepth a.machine.maxEffectChainDepth txId eventName))
  else do
    let rec_ ← a.loadOrCreate ord txId eventName depth
    a.transitionOn ord txId eventName rounds depth input rec_

/-! Clean-up. -/

/-- A transaction that cannot be read is left out. -/
def readCandidates : List String → Act Context Data (List TransactionRecord)
  | [] => pure []
  | id::rest => do
    match ← ask (.getTransaction id) with
    | .ok (some rec_) => do pure (rec_::(← readCandidates rest))
    | _ => readCandidates rest

def isMatched (opts : ForceCleanUpOptions) (now : Int) (rec_ : TransactionRecord) : Bool :=
  !opts.olderThanMs.any (fun olderThanMs => now - rec_.updatedAt < olderThanMs) &&
    !(opts.stuckOnly && rec_.status != .IN_FLIGHT && rec_.status != .COMPENSATING)

/-- Pops until the stack is empty, however many steps are pushed meanwhile. -/
def compensateAll (rec_ : TransactionRecord) : Nat → Act Context Data Unit
  | 0 => .fail .running
  | rounds+1 => do
    match ← ask (.popSagaStep rec_.transactionId) with
    | .ok (some step) =>
      if a.registry.getCompensate step.compensateHandler then
        orPanic (← ask (.compensation step.compensateHandler {
          transactionId := rec_.transactionId, context := a.registry.loadContext rec_.contextJson, stepName := step.stepName
          inputSnapshot := if step.inputSnapshotJson = "" then none else a.registry.unmarshalData step.inputSnapshotJson
          fromState := step.fromState, targetState := step.targetState }))
      compensateAll rec_ rounds
    | _ => pure ()

/-- Whether the update was accepted is not asked. -/
def endWith (rec_ : TransactionRecord) (now : Int) (status : TransactionStatus) (currentState : StateValue) : Act Context Data Unit := do
  let _ ← ask (.updateTransaction { rec_ with status, currentState, updatedAt := now, version := rec_.version + 1 } rec_.version)

def processOne (rounds : Nat) (action : ForceCleanUpAction) (now : Int) (rec_ : TransactionRecord) : Act Context Data Unit :=
  match action with
  | .DELETE => do
    let _ ← ask (.deleteTransaction rec_.transactionId)
  | .MARK_FAIL => endWith rec_ now .FAILED (leaf "error")
  | .COMPENSATE => do
    a.compensateAll rec_ rounds
    endWith rec_ now .FAILED (leaf "error")
  | .CONTINUE => endWith rec_ now .IDLE rec_.currentState

def candidates (opts : ForceCleanUpOptions) : Act Context Data (List TransactionRecord) :=
  if opts.transactionIds.isEmpty then do orReturn (← ask (.listActiveTransactions a.machine.id opts.limit))
  else readCandidates opts.transactionIds

/-- The number of transactions processed. -/
def processAll (rounds : Nat) (opts : ForceCleanUpOptions) (now : Int) (matched : List TransactionRecord) : Act Context Data Nat :=
  if opts.dryRun then pure 0
  else matched.foldlM (fun processed rec_ => do
    a.processOne rounds opts.action now rec_
    pure (processed+1)) 0

def forceCleanUp (rounds : Nat) (opts : ForceCleanUpOptions) : Act Context Data ForceCleanUpResult := do
  let candidates ← a.candidates opts
  let now ← ask .nowMs
  let matched := candidates.filter (isMatched opts now)
  let processedCount ← a.processAll rounds opts now matched
  pure { matchedCount := matched.length, processedCount, dryRun := opts.dryRun, action := opts.action
         affectedTransactionIds := matched.map (·.transactionId) }

end DfsmActor
end Dfsm.Go
