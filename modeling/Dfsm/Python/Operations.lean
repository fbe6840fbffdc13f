import Dfsm.Python.Statechart
import Dfsm.Lib.Program

/-! The policies and the records of the Python SDK, and what a call of its actor asks of the
store, the clock, the circuit breakers, the serializers and the registry. The registry is a
dictionary that functions are added to at any time: each lookup in it is a request. -/
namespace Dfsm.Python

structure CircuitBreakerPolicy where
  enabled : Bool := true
  failureThreshold : Int := 5
  recoveryTimeoutMs : Int := 30000
  halfOpenSuccessThreshold : Int := 2
  deriving DecidableEq, Repr

structure OnFailPolicy where
  target : Option String := none
  compensate : Bool := false
  deriving DecidableEq, Repr

structure TransitionPolicy where
  maxAttempts : Int := 1
  circuitBreaker : Option CircuitBreakerPolicy := none
  onFail : Option OnFailPolicy := none
  deriving DecidableEq, Repr

/-- `PolicyMerger.merge`: the first layer that defines a part gives all of it. -/
def merge (layers : List (Option PartialTransitionPolicy)) : TransitionPolicy :=
  let layers := layers.filterMap id
  { maxAttempts := ((layers.find? (fun l => l.retryDefined || l.retryMaxAttempts.isSome)).bind (·.retryMaxAttempts)).getD 1
    circuitBreaker := (layers.find? (fun l =>
        l.cbDefined || l.cbFailureThreshold.isSome || l.cbEnabled.isSome || l.cbRecoveryTimeoutMs.isSome)).map (fun l => {
      enabled := l.cbEnabled.getD true
      failureThreshold := l.cbFailureThreshold.getD 5
      recoveryTimeoutMs := l.cbRecoveryTimeoutMs.getD 30000
      halfOpenSuccessThreshold := l.cbHalfOpenSuccess.getD 2 })
    onFail := (layers.find? (fun l => l.onFailDefined || l.onFailTarget.isSome || l.onFailCompensate.isSome)).map
      (fun l => { target := l.onFailTarget, compensate := l.onFailCompensate.getD false }) }

inductive CircuitState where
  | CLOSED | OPEN | HALF_OPEN
  deriving DecidableEq, Repr

structure CircuitBreakerInstance where
  policy : CircuitBreakerPolicy
  state : CircuitState := .CLOSED
  consecutiveFailures : Int := 0
  consecutiveSuccesses : Int := 0
  openedAtMs : Int := 0
  deriving DecidableEq, Repr

namespace CircuitBreakerInstance

/-- The breaker, and the time to wait where it raises. -/
def beforeExecution (cb : CircuitBreakerInstance) (now : Int) : CircuitBreakerInstance × Option Int :=
  if cb.state = .OPEN then
    if cb.policy.recoveryTimeoutMs ≤ now - cb.openedAtMs then ({ cb with state := .HALF_OPEN, consecutiveSuccesses := 0 },none)
    else (cb,some (cb.policy.recoveryTimeoutMs - (now - cb.openedAtMs)))
  else (cb,none)

def onSuccess (cb : CircuitBreakerInstance) : CircuitBreakerInstance :=
  match cb.state with
  | .HALF_OPEN =>
    if cb.policy.halfOpenSuccessThreshold ≤ cb.consecutiveSuccesses + 1 then
      { cb with state := .CLOSED, consecutiveFailures := 0, consecutiveSuccesses := 0 }
    else { cb with consecutiveSuccesses := cb.consecutiveSuccesses + 1 }
  | .CLOSED => { cb with consecutiveFailures := 0 }
  | .OPEN => cb

def onFailure (cb : CircuitBreakerInstance) (now : Int) : CircuitBreakerInstance :=
  match cb.state with
  | .HALF_OPEN => { cb with state := .OPEN, openedAtMs := now, consecutiveFailures := cb.consecutiveFailures + 1 }
  | .CLOSED =>
    if cb.policy.failureThreshold ≤ cb.consecutiveFailures + 1 then
      { cb with consecutiveFailures := cb.consecutiveFailures + 1, state := .OPEN, openedAtMs := now }
    else { cb with consecutiveFailures := cb.consecutiveFailures + 1 }
  | .OPEN => cb

end CircuitBreakerInstance

/-- What is raised. `raised` is any other `Exception`, with its message; `interrupted` is a
`BaseException` that is none, such as the cancellation of a task. -/
inductive Exn where
  | maxEffectChainDepthExceeded (transactionId : String) (maxDepth : Int)
  | alreadyTerminal (currentState : StateValue) (event transactionId : String) (status : TransactionStatus)
  | noTransition (currentState : StateValue) (event : String)
  | circuitOpen (handlerName : String) (waitMs : Int)
  | unregisteredHandler (handlerType name : String)
  | staleTransactionVersion (transactionId : String) (expectedVersion actualVersion : Int)
  | raised (message : String)
  | interrupted (message : String)
  deriving DecidableEq

/-- What `except Exception` catches. -/
def Exn.isException : Exn → Bool
  | .interrupted _ => false
  | _ => true

structure SagaStepRecord where
  stepId : String
  stepName : String
  compensateHandler : String
  fromState : StateValue
  targetState : StateValue
  inputSnapshotJson : Option String := none
  contextBeforeJson : Option String := none
  timestamp : Int
  deriving DecidableEq

structure TransactionRecord where
  transactionId : String
  machineId : String
  currentState : StateValue
  status : TransactionStatus
  contextJson : String
  version : Int
  createdAt : Int
  updatedAt : Int
  leaseExpiresAt : Option Int := none
  leaseOwner : Option String := none
  sagaStack : List SagaStepRecord := []
  deriving DecidableEq

/-- A context or an input that is `None` is none. -/
structure TransitionRequest (Data : Type) where
  transactionId : String
  context : Option Data
  input : Option Data
  currentState : StateValue
  eventName : String

structure TransitionOutput (Data : Type) where
  context : Option Data := none
  output : Option Data := none

/-- What a handler returns: an output, a tuple of two or of one, `None`, or a value that is
none of these. -/
inductive Returned (Data : Type) where
  | result (output : TransitionOutput Data)
  | pair (context output : Option Data)
  | single (context : Option Data)
  | value (context : Data)
  | nothing

def Returned.toOutput {Data : Type} (ctx : Option Data) : Returned Data → TransitionOutput Data
  | .result output => output
  | .pair context output => { context, output }
  | .single context => { context }
  | .value context => { context := some context }
  | .nothing => { context := ctx }

structure CompensationRequest (Data : Type) where
  transactionId : String
  context : Option Data
  stepName : String
  inputSnapshot : Option Data
  fromState : StateValue
  targetState : StateValue

structure EffectRequest (Data : Type) where
  transactionId : String
  context : Option Data
  eventName : String
  state : StateValue

inductive HookType where
  | ON_START | BEFORE_TRANSITION | AFTER_TRANSITION | ON_COMPENSATE | ON_COMPLETE | ON_TERMINAL
  deriving DecidableEq, Repr

inductive HookEvent where
  | beforeTransition (transactionId : String) (currentState : StateValue) (eventName : String)
  | afterTransition (transactionId eventName : String) (previousState currentState : StateValue) (status : TransactionStatus)
    (compensatedSteps : Nat)
  | onCompensate (transactionId stepName : String) (fromState targetState : StateValue) (stepsRemaining : Nat)
  | onComplete (transactionId : String) (finalState : StateValue) (version : Int)
  | onTerminal (transactionId : String) (finalState : StateValue) (status : TransactionStatus)
  deriving DecidableEq

inductive BenchmarkOutcome where
  | SUCCESS | FAILED
  deriving DecidableEq, Repr

structure BenchmarkEvent where
  transactionId : String
  machineId : String
  eventName : String
  handlerName : String
  attempts : Nat
  outcome : BenchmarkOutcome
  durationMs : Int
  previousState : StateValue
  currentState : StateValue
  /-- whose message is recorded -/
  error : Option Exn := none

/-- A breaker is known by its address; between its reading and its writing nothing else runs.
`backOff` gets the attempt whose delay is computed and slept, `newContext` calls the type of
the context. -/
inductive Op (Data : Type) where
  | getTransaction (transactionId : String)
  | createTransaction (record : TransactionRecord)
  | updateTransaction (record : TransactionRecord) (expectedVersion : Int)
  | pushSagaStep (transactionId : String) (step : SagaStepRecord)
  | getSagaStack (transactionId : String)
  | popSagaStep (transactionId : String)
  | nowMs
  | backOff (attempt : Nat)
  | getBreaker (handlerName : String) (policy : CircuitBreakerPolicy)
  | readBreaker (breaker : Nat)
  | writeBreaker (breaker : Nat) (state : CircuitBreakerInstance)
  | findTransition (name : String)
  | findCompensate (name : String)
  | findEffect (name : String)
  | findHooks (hookType : HookType)
  | globalPolicy
  | newContext
  | serializeContext (context : Data)
  | deserializeContext (json : String)
  | serializeInput (input : Data)
  | parseSnapshot (json : String)
  | handler (handlerName : String) (request : TransitionRequest Data)
  | compensation (handlerName : String) (request : CompensationRequest Data)
  | effect (effectName : String) (request : EffectRequest Data)
  | hook (handlerName : String) (event : HookEvent)
  | record (event : BenchmarkEvent)
  | printHookError (hookType : HookType) (error : Exn)

abbrev Reply (Data : Type) : Op Data → Type
  | .getTransaction _ => Except Exn (Option TransactionRecord)
  | .createTransaction _ => Except Exn Unit
  | .updateTransaction _ _ => Except Exn Unit
  | .pushSagaStep _ _ => Except Exn Unit
  | .getSagaStack _ => Except Exn (List SagaStepRecord)
  | .popSagaStep _ => Except Exn (Option SagaStepRecord)
  | .nowMs => Int
  | .backOff _ => Except Exn Unit
  | .getBreaker _ _ => Nat
  | .readBreaker _ => CircuitBreakerInstance × Int
  | .writeBreaker _ _ => Unit
  | .findTransition _ => Option (Option PartialTransitionPolicy)
  | .findCompensate _ => Bool
  | .findEffect _ => Bool
  | .findHooks _ => List String
  | .globalPolicy => Option PartialTransitionPolicy
  | .newContext => Except Exn (Option Data)
  | .serializeContext _ => Except Exn String
  | .deserializeContext _ => Except Exn (Option Data)
  | .serializeInput _ => Except Exn String
  | .parseSnapshot _ => Except Exn (Option Data)
  | .handler _ _ => Except Exn (Returned Data)
  | .compensation _ _ => Except Exn Unit
  | .effect _ _ => Except Exn Unit
  | .hook _ _ => Except Exn Unit
  | .record _ => Except Exn Unit
  | .printHookError _ _ => Except Exn Unit

/-- How a call ends that does not return. `running` is a loop that goes on after as many
rounds as the model follows it. -/
inductive Stop where
  | raised (e : Exn)
  | running
  deriving DecidableEq

abbrev Act (Data α : Type) := Program (Reply Data) Stop α

namespace Act
variable {Data α : Type}

def ask (op : Op Data) : Act Data (Reply Data op) := Program.request op

def orRaise : Except Exn α → Act Data α
  | .ok a => pure a
  | .error e => .fail (.raised e)

end Act
end Dfsm.Python
