import Dfsm.Csharp.Statechart
import Dfsm.Lib.Program

/-! The policies and the records of the C# SDK, and what a call of its actor asks of the store,
the clock, the circuit breakers, the serializer and the functions that are registered. -/
namespace Dfsm.Csharp

structure CircuitBreakerPolicy where
  failureThreshold : Int := 5
  recoveryTimeoutMs : Int := 30000
  halfOpenSuccessThreshold : Int := 2
  deriving DecidableEq, Repr

structure OnFailPolicy where
  target : Option String := none
  compensate : Bool := false
  deriving DecidableEq, Repr

structure TransitionPolicy where
  maxAttempts : Int := 1
  circuitBreaker : Option CircuitBreakerPolicy := none
  onFail : Option OnFailPolicy := none
  compensateWith : Option String := none
  deriving DecidableEq, Repr

/-- `PolicyMerger.Merge`: the first layer that defines a part gives all of it. -/
def merge (layers : List (Option PartialTransitionPolicy)) : TransitionPolicy :=
  let layers := layers.filterMap id
  { maxAttempts := ((layers.find? (fun l => l.retryExplicitlyDefined = some true || l.retryMaxAttempts.isSome)).bind
      (·.retryMaxAttempts)).getD 1
    circuitBreaker := (layers.find? (fun l => l.cbExplicitlyDefined = some true || l.cbFailureThreshold.isSome)).map (fun l => {
      failureThreshold := l.cbFailureThreshold.getD 5
      recoveryTimeoutMs := l.cbRecoveryTimeoutMs.getD 30000
      halfOpenSuccessThreshold := l.cbHalfOpenSuccessThreshold.getD 2 })
    onFail := (layers.find? (fun l => l.onFailExplicitlyDefined = some true || l.onFailTarget.isSome || l.onFailCompensate.isSome)).map
      (fun l => { target := l.onFailTarget, compensate := l.onFailCompensate.getD false })
    compensateWith := layers.findSome? (·.compensateWith) }

inductive BreakerState where
  | Closed | Open | HalfOpen
  deriving DecidableEq, Repr

structure CircuitBreakerInstance where
  policy : CircuitBreakerPolicy
  state : BreakerState := .Closed
  consecutiveFailures : Int := 0
  consecutiveSuccesses : Int := 0
  openedAtMs : Int := 0
  deriving DecidableEq, Repr

namespace CircuitBreakerInstance

/-- The breaker, and the time to wait where it throws. -/
def beforeExecution (cb : CircuitBreakerInstance) (now : Int) : CircuitBreakerInstance × Option Int :=
  if cb.state = .Open then
    if cb.policy.recoveryTimeoutMs ≤ now - cb.openedAtMs then ({ cb with state := .HalfOpen, consecutiveSuccesses := 0 },none)
    else (cb,some (cb.policy.recoveryTimeoutMs - (now - cb.openedAtMs)))
  else (cb,none)

def onSuccess (cb : CircuitBreakerInstance) : CircuitBreakerInstance :=
  match cb.state with
  | .HalfOpen =>
    if cb.policy.halfOpenSuccessThreshold ≤ cb.consecutiveSuccesses + 1 then
      { cb with state := .Closed, consecutiveFailures := 0, consecutiveSuccesses := 0 }
    else { cb with consecutiveSuccesses := cb.consecutiveSuccesses + 1 }
  | .Closed => { cb with consecutiveFailures := 0 }
  | .Open => cb

def onFailure (cb : CircuitBreakerInstance) (now : Int) : CircuitBreakerInstance :=
  match cb.state with
  | .HalfOpen => { cb with state := .Open, openedAtMs := now, consecutiveFailures := cb.consecutiveFailures + 1 }
  | .Closed =>
    if cb.policy.failureThreshold ≤ cb.consecutiveFailures + 1 then
      { cb with consecutiveFailures := cb.consecutiveFailures + 1, state := .Open, openedAtMs := now }
    else { cb with consecutiveFailures := cb.consecutiveFailures + 1 }
  | .Open => cb

end CircuitBreakerInstance

/-- What is thrown. `InvalidTransitionException` is the second and the third, for its two
messages; `thrown` is whatever else, with its message. -/
inductive Exn where
  | maxEffectChainDepth (maxDepth : Int) (transactionId eventName : String)
  | alreadyTerminal (currentState : StateValue) (eventName transactionId : String) (status : TransactionStatus)
  | noTransition (currentState : StateValue) (eventName machineId : String)
  | circuitOpen (handlerName : String) (waitMs : Int)
  | transactionNotFound (transactionId : String)
  | staleTransactionVersion (transactionId : String) (expectedVersion actualVersion : Int)
  | keyNotFound (key : String)
  | unresolvedTarget (targetRef sourcePath machineId : String)
  | thrown (message : String)
  deriving DecidableEq

structure SagaStepRecord where
  stepId : String
  stepName : String
  compensateHandler : String
  fromState : StateValue
  targetState : StateValue
  inputSnapshotJson : Option String := none
  contextBeforeJson : Option String := none
  timestamp : Int
  deriving DecidableEq

structure TransactionRecord where
  transactionId : String
  machineId : String
  currentState : StateValue
  status : TransactionStatus := .IDLE
  contextJson : String := "{}"
  version : Int := 1
  createdAt : Int
  updatedAt : Int
  leaseExpiresAt : Option Int := none
  leaseOwner : Option String := none
  sagaStack : List SagaStepRecord := []
  deriving DecidableEq

structure TransitionRequest (Context Data : Type) where
  transactionId : String
  data : Context
  input : Option Data
  currentState : StateValue
  eventName : String

/-- What a handler gives back; a context where it has updated it. -/
structure HandlerOutput (Context Data : Type) where
  output : Option Data := none
  context : Option Context := none

structure CompensationRequest (Context Data : Type) where
  transactionId : String
  context : Context
  stepName : String
  inputSnapshot : Option Data
  fromState : StateValue
  targetState : StateValue

/-- With the payload that an effect of two parameters gets beside it. -/
structure EffectRequest (Context Data : Type) where
  transactionId : String
  context : Context
  eventName : String
  state : StateValue
  payload : Option Data := none

inductive HookType where
  | OnStart | BeforeTransition | AfterTransition | OnCompensate | OnComplete | OnTerminal
  deriving DecidableEq, Repr

inductive HookEvent (Context Data : Type) where
  | onStart (transactionId : String) (initialState : StateValue) (initialContext : Context)
  | beforeTransition (transactionId : String) (currentState : StateValue) (eventName : String) (input : Option Data)
  | afterTransition (transactionId eventName : String) (previousState currentState : StateValue) (status : TransactionStatus)
    (compensatedSteps : Nat)
  | onCompensate (transactionId stepName : String) (fromState targetState : StateValue) (stepsRemaining : Nat)
  | onComplete (transactionId : String) (finalState : StateValue) (finalContext : Context)
  | onTerminal (transactionId : String) (finalState : StateValue) (status : TransactionStatus) (finalContext : Context)

inductive BenchmarkOutcome where
  | SUCCESS | FAILED
  deriving DecidableEq, Repr

structure BenchmarkEvent where
  transactionId : String
  machineId : String
  eventName : String
  handlerName : String
  attempts : Nat
  outcome : BenchmarkOutcome
  durationMs : Int
  previousState : StateValue
  currentState : StateValue
  /-- whose message is recorded -/
  error : Option Exn := none

/-- What is logged of an exception that is swallowed. -/
inductive LogLine where
  | compensateError (transactionId stepName : String) (error : Exn)
  | hookError (hook : HookType) (error : Exn)

/-- Which method of a circuit breaker is entered. -/
inductive BreakerCall where
  | beforeExecution | onSuccess | onFailure
  deriving DecidableEq, Repr

/-- A breaker is known by its address; a call of it takes its lock, reads the clock, and leaves
it as the call has made it. `sleep` gets the attempt that the delay is for. -/
inductive Op (Context Data : Type) where
  | getTransaction (transactionId : String)
  | createTransaction (record : TransactionRecord)
  | updateTransaction (record : TransactionRecord) (expectedVersion : Int)
  | pushSagaStep (transactionId : String) (step : SagaStepRecord)
  | getSagaStack (transactionId : String)
  | popSagaStep (transactionId : String)
  | listActiveTransactions (machineId : String) (limit : Int)
  | deleteTransaction (transactionId : String)
  | nowMs
  | elapsedMilliseconds
  | newGuid
  | sleep (attempt : Nat)
  | getBreaker (handlerName : String) (policy : CircuitBreakerPolicy)
  | lockBreaker (breaker : Nat) (call : BreakerCall)
  | unlockBreaker (breaker : Nat) (state : CircuitBreakerInstance)
  | coerce (handlerName : String) (input : Data)
  | validate (input : Data) (targetDescription : String)
  | serializeContext (context : Context)
  | deserializeContext (json : String)
  | serializeInput (input : Data)
  | parseSnapshot (json : String)
  | handler (handlerName : String) (request : TransitionRequest Context Data)
  | compensation (handlerName : String) (request : CompensationRequest Context Data)
  | effect (effectName : String) (depth : Int) (request : EffectRequest Context Data)
  | hook (handlerName : String) (event : HookEvent Context Data)
  | record (event : BenchmarkEvent)
  | log (line : LogLine)

abbrev Reply (Context Data : Type) : Op Context Data → Type
  | .getTransaction _ => Except Exn (Option TransactionRecord)
  | .createTransaction _ => Except Exn Unit
  | .updateTransaction _ _ => Except Exn Unit
  | .pushSagaStep _ _ => Except Exn Unit
  | .getSagaStack _ => Except Exn (List SagaStepRecord)
  | .popSagaStep _ => Except Exn (Option SagaStepRecord)
  | .listActiveTransactions _ _ => Except Exn (List TransactionRecord)
  | .deleteTransaction _ => Except Exn Unit
  | .nowMs => Int
  | .elapsedMilliseconds => Int
  | .newGuid => String
  | .sleep _ => Except Exn Unit
  | .getBreaker _ _ => Nat
  | .lockBreaker _ _ => CircuitBreakerInstance × Int
  | .unlockBreaker _ _ => Unit
  | .coerce _ _ => Except Exn Data
  | .validate _ _ => Except Exn Unit
  | .serializeContext _ => Except Exn String
  | .deserializeContext _ => Except Exn Context
  | .serializeInput _ => Except Exn String
  | .parseSnapshot _ => Except Exn Data
  | .handler _ _ => Except Exn (HandlerOutput Context Data)
  | .compensation _ _ => Except Exn Unit
  | .effect _ _ _ => Except Exn Unit
  | .hook _ _ => Except Exn Unit
  | .record _ => Except Exn Unit
  | .log _ => Except Exn Unit

/-- How a call ends that does not return. `running` is a loop that goes on after as many
rounds as the model follows it. -/
inductive Stop where
  | thrown (e : Exn)
  | running
  deriving DecidableEq

abbrev Act (Context Data α : Type) := Program (Reply Context Data) Stop α

namespace Act
variable {Context Data α : Type}

def ask (op : Op Context Data) : Act Context Data (Reply Context Data op) := Program.request op

def orThrow : Except Exn α → Act Context Data α
  | .ok a => pure a
  | .error e => .fail (.thrown e)

end Act
end Dfsm.Csharp
