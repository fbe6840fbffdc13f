import Dfsm.Go.Policy
import Dfsm.Go.Statechart
import Dfsm.Lib.Program

/-! The records of the Go SDK, and what a call of its actor asks of the store, the clock,
the circuit breakers and the functions that are registered. -/
namespace Dfsm.Go

/-- `InvalidTransitionError` is the second and the third, for its two messages. -/
inductive DfsmError where
  | maxEffectChainDepth (maxDepth : Int) (transactionId eventName : String)
  | alreadyTerminal (currentState : StateValue) (eventName transactionId : String) (status : TransactionStatus)
  | noTransition (currentState : StateValue) (eventName machineId : String)
  | circuitOpen (handlerName : String) (waitMs : Int)
  | transactionNotFound (transactionId : String)
  | staleTransactionVersion (transactionId : String) (expectedVersion actualVersion : Int)
  | validation (message : String)
  | store (message : String)
  deriving DecidableEq

/-- The value of a panic. -/
structure Panic where
  value : String
  deriving DecidableEq

structure SagaStepRecord where
  stepId : String
  stepName : String
  compensateHandler : String
  fromState : StateValue
  targetState : StateValue
  inputSnapshotJson : String := ""
  contextBeforeJson : String := ""
  timestamp : Int
  deriving DecidableEq

structure TransactionRecord where
  transactionId : String
  machineId : String
  currentState : StateValue
  status : TransactionStatus
  contextJson : String
  version : Int
  createdAt : Int
  updatedAt : Int
  leaseExpiresAt : Option Int := none
  leaseOwner : Option String := none
  sagaStack : List SagaStepRecord := []
  deriving DecidableEq

structure TransitionRequest (Context Data : Type) where
  transactionId : String
  data : Context
  input : Option Data
  currentState : StateValue
  eventName : String

/-- What a handler gives back; a context where it sets `ContextUpdated`. -/
structure HandlerOutput (Context Data : Type) where
  output : Option Data := none
  context : Option Context := none

structure CompensationRequest (Context Data : Type) where
  transactionId : String
  context : Context
  stepName : String
  inputSnapshot : Option Data
  fromState : StateValue
  targetState : StateValue

structure EffectRequest (Context : Type) where
  transactionId : String
  context : Context
  eventName : String
  state : StateValue

inductive HookType where
  | onStart | beforeTransition | afterTransition | onCompensate | onComplete | onTerminal
  deriving DecidableEq, Repr

inductive HookEvent (Context Data : Type) where
  | onStart (transactionId : String) (initialState : StateValue) (initialContext : Context)
  | beforeTransition (transactionId : String) (currentState : StateValue) (eventName : String) (input : Option Data)
  | afterTransition (transactionId eventName : String) (previousState currentState : StateValue) (status : TransactionStatus)
    (compensatedSteps : Nat)
  | onCompensate (transactionId stepName : String) (fromState targetState : StateValue) (stepsRemaining : Nat)
  | onComplete (transactionId : String) (finalState : StateValue) (finalContext : Context)
  | onTerminal (transactionId : String) (finalState : StateValue) (status : TransactionStatus) (finalContext : Context)

inductive BenchmarkOutcome where
  | SUCCESS | FAILED
  deriving DecidableEq, Repr

structure BenchmarkEvent where
  transactionId : String
  machineId : String
  eventName : String
  handlerName : String
  attempts : Int
  outcome : BenchmarkOutcome
  durationMs : Int
  previousState : StateValue
  currentState : StateValue
  errorMessage : String := ""

/-- Which method of a circuit breaker is entered. -/
inductive BreakerCall where
  | beforeExecution | onSuccess | onFailure
  deriving DecidableEq, Repr

/-- A breaker is known by its address; a call of it locks it, reads the clock, and leaves
it as the call has made it. `Sleep` gets the delay that the attempt has. -/
inductive Op (Context Data : Type) where
  | getTransaction (txId : String)
  | createTransaction (record : TransactionRecord)
  | updateTransaction (record : TransactionRecord) (expectedVersion : Int)
  | pushSagaStep (txId : String) (step : SagaStepRecord)
  | getSagaStack (txId : String)
  | popSagaStep (txId : String)
  | listActiveTransactions (machineId : String) (limit : Int)
  | deleteTransaction (txId : String)
  | nowMs
  | timeNow
  | sleep (attempt : Nat)
  | loadBreaker (handlerName : String) (policy : CircuitBreakerPolicy)
  | lockBreaker (breaker : Nat) (call : BreakerCall)
  | unlockBreaker (breaker : Nat) (state : CircuitBreakerInstance)
  | validate (input : Data) (targetDescription : String)
  | handler (handlerName : String) (request : TransitionRequest Context Data)
  | compensation (handlerName : String) (request : CompensationRequest Context Data)
  | effect (effectName : String) (depth : Int) (request : EffectRequest Context)
  | hook (handlerName : String) (event : HookEvent Context Data)
  | record (event : BenchmarkEvent)

/-- A registered function may panic; handlers and validators may also return an error. -/
abbrev Reply (Context Data : Type) : Op Context Data → Type
  | .getTransaction _ => Except DfsmError (Option TransactionRecord)
  | .createTransaction _ => Except DfsmError Unit
  | .updateTransaction _ _ => Except DfsmError Unit
  | .pushSagaStep _ _ => Except DfsmError Unit
  | .getSagaStack _ => Except DfsmError (List SagaStepRecord)
  | .popSagaStep _ => Except DfsmError (Option SagaStepRecord)
  | .listActiveTransactions _ _ => Except DfsmError (List TransactionRecord)
  | .deleteTransaction _ => Except DfsmError Unit
  | .nowMs => Int
  | .timeNow => Int
  | .sleep _ => Unit
  | .loadBreaker _ _ => Nat
  | .lockBreaker _ _ => CircuitBreakerInstance × Int
  | .unlockBreaker _ _ => Unit
  | .validate _ _ => Except Panic (Except String Unit)
  | .handler _ _ => Except Panic (Except String (HandlerOutput Context Data))
  | .compensation _ _ => Except Panic Unit
  | .effect _ _ _ => Except Panic (Except String Unit)
  | .hook _ _ => Except Panic Unit
  | .record _ => Except Panic Unit

/-- How a call ends that does not return a result. `running` is a loop that goes on after
as many rounds as the model follows it. -/
inductive Stop where
  | returned (e : DfsmError)
  | panicked (p : Panic)
  | running
  deriving DecidableEq

abbrev Act (Context Data α : Type) := Program (Reply Context Data) Stop α

namespace Act
variable {Context Data α : Type}

def ask (op : Op Context Data) : Act Context Data (Reply Context Data op) := Program.request op

def orReturn : Except DfsmError α → Act Context Data α
  | .ok a => pure a
  | .error e => .fail (.returned e)

def orPanic : Except Panic α → Act Context Data α
  | .ok a => pure a
  | .error p => .fail (.panicked p)

end Act
end Dfsm.Go
