import Dfsm.Rust.Statechart
import Dfsm.Lib.Program

/-! The records of the Rust SDK, and what a call of its actor asks of the store, the clock,
the circuit breakers and the functions that are registered. -/
namespace Dfsm.Rust

/-- `InvalidTransition` is the first and the second, for its two messages; the last two are
what handlers give back. -/
inductive DfsmError where
  | alreadyTerminal (state : StateValue) (event txId : String) (status : TransactionStatus)
  | noTransition (state : StateValue) (event machineId : String)
  | circuitOpen (handler : String) (waitMs : Int)
  | maxEffectChainDepthExceeded (maxDepth : Nat) (txId : String)
  | transactionNotFound (txId : String)
  | storeError (message : String)
  | validationError (target details : String)
  | executionFailed (message : String)
  deriving DecidableEq

structure SagaStepRecord where
  stepId : String
  stepName : String
  compensateHandler : String
  fromState : StateValue
  targetState : StateValue
  inputSnapshotJson : Option String := none
  contextBeforeJson : Option String := none
  timestamp : Int
  deriving DecidableEq

structure TransactionRecord where
  transactionId : String
  machineId : String
  currentState : StateValue
  status : TransactionStatus
  contextJson : String
  version : Int
  createdAt : Int
  updatedAt : Int
  leaseExpiresAt : Option Int := none
  leaseOwner : Option String := none
  sagaStack : List SagaStepRecord := []
  deriving DecidableEq

structure TransitionCall (Context Data : Type) where
  txId : String
  context : Context
  input : Option Data
  currentState : StateValue
  eventName : String

/-- A context that replaces the old one, and the output. -/
abbrev HandlerOutput (Data : Type) := Option Data × Option Data

structure CompensationRequest (Context Data : Type) where
  transactionId : String
  context : Context
  stepName : String
  inputSnapshot : Option Data
  fromState : StateValue
  targetState : StateValue

structure EffectRequest (Context : Type) where
  transactionId : String
  context : Context
  eventName : String
  state : StateValue

inductive HookType where
  | onStart | beforeTransition | afterTransition | onCompensate | onComplete | onTerminal
  deriving DecidableEq, Repr

inductive HookEvent where
  | onStart (transactionId : String) (initialState : StateValue)
  | beforeTransition (transactionId : String) (currentState : StateValue) (eventName : String)
  | afterTransition (transactionId eventName : String) (previousState currentState : StateValue) (status : TransactionStatus)
    (compensatedSteps : Nat)
  | onCompensate (transactionId stepName : String) (fromState targetState : StateValue) (stepsRemaining : Nat)
  | onComplete (transactionId : String) (finalState : StateValue)
  | onTerminal (transactionId : String) (finalState : StateValue) (status : TransactionStatus)

/-- `FAILED` with the error whose text is recorded. -/
inductive BenchmarkOutcome where
  | SUCCESS
  | FAILED (error : DfsmError)

structure BenchmarkEvent where
  transactionId : String
  machineId : String
  eventName : String
  handlerName : String
  attempts : Nat
  outcome : BenchmarkOutcome
  durationMs : Int
  previousState : StateValue
  currentState : StateValue

inductive CircuitState where
  | closed | opened | halfOpen
  deriving DecidableEq, Repr

structure CircuitBreakerInstance where
  policy : CircuitBreakerPolicy
  state : CircuitState := .closed
  consecutiveFailures : Nat := 0
  consecutiveSuccesses : Nat := 0
  openedAtMs : Int := 0
  deriving DecidableEq, Repr

namespace CircuitBreakerInstance

/-- The breaker, and the time to wait where it refuses the call. -/
def beforeExecution (cb : CircuitBreakerInstance) (now : Int) : CircuitBreakerInstance × Option Int :=
  if cb.state = .opened then
    if (cb.policy.recoveryTimeoutMs : Int) ≤ now - cb.openedAtMs then ({ cb with state := .halfOpen, consecutiveSuccesses := 0 },none)
    else (cb,some (cb.policy.recoveryTimeoutMs - (now - cb.openedAtMs)))
  else (cb,none)

def onSuccess (cb : CircuitBreakerInstance) : CircuitBreakerInstance :=
  match cb.state with
  | .halfOpen =>
    if cb.policy.halfOpenSuccessThreshold ≤ cb.consecutiveSuccesses + 1 then
      { cb with state := .closed, consecutiveFailures := 0, consecutiveSuccesses := 0 }
    else { cb with consecutiveSuccesses := cb.consecutiveSuccesses + 1 }
  | .closed => { cb with consecutiveFailures := 0 }
  | .opened => cb

def onFailure (cb : CircuitBreakerInstance) (now : Int) : CircuitBreakerInstance :=
  match cb.state with
  | .halfOpen => { cb with state := .opened, openedAtMs := now, consecutiveFailures := cb.consecutiveFailures + 1 }
  | .closed =>
    if cb.policy.failureThreshold ≤ cb.consecutiveFailures + 1 then
      { cb with consecutiveFailures := cb.consecutiveFailures + 1, state := .opened, openedAtMs := now }
    else { cb with consecutiveFailures := cb.consecutiveFailures + 1 }
  | .opened => cb

end CircuitBreakerInstance

/-- Which method of a circuit breaker is entered. -/
inductive BreakerCall where
  | beforeExecution | onSuccess | onFailure
  deriving DecidableEq, Repr

/-- A breaker is known by its `Arc`; a call of it locks it, reads the clock, and leaves it as
the call has made it. Registered functions are known by the names they are registered by. -/
inductive Op (Context Data : Type) where
  | getTransaction (txId : String)
  | createTransaction (record : TransactionRecord)
  | updateTransaction (record : TransactionRecord) (expectedVersion : Int)
  | pushSagaStep (txId : String) (step : SagaStepRecord)
  | getSagaStack (txId : String)
  | popSagaStep (txId : String)
  | listActiveTransactions (machineId : String) (limit : Nat)
  | deleteTransaction (txId : String)
  | nowMs
  | instantNow
  | sleep (attempt : Nat)
  | loadBreaker (handlerName : String) (policy : CircuitBreakerPolicy)
  | lockBreaker (breaker : Nat) (call : BreakerCall)
  | unlockBreaker (breaker : Nat) (state : CircuitBreakerInstance)
  | handler (name : String) (call : TransitionCall Context Data)
  | compensation (name : String) (request : CompensationRequest Context Data)
  | effect (name : String) (depth : Nat) (request : EffectRequest Context)
  | hook (name : String) (event : HookEvent)
  | record (event : BenchmarkEvent)

abbrev Reply (Context Data : Type) : Op Context Data → Type
  | .getTransaction _ => Except DfsmError (Option TransactionRecord)
  | .createTransaction _ => Except DfsmError Unit
  | .updateTransaction _ _ => Except DfsmError Unit
  | .pushSagaStep _ _ => Except DfsmError Unit
  | .getSagaStack _ => Except DfsmError (List SagaStepRecord)
  | .popSagaStep _ => Except DfsmError (Option SagaStepRecord)
  | .listActiveTransactions _ _ => Except DfsmError (List TransactionRecord)
  | .deleteTransaction _ => Except DfsmError Unit
  | .nowMs => Int
  | .instantNow => Int
  | .sleep _ => Unit
  | .loadBreaker _ _ => Nat
  | .lockBreaker _ _ => CircuitBreakerInstance × Int
  | .unlockBreaker _ _ => Unit
  | .handler _ _ => Except DfsmError (HandlerOutput Data)
  | .compensation _ _ => Unit
  | .effect _ _ _ => Except DfsmError Unit
  | .hook _ _ => Unit
  | .record _ => Unit

/-- How a call ends that does not return a result. `running` is a loop that goes on after
as many rounds as the model follows it. -/
inductive Stop where
  | returned (e : DfsmError)
  | running
  deriving DecidableEq

abbrev Act (Context Data α : Type) := Program (Reply Context Data) Stop α

namespace Act
variable {Context Data α : Type}

def ask (op : Op Context Data) : Act Context Data (Reply Context Data op) := Program.request op

/-- The operator `?`. -/
def orReturn : Except DfsmError α → Act Context Data α
  | .ok a => pure a
  | .error e => .fail (.returned e)

end Act
end Dfsm.Rust
