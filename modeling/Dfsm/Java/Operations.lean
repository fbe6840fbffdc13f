import Dfsm.Java.Statechart
import Dfsm.Lib.Program

/-! The records of the Java SDK, and what a call of its actor asks of the store, the clock,
user code, the codecs and the maps that the actor keeps in memory. -/
namespace Dfsm.Java

structure ActiveStepInfo (Data : Type) where
  event : String
  input : Option Data
  startedAt : Int

structure NewCompensationEntry (Context Data : Type) where
  transitionKey : String
  compensateKey : String
  fromState : StateValue
  inputSnapshot : Option Data
  contextBefore : Context
  createdAt : Int

structure CompensationEntryRecord (Context Data : Type) extends NewCompensationEntry Context Data where
  transactionId : String
  stepSeq : Nat
  compensatedAt : Option Int := none

structure TransactionRecord (Context Data : Type) where
  transactionId : String
  machineId : String
  machineVersion : String
  actorId : String
  stateValue : StateValue
  context : Context
  status : TransactionStatus
  activeStep : Option (ActiveStepInfo Data) := none
  lastError : Option String := none
  version : Nat
  leaseOwner : Option String := none
  leaseExpiresAt : Option Int := none
  createdAt : Int
  updatedAt : Int

structure TransactionSnapshot (Context Data : Type) extends TransactionRecord Context Data where
  compensationStack : List (CompensationEntryRecord Context Data)

structure TransactionSummary (Context Data : Type) where
  transactionId : String
  machineId : String
  actorId : String
  stateValue : StateValue
  status : TransactionStatus
  context : Context
  isStuck : Bool
  activeStep : Option (ActiveStepInfo Data)
  compensationDepth : Nat
  version : Nat
  createdAt : Int
  updatedAt : Int

/-- What its builder was not told to set keeps its column. -/
structure TransactionPatch (Context Data : Type) where
  stateValue : Option StateValue := none
  context : Option Context := none
  status : Option TransactionStatus := none
  activeStep : Option (Option (ActiveStepInfo Data)) := none
  lastError : Option (Option String) := none
  lease : Option (Option String × Option Int) := none
  updatedAt : Int

structure InFlightFilter where
  machineId : Option String
  actorId : Option String
  stuckOnly : Bool
  includeCompensating : Bool
  stateEquals : Option String
  limit : Int
  offset : Int

structure StatusQueryFilter where
  machineId : Option String
  actorId : Option String
  statuses : List TransactionStatus
  updatedBeforeEpochMs : Option Int
  limit : Int
  offset : Int

/-- `unresolvedTarget` is the engine's IllegalArgumentException; `thrown` is what user code, a
codec or a driver throws. -/
inductive Throwable where
  | transactionNotFound (transactionId : String)
  | invalidTransition (machineId event : String) (currentState : StateValue) (availableEvents : List String)
  | staleTransactionVersion (transactionId : String) (expectedVersion : Nat)
  | unregisteredHandler (machineId handlerKind handlerKey : String)
  | maxEffectChainDepth (transactionId : String) (maxDepth : Nat)
  | actorClosed (actorId : String)
  | unresolvedTarget (targetRef sourceStatePath machineId : String)
  | nullPointer
  | thrown (message : Option String)

structure EffectInvocation (Data : Type) where
  name : String
  payload : Option Data := none

structure TransitionOutput (Data : Type) where
  value : Option Data := none
  effects : List String := []
  targetState : Option String := none

/-- What an output and its validated context are to the rest of the chain. -/
structure Success (Context Data : Type) where
  output : TransitionOutput Data := {}
  nextContext : Context

structure ExecutionContext (Context Data : Type) where
  transactionId : String
  machineId : String
  actorId : String
  event : String
  transitionHandlerName : Option String
  currentState : StateValue
  input : Option Data
  contextData : Context
  startedAt : Int
  metadata : List (String × Data)

structure CompensationRequest (Context Data : Type) where
  transactionId : String
  machineId : String
  actorId : String
  stepSeq : Nat
  fromState : StateValue
  inputSnapshot : Option Data
  contextBefore : Context
  currentContext : Context
  failureError : Option String

structure EffectRequest (Context Data : Type) where
  transactionId : String
  machineId : String
  actorId : String
  state : StateValue
  context : Context
  handlerName : String
  payload : Option Data

inductive BenchmarkOutcome where
  | SUCCESS | COMPENSATED | FALLBACK | FAILED
  deriving DecidableEq, Repr

structure TransitionBenchmarkRecord where
  timestamp : Int
  transactionId : String
  machineId : String
  actorId : String
  event : String
  transitionHandler : Option String
  fromState : StateValue
  toState : StateValue
  attempts : Nat
  durationMs : Int
  outcome : BenchmarkOutcome
  error : Option String

inductive HookEvent (Context Data : Type) where
  | onStart (transactionId machineId actorId : String) (initialState : StateValue) (status : TransactionStatus) (context : Context)
  | beforeTransition (transactionId machineId actorId event : String) (input : Option Data) (currentState : StateValue)
      (context : Context)
  | afterTransition (transactionId machineId actorId event : String) (input : Option Data) (previousState currentState : StateValue)
      (status : TransactionStatus) (value : Option Data) (context : Context) (compensatedSteps : Nat) (durationMs : Int)
      (error : Option String)
  | onCompensate (transactionId machineId actorId : String) (stepSeq : Nat) (compensateHandler : String) (fromState : StateValue)
      (inputSnapshot : Option Data) (updatedContext : Context) (reason : Option String)
  | onComplete (transactionId machineId actorId : String) (finalState : StateValue) (context : Context)
  | onTerminal (transactionId machineId actorId : String) (finalState : StateValue) (status : TransactionStatus) (context : Context)
      (error : Option String)

/-- `handler` is the chain of the pipeline of a matched transition below its fallback
decorator (breaker, retries, the user's function and the context's validator), and
`doneHandler` that of an automatic transition. An emission goes to the subscribers in turn, up
to the first that throws. -/
inductive Op (Context Data : Type) where
  | initializeStore
  | createTransaction (record : TransactionRecord Context Data)
  | getTransaction (transactionId : String)
  | updateTransaction (transactionId : String) (expectedVersion : Nat) (patch : TransactionPatch Context Data)
      (appendCompensations : List (NewCompensationEntry Context Data))
  | getUncompensatedStack (transactionId : String)
  | markCompensationExecuted (transactionId : String) (stepSeq : Nat) (compensatedAt : Int)
  | deleteTransaction (transactionId : String) (expectedVersion : Nat)
  | listInFlight (filter : InFlightFilter) (nowEpochMs stuckThresholdMs : Int)
  | listByStatuses (filter : StatusQueryFilter) (nowEpochMs stuckThresholdMs : Int)
  | now
  | randomUUID
  | validateInput (statePath event : String) (rawInput : Option Data)
  | validateContext (context : Context)
  | handler (key : String) (call : ExecutionContext Context Data)
  | doneHandler (key : String) (call : ExecutionContext Context Data)
  | convertContext (contextBefore : Context)
  | compensate (resolvedName : String) (request : CompensationRequest Context Data)
  | effect (request : EffectRequest Context Data)
  | hook (event : HookEvent Context Data)
  | recordTransition (record : TransitionBenchmarkRecord)
  | bumpRevision (transactionId : String)
  | getRevision (transactionId : String)
  | removeRevision (transactionId : String)
  | effectChainDepth (transactionId : String)
  | setEffectChainDepth (transactionId : String) (depth : Option Nat)
  | closed
  | initialized
  | setInitialized
  | startScheduler

@[reducible] def Reply (Context Data : Type) : Op Context Data → Type
  | .initializeStore => Except Throwable Unit
  | .createTransaction _ => Except Throwable Unit
  | .getTransaction _ => Except Throwable (Option (TransactionSnapshot Context Data))
  | .updateTransaction _ _ _ _ => Except Throwable Nat
  | .getUncompensatedStack _ => Except Throwable (List (CompensationEntryRecord Context Data))
  | .markCompensationExecuted _ _ _ => Except Throwable Unit
  | .deleteTransaction _ _ => Except Throwable Bool
  | .listInFlight _ _ _ => Except Throwable (List (TransactionSummary Context Data))
  | .listByStatuses _ _ _ => Except Throwable (List (TransactionSummary Context Data))
  | .now => Int
  | .randomUUID => String
  | .validateInput _ _ _ => Except Throwable (Option Data)
  | .validateContext _ => Except Throwable Context
  | .handler _ _ => Except (Option String) (Success Context Data) × Nat
  | .doneHandler _ _ => Except (Option String) (Success Context Data) × Nat
  | .convertContext _ => Except Throwable Context
  | .compensate _ _ => Except Throwable (Option Context)
  | .effect _ => Except Throwable Unit
  | .hook _ => Except Throwable Unit
  | .recordTransition _ => Except Throwable Unit
  | .bumpRevision _ => Unit
  | .getRevision _ => Nat
  | .removeRevision _ => Unit
  | .effectChainDepth _ => Option Nat
  | .setEffectChainDepth _ _ => Unit
  | .closed => Bool
  | .initialized => Bool
  | .setInitialized => Unit
  | .startScheduler => Unit

abbrev Act (Context Data α : Type) : Type := Program (Reply Context Data) Throwable α

namespace Act
variable {Context Data α : Type}

abbrev ask (op : Op Context Data) : Act Context Data (Reply Context Data op) := Program.request op

abbrev orThrow (result : Except Throwable α) : Act Context Data α := Program.ofExcept result

def now : Act Context Data Int := ask .now

def getTransaction (transactionId : String) : Act Context Data (Option (TransactionSnapshot Context Data)) := do
  orThrow (← ask (.getTransaction transactionId))

def updateTransaction (transactionId : String) (expectedVersion : Nat) (patch : TransactionPatch Context Data)
    (appendCompensations : List (NewCompensationEntry Context Data) := []) : Act Context Data Nat := do
  orThrow (← ask (.updateTransaction transactionId expectedVersion patch appendCompensations))

def emit (event : HookEvent Context Data) : Act Context Data Unit := do
  orThrow (← ask (.hook event))

/-- `finally` -/
def thenFinally (body : Act Context Data α) (last : Act Context Data Unit) : Act Context Data α := do
  let result ← body.attempt
  last
  orThrow result

end Act
end Dfsm.Java
