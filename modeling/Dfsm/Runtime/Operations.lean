import Dfsm.Runtime.Store
import Dfsm.Lib.Program

/-! What an actor asks of its surroundings, one request for each await point: the
store, the clock, user code run through the policy pipeline, hooks, effects, and the
counters the actors of one process keep in memory. -/
namespace Dfsm

def hexDigit (n : Nat) : Char := Nat.digitChar (n % 16)

/-- One character inside a JSON string. -/
def jsonChar (c : Char) : List Char :=
  match c.toNat with
  | 34 => ['\\',c]
  | 92 => ['\\',c]
  | 8 => ['\\','b']
  | 9 => ['\\','t']
  | 10 => ['\\','n']
  | 12 => ['\\','f']
  | 13 => ['\\','r']
  | n => if n < 32 then ['\\','u','0','0',hexDigit (n / 16),hexDigit n] else [c]

def jsonString (text : String) : String :=
  "\"" ++ String.ofList (text.toList.flatMap jsonChar) ++ "\""

mutual
/-- `JSON.stringify` of a state value. -/
def StateValue.stringify : StateValue → String
  | .str key => jsonString key
  | .obj entries => "\x7b" ++ String.intercalate "," (StateValue.stringifyEntries entries) ++ "\x7d"
def StateValue.stringifyEntries : List (String × StateValue) → List String
  | [] => []
  | (key,v)::rest => (jsonString key ++ ":" ++ v.stringify)::StateValue.stringifyEntries rest
end

inductive DfsmError where
  | transactionNotFound (transactionId : String)
  | invalidTransition (machineId event : String) (currentState : StateValue) (availableEvents : List String)
  | staleTransactionVersion (transactionId : String) (expectedVersion : Nat)
  | unregisteredHandler (machineId : String) (missingHandlers : List String)
  | maxEffectChainDepth (depth : Nat) (transactionId resolvedName : String)
  | actorStoppedByRecovery (actorId : String) (stuckTransactionIds : List String)
  | unresolvedTarget (targetRef sourceStatePath machineId : String)
  | validation (target : String) (details : List String)
  /-- A missing binding, or what user code or a driver throws. -/
  | thrown (message : String)

def DfsmError.message : DfsmError → String
  | .transactionNotFound transactionId => s!"Transaction '{transactionId}' does not exist in StateStore"
  | .invalidTransition machineId event currentState _ =>
    s!"Event '{event}' is not handled in current state {currentState.stringify} of machine '{machineId}'"
  | .staleTransactionVersion transactionId expectedVersion =>
    s!"Optimistic concurrency conflict on transaction '{transactionId}' (expected version {expectedVersion}). It may have been updated concurrently or force-cleaned."
  | .unregisteredHandler machineId missingHandlers =>
    s!"Machine '{machineId}' references unregistered handler(s) in FSMRegistry: " ++ String.intercalate ", " missingHandlers
  | .maxEffectChainDepth depth transactionId resolvedName =>
    s!"Effect / automatic transition chain exceeded maximum depth ({depth}) for transaction '{transactionId}' while invoking effect '{resolvedName}'"
  | .actorStoppedByRecovery actorId stuckTransactionIds =>
    s!"Actor '{actorId}' halted startup due to STOP recovery policy on stuck in-flight transaction(s): " ++
      String.intercalate ", " stuckTransactionIds
  | .unresolvedTarget targetRef sourceStatePath machineId =>
    s!"Cannot resolve target '{targetRef}' from state '{sourceStatePath}' in machine '{machineId}'"
  | .validation target details => s!"Validation failed for {target}: " ++ String.intercalate "; " details
  | .thrown message => message

structure EffectInvocation (Data : Type) where
  handler : String
  payload : Option Data := none

/-- What a handler may return. -/
structure TransitionOutput (Context Data : Type) where
  value : Option Data := none
  targetState : Option String := none
  effects : List (EffectInvocation Data) := []
  nextContext : Context

/-- `metadata`: the caller's, or that of a step replayed by recovery. -/
inductive Metadata (Data : Type) where
  | caller (fields : List (String × Data))
  | recoveredByActor (actorId : String)

structure PipelineExecutionContext (Context Data : Type) where
  transactionId : String
  machineId : String
  actorId : String
  event : String
  transitionHandlerName : Option String
  currentState : StateValue
  input : Option Data
  contextData : Context
  startedAt : Int
  metadata : Metadata Data

structure CompensationRequest (Context Data : Type) where
  transactionId : String
  machineId : String
  actorId : String
  stepSeq : Nat
  fromState : StateValue
  inputSnapshot : Data
  contextBefore : Context
  currentContext : Context
  failureError : String

/-- With the revision that its `runEffect` goes by. -/
structure EffectRequest (Context Data : Type) where
  transactionId : String
  machineId : String
  actorId : String
  state : StateValue
  context : Context
  payload : Option Data
  baselineRevision : Nat

inductive LogOutcome where
  | SUCCESS | COMPENSATED | FALLBACK | FAILED
  deriving DecidableEq, Repr

structure TransitionTelemetry where
  timestamp : Int
  transactionId : String
  machineId : String
  actorId : String
  event : String
  transitionHandler : Option String
  fromState : StateValue
  toState : StateValue
  attempts : Nat
  durationMs : Int
  outcome : LogOutcome
  error : Option String

inductive HookEvent (Context Data : Type) where
  | onStart (transactionId machineId actorId : String) (initialState : StateValue) (status : TransactionStatus)
      (context : Context)
  | beforeTransition (transactionId machineId actorId event : String) (input : Data) (currentState : StateValue)
      (context : Context)
  | afterTransition (transactionId machineId actorId event : String) (input : Data)
      (previousState currentState : StateValue) (status : TransactionStatus) (value : Option Data)
      (context : Context) (compensatedSteps : Nat) (durationMs : Int) (error : Option String)
  | onCompensate (transactionId machineId actorId : String) (stepSeq : Nat) (compensateHandler : String)
      (fromState : StateValue) (inputSnapshot : Data) (updatedContext : Context) (reason : String)
  | onComplete (transactionId machineId actorId : String) (finalState : StateValue) (context : Context)
  | onTerminal (transactionId machineId actorId : String) (finalState : StateValue) (status : TransactionStatus)
      (context : Context) (error : Option String)

inductive Op (Context Data : Type) where
  | now
  | randomUUID
  | createTransaction (record : TransactionRecord Context Data)
  | getTransaction (transactionId : String)
  | updateTransaction (transactionId : String) (expectedVersion : Nat) (patch : TransactionUpdatePatch Context Data)
      (appendCompensations : List (PendingCompensation Context Data))
  | getUncompensatedStack (transactionId : String)
  | markCompensationExecuted (transactionId : String) (stepSeq : Nat) (compensatedAt : Int)
  | queryTransactions (filter : TransactionQueryFilter) (nowTimestamp stuckThresholdMs : Int)
  | deleteTransactions (transactionIds : List String)
  | validateContext (context : Context)
  | validateInput (statePath event : String) (input : Data)
  /-- The pipeline of the binding of a matched transition: breaker, retries and the handler. -/
  | handler (key : String) (call : PipelineExecutionContext Context Data)
  /-- The pipeline of an automatic `$onDone` transition. -/
  | doneHandler (key : String) (call : PipelineExecutionContext Context Data)
  | compensate (resolvedName : String) (request : CompensationRequest Context Data)
  | effect (resolvedName : String) (request : EffectRequest Context Data)
  | hook (event : HookEvent Context Data)
  | recordTransition (telemetry : TransitionTelemetry)
  | logRecovery (actorId message : String) (state : StateValue)
  | bumpTransitionRevision (transactionId : String)
  | transitionRevision (transactionId : String)
  | dropTransitionRevision (transactionId : String)
  | effectChainDepth (transactionId : String)
  | setEffectChainDepth (transactionId : String) (depth : Option Nat)

@[reducible] def Reply (Context Data : Type) : Op Context Data → Type
  | .now => Int
  | .randomUUID => String
  | .createTransaction _ => Except DfsmError Unit
  | .getTransaction _ => Option (TransactionSnapshot Context Data)
  | .updateTransaction _ _ _ _ => Except DfsmError Nat
  | .getUncompensatedStack _ => List (CompensationEntryRecord Context Data)
  | .markCompensationExecuted _ _ _ => Unit
  | .queryTransactions _ _ _ => List (TransactionSummary Context Data)
  | .deleteTransactions _ => Nat
  | .validateContext _ => Except DfsmError Context
  | .validateInput _ _ _ => Except DfsmError Data
  | .handler _ _ => Except String (TransitionOutput Context Data) × Nat
  | .doneHandler _ _ => Except String (TransitionOutput Context Data) × Nat
  | .compensate _ _ => Except DfsmError (Option Context)
  | .effect _ _ => Except DfsmError Unit
  | .hook _ => Except DfsmError Unit
  | .recordTransition _ => Except DfsmError Unit
  | .logRecovery _ _ _ => Except DfsmError Unit
  | .bumpTransitionRevision _ => Unit
  | .transitionRevision _ => Nat
  | .dropTransitionRevision _ => Unit
  | .effectChainDepth _ => Option Nat
  | .setEffectChainDepth _ _ => Unit

abbrev Act (Context Data α : Type) : Type := Program (Reply Context Data) DfsmError α

variable {Context Data : Type}

namespace Act

abbrev ask (op : Op Context Data) : Act Context Data (Reply Context Data op) := Program.request op

abbrev orThrow {α : Type} (result : Except DfsmError α) : Act Context Data α := Program.ofExcept result

def now : Act Context Data Int := ask .now

def updateTransaction (transactionId : String) (expectedVersion : Nat) (patch : TransactionUpdatePatch Context Data)
    (appendCompensations : List (PendingCompensation Context Data) := []) : Act Context Data Nat := do
  orThrow (← ask (.updateTransaction transactionId expectedVersion patch appendCompensations))

def emit (event : HookEvent Context Data) : Act Context Data Unit := do
  orThrow (← ask (.hook event))

end Act

/-- What the store answers. Requests that are not for the store leave it alone and may
be answered in any way. -/
def Performs (store : Store Context Data) : (op : Op Context Data) → Reply Context Data op → Store Context Data → Prop
  | .createTransaction record, reply, after => match store.createTransaction record with
    | none => reply = .error (.thrown "UNIQUE constraint failed: dfsm_transactions.transaction_id") ∧ after = store
    | some next => reply = .ok () ∧ after = next
  | .getTransaction transactionId, reply, after => reply = store.getTransaction transactionId ∧ after = store
  | .updateTransaction transactionId expectedVersion patch appendCompensations, reply, after =>
    match store.updateTransaction transactionId expectedVersion patch appendCompensations with
    | none => reply = .error (.staleTransactionVersion transactionId expectedVersion) ∧ after = store
    | some (version,next) => reply = .ok version ∧ after = next
  | .getUncompensatedStack transactionId, reply, after =>
    reply = store.getUncompensatedStack transactionId ∧ after = store
  | .markCompensationExecuted transactionId stepSeq compensatedAt, _, after =>
    after = store.markCompensationExecuted transactionId stepSeq compensatedAt
  | .queryTransactions filter nowTimestamp stuckThresholdMs, reply, after =>
    reply = store.queryTransactions filter nowTimestamp stuckThresholdMs ∧ after = store
  | .deleteTransactions transactionIds, reply, after =>
    reply = (store.deleteTransactions transactionIds).1 ∧ after = (store.deleteTransactions transactionIds).2
  | _, _, after => after = store

/-- The store's answers, with those of everything else given. -/
def serve (user : (op : Op Context Data) → Reply Context Data op) (store : Store Context Data) :
    (op : Op Context Data) → Reply Context Data op × Store Context Data
  | .createTransaction record => match store.createTransaction record with
    | none => (.error (.thrown "UNIQUE constraint failed: dfsm_transactions.transaction_id"),store)
    | some next => (.ok (),next)
  | .getTransaction transactionId => (store.getTransaction transactionId,store)
  | .updateTransaction transactionId expectedVersion patch appendCompensations =>
    match store.updateTransaction transactionId expectedVersion patch appendCompensations with
    | none => (.error (.staleTransactionVersion transactionId expectedVersion),store)
    | some (version,next) => (.ok version,next)
  | .getUncompensatedStack transactionId => (store.getUncompensatedStack transactionId,store)
  | .markCompensationExecuted transactionId stepSeq compensatedAt =>
    ((),store.markCompensationExecuted transactionId stepSeq compensatedAt)
  | .queryTransactions filter nowTimestamp stuckThresholdMs =>
    (store.queryTransactions filter nowTimestamp stuckThresholdMs,store)
  | .deleteTransactions transactionIds => store.deleteTransactions transactionIds
  | op => (user op,store)

theorem servePerforms (user : (op : Op Context Data) → Reply Context Data op) (store : Store Context Data) (op : Op Context Data) :
    Performs store op (serve user store op).1 (serve user store op).2 := by
  cases op with
  | createTransaction record =>
    cases created : store.createTransaction record <;> simp [Performs,serve,created]
  | updateTransaction id version patch append =>
    cases updated : store.updateTransaction id version patch append <;> simp [Performs,serve,updated]
  | _ => first | exact ⟨rfl,rfl⟩ | exact rfl

/-- Surroundings in which everything succeeds. -/
def politeUser : (op : Op Context Data) → Reply Context Data op
  | .now => 0
  | .randomUUID => ""
  | .createTransaction _ => .ok ()
  | .getTransaction _ => none
  | .updateTransaction _ _ _ _ => .ok 0
  | .getUncompensatedStack _ => []
  | .markCompensationExecuted _ _ _ => ()
  | .queryTransactions _ _ _ => []
  | .deleteTransactions _ => 0
  | .validateContext context => .ok context
  | .validateInput _ _ input => .ok input
  | .handler _ call => (.ok { nextContext := call.contextData },1)
  | .doneHandler _ call => (.ok { nextContext := call.contextData },1)
  | .compensate _ _ => .ok none
  | .effect _ _ => .ok ()
  | .hook _ => .ok ()
  | .recordTransition _ => .ok ()
  | .logRecovery _ _ _ => .ok ()
  | .bumpTransitionRevision _ => ()
  | .transitionRevision _ => 0
  | .dropTransitionRevision _ => ()
  | .effectChainDepth _ => none
  | .setEffectChainDepth _ _ => ()

end Dfsm
