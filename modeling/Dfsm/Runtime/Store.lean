import Dfsm.Engine.Statechart

/-! The SQL state store: transaction rows updated by compare-and-swap on their
version, and the rows of their compensation stacks. -/
namespace Dfsm

structure ActiveStepInfo (Data : Type) where
  event : String
  input : Data
  startedAt : Int

structure TransactionRecord (Context Data : Type) where
  transactionId : String
  machineId : String
  actorId : String
  stateValue : StateValue
  context : Context
  status : TransactionStatus
  activeStep : Option (ActiveStepInfo Data) := none
  lastError : Option String := none
  version : Nat
  leaseOwner : Option String := none
  leaseExpiresAt : Option Int := none
  createdAt : Int
  updatedAt : Int

/-- An entry as it is handed to the store, which numbers it. -/
structure PendingCompensation (Context Data : Type) where
  transitionKey : String
  compensateKey : String
  fromState : StateValue
  inputSnapshot : Data
  contextBefore : Context
  createdAt : Int

structure CompensationEntryRecord (Context Data : Type) extends PendingCompensation Context Data where
  transactionId : String
  stepSeq : Nat
  compensatedAt : Option Int := none

structure TransactionSnapshot (Context Data : Type) extends TransactionRecord Context Data where
  compensationStack : List (CompensationEntryRecord Context Data)

structure TransactionSummary (Context Data : Type) extends TransactionRecord Context Data where
  isStuck : Bool
  compensationDepth : Nat

/-- A field that is absent keeps its column. -/
structure TransactionUpdatePatch (Context Data : Type) where
  stateValue : Option StateValue := none
  context : Option Context := none
  status : Option TransactionStatus := none
  activeStep : Option (Option (ActiveStepInfo Data)) := none
  lastError : Option (Option String) := none
  leaseOwner : Option (Option String) := none
  leaseExpiresAt : Option (Option Int) := none
  updatedAt : Int

structure TransactionQueryFilter where
  machineId : Option String := none
  actorId : Option String := none
  transactionIds : List String := []
  statuses : List TransactionStatus := []
  stuckBeforeTimestamp : Option Int := none
  olderThanTimestamp : Option Int := none
  limit : Option Int := none

/-- Transaction ids are the primary key. -/
structure Store (Context Data : Type) where
  transactions : List (TransactionRecord Context Data)
  compensations : List (CompensationEntryRecord Context Data)
  unique : (transactions.map (·.transactionId)).Nodup

variable {Context Data : Type}

def TransactionUpdatePatch.apply (patch : TransactionUpdatePatch Context Data)
    (row : TransactionRecord Context Data) : TransactionRecord Context Data :=
  { row with
    stateValue := patch.stateValue.getD row.stateValue
    context := patch.context.getD row.context
    status := patch.status.getD row.status
    activeStep := patch.activeStep.getD row.activeStep
    lastError := patch.lastError.getD row.lastError
    version := row.version + 1
    leaseOwner := patch.leaseOwner.getD row.leaseOwner
    leaseExpiresAt := patch.leaseExpiresAt.getD row.leaseExpiresAt
    updatedAt := patch.updatedAt }

namespace Store

def row (store : Store Context Data) (transactionId : String) : Option (TransactionRecord Context Data) :=
  store.transactions.find? (·.transactionId = transactionId)

/-- The whole stack of a transaction, as the table holds it. -/
def entries (store : Store Context Data) (transactionId : String) : List (CompensationEntryRecord Context Data) :=
  store.compensations.filter (·.transactionId = transactionId)

/-- `ORDER BY step_seq DESC` -/
def lifo (entries : List (CompensationEntryRecord Context Data)) : List (CompensationEntryRecord Context Data) :=
  entries.insertionSort (fun a b => b.stepSeq ≤ a.stepSeq)

def getTransaction (store : Store Context Data) (transactionId : String) : Option (TransactionSnapshot Context Data) :=
  (store.row transactionId).map (fun row =>
    { row with compensationStack := lifo (store.entries transactionId) })

/-- None where the primary key is taken. -/
def createTransaction (store : Store Context Data) (record : TransactionRecord Context Data) :
    Option (Store Context Data) :=
  if fresh : record.transactionId ∉ store.transactions.map (·.transactionId) then
    some { store with
      transactions := store.transactions ++ [record]
      unique := by
        rw [List.map_append,List.map_singleton]
        exact List.nodup_append.mpr ⟨store.unique,by simp,
          fun a ha b hb same => fresh (by rw [← List.mem_singleton.mp hb,← same]; exact ha)⟩ }
  else none

def withRow (store : Store Context Data) (transactionId : String)
    (change : TransactionRecord Context Data → TransactionRecord Context Data)
    (same : ∀ row, (change row).transactionId = row.transactionId) : Store Context Data :=
  { store with
    transactions := store.transactions.map (fun row => if row.transactionId = transactionId then change row else row)
    unique := by
      rw [List.map_map]
      have ids : ((·.transactionId) ∘ fun row : TransactionRecord Context Data =>
          if row.transactionId = transactionId then change row else row) = (·.transactionId) := by
        funext row
        simp only [Function.comp]
        split
        · exact same row
        · rfl
      rw [ids]
      exact store.unique }

/-- `COALESCE(MAX(step_seq), 0)` -/
def maxSeq (entries : List (CompensationEntryRecord Context Data)) : Nat :=
  (entries.map (·.stepSeq)).foldr max 0

def numbered (transactionId : String) (nextSeq : Nat) :
    List (PendingCompensation Context Data) → List (CompensationEntryRecord Context Data)
  | [] => []
  | item::rest => { item with transactionId, stepSeq := nextSeq }::numbered transactionId (nextSeq+1) rest

/-- None where no row has the id at the expected version: the update is stale. -/
def updateTransaction (store : Store Context Data) (transactionId : String) (expectedVersion : Nat)
    (patch : TransactionUpdatePatch Context Data) (appendCompensations : List (PendingCompensation Context Data)) :
    Option (Nat × Store Context Data) :=
  match store.row transactionId with
  | none => none
  | some row =>
    if row.version = expectedVersion then
      some (expectedVersion + 1,
        { store.withRow transactionId patch.apply (fun _ => rfl) with
          compensations := store.compensations ++
            numbered transactionId (maxSeq (store.entries transactionId) + 1) appendCompensations })
    else none

def getUncompensatedStack (store : Store Context Data) (transactionId : String) :
    List (CompensationEntryRecord Context Data) :=
  lifo ((store.entries transactionId).filter (·.compensatedAt.isNone))

def markCompensationExecuted (store : Store Context Data) (transactionId : String) (stepSeq : Nat)
    (compensatedAt : Int) : Store Context Data :=
  { store with
    compensations := store.compensations.map (fun e =>
      if e.transactionId = transactionId ∧ e.stepSeq = stepSeq then { e with compensatedAt := some compensatedAt } else e) }

def matchesFilter (filter : TransactionQueryFilter) (row : TransactionRecord Context Data) : Bool :=
  (given filter.machineId).all (· = row.machineId) && (given filter.actorId).all (· = row.actorId) &&
  (filter.transactionIds.isEmpty || filter.transactionIds.contains row.transactionId) &&
  (filter.statuses.isEmpty || filter.statuses.contains row.status) &&
  filter.stuckBeforeTimestamp.all (row.updatedAt ≤ ·) && filter.olderThanTimestamp.all (row.updatedAt ≤ ·)

def summary (store : Store Context Data) (nowTimestamp stuckThresholdMs : Int)
    (row : TransactionRecord Context Data) : TransactionSummary Context Data :=
  { row with
    isStuck := (row.status = .IN_FLIGHT || row.status = .COMPENSATING) &&
      decide (stuckThresholdMs ≤ nowTimestamp - row.updatedAt)
    compensationDepth := ((store.entries row.transactionId).filter (·.compensatedAt.isNone)).length }

/-- `ORDER BY updated_at ASC`, then the limit -/
def queryTransactions (store : Store Context Data) (filter : TransactionQueryFilter)
    (nowTimestamp stuckThresholdMs : Int) : List (TransactionSummary Context Data) :=
  let found := (store.transactions.filter (matchesFilter filter)).insertionSort (fun a b => a.updatedAt ≤ b.updatedAt)
  let rows := match filter.limit with
    | none => found
    | some limit => found.take limit.toNat
  rows.map (store.summary nowTimestamp stuckThresholdMs)

/-- The stacks go with the rows (`ON DELETE CASCADE`). -/
def deleteTransactions (store : Store Context Data) (transactionIds : List String) : Nat × Store Context Data :=
  ((store.transactions.filter (fun row => transactionIds.contains row.transactionId)).length,
    { transactions := store.transactions.filter (fun row => !transactionIds.contains row.transactionId)
      compensations := store.compensations.filter (fun e => !transactionIds.contains e.transactionId)
      unique := store.unique.sublist (List.filter_sublist.map _) })

end Store

end Dfsm
