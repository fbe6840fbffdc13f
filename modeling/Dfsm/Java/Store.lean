import Dfsm.Java.Recovery
import Dfsm.Lib.Pool
import Mathlib.Data.List.Sort

/-! The H2 store of the Java SDK: rows updated and deleted by compare-and-swap on their
version, the rows of their compensation stacks, and the two listings. -/
namespace Dfsm.Java

variable {Context Data : Type}

def TransactionPatch.apply (patch : TransactionPatch Context Data) (row : TransactionRecord Context Data) :
    TransactionRecord Context Data :=
  { row with
    stateValue := patch.stateValue.getD row.stateValue
    context := patch.context.getD row.context
    status := patch.status.getD row.status
    activeStep := patch.activeStep.getD row.activeStep
    lastError := patch.lastError.getD row.lastError
    version := row.version + 1
    leaseOwner := (patch.lease.map (·.1)).getD row.leaseOwner
    leaseExpiresAt := (patch.lease.map (·.2)).getD row.leaseExpiresAt
    updatedAt := patch.updatedAt }

/-- Transaction ids are the primary key. -/
structure H2StateStore (Context Data : Type) where
  transactions : List (TransactionRecord Context Data)
  compensations : List (CompensationEntryRecord Context Data)
  unique : (transactions.map (·.transactionId)).Nodup

namespace H2StateStore
variable (store : H2StateStore Context Data)

def row (transactionId : String) : Option (TransactionRecord Context Data) :=
  store.transactions.find? (·.transactionId = transactionId)

def entries (transactionId : String) : List (CompensationEntryRecord Context Data) :=
  store.compensations.filter (·.transactionId = transactionId)

/-- `ORDER BY step_seq ASC` -/
def ascending (entries : List (CompensationEntryRecord Context Data)) : List (CompensationEntryRecord Context Data) :=
  entries.insertionSort (fun a b => a.stepSeq ≤ b.stepSeq)

def createTransaction (record : TransactionRecord Context Data) : Except Throwable Unit × H2StateStore Context Data :=
  if fresh : record.transactionId ∉ store.transactions.map (·.transactionId) then
    (.ok (),{ store with
      transactions := store.transactions ++ [record]
      unique := by
        rw [List.map_append,List.map_singleton]
        exact List.nodup_append.mpr ⟨store.unique,by simp,
          fun a ha b hb same => fresh (by rw [← List.mem_singleton.mp hb,← same]; exact ha)⟩ })
  else (.error (.thrown (some s!"Failed to create transaction '{record.transactionId}'")),store)

def getTransaction (transactionId : String) : Option (TransactionSnapshot Context Data) :=
  (store.row transactionId).map (fun row => { row with compensationStack := ascending (store.entries transactionId) })

def withRow (transactionId : String) (change : TransactionRecord Context Data → TransactionRecord Context Data)
    (same : ∀ row, (change row).transactionId = row.transactionId) : H2StateStore Context Data :=
  { store with
    transactions := store.transactions.map (fun row => if row.transactionId = transactionId then change row else row)
    unique := by
      rw [List.map_map]
      have ids : ((·.transactionId) ∘ fun row : TransactionRecord Context Data =>
          if row.transactionId = transactionId then change row else row) = (·.transactionId) := by
        funext row
        simp only [Function.comp]
        split
        · exact same row
        · rfl
      rw [ids]
      exact store.unique }

/-- `queryMaxStepSeq` -/
def maxStepSeq (entries : List (CompensationEntryRecord Context Data)) : Nat := (entries.map (·.stepSeq)).foldr max 0

def numbered (transactionId : String) (nextSeq : Nat) :
    List (NewCompensationEntry Context Data) → List (CompensationEntryRecord Context Data)
  | [] => []
  | c::rest => { c with transactionId, stepSeq := nextSeq }::numbered transactionId (nextSeq+1) rest

/-- `WHERE transaction_id = ? AND version = ?`, and the entries in the same database transaction. -/
def updateTransaction (transactionId : String) (expectedVersion : Nat) (patch : TransactionPatch Context Data)
    (appendCompensations : List (NewCompensationEntry Context Data)) : Except Throwable Nat × H2StateStore Context Data :=
  match (store.row transactionId).filter (·.version = expectedVersion) with
  | none => (.error (.staleTransactionVersion transactionId expectedVersion),store)
  | some _ => (.ok (expectedVersion + 1),{ store.withRow transactionId patch.apply (fun _ => rfl) with
      compensations := store.compensations ++
        numbered transactionId (maxStepSeq (store.entries transactionId) + 1) appendCompensations })

/-- `compensated_at IS NULL ORDER BY step_seq DESC` -/
def getUncompensatedStack (transactionId : String) : List (CompensationEntryRecord Context Data) :=
  ((store.entries transactionId).filter (·.compensatedAt.isNone)).insertionSort (fun a b => b.stepSeq ≤ a.stepSeq)

def markCompensationExecuted (transactionId : String) (stepSeq : Nat) (compensatedAt : Int) : H2StateStore Context Data :=
  { store with
    compensations := store.compensations.map (fun e =>
      if e.transactionId = transactionId ∧ e.stepSeq = stepSeq then { e with compensatedAt := some compensatedAt } else e) }

/-- The stack goes with the row (`ON DELETE CASCADE`); a row at another version is stale. -/
def deleteTransaction (transactionId : String) (expectedVersion : Nat) : Except Throwable Bool × H2StateStore Context Data :=
  match store.row transactionId with
  | none => (.ok false,store)
  | some row =>
    if row.version = expectedVersion then
      (.ok true,{
        transactions := store.transactions.filter (fun row => row.transactionId != transactionId)
        compensations := store.compensations.filter (fun e => e.transactionId != transactionId)
        unique := store.unique.sublist (List.filter_sublist.map _) })
    else (.error (.staleTransactionVersion transactionId expectedVersion),store)

def isInFlight (status : TransactionStatus) : Bool := status = .IN_FLIGHT || status = .COMPENSATING

/-- `buildInFlightWhere` -/
def inFlightWhere (f : InFlightFilter) (nowEpochMs stuckThresholdMs : Int) (row : TransactionRecord Context Data) : Bool :=
  (if f.includeCompensating then isInFlight row.status else row.status = .IN_FLIGHT) &&
  f.machineId.all (· = row.machineId) && f.actorId.all (· = row.actorId) &&
  f.stateEquals.all (fun leaf => row.stateValue = .str leaf) &&
  (!f.stuckOnly || decide (row.updatedAt < nowEpochMs - stuckThresholdMs) || row.leaseExpiresAt.any (· ≤ nowEpochMs))

/-- `buildStatusWhere` -/
def statusWhere (f : StatusQueryFilter) (row : TransactionRecord Context Data) : Bool :=
  f.machineId.all (· = row.machineId) && f.actorId.all (· = row.actorId) &&
  (f.statuses.isEmpty || f.statuses.contains row.status) && f.updatedBeforeEpochMs.all (row.updatedAt ≤ ·)

def summary (nowEpochMs stuckThresholdMs : Int) (row : TransactionRecord Context Data) : TransactionSummary Context Data where
  transactionId := row.transactionId
  machineId := row.machineId
  actorId := row.actorId
  stateValue := row.stateValue
  status := row.status
  context := row.context
  isStuck := isInFlight row.status &&
    (decide (stuckThresholdMs < nowEpochMs - row.updatedAt) || row.leaseExpiresAt.any (· ≤ nowEpochMs))
  activeStep := row.activeStep
  compensationDepth := ((store.entries row.transactionId).filter (·.compensatedAt.isNone)).length
  version := row.version
  createdAt := row.createdAt
  updatedAt := row.updatedAt

/-- `ORDER BY t.updated_at ASC LIMIT … OFFSET …` -/
def page (limit offset : Int) (rows : List (TransactionRecord Context Data)) : List (TransactionRecord Context Data) :=
  ((rows.insertionSort (fun a b => a.updatedAt ≤ b.updatedAt)).drop offset.toNat).take (if 0 < limit then limit.toNat else 200)

def listInFlight (f : InFlightFilter) (nowEpochMs stuckThresholdMs : Int) : List (TransactionSummary Context Data) :=
  (page f.limit f.offset (store.transactions.filter (inFlightWhere f nowEpochMs stuckThresholdMs))).map
    (store.summary nowEpochMs stuckThresholdMs)

def listByStatuses (f : StatusQueryFilter) (nowEpochMs stuckThresholdMs : Int) : List (TransactionSummary Context Data) :=
  (page f.limit f.offset (store.transactions.filter (statusWhere f))).map (store.summary nowEpochMs stuckThresholdMs)

end H2StateStore

/-- The store answers. The actors have been initialized: an initialization is a call of its
own. Everything else may be answered in any way. -/
def Performs (store : H2StateStore Context Data) : (op : Op Context Data) → Reply Context Data op → H2StateStore Context Data → Prop
  | .createTransaction record, r, after => (r,after) = store.createTransaction record
  | .getTransaction transactionId, r, after => r = .ok (store.getTransaction transactionId) ∧ after = store
  | .updateTransaction transactionId expectedVersion patch append, r, after =>
    (r,after) = store.updateTransaction transactionId expectedVersion patch append
  | .getUncompensatedStack transactionId, r, after => r = .ok (store.getUncompensatedStack transactionId) ∧ after = store
  | .markCompensationExecuted transactionId stepSeq compensatedAt, r, after =>
    r = .ok () ∧ after = store.markCompensationExecuted transactionId stepSeq compensatedAt
  | .deleteTransaction transactionId expectedVersion, r, after => (r,after) = store.deleteTransaction transactionId expectedVersion
  | .listInFlight f nowEpochMs stuckThresholdMs, r, after => r = .ok (store.listInFlight f nowEpochMs stuckThresholdMs) ∧ after = store
  | .listByStatuses f nowEpochMs stuckThresholdMs, r, after =>
    r = .ok (store.listByStatuses f nowEpochMs stuckThresholdMs) ∧ after = store
  | .initialized, r, after => r = true ∧ after = store
  | _, _, after => after = store

/-- User code, the codecs, the clock and the maps in memory, one answer for each request. -/
abbrev Surroundings (Context Data : Type) := (op : Op Context Data) → Reply Context Data op

def serve (user : Surroundings Context Data) (store : H2StateStore Context Data) :
    (op : Op Context Data) → Reply Context Data op × H2StateStore Context Data
  | .createTransaction record => store.createTransaction record
  | .getTransaction transactionId => (.ok (store.getTransaction transactionId),store)
  | .updateTransaction transactionId expectedVersion patch append => store.updateTransaction transactionId expectedVersion patch append
  | .getUncompensatedStack transactionId => (.ok (store.getUncompensatedStack transactionId),store)
  | .markCompensationExecuted transactionId stepSeq compensatedAt =>
    (.ok (),store.markCompensationExecuted transactionId stepSeq compensatedAt)
  | .deleteTransaction transactionId expectedVersion => store.deleteTransaction transactionId expectedVersion
  | .listInFlight f nowEpochMs stuckThresholdMs => (.ok (store.listInFlight f nowEpochMs stuckThresholdMs),store)
  | .listByStatuses f nowEpochMs stuckThresholdMs => (.ok (store.listByStatuses f nowEpochMs stuckThresholdMs),store)
  | .initialized => (true,store)
  | op => (user op,store)

/-- Surroundings in which everything succeeds. -/
def politeUser : Surroundings Context Data
  | .now => 0
  | .randomUUID => ""
  | .initializeStore => .ok ()
  | .createTransaction _ => .ok ()
  | .getTransaction _ => .ok none
  | .updateTransaction _ _ _ _ => .ok 0
  | .getUncompensatedStack _ => .ok []
  | .markCompensationExecuted _ _ _ => .ok ()
  | .deleteTransaction _ _ => .ok false
  | .listInFlight _ _ _ => .ok []
  | .listByStatuses _ _ _ => .ok []
  | .validateInput _ _ rawInput => .ok rawInput
  | .validateContext context => .ok context
  | .handler _ call => (.ok { nextContext := call.contextData },1)
  | .doneHandler _ call => (.ok { nextContext := call.contextData },1)
  | .convertContext contextBefore => .ok contextBefore
  | .compensate _ _ => .ok none
  | .effect _ => .ok ()
  | .hook _ => .ok ()
  | .recordTransition _ => .ok ()
  | .bumpRevision _ => ()
  | .getRevision _ => 0
  | .removeRevision _ => ()
  | .effectChainDepth _ => none
  | .setEffectChainDepth _ _ => ()
  | .closed => false
  | .initialized => true
  | .setInitialized => ()
  | .startScheduler => ()

end Dfsm.Java
