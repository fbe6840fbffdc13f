import Dfsm.Java.Store
import Dfsm.Stores.Records

/-! The MongoDB store of the Java SDK: a transaction and its compensation stack in one
document. -/
namespace Dfsm.Java

variable {Context Data : Type}

/-- `_id` is unique in a collection. -/
structure MongoStateStore (Context Data : Type) where
  documents : List (TransactionSnapshot Context Data)
  unique : (documents.map (·.transactionId)).Nodup

namespace MongoStateStore
variable (store : MongoStateStore Context Data)

/-- `find(eq("_id", transactionId)).first()` -/
def findOne (transactionId : String) : Option (TransactionSnapshot Context Data) :=
  store.documents.find? (·.transactionId = transactionId)

def createTransaction (record : TransactionRecord Context Data) : Except Throwable Unit × MongoStateStore Context Data :=
  if fresh : record.transactionId ∉ store.documents.map (·.transactionId) then
    (.ok (),{
      documents := store.documents ++ [{ record with compensationStack := [] }]
      unique := by
        rw [List.map_append,List.map_singleton]
        exact List.nodup_append.mpr ⟨store.unique,by simp,
          fun a ha b hb same => fresh (by rw [← List.mem_singleton.mp hb,← same]; exact ha)⟩ })
  else (.error (.thrown none),store)

/-- An update of the document with this id, which it keeps. -/
def withDocument (transactionId : String) (change : TransactionSnapshot Context Data → TransactionSnapshot Context Data)
    (same : ∀ doc, (change doc).transactionId = doc.transactionId) : MongoStateStore Context Data where
  documents := store.documents.map (fun doc => if doc.transactionId = transactionId then change doc else doc)
  unique := by
    rw [List.map_map]
    have ids : ((·.transactionId) ∘ fun doc : TransactionSnapshot Context Data =>
        if doc.transactionId = transactionId then change doc else doc) = (·.transactionId) := by
      funext doc
      simp only [Function.comp]
      split
      · exact same doc
      · rfl
    rw [ids]
    exact store.unique

/-- `$set` and `$push` -/
def pushOnto (patch : TransactionPatch Context Data) (toPush : List (CompensationEntryRecord Context Data))
    (doc : TransactionSnapshot Context Data) : TransactionSnapshot Context Data :=
  { patch.apply doc.toTransactionRecord with compensationStack := doc.compensationStack ++ toPush }

/-- `findOneAndUpdate(and(eq("_id", …), eq("version", …)), …)` -/
def findOneAndUpdate (transactionId : String) (expectedVersion : Nat) (patch : TransactionPatch Context Data)
    (toPush : List (CompensationEntryRecord Context Data)) : Except Throwable Nat × MongoStateStore Context Data :=
  match (store.findOne transactionId).filter (·.version = expectedVersion) with
  | none => (.error (.staleTransactionVersion transactionId expectedVersion),store)
  | some _ => (.ok (expectedVersion + 1),store.withDocument transactionId (pushOnto patch toPush) (fun _ => rfl))

/-- The entries to push, numbered on from those of the document as it is read. -/
def toPush (transactionId : String) (existing : TransactionSnapshot Context Data)
    (appendCompensations : List (NewCompensationEntry Context Data)) : List (CompensationEntryRecord Context Data) :=
  H2StateStore.numbered transactionId (H2StateStore.maxStepSeq existing.compensationStack + 1) appendCompensations

/-- With entries to append the document is read first. -/
def updateTransaction (transactionId : String) (expectedVersion : Nat) (patch : TransactionPatch Context Data)
    (appendCompensations : List (NewCompensationEntry Context Data)) : Except Throwable Nat × MongoStateStore Context Data :=
  if appendCompensations = [] then store.findOneAndUpdate transactionId expectedVersion patch []
  else match store.findOne transactionId with
    | none => (.error (.staleTransactionVersion transactionId expectedVersion),store)
    | some existing => store.findOneAndUpdate transactionId expectedVersion patch (toPush transactionId existing appendCompensations)

def getUncompensatedStack (transactionId : String) : List (CompensationEntryRecord Context Data) :=
  match store.findOne transactionId with
  | none => []
  | some doc => (doc.compensationStack.filter (·.compensatedAt.isNone)).insertionSort (fun a b => b.stepSeq ≤ a.stepSeq)

/-- `$` is the first entry that the query has matched. -/
def setFirst (stepSeq : Nat) (compensatedAt : Int) :
    List (CompensationEntryRecord Context Data) → List (CompensationEntryRecord Context Data)
  | [] => []
  | e::rest => if e.stepSeq = stepSeq then { e with compensatedAt := some compensatedAt }::rest else e::setFirst stepSeq compensatedAt rest

def markOnto (stepSeq : Nat) (compensatedAt : Int) (doc : TransactionSnapshot Context Data) : TransactionSnapshot Context Data :=
  { doc with compensationStack := setFirst stepSeq compensatedAt doc.compensationStack }

def markCompensationExecuted (transactionId : String) (stepSeq : Nat) (compensatedAt : Int) : MongoStateStore Context Data :=
  store.withDocument transactionId (markOnto stepSeq compensatedAt) (fun _ => rfl)

def deleteOne (meets : TransactionSnapshot Context Data → Bool) : MongoStateStore Context Data where
  documents := store.documents.filter (fun doc => !meets doc)
  unique := store.unique.sublist (List.filter_sublist.map _)

/-- A document that is there at another version is stale. -/
def deleteTransaction (transactionId : String) (expectedVersion : Nat) : Except Throwable Bool × MongoStateStore Context Data :=
  match store.findOne transactionId with
  | none => (.ok false,store)
  | some doc =>
    if doc.version = expectedVersion then (.ok true,store.deleteOne (·.transactionId = transactionId))
    else (.error (.staleTransactionVersion transactionId expectedVersion),store)

/-- `buildInFlightBson` -/
def inFlightBson (f : InFlightFilter) (nowEpochMs stuckThresholdMs : Int) (doc : TransactionRecord Context Data) : Bool :=
  (if f.includeCompensating then ([.IN_FLIGHT,.COMPENSATING] : List TransactionStatus).contains doc.status
    else doc.status = .IN_FLIGHT) &&
  f.machineId.all (doc.machineId = ·) && f.actorId.all (doc.actorId = ·) &&
  f.stateEquals.all (fun leaf => doc.stateValue = .str leaf) &&
  (!f.stuckOnly || decide (doc.updatedAt < nowEpochMs - stuckThresholdMs) ||
    (doc.leaseExpiresAt.isSome && doc.leaseExpiresAt.any (· ≤ nowEpochMs)))

/-- `buildStatusBson` -/
def statusBson (f : StatusQueryFilter) (doc : TransactionRecord Context Data) : Bool :=
  f.machineId.all (doc.machineId = ·) && f.actorId.all (doc.actorId = ·) &&
  (f.statuses.isEmpty || f.statuses.contains doc.status) && f.updatedBeforeEpochMs.all (doc.updatedAt ≤ ·)

/-- `toSummaries`, of one document -/
def summary (nowEpochMs stuckThresholdMs : Int) (doc : TransactionSnapshot Context Data) : TransactionSummary Context Data where
  transactionId := doc.transactionId
  machineId := doc.machineId
  actorId := doc.actorId
  stateValue := doc.stateValue
  status := doc.status
  context := doc.context
  isStuck := H2StateStore.isInFlight doc.status &&
    (decide (stuckThresholdMs < nowEpochMs - doc.updatedAt) || doc.leaseExpiresAt.any (· ≤ nowEpochMs))
  activeStep := doc.activeStep
  compensationDepth := (doc.compensationStack.filter (·.compensatedAt.isNone)).length
  version := doc.version
  createdAt := doc.createdAt
  updatedAt := doc.updatedAt

/-- The order of a collection by age; among documents of one age the database is free. -/
abbrev Oldest (Context Data : Type) : Type := Stores.ByAge (TransactionSnapshot Context Data) (·.updatedAt)

/-- `.sort(ascending("updatedAt")).skip(offset).limit(limit)` -/
def cursor (oldest : Oldest Context Data) (limit offset : Int) (docs : List (TransactionSnapshot Context Data)) :
    List (TransactionSnapshot Context Data) :=
  ((oldest.arrange docs).drop offset.toNat).take (if 0 < limit then limit.toNat else 200)

def listInFlight (oldest : Oldest Context Data) (f : InFlightFilter) (nowEpochMs stuckThresholdMs : Int) :
    List (TransactionSummary Context Data) :=
  (cursor oldest f.limit f.offset (store.documents.filter (fun doc =>
    inFlightBson f nowEpochMs stuckThresholdMs doc.toTransactionRecord))).map (summary nowEpochMs stuckThresholdMs)

def listByStatuses (oldest : Oldest Context Data) (f : StatusQueryFilter) (nowEpochMs stuckThresholdMs : Int) :
    List (TransactionSummary Context Data) :=
  (cursor oldest f.limit f.offset (store.documents.filter (fun doc => statusBson f doc.toTransactionRecord))).map
    (summary nowEpochMs stuckThresholdMs)

theorem inFlightWhere (f : InFlightFilter) (nowEpochMs stuckThresholdMs : Int) (doc : TransactionRecord Context Data) :
    inFlightBson f nowEpochMs stuckThresholdMs doc = H2StateStore.inFlightWhere f nowEpochMs stuckThresholdMs doc := by
  have statuses : ([.IN_FLIGHT,.COMPENSATING] : List TransactionStatus).contains doc.status = H2StateStore.isInFlight doc.status := by
    cases doc.status <;> decide
  have lease : (doc.leaseExpiresAt.isSome && doc.leaseExpiresAt.any (· ≤ nowEpochMs)) = doc.leaseExpiresAt.any (· ≤ nowEpochMs) := by
    cases doc.leaseExpiresAt <;> rfl
  unfold inFlightBson H2StateStore.inFlightWhere
  rw [statuses,lease]
  simp only [eq_comm (a := doc.machineId),eq_comm (a := doc.actorId)]

theorem statusWhere (f : StatusQueryFilter) (doc : TransactionRecord Context Data) :
    statusBson f doc = H2StateStore.statusWhere f doc := by
  unfold statusBson H2StateStore.statusWhere
  simp only [eq_comm (a := doc.machineId),eq_comm (a := doc.actorId)]

end MongoStateStore

/-- As `serve`, with the documents in place of the tables. -/
def serveMongo (oldest : MongoStateStore.Oldest Context Data) (user : Surroundings Context Data) (store : MongoStateStore Context Data) :
    (op : Op Context Data) → Reply Context Data op × MongoStateStore Context Data
  | .createTransaction record => store.createTransaction record
  | .getTransaction transactionId => (.ok (store.findOne transactionId),store)
  | .updateTransaction transactionId expectedVersion patch append => store.updateTransaction transactionId expectedVersion patch append
  | .getUncompensatedStack transactionId => (.ok (store.getUncompensatedStack transactionId),store)
  | .markCompensationExecuted transactionId stepSeq compensatedAt =>
    (.ok (),store.markCompensationExecuted transactionId stepSeq compensatedAt)
  | .deleteTransaction transactionId expectedVersion => store.deleteTransaction transactionId expectedVersion
  | .listInFlight f nowEpochMs stuckThresholdMs => (.ok (store.listInFlight oldest f nowEpochMs stuckThresholdMs),store)
  | .listByStatuses f nowEpochMs stuckThresholdMs => (.ok (store.listByStatuses oldest f nowEpochMs stuckThresholdMs),store)
  | .initialized => (true,store)
  | op => (user op,store)

end Dfsm.Java
