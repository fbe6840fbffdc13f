import Dfsm.Stores.Records

/-! The document store: a transaction with its compensation stack and the number of its
next entry in one document. -/
namespace Dfsm.Stores

variable {Value : Type}

structure MongoTransactionDocument (Value : Type) extends TransactionRecord Value where
  nextCompStepSeq : Int
  compensationStack : List (CompensationEntryRecord Value)

/-- What the database does: the value a field gives back for one that is written, if it
takes it; the stored states that meet a `stateValue` query, if it takes one; the order of
documents of one age. -/
structure MongoDriver (Value : Type) where
  bson : Value → Option Value
  meets : Value → Option (Value → Bool)
  byAge : ByAge (MongoTransactionDocument Value) (·.updatedAt)

/-- The collection. -/
abbrev Documents (Value : Type) : Type := List (MongoTransactionDocument Value)

namespace Documents
variable (driver : MongoDriver Value) (documents : Documents Value)

/-- `findOne({ _id })` -/
def findOne (transactionId : String) : Option (MongoTransactionDocument Value) := documents.find? (·.transactionId = transactionId)

def createTransaction (record : TransactionRecord Value) : Result Value × Documents Value :=
  match record.write driver.bson with
  | none => (.failed .rejected,documents)
  | some record =>
    if (documents.findOne record.transactionId).isSome then (.failed (.duplicateKey record.transactionId),documents)
    else (.done,documents ++ [{ record with nextCompStepSeq := 1, compensationStack := [] }])

def getTransaction (transactionId : String) : Result Value × Documents Value :=
  (.found ((documents.findOne transactionId).map (fun doc =>
    { doc.toTransactionRecord with compensationStack := lifo doc.compensationStack })),documents)

/-- `appendCompensations.map((c, idx) => ({ ..., stepSeq: baseSeq + idx }))` -/
def prepared (transactionId : String) (baseSeq : Int) : List (NewEntry Value) → Option (List (CompensationEntryRecord Value))
  | [] => some []
  | c::rest => do
    let entry ← c.write driver.bson
    let later ← prepared transactionId (baseSeq + 1) rest
    pure ({ entry with transactionId, stepSeq := baseSeq }::later)

/-- `updateOne({ _id, version }, { $set, $push })` -/
def updateOne (transactionId : String) (expectedVersion : Int)
    (change : MongoTransactionDocument Value → MongoTransactionDocument Value) : Documents Value :=
  documents.map (fun doc => if doc.transactionId = transactionId ∧ doc.version = expectedVersion then change doc else doc)

def matchesVersion (transactionId : String) (expectedVersion : Int) : Bool :=
  (documents.findOne transactionId).any (·.version = expectedVersion)

/-- With entries to append the document is read first, for the number of the first. -/
def updateTransaction (transactionId : String) (expectedVersion : Int) (patch : TransactionUpdatePatch Value)
    (appendCompensations : List (NewEntry Value)) : Result Value × Documents Value :=
  let nextVersion := expectedVersion + 1
  let stale : Result Value × Documents Value := (.failed (.staleTransactionVersion transactionId expectedVersion),documents)
  if appendCompensations.isEmpty then
    match patch.write driver.bson with
    | none => (.failed .rejected,documents)
    | some set =>
      if documents.matchesVersion transactionId expectedVersion then
        (.updated nextVersion,documents.updateOne transactionId expectedVersion (fun doc =>
          { doc with toTransactionRecord := set.apply nextVersion doc.toTransactionRecord }))
      else stale
  else match (documents.findOne transactionId).filter (·.version = expectedVersion) with
    | none => stale
    | some existing =>
      match patch.write driver.bson, prepared driver transactionId existing.nextCompStepSeq appendCompensations with
      | some set, some entries =>
        (.updated nextVersion,documents.updateOne transactionId expectedVersion (fun doc =>
          { doc with
            toTransactionRecord := set.apply nextVersion doc.toTransactionRecord
            nextCompStepSeq := existing.nextCompStepSeq + entries.length
            compensationStack := doc.compensationStack ++ entries }))
      | _, _ => (.failed .rejected,documents)

def getUncompensatedStack (transactionId : String) : Result Value × Documents Value :=
  (.stack (match documents.findOne transactionId with
    | none => []
    | some doc => lifo (doc.compensationStack.filter (·.compensatedAt.isNone))),documents)

/-- `$`: the first entry of the stack that the query has matched -/
def setFirst (stepSeq compensatedAt : Int) : List (CompensationEntryRecord Value) → List (CompensationEntryRecord Value)
  | [] => []
  | e::rest => if e.stepSeq = stepSeq then { e with compensatedAt := some compensatedAt }::rest else e::setFirst stepSeq compensatedAt rest

def markCompensationExecuted (transactionId : String) (stepSeq compensatedAt : Int) : Result Value × Documents Value :=
  (.done,documents.map (fun doc =>
    if doc.transactionId = transactionId then
      { doc with compensationStack := setFirst stepSeq compensatedAt doc.compensationStack } else doc))

/-- `maxUpdated` -/
def maxUpdated (filter : TransactionQueryFilter Value) : Option Int :=
  match filter.stuckBeforeTimestamp, filter.olderThanTimestamp with
  | some stuckBefore, some olderThan => some (min stuckBefore olderThan)
  | some stuckBefore, none => some stuckBefore
  | none, olderThan => olderThan

/-- The query, over a state that the database has taken. -/
def mongoFilter (filter : TransactionQueryFilter Value) (stateEquals : Option (Value → Bool)) (doc : MongoTransactionDocument Value) : Bool :=
  (given filter.machineId).all (doc.machineId = ·) && (given filter.actorId).all (doc.actorId = ·) &&
  ((filter.transactionIds.getD []).isEmpty || (filter.transactionIds.getD []).contains doc.transactionId) &&
  ((filter.statuses.getD []).isEmpty || (filter.statuses.getD []).contains doc.status) &&
  (maxUpdated filter).all (doc.updatedAt ≤ ·) && stateEquals.all (· doc.stateValue)

def countTransactions (filter : TransactionQueryFilter Value) : Result Value × Documents Value :=
  match writeOption driver.meets filter.stateEquals with
  | none => (.failed .rejected,documents)
  | some stateEquals => (.count (documents.filter (mongoFilter filter stateEquals)).length,documents)

/-- `skip` and `limit`; a limit of 0 is no limit -/
def cursor (limit offset : Option Int) (docs : Documents Value) : Documents Value :=
  let rest := docs.drop (offset.elim 0 Int.toNat)
  match limit with
  | none => rest
  | some limit => if limit.toNat = 0 then rest else rest.take limit.toNat

def queryTransactions (filter : TransactionQueryFilter Value) (nowTimestamp stuckThresholdMs : Int) : Result Value × Documents Value :=
  match writeOption driver.meets filter.stateEquals with
  | none => (.failed .rejected,documents)
  | some stateEquals =>
    let found := driver.byAge.arrange (documents.filter (mongoFilter filter stateEquals))
    (.rows ((cursor filter.limit filter.offset found).map (fun doc =>
      summarize doc.toTransactionRecord (doc.compensationStack.filter (·.compensatedAt.isNone)).length
        nowTimestamp stuckThresholdMs)),documents)

def deleteTransactions (transactionIds : List String) : Result Value × Documents Value :=
  if transactionIds.isEmpty then (.count 0,documents) else
  (.count (documents.filter (fun doc => transactionIds.contains doc.transactionId)).length,
    documents.filter (fun doc => !transactionIds.contains doc.transactionId))

def step : Op Value → Result Value × Documents Value
  | .createTransaction record => documents.createTransaction driver record
  | .getTransaction transactionId => documents.getTransaction transactionId
  | .updateTransaction transactionId expectedVersion patch appendCompensations =>
    documents.updateTransaction driver transactionId expectedVersion patch appendCompensations
  | .getUncompensatedStack transactionId => documents.getUncompensatedStack transactionId
  | .markCompensationExecuted transactionId stepSeq compensatedAt => documents.markCompensationExecuted transactionId stepSeq compensatedAt
  | .countTransactions filter => documents.countTransactions driver filter
  | .queryTransactions filter nowTimestamp stuckThresholdMs => documents.queryTransactions driver filter nowTimestamp stuckThresholdMs
  | .deleteTransactions transactionIds => documents.deleteTransactions transactionIds

end Documents

def MongoStateStore (driver : MongoDriver Value) : Machine (Op Value) (Result Value) where
  State := Documents Value
  init := []
  step documents op := documents.step driver op

end Dfsm.Stores
