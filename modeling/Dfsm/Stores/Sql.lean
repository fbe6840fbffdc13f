import Dfsm.Stores.Records

/-! The relational stores: one table of transactions, one of compensation entries, and the
statements both databases are sent. -/
namespace Dfsm.Stores

variable {Value Column : Type}

/-- What sets a database apart: how it holds JSON values and which it refuses, which text
it refuses, which paging clauses it parses, and the order it lists rows of one age in. -/
structure Dialect (Value Column : Type) where
  write : Value → Option Column
  read : Column → Value
  text : String → Bool
  paging : Option Int → Option Int → Bool
  byAge : ByAge (TransactionRecord Column) (·.updatedAt)

structure Tables (Column : Type) where
  transactions : List (TransactionRecord Column) := []
  compensations : List (CompensationEntryRecord Column) := []

def TransactionRecord.texts (record : TransactionRecord Value) : List String :=
  [record.transactionId,record.machineId,record.machineVersion,record.actorId] ++ record.lastError.toList ++ record.leaseOwner.toList

def TransactionUpdatePatch.texts (patch : TransactionUpdatePatch Value) : List String :=
  (patch.lastError.bind id).toList ++ (patch.leaseOwner.bind id).toList

def NewEntry.texts (entry : NewEntry Value) : List String := [entry.transitionKey,entry.compensateKey]

def TransactionQueryFilter.texts (filter : TransactionQueryFilter Value) : List String :=
  (given filter.machineId).toList ++ (given filter.actorId).toList ++ filter.transactionIds.getD []

/-- Parameters are bound before a statement runs. -/
def Dialect.bind {α : Type} (dialect : Dialect Value Column) (texts : List String) (param : Option α) : Option α :=
  if texts.all dialect.text then param else none

namespace Tables
variable (dialect : Dialect Value Column) (tables : Tables Column)

/-- `WHERE transaction_id = ?` -/
def row (transactionId : String) : Option (TransactionRecord Column) :=
  tables.transactions.find? (·.transactionId = transactionId)

def entries (transactionId : String) : List (CompensationEntryRecord Column) :=
  tables.compensations.filter (·.transactionId = transactionId)

def createTransaction (record : TransactionRecord Value) : Result Value × Tables Column :=
  match dialect.bind record.texts (record.write dialect.write) with
  | none => (.failed .rejected,tables)
  | some row =>
    if (tables.row record.transactionId).isSome then (.failed (.duplicateKey record.transactionId),tables)
    else (.done,{ tables with transactions := tables.transactions ++ [row] })

def getTransaction (transactionId : String) : Result Value × Tables Column :=
  match dialect.bind [transactionId] (some transactionId) with
  | none => (.failed .rejected,tables)
  | some id => (.found ((tables.row id).map (fun row =>
      { row.read dialect.read with
        compensationStack := (lifo (tables.entries id)).map (·.read dialect.read) })),tables)

/-- `COALESCE(MAX(step_seq), 0)` -/
def maxSeq (entries : List (CompensationEntryRecord Column)) : Int := (entries.map (·.stepSeq)).foldr max 0

/-- The inserts of an update, with the number each entry gets; the transaction is rolled
back where one is refused. -/
def insertAll (transactionId : String) (nextSeq : Int) : List (NewEntry Value) → Option (List (CompensationEntryRecord Column))
  | [] => some []
  | item::rest => do
    let row ← dialect.bind item.texts (item.write dialect.write)
    let later ← insertAll transactionId (nextSeq + 1) rest
    pure ({ row with transactionId, stepSeq := nextSeq }::later)

def updateTransaction (transactionId : String) (expectedVersion : Int) (patch : TransactionUpdatePatch Value)
    (appendCompensations : List (NewEntry Value)) : Result Value × Tables Column :=
  let nextVersion := expectedVersion + 1
  match dialect.bind (transactionId::patch.texts) (patch.write dialect.write) with
  | none => (.failed .rejected,tables)
  | some set =>
    if (tables.row transactionId).any (·.version = expectedVersion) then
      match insertAll dialect transactionId (maxSeq (tables.entries transactionId) + 1) appendCompensations with
      | none => (.failed .rejected,tables)
      | some inserted => (.updated nextVersion,
          { transactions := tables.transactions.map (fun row =>
              if row.transactionId = transactionId ∧ row.version = expectedVersion then set.apply nextVersion row else row)
            compensations := tables.compensations ++ inserted })
    else (.failed (.staleTransactionVersion transactionId expectedVersion),tables)

def getUncompensatedStack (transactionId : String) : Result Value × Tables Column :=
  match dialect.bind [transactionId] (some transactionId) with
  | none => (.failed .rejected,tables)
  | some id => (.stack ((lifo ((tables.entries id).filter (·.compensatedAt.isNone))).map (·.read dialect.read)),tables)

def markCompensationExecuted (transactionId : String) (stepSeq compensatedAt : Int) : Result Value × Tables Column :=
  match dialect.bind [transactionId] (some transactionId) with
  | none => (.failed .rejected,tables)
  | some id => (.done,{ tables with
      compensations := tables.compensations.map (fun e =>
        if e.transactionId = id ∧ e.stepSeq = stepSeq then { e with compensatedAt := some compensatedAt } else e) })

/-- The clauses, over a state that has been bound. -/
def whereClause [DecidableEq Column] (filter : TransactionQueryFilter Value) (stateEquals : Option Column) (row : TransactionRecord Column) : Bool :=
  (given filter.machineId).all (row.machineId = ·) && (given filter.actorId).all (row.actorId = ·) &&
  ((filter.transactionIds.getD []).isEmpty || (filter.transactionIds.getD []).contains row.transactionId) &&
  ((filter.statuses.getD []).isEmpty || (filter.statuses.getD []).contains row.status) &&
  filter.stuckBeforeTimestamp.all (row.updatedAt ≤ ·) && filter.olderThanTimestamp.all (row.updatedAt ≤ ·) &&
  stateEquals.all (row.stateValue = ·)

def countTransactions [DecidableEq Column] (filter : TransactionQueryFilter Value) : Result Value × Tables Column :=
  match dialect.bind filter.texts (writeOption dialect.write filter.stateEquals) with
  | none => (.failed .rejected,tables)
  | some stateEquals => (.count (tables.transactions.filter (whereClause filter stateEquals)).length,tables)

/-- `LIMIT` and `OFFSET`, at least zero -/
def page {Row : Type} (limit offset : Option Int) (rows : List Row) : List Row :=
  let rest := rows.drop (offset.elim 0 Int.toNat)
  match limit with
  | none => rest
  | some limit => rest.take limit.toNat

def queryTransactions [DecidableEq Column] (filter : TransactionQueryFilter Value) (nowTimestamp stuckThresholdMs : Int) :
    Result Value × Tables Column :=
  if dialect.paging filter.limit filter.offset then
    match dialect.bind filter.texts (writeOption dialect.write filter.stateEquals) with
    | none => (.failed .rejected,tables)
    | some stateEquals =>
      let found := dialect.byAge.arrange (tables.transactions.filter (whereClause filter stateEquals))
      (.rows ((page filter.limit filter.offset found).map (fun row =>
        summarize (row.read dialect.read) ((tables.entries row.transactionId).filter (·.compensatedAt.isNone)).length
          nowTimestamp stuckThresholdMs)),tables)
  else (.failed .rejected,tables)

/-- The entries go with their transaction (`ON DELETE CASCADE`). -/
def deleteTransactions (transactionIds : List String) : Result Value × Tables Column :=
  if transactionIds.isEmpty then (.count 0,tables) else
  match dialect.bind transactionIds (some transactionIds) with
  | none => (.failed .rejected,tables)
  | some ids => (.count (tables.transactions.filter (fun row => ids.contains row.transactionId)).length,
      { transactions := tables.transactions.filter (fun row => !ids.contains row.transactionId)
        compensations := tables.compensations.filter (fun e => !ids.contains e.transactionId) })

def step [DecidableEq Column] : Op Value → Result Value × Tables Column
  | .createTransaction record => tables.createTransaction dialect record
  | .getTransaction transactionId => tables.getTransaction dialect transactionId
  | .updateTransaction transactionId expectedVersion patch appendCompensations =>
    tables.updateTransaction dialect transactionId expectedVersion patch appendCompensations
  | .getUncompensatedStack transactionId => tables.getUncompensatedStack dialect transactionId
  | .markCompensationExecuted transactionId stepSeq compensatedAt =>
    tables.markCompensationExecuted dialect transactionId stepSeq compensatedAt
  | .countTransactions filter => tables.countTransactions dialect filter
  | .queryTransactions filter nowTimestamp stuckThresholdMs => tables.queryTransactions dialect filter nowTimestamp stuckThresholdMs
  | .deleteTransactions transactionIds => tables.deleteTransactions dialect transactionIds

end Tables

def sqlStore [DecidableEq Column] (dialect : Dialect Value Column) : Machine (Op Value) (Result Value) where
  State := Tables Column
  init := {}
  step tables op := tables.step dialect op

/-- `JSON.stringify` and `JSON.parse` on values that are JSON-safe. -/
structure Json (Value : Type) where
  stringify : Value → String
  parse : String → Value
  roundTrip : ∀ v, parse (stringify v) = v

/-- JSON text in TEXT columns; `OFFSET` is part of a `LIMIT` clause. -/
def sqlite (json : Json Value) (byAge : ByAge (TransactionRecord String) (·.updatedAt)) : Dialect Value String where
  write v := some (json.stringify v)
  read := json.parse
  text _ := true
  paging limit offset := limit.isSome || offset.isNone
  byAge := byAge

/-- JSONB columns hold what `jsonb` makes of a value, if it takes it; a text has no NUL. -/
def postgres (jsonb : Value → Option Value) (byAge : ByAge (TransactionRecord Value) (·.updatedAt)) : Dialect Value Value where
  write := jsonb
  read v := v
  text s := !s.toList.contains (Char.ofNat 0)
  paging _ _ := true
  byAge := byAge

def SqliteStateStore (json : Json Value) (byAge : ByAge (TransactionRecord String) (·.updatedAt)) : Machine (Op Value) (Result Value) :=
  sqlStore (sqlite json byAge)

def PostgresStateStore [DecidableEq Value] (jsonb : Value → Option Value) (byAge : ByAge (TransactionRecord Value) (·.updatedAt)) :
    Machine (Op Value) (Result Value) :=
  sqlStore (postgres jsonb byAge)

end Dfsm.Stores
