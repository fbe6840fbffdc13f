import Dfsm.Stores.Relational
import Dfsm.Stores.Embedded

/-! The three stores against one another. -/
namespace Dfsm.Stores

variable {Value Meaning : Type} [DecidableEq Value]

/-- An offset comes with a limit. -/
def Op.Paged : Op Value → Prop
  | .queryTransactions filter _ _ => filter.offset.isSome = true → filter.limit.isSome = true
  | _ => True

/-- A request that all three databases serve. -/
def Portable (jsonb : Value → Option Value) (jsonbAge : ByAge (TransactionRecord Value) (·.updatedAt)) (driver : MongoDriver Value)
    (meaning : Value → Meaning) (ledger : Ledger Value) (op : Op Value) : Prop :=
  op.Paged ∧ (postgres jsonb jsonbAge).Serves meaning ledger op ∧ driver.Serves meaning ledger op

variable (json : Json Value) (textAge : ByAge (TransactionRecord String) (·.updatedAt)) (jsonb : Value → Option Value)
  (jsonbAge : ByAge (TransactionRecord Value) (·.updatedAt)) (driver : MongoDriver Value) (meaning : Value → Meaning)

omit [DecidableEq Value] in
theorem textKept (v : Value) : Kept (sqlite json textAge).write (sqlite json textAge).read meaning v :=
  ⟨json.stringify v,rfl,congrArg meaning (json.roundTrip v)⟩

omit [DecidableEq Value] in
theorem textTaken (texts : List String) : texts.all (sqlite json textAge).text = true := List.all_eq_true.mpr (fun _ _ => rfl)

omit [DecidableEq Value] in
theorem textCompares (ledger : Ledger Value) (stateEquals : Option Value) : (sqlite json textAge).Compares ledger stateEquals := by
  intro state _
  refine ⟨json.stringify state,rfl,fun d _ => ?_⟩
  constructor
  · intro same
    rw [← json.roundTrip d.stateValue,Option.some.inj same,json.roundTrip]
  · intro same
    exact congrArg (fun v => some (json.stringify v)) same

theorem sqliteServes {ledger : Ledger Value} {op : Op Value} (paged : op.Paged) (serves : (postgres jsonb jsonbAge).Serves meaning ledger op) :
    (sqlite json textAge).Serves meaning ledger op := by
  have kept := textKept json textAge meaning
  have taken := textTaken json textAge
  cases op with
  | createTransaction record => exact ⟨taken _,fun v _ => kept v⟩
  | updateTransaction transactionId expectedVersion patch items =>
    exact ⟨taken _,fun v _ => kept v,fun _ item _ => ⟨taken _,fun v _ => kept v⟩⟩
  | countTransactions filter => exact ⟨taken _,textCompares json textAge ledger _⟩
  | queryTransactions filter nowTimestamp stuckThresholdMs =>
    refine ⟨taken _,textCompares json textAge ledger _,?_,serves.2.2.2⟩
    unfold Op.Paged at paged
    unfold sqlite
    cases offset : filter.offset with
    | none => simp
    | some n => simp [paged (by rw [offset]; rfl)]
  | deleteTransactions transactionIds => exact taken _
  | getTransaction _ | getUncompensatedStack _ | markCompensationExecuted _ _ _ => rfl

def jsonText : Json String := ⟨id,id,fun _ => rfl⟩

def plainMongo : MongoDriver String where
  bson := some
  meets state := some (fun stored => stored = state)
  byAge := oldest _

def order : TransactionRecord String :=
  { transactionId := "tx", machineId := "order", machineVersion := "1", actorId := "alice", stateValue := "\"cart\"", context := "null",
    status := .IDLE, activeStep := none, lastError := none, version := 1, leaseOwner := none, leaseExpiresAt := none, createdAt := 5,
    updatedAt := 5 }

def charge : NewEntry String :=
  { transactionId := "tx", transitionKey := "cart:PAY", compensateKey := "refund", fromState := "\"cart\"", inputSnapshot := "null",
    contextBefore := "null", createdAt := 7, compensatedAt := none }

def shopping : List (Op String) :=
  [.createTransaction order,.updateTransaction "tx" 1 { stateValue := some "\"paid\"", updatedAt := 7 } [charge],
    .queryTransactions { stateEquals := some "\"paid\"", limit := some 10, offset := some 0 } 9 30000,.getTransaction "tx"]

def Result.listed : Result Value → Option Nat
  | .rows summaries => some summaries.length
  | _ => none

end Dfsm.Stores
