import Dfsm.Rust.Actor
import Dfsm.Lib.Pool

/-! The memory store of the Rust SDK, and workers that share one. -/
namespace Dfsm.Rust
open Keyed (Record)
open Go (put getPut)

variable {Context Data : Type}

/-- A transaction is kept under its own id. -/
structure MemoryStateStore where
  transactions : Record TransactionRecord := []
  sagaStacks : Record (List SagaStepRecord) := []
  own : ∀ id record, Keyed.get transactions id = some record → record.transactionId = id := by simp

namespace MemoryStateStore
variable (s : MemoryStateStore)

def getTransaction (txId : String) : Option TransactionRecord := Keyed.get s.transactions txId

def getSagaStack (txId : String) : List SagaStepRecord := (Keyed.get s.sagaStacks txId).getD []

def insert (record : TransactionRecord) : MemoryStateStore :=
  { s with
    transactions := put record.transactionId record s.transactions
    own := by
      intro id other got
      rw [getPut] at got
      split at got
      · rename_i same
        cases got
        exact same.symm
      · exact s.own id other got }

def insertStack (txId : String) (steps : List SagaStepRecord) : MemoryStateStore :=
  { s with sagaStacks := put txId steps s.sagaStacks }

def createTransaction (record : TransactionRecord) : Except DfsmError Unit × MemoryStateStore :=
  match Keyed.get s.transactions record.transactionId with
  | some _ => (.error (.storeError s!"Transaction '{record.transactionId}' already exists"),s)
  | none => (.ok (),s.insert record)

def updateTransaction (record : TransactionRecord) (expectedVersion : Int) : Except DfsmError Unit × MemoryStateStore :=
  match Keyed.get s.transactions record.transactionId with
  | some existing =>
    if existing.version ≠ expectedVersion then
      (.error (.storeError s!"Optimistic concurrency violation: expected version {expectedVersion}, found {existing.version}"),s)
    else (.ok (),s.insert record)
  | none => (.error (.transactionNotFound record.transactionId),s)

def pushSagaStep (txId : String) (step : SagaStepRecord) : MemoryStateStore := s.insertStack txId (s.getSagaStack txId ++ [step])

def popSagaStep (txId : String) : Option SagaStepRecord × MemoryStateStore :=
  match (s.getSagaStack txId).getLast? with
  | none => (none,s)
  | some last => (some last,s.insertStack txId (s.getSagaStack txId).dropLast)

def deleteTransaction (txId : String) : MemoryStateStore where
  transactions := s.transactions.filter (fun e => e.1 != txId)
  sagaStacks := s.sagaStacks.filter (fun e => e.1 != txId)
  own id record got := by
    rw [Keyed.getFilter] at got
    split at got
    · cases got
    · exact s.own id record got

def isActive (machineId : String) (record : TransactionRecord) : Bool :=
  record.machineId = machineId && (record.status = .IDLE || record.status = .IN_FLIGHT || record.status = .COMPENSATING)

/-- The active transactions as an iteration may come to them; the limit is looked at once
one has been found. -/
def Lists (machineId : String) (limit : Nat) (found : List TransactionRecord) : Prop :=
  ∃ list : List TransactionRecord, list.Perm ((s.transactions.map (·.2)).filter (isActive machineId)) ∧ found = list.take (max limit 1)

variable {s} {txId : String}

theorem stackInsert (id : String) (steps : List SagaStepRecord) :
    (s.insertStack id steps).getSagaStack txId = if id = txId then steps else s.getSagaStack txId := by
  rw [getSagaStack,insertStack]
  dsimp only
  rw [getPut]
  by_cases here : id = txId
  · rw [if_pos here,if_pos here.symm,Option.getD_some]
  · rw [if_neg here,if_neg (Ne.symm here)]
    rfl

theorem stackPush (id : String) (step : SagaStepRecord) :
    (s.pushSagaStep id step).getSagaStack txId = if id = txId then s.getSagaStack txId ++ [step] else s.getSagaStack txId := by
  rw [pushSagaStep,stackInsert]
  split
  · rename_i here
    rw [here]
  · rfl

theorem stackDelete (id : String) : (s.deleteTransaction id).getSagaStack txId = if id = txId then [] else s.getSagaStack txId := by
  rw [getSagaStack,deleteTransaction]
  dsimp only
  rw [Keyed.getFilter]
  by_cases here : id = txId
  · rw [if_pos here,if_pos here.symm]
    rfl
  · rw [if_neg here,if_neg (Ne.symm here)]
    rfl

theorem getDelete (id : String) : (s.deleteTransaction id).getTransaction txId = if id = txId then none else s.getTransaction txId := by
  rw [getTransaction,deleteTransaction]
  dsimp only
  rw [Keyed.getFilter]
  by_cases here : id = txId
  · rw [if_pos here,if_pos here.symm]
  · rw [if_neg here,if_neg (Ne.symm here)]
    rfl

theorem getInsert (record : TransactionRecord) :
    (s.insert record).getTransaction txId = if record.transactionId = txId then some record else s.getTransaction txId := by
  rw [getTransaction,insert]
  dsimp only
  rw [getPut]
  by_cases here : record.transactionId = txId
  · rw [if_pos here,if_pos here.symm]
  · rw [if_neg here,if_neg (Ne.symm here)]
    rfl

theorem popCases {r : Option SagaStepRecord} {s' : MemoryStateStore} {id : String} (popped : (r,s') = s.popSagaStep id) :
    (r = none ∧ s' = s ∧ s.getSagaStack id = []) ∨
      ∃ last, r = some last ∧ (s.getSagaStack id).getLast? = some last ∧ s' = s.insertStack id (s.getSagaStack id).dropLast := by
  unfold popSagaStep at popped
  split at popped
  · rename_i empty
    cases popped
    exact .inl ⟨rfl,rfl,List.getLast?_eq_none_iff.mp empty⟩
  · rename_i last here
    cases popped
    exact .inr ⟨last,rfl,here,rfl⟩

theorem createCases {record : TransactionRecord} {r : Except DfsmError Unit} {s' : MemoryStateStore} (created : (r,s') = s.createTransaction record) :
    r = .ok () ∧ s' = s.insert record ∧ s.getTransaction record.transactionId = none ∨ (∃ e, r = .error e) ∧ s' = s := by
  unfold createTransaction at created
  split at created
  · cases created
    exact .inr ⟨⟨_,rfl⟩,rfl⟩
  · rename_i absent
    cases created
    exact .inl ⟨rfl,rfl,absent⟩

theorem updateCases {record : TransactionRecord} {expectedVersion : Int} {r : Except DfsmError Unit} {s' : MemoryStateStore}
    (updated : (r,s') = s.updateTransaction record expectedVersion) :
    (r = .ok () ∧ s' = s.insert record ∧ ∃ existing, s.getTransaction record.transactionId = some existing ∧ existing.version = expectedVersion) ∨
      (∃ e, r = .error e) ∧ s' = s ∧ ∀ existing, s.getTransaction record.transactionId = some existing → existing.version ≠ expectedVersion := by
  unfold updateTransaction at updated
  split at updated
  · rename_i existing found
    split at updated
    · rename_i stale
      cases updated
      refine .inr ⟨⟨_,rfl⟩,rfl,?_⟩
      intro existing' found'
      cases Option.some.inj (found.symm.trans found')
      exact stale
    · rename_i current
      cases updated
      exact .inl ⟨rfl,rfl,existing,found,Decidable.not_not.mp current⟩
  · rename_i absent
    cases updated
    refine .inr ⟨⟨_,rfl⟩,rfl,?_⟩
    intro existing found
    exact absurd (absent.symm.trans found) (by simp)

end MemoryStateStore

/-- The store answers; clock, breakers and registered functions may answer anything. -/
def Performs (s : MemoryStateStore) : (op : Op Context Data) → Reply Context Data op → MemoryStateStore → Prop
  | .getTransaction txId, r, s' => r = .ok (s.getTransaction txId) ∧ s' = s
  | .createTransaction record, r, s' => (r,s') = s.createTransaction record
  | .updateTransaction record expectedVersion, r, s' => (r,s') = s.updateTransaction record expectedVersion
  | .pushSagaStep txId step, r, s' => r = .ok () ∧ s' = s.pushSagaStep txId step
  | .getSagaStack txId, r, s' => r = .ok (s.getSagaStack txId) ∧ s' = s
  | .popSagaStep txId, r, s' => ∃ popped, r = .ok popped ∧ (popped,s') = s.popSagaStep txId
  | .listActiveTransactions machineId limit, r, s' => (∃ found, s.Lists machineId limit found ∧ r = .ok found) ∧ s' = s
  | .deleteTransaction txId, r, s' => r = .ok () ∧ s' = s.deleteTransaction txId
  | _, _, s' => s' = s

/-- What is registered, the clock and the breakers, one answer for each request. -/
abbrev Surroundings (Context Data : Type) := (op : Op Context Data) → Reply Context Data op

def serve (user : Surroundings Context Data) (s : MemoryStateStore) : (op : Op Context Data) → Reply Context Data op × MemoryStateStore
  | .getTransaction txId => (.ok (s.getTransaction txId),s)
  | .createTransaction record => s.createTransaction record
  | .updateTransaction record expectedVersion => s.updateTransaction record expectedVersion
  | .pushSagaStep txId step => (.ok (),s.pushSagaStep txId step)
  | .getSagaStack txId => (.ok (s.getSagaStack txId),s)
  | .popSagaStep txId => (.ok (s.popSagaStep txId).1,(s.popSagaStep txId).2)
  | .listActiveTransactions machineId limit =>
    (.ok (((s.transactions.map (·.2)).filter (MemoryStateStore.isActive machineId)).take (max limit 1)),s)
  | .deleteTransaction txId => (.ok (),s.deleteTransaction txId)
  | op => (user op,s)

theorem servePerforms (user : Surroundings Context Data) (s : MemoryStateStore) (op : Op Context Data) :
    Performs s op (serve user s op).1 (serve user s op).2 := by
  cases op with
  | listActiveTransactions machineId limit => exact ⟨⟨_,⟨_,List.Perm.refl _,rfl⟩,rfl⟩,rfl⟩
  | popSagaStep txId => exact ⟨_,rfl,rfl⟩
  | createTransaction record => rfl
  | updateTransaction record expectedVersion => rfl
  | _ => first | exact ⟨rfl,rfl⟩ | exact rfl

end Dfsm.Rust
