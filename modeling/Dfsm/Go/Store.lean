import Dfsm.Go.Actor
import Dfsm.Lib.Pool

/-! The memory store of the Go SDK, and workers that share one. -/
namespace Dfsm.Go
open Keyed (Record)

variable {Context Data : Type}

/-- A transaction is kept under its own id. -/
structure MemoryStateStore where
  transactions : Record TransactionRecord := []
  sagaStacks : Record (List SagaStepRecord) := []
  own : ∀ id record, Keyed.get transactions id = some record → record.transactionId = id := by simp

namespace MemoryStateStore
variable (s : MemoryStateStore)

def stack (txId : String) : List SagaStepRecord := (Keyed.get s.sagaStacks txId).getD []

def writeTransaction (record : TransactionRecord) : MemoryStateStore :=
  { s with
    transactions := put record.transactionId record s.transactions
    own := by
      intro id other got
      rw [getPut] at got
      split at got
      · rename_i same
        cases got
        exact same.symm
      · exact s.own id other got }

def writeStack (txId : String) (steps : List SagaStepRecord) : MemoryStateStore :=
  { s with sagaStacks := put txId steps s.sagaStacks }

def createTransaction (record : TransactionRecord) : MemoryStateStore :=
  (s.writeTransaction record).writeStack record.transactionId record.sagaStack

def getTransaction (txId : String) : Option TransactionRecord :=
  (Keyed.get s.transactions txId).map (fun record => { record with sagaStack := s.stack txId })

def updateTransaction (record : TransactionRecord) (expectedVersion : Int) : Except DfsmError Unit × MemoryStateStore :=
  match Keyed.get s.transactions record.transactionId with
  | none => (.error (.transactionNotFound record.transactionId),s)
  | some existing =>
    if existing.version ≠ expectedVersion then
      (.error (.staleTransactionVersion record.transactionId expectedVersion existing.version),s)
    else (.ok (),s.writeTransaction record)

def pushSagaStep (txId : String) (step : SagaStepRecord) : MemoryStateStore := s.writeStack txId (s.stack txId ++ [step])

def popSagaStep (txId : String) : Option SagaStepRecord × MemoryStateStore :=
  match (s.stack txId).getLast? with
  | none => (none,s)
  | some last => (some last,s.writeStack txId (s.stack txId).dropLast)

def deleteTransaction (txId : String) : MemoryStateStore where
  transactions := s.transactions.filter (fun e => e.1 != txId)
  sagaStacks := s.sagaStacks.filter (fun e => e.1 != txId)
  own id record got := by
    rw [Keyed.getFilter] at got
    split at got
    · cases got
    · exact s.own id record got

def isActive (machineId : String) (record : TransactionRecord) : Bool :=
  (record.status = .IDLE || record.status = .IN_FLIGHT || record.status = .COMPENSATING) &&
    (machineId = "" || record.machineId = machineId)

/-- The active transactions as an iteration may take them, the latest updates first. -/
def Lists (machineId : String) (limit : Int) (found : List TransactionRecord) : Prop :=
  ∃ list, list.Perm ((s.transactions.map (·.2)).filter (isActive machineId)) ∧
    list.Pairwise (fun a b => b.updatedAt ≤ a.updatedAt) ∧ found = if 0 < limit then list.take limit.toNat else list

variable {s} {txId : String}

theorem stackWrite (id : String) (steps : List SagaStepRecord) : (s.writeStack id steps).stack txId = if id = txId then steps else s.stack txId := by
  rw [stack,writeStack]
  dsimp only
  rw [getPut]
  by_cases here : id = txId
  · rw [if_pos here,if_pos here.symm,Option.getD_some]
  · rw [if_neg here,if_neg (Ne.symm here)]
    rfl

theorem stackDelete (id : String) : (s.deleteTransaction id).stack txId = if id = txId then [] else s.stack txId := by
  rw [stack,deleteTransaction]
  dsimp only
  rw [Keyed.getFilter]
  by_cases here : id = txId
  · rw [if_pos here,if_pos here.symm]
    rfl
  · rw [if_neg here,if_neg (Ne.symm here)]
    rfl

theorem stackPush (id : String) (step : SagaStepRecord) :
    (s.pushSagaStep id step).stack txId = if id = txId then s.stack txId ++ [step] else s.stack txId := by
  rw [pushSagaStep,stackWrite]
  split
  · rename_i here
    rw [here]
  · rfl

theorem stackPop (id : String) : (s.popSagaStep id).2.stack txId = if id = txId then (s.stack txId).dropLast else s.stack txId := by
  unfold popSagaStep
  split
  · rename_i empty
    split
    · rename_i here
      rw [here,List.getLast?_eq_none_iff] at empty
      rw [empty]
      rfl
    · rfl
  · rw [stackWrite]
    split
    · rename_i here
      rw [here]
    · rfl

theorem popSome {step : SagaStepRecord} (popped : (s.popSagaStep txId).1 = some step) : s.stack txId ≠ [] := by
  intro empty
  rw [popSagaStep,empty] at popped
  exact absurd popped (by simp)

theorem missingWrite {record : TransactionRecord} (missing : (s.writeTransaction record).getTransaction txId = none) :
    record.transactionId ≠ txId ∧ s.getTransaction txId = none := by
  simp only [getTransaction,writeTransaction,Option.map_eq_none_iff,getPut] at missing ⊢
  split at missing
  · cases missing
  · rename_i other
    exact ⟨Ne.symm other,missing⟩

theorem missingCreate {record : TransactionRecord} (missing : (s.createTransaction record).getTransaction txId = none) :
    s.getTransaction txId = none := by
  refine (@missingWrite _ _ record ?_).2
  simpa only [getTransaction,createTransaction,writeStack,Option.map_eq_none_iff] using missing

theorem missingDelete {id : String} (missing : (s.deleteTransaction id).getTransaction txId = none) :
    id = txId ∨ s.getTransaction txId = none := by
  simp only [getTransaction,deleteTransaction,Option.map_eq_none_iff,Keyed.getFilter] at missing ⊢
  split at missing
  · rename_i here
    exact .inl here.symm
  · exact .inr missing

theorem updateCases {record : TransactionRecord} {expectedVersion : Int} {r : Except DfsmError Unit} {s' : MemoryStateStore}
    (updated : (r,s') = s.updateTransaction record expectedVersion) :
    r = .ok () ∧ s' = s.writeTransaction record ∨ (∃ e, r = .error e) ∧ s' = s := by
  unfold updateTransaction at updated
  split at updated
  · cases updated
    exact .inr ⟨⟨_,rfl⟩,rfl⟩
  · split at updated
    · cases updated
      exact .inr ⟨⟨_,rfl⟩,rfl⟩
    · cases updated
      exact .inl ⟨rfl,rfl⟩

end MemoryStateStore

/-- The store answers; clock, breakers and registered functions may answer anything. -/
def Performs (s : MemoryStateStore) : (op : Op Context Data) → Reply Context Data op → MemoryStateStore → Prop
  | .getTransaction txId, r, s' => r = .ok (s.getTransaction txId) ∧ s' = s
  | .createTransaction record, r, s' => r = .ok () ∧ s' = s.createTransaction record
  | .updateTransaction record expectedVersion, r, s' => (r,s') = s.updateTransaction record expectedVersion
  | .pushSagaStep txId step, r, s' => r = .ok () ∧ s' = s.pushSagaStep txId step
  | .getSagaStack txId, r, s' => r = .ok (s.stack txId) ∧ s' = s
  | .popSagaStep txId, r, s' => r = .ok (s.popSagaStep txId).1 ∧ s' = (s.popSagaStep txId).2
  | .listActiveTransactions machineId limit, r, s' => (∃ found, s.Lists machineId limit found ∧ r = .ok found) ∧ s' = s
  | .deleteTransaction txId, r, s' => r = .ok () ∧ s' = s.deleteTransaction txId
  | _, _, s' => s' = s

/-- What is registered, the clock and the breakers, one answer for each request. -/
abbrev Surroundings (Context Data : Type) := (op : Op Context Data) → Reply Context Data op

def latestFirst (a b : TransactionRecord) : Prop := b.updatedAt ≤ a.updatedAt
instance : DecidableRel latestFirst := fun _ _ => inferInstanceAs (Decidable (_ ≤ _))

def serve (user : Surroundings Context Data) (s : MemoryStateStore) : (op : Op Context Data) → Reply Context Data op × MemoryStateStore
  | .getTransaction txId => (.ok (s.getTransaction txId),s)
  | .createTransaction record => (.ok (),s.createTransaction record)
  | .updateTransaction record expectedVersion => s.updateTransaction record expectedVersion
  | .pushSagaStep txId step => (.ok (),s.pushSagaStep txId step)
  | .getSagaStack txId => (.ok (s.stack txId),s)
  | .popSagaStep txId => (.ok (s.popSagaStep txId).1,(s.popSagaStep txId).2)
  | .listActiveTransactions machineId limit =>
    let list := ((s.transactions.map (·.2)).filter (MemoryStateStore.isActive machineId)).insertionSort latestFirst
    (.ok (if 0 < limit then list.take limit.toNat else list),s)
  | .deleteTransaction txId => (.ok (),s.deleteTransaction txId)
  | op => (user op,s)

theorem servePerforms (user : Surroundings Context Data) (s : MemoryStateStore) (op : Op Context Data) :
    Performs s op (serve user s op).1 (serve user s op).2 := by
  cases op with
  | listActiveTransactions machineId limit =>
    refine ⟨⟨_,⟨_,List.perm_insertionSort latestFirst _,?_,rfl⟩,rfl⟩,rfl⟩
    have sorted := @List.pairwise_insertionSort _ latestFirst _ ⟨fun a b => by unfold latestFirst; omega⟩
      ⟨fun a b c ab bc => by unfold latestFirst at *; omega⟩ ((s.transactions.map (·.2)).filter (MemoryStateStore.isActive machineId))
    exact sorted
  | updateTransaction record expectedVersion => rfl
  | _ => first | exact ⟨rfl,rfl⟩ | exact rfl

end Dfsm.Go
