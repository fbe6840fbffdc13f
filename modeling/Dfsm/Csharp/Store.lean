import Dfsm.Csharp.Actor
import Dfsm.Lib.Pool

/-! The SQLite store of the C# SDK, each method under its lock, and workers that share one. -/
namespace Dfsm.Csharp
open Keyed (Record)

variable {Context Data : Type}

/-- The two tables. The steps stand in the order of their inserts, which for one transaction
is that of `step_order`; `step_id` is a primary key. -/
structure SqliteStateStore where
  transactions : Record TransactionRecord := []
  steps : List (String × SagaStepRecord) := []
  own : ∀ id record, Keyed.get transactions id = some record → record.transactionId = id := by simp
  keys : (steps.map (·.2.stepId)).Nodup := by simp

namespace SqliteStateStore
variable (s : SqliteStateStore)

def getSagaStack (transactionId : String) : List SagaStepRecord := (s.steps.filter (·.1 = transactionId)).map (·.2)

def getTransaction (transactionId : String) : Option TransactionRecord :=
  (Keyed.get s.transactions transactionId).map (fun record => { record with sagaStack := s.getSagaStack transactionId })

def insert (record : TransactionRecord) : SqliteStateStore :=
  { s with
    transactions := put record.transactionId record s.transactions
    own := by
      intro id other got
      rw [getPut] at got
      split at got
      · rename_i same
        cases got
        exact same.symm
      · exact s.own id other got }

def createTransaction (record : TransactionRecord) : Except Exn Unit × SqliteStateStore :=
  match Keyed.get s.transactions record.transactionId with
  | some _ => (.error (.thrown "SQLite Error 19: 'UNIQUE constraint failed: dfsm_transactions.transaction_id'."),s)
  | none => (.ok (),s.insert { record with sagaStack := [] })

/-- What an update writes to the row. -/
def written (existing record : TransactionRecord) : TransactionRecord :=
  { existing with
    currentState := record.currentState, status := record.status, contextJson := record.contextJson, version := record.version
    updatedAt := record.updatedAt, leaseExpiresAt := record.leaseExpiresAt, leaseOwner := record.leaseOwner }

def updateTransaction (record : TransactionRecord) (expectedVersion : Int) : Except Exn Unit × SqliteStateStore :=
  match Keyed.get s.transactions record.transactionId with
  | none => (.error (.transactionNotFound record.transactionId),s)
  | some existing =>
    if existing.version = expectedVersion then (.ok (),s.insert (written existing record))
    else (.error (.staleTransactionVersion record.transactionId expectedVersion existing.version),s)

def pushSagaStep (transactionId : String) (step : SagaStepRecord) : Except Exn Unit × SqliteStateStore :=
  if taken : step.stepId ∈ s.steps.map (·.2.stepId) then
    (.error (.thrown "SQLite Error 19: 'UNIQUE constraint failed: dfsm_saga_steps.step_id'."),s)
  else (.ok (),{ s with
    steps := s.steps ++ [(transactionId,step)]
    keys := by
      rw [List.map_append]
      refine List.nodup_append.mpr ⟨s.keys,by simp,?_⟩
      intro key mem other one same
      rw [same,List.mem_singleton.mp one] at mem
      exact taken mem })

def keepSteps (kept : String × SagaStepRecord → Bool) : SqliteStateStore :=
  { s with
    steps := s.steps.filter kept
    keys := s.keys.sublist (List.filter_sublist.map _) }

/-- The row is deleted by its key. -/
def popSagaStep (transactionId : String) : Option SagaStepRecord × SqliteStateStore :=
  match (s.getSagaStack transactionId).getLast? with
  | none => (none,s)
  | some step => (some step,s.keepSteps (fun row => row.2.stepId != step.stepId))

def deleteTransaction (transactionId : String) : SqliteStateStore :=
  { s.keepSteps (fun row => row.1 != transactionId) with
    transactions := s.transactions.filter (fun e => e.1 != transactionId)
    own := by
      intro id record got
      rw [Keyed.getFilter] at got
      split at got
      · cases got
      · exact s.own id record got }

def isActive (machineId : String) (record : TransactionRecord) : Bool :=
  (record.status = .IDLE || record.status = .IN_FLIGHT || record.status = .COMPENSATING) && (machineId = "" || record.machineId = machineId)

/-- The active rows, the last updated ones first, up to the limit; a negative limit is none. -/
def Lists (machineId : String) (limit : Int) (found : List TransactionRecord) : Prop :=
  ∃ rows : List TransactionRecord, rows.Perm ((s.transactions.map (·.2)).filter (isActive machineId)) ∧
    rows.Pairwise (fun r r' => r'.updatedAt ≤ r.updatedAt) ∧ found = if limit < 0 then rows else rows.take limit.toNat

variable {s} {transactionId : String}

theorem getInsert (record : TransactionRecord) : Keyed.get (s.insert record).transactions transactionId =
    if record.transactionId = transactionId then some record else Keyed.get s.transactions transactionId := by
  rw [insert,getPut]
  by_cases here : record.transactionId = transactionId
  · rw [if_pos here,if_pos here.symm]
  · rw [if_neg here,if_neg (Ne.symm here)]

theorem getDelete (id : String) : Keyed.get (s.deleteTransaction id).transactions transactionId =
    if id = transactionId then none else Keyed.get s.transactions transactionId := by
  rw [deleteTransaction,Keyed.getFilter]
  by_cases here : id = transactionId
  · rw [if_pos here,if_pos here.symm]
  · rw [if_neg here,if_neg (Ne.symm here)]

theorem stackDelete (id : String) : (s.deleteTransaction id).getSagaStack transactionId =
    if id = transactionId then [] else s.getSagaStack transactionId := by
  rw [getSagaStack,deleteTransaction,keepSteps,List.filter_filter]
  split
  · rename_i here
    rw [List.map_eq_nil_iff,List.filter_eq_nil_iff]
    intro row _ both
    simp_all
  · rename_i other
    refine congrArg (List.map _) (List.filter_congr (fun row _ => ?_))
    by_cases here : row.1 = transactionId
    · simp [here,Ne.symm other]
    · simp [here]

theorem createCases {record : TransactionRecord} {r : Except Exn Unit} {s' : SqliteStateStore} (created : (r,s') = s.createTransaction record) :
    r = .ok () ∧ s' = s.insert { record with sagaStack := [] } ∧ Keyed.get s.transactions record.transactionId = none ∨
      (∃ e, r = .error e) ∧ s' = s := by
  unfold createTransaction at created
  split at created
  · cases created
    exact .inr ⟨⟨_,rfl⟩,rfl⟩
  · rename_i absent
    cases created
    exact .inl ⟨rfl,rfl,absent⟩

theorem updateCases {record : TransactionRecord} {expectedVersion : Int} {r : Except Exn Unit} {s' : SqliteStateStore}
    (updated : (r,s') = s.updateTransaction record expectedVersion) :
    (∃ existing, r = .ok () ∧ s' = s.insert (written existing record) ∧ Keyed.get s.transactions record.transactionId = some existing ∧
        existing.version = expectedVersion) ∨
      (∃ e, r = .error e) ∧ s' = s ∧ ∀ existing, Keyed.get s.transactions record.transactionId = some existing →
        existing.version ≠ expectedVersion := by
  unfold updateTransaction at updated
  split at updated
  · rename_i absent
    cases updated
    exact .inr ⟨⟨_,rfl⟩,rfl,fun existing found => absurd (absent.symm.trans found) (by simp)⟩
  · rename_i existing found
    split at updated
    · rename_i current
      cases updated
      exact .inl ⟨existing,rfl,rfl,found,current⟩
    · rename_i stale
      cases updated
      refine .inr ⟨⟨_,rfl⟩,rfl,fun existing' found' => ?_⟩
      cases Option.some.inj (found.symm.trans found')
      exact stale

theorem pushCases {id : String} {step : SagaStepRecord} {r : Except Exn Unit} {s' : SqliteStateStore}
    (pushed : (r,s') = s.pushSagaStep id step) : (∃ e, r = .error e) ∧ s' = s ∨
      r = .ok () ∧ s'.transactions = s.transactions ∧ s'.steps = s.steps ++ [(id,step)] := by
  unfold pushSagaStep at pushed
  split at pushed <;> cases pushed
  · exact .inl ⟨⟨_,rfl⟩,rfl⟩
  · exact .inr ⟨rfl,rfl,rfl⟩

theorem stackPush {id : String} {step : SagaStepRecord} {s' : SqliteStateStore} (rows : s'.steps = s.steps ++ [(id,step)]) :
    s'.getSagaStack transactionId = if id = transactionId then s.getSagaStack transactionId ++ [step] else s.getSagaStack transactionId := by
  rw [getSagaStack,rows,List.filter_append,List.map_append]
  by_cases here : id = transactionId
  · simp [here,getSagaStack]
  · simp [here,getSagaStack]

theorem sameRow {row row' : String × SagaStepRecord} (here : row ∈ s.steps) (here' : row' ∈ s.steps) (same : row.2.stepId = row'.2.stepId) :
    row = row' :=
  List.inj_on_of_nodup_map s.keys here here' same

theorem stackPop {id : String} {step : SagaStepRecord} (last : (s.getSagaStack id).getLast? = some step) :
    (s.keepSteps (fun row => row.2.stepId != step.stepId)).getSagaStack transactionId =
      if id = transactionId then (s.getSagaStack transactionId).dropLast else s.getSagaStack transactionId := by
  obtain ⟨rows,row,split,rfl⟩ : ∃ rows row, s.steps.filter (·.1 = id) = rows ++ [row] ∧ row.2 = step := by
    rw [getSagaStack,List.getLast?_map,Option.map_eq_some_iff] at last
    obtain ⟨row,here,same⟩ := last
    exact ⟨_,row,(List.dropLast_append_getLast? row here).symm,same⟩
  have member : row ∈ s.steps.filter (·.1 = id) := by
    rw [split]
    simp
  obtain ⟨inside,own⟩ := List.mem_filter.mp member
  have own : row.1 = id := of_decide_eq_true own
  have swap : (s.keepSteps (fun row' => row'.2.stepId != row.2.stepId)).getSagaStack transactionId =
      ((s.steps.filter (·.1 = transactionId)).filter (fun row' => row'.2.stepId != row.2.stepId)).map (·.2) := by
    rw [getSagaStack,keepSteps,List.filter_filter,List.filter_filter]
    refine congrArg (List.map _) (List.filter_congr (fun row' _ => Bool.and_comm _ _))
  rw [swap]
  by_cases here : id = transactionId
  · subst here
    have distinct : ((rows ++ [row]).map (·.2.stepId)).Nodup := by
      rw [← split]
      exact s.keys.sublist (List.filter_sublist.map _)
    have others : ∀ row' ∈ rows, (row'.2.stepId != row.2.stepId) = true := by
      intro row' mem
      rw [List.map_append,List.nodup_append] at distinct
      exact bne_iff_ne.mpr (distinct.2.2 _ (List.mem_map_of_mem mem) _ (by simp))
    rw [if_pos rfl,getSagaStack,split,List.filter_append,List.filter_eq_self.mpr others]
    simp
  · rw [if_neg here,getSagaStack]
    refine congrArg (List.map _) (List.filter_eq_self.mpr (fun row' mem => bne_iff_ne.mpr (fun same => here ?_)))
    obtain ⟨inside',own'⟩ := List.mem_filter.mp mem
    rw [← own,← sameRow inside' inside same]
    exact of_decide_eq_true own'

theorem popCases {r : Option SagaStepRecord} {s' : SqliteStateStore} {id : String} (popped : (r,s') = s.popSagaStep id) :
    r = none ∧ s' = s ∨
      ∃ step, r = some step ∧ (s.getSagaStack id).getLast? = some step ∧ s' = s.keepSteps (fun row => row.2.stepId != step.stepId) := by
  unfold popSagaStep at popped
  split at popped
  · cases popped
    exact .inl ⟨rfl,rfl⟩
  · rename_i step here
    cases popped
    exact .inr ⟨step,rfl,here,rfl⟩

end SqliteStateStore

/-- The store answers; clock, breakers, serializer and registered functions may answer anything. -/
def Performs (s : SqliteStateStore) : (op : Op Context Data) → Reply Context Data op → SqliteStateStore → Prop
  | .getTransaction transactionId, r, s' => r = .ok (s.getTransaction transactionId) ∧ s' = s
  | .createTransaction record, r, s' => (r,s') = s.createTransaction record
  | .updateTransaction record expectedVersion, r, s' => (r,s') = s.updateTransaction record expectedVersion
  | .pushSagaStep transactionId step, r, s' => (r,s') = s.pushSagaStep transactionId step
  | .getSagaStack transactionId, r, s' => r = .ok (s.getSagaStack transactionId) ∧ s' = s
  | .popSagaStep transactionId, r, s' => ∃ popped, r = .ok popped ∧ (popped,s') = s.popSagaStep transactionId
  | .listActiveTransactions machineId limit, r, s' => (∃ found, s.Lists machineId limit found ∧ r = .ok found) ∧ s' = s
  | .deleteTransaction transactionId, r, s' => r = .ok () ∧ s' = s.deleteTransaction transactionId
  | _, _, s' => s' = s

/-- What is registered, the clock, the breakers and the serializer, one answer for each request. -/
abbrev Surroundings (Context Data : Type) := (op : Op Context Data) → Reply Context Data op

def serve (user : Surroundings Context Data) (s : SqliteStateStore) : (op : Op Context Data) → Reply Context Data op × SqliteStateStore
  | .getTransaction transactionId => (.ok (s.getTransaction transactionId),s)
  | .createTransaction record => s.createTransaction record
  | .updateTransaction record expectedVersion => s.updateTransaction record expectedVersion
  | .pushSagaStep transactionId step => s.pushSagaStep transactionId step
  | .getSagaStack transactionId => (.ok (s.getSagaStack transactionId),s)
  | .popSagaStep transactionId => (.ok (s.popSagaStep transactionId).1,(s.popSagaStep transactionId).2)
  | .listActiveTransactions machineId limit =>
    let rows := ((s.transactions.map (·.2)).filter (SqliteStateStore.isActive machineId)).insertionSort (fun r r' => r'.updatedAt ≤ r.updatedAt)
    (.ok (if limit < 0 then rows else rows.take limit.toNat),s)
  | .deleteTransaction transactionId => (.ok (),s.deleteTransaction transactionId)
  | op => (user op,s)

theorem servePerforms (user : Surroundings Context Data) (s : SqliteStateStore) (op : Op Context Data) :
    Performs s op (serve user s op).1 (serve user s op).2 := by
  cases op with
  | listActiveTransactions machineId limit =>
    have total : Std.Total (fun r r' : TransactionRecord => r'.updatedAt ≤ r.updatedAt) := ⟨fun r r' => le_total _ _⟩
    have chains : IsTrans TransactionRecord (fun r r' => r'.updatedAt ≤ r.updatedAt) := ⟨fun _ _ _ first second => le_trans second first⟩
    exact ⟨⟨_,⟨_,List.perm_insertionSort _ _,List.pairwise_insertionSort _ _,rfl⟩,rfl⟩,rfl⟩
  | popSagaStep transactionId => exact ⟨_,rfl,rfl⟩
  | createTransaction record => rfl
  | updateTransaction record expectedVersion => rfl
  | pushSagaStep transactionId step => rfl
  | _ => first | exact ⟨rfl,rfl⟩ | exact rfl

end Dfsm.Csharp
