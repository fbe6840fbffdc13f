import Dfsm.Engine.Statechart
import Dfsm.Lib.Machine
import Mathlib.Data.List.Sort

/-! What the state stores keep and are asked, with the JSON values of records in whatever
form a store holds them. -/
namespace Dfsm.Stores

/-- A transaction; `Value` is a JSON value, or the column that holds it. -/
structure TransactionRecord (Value : Type) where
  transactionId : String
  machineId : String
  machineVersion : String
  actorId : String
  stateValue : Value
  context : Value
  status : TransactionStatus
  activeStep : Option Value
  lastError : Option String
  version : Int
  leaseOwner : Option String
  leaseExpiresAt : Option Int
  createdAt : Int
  updatedAt : Int

/-- `Omit<CompensationEntryRecord, "id" | "stepSeq">` -/
structure NewEntry (Value : Type) where
  transactionId : String
  transitionKey : String
  compensateKey : String
  fromState : Value
  inputSnapshot : Value
  contextBefore : Value
  createdAt : Int
  compensatedAt : Option Int

/-- Without the row handle `id` that some drivers add. -/
structure CompensationEntryRecord (Value : Type) extends NewEntry Value where
  stepSeq : Int

structure TransactionSnapshot (Value : Type) extends TransactionRecord Value where
  compensationStack : List (CompensationEntryRecord Value)

structure TransactionUpdatePatch (Value : Type) where
  stateValue : Option Value := none
  context : Option Value := none
  status : Option TransactionStatus := none
  activeStep : Option (Option Value) := none
  lastError : Option (Option String) := none
  leaseOwner : Option (Option String) := none
  leaseExpiresAt : Option (Option Int) := none
  updatedAt : Int

structure TransactionQueryFilter (Value : Type) where
  machineId : Option String := none
  actorId : Option String := none
  transactionIds : Option (List String) := none
  statuses : Option (List TransactionStatus) := none
  stuckBeforeTimestamp : Option Int := none
  olderThanTimestamp : Option Int := none
  stateEquals : Option Value := none
  limit : Option Int := none
  offset : Option Int := none

structure TransactionSummary (Value : Type) where
  transactionId : String
  machineId : String
  actorId : String
  stateValue : Value
  status : TransactionStatus
  context : Value
  isStuck : Bool
  activeStep : Option Value
  compensationDepth : Nat
  version : Int
  createdAt : Int
  updatedAt : Int

inductive Op (Value : Type) where
  | createTransaction (record : TransactionRecord Value)
  | getTransaction (transactionId : String)
  | updateTransaction (transactionId : String) (expectedVersion : Int) (patch : TransactionUpdatePatch Value)
      (appendCompensations : List (NewEntry Value))
  | getUncompensatedStack (transactionId : String)
  | markCompensationExecuted (transactionId : String) (stepSeq compensatedAt : Int)
  | countTransactions (filter : TransactionQueryFilter Value)
  | queryTransactions (filter : TransactionQueryFilter Value) (nowTimestamp stuckThresholdMs : Int)
  | deleteTransactions (transactionIds : List String)

/-- `duplicateKey` and `rejected` are errors of the database. -/
inductive StoreError where
  | duplicateKey (transactionId : String)
  | staleTransactionVersion (transactionId : String) (expectedVersion : Int)
  | rejected

inductive Result (Value : Type) where
  | done
  | found (snapshot : Option (TransactionSnapshot Value))
  | updated (version : Int)
  | stack (entries : List (CompensationEntryRecord Value))
  | count (number : Nat)
  | rows (summaries : List (TransactionSummary Value))
  | failed (error : StoreError)

variable {Value Column : Type}

/-- Descending `stepSeq`. -/
def lifo (entries : List (CompensationEntryRecord Value)) : List (CompensationEntryRecord Value) :=
  entries.insertionSort (fun a b => b.stepSeq ≤ a.stepSeq)

/-! Values going into columns, where a column may refuse one, and coming out of them. -/

/-- An optional value that is written where it is present. -/
def writeOption (write : Value → Option Column) : Option Value → Option (Option Column)
  | none => some none
  | some value => (write value).map some

def TransactionRecord.write (write : Value → Option Column) (record : TransactionRecord Value) : Option (TransactionRecord Column) := do
  let stateValue ← write record.stateValue
  let context ← write record.context
  let activeStep ← writeOption write record.activeStep
  pure { record with stateValue, context, activeStep }

def TransactionRecord.read (read : Column → Value) (row : TransactionRecord Column) : TransactionRecord Value :=
  { row with stateValue := read row.stateValue, context := read row.context, activeStep := row.activeStep.map read }

def NewEntry.write (write : Value → Option Column) (entry : NewEntry Value) : Option (NewEntry Column) := do
  let fromState ← write entry.fromState
  let inputSnapshot ← write entry.inputSnapshot
  let contextBefore ← write entry.contextBefore
  pure { entry with fromState, inputSnapshot, contextBefore }

def NewEntry.read (read : Column → Value) (row : NewEntry Column) : NewEntry Value :=
  { row with fromState := read row.fromState, inputSnapshot := read row.inputSnapshot, contextBefore := read row.contextBefore }

def CompensationEntryRecord.read (read : Column → Value) (row : CompensationEntryRecord Column) : CompensationEntryRecord Value :=
  { row.toNewEntry.read read with stepSeq := row.stepSeq }

def TransactionUpdatePatch.write (write : Value → Option Column) (patch : TransactionUpdatePatch Value) :
    Option (TransactionUpdatePatch Column) := do
  let stateValue ← writeOption write patch.stateValue
  let context ← writeOption write patch.context
  let activeStep ← writeOption (writeOption write) patch.activeStep
  pure { patch with stateValue, context, activeStep }

/-- The row after an update: one version on, with the fields the patch names. -/
def TransactionUpdatePatch.apply (patch : TransactionUpdatePatch Value) (nextVersion : Int) (row : TransactionRecord Value) :
    TransactionRecord Value :=
  { row with
    stateValue := patch.stateValue.getD row.stateValue
    context := patch.context.getD row.context
    status := patch.status.getD row.status
    activeStep := patch.activeStep.getD row.activeStep
    lastError := patch.lastError.getD row.lastError
    version := nextVersion
    leaseOwner := patch.leaseOwner.getD row.leaseOwner
    leaseExpiresAt := patch.leaseExpiresAt.getD row.leaseExpiresAt
    updatedAt := patch.updatedAt }

def summarize (row : TransactionRecord Value) (compensationDepth : Nat) (nowTimestamp stuckThresholdMs : Int) : TransactionSummary Value :=
  { row with
    isStuck := (row.status = .IN_FLIGHT || row.status = .COMPENSATING) && decide (stuckThresholdMs ≤ nowTimestamp - row.updatedAt)
    compensationDepth }

def TransactionUpdatePatch.read (read : Column → Value) (patch : TransactionUpdatePatch Column) : TransactionUpdatePatch Value :=
  { patch with
    stateValue := patch.stateValue.map read
    context := patch.context.map read
    activeStep := patch.activeStep.map (·.map read) }

def TransactionSnapshot.read (read : Column → Value) (snapshot : TransactionSnapshot Column) : TransactionSnapshot Value :=
  { snapshot.toTransactionRecord.read read with compensationStack := snapshot.compensationStack.map (·.read read) }

def TransactionSummary.read (read : Column → Value) (summary : TransactionSummary Column) : TransactionSummary Value :=
  { summary with
    stateValue := read summary.stateValue, context := read summary.context, activeStep := summary.activeStep.map read }

def Result.read (read : Column → Value) : Result Column → Result Value
  | .done => .done
  | .found snapshot => .found (snapshot.map (·.read read))
  | .updated version => .updated version
  | .stack entries => .stack (entries.map (·.read read))
  | .count number => .count number
  | .rows summaries => .rows (summaries.map (·.read read))
  | .failed error => .failed error

/-! A value is kept where it comes back with the meaning it was written with. -/
section Kept
variable {Meaning : Type} (write : Value → Option Column) (read : Column → Value) (meaning : Value → Meaning)

def Kept (value : Value) : Prop := ∃ column, write value = some column ∧ meaning (read column) = meaning value

def TransactionRecord.values (record : TransactionRecord Value) : List Value :=
  [record.stateValue,record.context] ++ record.activeStep.toList

def NewEntry.values (entry : NewEntry Value) : List Value := [entry.fromState,entry.inputSnapshot,entry.contextBefore]

def TransactionUpdatePatch.values (patch : TransactionUpdatePatch Value) : List Value :=
  patch.stateValue.toList ++ patch.context.toList ++ (patch.activeStep.bind id).toList

variable {write read meaning}

theorem keptOption {value : Option Value} (kept : ∀ v ∈ value.toList, Kept write read meaning v) :
    ∃ column, writeOption write value = some column ∧ column.map (fun c => meaning (read c)) = value.map meaning ∧
      ∀ v, value = some v → column = write v := by
  cases value with
  | none => exact ⟨none,rfl,rfl,fun v eq => nomatch eq⟩
  | some v =>
    obtain ⟨c,written,same⟩ := kept v (by simp)
    refine ⟨some c,by simp [writeOption,written],by simp [same],?_⟩
    intro w eq
    rw [← Option.some.inj eq,written]

theorem keptOptions {value : Option (Option Value)} (kept : ∀ v ∈ (value.bind id).toList, Kept write read meaning v) :
    ∃ column, writeOption (writeOption write) value = some column ∧
      column.map (·.map (fun c => meaning (read c))) = value.map (·.map meaning) := by
  cases value with
  | none => exact ⟨none,rfl,rfl⟩
  | some inner =>
    have inside : ∀ v ∈ inner.toList, Kept write read meaning v := kept
    obtain ⟨c,written,same,_⟩ := keptOption inside
    refine ⟨some c,?_,by simp [same]⟩
    rw [writeOption,written,Option.map_some]

theorem TransactionRecord.keptWrite {record : TransactionRecord Value} (kept : ∀ v ∈ record.values, Kept write read meaning v) :
    ∃ row, record.write write = some row ∧ row.read (fun c => meaning (read c)) = record.read meaning ∧
      write record.stateValue = some row.stateValue := by
  obtain ⟨state,wroteState,sameState⟩ := kept record.stateValue (by simp [values])
  obtain ⟨context,wroteContext,sameContext⟩ := kept record.context (by simp [values])
  obtain ⟨step,wroteStep,sameStep,_⟩ := keptOption (fun v member => kept v (List.mem_append_right _ member))
  refine ⟨{ record with stateValue := state, context, activeStep := step },?_,?_,wroteState⟩
  · simp [TransactionRecord.write,wroteState,wroteContext,wroteStep]
  · simp [TransactionRecord.read,sameState,sameContext,sameStep]

theorem NewEntry.keptWrite {entry : NewEntry Value} (kept : ∀ v ∈ entry.values, Kept write read meaning v) :
    ∃ row, entry.write write = some row ∧ row.read (fun c => meaning (read c)) = entry.read meaning := by
  obtain ⟨state,wroteState,sameState⟩ := kept entry.fromState (by simp [values])
  obtain ⟨input,wroteInput,sameInput⟩ := kept entry.inputSnapshot (by simp [values])
  obtain ⟨context,wroteContext,sameContext⟩ := kept entry.contextBefore (by simp [values])
  refine ⟨{ entry with fromState := state, inputSnapshot := input, contextBefore := context },?_,?_⟩
  · simp [NewEntry.write,wroteState,wroteInput,wroteContext]
  · simp [NewEntry.read,sameState,sameInput,sameContext]

theorem TransactionUpdatePatch.keptWrite {patch : TransactionUpdatePatch Value} (kept : ∀ v ∈ patch.values, Kept write read meaning v) :
    ∃ set, patch.write write = some set ∧ set.read (fun c => meaning (read c)) = patch.read meaning ∧
      ∀ v, patch.stateValue = some v → set.stateValue = write v := by
  obtain ⟨state,wroteState,sameState,stateIs⟩ := keptOption (fun v member => kept v (List.mem_append_left _ (List.mem_append_left _ member)))
  obtain ⟨context,wroteContext,sameContext,_⟩ := keptOption (fun v member => kept v (List.mem_append_left _ (List.mem_append_right _ member)))
  obtain ⟨step,wroteStep,sameStep⟩ := keptOptions (fun v member => kept v (List.mem_append_right _ member))
  refine ⟨{ patch with stateValue := state, context, activeStep := step },?_,?_,stateIs⟩
  · simp [TransactionUpdatePatch.write,wroteState,wroteContext,wroteStep]
  · simp [TransactionUpdatePatch.read,sameState,sameContext,sameStep]

theorem TransactionUpdatePatch.keptState {patch : TransactionUpdatePatch Value} {set : TransactionUpdatePatch Column}
    (same : set.read (fun c => meaning (read c)) = patch.read meaning) (state : ∀ v, patch.stateValue = some v → set.stateValue = write v)
    {value : Value} {stored : Column} (held : write value = some stored) :
    write (patch.stateValue.getD value) = some (set.stateValue.getD stored) := by
  have unset := congrArg (·.stateValue) same
  simp only [TransactionUpdatePatch.read] at unset
  cases new : patch.stateValue with
  | none =>
    rw [new,Option.map_none,Option.map_eq_none_iff] at unset
    rw [unset]
    exact held
  | some v =>
    have set' := state v new
    rw [new] at unset
    cases column : set.stateValue with
    | none => rw [column] at unset; exact nomatch unset
    | some c => rw [column] at set'; exact set'.symm

end Kept

theorem applyRead (read : Column → Value) (patch : TransactionUpdatePatch Column) (nextVersion : Int) (row : TransactionRecord Column) :
    (patch.apply nextVersion row).read read = (patch.read read).apply nextVersion (row.read read) := by
  unfold TransactionUpdatePatch.apply TransactionUpdatePatch.read TransactionRecord.read
  cases patch.stateValue <;> cases patch.context <;> cases patch.activeStep <;> rfl

theorem summaryRead (read : Column → Value) (row : TransactionRecord Column) (compensationDepth : Nat) (nowTimestamp stuckThresholdMs : Int) :
    (summarize row compensationDepth nowTimestamp stuckThresholdMs).read read =
      summarize (row.read read) compensationDepth nowTimestamp stuckThresholdMs := rfl

/-- Rows in an order of their age; the database is free among rows of one age. -/
structure ByAge (Row : Type) (age : Row → Int) where
  arrange : List Row → List Row
  perm : ∀ rows, (arrange rows).Perm rows
  sorted : ∀ rows, (arrange rows).Pairwise (fun a b => age a ≤ age b)

def oldest {Row : Type} (age : Row → Int) : ByAge Row age where
  arrange rows := rows.insertionSort (fun a b => age a ≤ age b)
  perm := List.perm_insertionSort _
  sorted rows :=
    haveI : IsTrans Row (fun a b => age a ≤ age b) := ⟨fun _ _ _ => Int.le_trans⟩
    haveI : Std.Total (fun a b : Row => age a ≤ age b) := ⟨fun _ _ => Int.le_total _ _⟩
    List.pairwise_insertionSort _ rows

end Dfsm.Stores
