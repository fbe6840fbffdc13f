import Dfsm.Stores.Sql
import Dfsm.Lib.Paired

/-! What every store keeps, apart from how it keeps it: each transaction with the entries of
its stack, oldest first. -/
namespace Dfsm.Stores

variable {Value : Type}

def countUp (first : Int) : Nat → List Int
  | 0 => []
  | n+1 => first::countUp (first + 1) n

@[simp] theorem countUpLength (first : Int) (n : Nat) : (countUp first n).length = n := by
  induction n generalizing first with
  | zero => rfl
  | succ n ih => exact congrArg (· + 1) (ih (first + 1))

theorem countUpAdd (first : Int) (m n : Nat) : countUp first (m + n) = countUp first m ++ countUp (first + m) n := by
  induction m generalizing first with
  | zero => simp [countUp]
  | succ m ih =>
    rw [Nat.succ_add_eq_add_succ,Nat.add_succ,countUp,ih (first + 1),countUp,List.cons_append]
    congr 3
    push_cast
    omega

theorem countUpAbove {first k : Int} {n : Nat} (member : k ∈ countUp first n) : first ≤ k := by
  induction n generalizing first with
  | zero => exact absurd member List.not_mem_nil
  | succ n ih =>
    rcases List.mem_cons.mp member with rfl|later
    · exact le_refl _
    · have above := ih later
      omega

theorem countUpAscends (first : Int) (n : Nat) : (countUp first n).Pairwise (· < ·) := by
  induction n generalizing first with
  | zero => exact .nil
  | succ n ih =>
    refine List.pairwise_cons.mpr ⟨?_,ih (first + 1)⟩
    intro k member
    have above := countUpAbove member
    omega

/-- The entries of a stack carry the numbers 1, 2, 3, ... -/
def Numbered (entries : List (CompensationEntryRecord Value)) : Prop := entries.map (·.stepSeq) = countUp 1 entries.length

theorem numberedAscends {entries : List (CompensationEntryRecord Value)} (numbered : Numbered entries) :
    entries.Pairwise (fun a b => a.stepSeq < b.stepSeq) := by
  have ascends := countUpAscends 1 entries.length
  rw [← numbered] at ascends
  exact List.pairwise_map.mp ascends

theorem appendedNumbered {entries inserted : List (CompensationEntryRecord Value)} (numbered : Numbered entries)
    (seqs : inserted.map (·.stepSeq) = countUp (entries.length + 1) inserted.length) : Numbered (entries ++ inserted) := by
  rw [Numbered,List.map_append,numbered,seqs,List.length_append,countUpAdd,Int.add_comm 1]

theorem insertedLast {e : CompensationEntryRecord Value} {entries : List (CompensationEntryRecord Value)}
    (above : ∀ x ∈ entries, e.stepSeq < x.stepSeq) :
    entries.orderedInsert (fun a b => b.stepSeq ≤ a.stepSeq) e = entries ++ [e] := by
  induction entries with
  | nil => rfl
  | cons first rest ih =>
    have here := above first List.mem_cons_self
    rw [List.orderedInsert,if_neg (by omega),ih (fun x member => above x (List.mem_cons_of_mem _ member)),List.cons_append]

theorem lifoReverse {entries : List (CompensationEntryRecord Value)} (ascends : entries.Pairwise (fun a b => a.stepSeq < b.stepSeq)) :
    lifo entries = entries.reverse := by
  induction ascends with
  | nil => rfl
  | cons above rest ih =>
    rw [lifo,List.insertionSort_cons,← lifo,ih,List.reverse_cons]
    exact insertedLast (fun x member => above x (List.mem_reverse.mp member))

/-- Whatever is asked: a stack is numbered 1, 2, 3, ..., an accepted update takes the version
it expects one on and no other transaction's, and a rejected one changes nothing. -/
structure Disciplined (store : Machine (Op Value) (Result Value)) (version : store.State → String → Option Int)
    (stepSeqs : store.State → String → List Int) : Prop where
  numbered : ∀ ops transactionId, ∃ n, stepSeqs (store.after ops) transactionId = countUp 1 n
  update : ∀ ops transactionId expectedVersion patch items,
    let before := store.after ops
    let answer := store.step before (.updateTransaction transactionId expectedVersion patch items)
    (answer.1 = .updated (expectedVersion + 1) ∧ version before transactionId = some expectedVersion ∧
      version answer.2 transactionId = some (expectedVersion + 1) ∧
      ∀ other, other ≠ transactionId → version answer.2 other = version before other) ∨
    (∃ error, answer.1 = .failed error) ∧ answer.2 = before

theorem pagePaired {α β : Type} {R : α → β → Prop} {xs : List α} {ys : List β} (paired : List.Forall₂ R xs ys) (limit offset : Option Int) :
    List.Forall₂ R (Tables.page limit offset xs) (Tables.page limit offset ys) := by
  unfold Tables.page
  cases limit with
  | none => exact List.forall₂_drop _ paired
  | some limit => exact List.forall₂_take _ (List.forall₂_drop _ paired)

abbrev Ledger (Value : Type) : Type := List (TransactionSnapshot Value)

namespace Ledger
variable (ledger : Ledger Value)

def account (transactionId : String) : Option (TransactionSnapshot Value) := ledger.find? (·.transactionId = transactionId)

def stack (transactionId : String) : List (CompensationEntryRecord Value) :=
  (ledger.account transactionId).elim [] (·.compensationStack)

def change (transactionId : String) (f : TransactionSnapshot Value → TransactionSnapshot Value) : Ledger Value :=
  ledger.map (fun d => if d.transactionId = transactionId then f d else d)

/-- The entries that come onto a stack, numbered on. -/
def pushed (transactionId : String) (next : Int) : List (NewEntry Value) → List (CompensationEntryRecord Value)
  | [] => []
  | c::rest => { c with transactionId, stepSeq := next }::pushed transactionId (next + 1) rest

def pushOnto (patch : TransactionUpdatePatch Value) (nextVersion : Int) (appendCompensations : List (NewEntry Value))
    (d : TransactionSnapshot Value) : TransactionSnapshot Value :=
  { patch.apply nextVersion d.toTransactionRecord with
    compensationStack := d.compensationStack ++ pushed d.transactionId (d.compensationStack.length + 1) appendCompensations }

def marked (stepSeq compensatedAt : Int) (e : CompensationEntryRecord Value) : CompensationEntryRecord Value :=
  if e.stepSeq = stepSeq then { e with compensatedAt := some compensatedAt } else e

@[simp] theorem pushOntoId (patch : TransactionUpdatePatch Value) (nextVersion : Int) (items : List (NewEntry Value)) (d : TransactionSnapshot Value) :
    (pushOnto patch nextVersion items d).transactionId = d.transactionId := rfl

def markOnto (stepSeq compensatedAt : Int) (d : TransactionSnapshot Value) : TransactionSnapshot Value :=
  { d with compensationStack := d.compensationStack.map (marked stepSeq compensatedAt) }

@[simp] theorem markOntoId (stepSeq compensatedAt : Int) (d : TransactionSnapshot Value) :
    (markOnto stepSeq compensatedAt d).transactionId = d.transactionId := rfl

def createTransaction (record : TransactionRecord Value) : Result Value × Ledger Value :=
  if (ledger.account record.transactionId).isSome then (.failed (.duplicateKey record.transactionId),ledger)
  else (.done,ledger ++ [{ record with compensationStack := [] }])

def getTransaction (transactionId : String) : Result Value × Ledger Value :=
  (.found ((ledger.account transactionId).map (fun d => { d with compensationStack := d.compensationStack.reverse })),ledger)

def updateTransaction (transactionId : String) (expectedVersion : Int) (patch : TransactionUpdatePatch Value)
    (appendCompensations : List (NewEntry Value)) : Result Value × Ledger Value :=
  if (ledger.account transactionId).any (·.version = expectedVersion) then
    (.updated (expectedVersion + 1),ledger.change transactionId (pushOnto patch (expectedVersion + 1) appendCompensations))
  else (.failed (.staleTransactionVersion transactionId expectedVersion),ledger)

def getUncompensatedStack (transactionId : String) : Result Value × Ledger Value :=
  (.stack ((ledger.stack transactionId).filter (·.compensatedAt.isNone)).reverse,ledger)

def markCompensationExecuted (transactionId : String) (stepSeq compensatedAt : Int) : Result Value × Ledger Value :=
  (.done,ledger.change transactionId (markOnto stepSeq compensatedAt))

def deleteTransactions (transactionIds : List String) : Result Value × Ledger Value :=
  (.count (ledger.filter (fun d => transactionIds.contains d.transactionId)).length,
    ledger.filter (fun d => !transactionIds.contains d.transactionId))

def oldestFirst : Ledger Value := ledger.insertionSort (fun a b => a.updatedAt ≤ b.updatedAt)

section Questions
variable [DecidableEq Value]

def matching (filter : TransactionQueryFilter Value) : Ledger Value :=
  ledger.filter (fun d => Tables.whereClause filter filter.stateEquals d.toTransactionRecord)

def countTransactions (filter : TransactionQueryFilter Value) : Result Value × Ledger Value := (.count (ledger.matching filter).length,ledger)

def queryTransactions (filter : TransactionQueryFilter Value) (nowTimestamp stuckThresholdMs : Int) : Result Value × Ledger Value :=
  (.rows ((Tables.page filter.limit filter.offset (ledger.matching filter).oldestFirst).map (fun d =>
    summarize d.toTransactionRecord (d.compensationStack.filter (·.compensatedAt.isNone)).length nowTimestamp stuckThresholdMs)),ledger)

def step : Op Value → Result Value × Ledger Value
  | .createTransaction record => ledger.createTransaction record
  | .getTransaction transactionId => ledger.getTransaction transactionId
  | .updateTransaction transactionId expectedVersion patch appendCompensations =>
    ledger.updateTransaction transactionId expectedVersion patch appendCompensations
  | .getUncompensatedStack transactionId => ledger.getUncompensatedStack transactionId
  | .markCompensationExecuted transactionId stepSeq compensatedAt => ledger.markCompensationExecuted transactionId stepSeq compensatedAt
  | .countTransactions filter => ledger.countTransactions filter
  | .queryTransactions filter nowTimestamp stuckThresholdMs => ledger.queryTransactions filter nowTimestamp stuckThresholdMs
  | .deleteTransactions transactionIds => ledger.deleteTransactions transactionIds

def machine (Value : Type) [DecidableEq Value] : Machine (Op Value) (Result Value) where
  State := Ledger Value
  init := []
  step ledger op := ledger.step op

end Questions

/-- One account a transaction, each with a numbered stack. -/
structure Sound : Prop where
  once : (ledger.map (·.transactionId)).Nodup
  numbered : ∀ d ∈ ledger, Numbered d.compensationStack

variable {ledger}

theorem accountMem {transactionId : String} {d : TransactionSnapshot Value} (found : ledger.account transactionId = some d) :
    d ∈ ledger ∧ d.transactionId = transactionId :=
  ⟨List.mem_of_find?_eq_some found,by simpa using List.find?_some found⟩

theorem Sound.account (sound : ledger.Sound) {d : TransactionSnapshot Value} (member : d ∈ ledger) :
    ledger.account d.transactionId = some d := by
  cases found : ledger.account d.transactionId with
  | none => exact absurd (decide_eq_true (rfl : d.transactionId = d.transactionId)) (List.find?_eq_none.mp found d member)
  | some other =>
    obtain ⟨here,same⟩ := accountMem found
    rw [List.inj_on_of_nodup_map sound.once here member same]

theorem Sound.stack (sound : ledger.Sound) {d : TransactionSnapshot Value} (member : d ∈ ledger) :
    ledger.stack d.transactionId = d.compensationStack := by
  rw [Ledger.stack,sound.account member,Option.elim_some]

theorem Sound.stackNumbered (sound : ledger.Sound) (transactionId : String) : Numbered (ledger.stack transactionId) := by
  unfold Ledger.stack
  cases found : ledger.account transactionId with
  | none => rfl
  | some d => exact sound.numbered d (accountMem found).1

theorem pushedSeqs (transactionId : String) (next : Int) (items : List (NewEntry Value)) :
    (pushed transactionId next items).map (·.stepSeq) = countUp next items.length := by
  induction items generalizing next with
  | nil => rfl
  | cons c rest ih => exact congrArg (next::·) (ih (next + 1))

theorem pushedNumbered {entries : List (CompensationEntryRecord Value)} (numbered : Numbered entries) (transactionId : String)
    (items : List (NewEntry Value)) : Numbered (entries ++ pushed transactionId (entries.length + 1) items) := by
  have count : (pushed transactionId (entries.length + 1) items).length = items.length := by
    simpa using congrArg List.length (pushedSeqs transactionId (entries.length + 1) items)
  rw [Numbered,List.map_append,numbered,pushedSeqs,List.length_append,count,countUpAdd,Int.add_comm 1]

theorem Sound.change (sound : ledger.Sound) {transactionId : String} {f : TransactionSnapshot Value → TransactionSnapshot Value}
    (same : ∀ d, (f d).transactionId = d.transactionId)
    (numbered : ∀ d ∈ ledger, Numbered d.compensationStack → Numbered (f d).compensationStack) : (ledger.change transactionId f).Sound := by
  constructor
  · have ids : (ledger.change transactionId f).map (·.transactionId) = ledger.map (·.transactionId) := by
      rw [Ledger.change,List.map_map]
      refine List.map_congr_left (fun d _ => ?_)
      by_cases here : d.transactionId = transactionId
      · simp [here,same]
      · simp [here]
    exact ids ▸ sound.once
  · intro d member
    obtain ⟨d',member',rfl⟩ := List.mem_map.mp member
    split
    · exact numbered d' member' (sound.numbered d' member')
    · exact sound.numbered d' member'

theorem markedNumbered {entries : List (CompensationEntryRecord Value)} (numbered : Numbered entries) (stepSeq compensatedAt : Int) :
    Numbered (entries.map (marked stepSeq compensatedAt)) := by
  have same : (entries.map (marked stepSeq compensatedAt)).map (·.stepSeq) = entries.map (·.stepSeq) := by
    rw [List.map_map]
    refine List.map_congr_left (fun e _ => ?_)
    unfold Function.comp marked
    split <;> rfl
  rw [Numbered,same,numbered,List.length_map]

theorem markedRead {Meaning : Type} (meaning : Value → Meaning) (stepSeq compensatedAt : Int) (entries : List (CompensationEntryRecord Value)) :
    (entries.map (marked stepSeq compensatedAt)).map (·.read meaning) = (entries.map (·.read meaning)).map (marked stepSeq compensatedAt) := by
  rw [List.map_map,List.map_map]
  refine List.map_congr_left (fun e _ => ?_)
  unfold Function.comp marked
  split <;> rename_i here
  · exact (if_pos here).symm
  · exact (if_neg here).symm

theorem Sound.create (sound : ledger.Sound) (record : TransactionRecord Value) : (ledger.createTransaction record).2.Sound := by
  unfold createTransaction
  split
  · exact sound
  · rename_i free
    constructor
    · rw [List.map_append]
      refine List.nodup_append.mpr ⟨sound.once,by simp,?_⟩
      rintro id member _ last rfl
      obtain ⟨d,here,rfl⟩ := List.mem_map.mp member
      have same : d.transactionId = record.transactionId := by simpa using last
      exact free (by rw [← same,sound.account here]; rfl)
    · intro d member
      rcases List.mem_append.mp member with old|new
      · exact sound.numbered d old
      · rw [List.mem_singleton.mp new]
        rfl

theorem Sound.delete (sound : ledger.Sound) (transactionIds : List String) : (ledger.deleteTransactions transactionIds).2.Sound :=
  ⟨sound.once.sublist (List.filter_sublist.map _),fun d member => sound.numbered d (List.mem_filter.mp member).1⟩

theorem deleteStack (transactionIds : List String) (id : String) :
    (ledger.deleteTransactions transactionIds).2.stack id = if transactionIds.contains id then [] else ledger.stack id := by
  rw [deleteTransactions,stack,account,List.find?_filter]
  simp only [Bool.decide_and,Bool.decide_eq_true]
  split
  · rename_i gone
    have none : ledger.find? (fun d => (!transactionIds.contains d.transactionId) && decide (d.transactionId = id)) = none := by
      refine List.find?_eq_none.mpr (fun d _ both => ?_)
      obtain ⟨kept,same⟩ := Bool.and_eq_true_iff.mp both
      rw [of_decide_eq_true same,gone] at kept
      exact nomatch kept
    rw [none,Option.elim_none]
  · rename_i kept
    have same : (fun d : TransactionSnapshot Value => (!transactionIds.contains d.transactionId) && decide (d.transactionId = id)) =
        fun d => decide (d.transactionId = id) := by
      funext d
      by_cases here : d.transactionId = id
      · rw [here,Bool.eq_false_iff.mpr kept]
        rfl
      · rw [decide_eq_false here,Bool.and_false]
    rw [same,← account,← stack]

theorem Sound.step [DecidableEq Value] (sound : ledger.Sound) (op : Op Value) : (ledger.step op).2.Sound := by
  cases op with
  | createTransaction record => exact sound.create record
  | updateTransaction transactionId expectedVersion patch appendCompensations =>
    simp only [Ledger.step,updateTransaction]
    split
    · exact sound.change (pushOntoId patch _ _) (fun d _ numbered => pushedNumbered numbered d.transactionId appendCompensations)
    · exact sound
  | markCompensationExecuted transactionId stepSeq compensatedAt =>
    exact sound.change (markOntoId _ _) (fun d _ numbered => markedNumbered numbered stepSeq compensatedAt)
  | deleteTransactions transactionIds => exact sound.delete transactionIds
  | getTransaction _ | getUncompensatedStack _ | countTransactions _ | queryTransactions _ _ _ => exact sound

theorem changeAccount {transactionId : String} {f : TransactionSnapshot Value → TransactionSnapshot Value}
    (same : ∀ d, (f d).transactionId = d.transactionId) (id : String) :
    (ledger.change transactionId f).account id = (ledger.account id).map (fun d => if d.transactionId = transactionId then f d else d) := by
  refine Paired.findKeyed (fun d => ?_) ledger id
  split
  · exact same d
  · rfl

theorem changeStackOther {transactionId : String} {f : TransactionSnapshot Value → TransactionSnapshot Value}
    (same : ∀ d, (f d).transactionId = d.transactionId) {id : String} (other : id ≠ transactionId) :
    (ledger.change transactionId f).stack id = ledger.stack id := by
  rw [stack,changeAccount same,stack]
  cases found : ledger.account id with
  | none => rfl
  | some d =>
    obtain ⟨_,rfl⟩ := accountMem found
    rw [Option.map_some,if_neg other]

theorem changeStackHere {transactionId : String} {f : TransactionSnapshot Value → TransactionSnapshot Value}
    (same : ∀ d, (f d).transactionId = d.transactionId) {d : TransactionSnapshot Value} (found : ledger.account transactionId = some d) :
    (ledger.change transactionId f).stack transactionId = (f d).compensationStack := by
  rw [stack,changeAccount same,found,Option.map_some,if_pos (accountMem found).2,Option.elim_some]

end Ledger
end Dfsm.Stores
