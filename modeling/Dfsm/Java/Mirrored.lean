import Dfsm.Java.Kept
import Dfsm.Lib.Machine
import Mathlib.Algebra.GroupWithZero.Nat
import Mathlib.Data.List.Range

/-! The tables of H2 against the documents of MongoDB: one answer to every request, as long as
what is written fits the columns. -/
namespace Dfsm.Java

variable {Context Data S : Type}

/-- What a store is asked; a filter may be `null`, and so may the version that a deletion expects. -/
inductive StoreRequest (Context Data : Type) where
  | createTransaction (record : TransactionRecord Context Data)
  | updateTransaction (transactionId : String) (expectedVersion : Nat) (patch : TransactionPatch Context Data)
      (appendCompensations : List (NewCompensationEntry Context Data))
  | markCompensationExecuted (transactionId : String) (stepSeq : Nat) (compensatedAt : Int)
  | deleteTransaction (transactionId : String) (expectedVersion : Option Nat)
  | getTransaction (transactionId : String)
  | getUncompensatedStack (transactionId : String)
  | countInFlight (f : Option InFlightFilter) (nowEpochMs stuckThresholdMs : Int)
  | listInFlight (f : Option InFlightFilter) (nowEpochMs stuckThresholdMs : Int)
  | countByStatuses (f : Option StatusQueryFilter)
  | listByStatuses (f : Option StatusQueryFilter) (nowEpochMs stuckThresholdMs : Int)

inductive StoreResult (Context Data : Type) where
  | created (r : Except Throwable Unit)
  | updated (r : Except Throwable Nat)
  | marked
  | deleted (r : Except Throwable Bool)
  | transaction (snapshot : Option (TransactionSnapshot Context Data))
  | stack (entries : List (CompensationEntryRecord Context Data))
  | count (n : Nat)
  | summaries (items : List (TransactionSummary Context Data))

/-- `f == null || …` -/
def InFlightFilter.orAll (f : Option InFlightFilter) : InFlightFilter :=
  f.getD { machineId := none, actorId := none, stuckOnly := false, includeCompensating := true, stateEquals := none, limit := 200, offset := 0 }

def StatusQueryFilter.orAll (f : Option StatusQueryFilter) : StatusQueryFilter :=
  f.getD { machineId := none, actorId := none, statuses := [], updatedBeforeEpochMs := none, limit := 200, offset := 0 }

/-- `String.length()` -/
def utf16Length (text : String) : Nat := (text.toList.map (fun c => if c.toNat < 0x10000 then 1 else 2)).sum

/-- What a column `VARCHAR(width)` takes. -/
def varchar (width : Nat) (text : String) : Bool := utf16Length text ≤ width

def TransactionRecord.fits (record : TransactionRecord Context Data) : Bool :=
  varchar 255 record.transactionId && varchar 255 record.machineId && varchar 64 record.machineVersion &&
    varchar 255 record.actorId && record.leaseOwner.all (varchar 255)

def TransactionPatch.fits (patch : TransactionPatch Context Data) : Bool :=
  patch.lease.all (fun lease => lease.1.all (varchar 255))

def NewCompensationEntry.fits (entry : NewCompensationEntry Context Data) : Bool :=
  varchar 255 entry.transitionKey && varchar 255 entry.compensateKey

namespace H2StateStore

/-- `createTransaction`, into columns of their widths. -/
def insert (store : H2StateStore Context Data) (record : TransactionRecord Context Data) : Except Throwable Unit × H2StateStore Context Data :=
  if record.fits then store.createTransaction record
  else (.error (.thrown (some s!"Failed to create transaction '{record.transactionId}'")),store)

/-- What the driver says of a value that is too long for its column. -/
abbrev DriverText (Context Data : Type) : Type := TransactionPatch Context Data → List (NewCompensationEntry Context Data) → String

/-- `updateTransaction`, into columns of their widths: of a row at another version nothing is
written, and what does not fit is rolled back. -/
def update (driverText : DriverText Context Data) (store : H2StateStore Context Data) (transactionId : String) (expectedVersion : Nat)
    (patch : TransactionPatch Context Data) (appendCompensations : List (NewCompensationEntry Context Data)) :
    Except Throwable Nat × H2StateStore Context Data :=
  match (store.row transactionId).filter (·.version = expectedVersion) with
  | none => (.error (.staleTransactionVersion transactionId expectedVersion),store)
  | some _ =>
    if patch.fits && appendCompensations.all (·.fits) then store.updateTransaction transactionId expectedVersion patch appendCompensations
    else (.error (.thrown (some (driverText patch appendCompensations))),store)

/-- With `null` for the version, `WHERE transaction_id = ?` alone: the row goes at whatever version it is. -/
def delete (store : H2StateStore Context Data) (transactionId : String) (expectedVersion : Option Nat) :
    Except Throwable Bool × H2StateStore Context Data :=
  match expectedVersion with
  | some version => store.deleteTransaction transactionId version
  | none => match store.row transactionId with
    | none => (.ok false,store)
    | some row => store.deleteTransaction transactionId row.version

def answer (driverText : DriverText Context Data) (store : H2StateStore Context Data) :
    StoreRequest Context Data → StoreResult Context Data × H2StateStore Context Data
  | .createTransaction record => (.created (store.insert record).1,(store.insert record).2)
  | .updateTransaction transactionId expectedVersion patch append =>
    (.updated (store.update driverText transactionId expectedVersion patch append).1,
      (store.update driverText transactionId expectedVersion patch append).2)
  | .markCompensationExecuted transactionId stepSeq compensatedAt =>
    (.marked,store.markCompensationExecuted transactionId stepSeq compensatedAt)
  | .deleteTransaction transactionId expectedVersion =>
    (.deleted (store.delete transactionId expectedVersion).1,(store.delete transactionId expectedVersion).2)
  | .getTransaction transactionId => (.transaction (store.getTransaction transactionId),store)
  | .getUncompensatedStack transactionId => (.stack (store.getUncompensatedStack transactionId),store)
  | .countInFlight f nowEpochMs stuckThresholdMs =>
    (.count (store.transactions.filter (inFlightWhere (.orAll f) nowEpochMs stuckThresholdMs)).length,store)
  | .listInFlight f nowEpochMs stuckThresholdMs => (.summaries (store.listInFlight (.orAll f) nowEpochMs stuckThresholdMs),store)
  | .countByStatuses f => (.count (store.transactions.filter (statusWhere (.orAll f))).length,store)
  | .listByStatuses f nowEpochMs stuckThresholdMs => (.summaries (store.listByStatuses (.orAll f) nowEpochMs stuckThresholdMs),store)

def machine (driverText : DriverText Context Data) : Machine (StoreRequest Context Data) (StoreResult Context Data) where
  State := H2StateStore Context Data
  init := ⟨[],[],List.nodup_nil⟩
  step := answer driverText

end H2StateStore

namespace MongoStateStore

/-- With `null` for the version, `eq("_id", transactionId)` alone. -/
def delete (store : MongoStateStore Context Data) (transactionId : String) (expectedVersion : Option Nat) :
    Except Throwable Bool × MongoStateStore Context Data :=
  match expectedVersion with
  | some version => store.deleteTransaction transactionId version
  | none => match store.findOne transactionId with
    | none => (.ok false,store)
    | some doc => store.deleteTransaction transactionId doc.version

def answer (oldest : Oldest Context Data) (store : MongoStateStore Context Data) :
    StoreRequest Context Data → StoreResult Context Data × MongoStateStore Context Data
  | .createTransaction record => (.created (store.createTransaction record).1,(store.createTransaction record).2)
  | .updateTransaction transactionId expectedVersion patch append =>
    (.updated (store.updateTransaction transactionId expectedVersion patch append).1,
      (store.updateTransaction transactionId expectedVersion patch append).2)
  | .markCompensationExecuted transactionId stepSeq compensatedAt =>
    (.marked,store.markCompensationExecuted transactionId stepSeq compensatedAt)
  | .deleteTransaction transactionId expectedVersion =>
    (.deleted (store.delete transactionId expectedVersion).1,(store.delete transactionId expectedVersion).2)
  | .getTransaction transactionId => (.transaction (store.findOne transactionId),store)
  | .getUncompensatedStack transactionId => (.stack (store.getUncompensatedStack transactionId),store)
  | .countInFlight f nowEpochMs stuckThresholdMs =>
    (.count (store.documents.filter (fun doc => inFlightBson (.orAll f) nowEpochMs stuckThresholdMs doc.toTransactionRecord)).length,store)
  | .listInFlight f nowEpochMs stuckThresholdMs => (.summaries (store.listInFlight oldest (.orAll f) nowEpochMs stuckThresholdMs),store)
  | .countByStatuses f => (.count (store.documents.filter (fun doc => statusBson (.orAll f) doc.toTransactionRecord)).length,store)
  | .listByStatuses f nowEpochMs stuckThresholdMs =>
    (.summaries (store.listByStatuses oldest (.orAll f) nowEpochMs stuckThresholdMs),store)

def machine (oldest : Oldest Context Data) : Machine (StoreRequest Context Data) (StoreResult Context Data) where
  State := MongoStateStore Context Data
  init := ⟨[],List.nodup_nil⟩
  step := answer oldest

end MongoStateStore

namespace H2StateStore
variable {store : H2StateStore Context Data} {t id : String}

/-- A stack belongs to a row, and is numbered 1, 2, 3, …. -/
structure Sound (store : H2StateStore Context Data) : Prop where
  owned : ∀ t, store.row t = none → store.entries t = []
  numbered : ∀ t, (store.entries t).map (·.stepSeq) = List.range' 1 (store.entries t).length

theorem numberedSteps (id : String) (append : List (NewCompensationEntry Context Data)) (next : Nat) :
    (numbered id next append).map (·.stepSeq) = List.range' next append.length ∧ (numbered id next append).length = append.length := by
  induction append generalizing next with
  | nil => exact ⟨rfl,rfl⟩
  | cons c rest ih =>
    obtain ⟨steps,length⟩ := ih (next + 1)
    exact ⟨congrArg (next :: ·) steps,congrArg Nat.succ length⟩

theorem maxOfRange (n : Nat) : ∀ first, (List.range' first n).foldr max 0 = if n = 0 then 0 else first + n - 1 := by
  induction n with
  | zero => intro first; rfl
  | succ n ih =>
    intro first
    rw [List.range'_succ,List.foldr_cons,ih,if_neg (Nat.succ_ne_zero n)]
    split
    · omega
    · omega

theorem maxStepSeqLength {entries : List (CompensationEntryRecord Context Data)}
    (numbers : entries.map (·.stepSeq) = List.range' 1 entries.length) : maxStepSeq entries = entries.length := by
  unfold maxStepSeq
  rw [numbers,maxOfRange]
  split
  · omega
  · omega

theorem numbersOn {entries : List (CompensationEntryRecord Context Data)} (append : List (NewCompensationEntry Context Data))
    (numbers : entries.map (·.stepSeq) = List.range' 1 entries.length) :
    (entries ++ numbered id (entries.length + 1) append).map (·.stepSeq) =
      List.range' 1 (entries ++ numbered id (entries.length + 1) append).length := by
  obtain ⟨steps,length⟩ := numberedSteps id append (entries.length + 1)
  rw [List.map_append,List.length_append,numbers,steps,length,Nat.add_comm entries.length 1]
  exact List.range'_append_1

theorem numbersOnce {entries : List (CompensationEntryRecord Context Data)} (numbers : entries.map (·.stepSeq) = List.range' 1 entries.length) :
    (entries.map (·.stepSeq)).Nodup := by
  rw [numbers]
  exact List.nodup_range'

theorem ascendingNumbered {entries : List (CompensationEntryRecord Context Data)}
    (numbers : entries.map (·.stepSeq) = List.range' 1 entries.length) : ascending entries = entries := by
  refine List.Pairwise.insertionSort_eq (List.pairwise_map.mp ?_)
  rw [numbers]
  exact (List.pairwise_lt_range' 1).imp Nat.le_of_lt

theorem rowAbsent (fresh : t ∉ store.transactions.map (·.transactionId)) : store.row t = none := by
  refine List.find?_eq_none.mpr (fun row mem same => ?_)
  exact fresh (List.mem_map.mpr ⟨row,mem,of_decide_eq_true same⟩)

theorem pushedHere (append : List (NewCompensationEntry Context Data)) (next : Nat) :
    (store.compensations ++ numbered id next append).filter (fun e => decide (e.transactionId = id)) =
      store.entries id ++ numbered id next append := by
  have all : (numbered id next append).filter (fun e => decide (e.transactionId = id)) = numbered id next append :=
    List.filter_eq_self.mpr (fun e mem => decide_eq_true (numberedIds e mem))
  rw [List.filter_append,all]
  rfl

theorem updateCases (store : H2StateStore Context Data) (id : String) (version : Nat) (patch : TransactionPatch Context Data) (append) :
    store.updateTransaction id version patch append = (.error (.staleTransactionVersion id version),store) ∧
      (store.row id).filter (·.version = version) = none ∨
    ∃ row, (store.row id).filter (·.version = version) = some row ∧ store.row id = some row ∧ row.version = version ∧
      store.updateTransaction id version patch append = (.ok (version + 1),{ store.withRow id patch.apply (fun _ => rfl) with
        compensations := store.compensations ++ numbered id (maxStepSeq (store.entries id) + 1) append }) := by
  unfold updateTransaction
  cases current : (store.row id).filter (fun row => decide (row.version = version)) with
  | none => exact .inl ⟨rfl,rfl⟩
  | some row =>
    obtain ⟨here,same⟩ := Option.filter_eq_some_iff.mp current
    exact .inr ⟨row,rfl,here,of_decide_eq_true same,rfl⟩

theorem entriesUpdated {version patch append} (row : TransactionRecord Context Data) (here : store.row id = some row) :
    (store.updateTransaction id version patch append).2.entries t =
      if t = id ∧ row.version = version then store.entries t ++ numbered id (maxStepSeq (store.entries id) + 1) append else store.entries t := by
  rcases updateCases store id version patch append with ⟨stale,gone⟩ | ⟨row',_,found,same,moved⟩
  · have old : row.version ≠ version := fun same => by
      rw [here] at gone
      simp [Option.filter,same] at gone
    rw [stale,if_neg (fun both => old both.2)]
  · cases Option.some.inj (here.symm.trans found)
    rw [moved]
    by_cases same' : t = id
    · subst same'
      rw [if_pos ⟨rfl,same⟩]
      exact pushedHere append _
    · rw [if_neg (fun both => same' both.1)]
      exact pushedElsewhere same'

theorem markHere {stepSeq compensatedAt} : (store.markCompensationExecuted id stepSeq compensatedAt).entries id =
    (store.entries id).map (fun e => if e.stepSeq = stepSeq then { e with compensatedAt := some compensatedAt } else e) := by
  unfold entries markCompensationExecuted
  induction store.compensations with
  | nil => rfl
  | cons e rest ih =>
    rw [List.map_cons,List.filter_cons,List.filter_cons,ih]
    by_cases own : e.transactionId = id
    · by_cases marked : e.stepSeq = stepSeq
      · simp [own,marked]
      · simp [own,marked]
    · simp [own]

theorem markSteps {entries : List (CompensationEntryRecord Context Data)} (stepSeq : Nat) (compensatedAt : Int) :
    (entries.map (fun e => if e.stepSeq = stepSeq then { e with compensatedAt := some compensatedAt } else e)).map (·.stepSeq) =
      entries.map (·.stepSeq) := by
  rw [List.map_map]
  refine List.map_congr_left (fun e _ => ?_)
  rw [Function.comp]
  split <;> rfl

theorem deleteCases (store : H2StateStore Context Data) (id : String) (expectedVersion : Option Nat) :
    (store.delete id expectedVersion).2 = store ∨
      (store.delete id expectedVersion).2.transactions = store.transactions.filter (fun row => row.transactionId != id) ∧
        (store.delete id expectedVersion).2.compensations = store.compensations.filter (fun e => e.transactionId != id) := by
  have versioned (version : Nat) : (store.deleteTransaction id version).2 = store ∨
      (store.deleteTransaction id version).2.transactions = store.transactions.filter (fun row => row.transactionId != id) ∧
        (store.deleteTransaction id version).2.compensations = store.compensations.filter (fun e => e.transactionId != id) := by
    unfold deleteTransaction
    split
    · exact .inl rfl
    · split
      · exact .inr ⟨rfl,rfl⟩
      · exact .inl rfl
  unfold delete
  split
  · exact versioned _
  · split
    · exact .inl rfl
    · exact versioned _

namespace Sound

theorem created {record : TransactionRecord Context Data} (sound : store.Sound) : (store.createTransaction record).2.Sound := by
  unfold createTransaction
  split
  · refine ⟨fun t absent => sound.owned t ?_,sound.numbered⟩
    exact (List.find?_append.symm.trans absent |> Option.or_eq_none_iff.mp).1
  · exact sound

theorem updated {version patch append} (sound : store.Sound) : (store.updateTransaction id version patch append).2.Sound := by
  cases here : store.row id with
  | none =>
    rcases updateCases store id version patch append with ⟨stale,_⟩ | ⟨row,_,found,_⟩
    · rw [stale]
      exact sound
    · exact absurd (here.symm.trans found) (by simp)
  | some row =>
    refine ⟨fun t absent => ?_,fun t => ?_⟩
    · have gone : store.row t = none := by
        cases kept : store.row t with
        | none => rfl
        | some _ =>
          obtain ⟨later,still,_⟩ := @updateGrows _ _ store t id version patch append _ kept
          exact absurd (absent.symm.trans still) (by simp)
      have other : t ≠ id := fun same => by rw [same,here] at gone; cases gone
      rw [entriesUpdated row here,if_neg (fun both => other both.1)]
      exact sound.owned t gone
    · rw [entriesUpdated row here]
      split
      · rename_i both
        obtain ⟨rfl,_⟩ := both
        rw [maxStepSeqLength (sound.numbered t)]
        exact numbersOn append (sound.numbered t)
      · exact sound.numbered t

theorem marked {stepSeq compensatedAt} (sound : store.Sound) : (store.markCompensationExecuted id stepSeq compensatedAt).Sound := by
  refine ⟨fun t absent => ?_,fun t => ?_⟩
  · by_cases same : t = id
    · rw [same,markHere,← same,sound.owned t absent]
      rfl
    · rw [markElsewhere same]
      exact sound.owned t absent
  · by_cases same : t = id
    · rw [same,markHere,markSteps,List.length_map]
      exact sound.numbered id
    · rw [markElsewhere same]
      exact sound.numbered t

theorem deleted {expectedVersion} (sound : store.Sound) : (store.delete id expectedVersion).2.Sound := by
  rcases deleteCases store id expectedVersion with same | ⟨rows,entries⟩
  · rw [same]
    exact sound
  · have stack (t : String) : (store.delete id expectedVersion).2.entries t = if t = id then [] else store.entries t := by
      unfold H2StateStore.entries
      rw [entries]
      split
      · rename_i same
        rw [List.filter_filter]
        exact List.filter_eq_nil_iff.mpr (fun e _ => by simp [same])
      · rename_i other
        exact remaining other
    refine ⟨fun t absent => ?_,fun t => ?_⟩
    · rw [stack]
      split
      · rfl
      · rename_i other
        refine sound.owned t (Eq.trans ?_ absent)
        unfold row
        rw [rows]
        exact (foundElsewhere other _).symm
    · rw [stack]
      split
      · rfl
      · exact sound.numbered t

theorem answered {driverText : DriverText Context Data} (sound : store.Sound) (op : StoreRequest Context Data) :
    (store.answer driverText op).2.Sound := by
  cases op with
  | createTransaction record =>
    show (store.insert record).2.Sound
    unfold insert
    split
    · exact sound.created
    · exact sound
  | updateTransaction id version patch append =>
    show (store.update driverText id version patch append).2.Sound
    unfold update
    split
    · exact sound
    · split
      · exact sound.updated
      · exact sound
  | markCompensationExecuted => exact sound.marked
  | deleteTransaction => exact sound.deleted
  | _ => exact sound

theorem after (driverText : DriverText Context Data) (ops : List (StoreRequest Context Data)) : ((machine driverText).after ops).Sound :=
  @Machine.runInvariant _ _ (machine driverText) Sound (fun _ op sound => sound.answered op) _ ⟨fun _ _ => rfl,fun _ => rfl⟩ ops

end Sound

/-- A row and its stack as one document. -/
def document (store : H2StateStore Context Data) (row : TransactionRecord Context Data) : TransactionSnapshot Context Data :=
  { row with compensationStack := store.entries row.transactionId }

/-- The documents that say what the tables say. -/
def Mirrored (store : H2StateStore Context Data) (docs : MongoStateStore Context Data) : Prop :=
  docs.documents = store.transactions.map store.document

namespace Mirrored
variable {docs : MongoStateStore Context Data}

theorem found (mirrored : store.Mirrored docs) (t : String) : docs.findOne t = (store.row t).map store.document := by
  unfold MongoStateStore.findOne
  rw [mirrored,List.find?_map]
  rfl

theorem stackFound (sound : store.Sound) (mirrored : store.Mirrored docs) (t : String) :
    (docs.findOne t).elim [] (·.compensationStack) = store.entries t := by
  rw [mirrored.found]
  cases here : store.row t with
  | none => exact (sound.owned t here).symm
  | some row => exact congrArg store.entries (rowId here)

theorem currentFound (mirrored : store.Mirrored docs) (t : String) (version : Nat) :
    (docs.findOne t).filter (·.version = version) = ((store.row t).filter (·.version = version)).map store.document := by
  rw [mirrored.found]
  cases store.row t with
  | none => rfl
  | some row =>
    by_cases same : row.version = version
    · simp [Option.filter,document,same]
    · simp [Option.filter,document,same]

theorem changed {store' : H2StateStore Context Data} {docs' : MongoStateStore Context Data}
    {change : TransactionRecord Context Data → TransactionRecord Context Data}
    {change' : TransactionSnapshot Context Data → TransactionSnapshot Context Data} (mirrored : store.Mirrored docs)
    (rows : store'.transactions = store.transactions.map (fun row => if row.transactionId = id then change row else row))
    (documents : docs'.documents = docs.documents.map (fun doc => if doc.transactionId = id then change' doc else doc))
    (here : ∀ row, row.transactionId = id → store'.document (change row) = change' (store.document row))
    (elsewhere : ∀ t, t ≠ id → store'.entries t = store.entries t) : store'.Mirrored docs' := by
  unfold Mirrored
  rw [documents,mirrored,rows,List.map_map,List.map_map]
  refine List.map_congr_left (fun row _ => ?_)
  by_cases own : row.transactionId = id
  · exact (if_pos own).trans ((here row own).symm.trans (congrArg store'.document (if_pos own).symm))
  · refine (if_neg own).trans (Eq.trans ?_ (congrArg store'.document (if_neg own).symm))
    exact congrArg (TransactionSnapshot.mk row) (elsewhere _ own).symm

theorem created {record : TransactionRecord Context Data} (sound : store.Sound) (mirrored : store.Mirrored docs)
    (fresh : record.transactionId ∉ store.transactions.map (·.transactionId)) :
    (docs.createTransaction record).1 = (store.createTransaction record).1 ∧
      (store.createTransaction record).2.Mirrored (docs.createTransaction record).2 := by
  have ids : docs.documents.map (·.transactionId) = store.transactions.map (·.transactionId) := by
    rw [mirrored,List.map_map]
    rfl
  unfold MongoStateStore.createTransaction createTransaction
  rw [dif_pos fresh,dif_pos (by rw [ids]; exact fresh)]
  refine ⟨rfl,?_⟩
  have empty : store.document record = { record with compensationStack := [] } :=
    congrArg (TransactionSnapshot.mk record) (sound.owned _ (rowAbsent fresh))
  show docs.documents ++ [{ record with compensationStack := [] }] = (store.transactions ++ [record]).map store.document
  rw [List.map_append,List.map_singleton,empty,mirrored]

theorem updated {id : String} {version : Nat} {patch : TransactionPatch Context Data} {append} (sound : store.Sound) (mirrored : store.Mirrored docs) :
    (docs.updateTransaction id version patch append).1 = (store.updateTransaction id version patch append).1 ∧
      (store.updateTransaction id version patch append).2.Mirrored (docs.updateTransaction id version patch append).2 := by
  have pushes (entries : List (CompensationEntryRecord Context Data))
      (pushed : store.row id ≠ none → entries = numbered id (maxStepSeq (store.entries id) + 1) append) :
      (docs.findOneAndUpdate id version patch entries).1 = (store.updateTransaction id version patch append).1 ∧
        (store.updateTransaction id version patch append).2.Mirrored (docs.findOneAndUpdate id version patch entries).2 := by
    unfold MongoStateStore.findOneAndUpdate
    rw [mirrored.currentFound]
    rcases updateCases store id version patch append with ⟨stale,gone⟩ | ⟨row,current,here,same,moved⟩
    · rw [stale,gone]
      exact ⟨rfl,mirrored⟩
    · have stackOf (t : String) := @entriesUpdated _ _ store t id version patch append row here
      rw [current,pushed (by rw [here]; exact Option.some_ne_none row)]
      have rows : (store.updateTransaction id version patch append).2.transactions =
          store.transactions.map (fun row => if row.transactionId = id then patch.apply row else row) := by rw [moved]; rfl
      refine ⟨by rw [moved]; rfl,mirrored.changed rows rfl (fun row' own => ?_) (fun t other => ?_)⟩
      · refine congrArg (TransactionSnapshot.mk (patch.apply row')) ((stackOf row'.transactionId).trans ?_)
        rw [if_pos ⟨own,same⟩]
        rfl
      · rw [stackOf,if_neg (fun both => other both.1)]
  unfold MongoStateStore.updateTransaction
  split
  · rename_i nothing
    exact pushes [] (fun _ => by rw [nothing]; rfl)
  · have stack := mirrored.stackFound sound id
    cases existing : docs.findOne id with
    | none =>
      have absent : store.row id = none := Option.map_eq_none_iff.mp ((mirrored.found id).symm.trans existing)
      rcases updateCases store id version patch append with ⟨stale,_⟩ | ⟨row,_,here,_⟩
      · rw [stale]
        exact ⟨rfl,mirrored⟩
      · exact absurd (absent.symm.trans here) (by simp)
    | some doc =>
      rw [existing] at stack
      refine pushes _ (fun _ => ?_)
      unfold MongoStateStore.toPush
      rw [show doc.compensationStack = store.entries id from stack]

theorem setFirstOnce {entries : List (CompensationEntryRecord Context Data)} (stepSeq : Nat) (compensatedAt : Int)
    (once : (entries.map (·.stepSeq)).Nodup) : MongoStateStore.setFirst stepSeq compensatedAt entries =
      entries.map (fun e => if e.stepSeq = stepSeq then { e with compensatedAt := some compensatedAt } else e) := by
  induction entries with
  | nil => rfl
  | cons e rest ih =>
    obtain ⟨first,later⟩ := List.nodup_cons.mp once
    unfold MongoStateStore.setFirst
    split
    · rename_i here
      have others : rest.map (fun e => if e.stepSeq = stepSeq then { e with compensatedAt := some compensatedAt } else e) = rest := by
        refine (List.map_congr_left (fun e' mem => if_neg (fun same => first ?_))).trans (List.map_id rest)
        exact List.mem_map.mpr ⟨e',mem,same.trans here.symm⟩
      rw [List.map_cons,if_pos here,others]
    · rename_i other
      rw [List.map_cons,if_neg other,ih later]

theorem marked {stepSeq compensatedAt} (sound : store.Sound) (mirrored : store.Mirrored docs) :
    (store.markCompensationExecuted id stepSeq compensatedAt).Mirrored (docs.markCompensationExecuted id stepSeq compensatedAt) := by
  have rows : store.transactions = store.transactions.map (fun row => if row.transactionId = id then row else row) := by simp
  refine mirrored.changed rows rfl (fun row own => ?_) (fun t other => markElsewhere other)
  refine congrArg (TransactionSnapshot.mk row) (Eq.trans ?_ (setFirstOnce stepSeq compensatedAt (numbersOnce (sound.numbered _))).symm)
  rw [own]
  exact markHere

theorem deleted {expectedVersion} (mirrored : store.Mirrored docs) :
    (docs.delete id expectedVersion).1 = (store.delete id expectedVersion).1 ∧
      (store.delete id expectedVersion).2.Mirrored (docs.delete id expectedVersion).2 := by
  have versioned (version : Nat) : (docs.deleteTransaction id version).1 = (store.deleteTransaction id version).1 ∧
      (store.deleteTransaction id version).2.Mirrored (docs.deleteTransaction id version).2 := by
    unfold MongoStateStore.deleteTransaction deleteTransaction
    rw [mirrored.found]
    cases store.row id with
    | none => exact ⟨rfl,mirrored⟩
    | some row =>
      dsimp only [Option.map_some,document]
      split
      · refine ⟨rfl,?_⟩
        show docs.documents.filter (fun doc => !decide (doc.transactionId = id)) =
          (store.transactions.filter (fun row => row.transactionId != id)).map (document _)
        have others : ((fun doc : TransactionSnapshot Context Data => !decide (doc.transactionId = id)) ∘ store.document) =
            fun row => row.transactionId != id := by
          funext row
          by_cases own : row.transactionId = id
          · simp [document,own]
          · simp [document,own]
        rw [mirrored,List.filter_map,others]
        refine List.map_congr_left (fun row mem => congrArg (TransactionSnapshot.mk row) ?_)
        exact (remaining (bne_iff_ne.mp (List.mem_filter.mp mem).2)).symm
      · exact ⟨rfl,mirrored⟩
  unfold MongoStateStore.delete delete
  split
  · exact versioned _
  · rw [mirrored.found]
    cases store.row id with
    | none => exact ⟨rfl,mirrored⟩
    | some row => exact versioned row.version

theorem listed {keep : TransactionRecord Context Data → Bool} {limit offset : Int} {nowEpochMs stuckThresholdMs : Int}
    (oldest : MongoStateStore.Oldest Context Data) (mirrored : store.Mirrored docs) (distinct : (store.transactions.map (·.updatedAt)).Nodup) :
    (MongoStateStore.cursor oldest limit offset (docs.documents.filter (fun doc => keep doc.toTransactionRecord))).map
        (MongoStateStore.summary nowEpochMs stuckThresholdMs) =
      (page limit offset (store.transactions.filter keep)).map (store.summary nowEpochMs stuckThresholdMs) := by
  have kept : docs.documents.filter (fun doc => keep doc.toTransactionRecord) = (store.transactions.filter keep).map store.document := by
    rw [mirrored,List.filter_map]
    rfl
  have ages : ((docs.documents.filter (fun doc => keep doc.toTransactionRecord)).map (·.updatedAt)).Nodup := by
    rw [kept,List.map_map]
    exact distinct.sublist (List.filter_sublist.map _)
  have ordered : oldest.arrange (docs.documents.filter (fun doc => keep doc.toTransactionRecord)) =
      ((store.transactions.filter keep).insertionSort (fun a b => a.updatedAt ≤ b.updatedAt)).map store.document := by
    have : IsTrans (TransactionRecord Context Data) (fun a b => a.updatedAt ≤ b.updatedAt) := ⟨fun _ _ _ => le_trans⟩
    have : Std.Total (fun a b : TransactionRecord Context Data => a.updatedAt ≤ b.updatedAt) := ⟨fun _ _ => le_total _ _⟩
    refine Paired.sortedOnce (((oldest.perm _).map _).nodup_iff.mpr ages) ?_ (oldest.sorted _)
      (List.pairwise_map.mpr (List.pairwise_insertionSort _ _))
    rw [kept]
    exact (oldest.perm _).trans ((List.perm_insertionSort _ _).map store.document).symm
  unfold MongoStateStore.cursor page
  rw [ordered,← List.map_drop,← List.map_take,List.map_map]
  rfl

theorem counted {keep : TransactionRecord Context Data → Bool} (mirrored : store.Mirrored docs) :
    (docs.documents.filter (fun doc => keep doc.toTransactionRecord)).length = (store.transactions.filter keep).length := by
  rw [mirrored,List.filter_map,List.length_map]
  rfl

theorem shown (sound : store.Sound) (mirrored : store.Mirrored docs) (t : String) : docs.findOne t = store.getTransaction t := by
  rw [mirrored.found]
  unfold getTransaction
  cases here : store.row t with
  | none => rfl
  | some row =>
    refine congrArg some (congrArg (TransactionSnapshot.mk row) ?_)
    rw [rowId here]
    exact (ascendingNumbered (sound.numbered t)).symm

theorem unwound (sound : store.Sound) (mirrored : store.Mirrored docs) (t : String) :
    docs.getUncompensatedStack t = store.getUncompensatedStack t := by
  have stack := mirrored.stackFound sound t
  unfold MongoStateStore.getUncompensatedStack getUncompensatedStack
  rw [← stack]
  cases docs.findOne t with
  | none => rfl
  | some doc => rfl

end Mirrored

end H2StateStore

end Dfsm.Java
