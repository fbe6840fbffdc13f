import Dfsm.Java.Mirrored
import Mathlib.Logic.Relation

/-! One answer from either store of the Java SDK; and what two updates of one transaction do
to each other, in MongoDB one reading the document before the other has written it. -/
namespace Dfsm.Java

variable {Context Data S : Type}

namespace StoreRequest

def creates : StoreRequest Context Data → List String
  | .createTransaction record => [record.transactionId]
  | _ => []

/-- What is promised of a request: an id that is not there yet, and a listing of transactions
last updated at different times. -/
def Promised (store : H2StateStore Context Data) : StoreRequest Context Data → Prop
  | .createTransaction record => record.transactionId ∉ store.transactions.map (·.transactionId)
  | .listInFlight _ _ _ | .listByStatuses _ _ _ => (store.transactions.map (·.updatedAt)).Nodup
  | _ => True

/-- What the request writes fits the columns it goes into. -/
def Fits (store : H2StateStore Context Data) : StoreRequest Context Data → Prop
  | .createTransaction record => record.fits = true
  | .updateTransaction transactionId expectedVersion patch append =>
    (store.row transactionId).any (·.version = expectedVersion) = true → (patch.fits && append.all (·.fits)) = true
  | _ => True

end StoreRequest

namespace H2StateStore
variable {store : H2StateStore Context Data} {docs : MongoStateStore Context Data} {driverText : DriverText Context Data}
  {oldest : MongoStateStore.Oldest Context Data}

theorem updateFits {id version patch append}
    (fits : (store.row id).any (fun row => decide (row.version = version)) = true → (patch.fits && append.all (·.fits)) = true) :
    store.update driverText id version patch append = store.updateTransaction id version patch append := by
  unfold update
  cases current : (store.row id).filter (fun row => decide (row.version = version)) with
  | none =>
    unfold updateTransaction
    rw [current]
  | some row =>
    obtain ⟨here,same⟩ := Option.filter_eq_some_iff.mp current
    exact if_pos (fits (by rw [here]; exact same))

namespace Mirrored

theorem answered (sound : store.Sound) (mirrored : store.Mirrored docs) {op : StoreRequest Context Data} (promised : op.Promised store)
    (fits : op.Fits store) : (docs.answer oldest op).1 = (store.answer driverText op).1 ∧
      (store.answer driverText op).2.Mirrored (docs.answer oldest op).2 := by
  cases op with
  | createTransaction record =>
    obtain ⟨same,next⟩ := mirrored.created sound promised
    have here : store.insert record = store.createTransaction record := if_pos fits
    refine ⟨congrArg StoreResult.created (same.trans (by rw [here])),?_⟩
    show (store.insert record).2.Mirrored _
    rw [here]
    exact next
  | updateTransaction id version patch append =>
    obtain ⟨same,next⟩ := @updated _ _ store docs id version patch append sound mirrored
    have here : store.update driverText id version patch append = store.updateTransaction id version patch append := updateFits fits
    refine ⟨congrArg StoreResult.updated (same.trans (by rw [here])),?_⟩
    show (store.update driverText id version patch append).2.Mirrored _
    rw [here]
    exact next
  | markCompensationExecuted => exact ⟨rfl,mirrored.marked sound⟩
  | deleteTransaction id version =>
    obtain ⟨same,next⟩ := @deleted _ _ store id docs version mirrored
    exact ⟨congrArg StoreResult.deleted same,next⟩
  | getTransaction t => exact ⟨congrArg StoreResult.transaction (mirrored.shown sound t),mirrored⟩
  | getUncompensatedStack t => exact ⟨congrArg StoreResult.stack (mirrored.unwound sound t),mirrored⟩
  | countInFlight f at_ threshold =>
    refine ⟨congrArg StoreResult.count ((congrArg List.length (List.filter_congr fun doc _ => ?_)).trans mirrored.counted),mirrored⟩
    exact MongoStateStore.inFlightWhere (.orAll f) at_ threshold _
  | listInFlight f at_ threshold =>
    refine ⟨congrArg StoreResult.summaries (Eq.trans ?_ (mirrored.listed oldest promised)),mirrored⟩
    unfold MongoStateStore.listInFlight
    simp only [MongoStateStore.inFlightWhere]
  | countByStatuses f =>
    refine ⟨congrArg StoreResult.count ((congrArg List.length (List.filter_congr fun doc _ => ?_)).trans mirrored.counted),mirrored⟩
    exact MongoStateStore.statusWhere (.orAll f) _
  | listByStatuses f at_ threshold =>
    refine ⟨congrArg StoreResult.summaries (Eq.trans ?_ (mirrored.listed oldest promised)),mirrored⟩
    unfold MongoStateStore.listByStatuses
    simp only [MongoStateStore.statusWhere]

theorem refused (sound : store.Sound) (mirrored : store.Mirrored docs) {op : StoreRequest Context Data} (promised : op.Promised store)
    (wide : ¬op.Fits store) : (docs.answer oldest op).1 ≠ (store.answer driverText op).1 := by
  intro equal
  cases op with
  | createTransaction record =>
    have fresh : record.transactionId ∉ store.transactions.map (·.transactionId) := promised
    have tooLong : ¬record.fits = true := wide
    have both := (mirrored.created sound fresh).1.symm.trans (StoreResult.created.inj equal)
    unfold createTransaction insert at both
    rw [dif_pos fresh,if_neg tooLong] at both
    cases both
  | updateTransaction id version patch append =>
    obtain ⟨current,tooLong⟩ := Classical.not_imp.mp wide
    have both := (mirrored.updated sound).1.symm.trans (StoreResult.updated.inj equal)
    obtain ⟨row,here,same⟩ : ∃ row, store.row id = some row ∧ row.version = version := by
      cases here : store.row id with
      | none => rw [here] at current; cases current
      | some row => exact ⟨row,rfl,of_decide_eq_true (by rw [here] at current; exact current)⟩
    have found : (store.row id).filter (fun row => decide (row.version = version)) = some row := by
      rw [here]
      exact Option.filter_eq_some_iff.mpr ⟨rfl,decide_eq_true same⟩
    unfold updateTransaction update at both
    rw [found] at both
    dsimp only at both
    rw [if_neg tooLong] at both
    cases both
  | _ => exact absurd trivial wide

variable (driverText : DriverText Context Data) (oldest : MongoStateStore.Oldest Context Data)

theorem agreeIff (ops : List (StoreRequest Context Data)) (sound : store.Sound) (mirrored : store.Mirrored docs)
    (promised : Machine.Allowed (machine driverText) (fun store op => op.Promised store) store ops) :
    ((machine driverText).run store ops).1 = ((MongoStateStore.machine oldest).run docs ops).1 ↔
      Machine.Allowed (machine driverText) (fun store op => op.Fits store) store ops := by
  induction ops generalizing store docs with
  | nil => exact ⟨fun _ => trivial,fun _ => rfl⟩
  | cons op ops ih =>
    obtain ⟨first,rest⟩ := promised
    constructor
    · intro same
      obtain ⟨head,tail⟩ := List.cons.inj same
      have fits : op.Fits store := Classical.byContradiction fun wide => mirrored.refused sound first wide head.symm
      exact ⟨fits,(ih (sound.answered op) (mirrored.answered sound first fits).2 rest).mp tail⟩
    · intro allowed
      obtain ⟨fits,later⟩ := allowed
      obtain ⟨head,next⟩ := @answered _ _ store docs driverText oldest sound mirrored op first fits
      exact congrArg₂ List.cons head.symm ((ih (sound.answered op) next rest).mpr later)

end Mirrored
end H2StateStore

/-! What any sequence of requests keeps. -/

def Numbered (kept : S → String → Kept Context Data) (s : S) : Prop :=
  ∀ t, (kept s t).stack.map (·.stepSeq) = List.range' 1 (kept s t).stack.length

/-- An accepted update takes the version it expects one on and touches no other transaction,
and a rejected one changes nothing. -/
def Versioned (kept : S → String → Kept Context Data) (s : S) (transactionId : String) (expectedVersion : Nat)
    (answer : Except Throwable Nat × S) : Prop :=
  (answer.1 = .ok (expectedVersion + 1) ∧ (kept s transactionId).row.map (·.version) = some expectedVersion ∧
    (kept answer.2 transactionId).row.map (·.version) = some (expectedVersion + 1) ∧
    ∀ t, t ≠ transactionId → kept answer.2 t = kept s t) ∨
  (∃ error, answer.1 = .error error) ∧ answer.2 = s

structure Disciplined (answer : S → StoreRequest Context Data → StoreResult Context Data × S) (kept : S → String → Kept Context Data)
    (s : S) : Prop where
  numbered : Numbered kept s
  update : ∀ transactionId expectedVersion patch append, ∃ r,
    (answer s (.updateTransaction transactionId expectedVersion patch append)).1 = .updated r ∧
      Versioned kept s transactionId expectedVersion (r,(answer s (.updateTransaction transactionId expectedVersion patch append)).2)
  otherwise : ∀ op t row, (∀ transactionId expectedVersion patch append, op ≠ .updateTransaction transactionId expectedVersion patch append) →
    (kept s t).row = some row → (kept (answer s op).2 t).row = some row ∨ (kept (answer s op).2 t).row = none

theorem H2StateStore.Sound.disciplined {store : H2StateStore Context Data} (driverText : H2StateStore.DriverText Context Data)
    (sound : store.Sound) : Disciplined (H2StateStore.answer driverText) H2StateStore.kept store where
  numbered := sound.numbered
  update id version patch append := by
    refine ⟨_,rfl,?_⟩
    show Versioned _ store id version (store.update driverText id version patch append)
    unfold update
    cases current : (store.row id).filter (fun row => decide (row.version = version)) with
    | none => exact .inr ⟨⟨_,rfl⟩,rfl⟩
    | some row =>
      obtain ⟨here,same⟩ := Option.filter_eq_some_iff.mp current
      obtain rfl := of_decide_eq_true same
      dsimp only
      split
      · obtain ⟨taken,next⟩ := @updateHere _ _ store id row patch append here
        refine .inl ⟨taken,congrArg (Option.map _) here,congrArg (Option.map _) next,fun t other => updateElsewhere other⟩
      · exact .inr ⟨⟨_,rfl⟩,rfl⟩
  otherwise op t row other here := by
    cases op with
    | createTransaction record =>
      refine .inl ?_
      show (store.insert record).2.row t = some row
      unfold insert
      split
      · exact createGrows here
      · exact here
    | updateTransaction id version patch append => exact absurd rfl (other id version patch append)
    | deleteTransaction id version =>
      rcases deleteCases store id version with same | ⟨rows,_⟩
      · exact .inl ((congrArg (fun store => store.row t) same).trans here)
      · have left : (store.delete id version).2.row t = (store.transactions.filter (fun row => row.transactionId != id)).find? (·.transactionId = t) := by
          rw [← rows]
          rfl
        by_cases gone : t = id
        · exact .inr (left.trans (by rw [gone]; exact foundGone _))
        · exact .inl (left.trans ((foundElsewhere gone _).trans here))
    | _ => exact .inl here

namespace MongoStateStore
variable {store : MongoStateStore Context Data} {oldest : Oldest Context Data} {t id : String}

/-- An update that has read its document and has not written it yet. -/
structure Underway (Context Data : Type) where
  transactionId : String
  expectedVersion : Nat
  patch : TransactionPatch Context Data
  toPush : List (CompensationEntryRecord Context Data)

/-- A collection, the ids it has ever been given, and the updates between their read and their write. -/
structure Overlapping (Context Data : Type) where
  store : MongoStateStore Context Data := ⟨[],List.nodup_nil⟩
  used : List String := []
  underway : List (Underway Context Data) := []

/-- A request may be served between the two halves of an update that appends entries. The
version that an update expects has been read before. -/
inductive Overlaps (oldest : Oldest Context Data) : Overlapping Context Data → Overlapping Context Data → Prop
  | asks (o : Overlapping Context Data) (op : StoreRequest Context Data) (fresh : ∀ id ∈ op.creates, id ∉ o.used) :
    Overlaps oldest o { o with store := (o.store.answer oldest op).2, used := op.creates ++ o.used }
  | reads (o : Overlapping Context Data) (transactionId : String) (expectedVersion : Nat) (patch : TransactionPatch Context Data)
      (append : List (NewCompensationEntry Context Data)) (existing : TransactionSnapshot Context Data)
      (found : o.store.findOne transactionId = some existing) (known : expectedVersion ≤ existing.version) :
    Overlaps oldest o
      { o with underway := ⟨transactionId,expectedVersion,patch,toPush transactionId existing append⟩ :: o.underway }
  | writes (o : Overlapping Context Data) (before : List (Underway Context Data)) (u : Underway Context Data)
      (after : List (Underway Context Data)) (split : o.underway = before ++ u :: after) :
    Overlaps oldest o
      { o with store := (o.store.findOneAndUpdate u.transactionId u.expectedVersion u.patch u.toPush).2, underway := before ++ after }

theorem deleteCases (store : MongoStateStore Context Data) (id : String) (expectedVersion : Option Nat) :
    (store.delete id expectedVersion).2 = store ∨ (store.delete id expectedVersion).2 = store.deleteOne (·.transactionId = id) := by
  have versioned (version : Nat) : (store.deleteTransaction id version).2 = store ∨
      (store.deleteTransaction id version).2 = store.deleteOne (·.transactionId = id) := by
    unfold deleteTransaction
    split
    · exact .inl rfl
    · split
      · exact .inr rfl
      · exact .inl rfl
  unfold delete
  split
  · exact versioned _
  · split
    · exact .inl rfl
    · exact versioned _

/-- A document is of a later version, or has the stack it had. -/
def Later (doc doc' : TransactionSnapshot Context Data) : Prop :=
  doc.version < doc'.version ∨ doc.version = doc'.version ∧ doc'.compensationStack.length = doc.compensationStack.length

def StepsNumbered (doc : TransactionSnapshot Context Data) : Prop :=
  doc.compensationStack.map (·.stepSeq) = List.range' 1 doc.compensationStack.length

/-- The entries of an update go on from the stack of the version it expects, or it is too late. -/
def Underway.Waits (store : MongoStateStore Context Data) (u : Underway Context Data) : Prop :=
  ∃ base append, u.toPush = H2StateStore.numbered u.transactionId (base + 1) append ∧
    ∀ doc, store.findOne u.transactionId = some doc →
      u.expectedVersion < doc.version ∨ u.expectedVersion = doc.version ∧ base = doc.compensationStack.length

structure Ordered (o : Overlapping Context Data) : Prop where
  known : ∀ t doc, o.store.findOne t = some doc → t ∈ o.used ∧ StepsNumbered doc
  waits : ∀ u ∈ o.underway, u.transactionId ∈ o.used ∧ u.Waits o.store

/-- What a step does to the documents. -/
def Advances (o : Overlapping Context Data) (store' : MongoStateStore Context Data) (used' : List String) : Prop :=
  ∀ t doc', store'.findOne t = some doc' → StepsNumbered doc' ∧
    ((∃ doc, o.store.findOne t = some doc ∧ Later doc doc') ∨ t ∈ used' ∧ t ∉ o.used)

namespace Ordered
variable {o : Overlapping Context Data}

theorem laterSelf (doc : TransactionSnapshot Context Data) : Later doc doc := .inr ⟨rfl,rfl⟩

theorem advanced (ordered : Ordered o) {store' used' underway'} (more : ∀ t ∈ o.used, t ∈ used') (fewer : ∀ u ∈ underway', u ∈ o.underway)
    (advances : Advances o store' used') : Ordered ⟨store',used',underway'⟩ := by
  refine ⟨fun t doc' found => ?_,fun u mem => ?_⟩
  · obtain ⟨numbers,old | new⟩ := advances t doc' found
    · obtain ⟨doc,found,_⟩ := old
      exact ⟨more t (ordered.known t doc found).1,numbers⟩
    · exact ⟨new.1,numbers⟩
  · obtain ⟨used,base,append,push,waits⟩ := ordered.waits u (fewer u mem)
    refine ⟨more _ used,base,append,push,fun doc' found => ?_⟩
    obtain ⟨_,old | new⟩ := advances u.transactionId doc' found
    · obtain ⟨doc,found,later⟩ := old
      rcases waits doc found with passed | ⟨same,stack⟩
      · rcases later with further | ⟨still,_⟩
        · exact .inl (Nat.lt_trans passed further)
        · exact .inl (still ▸ passed)
      · rcases later with further | ⟨still,length⟩
        · exact .inl (same ▸ further)
        · exact .inr ⟨same.trans still,stack.trans length.symm⟩
    · exact absurd used new.2

theorem same (ordered : Ordered o) (used' : List String) : Advances o o.store used' :=
  fun t doc found => ⟨(ordered.known t doc found).2,.inl ⟨doc,found,laterSelf doc⟩⟩

theorem changes (ordered : Ordered o) {change : TransactionSnapshot Context Data → TransactionSnapshot Context Data} {kept}
    (steps : ∀ doc, o.store.findOne id = some doc → StepsNumbered (change doc) ∧ Later doc (change doc)) :
    Advances o (o.store.withDocument id change kept) o.used := by
  intro t doc' found
  rw [withDocumentFound] at found
  obtain ⟨doc,here,rfl⟩ := Option.map_eq_some_iff.mp found
  split
  · rename_i own
    rw [documentId here] at own
    obtain ⟨numbers,later⟩ := steps doc (own ▸ here)
    exact ⟨numbers,.inl ⟨doc,here,later⟩⟩
  · exact ⟨(ordered.known t doc here).2,.inl ⟨doc,here,laterSelf doc⟩⟩

theorem pushes (ordered : Ordered o) {doc : TransactionSnapshot Context Data} {patch : TransactionPatch Context Data} {append}
    (here : o.store.findOne id = some doc) : Advances o (o.store.withDocument id
      (pushOnto patch (H2StateStore.numbered id (doc.compensationStack.length + 1) append)) (fun _ => rfl)) o.used := by
  refine ordered.changes (fun doc' found => ?_)
  cases Option.some.inj (here.symm.trans found)
  exact ⟨H2StateStore.numbersOn append (ordered.known id doc here).2,.inl (Nat.lt_succ_self _)⟩

theorem setFirstSteps (stepSeq : Nat) (compensatedAt : Int) (entries : List (CompensationEntryRecord Context Data)) :
    (setFirst stepSeq compensatedAt entries).map (·.stepSeq) = entries.map (·.stepSeq) := by
  induction entries with
  | nil => rfl
  | cons e rest ih =>
    unfold setFirst
    split
    · rfl
    · exact congrArg (e.stepSeq :: ·) ih

theorem marks (ordered : Ordered o) {stepSeq compensatedAt} :
    Advances o (o.store.markCompensationExecuted id stepSeq compensatedAt) o.used := by
  refine ordered.changes (fun doc found => ?_)
  have steps := setFirstSteps stepSeq compensatedAt doc.compensationStack
  have length := congrArg List.length steps
  rw [List.length_map,List.length_map] at length
  refine ⟨?_,.inr ⟨rfl,length⟩⟩
  show (setFirst stepSeq compensatedAt doc.compensationStack).map _ = List.range' 1 (setFirst stepSeq compensatedAt doc.compensationStack).length
  rw [steps,length]
  exact (ordered.known id doc found).2

theorem deletes (ordered : Ordered o) {expectedVersion} : Advances o (o.store.delete id expectedVersion).2 o.used := by
  rcases deleteCases o.store id expectedVersion with kept | gone
  · rw [kept]
    exact ordered.same o.used
  · rw [gone]
    intro t doc found
    by_cases here : t = id
    · rw [here] at found
      exact absurd (found.symm.trans (foundGone o.store.documents)) (Option.some_ne_none doc)
    · exact ordered.same o.used t doc ((foundElsewhere here o.store.documents).symm.trans found)

theorem creates (ordered : Ordered o) {record : TransactionRecord Context Data} (fresh : record.transactionId ∉ o.used) :
    Advances o (o.store.createTransaction record).2 (record.transactionId :: o.used) := by
  unfold createTransaction
  split
  · intro t doc found
    rcases Option.or_eq_some_iff.mp (List.find?_append.symm.trans found) with old | ⟨_,new⟩
    · exact ordered.same _ t doc old
    · obtain rfl := List.mem_singleton.mp (List.mem_of_find?_eq_some new)
      have same := List.find?_some new
      obtain rfl := of_decide_eq_true same
      exact ⟨rfl,.inr ⟨List.mem_cons_self,fresh⟩⟩
  · exact ordered.same _

theorem updates (ordered : Ordered o) {version patch append} : Advances o (o.store.updateTransaction id version patch append).2 o.used := by
  rcases updateCases o.store id version patch append with ⟨stale,_⟩ | ⟨doc,entries,here,_,rfl,moved⟩
  · rw [stale]
    exact ordered.same o.used
  · rw [moved]
    unfold toPush
    rw [H2StateStore.maxStepSeqLength (ordered.known id doc here).2]
    exact ordered.pushes here

theorem writes (ordered : Ordered o) {u : Underway Context Data} (mem : u ∈ o.underway) :
    Advances o (o.store.findOneAndUpdate u.transactionId u.expectedVersion u.patch u.toPush).2 o.used := by
  rcases findOneAndUpdateCases o.store u.transactionId u.expectedVersion u.patch u.toPush with ⟨stale,_⟩ | ⟨doc,here,same,moved⟩
  · rw [stale]
    exact ordered.same o.used
  · obtain ⟨_,base,append,push,waits⟩ := ordered.waits u mem
    rcases waits doc here with passed | ⟨_,stack⟩
    · exact absurd (same ▸ passed) (Nat.lt_irrefl _)
    · rw [moved,push,stack]
      exact ordered.pushes here

theorem step (ordered : Ordered o) {o' : Overlapping Context Data} (overlaps : Overlaps oldest o o') : Ordered o' := by
  cases overlaps with
  | asks op fresh =>
    cases op with
    | createTransaction record =>
      exact ordered.advanced (fun t mem => List.mem_cons_of_mem _ mem) (fun u mem => mem) (ordered.creates (fresh _ List.mem_cons_self))
    | updateTransaction id version patch append => exact ordered.advanced (fun t mem => mem) (fun u mem => mem) ordered.updates
    | markCompensationExecuted id stepSeq at_ => exact ordered.advanced (fun t mem => mem) (fun u mem => mem) ordered.marks
    | deleteTransaction id version => exact ordered.advanced (fun t mem => mem) (fun u mem => mem) ordered.deletes
    | _ => exact ordered
  | reads id version patch append existing found known =>
    obtain ⟨used,numbers⟩ := ordered.known id existing found
    refine ⟨ordered.known,fun u mem => ?_⟩
    rcases List.mem_cons.mp mem with rfl | before
    · refine ⟨used,existing.compensationStack.length,append,?_,fun doc here => ?_⟩
      · unfold toPush
        rw [H2StateStore.maxStepSeqLength numbers]
      · cases Option.some.inj (found.symm.trans here)
        exact (Nat.lt_or_eq_of_le known).imp_right (fun same => ⟨same,rfl⟩)
    · exact ordered.waits u before
  | writes before u after split =>
    have mem : u ∈ o.underway := by
      rw [split]
      exact List.mem_append_right _ List.mem_cons_self
    refine ordered.advanced (fun t mem => mem) (fun u' mem' => ?_) (ordered.writes mem)
    rw [split]
    rcases List.mem_append.mp mem' with first | second
    · exact List.mem_append_left _ first
    · exact List.mem_append_right _ (List.mem_cons_of_mem _ second)

theorem reached {o : Overlapping Context Data} (run : Relation.ReflTransGen (Overlaps oldest) {} o) : Ordered o := by
  induction run with
  | refl => exact ⟨fun t doc found => absurd found (by simp [findOne]),fun u mem => absurd mem List.not_mem_nil⟩
  | tail _ overlaps ih => exact ih.step overlaps

end Ordered

theorem versionedCases {version : Nat} {patch : TransactionPatch Context Data} {answer : Except Throwable Nat × MongoStateStore Context Data}
    (cases : answer = (.error (.staleTransactionVersion id version),store) ∨
      ∃ doc entries, store.findOne id = some doc ∧ doc.version = version ∧
        answer = (.ok (version + 1),store.withDocument id (pushOnto patch entries) (fun _ => rfl))) :
    Versioned kept store id version answer := by
  rcases cases with rfl | ⟨doc,entries,here,rfl,rfl⟩
  · exact .inr ⟨⟨_,rfl⟩,rfl⟩
  · have row : store.kept id = ⟨some doc.toTransactionRecord,doc.compensationStack⟩ := by
      unfold kept
      rw [here]
      rfl
    refine .inl ⟨rfl,(by rw [row]; rfl),?_,fun t other => keptFound (withDocumentOther (pushOnto patch entries) (fun _ => rfl) other)⟩
    have later := @withDocumentFound _ _ store id (pushOnto patch entries) (fun _ => rfl) id
    rw [here,Option.map_some,if_pos (documentId here)] at later
    exact congrArg (fun found => (found.map (·.toTransactionRecord)).map (·.version)) later

theorem Ordered.disciplined {o : Overlapping Context Data} (ordered : Ordered o) : Disciplined (answer oldest) kept o.store where
  numbered t := by
    unfold kept
    cases here : o.store.findOne t with
    | none => rfl
    | some doc => exact (ordered.known t doc here).2
  update id version patch append := by
    refine ⟨_,rfl,@versionedCases _ _ _ _ _ patch _ ?_⟩
    rcases updateCases o.store id version patch append with ⟨stale,_⟩ | ⟨doc,entries,here,same,_,moved⟩
    · exact .inl stale
    · exact .inr ⟨doc,entries,here,same,moved⟩
  otherwise op t row other here := by
    cases op with
    | createTransaction record => exact .inl (createGrows here)
    | updateTransaction id version patch append => exact absurd rfl (other id version patch append)
    | markCompensationExecuted id stepSeq at_ =>
      obtain ⟨doc,found,rfl⟩ := rowFound here
      refine .inl (Option.map_eq_some_iff.mpr ⟨_,(withDocumentFound (markOnto stepSeq at_) (fun _ => rfl) t).trans (by rw [found]; rfl),?_⟩)
      dsimp only
      split <;> rfl
    | deleteTransaction id version =>
      rcases deleteCases o.store id version with same | gone
      · exact .inl ((congrArg (fun store => (kept store t).row) same).trans here)
      · by_cases own : t = id
        · refine .inr ((congrArg (fun store => (kept store t).row) gone).trans ?_)
          rw [own]
          exact Option.map_eq_none_iff.mpr (foundGone o.store.documents)
        · have still : (o.store.deleteOne (·.transactionId = id)).findOne t = o.store.findOne t := foundElsewhere own o.store.documents
          exact .inl ((congrArg (fun store => (kept store t).row) gone).trans ((congrArg Kept.row (keptFound still)).trans here))
    | _ => exact .inl here

end MongoStateStore

/-- Tables whose database transactions take effect one after the other, and a collection in
which an update may be under way while others are served. -/
theorem javaStoresAgree (driverText : H2StateStore.DriverText Context Data) (oldest : MongoStateStore.Oldest Context Data) :
    (∀ ops, Machine.Allowed (H2StateStore.machine driverText) (fun store op => op.Promised store) (H2StateStore.machine driverText).init ops →
      ((H2StateStore.machine driverText).results ops = (MongoStateStore.machine oldest).results ops ↔
        Machine.Allowed (H2StateStore.machine driverText) (fun store op => op.Fits store) (H2StateStore.machine driverText).init ops)) ∧
    (∀ ops, Disciplined (H2StateStore.answer driverText) H2StateStore.kept ((H2StateStore.machine driverText).after ops)) ∧
    ∀ o, Relation.ReflTransGen (MongoStateStore.Overlaps oldest) {} o →
      Disciplined (MongoStateStore.answer oldest) MongoStateStore.kept o.store ∧
      ∀ u ∈ o.underway, Versioned MongoStateStore.kept o.store u.transactionId u.expectedVersion
        (o.store.findOneAndUpdate u.transactionId u.expectedVersion u.patch u.toPush) := by
  refine ⟨fun ops promised => ?_,fun ops => ?_,fun o run => ?_⟩
  · exact H2StateStore.Mirrored.agreeIff driverText oldest ops (H2StateStore.Sound.after driverText []) rfl promised
  · exact (H2StateStore.Sound.after driverText ops).disciplined driverText
  · refine ⟨(MongoStateStore.Ordered.reached run).disciplined,fun u _ => @MongoStateStore.versionedCases _ _ _ _ _ u.patch _ ?_⟩
    rcases MongoStateStore.findOneAndUpdateCases o.store u.transactionId u.expectedVersion u.patch u.toPush with ⟨stale,_⟩ | ⟨doc,here,same,moved⟩
    · exact .inl stale
    · exact .inr ⟨doc,u.toPush,here,same,moved⟩

def parcelRecord (machineVersion : String) : TransactionRecord Unit Unit :=
  { transactionId := "parcel", machineId := "delivery", machineVersion, actorId := "courier", stateValue := .str "packed", context := (),
    status := .IDLE, version := 1, createdAt := 5, updatedAt := 5 }

def labelParcel : NewCompensationEntry Unit Unit :=
  { transitionKey := "packed:LABEL", compensateKey := "unlabel", fromState := .str "packed", inputSnapshot := none, contextBefore := (),
    createdAt := 7 }

def labelled : TransactionPatch Unit Unit := { stateValue := some (.str "labelled"), updatedAt := 7 }

def byAge : MongoStateStore.Oldest Unit Unit := Stores.oldest _

/-- Two updates read the parcel at its version 1; one of them has been written. -/
def labelledOnce : MongoStateStore.Overlapping Unit Unit :=
  let created := (MongoStateStore.createTransaction ⟨[],List.nodup_nil⟩ (parcelRecord "1.0.0")).2
  let update : MongoStateStore.Underway Unit Unit :=
    ⟨"parcel",1,labelled,H2StateStore.numbered "parcel" 1 [labelParcel]⟩
  { store := (created.findOneAndUpdate "parcel" 1 labelled update.toPush).2, used := ["parcel"], underway := [update] }

def labelling : List (StoreRequest Unit Unit) :=
  [.createTransaction (parcelRecord "1.0.0"),.updateTransaction "parcel" 1 labelled [labelParcel],.listByStatuses none 9 30000]

theorem javaStoresAgreeLabelled :
    (H2StateStore.machine (fun _ _ => "")).results labelling = (MongoStateStore.machine byAge).results labelling ∧
    Disciplined (MongoStateStore.answer byAge) MongoStateStore.kept labelledOnce.store := by
  obtain ⟨agree,_,overlapping⟩ := javaStoresAgree (fun _ _ => "") byAge
  have created := Relation.ReflTransGen.single (@MongoStateStore.Overlaps.asks _ _ byAge {} (.createTransaction (parcelRecord "1.0.0"))
    (fun _ _ => List.not_mem_nil))
  refine ⟨(agree labelling ⟨(by decide : "parcel" ∉ []),trivial,(by decide : ([7] : List Int).Nodup),trivial⟩).mpr
    ⟨(by decide +kernel : (parcelRecord "1.0.0").fits = true),
      fun _ => (by decide +kernel : (labelled.fits && [labelParcel].all (·.fits)) = true),trivial,trivial⟩,?_⟩
  have reads (o : MongoStateStore.Overlapping Unit Unit) (found : o.store.findOne "parcel" = some { parcelRecord "1.0.0" with compensationStack := [] }) :=
    @MongoStateStore.Overlaps.reads _ _ byAge o "parcel" 1 labelled [labelParcel] _ found (Nat.le_refl _)
  have both := (created.tail (reads _ rfl)).tail (reads _ rfl)
  exact (overlapping _ (both.tail (.writes _ [] _ _ rfl))).1

/-- A version of 65 characters does not fit its column. -/
theorem javaStoresDisagree :
    Machine.Allowed (H2StateStore.machine (fun _ _ => "")) (fun store op => op.Promised store) (H2StateStore.machine (fun _ _ => "")).init
      [.createTransaction (parcelRecord (String.ofList (List.replicate 65 '1')))] ∧
    (H2StateStore.machine (fun _ _ => "")).results [.createTransaction (parcelRecord (String.ofList (List.replicate 65 '1')))] ≠
      (MongoStateStore.machine byAge).results [.createTransaction (parcelRecord (String.ofList (List.replicate 65 '1')))] := by
  refine ⟨⟨(by decide : "parcel" ∉ []),trivial⟩,fun same => ?_⟩
  have wide : (parcelRecord (String.ofList (List.replicate 65 '1'))).fits = false := by decide +kernel
  have refused : (H2StateStore.machine (fun _ _ => "")).results [.createTransaction (parcelRecord (String.ofList (List.replicate 65 '1')))] =
      [.created (.error (.thrown (some "Failed to create transaction 'parcel'")))] :=
    congrArg (fun r => [StoreResult.created r]) (congrArg Prod.fst (if_neg (ne_true_of_eq_false wide)))
  rw [refused] at same
  cases same

end Dfsm.Java
