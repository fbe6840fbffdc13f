import Dfsm.Stores.Ledger
import Dfsm.Stores.Mongo

/-! The document store keeps the ledger: each account in one document. -/
namespace Dfsm.Stores

variable {Value Meaning : Type} (driver : MongoDriver Value) (meaning : Value → Meaning)

/-- A query for a state meets the same stored states as a comparison of the states themselves. -/
def MongoDriver.Compares (ledger : Ledger Value) (stateEquals : Option Value) : Prop :=
  ∀ state, stateEquals = some state → ∃ clause, driver.meets state = some clause ∧
    ∀ d ∈ ledger, ∀ stored, driver.bson d.stateValue = some stored → (clause stored = true ↔ d.stateValue = state)

/-- A limit cuts: it is positive, or nothing is left to list. -/
def MongoDriver.Limits (filter : TransactionQueryFilter Value) (matched : Nat) : Prop :=
  ∀ limit, filter.limit = some limit → 0 < limit ∨ matched ≤ filter.offset.elim 0 Int.toNat

def MongoDriver.Serves [DecidableEq Value] (ledger : Ledger Value) : Op Value → Prop
  | .createTransaction record => ∀ v ∈ record.values, Kept driver.bson (fun v => v) meaning v
  | .updateTransaction transactionId expectedVersion patch appendCompensations =>
    (∀ v ∈ patch.values, Kept driver.bson (fun v => v) meaning v) ∧
    ((ledger.account transactionId).any (·.version = expectedVersion) = true → ∀ item ∈ appendCompensations,
      ∀ v ∈ item.values, Kept driver.bson (fun v => v) meaning v)
  | .countTransactions filter => driver.Compares ledger filter.stateEquals
  | .queryTransactions filter _ _ => driver.Compares ledger filter.stateEquals ∧
    MongoDriver.Limits filter (ledger.matching filter).length ∧ ((ledger.matching filter).map (·.updatedAt)).Nodup
  | .getTransaction _ | .getUncompensatedStack _ | .markCompensationExecuted _ _ _ | .deleteTransactions _ => True

namespace Embedded

/-- The document that holds an account. -/
structure Held (d : TransactionSnapshot Value) (doc : MongoTransactionDocument Value) : Prop where
  same : doc.toTransactionRecord.read meaning = d.toTransactionRecord.read meaning
  stored : driver.bson d.stateValue = some doc.stateValue
  stack : doc.compensationStack.map (·.read meaning) = d.compensationStack.map (·.read meaning)
  next : doc.nextCompStepSeq = d.compensationStack.length + 1

structure Related (ledger : Ledger Value) (documents : Documents Value) : Prop where
  sound : ledger.Sound
  docs : List.Forall₂ (Held driver meaning) ledger documents

variable {driver meaning} {ledger : Ledger Value} {documents : Documents Value}

theorem Held.transactionId {d : TransactionSnapshot Value} {doc : MongoTransactionDocument Value} (held : Held driver meaning d doc) :
    doc.transactionId = d.transactionId := congrArg (·.transactionId) held.same

theorem Held.version {d : TransactionSnapshot Value} {doc : MongoTransactionDocument Value} (held : Held driver meaning d doc) :
    doc.version = d.version := congrArg (·.version) held.same

theorem Held.updatedAt {d : TransactionSnapshot Value} {doc : MongoTransactionDocument Value} (held : Held driver meaning d doc) :
    doc.updatedAt = d.updatedAt := congrArg (·.updatedAt) held.same

theorem Held.numbered {d : TransactionSnapshot Value} {doc : MongoTransactionDocument Value} (held : Held driver meaning d doc)
    (numbered : Numbered d.compensationStack) : Numbered doc.compensationStack := by
  have seqs := congrArg (List.map (·.stepSeq)) held.stack
  have lengths := congrArg List.length held.stack
  rw [List.map_map,List.map_map] at seqs
  rw [List.length_map,List.length_map] at lengths
  rw [Numbered,lengths]
  exact seqs.trans numbered

theorem Held.uncompensated {d : TransactionSnapshot Value} {doc : MongoTransactionDocument Value} (held : Held driver meaning d doc) :
    (doc.compensationStack.filter (·.compensatedAt.isNone)).map (·.read meaning) =
      (d.compensationStack.filter (·.compensatedAt.isNone)).map (·.read meaning) := by
  have filtered := congrArg (List.filter (·.compensatedAt.isNone)) held.stack
  rw [List.filter_map,List.filter_map] at filtered
  exact filtered

theorem Related.doc (related : Related driver meaning ledger documents) (transactionId : String) :
    Option.Rel (Held driver meaning) (ledger.account transactionId) (documents.findOne transactionId) :=
  Paired.find (fun d doc held => by rw [held.transactionId]) related.docs

theorem createStep (related : Related driver meaning ledger documents) {record : TransactionRecord Value}
    (kept : ∀ v ∈ record.values, Kept driver.bson (fun v => v) meaning v) :
    (documents.createTransaction driver record).1.read meaning = (ledger.createTransaction record).1.read meaning ∧
      Related driver meaning (ledger.createTransaction record).2 (documents.createTransaction driver record).2 := by
  obtain ⟨row,written,same,stored⟩ := TransactionRecord.keptWrite kept
  have id : row.transactionId = record.transactionId := congrArg (·.transactionId) same
  simp only [Documents.createTransaction,written,id,Paired.known (related.doc record.transactionId)]
  have sound := related.sound.create record
  unfold Ledger.createTransaction at sound ⊢
  split
  · exact ⟨rfl,related⟩
  · rename_i free
    rw [if_neg free] at sound
    exact ⟨rfl,sound,List.rel_append related.docs (.cons ⟨same,stored,rfl,rfl⟩ .nil)⟩

theorem getStep (related : Related driver meaning ledger documents) (transactionId : String) :
    (documents.getTransaction transactionId).1.read meaning = (ledger.getTransaction transactionId).1.read meaning := by
  refine congrArg Result.found ?_
  rw [Option.map_map,Option.map_map]
  refine Paired.optionEq (fun d found doc held => ?_) (related.doc transactionId)
  have numbered := held.numbered (related.sound.numbered d (Ledger.accountMem found).1)
  simp only [Function.comp,TransactionSnapshot.read,held.same,lifoReverse (numberedAscends numbered),List.map_reverse,held.stack]

theorem uncompensatedStep (related : Related driver meaning ledger documents) (transactionId : String) :
    (documents.getUncompensatedStack transactionId).1.read meaning = (ledger.getUncompensatedStack transactionId).1.read meaning := by
  refine congrArg Result.stack ?_
  have same := related.doc transactionId
  unfold Ledger.stack
  cases found : ledger.account transactionId with
  | none =>
    rw [found] at same
    rw [Paired.ofNone same]
    rfl
  | some d =>
    rw [found] at same
    obtain ⟨doc,there,held⟩ := Paired.ofSome same
    have ascends := numberedAscends (held.numbered (related.sound.numbered d (Ledger.accountMem found).1))
    rw [there,Option.elim_some]
    dsimp only
    rw [lifoReverse (ascends.filter _),List.map_reverse,held.uncompensated,List.map_reverse]

theorem preparedKept {items : List (NewEntry Value)} (transactionId : String) (base : Int)
    (kept : ∀ item ∈ items, ∀ v ∈ item.values, Kept driver.bson (fun v => v) meaning v) :
    ∃ entries, Documents.prepared driver transactionId base items = some entries ∧
      entries.map (·.read meaning) = (Ledger.pushed transactionId base items).map (·.read meaning) := by
  induction items generalizing base with
  | nil => exact ⟨[],rfl,rfl⟩
  | cons item rest ih =>
    obtain ⟨row,written,same⟩ := NewEntry.keptWrite (kept item List.mem_cons_self)
    obtain ⟨later,prepared,laterSame⟩ := ih (base + 1) (fun item member => kept item (List.mem_cons_of_mem _ member))
    refine ⟨{ row with transactionId, stepSeq := base }::later,?_,?_⟩
    · simp [Documents.prepared,written,prepared]
    · rw [List.map_cons,Ledger.pushed,List.map_cons,laterSame]
      refine congrArg (·::_) ?_
      exact congrArg (fun e : NewEntry Meaning => ({ e with transactionId, stepSeq := base } : CompensationEntryRecord Meaning)) same

theorem applyHeld {patch set : TransactionUpdatePatch Value} {items : List (NewEntry Value)} {entries : List (CompensationEntryRecord Value)}
    (nextVersion : Int) (same : set.read meaning = patch.read meaning)
    (state : ∀ v, patch.stateValue = some v → set.stateValue = driver.bson v) {d : TransactionSnapshot Value}
    {doc : MongoTransactionDocument Value} (held : Held driver meaning d doc)
    (pushed : entries.map (·.read meaning) = (Ledger.pushed d.transactionId (d.compensationStack.length + 1) items).map (·.read meaning)) :
    Held driver meaning (Ledger.pushOnto patch nextVersion items d)
      { doc with
        toTransactionRecord := set.apply nextVersion doc.toTransactionRecord
        nextCompStepSeq := doc.nextCompStepSeq + entries.length
        compensationStack := doc.compensationStack ++ entries } := by
  constructor
  · rw [applyRead,same,held.same,← applyRead]
    rfl
  · exact TransactionUpdatePatch.keptState same state held.stored
  · simp only [Ledger.pushOnto,List.map_append,held.stack,pushed]
  · have lengths := congrArg List.length pushed
    rw [List.length_map,List.length_map] at lengths
    simp only [Ledger.pushOnto,List.length_append,held.next,lengths]
    push_cast
    omega

theorem updateDocs (related : Related driver meaning ledger documents) {transactionId : String} {expectedVersion : Int}
    (current : (ledger.account transactionId).any (·.version = expectedVersion) = true)
    {f : TransactionSnapshot Value → TransactionSnapshot Value} {g : MongoTransactionDocument Value → MongoTransactionDocument Value}
    (same : ∀ d ∈ ledger, d.transactionId = transactionId → ∀ doc, Held driver meaning d doc → Held driver meaning (f d) (g doc)) :
    List.Forall₂ (Held driver meaning) (ledger.change transactionId f) (documents.updateOne transactionId expectedVersion g) := by
  refine Paired.map (fun d member doc held => ?_) related.docs
  rw [held.transactionId,held.version]
  by_cases here : d.transactionId = transactionId
  · have version : d.version = expectedVersion := by
      have found := related.sound.account member
      rw [here] at found
      simpa [found] using current
    rw [if_pos here,if_pos ⟨here,version⟩]
    exact same d member here doc held
  · rw [if_neg here,if_neg (fun both => here both.1)]
    exact held

theorem updateStep (related : Related driver meaning ledger documents) {transactionId : String} {expectedVersion : Int}
    {patch : TransactionUpdatePatch Value} {items : List (NewEntry Value)}
    (values : ∀ v ∈ patch.values, Kept driver.bson (fun v => v) meaning v)
    (kept : (ledger.account transactionId).any (·.version = expectedVersion) = true →
      ∀ item ∈ items, ∀ v ∈ item.values, Kept driver.bson (fun v => v) meaning v) :
    (documents.updateTransaction driver transactionId expectedVersion patch items).1.read meaning =
        (ledger.updateTransaction transactionId expectedVersion patch items).1.read meaning ∧
      Related driver meaning (ledger.updateTransaction transactionId expectedVersion patch items).2
        (documents.updateTransaction driver transactionId expectedVersion patch items).2 := by
  obtain ⟨set,written,same,state⟩ := TransactionUpdatePatch.keptWrite values
  have version : (documents.findOne transactionId).any (·.version = expectedVersion) =
      (ledger.account transactionId).any (·.version = expectedVersion) :=
    Paired.any (fun d doc held => by rw [held.version]) (related.doc transactionId)
  have sound : (ledger.change transactionId (Ledger.pushOnto patch (expectedVersion + 1) items)).Sound :=
    related.sound.change (Ledger.pushOntoId patch _ items) (fun d _ numbered => Ledger.pushedNumbered numbered d.transactionId items)
  unfold Ledger.updateTransaction Documents.updateTransaction
  cases items with
  | nil =>
    simp only [List.isEmpty_nil,if_true,written,Documents.matchesVersion,version]
    split
    · rename_i current
      refine ⟨rfl,sound,updateDocs related current (fun d _ _ doc held => ?_)⟩
      simpa using @applyHeld _ _ _ _ _ _ [] [] (expectedVersion + 1) same state _ _ held rfl
    · exact ⟨rfl,related⟩
  | cons item rest =>
    simp only [List.isEmpty_cons,Bool.false_eq_true,if_false]
    rw [← version,← Option.isSome_filter]
    cases found : (documents.findOne transactionId).filter (·.version = expectedVersion) with
    | none => exact ⟨rfl,related⟩
    | some existing =>
      have current : (ledger.account transactionId).any (·.version = expectedVersion) = true := by
        rw [← version,← Option.isSome_filter,found]
        rfl
      have next : ∀ d ∈ ledger, d.transactionId = transactionId → existing.nextCompStepSeq = d.compensationStack.length + 1 := by
        intro d member here
        have account := related.sound.account member
        have doc := related.doc transactionId
        rw [here] at account
        rw [account,(Option.filter_eq_some_iff.mp found).1] at doc
        obtain ⟨other,eq,held⟩ := Paired.ofSome doc
        cases eq
        exact held.next
      obtain ⟨entries,prepared,entriesSame⟩ := preparedKept transactionId existing.nextCompStepSeq (kept current)
      simp only [written,prepared,Option.isSome_some,if_true]
      refine ⟨trivial,sound,updateDocs related current (fun d member here doc held => ?_)⟩
      rw [next d member here,← here] at entriesSame
      rw [next d member here,← held.next]
      exact applyHeld (expectedVersion + 1) same state held entriesSame

theorem setFirstMarked {entries : List (CompensationEntryRecord Value)} (ascends : entries.Pairwise (fun a b => a.stepSeq < b.stepSeq))
    (stepSeq compensatedAt : Int) : Documents.setFirst stepSeq compensatedAt entries = entries.map (Ledger.marked stepSeq compensatedAt) := by
  induction ascends with
  | nil => rfl
  | @cons e rest above later ih =>
    rw [Documents.setFirst,List.map_cons,Ledger.marked]
    split
    · rename_i here
      have others : rest.map (Ledger.marked stepSeq compensatedAt) = rest := by
        conv_rhs => rw [← List.map_id rest]
        refine List.map_congr_left (fun x member => if_neg ?_)
        have higher := above x member
        omega
      rw [others]
    · rw [ih]

theorem markStep (related : Related driver meaning ledger documents) (transactionId : String) (stepSeq compensatedAt : Int) :
    Related driver meaning (ledger.markCompensationExecuted transactionId stepSeq compensatedAt).2
      (documents.markCompensationExecuted transactionId stepSeq compensatedAt).2 := by
  constructor
  · exact related.sound.change (Ledger.markOntoId _ _) (fun d _ numbered => Ledger.markedNumbered numbered stepSeq compensatedAt)
  · refine Paired.map (fun d member doc held => ?_) related.docs
    rw [held.transactionId]
    split
    · have ascends := numberedAscends (held.numbered (related.sound.numbered d member))
      refine ⟨held.same,held.stored,?_,?_⟩
      · dsimp only [Ledger.markOnto]
        rw [setFirstMarked ascends,Ledger.markedRead,Ledger.markedRead,held.stack]
      · dsimp only [Ledger.markOnto]
        rw [List.length_map,held.next]
    · exact held

theorem maxUpdatedAll (filter : TransactionQueryFilter Value) (updatedAt : Int) :
    (Documents.maxUpdated filter).all (updatedAt ≤ ·) =
      (filter.stuckBeforeTimestamp.all (updatedAt ≤ ·) && filter.olderThanTimestamp.all (updatedAt ≤ ·)) := by
  unfold Documents.maxUpdated
  cases filter.stuckBeforeTimestamp <;> cases filter.olderThanTimestamp <;> simp

theorem mongoFilterHeld [DecidableEq Value] {filter : TransactionQueryFilter Value} {stateEquals : Option (Value → Bool)}
    (taken : writeOption driver.meets filter.stateEquals = some stateEquals) (compares : driver.Compares ledger filter.stateEquals)
    {d : TransactionSnapshot Value} (member : d ∈ ledger) {doc : MongoTransactionDocument Value} (held : Held driver meaning d doc) :
    Tables.whereClause filter filter.stateEquals d.toTransactionRecord = Documents.mongoFilter filter stateEquals doc := by
  have machineId : doc.machineId = d.machineId := congrArg (·.machineId) held.same
  have actorId : doc.actorId = d.actorId := congrArg (·.actorId) held.same
  have status : doc.status = d.status := congrArg (·.status) held.same
  simp only [Tables.whereClause,Documents.mongoFilter,machineId,actorId,held.transactionId,status,held.updatedAt,maxUpdatedAll,
    Bool.and_assoc]
  congr 6
  cases state : filter.stateEquals with
  | none =>
    rw [state,writeOption,Option.some.injEq] at taken
    rw [← taken]
    rfl
  | some f =>
    obtain ⟨clause,written,alike⟩ := compares f state
    rw [state,writeOption,written,Option.map_some,Option.some.injEq] at taken
    rw [← taken,Option.all_some,Option.all_some]
    exact (Bool.eq_iff_iff.mpr ((alike d member doc.stateValue held.stored).trans (decide_eq_true_iff).symm)).symm

theorem taken {filter : TransactionQueryFilter Value} (compares : driver.Compares ledger filter.stateEquals) :
    ∃ stateEquals, writeOption driver.meets filter.stateEquals = some stateEquals := by
  cases state : filter.stateEquals with
  | none => exact ⟨none,rfl⟩
  | some f =>
    obtain ⟨clause,written,_⟩ := compares f state
    exact ⟨some clause,by rw [writeOption,written,Option.map_some]⟩

theorem matchingDocs [DecidableEq Value] (related : Related driver meaning ledger documents)
    {filter : TransactionQueryFilter Value} {stateEquals : Option (Value → Bool)} (taken : writeOption driver.meets filter.stateEquals = some stateEquals)
    (compares : driver.Compares ledger filter.stateEquals) :
    List.Forall₂ (Held driver meaning) (ledger.matching filter) (documents.filter (Documents.mongoFilter filter stateEquals)) :=
  Paired.filter (fun _ member _ held => mongoFilterHeld taken compares member held) related.docs

theorem countStep [DecidableEq Value] (related : Related driver meaning ledger documents) {filter : TransactionQueryFilter Value}
    (compares : driver.Compares ledger filter.stateEquals) :
    (documents.countTransactions driver filter).1.read meaning = (ledger.countTransactions filter).1.read meaning ∧
      (documents.countTransactions driver filter).2 = documents := by
  obtain ⟨stateEquals,taken⟩ := taken compares
  simp only [Documents.countTransactions,taken,Ledger.countTransactions,Result.read]
  exact ⟨congrArg Result.count (matchingDocs related taken compares).length_eq.symm,trivial⟩

theorem cursorPage {filter : TransactionQueryFilter Value} {docs : Documents Value} (limits : MongoDriver.Limits filter docs.length) :
    Documents.cursor filter.limit filter.offset docs = Tables.page filter.limit filter.offset docs := by
  unfold Documents.cursor Tables.page
  cases limit : filter.limit with
  | none => rfl
  | some limit' =>
    dsimp only
    split
    · rename_i zero
      rcases limits limit' limit with positive|all
      · omega
      · rw [List.drop_eq_nil_of_le all,List.take_nil]
    · rfl

theorem queryStep [DecidableEq Value] (related : Related driver meaning ledger documents) {filter : TransactionQueryFilter Value}
    (compares : driver.Compares ledger filter.stateEquals) (limits : MongoDriver.Limits filter (ledger.matching filter).length)
    (ages : ((ledger.matching filter).map (·.updatedAt)).Nodup) (nowTimestamp stuckThresholdMs : Int) :
    (documents.queryTransactions driver filter nowTimestamp stuckThresholdMs).1.read meaning =
        (ledger.queryTransactions filter nowTimestamp stuckThresholdMs).1.read meaning ∧
      (documents.queryTransactions driver filter nowTimestamp stuckThresholdMs).2 = documents := by
  obtain ⟨stateEquals,taken⟩ := taken compares
  have docs := matchingDocs related taken compares
  rw [docs.length_eq,← (driver.byAge.perm _).length_eq] at limits
  simp only [Documents.queryTransactions,taken,Ledger.queryTransactions,Result.read,cursorPage limits]
  refine ⟨congrArg Result.rows ?_,trivial⟩
  have found := Paired.arranged (fun _ _ held => held.updatedAt.symm) docs ages (driver.byAge.perm _) (driver.byAge.sorted _)
  rw [List.map_map,List.map_map]
  refine (Paired.mapEq (fun d member doc held => ?_) (pagePaired found filter.limit filter.offset)).symm
  have depth := congrArg List.length held.uncompensated
  rw [List.length_map,List.length_map] at depth
  simp only [Function.comp,summaryRead,held.same,depth]

theorem deleteStep (related : Related driver meaning ledger documents) (transactionIds : List String) :
    (documents.deleteTransactions transactionIds).1.read meaning = (ledger.deleteTransactions transactionIds).1.read meaning ∧
      Related driver meaning (ledger.deleteTransactions transactionIds).2 (documents.deleteTransactions transactionIds).2 := by
  cases transactionIds with
  | nil =>
    have all : (ledger.deleteTransactions []).2 = ledger := List.filter_eq_self.mpr (fun _ _ => rfl)
    refine ⟨?_,all.symm ▸ related⟩
    exact congrArg Result.count (List.length_eq_zero_iff.mpr (List.filter_eq_nil_iff.mpr (fun _ _ => Bool.false_ne_true))).symm
  | cons first rest =>
    simp only [Documents.deleteTransactions,List.isEmpty_cons,Bool.false_eq_true,if_false]
    refine ⟨?_,related.sound.delete (first::rest),?_⟩
    · exact congrArg Result.count (Paired.filter (fun d _ doc held => by rw [held.transactionId]) related.docs).length_eq.symm
    · exact Paired.filter (fun d _ doc held => by rw [held.transactionId]) related.docs

theorem keepsLedger [DecidableEq Value] : Machine.Simulates ((MongoStateStore driver).seen (Result.read meaning))
    ((Ledger.machine Value).seen (Result.read meaning)) (driver.Serves meaning) (Related driver meaning) where
  init := ⟨⟨.nil,fun _ member => absurd member List.not_mem_nil⟩,.nil⟩
  step ledger documents op related serves := by
    cases op with
    | createTransaction record => exact createStep related serves
    | updateTransaction transactionId expectedVersion patch items => exact updateStep related serves.1 serves.2
    | markCompensationExecuted transactionId stepSeq compensatedAt => exact ⟨rfl,markStep related transactionId stepSeq compensatedAt⟩
    | deleteTransactions transactionIds => exact deleteStep related transactionIds
    | getTransaction transactionId => exact ⟨getStep related transactionId,related⟩
    | getUncompensatedStack transactionId => exact ⟨uncompensatedStep related transactionId,related⟩
    | countTransactions filter =>
      obtain ⟨answer,same⟩ := countStep related serves
      exact ⟨answer,same.symm ▸ related⟩
    | queryTransactions filter nowTimestamp stuckThresholdMs =>
      obtain ⟨compares,limits,ages⟩ := serves
      obtain ⟨answer,same⟩ := queryStep related compares limits ages nowTimestamp stuckThresholdMs
      exact ⟨answer,same.symm ▸ related⟩

/-! Whatever the database takes or refuses. -/

/-- A document counts its own entries. -/
def Counted (doc : MongoTransactionDocument Value) : Prop :=
  Numbered doc.compensationStack ∧ doc.nextCompStepSeq = doc.compensationStack.length + 1

theorem preparedSeqs {transactionId : String} {base : Int} {items : List (NewEntry Value)} {entries : List (CompensationEntryRecord Value)}
    (prepared : Documents.prepared driver transactionId base items = some entries) :
    entries.map (·.stepSeq) = countUp base entries.length := by
  induction items generalizing base entries with
  | nil => cases prepared; rfl
  | cons item rest ih =>
    simp only [Documents.prepared,Option.bind_eq_bind,Option.bind_eq_some_iff,Option.pure_def,Option.some.injEq] at prepared
    obtain ⟨row,_,later,prepared,rfl⟩ := prepared
    exact congrArg (base::·) (ih prepared)

theorem appendedCounted {doc : MongoTransactionDocument Value} (counted : Counted doc) {entries : List (CompensationEntryRecord Value)}
    (seqs : entries.map (·.stepSeq) = countUp doc.nextCompStepSeq entries.length) (record : TransactionRecord Value) :
    Counted { doc with
      toTransactionRecord := record
      nextCompStepSeq := doc.nextCompStepSeq + entries.length
      compensationStack := doc.compensationStack ++ entries } := by
  obtain ⟨numbered,next⟩ := counted
  rw [next] at seqs
  refine ⟨appendedNumbered numbered seqs,?_⟩
  simp only [List.length_append,next]
  push_cast
  omega

theorem setFirstSeqs (stepSeq compensatedAt : Int) (entries : List (CompensationEntryRecord Value)) :
    (Documents.setFirst stepSeq compensatedAt entries).map (·.stepSeq) = entries.map (·.stepSeq) := by
  induction entries with
  | nil => rfl
  | cons e rest ih =>
    rw [Documents.setFirst]
    split
    · rfl
    · exact congrArg (e.stepSeq::·) ih

structure Orderly (documents : Documents Value) : Prop where
  once : (documents.map (·.transactionId)).Nodup
  counted : ∀ doc ∈ documents, Counted doc

theorem findOneMem {transactionId : String} {doc : MongoTransactionDocument Value} (found : documents.findOne transactionId = some doc) :
    doc ∈ documents ∧ doc.transactionId = transactionId :=
  ⟨List.mem_of_find?_eq_some found,by simpa using List.find?_some found⟩

theorem Orderly.changed (orderly : Orderly documents) {g : MongoTransactionDocument Value → MongoTransactionDocument Value}
    (same : ∀ doc ∈ documents, (g doc).transactionId = doc.transactionId) (counted : ∀ doc ∈ documents, Counted (g doc)) :
    Orderly (documents.map g) := by
  constructor
  · rw [List.map_map]
    have ids : documents.map ((·.transactionId) ∘ g) = documents.map (·.transactionId) := List.map_congr_left same
    exact ids ▸ orderly.once
  · intro doc member
    obtain ⟨doc',member',rfl⟩ := List.mem_map.mp member
    exact counted doc' member'

variable (driver) in
theorem Orderly.updated (orderly : Orderly documents) (transactionId : String) (expectedVersion : Int)
    (patch : TransactionUpdatePatch Value) (items : List (NewEntry Value)) :
    Orderly (documents.updateTransaction driver transactionId expectedVersion patch items).2 := by
  unfold Documents.updateTransaction
  split
  · split
    · exact orderly
    · rename_i set _
      split
      · refine orderly.changed (fun doc _ => ?_) (fun doc member => ?_)
        · split <;> rfl
        · split
          · exact orderly.counted doc member
          · exact orderly.counted doc member
      · exact orderly
  · split
    · exact orderly
    · rename_i existing found
      split
      · rename_i set entries _ prepared
        obtain ⟨there,current⟩ := Option.filter_eq_some_iff.mp found
        refine orderly.changed (fun doc _ => ?_) (fun doc member => ?_)
        · split <;> rfl
        · split
          · rename_i both
            have one : doc = existing :=
              List.inj_on_of_nodup_map orderly.once member (findOneMem there).1 (both.1.trans (findOneMem there).2.symm)
            subst one
            exact appendedCounted (orderly.counted doc member) (preparedSeqs prepared) _
          · exact orderly.counted doc member
      · exact orderly

variable (driver) in
theorem Orderly.step [DecidableEq Value] (orderly : Orderly documents) (op : Op Value) : Orderly (documents.step driver op).2 := by
  cases op with
  | createTransaction record =>
    simp only [Documents.step,Documents.createTransaction]
    split
    · exact orderly
    · rename_i row _
      split
      · exact orderly
      · rename_i free
        constructor
        · rw [List.map_append]
          refine List.nodup_append.mpr ⟨orderly.once,by simp,?_⟩
          rintro id member _ last rfl
          obtain ⟨doc,here,rfl⟩ := List.mem_map.mp member
          have same : doc.transactionId = row.transactionId := by simpa using last
          have absent : documents.findOne row.transactionId = none := by simpa using free
          exact absurd (decide_eq_true same) (List.find?_eq_none.mp absent doc here)
        · intro doc member
          rcases List.mem_append.mp member with old|new
          · exact orderly.counted doc old
          · rw [List.mem_singleton.mp new]
            exact ⟨rfl,rfl⟩
  | updateTransaction transactionId expectedVersion patch items => exact orderly.updated driver transactionId expectedVersion patch items
  | markCompensationExecuted transactionId stepSeq compensatedAt =>
    refine orderly.changed (fun doc _ => ?_) (fun doc member => ?_)
    · split <;> rfl
    · split
      · obtain ⟨numbered,next⟩ := orderly.counted doc member
        have lengths := congrArg List.length (setFirstSeqs stepSeq compensatedAt doc.compensationStack)
        rw [List.length_map,List.length_map] at lengths
        refine ⟨?_,?_⟩
        · rw [Numbered,setFirstSeqs,lengths]
          exact numbered
        · rw [next,lengths]
      · exact orderly.counted doc member
  | deleteTransactions transactionIds =>
    simp only [Documents.step,Documents.deleteTransactions]
    split
    · exact orderly
    · exact ⟨orderly.once.sublist (List.filter_sublist.map _),fun doc member => orderly.counted doc (List.mem_filter.mp member).1⟩
  | getTransaction _ | getUncompensatedStack _ => exact orderly
  | countTransactions _ | queryTransactions _ _ _ =>
    simp only [Documents.step,Documents.countTransactions,Documents.queryTransactions]
    split <;> exact orderly

def version (documents : Documents Value) (transactionId : String) : Option Int := (documents.findOne transactionId).map (·.version)

def stepSeqs (documents : Documents Value) (transactionId : String) : List Int :=
  (documents.findOne transactionId).elim [] (·.compensationStack.map (·.stepSeq))

theorem Orderly.stepSeqs (orderly : Orderly documents) (transactionId : String) : ∃ n, stepSeqs documents transactionId = countUp 1 n := by
  unfold Embedded.stepSeqs
  cases found : documents.findOne transactionId with
  | none => exact ⟨0,rfl⟩
  | some doc => exact ⟨_,(orderly.counted doc (findOneMem found).1).1⟩

theorem updateOneVersions {transactionId : String} {expectedVersion : Int} {change : MongoTransactionDocument Value → MongoTransactionDocument Value}
    (current : (documents.findOne transactionId).any (·.version = expectedVersion) = true)
    (same : ∀ doc, (change doc).transactionId = doc.transactionId) (next : ∀ doc, (change doc).version = expectedVersion + 1) :
    version documents transactionId = some expectedVersion ∧
    version (documents.updateOne transactionId expectedVersion change) transactionId = some (expectedVersion + 1) ∧
    ∀ other, other ≠ transactionId → version (documents.updateOne transactionId expectedVersion change) other = version documents other := by
  have found : ∀ id, (documents.updateOne transactionId expectedVersion change).findOne id =
      (documents.findOne id).map (fun doc => if doc.transactionId = transactionId ∧ doc.version = expectedVersion then change doc else doc) := by
    intro id
    refine Paired.findKeyed (fun doc => ?_) documents id
    split
    · exact same doc
    · rfl
  obtain ⟨doc,there,here⟩ := (Option.any_eq_true _ _).mp current
  have expected := of_decide_eq_true here
  refine ⟨?_,?_,?_⟩
  · rw [version,there,Option.map_some,expected]
  · rw [version,found,there,Option.map_some,if_pos ⟨(findOneMem there).2,expected⟩,Option.map_some,next]
  · intro other differs
    rw [version,found,version]
    cases there : documents.findOne other with
    | none => rfl
    | some doc => rw [Option.map_some,if_neg (fun both => differs ((findOneMem there).2.symm.trans both.1))]

variable (driver documents) in
theorem updateOnce (transactionId : String) (expectedVersion : Int) (patch : TransactionUpdatePatch Value) (items : List (NewEntry Value)) :
    let answer := documents.updateTransaction driver transactionId expectedVersion patch items
    (answer.1 = .updated (expectedVersion + 1) ∧ version documents transactionId = some expectedVersion ∧
      version answer.2 transactionId = some (expectedVersion + 1) ∧
      ∀ other, other ≠ transactionId → version answer.2 other = version documents other) ∨
    (∃ error, answer.1 = .failed error) ∧ answer.2 = documents := by
  intro answer
  simp only [answer,Documents.updateTransaction]
  split
  · split
    · exact .inr ⟨⟨_,rfl⟩,rfl⟩
    · split
      · rename_i current
        exact .inl ⟨rfl,updateOneVersions current (fun _ => rfl) (fun _ => rfl)⟩
      · exact .inr ⟨⟨_,rfl⟩,rfl⟩
  · split
    · exact .inr ⟨⟨_,rfl⟩,rfl⟩
    · rename_i existing found
      split
      · have current : (documents.findOne transactionId).any (·.version = expectedVersion) = true := by
          rw [← Option.isSome_filter,found]
          rfl
        exact .inl ⟨rfl,updateOneVersions current (fun _ => rfl) (fun _ => rfl)⟩
      · exact .inr ⟨⟨_,rfl⟩,rfl⟩

variable (driver) in
theorem disciplined [DecidableEq Value] : Disciplined (MongoStateStore driver) version stepSeqs where
  numbered ops transactionId :=
    (@Machine.runInvariant _ _ (MongoStateStore driver) (@Orderly Value) (fun _ op orderly => orderly.step driver op) []
      ⟨.nil,fun _ member => absurd member List.not_mem_nil⟩ ops).stepSeqs transactionId
  update ops transactionId expectedVersion patch items :=
    updateOnce driver ((MongoStateStore driver).after ops) transactionId expectedVersion patch items

end Embedded
end Dfsm.Stores
