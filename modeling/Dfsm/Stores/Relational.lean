import Dfsm.Stores.Ledger

/-! The relational stores keep the ledger: its accounts in the rows of one table, their
stacks in the rows of the other. -/
namespace Dfsm.Stores

variable {Value Column Meaning : Type} (dialect : Dialect Value Column) (meaning : Value → Meaning)

/-- A state filter finds the same stored states as a comparison of the states themselves. -/
def Dialect.Compares (ledger : Ledger Value) (stateEquals : Option Value) : Prop :=
  ∀ state, stateEquals = some state →
    ∃ column, dialect.write state = some column ∧ ∀ d ∈ ledger, (dialect.write d.stateValue = some column ↔ d.stateValue = state)

/-- The requests a database takes: its texts and values are ones it keeps, a state filter
compares, an offset has the clause it needs and the rows to list have one order by age. -/
def Dialect.Serves [DecidableEq Value] (ledger : Ledger Value) : Op Value → Prop
  | .createTransaction record =>
    record.texts.all dialect.text = true ∧ ∀ v ∈ record.values, Kept dialect.write dialect.read meaning v
  | .updateTransaction transactionId expectedVersion patch appendCompensations =>
    (transactionId::patch.texts).all dialect.text = true ∧ (∀ v ∈ patch.values, Kept dialect.write dialect.read meaning v) ∧
    ((ledger.account transactionId).any (·.version = expectedVersion) = true → ∀ item ∈ appendCompensations,
      item.texts.all dialect.text = true ∧ ∀ v ∈ item.values, Kept dialect.write dialect.read meaning v)
  | .getTransaction transactionId | .getUncompensatedStack transactionId | .markCompensationExecuted transactionId _ _ =>
    dialect.text transactionId = true
  | .countTransactions filter => filter.texts.all dialect.text = true ∧ dialect.Compares ledger filter.stateEquals
  | .queryTransactions filter _ _ => filter.texts.all dialect.text = true ∧ dialect.Compares ledger filter.stateEquals ∧
    dialect.paging filter.limit filter.offset = true ∧ ((ledger.matching filter).map (·.updatedAt)).Nodup
  | .deleteTransactions transactionIds => transactionIds.all dialect.text = true

namespace Relational

/-- The row that holds an account. -/
structure Held (d : TransactionSnapshot Value) (row : TransactionRecord Column) : Prop where
  same : row.read (fun c => meaning (dialect.read c)) = d.toTransactionRecord.read meaning
  column : dialect.write d.stateValue = some row.stateValue

structure Related (ledger : Ledger Value) (tables : Tables Column) : Prop where
  sound : ledger.Sound
  rows : List.Forall₂ (Held dialect meaning) ledger tables.transactions
  entries : ∀ transactionId, (tables.entries transactionId).map (·.read (fun c => meaning (dialect.read c))) =
    (ledger.stack transactionId).map (·.read meaning)

variable {dialect meaning} {ledger : Ledger Value} {tables : Tables Column}

theorem Held.transactionId {d : TransactionSnapshot Value} {row : TransactionRecord Column} (held : Held dialect meaning d row) :
    row.transactionId = d.transactionId := congrArg (·.transactionId) held.same

theorem Held.version {d : TransactionSnapshot Value} {row : TransactionRecord Column} (held : Held dialect meaning d row) :
    row.version = d.version := congrArg (·.version) held.same

theorem Held.updatedAt {d : TransactionSnapshot Value} {row : TransactionRecord Column} (held : Held dialect meaning d row) :
    row.updatedAt = d.updatedAt := congrArg (·.updatedAt) held.same

theorem readRead (read : Column → Value) (row : TransactionRecord Column) :
    (row.read read).read meaning = row.read (fun c => meaning (read c)) := by
  simp [TransactionRecord.read,Function.comp_def]

theorem entryRead (read : Column → Value) (entries : List (CompensationEntryRecord Column)) :
    (entries.map (·.read read)).map (·.read meaning) = entries.map (·.read (fun c => meaning (read c))) := by
  rw [List.map_map]
  rfl

theorem Related.row (related : Related dialect meaning ledger tables) (transactionId : String) :
    Option.Rel (Held dialect meaning) (ledger.account transactionId) (tables.row transactionId) :=
  Paired.find (fun d row held => by rw [held.transactionId]) related.rows

theorem Related.numbered (related : Related dialect meaning ledger tables) (transactionId : String) :
    Numbered (tables.entries transactionId) := by
  have seqs := congrArg (List.map (·.stepSeq)) (related.entries transactionId)
  have lengths := congrArg List.length (related.entries transactionId)
  rw [List.map_map,List.map_map] at seqs
  rw [List.length_map,List.length_map] at lengths
  rw [Numbered,lengths]
  exact seqs.trans (related.sound.stackNumbered transactionId)

theorem Related.lifo (related : Related dialect meaning ledger tables) (transactionId : String) :
    ((lifo (tables.entries transactionId)).map (·.read dialect.read)).map (·.read meaning) =
      ((ledger.stack transactionId).reverse).map (·.read meaning) := by
  rw [entryRead,lifoReverse (numberedAscends (related.numbered transactionId)),List.map_reverse,related.entries,List.map_reverse]

theorem Related.uncompensated (related : Related dialect meaning ledger tables) (transactionId : String) :
    ((tables.entries transactionId).filter (·.compensatedAt.isNone)).map (·.read (fun c => meaning (dialect.read c))) =
      ((ledger.stack transactionId).filter (·.compensatedAt.isNone)).map (·.read meaning) := by
  have filtered := congrArg (List.filter (·.compensatedAt.isNone)) (related.entries transactionId)
  rw [List.filter_map,List.filter_map] at filtered
  exact filtered

theorem getStep (related : Related dialect meaning ledger tables) {transactionId : String} (text : dialect.text transactionId = true) :
    (tables.getTransaction dialect transactionId).1.read meaning = (ledger.getTransaction transactionId).1.read meaning ∧
      (tables.getTransaction dialect transactionId).2 = tables := by
  have bound : dialect.bind [transactionId] (some transactionId) = some transactionId := by simp [Dialect.bind,text]
  simp only [Tables.getTransaction,bound]
  refine ⟨?_,trivial⟩
  simp only [Ledger.getTransaction,Result.read]
  refine congrArg Result.found ?_
  rw [Option.map_map,Option.map_map]
  refine Paired.optionEq (fun d found row held => ?_) (related.row transactionId)
  have stack := related.lifo transactionId
  rw [Ledger.stack,found,Option.elim_some] at stack
  simp only [Function.comp,TransactionSnapshot.read,readRead,held.same,stack]

theorem bindTexts {α : Type} {texts : List String} (taken : texts.all dialect.text = true) (param : Option α) :
    dialect.bind texts param = param := by
  rw [Dialect.bind,if_pos taken]

theorem Related.known (related : Related dialect meaning ledger tables) (transactionId : String) :
    (tables.row transactionId).isSome = (ledger.account transactionId).isSome :=
  Paired.known (related.row transactionId)

theorem Related.current (related : Related dialect meaning ledger tables) (transactionId : String) (expectedVersion : Int) :
    (tables.row transactionId).any (·.version = expectedVersion) = (ledger.account transactionId).any (·.version = expectedVersion) :=
  Paired.any (fun d row held => by rw [held.version]) (related.row transactionId)

theorem createStep (related : Related dialect meaning ledger tables) {record : TransactionRecord Value}
    (texts : record.texts.all dialect.text = true) (kept : ∀ v ∈ record.values, Kept dialect.write dialect.read meaning v) :
    (tables.createTransaction dialect record).1.read meaning = (ledger.createTransaction record).1.read meaning ∧
      Related dialect meaning (ledger.createTransaction record).2 (tables.createTransaction dialect record).2 := by
  obtain ⟨row,written,same,column⟩ := TransactionRecord.keptWrite kept
  simp only [Tables.createTransaction,bindTexts texts,written,related.known]
  have sound := related.sound.create record
  unfold Ledger.createTransaction at sound ⊢
  split
  · exact ⟨rfl,related⟩
  · rename_i free
    rw [if_neg free] at sound
    refine ⟨rfl,sound,List.rel_append related.rows (.cons ⟨same,column⟩ .nil),?_⟩
    intro id
    have stack : Ledger.stack (ledger ++ [{ record with compensationStack := [] }]) id = ledger.stack id := by
      unfold Ledger.stack Ledger.account
      rw [List.find?_append]
      cases ledger.find? (·.transactionId = id) with
      | some d => rfl
      | none => by_cases here : record.transactionId = id <;> simp [here]
    rw [stack]
    exact related.entries id

theorem insertAllKept {items : List (NewEntry Value)} (transactionId : String) (next : Int)
    (kept : ∀ item ∈ items, item.texts.all dialect.text = true ∧ ∀ v ∈ item.values, Kept dialect.write dialect.read meaning v) :
    ∃ inserted, Tables.insertAll dialect transactionId next items = some inserted ∧
      inserted.map (·.read (fun c => meaning (dialect.read c))) = (Ledger.pushed transactionId next items).map (·.read meaning) ∧
      ∀ e ∈ inserted, e.transactionId = transactionId := by
  induction items generalizing next with
  | nil => exact ⟨[],rfl,rfl,fun _ member => absurd member List.not_mem_nil⟩
  | cons item rest ih =>
    obtain ⟨texts,values⟩ := kept item List.mem_cons_self
    obtain ⟨row,written,same⟩ := NewEntry.keptWrite values
    obtain ⟨later,inserted,laterSame,ids⟩ := ih (next + 1) (fun item member => kept item (List.mem_cons_of_mem _ member))
    refine ⟨{ row with transactionId, stepSeq := next }::later,?_,?_,?_⟩
    · simp [Tables.insertAll,bindTexts texts,written,inserted]
    · rw [List.map_cons,Ledger.pushed,List.map_cons,laterSame]
      refine congrArg (·::_) ?_
      have entry := congrArg (fun e : NewEntry Meaning => ({ e with transactionId, stepSeq := next } : CompensationEntryRecord Meaning)) same
      exact entry
    · exact List.forall_mem_cons.mpr ⟨rfl,ids⟩

theorem maxSeqNumbered {entries : List (CompensationEntryRecord Column)} (numbered : Numbered entries) :
    Tables.maxSeq entries = entries.length := by
  suffices all : ∀ (n : Nat) (first : Int), 0 ≤ first → (countUp first n).foldr max 0 = if n = 0 then 0 else first + n - 1 by
    rw [Tables.maxSeq,numbered,all entries.length 1 (by omega)]
    split <;> omega
  intro n
  induction n with
  | zero => intro first _; rfl
  | succ n ih =>
    intro first positive
    rw [countUp,List.foldr_cons,ih (first + 1) (by omega),if_neg (Nat.succ_ne_zero n)]
    split <;> push_cast <;> omega

theorem applyHeld {patch : TransactionUpdatePatch Value} {set : TransactionUpdatePatch Column} (nextVersion : Int)
    (same : set.read (fun c => meaning (dialect.read c)) = patch.read meaning)
    (state : ∀ v, patch.stateValue = some v → set.stateValue = dialect.write v) {d : TransactionSnapshot Value}
    {row : TransactionRecord Column} (held : Held dialect meaning d row) (items : List (NewEntry Value)) :
    Held dialect meaning (Ledger.pushOnto patch nextVersion items d) (set.apply nextVersion row) := by
  constructor
  · rw [applyRead,same,held.same,← applyRead]
    rfl
  · exact TransactionUpdatePatch.keptState same state held.column

theorem updateStep (related : Related dialect meaning ledger tables) {transactionId : String} {expectedVersion : Int}
    {patch : TransactionUpdatePatch Value} {items : List (NewEntry Value)}
    (texts : (transactionId::patch.texts).all dialect.text = true) (values : ∀ v ∈ patch.values, Kept dialect.write dialect.read meaning v)
    (kept : (ledger.account transactionId).any (·.version = expectedVersion) = true →
      ∀ item ∈ items, item.texts.all dialect.text = true ∧ ∀ v ∈ item.values, Kept dialect.write dialect.read meaning v) :
    (tables.updateTransaction dialect transactionId expectedVersion patch items).1.read meaning =
        (ledger.updateTransaction transactionId expectedVersion patch items).1.read meaning ∧
      Related dialect meaning (ledger.updateTransaction transactionId expectedVersion patch items).2
        (tables.updateTransaction dialect transactionId expectedVersion patch items).2 := by
  obtain ⟨set,written,same,state⟩ := TransactionUpdatePatch.keptWrite values
  simp only [Tables.updateTransaction,bindTexts texts,written,related.current,Ledger.updateTransaction]
  split
  · rename_i current
    obtain ⟨inserted,into,sameEntries,ids⟩ := insertAllKept transactionId (Tables.maxSeq (tables.entries transactionId) + 1) (kept current)
    rw [into]
    refine ⟨rfl,?_,?_,?_⟩
    · exact related.sound.change (Ledger.pushOntoId patch _ items) (fun d _ numbered => Ledger.pushedNumbered numbered d.transactionId items)
    · refine Paired.map (fun d member row held => ?_) related.rows
      rw [held.transactionId,held.version]
      by_cases here : d.transactionId = transactionId
      · have version : d.version = expectedVersion := by
          have found := related.sound.account member
          rw [here] at found
          simpa [found] using current
        rw [if_pos here,if_pos ⟨here,version⟩]
        exact applyHeld (expectedVersion + 1) same state held items
      · rw [if_neg here,if_neg (fun both => here both.1)]
        exact held
    · obtain ⟨d,found⟩ : ∃ d, ledger.account transactionId = some d := by
        cases here : ledger.account transactionId with
        | none => rw [here] at current; cases current
        | some d => exact ⟨d,rfl⟩
      intro id
      dsimp only
      rw [Tables.entries,List.filter_append,List.map_append,← Tables.entries,related.entries]
      by_cases here : id = transactionId
      · subst here
        have all : inserted.filter (·.transactionId = id) = inserted := List.filter_eq_self.mpr (fun e member => decide_eq_true (ids e member))
        have length : ((tables.entries id).length : Int) = d.compensationStack.length := by
          have lengths := congrArg List.length (related.entries id)
          rw [List.length_map,List.length_map,Ledger.stack,found,Option.elim_some] at lengths
          rw [lengths]
        rw [maxSeqNumbered (related.numbered id),length] at sameEntries
        rw [all,sameEntries,Ledger.changeStackHere (Ledger.pushOntoId patch _ items) found,Ledger.stack,found,Option.elim_some,← List.map_append]
        simp only [Ledger.pushOnto,(Ledger.accountMem found).2]
      · have none : inserted.filter (·.transactionId = id) = [] :=
          List.filter_eq_nil_iff.mpr (fun e member => by simp [ids e member,Ne.symm here])
        rw [none,Ledger.changeStackOther (Ledger.pushOntoId patch _ items) here,List.map_nil,List.append_nil]
  · exact ⟨rfl,related⟩

theorem uncompensatedStep (related : Related dialect meaning ledger tables) {transactionId : String} (text : dialect.text transactionId = true) :
    (tables.getUncompensatedStack dialect transactionId).1.read meaning = (ledger.getUncompensatedStack transactionId).1.read meaning ∧
      (tables.getUncompensatedStack dialect transactionId).2 = tables := by
  have bound : dialect.bind [transactionId] (some transactionId) = some transactionId := by simp [Dialect.bind,text]
  simp only [Tables.getUncompensatedStack,bound,Ledger.getUncompensatedStack,Result.read]
  refine ⟨congrArg Result.stack ?_,trivial⟩
  have ascends := (numberedAscends (related.numbered transactionId)).filter (·.compensatedAt.isNone)
  rw [entryRead,lifoReverse ascends,List.map_reverse,related.uncompensated,List.map_reverse]

variable (tables) in
theorem entriesMarked (transactionId : String) (stepSeq compensatedAt : Int) (id : String) :
    (tables.compensations.map (fun e => if e.transactionId = transactionId ∧ e.stepSeq = stepSeq then
        { e with compensatedAt := some compensatedAt } else e)).filter (·.transactionId = id) =
      if id = transactionId then (tables.entries id).map (Ledger.marked stepSeq compensatedAt) else tables.entries id := by
  have ids : (fun e : CompensationEntryRecord Column => decide (e.transactionId = id)) ∘ (fun e : CompensationEntryRecord Column =>
      if e.transactionId = transactionId ∧ e.stepSeq = stepSeq then { e with compensatedAt := some compensatedAt } else e) =
      fun e => decide (e.transactionId = id) := by
    funext e
    unfold Function.comp
    dsimp only
    split <;> rfl
  rw [List.filter_map,ids,← Tables.entries]
  have own : ∀ e ∈ tables.entries id, e.transactionId = id := fun e member => of_decide_eq_true (List.mem_filter.mp member).2
  split
  · rename_i here
    refine List.map_congr_left (fun e member => ?_)
    unfold Ledger.marked
    by_cases seq : e.stepSeq = stepSeq
    · rw [if_pos seq,if_pos ⟨(own e member).trans here,seq⟩]
    · rw [if_neg seq,if_neg (fun both => seq both.2)]
  · rename_i other
    conv_rhs => rw [← List.map_id (tables.entries id)]
    refine List.map_congr_left (fun e member => ?_)
    exact if_neg (fun both => other ((own e member).symm.trans both.1))

variable (tables) in
theorem entriesKept (transactionIds : List String) (id : String) :
    (tables.compensations.filter (fun e => !transactionIds.contains e.transactionId)).filter (·.transactionId = id) =
      if transactionIds.contains id then [] else tables.entries id := by
  rw [List.filter_filter]
  split
  · rename_i gone
    refine List.filter_eq_nil_iff.mpr (fun e _ both => ?_)
    obtain ⟨same,kept⟩ := Bool.and_eq_true_iff.mp both
    rw [of_decide_eq_true same,gone] at kept
    exact nomatch kept
  · rename_i kept
    refine List.filter_congr (fun e _ => ?_)
    by_cases same : e.transactionId = id
    · rw [same,decide_eq_true rfl,Bool.true_and,Bool.not_eq_true',← Bool.not_eq_true]
      exact kept
    · rw [decide_eq_false same,Bool.false_and]

theorem markStep (related : Related dialect meaning ledger tables) {transactionId : String} (text : dialect.text transactionId = true)
    (stepSeq compensatedAt : Int) :
    (tables.markCompensationExecuted dialect transactionId stepSeq compensatedAt).1.read meaning =
        (ledger.markCompensationExecuted transactionId stepSeq compensatedAt).1.read meaning ∧
      Related dialect meaning (ledger.markCompensationExecuted transactionId stepSeq compensatedAt).2
        (tables.markCompensationExecuted dialect transactionId stepSeq compensatedAt).2 := by
  have bound : dialect.bind [transactionId] (some transactionId) = some transactionId := by simp [Dialect.bind,text]
  simp only [Tables.markCompensationExecuted,bound]
  refine ⟨rfl,?_,?_,?_⟩
  · exact related.sound.change (Ledger.markOntoId _ _) (fun d _ numbered => Ledger.markedNumbered numbered stepSeq compensatedAt)
  · refine Paired.mapLeft (fun d _ row held => ?_) related.rows
    split
    · exact ⟨held.same,held.column⟩
    · exact held
  · intro id
    dsimp only [Ledger.markCompensationExecuted]
    rw [Tables.entries,entriesMarked]
    split
    · rename_i here
      subst here
      rw [Ledger.markedRead,related.entries]
      cases found : ledger.account id with
      | none =>
        rw [Ledger.stack,found,Ledger.stack,Ledger.changeAccount (Ledger.markOntoId _ _),found]
        rfl
      | some d =>
        rw [Ledger.changeStackHere (Ledger.markOntoId _ _) found,Ledger.stack,found,Option.elim_some,Ledger.markOnto,Ledger.markedRead]
    · rename_i other
      rw [Ledger.changeStackOther (Ledger.markOntoId _ _) other,related.entries]

theorem whereClauseHeld [DecidableEq Value] [DecidableEq Column] {filter : TransactionQueryFilter Value} {stateEquals : Option Column}
    (bound : writeOption dialect.write filter.stateEquals = some stateEquals) (compares : dialect.Compares ledger filter.stateEquals)
    {d : TransactionSnapshot Value} (member : d ∈ ledger) {row : TransactionRecord Column} (held : Held dialect meaning d row) :
    Tables.whereClause filter filter.stateEquals d.toTransactionRecord = Tables.whereClause filter stateEquals row := by
  have machineId : row.machineId = d.machineId := congrArg (·.machineId) held.same
  have actorId : row.actorId = d.actorId := congrArg (·.actorId) held.same
  have status : row.status = d.status := congrArg (·.status) held.same
  simp only [Tables.whereClause,machineId,actorId,held.transactionId,status,held.updatedAt]
  congr 1
  cases state : filter.stateEquals with
  | none =>
    rw [state,writeOption,Option.some.injEq] at bound
    rw [← bound]
    rfl
  | some f =>
    obtain ⟨column,written,alike⟩ := compares f state
    rw [state,writeOption,written,Option.map_some,Option.some.injEq] at bound
    rw [← bound,Option.all_some,Option.all_some,decide_eq_decide,← alike d member,held.column,Option.some.injEq]

theorem bound {filter : TransactionQueryFilter Value} (compares : dialect.Compares ledger filter.stateEquals) :
    ∃ stateEquals, writeOption dialect.write filter.stateEquals = some stateEquals := by
  cases state : filter.stateEquals with
  | none => exact ⟨none,rfl⟩
  | some f =>
    obtain ⟨column,written,_⟩ := compares f state
    exact ⟨some column,by rw [writeOption,written,Option.map_some]⟩

theorem matchingRows [DecidableEq Value] [DecidableEq Column] (related : Related dialect meaning ledger tables)
    {filter : TransactionQueryFilter Value} {stateEquals : Option Column} (bound : writeOption dialect.write filter.stateEquals = some stateEquals)
    (compares : dialect.Compares ledger filter.stateEquals) :
    List.Forall₂ (Held dialect meaning) (ledger.matching filter) (tables.transactions.filter (Tables.whereClause filter stateEquals)) :=
  Paired.filter (fun _ member _ held => whereClauseHeld bound compares member held) related.rows

theorem countStep [DecidableEq Value] [DecidableEq Column] (related : Related dialect meaning ledger tables)
    {filter : TransactionQueryFilter Value} (texts : filter.texts.all dialect.text = true)
    (compares : dialect.Compares ledger filter.stateEquals) :
    (tables.countTransactions dialect filter).1.read meaning = (ledger.countTransactions filter).1.read meaning ∧
      (tables.countTransactions dialect filter).2 = tables := by
  obtain ⟨stateEquals,bound⟩ := bound compares
  simp only [Tables.countTransactions,bindTexts texts,bound,Ledger.countTransactions,Result.read]
  exact ⟨congrArg Result.count (matchingRows related bound compares).length_eq.symm,trivial⟩

theorem pageMem {α : Type} {xs : List α} {limit offset : Option Int} {x : α} (member : x ∈ Tables.page limit offset xs) : x ∈ xs := by
  unfold Tables.page at member
  cases limit with
  | none => exact List.mem_of_mem_drop member
  | some limit => exact List.mem_of_mem_drop (List.mem_of_mem_take member)

theorem queryStep [DecidableEq Value] [DecidableEq Column] (related : Related dialect meaning ledger tables)
    {filter : TransactionQueryFilter Value} (texts : filter.texts.all dialect.text = true)
    (compares : dialect.Compares ledger filter.stateEquals) (paging : dialect.paging filter.limit filter.offset = true)
    (ages : ((ledger.matching filter).map (·.updatedAt)).Nodup) (nowTimestamp stuckThresholdMs : Int) :
    (tables.queryTransactions dialect filter nowTimestamp stuckThresholdMs).1.read meaning =
        (ledger.queryTransactions filter nowTimestamp stuckThresholdMs).1.read meaning ∧
      (tables.queryTransactions dialect filter nowTimestamp stuckThresholdMs).2 = tables := by
  obtain ⟨stateEquals,bound⟩ := bound compares
  simp only [Tables.queryTransactions,if_pos paging,bindTexts texts,bound,Ledger.queryTransactions,Result.read]
  refine ⟨congrArg Result.rows ?_,trivial⟩
  have found := Paired.arranged (fun _ _ held => held.updatedAt.symm) (matchingRows related bound compares) ages
    (dialect.byAge.perm _) (dialect.byAge.sorted _)
  rw [List.map_map,List.map_map]
  refine (Paired.mapEq (fun d member row held => ?_) (pagePaired found filter.limit filter.offset)).symm
  have inside : d ∈ ledger := (List.mem_filter.mp ((List.perm_insertionSort _ _).mem_iff.mp (pageMem member))).1
  have depth := congrArg List.length (related.uncompensated row.transactionId)
  rw [List.length_map,List.length_map,held.transactionId,related.sound.stack inside] at depth
  simp only [Function.comp,summaryRead,readRead,held.same,held.transactionId,depth]

theorem deleteStep (related : Related dialect meaning ledger tables) {transactionIds : List String}
    (texts : transactionIds.all dialect.text = true) :
    (tables.deleteTransactions dialect transactionIds).1.read meaning = (ledger.deleteTransactions transactionIds).1.read meaning ∧
      Related dialect meaning (ledger.deleteTransactions transactionIds).2 (tables.deleteTransactions dialect transactionIds).2 := by
  cases transactionIds with
  | nil =>
    have all : (ledger.deleteTransactions []).2 = ledger := List.filter_eq_self.mpr (fun _ _ => rfl)
    refine ⟨?_,all.symm ▸ related⟩
    exact congrArg Result.count (List.length_eq_zero_iff.mpr (List.filter_eq_nil_iff.mpr (fun _ _ => Bool.false_ne_true))).symm
  | cons first rest =>
    simp only [Tables.deleteTransactions,bindTexts texts,List.isEmpty_cons,Bool.false_eq_true,if_false]
    refine ⟨?_,?_,?_,?_⟩
    · exact congrArg Result.count (Paired.filter (fun d _ row held => by rw [held.transactionId]) related.rows).length_eq.symm
    · exact related.sound.delete (first::rest)
    · exact Paired.filter (fun d _ row held => by rw [held.transactionId]) related.rows
    · intro id
      rw [Ledger.deleteStack,Tables.entries,entriesKept]
      split
      · rfl
      · exact related.entries id

theorem keepsLedger [DecidableEq Value] [DecidableEq Column] : Machine.Simulates ((sqlStore dialect).seen (Result.read meaning))
    ((Ledger.machine Value).seen (Result.read meaning)) (dialect.Serves meaning) (Related dialect meaning) where
  init := ⟨⟨.nil,fun _ member => absurd member List.not_mem_nil⟩,.nil,fun _ => rfl⟩
  step ledger tables op related serves := by
    cases op with
    | createTransaction record => exact createStep related serves.1 serves.2
    | updateTransaction transactionId expectedVersion patch items => exact updateStep related serves.1 serves.2.1 serves.2.2
    | markCompensationExecuted transactionId stepSeq compensatedAt => exact markStep related serves stepSeq compensatedAt
    | deleteTransactions transactionIds => exact deleteStep related serves
    | getTransaction transactionId =>
      obtain ⟨answer,same⟩ := getStep related serves
      exact ⟨answer,same.symm ▸ related⟩
    | getUncompensatedStack transactionId =>
      obtain ⟨answer,same⟩ := uncompensatedStep related serves
      exact ⟨answer,same.symm ▸ related⟩
    | countTransactions filter =>
      obtain ⟨answer,same⟩ := countStep related serves.1 serves.2
      exact ⟨answer,same.symm ▸ related⟩
    | queryTransactions filter nowTimestamp stuckThresholdMs =>
      obtain ⟨texts,compares,paging,ages⟩ := serves
      obtain ⟨answer,same⟩ := queryStep related texts compares paging ages nowTimestamp stuckThresholdMs
      exact ⟨answer,same.symm ▸ related⟩

/-! Whatever a database takes or refuses. -/

theorem insertAllSeqs {transactionId : String} {next : Int} {items : List (NewEntry Value)} {inserted : List (CompensationEntryRecord Column)}
    (into : Tables.insertAll dialect transactionId next items = some inserted) :
    inserted.map (·.stepSeq) = countUp next inserted.length ∧ ∀ e ∈ inserted, e.transactionId = transactionId := by
  induction items generalizing next inserted with
  | nil =>
    cases into
    exact ⟨rfl,fun _ member => absurd member List.not_mem_nil⟩
  | cons item rest ih =>
    simp only [Tables.insertAll,Option.bind_eq_bind,Option.bind_eq_some_iff,Option.pure_def,Option.some.injEq] at into
    obtain ⟨row,_,later,into,rfl⟩ := into
    obtain ⟨seqs,ids⟩ := ih into
    exact ⟨congrArg (next::·) seqs,List.forall_mem_cons.mpr ⟨rfl,ids⟩⟩

variable (dialect) in
theorem stepNumbered [DecidableEq Column] (numbered : ∀ id, Numbered (tables.entries id)) (op : Op Value) (id : String) :
    Numbered ((tables.step dialect op).2.entries id) := by
  cases op with
  | createTransaction record =>
    simp only [Tables.step,Tables.createTransaction]
    split
    · exact numbered id
    · split <;> exact numbered id
  | updateTransaction transactionId expectedVersion patch items =>
    simp only [Tables.step,Tables.updateTransaction]
    split
    · exact numbered id
    · split
      · split
        · exact numbered id
        · rename_i inserted into
          obtain ⟨seqs,ids⟩ := insertAllSeqs into
          rw [Tables.entries,List.filter_append,← Tables.entries]
          by_cases here : id = transactionId
          · subst here
            rw [List.filter_eq_self.mpr (fun e member => decide_eq_true (ids e member))]
            rw [maxSeqNumbered (numbered id)] at seqs
            exact appendedNumbered (numbered id) seqs
          · rw [List.filter_eq_nil_iff.mpr (fun e member => by simp [ids e member,Ne.symm here]),List.append_nil]
            exact numbered id
      · exact numbered id
  | markCompensationExecuted transactionId stepSeq compensatedAt =>
    simp only [Tables.step,Tables.markCompensationExecuted]
    split
    · exact numbered id
    · rw [Tables.entries,entriesMarked]
      split
      · exact Ledger.markedNumbered (numbered id) stepSeq compensatedAt
      · exact numbered id
  | deleteTransactions transactionIds =>
    simp only [Tables.step,Tables.deleteTransactions]
    split
    · exact numbered id
    · split
      · exact numbered id
      · rw [Tables.entries,entriesKept]
        split
        · rfl
        · exact numbered id
  | getTransaction _ | getUncompensatedStack _ | countTransactions _ | queryTransactions _ _ _ =>
    simp only [Tables.step,Tables.getTransaction,Tables.getUncompensatedStack,Tables.countTransactions,Tables.queryTransactions]
    repeat' split
    all_goals exact numbered id

def version (tables : Tables Column) (transactionId : String) : Option Int := (tables.row transactionId).map (·.version)

def stepSeqs (tables : Tables Column) (transactionId : String) : List Int := (tables.entries transactionId).map (·.stepSeq)

theorem rowMem {transactionId : String} {row : TransactionRecord Column} (found : tables.row transactionId = some row) :
    row.transactionId = transactionId := by
  simpa using List.find?_some found

variable (tables) in
theorem rowUpdated (transactionId : String) (expectedVersion nextVersion : Int) (set : TransactionUpdatePatch Column) (id : String) :
    (tables.transactions.map (fun row =>
        if row.transactionId = transactionId ∧ row.version = expectedVersion then set.apply nextVersion row else row)).find?
        (·.transactionId = id) =
      (tables.row id).map (fun row =>
        if row.transactionId = transactionId ∧ row.version = expectedVersion then set.apply nextVersion row else row) := by
  refine Paired.findKeyed (fun row => ?_) tables.transactions id
  split <;> rfl

variable (dialect tables) in
theorem updateOnce (transactionId : String) (expectedVersion : Int) (patch : TransactionUpdatePatch Value) (items : List (NewEntry Value)) :
    let answer := tables.updateTransaction dialect transactionId expectedVersion patch items
    (answer.1 = .updated (expectedVersion + 1) ∧ version tables transactionId = some expectedVersion ∧
      version answer.2 transactionId = some (expectedVersion + 1) ∧
      ∀ other, other ≠ transactionId → version answer.2 other = version tables other) ∨
    (∃ error, answer.1 = .failed error) ∧ answer.2 = tables := by
  intro answer
  simp only [answer,Tables.updateTransaction]
  split
  · exact .inr ⟨⟨_,rfl⟩,rfl⟩
  · rename_i set _
    split
    · rename_i current
      split
      · exact .inr ⟨⟨_,rfl⟩,rfl⟩
      · obtain ⟨row,found,same⟩ : ∃ row, tables.row transactionId = some row ∧ row.version = expectedVersion := by
          cases here : tables.row transactionId with
          | none => rw [here] at current; cases current
          | some row => exact ⟨row,rfl,by simpa [here] using current⟩
        refine .inl ⟨rfl,?_,?_,?_⟩
        · rw [version,found,Option.map_some,same]
        · rw [version,Tables.row,rowUpdated,found,Option.map_some,if_pos ⟨rowMem found,same⟩]
          rfl
        · intro other differs
          rw [version,Tables.row,rowUpdated,version]
          cases there : tables.row other with
          | none => rfl
          | some row => rw [Option.map_some,if_neg (fun both => differs ((rowMem there).symm.trans both.1))]
    · exact .inr ⟨⟨_,rfl⟩,rfl⟩

variable (dialect) in
theorem disciplined [DecidableEq Column] : Disciplined (sqlStore dialect) version stepSeqs where
  numbered ops transactionId :=
    ⟨_,@Machine.runInvariant _ _ (sqlStore dialect) (fun tables : Tables Column => ∀ id, Numbered (tables.entries id))
      (fun _ op numbered id => stepNumbered dialect numbered op id) {} (fun _ => rfl) ops transactionId⟩
  update ops transactionId expectedVersion patch items :=
    updateOnce dialect ((sqlStore dialect).after ops) transactionId expectedVersion patch items

end Relational
end Dfsm.Stores
