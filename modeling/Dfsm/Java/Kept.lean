import Dfsm.Java.Mongo
import Dfsm.Java.Batch
import Dfsm.Lib.Paired

/-! One transaction in a store of the Java SDK, and what each request does to it: the same in
the tables of H2 and in the documents of MongoDB. -/
namespace Dfsm.Java

variable {Context Data S : Type}

/-- A transaction in a store: its row, and its stack. -/
structure Kept (Context Data : Type) where
  row : Option (TransactionRecord Context Data)
  stack : List (CompensationEntryRecord Context Data)

abbrev Serving (Context Data S : Type) : Type :=
  Surroundings Context Data → S → (op : Op Context Data) → Reply Context Data op × S

def Op.Writes : Op Context Data → Prop
  | .createTransaction _ | .updateTransaction _ _ _ _ | .markCompensationExecuted _ _ _ | .deleteTransaction _ _ => True
  | _ => False

/-- What a clean-up relies on of a store: versioned writes to one transaction at a time, and
listings of rows that meet their filters. -/
structure Keeps (serve : Serving Context Data S) (kept : S → String → Kept Context Data) : Prop where
  reads : ∀ user s op, ¬op.Writes → (serve user s op).2 = s
  beside : ∀ user s op t u, op.Concerns u → t ≠ u → kept (serve user s op).2 t = kept s t
  ready : ∀ user s, (serve user s .initialized).1 = true
  get : ∀ user s t, ∃ found, (serve user s (.getTransaction t)).1 = .ok found ∧
    found.map (·.toTransactionRecord) = (kept s t).row
  update : ∀ user s t row patch append, (kept s t).row = some row →
    (serve user s (.updateTransaction t row.version patch append)).1 = .ok (row.version + 1) ∧
      (kept (serve user s (.updateTransaction t row.version patch append)).2 t).row = some (patch.apply row)
  delete : ∀ user s t row, (kept s t).row = some row →
    (serve user s (.deleteTransaction t row.version)).1 = .ok true ∧
      (kept (serve user s (.deleteTransaction t row.version)).2 t).row = none
  grows : ∀ user s op t row, (∀ id version, op ≠ .deleteTransaction id version) → (kept s t).row = some row →
    ∃ later, (kept (serve user s op).2 t).row = some later ∧ row.version ≤ later.version
  inFlight : ∀ user s f at_ threshold, ∃ found, (serve user s (.listInFlight f at_ threshold)).1 = .ok found ∧
    (found.map (·.transactionId)).Nodup ∧ ∀ item ∈ found, ∃ row, (kept s item.transactionId).row = some row ∧
      H2StateStore.inFlightWhere f at_ threshold row = true
  byStatuses : ∀ user s f at_ threshold, ∃ found, (serve user s (.listByStatuses f at_ threshold)).1 = .ok found ∧
    (found.map (·.transactionId)).Nodup ∧ ∀ item ∈ found, ∃ row, (kept s item.transactionId).row = some row ∧
      H2StateStore.statusWhere f row = true

theorem foundElsewhere {α : Type} {key : α → String} {t id : String} (other : t ≠ id) (xs : List α) :
    (xs.filter (fun x => key x != id)).find? (fun x => decide (key x = t)) = xs.find? (fun x => decide (key x = t)) := by
  rw [List.find?_filter]
  refine congrArg (List.find? · xs) (funext fun x => ?_)
  by_cases here : key x = t
  · simp [here,other]
  · simp [here]

theorem foundGone {α : Type} {key : α → String} {id : String} (xs : List α) :
    (xs.filter (fun x => key x != id)).find? (fun x => decide (key x = id)) = none := by
  refine List.find?_eq_none.mpr (fun x mem => ?_)
  simpa using (List.mem_filter.mp mem).2

theorem foundStill {α : Type} {p : α → Bool} {xs ys : List α} {x : α} (found : xs.find? p = some x) : (xs ++ ys).find? p = some x := by
  rw [List.find?_append,found]
  rfl

namespace H2StateStore
variable {store : H2StateStore Context Data} {t id : String}

theorem rowId {row : TransactionRecord Context Data} (here : store.row t = some row) : row.transactionId = t := by
  have same := List.find?_some here
  exact of_decide_eq_true same

theorem withRowFound (change : TransactionRecord Context Data → TransactionRecord Context Data) (same) (t : String) :
    (store.withRow id change same).row t = (store.row t).map (fun row => if row.transactionId = id then change row else row) := by
  refine Paired.findKeyed (fun row => ?_) store.transactions t
  split
  · exact same row
  · rfl

theorem withRowOther (change : TransactionRecord Context Data → TransactionRecord Context Data) (same) (other : t ≠ id) :
    (store.withRow id change same).row t = store.row t := by
  rw [withRowFound]
  cases here : store.row t with
  | none => rfl
  | some row => rw [Option.map_some,if_neg (by rw [rowId here]; exact other)]

theorem numberedIds {append : List (NewCompensationEntry Context Data)} {next : Nat} :
    ∀ e ∈ numbered id next append, e.transactionId = id := by
  induction append generalizing next with
  | nil => exact fun e mem => absurd mem List.not_mem_nil
  | cons c rest ih =>
    intro e mem
    rcases List.mem_cons.mp mem with rfl | later
    · rfl
    · exact ih e later

theorem pushedElsewhere {append : List (NewCompensationEntry Context Data)} {next : Nat} (other : t ≠ id) :
    (store.compensations ++ numbered id next append).filter (fun e => decide (e.transactionId = t)) = store.entries t := by
  have none : (numbered id next append).filter (fun e => decide (e.transactionId = t)) = [] :=
    List.filter_eq_nil_iff.mpr (fun e mem => by rw [numberedIds e mem]; simpa using other.symm)
  rw [List.filter_append,none,List.append_nil]
  rfl

theorem markElsewhere {stepSeq compensatedAt} (other : t ≠ id) :
    (store.markCompensationExecuted id stepSeq compensatedAt).entries t = store.entries t := by
  unfold entries markCompensationExecuted
  induction store.compensations with
  | nil => rfl
  | cons e rest ih =>
    rw [List.map_cons,List.filter_cons,List.filter_cons,ih]
    by_cases marked : e.transactionId = id ∧ e.stepSeq = stepSeq
    · simp [marked.1,marked.2,other.symm]
    · rw [if_neg marked]

theorem remaining (other : t ≠ id) :
    (store.compensations.filter (fun e => e.transactionId != id)).filter (fun e => decide (e.transactionId = t)) = store.entries t := by
  rw [List.filter_filter]
  refine List.filter_congr (fun e _ => ?_)
  by_cases here : e.transactionId = t
  · simp [here,other]
  · simp [here]

theorem deleteElsewhere (store : H2StateStore Context Data) {version} (other : t ≠ id) :
    (store.deleteTransaction id version).2.row t = store.row t ∧ (store.deleteTransaction id version).2.entries t = store.entries t := by
  unfold deleteTransaction
  split
  · exact ⟨rfl,rfl⟩
  · split
    · exact ⟨foundElsewhere other _,remaining other⟩
    · exact ⟨rfl,rfl⟩

theorem paged {keep : TransactionRecord Context Data → Bool} {limit offset at_ threshold} :
    ∀ item ∈ (page limit offset (store.transactions.filter keep)).map (store.summary at_ threshold),
      ∃ row, store.row item.transactionId = some row ∧ keep row = true := by
  intro item mem
  obtain ⟨row,here,rfl⟩ := List.mem_map.mp mem
  have kept := (List.perm_insertionSort _ _).mem_iff.mp (((List.take_sublist _ _).trans (List.drop_sublist _ _)).subset here)
  obtain ⟨stored,meets⟩ := List.mem_filter.mp kept
  refine ⟨row,?_,meets⟩
  cases found : store.row row.transactionId with
  | none => exact absurd (decide_eq_true rfl) (List.find?_eq_none.mp found row stored)
  | some other =>
    exact found.trans (congrArg some (List.inj_on_of_nodup_map store.unique (List.mem_of_find?_eq_some found) stored (rowId found)))

def kept (store : H2StateStore Context Data) (t : String) : Kept Context Data := ⟨store.row t,store.entries t⟩

theorem updateElsewhere {version patch append} (other : t ≠ id) :
    (store.updateTransaction id version patch append).2.kept t = store.kept t := by
  unfold updateTransaction
  split
  · rfl
  · exact congrArg₂ Kept.mk (withRowOther patch.apply (fun _ => rfl) other) (pushedElsewhere other)

theorem updateHere {row : TransactionRecord Context Data} {patch append} (here : store.row t = some row) :
    (store.updateTransaction t row.version patch append).1 = .ok (row.version + 1) ∧
      (store.updateTransaction t row.version patch append).2.row t = some (patch.apply row) := by
  have current : (store.row t).filter (fun r => decide (r.version = row.version)) = some row := by
    rw [here]
    exact Option.filter_eq_some_iff.mpr ⟨rfl,by simp⟩
  unfold updateTransaction
  rw [current]
  refine ⟨rfl,(withRowFound patch.apply (fun _ => rfl) t).trans ?_⟩
  rw [here,Option.map_some,if_pos (rowId here)]

theorem updateGrows {version patch append} {row : TransactionRecord Context Data} (here : store.row t = some row) :
    ∃ later, (store.updateTransaction id version patch append).2.row t = some later ∧ row.version ≤ later.version := by
  unfold updateTransaction
  split
  · exact ⟨row,here,Nat.le_refl _⟩
  · refine ⟨_,(withRowFound patch.apply (fun _ => rfl) t).trans (by rw [here]; rfl),?_⟩
    dsimp only
    split
    · exact Nat.le_succ _
    · exact Nat.le_refl _

theorem deleteHere {row : TransactionRecord Context Data} (here : store.row t = some row) :
    (store.deleteTransaction t row.version).1 = .ok true ∧ (store.deleteTransaction t row.version).2.row t = none := by
  unfold deleteTransaction
  rw [here]
  dsimp only
  rw [if_pos rfl]
  exact ⟨rfl,foundGone _⟩

theorem createGrows {record : TransactionRecord Context Data} {row : TransactionRecord Context Data} (here : store.row t = some row) :
    (store.createTransaction record).2.row t = some row := by
  unfold createTransaction
  split
  · exact foundStill here
  · exact here

theorem keeps : @Keeps Context Data _ serve kept where
  reads user s op reads := by cases op <;> first | rfl | exact absurd trivial reads
  beside user s op t u concerns other := by
    cases op with
    | createTransaction => exact concerns.elim
    | updateTransaction => cases concerns; exact updateElsewhere other
    | markCompensationExecuted => cases concerns; exact congrArg₂ Kept.mk rfl (markElsewhere other)
    | deleteTransaction =>
      cases concerns
      obtain ⟨row,stack⟩ := deleteElsewhere s other
      exact congrArg₂ Kept.mk row stack
    | _ => rfl
  ready _ _ := rfl
  get user s t := ⟨s.getTransaction t,rfl,by
    unfold getTransaction
    rw [Option.map_map]
    exact Option.map_id'⟩
  update user s t row patch append here := updateHere here
  delete user s t row here := deleteHere here
  grows user s op t row keeps here := by
    cases op with
    | createTransaction => exact ⟨row,createGrows here,Nat.le_refl _⟩
    | updateTransaction => exact updateGrows here
    | deleteTransaction id version => exact absurd rfl (keeps id version)
    | _ => exact ⟨row,here,Nat.le_refl _⟩
  inFlight user s f at_ threshold := ⟨_,rfl,sortedIds,paged⟩
  byStatuses user s f at_ threshold := ⟨_,rfl,sortedIds,paged⟩

end H2StateStore

namespace MongoStateStore
variable {store : MongoStateStore Context Data} {t id : String}

theorem documentId {doc : TransactionSnapshot Context Data} (here : store.findOne t = some doc) : doc.transactionId = t := by
  have same := List.find?_some here
  exact of_decide_eq_true same

theorem withDocumentFound (change : TransactionSnapshot Context Data → TransactionSnapshot Context Data) (same) (t : String) :
    (store.withDocument id change same).findOne t =
      (store.findOne t).map (fun doc => if doc.transactionId = id then change doc else doc) := by
  refine Paired.findKeyed (fun doc => ?_) store.documents t
  split
  · exact same doc
  · rfl

theorem withDocumentOther (change : TransactionSnapshot Context Data → TransactionSnapshot Context Data) (same) (other : t ≠ id) :
    (store.withDocument id change same).findOne t = store.findOne t := by
  rw [withDocumentFound]
  cases here : store.findOne t with
  | none => rfl
  | some doc => rw [Option.map_some,if_neg (by rw [documentId here]; exact other)]

def kept (store : MongoStateStore Context Data) (t : String) : Kept Context Data :=
  ⟨(store.findOne t).map (·.toTransactionRecord),(store.findOne t).elim [] (·.compensationStack)⟩

theorem keptFound {store' : MongoStateStore Context Data} (same : store'.findOne t = store.findOne t) : store'.kept t = store.kept t := by
  unfold kept
  rw [same]

theorem rowFound {row : TransactionRecord Context Data} (here : (store.kept t).row = some row) :
    ∃ doc, store.findOne t = some doc ∧ doc.toTransactionRecord = row := Option.map_eq_some_iff.mp here

theorem findOneAndUpdateCases (store : MongoStateStore Context Data) (transactionId : String) (version : Nat)
    (patch : TransactionPatch Context Data) (entries) :
    store.findOneAndUpdate transactionId version patch entries = (.error (.staleTransactionVersion transactionId version),store) ∧
      (∀ doc, store.findOne transactionId = some doc → doc.version ≠ version) ∨
    ∃ doc, store.findOne transactionId = some doc ∧ doc.version = version ∧
      store.findOneAndUpdate transactionId version patch entries =
        (.ok (version + 1),store.withDocument transactionId (pushOnto patch entries) (fun _ => rfl)) := by
  unfold findOneAndUpdate
  cases current : (store.findOne transactionId).filter (fun doc => decide (doc.version = version)) with
  | none =>
    refine .inl ⟨rfl,fun doc here same => ?_⟩
    rw [here] at current
    simp [Option.filter,same] at current
  | some doc =>
    obtain ⟨here,same⟩ := Option.filter_eq_some_iff.mp current
    exact .inr ⟨doc,here,of_decide_eq_true same,rfl⟩

theorem updateCases (store : MongoStateStore Context Data) (transactionId : String) (version : Nat) (patch : TransactionPatch Context Data) (append) :
    store.updateTransaction transactionId version patch append =
        (.error (.staleTransactionVersion transactionId version),store) ∧
      (∀ doc, store.findOne transactionId = some doc → doc.version ≠ version) ∨
    ∃ doc entries, store.findOne transactionId = some doc ∧ doc.version = version ∧ entries = toPush transactionId doc append ∧
      store.updateTransaction transactionId version patch append =
        (.ok (version + 1),store.withDocument transactionId (pushOnto patch entries) (fun _ => rfl)) := by
  unfold updateTransaction
  split
  · rename_i nothing
    rcases findOneAndUpdateCases store transactionId version patch [] with stale | ⟨doc,here,same,moved⟩
    · exact .inl stale
    · exact .inr ⟨doc,[],here,same,(by rw [nothing]; rfl),moved⟩
  · split
    · rename_i absent
      exact .inl ⟨rfl,fun doc here => by rw [absent] at here; cases here⟩
    · rename_i existing found
      rcases findOneAndUpdateCases store transactionId version patch (toPush transactionId existing append) with stale | ⟨doc,here,same,moved⟩
      · exact .inl stale
      · cases Option.some.inj (found.symm.trans here)
        exact .inr ⟨existing,_,here,same,rfl,moved⟩

theorem updateElsewhere {version patch append} (other : t ≠ id) :
    (store.updateTransaction id version patch append).2.kept t = store.kept t := by
  rcases updateCases store id version patch append with ⟨stale,_⟩ | ⟨doc,entries,_,_,_,moved⟩
  · rw [stale]
  · rw [moved]
    exact keptFound (withDocumentOther (pushOnto patch entries) (fun _ => rfl) other)

theorem updateHere {row : TransactionRecord Context Data} {patch append} (here : (store.kept t).row = some row) :
    (store.updateTransaction t row.version patch append).1 = .ok (row.version + 1) ∧
      ((store.updateTransaction t row.version patch append).2.kept t).row = some (patch.apply row) := by
  obtain ⟨doc,found,rfl⟩ := rowFound here
  rcases updateCases store t doc.version patch append with ⟨_,old⟩ | ⟨doc',entries,found',_,_,moved⟩
  · exact absurd rfl (old doc found)
  · cases Option.some.inj (found.symm.trans found')
    rw [moved]
    refine ⟨rfl,Option.map_eq_some_iff.mpr ⟨pushOnto patch entries doc,?_,rfl⟩⟩
    refine (withDocumentFound (pushOnto patch entries) (fun _ => rfl) t).trans ?_
    rw [found,Option.map_some,if_pos (documentId found)]

theorem updateGrows {version patch append} {row : TransactionRecord Context Data} (here : (store.kept t).row = some row) :
    ∃ later, ((store.updateTransaction id version patch append).2.kept t).row = some later ∧ row.version ≤ later.version := by
  obtain ⟨doc,found,rfl⟩ := rowFound here
  rcases updateCases store id version patch append with ⟨stale,_⟩ | ⟨_,entries,_,_,_,moved⟩
  · rw [stale]
    exact ⟨_,here,Nat.le_refl _⟩
  · rw [moved]
    refine ⟨_,Option.map_eq_some_iff.mpr ⟨_,(withDocumentFound (pushOnto patch entries) (fun _ => rfl) t).trans
      (by rw [found]; rfl),rfl⟩,?_⟩
    dsimp only
    split
    · exact Nat.le_succ _
    · exact Nat.le_refl _

theorem deleteElsewhere {version} (other : t ≠ id) : (store.deleteTransaction id version).2.kept t = store.kept t := by
  unfold deleteTransaction
  split
  · rfl
  · split
    · exact keptFound (foundElsewhere other _)
    · rfl

theorem deleteHere {row : TransactionRecord Context Data} (here : (store.kept t).row = some row) :
    (store.deleteTransaction t row.version).1 = .ok true ∧ ((store.deleteTransaction t row.version).2.kept t).row = none := by
  obtain ⟨doc,found,rfl⟩ := rowFound here
  unfold deleteTransaction
  rw [found]
  dsimp only
  rw [if_pos rfl]
  exact ⟨rfl,Option.map_eq_none_iff.mpr (foundGone _)⟩

theorem createGrows {record : TransactionRecord Context Data} {row : TransactionRecord Context Data} (here : (store.kept t).row = some row) :
    ((store.createTransaction record).2.kept t).row = some row := by
  obtain ⟨doc,found,rfl⟩ := rowFound here
  unfold createTransaction
  split
  · exact Option.map_eq_some_iff.mpr ⟨doc,foundStill found,rfl⟩
  · exact here

theorem sortedIds {oldest : Oldest Context Data} {keep : TransactionSnapshot Context Data → Bool} {limit offset at_ threshold} :
    (((cursor oldest limit offset (store.documents.filter keep)).map (summary at_ threshold)).map (·.transactionId)).Nodup := by
  rw [List.map_map]
  have sorted : ((oldest.arrange (store.documents.filter keep)).map (·.transactionId)).Nodup :=
    (((oldest.perm _).map _).nodup_iff).mpr (store.unique.sublist (List.filter_sublist.map _))
  exact sorted.sublist (((List.take_sublist _ _).trans (List.drop_sublist _ _)).map _)

theorem paged {oldest : Oldest Context Data} {keep : TransactionSnapshot Context Data → Bool} {limit offset at_ threshold} :
    ∀ item ∈ (cursor oldest limit offset (store.documents.filter keep)).map (summary at_ threshold),
      ∃ doc, store.findOne item.transactionId = some doc ∧ keep doc = true := by
  intro item mem
  obtain ⟨doc,here,rfl⟩ := List.mem_map.mp mem
  have kept := (oldest.perm _).mem_iff.mp (((List.take_sublist _ _).trans (List.drop_sublist _ _)).subset here)
  obtain ⟨stored,meets⟩ := List.mem_filter.mp kept
  refine ⟨doc,?_,meets⟩
  cases found : store.findOne doc.transactionId with
  | none => exact absurd (decide_eq_true rfl) (List.find?_eq_none.mp found doc stored)
  | some other =>
    exact found.trans (congrArg some (List.inj_on_of_nodup_map store.unique (List.mem_of_find?_eq_some found) stored (documentId found)))

theorem keeps (oldest : Oldest Context Data) : Keeps (serveMongo oldest) kept where
  reads user s op reads := by cases op <;> first | rfl | exact absurd trivial reads
  beside user s op t u concerns other := by
    cases op with
    | createTransaction => exact concerns.elim
    | updateTransaction => cases concerns; exact updateElsewhere other
    | markCompensationExecuted _ stepSeq at_ =>
      cases concerns
      exact keptFound (withDocumentOther (markOnto stepSeq at_) (fun _ => rfl) other)
    | deleteTransaction => cases concerns; exact deleteElsewhere other
    | _ => rfl
  ready _ _ := rfl
  get user s t := ⟨s.findOne t,rfl,rfl⟩
  update user s t row patch append here := updateHere here
  delete user s t row here := deleteHere here
  grows user s op t row keeps here := by
    cases op with
    | createTransaction => exact ⟨row,createGrows here,Nat.le_refl _⟩
    | updateTransaction => exact updateGrows here
    | markCompensationExecuted id stepSeq at_ =>
      obtain ⟨doc,found,rfl⟩ := rowFound here
      refine ⟨doc.toTransactionRecord,Option.map_eq_some_iff.mpr ⟨_,(withDocumentFound (markOnto stepSeq at_) (fun _ => rfl) t).trans
        (by rw [found]; rfl),?_⟩,Nat.le_refl _⟩
      dsimp only
      split <;> rfl
    | deleteTransaction id version => exact absurd rfl (keeps id version)
    | _ => exact ⟨row,here,Nat.le_refl _⟩
  inFlight user s f at_ threshold := by
    refine ⟨_,rfl,sortedIds,fun item mem => ?_⟩
    obtain ⟨doc,found,meets⟩ := paged item mem
    exact ⟨doc.toTransactionRecord,Option.map_eq_some_iff.mpr ⟨doc,found,rfl⟩,(inFlightWhere f at_ threshold _).symm.trans meets⟩
  byStatuses user s f at_ threshold := by
    refine ⟨_,rfl,sortedIds,fun item mem => ?_⟩
    obtain ⟨doc,found,meets⟩ := paged item mem
    exact ⟨doc.toTransactionRecord,Option.map_eq_some_iff.mpr ⟨doc,found,rfl⟩,(statusWhere f _).symm.trans meets⟩

end MongoStateStore

end Dfsm.Java
