import Dfsm.Runtime.Phases

/-! One transaction in a run: what the store holds of it, the stage each call has reached
on it, and what one answered request does to both. -/
namespace Dfsm

variable {Context Data : Type}

/-- What the store holds of a transaction. -/
structure World (Context Data : Type) where
  row : Option (TransactionRecord Context Data)
  entries : List (CompensationEntryRecord Context Data)

def Store.world (store : Store Context Data) (t : String) : World Context Data := ⟨store.row t,store.entries t⟩

def CompensationEntryRecord.marked (stepSeq : Nat) (compensatedAt : Int) (e : CompensationEntryRecord Context Data) :
    CompensationEntryRecord Context Data :=
  if e.stepSeq = stepSeq then { e with compensatedAt := some compensatedAt } else e

namespace World

def snapshot (w : World Context Data) : Option (TransactionSnapshot Context Data) :=
  w.row.map (fun row => { row with compensationStack := Store.lifo w.entries })

def uncompensated (w : World Context Data) : List (CompensationEntryRecord Context Data) :=
  w.entries.filter (·.compensatedAt.isNone)

/-- What an answered request has made of the transaction. -/
def after (t : String) (w : World Context Data) : (op : Op Context Data) → Reply Context Data op → World Context Data
  | .createTransaction record, .ok _ => if record.transactionId = t then { w with row := some record } else w
  | .updateTransaction id _ patch append, .ok _ =>
    if id = t then ⟨w.row.map patch.apply,w.entries ++ Store.numbered t (Store.maxSeq w.entries + 1) append⟩ else w
  | .markCompensationExecuted id stepSeq compensatedAt, _ =>
    if id = t then { w with entries := w.entries.map (·.marked stepSeq compensatedAt) } else w
  | .deleteTransactions ids, _ => if t ∈ ids then ⟨none,[]⟩ else w
  | _, _ => w

/-- What the answer tells of the transaction. -/
def Tells (t : String) (w : World Context Data) : (op : Op Context Data) → Reply Context Data op → Prop
  | .createTransaction record, .ok _ => record.transactionId = t → w.row = none
  | .getTransaction id, found => id = t → found = w.snapshot
  | .updateTransaction id version _ _, .ok next => id = t →
    ∃ row, w.row = some row ∧ row.version = version ∧ next = version + 1
  | .updateTransaction id version _ _, .error e => e = .staleTransactionVersion id version
  | .getUncompensatedStack id, found => id = t → found = Store.lifo w.uncompensated
  | .queryTransactions filter nowTimestamp stuckThresholdMs, found => ∀ item ∈ found, item.transactionId = t →
    w.row = some item.toTransactionRecord ∧ Store.matchesFilter filter item.toTransactionRecord = true ∧
      item.isStuck = ((item.status = .IN_FLIGHT || item.status = .COMPENSATING) &&
        decide (stuckThresholdMs ≤ nowTimestamp - item.updatedAt))
  | _, _ => True

end World

/-! The store, one transaction at a time. -/

namespace Store

variable {store : Store Context Data} {t id : String}

theorem rowId {row : TransactionRecord Context Data} (here : store.row t = some row) : row.transactionId = t := by
  simpa using List.find?_some here

theorem rowOf {row : TransactionRecord Context Data} (mem : row ∈ store.transactions) : store.row row.transactionId = some row := by
  unfold Store.row
  obtain ⟨transactions,_,unique⟩ := store
  dsimp only at mem ⊢
  induction transactions with
  | nil => contradiction
  | cons head rest ih =>
    obtain ⟨fresh,unique⟩ := List.nodup_cons.mp unique
    rcases List.mem_cons.mp mem with rfl | later
    · simp
    · have other : head.transactionId ≠ row.transactionId :=
        fun same => fresh (List.mem_map.mpr ⟨row,later,same.symm⟩)
      rw [List.find?_cons_of_neg (by simpa using other)]
      exact ih unique later

theorem createdWorld {record : TransactionRecord Context Data} {next} (created : store.createTransaction record = some next) :
    (record.transactionId = t → store.row t = none) ∧
      next.world t = if record.transactionId = t then { store.world t with row := some record } else store.world t := by
  unfold createTransaction at created
  split at created <;> cases created
  rename_i fresh
  have absent : store.row record.transactionId = none := by
    simp only [Store.row,List.find?_eq_none,decide_eq_true_eq]
    exact fun row mem same => fresh (List.mem_map.mpr ⟨row,mem,same⟩)
  refine ⟨fun same => same ▸ absent,?_⟩
  by_cases same : record.transactionId = t
  · subst same
    simp only [world,Store.row,entries,List.find?_append,if_true]
    unfold Store.row at absent
    simp [absent]
  · simp [world,Store.row,entries,List.find?_append,same]

theorem numberedIds (nextSeq : Nat) (append : List (PendingCompensation Context Data)) :
    ∀ e ∈ numbered id nextSeq append, e.transactionId = id := by
  induction append generalizing nextSeq with
  | nil => simp [numbered]
  | cons item rest ih =>
    intro e mem
    rcases List.mem_cons.mp mem with rfl | later
    · rfl
    · exact ih _ e later

theorem withRowRow {change : TransactionRecord Context Data → TransactionRecord Context Data} {same} :
    (store.withRow id change same).row t = if id = t then (store.row t).map change else store.row t := by
  unfold withRow Store.row
  dsimp only
  rw [List.find?_map]
  have judged : (fun row : TransactionRecord Context Data => decide (row.transactionId = t)) ∘
      (fun row => if row.transactionId = id then change row else row) = fun row => decide (row.transactionId = t) := by
    funext row
    simp only [Function.comp]
    split
    · rw [same row]
    · rfl
  rw [judged]
  cases found : store.transactions.find? (fun row => decide (row.transactionId = t)) with
  | none => simp
  | some row =>
    have here : row.transactionId = t := by simpa using List.find?_some found
    by_cases named : id = t
    · simp [named,here]
    · simp [named,here,Ne.symm named]

theorem updatedWorld {version next patch append} {next' : Store Context Data}
    (updated : store.updateTransaction id version patch append = some (next,next')) :
    (∃ row, store.row id = some row ∧ row.version = version ∧ next = version + 1) ∧ next'.world t =
      if id = t then ⟨(store.row t).map patch.apply,store.entries t ++ numbered t (maxSeq (store.entries t) + 1) append⟩
        else store.world t := by
  unfold updateTransaction at updated
  split at updated
  · contradiction
  · rename_i row here
    split at updated <;> cases updated
    rename_i current
    refine ⟨⟨row,here,current,rfl⟩,?_⟩
    have rows := @withRowRow _ _ store t id patch.apply (fun _ => rfl)
    by_cases named : id = t
    · subst named
      simp only [if_true] at rows ⊢
      have all : (numbered id (maxSeq (store.entries id) + 1) append).filter (·.transactionId = id) =
          numbered id (maxSeq (store.entries id) + 1) append := by
        rw [List.filter_eq_self]
        intro e mem
        simpa using numberedIds _ _ e mem
      simp only [world,World.mk.injEq]
      refine ⟨rows,?_⟩
      simp only [entries,List.filter_append]
      unfold entries at all
      rw [all]
    · simp only [named,if_false] at rows ⊢
      simp only [world,World.mk.injEq]
      refine ⟨rows,?_⟩
      have none : (numbered id (maxSeq (store.entries id) + 1) append).filter (·.transactionId = t) = [] := by
        rw [List.filter_eq_nil_iff]
        intro e mem
        simpa [numberedIds _ _ e mem] using named
      simp only [entries,List.filter_append]
      unfold entries at none
      rw [none,List.append_nil]

theorem markedWorld {stepSeq compensatedAt} : (store.markCompensationExecuted id stepSeq compensatedAt).world t =
    if id = t then { store.world t with entries := (store.entries t).map (·.marked stepSeq compensatedAt) } else store.world t := by
  have kept : ((fun e : CompensationEntryRecord Context Data => decide (e.transactionId = t)) ∘ fun e =>
      if e.transactionId = id ∧ e.stepSeq = stepSeq then { e with compensatedAt := some compensatedAt } else e) =
        fun e => decide (e.transactionId = t) := by
    funext e
    simp only [Function.comp]
    split <;> rfl
  have entries : (store.markCompensationExecuted id stepSeq compensatedAt).entries t =
      if id = t then (store.entries t).map (·.marked stepSeq compensatedAt) else store.entries t := by
    unfold markCompensationExecuted Store.entries
    rw [List.filter_map,kept]
    by_cases named : id = t
    · simp only [named,if_true]
      refine List.map_congr_left (fun e mem => ?_)
      have here : e.transactionId = t := by simpa using (List.mem_filter.mp mem).2
      simp [CompensationEntryRecord.marked,here]
    · simp only [named,if_false]
      refine (List.map_congr_left (fun e mem => ?_)).trans (List.map_id _)
      have here : e.transactionId = t := by simpa using (List.mem_filter.mp mem).2
      simp [here,Ne.symm named]
  unfold world
  rw [entries]
  split <;> rfl

theorem deletedWorld {ids : List String} :
    (store.deleteTransactions ids).2.world t = if t ∈ ids then ⟨none,[]⟩ else store.world t := by
  unfold world deleteTransactions Store.row Store.entries
  simp only [List.find?_filter,List.filter_filter]
  by_cases listed : t ∈ ids
  · simp only [listed,if_true,World.mk.injEq,List.find?_eq_none,List.filter_eq_nil_iff]
    refine ⟨fun row _ judged => ?_,fun e _ judged => ?_⟩
    · simp only [decide_eq_true_eq,Bool.not_eq_true',List.contains_eq_mem,decide_eq_false_iff_not] at judged
      exact judged.1 (judged.2 ▸ listed)
    · simp only [Bool.and_eq_true,decide_eq_true_eq,Bool.not_eq_true',List.contains_eq_mem,decide_eq_false_iff_not] at judged
      exact judged.2 (judged.1 ▸ listed)
  · simp only [listed,if_false,World.mk.injEq]
    refine ⟨?_,?_⟩
    · congr 1
      funext row
      by_cases here : row.transactionId = t
      · simp [here,listed]
      · simp [here]
    · congr 1
      funext e
      by_cases here : e.transactionId = t
      · simp [here,listed]
      · simp [here]

theorem queryRows {filter : TransactionQueryFilter} {nowTimestamp stuckThresholdMs : Int} :
    ∃ rows : List (TransactionRecord Context Data), (∃ found, found.Perm (store.transactions.filter (matchesFilter filter)) ∧
        rows.Sublist found) ∧
      store.queryTransactions filter nowTimestamp stuckThresholdMs = rows.map (store.summary nowTimestamp stuckThresholdMs) := by
  let found := (store.transactions.filter (matchesFilter filter)).insertionSort (fun a b => a.updatedAt ≤ b.updatedAt)
  have perm : found.Perm (store.transactions.filter (matchesFilter filter)) := List.perm_insertionSort _ _
  unfold queryTransactions
  cases filter.limit with
  | none => exact ⟨found,⟨found,perm,List.Sublist.refl _⟩,rfl⟩
  | some limit => exact ⟨found.take limit.toNat,⟨found,perm,List.take_sublist _ _⟩,rfl⟩

theorem queryTells {filter : TransactionQueryFilter} {nowTimestamp stuckThresholdMs : Int} {item}
    (mem : item ∈ store.queryTransactions filter nowTimestamp stuckThresholdMs) :
    store.row item.transactionId = some item.toTransactionRecord ∧ matchesFilter filter item.toTransactionRecord = true ∧
      item.isStuck = ((item.status = .IN_FLIGHT || item.status = .COMPENSATING) &&
        decide (stuckThresholdMs ≤ nowTimestamp - item.updatedAt)) := by
  obtain ⟨rows,⟨found,perm,sublist⟩,same⟩ := @queryRows _ _ store filter nowTimestamp stuckThresholdMs
  rw [same] at mem
  obtain ⟨row,here,rfl⟩ := List.mem_map.mp mem
  obtain ⟨stored,matching⟩ := List.mem_filter.mp (perm.mem_iff.mp (sublist.subset here))
  exact ⟨rowOf stored,matching,rfl⟩

theorem queryOnce {filter : TransactionQueryFilter} {nowTimestamp stuckThresholdMs : Int} :
    ((store.queryTransactions filter nowTimestamp stuckThresholdMs).map (·.transactionId)).Nodup := by
  obtain ⟨rows,⟨found,perm,sublist⟩,same⟩ := @queryRows _ _ store filter nowTimestamp stuckThresholdMs
  rw [same,List.map_map]
  refine List.Nodup.sublist (sublist.map _) ?_
  refine (perm.map _).nodup_iff.mpr ?_
  exact List.Nodup.sublist (List.filter_sublist.map _) store.unique

end Store

section
variable {store store' : Store Context Data} {op : Op Context Data} {r : Reply Context Data op}

theorem performsWorld (performed : Performs store op r store') (t : String) :
    (store.world t).Tells t op r ∧ store'.world t = (store.world t).after t op r := by
  cases op with
  | createTransaction record =>
    cases created : store.createTransaction record with
    | none =>
      simp only [Performs,created] at performed
      obtain ⟨rfl,rfl⟩ := performed
      exact ⟨trivial,rfl⟩
    | some next =>
      simp only [Performs,created] at performed
      obtain ⟨rfl,rfl⟩ := performed
      exact Store.createdWorld created
  | updateTransaction id version patch append =>
    cases updated : store.updateTransaction id version patch append with
    | none =>
      simp only [Performs,updated] at performed
      obtain ⟨rfl,rfl⟩ := performed
      exact ⟨rfl,rfl⟩
    | some next =>
      simp only [Performs,updated] at performed
      obtain ⟨rfl,rfl⟩ := performed
      obtain ⟨told,after⟩ := @Store.updatedWorld _ _ store t id version next.1 patch append next.2 updated
      exact ⟨fun same => same ▸ told,after⟩
  | getTransaction id =>
    obtain ⟨rfl,rfl⟩ := performed
    exact ⟨fun same => same ▸ rfl,rfl⟩
  | getUncompensatedStack id =>
    obtain ⟨rfl,rfl⟩ := performed
    exact ⟨fun same => same ▸ rfl,rfl⟩
  | markCompensationExecuted id stepSeq compensatedAt =>
    cases performed
    exact ⟨trivial,Store.markedWorld⟩
  | queryTransactions filter nowTimestamp stuckThresholdMs =>
    obtain ⟨rfl,rfl⟩ := performed
    exact ⟨fun item mem same => same ▸ Store.queryTells mem,rfl⟩
  | deleteTransactions ids =>
    obtain ⟨rfl,rfl⟩ := performed
    exact ⟨trivial,Store.deletedWorld⟩
  | _ =>
    cases performed
    exact ⟨trivial,rfl⟩

theorem rejectedUpdate {id version patch append e} (performed : Performs store (.updateTransaction id version patch append) (.error e) store') :
    store' = store := by
  cases updated : store.updateTransaction id version patch append with
  | none =>
    simp only [Performs,updated] at performed
    exact performed.2
  | some next =>
    simp only [Performs,updated] at performed
    exact absurd performed.1 (by simp)

theorem performsReplies {actors : Actor → Prop} (performed : Performs store op r store') : (lifecycle actors).replies op r := by
  cases op with
  | getTransaction id =>
    rw [performed.1,Store.getTransaction]
    cases here : store.row id with
    | none => trivial
    | some row => exact Store.rowId here
  | queryTransactions filter nowTimestamp stuckThresholdMs =>
    rw [performed.1]
    exact ⟨Store.queryOnce,fun item mem => (Store.queryTells mem).2.1⟩
  | _ => trivial

end

/-- The row is created, updated or deleted. -/
def Writes (t : String) : Event (Reply Context Data) → Prop
  | ⟨.createTransaction record,.ok _⟩ => record.transactionId = t
  | ⟨.updateTransaction id _ _ _,.ok _⟩ => id = t
  | ⟨.deleteTransactions ids,_⟩ => t ∈ ids
  | _ => False

/-- All that an answered request can do to a transaction. -/
inductive Change (t : String) (w : World Context Data) : Event (Reply Context Data) → World Context Data → Prop where
  | kept {e} (quiet : ¬Writes t e) : Change t w e w
  | created {record done} (fresh : w.row = none) (here : record.transactionId = t) :
      Change t w ⟨.createTransaction record,.ok done⟩ { w with row := some record }
  | updated {row patch append} (stored : w.row = some row) :
      Change t w ⟨.updateTransaction t row.version patch append,.ok (row.version + 1)⟩
        ⟨some (patch.apply row),w.entries ++ Store.numbered t (Store.maxSeq w.entries + 1) append⟩
  | marked {stepSeq compensatedAt done} : Change t w ⟨.markCompensationExecuted t stepSeq compensatedAt,done⟩
      { w with entries := w.entries.map (·.marked stepSeq compensatedAt) }
  | deleted {ids count} (listed : t ∈ ids) : Change t w ⟨.deleteTransactions ids,count⟩ ⟨none,[]⟩

theorem worldChange {w : World Context Data} {op : Op Context Data} {r} {t : String} (tells : w.Tells t op r) :
    Change t w ⟨op,r⟩ (w.after t op r) := by
  cases op with
  | createTransaction record =>
    cases r with
    | error e => exact .kept (by simp [Writes])
    | ok done =>
      by_cases here : record.transactionId = t
      · simp only [World.after,here,if_true]
        exact .created (tells here) here
      · simp only [World.after,here,if_false]
        exact .kept here
  | updateTransaction id version patch append =>
    cases r with
    | error e => exact .kept (by simp [Writes])
    | ok next =>
      by_cases here : id = t
      · obtain ⟨row,stored,rfl,rfl⟩ := tells here
        subst here
        simp only [World.after,stored,if_true,Option.map_some]
        exact .updated stored
      · simp only [World.after,here,if_false]
        exact .kept here
  | markCompensationExecuted id stepSeq compensatedAt =>
    by_cases here : id = t
    · subst here
      simp only [World.after,if_true]
      exact .marked
    · simp only [World.after,here,if_false]
      exact .kept (by simp [Writes])
  | deleteTransactions ids =>
    by_cases listed : t ∈ ids
    · simp only [World.after,listed,if_true]
      exact .deleted listed
    · simp only [World.after,listed,if_false]
      exact .kept listed
  | _ => exact .kept (by simp [Writes])

/-! The stages of the calls. -/

namespace Stage

/-- What an answered request of a call changes about where it stands on the transaction. -/
def step (t : String) (s : Stage Context Data) : (op : Op Context Data) → Reply Context Data op → Stage Context Data
  | .queryTransactions _ _ _, found => match found.find? (·.transactionId = t) with
    | some item => .scanned item.version item.status
    | none => s
  | .deleteTransactions ids, _ => if t ∈ ids then .ended else s
  | op, r => if op.about = some t then s.next op r else s

/-- The request is within the protocol of the transaction. -/
def May (actors : Actor → Prop) (t : String) (s : Stage Context Data) : Op Context Data → Prop
  | .createTransaction record => record.transactionId = t → s = .idle ∧ record.IsNew
  | .deleteTransactions ids => t ∈ ids → ∃ version status, s = .scanned version status
  | op => op.about = some t → s ≠ .ended ∧ s.allows actors op

variable {actors : Actor → Prop} {t : String}

theorem stepAbout {s : Stage Context Data} {op : Op Context Data} {r} (here : op.about = some t) : s.step t op r = s.next op r := by
  cases op <;> first | contradiction | exact if_pos here

theorem stepBeside {s : Stage Context Data} {op : Op Context Data} {r} (beside : op.about ≠ some t)
    (scan : ∀ filter now threshold, op ≠ .queryTransactions filter now threshold)
    (delete : ∀ ids, op = .deleteTransactions ids → t ∉ ids) : s.step t op r = s := by
  cases op <;> first | rfl | exact if_neg beside | exact absurd rfl (scan _ _ _) | exact if_neg (delete _ rfl)

theorem mayAbout {s : Stage Context Data} {op : Op Context Data} (may : s.May actors t op) (here : op.about = some t)
    (create : ∀ record, op ≠ .createTransaction record) : s ≠ .ended ∧ s.allows actors op := by
  cases op <;> first | contradiction | exact absurd rfl (create _) | exact may here

theorem mayUpdate {s : Stage Context Data} {version patch append} (may : s.May actors t (.updateTransaction t version patch append)) :
    s.updates version patch append ∧ patch.Leases actors :=
  (may rfl).2

theorem phaseStep {phase : Phase Context Data} {op : Op Context Data} {r} :
    (lifecycle actors).after phase op r t = (phase t).step t op r := by
  cases about : op.about with
  | none =>
    cases op with
    | queryTransactions | deleteTransactions => rfl
    | _ => first | contradiction | rfl
  | some u =>
    rw [afterAbout about]
    have step : (phase t).step t op r = if op.about = some t then (phase t).next op r else phase t := by
      cases op <;> first | contradiction | rfl
    rw [step,about]
    by_cases same : u = t
    · subst same
      simp
    · simp [same,Ne.symm same]

theorem phaseMay {phase : Phase Context Data} {op : Op Context Data} (allowed : (lifecycle actors).allowed phase op) :
    (phase t).May actors t op := by
  cases op with
  | createTransaction record =>
    rintro rfl
    exact allowed
  | deleteTransactions ids => exact allowed t
  | _ =>
    intro about
    exact (allowedAbout about (by simp)).mp allowed

end Stage

abbrev Calls (Context Data : Type) : Type := Pool (Reply Context Data) DfsmError (Store Context Data)

/-- The stage that the history of a call shows. -/
def stageOf (t : String) (w : Worker (Reply Context Data) DfsmError) : Stage Context Data :=
  w.history.foldl (fun s e => s.step t e.op e.reply) .idle

def stagesOf (t : String) (pool : Calls Context Data) : List (Stage Context Data) := pool.workers.map (stageOf t)

section
variable {actors : Actor → Prop} {calls : Act Context Data Unit → Prop}
  {meets : Calls Context Data → Move (Reply Context Data) DfsmError → Prop} {start pool : Calls Context Data} {t : String}

theorem phaseStage (w : Worker (Reply Context Data) DfsmError) :
    (lifecycle actors).phaseAfter (fun _ => .idle) w.history t = stageOf t w := by
  obtain ⟨call,program,history⟩ := w
  have from_ : ∀ phase : Phase Context Data, (lifecycle actors).phaseAfter phase history t =
      history.foldl (fun s e => s.step t e.op e.reply) (phase t) := by
    induction history with
    | nil => intro phase; rfl
    | cons e rest ih =>
      intro phase
      rw [Protocol.phaseAfter,List.foldl_cons,List.foldl_cons,← Stage.phaseStep]
      exact ih _
  exact from_ _

/-- What is known of an answered request in a run: where its call stood, what the answer
tells, and what has changed. -/
structure Answered (actors : Actor → Prop) (t : String) (pool : Calls Context Data) (i : Nat) (op : Op Context Data)
    (r : Reply Context Data op) (s : Stage Context Data) (next : Calls Context Data) : Prop where
  asks : ∃ call rest history, pool.workers[i]? = some ⟨call,.ask op rest,history⟩
  stage : (stagesOf t pool)[i]? = some s
  may : s.May actors t op
  tells : (pool.shared.world t).Tells t op r
  world : next.shared.world t = (pool.shared.world t).after t op r
  stages : stagesOf t next = (stagesOf t pool).set i (s.step t op r)
  log : next.log = pool.log ++ [(i,⟨op,r⟩)]

theorem Answered.change {actors t} {pool next : Calls Context Data} {i op r s} (answered : Answered actors t pool i op r s next) :
    Change t (pool.shared.world t) ⟨op,r⟩ (next.shared.world t) := by
  rw [answered.world]
  exact worldChange answered.tells

theorem answered (within : ∀ p, calls p → Operation actors p) (idle : start.workers = [])
    (run : Pool.Reaches Performs calls meets start pool) {i op r next} (step : Pool.Step Performs calls pool (.act i ⟨op,r⟩) next)
    (t : String) : ∃ s, Answered actors t pool i op r s next := by
  have conforms := @Pool.reachesConforms _ _ _ _ _ Performs calls meets start pool (lifecycle actors) (fun _ => .idle) calls (fun _ _ => True)
    (fun p called _ => operationsObey p (within p called)) (fun _ performed => performsReplies performed) idle run
  have called := Pool.reachesCalls idle run
  cases step with
  | @act _ _ _ _ history _ shared here performed =>
    obtain ⟨tells,world⟩ := performsWorld performed t
    have mem := List.mem_of_getElem? here
    have allowed := @Stage.phaseMay _ _ actors t _ _ (conforms _ mem (called _ mem)).1
    rw [phaseStage] at allowed
    refine ⟨_,⟨_,_,_,here⟩,by simp [stagesOf,here],allowed,tells,world,?_,rfl⟩
    simp [stagesOf,stageOf,List.map_set]

theorem stagesCall {p : Act Context Data Unit} :
    stagesOf t { pool with workers := pool.workers ++ [⟨p,p,[]⟩] } = stagesOf t pool ++ [.idle] := by
  simp [stagesOf,stageOf]

theorem viewInvariant {inv : World Context Data → List (Nat × Event (Reply Context Data)) → List (Stage Context Data) → Prop}
    (within : ∀ p, calls p → Operation actors p) (idle : start.workers = [])
    (run : Pool.Reaches Performs calls meets start pool) (begins : inv (start.shared.world t) start.log [])
    (call : ∀ w log ss, inv w log ss → inv w log (ss ++ [.idle]))
    (act : ∀ (pool next : Calls Context Data) i op r s, Pool.Reaches Performs calls meets start pool → meets pool (.act i ⟨op,r⟩) →
      Answered actors t pool i op r s next → inv (pool.shared.world t) pool.log (stagesOf t pool) →
      inv ((pool.shared.world t).after t op r) (pool.log ++ [(i,⟨op,r⟩)]) ((stagesOf t pool).set i (s.step t op r))) :
    inv (pool.shared.world t) pool.log (stagesOf t pool) := by
  refine @Pool.reachesInvariant _ _ _ _ _ _ _ _ _ (fun pool => inv (pool.shared.world t) pool.log (stagesOf t pool)) run ?_ ?_
  · simpa [stagesOf,idle] using begins
  · intro pool move next before met holds step
    cases move with
    | call p =>
      cases step with
      | call called =>
        rw [stagesCall]
        exact call _ _ _ holds
    | act i e =>
      obtain ⟨op,r⟩ := e
      obtain ⟨s,answered⟩ := answered within idle before step t
      rw [answered.world,answered.stages,answered.log]
      exact act pool next i op r s before met answered holds

end

end Dfsm
