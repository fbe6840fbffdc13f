import Dfsm.Runtime.View

/-! One call that has the store to itself. The store answers its own requests; the replies to
all others may depend on everything that has happened before. -/
namespace Dfsm
open Program Act Protocol

variable {Context Data : Type}

structure Solo (Context Data : Type) where
  store : Store Context Data
  log : List (Event (Reply Context Data)) := []

abbrev User (Context Data : Type) := List (Event (Reply Context Data)) → (op : Op Context Data) → Reply Context Data op

namespace Solo

def answer (user : User Context Data) (op : Op Context Data) (s : Solo Context Data) : Reply Context Data op × Solo Context Data :=
  ((serve (user s.log) s.store op).1,⟨(serve (user s.log) s.store op).2,s.log ++ [⟨op,(serve (user s.log) s.store op).1⟩]⟩)

def run {α : Type} (user : User Context Data) (p : Act Context Data α) (s : Solo Context Data) : Except DfsmError α × Solo Context Data :=
  p.eval (answer user) s

variable {user : User Context Data} {s : Solo Context Data} {α β : Type} {t u : String}

theorem runBind {p : Act Context Data α} {f : α → Act Context Data β} {a s'} (first : run user p s = (.ok a,s')) :
    run user (p >>= f) s = run user (f a) s' := by
  unfold run at first ⊢
  rw [evalBind,first]

theorem runAsk {op : Op Context Data} {f : Reply Context Data op → Act Context Data α} :
    run user (ask op >>= f) s = run user (f (answer user op s).1) (answer user op s).2 := rfl

theorem runAttempt {p : Act Context Data α} : run user p.attempt s = (.ok (run user p s).1,(run user p s).2) :=
  evalAttempt _ _ _

/-- What the clock says next. -/
def clock (user : User Context Data) (s : Solo Context Data) : Int := user s.log .now

def heard (op : Op Context Data) (r : Reply Context Data op) (s : Solo Context Data) : Solo Context Data :=
  { s with log := s.log ++ [⟨op,r⟩] }

@[simp] theorem heardStore {op : Op Context Data} {r} : (s.heard op r).store = s.store := rfl
@[simp] theorem heardLog {op : Op Context Data} {r} : (s.heard op r).log = s.log ++ [⟨op,r⟩] := rfl

theorem runNow {f : Int → Act Context Data α} :
    run user (now >>= f) s = run user (f (clock user s)) (s.heard .now (clock user s)) := rfl

theorem runQuery {filter nowTimestamp stuckThresholdMs} {f : List (TransactionSummary Context Data) → Act Context Data α} :
    run user (ask (.queryTransactions filter nowTimestamp stuckThresholdMs) >>= f) s =
      run user (f (s.store.queryTransactions filter nowTimestamp stuckThresholdMs))
        (s.heard (.queryTransactions filter nowTimestamp stuckThresholdMs) (s.store.queryTransactions filter nowTimestamp stuckThresholdMs)) :=
  rfl

theorem runGet {f : Option (TransactionSnapshot Context Data) → Act Context Data α} :
    run user (ask (.getTransaction t) >>= f) s =
      run user (f (s.store.getTransaction t)) (s.heard (.getTransaction t) (s.store.getTransaction t)) := rfl

theorem answered {op : Op Context Data} : (s.store.world t).Tells t op (answer user op s).1 ∧
    (answer user op s).2.store.world t = (s.store.world t).after t op (answer user op s).1 :=
  performsWorld (servePerforms (user s.log) s.store op) t

theorem runExtends (p : Act Context Data α) (s : Solo Context Data) : ∃ es, (run user p s).2.log = s.log ++ es := by
  induction p generalizing s with
  | done a => exact ⟨[],by simp [run,eval]⟩
  | fail e => exact ⟨[],by simp [run,eval]⟩
  | ask op next ih =>
    obtain ⟨es,log⟩ := ih (answer user op s).1 (answer user op s).2
    exact ⟨⟨op,(answer user op s).1⟩::es,log.trans (by simp [answer])⟩

theorem runBeside {actors : Actor → Prop} {post : Stage Context Data → Except DfsmError α → Prop} {stage} {p : Act Context Data α}
    (obeys : (stages actors u).Obeys post stage p) (s : Solo Context Data) :
    (∀ t, t ≠ u → (run user p s).2.store.world t = s.store.world t) ∧
      ∃ es, (run user p s).2.log = s.log ++ es ∧
        ∀ e ∈ es, (e.op.about = none ∨ e.op.about = some u) ∧ ∀ ids, e.op ≠ .deleteTransactions ids := by
  induction p generalizing stage s with
  | done a => exact ⟨fun _ _ => rfl,[],by simp [run,eval],by simp⟩
  | fail e => exact ⟨fun _ _ => rfl,[],by simp [run,eval],by simp⟩
  | ask op next ih =>
    obtain ⟨⟨_,about,allows⟩,rest⟩ := obeys
    have performed := servePerforms (user s.log) s.store op
    have possible : (stages actors u).replies op (answer user op s).1 := by
      exact repliesAbout (performsReplies performed)
    obtain ⟨others,es,log,within⟩ := ih _ (rest _ possible) (answer user op s).2
    have mine (ids) : op ≠ .deleteTransactions ids := by
      intro same
      subst same
      exact allows
    have moves : run user (Program.ask op next) s = run user (next (answer user op s).1) (answer user op s).2 := rfl
    rw [moves]
    constructor
    · intro t other
      rw [others t other,answered.2]
      cases op with
      | deleteTransactions ids => exact absurd rfl (mine ids)
      | createTransaction record => exact allows.elim
      | updateTransaction id =>
        have apart : id ≠ t := by
          intro same
          rcases about with none | here
          · simp [Op.about] at none
          · exact other (same.symm.trans (Option.some.inj here))
        cases (answer user (.updateTransaction id _ _ _) s).1 with
        | ok next => simp [World.after,apart]
        | error e => rfl
      | markCompensationExecuted id =>
        have apart : id ≠ t := by
          intro same
          rcases about with none | here
          · simp [Op.about] at none
          · exact other (same.symm.trans (Option.some.inj here))
        simp [World.after,apart]
      | _ => rfl
    · refine ⟨⟨op,(answer user op s).1⟩::es,?_,?_⟩
      · rw [log]
        simp [answer]
      · intro e mem
        rcases List.mem_cons.mp mem with same | later
        · subst e
          exact ⟨about,mine⟩
        · exact within e later

theorem runGrows {p : Act Context Data α} (asks : p.Asks (fun op => ∀ ids, op ≠ .deleteTransactions ids)) {version : Nat}
    (s : Solo Context Data) (here : ∃ row, s.store.row t = some row ∧ version ≤ row.version) :
    ∃ row, (run user p s).2.store.row t = some row ∧ version ≤ row.version := by
  induction p generalizing s with
  | done a => exact here
  | fail e => exact here
  | ask op next ih =>
    refine ih _ (asks.2 _) _ ?_
    obtain ⟨row,stored,older⟩ := here
    obtain ⟨tells,after⟩ := @answered _ _ user s t op
    have row' : (answer user op s).2.store.row t = ((s.store.world t).after t op (answer user op s).1).row := congrArg World.row after
    rw [row']
    have change := worldChange tells
    have mine := asks.1
    generalize (answer user op s).1 = r at change ⊢
    generalize (s.store.world t).after t op r = w at change ⊢
    generalize same : (⟨op,r⟩ : Event (Reply Context Data)) = e at change
    cases change with
    | kept => exact ⟨row,stored,older⟩
    | marked => exact ⟨row,stored,older⟩
    | created fresh =>
      have none : s.store.row t = none := fresh
      rw [none] at stored
      contradiction
    | deleted listed => exact absurd (congrArg Event.op same) (mine _)
    | updated => exact ⟨_,rfl,by
        rename_i before patch append here
        have same : before = row := Option.some.inj (here.symm.trans stored)
        subst same
        exact Nat.le_succ_of_le older⟩

theorem runUpdate {row : TransactionRecord Context Data} (stored : s.store.row t = some row) {patch append} :
    ∃ s', run user (updateTransaction t row.version patch append) s = (.ok (row.version + 1),s') ∧
      s'.log = s.log ++ [⟨.updateTransaction t row.version patch append,.ok (row.version + 1)⟩] ∧
      (∀ u, s'.store.world u = (s.store.world u).after u (.updateTransaction t row.version patch append) (.ok (row.version + 1))) := by
  have accepted : ∃ next, s.store.updateTransaction t row.version patch append = some (row.version + 1,next) := by
    simp [Store.updateTransaction,stored]
  obtain ⟨next,accepted⟩ := accepted
  have served : serve (user s.log) s.store (.updateTransaction t row.version patch append) = (.ok (row.version + 1),next) := by
    simp [serve,accepted]
  refine ⟨⟨next,s.log ++ [⟨.updateTransaction t row.version patch append,.ok (row.version + 1)⟩]⟩,?_,rfl,?_⟩
  · unfold updateTransaction
    rw [runAsk]
    have here : answer user (.updateTransaction t row.version patch append) s =
        (.ok (row.version + 1),⟨next,s.log ++ [⟨.updateTransaction t row.version patch append,.ok (row.version + 1)⟩]⟩) := by
      rw [answer,served]
    rw [here]
    rfl
  · intro u
    have told := (@answered _ _ user s u (.updateTransaction t row.version patch append)).2
    rwa [answer,served] at told

/-- A list of transactions taken one by one: the rest of it, and all that was never listed,
are as they were. -/
structure Waiting (before : Store Context Data) (found left : List (TransactionSummary Context Data)) (s : Solo Context Data) : Prop where
  among : ∀ item ∈ left, item ∈ found
  once : (left.map (·.transactionId)).Nodup
  waiting : ∀ item ∈ left, s.store.world item.transactionId = before.world item.transactionId
  others : ∀ t, (∀ item ∈ found, item.transactionId ≠ t) → s.store.world t = before.world t

theorem waitingStart {found : List (TransactionSummary Context Data)} (once : (found.map (·.transactionId)).Nodup) :
    Waiting s.store found found s :=
  ⟨fun _ => id,once,fun _ _ => rfl,fun _ _ => rfl⟩

theorem waitingStep {before : Store Context Data} {found left item} {s' : Solo Context Data} (waiting : Waiting before found (item::left) s)
    (beside : ∀ t, t ≠ item.transactionId → s'.store.world t = s.store.world t) : Waiting before found left s' := by
  obtain ⟨fresh,once⟩ := List.nodup_cons.mp waiting.once
  refine ⟨fun other mem => waiting.among other (List.mem_cons_of_mem _ mem),once,?_,?_⟩
  · intro other mem
    have apart : other.transactionId ≠ item.transactionId := by
      intro same
      exact fresh (List.mem_map.mpr ⟨other,mem,same⟩)
    rw [beside _ apart]
    exact waiting.waiting other (List.mem_cons_of_mem _ mem)
  · intro t other
    rw [beside t (Ne.symm (other item (waiting.among item List.mem_cons_self)))]
    exact waiting.others t other

end Solo

end Dfsm
