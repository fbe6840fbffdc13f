import Dfsm.Csharp.Saga

/-! Runs of the C# SDK over one store: who is in a step, and the saga stack against the steps
that have been committed. -/
namespace Dfsm.Csharp
open Sagas (Stored Tells Honest Meets)

variable {Context Data : Type} {t : String}

def view (t : String) (s : SqliteStateStore) : Stored Row CommittedStep where
  record := (Keyed.get s.transactions t).map (·.row)
  steps := (s.getSagaStack t).map (·.step)

abbrev Workers (Context Data : Type) := Pool (Reply Context Data) Stop SqliteStateStore

/-- Calls as their workers run them. -/
abbrev Called (t : String) (p : Act Context Data Unit) : Prop := ∃ call : Call Context Data, p = call.program t

section
variable {s s' : SqliteStateStore} {op : Op Context Data} {r : Reply Context Data op}

theorem performsTold (performed : Performs s op r s') : told ⟨op,r⟩ := by
  cases op with
  | getTransaction id =>
    obtain ⟨rfl,_⟩ := performed
    unfold SqliteStateStore.getTransaction
    cases found : Keyed.get s.transactions id with
    | none => trivial
    | some record => exact s.own id record found
  | getSagaStack id =>
    obtain ⟨rfl,_⟩ := performed
    trivial
  | popSagaStep id =>
    obtain ⟨popped,rfl,_⟩ := performed
    trivial
  | deleteTransaction id =>
    obtain ⟨rfl,_⟩ := performed
    trivial
  | _ => trivial

theorem viewInsert {record : TransactionRecord} (own : record.transactionId = t) :
    view t (s.insert record) = { view t s with record := some record.row } := by
  rw [view,SqliteStateStore.getInsert,if_pos own]
  rfl

theorem viewOther {record : TransactionRecord} (other : record.transactionId ≠ t) : view t (s.insert record) = view t s := by
  rw [view,SqliteStateStore.getInsert,if_neg other]
  rfl

theorem updateView (t : String) {record : TransactionRecord} {expectedVersion : Int} {r : Except Exn Unit} (updated : (r,s') = s.updateTransaction record expectedVersion) :
    (r = .ok () ∧ (record.transactionId = t → (∃ existing, (view t s).record = some existing ∧ Leased.version existing = expectedVersion) ∧
        view t s' = { view t s with record := some record.row }) ∧ (record.transactionId ≠ t → view t s' = view t s)) ∨
      ((∃ e, r = .error e) ∧ view t s' = view t s ∧ (record.transactionId = t → ∀ existing, (view t s).record = some existing →
        Leased.version existing ≠ expectedVersion)) := by
  rcases SqliteStateStore.updateCases updated with ⟨existing,rfl,rfl,found,current⟩ | ⟨failed,rfl,stale⟩
  · have key : existing.transactionId = record.transactionId := s.own _ _ found
    refine .inl ⟨rfl,fun own => ⟨⟨existing.row,?_,current⟩,?_⟩,fun other => ?_⟩
    · rw [view,← own,found]
      rfl
    · exact viewInsert (key.trans own)
    · exact viewOther (fun same => other (key.symm.trans same))
  · refine .inr ⟨failed,rfl,fun own row here => ?_⟩
    rw [view,Option.map_eq_some_iff] at here
    obtain ⟨existing,found,rfl⟩ := here
    exact stale existing (by rw [own]; exact found)

theorem performsTells (performed : Performs s op r s') : Tells (view t s) (view t s') (touch t ⟨op,r⟩) := by
  cases op with
  | createTransaction record =>
    rcases SqliteStateStore.createCases performed with ⟨rfl,rfl,absent⟩ | ⟨⟨e,rfl⟩,rfl⟩
    · rw [touch]
      split
      · rename_i own
        refine ⟨?_,viewInsert own⟩
        rw [view,← own,absent]
        rfl
      · rename_i other
        exact viewOther other
    · rfl
  | updateTransaction record expectedVersion =>
    rcases updateView t performed with ⟨rfl,swapped,kept⟩ | ⟨⟨e,rfl⟩,kept,stale⟩
    · rw [touch]
      split
      · rename_i own
        split
        · rename_i flight
          exact ⟨flight,swapped own⟩
        · exact swapped own
      · rename_i other
        exact kept other
    · rw [touch]
      split
      · rename_i own
        split
        · exact kept
        · exact ⟨stale own,kept⟩
      · exact kept
  | pushSagaStep id step =>
    rcases SqliteStateStore.pushCases performed with ⟨⟨e,rfl⟩,rfl⟩ | ⟨rfl,records,rows⟩
    · rfl
    · rw [touch]
      split
      · rename_i own
        rw [Tells,view,records,SqliteStateStore.stackPush rows,if_pos own,List.map_append]
        rfl
      · rename_i other
        rw [Tells,view,records,SqliteStateStore.stackPush rows,if_neg other]
        rfl
  | popSagaStep id =>
    obtain ⟨popped,rfl,answer⟩ := performed
    rcases SqliteStateStore.popCases answer with ⟨rfl,rfl⟩ | ⟨step,rfl,last,rfl⟩
    · rfl
    · rw [touch]
      split
      · rename_i own
        subst own
        refine ⟨fun none_ => ?_,?_⟩
        · rw [List.map_eq_nil_iff.mp none_] at last
          cases last
        · rw [view,SqliteStateStore.stackPop last,if_pos rfl,List.map_dropLast]
          rfl
      · rename_i other
        rw [Tells,view,SqliteStateStore.stackPop last,if_neg other]
        rfl
  | deleteTransaction id =>
    obtain ⟨rfl,rfl⟩ := performed
    rw [touch]
    split
    · rename_i own
      rw [Tells,view,SqliteStateStore.getDelete,SqliteStateStore.stackDelete,if_pos own,if_pos own]
      rfl
    · rename_i other
      rw [Tells,view,SqliteStateStore.getDelete,SqliteStateStore.stackDelete,if_neg other,if_neg other]
      rfl
  | getTransaction id =>
    obtain ⟨rfl,rfl⟩ := performed
    cases found : s'.getTransaction id with
    | none => rfl
    | some record =>
      rw [touch]
      split <;> rfl
  | getSagaStack id =>
    obtain ⟨rfl,rfl⟩ := performed
    rfl
  | listActiveTransactions machineId limit =>
    obtain ⟨⟨found,_,rfl⟩,rfl⟩ := performed
    rfl
  | handler name request =>
    cases performed
    cases r <;> rfl
  | compensation name request =>
    cases performed
    cases r with
    | error e => rfl
    | ok _ =>
      rw [touch]
      split <;> rfl
  | _ =>
    cases performed
    rfl

end

/-- In every run whose events are fenced one call at a time is in a step, and the stack is what
has been committed and not compensated. -/
theorem honestSaga {policy : Nat → Call Context Data} {store : SqliteStateStore} {pool : Workers Context Data}
    (run : Pool.Reaches Performs (Called t) (Meets (fun i => saga t (policy i)) returns (view t)) { shared := store } pool)
    (empty : store.getSagaStack t = []) (called : ∀ i w, pool.workers[i]? = some w → w.call = (policy i).program t) :
    Honest (fun i => saga t (policy i)) returns (view t) pool := by
  refine Sagas.honest (fun i => callSaga (policy i)) (fun i s op r s' performed => ⟨performsTold performed,performsTells performed⟩) run ?_ called
  rw [view,empty]
  rfl

/-! A vault that two workers open, or that is cleaned up. -/

def vault : DfsmActor Unit where
  machine := { id := "vault", initial := "shut", states := [
    ("shut",{ id := "shut", on := [("unlock",[{ target := "opened", policy := some { compensateWith := some "relock" } }])] }),
    ("opened",{ id := "opened" }),("error",{ id := "error", type := "final" })] }
  registry := { transitions := [("unlock",{})], compensations := ["relock"] }
  defaultContext := ()
  isNull _ := true

def vaultRecord : TransactionRecord where
  transactionId := "t"
  machineId := "vault"
  currentState := Go.leaf "shut"
  createdAt := 0
  updatedAt := 0

def vaultStore : SqliteStateStore where
  transactions := [("t",vaultRecord)]
  own := by
    intro id record got
    simp only [Keyed.get,List.lookup_cons,List.lookup_nil] at got
    split at got
    · cases got
      exact (beq_iff_eq.mp ‹_›).symm
    · cases got

/-- Everything does as it is asked. -/
def agreeable : Surroundings Unit Unit
  | .getTransaction _ | .popSagaStep _ => .ok none
  | .createTransaction _ | .updateTransaction _ _ | .pushSagaStep _ _ | .deleteTransaction _ => .ok ()
  | .getSagaStack _ | .listActiveTransactions _ _ => .ok []
  | .nowMs | .elapsedMilliseconds => (0 : Int)
  | .newGuid => "step"
  | .sleep _ => .ok ()
  | .getBreaker _ _ => (0 : Nat)
  | .lockBreaker _ _ => ({ policy := {} },0)
  | .unlockBreaker _ _ => ()
  | .coerce _ _ | .validate _ _ | .deserializeContext _ | .parseSnapshot _ => .ok ()
  | .serializeContext _ | .serializeInput _ => .ok "{}"
  | .handler _ _ => .ok {}
  | .compensation _ _ | .effect _ _ _ | .hook _ _ | .record _ | .log _ => .ok ()

def unlock : Call Unit Unit := .transitionAsync vault "unlock" 20 0 none
def cleanUp : Call Unit Unit := .forceCleanUpAsync vault 20 { transactionIds := ["t"] }

/-- The first call makes so many requests, then the second. -/
def vaultCues (second : Call Unit Unit) (n : Nat) : List (Pool.Cue (Reply Unit Unit) Stop) :=
  .call (unlock.program "t")::.call (second.program "t")::(List.replicate n (.turn 0) ++ List.replicate 6 (.turn 1))

def vaultPool (second : Call Unit Unit) (n : Nat) : Workers Unit Unit :=
  Pool.play (serve agreeable) (vaultCues second n) { shared := vaultStore }

def vaultCalls (second : Call Unit Unit) : Nat → Call Unit Unit
  | 0 => unlock
  | _ => second

theorem vaultRun {meets : Workers Unit Unit → Move (Reply Unit Unit) Stop → Prop} {second : Call Unit Unit} {n : Nat}
    (met : Pool.PlayMeets (serve agreeable) meets (vaultCues second n) { shared := vaultStore }) :
    Pool.Reaches Performs (Called "t") meets { shared := vaultStore } (vaultPool second n) := by
  refine Pool.reachesPlay (servePerforms agreeable) (fun cue mem p same => ?_) met .start
  subst same
  simp only [vaultCues,List.mem_cons,List.mem_append,List.mem_replicate,reduceCtorEq,and_false,or_false] at mem
  rcases mem with mem | mem <;> cases mem <;> exact ⟨_,rfl⟩

theorem vaultCalled {second : Call Unit Unit} {n : Nat} (i w) (here : (vaultPool second n).workers[i]? = some w) :
    w.call = (vaultCalls second i).program "t" := by
  have calls := @Pool.playCalls _ _ _ _ (serve agreeable) (vaultCues second n) { shared := vaultStore }
  have started : (vaultCues second n).filterMap Pool.Cue.starts = [unlock.program "t",second.program "t"] := by
    simp [vaultCues,Pool.Cue.starts]
  have mine := congrArg (fun l => l[i]?) calls
  simp only [started,List.map_nil,List.nil_append,List.getElem?_map] at mine
  rw [show (Pool.play (serve agreeable) (vaultCues second n) { shared := vaultStore }).workers[i]? = some w from here,Option.map_some] at mine
  rcases i with _ | _ | i
  · exact Option.some.inj mine
  · exact Option.some.inj mine
  · exact absurd mine (by simp)

def vaultFenced (second : Call Unit Unit) : Workers Unit Unit → Move (Reply Unit Unit) Stop → Bool :=
  Sagas.fencedCheck (fun i => saga "t" (vaultCalls second i)) returns (view "t") (fun i => fine "t" (vaultCalls second i))

/-- The vault is unlocked, and then its step is compensated. -/
theorem honestSagaVault : Honest (fun i => saga "t" (vaultCalls cleanUp i)) returns (view "t") (vaultPool cleanUp 12) := by
  have sound (pool : Workers Unit Unit) (move) (checked : vaultFenced cleanUp pool move = true) :
      Meets (fun i => saga "t" (vaultCalls cleanUp i)) returns (view "t") pool move := Sagas.fencedSound (fun _ _ met => met) pool move checked
  exact honestSaga (vaultRun (Pool.playChecked sound (by decide +kernel))) (by decide +kernel) vaultCalled

/-- A second call takes up the transaction that the first has just marked. -/
theorem honestSagaTwice : ¬∀ (policy : Nat → Call Unit Unit) (store : SqliteStateStore) (pool : Workers Unit Unit),
    Pool.Reaches Performs (Called "t") Pool.Anything { shared := store } pool → store.getSagaStack "t" = [] →
    (∀ i w, pool.workers[i]? = some w → w.call = (policy i).program "t") →
    Honest (fun i => saga "t" (policy i)) returns (view "t") pool := by
  intro claim
  have honest := claim (vaultCalls unlock) vaultStore (vaultPool unlock 4) (vaultRun (Pool.playAnything _ _)) (by decide +kernel) vaultCalled
  have running (i : Nat) (w) (here : (vaultPool unlock 4).workers[i]? = some w) (runs : Sagas.returned returns w.program = false) :
      ¬Sagas.Returned returns (vaultPool unlock 4) i := by
    rintro ⟨w',there,ended⟩
    cases Option.some.inj (here.symm.trans there)
    exact absurd (runs.symm.trans ended) (by decide)
  have first := running 0 _ rfl (by decide +kernel)
  have second := running 1 _ rfl (by decide +kernel)
  exact absurd (honest.single 0 1 (by decide +kernel) first (by decide +kernel) second) (by decide)

end Dfsm.Csharp
