import Dfsm.Lib.Program
import Mathlib.Data.List.Nodup
import Mathlib.Data.List.Induction

/-! Any number of programs running against one shared state, interleaved at their
requests. Calls may start at any time; each keeps its history, and the pool keeps the
log of all events with the call each belongs to. -/

variable {Op : Type} {Reply : Op → Type} {Err σ Phase : Type}

/-- A call: the program it was started with, what is left of it, and its events so far. -/
structure Worker {Op : Type} (Reply : Op → Type) (Err : Type) where
  call : Program Reply Err Unit
  program : Program Reply Err Unit
  history : List (Event Reply) := []

structure Pool {Op : Type} (Reply : Op → Type) (Err σ : Type) where
  shared : σ
  workers : List (Worker Reply Err) := []
  log : List (Nat × Event Reply) := []

/-- A call starts, or the request of a call is answered. -/
inductive Move {Op : Type} (Reply : Op → Type) (Err : Type) where
  | call (p : Program Reply Err Unit)
  | act (i : Nat) (e : Event Reply)

namespace Pool

variable (performs : σ → (op : Op) → Reply op → σ → Prop) (calls : Program Reply Err Unit → Prop)

inductive Step : Pool Reply Err σ → Move Reply Err → Pool Reply Err σ → Prop where
  | call {pool p} (called : calls p) : Step pool (.call p) { pool with workers := pool.workers ++ [⟨p,p,[]⟩] }
  | act {pool i call op next history r shared} (here : pool.workers[i]? = some ⟨call,.ask op next,history⟩)
      (performed : performs pool.shared op r shared) :
      Step pool (.act i ⟨op,r⟩) {
        shared
        workers := pool.workers.set i ⟨call,next r,history ++ [⟨op,r⟩]⟩
        log := pool.log ++ [(i,⟨op,r⟩)] }

/-- Runs all of whose steps meet a condition. -/
inductive Reaches (meets : Pool Reply Err σ → Move Reply Err → Prop) (start : Pool Reply Err σ) :
    Pool Reply Err σ → Prop where
  | start : Reaches meets start start
  | step {pool move next} (run : Reaches meets start pool) (step : Step performs calls pool move next)
      (met : meets pool move) : Reaches meets start next

variable {performs calls} {meets : Pool Reply Err σ → Move Reply Err → Prop} {start pool : Pool Reply Err σ}

theorem reachesInvariant {inv : Pool Reply Err σ → Prop} (run : Reaches performs calls meets start pool)
    (first : inv start) (kept : ∀ pool move next, Reaches performs calls meets start pool → meets pool move → inv pool →
      Step performs calls pool move next → inv next) : inv pool := by
  induction run with
  | start => exact first
  | step before step met ih => exact kept _ _ _ before met ih step

theorem reachesGain {meets' : Pool Reply Err σ → Move Reply Err → Prop} (run : Reaches performs calls meets start pool)
    (gain : ∀ pool move next, Reaches performs calls meets start pool → Step performs calls pool move next → meets pool move →
      meets' pool move) : Reaches performs calls meets' start pool := by
  induction run with
  | start => exact .start
  | step before step met ih => exact .step ih step (gain _ _ _ before step met)

theorem reachesMono {meets' : Pool Reply Err σ → Move Reply Err → Prop} (run : Reaches performs calls meets start pool)
    (weaker : ∀ pool move, meets pool move → meets' pool move) : Reaches performs calls meets' start pool :=
  reachesGain run (fun pool move _ _ _ met => weaker pool move met)

theorem workersInvariant {good : Worker Reply Err → Prop} (run : Reaches performs calls meets start pool)
    (idle : start.workers = []) (call : ∀ p, calls p → good ⟨p,p,[]⟩)
    (act : ∀ pool i op r s' call next history, meets pool (.act i ⟨op,r⟩) → performs pool.shared op r s' →
      good ⟨call,.ask op next,history⟩ → good ⟨call,next r,history ++ [⟨op,r⟩]⟩) : ∀ w ∈ pool.workers, good w := by
  refine @reachesInvariant _ _ _ _ _ _ _ _ _ (fun pool => ∀ w ∈ pool.workers, good w) run (by simp [idle]) ?_
  intro pool move next _ met all step w mem
  cases step with
  | call called =>
    rcases List.mem_append.mp mem with old | new
    · exact all w old
    · rw [List.mem_singleton.mp new]
      exact call _ called
  | act here performed =>
    rcases List.mem_or_eq_of_mem_set mem with old | rfl
    · exact all w old
    · exact act _ _ _ _ _ _ _ _ met performed (all _ (List.mem_of_getElem? here))

theorem reachesConforms {rules : Protocol Reply Phase} {first : Phase} {kind : Program Reply Err Unit → Prop}
    {post : Phase → Except Err Unit → Prop} (obey : ∀ p, calls p → kind p → rules.Obeys post first p)
    (possible : ∀ {pool i op r s'}, meets pool (.act i ⟨op,r⟩) → performs pool.shared op r s' → rules.replies op r)
    (idle : start.workers = []) (run : Reaches performs calls meets start pool) :
    ∀ w ∈ pool.workers, kind w.call → rules.Obeys post (rules.phaseAfter first w.history) w.program := by
  refine workersInvariant run idle obey ?_
  intro pool i op r s' call next history met performed obeys of_
  rw [Protocol.phaseSnoc]
  exact (obeys of_).2 r (possible met performed)

theorem reachesCalls (idle : start.workers = []) (run : Reaches performs calls meets start pool) :
    ∀ w ∈ pool.workers, calls w.call :=
  workersInvariant run idle (fun _ called => called) (fun _ _ _ _ _ _ _ _ _ _ holds => holds)

theorem reachesRuns (idle : start.workers = []) (run : Reaches performs calls meets start pool) :
    ∀ w ∈ pool.workers, Program.Runs w.call w.history w.program :=
  workersInvariant run idle (fun _ _ => .stop) (fun _ _ _ _ _ _ _ _ _ _ runs => Program.runsSnoc runs rfl)

/-! The log, call by call. -/

/-- The events of one call. -/
def eventsOf (i : Nat) (log : List (Nat × Event Reply)) : List (Event Reply) := (log.filter (·.1 = i)).map (·.2)

theorem eventsSnoc {i j : Nat} {log : List (Nat × Event Reply)} {e : Event Reply} :
    eventsOf i (log ++ [(j,e)]) = if j = i then eventsOf i log ++ [e] else eventsOf i log := by
  unfold eventsOf
  by_cases same : j = i <;> simp [same]

theorem eventsAbsent {i : Nat} {log : List (Nat × Event Reply)} (absent : ∀ x ∈ log, x.1 ≠ i) : eventsOf i log = [] := by
  refine List.map_eq_nil_iff.mpr (List.filter_eq_nil_iff.mpr (fun x mem => ?_))
  simpa using absent x mem

theorem reachesHistory {s : σ} (run : Reaches performs calls meets { shared := s } pool) :
    (∀ i w, pool.workers[i]? = some w → w.history = eventsOf i pool.log) ∧ ∀ x ∈ pool.log, x.1 < pool.workers.length := by
  refine @reachesInvariant _ _ _ _ _ _ _ _ _ (fun pool : Pool Reply Err σ =>
    (∀ i w, pool.workers[i]? = some w → w.history = eventsOf i pool.log) ∧ ∀ x ∈ pool.log, x.1 < pool.workers.length) run
    (by simp) ?_
  intro pool move next _ _ ⟨same,inside⟩ step
  cases step with
  | @call p called =>
    refine ⟨fun i w here => ?_,fun x mem => by have := inside x mem; simp; omega⟩
    rcases Nat.lt_or_ge i pool.workers.length with old | new
    · rw [List.getElem?_append_left old] at here
      exact same i w here
    · rw [List.getElem?_append_right new] at here
      have last : w = ⟨p,p,[]⟩ := by simpa using (List.mem_of_getElem? here)
      rw [last]
      refine (eventsAbsent (fun x mem => ?_)).symm
      have := inside x mem
      omega
  | @act j call op next history r shared here performed =>
    have bound := (List.getElem?_eq_some_iff.mp here).1
    refine ⟨fun i w here' => ?_,fun x mem => ?_⟩
    · rw [eventsSnoc]
      by_cases own : j = i
      · subst own
        rw [List.getElem?_set_self bound] at here'
        cases Option.some.inj here'
        rw [if_pos rfl,← same j _ here]
      · rw [List.getElem?_set_ne own] at here'
        rw [if_neg own,same i w here']
    · rw [List.length_set]
      rcases List.mem_append.mp mem with old | new
      · exact inside x old
      · cases List.mem_singleton.mp new
        exact bound

/-- An event of a call, and the log since; the call's own events since are all of one kind. -/
def Since (i : Nat) (first keeps : Event Reply → Prop) (log since : List (Nat × Event Reply)) : Prop :=
  ∃ before e, log = before ++ (i,e)::since ∧ first e ∧ ∀ x ∈ since, x.1 = i → keeps x.2

theorem sinceSnoc {i : Nat} {first keeps : Event Reply → Prop} {log since : List (Nat × Event Reply)} {x : Nat × Event Reply}
    (here : Since i first keeps (log ++ [x]) since) : since = [] ∧ x.1 = i ∧ first x.2 ∨
      ∃ earlier, since = earlier ++ [x] ∧ Since i first keeps log earlier ∧ (x.1 = i → keeps x.2) := by
  obtain ⟨before,e,split,started,alone⟩ := here
  rcases List.eq_nil_or_concat since with rfl | ⟨earlier,last,rfl⟩
  · obtain ⟨rfl,rfl⟩ := List.append_inj' split rfl |>.imp id List.singleton_inj.mp
    exact .inl ⟨rfl,rfl,started⟩
  · rw [List.concat_eq_append,← List.cons_append,← List.append_assoc] at split
    obtain ⟨rfl,same⟩ := List.append_inj' split rfl
    cases List.singleton_inj.mp same
    rw [List.concat_eq_append] at alone ⊢
    refine .inr ⟨earlier,rfl,⟨before,e,rfl,started,fun y mem => alone y (List.mem_append_left _ mem)⟩,?_⟩
    exact alone x (by simp)

theorem sinceNil {i : Nat} {first keeps : Event Reply → Prop} {since : List (Nat × Event Reply)} :
    ¬Since i first keeps [] since := by
  rintro ⟨before,e,split,_⟩
  exact absurd split (by simp)

theorem sinceFold {i : Nat} {β : Type} {step : β → Event Reply → β} {target : β → Prop} {first keeps : Event Reply → Prop} {b : β}
    (begins : ¬target b) (enters : ∀ b e, target (step b e) → first e ∨ target b ∧ keeps e) {log : List (Nat × Event Reply)}
    (here : target ((eventsOf i log).foldl step b)) : ∃ since, Since i first keeps log since := by
  induction log using List.reverseRec with
  | nil => exact absurd here begins
  | append_singleton log x ih =>
    obtain ⟨j,e⟩ := x
    have later (quiet : j = i → keeps e) (already : target ((eventsOf i log).foldl step b)) :
        ∃ since, Since i first keeps (log ++ [(j,e)]) since := by
      obtain ⟨since,before,start,rfl,started,alone⟩ := ih already
      refine ⟨since ++ [(j,e)],before,start,by simp,started,fun y mem same => ?_⟩
      rcases List.mem_append.mp mem with old | new
      · exact alone y old same
      · rw [List.mem_singleton.mp new] at same ⊢
        exact quiet same
    rw [eventsSnoc] at here
    by_cases own : j = i
    · rw [if_pos own,List.foldl_append,List.foldl_cons,List.foldl_nil] at here
      rcases enters _ _ here with started | ⟨before,quiet⟩
      · exact ⟨[],log,e,by rw [own],started,by simp⟩
      · exact later (fun _ => quiet) before
    · rw [if_neg own] at here
      exact later (fun same => absurd same own) here

theorem sinceLast {i : Nat} {β : Type} {finds : Event Reply → Option β} {found : β} {log : List (Nat × Event Reply)}
    (last : (eventsOf i log).foldl (fun before e => (finds e).or before) none = some found) :
    ∃ since, Since i (fun e => finds e = some found) (fun e => finds e = none) log since := by
  refine @sinceFold _ _ _ _ (fun before e => (finds e).or before) (· = some found) _ _ none (by simp) ?_ log last
  intro before e found
  cases here : finds e with
  | some again =>
    rw [here] at found
    exact .inl found
  | none =>
    rw [here] at found
    exact .inr ⟨found,rfl⟩

theorem sinceEvents {i : Nat} {first keeps : Event Reply → Prop} {log since : List (Nat × Event Reply)}
    (here : Since i first keeps log since) :
    ∃ before e, eventsOf i log = before ++ e::eventsOf i since ∧ first e ∧ ∀ x ∈ eventsOf i since, keeps x := by
  obtain ⟨before,e,rfl,started,alone⟩ := here
  refine ⟨eventsOf i before,e,by simp [eventsOf],started,fun x mem => ?_⟩
  obtain ⟨y,listed,rfl⟩ := List.mem_map.mp mem
  obtain ⟨inside,own⟩ := List.mem_filter.mp listed
  exact alone y inside (by simpa using own)

/-! Runs against a shared state that computes its answers. -/

/-- A call starts, or the request of a call is answered. -/
inductive Cue {Op : Type} (Reply : Op → Type) (Err : Type) where
  | call (p : Program Reply Err Unit)
  | turn (i : Nat)

section
variable (answer : σ → (op : Op) → Reply op × σ)

def turn (i : Nat) (pool : Pool Reply Err σ) : Pool Reply Err σ :=
  match pool.workers[i]? with
  | some ⟨call,.ask op next,history⟩ => {
      shared := (answer pool.shared op).2
      workers := pool.workers.set i ⟨call,next (answer pool.shared op).1,history ++ [⟨op,(answer pool.shared op).1⟩]⟩
      log := pool.log ++ [(i,⟨op,(answer pool.shared op).1⟩)] }
  | _ => pool

def cued : Cue Reply Err → Pool Reply Err σ → Pool Reply Err σ
  | .call p, pool => { pool with workers := pool.workers ++ [⟨p,p,[]⟩] }
  | .turn i, pool => turn answer i pool

def play : List (Cue Reply Err) → Pool Reply Err σ → Pool Reply Err σ
  | [], pool => pool
  | cue::rest, pool => play rest (cued answer cue pool)

/-- The move of a cue, none where the call has ended. -/
def moveOf : Cue Reply Err → Pool Reply Err σ → Option (Move Reply Err)
  | .call p, _ => some (.call p)
  | .turn i, pool => match pool.workers[i]? with
    | some ⟨_,.ask op _,_⟩ => some (.act i ⟨op,(answer pool.shared op).1⟩)
    | _ => none

def MeetsCue (meets : Pool Reply Err σ → Move Reply Err → Prop) (cue : Cue Reply Err) (pool : Pool Reply Err σ) : Prop :=
  match moveOf answer cue pool with
  | some move => meets pool move
  | none => True

def PlayMeets (meets : Pool Reply Err σ → Move Reply Err → Prop) : List (Cue Reply Err) → Pool Reply Err σ → Prop
  | [], _ => True
  | cue::rest, pool => MeetsCue answer meets cue pool ∧ PlayMeets meets rest (cued answer cue pool)

/-- The call that a cue starts. -/
def Cue.starts : Cue Reply Err → Option (Program Reply Err Unit)
  | .call p => some p
  | .turn _ => none

def playChecks (check : Pool Reply Err σ → Move Reply Err → Bool) : List (Cue Reply Err) → Pool Reply Err σ → Bool
  | [], _ => true
  | cue::rest, pool => (moveOf answer cue pool).all (check pool) && playChecks check rest (cued answer cue pool)

end

variable {answer : σ → (op : Op) → Reply op × σ}

theorem stepTurned {i call op next history} (here : pool.workers[i]? = some ⟨call,.ask op next,history⟩)
    (answers : performs pool.shared op (answer pool.shared op).1 (answer pool.shared op).2) :
    Step performs calls pool (.act i ⟨op,(answer pool.shared op).1⟩) (turn answer i pool) := by
  unfold turn
  rw [here]
  exact .act here answers

theorem stepTurn {i call op next history} (answers : ∀ s op, performs s op (answer s op).1 (answer s op).2)
    (here : pool.workers[i]? = some ⟨call,.ask op next,history⟩) :
    Step performs calls pool (.act i ⟨op,(answer pool.shared op).1⟩) (turn answer i pool) :=
  stepTurned here (answers _ _)

theorem reachesCue {cue : Cue Reply Err}
    (answers : ∀ pool i op, meets pool (.act i ⟨op,(answer pool.shared op).1⟩) → performs pool.shared op (answer pool.shared op).1 (answer pool.shared op).2)
    (called : ∀ p, cue = .call p → calls p) (met : MeetsCue answer meets cue pool)
    (run : Reaches performs calls meets start pool) : Reaches performs calls meets start (cued answer cue pool) := by
  cases cue with
  | call p => exact .step run (.call (called p rfl)) met
  | turn i =>
    have stays (still : turn answer i pool = pool) : Reaches performs calls meets start (cued answer (.turn i) pool) := by
      rw [cued,still]
      exact run
    cases here : pool.workers[i]? with
    | none => exact stays (by rw [turn,here])
    | some w =>
      obtain ⟨call,program,history⟩ := w
      cases program with
      | ask op next =>
        simp only [MeetsCue,moveOf,here] at met
        exact .step run (stepTurned here (answers _ _ _ met)) met
      | _ => exact stays (by rw [turn,here])

theorem reachesPlayed {cues : List (Cue Reply Err)}
    (answers : ∀ pool i op, meets pool (.act i ⟨op,(answer pool.shared op).1⟩) → performs pool.shared op (answer pool.shared op).1 (answer pool.shared op).2)
    (called : ∀ cue ∈ cues, ∀ p, cue = .call p → calls p) (met : PlayMeets answer meets cues pool)
    (run : Reaches performs calls meets start pool) : Reaches performs calls meets start (play answer cues pool) := by
  induction cues generalizing pool with
  | nil => exact run
  | cons cue rest ih =>
    refine ih (fun cue mem => called cue (List.mem_cons_of_mem _ mem)) met.2 ?_
    exact reachesCue answers (called cue List.mem_cons_self) met.1 run

theorem reachesPlay {cues : List (Cue Reply Err)} (answers : ∀ s op, performs s op (answer s op).1 (answer s op).2)
    (called : ∀ cue ∈ cues, ∀ p, cue = .call p → calls p) (met : PlayMeets answer meets cues pool)
    (run : Reaches performs calls meets start pool) : Reaches performs calls meets start (play answer cues pool) :=
  reachesPlayed (fun pool _ op _ => answers pool.shared op) called met run

abbrev Anything (_ : Pool Reply Err σ) (_ : Move Reply Err) : Prop := True

theorem playCalls (cues : List (Cue Reply Err)) (pool : Pool Reply Err σ) :
    (play answer cues pool).workers.map (·.call) = pool.workers.map (·.call) ++ cues.filterMap Cue.starts := by
  induction cues generalizing pool with
  | nil => simp [play]
  | cons cue rest ih =>
    rw [play,ih]
    cases cue with
    | call p => simp [cued,Cue.starts]
    | turn i =>
      have same : (turn answer i pool).workers.map (·.call) = pool.workers.map (·.call) := by
        unfold turn
        split
        · rename_i call op next history here
          obtain ⟨inside,found⟩ := List.getElem?_eq_some_iff.mp here
          refine List.ext_getElem (by simp) (fun j _ _ => ?_)
          simp only [List.getElem_map,List.getElem_set]
          split
          · rename_i own
            subst own
            rw [found]
          · rfl
        · rfl
      rw [cued,same]
      rfl

theorem playChecked {check : Pool Reply Err σ → Move Reply Err → Bool} (sound : ∀ pool move, check pool move = true → meets pool move)
    {cues : List (Cue Reply Err)} {pool : Pool Reply Err σ} (checked : playChecks answer check cues pool = true) :
    PlayMeets answer meets cues pool := by
  induction cues generalizing pool with
  | nil => trivial
  | cons cue rest ih =>
    obtain ⟨first,later⟩ := Bool.and_eq_true_iff.mp checked
    refine ⟨?_,ih later⟩
    unfold MeetsCue
    cases made : moveOf answer cue pool with
    | none => trivial
    | some move =>
      rw [made,Option.all_some] at first
      exact sound pool move first

theorem playAnything (cues : List (Cue Reply Err)) (pool : Pool Reply Err σ) : PlayMeets answer Anything cues pool := by
  induction cues generalizing pool with
  | nil => trivial
  | cons cue rest ih =>
    refine ⟨?_,ih _⟩
    unfold MeetsCue
    split <;> trivial

end Pool
