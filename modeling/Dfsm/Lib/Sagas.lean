import Dfsm.Lib.Pool
import Mathlib.Logic.Function.Basic

/-! Calls that take a record up by a compare-and-swap on its version, move a stack beside it
without one, and put the record down again: when one call at a time is at work, and the stack
is what has been committed. -/

/-- A record has a version, and may be held by a call that has taken it up. -/
class Leased (Rec : Type) where
  version : Rec → Int
  held : Rec → Prop

namespace Sagas
open Leased

variable {Op : Type} {Reply : Op → Type} {Err σ Rec Key : Type}

/-- What an event is to one record and its stack: `taken` and `put` are accepted updates, the
second by a call that ends its work; `stale` is one of these that is rejected. -/
inductive Touch (Rec Key : Type) where
  | aside
  | saw (found : List Rec)
  | created (record : Rec)
  | taken (record : Rec) (expected : Int)
  | put (record : Rec) (expected : Int)
  | stale (expected : Int)
  | tried (failed : Bool)
  | pushed (key : Key)
  | popped (key : Key)
  | undone
  | deleted

/-- The record and its stack. -/
structure Stored (Rec Key : Type) where
  record : Option Rec
  steps : List Key

/-- What a call has moved that it has not committed yet; what it has popped is owed until it is
undone. -/
structure Window (Key : Type) where
  pushed : Option Key := none
  popped : Nat := 0
  owed : List Key := []
  deriving DecidableEq

/-- Where a call stands: the records it has seen, the one it has taken and not put, how its
work has ended, and whether a put of it has been rejected. -/
structure Standing (Rec Key : Type) where
  reads : List Rec := []
  taken : Option Rec := none
  failed : Bool := false
  window : Window Key := {}
  rejected : Bool := false

abbrev Standing.Free (s : Standing Rec Key) : Prop := s.taken = none ∧ s.window = {}

def Standing.after (s : Standing Rec Key) : Touch Rec Key → Standing Rec Key
  | .aside | .deleted => s
  | .saw found => { s with reads := s.reads ++ found }
  | .created record => { s with reads := s.reads ++ [record] }
  | .taken record _ => { s with taken := some record, failed := false }
  | .put _ _ => { s with taken := none, window := {} }
  | .stale _ => { s with rejected := true }
  | .tried failed => { s with failed }
  | .pushed key => { s with window := { s.window with pushed := some key } }
  | .popped key => { s with window := { s.window with popped := s.window.popped + 1, owed := s.window.owed ++ [key] } }
  | .undone => { s with window := { s.window with owed := s.window.owed.dropLast } }

/-- A kind of call: what its events are, which of them are fine, what the store tells by them,
and the step that is committed where the work on a record succeeds. -/
structure Saga {Op : Type} (Reply : Op → Type) (Rec Key : Type) where
  touch : Event Reply → Touch Rec Key
  fine : Event Reply → Prop
  told : Event Reply → Prop
  step : Rec → Option Key

namespace Saga
variable (saga : Saga Reply Rec Key)

/-- What the put of a call commits. -/
def commits (s : Standing Rec Key) : List Key := if s.failed then [] else (s.taken.bind saga.step).toList

variable [Leased Rec]

/-- A call puts the record it has taken, with what it commits on the stack, or one it has seen,
with nothing on it. -/
def Puts (s : Standing Rec Key) (expected : Int) : Prop :=
  s.window.owed = [] ∧ match s.taken with
    | some record => expected = version record ∧ s.window.pushed.toList = saga.commits s
    | none => s.window.pushed = none ∧ ∃ r ∈ s.reads, version r = expected

def Lawful (s : Standing Rec Key) : Touch Rec Key → Prop
  | .aside | .tried _ | .undone => True
  | .saw _ | .created _ | .deleted => s.Free
  | .taken _ _ => s.Free ∧ s.reads ≠ []
  | .put _ expected | .stale expected => saga.Puts s expected
  | .pushed _ => s.taken.isSome ∧ s.window = {}
  | .popped _ => s.window.pushed = none ∧ s.window.owed = [] ∧ (s.taken = none → s.reads ≠ [])

def rules : Protocol Reply (Standing Rec Key) where
  allowed s op := s.rejected = false ∧ ∀ r, saga.fine ⟨op,r⟩ → saga.told ⟨op,r⟩ → saga.Lawful s (saga.touch ⟨op,r⟩)
  replies op r := saga.fine ⟨op,r⟩ ∧ saga.told ⟨op,r⟩
  after s op r := s.after (saga.touch ⟨op,r⟩)

end Saga

/-- What an event tells of the record and its stack. -/
def Tells [Leased Rec] (before after : Stored Rec Key) : Touch Rec Key → Prop
  | .created record => before.record = none ∧ after = { before with record := some record }
  | .taken record expected => held record ∧ (∃ existing, before.record = some existing ∧ version existing = expected) ∧
      after = { before with record := some record }
  | .put record expected => (∃ existing, before.record = some existing ∧ version existing = expected) ∧
      after = { before with record := some record }
  | .stale expected => (∀ existing, before.record = some existing → version existing ≠ expected) ∧ after = before
  | .pushed key => after = { before with steps := before.steps ++ [key] }
  | .popped _ => before.steps ≠ [] ∧ after = { before with steps := before.steps.dropLast }
  | .deleted => after = ⟨none,[]⟩
  | .aside | .saw _ | .tried _ | .undone => after = before

/-- Where the calls stand, and the steps committed that are still to be undone, by the log
alone. -/
structure Ledger (Rec Key : Type) where
  standings : Nat → Standing Rec Key := fun _ => {}
  outstanding : List Key := []

/-- A put takes off what its call has undone, and adds what it has done. -/
def outstandingAfter (saga : Saga Reply Rec Key) (s : Standing Rec Key) (outstanding : List Key) : Touch Rec Key → List Key
  | .put _ _ => outstanding.take (outstanding.length - s.window.popped) ++ s.window.owed ++ saga.commits s
  | .deleted => []
  | _ => outstanding

section
variable (policy : Nat → Saga Reply Rec Key)

def Ledger.after (l : Ledger Rec Key) (x : Nat × Event Reply) : Ledger Rec Key where
  standings := Function.update l.standings x.1 ((l.standings x.1).after ((policy x.1).touch x.2))
  outstanding := outstandingAfter (policy x.1) (l.standings x.1) l.outstanding ((policy x.1).touch x.2)

def ledger (log : List (Nat × Event Reply)) : Ledger Rec Key := log.foldl (Ledger.after policy) {}

end

/-- A step is put on the stack, or taken off it. -/
def Touch.moves : Touch Rec Key → Bool
  | .pushed _ | .popped _ => true
  | _ => false

/-- Puts or deletes the record, or moves its stack. -/
def Touch.touches : Touch Rec Key → Bool
  | .put _ _ | .deleted | .pushed _ | .popped _ => true
  | _ => false

/-- The program has ended, with a result or an error that is a return. -/
def returned {α : Type} (returns : Err → Bool) : Program Reply Err α → Bool
  | .ask _ _ => false
  | .done _ => true
  | .fail e => returns e

section
variable [Leased Rec] (policy : Nat → Saga Reply Rec Key) (returns : Err → Bool) (view : σ → Stored Rec Key)

def Returned (pool : Pool Reply Err σ) (i : Nat) : Prop := ∃ w, pool.workers[i]? = some w ∧ returned returns w.program = true

/-- The call is not at work on the record. -/
def Idle (pool : Pool Reply Err σ) (i : Nat) : Prop := ((ledger policy pool.log).standings i).Free ∨ Returned returns pool i

/-- Nothing goes wrong at the event: the call takes a record that nobody held when it read it,
that is still there, and that nobody is cleaning up; without having taken it, it touches the
record while nobody else is at work, and moves the stack where it has read the record as it is. -/
structure Fenced (pool : Pool Reply Err σ) (i : Nat) (e : Event Reply) : Prop where
  unheld : ∀ record v, (policy i).touch e = .taken record v → ∀ r ∈ ((ledger policy pool.log).standings i).reads,
    ¬held r ∧ (view pool.shared).record = some r
  closed : ∀ record v, (policy i).touch e = .taken record v → ∀ j ≠ i, ((ledger policy pool.log).standings j).window = {}
  alone : ((ledger policy pool.log).standings i).taken = none → ((policy i).touch e).touches = true → ∀ j ≠ i, Idle policy returns pool j
  current : ((ledger policy pool.log).standings i).taken = none → ((policy i).touch e).moves = true →
    ∀ r ∈ ((ledger policy pool.log).standings i).reads, (view pool.shared).record = some r
  fine : (policy i).fine e

def Meets (pool : Pool Reply Err σ) : Move Reply Err → Prop
  | .call _ => True
  | .act i e => Fenced policy returns view pool i e

/-- At most one call that has not returned has the record taken; with nobody between a move of
the stack and the put that commits it the stack is what has been committed and not been undone;
a call whose put was rejected has moved nothing. -/
structure Honest (pool : Pool Reply Err σ) : Prop where
  single : ∀ i j, ((ledger policy pool.log).standings i).taken.isSome → ¬Returned returns pool i →
    ((ledger policy pool.log).standings j).taken.isSome → ¬Returned returns pool j → i = j
  stack : (∀ i, ((ledger policy pool.log).standings i).window = {} ∨ Returned returns pool i) →
    (view pool.shared).steps = (ledger policy pool.log).outstanding
  lost : ∀ i, ((ledger policy pool.log).standings i).rejected = true → ((ledger policy pool.log).standings i).window = {}

/-- A call that has returned has moved nothing that it has not committed, or its put was
rejected. -/
def Ends {α : Type} (s : Standing Rec Key) : Except Err α → Prop
  | .ok _ => s.window = {}
  | .error e => returns e = true → s.rejected = true ∨ s.window = {}

end

/-! Programs that keep to the rules. -/

section
variable [Leased Rec] {saga : Saga Reply Rec Key} {returns : Err → Bool} {s : Standing Rec Key} {α β : Type}

/-- Where a call ends with an error that is a return. -/
abbrev Stops (returns : Err → Bool) (s : Standing Rec Key) (e : Err) : Prop := returns e = true → s.rejected = true ∨ s.window = {}

abbrev Steps (returns : Err → Bool) (good : Standing Rec Key → α → Prop) : Standing Rec Key → Except Err α → Prop :=
  Protocol.Outcome good (Stops returns)

/-- A request that says nothing of the record. -/
def Saga.Aside (saga : Saga Reply Rec Key) (op : Op) : Prop := ∀ r, saga.touch ⟨op,r⟩ = .aside

theorem asideObeys {p : Program Reply Err α} (asks : p.Asks saga.Aside) (fresh : s.rejected = false) :
    saga.rules.Obeys (fun s' _ => s' = s) s p := by
  refine @Protocol.obeysAsks _ _ _ _ _ saga.rules s saga.Aside (· = s) p asks ?_ rfl
  intro s' op same aside
  rw [same]
  refine ⟨⟨fresh,fun r _ _ => ?_⟩,fun r _ => ?_⟩
  · rw [aside r]
    trivial
  · show s.after (saga.touch ⟨op,r⟩) = s
    rw [aside r]
    rfl

theorem asideThen {good : Standing Rec Key → β → Prop} {p : Program Reply Err α} {k : α → Program Reply Err β} (asks : p.Asks saga.Aside)
    (fresh : s.rejected = false) (closed : s.window = {}) (rest : ∀ x, saga.rules.Obeys (Steps returns good) s (k x)) :
    saga.rules.Obeys (Steps returns good) s (p >>= k) := by
  refine Protocol.obeysBind (Protocol.obeysMono (asideObeys asks fresh) (fun s' r same => ?_))
  subst same
  cases r with
  | ok x => exact rest x
  | error e => exact fun _ => .inr closed

theorem lawfulAsk {post : Standing Rec Key → Except Err β → Prop} {op : Op} {k : Reply op → Program Reply Err β} (fresh : s.rejected = false)
    (lawful : ∀ r, saga.fine ⟨op,r⟩ → saga.told ⟨op,r⟩ → saga.Lawful s (saga.touch ⟨op,r⟩))
    (rest : ∀ r, saga.fine ⟨op,r⟩ → saga.told ⟨op,r⟩ → saga.rules.Obeys post (s.after (saga.touch ⟨op,r⟩)) (k r)) :
    saga.rules.Obeys post s (Program.request op >>= k) :=
  ⟨⟨fresh,lawful⟩,fun r possible => rest r possible.1 possible.2⟩

theorem asideAsk {post : Standing Rec Key → Except Err β → Prop} {op : Op} {k : Reply op → Program Reply Err β} (aside : saga.Aside op)
    (fresh : s.rejected = false) (rest : ∀ r, saga.fine ⟨op,r⟩ → saga.rules.Obeys post s (k r)) :
    saga.rules.Obeys post s (Program.request op >>= k) := by
  refine lawfulAsk fresh (fun r _ _ => ?_) (fun r fine _ => ?_)
  · rw [aside r]
    trivial
  · rw [aside r]
    exact rest r fine

theorem stopThen {good : Standing Rec Key → β → Prop} {x : Except Err α} {k : α → Program Reply Err β}
    (stops : ∀ e, x = .error e → Stops returns s e) (rest : ∀ v, x = .ok v → saga.rules.Obeys (Steps returns good) s (k v)) :
    saga.rules.Obeys (Steps returns good) s (.ofExcept x >>= k) := by
  cases x with
  | error e => exact stops e rfl
  | ok v => exact rest v rfl

end

/-! One call that may be at work, while nobody else is. -/

/-- The stack holds what is outstanding, but for what the call has moved. -/
structure Fits (steps outstanding : List Key) (w : Window Key) : Prop where
  popped : w.popped ≤ outstanding.length
  steps : steps = outstanding.take (outstanding.length - w.popped) ++ w.pushed.toList

/-- A call has the record as it has taken it; one that has popped without it has it as it has
read it. -/
structure Sound [Leased Rec] (x : Stored Rec Key) (outstanding : List Key) (s : Standing Rec Key) : Prop where
  step : ∀ record, s.taken = some record → x.record = some record ∧ held record
  swept : s.taken = none → s.window ≠ {} → s.reads ≠ [] ∧ ∀ r ∈ s.reads, x.record = some r
  absent : x.record = none → outstanding = []
  fits : Fits x.steps outstanding s.window

section
variable [Leased Rec] {saga : Saga Reply Rec Key} {s s' : Standing Rec Key} {x x' : Stored Rec Key} {outstanding : List Key}
variable {touch : Touch Rec Key}

theorem fitsClosed {steps : List Key} : Fits steps outstanding {} ↔ steps = outstanding := by
  constructor
  · intro fits
    simpa using fits.steps
  · rintro rfl
    exact ⟨Nat.zero_le _,by simp⟩

theorem fitsPopped {steps : List Key} {w : Window Key} {owed : List Key} (fits : Fits steps outstanding w) (none_ : w.pushed = none)
    (some_ : steps ≠ []) : Fits steps.dropLast outstanding { w with popped := w.popped + 1, owed } := by
  have same := fits.steps
  rw [none_,Option.toList_none,List.append_nil] at same
  have more : w.popped < outstanding.length := by
    by_contra all
    rw [Nat.sub_eq_zero_of_le (by omega),List.take_zero] at same
    exact some_ same
  refine ⟨more,?_⟩
  rw [same,List.dropLast_eq_take,List.take_take,List.length_take]
  simp only [none_,Option.toList_none,List.append_nil]
  congr 1
  omega

theorem soundFree (sound : Sound x outstanding s) (closed : s.window = {}) (free : s'.Free) : Sound x outstanding s' where
  step record here := absurd (free.1.symm.trans here) (by simp)
  swept _ some_ := absurd free.2 some_
  absent := sound.absent
  fits := by
    have fits := sound.fits
    rw [closed] at fits
    rw [free.2]
    exact fits

theorem busyStored (sound : Sound x outstanding s) (busy : ¬s.Free) : ∃ record, x.record = some record := by
  cases taken : s.taken with
  | some record => exact ⟨record,(sound.step record taken).1⟩
  | none =>
    obtain ⟨some_,current⟩ := sound.swept taken (fun closed => busy ⟨taken,closed⟩)
    obtain ⟨record,mem⟩ := List.exists_mem_of_ne_nil _ some_
    exact ⟨record,current record mem⟩

theorem putCurrent {expected : Int} (sound : Sound x outstanding s) (busy : ¬s.Free) (puts : saga.Puts s expected) :
    ∃ existing, x.record = some existing ∧ version existing = expected := by
  obtain ⟨_,puts⟩ := puts
  cases taken : s.taken with
  | some record =>
    rw [taken] at puts
    exact ⟨record,(sound.step record taken).1,puts.1.symm⟩
  | none =>
    rw [taken] at puts
    obtain ⟨_,r,mem,same⟩ := puts
    exact ⟨r,(sound.swept taken (fun closed => busy ⟨taken,closed⟩)).2 r mem,same⟩

theorem putCommits {expected : Int} (puts : saga.Puts s expected) : s.window.pushed.toList = saga.commits s := by
  obtain ⟨_,puts⟩ := puts
  cases taken : s.taken with
  | some record =>
    rw [taken] at puts
    exact puts.2
  | none =>
    rw [taken] at puts
    rw [puts.1,Saga.commits,taken]
    split <;> rfl

theorem soundAfter (sound : Sound x outstanding s) (lawful : saga.Lawful s touch) (tells : Tells x x' touch)
    (current : s.taken = none → touch.moves = true → ∀ r ∈ s.reads, x.record = some r) :
    Sound x' (outstandingAfter saga s outstanding touch) (s.after touch) := by
  cases touch with
  | aside | tried | undone =>
    rw [show x' = x from tells]
    refine ⟨sound.step,fun idle some_ => ?_,sound.absent,⟨sound.fits.popped,sound.fits.steps⟩⟩
    refine sound.swept idle (fun closed => some_ ?_)
    first
      | exact closed
      | exact (congrArg (fun w : Window Key => { w with owed := w.owed.dropLast }) closed)
  | saw found =>
    rw [show x' = x from tells]
    exact soundFree sound lawful.2 lawful
  | created record =>
    obtain ⟨absent,rfl⟩ := tells
    have empty := sound.absent absent
    exact ⟨fun taken here => absurd (lawful.1.symm.trans here) (by simp),fun _ some_ => absurd lawful.2 some_,fun none_ => (by cases none_),sound.fits⟩
  | taken record expected =>
    obtain ⟨held_,_,rfl⟩ := tells
    refine ⟨?_,fun none_ => (by cases none_),fun none_ => (by cases none_),sound.fits⟩
    rintro _ ⟨⟩
    exact ⟨rfl,held_⟩
  | put record expected =>
    obtain ⟨_,rfl⟩ := tells
    refine ⟨fun _ none_ => (by cases none_),fun _ some_ => absurd rfl some_,fun none_ => (by cases none_),fitsClosed.mpr ?_⟩
    rw [outstandingAfter,lawful.1,List.append_nil,← putCommits lawful]
    exact sound.fits.steps
  | stale expected =>
    rw [show x' = x from tells.2]
    exact ⟨sound.step,sound.swept,sound.absent,sound.fits⟩
  | pushed key =>
    rw [show x' = _ from tells]
    have fits := sound.fits
    rw [lawful.2] at fits
    refine ⟨sound.step,fun none_ => absurd lawful.1 (by simp [show s.taken = none from none_]),sound.absent,?_⟩
    rw [Standing.after,lawful.2]
    refine ⟨Nat.zero_le _,?_⟩
    rw [fitsClosed.mp fits]
    simp [outstandingAfter]
  | popped key =>
    obtain ⟨some_,rfl⟩ := tells
    obtain ⟨none_,_,reads⟩ := lawful
    exact ⟨sound.step,fun idle _ => ⟨reads idle,current idle rfl⟩,sound.absent,fitsPopped sound.fits none_ some_⟩
  | deleted =>
    rw [show x' = _ from tells]
    refine ⟨fun taken here => absurd (lawful.1.symm.trans here) (by simp),fun _ some_ => absurd lawful.2 some_,fun _ => rfl,?_⟩
    rw [Standing.after,lawful.2]
    exact fitsClosed.mpr rfl

theorem quietAfter {busy : Standing Rec Key} (sound : Sound x outstanding busy) (some_ : ¬busy.Free) (free : s.Free)
    (lawful : saga.Lawful s touch) (tells : Tells x x' touch)
    (unheld : ∀ record v, touch = .taken record v → (∀ r ∈ s.reads, ¬held r ∧ x.record = some r) ∧ busy.window = {})
    (untouched : touch.touches = false) : x' = x ∧ outstandingAfter saga s outstanding touch = outstanding ∧ (s.after touch).Free := by
  cases touch with
  | put | deleted | pushed | popped => cases untouched
  | aside | saw | tried => exact ⟨tells,rfl,free⟩
  | undone =>
    refine ⟨tells,rfl,free.1,?_⟩
    rw [Standing.after,free.2]
    rfl
  | stale => exact ⟨tells.2,rfl,free⟩
  | created record =>
    obtain ⟨existing,here⟩ := busyStored sound some_
    exact absurd (here.symm.trans tells.1) (by simp)
  | taken record v =>
    obtain ⟨fresh,closed⟩ := unheld record v rfl
    obtain ⟨r,mem⟩ := List.exists_mem_of_ne_nil _ lawful.2
    cases taken : busy.taken with
    | none => exact absurd ⟨taken,closed⟩ some_
    | some other =>
      obtain ⟨here,held_⟩ := sound.step other taken
      obtain ⟨unheld_,same⟩ := fresh r mem
      cases Option.some.inj (here.symm.trans same)
      exact absurd held_ unheld_

end

/-! Whole runs. -/

section
variable {policy : Nat → Saga Reply Rec Key}

theorem ledgerSnoc {log : List (Nat × Event Reply)} {x : Nat × Event Reply} :
    ledger policy (log ++ [x]) = (ledger policy log).after policy x := by
  simp [ledger]

theorem standingOwn {l : Ledger Rec Key} {i : Nat} {e : Event Reply} :
    (l.after policy (i,e)).standings i = (l.standings i).after ((policy i).touch e) := Function.update_self i _ l.standings

theorem standingOther {l : Ledger Rec Key} {i j : Nat} {e : Event Reply} (other : j ≠ i) :
    (l.after policy (i,e)).standings j = l.standings j := Function.update_of_ne other _ l.standings

theorem standingAbsent {log : List (Nat × Event Reply)} {j : Nat} (absent : ∀ x ∈ log, x.1 ≠ j) : (ledger policy log).standings j = {} := by
  induction log using List.reverseRec with
  | nil => rfl
  | append_singleton log x ih =>
    rw [ledgerSnoc,standingOther (Ne.symm (absent x (by simp)))]
    exact ih (fun y mem => absent y (by simp [mem]))

theorem logged {log : List (Nat × Event Reply)} {i : Nat} {good : Nat → Prop} (idle : ∀ j, (ledger policy log).standings j = {} → good j)
    (all : ∀ x ∈ log, x.1 = i ∨ good x.1) : ∀ j ≠ i, good j := by
  intro j other
  by_cases known : ∃ x ∈ log, x.1 = j
  · obtain ⟨x,mem,rfl⟩ := known
    exact (all x mem).resolve_left other
  · exact idle j (standingAbsent (fun x mem same => known ⟨x,mem,same⟩))

variable {returns : Err → Bool} {pool : Pool Reply Err σ} {i : Nat} {call : Program Reply Err Unit} {op : Op}
variable {next : Reply op → Program Reply Err Unit} {history : List (Event Reply)} {r : Reply op} {shared : σ}

/-- The pool after one event of a call. -/
abbrev acted (pool : Pool Reply Err σ) (i : Nat) (call : Program Reply Err Unit) (next : Reply op → Program Reply Err Unit)
    (history : List (Event Reply)) (r : Reply op) (shared : σ) : Pool Reply Err σ where
  shared
  workers := pool.workers.set i ⟨call,next r,history ++ [⟨op,r⟩]⟩
  log := pool.log ++ [(i,⟨op,r⟩)]

theorem actedIdle {j : Nat} (other : j ≠ i) (idle : Idle policy returns pool j) :
    Idle policy returns (acted pool i call next history r shared) j := by
  rcases idle with free | ⟨w,here,ended⟩
  · refine .inl ?_
    rw [ledgerSnoc,standingOther other]
    exact free
  · refine .inr ⟨w,?_,ended⟩
    rw [List.getElem?_set_ne (Ne.symm other)]
    exact here

variable [Leased Rec] {view : σ → Stored Rec Key}

/-- What a run that meets the condition keeps: every call keeps to its rules, and one may be
at work. -/
structure Kept (policy : Nat → Saga Reply Rec Key) (returns : Err → Bool) (view : σ → Stored Rec Key) (pool : Pool Reply Err σ) : Prop where
  obeys : ∀ i w, pool.workers[i]? = some w → (policy i).rules.Obeys (Ends returns) ((ledger policy pool.log).standings i) w.program
  unused : ∀ i, pool.workers.length ≤ i → (ledger policy pool.log).standings i = {}
  lost : ∀ i, ((ledger policy pool.log).standings i).rejected = true → ((ledger policy pool.log).standings i).Free
  one : ∃ i, (∀ j ≠ i, Idle policy returns pool j) ∧
    Sound (view pool.shared) (ledger policy pool.log).outstanding ((ledger policy pool.log).standings i)

theorem returnedClosed {α : Type} {saga : Saga Reply Rec Key} {s : Standing Rec Key} {p : Program Reply Err α}
    (obeys : saga.rules.Obeys (Ends returns) s p) (lost : s.rejected = true → s.Free) (ended : returned returns p = true) : s.window = {} := by
  cases p with
  | ask op next => cases ended
  | done a => exact obeys
  | fail e =>
    rcases obeys ended with rejected | closed
    · exact (lost rejected).2
    · exact closed

theorem idleClosed (kept : Kept policy returns view pool) {i : Nat} (idle : Idle policy returns pool i) :
    ((ledger policy pool.log).standings i).window = {} := by
  rcases idle with free | ⟨w,here,ended⟩
  · exact free.2
  · exact returnedClosed (kept.obeys i w here) (kept.lost i) ended

theorem oneAfter (kept : Kept policy returns view pool) (here : pool.workers[i]? = some ⟨call,.ask op next,history⟩)
    (fenced : Fenced policy returns view pool i ⟨op,r⟩)
    (lawful : (policy i).Lawful ((ledger policy pool.log).standings i) ((policy i).touch ⟨op,r⟩))
    (tells : Tells (view pool.shared) (view shared) ((policy i).touch ⟨op,r⟩)) :
    ∃ k, (∀ j ≠ k, Idle policy returns (acted pool i call next history r shared) j) ∧
      Sound (view shared) (ledger policy (pool.log ++ [(i,⟨op,r⟩)])).outstanding ((ledger policy (pool.log ++ [(i,⟨op,r⟩)])).standings k) := by
  obtain ⟨k,others,sound⟩ := kept.one
  have turn (alone : ∀ j ≠ i, Idle policy returns pool j)
      (sound : Sound (view pool.shared) (ledger policy pool.log).outstanding ((ledger policy pool.log).standings i)) :
      ∃ k, (∀ j ≠ k, Idle policy returns (acted pool i call next history r shared) j) ∧
        Sound (view shared) (ledger policy (pool.log ++ [(i,⟨op,r⟩)])).outstanding
          ((ledger policy (pool.log ++ [(i,⟨op,r⟩)])).standings k) := by
    refine ⟨i,fun j other => actedIdle other (alone j other),?_⟩
    rw [ledgerSnoc,standingOwn]
    exact soundAfter sound lawful tells fenced.current
  by_cases own : i = k
  · subst own
    exact turn others sound
  · have free : ((ledger policy pool.log).standings i).Free := by
      rcases others i own with free | ⟨w,there,ended⟩
      · exact free
      · cases Option.some.inj (here.symm.trans there)
        cases ended
    by_cases idle : Idle policy returns pool k
    · refine turn (fun j other => ?_) (soundFree sound (idleClosed kept idle) free)
      by_cases same : j = k
      · rw [same]
        exact idle
      · exact others j same
    · have untouched : ((policy i).touch ⟨op,r⟩).touches = false := by
        cases touched : ((policy i).touch ⟨op,r⟩).touches with
        | false => rfl
        | true => exact absurd (fenced.alone free.1 touched k (Ne.symm own)) idle
      obtain ⟨stored,outstanding,free'⟩ := quietAfter sound (fun free => idle (.inl free)) free lawful tells
        (fun record v same => ⟨fenced.unheld record v same,fenced.closed record v same k (Ne.symm own)⟩) untouched
      refine ⟨k,fun j other => ?_,?_⟩
      · by_cases same : j = i
        · refine .inl ?_
          rw [same,ledgerSnoc,standingOwn]
          exact free'
        · exact actedIdle same (others j other)
      · rw [ledgerSnoc,standingOther (Ne.symm own),stored]
        rw [show ((ledger policy pool.log).after policy (i,⟨op,r⟩)).outstanding = (ledger policy pool.log).outstanding from outstanding]
        exact sound

theorem lostAfter (kept : Kept policy returns view pool) (here : pool.workers[i]? = some ⟨call,.ask op next,history⟩)
    (fresh : ((ledger policy pool.log).standings i).rejected = false)
    (lawful : (policy i).Lawful ((ledger policy pool.log).standings i) ((policy i).touch ⟨op,r⟩))
    (tells : Tells (view pool.shared) (view shared) ((policy i).touch ⟨op,r⟩))
    (lost : (((ledger policy pool.log).standings i).after ((policy i).touch ⟨op,r⟩)).rejected = true) :
    (((ledger policy pool.log).standings i).after ((policy i).touch ⟨op,r⟩)).Free := by
  cases touch : (policy i).touch ⟨op,r⟩ with
  | stale expected =>
    rw [touch] at lawful tells
    by_contra busy
    obtain ⟨k,others,sound⟩ := kept.one
    by_cases own : i = k
    · subst own
      obtain ⟨existing,there,same⟩ := putCurrent sound busy lawful
      exact tells.1 existing there same
    · rcases others i own with free | ⟨w,there,ended⟩
      · exact busy free
      · cases Option.some.inj (here.symm.trans there)
        cases ended
  | _ =>
    rw [touch] at lost
    exact absurd (fresh.symm.trans lost) (by decide)

theorem keptAct (kept : Kept policy returns view pool) (here : pool.workers[i]? = some ⟨call,.ask op next,history⟩)
    (fenced : Fenced policy returns view pool i ⟨op,r⟩) (told : (policy i).told ⟨op,r⟩)
    (tells : Tells (view pool.shared) (view shared) ((policy i).touch ⟨op,r⟩)) :
    Kept policy returns view (acted pool i call next history r shared) := by
  have inside := (List.getElem?_eq_some_iff.mp here).1
  obtain ⟨⟨fresh,allowed⟩,rest⟩ := kept.obeys i _ here
  have lawful := allowed r fenced.fine told
  have before (j : Nat) (own : j ≠ i) : (ledger policy (pool.log ++ [(i,⟨op,r⟩)])).standings j = (ledger policy pool.log).standings j := by
    rw [ledgerSnoc,standingOther own]
  have now : (ledger policy (pool.log ++ [(i,⟨op,r⟩)])).standings i =
      ((ledger policy pool.log).standings i).after ((policy i).touch ⟨op,r⟩) := by
    rw [ledgerSnoc,standingOwn]
  refine ⟨fun j w there => ?_,fun j outside => ?_,fun j lost => ?_,oneAfter kept here fenced lawful tells⟩
  · by_cases own : j = i
    · subst own
      rw [List.getElem?_set_self inside] at there
      cases Option.some.inj there
      rw [now]
      exact rest r ⟨fenced.fine,told⟩
    · rw [List.getElem?_set_ne (Ne.symm own)] at there
      rw [before j own]
      exact kept.obeys j w there
  · rw [List.length_set] at outside
    rw [before j (by omega)]
    exact kept.unused j outside
  · by_cases own : j = i
    · subst own
      rw [now] at lost ⊢
      exact lostAfter kept here fresh lawful tells lost
    · rw [before j own] at lost ⊢
      exact kept.lost j lost

variable {performs : σ → (op : Op) → Reply op → σ → Prop} {calls : Program Reply Err Unit → Prop} {s : σ}

theorem keptRun {program : Nat → Program Reply Err Unit} (obeys : ∀ i, (policy i).rules.Obeys (Ends returns) {} (program i))
    (answers : ∀ i s op r s', performs s op r s' → (policy i).told ⟨op,r⟩ ∧ Tells (view s) (view s') ((policy i).touch ⟨op,r⟩))
    (run : Pool.Reaches performs calls (Meets policy returns view) { shared := s } pool) (empty : (view s).steps = [])
    (called : ∀ i w, pool.workers[i]? = some w → w.call = program i) : Kept policy returns view pool := by
  revert called
  refine @Pool.reachesInvariant _ _ _ _ _ _ _ _ _ (fun pool : Pool Reply Err σ =>
    (∀ i w, pool.workers[i]? = some w → w.call = program i) → Kept policy returns view pool) run ?_ ?_
  · intro _
    refine ⟨fun i w here => by simp at here,fun _ _ => rfl,fun _ lost => absurd lost (by simp [ledger]),0,fun _ _ => .inl ⟨rfl,rfl⟩,?_⟩
    exact ⟨fun record here => by simp [ledger] at here,fun _ some_ => absurd rfl some_,fun _ => rfl,fitsClosed.mpr empty⟩
  · intro pool move next before met kept step called
    cases step with
    | @call p called_ =>
      have earlier (i : Nat) (w) (here : pool.workers[i]? = some w) : (pool.workers ++ [⟨p,p,[]⟩])[i]? = some w := by
        rw [List.getElem?_append_left (List.getElem?_eq_some_iff.mp here).1]
        exact here
      have old := kept (fun i w here => called i w (earlier i w here))
      refine ⟨fun i w here => ?_,fun i outside => old.unused i (by simp at outside; omega),old.lost,?_⟩
      · rcases Nat.lt_or_ge i pool.workers.length with inside | outside
        · rw [List.getElem?_append_left inside] at here
          exact old.obeys i w here
        · have mine : w.call = program i := called i w here
          rw [List.getElem?_append_right outside] at here
          have last : w = ⟨p,p,[]⟩ := by simpa using List.mem_of_getElem? here
          subst last
          have own : p = program i := mine
          rw [show (ledger policy pool.log).standings i = {} from old.unused i outside,own]
          exact obeys i
      · obtain ⟨k,others,sound⟩ := old.one
        refine ⟨k,fun j other => ?_,sound⟩
        rcases others j other with free | ⟨w,here,ended⟩
        · exact .inl free
        · exact .inr ⟨w,earlier j w here,ended⟩
    | @act i call op rest history r shared here performed =>
      have inside := (List.getElem?_eq_some_iff.mp here).1
      have earlier (j : Nat) (w) (there : pool.workers[j]? = some w) : w.call = program j := by
        by_cases own : i = j
        · subst own
          cases Option.some.inj (here.symm.trans there)
          exact called i ⟨call,rest r,_⟩ (List.getElem?_set_self inside)
        · exact called j w (by rw [List.getElem?_set_ne own]; exact there)
      obtain ⟨told,tells⟩ := answers i _ _ _ _ performed
      exact keptAct (kept earlier) here met told tells

/-- In every run whose events are fenced one call at a time is at work, and the stack is what
has been committed and not undone. -/
theorem honest {program : Nat → Program Reply Err Unit} (obeys : ∀ i, (policy i).rules.Obeys (Ends returns) {} (program i))
    (answers : ∀ i s op r s', performs s op r s' → (policy i).told ⟨op,r⟩ ∧ Tells (view s) (view s') ((policy i).touch ⟨op,r⟩))
    (run : Pool.Reaches performs calls (Meets policy returns view) { shared := s } pool) (empty : (view s).steps = [])
    (called : ∀ i w, pool.workers[i]? = some w → w.call = program i) : Honest policy returns view pool := by
  have kept := keptRun obeys answers run empty called
  obtain ⟨k,others,sound⟩ := kept.one
  have busy {i : Nat} (taken : ((ledger policy pool.log).standings i).taken.isSome) (runs : ¬Returned returns pool i) : i = k := by
    by_contra other
    rcases others i other with free | ended
    · rw [free.1] at taken
      cases taken
    · exact runs ended
  refine ⟨fun i j inI runI inJ runJ => (busy inI runI).trans (busy inJ runJ).symm,fun quiet => ?_,fun i lost => (kept.lost i lost).2⟩
  have closed : ((ledger policy pool.log).standings k).window = {} := by
    rcases quiet k with closed | ended
    · exact closed
    · exact idleClosed kept (.inr ended)
  have fits := sound.fits
  rw [closed] at fits
  exact fitsClosed.mp fits

end

/-! Runs on fixed inputs. -/

section
variable [DecidableEq Key] (policy : Nat → Saga Reply Rec Key) (returns : Err → Bool)

def idleCheck (pool : Pool Reply Err σ) (i : Nat) : Bool :=
  ((ledger policy pool.log).standings i).taken.isNone && decide (((ledger policy pool.log).standings i).window = {}) ||
    pool.workers[i]?.any (fun w => returned returns w.program)

variable {policy returns}

theorem idleSound {pool : Pool Reply Err σ} {i : Nat} (checked : idleCheck policy returns pool i = true) : Idle policy returns pool i := by
  simp only [idleCheck,Bool.or_eq_true,Bool.and_eq_true,Option.isNone_iff_eq_none,decide_eq_true_eq,Option.any_eq_true] at checked
  exact checked

variable [Leased Rec] [DecidableEq Rec] [DecidablePred (held : Rec → Prop)] (policy returns) (view : σ → Stored Rec Key)
variable (fine : Nat → Event Reply → Bool)

/-- What has to be seen of an event to find it fenced. -/
def fencedCheck (pool : Pool Reply Err σ) : Move Reply Err → Bool
  | .call _ => true
  | .act i e =>
    let s := (ledger policy pool.log).standings i
    let current (r : Rec) : Bool := decide ((view pool.shared).record = some r)
    (match (policy i).touch e with
      | .taken _ _ => s.reads.all (fun r => !decide (held r) && current r) &&
          pool.log.all (fun x => decide (x.1 = i) || decide (((ledger policy pool.log).standings x.1).window = {}))
      | _ => true) &&
    (s.taken.isSome || !((policy i).touch e).touches || pool.log.all (fun x => decide (x.1 = i) || idleCheck policy returns pool x.1)) &&
    (s.taken.isSome || !((policy i).touch e).moves || s.reads.all current) && fine i e

variable {policy returns view fine}

theorem fencedSound (sound : ∀ i e, fine i e = true → (policy i).fine e) (pool : Pool Reply Err σ) (move : Move Reply Err)
    (checked : fencedCheck policy returns view fine pool move = true) : Meets policy returns view pool move := by
  cases move with
  | call p => trivial
  | act i e =>
    simp only [fencedCheck,Bool.and_eq_true] at checked
    obtain ⟨⟨⟨taking,alone⟩,current⟩,fine_⟩ := checked
    have takes {record v} (touch : (policy i).touch e = .taken record v) :
        (∀ r ∈ ((ledger policy pool.log).standings i).reads, ¬held r ∧ (view pool.shared).record = some r) ∧
          ∀ x ∈ pool.log, x.1 = i ∨ ((ledger policy pool.log).standings x.1).window = {} := by
      rw [touch] at taking
      simpa only [Bool.and_eq_true,List.all_eq_true,Bool.not_eq_true',decide_eq_false_iff_not,decide_eq_true_eq,Bool.or_eq_true] using taking
    refine ⟨fun record v touch => (takes touch).1,fun record v touch => ?_,fun idle touched => ?_,fun idle moved => ?_,sound i e fine_⟩
    · exact logged (fun j free => by rw [free]) (takes touch).2
    · simp only [idle,touched,Option.isSome_none,Bool.not_true,Bool.false_or,List.all_eq_true,Bool.or_eq_true,decide_eq_true_eq] at alone
      refine logged (fun j free => .inl (by rw [free]; exact ⟨rfl,rfl⟩)) (fun x mem => (alone x mem).imp_right idleSound)
    · simp only [idle,moved,Option.isSome_none,Bool.not_true,Bool.false_or,List.all_eq_true,decide_eq_true_eq] at current
      exact current

end
end Sagas
