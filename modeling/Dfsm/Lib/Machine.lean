import Mathlib.Data.List.Basic

/-! Machines that answer one request after the other, invariants of their runs, and
simulations of one machine by another. -/

structure Machine (Op Result : Type) where
  State : Type
  init : State
  step : State → Op → Result × State

namespace Machine

variable {Op Result : Type}

def run (m : Machine Op Result) (s : m.State) : List Op → List Result × m.State
  | [] => ([],s)
  | op::ops => ((m.step s op).1::(run m (m.step s op).2 ops).1,(run m (m.step s op).2 ops).2)

def results (m : Machine Op Result) (ops : List Op) : List Result := (m.run m.init ops).1
def after (m : Machine Op Result) (ops : List Op) : m.State := (m.run m.init ops).2

theorem runInvariant (m : Machine Op Result) {inv : m.State → Prop} (kept : ∀ s op, inv s → inv (m.step s op).2) {s : m.State}
    (start : inv s) (ops : List Op) : inv (m.run s ops).2 := by
  induction ops generalizing s with
  | nil => exact start
  | cons op ops ih => exact ih (kept s op start)

/-- The machine, its answers seen through a function. -/
def seen {Seen : Type} (see : Result → Seen) (m : Machine Op Result) : Machine Op Seen where
  State := m.State
  init := m.init
  step s op := (see (m.step s op).1,(m.step s op).2)

theorem seenResults {Seen : Type} (see : Result → Seen) (m : Machine Op Result) (ops : List Op) :
    (m.seen see).results ops = (m.results ops).map see := by
  suffices all : ∀ s : m.State, ((m.seen see).run s ops).1 = (m.run s ops).1.map see from all m.init
  induction ops with
  | nil => intro s; rfl
  | cons op ops ih => intro s; exact congrArg (see (m.step s op).1::·) (ih (m.step s op).2)

/-- Every request is one the specification allows in the state it is made in. -/
def Allowed (spec : Machine Op Result) (may : spec.State → Op → Prop) : spec.State → List Op → Prop
  | _, [] => True
  | s, op::ops => may s op ∧ Allowed spec may (spec.step s op).2 ops

theorem allowedMono {spec : Machine Op Result} {may may' : spec.State → Op → Prop} (weaker : ∀ s op, may s op → may' s op)
    {s : spec.State} {ops : List Op} (allowed : Allowed spec may s ops) : Allowed spec may' s ops := by
  induction ops generalizing s with
  | nil => exact trivial
  | cons op ops ih => exact ⟨weaker s op allowed.1,ih allowed.2⟩

theorem allowedSeen {Seen : Type} (see : Result → Seen) {spec : Machine Op Result} {may : spec.State → Op → Prop} {s : spec.State}
    {ops : List Op} (allowed : Allowed spec may s ops) : Allowed (spec.seen see) may s ops := by
  induction ops generalizing s with
  | nil => exact trivial
  | cons op ops ih => exact ⟨allowed.1,ih allowed.2⟩

/-- Related states answer an allowed request alike and stay related. -/
structure Simulates (m spec : Machine Op Result) (may : spec.State → Op → Prop) (related : spec.State → m.State → Prop) : Prop where
  init : related spec.init m.init
  step : ∀ s t op, related s t → may s op →
    (m.step t op).1 = (spec.step s op).1 ∧ related (spec.step s op).2 (m.step t op).2

variable {m spec : Machine Op Result} {may : spec.State → Op → Prop} {related : spec.State → m.State → Prop}

theorem simulatesRun (simulates : Simulates m spec may related) {s t} (here : related s t) {ops : List Op} (allowed : Allowed spec may s ops) :
    (m.run t ops).1 = (spec.run s ops).1 ∧ related (spec.run s ops).2 (m.run t ops).2 := by
  induction ops generalizing s t with
  | nil => exact ⟨rfl,here⟩
  | cons op ops ih =>
    obtain ⟨first,rest⟩ := allowed
    obtain ⟨same,next⟩ := simulates.step s t op here first
    obtain ⟨results,last⟩ := ih next rest
    exact ⟨by rw [run,run,same,results],last⟩

theorem simulatesResults (simulates : Simulates m spec may related) {ops : List Op} (allowed : Allowed spec may spec.init ops) :
    m.results ops = spec.results ops :=
  (simulatesRun simulates simulates.init allowed).1

end Machine
