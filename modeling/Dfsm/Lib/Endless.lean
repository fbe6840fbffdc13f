import Mathlib.Data.Fintype.Pigeonhole
import Mathlib.Data.Set.Finite.List
import Mathlib.Logic.Relation
import Mathlib.Order.WellFounded

/-! Runs without an end, and places that a relation leads back to. -/
namespace Endless
open Relation

variable {α : Type} {r : α → α → Prop}

theorem runSteps {run : Nat → α} (step : ∀ n, r (run n) (run (n+1))) {i j : Nat} (before : i < j) : TransGen r (run i) (run j) := by
  induction before with
  | refl => exact .single (step i)
  | step _ ih => exact .tail ih (step _)

theorem returns {run : Nat → α} (step : ∀ n, r (run n) (run (n+1))) {places : Set α} (few : places.Finite)
    (inside : ∀ n, run n ∈ places) : ∃ n, TransGen r (run n) (run n) := by
  have := few.to_subtype
  obtain ⟨i,j,apart,same⟩ := Finite.exists_ne_map_eq_of_infinite (fun n => (⟨run n,inside n⟩ : places))
  have same : run i = run j := congrArg Subtype.val same
  rcases Nat.lt_or_gt_of_ne apart with before | after
  · have back := runSteps step before
    rw [← same] at back
    exact ⟨i,back⟩
  · have back := runSteps step after
    rw [same] at back
    exact ⟨j,back⟩

theorem fewLists {places : Set α} (few : places.Finite) (length : Nat) : {l : List α | l.length ≤ length ∧ ∀ a ∈ l, a ∈ places}.Finite := by
  have := few.to_subtype
  refine ((List.finite_length_le places length).image (List.map Subtype.val)).subset (fun l here => ?_)
  obtain ⟨short,inside⟩ := here
  exact ⟨l.attachWith _ inside,by simpa using short,by simp⟩

theorem noReturn {a : α} (ends : Acc (flip r) a) : ¬TransGen r a a := by
  induction ends with
  | intro a _ ih =>
    intro back
    obtain ⟨b,first,rest⟩ := TransGen.head'_iff.mp back
    exact ih b first (TransGen.tail' rest first)

theorem endsLater {a b : α} (ends : Acc (flip r) a) (leads : ReflTransGen r a b) : Acc (flip r) b := by
  induction leads with
  | refl => exact ends
  | tail _ step ih => exact ih.inv step

theorem endless {a b : α} (leads : ReflTransGen r a b) (back : TransGen r b b) : ∃ run : Nat → α, run 0 = a ∧ ∀ n, r (run n) (run (n+1)) :=
  not_acc_iff_exists_descending_chain.mp (fun ends => noReturn (endsLater ends leads) back)

/-! A partial function that is taken again and again. -/

section
variable (f : α → Option α)

/-- The place after so many turns, where the function has stopped at none of those before. -/
def after : Nat → α → Option α
  | 0, a => some a
  | n+1, a => (f a).bind (after n)

variable {f}

theorem afterNext {n : Nat} {a c : α} (here : after f (n+1) a = some c) : ∃ b, after f n a = some b ∧ f b = some c := by
  induction n generalizing a with
  | zero =>
    obtain ⟨b,first,last⟩ := Option.bind_eq_some_iff.mp here
    cases last
    exact ⟨a,rfl,first⟩
  | succ n ih =>
    obtain ⟨b,first,rest⟩ := Option.bind_eq_some_iff.mp here
    obtain ⟨c,before,last⟩ := ih rest
    exact ⟨c,Option.bind_eq_some_iff.mpr ⟨b,first,before⟩,last⟩

theorem afterLeads {n : Nat} {a b : α} (here : after f n a = some b) : ReflTransGen (fun a b => f a = some b) a b := by
  induction n generalizing b with
  | zero =>
    cases here
    exact .refl
  | succ n ih =>
    obtain ⟨c,before,last⟩ := afterNext here
    exact .tail (ih before) last

theorem afterRuns {run : Nat → α} (turns : ∀ n, f (run n) = some (run (n+1))) (n : Nat) : after f n (run 0) = some (run n) := by
  induction n generalizing run with
  | zero => rfl
  | succ n ih =>
    rw [after,turns 0]
    exact ih (fun n => turns (n+1))

theorem stops {a : α} {places : Set α} (few : places.Finite)
    (inside : ∀ b, ReflTransGen (fun a b => f a = some b) a b → b ∈ places) :
    (∃ n, after f n a = none) ↔ ¬∃ b, ReflTransGen (fun a b => f a = some b) a b ∧ TransGen (fun a b => f a = some b) b b := by
  constructor
  · rintro ⟨n,stopped⟩ ⟨b,leads,back⟩
    obtain ⟨run,rfl,turns⟩ := endless leads back
    rw [afterRuns turns] at stopped
    cases stopped
  · intro never
    by_contra running
    have running : ∀ n, ∃ b, after f n a = some b := by
      intro n
      refine Option.isSome_iff_exists.mp (Option.isSome_iff_ne_none.mpr (fun stopped => running ⟨n,stopped⟩))
    choose run here using running
    have steps : ∀ n, f (run n) = some (run (n+1)) := by
      intro n
      obtain ⟨b,before,last⟩ := afterNext (here (n+1))
      cases Option.some.inj ((here n).symm.trans before)
      exact last
    obtain ⟨n,back⟩ := returns (r := fun a b => f a = some b) steps few (fun n => inside _ (afterLeads (here n)))
    exact never ⟨run n,afterLeads (here n),back⟩

end

end Endless
