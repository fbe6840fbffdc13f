import Mathlib.Data.List.Forall2
import Mathlib.Data.List.Perm.Basic
import Mathlib.Data.List.Sort

/-! Two lists whose items stand for one another, item by item: what a search, a filter and
a sort by key find in one is what they find in the other. -/
namespace Paired
open List

variable {α β : Type} {R : α → β → Prop} {xs : List α} {ys : List β}

theorem find {p : α → Bool} {q : β → Bool} (same : ∀ a b, R a b → p a = q b) (paired : Forall₂ R xs ys) :
    Option.Rel R (xs.find? p) (ys.find? q) := by
  induction paired with
  | nil => exact .none
  | @cons a b as bs first rest ih =>
    simp only [find?_cons,same a b first]
    cases q b with
    | true => exact .some first
    | false => exact ih

theorem ofSome {a : α} {b : Option β} (rel : Option.Rel R (some a) b) : ∃ y, b = some y ∧ R a y := by
  cases rel with
  | some held => exact ⟨_,rfl,held⟩

theorem ofNone {b : Option β} (rel : Option.Rel R none b) : b = none := by
  cases rel
  rfl

theorem known {a : Option α} {b : Option β} (rel : Option.Rel R a b) : b.isSome = a.isSome := by
  cases rel <;> rfl

theorem any {p : α → Bool} {q : β → Bool} {a : Option α} {b : Option β} (same : ∀ a b, R a b → p a = q b) (rel : Option.Rel R a b) :
    b.any q = a.any p := by
  cases rel with
  | none => rfl
  | some held => exact (same _ _ held).symm

theorem optionEq {γ : Type} {f : α → γ} {g : β → γ} {a : Option α} {b : Option β} (same : ∀ x, a = some x → ∀ y, R x y → f x = g y)
    (rel : Option.Rel R a b) : b.map g = a.map f := by
  cases rel with
  | none => rfl
  | some held => exact congrArg some (same _ rfl _ held).symm

theorem findKeyed {key : α → String} {f : α → α} (same : ∀ a, key (f a) = key a) (xs : List α) (k : String) :
    (xs.map f).find? (fun a => decide (key a = k)) = (xs.find? (fun a => decide (key a = k))).map f := by
  have keys : (fun a => decide (key a = k)) ∘ f = fun a => decide (key a = k) := by
    funext a
    rw [Function.comp,same]
  rw [find?_map,keys]

theorem members (paired : Forall₂ R xs ys) : Forall₂ (fun a b => a ∈ xs ∧ R a b) xs ys :=
  (forall₂_and_left xs ys).mpr ⟨fun _ member => member,paired⟩

theorem filter {p : α → Bool} {q : β → Bool} (same : ∀ a ∈ xs, ∀ b, R a b → p a = q b) (paired : Forall₂ R xs ys) :
    Forall₂ R (xs.filter p) (ys.filter q) := by
  have both : Forall₂ (fun a b => a ∈ xs ∧ R a b) (xs.filter p) (ys.filter q) :=
    rel_filter (fun a b held => Bool.eq_iff_iff.mp (same a held.1 b held.2)) (members paired)
  exact both.imp (fun _ _ held => held.2)

theorem map {S : α → β → Prop} {f : α → α} {g : β → β} (same : ∀ a ∈ xs, ∀ b, R a b → S (f a) (g b)) (paired : Forall₂ R xs ys) :
    Forall₂ S (xs.map f) (ys.map g) :=
  forall₂_map_left_iff.mpr (forall₂_map_right_iff.mpr ((members paired).imp (fun a b held => same a held.1 b held.2)))

theorem mapLeft {S : α → β → Prop} {f : α → α} (same : ∀ a ∈ xs, ∀ b, R a b → S (f a) b) (paired : Forall₂ R xs ys) :
    Forall₂ S (xs.map f) ys :=
  forall₂_map_left_iff.mpr ((members paired).imp (fun a b held => same a held.1 b held.2))

theorem mapEq {γ : Type} {f : α → γ} {g : β → γ} (same : ∀ a ∈ xs, ∀ b, R a b → f a = g b) (paired : Forall₂ R xs ys) :
    xs.map f = ys.map g := by
  have equal : Forall₂ (· = ·) (xs.map f) (ys.map g) :=
    forall₂_map_left_iff.mpr (forall₂_map_right_iff.mpr ((members paired).imp (fun a b held => same a held.1 b held.2)))
  rwa [forall₂_eq_eq_eq] at equal

theorem forget {p : β → Prop} (here : ∀ a ∈ xs, ∀ b, R a b → p b) (paired : Forall₂ R xs ys) : ∀ b ∈ ys, p b := by
  induction paired with
  | nil => intro b member; exact absurd member not_mem_nil
  | @cons a b as bs first rest ih =>
    intro c member
    rcases mem_cons.mp member with rfl|member
    · exact here a mem_cons_self _ first
    · exact ih (fun a member => here a (mem_cons_of_mem _ member)) c member

variable {age : α → Int}

theorem ageOnce {l : List α} (distinct : (l.map age).Nodup) {a b : α} (ha : a ∈ l) (hb : b ∈ l) (same : age a = age b) : a = b :=
  inj_on_of_nodup_map distinct ha hb same

theorem sortedOnce {l l' : List α} (distinct : (l.map age).Nodup) (perm : l.Perm l')
    (sorted : l.Pairwise (fun a b => age a ≤ age b)) (sorted' : l'.Pairwise (fun a b => age a ≤ age b)) : l = l' :=
  Perm.eq_of_pairwise (fun _ _ ha hb ab ba => ageOnce distinct ha (perm.mem_iff.mpr hb) (le_antisymm ab ba)) sorted sorted' perm

theorem pairwise {S : α → α → Prop} {T : β → β → Prop} (same : ∀ a b a' b', R a b → R a' b' → T b b' → S a a')
    (paired : Forall₂ R xs ys) (sorted : ys.Pairwise T) : xs.Pairwise S := by
  induction paired with
  | nil => exact .nil
  | @cons a b as bs first rest ih =>
    obtain ⟨here,later⟩ := pairwise_cons.mp sorted
    refine pairwise_cons.mpr ⟨?_,ih later⟩
    exact forget (fun b' member _ held => same a b _ b' first held (here b' member)) rest.flip

theorem arranged {age' : β → Int} (same : ∀ a b, R a b → age a = age' b) (paired : Forall₂ R xs ys)
    (distinct : (xs.map age).Nodup) {arranged : List β} (perm : arranged.Perm ys)
    (sorted : arranged.Pairwise (fun a b => age' a ≤ age' b)) :
    Forall₂ R (xs.insertionSort (fun a b => age a ≤ age b)) arranged := by
  obtain ⟨xs',perm',paired'⟩ : ∃ xs', xs'.Perm xs ∧ Forall₂ R xs' arranged := by
    obtain ⟨ys',flipped,permuted⟩ := perm_comp_forall₂ perm paired.flip
    exact ⟨ys',permuted,flipped.flip⟩
  have sorted' : xs'.Pairwise (fun a b => age a ≤ age b) :=
    pairwise (fun _ _ _ _ first second le => by rw [same _ _ first,same _ _ second]; exact le) paired' sorted
  have once : xs' = xs.insertionSort (fun a b => age a ≤ age b) :=
    sortedOnce ((perm'.map age).nodup_iff.mpr distinct) (perm'.trans (perm_insertionSort _ xs).symm) sorted'
      (haveI : IsTrans α (fun a b => age a ≤ age b) := ⟨fun _ _ _ => le_trans⟩
       haveI : Std.Total (fun a b : α => age a ≤ age b) := ⟨fun _ _ => le_total _ _⟩
       pairwise_insertionSort _ xs)
  exact once ▸ paired'

end Paired
