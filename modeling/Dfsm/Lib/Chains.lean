import Mathlib.Data.List.Basic
import Mathlib.Data.List.Nodup
import Mathlib.Data.List.Infix
import Mathlib.Data.List.Induction

/-! Chains of steps from a root, compared by their common front. -/
namespace Chains

variable {α : Type}

/-- The two chains part after a common front. -/
def Parts (front : List α) (q ts : List α) : Prop :=
  ∃ j r k t, q = front ++ j::r ∧ ts = front ++ k::t ∧ j ≠ k

theorem compare (q ts : List α) :
    q <+: ts ∨ (∃ r, r ≠ [] ∧ q = ts ++ r) ∨ ∃ front, Parts front q ts := by
  induction q generalizing ts with
  | nil => exact .inl List.nil_prefix
  | cons j q ih =>
    cases ts with
    | nil => exact .inr (.inl ⟨j::q,by simp,rfl⟩)
    | cons k ts =>
      by_cases same : j = k
      · subst j
        rcases ih ts with pre | ⟨r,any,rfl⟩ | ⟨front,j,r,k',t,rfl,rfl,other⟩
        · exact .inl (List.cons_prefix_cons.mpr ⟨rfl,pre⟩)
        · exact .inr (.inl ⟨r,any,rfl⟩)
        · exact .inr (.inr ⟨k::front,j,r,k',t,rfl,rfl,other⟩)
      · exact .inr (.inr ⟨[],j,q,k,ts,rfl,rfl,same⟩)

theorem partsNoPrefix {front q ts : List α} (parts : Parts front q ts) : ¬q <+: ts := by
  obtain ⟨j,r,k,t,rfl,rfl,other⟩ := parts
  rw [List.prefix_append_right_inj,List.cons_prefix_cons]
  exact fun h => other h.1

theorem partsNoExtension {front q ts : List α} (parts : Parts front q ts) : ¬ts <+: q := by
  obtain ⟨j,r,k,t,rfl,rfl,other⟩ := parts
  rw [List.prefix_append_right_inj,List.cons_prefix_cons]
  exact fun h => other h.1.symm

theorem partsCons {a : α} {front q ts : List α} (parts : Parts front q ts) : Parts (a::front) (a::q) (a::ts) := by
  obtain ⟨j,r,k,t,rfl,rfl,other⟩ := parts
  exact ⟨j,r,k,t,rfl,rfl,other⟩

theorem partsBelow {front shared q ts : List α} (parts : Parts front q ts) (left : shared <+: q) (right : shared <+: ts) :
    shared.length ≤ front.length := by
  obtain ⟨j,r,k,t,rfl,rfl,other⟩ := parts
  by_contra longer
  have first : front ++ [j] <+: shared :=
    List.prefix_of_prefix_length_le (by simp) left (by simp; omega)
  have second : front ++ [k] <+: shared :=
    List.prefix_of_prefix_length_le (by simp) right (by simp; omega)
  have same := List.prefix_of_prefix_length_le first second (by simp)
  rw [List.prefix_append_right_inj,List.cons_prefix_cons] at same
  exact other same.1

theorem partsFront {front q ts : List α} (parts : Parts front q ts) : front <+: q ∧ front <+: ts := by
  obtain ⟨j,r,k,t,rfl,rfl,_⟩ := parts
  exact ⟨List.prefix_append _ _,List.prefix_append _ _⟩

theorem partsUnique {front front' q ts : List α} (parts : Parts front q ts) (parts' : Parts front' q ts) :
    front = front' := by
  have first := partsFront parts
  have second := partsFront parts'
  have short := partsBelow parts' first.1 first.2
  have long := partsBelow parts second.1 second.2
  exact (List.prefix_of_prefix_length_le first.1 second.1 short).eq_of_length (Nat.le_antisymm short long)

/-- Nonempty prefixes, the longest first. -/
def ups (c : List α) : List (List α) := (List.range c.length).reverse.map (fun i => c.take (i+1))

theorem memUps {c q : List α} : q ∈ ups c ↔ q ≠ [] ∧ q <+: c := by
  simp only [ups,List.mem_map,List.mem_reverse,List.mem_range]
  constructor
  · rintro ⟨i,lt,rfl⟩
    exact ⟨by cases c <;> simp at lt ⊢,List.take_prefix _ _⟩
  · rintro ⟨any,pre⟩
    have len := pre.length_le
    have pos := List.length_pos_iff.mpr any
    refine ⟨q.length - 1,by omega,?_⟩
    rw [show q.length - 1 + 1 = q.length by omega]
    exact (List.prefix_iff_eq_take.mp pre).symm

theorem upsSnoc (c : List α) (k : α) : ups (c ++ [k]) = (c ++ [k])::ups c := by
  rw [ups,ups,List.length_append,List.length_singleton,List.range_succ,List.reverse_append]
  simp only [List.reverse_singleton,List.singleton_append,List.map_cons]
  congr 1
  · rw [List.take_of_length_le (by simp)]
  · apply List.map_congr_left
    intro i mem
    rw [List.mem_reverse,List.mem_range] at mem
    rw [List.take_append_of_le_length (by omega)]

theorem memTakeWhileUps {β : Type} (f : List α → β) (inside : β → Bool) {point c : List α}
    (holds : ∀ q, q ≠ [] → q <+: c → (inside (f q) = true ↔ point <+: q)) (b : β) :
    b ∈ ((ups c).map f).takeWhile inside ↔ ∃ q, q ≠ [] ∧ q <+: c ∧ point <+: q ∧ f q = b := by
  induction c using List.reverseRecOn with
  | nil => simp [ups,List.prefix_nil]
  | append_singleton c k ih =>
    have below := ih (fun q any pre => holds q any (pre.trans (List.prefix_append c [k])))
    have here := holds (c ++ [k]) (by simp) (List.prefix_refl _)
    rw [upsSnoc,List.map_cons,List.takeWhile_cons]
    split
    · rename_i goes
      rw [List.mem_cons,below]
      constructor
      · rintro (rfl | ⟨q,any,pre,above,rfl⟩)
        · exact ⟨_,by simp,List.prefix_refl _,here.mp goes,rfl⟩
        · exact ⟨q,any,pre.trans (List.prefix_append c [k]),above,rfl⟩
      · rintro ⟨q,any,pre,above,rfl⟩
        rcases List.prefix_concat_iff.mp pre with rfl | inner
        · exact .inl rfl
        · exact .inr ⟨q,any,inner,above,rfl⟩
    · rename_i stops
      refine iff_of_false (by simp) ?_
      rintro ⟨q,_,pre,above,_⟩
      exact stops (here.mpr (above.trans pre))

theorem eraseDupsNodup {β : Type} [BEq β] [LawfulBEq β] (l : List β) : l.eraseDups.Nodup := by
  induction h : l.length using Nat.strongRecOn generalizing l with
  | ind n ih =>
    cases l with
    | nil => simp
    | cons a rest =>
      rw [List.eraseDups_cons,List.nodup_cons]
      have shorter := List.length_filter_le (fun b => !b == a) rest
      refine ⟨by simp,ih _ ?_ _ rfl⟩
      rw [← h,List.length_cons]
      omega

end Chains
