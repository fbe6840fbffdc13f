import Dfsm.Lib.Chains
import Dfsm.Lib.Keyed
import Mathlib.Data.List.Perm.Basic
import Mathlib.Data.List.Sort

/-! Records that list the same keys in different orders, and what of a list depends on
the order it is in: blocks laid end to end, first visits, the first of the highest rank. -/
namespace Keyed

variable {α β γ : Type}

/-- The same keys, each once, in whatever order. -/
structure Relisted (o : Record α) (p : Record β) : Prop where
  unique : (keys o).Nodup
  perm : (keys o).Perm (keys p)

section
variable {o : Record α} {p : Record β} (relisted : Relisted o p)
include relisted

theorem relistedUnique : (keys p).Nodup := relisted.perm.nodup_iff.mp relisted.unique

theorem relistedSymm : Relisted p o := ⟨relistedUnique relisted,relisted.perm.symm⟩

theorem relistedGet {k v} (got : get o k = some v) : ∃ w, get p k = some w := by
  have mem : k ∈ keys o := getIsSome.mp (by simp [got])
  exact Option.isSome_iff_exists.mp (getIsSome.mpr (relisted.perm.mem_iff.mp mem))

theorem relistedNone {k} : get o k = none ↔ get p k = none := by
  rw [getNone,getNone,relisted.perm.mem_iff]

theorem relistedSet (k : String) (v : α) (w : β) : Relisted (set o k v) (set p k w) := by
  have left := setNodup relisted.unique k v
  have right := setNodup (relistedUnique relisted) k w
  refine ⟨left,(List.perm_ext_iff_of_nodup left right).mpr (fun j => ?_)⟩
  rw [keysSet,keysSet,relisted.perm.mem_iff]

end

theorem flatKeys {o : Record α} (unique : (keys o).Nodup) (f : String × α → List γ) :
    o.flatMap f = (keys o).flatMap (fun k => ((get o k).map (fun v => f (k,v))).getD []) := by
  rw [keys,List.flatMap_map]
  refine List.flatMap_congr (fun e mem => ?_)
  rw [getOfMem unique (show (e.1,e.2) ∈ o from mem)]
  rfl

theorem relistedFlat {o : Record α} {p : Record β} (relisted : Relisted o p) {f : String × α → List γ} {g : String × β → List γ}
    (each : ∀ k v w, get o k = some v → get p k = some w → (f (k,v)).Perm (g (k,w))) : (o.flatMap f).Perm (p.flatMap g) := by
  rw [flatKeys relisted.unique,flatKeys (relistedUnique relisted)]
  refine relisted.perm.flatMap (fun k mem => ?_)
  obtain ⟨v,got⟩ := Option.isSome_iff_exists.mp (getIsSome.mpr mem)
  obtain ⟨w,got'⟩ := relistedGet relisted got
  rw [got,got']
  exact each k v w got got'

end Keyed

namespace Chains

variable {α β : Type}

theorem upsNodup (c : List α) : (ups c).Nodup := by
  induction c using List.reverseRecOn with
  | nil => simp [ups]
  | append_singleton c k ih =>
    rw [upsSnoc,List.nodup_cons]
    refine ⟨fun mem => ?_,ih⟩
    have short := (memUps.mp mem).2.length_le
    rw [List.length_append,List.length_singleton] at short
    omega

theorem blocksOrder {block : α → List β} {l l' : List α} (some : ∀ a ∈ l ++ l', block a ≠ [])
    (apart : ∀ a ∈ l, ∀ a' ∈ l', ∀ b ∈ block a, b ∈ block a' → a = a') (same : l.flatMap block = l'.flatMap block) : l = l' := by
  induction l generalizing l' with
  | nil =>
    cases l' with
    | nil => rfl
    | cons a' rest' => exact absurd (List.flatMap_eq_nil_iff.mp same.symm a' List.mem_cons_self) (some a' (by simp))
  | cons a rest ih =>
    cases l' with
    | nil => exact absurd (List.flatMap_eq_nil_iff.mp same a List.mem_cons_self) (some a (by simp))
    | cons a' rest' =>
      rw [List.flatMap_cons,List.flatMap_cons] at same
      obtain ⟨b,bs,here⟩ := List.exists_cons_of_ne_nil (some a (by simp))
      obtain ⟨b',bs',there⟩ := List.exists_cons_of_ne_nil (some a' (by simp))
      have first : b = b' := by
        rw [here,there] at same
        exact (List.cons.inj same).1
      obtain rfl : a = a' := apart a List.mem_cons_self a' List.mem_cons_self b (by simp [here]) (by simp [there,first])
      refine congrArg _ (ih (fun c mem => some c ?_) (fun c mem c' mem' => ?_) (List.append_cancel_left same))
      · rcases List.mem_append.mp mem with left | right
        · exact List.mem_append_left _ (List.mem_cons_of_mem _ left)
        · exact List.mem_append_right _ (List.mem_cons_of_mem _ right)
      · exact apart c (List.mem_cons_of_mem _ mem) c' (List.mem_cons_of_mem _ mem')

section
variable [BEq α] [LawfulBEq α]

theorem eraseDupsFilter (p : α → Bool) (l : List α) : (l.filter p).eraseDups = l.eraseDups.filter p := by
  induction h : l.length using Nat.strongRecOn generalizing l with
  | ind n ih =>
    cases l with
    | nil => simp
    | cons a rest =>
      have shorter := List.length_filter_le (fun b => !b == a) rest
      have below := ih _ (by rw [← h,List.length_cons]; omega) (rest.filter (fun b => !b == a)) rfl
      rw [List.eraseDups_cons]
      cases keep : p a with
      | true =>
        rw [List.filter_cons_of_pos keep,List.filter_cons_of_pos keep,List.eraseDups_cons,← below,List.filter_filter,
          List.filter_filter]
        simp only [Bool.and_comm]
      | false =>
        rw [List.filter_cons_of_neg (by simp [keep]),List.filter_cons_of_neg (by simp [keep]),← below,List.filter_filter]
        refine congrArg _ (List.filter_congr (fun b _ => ?_))
        cases same : b == a with
        | false => simp
        | true => rw [eq_of_beq same,keep]; rfl

theorem eraseDupsOnce {l : List α} (once : l.Nodup) : l.eraseDups = l := by
  induction l with
  | nil => rfl
  | cons a rest ih =>
    obtain ⟨fresh,once⟩ := List.nodup_cons.mp once
    have stays : rest.filter (fun b => !b == a) = rest := by
      refine List.filter_eq_self.mpr (fun b mem => ?_)
      have other : b ≠ a := by rintro rfl; exact fresh mem
      simpa using other
    rw [List.eraseDups_cons,stays,ih once]

end

/-- What answers and ranks with everything that answers. -/
def leading (r : α → α → Prop) [DecidableRel r] (f : α → Option β) (l : List α) : List α :=
  l.filter (fun a => (f a).isSome && l.all (fun b => (f b).isNone || r a b))

theorem firstLeading {r : α → α → Prop} [DecidableRel r] [Std.Total r] [IsTrans α r] (f : α → Option β) {l : List α}
    (once : l.Nodup) : (l.insertionSort r).findSome? f = (leading r f l).head?.bind f := by
  have perm := List.perm_insertionSort r l
  have answers {a} (mem : a ∈ leading r f l) : (f a).isSome = true ∧ ∀ b ∈ l, (f b).isSome = true → r a b := by
    have picked := (List.mem_filter.mp mem).2
    rw [Bool.and_eq_true,List.all_eq_true] at picked
    refine ⟨picked.1,fun b inside has => ?_⟩
    have ranked := picked.2 b inside
    rw [Bool.or_eq_true,decide_eq_true_eq] at ranked
    refine ranked.resolve_left (fun none => ?_)
    simp [Option.isNone_iff_eq_none.mp none] at has
  cases first : (l.insertionSort r).findSome? f with
  | none =>
    have quiet := List.findSome?_eq_none_iff.mp first
    cases top : leading r f l with
    | nil => rfl
    | cons a rest =>
      have mem : a ∈ leading r f l := by rw [top]; exact List.mem_cons_self
      exact (quiet a (perm.mem_iff.mpr (List.mem_filter.mp mem).1)).symm
  | some found =>
    obtain ⟨front,a,back,order,fires,quiet⟩ := List.findSome?_eq_some_iff.mp first
    have sorted := List.pairwise_insertionSort r l
    have single := perm.nodup_iff.mpr once
    have inside : a ∈ l := perm.mem_iff.mp (by rw [order]; simp)
    have top : a ∈ leading r f l := by
      refine List.mem_filter.mpr ⟨inside,?_⟩
      rw [Bool.and_eq_true,List.all_eq_true]
      refine ⟨by rw [fires]; rfl,fun b mem => ?_⟩
      rw [Bool.or_eq_true,decide_eq_true_eq]
      have placed : b ∈ front ++ a::back := by rw [← order]; exact perm.mem_iff.mpr mem
      rcases List.mem_append.mp placed with early | late
      · exact .inl (by rw [quiet b early]; rfl)
      · rcases List.mem_cons.mp late with rfl | later
        · exact .inr ((Std.Total.total b b).elim id id)
        · rw [order] at sorted
          exact .inr ((List.pairwise_cons.mp (List.pairwise_append.mp sorted).2.1).1 b later)
    -- those of the highest rank keep their order, and none of them stands before the one found
    have kept : (leading r f l).Sublist (l.insertionSort r) := by
      refine List.sublist_insertionSort ?_ List.filter_sublist
      refine List.pairwise_of_forall_mem_list (fun b mem c mem' => ?_)
      exact (answers mem).2 c (List.mem_filter.mp mem').1 (answers mem').1
    cases listed : leading r f l with
    | nil => rw [listed] at top; contradiction
    | cons b rest =>
      have fires' : (f b).isSome = true := (answers (by rw [listed]; exact List.mem_cons_self)).1
      rw [listed,order] at kept
      rw [List.head?_cons,Option.bind_some]
      obtain ⟨l₁,l₂,same,left,right⟩ := List.sublist_append_iff.mp kept
      have none : l₁ = [] := by
        cases l₁ with
        | nil => rfl
        | cons c l₁ =>
          obtain ⟨rfl,_⟩ := List.cons.inj same
          rw [quiet b (left.subset List.mem_cons_self)] at fires'
          contradiction
      subst none
      rw [List.nil_append] at same
      subst same
      rcases List.sublist_cons_iff.mp right with deeper | ⟨r',head,_⟩
      · have again := deeper.subset (listed ▸ top)
        rw [order] at single
        exact absurd again (List.nodup_cons.mp (List.nodup_append.mp single).2.1).1
      · obtain ⟨rfl,_⟩ := List.cons.inj head
        exact fires.symm

end Chains
