import Mathlib.Data.List.Induction
import Mathlib.Data.List.Nodup

/-! Items filed under keys, where a later item takes the place of an earlier one of its key. -/
namespace Filed

variable {α κ : Type} [DecidableEq κ] (key : α → κ)

def file (items : List α) (item : α) : List α :=
  if items.any (key · = key item) then items.map (fun old => if key old = key item then item else old)
  else items ++ [item]

def filed (items : List α) : List α := items.foldl (file key) []

/-- The last item of a key. -/
def last (items : List α) (k : κ) : Option α := items.reverse.find? (key · = k)

theorem filedSnoc (items : List α) (item : α) : filed key (items ++ [item]) = file key (filed key items) item := by
  rw [filed,filed,List.foldl_append,List.foldl_cons,List.foldl_nil]

theorem lastSnoc (items : List α) (item : α) (k : κ) :
    last key (items ++ [item]) k = if key item = k then some item else last key items k := by
  simp only [last,List.reverse_append,List.reverse_singleton,List.singleton_append,List.find?_cons]
  by_cases same : key item = k
  · simp [same]
  · simp [same]

theorem lastMap {β : Type} (show_ : β → α) (items : List β) (k : κ) :
    last key (items.map show_) k = (last (fun item => key (show_ item)) items k).map show_ := by
  rw [last,last,← List.map_reverse,List.find?_map]
  rfl

variable {key}

theorem lastKey {items : List α} {k : κ} {item : α} (found : last key items k = some item) : key item = k := by
  simpa using List.find?_some found

theorem lastMem {items : List α} {k : κ} {item : α} (found : last key items k = some item) : item ∈ items :=
  List.mem_reverse.mp (List.mem_of_find?_eq_some found)

variable (key)

theorem lastOf {items : List α} {item : α} (mem : item ∈ items) : ∃ found, last key items (key item) = some found := by
  refine Option.isSome_iff_exists.mp (List.find?_isSome.mpr ⟨item,List.mem_reverse.mpr mem,?_⟩)
  exact decide_eq_true rfl

theorem memFile (items : List α) (item x : α) : x ∈ file key items item ↔ x = item ∨ x ∈ items ∧ key x ≠ key item := by
  unfold file
  split
  · rename_i taken
    obtain ⟨old,mem,same⟩ := List.any_eq_true.mp taken
    have same := of_decide_eq_true same
    rw [List.mem_map]
    constructor
    · rintro ⟨other,here,rfl⟩
      by_cases alike : key other = key item
      · exact .inl (if_pos alike)
      · exact .inr (by rw [if_neg alike]; exact ⟨here,alike⟩)
    · rintro (rfl | ⟨here,other⟩)
      · exact ⟨old,mem,if_pos same⟩
      · exact ⟨x,here,if_neg other⟩
  · rename_i free
    have apart {other} (here : other ∈ items) : key other ≠ key item :=
      fun same => free (List.any_eq_true.mpr ⟨other,here,decide_eq_true same⟩)
    rw [List.mem_append,List.mem_singleton]
    constructor
    · rintro (here | rfl)
      · exact .inr ⟨here,apart here⟩
      · exact .inl rfl
    · rintro (rfl | ⟨here,_⟩)
      · exact .inr rfl
      · exact .inl here

theorem memFiled (items : List α) (x : α) : x ∈ filed key items ↔ last key items (key x) = some x := by
  induction items using List.reverseRecOn with
  | nil => simp [filed,last]
  | append_singleton items item ih =>
    rw [filedSnoc,memFile,lastSnoc,ih]
    by_cases same : key item = key x
    · rw [if_pos same]
      constructor
      · rintro (rfl | ⟨_,other⟩)
        · rfl
        · exact absurd same.symm other
      · exact fun found => .inl (Option.some.inj found).symm
    · rw [if_neg same]
      constructor
      · rintro (rfl | ⟨found,_⟩)
        · exact absurd rfl same
        · exact found
      · exact fun found => .inr ⟨found,fun other => same other.symm⟩

theorem fileKeys (items : List α) (item : α) :
    (file key items item).map key = if key item ∈ items.map key then items.map key else items.map key ++ [key item] := by
  have taken : items.any (key · = key item) = true ↔ key item ∈ items.map key := by simp
  unfold file
  simp only [taken]
  split
  · rw [List.map_map]
    refine List.map_congr_left (fun old _ => ?_)
    by_cases same : key old = key item
    · simp [same]
    · simp [same]
  · rw [List.map_append,List.map_singleton]

theorem filedApart (items : List α) : ((filed key items).map key).Nodup := by
  induction items using List.reverseRecOn with
  | nil => exact List.nodup_nil
  | append_singleton items item ih =>
    rw [filedSnoc,fileKeys]
    split
    · exact ih
    · rename_i free
      exact ih.append (List.nodup_singleton _) (List.disjoint_singleton.mpr free)

end Filed
