import Mathlib.Algebra.Group.Nat.Defs
import Mathlib.Data.List.Basic
import Mathlib.Data.List.Nodup
import Mathlib.Data.List.Lookmap

/-! Insertion-ordered string-keyed records, as a list of entries in enumeration
order. Array-index keys enumerate first and ascending, all others in order of
first insertion; overwriting an entry keeps its position. -/
namespace Keyed

abbrev Record (α : Type) := List (String × α)

variable {α : Type}

def keys (o : Record α) : List String := o.map Prod.fst

def get (o : Record α) (k : String) : Option α := o.lookup k

def has (o : Record α) (k : String) : Bool := (get o k).isSome

def digits : List Char → Nat → Option Nat
  | [],n => some n
  | c::cs,n => if c.isDigit then digits cs (10*n + (c.toNat - '0'.toNat)) else none

/- Canonical numerals below 2^32-1 are array indices; "01" and "" are not. -/
def index (k : String) : Option Nat :=
  match k.toList with
  | [] => none
  | ['0'] => some 0
  | '0'::_ => none
  | cs => (digits cs 0).filter (· < 2^32 - 1)

def before (k other : String) : Bool :=
  match index k, index other with
  | some a, some b => a < b
  | some _, none => true
  | none, _ => false

def insert (k : String) (v : α) : Record α → Record α
  | [] => [(k,v)]
  | e::rest => if before k e.1 then (k,v)::e::rest else e::insert k v rest

def replace (k : String) (v : α) : Record α → Record α
  | [] => []
  | e::rest => if k = e.1 then (k,v)::rest else e::replace k v rest

def set (o : Record α) (k : String) (v : α) : Record α :=
  if has o k then replace k v o else insert k v o

@[simp] theorem getNil (k : String) : get ([] : Record α) k = none := rfl

theorem getCons (e : String × α) (o : Record α) (k : String) :
    get (e::o) k = if k = e.1 then some e.2 else get o k := by
  obtain ⟨key,value⟩ := e
  simp only [get,List.lookup_cons]
  by_cases h : k = key
  · simp [h]
  · simp [h,beq_eq_false_iff_ne.mpr h]

@[simp] theorem getSingle (k k' : String) (v : α) :
    get [(k',v)] k = if k = k' then some v else none := by
  simp [getCons]

theorem getSome {o : Record α} {k v} (h : get o k = some v) : (k,v) ∈ o := by
  induction o with
  | nil => simp at h
  | cons e rest ih =>
    rw [getCons] at h
    split at h
    · rename_i same
      cases Option.some.inj h
      rw [same]
      exact List.mem_cons_self
    · exact List.mem_cons_of_mem _ (ih h)

theorem getNone {o : Record α} {k} : get o k = none ↔ k ∉ keys o := by
  induction o with
  | nil => simp [keys]
  | cons e rest ih =>
    rw [getCons]
    simp only [keys,List.map_cons,List.mem_cons] at ih ⊢
    split
    · rename_i same; simp [same]
    · rename_i other; simp [other,ih]

theorem hasKey {o : Record α} {k} : has o k = true ↔ k ∈ keys o := by
  have h : get o k = none ↔ k ∉ keys o := getNone
  cases hg : get o k with
  | none => simp [has,hg,h.mp hg]
  | some v =>
    refine iff_of_true (by simp [has,hg]) ?_
    by_contra absent
    rw [h.mpr absent] at hg
    contradiction

theorem getIsSome {o : Record α} {k} : (get o k).isSome = true ↔ k ∈ keys o := hasKey

theorem getOfMem {o : Record α} (unique : (keys o).Nodup) {k v} (h : (k,v) ∈ o) :
    get o k = some v := by
  induction o with
  | nil => simp at h
  | cons e rest ih =>
    simp only [keys,List.map_cons,List.nodup_cons] at unique
    rw [getCons]
    rcases List.mem_cons.mp h with same | inside
    · subst e; simp
    · have other : k ≠ e.1 := by
        rintro rfl
        exact unique.1 (List.mem_map.mpr ⟨(e.1,v),inside,rfl⟩)
      rw [if_neg other]
      exact ih unique.2 inside

theorem getFilter (o : Record α) (k k' : String) :
    get (o.filter (fun e => e.1 != k)) k' = if k' = k then none else get o k' := by
  induction o with
  | nil => simp
  | cons e rest ih =>
    by_cases here : e.1 = k
    · rw [List.filter_cons_of_neg (by simp [here]),ih,getCons]
      split
      · rfl
      · rename_i other
        rw [if_neg (by rw [here]; exact other)]
    · rw [List.filter_cons_of_pos (by simp [here]),getCons,getCons,ih]
      split
      · rename_i same
        rw [if_neg (by rw [same]; exact here)]
      · rfl

theorem insertPerm (k : String) (v : α) (o : Record α) : (insert k v o).Perm ((k,v)::o) := by
  induction o with
  | nil => exact .refl _
  | cons e rest ih =>
    simp only [insert]
    split
    · exact .refl _
    · exact (ih.cons e).trans (.swap _ _ _)

theorem replaceKeys (k : String) (v : α) (o : Record α) : keys (replace k v o) = keys o := by
  induction o with
  | nil => rfl
  | cons e rest ih =>
    simp only [replace]
    split
    · rename_i same; simp [keys,same]
    · simpa [keys] using ih

theorem getReplace {o : Record α} {k} (v : α) (present : k ∈ keys o) (k' : String) :
    get (replace k v o) k' = if k' = k then some v else get o k' := by
  induction o with
  | nil => simp [keys] at present
  | cons e rest ih =>
    simp only [replace]
    split
    · rename_i same
      rw [getCons,getCons]
      split <;> simp_all
    · rename_i other
      have inside : k ∈ keys rest := by simpa [keys,other] using present
      rw [getCons,getCons,ih inside]
      split
      · rename_i here
        have : k' ≠ k := by rintro rfl; exact other here
        simp [this]
      · rfl

theorem getInsert {o : Record α} {k} (v : α) (absent : k ∉ keys o) (k' : String) :
    get (insert k v o) k' = if k' = k then some v else get o k' := by
  induction o with
  | nil => simp [insert]
  | cons e rest ih =>
    have other : k ≠ e.1 ∧ k ∉ keys rest := by simpa [keys] using absent
    simp only [insert]
    split
    · rw [getCons]
    · rw [getCons,getCons,ih other.2]
      split
      · rename_i here
        have : k' ≠ k := by rintro rfl; exact other.1 here
        simp [this]
      · rfl

@[simp] theorem getSet (o : Record α) (k : String) (v : α) (k' : String) :
    get (set o k v) k' = if k' = k then some v else get o k' := by
  unfold set
  split
  · rename_i h; exact getReplace v (hasKey.mp h) k'
  · rename_i h; exact getInsert v (fun mem => h (hasKey.mpr mem)) k'

theorem keysSet (o : Record α) (k : String) (v : α) (k' : String) :
    k' ∈ keys (set o k v) ↔ k' = k ∨ k' ∈ keys o := by
  rw [← getIsSome,← getIsSome,getSet]
  split
  · rename_i same; simp [same]
  · rename_i other; simp [other]

theorem setNodup {o : Record α} (unique : (keys o).Nodup) (k : String) (v : α) :
    (keys (set o k v)).Nodup := by
  unfold set
  split
  · rwa [replaceKeys]
  · rename_i h
    have perm : (keys (insert k v o)).Perm (k::keys o) := (insertPerm k v o).map Prod.fst
    rw [perm.nodup_iff,List.nodup_cons]
    exact ⟨fun mem => h (hasKey.mpr mem),unique⟩

theorem memReplace {o : Record α} {k v e} (mem : e ∈ replace k v o) : e = (k,v) ∨ e ∈ o := by
  induction o with
  | nil => contradiction
  | cons head rest ih =>
    rw [replace] at mem
    split at mem
    · exact (List.mem_cons.mp mem).imp_right (List.mem_cons_of_mem _)
    · rcases List.mem_cons.mp mem with here | there
      · exact .inr (here ▸ List.mem_cons_self)
      · exact (ih there).imp_right (List.mem_cons_of_mem _)

theorem memSet {o : Record α} {k v e} (mem : e ∈ set o k v) : e = (k,v) ∨ e ∈ o := by
  unfold set at mem
  split at mem
  · exact memReplace mem
  · exact List.mem_cons.mp ((insertPerm k v o).mem_iff.mp mem)

/-- Setting a key of a map that enumerates in the order of first insertion. -/
def put (k : String) (v : α) : Record α → Record α
  | [] => [(k,v)]
  | e::rest => if k = e.1 then (k,v)::rest else e::put k v rest

@[simp] theorem getPut (o : Record α) (k : String) (v : α) (k' : String) :
    get (put k v o) k' = if k' = k then some v else get o k' := by
  induction o with
  | nil => simp [put]
  | cons e rest ih =>
    rw [put]
    split
    · rename_i same
      rw [getCons,getCons,← same]
      split <;> rfl
    · rename_i other
      rw [getCons,getCons,ih]
      split
      · rename_i here
        rw [if_neg (fun same : k' = k => other (same.symm.trans here))]
      · rfl

theorem memPut {o : Record α} {k v e} (mem : e ∈ put k v o) : e = (k,v) ∨ e ∈ o := by
  induction o with
  | nil => exact .inl (by simpa [put] using mem)
  | cons head rest ih =>
    rw [put] at mem
    split at mem
    · rcases List.mem_cons.mp mem with here | there
      · exact .inl here
      · exact .inr (List.mem_cons_of_mem _ there)
    · rcases List.mem_cons.mp mem with here | there
      · exact .inr (here ▸ List.mem_cons_self)
      · exact (ih there).imp_right (List.mem_cons_of_mem _)

end Keyed
