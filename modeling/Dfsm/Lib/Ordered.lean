import Dfsm.Lib.Keyed

/-! Records built by assigning one entry after another: in enumeration order, the same again
when assigned once more, and value by value. -/
namespace Keyed

variable {α β : Type}

/-- No entry enumerates before one that is listed earlier. -/
def Ordered (o : Record α) : Prop := o.Pairwise (fun a b => before b.1 a.1 = false)

theorem beforePast {k e y : String} (first : before k e = true) (later : before y e = false) : before y k = false := by
  unfold before at *
  cases atK : index k with
  | none => cases index y <;> cases index e <;> simp_all
  | some i =>
    cases atY : index y with
    | none => rfl
    | some j =>
      cases atE : index e with
      | none => simp [atY,atE] at later
      | some n =>
        simp only [atK,atE,atY,decide_eq_true_eq,decide_eq_false_iff_not] at first later ⊢
        omega

theorem beforeSelf (k : String) : before k k = false := by
  unfold before
  cases index k <;> simp

theorem beforeBack {a b : String} (first : before a b = true) : before b a = false := beforePast first (beforeSelf b)

theorem insertOrdered {o : Record α} (ordered : Ordered o) (k : String) (v : α) : Ordered (insert k v o) := by
  induction o with
  | nil => exact List.pairwise_singleton _ _
  | cons e rest ih =>
    obtain ⟨head,tail⟩ := List.pairwise_cons.mp ordered
    rw [insert]
    split
    · rename_i first
      refine List.pairwise_cons.mpr ⟨fun other mem => ?_,ordered⟩
      rcases List.mem_cons.mp mem with rfl | mem
      · exact beforeBack first
      · exact beforePast first (head other mem)
    · rename_i later
      refine List.pairwise_cons.mpr ⟨fun other mem => ?_,ih tail⟩
      rcases List.mem_cons.mp ((insertPerm k v rest).mem_iff.mp mem) with rfl | mem
      · simpa using later
      · exact head other mem

theorem orderedKeys {o : Record α} {p : Record β} (same : keys o = keys p) (ordered : Ordered o) : Ordered p := by
  have onKeys {γ : Type} (r : Record γ) : Ordered r ↔ (keys r).Pairwise (fun a b => before b a = false) := by
    rw [keys,List.pairwise_map]
    rfl
  rw [onKeys] at *
  rwa [← same]

theorem setOrdered {o : Record α} (ordered : Ordered o) (k : String) (v : α) : Ordered (set o k v) := by
  unfold set
  split
  · exact orderedKeys (replaceKeys k v o).symm ordered
  · exact insertOrdered ordered k v

theorem assignedOrdered {start : Record α} (ordered : Ordered start) (entries : Record α) :
    Ordered (entries.foldl (fun o e => set o e.1 e.2) start) := by
  induction entries generalizing start with
  | nil => exact ordered
  | cons e rest ih => exact ih (setOrdered ordered e.1 e.2)

theorem insertLast {o : Record α} {k : String} (v : α) (last : ∀ e ∈ o, before k e.1 = false) : insert k v o = o ++ [(k,v)] := by
  induction o with
  | nil => rfl
  | cons e rest ih =>
    rw [insert,last e List.mem_cons_self,ih (fun other mem => last other (List.mem_cons_of_mem _ mem))]
    rfl

theorem assignedOnto {start entries : Record α} (ordered : Ordered (start ++ entries)) (unique : (keys (start ++ entries)).Nodup) :
    entries.foldl (fun o e => set o e.1 e.2) start = start ++ entries := by
  induction entries generalizing start with
  | nil => rw [List.append_nil]; rfl
  | cons e rest ih =>
    have absent : e.1 ∉ keys start := by
      intro present
      rw [keys,List.map_append] at unique
      exact (List.nodup_append.mp unique).2.2 e.1 present e.1 (by simp) rfl
    have last (other) (mem : other ∈ start) : before e.1 other.1 = false :=
      (List.pairwise_append.mp ordered).2.2 other mem e List.mem_cons_self
    have placed : set start e.1 e.2 = start ++ [e] := by
      rw [set,if_neg (fun has => absent (hasKey.mp has)),insertLast e.2 last]
    rw [List.foldl_cons,placed,ih]
    · simp
    · simpa using ordered
    · simpa using unique

theorem assignedAgain {o : Record α} (ordered : Ordered o) (unique : (keys o).Nodup) :
    o.foldl (fun o e => set o e.1 e.2) [] = o := @assignedOnto α [] o ordered unique

section
variable (f : String → α → β)

def mapValues (o : Record α) : Record β := o.map (fun e => (e.1,f e.1 e.2))

theorem mapValuesKeys (o : Record α) : keys (mapValues f o) = keys o := by
  rw [keys,mapValues,List.map_map]
  rfl

theorem mapValuesSet (o : Record α) (k : String) (v : α) : set (mapValues f o) k (f k v) = mapValues f (set o k v) := by
  have inserted : insert k (f k v) (mapValues f o) = mapValues f (insert k v o) := by
    induction o with
    | nil => rfl
    | cons e rest ih =>
      simp only [mapValues,List.map_cons,insert] at ih ⊢
      split
      · rfl
      · rw [ih]; rfl
  have replaced : replace k (f k v) (mapValues f o) = mapValues f (replace k v o) := by
    clear inserted
    induction o with
    | nil => rfl
    | cons e rest ih =>
      simp only [mapValues,List.map_cons,replace] at ih ⊢
      split
      · rfl
      · rw [ih]; rfl
  have same : has (mapValues f o) k = has o k := by
    rw [Bool.eq_iff_iff,hasKey,hasKey,mapValuesKeys]
  unfold set
  rw [same,inserted,replaced]
  split
  · rfl
  · rfl

theorem mapValuesAssigned (start entries : Record α) : (mapValues f entries).foldl (fun o e => set o e.1 e.2) (mapValues f start) =
    mapValues f (entries.foldl (fun o e => set o e.1 e.2) start) := by
  induction entries generalizing start with
  | nil => rfl
  | cons e rest ih =>
    have head : mapValues f (e::rest) = (e.1,f e.1 e.2)::mapValues f rest := rfl
    rw [head,List.foldl_cons,List.foldl_cons,mapValuesSet]
    exact ih _

end

end Keyed
