import Mathlib.Data.List.Basic

/-! Dot-separated names. A name is split at every dot and kept as text, so that
keys which themselves contain dots are split like any other text. -/
namespace Dotted

def split (s : String) : List String := (s.toList.splitOn '.').map String.ofList

def parts (s : String) : List String := (split s).filter (fun p => p != "")

def join (ps : List String) : String := ".".intercalate ps

/-- `path.startsWith(prefix + ".")` -/
def under (top path : String) : Bool := (top ++ ".").toList.isPrefixOf path.toList

def Plain (k : String) : Prop := k ≠ "" ∧ '.' ∉ k.toList
instance (k) : Decidable (Plain k) := by unfold Plain; infer_instance

theorem splitNonempty (s : String) : split s ≠ [] := by
  simp [split,List.splitOn_ne_nil]

theorem splitPlain {k} (h : '.' ∉ k.toList) : split k = [k] := by
  rw [split,List.splitOn_eq_singleton h]
  simp

theorem splitAppend (p k : String) : split (p ++ "." ++ k) = split p ++ split k := by
  have text : (p ++ "." ++ k).toList = p.toList ++ '.' :: k.toList := by simp
  rw [split,text,List.splitOn_append_cons_self,List.map_append]
  rfl

theorem joinSplit (s : String) : join (split s) = s := by
  apply String.toList_inj.mp
  rw [join,split,String.toList_intercalate,List.map_map]
  have texts : List.map (String.toList ∘ String.ofList) (s.toList.splitOn '.') = s.toList.splitOn '.' := by
    simp [Function.comp_def]
  rw [texts]
  exact List.intercalate_splitOn '.'

theorem joinCons (k : String) {ps : List String} (h : ps ≠ []) : join (k::ps) = k ++ "." ++ join ps := by
  exact String.intercalate_cons_of_ne_nil h

theorem joinAppend {ps qs : List String} (hp : ps ≠ []) (hq : qs ≠ []) :
    join (ps ++ qs) = join ps ++ "." ++ join qs :=
  String.intercalate_append_of_ne_nil hp hq

theorem joinSnoc {ps : List String} (hp : ps ≠ []) (k : String) : join (ps ++ [k]) = join ps ++ "." ++ k :=
  joinAppend hp (by simp)

theorem splitJoin {ps : List String} (some : ps ≠ []) (plain : ∀ p ∈ ps, '.' ∉ p.toList) :
    split (join ps) = ps := by
  induction ps with
  | nil => contradiction
  | cons p rest ih =>
    have head := splitPlain (plain p List.mem_cons_self)
    cases rest with
    | nil => simpa [join] using head
    | cons q tail =>
      rw [joinCons p (by simp),splitAppend,head,
        ih (by simp) (fun x hx => plain x (List.mem_cons_of_mem _ hx))]
      rfl

theorem splitJoinPlain {ps : List String} (some : ps ≠ []) (plain : ∀ p ∈ ps, Plain p) :
    split (join ps) = ps := splitJoin some (fun p hp => (plain p hp).2)

theorem partsJoin {ps : List String} (plain : ∀ p ∈ ps, Plain p) : parts (join ps) = ps := by
  cases ps with
  | nil => decide
  | cons p rest =>
    rw [parts,splitJoinPlain (by simp) plain]
    exact List.filter_eq_self.mpr (fun q hq => by simp [(plain q hq).1])

theorem joinInj {ps qs : List String} (hp : ∀ p ∈ ps, Plain p) (hq : ∀ q ∈ qs, Plain q)
    (same : join ps = join qs) : ps = qs := by
  rw [← partsJoin hp,same,partsJoin hq]

theorem joinEmpty {ps : List String} (plain : ∀ p ∈ ps, Plain p) : join ps = "" ↔ ps = [] := by
  constructor
  · intro h; exact joinInj plain (List.forall_mem_nil _) h
  · rintro rfl; rfl

theorem splitOnNoDot (text : List Char) : ∀ cs ∈ text.splitOn '.', '.' ∉ cs := by
  intro cs hc
  induction text generalizing cs with
  | nil => simp at hc; simp [hc]
  | cons c rest ih =>
    rw [List.splitOn_cons_eq_if_modifyHead] at hc
    split at hc
    · rcases List.mem_cons.mp hc with same | inside
      · simp [same]
      · exact ih cs inside
    · rename_i other
      cases hs : rest.splitOn '.' with
      | nil => simp [hs] at hc
      | cons first tail =>
        rw [hs,List.modifyHead_cons,List.mem_cons] at hc
        rcases hc with rfl | inside
        · have fine := ih first (by rw [hs]; exact List.mem_cons_self)
          simp only [List.mem_cons,not_or]
          exact ⟨fun h => other (by simp [← h]),fine⟩
        · exact ih cs (by rw [hs]; exact List.mem_cons_of_mem _ inside)

theorem partsPlain (s : String) : ∀ p ∈ parts s, Plain p := by
  intro p mem
  obtain ⟨inside,nonempty⟩ := List.mem_filter.mp mem
  refine ⟨by simpa using nonempty,?_⟩
  intro dot
  obtain ⟨cs,hc,rfl⟩ := List.mem_map.mp inside
  rw [String.toList_ofList] at dot
  exact splitOnNoDot _ _ hc dot

theorem underIff (top path : String) :
    under top path = true ↔ ∃ tail, tail ≠ [] ∧ split path = split top ++ tail := by
  rw [under,List.isPrefixOf_iff_prefix]
  constructor
  · rintro ⟨rest,same⟩
    have text : path = top ++ "." ++ String.ofList rest := by
      apply String.toList_inj.mp
      simpa using same.symm
    exact ⟨split (String.ofList rest),splitNonempty _,by rw [text,splitAppend]⟩
  · rintro ⟨tail,nonempty,same⟩
    have text : path = top ++ "." ++ join tail := by
      rw [← joinSplit path,same,joinAppend (splitNonempty top) nonempty,joinSplit]
    rw [text]
    exact ⟨(join tail).toList,by simp⟩

theorem underJoin {ps qs : List String} (hp : ps ≠ []) (hq : qs ≠ [])
    (plainP : ∀ p ∈ ps, Plain p) (plainQ : ∀ q ∈ qs, Plain q) :
    under (join ps) (join qs) = true ↔ ∃ tail, tail ≠ [] ∧ qs = ps ++ tail := by
  rw [underIff,splitJoinPlain hp plainP,splitJoinPlain hq plainQ]

example : parts "a..b.c" = ["a","b","c"] := by decide

end Dotted
