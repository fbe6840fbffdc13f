import Mathlib.Data.List.Basic

/-! Settings in layers. A source of settings mentions a value, mentions that there is none,
or is silent; what holds is the latest mention, what was asked for is the latest value. -/
namespace Layers

variable {α β : Type}

def latest (read : α → Option β) (sources : List α) : Option β := sources.reverse.findSome? read

@[simp] theorem latestNil (read : α → Option β) : latest read [] = none := rfl

theorem latestCons (read : α → Option β) (source : α) (sources : List α) :
    latest read (source::sources) = (latest read sources).or (read source) := by
  simp [latest,List.findSome?_append]

theorem latestAppend (read : α → Option β) (front back : List α) :
    latest read (front ++ back) = (latest read back).or (latest read front) := by
  simp [latest,List.findSome?_append]

theorem latestMap {γ : Type} (read : α → Option β) (show_ : γ → α) (sources : List γ) :
    latest read (sources.map show_) = latest (read ∘ show_) sources := by
  induction sources with
  | nil => rfl
  | cons source sources ih => rw [List.map_cons,latestCons,latestCons,ih,Function.comp_apply]

theorem combined {read : α → Option β} {combine : α → α → α}
    (wins : ∀ a b, read (combine a b) = (read b).or (read a)) (first : α) (sources : List α) :
    read (sources.foldl combine first) = (latest read sources).or (read first) := by
  induction sources generalizing first with
  | nil => simp
  | cons source sources ih => rw [List.foldl_cons,ih,wins,latestCons,Option.or_assoc]

/-- The latest mention of a layer. -/
def settled (layer : List (Option (Option β))) : Option (Option β) := latest id layer

/-- The latest value a layer asks for. -/
def asked (layer : List (Option (Option β))) : Option β := latest Option.join layer

@[simp] theorem settledOne (mention : Option (Option β)) : settled [mention] = mention := by
  rw [settled,latestCons,latestNil,Option.none_or,id]

theorem settledAsked {layer : List (Option (Option β))} {value : β} (settles : settled layer = some (some value)) :
    asked layer = some value := by
  induction layer with
  | nil => simp [settled] at settles
  | cons mention layer ih =>
    simp only [settled,asked,latestCons,id] at settles ih ⊢
    cases later : latest id layer with
    | none =>
      have silent : latest Option.join layer = none := by
        simp only [latest,List.findSome?_eq_none_iff] at later ⊢
        intro other mem
        rw [show other = none from later other mem]
        rfl
      rw [later] at settles
      simp only [Option.none_or] at settles
      rw [silent,settles]
      rfl
    | some found =>
      rw [later] at settles
      rw [ih (later.trans settles)]
      rfl

/-- Layers from the highest down: the first that asks for a value settles on it, or the
settings left below it, and in the end the default, give the same. -/
def Kept (default : Option β) : List (List (Option (Option β))) → Prop
  | [] => True
  | layer::below => asked layer = none ∧ Kept default below ∨
      ∃ value, asked layer = some value ∧ (settled layer = some (some value) ∨
        (below.findSome? (fun layer => (settled layer).join)).or default = some value)

theorem keptIff (default : Option β) (layers : List (List (Option (Option β)))) :
    (layers.findSome? (fun layer => (settled layer).join)).or default = (layers.findSome? asked).or default ↔
      Kept default layers := by
  induction layers with
  | nil => simp [Kept]
  | cons layer below ih =>
    simp only [List.findSome?_cons,Kept]
    cases mention : settled layer with
    | none =>
      cases asks : asked layer with
      | none => simpa using ih
      | some value => simp
    | some found =>
      cases found with
      | none =>
        cases asks : asked layer with
        | none => simpa using ih
        | some value => simp
      | some value => simp [settledAsked mention]

/-! One layer speaks for a whole section: the highest one that marks it. -/

/-- What the highest layer that marks the section says, and else its own default. -/
def spoken (marks : α → Bool) (read : α → Option β) (own absent : β) (layers : List α) : β :=
  match layers.find? marks with
  | none => absent
  | some layer => (read layer).getD own

theorem spokenPairs (marks : α → Bool) (read : α → Option β) (own absent : β) (layers : List α) :
    spoken marks read own absent layers = spoken Prod.fst Prod.snd own absent (layers.map (fun layer => (marks layer,read layer))) := by
  have pairs : (Prod.fst ∘ fun layer => (marks layer,read layer)) = marks := rfl
  rw [spoken,spoken,List.find?_map,pairs]
  cases layers.find? marks <;> rfl

theorem spokenPassed {marks : α → Bool} {layer : α} (unmarked : marks layer = false) (read : α → Option β) (own absent : β)
    (front back : List α) : spoken marks read own absent (front ++ layer::back) = spoken marks read own absent (front ++ back) := by
  rw [spoken,spoken,List.find?_append,List.find?_append,List.find?_cons_of_neg (by simp [unmarked])]

/-- Layers from the highest down: what is set before the section is marked is what the layers
below say of it, and where the one that marks it is silent, its default is what is set below it. -/
def Heard (marks : α → Bool) (read : α → Option β) (own absent default : β) : List α → Prop
  | [] => absent = default
  | layer::below =>
    if marks layer then read layer = none → (below.findSome? read).getD default = own
    else match read layer with
      | none => Heard marks read own absent default below
      | some value => spoken marks read own absent below = value

theorem heardIff (marks : α → Bool) (read : α → Option β) (own absent default : β) (layers : List α) :
    spoken marks read own absent layers = (layers.findSome? read).getD default ↔ Heard marks read own absent default layers := by
  induction layers with
  | nil => exact Iff.rfl
  | cons layer below ih =>
    simp only [Heard,List.findSome?_cons]
    by_cases marked : marks layer = true
    · rw [spoken,List.find?_cons_of_pos marked,if_pos marked]
      change (read layer).getD own = _ ↔ _
      cases read layer with
      | none => exact ⟨fun same _ => same.symm,fun said => (said rfl).symm⟩
      | some value => simp
    · have passed : spoken marks read own absent (layer::below) = spoken marks read own absent below := by
        rw [spoken,spoken,List.find?_cons_of_neg marked]
      rw [passed,if_neg marked]
      cases read layer with
      | none => exact ih
      | some value => rfl

/-- The same where a layer may keep something else than it says. -/
def Told (marks : α → Bool) (kept tells : α → Option β) (own absent default : β) : List α → Prop
  | [] => absent = default
  | layer::below =>
    if marks layer then (kept layer).getD own = (tells layer).getD ((below.findSome? tells).getD default)
    else match tells layer with
      | none => Told marks kept tells own absent default below
      | some value => spoken marks kept own absent below = value

theorem toldIff (marks : α → Bool) (kept tells : α → Option β) (own absent default : β) (layers : List α) :
    spoken marks kept own absent layers = (layers.findSome? tells).getD default ↔
      Told marks kept tells own absent default layers := by
  induction layers with
  | nil => exact Iff.rfl
  | cons layer below ih =>
    simp only [Told,List.findSome?_cons]
    by_cases marked : marks layer = true
    · rw [spoken,List.find?_cons_of_pos marked,if_pos marked]
      cases tells layer <;> rfl
    · have passed : spoken marks kept own absent (layer::below) = spoken marks kept own absent below := by
        rw [spoken,spoken,List.find?_cons_of_neg marked]
      rw [passed,if_neg marked]
      cases tells layer with
      | none => exact ih
      | some value => rfl

end Layers
