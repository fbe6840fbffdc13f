import Mathlib.Logic.Basic

/-! Steps that may fail, and that add items to what they are given. -/
namespace Gathering

section
variable {ε α : Type}

theorem bothPass {first second : Except ε Unit} :
    (first >>= fun _ => second) = .ok () ↔ first = .ok () ∧ second = .ok () := by
  cases first with
  | error e => simp [bind,Except.bind]
  | ok done => simp [bind,Except.bind]

theorem allPass {check : α → Except ε Unit} {items : List α} : items.forM check = .ok () ↔ ∀ item ∈ items, check item = .ok () := by
  induction items with
  | nil => exact iff_of_true rfl (by simp)
  | cons item items ih =>
    have split : (item::items).forM check = (check item >>= fun _ => items.forM check) := rfl
    rw [split,bothPass,ih,List.forall_mem_cons]

theorem anyPass {check : α → Except ε Unit} (item : Option α) :
    item.elim (.ok ()) check = .ok () ↔ ∀ given, item = some given → check given = .ok () := by
  cases item with
  | none => simp
  | some given => simp

end

variable {ε σ γ β : Type} (read : σ → γ) (add : γ → β → γ)

/-- Whether the step succeeds depends on nothing it is given, and where it does it adds the items. -/
structure Adds (step : σ → Except ε σ) (passes : Prop) (items : List β) : Prop where
  succeeds : ∀ s, (∃ t, step s = .ok t) ↔ passes
  result : ∀ s t, step s = .ok t → read t = items.foldl add (read s)

variable {read add} {step next : σ → Except ε σ} {passes more : Prop} {items others : List β}

theorem plain (items : List β) {act : σ → σ} (acts : ∀ s, read (act s) = items.foldl add (read s)) :
    Adds read add (fun s => (.ok (act s) : Except ε σ)) True items where
  succeeds s := iff_of_true ⟨act s,rfl⟩ trivial
  result s t done := by cases done; exact acts s

theorem Adds.relabel (adds : Adds read add step passes items) (same : passes ↔ more) (alike : items = others) :
    Adds read add step more others := by
  rw [← propext same,← alike]
  exact adds

theorem andThen (first : Adds read add step passes items) (second : Adds read add next more others) :
    Adds read add (fun s => step s >>= next) (passes ∧ more) (items ++ others) where
  succeeds s := by
    rw [← first.succeeds s]
    cases stepped : step s with
    | error e => simp [bind,Except.bind]
    | ok t =>
      have rest := second.succeeds t
      simpa [bind,Except.bind] using rest
  result s u done := by
    cases stepped : step s with
    | error e =>
      rw [stepped] at done
      cases done
    | ok t =>
      rw [stepped] at done
      rw [List.foldl_append,← first.result s t stepped]
      exact second.result t u done

theorem needing {α : Type} {needed : Except ε α} {value : α} {then_ : α → σ → Except ε σ}
    (known : ∀ a, needed = .ok a ↔ passes ∧ a = value) (rest : Adds read add (then_ value) more items) :
    Adds read add (fun s => needed >>= (then_ · s)) (passes ∧ more) items := by
  cases found : needed with
  | error e =>
    have refused : ¬passes := by
      intro pass
      have there := (known value).mpr ⟨pass,rfl⟩
      rw [found] at there
      cases there
    refine ⟨fun s => ?_,fun s t done => by cases done⟩
    exact iff_of_false (fun ⟨t,done⟩ => by cases done) (fun both => refused both.1)
  | ok a =>
    obtain ⟨pass,rfl⟩ := (known a).mp found
    refine ⟨fun s => ?_,rest.result⟩
    rw [and_iff_right pass]
    exact rest.succeeds s

theorem each {α : Type} {step : α → σ → Except ε σ} {passes : α → Prop} {items : α → List β} (over_ : List α)
    (one : ∀ a, Adds read add (step a) (passes a) (items a)) :
    Adds read add (fun s => over_.foldlM (fun s a => step a s) s) (∀ a ∈ over_, passes a) (over_.flatMap items) := by
  induction over_ with
  | nil =>
    refine ⟨fun s => iff_of_true ⟨s,rfl⟩ (by simp),fun s t done => ?_⟩
    cases done
    rfl
  | cons a rest ih =>
    have both := andThen (one a) ih
    simp only [List.foldlM_cons,List.forall_mem_cons,List.flatMap_cons]
    exact both

end Gathering
