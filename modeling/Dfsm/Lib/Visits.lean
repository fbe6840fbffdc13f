import Dfsm.Lib.Chains

/-! The order in which a walk visits the chains of a tree: leaf by leaf, each leaf's
chains from the longest up, every chain at its first visit only. -/
namespace Chains

variable {α : Type}

/-- The first stands somewhere before the second. -/
def Before (l : List α) (x y : α) : Prop := [x,y].Sublist l

theorem beforeOnce {l : List α} {x y : α} (once : l.Nodup) (before : Before l x y) : ¬Before l y x := by
  unfold Before at before ⊢
  induction l with
  | nil => simp at before
  | cons a rest ih =>
    obtain ⟨fresh,once⟩ := List.nodup_cons.mp once
    intro after
    rcases List.sublist_cons_iff.mp before with deeper | ⟨r,head,tail⟩
    · rcases List.sublist_cons_iff.mp after with deeper' | ⟨r,head,tail⟩
      · exact ih once deeper deeper'
      · obtain ⟨rfl,rfl⟩ := List.cons.inj head
        exact fresh (deeper.subset (by simp))
    · obtain ⟨rfl,rfl⟩ := List.cons.inj head
      rcases List.sublist_cons_iff.mp after with deeper' | ⟨r,head,_⟩
      · exact fresh (deeper'.subset (by simp))
      · obtain ⟨rfl,_⟩ := List.cons.inj head
        exact fresh (tail.subset (by simp))

theorem beforeEither {l : List α} {x y : α} (memX : x ∈ l) (memY : y ∈ l) (apart : x ≠ y) : Before l x y ∨ Before l y x := by
  unfold Before
  induction l with
  | nil => contradiction
  | cons a rest ih =>
    rcases List.mem_cons.mp memX with rfl | inX
    · rcases List.mem_cons.mp memY with same | inY
      · exact absurd same.symm apart
      · exact .inl ((List.singleton_sublist.mpr inY).cons_cons _)
    · rcases List.mem_cons.mp memY with rfl | inY
      · exact .inr ((List.singleton_sublist.mpr inX).cons_cons _)
      · exact (ih inX inY).imp (·.cons _) (·.cons _)

theorem beforeAppend {l : List α} {x y : α} {front back : List α} (split : l = front ++ x::back) (after : y ∈ back) :
    Before l x y := by
  subst split
  exact ((List.singleton_sublist.mpr after).cons_cons x).trans (List.sublist_append_right _ _)

theorem beforeFirst {β : Type} [BEq β] [LawfulBEq β] {l : List β} {x y : β} {front back : List β}
    (split : l = front ++ x::back) (fresh : y ∉ front) (after : y ∈ back) (apart : x ≠ y) : Before l.eraseDups x y := by
  subst split
  rw [List.eraseDups_append,List.removeAll]
  have other : y ∈ ((x::back).filter (fun a => !front.elem a)) := by
    rw [List.mem_filter]
    exact ⟨List.mem_cons_of_mem _ after,by simpa using fresh⟩
  by_cases seen : x ∈ front
  · obtain ⟨pre,post,same⟩ := List.append_of_mem (List.mem_eraseDups.mpr seen)
    rw [same,List.append_assoc,List.cons_append]
    refine beforeAppend rfl (List.mem_append_right _ ?_)
    exact List.mem_eraseDups.mpr other
  · have kept : (x::back).filter (fun a => !front.elem a) = x::back.filter (fun a => !front.elem a) := by
      rw [List.filter_cons,if_pos]
      simpa using seen
    rw [kept,List.eraseDups_cons]
    refine beforeAppend rfl ?_
    rw [List.mem_eraseDups,List.mem_filter,List.mem_filter]
    exact ⟨⟨after,by simpa using fresh⟩,by simpa using Ne.symm apart⟩

theorem upsAppend (q s : List α) : ups (q ++ s) = (ups s).map (q ++ ·) ++ ups q := by
  induction s using List.reverseRecOn with
  | nil => simp [ups]
  | append_singleton s k ih =>
    rw [← List.append_assoc,upsSnoc,upsSnoc,ih,List.map_cons,List.append_assoc]
    rfl

theorem upsHead {q : List α} (any : q ≠ []) : ∃ rest, ups q = q::rest := by
  cases q using List.reverseRecOn with
  | nil => contradiction
  | append_singleton front k => exact ⟨_,upsSnoc front k⟩

section
variable [DecidableEq α]

/-- From each chain up to the point, where the point is on it at all. -/
def walks (point : List α) (cs : List (List α)) : List (List α) :=
  (cs.filter (fun c => point.isPrefixOf c)).flatMap (fun c => (ups c).takeWhile (fun q => point.isPrefixOf q))

variable {point q : List α}

theorem walkThrough (any : q ≠ []) (above : point <+: q) (s : List α) :
    ∃ rest, (ups (q ++ s)).takeWhile (fun q => point.isPrefixOf q) = (ups s).map (q ++ ·) ++ q::rest := by
  obtain ⟨rest,head⟩ := upsHead any
  refine ⟨rest.takeWhile (fun q => point.isPrefixOf q),?_⟩
  rw [upsAppend,List.takeWhile_append_of_pos,head,List.takeWhile_cons,if_pos]
  · exact List.isPrefixOf_iff_prefix.mpr above
  · intro a mem
    obtain ⟨r,_,rfl⟩ := List.mem_map.mp mem
    exact List.isPrefixOf_iff_prefix.mpr (above.trans (List.prefix_append _ _))

theorem walksUnder {cs : List (List α)} (walked : q ∈ walks point cs) : ∃ c ∈ cs, q <+: c := by
  rw [walks,List.mem_flatMap] at walked
  obtain ⟨c,mem,inside⟩ := walked
  exact ⟨c,(List.mem_filter.mp mem).1,(memUps.mp ((List.takeWhile_sublist _).subset inside)).2⟩

theorem memWalks {cs : List (List α)} (any : q ≠ []) (above : point <+: q) :
    q ∈ walks point cs ↔ ∃ c ∈ cs, q <+: c := by
  refine ⟨walksUnder,?_⟩
  rintro ⟨c,mem,s,rfl⟩
  rw [walks,List.mem_flatMap]
  refine ⟨q ++ s,List.mem_filter.mpr ⟨mem,?_⟩,?_⟩
  · exact List.isPrefixOf_iff_prefix.mpr (above.trans (List.prefix_append _ _))
  · obtain ⟨rest,same⟩ := walkThrough any above s
    rw [same]
    simp

theorem walksSplit {pre post : List (List α)} {s : List α} (any : q ≠ []) (above : point <+: q) :
    ∃ rest, walks point (pre ++ (q ++ s)::post) =
      walks point pre ++ (ups s).map (q ++ ·) ++ q::(rest ++ walks point post) := by
  obtain ⟨rest,same⟩ := walkThrough any above s
  refine ⟨rest,?_⟩
  have inside : point.isPrefixOf (q ++ s) = true := List.isPrefixOf_iff_prefix.mpr (above.trans (List.prefix_append _ _))
  simp only [walks,List.filter_append,List.filter_cons,inside,if_true,List.flatMap_append,List.flatMap_cons,same]
  simp

theorem walkedBelow {cs pre post : List (List α)} {s r : List α} (split : cs = pre ++ (q ++ s)::post)
    (first : ∀ d ∈ pre, ¬q <+: d) (any : q ≠ []) (above : point <+: q) (step : r ≠ []) (goes : r <+: s) :
    ∃ front back, walks point cs = front ++ (q ++ r)::back ∧ q ∉ front ∧ q ∈ back := by
  subst split
  obtain ⟨rest,same⟩ := @walksSplit _ _ point q pre post s any above
  obtain ⟨a,b,ups⟩ := List.append_of_mem (memUps.mpr ⟨step,goes⟩)
  refine ⟨walks point pre ++ a.map (q ++ ·),b.map (q ++ ·) ++ q::(rest ++ walks point post),?_,?_,by simp⟩
  · rw [same,ups]
    simp
  · rw [List.mem_append,memWalks any above]
    rintro (⟨d,mem,through⟩ | inside)
    · exact first d mem through
    · obtain ⟨t,mem,here⟩ := List.mem_map.mp inside
      have some_ := (memUps.mp (ups ▸ List.mem_append_left _ mem)).1
      exact some_ (by simpa using here)

theorem walkedAfter {cs pre post : List (List α)} {s r : List α} (split : cs = pre ++ (q ++ s)::post)
    (first : ∀ d ∈ pre, ¬q <+: d) (any : q ≠ []) (above : point <+: q) (step : r ≠ []) (other : ¬r <+: s)
    (later : ∃ d ∈ cs, q ++ r <+: d) :
    ∃ front back, walks point cs = front ++ q::back ∧ q ++ r ∉ front ∧ q ++ r ∈ back := by
  subst split
  obtain ⟨rest,same⟩ := @walksSplit _ _ point q pre post s any above
  have fresh : q ++ r ∉ walks point pre ++ (ups s).map (q ++ ·) := by
    rw [List.mem_append,memWalks (by simp [step]) (above.trans (List.prefix_append _ _))]
    rintro (⟨d,mem,through⟩ | inside)
    · exact first d mem ((List.prefix_append _ _).trans through)
    · obtain ⟨t,mem,here⟩ := List.mem_map.mp inside
      exact other (List.append_cancel_left here ▸ (memUps.mp mem).2)
  refine ⟨_,_,same,fresh,?_⟩
  have walked := (@memWalks _ _ point (q ++ r) _ (by simp [step]) (above.trans (List.prefix_append _ _))).mpr later
  rw [same,List.mem_append] at walked
  rcases walked with early | here
  · exact absurd early fresh
  · rcases List.mem_cons.mp here with here | inside
    · exact absurd (by simpa using here) step
    · exact inside

end

end Chains
