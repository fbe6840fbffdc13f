import Dfsm.Extension.Layout
import Mathlib.Tactic.Linarith
import Mathlib.Tactic.Positivity

/-! Siblings in their container: no two of them meet, and none sticks out. -/
namespace Dfsm.Extension.Layout
open Rects Rect

def MeasuredTree.rect (tree : MeasuredTree) : Rect ℚ := ⟨tree.relX,tree.relY,tree.width,tree.height⟩

def Placed.rect (p : Placed) : Rect ℚ := ⟨p.relX,p.relY,p.item.tree.width,p.item.tree.height⟩

theorem roundHalf {d : ℚ} (some_ : 0 ≤ d) : 0 ≤ round (d / 2) ∧ round (d / 2) ≤ d := by
  unfold round
  constructor
  · have : (0 : ℤ) ≤ ⌊d / 2 + 1/2⌋ := Int.floor_nonneg.mpr (by positivity)
    exact_mod_cast this
  · by_cases small : d < 1
    · have none_ : ⌊d / 2 + 1/2⌋ = 0 := Int.floor_eq_iff.mpr ⟨by push_cast; positivity,by push_cast; linarith⟩
      rw [none_]
      exact_mod_cast some_
    · have floor := Int.floor_le (d / 2 + 1/2)
      linarith

structure Sized (item : Item) : Prop where
  width : 0 ≤ item.tree.width
  height : 0 ≤ item.tree.height

theorem gapPositive : 0 < H_GAP := by norm_num [H_GAP]

theorem rowGapPositive : 0 < V_GAP := by norm_num [V_GAP]

theorem totalWidthCons {item : Item} {row : List Item} :
    totalWidth (item::row) = item.tree.width + H_GAP + totalWidth row := by
  simp only [totalWidth,List.map_cons,List.sum_cons,List.length_cons]
  push_cast
  ring

theorem totalWidthNonneg {row : List Item} (some_ : row ≠ []) (sized : ∀ item ∈ row, Sized item) : 0 ≤ totalWidth row := by
  induction row with
  | nil => contradiction
  | cons item row ih =>
    have wide := (sized item List.mem_cons_self).width
    cases row with
    | nil => simpa [totalWidth] using wide
    | cons next rest =>
      rw [totalWidthCons]
      have := ih (by simp) (fun item mem => sized item (List.mem_cons_of_mem _ mem))
      have := gapPositive
      linarith

theorem tallestLe {row : List Item} {item : Item} (mem : item ∈ row) : item.tree.height ≤ tallest row := by
  induction row with
  | nil => contradiction
  | cons first row ih =>
    simp only [tallest,List.foldr_cons]
    rcases List.mem_cons.mp mem with rfl | later
    · exact le_max_right _ _
    · exact (ih later).trans (le_max_left _ _)

theorem tallestNonneg (row : List Item) : 0 ≤ tallest row := by
  induction row with
  | nil => exact le_refl _
  | cons first row ih => exact ih.trans (le_max_left _ _)

theorem widestLe {widths : List ℚ} {width : ℚ} (mem : width ∈ widths) : width ≤ widest widths := by
  induction widths with
  | nil => contradiction
  | cons first rest ih =>
    simp only [widest,List.foldr_cons]
    rcases List.mem_cons.mp mem with rfl | later
    · exact le_max_left _ _
    · exact (ih later).trans (le_max_right _ _)

theorem widestNonneg (widths : List ℚ) : 0 ≤ widest widths := by
  induction widths with
  | nil => exact le_refl _
  | cons first rest ih => exact ih.trans (le_max_right _ _)

/-- Placed items: none meets another, and all keep to an area. -/
structure Spread (area : Rect ℚ) (placed : List Placed) : Prop where
  apart : placed.Pairwise (fun p q => p.rect.Apart q.rect)
  within : ∀ p ∈ placed, p.rect.Within area

theorem spreadNil (area : Rect ℚ) : Spread area [] := ⟨.nil,by simp⟩

theorem spreadWider {area wider : Rect ℚ} {placed : List Placed} (spread : Spread area placed) (more : area.Within wider) :
    Spread wider placed :=
  ⟨spread.apart,fun p mem => withinTrans (spread.within p mem) more⟩

theorem spreadAppend {first second area : Rect ℚ} {ps qs : List Placed} (one : Spread first ps) (two : Spread second qs)
    (apart : first.Apart second) (inFirst : first.Within area) (inSecond : second.Within area) : Spread area (ps ++ qs) := by
  refine ⟨List.pairwise_append.mpr ⟨one.apart,two.apart,fun p memP q memQ => ?_⟩,fun p mem => ?_⟩
  · exact apartWithin (one.within p memP) (two.within q memQ) apart
  · rcases List.mem_append.mp mem with inPs | inQs
    · exact withinTrans (one.within p inPs) inFirst
    · exact withinTrans (two.within p inQs) inSecond

theorem spreadOne {area : Rect ℚ} {p : Placed} (within : p.rect.Within area) : Spread area [p] :=
  ⟨List.pairwise_singleton _ _,by simpa using within⟩

theorem rowSpread {cursorX cursorY rowHeight : ℚ} {row : List Item} (sized : ∀ item ∈ row, Sized item)
    (fits : ∀ item ∈ row, item.tree.height ≤ rowHeight) :
    Spread ⟨cursorX,cursorY,totalWidth row,rowHeight⟩ (placeRow cursorY rowHeight cursorX row) := by
  induction row generalizing cursorX with
  | nil => exact spreadNil _
  | cons item row ih =>
    have wide := (sized item List.mem_cons_self).width
    obtain ⟨low,high⟩ := roundHalf (sub_nonneg.mpr (fits item List.mem_cons_self))
    have gap := gapPositive
    have later := fun other mem => sized other (List.mem_cons_of_mem item mem)
    have one : Spread ⟨cursorX,cursorY,item.tree.width,rowHeight⟩
        [⟨item,cursorX,cursorY + round ((rowHeight - item.tree.height) / 2)⟩] := by
      refine spreadOne ?_
      simp only [Within,Placed.rect,right,bottom]
      refine ⟨le_refl _,?_,le_refl _,?_⟩ <;> linarith
    cases row with
    | nil => simpa [placeRow,totalWidth] using one
    | cons next rest =>
      have after := @ih (cursorX + item.tree.width + H_GAP) later (fun other mem => fits other (List.mem_cons_of_mem item mem))
      have length := totalWidthNonneg (by simp) later
      have total := @totalWidthCons item (next::rest)
      refine spreadAppend one after (.inl ?_) ?_ ?_
      · simp only [right]
        linarith
      · simp only [Within,right,bottom]
        refine ⟨le_refl _,le_refl _,?_,le_refl _⟩
        linarith
      · simp only [Within,right,bottom]
        refine ⟨?_,le_refl _,?_,le_refl _⟩ <;> linarith

theorem rowsCursor {maxLayerWidth cursorY : ℚ} {rows : List (List Item)} (some_ : rows ≠ []) :
    cursorY + V_GAP ≤ (placeRows maxLayerWidth cursorY rows).2 := by
  induction rows generalizing cursorY with
  | nil => contradiction
  | cons row rows ih =>
    have high := tallestNonneg row
    cases rows with
    | nil =>
      simp only [placeRows]
      linarith
    | cons next rest =>
      have after := @ih (cursorY + tallest row + V_GAP) (by simp)
      have gap := rowGapPositive
      simp only [placeRows] at after ⊢
      linarith

theorem rowsSpread {maxLayerWidth cursorY : ℚ} {rows : List (List Item)} (sized : ∀ row ∈ rows, ∀ item ∈ row, Sized item)
    (some_ : ∀ row ∈ rows, row ≠ []) (narrow : ∀ row ∈ rows, totalWidth row ≤ maxLayerWidth) :
    Spread ⟨0,cursorY,maxLayerWidth,(placeRows maxLayerWidth cursorY rows).2 - V_GAP - cursorY⟩
      (placeRows maxLayerWidth cursorY rows).1 := by
  induction rows generalizing cursorY with
  | nil => exact spreadNil _
  | cons row rows ih =>
    have here := List.mem_cons_self (a := row) (l := rows)
    have high := tallestNonneg row
    have gap := rowGapPositive
    obtain ⟨low,wide⟩ := roundHalf (sub_nonneg.mpr (narrow row here))
    have one := @rowSpread (round ((maxLayerWidth - totalWidth row) / 2)) cursorY (tallest row) row (sized row here)
      (fun item mem => tallestLe mem)
    have after := @ih (cursorY + tallest row + V_GAP) (fun other mem => sized other (List.mem_cons_of_mem row mem))
      (fun other mem => some_ other (List.mem_cons_of_mem row mem)) (fun other mem => narrow other (List.mem_cons_of_mem row mem))
    cases rows with
    | nil =>
      simp only [placeRows,List.append_nil]
      refine spreadWider one ?_
      simp only [Within,right,bottom]
      refine ⟨low,le_refl _,?_,?_⟩ <;> linarith
    | cons next rest =>
      have below := @rowsCursor maxLayerWidth (cursorY + tallest row + V_GAP) (next::rest) (by simp)
      unfold placeRows
      dsimp only
      refine spreadAppend one after (.inr (.inr (.inl ?_))) ?_ ?_
      · simp only [bottom]
        linarith
      · simp only [Within,right,bottom]
        refine ⟨low,le_refl _,?_,?_⟩ <;> linarith
      · simp only [Within,right,bottom]
        refine ⟨le_refl _,?_,le_refl _,?_⟩ <;> linarith

theorem errorsCursor {faultX faultY : ℚ} {errors : List Item} (sized : ∀ item ∈ errors, Sized item) (some_ : errors ≠ []) :
    faultY + V_GAP ≤ (placeErrors faultX faultY errors).2 := by
  induction errors generalizing faultY with
  | nil => contradiction
  | cons item errors ih =>
    have high := (sized item List.mem_cons_self).height
    cases errors with
    | nil =>
      simp only [placeErrors]
      linarith
    | cons next rest =>
      have after := @ih (faultY + item.tree.height + V_GAP) (fun other mem => sized other (List.mem_cons_of_mem item mem)) (by simp)
      have gap := rowGapPositive
      simp only [placeErrors] at after ⊢
      linarith

theorem errorsSpread {faultX faultY width : ℚ} {errors : List Item} (sized : ∀ item ∈ errors, Sized item)
    (narrow : ∀ item ∈ errors, item.tree.width ≤ width) :
    Spread ⟨faultX,faultY,width,(placeErrors faultX faultY errors).2 - V_GAP - faultY⟩ (placeErrors faultX faultY errors).1 := by
  induction errors generalizing faultY with
  | nil => exact spreadNil _
  | cons item errors ih =>
    have high := (sized item List.mem_cons_self).height
    have wide := narrow item List.mem_cons_self
    have gap := rowGapPositive
    have later := fun other mem => sized other (List.mem_cons_of_mem item mem)
    have one : Spread ⟨faultX,faultY,width,item.tree.height⟩ [⟨item,faultX,faultY⟩] := by
      refine spreadOne ?_
      simp only [Within,Placed.rect,right,bottom]
      refine ⟨le_refl _,le_refl _,?_,le_refl _⟩
      linarith
    have after := @ih (faultY + item.tree.height + V_GAP) later (fun other mem => narrow other (List.mem_cons_of_mem item mem))
    cases errors with
    | nil =>
      simp only [placeErrors]
      refine spreadWider one ?_
      simp only [Within,right,bottom]
      refine ⟨le_refl _,le_refl _,le_refl _,?_⟩
      linarith
    | cons next rest =>
      have below := @errorsCursor faultX (faultY + item.tree.height + V_GAP) (next::rest) later (by simp)
      unfold placeErrors
      dsimp only
      refine spreadAppend one after (.inr (.inr (.inl ?_))) ?_ ?_
      · simp only [bottom]
        linarith
      · simp only [Within,right,bottom]
        refine ⟨le_refl _,le_refl _,le_refl _,?_⟩
        linarith
      · simp only [Within,right,bottom]
        refine ⟨le_refl _,?_,le_refl _,?_⟩ <;> linarith

theorem rowItems {cursorY rowHeight cursorX : ℚ} {row : List Item} :
    (placeRow cursorY rowHeight cursorX row).map (·.item) = row := by
  induction row generalizing cursorX with
  | nil => rfl
  | cons item row ih => simp only [placeRow,List.map_cons,ih]

theorem rowsItems {maxLayerWidth cursorY : ℚ} {rows : List (List Item)} :
    (placeRows maxLayerWidth cursorY rows).1.map (·.item) = rows.flatten := by
  induction rows generalizing cursorY with
  | nil => rfl
  | cons row rows ih => simp only [placeRows,List.map_append,rowItems,ih,List.flatten_cons]

theorem errorsItems {faultX faultY : ℚ} {errors : List Item} : (placeErrors faultX faultY errors).1.map (·.item) = errors := by
  induction errors generalizing faultY with
  | nil => rfl
  | cons item errors ih => simp only [placeErrors,List.map_cons,ih]

theorem arrangeItems {mainNodes errorNodes : List Item} {layers : List (List Item)} :
    (arrange mainNodes errorNodes layers).placed.map (·.item) = layers.flatten ++ errorNodes := by
  unfold arrange
  dsimp only
  split
  · rename_i none_
    simp [rowsItems,none_]
  · simp [rowsItems,errorsItems]

theorem arrangeSpread {mainNodes errorNodes : List Item} {layers : List (List Item)}
    (sized : ∀ row ∈ layers, ∀ item ∈ row, Sized item) (some_ : ∀ row ∈ layers, row ≠ []) (faults : ∀ item ∈ errorNodes, Sized item)
    (main : mainNodes = [] → layers = []) :
    Spread ⟨0,0,(arrange mainNodes errorNodes layers).totalWidth,(arrange mainNodes errorNodes layers).totalHeight⟩
      (arrange mainNodes errorNodes layers).placed := by
  have narrow : ∀ row ∈ layers, totalWidth row ≤ widest (layers.map Layout.totalWidth) :=
    fun row mem => widestLe (List.mem_map_of_mem mem)
  have rows := @rowsSpread (widest (layers.map Layout.totalWidth)) 0 layers sized some_ narrow
  have wide := widestNonneg (layers.map Layout.totalWidth)
  have bottom_ : (placeRows (widest (layers.map Layout.totalWidth)) 0 layers).2 - V_GAP ≤
      if 0 < (placeRows (widest (layers.map Layout.totalWidth)) 0 layers).2 then
        (placeRows (widest (layers.map Layout.totalWidth)) 0 layers).2 - V_GAP else 0 := by
    have := rowGapPositive
    split <;> linarith
  unfold arrange
  dsimp only
  split
  · refine spreadWider rows ?_
    simp only [Within,right,bottom]
    refine ⟨le_refl _,le_refl _,?_,?_⟩
    · simp
    · rw [zero_add,zero_add,sub_zero]
      exact bottom_.trans (le_max_left _ _)
  · rename_i faulty
    have narrowErrors : ∀ item ∈ errorNodes, item.tree.width ≤ widest (errorNodes.map (·.tree.width)) :=
      fun item mem => widestLe (List.mem_map_of_mem mem)
    have gap := gapPositive
    have widths := widestNonneg (errorNodes.map (·.tree.width))
    generalize faultX : (if mainNodes ≠ [] then widest (layers.map Layout.totalWidth) + H_GAP + 28 else 0) = x
    generalize faultY : (if mainNodes ≠ [] then max 0 (round ((if 0 < (placeRows (widest (layers.map Layout.totalWidth)) 0 layers).2 then
      (placeRows (widest (layers.map Layout.totalWidth)) 0 layers).2 - V_GAP else 0) * (7/20))) else 0) = y
    have top : 0 ≤ y := by
      rw [← faultY]
      split
      · exact le_max_left _ _
      · exact le_refl _
    have aside : widest (layers.map Layout.totalWidth) ≤ x := by
      rw [← faultX]
      split
      · linarith
      · rename_i none_
        rw [main (not_not.mp none_)]
        exact le_refl _
    have errors := @errorsSpread x y _ errorNodes faults narrowErrors
    refine spreadAppend rows errors (.inl ?_) ?_ ?_
    · simpa only [right,zero_add] using aside
    · simp only [Within,right,bottom]
      refine ⟨le_refl _,le_refl _,?_,?_⟩
      · rw [zero_add,zero_add]
        exact (aside.trans (by linarith)).trans (le_max_left (x + widest (errorNodes.map (·.tree.width))) _)
      · rw [zero_add,zero_add,sub_zero]
        exact bottom_.trans ((le_max_left _ _).trans (le_max_left _ _))
    · simp only [Within,right,bottom]
      refine ⟨by linarith,top,?_,?_⟩
      · rw [zero_add]
        exact le_max_left _ _
      · rw [zero_add,add_sub_cancel]
        exact (le_max_right _ _).trans (le_max_left _ _)

theorem layersItems {ranks : Ranks} {mainNodes : List Item} {item : Item} :
    item ∈ (layersOf ranks mainNodes).flatten ↔ item ∈ mainNodes := by
  simp only [layersOf,List.mem_flatten,List.mem_map,List.mem_mergeSort,List.mem_eraseDups]
  constructor
  · rintro ⟨_,⟨_,_,rfl⟩,mem⟩
    exact (List.mem_filter.mp mem).1
  · intro mem
    exact ⟨_,⟨_,⟨item,mem,rfl⟩,rfl⟩,List.mem_filter.mpr ⟨mem,by simp⟩⟩

theorem layersNonempty {ranks : Ranks} {mainNodes : List Item} : ∀ row ∈ layersOf ranks mainNodes, row ≠ [] := by
  intro row mem
  simp only [layersOf,List.mem_map,List.mem_mergeSort,List.mem_eraseDups] at mem
  obtain ⟨_,⟨item,main,rfl⟩,rfl⟩ := mem
  exact List.ne_nil_of_mem (List.mem_filter.mpr ⟨main,by simp⟩)

section Arranged
variable {measuredChildren : List MeasuredTree} {parentId initialChildId : Option String} {allEdges : List VisualizerEdge}

theorem arrangedItems (some_ : measuredChildren ≠ []) {item : Item} :
    item ∈ (arrangeCompoundSiblings measuredChildren parentId initialChildId allEdges).placed.map (·.item) ↔
      item ∈ items measuredChildren := by
  unfold arrangeCompoundSiblings
  rw [if_neg some_,arrangeItems,List.mem_append,layersItems,List.mem_filter,List.mem_filter]
  cases isError item <;> simp

theorem arrangedSpread (sized : ∀ item ∈ items measuredChildren, Sized item) :
    Spread ⟨0,0,(arrangeCompoundSiblings measuredChildren parentId initialChildId allEdges).totalWidth,
      (arrangeCompoundSiblings measuredChildren parentId initialChildId allEdges).totalHeight⟩
      (arrangeCompoundSiblings measuredChildren parentId initialChildId allEdges).placed := by
  unfold arrangeCompoundSiblings
  split
  · exact spreadNil _
  · refine arrangeSpread (fun row inLayers item inRow => ?_) layersNonempty (fun item mem => ?_) (fun none_ => ?_)
    · exact sized item (List.mem_filter.mp (layersItems.mp (List.mem_flatten.mpr ⟨row,inLayers,inRow⟩))).1
    · exact sized item (List.mem_filter.mp mem).1
    · rw [none_]
      simp [layersOf]

theorem arrangedSize : 0 ≤ (arrangeCompoundSiblings measuredChildren parentId initialChildId allEdges).totalWidth ∧
    0 ≤ (arrangeCompoundSiblings measuredChildren parentId initialChildId allEdges).totalHeight := by
  unfold arrangeCompoundSiblings arrange
  split
  · norm_num
  · dsimp only
    split
    · exact ⟨le_trans (by norm_num) (le_max_right _ _),le_trans (by norm_num) (le_max_right _ _)⟩
    · exact ⟨le_trans (by norm_num) (le_max_right _ _),le_trans (by norm_num) (le_max_right _ _)⟩

end Arranged

/-- A tree moved, and possibly made higher. -/
structure Grown (tree moved : MeasuredTree) : Prop where
  node : moved.node = tree.node
  children : moved.children = tree.children
  width : moved.width = tree.width
  height : tree.height ≤ moved.height

/-- Trees that fit into a container: inside it, and apart. -/
structure Fits (width height : ℚ) (trees : List MeasuredTree) : Prop where
  inside : ∀ tree ∈ trees, tree.rect.Within ⟨0,0,width,height⟩
  apart : trees.Pairwise (fun a b => a.rect.Apart b.rect)

theorem itemsAt {trees : List MeasuredTree} {item : Item} : item ∈ items trees ↔ trees[item.index]? = some item.tree := by
  simp only [items,List.mem_map,Prod.exists]
  constructor
  · rintro ⟨tree,i,mem,rfl⟩
    exact List.mem_zipIdx_iff_getElem?.mp mem
  · intro here
    exact ⟨item.tree,item.index,List.mem_zipIdx_iff_getElem?.mpr here,rfl⟩

theorem movedAt {arranged : Arrangement} {trees : List MeasuredTree} {shiftX shiftY : ℚ}
    (all : ∀ item, item ∈ arranged.placed.map (·.item) ↔ item ∈ items trees) {i : Nat} {tree : MeasuredTree}
    (here : trees[i]? = some tree) :
    ∃ p ∈ arranged.placed, p.item = ⟨i,tree⟩ ∧
      (arranged.moved shiftX shiftY trees)[i]? = some { tree with relX := p.relX + shiftX, relY := p.relY + shiftY } := by
  obtain ⟨q,inPlaced,own⟩ := List.mem_map.mp ((all ⟨i,tree⟩).mpr (itemsAt.mpr here))
  have found : (arranged.placed.find? (·.item.index = i)).isSome := by
    rw [List.find?_isSome]
    exact ⟨q,inPlaced,by simp [own]⟩
  obtain ⟨p,spot⟩ := Option.isSome_iff_exists.mp found
  have mem := List.mem_of_find?_eq_some spot
  have index : p.item.index = i := by simpa using List.find?_some spot
  have tree_ := itemsAt.mp ((all p.item).mp (List.mem_map_of_mem mem))
  rw [index,here] at tree_
  have item : p.item = ⟨i,tree⟩ := by
    rw [Option.some.inj tree_,← index]
  refine ⟨p,mem,item,?_⟩
  simp [Arrangement.moved,items,here,spot]

theorem movedFits {arranged : Arrangement} {trees : List MeasuredTree} {shiftX shiftY width height : ℚ}
    (all : ∀ item, item ∈ arranged.placed.map (·.item) ↔ item ∈ items trees)
    (spread : Spread ⟨0,0,arranged.totalWidth,arranged.totalHeight⟩ arranged.placed) (low : 0 ≤ shiftX ∧ 0 ≤ shiftY)
    (wide : shiftX + arranged.totalWidth ≤ width) (high : shiftY + arranged.totalHeight ≤ height) :
    Fits width height (arranged.moved shiftX shiftY trees) ∧ List.Forall₂ Grown trees (arranged.moved shiftX shiftY trees) := by
  have length : (arranged.moved shiftX shiftY trees).length = trees.length := by simp [Arrangement.moved,items]
  have at_ (i : Nat) (small : i < (arranged.moved shiftX shiftY trees).length) : ∃ p ∈ arranged.placed,
      p.item = ⟨i,trees[i]⟩ ∧ (arranged.moved shiftX shiftY trees)[i] =
        { trees[i] with relX := p.relX + shiftX, relY := p.relY + shiftY } := by
    obtain ⟨p,mem,own,spot⟩ := @movedAt _ _ shiftX shiftY all i (trees.get ⟨i,length ▸ small⟩) (List.getElem?_eq_getElem _)
    exact ⟨p,mem,own,Option.some.inj ((List.getElem?_eq_getElem small).symm.trans spot)⟩
  have rect_ {p : Placed} {i : Nat} {tree : MeasuredTree} (own : p.item = ⟨i,tree⟩) :
      MeasuredTree.rect { tree with relX := p.relX + shiftX, relY := p.relY + shiftY } = p.rect.shift shiftX shiftY := by
    simp only [MeasuredTree.rect,Placed.rect,own,shift,add_comm]
  have symm : Std.Symm (fun p q : Placed => p.rect.Apart q.rect) := ⟨fun _ _ => apartSymm⟩
  refine ⟨⟨fun tree mem => ?_,List.pairwise_iff_getElem.mpr (fun i j smallI smallJ before => ?_)⟩,?_⟩
  · obtain ⟨i,small,rfl⟩ := List.mem_iff_getElem.mp mem
    obtain ⟨p,inPlaced,own,spot⟩ := at_ i small
    obtain ⟨left,top,right_,bottom_⟩ := spread.within p inPlaced
    rw [spot,rect_ own]
    rw [Within,shiftRight,shiftBottom]
    simp only [right,bottom,shift,zero_add] at left top right_ bottom_ ⊢
    refine ⟨?_,?_,?_,?_⟩ <;> linarith
  · obtain ⟨p,inP,ownP,spotP⟩ := at_ i smallI
    obtain ⟨q,inQ,ownQ,spotQ⟩ := at_ j smallJ
    have other : p ≠ q := by
      rintro rfl
      have same := congrArg Item.index (ownP.symm.trans ownQ)
      exact absurd same before.ne
    rw [spotP,spotQ,rect_ ownP,rect_ ownQ]
    exact shiftApart (spread.apart.forall inP inQ other)
  · refine List.forall₂_iff_get.mpr ⟨length.symm,fun i smallI smallJ => ?_⟩
    obtain ⟨p,_,_,spot⟩ := at_ i smallJ
    simp only [List.get_eq_getElem,spot]
    exact ⟨rfl,rfl,rfl,le_refl _⟩

/-- Regions side by side in a strip. -/
structure Strip (area : Rect ℚ) (trees placed : List MeasuredTree) : Prop where
  within : ∀ tree ∈ placed, tree.rect.Within area
  apart : placed.Pairwise (fun a b => a.rect.Apart b.rect)
  grown : List.Forall₂ Grown trees placed

theorem regionsStrip {top height cursorX : ℚ} {trees : List MeasuredTree} (some_ : trees ≠ []) (wide : ∀ tree ∈ trees, 0 ≤ tree.width)
    (fits : ∀ tree ∈ trees, tree.height ≤ height) :
    cursorX ≤ (placeRegions top height cursorX trees).2 ∧
      Strip ⟨cursorX,top,(placeRegions top height cursorX trees).2 - cursorX,height⟩ trees (placeRegions top height cursorX trees).1 := by
  induction trees generalizing cursorX with
  | nil => contradiction
  | cons region rest ih =>
    have here := wide region List.mem_cons_self
    have high := fits region List.mem_cons_self
    have grown : Grown region { region with relX := cursorX, relY := top, height := max region.height height } :=
      ⟨rfl,rfl,rfl,le_max_left _ _⟩
    have own : MeasuredTree.rect { region with relX := cursorX, relY := top, height := max region.height height } =
        ⟨cursorX,top,region.width,height⟩ := by
      simp only [MeasuredTree.rect,max_eq_right high]
    cases rest with
    | nil =>
      refine ⟨by simpa [placeRegions] using here,fun tree mem => ?_,List.pairwise_singleton _ _,.cons grown .nil⟩
      cases List.mem_singleton.mp mem
      rw [own]
      simp only [Within,right,bottom,placeRegions]
      refine ⟨le_refl _,le_refl _,?_,le_refl _⟩
      linarith
    | cons next rest =>
      obtain ⟨on,strip⟩ := @ih (cursorX + region.width + PARALLEL_REGION_GAP) (by simp)
        (fun tree mem => wide tree (List.mem_cons_of_mem _ mem)) (fun tree mem => fits tree (List.mem_cons_of_mem _ mem))
      have gap : 0 < PARALLEL_REGION_GAP := by norm_num [PARALLEL_REGION_GAP]
      unfold placeRegions
      dsimp only
      refine ⟨by linarith,fun tree mem => ?_,List.pairwise_cons.mpr ⟨fun tree mem => ?_,strip.apart⟩,.cons grown strip.grown⟩
      · rcases List.mem_cons.mp mem with rfl | later
        · rw [own]
          simp only [Within,right,bottom]
          refine ⟨le_refl _,le_refl _,?_,le_refl _⟩
          linarith
        · refine withinTrans (strip.within tree later) ?_
          simp only [Within,right,bottom]
          refine ⟨?_,le_refl _,?_,le_refl _⟩ <;> linarith
      · rw [own]
        refine .inl ?_
        have left := (strip.within tree mem).1
        simp only [right] at left ⊢
        linarith

theorem maxHeightLe {trees : List MeasuredTree} {tree : MeasuredTree} (mem : tree ∈ trees) : tree.height ≤ maxHeight trees :=
  widestLe (List.mem_map_of_mem mem)

theorem maxHeightNonneg (trees : List MeasuredTree) : 0 ≤ maxHeight trees := widestNonneg _

end Dfsm.Extension.Layout
