import Dfsm.Extension.Arranged

/-! The boxes of a diagram: one for every state, apart from those of its siblings, inside that
of its parent, and on the canvas. -/
namespace Dfsm.Extension.Layout
open Rects Rect

/-- A tree measured from a node: its children are measured from the node's and fit in it. -/
inductive Measured : VisualizerNode → MeasuredTree → Prop where
  | intro {node tree} (same : tree.node = node) (width : 0 ≤ tree.width) (height : 0 ≤ tree.height)
      (fits : Fits tree.width tree.height tree.children) (below : List.Forall₂ Measured node.children tree.children) :
      Measured node tree

theorem fitsHigher {width height higher : ℚ} {trees : List MeasuredTree} (fits : Fits width height trees) (more : height ≤ higher) :
    Fits width higher trees := by
  refine ⟨fun tree mem => withinTrans (fits.inside tree mem) ?_,fits.apart⟩
  simp only [Within,right,bottom]
  refine ⟨le_refl _,le_refl _,le_refl _,?_⟩
  linarith

theorem measuredGrown {node : VisualizerNode} {tree moved : MeasuredTree} (measured : Measured node tree) (grown : Grown tree moved) :
    Measured node moved := by
  cases measured with
  | intro same width height fits below =>
    refine .intro (grown.node.trans same) (grown.width ▸ width) (height.trans grown.height) ?_ (grown.children ▸ below)
    rw [grown.children,grown.width]
    exact fitsHigher fits grown.height

theorem measuredAllGrown {nodes : List VisualizerNode} {trees moved : List MeasuredTree} (measured : List.Forall₂ Measured nodes trees)
    (grown : List.Forall₂ Grown trees moved) : List.Forall₂ Measured nodes moved := by
  induction measured generalizing moved with
  | nil => cases grown; exact .nil
  | cons first _ ih =>
    cases grown with
    | cons one rest => exact .cons (measuredGrown first one) (ih rest)

theorem measuredSized {nodes : List VisualizerNode} {trees : List MeasuredTree} (measured : List.Forall₂ Measured nodes trees) :
    ∀ tree ∈ trees, 0 ≤ tree.width ∧ 0 ≤ tree.height := by
  induction measured with
  | nil => simp
  | cons first _ ih =>
    intro tree mem
    rcases List.mem_cons.mp mem with rfl | later
    · cases first with
      | intro _ width height => exact ⟨width,height⟩
    · exact ih tree later

theorem itemsSized {nodes : List VisualizerNode} {trees : List MeasuredTree} (measured : List.Forall₂ Measured nodes trees) :
    ∀ item ∈ items trees, Sized item := by
  intro item mem
  obtain ⟨width,height⟩ := measuredSized measured item.tree (List.mem_of_getElem? (itemsAt.mp mem))
  exact ⟨width,height⟩

section Measuring
variable {allEdges : List VisualizerEdge} {node : VisualizerNode} {trees : List MeasuredTree}

theorem leafMeasured (none_ : node.children = []) : Measured node (leafTree node) := by
  refine .intro rfl ?_ ?_ ⟨by simp [leafTree],.nil⟩ (none_ ▸ .nil)
  · exact le_trans (by norm_num) (le_max_left (180 : ℚ) _)
  · simp only [leafTree,estimateLeafSize]
    split
    · exact le_trans (by norm_num) (le_max_right _ (68 : ℚ))
    · positivity

theorem headerPositive (node : VisualizerNode) : 0 < headerHeightOf node := by
  unfold headerHeightOf
  split <;> norm_num

theorem parallelMeasured (some_ : trees ≠ []) (below : List.Forall₂ Measured node.children trees) :
    Measured node (parallelTree node trees) := by
  have header := headerPositive node
  have high := maxHeightNonneg trees
  obtain ⟨on,strip⟩ := @regionsStrip (headerHeightOf node + 20) (maxHeight trees) CONTAINER_PAD_X trees some_
    (fun tree mem => (measuredSized below tree mem).1) (fun tree mem => maxHeightLe mem)
  have pad : 0 < CONTAINER_PAD_X := by norm_num [CONTAINER_PAD_X]
  have padBottom : 0 < CONTAINER_PAD_BOTTOM := by norm_num [CONTAINER_PAD_BOTTOM]
  have wide : (placeRegions (headerHeightOf node + 20) (maxHeight trees) CONTAINER_PAD_X trees).2 + CONTAINER_PAD_X ≤
      (parallelTree node trees).width := le_max_left _ _
  refine .intro rfl ?_ ?_ ⟨fun tree mem => withinTrans (strip.within tree mem) ?_,strip.apart⟩ (measuredAllGrown below strip.grown)
  · linarith
  · simp only [parallelTree]
    linarith
  · simp only [Within,right,bottom]
    refine ⟨?_,?_,?_,?_⟩
    · linarith
    · linarith
    · linarith
    · simp only [parallelTree]
      linarith

theorem compoundMeasured (some_ : trees ≠ []) (below : List.Forall₂ Measured node.children trees) :
    Measured node (compoundTree allEdges node trees) := by
  have header := headerPositive node
  have pad : 0 < CONTAINER_PAD_X := by norm_num [CONTAINER_PAD_X]
  have padBottom : 0 < CONTAINER_PAD_BOTTOM := by norm_num [CONTAINER_PAD_BOTTOM]
  have spread := @arrangedSpread trees (some node.id) node.initialChildId allEdges (itemsSized below)
  obtain ⟨wide,high⟩ := @arrangedSize trees (some node.id) node.initialChildId allEdges
  have marker : 0 ≤ (if (given node.initialChildId).isSome then INITIAL_MARKER_SPACE else 0) := by
    split <;> norm_num [INITIAL_MARKER_SPACE]
  have inner := le_max_left (arrangeCompoundSiblings trees (some node.id) node.initialChildId allEdges).totalWidth
    (length node.label * 9 + 120 - CONTAINER_PAD_X * 2)
  obtain ⟨low,half⟩ := roundHalf (sub_nonneg.mpr inner)
  obtain ⟨fits,grown⟩ := @movedFits _ trees _ _ (compoundTree allEdges node trees).width (compoundTree allEdges node trees).height
    (fun _ => arrangedItems some_) spread (⟨by linarith,by linarith⟩ : 0 ≤ CONTAINER_PAD_X + round ((max
      (arrangeCompoundSiblings trees (some node.id) node.initialChildId allEdges).totalWidth
      (length node.label * 9 + 120 - CONTAINER_PAD_X * 2) -
      (arrangeCompoundSiblings trees (some node.id) node.initialChildId allEdges).totalWidth) / 2) ∧
      0 ≤ headerHeightOf node + 18 + (if (given node.initialChildId).isSome then INITIAL_MARKER_SPACE else 0))
    (by simp only [compoundTree]; linarith) (by simp only [compoundTree]; linarith)
  refine .intro rfl ?_ ?_ fits (measuredAllGrown below grown)
  · simp only [compoundTree]
    linarith
  · simp only [compoundTree]
    linarith

theorem nodeMeasured (below : List.Forall₂ Measured node.children trees) : Measured node (measured allEdges node trees) := by
  unfold measured
  split
  · rename_i none_
    subst none_
    exact leafMeasured (List.forall₂_nil_right_iff.mp below)
  · rename_i some_
    split
    · exact parallelMeasured some_ below
    · exact compoundMeasured some_ below

mutual
theorem measuredNode (allEdges : List VisualizerEdge) : ∀ node, Measured node (measureNodeRecursive allEdges node)
  | { id, label, kind, initialChildId, entry, exit, children } => by
    rw [measureNodeRecursive]
    exact nodeMeasured (measuredNodes allEdges children)
theorem measuredNodes (allEdges : List VisualizerEdge) : ∀ nodes, List.Forall₂ Measured nodes (measureNodes allEdges nodes)
  | [] => .nil
  | node::rest => .cons (measuredNode allEdges node) (measuredNodes allEdges rest)
end

end Measuring

section Places

/-- A tree where it stands on the canvas. -/
structure Spot where
  tree : MeasuredTree
  x : ℚ
  y : ℚ
  depth : Nat

def Spot.box (spot : Spot) : NodeBoxLayout :=
  ⟨spot.tree.node,spot.x,spot.y,spot.tree.width,spot.tree.height,spot.tree.headerHeight,spot.depth⟩

def NodeBoxLayout.rect (box : NodeBoxLayout) : Rect ℚ := ⟨box.x,box.y,box.width,box.height⟩

/-- The node at an address below another: the index of a child, of a child of that one, and so on. -/
def nodeIn : VisualizerNode → List Nat → Option VisualizerNode
  | node, [] => some node
  | node, i::rest => node.children[i]?.bind (fun child => nodeIn child rest)

def nodeAt (nodes : List VisualizerNode) : List Nat → Option VisualizerNode
  | [] => none
  | i::rest => nodes[i]?.bind (fun node => nodeIn node rest)

def spotIn : MeasuredTree → ℚ → ℚ → Nat → List Nat → Option Spot
  | tree, absX, absY, depth, [] => some ⟨tree,absX + tree.relX,absY + tree.relY,depth⟩
  | tree, absX, absY, depth, i::rest =>
    tree.children[i]?.bind (fun child => spotIn child (absX + tree.relX) (absY + tree.relY) (depth + 1) rest)

def spotAt (trees : List MeasuredTree) (absX absY : ℚ) (depth : Nat) : List Nat → Option Spot
  | [] => none
  | i::rest => trees[i]?.bind (fun tree => spotIn tree absX absY depth rest)

mutual
/-- The trees in the order they are drawn, each under its address; `k` is the index of the first. -/
def locatedTree (absX absY : ℚ) (depth k : Nat) : MeasuredTree → List (List Nat × Spot)
  | { node, relX, relY, width, height, headerHeight, children, dividers, initialMarker } =>
    ([k],⟨⟨node,relX,relY,width,height,headerHeight,children,dividers,initialMarker⟩,absX + relX,absY + relY,depth⟩)::
      (locatedTrees (absX + relX) (absY + relY) (depth + 1) 0 children).map (fun e => (k::e.1,e.2))
def locatedTrees (absX absY : ℚ) (depth k : Nat) : List MeasuredTree → List (List Nat × Spot)
  | [] => []
  | tree::rest => locatedTree absX absY depth k tree ++ locatedTrees absX absY depth (k + 1) rest
end

mutual
theorem locatedTreeBoxes (absX absY : ℚ) (depth k : Nat) : ∀ tree,
    (locatedTree absX absY depth k tree).map (·.2.box) = (flattenMeasuredTree absX absY depth tree).boxes
  | { node, relX, relY, width, height, headerHeight, children, dividers, initialMarker } => by
    rw [locatedTree,flattenMeasuredTree,List.map_cons,List.map_map]
    exact congrArg (_ :: ·) (locatedTreesBoxes (absX + relX) (absY + relY) (depth + 1) 0 children)
theorem locatedTreesBoxes (absX absY : ℚ) (depth k : Nat) : ∀ trees,
    (locatedTrees absX absY depth k trees).map (·.2.box) = (flattenTrees absX absY depth trees).boxes
  | [] => by simp [locatedTrees,flattenTrees]
  | tree::rest => by
    rw [locatedTrees,flattenTrees,List.map_append,locatedTreeBoxes absX absY depth k tree,locatedTreesBoxes absX absY depth (k + 1) rest]
    rfl
end

mutual
theorem locatedTreeMem (absX absY : ℚ) (depth k : Nat) : ∀ tree, ∀ {address : List Nat} {spot : Spot},
    (address,spot) ∈ locatedTree absX absY depth k tree ↔
      ∃ rest, address = k::rest ∧ spotIn tree absX absY depth rest = some spot
  | { node, relX, relY, width, height, headerHeight, children, dividers, initialMarker }, address, spot => by
    rw [locatedTree,List.mem_cons,List.mem_map]
    constructor
    · rintro (own | ⟨⟨rest,below⟩,mem,same⟩)
      · cases own
        exact ⟨[],rfl,rfl⟩
      · cases same
        obtain ⟨i,more,rfl,found⟩ := (locatedTreesMem (absX + relX) (absY + relY) (depth + 1) 0 children).mp mem
        exact ⟨i::more,by rw [Nat.zero_add],found⟩
    · rintro ⟨rest,rfl,found⟩
      cases rest with
      | nil =>
        cases found
        exact .inl rfl
      | cons i more =>
        refine .inr ⟨(i::more,spot),(locatedTreesMem (absX + relX) (absY + relY) (depth + 1) 0 children).mpr ⟨i,more,by rw [Nat.zero_add],found⟩,rfl⟩
theorem locatedTreesMem (absX absY : ℚ) (depth k : Nat) : ∀ trees, ∀ {address : List Nat} {spot : Spot},
    (address,spot) ∈ locatedTrees absX absY depth k trees ↔
      ∃ i rest, address = (k + i)::rest ∧ spotAt trees absX absY depth (i::rest) = some spot
  | [], address, spot => by simp [locatedTrees,spotAt]
  | tree::others, address, spot => by
    rw [locatedTrees,List.mem_append,locatedTreeMem absX absY depth k tree,locatedTreesMem absX absY depth (k + 1) others]
    constructor
    · rintro (⟨rest,rfl,found⟩ | ⟨i,rest,rfl,found⟩)
      · exact ⟨0,rest,rfl,found⟩
      · exact ⟨i + 1,rest,by rw [Nat.add_right_comm,Nat.add_assoc],found⟩
    · rintro ⟨i,rest,rfl,found⟩
      cases i with
      | zero => exact .inl ⟨rest,rfl,found⟩
      | succ i => exact .inr ⟨i,rest,by rw [Nat.add_right_comm,Nat.add_assoc],found⟩
end

mutual
theorem locatedTreeOnce (absX absY : ℚ) (depth k : Nat) : ∀ tree, ((locatedTree absX absY depth k tree).map Prod.fst).Nodup
  | { node, relX, relY, width, height, headerHeight, children, dividers, initialMarker } => by
    have below := locatedTreesOnce (absX + relX) (absY + relY) (depth + 1) 0 children
    rw [locatedTree,List.map_cons,List.map_map,List.nodup_cons]
    constructor
    · intro mem
      obtain ⟨⟨rest,spot⟩,inside,same⟩ := List.mem_map.mp mem
      obtain ⟨i,more,rfl,_⟩ := (locatedTreesMem (absX + relX) (absY + relY) (depth + 1) 0 children).mp inside
      cases same
    · have prefixed : (locatedTrees (absX + relX) (absY + relY) (depth + 1) 0 children).map (Prod.fst ∘ fun e => (k::e.1,e.2)) =
          ((locatedTrees (absX + relX) (absY + relY) (depth + 1) 0 children).map Prod.fst).map (k :: ·) := by
        rw [List.map_map]
        rfl
      rw [prefixed]
      exact below.map (fun _ _ same => (List.cons.inj same).2)
theorem locatedTreesOnce (absX absY : ℚ) (depth k : Nat) : ∀ trees, ((locatedTrees absX absY depth k trees).map Prod.fst).Nodup
  | [] => by simp [locatedTrees]
  | tree::others => by
    rw [locatedTrees,List.map_append]
    refine List.nodup_append.mpr ⟨locatedTreeOnce absX absY depth k tree,locatedTreesOnce absX absY depth (k + 1) others,?_⟩
    intro a inTree b inOthers same
    obtain ⟨⟨_,spot⟩,here,rfl⟩ := List.mem_map.mp inTree
    obtain ⟨⟨_,other⟩,there,rfl⟩ := List.mem_map.mp inOthers
    obtain ⟨rest,first,_⟩ := (locatedTreeMem absX absY depth k tree).mp here
    obtain ⟨i,more,second,_⟩ := (locatedTreesMem absX absY depth (k + 1) others).mp there
    dsimp only at same
    rw [same,second] at first
    have head := (List.cons.inj first).1
    omega
end

theorem pairedAt {α β : Type} {R : α → β → Prop} {as : List α} {bs : List β} (paired : List.Forall₂ R as bs) (i : Nat) :
    as[i]? = none ∧ bs[i]? = none ∨ ∃ a b, as[i]? = some a ∧ bs[i]? = some b ∧ R a b := by
  induction paired generalizing i with
  | nil => simp
  | cons first _ ih =>
    cases i with
    | zero => exact .inr ⟨_,_,rfl,rfl,first⟩
    | succ i => exact ih i

theorem spotMeasured {node : VisualizerNode} {tree : MeasuredTree} {absX absY : ℚ} {depth : Nat} {rest : List Nat}
    (measured : Measured node tree) :
    nodeIn node rest = (spotIn tree absX absY depth rest).map (·.tree.node) ∧
      ∀ spot, spotIn tree absX absY depth rest = some spot → ∃ node, Measured node spot.tree := by
  induction rest generalizing node tree absX absY depth with
  | nil =>
    refine ⟨?_,fun spot here => ?_⟩
    · cases measured with
      | intro same => simp [nodeIn,spotIn,same]
    · cases here
      exact ⟨node,measured⟩
  | cons i rest ih =>
    obtain ⟨_,_,_,_,below⟩ := measured
    simp only [nodeIn,spotIn]
    rcases pairedAt below i with ⟨noNode,noTree⟩ | ⟨child,made,isNode,isTree,one⟩
    · rw [noNode,noTree]
      simp
    · rw [isNode,isTree]
      exact ih one

theorem spotsMeasured {nodes : List VisualizerNode} {trees : List MeasuredTree} {absX absY : ℚ} {depth : Nat} {address : List Nat}
    (measured : List.Forall₂ Measured nodes trees) :
    nodeAt nodes address = (spotAt trees absX absY depth address).map (·.tree.node) ∧
      ∀ spot, spotAt trees absX absY depth address = some spot → ∃ node, Measured node spot.tree := by
  cases address with
  | nil => simp [nodeAt,spotAt]
  | cons i rest =>
    simp only [nodeAt,spotAt]
    rcases pairedAt measured i with ⟨noNode,noTree⟩ | ⟨child,made,isNode,isTree,one⟩
    · rw [noNode,noTree]
      simp
    · rw [isNode,isTree]
      exact spotMeasured one

theorem spotInChild {tree : MeasuredTree} {absX absY : ℚ} {depth : Nat} {rest : List Nat} {i : Nat} :
    spotIn tree absX absY depth (rest ++ [i]) = (spotIn tree absX absY depth rest).bind (fun spot =>
      spot.tree.children[i]?.map (fun child => ⟨child,spot.x + child.relX,spot.y + child.relY,spot.depth + 1⟩)) := by
  induction rest generalizing tree absX absY depth with
  | nil =>
    simp only [List.nil_append,spotIn,Option.bind_some]
    cases tree.children[i]? <;> rfl
  | cons j rest ih =>
    simp only [List.cons_append,spotIn,Option.bind_assoc,ih]

theorem spotAtChild {trees : List MeasuredTree} {absX absY : ℚ} {depth : Nat} {parent : List Nat} {i : Nat} (some_ : parent ≠ []) :
    spotAt trees absX absY depth (parent ++ [i]) = (spotAt trees absX absY depth parent).bind (fun spot =>
      spot.tree.children[i]?.map (fun child => ⟨child,spot.x + child.relX,spot.y + child.relY,spot.depth + 1⟩)) := by
  cases parent with
  | nil => contradiction
  | cons j rest =>
    simp only [List.cons_append,spotAt,Option.bind_assoc,spotInChild]

theorem spotRoot {trees : List MeasuredTree} {absX absY : ℚ} {depth i : Nat} :
    spotAt trees absX absY depth [i] =
      trees[i]?.map (fun tree => ⟨tree,absX + tree.relX,absY + tree.relY,depth⟩) := by
  simp only [spotAt]
  cases trees[i]? <;> rfl

theorem childRect {child : MeasuredTree} {x y : ℚ} {depth : Nat} :
    (Spot.box ⟨child,x + child.relX,y + child.relY,depth⟩).rect = child.rect.shift x y := rfl

theorem spotPositive {node : VisualizerNode} {tree : MeasuredTree} {absX absY : ℚ} {depth : Nat} {rest : List Nat} {spot : Spot}
    (measured : Measured node tree) (left : 0 ≤ absX + tree.relX) (top : 0 ≤ absY + tree.relY)
    (here : spotIn tree absX absY depth rest = some spot) : 0 ≤ spot.x ∧ 0 ≤ spot.y := by
  induction rest generalizing node tree absX absY depth with
  | nil =>
    cases here
    exact ⟨left,top⟩
  | cons i rest ih =>
    obtain ⟨_,_,_,fits,below⟩ := measured
    obtain ⟨child,isChild,deeper⟩ := Option.bind_eq_some_iff.mp here
    have inside := fits.inside child (List.mem_of_getElem? isChild)
    rcases pairedAt below i with ⟨_,noTree⟩ | ⟨_,made,_,isTree,one⟩
    · rw [noTree] at isChild
      cases isChild
    · cases isTree.symm.trans isChild
      exact ih one (add_nonneg left inside.1) (add_nonneg top inside.2.1) deeper

end Places

section Graph

/-- Roots that are measured, and stand apart to the right of and below the origin. -/
structure Rooted (nodes : List VisualizerNode) (trees : List MeasuredTree) : Prop where
  measured : List.Forall₂ Measured nodes trees
  apart : trees.Pairwise (fun a b => a.rect.Apart b.rect)
  positive : ∀ tree ∈ trees, 0 ≤ tree.relX ∧ 0 ≤ tree.relY

theorem rootsRooted (graph : VisualizerGraph) (some_ : graph.rootNodes ≠ []) :
    Rooted graph.rootNodes (if graph.rootType = .parallel then parallelRoots (measureNodes graph.edges graph.rootNodes)
      else compoundRoots graph (measureNodes graph.edges graph.rootNodes)).trees := by
  have measured := measuredNodes graph.edges graph.rootNodes
  have someTrees : measureNodes graph.edges graph.rootNodes ≠ [] := by
    intro none_
    rw [none_] at measured
    exact some_ (List.forall₂_nil_right_iff.mp measured)
  split
  · obtain ⟨_,strip⟩ := @regionsStrip 0 (maxHeight (measureNodes graph.edges graph.rootNodes)) 0 _ someTrees
      (fun tree mem => (measuredSized measured tree mem).1) (fun tree mem => maxHeightLe mem)
    exact ⟨measuredAllGrown measured strip.grown,strip.apart,fun tree mem => ⟨(strip.within tree mem).1,(strip.within tree mem).2.1⟩⟩
  · have space : 0 ≤ (if (given graph.rootInitialId).isSome then INITIAL_MARKER_SPACE else 0) := by
      split <;> norm_num [INITIAL_MARKER_SPACE]
    obtain ⟨fits,grown⟩ := movedFits (fun _ => arrangedItems someTrees)
      (@arrangedSpread _ none graph.rootInitialId graph.edges (itemsSized measured)) ⟨le_refl (0 : ℚ),space⟩ (le_refl _) (le_refl _)
    exact ⟨measuredAllGrown measured grown,fits.apart,fun tree mem => ⟨(fits.inside tree mem).1,(fits.inside tree mem).2.1⟩⟩

/-- A layout with one box for each node, known by its address, where no siblings overlap, children
lie inside their parents, and all lie on the canvas. -/
structure LaidOut (nodes : List VisualizerNode) (layout : LayoutGraph) (addresses : List (List Nat))
    (boxAt : List Nat → NodeBoxLayout) : Prop where
  once : addresses.Nodup
  every : ∀ address, address ∈ addresses ↔ (nodeAt nodes address).isSome
  boxes : layout.nodes = addresses.map boxAt
  own : ∀ address ∈ addresses, nodeAt nodes address = some (boxAt address).node
  siblings : ∀ parent i j, parent ++ [i] ∈ addresses → parent ++ [j] ∈ addresses → i ≠ j →
    ¬(boxAt (parent ++ [i])).rect.Overlap (boxAt (parent ++ [j])).rect
  inside : ∀ parent i, parent ∈ addresses → parent ++ [i] ∈ addresses →
    (boxAt (parent ++ [i])).rect.Within (boxAt parent).rect
  canvas : ∀ box ∈ layout.nodes, box.rect.Within ⟨0,0,layout.width,layout.height⟩

theorem foldlMax {α : Type} (f : α → ℚ) (l : List α) (start : ℚ) :
    start ≤ l.foldl (fun most b => max most (f b)) start ∧ ∀ b ∈ l, f b ≤ l.foldl (fun most b => max most (f b)) start := by
  induction l generalizing start with
  | nil => simp
  | cons b l ih =>
    obtain ⟨from_,each⟩ := ih (max start (f b))
    refine ⟨(le_max_left _ _).trans from_,fun c mem => ?_⟩
    rcases List.mem_cons.mp mem with rfl | later
    · exact (le_max_right _ _).trans from_
    · exact each c later

theorem spanned {α β : Type} (f : α → ℚ) (g : β → ℚ) (boxes : List α) (labels : List β) (start least : ℚ) {pad : ℚ} (some_ : 0 ≤ pad) :
    ∀ b ∈ boxes, f b ≤ max least (labels.foldl (fun most e => max most (g e))
      (boxes.foldl (fun most b => max most (f b + pad)) start)) := by
  intro b mem
  have each := (foldlMax (fun b => f b + pad) boxes start).2 b mem
  have grows := (foldlMax g labels (boxes.foldl (fun most b => max most (f b + pad)) start)).1
  exact ((le_add_of_nonneg_right some_).trans each).trans (grows.trans (le_max_right _ _))

theorem locatedSpot {trees : List MeasuredTree} {absX absY : ℚ} {depth : Nat} {address : List Nat} {spot : Spot} :
    (address,spot) ∈ locatedTrees absX absY depth 0 trees ↔ spotAt trees absX absY depth address = some spot := by
  rw [locatedTreesMem absX absY depth 0 trees]
  cases address with
  | nil => simp [spotAt]
  | cons i rest => simp

def blank : NodeBoxLayout := ⟨⟨"","",.atomic,none,[],[],[]⟩,0,0,0,0,0,0⟩

/-- The box of the tree at an address. -/
def drawnAt (trees : List MeasuredTree) (address : List Nat) : NodeBoxLayout :=
  ((spotAt trees PAD_CANVAS PAD_CANVAS 0 address).map Spot.box).getD blank

/-- The addresses, outer before inner as the boxes are sorted. -/
def sortedAddresses (trees : List MeasuredTree) : List (List Nat) :=
  ((locatedTrees PAD_CANVAS PAD_CANVAS 0 0 trees).map Prod.fst).mergeSort
    (fun a b => (drawnAt trees a).depth ≤ (drawnAt trees b).depth)

section Canvas
variable {nodes : List VisualizerNode} {trees : List MeasuredTree}

theorem addressSpot {address : List Nat} :
    address ∈ sortedAddresses trees ↔ ∃ spot, spotAt trees PAD_CANVAS PAD_CANVAS 0 address = some spot := by
  rw [sortedAddresses,List.mem_mergeSort,List.mem_map]
  constructor
  · rintro ⟨⟨_,spot⟩,mem,rfl⟩
    exact ⟨spot,locatedSpot.mp mem⟩
  · rintro ⟨spot,here⟩
    exact ⟨(address,spot),locatedSpot.mpr here,rfl⟩

theorem sortedBoxes :
    ((flattenTrees PAD_CANVAS PAD_CANVAS 0 trees).boxes).mergeSort (fun a b => a.depth ≤ b.depth) =
      (sortedAddresses trees).map (drawnAt trees) := by
  have sorted := @List.map_mergeSort _ _ (fun a b => decide ((drawnAt trees a).depth ≤ (drawnAt trees b).depth))
    (fun a b => decide (a.depth ≤ b.depth)) (drawnAt trees) ((locatedTrees PAD_CANVAS PAD_CANVAS 0 0 trees).map Prod.fst)
    (fun _ _ _ _ => rfl)
  rw [sortedAddresses,sorted,← locatedTreesBoxes PAD_CANVAS PAD_CANVAS 0 0 trees,List.map_map]
  refine congrArg (List.mergeSort · _) (List.map_congr_left (fun e mem => ?_))
  have here := locatedSpot.mp mem
  simp [drawnAt,here]

theorem siblingSpots {parent : List Nat} (rooted : Rooted nodes trees) (inner : parent = [] ∨ parent ∈ sortedAddresses trees) :
    ∃ siblings : List MeasuredTree, ∃ x y, siblings.Pairwise (fun a b => a.rect.Apart b.rect) ∧
      (∀ tree ∈ siblings, parent ≠ [] → (tree.rect.shift x y).Within (drawnAt trees parent).rect) ∧
      ∀ i, parent ++ [i] ∈ sortedAddresses trees →
        ∃ child, siblings[i]? = some child ∧ (drawnAt trees (parent ++ [i])).rect = child.rect.shift x y := by
  rcases List.eq_nil_or_concat parent with rfl | some_
  · refine ⟨trees,PAD_CANVAS,PAD_CANVAS,rooted.apart,fun _ _ some_ => absurd rfl some_,fun i mem => ?_⟩
    obtain ⟨spot,here⟩ := addressSpot.mp mem
    rw [List.nil_append,spotRoot] at here
    obtain ⟨child,isChild,rfl⟩ := Option.map_eq_some_iff.mp here
    refine ⟨child,isChild,?_⟩
    simp only [drawnAt,List.nil_append,spotRoot,isChild]
    exact childRect
  · have some_ : parent ≠ [] := by
      obtain ⟨front,last,rfl⟩ := some_
      simp
    obtain ⟨spot,here⟩ := addressSpot.mp (inner.resolve_left some_)
    obtain ⟨node,measured⟩ := (spotsMeasured rooted.measured).2 spot here
    obtain ⟨_,_,_,fits,_⟩ := measured
    refine ⟨spot.tree.children,spot.x,spot.y,fits.apart,fun tree mem _ => ?_,fun i mem => ?_⟩
    · simp only [drawnAt,here]
      exact shiftWithin (b := spot.box.rect) (fits.inside tree mem)
    · obtain ⟨own,there⟩ := addressSpot.mp mem
      rw [spotAtChild some_,here] at there
      obtain ⟨child,isChild,rfl⟩ := Option.map_eq_some_iff.mp there
      refine ⟨child,isChild,?_⟩
      simp only [drawnAt,spotAtChild some_,here,Option.bind_some,isChild]
      exact childRect

theorem prefixAddress {parent : List Nat} {i : Nat} (mem : parent ++ [i] ∈ sortedAddresses trees) :
    parent = [] ∨ parent ∈ sortedAddresses trees := by
  by_cases none_ : parent = []
  · exact .inl none_
  · obtain ⟨spot,here⟩ := addressSpot.mp mem
    rw [spotAtChild none_] at here
    obtain ⟨own,there,_⟩ := Option.bind_eq_some_iff.mp here
    exact .inr (addressSpot.mpr ⟨own,there⟩)

theorem drawnPositive {address : List Nat} (rooted : Rooted nodes trees) (mem : address ∈ sortedAddresses trees) :
    0 ≤ (drawnAt trees address).x ∧ 0 ≤ (drawnAt trees address).y := by
  obtain ⟨spot,here⟩ := addressSpot.mp mem
  have pad : 0 ≤ PAD_CANVAS := by norm_num [PAD_CANVAS]
  simp only [drawnAt,here]
  cases address with
  | nil => cases here
  | cons i rest =>
    obtain ⟨root,isRoot,below⟩ := Option.bind_eq_some_iff.mp here
    obtain ⟨left,top⟩ := rooted.positive root (List.mem_of_getElem? isRoot)
    rcases pairedAt rooted.measured i with ⟨_,noTree⟩ | ⟨_,made,_,isTree,one⟩
    · rw [noTree] at isRoot
      cases isRoot
    · cases isTree.symm.trans isRoot
      exact spotPositive one (add_nonneg pad left) (add_nonneg pad top) below

theorem treesLaidOut (rooted : Rooted nodes trees) (layout : LayoutGraph)
    (boxes : layout.nodes = ((flattenTrees PAD_CANVAS PAD_CANVAS 0 trees).boxes).mergeSort (fun a b => a.depth ≤ b.depth))
    (right_ : ∀ box ∈ layout.nodes, box.x + box.width ≤ layout.width)
    (bottom_ : ∀ box ∈ layout.nodes, box.y + box.height ≤ layout.height) :
    LaidOut nodes layout (sortedAddresses trees) (drawnAt trees) := by
  have all := boxes.trans sortedBoxes
  refine ⟨?_,fun address => ?_,all,fun address mem => ?_,fun parent i j memI memJ other => ?_,fun parent i memP memI => ?_,
    fun box mem => ?_⟩
  · exact (List.mergeSort_perm _ _).nodup_iff.mpr (locatedTreesOnce PAD_CANVAS PAD_CANVAS 0 0 trees)
  · rw [addressSpot,(@spotsMeasured nodes trees PAD_CANVAS PAD_CANVAS 0 address rooted.measured).1,Option.isSome_map,
      Option.isSome_iff_exists]
  · obtain ⟨spot,here⟩ := addressSpot.mp mem
    rw [(@spotsMeasured nodes trees PAD_CANVAS PAD_CANVAS 0 address rooted.measured).1,drawnAt,here]
    rfl
  · obtain ⟨siblings,x,y,apart,_,spots⟩ := siblingSpots rooted (prefixAddress memI)
    obtain ⟨a,isA,rectA⟩ := spots i memI
    obtain ⟨b,isB,rectB⟩ := spots j memJ
    obtain ⟨smallI,rfl⟩ := List.getElem?_eq_some_iff.mp isA
    obtain ⟨smallJ,rfl⟩ := List.getElem?_eq_some_iff.mp isB
    rw [rectA,rectB]
    refine apartOverlap (shiftApart ?_)
    rcases Nat.lt_or_gt_of_ne other with before | after
    · exact List.pairwise_iff_getElem.mp apart i j smallI smallJ before
    · exact apartSymm (List.pairwise_iff_getElem.mp apart j i smallJ smallI after)
  · have some_ : parent ≠ [] := by
      rintro rfl
      obtain ⟨_,here⟩ := addressSpot.mp memP
      cases here
    obtain ⟨siblings,x,y,_,within,spots⟩ := siblingSpots rooted (.inr memP)
    obtain ⟨child,isChild,rect_⟩ := spots i memI
    rw [rect_]
    exact within child (List.mem_of_getElem? isChild) some_
  · obtain ⟨address,inside,rfl⟩ := List.mem_map.mp (all ▸ mem)
    obtain ⟨left,top⟩ := drawnPositive rooted inside
    refine ⟨left,top,?_,?_⟩
    · exact (right_ _ mem).trans (zero_add layout.width).ge
    · exact (bottom_ _ mem).trans (zero_add layout.height).ge

end Canvas

end Graph

end Dfsm.Extension.Layout
