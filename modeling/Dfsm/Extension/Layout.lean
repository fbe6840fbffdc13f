import Dfsm.Lib.Rects
import Mathlib.Data.Rat.Floor
import Mathlib.Data.List.Sort

/-! The diagram of a machine: the boxes of its states, measured from the leaves up and then
set on the canvas, the lines between regions, the initial markers and the routed edges. -/
namespace Dfsm.Extension.Layout
open Rects

inductive VisualizerNodeKind where
  | atomic | compound | parallel | final | error
  deriving DecidableEq, Repr

structure VisualizerNode where
  id : String
  label : String
  kind : VisualizerNodeKind
  initialChildId : Option String
  entry : List String
  exit : List String
  children : List VisualizerNode

inductive VisualizerEdgeKind where
  | event | onDone | onFail
  deriving DecidableEq, Repr

structure VisualizerEdge where
  id : String
  source : String
  target : String
  edgeKind : VisualizerEdgeKind
  deriving DecidableEq

inductive RootType where
  | compound | parallel
  deriving DecidableEq, Repr

structure VisualizerGraph where
  rootType : RootType
  rootInitialId : Option String
  rootNodes : List VisualizerNode
  edges : List VisualizerEdge

structure Divider where
  x1 : ℚ
  y1 : ℚ
  x2 : ℚ
  y2 : ℚ

structure Marker where
  targetNodeId : String
  dotX : ℚ
  dotY : ℚ
  targetX : ℚ
  targetY : ℚ

structure MeasuredTree where
  node : VisualizerNode
  relX : ℚ
  relY : ℚ
  width : ℚ
  height : ℚ
  headerHeight : ℚ
  children : List MeasuredTree
  dividers : List Divider
  initialMarker : Option Marker

structure NodeBoxLayout where
  node : VisualizerNode
  x : ℚ
  y : ℚ
  width : ℚ
  height : ℚ
  headerHeight : ℚ
  depth : Nat

structure ParallelDividerLayout extends Divider where
  parallelNodeId : String

/-- `pathD` is the line from the dot, four below its centre, to here. -/
structure InitialMarkerLayout where
  ownerId : String
  targetNodeId : String
  dotX : ℚ
  dotY : ℚ
  pathX : ℚ
  pathY : ℚ

/-- `M s C c d, t` -/
structure Cubic where
  sx : ℚ
  sy : ℚ
  cx : ℚ
  cy : ℚ
  dx : ℚ
  dy : ℚ
  tx : ℚ
  ty : ℚ

structure EdgeLayout where
  edge : VisualizerEdge
  pathD : Cubic
  labelX : ℚ
  labelY : ℚ

structure LayoutGraph where
  width : ℚ
  height : ℚ
  nodes : List NodeBoxLayout
  parallelDividers : List ParallelDividerLayout
  initialMarkers : List InitialMarkerLayout
  edges : List EdgeLayout

def H_GAP : ℚ := 64
def V_GAP : ℚ := 86
def CONTAINER_PAD_X : ℚ := 28
def CONTAINER_PAD_BOTTOM : ℚ := 28
def INITIAL_MARKER_SPACE : ℚ := 24
def PARALLEL_REGION_GAP : ℚ := 40
def PAD_CANVAS : ℚ := 48

/-- `Math.round` -/
def round (q : ℚ) : ℚ := (⌊q + 1/2⌋ : ℤ)

def ceil (q : ℚ) : ℚ := (⌈q⌉ : ℤ)

/-- The UTF-16 code units of a text. -/
def codeUnits (text : String) : List Nat :=
  text.toList.flatMap (fun c =>
    if c.toNat < 0x10000 then [c.toNat]
    else [0xD800 + (c.toNat - 0x10000) / 0x400,0xDC00 + (c.toNat - 0x10000) % 0x400])

def length (text : String) : ℚ := (codeUnits text).length

/-- Whether an optional text counts as true. -/
def given (text : Option String) : Option String := text.filter (· ≠ "")

structure LeafSize where
  width : ℚ
  height : ℚ

/-- The header is as high as the leaf. -/
def estimateLeafSize (node : VisualizerNode) : LeafSize :=
  let charWidth : ℚ := 41/5
  let labelWidth := ceil (length node.label * charWidth) + 68
  let hooksTextLen := max
    (if node.entry ≠ [] then length ("entry: " ++ ", ".intercalate node.entry) else 0)
    (if node.exit ≠ [] then length ("exit: " ++ ", ".intercalate node.exit) else 0)
  let hooksWidth := if 0 < hooksTextLen then ceil (hooksTextLen * (34/5)) + 36 else 0
  let height : ℚ := 62 + (if node.entry ≠ [] then 20 else 0) + (if node.exit ≠ [] then 20 else 0)
  { width := max 180 (min 310 (max labelWidth hooksWidth))
    height := if node.kind = .error then max height 68 else height }

def beforeDot (text : List Char) : List Char := text.takeWhile (· ≠ '.')

def topSiblingAncestor (nodeId : String) : Option String → Option String
  | none => some (String.ofList (beforeDot nodeId.toList))
  | some parentId =>
    let top := (parentId ++ ".").toList
    if top.isPrefixOf nodeId.toList then
      some (parentId ++ "." ++ String.ofList (beforeDot (nodeId.toList.drop top.length)))
    else none

section Ranks

abbrev Ranks := List (String × Nat)

variable (ids : List String) (parentId : Option String) (allEdges : List VisualizerEdge)

/-- The sibling an edge leads to from `u`. -/
def successor (u : String) (e : VisualizerEdge) : Option String := do
  let source ← given (topSiblingAncestor e.source parentId)
  let target ← given (topSiblingAncestor e.target parentId)
  if source = u ∧ u ≠ target ∧ target ∈ ids then some target else none

/-- `adj.get(u)`: the edges in two passes, each sibling once. -/
def adj (u : String) : List String :=
  ((allEdges.filter (·.edgeKind ≠ .onFail) ++ allEdges.filter (·.edgeKind = .onFail)).filterMap
    (successor ids parentId u)).eraseDups

def visit (r : Nat) : List String → Ranks → List String → Ranks × List String
  | [], ranks, queue => (ranks,queue)
  | nxt::rest, ranks, queue =>
    if (ranks.lookup nxt).isSome then visit r rest ranks queue
    else visit r rest (ranks ++ [(nxt,r + 1)]) (queue ++ [nxt])

def unranked (ranks : Ranks) : Nat := (ids.filter (fun id => (ranks.lookup id).isNone)).length

theorem adjWithin {u v : String} (next : v ∈ adj ids parentId allEdges u) : v ∈ ids := by
  simp only [adj,List.mem_eraseDups,List.mem_filterMap,successor,bind,Option.bind_eq_some_iff] at next
  obtain ⟨e,_,source,_,target,_,taken⟩ := next
  split at taken
  · rename_i both
    cases taken
    exact both.2.2
  · cases taken

theorem unrankedLess {ranks : Ranks} {id : String} {n : Nat} (mem : id ∈ ids) (fresh : (ranks.lookup id).isNone = true) :
    unranked ids (ranks ++ [(id,n)]) < unranked ids ranks := by
  unfold unranked
  have fewer : ids.filter (fun other => ((ranks ++ [(id,n)]).lookup other).isNone) =
      (ids.filter (fun other => (ranks.lookup other).isNone)).filter (· ≠ id) := by
    rw [List.filter_filter]
    refine List.filter_congr (fun other _ => ?_)
    rw [List.lookup_append]
    cases known : ranks.lookup other with
    | some n => simp
    | none =>
      by_cases same : other = id
      · simp [same,List.lookup_cons]
      · simp [List.lookup_cons,same,beq_eq_false_iff_ne.mpr same]
  rw [fewer]
  refine lt_of_le_of_ne (List.length_filter_le _ _) (fun same => ?_)
  have all := List.length_filter_eq_length_iff.mp same
  have here := all id (List.mem_filter.mpr ⟨mem,fresh⟩)
  simp at here

theorem visitMeasure {r : Nat} {next : List String} {ranks : Ranks} {queue : List String} (within : ∀ v ∈ next, v ∈ ids) :
    unranked ids (visit r next ranks queue).1 + (visit r next ranks queue).2.length ≤ unranked ids ranks + queue.length := by
  induction next generalizing ranks queue with
  | nil => exact le_refl _
  | cons nxt rest ih =>
    have later := fun v mem => within v (List.mem_cons_of_mem _ mem)
    unfold visit
    split
    · exact ih later
    · rename_i fresh
      have less := @unrankedLess ids ranks nxt (r + 1) (within nxt List.mem_cons_self)
        (by rw [Option.not_isSome_iff_eq_none.mp fresh]; rfl)
      have rest_ := @ih (ranks ++ [(nxt,r + 1)]) (queue ++ [nxt]) later
      simp only [List.length_append,List.length_singleton] at rest_
      omega

/-- The breadth-first search from what stands in the queue. -/
def search (ranks : Ranks) (queue : List String) : Ranks :=
  match queue with
  | [] => ranks
  | curr::queue =>
    let next := visit ((ranks.lookup curr).getD 0) (adj ids parentId allEdges curr) ranks queue
    search next.1 next.2
termination_by unranked ids ranks + queue.length
decreasing_by
  have bound := @visitMeasure ids ((ranks.lookup curr).getD 0) (adj ids parentId allEdges curr) ranks queue
    (fun v mem => adjWithin ids parentId allEdges mem)
  simp only [List.length_cons]
  omega

/-- Whoever the search did not find comes below, one to a rank. -/
def rankRest : List String → Nat → Ranks → Ranks
  | [], _, ranks => ranks
  | id::rest, maxRank, ranks =>
    if (ranks.lookup id).isSome then rankRest rest maxRank ranks
    else rankRest rest (maxRank + 1) (ranks ++ [(id,maxRank + 1)])

def ranksOf (initialChildId : Option String) : Ranks :=
  let start := ((given initialChildId).filter (· ∈ ids)).or ids.head?
  let found := search ids parentId allEdges (start.toList.map (·,0)) start.toList
  rankRest ids ((found.map Prod.snd).foldl max 0) found

end Ranks

section Siblings

/-- A child under its place among the children, which stands for the object. -/
structure Item where
  index : Nat
  tree : MeasuredTree

structure Placed where
  item : Item
  relX : ℚ
  relY : ℚ

def totalWidth (row : List Item) : ℚ := (row.map (·.tree.width)).sum + H_GAP * (row.length - 1)

def tallest (row : List Item) : ℚ := row.foldr (fun item acc => max acc item.tree.height) 0

def placeRow (cursorY rowHeight : ℚ) : ℚ → List Item → List Placed
  | _, [] => []
  | cursorX, item::row =>
    ⟨item,cursorX,cursorY + round ((rowHeight - item.tree.height) / 2)⟩::
      placeRow cursorY rowHeight (cursorX + item.tree.width + H_GAP) row

/-- The rows from `cursorY` on, and the cursor below them. -/
def placeRows (maxLayerWidth : ℚ) : ℚ → List (List Item) → List Placed × ℚ
  | cursorY, [] => ([],cursorY)
  | cursorY, row::rows =>
    let below := placeRows maxLayerWidth (cursorY + tallest row + V_GAP) rows
    (placeRow cursorY (tallest row) (round ((maxLayerWidth - totalWidth row) / 2)) row ++ below.1,below.2)

def placeErrors (faultX : ℚ) : ℚ → List Item → List Placed × ℚ
  | faultY, [] => ([],faultY)
  | faultY, errItem::rest =>
    let below := placeErrors faultX (faultY + errItem.tree.height + V_GAP) rest
    (⟨errItem,faultX,faultY⟩::below.1,below.2)

structure Arrangement where
  placed : List Placed
  totalWidth : ℚ
  totalHeight : ℚ

def widest (widths : List ℚ) : ℚ := widths.foldr max 0

def layersOf (ranks : Ranks) (mainNodes : List Item) : List (List Item) :=
  let rank (item : Item) := (ranks.lookup item.tree.node.id).getD 0
  let sortedRanks := ((mainNodes.map rank).eraseDups).mergeSort (· ≤ ·)
  sortedRanks.map (fun r => mainNodes.filter (rank · = r))

def items (measuredChildren : List MeasuredTree) : List Item := measuredChildren.zipIdx.map (fun e => ⟨e.2,e.1⟩)

def isError (item : Item) : Bool := item.tree.node.kind = .error

def arrange (mainNodes errorNodes : List Item) (layers : List (List Item)) : Arrangement :=
  let maxLayerWidth := widest (layers.map Layout.totalWidth)
  let rows := placeRows maxLayerWidth 0 layers
  let mainHeight := if 0 < rows.2 then rows.2 - V_GAP else 0
  if errorNodes = [] then ⟨rows.1,max maxLayerWidth 180,max mainHeight 64⟩ else
  let faultX := if mainNodes ≠ [] then maxLayerWidth + H_GAP + 28 else 0
  let faultY := if mainNodes ≠ [] then max 0 (round (mainHeight * (7/20))) else 0
  let errors := placeErrors faultX faultY errorNodes
  let maxErrWidth := widest (errorNodes.map (·.tree.width))
  ⟨rows.1 ++ errors.1,max (faultX + maxErrWidth) 180,max (max mainHeight (errors.2 - V_GAP)) 64⟩

def arrangeCompoundSiblings (measuredChildren : List MeasuredTree) (parentId initialChildId : Option String)
    (allEdges : List VisualizerEdge) : Arrangement :=
  if measuredChildren = [] then ⟨[],200,80⟩ else
  let mainNodes := (items measuredChildren).filter (!isError ·)
  let errorNodes := (items measuredChildren).filter isError
  let ranks := ranksOf (mainNodes.map (·.tree.node.id)) parentId allEdges initialChildId
  arrange mainNodes errorNodes (layersOf ranks mainNodes)

/-- The children with the positions the arrangement gave them, moved on. -/
def Arrangement.moved (arranged : Arrangement) (shiftX shiftY : ℚ) (measuredChildren : List MeasuredTree) : List MeasuredTree :=
  (items measuredChildren).map (fun item =>
    let spot := arranged.placed.find? (·.item.index = item.index)
    { item.tree with
      relX := spot.elim item.tree.relX (·.relX) + shiftX
      relY := spot.elim item.tree.relY (·.relY) + shiftY })

end Siblings

section Measuring

def leafTree (node : VisualizerNode) : MeasuredTree :=
  let leaf := estimateLeafSize node
  { node, relX := 0, relY := 0, width := leaf.width, height := leaf.height, headerHeight := leaf.height, children := []
    dividers := [], initialMarker := none }

def maxHeight (trees : List MeasuredTree) : ℚ := (trees.map (·.height)).foldr max 0

/-- Regions side by side from `cursorX` on, all of one height, and the cursor after the last. -/
def placeRegions (top maxRegionHeight : ℚ) : ℚ → List MeasuredTree → List MeasuredTree × ℚ
  | cursorX, [] => ([],cursorX)
  | cursorX, [region] =>
    ([{ region with relX := cursorX, relY := top, height := max region.height maxRegionHeight }],cursorX + region.width)
  | cursorX, region::next::rest =>
    let after := placeRegions top maxRegionHeight (cursorX + region.width + PARALLEL_REGION_GAP) (next::rest)
    ({ region with relX := cursorX, relY := top, height := max region.height maxRegionHeight }::after.1,after.2)

/-- A divider after each region but the last. -/
def dividersOf (offset y1 y2 : ℚ) (regions : List MeasuredTree) : List Divider :=
  regions.dropLast.map (fun region =>
    let divX := offset + round (region.relX + region.width + PARALLEL_REGION_GAP / 2)
    ⟨divX,y1,divX,y2⟩)

def headerHeightOf (node : VisualizerNode) : ℚ := if node.entry ≠ [] ∨ node.exit ≠ [] then 58 else 42

def parallelTree (node : VisualizerNode) (measuredChildren : List MeasuredTree) : MeasuredTree :=
  let headerHeight := headerHeightOf node
  let contentTop := headerHeight + 20
  let maxRegionHeight := maxHeight measuredChildren
  let regions := placeRegions contentTop maxRegionHeight CONTAINER_PAD_X measuredChildren
  { node, relX := 0, relY := 0
    width := max (regions.2 + CONTAINER_PAD_X) (length node.label * 9 + 110)
    height := contentTop + maxRegionHeight + CONTAINER_PAD_BOTTOM
    headerHeight
    children := regions.1
    dividers := dividersOf 0 (headerHeight + 8) (contentTop + maxRegionHeight + 12) regions.1
    initialMarker := none }

/-- The marker over the child with this id, at a distance from it. -/
def markerOver (children : List MeasuredTree) (initialChildId : Option String) : Option Marker := do
  let id ← given initialChildId
  let targetChild ← children.find? (·.node.id = id)
  let targetX := targetChild.relX + round (targetChild.width / 2)
  return ⟨targetChild.node.id,targetX,targetChild.relY - 18,targetX,targetChild.relY⟩

def compoundTree (allEdges : List VisualizerEdge) (node : VisualizerNode) (measuredChildren : List MeasuredTree) : MeasuredTree :=
  let headerHeight := headerHeightOf node
  let subBox := arrangeCompoundSiblings measuredChildren (some node.id) node.initialChildId allEdges
  let markerOffset := if (given node.initialChildId).isSome then INITIAL_MARKER_SPACE else 0
  let contentTop := headerHeight + 18 + markerOffset
  let minHeaderWidth := length node.label * 9 + 120
  let innerWidth := max subBox.totalWidth (minHeaderWidth - CONTAINER_PAD_X * 2)
  let shiftX := CONTAINER_PAD_X + round ((innerWidth - subBox.totalWidth) / 2)
  let children := subBox.moved shiftX contentTop measuredChildren
  { node, relX := 0, relY := 0
    width := innerWidth + CONTAINER_PAD_X * 2
    height := contentTop + subBox.totalHeight + CONTAINER_PAD_BOTTOM
    headerHeight
    children
    dividers := []
    initialMarker := markerOver children node.initialChildId }

def measured (allEdges : List VisualizerEdge) (node : VisualizerNode) (measuredChildren : List MeasuredTree) : MeasuredTree :=
  if measuredChildren = [] then leafTree node
  else if node.kind = .parallel then parallelTree node measuredChildren
  else compoundTree allEdges node measuredChildren

variable (allEdges : List VisualizerEdge)

mutual
def measureNodeRecursive : VisualizerNode → MeasuredTree
  | { id, label, kind, initialChildId, entry, exit, children } =>
    measured allEdges ⟨id,label,kind,initialChildId,entry,exit,children⟩ (measureNodes children)
def measureNodes : List VisualizerNode → List MeasuredTree
  | [] => []
  | node::rest => measureNodeRecursive node::measureNodes rest
end

end Measuring

section Drawing

structure Drawn where
  boxes : List NodeBoxLayout := []
  dividers : List ParallelDividerLayout := []
  initialMarkers : List InitialMarkerLayout := []

def Drawn.and (first second : Drawn) : Drawn :=
  ⟨first.boxes ++ second.boxes,first.dividers ++ second.dividers,first.initialMarkers ++ second.initialMarkers⟩

/-- What a tree draws besides its children. -/
def drawnOwn (tree : MeasuredTree) (x y : ℚ) (depth : Nat) : Drawn where
  boxes := [⟨tree.node,x,y,tree.width,tree.height,tree.headerHeight,depth⟩]
  dividers := tree.dividers.map (fun d => { x1 := x + d.x1, y1 := y + d.y1, x2 := x + d.x2, y2 := y + d.y2, parallelNodeId := tree.node.id })
  initialMarkers := tree.initialMarker.toList.map (fun m =>
    { ownerId := tree.node.id, targetNodeId := m.targetNodeId, dotX := x + m.dotX, dotY := y + m.dotY, pathX := x + m.targetX, pathY := y + m.targetY - 2 })

mutual
def flattenMeasuredTree (absX absY : ℚ) (depth : Nat) : MeasuredTree → Drawn
  | { node, relX, relY, width, height, headerHeight, children, dividers, initialMarker } =>
    (drawnOwn ⟨node,relX,relY,width,height,headerHeight,children,dividers,initialMarker⟩ (absX + relX) (absY + relY) depth).and
      (flattenTrees (absX + relX) (absY + relY) (depth + 1) children)
def flattenTrees (absX absY : ℚ) (depth : Nat) : List MeasuredTree → Drawn
  | [] => {}
  | tree::rest => (flattenMeasuredTree absX absY depth tree).and (flattenTrees absX absY depth rest)
end

end Drawing

section Routing

def cubicMidpoint (c : Cubic) : ℚ × ℚ :=
  (round (1/8 * c.sx + 3/8 * c.cx + 3/8 * c.dx + 1/8 * c.tx),round (1/8 * c.sy + 3/8 * c.cy + 3/8 * c.dy + 1/8 * c.ty))

def pairKey (e : VisualizerEdge) : String :=
  if codeUnits e.source < codeUnits e.target then e.source ++ "__" ++ e.target else e.target ++ "__" ++ e.source

/-- Down, up in an arc, or to the side. -/
def routed (src dst : NodeBoxLayout) (idx : Nat) (offset : ℚ) : Cubic :=
  let srcCx := src.x + src.width / 2
  let srcCy := src.y + src.height / 2
  let dstCx := dst.x + dst.width / 2
  let dstCy := dst.y + dst.height / 2
  let dx := dstCx - srcCx
  if src.y + src.height - 10 ≤ dst.y then
    let sx := round (srcCx + offset * (9/20))
    let sy := src.y + src.height
    let tx := round (dstCx + offset * (9/20))
    let ty := dst.y
    let ctrlY := max 32 (round ((ty - sy) * (1/2)))
    ⟨sx,sy,sx + offset * (3/5),sy + ctrlY,tx + offset * (3/5),ty - ctrlY,tx,ty⟩
  else if dst.y + dst.height - 10 ≤ src.y ∧ |dx| < max src.width dst.width then
    let useLeftArc := idx % 2 = 0
    let sx := if useLeftArc then src.x else src.x + src.width
    let sy := round srcCy
    let tx := if useLeftArc then dst.x else dst.x + dst.width
    let ty := round dstCy
    let arcOut := (if useLeftArc then -1 else 1) * (68 + |offset|)
    ⟨sx,sy,sx + arcOut,sy,tx + arcOut,ty,tx,ty⟩
  else
    let goRight := 0 ≤ dx
    let sx := if goRight then src.x + src.width else src.x
    let sy := round (srcCy + offset * (7/20))
    let tx := if goRight then dst.x else dst.x + dst.width
    let ty := round (dstCy + offset * (7/20))
    let spanX := max 44 (round (|tx - sx| * (9/20)))
    ⟨sx,sy,sx + (if goRight then spanX else -spanX),sy + offset * (1/2),tx - (if goRight then spanX else -spanX),ty + offset * (1/2),tx,ty⟩

/-- A loop at the right side of a box. -/
def selfLoop (e : VisualizerEdge) (src : NodeBoxLayout) : EdgeLayout :=
  let sx := src.x + src.width
  let sy := src.y + round (src.height * (7/20))
  let ey := src.y + round (src.height * (7/10))
  let loopW := 54
  { edge := e
    pathD := ⟨sx,sy,sx + loopW,sy - 24,sx + loopW,ey + 24,sx,ey⟩
    labelX := sx + loopW + 8
    labelY := round ((sy + ey) / 2) }

/-- `boxMap`, where the last box of an id stands. -/
def boxOf (boxes : List NodeBoxLayout) (id : String) : Option NodeBoxLayout := boxes.reverse.find? (·.node.id = id)

/-- The n-th edge, among the edges of its pair; none where an end has no box. -/
def routeEdge (edges : List VisualizerEdge) (boxes : List NodeBoxLayout) (n : Nat) (e : VisualizerEdge) : Option EdgeLayout := do
  let src ← boxOf boxes e.source
  let dst ← boxOf boxes e.target
  if e.source = e.target then return selfLoop e src
  let siblings := edges.filter (pairKey · = pairKey e)
  let idx := ((edges.take n).filter (pairKey · = pairKey e)).length
  let offset := round (((idx : ℚ) - (siblings.length - 1) / 2) * 48)
  let pathD := routed src dst idx offset
  return ⟨e,pathD,(cubicMidpoint pathD).1,(cubicMidpoint pathD).2⟩

def routeEdges (edges : List VisualizerEdge) (boxes : List NodeBoxLayout) : List EdgeLayout :=
  edges.zipIdx.filterMap (fun e => routeEdge edges boxes e.2 e.1)

end Routing

section Graph

/-- The roots where they stand on the canvas, with the size of what they fill. -/
structure Roots where
  trees : List MeasuredTree
  canvasContentW : ℚ
  canvasContentH : ℚ
  dividers : List ParallelDividerLayout := []
  initialMarkers : List InitialMarkerLayout := []

def parallelRoots (measuredRoots : List MeasuredTree) : Roots :=
  let maxH := maxHeight measuredRoots
  let regions := placeRegions 0 maxH 0 measuredRoots
  { trees := regions.1
    canvasContentW := regions.2
    canvasContentH := maxH
    dividers := (dividersOf PAD_CANVAS PAD_CANVAS (PAD_CANVAS + maxH) regions.1).map
      (fun d => { d with parallelNodeId := "__root__" }) }

def compoundRoots (graph : VisualizerGraph) (measuredRoots : List MeasuredTree) : Roots :=
  let arranged := arrangeCompoundSiblings measuredRoots none graph.rootInitialId graph.edges
  let rootMarkerSpace := if (given graph.rootInitialId).isSome then INITIAL_MARKER_SPACE else 0
  let trees := arranged.moved 0 rootMarkerSpace measuredRoots
  { trees
    canvasContentW := arranged.totalWidth
    canvasContentH := arranged.totalHeight + rootMarkerSpace
    initialMarkers := (markerOver trees graph.rootInitialId).toList.map (fun m =>
      { ownerId := "__root__", targetNodeId := m.targetNodeId, dotX := PAD_CANVAS + m.dotX, dotY := PAD_CANVAS + m.targetY - 18
        pathX := PAD_CANVAS + m.dotX, pathY := PAD_CANVAS + m.targetY - 2 }) }

def computeGraphLayout (graph : VisualizerGraph) : LayoutGraph :=
  if graph.rootNodes = [] then ⟨480,240,[],[],[],[]⟩ else
  let measuredRoots := measureNodes graph.edges graph.rootNodes
  let roots := if graph.rootType = .parallel then parallelRoots measuredRoots else compoundRoots graph measuredRoots
  let drawn := flattenTrees PAD_CANVAS PAD_CANVAS 0 roots.trees
  let boxes := drawn.boxes.mergeSort (fun a b => a.depth ≤ b.depth)
  let routedEdges := routeEdges graph.edges boxes
  let maxRight := boxes.foldl (fun right b => max right (b.x + b.width + PAD_CANVAS)) (roots.canvasContentW + PAD_CANVAS * 2)
  let maxBottom := boxes.foldl (fun bottom b => max bottom (b.y + b.height + PAD_CANVAS)) (roots.canvasContentH + PAD_CANVAS * 2)
  { width := max 640 (routedEdges.foldl (fun right e => max right (e.labelX + 120)) maxRight)
    height := max 400 (routedEdges.foldl (fun bottom e => max bottom (e.labelY + 60)) maxBottom)
    nodes := boxes
    parallelDividers := roots.dividers ++ drawn.dividers
    initialMarkers := roots.initialMarkers ++ drawn.initialMarkers
    edges := routedEdges }

end Graph

end Dfsm.Extension.Layout
