import Dfsm.Definition.Validate
import Mathlib.Data.List.Sort

/-! The statechart engine: initial configurations, active leaves, event
resolution, configuration rewriting and completion of containers. Where the
source collects effect names node by node, the nodes themselves are returned
and the effects are read off them. -/
namespace Dfsm
open Keyed (Record)

inductive StateValue where
  | str (key : String)
  | obj (entries : List (String × StateValue))

mutual
def StateValue.decEq : (a b : StateValue) → Decidable (a = b)
  | .str a, .str b => if h : a = b then isTrue (by rw [h]) else isFalse (by simpa using h)
  | .obj a, .obj b => match StateValue.decEqEntries a b with
    | isTrue h => isTrue (by rw [h])
    | isFalse h => isFalse (by simpa using h)
  | .str _, .obj _ => isFalse (by simp)
  | .obj _, .str _ => isFalse (by simp)
def StateValue.decEqEntries : (a b : List (String × StateValue)) → Decidable (a = b)
  | [], [] => isTrue rfl
  | (j,v)::a, (k,w)::b => match instDecidableEqString j k, StateValue.decEq v w, StateValue.decEqEntries a b with
    | isTrue hk, isTrue hv, isTrue h => isTrue (by rw [hk,hv,h])
    | isFalse h, _, _ => isFalse (by simp [h])
    | _, isFalse h, _ => isFalse (by simp [h])
    | _, _, isFalse h => isFalse (by simp [h])
  | [], _::_ => isFalse (by simp)
  | _::_, [] => isFalse (by simp)
end

instance : DecidableEq StateValue := StateValue.decEq

def getNodeByPath (machine : RawMachine) (dotPath : String) : Option StateNodeIR :=
  lookupByDotPath machine.states dotPath

/-- `enterSubtree`: the value the node contributes (none for a leaf, whose
parent holds its key) and the entered nodes, top down. -/
structure Entered where
  subValue : Option StateValue
  nodes : List StateNodeIR

def Entered.slot (key : String) (entered : Entered) : StateValue :=
  match entered.subValue with
  | none => .str key
  | some sub => .obj [(key,sub)]

mutual
def enterSubtree : StateNodeIR → Entered
  | { key, path, type, initial, entry, exit, on, onDone, states, isImplicitError } =>
    let node : StateNodeIR := { key, path, type, initial, entry, exit, on, onDone, states, isImplicitError }
    match type with
    | .atomic | .final => ⟨none,[node]⟩
    | .compound => match enterInitial states initial with
      | none => ⟨none,[node]⟩
      | some (childKey,child) => ⟨some (child.slot childKey),node::child.nodes⟩
    | .parallel =>
      let regions := enterRegions states
      ⟨some (.obj (regions.map (fun r => (r.1,r.2.subValue.getD (.str r.1))))),
        node::regions.flatMap (·.2.nodes)⟩
def enterInitial : List (String × StateNodeIR) → Option String → Option (String × Entered)
  | [], _ => none
  | (key,node)::rest, initial =>
    if initial = some key then some (node.key,enterSubtree node) else enterInitial rest initial
def enterRegions : List (String × StateNodeIR) → List (String × Entered)
  | [] => []
  | (key,node)::rest => (key,enterSubtree node)::enterRegions rest
end

def resolveInitialState (machine : RawMachine) : StateValue × List StateNodeIR :=
  match machine.type with
  | .parallel =>
    let regions := enterRegions (machine.states.filter (fun e => !e.2.isImplicitError))
    (.obj (regions.map (fun r => (r.1,r.2.subValue.getD (.str r.1)))),regions.flatMap (·.2.nodes))
  | _ => match enterInitial machine.states machine.initial with
    | none => (.obj [],[])
    | some (key,entered) => (entered.slot key,entered.nodes)

mutual
def getActiveLeafPaths (machine : RawMachine) : StateValue → String → List String
  | .str key, parentPath => [childPath parentPath key]
  | .obj entries, parentPath => leafPathsOfEntries machine entries parentPath
def leafPathsOfEntries (machine : RawMachine) : List (String × StateValue) → String → List String
  | [], _ => []
  | (key,childVal)::rest, parentPath =>
    let currentPath := childPath parentPath key
    (if ((getNodeByPath machine currentPath).map (·.type)) = some .parallel then
      match childVal with
      | .str leaf => getActiveLeafPaths machine (.str leaf) currentPath
      | .obj regions => leafPathsOfRegions machine regions currentPath
    else getActiveLeafPaths machine childVal currentPath) ++
    leafPathsOfEntries machine rest parentPath
def leafPathsOfRegions (machine : RawMachine) : List (String × StateValue) → String → List String
  | [], _ => []
  | (regionKey,regionVal)::rest, currentPath =>
    let regionPath := currentPath ++ "." ++ regionKey
    (if ((getNodeByPath machine regionPath).map (·.isLeaf)) = some true then [regionPath]
    else match regionVal with
      | .str leaf => [regionPath ++ "." ++ leaf]
      | .obj entries => leafPathsOfEntries machine entries regionPath) ++
    leafPathsOfRegions machine rest currentPath
end

/-- Segments of a leaf path from the longest candidate up to the top segment. -/
def candidatePaths (leafPath : String) : List String :=
  let segments := Dotted.split leafPath
  (List.range segments.length).reverse.map (fun i => Dotted.join (segments.take (i+1)))

def insideSubtree (subtreePrefix path : String) : Bool :=
  subtreePrefix = "" || path = subtreePrefix || Dotted.under subtreePrefix path

/- `visited` keeps the first occurrence of a path; leaving the subtree ends a leaf's walk. -/
def exitPaths (machine : RawMachine) (stateValue : StateValue) (subtreePrefix : String) : List String :=
  (((getActiveLeafPaths machine stateValue "").filter (insideSubtree subtreePrefix)).flatMap
    (fun leafPath => (candidatePaths leafPath).takeWhile (insideSubtree subtreePrefix))).eraseDups

def exitNodes (machine : RawMachine) (stateValue : StateValue) (subtreePrefix : String) : List StateNodeIR :=
  (exitPaths machine stateValue subtreePrefix).filterMap (getNodeByPath machine)

def collectBottomUpExitEffects (machine : RawMachine) (stateValue : StateValue)
    (subtreePrefix : String) : List String :=
  (exitNodes machine stateValue subtreePrefix).flatMap (·.exit)

structure MatchedTransition where
  sourceNode : StateNodeIR
  edge : TransitionEdgeIR

/-- The names `node.on[event]` finds on every object, declared or not. -/
def inheritedNames : List String :=
  ["constructor","__defineGetter__","__defineSetter__","hasOwnProperty","__lookupGetter__","__lookupSetter__",
    "isPrototypeOf","propertyIsEnumerable","toString","valueOf","__proto__","toLocaleString"]

/-- A function, or the prototype itself: no field of an edge, and an `event` that prints as this. -/
def inheritedEdge : TransitionEdgeIR := { event := "undefined" }

/-- The edge a node itself has for the event. -/
def selfMatch (node : StateNodeIR) (event : String) : List MatchedTransition :=
  match Keyed.get node.on event with
  | some edge => [⟨node,edge⟩]
  | none => if inheritedNames.contains event then [⟨node,inheritedEdge⟩] else []

mutual
def searchInSubtree (event : String) : StateNodeIR → Option StateValue → List MatchedTransition
  | { key, path, type, initial, entry, exit, on, onDone, states, isImplicitError }, subVal =>
    let node : StateNodeIR := { key, path, type, initial, entry, exit, on, onDone, states, isImplicitError }
    match type with
    | .atomic | .final => selfMatch node event
    | .compound =>
      let childMatches := match subVal with
        | none => []
        | some (.str child) => searchChild event states child none
        | some (.obj entries) =>
          ((entries.map (fun e => searchChild event states e.1 (some e.2))).find? (fun ms => !ms.isEmpty)).getD []
      if childMatches.isEmpty then selfMatch node event else childMatches
    | .parallel =>
      let regionMap := match subVal with
        | some (.obj entries) => entries
        | _ => []
      let regionMatches := searchRegions event states regionMap
      if regionMatches.isEmpty then selfMatch node event else regionMatches
def searchChild (event : String) : List (String × StateNodeIR) → String → Option StateValue →
    List MatchedTransition
  | [], _, _ => []
  | (key,node)::rest, child, subVal =>
    if child = key then searchInSubtree event node subVal else searchChild event rest child subVal
def searchRegions (event : String) : List (String × StateNodeIR) → Record StateValue →
    List MatchedTransition
  | [], _ => []
  | (key,node)::rest, regionMap =>
    searchInSubtree event node (if node.isLeaf then none else Keyed.get regionMap key) ++
    searchRegions event rest regionMap
end

def resolveTransitionsForEvent (machine : RawMachine) (stateValue : StateValue) (event : String) :
    List MatchedTransition :=
  match stateValue with
  | .str child => match Keyed.get machine.states child with
    | none => []
    | some rootChild => searchInSubtree event rootChild none
  | .obj entries => entries.flatMap (fun e => match Keyed.get machine.states e.1 with
    | none => []
    | some rootChild => searchInSubtree event rootChild (if rootChild.isLeaf then none else some e.2))

/-- The while loop over both paths; the common part stays strictly above both ends. -/
def commonSegments : List String → List String → List String
  | s::s'::src, t::t'::tgt => if s = t then t::commonSegments (s'::src) (t'::tgt) else []
  | _, _ => []

/-- `regionKey in branch ? branch[regionKey] : branch` -/
def regionValue (branch : StateValue) (regionKey : String) : StateValue :=
  match branch with
  | .str _ => branch
  | .obj entries => (Keyed.get entries regionKey).getD branch

def extractCursor : StateValue → List String → Option StateValue
  | cursor, [] => some cursor
  | .str _, _::_ => none
  | .obj entries, part::rest => (Keyed.get entries part).bind (extractCursor · rest)

def extractSubStateObject (rootVal : StateValue) (dotPath : String) : Record StateValue :=
  match extractCursor rootVal (Dotted.parts dotPath) with
  | some (.obj entries) => entries
  | _ => []

/-- The loop over `tgtParts` from the target's container up to the LCA's child:
`front` are the segments above, the list is what is left of the target path. -/
def builtBranch (machine : RawMachine) (currentStateValue enteredTarget : StateValue)
    (front : List String) : List String → StateValue
  | ancestorKey::regionKey::rest =>
    let branch := builtBranch machine currentStateValue enteredTarget (front ++ [ancestorKey]) (regionKey::rest)
    let ancestorPath := Dotted.join (front ++ [ancestorKey])
    if (getNodeByPath machine ancestorPath).map (·.type) = some .parallel then
      .obj [(ancestorKey,.obj (Keyed.set (extractSubStateObject currentStateValue ancestorPath)
        regionKey (regionValue branch regionKey)))]
    else .obj [(ancestorKey,branch)]
  | _ => enteredTarget

/-- `typeof current === "object" ? { ...current, [key]: value } : { [key]: value }` -/
def withEntry (current : StateValue) (key : String) (value : StateValue) : StateValue :=
  match current with
  | .str _ => .obj [(key,value)]
  | .obj entries => .obj (Keyed.set entries key value)

def entryAt (current : StateValue) (key : String) : Option StateValue :=
  match current with
  | .str _ => none
  | .obj entries => Keyed.get entries key

def replaceAtLca (machine : RawMachine) (current : StateValue) (front : List String)
    (replacementBranch : StateValue) : List String → StateValue
  | [] => replacementBranch
  | [key] =>
    let node := getNodeByPath machine (Dotted.join (front ++ [key]))
    match node.map (·.type), current, replacementBranch with
    | some StateNodeType.parallel, .obj entries, .obj ((repRegionKey,repRegionVal)::_) =>
      let parallelRegions := match Keyed.get entries key with
        | some (.obj regions) => regions
        | _ => []
      .obj (Keyed.set entries key (.obj (Keyed.set parallelRegions repRegionKey repRegionVal)))
    | _, _, _ => withEntry current key replacementBranch
  | key::next::rest =>
    let childCurrent := (entryAt current key).getD (.str "")
    withEntry current key (replaceAtLca machine childCurrent (front ++ [key]) replacementBranch (next::rest))

structure AppliedTransition where
  targetPath : String
  nextStateValue : StateValue
  exited : List StateNodeIR
  entered : List StateNodeIR

def AppliedTransition.exitEffects (applied : AppliedTransition) : List String :=
  applied.exited.flatMap (·.exit)

def AppliedTransition.entryEffects (applied : AppliedTransition) : List String :=
  applied.entered.flatMap (·.entry)

/-- `srcParts.slice(0, commonLen + 1).join(".")`, or the source path itself -/
def exitingRootPath (sourceStatePath : String) (commonLen : Nat) : String :=
  let srcParts := Dotted.parts sourceStatePath
  if srcParts.length > commonLen then Dotted.join (srcParts.take (commonLen+1)) else sourceStatePath

def nextStateValue (machine : RawMachine) (currentStateValue : StateValue)
    (lcaParts tgtParts : List String) (branch : StateValue) : StateValue :=
  match lcaParts, machine.type, currentStateValue with
  | [], .parallel, .obj entries =>
    .obj (Keyed.set entries (tgtParts.headD "") (regionValue branch (tgtParts.headD "")))
  | [], _, _ => branch
  | _::_, _, _ => replaceAtLca machine currentStateValue [] branch lcaParts

/-- None where the source throws `Cannot resolve target`. -/
def applyTargetTransition (machine : RawMachine) (currentStateValue : StateValue)
    (sourceStatePath targetRef : String) : Option AppliedTransition :=
  match given (resolveTargetStatePath machine sourceStatePath targetRef) with
  | none => none
  | some targetPath =>
    let tgtParts := Dotted.parts targetPath
    let lcaParts := commonSegments (Dotted.parts sourceStatePath) tgtParts
    let commonLen := lcaParts.length
    match getNodeByPath machine targetPath with
    | none => none
    | some targetNode =>
      let enteredTarget := enterSubtree targetNode
      let ancestors := (List.range (tgtParts.length - 1)).filterMap (fun i =>
        if commonLen ≤ i then getNodeByPath machine (Dotted.join (tgtParts.take (i+1))) else none)
      let branch := builtBranch machine currentStateValue (enteredTarget.slot targetNode.key)
        lcaParts (tgtParts.drop commonLen)
      some {
        targetPath
        nextStateValue := nextStateValue machine currentStateValue lcaParts tgtParts branch
        exited := exitNodes machine currentStateValue (exitingRootPath sourceStatePath commonLen)
        entered := ancestors ++ enteredTarget.nodes }

/-- Event names accepted from the value, those of a leaf before those of its ancestors. -/
def getAvailableEvents (machine : RawMachine) (stateValue : StateValue) : List String :=
  ((getActiveLeafPaths machine stateValue "").flatMap (fun leafPath =>
    let parts := Dotted.parts leafPath
    (List.range parts.length).reverse.flatMap (fun i =>
      match getNodeByPath machine (Dotted.join (parts.take (i+1))) with
      | none => []
      | some node => if node.type = .final then [] else Keyed.keys node.on))).eraseDups

def isBranchFinalAt (machine : RawMachine) (regionPath leafPath : String) : Bool :=
  match getNodeByPath machine leafPath with
  | none => false
  | some leafNode =>
    leafNode.type = .final && (match getNodeByPath machine regionPath with
      | none => false
      | some regionNode => match regionNode.type with
        | .final => true
        | .compound => leafPath = regionPath ++ "." ++ leafNode.key
        | _ => false)

def isFinalAt (machine : RawMachine) (path : String) : Bool :=
  (getNodeByPath machine path).map (·.type) = some .final

/-- All leaves of the region, of which there is one, complete it. -/
def regionDone (machine : RawMachine) (leaves : List String) (region : StateNodeIR) : Bool :=
  let regionLeaves := leaves.filter (fun l => l = region.path || Dotted.under region.path l)
  !regionLeaves.isEmpty && regionLeaves.all (isBranchFinalAt machine region.path)

/-- The test of one candidate container against the active leaves. -/
def containerDone (machine : RawMachine) (leaves : List String) (containerPath : String)
    (containerNode : StateNodeIR) : Bool :=
  match containerNode.type with
  | .compound => match leaves.filter (Dotted.under containerPath) with
    | [leaf] => isFinalAt machine leaf
    | _ => false
  | .parallel => containerNode.states.all (fun e => regionDone machine leaves e.2)
  | _ => false

def candidateContainers (leaves : List String) : List String :=
  (leaves.flatMap (fun leaf => (candidatePaths leaf).tail)).eraseDups

def deeperFirst (a b : String) : Prop := (Dotted.split b).length ≤ (Dotted.split a).length
instance : DecidableRel deeperFirst := fun _ _ => inferInstanceAs (Decidable (_ ≤ _))

def findPendingOnDone (machine : RawMachine) (stateValue : StateValue) : Option MatchedTransition :=
  let leaves := getActiveLeafPaths machine stateValue ""
  ((candidateContainers leaves).insertionSort deeperFirst).findSome? (fun containerPath =>
    match getNodeByPath machine containerPath with
    | none => none
    | some containerNode => match containerNode.onDone with
      | none => none
      | some edge => if containerDone machine leaves containerPath containerNode then
          some ⟨containerNode,edge⟩ else none)

inductive TransactionStatus where
  | IDLE | IN_FLIGHT | COMPLETED | COMPENSATING | COMPENSATED | FAILED
  deriving DecidableEq, Repr

def TransactionStatus.IsSettled (status : TransactionStatus) : Prop :=
  status = .IDLE ∨ status = .COMPLETED ∨ status = .COMPENSATED ∨ status = .FAILED

def resolveSettledTransactionStatus (machine : RawMachine) (stateValue : StateValue)
    (wasCompensated : Bool) : TransactionStatus :=
  if wasCompensated then .COMPENSATED
  else if stateValue = .str "error" && Keyed.has machine.states "error" then .FAILED
  else
    let leaves := getActiveLeafPaths machine stateValue ""
    if !leaves.isEmpty && leaves.all (isFinalAt machine) then .COMPLETED else .IDLE

end Dfsm
