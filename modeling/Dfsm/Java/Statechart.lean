import Dfsm.Java.Machine
import Dfsm.Engine.Statechart

/-! The statechart engine of the Java SDK, over the definitions and state values that the
reference engine has. -/
namespace Dfsm.Java
open Keyed (Record)

def getNodeByPath (machine : RawMachine) (dotPath : String) : Option StateNodeIR :=
  if isBlank dotPath then none else lookupParts machine.states none ((split dotPath).filter (· != ""))

structure SubtreeEntry where
  subValue : Option StateValue
  entryEffects : List String

/-- The value of a child under its own key. -/
def SubtreeEntry.under (key : String) (entered : SubtreeEntry) : StateValue :=
  match entered.subValue with
  | none => .str key
  | some sub => .obj [(key,sub)]

mutual
def enterSubtree : StateNodeIR → SubtreeEntry
  | { key := _, path := _, type, initial, entry, exit := _, on := _, onDone := _, states, isImplicitError := _ } =>
    match type with
    | .atomic | .final => ⟨none,entry⟩
    | .compound => match enterInitial states initial with
      | none => ⟨none,entry⟩
      | some (childKey,enteredChild) => ⟨some (enteredChild.under childKey),entry ++ enteredChild.entryEffects⟩
    | .parallel =>
      let regions := enterRegions states
      ⟨some (.obj (regions.map (fun r => (r.1,r.2.subValue.getD (.str r.1))))),entry ++ regions.flatMap (·.2.entryEffects)⟩
def enterInitial : List (String × StateNodeIR) → Option String → Option (String × SubtreeEntry)
  | [], _ => none
  | (key,node)::rest, initial => if initial = some key then some (node.key,enterSubtree node) else enterInitial rest initial
def enterRegions : List (String × StateNodeIR) → List (String × SubtreeEntry)
  | [] => []
  | (key,node)::rest => (key,enterSubtree node)::enterRegions rest
end

structure InitialResolution where
  stateValue : StateValue
  entryEffects : List String

/-- None where there is no initial node to enter. -/
def resolveInitialState (machine : RawMachine) : Option InitialResolution :=
  match machine.type with
  | .parallel =>
    let regions := enterRegions (machine.states.filter (fun e => !e.2.isImplicitError))
    some ⟨.obj (regions.map (fun r => (r.1,r.2.subValue.getD (.str r.1)))),regions.flatMap (·.2.entryEffects)⟩
  | .compound => (enterInitial machine.states machine.initial).map (fun e => ⟨e.2.under e.1,e.2.entryEffects⟩)

def isLeaf (node : StateNodeIR) : Bool := node.type = .atomic || node.type = .final

mutual
def getActiveLeafPaths (machine : RawMachine) : StateValue → String → List String
  | .str leaf, parentPath => [if parentPath = "" then leaf else parentPath ++ "." ++ leaf]
  | .obj entries, parentPath => leafPathsOfEntries machine entries parentPath
def leafPathsOfEntries (machine : RawMachine) : List (String × StateValue) → String → List String
  | [], _ => []
  | (key,childVal)::rest, parentPath =>
    let currentPath := if parentPath = "" then key else parentPath ++ "." ++ key
    (match childVal with
      | .str leaf => getActiveLeafPaths machine (.str leaf) currentPath
      | .obj entries =>
        if (getNodeByPath machine currentPath).any (·.type = .parallel) then leafPathsOfRegions machine entries currentPath
        else leafPathsOfEntries machine entries currentPath) ++
    leafPathsOfEntries machine rest parentPath
def leafPathsOfRegions (machine : RawMachine) : List (String × StateValue) → String → List String
  | [], _ => []
  | (regionKey,regionVal)::rest, currentPath =>
    let regionPath := currentPath ++ "." ++ regionKey
    (if (getNodeByPath machine regionPath).any isLeaf then [regionPath]
    else match regionVal with
      | .str leaf => [regionPath ++ "." ++ leaf]
      | .obj entries => leafPathsOfEntries machine entries regionPath) ++
    leafPathsOfRegions machine rest currentPath
end

/-- The joins of the first `len` segments, for every `len` from the number of segments down. -/
def candidatePaths (leafPath : String) : List String :=
  let segments := split leafPath
  (List.range segments.length).reverse.map (fun i => Dotted.join (segments.take (i+1)))

def inSubtree (subtreePrefix path : String) : Bool :=
  subtreePrefix = "" || path = subtreePrefix || Dotted.under subtreePrefix path

/- `visited` keeps the first occurrence of a path; leaving the subtree ends a leaf's walk. -/
def collectBottomUpExitEffects (machine : RawMachine) (stateValue : StateValue) (subtreePrefix : String) : List String :=
  (((getActiveLeafPaths machine stateValue "").filter (inSubtree subtreePrefix)).flatMap
    (fun leafPath => (candidatePaths leafPath).takeWhile (inSubtree subtreePrefix))).eraseDups.flatMap
      (fun candidatePath => ((getNodeByPath machine candidatePath).map (·.exit)).getD [])

/-- The edge that a node itself has for the event. -/
def ownMatch (node : StateNodeIR) (event : String) : List MatchedTransition :=
  match Keyed.get node.on event with
  | some edge => [⟨node,edge⟩]
  | none => []

mutual
def searchInSubtree (event : String) : StateNodeIR → Option StateValue → List MatchedTransition
  | { key, path, type, initial, entry, exit, on, onDone, states, isImplicitError }, subVal =>
    let node : StateNodeIR := { key, path, type, initial, entry, exit, on, onDone, states, isImplicitError }
    match type with
    | .atomic | .final => ownMatch node event
    | .compound =>
      let childMatches := match subVal with
        | none => []
        | some (.str child) => searchChild event states child none
        | some (.obj entries) =>
          ((entries.map (fun e => searchChild event states e.1 (some e.2))).find? (fun ms => !ms.isEmpty)).getD []
      if childMatches.isEmpty then ownMatch node event else childMatches
    | .parallel =>
      let regionMap := match subVal with
        | some (.obj entries) => entries
        | _ => []
      let regionMatches := searchRegions event states regionMap
      if regionMatches.isEmpty then ownMatch node event else regionMatches
def searchChild (event : String) : List (String × StateNodeIR) → String → Option StateValue → List MatchedTransition
  | [], _, _ => []
  | (key,node)::rest, child, subVal =>
    if child = key then searchInSubtree event node subVal else searchChild event rest child subVal
def searchRegions (event : String) : List (String × StateNodeIR) → Record StateValue → List MatchedTransition
  | [], _ => []
  | (key,node)::rest, regionMap =>
    searchInSubtree event node (if isLeaf node then none else Keyed.get regionMap key) ++ searchRegions event rest regionMap
end

def resolveTransitionsForEvent (machine : RawMachine) (stateValue : StateValue) (event : String) : List MatchedTransition :=
  match stateValue with
  | .str child => match Keyed.get machine.states child with
    | none => []
    | some rootChild => searchInSubtree event rootChild none
  | .obj entries => entries.flatMap (fun e => match Keyed.get machine.states e.1 with
    | none => []
    | some rootChild => searchInSubtree event rootChild (if isLeaf rootChild then none else some e.2))

structure AppliedTransition where
  targetPath : String
  nextStateValue : StateValue
  exitEffects : List String
  entryEffects : List String
  deriving DecidableEq

/-- The while loop over both paths, for as many segments as `maxCommon` allows. -/
def commonLen : Nat → List String → List String → Nat
  | maxCommon+1, s::src, t::tgt => if s = t then commonLen maxCommon src tgt + 1 else 0
  | _, _, _ => 0

/-- `branch.asMap().containsKey(key) ? branch.asMap().get(key) : branch` -/
def regionVal (branch : StateValue) (key : String) : StateValue :=
  match branch with
  | .str _ => branch
  | .obj entries => (Keyed.get entries key).getD branch

def extractCursor : StateValue → List String → Option StateValue
  | cursor, [] => some cursor
  | .str _, _::_ => none
  | .obj entries, part::rest => (Keyed.get entries part).bind (extractCursor · rest)

def extractSubStateMap (rootVal : StateValue) (dotPath : String) : Record StateValue :=
  match extractCursor rootVal ((split dotPath).filter (· != "")) with
  | some (.obj entries) => entries
  | _ => []

/-- The loop from the target's container up to the LCA's child: `front` are the segments above,
the list is what is left of the target path. -/
def builtBranch (machine : RawMachine) (currentStateValue enteredTarget : StateValue) (front : List String) : List String → StateValue
  | ancestorKey::regionKey::rest =>
    let branch := builtBranch machine currentStateValue enteredTarget (front ++ [ancestorKey]) (regionKey::rest)
    let ancestorPath := Dotted.join (front ++ [ancestorKey])
    if (getNodeByPath machine ancestorPath).any (·.type = .parallel) then
      .obj [(ancestorKey,.obj (put (extractSubStateMap currentStateValue ancestorPath) regionKey (regionVal branch regionKey)))]
    else .obj [(ancestorKey,branch)]
  | _ => enteredTarget

/-- `current` with a value put under the key, a map of its own where it is a leaf. -/
def putInto (current : StateValue) (key : String) (value : StateValue) : StateValue :=
  match current with
  | .str _ => .obj [(key,value)]
  | .obj entries => .obj (put entries key value)

def childOf (current : StateValue) (key : String) : StateValue :=
  match current with
  | .str _ => .str ""
  | .obj entries => (Keyed.get entries key).getD (.str "")

def replaceAtLca (machine : RawMachine) (current : StateValue) (front : List String) (replacementBranch : StateValue) :
    List String → StateValue
  | [] => replacementBranch
  | [key] =>
    let parallel := (getNodeByPath machine (Dotted.join (front ++ [key]))).any (·.type = .parallel)
    match parallel, current, replacementBranch with
    | true, .obj entries, .obj ((repKey,repValue)::_) =>
      let regions := match Keyed.get entries key with
        | some (.obj regions) => regions
        | _ => []
      .obj (put entries key (.obj (put regions repKey repValue)))
    | _, _, _ => putInto current key replacementBranch
  | key::next::rest =>
    putInto current key (replaceAtLca machine (childOf current key) (front ++ [key]) replacementBranch (next::rest))

def nextStateValue (machine : RawMachine) (currentStateValue : StateValue) (lcaParts tgtParts : List String) (branch : StateValue) :
    StateValue :=
  match lcaParts, machine.type, currentStateValue with
  | [], .parallel, .obj entries => .obj (put entries (tgtParts.headD "") (regionVal branch (tgtParts.headD "")))
  | [], _, _ => branch
  | _::_, _, _ => replaceAtLca machine currentStateValue [] branch lcaParts

/-- None where the source throws. -/
def applyTargetTransition (machine : RawMachine) (currentStateValue : StateValue) (sourceStatePath targetRef : String) :
    Option AppliedTransition :=
  match resolveTargetStatePath machine sourceStatePath targetRef with
  | none => none
  | some targetPath =>
    let srcParts := split sourceStatePath
    let tgtParts := split targetPath
    let commonLen := commonLen (min srcParts.length tgtParts.length - 1) srcParts tgtParts
    let exitingRootPath := if srcParts.length > commonLen then Dotted.join (srcParts.take (commonLen+1)) else sourceStatePath
    match getNodeByPath machine targetPath with
    | none => none
    | some targetNode =>
      let enteredTarget := enterSubtree targetNode
      let ancestors := (List.range (tgtParts.length - 1)).flatMap (fun i => if commonLen ≤ i then
        ((getNodeByPath machine (Dotted.join (tgtParts.take (i+1)))).map (·.entry)).getD [] else [])
      let branch := builtBranch machine currentStateValue (enteredTarget.under targetNode.key) (tgtParts.take commonLen)
        (tgtParts.drop commonLen)
      some {
        targetPath
        nextStateValue := nextStateValue machine currentStateValue (tgtParts.take commonLen) tgtParts branch
        exitEffects := collectBottomUpExitEffects machine currentStateValue exitingRootPath
        entryEffects := ancestors ++ enteredTarget.entryEffects }

def isFinalAt (machine : RawMachine) (path : String) : Bool := (getNodeByPath machine path).any (·.type = .final)

def isBranchFinalAt (machine : RawMachine) (regionPath leafPath : String) : Bool :=
  (getNodeByPath machine leafPath).any (fun leafNode => leafNode.type = .final &&
    (getNodeByPath machine regionPath).any (fun regionNode => match regionNode.type with
      | .final => true
      | .compound => leafPath = regionPath ++ "." ++ leafNode.key
      | _ => false))

def regionDone (machine : RawMachine) (leaves : List String) (region : StateNodeIR) : Bool :=
  let regionLeaves := leaves.filter (fun l => l = region.path || Dotted.under region.path l)
  !regionLeaves.isEmpty && regionLeaves.all (isBranchFinalAt machine region.path)

/-- The test of one candidate container against the active leaves. -/
def containerDone (machine : RawMachine) (leaves : List String) (containerPath : String) (containerNode : StateNodeIR) : Bool :=
  match containerNode.type with
  | .compound => match leaves.filter (Dotted.under containerPath) with
    | [leaf] => isFinalAt machine leaf
    | _ => false
  | .parallel => containerNode.states.all (fun e => regionDone machine leaves e.2)
  | _ => false

def candidateContainers (leaves : List String) : List String := (leaves.flatMap (fun leaf => (candidatePaths leaf).tail)).eraseDups

def deeper (a b : String) : Prop := (split b).length ≤ (split a).length
instance : DecidableRel deeper := fun _ _ => inferInstanceAs (Decidable (_ ≤ _))

def findPendingOnDone (machine : RawMachine) (stateValue : StateValue) : Option MatchedTransition :=
  let leaves := getActiveLeafPaths machine stateValue ""
  ((candidateContainers leaves).insertionSort deeper).findSome? (fun containerPath => do
    let containerNode ← getNodeByPath machine containerPath
    let onDone ← containerNode.onDone
    if containerDone machine leaves containerPath containerNode then some ⟨containerNode,onDone⟩ else none)

def resolveSettledTransactionStatus (machine : RawMachine) (stateValue : StateValue) (wasCompensated : Bool) : TransactionStatus :=
  if wasCompensated then .COMPENSATED
  else if stateValue = .str "error" && Keyed.has machine.states "error" then .FAILED
  else
    let leaves := getActiveLeafPaths machine stateValue ""
    if !leaves.isEmpty && leaves.all (isFinalAt machine) then .COMPLETED else .IDLE

def getAvailableEvents (machine : RawMachine) (stateValue : StateValue) : List String :=
  ((getActiveLeafPaths machine stateValue "").flatMap (fun leafPath => (candidatePaths leafPath).flatMap (fun candidatePath =>
    match getNodeByPath machine candidatePath with
    | none => []
    | some node => if node.type = .final then [] else Keyed.keys node.on))).eraseDups

end Dfsm.Java
