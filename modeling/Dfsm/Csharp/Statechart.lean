import Dfsm.Go.Statechart
import Dfsm.Csharp.Machine

/-! The statechart engine of the C# SDK. -/
namespace Dfsm.Csharp
open Keyed (Record)
open Go (leaf singleNested SubtreeEntry)

structure MatchedTransition where
  sourceNode : StateDefinition
  edge : TransitionDefinition
  sourcePath : String

structure AppliedTransition where
  targetPath : String
  nextStateValue : StateValue
  exitEffects : List String
  entryEffects : List String

/-- The value of a parallel state and the effects of its regions. -/
def regionsOf (entered : Record SubtreeEntry) : StateValue × List String :=
  (.obj (entered.map (fun e => (e.1,e.2.subValue.getD (leaf e.1)))),entered.flatMap (·.2.entryEffects))

mutual
def enterSubtree : StateDefinition → SubtreeEntry
  | { id, type, initial, states, on, onDone, entry, exit } =>
    let node : StateDefinition := { id, type, initial, states, on, onDone, entry, exit }
    if !node.isCompound && !node.isParallel then ⟨none,entry⟩
    else if node.isCompound then
      match given initial with
      | none => ⟨none,entry⟩
      | some initial => match enterChild initial states with
        | none => ⟨none,entry⟩
        | some (childId,enteredChild) => ⟨some (enteredChild.at childId),entry ++ enteredChild.entryEffects⟩
    else
      let (parallelMap,entryEffects) := regionsOf (enterStates states)
      ⟨some parallelMap,entry ++ entryEffects⟩
def enterChild (initial : String) : List (String × StateDefinition) → Option (String × SubtreeEntry)
  | [] => none
  | (k,child)::rest => if k = initial then some (child.id,enterSubtree child) else enterChild initial rest
def enterStates : List (String × StateDefinition) → Record SubtreeEntry
  | [] => []
  | (k,region)::rest => (k,enterSubtree region)::enterStates rest
end

/-- None where the initial state is missing and the dictionary throws. -/
def resolveInitialState (m : MachineDefinition) : Option (StateValue × List String) :=
  if isType m.type "parallel" then some (regionsOf (enterStates (m.states.filter (fun e => e.1 != "error"))))
  else (enterChild m.initial m.states).map (fun (id,enteredRoot) => (enteredRoot.at id,enteredRoot.entryEffects))

mutual
def activeLeafPaths (m : MachineDefinition) : StateValue → String → List String
  | .str leaf, parentPath => [childPath parentPath leaf]
  | .obj entries, parentPath => leafPathsBelow m entries parentPath
def leafPathsBelow (m : MachineDefinition) : List (String × StateValue) → String → List String
  | [], _ => []
  | (key,childVal)::rest, parentPath =>
    let currentPath := childPath parentPath key
    (if (getNodeByPath m currentPath).any (·.isParallel) then
      match childVal with
      | .str leaf => activeLeafPaths m (.str leaf) currentPath
      | .obj regions => leafPathsRegions m regions currentPath
    else activeLeafPaths m childVal currentPath) ++ leafPathsBelow m rest parentPath
def leafPathsRegions (m : MachineDefinition) : List (String × StateValue) → String → List String
  | [], _ => []
  | (regKey,regVal)::rest, currentPath =>
    let regionPath := currentPath ++ "." ++ regKey
    (if (getNodeByPath m regionPath).any (fun regNode => !regNode.isCompound && !regNode.isParallel) then [regionPath]
    else match regVal with
      | .str leaf => [regionPath ++ "." ++ leaf]
      | .obj entries => leafPathsBelow m entries regionPath) ++ leafPathsRegions m rest currentPath
end

def getActiveLeafPaths (m : MachineDefinition) (sv : StateValue) : List String := activeLeafPaths m sv ""

/-- The first edge of a state itself for the event. -/
def selfMatch (node : StateDefinition) (eventName currentPath : String) : List MatchedTransition :=
  match Keyed.get node.on eventName with
  | some (edge::_) => [⟨node,edge,currentPath⟩]
  | _ => []

mutual
def searchInSubtree (eventName : String) : StateDefinition → Option StateValue → String → List MatchedTransition
  | { id, type, initial, states, on, onDone, entry, exit }, subVal, currentPath =>
    let node : StateDefinition := { id, type, initial, states, on, onDone, entry, exit }
    if !node.isCompound && !node.isParallel then selfMatch node eventName currentPath
    else if node.isCompound then
      let childMatches := match subVal with
        | none => []
        | some (.str atomic) => searchChild eventName states atomic none currentPath
        | some (.obj entries) =>
          ((entries.map (fun e => searchChild eventName states e.1 (some e.2) currentPath)).find? (fun found => !found.isEmpty)).getD []
      if !childMatches.isEmpty then childMatches else selfMatch node eventName currentPath
    else
      let regionMap := match subVal with
        | some (.obj entries) => entries
        | _ => []
      let regionMatches := searchRegions eventName states regionMap currentPath
      if !regionMatches.isEmpty then regionMatches else selfMatch node eventName currentPath
def searchChild (eventName : String) : List (String × StateDefinition) → String → Option StateValue → String → List MatchedTransition
  | [], _, _, _ => []
  | (k,child)::rest, key, subVal, currentPath =>
    if k = key then searchInSubtree eventName child subVal (currentPath ++ "." ++ child.id)
    else searchChild eventName rest key subVal currentPath
def searchRegions (eventName : String) : List (String × StateDefinition) → Record StateValue → String → List MatchedTransition
  | [], _, _ => []
  | (k,region)::rest, regionMap, currentPath =>
    let normalized := if region.isCompound || region.isParallel then Keyed.get regionMap k else none
    searchInSubtree eventName region normalized (currentPath ++ "." ++ region.id) ++ searchRegions eventName rest regionMap currentPath
end

def resolveTransitionsForEvent (m : MachineDefinition) (sv : StateValue) (eventName : String) : List MatchedTransition :=
  match sv with
  | .str atomic => (Keyed.get m.states atomic).elim [] (fun rootChild => searchInSubtree eventName rootChild none rootChild.id)
  | .obj entries => entries.flatMap (fun e => (Keyed.get m.states e.1).elim [] (fun rootChild =>
      searchInSubtree eventName rootChild (if rootChild.isCompound || rootChild.isParallel then some e.2 else none) rootChild.id))

/-- Visited candidates of the active leaves, from each leaf out to the exiting root. -/
def exitCandidates (m : MachineDefinition) (sv : StateValue) (subtreePrefix : String) : List String :=
  (((getActiveLeafPaths m sv).filter (insideSubtree subtreePrefix)).flatMap
    (fun leafPath => (candidatePaths leafPath).takeWhile (insideSubtree subtreePrefix))).eraseDups

def collectExitEffects (m : MachineDefinition) (sv : StateValue) (subtreePrefix : String) : List String :=
  (exitCandidates m sv subtreePrefix).flatMap (fun candidate => (getNodeByPath m candidate).elim [] (·.exit))

/-- The loop from the target's container up to the LCA's child: `front` are the parts
above, the list is what is left of the target path. -/
def builtBranch (m : MachineDefinition) (currentState enteredTarget : StateValue) (front : List String) : List String → StateValue
  | ancestorKey::regionKey::rest =>
    let branch := builtBranch m currentState enteredTarget (front ++ [ancestorKey]) (regionKey::rest)
    let ancestorPath := Dotted.join (front ++ [ancestorKey])
    if (getNodeByPath m ancestorPath).any (·.isParallel) then
      singleNested ancestorKey (.obj (put regionKey (regionValue branch regionKey) (extractSubStateObject currentState ancestorPath)))
    else singleNested ancestorKey branch
  | _ => enteredTarget

/-- A copy of the current dictionary with one entry set, or a dictionary of that entry. -/
def withEntry (current : StateValue) (key : String) (value : StateValue) : StateValue :=
  match current with
  | .str _ => singleNested key value
  | .obj entries => .obj (put key value entries)

def replaceAtLca (m : MachineDefinition) (current : StateValue) (front : List String) (replacementBranch : StateValue) :
    List String → StateValue
  | [] => replacementBranch
  | [key] =>
    if (getNodeByPath m (Dotted.join (front ++ [key]))).any (·.isParallel) then
      match current, replacementBranch with
      | .obj entries, .obj ((regionKey,regionVal)::_) =>
        let regions := match Keyed.get entries key with
          | some (.obj regions) => regions
          | _ => []
        .obj (put key (.obj (put regionKey regionVal regions)) entries)
      | _, _ => withEntry current key replacementBranch
    else withEntry current key replacementBranch
  | key::next::rest =>
    let childCurrent := (entryAt current key).getD (leaf "")
    withEntry current key (replaceAtLca m childCurrent (front ++ [key]) replacementBranch (next::rest))

def nextStateValue (m : MachineDefinition) (currentState : StateValue) (lcaParts tgtParts : List String) (branch : StateValue) :
    StateValue :=
  match lcaParts with
  | [] => if isType m.type "parallel" then
      match currentState with
      | .obj entries => .obj (put (tgtParts.headD "") (regionValue branch (tgtParts.headD "")) entries)
      | .str _ => branch
    else branch
  | _::_ => replaceAtLca m currentState [] branch lcaParts

/-- None where the source throws. -/
def applyTargetTransition (m : MachineDefinition) (currentState : StateValue) (sourcePath targetRef : String) : Option AppliedTransition :=
  let targetPath := resolveTargetStatePath m sourcePath targetRef
  match getNodeByPath m targetPath with
  | none => none
  | some targetNode =>
    let tgtParts := Dotted.split targetPath
    let lcaParts := commonSegments (Dotted.split sourcePath) tgtParts
    let commonLen := lcaParts.length
    let ancestors := (List.range (tgtParts.length - 1)).filterMap (fun i =>
      if commonLen ≤ i then getNodeByPath m (Dotted.join (tgtParts.take (i+1))) else none)
    let enteredTarget := enterSubtree targetNode
    let branch := builtBranch m currentState (enteredTarget.at targetNode.id) lcaParts (tgtParts.drop commonLen)
    some {
      targetPath
      nextStateValue := nextStateValue m currentState lcaParts tgtParts branch
      exitEffects := collectExitEffects m currentState (Go.exitingRoot sourcePath commonLen)
      entryEffects := ancestors.flatMap (·.entry) ++ enteredTarget.entryEffects }

def isFinalAt (m : MachineDefinition) (path : String) : Bool := (getNodeByPath m path).any (·.isFinal)

def isBranchFinalAt (m : MachineDefinition) (regionPath leafPath : String) : Bool :=
  match getNodeByPath m leafPath with
  | none => false
  | some leaf => leaf.isFinal && (match getNodeByPath m regionPath with
    | none => false
    | some region => region.isFinal || (region.isCompound && leafPath = regionPath ++ "." ++ leaf.id))

def regionDone (m : MachineDefinition) (leaves : List String) (regionPath : String) : Bool :=
  let regionLeaves := leaves.filter (fun l => l = regionPath || Dotted.under regionPath l)
  !regionLeaves.isEmpty && regionLeaves.all (isBranchFinalAt m regionPath)

def containerDone (m : MachineDefinition) (leaves : List String) (containerPath : String) (container : StateDefinition) : Bool :=
  if container.isCompound then
    match leaves.filter (Dotted.under containerPath) with
    | [leaf] => isFinalAt m leaf
    | _ => false
  else container.isParallel && container.states.all (fun e => regionDone m leaves (containerPath ++ "." ++ e.2.id))

/-- The completion edge of a container that is done. -/
def pendingAt (m : MachineDefinition) (leaves : List String) (containerPath : String) : Option MatchedTransition :=
  match getNodeByPath m containerPath with
  | none => none
  | some container => match container.onDone with
    | [] => none
    | edge::_ => if containerDone m leaves containerPath container then some ⟨container,edge,containerPath⟩ else none

def findPendingOnDone (m : MachineDefinition) (sv : StateValue) : Option MatchedTransition :=
  let leaves := getActiveLeafPaths m sv
  ((candidateContainers leaves).insertionSort deeperFirst).findSome? (pendingAt m leaves)

def resolveSettledTransactionStatus (m : MachineDefinition) (sv : StateValue) (wasCompensated : Bool) : TransactionStatus :=
  if wasCompensated then .COMPENSATED
  else if sv = leaf "error" && Keyed.has m.states "error" then .FAILED
  else
    let leaves := getActiveLeafPaths m sv
    if !leaves.isEmpty && leaves.all (isFinalAt m) then .COMPLETED else .IDLE

end Dfsm.Csharp
