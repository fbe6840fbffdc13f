import Dfsm.Python.Machine

/-! The statechart engine of the Python SDK. -/
namespace Dfsm.Python
open Keyed (Record)
open Csharp (put)

structure MatchedTransition where
  sourcePath : List String
  edge : TransitionDetails
  policy : Option PartialTransitionPolicy

/-- No exit effect is ever collected. -/
structure AppliedTransition where
  nextStateValue : StateValue
  entryEffects : List String

def leaf (name : String) : StateValue := .str name

/-- `dict(sorted(mapping.items()))` -/
def sortedItems {α : Type} (mapping : Record α) : Record α := mapping.insertionSort (fun a b => a.1 ≤ b.1)

def compound (mapping : Record StateValue) : StateValue := .obj (sortedItems mapping)

/-- The regions that declare an initial state, in the order of their names, and their effects. -/
def regionsOf (entered : Record (Option (StateValue × List String))) : StateValue × List String :=
  let regions := (sortedItems entered).filterMap (fun e => e.2.map (fun entered => (e.1,entered)))
  (compound (regions.map (fun e => (e.1,e.2.1))),regions.flatMap (·.2.2))

mutual
/-- `resolve_initial_node` and the effects that it appends. -/
def resolveInitialNode : List (String × StateDefinition) → String → StateValue × List String
  | [], nodeId => (leaf nodeId,[])
  | (k,node)::rest, nodeId => if k = nodeId then enterNode nodeId node else resolveInitialNode rest nodeId
def enterNode (nodeId : String) : StateDefinition → StateValue × List String
  | { id, stateType, initial, states, on, onDone, entry, exit } =>
    let node : StateDefinition := { id, stateType, initial, states, on, onDone, entry, exit }
    if node.isParallel then
      let (regions,effects) := regionsOf (enterRegions states)
      (compound [(nodeId,regions)],entry ++ effects)
    else if node.isCompound then
      match given initial with
      | none => (leaf nodeId,entry)
      | some initial =>
        let (childVal,effects) := resolveInitialNode states initial
        (compound [(nodeId,childVal)],entry ++ effects)
    else (leaf nodeId,entry)
def enterRegions : List (String × StateDefinition) → List (String × Option (StateValue × List String))
  | [] => []
  | (rname,rdef)::rest => (rname,enterRegion rdef)::enterRegions rest
def enterRegion : StateDefinition → Option (StateValue × List String)
  | { id := _, stateType := _, initial, states, on := _, onDone := _, entry := _, exit := _ } =>
    match given initial with
    | none => none
    | some initial => some (resolveInitialNode states initial)
end

def resolveInitialState (m : MachineDefinition) : StateValue × List String := resolveInitialNode m.states m.initial

/-- The edges of a state for an event. -/
def edgesFor (node : StateDefinition) (event : String) (path : List String) : List MatchedTransition :=
  ((Keyed.get node.on event).getD []).map (fun detail => ⟨path,detail,detail.policy⟩)

mutual
/-- The last argument is what has been found so far. -/
def findInStates (event : String) : StateValue → List (String × StateDefinition) → List String → List MatchedTransition →
    List MatchedTransition
  | .str name, states, currentPath, results =>
    results ++ (Keyed.get states name).elim [] (fun node => edgesFor node event (currentPath ++ [name]))
  | .obj mapping, states, currentPath, results => findInItems event mapping states currentPath results
def findInItems (event : String) : List (String × StateValue) → List (String × StateDefinition) → List String →
    List MatchedTransition → List MatchedTransition
  | [], _, _, results => results
  | (parentName,childVal)::rest, states, currentPath, results =>
    match Keyed.get states parentName with
    | none => findInItems event rest states currentPath results
    | some parentDef =>
      let below := findInStates event childVal parentDef.states (currentPath ++ [parentName]) results
      findInItems event rest states currentPath
        (if below.isEmpty then edgesFor parentDef event (currentPath ++ [parentName]) else below)
end

def findTransitions (m : MachineDefinition) (currentState : StateValue) (event : String) : List MatchedTransition :=
  findInStates event currentState m.states [] []

/-- What a target stands for below its own name. -/
def targetSubValue (targetLeaf : String) : Option StateDefinition → StateValue × List String
  | none => (leaf targetLeaf,[])
  | some targetNode =>
    if targetNode.isParallel then
      let (regions,effects) := regionsOf (enterRegions targetNode.states)
      (regions,targetNode.entry ++ effects)
    else if targetNode.isCompound then
      match given targetNode.initial with
      | none => (leaf targetLeaf,targetNode.entry)
      | some initial =>
        let (subval,effects) := resolveInitialNode targetNode.states initial
        (subval,targetNode.entry ++ effects)
    else (leaf targetLeaf,targetNode.entry)

def extractRegions (current : StateValue) : List String → Record StateValue
  | [] => match current with
    | .str _ => []
    | .obj mapping => mapping
  | seg::rest => match current with
    | .str _ => []
    | .obj mapping => match Keyed.get mapping seg with
      | none => []
      | some cur => extractRegions cur rest

/-- The loop from the target's container up to the LCA's child: `front` are the parts
above, the list is what is left of the target path. -/
def builtBranch (m : MachineDefinition) (currentState targetBranch : StateValue) (front : List String) : List String → StateValue
  | ancKey::regionKey::rest =>
    let branch := builtBranch m currentState targetBranch (front ++ [ancKey]) (regionKey::rest)
    if (getNodeByPath m.states (front ++ [ancKey])).any (·.isParallel) then
      compound [(ancKey,compound (put regionKey (regionValue branch regionKey) (extractRegions currentState (front ++ [ancKey]))))]
    else compound [(ancKey,branch)]
  | _ => targetBranch

def replaceAtLca (current : StateValue) (lcaPath : List String) (replacement : StateValue) : StateValue :=
  match lcaPath with
  | [] => replacement
  | top::rest => match current with
    | .str _ => compound [(top,replacement)]
    | .obj mapping => compound (put top (replaceAtLca ((Keyed.get mapping top).getD (leaf top)) rest replacement) mapping)

def applyTargetTransition (m : MachineDefinition) (currentState : StateValue) (sourcePath : List String) (targetName : String) :
    AppliedTransition :=
  let targetPath := resolveTargetPath m sourcePath targetName
  let lcaPath := commonSegments sourcePath targetPath
  let targetLeaf := targetPath.getLastD ""
  let (targetSub,entryEffects) := targetSubValue targetLeaf (getNodeByPath m.states targetPath)
  let targetBranch := if targetSub = leaf targetLeaf then leaf targetLeaf else compound [(targetLeaf,targetSub)]
  let branch := builtBranch m currentState targetBranch lcaPath (targetPath.drop lcaPath.length)
  { nextStateValue := replaceAtLca currentState lcaPath branch, entryEffects }

def isFinalIn (states : List (String × StateDefinition)) (name : String) : Bool := (Keyed.get states name).any (·.isFinal)

def isRegionFinal (rdef : StateDefinition) : StateValue → Bool
  | .str name => isFinalIn rdef.states name
  | .obj mapping => mapping.any (fun e => isFinalIn rdef.states e.1)

def isStateValFinal (pdef : StateDefinition) : StateValue → Bool
  | .str name => isFinalIn pdef.states name
  | .obj _ => false

/-- A state at the top of the state value is complete. -/
def isDone (pdef : StateDefinition) (childVal : StateValue) : Bool :=
  if pdef.isParallel then
    match childVal with
    | .str _ => false
    | .obj regMap => regMap.all (fun e => (Keyed.get pdef.states e.1).any (fun rdef => isRegionFinal rdef e.2))
  else pdef.isCompound && isStateValFinal pdef childVal

/-- What a complete state at the top goes on to. -/
def onDoneOf (m : MachineDefinition) (current : StateValue) (parentName : String) (childVal : StateValue) :
    Option (StateValue × List TransitionDetails) :=
  match Keyed.get m.states parentName with
  | none => none
  | some pdef => match pdef.onDone with
    | [] => none
    | firstEdge::others => if isDone pdef childVal then
        some ((applyTargetTransition m current [parentName] ((given firstEdge.target).getD parentName)).nextStateValue,firstEdge::others)
      else none

def computeOnDone (m : MachineDefinition) : StateValue → Option (StateValue × List TransitionDetails)
  | .str _ => none
  | .obj mapping => mapping.findSome? (fun e => onDoneOf m (.obj mapping) e.1 e.2)

end Dfsm.Python
