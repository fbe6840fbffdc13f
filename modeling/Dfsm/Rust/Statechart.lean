import Dfsm.Rust.Machine

/-! The statechart engine of the Rust SDK. -/
namespace Dfsm.Rust
open Keyed (Record)
open Go (leaf put)

mutual
def resolveNode (nodeId : String) : StateDefinition → StateValue × List String
  | { stateType, initial, states, on, onDone, entry, exit } =>
    let node : StateDefinition := { stateType, initial, states, on, onDone, entry, exit }
    if node.isParallel then
      let regions := resolveRegions states
      (.obj [(nodeId,.obj (regions.map (fun r => (r.1,r.2.1))))],entry ++ regions.flatMap (·.2.2))
    else if node.isCompound then
      match initial with
      | some init =>
        let (childVal,effects) := resolveInitialNode init states
        (.obj [(nodeId,childVal)],entry ++ effects)
      | none => (leaf nodeId,entry)
    else (leaf nodeId,entry)
def resolveInitialNode (nodeId : String) : List (String × StateDefinition) → StateValue × List String
  | [] => (leaf nodeId,[])
  | (k,v)::rest => if k = nodeId then resolveNode nodeId v else resolveInitialNode nodeId rest
def resolveRegions : List (String × StateDefinition) → List (String × StateValue × List String)
  | [] => []
  | (regionId,region)::rest => ((resolveRegion region).map (regionId,·)).toList ++ resolveRegions rest
/-- A region without an initial state is passed over. -/
def resolveRegion : StateDefinition → Option (StateValue × List String)
  | { stateType := _, initial, states, on := _, onDone := _, entry := _, exit := _ } =>
    match initial with
    | some init => some (resolveInitialNode init states)
    | none => none
end

structure InitialStateResult where
  stateValue : StateValue
  entryEffects : List String

def resolveInitialState (m : MachineDefinition) : InitialStateResult :=
  let (stateValue,entryEffects) := resolveInitialNode m.initial m.states
  { stateValue, entryEffects }

structure MatchedTransition where
  sourcePath : List String
  edge : TransitionDetails
  policy : Option PartialTransitionPolicy

/-- What a node itself has for the event. -/
def nodeMatches (node : StateDefinition) (event : String) (sourcePath : List String) : List MatchedTransition :=
  match Keyed.get node.on event with
  | none => []
  | some tv => tv.details.map (fun edge => { sourcePath, edge, policy := edge.toPartialPolicy })

mutual
/-- `results` is one list for all the branches. -/
def findTransitionsInState (event : String) : StateValue → List (String × StateDefinition) → List String →
    List MatchedTransition → List MatchedTransition
  | .str name, states, currentPath, results => match Keyed.get states name with
    | none => results
    | some node => results ++ nodeMatches node event (currentPath ++ [name])
  | .obj map, states, currentPath, results => findTransitionsInEntries event map states currentPath results
def findTransitionsInEntries (event : String) : List (String × StateValue) → List (String × StateDefinition) → List String →
    List MatchedTransition → List MatchedTransition
  | [], _, _, results => results
  | (parentName,childVal)::rest, states, currentPath, results =>
    let nextPath := currentPath ++ [parentName]
    findTransitionsInEntries event rest states currentPath (match Keyed.get states parentName with
      | none => results
      | some parentDef =>
        let results := findTransitionsInState event childVal parentDef.states nextPath results
        if results.isEmpty then nodeMatches parentDef event nextPath else results)
end

def resolveTransitionsForEvent (m : MachineDefinition) (currentState : StateValue) (event : String) : List MatchedTransition :=
  findTransitionsInState event currentState m.states [] []

mutual
def collectExitEffects : StateValue → List (String × StateDefinition) → List String
  | .str name, states => ((Keyed.get states name).map (·.exit)).getD []
  | .obj map, states => collectExitEntries map states
def collectExitEntries : List (String × StateValue) → List (String × StateDefinition) → List String
  | [], _ => []
  | (parentName,childVal)::rest, states =>
    (match Keyed.get states parentName with
      | none => []
      | some parentDef => collectExitEffects childVal parentDef.states ++ parentDef.exit) ++ collectExitEntries rest states
end

/-- The while loop over both paths; the common part stays strictly above both ends. -/
def commonLen (sourcePath targetPath : List String) : Nat := (commonSegments sourcePath targetPath).length

def extractRegions (currentState : StateValue) (ancPath : List String) : Record StateValue :=
  match extractCursor currentState ancPath with
  | some (.obj regions) => regions
  | _ => []

/-- The value below the target and the effects of what is entered. -/
def enterTarget (targetLeaf : String) (targetNode : Option StateDefinition) : StateValue × List String :=
  match targetNode with
  | none => (leaf targetLeaf,[])
  | some tn =>
    if tn.isParallel then
      let regions := resolveRegions tn.states
      (.obj (regions.map (fun r => (r.1,r.2.1))),tn.entry ++ regions.flatMap (·.2.2))
    else if tn.isCompound then
      match tn.initial with
      | some init =>
        let (subval,effects) := resolveInitialNode init tn.states
        (subval,tn.entry ++ effects)
      | none => (leaf targetLeaf,tn.entry)
    else (leaf targetLeaf,tn.entry)

/-- The loop over the target path from the target's container up: `front` are the segments
above, the list is what is left of the target path. -/
def builtBranch (m : MachineDefinition) (currentState enteredTarget : StateValue) (front : List String) : List String → StateValue
  | ancKey::regionKey::rest =>
    let branch := builtBranch m currentState enteredTarget (front ++ [ancKey]) (regionKey::rest)
    let ancPath := front ++ [ancKey]
    if (getNodeByPath m ancPath).any (·.isParallel) then
      .obj [(ancKey,.obj (put regionKey (regionValue branch regionKey) (extractRegions currentState ancPath)))]
    else .obj [(ancKey,branch)]
  | _ => enteredTarget

def replaceAtLca (currentState : StateValue) (lcaPath : List String) (newBranch : StateValue) : StateValue :=
  match lcaPath, currentState with
  | [], _ => newBranch
  | head::rest, .obj map =>
    .obj (put head (match Keyed.get map head with
      | some child => replaceAtLca child rest newBranch
      | none => newBranch) map)
  | _::_, .str name => .obj [(name,newBranch)]

structure AppliedTransition where
  nextStateValue : StateValue
  exitEffects : List String
  entryEffects : List String

def applyTargetTransition (m : MachineDefinition) (currentState : StateValue) (sourcePath : List String) (targetName : String) :
    AppliedTransition :=
  let targetPath := resolveTargetPath m sourcePath targetName
  let lcaParts := commonSegments sourcePath targetPath
  let targetLeaf := targetPath.getLastD ""
  let (targetSubval,entryEffects) := enterTarget targetLeaf (getNodeByPath m targetPath)
  let enteredTarget := if targetSubval = leaf targetLeaf then leaf targetLeaf else .obj [(targetLeaf,targetSubval)]
  let branch := builtBranch m currentState enteredTarget lcaParts (targetPath.drop lcaParts.length)
  { nextStateValue := if lcaParts.isEmpty then branch else replaceAtLca currentState lcaParts branch
    exitEffects := collectExitEffects currentState m.states
    entryEffects }

mutual
def isSubstateFinal : StateValue → StateDefinition → Bool
  | .str name, nodeDef => (Keyed.get nodeDef.states name).any (·.isFinal)
  | .obj map, nodeDef => anySubstateFinal map nodeDef
def anySubstateFinal : List (String × StateValue) → StateDefinition → Bool
  | [], _ => false
  | (k,v)::rest, nodeDef => (Keyed.get nodeDef.states k).any (isSubstateFinal v) || anySubstateFinal rest nodeDef
end

def isStateComplete (parentDef : StateDefinition) (childVal : StateValue) : Bool :=
  if parentDef.isParallel then
    match childVal with
    | .obj regions => !regions.isEmpty && regions.all (fun r => (Keyed.get parentDef.states r.1).all (isSubstateFinal r.2))
    | .str _ => false
  else parentDef.isCompound && isSubstateFinal childVal parentDef

structure PendingOnDone where
  sourcePath : List String
  edge : TransitionDetails

mutual
def checkOnDoneRecursive : StateValue → List (String × StateDefinition) → List String → Option PendingOnDone
  | .str _, _, _ => none
  | .obj map, states, currentPath => checkOnDoneEntries map states currentPath
def checkOnDoneEntries : List (String × StateValue) → List (String × StateDefinition) → List String → Option PendingOnDone
  | [], _, _ => none
  | (parentName,childVal)::rest, states, currentPath =>
    let path := currentPath ++ [parentName]
    (match Keyed.get states parentName with
      | none => none
      | some parentDef =>
        (checkOnDoneRecursive childVal parentDef.states path).or
          (if isStateComplete parentDef childVal then
            parentDef.onDone.map (fun onDone => { sourcePath := path, edge := (TransitionValue.details onDone).headD {} })
          else none)).or (checkOnDoneEntries rest states currentPath)
end

def findPendingOnDone (m : MachineDefinition) (currentState : StateValue) : Option PendingOnDone :=
  checkOnDoneRecursive currentState m.states []

end Dfsm.Rust
