import Dfsm.Engine.Statechart
import Dfsm.Go.Machine

/-! The statechart engine of the Go SDK. Every `range` over a map takes its entries in an
order of its own; a map as a value keeps its entries by their keys. -/
namespace Dfsm.Go
open Keyed (Record)

/-- The rank a key has in the iteration at a place. -/
abbrev Order := List String → String → Nat

namespace Order

def below (ord : Order) (key : String) : Order := fun place => ord (key::place)

/-- `for k, v := range m` -/
def range {α : Type} (ord : Order) (m : Record α) : Record α := m.insertionSort (fun a b => ord [] a.1 ≤ ord [] b.1)

end Order

/-- `m[key] = value` -/
def put {α : Type} (key : String) (value : α) : Record α → Record α
  | [] => [(key,value)]
  | e::rest => if key < e.1 then (key,value)::e::rest else if key = e.1 then (key,value)::rest else e::put key value rest

theorem getPut {α : Type} (key : String) (value : α) (m : Record α) (k : String) :
    Keyed.get (put key value m) k = if k = key then some value else Keyed.get m k := by
  induction m with
  | nil => exact Keyed.getSingle k key value
  | cons e rest ih =>
    rw [put]
    split
    · exact Keyed.getCons _ _ k
    · split
      · rename_i same
        rw [Keyed.getCons,Keyed.getCons,← same]
        split <;> rfl
      · rename_i other
        rw [Keyed.getCons,Keyed.getCons,ih]
        split
        · rename_i here
          rw [if_neg (fun same : k = key => other (same.symm.trans here))]
        · rfl

def putAll {α : Type} (m entries : Record α) : Record α := entries.foldl (fun m e => put e.1 e.2 m) m

mutual
def arrangeNode (ord : Order) : StateDefinition → StateDefinition
  | { id, type, initial, states, on, onDone, entry, exit } =>
    { id, type, initial, states := ord.range (arrangeStates ord states), on, onDone, entry, exit }
def arrangeStates (ord : Order) : List (String × StateDefinition) → List (String × StateDefinition)
  | [] => []
  | (k,v)::rest => (k,arrangeNode (ord.below k) v)::arrangeStates ord rest
end

/-- The machine, its maps as one iteration takes them. -/
def MachineDefinition.arranged (m : MachineDefinition) (ord : Order) : MachineDefinition :=
  { m with states := ord.range (arrangeStates ord m.states) }

structure MatchedTransition where
  sourceNode : StateDefinition
  edge : TransitionDefinition
  sourcePath : String

structure AppliedTransition where
  targetPath : String
  nextStateValue : StateValue
  exitEffects : List String
  entryEffects : List String

structure SubtreeEntry where
  subValue : Option StateValue
  entryEffects : List String

def leaf (state : String) : StateValue := .str state
def singleNested (parent : String) (child : StateValue) : StateValue := .obj [(parent,child)]

/-- A state by its id, with the value below it if it has one. -/
def SubtreeEntry.at (entered : SubtreeEntry) (id : String) : StateValue :=
  match entered.subValue with
  | none => leaf id
  | some sub => singleNested id sub

/-- Regions that have been entered, by their keys and in the order of an iteration. -/
def regionsOf (entered : Record SubtreeEntry) : StateValue × List String :=
  (.obj (putAll [] (entered.map (fun e => (e.1,e.2.subValue.getD (leaf e.1))))),entered.flatMap (·.2.entryEffects))

mutual
def enterSubtree (ord : Order) : StateDefinition → SubtreeEntry
  | { id, type, initial, states, on, onDone, entry, exit } =>
    let node : StateDefinition := { id, type, initial, states, on, onDone, entry, exit }
    if !node.isCompound && !node.isParallel then ⟨none,entry⟩
    else if node.isCompound then
      if initial = "" then ⟨none,entry⟩
      else match enterChild (ord.below initial) initial states with
        | none => ⟨none,entry⟩
        | some (childId,enteredChild) => ⟨some (enteredChild.at childId),entry ++ enteredChild.entryEffects⟩
    else
      let (res,entryEffects) := regionsOf (ord.range (enterStates ord states))
      ⟨some res,entry ++ entryEffects⟩
def enterChild (ord : Order) (initial : String) : List (String × StateDefinition) → Option (String × SubtreeEntry)
  | [] => none
  | (k,child)::rest => if k = initial then some (child.id,enterSubtree ord child) else enterChild ord initial rest
def enterStates (ord : Order) : List (String × StateDefinition) → Record SubtreeEntry
  | [] => []
  | (k,region)::rest => (k,enterSubtree (ord.below k) region)::enterStates ord rest
end

/-- None where the initial state is missing and the source dereferences nil. -/
def resolveInitialState (ord : Order) (m : MachineDefinition) : Option (StateValue × List String) :=
  if equalFold m.type "parallel" then
    some (regionsOf (ord.range (enterStates ord (m.states.filter (fun e => e.1 != "error")))))
  else (enterChild (ord.below m.initial) m.initial m.states).map (fun (id,enteredRoot) => (enteredRoot.at id,enteredRoot.entryEffects))

mutual
def leafPathsInternal (m : MachineDefinition) (ord : Order) : StateValue → String → List String
  | .str leaf, parentPath => [childPath parentPath leaf]
  | .obj entries, parentPath => (ord.range (leafPathsBelow m ord entries parentPath)).flatMap (·.2)
def leafPathsBelow (m : MachineDefinition) (ord : Order) : List (String × StateValue) → String → Record (List String)
  | [], _ => []
  | (key,childVal)::rest, parentPath =>
    let currentPath := childPath parentPath key
    (key,
      if (getNodeByPath m currentPath).any (·.isParallel) then
        match childVal with
        | .str leaf => leafPathsInternal m (ord.below key) (.str leaf) currentPath
        | .obj regions => ((ord.below key).range (leafPathsRegions m (ord.below key) regions currentPath)).flatMap (·.2)
      else leafPathsInternal m (ord.below key) childVal currentPath)::leafPathsBelow m ord rest parentPath
def leafPathsRegions (m : MachineDefinition) (ord : Order) : List (String × StateValue) → String → Record (List String)
  | [], _ => []
  | (regKey,regVal)::rest, currentPath =>
    let regPath := currentPath ++ "." ++ regKey
    (regKey,
      if (getNodeByPath m regPath).any (fun regNode => !regNode.isCompound && !regNode.isParallel) then [regPath]
      else match regVal with
        | .str leaf => [regPath ++ "." ++ leaf]
        | .obj entries => (((ord.below regKey).range (leafPathsBelow m (ord.below regKey) entries regPath)).flatMap (·.2)))::
    leafPathsRegions m ord rest currentPath
end

def getActiveLeafPaths (ord : Order) (m : MachineDefinition) (sv : StateValue) : List String :=
  leafPathsInternal m ord sv ""

/-- The first edge of a state itself for the event. -/
def selfMatch (node : StateDefinition) (eventName currentPath : String) : List MatchedTransition :=
  match Keyed.get node.on eventName with
  | some (edge::_) => [⟨node,edge,currentPath⟩]
  | _ => []

mutual
def searchInSubtree (ord : Order) (eventName : String) : StateDefinition → Option StateValue → String → List MatchedTransition
  | { id, type, initial, states, on, onDone, entry, exit }, subVal, currentPath =>
    let node : StateDefinition := { id, type, initial, states, on, onDone, entry, exit }
    if !node.isCompound && !node.isParallel then selfMatch node eventName currentPath
    else if node.isCompound then
      let childMatches := match subVal with
        | none => []
        | some (.str atomic) => searchChild (ord.below atomic) eventName states atomic none currentPath
        | some (.obj entries) =>
          ((ord.range (entries.map (fun e => (e.1,searchChild (ord.below e.1) eventName states e.1 (some e.2) currentPath)))).find?
            (fun e => !e.2.isEmpty)).elim [] (·.2)
      if !childMatches.isEmpty then childMatches else selfMatch node eventName currentPath
    else
      let regionMap := match subVal with
        | some (.obj entries) => entries
        | _ => []
      let regionMatches := (ord.range (searchRegions ord eventName states regionMap currentPath)).flatMap (·.2)
      if !regionMatches.isEmpty then regionMatches else selfMatch node eventName currentPath
def searchChild (ord : Order) (eventName : String) : List (String × StateDefinition) → String → Option StateValue → String →
    List MatchedTransition
  | [], _, _, _ => []
  | (k,child)::rest, key, subVal, currentPath =>
    if k = key then searchInSubtree ord eventName child subVal (currentPath ++ "." ++ child.id)
    else searchChild ord eventName rest key subVal currentPath
def searchRegions (ord : Order) (eventName : String) : List (String × StateDefinition) → Record StateValue → String →
    Record (List MatchedTransition)
  | [], _, _ => []
  | (k,region)::rest, regionMap, currentPath =>
    let normalized := if region.isCompound || region.isParallel then Keyed.get regionMap k else none
    (k,searchInSubtree (ord.below k) eventName region normalized (currentPath ++ "." ++ region.id))::
      searchRegions ord eventName rest regionMap currentPath
end

/-- What the search finds below one state of the root. -/
def searchRoot (ord : Order) (m : MachineDefinition) (eventName key : String) (subVal : Option StateValue) : List MatchedTransition :=
  match Keyed.get m.states key with
  | none => []
  | some rootChild =>
    searchInSubtree ord eventName rootChild (if rootChild.isCompound || rootChild.isParallel then subVal else none) rootChild.id

def resolveTransitionsForEvent (ord : Order) (m : MachineDefinition) (sv : StateValue) (eventName : String) : List MatchedTransition :=
  match sv with
  | .str atomic => searchRoot (ord.below atomic) m eventName atomic none
  | .obj entries =>
    (ord.range (entries.map (fun e => (e.1,searchRoot (ord.below e.1) m eventName e.1 (some e.2))))).flatMap (·.2)

/-- Visited candidates of the active leaves, from each leaf out to the exiting root. -/
def exitCandidates (ord : Order) (m : MachineDefinition) (sv : StateValue) (subtreePrefix : String) : List String :=
  (((getActiveLeafPaths ord m sv).filter (insideSubtree subtreePrefix)).flatMap
    (fun leafPath => (candidatePaths leafPath).takeWhile (insideSubtree subtreePrefix))).eraseDups

def exitEffectsAt (m : MachineDefinition) (candidate : String) : List String :=
  (getNodeByPath m candidate).elim [] (·.exit)

def collectExitEffects (ord : Order) (m : MachineDefinition) (sv : StateValue) (subtreePrefix : String) : List String :=
  (exitCandidates ord m sv subtreePrefix).flatMap (exitEffectsAt m)

/-- The loop from the target's container up to the LCA's child: `front` are the parts
above, the list is what is left of the target path. -/
def builtBranch (m : MachineDefinition) (currentState enteredTarget : StateValue) (front : List String) : List String → StateValue
  | ancKey::regionKey::rest =>
    let branch := builtBranch m currentState enteredTarget (front ++ [ancKey]) (regionKey::rest)
    let ancPath := Dotted.join (front ++ [ancKey])
    if (getNodeByPath m ancPath).any (·.isParallel) then
      singleNested ancKey (.obj (put regionKey (regionValue branch regionKey) (extractSubStateObject currentState ancPath)))
    else singleNested ancKey branch
  | _ => enteredTarget

/-- A copy of the current map with one entry set, or a map of that entry. -/
def withEntry (current : StateValue) (key : String) (value : StateValue) : StateValue :=
  match current with
  | .str _ => singleNested key value
  | .obj entries => .obj (put key value entries)

def replaceAtLca (m : MachineDefinition) (current : StateValue) (front : List String) (replacementBranch : StateValue) :
    List String → StateValue
  | [] => replacementBranch
  | [key] =>
    if (getNodeByPath m (Dotted.join (front ++ [key]))).any (·.isParallel) then
      match current, replacementBranch with
      | .obj entries, .obj (first::others) =>
        let regions := match Keyed.get entries key with
          | some (.obj regions) => regions
          | _ => []
        .obj (put key (.obj (putAll regions (first::others))) entries)
      | _, _ => withEntry current key replacementBranch
    else withEntry current key replacementBranch
  | key::next::rest =>
    let childCurrent := (entryAt current key).getD (leaf "")
    withEntry current key (replaceAtLca m childCurrent (front ++ [key]) replacementBranch (next::rest))

def nextStateValue (m : MachineDefinition) (currentState : StateValue) (lcaParts tgtParts : List String) (branch : StateValue) :
    StateValue :=
  match lcaParts with
  | [] => if equalFold m.type "parallel" then
      match currentState with
      | .obj entries => .obj (put (tgtParts.headD "") (regionValue branch (tgtParts.headD "")) entries)
      | .str _ => branch
    else branch
  | _::_ => replaceAtLca m currentState [] branch lcaParts

/-- `strings.Join(srcParts[:commonLen+1], ".")`, or the source path itself -/
def exitingRoot (sourcePath : String) (commonLen : Nat) : String :=
  let srcParts := Dotted.split sourcePath
  if srcParts.length > commonLen then Dotted.join (srcParts.take (commonLen+1)) else sourcePath

/-- None where the source panics. -/
def applyTargetTransition (ord : Order) (m : MachineDefinition) (currentState : StateValue) (sourcePath targetRef : String) :
    Option AppliedTransition :=
  let targetPath := resolveTargetPath (m.arranged (ord.below "target")) sourcePath targetRef
  match getNodeByPath m targetPath with
  | none => none
  | some targetNode =>
    let tgtParts := Dotted.split targetPath
    let lcaParts := commonSegments (Dotted.split sourcePath) tgtParts
    let commonLen := lcaParts.length
    let ancestors := (List.range (tgtParts.length - 1)).filterMap (fun i =>
      if commonLen ≤ i then getNodeByPath m (Dotted.join (tgtParts.take (i+1))) else none)
    let enteredTarget := enterSubtree (ord.below "enter") targetNode
    let branch := builtBranch m currentState (enteredTarget.at targetNode.id) lcaParts (tgtParts.drop commonLen)
    some {
      targetPath
      nextStateValue := nextStateValue m currentState lcaParts tgtParts branch
      exitEffects := collectExitEffects (ord.below "exit") m currentState (exitingRoot sourcePath commonLen)
      entryEffects := ancestors.flatMap (·.entry) ++ enteredTarget.entryEffects }

def isFinalAt (m : MachineDefinition) (path : String) : Bool := (getNodeByPath m path).any (·.isFinal)

def isBranchFinalAt (m : MachineDefinition) (regionPath leafPath : String) : Bool :=
  match getNodeByPath m leafPath with
  | none => false
  | some leaf => leaf.isFinal && (match getNodeByPath m regionPath with
    | none => false
    | some region => region.isFinal || (region.isCompound && leafPath = regionPath ++ "." ++ leaf.id))

def regionDone (m : MachineDefinition) (leaves : List String) (regPath : String) : Bool :=
  let regLeaves := leaves.filter (fun l => l = regPath || Dotted.under regPath l)
  !regLeaves.isEmpty && regLeaves.all (isBranchFinalAt m regPath)

/-- The test of one container. Whether all regions are done does not depend on the order
they are asked in. -/
def containerDone (m : MachineDefinition) (leaves : List String) (containerPath : String) (container : StateDefinition) : Bool :=
  if container.isCompound then
    match leaves.filter (Dotted.under containerPath) with
    | [leaf] => isFinalAt m leaf
    | _ => false
  else container.isParallel && container.states.all (fun e => regionDone m leaves (containerPath ++ "." ++ e.2.id))

/-- The completion edge of a container that is done. -/
def pendingAt (m : MachineDefinition) (leaves : List String) (containerPath : String) : Option MatchedTransition :=
  match getNodeByPath m containerPath with
  | none => none
  | some container => match container.onDone with
    | [] => none
    | edge::_ => if containerDone m leaves containerPath container then some ⟨container,edge,containerPath⟩ else none

/-- The keys of the candidates' map as one iteration takes them, then the deeper ones first. -/
def sortedContainers (ord : Order) (leaves : List String) : List String :=
  (((ord.range ((candidateContainers leaves).map (·,()))).map (·.1))).insertionSort deeperFirst

def findPendingOnDone (ord : Order) (m : MachineDefinition) (sv : StateValue) : Option MatchedTransition :=
  let leaves := getActiveLeafPaths (ord.below "leaves") m sv
  (sortedContainers (ord.below "containers") leaves).findSome? (pendingAt m leaves)

def resolveSettledStatus (ord : Order) (m : MachineDefinition) (sv : StateValue) (wasCompensated : Bool) : TransactionStatus :=
  if wasCompensated then .COMPENSATED
  else if sv = leaf "error" && Keyed.has m.states "error" then .FAILED
  else
    let leaves := getActiveLeafPaths ord m sv
    if !leaves.isEmpty && leaves.all (isFinalAt m) then .COMPLETED else .IDLE

end Dfsm.Go
