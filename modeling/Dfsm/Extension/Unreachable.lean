import Dfsm.Extension.Policies
import Dfsm.Lib.Dotted
import Dfsm.Lib.Filed

/-! The states of a machine as the editor parses them, the states its transitions name, and
the walk that finds the states to warn about. -/
namespace Dfsm.Extension.Reachability
open Keyed (Record)

/-- What the parser reads of a state. -/
structure StateSource where
  explicitType : Option StateNodeType
  initial : Option String
  on : Record ParsedTransition
  onDone : Option ParsedTransition
  states : List (String × StateSource)

structure ParsedStateNode where
  name : String
  path : String
  parentPath : Option String
  inferredType : StateNodeType
  initial : Option String
  on : Record ParsedTransition
  onDone : Option ParsedTransition
  states : List (String × ParsedStateNode)
  isImplicitError : Bool
  isCustomError : Bool

/-- A text that counts as true. -/
def given (text : Option String) : Option String := text.filter (· ≠ "")

mutual
def parseStatePair (parentPath : Option String) (name : String) : StateSource → ParsedStateNode
  | { explicitType, initial, on, onDone, states } =>
    let path := (given parentPath).elim name (· ++ "." ++ name)
    { name, path, parentPath
      inferredType := explicitType.getD (if states.isEmpty then .atomic else .compound)
      initial, on, onDone
      states := parseStates (some path) states
      isImplicitError := false
      isCustomError := parentPath.isNone && name == "error" }
def parseStates (parentPath : Option String) : Record StateSource → Record ParsedStateNode
  | [] => []
  | (name,state)::rest => (name,parseStatePair parentPath name state)::parseStates parentPath rest
end

structure MachineSource where
  id : Option String
  rootType : MachineType
  initial : Option String
  defaults : Complete.PolicySections
  states : Record StateSource

structure ParsedMachine where
  id : Option String
  rootType : MachineType
  initial : Option String
  defaults : Complete.PolicySections
  states : Record ParsedStateNode
  implicitErrorNode : Option ParsedStateNode

def implicitError : ParsedStateNode where
  name := "error"
  path := "error"
  parentPath := none
  inferredType := .final
  initial := none
  on := []
  onDone := none
  states := []
  isImplicitError := true
  isCustomError := false

def parseMachine (source : MachineSource) : ParsedMachine where
  id := source.id
  rootType := source.rootType
  initial := source.initial
  defaults := source.defaults
  states := parseStates none source.states
  implicitErrorNode := if Keyed.has source.states "error" then none else some implicitError

mutual
/-- A node and those below it in the order they are filed, children first. -/
def nodesOf : ParsedStateNode → List ParsedStateNode
  | { name, path, parentPath, inferredType, initial, on, onDone, states, isImplicitError, isCustomError } =>
    nodesBelow states ++ [⟨name,path,parentPath,inferredType,initial,on,onDone,states,isImplicitError,isCustomError⟩]
def nodesBelow : Record ParsedStateNode → List ParsedStateNode
  | [] => []
  | (_,node)::rest => nodesOf node ++ nodesBelow rest
end

namespace ParsedMachine

/-- The nodes set in `allStatesByPath`, one after another. -/
def allStates (machine : ParsedMachine) : List ParsedStateNode := nodesBelow machine.states ++ machine.implicitErrorNode.toList

/-- `allStatesByPath.get` -/
def get (machine : ParsedMachine) (path : String) : Option ParsedStateNode := Filed.last (·.path) machine.allStates path

/-- `allStatesByPath.values()` -/
def values (machine : ParsedMachine) : List ParsedStateNode := Filed.filed (·.path) machine.allStates

end ParsedMachine

/-- What `String.prototype.trim` takes for blank. -/
def isSpace (c : Char) : Bool :=
  let n := c.toNat
  (0x9 ≤ n && n ≤ 0xD) || n = 0x20 || n = 0xA0 || n = 0x1680 || (0x2000 ≤ n && n ≤ 0x200A) ||
    n = 0x2028 || n = 0x2029 || n = 0x202F || n = 0x205F || n = 0x3000 || n = 0xFEFF

def trim (text : String) : String := String.ofList ((text.toList.dropWhile isSpace).reverse.dropWhile isSpace).reverse

/-- `path.slice(0, path.lastIndexOf("."))`, none where there is no dot. -/
def container (path : String) : Option String :=
  if path.toList.contains '.' then some (Dotted.join (Dotted.split path).dropLast) else none

/-- The node a reference names, where it resolves. -/
def resolveStateTarget (machine : ParsedMachine) (sourceStatePath : Option String) (rawTarget : String) : Option ParsedStateNode :=
  let target := trim rawTarget
  if target = "" then none else
  match target.toList with
  | '#'::rest =>
    let rest := String.ofList rest
    if rest = "" then none else
    match given machine.id with
    | none => machine.get rest
    | some id =>
      if (id ++ ".").toList.isPrefixOf rest.toList then machine.get (String.ofList (rest.toList.drop (id.length + 1)))
      else machine.get rest
  | _ =>
    let parentPrefix := (given sourceStatePath).bind container
    ((given parentPrefix).bind (fun parent => machine.get (parent ++ "." ++ target))).or (machine.get target)

/-- Whether entering a node enters the child under a key. -/
def enters (inferredType : StateNodeType) (initial : Option String) (key : String) : Bool :=
  match inferredType with
  | .compound => given initial = some key
  | .parallel => true
  | _ => false

mutual
/-- All that entering a node enters below it. -/
def entered : ParsedStateNode → List ParsedStateNode
  | { name := _, path := _, parentPath := _, inferredType, initial, on := _, onDone := _, states, isImplicitError := _, isCustomError := _ } =>
    enteredAmong (enters inferredType initial) states
def enteredAmong (pick : String → Bool) : Record ParsedStateNode → List ParsedStateNode
  | [] => []
  | (key,node)::rest => (if pick key then node::entered node else []) ++ enteredAmong pick rest
end

def transitionsOf (node : ParsedStateNode) : List ParsedTransition := node.on.map Prod.snd ++ node.onDone.toList

structure Walk where
  reachable : List String := []
  queue : List ParsedStateNode := []
  errorReferencedImplicitlyOrExplicitly : Bool := false
  /-- What the walk passes over: nothing reads it, it keeps the account of what was not entered. -/
  leftOut : List ParsedStateNode := []

/-- The ancestors in the path of a container, itself first. -/
def containers : List String → List String
  | [] => []
  | part::outer => Dotted.join (part::outer).reverse::containers outer

def ancestorPaths (parentPath : Option String) : List String :=
  parentPath.elim [] (fun path => (containers (Dotted.split path).reverse).takeWhile (· ≠ ""))

section
variable (machine : ParsedMachine)

/-- An ancestor is marked, but not entered: the regions of a parallel one are passed over. -/
def mark (walk : Walk) (ancestorPath : String) : Walk :=
  if ancestorPath ∈ walk.reachable then walk else
  { walk with
    reachable := walk.reachable ++ [ancestorPath]
    queue := walk.queue ++ (machine.get ancestorPath).toList
    leftOut := walk.leftOut ++ (machine.get ancestorPath).elim [] (fun anc => if anc.inferredType = .parallel then entered anc else []) }

mutual
def enterState (walk : Walk) : ParsedStateNode → Walk
  | { name, path, parentPath, inferredType, initial, on, onDone, states, isImplicitError, isCustomError } =>
    let walk := (ancestorPaths parentPath).foldl (mark machine) walk
    let node : ParsedStateNode := ⟨name,path,parentPath,inferredType,initial,on,onDone,states,isImplicitError,isCustomError⟩
    -- also where it was only marked before
    if path ∈ walk.reachable then { walk with leftOut := walk.leftOut ++ entered node }
    else enterAmong (enters inferredType initial) { walk with reachable := walk.reachable ++ [path], queue := walk.queue ++ [node] } states
def enterAmong (pick : String → Bool) (walk : Walk) : Record ParsedStateNode → Walk
  | [] => walk
  | (key,node)::rest => enterAmong pick (if pick key then enterState walk node else walk) rest
end

/-- A transition of the first loop, or one of the second, which passes over the fallback. -/
def follow (fallbacks : Bool) (current : ParsedStateNode) (walk : Walk) (t : ParsedTransition) : Walk :=
  let walk := ((given t.target).bind (resolveStateTarget machine current.path)).elim walk (enterState machine walk)
  match (given t.effectivePolicy.target).bind (resolveStateTarget machine current.path) with
  | none => walk
  | some node =>
    if fallbacks then
      enterState machine { walk with
        errorReferencedImplicitlyOrExplicitly := walk.errorReferencedImplicitlyOrExplicitly || node.path == "error" } node
    else { walk with leftOut := walk.leftOut ++ node::entered node }

/-- The work-list loop; no node is queued twice, so there are no more turns than nodes. -/
def drain (fallbacks : Bool) : Nat → Walk → Walk
  | 0, walk => walk
  | turns + 1, walk =>
    match walk.queue with
    | [] => walk
    | current::queue => drain fallbacks turns ((transitionsOf current).foldl (follow machine fallbacks current) { walk with queue })

def seeded : Walk :=
  match machine.rootType with
  | .parallel => (machine.states.map Prod.snd).foldl (enterState machine) {}
  | .compound => ((given machine.initial).bind machine.get).elim {} (enterState machine {})

def defaultFailTarget : String := (machine.defaults.onFail.bind (·.target)).getD "error"

def firstWalk : Walk :=
  drain machine true machine.allStates.length
    { seeded machine with errorReferencedImplicitlyOrExplicitly := defaultFailTarget machine == "error" }

def walked : Walk :=
  let first := firstWalk machine
  match Keyed.get machine.states "error" with
  | none => first
  | some error =>
    if first.errorReferencedImplicitlyOrExplicitly ∧ "error" ∉ first.reachable then
      drain machine false machine.allStates.length (enterState machine first error)
    else first

/-- The paths that `collectUnreachableStateDiagnostics` warns about. -/
def collectUnreachableStateDiagnostics : List String :=
  if machine.states = [] then [] else
  let walk := walked machine
  (machine.values.filter (fun state =>
    !state.isImplicitError && !(state.isCustomError && walk.errorReferencedImplicitlyOrExplicitly) &&
      !walk.reachable.contains state.path)).map (·.path)

end

end Dfsm.Extension.Reachability
