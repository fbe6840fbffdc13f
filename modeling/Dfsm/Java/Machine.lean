import Dfsm.Definition.Validate

/-! Machine definitions as the Java SDK has them: text that is blank counts as absent, paths
are split as `String.split` splits them, maps keep the order of insertion. -/
namespace Dfsm.Java
open Keyed (Record)

/-- `Character.isWhitespace` -/
def isWhitespace (c : Char) : Bool :=
  let n := c.toNat
  (9 ≤ n && n ≤ 13) || (28 ≤ n && n ≤ 32) || n = 0x1680 || (0x2000 ≤ n && n ≤ 0x200A && n != 0x2007) ||
    n = 0x2028 || n = 0x2029 || n = 0x205F || n = 0x3000

def isBlank (text : String) : Bool := text.toList.all isWhitespace

/-- `text != null && !text.isBlank()` -/
def given (text : Option String) : Option String := text.filter (fun text => !isBlank text)

def dropTrailing : List String → List String
  | [] => []
  | part::rest => match dropTrailing rest with
    | [] => if part = "" then [] else [part]
    | kept => part::kept

/-- `text.split("\\.")` drops trailing empty parts, save where there is no dot. -/
def split (text : String) : List String :=
  if '.' ∈ text.toList then dropTrailing (Dotted.split text) else [text]

/-- `LinkedHashMap.put` -/
def put {α : Type} (map : Record α) (key : String) (value : α) : Record α :=
  if Keyed.has map key then Keyed.replace key value map else map ++ [(key,value)]

def lookupByDotPath (rootStates : Record StateNodeIR) (dotPath : String) : Option StateNodeIR :=
  if isBlank dotPath then none
  else if (split dotPath).contains "" then none
  else lookupParts rootStates none (split dotPath)

/-- The segments of the container of a source path. -/
def parentSegments (sourceStatePath : String) : List String :=
  (if isBlank sourceStatePath then [] else split sourceStatePath).dropLast

def resolveTargetStatePath (machine : RawMachine) (sourceStatePath targetRef : String) : Option String :=
  if isBlank targetRef then none
  else if "#".toList.isPrefixOf targetRef.toList then
    let stripped := dropPrefix 1 targetRef
    if Dotted.under machine.id stripped then
      (lookupByDotPath machine.states (dropPrefix (machine.id.length + 1) stripped)).map (·.path)
    else (lookupByDotPath machine.states stripped).map (·.path)
  else
    let foundSibling := if parentSegments sourceStatePath = [] then none
      else lookupByDotPath machine.states (Dotted.join (parentSegments sourceStatePath) ++ "." ++ targetRef)
    match foundSibling with
    | some found => some found.path
    | none => (lookupByDotPath machine.states targetRef).map (·.path)

/-! `finalizeAndValidate` -/

/-- The issue of a reference that does not resolve. -/
def referenceIssues (machine : RawMachine) (sourcePath : String) (reference : Option String) (issue : String → String) : List String :=
  match reference with
  | none => []
  | some target => if (resolveTargetStatePath machine sourcePath target).isSome then [] else [issue target]

/-- A blank target counts as none, a blank fallback does not. -/
def validateEdge (machine : RawMachine) (sourcePath label : String) (edge : TransitionEdgeIR) : List String :=
  referenceIssues machine sourcePath (given edge.target)
    (fun target => s!"Unresolvable target '{target}' on {label} in state '{sourcePath}'.") ++
  referenceIssues machine sourcePath (edge.policy.onFail.bind (·.target))
    (fun target => s!"Unresolvable onFail.target '{target}' on {label} in state '{sourcePath}'.")

def initialIssues (path : String) (initial : Option String) (children : Record StateNodeIR) : List String :=
  match given initial with
  | none => [s!"Compound state '{path}' requires an 'initial' child state."]
  | some initial =>
    if Keyed.has children initial then [] else [s!"Compound state '{path}' initial '{initial}' does not exist."]

def shapeIssues (path : String) (type : StateNodeType) (initial : Option String)
    (on : Record TransitionEdgeIR) (children : Record StateNodeIR) : List String :=
  match type with
  | .compound =>
    (if children = [] then [s!"Compound state '{path}' must define child 'states'."] else []) ++ initialIssues path initial children
  | .parallel =>
    (if children = [] then [s!"Parallel state '{path}' must define child region 'states'."] else []) ++
    (if (given initial).isSome then [s!"Parallel state '{path}' must not define 'initial'."] else [])
  | .atomic =>
    (if children = [] then [] else [s!"Atomic state '{path}' cannot contain child 'states'."]) ++
    (if (given initial).isSome then [s!"Atomic state '{path}' cannot define 'initial'."] else [])
  | .final =>
    (if children = [] then [] else [s!"Final state '{path}' cannot contain child 'states'."]) ++
    (if (given initial).isSome then [s!"Final state '{path}' cannot define 'initial'."] else []) ++
    (if on = [] then [] else [s!"Final state '{path}' cannot define outgoing 'on' transitions."])

mutual
def validateNodeRecursive (machine : RawMachine) : StateNodeIR → List String
  | { key := _, path, type, initial, entry := _, exit := _, on, onDone, states, isImplicitError := _ } =>
    shapeIssues path type initial on states ++
    on.flatMap (fun e => validateEdge machine path s!"event '{e.1}'" e.2) ++
    (onDone.elim [] (validateEdge machine path "'onDone'")) ++
    validateNodes machine states
def validateNodes (machine : RawMachine) : List (String × StateNodeIR) → List String
  | [] => []
  | (_,node)::rest => validateNodeRecursive machine node ++ validateNodes machine rest
end

def rootIssues (machine : RawMachine) : List String :=
  match machine.type with
  | .compound => match given machine.initial with
    | none => [s!"Root compound machine '{machine.id}' requires an 'initial' state."]
    | some initial =>
      if Keyed.has machine.states initial then []
      else [s!"Root 'initial' state '{initial}' does not exist in machine '{machine.id}'."]
  | .parallel =>
    if (given machine.initial).isSome then [s!"Root parallel machine '{machine.id}' must not specify 'initial'."] else []

def depthIssues (raw : RawMachine) : List String :=
  match raw.maxEffectChainDepth with
  | none => []
  | some depth => if depth < 1 then [s!"Invalid maxEffectChainDepth '{depth}'. Must be >= 1."] else []

def withErrorState (raw : RawMachine) : MachineDefinition :=
  { raw with
    states := if Keyed.has raw.states "error" then raw.states else put raw.states "error" implicitError
    hasCustomErrorState := Keyed.has raw.states "error" }

def definitionIssues (raw : RawMachine) : List String :=
  let machine := (withErrorState raw).toRawMachine
  (if idMatches raw.id then [] else [s!"Invalid machine id '{raw.id}'. Must match /^[a-zA-Z0-9_-]+$/."]) ++
  depthIssues raw ++
  (if raw.states = [] then [s!"Machine '{raw.id}' must define at least one state."] else []) ++
  rootIssues machine ++
  referenceIssues machine "" (machine.defaults.onFail.bind (·.target))
    (fun target => s!"Unresolvable defaults.onFail.target '{target}'.") ++
  validateNodes machine machine.states

def finalizeAndValidate (raw : RawMachine) : Except (List String) MachineDefinition :=
  if definitionIssues raw = [] then .ok (withErrorState raw) else .error (definitionIssues raw)

end Dfsm.Java
