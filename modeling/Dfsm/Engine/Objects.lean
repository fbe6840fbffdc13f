import Dfsm.Engine.Configuration

/-! Definitions as the plain objects they are: `states[key]` also finds what every object
inherits, and reading below such a value throws. Validation, target resolution and entry
on that level; where no inherited name comes in they are those of records. -/
namespace Dfsm.Objects
open Keyed (Record)

/-- What a lookup finds: a declared state, or a property of every object. -/
inductive Slot where
  | own (node : StateNodeIR)
  | inherited

def Slot.path : Slot → Option String
  | own node => some node.path
  | inherited => none

/-- `states[key]` -/
def slot (states : Record StateNodeIR) (key : String) : Option Slot :=
  match Keyed.get states key with
  | some node => some (.own node)
  | none => if inheritedNames.contains key then some .inherited else none

/-- Of an inherited value `states` is undefined, and undefined cannot be indexed. -/
def inheritedStates : List String → Except String (Option Slot)
  | [] => .ok (some .inherited)
  | next::_ => .error s!"Cannot read properties of undefined (reading '{next}')"

def lookupSlots : Record StateNodeIR → Option Slot → List String → Except String (Option Slot)
  | _, current, [] => .ok current
  | states, _, part::rest => match slot states part with
    | none => .ok none
    | some (.own node) => lookupSlots node.states (some (.own node)) rest
    | some .inherited => inheritedStates rest

def lookupByDotPath (states : Record StateNodeIR) (dotPath : String) : Except String (Option Slot) :=
  lookupSlots states none (Dotted.parts dotPath)

def getNodeByPath (machine : RawMachine) (dotPath : String) : Except String (Option Slot) :=
  lookupByDotPath machine.states dotPath

/-- `lookupByDotPath(dotPath)?.path ?? null` -/
def pathAt (states : Record StateNodeIR) (dotPath : String) : Except String (Option String) :=
  (lookupByDotPath states dotPath).map (·.bind Slot.path)

def siblingAt (states : Record StateNodeIR) (sourceStatePath targetRef : String) : Except String (Option Slot) :=
  if parentSegments sourceStatePath = [] then .ok none
  else lookupByDotPath states (Dotted.join (parentSegments sourceStatePath ++ [targetRef]))

def resolveTargetStatePath (machine : RawMachine) (sourceStatePath targetRef : String) : Except String (Option String) :=
  if "#".toList.isPrefixOf targetRef.toList then
    let stripped := dropPrefix 1 targetRef
    if Dotted.under machine.id stripped then pathAt machine.states (dropPrefix (machine.id.length + 1) stripped)
    else pathAt machine.states stripped
  else siblingAt machine.states sourceStatePath targetRef >>= fun
    | some found => .ok found.path
    | none => pathAt machine.states targetRef

/-- The issue of a reference that is given and does not resolve. -/
def validateReference (machine : RawMachine) (sourcePath : String) (reference : Option String) (issue : String → String) :
    Except String (List String) :=
  match given reference with
  | none => pure []
  | some target => do
    match given (← resolveTargetStatePath machine sourcePath target) with
    | some _ => pure []
    | none => pure [issue target]

def validateEdge (machine : RawMachine) (sourcePath label : String) (edge : TransitionEdgeIR) : Except String (List String) := do
  let target ← validateReference machine sourcePath edge.target
    (fun target => s!"Unresolvable target '{target}' on {label} in state '{sourceLabel sourcePath}'.")
  let fallback ← validateReference machine sourcePath (edge.policy.onFail.bind (·.target))
    (fun target => s!"Unresolvable onFail.target '{target}' on {label} in state '{sourceLabel sourcePath}'.")
  pure (target ++ fallback)

def initialIssues (path : String) (initial : Option String) (states : Record StateNodeIR) : List String :=
  match given initial with
  | none => [s!"Compound state '{path}' requires an 'initial' child state."]
  | some child =>
    if (slot states child).isSome then []
    else [s!"Compound state '{path}' initial '{child}' does not exist among its child states ({childKeys states})."]

def shapeIssues (path : String) (type : StateNodeType) (initial : Option String)
    (on : Record TransitionEdgeIR) (states : Record StateNodeIR) : List String :=
  match type with
  | .compound =>
    (if states = [] then [s!"Compound state '{path}' must define child 'states'."] else []) ++
    initialIssues path initial states
  | _ => Dfsm.shapeIssues path type initial on states

mutual
def validateNode (machine : RawMachine) : StateNodeIR → Except String (List String)
  | { key := _, path, type, initial, entry := _, exit := _, on, onDone, states, isImplicitError := _ } => do
    let edges ← on.mapM (fun e => validateEdge machine path s!"event '{e.1}'" e.2)
    let done ← onDone.elim (pure []) (validateEdge machine path "'onDone'")
    let below ← validateNodes machine states
    pure (shapeIssues path type initial on states ++ edges.flatten ++ done ++ below)
def validateNodes (machine : RawMachine) : List (String × StateNodeIR) → Except String (List String)
  | [] => pure []
  | (_,node)::rest => do
    let here ← validateNode machine node
    let later ← validateNodes machine rest
    pure (here ++ later)
end

def rootIssues (machine : RawMachine) : List String :=
  match machine.type with
  | .compound =>
    match given machine.initial with
    | none => [s!"Root compound machine '{machine.id}' requires an 'initial' state."]
    | some initial =>
      if (slot machine.states initial).isSome then []
      else [s!"Root 'initial' state '{initial}' does not exist in machine '{machine.id}' states."]
  | .parallel => Dfsm.rootIssues machine

def defaultsIssues (machine : RawMachine) : Except String (List String) :=
  validateReference machine "" (machine.defaults.onFail.bind (·.target))
    (fun target => s!"Unresolvable defaults.onFail.target '{target}' in machine '{machine.id}'.")

def definitionIssues (raw : RawMachine) : Except String (List String) := do
  let machine := (injectErrorState raw).toRawMachine
  let defaults ← defaultsIssues machine
  let nodes ← validateNodes machine machine.states
  pure ((if idMatches raw.id then [] else
      [s!"Invalid machine id '{raw.id}'. Must match /^[a-zA-Z0-9_-]+$/."]) ++
    depthIssues raw ++
    (if raw.states = [] then [s!"Machine '{raw.id}' must define at least one state."] else []) ++
    rootIssues machine ++ defaults ++ nodes)

inductive DefinitionError where
  | machineValidation (issues : List String)
  | typeError (message : String)

def finalizeAndValidateMachineIR (raw : RawMachine) : Except DefinitionError MachineDefinition :=
  match definitionIssues raw with
  | .ok [] => .ok (injectErrorState raw)
  | .ok issues => .error (.machineValidation issues)
  | .error message => .error (.typeError message)

/-- The value a container holds for a child that has been entered. -/
def slotValue (key : String) : Option StateValue → StateValue
  | none => .str key
  | some sub => .obj [(key,sub)]

/-- An inherited value has no entry effects to spread. -/
def notIterable : String := "node.entry is not iterable"

mutual
def enterSubtree : StateNodeIR → Except String (Option StateValue)
  | { key := _, path := _, type, initial, entry := _, exit := _, on := _, onDone := _, states, isImplicitError := _ } =>
    match type with
    | .atomic | .final => pure none
    | .compound => do pure ((← enterInitial states initial).map (fun e => slotValue e.1 e.2))
    | .parallel => do pure (some (.obj (← enterRegions states)))
def enterInitial : List (String × StateNodeIR) → Option String → Except String (Option (String × Option StateValue))
  | [], initial => if initial.any inheritedNames.contains then .error notIterable else pure none
  | (key,node)::rest, initial =>
    if initial = some key then do pure (some (node.key,← enterSubtree node)) else enterInitial rest initial
def enterRegions : List (String × StateNodeIR) → Except String (List (String × StateValue))
  | [] => pure []
  | (key,node)::rest => do
    let entered ← enterSubtree node
    let later ← enterRegions rest
    pure ((key,entered.getD (.str key))::later)
end

def resolveInitialState (machine : RawMachine) : Except String StateValue :=
  match machine.type with
  | .parallel => do pure (.obj (← enterRegions (machine.states.filter (fun e => !e.2.isImplicitError))))
  | _ => do
    match ← enterInitial machine.states machine.initial with
    | none => .error notIterable
    | some (key,entered) => pure (slotValue key entered)

/-- The target is resolved, found and entered; what follows looks up only states that the
current value and the two paths name. -/
def applyTargetTransition (machine : RawMachine) (currentStateValue : StateValue) (sourceStatePath targetRef : String) :
    Except String AppliedTransition := do
  match given (← resolveTargetStatePath machine sourceStatePath targetRef) with
  | none => .error s!"Cannot resolve target '{targetRef}' from state '{sourceStatePath}' in machine '{machine.id}'"
  | some targetPath => match ← getNodeByPath machine targetPath with
    | some (.own targetNode) => do
      let _ ← enterSubtree targetNode
      match Dfsm.applyTargetTransition machine currentStateValue sourceStatePath targetRef with
      | some applied => pure applied
      | none => .error notIterable
    | _ => .error notIterable

end Dfsm.Objects
