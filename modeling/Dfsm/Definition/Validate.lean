import Dfsm.Definition.IR

/-! Injection of the implicit error state and validation of a whole definition.
The issue list is the one the thrown error carries; a definition is accepted
exactly when the list is empty. -/
namespace Dfsm
open Keyed (Record)

def implicitError : StateNodeIR :=
  { key := "error", path := "error", type := .final, isImplicitError := true }

def idChar (c : Char) : Bool := c.isAlphanum || c = '_' || c = '-'

def idMatches (id : String) : Bool := id != "" && id.toList.all idChar

def sourceLabel (sourcePath : String) : String := if sourcePath = "" then "<root>" else sourcePath

def validateEdge (machine : RawMachine) (sourcePath label : String) (edge : TransitionEdgeIR) : List String :=
  (match given edge.target with
    | none => []
    | some target => match given (resolveTargetStatePath machine sourcePath target) with
      | some _ => []
      | none => [s!"Unresolvable target '{target}' on {label} in state '{sourceLabel sourcePath}'."]) ++
  (match given (edge.policy.onFail.bind (·.target)) with
    | none => []
    | some target => match given (resolveTargetStatePath machine sourcePath target) with
      | some _ => []
      | none => [s!"Unresolvable onFail.target '{target}' on {label} in state '{sourceLabel sourcePath}'."])

def childKeys (states : Record StateNodeIR) : String := String.intercalate ", " (Keyed.keys states)

def initialIssues (path : String) (initial : Option String) (states : Record StateNodeIR) : List String :=
  match given initial with
  | none => [s!"Compound state '{path}' requires an 'initial' child state."]
  | some child =>
    if Keyed.has states child then []
    else [s!"Compound state '{path}' initial '{child}' does not exist among its child states ({childKeys states})."]

def shapeIssues (path : String) (type : StateNodeType) (initial : Option String)
    (on : Record TransitionEdgeIR) (states : Record StateNodeIR) : List String :=
  match type with
  | .compound =>
    (if states = [] then [s!"Compound state '{path}' must define child 'states'."] else []) ++
    initialIssues path initial states
  | .parallel =>
    (if states = [] then [s!"Parallel state '{path}' must define child region 'states'."] else []) ++
    (if (given initial).isSome then [s!"Parallel state '{path}' must not define 'initial'."] else [])
  | .atomic =>
    (if states = [] then [] else [s!"Atomic state '{path}' cannot contain child 'states'."]) ++
    (if (given initial).isSome then [s!"Atomic state '{path}' cannot define 'initial'."] else [])
  | .final =>
    (if states = [] then [] else [s!"Final state '{path}' cannot contain child 'states'."]) ++
    (if (given initial).isSome then [s!"Final state '{path}' cannot define 'initial'."] else []) ++
    (if on = [] then [] else [s!"Final state '{path}' cannot define outgoing 'on' transitions."])

mutual
def validateNode (machine : RawMachine) : StateNodeIR → List String
  | { key := _, path, type, initial, entry := _, exit := _, on, onDone, states, isImplicitError := _ } =>
    shapeIssues path type initial on states ++
    on.flatMap (fun e => validateEdge machine path s!"event '{e.1}'" e.2) ++
    (onDone.elim [] (validateEdge machine path "'onDone'")) ++
    validateNodes machine states
def validateNodes (machine : RawMachine) : List (String × StateNodeIR) → List String
  | [] => []
  | (_,node)::rest => validateNode machine node ++ validateNodes machine rest
end

def rootIssues (machine : RawMachine) : List String :=
  match machine.type with
  | .compound =>
    match given machine.initial with
    | none => [s!"Root compound machine '{machine.id}' requires an 'initial' state."]
    | some initial =>
      if Keyed.has machine.states initial then []
      else [s!"Root 'initial' state '{initial}' does not exist in machine '{machine.id}' states."]
  | .parallel =>
    if (given machine.initial).isSome then
      [s!"Root parallel machine '{machine.id}' must not specify 'initial'."] else []

def defaultsIssues (machine : RawMachine) : List String :=
  match given (machine.defaults.onFail.bind (·.target)) with
  | none => []
  | some target => match given (resolveTargetStatePath machine "" target) with
    | some _ => []
    | none => [s!"Unresolvable defaults.onFail.target '{target}' in machine '{machine.id}'."]

def depthIssues (raw : RawMachine) : List String :=
  match raw.maxEffectChainDepth with
  | none => []
  | some depth => if depth < 1 then
      [s!"Invalid maxEffectChainDepth '{depth}' in machine '{raw.id}'. Must be an integer >= 1."] else []

def injectErrorState (raw : RawMachine) : MachineDefinition :=
  let custom := Keyed.has raw.states "error"
  { raw with
    states := if custom then raw.states else Keyed.set raw.states "error" implicitError
    hasCustomErrorState := custom }

def definitionIssues (raw : RawMachine) : List String :=
  let machine := (injectErrorState raw).toRawMachine
  (if idMatches raw.id then [] else
    [s!"Invalid machine id '{raw.id}'. Must match /^[a-zA-Z0-9_-]+$/."]) ++
  depthIssues raw ++
  (if raw.states = [] then [s!"Machine '{raw.id}' must define at least one state."] else []) ++
  rootIssues machine ++ defaultsIssues machine ++ validateNodes machine machine.states

def finalizeAndValidateMachineIR (raw : RawMachine) : Except (List String) MachineDefinition :=
  if definitionIssues raw = [] then .ok (injectErrorState raw) else .error (definitionIssues raw)

/-- The shape the validator enforces on every node of an accepted definition. -/
inductive Valid : StateNodeIR → Prop where
  | leaf {node} (leaf : node.isLeaf = true) (empty : node.states = []) : Valid node
  | compound {node initial child} (type : node.type = .compound)
      (start : node.initial = some initial) (found : Keyed.get node.states initial = some child)
      (children : ∀ e ∈ node.states, Valid e.2) : Valid node
  | parallel {node} (type : node.type = .parallel) (some : node.states ≠ [])
      (children : ∀ e ∈ node.states, Valid e.2) : Valid node

theorem initialIssuesNil {path initial states} (h : initialIssues path initial states = []) :
    ∃ child node, initial = some child ∧ Keyed.get states child = some node := by
  unfold initialIssues at h
  split at h
  · simp at h
  · rename_i child hc
    split at h
    · rename_i present
      obtain ⟨node,found⟩ := Option.isSome_iff_exists.mp present
      exact ⟨child,node,(Option.filter_eq_some_iff.mp hc).1,found⟩
    · simp at h

theorem validShape {node : StateNodeIR}
    (shape : shapeIssues node.path node.type node.initial node.on node.states = [])
    (children : ∀ e ∈ node.states, Valid e.2) : Valid node := by
  cases ht : node.type with
  | atomic =>
    simp only [ht,shapeIssues,List.append_eq_nil_iff,ite_eq_left_iff] at shape
    exact .leaf (by simp [StateNodeIR.isLeaf,ht]) (by simpa using shape.1)
  | final =>
    simp only [ht,shapeIssues,List.append_eq_nil_iff] at shape
    exact .leaf (by simp [StateNodeIR.isLeaf,ht]) (by simpa using shape.1.1)
  | compound =>
    simp only [ht,shapeIssues,List.append_eq_nil_iff] at shape
    obtain ⟨child,found,start,has⟩ := initialIssuesNil shape.2
    exact .compound ht start has children
  | parallel =>
    simp only [ht,shapeIssues,List.append_eq_nil_iff] at shape
    exact .parallel ht (by simpa using shape.1) children

mutual
theorem validNode (machine : RawMachine) : (node : StateNodeIR) →
    validateNode machine node = [] → Valid node
  | { key, path, type, initial, entry, exit, on, onDone, states, isImplicitError }, h => by
    simp only [validateNode,List.append_eq_nil_iff] at h
    exact validShape h.1.1.1 (validNodes machine states h.2)
theorem validNodes (machine : RawMachine) : (states : List (String × StateNodeIR)) →
    validateNodes machine states = [] → ∀ e ∈ states, Valid e.2
  | [], _ => by simp
  | (key,node)::rest, h => by
    simp only [validateNodes,List.append_eq_nil_iff] at h
    intro e mem
    rcases List.mem_cons.mp mem with same | inside
    · subst e; exact validNode machine node h.1
    · exact validNodes machine rest h.2 e inside
end

def Accepted (machine : MachineDefinition) : Prop :=
  ∃ raw, finalizeAndValidateMachineIR raw = .ok machine

theorem acceptedIssues {machine} (h : Accepted machine) :
    ∃ raw, machine = injectErrorState raw ∧ definitionIssues raw = [] := by
  obtain ⟨raw,ok⟩ := h
  unfold finalizeAndValidateMachineIR at ok
  split at ok
  · cases ok; exact ⟨raw,rfl,by assumption⟩
  · contradiction

theorem acceptedValid {machine} (h : Accepted machine) : ∀ e ∈ machine.states, Valid e.2 := by
  obtain ⟨raw,rfl,none⟩ := acceptedIssues h
  simp only [definitionIssues,List.append_eq_nil_iff] at none
  exact validNodes _ _ none.2

theorem acceptedInitial {machine} (h : Accepted machine) (compound : machine.type = .compound) :
    ∃ initial node, machine.initial = some initial ∧ Keyed.get machine.states initial = some node := by
  obtain ⟨raw,rfl,none⟩ := acceptedIssues h
  simp only [definitionIssues,List.append_eq_nil_iff,rootIssues,compound] at none
  have root := none.1.1.2
  split at root
  · simp at root
  · rename_i initial hi
    split at root
    · rename_i present
      obtain ⟨node,found⟩ := Option.isSome_iff_exists.mp present
      exact ⟨initial,node,(Option.filter_eq_some_iff.mp hi).1,found⟩
    · simp at root

theorem acceptedError {machine} (h : Accepted machine) : Keyed.has machine.states "error" = true := by
  obtain ⟨raw,rfl,_⟩ := acceptedIssues h
  simp only [injectErrorState]
  split
  · assumption
  · simp [Keyed.has]

end Dfsm
