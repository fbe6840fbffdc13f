import Dfsm.Csharp.Machine

/-! What `YamlMachineParser` still checks of a definition that it has built, and what
`MachineBuilder` does. -/
namespace Dfsm.Csharp

mutual
def namesBelow (path : String) : StateDefinition → List String
  | { id := _, type := _, initial := _, states, on := _, onDone := _, entry := _, exit := _ } => collectStateNames path states
def collectStateNames (above : String) : List (String × StateDefinition) → List String
  | [] => []
  | (name,s)::rest => childPath above name::name::namesBelow (childPath above name) s ++ collectStateNames above rest
end

/-- A target that is given and that no state is named by. -/
def unknownTarget (allKnown : List String) (edges : List TransitionDefinition) : Option String :=
  (edges.find? (fun t => t.target != "" && !allKnown.contains t.target)).map (·.target)

/-- The checks of one state, before those of the states below it. -/
def stateError (allKnown : List String) (machineId : String) (s : StateDefinition) : Option String :=
  if s.isCompound && !s.states.isEmpty && (given s.initial).isNone then
    some s!"Compound state '{s.id}' must define an initial child state."
  else if s.isCompound && !s.states.isEmpty && !(given s.initial).any (Keyed.has s.states) then
    some (s!"Compound state '{s.id}' initial state '" ++ s.initial.getD "" ++ "' not found in child states.")
  else ((unknownTarget allKnown (s.on.flatMap (·.2))).map
      (fun target => s!"Transition target '{target}' from state '{s.id}' does not exist in machine '{machineId}'.")).or
    ((unknownTarget allKnown s.onDone).map
      (fun target => s!"onDone target '{target}' from state '{s.id}' does not exist in machine '{machineId}'."))

mutual
def validateState (allKnown : List String) (machineId : String) : StateDefinition → Option String
  | { id, type, initial, states, on, onDone, entry, exit } =>
    (stateError allKnown machineId { id, type, initial, states, on, onDone, entry, exit }).or
      (validateStateHierarchy allKnown machineId states)
def validateStateHierarchy (allKnown : List String) (machineId : String) : List (String × StateDefinition) → Option String
  | [] => none
  | (_,s)::rest => (validateState allKnown machineId s).or (validateStateHierarchy allKnown machineId rest)
end

/-- The message of the exception, none where the definition is accepted. -/
def validateAst (m : MachineDefinition) : Option String :=
  if isType m.type "parallel" then none
  else if m.initial = "" then some s!"Machine '{m.id}' missing required root initial state."
  else if !Keyed.has m.states m.initial then some s!"Machine '{m.id}' initial state '{m.initial}' does not exist in states."
  else validateStateHierarchy (collectStateNames "" m.states) m.id m.states

mutual
/-- The dictionaries have each key once, and a state has its key as its id. -/
def keyedBelow : StateDefinition → Bool
  | { id := _, type := _, initial := _, states, on := _, onDone := _, entry := _, exit := _ } =>
    decide (Keyed.keys states).Nodup && keyedStates states
def keyedStates : List (String × StateDefinition) → Bool
  | [] => true
  | (key,s)::rest => s.id = key && keyedBelow s && keyedStates rest
end

/-- As `YamlMachineParser.Parse` or `MachineBuilder.Build` returns it. -/
structure Accepted (m : MachineDefinition) : Prop where
  unique : (Keyed.keys m.states).Nodup
  keyed : keyedStates m.states = true
  error : Keyed.has m.states "error" = true
  valid : validateAst m = none ∨ m.initial ≠ ""

instance (m : MachineDefinition) : Decidable (Accepted m) :=
  decidable_of_iff ((Keyed.keys m.states).Nodup ∧ keyedStates m.states = true ∧ Keyed.has m.states "error" = true ∧
      (validateAst m = none ∨ m.initial ≠ ""))
    ⟨fun ⟨a,b,c,d⟩ => ⟨a,b,c,d⟩,fun ⟨a,b,c,d⟩ => ⟨a,b,c,d⟩⟩

end Dfsm.Csharp
