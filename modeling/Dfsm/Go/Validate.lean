import Dfsm.Go.Machine

/-! What `ParseYamlMachine` still checks of a definition that it has built. -/
namespace Dfsm.Go

mutual
def namesBelow (path : String) : StateDefinition → List String
  | { id := _, type := _, initial := _, states, on := _, onDone := _, entry := _, exit := _ } => collectAllStateNames path states
def collectAllStateNames (above : String) : List (String × StateDefinition) → List String
  | [] => []
  | (name,s)::rest => childPath above name::name::namesBelow (childPath above name) s ++ collectAllStateNames above rest
end

/-- The checks of one state, before those of the states below it. -/
def stateError (allStates : List String) (machineId : String) (s : StateDefinition) : Option String :=
  if s.isCompound && !s.states.isEmpty && s.initial = "" then
    some s!"Compound state '{s.id}' must define initial child state"
  else if s.isCompound && !s.states.isEmpty && !Keyed.has s.states s.initial then
    some s!"Compound state '{s.id}' initial state '{s.initial}' not found"
  else ((s.on.flatMap (·.2)).find? (fun t => t.target != "" && !allStates.contains t.target)).map
    (fun t => s!"Transition target '{t.target}' from state '{s.id}' does not exist in machine '{machineId}'")

mutual
def validateState (allStates : List String) (machineId : String) : StateDefinition → Option String
  | { id, type, initial, states, on, onDone, entry, exit } =>
    (stateError allStates machineId { id, type, initial, states, on, onDone, entry, exit }).or
      (validateHierarchy allStates machineId states)
def validateHierarchy (allStates : List String) (machineId : String) : List (String × StateDefinition) → Option String
  | [] => none
  | (_,s)::rest => (validateState allStates machineId s).or (validateHierarchy allStates machineId rest)
end

/-- The message of the error, none where the definition is accepted. -/
def validateMachineAst (m : MachineDefinition) : Option String :=
  if equalFold m.type "parallel" then none
  else if m.initial = "" then some s!"Machine '{m.id}' missing required root initial state"
  else if !Keyed.has m.states m.initial then some s!"Machine '{m.id}' initial state '{m.initial}' does not exist in states"
  else validateHierarchy (collectAllStateNames "" m.states) m.id m.states

mutual
/-- The maps have each key once, and a state has its key as its id. -/
def keyedBelow : StateDefinition → Bool
  | { id := _, type := _, initial := _, states, on := _, onDone := _, entry := _, exit := _ } =>
    decide (Keyed.keys states).Nodup && keyedStates states
def keyedStates : List (String × StateDefinition) → Bool
  | [] => true
  | (key,s)::rest => s.id = key && keyedBelow s && keyedStates rest
end

/-- As `ParseYamlMachine` returns it. -/
structure Parsed (m : MachineDefinition) : Prop where
  unique : (Keyed.keys m.states).Nodup
  keyed : keyedStates m.states = true
  error : Keyed.has m.states "error" = true
  valid : validateMachineAst m = none

instance (m : MachineDefinition) : Decidable (Parsed m) :=
  decidable_of_iff ((Keyed.keys m.states).Nodup ∧ keyedStates m.states = true ∧ Keyed.has m.states "error" = true ∧ validateMachineAst m = none)
    ⟨fun ⟨a,b,c,d⟩ => ⟨a,b,c,d⟩,fun ⟨a,b,c,d⟩ => ⟨a,b,c,d⟩⟩

end Dfsm.Go
