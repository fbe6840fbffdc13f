import Dfsm.Definition.IR
import Mathlib.Data.Rat.Defs

/-! The machine definition with all its fields: whole policies, hooks, effects and texts. -/
namespace Dfsm.Complete

/- `P` is what partial policies are: those of the runtime, or those that can be written down. -/

structure TransitionEdgeIR (P : Type) where
  event : String
  target : Option String := none
  transition : Option String := none
  compensate : Option String := none
  effects : List String := []
  description : Option String := none
  policy : P

structure StateNodeIR (P : Type) where
  key : String
  path : String
  type : StateNodeType
  description : Option String := none
  initial : Option String := none
  entry : List String := []
  exit : List String := []
  on : List (String × TransitionEdgeIR P) := []
  onDone : Option (TransitionEdgeIR P) := none
  states : List (String × StateNodeIR P) := []
  isImplicitError : Bool := false

inductive LifecycleHookName where
  | onStart | beforeTransition | afterTransition | onCompensate | onComplete | onTerminal
  deriving DecidableEq, Repr

def hookSlots : List LifecycleHookName :=
  [.onStart,.beforeTransition,.afterTransition,.onCompensate,.onComplete,.onTerminal]

/-- The handlers of each slot. -/
abbrev MachineHooksIR := LifecycleHookName → List String

/-- What is validated and given its error state: a definition of either front end. -/
structure RawDefinition (P : Type) where
  id : String
  version : String
  description : Option String := none
  type : MachineType := .compound
  initial : Option String := none
  registry : RegistryBindingIR := {}
  defaults : P
  hooks : MachineHooksIR := fun _ => []
  effects : List String := []
  maxEffectChainDepth : Option ℚ := none
  states : List (String × StateNodeIR P) := []

inductive MachineSource where
  | yaml | builder
  deriving DecidableEq, Repr

structure MachineDefinition (P : Type) extends RawDefinition P where
  source : MachineSource
  hasCustomErrorState : Bool

variable {P : Type}

mutual
/-- A state and all below it, each before its children. -/
def nodesOf : StateNodeIR P → List (StateNodeIR P)
  | { key, path, type, description, initial, entry, exit, on, onDone, states, isImplicitError } =>
    { key, path, type, description, initial, entry, exit, on, onDone, states, isImplicitError }::nodesBelow states
def nodesBelow : List (String × StateNodeIR P) → List (StateNodeIR P)
  | [] => []
  | (_,node)::rest => nodesOf node ++ nodesBelow rest
end

/-- The edges of a state with the events they are bound to. -/
def StateNodeIR.boundEdges (node : StateNodeIR P) : List (String × TransitionEdgeIR P) :=
  node.on ++ (node.onDone.map ("$onDone",·)).toList

end Dfsm.Complete
