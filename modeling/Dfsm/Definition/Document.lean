import Dfsm.Definition.Validate

/-! A definition as a document: the tree that YAML gives where the JSON schema admits it, and
its states with their places. -/
namespace Dfsm
open Keyed (Record)
namespace Document

structure RetryConfig where
  maxAttempts : Option Int := none
  deriving DecidableEq, Repr

structure CircuitBreakerConfig where
  enabled : Option Bool := none
  failureThreshold : Option Int := none
  openDurationMs : Option Int := none
  halfOpenMaxCalls : Option Int := none
  deriving DecidableEq, Repr

structure OnFailConfig where
  compensate : Option Bool := none
  target : Option String := none
  deriving DecidableEq, Repr

structure TransitionPolicy where
  retry : Option RetryConfig := none
  circuitBreaker : Option CircuitBreakerConfig := none
  onFail : Option OnFailConfig := none
  deriving DecidableEq, Repr

structure Edge extends TransitionPolicy where
  target : Option String := none
  transition : Option String := none
  compensate : Option String := none
  effects : List String := []
  deriving DecidableEq, Repr

/-- A string stands for an edge that only has a target. -/
inductive TransitionDefinition where
  | shorthand (target : String)
  | full (edge : Edge)
  deriving DecidableEq, Repr

/-- A node that has no `states` has none below it. -/
structure StateNode where
  type : Option StateNodeType := none
  initial : Option String := none
  entry : List String := []
  exit : List String := []
  on : List (String × TransitionDefinition) := []
  onDone : Option TransitionDefinition := none
  states : List (String × StateNode) := []

end Document

structure Document where
  id : String
  type : Option MachineType := none
  initial : Option String := none
  namespaceName : Option String := none
  strict : Option Bool := none
  defaults : Option Document.TransitionPolicy := none
  maxEffectChainDepth : Option Int := none
  states : List (String × Document.StateNode)

namespace Document

def TransitionDefinition.toEdge : TransitionDefinition → Edge
  | .shorthand target => { target := some target }
  | .full edge => edge

/-! What the schema admits. -/

/-- `minLength: 1` -/
def filled (text : Option String) : Bool := text.all (· != "")

/-- `minimum: 1` -/
def positive (n : Option Int) : Bool := n.all (1 ≤ ·)

def TransitionPolicy.admitted (policy : TransitionPolicy) : Bool :=
  policy.retry.all (fun retry => positive retry.maxAttempts) &&
    policy.circuitBreaker.all (fun breaker =>
      positive breaker.failureThreshold && positive breaker.openDurationMs && positive breaker.halfOpenMaxCalls) &&
    policy.onFail.all (fun onFail => filled onFail.target)

def Edge.admitted (edge : Edge) : Bool :=
  edge.toTransitionPolicy.admitted && filled edge.target && filled edge.transition && filled edge.compensate &&
    edge.effects.all (· != "")

/-- A mapping has each key once. JavaScript takes `__proto__` for no key of an object: with it the
tree is not the same in all SDKs. -/
def uniqueKeys {α : Type} (entries : Record α) : Bool := decide (Keyed.keys entries).Nodup && !(Keyed.keys entries).contains "__proto__"

mutual
def StateNode.admitted : StateNode → Bool
  | { type := _, initial, entry, exit, on, onDone, states } =>
    filled initial && entry.all (· != "") && exit.all (· != "") && uniqueKeys on && on.all (·.2.toEdge.admitted) &&
      onDone.all (·.toEdge.admitted) && uniqueKeys states && statesAdmitted states
def statesAdmitted : List (String × StateNode) → Bool
  | [] => true
  | (_,node)::rest => node.admitted && statesAdmitted rest
end

structure Admitted (d : Document) : Prop where
  id : idMatches d.id = true
  texts : filled d.initial = true ∧ filled d.namespaceName = true
  initial : d.type = some .parallel ∨ d.initial.isSome = true
  defaults : d.defaults.all TransitionPolicy.admitted = true
  depth : positive d.maxEffectChainDepth = true
  nonempty : d.states.isEmpty = false
  unique : uniqueKeys d.states = true
  states : statesAdmitted d.states = true

instance (d : Document) : Decidable (Admitted d) :=
  decidable_of_iff (idMatches d.id = true ∧ (filled d.initial = true ∧ filled d.namespaceName = true) ∧
      (d.type = some .parallel ∨ d.initial.isSome = true) ∧ d.defaults.all TransitionPolicy.admitted = true ∧
      positive d.maxEffectChainDepth = true ∧ d.states.isEmpty = false ∧ uniqueKeys d.states = true ∧ statesAdmitted d.states = true)
    ⟨fun all => ⟨all.1,all.2.1,all.2.2.1,all.2.2.2.1,all.2.2.2.2.1,all.2.2.2.2.2.1,all.2.2.2.2.2.2.1,all.2.2.2.2.2.2.2⟩,
      fun admitted => ⟨admitted.id,admitted.texts,admitted.initial,admitted.defaults,admitted.depth,admitted.nonempty,admitted.unique,
        admitted.states⟩⟩

/-! States and their places. -/

structure Place where
  key : String
  path : String
  node : StateNode

mutual
def placesBelow (path : String) : StateNode → List Place
  | { type := _, initial := _, entry := _, exit := _, on := _, onDone := _, states } => places path states
/-- Every state of a mapping, and every state below one. -/
def places (parentPath : String) : List (String × StateNode) → List Place
  | [] => []
  | (key,node)::rest => ⟨key,childPath parentPath key,node⟩::placesBelow (childPath parentPath key) node ++ places parentPath rest
end

/-- One set of names: the key and the path of every state, and the error state. -/
def Known (d : Document) (target : String) : Prop :=
  target = "error" ∨ ∃ p ∈ places "" d.states, target = p.path ∨ target = p.key

/-- A state with states below it starts at one of them, unless it is parallel. -/
def Starts (node : StateNode) : Prop :=
  node.states ≠ [] → node.type ≠ some .parallel → ∃ initial, given node.initial = some initial ∧ Keyed.has node.states initial = true

def TargetsKnown (d : Document) (edges : List Edge) : Prop :=
  ∀ edge ∈ edges, ∀ target, given edge.target = some target → d.Known target

def StateNode.onEdges (node : StateNode) : List Edge := node.on.map (·.2.toEdge)
def StateNode.edges (node : StateNode) : List Edge := node.onEdges ++ (node.onDone.map (·.toEdge)).toList

/-- What is looked for where the names of all states are one set: starts that are states, and
targets that are among the names, of these edges. -/
structure Named (edges : StateNode → List Edge) (d : Document) : Prop where
  root : ∃ initial, given d.initial = some initial ∧ (initial = "error" ∨ Keyed.has d.states initial = true)
  starts : ∀ p ∈ places "" d.states, Starts p.node
  targets : ∀ p ∈ places "" d.states, d.TargetsKnown (edges p.node)

end Document
end Dfsm
