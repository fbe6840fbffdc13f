import Dfsm.Definition.Complete
import Dfsm.Policy.Merger
import Dfsm.Lib.Json
import Dfsm.Lib.Ordered
import Dfsm.Engine.Documents

/-! Descriptions of machines, the documents they are written as, and the calls that build them. -/
namespace Dfsm.Complete
open Keyed (Record mapValues)
open Policy (BackoffStrategy)

/-! Partial policies that can be written down. -/

structure BackoffConfig where
  strategy : Option BackoffStrategy := none
  initialDelayMs : Option ℚ := none
  maxDelayMs : Option ℚ := none
  multiplier : Option ℚ := none

structure RetryConfig where
  maxAttempts : Option ℚ := none
  backoff : Option BackoffConfig := none

structure CircuitBreakerConfig where
  enabled : Option Bool := none
  key : Option String := none
  failureThreshold : Option ℚ := none
  slidingWindowSize : Option ℚ := none
  openDurationMs : Option ℚ := none
  halfOpenMaxCalls : Option ℚ := none

structure OnFailConfig where
  compensate : Option Bool := none
  target : Option String := none

structure BenchmarkConfig where
  enabled : Option Bool := none

structure PolicySections where
  retry : Option RetryConfig := none
  circuitBreaker : Option CircuitBreakerConfig := none
  onFail : Option OnFailConfig := none
  benchmark : Option BenchmarkConfig := none

structure PartialTransitionPolicy extends PolicySections where
  compensateHandler : Option String := none

abbrev WrittenEdge := TransitionEdgeIR PartialTransitionPolicy
abbrev WrittenNode := StateNodeIR PartialTransitionPolicy

/-! Descriptions. `typed` says whether the type is written out where it could be inferred. -/

structure EdgeDescription extends PolicySections where
  target : Option String := none
  transition : Option String := none
  compensate : Option String := none
  effects : Option (List String) := none
  description : Option String := none

inductive TransitionDescription where
  | short (target : String)
  | long (edge : EdgeDescription)

inductive Kind where
  | atomic (typed : Bool)
  | compound (initial : String) (typed : Bool)
  | parallel
  | final

structure StateDescription where
  kind : Kind
  description : Option String := none
  entry : List String := []
  exit : List String := []
  on : List (String × TransitionDescription) := []
  onDone : Option TransitionDescription := none
  states : List (String × StateDescription) := []

inductive HookRef where
  | one (name : String)
  | many (names : List String)

inductive RootKind where
  | compound (initial : Option String) (typed : Bool)
  | parallel

structure RegistryDescription where
  namespaceName : Option String := none
  strict : Option Bool := none

structure MachineDescription where
  id : String
  version : Option String := none
  description : Option String := none
  kind : RootKind
  registry : Option RegistryDescription := none
  defaults : Option PartialTransitionPolicy := none
  hooks : LifecycleHookName → Option HookRef := fun _ => none
  effects : List String := []
  maxEffectChainDepth : Option ℚ := none
  states : List (String × StateDescription)

def Kind.type : Kind → StateNodeType
  | .atomic _ => .atomic
  | .compound .. => .compound
  | .parallel => .parallel
  | .final => .final

def Kind.initial : Kind → Option String
  | .compound initial _ => some initial
  | _ => none

/-! The document of a description. -/

def strategyText : BackoffStrategy → String
  | .fixed => "fixed"
  | .linear => "linear"
  | .exponential => "exponential"
  | .exponential_jitter => "exponential_jitter"

def typeText : StateNodeType → String
  | .atomic => "atomic"
  | .compound => "compound"
  | .parallel => "parallel"
  | .final => "final"

def Kind.typeText : Kind → Option String
  | .atomic typed => if typed then some "atomic" else none
  | .compound _ typed => if typed then some "compound" else none
  | .parallel => some "parallel"
  | .final => some "final"

def textsJson (names : List String) : Json := .list (names.map .text)

def someTexts (names : List String) : Option Json := if names.isEmpty then none else some (textsJson names)

def mappingJson (entries : List (String × Json)) : Option Json := if entries.isEmpty then none else some (.object (assignAll entries))

def backoffJson (backoff : BackoffConfig) : Json := .object (Json.fields [
  ("strategy",backoff.strategy.map (.text ∘ strategyText)),
  ("initialDelayMs",backoff.initialDelayMs.map .number),
  ("maxDelayMs",backoff.maxDelayMs.map .number),
  ("multiplier",backoff.multiplier.map .number)])

def retryJson (retry : RetryConfig) : Json := .object (Json.fields [
  ("maxAttempts",retry.maxAttempts.map .number),
  ("backoff",retry.backoff.map backoffJson)])

def circuitBreakerJson (breaker : CircuitBreakerConfig) : Json := .object (Json.fields [
  ("enabled",breaker.enabled.map .flag),
  ("key",breaker.key.map .text),
  ("failureThreshold",breaker.failureThreshold.map .number),
  ("slidingWindowSize",breaker.slidingWindowSize.map .number),
  ("openDurationMs",breaker.openDurationMs.map .number),
  ("halfOpenMaxCalls",breaker.halfOpenMaxCalls.map .number)])

def onFailJson (onFail : OnFailConfig) : Json := .object (Json.fields [
  ("compensate",onFail.compensate.map .flag),
  ("target",onFail.target.map .text)])

def benchmarkJson (benchmark : BenchmarkConfig) : Json := .object (Json.fields [("enabled",benchmark.enabled.map .flag)])

def sectionFields (sections : PolicySections) : List (String × Option Json) := [
  ("retry",sections.retry.map retryJson),
  ("circuitBreaker",sections.circuitBreaker.map circuitBreakerJson),
  ("onFail",sections.onFail.map onFailJson),
  ("benchmark",sections.benchmark.map benchmarkJson)]

def policyJson (policy : PartialTransitionPolicy) : Json :=
  .object (Json.fields (sectionFields policy.toPolicySections ++ [("compensate",policy.compensateHandler.map .text)]))

def edgeJson : TransitionDescription → Json
  | .short target => .text target
  | .long edge => .object (Json.fields (sectionFields edge.toPolicySections ++ [
      ("target",edge.target.map .text),
      ("transition",edge.transition.map .text),
      ("compensate",edge.compensate.map .text),
      ("effects",edge.effects.map textsJson),
      ("description",edge.description.map .text)]))

mutual
def stateJson : StateDescription → Json
  | { kind, description, entry, exit, on, onDone, states } => .object (Json.fields [
      ("type",kind.typeText.map .text),
      ("description",description.map .text),
      ("initial",kind.initial.map .text),
      ("entry",someTexts entry),
      ("exit",someTexts exit),
      ("on",mappingJson (mapValues (fun _ => edgeJson) on)),
      ("onDone",onDone.map edgeJson),
      ("states",mappingJson (statesJson states))])
def statesJson : List (String × StateDescription) → List (String × Json)
  | [] => []
  | (key,state)::rest => (key,stateJson state)::statesJson rest
end

def hookJson : HookRef → Json
  | .one name => .text name
  | .many names => textsJson names

def hookName : LifecycleHookName → String
  | .onStart => "onStart"
  | .beforeTransition => "beforeTransition"
  | .afterTransition => "afterTransition"
  | .onCompensate => "onCompensate"
  | .onComplete => "onComplete"
  | .onTerminal => "onTerminal"

def hooksJson (hooks : LifecycleHookName → Option HookRef) : Json :=
  .object (Json.fields (hookSlots.map (fun slot => (hookName slot,(hooks slot).map hookJson))))

def RootKind.typeText : RootKind → Option String
  | .compound _ typed => if typed then some "compound" else none
  | .parallel => some "parallel"

def RootKind.initial : RootKind → Option String
  | .compound initial _ => initial
  | .parallel => none

def RootKind.type : RootKind → MachineType
  | .compound .. => .compound
  | .parallel => .parallel

def registryJson (registry : RegistryDescription) : Json := .object (Json.fields [
  ("namespace",registry.namespaceName.map .text),
  ("strict",registry.strict.map .flag)])

def documentJson (d : MachineDescription) : Json := .object (Json.fields [
  ("dfsm",some (.text "1.0")),
  ("id",some (.text d.id)),
  ("version",d.version.map .text),
  ("description",d.description.map .text),
  ("type",d.kind.typeText.map .text),
  ("initial",d.kind.initial.map .text),
  ("registry",d.registry.map registryJson),
  ("defaults",d.defaults.map policyJson),
  ("hooks",some (hooksJson d.hooks)),
  ("effects",someTexts d.effects),
  ("maxEffectChainDepth",d.maxEffectChainDepth.map .number),
  ("states",some (.object (assignAll (statesJson d.states))))])

/-! The calls of a description. -/

structure TransitionBuilderInput extends PartialTransitionPolicy where
  target : Option String := none
  transition : Option String := none
  compensate : Option String := none
  effects : Option (List String) := none
  description : Option String := none

structure StateNodeBuilder where
  key : String
  path : String
  nodeType : StateNodeType
  initialChild : Option String
  desc : Option String := none
  entryEffects : List String := []
  exitEffects : List String := []
  transitions : Record WrittenEdge := []
  onDoneEdge : Option WrittenEdge := none
  children : Record WrittenNode := []

def toEdge (event : String) : String ⊕ TransitionBuilderInput → WrittenEdge
  | .inl target => { event, target := some target, policy := {} }
  | .inr config => {
      event
      target := config.target
      transition := config.transition
      compensate := config.compensate.or config.compensateHandler
      effects := config.effects.getD []
      description := config.description
      policy := {
        toPolicySections := config.toPolicySections
        compensateHandler := given (config.compensate.or config.compensateHandler) } }

namespace StateNodeBuilder

def new (key parentPath : String) (type : StateNodeType) (initial : Option String) : StateNodeBuilder :=
  { key, path := childPath parentPath key, nodeType := type, initialChild := initial }

variable (b : StateNodeBuilder)

def description (text : String) : StateNodeBuilder := { b with desc := some text }
def entry (handlers : List String) : StateNodeBuilder := { b with entryEffects := b.entryEffects ++ handlers }
def exit (handlers : List String) : StateNodeBuilder := { b with exitEffects := b.exitEffects ++ handlers }
def on (event : String) (config : String ⊕ TransitionBuilderInput) : StateNodeBuilder :=
  { b with transitions := Keyed.set b.transitions event (toEdge event config) }
def onDone (config : String ⊕ TransitionBuilderInput) : StateNodeBuilder := { b with onDoneEdge := some (toEdge "$onDone" config) }

/-- What `state`, `compoundState`, `parallelState` and `finalState` do with the child they have built. -/
def child (childKey : String) (node : WrittenNode) : StateNodeBuilder :=
  { b with
    children := Keyed.set b.children childKey node
    nodeType := if b.nodeType = .atomic then .compound else b.nodeType }

def buildNode : WrittenNode where
  key := b.key
  path := b.path
  type := b.nodeType
  description := b.desc
  initial := b.initialChild
  entry := b.entryEffects
  exit := b.exitEffects
  on := b.transitions
  onDone := b.onDoneEdge
  states := b.children

end StateNodeBuilder

structure MachineBuilder where
  machineId : String
  machineVersion : String := "1.0.0"
  machineDescription : Option String := none
  rootType : MachineType := .compound
  initialKey : Option String := none
  registryConfig : RegistryBindingIR := { strict := true }
  defaultPolicy : PartialTransitionPolicy := {}
  machineHooks : MachineHooksIR := fun _ => []
  machineEffects : List String := []
  effectChainLimit : Option ℚ := none
  rootStates : Record WrittenNode := []

namespace MachineBuilder
variable (b : MachineBuilder)

def version (v : String) : MachineBuilder := { b with machineVersion := v }
def description (text : String) : MachineBuilder := { b with machineDescription := some text }
def initial (stateKey : String) : MachineBuilder := { b with initialKey := some stateKey, rootType := .compound }
def parallelRoot : MachineBuilder := { b with rootType := .parallel, initialKey := none }
def registry (config : RegistryDescription) : MachineBuilder :=
  { b with registryConfig := { namespaceName := config.namespaceName, strict := config.strict.getD true } }

/-- `{ ...under, ...policy }` -/
def spread (under policy : PartialTransitionPolicy) : PartialTransitionPolicy where
  retry := policy.retry.or under.retry
  circuitBreaker := policy.circuitBreaker.or under.circuitBreaker
  onFail := policy.onFail.or under.onFail
  benchmark := policy.benchmark.or under.benchmark
  compensateHandler := policy.compensateHandler.or under.compensateHandler

def defaults (policy : PartialTransitionPolicy) : MachineBuilder := { b with defaultPolicy := spread b.defaultPolicy policy }

/-- A slot that is set to the empty name is passed over. -/
def hookList : Option HookRef → List String
  | none => []
  | some (.one name) => if name = "" then [] else [name]
  | some (.many names) => names

def hooks (config : LifecycleHookName → Option HookRef) : MachineBuilder :=
  { b with machineHooks := fun slot => b.machineHooks slot ++ hookList (config slot) }

def effects (handlerNames : List String) : MachineBuilder := { b with machineEffects := b.machineEffects ++ handlerNames }
def maxEffectChainDepth (depth : ℚ) : MachineBuilder := { b with effectChainLimit := some depth }

/-- What `state`, `compoundState`, `parallelState`, `finalState` and `errorState` do with the state they have built. -/
def root (stateKey : String) (node : WrittenNode) : MachineBuilder := { b with rootStates := Keyed.set b.rootStates stateKey node }

def raw : RawDefinition PartialTransitionPolicy where
  id := b.machineId
  version := b.machineVersion
  description := b.machineDescription
  type := b.rootType
  initial := b.initialKey
  registry := b.registryConfig
  defaults := b.defaultPolicy
  hooks := b.machineHooks
  effects := b.machineEffects
  maxEffectChainDepth := b.effectChainLimit
  states := b.rootStates

end MachineBuilder

def configOf : TransitionDescription → String ⊕ TransitionBuilderInput
  | .short target => .inl target
  | .long edge => .inr { edge with compensateHandler := none }

mutual
/-- The calls inside one state. -/
def configure : StateDescription → StateNodeBuilder → StateNodeBuilder
  | { kind := _, description, entry, exit, on, onDone, states }, b =>
    let described := ((description.elim b b.description).entry entry).exit exit
    let bound := on.foldl (fun b e => b.on e.1 (configOf e.2)) described
    addStates states (onDone.elim bound (fun done => bound.onDone (configOf done)))
def addStates : List (String × StateDescription) → StateNodeBuilder → StateNodeBuilder
  | [], b => b
  | (key,state)::rest, b =>
    addStates rest (b.child key (configure state (StateNodeBuilder.new key b.path state.kind.type state.kind.initial)).buildNode)
end

/-- By the call for its kind; for `error` by `errorState` as well, which takes every kind that has no initial child. -/
def rootNode (key : String) (state : StateDescription) : WrittenNode :=
  (configure state (StateNodeBuilder.new key "" state.kind.type state.kind.initial)).buildNode

def builderOf (d : MachineDescription) : MachineBuilder :=
  let b : MachineBuilder := { machineId := d.id }
  let b := d.version.elim b b.version
  let b := d.description.elim b b.description
  let b := match d.kind with
    | .compound initial _ => initial.elim b b.initial
    | .parallel => b.parallelRoot
  let b := d.registry.elim b b.registry
  let b := d.defaults.elim b b.defaults
  let b := (b.hooks d.hooks).effects d.effects
  let b := d.maxEffectChainDepth.elim b b.maxEffectChainDepth
  d.states.foldl (fun b e => b.root e.1 (rootNode e.1 e.2)) b

end Dfsm.Complete
