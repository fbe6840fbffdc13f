import Dfsm.Definition.Complete
import Dfsm.Java.Policies
import Dfsm.Lib.Filed
import Mathlib.Data.List.Sort
import Mathlib.Logic.Function.Basic

/-! The registry of the Java SDK and the bindings of an actor: the check that all handlers of a
machine are registered and the effective configuration, as the registry and as an actor has them. -/
namespace Dfsm.Java.Registry
open Policies (NormalizedTransitionPolicy)
open Complete (MachineSource MachineHooksIR LifecycleHookName hookSlots nodesOf nodesBelow)

abbrev Edge := Complete.TransitionEdgeIR Policies.PartialTransitionPolicy
abbrev Node := Complete.StateNodeIR Policies.PartialTransitionPolicy

/-- Both front ends put an edge under its own event. -/
structure Machine extends Complete.MachineDefinition Policies.PartialTransitionPolicy where
  events : ∀ node ∈ nodesBelow states, ∀ e ∈ node.boundEdges, e.2.event = e.1

def qualifyHandlerName (handlerName : String) (namespaceName : Option String) : String :=
  if isBlank handlerName then handlerName
  else (given namespaceName).elim handlerName (fun ns =>
    if Dotted.under ns handlerName then handlerName else ns ++ "." ++ handlerName)

/-- A name in its namespace, or else as it stands, with what it is registered as. -/
def resolve {α : Type} (registered : List (String × α)) (name : String) (ns : Option String) : Option (String × α) :=
  ((Keyed.get registered (qualifyHandlerName name ns)).map (qualifyHandlerName name ns,·)).or
    ((Keyed.get registered name).map (name,·))

structure FSMRegistry where
  defaultPolicy : Policies.PartialTransitionPolicy := .EMPTY
  transitions : List (String × Policies.PartialTransitionPolicy) := []
  compensations : List (String × Unit) := []
  effects : List (String × Unit) := []
  hooks : List (String × Unit) := []

structure UnregisteredHandlerException where
  machineId : String
  handlerKind : String
  handlerKey : String

def yamlKey : LifecycleHookName → String
  | .onStart => "onStart"
  | .beforeTransition => "beforeTransition"
  | .afterTransition => "afterTransition"
  | .onCompensate => "onCompensate"
  | .onComplete => "onComplete"
  | .onTerminal => "onTerminal"

def hookKind (slot : LifecycleHookName) : String := "hook (" ++ yamlKey slot ++ ")"

namespace FSMRegistry
variable (r : FSMRegistry)

def resolveTransition := resolve r.transitions
def resolveCompensate := resolve r.compensations
def resolveEffect := resolve r.effects
def resolveHook := resolve r.hooks

section
variable (machineId : String) (ns : Option String)

/-- A handler that is not there is an error. -/
def validateHandler {α : Type} (handlerKind name : String) (found : Option α) : Except UnregisteredHandlerException Unit :=
  if found.isNone then .error ⟨machineId,handlerKind,qualifyHandlerName name ns⟩ else .ok ()

def validateEffect (eff : String) : Except UnregisteredHandlerException Unit :=
  validateHandler machineId ns "effect" eff (r.resolveEffect eff ns)

/-- The handler of an edge, where it names one. -/
def resolvedTx (edge : Edge) : Option (String × Policies.PartialTransitionPolicy) :=
  (given edge.transition).bind (r.resolveTransition · ns)

/-- The compensation handler as the check takes it: the decorator's, also a blank one, or the edge's own. -/
def declaredCompensate (edge : Edge) : Option String :=
  ((r.resolvedTx ns edge).bind (·.2.compensateHandler)).or edge.compensate

def validateEdgeHandlers (edge : Edge) : Except UnregisteredHandlerException Unit := do
  (given edge.transition).elim (.ok ()) (fun name =>
    validateHandler machineId ns "transition" name (r.resolveTransition name ns))
  (given (r.declaredCompensate ns edge)).elim (.ok ()) (fun name =>
    validateHandler machineId ns "compensate" name (r.resolveCompensate name ns))
  edge.effects.forM (r.validateEffect machineId ns)

mutual
def validateNodeHandlers : Node → Except UnregisteredHandlerException Unit
  | { key := _, path := _, type := _, description := _, initial := _, entry, exit, on, onDone, states, isImplicitError := _ } => do
    entry.forM (r.validateEffect machineId ns)
    exit.forM (r.validateEffect machineId ns)
    on.forM (fun e => r.validateEdgeHandlers machineId ns e.2)
    onDone.elim (.ok ()) (r.validateEdgeHandlers machineId ns)
    validateStateHandlers states
def validateStateHandlers : List (String × Node) → Except UnregisteredHandlerException Unit
  | [] => .ok ()
  | (_,node)::rest => do
    validateNodeHandlers node
    validateStateHandlers rest
end

end

def validateMachineHandlers (machine : Machine) : Except UnregisteredHandlerException Unit :=
  if !machine.registry.strict then .ok ()
  else do
    r.validateStateHandlers machine.id machine.registry.namespaceName machine.states
    machine.effects.forM (r.validateEffect machine.id machine.registry.namespaceName)
    hookSlots.forM (fun slot => (machine.hooks slot).forM (fun hookRef =>
      validateHandler machine.id machine.registry.namespaceName (hookKind slot) hookRef
        (r.resolveHook hookRef machine.registry.namespaceName)))

end FSMRegistry

/-! The bindings of an actor. -/

/-- A transition as an actor binds it. -/
structure CompiledBinding where
  statePath : String
  edge : Edge
  resolvedTransitionName : Option String
  resolvedCompensateName : Option String
  policy : NormalizedTransitionPolicy
  breaker : CircuitBreakerInstance := {}

/-- What the constructor of an actor fills. -/
structure Compiled where
  compiledBindings : List (String × CompiledBinding) := []
  resolvedMachineHooks : LifecycleHookName → Option (List String) := fun _ => none
  registeredEffectNames : List String := []

/-- A `TreeSet` of names. -/
def addName (names : List String) (name : String) : List String :=
  if name ∈ names then names else names.orderedInsert (· ≤ ·) name

def bindingKey (statePath event : String) : String := statePath ++ "::" ++ event

section
variable (r : FSMRegistry) (machine : Machine)

def policyOf (edge : Edge) (rt : Option (String × Policies.PartialTransitionPolicy)) : NormalizedTransitionPolicy :=
  Policies.normalize (some r.defaultPolicy) (some machine.defaults) (some edge.policy) (rt.map (·.2))

/-- A handler that is not there is an error where the registry is strict. -/
def required {α : Type} (handlerKind name : String) (found : Option α) : Except UnregisteredHandlerException (Option α) :=
  if found.isNone && machine.registry.strict
  then .error ⟨machine.id,handlerKind,qualifyHandlerName name machine.registry.namespaceName⟩ else .ok found

def verifyEffect (eff : String) (done : Compiled) : Except UnregisteredHandlerException Compiled := do
  let resolved ← required machine "effect" eff (r.resolveEffect eff machine.registry.namespaceName)
  pure (resolved.elim done (fun effect => { done with registeredEffectNames := addName done.registeredEffectNames effect.1 }))

def compileEdge (statePath event : String) (edge : Edge) (done : Compiled) : Except UnregisteredHandlerException Compiled := do
  let resolvedTransition ← (given edge.transition).elim (.ok none) (fun name =>
    required machine "transition" name (r.resolveTransition name machine.registry.namespaceName))
  let normalized := policyOf r machine edge resolvedTransition
  let resolvedCompName ← (given (normalized.compensateHandler.or edge.compensate)).elim (.ok none) (fun compRef => do
    let rc ← required machine "compensate" compRef (r.resolveCompensate compRef machine.registry.namespaceName)
    pure (some (rc.elim compRef (·.1))))
  let done ← edge.effects.foldlM (fun done eff => verifyEffect r machine eff done) done
  pure { done with compiledBindings := Filed.file Prod.fst done.compiledBindings (bindingKey statePath event,{
    statePath, edge, policy := normalized
    resolvedTransitionName := resolvedTransition.map (·.1)
    resolvedCompensateName := resolvedCompName }) }

mutual
def compileNodeRecursive : Node → Compiled → Except UnregisteredHandlerException Compiled
  | { key := _, path, type := _, description := _, initial := _, entry, exit, on, onDone, states, isImplicitError := _ }, done => do
    let done ← entry.foldlM (fun done eff => verifyEffect r machine eff done) done
    let done ← exit.foldlM (fun done eff => verifyEffect r machine eff done) done
    let done ← on.foldlM (fun done e => compileEdge r machine path e.1 e.2 done) done
    let done ← onDone.elim (.ok done) (fun edge => compileEdge r machine path "$onDone" edge done)
    compileStates states done
def compileStates : List (String × Node) → Compiled → Except UnregisteredHandlerException Compiled
  | [], done => .ok done
  | (_,node)::rest, done => do
    let done ← compileNodeRecursive node done
    compileStates rest done
end

/-- A slot holds the names that resolve, and is not stored where none does. -/
def compileHook (slot : LifecycleHookName) (hookRef : String) (done : Compiled) : Except UnregisteredHandlerException Compiled := do
  let rh ← required machine (hookKind slot) hookRef (r.resolveHook hookRef machine.registry.namespaceName)
  pure (rh.elim done (fun hook => { done with
    resolvedMachineHooks := Function.update done.resolvedMachineHooks slot
      (some ((done.resolvedMachineHooks slot).getD [] ++ [hook.1])) }))

def compileMachineBindings : Except UnregisteredHandlerException Compiled := do
  let done ← compileStates r machine machine.states {}
  let done ← machine.effects.foldlM (fun done eff => verifyEffect r machine eff done) done
  hookSlots.foldlM (fun done slot => (machine.hooks slot).foldlM (fun done hookRef => compileHook r machine slot hookRef done) done) done

end

/-! The effective configuration. -/

structure EffectiveTransitionConfig where
  statePath : String
  event : String
  target : Option String
  resolvedTransitionHandler : Option String
  resolvedCompensateHandler : Option String
  policy : NormalizedTransitionPolicy
  circuitBreakerState : CircuitStatus

structure EffectiveMachineConfig where
  machineId : String
  version : String
  source : MachineSource
  hasCustomErrorState : Bool
  maxEffectChainDepth : ℚ
  resolvedHooks : LifecycleHookName → Option (List String)
  registeredEffects : List String
  transitions : List EffectiveTransitionConfig

def DEFAULT_MAX_EFFECT_CHAIN_DEPTH : ℚ := 25

section
variable (r : FSMRegistry) (machine : Machine)

/-- The row of the registry for an edge; its names are not asked for blanks. -/
def derived (statePath event : String) (edge : Edge) : EffectiveTransitionConfig :=
  let rt := edge.transition.bind (r.resolveTransition · machine.registry.namespaceName)
  let norm := policyOf r machine edge rt
  let compRef := norm.compensateHandler.or edge.compensate
  let rc := compRef.bind (r.resolveCompensate · machine.registry.namespaceName)
  { statePath, event, target := edge.target, policy := norm, circuitBreakerState := .CLOSED
    resolvedTransitionHandler := (rt.map (·.1)).or edge.transition
    resolvedCompensateHandler := (rc.map (·.1)).or compRef }

structure Collected where
  out : List EffectiveTransitionConfig := []
  effSet : List String := []

def qualifyEffects (list : List String) (effSet : List String) : List String :=
  list.foldl (fun effSet e => addName effSet (qualifyHandlerName e machine.registry.namespaceName)) effSet

mutual
def collectNode : Node → Collected → Collected
  | { key := _, path, type := _, description := _, initial := _, entry, exit, on, onDone := _, states, isImplicitError := _ }, done =>
    collectStaticEffective states {
      out := done.out ++ on.map (fun e => derived r machine path e.1 e.2)
      effSet := qualifyEffects machine exit (qualifyEffects machine entry done.effSet) }
def collectStaticEffective : List (String × Node) → Collected → Collected
  | [], done => done
  | (_,node)::rest, done => collectStaticEffective rest (collectNode node done)
end

/-- `FSMRegistry.getEffectiveConfig` where no actor of the machine is active. -/
def FSMRegistry.getEffectiveConfig : EffectiveMachineConfig :=
  let collected := collectStaticEffective r machine machine.states { effSet := qualifyEffects machine machine.effects [] }
  { machineId := machine.id
    version := machine.version
    source := machine.source
    hasCustomErrorState := machine.hasCustomErrorState
    maxEffectChainDepth := machine.maxEffectChainDepth.getD DEFAULT_MAX_EFFECT_CHAIN_DEPTH
    resolvedHooks := fun slot => if machine.hooks slot = [] then none
      else some ((machine.hooks slot).map (qualifyHandlerName · machine.registry.namespaceName))
    registeredEffects := collected.effSet
    transitions := collected.out }

def CompiledBinding.reported (b : CompiledBinding) : EffectiveTransitionConfig where
  statePath := b.statePath
  event := b.edge.event
  target := b.edge.target
  resolvedTransitionHandler := b.resolvedTransitionName
  resolvedCompensateHandler := b.resolvedCompensateName
  policy := b.policy
  circuitBreakerState := b.breaker.status

/-- `DfsmActor.getEffectiveConfig` of an actor with the default config, before any call. -/
def Compiled.getEffectiveConfig (compiled : Compiled) : EffectiveMachineConfig where
  machineId := machine.id
  version := machine.version
  source := machine.source
  hasCustomErrorState := machine.hasCustomErrorState
  maxEffectChainDepth := machine.maxEffectChainDepth.getD DEFAULT_MAX_EFFECT_CHAIN_DEPTH
  resolvedHooks := compiled.resolvedMachineHooks
  registeredEffects := compiled.registeredEffectNames
  transitions := compiled.compiledBindings.map (·.2.reported)

end

end Dfsm.Java.Registry
