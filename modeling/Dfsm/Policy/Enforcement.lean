import Dfsm.Policy.Merger
import Dfsm.Definition.Loaded
import Mathlib.Data.List.Induction

/-! The breakers of an actor. They are shared objects under their keys, and compiling an
edge hands its own policy to the breaker of its key. -/
namespace Dfsm.Policy
open Keyed (Record)

/-- The policy each breaker enforces now. No breaker is ever dropped or replaced, so its key
stands for the object. -/
abbrev CircuitBreakerManager := Record NormalizedCircuitBreakerPolicy

/-- `getOrCreate`, where the breaker it returns is the one under the policy's key. -/
def getOrCreate (breakers : CircuitBreakerManager) (policy : NormalizedCircuitBreakerPolicy) : CircuitBreakerManager :=
  Keyed.put policy.key policy breakers

/-- An edge where `walkState` meets it. -/
structure MetEdge where
  statePath : String
  event : String
  edge : TransitionEdgeIR

mutual
def walkState : StateNodeIR → List MetEdge
  | { key := _, path, type := _, initial := _, entry := _, exit := _, on, onDone, states, isImplicitError := _ } =>
    on.map (fun e => ⟨path,e.1,e.2⟩) ++ onDone.toList.map (fun edge => ⟨path,"$onDone",edge⟩) ++ walkStates states
def walkStates : Record StateNodeIR → List MetEdge
  | [] => []
  | (_,node)::rest => walkState node ++ walkStates rest
end

/-- The policies around the edges of a machine; the n-th edge met has the n-th policy, and
`resolveTransition` finds the policy a handler was registered with. -/
structure EdgePolicies (Error : Type) where
  globalDefaults : PartialTransitionPolicy Error := {}
  machineDefaults : PartialTransitionPolicy Error := {}
  transitionPolicy : Nat → PartialTransitionPolicy Error
  resolveTransition : String → Option (PartialTransitionPolicy Error) := fun _ => none

structure CompiledTransitionBinding (Error : Type) where
  statePath : String
  event : String
  edge : TransitionEdgeIR
  policy : NormalizedTransitionPolicy Error
  /-- The key of the breaker the pipeline was built with. -/
  breaker : String

structure Compiled (Error : Type) where
  breakerManager : CircuitBreakerManager := []
  compiledBindings : Record (CompiledTransitionBinding Error) := []

structure EffectiveTransitionConfig (Error : Type) where
  statePath : String
  event : String
  target : Option String
  policy : NormalizedTransitionPolicy Error

variable {Error : Type}

def bindingKey (statePath event : String) : String := statePath ++ "::" ++ event

/-- An edge with the policy it comes to. -/
structure PricedEdge (Error : Type) extends MetEdge where
  normalized : NormalizedTransitionPolicy Error

def PricedEdge.binding (e : PricedEdge Error) : String := bindingKey e.statePath e.event

/-- `normalizedPolicy` of `compileEdge` -/
def normalizedPolicy (id : String) (policies : EdgePolicies Error) (met : MetEdge) (n : Nat) : NormalizedTransitionPolicy Error :=
  normalizeTransitionPolicy {
    defaultBreakerKey := id ++ ":" ++ met.statePath ++ ":" ++ met.event
    globalDefaults := some policies.globalDefaults
    machineDefaults := some policies.machineDefaults
    transitionPolicy := some (policies.transitionPolicy n)
    decoratorPolicy := (given met.edge.transition).bind policies.resolveTransition }

def pricedEdges (machine : MachineDefinition) (policies : EdgePolicies Error) : List (PricedEdge Error) :=
  (walkStates machine.states).zipIdx.map (fun e => { e.1 with normalized := normalizedPolicy machine.id policies e.1 e.2 })

/-- The end of `compileEdge`. -/
def compileEdge (compiled : Compiled Error) (e : PricedEdge Error) : Compiled Error where
  breakerManager := getOrCreate compiled.breakerManager e.normalized.circuitBreaker
  compiledBindings := Keyed.put e.binding
    { statePath := e.statePath, event := e.event, edge := e.edge, policy := e.normalized
      breaker := e.normalized.circuitBreaker.key } compiled.compiledBindings

/-- An actor whose handlers are all registered. -/
def compileMachineBindings (machine : MachineDefinition) (policies : EdgePolicies Error) : Compiled Error :=
  (pricedEdges machine policies).foldl compileEdge {}

namespace Compiled
variable (compiled : Compiled Error)

/-- The policy of the breaker in the pipeline of a transition. -/
def enforced (statePath event : String) : Option NormalizedCircuitBreakerPolicy :=
  (Keyed.get compiled.compiledBindings (bindingKey statePath event)).bind (fun b => Keyed.get compiled.breakerManager b.breaker)

/-- The rows of `getEffectiveConfig`. -/
def getEffectiveConfig : List (EffectiveTransitionConfig Error) :=
  (compiled.compiledBindings.map Prod.snd).filterMap (fun b =>
    if b.event = "$onDone" ∧ given b.edge.transition = none ∧ given b.edge.target = none then none
    else some { statePath := b.statePath, event := b.event, target := b.edge.target, policy := b.policy })

end Compiled

/-- Each transition is guarded by its own breaker policy, and reported with it. -/
def OwnPolicies (edges : List (PricedEdge Error)) (compiled : Compiled Error) : Prop :=
  ∀ e ∈ edges, compiled.enforced e.statePath e.event = some e.normalized.circuitBreaker ∧
    ∀ row ∈ compiled.getEffectiveConfig, row.statePath = e.statePath → row.event = e.event →
      row.policy.circuitBreaker = e.normalized.circuitBreaker

/-- Two edges that share a breaker, or a binding, ask for the same. -/
def Agreed (edges : List (PricedEdge Error)) : Prop :=
  ∀ a ∈ edges, ∀ b ∈ edges,
    a.normalized.circuitBreaker.key = b.normalized.circuitBreaker.key ∨ a.binding = b.binding →
      a.normalized.circuitBreaker = b.normalized.circuitBreaker

/-- What compiling some edges from_. -/
structure CompiledFrom (edges : List (PricedEdge Error)) (compiled : Compiled Error) : Prop where
  breaker : ∀ key policy, Keyed.get compiled.breakerManager key = some policy →
    policy.key = key ∧ ∃ e ∈ edges, e.normalized.circuitBreaker = policy
  hasBreaker : ∀ e ∈ edges, (Keyed.get compiled.breakerManager e.normalized.circuitBreaker.key).isSome
  binding : ∀ entry ∈ compiled.compiledBindings, ∃ e ∈ edges, e.binding = entry.1 ∧ e.statePath = entry.2.statePath ∧
    e.event = entry.2.event ∧ e.normalized = entry.2.policy ∧ entry.2.breaker = e.normalized.circuitBreaker.key
  hasBinding : ∀ e ∈ edges, (Keyed.get compiled.compiledBindings e.binding).isSome

theorem compileStep {edges : List (PricedEdge Error)} {compiled : Compiled Error} (from_ : CompiledFrom edges compiled)
    (e : PricedEdge Error) : CompiledFrom (edges ++ [e]) (compileEdge compiled e) := by
  refine ⟨fun key policy found => ?_,fun a mem => ?_,fun entry mem => ?_,fun a mem => ?_⟩
  · simp only [compileEdge,getOrCreate,Keyed.getPut] at found
    split at found
    · rename_i here
      cases Option.some.inj found
      exact ⟨here.symm,e,by simp,rfl⟩
    · obtain ⟨same,a,mem,own⟩ := from_.breaker key policy found
      exact ⟨same,a,List.mem_append_left _ mem,own⟩
  · simp only [compileEdge,getOrCreate,Keyed.getPut]
    split
    · rfl
    · rename_i other
      rcases List.mem_append.mp mem with old | new
      · exact from_.hasBreaker a old
      · cases List.mem_singleton.mp new
        exact absurd rfl other
  · rcases Keyed.memPut mem with rfl | old
    · exact ⟨e,by simp,rfl,rfl,rfl,rfl,rfl⟩
    · obtain ⟨a,mem,rest⟩ := from_.binding entry old
      exact ⟨a,List.mem_append_left _ mem,rest⟩
  · simp only [compileEdge,Keyed.getPut]
    split
    · rfl
    · rename_i other
      rcases List.mem_append.mp mem with old | new
      · exact from_.hasBinding a old
      · cases List.mem_singleton.mp new
        exact absurd rfl other

theorem compileRun (edges : List (PricedEdge Error)) : CompiledFrom edges (edges.foldl compileEdge {}) := by
  induction edges using List.reverseRecOn with
  | nil => exact ⟨by simp,by simp,by simp,by simp⟩
  | append_singleton edges e ih =>
    rw [List.foldl_append]
    exact compileStep ih e

theorem guardFound {edges : List (PricedEdge Error)} {compiled : Compiled Error} (from_ : CompiledFrom edges compiled)
    {e : PricedEdge Error} (mem : e ∈ edges) : ∃ filed ∈ edges, filed.binding = e.binding ∧
      ∃ policy, Keyed.get compiled.breakerManager filed.normalized.circuitBreaker.key = some policy ∧
        compiled.enforced e.statePath e.event = some policy := by
  obtain ⟨bound,found⟩ := Option.isSome_iff_exists.mp (from_.hasBinding e mem)
  obtain ⟨filed,memFiled,place,_,_,_,breaker⟩ := from_.binding (e.binding,bound) (Keyed.getSome found)
  obtain ⟨policy,guard⟩ := Option.isSome_iff_exists.mp (from_.hasBreaker filed memFiled)
  refine ⟨filed,memFiled,place,policy,guard,?_⟩
  rw [PricedEdge.binding] at found
  rw [Compiled.enforced,found,Option.bind_some,breaker,guard]

theorem ownBreaker {edges : List (PricedEdge Error)} {compiled : Compiled Error} (from_ : CompiledFrom edges compiled)
    (own : OwnPolicies edges compiled) {e : PricedEdge Error} (mem : e ∈ edges) :
    Keyed.get compiled.breakerManager e.normalized.circuitBreaker.key = some e.normalized.circuitBreaker := by
  obtain ⟨filed,_,_,policy,guard,enforced⟩ := guardFound from_ mem
  have same := Option.some.inj ((own e mem).1.symm.trans enforced)
  have keyed := (from_.breaker _ _ guard).1
  rw [same,keyed,guard]

theorem ownAgreed {edges : List (PricedEdge Error)} {compiled : Compiled Error} (from_ : CompiledFrom edges compiled) :
    OwnPolicies edges compiled ↔ Agreed edges := by
  constructor
  · intro own a memA b memB shared
    rcases shared with key | binding
    · have one := ownBreaker from_ own memA
      rw [key,ownBreaker from_ own memB] at one
      exact (Option.some.inj one).symm
    · have one := (own a memA).1
      rw [Compiled.enforced,show bindingKey a.statePath a.event = bindingKey b.statePath b.event from binding] at one
      exact Option.some.inj (one.symm.trans (own b memB).1)
  · intro agreed e mem
    refine ⟨?_,fun row reported path event => ?_⟩
    · obtain ⟨filed,memFiled,place,policy,guard,enforced⟩ := guardFound from_ mem
      obtain ⟨key,last,memLast,rfl⟩ := from_.breaker _ _ guard
      rw [enforced,agreed last memLast filed memFiled (.inl key),agreed filed memFiled e mem (.inr place)]
    · simp only [Compiled.getEffectiveConfig,List.mem_filterMap,List.mem_map] at reported
      obtain ⟨bound,⟨entry,memEntry,rfl⟩,shown⟩ := reported
      split at shown
      · contradiction
      · cases Option.some.inj shown
        obtain ⟨filed,memFiled,_,samePath,sameEvent,policy,_⟩ := from_.binding entry memEntry
        dsimp only at path event ⊢
        have place : filed.binding = e.binding := by
          rw [PricedEdge.binding,PricedEdge.binding,samePath,sameEvent,path,event]
        rw [← policy]
        exact agreed filed memFiled e mem (.inr place)

/-- The breakers enforce what `getEffectiveConfig` reports exactly where edges that share one agree. -/
theorem breakersEnforced (machine : MachineDefinition) (policies : EdgePolicies Error) :
    OwnPolicies (pricedEdges machine policies) (compileMachineBindings machine policies) ↔
      Agreed (pricedEdges machine policies) :=
  ownAgreed (compileRun (pricedEdges machine policies))

/-- Two events of one state. -/
def till : RawMachine where
  id := "shop"
  initial := some "till"
  states := [("till",{
    key := "till", path := "till", type := .atomic
    on := [("pay",{ event := "pay", target := some "till" }),("refund",{ event := "refund", target := some "till" })] })]

theorem tillLoaded : Loaded (injectErrorState till) := ⟨⟨_,by decide,by decide,if_pos (by decide)⟩⟩

/-- Both share a key, and only the first turns its breaker on. -/
def tillPolicies : EdgePolicies Unit where
  transitionPolicy n :=
    { circuitBreaker := some (some { key := some (some "payment"), enabled := some (some (n = 0 : Bool)) }) }

/-- The breaker of `pay` is off, though its own policy turns it on. -/
theorem breakersEnforcedTill : ¬ ∀ (machine : MachineDefinition) (policies : EdgePolicies Unit), Loaded machine →
    OwnPolicies (pricedEdges machine policies) (compileMachineBindings machine policies) := by
  intro claim
  have guards := claim _ tillPolicies tillLoaded _ (List.mem_cons_self)
  have enabled := congrArg (Option.map (·.enabled)) guards.1
  exact absurd enabled (by decide)

end Dfsm.Policy
