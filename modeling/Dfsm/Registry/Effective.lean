import Dfsm.Registry.Handlers
import Dfsm.Lib.Filed
import Mathlib.Algebra.Order.Ring.Unbundled.Rat

/-! The effective configuration of a machine, as the registry derives it and as an actor reports it. -/
namespace Dfsm.Complete
open Policy (NormalizedTransitionPolicy)

variable {Error : Type}

structure EffectiveTransitionConfig (Error : Type) where
  statePath : String
  event : String
  target : Option String
  resolvedTransitionHandler : Option String
  resolvedCompensateHandler : Option String
  policy : NormalizedTransitionPolicy Error

structure EffectiveMachineConfig (Error : Type) where
  machineId : String
  version : String
  source : MachineSource
  hasCustomErrorState : Bool
  maxEffectChainDepth : ℚ
  resolvedHooks : LifecycleHookName → Option (List String)
  registeredEffects : List String
  transitions : List (EffectiveTransitionConfig Error)

/-- A list of names as a slot holds it: an empty one is not stored. -/
def stored (names : List String) : Option (List String) := if names = [] then none else some names

section
variable (r : FSMRegistry Error) (machine : Raw Error)

def collectEffects (list : List String) : List String :=
  list.filterMap (fun eff => (r.resolveEffect eff machine.registry.namespaceName).map (·.1))

/-- The row of the registry for an edge. -/
def derived (statePath event : String) (edge : Edge Error) : EffectiveTransitionConfig Error where
  statePath
  event
  target := edge.target
  resolvedTransitionHandler := (r.resolvedTx machine.registry.namespaceName edge).map (·.1)
  resolvedCompensateHandler := (given (rawCompensateName r machine statePath event edge)).bind
    (fun name => (r.resolveCompensate name machine.registry.namespaceName).map (·.1))
  policy := normalizedPolicy r machine statePath event edge

/-- What the walk of the registry collects. -/
structure Collected (Error : Type) where
  effects : List String := []
  transitions : List (EffectiveTransitionConfig Error) := []

mutual
def walk : Node Error → Collected Error
  | { key := _, path, type := _, description := _, initial := _, entry, exit, on, onDone, states, isImplicitError := _ } => {
    effects := collectEffects r machine entry ++ collectEffects r machine exit ++
      on.flatMap (fun e => collectEffects r machine e.2.effects) ++
      onDone.elim [] (fun edge => collectEffects r machine edge.effects) ++ (walkAll states).effects
    transitions := on.map (fun e => derived r machine path e.1 e.2) ++ (walkAll states).transitions }
def walkAll : List (String × Node Error) → Collected Error
  | [] => {}
  | (_,node)::rest => { effects := (walk node).effects ++ (walkAll rest).effects
                        transitions := (walk node).transitions ++ (walkAll rest).transitions }
end

end

/-- `FSMRegistry.getEffectiveConfig` where no actor of the machine is active. -/
def FSMRegistry.getEffectiveConfig (r : FSMRegistry Error) (machine : Machine Error) : EffectiveMachineConfig Error where
  machineId := machine.id
  version := machine.version
  source := machine.source
  hasCustomErrorState := machine.hasCustomErrorState
  maxEffectChainDepth := machine.maxEffectChainDepth.getD 25
  resolvedHooks slot := stored ((resolvedHooksOf r machine.toRawDefinition slot).filter (· ≠ ""))
  registeredEffects := (collectEffects r machine.toRawDefinition machine.effects ++ (walkAll r machine.toRawDefinition machine.states).effects).eraseDups
  transitions := (walkAll r machine.toRawDefinition machine.states).transitions

def bindingKey (statePath event : String) : String := statePath ++ "::" ++ event

/-- A completion without handler and target is not reported. -/
def idle (event : String) (edge : Edge Error) : Bool :=
  event = "$onDone" && (given edge.transition).isNone && (given edge.target).isNone

def structuredClonePolicy (policy : NormalizedTransitionPolicy Error) : NormalizedTransitionPolicy Error :=
  { policy with compensateHandler := given policy.compensateHandler }

def CompiledTransitionBinding.reported (b : CompiledTransitionBinding Error) : EffectiveTransitionConfig Error where
  statePath := b.statePath
  event := b.event
  target := b.edge.target
  resolvedTransitionHandler := b.resolvedTransitionName
  resolvedCompensateHandler := b.resolvedCompensateName
  policy := structuredClonePolicy b.policy

/-- `DfsmActor.getEffectiveConfig` of an actor with the default config, from what its constructor gathered. -/
def getEffectiveConfig (r : FSMRegistry Error) (machine : Machine Error) (compiled : Compiled Error) :
    EffectiveMachineConfig Error where
  machineId := machine.id
  version := machine.version
  source := machine.source
  hasCustomErrorState := machine.hasCustomErrorState
  maxEffectChainDepth := max 1 (machine.maxEffectChainDepth.getD 25)
  resolvedHooks slot := stored (resolvedHooksOf r machine.toRawDefinition slot)
  registeredEffects := compiled.resolvedEffectNames.eraseDups
  transitions := ((Filed.filed (fun b => bindingKey b.statePath b.event) compiled.compiledBindings).filter
    (fun b => !idle b.event b.edge)).map (·.reported)

/-! What both walks meet, state by state. -/

section
variable (r : FSMRegistry Error) (machine : Raw Error)

def effectsOf (node : Node Error) : List String :=
  collectEffects r machine node.entry ++ collectEffects r machine node.exit ++
    node.on.flatMap (fun e => collectEffects r machine e.2.effects) ++
    node.onDone.elim [] (fun edge => collectEffects r machine edge.effects)

mutual
theorem walkOwn : (node : Node Error) →
    (walk r machine node).effects = (nodesOf node).flatMap (effectsOf r machine) ∧
    (walk r machine node).transitions = (nodesOf node).flatMap (fun node => node.on.map (fun e => derived r machine node.path e.1 e.2))
  | { key, path, type, description, initial, entry, exit, on, onDone, states, isImplicitError } => by
    rw [walk,nodesOf,List.flatMap_cons,List.flatMap_cons,(walkAllOwn states).1,(walkAllOwn states).2]
    exact ⟨rfl,rfl⟩
theorem walkAllOwn : (states : List (String × Node Error)) →
    (walkAll r machine states).effects = (nodesBelow states).flatMap (effectsOf r machine) ∧
    (walkAll r machine states).transitions =
      (nodesBelow states).flatMap (fun node => node.on.map (fun e => derived r machine node.path e.1 e.2))
  | [] => ⟨rfl,rfl⟩
  | (_,node)::rest => by
    simp only [walkAll,nodesBelow,List.flatMap_append,(walkOwn node).1,(walkOwn node).2,(walkAllOwn rest).1,(walkAllOwn rest).2,
      and_self]
end

theorem compiledEffects : (compileMachineBindings r machine).resolvedEffectNames =
    collectEffects r machine machine.effects ++ (walkAll r machine machine.states).effects := by
  have own (node : Node Error) : (walkedOwn r machine node).resolvedEffectNames = effectsOf r machine node := by
    have edge (path event : String) (edge : Edge Error) :
        (compileEdge r machine path event edge).resolvedEffectNames = collectEffects r machine edge.effects := by
      simp [compileEdge,verifyEffectList,collectEffects]
    have completion : (node.onDone.elim {} (compileEdge r machine node.path "$onDone")).resolvedEffectNames =
        node.onDone.elim [] (fun edge => collectEffects r machine edge.effects) := by
      cases node.onDone with
      | none => rfl
      | some done => exact edge node.path "$onDone" done
    simp only [walkedOwn,effectsOf,appendEffects,gatheredEach Compiled.resolvedEffectNames (fun _ _ => rfl) rfl,edge,completion]
    rfl
  rw [compileMachineBindings,appendEffects,appendEffects,
    walkStatesOwn r machine Compiled.resolvedEffectNames (fun _ _ => rfl) rfl,(walkAllOwn r machine _).1]
  simp only [own,verifyEffectList,List.append_nil]
  rfl

/-- An edge as it is bound. -/
structure Bound (Error : Type) where
  statePath : String
  event : String
  edge : Edge Error

def Bound.key (b : Bound Error) : String := bindingKey b.statePath b.event

def boundEdges : List (Bound Error) := (nodesBelow machine.states).flatMap (fun node => node.boundEdges.map (fun e => ⟨node.path,e.1,e.2⟩))

/-- The edges that the registry lists. -/
def listedEdges : List (Bound Error) := (nodesBelow machine.states).flatMap (fun node => node.on.map (fun e => ⟨node.path,e.1,e.2⟩))

theorem listedBound {b : Bound Error} (listed : b ∈ listedEdges machine) : b ∈ boundEdges machine := by
  obtain ⟨node,here,mem⟩ := List.mem_flatMap.mp listed
  refine List.mem_flatMap.mpr ⟨node,here,?_⟩
  rw [StateNodeIR.boundEdges,List.map_append]
  exact List.mem_append_left _ mem

def bindingFor (b : Bound Error) : CompiledTransitionBinding Error := bindingOf r machine b.statePath b.event b.edge

def derivedFor (b : Bound Error) : EffectiveTransitionConfig Error := derived r machine b.statePath b.event b.edge

theorem compiledEdges : (compileMachineBindings r machine).compiledBindings = (boundEdges machine).map (bindingFor r machine) := by
  have own (node : Node Error) : (walkedOwn r machine node).compiledBindings =
      node.boundEdges.map (fun e => bindingOf r machine node.path e.1 e.2) := by
    have edge (path event : String) (edge : Edge Error) :
        (compileEdge r machine path event edge).compiledBindings = [bindingOf r machine path event edge] := rfl
    have completion : (node.onDone.elim {} (compileEdge r machine node.path "$onDone")).compiledBindings =
        (node.onDone.map ("$onDone",·)).toList.map (fun e => bindingOf r machine node.path e.1 e.2) := by
      cases node.onDone with
      | none => rfl
      | some done => rfl
    simp only [walkedOwn,appendBindings,gatheredEach Compiled.compiledBindings (fun _ _ => rfl) rfl,edge,completion,
      StateNodeIR.boundEdges,List.map_append]
    simp [verifyEffectList,List.map_eq_flatMap]
  rw [compileMachineBindings,appendBindings,appendBindings,
    walkStatesOwn r machine Compiled.compiledBindings (fun _ _ => rfl) rfl,boundEdges,List.map_flatMap]
  simp only [own,verifyEffectList,List.nil_append,List.map_map,Function.comp_def]
  rfl

/-- An edge is reported as the registry lists another. -/
structure Alike (listed last : Bound Error) : Prop where
  reported : idle last.event last.edge = false
  statePath : last.statePath = listed.statePath
  event : last.event = listed.event
  target : last.edge.target = listed.edge.target
  handler : (r.resolvedTx machine.registry.namespaceName last.edge).map (·.1) =
    (r.resolvedTx machine.registry.namespaceName listed.edge).map (·.1)
  compensate : (bindingFor r machine last).resolvedCompensateName = (bindingFor r machine listed).resolvedCompensateName
  policy : structuredClonePolicy (normalizedPolicy r machine last.statePath last.event last.edge) =
    normalizedPolicy r machine listed.statePath listed.event listed.edge

/-- The rows of the registry and of the actor come from the same edges. -/
structure RowsAlike : Prop where
  apart : ((listedEdges machine).map Bound.key).Nodup
  kept : ∀ b ∈ listedEdges machine, ∀ last, Filed.last Bound.key (boundEdges machine) b.key = some last → Alike r machine b last
  completions : ∀ b ∈ boundEdges machine, Filed.last Bound.key (boundEdges machine) b.key = some b →
    idle b.event b.edge = false → ∃ listed ∈ listedEdges machine, listed.key = b.key

theorem alikeIff (listed last : Bound Error) : Alike r machine listed last ↔
    idle last.event last.edge = false ∧ (bindingFor r machine last).reported = derivedFor r machine listed := by
  have rows : (bindingFor r machine last).reported = derivedFor r machine listed ↔
      last.statePath = listed.statePath ∧ last.event = listed.event ∧ last.edge.target = listed.edge.target ∧
      (bindingFor r machine last).resolvedTransitionName = (bindingFor r machine listed).resolvedTransitionName ∧
      (bindingFor r machine last).resolvedCompensateName = (bindingFor r machine listed).resolvedCompensateName ∧
      structuredClonePolicy (bindingFor r machine last).policy = (bindingFor r machine listed).policy :=
    Iff.of_eq (EffectiveTransitionConfig.mk.injEq ..)
  rw [rows]
  constructor
  · intro alike
    exact ⟨alike.reported,alike.statePath,alike.event,alike.target,alike.handler,alike.compensate,alike.policy⟩
  · rintro ⟨reported,statePath,event,target,handler,compensate,policy⟩
    exact ⟨reported,statePath,event,target,handler,compensate,policy⟩

theorem memReported {compiled : Compiled Error} (edges : compiled.compiledBindings = (boundEdges machine).map (bindingFor r machine))
    (row : EffectiveTransitionConfig Error) :
    row ∈ ((Filed.filed (fun b => bindingKey b.statePath b.event) compiled.compiledBindings).filter
        (fun b => !idle b.event b.edge)).map (·.reported) ↔
      ∃ last ∈ boundEdges machine, Filed.last Bound.key (boundEdges machine) last.key = some last ∧
        idle last.event last.edge = false ∧ (bindingFor r machine last).reported = row := by
  have key (b : CompiledTransitionBinding Error) : Filed.last (fun b => bindingKey b.statePath b.event) compiled.compiledBindings
      (bindingKey b.statePath b.event) =
      (Filed.last Bound.key (boundEdges machine) (bindingKey b.statePath b.event)).map (bindingFor r machine) := by
    rw [edges,Filed.lastMap]
    rfl
  simp only [List.mem_map,List.mem_filter,Bool.not_eq_true',Filed.memFiled,key]
  constructor
  · rintro ⟨b,⟨filed,reported⟩,rfl⟩
    obtain ⟨last,found,rfl⟩ := Option.map_eq_some_iff.mp filed
    exact ⟨last,Filed.lastMem found,found,reported,rfl⟩
  · rintro ⟨last,_,found,reported,rfl⟩
    exact ⟨bindingFor r machine last,⟨Option.map_eq_some_iff.mpr ⟨last,found,rfl⟩,reported⟩,rfl⟩

def EffectiveTransitionConfig.key (row : EffectiveTransitionConfig Error) : String := bindingKey row.statePath row.event

theorem rowsAlike {compiled : Compiled Error} (edges : compiled.compiledBindings = (boundEdges machine).map (bindingFor r machine)) :
    ((listedEdges machine).map (derivedFor r machine)).Perm
      (((Filed.filed (fun b => bindingKey b.statePath b.event) compiled.compiledBindings).filter
        (fun b => !idle b.event b.edge)).map (·.reported)) ↔ RowsAlike r machine := by
  have derivedKeys : ((listedEdges machine).map (derivedFor r machine)).map EffectiveTransitionConfig.key =
      (listedEdges machine).map Bound.key := by
    rw [List.map_map]
    rfl
  have reportedKeys : ((((Filed.filed (fun b => bindingKey b.statePath b.event) compiled.compiledBindings).filter
      (fun b => !idle b.event b.edge)).map (·.reported)).map EffectiveTransitionConfig.key).Nodup := by
    rw [List.map_map]
    exact (Filed.filedApart (fun b : CompiledTransitionBinding Error => bindingKey b.statePath b.event)
      compiled.compiledBindings).sublist (List.filter_sublist.map _)
  constructor
  · intro perm
    refine ⟨?_,?_,?_⟩
    · rw [← derivedKeys]
      exact (perm.map _).nodup_iff.mpr reportedKeys
    · intro b listed last found
      rw [alikeIff]
      have row := perm.mem_iff.mp (List.mem_map_of_mem (f := derivedFor r machine) listed)
      obtain ⟨other,_,here,reported,same⟩ := (memReported r machine edges _).mp row
      have key : other.key = b.key := congrArg EffectiveTransitionConfig.key same
      rw [key,found] at here
      cases here
      exact ⟨reported,same⟩
    · intro b bound found reported
      have row := perm.mem_iff.mpr ((memReported r machine edges _).mpr ⟨b,bound,found,reported,rfl⟩)
      obtain ⟨listed,mem,same⟩ := List.mem_map.mp row
      exact ⟨listed,mem,congrArg EffectiveTransitionConfig.key same⟩
  · intro alike
    refine (List.perm_ext_iff_of_nodup (List.Nodup.of_map EffectiveTransitionConfig.key (derivedKeys ▸ alike.apart))
      (List.Nodup.of_map _ reportedKeys)).mpr (fun row => ?_)
    rw [memReported r machine edges,List.mem_map]
    constructor
    · rintro ⟨b,listed,rfl⟩
      obtain ⟨last,found⟩ := Filed.lastOf Bound.key (listedBound machine listed)
      have same := (alikeIff r machine b last).mp (alike.kept b listed last found)
      exact ⟨last,Filed.lastMem found,by rwa [Filed.lastKey found],same.1,same.2⟩
    · rintro ⟨last,bound,found,reported,rfl⟩
      obtain ⟨listed,mem,key⟩ := alike.completions last bound found reported
      have same := (alikeIff r machine listed last).mp (alike.kept listed mem last (by rwa [key]))
      exact ⟨listed,mem,same.2.symm⟩

theorem storedIff (names : List String) : stored (names.filter (· ≠ "")) = stored names ↔ "" ∉ names := by
  have kept : names.filter (· ≠ "") = names ↔ "" ∉ names := by
    rw [List.filter_eq_self]
    constructor
    · intro all mem
      simpa using all "" mem
    · intro absent name mem
      exact decide_eq_true (fun empty => absent (by rwa [empty] at mem))
  rw [← kept]
  constructor
  · intro same
    unfold stored at same
    split at same
    · rename_i empty
      split at same
      · rename_i none_
        rw [none_]
        rfl
      · cases same
    · split at same
      · cases same
      · exact Option.some.inj same
  · exact fun same => by rw [same]

end

/-- The configuration derived without an actor says what a new actor says of itself. -/
structure ConfigsAgree (derived live : EffectiveMachineConfig Error) : Prop where
  transitions : derived.transitions.Perm live.transitions
  resolvedHooks : derived.resolvedHooks = live.resolvedHooks
  registeredEffects : derived.registeredEffects = live.registeredEffects

variable {r : FSMRegistry Error} {machine : Machine Error} {compiled : Compiled Error} in
/-- The two configurations agree exactly where every listed edge is bound under a key of its own and
reported as it is derived, no other binding is reported, and no hook resolves to the empty name. -/
theorem effectiveConfigsAgree (built : construct r machine.toRawDefinition = .ok compiled) :
    ConfigsAgree (r.getEffectiveConfig machine) (getEffectiveConfig r machine compiled) ↔
      RowsAlike r machine.toRawDefinition ∧ ∀ slot, "" ∉ resolvedHooksOf r machine.toRawDefinition slot := by
  have gathered : compiled = compileMachineBindings r machine.toRawDefinition := by
    unfold construct at built
    dsimp only at built
    split at built
    · exact (Except.ok.inj built).symm
    · cases built
  have edges : compiled.compiledBindings = (boundEdges machine.toRawDefinition).map (bindingFor r machine.toRawDefinition) := by
    rw [gathered,compiledEdges]
  have rows : (r.getEffectiveConfig machine).transitions =
      (listedEdges machine.toRawDefinition).map (derivedFor r machine.toRawDefinition) := by
    rw [FSMRegistry.getEffectiveConfig,(walkAllOwn r machine.toRawDefinition _).2,listedEdges,List.map_flatMap]
    simp only [List.map_map]
    rfl
  have hooks : (r.getEffectiveConfig machine).resolvedHooks = (getEffectiveConfig r machine compiled).resolvedHooks ↔
      ∀ slot, "" ∉ resolvedHooksOf r machine.toRawDefinition slot := by
    rw [funext_iff]
    exact forall_congr' (fun slot => storedIff _)
  constructor
  · intro agree
    refine ⟨(rowsAlike r machine.toRawDefinition edges).mp ?_,hooks.mp agree.resolvedHooks⟩
    rw [← rows]
    exact agree.transitions
  · rintro ⟨alike,named⟩
    refine ⟨?_,hooks.mpr named,?_⟩
    · rw [rows]
      exact (rowsAlike r machine.toRawDefinition edges).mpr alike
    · change List.eraseDups _ = List.eraseDups _
      rw [gathered,compiledEffects]

/-- An order that is done when its lines are. -/
def ordering (done : Option String) : Machine Unit where
  id := "order"
  version := "1.0.0"
  initial := some "lines"
  states := [("lines",{
      key := "lines", path := "lines", type := .compound, initial := some "open"
      onDone := some { event := "$onDone", target := done, policy := {} }
      states := [("open",{ key := "open", path := "lines.open", type := .atomic, on := [("CLOSE",{ event := "CLOSE", target := some "closed", policy := {} })] }),
        ("closed",{ key := "closed", path := "lines.closed", type := .final })] }),
    ("done",{ key := "done", path := "done", type := .final }),
    ("error",{ key := "error", path := "error", type := .final, isImplicitError := true })]
  defaults := {}
  source := .builder
  hasCustomErrorState := false

theorem effectiveConfigsAgreeIdle : ConfigsAgree (({} : FSMRegistry Unit).getEffectiveConfig (ordering none))
    (getEffectiveConfig {} (ordering none) (compileMachineBindings {} (ordering none).toRawDefinition)) := by
  refine (effectiveConfigsAgree rfl).mpr ⟨⟨by decide,?_,?_⟩,fun _ => List.not_mem_nil⟩
  · intro b listed last found
    have closing : b = ⟨"lines.open","CLOSE",{ event := "CLOSE", target := some "closed", policy := {} }⟩ := List.mem_singleton.mp listed
    rw [closing] at found
    cases found
    rw [closing]
    exact ⟨rfl,rfl,rfl,rfl,rfl,rfl,rfl⟩
  · intro b bound _ reported
    have either : b = ⟨"lines","$onDone",{ event := "$onDone", policy := {} }⟩ ∨
        b = ⟨"lines.open","CLOSE",{ event := "CLOSE", target := some "closed", policy := {} }⟩ := by
      simpa [boundEdges,ordering,nodesBelow,nodesOf,StateNodeIR.boundEdges] using bound
    rcases either with rfl | rfl
    · exact absurd reported (by decide)
    · exact ⟨_,List.mem_singleton_self _,rfl⟩

theorem effectiveConfigsDisagree : ¬ ∀ (r : FSMRegistry Unit) (machine : Machine Unit) (compiled : Compiled Unit),
    construct r machine.toRawDefinition = .ok compiled →
      ConfigsAgree (r.getEffectiveConfig machine) (getEffectiveConfig r machine compiled) := by
  intro claim
  have agree := claim {} (ordering (some "done")) _ rfl
  have lengths := agree.transitions.length_eq
  revert lengths
  decide

end Dfsm.Complete
