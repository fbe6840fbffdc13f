import Dfsm.Definition.Complete
import Dfsm.Policy.Merger

/-! The handlers of a registry, and the two checks that all handlers of a definition are
registered: that of the registry and that of an actor while it binds its transitions. -/
namespace Dfsm.Complete
open Policy (NormalizedTransitionPolicy normalizeTransitionPolicy)

abbrev Edge (Error : Type) := TransitionEdgeIR (Policy.PartialTransitionPolicy Error)
abbrev Node (Error : Type) := StateNodeIR (Policy.PartialTransitionPolicy Error)
abbrev Raw (Error : Type) := RawDefinition (Policy.PartialTransitionPolicy Error)
abbrev Machine (Error : Type) := MachineDefinition (Policy.PartialTransitionPolicy Error)

variable {Error : Type}

structure FSMRegistry (Error : Type) where
  globalDefaults : Policy.PartialTransitionPolicy Error := {}
  transitions : List (String × Policy.PartialTransitionPolicy Error) := []
  compensations : List (String × Unit) := []
  effects : List (String × Unit) := []
  hooks : List (String × Unit) := []

/-- A name in its namespace, or else as it stands, with what it is registered as. -/
def resolve {α : Type} (registered : List (String × α)) (rawName : String) (ns : Option String) : Option (String × α) :=
  let direct := (Keyed.get registered rawName).map (rawName,·)
  match given ns with
  | none => direct
  | some _ => ((Keyed.get registered (qualifyHandlerName rawName ns)).map (qualifyHandlerName rawName ns,·)).or direct

structure UnregisteredHandlerError where
  machineId : String
  missing : List String
  deriving DecidableEq

namespace FSMRegistry
variable (r : FSMRegistry Error)

def resolveTransition := resolve r.transitions
def resolveCompensate := resolve r.compensations
def resolveEffect := resolve r.effects
def resolveHook := resolve r.hooks

/-- The name where nothing is registered under it. -/
def missingOf {α : Type} (found : Option α) (name : String) (ns : Option String) : List String :=
  match found with
  | none => [qualifyHandlerName name ns]
  | some _ => []

section
variable (ns : Option String)

def checkEffects (list : List String) : List String := list.flatMap (fun eff => missingOf (r.resolveEffect eff ns) eff ns)

def checkHooks (hooks : MachineHooksIR) : List String :=
  hookSlots.flatMap (fun slot => (hooks slot).flatMap (fun ref => missingOf (r.resolveHook ref ns) ref ns))

/-- The handler of an edge, where it names one. -/
def resolvedTx (edge : Edge Error) : Option (String × Policy.PartialTransitionPolicy Error) :=
  (given edge.transition).bind (r.resolveTransition · ns)

def checkTransition (edge : Edge Error) : List String :=
  match given edge.transition with
  | none => []
  | some name => missingOf (r.resolveTransition name ns) name ns

def checkCompensate (rawComp : Option String) : List String :=
  match given rawComp with
  | none => []
  | some name => missingOf (r.resolveCompensate name ns) name ns

/-- The compensation handler as the registry's check takes it: the decorator's, or the edge's own. -/
def declaredCompensate (edge : Edge Error) : Option String :=
  ((r.resolvedTx ns edge).bind (·.2.compensateHandler.join)).or edge.compensate

def checkEdge (edge : Edge Error) : List String :=
  r.checkTransition ns edge ++ r.checkCompensate ns (r.declaredCompensate ns edge) ++ r.checkEffects ns edge.effects

mutual
def walkNode : Node Error → List String
  | { key := _, path := _, type := _, description := _, initial := _, entry, exit, on, onDone, states, isImplicitError := _ } =>
    r.checkEffects ns entry ++ r.checkEffects ns exit ++ on.flatMap (fun e => r.checkEdge ns e.2) ++
      onDone.elim [] (r.checkEdge ns) ++ walkNodes states
def walkNodes : List (String × Node Error) → List String
  | [] => []
  | (_,node)::rest => walkNode node ++ walkNodes rest
end

end

def validationMissing (definition : Raw Error) : List String :=
  let ns := definition.registry.namespaceName
  r.checkEffects ns definition.effects ++ r.checkHooks ns definition.hooks ++ r.walkNodes ns definition.states

def validateMachineHandlers (definition : Raw Error) : Except UnregisteredHandlerError Unit :=
  if r.validationMissing definition = [] then .ok ()
  else .error ⟨definition.id,(r.validationMissing definition).eraseDups⟩

end FSMRegistry

/-- A transition as an actor binds it. -/
structure CompiledTransitionBinding (Error : Type) where
  statePath : String
  event : String
  edge : Edge Error
  resolvedTransitionName : Option String
  resolvedCompensateName : Option String
  policy : NormalizedTransitionPolicy Error

/-- What the constructor of an actor gathers on its walk. -/
structure Compiled (Error : Type) where
  missingHandlers : List String := []
  resolvedEffectNames : List String := []
  compiledBindings : List (CompiledTransitionBinding Error) := []

def Compiled.append (a b : Compiled Error) : Compiled Error where
  missingHandlers := a.missingHandlers ++ b.missingHandlers
  resolvedEffectNames := a.resolvedEffectNames ++ b.resolvedEffectNames
  compiledBindings := a.compiledBindings ++ b.compiledBindings

instance : Append (Compiled Error) := ⟨Compiled.append⟩

section
variable (r : FSMRegistry Error) (machine : Raw Error)

def verifyEffectList (effects : List String) : Compiled Error where
  missingHandlers := if machine.registry.strict then r.checkEffects machine.registry.namespaceName effects else []
  resolvedEffectNames := effects.filterMap (fun eff => (r.resolveEffect eff machine.registry.namespaceName).map (·.1))

/-- The names of a slot that resolve. -/
def resolvedHooksOf (slot : LifecycleHookName) : List String :=
  (machine.hooks slot).filterMap (fun ref => (r.resolveHook ref machine.registry.namespaceName).map (·.1))

def normalizedPolicy (statePath event : String) (edge : Edge Error) : NormalizedTransitionPolicy Error :=
  normalizeTransitionPolicy {
    defaultBreakerKey := machine.id ++ ":" ++ statePath ++ ":" ++ event
    globalDefaults := some r.globalDefaults
    machineDefaults := some machine.defaults
    transitionPolicy := some edge.policy
    decoratorPolicy := (r.resolvedTx machine.registry.namespaceName edge).map (·.2) }

/-- The compensation handler as an actor takes it: that of the policy, or the edge's own. -/
def rawCompensateName (statePath event : String) (edge : Edge Error) : Option String :=
  (normalizedPolicy r machine statePath event edge).compensateHandler.or edge.compensate

def bindingOf (statePath event : String) (edge : Edge Error) : CompiledTransitionBinding Error where
  statePath
  event
  edge
  resolvedTransitionName := (r.resolvedTx machine.registry.namespaceName edge).map (·.1)
  resolvedCompensateName := (given (rawCompensateName r machine statePath event edge)).bind
    (fun name => (r.resolveCompensate name machine.registry.namespaceName).map (·.1))
  policy := normalizedPolicy r machine statePath event edge

def compileEdge (statePath event : String) (edge : Edge Error) : Compiled Error :=
  { missingHandlers := if machine.registry.strict then
      r.checkTransition machine.registry.namespaceName edge ++
        r.checkCompensate machine.registry.namespaceName (rawCompensateName r machine statePath event edge) else [] } ++
  verifyEffectList r machine edge.effects ++ { compiledBindings := [bindingOf r machine statePath event edge] }

def gathered {α : Type} (compile : α → Compiled Error) (items : List α) : Compiled Error :=
  items.foldl (fun done item => done ++ compile item) {}

mutual
def walkState : Node Error → Compiled Error
  | { key := _, path, type := _, description := _, initial := _, entry, exit, on, onDone, states, isImplicitError := _ } =>
    verifyEffectList r machine entry ++ verifyEffectList r machine exit ++
      gathered (fun e => compileEdge r machine path e.1 e.2) on ++
      onDone.elim {} (compileEdge r machine path "$onDone") ++ walkStates states
def walkStates : List (String × Node Error) → Compiled Error
  | [] => {}
  | (_,node)::rest => walkState node ++ walkStates rest
end

def compileMachineBindings : Compiled Error :=
  verifyEffectList r machine machine.effects ++
  { missingHandlers := if machine.registry.strict then r.checkHooks machine.registry.namespaceName machine.hooks else [] } ++
  walkStates r machine machine.states

/-- `new DfsmActor(machine, registry)`: what is bound, unless handlers are missing. -/
def construct : Except UnregisteredHandlerError (Compiled Error) :=
  let compiled := compileMachineBindings r machine
  if compiled.missingHandlers = [] then .ok compiled else .error ⟨machine.id,compiled.missingHandlers.eraseDups⟩

end

/-! Both walks visit the same states, and look at the same effects, hooks and transitions. -/

section
variable (r : FSMRegistry Error) (machine : Raw Error)

@[simp] theorem appendMissing (a b : Compiled Error) : (a ++ b).missingHandlers = a.missingHandlers ++ b.missingHandlers := rfl
@[simp] theorem appendEffects (a b : Compiled Error) : (a ++ b).resolvedEffectNames = a.resolvedEffectNames ++ b.resolvedEffectNames := rfl
@[simp] theorem appendBindings (a b : Compiled Error) : (a ++ b).compiledBindings = a.compiledBindings ++ b.compiledBindings := rfl

theorem gatheredEach {α β : Type} (read : Compiled Error → List β) (reads : ∀ a b, read (a ++ b) = read a ++ read b)
    (nothing : read {} = []) (compile : α → Compiled Error) (items : List α) :
    read (gathered compile items) = items.flatMap (fun item => read (compile item)) := by
  have from_ (done : Compiled Error) : read (items.foldl (fun done item => done ++ compile item) done) =
      read done ++ items.flatMap (fun item => read (compile item)) := by
    induction items generalizing done with
    | nil => simp
    | cons item items ih => rw [List.foldl_cons,ih,reads,List.flatMap_cons,List.append_assoc]
  rw [gathered,from_,nothing,List.nil_append]

/-- What a walk takes from one state. -/
def walkedOwn (node : Node Error) : Compiled Error :=
  verifyEffectList r machine node.entry ++ verifyEffectList r machine node.exit ++
    gathered (fun e => compileEdge r machine node.path e.1 e.2) node.on ++
    node.onDone.elim {} (compileEdge r machine node.path "$onDone")

mutual
theorem walkNodeOwn (ns : Option String) : (node : Node Error) → r.walkNode ns node = (nodesOf node).flatMap (fun node =>
    r.checkEffects ns node.entry ++ r.checkEffects ns node.exit ++ node.on.flatMap (fun e => r.checkEdge ns e.2) ++
      node.onDone.elim [] (r.checkEdge ns))
  | { key, path, type, description, initial, entry, exit, on, onDone, states, isImplicitError } => by
    rw [FSMRegistry.walkNode,nodesOf,List.flatMap_cons,walkNodesOwn ns states]
theorem walkNodesOwn (ns : Option String) : (states : List (String × Node Error)) →
    r.walkNodes ns states = (nodesBelow states).flatMap (fun node =>
      r.checkEffects ns node.entry ++ r.checkEffects ns node.exit ++ node.on.flatMap (fun e => r.checkEdge ns e.2) ++
        node.onDone.elim [] (r.checkEdge ns))
  | [] => rfl
  | (_,node)::rest => by rw [FSMRegistry.walkNodes,nodesBelow,List.flatMap_append,walkNodeOwn ns node,walkNodesOwn ns rest]
end

mutual
theorem walkStateOwn {β : Type} (read : Compiled Error → List β) (reads : ∀ a b, read (a ++ b) = read a ++ read b)
    (nothing : read {} = []) : (node : Node Error) →
    read (walkState r machine node) = (nodesOf node).flatMap (fun node => read (walkedOwn r machine node))
  | { key, path, type, description, initial, entry, exit, on, onDone, states, isImplicitError } => by
    rw [walkState,nodesOf,List.flatMap_cons,reads,walkStatesOwn read reads nothing states,walkedOwn]
theorem walkStatesOwn {β : Type} (read : Compiled Error → List β) (reads : ∀ a b, read (a ++ b) = read a ++ read b)
    (nothing : read {} = []) : (states : List (String × Node Error)) →
    read (walkStates r machine states) = (nodesBelow states).flatMap (fun node => read (walkedOwn r machine node))
  | [] => nothing
  | (_,node)::rest => by
    rw [walkStates,nodesBelow,List.flatMap_append,reads,walkStateOwn read reads nothing node,walkStatesOwn read reads nothing rest]
end

/-- What both checks miss alike: effects, hooks and the handlers of the edges. -/
def sharedMissing : List String :=
  let ns := machine.registry.namespaceName
  r.checkEffects ns machine.effects ++ r.checkHooks ns machine.hooks ++ (nodesBelow machine.states).flatMap (fun node =>
    r.checkEffects ns node.entry ++ r.checkEffects ns node.exit ++
      node.boundEdges.flatMap (fun e => r.checkTransition ns e.2 ++ r.checkEffects ns e.2.effects))

/-- The compensation handlers that are missing, by how an edge is asked for one. -/
def compensateMissing (asked : String → String → Edge Error → Option String) : List String :=
  (nodesBelow machine.states).flatMap (fun node =>
    node.boundEdges.flatMap (fun e => r.checkCompensate machine.registry.namespaceName (asked node.path e.1 e.2)))

theorem memBound {β : Type} (node : Node Error) (of : String × Edge Error → List β) (x : β) :
    x ∈ node.boundEdges.flatMap of ↔ x ∈ node.on.flatMap of ∨ x ∈ node.onDone.elim [] (fun edge => of ("$onDone",edge)) := by
  rw [StateNodeIR.boundEdges,List.flatMap_append,List.mem_append]
  cases node.onDone <;> simp

theorem memCompensate {asked : String → String → Edge Error → Option String} {name : String} :
    name ∈ compensateMissing r machine asked ↔ ∃ node ∈ nodesBelow machine.states, ∃ e ∈ node.boundEdges,
      name ∈ r.checkCompensate machine.registry.namespaceName (asked node.path e.1 e.2) := by
  simp only [compensateMissing,List.mem_flatMap]

theorem memWalked (asked : String → String → Edge Error → Option String) (name : String) :
    (name ∈ r.checkEffects machine.registry.namespaceName machine.effects ∨ name ∈ r.checkHooks machine.registry.namespaceName machine.hooks ∨
      ∃ node ∈ nodesBelow machine.states, name ∈ r.checkEffects machine.registry.namespaceName node.entry ∨
        name ∈ r.checkEffects machine.registry.namespaceName node.exit ∨ ∃ e ∈ node.boundEdges,
          name ∈ r.checkTransition machine.registry.namespaceName e.2 ∨
          name ∈ r.checkCompensate machine.registry.namespaceName (asked node.path e.1 e.2) ∨
          name ∈ r.checkEffects machine.registry.namespaceName e.2.effects) ↔
      name ∈ sharedMissing r machine ∨ name ∈ compensateMissing r machine asked := by
  simp only [sharedMissing,compensateMissing,List.mem_append,List.mem_flatMap]
  constructor
  · rintro (declared | hook | ⟨node,here,entry | exit | ⟨e,mem,transition | compensate | effect⟩⟩)
    · exact .inl (.inl (.inl declared))
    · exact .inl (.inl (.inr hook))
    · exact .inl (.inr ⟨node,here,.inl (.inl entry)⟩)
    · exact .inl (.inr ⟨node,here,.inl (.inr exit)⟩)
    · exact .inl (.inr ⟨node,here,.inr ⟨e,mem,.inl transition⟩⟩)
    · exact .inr ⟨node,here,e,mem,compensate⟩
    · exact .inl (.inr ⟨node,here,.inr ⟨e,mem,.inr effect⟩⟩)
  · rintro (((declared | hook) | ⟨node,here,(entry | exit) | ⟨e,mem,transition | effect⟩⟩) | ⟨node,here,e,mem,compensate⟩)
    · exact .inl declared
    · exact .inr (.inl hook)
    · exact .inr (.inr ⟨node,here,.inl entry⟩)
    · exact .inr (.inr ⟨node,here,.inr (.inl exit)⟩)
    · exact .inr (.inr ⟨node,here,.inr (.inr ⟨e,mem,.inl transition⟩)⟩)
    · exact .inr (.inr ⟨node,here,.inr (.inr ⟨e,mem,.inr (.inr effect)⟩)⟩)
    · exact .inr (.inr ⟨node,here,.inr (.inr ⟨e,mem,.inr (.inl compensate)⟩)⟩)

def declared (_ _ : String) (edge : Edge Error) : Option String :=
  r.declaredCompensate machine.registry.namespaceName edge

theorem validationMisses (name : String) : name ∈ r.validationMissing machine ↔
    name ∈ sharedMissing r machine ∨ name ∈ compensateMissing r machine (declared r machine) := by
  rw [← memWalked]
  simp only [FSMRegistry.validationMissing,walkNodesOwn,List.mem_append,List.mem_flatMap]
  rw [or_assoc]
  refine or_congr Iff.rfl (or_congr Iff.rfl (exists_congr (fun node => and_congr Iff.rfl ?_)))
  have edges := memBound node (fun e => r.checkEdge machine.registry.namespaceName e.2) name
  simp only [List.mem_flatMap] at edges
  rw [or_assoc,or_assoc,← edges]
  refine or_congr Iff.rfl (or_congr Iff.rfl (exists_congr (fun e => and_congr Iff.rfl ?_)))
  simp only [FSMRegistry.checkEdge,List.mem_append,or_assoc,declared]

variable {machine} in
theorem constructionMisses (strict : machine.registry.strict = true) (name : String) :
    name ∈ (compileMachineBindings r machine).missingHandlers ↔
      name ∈ sharedMissing r machine ∨ name ∈ compensateMissing r machine (rawCompensateName r machine) := by
  rw [← memWalked]
  simp only [compileMachineBindings,appendMissing,walkStatesOwn r machine Compiled.missingHandlers (fun _ _ => rfl) rfl,
    verifyEffectList,strict,if_true,List.mem_append,List.mem_flatMap]
  rw [or_assoc]
  refine or_congr Iff.rfl (or_congr Iff.rfl (exists_congr (fun node => and_congr Iff.rfl ?_)))
  have edges := memBound node (fun e => (compileEdge r machine node.path e.1 e.2).missingHandlers) name
  have done : (node.onDone.elim {} (compileEdge r machine node.path "$onDone")).missingHandlers =
      node.onDone.elim [] (fun edge => (compileEdge r machine node.path "$onDone" edge).missingHandlers) := by
    cases node.onDone <;> rfl
  simp only [walkedOwn,appendMissing,gatheredEach Compiled.missingHandlers (fun _ _ => rfl) rfl,done,verifyEffectList,strict,if_true,
    List.mem_append]
  rw [or_assoc,or_assoc,← edges,List.mem_flatMap]
  refine or_congr Iff.rfl (or_congr Iff.rfl (exists_congr (fun e => and_congr Iff.rfl ?_)))
  simp only [compileEdge,appendMissing,verifyEffectList,strict,if_true,List.mem_append,List.not_mem_nil,or_false,or_assoc]

/-- The compensation handler that the layers below the decorator name for an edge. -/
def inheritedCompensate (edge : Edge Error) : Option String :=
  edge.policy.compensateHandler.join.or (machine.defaults.compensateHandler.join.or r.globalDefaults.compensateHandler.join)

def decoratorCompensate (edge : Edge Error) : Option String :=
  (r.resolvedTx machine.registry.namespaceName edge).bind (·.2.compensateHandler.join)

theorem rawCompensate (statePath event : String) (edge : Edge Error) : rawCompensateName r machine statePath event edge =
    (decoratorCompensate r machine edge).or ((inheritedCompensate r machine edge).or edge.compensate) := by
  have policy : (normalizedPolicy r machine statePath event edge).compensateHandler =
      (decoratorCompensate r machine edge).or (inheritedCompensate r machine edge) := by
    unfold normalizedPolicy decoratorCompensate inheritedCompensate normalizeTransitionPolicy
    cases r.resolvedTx machine.registry.namespaceName edge with
    | none => simp [Policy.readLayer,Policy.SDK_DEFAULT_POLICY]
    | some found => simp [Policy.readLayer,Policy.SDK_DEFAULT_POLICY]
  rw [rawCompensateName,policy,Option.or_assoc]

/-- Both checks accept, or both report the same names. -/
structure ChecksAgree : Prop where
  accepts : r.validateMachineHandlers machine = .ok () ↔ ∀ error, construct r machine ≠ .error error
  names : ∀ e e', r.validateMachineHandlers machine = .error e → construct r machine = .error e' →
    ∀ name, name ∈ e.missing ↔ name ∈ e'.missing

theorem agreeIff : ChecksAgree r machine ↔
    ∀ name, name ∈ r.validationMissing machine ↔ name ∈ (compileMachineBindings r machine).missingHandlers := by
  have constructs : (∀ error, construct r machine ≠ .error error) ↔ (compileMachineBindings r machine).missingHandlers = [] := by
    unfold construct
    dsimp only
    split
    · rename_i none_; simp [none_]
    · rename_i some_; simp [some_]
  have validates : r.validateMachineHandlers machine = .ok () ↔ r.validationMissing machine = [] := by
    unfold FSMRegistry.validateMachineHandlers
    split
    · rename_i none_; simp [none_]
    · rename_i some_; simp [some_]
  constructor
  · intro agree name
    have both := agree.accepts
    rw [validates,constructs] at both
    by_cases accepted : r.validationMissing machine = []
    · rw [accepted,both.mp accepted]
    · have refused : (compileMachineBindings r machine).missingHandlers ≠ [] := fun none_ => accepted (both.mpr none_)
      have same := agree.names ⟨machine.id,_⟩ ⟨machine.id,_⟩ (if_neg accepted) (if_neg refused) name
      simpa only [List.mem_eraseDups] using same
  · intro same
    have empty : r.validationMissing machine = [] ↔ (compileMachineBindings r machine).missingHandlers = [] := by
      simp only [List.eq_nil_iff_forall_not_mem,same]
    refine ⟨validates.trans (empty.trans constructs.symm),?_⟩
    intro e e' validated constructed name
    unfold FSMRegistry.validateMachineHandlers at validated
    unfold construct at constructed
    dsimp only at constructed
    split at validated
    · cases validated
    · cases validated
      split at constructed
      · cases constructed
      · cases constructed
        simpa only [List.mem_eraseDups] using same name

variable {machine} in
/-- The two checks agree exactly where an edge that the decorator leaves without compensation is
asked for the same handler by both, or what only one of them asks for is missing anyway or not at all. -/
theorem handlerChecksAgree (strict : machine.registry.strict = true) : ChecksAgree r machine ↔
    ∀ node ∈ nodesBelow machine.states, ∀ e ∈ node.boundEdges, decoratorCompensate r machine e.2 = none →
      ∀ handler, inheritedCompensate r machine e.2 = some handler → e.2.compensate ≠ some handler →
        (∀ name ∈ r.checkCompensate machine.registry.namespaceName (some handler),
          name ∈ sharedMissing r machine ∨ name ∈ compensateMissing r machine (declared r machine)) ∧
        (∀ name ∈ r.checkCompensate machine.registry.namespaceName e.2.compensate,
          name ∈ sharedMissing r machine ∨ name ∈ compensateMissing r machine (rawCompensateName r machine)) := by
  rw [agreeIff]
  simp only [validationMisses,constructionMisses r strict]
  constructor
  · intro same node here e mem silent handler inherits _
    have asked : rawCompensateName r machine node.path e.1 e.2 = some handler := by rw [rawCompensate,silent,inherits]; rfl
    have own : declared r machine node.path e.1 e.2 = e.2.compensate := by
      have none_ : (r.resolvedTx machine.registry.namespaceName e.2).bind (·.2.compensateHandler.join) = none := silent
      rw [declared,FSMRegistry.declaredCompensate,none_,Option.none_or]
    refine ⟨fun name missing => (same name).mpr (.inr ?_),fun name missing => (same name).mp (.inr ?_)⟩
    · exact (memCompensate r machine).mpr ⟨node,here,e,mem,by rwa [asked]⟩
    · exact (memCompensate r machine).mpr ⟨node,here,e,mem,by rwa [own]⟩
  · intro passed name
    have alike {node e} (here : node ∈ nodesBelow machine.states) (mem : e ∈ node.boundEdges) :
        rawCompensateName r machine node.path e.1 e.2 = declared r machine node.path e.1 e.2 ∨
        ∃ handler, decoratorCompensate r machine e.2 = none ∧ inheritedCompensate r machine e.2 = some handler ∧
          e.2.compensate ≠ some handler ∧ rawCompensateName r machine node.path e.1 e.2 = some handler ∧
          declared r machine node.path e.1 e.2 = e.2.compensate := by
      have own : declared r machine node.path e.1 e.2 = (decoratorCompensate r machine e.2).or e.2.compensate := rfl
      rw [rawCompensate,own]
      cases silent : decoratorCompensate r machine e.2 with
      | some _ => exact .inl rfl
      | none =>
        cases inherits : inheritedCompensate r machine e.2 with
        | none => exact .inl rfl
        | some handler =>
          by_cases same : e.2.compensate = some handler
          · exact .inl (by rw [same]; rfl)
          · exact .inr ⟨handler,rfl,rfl,same,rfl,rfl⟩
    constructor
    · rintro (shared | compensate)
      · exact .inl shared
      · obtain ⟨node,here,e,mem,missing⟩ := (memCompensate r machine).mp compensate
        rcases alike here mem with same | ⟨handler,silent,inherits,other,_,own⟩
        · exact .inr ((memCompensate r machine).mpr ⟨node,here,e,mem,by rwa [same]⟩)
        · exact (passed node here e mem silent handler inherits other).2 name (by rwa [own] at missing)
    · rintro (shared | compensate)
      · exact .inl shared
      · obtain ⟨node,here,e,mem,missing⟩ := (memCompensate r machine).mp compensate
        rcases alike here mem with same | ⟨handler,silent,inherits,other,asked,_⟩
        · exact .inr ((memCompensate r machine).mpr ⟨node,here,e,mem,by rwa [← same]⟩)
        · exact (passed node here e mem silent handler inherits other).1 name (by rwa [asked] at missing)

end

/-- A shop whose defaults name a compensation handler. -/
def refunding : Raw Unit where
  id := "shop"
  version := "1.0.0"
  initial := some "cart"
  defaults := { compensateHandler := some (some "refund") }
  states := [("cart",{ key := "cart", path := "cart", type := .atomic, on := [("PAY",{ event := "PAY", target := some "paid", policy := {} })] }),
    ("paid",{ key := "paid", path := "paid", type := .final }),
    ("error",{ key := "error", path := "error", type := .final, isImplicitError := true })]

theorem handlerChecksAgreeRefunding : ChecksAgree ({ compensations := [("refund",())] } : FSMRegistry Unit) refunding := by
  refine (handlerChecksAgree _ rfl).mpr ?_
  intro node here e mem silent handler inherits _
  have nodes : node.path = "cart" ∧ node.boundEdges = [("PAY",{ event := "PAY", target := some "paid", policy := {} })] ∨ node.boundEdges = [] := by
    simp only [refunding,nodesBelow,nodesOf,List.cons_append,List.nil_append,List.mem_cons,List.not_mem_nil,or_false] at here
    rcases here with rfl | rfl | rfl
    · exact .inl ⟨rfl,rfl⟩
    · exact .inr rfl
    · exact .inr rfl
  rcases nodes with ⟨_,edges⟩ | edges
  · rw [edges,List.mem_singleton] at mem
    subst mem
    cases inherits
    exact ⟨by decide,by decide⟩
  · rw [edges] at mem
    cases mem

theorem handlerChecksDisagree : ¬ ∀ (r : FSMRegistry Unit) (machine : Raw Unit),
    machine.registry.strict = true → ChecksAgree r machine := by
  intro claim
  have agree := (agreeIff {} refunding).mp (claim {} refunding rfl) "refund"
  revert agree
  decide

end Dfsm.Complete
