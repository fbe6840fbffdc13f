import Dfsm.Java.Registry
import Dfsm.Lib.Gathering

/-! Which handlers must be registered for the check of the registry to accept, and which for an actor to be created. -/
namespace Dfsm.Java.Registry
open Policies (NormalizedTransitionPolicy)
open Complete (LifecycleHookName hookSlots nodesOf nodesBelow)

section
variable (r : FSMRegistry) (machine : Machine)

/-- A compensation handler that is asked for is registered; a blank name asks for none. -/
def Answered (asked : Option String) : Prop :=
  ∀ name, given asked = some name → (r.resolveCompensate name machine.registry.namespaceName).isSome = true

def EffectsRegistered (effects : List String) : Prop :=
  ∀ eff ∈ effects, (r.resolveEffect eff machine.registry.namespaceName).isSome = true

def TransitionRegistered (edge : Edge) : Prop :=
  ∀ name, given edge.transition = some name → (r.resolveTransition name machine.registry.namespaceName).isSome = true

def EdgePasses (asked : Edge → Option String) (edge : Edge) : Prop :=
  TransitionRegistered r machine edge ∧ Answered r machine (asked edge) ∧ EffectsRegistered r machine edge.effects

def NodePasses (asked : Edge → Option String) (node : Node) : Prop :=
  EffectsRegistered r machine node.entry ∧ EffectsRegistered r machine node.exit ∧
    (∀ e ∈ node.on, EdgePasses r machine asked e.2) ∧ ∀ done, node.onDone = some done → EdgePasses r machine asked done

def HooksRegistered : Prop :=
  ∀ slot ∈ hookSlots, ∀ hookRef ∈ machine.hooks slot, (r.resolveHook hookRef machine.registry.namespaceName).isSome = true

def declared (edge : Edge) : Option String := r.declaredCompensate machine.registry.namespaceName edge

theorem validHandler {α : Type} (machineId : String) (ns : Option String) (handlerKind name : String) (found : Option α) :
    FSMRegistry.validateHandler machineId ns handlerKind name found = .ok () ↔ found.isSome = true := by
  cases found with
  | none => simp [FSMRegistry.validateHandler]
  | some _ => simp [FSMRegistry.validateHandler]

theorem validEffects (effects : List String) :
    effects.forM (r.validateEffect machine.id machine.registry.namespaceName) = .ok () ↔ EffectsRegistered r machine effects := by
  rw [Gathering.allPass]
  exact forall₂_congr (fun eff _ => validHandler ..)

theorem validEdge (edge : Edge) : r.validateEdgeHandlers machine.id machine.registry.namespaceName edge = .ok () ↔
    EdgePasses r machine (declared r machine) edge := by
  rw [FSMRegistry.validateEdgeHandlers,Gathering.bothPass,Gathering.bothPass,Gathering.anyPass,Gathering.anyPass,validEffects]
  simp only [validHandler]
  rfl

mutual
theorem validNode : (node : Node) → (r.validateNodeHandlers machine.id machine.registry.namespaceName node = .ok () ↔
    ∀ n ∈ nodesOf node, NodePasses r machine (declared r machine) n)
  | { key, path, type, description, initial, entry, exit, on, onDone, states, isImplicitError } => by
    rw [FSMRegistry.validateNodeHandlers,nodesOf,List.forall_mem_cons,← validStates states]
    simp only [Gathering.bothPass,@Gathering.allPass _ _ _ on,Gathering.anyPass,validEffects,validEdge,NodePasses,and_assoc]
theorem validStates : (states : List (String × Node)) → (r.validateStateHandlers machine.id machine.registry.namespaceName states = .ok () ↔
    ∀ n ∈ nodesBelow states, NodePasses r machine (declared r machine) n)
  | [] => by
    rw [FSMRegistry.validateStateHandlers,nodesBelow]
    exact iff_of_true rfl (by simp)
  | (_,node)::rest => by
    rw [FSMRegistry.validateStateHandlers,nodesBelow,List.forall_mem_append,← validNode node,← validStates rest,Gathering.bothPass]
end

variable {machine} in
theorem validIff (strict : machine.registry.strict = true) : r.validateMachineHandlers machine = .ok () ↔
    (∀ node ∈ nodesBelow machine.states, NodePasses r machine (declared r machine) node) ∧
      EffectsRegistered r machine machine.effects ∧ HooksRegistered r machine := by
  rw [FSMRegistry.validateMachineHandlers,strict,if_neg (by decide),Gathering.bothPass,Gathering.bothPass,validStates,validEffects]
  simp only [Gathering.allPass,validHandler]
  rfl

/-! What the constructor binds. -/

def resolvedTransition (edge : Edge) : Option (String × Policies.PartialTransitionPolicy) :=
  r.resolvedTx machine.registry.namespaceName edge

def boundPolicy (edge : Edge) : NormalizedTransitionPolicy := policyOf r machine edge (resolvedTransition r machine edge)

/-- The compensation handler as an actor takes it: that of the policy, or the edge's own. -/
def compRef (edge : Edge) : Option String := (boundPolicy r machine edge).compensateHandler.or edge.compensate

def bindingOf (statePath : String) (edge : Edge) : CompiledBinding where
  statePath
  edge
  resolvedTransitionName := (resolvedTransition r machine edge).map (·.1)
  resolvedCompensateName := (given (compRef r machine edge)).map (fun name =>
    (r.resolveCompensate name machine.registry.namespaceName).elim name (·.1))
  policy := boundPolicy r machine edge

def entryOf (statePath event : String) (edge : Edge) : String × CompiledBinding :=
  (bindingKey statePath event,bindingOf r machine statePath edge)

/-- What an action of the constructor does to the bindings. -/
abbrev Binds (action : Compiled → Except UnregisteredHandlerException Compiled) (passes : Prop) (entries : List (String × CompiledBinding)) : Prop :=
  Gathering.Adds Compiled.compiledBindings (Filed.file Prod.fst) action passes entries

variable {machine}

theorem requiredStrict (strict : machine.registry.strict = true) {α : Type} (handlerKind name : String) (found a : Option α) :
    required machine handlerKind name found = .ok a ↔ found.isSome = true ∧ a = found := by
  cases found with
  | none => simp [required,strict]
  | some handler => simp [required,eq_comm]

theorem bindsEffects (strict : machine.registry.strict = true) (effects : List String) :
    Binds (fun done => effects.foldlM (fun done eff => verifyEffect r machine eff done) done) (EffectsRegistered r machine effects) [] := by
  have one (eff : String) : Binds (verifyEffect r machine eff)
      ((r.resolveEffect eff machine.registry.namespaceName).isSome = true ∧ True) [] := by
    refine Gathering.needing (requiredStrict strict _ _ _) (Gathering.plain [] (fun done => ?_))
    cases r.resolveEffect eff machine.registry.namespaceName with
    | none => rfl
    | some effect => rfl
  refine (Gathering.each effects one).relabel ?_ ?_
  · simp only [and_true,EffectsRegistered]
  · simp

theorem bindsEdge (strict : machine.registry.strict = true) (statePath event : String) (edge : Edge) :
    Binds (compileEdge r machine statePath event edge) (EdgePasses r machine (compRef r machine) edge)
      [entryOf r machine statePath event edge] := by
  have transition (found : Option (String × Policies.PartialTransitionPolicy)) :
      (given edge.transition).elim (.ok none) (fun name =>
        required machine "transition" name (r.resolveTransition name machine.registry.namespaceName)) = .ok found ↔
      TransitionRegistered r machine edge ∧ found = resolvedTransition r machine edge := by
    rw [TransitionRegistered,resolvedTransition,FSMRegistry.resolvedTx]
    cases given edge.transition with
    | none => exact ⟨fun same => ⟨nofun,(Except.ok.inj same).symm⟩,fun both => congrArg Except.ok both.2.symm⟩
    | some name => simp [requiredStrict strict]
  have compensate (found : Option String) :
      (given (compRef r machine edge)).elim (.ok none) (fun name => do
        let rc ← required machine "compensate" name (r.resolveCompensate name machine.registry.namespaceName)
        pure (some (rc.elim name (·.1)))) = .ok found ↔
      Answered r machine (compRef r machine edge) ∧ found = (bindingOf r machine statePath edge).resolvedCompensateName := by
    rw [Answered,bindingOf]
    dsimp only
    cases given (compRef r machine edge) with
    | none => exact ⟨fun same => ⟨nofun,(Except.ok.inj same).symm⟩,fun both => congrArg Except.ok both.2.symm⟩
    | some name =>
      cases handler : r.resolveCompensate name machine.registry.namespaceName with
      | none => simp [required,strict,handler,bind,Except.bind]
      | some rc =>
        simp only [Option.elim_some,Option.map_some,required,handler,Option.isNone_some,Bool.false_and,Bool.false_eq_true,if_false,bind,Except.bind,pure,Except.pure]
        constructor
        · intro same
          exact ⟨fun asked there => by cases there; rw [handler]; rfl,(Except.ok.inj same).symm⟩
        · exact fun both => congrArg Except.ok both.2.symm
  have put : Binds (fun done => edge.effects.foldlM (fun done eff => verifyEffect r machine eff done) done >>= fun done =>
      pure { done with compiledBindings := Filed.file Prod.fst done.compiledBindings (entryOf r machine statePath event edge) })
      (EffectsRegistered r machine edge.effects ∧ True) ([] ++ [entryOf r machine statePath event edge]) :=
    Gathering.andThen (bindsEffects r strict edge.effects) (Gathering.plain [_] (fun _ => rfl))
  refine (Gathering.needing transition (Gathering.needing compensate put)).relabel ?_ rfl
  simp only [and_true,EdgePasses]

variable (machine) in
def entriesOf (node : Node) : List (String × CompiledBinding) :=
  node.boundEdges.map (fun e => entryOf r machine node.path e.1 e.2)

mutual
theorem bindsNode (strict : machine.registry.strict = true) : (node : Node) → Binds (compileNodeRecursive r machine node)
    (∀ n ∈ nodesOf node, NodePasses r machine (compRef r machine) n) ((nodesOf node).flatMap (entriesOf r machine))
  | { key, path, type, description, initial, entry, exit, on, onDone, states, isImplicitError } => by
    have done : Binds (fun done => onDone.elim (.ok done) (fun edge => compileEdge r machine path "$onDone" edge done))
        (∀ edge, onDone = some edge → EdgePasses r machine (compRef r machine) edge)
        ((onDone.map ("$onDone",·)).toList.map (fun e => entryOf r machine path e.1 e.2)) := by
      cases onDone with
      | none => exact (Gathering.plain [] (fun _ => rfl)).relabel (by simp) rfl
      | some edge => exact (bindsEdge r strict path "$onDone" edge).relabel (by simp) rfl
    have walk := Gathering.andThen (bindsEffects r strict entry) (Gathering.andThen (bindsEffects r strict exit)
      (Gathering.andThen (Gathering.each on (fun e => bindsEdge r strict path e.1 e.2)) (Gathering.andThen done (bindsStates strict states))))
    have here : compileNodeRecursive r machine
        { key, path, type, description, initial, entry, exit, on, onDone, states, isImplicitError } = _ := funext (fun done => compileNodeRecursive.eq_1 ..)
    rw [here,nodesOf,List.flatMap_cons,List.forall_mem_cons]
    refine walk.relabel ?_ ?_
    · simp only [NodePasses,and_assoc]
    · simp [entriesOf,Complete.StateNodeIR.boundEdges,List.map_eq_flatMap]
theorem bindsStates (strict : machine.registry.strict = true) : (states : List (String × Node)) → Binds (compileStates r machine states)
    (∀ n ∈ nodesBelow states, NodePasses r machine (compRef r machine) n) ((nodesBelow states).flatMap (entriesOf r machine))
  | [] => by
    have here : compileStates r machine [] = .ok := funext (fun _ => compileStates.eq_1 ..)
    rw [here,nodesBelow]
    exact (Gathering.plain [] (fun _ => rfl)).relabel (by simp) rfl
  | (_,node)::rest => by
    have here (key : String) : compileStates r machine ((key,node)::rest) =
        fun done => compileNodeRecursive r machine node done >>= compileStates r machine rest := funext (fun _ => compileStates.eq_2 ..)
    rw [here,nodesBelow,List.flatMap_append,List.forall_mem_append]
    exact Gathering.andThen (bindsNode strict node) (bindsStates strict rest)
end

theorem bindsMachine (strict : machine.registry.strict = true) :
    Binds (fun done => compileStates r machine machine.states done >>= fun done =>
        machine.effects.foldlM (fun done eff => verifyEffect r machine eff done) done >>= fun done =>
          hookSlots.foldlM (fun done slot => (machine.hooks slot).foldlM (fun done hookRef => compileHook r machine slot hookRef done) done) done)
      ((∀ node ∈ nodesBelow machine.states, NodePasses r machine (compRef r machine) node) ∧
        EffectsRegistered r machine machine.effects ∧ HooksRegistered r machine)
      ((nodesBelow machine.states).flatMap (entriesOf r machine)) := by
  have hook (slot : LifecycleHookName) (hookRef : String) : Binds (compileHook r machine slot hookRef)
      ((r.resolveHook hookRef machine.registry.namespaceName).isSome = true ∧ True) [] := by
    refine Gathering.needing (requiredStrict strict _ _ _) (Gathering.plain [] (fun done => ?_))
    cases r.resolveHook hookRef machine.registry.namespaceName with
    | none => rfl
    | some found => rfl
  have hooks := Gathering.each hookSlots (fun slot => Gathering.each (machine.hooks slot) (hook slot))
  have walk := Gathering.andThen (bindsStates r strict machine.states) (Gathering.andThen (bindsEffects r strict machine.effects) hooks)
  refine walk.relabel ?_ ?_
  · simp only [and_true,HooksRegistered]
  · simp

variable (machine)

/-- Everything but the compensation handlers is registered. -/
structure HandlersRegistered : Prop where
  effects : EffectsRegistered r machine machine.effects
  hooks : HooksRegistered r machine
  states : ∀ node ∈ nodesBelow machine.states, EffectsRegistered r machine node.entry ∧ EffectsRegistered r machine node.exit
  edges : ∀ node ∈ nodesBelow machine.states, ∀ e ∈ node.boundEdges,
    TransitionRegistered r machine e.2 ∧ EffectsRegistered r machine e.2.effects

def AllAnswered (asked : Edge → Option String) : Prop :=
  ∀ node ∈ nodesBelow machine.states, ∀ e ∈ node.boundEdges, Answered r machine (asked e.2)

theorem boundPass (passes : Edge → Prop) (node : Node) :
    ((∀ e ∈ node.on, passes e.2) ∧ ∀ done, node.onDone = some done → passes done) ↔ ∀ e ∈ node.boundEdges, passes e.2 := by
  rw [Complete.StateNodeIR.boundEdges,List.forall_mem_append]
  cases node.onDone with
  | none => simp
  | some done => simp

theorem passesIff (asked : Edge → Option String) :
    ((∀ node ∈ nodesBelow machine.states, NodePasses r machine asked node) ∧
        EffectsRegistered r machine machine.effects ∧ HooksRegistered r machine) ↔
      HandlersRegistered r machine ∧ AllAnswered r machine asked := by
  have node (n : Node) := boundPass (EdgePasses r machine asked) n
  simp only [NodePasses,node]
  constructor
  · intro ⟨states,effects,hooks⟩
    refine ⟨⟨effects,hooks,fun n here => ?_,fun n here e mem => ?_⟩,fun n here e mem => ?_⟩
    · exact ⟨(states n here).1,(states n here).2.1⟩
    · have edge := (states n here).2.2 e mem
      exact ⟨edge.1,edge.2.2⟩
    · exact ((states n here).2.2 e mem).2.1
  · intro ⟨registered,answered⟩
    refine ⟨fun n here => ⟨(registered.states n here).1,(registered.states n here).2,fun e mem => ?_⟩,registered.effects,registered.hooks⟩
    have edge := registered.edges n here e mem
    exact ⟨edge.1,answered n here e mem,edge.2⟩

variable {machine}

theorem validatedIff (strict : machine.registry.strict = true) :
    r.validateMachineHandlers machine = .ok () ↔ HandlersRegistered r machine ∧ AllAnswered r machine (declared r machine) := by
  rw [validIff r strict,passesIff]

theorem constructedIff (strict : machine.registry.strict = true) :
    (∃ compiled, compileMachineBindings r machine = .ok compiled) ↔
      HandlersRegistered r machine ∧ AllAnswered r machine (compRef r machine) := by
  rw [← passesIff]
  exact (bindsMachine r strict).succeeds {}

theorem constructedBindings (strict : machine.registry.strict = true) {compiled : Compiled}
    (built : compileMachineBindings r machine = .ok compiled) :
    compiled.compiledBindings = Filed.filed Prod.fst ((nodesBelow machine.states).flatMap (entriesOf r machine)) :=
  (bindsMachine r strict).result {} compiled built

/-! Which compensation handlers are asked for. -/

variable (machine)

def decoratorCompensate (edge : Edge) : Option String :=
  (resolvedTransition r machine edge).bind (·.2.compensateHandler)

/-- The compensation handler that the layers below the decorator name for an edge. -/
def inheritedCompensate (edge : Edge) : Option String :=
  (given edge.policy.compensateHandler).or ((given machine.defaults.compensateHandler).or (given r.defaultPolicy.compensateHandler))

theorem askedIs (edge : Edge) : compRef r machine edge =
    (given (decoratorCompensate r machine edge)).or ((inheritedCompensate r machine edge).or edge.compensate) := by
  have policy : (boundPolicy r machine edge).compensateHandler =
      (given (decoratorCompensate r machine edge)).or (inheritedCompensate r machine edge) := by
    unfold boundPolicy policyOf decoratorCompensate inheritedCompensate Policies.normalize
    cases resolvedTransition r machine edge with
    | none => simp [Policies.applyLayer,Policies.PartialTransitionPolicy.EMPTY,Policies.sdkDefault,given]
    | some found => simp [Policies.applyLayer,Policies.sdkDefault]
  rw [compRef,policy,Option.or_assoc]

theorem declaredIs (edge : Edge) : declared r machine edge = (decoratorCompensate r machine edge).or edge.compensate := rfl

/-- Where the decorator names no handler, what only one side asks for is registered if all is that the other asks for. -/
structure ChecksAlike : Prop where
  inherited : AllAnswered r machine (declared r machine) → ∀ node ∈ nodesBelow machine.states, ∀ e ∈ node.boundEdges,
    given (decoratorCompensate r machine e.2) = none → Answered r machine ((inheritedCompensate r machine e.2).or e.2.compensate)
  own : AllAnswered r machine (compRef r machine) → ∀ node ∈ nodesBelow machine.states, ∀ e ∈ node.boundEdges,
    decoratorCompensate r machine e.2 = none → Answered r machine e.2.compensate

theorem givenSome {text : Option String} {filled : String} (here : given text = some filled) : text = some filled :=
  (Option.filter_eq_some_iff.mp here).1

theorem checksAlike : ChecksAlike r machine ↔
    (AllAnswered r machine (declared r machine) ↔ AllAnswered r machine (compRef r machine)) := by
  constructor
  · intro alike
    constructor
    · intro answered node here e mem
      rw [askedIs]
      cases decorated : given (decoratorCompensate r machine e.2) with
      | none => exact alike.inherited answered node here e mem decorated
      | some handler =>
        have same := answered node here e mem
        rw [declaredIs,givenSome decorated] at same
        exact same
    · intro answered node here e mem
      rw [declaredIs]
      cases decorated : decoratorCompensate r machine e.2 with
      | none => exact alike.own answered node here e mem decorated
      | some handler =>
        intro name asked
        rw [Option.some_or] at asked
        have same := answered node here e mem name
        rw [askedIs,decorated,asked] at same
        cases givenSome asked
        exact same asked
  · intro same
    refine ⟨fun answered node here e mem silent => ?_,fun answered node here e mem silent => ?_⟩
    · have there := same.mp answered node here e mem
      rwa [askedIs,silent,Option.none_or] at there
    · have there := same.mpr answered node here e mem
      rwa [declaredIs,silent,Option.none_or] at there

end

end Dfsm.Java.Registry
