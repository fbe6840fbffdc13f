import Dfsm.Java.HandlerChecks

/-! The transitions that the registry lists for a machine and those that an actor of it reports. -/
namespace Dfsm.Java.Registry
open Complete (nodesOf nodesBelow)

section
variable (r : FSMRegistry) (machine : Machine)

/-- An edge as it is bound. -/
structure Bound where
  statePath : String
  event : String
  edge : Edge

def Bound.key (b : Bound) : String := bindingKey b.statePath b.event

def boundEdges : List Bound := (nodesBelow machine.states).flatMap (fun node => node.boundEdges.map (fun e => ⟨node.path,e.1,e.2⟩))

/-- The edges that the registry lists. -/
def listedEdges : List Bound := (nodesBelow machine.states).flatMap (fun node => node.on.map (fun e => ⟨node.path,e.1,e.2⟩))

def bindingFor (b : Bound) : CompiledBinding := bindingOf r machine b.statePath b.edge

def derivedFor (b : Bound) : EffectiveTransitionConfig := derived r machine b.statePath b.event b.edge

theorem listedBound {b : Bound} (listed : b ∈ listedEdges machine) : b ∈ boundEdges machine := by
  obtain ⟨node,here,mem⟩ := List.mem_flatMap.mp listed
  refine List.mem_flatMap.mpr ⟨node,here,?_⟩
  rw [Complete.StateNodeIR.boundEdges,List.map_append]
  exact List.mem_append_left _ mem

theorem boundEvent {b : Bound} (bound : b ∈ boundEdges machine) : b.edge.event = b.event := by
  obtain ⟨node,here,mem⟩ := List.mem_flatMap.mp bound
  obtain ⟨e,edge,rfl⟩ := List.mem_map.mp mem
  exact machine.events node here e edge

mutual
theorem collectedNode : (node : Node) → (done : Collected) → (collectNode r machine node done).out =
    done.out ++ (nodesOf node).flatMap (fun node => node.on.map (fun e => derived r machine node.path e.1 e.2))
  | { key, path, type, description, initial, entry, exit, on, onDone, states, isImplicitError }, done => by
    rw [collectNode,collectedStates states,nodesOf,List.flatMap_cons,List.append_assoc]
theorem collectedStates : (states : List (String × Node)) → (done : Collected) → (collectStaticEffective r machine states done).out =
    done.out ++ (nodesBelow states).flatMap (fun node => node.on.map (fun e => derived r machine node.path e.1 e.2))
  | [], done => by rw [collectStaticEffective,nodesBelow,List.flatMap_nil,List.append_nil]
  | (_,node)::rest, done => by
    rw [collectStaticEffective,collectedStates rest,collectedNode node,nodesBelow,List.flatMap_append,List.append_assoc]
end

theorem staticRows : (FSMRegistry.getEffectiveConfig r machine).transitions = (listedEdges machine).map (derivedFor r machine) := by
  rw [FSMRegistry.getEffectiveConfig]
  dsimp only
  rw [collectedStates,listedEdges,List.map_flatMap,List.nil_append]
  simp only [List.map_map]
  rfl

variable {machine} in
theorem liveRows (strict : machine.registry.strict = true) {compiled : Compiled}
    (built : compileMachineBindings r machine = .ok compiled) : (compiled.getEffectiveConfig machine).transitions =
      (Filed.filed Prod.fst ((boundEdges machine).map (fun b => (b.key,bindingFor r machine b)))).map (·.2.reported) := by
  have entries : (nodesBelow machine.states).flatMap (entriesOf r machine) =
      (boundEdges machine).map (fun b => (b.key,bindingFor r machine b)) := by
    rw [boundEdges,List.map_flatMap]
    simp only [List.map_map]
    rfl
  rw [Compiled.getEffectiveConfig,constructedBindings r strict built,entries]

theorem memReported (row : EffectiveTransitionConfig) :
    row ∈ (Filed.filed Prod.fst ((boundEdges machine).map (fun b => (b.key,bindingFor r machine b)))).map (·.2.reported) ↔
      ∃ last, Filed.last Bound.key (boundEdges machine) last.key = some last ∧ (bindingFor r machine last).reported = row := by
  have key (k : String) : Filed.last Prod.fst ((boundEdges machine).map (fun b => (b.key,bindingFor r machine b))) k =
      (Filed.last Bound.key (boundEdges machine) k).map (fun b => (b.key,bindingFor r machine b)) := by
    rw [Filed.lastMap]
  simp only [List.mem_map,Filed.memFiled,key]
  constructor
  · rintro ⟨entry,filed,same⟩
    obtain ⟨last,found,rfl⟩ := Option.map_eq_some_iff.mp filed
    exact ⟨last,found,same⟩
  · rintro ⟨last,found,same⟩
    exact ⟨(last.key,bindingFor r machine last),Option.map_eq_some_iff.mpr ⟨last,found,rfl⟩,same⟩

def EffectiveTransitionConfig.key (row : EffectiveTransitionConfig) : String := bindingKey row.statePath row.event

theorem reportedKey {b : Bound} (bound : b ∈ boundEdges machine) : (bindingFor r machine b).reported.key = b.key := by
  have event := boundEvent machine bound
  rw [Bound.key,← event]
  rfl

theorem reportedApart : (((Filed.filed Prod.fst ((boundEdges machine).map (fun b => (b.key,bindingFor r machine b)))).map
    (·.2.reported)).map EffectiveTransitionConfig.key).Nodup := by
  have apart := Filed.filedApart Prod.fst ((boundEdges machine).map (fun b => (b.key,bindingFor r machine b)))
  rw [List.map_map]
  refine (List.map_congr_left (fun entry filed => ?_)) ▸ apart
  obtain ⟨b,bound,rfl⟩ := List.mem_map.mp (Filed.lastMem ((Filed.memFiled _ _ _).mp filed))
  exact (reportedKey r machine bound).symm

theorem qualifiedBlank (name : String) (ns : Option String) : isBlank (qualifyHandlerName name ns) = isBlank name := by
  unfold qualifyHandlerName
  by_cases blank : isBlank name = true
  · rw [if_pos blank]
  · rw [if_neg blank]
    cases given ns with
    | none => rfl
    | some ns =>
      dsimp only [Option.elim_some]
      split
      · rfl
      · have filled : isBlank name = false := by simpa using blank
        rw [isBlank,String.toList_append,List.all_append]
        change (_ && isBlank name) = isBlank name
        rw [filled,Bool.and_false]

theorem resolvedBlank {α : Type} {registered : List (String × α)} {name : String} {ns : Option String} {found : String × α}
    (resolved : resolve registered name ns = some found) : isBlank found.1 = isBlank name := by
  rcases Option.or_eq_some_iff.mp resolved with direct | ⟨_,direct⟩
  · obtain ⟨handler,_,rfl⟩ := Option.map_eq_some_iff.mp direct
    exact qualifiedBlank name ns
  · obtain ⟨handler,_,rfl⟩ := Option.map_eq_some_iff.mp direct
    rfl

theorem givenFilled {name : String} (filled : isBlank name = false) : given (some name) = some name := by
  simp [given,Option.filter,filled]

/-- No name of the edge is blank. -/
structure Plain (edge : Edge) : Prop where
  transition : ∀ name, edge.transition = some name → isBlank name = false
  compensate : ∀ name, compRef r machine edge = some name → isBlank name = false

/-- An edge is bound to what another is bound to. -/
structure SameRow (listed last : Bound) : Prop where
  statePath : last.statePath = listed.statePath
  event : last.event = listed.event
  target : last.edge.target = listed.edge.target
  handler : (resolvedTransition r machine last.edge).map (·.1) = (resolvedTransition r machine listed.edge).map (·.1)
  compensate : (bindingFor r machine last).resolvedCompensateName = (bindingFor r machine listed).resolvedCompensateName
  policy : boundPolicy r machine last.edge = boundPolicy r machine listed.edge

variable {r machine}

theorem boundFilled (edge : Edge) {name : String} (handler : (resolvedTransition r machine edge).map (·.1) = some name) :
    isBlank name = false := by
  obtain ⟨found,resolved,rfl⟩ := Option.map_eq_some_iff.mp handler
  obtain ⟨raw,asked,resolved⟩ := Option.bind_eq_some_iff.mp resolved
  rw [resolvedBlank resolved]
  exact Policies.givenFilled asked

theorem compensatedFilled (statePath : String) (edge : Edge) {name : String}
    (handler : (bindingOf r machine statePath edge).resolvedCompensateName = some name) : isBlank name = false := by
  obtain ⟨raw,asked,rfl⟩ := Option.map_eq_some_iff.mp handler
  cases resolved : r.resolveCompensate raw machine.registry.namespaceName with
  | none => exact Policies.givenFilled asked
  | some found =>
    rw [Option.elim_some,resolvedBlank resolved]
    exact Policies.givenFilled asked

theorem plainTransition {edge : Edge} (filled : ∀ name, edge.transition = some name → isBlank name = false) :
    given edge.transition = edge.transition := by
  cases named : edge.transition with
  | none => rfl
  | some name => exact givenFilled (filled name named)

theorem plainDerived {b : Bound} (bound : b ∈ boundEdges machine) (plain : Plain r machine b.edge)
    (registered : TransitionRegistered r machine b.edge) : derivedFor r machine b = (bindingFor r machine b).reported := by
  have found : b.edge.transition.bind (r.resolveTransition · machine.registry.namespaceName) = resolvedTransition r machine b.edge := by
    rw [resolvedTransition,FSMRegistry.resolvedTx,plainTransition plain.transition]
  have handler : ((resolvedTransition r machine b.edge).map (·.1)).or b.edge.transition = (resolvedTransition r machine b.edge).map (·.1) := by
    rw [← found]
    cases named : b.edge.transition with
    | none => rfl
    | some name =>
      have there := registered name (by rw [named]; exact givenFilled (plain.transition name named))
      obtain ⟨handler,resolved⟩ := Option.isSome_iff_exists.mp there
      rw [Option.bind_some,resolved]
      rfl
  have compensate : (((compRef r machine b.edge).bind (r.resolveCompensate · machine.registry.namespaceName)).map (·.1)).or
      (compRef r machine b.edge) = (bindingFor r machine b).resolvedCompensateName := by
    rw [bindingFor,bindingOf]
    dsimp only
    cases asked : compRef r machine b.edge with
    | none => rfl
    | some name =>
      rw [givenFilled (plain.compensate name asked)]
      cases resolved : r.resolveCompensate name machine.registry.namespaceName with
      | none => simp [resolved]
      | some found => simp [resolved]
  rw [derivedFor,derived,found,handler]
  change EffectiveTransitionConfig.mk _ _ _ _ ((((compRef r machine b.edge).bind _).map _).or (compRef r machine b.edge)) _ _ = _
  rw [compensate,← boundEvent machine bound]
  rfl

theorem reportedIff (listed last : Bound) (heard : last.edge.event = last.event) (known : listed.edge.event = listed.event) :
    (bindingFor r machine last).reported = (bindingFor r machine listed).reported ↔ SameRow r machine listed last := by
  have rows : (bindingFor r machine last).reported = (bindingFor r machine listed).reported ↔
      last.statePath = listed.statePath ∧ last.edge.event = listed.edge.event ∧ last.edge.target = listed.edge.target ∧
      (bindingFor r machine last).resolvedTransitionName = (bindingFor r machine listed).resolvedTransitionName ∧
      (bindingFor r machine last).resolvedCompensateName = (bindingFor r machine listed).resolvedCompensateName ∧
      (bindingFor r machine last).policy = (bindingFor r machine listed).policy ∧ CircuitStatus.CLOSED = CircuitStatus.CLOSED :=
    Iff.of_eq (EffectiveTransitionConfig.mk.injEq ..)
  rw [rows,heard,known]
  constructor
  · intro ⟨statePath,event,target,handler,compensate,policy,_⟩
    exact ⟨statePath,event,target,handler,compensate,policy⟩
  · intro same
    exact ⟨same.statePath,same.event,same.target,same.handler,same.compensate,same.policy,rfl⟩

theorem reportedPlain {b last : Bound} (same : (bindingFor r machine last).reported = derivedFor r machine b) : Plain r machine b.edge := by
  have handler := congrArg EffectiveTransitionConfig.resolvedTransitionHandler same
  have compensate := congrArg EffectiveTransitionConfig.resolvedCompensateHandler same
  have transition : ∀ name, b.edge.transition = some name → isBlank name = false := by
    intro name named
    have shown : (bindingFor r machine last).reported.resolvedTransitionHandler =
        ((r.resolveTransition name machine.registry.namespaceName).map (·.1)).or (some name) := by
      rw [handler,derivedFor,derived,named]
      rfl
    cases resolved : r.resolveTransition name machine.registry.namespaceName with
    | none =>
      rw [resolved] at shown
      exact boundFilled last.edge shown
    | some found =>
      rw [resolved] at shown
      rw [← resolvedBlank resolved]
      exact boundFilled last.edge shown
  refine ⟨transition,fun name asked => ?_⟩
  have found : b.edge.transition.bind (r.resolveTransition · machine.registry.namespaceName) = resolvedTransition r machine b.edge := by
    rw [resolvedTransition,FSMRegistry.resolvedTx,plainTransition transition]
  have shown : (bindingFor r machine last).reported.resolvedCompensateHandler =
      ((r.resolveCompensate name machine.registry.namespaceName).map (·.1)).or (some name) := by
    rw [compensate,derivedFor,derived,found]
    change (((compRef r machine b.edge).bind _).map _).or (compRef r machine b.edge) = _
    rw [asked]
    rfl
  cases resolved : r.resolveCompensate name machine.registry.namespaceName with
  | none =>
    rw [resolved] at shown
    exact compensatedFilled last.statePath last.edge shown
  | some found =>
    rw [resolved] at shown
    rw [← resolvedBlank resolved]
    exact compensatedFilled last.statePath last.edge shown

variable (r machine) in
/-- The rows of the registry and of the actor come from the same edges. -/
structure RowsAlike : Prop where
  apart : ((listedEdges machine).map Bound.key).Nodup
  plain : ∀ b ∈ listedEdges machine, Plain r machine b.edge
  kept : ∀ b ∈ listedEdges machine, ∀ last, Filed.last Bound.key (boundEdges machine) b.key = some last → SameRow r machine b last
  completions : ∀ node ∈ nodesBelow machine.states, node.onDone.isSome = true → ∃ b ∈ listedEdges machine, b.key = bindingKey node.path "$onDone"

theorem listedKeys (completions : ∀ node ∈ nodesBelow machine.states, node.onDone.isSome = true →
    ∃ b ∈ listedEdges machine, b.key = bindingKey node.path "$onDone") {b : Bound} (bound : b ∈ boundEdges machine) :
    ∃ listed ∈ listedEdges machine, listed.key = b.key := by
  obtain ⟨node,here,mem⟩ := List.mem_flatMap.mp bound
  obtain ⟨e,edge,rfl⟩ := List.mem_map.mp mem
  rw [Complete.StateNodeIR.boundEdges,List.mem_append] at edge
  rcases edge with on | done
  · exact ⟨_,List.mem_flatMap.mpr ⟨node,here,List.mem_map_of_mem on⟩,rfl⟩
  · cases completes : node.onDone with
    | none =>
      rw [completes] at done
      cases done
    | some completion =>
      obtain ⟨listed,there,same⟩ := completions node here (by rw [completes]; rfl)
      rw [completes] at done
      cases List.mem_singleton.mp done
      exact ⟨listed,there,same⟩

variable (r) in
theorem rowsAlike (registered : HandlersRegistered r machine) :
    ((listedEdges machine).map (derivedFor r machine)).Perm
      ((Filed.filed Prod.fst ((boundEdges machine).map (fun b => (b.key,bindingFor r machine b)))).map (·.2.reported)) ↔
      RowsAlike r machine := by
  have derivedKeys : ((listedEdges machine).map (derivedFor r machine)).map EffectiveTransitionConfig.key =
      (listedEdges machine).map Bound.key := by
    rw [List.map_map]
    rfl
  have asDerived {b} (bound : b ∈ boundEdges machine) (plain : Plain r machine b.edge) :
      derivedFor r machine b = (bindingFor r machine b).reported := by
    obtain ⟨node,here,mem⟩ := List.mem_flatMap.mp bound
    obtain ⟨e,edge,rfl⟩ := List.mem_map.mp mem
    exact plainDerived bound plain (registered.edges node here e edge).1
  have alike {b last} (listed : b ∈ listedEdges machine) (bound : last ∈ boundEdges machine) (plain : Plain r machine b.edge) :
      (bindingFor r machine last).reported = derivedFor r machine b ↔ SameRow r machine b last := by
    have here := listedBound machine listed
    rw [asDerived here plain]
    exact reportedIff b last (boundEvent machine bound) (boundEvent machine here)
  constructor
  · intro perm
    have reported {b} (listed : b ∈ listedEdges machine) {last} (found : Filed.last Bound.key (boundEdges machine) b.key = some last) :
        (bindingFor r machine last).reported = derivedFor r machine b := by
      have row := perm.mem_iff.mp (List.mem_map_of_mem (f := derivedFor r machine) listed)
      obtain ⟨other,here,same⟩ := (memReported r machine _).mp row
      have key : other.key = b.key := by
        rw [← reportedKey r machine (Filed.lastMem here),same]
        rfl
      rw [key,found] at here
      cases here
      exact same
    have plain {b} (listed : b ∈ listedEdges machine) : Plain r machine b.edge := by
      obtain ⟨last,found⟩ := Filed.lastOf Bound.key (listedBound machine listed)
      exact reportedPlain (reported listed found)
    refine ⟨?_,fun b listed => plain listed,?_,?_⟩
    · rw [← derivedKeys]
      exact (perm.map _).nodup_iff.mpr (reportedApart r machine)
    · intro b listed last found
      exact (alike listed (Filed.lastMem found) (plain listed)).mp (reported listed found)
    · intro node here completes
      obtain ⟨completion,done⟩ := Option.isSome_iff_exists.mp completes
      have bound : (⟨node.path,"$onDone",completion⟩ : Bound) ∈ boundEdges machine := by
        refine List.mem_flatMap.mpr ⟨node,here,?_⟩
        rw [Complete.StateNodeIR.boundEdges,done,List.map_append]
        exact List.mem_append_right _ (List.mem_singleton_self _)
      obtain ⟨last,found⟩ := Filed.lastOf Bound.key bound
      have key := Filed.lastKey found
      have row := perm.mem_iff.mpr ((memReported r machine _).mpr ⟨last,by rwa [key],rfl⟩)
      obtain ⟨listed,mem,same⟩ := List.mem_map.mp row
      refine ⟨listed,mem,?_⟩
      rw [← reportedKey r machine (Filed.lastMem found),← same] at key
      exact key
  · intro agree
    refine (List.perm_ext_iff_of_nodup (List.Nodup.of_map EffectiveTransitionConfig.key (derivedKeys ▸ agree.apart))
      (List.Nodup.of_map _ (reportedApart r machine))).mpr (fun row => ?_)
    rw [memReported r machine,List.mem_map]
    constructor
    · intro ⟨b,listed,same⟩
      obtain ⟨last,found⟩ := Filed.lastOf Bound.key (listedBound machine listed)
      refine ⟨last,by rwa [Filed.lastKey found],?_⟩
      rw [← same]
      exact (alike listed (Filed.lastMem found) (agree.plain b listed)).mpr (agree.kept b listed last found)
    · intro ⟨last,found,same⟩
      obtain ⟨listed,mem,key⟩ := listedKeys agree.completions (Filed.lastMem found)
      refine ⟨listed,mem,?_⟩
      rw [← same]
      exact ((alike mem (Filed.lastMem found) (agree.plain listed mem)).mpr (agree.kept listed mem last (by rwa [key]))).symm

end

variable {r : FSMRegistry} {machine : Machine}

variable (r machine) in
/-- The check accepts exactly what an actor can be created of, and where one is created it reports the rows of the registry. -/
structure ViewsAgree : Prop where
  accepts : r.validateMachineHandlers machine = .ok () ↔ ∀ e, compileMachineBindings r machine ≠ .error e
  transitions : ∀ compiled, compileMachineBindings r machine = .ok compiled →
    (r.getEffectiveConfig machine).transitions.Perm (compiled.getEffectiveConfig machine).transitions

theorem constructs : (∀ e, compileMachineBindings r machine ≠ .error e) ↔ ∃ compiled, compileMachineBindings r machine = .ok compiled := by
  cases compileMachineBindings r machine with
  | error e => simp
  | ok compiled => simp

/-- The views of the registry agree with the actor exactly where, with all else registered, the
compensation handlers that only one side asks for are too, and the rows come from the same edges. -/
theorem registryViewsAgree (strict : machine.registry.strict = true) : ViewsAgree r machine ↔
    (HandlersRegistered r machine → ChecksAlike r machine ∧
      (AllAnswered r machine (compRef r machine) → RowsAlike r machine)) := by
  have rows {compiled} (built : compileMachineBindings r machine = .ok compiled) :
      (r.getEffectiveConfig machine).transitions.Perm (compiled.getEffectiveConfig machine).transitions ↔ RowsAlike r machine := by
    have registered := ((constructedIff r strict).mp ⟨compiled,built⟩).1
    rw [staticRows,liveRows r strict built]
    exact rowsAlike r registered
  constructor
  · intro agree registered
    have both := agree.accepts
    rw [constructs,validatedIff r strict,constructedIff r strict,and_congr_right_iff] at both
    refine ⟨(checksAlike r machine).mpr (both registered),fun answered => ?_⟩
    obtain ⟨compiled,built⟩ := (constructedIff r strict).mpr ⟨registered,answered⟩
    exact (rows built).mp (agree.transitions compiled built)
  · intro alike
    constructor
    · rw [constructs,validatedIff r strict,constructedIff r strict,and_congr_right_iff]
      exact fun registered => (checksAlike r machine).mp (alike registered).1
    · intro compiled built
      obtain ⟨registered,answered⟩ := (constructedIff r strict).mp ⟨compiled,built⟩
      exact (rows built).mpr ((alike registered).2 answered)

/-- A shop whose payments are refunded by what their handler is decorated with. -/
def shop : Machine where
  id := "shop"
  version := "1.0.0"
  initial := some "cart"
  registry := { namespaceName := some "shop" }
  defaults := { compensateHandler := some "log" }
  states := [("cart",{ key := "cart", path := "cart", type := .atomic, on := [("PAY",{
      event := "PAY", target := some "paid", transition := some "pay", policy := {} })] }),
    ("paid",{ key := "paid", path := "paid", type := .final }),
    ("error",{ key := "error", path := "error", type := .final, isImplicitError := true })]
  source := .builder
  hasCustomErrorState := false
  events := by decide

def shopHandlers : FSMRegistry where
  transitions := [("shop.pay",{ compensateHandler := some "refund" })]
  compensations := [("shop.refund",())]

theorem shopRefunds : ∀ node ∈ nodesBelow shop.states, ∀ e ∈ node.boundEdges, decoratorCompensate shopHandlers shop e.2 = some "refund" := by
  decide +kernel

theorem registryViewsAgreeShop : ViewsAgree shopHandlers shop := by
  refine (registryViewsAgree rfl).mpr (fun _ => ⟨⟨?_,?_⟩,fun _ => ⟨by decide,?_,?_,by decide⟩⟩)
  · intro _ node here e mem silent
    rw [shopRefunds node here e mem] at silent
    exact absurd silent (by decide)
  · intro _ node here e mem silent
    rw [shopRefunds node here e mem] at silent
    cases silent
  · intro b listed
    cases List.mem_singleton.mp listed
    constructor
    · intro name named
      cases named
      decide
    · intro name asked
      have refund : some name = some "refund" := asked.symm.trans (by decide +kernel)
      cases refund
      decide
  · intro b listed last found
    cases List.mem_singleton.mp listed
    cases found
    exact ⟨rfl,rfl,rfl,rfl,rfl,rfl⟩

/-- An order that is done when its lines are. -/
def order : Machine where
  id := "order"
  version := "1.0.0"
  initial := some "lines"
  defaults := {}
  states := [("lines",{
      key := "lines", path := "lines", type := .compound, initial := some "open"
      onDone := some { event := "$onDone", target := some "done", policy := {} }
      states := [("open",{ key := "open", path := "lines.open", type := .atomic, on := [("CLOSE",{ event := "CLOSE", target := some "closed", policy := {} })] }),
        ("closed",{ key := "closed", path := "lines.closed", type := .final })] }),
    ("done",{ key := "done", path := "done", type := .final }),
    ("error",{ key := "error", path := "error", type := .final, isImplicitError := true })]
  source := .yaml
  hasCustomErrorState := false
  events := by decide

theorem registryViewsDisagree : ¬ ∀ (r : FSMRegistry) (machine : Machine), machine.registry.strict = true → ViewsAgree r machine := by
  intro claim
  have agree := (claim {} order rfl).transitions _ rfl
  have lengths := agree.length_eq
  revert lengths
  decide

/-- The check does not ask for the handler of a default policy, which an actor does. -/
example : ({ defaultPolicy := { compensateHandler := some "log" } } : FSMRegistry).validateMachineHandlers order = .ok () ∧
    compileMachineBindings { defaultPolicy := { compensateHandler := some "log" } } order = .error ⟨"order","compensate","log"⟩ := ⟨rfl,rfl⟩

end Dfsm.Java.Registry
