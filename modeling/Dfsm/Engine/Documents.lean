import Dfsm.Engine.Soundness
import Dfsm.Definition.Document

/-! `parseYamlMachine`: from a document to the definition that is validated, and what an
accepted document is, state by state. -/
namespace Dfsm
open Keyed (Record)
open Document (Place places)

/-- `object[key] = value` for each of the entries -/
def assignAll {α : Type} (entries : Record α) : Record α := entries.foldl (fun o e => Keyed.set o e.1 e.2) []

def extractPolicy (raw : Document.TransitionPolicy) (compensate : Option String) : PartialTransitionPolicy where
  onFail := raw.onFail.map (fun onFail => { compensate := onFail.compensate, target := onFail.target })
  compensateHandler := compensate

def parseTransitionEdge (event : String) : Document.TransitionDefinition → TransitionEdgeIR
  | .shorthand target => { event, target := some target }
  | .full obj => {
      event, target := obj.target, transition := obj.transition, compensate := obj.compensate, effects := obj.effects
      policy := extractPolicy obj.toTransitionPolicy obj.compensate }

mutual
def parseStateNode (key parentPath : String) : Document.StateNode → StateNodeIR
  | { type, initial, entry, exit, on, onDone, states } => {
      key, path := childPath parentPath key, type := type.getD (if states.isEmpty then .atomic else .compound), initial, entry, exit
      on := assignAll (on.map (fun e => (e.1,parseTransitionEdge e.1 e.2)))
      onDone := onDone.map (parseTransitionEdge "$onDone")
      states := assignAll (parseStates (childPath parentPath key) states) }
def parseStates (parentPath : String) : List (String × Document.StateNode) → List (String × StateNodeIR)
  | [] => []
  | (key,node)::rest => (key,parseStateNode key parentPath node)::parseStates parentPath rest
end

def rawOf (d : Document) : RawMachine where
  id := d.id
  type := d.type.getD .compound
  initial := d.initial
  registry := { namespaceName := d.namespaceName, strict := d.strict.getD true }
  defaults := d.defaults.elim {} (extractPolicy · none)
  maxEffectChainDepth := d.maxEffectChainDepth
  states := assignAll (parseStates "" d.states)

def parseYamlMachine (d : Document) : Except Objects.DefinitionError MachineDefinition := Objects.finalizeAndValidateMachineIR (rawOf d)

section
variable {α : Type}

theorem assignedPerm {entries : Record α} {start : Record α} (unique : (Keyed.keys (start ++ entries)).Nodup) :
    (entries.foldl (fun o e => Keyed.set o e.1 e.2) start).Perm (start ++ entries) := by
  induction entries generalizing start with
  | nil => rw [List.append_nil]; exact .refl _
  | cons e rest ih =>
    have absent : e.1 ∉ Keyed.keys start := by
      intro present
      rw [Keyed.keys,List.map_append] at unique
      exact (List.nodup_append.mp unique).2.2 e.1 present e.1 (by simp) rfl
    have inserted : Keyed.set start e.1 e.2 = Keyed.insert e.1 e.2 start := by
      unfold Keyed.set
      exact if_neg (fun has => absent (Keyed.hasKey.mp has))
    have moved : (Keyed.set start e.1 e.2 ++ rest).Perm (start ++ e::rest) := by
      rw [inserted]
      exact ((Keyed.insertPerm _ _ _).append_right rest).trans (List.perm_middle.symm)
    exact (ih ((moved.map Prod.fst).nodup_iff.mpr unique)).trans moved

theorem assignAllPerm {entries : Record α} (unique : (Keyed.keys entries).Nodup) : (assignAll entries).Perm entries :=
  assignedPerm (by simpa using unique)

theorem getAssigned {entries : Record α} (unique : (Keyed.keys entries).Nodup) (key : String) :
    Keyed.get (assignAll entries) key = Keyed.get entries key := by
  have same := assignAllPerm unique
  have nodup : (Keyed.keys (assignAll entries)).Nodup := (same.map Prod.fst).nodup_iff.mpr unique
  cases found : Keyed.get entries key with
  | some value => exact Keyed.getOfMem nodup (same.mem_iff.mpr (Keyed.getSome found))
  | none =>
    refine Keyed.getNone.mpr (fun present => Keyed.getNone.mp found ?_)
    exact (same.map Prod.fst).mem_iff.mp present

end

theorem parsedKeys (parentPath : String) (states : List (String × Document.StateNode)) :
    Keyed.keys (parseStates parentPath states) = Keyed.keys states := by
  induction states with
  | nil => rfl
  | cons e rest ih => exact congrArg (e.1::·) ih

theorem parsedGet (parentPath key : String) (states : List (String × Document.StateNode)) :
    Keyed.get (parseStates parentPath states) key = (Keyed.get states key).map (parseStateNode key parentPath) := by
  induction states with
  | nil => rfl
  | cons e rest ih =>
    rw [parseStates,Keyed.getCons,Keyed.getCons,ih]
    split
    · rename_i same
      rw [same]
      rfl
    · rfl

namespace Objects

/-! Validation the other way: what leaves no issue. -/

theorem referenceAccepts {machine sourcePath reference issue} (resolves : Resolves machine sourcePath reference) :
    validateReference machine sourcePath reference issue = .ok [] := by
  unfold validateReference
  cases named : given reference with
  | none => rfl
  | some target =>
    obtain ⟨path,looked,nonempty⟩ := resolves target named
    have here : given (some path) = some path := by simp [given,Option.filter,nonempty]
    simp only [looked,bind,Except.bind,here]
    rfl

theorem edgeAccepts {machine sourcePath label edge} (target : Resolves machine sourcePath edge.target)
    (fallback : Resolves machine sourcePath (edge.policy.onFail.bind (·.target))) : validateEdge machine sourcePath label edge = .ok [] := by
  unfold validateEdge
  rw [referenceAccepts target,referenceAccepts fallback]
  rfl

theorem mapAccepts {α : Type} {f : α → Except String (List String)} {xs : List α} (each : ∀ x ∈ xs, f x = .ok []) :
    xs.mapM f = .ok (xs.map (fun _ => [])) := by
  induction xs with
  | nil => rfl
  | cons x rest ih =>
    rw [List.mapM_cons,each x List.mem_cons_self,ih (fun y mem => each y (List.mem_cons_of_mem _ mem))]
    rfl

theorem nodeAccepts {machine : RawMachine} {node : StateNodeIR} (checked : Checked machine node) : validateNode machine node = .ok [] := by
  obtain ⟨key,path,type,initial,entry,exit,on,onDone,states,isImplicitError⟩ := node
  have shape := checked.shape
  have below := checked.below
  have done : onDone.elim (pure []) (validateEdge machine path "'onDone'") = .ok [] := by
    cases onDone with
    | none => rfl
    | some edge => exact checked.onDone edge rfl
  dsimp only at shape below
  rw [validateNode,mapAccepts checked.on,done,below]
  simp [bind,Except.bind,pure,Except.pure,shape]

theorem nodesAccept {machine : RawMachine} {states : Record StateNodeIR} (each : ∀ e ∈ states, Checked machine e.2) :
    validateNodes machine states = .ok [] := by
  induction states with
  | nil => rfl
  | cons first rest ih =>
    obtain ⟨key,node⟩ := first
    rw [validateNodes,nodeAccepts (each _ List.mem_cons_self),ih (fun e mem => each e (List.mem_cons_of_mem _ mem))]
    rfl

theorem definitionAccepts {raw : RawMachine} : definitionIssues raw = .ok [] ↔
    idMatches raw.id = true ∧ depthIssues raw = [] ∧ raw.states ≠ [] ∧ rootIssues (injectErrorState raw).toRawMachine = [] ∧
      Resolves (injectErrorState raw).toRawMachine "" (raw.defaults.onFail.bind (·.target)) ∧
      ∀ e ∈ (injectErrorState raw).states, Checked (injectErrorState raw).toRawMachine e.2 := by
  have kept : (injectErrorState raw).toRawMachine.defaults = raw.defaults := rfl
  constructor
  · intro accepted
    obtain ⟨defaults,first,accepted⟩ := bindOk.mp accepted
    obtain ⟨nodes,second,same⟩ := bindOk.mp accepted
    obtain ⟨⟨⟨⟨⟨id,depth⟩,nonempty⟩,root⟩,nothing⟩,rest⟩ := by simpa only [List.append_eq_nil_iff] using Except.ok.inj same
    refine ⟨by simpa using id,depth,by simpa using nonempty,root,?_,checkedNodes (by rw [second,rest])⟩
    rw [nothing] at first
    exact kept ▸ referenceChecked first
  · rintro ⟨id,depth,nonempty,root,defaults,each⟩
    have first : defaultsIssues (injectErrorState raw).toRawMachine = .ok [] := referenceAccepts (kept ▸ defaults)
    unfold definitionIssues
    dsimp only
    rw [first,nodesAccept each]
    simp [bind,Except.bind,pure,Except.pure,id,depth,nonempty,root]

end Objects

/-! An accepted document, state by state. -/

/-- The type that a state is taken to have. -/
def Document.StateNode.kind (node : Document.StateNode) : StateNodeType :=
  node.type.getD (if node.states.isEmpty then .atomic else .compound)

/-- `states[initial]` is something: a state, or what every object has. -/
def found (states : List (String × Document.StateNode)) (initial : String) : Prop :=
  Keyed.has states initial = true ∨ inheritedNames.contains initial = true

/-- What validation wants of a state itself. -/
def WellShaped (node : Document.StateNode) : Prop :=
  match node.kind with
  | .compound => node.states ≠ [] ∧ ∃ initial, given node.initial = some initial ∧ found node.states initial
  | .parallel => node.states ≠ [] ∧ given node.initial = none
  | .atomic => node.states = [] ∧ given node.initial = none
  | .final => node.states = [] ∧ given node.initial = none ∧ node.on = []

def machineOf (d : Document) : RawMachine := (injectErrorState (rawOf d)).toRawMachine

def EdgeResolves (machine : RawMachine) (sourcePath : String) (edge : Document.Edge) : Prop :=
  Objects.Resolves machine sourcePath edge.target ∧ Objects.Resolves machine sourcePath (edge.onFail.bind (·.target))

/-- What validation wants of a document. -/
structure Document.Sound (d : Document) : Prop where
  root : match d.type.getD .compound with
    | .compound => ∃ initial, given d.initial = some initial ∧ (initial = "error" ∨ found d.states initial)
    | .parallel => given d.initial = none
  defaults : Objects.Resolves (machineOf d) "" (d.defaults.bind (fun defaults => defaults.onFail.bind (·.target)))
  shapes : ∀ p ∈ places "" d.states, WellShaped p.node
  edges : ∀ p ∈ places "" d.states, ∀ edge ∈ p.node.edges, EdgeResolves (machineOf d) p.path edge

theorem assignedNil {α : Type} {entries : Record α} (unique : (Keyed.keys entries).Nodup) : assignAll entries = [] ↔ entries = [] := by
  rw [← List.length_eq_zero_iff,(assignAllPerm unique).length_eq,List.length_eq_zero_iff]

theorem parsedNil (parentPath : String) (states : List (String × Document.StateNode)) : parseStates parentPath states = [] ↔ states = [] := by
  cases states <;> simp [parseStates]

theorem hasParsed {parentPath key : String} {states : List (String × Document.StateNode)} (unique : (Keyed.keys states).Nodup) :
    Keyed.has (assignAll (parseStates parentPath states)) key = Keyed.has states key := by
  rw [← parsedKeys parentPath states] at unique
  unfold Keyed.has
  rw [getAssigned unique,parsedGet,Option.isSome_map]

theorem slotParsed {parentPath key : String} {states : List (String × Document.StateNode)} (unique : (Keyed.keys states).Nodup) :
    (Objects.slot (assignAll (parseStates parentPath states)) key).isSome = true ↔ found states key := by
  have same := @hasParsed parentPath key states unique
  unfold Keyed.has at same
  unfold Objects.slot found Keyed.has
  rw [← same]
  cases Keyed.get (assignAll (parseStates parentPath states)) key with
  | some node => simp
  | none => cases inheritedNames.contains key <;> simp

theorem shapeParsed {parentPath key : String} {node : Document.StateNode} (unique : (Keyed.keys node.states).Nodup)
    (events : (Keyed.keys node.on).Nodup) : WellShaped node ↔
      Objects.shapeIssues (parseStateNode key parentPath node).path (parseStateNode key parentPath node).type
        (parseStateNode key parentPath node).initial (parseStateNode key parentPath node).on (parseStateNode key parentPath node).states = [] := by
  obtain ⟨type,initial,entry,exit,on,onDone,states⟩ := node
  have keys : Keyed.keys (on.map (fun e => (e.1,parseTransitionEdge e.1 e.2))) = Keyed.keys on := by simp [Keyed.keys]
  have noEvents : assignAll (on.map (fun e => (e.1,parseTransitionEdge e.1 e.2))) = [] ↔ on = [] := by
    rw [assignedNil (keys ▸ events),List.map_eq_nil_iff]
  have noStates : assignAll (parseStates (childPath parentPath key) states) = [] ↔ states = [] := by
    rw [assignedNil ((parsedKeys _ _).symm ▸ unique),parsedNil]
  have started (i : String) := @slotParsed (childPath parentPath key) i states unique
  dsimp only [parseStateNode,WellShaped,Document.StateNode.kind]
  cases type.getD (if states.isEmpty then StateNodeType.atomic else .compound) with
  | compound =>
    simp only [Objects.shapeIssues,List.append_eq_nil_iff,noStates]
    refine and_congr (by simp) ?_
    unfold Objects.initialIssues
    cases given initial with
    | none => simp
    | some i => simp [started]
  | parallel => simp only [Objects.shapeIssues,Dfsm.shapeIssues,List.append_eq_nil_iff,noStates]; simp
  | atomic => simp only [Objects.shapeIssues,Dfsm.shapeIssues,List.append_eq_nil_iff,noStates]; simp
  | final => simp only [Objects.shapeIssues,Dfsm.shapeIssues,List.append_eq_nil_iff,noStates,noEvents]; simp [and_assoc]

theorem edgeParsed {machine : RawMachine} {sourcePath event label : String} {t : Document.TransitionDefinition} :
    Objects.validateEdge machine sourcePath label (parseTransitionEdge event t) = .ok [] ↔ EdgeResolves machine sourcePath t.toEdge := by
  have target : (parseTransitionEdge event t).target = t.toEdge.target := by cases t <;> rfl
  have fallback : (parseTransitionEdge event t).policy.onFail.bind (·.target) = t.toEdge.onFail.bind (·.target) := by
    cases t with
    | shorthand target => rfl
    | full edge => exact Option.bind_map
  rw [EdgeResolves,← target,← fallback]
  exact ⟨Objects.edgeChecked,fun resolves => Objects.edgeAccepts resolves.1 resolves.2⟩

variable {machine : RawMachine}

theorem nodeParsed {parentPath key : String} {node : Document.StateNode} (unique : (Keyed.keys node.states).Nodup)
    (events : (Keyed.keys node.on).Nodup) : Objects.Checked machine (parseStateNode key parentPath node) ↔
      WellShaped node ∧ (∀ edge ∈ node.edges, EdgeResolves machine (childPath parentPath key) edge) ∧
        ∀ e ∈ parseStates (childPath parentPath key) node.states, Objects.Checked machine e.2 := by
  have keys : Keyed.keys (node.on.map (fun e => (e.1,parseTransitionEdge e.1 e.2))) = Keyed.keys node.on := by simp [Keyed.keys]
  have stored := assignAllPerm ((parsedKeys (childPath parentPath key) node.states).symm ▸ unique)
  have listed := assignAllPerm (keys ▸ events)
  have shape := @shapeParsed parentPath key node unique events
  obtain ⟨type,initial,entry,exit,on,onDone,states⟩ := node
  constructor
  · intro checked
    refine ⟨shape.mpr checked.shape,?_,fun e mem => Objects.checkedNodes checked.below e (stored.mem_iff.mpr mem)⟩
    intro edge mem
    rcases List.mem_append.mp mem with inside | last
    · obtain ⟨⟨event,t⟩,here,rfl⟩ := List.mem_map.mp inside
      exact edgeParsed.mp (checked.on _ (listed.mem_iff.mpr (List.mem_map_of_mem here)))
    · obtain ⟨t,here,rfl⟩ := Option.map_eq_some_iff.mp (Option.mem_toList.mp last)
      refine edgeParsed.mp (checked.onDone (parseTransitionEdge "$onDone" t) ?_)
      dsimp only [parseStateNode] at here ⊢
      rw [here]
      rfl
  · rintro ⟨shaped,edges,below⟩
    refine ⟨shape.mp shaped,?_,?_,Objects.nodesAccept (fun e mem => below e (stored.mem_iff.mp mem))⟩
    · intro e mem
      obtain ⟨⟨event,t⟩,here,rfl⟩ := List.mem_map.mp (listed.mem_iff.mp mem)
      exact edgeParsed.mpr (edges _ (List.mem_append_left _ (List.mem_map.mpr ⟨_,here,rfl⟩)))
    · intro edge here
      obtain ⟨t,declared,rfl⟩ := Option.map_eq_some_iff.mp here
      refine edgeParsed.mpr (edges _ (List.mem_append_right _ (Option.mem_toList.mpr ?_)))
      dsimp only at declared ⊢
      rw [declared]
      rfl

theorem uniqueNodup {α : Type} {entries : Record α} (unique : Document.uniqueKeys entries = true) : (Keyed.keys entries).Nodup := by
  rw [Document.uniqueKeys,Bool.and_eq_true] at unique
  exact of_decide_eq_true unique.1

theorem admittedKeys {node : Document.StateNode} (admitted : node.admitted = true) :
    (Keyed.keys node.states).Nodup ∧ (Keyed.keys node.on).Nodup ∧ Document.statesAdmitted node.states = true := by
  obtain ⟨type,initial,entry,exit,on,onDone,states⟩ := node
  simp only [Document.StateNode.admitted,Bool.and_eq_true] at admitted
  obtain ⟨⟨⟨⟨⟨⟨⟨_,_⟩,_⟩,events⟩,_⟩,_⟩,unique⟩,below⟩ := admitted
  exact ⟨uniqueNodup unique,uniqueNodup events,below⟩

/-- What validation wants at a place. -/
abbrev PlaceSound (machine : RawMachine) (p : Place) : Prop :=
  WellShaped p.node ∧ ∀ edge ∈ p.node.edges, EdgeResolves machine p.path edge

mutual
theorem belowParsed (parentPath key : String) : (node : Document.StateNode) → node.admitted = true →
    (Objects.Checked machine (parseStateNode key parentPath node) ↔
      PlaceSound machine ⟨key,childPath parentPath key,node⟩ ∧ ∀ p ∈ Document.placesBelow (childPath parentPath key) node, PlaceSound machine p)
  | { type, initial, entry, exit, on, onDone, states }, admitted => by
    obtain ⟨unique,events,below⟩ := admittedKeys admitted
    rw [nodeParsed unique events,← and_assoc]
    exact and_congr Iff.rfl (placesParsed (childPath parentPath key) states below)
theorem placesParsed (parentPath : String) : (states : List (String × Document.StateNode)) → Document.statesAdmitted states = true →
    ((∀ e ∈ parseStates parentPath states, Objects.Checked machine e.2) ↔ ∀ p ∈ places parentPath states, PlaceSound machine p)
  | [], _ => by simp [parseStates,Document.places]
  | (key,node)::rest, admitted => by
    rw [Document.statesAdmitted,Bool.and_eq_true] at admitted
    have here := belowParsed parentPath key node admitted.1
    have later := placesParsed parentPath rest admitted.2
    simp only [parseStates,Document.places,List.cons_append,List.forall_mem_cons,List.forall_mem_append]
    rw [here,later,and_assoc]
end

theorem implicitChecked : Objects.Checked machine implicitError := ⟨rfl,fun _ mem => absurd mem (by simp [implicitError]),fun _ here => absurd here (by simp [implicitError]),rfl⟩

theorem injectedChecked {raw : RawMachine} :
    (∀ e ∈ (injectErrorState raw).states, Objects.Checked machine e.2) ↔ ∀ e ∈ raw.states, Objects.Checked machine e.2 := by
  unfold injectErrorState
  dsimp only
  split
  · exact Iff.rfl
  · rename_i implicit
    have added : (Keyed.set raw.states "error" implicitError).Perm (("error",implicitError)::raw.states) := by
      rw [Keyed.set,if_neg implicit]
      exact Keyed.insertPerm _ _ _
    constructor
    · exact fun each e mem => each e (added.mem_iff.mpr (List.mem_cons_of_mem _ mem))
    · intro each e mem
      rcases List.mem_cons.mp (added.mem_iff.mp mem) with same | inside
      · rw [same]
        exact implicitChecked
      · exact each e inside

variable {d : Document}

theorem rootParsed (unique : (Keyed.keys d.states).Nodup) : Objects.rootIssues (machineOf d) = [] ↔
    match d.type.getD .compound with
    | .compound => ∃ initial, given d.initial = some initial ∧ (initial = "error" ∨ found d.states initial)
    | .parallel => given d.initial = none := by
  have slots (initial : String) : (Objects.slot (machineOf d).states initial).isSome = true ↔ initial = "error" ∨ found d.states initial := by
    have declared : (Objects.slot (rawOf d).states initial).isSome = true ↔ found d.states initial := slotParsed unique
    rw [← declared,machineOf,injectErrorState]
    dsimp only
    split
    · rename_i custom
      refine ⟨.inr,?_⟩
      rintro (rfl | here)
      · obtain ⟨node,stored⟩ := Option.isSome_iff_exists.mp custom
        simp [Objects.slot,stored]
      · exact here
    · unfold Objects.slot
      rw [Keyed.getSet]
      by_cases error : initial = "error"
      · simp [error]
      · simp [error]
  have initials : (machineOf d).initial = d.initial := rfl
  cases type : d.type.getD .compound with
  | compound =>
    simp only [Objects.rootIssues,show (machineOf d).type = .compound from type,initials]
    cases given d.initial with
    | none => simp
    | some initial =>
      simp [slots]
      exact or_iff_not_imp_left.symm
  | parallel =>
    simp only [Objects.rootIssues,Dfsm.rootIssues,show (machineOf d).type = .parallel from type,initials]
    simp

theorem depthParsed (admitted : Document.positive d.maxEffectChainDepth = true) : depthIssues (rawOf d) = [] := by
  rw [depthIssues,show (rawOf d).maxEffectChainDepth = d.maxEffectChainDepth from rfl]
  cases depth : d.maxEffectChainDepth with
  | none => rfl
  | some n =>
    rw [depth] at admitted
    exact if_neg (not_lt.mpr (of_decide_eq_true admitted))

theorem defaultsParsed : (rawOf d).defaults.onFail.bind (·.target) = d.defaults.bind (fun defaults => defaults.onFail.bind (·.target)) := by
  unfold rawOf
  cases d.defaults with
  | none => rfl
  | some defaults => exact Option.bind_map

theorem parsesSound (admitted : d.Admitted) : (∃ m, parseYamlMachine d = .ok m) ↔ d.Sound := by
  have unique := uniqueNodup admitted.unique
  have stored : (Keyed.keys (parseStates "" d.states)).Nodup := (parsedKeys "" d.states).symm ▸ unique
  have kept := assignAllPerm stored
  have nonempty : (rawOf d).states ≠ [] := by
    intro none
    have empty := (parsedNil "" d.states).mp ((assignedNil stored).mp none)
    have some := admitted.nonempty
    rw [empty] at some
    contradiction
  have accepts : (∃ m, parseYamlMachine d = .ok m) ↔ Objects.definitionIssues (rawOf d) = .ok [] := by
    unfold parseYamlMachine Objects.finalizeAndValidateMachineIR
    split <;> simp_all
  have checked : (∀ e ∈ (injectErrorState (rawOf d)).states, Objects.Checked (machineOf d) e.2) ↔
      ∀ p ∈ places "" d.states, PlaceSound (machineOf d) p := by
    rw [injectedChecked,← placesParsed "" d.states admitted.states]
    exact ⟨fun each e mem => each e (kept.mem_iff.mpr mem),fun each e mem => each e (kept.mem_iff.mp mem)⟩
  rw [accepts,Objects.definitionAccepts]
  constructor
  · rintro ⟨_,_,_,root,defaults,each⟩
    have here := checked.mp each
    exact ⟨(rootParsed unique).mp root,defaultsParsed ▸ defaults,fun p mem => (here p mem).1,fun p mem => (here p mem).2⟩
  · intro sound
    exact ⟨admitted.id,depthParsed admitted.depth,nonempty,(rootParsed unique).mpr sound.root,defaultsParsed.symm ▸ sound.defaults,
      checked.mpr (fun p mem => ⟨sound.shapes p mem,sound.edges p mem⟩)⟩

end Dfsm
