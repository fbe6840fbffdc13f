import Dfsm.Go.Validate
import Dfsm.Definition.Document

/-! `ParseYamlMachine` of the Go SDK: from a document to the definition it builds, and which
documents it accepts. -/
namespace Dfsm.Go
open Keyed (Record)
open Document (Place places)

def qualify (name ns : String) : String :=
  if ns = "" || name = "" || name.toList.contains '.' then name else ns ++ "." ++ name

/-- The numbers of a document are read as a `float64` has them. -/
def parsePartialPolicy (policy : Document.TransitionPolicy) (compensate : Option String) (ns : String) : PartialTransitionPolicy where
  retryMaxAttempts := policy.retry.bind (·.maxAttempts)
  retryDefined := policy.retry.isSome
  cbEnabled := policy.circuitBreaker.bind (·.enabled)
  cbFailureThreshold := policy.circuitBreaker.bind (·.failureThreshold)
  cbRecoveryTimeoutMs := policy.circuitBreaker.bind (·.openDurationMs)
  cbHalfOpenSuccess := policy.circuitBreaker.bind (·.halfOpenMaxCalls)
  cbDefined := policy.circuitBreaker.isSome
  onFailTarget := policy.onFail.bind (·.target)
  onFailCompensate := policy.onFail.bind (·.compensate)
  onFailDefined := policy.onFail.isSome
  compensateWith := compensate.map (qualify · ns)

def parseTransitionDef (ns : String) : Document.TransitionDefinition → TransitionDefinition
  | .shorthand target => { target }
  | .full edge => {
      target := edge.target.getD "", handler := (edge.transition.map (qualify · ns)).getD ""
      policy := some (parsePartialPolicy edge.toTransitionPolicy edge.compensate ns) }

def typeName : StateNodeType → String
  | .atomic => "atomic"
  | .compound => "compound"
  | .parallel => "parallel"
  | .final => "final"

mutual
def parseStateDef (ns id : String) : Document.StateNode → StateDefinition
  | { type, initial, entry, exit, on, onDone, states } => {
      id, type := (type.map typeName).getD "", initial := initial.getD "", entry := entry.map (qualify · ns), exit := exit.map (qualify · ns)
      states := parseStates ns states, on := on.map (fun e => (e.1,[parseTransitionDef ns e.2]))
      onDone := (onDone.map (parseTransitionDef ns)).toList }
def parseStates (ns : String) : List (String × Document.StateNode) → List (String × StateDefinition)
  | [] => []
  | (key,node)::rest => (key,parseStateDef ns key node)::parseStates ns rest
end

/-- With the error state, where the document has none. -/
def withError (states : Record StateDefinition) : Record StateDefinition :=
  if Keyed.has states "error" then states else states ++ [("error",{ id := "error", type := "final" })]

def rootTypeName : MachineType → String
  | .compound => "compound"
  | .parallel => "parallel"

def built (d : Document) : MachineDefinition where
  id := d.id
  type := (d.type.map rootTypeName).getD ""
  initial := d.initial.getD ""
  maxEffectChainDepth := d.maxEffectChainDepth.getD 25
  states := withError (parseStates (d.namespaceName.getD "") d.states)
  defaults := d.defaults.map (parsePartialPolicy · none (d.namespaceName.getD ""))

def parseYamlMachine (d : Document) : Except String MachineDefinition :=
  match validateMachineAst (built d) with
  | none => .ok (built d)
  | some message => .error message

/-! Which documents are accepted. -/

theorem parsedKeys (ns : String) (states : List (String × Document.StateNode)) :
    Keyed.keys (parseStates ns states) = Keyed.keys states := by
  induction states with
  | nil => rfl
  | cons e rest ih => exact congrArg (e.1::·) ih

theorem parsedHas (ns : String) (states : List (String × Document.StateNode)) (key : String) :
    Keyed.has (parseStates ns states) key = Keyed.has states key := by
  rw [Bool.eq_iff_iff,Keyed.hasKey,Keyed.hasKey,parsedKeys]

theorem parsedEmpty (ns : String) (states : List (String × Document.StateNode)) :
    (parseStates ns states).isEmpty = states.isEmpty := by
  cases states <;> rfl

mutual
theorem namesNode (ns : String) (path key : String) : (node : Document.StateNode) → (target : String) →
    (target ∈ namesBelow path (parseStateDef ns key node) ↔
      ∃ p ∈ Document.placesBelow path node, target = p.path ∨ target = p.key)
  | { type := _, initial := _, entry := _, exit := _, on := _, onDone := _, states }, target => namesParsed ns path states target
theorem namesParsed (ns : String) (above : String) : (states : List (String × Document.StateNode)) → (target : String) →
    (target ∈ collectAllStateNames above (parseStates ns states) ↔ ∃ p ∈ places above states, target = p.path ∨ target = p.key)
  | [], target => by simp [parseStates,collectAllStateNames,places]
  | (key,node)::rest, target => by
    have here := namesNode ns (childPath above key) key node target
    have later := namesParsed ns above rest target
    simp only [parseStates,collectAllStateNames,places,List.cons_append,List.mem_cons,List.mem_append,here,later]
    constructor
    · rintro (same | same | ⟨p,mem,names⟩ | ⟨p,mem,names⟩)
      · exact ⟨_,.inl rfl,.inl same⟩
      · exact ⟨_,.inl rfl,.inr same⟩
      · exact ⟨p,.inr (.inl mem),names⟩
      · exact ⟨p,.inr (.inr mem),names⟩
    · rintro ⟨p,rfl | mem | mem,names⟩
      · exact names.imp id .inl
      · exact .inr (.inr (.inl ⟨p,mem,names⟩))
      · exact .inr (.inr (.inr ⟨p,mem,names⟩))
end

theorem collectAppend (above : String) (first last : List (String × StateDefinition)) :
    collectAllStateNames above (first ++ last) = collectAllStateNames above first ++ collectAllStateNames above last := by
  induction first with
  | nil => rfl
  | cons e rest ih =>
    obtain ⟨name,s⟩ := e
    simp only [List.cons_append,collectAllStateNames,ih,List.append_assoc]

theorem placeOf {above key : String} {states : List (String × Document.StateNode)} (has : Keyed.has states key = true) :
    ∃ p ∈ places above states, key = p.key := by
  induction states with
  | nil => contradiction
  | cons e rest ih =>
    obtain ⟨name,node⟩ := e
    by_cases same : key = name
    · exact ⟨_,List.mem_cons_self,same⟩
    · rw [Keyed.has,Keyed.getCons,if_neg same] at has
      obtain ⟨p,mem,here⟩ := ih has
      exact ⟨p,List.mem_append_right _ mem,here⟩

theorem knownNames (d : Document) (target : String) : target ∈ collectAllStateNames "" (built d).states ↔ d.Known target := by
  have parsed := namesParsed (d.namespaceName.getD "") "" d.states target
  rw [show (built d).states = withError (parseStates (d.namespaceName.getD "") d.states) from rfl]
  unfold withError Document.Known
  split
  · rename_i declared
    rw [parsed]
    refine ⟨.inr,?_⟩
    rintro (rfl | here)
    · rw [parsedHas] at declared
      obtain ⟨p,mem,same⟩ := placeOf declared
      exact ⟨p,mem,.inr same⟩
    · exact here
  · have error : collectAllStateNames "" [("error",{ id := "error", type := "final" })] = ["error","error"] := by decide
    rw [collectAppend,List.mem_append,parsed,error]
    simp [or_comm]

theorem parallelType (type : Option StateNodeType) : equalFold ((type.map typeName).getD "") "parallel" = true ↔ type = some .parallel := by
  rcases type with _ | _ | _ | _ | _ <;> decide

theorem compoundType (type : Option StateNodeType) (compound : equalFold ((type.map typeName).getD "") "compound" = true) : type ≠ some .parallel := by
  rintro rfl
  exact absurd compound (by decide)

theorem startsChecked {ns : String} {key : String} {node : Document.StateNode} :
    ((parseStateDef ns key node).isCompound = true ∧ (parseStateDef ns key node).states.isEmpty = false) ↔
      node.states ≠ [] ∧ node.type ≠ some .parallel := by
  obtain ⟨type,initial,entry,exit,on,onDone,states⟩ := node
  have parallel := parallelType type
  have compound := compoundType type
  simp only [parseStateDef,StateDefinition.isCompound,StateDefinition.isParallel,parsedEmpty,Bool.or_eq_true,Bool.and_eq_true,
    Bool.not_eq_true',List.isEmpty_eq_false_iff]
  rw [← Bool.not_eq_true,parallel]
  constructor
  · rintro ⟨named | ⟨_,other⟩,some⟩
    · exact ⟨some,compound named⟩
    · exact ⟨some,other⟩
  · rintro ⟨some,other⟩
    exact ⟨.inr ⟨some,other⟩,some⟩

theorem unknownNone {allStates : List String} {edges : List TransitionDefinition} :
    edges.find? (fun t => t.target != "" && !allStates.contains t.target) = none ↔ ∀ t ∈ edges, t.target = "" ∨ t.target ∈ allStates := by
  rw [List.find?_eq_none]
  refine forall₂_congr (fun t _ => ?_)
  simp only [Bool.and_eq_true,bne_iff_ne,Bool.not_eq_true',List.contains_eq_mem,decide_eq_false_iff_not]
  tauto

theorem targetParsed {ns : String} {t : Document.TransitionDefinition} {good : String → Prop} :
    ((parseTransitionDef ns t).target = "" ∨ good (parseTransitionDef ns t).target) ↔
      ∀ target, given t.toEdge.target = some target → good target := by
  have same : (parseTransitionDef ns t).target = t.toEdge.target.getD "" := by cases t <;> rfl
  rw [same,given]
  cases t.toEdge.target with
  | none => simp
  | some target =>
    by_cases empty : target = ""
    · simp [empty]
    · simp [empty,Option.filter]

theorem givenInitial {text : Option String} {initial : String} (named : given text = some initial) :
    text.getD "" = initial ∧ initial ≠ "" := by
  obtain ⟨rfl,some⟩ := Option.filter_eq_some_iff.mp named
  exact ⟨rfl,by simpa using some⟩

theorem givenNone {text : Option String} (none_ : given text = none) : text.getD "" = "" := by
  cases text with
  | none => rfl
  | some text => simpa [given] using none_

theorem stateAccepts {allStates : List String} {machineId key : String} {ns : String} {node : Document.StateNode} :
    stateError allStates machineId (parseStateDef ns key node) = none ↔
      Document.Starts node ∧ ∀ edge ∈ node.onEdges, ∀ target, given edge.target = some target → target ∈ allStates := by
  have starts := @startsChecked ns key node
  have same : (parseStateDef ns key node).initial = node.initial.getD "" := by cases node; rfl
  have has (initial : String) : Keyed.has (parseStateDef ns key node).states initial = Keyed.has node.states initial := by
    cases node
    exact parsedHas _ _ _
  have edges : ((parseStateDef ns key node).on.flatMap (·.2)).find? (fun t => t.target != "" && !allStates.contains t.target) = none ↔
      ∀ edge ∈ node.onEdges, ∀ target, given edge.target = some target → target ∈ allStates := by
    obtain ⟨type,initial,entry,exit,on,onDone,states⟩ := node
    have listed : (on.map (fun e => (e.1,[parseTransitionDef ns e.2]))).flatMap (·.2) = on.map (fun e => parseTransitionDef ns e.2) := by
      rw [List.flatMap_map]
      exact List.flatMap_pure_eq_map (fun e => parseTransitionDef ns e.2) on
    rw [unknownNone]
    simp only [parseStateDef,Document.StateNode.onEdges,List.forall_mem_map]
    rw [listed,List.forall_mem_map]
    exact forall₂_congr (fun e _ => targetParsed)
  unfold stateError
  by_cases container : ((parseStateDef ns key node).isCompound && !(parseStateDef ns key node).states.isEmpty) = true
  · have here := starts.mp (by simpa using container)
    simp only [container,Bool.true_and,same]
    cases started : given node.initial with
    | none =>
      rw [givenNone started]
      refine iff_of_false (by simp) (fun sound => ?_)
      obtain ⟨initial,named,_⟩ := sound.1 here.1 here.2
      rw [started] at named
      contradiction
    | some initial =>
      obtain ⟨text,nonempty⟩ := givenInitial started
      rw [text,has initial]
      simp only [decide_eq_true_eq,if_neg nonempty]
      cases declared : Keyed.has node.states initial with
      | false =>
        refine iff_of_false (by simp) (fun sound => ?_)
        obtain ⟨initial',named,has⟩ := sound.1 here.1 here.2
        cases started.symm.trans named
        rw [declared] at has
        contradiction
      | true =>
        simp only [Bool.not_true,Bool.false_eq_true,if_false,Option.map_eq_none_iff]
        rw [edges]
        exact ⟨fun known => ⟨fun _ _ => ⟨initial,started,declared⟩,known⟩,And.right⟩
  · have other : Document.Starts node := by
      intro some nonparallel
      exact absurd (by simpa using starts.mpr ⟨some,nonparallel⟩) container
    simp only [eq_false_of_ne_true container,Bool.false_and,Bool.false_eq_true,if_false,Option.map_eq_none_iff]
    rw [edges]
    exact ⟨fun known => ⟨other,known⟩,And.right⟩

/-- The checks at a place. -/
abbrev PlaceAccepted (allStates : List String) (p : Place) : Prop :=
  Document.Starts p.node ∧ ∀ edge ∈ p.node.onEdges, ∀ target, given edge.target = some target → target ∈ allStates

mutual
theorem belowAccepts {allStates : List String} {machineId : String} (ns : String) (above key : String) :
    (node : Document.StateNode) → (validateState allStates machineId (parseStateDef ns key node) = none ↔
      PlaceAccepted allStates ⟨key,childPath above key,node⟩ ∧
        ∀ p ∈ Document.placesBelow (childPath above key) node, PlaceAccepted allStates p)
  | { type, initial, entry, exit, on, onDone, states } => by
    have here := @stateAccepts allStates machineId key ns { type, initial, entry, exit, on, onDone, states }
    rw [parseStateDef] at here ⊢
    rw [validateState,Option.or_eq_none_iff]
    exact and_congr here (hierarchyAccepts ns (childPath above key) states)
theorem hierarchyAccepts {allStates : List String} {machineId : String} (ns : String) (above : String) :
    (states : List (String × Document.StateNode)) → (validateHierarchy allStates machineId (parseStates ns states) = none ↔
      ∀ p ∈ places above states, PlaceAccepted allStates p)
  | [] => by simp [parseStates,validateHierarchy,places]
  | (key,node)::rest => by
    have here := @belowAccepts allStates machineId ns above key node
    have later := @hierarchyAccepts allStates machineId ns above rest
    simp only [parseStates,validateHierarchy,places,Option.or_eq_none_iff,List.cons_append,List.forall_mem_cons,List.forall_mem_append]
    rw [here,later,and_assoc]
end

theorem hierarchyAppend {allStates : List String} {machineId : String} (first last : List (String × StateDefinition)) :
    validateHierarchy allStates machineId (first ++ last) =
      (validateHierarchy allStates machineId first).or (validateHierarchy allStates machineId last) := by
  induction first with
  | nil => rfl
  | cons e rest ih =>
    obtain ⟨name,s⟩ := e
    simp only [List.cons_append,validateHierarchy,ih,Option.or_assoc]

theorem errorAccepts {allStates : List String} {machineId : String} {states : Record StateDefinition} :
    validateHierarchy allStates machineId (withError states) = validateHierarchy allStates machineId states := by
  unfold withError
  split
  · rfl
  · rw [hierarchyAppend]
    have implicit : validateHierarchy allStates machineId [("error",{ id := "error", type := "final" })] = none := by
      simp [validateHierarchy,validateState,stateError,StateDefinition.isCompound]
    rw [implicit,Option.or_none]

theorem hasError (states : Record StateDefinition) (key : String) :
    Keyed.has (withError states) key = true ↔ key = "error" ∨ Keyed.has states key = true := by
  unfold withError
  split
  · rename_i declared
    refine ⟨.inr,?_⟩
    rintro (rfl | here)
    · exact declared
    · exact here
  · rw [Keyed.hasKey,Keyed.hasKey]
    simp [Keyed.keys,or_comm]

theorem validates {d : Document} (admitted : d.Admitted) : validateMachineAst (built d) = none ↔ d.type = some .parallel ∨ d.Named Document.StateNode.onEdges := by
  have parallel : equalFold (built d).type "parallel" = true ↔ d.type = some .parallel := by
    rw [show (built d).type = (d.type.map rootTypeName).getD "" from rfl]
    rcases d.type with _ | _ | _ <;> decide
  have hierarchy : validateHierarchy (collectAllStateNames "" (built d).states) (built d).id (built d).states = none ↔
      (∀ p ∈ places "" d.states, Document.Starts p.node) ∧ ∀ p ∈ places "" d.states, d.TargetsKnown p.node.onEdges := by
    rw [show (built d).states = withError (parseStates (d.namespaceName.getD "") d.states) from rfl,errorAccepts,hierarchyAccepts]
    constructor
    · intro each
      refine ⟨fun p mem => (each p mem).1,fun p mem edge here target named => ?_⟩
      exact (knownNames d target).mp ((each p mem).2 edge here target named)
    · rintro ⟨starts,targets⟩ p mem
      exact ⟨starts p mem,fun edge here target named => (knownNames d target).mpr (targets p mem edge here target named)⟩
  unfold validateMachineAst
  split
  · rename_i root
    exact iff_of_true rfl (.inl (parallel.mp root))
  · rename_i root
    have other : d.type ≠ some .parallel := fun same => root (parallel.mpr same)
    obtain ⟨initial,given_⟩ := Option.isSome_iff_exists.mp (admitted.initial.resolve_left other)
    have filled := admitted.texts.1
    rw [given_] at filled
    have nonempty : initial ≠ "" := by simpa [Document.filled] using filled
    have named : given d.initial = some initial := by simp [given,given_,Option.filter,nonempty]
    have start : (built d).initial = initial := by
      rw [show (built d).initial = d.initial.getD "" from rfl,given_]
      rfl
    have declared : Keyed.has (built d).states initial = true ↔ initial = "error" ∨ Keyed.has d.states initial = true := by
      rw [show (built d).states = withError (parseStates (d.namespaceName.getD "") d.states) from rfl,hasError,parsedHas]
    rw [start,if_neg nonempty]
    split
    · rename_i missing
      refine iff_of_false (by simp) ?_
      rintro (same | accepts)
      · exact other same
      · obtain ⟨initial',again,has⟩ := accepts.root
        cases named.symm.trans again
        rw [declared.mpr has] at missing
        contradiction
    · rename_i present
      rw [hierarchy]
      constructor
      · rintro ⟨starts,targets⟩
        exact .inr ⟨⟨initial,named,declared.mp (by simpa using present)⟩,starts,targets⟩
      · rintro (same | accepts)
        · exact absurd same other
        · exact ⟨accepts.starts,accepts.targets⟩

theorem parsesAccepted {d : Document} (admitted : d.Admitted) :
    (∃ m, parseYamlMachine d = .ok m) ↔ d.type = some .parallel ∨ d.Named Document.StateNode.onEdges := by
  rw [← validates admitted]
  unfold parseYamlMachine
  cases validateMachineAst (built d) <;> simp

end Dfsm.Go
