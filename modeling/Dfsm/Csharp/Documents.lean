import Dfsm.Csharp.Validate
import Dfsm.Definition.Document
import Mathlib.Algebra.Group.Int.Defs

/-! `YamlMachineParser.Parse` of the C# SDK: from a document to the definition it builds, and
which documents it accepts. -/
namespace Dfsm.Csharp
open Keyed (Record)
open Document (Place places)

def qualify (name : String) (ns : Option String) : String :=
  match given ns with
  | none => name
  | some ns => if name = "" || name.toList.contains '.' then name else ns ++ "." ++ name

/-- `JsonElement.GetInt32` throws beyond it. -/
def fitsInt32 (n : Int) : Bool := -2^31 ≤ n && n < 2^31

/-- The numbers that are read of a policy. -/
def numbersOf (policy : Document.TransitionPolicy) : List Int :=
  (policy.retry.bind (·.maxAttempts)).toList ++ (policy.circuitBreaker.bind (·.failureThreshold)).toList ++
    (policy.circuitBreaker.bind (·.openDurationMs)).toList ++ (policy.circuitBreaker.bind (·.halfOpenMaxCalls)).toList

/-- All numbers that are read of a document. -/
def numbers (d : Document) : List Int :=
  d.maxEffectChainDepth.toList ++ (d.defaults.map numbersOf).getD [] ++
    (places "" d.states).flatMap (fun p => p.node.edges.flatMap (numbersOf ·.toTransitionPolicy))

def parsePartialPolicy (policy : Document.TransitionPolicy) (compensate : Option String) (ns : Option String) : PartialTransitionPolicy where
  retryMaxAttempts := policy.retry.bind (·.maxAttempts)
  retryExplicitlyDefined := policy.retry.map (fun _ => true)
  cbFailureThreshold := policy.circuitBreaker.bind (·.failureThreshold)
  cbRecoveryTimeoutMs := policy.circuitBreaker.bind (·.openDurationMs)
  cbHalfOpenSuccessThreshold := policy.circuitBreaker.bind (·.halfOpenMaxCalls)
  cbExplicitlyDefined := policy.circuitBreaker.map (fun _ => true)
  onFailTarget := policy.onFail.bind (·.target)
  onFailCompensate := policy.onFail.bind (·.compensate)
  onFailExplicitlyDefined := policy.onFail.map (fun _ => true)
  compensateWith := compensate.map (qualify · ns)

def parseTransitionDefinition (ns : Option String) : Document.TransitionDefinition → TransitionDefinition
  | .shorthand target => { target }
  | .full edge => {
      target := edge.target.getD "", handler := edge.transition.map (qualify · ns)
      policy := some (parsePartialPolicy edge.toTransitionPolicy edge.compensate ns) }

def typeName : StateNodeType → String
  | .atomic => "atomic"
  | .compound => "compound"
  | .parallel => "parallel"
  | .final => "final"

mutual
def parseStateDefinition (ns : Option String) (id : String) : Document.StateNode → StateDefinition
  | { type, initial, entry, exit, on, onDone, states } => {
      id, type := type.map typeName, initial, entry := entry.map (qualify · ns), exit := exit.map (qualify · ns)
      states := parseStates ns states, on := on.map (fun e => (e.1,[parseTransitionDefinition ns e.2]))
      onDone := (onDone.map (parseTransitionDefinition ns)).toList }
def parseStates (ns : Option String) : List (String × Document.StateNode) → List (String × StateDefinition)
  | [] => []
  | (key,node)::rest => (key,parseStateDefinition ns key node)::parseStates ns rest
end

/-- With the error state, where the document has none. -/
def withError (states : Record StateDefinition) : Record StateDefinition :=
  if Keyed.has states "error" then states else states ++ [("error",{ id := "error", type := some "final" })]

def rootTypeName : MachineType → String
  | .compound => "compound"
  | .parallel => "parallel"

/-- The first state is the initial one where none is given. -/
def initialOf (d : Document) : String :=
  if d.type = some .parallel ∨ (given d.initial).isSome then d.initial.getD "" else (d.states.head?.map (·.1)).getD ""

def built (d : Document) : MachineDefinition where
  id := d.id
  type := d.type.map rootTypeName
  initial := initialOf d
  maxEffectChainDepth := d.maxEffectChainDepth.getD 25
  states := withError (parseStates d.namespaceName d.states)
  defaults := d.defaults.map (parsePartialPolicy · none d.namespaceName)

inductive ParseError where
  | format
  | validation (message : String)

def parse (d : Document) : Except ParseError MachineDefinition :=
  if (numbers d).all fitsInt32 then
    match validateAst (built d) with
    | none => .ok (built d)
    | some message => .error (.validation message)
  else .error .format

/-! Which documents are accepted. -/

theorem parsedKeys (ns : Option String) (states : List (String × Document.StateNode)) :
    Keyed.keys (parseStates ns states) = Keyed.keys states := by
  induction states with
  | nil => rfl
  | cons e rest ih => exact congrArg (e.1::·) ih

theorem parsedHas (ns : Option String) (states : List (String × Document.StateNode)) (key : String) :
    Keyed.has (parseStates ns states) key = Keyed.has states key := by
  rw [Bool.eq_iff_iff,Keyed.hasKey,Keyed.hasKey,parsedKeys]

theorem parsedEmpty (ns : Option String) (states : List (String × Document.StateNode)) :
    (parseStates ns states).isEmpty = states.isEmpty := by
  cases states <;> rfl

mutual
theorem namesNode (ns : Option String) (path key : String) : (node : Document.StateNode) → (target : String) →
    (target ∈ namesBelow path (parseStateDefinition ns key node) ↔
      ∃ p ∈ Document.placesBelow path node, target = p.path ∨ target = p.key)
  | { type := _, initial := _, entry := _, exit := _, on := _, onDone := _, states }, target => namesParsed ns path states target
theorem namesParsed (ns : Option String) (above : String) : (states : List (String × Document.StateNode)) → (target : String) →
    (target ∈ collectStateNames above (parseStates ns states) ↔ ∃ p ∈ places above states, target = p.path ∨ target = p.key)
  | [], target => by simp [parseStates,collectStateNames,places]
  | (key,node)::rest, target => by
    have here := namesNode ns (childPath above key) key node target
    have later := namesParsed ns above rest target
    simp only [parseStates,collectStateNames,places,List.cons_append,List.mem_cons,List.mem_append,here,later]
    constructor
    · rintro (same | same | ⟨p,mem,names⟩ | ⟨p,mem,names⟩)
      · exact ⟨_,.inl rfl,.inl same⟩
      · exact ⟨_,.inl rfl,.inr same⟩
      · exact ⟨p,.inr (.inl mem),names⟩
      · exact ⟨p,.inr (.inr mem),names⟩
    · rintro ⟨p,rfl | mem | mem,names⟩
      · exact names.imp id .inl
      · exact .inr (.inr (.inl ⟨p,mem,names⟩))
      · exact .inr (.inr (.inr ⟨p,mem,names⟩))
end

theorem collectAppend (above : String) (first last : List (String × StateDefinition)) :
    collectStateNames above (first ++ last) = collectStateNames above first ++ collectStateNames above last := by
  induction first with
  | nil => rfl
  | cons e rest ih =>
    obtain ⟨name,s⟩ := e
    simp only [List.cons_append,collectStateNames,ih,List.append_assoc]

theorem placeOf {above key : String} {states : List (String × Document.StateNode)} (has : Keyed.has states key = true) :
    ∃ p ∈ places above states, key = p.key := by
  induction states with
  | nil => contradiction
  | cons e rest ih =>
    obtain ⟨name,node⟩ := e
    by_cases same : key = name
    · exact ⟨_,List.mem_cons_self,same⟩
    · rw [Keyed.has,Keyed.getCons,if_neg same] at has
      obtain ⟨p,mem,here⟩ := ih has
      exact ⟨p,List.mem_append_right _ mem,here⟩

theorem knownNames (d : Document) (target : String) : target ∈ collectStateNames "" (built d).states ↔ d.Known target := by
  have parsed := namesParsed d.namespaceName "" d.states target
  rw [show (built d).states = withError (parseStates d.namespaceName d.states) from rfl]
  unfold withError Document.Known
  split
  · rename_i declared
    rw [parsed]
    refine ⟨.inr,?_⟩
    rintro (rfl | here)
    · rw [parsedHas] at declared
      obtain ⟨p,mem,same⟩ := placeOf declared
      exact ⟨p,mem,.inr same⟩
    · exact here
  · have error : collectStateNames "" [("error",{ id := "error", type := some "final" })] = ["error","error"] := by decide
    rw [collectAppend,List.mem_append,parsed,error]
    simp [or_comm]

theorem parallelType (type : Option StateNodeType) : isType (type.map typeName) "parallel" = true ↔ type = some .parallel := by
  rcases type with _ | _ | _ | _ | _ <;> decide

theorem compoundType (type : Option StateNodeType) (compound : isType (type.map typeName) "compound" = true) : type ≠ some .parallel := by
  rintro rfl
  exact absurd compound (by decide)

theorem startsChecked {ns : Option String} {key : String} {node : Document.StateNode} :
    ((parseStateDefinition ns key node).isCompound = true ∧ (parseStateDefinition ns key node).states.isEmpty = false) ↔
      node.states ≠ [] ∧ node.type ≠ some .parallel := by
  obtain ⟨type,initial,entry,exit,on,onDone,states⟩ := node
  have parallel := parallelType type
  have compound := compoundType type
  simp only [parseStateDefinition,StateDefinition.isCompound,StateDefinition.isParallel,parsedEmpty,Bool.or_eq_true,Bool.and_eq_true,
    Bool.not_eq_true',List.isEmpty_eq_false_iff]
  rw [← Bool.not_eq_true,parallel]
  constructor
  · rintro ⟨named | ⟨_,other⟩,some⟩
    · exact ⟨some,compound named⟩
    · exact ⟨some,other⟩
  · rintro ⟨some,other⟩
    exact ⟨.inr ⟨some,other⟩,some⟩

theorem unknownNone {allKnown : List String} {edges : List TransitionDefinition} :
    unknownTarget allKnown edges = none ↔ ∀ t ∈ edges, t.target = "" ∨ t.target ∈ allKnown := by
  unfold unknownTarget
  rw [Option.map_eq_none_iff,List.find?_eq_none]
  refine forall₂_congr (fun t _ => ?_)
  simp only [Bool.and_eq_true,bne_iff_ne,Bool.not_eq_true',List.contains_eq_mem,decide_eq_false_iff_not]
  tauto

theorem targetParsed {ns : Option String} {t : Document.TransitionDefinition} {good : String → Prop} :
    ((parseTransitionDefinition ns t).target = "" ∨ good (parseTransitionDefinition ns t).target) ↔
      ∀ target, given t.toEdge.target = some target → good target := by
  have same : (parseTransitionDefinition ns t).target = t.toEdge.target.getD "" := by cases t <;> rfl
  rw [same,given]
  cases t.toEdge.target with
  | none => simp
  | some target =>
    by_cases empty : target = ""
    · simp [empty]
    · simp [empty,Option.filter]

theorem stateAccepts {allKnown : List String} {machineId key : String} {ns : Option String} {node : Document.StateNode} :
    stateError allKnown machineId (parseStateDefinition ns key node) = none ↔
      Document.Starts node ∧ ∀ edge ∈ node.edges, ∀ target, given edge.target = some target → target ∈ allKnown := by
  have starts := @startsChecked ns key node
  have same : given (parseStateDefinition ns key node).initial = given node.initial := by cases node; rfl
  have has (initial : String) : Keyed.has (parseStateDefinition ns key node).states initial = Keyed.has node.states initial := by
    cases node
    exact parsedHas _ _ _
  have edges : (unknownTarget allKnown ((parseStateDefinition ns key node).on.flatMap (·.2)) = none ∧
      unknownTarget allKnown (parseStateDefinition ns key node).onDone = none) ↔
      ∀ edge ∈ node.edges, ∀ target, given edge.target = some target → target ∈ allKnown := by
    obtain ⟨type,initial,entry,exit,on,onDone,states⟩ := node
    rw [unknownNone,unknownNone]
    simp only [parseStateDefinition,Document.StateNode.edges,Document.StateNode.onEdges,List.forall_mem_append,List.forall_mem_map]
    refine and_congr ?_ ?_
    · have listed : (on.map (fun e => (e.1,[parseTransitionDefinition ns e.2]))).flatMap (·.2) =
          on.map (fun e => parseTransitionDefinition ns e.2) := by
        rw [List.flatMap_map]
        exact List.flatMap_pure_eq_map (fun e => parseTransitionDefinition ns e.2) on
      rw [listed,List.forall_mem_map]
      exact forall₂_congr (fun e _ => targetParsed)
    · cases onDone with
      | none => simp
      | some t => simp [targetParsed]
  unfold stateError
  by_cases container : ((parseStateDefinition ns key node).isCompound && !(parseStateDefinition ns key node).states.isEmpty) = true
  · have here := starts.mp (by simpa using container)
    simp only [container,Bool.true_and,same]
    cases started : given node.initial with
    | none =>
      refine iff_of_false (by simp) (fun sound => ?_)
      obtain ⟨initial,named,_⟩ := sound.1 here.1 here.2
      rw [started] at named
      contradiction
    | some initial =>
      simp only [Option.isNone_some,Option.any_some,has initial,Bool.false_eq_true,if_false]
      cases declared : Keyed.has node.states initial with
      | false =>
        refine iff_of_false (by simp) (fun sound => ?_)
        obtain ⟨initial',named,has⟩ := sound.1 here.1 here.2
        cases started.symm.trans named
        rw [declared] at has
        contradiction
      | true =>
        simp only [Bool.not_true,Bool.false_eq_true,if_false,Option.or_eq_none_iff,Option.map_eq_none_iff]
        rw [edges]
        exact ⟨fun known => ⟨fun _ _ => ⟨initial,started,declared⟩,known⟩,And.right⟩
  · have other : Document.Starts node := by
      intro some nonparallel
      exact absurd (by simpa using starts.mpr ⟨some,nonparallel⟩) container
    simp only [eq_false_of_ne_true container,Bool.false_and,Bool.false_eq_true,if_false,Option.or_eq_none_iff,Option.map_eq_none_iff]
    rw [edges]
    exact ⟨fun known => ⟨other,known⟩,And.right⟩

/-- The checks at a place. -/
abbrev PlaceAccepted (allKnown : List String) (p : Place) : Prop :=
  Document.Starts p.node ∧ ∀ edge ∈ p.node.edges, ∀ target, given edge.target = some target → target ∈ allKnown

mutual
theorem belowAccepts {allKnown : List String} {machineId : String} (ns : Option String) (above key : String) :
    (node : Document.StateNode) → (validateState allKnown machineId (parseStateDefinition ns key node) = none ↔
      PlaceAccepted allKnown ⟨key,childPath above key,node⟩ ∧
        ∀ p ∈ Document.placesBelow (childPath above key) node, PlaceAccepted allKnown p)
  | { type, initial, entry, exit, on, onDone, states } => by
    have here := @stateAccepts allKnown machineId key ns { type, initial, entry, exit, on, onDone, states }
    rw [parseStateDefinition] at here ⊢
    rw [validateState,Option.or_eq_none_iff]
    exact and_congr here (hierarchyAccepts ns (childPath above key) states)
theorem hierarchyAccepts {allKnown : List String} {machineId : String} (ns : Option String) (above : String) :
    (states : List (String × Document.StateNode)) → (validateStateHierarchy allKnown machineId (parseStates ns states) = none ↔
      ∀ p ∈ places above states, PlaceAccepted allKnown p)
  | [] => by simp [parseStates,validateStateHierarchy,places]
  | (key,node)::rest => by
    have here := @belowAccepts allKnown machineId ns above key node
    have later := @hierarchyAccepts allKnown machineId ns above rest
    simp only [parseStates,validateStateHierarchy,places,Option.or_eq_none_iff,List.cons_append,List.forall_mem_cons,List.forall_mem_append]
    rw [here,later,and_assoc]
end

theorem hierarchyAppend {allKnown : List String} {machineId : String} (first last : List (String × StateDefinition)) :
    validateStateHierarchy allKnown machineId (first ++ last) =
      (validateStateHierarchy allKnown machineId first).or (validateStateHierarchy allKnown machineId last) := by
  induction first with
  | nil => rfl
  | cons e rest ih =>
    obtain ⟨name,s⟩ := e
    simp only [List.cons_append,validateStateHierarchy,ih,Option.or_assoc]

theorem errorAccepts {allKnown : List String} {machineId : String} {states : Record StateDefinition} :
    validateStateHierarchy allKnown machineId (withError states) = validateStateHierarchy allKnown machineId states := by
  unfold withError
  split
  · rfl
  · rw [hierarchyAppend]
    have implicit : validateStateHierarchy allKnown machineId [("error",{ id := "error", type := some "final" })] = none := by
      simp [validateStateHierarchy,validateState,stateError,StateDefinition.isCompound,unknownTarget]
    rw [implicit,Option.or_none]

theorem hasError (states : Record StateDefinition) (key : String) :
    Keyed.has (withError states) key = true ↔ key = "error" ∨ Keyed.has states key = true := by
  unfold withError
  split
  · rename_i declared
    refine ⟨.inr,?_⟩
    rintro (rfl | here)
    · exact declared
    · exact here
  · rw [Keyed.hasKey,Keyed.hasKey]
    simp [Keyed.keys,or_comm]

theorem validates {d : Document} (admitted : d.Admitted) : validateAst (built d) = none ↔ d.type = some .parallel ∨ d.Named Document.StateNode.edges := by
  have parallel : isType (built d).type "parallel" = true ↔ d.type = some .parallel := by
    rw [show (built d).type = d.type.map rootTypeName from rfl]
    rcases d.type with _ | _ | _ <;> decide
  have hierarchy : validateStateHierarchy (collectStateNames "" (built d).states) (built d).id (built d).states = none ↔
      (∀ p ∈ places "" d.states, Document.Starts p.node) ∧ ∀ p ∈ places "" d.states, d.TargetsKnown p.node.edges := by
    rw [show (built d).states = withError (parseStates d.namespaceName d.states) from rfl,errorAccepts,hierarchyAccepts]
    constructor
    · intro each
      refine ⟨fun p mem => (each p mem).1,fun p mem edge here target named => ?_⟩
      exact (knownNames d target).mp ((each p mem).2 edge here target named)
    · rintro ⟨starts,targets⟩ p mem
      exact ⟨starts p mem,fun edge here target named => (knownNames d target).mpr (targets p mem edge here target named)⟩
  unfold validateAst
  split
  · rename_i root
    exact iff_of_true rfl (.inl (parallel.mp root))
  · rename_i root
    have other : d.type ≠ some .parallel := fun same => root (parallel.mpr same)
    obtain ⟨initial,given_⟩ := Option.isSome_iff_exists.mp (admitted.initial.resolve_left other)
    have filled := admitted.texts.1
    rw [given_] at filled
    have nonempty : initial ≠ "" := by simpa [Document.filled] using filled
    have named : given d.initial = some initial := by simp [given,given_,Option.filter,nonempty]
    have start : (built d).initial = initial := by
      rw [show (built d).initial = initialOf d from rfl,initialOf,if_pos (.inr (by rw [named]; rfl)),given_]
      rfl
    have declared : Keyed.has (built d).states initial = true ↔ initial = "error" ∨ Keyed.has d.states initial = true := by
      rw [show (built d).states = withError (parseStates d.namespaceName d.states) from rfl,hasError,parsedHas]
    rw [start,if_neg nonempty]
    split
    · rename_i missing
      refine iff_of_false (by simp) ?_
      rintro (same | accepts)
      · exact other same
      · obtain ⟨initial',again,has⟩ := accepts.root
        cases named.symm.trans again
        rw [declared.mpr has] at missing
        contradiction
    · rename_i present
      rw [hierarchy]
      constructor
      · rintro ⟨starts,targets⟩
        exact .inr ⟨⟨initial,named,declared.mp (by simpa using present)⟩,starts,targets⟩
      · rintro (same | accepts)
        · exact absurd same other
        · exact ⟨accepts.starts,accepts.targets⟩

theorem parsesAccepted {d : Document} (admitted : d.Admitted) :
    (∃ m, parse d = .ok m) ↔ (numbers d).all fitsInt32 = true ∧ (d.type = some .parallel ∨ d.Named Document.StateNode.edges) := by
  rw [← validates admitted]
  unfold parse
  split
  · rename_i fits
    cases validateAst (built d) <;> simp [fits]
  · rename_i large
    exact iff_of_false (by simp) (fun both => large both.1)

end Dfsm.Csharp
