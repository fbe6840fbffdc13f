import Dfsm.Definition.Yaml

/-! Both front ends on the description of a machine: its document parsed, and its calls built. -/
namespace Dfsm.Complete
open Keyed (Record mapValues)

/-! Validation, of all that it looks at. -/

def thinPolicy (policy : PartialTransitionPolicy) : Dfsm.PartialTransitionPolicy where
  onFail := policy.onFail.map (fun onFail => { compensate := onFail.compensate, target := onFail.target })
  compensateHandler := policy.compensateHandler

def thinEdge (edge : WrittenEdge) : Dfsm.TransitionEdgeIR where
  event := edge.event
  target := edge.target
  transition := edge.transition
  compensate := edge.compensate
  effects := edge.effects
  policy := thinPolicy edge.policy

mutual
def thinNode : WrittenNode → Dfsm.StateNodeIR
  | { key, path, type, description := _, initial, entry, exit, on, onDone, states, isImplicitError } =>
    { key, path, type, initial, entry, exit, on := mapValues (fun _ => thinEdge) on, onDone := onDone.map thinEdge
      states := thinNodes states, isImplicitError }
def thinNodes : List (String × WrittenNode) → List (String × Dfsm.StateNodeIR)
  | [] => []
  | (key,node)::rest => (key,thinNode node)::thinNodes rest
end

/-- A depth that is no integer is refused as 0 is. -/
def wholeDepth (depth : ℚ) : Int := if depth.isInt then depth.num else 0

def thin (raw : RawDefinition PartialTransitionPolicy) : RawMachine where
  id := raw.id
  type := raw.type
  initial := raw.initial
  registry := raw.registry
  defaults := thinPolicy raw.defaults
  maxEffectChainDepth := raw.maxEffectChainDepth.map wholeDepth
  states := thinNodes raw.states

def implicitErrorNode : WrittenNode := { key := "error", path := "error", type := .final, isImplicitError := true }

def finalized (raw : RawDefinition PartialTransitionPolicy) (source : MachineSource) : MachineDefinition PartialTransitionPolicy :=
  { raw with
    states := if Keyed.has raw.states "error" then raw.states else Keyed.set raw.states "error" implicitErrorNode
    source
    hasCustomErrorState := Keyed.has raw.states "error" }

def finalizeAndValidateMachineIR (raw : RawDefinition PartialTransitionPolicy) (source : MachineSource) :
    Except Objects.DefinitionError (MachineDefinition PartialTransitionPolicy) :=
  match Objects.definitionIssues (thin raw) with
  | .ok [] => .ok (finalized raw source)
  | .ok issues => .error (.machineValidation issues)
  | .error message => .error (.typeError message)

def MachineBuilder.build (b : MachineBuilder) : Except Objects.DefinitionError (MachineDefinition PartialTransitionPolicy) :=
  finalizeAndValidateMachineIR b.raw .builder

inductive ParseError where
  | yaml (message : String)
  | noMapping
  | context
  | schema
  | definition (error : Objects.DefinitionError)

def parseDocument (document : Json) : Except ParseError (MachineDefinition PartialTransitionPolicy) :=
  match document with
  | .object entries =>
    if Keyed.has entries "context" then .error .context
    else if DFSM_V1_SCHEMA document then (finalizeAndValidateMachineIR (parsedDefinition document) .yaml).mapError .definition
    else .error .schema
  | _ => .error .noMapping

/-- `parseYaml` is the parser of the `yaml` package. -/
def parseYamlMachine (parseYaml : String → Except String Json) (yamlContent : String) :
    Except ParseError (MachineDefinition PartialTransitionPolicy) :=
  match parseYaml yamlContent with
  | .error message => .error (.yaml message)
  | .ok document => parseDocument document

/-! What is written is read. -/

section

theorem readText (value : Option String) : (value.map Json.text).bind Json.asText = value := by
  cases value <;> rfl

theorem readNumber (value : Option ℚ) : (value.map Json.number).bind Json.asNumber = value := by
  cases value <;> rfl

theorem readFlag (value : Option Bool) : (value.map Json.flag).bind Json.asFlag = value := by
  cases value <;> rfl

theorem readTexts (names : List String) : (textsJson names).texts = names := by
  simp [Json.texts,textsJson,List.filterMap_map,Function.comp_def,Json.asText]

theorem readSomeTexts (names : List String) : (someTexts names).elim [] Json.texts = names := by
  unfold someTexts
  split
  · rename_i empty
    rw [List.isEmpty_iff.mp empty]
    rfl
  · exact readTexts names

theorem readMap {α : Type} {write : α → Json} {read : Json → α} (back : ∀ x, read (write x) = x) (value : Option α) :
    (value.map write).map read = value := by
  cases value with
  | none => rfl
  | some x => exact congrArg some (back x)

theorem readBackoff (backoff : BackoffConfig) : extractBackoff (backoffJson backoff) = backoff := by
  obtain ⟨strategy,initialDelayMs,maxDelayMs,multiplier⟩ := backoff
  have named : ((strategy.map (Json.text ∘ strategyText)).bind Json.asText).bind strategyOf = strategy := by
    rcases strategy with _ | (_ | _) <;> rfl
  simp only [extractBackoff,backoffJson,textAt,numberAt,Json.propObject,Json.getFieldsCons,Json.getFieldsNil,String.reduceEq,if_true,
    if_false,Option.or_none,named,readNumber]

theorem readRetry (retry : RetryConfig) : extractRetry (retryJson retry) = retry := by
  obtain ⟨maxAttempts,backoff⟩ := retry
  simp only [extractRetry,retryJson,numberAt,Json.propObject,Json.getFieldsCons,Json.getFieldsNil,String.reduceEq,if_true,if_false,
    Option.or_none,readNumber,readMap readBackoff]

theorem readCircuitBreaker (breaker : CircuitBreakerConfig) : extractCircuitBreaker (circuitBreakerJson breaker) = breaker := by
  obtain ⟨enabled,key,failureThreshold,slidingWindowSize,openDurationMs,halfOpenMaxCalls⟩ := breaker
  simp only [extractCircuitBreaker,circuitBreakerJson,flagAt,textAt,numberAt,Json.propObject,Json.getFieldsCons,Json.getFieldsNil,
    String.reduceEq,if_true,if_false,Option.or_none,readFlag,readText,readNumber]

theorem readOnFail (onFail : OnFailConfig) : extractOnFail (onFailJson onFail) = onFail := by
  obtain ⟨compensate,target⟩ := onFail
  simp only [extractOnFail,onFailJson,flagAt,textAt,Json.propObject,Json.getFieldsCons,Json.getFieldsNil,String.reduceEq,if_true,
    if_false,Option.or_none,readFlag,readText]

theorem readBenchmark (benchmark : BenchmarkConfig) : extractBenchmark (benchmarkJson benchmark) = benchmark := by
  obtain ⟨enabled⟩ := benchmark
  simp only [extractBenchmark,benchmarkJson,flagAt,Json.propObject,Json.getFieldsCons,Json.getFieldsNil,if_true,Option.or_none,readFlag]

theorem readSections (sections : PolicySections) (fs : List (String × Option Json))
    (other : ∀ key ∈ ["retry","circuitBreaker","onFail","benchmark"], Keyed.get (Json.fields fs) key = none) :
    extractPolicy (.object (Json.fields (sectionFields sections ++ fs))) =
      { toPolicySections := sections, compensateHandler := textAt (.object (Json.fields fs)) "compensate" } := by
  obtain ⟨retry,circuitBreaker,onFail,benchmark⟩ := sections
  simp only [List.forall_mem_cons] at other
  obtain ⟨noRetry,noBreaker,noOnFail,noBenchmark,_⟩ := other
  simp only [extractPolicy,sectionFields,List.cons_append,List.nil_append,textAt,Json.propObject,Json.getFieldsCons,String.reduceEq,
    if_true,if_false,noRetry,noBreaker,noOnFail,noBenchmark,Option.or_none,readMap readRetry,readMap readCircuitBreaker,
    readMap readOnFail,readMap readBenchmark]

theorem filledGiven {text : Option String} (present : filled text = true) : given text = text := by
  cases text with
  | none => rfl
  | some name => exact Option.filter_some_pos present

theorem readEdge (event : String) {edge : TransitionDescription} (admitted : edge.admitted = true) :
    parseTransitionEdge event (edgeJson edge) = toEdge event (configOf edge) := by
  cases edge with
  | short target => rfl
  | long edge =>
    have filledIn : given edge.compensate = edge.compensate := by
      simp only [TransitionDescription.admitted,Bool.and_eq_true] at admitted
      exact filledGiven admitted.1.1.2
    have effects : (edge.effects.map textsJson).elim [] Json.texts = edge.effects.getD [] := by
      cases edge.effects with
      | none => rfl
      | some names => exact readTexts names
    have noText (entries : List (String × Json)) : (Json.object entries).asText = none := rfl
    rw [parseTransitionEdge,edgeJson,noText]
    dsimp only
    rw [readSections _ _ (by simp)]
    simp only [sectionFields,List.cons_append,List.nil_append,textAt,textsAt,Json.propObject,Json.getFieldsCons,Json.getFieldsNil,
      String.reduceEq,if_true,if_false,Option.or_none,readText,effects,toEdge,configOf,filledIn]

theorem assignTwice {α β γ : Type} (f : String → α → β) (g : String → β → γ) {entries : Record α} (unique : (Keyed.keys entries).Nodup) :
    assignAll (mapValues g (assignAll (mapValues f entries))) = assignAll (mapValues (fun key value => g key (f key value)) entries) := by
  have keys : (Keyed.keys (assignAll (mapValues f entries))).Nodup := by
    refine ((assignAllPerm ?_).map Prod.fst).nodup_iff.mpr ?_
    · rwa [Keyed.mapValuesKeys]
    · change (Keyed.keys (mapValues f entries)).Nodup
      rwa [Keyed.mapValuesKeys]
  have again : assignAll (assignAll (mapValues f entries)) = assignAll (mapValues f entries) :=
    Keyed.assignedAgain (Keyed.assignedOrdered List.Pairwise.nil _) keys
  have inside (o : Record β) : assignAll (mapValues g o) = mapValues g (assignAll o) := Keyed.mapValuesAssigned g [] o
  rw [inside,again,← inside,mapValues,mapValues,List.map_map]
  rfl

theorem parseStatesMap (path : String) (entries : List (String × Json)) :
    parseStates path entries = mapValues (fun key value => parseStateNode key path value) entries := by
  induction entries with
  | nil => rfl
  | cons e rest ih =>
    rw [parseStates,ih]
    rfl

theorem childStatesCons (path key : String) (value : Option Json) (fs : List (String × Option Json)) :
    childStates path (Json.fields ((key,value)::fs)) =
      if key = "states" then value.elim (childStates path (Json.fields fs)) (statesIn path) else childStates path (Json.fields fs) := by
  cases value with
  | none => simp [Json.fields]
  | some v =>
    change childStates path ((key,v)::Json.fields fs) = _
    rw [childStates]
    rfl

theorem readChildren (path : String) {states : List (String × StateDescription)} (unique : (Keyed.keys states).Nodup) :
    assignAll ((mappingJson (statesJson states)).elim [] (statesIn path)) =
      assignAll (mapValues (fun key state => parseStateNode key path (stateJson state)) states) := by
  unfold mappingJson
  split
  · rename_i empty
    rw [statesJsonMap] at empty
    rw [List.map_eq_nil_iff.mp (List.isEmpty_iff.mp empty)]
    rfl
  · rw [Option.elim_some,statesIn,parseStatesMap,statesJsonMap]
    exact assignTwice (fun _ => stateJson) (fun key value => parseStateNode key path value) unique

theorem readOn {on : List (String × TransitionDescription)} (unique : (Keyed.keys on).Nodup) (admitted : on.all (·.2.admitted) = true) :
    onEdges (mappingJson (mapValues (fun _ => edgeJson) on)) = assignAll (mapValues (fun event edge => toEdge event (configOf edge)) on) := by
  unfold mappingJson
  split
  · rename_i empty
    rw [List.map_eq_nil_iff.mp (List.isEmpty_iff.mp empty)]
    rfl
  · rw [onEdges,assignTwice (fun _ => edgeJson) parseTransitionEdge unique]
    refine congrArg assignAll (List.map_congr_left (fun e mem => ?_))
    exact congrArg (e.1,·) (readEdge e.1 (List.all_eq_true.mp admitted e mem))

/-! What the calls build. -/

/-- The node of a state that is declared below a path. -/
def built (key parentPath : String) (state : StateDescription) : WrittenNode :=
  (configure state (StateNodeBuilder.new key parentPath state.kind.type state.kind.initial)).buildNode

theorem addStatesBuilds (states : List (String × StateDescription)) (b : StateNodeBuilder) : addStates states b =
    { b with
      children := (mapValues (fun key state => built key b.path state) states).foldl (fun o e => Keyed.set o e.1 e.2) b.children
      nodeType := if states.isEmpty then b.nodeType else if b.nodeType = .atomic then .compound else b.nodeType } := by
  induction states generalizing b with
  | nil => rfl
  | cons e rest ih =>
    obtain ⟨key,state⟩ := e
    rw [addStates,ih]
    have compound (type : StateNodeType) (none_ : Bool) : (if none_ then if type = .atomic then StateNodeType.compound else type
        else if (if type = .atomic then StateNodeType.compound else type) = .atomic then .compound
        else if type = .atomic then .compound else type) = if type = .atomic then .compound else type := by
      cases none_ <;> cases type <;> rfl
    rw [StateNodeBuilder.mk.injEq]
    exact ⟨rfl,rfl,compound b.nodeType rest.isEmpty,rfl,rfl,rfl,rfl,rfl,rfl,rfl⟩

theorem onCalls (on : List (String × TransitionDescription)) (b : StateNodeBuilder) :
    on.foldl (fun b e => b.on e.1 (configOf e.2)) b =
      { b with transitions := (mapValues (fun event edge => toEdge event (configOf edge)) on).foldl (fun o e => Keyed.set o e.1 e.2) b.transitions } := by
  induction on generalizing b with
  | nil => rfl
  | cons e rest ih =>
    rw [List.foldl_cons,ih]
    rfl

theorem builtFields (key parentPath : String) (state : StateDescription) : built key parentPath state = {
    key
    path := childPath parentPath key
    type := if state.states.isEmpty then state.kind.type else if state.kind.type = .atomic then .compound else state.kind.type
    description := state.description
    initial := state.kind.initial
    entry := state.entry
    exit := state.exit
    on := assignAll (mapValues (fun event edge => toEdge event (configOf edge)) state.on)
    onDone := state.onDone.map (fun done => toEdge "$onDone" (configOf done))
    states := assignAll (mapValues (fun childKey child => built childKey (childPath parentPath key) child) state.states) } := by
  obtain ⟨kind,description,entry,exit,on,onDone,states⟩ := state
  rw [built,configure]
  simp only [onCalls,addStatesBuilds]
  cases description with
  | none => cases onDone <;> rfl
  | some text => cases onDone <;> rfl

/-! States whose type comes out the same: an atomic state with states below it, or a compound
state without them whose type is not written, is another thing to each front end. -/

def StateDescription.alike (state : StateDescription) : Bool :=
  match state.kind with
  | .atomic _ => state.states.isEmpty
  | .compound _ typed => typed || !state.states.isEmpty
  | _ => true

mutual
def StateDescription.straight : StateDescription → Bool
  | { kind, description, entry, exit, on, onDone, states } =>
    StateDescription.alike { kind, description, entry, exit, on, onDone, states } && statesStraight states
def statesStraight : List (String × StateDescription) → Bool
  | [] => true
  | (_,state)::rest => state.straight && statesStraight rest
end

theorem parsedFields (key parentPath : String) {state : StateDescription} (keyed : state.keyed = true) (admitted : state.admitted = true) :
    parseStateNode key parentPath (stateJson state) = {
      key
      path := childPath parentPath key
      type := (state.kind.typeText.bind typeOf).getD (if !state.states.isEmpty then .compound else .atomic)
      description := state.description
      initial := state.kind.initial
      entry := state.entry
      exit := state.exit
      on := assignAll (mapValues (fun event edge => toEdge event (configOf edge)) state.on)
      onDone := state.onDone.map (fun done => toEdge "$onDone" (configOf done))
      states := assignAll (mapValues (fun childKey child => parseStateNode childKey (childPath parentPath key) (stateJson child)) state.states) } := by
  obtain ⟨kind,description,entry,exit,on,onDone,states⟩ := state
  rw [StateDescription.keyed,Bool.and_eq_true,Bool.and_eq_true] at keyed
  simp only [StateDescription.admitted,Bool.and_eq_true] at admitted
  have children : hasChildren (mappingJson (statesJson states)) = !states.isEmpty := by
    have unique : (Keyed.keys (statesJson states)).Nodup := by
      rw [statesJsonMap,Keyed.mapValuesKeys]
      exact keyedUnique keyed.1.2
    have same : (statesJson states).isEmpty = states.isEmpty := by rw [statesJsonMap,mapValues,List.isEmpty_map]
    unfold mappingJson
    rw [same]
    split
    · rename_i empty
      rw [empty]
      rfl
    · rename_i some_
      rw [hasChildren,assignedEmpty unique,same]
  have done : (onDone.map edgeJson).map (parseTransitionEdge "$onDone") = onDone.map (fun done => toEdge "$onDone" (configOf done)) := by
    cases onDone with
    | none => rfl
    | some edge => exact congrArg some (readEdge "$onDone" admitted.1.2)
  rw [stateJson,parseStateNode]
  simp only [textAt,textsAt,Json.propObject,Json.getFieldsCons,Json.getFieldsNil,String.reduceEq,if_true,if_false,Option.or_none,readText,
    readSomeTexts,children,readOn (keyedUnique keyed.1.1) admitted.1.1.2,done,childStatesCons]
  rw [show childStates (childPath parentPath key) (Json.fields []) = [] from rfl,readChildren _ (keyedUnique keyed.1.2)]

theorem thinNodesMap (states : List (String × WrittenNode)) : thinNodes states = mapValues (fun _ => thinNode) states := by
  induction states with
  | nil => rfl
  | cons e rest ih =>
    rw [thinNodes,ih]
    rfl

theorem thinFields (node : WrittenNode) : (thinNode node).path = node.path ∧ (thinNode node).type = node.type ∧
    (thinNode node).initial = node.initial ∧ (thinNode node).states = thinNodes node.states := by
  cases node
  exact ⟨rfl,rfl,rfl,rfl⟩

theorem assignedNil {α : Type} {entries : Record α} (unique : (Keyed.keys entries).Nodup) : assignAll entries = [] ↔ entries = [] := by
  rw [← List.isEmpty_iff,assignedEmpty unique,List.isEmpty_iff]

/-- A front end's nodes: their children are its nodes too, and where the shape of one is right, its type
is as described. -/
structure Front (node : String → String → StateDescription → WrittenNode) : Prop where
  below : ∀ key parentPath state, state.keyed = true → state.admitted = true →
    (node key parentPath state).states =
      assignAll (mapValues (fun childKey child => node childKey (childPath parentPath key) child) state.states)
  shape : ∀ key parentPath state, state.keyed = true → state.admitted = true → ∀ path on,
    Objects.shapeIssues path (node key parentPath state).type (node key parentPath state).initial on
      (thinNodes (node key parentPath state).states) = [] → state.alike = true

theorem thinBelow {node : String → String → StateDescription → WrittenNode} {path : String} {states : List (String × StateDescription)}
    (unique : (Keyed.keys states).Nodup) :
    thinNodes (assignAll (mapValues (fun key state => node key path state) states)) = [] ↔ states = [] := by
  have keys : (Keyed.keys (mapValues (fun key state => node key path state) states)).Nodup := by rwa [Keyed.mapValuesKeys]
  rw [thinNodesMap,mapValues,List.map_eq_nil_iff,assignedNil keys,mapValues,List.map_eq_nil_iff]

theorem compoundShape {path on states} (shape : Objects.shapeIssues path .compound none on states = []) : False := by
  simp [Objects.shapeIssues,Objects.initialIssues,given] at shape

theorem builtFront : Front built := by
  refine ⟨fun key parentPath state _ _ => by rw [builtFields],fun key parentPath state keyed _ path on shape => ?_⟩
  obtain ⟨kind,description,entry,exit,on',onDone,states⟩ := state
  rw [StateDescription.keyed,Bool.and_eq_true,Bool.and_eq_true] at keyed
  rw [builtFields] at shape
  cases kind with
  | parallel => rfl
  | final => rfl
  | atomic typed =>
    cases states with
    | nil => rfl
    | cons e rest => exact (compoundShape shape).elim
  | compound initial typed =>
    cases states with
    | nil => simp [Objects.shapeIssues,Kind.type,thinBelow (keyedUnique keyed.1.2)] at shape
    | cons e rest => simp [StateDescription.alike]

theorem parsedFront : Front (fun key parentPath state => parseStateNode key parentPath (stateJson state)) := by
  refine ⟨fun key parentPath state keyed admitted => by rw [parsedFields key parentPath keyed admitted],
    fun key parentPath state keyed admitted path on shape => ?_⟩
  rw [parsedFields key parentPath keyed admitted] at shape
  obtain ⟨kind,description,entry,exit,on',onDone,states⟩ := state
  rw [StateDescription.keyed,Bool.and_eq_true,Bool.and_eq_true] at keyed
  simp only [StateDescription.admitted,Bool.and_eq_true] at admitted
  have some_ (e : String × StateDescription) (rest : List (String × StateDescription)) (cons : states = e::rest) :
      thinNodes (assignAll (mapValues (fun childKey child => parseStateNode childKey (childPath parentPath key) (stateJson child)) states)) ≠ [] := by
    rw [Ne,@thinBelow (fun key path state => parseStateNode key path (stateJson state)) _ _ (keyedUnique keyed.1.2),cons]
    exact List.cons_ne_nil _ _
  cases kind with
  | parallel => rfl
  | final => rfl
  | atomic typed =>
    cases states with
    | nil => rfl
    | cons e rest =>
      cases typed with
      | true => 
        have type : ((Kind.atomic true).typeText.bind typeOf) = some .atomic := rfl
        simp only [type,Option.getD_some,Objects.shapeIssues,Dfsm.shapeIssues,if_neg (some_ e rest rfl)] at shape
        simp at shape
      | false => exact (compoundShape shape).elim
  | compound initial typed =>
    cases typed with
    | true => rfl
    | false =>
      cases states with
      | cons e rest => rfl
      | nil =>
        have text : given (some initial) = some initial := filledGiven admitted.1.1.1.1.1
        have type : ((Kind.compound initial false).typeText.bind typeOf) = none := rfl
        simp [type,Objects.shapeIssues,Dfsm.shapeIssues,Kind.initial,text] at shape

mutual
theorem checkedStraight {node : String → String → StateDescription → WrittenNode} (front : Front node) (machine : RawMachine) :
    (state : StateDescription) → state.keyed = true → state.admitted = true → ∀ key parentPath,
      Objects.Checked machine (thinNode (node key parentPath state)) → state.straight = true
  | { kind, description, entry, exit, on, onDone, states }, keyed, admitted, key, parentPath, checked => by
    have below := front.below key parentPath _ keyed admitted
    have shape := checked.shape
    rw [(thinFields _).2.1,(thinFields _).2.2.1,(thinFields _).2.2.2] at shape
    have alike := front.shape key parentPath _ keyed admitted _ _ shape
    have children := Objects.checkedNodes checked.below
    rw [(thinFields _).2.2.2,below,thinNodesMap] at children
    rw [StateDescription.keyed,Bool.and_eq_true,Bool.and_eq_true] at keyed
    rw [StateDescription.admitted,Bool.and_eq_true] at admitted
    rw [StateDescription.straight,alike,Bool.true_and]
    refine checkedAllStraight front machine states keyed.2 admitted.2 (childPath parentPath key) (fun e mem => ?_)
    have unique : (Keyed.keys (mapValues (fun childKey child => node childKey (childPath parentPath key) child) states)).Nodup := by
      rw [Keyed.mapValuesKeys]
      exact keyedUnique keyed.1.2
    refine children (e.1,thinNode (node e.1 (childPath parentPath key) e.2)) ?_
    refine List.mem_map.mpr ⟨(e.1,node e.1 (childPath parentPath key) e.2),?_,rfl⟩
    exact (assignAllPerm unique).mem_iff.mpr (List.mem_map.mpr ⟨e,mem,rfl⟩)
theorem checkedAllStraight {node : String → String → StateDescription → WrittenNode} (front : Front node) (machine : RawMachine) :
    (states : List (String × StateDescription)) → statesKeyed states = true → statesAdmitted states = true → ∀ path,
      (∀ e ∈ states, Objects.Checked machine (thinNode (node e.1 path e.2))) → statesStraight states = true
  | [], _, _, _, _ => rfl
  | (key,state)::rest, keyed, admitted, path, each => by
    rw [statesKeyed,Bool.and_eq_true] at keyed
    rw [statesAdmitted,Bool.and_eq_true] at admitted
    rw [statesStraight,checkedStraight front machine state keyed.1 admitted.1 key path (each (key,state) List.mem_cons_self),
      checkedAllStraight front machine rest keyed.2 admitted.2 path (fun e mem => each e (List.mem_cons_of_mem _ mem))]
    rfl
end

theorem alikeType {state : StateDescription} (alike : state.alike = true) :
    (state.kind.typeText.bind typeOf).getD (if !state.states.isEmpty then .compound else .atomic) =
      if state.states.isEmpty then state.kind.type else if state.kind.type = .atomic then .compound else state.kind.type := by
  obtain ⟨kind,description,entry,exit,on,onDone,states⟩ := state
  cases kind with
  | parallel => cases states <;> rfl
  | final => cases states <;> rfl
  | atomic typed =>
    cases states with
    | nil => cases typed <;> rfl
    | cons e rest => cases alike
  | compound initial typed =>
    cases typed with
    | true => cases states <;> rfl
    | false =>
      cases states with
      | nil => cases alike
      | cons e rest => rfl

mutual
theorem parsedBuilt : (state : StateDescription) → state.keyed = true → state.admitted = true → state.straight = true → ∀ key parentPath,
    parseStateNode key parentPath (stateJson state) = built key parentPath state
  | { kind, description, entry, exit, on, onDone, states }, keyed, admitted, straight, key, parentPath => by
    rw [StateDescription.straight,Bool.and_eq_true] at straight
    rw [parsedFields key parentPath keyed admitted,builtFields,alikeType straight.1]
    rw [StateDescription.keyed,Bool.and_eq_true,Bool.and_eq_true] at keyed
    rw [StateDescription.admitted,Bool.and_eq_true] at admitted
    rw [parsedAllBuilt states keyed.2 admitted.2 straight.2]
theorem parsedAllBuilt : (states : List (String × StateDescription)) → statesKeyed states = true → statesAdmitted states = true →
    statesStraight states = true → ∀ path,
    mapValues (fun key state => parseStateNode key path (stateJson state)) states = mapValues (fun key state => built key path state) states
  | [], _, _, _, _ => rfl
  | (key,state)::rest, keyed, admitted, straight, path => by
    rw [statesKeyed,Bool.and_eq_true] at keyed
    rw [statesAdmitted,Bool.and_eq_true] at admitted
    rw [statesStraight,Bool.and_eq_true] at straight
    have below := parsedAllBuilt rest keyed.2 admitted.2 straight.2 path
    exact congrArg₂ List.cons (congrArg (key,·) (parsedBuilt state keyed.1 admitted.1 straight.1 key path)) below
end

/-! The whole definition. -/

theorem rootCalls (states : List (String × StateDescription)) (b : MachineBuilder) :
    states.foldl (fun b e => b.root e.1 (rootNode e.1 e.2)) b =
      { b with rootStates := (mapValues (fun key state => built key "" state) states).foldl (fun o e => Keyed.set o e.1 e.2) b.rootStates } := by
  induction states generalizing b with
  | nil => rfl
  | cons e rest ih =>
    rw [List.foldl_cons,ih]
    rfl

def described (d : MachineDescription) (states : Record WrittenNode) : RawDefinition PartialTransitionPolicy where
  id := d.id
  version := d.version.getD "1.0.0"
  description := d.description
  type := d.kind.type
  initial := d.kind.initial
  registry := { namespaceName := d.registry.bind (·.namespaceName), strict := (d.registry.bind (·.strict)).getD true }
  defaults := d.defaults.getD {}
  hooks slot := MachineBuilder.hookList (d.hooks slot)
  effects := d.effects
  maxEffectChainDepth := d.maxEffectChainDepth
  states

theorem builderFields (d : MachineDescription) :
    (builderOf d).raw = described d (assignAll (mapValues (fun key state => built key "" state) d.states)) := by
  obtain ⟨id,version,description,kind,registry,defaults,hooks,effects,maxEffectChainDepth,states⟩ := d
  have policy : defaults.elim {} (MachineBuilder.spread {}) = defaults.getD {} := by
    cases defaults with
    | none => rfl
    | some policy => simp only [Option.elim_some,Option.getD_some,MachineBuilder.spread,Option.or_none]
  rw [builderOf]
  simp only [rootCalls]
  rw [described,MachineBuilder.raw,RawDefinition.mk.injEq]
  cases version <;> cases description <;> rcases kind with ⟨_ | _,_⟩ | _ <;> cases registry <;> cases maxEffectChainDepth <;>
    cases defaults <;> exact ⟨rfl,rfl,rfl,rfl,rfl,rfl,policy,rfl,rfl,rfl,rfl⟩

theorem readRegistry (registry : Option RegistryDescription) :
    (registry.map registryJson).bind (textAt · "namespace") = registry.bind (·.namespaceName) ∧
    (registry.map registryJson).bind (flagAt · "strict") = registry.bind (·.strict) := by
  cases registry with
  | none => exact ⟨rfl,rfl⟩
  | some registry =>
    simp only [Option.map_some,Option.bind_some,registryJson,textAt,flagAt,Json.propObject,Json.getFieldsCons,Json.getFieldsNil,
      String.reduceEq,if_true,if_false,Option.or_none,readText,readFlag,and_self]

theorem readHook {ref : Option HookRef} (admitted : ref.all (·.admitted) = true) :
    toStringList (ref.map hookJson) = MachineBuilder.hookList ref := by
  rcases ref with _ | (name | names)
  · rfl
  · have named : name ≠ "" := by simpa [HookRef.admitted] using admitted
    exact (if_neg named).symm
  · exact readTexts names

theorem readDefaults {defaults : Option PartialTransitionPolicy}
    (admitted : defaults.all (fun defaults => defaults.toPolicySections.admitted && defaults.compensateHandler.isNone) = true) :
    (defaults.map policyJson).elim {} extractPolicy = defaults.getD {} := by
  cases defaults with
  | none => rfl
  | some policy =>
    obtain ⟨sections,compensateHandler⟩ := policy
    rw [Option.map_some,Option.elim_some,policyJson,readSections _ _ (by simp)]
    simp only [textAt,Json.propObject,Json.getFieldsCons,Json.getFieldsNil,if_true,Option.or_none,readText,Option.getD_some]

theorem parsedDescribed {d : MachineDescription} (keyed : d.Keyed) (admitted : d.admitted = true) :
    parsedDefinition (documentJson d) =
      described d (assignAll (mapValues (fun key state => parseStateNode key "" (stateJson state)) d.states)) := by
  simp only [MachineDescription.admitted,Bool.and_eq_true] at admitted
  have type : (d.kind.typeText.bind machineTypeOf).getD .compound = d.kind.type := by
    rcases d.kind with ⟨initial,(_ | _)⟩ | _ <;> rfl
  have hooks : extractHooks (some (hooksJson d.hooks)) = fun slot => MachineBuilder.hookList (d.hooks slot) := by
    funext slot
    have ref := readHook (List.all_eq_true.mp admitted.1.1.1.1.2 slot (by cases slot <;> decide))
    cases slot <;>
      simpa only [extractHooks,Option.bind_some,hooksJson,hookSlots,List.map_cons,List.map_nil,hookName,Json.propObject,Json.getFieldsCons,
        Json.getFieldsNil,String.reduceEq,if_true,if_false,Option.or_none] using ref
  have states : assignAll (statesIn "" (.object (assignAll (statesJson d.states)))) =
      assignAll (mapValues (fun key state => parseStateNode key "" (stateJson state)) d.states) := by
    rw [statesIn,parseStatesMap,statesJsonMap]
    exact assignTwice (fun _ => stateJson) (fun key value => parseStateNode key "" value) (keyedUnique keyed.unique)
  rw [parsedDefinition,documentJson]
  simp only [textAt,textsAt,numberAt,Json.propObject,Json.getFieldsCons,Json.getFieldsNil,String.reduceEq,if_true,if_false,Option.or_none,
    readText,readNumber,readSomeTexts,hooks,Option.elim_some,states,readDefaults admitted.1.1.1.1.1.2]
  rw [described,RawDefinition.mk.injEq]
  refine ⟨rfl,rfl,rfl,type,rfl,?_,rfl,rfl,rfl,rfl,rfl⟩
  exact congrArg₂ RegistryBindingIR.mk (readRegistry d.registry).1 (congrArg (Option.getD · true) (readRegistry d.registry).2)

theorem thinStates (states : List (String × StateDescription)) (node : String → String → StateDescription → WrittenNode)
    (unique : (Keyed.keys states).Nodup) (raw : RawDefinition PartialTransitionPolicy)
    (own : raw.states = assignAll (mapValues (fun key state => node key "" state) states))
    (accepted : Objects.definitionIssues (thin raw) = .ok []) :
    ∀ e ∈ states, Objects.Checked (injectErrorState (thin raw)).toRawMachine (thinNode (node e.1 "" e.2)) := by
  intro e mem
  have keys : (Keyed.keys (mapValues (fun key state => node key "" state) states)).Nodup := by rwa [Keyed.mapValuesKeys]
  have here : (e.1,thinNode (node e.1 "" e.2)) ∈ (thin raw).states := by
    change _ ∈ thinNodes raw.states
    rw [own,thinNodesMap]
    refine List.mem_map.mpr ⟨(e.1,node e.1 "" e.2),?_,rfl⟩
    exact (assignAllPerm keys).mem_iff.mpr (List.mem_map.mpr ⟨e,mem,rfl⟩)
  refine (Objects.definitionAccepts.mp accepted).2.2.2.2.2 (e.1,thinNode (node e.1 "" e.2)) ?_
  unfold injectErrorState
  dsimp only
  split
  · exact here
  · rename_i free
    rw [Keyed.set,if_neg free]
    exact (Keyed.insertPerm _ _ _).mem_iff.mpr (List.mem_cons_of_mem _ here)

end

/-- Both front ends fail, or give definitions that only differ in their source. -/
def Agree (parsed : Except ParseError (MachineDefinition PartialTransitionPolicy))
    (built : Except Objects.DefinitionError (MachineDefinition PartialTransitionPolicy)) : Prop :=
  (∃ e e', parsed = .error e ∧ built = .error e') ∨
    ∃ definition : MachineDefinition PartialTransitionPolicy, parsed = .ok { definition with source := .yaml } ∧ built = .ok { definition with source := .builder }

theorem finalizedOk {raw : RawDefinition PartialTransitionPolicy} {source : MachineSource}
    (accepted : Objects.definitionIssues (thin raw) = .ok []) : finalizeAndValidateMachineIR raw source = .ok (finalized raw source) := by
  rw [finalizeAndValidateMachineIR,accepted]

theorem finalizedFails {raw : RawDefinition PartialTransitionPolicy} (source : MachineSource)
    (refused : Objects.definitionIssues (thin raw) ≠ .ok []) : ∃ e, finalizeAndValidateMachineIR raw source = .error e := by
  unfold finalizeAndValidateMachineIR
  split
  · contradiction
  · exact ⟨_,rfl⟩
  · exact ⟨_,rfl⟩

theorem parsedDocument (d : MachineDescription) : parseDocument (documentJson d) =
    if DFSM_V1_SCHEMA (documentJson d) then (finalizeAndValidateMachineIR (parsedDefinition (documentJson d)) .yaml).mapError .definition
    else .error .schema := by
  have context (fs : List (String × Json)) (silent : Keyed.get fs "context" = none) : parseDocument (.object fs) =
      if DFSM_V1_SCHEMA (.object fs) then (finalizeAndValidateMachineIR (parsedDefinition (.object fs)) .yaml).mapError .definition
      else .error .schema := by
    rw [parseDocument,Keyed.has,silent]
    rfl
  refine context _ ?_
  simp only [Json.getFieldsCons,Json.getFieldsNil,String.reduceEq,if_false]

/-- A machine of one state that retries without an attempt. -/
def retrying (maxAttempts : ℚ) : MachineDescription where
  id := "once"
  kind := .compound (some "done") false
  defaults := some { retry := some { maxAttempts := some maxAttempts } }
  states := [("done",{ kind := .final })]

end Dfsm.Complete
