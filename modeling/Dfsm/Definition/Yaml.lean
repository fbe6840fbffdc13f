import Dfsm.Definition.Description

/-! `parseYamlMachine`: the schema of documents, what is read from a document that passes it,
and both for the document of a description. -/
namespace Dfsm.Complete
open Keyed (Record mapValues)
open Policy (BackoffStrategy)
open Json (Check isText isFilled isFlag among atLeast isInteger listOf oneOf closed)

/-! The schema. -/

def BackoffConfigSchema : Check := closed [
  ("strategy",among ["fixed","linear","exponential","exponential_jitter"]),
  ("initialDelayMs",atLeast 0),
  ("maxDelayMs",atLeast 0),
  ("multiplier",atLeast 1)]

def RetryConfigSchema : Check := closed [("maxAttempts",isInteger 1),("backoff",BackoffConfigSchema)]

def CircuitBreakerConfigSchema : Check := closed [
  ("enabled",isFlag),
  ("key",isFilled),
  ("failureThreshold",isInteger 1),
  ("slidingWindowSize",isInteger 1),
  ("openDurationMs",isInteger 1),
  ("halfOpenMaxCalls",isInteger 1)]

def OnFailConfigSchema : Check := closed [("compensate",isFlag),("target",isFilled)]

def BenchmarkConfigSchema : Check := closed [("enabled",isFlag)]

def sectionSchemas : List (String × Check) := [
  ("retry",RetryConfigSchema),
  ("circuitBreaker",CircuitBreakerConfigSchema),
  ("onFail",OnFailConfigSchema),
  ("benchmark",BenchmarkConfigSchema)]

def TransitionPolicySchema : Check := closed sectionSchemas

def TransitionDefinitionSchema : Check := oneOf [isFilled,closed ([
  ("target",isFilled),
  ("transition",isFilled),
  ("compensate",isFilled),
  ("effects",listOf 0 isFilled),
  ("description",isText)] ++ sectionSchemas)]

def onSchema : Check
  | .object entries => entries.all (fun e => TransitionDefinitionSchema e.2)
  | _ => false

/-- The properties of a state but for `states`. -/
def stateProperties : List (String × Check) := [
  ("type",among ["atomic","compound","parallel","final"]),
  ("description",isText),
  ("initial",isFilled),
  ("entry",listOf 0 isFilled),
  ("exit",listOf 0 isFilled),
  ("on",onSchema),
  ("onDone",TransitionDefinitionSchema)]

mutual
def StateNodeSchema : Json → Bool
  | .object entries => stateEntries entries
  | _ => false
def stateEntries : List (String × Json) → Bool
  | [] => true
  | (key,value)::rest => (if key = "states" then statesSchema value else Json.checkOf stateProperties key value) && stateEntries rest
def statesSchema : Json → Bool
  | .object entries => !entries.isEmpty && allStates entries
  | _ => false
def allStates : List (String × Json) → Bool
  | [] => true
  | (_,value)::rest => StateNodeSchema value && allStates rest
end

def HookHandlerRefSchema : Check := oneOf [isFilled,listOf 1 isFilled]

def MachineHooksConfigSchema : Check := closed (hookSlots.map (fun slot => (hookName slot,HookHandlerRefSchema)))

def idSchema : Check
  | .text id => idMatches id
  | _ => false

def DFSM_V1_SCHEMA (document : Json) : Bool :=
  (document.prop "dfsm").isSome && (document.prop "id").isSome && (document.prop "states").isSome && closed [
    ("dfsm",among ["1.0"]),
    ("id",idSchema),
    ("version",isText),
    ("description",isText),
    ("type",among ["compound","parallel"]),
    ("initial",isFilled),
    ("registry",closed [("namespace",isFilled),("strict",isFlag)]),
    ("defaults",TransitionPolicySchema),
    ("hooks",MachineHooksConfigSchema),
    ("effects",listOf 0 isFilled),
    ("maxEffectChainDepth",isInteger 1),
    ("states",statesSchema)] document

/-! What is read. -/

def strategyOf (text : String) : Option BackoffStrategy :=
  [.fixed,.linear,.exponential,.exponential_jitter].find? (fun strategy => strategyText strategy = text)

def typeOf (text : String) : Option StateNodeType :=
  [.atomic,.compound,.parallel,.final].find? (fun type => typeText type = text)

def textAt (raw : Json) (key : String) : Option String := (raw.prop key).bind Json.asText
def flagAt (raw : Json) (key : String) : Option Bool := (raw.prop key).bind Json.asFlag
def numberAt (raw : Json) (key : String) : Option ℚ := (raw.prop key).bind Json.asNumber
def textsAt (raw : Json) (key : String) : List String := (raw.prop key).elim [] Json.texts

def extractBackoff (raw : Json) : BackoffConfig where
  strategy := (textAt raw "strategy").bind strategyOf
  initialDelayMs := numberAt raw "initialDelayMs"
  maxDelayMs := numberAt raw "maxDelayMs"
  multiplier := numberAt raw "multiplier"

def extractRetry (raw : Json) : RetryConfig where
  maxAttempts := numberAt raw "maxAttempts"
  backoff := (raw.prop "backoff").map extractBackoff

def extractCircuitBreaker (raw : Json) : CircuitBreakerConfig where
  enabled := flagAt raw "enabled"
  key := textAt raw "key"
  failureThreshold := numberAt raw "failureThreshold"
  slidingWindowSize := numberAt raw "slidingWindowSize"
  openDurationMs := numberAt raw "openDurationMs"
  halfOpenMaxCalls := numberAt raw "halfOpenMaxCalls"

def extractOnFail (raw : Json) : OnFailConfig where
  compensate := flagAt raw "compensate"
  target := textAt raw "target"

def extractBenchmark (raw : Json) : BenchmarkConfig where
  enabled := flagAt raw "enabled"

def extractPolicy (raw : Json) : PartialTransitionPolicy where
  retry := (raw.prop "retry").map extractRetry
  circuitBreaker := (raw.prop "circuitBreaker").map extractCircuitBreaker
  onFail := (raw.prop "onFail").map extractOnFail
  benchmark := (raw.prop "benchmark").map extractBenchmark
  compensateHandler := textAt raw "compensate"

def parseTransitionEdge (event : String) (rawDef : Json) : WrittenEdge :=
  match rawDef.asText with
  | some target => { event, target := some target, policy := {} }
  | none => {
      event
      target := textAt rawDef "target"
      transition := textAt rawDef "transition"
      compensate := textAt rawDef "compensate"
      effects := textsAt rawDef "effects"
      description := textAt rawDef "description"
      policy := extractPolicy rawDef }

def onEdges : Option Json → Record WrittenEdge
  | some (.object entries) => assignAll (mapValues parseTransitionEdge entries)
  | _ => []

def hasChildren : Option Json → Bool
  | some (.object entries) => !entries.isEmpty
  | _ => false

mutual
def parseStateNode (key parentPath : String) : Json → WrittenNode
  | .object entries =>
    let rawNode := Json.object entries
    { key
      path := childPath parentPath key
      type := ((textAt rawNode "type").bind typeOf).getD (if hasChildren (rawNode.prop "states") then .compound else .atomic)
      description := textAt rawNode "description"
      initial := textAt rawNode "initial"
      entry := textsAt rawNode "entry"
      exit := textsAt rawNode "exit"
      on := onEdges (rawNode.prop "on")
      onDone := (rawNode.prop "onDone").map (parseTransitionEdge "$onDone")
      states := assignAll (childStates (childPath parentPath key) entries) }
  | _ => { key, path := childPath parentPath key, type := .atomic }
def childStates (path : String) : List (String × Json) → List (String × WrittenNode)
  | [] => []
  | (key,value)::rest => if key = "states" then statesIn path value else childStates path rest
def statesIn (path : String) : Json → List (String × WrittenNode)
  | .object entries => parseStates path entries
  | _ => []
def parseStates (path : String) : List (String × Json) → List (String × WrittenNode)
  | [] => []
  | (key,value)::rest => (key,parseStateNode key path value)::parseStates path rest
end

def toStringList : Option Json → List String
  | some (.text name) => [name]
  | some (.list items) => items.filterMap Json.asText
  | _ => []

def extractHooks (rawHooks : Option Json) : MachineHooksIR := fun slot => toStringList (rawHooks.bind (·.prop (hookName slot)))

def machineTypeOf (text : String) : Option MachineType :=
  if text = "compound" then some .compound else if text = "parallel" then some .parallel else none

/-- What `parseYamlMachine` hands to validation. -/
def parsedDefinition (record : Json) : RawDefinition PartialTransitionPolicy where
  id := (textAt record "id").getD ""
  version := (textAt record "version").getD "1.0.0"
  description := textAt record "description"
  type := ((textAt record "type").bind machineTypeOf).getD .compound
  initial := textAt record "initial"
  registry := {
    namespaceName := (record.prop "registry").bind (textAt · "namespace")
    strict := ((record.prop "registry").bind (flagAt · "strict")).getD true }
  defaults := (record.prop "defaults").elim {} extractPolicy
  hooks := extractHooks (record.prop "hooks")
  effects := textsAt record "effects"
  maxEffectChainDepth := numberAt record "maxEffectChainDepth"
  states := (record.prop "states").elim [] (fun states => assignAll (statesIn "" states))

/-! What the schema admits of a description. -/

def filled (text : Option String) : Bool := text.all (· != "")

def delay (least : ℚ) (ms : Option ℚ) : Bool := ms.all (fun n => decide (least ≤ n))

def counted (n : Option ℚ) : Bool := n.all (fun n => n.isInt && decide (1 ≤ n))

def named (names : List String) : Bool := names.all (· != "")

def BackoffConfig.admitted (backoff : BackoffConfig) : Bool :=
  delay 0 backoff.initialDelayMs && delay 0 backoff.maxDelayMs && delay 1 backoff.multiplier

def RetryConfig.admitted (retry : RetryConfig) : Bool := counted retry.maxAttempts && retry.backoff.all (·.admitted)

def CircuitBreakerConfig.admitted (breaker : CircuitBreakerConfig) : Bool :=
  filled breaker.key && counted breaker.failureThreshold && counted breaker.slidingWindowSize && counted breaker.openDurationMs &&
    counted breaker.halfOpenMaxCalls

def PolicySections.admitted (sections : PolicySections) : Bool :=
  sections.retry.all (·.admitted) && sections.circuitBreaker.all (·.admitted) && sections.onFail.all (filled ·.target)

def TransitionDescription.admitted : TransitionDescription → Bool
  | .short target => target != ""
  | .long edge => filled edge.target && filled edge.transition && filled edge.compensate && edge.effects.all named &&
      edge.toPolicySections.admitted

mutual
def StateDescription.admitted : StateDescription → Bool
  | { kind, description := _, entry, exit, on, onDone, states } =>
    filled kind.initial && named entry && named exit && on.all (·.2.admitted) && onDone.all (·.admitted) && statesAdmitted states
def statesAdmitted : List (String × StateDescription) → Bool
  | [] => true
  | (_,state)::rest => state.admitted && statesAdmitted rest
end

def HookRef.admitted : HookRef → Bool
  | .one name => name != ""
  | .many names => !names.isEmpty && named names

/-- A document has no compensation handler among its defaults. -/
def MachineDescription.admitted (d : MachineDescription) : Bool :=
  idMatches d.id && filled d.kind.initial && d.registry.all (filled ·.namespaceName) &&
    d.defaults.all (fun defaults => defaults.toPolicySections.admitted && defaults.compensateHandler.isNone) &&
    hookSlots.all (fun slot => (d.hooks slot).all (·.admitted)) && named d.effects && counted d.maxEffectChainDepth &&
    !d.states.isEmpty && statesAdmitted d.states

section

theorem countedJson (n : Option ℚ) : (n.map Json.number).all (isInteger 1) = counted n := Json.fieldAdmitted (fun _ => rfl) n

theorem delayJson (least : ℚ) (ms : Option ℚ) : (ms.map Json.number).all (atLeast least) = delay least ms := Json.fieldAdmitted (fun _ => rfl) ms

theorem filledJson (text : Option String) : (text.map Json.text).all isFilled = filled text := Json.fieldAdmitted (fun _ => rfl) text

theorem flagJson (flag : Option Bool) : (flag.map Json.flag).all isFlag = true := by
  cases flag <;> rfl

theorem textJson (text : Option String) : (text.map Json.text).all isText = true := by
  cases text <;> rfl

theorem namedJson (names : List String) : listOf 0 isFilled (textsJson names) = named names := by
  simp [listOf,textsJson,named,List.all_map,Function.comp_def,isFilled]

theorem someTextsJson (names : List String) : (someTexts names).all (listOf 0 isFilled) = named names := by
  unfold someTexts
  split
  · rename_i empty
    rw [List.isEmpty_iff.mp empty]
    rfl
  · exact namedJson names

theorem backoffAdmitted (backoff : BackoffConfig) : BackoffConfigSchema (backoffJson backoff) = backoff.admitted := by
  have strategy : (backoff.strategy.map (.text ∘ strategyText)).all
      (among ["fixed","linear","exponential","exponential_jitter"]) = true := by
    rcases backoff.strategy with _ | (_ | _) <;> rfl
  simp only [BackoffConfigSchema,backoffJson,Json.closedCons,Json.closedNil,Json.checkOfCons]
  simp [strategy,delayJson,BackoffConfig.admitted,Bool.and_assoc]

theorem retryAdmitted (retry : RetryConfig) : RetryConfigSchema (retryJson retry) = retry.admitted := by
  simp only [RetryConfigSchema,retryJson,Json.closedCons,Json.closedNil,Json.checkOfCons]
  simp [countedJson,Json.fieldAdmitted backoffAdmitted,RetryConfig.admitted]

theorem circuitBreakerAdmitted (breaker : CircuitBreakerConfig) :
    CircuitBreakerConfigSchema (circuitBreakerJson breaker) = breaker.admitted := by
  simp only [CircuitBreakerConfigSchema,circuitBreakerJson,Json.closedCons,Json.closedNil,Json.checkOfCons]
  simp [countedJson,filledJson,flagJson,CircuitBreakerConfig.admitted,Bool.and_assoc]

theorem onFailAdmitted (onFail : OnFailConfig) : OnFailConfigSchema (onFailJson onFail) = filled onFail.target := by
  simp only [OnFailConfigSchema,onFailJson,Json.closedCons,Json.closedNil,Json.checkOfCons]
  simp [filledJson,flagJson]

theorem benchmarkAdmitted (benchmark : BenchmarkConfig) : BenchmarkConfigSchema (benchmarkJson benchmark) = true := by
  simp only [BenchmarkConfigSchema,benchmarkJson,Json.closedCons,Json.closedNil,Json.checkOfCons]
  simp [flagJson]

theorem sectionsAdmitted {properties : List (String × Check)} (declared : ∀ e ∈ sectionSchemas, Json.checkOf properties e.1 = e.2)
    (sections : PolicySections) (fs : List (String × Option Json)) : closed properties (.object (Json.fields (sectionFields sections ++ fs))) =
      (sections.admitted && closed properties (.object (Json.fields fs))) := by
  have benchmark : (sections.benchmark.map benchmarkJson).all BenchmarkConfigSchema = true := by
    rw [Json.fieldAdmitted benchmarkAdmitted]
    cases sections.benchmark <;> rfl
  simp only [sectionSchemas,List.forall_mem_cons] at declared
  obtain ⟨retrySchema,breakerSchema,onFailSchema,benchmarkSchema,_⟩ := declared
  simp only [sectionFields,List.cons_append,List.nil_append,Json.closedCons,retrySchema,breakerSchema,onFailSchema,benchmarkSchema,
    Json.fieldAdmitted retryAdmitted,Json.fieldAdmitted circuitBreakerAdmitted,Json.fieldAdmitted onFailAdmitted,benchmark,
    PolicySections.admitted,Bool.true_and,Bool.and_assoc]

theorem policyAdmitted (policy : PartialTransitionPolicy) : TransitionPolicySchema (policyJson policy) =
    (policy.toPolicySections.admitted && policy.compensateHandler.isNone) := by
  have undeclared : ∀ value, Json.checkOf sectionSchemas "compensate" value = false := fun _ => rfl
  rw [TransitionPolicySchema,policyJson,sectionsAdmitted (by simp [sectionSchemas]),Json.closedCons,Json.closedNil]
  cases policy.compensateHandler with
  | none => rfl
  | some name => simp [undeclared]

theorem edgeAdmitted (edge : TransitionDescription) : TransitionDefinitionSchema (edgeJson edge) = edge.admitted := by
  rw [TransitionDefinitionSchema,Json.oneOfTwo]
  cases edge with
  | short target => exact Bool.xor_false _
  | long edge =>
    have noText (entries : List (String × Json)) : isFilled (.object entries) = false := rfl
    rw [edgeJson,noText,Bool.false_xor,sectionsAdmitted (by simp [sectionSchemas])]
    simp only [Json.closedCons,Json.closedNil,Json.checkOfCons,List.cons_append,List.nil_append]
    simp only [if_true,if_false,String.reduceEq,filledJson,textJson,Json.fieldAdmitted namedJson,TransitionDescription.admitted]
    rw [Bool.and_comm,Bool.and_true,Bool.and_true]
    simp only [Bool.and_assoc]

mutual
/-- Each mapping names each key once, as every mapping of a document does. -/
def StateDescription.keyed : StateDescription → Bool
  | { kind := _, description := _, entry := _, exit := _, on, onDone := _, states } =>
    Document.uniqueKeys on && Document.uniqueKeys states && statesKeyed states
def statesKeyed : List (String × StateDescription) → Bool
  | [] => true
  | (_,state)::rest => state.keyed && statesKeyed rest
end

theorem keyedUnique {α : Type} {entries : Record α} (unique : Document.uniqueKeys entries = true) : (Keyed.keys entries).Nodup := by
  rw [Document.uniqueKeys,Bool.and_eq_true] at unique
  exact of_decide_eq_true unique.1

theorem statesJsonMap (states : List (String × StateDescription)) : statesJson states = mapValues (fun _ => stateJson) states := by
  induction states with
  | nil => rfl
  | cons e rest ih =>
    rw [statesJson,ih]
    rfl

theorem allStatesAll (entries : List (String × Json)) : allStates entries = entries.all (StateNodeSchema ·.2) := by
  induction entries with
  | nil => rfl
  | cons e rest ih => rw [allStates,ih,List.all_cons]

theorem stateEntriesCons (key : String) (value : Option Json) (fs : List (String × Option Json)) :
    stateEntries (Json.fields ((key,value)::fs)) =
      (value.all (if key = "states" then statesSchema else Json.checkOf stateProperties key) && stateEntries (Json.fields fs)) := by
  cases value with
  | none => rfl
  | some v =>
    change stateEntries ((key,v)::Json.fields fs) = _
    rw [stateEntries,Option.all_some]
    split <;> rfl

theorem assignedAll {α : Type} {entries : Record α} (unique : (Keyed.keys entries).Nodup) (check : String × α → Bool) :
    (assignAll entries).all check = entries.all check := (assignAllPerm unique).all_eq

theorem assignedEmpty {α : Type} {entries : Record α} (unique : (Keyed.keys entries).Nodup) : (assignAll entries).isEmpty = entries.isEmpty := by
  rw [Bool.eq_iff_iff,List.isEmpty_iff,List.isEmpty_iff]
  constructor
  · intro none_
    have same := assignAllPerm unique
    rw [none_] at same
    exact same.nil_eq.symm
  · rintro rfl
    rfl

theorem onJson {on : List (String × TransitionDescription)} (unique : (Keyed.keys on).Nodup) :
    (mappingJson (mapValues (fun _ => edgeJson) on)).all onSchema = on.all (·.2.admitted) := by
  unfold mappingJson
  split
  · rename_i empty
    rw [List.map_eq_nil_iff.mp (List.isEmpty_iff.mp empty)]
    rfl
  · rw [Option.all_some,onSchema,assignedAll (by rwa [Keyed.mapValuesKeys]),mapValues,List.all_map]
    exact congrArg on.all (funext (fun e => edgeAdmitted e.2))

mutual
theorem stateAdmitted : (state : StateDescription) → state.keyed = true → StateNodeSchema (stateJson state) = state.admitted
  | { kind, description, entry, exit, on, onDone, states }, keyed => by
    rw [StateDescription.keyed,Bool.and_eq_true,Bool.and_eq_true] at keyed
    have type : (kind.typeText.map Json.text).all (among ["atomic","compound","parallel","final"]) = true := by
      rcases kind with (_ | _) | ⟨initial,(_ | _)⟩ | _ | _ <;> rfl
    have below : (mappingJson (statesJson states)).all statesSchema = statesAdmitted states := by
      have all := statesAdmittedAll states keyed.2
      have unique := keyedUnique keyed.1.2
      unfold mappingJson
      split
      · rename_i empty
        rw [statesJsonMap] at empty
        rw [List.map_eq_nil_iff.mp (List.isEmpty_iff.mp empty)]
        rfl
      · rename_i some_
        rw [Option.all_some,statesSchema,allStatesAll,assignedAll,assignedEmpty,← allStatesAll,all,Bool.eq_false_of_not_eq_true some_,
          Bool.not_false,Bool.true_and]
        · rwa [statesJsonMap,Keyed.mapValuesKeys]
        · rwa [statesJsonMap,Keyed.mapValuesKeys]
    rw [stateJson,StateNodeSchema,StateDescription.admitted]
    simp only [stateEntriesCons,stateProperties,Json.checkOfCons,String.reduceEq,if_true,if_false,type,textJson,filledJson,someTextsJson,
      onJson (keyedUnique keyed.1.1),Json.fieldAdmitted edgeAdmitted,below,Bool.true_and]
    rw [show stateEntries (Json.fields []) = true from rfl,Bool.and_true]
    simp only [Bool.and_assoc]
theorem statesAdmittedAll : (states : List (String × StateDescription)) → statesKeyed states = true →
    allStates (statesJson states) = statesAdmitted states
  | [], _ => rfl
  | (key,state)::rest, keyed => by
    rw [statesKeyed,Bool.and_eq_true] at keyed
    rw [statesJson,allStates,statesAdmitted,stateAdmitted state keyed.1,statesAdmittedAll rest keyed.2]
end

theorem hookAdmitted (ref : HookRef) : HookHandlerRefSchema (hookJson ref) = ref.admitted := by
  rw [HookHandlerRefSchema,Json.oneOfTwo]
  cases ref with
  | one name => exact Bool.xor_false _
  | many names =>
    cases names with
    | nil => rfl
    | cons name rest =>
      simp [hookJson,textsJson,isFilled,listOf,HookRef.admitted,named,List.all_map,Function.comp_def]

theorem hooksAdmitted (hooks : LifecycleHookName → Option HookRef) :
    MachineHooksConfigSchema (hooksJson hooks) = hookSlots.all (fun slot => (hooks slot).all (·.admitted)) := by
  simp only [MachineHooksConfigSchema,hooksJson,hookSlots,List.map_cons,List.map_nil,hookName,Json.closedCons,Json.closedNil,
    Json.checkOfCons,String.reduceEq,if_true,if_false,Json.fieldAdmitted hookAdmitted,List.all_cons,List.all_nil]

structure MachineDescription.Keyed (d : MachineDescription) : Prop where
  unique : Document.uniqueKeys d.states = true
  below : statesKeyed d.states = true

theorem documentAdmitted {d : MachineDescription} (keyed : d.Keyed) : DFSM_V1_SCHEMA (documentJson d) = d.admitted := by
  have type : (d.kind.typeText.map Json.text).all (among ["compound","parallel"]) = true := by
    rcases d.kind with ⟨initial,(_ | _)⟩ | _ <;> rfl
  have registry : (d.registry.map registryJson).all (closed [("namespace",isFilled),("strict",isFlag)]) =
      d.registry.all (filled ·.namespaceName) := by
    refine Json.fieldAdmitted (fun registry => ?_) d.registry
    simp only [registryJson,Json.closedCons,Json.closedNil,Json.checkOfCons,String.reduceEq,if_true,if_false,filledJson,flagJson,
      Bool.and_true]
  have unique : (Keyed.keys (statesJson d.states)).Nodup := by
    rw [statesJsonMap,Keyed.mapValuesKeys]
    exact keyedUnique keyed.unique
  have states : statesSchema (.object (assignAll (statesJson d.states))) = (!d.states.isEmpty && statesAdmitted d.states) := by
    rw [statesSchema,allStatesAll,assignedAll unique,assignedEmpty unique,← allStatesAll,statesAdmittedAll d.states keyed.below]
    rw [statesJsonMap,mapValues,List.isEmpty_map]
  have constant : (some (Json.text "1.0")).all (among ["1.0"]) = true := rfl
  have id : (some (Json.text d.id)).all idSchema = idMatches d.id := rfl
  rw [DFSM_V1_SCHEMA,documentJson]
  simp only [Json.propObject,Json.getFieldsCons,Json.closedCons,Json.closedNil,Json.checkOfCons,String.reduceEq,if_true,if_false,
    Option.some_or,Option.isSome_some,constant,id,textJson,type,filledJson,registry,Json.fieldAdmitted policyAdmitted,someTextsJson,
    countedJson,Option.all_some,hooksAdmitted,states,Bool.true_and,Bool.and_true]
  rw [MachineDescription.admitted]
  simp only [Bool.and_assoc]

end

end Dfsm.Complete
