import Dfsm.Definition.Yaml
import Dfsm.Policy.Layering
import Dfsm.Lib.Yaml

/-! The policies that the editor shows for a transition, against those of the runtime. -/
namespace Dfsm.Extension
open Yaml (Texts written isMap asScalar)
open Policy (BackoffStrategy)
open Complete (PolicySections strategyText strategyOf)

/-! The document tree as the editor reads it. -/

section
variable (texts : Texts)

def readStringScalar (node : Option Yaml) : Option String :=
  match node.bind asScalar with
  | some (.text value) => some value
  | _ => none

def readBooleanScalar (node : Option Yaml) : Option Bool :=
  match node.bind asScalar with
  | some (.flag value) => some value
  | _ => none

def readNumberScalar (node : Option Yaml) : Option ℚ :=
  match node.bind asScalar with
  | some (.number value) => some value
  | _ => none

def readStringArray : Option Yaml → List String
  | some (.seq items) => items.filterMap (fun item => readStringScalar (some item))
  | _ => []

/-- The value of a pair, where it is a map. -/
def mapAt (map : Yaml) (key : String) : Option Yaml := (written texts map key).filter isMap

def readBackoff (map : Yaml) : Complete.BackoffConfig where
  strategy := (readStringScalar (written texts map "strategy")).bind strategyOf
  initialDelayMs := readNumberScalar (written texts map "initialDelayMs")
  maxDelayMs := readNumberScalar (written texts map "maxDelayMs")
  multiplier := readNumberScalar (written texts map "multiplier")

def parsePolicyFromMap (map : Yaml) : PolicySections where
  retry := (mapAt texts map "retry").map (fun retryMap => {
    maxAttempts := readNumberScalar (written texts retryMap "maxAttempts")
    backoff := (mapAt texts retryMap "backoff").map (readBackoff texts) })
  circuitBreaker := (mapAt texts map "circuitBreaker").map (fun cbMap => {
    enabled := readBooleanScalar (written texts cbMap "enabled")
    key := readStringScalar (written texts cbMap "key")
    failureThreshold := readNumberScalar (written texts cbMap "failureThreshold")
    slidingWindowSize := readNumberScalar (written texts cbMap "slidingWindowSize")
    openDurationMs := readNumberScalar (written texts cbMap "openDurationMs")
    halfOpenMaxCalls := readNumberScalar (written texts cbMap "halfOpenMaxCalls") })
  onFail := (mapAt texts map "onFail").map (fun ofMap => {
    compensate := readBooleanScalar (written texts ofMap "compensate")
    target := readStringScalar (written texts ofMap "target") })
  benchmark := (mapAt texts map "benchmark").bind (fun bMap =>
    (readBooleanScalar (written texts bMap "enabled")).map (fun enabled => { enabled := some enabled }))

end

/-! The merge of two layers into the SDK's defaults. -/

structure NormalizedTransitionPolicy where
  maxAttempts : ℚ
  strategy : BackoffStrategy
  initialDelayMs : ℚ
  maxDelayMs : ℚ
  multiplier : ℚ
  enabled : Bool
  key : Option String
  failureThreshold : ℚ
  slidingWindowSize : ℚ
  openDurationMs : ℚ
  halfOpenMaxCalls : ℚ
  compensate : Bool
  target : String
  benchmark : Bool

def SDK_DEFAULT_POLICY : NormalizedTransitionPolicy where
  maxAttempts := 1
  strategy := .exponential
  initialDelayMs := 100
  maxDelayMs := 5000
  multiplier := 2
  enabled := false
  key := none
  failureThreshold := 5
  slidingWindowSize := 10
  openDurationMs := 30000
  halfOpenMaxCalls := 1
  compensate := false
  target := "error"
  benchmark := true

/-- The fields that sources are named for. -/
inductive Leaf where
  | maxAttempts | strategy | initialDelayMs | maxDelayMs | multiplier
  | enabled | key | failureThreshold | slidingWindowSize | openDurationMs | halfOpenMaxCalls
  | compensate | target | benchmark
  deriving DecidableEq

inductive PolicyLayerSource where
  | sdk | defaults | transition
  deriving DecidableEq

/-- Where a field stands in a policy. -/
def Leaf.path : Leaf → List String
  | .maxAttempts => ["retry","maxAttempts"]
  | .strategy => ["retry","backoff","strategy"]
  | .initialDelayMs => ["retry","backoff","initialDelayMs"]
  | .maxDelayMs => ["retry","backoff","maxDelayMs"]
  | .multiplier => ["retry","backoff","multiplier"]
  | .enabled => ["circuitBreaker","enabled"]
  | .key => ["circuitBreaker","key"]
  | .failureThreshold => ["circuitBreaker","failureThreshold"]
  | .slidingWindowSize => ["circuitBreaker","slidingWindowSize"]
  | .openDurationMs => ["circuitBreaker","openDurationMs"]
  | .halfOpenMaxCalls => ["circuitBreaker","halfOpenMaxCalls"]
  | .compensate => ["onFail","compensate"]
  | .target => ["onFail","target"]
  | .benchmark => ["benchmark","enabled"]

/-- What a layer sets, field by field. -/
def leafOf (layer : PolicySections) : Leaf → Option YamlScalar
  | .maxAttempts => (layer.retry.bind (·.maxAttempts)).map .number
  | .strategy => ((layer.retry.bind (·.backoff)).bind (·.strategy)).map (.text ∘ strategyText)
  | .initialDelayMs => ((layer.retry.bind (·.backoff)).bind (·.initialDelayMs)).map .number
  | .maxDelayMs => ((layer.retry.bind (·.backoff)).bind (·.maxDelayMs)).map .number
  | .multiplier => ((layer.retry.bind (·.backoff)).bind (·.multiplier)).map .number
  | .enabled => (layer.circuitBreaker.bind (·.enabled)).map .flag
  | .key => (layer.circuitBreaker.bind (·.key)).map .text
  | .failureThreshold => (layer.circuitBreaker.bind (·.failureThreshold)).map .number
  | .slidingWindowSize => (layer.circuitBreaker.bind (·.slidingWindowSize)).map .number
  | .openDurationMs => (layer.circuitBreaker.bind (·.openDurationMs)).map .number
  | .halfOpenMaxCalls => (layer.circuitBreaker.bind (·.halfOpenMaxCalls)).map .number
  | .compensate => (layer.onFail.bind (·.compensate)).map .flag
  | .target => (layer.onFail.bind (·.target)).map .text
  | .benchmark => (layer.benchmark.bind (·.enabled)).map .flag

def NormalizedTransitionPolicy.leaf (policy : NormalizedTransitionPolicy) : Leaf → Option YamlScalar
  | .maxAttempts => some (.number policy.maxAttempts)
  | .strategy => some (.text (strategyText policy.strategy))
  | .initialDelayMs => some (.number policy.initialDelayMs)
  | .maxDelayMs => some (.number policy.maxDelayMs)
  | .multiplier => some (.number policy.multiplier)
  | .enabled => some (.flag policy.enabled)
  | .key => policy.key.map .text
  | .failureThreshold => some (.number policy.failureThreshold)
  | .slidingWindowSize => some (.number policy.slidingWindowSize)
  | .openDurationMs => some (.number policy.openDurationMs)
  | .halfOpenMaxCalls => some (.number policy.halfOpenMaxCalls)
  | .compensate => some (.flag policy.compensate)
  | .target => some (.text policy.target)
  | .benchmark => some (.flag policy.benchmark)

structure MergedPolicyResult where
  policy : NormalizedTransitionPolicy
  sources : Leaf → Option PolicyLayerSource

/-- Each field that the layer sets is taken over, and the layer named as its source. -/
def applyLayer (merged : MergedPolicyResult) (layer : PolicySections) (layerName : PolicyLayerSource) : MergedPolicyResult where
  policy := {
    maxAttempts := (layer.retry.bind (·.maxAttempts)).getD merged.policy.maxAttempts
    strategy := ((layer.retry.bind (·.backoff)).bind (·.strategy)).getD merged.policy.strategy
    initialDelayMs := ((layer.retry.bind (·.backoff)).bind (·.initialDelayMs)).getD merged.policy.initialDelayMs
    maxDelayMs := ((layer.retry.bind (·.backoff)).bind (·.maxDelayMs)).getD merged.policy.maxDelayMs
    multiplier := ((layer.retry.bind (·.backoff)).bind (·.multiplier)).getD merged.policy.multiplier
    enabled := (layer.circuitBreaker.bind (·.enabled)).getD merged.policy.enabled
    key := (layer.circuitBreaker.bind (·.key)).or merged.policy.key
    failureThreshold := (layer.circuitBreaker.bind (·.failureThreshold)).getD merged.policy.failureThreshold
    slidingWindowSize := (layer.circuitBreaker.bind (·.slidingWindowSize)).getD merged.policy.slidingWindowSize
    openDurationMs := (layer.circuitBreaker.bind (·.openDurationMs)).getD merged.policy.openDurationMs
    halfOpenMaxCalls := (layer.circuitBreaker.bind (·.halfOpenMaxCalls)).getD merged.policy.halfOpenMaxCalls
    compensate := (layer.onFail.bind (·.compensate)).getD merged.policy.compensate
    target := (layer.onFail.bind (·.target)).getD merged.policy.target
    benchmark := (layer.benchmark.bind (·.enabled)).getD merged.policy.benchmark }
  sources l := if (leafOf layer l).isSome then some layerName else merged.sources l

def mergeTransitionPolicies (machineDefaults transitionPolicy : Option PolicySections) : MergedPolicyResult :=
  let own : MergedPolicyResult := { policy := SDK_DEFAULT_POLICY, sources := fun l => if l = .key then none else some .sdk }
  let merged := machineDefaults.elim own (applyLayer own · .defaults)
  transitionPolicy.elim merged (applyLayer merged · .transition)

structure ParsedTransition where
  id : String
  event : String
  isOnDone : Bool
  isShorthand : Bool
  sourceStatePath : String
  target : Option String := none
  transition : Option String := none
  compensate : Option String := none
  effects : List String := []
  description : Option String := none
  policy : PolicySections := {}
  effectivePolicy : NormalizedTransitionPolicy
  policySources : Leaf → Option PolicyLayerSource

section
variable (texts : Texts)

/-- From the value of the pair of a transition. -/
def parseTransitionPair (value : Yaml) (eventName : String) (isOnDone : Bool) (sourceStatePath : String)
    (machineDefaults : PolicySections) : ParsedTransition :=
  let id := if isOnDone then sourceStatePath ++ "::onDone" else sourceStatePath ++ "::on::" ++ eventName
  let plain := mergeTransitionPolicies (some machineDefaults) none
  match value with
  | .scalar (.text target) => {
      id, event := eventName, isOnDone, isShorthand := true, sourceStatePath, target := some target
      effectivePolicy := plain.policy, policySources := plain.sources }
  | .map items =>
    let policy := parsePolicyFromMap texts (.map items)
    let merged := mergeTransitionPolicies (some machineDefaults) (some policy)
    { id, event := eventName, isOnDone, isShorthand := false, sourceStatePath
      target := readStringScalar (written texts value "target")
      transition := readStringScalar (written texts value "transition")
      compensate := readStringScalar (written texts value "compensate")
      effects := readStringArray (written texts value "effects")
      description := readStringScalar (written texts value "description")
      policy, effectivePolicy := merged.policy, policySources := merged.sources }
  | _ => {
      id, event := eventName, isOnDone, isShorthand := false, sourceStatePath
      effectivePolicy := plain.policy, policySources := plain.sources }

/-- The defaults that are read from the root. -/
def machineDefaults (root : Yaml) : PolicySections := ((mapAt texts root "defaults").map (parsePolicyFromMap texts)).getD {}

end

/-! Layer by layer and leaf by leaf. -/

theorem appliedLeaf (merged : MergedPolicyResult) (layer : PolicySections) (name : PolicyLayerSource) (l : Leaf) :
    (applyLayer merged layer name).policy.leaf l = (leafOf layer l).or (merged.policy.leaf l) := by
  have set {α : Type} (value : Option α) (own : α) (show_ : α → YamlScalar) :
      some (show_ (value.getD own)) = (value.map show_).or (some (show_ own)) := by
    cases value <;> rfl
  cases l with
  | key =>
    simp only [NormalizedTransitionPolicy.leaf,applyLayer,leafOf]
    cases layer.circuitBreaker.bind (·.key) <;> rfl
  | strategy => exact set _ _ (.text ∘ strategyText)
  | enabled => exact set _ _ .flag
  | compensate => exact set _ _ .flag
  | benchmark => exact set _ _ .flag
  | target => exact set _ _ .text
  | _ => exact set _ _ .number

/-- The highest of two layers that sets a leaf. -/
def highest (transition defaults : Option YamlScalar) : PolicyLayerSource :=
  if transition.isSome then .transition else if defaults.isSome then .defaults else .sdk

theorem mergedLeaves (defaults transition : PolicySections) {l : Leaf} (other : l ≠ .key) :
    (mergeTransitionPolicies (some defaults) (some transition)).policy.leaf l =
      ((leafOf transition l).or (leafOf defaults l)).or (SDK_DEFAULT_POLICY.leaf l) ∧
    (mergeTransitionPolicies (some defaults) (some transition)).sources l =
      some (highest (leafOf transition l) (leafOf defaults l)) := by
  constructor
  · rw [mergeTransitionPolicies,Option.elim_some,Option.elim_some,appliedLeaf,appliedLeaf,Option.or_assoc]
  · simp only [mergeTransitionPolicies,Option.elim_some,applyLayer,highest,if_neg other]
    split
    · rfl
    · split <;> rfl

theorem plainMerge (defaults : PolicySections) : mergeTransitionPolicies (some defaults) none =
    mergeTransitionPolicies (some defaults) (some {}) := by
  have silent (merged : MergedPolicyResult) : applyLayer merged {} .transition = merged := by
    have sources : (fun l => if (leafOf {} l).isSome then some PolicyLayerSource.transition else merged.sources l) = merged.sources := by
      funext l
      cases l <;> rfl
    obtain ⟨policy,_⟩ := merged
    exact congrArg (MergedPolicyResult.mk policy) sources
  exact (silent _).symm

/-! What the editor reads of a leaf: the scalar written at its place. -/

def isNumber : YamlScalar → Bool
  | .number _ => true
  | _ => false

def isFlag : YamlScalar → Bool
  | .flag _ => true
  | _ => false

def isText : YamlScalar → Bool
  | .text _ => true
  | _ => false

def isStrategy : YamlScalar → Bool
  | .text value => (strategyOf value).isSome
  | _ => false

/-- The values that a leaf is read from. -/
def Leaf.reads : Leaf → YamlScalar → Bool
  | .strategy => isStrategy
  | .key | .target => isText
  | .enabled | .compensate | .benchmark => isFlag
  | .maxAttempts | .initialDelayMs | .maxDelayMs | .multiplier | .failureThreshold | .slidingWindowSize | .openDurationMs
  | .halfOpenMaxCalls => isNumber

section
variable (texts : Texts)

/-- What is written at the place of a leaf. -/
def seen (place : List String) (node : Yaml) (l : Leaf) : Option YamlScalar :=
  ((Yaml.writtenAt texts node (place ++ l.path)).bind asScalar).filter l.reads

/-- What stands at the place of a leaf once aliases are followed. -/
def holds (place : List String) (node : Yaml) (l : Leaf) : Option YamlScalar :=
  (Yaml.meantAt texts node (place ++ l.path)).bind (fun value => asScalar (Yaml.resolved value))

theorem strategyBack (value : String) : (strategyOf value).map strategyText = (some value).filter (fun value => (strategyOf value).isSome) := by
  cases found : strategyOf value with
  | none => simp [Option.filter,found]
  | some strategy =>
    have same := List.find?_some found
    have text : strategyText strategy = value := of_decide_eq_true same
    simp [Option.filter,found,text]

theorem readText (node : Option Yaml) : (readStringScalar node).map YamlScalar.text = (node.bind asScalar).filter isText := by
  unfold readStringScalar
  cases node.bind asScalar with
  | none => rfl
  | some value => cases value <;> rfl

theorem readFlag (node : Option Yaml) : (readBooleanScalar node).map YamlScalar.flag = (node.bind asScalar).filter isFlag := by
  unfold readBooleanScalar
  cases node.bind asScalar with
  | none => rfl
  | some value => cases value <;> rfl

theorem readNumber (node : Option Yaml) :
    (readNumberScalar node).map YamlScalar.number = (node.bind asScalar).filter isNumber := by
  unfold readNumberScalar
  cases node.bind asScalar with
  | none => rfl
  | some value => cases value <;> rfl

theorem readStrategy (node : Option Yaml) : ((readStringScalar node).bind strategyOf).map (YamlScalar.text ∘ strategyText) =
    (node.bind asScalar).filter isStrategy := by
  unfold readStringScalar
  cases node.bind asScalar with
  | none => rfl
  | some value =>
    cases value with
    | text value =>
      have back := congrArg (Option.map YamlScalar.text) (strategyBack value)
      rw [Option.map_map] at back
      rw [Option.bind_some,back]
      by_cases known : (strategyOf value).isSome = true
      · simp [Option.filter,isStrategy,known]
      · simp [Option.filter,isStrategy,known]
    | _ => rfl

theorem writtenTwo (node : Yaml) (outer inner : String) :
    Yaml.writtenAt texts node [outer,inner] = (mapAt texts node outer).bind (written texts · inner) := by
  simp only [Yaml.writtenAt,mapAt,Option.bind_fun_some]
  cases written texts node outer with
  | none => rfl
  | some value => cases value <;> rfl

theorem writtenThree (node : Yaml) (outer middle inner : String) :
    Yaml.writtenAt texts node [outer,middle,inner] =
      ((mapAt texts node outer).bind (mapAt texts · middle)).bind (written texts · inner) := by
  have two (value : Yaml) := writtenTwo texts value middle inner
  rw [Yaml.writtenAt]
  simp only [two,mapAt]
  cases written texts node outer with
  | none => rfl
  | some value => cases value <;> rfl

theorem parsedLeaf (map : Yaml) (l : Leaf) : leafOf (parsePolicyFromMap texts map) l = seen texts [] map l := by
  have two (outer inner : String) : Yaml.writtenAt texts map ([] ++ [outer,inner]) = _ := writtenTwo texts map outer inner
  have three (outer middle inner : String) : Yaml.writtenAt texts map ([] ++ [outer,middle,inner]) = _ := writtenThree texts map outer middle inner
  cases l with
  | maxAttempts =>
    rw [seen,Leaf.path,two]
    simp only [leafOf,parsePolicyFromMap]
    cases mapAt texts map "retry" with
    | none => rfl
    | some retryMap => exact readNumber _
  | strategy =>
    rw [seen,Leaf.path,three]
    simp only [leafOf,parsePolicyFromMap]
    cases mapAt texts map "retry" with
    | none => rfl
    | some retryMap =>
      simp only [Option.map_some,Option.bind_some]
      cases mapAt texts retryMap "backoff" with
      | none => rfl
      | some bMap => exact readStrategy _
  | initialDelayMs | maxDelayMs | multiplier =>
    rw [seen,Leaf.path,three]
    simp only [leafOf,parsePolicyFromMap]
    cases mapAt texts map "retry" with
    | none => rfl
    | some retryMap =>
      simp only [Option.map_some,Option.bind_some]
      cases mapAt texts retryMap "backoff" with
      | none => rfl
      | some bMap => exact readNumber _
  | failureThreshold | slidingWindowSize | openDurationMs | halfOpenMaxCalls =>
    rw [seen,Leaf.path,two]
    simp only [leafOf,parsePolicyFromMap]
    cases mapAt texts map "circuitBreaker" with
    | none => rfl
    | some cbMap => exact readNumber _
  | enabled =>
    rw [seen,Leaf.path,two]
    simp only [leafOf,parsePolicyFromMap]
    cases mapAt texts map "circuitBreaker" with
    | none => rfl
    | some cbMap => exact readFlag _
  | key =>
    rw [seen,Leaf.path,two]
    simp only [leafOf,parsePolicyFromMap]
    cases mapAt texts map "circuitBreaker" with
    | none => rfl
    | some cbMap => exact readText _
  | compensate =>
    rw [seen,Leaf.path,two]
    simp only [leafOf,parsePolicyFromMap]
    cases mapAt texts map "onFail" with
    | none => rfl
    | some ofMap => exact readFlag _
  | target =>
    rw [seen,Leaf.path,two]
    simp only [leafOf,parsePolicyFromMap]
    cases mapAt texts map "onFail" with
    | none => rfl
    | some ofMap => exact readText _
  | benchmark =>
    rw [seen,Leaf.path,two]
    simp only [leafOf,parsePolicyFromMap]
    cases mapAt texts map "benchmark" with
    | none => rfl
    | some bMap =>
      have flag := readFlag (written texts bMap "enabled")
      simp only [Option.bind_some]
      cases here : readBooleanScalar (written texts bMap "enabled") with
      | none => rw [here] at flag; exact flag
      | some value => rw [here] at flag; exact flag

theorem nothingSeen {node : Yaml} (plain : isMap node = false) (place : List String) (l : Leaf) : seen texts place node l = none := by
  have nothing (key : String) : written texts node key = none := by
    cases node with
    | map items => cases plain
    | _ => rfl
  have path : ∃ key keys, place ++ l.path = key::keys := by
    cases place with
    | cons key keys => exact ⟨key,keys ++ l.path,rfl⟩
    | nil => cases l <;> exact ⟨_,_,rfl⟩
  obtain ⟨key,keys,same⟩ := path
  rw [seen,same,Yaml.writtenAt,nothing]
  rfl

theorem defaultsLeaf (root : Yaml) (l : Leaf) : leafOf (machineDefaults texts root) l = seen texts ["defaults"] root l := by
  have below (value : Yaml) (here : written texts root "defaults" = some value) :
      seen texts ["defaults"] root l = seen texts [] value l := by
    simp only [seen,List.singleton_append,List.nil_append,Yaml.writtenAt,here,Option.bind_some]
  rw [machineDefaults,mapAt]
  cases here : written texts root "defaults" with
  | none =>
    simp only [seen,List.singleton_append,Yaml.writtenAt,here]
    cases l <;> rfl
  | some value =>
    rw [below value here]
    cases map : isMap value with
    | true =>
      rw [Option.filter_some_pos map]
      exact parsedLeaf texts value l
    | false =>
      rw [nothingSeen texts map,Option.filter_some_neg map]
      cases l <;> rfl

theorem shownLayer (value : Yaml) (eventName : String) (isOnDone : Bool) (path : String) (defaults : PolicySections) :
    ∃ policy, (∀ l, leafOf policy l = seen texts [] value l) ∧
      (parseTransitionPair texts value eventName isOnDone path defaults).effectivePolicy =
        (mergeTransitionPolicies (some defaults) (some policy)).policy ∧
      (parseTransitionPair texts value eventName isOnDone path defaults).policySources =
        (mergeTransitionPolicies (some defaults) (some policy)).sources := by
  have silent (plain : isMap value = false) (l : Leaf) : leafOf {} l = seen texts [] value l := by
    rw [nothingSeen texts plain]
    cases l <;> rfl
  cases value with
  | map items => exact ⟨parsePolicyFromMap texts (.map items),parsedLeaf texts (.map items),rfl,rfl⟩
  | scalar v =>
    refine ⟨{},silent rfl,?_⟩
    rw [← plainMerge]
    cases v <;> exact ⟨rfl,rfl⟩
  | seq items =>
    refine ⟨{},silent rfl,?_⟩
    rw [← plainMerge]
    exact ⟨rfl,rfl⟩
  | reference anchored =>
    refine ⟨{},silent rfl,?_⟩
    rw [← plainMerge]
    exact ⟨rfl,rfl⟩

/-! The SDK's side: what its schema has admitted, it reads as it stands. -/

def jsAt (value : Json) : List String → Option Json
  | [] => some value
  | key::keys => (value.prop key).bind (jsAt · keys)

theorem jsMeant (node : Yaml) (path : List String) : jsAt (Yaml.toJs texts node) path = (Yaml.meantAt texts node path).map (Yaml.toJs texts) := by
  induction path generalizing node with
  | nil => rfl
  | cons key keys ih =>
    rw [jsAt,Yaml.meantAt,Yaml.propMeant]
    cases Yaml.meant texts node key with
    | none => rfl
    | some value => exact ih value

/-- What the schema asks of the value of a leaf. -/
def Leaf.check : Leaf → Json.Check
  | .strategy => Json.among ["fixed","linear","exponential","exponential_jitter"]
  | .key | .target => Json.isFilled
  | .enabled | .compensate | .benchmark => Json.isFlag
  | .initialDelayMs | .maxDelayMs => Json.atLeast 0
  | .multiplier => Json.atLeast 1
  | .maxAttempts | .failureThreshold | .slidingWindowSize | .openDurationMs | .halfOpenMaxCalls => Json.isInteger 1

/-- The value that the SDK reads for a leaf. -/
def Leaf.readJs : Leaf → Json → Option YamlScalar
  | .strategy => fun value => (value.asText.bind strategyOf).map (.text ∘ strategyText)
  | .key | .target => fun value => value.asText.map .text
  | .enabled | .compensate | .benchmark => fun value => value.asFlag.map .flag
  | .maxAttempts | .initialDelayMs | .maxDelayMs | .multiplier | .failureThreshold | .slidingWindowSize | .openDurationMs
  | .halfOpenMaxCalls => fun value => value.asNumber.map .number

theorem checkedReads {l : Leaf} {value : Json} (checked : l.check value = true) :
    ∃ s, value = s.json ∧ l.reads s = true ∧ l.readJs value = some s := by
  have flag (admitted : Json.isFlag value = true) : ∃ b, value = .flag b := by
    cases value with
    | flag b => exact ⟨b,rfl⟩
    | _ => cases admitted
  have text (admitted : Json.isFilled value = true) : ∃ name, value = .text name := by
    cases value with
    | text name => exact ⟨name,rfl⟩
    | _ => cases admitted
  have number {least : ℚ} (admitted : Json.atLeast least value = true ∨ Json.isInteger least value = true) : ∃ n, value = .number n := by
    cases value with
    | number n => exact ⟨n,rfl⟩
    | _ => rcases admitted with no | no <;> cases no
  cases l with
  | strategy =>
    cases value with
    | text name =>
      have known : name ∈ ["fixed","linear","exponential","exponential_jitter"] := List.contains_iff_mem.mp checked
      simp only [List.mem_cons,List.not_mem_nil,or_false] at known
      rcases known with rfl | rfl | rfl | rfl <;> exact ⟨.text _,rfl,rfl,rfl⟩
    | _ => cases checked
  | key | target =>
    obtain ⟨name,rfl⟩ := text checked
    exact ⟨.text name,rfl,rfl,rfl⟩
  | enabled | compensate | benchmark =>
    obtain ⟨b,rfl⟩ := flag checked
    exact ⟨.flag b,rfl,rfl,rfl⟩
  | initialDelayMs | maxDelayMs | multiplier =>
    obtain ⟨n,rfl⟩ := number (.inl checked)
    exact ⟨.number n,rfl,rfl,rfl⟩
  | maxAttempts | failureThreshold | slidingWindowSize | openDurationMs | halfOpenMaxCalls =>
    obtain ⟨n,rfl⟩ := number (.inr checked)
    exact ⟨.number n,rfl,rfl,rfl⟩

theorem scalarBehind {node : Yaml} {s : YamlScalar} (same : Yaml.toJs texts node = s.json) : asScalar (Yaml.resolved node) = some s := by
  rw [← Yaml.jsResolved] at same
  cases shape : Yaml.resolved node with
  | scalar value =>
    rw [shape] at same
    have alike : value = s := by
      cases value <;> cases s <;> simp_all [Yaml.toJs,YamlScalar.json]
    rw [alike]
    rfl
  | seq items => rw [shape,Yaml.toJs] at same; cases s <;> cases same
  | map items => rw [shape,Yaml.toJs] at same; cases s <;> cases same
  | reference anchored => exact absurd shape (Yaml.resolvedPlain node anchored)

theorem closedProp {properties : List (String × Json.Check)} {value inner : Json} {key : String} (admitted : Json.closed properties value = true)
    (here : value.prop key = some inner) : Json.checkOf properties key inner = true := by
  cases value with
  | object entries => exact Json.closedEntry admitted here
  | _ => cases here

theorem leafChecked {properties : List (String × Json.Check)} (declared : ∀ e ∈ Complete.sectionSchemas, Json.checkOf properties e.1 = e.2)
    {value inner : Json} (admitted : Json.closed properties value = true) (l : Leaf) (here : jsAt value l.path = some inner) :
    l.check inner = true := by
  simp only [Complete.sectionSchemas,List.forall_mem_cons] at declared
  obtain ⟨retry,circuitBreaker,onFail,benchmark,_⟩ := declared
  have two {outer name : String} {schema : List (String × Json.Check)} (outerSchema : Json.checkOf properties outer = Json.closed schema)
      (found : jsAt value [outer,name] = some inner) : Json.checkOf schema name inner = true := by
    obtain ⟨section_,first,second⟩ := Option.bind_eq_some_iff.mp found
    obtain ⟨last,third,same⟩ := Option.bind_eq_some_iff.mp second
    cases same
    exact closedProp (by rw [← outerSchema]; exact closedProp admitted first) third
  have three {name : String} (found : jsAt value ["retry","backoff",name] = some inner) : Json.checkOf [
      ("strategy",Json.among ["fixed","linear","exponential","exponential_jitter"]),("initialDelayMs",Json.atLeast 0),
      ("maxDelayMs",Json.atLeast 0),("multiplier",Json.atLeast 1)] name inner = true := by
    obtain ⟨section_,first,rest⟩ := Option.bind_eq_some_iff.mp found
    obtain ⟨backoff,second,rest⟩ := Option.bind_eq_some_iff.mp rest
    obtain ⟨last,third,same⟩ := Option.bind_eq_some_iff.mp rest
    cases same
    have retryAdmitted : Complete.RetryConfigSchema section_ = true := by rw [← retry]; exact closedProp admitted first
    exact closedProp (closedProp retryAdmitted second) third
  cases l with
  | strategy | initialDelayMs | maxDelayMs | multiplier => exact three here
  | maxAttempts => exact two retry here
  | enabled | key | failureThreshold | slidingWindowSize | openDurationMs | halfOpenMaxCalls => exact two circuitBreaker here
  | compensate | target => exact two onFail here
  | benchmark => exact two benchmark here

theorem extractedLeaf (value : Json) (l : Leaf) : leafOf (Complete.extractPolicy value).toPolicySections l = (jsAt value l.path).bind l.readJs := by
  cases l with
  | strategy | initialDelayMs | maxDelayMs | multiplier =>
    simp only [leafOf,Complete.extractPolicy,Leaf.path,jsAt]
    cases value.prop "retry" with
    | none => rfl
    | some retry =>
      simp only [Option.map_some,Option.bind_some,Complete.extractRetry]
      cases retry.prop "backoff" with
      | none => rfl
      | some backoff =>
        simp only [Option.map_some,Option.bind_some,Complete.extractBackoff,Complete.textAt,Complete.numberAt,Leaf.readJs]
        cases backoff.prop _ <;> rfl
  | maxAttempts =>
    simp only [leafOf,Complete.extractPolicy,Leaf.path,jsAt]
    cases value.prop "retry" with
    | none => rfl
    | some retry =>
      simp only [Option.map_some,Option.bind_some,Complete.extractRetry,Complete.numberAt,Leaf.readJs]
      cases retry.prop "maxAttempts" <;> rfl
  | enabled | key | failureThreshold | slidingWindowSize | openDurationMs | halfOpenMaxCalls =>
    simp only [leafOf,Complete.extractPolicy,Leaf.path,jsAt]
    cases value.prop "circuitBreaker" with
    | none => rfl
    | some breaker =>
      simp only [Option.map_some,Option.bind_some,Complete.extractCircuitBreaker,Complete.textAt,Complete.numberAt,Complete.flagAt,Leaf.readJs]
      cases breaker.prop _ <;> rfl
  | compensate | target =>
    simp only [leafOf,Complete.extractPolicy,Leaf.path,jsAt]
    cases value.prop "onFail" with
    | none => rfl
    | some onFail =>
      simp only [Option.map_some,Option.bind_some,Complete.extractOnFail,Complete.textAt,Complete.flagAt,Leaf.readJs]
      cases onFail.prop _ <;> rfl
  | benchmark =>
    simp only [leafOf,Complete.extractPolicy,Leaf.path,jsAt]
    cases value.prop "benchmark" with
    | none => rfl
    | some benchmark =>
      simp only [Option.map_some,Option.bind_some,Complete.extractBenchmark,Complete.flagAt,Leaf.readJs]
      cases benchmark.prop "enabled" <;> rfl

theorem extractedHolds {properties : List (String × Json.Check)} (declared : ∀ e ∈ Complete.sectionSchemas, Json.checkOf properties e.1 = e.2)
    {node : Yaml} (admitted : Json.closed properties (Yaml.toJs texts node) = true) (l : Leaf) :
    leafOf (Complete.extractPolicy (Yaml.toJs texts node)).toPolicySections l = holds texts [] node l := by
  have checked {inner} (here : jsAt (Yaml.toJs texts node) l.path = some inner) : l.check inner = true := leafChecked declared admitted l here
  rw [extractedLeaf,holds,List.nil_append]
  rw [jsMeant] at checked ⊢
  cases here : Yaml.meantAt texts node l.path with
  | none => rfl
  | some value =>
    rw [here] at checked
    obtain ⟨s,json,_,read⟩ := checkedReads (checked rfl)
    rw [Option.map_some,Option.bind_some,Option.bind_some,read]
    exact (scalarBehind texts json).symm

end

/-! The policy of the runtime. -/

variable {E : Type}

/-- A count as the runtime has it; the schema admits no others than integers from 1 on. -/
def count (n : ℚ) : Nat := n.num.toNat

def runtimePolicy (policy : Complete.PartialTransitionPolicy) : Policy.PartialTransitionPolicy E where
  retry := policy.retry.map (fun retry => some {
    maxAttempts := retry.maxAttempts.map (some <| count ·)
    backoff := retry.backoff.map (fun backoff => some {
      strategy := backoff.strategy.map some
      initialDelayMs := backoff.initialDelayMs.map some
      maxDelayMs := backoff.maxDelayMs.map some
      multiplier := backoff.multiplier.map some }) })
  circuitBreaker := policy.circuitBreaker.map (fun breaker => some {
    enabled := breaker.enabled.map some
    key := breaker.key.map some
    failureThreshold := breaker.failureThreshold.map (some <| count ·)
    slidingWindowSize := breaker.slidingWindowSize.map (some <| count ·)
    openDurationMs := breaker.openDurationMs.map (fun n => some n.num)
    halfOpenMaxCalls := breaker.halfOpenMaxCalls.map (some <| count ·) })
  onFail := policy.onFail.map (fun onFail => some { compensate := onFail.compensate.map some, target := onFail.target.map some })
  benchmark := policy.benchmark.map (fun benchmark => some { enabled := benchmark.enabled.map some })
  compensateHandler := policy.compensateHandler.map some

def Leaf.runtime : Leaf → Policy.Leaf
  | .maxAttempts => .maxAttempts
  | .strategy => .strategy
  | .initialDelayMs => .initialDelayMs
  | .maxDelayMs => .maxDelayMs
  | .multiplier => .multiplier
  | .enabled => .enabled
  | .key => .key
  | .failureThreshold => .failureThreshold
  | .slidingWindowSize => .slidingWindowSize
  | .openDurationMs => .openDurationMs
  | .halfOpenMaxCalls => .halfOpenMaxCalls
  | .compensate => .compensate
  | .target => .target
  | .benchmark => .benchmark

def Leaf.shown : (l : Leaf) → l.runtime.Value E → YamlScalar
  | .maxAttempts => fun (n : Nat) => .number n
  | .strategy => fun (strategy : BackoffStrategy) => .text (strategyText strategy)
  | .initialDelayMs => fun (ms : ℚ) => .number ms
  | .maxDelayMs => fun (ms : ℚ) => .number ms
  | .multiplier => fun (factor : ℚ) => .number factor
  | .enabled => fun (on : Bool) => .flag on
  | .key => fun (name : String) => .text name
  | .failureThreshold => fun (n : Nat) => .number n
  | .slidingWindowSize => fun (n : Nat) => .number n
  | .openDurationMs => fun (ms : Int) => .number ms
  | .halfOpenMaxCalls => fun (n : Nat) => .number n
  | .compensate => fun (on : Bool) => .flag on
  | .target => fun (name : String) => .text name
  | .benchmark => fun (on : Bool) => .flag on

/-- The counts of a policy are integers from 1 on. -/
def Whole (policy : PolicySections) : Prop :=
  ∀ l ∈ [Leaf.maxAttempts,.failureThreshold,.slidingWindowSize,.openDurationMs,.halfOpenMaxCalls],
    ∀ n, leafOf policy l = some (.number n) → n.isInt = true ∧ 1 ≤ n

theorem wholeNum {n : ℚ} (whole : n.isInt = true ∧ 1 ≤ n) : ((n.num : Int) : ℚ) = n ∧ ((count n : Nat) : ℚ) = n := by
  have den : n.den = 1 := by simpa [Rat.isInt] using whole.1
  have same : ((n.num : Int) : ℚ) = n := Rat.den_eq_one_iff n |>.mp den
  have pos : 0 ≤ n.num := Rat.num_nonneg.mpr (le_trans zero_le_one whole.2)
  refine ⟨same,?_⟩
  have cast : ((count n : Nat) : Int) = n.num := Int.toNat_of_nonneg pos
  rw [← same]
  exact_mod_cast congrArg (Int.cast (R := ℚ)) cast

theorem runtimeLeaf {policy : Complete.PartialTransitionPolicy} (whole : Whole policy.toPolicySections) (l : Leaf) :
    ((runtimePolicy (E := E) policy).leaf l.runtime).map l.shown = leafOf policy.toPolicySections l := by
  have counted {l : Leaf} (mem : l ∈ [Leaf.maxAttempts,.failureThreshold,.slidingWindowSize,.openDurationMs,.halfOpenMaxCalls])
      {value : Option ℚ} (same : leafOf policy.toPolicySections l = value.map .number) :
      ((value.map (fun n => some (count n))).join).map (fun n : Nat => YamlScalar.number n) = value.map .number := by
    cases value with
    | none => rfl
    | some n => exact congrArg (fun n => some (YamlScalar.number n)) (wholeNum (whole l mem n same)).2
  have plain {α : Type} (value : Option α) (show_ : α → YamlScalar) : ((value.map some).join).map show_ = value.map show_ := by
    cases value <;> rfl
  obtain ⟨⟨retry,circuitBreaker,onFail,benchmark⟩,compensateHandler⟩ := policy
  cases l with
  | maxAttempts =>
    cases retry with
    | none => rfl
    | some retry => exact counted (l := .maxAttempts) (by decide) rfl
  | strategy =>
    cases retry with
    | none => rfl
    | some retry =>
      obtain ⟨maxAttempts,backoff⟩ := retry
      cases backoff with
      | none => rfl
      | some backoff => exact plain backoff.strategy _
  | initialDelayMs =>
    cases retry with
    | none => rfl
    | some retry =>
      obtain ⟨maxAttempts,backoff⟩ := retry
      cases backoff with
      | none => rfl
      | some backoff => exact plain backoff.initialDelayMs _
  | maxDelayMs =>
    cases retry with
    | none => rfl
    | some retry =>
      obtain ⟨maxAttempts,backoff⟩ := retry
      cases backoff with
      | none => rfl
      | some backoff => exact plain backoff.maxDelayMs _
  | multiplier =>
    cases retry with
    | none => rfl
    | some retry =>
      obtain ⟨maxAttempts,backoff⟩ := retry
      cases backoff with
      | none => rfl
      | some backoff => exact plain backoff.multiplier _
  | enabled =>
    cases circuitBreaker with
    | none => rfl
    | some breaker => exact plain breaker.enabled _
  | key =>
    cases circuitBreaker with
    | none => rfl
    | some breaker => exact plain breaker.key _
  | failureThreshold =>
    cases circuitBreaker with
    | none => rfl
    | some breaker => exact counted (l := .failureThreshold) (by decide) rfl
  | slidingWindowSize =>
    cases circuitBreaker with
    | none => rfl
    | some breaker => exact counted (l := .slidingWindowSize) (by decide) rfl
  | halfOpenMaxCalls =>
    cases circuitBreaker with
    | none => rfl
    | some breaker => exact counted (l := .halfOpenMaxCalls) (by decide) rfl
  | openDurationMs =>
    cases circuitBreaker with
    | none => rfl
    | some breaker =>
      obtain ⟨enabled,key,failureThreshold,slidingWindowSize,openDurationMs,halfOpenMaxCalls⟩ := breaker
      cases openDurationMs with
      | none => rfl
      | some n => exact congrArg (fun n => some (YamlScalar.number n)) (wholeNum (whole .openDurationMs (by decide) n rfl)).1
  | compensate =>
    cases onFail with
    | none => rfl
    | some onFail => exact plain onFail.compensate _
  | target =>
    cases onFail with
    | none => rfl
    | some onFail => exact plain onFail.target _
  | benchmark =>
    cases benchmark with
    | none => rfl
    | some benchmark => exact plain benchmark.enabled _

theorem sdkDefault (key : String) {l : Leaf} (other : l ≠ .key) :
    ((@Policy.SDK_DEFAULT_POLICY E key).leaf l.runtime).map l.shown = SDK_DEFAULT_POLICY.leaf l := by
  cases l with
  | key => exact absurd rfl other
  | maxAttempts => exact congrArg (fun n => some (YamlScalar.number n)) (rfl : ((1 : Nat) : ℚ) = 1)
  | failureThreshold => exact congrArg (fun n => some (YamlScalar.number n)) (rfl : ((5 : Nat) : ℚ) = 5)
  | slidingWindowSize => exact congrArg (fun n => some (YamlScalar.number n)) (rfl : ((10 : Nat) : ℚ) = 10)
  | openDurationMs => exact congrArg (fun n => some (YamlScalar.number n)) (rfl : ((30000 : Int) : ℚ) = 30000)
  | halfOpenMaxCalls => exact congrArg (fun n => some (YamlScalar.number n)) (rfl : ((1 : Nat) : ℚ) = 1)
  | _ => rfl

/-- The policy that the runtime has for a transition without decorators and global defaults. -/
def runtimeOf (defaultBreakerKey : String) (defaults transition : Complete.PartialTransitionPolicy) : Policy.NormalizedTransitionPolicy E :=
  Policy.normalizeTransitionPolicy {
    defaultBreakerKey
    machineDefaults := some (runtimePolicy defaults)
    transitionPolicy := some (runtimePolicy transition) }

theorem runtimeLeaves (key : String) {defaults transition : Complete.PartialTransitionPolicy} (wholeDefaults : Whole defaults.toPolicySections)
    (wholeTransition : Whole transition.toPolicySections) {l : Leaf} (other : l ≠ .key) :
    ((runtimeOf (E := E) key defaults transition).leaf l.runtime).map l.shown =
      ((leafOf transition.toPolicySections l).or (leafOf defaults.toPolicySections l)).or (SDK_DEFAULT_POLICY.leaf l) := by
  rw [runtimeOf,Policy.normalizedLeaf]
  have layers : Layers.latest (·.leaf l.runtime) [runtimePolicy (E := E) defaults,runtimePolicy transition] =
      ((runtimePolicy transition).leaf l.runtime).or ((runtimePolicy defaults).leaf l.runtime) := by
    rw [Layers.latestCons,Layers.latestCons,Layers.latestNil,Option.none_or]
  have both := layers
  simp only [List.filterMap_cons,List.filterMap_nil,id]
  rw [layers,Option.map_or,Option.map_or,runtimeLeaf wholeTransition,runtimeLeaf wholeDefaults,sdkDefault key other]

theorem extractedWhole {properties : List (String × Json.Check)} (declared : ∀ e ∈ Complete.sectionSchemas, Json.checkOf properties e.1 = e.2)
    {value : Json} (admitted : Json.closed properties value = true) : Whole (Complete.extractPolicy value).toPolicySections := by
  intro l counts n here
  rw [extractedLeaf] at here
  obtain ⟨inner,found,read⟩ := Option.bind_eq_some_iff.mp here
  have checked := leafChecked declared admitted l found
  have integer : Json.isInteger 1 inner = true ∧ inner.asNumber.map YamlScalar.number = some (.number n) := by
    simp only [List.mem_cons,List.not_mem_nil,or_false] at counts
    rcases counts with rfl | rfl | rfl | rfl | rfl <;> exact ⟨checked,read⟩
  cases inner with
  | number m =>
    cases integer.2
    simpa [Json.isInteger] using integer.1
  | _ => cases integer.1

/-! The transitions of a document that the SDK accepts. -/

section
variable (texts : Texts)

/-- A transition: the keys of its state from the root, and its event, or none where it is the completion. -/
structure Place where
  keys : List String
  event : Option String

def stateAt (node : Yaml) : List String → Option Yaml
  | [] => some node
  | key::keys => ((Yaml.meant texts node "states").bind (Yaml.meant texts · key)).bind (stateAt · keys)

def transitionAt (root : Yaml) (place : Place) : Option Yaml :=
  (stateAt texts root place.keys).bind (fun state =>
    place.event.elim (Yaml.meant texts state "onDone") (fun event => (Yaml.meant texts state "on").bind (Yaml.meant texts · event)))

theorem stateProp {value inner : Json} {key : String} (admitted : Complete.StateNodeSchema value = true) (here : value.prop key = some inner) :
    (if key = "states" then Complete.statesSchema else Json.checkOf Complete.stateProperties key) inner = true := by
  cases value with
  | object entries =>
    rw [Complete.StateNodeSchema] at admitted
    rw [Json.propObject] at here
    induction entries with
    | nil => cases here
    | cons e rest ih =>
      obtain ⟨k,v⟩ := e
      rw [Complete.stateEntries,Bool.and_eq_true] at admitted
      rw [Keyed.getCons] at here
      split at here
      · rename_i same
        cases here
        rw [same]
        have first := admitted.1
        split at first
        · rename_i states
          rw [if_pos states]
          exact first
        · rename_i other
          rw [if_neg other]
          exact first
      · exact ih admitted.2 here
  | _ => cases here

theorem childProp {value inner : Json} {key : String} (admitted : Complete.statesSchema value = true) (here : value.prop key = some inner) :
    Complete.StateNodeSchema inner = true := by
  cases value with
  | object entries =>
    rw [Complete.statesSchema,Bool.and_eq_true,Complete.allStatesAll] at admitted
    exact List.all_eq_true.mp admitted.2 (key,inner) (Keyed.getSome here)
  | _ => cases here

theorem onProp {value inner : Json} {key : String} (admitted : Complete.onSchema value = true) (here : value.prop key = some inner) :
    Complete.TransitionDefinitionSchema inner = true := by
  cases value with
  | object entries => exact List.all_eq_true.mp admitted (key,inner) (Keyed.getSome here)
  | _ => cases here

theorem meantProp {node inner : Yaml} {key : String} (here : Yaml.meant texts node key = some inner) :
    (Yaml.toJs texts node).prop key = some (Yaml.toJs texts inner) := by
  rw [Yaml.propMeant,here]
  rfl

theorem stateAccepted {node : Yaml} (admitted : Complete.StateNodeSchema (Yaml.toJs texts node) = true) (keys : List String) {state : Yaml}
    (here : stateAt texts node keys = some state) : Complete.StateNodeSchema (Yaml.toJs texts state) = true := by
  induction keys generalizing node with
  | nil => cases here; exact admitted
  | cons key keys ih =>
    obtain ⟨child,first,rest⟩ := Option.bind_eq_some_iff.mp here
    obtain ⟨states,mapping,found⟩ := Option.bind_eq_some_iff.mp first
    have states_ : Complete.statesSchema (Yaml.toJs texts states) = true := stateProp admitted (meantProp texts mapping)
    exact ih (childProp states_ (meantProp texts found)) rest

theorem schemaProp {value inner : Json} {key : String} (accepted : Complete.DFSM_V1_SCHEMA value = true) (here : value.prop key = some inner) :
    Json.checkOf [
      ("dfsm",Json.among ["1.0"]),("id",Complete.idSchema),("version",Json.isText),("description",Json.isText),
      ("type",Json.among ["compound","parallel"]),("initial",Json.isFilled),
      ("registry",Json.closed [("namespace",Json.isFilled),("strict",Json.isFlag)]),("defaults",Complete.TransitionPolicySchema),
      ("hooks",Complete.MachineHooksConfigSchema),("effects",Json.listOf 0 Json.isFilled),("maxEffectChainDepth",Json.isInteger 1),
      ("states",Complete.statesSchema)] key inner = true := by
  rw [Complete.DFSM_V1_SCHEMA,Bool.and_eq_true] at accepted
  exact closedProp accepted.2 here

theorem transitionAccepted {root value : Yaml} {place : Place} (accepted : Complete.DFSM_V1_SCHEMA (Yaml.toJs texts root) = true)
    (here : transitionAt texts root place = some value) : Complete.TransitionDefinitionSchema (Yaml.toJs texts value) = true := by
  obtain ⟨keys,event⟩ := place
  obtain ⟨state,stateHere,found⟩ := Option.bind_eq_some_iff.mp here
  cases keys with
  | nil =>
    -- The root itself has no transitions.
    cases stateHere
    cases event with
    | none => exact absurd (schemaProp accepted (meantProp texts found)) Bool.false_ne_true
    | some event =>
      obtain ⟨on,mapping,_⟩ := Option.bind_eq_some_iff.mp found
      exact absurd (schemaProp accepted (meantProp texts mapping)) Bool.false_ne_true
  | cons key keys =>
    obtain ⟨child,first,rest⟩ := Option.bind_eq_some_iff.mp stateHere
    obtain ⟨states,mapping,top⟩ := Option.bind_eq_some_iff.mp first
    have states_ : Complete.statesSchema (Yaml.toJs texts states) = true := schemaProp accepted (meantProp texts mapping)
    have admitted := stateAccepted texts (childProp states_ (meantProp texts top)) keys rest
    cases event with
    | none => exact stateProp admitted (meantProp texts found)
    | some event =>
      obtain ⟨on,mapping,found⟩ := Option.bind_eq_some_iff.mp found
      have on_ : Complete.onSchema (Yaml.toJs texts on) = true := stateProp admitted (meantProp texts mapping)
      exact onProp on_ (meantProp texts found)

def shownTransition (root value : Yaml) (place : Place) : ParsedTransition :=
  parseTransitionPair texts value (place.event.getD "onDone") place.event.isNone (Dotted.join place.keys) (machineDefaults texts root)

def sdkDefaults (root : Yaml) : Complete.PartialTransitionPolicy := ((Yaml.toJs texts root).prop "defaults").elim {} Complete.extractPolicy

def sdkEdge (value : Yaml) (place : Place) : Complete.WrittenEdge :=
  Complete.parseTransitionEdge (place.event.getD "$onDone") (Yaml.toJs texts value)

/-- What is shown for a transition is what the runtime has, with the highest layer that sets each leaf. -/
structure PolicyShown (E : Type) (root value : Yaml) (place : Place) (breakerKey : String) : Prop where
  values : ∀ l, l ≠ .key → (shownTransition texts root value place).effectivePolicy.leaf l =
    ((runtimeOf (E := E) breakerKey (sdkDefaults texts root) (sdkEdge texts value place).policy).leaf l.runtime).map l.shown
  sources : ∀ l, l ≠ .key → (shownTransition texts root value place).policySources l =
    some (highest (leafOf (sdkEdge texts value place).policy.toPolicySections l) (leafOf (sdkDefaults texts root).toPolicySections l))

theorem silentWhole : Whole {} := by
  intro l counts n here
  cases l <;> cases here

theorem sdkDefaultsLeaf {root : Yaml} (accepted : Complete.DFSM_V1_SCHEMA (Yaml.toJs texts root) = true) :
    Whole (sdkDefaults texts root).toPolicySections ∧
      ∀ l, leafOf (sdkDefaults texts root).toPolicySections l = holds texts ["defaults"] root l := by
  have declared : ∀ e ∈ Complete.sectionSchemas, Json.checkOf Complete.sectionSchemas e.1 = e.2 := by simp [Complete.sectionSchemas]
  cases here : Yaml.meant texts root "defaults" with
  | none =>
    have silent : sdkDefaults texts root = {} := by rw [sdkDefaults,Yaml.propMeant,here]; rfl
    rw [silent]
    refine ⟨silentWhole,fun l => ?_⟩
    rw [holds,List.singleton_append,Yaml.meantAt,here]
    cases l <;> rfl
  | some defaults =>
    have own : sdkDefaults texts root = Complete.extractPolicy (Yaml.toJs texts defaults) := by rw [sdkDefaults,Yaml.propMeant,here]; rfl
    have admitted : Json.closed Complete.sectionSchemas (Yaml.toJs texts defaults) = true := schemaProp accepted (meantProp texts here)
    rw [own]
    refine ⟨extractedWhole declared admitted,fun l => ?_⟩
    rw [extractedHolds texts declared admitted,holds,holds,List.singleton_append,List.nil_append,Yaml.meantAt,here,Option.bind_some]

theorem sdkEdgeLeaf {value : Yaml} (place : Place) (admitted : Complete.TransitionDefinitionSchema (Yaml.toJs texts value) = true) :
    Whole (sdkEdge texts value place).policy.toPolicySections ∧
      ∀ l, leafOf (sdkEdge texts value place).policy.toPolicySections l = holds texts [] value l := by
  rw [Complete.TransitionDefinitionSchema,Json.oneOfTwo] at admitted
  cases text : (Yaml.toJs texts value).asText with
  | some target =>
    have silent : (sdkEdge texts value place).policy = {} := by rw [sdkEdge,Complete.parseTransitionEdge,text]
    have scalar : Yaml.toJs texts value = (YamlScalar.text target).json := by
      cases js : Yaml.toJs texts value with
      | text name => rw [js] at text; cases text; rfl
      | _ => rw [js] at text; cases text
    have behind := scalarBehind texts scalar
    have nothing (key : String) : Yaml.meant texts value key = none := by
      unfold Yaml.meant
      cases shape : Yaml.resolved value with
      | map items => rw [shape] at behind; cases behind
      | _ => rfl
    rw [silent]
    refine ⟨silentWhole,fun l => ?_⟩
    have path : ∃ key keys, l.path = key::keys := by cases l <;> exact ⟨_,_,rfl⟩
    obtain ⟨key,keys,same⟩ := path
    rw [holds,List.nil_append,same,Yaml.meantAt,nothing]
    cases l <;> rfl
  | none =>
    have own : (sdkEdge texts value place).policy = Complete.extractPolicy (Yaml.toJs texts value) := by
      rw [sdkEdge,Complete.parseTransitionEdge,text]
    have noText : Json.isFilled (Yaml.toJs texts value) = false := by
      cases js : Yaml.toJs texts value with
      | text name => rw [js] at text; cases text
      | _ => rfl
    rw [noText,Bool.false_xor] at admitted
    have declared : ∀ e ∈ Complete.sectionSchemas, Json.checkOf ([("target",Json.isFilled),("transition",Json.isFilled),
        ("compensate",Json.isFilled),("effects",Json.listOf 0 Json.isFilled),("description",Json.isText)] ++ Complete.sectionSchemas) e.1 = e.2 := by
      simp [Complete.sectionSchemas]
    rw [own]
    exact ⟨extractedWhole declared admitted,extractedHolds texts declared admitted⟩

theorem leafShown (seenHere seenBelow here below default : Option YamlScalar) :
    (((seenHere.or seenBelow).or default = (here.or below).or default ∧ highest seenHere seenBelow = highest here below) ↔
      seenHere = here ∧ (here = none → seenBelow = below)) := by
  cases seenHere <;> cases seenBelow <;> cases here <;> cases below <;> simp [highest]

/-- The editor shows the policy of the runtime exactly where each leaf is read off the page: what
is written at its place in the transition is what stands there once aliases are followed, and
where nothing does, the same of the defaults. -/
theorem displayedPolicy {E : Type} {root value : Yaml} {place : Place} (accepted : Complete.DFSM_V1_SCHEMA (Yaml.toJs texts root) = true)
    (here : transitionAt texts root place = some value) (breakerKey : String) :
    PolicyShown texts E root value place breakerKey ↔ ∀ l, l ≠ .key → seen texts [] value l = holds texts [] value l ∧
      (holds texts [] value l = none → seen texts ["defaults"] root l = holds texts ["defaults"] root l) := by
  obtain ⟨wholeDefaults,defaults⟩ := sdkDefaultsLeaf texts accepted
  obtain ⟨wholeEdge,edge⟩ := sdkEdgeLeaf texts place (transitionAccepted texts accepted here)
  obtain ⟨policy,layer,effective,sources⟩ := shownLayer texts value (place.event.getD "onDone") place.event.isNone (Dotted.join place.keys)
    (machineDefaults texts root)
  have leafwise (l : Leaf) (other : l ≠ .key) :
      ((shownTransition texts root value place).effectivePolicy.leaf l =
        ((runtimeOf (E := E) breakerKey (sdkDefaults texts root) (sdkEdge texts value place).policy).leaf l.runtime).map l.shown ∧
      (shownTransition texts root value place).policySources l =
        some (highest (leafOf (sdkEdge texts value place).policy.toPolicySections l) (leafOf (sdkDefaults texts root).toPolicySections l))) ↔
      seen texts [] value l = holds texts [] value l ∧
        (holds texts [] value l = none → seen texts ["defaults"] root l = holds texts ["defaults"] root l) := by
    rw [shownTransition,effective,sources,(mergedLeaves _ _ other).1,(mergedLeaves _ _ other).2,
      runtimeLeaves breakerKey wholeDefaults wholeEdge other,layer,defaultsLeaf,edge,defaults,Option.some_inj]
    exact leafShown _ _ _ _ _
  constructor
  · exact fun shown l other => (leafwise l other).mp ⟨shown.values l other,shown.sources l other⟩
  · exact fun read => ⟨fun l other => ((leafwise l other).mpr (read l other)).1,fun l other => ((leafwise l other).mpr (read l other)).2⟩

end

def named (entries : List (String × Yaml)) : Yaml := .map (entries.map (fun e => (.scalar (.text e.1),e.2)))

def word (text : String) : Yaml := .scalar (.text text)

/-- A shop whose second transition repeats the retries of the first by an alias. -/
def shop : Yaml :=
  let thrice := named [("maxAttempts",.scalar (.number 3))]
  named [("dfsm",word "1.0"),("id",word "shop"),("initial",word "cart"),("states",named [
    ("cart",named [("on",named [
      ("PAY",named [("target",word "paid"),("retry",thrice)]),
      ("RETRY",named [("target",word "paid"),("retry",.reference thrice)])])]),
    ("paid",named [("type",word "final")])])]

/-- Texts that are enough where no key is a number or a collection. -/
def plainTexts : Texts := { numeral := fun _ => "0", printed := fun _ => "[ ]" }

theorem displayedPolicyPay : PolicyShown plainTexts Unit shop
    (named [("target",word "paid"),("retry",named [("maxAttempts",.scalar (.number 3))])]) ⟨["cart"],some "PAY"⟩ "shop:cart:PAY" := by
  refine (displayedPolicy plainTexts (by decide) rfl "shop:cart:PAY").mpr (fun l other => ⟨?_,fun _ => ?_⟩)
  · cases l <;> rfl
  · cases l <;> rfl

theorem displayedPolicyAliased : ¬ ∀ (texts : Texts) (root value : Yaml) (place : Place) (breakerKey : String),
    Complete.DFSM_V1_SCHEMA (Yaml.toJs texts root) = true → transitionAt texts root place = some value →
      PolicyShown texts Unit root value place breakerKey := by
  intro claim
  have shown := claim plainTexts shop (named [("target",word "paid"),("retry",.reference (named [("maxAttempts",.scalar (.number 3))]))])
    ⟨["cart"],some "RETRY"⟩ "shop:cart:RETRY" (by decide) rfl
  have attempts := shown.sources .maxAttempts (by decide)
  revert attempts
  decide

end Dfsm.Extension
