import Dfsm.Java.Policies
import Dfsm.Lib.Layers

/-! Policy layering of the Java SDK: what a sequence of settings given to one layer leaves of
each leaf, and what the merger makes of the layers. -/
namespace Dfsm.Java.Policies
open Layers

inductive Leaf where
  | maxAttempts | strategy | initialDelayMs | maxDelayMs | multiplier
  | enabled | failureThreshold | slidingWindowSize | openDurationMs | halfOpenMaxCalls
  | compensate | target | benchmark | compensateHandler

def Leaf.Value : Leaf → Type
  | .maxAttempts | .failureThreshold | .slidingWindowSize | .halfOpenMaxCalls => Int32
  | .strategy => BackoffStrategy
  | .initialDelayMs | .maxDelayMs | .openDurationMs => Int64
  | .multiplier => Double
  | .enabled | .compensate | .benchmark => Bool
  | .target | .compensateHandler => String

/-- The leaves of a normalized policy; the handler may be missing. -/
def NormalizedTransitionPolicy.leaf (policy : NormalizedTransitionPolicy) : (l : Leaf) → Option l.Value
  | .maxAttempts => some policy.retry.maxAttempts
  | .strategy => some policy.retry.backoff.strategy
  | .initialDelayMs => some policy.retry.backoff.initialDelayMs
  | .maxDelayMs => some policy.retry.backoff.maxDelayMs
  | .multiplier => some policy.retry.backoff.multiplier
  | .enabled => some policy.circuitBreaker.enabled
  | .failureThreshold => some policy.circuitBreaker.failureThreshold
  | .slidingWindowSize => some policy.circuitBreaker.slidingWindowSize
  | .openDurationMs => some policy.circuitBreaker.openDurationMs
  | .halfOpenMaxCalls => some policy.circuitBreaker.halfOpenMaxCalls
  | .compensate => some policy.onFail.compensate
  | .target => some policy.onFail.target
  | .benchmark => some policy.benchmark.enabled
  | .compensateHandler => policy.compensateHandler

/-! The leaves that each section sets, in the range the merger admits; blank text sets none. -/

def from32 (least : Int32) (field : Option Int32) : Option Int32 := field.map (max least)
def from64 (least : Int64) (field : Option Int64) : Option Int64 := field.map (max least)

def PartialBackoff.leaf (backoff : PartialBackoff) : (l : Leaf) → Option l.Value
  | .strategy => backoff.strategy
  | .initialDelayMs => from64 0 backoff.initialDelayMs
  | .maxDelayMs => from64 0 backoff.maxDelayMs
  | .multiplier => backoff.multiplier.map Double.atLeastOne
  | _ => none

def PartialRetry.leaf (retry : PartialRetry) : (l : Leaf) → Option l.Value
  | .maxAttempts => from32 1 retry.maxAttempts
  | l => retry.backoff.bind (·.leaf l)

def PartialCircuitBreaker.leaf (cb : PartialCircuitBreaker) : (l : Leaf) → Option l.Value
  | .enabled => cb.enabled
  | .failureThreshold => from32 1 cb.failureThreshold
  | .slidingWindowSize => from32 1 cb.slidingWindowSize
  | .openDurationMs => from64 1 cb.openDurationMs
  | .halfOpenMaxCalls => from32 1 cb.halfOpenMaxCalls
  | _ => none

def PartialOnFail.leaf (onFail : PartialOnFail) : (l : Leaf) → Option l.Value
  | .compensate => onFail.compensate
  | .target => given onFail.target
  | _ => none

def PartialBenchmark.leaf (benchmark : PartialBenchmark) : (l : Leaf) → Option l.Value
  | .benchmark => benchmark.enabled
  | _ => none

def PartialTransitionPolicy.leaf (p : PartialTransitionPolicy) : (l : Leaf) → Option l.Value
  | .maxAttempts => p.retry.bind (·.leaf .maxAttempts)
  | .strategy => p.retry.bind (·.leaf .strategy)
  | .initialDelayMs => p.retry.bind (·.leaf .initialDelayMs)
  | .maxDelayMs => p.retry.bind (·.leaf .maxDelayMs)
  | .multiplier => p.retry.bind (·.leaf .multiplier)
  | .enabled => p.circuitBreaker.bind (·.leaf .enabled)
  | .failureThreshold => p.circuitBreaker.bind (·.leaf .failureThreshold)
  | .slidingWindowSize => p.circuitBreaker.bind (·.leaf .slidingWindowSize)
  | .openDurationMs => p.circuitBreaker.bind (·.leaf .openDurationMs)
  | .halfOpenMaxCalls => p.circuitBreaker.bind (·.leaf .halfOpenMaxCalls)
  | .compensate => p.onFail.bind (·.leaf .compensate)
  | .target => p.onFail.bind (·.leaf .target)
  | .benchmark => p.benchmark.bind (·.leaf .benchmark)
  | .compensateHandler => given p.compensateHandler

/-- One setting of a layer. -/
inductive Setting where
  | retry (newRetry : PartialRetry)
  | backoff (newBackoff : PartialBackoff)
  | circuitBreaker (cb : PartialCircuitBreaker)
  | onFail (pof : PartialOnFail)
  | benchmark (bm : PartialBenchmark)
  | compensateHandler (handler : Option String)

namespace Setting

/-- The `withX` call. -/
def apply (p : PartialTransitionPolicy) : Setting → PartialTransitionPolicy
  | retry newRetry => p.withRetry newRetry
  | backoff newBackoff => p.withBackoff newBackoff
  | circuitBreaker cb => p.withCircuitBreaker cb
  | onFail pof => p.withOnFail pof
  | benchmark bm => p.withBenchmark bm
  | compensateHandler handler => p.withCompensateHandler handler

/-- The policy of the setting alone. -/
def alone (s : Setting) : PartialTransitionPolicy := s.apply .EMPTY

/-- Whether the setting replaces what the layer has said of the leaf. -/
def replaces : Setting → Leaf → Bool
  | circuitBreaker _, .enabled | circuitBreaker _, .failureThreshold | circuitBreaker _, .slidingWindowSize
  | circuitBreaker _, .openDurationMs | circuitBreaker _, .halfOpenMaxCalls => true
  | onFail _, .compensate | onFail _, .target => true
  | benchmark _, .benchmark => true
  | compensateHandler _, .compensateHandler => true
  | _, _ => false

/-- What the setting mentions of a leaf: retries and backoffs only the leaves they set. -/
def mention (s : Setting) (l : Leaf) : Option (Option l.Value) :=
  if s.replaces l then some (s.alone.leaf l) else (s.alone.leaf l).map some

theorem mergedLeaf (base newer : Option PartialBackoff) (l : Leaf) :
    (mergeBackoff base newer).bind (·.leaf l) = (newer.bind (·.leaf l)).or (base.bind (·.leaf l)) := by
  cases base with
  | none => cases newer <;> simp [mergeBackoff]
  | some base =>
    cases newer with
    | none => rfl
    | some newer =>
      obtain ⟨strategy,initialDelayMs,maxDelayMs,multiplier⟩ := newer
      cases l with
      | strategy => cases strategy <;> rfl
      | initialDelayMs => cases initialDelayMs <;> rfl
      | maxDelayMs => cases maxDelayMs <;> rfl
      | multiplier => cases multiplier <;> rfl
      | _ => rfl

theorem retriedLeaf (retry newRetry : PartialRetry) (l : Leaf) :
    PartialRetry.leaf { maxAttempts := newRetry.maxAttempts.or retry.maxAttempts
                        backoff := mergeBackoff retry.backoff newRetry.backoff } l = (newRetry.leaf l).or (retry.leaf l) := by
  cases l with
  | maxAttempts =>
    obtain ⟨maxAttempts,_⟩ := newRetry
    cases maxAttempts <;> rfl
  | _ => exact mergedLeaf _ _ _

theorem retryLeaf (p : PartialTransitionPolicy) (newRetry : PartialRetry) (l : Leaf) :
    (p.withRetry newRetry).leaf l = ((PartialTransitionPolicy.EMPTY.withRetry newRetry).leaf l).or (p.leaf l) := by
  obtain ⟨retry,circuitBreaker,onFail,benchmark,compensateHandler⟩ := p
  cases retry with
  | none =>
    cases l with
    | maxAttempts | strategy | initialDelayMs | maxDelayMs | multiplier => exact Option.or_none.symm
    | _ => rfl
  | some retry =>
    cases l with
    | maxAttempts => exact retriedLeaf retry newRetry .maxAttempts
    | strategy => exact retriedLeaf retry newRetry .strategy
    | initialDelayMs => exact retriedLeaf retry newRetry .initialDelayMs
    | maxDelayMs => exact retriedLeaf retry newRetry .maxDelayMs
    | multiplier => exact retriedLeaf retry newRetry .multiplier
    | _ => rfl

theorem backoffRetry (p : PartialTransitionPolicy) (newBackoff : PartialBackoff) :
    p.withBackoff newBackoff = p.withRetry { backoff := some newBackoff } := by
  unfold PartialTransitionPolicy.withBackoff PartialTransitionPolicy.withRetry
  cases p.retry <;> rfl

theorem applyLeaf (p : PartialTransitionPolicy) (s : Setting) (l : Leaf) : (s.apply p).leaf l = (s.mention l).getD (p.leaf l) := by
  have quiet (newRetry : PartialRetry) : (p.withRetry newRetry).leaf l =
      (((PartialTransitionPolicy.EMPTY.withRetry newRetry).leaf l).map some).getD (p.leaf l) := by
    rw [retryLeaf]
    cases (PartialTransitionPolicy.EMPTY.withRetry newRetry).leaf l <;> rfl
  cases s with
  | retry newRetry => exact quiet newRetry
  | backoff newBackoff =>
    change (p.withBackoff newBackoff).leaf l = (((PartialTransitionPolicy.EMPTY.withBackoff newBackoff).leaf l).map some).getD (p.leaf l)
    rw [backoffRetry,backoffRetry]
    exact quiet _
  | circuitBreaker cb => cases l <;> rfl
  | onFail pof => cases l <;> rfl
  | benchmark bm => cases l <;> rfl
  | compensateHandler handler => cases l <;> rfl

end Setting

/-- A call of the builder. -/
inductive BuilderCall where
  | retry (maxAttempts : Int32)
  | backoff (strategy : Option BackoffStrategy) (initialDelayMs maxDelayMs : Int64) (multiplier : Double)
  | circuitBreaker (failureThreshold slidingWindowSize : Int32) (openDurationMs : Int64) (halfOpenMaxCalls : Int32)
  | circuitBreakerEnabled (enabled : Bool)
  | onFail (compensate : Bool) (target : Option String)
  | compensateWith (compensateHandlerName : Option String)
  | benchmark (enabled : Bool)

namespace BuilderCall

def call (policy : PartialTransitionPolicy) : BuilderCall → PartialTransitionPolicy
  | retry maxAttempts => TransitionDecoratorBuilder.retry policy maxAttempts
  | backoff strategy initialDelayMs maxDelayMs multiplier =>
    TransitionDecoratorBuilder.backoff policy strategy initialDelayMs maxDelayMs multiplier
  | circuitBreaker failureThreshold slidingWindowSize openDurationMs halfOpenMaxCalls =>
    TransitionDecoratorBuilder.circuitBreaker policy failureThreshold slidingWindowSize openDurationMs halfOpenMaxCalls
  | circuitBreakerEnabled enabled => TransitionDecoratorBuilder.circuitBreakerEnabled policy enabled
  | onFail compensate target => TransitionDecoratorBuilder.onFail policy compensate target
  | compensateWith compensateHandlerName => TransitionDecoratorBuilder.compensateWith policy compensateHandlerName
  | benchmark enabled => TransitionDecoratorBuilder.benchmark policy enabled

def setting : BuilderCall → Setting
  | retry maxAttempts => .retry { maxAttempts := some maxAttempts }
  | backoff strategy initialDelayMs maxDelayMs multiplier => .backoff {
    strategy, initialDelayMs := some initialDelayMs, maxDelayMs := some maxDelayMs, multiplier := some multiplier }
  | circuitBreaker failureThreshold slidingWindowSize openDurationMs halfOpenMaxCalls => .circuitBreaker {
    enabled := some true, failureThreshold := some failureThreshold, slidingWindowSize := some slidingWindowSize
    openDurationMs := some openDurationMs, halfOpenMaxCalls := some halfOpenMaxCalls }
  | circuitBreakerEnabled enabled => .circuitBreaker { enabled := some enabled }
  | onFail compensate target => .onFail { compensate := some compensate, target := given target }
  | compensateWith compensateHandlerName => .compensateHandler compensateHandlerName
  | benchmark enabled => .benchmark { enabled := some enabled }

theorem callSetting (policy : PartialTransitionPolicy) (c : BuilderCall) : c.call policy = c.setting.apply policy := by
  cases c <;> rfl

end BuilderCall

/-- The annotations of a method, as settings. -/
def Annotations.settings (method : Annotations) : List Setting :=
  (method.retry.map (fun ann => Setting.retry ann.policy)).toList ++
  (method.backoff.map (fun ann => Setting.backoff ann.policy)).toList ++
  (method.circuitBreaker.map (fun ann => Setting.circuitBreaker ann.policy)).toList ++
  (method.onFail.map (fun ann => Setting.onFail ann.policy)).toList ++
  ((method.compensateWith.filter (fun ann => !isBlank ann.value)).map (fun ann => Setting.compensateHandler (some ann.value))).toList ++
  (method.benchmark.map (fun ann => Setting.benchmark { enabled := some ann.enabled })).toList

theorem extractSettings (method : Annotations) : extractPolicy method = method.settings.foldl Setting.apply .EMPTY := by
  obtain ⟨retry,backoff,circuitBreaker,onFail,compensateWith,benchmark⟩ := method
  have handler (policy : PartialTransitionPolicy) (ann : CompensateWith) :
      (if isBlank ann.value = true then policy else policy.withCompensateHandler (some ann.value)) =
        ((Option.map (fun ann : CompensateWith => Setting.compensateHandler (some ann.value))
          ((some ann).filter (fun ann => !isBlank ann.value))).toList).foldl Setting.apply policy := by
    by_cases blank : isBlank ann.value = true <;> simp [Option.filter,blank,Setting.apply]
  unfold extractPolicy Annotations.settings
  simp only [List.foldl_append]
  cases compensateWith with
  | none => cases retry <;> cases backoff <;> cases circuitBreaker <;> cases onFail <;> cases benchmark <;> rfl
  | some ann =>
    simp only [Option.elim_some,handler]
    cases retry <;> cases backoff <;> cases circuitBreaker <;> cases onFail <;> cases benchmark <;> rfl

/-- How a layer was put together. -/
inductive Layer where
  | setters (settings : List Setting)
  | builder (calls : List BuilderCall)
  | annotations (method : Annotations)

namespace Layer

/-- What the SDK makes of it. -/
def policy : Layer → PartialTransitionPolicy
  | setters settings => settings.foldl Setting.apply .EMPTY
  | builder calls => calls.foldl BuilderCall.call .EMPTY
  | annotations method => extractPolicy method

def settings : Layer → List Setting
  | setters settings => settings
  | builder calls => calls.map (·.setting)
  | annotations method => method.settings

/-- What its settings mention of a leaf. -/
def mentions (layer : Layer) (l : Leaf) : List (Option (Option l.Value)) := layer.settings.map (·.mention l)

theorem policySettings (layer : Layer) : layer.policy = layer.settings.foldl Setting.apply .EMPTY := by
  cases layer with
  | setters settings => rfl
  | builder calls =>
    rw [settings,List.foldl_map,policy]
    congr 1
    funext policy c
    exact c.callSetting policy
  | annotations method => exact extractSettings method

theorem policyLeaf (layer : Layer) (l : Leaf) : layer.policy.leaf l = (settled (layer.mentions l)).join := by
  rw [policySettings,mentions]
  have all (p : PartialTransitionPolicy) (settings : List Setting) : (settings.foldl Setting.apply p).leaf l =
      (settled (settings.map (·.mention l))).getD (p.leaf l) := by
    induction settings generalizing p with
    | nil => rfl
    | cons s settings ih =>
      rw [List.foldl_cons,ih,Setting.applyLeaf,List.map_cons,settled,settled,latestCons,id]
      cases latest id (settings.map (·.mention l)) <;> rfl
  rw [all]
  have empty : PartialTransitionPolicy.EMPTY.leaf l = none := by cases l <;> rfl
  rw [empty]
  cases settled (layer.settings.map (·.mention l)) <;> rfl

end Layer

theorem layerLeaf (base : NormalizedTransitionPolicy) (layer : PartialTransitionPolicy) (l : Leaf) :
    (applyLayer base layer).leaf l = (layer.leaf l).or (base.leaf l) := by
  have taken {α : Type} (own : α) (field : Option α) : some (field.getD own) = field.or (some own) := by cases field <;> rfl
  obtain ⟨retry,circuitBreaker,onFail,benchmark,compensateHandler⟩ := layer
  cases l with
  | maxAttempts =>
    cases retry with
    | none => rfl
    | some retry => exact taken _ (retry.maxAttempts.map (max 1))
  | strategy =>
    cases retry with
    | none => rfl
    | some retry =>
      obtain ⟨_,backoff⟩ := retry
      cases backoff with
      | none => rfl
      | some backoff => exact taken _ backoff.strategy
  | initialDelayMs =>
    cases retry with
    | none => rfl
    | some retry =>
      obtain ⟨_,backoff⟩ := retry
      cases backoff with
      | none => rfl
      | some backoff => exact taken _ (backoff.initialDelayMs.map (max 0))
  | maxDelayMs =>
    cases retry with
    | none => rfl
    | some retry =>
      obtain ⟨_,backoff⟩ := retry
      cases backoff with
      | none => rfl
      | some backoff => exact taken _ (backoff.maxDelayMs.map (max 0))
  | multiplier =>
    cases retry with
    | none => rfl
    | some retry =>
      obtain ⟨_,backoff⟩ := retry
      cases backoff with
      | none => rfl
      | some backoff => exact taken _ (backoff.multiplier.map Double.atLeastOne)
  | enabled =>
    cases circuitBreaker with
    | none => rfl
    | some cb => exact taken _ cb.enabled
  | failureThreshold =>
    cases circuitBreaker with
    | none => rfl
    | some cb => exact taken _ (cb.failureThreshold.map (max 1))
  | slidingWindowSize =>
    cases circuitBreaker with
    | none => rfl
    | some cb => exact taken _ (cb.slidingWindowSize.map (max 1))
  | openDurationMs =>
    cases circuitBreaker with
    | none => rfl
    | some cb => exact taken _ (cb.openDurationMs.map (max 1))
  | halfOpenMaxCalls =>
    cases circuitBreaker with
    | none => rfl
    | some cb => exact taken _ (cb.halfOpenMaxCalls.map (max 1))
  | compensate =>
    cases onFail with
    | none => rfl
    | some onFail => exact taken _ onFail.compensate
  | target =>
    cases onFail with
    | none => rfl
    | some onFail => exact taken _ (given onFail.target)
  | benchmark =>
    cases benchmark with
    | none => rfl
    | some benchmark => exact taken _ benchmark.enabled
  | compensateHandler => rfl

theorem normalizedLeaf (globalDefaults machineDefaults transitionYamlPolicy decoratorPolicy : Option PartialTransitionPolicy) (l : Leaf) :
    (normalize globalDefaults machineDefaults transitionYamlPolicy decoratorPolicy).leaf l =
      ([decoratorPolicy,transitionYamlPolicy,machineDefaults,globalDefaults].findSome? (fun p => p.bind (·.leaf l))).or (sdkDefault.leaf l) := by
  have empty (p : Option PartialTransitionPolicy) : (p.getD .EMPTY).leaf l = p.bind (·.leaf l) := by
    cases p with
    | none => cases l <;> rfl
    | some p => rfl
  simp only [normalize,List.foldl_cons,List.foldl_nil,layerLeaf,empty,List.findSome?_cons,List.findSome?_nil]
  cases decoratorPolicy.bind (·.leaf l) <;> cases transitionYamlPolicy.bind (·.leaf l) <;>
    cases machineDefaults.bind (·.leaf l) <;> cases globalDefaults.bind (·.leaf l) <;> rfl

/-- What an application says about one transition, layer by layer. -/
structure Layering where
  globalDefaults : Layer := .setters []
  machineDefaults : Layer := .setters []
  transition : Layer := .setters []
  decorator : Layer := .setters []

namespace Layering
variable (s : Layering)

def normalized : NormalizedTransitionPolicy :=
  normalize (some s.globalDefaults.policy) (some s.machineDefaults.policy) (some s.transition.policy) (some s.decorator.policy)

/-- The highest layer first. -/
def layers : List Layer := [s.decorator,s.transition,s.machineDefaults,s.globalDefaults]

/-- Each leaf as the last setting sets it that sets it at all, in the highest layer that has one,
and else as in the SDK's own. -/
def merged (l : Leaf) : Option l.Value := ((s.layers.map (·.mentions l)).findSome? asked).or (sdkDefault.leaf l)

theorem normalizedLayers (l : Leaf) : s.normalized.leaf l =
    ((s.layers.map (·.mentions l)).findSome? (fun layer => (settled layer).join)).or (sdkDefault.leaf l) := by
  rw [normalized,normalizedLeaf,layers,List.findSome?_map]
  simp only [List.findSome?_cons,List.findSome?_nil,Option.bind_some,Layer.policyLeaf,Function.comp]

/-- The merge is leaf by leaf exactly where no layer loses a leaf it set. -/
theorem javaLayered : (∀ l, s.normalized.leaf l = s.merged l) ↔ ∀ l, Layers.Kept (sdkDefault.leaf l) (s.layers.map (·.mentions l)) := by
  refine forall_congr' (fun l => ?_)
  rw [normalizedLayers,merged]
  exact keptIff _ _

/-- A breaker is described, and then switched on. -/
def described : Layering where
  decorator := .builder [.circuitBreaker 3 20 1000 2,.circuitBreakerEnabled true]

/-- Switching it on takes its threshold away. -/
theorem javaLayeredDescribed : ¬∀ (s : Layering) (l : Leaf), s.normalized.leaf l = s.merged l := by
  intro claim
  have threshold : some (5 : Int32) = some 3 := claim described .failureThreshold
  exact absurd threshold (by decide)

end Layering

end Dfsm.Java.Policies
