import Dfsm.Go.Policy
import Dfsm.Policy.Layering

/-! Policy layering of the Go SDK, with all that a policy holds: which layer speaks for each
leaf, against the leaf by leaf merge of the specification and of the TypeScript SDK. -/
namespace Dfsm.Go.Layering
open Layers

structure RetryPolicy where
  maxAttempts : Int
  backoffMs : Int
  backoffFactor : ℚ
  maxBackoffMs : Int
  backoff : String
  jitter : Bool

structure BenchmarkPolicy where
  enabled : Bool
  warnThresholdMs : Int

structure TransitionPolicy where
  retry : RetryPolicy
  circuitBreaker : Option CircuitBreakerPolicy
  onFail : Option OnFailPolicy
  compensateWith : String
  benchmark : BenchmarkPolicy

/-- A layer with the fields that only the waits and the benchmark read. -/
structure PartialTransitionPolicy extends Go.PartialTransitionPolicy where
  retryBackoffMs : Option Int := none
  retryBackoffFactor : Option ℚ := none
  retryMaxBackoffMs : Option Int := none
  retryBackoff : Option String := none
  retryJitter : Option Bool := none
  benchmarkEnabled : Option Bool := none
  benchmarkWarnMs : Option Int := none

def DefaultTransitionPolicy : TransitionPolicy where
  retry := { maxAttempts := 1, backoffMs := 100, backoffFactor := 2, maxBackoffMs := 10000, backoff := "EXPONENTIAL", jitter := false }
  circuitBreaker := none
  onFail := none
  compensateWith := ""
  benchmark := { enabled := true, warnThresholdMs := 1000 }

namespace PartialTransitionPolicy
variable (l : PartialTransitionPolicy)

def marksRetry : Bool := l.retryDefined || l.retryMaxAttempts.isSome
def marksCircuitBreaker : Bool := l.cbDefined || l.cbFailureThreshold.isSome
def marksOnFail : Bool := l.onFailDefined || l.onFailTarget.isSome || l.onFailCompensate.isSome

end PartialTransitionPolicy

/-- Each scan ends at the first layer that marks its section. -/
def MergePolicies (layers : List (Option PartialTransitionPolicy)) : TransitionPolicy :=
  let layers := layers.filterMap id
  let default := DefaultTransitionPolicy
  { retry := match layers.find? (·.marksRetry) with
      | none => default.retry
      | some l => {
        maxAttempts := l.retryMaxAttempts.getD default.retry.maxAttempts
        backoffMs := l.retryBackoffMs.getD default.retry.backoffMs
        backoffFactor := l.retryBackoffFactor.getD default.retry.backoffFactor
        maxBackoffMs := l.retryMaxBackoffMs.getD default.retry.maxBackoffMs
        backoff := l.retryBackoff.getD default.retry.backoff
        jitter := l.retryJitter.getD default.retry.jitter }
    circuitBreaker := (layers.find? (·.marksCircuitBreaker)).map (fun l => {
      enabled := l.cbEnabled.getD true
      failureThreshold := l.cbFailureThreshold.getD 5
      recoveryTimeoutMs := l.cbRecoveryTimeoutMs.getD 30000
      halfOpenSuccessThreshold := l.cbHalfOpenSuccess.getD 2 })
    onFail := (layers.find? (·.marksOnFail)).map (fun l => {
      target := l.onFailTarget.getD "error"
      compensate := l.onFailCompensate.getD false })
    compensateWith := (layers.findSome? (·.compensateWith)).getD ""
    benchmark := match layers.find? (·.benchmarkEnabled.isSome) with
      | none => { enabled := true, warnThresholdMs := 1000 }
      | some l => { enabled := l.benchmarkEnabled.getD true, warnThresholdMs := l.benchmarkWarnMs.getD 1000 } }

/-- What the actor reads of a policy, waits apart. -/
def TransitionPolicy.brief (policy : TransitionPolicy) : Go.TransitionPolicy where
  maxAttempts := policy.retry.maxAttempts
  circuitBreaker := policy.circuitBreaker
  onFail := policy.onFail
  compensateWith := policy.compensateWith

inductive Leaf where
  | maxAttempts | backoffMs | backoffFactor | maxBackoffMs | backoff | jitter
  | enabled | failureThreshold | recoveryTimeoutMs | halfOpenSuccessThreshold
  | target | compensate | compensateWith | benchmarkEnabled | warnThresholdMs
  deriving DecidableEq

namespace Leaf

/-- The name of a strategy is told by its letters, not their case. -/
def Value : Leaf → Type
  | .maxAttempts | .backoffMs | .maxBackoffMs | .failureThreshold | .recoveryTimeoutMs | .halfOpenSuccessThreshold
  | .warnThresholdMs => Int
  | .backoffFactor => ℚ
  | .backoff => List Char
  | .jitter | .enabled | .compensate | .benchmarkEnabled => Bool
  | .target | .compensateWith => String

end Leaf

def folded (name : String) : List Char := name.toList.map Char.toLower

/-- The leaves a layer sets. -/
def PartialTransitionPolicy.leaf (p : PartialTransitionPolicy) : (l : Leaf) → Option l.Value
  | .maxAttempts => p.retryMaxAttempts
  | .backoffMs => p.retryBackoffMs
  | .backoffFactor => p.retryBackoffFactor
  | .maxBackoffMs => p.retryMaxBackoffMs
  | .backoff => p.retryBackoff.map folded
  | .jitter => p.retryJitter
  | .enabled => p.cbEnabled
  | .failureThreshold => p.cbFailureThreshold
  | .recoveryTimeoutMs => p.cbRecoveryTimeoutMs
  | .halfOpenSuccessThreshold => p.cbHalfOpenSuccess
  | .target => p.onFailTarget
  | .compensate => p.onFailCompensate
  | .compensateWith => p.compensateWith
  | .benchmarkEnabled => p.benchmarkEnabled
  | .warnThresholdMs => p.benchmarkWarnMs

/-- The leaves of a policy. Without a breaker it has a disabled one, and without `onFail` the
plain failure. -/
def TransitionPolicy.leaf (policy : TransitionPolicy) : (l : Leaf) → l.Value
  | .maxAttempts => policy.retry.maxAttempts
  | .backoffMs => policy.retry.backoffMs
  | .backoffFactor => policy.retry.backoffFactor
  | .maxBackoffMs => policy.retry.maxBackoffMs
  | .backoff => folded policy.retry.backoff
  | .jitter => policy.retry.jitter
  | .enabled => (policy.circuitBreaker.map (·.enabled)).getD false
  | .failureThreshold => (policy.circuitBreaker.map (·.failureThreshold)).getD (5 : Int)
  | .recoveryTimeoutMs => (policy.circuitBreaker.map (·.recoveryTimeoutMs)).getD (30000 : Int)
  | .halfOpenSuccessThreshold => (policy.circuitBreaker.map (·.halfOpenSuccessThreshold)).getD (1 : Int)
  | .target => (policy.onFail.map (·.target)).getD "error"
  | .compensate => (policy.onFail.map (·.compensate)).getD false
  | .compensateWith => policy.compensateWith
  | .benchmarkEnabled => policy.benchmark.enabled
  | .warnThresholdMs => policy.benchmark.warnThresholdMs

/-- The SDK defaults of the specification; it has no jitter, no warnings and no handler. -/
def specified : (l : Leaf) → l.Value
  | .maxAttempts => (1 : Int)
  | .backoffMs => (100 : Int)
  | .backoffFactor => (2 : ℚ)
  | .maxBackoffMs => (5000 : Int)
  | .backoff => folded "exponential"
  | .jitter => false
  | .enabled => false
  | .failureThreshold => (5 : Int)
  | .recoveryTimeoutMs => (30000 : Int)
  | .halfOpenSuccessThreshold => (1 : Int)
  | .target => "error"
  | .compensate => false
  | .compensateWith => ""
  | .benchmarkEnabled => true
  | .warnThresholdMs => (1000 : Int)

/-- What a leaf is by default in a section that a layer marks. -/
def own : (l : Leaf) → l.Value
  | .maxBackoffMs => (10000 : Int)
  | .enabled => true
  | .halfOpenSuccessThreshold => (2 : Int)
  | .maxAttempts => (1 : Int)
  | .backoffMs => (100 : Int)
  | .backoffFactor => (2 : ℚ)
  | .backoff => folded "EXPONENTIAL"
  | .jitter => false
  | .failureThreshold => (5 : Int)
  | .recoveryTimeoutMs => (30000 : Int)
  | .target => "error"
  | .compensate => false
  | .compensateWith => ""
  | .benchmarkEnabled => true
  | .warnThresholdMs => (1000 : Int)

/-- And where no layer marks the section. -/
def absent : (l : Leaf) → l.Value
  | .maxBackoffMs => (10000 : Int)
  | l => specified l

/-- Whether a layer marks the section of a leaf. -/
def marks (p : PartialTransitionPolicy) : Leaf → Bool
  | .maxAttempts | .backoffMs | .backoffFactor | .maxBackoffMs | .backoff | .jitter => p.marksRetry
  | .enabled | .failureThreshold | .recoveryTimeoutMs | .halfOpenSuccessThreshold => p.marksCircuitBreaker
  | .target | .compensate => p.marksOnFail
  | .compensateWith => p.compensateWith.isSome
  | .benchmarkEnabled | .warnThresholdMs => p.benchmarkEnabled.isSome

theorem mergeLeaf (layers : List (Option PartialTransitionPolicy)) (l : Leaf) :
    (MergePolicies layers).leaf l = spoken (marks · l) (·.leaf l) (own l) (absent l) (layers.filterMap id) := by
  have handler (below : List PartialTransitionPolicy) : (below.findSome? (·.compensateWith)).getD "" =
      spoken (·.compensateWith.isSome) (·.compensateWith) "" "" below := by
    induction below with
    | nil => rfl
    | cons p below ih =>
      rw [List.findSome?_cons]
      cases named : p.compensateWith with
      | none => rw [spoken,List.find?_cons_of_neg (by simp [named])]; exact ih
      | some name => rw [spoken,List.find?_cons_of_pos (by simp [named])]; simp [named]
  unfold MergePolicies
  dsimp only
  cases l with
  | compensateWith => exact handler _
  | maxAttempts | backoffMs | backoffFactor | maxBackoffMs | jitter =>
    unfold spoken marks TransitionPolicy.leaf
    dsimp only
    cases (layers.filterMap id).find? (fun p => p.marksRetry) <;> rfl
  | backoff =>
    unfold spoken marks TransitionPolicy.leaf
    dsimp only
    cases (layers.filterMap id).find? (fun p => p.marksRetry) with
    | none =>
      change folded "EXPONENTIAL" = folded "exponential"
      decide
    | some p =>
      change folded (p.retryBackoff.getD "EXPONENTIAL") = (p.retryBackoff.map folded).getD (folded "EXPONENTIAL")
      cases p.retryBackoff <;> rfl
  | enabled | failureThreshold | recoveryTimeoutMs | halfOpenSuccessThreshold =>
    unfold spoken marks TransitionPolicy.leaf
    dsimp only
    cases (layers.filterMap id).find? (fun p => p.marksCircuitBreaker) <;> rfl
  | target | compensate =>
    unfold spoken marks TransitionPolicy.leaf
    dsimp only
    cases (layers.filterMap id).find? (fun p => p.marksOnFail) <;> rfl
  | benchmarkEnabled | warnThresholdMs =>
    unfold spoken marks TransitionPolicy.leaf
    dsimp only
    cases (layers.filterMap id).find? (fun p => p.benchmarkEnabled.isSome) <;> rfl

/-- The leaves that the TypeScript SDK has too. -/
inductive Shared where
  | maxAttempts | strategy | initialDelayMs | maxDelayMs | multiplier | enabled | failureThreshold | openDurationMs
  | halfOpenMaxCalls | compensate | target | benchmark | compensateHandler

namespace Shared

def go : Shared → Leaf
  | maxAttempts => .maxAttempts
  | strategy => .backoff
  | initialDelayMs => .backoffMs
  | maxDelayMs => .maxBackoffMs
  | multiplier => .backoffFactor
  | enabled => .enabled
  | failureThreshold => .failureThreshold
  | openDurationMs => .recoveryTimeoutMs
  | halfOpenMaxCalls => .halfOpenSuccessThreshold
  | compensate => .compensate
  | target => .target
  | benchmark => .benchmarkEnabled
  | compensateHandler => .compensateWith

def typescript : Shared → Policy.Leaf
  | maxAttempts => .maxAttempts
  | strategy => .strategy
  | initialDelayMs => .initialDelayMs
  | maxDelayMs => .maxDelayMs
  | multiplier => .multiplier
  | enabled => .enabled
  | failureThreshold => .failureThreshold
  | openDurationMs => .openDurationMs
  | halfOpenMaxCalls => .halfOpenMaxCalls
  | compensate => .compensate
  | target => .target
  | benchmark => .benchmark
  | compensateHandler => .compensateHandler

def strategyName : Policy.BackoffStrategy → String
  | .fixed => "fixed"
  | .linear => "linear"
  | .exponential => "exponential"
  | .exponential_jitter => "exponential_jitter"

/-- `int(delay)` -/
def truncated (delay : ℚ) : Int := delay.num.tdiv delay.den

/-- A value of the TypeScript SDK as the Go SDK has it. -/
def convert {Error : Type} : (s : Shared) → s.typescript.Value Error → s.go.Value
  | maxAttempts => fun (n : Nat) => (n : Int)
  | strategy => fun (name : Policy.BackoffStrategy) => folded (strategyName name)
  | initialDelayMs => truncated
  | maxDelayMs => truncated
  | multiplier => fun (factor : ℚ) => factor
  | enabled => fun (on : Bool) => on
  | failureThreshold => fun (n : Nat) => (n : Int)
  | openDurationMs => fun (ms : Int) => ms
  | halfOpenMaxCalls => fun (n : Nat) => (n : Int)
  | compensate => fun (on : Bool) => on
  | target => fun (name : String) => name
  | benchmark => fun (on : Bool) => on
  | compensateHandler => fun (name : String) => name

end Shared

/-- Layers of the two SDKs that set the shared leaves alike. -/
def Corresponds {Error : Type} (go : Option PartialTransitionPolicy) (typescript : Option (Policy.PartialTransitionPolicy Error)) : Prop :=
  ∀ s : Shared, go.bind (·.leaf s.go) = (typescript.bind (·.leaf s.typescript)).map s.convert

/-- What the specification asks of a merge of layers, the highest first. -/
structure Layered (layers : List (Option PartialTransitionPolicy)) (policy : TransitionPolicy) : Prop where
  leaves : ∀ l, policy.leaf l = (layers.findSome? (fun p => p.bind (·.leaf l))).getD (specified l)
  typescript : ∀ {Error : Type} (inputs : Policy.PolicyMergeInputs Error),
    List.Forall₂ Corresponds layers
      [inputs.decoratorPolicy,inputs.transitionPolicy,inputs.machineDefaults,inputs.globalDefaults] →
    ∀ s : Shared, policy.leaf s.go =
      (((Policy.normalizeTransitionPolicy inputs).leaf s.typescript).map s.convert).getD (specified s.go)

theorem specifiedShared {Error : Type} (key : String) (s : Shared) :
    (((Policy.SDK_DEFAULT_POLICY key).leaf s.typescript).map (@Shared.convert Error s)).getD (specified s.go) = specified s.go := by
  cases s with
  | strategy =>
    have named : @Shared.convert Error Shared.strategy Policy.BackoffStrategy.exponential = specified .backoff := rfl
    exact (congrArg (fun value => (some value).getD (specified .backoff)) named)
  | initialDelayMs => exact (by decide : Shared.truncated 100 = 100)
  | maxDelayMs => exact (by decide : Shared.truncated 5000 = 5000)
  | _ => rfl

theorem normalizedShared {Error : Type} (inputs : Policy.PolicyMergeInputs Error) (l : Policy.Leaf) :
    (Policy.normalizeTransitionPolicy inputs).leaf l =
      ([inputs.decoratorPolicy,inputs.transitionPolicy,inputs.machineDefaults,inputs.globalDefaults].findSome?
        (fun p => p.bind (·.leaf l))).or ((Policy.SDK_DEFAULT_POLICY inputs.defaultBreakerKey).leaf l) := by
  rw [Policy.normalizedLeaf]
  congr 1
  cases inputs.decoratorPolicy <;> cases inputs.transitionPolicy <;> cases inputs.machineDefaults <;>
    cases inputs.globalDefaults <;> rfl

theorem correspondingLeaf {Error : Type} {layers : List (Option PartialTransitionPolicy)}
    {others : List (Option (Policy.PartialTransitionPolicy Error))} (alike : List.Forall₂ Corresponds layers others) (s : Shared) :
    layers.findSome? (fun p => p.bind (·.leaf s.go)) =
      (others.findSome? (fun p => p.bind (·.leaf s.typescript))).map s.convert := by
  induction alike with
  | nil => rfl
  | @cons go typescript layers others same _ ih =>
    rw [List.findSome?_cons,List.findSome?_cons,same s,ih]
    cases typescript.bind (·.leaf s.typescript) <;> rfl

theorem leavesAgree {layers : List (Option PartialTransitionPolicy)} {policy : TransitionPolicy}
    (leaves : ∀ l, policy.leaf l = (layers.findSome? (fun p => p.bind (·.leaf l))).getD (specified l)) : Layered layers policy where
  leaves := leaves
  typescript := by
    intro Error inputs alike s
    rw [leaves,correspondingLeaf alike,normalizedShared]
    cases [inputs.decoratorPolicy,inputs.transitionPolicy,inputs.machineDefaults,inputs.globalDefaults].findSome?
      (fun p => p.bind (·.leaf s.typescript)) with
    | none => exact (specifiedShared inputs.defaultBreakerKey s).symm
    | some value => rfl

/-- The merge is leaf by leaf exactly where, leaf by leaf, the layer that speaks for the section
is heard out: what the specification takes from another layer or from its defaults is what it says. -/
theorem goMergeLayered (layers : List (Option PartialTransitionPolicy)) :
    Layered layers (MergePolicies layers) ↔
      ∀ l, Heard (marks · l) (·.leaf l) (own l) (absent l) (specified l) (layers.filterMap id) := by
  have set (l : Leaf) : (layers.filterMap id).findSome? (·.leaf l) = layers.findSome? (fun p => p.bind (·.leaf l)) := by
    induction layers with
    | nil => rfl
    | cons p layers ih =>
      rw [List.findSome?_cons,← ih]
      cases p with
      | none => rfl
      | some p => rfl
  constructor
  · intro layered l
    refine (heardIff _ _ _ _ _ _).mp ?_
    rw [← mergeLeaf,set]
    exact layered.leaves l
  · intro heard
    refine leavesAgree (fun l => ?_)
    rw [mergeLeaf,← set]
    exact (heardIff _ _ _ _ _ _).mpr (heard l)

/-- The example of the specification: attempts from the code, the waits from the transition. -/
def documented : List (Option PartialTransitionPolicy) := [
  some { retryMaxAttempts := some 4, retryDefined := true },
  some { retryMaxAttempts := some 3, retryBackoff := some "linear", retryBackoffMs := some 250, retryDefined := true }]

theorem goMergeLayeredDocumented : ¬ ∀ layers, Layered layers (MergePolicies layers) := by
  intro claim
  have waits : (100 : Int) = 250 := (claim documented).leaves .backoffMs
  exact absurd waits (by decide)

end Dfsm.Go.Layering
