import Dfsm.Lib.Layers
import Dfsm.Policy.CircuitBreaker
import Mathlib.Data.Rat.Defs

/-! Partial policies, the three ways their layers are put together, and the normalizer
that reads all layers into one policy. -/
namespace Dfsm.Policy

/-- An own key of an object: not there, there with the value `undefined`, or set. -/
abbrev Field (α : Type) := Option (Option α)

inductive BackoffStrategy where
  | fixed | linear | exponential | exponential_jitter
  deriving DecidableEq, Repr

structure PartialBackoffPolicy where
  strategy : Field BackoffStrategy := none
  initialDelayMs : Field ℚ := none
  maxDelayMs : Field ℚ := none
  multiplier : Field ℚ := none

/-- `retryIf` sees the error thrown. -/
structure PartialRetryPolicy (Error : Type) where
  maxAttempts : Field Nat := none
  backoff : Field PartialBackoffPolicy := none
  retryIf : Field (Error → Bool) := none

structure PartialCircuitBreakerPolicy where
  enabled : Field Bool := none
  key : Field String := none
  failureThreshold : Field Nat := none
  slidingWindowSize : Field Nat := none
  openDurationMs : Field Int := none
  halfOpenMaxCalls : Field Nat := none

structure PartialOnFailPolicy where
  compensate : Field Bool := none
  target : Field String := none

structure PartialBenchmarkPolicy where
  enabled : Field Bool := none

structure PartialTransitionPolicy (Error : Type) where
  retry : Field (PartialRetryPolicy Error) := none
  circuitBreaker : Field PartialCircuitBreakerPolicy := none
  onFail : Field PartialOnFailPolicy := none
  benchmark : Field PartialBenchmarkPolicy := none
  compensateHandler : Field String := none

structure NormalizedBackoffPolicy where
  strategy : BackoffStrategy
  initialDelayMs : ℚ
  maxDelayMs : ℚ
  multiplier : ℚ
  deriving DecidableEq

structure NormalizedRetryPolicy (Error : Type) where
  maxAttempts : Nat
  backoff : NormalizedBackoffPolicy
  retryIf : Option (Error → Bool)

structure NormalizedOnFailPolicy where
  compensate : Bool
  target : String
  deriving DecidableEq

structure NormalizedBenchmarkPolicy where
  enabled : Bool
  deriving DecidableEq

structure NormalizedTransitionPolicy (Error : Type) where
  retry : NormalizedRetryPolicy Error
  circuitBreaker : NormalizedCircuitBreakerPolicy
  onFail : NormalizedOnFailPolicy
  benchmark : NormalizedBenchmarkPolicy
  compensateHandler : Option String

variable {Error : Type}

/-- `SDK_DEFAULT_POLICY`, with the breaker key of the transition. -/
def SDK_DEFAULT_POLICY (defaultBreakerKey : String) : NormalizedTransitionPolicy Error where
  retry := {
    maxAttempts := 1
    backoff := { strategy := .exponential, initialDelayMs := 100, maxDelayMs := 5000, multiplier := 2 }
    retryIf := none }
  circuitBreaker := {
    enabled := false, key := defaultBreakerKey, failureThreshold := 5, slidingWindowSize := 10
    openDurationMs := 30000, halfOpenMaxCalls := 1 }
  onFail := { compensate := false, target := "error" }
  benchmark := { enabled := true }
  compensateHandler := none

/-- `if (field !== undefined) value = field` -/
def assigned {α : Type} (value : α) (field : Field α) : α := field.join.getD value

def readBackoff (backoff : NormalizedBackoffPolicy) (layer : PartialBackoffPolicy) : NormalizedBackoffPolicy where
  strategy := assigned backoff.strategy layer.strategy
  initialDelayMs := assigned backoff.initialDelayMs layer.initialDelayMs
  maxDelayMs := assigned backoff.maxDelayMs layer.maxDelayMs
  multiplier := assigned backoff.multiplier layer.multiplier

def readRetry (retry : NormalizedRetryPolicy Error) (layer : PartialRetryPolicy Error) : NormalizedRetryPolicy Error where
  maxAttempts := assigned retry.maxAttempts layer.maxAttempts
  retryIf := layer.retryIf.join.or retry.retryIf
  backoff := match layer.backoff.join with
    | none => retry.backoff
    | some backoff => readBackoff retry.backoff backoff

def readCircuitBreaker (circuitBreaker : NormalizedCircuitBreakerPolicy) (layer : PartialCircuitBreakerPolicy) :
    NormalizedCircuitBreakerPolicy where
  enabled := assigned circuitBreaker.enabled layer.enabled
  key := assigned circuitBreaker.key layer.key
  failureThreshold := assigned circuitBreaker.failureThreshold layer.failureThreshold
  slidingWindowSize := assigned circuitBreaker.slidingWindowSize layer.slidingWindowSize
  openDurationMs := assigned circuitBreaker.openDurationMs layer.openDurationMs
  halfOpenMaxCalls := assigned circuitBreaker.halfOpenMaxCalls layer.halfOpenMaxCalls

def readOnFail (onFail : NormalizedOnFailPolicy) (layer : PartialOnFailPolicy) : NormalizedOnFailPolicy where
  compensate := assigned onFail.compensate layer.compensate
  target := assigned onFail.target layer.target

/-- One turn of the normalizer's loop. -/
def readLayer (policy : NormalizedTransitionPolicy Error) (layer : PartialTransitionPolicy Error) :
    NormalizedTransitionPolicy Error where
  retry := match layer.retry.join with
    | none => policy.retry
    | some retry => readRetry policy.retry retry
  circuitBreaker := match layer.circuitBreaker.join with
    | none => policy.circuitBreaker
    | some circuitBreaker => readCircuitBreaker policy.circuitBreaker circuitBreaker
  onFail := match layer.onFail.join with
    | none => policy.onFail
    | some onFail => readOnFail policy.onFail onFail
  benchmark := match layer.benchmark.join with
    | none => policy.benchmark
    | some benchmark => { enabled := assigned policy.benchmark.enabled benchmark.enabled }
  compensateHandler := layer.compensateHandler.join.or policy.compensateHandler

structure PolicyMergeInputs (Error : Type) where
  defaultBreakerKey : String
  globalDefaults : Option (PartialTransitionPolicy Error) := none
  machineDefaults : Option (PartialTransitionPolicy Error) := none
  transitionPolicy : Option (PartialTransitionPolicy Error) := none
  decoratorPolicy : Option (PartialTransitionPolicy Error) := none

def normalizeTransitionPolicy (inputs : PolicyMergeInputs Error) : NormalizedTransitionPolicy Error :=
  let layers := [inputs.globalDefaults,inputs.machineDefaults,inputs.transitionPolicy,inputs.decoratorPolicy]
  (layers.filterMap id).foldl readLayer (SDK_DEFAULT_POLICY inputs.defaultBreakerKey)

/-- `{ ...target, ...patch }` -/
def spread (target patch : PartialTransitionPolicy Error) : PartialTransitionPolicy Error where
  retry := patch.retry.or target.retry
  circuitBreaker := patch.circuitBreaker.or target.circuitBreaker
  onFail := patch.onFail.or target.onFail
  benchmark := patch.benchmark.or target.benchmark
  compensateHandler := patch.compensateHandler.or target.compensateHandler

/-- Two sections spread where either is there, an absent one as an empty object. -/
def spreadSections {α : Type} (empty : α) (both : α → α → α) (target patch : Field α) : Field α :=
  match target.join, patch.join with
  | none, none => patch.or target
  | target, patch => some (some (both (target.getD empty) (patch.getD empty)))

def spreadBackoff (target patch : PartialBackoffPolicy) : PartialBackoffPolicy where
  strategy := patch.strategy.or target.strategy
  initialDelayMs := patch.initialDelayMs.or target.initialDelayMs
  maxDelayMs := patch.maxDelayMs.or target.maxDelayMs
  multiplier := patch.multiplier.or target.multiplier

def spreadRetry (target patch : PartialRetryPolicy Error) : PartialRetryPolicy Error where
  maxAttempts := patch.maxAttempts.or target.maxAttempts
  retryIf := patch.retryIf.or target.retryIf
  backoff := spreadSections {} spreadBackoff target.backoff patch.backoff

def spreadCircuitBreaker (target patch : PartialCircuitBreakerPolicy) : PartialCircuitBreakerPolicy where
  enabled := patch.enabled.or target.enabled
  key := patch.key.or target.key
  failureThreshold := patch.failureThreshold.or target.failureThreshold
  slidingWindowSize := patch.slidingWindowSize.or target.slidingWindowSize
  openDurationMs := patch.openDurationMs.or target.openDurationMs
  halfOpenMaxCalls := patch.halfOpenMaxCalls.or target.halfOpenMaxCalls

def spreadOnFail (target patch : PartialOnFailPolicy) : PartialOnFailPolicy where
  compensate := patch.compensate.or target.compensate
  target := patch.target.or target.target

def spreadBenchmark (target patch : PartialBenchmarkPolicy) : PartialBenchmarkPolicy where
  enabled := patch.enabled.or target.enabled

def mergePartialInto (target patch : PartialTransitionPolicy Error) : PartialTransitionPolicy Error where
  retry := spreadSections {} spreadRetry target.retry patch.retry
  circuitBreaker := spreadSections {} spreadCircuitBreaker target.circuitBreaker patch.circuitBreaker
  onFail := spreadSections {} spreadOnFail target.onFail patch.onFail
  benchmark := spreadSections {} spreadBenchmark target.benchmark patch.benchmark
  compensateHandler := patch.compensateHandler.or target.compensateHandler

/-- The policy of `upsertFunctionMetadata`. -/
def upsertPolicy (existing : PartialTransitionPolicy Error) (update : Option (PartialTransitionPolicy Error)) :
    PartialTransitionPolicy Error :=
  match update with
  | none => existing
  | some policy => mergePartialInto existing policy

/-- `MachineBuilder.defaults` -/
def defaults (defaultPolicy policy : PartialTransitionPolicy Error) : PartialTransitionPolicy Error :=
  spread defaultPolicy policy

/-- `FSMRegistry.configure` -/
def configure (globalDefaults : PartialTransitionPolicy Error) (options : Option (PartialTransitionPolicy Error)) :
    PartialTransitionPolicy Error :=
  match options with
  | none => globalDefaults
  | some policy => spread globalDefaults policy

end Dfsm.Policy
