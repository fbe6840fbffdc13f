import Dfsm.Java.Machine
import Dfsm.Java.CircuitBreaker
import Mathlib.Algebra.Order.Ring.Rat

/-! Policies of the Java SDK: the partial ones with their setters, decorators and annotations,
and the merger that brings the layers together. -/
namespace Dfsm.Java.Policies

/-- A `double`; what is finite is taken as the rational it is. -/
inductive Double where
  | nan
  | infinite (negative : Bool)
  | finite (value : ℚ)
  deriving DecidableEq

namespace Double

/-- `Math.max(1.0, x)` -/
def atLeastOne : Double → Double
  | .nan => .nan
  | .infinite true => .finite 1
  | .infinite false => .infinite false
  | .finite value => .finite (max 1 value)

end Double

inductive BackoffStrategy where
  | FIXED | LINEAR | EXPONENTIAL | EXPONENTIAL_JITTER
  deriving DecidableEq, Repr

structure PartialBackoff where
  strategy : Option BackoffStrategy := none
  initialDelayMs : Option Int64 := none
  maxDelayMs : Option Int64 := none
  multiplier : Option Double := none

structure PartialRetry where
  maxAttempts : Option Int32 := none
  backoff : Option PartialBackoff := none

structure PartialCircuitBreaker where
  enabled : Option Bool := none
  failureThreshold : Option Int32 := none
  slidingWindowSize : Option Int32 := none
  openDurationMs : Option Int64 := none
  halfOpenMaxCalls : Option Int32 := none

structure PartialOnFail where
  compensate : Option Bool := none
  target : Option String := none

structure PartialBenchmark where
  enabled : Option Bool := none

structure PartialTransitionPolicy where
  retry : Option PartialRetry := none
  circuitBreaker : Option PartialCircuitBreaker := none
  onFail : Option PartialOnFail := none
  benchmark : Option PartialBenchmark := none
  compensateHandler : Option String := none

def PartialTransitionPolicy.EMPTY : PartialTransitionPolicy := {}

structure BackoffPolicy where
  strategy : BackoffStrategy
  initialDelayMs : Int64
  maxDelayMs : Int64
  multiplier : Double

structure RetryPolicy where
  maxAttempts : Int32
  backoff : BackoffPolicy

structure CircuitBreakerPolicy where
  enabled : Bool
  failureThreshold : Int32
  slidingWindowSize : Int32
  openDurationMs : Int64
  halfOpenMaxCalls : Int32

structure OnFailPolicy where
  compensate : Bool
  target : String

structure BenchmarkPolicy where
  enabled : Bool

structure NormalizedTransitionPolicy where
  retry : RetryPolicy
  circuitBreaker : CircuitBreakerPolicy
  onFail : OnFailPolicy
  benchmark : BenchmarkPolicy
  compensateHandler : Option String

def sdkDefault : NormalizedTransitionPolicy where
  retry := { maxAttempts := 1, backoff := { strategy := .EXPONENTIAL, initialDelayMs := 100, maxDelayMs := 5000, multiplier := .finite 2 } }
  circuitBreaker := { enabled := false, failureThreshold := 5, slidingWindowSize := 10, openDurationMs := 30000, halfOpenMaxCalls := 1 }
  onFail := { compensate := false, target := "error" }
  benchmark := { enabled := true }
  compensateHandler := none

/-! The setters. -/

def mergeBackoff : Option PartialBackoff → Option PartialBackoff → Option PartialBackoff
  | none, newer => newer
  | some base, none => some base
  | some base, some newer => some {
    strategy := newer.strategy.or base.strategy
    initialDelayMs := newer.initialDelayMs.or base.initialDelayMs
    maxDelayMs := newer.maxDelayMs.or base.maxDelayMs
    multiplier := newer.multiplier.or base.multiplier }

namespace PartialTransitionPolicy
variable (p : PartialTransitionPolicy)

def withRetry (newRetry : PartialRetry) : PartialTransitionPolicy :=
  { p with retry := some (match p.retry with
      | none => newRetry
      | some retry => { maxAttempts := newRetry.maxAttempts.or retry.maxAttempts, backoff := mergeBackoff retry.backoff newRetry.backoff }) }

def withBackoff (newBackoff : PartialBackoff) : PartialTransitionPolicy :=
  { p with retry := some (match p.retry with
      | none => { backoff := some newBackoff }
      | some retry => { retry with backoff := mergeBackoff retry.backoff (some newBackoff) }) }

def withCircuitBreaker (cb : PartialCircuitBreaker) : PartialTransitionPolicy := { p with circuitBreaker := some cb }

def withOnFail (pof : PartialOnFail) : PartialTransitionPolicy := { p with onFail := some pof }

def withBenchmark (bm : PartialBenchmark) : PartialTransitionPolicy := { p with benchmark := some bm }

def withCompensateHandler (handler : Option String) : PartialTransitionPolicy := { p with compensateHandler := handler }

end PartialTransitionPolicy

/-! `TransitionDecoratorBuilder` -/

namespace TransitionDecoratorBuilder
variable (policy : PartialTransitionPolicy)

def retry (maxAttempts : Int32) : PartialTransitionPolicy := policy.withRetry { maxAttempts := some maxAttempts }

def backoff (strategy : Option BackoffStrategy) (initialDelayMs maxDelayMs : Int64) (multiplier : Double) : PartialTransitionPolicy :=
  policy.withBackoff {
    strategy, initialDelayMs := some initialDelayMs, maxDelayMs := some maxDelayMs, multiplier := some multiplier }

def circuitBreaker (failureThreshold slidingWindowSize : Int32) (openDurationMs : Int64) (halfOpenMaxCalls : Int32) :
    PartialTransitionPolicy :=
  policy.withCircuitBreaker {
    enabled := some true, failureThreshold := some failureThreshold, slidingWindowSize := some slidingWindowSize
    openDurationMs := some openDurationMs, halfOpenMaxCalls := some halfOpenMaxCalls }

def circuitBreakerEnabled (enabled : Bool) : PartialTransitionPolicy := policy.withCircuitBreaker { enabled := some enabled }

def onFail (compensate : Bool) (target : Option String) : PartialTransitionPolicy :=
  policy.withOnFail { compensate := some compensate, target := given target }

def compensateWith (compensateHandlerName : Option String) : PartialTransitionPolicy :=
  policy.withCompensateHandler compensateHandlerName

def benchmark (enabled : Bool) : PartialTransitionPolicy := policy.withBenchmark { enabled := some enabled }

end TransitionDecoratorBuilder

/-! The annotations of a method, with the values that stand for "not given". -/

structure Retry where
  value : Int32 := -1
  maxAttempts : Int32 := -1

structure Backoff where
  strategy : BackoffStrategy := .EXPONENTIAL
  initialDelayMs : Int64 := -1
  maxDelayMs : Int64 := -1
  multiplier : Double := .finite (-1)

structure CircuitBreaker where
  enabled : Bool := true
  failureThreshold : Int32 := -1
  slidingWindowSize : Int32 := -1
  openDurationMs : Int64 := -1
  halfOpenMaxCalls : Int32 := -1

structure OnFail where
  compensate : Bool := false
  target : String := ""

structure CompensateWith where
  value : String

structure Benchmark where
  enabled : Bool := true

structure Annotations where
  retry : Option Retry := none
  backoff : Option Backoff := none
  circuitBreaker : Option CircuitBreaker := none
  onFail : Option OnFail := none
  compensateWith : Option CompensateWith := none
  benchmark : Option Benchmark := none

def Double.isPositive : Double → Bool
  | .nan => false
  | .infinite negative => !negative
  | .finite value => decide (0 < value)

def Retry.policy (ann : Retry) : PartialRetry where
  maxAttempts := some (if 0 < ann.maxAttempts then ann.maxAttempts else if 0 < ann.value then ann.value else 1)

def Backoff.policy (ann : Backoff) : PartialBackoff where
  strategy := some ann.strategy
  initialDelayMs := if 0 ≤ ann.initialDelayMs then some ann.initialDelayMs else none
  maxDelayMs := if 0 ≤ ann.maxDelayMs then some ann.maxDelayMs else none
  multiplier := if ann.multiplier.isPositive then some ann.multiplier else none

def CircuitBreaker.policy (ann : CircuitBreaker) : PartialCircuitBreaker where
  enabled := some ann.enabled
  failureThreshold := if 0 < ann.failureThreshold then some ann.failureThreshold else none
  slidingWindowSize := if 0 < ann.slidingWindowSize then some ann.slidingWindowSize else none
  openDurationMs := if 0 < ann.openDurationMs then some ann.openDurationMs else none
  halfOpenMaxCalls := if 0 < ann.halfOpenMaxCalls then some ann.halfOpenMaxCalls else none

def OnFail.policy (ann : OnFail) : PartialOnFail where
  compensate := some ann.compensate
  target := given (some ann.target)

def extractPolicy (method : Annotations) : PartialTransitionPolicy :=
  let policy := PartialTransitionPolicy.EMPTY
  let policy := method.retry.elim policy (fun ann => policy.withRetry ann.policy)
  let policy := method.backoff.elim policy (fun ann => policy.withBackoff ann.policy)
  let policy := method.circuitBreaker.elim policy (fun ann => policy.withCircuitBreaker ann.policy)
  let policy := method.onFail.elim policy (fun ann => policy.withOnFail ann.policy)
  let policy := method.compensateWith.elim policy (fun ann =>
    if isBlank ann.value then policy else policy.withCompensateHandler (some ann.value))
  method.benchmark.elim policy (fun ann => policy.withBenchmark { enabled := some ann.enabled })

/-! `PolicyMerger` -/

def applyBackoff (bo : BackoffPolicy) (pbo : PartialBackoff) : BackoffPolicy where
  strategy := pbo.strategy.getD bo.strategy
  initialDelayMs := (pbo.initialDelayMs.map (max 0)).getD bo.initialDelayMs
  maxDelayMs := (pbo.maxDelayMs.map (max 0)).getD bo.maxDelayMs
  multiplier := (pbo.multiplier.map Double.atLeastOne).getD bo.multiplier

def applyRetry (retry : RetryPolicy) (layer : PartialRetry) : RetryPolicy where
  maxAttempts := (layer.maxAttempts.map (max 1)).getD retry.maxAttempts
  backoff := layer.backoff.elim retry.backoff (applyBackoff retry.backoff)

def applyCircuitBreaker (cb : CircuitBreakerPolicy) (pcb : PartialCircuitBreaker) : CircuitBreakerPolicy where
  enabled := pcb.enabled.getD cb.enabled
  failureThreshold := (pcb.failureThreshold.map (max 1)).getD cb.failureThreshold
  slidingWindowSize := (pcb.slidingWindowSize.map (max 1)).getD cb.slidingWindowSize
  openDurationMs := (pcb.openDurationMs.map (max 1)).getD cb.openDurationMs
  halfOpenMaxCalls := (pcb.halfOpenMaxCalls.map (max 1)).getD cb.halfOpenMaxCalls

def applyOnFail (onFail : OnFailPolicy) (pof : PartialOnFail) : OnFailPolicy where
  compensate := pof.compensate.getD onFail.compensate
  target := (given pof.target).getD onFail.target

def applyBenchmark (benchmark : BenchmarkPolicy) (layer : PartialBenchmark) : BenchmarkPolicy where
  enabled := layer.enabled.getD benchmark.enabled

def applyLayer (base : NormalizedTransitionPolicy) (layer : PartialTransitionPolicy) : NormalizedTransitionPolicy where
  retry := layer.retry.elim base.retry (applyRetry base.retry)
  circuitBreaker := layer.circuitBreaker.elim base.circuitBreaker (applyCircuitBreaker base.circuitBreaker)
  onFail := layer.onFail.elim base.onFail (applyOnFail base.onFail)
  benchmark := layer.benchmark.elim base.benchmark (applyBenchmark base.benchmark)
  compensateHandler := (given layer.compensateHandler).or base.compensateHandler

def normalize (globalDefaults machineDefaults transitionYamlPolicy decoratorPolicy : Option PartialTransitionPolicy) :
    NormalizedTransitionPolicy :=
  [globalDefaults.getD .EMPTY,machineDefaults.getD .EMPTY,transitionYamlPolicy.getD .EMPTY,decoratorPolicy.getD .EMPTY].foldl
    applyLayer sdkDefault

/-! What holds of a normalized policy. -/

structure NormalizedTransitionPolicy.Normal (policy : NormalizedTransitionPolicy) : Prop where
  attempts : 1 ≤ policy.retry.maxAttempts.toInt
  initialDelay : 0 ≤ policy.retry.backoff.initialDelayMs.toInt
  maxDelay : 0 ≤ policy.retry.backoff.maxDelayMs.toInt
  multiplier : policy.retry.backoff.multiplier = policy.retry.backoff.multiplier.atLeastOne
  failureThreshold : 1 ≤ policy.circuitBreaker.failureThreshold.toInt
  slidingWindowSize : 1 ≤ policy.circuitBreaker.slidingWindowSize.toInt
  openDuration : 1 ≤ policy.circuitBreaker.openDurationMs.toInt
  halfOpenMaxCalls : 1 ≤ policy.circuitBreaker.halfOpenMaxCalls.toInt
  target : isBlank policy.onFail.target = false

theorem toIntMax (a b : Int64) : (max a b).toInt = max a.toInt b.toInt := by
  rw [show max a b = if a ≤ b then b else a from rfl]
  split <;> rename_i le <;> rw [Int64.le_iff_toInt_le] at le <;> omega

theorem toIntMin (a b : Int64) : (min a b).toInt = min a.toInt b.toInt := by
  rw [show min a b = if a ≤ b then a else b from rfl]
  split <;> rename_i le <;> rw [Int64.le_iff_toInt_le] at le <;> omega

theorem toIntMax32 (a b : Int32) : (max a b).toInt = max a.toInt b.toInt := by
  rw [show max a b = if a ≤ b then b else a from rfl]
  split <;> rename_i le <;> rw [Int32.le_iff_toInt_le] at le <;> omega

theorem atLeastOneTwice (d : Double) : d.atLeastOne.atLeastOne = d.atLeastOne := by
  cases d with
  | nan => rfl
  | infinite negative => cases negative <;> rfl
  | finite value => simp [Double.atLeastOne]

theorem atLeast64 {least own : Int64} (field : Option Int64) (kept : least.toInt ≤ own.toInt) :
    least.toInt ≤ ((field.map (max least)).getD own).toInt := by
  cases field with
  | none => exact kept
  | some n =>
    simp only [Option.map_some,Option.getD_some,toIntMax]
    exact le_max_left _ _

theorem atLeast32 {least own : Int32} (field : Option Int32) (kept : least.toInt ≤ own.toInt) :
    least.toInt ≤ ((field.map (max least)).getD own).toInt := by
  cases field with
  | none => exact kept
  | some n =>
    simp only [Option.map_some,Option.getD_some,toIntMax32]
    exact le_max_left _ _

theorem givenFilled {text : Option String} {filled : String} (here : given text = some filled) : isBlank filled = false := by
  simpa using (Option.filter_eq_some_iff.mp here).2

theorem layerNormal {base : NormalizedTransitionPolicy} (normal : base.Normal) (layer : PartialTransitionPolicy) :
    (applyLayer base layer).Normal where
  attempts := by
    unfold applyLayer
    cases layer.retry with
    | none => exact normal.attempts
    | some retry => exact atLeast32 _ normal.attempts
  initialDelay := by
    unfold applyLayer
    cases layer.retry with
    | none => exact normal.initialDelay
    | some retry =>
      change 0 ≤ (retry.backoff.elim _ _ : BackoffPolicy).initialDelayMs.toInt
      cases retry.backoff with
      | none => exact normal.initialDelay
      | some backoff => exact atLeast64 _ normal.initialDelay
  maxDelay := by
    unfold applyLayer
    cases layer.retry with
    | none => exact normal.maxDelay
    | some retry =>
      change 0 ≤ (retry.backoff.elim _ _ : BackoffPolicy).maxDelayMs.toInt
      cases retry.backoff with
      | none => exact normal.maxDelay
      | some backoff => exact atLeast64 _ normal.maxDelay
  multiplier := by
    unfold applyLayer
    cases layer.retry with
    | none => exact normal.multiplier
    | some retry =>
      change (retry.backoff.elim _ _ : BackoffPolicy).multiplier = (retry.backoff.elim _ _ : BackoffPolicy).multiplier.atLeastOne
      cases retry.backoff with
      | none => exact normal.multiplier
      | some backoff =>
        change (backoff.multiplier.map _).getD _ = ((backoff.multiplier.map _).getD _ : Double).atLeastOne
        cases backoff.multiplier with
        | none => exact normal.multiplier
        | some d => exact (atLeastOneTwice d).symm
  failureThreshold := by
    unfold applyLayer
    cases layer.circuitBreaker with
    | none => exact normal.failureThreshold
    | some cb => exact atLeast32 _ normal.failureThreshold
  slidingWindowSize := by
    unfold applyLayer
    cases layer.circuitBreaker with
    | none => exact normal.slidingWindowSize
    | some cb => exact atLeast32 _ normal.slidingWindowSize
  openDuration := by
    unfold applyLayer
    cases layer.circuitBreaker with
    | none => exact normal.openDuration
    | some cb => exact atLeast64 _ normal.openDuration
  halfOpenMaxCalls := by
    unfold applyLayer
    cases layer.circuitBreaker with
    | none => exact normal.halfOpenMaxCalls
    | some cb => exact atLeast32 _ normal.halfOpenMaxCalls
  target := by
    unfold applyLayer
    cases layer.onFail with
    | none => exact normal.target
    | some onFail =>
      change isBlank ((given onFail.target).getD base.onFail.target) = false
      cases here : given onFail.target with
      | none => exact normal.target
      | some target => exact givenFilled here

theorem defaultNormal : sdkDefault.Normal where
  attempts := by decide
  initialDelay := by decide
  maxDelay := by decide
  multiplier := by decide
  failureThreshold := by decide
  slidingWindowSize := by decide
  openDuration := by decide
  halfOpenMaxCalls := by decide
  target := by decide

theorem normalizeNormal (globalDefaults machineDefaults transitionYamlPolicy decoratorPolicy : Option PartialTransitionPolicy) :
    (normalize globalDefaults machineDefaults transitionYamlPolicy decoratorPolicy).Normal := by
  unfold normalize
  generalize [globalDefaults.getD .EMPTY,machineDefaults.getD .EMPTY,transitionYamlPolicy.getD .EMPTY,decoratorPolicy.getD .EMPTY] = layers
  have all (base : NormalizedTransitionPolicy) (normal : base.Normal) : (layers.foldl applyLayer base).Normal := by
    induction layers generalizing base with
    | nil => exact normal
    | cons layer layers ih => exact ih _ (layerNormal normal layer)
  exact all _ defaultNormal

end Dfsm.Java.Policies
