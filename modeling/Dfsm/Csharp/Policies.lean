import Dfsm.Csharp.Documents
import Dfsm.Csharp.Operations
import Dfsm.Lib.Json

/-! `ParsePartialPolicy` and `PolicyMerger.Merge` of the C# SDK, with all that a policy holds. -/
namespace Dfsm.Csharp.Layering

structure RetryPolicy where
  maxAttempts : Int := 1
  backoffMs : Int := 100
  backoffFactor : ℚ := 2
  maxBackoffMs : Int := 10000
  backoff : String := "EXPONENTIAL"
  jitter : Bool := false

structure BenchmarkPolicy where
  enabled : Bool := true
  warnThresholdMs : Int := 1000

structure TransitionPolicy where
  retry : RetryPolicy
  circuitBreaker : Option CircuitBreakerPolicy
  onFail : Option OnFailPolicy
  compensateWith : Option String
  benchmark : BenchmarkPolicy

/-- A layer with the fields that only the waits and the benchmark read. -/
structure PartialTransitionPolicy extends Csharp.PartialTransitionPolicy where
  retryBackoffMs : Option Int := none
  retryBackoffFactor : Option ℚ := none
  retryMaxBackoffMs : Option Int := none
  retryBackoff : Option String := none
  retryJitter : Option Bool := none
  benchmarkEnabled : Option Bool := none
  benchmarkWarnThresholdMs : Option Int := none

namespace PartialTransitionPolicy
variable (l : PartialTransitionPolicy)

def marksRetry : Bool := l.retryExplicitlyDefined = some true || l.retryMaxAttempts.isSome
def marksCircuitBreaker : Bool := l.cbExplicitlyDefined = some true || l.cbFailureThreshold.isSome
def marksOnFail : Bool := l.onFailExplicitlyDefined = some true || l.onFailTarget.isSome || l.onFailCompensate.isSome

end PartialTransitionPolicy

def PartialTransitionPolicy.retry (l : PartialTransitionPolicy) : RetryPolicy :=
  let own : RetryPolicy := {}
  { maxAttempts := l.retryMaxAttempts.getD own.maxAttempts
    backoffMs := l.retryBackoffMs.getD own.backoffMs
    backoffFactor := l.retryBackoffFactor.getD own.backoffFactor
    maxBackoffMs := l.retryMaxBackoffMs.getD own.maxBackoffMs
    backoff := l.retryBackoff.getD own.backoff
    jitter := l.retryJitter.getD own.jitter }

/-- Each scan ends at the first layer that marks its section. -/
def Merge (layers : List (Option PartialTransitionPolicy)) : TransitionPolicy :=
  let layers := layers.filterMap id
  { retry := ((layers.find? (·.marksRetry)).map (·.retry)).getD {}
    circuitBreaker := (layers.find? (·.marksCircuitBreaker)).map (fun l => {
      failureThreshold := l.cbFailureThreshold.getD 5
      recoveryTimeoutMs := l.cbRecoveryTimeoutMs.getD 30000
      halfOpenSuccessThreshold := l.cbHalfOpenSuccessThreshold.getD 2 })
    onFail := (layers.find? (·.marksOnFail)).map (fun l => { target := l.onFailTarget, compensate := l.onFailCompensate.getD false })
    compensateWith := layers.findSome? (·.compensateWith)
    benchmark := ((layers.find? (·.benchmarkEnabled.isSome)).map (fun l => {
      enabled := l.benchmarkEnabled.getD true
      warnThresholdMs := l.benchmarkWarnThresholdMs.getD 1000 : BenchmarkPolicy })).getD {} }

/-- What the actor's model reads of a policy, waits apart. -/
def TransitionPolicy.brief (policy : TransitionPolicy) : Csharp.TransitionPolicy where
  maxAttempts := policy.retry.maxAttempts
  circuitBreaker := policy.circuitBreaker
  onFail := policy.onFail
  compensateWith := policy.compensateWith

/-! `JsonElement`; `none` is thrown. -/

/-- `TryGetProperty`, which throws on what is no object. -/
def tryGetProperty : Json → String → Option (Option Json)
  | .object entries, name => some (Keyed.get entries name)
  | _, _ => none

def getInt32 : Json → Option Int
  | .number n => if n.isInt && fitsInt32 n.num then some n.num else none
  | _ => none

def getDouble : Json → Option ℚ
  | .number n => some n
  | _ => none

def getBoolean : Json → Option Bool
  | .flag value => some value
  | _ => none

/-- The string may be null. -/
def getString : Json → Option (Option String)
  | .text value => some (some value)
  | .null => some none
  | _ => none

/-- `(int)` of a double saturates. -/
def toInt32 (n : ℚ) : Int := max (-2^31) (min (2^31 - 1) (n.num.tdiv n.den))

/-- What is read of a property, if it is there. -/
def readProperty (read : Json → Option α) (element : Json) (name : String) : Option (Option α) :=
  (tryGetProperty element name).bind (fun value => value.elim (some none) (fun value => (read value).map some))

/-- The settings of `backoff`, as far as they are set. -/
structure Waits where
  strategy : Option String := none
  initialDelayMs : Option Int := none
  maxDelayMs : Option Int := none
  multiplier : Option ℚ := none

def parseBackoff : Json → Option Waits
  | .text strategy => some { strategy := some strategy }
  | .object entries => do
    let bo := Json.object entries
    let strategy ← readProperty getString bo "strategy"
    let initialDelayMs ← readProperty getDouble bo "initialDelayMs"
    let maxDelayMs ← readProperty getDouble bo "maxDelayMs"
    let multiplier ← readProperty getDouble bo "multiplier"
    some { strategy := strategy.join, initialDelayMs := initialDelayMs.map toInt32, maxDelayMs := maxDelayMs.map toInt32, multiplier }
  | _ => some {}

def parseRetry (policy : PartialTransitionPolicy) (retryProp : Json) : Option PartialTransitionPolicy := do
  let policy := { policy with retryExplicitlyDefined := some true }
  match retryProp with
  | .number n => do
    let attempts ← getInt32 (.number n)
    some { policy with retryMaxAttempts := some attempts }
  | .object entries => do
    let retryProp := Json.object entries
    let retryMaxAttempts ← readProperty getInt32 retryProp "maxAttempts"
    let backoffMs ← readProperty getInt32 retryProp "backoffMs"
    let backoffFactor ← readProperty getDouble retryProp "backoffFactor"
    let maxBackoffMs ← readProperty getInt32 retryProp "maxBackoffMs"
    let backoff ← readProperty parseBackoff retryProp "backoff"
    let retryJitter ← readProperty getBoolean retryProp "jitter"
    let waits := backoff.getD {}
    some { policy with
      retryMaxAttempts, retryJitter, retryBackoff := waits.strategy
      retryBackoffMs := waits.initialDelayMs.or backoffMs
      retryBackoffFactor := waits.multiplier.or backoffFactor
      retryMaxBackoffMs := waits.maxDelayMs.or maxBackoffMs }
  | _ => some policy

def parseCircuitBreaker (policy : PartialTransitionPolicy) (cbProp : Json) : Option PartialTransitionPolicy := do
  let cbFailureThreshold ← readProperty getInt32 cbProp "failureThreshold"
  let recoveryTimeoutMs ← readProperty getInt32 cbProp "recoveryTimeoutMs"
  let openDurationMs ← readProperty getInt32 cbProp "openDurationMs"
  let halfOpenSuccessThreshold ← readProperty getInt32 cbProp "halfOpenSuccessThreshold"
  let halfOpenMaxCalls ← readProperty getInt32 cbProp "halfOpenMaxCalls"
  some { policy with
    cbExplicitlyDefined := some true, cbFailureThreshold
    cbRecoveryTimeoutMs := openDurationMs.or recoveryTimeoutMs
    cbHalfOpenSuccessThreshold := halfOpenMaxCalls.or halfOpenSuccessThreshold }

def parseOnFail (policy : PartialTransitionPolicy) (onFailProp : Json) : Option PartialTransitionPolicy := do
  let target ← readProperty getString onFailProp "target"
  let onFailCompensate ← readProperty getBoolean onFailProp "compensate"
  some { policy with onFailExplicitlyDefined := some true, onFailTarget := target.join, onFailCompensate }

def parseBenchmark (policy : PartialTransitionPolicy) (benchProp : Json) : Option PartialTransitionPolicy := do
  let benchmarkEnabled ← readProperty getBoolean benchProp "enabled"
  let benchmarkWarnThresholdMs ← readProperty getInt32 benchProp "warnThresholdMs"
  some { policy with benchmarkEnabled, benchmarkWarnThresholdMs }

/-- `compensateWith`, and where it is not there `compensate`. -/
def parseCompensation (element : Json) (ns : Option String) : Option (Option String) := do
  let compensateWith ← readProperty getString element "compensateWith"
  match compensateWith with
  | some name => some (name.map (qualify · ns))
  | none => do
    let compensate ← readProperty getString element "compensate"
    some (compensate.join.map (qualify · ns))

/-- One section of an element, if it is there. -/
def parseSection (read : PartialTransitionPolicy → Json → Option PartialTransitionPolicy) (element : Json) (name : String)
    (policy : PartialTransitionPolicy) : Option PartialTransitionPolicy :=
  (tryGetProperty element name).bind (fun value => value.elim (some policy) (read policy))

def ParsePartialPolicy (element : Json) (ns : Option String) : Option PartialTransitionPolicy := do
  let policy ← parseSection parseRetry element "retry" {}
  let policy ← parseSection parseCircuitBreaker element "circuitBreaker" policy
  let policy ← parseSection parseOnFail element "onFail" policy
  let compensateWith ← parseCompensation element ns
  parseSection parseBenchmark element "benchmark" { policy with compensateWith }

/-- The policy of a transition; a shorthand has none. -/
def parseEdgePolicy (element : Json) (ns : Option String) : Option (Option PartialTransitionPolicy) :=
  match element with
  | .text _ => some none
  | element => (ParsePartialPolicy element ns).map some

end Dfsm.Csharp.Layering
