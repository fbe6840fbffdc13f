import Dfsm.Go.Machine

/-! Policies of the Go SDK and its circuit breaker. -/
namespace Dfsm.Go

structure CircuitBreakerPolicy where
  enabled : Bool
  failureThreshold : Int
  recoveryTimeoutMs : Int
  halfOpenSuccessThreshold : Int
  deriving DecidableEq, Repr

structure OnFailPolicy where
  target : String
  compensate : Bool
  deriving DecidableEq, Repr

structure TransitionPolicy where
  maxAttempts : Int := 1
  circuitBreaker : Option CircuitBreakerPolicy := none
  onFail : Option OnFailPolicy := none
  compensateWith : String := ""
  deriving DecidableEq, Repr

/-- The first layer that defines a part gives all of it. -/
def mergePolicies (layers : List (Option PartialTransitionPolicy)) : TransitionPolicy :=
  let layers := layers.filterMap id
  { maxAttempts := match layers.find? (fun l => l.retryDefined || l.retryMaxAttempts.isSome) with
      | none => 1
      | some l => l.retryMaxAttempts.getD 1
    circuitBreaker := (layers.find? (fun l => l.cbDefined || l.cbFailureThreshold.isSome)).map (fun l => {
      enabled := l.cbEnabled.getD true
      failureThreshold := l.cbFailureThreshold.getD 5
      recoveryTimeoutMs := l.cbRecoveryTimeoutMs.getD 30000
      halfOpenSuccessThreshold := l.cbHalfOpenSuccess.getD 2 })
    onFail := (layers.find? (fun l => l.onFailDefined || l.onFailTarget.isSome || l.onFailCompensate.isSome)).map (fun l => {
      target := l.onFailTarget.getD "error"
      compensate := l.onFailCompensate.getD false })
    compensateWith := (layers.findSome? (·.compensateWith)).getD "" }

inductive CircuitBreakerState where
  | CLOSED | OPEN | HALF_OPEN
  deriving DecidableEq, Repr

structure CircuitBreakerInstance where
  policy : CircuitBreakerPolicy
  state : CircuitBreakerState := .CLOSED
  consecutiveFailures : Int := 0
  consecutiveSuccesses : Int := 0
  openedAtMs : Int := 0
  deriving DecidableEq, Repr

namespace CircuitBreakerInstance

/-- The breaker, and the time to wait where it refuses the call. -/
def beforeExecution (cb : CircuitBreakerInstance) (now : Int) : CircuitBreakerInstance × Option Int :=
  if cb.state = .OPEN then
    if cb.policy.recoveryTimeoutMs ≤ now - cb.openedAtMs then ({ cb with state := .HALF_OPEN, consecutiveSuccesses := 0 },none)
    else (cb,some (cb.policy.recoveryTimeoutMs - (now - cb.openedAtMs)))
  else (cb,none)

def onSuccess (cb : CircuitBreakerInstance) : CircuitBreakerInstance :=
  match cb.state with
  | .HALF_OPEN =>
    if cb.policy.halfOpenSuccessThreshold ≤ cb.consecutiveSuccesses + 1 then
      { cb with state := .CLOSED, consecutiveFailures := 0, consecutiveSuccesses := 0 }
    else { cb with consecutiveSuccesses := cb.consecutiveSuccesses + 1 }
  | .CLOSED => { cb with consecutiveFailures := 0 }
  | .OPEN => cb

def onFailure (cb : CircuitBreakerInstance) (now : Int) : CircuitBreakerInstance :=
  match cb.state with
  | .HALF_OPEN => { cb with state := .OPEN, openedAtMs := now, consecutiveFailures := cb.consecutiveFailures + 1 }
  | .CLOSED =>
    if cb.policy.failureThreshold ≤ cb.consecutiveFailures + 1 then
      { cb with consecutiveFailures := cb.consecutiveFailures + 1, state := .OPEN, openedAtMs := now }
    else { cb with consecutiveFailures := cb.consecutiveFailures + 1 }
  | .OPEN => cb

end CircuitBreakerInstance
end Dfsm.Go
