import Mathlib.Data.List.Count

/-! The circuit breaker of a pipeline, and what its half-open state admits when calls
overlap. A call starts and finishes in two steps of its own; other calls and the timer
may move the breaker in between. -/
namespace Dfsm

inductive CircuitStatus where
  | CLOSED | OPEN | HALF_OPEN
  deriving DecidableEq, Repr

structure NormalizedCircuitBreakerPolicy where
  enabled : Bool
  key : String
  failureThreshold : Nat
  slidingWindowSize : Nat
  openDurationMs : Int
  halfOpenMaxCalls : Nat

structure CircuitOpenError where
  key : String
  remainingMs : Int
  deriving DecidableEq

structure CircuitBreakerInstance where
  status : CircuitStatus := .CLOSED
  openedAt : Int := 0
  outcomesWindow : List Bool := []
  halfOpenInFlight : Nat := 0
  halfOpenSuccesses : Nat := 0
  deriving DecidableEq

/-- How `fn` ended; a `ValidationError` counts neither way. -/
inductive Outcome where
  | success | failure | validationError
  deriving DecidableEq, Repr

namespace CircuitBreakerInstance
variable (policy : NormalizedCircuitBreakerPolicy)

def reset : CircuitBreakerInstance := {}

def evaluateTimerTransition (b : CircuitBreakerInstance) (now : Int) : CircuitBreakerInstance :=
  if b.status = .OPEN ∧ policy.openDurationMs ≤ now - b.openedAt then
    { b with status := .HALF_OPEN, halfOpenInFlight := 0, halfOpenSuccesses := 0 }
  else b

def tripOpen (b : CircuitBreakerInstance) (now : Int) : CircuitBreakerInstance :=
  { b with status := .OPEN, openedAt := now, outcomesWindow := [], halfOpenInFlight := 0, halfOpenSuccesses := 0 }

def pushOutcome (b : CircuitBreakerInstance) (ok : Bool) : CircuitBreakerInstance :=
  let window := b.outcomesWindow ++ [ok]
  { b with outcomesWindow := window.drop (window.length - policy.slidingWindowSize) }

def onSuccess (b : CircuitBreakerInstance) : CircuitBreakerInstance :=
  if b.status = .HALF_OPEN then
    if policy.halfOpenMaxCalls ≤ b.halfOpenSuccesses + 1 then reset
    else { b with halfOpenInFlight := b.halfOpenInFlight - 1, halfOpenSuccesses := b.halfOpenSuccesses + 1 }
  else pushOutcome policy b true

def onFailure (b : CircuitBreakerInstance) (now : Int) : CircuitBreakerInstance :=
  if b.status = .HALF_OPEN then b.tripOpen now
  else
    let pushed := pushOutcome policy b false
    if policy.failureThreshold ≤ (pushed.outcomesWindow.filter (!·)).length then pushed.tripOpen now else pushed

/-- `execute` up to the call of `fn`: the breaker, and why it refuses the call. -/
def admitCall (b : CircuitBreakerInstance) (now later : Int) : CircuitBreakerInstance × Option CircuitOpenError :=
  if !policy.enabled then (b,none) else
  let b := evaluateTimerTransition policy b now
  match b.status with
  | .OPEN => (b,some ⟨policy.key,policy.openDurationMs - (later - b.openedAt)⟩)
  | .HALF_OPEN =>
    if policy.halfOpenMaxCalls ≤ b.halfOpenInFlight then (b,some ⟨policy.key,policy.openDurationMs⟩)
    else ({ b with halfOpenInFlight := b.halfOpenInFlight + 1 },none)
  | .CLOSED => (b,none)

/-- `execute` from the end of `fn` on. -/
def finish (b : CircuitBreakerInstance) (outcome : Outcome) (now : Int) : CircuitBreakerInstance :=
  if !policy.enabled then b else
  match outcome with
  | .success => onSuccess policy b
  | .failure => onFailure policy b now
  | .validationError =>
    if b.status = .HALF_OPEN then { b with halfOpenInFlight := b.halfOpenInFlight - 1 } else b

end CircuitBreakerInstance

/-- A breaker in use. The half-open periods are counted from one; a call is known by the
period it was admitted in, none where the breaker was closed. -/
structure BreakerUse where
  breaker : CircuitBreakerInstance := {}
  period : Nat := 0
  unfinished : List (Option Nat) := []
  /-- Successes, in the current period, of calls admitted in it. -/
  probed : Nat := 0
  deriving DecidableEq

inductive BreakerAction where
  | start (now later : Int)
  | finish (call : Option Nat) (outcome : Outcome) (now : Int)
  /-- `getStatus` -/
  | look (now : Int)

namespace BreakerUse
open CircuitBreakerInstance
variable (policy : NormalizedCircuitBreakerPolicy)

/-- Where the timer moves the breaker a period begins. -/
def moved (use : BreakerUse) (breaker : CircuitBreakerInstance) : BreakerUse :=
  if use.breaker.status ≠ .HALF_OPEN ∧ breaker.status = .HALF_OPEN then
    { use with breaker, period := use.period + 1, probed := 0 }
  else { use with breaker }

def admitted (use : BreakerUse) : Option Nat :=
  if use.breaker.status = .HALF_OPEN then some use.period else none

inductive Step : BreakerUse → BreakerAction → BreakerUse → Prop where
  | started {use now later breaker} (runs : admitCall policy use.breaker now later = (breaker,none)) :
      Step use (.start now later) { use.moved breaker with
        unfinished := (use.moved breaker).admitted::use.unfinished }
  | refused {use now later breaker error} (open_ : admitCall policy use.breaker now later = (breaker,some error)) :
      Step use (.start now later) (use.moved breaker)
  | finished {use call outcome now} (pending : call ∈ use.unfinished) :
      Step use (.finish call outcome now) { use with
        breaker := finish policy use.breaker outcome now
        unfinished := use.unfinished.erase call
        probed := if outcome = .success ∧ call = some use.period then use.probed + 1 else use.probed }
  | looked {use now} : Step use (.look now) (use.moved (evaluateTimerTransition policy use.breaker now))

inductive Reaches (meets : BreakerUse → BreakerAction → Prop) : BreakerUse → Prop where
  | start : Reaches meets {}
  | step {use action next} (run : Reaches meets use) (met : meets use action) (step : Step policy use action next) :
      Reaches meets next

/-- Calls admitted in the current half-open period that have not finished. -/
def probes (use : BreakerUse) : Nat := use.unfinished.count (some use.period)

/-- What half-open is for: so many probes at a time, and so many good ones to close. -/
def Admission (meets : BreakerUse → BreakerAction → Prop) (use : BreakerUse) : Prop :=
  (use.breaker.status = .HALF_OPEN → use.probes ≤ policy.halfOpenMaxCalls) ∧
  ∀ action next, meets use action → Step policy use action next → use.breaker.status = .HALF_OPEN →
    next.breaker.status = .CLOSED → policy.halfOpenMaxCalls ≤ next.probed

/-- A call that ends half-open without tripping the breaker was admitted in this period;
a `ValidationError` of another call does no harm while no probe is out. -/
def Fresh (use : BreakerUse) : BreakerAction → Prop
  | .finish call outcome _ => use.breaker.status = .HALF_OPEN → call ≠ some use.period →
      outcome = .failure ∨ outcome = .validationError ∧ use.breaker.halfOpenInFlight = 0
  | _ => True

/-- The counters of the breaker count the probes of this period. -/
structure Counted (use : BreakerUse) : Prop where
  past : ∀ p, some p ∈ use.unfinished → p ≤ use.period
  inFlight : use.breaker.status = .HALF_OPEN → use.breaker.halfOpenInFlight = use.probes
  successes : use.breaker.status = .HALF_OPEN → use.breaker.halfOpenSuccesses = use.probed
  bounded : use.breaker.status = .HALF_OPEN → use.breaker.halfOpenInFlight ≤ policy.halfOpenMaxCalls

variable {policy} {use next : BreakerUse}

theorem timerStatus {b : CircuitBreakerInstance} {now : Int} :
    evaluateTimerTransition policy b now = b ∨ b.status = .OPEN ∧
      (evaluateTimerTransition policy b now).status = .HALF_OPEN ∧
      (evaluateTimerTransition policy b now).halfOpenInFlight = 0 ∧
      (evaluateTimerTransition policy b now).halfOpenSuccesses = 0 := by
  unfold evaluateTimerTransition
  split
  · rename_i due
    exact .inr ⟨due.1,rfl,rfl,rfl⟩
  · exact .inl rfl

theorem admitCases {b breaker : CircuitBreakerInstance} {now later error} (enabled : policy.enabled = true)
    (runs : admitCall policy b now later = (breaker,error)) :
    breaker = evaluateTimerTransition policy b now ∧ (error = none → breaker.status ≠ .HALF_OPEN) ∨
    error = none ∧ (evaluateTimerTransition policy b now).status = .HALF_OPEN ∧
      (evaluateTimerTransition policy b now).halfOpenInFlight < policy.halfOpenMaxCalls ∧
      breaker = { evaluateTimerTransition policy b now with
        halfOpenInFlight := (evaluateTimerTransition policy b now).halfOpenInFlight + 1 } := by
  simp only [admitCall,enabled,Bool.not_true,Bool.false_eq_true,if_false] at runs
  split at runs
  · cases runs
    exact .inl ⟨rfl,by simp⟩
  · rename_i half
    split at runs
    · cases runs
      exact .inl ⟨rfl,by simp⟩
    · rename_i room
      cases runs
      exact .inr ⟨rfl,half,by omega,rfl⟩
  · rename_i closed
    cases runs
    exact .inl ⟨rfl,by simp [closed]⟩

theorem laterUnused (counted : Counted policy use) : use.unfinished.count (some (use.period + 1)) = 0 := by
  refine List.count_eq_zero.mpr (fun mem => ?_)
  have old := counted.past _ mem
  omega

theorem timerCounted {now : Int} (counted : Counted policy use) :
    Counted policy (use.moved (evaluateTimerTransition policy use.breaker now)) := by
  rcases @timerStatus policy use.breaker now with same | ⟨opened,half,flight,successes⟩
  · rw [same]
    have stays : use.moved use.breaker = use := by simp [moved]
    rw [stays]
    exact counted
  · have begins : use.moved (evaluateTimerTransition policy use.breaker now) =
        { use with
          breaker := evaluateTimerTransition policy use.breaker now, period := use.period + 1, probed := 0 } := by
      simp [moved,opened,half]
    rw [begins]
    refine ⟨fun p mem => ?_,fun _ => ?_,fun _ => successes,fun _ => ?_⟩
    · have old := counted.past p mem
      dsimp only
      omega
    · rw [flight]
      exact (laterUnused counted).symm
    · dsimp only
      omega

@[simp] theorem movedBreaker (breaker : CircuitBreakerInstance) : (use.moved breaker).breaker = breaker := by
  unfold moved
  split <;> rfl

@[simp] theorem movedUnfinished (breaker : CircuitBreakerInstance) : (use.moved breaker).unfinished = use.unfinished := by
  unfold moved
  split <;> rfl

theorem outsideCounted (counted : Counted policy use) (outside : use.breaker.status ≠ .HALF_OPEN) :
    Counted policy { use with unfinished := use.admitted::use.unfinished } := by
  have call : use.admitted = none := by rw [admitted,if_neg outside]
  rw [call]
  refine ⟨fun p mem => ?_,fun half => absurd half outside,fun half => absurd half outside,fun half => absurd half outside⟩
  exact counted.past p (by simpa using mem)

theorem probeCounted (counted : Counted policy use) (half : use.breaker.status = .HALF_OPEN)
    (room : use.breaker.halfOpenInFlight < policy.halfOpenMaxCalls) :
    Counted policy { use with
      breaker := { use.breaker with halfOpenInFlight := use.breaker.halfOpenInFlight + 1 }
      unfinished := some use.period::use.unfinished } := by
  refine ⟨fun p mem => ?_,fun _ => ?_,fun _ => counted.successes half,fun _ => room⟩
  · rcases List.mem_cons.mp mem with here | old
    · cases here
      exact Nat.le_refl _
    · exact counted.past p old
  · simp only [probes,List.count_cons_self]
    exact congrArg (· + 1) (counted.inFlight half)

theorem startedCounted {now later breaker} (enabled : policy.enabled = true) (counted : Counted policy use)
    (runs : admitCall policy use.breaker now later = (breaker,none)) :
    Counted policy { use.moved breaker with unfinished := (use.moved breaker).admitted::use.unfinished } := by
  have timed := @timerCounted policy use now counted
  rcases admitCases enabled runs with ⟨rfl,other⟩ | ⟨_,half,room,rfl⟩
  · simpa using outsideCounted timed (by simpa using other rfl)
  · have probe := probeCounted timed (by simpa using half) (by simpa using room)
    by_cases was : use.breaker.status = .HALF_OPEN
    · simpa [moved,admitted,half,was] using probe
    · simpa [moved,admitted,half,was] using probe

theorem finishHalf {b : CircuitBreakerInstance} {outcome now} (enabled : policy.enabled = true)
    (half : b.status = .HALF_OPEN) : finish policy b outcome now = match outcome with
      | .success => if policy.halfOpenMaxCalls ≤ b.halfOpenSuccesses + 1 then reset
        else { b with halfOpenInFlight := b.halfOpenInFlight - 1, halfOpenSuccesses := b.halfOpenSuccesses + 1 }
      | .failure => b.tripOpen now
      | .validationError => { b with halfOpenInFlight := b.halfOpenInFlight - 1 } := by
  cases outcome <;> simp [finish,enabled,onSuccess,onFailure,half]

theorem finishOutside {b : CircuitBreakerInstance} {outcome now} (outside : b.status ≠ .HALF_OPEN) :
    (finish policy b outcome now).status ≠ .HALF_OPEN := by
  unfold finish
  split
  · exact outside
  · cases outcome with
    | success => simp [onSuccess,outside,pushOutcome]
    | failure =>
      simp only [onFailure,outside,if_false]
      split
      · simp [tripOpen]
      · exact outside
    | validationError => simp [outside]

theorem eraseProbes (call : Option Nat) :
    (use.unfinished.erase call).count (some use.period) =
      if call = some use.period then use.probes - 1 else use.probes := by
  rw [List.count_erase]
  simp only [probes,beq_iff_eq]
  split <;> rfl

theorem finishedCounted {call outcome now} (enabled : policy.enabled = true) (counted : Counted policy use)
    (fresh : Fresh use (.finish call outcome now)) (pending : call ∈ use.unfinished) :
    Counted policy { use with
      breaker := finish policy use.breaker outcome now
      unfinished := use.unfinished.erase call
      probed := if outcome = .success ∧ call = some use.period then use.probed + 1 else use.probed } := by
  have past (p) (mem : some p ∈ use.unfinished.erase call) : p ≤ use.period := counted.past p (List.mem_of_mem_erase mem)
  cases status : decide (use.breaker.status = .HALF_OPEN) with
  | false =>
    have outside := @finishOutside policy use.breaker outcome now (by simpa using status)
    exact ⟨past,fun half => absurd half outside,fun half => absurd half outside,fun half => absurd half outside⟩
  | true =>
    have half : use.breaker.status = .HALF_OPEN := by simpa using status
    have flight := counted.inFlight half
    have successes := counted.successes half
    have bounded := counted.bounded half
    have count := @eraseProbes use call
    rw [finishHalf enabled half]
    cases outcome with
    | success =>
      have own : call = some use.period := by
        by_contra other
        simpa using fresh half other
      have some_ : 0 < use.probes := List.count_pos_iff.mpr (own ▸ pending)
      dsimp only
      split
      · exact ⟨past,by simp [reset],by simp [reset],by simp [reset]⟩
      · refine ⟨past,fun _ => ?_,fun _ => ?_,fun _ => ?_⟩
        · rw [probes,count,if_pos own]
          dsimp only
          omega
        · rw [if_pos ⟨rfl,own⟩]
          exact congrArg (· + 1) successes
        · dsimp only
          omega
    | failure => exact ⟨past,by simp [tripOpen],by simp [tripOpen],by simp [tripOpen]⟩
    | validationError =>
      refine ⟨past,fun _ => ?_,fun _ => by simpa using successes,fun _ => ?_⟩
      · rw [probes,count]
        dsimp only
        split
        · omega
        · rename_i other
          have none_ := fresh half other
          simp at none_
          omega
      · dsimp only
        omega

theorem countedStep {action} (enabled : policy.enabled = true) (counted : Counted policy use)
    (fresh : Fresh use action) (step : Step policy use action next) : Counted policy next := by
  cases step with
  | started runs => exact startedCounted enabled counted runs
  | refused open_ =>
    rcases admitCases enabled open_ with ⟨rfl,_⟩ | ⟨none_,_⟩
    · exact timerCounted counted
    · contradiction
  | finished pending => exact finishedCounted enabled counted fresh pending
  | looked => exact timerCounted counted

theorem reachesCounted (enabled : policy.enabled = true) (run : Reaches policy Fresh use) : Counted policy use := by
  induction run with
  | start => exact ⟨by simp,by simp,by simp,by simp⟩
  | step _ fresh step ih => exact countedStep enabled ih fresh step

theorem closingStep {action} (enabled : policy.enabled = true) (counted : Counted policy use) (fresh : Fresh use action)
    (step : Step policy use action next) (half : use.breaker.status = .HALF_OPEN)
    (closed : next.breaker.status = .CLOSED) : policy.halfOpenMaxCalls ≤ next.probed := by
  have stays (now : Int) : evaluateTimerTransition policy use.breaker now = use.breaker := by
    simp [evaluateTimerTransition,half]
  cases step with
  | started runs =>
    rcases admitCases enabled runs with ⟨rfl,_⟩ | ⟨_,still,_,rfl⟩
    · simp [stays,half] at closed
    · simp [still] at closed
  | refused open_ =>
    rcases admitCases enabled open_ with ⟨rfl,_⟩ | ⟨none_,_⟩
    · simp [stays,half] at closed
    · contradiction
  | looked => simp [stays,half] at closed
  | @finished call outcome now pending =>
    have successes := counted.successes half
    rw [finishHalf enabled half] at closed
    cases outcome with
    | success =>
      have own : call = some use.period := by
        by_contra other
        simpa using fresh half other
      rw [if_pos ⟨rfl,own⟩]
      dsimp only at closed ⊢
      split at closed
      · omega
      · simp [half] at closed
    | failure => simp [tripOpen] at closed
    | validationError => simp [half] at closed

/-- Half-open admission, in every run whose half-open completions are of its own probes. -/
theorem halfOpenAdmission (policy : NormalizedCircuitBreakerPolicy) (enabled : policy.enabled = true) (use : BreakerUse)
    (run : Reaches policy Fresh use) : Admission policy Fresh use := by
  have counted := reachesCounted enabled run
  refine ⟨fun half => ?_,fun action next fresh step half closed => closingStep enabled counted fresh step half closed⟩
  rw [← counted.inFlight half]
  exact counted.bounded half

/-- One failure opens, ten milliseconds half-open, one probe closes. -/
def single : NormalizedCircuitBreakerPolicy :=
  { enabled := true, key := "payment", failureThreshold := 1, slidingWindowSize := 1, openDurationMs := 10
    halfOpenMaxCalls := 1 }

theorem singleHalf {meets : BreakerUse → BreakerAction → Prop} (met : ∀ use action, use.breaker.status ≠ .HALF_OPEN →
    meets use action) : Reaches single meets { breaker := { status := .HALF_OPEN }, period := 1, unfinished := [none] } := by
  have one : Reaches single meets { unfinished := [none] } :=
    .step .start (met _ _ (by decide)) (@Step.started single {} 0 0 {} rfl)
  have two : Reaches single meets { unfinished := [none,none] } :=
    .step one (met _ _ (by decide)) (@Step.started single _ 0 0 {} rfl)
  have opened : Reaches single meets { breaker := { status := .OPEN }, unfinished := [none] } :=
    .step two (met _ _ (by decide)) (@Step.finished single _ none .failure 0 (by decide))
  exact .step opened (met _ _ (by decide)) (@Step.looked single _ 10)

theorem halfOpenAdmissionSingle :
    Admission single Fresh { breaker := { status := .HALF_OPEN }, period := 1, unfinished := [none] } := by
  refine halfOpenAdmission single rfl _ (singleHalf ?_)
  intro use action outside
  cases action with
  | finish call outcome now => exact fun half => absurd half outside
  | start now later => trivial
  | look now => trivial

/-- The other call, still from before the trip, closes the breaker without any probe. -/
theorem halfOpenAdmissionLate : ¬ ∀ policy use, policy.enabled = true → Reaches policy (fun _ _ => True) use →
    Admission policy (fun _ _ => True) use := by
  intro claim
  have run := singleHalf (fun _ _ _ => trivial)
  have closes := (claim single _ rfl run).2 (.finish none .success 10) _ trivial (.finished (by decide)) rfl rfl
  exact absurd closes (by decide)

end BreakerUse

end Dfsm
