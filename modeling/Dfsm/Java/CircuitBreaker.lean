import Dfsm.Policy.CircuitBreaker

/-! The circuit breaker of the Java SDK: it counts the successes of a half-open period, and
neither the calls in flight nor what was admitted when. -/
namespace Dfsm.Java

structure CircuitBreakerPolicy where
  enabled : Bool := false
  failureThreshold : Nat := 5
  slidingWindowSize : Nat := 10
  openDurationMs : Int := 30000
  halfOpenMaxCalls : Nat := 1

structure CircuitBreakerInstance where
  status : CircuitStatus := .CLOSED
  openedAt : Int := 0
  halfOpenInFlightOrSuccess : Nat := 0
  slidingWindow : List Bool := []
  deriving DecidableEq

/-- How `fn` ended; what is no RuntimeException is not caught. -/
inductive CallOutcome where
  | success | failure | error
  deriving DecidableEq, Repr

namespace CircuitBreakerInstance
variable (policy : CircuitBreakerPolicy)

def getStatus (b : CircuitBreakerInstance) (now : Int) : CircuitBreakerInstance :=
  if b.status = .OPEN ∧ policy.openDurationMs ≤ now - b.openedAt then
    { b with status := .HALF_OPEN, halfOpenInFlightOrSuccess := 0 }
  else b

def pushOutcome (b : CircuitBreakerInstance) (success : Bool) : CircuitBreakerInstance :=
  let window := b.slidingWindow ++ [success]
  { b with slidingWindow := window.drop (window.length - policy.slidingWindowSize) }

/-- The window keeps its outcomes. -/
def tripOpen (b : CircuitBreakerInstance) (now : Int) : CircuitBreakerInstance :=
  { b with status := .OPEN, openedAt := now, halfOpenInFlightOrSuccess := 0 }

def failures (b : CircuitBreakerInstance) : Nat := (b.slidingWindow.filter (!·)).length

def recordSuccess (b : CircuitBreakerInstance) : CircuitBreakerInstance :=
  if b.status = .HALF_OPEN then
    if policy.halfOpenMaxCalls ≤ b.halfOpenInFlightOrSuccess + 1 then
      { b with status := .CLOSED, slidingWindow := [], halfOpenInFlightOrSuccess := 0 }
    else { b with halfOpenInFlightOrSuccess := b.halfOpenInFlightOrSuccess + 1 }
  else pushOutcome policy b true

def recordFailure (b : CircuitBreakerInstance) (now : Int) : CircuitBreakerInstance :=
  if b.status = .HALF_OPEN then b.tripOpen now
  else
    let pushed := pushOutcome policy b false
    if policy.failureThreshold ≤ pushed.failures then pushed.tripOpen now else pushed

/-- `execute` up to `fn.get()`: the breaker, and whether it lets the call through. -/
def admitCall (b : CircuitBreakerInstance) (now : Int) : CircuitBreakerInstance × Bool :=
  if !policy.enabled then (b,true)
  else (getStatus policy b now,decide ((getStatus policy b now).status ≠ .OPEN))

/-- `execute` from the end of `fn` on. -/
def finish (b : CircuitBreakerInstance) (outcome : CallOutcome) (now : Int) : CircuitBreakerInstance :=
  if !policy.enabled then b else
  match outcome with
  | .success => recordSuccess policy b
  | .failure => recordFailure policy b now
  | .error => b

end CircuitBreakerInstance

/-- A breaker in use. The half-open periods are counted from one; a call is known by the
period it was admitted in, none where the breaker was closed. -/
structure BreakerUse where
  breaker : CircuitBreakerInstance := {}
  period : Nat := 0
  unfinished : List (Option Nat) := []
  /-- Successes, in the current period, of calls admitted in it. -/
  probed : Nat := 0
  deriving DecidableEq

inductive BreakerAction where
  | start (now : Int)
  | finish (call : Option Nat) (outcome : CallOutcome) (now : Int)
  | getStatus (now : Int)

namespace BreakerUse
open Dfsm.Java.CircuitBreakerInstance
variable (policy : CircuitBreakerPolicy)

/-- Where the timer moves the breaker a period begins. -/
def moved (use : BreakerUse) (breaker : CircuitBreakerInstance) : BreakerUse :=
  if use.breaker.status ≠ .HALF_OPEN ∧ breaker.status = .HALF_OPEN then
    { use with breaker, period := use.period + 1, probed := 0 }
  else { use with breaker }

/-- After the timer. -/
def timed (use : BreakerUse) (now : Int) : BreakerUse := use.moved (CircuitBreakerInstance.getStatus policy use.breaker now)

def admitted (use : BreakerUse) : Option Nat :=
  if use.breaker.status = .HALF_OPEN then some use.period else none

inductive Step : BreakerUse → BreakerAction → BreakerUse → Prop where
  | started {use now breaker} (runs : admitCall policy use.breaker now = (breaker,true)) :
      Step use (.start now) { use.moved breaker with
        unfinished := (use.moved breaker).admitted::use.unfinished }
  | refused {use now breaker} (open_ : admitCall policy use.breaker now = (breaker,false)) :
      Step use (.start now) (use.moved breaker)
  | finished {use call outcome now} (pending : call ∈ use.unfinished) :
      Step use (.finish call outcome now) { use with
        breaker := finish policy use.breaker outcome now
        unfinished := use.unfinished.erase call
        probed := if outcome = .success ∧ call = some use.period then use.probed + 1 else use.probed }
  | looked {use now} : Step use (.getStatus now) (use.timed policy now)

inductive Reaches (meets : BreakerUse → BreakerAction → Prop) : BreakerUse → Prop where
  | start : Reaches meets {}
  | step {use action next} (run : Reaches meets use) (met : meets use action) (step : Step policy use action next) :
      Reaches meets next

/-- Calls admitted in the current half-open period that have not finished. -/
def probes (use : BreakerUse) : Nat := use.unfinished.count (some use.period)

/-- So many probes at a time, so many good ones to close, and an open period whose end
stays where its trip has put it. -/
def Admission (meets : BreakerUse → BreakerAction → Prop) (use : BreakerUse) : Prop :=
  (use.breaker.status = .HALF_OPEN → use.probes ≤ policy.halfOpenMaxCalls) ∧
  ∀ action next, meets use action → Step policy use action next →
    (use.breaker.status = .HALF_OPEN → next.breaker.status = .CLOSED → policy.halfOpenMaxCalls ≤ next.probed) ∧
    (use.breaker.status = .OPEN → next.breaker.status = .OPEN → next.breaker.openedAt = use.breaker.openedAt)

/-- No call starts half-open with all the probes out, none that ends well half-open is from
before the period, and no failure that ends while the breaker is open fills the window. -/
def Fresh (use : BreakerUse) : BreakerAction → Prop
  | .start now => (use.timed policy now).breaker.status = .HALF_OPEN → (use.timed policy now).probes < policy.halfOpenMaxCalls
  | .finish call outcome _ =>
    (use.breaker.status = .HALF_OPEN → outcome = .success → call = some use.period) ∧
    (use.breaker.status = .OPEN → outcome = .failure → (pushOutcome policy use.breaker false).failures < policy.failureThreshold)
  | .getStatus _ => True

/-- The counter of the breaker counts the good probes of this period. -/
structure Counted (use : BreakerUse) : Prop where
  past : ∀ p, some p ∈ use.unfinished → p ≤ use.period
  successes : use.breaker.status = .HALF_OPEN → use.breaker.halfOpenInFlightOrSuccess = use.probed
  bounded : use.breaker.status = .HALF_OPEN → use.probes ≤ policy.halfOpenMaxCalls

variable {policy} {use next : BreakerUse}

theorem timerStatus (b : CircuitBreakerInstance) (now : Int) :
    getStatus policy b now = b ∨ b.status = .OPEN ∧
      getStatus policy b now = { b with status := .HALF_OPEN, halfOpenInFlightOrSuccess := 0 } := by
  unfold getStatus
  split
  · rename_i due
    exact .inr ⟨due.1,rfl⟩
  · exact .inl rfl

theorem timedCases (use : BreakerUse) (now : Int) :
    use.timed policy now = use ∨ use.breaker.status = .OPEN ∧ use.timed policy now =
      { use with
        breaker := { use.breaker with status := .HALF_OPEN, halfOpenInFlightOrSuccess := 0 }
        period := use.period + 1, probed := 0 } := by
  rcases @timerStatus policy use.breaker now with same | ⟨opened,half⟩
  · exact .inl (by simp [timed,same,moved])
  · exact .inr ⟨opened,by simp [timed,half,moved,opened]⟩

theorem laterUnused (counted : Counted policy use) : use.unfinished.count (some (use.period + 1)) = 0 := by
  refine List.count_eq_zero.mpr (fun mem => ?_)
  have old := counted.past _ mem
  omega

theorem timerCounted {now : Int} (counted : Counted policy use) : Counted policy (use.timed policy now) := by
  rcases @timedCases policy use now with same | ⟨_,begins⟩
  · rw [same]
    exact counted
  · rw [begins]
    refine ⟨fun p mem => Nat.le_succ_of_le (counted.past p mem),fun _ => rfl,fun _ => ?_⟩
    have none_ := laterUnused counted
    simp [probes,none_]

theorem admitCases {b breaker : CircuitBreakerInstance} {now lets} (enabled : policy.enabled = true)
    (runs : admitCall policy b now = (breaker,lets)) :
    breaker = getStatus policy b now ∧ lets = decide ((getStatus policy b now).status ≠ .OPEN) := by
  simp only [admitCall,enabled,Bool.not_true,Bool.false_eq_true,if_false] at runs
  cases runs
  exact ⟨rfl,rfl⟩

theorem startedCounted {now : Int} (counted : Counted policy use) (fresh : Fresh policy use (.start now)) :
    Counted policy { use.timed policy now with unfinished := (use.timed policy now).admitted::(use.timed policy now).unfinished } := by
  have later := @timerCounted policy use now counted
  have room : (use.timed policy now).breaker.status = .HALF_OPEN →
    (use.timed policy now).probes < policy.halfOpenMaxCalls := fresh
  generalize use.timed policy now = timed at later room
  by_cases half : timed.breaker.status = .HALF_OPEN
  · have call : timed.admitted = some timed.period := if_pos half
    rw [call]
    refine ⟨fun p mem => ?_,later.successes,fun _ => ?_⟩
    · rcases List.mem_cons.mp mem with here | old
      · cases here
        exact Nat.le_refl _
      · exact later.past p old
    · rw [probes,List.count_cons_self]
      exact room half
  · have call : timed.admitted = none := if_neg half
    rw [call]
    refine ⟨fun p mem => ?_,fun now => absurd now half,fun now => absurd now half⟩
    exact later.past p (by simpa using mem)

theorem finishHalf {b : CircuitBreakerInstance} {outcome now} (enabled : policy.enabled = true)
    (half : b.status = .HALF_OPEN) : finish policy b outcome now = match outcome with
      | .success =>
        if policy.halfOpenMaxCalls ≤ b.halfOpenInFlightOrSuccess + 1 then
          { b with status := .CLOSED, slidingWindow := [], halfOpenInFlightOrSuccess := 0 }
        else { b with halfOpenInFlightOrSuccess := b.halfOpenInFlightOrSuccess + 1 }
      | .failure => b.tripOpen now
      | .error => b := by
  cases outcome <;> simp [finish,enabled,recordSuccess,recordFailure,half]

theorem finishOutside {b : CircuitBreakerInstance} {outcome now} (outside : b.status ≠ .HALF_OPEN) :
    (finish policy b outcome now).status ≠ .HALF_OPEN := by
  unfold finish
  split
  · exact outside
  · cases outcome with
    | success => simp [recordSuccess,outside,pushOutcome]
    | failure =>
      simp only [recordFailure,outside,if_false]
      split
      · simp [tripOpen]
      · exact outside
    | error => exact outside

theorem eraseProbes (call : Option Nat) : (use.unfinished.erase call).count (some use.period) ≤ use.probes :=
  List.erase_sublist.count_le _

theorem finishedCounted {call outcome now} (enabled : policy.enabled = true) (counted : Counted policy use)
    (fresh : Fresh policy use (.finish call outcome now)) :
    Counted policy { use with
      breaker := finish policy use.breaker outcome now
      unfinished := use.unfinished.erase call
      probed := if outcome = .success ∧ call = some use.period then use.probed + 1 else use.probed } := by
  have past (p) (mem : some p ∈ use.unfinished.erase call) : p ≤ use.period := counted.past p (List.mem_of_mem_erase mem)
  by_cases half : use.breaker.status = .HALF_OPEN
  · have fewer := Nat.le_trans (@eraseProbes use call) (counted.bounded half)
    refine ⟨past,?_,fun _ => fewer⟩
    have successes := counted.successes half
    rw [finishHalf enabled half]
    cases outcome with
    | success =>
      rw [if_pos (⟨rfl,fresh.1 half rfl⟩ : CallOutcome.success = .success ∧ call = some use.period)]
      dsimp only
      split
      · intro closed
        cases closed
      · exact fun _ => congrArg (· + 1) successes
    | failure => exact fun opened => by simp [tripOpen] at opened
    | error => simpa using fun _ => successes
  · have outside := @finishOutside policy use.breaker outcome now half
    exact ⟨past,fun now => absurd now outside,fun now => absurd now outside⟩

theorem countedStep {action} (enabled : policy.enabled = true) (counted : Counted policy use)
    (fresh : Fresh policy use action) (step : Step policy use action next) : Counted policy next := by
  cases step with
  | @started now breaker runs =>
    obtain ⟨rfl,_⟩ := admitCases enabled runs
    have begun := startedCounted counted fresh
    have calls : (use.timed policy now).unfinished = use.unfinished := by
      unfold timed moved
      split <;> rfl
    rw [calls] at begun
    exact begun
  | refused open_ =>
    obtain ⟨rfl,_⟩ := admitCases enabled open_
    exact timerCounted counted
  | finished => exact finishedCounted enabled counted fresh
  | looked => exact timerCounted counted

theorem reachesCounted (enabled : policy.enabled = true) (run : Reaches policy (Fresh policy) use) : Counted policy use := by
  induction run with
  | start => exact ⟨by simp,by simp,by simp⟩
  | step _ fresh step ih => exact countedStep enabled ih fresh step

theorem closingStep {action} (enabled : policy.enabled = true) (counted : Counted policy use) (fresh : Fresh policy use action)
    (step : Step policy use action next) (half : use.breaker.status = .HALF_OPEN) (closed : next.breaker.status = .CLOSED) :
    policy.halfOpenMaxCalls ≤ next.probed := by
  have stays (now : Int) : use.timed policy now = use := by
    rcases @timedCases policy use now with same | ⟨opened,_⟩
    · exact same
    · rw [half] at opened
      cases opened
  have open_ (now : Int) : ¬(use.timed policy now).breaker.status = .CLOSED := by
    rw [stays,half]
    decide
  cases step with
  | started runs =>
    obtain ⟨rfl,_⟩ := admitCases enabled runs
    exact absurd closed (open_ _)
  | refused runs =>
    obtain ⟨rfl,_⟩ := admitCases enabled runs
    exact absurd closed (open_ _)
  | looked => exact absurd closed (open_ _)
  | @finished call outcome now pending =>
    have successes := counted.successes half
    rw [finishHalf enabled half] at closed
    cases outcome with
    | success =>
      rw [if_pos ⟨rfl,fresh.1 half rfl⟩]
      dsimp only at closed ⊢
      split at closed
      · omega
      · simp [half] at closed
    | failure => simp [tripOpen] at closed
    | error => simp [half] at closed

theorem openStep {action} (enabled : policy.enabled = true) (fresh : Fresh policy use action)
    (step : Step policy use action next) (opened : use.breaker.status = .OPEN) (still : next.breaker.status = .OPEN) :
    next.breaker.openedAt = use.breaker.openedAt := by
  have timer (now : Int) : (use.timed policy now).breaker.openedAt = use.breaker.openedAt := by
    rcases @timedCases policy use now with same | ⟨_,begins⟩
    · rw [same]
    · rw [begins]
  cases step with
  | started runs =>
    obtain ⟨rfl,_⟩ := admitCases enabled runs
    exact timer _
  | refused runs =>
    obtain ⟨rfl,_⟩ := admitCases enabled runs
    exact timer _
  | looked => exact timer _
  | @finished call outcome now pending =>
    have notHalf : use.breaker.status ≠ .HALF_OPEN := by
      rw [opened]
      decide
    simp only [finish,enabled,Bool.not_true,Bool.false_eq_true,if_false]
    cases outcome with
    | success => simp [recordSuccess,notHalf,pushOutcome]
    | failure =>
      have few := Nat.not_le_of_lt (fresh.2 opened rfl)
      simp only [recordFailure,notHalf,few,if_false]
      rfl
    | error => rfl

/-- One failure opens, ten milliseconds half-open, one probe closes. -/
def single : CircuitBreakerPolicy :=
  { enabled := true, failureThreshold := 1, slidingWindowSize := 1, openDurationMs := 10, halfOpenMaxCalls := 1 }

theorem singleProbed {meets : BreakerUse → BreakerAction → Prop} (first : meets {} (.start 0))
    (fails : meets { unfinished := [none] } (.finish none .failure 0))
    (probe : meets { breaker := { status := .OPEN, slidingWindow := [false] } } (.start 10)) :
    Reaches single meets { breaker := { status := .HALF_OPEN, slidingWindow := [false] }, period := 1, unfinished := [some 1] } :=
  .step (.step (.step .start first (@Step.started single {} 0 {} rfl)) fails
    (@Step.finished single { unfinished := [none] } none .failure 0 (by decide))) probe
    (@Step.started single { breaker := { status := .OPEN, slidingWindow := [false] } } 10
      { status := .HALF_OPEN, slidingWindow := [false] } rfl)

end BreakerUse
end Dfsm.Java
