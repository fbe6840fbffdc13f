import Dfsm.Policy.CircuitBreaker
import Mathlib.Data.List.DropRight

/-! When a breaker trips, over calls that do not overlap. What the policy counts, the
outcomes since the breaker last closed and the failures in a row, is kept beside the
breaker, and the breaker's own window is compared with it. -/
namespace Dfsm

/-- One call through `execute`, from the clock's reading at its start to that at its end;
`later` is the reading for the error of a refused call. -/
structure Call where
  started : Int
  later : Int
  ended : Int
  outcome : Outcome
  deriving DecidableEq

namespace CircuitBreakerInstance
variable (policy : NormalizedCircuitBreakerPolicy)

/-- `execute`, and the error of a call whose `fn` never ran. -/
def execute (b : CircuitBreakerInstance) (call : Call) : CircuitBreakerInstance × Option CircuitOpenError :=
  match admitCall policy b call.started call.later with
  | (b,some error) => (b,some error)
  | (b,none) => (finish policy b call.outcome call.ended,none)

end CircuitBreakerInstance

/-- A breaker beside the outcomes since it last closed and the failures in a row. -/
structure CallHistory where
  breaker : CircuitBreakerInstance := {}
  outcomes : List Bool := []
  streak : Nat := 0
  deriving DecidableEq

namespace CallHistory
open CircuitBreakerInstance
variable (policy : NormalizedCircuitBreakerPolicy)

/-- The outcomes a call that ran adds; a `ValidationError` adds none. -/
def added : Outcome → List Bool
  | .success => [true]
  | .failure => [false]
  | .validationError => []

def streakAfter (streak : Nat) : Outcome → Nat
  | .success => 0
  | .failure => streak + 1
  | .validationError => streak

def called (h : CallHistory) (call : Call) : CallHistory :=
  match execute policy h.breaker call with
  | (breaker,some _) => { h with breaker }
  | (breaker,none) =>
    { breaker
      outcomes := if breaker.status = .CLOSED ∧ h.breaker.status ≠ .CLOSED then [] else h.outcomes ++ added call.outcome
      streak := streakAfter h.streak call.outcome }

def run (calls : List Call) : CallHistory := calls.foldl (called policy) {}

/-- Failures among the last `slidingWindowSize` outcomes since the last close. -/
def failures (h : CallHistory) : Nat := (h.outcomes.rtake policy.slidingWindowSize).count false

def Ran (h : CallHistory) (call : Call) : Prop := (execute policy h.breaker call).2 = none

/-- A disabled policy hands every call straight to `fn`. -/
def Protected (_ : Call) : Prop := policy.enabled = true

end CallHistory

/-- What the schema asks of the numbers of a policy. -/
structure NormalizedCircuitBreakerPolicy.Legal (policy : NormalizedCircuitBreakerPolicy) : Prop where
  threshold : 1 ≤ policy.failureThreshold
  window : 1 ≤ policy.slidingWindowSize
  duration : 1 ≤ policy.openDurationMs
  probes : 1 ≤ policy.halfOpenMaxCalls

namespace CallHistory
open CircuitBreakerInstance

/-- What a breaker owes its policy, after any calls. -/
structure Trips (policy : NormalizedCircuitBreakerPolicy) : Prop where
  opens : ∀ calls call, (∀ made ∈ calls ++ [call], Protected policy made) →
    (run policy calls).breaker.status = .CLOSED →
    (((run policy calls).called policy call).breaker.status = .OPEN ↔
      (run policy calls).failures policy < policy.failureThreshold ∧
      ((run policy calls).called policy call).failures policy = policy.failureThreshold)
  consecutive : ∀ calls call, (∀ made ∈ calls ++ [call], Protected policy made) →
    (run policy calls).Ran policy call → call.outcome = .failure →
    policy.failureThreshold ≤ ((run policy calls).called policy call).streak →
    ((run policy calls).called policy call).breaker.status = .OPEN
  waits : ∀ calls call later next, (∀ made ∈ calls ++ call::later ++ [next], Protected policy made) →
    (run policy calls).Ran policy call → ((run policy calls).called policy call).breaker.status = .OPEN →
    (∀ made ∈ later ++ [next], made.started < call.ended + policy.openDurationMs) →
    ¬ (run policy (calls ++ call::later)).Ran policy next

variable {policy : NormalizedCircuitBreakerPolicy} {h : CallHistory} {call : Call}

@[simp] theorem runSnoc (calls : List Call) : run policy (calls ++ [call]) = (run policy calls).called policy call := by
  simp [run]

theorem evicted (outcomes : List Bool) (ok : Bool) (size : Nat) :
    (outcomes.rtake size ++ [ok]).rtake size = (outcomes ++ [ok]).rtake size := by
  cases size with
  | zero => simp
  | succ size =>
    rw [List.rtake_concat_succ,List.rtake_concat_succ]
    congr 1
    simp only [List.rtake,List.drop_drop,List.length_drop]
    congr 1
    omega

theorem executeClosed {b : CircuitBreakerInstance} (enabled : policy.enabled = true) (closed : b.status = .CLOSED) :
    execute policy b call = (finish policy b call.outcome call.ended,none) := by
  simp [execute,admitCall,evaluateTimerTransition,enabled,closed]

theorem closedCalled (enabled : policy.enabled = true) (closed : h.breaker.status = .CLOSED) :
    h.called policy call =
      { breaker := finish policy h.breaker call.outcome call.ended
        outcomes := h.outcomes ++ added call.outcome
        streak := streakAfter h.streak call.outcome } := by
  simp [called,executeClosed enabled closed,closed]

theorem timedOutside {b : CircuitBreakerInstance} {now : Int} (outside : b.status ≠ .CLOSED) :
    (evaluateTimerTransition policy b now).status ≠ .CLOSED := by
  rcases @BreakerUse.timerStatus policy b now with same | ⟨_,half,_⟩
  · rw [same]
    exact outside
  · simp [half]

theorem admitOutside {b : CircuitBreakerInstance} {now later : Int} (enabled : policy.enabled = true)
    (outside : b.status ≠ .CLOSED) :
    (∃ error, admitCall policy b now later = (evaluateTimerTransition policy b now,some error)) ∨
    (evaluateTimerTransition policy b now).status = .HALF_OPEN ∧
      ∃ probing : CircuitBreakerInstance, probing.status = .HALF_OPEN ∧ admitCall policy b now later = (probing,none) := by
  have timed := @timedOutside policy b now outside
  simp only [admitCall,enabled,Bool.not_true,Bool.false_eq_true,if_false]
  cases status : (evaluateTimerTransition policy b now).status with
  | CLOSED => exact absurd status timed
  | OPEN => exact .inl ⟨_,rfl⟩
  | HALF_OPEN =>
    dsimp only
    split
    · exact .inl ⟨_,rfl⟩
    · exact .inr ⟨rfl,{ evaluateTimerTransition policy b now with
        status := .HALF_OPEN, halfOpenInFlight := (evaluateTimerTransition policy b now).halfOpenInFlight + 1 },rfl,rfl⟩

theorem executeOutside {b : CircuitBreakerInstance} (enabled : policy.enabled = true) (outside : b.status ≠ .CLOSED) :
    (∃ error, execute policy b call = (evaluateTimerTransition policy b call.started,some error)) ∨
    (evaluateTimerTransition policy b call.started).status = .HALF_OPEN ∧
      ∃ probing : CircuitBreakerInstance, probing.status = .HALF_OPEN ∧
        execute policy b call = (finish policy probing call.outcome call.ended,none) := by
  rcases @admitOutside policy b call.started call.later enabled outside with ⟨error,refuses⟩ | ⟨timed,probing,half,runs⟩
  · exact .inl ⟨error,by rw [execute,refuses]⟩
  · exact .inr ⟨timed,probing,half,by rw [execute,runs]⟩

theorem outsideCalled (enabled : policy.enabled = true) (outside : h.breaker.status ≠ .CLOSED) :
    (h.called policy call).breaker.status ≠ .CLOSED ∨
      h.called policy call = { breaker := reset, outcomes := [], streak := 0 } := by
  rcases @executeOutside policy call _ enabled outside with ⟨error,refuses⟩ | ⟨_,probing,half,runs⟩
  · simp only [called,refuses]
    exact .inl (timedOutside outside)
  · simp only [called,runs,BreakerUse.finishHalf enabled half]
    cases call.outcome with
    | success =>
      dsimp only
      split
      · exact .inr (by simp [reset,outside,streakAfter])
      · exact .inl (by simp [half])
    | failure => exact .inl (by simp [tripOpen])
    | validationError => exact .inl (by simp [half])

/-- What a closed breaker knows: its window, short of the threshold, and the failures in a row. -/
structure Told (policy : NormalizedCircuitBreakerPolicy) (h : CallHistory) : Prop where
  window : h.breaker.outcomesWindow = h.outcomes.rtake policy.slidingWindowSize
  below : h.failures policy < policy.failureThreshold
  row : ∃ earlier, h.outcomes = earlier ++ List.replicate h.streak false

theorem startTold (legal : policy.Legal) : Told policy {} :=
  ⟨by simp [List.rtake],by simpa [failures,List.rtake,Nat.pos_iff_ne_zero,Nat.one_le_iff_ne_zero] using legal.threshold,[],rfl⟩

theorem pushTold (told : Told policy h) (ok : Bool) :
    (pushOutcome policy h.breaker ok).outcomesWindow = (h.outcomes ++ [ok]).rtake policy.slidingWindowSize := by
  rw [← evicted,← told.window]
  rfl

theorem countFalse (window : List Bool) : (window.filter (!·)).length = window.count false := by
  rw [List.count_eq_length_filter]
  congr 2
  funext ok
  cases ok <;> rfl

theorem failedClosed (enabled : policy.enabled = true) (closed : h.breaker.status = .CLOSED) (told : Told policy h)
    (failed : call.outcome = .failure) :
    (h.called policy call).breaker.status = .OPEN ∧
        policy.failureThreshold ≤ (h.called policy call).failures policy ∨
    (h.called policy call).breaker = pushOutcome policy h.breaker false ∧
        (h.called policy call).failures policy < policy.failureThreshold := by
  have pushed := pushTold told false
  have ends : finish policy h.breaker .failure call.ended =
      if policy.failureThreshold ≤ ((h.outcomes ++ [false]).rtake policy.slidingWindowSize).count false then
        (pushOutcome policy h.breaker false).tripOpen call.ended
      else pushOutcome policy h.breaker false := by
    simp [finish,enabled,onFailure,closed,countFalse,pushed]
  rw [closedCalled enabled closed,failed,ends]
  simp only [failures,added]
  split
  · rename_i full
    exact .inl ⟨rfl,full⟩
  · rename_i room
    exact .inr ⟨rfl,by omega⟩

theorem failuresAfter (outcomes : List Bool) (ok : Bool) (size : Nat) :
    ((outcomes ++ [ok]).rtake size).count false ≤ (outcomes.rtake size).count false + if ok then 0 else 1 := by
  cases size with
  | zero => simp
  | succ size =>
    rw [List.rtake_concat_succ,List.count_append]
    have fewer : (outcomes.rtake size).count false ≤ (outcomes.rtake (size + 1)).count false := by
      refine List.Sublist.count_le _ ?_
      simp only [List.rtake]
      exact List.drop_sublist_drop_left _ (by omega)
    cases ok <;> simp <;> omega

theorem closedStep (enabled : policy.enabled = true) (closed : h.breaker.status = .CLOSED) (told : Told policy h) :
    (h.called policy call).breaker.status = .OPEN ∧
        (h.called policy call).failures policy = policy.failureThreshold ∨
    (h.called policy call).breaker.status = .CLOSED ∧ Told policy (h.called policy call) := by
  have after := @closedCalled policy h call enabled closed
  obtain ⟨earlier,row⟩ := told.row
  cases outcome : call.outcome with
  | success =>
    have pushed : h.called policy call =
        { breaker := pushOutcome policy h.breaker true, outcomes := h.outcomes ++ [true], streak := 0 } := by
      simp [after,outcome,finish,enabled,onSuccess,closed,added,streakAfter]
    have few := failuresAfter h.outcomes true policy.slidingWindowSize
    have below := told.below
    rw [pushed]
    refine .inr ⟨closed,pushTold told true,?_,h.outcomes ++ [true],by simp⟩
    simp only [failures] at below ⊢
    simp only [if_true] at few
    omega
  | failure =>
    have few := failuresAfter h.outcomes false policy.slidingWindowSize
    have below := told.below
    have count : (h.called policy call).failures policy ≤ h.failures policy + 1 := by
      rw [after,outcome]
      exact few
    rcases failedClosed enabled closed told outcome with ⟨opened,full⟩ | ⟨stays,room⟩
    · exact .inl ⟨opened,by omega⟩
    · refine .inr ⟨by rw [stays]; exact closed,?_,room,earlier,?_⟩
      · rw [stays,after,outcome]
        exact pushTold told false
      · rw [after,outcome]
        simp [added,streakAfter,row,List.replicate_succ',List.append_assoc]
  | validationError =>
    have same : h.called policy call = h := by
      simp [after,outcome,finish,enabled,closed,added,streakAfter]
    rw [same]
    exact .inr ⟨closed,told⟩

theorem runTold (legal : policy.Legal) (enabled : policy.enabled = true) (calls : List Call)
    (closed : (run policy calls).breaker.status = .CLOSED) : Told policy (run policy calls) := by
  induction calls using List.reverseRecOn with
  | nil => exact startTold legal
  | append_singleton calls call ih =>
    rw [runSnoc] at closed ⊢
    by_cases was : (run policy calls).breaker.status = .CLOSED
    · rcases @closedStep policy _ call enabled was (ih was) with ⟨opened,_⟩ | ⟨_,told⟩
      · rw [opened] at closed
        contradiction
      · exact told
    · rcases @outsideCalled policy _ call enabled was with outside | fresh
      · exact absurd closed outside
      · rw [fresh]
        exact startTold legal

theorem rowFills (fits : policy.failureThreshold ≤ policy.slidingWindowSize) (earlier : List Bool) (streak : Nat)
    (row : h.outcomes = earlier ++ List.replicate streak false) (long : policy.failureThreshold ≤ streak) :
    policy.failureThreshold ≤ h.failures policy := by
  have split : h.outcomes = earlier ++ List.replicate (streak - policy.failureThreshold) false ++
      List.replicate policy.failureThreshold false := by
    rw [row,List.append_assoc,List.replicate_append_replicate]
    congr 2
    omega
  have last : List.replicate policy.failureThreshold false <:+ h.outcomes.rtake policy.slidingWindowSize := by
    rw [split,List.rtake]
    rw [List.drop_append_of_le_length]
    · exact List.suffix_append _ _
    · simp only [List.length_append,List.length_replicate]
      omega
  have count := last.sublist.count_le false
  simpa [failures] using count

theorem opensAtThreshold (legal : policy.Legal) (enabled : policy.enabled = true) (calls : List Call)
    (closed : (run policy calls).breaker.status = .CLOSED) :
    ((run policy calls).called policy call).breaker.status = .OPEN ↔
      (run policy calls).failures policy < policy.failureThreshold ∧
      ((run policy calls).called policy call).failures policy = policy.failureThreshold := by
  have told := runTold legal enabled calls closed
  rcases @closedStep policy _ call enabled closed told with ⟨opened,full⟩ | ⟨stays,next⟩
  · exact iff_of_true opened ⟨told.below,full⟩
  · refine iff_of_false (by simp [stays]) (fun reached => ?_)
    have below := next.below
    have full := reached.2
    omega

theorem failedOutside (enabled : policy.enabled = true) (outside : h.breaker.status ≠ .CLOSED) (ran : h.Ran policy call)
    (failed : call.outcome = .failure) : (h.called policy call).breaker.status = .OPEN := by
  rcases @executeOutside policy call _ enabled outside with ⟨error,refuses⟩ | ⟨_,probing,half,runs⟩
  · simp [Ran,refuses] at ran
  · simp [called,runs,failed,BreakerUse.finishHalf enabled half,tripOpen]

theorem streakOpens (legal : policy.Legal) (enabled : policy.enabled = true)
    (fits : policy.failureThreshold ≤ policy.slidingWindowSize) (calls : List Call)
    (ran : (run policy calls).Ran policy call) (failed : call.outcome = .failure)
    (long : policy.failureThreshold ≤ ((run policy calls).called policy call).streak) :
    ((run policy calls).called policy call).breaker.status = .OPEN := by
  by_cases closed : (run policy calls).breaker.status = .CLOSED
  · rcases @closedStep policy _ call enabled closed (runTold legal enabled calls closed) with ⟨opened,_⟩ | ⟨_,next⟩
    · exact opened
    · obtain ⟨earlier,row⟩ := next.row
      have full := rowFills fits earlier _ row long
      have below := next.below
      omega
  · exact failedOutside enabled closed ran failed

theorem failureOpened {b : CircuitBreakerInstance} {now} (was : b.status ≠ .OPEN)
    (opened : (onFailure policy b now).status = .OPEN) : (onFailure policy b now).openedAt = now := by
  unfold onFailure at opened ⊢
  split
  · rfl
  · rename_i outside
    rw [if_neg outside] at opened
    dsimp only at opened ⊢
    split
    · rfl
    · rename_i room
      rw [if_neg room] at opened
      exact absurd opened was

theorem successOpens {b : CircuitBreakerInstance} (was : b.status ≠ .OPEN) : (onSuccess policy b).status ≠ .OPEN := by
  unfold onSuccess
  split
  · split
    · simp [reset]
    · exact was
  · exact was

theorem finishOpened {b : CircuitBreakerInstance} {outcome now} (enabled : policy.enabled = true) (was : b.status ≠ .OPEN)
    (opened : (finish policy b outcome now).status = .OPEN) : (finish policy b outcome now).openedAt = now := by
  simp only [finish,enabled,Bool.not_true,Bool.false_eq_true,if_false] at opened ⊢
  cases outcome with
  | success => exact absurd opened (successOpens was)
  | failure => exact failureOpened was opened
  | validationError =>
    dsimp only at opened
    split at opened <;> exact absurd opened was

theorem calledOpened (enabled : policy.enabled = true) (ran : h.Ran policy call)
    (opened : (h.called policy call).breaker.status = .OPEN) : (h.called policy call).breaker.openedAt = call.ended := by
  by_cases closed : h.breaker.status = .CLOSED
  · rw [closedCalled enabled closed] at opened ⊢
    exact finishOpened enabled (by simp [closed]) opened
  · rcases @executeOutside policy call _ enabled closed with ⟨error,refuses⟩ | ⟨_,probing,half,runs⟩
    · simp [Ran,refuses] at ran
    · simp only [called,runs] at opened ⊢
      exact finishOpened enabled (by simp [half]) opened

theorem openRefuses (enabled : policy.enabled = true) (opened : h.breaker.status = .OPEN)
    (early : call.started < h.breaker.openedAt + policy.openDurationMs) :
    ¬ h.Ran policy call ∧ h.called policy call = h := by
  have waits : evaluateTimerTransition policy h.breaker call.started = h.breaker := by
    rw [evaluateTimerTransition,if_neg]
    intro due
    have late := due.2
    omega
  have outside : h.breaker.status ≠ .CLOSED := by simp [opened]
  rcases @executeOutside policy call _ enabled outside with ⟨error,refuses⟩ | ⟨half,_⟩
  · rw [waits] at refuses
    exact ⟨by simp [Ran,refuses],by simp [called,refuses]⟩
  · simp [waits,opened] at half

theorem openWaits (enabled : policy.enabled = true) (opened : h.breaker.status = .OPEN) (later : List Call)
    (early : ∀ made ∈ later, made.started < h.breaker.openedAt + policy.openDurationMs) :
    later.foldl (called policy) h = h := by
  induction later with
  | nil => rfl
  | cons next later ih =>
    rw [List.foldl_cons,(openRefuses enabled opened (early next (by simp))).2]
    exact ih (fun made mem => early made (List.mem_cons_of_mem _ mem))

theorem waitsOpen (enabled : policy.enabled = true) (calls : List Call) (later : List Call) (next : Call)
    (ran : (run policy calls).Ran policy call) (opened : ((run policy calls).called policy call).breaker.status = .OPEN)
    (early : ∀ made ∈ later ++ [next], made.started < call.ended + policy.openDurationMs) :
    ¬ (run policy (calls ++ call::later)).Ran policy next := by
  have time := calledOpened enabled ran opened
  rw [← time] at early
  have stays : run policy (calls ++ call::later) = (run policy calls).called policy call := by
    rw [run,List.foldl_append,List.foldl_cons]
    exact openWaits enabled opened later (fun made mem => early made (List.mem_append_left _ mem))
  rw [stays]
  exact (openRefuses enabled opened (early next (by simp))).1

theorem failuresWindow (h : CallHistory) : h.failures policy ≤ policy.slidingWindowSize := by
  have short : (h.outcomes.rtake policy.slidingWindowSize).length ≤ policy.slidingWindowSize := by
    simp only [List.rtake,List.length_drop]
    omega
  exact List.count_le_length.trans short

theorem narrowCloses (legal : policy.Legal) (enabled : policy.enabled = true)
    (narrow : policy.slidingWindowSize < policy.failureThreshold) (calls : List Call) :
    (run policy calls).breaker.status = .CLOSED := by
  induction calls using List.reverseRecOn with
  | nil => rfl
  | append_singleton calls call ih =>
    rw [runSnoc]
    rcases @closedStep policy _ call enabled ih (runTold legal enabled calls ih) with ⟨_,full⟩ | ⟨closed,_⟩
    · have few := @failuresWindow policy ((run policy calls).called policy call)
      omega
    · exact closed

theorem narrowStreak (legal : policy.Legal) (enabled : policy.enabled = true)
    (narrow : policy.slidingWindowSize < policy.failureThreshold) (failed : call.outcome = .failure) (n : Nat) :
    (run policy (List.replicate n call)).streak = n := by
  induction n with
  | zero => rfl
  | succ n ih =>
    rw [List.replicate_succ',runSnoc,closedCalled enabled (narrowCloses legal enabled narrow _)]
    simp [streakAfter,failed,ih]

/-- A breaker trips as its policy says exactly where the window can hold the threshold. -/
theorem breakerTrips (policy : NormalizedCircuitBreakerPolicy) (legal : policy.Legal) :
    Trips policy ↔ (policy.enabled = true → policy.failureThreshold ≤ policy.slidingWindowSize) := by
  constructor
  · intro trips enabled
    by_contra narrow
    have narrow := Nat.lt_of_not_le narrow
    let failed : Call := ⟨0,0,0,.failure⟩
    let calls := List.replicate policy.failureThreshold failed
    have closed := narrowCloses legal enabled narrow calls
    have ran : (run policy calls).Ran policy failed := by simp [Ran,executeClosed enabled closed]
    have long : policy.failureThreshold ≤ ((run policy calls).called policy failed).streak := by
      have streak := @narrowStreak policy failed legal enabled narrow rfl (policy.failureThreshold + 1)
      rw [List.replicate_succ',runSnoc] at streak
      exact streak ▸ Nat.le_succ _
    have opened := trips.consecutive calls failed (fun _ _ => enabled) ran rfl long
    have stays := narrowCloses legal enabled narrow (calls ++ [failed])
    rw [runSnoc,opened] at stays
    contradiction
  · intro fits
    refine ⟨?_,?_,?_⟩
    · intro calls call guarded closed
      exact opensAtThreshold legal (guarded call (by simp)) calls closed
    · intro calls call guarded ran failed long
      have enabled := guarded call (by simp)
      exact streakOpens legal enabled (fits enabled) calls ran failed long
    · intro calls call later next guarded ran opened early
      exact waitsOpen (guarded next (by simp)) calls later next ran opened early

/-- Two failures in a window of one outcome. -/
def narrow : NormalizedCircuitBreakerPolicy :=
  { enabled := true, key := "payment", failureThreshold := 2, slidingWindowSize := 1, openDurationMs := 10
    halfOpenMaxCalls := 1 }

theorem breakerTripsSingle : Trips BreakerUse.single :=
  (breakerTrips BreakerUse.single ⟨by decide,by decide,by decide,by decide⟩).mpr (fun _ => Nat.le_refl 1)

/-- Two failures in a row leave it closed. -/
theorem breakerTripsNarrow : ¬ ∀ policy : NormalizedCircuitBreakerPolicy, policy.Legal → Trips policy := by
  intro claim
  have trips := claim narrow ⟨by decide,by decide,by decide,by decide⟩
  have opened := trips.consecutive [⟨0,0,0,.failure⟩] ⟨1,1,1,.failure⟩ (fun _ _ => rfl) rfl rfl (by decide)
  exact absurd opened (by decide)

end CallHistory
end Dfsm
