import Dfsm.Java.Pipeline
import Dfsm.Policy.Ordinary

/-! The step pipeline of the Java SDK against the reference pipeline: the same calls of the
handler, the same reports, and breakers that stay in step. -/
namespace Dfsm.Java.Pipeline
open Policies

/-- One policy, as the two normalizers write it. -/
structure SamePolicy (p : Policies.NormalizedTransitionPolicy) (q : Policy.NormalizedTransitionPolicy Policy.Retrying.Thrown) : Prop where
  maxAttempts : (q.retry.maxAttempts : Int) = p.retry.maxAttempts.toInt
  retryIf : q.retry.retryIf = none
  enabled : q.circuitBreaker.enabled = p.circuitBreaker.enabled
  failureThreshold : (q.circuitBreaker.failureThreshold : Int) = p.circuitBreaker.failureThreshold.toInt
  slidingWindowSize : (q.circuitBreaker.slidingWindowSize : Int) = p.circuitBreaker.slidingWindowSize.toInt
  openDurationMs : q.circuitBreaker.openDurationMs = p.circuitBreaker.openDurationMs.toInt
  halfOpenMaxCalls : (q.circuitBreaker.halfOpenMaxCalls : Int) = p.circuitBreaker.halfOpenMaxCalls.toInt
  compensate : q.onFail.compensate = p.onFail.compensate
  target : q.onFail.target = p.onFail.target

/-- The breakers are in the same state: what is still read of the window, the trip and the successes is the same. -/
structure SameBreaker (b : Dfsm.CircuitBreakerInstance) (j : CircuitBreakerInstance) : Prop where
  status : b.status = j.status
  openedAt : b.status = .OPEN → b.openedAt = j.openedAt
  window : b.status = .CLOSED → b.outcomesWindow = j.slidingWindow
  successes : b.status = .HALF_OPEN → b.halfOpenSuccesses = j.halfOpenInFlightOrSuccess

/-- So many probes are out where it is half-open. -/
def Probing (probes : Nat) (b : Dfsm.CircuitBreakerInstance) : Prop := b.status = .HALF_OPEN → b.halfOpenInFlight = probes

section
variable {b : Dfsm.CircuitBreakerInstance} {j : CircuitBreakerInstance} {q : NormalizedCircuitBreakerPolicy} {p : Java.CircuitBreakerPolicy}

/-- The numbers that both breakers read. -/
structure SameNumbers (p : Java.CircuitBreakerPolicy) (q : NormalizedCircuitBreakerPolicy) : Prop where
  enabled : q.enabled = p.enabled
  failureThreshold : q.failureThreshold = p.failureThreshold
  slidingWindowSize : q.slidingWindowSize = p.slidingWindowSize
  openDurationMs : q.openDurationMs = p.openDurationMs
  halfOpenMaxCalls : q.halfOpenMaxCalls = p.halfOpenMaxCalls
  some_ : 1 ≤ q.halfOpenMaxCalls

theorem timersAgree (numbers : SameNumbers p q) (same : SameBreaker b j) (idle : Probing 0 b) (now : Int) :
    SameBreaker (b.evaluateTimerTransition q now) (j.getStatus p now) ∧ Probing 0 (b.evaluateTimerTransition q now) := by
  unfold Dfsm.CircuitBreakerInstance.evaluateTimerTransition CircuitBreakerInstance.getStatus
  by_cases opened : b.status = .OPEN
  · rw [← same.status,← same.openedAt opened,numbers.openDurationMs]
    split
    · exact ⟨⟨rfl,nofun,nofun,fun _ => rfl⟩,fun _ => rfl⟩
    · exact ⟨same,idle⟩
  · rw [if_neg (fun due => opened due.1),if_neg (fun due => opened (same.status.trans due.1))]
    exact ⟨same,idle⟩

theorem admissionsAgree (numbers : SameNumbers p q) (same : SameBreaker b j) (idle : Probing 0 b) (now later : Int) :
    (∃ breaker error, b.admitCall q now later = (breaker,some error) ∧ (j.admitCall p now).2 = false ∧
      SameBreaker breaker (j.admitCall p now).1 ∧ Probing 0 breaker) ∨
    ∃ breaker, b.admitCall q now later = (breaker,none) ∧ (j.admitCall p now).2 = true ∧ SameBreaker breaker (j.admitCall p now).1 ∧
      (q.enabled = true → breaker.status ≠ .OPEN ∧ Probing 1 breaker) ∧ (q.enabled = false → breaker = b) := by
  unfold Dfsm.CircuitBreakerInstance.admitCall CircuitBreakerInstance.admitCall
  rw [← numbers.enabled]
  cases enabled : q.enabled with
  | false => exact .inr ⟨b,rfl,rfl,same,nofun,fun _ => rfl⟩
  | true =>
    obtain ⟨timed,probing⟩ := timersAgree numbers same idle now
    simp only [Bool.not_true,Bool.false_eq_true,if_false,← timed.status]
    generalize b.evaluateTimerTransition q now = b at timed probing
    generalize j.getStatus p now = j at timed
    cases status : b.status with
    | OPEN => exact .inl ⟨b,_,rfl,by simp,timed,probing⟩
    | CLOSED =>
      refine .inr ⟨b,rfl,by simp,timed,fun _ => ⟨by simp [status],fun half => ?_⟩,nofun⟩
      rw [status] at half
      cases half
    | HALF_OPEN =>
      have room : ¬q.halfOpenMaxCalls ≤ b.halfOpenInFlight := by
        have one := numbers.some_
        rw [probing status]
        omega
      refine .inr ⟨{ b with halfOpenInFlight := b.halfOpenInFlight + 1 },by simp only [if_neg room,status],by simp,?_,fun _ => ?_,nofun⟩
      · exact ⟨timed.status,timed.openedAt,timed.window,timed.successes⟩
      · exact ⟨by simp [status],fun _ => by simp [probing status]⟩

theorem pushesAgree (numbers : SameNumbers p q) (same : SameBreaker b j) (closed : b.status = .CLOSED) (ok : Bool) :
    (b.pushOutcome q ok).outcomesWindow = (j.pushOutcome p ok).slidingWindow := by
  simp only [Dfsm.CircuitBreakerInstance.pushOutcome,CircuitBreakerInstance.pushOutcome,same.window closed,numbers.slidingWindowSize]

theorem successesAgree (numbers : SameNumbers p q) (same : SameBreaker b j) (admitted : b.status ≠ .OPEN) :
    SameBreaker (b.onSuccess q) (j.recordSuccess p) := by
  unfold Dfsm.CircuitBreakerInstance.onSuccess CircuitBreakerInstance.recordSuccess
  rw [← same.status]
  split
  · rename_i half
    rw [← same.successes half,numbers.halfOpenMaxCalls]
    split
    · exact ⟨rfl,nofun,fun _ => rfl,nofun⟩
    · exact ⟨rfl,fun opened => absurd opened admitted,fun closed => by simp [half] at closed,fun _ => rfl⟩
  · rename_i notHalf
    have closed : b.status = .CLOSED := by
      cases status : b.status with
      | CLOSED => rfl
      | OPEN => exact absurd status admitted
      | HALF_OPEN => exact absurd status notHalf
    exact ⟨same.status,fun opened => absurd opened admitted,fun _ => pushesAgree numbers same closed true,fun half => absurd half notHalf⟩

theorem failuresAgree (numbers : SameNumbers p q) (same : SameBreaker b j) (admitted : b.status ≠ .OPEN) (now : Int) :
    SameBreaker (b.onFailure q now) (j.recordFailure p now) := by
  unfold Dfsm.CircuitBreakerInstance.onFailure CircuitBreakerInstance.recordFailure
  rw [← same.status]
  split
  · exact ⟨rfl,fun _ => rfl,nofun,nofun⟩
  · rename_i notHalf
    have closed : b.status = .CLOSED := by
      cases status : b.status with
      | CLOSED => rfl
      | OPEN => exact absurd status admitted
      | HALF_OPEN => exact absurd status notHalf
    have pushed := pushesAgree numbers same closed false
    have count : ((b.pushOutcome q false).outcomesWindow.filter (!·)).length = (j.pushOutcome p false).failures := by
      rw [pushed]
      rfl
    dsimp only
    rw [count,numbers.failureThreshold]
    by_cases trips : p.failureThreshold ≤ (j.pushOutcome p false).failures
    · rw [if_pos trips,if_pos trips]
      exact ⟨rfl,fun _ => rfl,nofun,nofun⟩
    · rw [if_neg trips,if_neg trips]
      exact ⟨same.status,fun opened => absurd opened admitted,fun _ => pushed,fun half => absurd half notHalf⟩

theorem failureStays {now : Int} (closed : b.status = .CLOSED) (stays : (b.onFailure q now).status = .CLOSED) :
    b.onFailure q now = { b with outcomesWindow := (b.onFailure q now).outcomesWindow } := by
  unfold Dfsm.CircuitBreakerInstance.onFailure at stays ⊢
  rw [if_neg (by simp [closed])] at stays ⊢
  dsimp only at stays ⊢
  split at stays
  · cases stays
  · rename_i quiet
    rw [if_neg quiet]
    rfl

/-- A failure that only one of them counts keeps the breakers the same just where it leaves the other as it is. -/
theorem uncountedAgrees (numbers : SameNumbers p q) (same : SameBreaker b j) (admitted : q.enabled = true → b.status ≠ .OPEN) (now : Int) :
    SameBreaker (b.finish q .validationError now) (j.finish p .failure now) ↔ b.finish q .failure now = b := by
  unfold Dfsm.CircuitBreakerInstance.finish CircuitBreakerInstance.finish
  rw [← numbers.enabled]
  cases enabled : q.enabled with
  | false => exact iff_of_true same rfl
  | true =>
    simp only [Bool.not_true,Bool.false_eq_true,if_false]
    cases status : b.status with
    | OPEN => exact absurd status (admitted enabled)
    | HALF_OPEN =>
      have half : j.status = .HALF_OPEN := same.status.symm.trans status
      refine iff_of_false (fun agrees => ?_) (fun stays => ?_)
      · have opened := agrees.status
        simp [CircuitBreakerInstance.recordFailure,half,CircuitBreakerInstance.tripOpen] at opened
      · have opened := congrArg Dfsm.CircuitBreakerInstance.status stays
        simp [Dfsm.CircuitBreakerInstance.onFailure,status,Dfsm.CircuitBreakerInstance.tripOpen] at opened
    | CLOSED =>
      have agree := failuresAgree numbers same (admitted enabled) now
      rw [if_neg (by decide)]
      constructor
      · intro kept
        have stays : (b.onFailure q now).status = .CLOSED := (agree.status.trans kept.status.symm).trans status
        rw [failureStays status stays,agree.window stays,← kept.window status]
      · intro stays
        rwa [stays] at agree

theorem finishesAgree (numbers : SameNumbers p q) (same : SameBreaker b j) (admitted : q.enabled = true → b.status ≠ .OPEN) (now : Int) :
    SameBreaker (b.finish q .success now) (j.finish p .success now) ∧ SameBreaker (b.finish q .failure now) (j.finish p .failure now) := by
  unfold Dfsm.CircuitBreakerInstance.finish CircuitBreakerInstance.finish
  rw [← numbers.enabled]
  cases enabled : q.enabled with
  | false => exact ⟨same,same⟩
  | true => exact ⟨successesAgree numbers same (admitted enabled),failuresAgree numbers same (admitted enabled) now⟩

theorem finishIdle (probing : q.enabled = true → b.status ≠ .OPEN ∧ Probing 1 b) (idle : q.enabled = false → Probing 0 b) (outcome : Outcome)
    (now : Int) : Probing 0 (b.finish q outcome now) := by
  intro half
  by_cases enabled : q.enabled = true
  · by_cases was : b.status = .HALF_OPEN
    · have one := (probing enabled).2 was
      rw [Dfsm.BreakerUse.finishHalf enabled was] at half ⊢
      cases outcome with
      | success =>
        dsimp only at half ⊢
        split at half
        · cases half
        · rename_i more
          rw [if_neg more]
          dsimp only
          rw [one]
      | failure => cases half
      | validationError =>
        dsimp only
        rw [one]
    · exact absurd half (Dfsm.BreakerUse.finishOutside was)
  · have disabled := Bool.eq_false_of_not_eq_true enabled
    have stays : b.finish q outcome now = b := by simp [Dfsm.CircuitBreakerInstance.finish,disabled]
    rw [stays] at half ⊢
    exact idle disabled half

end

/-! A transition in both SDKs, and the steps of a run, one after the other. -/

section
variable {State Input Data Metadata Output : Type}

/-- The pipelines of one transition. -/
structure Setting (State Input Data Metadata Output : Type) where
  policy : Policy.NormalizedTransitionPolicy Policy.Retrying.Thrown
  fn : Option (Policy.Retrying.TransitionFunction State Input Data Metadata Output)
  contextValidator : Option (Policy.Retrying.SchemaValidator Data)
  cloneable : Data → Bool
  java : DecoratedPipeline State Input Data Metadata Output

/-- A step, as each of the pipelines meets it, with one clock. -/
structure Call (State Input Data Metadata : Type) where
  execCtx : Policy.Retrying.PipelineExecutionContext State Input Data Metadata
  ctx : ExecutionContext State Input Data Metadata
  random : Nat → ℚ
  later : Int
  around : DecoratedPipeline.Surroundings

def sameReport : Policy.Retrying.PipelineExecutionOutcome Data Output → ExecutionOutcome Data Output → Prop
  | .ok _ _ attempts, .success _ _ attempts' => attempts = attempts'.toInt
  | .failed _ compensateRequested fallbackTarget attempts, .failure _ compensateRequested' fallbackTarget' attempts' =>
    attempts = attempts'.toInt ∧ compensateRequested = compensateRequested' ∧ fallbackTarget = fallbackTarget'
  | _, _ => False

namespace Setting
variable (s : Setting State Input Data Metadata Output) (b : Dfsm.CircuitBreakerInstance) (call : Call State Input Data Metadata)

def reference : Policy.Retrying.Pipeline Data where
  policy := s.policy
  breaker := b
  contextValidator := s.contextValidator
  cloneable := s.cloneable
  random := call.random
  now := call.around.started
  later := call.later

def ran : Policy.Retrying.Run State Input Data Metadata Output :=
  Policy.Retrying.FallbackCompensateDecorator.execute (s.reference b call) s.fn call.execCtx

def next : Dfsm.CircuitBreakerInstance := Policy.Retrying.breakerAfter (s.reference b call) s.fn call.execCtx call.around.finished

/-- As many calls, the same report, and the same state of the breaker. -/
structure Agrees (run : DecoratedPipeline.Run State Input Data Metadata Output) : Prop where
  calls : (s.ran b call).requests.length = run.requests.length
  reported : ∃ outcome, (s.ran b call).result = .ok outcome ∧ sameReport outcome run.outcome
  breaker : SameBreaker (s.next b call) run.breaker

/-- Every step of a run ends, and agrees. -/
def AgreeFrom (b : Dfsm.CircuitBreakerInstance) (j : CircuitBreakerInstance) : List (Call State Input Data Metadata) → Prop
  | [] => True
  | call::rest => ∃ turns run, s.java.execute turns j call.around call.ctx = some run ∧ s.Agrees b call run ∧
      AgreeFrom (s.next b call) run.breaker rest

/-- What both SDKs are given: one policy that has been normalized, and a handler in both or in neither. -/
structure Same : Prop where
  normalized : ∃ globalDefaults machineDefaults transitionYamlPolicy decoratorPolicy,
    s.java.policy = Policies.normalize globalDefaults machineDefaults transitionYamlPolicy decoratorPolicy
  policy : SamePolicy s.java.policy s.policy
  handlers : s.fn.isSome = s.java.fn.isSome

/-- How the attempts of a step end, whatever the breaker. -/
def endings (fn : Policy.Retrying.TransitionFunction State Input Data Metadata Output) : Nat → Outcome :=
  Policy.Retrying.endings (s.reference {} call) fn call.execCtx

/-- The handlers end each attempt the same way; what they throw is ordinary. -/
structure SameCall : Prop where
  ordinary : ∀ fn, s.fn = some fn → Policy.Retrying.Ordinary (s.reference {} call) fn call.execCtx
  endings : ∀ fn, s.fn = some fn → ∀ n, 1 ≤ n → s.endings call fn n = Pipeline.endings s.java call.ctx n

def most : Nat := max 1 s.policy.retry.maxAttempts

/-- Where the step is let through, its first end is a success, or the last of fewer than 2^31 - 1 attempts, which
throws or leaves an invalid context that the breaker would not be moved by. -/
def Meets : Prop := ∀ breaker fn last, b.admitCall s.policy.circuitBreaker call.around.started call.later = (breaker,none) →
  s.fn = some fn → Policy.Retrying.FirstEnd (s.endings call fn) s.most last →
  s.endings call fn last = .success ∨
    last = s.most ∧ s.most < 2^31 - 1 ∧ (s.endings call fn last = .failure ∨
      breaker.finish s.policy.circuitBreaker .failure call.around.finished = breaker)

def MeetFrom (b : Dfsm.CircuitBreakerInstance) : List (Call State Input Data Metadata) → Prop
  | [] => True
  | call::rest => s.Meets b call ∧ MeetFrom (s.next b call) rest

end Setting

variable {s : Setting State Input Data Metadata Output} {b : Dfsm.CircuitBreakerInstance} {j : CircuitBreakerInstance}
  {call : Call State Input Data Metadata}

theorem sameNumbers (same : s.Same) : SameNumbers s.java.breakerPolicy s.policy.circuitBreaker := by
  obtain ⟨_,_,_,_,normal⟩ := same.normalized
  have normal : s.java.policy.Normal := normal ▸ Policies.normalizeNormal _ _ _ _
  have policy := same.policy
  have threshold := policy.failureThreshold
  have size := policy.slidingWindowSize
  have calls := policy.halfOpenMaxCalls
  have one := normal.halfOpenMaxCalls
  refine ⟨policy.enabled,?_,?_,policy.openDurationMs,?_,by omega⟩
  · simp only [DecoratedPipeline.breakerPolicy]
    omega
  · simp only [DecoratedPipeline.breakerPolicy]
    omega
  · simp only [DecoratedPipeline.breakerPolicy]
    omega

theorem sameMost (same : s.Same) : s.most = mostAttempts s.java.policy.retry := by
  obtain ⟨_,_,_,_,normal⟩ := same.normalized
  have normal : s.java.policy.Normal := normal ▸ Policies.normalizeNormal _ _ _ _
  have attempts := same.policy.maxAttempts
  have one := normal.attempts
  unfold Setting.most mostAttempts maxAttempts
  rw [toIntMax32]
  have unit : (1 : Int32).toInt = 1 := rfl
  omega

theorem sameTarget (same : s.Same) : (if s.policy.onFail.target = "" then "error" else s.policy.onFail.target) =
    if isBlank s.java.policy.onFail.target then "error" else s.java.policy.onFail.target := by
  obtain ⟨_,_,_,_,normal⟩ := same.normalized
  have normal : s.java.policy.Normal := normal ▸ Policies.normalizeNormal _ _ _ _
  have filled : s.java.policy.onFail.target ≠ "" := by
    intro empty
    have blank := normal.target
    rw [empty] at blank
    exact absurd blank (by decide)
  rw [same.policy.target,if_neg filled,normal.target]
  rfl

theorem executeThrough {turns : Nat} (admits : (j.admitCall s.java.breakerPolicy call.around.started).2 = true) :
    s.java.execute turns j call.around call.ctx = (retry s.java.policy.retry call.around.draws s.java.userFunction turns ⟨call.ctx,[]⟩).map (fun retries =>
      ⟨retries.step.requests,retries.slept,s.java.settled retries.result,
        (j.admitCall s.java.breakerPolicy call.around.started).1.finish s.java.breakerPolicy
          (DecoratedPipeline.callOutcome retries.result) call.around.finished⟩) := by
  rw [DecoratedPipeline.execute]
  cases admission : j.admitCall s.java.breakerPolicy call.around.started with
  | mk breaker lets =>
    rw [admission] at admits
    cases admits
    rfl

theorem oneAttempt : (1 : ℚ) = ((1 : Int32).toInt : ℚ) := by
  have one : (1 : Int32).toInt = 1 := rfl
  rw [one,Int.cast_one]

theorem refusedAgrees (same : s.Same) {breaker : Dfsm.CircuitBreakerInstance} {error : CircuitOpenError}
    (refused : b.admitCall s.policy.circuitBreaker call.around.started call.later = (breaker,some error))
    (refused' : (j.admitCall s.java.breakerPolicy call.around.started).2 = false)
    (agree : SameBreaker breaker (j.admitCall s.java.breakerPolicy call.around.started).1) :
    ∃ turns run, s.java.execute turns j call.around call.ctx = some run ∧ s.Agrees b call run := by
  have runs : s.java.execute 0 j call.around call.ctx = some ⟨[],[],s.java.caught (.CircuitOpenException s.java.key),
      (j.admitCall s.java.breakerPolicy call.around.started).1⟩ := by
    rw [DecoratedPipeline.execute]
    cases admission : j.admitCall s.java.breakerPolicy call.around.started with
    | mk breaker lets =>
      rw [admission] at refused'
      cases refused'
      rfl
  have ran : s.ran b call = ⟨[],[],.ok (.failed (Policy.Retrying.circuitOpenError error) s.policy.onFail.compensate
      (if s.policy.onFail.target = "" then "error" else s.policy.onFail.target) 1)⟩ := by
    simp only [Setting.ran,Policy.Retrying.FallbackCompensateDecorator.execute,Setting.reference,refused]
    rfl
  have next : s.next b call = breaker := by
    simp only [Setting.next,Policy.Retrying.breakerAfter,Setting.reference,refused]
  refine ⟨0,_,runs,by rw [ran]; rfl,⟨_,by rw [ran],?_⟩,?_⟩
  · exact ⟨oneAttempt,same.policy.compensate,sameTarget same⟩
  · rw [next]
    exact agree

theorem nothingAgrees (same : s.Same) {breaker : Dfsm.CircuitBreakerInstance} (nothing : s.fn = none)
    (admits : b.admitCall s.policy.circuitBreaker call.around.started call.later = (breaker,none))
    (admits' : (j.admitCall s.java.breakerPolicy call.around.started).2 = true)
    (agree : SameBreaker breaker (j.admitCall s.java.breakerPolicy call.around.started).1)
    (opened : s.policy.circuitBreaker.enabled = true → breaker.status ≠ .OPEN) :
    ∃ turns run, s.java.execute turns j call.around call.ctx = some run ∧ s.Agrees b call run := by
  have nothing' : s.java.fn = none := by
    have handlers := same.handlers
    rw [nothing] at handlers
    exact Option.isSome_eq_false_iff.mp handlers.symm |> Option.isNone_iff_eq_none.mp
  have one : (1 : Int32) ≤ maxAttempts s.java.policy.retry := (@attemptWithin s.java.policy.retry 1 (by norm_num)).mpr (mostPositive _).2.1
  have loop : retry s.java.policy.retry call.around.draws s.java.userFunction 1 ⟨call.ctx,[]⟩ =
      some ⟨⟨call.ctx,[]⟩,[],.ok (⟨{},call.ctx.contextData,1⟩,1)⟩ := by
    rw [retry,retryLoop,if_pos one]
    simp only [DecoratedPipeline.userFunction,nothing']
  have reference : Policy.Retrying.runWithRetryPolicy s.policy.retry call.random
      (Policy.Retrying.UserFunctionComponent.execute (s.reference b call) s.fn) ⟨call.execCtx,[]⟩ =
      ⟨⟨call.execCtx,[]⟩,[],.ok (⟨{},call.execCtx.contextData,1⟩,1)⟩ := by
    obtain ⟨more,most⟩ : ∃ more, Policy.Retrying.maxAttempts s.policy.retry = more + 1 :=
      ⟨Policy.Retrying.maxAttempts s.policy.retry - 1,by simp only [Policy.Retrying.maxAttempts]; omega⟩
    rw [Policy.Retrying.runWithRetryPolicy,most,Policy.Retrying.retryLoop,nothing]
    rfl
  have ran : s.ran b call = ⟨[],[],.ok (.ok {} call.execCtx.contextData 1)⟩ := by
    simp only [Setting.ran,Policy.Retrying.FallbackCompensateDecorator.execute]
    simp only [Setting.reference] at reference ⊢
    simp only [admits,reference,Policy.Retrying.FallbackCompensateDecorator.settled]
    simp
  have next : s.next b call = breaker.finish s.policy.circuitBreaker .success call.around.finished := by
    simp only [Setting.next,Policy.Retrying.breakerAfter]
    simp only [Setting.reference] at reference ⊢
    simp only [admits,reference,Policy.Retrying.outcomeAs]
  have runs := @executeThrough _ _ _ _ _ s j call 1 admits'
  rw [loop] at runs
  refine ⟨1,_,runs,by rw [ran]; rfl,⟨_,by rw [ran],?_⟩,?_⟩
  · exact oneAttempt
  · rw [next]
    exact (finishesAgree (sameNumbers same) agree opened _).1

section
variable {fn : Policy.Retrying.TransitionFunction State Input Data Metadata Output}
  {fn' : TransitionFunction State Input Data Metadata Output} {breaker : Dfsm.CircuitBreakerInstance}

/-- What both sides are known by once a step has been let through. -/
structure Through (s : Setting State Input Data Metadata Output) (b : Dfsm.CircuitBreakerInstance) (j : CircuitBreakerInstance)
    (call : Call State Input Data Metadata) (fn : Policy.Retrying.TransitionFunction State Input Data Metadata Output)
    (breaker : Dfsm.CircuitBreakerInstance) (last : Nat) : Prop where
  same : s.Same
  called : s.java.fn.isSome = true
  first : Policy.Retrying.FirstEnd (s.endings call fn) s.most last
  endings : ∀ n, 1 ≤ n → s.endings call fn n = endings s.java call.ctx n
  admits : (j.admitCall s.java.breakerPolicy call.around.started).2 = true
  breakers : SameBreaker breaker (j.admitCall s.java.breakerPolicy call.around.started).1
  opened : s.policy.circuitBreaker.enabled = true → breaker.status ≠ .OPEN
  calls : (s.ran b call).requests.length = last
  succeeded : s.endings call fn last = .success → ∃ output nextContext, (s.ran b call).result = .ok (.ok output nextContext last)
  failed : s.endings call fn last ≠ .success → ∃ error, (s.ran b call).result = .ok (.failed error s.policy.onFail.compensate
    (if s.policy.onFail.target = "" then "error" else s.policy.onFail.target) last)
  next : s.next b call = breaker.finish s.policy.circuitBreaker (s.endings call fn last) call.around.finished

variable {last : Nat}

theorem runsThrough (through : Through s b j call fn breaker last) {turns : Nat} {retries : Retries (Attempts State Input Data Metadata) (Executed Data Output)}
    (ends : retry s.java.policy.retry call.around.draws s.java.userFunction turns ⟨call.ctx,[]⟩ = some retries) :
    s.java.execute turns j call.around call.ctx = some ⟨retries.step.requests,retries.slept,s.java.settled retries.result,
      (j.admitCall s.java.breakerPolicy call.around.started).1.finish s.java.breakerPolicy
        (DecoratedPipeline.callOutcome retries.result) call.around.finished⟩ := by
  rw [executeThrough through.admits,ends]
  rfl

theorem failsBefore (through : Through s b j call fn breaker last) {i : Nat} (one : 1 ≤ i) (before : i < last) :
    Fails s.java.userFunction ⟨call.ctx,[]⟩ i := by
  rw [failsEnding,← through.endings i one]
  intro good
  have least := through.first.2 ⟨one,.inl (by rw [good]; decide)⟩
  omega

theorem lastRoom (through : Through s b j call fn breaker last) : 1 ≤ last ∧ last ≤ mostAttempts s.java.policy.retry ∧ s.most = mostAttempts s.java.policy.retry := by
  have most := sameMost through.same
  have one := (mostPositive s.java.policy.retry).2.1
  have least := through.first.2 ⟨(by omega : 1 ≤ s.most),.inr rfl⟩
  exact ⟨through.first.1.1,by omega,most⟩

theorem numberOf {n : Nat} (room : n ≤ mostAttempts s.java.policy.retry) : (n : ℚ) = ((Int32.ofNat n).toInt : ℚ) := by
  have most := (mostPositive s.java.policy.retry).2.2
  rw [Int32.toInt_ofNat_of_lt (by omega),Int.cast_natCast]

theorem successAgrees (through : Through s b j call fn breaker last) (good : s.endings call fn last = .success) :
    ∃ turns run, s.java.execute turns j call.around call.ctx = some run ∧ s.Agrees b call run := by
  obtain ⟨one,room,_⟩ := lastRoom through
  obtain ⟨fn',has⟩ := Option.isSome_iff_exists.mp through.called
  obtain ⟨value,ok⟩ : ∃ value, resultOf s.java.userFunction ⟨call.ctx,[]⟩ last = .ok value := by
    cases result : resultOf s.java.userFunction ⟨call.ctx,[]⟩ last with
    | ok value => exact ⟨value,rfl⟩
    | error err =>
      have fails : Fails s.java.userFunction ⟨call.ctx,[]⟩ last := ⟨err,result⟩
      rw [failsEnding,← through.endings last one] at fails
      exact absurd good fails
  obtain ⟨turns,slept,ends⟩ := @loopSucceeds _ _ s.java.policy.retry call.around.draws s.java.userFunction ⟨call.ctx,[]⟩ 0 last [] none value
    one room (fun i above before => failsBefore through above before) ok
  obtain ⟨output,nextContext,result⟩ := through.succeeded good
  refine ⟨turns,_,runsThrough through ends,?_,⟨_,result,?_⟩,?_⟩
  · rw [through.calls]
    exact (calledEach has last).symm
  · exact numberOf room
  · rw [through.next,good]
    exact (finishesAgree (sameNumbers through.same) through.breakers through.opened _).1

/-- A step that fails in both at the last of its attempts agrees, save for what the breakers make of an invalid context. -/
theorem failureAgrees (through : Through s b j call fn breaker last) (bad : s.endings call fn last ≠ .success) (atLast : last = s.most)
    (fits : s.most < 2^31 - 1) : (∃ turns run, s.java.execute turns j call.around call.ctx = some run ∧ s.Agrees b call run) ↔
      s.endings call fn last = .failure ∨ breaker.finish s.policy.circuitBreaker .failure call.around.finished = breaker := by
  obtain ⟨one,room,most⟩ := lastRoom through
  obtain ⟨fn',has⟩ := Option.isSome_iff_exists.mp through.called
  have fails : ∀ i, 0 < i → i ≤ mostAttempts s.java.policy.retry → Fails s.java.userFunction ⟨call.ctx,[]⟩ i := by
    intro i above below
    rcases Nat.lt_or_eq_of_le below with before | same
    · exact failsBefore through above (by omega)
    · rw [failsEnding,← through.endings i above]
      have here : i = last := by omega
      rw [here]
      exact bad
  obtain ⟨turns,slept,cause,ends⟩ := @loopExhausts _ _ s.java.policy.retry call.around.draws s.java.userFunction ⟨call.ctx,[]⟩ 0 [] none
    (by omega) (by omega) fails (.inr (by omega))
  have runs := runsThrough through ends
  obtain ⟨error,result⟩ := through.failed bad
  have attempts : (last : ℚ) = ((maxAttempts s.java.policy.retry).toInt : ℚ) := by
    rw [atLast,most,← (mostPositive s.java.policy.retry).1,Int.cast_natCast]
  have numbers := sameNumbers through.same
  have breakers := finishesAgree numbers through.breakers through.opened call.around.finished
  have invalid := uncountedAgrees numbers through.breakers through.opened call.around.finished
  have judged : SameBreaker (s.next b call) ((j.admitCall s.java.breakerPolicy call.around.started).1.finish s.java.breakerPolicy
      .failure call.around.finished) ↔ s.endings call fn last = .failure ∨
        breaker.finish s.policy.circuitBreaker .failure call.around.finished = breaker := by
    rw [through.next]
    cases ending : s.endings call fn last with
    | success => exact absurd ending bad
    | failure => exact iff_of_true breakers.2 (.inl rfl)
    | validationError => simpa using invalid
  constructor
  · rintro ⟨turns',run,runs',agrees⟩
    obtain ⟨retries,ends',rfl⟩ := Option.map_eq_some_iff.mp ((executeThrough through.admits).symm.trans runs')
    cases loopOnce ends ends'
    exact judged.mp agrees.breaker
  · intro meets
    refine ⟨turns,_,runs,?_,⟨_,result,?_⟩,judged.mpr meets⟩
    · rw [through.calls,atLast,most]
      exact (calledEach has _).symm
    · exact ⟨attempts,through.same.policy.compensate,sameTarget through.same⟩

/-- Where the reference ends with attempts to spare, or with the last `int`, no end of the other has as many calls. -/
theorem laterDiffers (through : Through s b j call fn breaker last) (bad : s.endings call fn last ≠ .success)
    (more : last ≠ s.most ∨ ¬s.most < 2^31 - 1) : ¬∃ turns run, s.java.execute turns j call.around call.ctx = some run ∧ s.Agrees b call run := by
  obtain ⟨one,room,most⟩ := lastRoom through
  obtain ⟨fn',has⟩ := Option.isSome_iff_exists.mp through.called
  have bound := mostPositive s.java.policy.retry
  have fails : ∀ i, 0 < i → i ≤ last → Fails s.java.userFunction ⟨call.ctx,[]⟩ i := by
    intro i above below
    rcases Nat.lt_or_eq_of_le below with before | rfl
    · exact failsBefore through above before
    · rw [failsEnding,← through.endings i above]
      exact bad
  have within : (.ofNat (last+1) : Int32) ≤ maxAttempts s.java.policy.retry := by
    by_cases below : last < mostAttempts s.java.policy.retry
    · exact (attemptWithin (by omega)).mpr below
    · have largest : last + 1 = 2^31 := by omega
      rw [largest,Int32.le_iff_toInt_le,← bound.1]
      have least : (Int32.ofNat (2^31)).toInt = -2^31 := rfl
      omega
  rintro ⟨turns,run,runs,agrees⟩
  obtain ⟨retries,ends,rfl⟩ := Option.map_eq_some_iff.mp ((executeThrough through.admits).symm.trans runs)
  obtain ⟨k,later,step⟩ := loopPast (Nat.zero_le last) room fails within ends
  have calls := agrees.calls
  rw [through.calls] at calls
  have counted := congrArg (fun step => step.requests.length) step
  rw [calledEach has k] at counted
  dsimp only at calls counted
  omega

end

theorem stepAgrees (same : s.Same) (each : s.SameCall call) (breakers : SameBreaker b j) (idle : Probing 0 b) :
    (∃ turns run, s.java.execute turns j call.around call.ctx = some run ∧ s.Agrees b call run) ↔ s.Meets b call := by
  rcases admissionsAgree (sameNumbers same) breakers idle call.around.started call.later with
    ⟨breaker,error,refused,refused',agree,_⟩ | ⟨breaker,admits,admits',agree,probing,_⟩
  · refine iff_of_true (refusedAgrees same refused refused' agree) (fun other fn last admits => ?_)
    rw [refused] at admits
    cases admits
  · cases has : s.fn with
    | none =>
      refine iff_of_true (nothingAgrees same has admits admits' agree (fun enabled => (probing enabled).1)) (fun other fn last _ some_ => ?_)
      rw [has] at some_
      cases some_
    | some fn =>
      have always : (s.reference b call).policy.retry.retryIf = none := same.policy.retryIf
      have plain : Policy.Retrying.Ordinary (s.reference b call) fn call.execCtx := each.ordinary fn has
      obtain ⟨last,told,counts⟩ := Policy.Retrying.ordinaryTold plain always admits
      have ran : s.ran b call = Policy.Retrying.FallbackCompensateDecorator.execute (s.reference b call) (some fn) call.execCtx := by
        rw [Setting.ran,has]
      have next : s.next b call = Policy.Retrying.breakerAfter (s.reference b call) (some fn) call.execCtx call.around.finished := by
        rw [Setting.next,has]
      have through : Through s b j call fn breaker last := {
        same
        called := by rw [← same.handlers,has]; rfl
        first := told.first
        endings := each.endings fn has
        admits := admits'
        breakers := agree
        opened := fun enabled => (probing enabled).1
        calls := by rw [ran]; exact told.calls
        succeeded := by rw [ran]; exact told.succeeded
        failed := by rw [ran]; exact told.failed
        next := by rw [next]; exact counts _ }
      have meets : s.Meets b call ↔ s.endings call fn last = .success ∨ last = s.most ∧ s.most < 2^31 - 1 ∧
          (s.endings call fn last = .failure ∨ breaker.finish s.policy.circuitBreaker .failure call.around.finished = breaker) := by
        constructor
        · exact fun meets => meets breaker fn last admits has told.first
        · intro here other fn' last' admits' has' first
          cases (Prod.mk.inj (admits.symm.trans admits')).1
          cases Option.some.inj (has.symm.trans has')
          cases first.unique through.first
          exact here
      rw [meets]
      by_cases good : s.endings call fn last = .success
      · exact iff_of_true (successAgrees through good) (.inl good)
      · by_cases ends : last = s.most ∧ s.most < 2^31 - 1
        · rw [failureAgrees through good ends.1 ends.2]
          constructor
          · exact fun fine => .inr ⟨ends.1,ends.2,fine⟩
          · rintro (fine | ⟨_,_,fine⟩)
            · exact absurd fine good
            · exact fine
        · refine iff_of_false (laterDiffers through good (not_and_or.mp ends)) ?_
          rintro (fine | ⟨atLast,fits,_⟩)
          · exact good fine
          · exact ends ⟨atLast,fits⟩

theorem nextIdle (same : s.Same) (breakers : SameBreaker b j) (idle : Probing 0 b) : Probing 0 (s.next b call) := by
  rcases admissionsAgree (sameNumbers same) breakers idle call.around.started call.later with
    ⟨breaker,error,refused,_,_,still⟩ | ⟨breaker,admits,_,_,probing,disabled⟩
  · have next : s.next b call = breaker := by
      simp only [Setting.next,Policy.Retrying.breakerAfter,Setting.reference,refused]
    rw [next]
    exact still
  · have next : ∃ outcome, s.next b call = breaker.finish s.policy.circuitBreaker outcome call.around.finished := by
      simp only [Setting.next,Policy.Retrying.breakerAfter,Setting.reference,admits]
      exact ⟨_,rfl⟩
    obtain ⟨outcome,next⟩ := next
    rw [next]
    exact finishIdle probing (fun off => disabled off ▸ idle) outcome _

theorem runAgrees (same : s.Same) (calls : List (Call State Input Data Metadata)) (each : ∀ call ∈ calls, s.SameCall call)
    (breakers : SameBreaker b j) (idle : Probing 0 b) : s.AgreeFrom b j calls ↔ s.MeetFrom b calls := by
  induction calls generalizing b j with
  | nil => exact Iff.rfl
  | cons call rest ih =>
    have step := @stepAgrees _ _ _ _ _ s b j call same (each call List.mem_cons_self) breakers idle
    have later {run : DecoratedPipeline.Run State Input Data Metadata Output} (agrees : s.Agrees b call run) :=
      @ih (s.next b call) run.breaker (fun call mem => each call (List.mem_cons_of_mem _ mem)) agrees.breaker (nextIdle same breakers idle)
    constructor
    · rintro ⟨turns,run,runs,agrees,more⟩
      exact ⟨step.mp ⟨turns,run,runs,agrees⟩,(later agrees).mp more⟩
    · rintro ⟨meets,more⟩
      obtain ⟨turns,run,runs,agrees⟩ := step.mpr meets
      exact ⟨turns,run,runs,agrees,(later agrees).mpr more⟩

/-- The pipelines agree in every step of a run just where every step meets the condition. -/
theorem pipelinesAgree (s : Setting State Input Data Metadata Output) (calls : List (Call State Input Data Metadata)) (same : s.Same)
    (each : ∀ call ∈ calls, s.SameCall call) : s.AgreeFrom {} {} calls ↔ s.MeetFrom {} calls :=
  runAgrees same calls each ⟨rfl,fun _ => rfl,fun _ => rfl,fun _ => rfl⟩ (fun _ => rfl)

end

/-! A handler that returns a context its validator does not take, with an attempt to spare. -/

def negative : Policy.Retrying.TransitionFunction Unit Unit Unit Unit Unit := fun _ =>
  { result := .ok none, left := (), data := (), metadata := () }

def refunding : Setting Unit Unit Unit Unit Unit where
  policy :=
    let policy : Policy.NormalizedTransitionPolicy Policy.Retrying.Thrown := Policy.SDK_DEFAULT_POLICY "refund"
    { policy with retry := { policy.retry with maxAttempts := 2 } }
  fn := some negative
  contextValidator := some (fun _ => .error [⟨some "amount","must be positive"⟩])
  cloneable _ := true
  java := {
    fn := some (fun _ => { result := .ok none, left := (), metadata := () })
    policy := Policies.normalize (some { retry := some { maxAttempts := some 2 } }) none none none
    key := "refund"
    contextValidator := some (fun target _ => .error (.ValidationException target ["amount must be positive"]))
    copy := some }

def refund : Call Unit Unit Unit Unit where
  execCtx := Policy.Retrying.paying
  ctx := { transactionId := "t", machineId := "payment", actorId := "a", event := "REFUND", transitionHandlerName := some "refund"
           currentState := (), input := (), contextData := (), startedAt := 0, metadata := () }
  random _ := 0
  later := 0
  around := { started := 0, finished := 0, draws := fun _ => ⟨0,by norm_num⟩ }

theorem refundingSame : refunding.Same := by
  refine ⟨⟨_,_,_,_,rfl⟩,?_,rfl⟩
  constructor <;> rfl

theorem refundSame : refunding.SameCall refund := by
  constructor
  · intro fn has n err fails
    cases has
    cases fails
  · intro fn has n one
    cases has
    obtain ⟨m,rfl⟩ : ∃ m, n = m + 1 := ⟨n-1,by omega⟩
    rfl

theorem pipelinesAgreeRefund : refunding.AgreeFrom {} {} [refund] ↔ refunding.MeetFrom {} [refund] :=
  pipelinesAgree refunding [refund] refundingSame (fun call mem => List.mem_singleton.mp mem ▸ refundSame)

/-- The reference calls it once; here it is called once more. -/
theorem pipelinesAgreeInvalid : ¬∀ (s : Setting Unit Unit Unit Unit Unit) calls, s.Same → (∀ call ∈ calls, s.SameCall call) →
    s.AgreeFrom {} {} calls := by
  intro claim
  have each : ∀ call ∈ [refund], refunding.SameCall call := fun call mem => List.mem_singleton.mp mem ▸ refundSame
  have agree : refunding.AgreeFrom {} {} [refund] ↔ refunding.MeetFrom {} [refund] :=
    runAgrees refundingSame [refund] each ⟨rfl,fun _ => rfl,fun _ => rfl,fun _ => rfl⟩ (fun _ => rfl)
  have meets := (agree.mp (claim refunding [refund] refundingSame each)).1
  have first : Policy.Retrying.FirstEnd (refunding.endings refund negative) refunding.most 1 := ⟨⟨Nat.le_refl 1,.inl (by decide)⟩,fun i mem => mem.1⟩
  rcases meets {} negative 1 rfl rfl first with good | ⟨last,_⟩
  · cases good
  · cases last

end Dfsm.Java.Pipeline
