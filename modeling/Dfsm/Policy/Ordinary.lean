import Dfsm.Policy.Retrying

/-! How a step ends whose handler throws ordinary errors, and what the breaker makes of it. -/
namespace Dfsm.Policy.Retrying

section
variable {State Input Data Metadata Output : Type}

/-- What the breaker takes the end of a call for. -/
def outcomeAs {α : Type} : Except Thrown α → Outcome
  | .ok _ => .success
  | .error (.error err) => if err.instanceOf = .ValidationError then .validationError else .failure
  | .error _ => .failure

/-- The breaker after a step. -/
def breakerAfter (pipeline : Pipeline Data) (fn : Option (TransitionFunction State Input Data Metadata Output))
    (execCtx : PipelineExecutionContext State Input Data Metadata) (finished : Int) : CircuitBreakerInstance :=
  match CircuitBreakerInstance.admitCall pipeline.policy.circuitBreaker pipeline.breaker pipeline.now pipeline.later with
  | (breaker,some _) => breaker
  | (breaker,none) =>
    let retries := runWithRetryPolicy pipeline.policy.retry pipeline.random (UserFunctionComponent.execute pipeline fn) ⟨execCtx,[]⟩
    CircuitBreakerInstance.finish pipeline.policy.circuitBreaker breaker (outcomeAs retries.result) finished

/-- The first attempt that is no failure, or the last one. -/
def FirstEnd (endings : Nat → Outcome) (most last : Nat) : Prop := IsLeast {i | 1 ≤ i ∧ (endings i ≠ .failure ∨ i = most)} last

section
variable (pipeline : Pipeline Data) (fn : TransitionFunction State Input Data Metadata Output)
  (execCtx : PipelineExecutionContext State Input Data Metadata)

/-- How each attempt ends. -/
def endings (n : Nat) : Outcome := outcomeAs (resultOf (UserFunctionComponent.execute pipeline (some fn)) ⟨execCtx,[]⟩ n)

/-- What the handler throws is an `Error` that takes the property. -/
def Ordinary : Prop := ∀ n err, outcomeOf pipeline fn execCtx n = .error err → ∃ message, err = .error ⟨.Error,ordinary,message⟩

end

variable {pipeline : Pipeline Data} {fn : TransitionFunction State Input Data Metadata Output}
  {execCtx : PipelineExecutionContext State Input Data Metadata}

theorem attemptCases (plain : Ordinary pipeline fn execCtx) (n : Nat) :
    (∃ executed, resultOf (UserFunctionComponent.execute pipeline (some fn)) ⟨execCtx,[]⟩ (n+1) = .ok executed ∧
      endings pipeline fn execCtx (n+1) = .success) ∨
    ∃ error : ErrorObject, resultOf (UserFunctionComponent.execute pipeline (some fn)) ⟨execCtx,[]⟩ (n+1) = .error (.error error) ∧
      error.marked = ordinary ∧ (error.instanceOf = .Error ∧ endings pipeline fn execCtx (n+1) = .failure ∨
        error.instanceOf = .ValidationError ∧ endings pipeline fn execCtx (n+1) = .validationError) := by
  unfold endings
  rcases @resultCases _ _ _ _ _ pipeline fn execCtx n with ⟨err,outcome,result⟩ | ⟨_,⟨executed,result⟩ | ⟨issues,result⟩⟩
  · obtain ⟨message,rfl⟩ := plain (n+1) err outcome
    refine .inr ⟨_,result,rfl,.inl ⟨rfl,?_⟩⟩
    rw [result]
    rfl
  · refine .inl ⟨executed,result,?_⟩
    rw [result]
    rfl
  · refine .inr ⟨_,result,rfl,.inr ⟨rfl,?_⟩⟩
    rw [result]
    rfl

theorem endsOrdinary (plain : Ordinary pipeline fn execCtx) (always : pipeline.policy.retry.retryIf = none) (n : Nat) :
    Ends pipeline.policy.retry (UserFunctionComponent.execute pipeline (some fn)) ⟨execCtx,[]⟩ (n+1) ↔
      endings pipeline fn execCtx (n+1) ≠ .failure := by
  unfold Ends
  rcases attemptCases plain n with ⟨executed,result,ending⟩ | ⟨error,result,_,⟨kind,ending⟩ | ⟨kind,ending⟩⟩
  · rw [result,ending]
    simp
  · rw [result,ending]
    obtain ⟨instanceOf,marked,message⟩ := error
    cases kind
    simp [retryable,isRetryableByDefault,always]
  · rw [result,ending]
    obtain ⟨instanceOf,marked,message⟩ := error
    cases kind
    simp [retryable,isRetryableByDefault]

/-- What a step reports that was let through. -/
structure Told (pipeline : Pipeline Data) (fn : TransitionFunction State Input Data Metadata Output)
    (execCtx : PipelineExecutionContext State Input Data Metadata) (last : Nat) : Prop where
  first : FirstEnd (endings pipeline fn execCtx) (max 1 pipeline.policy.retry.maxAttempts) last
  calls : (FallbackCompensateDecorator.execute pipeline (some fn) execCtx).requests.length = last
  succeeded : endings pipeline fn execCtx last = .success → ∃ output nextContext,
    (FallbackCompensateDecorator.execute pipeline (some fn) execCtx).result = .ok (.ok output nextContext last)
  failed : endings pipeline fn execCtx last ≠ .success → ∃ error,
    (FallbackCompensateDecorator.execute pipeline (some fn) execCtx).result = .ok (.failed error pipeline.policy.onFail.compensate
      (if pipeline.policy.onFail.target = "" then "error" else pipeline.policy.onFail.target) last)

theorem ordinaryTold (plain : Ordinary pipeline fn execCtx) (always : pipeline.policy.retry.retryIf = none)
    {breaker : CircuitBreakerInstance} (admits : CircuitBreakerInstance.admitCall pipeline.policy.circuitBreaker pipeline.breaker
      pipeline.now pipeline.later = (breaker,none)) :
    ∃ last, Told pipeline fn execCtx last ∧ ∀ finished, breakerAfter pipeline (some fn) execCtx finished =
      CircuitBreakerInstance.finish pipeline.policy.circuitBreaker breaker (endings pipeline fn execCtx last) finished := by
  obtain ⟨last,least,step,result,_⟩ := @runStops _ _ pipeline.policy.retry pipeline.random
    (UserFunctionComponent.execute pipeline (some fn)) ⟨execCtx,[]⟩
  obtain ⟨n,rfl⟩ : ∃ n, last = n + 1 := ⟨last - 1,by have := least.1.1; omega⟩
  have same : stops pipeline.policy.retry (UserFunctionComponent.execute pipeline (some fn)) ⟨execCtx,[]⟩ =
      {i | 1 ≤ i ∧ (endings pipeline fn execCtx i ≠ .failure ∨ i = max 1 pipeline.policy.retry.maxAttempts)} := by
    ext i
    cases i with
    | zero => simp [stops]
    | succ i => simp only [stops,Set.mem_ofPred_eq,endsOrdinary plain always,maxAttempts]
  rw [same] at least
  have runs : FallbackCompensateDecorator.execute pipeline (some fn) execCtx =
      ⟨(attempted (UserFunctionComponent.execute pipeline (some fn)) ⟨execCtx,[]⟩ (n+1)).requests,
        (runWithRetryPolicy pipeline.policy.retry pipeline.random (UserFunctionComponent.execute pipeline (some fn)) ⟨execCtx,[]⟩).slept,
        FallbackCompensateDecorator.settled pipeline.policy.onFail (left (UserFunctionComponent.execute pipeline (some fn)) ⟨execCtx,[]⟩ (n+1))⟩ := by
    simp only [FallbackCompensateDecorator.execute,admits,step,result]
  have counts (finished : Int) : breakerAfter pipeline (some fn) execCtx finished = CircuitBreakerInstance.finish
      pipeline.policy.circuitBreaker breaker (outcomeAs (left (UserFunctionComponent.execute pipeline (some fn)) ⟨execCtx,[]⟩ (n+1))) finished := by
    simp only [breakerAfter,admits,result]
  have calls : (FallbackCompensateDecorator.execute pipeline (some fn) execCtx).requests.length = n + 1 := by
    rw [runs]
    exact calledEach (n+1)
  refine ⟨n+1,⟨least,calls,fun good => ?_,fun bad => ?_⟩,fun finished => ?_⟩
  · rw [runs]
    rcases attemptCases plain n with ⟨executed,here,_⟩ | ⟨error,here,_,⟨_,ending⟩ | ⟨_,ending⟩⟩
    · simp only [left,here,FallbackCompensateDecorator.settled]
      exact ⟨_,_,rfl⟩
    · rw [ending] at good
      cases good
    · rw [ending] at good
      cases good
  · rw [runs]
    rcases attemptCases plain n with ⟨executed,here,ending⟩ | ⟨error,here,marked,_⟩
    · exact absurd ending bad
    · refine ⟨{ error with marked := { ordinary with attempts := some ((n+1 : Nat) : ℚ) } },?_⟩
      simp only [left,here,FallbackCompensateDecorator.settled,assignAttempts,marked,ordinary]
      rfl
  · rw [counts]
    rcases attemptCases plain n with ⟨executed,here,ending⟩ | ⟨error,here,marked,⟨kind,ending⟩ | ⟨kind,ending⟩⟩
    · rw [ending]
      simp only [left,here]
      rfl
    · rw [ending]
      simp only [left,here,assignAttempts,marked,ordinary]
      simp [outcomeAs,kind]
    · rw [ending]
      simp only [left,here,assignAttempts,marked,ordinary]
      simp [outcomeAs,kind]

end

end Dfsm.Policy.Retrying
