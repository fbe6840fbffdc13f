import Dfsm.Java.Delays

/-! One step through the pipeline of the Java SDK: the handler with a copy of the context, the
loop of its attempts, the breaker around the loop, and the fallback around the breaker. -/
namespace Dfsm.Java.Pipeline
open Policies

/-- What is thrown; a checked exception is rethrown as a `RuntimeException`. -/
inductive Thrown where
  | ValidationException (target : String) (violations : List String)
  | CircuitOpenException (transitionKey : String)
  | ExhaustedRetryException (cause : Thrown) (attempts : Int32)
  | NullPointerException
  | RuntimeException (message : Option String)
  | checked (message : Option String)
  | error (message : Option String)

def Thrown.rethrown : Thrown → Thrown
  | .checked message => .RuntimeException message
  | err => err

/-! `RetryExecutor` -/

section Loop
variable {Step Result : Type}

/-- The end of `execute`: what the attempts did, the delays slept, and the result with its attempts. -/
structure Retries (Step Result : Type) where
  step : Step
  slept : List Int64
  result : Except Thrown (Result × Int32)

variable (policy : RetryPolicy) (draws : Nat → {draw : ℚ // 0 ≤ draw ∧ draw < 1}) (operation : Int32 → Step → Step × Except Thrown Result)

def maxAttempts : Int32 := max 1 policy.maxAttempts

def exhausted : Option Thrown → Thrown
  | none => .NullPointerException
  | some cause => .ExhaustedRetryException cause (maxAttempts policy)

/-- The delays after an attempt that failed. -/
def sleptAfter (attempt : Int32) (slept : List Int64) : List Int64 :=
  if attempt < maxAttempts policy then slept ++ [computeDelayMs policy.backoff attempt (draws slept.length)] else slept

/-- The loop for so many turns at most; `attempt++` goes on below zero after the last `int`. -/
def retryLoop : Nat → Int32 → Step → List Int64 → Option Thrown → Option (Retries Step Result)
  | 0, _, _, _, _ => none
  | turns+1, attempt, step, slept, lastError =>
    if attempt ≤ maxAttempts policy then
      match operation attempt step with
      | (step,.ok value) => some ⟨step,slept,.ok (value,attempt)⟩
      | (step,.error err) => retryLoop turns (attempt+1) step (sleptAfter policy draws attempt slept) (some err)
    else some ⟨step,slept,.error (exhausted policy lastError)⟩

def retry (turns : Nat) (step : Step) : Option (Retries Step Result) := retryLoop policy draws operation turns 1 step [] none

/-- The step after so many attempts, were there no end to them. -/
def attempted (step : Step) : Nat → Step
  | 0 => step
  | n+1 => (operation (.ofNat (n+1)) (attempted step n)).1

def resultOf (step : Step) (n : Nat) : Except Thrown Result := (operation (.ofNat n) (attempted operation step (n-1))).2

def Fails (step : Step) (n : Nat) : Prop := ∃ err, resultOf operation step n = .error err

end Loop

/-! `DecoratedPipeline` -/

section
variable {State Input Data Metadata Output : Type}

structure ExecutionContext (State Input Data Metadata : Type) where
  transactionId : String
  machineId : String
  actorId : String
  event : String
  transitionHandlerName : Option String
  currentState : State
  input : Input
  contextData : Data
  startedAt : Int
  metadata : Metadata

structure TransactionContext (Data Metadata : Type) where
  transactionId : String
  machineId : String
  actorId : String
  event : String
  attempt : Int32
  startedAt : Int
  data : Data
  metadata : Metadata

structure TransitionRequest (State Input Data Metadata : Type) where
  currentState : State
  input : Input
  context : TransactionContext Data Metadata

structure TransitionOutput (Data Output : Type) where
  context : Option Data := none
  /-- `value`, `effects` and `targetState`, handed on as they are. -/
  carried : Option Output := none

/-- A call of the handler: how it ended, and what it left in its data and in the metadata. -/
structure Handled (Data Metadata Output : Type) where
  result : Except Thrown (Option (TransitionOutput Data Output))
  left : Data
  metadata : Metadata

abbrev TransitionFunction (State Input Data Metadata Output : Type) :=
  TransitionRequest State Input Data Metadata → Handled Data Metadata Output

abbrev SchemaValidator (Data : Type) := String → Data → Except Thrown Data

def enforce (targetName : String) (value : Data) : Option (SchemaValidator Data) → Except Thrown Data
  | none => .ok value
  | some validator => validator targetName value

inductive ExecutionOutcome (Data Output : Type) where
  | success (output : TransitionOutput Data Output) (nextContext : Data) (attempts : Int32)
  | failure (error : Thrown) (compensateRequested : Bool) (fallbackTarget : String) (attempts : Int32)

structure Executed (Data Output : Type) where
  output : TransitionOutput Data Output
  nextContext : Data
  attempts : Int32

/-- What the attempts of a step share, and the requests the handler was called with. -/
structure Attempts (State Input Data Metadata : Type) where
  ctx : ExecutionContext State Input Data Metadata
  requests : List (TransitionRequest State Input Data Metadata) := []

/-- The parameters of the constructor, with the copy that `JsonCodec` makes of a context, where it makes one. -/
structure DecoratedPipeline (State Input Data Metadata Output : Type) where
  fn : Option (TransitionFunction State Input Data Metadata Output)
  policy : NormalizedTransitionPolicy
  key : String
  contextValidator : Option (SchemaValidator Data)
  copy : Data → Option Data

namespace DecoratedPipeline
variable (p : DecoratedPipeline State Input Data Metadata Output)

def requestOf (ctx : ExecutionContext State Input Data Metadata) (attempt : Int32) : TransitionRequest State Input Data Metadata where
  currentState := ctx.currentState
  input := ctx.input
  context := {
    transactionId := ctx.transactionId
    machineId := ctx.machineId
    actorId := ctx.actorId
    event := ctx.event
    attempt
    startedAt := ctx.startedAt
    data := (p.copy ctx.contextData).getD ctx.contextData
    metadata := ctx.metadata }

/-- `UserFunctionComponent`; where there is no copy the handler writes to the context itself. -/
def userFunction (attempt : Int32) (shared : Attempts State Input Data Metadata) :
    Attempts State Input Data Metadata × Except Thrown (Executed Data Output) :=
  match p.fn with
  | none => (shared,.ok ⟨{},shared.ctx.contextData,attempt⟩)
  | some fn =>
    let request := p.requestOf shared.ctx attempt
    let handled := fn request
    let contextData := if (p.copy shared.ctx.contextData).isSome then shared.ctx.contextData else handled.left
    let executed : Except Thrown (Executed Data Output) := do
      let output := (← handled.result).getD {}
      let validated ← enforce "context" (output.context.getD handled.left) p.contextValidator
      return ⟨output,validated,attempt⟩
    (⟨{ shared.ctx with contextData, metadata := handled.metadata },shared.requests ++ [request]⟩,executed.mapError Thrown.rethrown)

/-- The breaker reads the numbers of a normalized policy, none of which is negative. -/
def breakerPolicy : Java.CircuitBreakerPolicy where
  enabled := p.policy.circuitBreaker.enabled
  failureThreshold := p.policy.circuitBreaker.failureThreshold.toInt.toNat
  slidingWindowSize := p.policy.circuitBreaker.slidingWindowSize.toInt.toNat
  openDurationMs := p.policy.circuitBreaker.openDurationMs.toInt
  halfOpenMaxCalls := p.policy.circuitBreaker.halfOpenMaxCalls.toInt.toNat

/-- `FallbackCompensateDecorator` -/
def caught (err : Thrown) : ExecutionOutcome Data Output :=
  let target := if isBlank p.policy.onFail.target then "error" else p.policy.onFail.target
  match err with
  | .ExhaustedRetryException root attempts => .failure root p.policy.onFail.compensate target attempts
  | err => .failure err p.policy.onFail.compensate target 1

def settled : Except Thrown (Executed Data Output × Int32) → ExecutionOutcome Data Output
  | .ok (res,attempts) => .success res.output res.nextContext attempts
  | .error err => p.caught err

/-- What the breaker catches. -/
def callOutcome : Except Thrown (Executed Data Output × Int32) → CallOutcome
  | .ok _ => .success
  | .error (.checked _) => .error
  | .error (.error _) => .error
  | .error _ => .failure

/-- The clock, when the breaker looks at it before the call and when it trips, and the random numbers. -/
structure Surroundings where
  started : Int
  finished : Int
  draws : Nat → {draw : ℚ // 0 ≤ draw ∧ draw < 1}

structure Run (State Input Data Metadata Output : Type) where
  requests : List (TransitionRequest State Input Data Metadata)
  slept : List Int64
  outcome : ExecutionOutcome Data Output
  breaker : CircuitBreakerInstance

/-- A step, for so many turns of the retry loop at most. -/
def execute (turns : Nat) (breaker : CircuitBreakerInstance) (around : Surroundings) (ctx : ExecutionContext State Input Data Metadata) :
    Option (Run State Input Data Metadata Output) :=
  match CircuitBreakerInstance.admitCall p.breakerPolicy breaker around.started with
  | (breaker,false) => some ⟨[],[],p.caught (.CircuitOpenException p.key),breaker⟩
  | (breaker,true) =>
    (retry p.policy.retry around.draws p.userFunction turns ⟨ctx,[]⟩).map (fun retries =>
      ⟨retries.step.requests,retries.slept,p.settled retries.result,
        CircuitBreakerInstance.finish p.breakerPolicy breaker (callOutcome retries.result) around.finished⟩)

end DecoratedPipeline

end

/-! How the loop ends. -/

section
variable {Step Result : Type} {policy : RetryPolicy} {draws : Nat → {draw : ℚ // 0 ≤ draw ∧ draw < 1}}
  {operation : Int32 → Step → Step × Except Thrown Result} {step : Step} {turns n last most : Nat} {slept : List Int64} {lastError : Option Thrown}

theorem attemptNext (n : Nat) : (.ofNat n + 1 : Int32) = .ofNat (n+1) := Int32.toBitVec.inj (by simp)

/-- The last attempt, as a number. -/
def mostAttempts (policy : RetryPolicy) : Nat := (maxAttempts policy).toInt.toNat

theorem mostPositive (policy : RetryPolicy) : ((mostAttempts policy : Nat) : Int) = (maxAttempts policy).toInt ∧ 1 ≤ mostAttempts policy ∧
    mostAttempts policy < 2^31 := by
  have above := Int32.toInt_lt (maxAttempts policy)
  have one : 1 ≤ (maxAttempts policy).toInt := by
    unfold maxAttempts
    rw [toIntMax32]
    exact le_max_left _ _
  unfold mostAttempts
  omega

theorem attemptWithin (below : n < 2^31) : (.ofNat n : Int32) ≤ maxAttempts policy ↔ n ≤ mostAttempts policy := by
  have most := (mostPositive policy).1
  rw [Int32.le_iff_toInt_le,Int32.toInt_ofNat_of_lt below,← most]
  omega

theorem resultNext : resultOf operation step (n+1) = (operation (.ofNat (n+1)) (attempted operation step n)).2 := rfl

theorem turnFails {err : Thrown} (within : (.ofNat (n+1) : Int32) ≤ maxAttempts policy) (fails : resultOf operation step (n+1) = .error err) :
    retryLoop policy draws operation (turns+1) (.ofNat (n+1)) (attempted operation step n) slept lastError =
      retryLoop policy draws operation turns (.ofNat (n+2)) (attempted operation step (n+1)) (sleptAfter policy draws (.ofNat (n+1)) slept)
        (some err) := by
  rw [retryLoop,if_pos within,← attemptNext (n+1)]
  rw [resultNext] at fails
  rw [show attempted operation step (n+1) = (operation (.ofNat (n+1)) (attempted operation step n)).1 from rfl]
  cases run : operation (.ofNat (n+1)) (attempted operation step n) with
  | mk next result =>
    rw [run] at fails
    change result = _ at fails
    rw [fails]

theorem turnSucceeds {value : Result} (within : (.ofNat (n+1) : Int32) ≤ maxAttempts policy)
    (ok : resultOf operation step (n+1) = .ok value) :
    retryLoop policy draws operation (turns+1) (.ofNat (n+1)) (attempted operation step n) slept lastError =
      some ⟨attempted operation step (n+1),slept,.ok (value,.ofNat (n+1))⟩ := by
  rw [retryLoop,if_pos within]
  rw [resultNext] at ok
  rw [show attempted operation step (n+1) = (operation (.ofNat (n+1)) (attempted operation step n)).1 from rfl]
  cases run : operation (.ofNat (n+1)) (attempted operation step n) with
  | mk next result =>
    rw [run] at ok
    change result = _ at ok
    rw [ok]

theorem loopSucceeds {value : Result} (later : n < last) (room : last ≤ mostAttempts policy)
    (fails : ∀ i, n < i → i < last → Fails operation step i) (ok : resultOf operation step last = .ok value) :
    ∃ turns slept', retryLoop policy draws operation turns (.ofNat (n+1)) (attempted operation step n) slept lastError =
      some ⟨attempted operation step last,slept',.ok (value,.ofNat last)⟩ := by
  have most := (mostPositive policy).2.2
  obtain ⟨more,rfl⟩ := Nat.exists_eq_add_of_lt later
  induction more generalizing n slept lastError with
  | zero => exact ⟨1,slept,turnSucceeds ((attemptWithin (by omega)).mpr room) ok⟩
  | succ more ih =>
    obtain ⟨err,failed⟩ := fails (n+1) (by omega) (by omega)
    have within : (.ofNat (n+1) : Int32) ≤ maxAttempts policy := (attemptWithin (by omega)).mpr (by omega)
    have same : n + (more+1) + 1 = n + 1 + more + 1 := by omega
    rw [same] at room fails ok ⊢
    obtain ⟨turns,slept',ends⟩ := @ih (n+1) (sleptAfter policy draws (.ofNat (n+1)) slept) (some err) (by omega) room
      (fun i above below => fails i (by omega) below) ok
    exact ⟨turns+1,slept',(turnFails within failed).trans ends⟩

theorem loopExhausts (under : n ≤ mostAttempts policy) (fits : mostAttempts policy < 2^31 - 1)
    (fails : ∀ i, n < i → i ≤ mostAttempts policy → Fails operation step i) (some_ : lastError.isSome ∨ n < mostAttempts policy) :
    ∃ turns slept' cause, retryLoop policy draws operation turns (.ofNat (n+1)) (attempted operation step n) slept lastError =
      some ⟨attempted operation step (mostAttempts policy),slept',.error (.ExhaustedRetryException cause (maxAttempts policy))⟩ := by
  obtain ⟨more,total⟩ := Nat.exists_eq_add_of_le under
  induction more generalizing n slept lastError with
  | zero =>
    have behind : ¬(.ofNat (n+1) : Int32) ≤ maxAttempts policy := by
      rw [attemptWithin (by omega)]
      omega
    obtain ⟨cause,rfl⟩ := Option.isSome_iff_exists.mp (some_.resolve_right (by omega))
    refine ⟨1,slept,cause,?_⟩
    rw [retryLoop,if_neg behind,total]
    rfl
  | succ more ih =>
    obtain ⟨err,failed⟩ := fails (n+1) (by omega) (by omega)
    have within : (.ofNat (n+1) : Int32) ≤ maxAttempts policy := (attemptWithin (by omega)).mpr (by omega)
    obtain ⟨turns,slept',cause,ends⟩ := @ih (n+1) (sleptAfter policy draws (.ofNat (n+1)) slept) (some err) (by omega)
      (fun i above below => fails i (by omega) below) (.inl rfl) (by omega)
    exact ⟨turns+1,slept',cause,(turnFails within failed).trans ends⟩

theorem loopGoes {ran : Retries Step Result} (within : (.ofNat (n+1) : Int32) ≤ maxAttempts policy)
    (ends : retryLoop policy draws operation turns (.ofNat (n+1)) (attempted operation step n) slept lastError = some ran) :
    ∃ k, n < k ∧ ran.step = attempted operation step k := by
  induction turns generalizing n slept lastError with
  | zero => cases ends
  | succ turns ih =>
    cases result : resultOf operation step (n+1) with
    | ok value =>
      rw [turnSucceeds within result] at ends
      cases ends
      exact ⟨n+1,by omega,rfl⟩
    | error err =>
      rw [turnFails within result] at ends
      by_cases more : (.ofNat (n+2) : Int32) ≤ maxAttempts policy
      · obtain ⟨k,later,same⟩ := ih more ends
        exact ⟨k,by omega,same⟩
      · cases turns with
        | zero => cases ends
        | succ turns =>
          rw [retryLoop,if_neg more] at ends
          cases ends
          exact ⟨n+1,by omega,rfl⟩

theorem loopPast {ran : Retries Step Result} (under : n ≤ last) (room : last ≤ mostAttempts policy)
    (fails : ∀ i, n < i → i ≤ last → Fails operation step i) (within : (.ofNat (last+1) : Int32) ≤ maxAttempts policy)
    (ends : retryLoop policy draws operation turns (.ofNat (n+1)) (attempted operation step n) slept lastError = some ran) :
    ∃ k, last < k ∧ ran.step = attempted operation step k := by
  have most := (mostPositive policy).2.2
  obtain ⟨more,rfl⟩ := Nat.exists_eq_add_of_le under
  induction more generalizing n slept lastError turns with
  | zero => exact loopGoes within ends
  | succ more ih =>
    obtain ⟨err,failed⟩ := fails (n+1) (by omega) (by omega)
    cases turns with
    | zero => cases ends
    | succ turns =>
      rw [turnFails ((attemptWithin (by omega)).mpr (by omega)) failed] at ends
      have same : n + (more+1) = n + 1 + more := by omega
      rw [same] at fails within room ⊢
      exact ih ends (by omega) room (fun i above below => fails i (by omega) below) within

theorem loopMore {attempt : Int32} {now : Step} {ran : Retries Step Result} {more : Nat} (le : turns ≤ more)
    (ends : retryLoop policy draws operation turns attempt now slept lastError = some ran) :
    retryLoop policy draws operation more attempt now slept lastError = some ran := by
  induction turns generalizing more attempt now slept lastError with
  | zero => cases ends
  | succ turns ih =>
    obtain ⟨rest,rfl⟩ : ∃ rest, more = rest + 1 := ⟨more - 1,by omega⟩
    rw [retryLoop] at ends ⊢
    split
    · rename_i within
      rw [if_pos within] at ends
      cases run : operation attempt now with
      | mk next result =>
        rw [run] at ends
        cases result with
        | ok value => exact ends
        | error err => exact ih (by omega) ends
    · rename_i behind
      rw [if_neg behind] at ends
      exact ends

theorem loopOnce {attempt : Int32} {now : Step} {ran ran' : Retries Step Result} {more : Nat}
    (ends : retryLoop policy draws operation turns attempt now slept lastError = some ran)
    (ends' : retryLoop policy draws operation more attempt now slept lastError = some ran') : ran = ran' := by
  rcases Nat.le_total turns more with le | le
  · exact Option.some.inj ((loopMore le ends).symm.trans ends')
  · exact Option.some.inj (ends.symm.trans (loopMore le ends'))

end

/-! How a step ends. -/

section
variable {State Input Data Metadata Output : Type} {p : DecoratedPipeline State Input Data Metadata Output}
  {fn : TransitionFunction State Input Data Metadata Output} {ctx : ExecutionContext State Input Data Metadata}

/-- How an attempt ends, as the reference tells it apart. -/
def outcomeAs {α : Type} : Except Thrown α → Outcome
  | .ok _ => .success
  | .error (.ValidationException _ _) => .validationError
  | .error _ => .failure

def endings (p : DecoratedPipeline State Input Data Metadata Output) (ctx : ExecutionContext State Input Data Metadata) (n : Nat) : Outcome :=
  outcomeAs (resultOf p.userFunction ⟨ctx,[]⟩ n)

theorem failsEnding (n : Nat) : Fails p.userFunction ⟨ctx,[]⟩ n ↔ endings p ctx n ≠ .success := by
  unfold Fails endings
  cases resultOf p.userFunction ⟨ctx,[]⟩ n with
  | ok value => simp [outcomeAs]
  | error err => cases err <;> simp [outcomeAs]

theorem calledEach (has : p.fn = some fn) (n : Nat) : (attempted p.userFunction ⟨ctx,[]⟩ n).requests.length = n := by
  induction n with
  | zero => rfl
  | succ n ih =>
    rw [attempted,DecoratedPipeline.userFunction,has]
    simp [ih]

end

end Dfsm.Java.Pipeline
