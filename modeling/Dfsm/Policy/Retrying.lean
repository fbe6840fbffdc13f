import Dfsm.Policy.Merger
import Mathlib.Algebra.Order.Ring.Rat
import Mathlib.Order.Bounds.Basic

/-! One step of a transition through its pipeline: the handler with a working copy of the
context, the retry loop around it, the breaker, and the outcome. The number of attempts
travels as a property of whatever was thrown. -/
namespace Dfsm.Policy.Retrying

/-- How an object takes `__dfsmAttempts`: what reading it gives where that is a number, and
what it reads as after an assignment, or the message of the `TypeError` this throws. -/
structure Marked where
  attempts : Option ℚ
  assigned : Nat → Except String (Option ℚ)

def ordinary : Marked where
  attempts := none
  assigned attempt := .ok (some attempt)

/-- What `Object.freeze` makes of it. -/
def Marked.frozen (marked : Marked) : Marked :=
  { marked with assigned := fun _ => .error "Cannot add property __dfsmAttempts, object is not extensible" }

inductive ErrorClass where
  | ValidationError | CircuitOpenError | Error
  deriving DecidableEq

structure ErrorObject where
  instanceOf : ErrorClass
  marked : Marked
  message : String

/-- What a `throw` throws, an `Error` or not; `text` is what `String` makes of it, none
where that throws. -/
inductive Thrown where
  | primitive (text : String)
  | function (attempts : Option ℚ) (text : Option String)
  | object (marked : Marked) (text : Option String)
  | error (error : ErrorObject)

def typeError (message : String) : ErrorObject := ⟨.Error,ordinary,message⟩

def circuitOpenError (error : Dfsm.CircuitOpenError) : ErrorObject where
  instanceOf := .CircuitOpenError
  marked := ordinary
  message := "Circuit breaker '" ++ error.key ++ "' is OPEN (" ++ toString (max 0 error.remainingMs) ++ "ms remaining)"

def isRetryableByDefault : Thrown → Bool
  | .error { instanceOf := .ValidationError, marked := _, message := _ } => false
  | .error { instanceOf := .CircuitOpenError, marked := _, message := _ } => false
  | _ => true

/-- `err.__dfsmAttempts = attempt` where `err` is an object, and what is thrown then. -/
def assignAttempts (attempt : Nat) : Thrown → Thrown
  | .object marked text =>
    (match marked.assigned attempt with
    | .ok attempts => .object { marked with attempts } text
    | .error message => .error (typeError message))
  | .error error =>
    (match error.marked.assigned attempt with
    | .ok attempts => .error { error with marked := { error.marked with attempts } }
    | .error message => .error (typeError message))
  | err => err

/-- `err?.__dfsmAttempts` where it is a number. -/
def Thrown.attempts : Thrown → Option ℚ
  | .primitive _ => none
  | .function attempts _ => attempts
  | .object marked _ => marked.attempts
  | .error e => e.marked.attempts

/-- `err instanceof Error ? err : new Error(String(err))` -/
def asError : Thrown → Except Thrown ErrorObject
  | .error error => .ok error
  | .primitive text => .ok ⟨.Error,ordinary,text⟩
  | .function _ (some text) => .ok ⟨.Error,ordinary,text⟩
  | .object _ (some text) => .ok ⟨.Error,ordinary,text⟩
  | _ => .error (.error (typeError "Cannot convert object to primitive value"))

section Delay

/-- `random` is what `randomFn` draws for this delay. -/
def computeBackoffDelayMs (retryIndex : Nat) (backoff : NormalizedBackoffPolicy) (random : ℚ) : ℚ :=
  if backoff.initialDelayMs ≤ 0 ∨ backoff.maxDelayMs ≤ 0 then 0 else
  let raw := match backoff.strategy with
    | .fixed => backoff.initialDelayMs
    | .linear => backoff.initialDelayMs * retryIndex
    | .exponential => backoff.initialDelayMs * backoff.multiplier ^ (retryIndex - 1)
    | .exponential_jitter =>
      let ceiling := min backoff.maxDelayMs (backoff.initialDelayMs * backoff.multiplier ^ (retryIndex - 1))
      ceiling * (1/2 + 1/2 * random)
  min backoff.maxDelayMs (max 0 ((raw + 1/2).floor : ℚ))

theorem delayBounded {retryIndex backoff random} (waits : 0 < computeBackoffDelayMs retryIndex backoff random) :
    computeBackoffDelayMs retryIndex backoff random ≤ backoff.maxDelayMs := by
  unfold computeBackoffDelayMs at waits ⊢
  split at waits
  · exact absurd waits (lt_irrefl 0)
  · rename_i some_
    rw [if_neg some_]
    exact min_le_left _ _

end Delay

section Loop
variable {Step Result : Type}

/-- The end of `runWithRetryPolicy`: what the attempts did, the delays slept, and the
result with its attempts. -/
structure Retries (Step Result : Type) where
  step : Step
  slept : List ℚ
  result : Except Thrown (Result × Nat)

variable (policy : NormalizedRetryPolicy Thrown) (random : Nat → ℚ)

def retryable (err : Thrown) : Bool := isRetryableByDefault err && policy.retryIf.elim true (· err)

def maxAttempts : Nat := max 1 policy.maxAttempts

variable (operation : Nat → Step → Step × Except Thrown Result)

/-- The loop, with `left` turns to go. -/
def retryLoop : Nat → Nat → Step → List ℚ → Thrown → Retries Step Result
  | 0, _, step, slept, lastError => ⟨step,slept,.error lastError⟩
  | left + 1, attempt, step, slept, _ =>
    match operation attempt step with
    | (step,.ok result) => ⟨step,slept,.ok (result,attempt)⟩
    | (step,.error err) =>
      if attempt < maxAttempts policy ∧ retryable policy err then
        let delayMs := computeBackoffDelayMs attempt policy.backoff (random attempt)
        retryLoop left (attempt + 1) step (if 0 < delayMs then slept ++ [delayMs] else slept) err
      else ⟨step,slept,.error (assignAttempts attempt err)⟩

def runWithRetryPolicy (step : Step) : Retries Step Result :=
  retryLoop policy random operation (maxAttempts policy) 1 step [] (.primitive "undefined")

/-- The step after so many attempts, were there no end to them. -/
def attempted (step : Step) : Nat → Step
  | 0 => step
  | n + 1 => (operation (n + 1) (attempted step n)).1

def resultOf (step : Step) (attempt : Nat) : Except Thrown Result := (operation attempt (attempted operation step (attempt - 1))).2

/-- A success, or a failure that is not retried. -/
def Ends (step : Step) (attempt : Nat) : Prop :=
  match resultOf operation step attempt with
  | .ok _ => True
  | .error err => retryable policy err = false

/-- Where the loop can stop: `min(first success or non-retryable failure, maxAttempts)` is the least. -/
def stops (step : Step) : Set Nat := {i | 1 ≤ i ∧ (Ends policy operation step i ∨ i = maxAttempts policy)}

variable {policy random operation} {step : Step}

theorem resultNext {n : Nat} : resultOf operation step (n + 1) = (operation (n + 1) (attempted operation step n)).2 := rfl

/-- How the loop leaves off at an attempt. -/
def left (operation : Nat → Step → Step × Except Thrown Result) (step : Step) (n : Nat) : Except Thrown (Result × Nat) :=
  match resultOf operation step n with
  | .ok result => .ok (result,n)
  | .error err => .error (assignAttempts n err)

theorem retryLoopStops {turns n : Nat} {slept : List ℚ} {lastError : Thrown} (some_ : 0 < turns)
    (total : n + turns = maxAttempts policy) (short : ∀ delay ∈ slept, delay ≤ policy.backoff.maxDelayMs) :
    ∃ last, IsLeast {i | n + 1 ≤ i ∧ (Ends policy operation step i ∨ i = maxAttempts policy)} last ∧
      (retryLoop policy random operation turns (n + 1) (attempted operation step n) slept lastError).step =
        attempted operation step last ∧
      (retryLoop policy random operation turns (n + 1) (attempted operation step n) slept lastError).result =
        left operation step last ∧
      ∀ delay ∈ (retryLoop policy random operation turns (n + 1) (attempted operation step n) slept lastError).slept,
        delay ≤ policy.backoff.maxDelayMs := by
  induction turns generalizing n slept lastError with
  | zero => contradiction
  | succ turns ih =>
    have here : (operation (n + 1) (attempted operation step n)).1 = attempted operation step (n + 1) := rfl
    have result := @resultNext _ _ operation step n
    unfold retryLoop
    cases ran : operation (n + 1) (attempted operation step n) with
    | mk next outcome =>
      rw [ran] at here result
      dsimp only at here result
      cases outcome with
      | ok value =>
        have ends : Ends policy operation step (n + 1) := by simp [Ends,result]
        refine ⟨n + 1,⟨⟨Nat.le_refl _,.inl ends⟩,fun i mem => mem.1⟩,here,?_,short⟩
        simp [left,result]
      | error err =>
        dsimp only
        split
        · rename_i again
          have goes : ¬(Ends policy operation step (n + 1) ∨ n + 1 = maxAttempts policy) := by
            simp only [Ends,result,again.2,Bool.true_eq_false,false_or]
            omega
          rw [here]
          have bounded : ∀ delay ∈ (if 0 < computeBackoffDelayMs (n + 1) policy.backoff (random (n + 1)) then
              slept ++ [computeBackoffDelayMs (n + 1) policy.backoff (random (n + 1))] else slept),
              delay ≤ policy.backoff.maxDelayMs := by
            split
            · rename_i waits
              intro delay mem
              rcases List.mem_append.mp mem with old | new
              · exact short delay old
              · cases List.mem_singleton.mp new
                exact delayBounded waits
            · exact short
          obtain ⟨last,least,rest⟩ := @ih (n + 1) _ err (by omega) (by omega) bounded
          refine ⟨last,⟨⟨Nat.le_of_succ_le least.1.1,least.1.2⟩,fun i mem => ?_⟩,rest⟩
          refine least.2 ⟨?_,mem.2⟩
          rcases Nat.lt_or_eq_of_le mem.1 with later | same
          · exact later
          · exact absurd (same ▸ mem.2) goes
        · rename_i stop
          have ends : Ends policy operation step (n + 1) ∨ n + 1 = maxAttempts policy := by
            simp only [Ends,result]
            by_cases again : retryable policy err = true
            · exact .inr (Nat.le_antisymm (by omega) (Nat.not_lt.mp (fun short => stop ⟨short,again⟩)))
            · exact .inl (by simpa using again)
          refine ⟨n + 1,⟨⟨Nat.le_refl _,ends⟩,fun i mem => mem.1⟩,here,?_,short⟩
          simp [left,result]

theorem runStops : ∃ last, IsLeast (stops policy operation step) last ∧
    (runWithRetryPolicy policy random operation step).step = attempted operation step last ∧
    (runWithRetryPolicy policy random operation step).result = left operation step last ∧
    ∀ delay ∈ (runWithRetryPolicy policy random operation step).slept, delay ≤ policy.backoff.maxDelayMs := by
  have some_ : 0 < maxAttempts policy := by simp [maxAttempts]
  exact retryLoopStops (n := 0) some_ (by omega) (by simp)

end Loop

section Pipeline
variable {State Input Data Metadata Output : Type}

structure PipelineExecutionContext (State Input Data Metadata : Type) where
  transactionId : String
  machineId : String
  actorId : String
  event : String
  currentState : State
  input : Input
  contextData : Data
  startedAt : Int
  metadata : Metadata

structure TransactionContext (Data Metadata : Type) where
  transactionId : String
  machineId : String
  actorId : String
  event : String
  attempt : Nat
  startedAt : Int
  data : Data
  metadata : Metadata

structure TransitionRequest (State Input Data Metadata : Type) where
  currentState : State
  input : Input
  context : TransactionContext Data Metadata

structure TransitionOutput (Data Output : Type) where
  context : Option Data := none
  /-- `value`, `targetState` and `effects`, handed on as they are. -/
  carried : Option Output := none

/-- A call of the handler: how it ended, what it left in the object it was given as data and
in the metadata, and what the `data` of its context is by then. -/
structure Handled (Data Metadata Output : Type) where
  result : Except Thrown (Option (TransitionOutput Data Output))
  left : Data
  data : Data
  metadata : Metadata

abbrev TransitionFunction (State Input Data Metadata Output : Type) :=
  TransitionRequest State Input Data Metadata → Handled Data Metadata Output

structure ValidationIssue where
  path : Option String
  message : String

abbrev SchemaValidator (Data : Type) := Data → Except (List ValidationIssue) Data

def validationError (target : String) (issues : List ValidationIssue) : ErrorObject where
  instanceOf := .ValidationError
  marked := ordinary
  message :=
    let details := issues.map (fun i => (i.path.filter (· ≠ "")).elim i.message (· ++ ": " ++ i.message))
    "Validation failed for " ++ target ++ ": " ++ "; ".intercalate details

def enforceValidation (target : String) (value : Data) : Option (SchemaValidator Data) → Except Thrown Data
  | none => .ok value
  | some validate => (validate value).mapError (fun issues => .error (validationError target issues))

structure Executed (Data Output : Type) where
  output : TransitionOutput Data Output
  nextContext : Data
  attempts : Nat

/-- What the attempts of a step share, and the requests the handler was called with. -/
structure Attempts (State Input Data Metadata : Type) where
  execCtx : PipelineExecutionContext State Input Data Metadata
  requests : List (TransitionRequest State Input Data Metadata) := []

/-- The parameters of `buildDecoratedPipeline`, with what it meets: which data `structuredClone`
takes, the random numbers, and the clock when the breaker reads it. -/
structure Pipeline (Data : Type) where
  policy : NormalizedTransitionPolicy Thrown
  breaker : CircuitBreakerInstance := {}
  contextValidator : Option (SchemaValidator Data) := none
  cloneable : Data → Bool
  random : Nat → ℚ
  now : Int
  later : Int

def requestOf (execCtx : PipelineExecutionContext State Input Data Metadata) (attempt : Nat) :
    TransitionRequest State Input Data Metadata where
  currentState := execCtx.currentState
  input := execCtx.input
  context := {
    transactionId := execCtx.transactionId
    machineId := execCtx.machineId
    actorId := execCtx.actorId
    event := execCtx.event
    attempt
    startedAt := execCtx.startedAt
    data := execCtx.contextData
    metadata := execCtx.metadata }

namespace UserFunctionComponent

/-- A clone holds the same data, and the handler writes to it; where there is none it writes to the
context itself. -/
def execute (pipeline : Pipeline Data) (fn : Option (TransitionFunction State Input Data Metadata Output)) (attempt : Nat)
    (shared : Attempts State Input Data Metadata) :
    Attempts State Input Data Metadata × Except Thrown (Executed Data Output) :=
  match fn with
  | none => (shared,.ok ⟨{},shared.execCtx.contextData,attempt⟩)
  | some fn =>
    let request := requestOf shared.execCtx attempt
    let handled := fn request
    let contextData := if pipeline.cloneable shared.execCtx.contextData then shared.execCtx.contextData else handled.left
    (⟨{ shared.execCtx with contextData, metadata := handled.metadata },shared.requests ++ [request]⟩,do
      let output := (← handled.result).getD {}
      let validatedContext ← enforceValidation "context" (output.context.getD handled.data) pipeline.contextValidator
      return ⟨output,validatedContext,attempt⟩)

end UserFunctionComponent

inductive PipelineExecutionOutcome (Data Output : Type) where
  | ok (output : TransitionOutput Data Output) (nextContext : Data) (attempts : ℚ)
  | failed (error : ErrorObject) (compensateRequested : Bool) (fallbackTarget : String) (attempts : ℚ)

def PipelineExecutionOutcome.attempts : PipelineExecutionOutcome Data Output → ℚ
  | .ok _ _ attempts => attempts
  | .failed _ _ _ attempts => attempts

/-- A run of the pipeline, with the requests and the delays on its way. -/
structure Run (State Input Data Metadata Output : Type) where
  requests : List (TransitionRequest State Input Data Metadata)
  slept : List ℚ
  result : Except Thrown (PipelineExecutionOutcome Data Output)

namespace FallbackCompensateDecorator

def caught (policy : NormalizedOnFailPolicy) (err : Thrown) : Except Thrown (PipelineExecutionOutcome Data Output) := do
  let error ← asError err
  let fallbackTarget := if policy.target = "" then "error" else policy.target
  return .failed error policy.compensate fallbackTarget (err.attempts.getD 1)

def settled (policy : NormalizedOnFailPolicy) : Except Thrown (Executed Data Output × Nat) →
    Except Thrown (PipelineExecutionOutcome Data Output)
  | .ok (executed,attempts) => .ok (.ok executed.output executed.nextContext attempts)
  | .error err => caught policy err

/-- Around the breaker, which is around the retry loop. How the breaker counts the end of a call
changes nothing here. -/
def execute (pipeline : Pipeline Data) (fn : Option (TransitionFunction State Input Data Metadata Output))
    (execCtx : PipelineExecutionContext State Input Data Metadata) : Run State Input Data Metadata Output :=
  match CircuitBreakerInstance.admitCall pipeline.policy.circuitBreaker pipeline.breaker pipeline.now pipeline.later with
  | (_,some error) => ⟨[],[],caught pipeline.policy.onFail (.error (circuitOpenError error))⟩
  | (_,none) =>
    let retries := runWithRetryPolicy pipeline.policy.retry pipeline.random (UserFunctionComponent.execute pipeline fn) ⟨execCtx,[]⟩
    ⟨retries.step.requests,retries.slept,settled pipeline.policy.onFail retries.result⟩

end FallbackCompensateDecorator

variable (pipeline : Pipeline Data) (fn : TransitionFunction State Input Data Metadata Output)
  (execCtx : PipelineExecutionContext State Input Data Metadata)

def Admits : Prop :=
  (CircuitBreakerInstance.admitCall pipeline.policy.circuitBreaker pipeline.breaker pipeline.now pipeline.later).2 = none

/-- How the handler ends the n-th time it is called. -/
def outcomeOf (n : Nat) : Except Thrown (Option (TransitionOutput Data Output)) :=
  (fn (requestOf (attempted (UserFunctionComponent.execute pipeline (some fn)) ⟨execCtx,[]⟩ (n - 1)).execCtx n)).result

/-- The n-th call is a success, or a failure that is not retried. -/
def HandlerEnds (n : Nat) : Prop :=
  match outcomeOf pipeline fn execCtx n with
  | .ok _ => True
  | .error err => retryable pipeline.policy.retry err = false

/-- `min(index of the first success or non-retryable failure, max(1, maxAttempts))` -/
def IsLast (n : Nat) : Prop :=
  IsLeast {i | 1 ≤ i ∧ (HandlerEnds pipeline fn execCtx i ∨ i = max 1 pipeline.policy.retry.maxAttempts)} n

/-- What the pipeline promises of a step: the calls of the handler, their count in the outcome,
the delays between them, and the context each of them is given. -/
structure Retried (run : Run State Input Data Metadata Output) : Prop where
  invoked : Admits pipeline → IsLast pipeline fn execCtx run.requests.length
  counted : ∃ outcome, run.result = .ok outcome ∧ outcome.attempts = run.requests.length
  delayed : ∀ delayMs ∈ run.slept, delayMs ≤ pipeline.policy.retry.backoff.maxDelayMs
  unchanged : pipeline.cloneable execCtx.contextData = true →
    ∀ request ∈ run.requests, request.context.data = execCtx.contextData

/-- The count of so many attempts travels with what is thrown: it takes the property and has a
text, or the count is one, which is what stands for none. -/
def Carries (n : Nat) : Thrown → Prop
  | .primitive _ => n = 1
  | .function attempts text => text.isSome ∧ attempts.getD 1 = n
  | .object marked text =>
    (match marked.assigned n with
    | .ok attempts => text.isSome ∧ attempts.getD 1 = n
    | .error _ => n = 1)
  | .error error =>
    (match error.marked.assigned n with
    | .ok attempts => attempts.getD 1 = n
    | .error _ => n = 1)

variable {pipeline fn execCtx}

/-- The steps of this pipeline, attempt by attempt. -/
abbrev stepAfter (pipeline : Pipeline Data) (fn : TransitionFunction State Input Data Metadata Output)
    (execCtx : PipelineExecutionContext State Input Data Metadata) (n : Nat) : Attempts State Input Data Metadata :=
  attempted (UserFunctionComponent.execute pipeline (some fn)) ⟨execCtx,[]⟩ n

theorem stepNext (n : Nat) : stepAfter pipeline fn execCtx (n + 1) =
    (UserFunctionComponent.execute pipeline (some fn) (n + 1) (stepAfter pipeline fn execCtx n)).1 := rfl

theorem calledEach (n : Nat) : (stepAfter pipeline fn execCtx n).requests.length = n := by
  induction n with
  | zero => rfl
  | succ n ih => rw [stepNext]; simp [UserFunctionComponent.execute,ih]

theorem contextKept (clones : pipeline.cloneable execCtx.contextData = true) (n : Nat) :
    (stepAfter pipeline fn execCtx n).execCtx.contextData = execCtx.contextData ∧
      ∀ request ∈ (stepAfter pipeline fn execCtx n).requests, request.context.data = execCtx.contextData := by
  induction n with
  | zero => exact ⟨rfl,by simp [stepAfter,attempted]⟩
  | succ n ih =>
    rw [stepNext]
    refine ⟨by simp [UserFunctionComponent.execute,ih.1,clones],fun request mem => ?_⟩
    simp only [UserFunctionComponent.execute,List.mem_append,List.mem_singleton] at mem
    rcases mem with old | rfl
    · exact ih.2 request old
    · exact ih.1

theorem validationEnds {target : String} {value : Data} {validator : Option (SchemaValidator Data)} {err : Thrown}
    (failed : enforceValidation target value validator = .error err) :
    ∃ issues, err = .error (validationError target issues) := by
  cases validator with
  | none => cases failed
  | some validate =>
    cases checked : validate value with
    | ok data => simp [enforceValidation,checked,Except.mapError] at failed
    | error issues =>
      simp only [enforceValidation,checked,Except.mapError,Except.error.injEq] at failed
      exact ⟨issues,failed.symm⟩

theorem resultCases (n : Nat) :
    (∃ err, outcomeOf pipeline fn execCtx (n + 1) = .error err ∧
      resultOf (UserFunctionComponent.execute pipeline (some fn)) ⟨execCtx,[]⟩ (n + 1) = .error err) ∨
    (∃ output, outcomeOf pipeline fn execCtx (n + 1) = .ok output) ∧
      ((∃ executed, resultOf (UserFunctionComponent.execute pipeline (some fn)) ⟨execCtx,[]⟩ (n + 1) = .ok executed) ∨
        ∃ issues, resultOf (UserFunctionComponent.execute pipeline (some fn)) ⟨execCtx,[]⟩ (n + 1) =
          .error (.error (validationError "context" issues))) := by
  have outcome : outcomeOf pipeline fn execCtx (n + 1) = (fn (requestOf (stepAfter pipeline fn execCtx n).execCtx (n + 1))).result := rfl
  have result := @resultNext _ _ (UserFunctionComponent.execute pipeline (some fn)) ⟨execCtx,[]⟩ n
  simp only [UserFunctionComponent.execute] at result
  cases ended : (fn (requestOf (stepAfter pipeline fn execCtx n).execCtx (n + 1))).result with
  | error err =>
    rw [ended] at result
    exact .inl ⟨err,outcome.trans ended,result⟩
  | ok output =>
    refine .inr ⟨⟨output,outcome.trans ended⟩,?_⟩
    rw [ended] at result
    cases checked : enforceValidation "context" ((output.getD {}).context.getD
        (fn (requestOf (stepAfter pipeline fn execCtx n).execCtx (n + 1))).data) pipeline.contextValidator with
    | ok validated => exact .inl ⟨_,result.trans (by simp only [bind,Except.bind,checked]; rfl)⟩
    | error err =>
      obtain ⟨issues,rfl⟩ := validationEnds checked
      exact .inr ⟨issues,result.trans (by simp only [bind,Except.bind,checked])⟩

theorem endsHandler (n : Nat) : Ends pipeline.policy.retry (UserFunctionComponent.execute pipeline (some fn)) ⟨execCtx,[]⟩ (n + 1) ↔
    HandlerEnds pipeline fn execCtx (n + 1) := by
  unfold Ends HandlerEnds
  rcases @resultCases _ _ _ _ _ pipeline fn execCtx n with ⟨err,outcome,result⟩ | ⟨⟨output,outcome⟩,⟨executed,result⟩ | ⟨issues,result⟩⟩
  · rw [outcome,result]
  · rw [outcome,result]
  · rw [outcome,result]
    simp [retryable,isRetryableByDefault,validationError]

theorem stopsLast (n : Nat) : IsLeast (stops pipeline.policy.retry (UserFunctionComponent.execute pipeline (some fn)) ⟨execCtx,[]⟩) n ↔
    IsLast pipeline fn execCtx n := by
  unfold IsLast
  have same : stops pipeline.policy.retry (UserFunctionComponent.execute pipeline (some fn)) ⟨execCtx,[]⟩ =
      {i | 1 ≤ i ∧ (HandlerEnds pipeline fn execCtx i ∨ i = max 1 pipeline.policy.retry.maxAttempts)} := by
    ext i
    cases i with
    | zero => simp [stops]
    | succ i => simp only [stops,Set.mem_ofPred_eq,endsHandler,maxAttempts]
  rw [same]

theorem caughtCarries {policy : NormalizedOnFailPolicy} {n : Nat} {err : Thrown} :
    (∃ outcome : PipelineExecutionOutcome Data Output,
      FallbackCompensateDecorator.caught policy (assignAttempts n err) = .ok outcome ∧ outcome.attempts = n) ↔ Carries n err := by
  have one : (1 : ℚ) = n ↔ n = 1 := by
    rw [eq_comm]
    exact_mod_cast Iff.rfl
  cases err with
  | primitive text =>
    simp [assignAttempts,FallbackCompensateDecorator.caught,asError,Carries,Thrown.attempts,bind,Except.bind,pure,Except.pure,
      PipelineExecutionOutcome.attempts,one]
  | function attempts text =>
    cases text <;> simp [assignAttempts,FallbackCompensateDecorator.caught,asError,Carries,Thrown.attempts,bind,Except.bind,pure,Except.pure,
      PipelineExecutionOutcome.attempts]
  | object marked text =>
    cases put : marked.assigned n <;> cases text <;>
      simp [assignAttempts,FallbackCompensateDecorator.caught,asError,Carries,Thrown.attempts,bind,Except.bind,pure,Except.pure,
      PipelineExecutionOutcome.attempts,put,typeError,ordinary,one]
  | error error =>
    cases put : error.marked.assigned n <;>
      simp [assignAttempts,FallbackCompensateDecorator.caught,asError,Carries,Thrown.attempts,bind,Except.bind,pure,Except.pure,
      PipelineExecutionOutcome.attempts,put,typeError,ordinary,one]

theorem refusedCount (refused : ¬Admits pipeline) :
    ¬Retried pipeline fn execCtx (FallbackCompensateDecorator.execute pipeline (some fn) execCtx) := by
  intro retried
  obtain ⟨outcome,result,count⟩ := retried.counted
  unfold Admits at refused
  cases admission : CircuitBreakerInstance.admitCall pipeline.policy.circuitBreaker pipeline.breaker pipeline.now pipeline.later with
  | mk breaker error =>
    cases error with
    | none => exact refused (by rw [admission])
    | some error =>
      simp only [FallbackCompensateDecorator.execute,admission,FallbackCompensateDecorator.caught,asError,circuitOpenError,
        ordinary,Thrown.attempts,bind,Except.bind,pure,Except.pure,Except.ok.injEq] at result count
      subst result
      simp [PipelineExecutionOutcome.attempts] at count

/-- A run that is admitted: the calls up to the last, what they were given, and the end. -/
structure Ran (pipeline : Pipeline Data) (fn : TransitionFunction State Input Data Metadata Output)
    (execCtx : PipelineExecutionContext State Input Data Metadata) (last : Nat) (run : Run State Input Data Metadata Output) : Prop where
  isLast : IsLast pipeline fn execCtx last
  requests : run.requests = (stepAfter pipeline fn execCtx last).requests
  slept : ∀ delayMs ∈ run.slept, delayMs ≤ pipeline.policy.retry.backoff.maxDelayMs
  result : run.result = FallbackCompensateDecorator.settled pipeline.policy.onFail
    (left (UserFunctionComponent.execute pipeline (some fn)) ⟨execCtx,[]⟩ last)

theorem admittedRun (admits : Admits pipeline) :
    ∃ last, Ran pipeline fn execCtx last (FallbackCompensateDecorator.execute pipeline (some fn) execCtx) := by
  unfold Admits at admits
  cases admission : CircuitBreakerInstance.admitCall pipeline.policy.circuitBreaker pipeline.breaker pipeline.now pipeline.later with
  | mk breaker error =>
    rw [admission] at admits
    cases admits
    obtain ⟨last,least,step,result,slept⟩ := @runStops _ _ pipeline.policy.retry pipeline.random
      (UserFunctionComponent.execute pipeline (some fn)) ⟨execCtx,[]⟩
    simp only [FallbackCompensateDecorator.execute,admission]
    exact ⟨last,(stopsLast last).mp least,congrArg Attempts.requests step,slept,
      congrArg (FallbackCompensateDecorator.settled pipeline.policy.onFail) result⟩

theorem ranCounted {last : Nat} {run : Run State Input Data Metadata Output} (ran : Ran pipeline fn execCtx last run) :
    (∃ outcome, run.result = .ok outcome ∧ outcome.attempts = last) ↔
      ∀ err, outcomeOf pipeline fn execCtx last = .error err → Carries last err := by
  obtain ⟨n,rfl⟩ : ∃ n, last = n + 1 := ⟨last - 1,by have := ran.isLast.1.1; omega⟩
  rw [ran.result,left]
  rcases @resultCases _ _ _ _ _ pipeline fn execCtx n with ⟨err,outcome,result⟩ | ⟨⟨output,outcome⟩,⟨executed,result⟩ | ⟨issues,result⟩⟩
  · rw [result,outcome]
    simp only [FallbackCompensateDecorator.settled,caughtCarries,Except.error.injEq,forall_eq']
  · rw [result,outcome]
    simp [FallbackCompensateDecorator.settled,PipelineExecutionOutcome.attempts]
  · rw [result,outcome]
    have carries : Carries (n + 1) (.error (validationError "context" issues)) := by simp [Carries,validationError,ordinary]
    exact ⟨fun _ err none_ => (nomatch none_),fun _ => caughtCarries.mpr carries⟩

/-- The number of attempts is right just where the breaker lets the call through and what the
last attempt throws, if it throws, carries it. -/
theorem attemptsCounted (pipeline : Pipeline Data) (fn : TransitionFunction State Input Data Metadata Output)
    (execCtx : PipelineExecutionContext State Input Data Metadata) :
    Retried pipeline fn execCtx (FallbackCompensateDecorator.execute pipeline (some fn) execCtx) ↔
      Admits pipeline ∧ ∀ last err, IsLast pipeline fn execCtx last → outcomeOf pipeline fn execCtx last = .error err →
        Carries last err := by
  by_cases admits : Admits pipeline
  · obtain ⟨last,ran⟩ := @admittedRun _ _ _ _ _ pipeline fn execCtx admits
    have length : (FallbackCompensateDecorator.execute pipeline (some fn) execCtx).requests.length = last := by
      rw [ran.requests,calledEach]
    have only (n : Nat) (isLast : IsLast pipeline fn execCtx n) : n = last := isLast.unique ran.isLast
    constructor
    · rintro ⟨_,counted,_,_⟩
      refine ⟨admits,fun n err isLast => ?_⟩
      rw [length] at counted
      rw [only n isLast]
      exact (ranCounted ran).mp counted err
    · intro ⟨_,carries⟩
      refine ⟨fun _ => length ▸ ran.isLast,?_,ran.slept,fun clones => ?_⟩
      · rw [length]
        exact (ranCounted ran).mpr (fun err => carries last err ran.isLast)
      · rw [ran.requests]
        exact (contextKept clones last).2
  · exact ⟨fun retried => absurd retried (refusedCount admits),fun meets => absurd meets.1 admits⟩

/-- A handler that throws a frozen error, tried twice. -/
def frozenError : TransitionFunction Unit Unit Unit Unit Unit := fun _ =>
  { result := .error (.error ⟨.Error,ordinary.frozen,"declined"⟩), left := (), data := (), metadata := () }

def tried (maxAttempts : Nat) : Pipeline Unit where
  policy :=
    let policy : NormalizedTransitionPolicy Thrown := SDK_DEFAULT_POLICY "payment"
    { policy with retry := { policy.retry with maxAttempts } }
  cloneable _ := true
  random _ := 0
  now := 0
  later := 0

def paying : PipelineExecutionContext Unit Unit Unit Unit where
  transactionId := "t"
  machineId := "payment"
  actorId := "a"
  event := "PAY"
  currentState := ()
  input := ()
  contextData := ()
  startedAt := 0
  metadata := ()

/-- Its two calls are reported as one attempt. -/
theorem attemptsFrozen : ¬Retried (tried 2) frozenError paying
    (FallbackCompensateDecorator.execute (tried 2) (some frozenError) paying) := by
  intro ⟨_,⟨outcome,result,count⟩,_,_⟩
  have one : outcome.attempts = 1 := by
    cases result
    rfl
  have two : (FallbackCompensateDecorator.execute (tried 2) (some frozenError) paying).requests.length = 2 := rfl
  rw [one,two] at count
  simp at count

end Pipeline

end Dfsm.Policy.Retrying
