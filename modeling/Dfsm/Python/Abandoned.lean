import Dfsm.Python.Actor

/-! What `transition` leaves behind when every store operation succeeds. Between the mark and
the commit an exception that is not caught ends the call where it stands; a step of the saga
is pushed before the commit and popped before its compensation is looked for. -/
namespace Dfsm.Python
open Protocol Act

variable {Data : Type}

/-- Where a call stands: the record as its own updates have made it, whether it has marked
it, whether an exception has left it in flight, the steps that it has popped and no handler
has returned for, whether one of them names a handler that is not registered, and the steps
it has pushed without a commit. -/
structure Footing where
  record : Option TransactionRecord := none
  marked : Bool := false
  broken : Bool := false
  uncompensated : List SagaStepRecord := []
  unregistered : Bool := false
  uncommitted : List SagaStepRecord := []

namespace Footing

def inFlight (f : Footing) : Bool := f.record.any (fun record => record.status = .IN_FLIGHT)

/-- An exception leaves open only what is in flight. -/
def breaks (f : Footing) : Footing := if f.inFlight then { f with broken := true } else f

/-- After something outside of every `try`. -/
def uncaught {α : Type} (f : Footing) : Except Exn α → Footing
  | .ok _ => f
  | .error _ => f.breaks

/-- After something that an `except Exception` is around. -/
def caught {α : Type} (f : Footing) : Except Exn α → Footing
  | .ok _ => f
  | .error e => if e.isException then f else f.breaks

def updated (f : Footing) (record : TransactionRecord) : Footing :=
  { f with
    record := some record
    marked := f.marked || record.status = .IN_FLIGHT
    uncommitted := if record.status = .IDLE ∨ record.status = .COMPLETED then [] else f.uncommitted }

def pushed (f : Footing) (step : SagaStepRecord) : Footing := { f with uncommitted := step::f.uncommitted }

def popped (f : Footing) : Option SagaStepRecord → Footing
  | none => f
  | some step => { f with uncompensated := step::f.uncompensated }

/-- A handler that has returned answers for the step that was popped last. -/
def returned (f : Footing) (handlerName : String) : Footing :=
  match f.uncompensated with
  | [] => f
  | step::others => if step.compensateHandler = handlerName then { f with uncompensated := others } else f

def next (a : DfsmActor Data) (f : Footing) : (op : Op Data) → Reply Data op → Footing
  | .updateTransaction record _, .ok _ => f.updated record
  | .pushSagaStep _ step, .ok _ => f.pushed step
  | .popSagaStep _, .ok found => f.popped found
  | .findCompensate _, found => { f with unregistered := f.unregistered || !found }
  | .compensation handlerName _, .ok _ => f.returned handlerName
  | .compensation _ _, .error _ => f.breaks
  | .findEffect _, found => if a.machine.strict && !found then f.breaks else f
  | .handler _ _, r => f.caught r
  | .hook _ _, r => f.caught r
  | .newContext, r => f.caught r
  | .deserializeContext _, r => f.caught r
  | .serializeContext _, r => f.caught r
  | .backOff _, r => f.uncaught r
  | .serializeInput _, r => f.uncaught r
  | .parseSnapshot _, r => f.uncaught r
  | .effect _ _, r => f.uncaught r
  | .record _, r => f.uncaught r
  | .printHookError _ _, r => f.uncaught r
  | _, _ => f

/-- The transaction is settled, no step is lost that was not compensated, and none is kept
that was not committed. -/
def Whole (f : Footing) : Prop :=
  (∃ record, f.record = some record ∧ record.status.IsSettled) ∧ f.uncompensated = [] ∧ f.uncommitted = []

/-- A call that marked its record leaves all whole exactly when no exception left the step
open and each step that it popped names a handler that is registered. -/
def Released (f : Footing) : Prop := f.marked = true → (f.Whole ↔ f.broken = false ∧ f.unregistered = false)

end Footing

/-- Store operations succeed; everything else may be answered in any way. -/
def footing (a : DfsmActor Data) : Protocol (Reply Data) Footing where
  allowed _ _ := True
  replies op r := match op, r with
    | .getTransaction _, r => ∃ found, r = .ok found
    | .createTransaction _, r => r = .ok ()
    | .updateTransaction _ _, r => r = .ok ()
    | .pushSagaStep _ _, r => r = .ok ()
    | .getSagaStack _, r => ∃ stack, r = .ok stack
    | .popSagaStep _, r => ∃ step, r = .ok step
    | _, _ => True
  after f op r := f.next a op r

variable {a : DfsmActor Data} {txId event : String} {f : Footing}

/-- A loop that is followed no further is no return. -/
abbrev Left (f : Footing) (stop : Stop) : Prop := stop ≠ .running → f.Released

abbrev Leaves {α : Type} (good : Footing → α → Prop) : Footing → Except Stop α → Prop := Protocol.Outcome good Left

/-- A part of the call that returns with all as it was, or leaves by an exception. -/
abbrev Holds {α : Type} (a : DfsmActor Data) (f : Footing) (p : Act Data α) : Prop :=
  (footing a).Obeys (Protocol.Outcome (fun f' _ => f' = f) (fun f' stop => stop ≠ .running → f' = f.breaks)) f p

section
variable {α β : Type}

theorem holdsBind {p : Act Data α} {k : α → Act Data β} (first : Holds a f p) (rest : ∀ x, Holds a f (k x)) : Holds a f (p >>= k) := by
  refine obeysThen _ first (fun f' x same => ?_)
  rw [same]
  exact rest x

theorem holdsAsk {op : Op Data} {k : Reply Data op → Act Data β} (kept : ∀ r, f.next a op r = f) (rest : ∀ r, Holds a f (k r)) :
    Holds a f (ask op >>= k) := by
  refine obeysAsk trivial (fun r _ => ?_)
  rw [show (footing a).after f op r = f from kept r]
  exact rest r

theorem holdsFold {γ : Type} {body : α → γ → Act Data α} (each : ∀ x v, Holds a f (body v x)) (xs : List γ) (v : α) :
    Holds a f (xs.foldlM body v) := by
  refine obeysEach (fun f' _ => f' = f) (fun x f' v same => ?_) xs rfl
  rw [same]
  exact each x v

theorem holdsRaise {x : Except Exn α} :
    (footing a).Obeys (Protocol.Outcome (fun f' _ => f' = f) (fun f' stop => stop ≠ .running → f' = f.breaks)) (f.uncaught x) (orRaise x) := by
  cases x with
  | ok v => exact rfl
  | error e => exact fun _ => rfl

theorem holdsElse {value : α} {x : Except Exn α} :
    (footing a).Obeys (Protocol.Outcome (fun f' _ => f' = f) (fun f' stop => stop ≠ .running → f' = f.breaks)) (f.caught x)
      (DfsmActor.orElse value x) := by
  cases x with
  | ok v => exact rfl
  | error e =>
    dsimp only [DfsmActor.orElse,Footing.caught]
    split
    · exact rfl
    · exact fun _ => rfl

theorem holdsDeserialize {json : String} : Holds a f (a.deserializeContext json) := by
  unfold DfsmActor.deserializeContext
  split
  · split
    · exact obeysAsk trivial (fun r _ => holdsElse)
    · exact rfl
  · exact obeysAsk trivial (fun r _ => holdsElse)

theorem holdsHook {hookType : HookType} {payload : HookEvent} {h : String} :
    Holds a f (DfsmActor.callHook hookType payload h : Act Data Unit) := by
  refine obeysAsk trivial (fun r _ => ?_)
  cases r with
  | ok _ => exact rfl
  | error e =>
    dsimp only [footing,Footing.next,Footing.caught]
    split
    · exact obeysAsk trivial (fun r _ => holdsRaise)
    · exact fun _ => rfl

theorem holdsHooks {hookType : HookType} {payload : HookEvent} : Holds a f (DfsmActor.fireHook hookType payload : Act Data Unit) :=
  holdsAsk (fun _ => rfl) (fun _ => holdsFold (fun _ _ => holdsHook) _ _)

theorem holdsContext {userCtx : Option Data} : Holds a f (a.effectContext txId userCtx) := by
  cases userCtx with
  | some ctx => exact rfl
  | none =>
    refine obeysAsk trivial ?_
    rintro _ ⟨found,rfl⟩
    cases found with
    | none => exact rfl
    | some record => exact holdsDeserialize

theorem holdsEffect {effectName : String} {userCtx : Option Data} {state : StateValue} :
    Holds a f (a.runEffect txId event effectName userCtx state) := by
  refine obeysAsk trivial (fun found _ => ?_)
  cases found with
  | true =>
    dsimp only [footing,Footing.next]
    rw [Bool.not_true,Bool.and_false]
    exact holdsBind holdsContext (fun context => obeysAsk trivial (fun r _ => holdsRaise))
  | false =>
    dsimp only [footing,Footing.next]
    rw [Bool.not_false,Bool.and_true]
    cases a.machine.strict with
    | true => exact fun _ => rfl
    | false => exact rfl

theorem holdsEffects {userCtx : Option Data} {state : StateValue} {effects : List String} :
    Holds a f (a.runEffects txId event userCtx state effects) :=
  holdsFold (fun _ _ => holdsEffect) _ _

theorem holdsCascade {userCtx : Option Data} (rounds : Nat) : ∀ {sv : StateValue}, Holds a f (a.cascadeOnDone txId event userCtx rounds sv) := by
  induction rounds with
  | zero => exact fun returns => absurd rfl returns
  | succ rounds ih =>
    intro sv
    rw [DfsmActor.cascadeOnDone]
    split
    · exact rfl
    · exact holdsBind holdsEffects (fun _ => ih)

theorem holdsSuccess {breaker : Option Nat} : Holds a f (DfsmActor.onSuccess breaker : Act Data Unit) := by
  cases breaker with
  | none => exact rfl
  | some breaker => exact holdsAsk (fun _ => rfl) (fun _ => holdsAsk (fun _ => rfl) (fun _ => rfl))

theorem holdsFailure {breaker : Option Nat} : Holds a f (DfsmActor.onFailure breaker : Act Data Unit) := by
  cases breaker with
  | none => exact rfl
  | some breaker => exact holdsAsk (fun _ => rfl) (fun _ => holdsAsk (fun _ => rfl) (fun _ => rfl))

theorem holdsBefore {breaker : Option Nat} : Holds a f (DfsmActor.beforeExecution breaker : Act Data (Option Int)) := by
  cases breaker with
  | none => exact rfl
  | some breaker => exact holdsAsk (fun _ => rfl) (fun _ => holdsAsk (fun _ => rfl) (fun _ => rfl))

theorem holdsBreaker {chosen : Chosen} : Holds a f (DfsmActor.getBreaker chosen : Act Data (Option Nat)) := by
  unfold DfsmActor.getBreaker
  split
  · exact rfl
  · split
    · exact holdsAsk (fun _ => rfl) (fun _ => rfl)
    · exact rfl

theorem holdsInput {input : Option Data} : Holds a f (DfsmActor.serializeInput input : Act Data (Option String)) := by
  cases input with
  | none => exact rfl
  | some input => exact obeysAsk trivial (fun r _ => obeysThen _ holdsRaise (fun f' json same => same))

theorem holdsSnapshot {json : Option String} : Holds a f (DfsmActor.parseSnapshot json : Act Data (Option Data)) := by
  cases json with
  | none => exact rfl
  | some json => exact obeysAsk trivial (fun r _ => holdsRaise)

/-- What a `try` ends with tells what the footing is. -/
abbrev Tries {γ : Type} (a : DfsmActor Data) (f : Footing) (raised : γ → Except Exn α) (p : Act Data γ) : Prop :=
  (footing a).Obeys (Protocol.Outcome (fun f' r => f' = f.caught (raised r)) (fun f' stop => stop ≠ .running → f' = f.breaks)) f p

theorem triesHandler {chosen : Chosen} {request : TransitionRequest Data} :
    Tries a f id (DfsmActor.invokeTransition chosen request) := by
  unfold DfsmActor.invokeTransition
  split
  · refine obeysAsk trivial (fun r _ => ?_)
    cases r with
    | error e => exact rfl
    | ok returned => exact rfl
  · exact rfl

theorem triesOutput {breaker : Option Nat} {t : Tried Data} {result : TransitionOutput Data} :
    Tries a f Prod.fst (DfsmActor.takeOutput breaker t result) := by
  unfold DfsmActor.takeOutput
  split
  · exact obeysThen _ holdsSuccess (fun f' _ same => same)
  · refine obeysAsk trivial (fun r _ => ?_)
    cases r with
    | error e => exact rfl
    | ok json => exact obeysThen _ holdsSuccess (fun f' _ same => same)

theorem triesOnce {chosen : Chosen} {breaker : Option Nat} {input : Option Data} {currentState : StateValue} {t : Tried Data} :
    Tries a f Prod.fst (DfsmActor.tryOnce txId event chosen breaker input currentState t) := by
  refine obeysThen _ holdsBefore (fun f' waits same => ?_)
  rw [same]
  cases waits with
  | some waitMs => exact rfl
  | none =>
    refine obeysThen _ triesHandler (fun f' r same => ?_)
    rw [same]
    cases r with
    | error e => exact rfl
    | ok result => exact triesOutput

theorem holdsRetry {chosen : Chosen} {breaker : Option Nat} {input : Option Data} {currentState : StateValue} (left : Nat) :
    ∀ {t : Tried Data}, Holds a f (DfsmActor.retryLoop txId event chosen breaker input currentState left t) := by
  induction left with
  | zero => exact rfl
  | succ left ih =>
    intro t
    rw [DfsmActor.retryLoop]
    refine obeysThen _ triesOnce (fun f' r same => ?_)
    rw [same]
    rcases r with ⟨_ | _,t⟩
    · rename_i ex
      dsimp only [Footing.caught]
      split
      · refine holdsBind holdsFailure (fun _ => ?_)
        split
        · exact obeysAsk trivial (fun r _ => obeysThen _ holdsRaise (fun f' _ same => same ▸ ih))
        · exact ih
      · exact fun _ => rfl
    · exact rfl

theorem holdsChoose {matched : MatchedTransition} : Holds a f (a.choose event matched) :=
  holdsAsk (fun _ => rfl) (fun _ => holdsAsk (fun _ => rfl) (fun _ => rfl))

theorem holdsLoad : Holds a f (a.loadOrCreate txId) := by
  refine obeysAsk trivial ?_
  rintro _ ⟨found,rfl⟩
  cases found with
  | some record => exact rfl
  | none =>
    refine obeysAsk trivial (fun now _ => obeysAsk trivial ?_)
    rintro _ rfl
    exact rfl

theorem holdsNotify {committed : TransactionRecord} {prevState : StateValue} {userCtx : Option Data} {effects : List String} :
    Holds a f (a.notifySuccess txId event committed prevState userCtx effects) := by
  unfold DfsmActor.notifySuccess
  refine holdsBind holdsHooks (fun _ => ?_)
  split
  · exact holdsBind holdsHooks (fun _ => holdsBind holdsHooks (fun _ => holdsEffects))
  · exact holdsEffects

end

/-- In the step: the record is in flight, with these steps pushed. -/
structure Footing.Going (record : TransactionRecord) (pushed : List SagaStepRecord) (f : Footing) : Prop where
  here : f.record = some record
  inFlight : record.status = .IN_FLIGHT
  marked : f.marked = true
  whole : f.broken = false
  answered : f.uncompensated = [] ↔ f.unregistered = false
  pushed : f.uncommitted = pushed

/-- After the commit. -/
structure Footing.Closed (f : Footing) : Prop where
  settled : ∃ record, f.record = some record ∧ record.status.IsSettled
  whole : f.broken = false
  answered : f.uncompensated = [] ↔ f.unregistered = false
  committed : f.uncommitted = []

section
variable {record : TransactionRecord} {pushed : List SagaStepRecord} {α β : Type}

theorem flightUnsettled {status : TransactionStatus} (inFlight : status = .IN_FLIGHT) : ¬status.IsSettled := by
  rw [inFlight]
  simp [TransactionStatus.IsSettled]

theorem flightBreaks {stop : Stop} (here : f.record = some record) (inFlight : record.status = .IN_FLIGHT) : Left f.breaks stop := by
  have flying : f.inFlight = true := by simp [Footing.inFlight,here,inFlight]
  refine fun _ _ => iff_of_false ?_ ?_
  · rintro ⟨⟨other,same,settled⟩,_⟩
    rw [Footing.breaks,if_pos flying,here] at same
    cases Option.some.inj same
    exact flightUnsettled inFlight settled
  · rw [Footing.breaks,if_pos flying]
    exact fun both => Bool.noConfusion both.1

theorem closedReleased (closed : f.Closed) : f.Released := by
  refine fun _ => ⟨fun whole => ⟨closed.whole,closed.answered.mp whole.2.1⟩,fun both => ?_⟩
  exact ⟨closed.settled,closed.answered.mpr both.2,closed.committed⟩

theorem closedBreaks (closed : f.Closed) : f.breaks = f := by
  obtain ⟨record,here,settled⟩ := closed.settled
  refine if_neg (fun flying => ?_)
  rw [Footing.inFlight,here] at flying
  exact flightUnsettled (of_decide_eq_true flying) settled

theorem goingThen {good : Footing → β → Prop} {p : Act Data α} {k : α → Act Data β} (going : f.Going record pushed)
    (first : Holds a f p) (rest : ∀ x, (footing a).Obeys (Leaves good) f (k x)) : (footing a).Obeys (Leaves good) f (p >>= k) := by
  refine obeysBind (obeysMono first (fun f' r same => ?_))
  cases r with
  | ok x => exact (show f' = f from same) ▸ rest x
  | error stop =>
    intro returns
    rw [same returns]
    exact flightBreaks going.here going.inFlight returns

theorem closedThen {p : Act Data α} {v : β} (closed : f.Closed) (last : Holds a f p) :
    (footing a).Obeys (Leaves fun f' _ => f'.Released) f (p >>= fun _ => pure v) := by
  refine obeysBind (obeysMono last (fun f' r same => ?_))
  cases r with
  | ok x => exact (show f' = f from same) ▸ closedReleased closed
  | error stop =>
    intro returns
    rw [same returns,closedBreaks closed]
    exact closedReleased closed

theorem recordThen {good : Footing → β → Prop} {benchmark : BenchmarkEvent} {k : Unit → Act Data β} (going : f.Going record pushed)
    (rest : (footing a).Obeys (Leaves good) f (k ())) :
    (footing a).Obeys (Leaves good) f (ask (.record benchmark) >>= fun r => orRaise r >>= k) := by
  have recorded : Holds a f (ask (.record benchmark) >>= fun r => orRaise r : Act Data Unit) := obeysAsk trivial (fun r _ => holdsRaise)
  have whole := goingThen going recorded (fun _ => rest)
  rwa [bind_assoc] at whole

theorem goingCommit {committed : TransactionRecord} (going : f.Going record pushed)
    (done : committed.status = .IDLE ∨ committed.status = .COMPLETED) : (f.updated committed).Closed where
  settled := ⟨committed,rfl,done.elim .inl (fun completed => .inr (.inl completed))⟩
  whole := going.whole
  answered := going.answered
  committed := if_pos done

theorem goingEnd {ended : TransactionRecord} (going : f.Going record []) (done : ended.status = .COMPENSATED ∨ ended.status = .FAILED) :
    (f.updated ended).Closed where
  settled := ⟨ended,rfl,.inr (.inr done)⟩
  whole := going.whole
  answered := going.answered
  committed := by
    rw [Footing.updated,going.pushed]
    exact ite_self _

theorem pushThen {good : Footing → β → Prop} {chosen : Chosen} {input : Option Data} {prevState targetState : StateValue}
    {originalCtxJson : String} {k : Unit → Act Data β} (going : f.Going record pushed)
    (rest : ∀ f' pushed', f'.Going record pushed' → (footing a).Obeys (Leaves good) f' (k ())) :
    (footing a).Obeys (Leaves good) f (DfsmActor.pushStep txId chosen input prevState targetState originalCtxJson >>= k) := by
  unfold DfsmActor.pushStep
  split
  · exact rest f pushed going
  · rw [bind_assoc]
    refine goingThen going holdsInput (fun inputSnapshotJson => ?_)
    refine obeysAsk trivial (fun stamp _ => obeysAsk trivial (fun timestamp _ => obeysAsk trivial ?_))
    rintro _ rfl
    exact rest _ (_::pushed) ⟨going.here,going.inFlight,going.marked,going.whole,going.answered,congrArg (_::·) going.pushed⟩

theorem goingSucceed {rounds : Nat} {durationMs : Int} {input : Option Data} {chosen : Chosen} {tried : Tried Data}
    (going : f.Going record pushed) : (footing a).Obeys (Leaves fun f' _ => f'.Released) f
      (a.succeed txId event rounds durationMs input chosen record tried) := by
  unfold DfsmActor.succeed
  refine recordThen going (pushThen going (fun f pushed going => ?_))
  refine goingThen going (holdsCascade rounds) (fun settled => ?_)
  refine obeysAsk trivial (fun updatedAt _ => obeysAsk trivial ?_)
  rintro _ rfl
  refine closedThen (goingCommit going ?_) holdsNotify
  dsimp only
  split
  · exact .inr rfl
  · exact .inl rfl

/-- With a step popped that its handler has yet to return for. -/
structure Footing.Owing (record : TransactionRecord) (step : SagaStepRecord) (f : Footing) : Prop where
  here : f.record = some record
  inFlight : record.status = .IN_FLIGHT
  marked : f.marked = true
  whole : f.broken = false
  owed : ∃ others, f.uncompensated = step::others ∧ (others = [] ↔ f.unregistered = false)
  pushed : f.uncommitted = []

theorem goingPopped {step : SagaStepRecord} (going : f.Going record []) : (f.popped (some step)).Owing record step :=
  ⟨going.here,going.inFlight,going.marked,going.whole,⟨_,rfl,going.answered⟩,going.pushed⟩

theorem owingReturned {step : SagaStepRecord} (owing : f.Owing record step) : (f.returned step.compensateHandler).Going record [] := by
  obtain ⟨others,owed,answered⟩ := owing.owed
  rw [Footing.returned,owed]
  dsimp only
  rw [if_pos rfl]
  exact ⟨owing.here,owing.inFlight,owing.marked,owing.whole,answered,owing.pushed⟩

theorem owingMissing {step : SagaStepRecord} (owing : f.Owing record step) : ({ f with unregistered := true } : Footing).Going record [] := by
  obtain ⟨others,owed,_⟩ := owing.owed
  refine ⟨owing.here,owing.inFlight,owing.marked,owing.whole,iff_of_false ?_ (by simp),owing.pushed⟩
  rw [show ({ f with unregistered := true } : Footing).uncompensated = step::others from owed]
  simp

theorem goingDeserialize {json : String} (going : f.Going record pushed) {w : Unwound Data} :
    (footing a).Obeys (Leaves fun f' _ => f'.Going record pushed) f
      (a.deserializeContext json >>= fun userCtx => (pure { w with userCtx, contextJson := json } : Act Data (Unwound Data))) :=
  goingThen going holdsDeserialize (fun _ => going)

theorem owingCompensated {step : SagaStepRecord} {request : CompensationRequest Data} {w : Unwound Data} (owing : f.Owing record step) :
    (footing a).Obeys (Leaves fun f' _ => f'.Going record []) f (do
      orRaise (← ask (.compensation step.compensateHandler request))
      match given step.contextBeforeJson with
      | none => pure w
      | some contextJson =>
        let userCtx ← a.deserializeContext contextJson
        pure { w with userCtx, contextJson } : Act Data (Unwound Data)) := by
  refine obeysAsk trivial (fun r _ => ?_)
  cases r with
  | error e => exact flightBreaks owing.here owing.inFlight
  | ok _ =>
    have going := owingReturned owing
    change (footing a).Obeys _ (f.returned step.compensateHandler) _
    cases given step.contextBeforeJson with
    | none => exact going
    | some contextJson => exact goingDeserialize going

theorem owingCompensate {step : SagaStepRecord} {w : Unwound Data} (owing : f.Owing record step) :
    (footing a).Obeys (Leaves fun f' _ => f'.Going record []) f (a.compensateStep txId w step) := by
  refine obeysAsk trivial (fun found _ => ?_)
  cases found with
  | false =>
    dsimp only [footing,Footing.next]
    rw [Bool.not_false,Bool.or_true]
    exact owingMissing owing
  | true =>
    dsimp only [footing,Footing.next]
    rw [Bool.not_true,Bool.or_false]
    refine obeysBind (obeysMono holdsSnapshot (fun f' r same => ?_))
    cases r with
    | ok inputSnapshot => exact (show f' = f from same) ▸ owingCompensated owing
    | error stop =>
      intro returns
      rw [same returns]
      exact flightBreaks owing.here owing.inFlight returns

theorem goingUnwind (remaining : Nat) : ∀ {f : Footing} {w : Unwound Data}, f.Going record [] →
    (footing a).Obeys (Leaves fun f' _ => f'.Going record []) f (a.unwind txId remaining w) := by
  induction remaining with
  | zero => exact fun going => going
  | succ remaining ih =>
    intro f w going
    rw [DfsmActor.unwind]
    refine obeysAsk trivial ?_
    rintro _ ⟨found,rfl⟩
    cases found with
    | none => exact going
    | some step =>
      change (footing a).Obeys _ (f.popped (some step)) (a.compensateStep txId w step >>= _)
      refine obeysThen _ (owingCompensate (goingPopped going)) (fun f w going => ?_)
      exact goingThen going holdsHooks (fun _ => ih going)

theorem goingRollBack {rollbackTriggered : Bool} {w : Unwound Data} (going : f.Going record []) :
    (footing a).Obeys (Leaves fun f' _ => f'.Going record []) f (a.rollBack txId rollbackTriggered w) := by
  unfold DfsmActor.rollBack
  split
  · refine obeysAsk trivial ?_
    rintro _ ⟨stack,rfl⟩
    exact goingUnwind _ going
  · exact going

theorem goingFail {durationMs : Int} {chosen : Chosen} {tried : Tried Data} {lastErr : Exn} (going : f.Going record []) :
    (footing a).Obeys (Leaves fun f' _ => f'.Released) f (a.fail txId event durationMs chosen record tried lastErr) := by
  unfold DfsmActor.fail
  refine recordThen going (obeysThen _ (goingRollBack going) (fun f unwound going => ?_))
  refine obeysAsk trivial (fun updatedAt _ => obeysAsk trivial ?_)
  rintro _ rfl
  refine closedThen (goingEnd going ?_) holdsHooks
  dsimp only
  split
  · exact .inl rfl
  · exact .inr rfl

theorem goingStep {rounds : Nat} {input : Option Data} {chosen : Chosen} (going : f.Going record []) :
    (footing a).Obeys (Leaves fun f' _ => f'.Released) f (a.execute txId event rounds input chosen record) := by
  unfold DfsmActor.execute
  refine goingThen going holdsBreaker (fun breaker => goingThen going holdsDeserialize (fun userCtx => ?_))
  refine obeysAsk trivial (fun started _ => goingThen going (holdsRetry _) (fun tried => obeysAsk trivial (fun ended _ => ?_)))
  cases tried.lastErr with
  | none => exact goingSucceed going
  | some lastErr => exact goingFail going

theorem unmarkedThen {good : Footing → β → Prop} {p : Act Data α} {k : α → Act Data β} (first : Holds a {} p)
    (rest : ∀ x, (footing a).Obeys (Leaves good) {} (k x)) : (footing a).Obeys (Leaves good) {} (p >>= k) := by
  refine obeysBind (obeysMono first (fun f' r same => ?_))
  cases r with
  | ok x => exact (show f' = {} from same) ▸ rest x
  | error stop =>
    intro returns marked
    rw [same returns] at marked
    exact absurd marked (by decide)

theorem freeStop {stop : Stop} : Left {} stop := fun _ marked => absurd marked (by decide)

theorem freeTransition {rounds : Nat} {input : Option Data} :
    (footing a).Obeys (Leaves fun f _ => f.Released) {} (a.transitionOn txId event rounds input record) := by
  unfold DfsmActor.transitionOn
  split
  · exact freeStop
  · refine unmarkedThen holdsChoose (fun chosen => unmarkedThen holdsHooks (fun _ => ?_))
    unfold DfsmActor.markInFlight
    refine obeysAsk trivial (fun updatedAt _ => obeysAsk trivial ?_)
    rintro _ rfl
    exact goingStep ⟨rfl,rfl,rfl,rfl,iff_of_true rfl rfl,rfl⟩

end

/-- No abandoned step and no lost compensation: a call that marked its record ends with the
transaction settled, with each step that it popped compensated and each that it pushed
committed, exactly when no exception left the step open and each step that it popped names a
handler that is registered. -/
theorem stepAccounted (a : DfsmActor Data) (txId event : String) (rounds : Nat) (depth : Int) (input : Option Data) :
    (footing a).Obeys (fun f r => r ≠ .error .running → f.Released) {} (a.transition txId event rounds depth input) := by
  have whole : (footing a).Obeys (Leaves fun f _ => f.Released) {} (a.transition txId event rounds depth input) := by
    unfold DfsmActor.transition
    split
    · exact freeStop
    · exact unmarkedThen holdsLoad (fun record => freeTransition)
  refine obeysMono whole (fun f r released returns => ?_)
  cases r with
  | ok _ => exact released
  | error stop => exact released (fun same => returns (by rw [same]))

def gate : MachineDefinition where
  id := "gate"
  initial := "shut"
  states := [("shut",{ id := "shut", on := [("open",[{ target := some "opened", compensate := some "lock" }])] }),
    ("opened",{ id := "opened", stateType := some "final" }),
    ("error",{ id := "error", stateType := some "final" })]

def gateActor : DfsmActor Unit where
  machine := gate
  empty := ()

def gateRecord : TransactionRecord where
  transactionId := "t"
  machineId := "gate"
  currentState := leaf "shut"
  status := .IDLE
  contextJson := "{}"
  version := 1
  createdAt := 0
  updatedAt := 0

/-- The input has no JSON, and the gate's transaction stays in flight. -/
theorem stepAccountedSet : ¬∀ (a : DfsmActor Unit), Accepted a.machine → ∀ txId event rounds depth (input : Option Unit),
    (footing a).Obeys (fun f r => r ≠ .error .running → f.marked = true → f.Whole) {} (a.transition txId event rounds depth input) := by
  intro claim
  have start := claim gateActor (by decide) "t" "open" 20 0 (some ())
  have loaded := And.right start (.ok (some gateRecord)) ⟨_,rfl⟩
  have looked := And.right loaded none trivial
  have layered := And.right looked none trivial
  have announced := And.right layered [] trivial
  have stamped := And.right announced (0 : Int) trivial
  have marked := And.right stamped (.ok ()) rfl
  have started := And.right marked (1 : Int) trivial
  have kept := And.right started (.ok "{}") trivial
  have ended := And.right kept (2 : Int) trivial
  have recorded := And.right ended (.ok ()) trivial
  have refused := And.right recorded (.error (.raised "Object of type set is not JSON serializable")) trivial
  obtain ⟨⟨record,here,settled⟩,_⟩ := refused (by simp) rfl
  cases here
  exact absurd settled (by simp [TransactionStatus.IsSettled])

end Dfsm.Python
