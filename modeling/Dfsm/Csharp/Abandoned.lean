import Dfsm.Csharp.Requests
import Dfsm.Csharp.Validate

/-! What `TransitionAsync` leaves behind when every store operation succeeds. Between the mark
and the commit an exception that is not caught ends the call where it stands. -/
namespace Dfsm.Csharp
open Protocol Act
open Go (leaf)

variable {Context Data : Type}

/-- Where a call stands: the record as its own updates have made it, whether it has marked
it, whether an exception has left it open since, and whether the way the step would now go
misses a target. -/
structure Footing where
  record : Option TransactionRecord := none
  marked : Bool := false
  broken : Bool := false
  misses : Bool := false

section
variable (a : DfsmActor Context) (eventName : String) (rounds : Nat)

def missed {α : Type} : Except Stop α → Bool
  | .ok _ => false
  | .error .running => false
  | .error (.thrown _) => true

/-- The target of a step that succeeds, or that of a completion after it, does not resolve. -/
def successMisses (sv : StateValue) (matched : MatchedTransition) : Bool :=
  missed (do
    let applied ← a.applyTarget sv matched.sourcePath matched.edge.target
    a.cascadeOnDone rounds applied.nextStateValue)

/-- The fallback of a step that fails does not resolve. -/
def failMisses (sv : StateValue) (matched : MatchedTransition) : Bool :=
  missed (a.applyTarget sv matched.sourcePath (DfsmActor.failTarget (a.choose eventName matched).policy))

def stepMisses (failed : Bool) (record : TransactionRecord) : Bool :=
  (a.selectTransition eventName record.currentState).any (fun matched =>
    if failed then failMisses a eventName record.currentState matched
    else successMisses a rounds record.currentState matched)

namespace Footing

/-- An exception before the mark leaves nothing open. -/
def breaks (f : Footing) : Footing := { f with broken := f.marked }

def tried (f : Footing) (failed : Bool) : Footing :=
  { f with misses := f.record.any (stepMisses a eventName rounds failed) }

def updated (f : Footing) (record : TransactionRecord) : Footing :=
  if record.status = .IN_FLIGHT then tried a eventName rounds { f with record := some record, marked := true } false
  else { f with record := some record }

def next (f : Footing) : (op : Op Context Data) → Reply Context Data op → Footing
  | .updateTransaction record _, .ok _ => f.updated a eventName rounds record
  | .lockBreaker _ .beforeExecution, (cb,now) => if (cb.beforeExecution now).2.isSome then f.breaks else f
  | .handler _ _, .ok _ => f.tried a eventName rounds false
  | .handler _ _, .error _ => f.tried a eventName rounds true
  | .sleep _, .error _ => f.breaks
  | .deserializeContext _, .error _ => f.breaks
  | .serializeContext _, .error _ => f.breaks
  | .serializeInput _, .error _ => f.breaks
  | .record event, .error _ => if event.outcome = .FAILED then f.breaks else f
  | .log (.compensateError _ _ _), .error _ => f.breaks
  | .log (.hookError .OnCompensate _), .error _ => f.breaks
  | _, _ => f

/-- A call that marked its record leaves it settled exactly when no exception left the step
open and the target it went for was there. -/
def Released (f : Footing) : Prop :=
  f.marked = true → ((∃ record, f.record = some record ∧ record.status.IsSettled) ↔ f.broken = false ∧ f.misses = false)

end Footing

/-- Store operations succeed; everything else may be answered in any way. -/
def footing : Protocol (Reply Context Data) Footing where
  allowed _ _ := True
  replies op r := match op, r with
    | .getTransaction _, r => ∃ found, r = .ok found
    | .createTransaction _, r => r = .ok ()
    | .updateTransaction _ _, r => r = .ok ()
    | .pushSagaStep _ _, r => r = .ok ()
    | .getSagaStack _, r => ∃ stack, r = .ok stack
    | .popSagaStep _, r => ∃ step, r = .ok step
    | _, _ => True
  after f op r := f.next a eventName rounds op r

end

section
variable {a : DfsmActor Context} {eventName : String} {rounds : Nat} {f : Footing} {txId : String}

/-- In the step, which would now go to a target that is missing or there. -/
structure Footing.Going (record : TransactionRecord) (misses : Bool) (f : Footing) : Prop where
  here : f.record = some record
  inFlight : record.status = .IN_FLIGHT
  marked : f.marked = true
  whole : f.broken = false
  misses : f.misses = misses

def Footing.Closed (f : Footing) : Prop :=
  f.broken = false ∧ f.misses = false ∧ ∃ record, f.record = some record ∧ record.status.IsSettled

/-- A loop that is followed no further is no return. -/
abbrev Left (f : Footing) (stop : Stop) : Prop := stop ≠ .running → f.Released

abbrev Leaves {α : Type} (good : Footing → α → Prop) : Footing → Except Stop α → Prop := Protocol.Outcome good Left

theorem resolvedSettled (m : MachineDefinition) (sv : StateValue) (wasCompensated : Bool) :
    (resolveSettledTransactionStatus m sv wasCompensated).IsSettled := by
  unfold resolveSettledTransactionStatus TransactionStatus.IsSettled
  split
  · simp
  · split
    · simp
    · dsimp only
      split <;> simp

theorem goingLost {record : TransactionRecord} {misses : Bool} (going : f.Going record misses) {g : Footing}
    (same : g.record = f.record) (lost : ¬(g.broken = false ∧ g.misses = false)) : g.Released := by
  refine fun _ => iff_of_false ?_ lost
  rintro ⟨other,here,settled⟩
  rw [same,going.here] at here
  cases Option.some.inj here
  rcases settled with h | h | h | h <;> exact absurd (going.inFlight.symm.trans h) (by decide)

theorem goingBreaks {record : TransactionRecord} {misses : Bool} (going : f.Going record misses) {stop : Stop} : Left f.breaks stop := by
  refine fun _ => goingLost going rfl (fun both => absurd both.1 ?_)
  simp [Footing.breaks,going.marked]

theorem closedReleased (closed : f.Closed) : f.Released :=
  fun _ => iff_of_true closed.2.2 ⟨closed.1,closed.2.1⟩

theorem goingStop {α : Type} {record : TransactionRecord} {stop : Stop} (going : f.Going record (missed (.error stop : Except Stop α))) :
    Left f stop := by
  intro returns
  have misses : f.misses = true := by
    rw [going.misses]
    cases stop with
    | running => contradiction
    | thrown _ => rfl
  exact goingLost going rfl (fun both => absurd both.2 (by simp [misses]))

/-- What decides nothing after the commit: it leaves the footing whatever the reply. -/
def Op.Quiet : Op Context Data → Prop
  | .record event => event.outcome = .SUCCESS
  | op => op.Notifies

theorem quietKeeps {op : Op Context Data} (quiet : op.Quiet) (r : Reply Context Data op) : f.next a eventName rounds op r = f := by
  cases op with
  | record event =>
    cases r with
    | ok _ => rfl
    | error _ =>
      have other : ¬event.outcome = .FAILED := by rw [show event.outcome = .SUCCESS from quiet]; decide
      exact if_neg other
  | log line =>
    cases line with
    | compensateError _ _ _ => exact absurd quiet id
    | hookError hook _ => cases hook <;> first | rfl | exact absurd quiet id
  | _ => first | rfl | exact absurd quiet id

theorem notifiesQuiet (op : Op Context Data) (notifies : op.Notifies) : op.Quiet := by
  cases op with
  | record event => exact absurd notifies id
  | _ => exact notifies

/-- Before the mark nothing but the mark matters. -/
def Op.Unmarked : Op Context Data → Prop
  | .updateTransaction _ _ => False
  | _ => True

theorem unmarkedKeeps {op : Op Context Data} (unmarked : op.Unmarked) (r : Reply Context Data op) :
    ({} : Footing).next a eventName rounds op r = {} := by
  cases op with
  | updateTransaction _ _ => exact absurd unmarked id
  | lockBreaker _ call =>
    cases call with
    | beforeExecution => exact ite_self _
    | _ => rfl
  | record event =>
    cases r with
    | ok _ => rfl
    | error _ => exact ite_self _
  | log line =>
    cases line with
    | compensateError _ _ _ => cases r <;> rfl
    | hookError hook _ => cases hook <;> cases r <;> rfl
  | _ => first | rfl | (cases r <;> rfl)

theorem notifiesUnmarked (op : Op Context Data) (notifies : op.Notifies) : op.Unmarked := by
  cases op with
  | updateTransaction _ _ => exact absurd notifies id
  | _ => trivial

theorem keptObeys {α : Type} {good : Op Context Data → Prop} {p : Act Context Data α} (asks : p.Asks good)
    (kept : ∀ op r, good op → f.next a eventName rounds op r = f) : (footing a eventName rounds).Obeys (fun f' _ => f' = f) f p := by
  refine @obeysAsks _ _ _ _ _ (footing a eventName rounds) f good (· = f) p asks ?_ rfl
  intro f' op same here
  refine ⟨trivial,fun r _ => ?_⟩
  rw [same]
  exact kept op r here

theorem unmarkedThen {α β : Type} {good : Footing → β → Prop} {p : Act Context Data α} {k : α → Act Context Data β}
    (asks : p.Asks Op.Unmarked) (rest : ∀ x, (footing a eventName rounds).Obeys (Leaves good) {} (k x)) :
    (footing a eventName rounds).Obeys (Leaves good) {} (p >>= k) := by
  refine obeysBind (obeysMono (keptObeys asks (fun op r unmarked => unmarkedKeeps unmarked r)) (fun f' r same => ?_))
  subst same
  cases r with
  | ok x => exact rest x
  | error stop => exact fun _ marked => absurd marked (by decide)

theorem throwThen {α β : Type} {good : Footing → β → Prop} {x : Except Exn α} {k : α → Act Context Data β}
    (throws : ∀ e, x = .error e → Left f (.thrown e)) (rest : ∀ v, x = .ok v → (footing a eventName rounds).Obeys (Leaves good) f (k v)) :
    (footing a eventName rounds).Obeys (Leaves good) f (orThrow x >>= k) := by
  cases x with
  | error e => exact throws e rfl
  | ok v => exact rest v rfl

variable {record : TransactionRecord} {misses : Bool}

theorem serializeThen {β : Type} {good : Footing → β → Prop} {context : Context} {k : String → Act Context Data β}
    (going : f.Going record misses) (rest : ∀ json, (footing a eventName rounds).Obeys (Leaves good) f (k json)) :
    (footing a eventName rounds).Obeys (Leaves good) f (a.serializeContext context >>= k) := by
  unfold DfsmActor.serializeContext
  split
  · exact rest _
  · refine obeysAsk trivial (fun r _ => ?_)
    cases r with
    | ok json => exact rest json
    | error e => exact goingBreaks going

theorem deserializeThen {β : Type} {good : Footing → β → Prop} {json : String} {k : Context → Act Context Data β}
    (going : f.Going record misses) (rest : ∀ context, (footing a eventName rounds).Obeys (Leaves good) f (k context)) :
    (footing a eventName rounds).Obeys (Leaves good) f (a.deserializeContext json >>= k) := by
  unfold DfsmActor.deserializeContext
  split
  · exact rest _
  · refine obeysAsk trivial (fun r _ => ?_)
    cases r with
    | ok context => exact rest context
    | error e => exact goingBreaks going

theorem goingBefore {handlerName : String} {breaker : Option Nat} (going : f.Going record misses) :
    (footing a eventName rounds).Obeys (Leaves fun f' _ => f'.Going record misses) f
      (DfsmActor.beforeExecution handlerName breaker : Act Context Data Unit) := by
  cases breaker with
  | none => exact going
  | some breaker =>
    unfold DfsmActor.beforeExecution
    refine obeysAsk trivial ?_
    rintro ⟨cb,now⟩ _
    refine obeysAsk trivial (fun _ _ => ?_)
    simp only [footing,Footing.next]
    cases (cb.beforeExecution now).2 with
    | none => exact going
    | some waitMs => exact goingBreaks going

theorem onSuccessThen {β : Type} {good : Footing → β → Prop} {breaker : Option Nat} {k : Unit → Act Context Data β}
    (rest : (footing a eventName rounds).Obeys (Leaves good) f (k ())) :
    (footing a eventName rounds).Obeys (Leaves good) f (DfsmActor.onSuccess breaker >>= k) := by
  cases breaker with
  | none => exact rest
  | some breaker => exact ⟨trivial,fun _ _ => ⟨trivial,fun _ _ => rest⟩⟩

theorem onFailureThen {β : Type} {good : Footing → β → Prop} {breaker : Option Nat} {k : Unit → Act Context Data β}
    (rest : (footing a eventName rounds).Obeys (Leaves good) f (k ())) :
    (footing a eventName rounds).Obeys (Leaves good) f (DfsmActor.onFailure breaker >>= k) := by
  cases breaker with
  | none => exact rest
  | some breaker => exact ⟨trivial,fun _ _ => ⟨trivial,fun _ _ => rest⟩⟩

/-- After the attempts the step goes where the last of them leads. -/
abbrev GoingOn (a : DfsmActor Context) (eventName : String) (rounds : Nat) (record : TransactionRecord) (f : Footing)
    (tried : Tried Context Data) : Prop :=
  f.Going record (stepMisses a eventName rounds tried.lastError.isSome record)

theorem goingTried {failed : Bool} (going : f.Going record misses) :
    (f.tried a eventName rounds failed).Going record (stepMisses a eventName rounds failed record) :=
  ⟨going.here,going.inFlight,going.marked,going.whole,by rw [Footing.tried,going.here]; rfl⟩

theorem goingRetry {breaker : Option Nat} {handlerName : String} {request : TransitionRequest Context Data} (left : Nat) :
    ∀ {made : Nat} {lastError : Option Exn} {f : Footing}, f.Going record (stepMisses a eventName rounds lastError.isSome record) →
      (footing a eventName rounds).Obeys (Leaves (GoingOn a eventName rounds record)) f
        (DfsmActor.retryLoop breaker handlerName request left made lastError) := by
  induction left with
  | zero => intro made lastError f going; exact going
  | succ left ih =>
    intro made lastError f going
    rw [DfsmActor.retryLoop]
    refine obeysAsk trivial (fun r _ => ?_)
    cases r with
    | ok output => exact onSuccessThen (goingTried going)
    | error ex =>
      have failed : (f.tried a eventName rounds true).Going record (stepMisses a eventName rounds true record) := goingTried going
      refine onFailureThen ?_
      split
      · refine obeysAsk trivial (fun slept _ => ?_)
        cases slept with
        | ok _ => exact ih failed
        | error _ => exact goingBreaks failed
      · exact ih failed

theorem goingExecute {chosen : Chosen} {breaker : Option Nat} {currentCtx : Context} {coercedInput : Option Data}
    {currentState : StateValue} (going : f.Going record (stepMisses a eventName rounds false record)) :
    (footing a eventName rounds).Obeys (Leaves (GoingOn a eventName rounds record)) f
      (DfsmActor.executeHandler txId eventName chosen breaker currentCtx coercedInput currentState) := by
  unfold DfsmActor.executeHandler
  split
  · exact obeysThen _ (goingBefore going) (fun f _ going => goingRetry _ going)
  · exact going

theorem goingExcept {α β γ : Type} {good : Footing → β → Prop} {x : Except Stop α} {y : α → Except Stop γ} {k : α → Act Context Data β}
    (going : f.Going record (missed (x >>= y)))
    (rest : ∀ v, x = .ok v → f.Going record (missed (y v)) → (footing a eventName rounds).Obeys (Leaves good) f (k v)) :
    (footing a eventName rounds).Obeys (Leaves good) f (.ofExcept x >>= k) := by
  cases x with
  | error stop => exact goingStop going
  | ok v => exact rest v rfl going

theorem goingCommit {committed : TransactionRecord} (going : f.Going record false) (settled : committed.status.IsSettled) :
    (f.updated a eventName rounds committed).Closed := by
  have other : ¬committed.status = .IN_FLIGHT := by
    intro same
    rw [same] at settled
    rcases settled with h | h | h | h <;> exact absurd h (by decide)
  rw [Footing.updated,if_neg other]
  exact ⟨going.whole,going.misses,committed,rfl,settled⟩

theorem closedQuiet {α : Type} {p : Act Context Data α} (asks : p.Asks Op.Quiet) (closed : f.Closed) :
    (footing a eventName rounds).Obeys (Leaves fun f' _ => f'.Released) f p := by
  refine obeysMono (keptObeys asks (fun op r quiet => quietKeeps quiet r)) (fun f' r same => ?_)
  subst same
  cases r with
  | ok _ => exact closedReleased closed
  | error _ => exact fun _ => closedReleased closed

theorem pushThen {β : Type} {good : Footing → β → Prop} {chosen : Chosen} {input : Option Data} {prevState targetState : StateValue}
    {currentCtx : Context} {k : Unit → Act Context Data β} (going : f.Going record misses)
    (rest : (footing a eventName rounds).Obeys (Leaves good) f (k ())) :
    (footing a eventName rounds).Obeys (Leaves good) f (a.pushStep txId chosen input prevState targetState currentCtx >>= k) := by
  have pushed {compensateHandler stepId : String} {inputSnapshotJson : Option String} :
      (footing a eventName rounds).Obeys (Leaves good) f ((do
        let contextBeforeJson ← a.serializeContext currentCtx
        let timestamp ← ask .nowMs
        orThrow (← ask (.pushSagaStep txId {
          stepId, stepName := chosen.handlerName, compensateHandler, fromState := prevState, targetState, inputSnapshotJson
          contextBeforeJson := some contextBeforeJson, timestamp })) : Act Context Data Unit) >>= k) := by
    rw [bind_assoc]
    refine serializeThen going (fun json => obeysAsk trivial (fun timestamp _ => obeysAsk trivial ?_))
    rintro _ rfl
    exact rest
  unfold DfsmActor.pushStep
  split
  · exact rest
  · rw [bind_assoc]
    refine obeysAsk trivial (fun stepId _ => ?_)
    rw [bind_assoc]
    cases input with
    | none => exact pushed
    | some input =>
      refine obeysAsk trivial (fun r _ => ?_)
      cases r with
      | ok json => exact pushed
      | error e => exact goingBreaks going

theorem nextContextThen {β : Type} {good : Footing → β → Prop} {context : Option Context} {k : String → Act Context Data β}
    (going : f.Going record misses) (rest : ∀ json, (footing a eventName rounds).Obeys (Leaves good) f (k json)) :
    (footing a eventName rounds).Obeys (Leaves good) f (a.nextContextJson record context >>= k) := by
  cases context with
  | none => exact rest _
  | some context => exact serializeThen going rest

theorem goingSucceed {depth durationMs : Int} {input : Option Data} {chosen : Chosen} {currentCtx : Context} {tried : Tried Context Data}
    (going : f.Going record (successMisses a rounds record.currentState chosen.matched)) :
    (footing a eventName rounds).Obeys (Leaves fun f' _ => f'.Released) f
      (a.succeed txId eventName rounds depth durationMs input chosen record currentCtx tried) := by
  unfold DfsmActor.succeed
  refine goingExcept going (fun applied _ going => nextContextThen going (fun contextJson => pushThen going ?_))
  rw [← bind_pure (a.cascadeOnDone rounds applied.nextStateValue)] at going
  refine goingExcept going (fun settled _ going => ?_)
  refine obeysAsk trivial (fun updatedAt _ => obeysAsk trivial ?_)
  rintro _ rfl
  have final := resolvedSettled a.machine settled false
  refine closedQuiet ?_ (goingCommit going final)
  refine Program.asksRequest rfl (fun r => Program.asksBind throwAsks (fun _ => ?_))
  exact Program.asksBind (Program.asksMono successNotifies notifiesQuiet) (fun _ => trivial)

theorem goingLogged {line : Exn → LogLine} {x : Except Exn Unit} (going : f.Going record misses)
    (deciding : ∀ e r, f.next a eventName rounds (.log (line e) : Op Context Data) r = match r with
      | .ok _ => f
      | .error _ => f.breaks) :
    (footing a eventName rounds).Obeys (Leaves fun f' _ => f'.Going record misses) f
      (DfsmActor.logged line x : Act Context Data Unit) := by
  cases x with
  | ok _ => exact going
  | error e =>
    refine obeysAsk trivial (fun r _ => ?_)
    simp only [footing,deciding e r]
    cases r with
    | ok _ => exact going
    | error _ => exact goingBreaks going

theorem goingTryCompensate {currentCtx : Context} {step : SagaStepRecord} (going : f.Going record misses) :
    (footing a eventName rounds).Obeys (Leaves fun f' _ => f'.Going record misses) f
      (DfsmActor.tryCompensate txId currentCtx step : Act Context Data (Except Exn Unit)) := by
  unfold DfsmActor.tryCompensate
  split
  · exact ⟨trivial,fun _ _ => going⟩
  · refine obeysAsk trivial (fun r _ => ?_)
    cases r with
    | error e => exact going
    | ok snapshot => exact ⟨trivial,fun _ _ => going⟩

theorem goingCompensate {currentCtx : Context} {step : SagaStepRecord} (going : f.Going record misses) :
    (footing a eventName rounds).Obeys (Leaves fun f' _ => f'.Going record misses) f
      (a.compensateStep txId currentCtx step : Act Context Data Unit) := by
  unfold DfsmActor.compensateStep
  split
  · refine obeysThen _ (goingTryCompensate going) (fun f x going => goingLogged going (fun e r => ?_))
    cases r <;> rfl
  · exact going

theorem goingHooks {event : HookEvent Context Data} (going : f.Going record misses) :
    (footing a eventName rounds).Obeys (Leaves fun f' _ => f'.Going record misses) f (a.fireHook .OnCompensate event) := by
  unfold DfsmActor.fireHook
  refine obeysEach (fun (f' : Footing) (_ : Unit) => f'.Going record misses) (fun h f' _ going => ?_) _ going
  refine obeysAsk trivial (fun x _ => goingLogged going (fun e r => ?_))
  cases r <;> rfl

theorem goingUnwind {currentCtx : Context} (remaining : Nat) : ∀ {f : Footing} {compensatedSteps : Nat}, f.Going record misses →
    (footing a eventName rounds).Obeys (Leaves fun f' _ => f'.Going record misses) f
      (a.unwind txId currentCtx remaining compensatedSteps : Act Context Data Nat) := by
  induction remaining with
  | zero => intro f compensatedSteps going; exact going
  | succ remaining ih =>
    intro f compensatedSteps going
    rw [DfsmActor.unwind]
    refine obeysAsk trivial ?_
    rintro _ ⟨popped,rfl⟩
    refine throwThen (fun e thrown => absurd thrown (by simp)) (fun found same => ?_)
    cases found with
    | none => exact going
    | some step =>
      refine obeysThen _ (goingCompensate going) (fun f _ going => ?_)
      exact obeysThen _ (goingHooks going) (fun f _ going => ih going)

theorem goingRollBack {currentCtx : Context} {rollbackTriggered : Bool} (going : f.Going record misses) :
    (footing a eventName rounds).Obeys (Leaves fun f' _ => f'.Going record misses) f
      (a.rollBack txId rollbackTriggered currentCtx : Act Context Data Nat) := by
  unfold DfsmActor.rollBack
  split
  · refine obeysAsk trivial ?_
    rintro _ ⟨sagaStack,rfl⟩
    exact goingUnwind _ going
  · exact going

theorem goingFail {durationMs : Int} {chosen : Chosen} {currentCtx : Context} {attempts : Nat} {lastError : Exn}
    (policy : chosen.policy = (a.choose eventName chosen.matched).policy)
    (going : f.Going record (failMisses a eventName record.currentState chosen.matched)) :
    (footing a eventName rounds).Obeys (Leaves fun f' _ => f'.Released) f
      (a.fail txId eventName durationMs chosen record currentCtx attempts lastError : Act Context Data _) := by
  rw [failMisses,← policy,← bind_pure (a.applyTarget _ _ _)] at going
  unfold DfsmActor.fail
  refine obeysAsk trivial (fun r _ => ?_)
  cases r with
  | error e => exact goingBreaks going
  | ok _ =>
    refine throwThen (fun e thrown => absurd thrown (by simp)) (fun _ _ => ?_)
    refine obeysThen _ (goingRollBack going) (fun f compensatedSteps going => ?_)
    refine goingExcept going (fun applied _ going => ?_)
    refine obeysAsk trivial (fun updatedAt _ => obeysAsk trivial ?_)
    rintro _ rfl
    have final := resolvedSettled a.machine applied.nextStateValue (chosen.policy.onFail.any (·.compensate))
    refine closedQuiet ?_ (goingCommit going final)
    refine Program.asksBind throwAsks (fun _ => ?_)
    exact Program.asksBind (Program.asksMono (hooksNotify (fun _ => trivial) (fun _ => trivial)) notifiesQuiet) (fun _ => trivial)

theorem breakerThen {β : Type} {good : Footing → β → Prop} {chosen : Chosen} {k : Option Nat → Act Context Data β}
    (rest : ∀ breaker, (footing a eventName rounds).Obeys (Leaves good) f (k breaker)) :
    (footing a eventName rounds).Obeys (Leaves good) f (DfsmActor.getBreaker chosen >>= k) := by
  unfold DfsmActor.getBreaker
  cases chosen.policy.circuitBreaker with
  | none => exact rest none
  | some policy => exact obeysAsk trivial (fun breaker _ => rest (some breaker))

theorem goingStep {depth : Int} {input coercedInput : Option Data} {matched : MatchedTransition}
    (selected : a.selectTransition eventName record.currentState = some matched)
    (going : f.Going record (stepMisses a eventName rounds false record)) :
    (footing a eventName rounds).Obeys (Leaves fun f' _ => f'.Released) f
      (a.execute txId eventName rounds depth input coercedInput (a.choose eventName matched) record) := by
  unfold DfsmActor.execute
  refine deserializeThen going (fun currentCtx => breakerThen (fun breaker => ?_))
  refine obeysThen _ (goingExecute going) (fun f tried going => obeysAsk trivial (fun durationMs _ => ?_))
  rw [GoingOn,stepMisses,selected,Option.any_some] at going
  cases outcome : tried.lastError with
  | none =>
    rw [outcome] at going
    exact goingSucceed going
  | some lastError =>
    rw [outcome] at going
    exact goingFail rfl going

theorem createUnmarked {depth now : Int} : (a.create txId eventName depth now : Act Context Data _).Asks Op.Unmarked := by
  have stored {contextJson : String} {initVal : StateValue} {entryEffects : List String} : (do
      let record : TransactionRecord := {
        transactionId := txId, machineId := a.machine.id, currentState := initVal, status := .IDLE, contextJson, version := 1
        createdAt := now, updatedAt := now }
      orThrow (← ask (.createTransaction record))
      a.fireHook .OnStart (.onStart txId initVal a.defaultContext)
      a.runEffects txId eventName depth a.defaultContext initVal entryEffects
      pure record : Act Context Data TransactionRecord).Asks Op.Unmarked := by
    refine Program.asksRequest trivial (fun r => Program.asksBind throwAsks (fun _ => ?_))
    refine Program.asksBind (Program.asksMono (hooksNotify (fun _ => trivial) (fun _ => trivial)) notifiesUnmarked) (fun _ => ?_)
    exact Program.asksBind (Program.asksMono effectsNotify notifiesUnmarked) (fun _ => trivial)
  unfold DfsmActor.create
  split
  · trivial
  · unfold DfsmActor.serializeContext
    split
    · exact stored
    · exact Program.asksBind (Program.asksRequest trivial (fun r => throwAsks)) (fun _ => stored)

theorem loadUnmarked {depth : Int} : (a.loadOrCreate txId eventName depth : Act Context Data _).Asks Op.Unmarked := by
  refine Program.asksRequest trivial (fun r => Program.asksBind throwAsks (fun found => Program.asksRequest trivial (fun now => ?_)))
  cases found with
  | some record => trivial
  | none => exact createUnmarked

theorem freeStop {stop : Stop} : Left {} stop := fun _ marked => absurd marked (by decide)

theorem freeTransition {depth : Int} {input : Option Data} :
    (footing a eventName rounds).Obeys (Leaves fun f _ => f.Released) {} (a.transitionOn txId eventName rounds depth input record) := by
  unfold DfsmActor.transitionOn
  split
  · exact freeStop
  · split
    · exact freeStop
    · rename_i matched selected
      refine unmarkedThen (Program.asksMono coerceNotifies notifiesUnmarked) (fun coercedInput => ?_)
      refine unmarkedThen (Program.asksMono validateNotifies notifiesUnmarked) (fun _ => ?_)
      refine unmarkedThen (Program.asksMono (hooksNotify (fun _ => trivial) (fun _ => trivial)) notifiesUnmarked) (fun _ => ?_)
      unfold DfsmActor.markInFlight
      refine obeysAsk trivial (fun updatedAt _ => obeysAsk trivial ?_)
      rintro _ rfl
      exact goingStep selected ⟨rfl,rfl,rfl,rfl,rfl⟩

/-- No abandoned step: whatever is registered does, a call that marked its record leaves it
settled exactly when no exception left the step open, and the target that its outcome leads
to was there. -/
theorem stepSettles (a : DfsmActor Context) (txId eventName : String) (rounds : Nat) (depth : Int) (input : Option Data) :
    (footing a eventName rounds).Obeys (fun f r => r ≠ .error .running → f.Released) {}
      (a.transitionAsync txId eventName rounds depth input) := by
  have whole : (footing a eventName rounds).Obeys (Leaves fun f _ => f.Released) {}
      (a.transitionAsync txId eventName rounds depth input) := by
    unfold DfsmActor.transitionAsync
    split
    · exact freeStop
    · exact unmarkedThen loadUnmarked (fun record => freeTransition)
  refine obeysMono whole (fun f r released returns => ?_)
  cases r with
  | ok _ => exact released
  | error stop => exact released (fun same => returns (by rw [same]))

end

def gate : MachineDefinition where
  id := "gate"
  initial := "shut"
  states := [("shut",{ id := "shut", on := [("open",[{ target := "opened", handler := some "unlock" }])] }),
    ("opened",{ id := "opened", type := "final" }),
    ("error",{ id := "error", type := "final" })]

/-- The handler has a circuit breaker. -/
def gateActor : DfsmActor Unit where
  machine := gate
  registry := { transitions := [("unlock",{ cbExplicitlyDefined := some true })] }
  defaultContext := ()
  isNull _ := false

def gateRecord : TransactionRecord where
  transactionId := "t"
  machineId := "gate"
  currentState := leaf "shut"
  createdAt := 0
  updatedAt := 0

/-- The breaker is open, and the gate's transaction stays in flight. -/
theorem stepSettlesRefused : ¬∀ (a : DfsmActor Unit), Accepted a.machine → ∀ txId eventName rounds depth (input : Option Unit),
    (footing a eventName rounds).Obeys (fun f r => r ≠ .error .running → f.marked = true →
      ∃ record, f.record = some record ∧ record.status.IsSettled) {} (a.transitionAsync txId eventName rounds depth input) := by
  intro claim
  have start := claim gateActor (by decide) "t" "open" 20 0 none
  have loaded := And.right start (.ok (some gateRecord)) ⟨_,rfl⟩
  have stamped := And.right loaded (0 : Int) trivial
  have marking := And.right stamped (1 : Int) trivial
  have marked := And.right marking (.ok ()) rfl
  have known := And.right marked (0 : Nat) trivial
  have locked := And.right known ({ policy := {}, state := .Open },1) trivial
  obtain ⟨record,here,settled⟩ := And.right locked () trivial (by simp) rfl
  cases here
  exact absurd settled (by simp [TransactionStatus.IsSettled])

end Dfsm.Csharp
