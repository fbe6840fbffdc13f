import Dfsm.Go.Abandoned
import Dfsm.Go.Store

/-! The saga stack of the Go SDK under concurrent calls: what the calls have committed, as
the log of a run shows it, against the steps the memory store holds. -/
namespace Dfsm.Go
open Protocol Program Act

variable {Context Data : Type} {t : String}

/-- What a worker runs on the transaction. -/
inductive Call (Context Data : Type) where
  | transition (a : DfsmActor Context Data) (ord : Order) (eventName : String) (rounds : Nat) (depth : Int) (input : Option Data)
  | forceCleanUp (a : DfsmActor Context Data) (rounds : Nat) (opts : ForceCleanUpOptions)

/-- A step that can be compensated: the handler that ran, the one that undoes it, and where it began. -/
structure CommittedStep where
  stepName : String
  compensateHandler : String
  fromState : StateValue
  deriving DecidableEq

def SagaStepRecord.step (record : SagaStepRecord) : CommittedStep := ⟨record.stepName,record.compensateHandler,record.fromState⟩

namespace Call

def program (t : String) : Call Context Data → Act Context Data Unit
  | .transition a ord eventName rounds depth input => (a.transition ord t eventName rounds depth input).void
  | .forceCleanUp a rounds opts => (a.forceCleanUp rounds opts).void

/-- Whether the call returns a result although its final update was rejected. -/
def drops (failed : Bool) : Call Context Data → Bool
  | .transition _ _ _ _ _ _ => failed
  | .forceCleanUp _ _ _ => true

/-- The way that the step would now go misses a target. -/
def misses (failed : Bool) (record : TransactionRecord) : Call Context Data → Bool
  | .transition a ord eventName rounds _ _ => stepMisses a ord eventName rounds failed record
  | .forceCleanUp _ _ _ => false

/-- The step that the call takes from a record, where its policy names a compensation. -/
def compensable (record : TransactionRecord) : Call Context Data → Option CommittedStep
  | .transition a ord eventName _ _ input =>
    (a.selectTransition ord eventName record.currentState).bind (fun matched =>
      let chosen := a.choose eventName matched input
      if chosen.policy.compensateWith = "" then none
      else some ⟨chosen.handlerName,chosen.policy.compensateWith,record.currentState⟩)
  | .forceCleanUp _ _ _ => none

end Call

/-- The update with which a call ends its work on the transaction. -/
def settles (t : String) (record : TransactionRecord) : Bool := record.transactionId = t && record.status != .IN_FLIGHT

/-- Steps of the call on the stack, and off it, that no update has committed yet. -/
structure Window where
  pushed : Option SagaStepRecord := none
  popped : Nat := 0
  deriving DecidableEq

def Window.after (t : String) (w : Window) : Event (Reply Context Data) → Window
  | ⟨.pushSagaStep id step,_⟩ => if id = t then { w with pushed := some step } else w
  | ⟨.popSagaStep id,.ok (some _)⟩ => if id = t then { w with popped := w.popped + 1 } else w
  | ⟨.updateTransaction record _,.ok _⟩ => if settles t record then {} else w
  | _ => w

/-- Where a call stands. -/
structure Standing where
  record : Option TransactionRecord := none
  failed : Bool := false
  misses : Bool := false
  window : Window := {}
  touched : Bool := false
  rejected : Bool := false
  faulty : Bool := false

/-- A step is put on the stack, or taken off it. -/
def moves (t : String) : Event (Reply Context Data) → Bool
  | ⟨.pushSagaStep id _,_⟩ => id = t
  | ⟨.popSagaStep id,.ok (some _)⟩ => id = t
  | _ => false

/-- The final update was rejected. -/
def stale (t : String) : Event (Reply Context Data) → Bool
  | ⟨.updateTransaction record _,.error _⟩ => settles t record
  | _ => false

namespace Standing
variable (call : Call Context Data) (t : String) (s : Standing)

/-- The call moves the stack on the way to a target that is missing; something panics after
it has moved the stack; its final update is rejected and it has moved the stack, or drops
the rejection. -/
def faults (e : Event (Reply Context Data)) : Bool :=
  moves t e && s.misses || stale t e && (s.touched || call.drops s.failed) || decide (s.window ≠ {}) && match e with
    | ⟨.compensation _ _,.error _⟩ => true
    | ⟨.hook _ (.onCompensate _ _ _ _ _),.error _⟩ => true
    | _ => false

/-- The outcome of the step so far, and where it would lead. -/
def tried (failed : Bool) : Standing := { s with failed, misses := s.record.any (fun record => call.misses failed record) }

def outcome : Event (Reply Context Data) → Standing
  | ⟨.updateTransaction record _,.ok _⟩ =>
    if record.status = .IN_FLIGHT then tried call { s with record := some record } false else s
  | ⟨.handler _ _,.ok (.ok _)⟩ => s.tried call false
  | ⟨.handler _ _,.ok (.error _)⟩ => s.tried call true
  | _ => s

def after (e : Event (Reply Context Data)) : Standing :=
  { s.outcome call e with
    window := s.window.after t e
    touched := s.touched || moves t e
    rejected := s.rejected || stale t e
    faulty := s.faulty || s.faults call t e }

/-- What the call's final update commits. -/
def commits : List CommittedStep := if s.failed then [] else (s.record.bind (fun record => call.compensable record)).toList

end Standing

/-- A call that has not gone wrong moves the stack by one step, or off steps only, and
commits that; after a rejected update it is over. -/
def saga (call : Call Context Data) (t : String) : Protocol (Reply Context Data) Standing where
  allowed s op := s.faulty = false → s.rejected = false ∧ match op with
    | .pushSagaStep id _ => id = t → s.window = {}
    | .popSagaStep id => id = t → s.window.pushed = none
    | .updateTransaction record _ => settles t record = true → s.window.pushed.toList.map (·.step) = s.commits call
    | .createTransaction record => record.transactionId = t → s.window = {} ∧ record.sagaStack = []
    | .deleteTransaction id => id = t → s.window = {}
    | _ => True
  replies op r := match op, r with
    | .getTransaction id, .ok (some record) => record.transactionId = id
    | _, _ => True
  after s op r := s.after call t ⟨op,r⟩

section
variable {call : Call Context Data} {s : Standing} {α β : Type}

/-- A call that has gone wrong, or is still in a loop, may leave anything behind. -/
abbrev Closed (s : Standing) (stop : Stop) : Prop := s.faulty = false → stop ≠ .running → s.window = {}

abbrev Steps (good : Standing → α → Prop) : Standing → Except Stop α → Prop :=
  Protocol.Outcome (fun s x => s.faulty = true ∨ good s x) Closed

theorem faultyStays {e : Event (Reply Context Data)} (faulty : s.faulty = true) : (s.after call t e).faulty = true := by
  rw [Standing.after,faulty]
  rfl

theorem faultySteps {good : Standing → α → Prop} {p : Act Context Data α} (faulty : s.faulty = true) :
    (saga call t).Obeys (Steps good) s p := by
  induction p generalizing s with
  | done x => exact .inl faulty
  | fail stop => exact fun whole => absurd (whole.symm.trans faulty) (by decide)
  | ask op next ih =>
    refine ⟨fun whole => absurd (whole.symm.trans faulty) (by decide),fun r _ => ih r (faultyStays faulty)⟩

theorem stepsThen (good : Standing → α → Prop) {good' : Standing → β → Prop} {p : Act Context Data α} {k : α → Act Context Data β}
    (obeys : (saga call t).Obeys (Steps good) s p)
    (rest : ∀ s x, good s x → (saga call t).Obeys (Steps good') s (k x)) : (saga call t).Obeys (Steps good') s (p >>= k) := by
  refine obeysThen _ obeys (fun s x holds => ?_)
  rcases holds with faulty | holds
  · exact faultySteps faulty
  · exact rest s x holds

/-- What neither moves the stack nor decides anything of the step. -/
def Op.Aside : Op Context Data → Prop
  | .updateTransaction _ _ | .handler _ _ | .pushSagaStep _ _ | .popSagaStep _ | .compensation _ _ | .createTransaction _
  | .deleteTransaction _ => False
  | .hook _ (.onCompensate _ _ _ _ _) => False
  | _ => True

theorem stillAfter {e : Event (Reply Context Data)} (outcome : s.outcome call e = s) (window : s.window.after t e = s.window)
    (still : moves t e = false) (fresh : stale t e = false) (fine : s.faults call t e = false) : s.after call t e = s := by
  rw [Standing.after,outcome,window,still,fresh,fine]
  simp

theorem emptyAfter {id : String} {r : Except DfsmError (Option SagaStepRecord)} (none : ∀ step, r ≠ .ok (some step)) :
    s.after call t ⟨.popSagaStep id,r⟩ = s := by
  rcases r with e | _ | step
  · exact stillAfter rfl rfl rfl rfl (by simp [Standing.faults,moves,stale])
  · exact stillAfter rfl rfl rfl rfl (by simp [Standing.faults,moves,stale])
  · exact absurd rfl (none step)

theorem asideKeeps {op : Op Context Data} (aside : op.Aside) (r : Reply Context Data op) : s.after call t ⟨op,r⟩ = s := by
  cases op with
  | hook h event =>
    cases event <;> first | exact absurd aside id | exact stillAfter rfl rfl rfl rfl (by simp [Standing.faults,moves,stale])
  | _ => first | exact absurd aside id | exact stillAfter rfl rfl rfl rfl (by simp [Standing.faults,moves,stale])

theorem asideObeys {p : Act Context Data α} (asks : p.Asks Op.Aside) (fresh : s.rejected = false) :
    (saga call t).Obeys (fun s' _ => s' = s) s p := by
  refine @obeysAsks _ _ _ _ _ (saga call t) s Op.Aside (· = s) p asks ?_ rfl
  intro s' op same aside
  rw [same]
  refine ⟨fun _ => ⟨fresh,?_⟩,fun r _ => asideKeeps aside r⟩
  cases op <;> trivial

theorem asideThen {good : Standing → β → Prop} {p : Act Context Data α} {k : α → Act Context Data β} (asks : p.Asks Op.Aside)
    (fresh : s.rejected = false) (closed : s.window = {}) (rest : ∀ x, (saga call t).Obeys (Steps good) s (k x)) :
    (saga call t).Obeys (Steps good) s (p >>= k) := by
  refine obeysBind (obeysMono (asideObeys asks fresh) (fun s' r same => ?_))
  subst same
  cases r with
  | ok x => exact rest x
  | error stop => exact fun _ _ => closed

theorem exceptSaga {good : Standing → β → Prop} {x : Except Stop α} {k : α → Act Context Data β}
    (stops : ∀ stop, x = .error stop → Closed s stop) (rest : ∀ v, x = .ok v → (saga call t).Obeys (Steps good) s (k v)) :
    (saga call t).Obeys (Steps good) s (.ofExcept x >>= k) := by
  cases x with
  | error stop => exact stops stop rfl
  | ok v => exact rest v rfl

theorem panicSaga {good : Standing → β → Prop} {x : Except Panic α} {k : α → Act Context Data β} (closed : s.window = {})
    (rest : ∀ v, (saga call t).Obeys (Steps good) s (k v)) : (saga call t).Obeys (Steps good) s (orPanic x >>= k) := by
  cases x with
  | error p => exact fun _ _ => closed
  | ok v => exact rest v

theorem okSaga {good : Standing → β → Prop} {x : α} {k : α → Act Context Data β} (rest : (saga call t).Obeys (Steps good) s (k x)) :
    (saga call t).Obeys (Steps good) s (orPanic (.ok x) >>= k) := rest

theorem asideAsk {good : Standing → β → Prop} {op : Op Context Data} {k : Reply Context Data op → Act Context Data β} (aside : op.Aside)
    (fresh : s.rejected = false) (rest : ∀ r, (saga call t).Obeys (Steps good) s (k r)) :
    (saga call t).Obeys (Steps good) s (ask op >>= k) := by
  refine And.intro (fun _ => ⟨fresh,?_⟩) (fun r _ => ?_)
  · cases op <;> trivial
  · have kept : (saga call t).after s op r = s := asideKeeps aside r
    rw [kept]
    exact rest r

/-- Before the mark, and between the transactions of a clean-up. -/
structure Standing.Idle (s : Standing) : Prop where
  window : s.window = {}
  touched : s.touched = false
  fresh : s.rejected = false
  whole : s.faulty = false

/-- In the step, with the stack moved by as much. -/
structure Standing.In (call : Call Context Data) (record : TransactionRecord) (failed : Bool) (window : Window) (s : Standing) : Prop where
  here : s.record = some record
  tried : s.failed = failed
  leads : s.misses = call.misses failed record
  moved : s.window = window
  touched : s.touched = decide (window ≠ {})
  fresh : s.rejected = false
  whole : s.faulty = false

abbrev Standing.Done (s : Standing) : Prop := s.window = {} ∧ s.rejected = false

variable {record : TransactionRecord} {failed : Bool} {window : Window} {a : DfsmActor Context Data} {ord : Order} {eventName : String}
  {rounds : Nat} {depth : Int} {input : Option Data}

theorem inTried {handlerName : String} {request : TransitionRequest Context Data} {result} (going : s.In call record failed {}) :
    (s.after call t ⟨.handler handlerName request,.ok result⟩).In call record (match result with | .ok _ => false | .error _ => true) {} := by
  cases result <;>
    exact ⟨going.here,rfl,by simp [Standing.after,Standing.outcome,Standing.tried,going.here],going.moved,
      by simp [Standing.after,going.touched,moves],by simp [Standing.after,going.fresh,stale],
      by simp [Standing.after,going.whole,Standing.faults,moves,stale]⟩

theorem closedIn {stop : Stop} (going : s.In call record failed {}) : Closed s stop := fun _ _ => going.moved

theorem successAside {breaker : Option Nat} : (DfsmActor.onSuccess breaker : Act Context Data Unit).Asks Op.Aside := by
  cases breaker with
  | none => trivial
  | some breaker => exact ⟨trivial,fun _ => ⟨trivial,fun _ => trivial⟩⟩

theorem failureAside {breaker : Option Nat} : (DfsmActor.onFailure breaker : Act Context Data Unit).Asks Op.Aside := by
  cases breaker with
  | none => trivial
  | some breaker => exact ⟨trivial,fun _ => ⟨trivial,fun _ => trivial⟩⟩

theorem beforeAside {handlerName : String} {breaker : Option Nat} :
    (DfsmActor.beforeExecution handlerName breaker : Act Context Data Unit).Asks Op.Aside := by
  cases breaker with
  | none => trivial
  | some breaker =>
    unfold DfsmActor.beforeExecution
    refine Program.asksRequest trivial ?_
    rintro ⟨cb,now⟩
    refine Program.asksRequest trivial (fun _ => ?_)
    split <;> trivial

theorem retrySaga {breaker : Option Nat} {handlerName : String} {request : TransitionRequest Context Data} (left : Nat) :
    ∀ {made : Nat} {lastErr : Option String} {s : Standing}, s.In call record lastErr.isSome {} →
      (saga call t).Obeys (Steps fun s (tried : Tried Context Data) => s.In call record tried.lastErr.isSome {}) s
        (DfsmActor.retryLoop breaker handlerName request left made lastErr) := by
  induction left with
  | zero => intro made lastErr s going; exact .inr going
  | succ left ih =>
    intro made lastErr s going
    rw [DfsmActor.retryLoop]
    refine obeysAsk (fun _ => ⟨going.fresh,trivial⟩) (fun r _ => ?_)
    cases r with
    | error p =>
      have kept : (saga call t).after s (.handler handlerName request) (.error p) = s :=
        stillAfter rfl rfl rfl rfl (by simp [Standing.faults,moves,stale])
      rw [kept]
      exact closedIn going
    | ok result =>
      have tried := @inTried _ _ t call s record lastErr.isSome handlerName request result going
      cases result with
      | ok output => exact okSaga (asideThen successAside tried.fresh tried.moved (fun _ => .inr tried))
      | error err =>
        refine okSaga (asideThen failureAside tried.fresh tried.moved (fun _ => ?_))
        split
        · exact asideAsk trivial tried.fresh (fun _ => ih tried)
        · exact ih tried

theorem executeSaga {chosen : Chosen Data} {breaker : Option Nat} {userCtx : Context} {currentState : StateValue}
    (going : s.In call record false {}) :
    (saga call t).Obeys (Steps fun s (tried : Tried Context Data) => s.In call record tried.lastErr.isSome {}) s
      (DfsmActor.executeHandler t eventName chosen breaker userCtx currentState) := by
  unfold DfsmActor.executeHandler
  split
  · exact asideThen beforeAside going.fresh going.moved (fun _ => retrySaga _ going)
  · exact .inr going

theorem inCommits (going : s.In call record failed window) :
    s.commits call = if failed then [] else (call.compensable record).toList := by
  rw [Standing.commits,going.tried,going.here]
  rfl

/-- The update that ends the step: it commits what the stack was moved by, or finds that
the call has lost the transaction. -/
theorem settleThen {good : Standing → β → Prop} {committed : TransactionRecord} {version : Int} {k : Except DfsmError Unit → Act Context Data β}
    (going : s.In call record failed window) (settling : settles t committed = true)
    (commits : window.pushed.toList.map (·.step) = if failed then [] else (call.compensable record).toList)
    (accepted : ∀ s', s'.Done → (saga call t).Obeys (Steps good) s' (k (.ok ())))
    (lost : ∀ s' e, s'.window = {} → call.drops failed = false → (saga call t).Obeys (Steps good) s' (k (.error e))) :
    (saga call t).Obeys (Steps good) s (ask (.updateTransaction committed version) >>= k) := by
  refine obeysAsk (fun _ => ⟨going.fresh,fun _ => by rw [going.moved,inCommits going]; exact commits⟩) (fun r _ => ?_)
  cases r with
  | ok u =>
    refine accepted _ ⟨?_,?_⟩
    · simp [saga,Standing.after,Window.after,settling]
    · simp [saga,Standing.after,stale,going.fresh]
  | error e =>
    by_cases clean : s.touched = false ∧ call.drops s.failed = false
    · refine lost _ e ?_ (going.tried ▸ clean.2)
      have still : window = {} := by
        have touched := going.touched.symm.trans clean.1
        simpa using touched
      simp [saga,Standing.after,Window.after,going.moved,still]
    · refine faultySteps ?_
      have caught : (s.touched || call.drops s.failed) = true := by
        cases h : s.touched <;> cases h' : call.drops s.failed <;> simp_all
      simp [saga,Standing.after,Standing.faults,stale,settling,caught]

theorem pushedIn {step : SagaStepRecord} (going : s.In call record false {}) (lead : s.misses = false) (r : Except DfsmError Unit) :
    (s.after call t ⟨.pushSagaStep t step,r⟩).In call record false { pushed := some step } := by
  refine ⟨going.here,going.tried,going.leads,?_,?_,?_,?_⟩
  · simp [Standing.after,Window.after,going.moved]
  · simp [Standing.after,moves]
  · simp [Standing.after,stale,going.fresh]
  · simp [Standing.after,Standing.faults,stale,going.whole,going.moved,lead]

/-- The step on the stack is the one its policy names, and it is only put there on the way
to targets that resolve. -/
theorem pushSaga {chosen : Chosen Data} {prev target : StateValue} {contextBefore : String} (going : s.In call record false {}) :
    (saga call t).Obeys (Steps fun s _ => ∃ window, s.In call record false window ∧
        window.pushed.toList.map (·.step) = (if chosen.policy.compensateWith = "" then []
          else [⟨chosen.handlerName,chosen.policy.compensateWith,prev⟩]) ∧
        (window ≠ {} → call.misses false record = false)) s (a.pushStep t chosen prev target contextBefore) := by
  unfold DfsmActor.pushStep
  by_cases plain : chosen.policy.compensateWith = ""
  · simp only [if_pos plain]
    exact .inr ⟨{},going,rfl,fun some => absurd rfl some⟩
  · simp only [if_neg plain]
    refine asideAsk trivial going.fresh (fun stamp => asideAsk trivial going.fresh (fun timestamp => ?_))
    refine obeysAsk (fun _ => ⟨going.fresh,fun _ => going.moved⟩) (fun r _ => ?_)
    cases lead : s.misses with
    | true =>
      refine .inl ?_
      simp [saga,Standing.after,Standing.faults,moves,lead]
    | false =>
      exact .inr ⟨_,pushedIn going lead r,rfl,fun _ => going.leads.symm.trans lead⟩

theorem notifiesAside (op : Op Context Data) (notifies : op.Notifies) : op.Aside := by
  cases op with
  | hook h event => cases event <;> trivial
  | _ => trivial

end

section
variable {a : DfsmActor Context Data} {ord : Order} {eventName : String} {rounds : Nat} {depth : Int} {input : Option Data}
  {s : Standing} {record : TransactionRecord} {matched : MatchedTransition}

theorem settlesResolved {committed : TransactionRecord} (own : committed.transactionId = t) (final : committed.status.IsSettled) :
    settles t committed = true := by
  rw [settles,own]
  rcases final with h | h | h | h <;> simp [h]

theorem compensableOf (selected : a.selectTransition ord eventName record.currentState = some matched) :
    ((Call.transition a ord eventName rounds depth input).compensable record).toList =
      if (a.choose eventName matched input).policy.compensateWith = "" then []
      else [⟨(a.choose eventName matched input).handlerName,(a.choose eventName matched input).policy.compensateWith,record.currentState⟩] := by
  rw [Call.compensable,selected,Option.bind_some]
  dsimp only
  split <;> rfl

theorem succeedSaga {durationMs : Int} {userCtx : Context} {tried : Tried Context Data} (own : record.transactionId = t)
    (selected : a.selectTransition ord eventName record.currentState = some matched)
    (going : s.In (.transition a ord eventName rounds depth input) record false {}) :
    (saga (.transition a ord eventName rounds depth input) t).Obeys (Steps fun s _ => s.Done) s
      (a.succeed ord t eventName rounds depth durationMs (a.choose eventName matched input) record userCtx tried) := by
  have leads : (Call.transition a ord eventName rounds depth input).misses false record = successMisses a ord rounds record.currentState matched := by
    rw [Call.misses,stepMisses,selected]
    rfl
  unfold DfsmActor.succeed
  refine exceptSaga (fun _ _ => closedIn going) (fun applied applies => ?_)
  refine stepsThen _ (pushSaga going) ?_
  rintro s _ ⟨window,going,pushed,lead⟩
  refine exceptSaga (fun stop cascades _ returns => ?_) (fun settled _ => ?_)
  · rw [going.moved]
    by_contra some
    have reached := lead some
    rw [leads,successMisses,show a.applyTarget ord "apply" record.currentState matched.sourcePath matched.edge.target = .ok applied from applies] at reached
    have last : missed (.error stop : Except Stop StateValue) = false := by
      rw [← show a.cascadeOnDone (ord.below "cascade") rounds applied.nextStateValue = .error stop from cascades]
      exact reached
    cases stop with
    | running => exact returns rfl
    | _ => cases last
  · refine asideAsk trivial going.fresh (fun updatedAt => ?_)
    refine settleThen going (settlesResolved own (resolvedSettled (ord.below "status") a.machine settled false)) ?_ ?_ ?_
    · rw [pushed,compensableOf selected]
      rfl
    · intro s done
      refine asideAsk trivial done.2 (fun r => panicSaga done.1 (fun _ => ?_))
      exact asideThen (asksMono successNotifies notifiesAside) done.2 done.1 (fun _ => .inr done)
    · exact fun s e closed _ _ _ => closed

variable {call : Call Context Data} {txId : String} {β : Type}

theorem poppedIn {step : SagaStepRecord} {failed : Bool} {popped : Nat} (going : s.In call record failed { popped }) (lead : s.misses = false) :
    (s.after call t ⟨.popSagaStep t,.ok (some step)⟩).In call record failed { popped := popped+1 } := by
  refine ⟨going.here,going.tried,going.leads,?_,?_,?_,?_⟩
  · simp [Standing.after,Window.after,going.moved]
  · simp [Standing.after,moves]
  · simp [Standing.after,stale,going.fresh]
  · simp [Standing.after,Standing.faults,stale,going.whole,lead]

theorem compensationThen {good : Standing → β → Prop} {handlerName : String} {request : CompensationRequest Context Data}
    {k : Unit → Act Context Data β} (fresh : s.rejected = false) (some : s.window ≠ {})
    (rest : (saga call t).Obeys (Steps good) s (k ())) :
    (saga call t).Obeys (Steps good) s (ask (.compensation handlerName request) >>= fun r => orPanic r >>= k) := by
  refine obeysAsk (fun _ => ⟨fresh,trivial⟩) (fun r _ => ?_)
  cases r with
  | error p => exact faultySteps (by simp [saga,Standing.after,Standing.faults,moves,stale,some])
  | ok _ =>
    have kept : (saga call t).after s (.compensation handlerName request) (.ok ()) = s :=
      stillAfter rfl rfl rfl rfl (by simp [Standing.faults,moves,stale])
    rw [kept]
    exact rest

theorem hooksSaga {stepName : String} {from_ to_ : StateValue} {n : Nat} (fresh : s.rejected = false) (some : s.window ≠ {}) :
    (saga call t).Obeys (Steps fun s' _ => s' = s) s (a.fireHook .onCompensate (.onCompensate txId stepName from_ to_ n)) := by
  unfold DfsmActor.fireHook
  refine obeysEach (fun (s' : Standing) (_ : Unit) => s'.faulty = true ∨ s' = s) (fun h s' _ here => ?_) _ (.inr rfl)
  rcases here with faulty | rfl
  · exact faultySteps faulty
  · refine obeysAsk (fun _ => ⟨fresh,trivial⟩) (fun r _ => ?_)
    cases r with
    | error p => exact faultySteps (by simp [saga,Standing.after,Standing.faults,moves,stale,some])
    | ok _ => exact .inr (stillAfter rfl rfl rfl rfl (by simp [Standing.faults,moves,stale]))

theorem compensateSaga {step : SagaStepRecord} {unwound : DfsmActor.Unwound Context} (fresh : s.rejected = false) (some : s.window ≠ {}) :
    (saga call t).Obeys (Steps fun s' _ => s' = s) s (a.compensateStep txId step unwound) := by
  unfold DfsmActor.compensateStep
  split
  · refine compensationThen fresh some ?_
    split <;> exact .inr rfl
  · exact .inr rfl

/-- Steps that a failed step has taken off the stack, as far as its fallback is there. -/
abbrev Unwinding (call : Call Context Data) (record : TransactionRecord) (s : Standing) : Prop :=
  ∃ popped, s.In call record true { popped } ∧ (popped ≠ 0 → call.misses true record = false)

theorem unwindSaga (remaining : Nat) : ∀ {s : Standing} {unwound : DfsmActor.Unwound Context}, Unwinding call record s →
    (saga call t).Obeys (Steps fun s _ => Unwinding call record s) s (a.unwind t remaining unwound) := by
  induction remaining with
  | zero => intro s unwound unwinding; exact .inr unwinding
  | succ remaining ih =>
    rintro s unwound ⟨popped,going,leads⟩
    rw [DfsmActor.unwind]
    refine obeysAsk (fun _ => ⟨going.fresh,fun _ => by rw [going.moved]⟩) (fun r _ => ?_)
    split
    · rename_i step _
      cases lead : s.misses with
      | true => exact faultySteps (by simp [saga,Standing.after,Standing.faults,moves,lead])
      | false =>
        have next : (s.after call t ⟨.popSagaStep t,.ok (some step)⟩).In call record true { popped := popped+1 } := poppedIn going lead
        have some : (s.after call t ⟨.popSagaStep t,.ok (some step)⟩).window ≠ {} := by
          rw [next.moved]
          simp
        refine stepsThen _ (compensateSaga next.fresh some) ?_
        rintro _ unwound rfl
        refine stepsThen _ (hooksSaga next.fresh some) ?_
        rintro _ _ rfl
        exact ih ⟨popped+1,next,fun _ => going.leads.symm.trans lead⟩
    · rename_i none
      have kept : (saga call t).after s (.popSagaStep t) _ = s := emptyAfter (fun step same => none step same)
      rw [kept]
      exact .inr ⟨popped,going,leads⟩

theorem rollBackSaga {rollback : Bool} {unwound : DfsmActor.Unwound Context} (unwinding : Unwinding call record s) :
    (saga call t).Obeys (Steps fun s _ => Unwinding call record s) s (a.rollBack t rollback unwound) := by
  unfold DfsmActor.rollBack
  split
  · have fresh : s.rejected = false := by
      obtain ⟨popped,going,_⟩ := unwinding
      exact going.fresh
    refine asideAsk trivial fresh (fun r => ?_)
    cases r with
    | ok stack => exact unwindSaga _ unwinding
    | error _ => exact .inr unwinding
  · exact .inr unwinding

theorem failSaga {durationMs : Int} {userCtx : Context} {attempts : Nat} {lastErr : String} (own : record.transactionId = t)
    (selected : a.selectTransition ord eventName record.currentState = some matched)
    (going : s.In (.transition a ord eventName rounds depth input) record true {}) :
    (saga (.transition a ord eventName rounds depth input) t).Obeys (Steps fun s _ => s.Done) s
      (a.fail ord t eventName durationMs (a.choose eventName matched input) record userCtx attempts lastErr) := by
  have leads : (Call.transition a ord eventName rounds depth input).misses true record = failMisses a ord eventName record.currentState matched := by
    rw [Call.misses,stepMisses,selected]
    rfl
  unfold DfsmActor.fail
  refine asideAsk trivial going.fresh (fun r => panicSaga going.moved (fun _ => ?_))
  refine stepsThen _ (rollBackSaga ⟨0,going,fun some => absurd rfl some⟩) ?_
  rintro s unwound ⟨popped,going,lead⟩
  refine exceptSaga (fun stop misses _ returns => ?_) (fun applied _ => ?_)
  · rw [going.moved]
    by_cases none : popped = 0
    · rw [none]
    · have reached := lead none
      rw [leads,failMisses] at reached
      have last : missed (.error stop : Except Stop AppliedTransition) = false := by
        rw [← show a.applyTarget ord "fail" record.currentState matched.sourcePath
          (DfsmActor.failTarget (a.choose eventName matched input).policy) = .error stop from misses]
        exact reached
      cases stop with
      | running => exact absurd rfl returns
      | _ => cases last
  · refine asideAsk trivial going.fresh (fun updatedAt => ?_)
    have final := resolvedSettled (ord.below "status") a.machine applied.nextStateValue
      ((a.choose eventName matched input).policy.onFail.any (·.compensate))
    refine settleThen going (settlesResolved own final) rfl ?_ ?_
    · intro s done
      exact asideThen (asksMono (hooksNotify (fun _ => trivial)) notifiesAside) done.2 done.1 (fun _ => .inr done)
    · exact fun s e _ kept => absurd kept (by simp [Call.drops])

theorem loadAside {chosen : Chosen Data} : (DfsmActor.loadBreaker chosen : Act Context Data (Option Nat)).Asks Op.Aside := by
  unfold DfsmActor.loadBreaker
  cases chosen.policy.circuitBreaker with
  | none => trivial
  | some policy => exact ⟨trivial,fun _ => trivial⟩

theorem stepSaga (own : record.transactionId = t) (selected : a.selectTransition ord eventName record.currentState = some matched)
    (going : s.In (.transition a ord eventName rounds depth input) record false {}) :
    (saga (.transition a ord eventName rounds depth input) t).Obeys (Steps fun s _ => s.Done) s
      (a.execute ord t eventName rounds depth (a.choose eventName matched input) record) := by
  unfold DfsmActor.execute
  refine asideThen loadAside going.fresh going.moved (fun breaker => asideAsk trivial going.fresh (fun startTime => ?_))
  refine stepsThen _ (executeSaga going) (fun s tried going => asideAsk trivial going.fresh (fun ended => ?_))
  cases outcome : tried.lastErr with
  | none =>
    rw [outcome] at going
    exact succeedSaga own selected going
  | some lastErr =>
    rw [outcome] at going
    exact failSaga own selected going

theorem markSaga (idle : s.Idle) (own : record.transactionId = t) :
    (saga call t).Obeys (Steps fun s marked => marked.transactionId = t ∧ marked.currentState = record.currentState ∧ s.In call marked false {}) s
      (DfsmActor.markInFlight record : Act Context Data TransactionRecord) := by
  unfold DfsmActor.markInFlight
  refine asideAsk trivial idle.fresh (fun updatedAt => obeysAsk (fun _ => ⟨idle.fresh,?_⟩) (fun r _ => ?_))
  · simp [settles]
  · cases r with
    | error e =>
      refine fun _ _ => ?_
      simp [saga,Standing.after,Window.after,idle.window]
    | ok _ =>
      refine .inr ⟨own,rfl,rfl,rfl,rfl,?_,?_,?_,?_⟩
      · simp [saga,Standing.after,Window.after,idle.window,settles]
      · simp [saga,Standing.after,moves,idle.touched]
      · simp [saga,Standing.after,stale,idle.fresh]
      · simp [saga,Standing.after,Standing.faults,moves,stale,idle.whole]

theorem returnSaga {α : Type} {good : Standing → β → Prop} {x : Except DfsmError α} {k : α → Act Context Data β} (closed : s.window = {})
    (rest : ∀ v, x = .ok v → (saga call t).Obeys (Steps good) s (k v)) : (saga call t).Obeys (Steps good) s (orReturn x >>= k) := by
  cases x with
  | error e => exact fun _ _ => closed
  | ok v => exact rest v rfl

theorem loadSaga (idle : s.Idle) :
    (saga call t).Obeys (Steps fun s record => s.Idle ∧ record.transactionId = t) s (a.loadOrCreate ord t eventName depth) := by
  unfold DfsmActor.loadOrCreate
  refine obeysAsk (fun _ => ⟨idle.fresh,trivial⟩) (fun r own => ?_)
  have kept : (saga call t).after s (.getTransaction t) r = s := @asideKeeps _ _ t call s (.getTransaction t) trivial r
  rw [kept]
  refine returnSaga idle.window (fun found here => asideAsk trivial idle.fresh (fun now => ?_))
  subst here
  cases found with
  | some record => exact .inr ⟨idle,own⟩
  | none =>
    dsimp only
    unfold DfsmActor.create
    split
    · exact fun _ _ => idle.window
    · refine obeysAsk (fun _ => ⟨idle.fresh,fun _ => ⟨idle.window,rfl⟩⟩) (fun r _ => ?_)
      have kept (record : TransactionRecord) : (saga call t).after s (.createTransaction record) r = s :=
        stillAfter rfl rfl rfl rfl (by simp [Standing.faults,moves,stale])
      rw [kept]
      refine returnSaga idle.window (fun _ _ => ?_)
      refine asideThen (asksMono (hooksNotify (fun _ => trivial)) notifiesAside) idle.fresh idle.window (fun _ => ?_)
      exact asideThen (asksMono effectsNotify notifiesAside) idle.fresh idle.window (fun _ => .inr ⟨idle,rfl⟩)

theorem transitionSaga : (saga (.transition a ord eventName rounds depth input) t).Obeys (Steps fun s _ => s.Done) {}
    (a.transition ord t eventName rounds depth input) := by
  have idle : Standing.Idle {} := ⟨rfl,rfl,rfl,rfl⟩
  unfold DfsmActor.transition
  split
  · exact fun _ _ => rfl
  · refine stepsThen _ (loadSaga idle) ?_
    rintro s record ⟨idle,own⟩
    unfold DfsmActor.transitionOn
    split
    · exact fun _ _ => idle.window
    · split
      · exact fun _ _ => idle.window
      · rename_i matched selected
        refine asideThen (asksMono validateNotifies notifiesAside) idle.fresh idle.window (fun _ => ?_)
        refine asideThen (asksMono (hooksNotify (fun _ => trivial)) notifiesAside) idle.fresh idle.window (fun _ => ?_)
        refine stepsThen _ (markSaga idle own) ?_
        rintro s marked ⟨own,same,going⟩
        exact stepSaga own (by rw [same]; exact selected) going

end

section
variable {a : DfsmActor Context Data} {rounds : Nat} {opts : ForceCleanUpOptions} {s : Standing} {record : TransactionRecord} {now : Int}

/-- Between two requests of a clean-up, with so many steps taken off the stack. -/
structure Standing.Sweeps (popped : Nat) (s : Standing) : Prop where
  window : s.window = { popped }
  fresh : s.rejected = false
  whole : s.faulty = false

theorem endSaga {status : TransactionStatus} {currentState : StateValue} {popped : Nat} (sweeps : s.Sweeps popped)
    (own : popped ≠ 0 → record.transactionId = t) (final : status ≠ .IN_FLIGHT) :
    (saga (.forceCleanUp a rounds opts) t).Obeys (Steps fun s _ => s.Sweeps 0) s
      (DfsmActor.endWith record now status currentState : Act Context Data Unit) := by
  have nothing : s.commits (.forceCleanUp a rounds opts) = [] := by
    rw [Standing.commits]
    split
    · rfl
    · cases s.record <;> rfl
  unfold DfsmActor.endWith
  refine obeysAsk (fun _ => ⟨sweeps.fresh,fun _ => by rw [nothing,sweeps.window]; rfl⟩) (fun r _ => ?_)
  by_cases here : record.transactionId = t
  · have settling (record' : TransactionRecord) (id : record'.transactionId = record.transactionId) (same : record'.status = status) :
        settles t record' = true := by
      simp [settles,id,here,same,final]
    cases r with
    | ok _ =>
      refine .inr ⟨?_,?_,?_⟩
      · simp [saga,Standing.after,Window.after,settling]
      · simp [saga,Standing.after,stale,sweeps.fresh]
      · simp [saga,Standing.after,Standing.faults,moves,stale,sweeps.whole]
    | error e => exact faultySteps (by simp [saga,Standing.after,Standing.faults,stale,settling,Call.drops])
  · have none : popped = 0 := by
      by_contra some
      exact here (own some)
    subst none
    refine .inr ⟨?_,?_,?_⟩ <;> cases r <;>
      simp [saga,Standing.after,Standing.faults,Window.after,moves,stale,settles,here,sweeps.window,sweeps.fresh,sweeps.whole]

/-- Only steps of the transaction itself count. -/
abbrev Sweeping (t : String) (record : TransactionRecord) (s : Standing) : Prop :=
  ∃ popped, s.Sweeps popped ∧ (popped ≠ 0 → record.transactionId = t)

variable {call : Call Context Data} {β : Type}

theorem sweepPop {step : SagaStepRecord} (sweeping : Sweeping t record s) :
    (s.after call t ⟨.popSagaStep record.transactionId,.ok (some step)⟩).faulty = true ∨
      Sweeping t record (s.after call t ⟨.popSagaStep record.transactionId,.ok (some step)⟩) := by
  obtain ⟨popped,sweeps,own⟩ := sweeping
  by_cases here : record.transactionId = t
  · cases lead : s.misses with
    | true => exact .inl (by simp [Standing.after,Standing.faults,moves,here,lead])
    | false =>
      refine .inr ⟨popped+1,⟨?_,?_,?_⟩,fun _ => here⟩
      · simp [Standing.after,Window.after,here,sweeps.window]
      · simp [Standing.after,stale,sweeps.fresh]
      · simp [Standing.after,Standing.faults,stale,lead,sweeps.whole]
  · have kept : s.after call t ⟨.popSagaStep record.transactionId,.ok (some step)⟩ = s :=
      stillAfter rfl (if_neg here) (by simp [moves,here]) rfl (by simp [Standing.faults,moves,stale,here])
    rw [kept]
    exact .inr ⟨popped,sweeps,own⟩

theorem sweepCompensation {good : Standing → β → Prop} {handlerName : String} {request : CompensationRequest Context Data}
    {k : Unit → Act Context Data β} (fresh : s.rejected = false) (rest : (saga call t).Obeys (Steps good) s (k ())) :
    (saga call t).Obeys (Steps good) s (ask (.compensation handlerName request) >>= fun r => orPanic r >>= k) := by
  by_cases closed : s.window = {}
  · have kept (r) : (saga call t).after s (.compensation handlerName request) r = s :=
      stillAfter rfl rfl rfl rfl (by simp [Standing.faults,moves,stale,closed])
    refine obeysAsk (fun _ => ⟨fresh,trivial⟩) (fun r _ => ?_)
    rw [kept r]
    exact panicSaga closed (fun _ => rest)
  · exact compensationThen fresh closed rest

theorem compensateAllSaga (rounds' : Nat) : ∀ {s : Standing}, Sweeping t record s →
    (saga (.forceCleanUp a rounds opts) t).Obeys (Steps fun s _ => Sweeping t record s) s (a.compensateAll record rounds') := by
  induction rounds' with
  | zero => exact fun _ _ returns => absurd rfl returns
  | succ rounds' ih =>
    intro s sweeping
    have allowed : s.rejected = false ∧ s.window.pushed = none := by
      obtain ⟨popped,sweeps,_⟩ := sweeping
      exact ⟨sweeps.fresh,by rw [sweeps.window]⟩
    rw [DfsmActor.compensateAll]
    refine obeysAsk (fun _ => ⟨allowed.1,fun _ => allowed.2⟩) (fun r _ => ?_)
    split
    · rename_i step _
      rcases @sweepPop _ _ t s record (.forceCleanUp a rounds opts) step sweeping with faulty | next
      · exact faultySteps faulty
      · have fresh : (s.after (.forceCleanUp a rounds opts) t ⟨.popSagaStep record.transactionId,.ok (some step)⟩).rejected = false := by
          obtain ⟨popped,sweeps,_⟩ := next
          exact sweeps.fresh
        split
        · exact sweepCompensation fresh (ih next)
        · exact ih next
    · rename_i none
      have kept : (saga (.forceCleanUp a rounds opts) t).after s (.popSagaStep record.transactionId) _ = s :=
        emptyAfter (fun step same => none step same)
      rw [kept]
      exact .inr sweeping

theorem processSaga {action : ForceCleanUpAction} (sweeps : s.Sweeps 0) :
    (saga (.forceCleanUp a rounds opts) t).Obeys (Steps fun s _ => s.Sweeps 0) s (a.processOne rounds action now record) := by
  unfold DfsmActor.processOne
  cases action with
  | DELETE =>
    refine obeysAsk (fun _ => ⟨sweeps.fresh,fun _ => sweeps.window⟩) (fun r _ => ?_)
    have kept : (saga (.forceCleanUp a rounds opts) t).after s (.deleteTransaction record.transactionId) r = s :=
      stillAfter rfl rfl rfl rfl (by simp [Standing.faults,moves,stale])
    rw [kept]
    exact .inr sweeps
  | MARK_FAIL => exact endSaga sweeps (fun some => absurd rfl some) (by decide)
  | COMPENSATE =>
    refine stepsThen _ (compensateAllSaga rounds ⟨0,sweeps,fun some => absurd rfl some⟩) ?_
    rintro s _ ⟨popped,sweeps,own⟩
    exact endSaga sweeps own (by decide)
  | CONTINUE => exact endSaga sweeps (fun some => absurd rfl some) (by decide)

theorem readAside (ids : List String) : (DfsmActor.readCandidates ids : Act Context Data (List TransactionRecord)).Asks Op.Aside := by
  induction ids with
  | nil => trivial
  | cons id rest ih =>
    rw [DfsmActor.readCandidates]
    refine asksRequest trivial (fun r => ?_)
    split
    · exact asksBind ih (fun _ => trivial)
    · exact ih

theorem candidatesAside : (a.candidates opts).Asks Op.Aside := by
  unfold DfsmActor.candidates
  split
  · exact asksRequest trivial (fun _ => returnAsks)
  · exact readAside _

theorem forceCleanUpSaga : (saga (.forceCleanUp a rounds opts) t).Obeys (Steps fun s _ => s.Done) {} (a.forceCleanUp rounds opts) := by
  have processed {now : Int} {matched : List TransactionRecord} :
      (saga (.forceCleanUp a rounds opts) t).Obeys (Steps fun s _ => s.Sweeps 0) {} (a.processAll rounds opts now matched) := by
    unfold DfsmActor.processAll
    split
    · exact .inr ⟨rfl,rfl,rfl⟩
    · refine obeysEach (fun (s : Standing) (_ : Nat) => s.faulty = true ∨ s.Sweeps 0) (fun record s _ here => ?_) _ (.inr ⟨rfl,rfl,rfl⟩)
      rcases here with faulty | sweeps
      · exact faultySteps faulty
      · exact stepsThen _ (processSaga sweeps) (fun s _ sweeps => .inr sweeps)
  unfold DfsmActor.forceCleanUp
  refine asideThen candidatesAside rfl rfl (fun candidates => asideAsk trivial rfl (fun now => ?_))
  exact stepsThen _ processed (fun s _ sweeps => .inr ⟨sweeps.window,sweeps.fresh⟩)

theorem callSaga (call : Call Context Data) : (saga call t).Obeys (Steps fun s _ => s.Done) {} (call.program t) := by
  cases call with
  | transition a ord eventName rounds depth input => exact stepsThen _ transitionSaga (fun _ _ done => .inr done)
  | forceCleanUp a rounds opts => exact stepsThen _ forceCleanUpSaga (fun _ _ done => .inr done)

end

/-! The whole run. -/

/-- Where the calls stand, and the steps committed that are still to be compensated, by the
log alone. -/
structure Ledger where
  standings : Nat → Standing := fun _ => {}
  outstanding : List CommittedStep := []

section
variable (policy : Nat → Call Context Data) (t : String)

/-- A final update takes off what its call has compensated, and adds what it has done. -/
def outstandingAfter (call : Call Context Data) (s : Standing) (outstanding : List CommittedStep) :
    Event (Reply Context Data) → List CommittedStep
  | ⟨.updateTransaction record _,.ok _⟩ =>
    if settles t record then outstanding.take (outstanding.length - s.window.popped) ++ s.commits call else outstanding
  | ⟨.deleteTransaction id,_⟩ => if id = t then [] else outstanding
  | _ => outstanding

def Ledger.after (l : Ledger) (x : Nat × Event (Reply Context Data)) : Ledger where
  standings := Function.update l.standings x.1 ((l.standings x.1).after (policy x.1) t x.2)
  outstanding := outstandingAfter t (policy x.1) (l.standings x.1) l.outstanding x.2

def ledger (log : List (Nat × Event (Reply Context Data))) : Ledger := log.foldl (Ledger.after policy t) {}

end

abbrev Workers (Context Data : Type) := Pool (Reply Context Data) Stop MemoryStateStore

/-- Changes the transaction, or what is on its stack. -/
def touches (t : String) : Event (Reply Context Data) → Bool
  | ⟨.createTransaction record,_⟩ => record.transactionId = t
  | ⟨.updateTransaction record _,.ok _⟩ => record.transactionId = t
  | ⟨.deleteTransaction id,_⟩ => id = t
  | e => moves t e

/-- Nobody else is between a move of the stack and the update that commits it, a new
transaction replaces none, and the call itself does not go wrong. -/
structure Fenced (policy : Nat → Call Context Data) (t : String) (pool : Workers Context Data) (i : Nat)
    (e : Event (Reply Context Data)) : Prop where
  alone : touches t e = true → ∀ j ≠ i, ((ledger policy t pool.log).standings j).window = {}
  absent : ∀ record, e.op = .createTransaction record → record.transactionId = t → pool.shared.getTransaction t = none
  sound : ((ledger policy t pool.log).standings i).faults (policy i) t e = false

def Meets (policy : Nat → Call Context Data) (t : String) (pool : Workers Context Data) : Move (Reply Context Data) Stop → Prop
  | .call _ => True
  | .act i e => Fenced policy t pool i e

/-- Returned or panicked. -/
def Resting (p : Act Context Data Unit) : Prop := p.Ended ∧ p ≠ .fail .running

/-- With nobody on the way to its final update the stack is what has been committed and not
compensated; a call whose final update was rejected has left the stack alone and returns
no result. -/
structure StackAgrees (policy : Nat → Call Context Data) (t : String) (pool : Workers Context Data) : Prop where
  stack : (∀ i w, pool.workers[i]? = some w → ((ledger policy t pool.log).standings i).window = {} ∨ Resting w.program) →
    (pool.shared.stack t).map (·.step) = (ledger policy t pool.log).outstanding
  lost : ∀ (i : Nat) (w : Worker (Reply Context Data) Stop), pool.workers[i]? = some w → w.history.any (stale t) = true → w.history.any (moves t) = false ∧ ∀ u, w.program ≠ .done u

/-- The stack of the transaction after an event. -/
def stackAfter (t : String) (stack : List SagaStepRecord) : Event (Reply Context Data) → List SagaStepRecord
  | ⟨.pushSagaStep id step,_⟩ => if id = t then stack ++ [step] else stack
  | ⟨.popSagaStep id,.ok (some _)⟩ => if id = t then stack.dropLast else stack
  | ⟨.createTransaction record,_⟩ => if record.transactionId = t then record.sagaStack else stack
  | ⟨.deleteTransaction id,_⟩ => if id = t then [] else stack
  | _ => stack

section
variable {store store' : MemoryStateStore} {op : Op Context Data} {r : Reply Context Data op}

theorem performsStack (performed : Performs store op r store') : store'.stack t = stackAfter t (store.stack t) ⟨op,r⟩ := by
  cases op with
  | createTransaction record =>
    obtain ⟨rfl,rfl⟩ := performed
    exact MemoryStateStore.stackWrite _ _
  | updateTransaction record expectedVersion =>
    rcases MemoryStateStore.updateCases performed with ⟨_,rfl⟩ | ⟨_,rfl⟩ <;> rfl
  | pushSagaStep id step =>
    obtain ⟨rfl,rfl⟩ := performed
    exact MemoryStateStore.stackPush _ _
  | popSagaStep id =>
    obtain ⟨rfl,rfl⟩ := performed
    have stack := @MemoryStateStore.stackPop store t id
    cases popped : (store.popSagaStep id).1 with
    | some step => exact stack
    | none =>
      have same : (store.popSagaStep id).2 = store := by
        unfold MemoryStateStore.popSagaStep at popped ⊢
        split <;> rename_i last
        · rfl
        · rw [last] at popped
          cases popped
      rw [same]
      rfl
  | deleteTransaction id =>
    obtain ⟨rfl,rfl⟩ := performed
    exact MemoryStateStore.stackDelete _
  | getTransaction | getSagaStack | listActiveTransactions =>
    obtain ⟨_,rfl⟩ := performed
    rfl
  | _ =>
    cases performed
    rfl

/-- A transaction is gone where it was gone before and nothing has been written, or it has
just been deleted. -/
theorem performsGone (performed : Performs store op r store') (gone : store'.getTransaction t = none) :
    (∃ r', (⟨op,r⟩ : Event (Reply Context Data)) = ⟨.deleteTransaction t,r'⟩) ∨
      store.getTransaction t = none ∧ ∀ record v, (⟨op,r⟩ : Event (Reply Context Data)) = ⟨.updateTransaction record v,.ok ()⟩ →
        record.transactionId ≠ t := by
  cases op with
  | createTransaction record =>
    obtain ⟨rfl,rfl⟩ := performed
    exact .inr ⟨MemoryStateStore.missingCreate gone,fun _ _ same => by cases same⟩
  | updateTransaction record expectedVersion =>
    rcases MemoryStateStore.updateCases performed with ⟨rfl,rfl⟩ | ⟨⟨e,rfl⟩,rfl⟩
    · obtain ⟨other,absent⟩ := MemoryStateStore.missingWrite gone
      exact .inr ⟨absent,fun _ _ same => by cases same; exact other⟩
    · exact .inr ⟨gone,fun _ _ same => by cases same⟩
  | deleteTransaction id =>
    obtain ⟨rfl,rfl⟩ := performed
    rcases MemoryStateStore.missingDelete gone with rfl | absent
    · exact .inl ⟨_,rfl⟩
    · exact .inr ⟨absent,fun _ _ same => by cases same⟩
  | popSagaStep id =>
    obtain ⟨rfl,rfl⟩ := performed
    refine .inr ⟨?_,fun _ _ same => by cases same⟩
    unfold MemoryStateStore.popSagaStep at gone
    split at gone <;> simpa [MemoryStateStore.getTransaction,MemoryStateStore.writeStack] using gone
  | pushSagaStep id step =>
    obtain ⟨rfl,rfl⟩ := performed
    refine .inr ⟨?_,fun _ _ same => by cases same⟩
    simpa [MemoryStateStore.getTransaction,MemoryStateStore.pushSagaStep,MemoryStateStore.writeStack] using gone
  | getTransaction | getSagaStack | listActiveTransactions =>
    obtain ⟨_,rfl⟩ := performed
    exact .inr ⟨gone,fun _ _ same => by cases same⟩
  | _ =>
    cases performed
    exact .inr ⟨gone,fun _ _ same => by cases same⟩

end

/-- The stack holds what is outstanding, but for what a call has moved since it marked the
transaction. -/
structure Fits (stack : List SagaStepRecord) (outstanding : List CommittedStep) (w : Window) : Prop where
  popped : w.popped ≤ outstanding.length
  stack : stack.map (·.step) = outstanding.take (outstanding.length - w.popped) ++ w.pushed.toList.map (·.step)

section
variable {call : Call Context Data} {s : Standing} {stack : List SagaStepRecord} {outstanding : List CommittedStep}
  {e : Event (Reply Context Data)}

theorem fitsClosed : Fits stack outstanding {} ↔ stack.map (·.step) = outstanding := by
  constructor
  · intro fits
    simpa using fits.stack
  · intro same
    exact ⟨Nat.zero_le _,by simpa using same⟩

theorem quietAfter (quiet : touches t e = false) : stackAfter t stack e = stack ∧ outstandingAfter t call s outstanding e = outstanding ∧
    (s.after call t e).window = s.window := by
  obtain ⟨op,r⟩ := e
  cases op with
  | createTransaction record => exact ⟨if_neg (of_decide_eq_false quiet),rfl,rfl⟩
  | deleteTransaction id => exact ⟨if_neg (of_decide_eq_false quiet),if_neg (of_decide_eq_false quiet),rfl⟩
  | pushSagaStep id step => exact ⟨if_neg (of_decide_eq_false quiet),rfl,if_neg (of_decide_eq_false quiet)⟩
  | popSagaStep id =>
    rcases r with _ | _ | step
    · exact ⟨rfl,rfl,rfl⟩
    · exact ⟨rfl,rfl,rfl⟩
    · exact ⟨if_neg (of_decide_eq_false quiet),rfl,if_neg (of_decide_eq_false quiet)⟩
  | updateTransaction record version =>
    cases r with
    | error _ => exact ⟨rfl,rfl,rfl⟩
    | ok _ =>
      have other : settles t record = false := by
        rw [settles,of_decide_eq_false quiet |> decide_eq_false,Bool.false_and]
      exact ⟨rfl,by rw [outstandingAfter,other]; rfl,by simp [Standing.after,Window.after,other]⟩
  | _ => exact ⟨rfl,rfl,rfl⟩

theorem fitsAfter {op : Op Context Data} {r : Reply Context Data op} (allowed : (saga call t).allowed s op) (whole : s.faulty = false)
    (fits : Fits stack outstanding s.window) (popped : ∀ step, (⟨op,r⟩ : Event (Reply Context Data)) = ⟨.popSagaStep t,.ok (some step)⟩ → stack ≠ [])
    (absent : ∀ record, op = .createTransaction record → record.transactionId = t → outstanding = []) :
    Fits (stackAfter t stack ⟨op,r⟩) (outstandingAfter t call s outstanding ⟨op,r⟩) (s.after call t ⟨op,r⟩).window := by
  cases quiet : touches t (⟨op,r⟩ : Event (Reply Context Data)) with
  | false =>
    obtain ⟨same,kept,window⟩ := @quietAfter _ _ t call s stack outstanding ⟨op,r⟩ quiet
    rw [same,kept,window]
    exact fits
  | true =>
    obtain ⟨_,allowed⟩ := allowed whole
    cases op with
    | createTransaction record =>
      have here := of_decide_eq_true quiet
      obtain ⟨closed,empty⟩ := allowed here
      have window : (s.after call t ⟨.createTransaction record,r⟩).window = {} := closed
      rw [window,fitsClosed,stackAfter,if_pos here,empty]
      exact (absent record rfl here).symm
    | deleteTransaction id =>
      have here := of_decide_eq_true quiet
      have window : (s.after call t ⟨.deleteTransaction id,r⟩).window = {} := allowed here
      rw [window,fitsClosed,stackAfter,if_pos here,outstandingAfter,if_pos here]
      rfl
    | pushSagaStep id step =>
      have here := of_decide_eq_true quiet
      have closed := allowed here
      rw [closed] at fits
      have window : (s.after call t ⟨.pushSagaStep id step,r⟩).window = { pushed := some step } := by
        simp [Standing.after,Window.after,here,closed]
      rw [window,stackAfter,if_pos here]
      refine ⟨Nat.zero_le _,?_⟩
      rw [List.map_append,fitsClosed.mp fits]
      simp [outstandingAfter]
    | popSagaStep id =>
      rcases r with _ | _ | step
      · cases quiet
      · cases quiet
      · have here := of_decide_eq_true quiet
        subst here
        have none_ := allowed rfl
        have window : (s.after call id ⟨.popSagaStep id,.ok (some step)⟩).window = { s.window with popped := s.window.popped + 1 } := by
          simp [Standing.after,Window.after]
        have nonempty := popped step rfl
        have same := fits.stack
        rw [none_] at same
        simp only [Option.toList_none,List.map_nil,List.append_nil] at same
        have some_ : s.window.popped < outstanding.length := by
          by_contra all
          rw [Nat.sub_eq_zero_of_le (by omega),List.take_zero,List.map_eq_nil_iff] at same
          exact nonempty same
        rw [window,stackAfter,if_pos rfl]
        refine ⟨some_,?_⟩
        rw [List.map_dropLast,same,List.dropLast_eq_take,List.take_take,List.length_take]
        simp only [none_,outstandingAfter,Option.toList_none,List.map_nil,List.append_nil]
        congr 1
        omega
    | updateTransaction record version =>
      cases r with
      | error _ => cases quiet
      | ok _ =>
        cases settling : settles t record with
        | true =>
          have window : (s.after call t ⟨.updateTransaction record version,.ok ()⟩).window = {} := by
            simp [Standing.after,Window.after,settling]
          rw [window,fitsClosed,outstandingAfter,if_pos settling,← allowed settling]
          exact fits.stack
        | false =>
          have window : (s.after call t ⟨.updateTransaction record version,.ok ()⟩).window = s.window := by
            simp [Standing.after,Window.after,settling]
          rw [window,outstandingAfter,if_neg (by simp [settling])]
          exact fits
    | _ => cases quiet

end

section
variable {policy : Nat → Call Context Data} {store : MemoryStateStore} {pool : Workers Context Data}

theorem ledgerSnoc {log : List (Nat × Event (Reply Context Data))} {x : Nat × Event (Reply Context Data)} :
    ledger policy t (log ++ [x]) = (ledger policy t log).after policy t x := by
  simp [ledger]

theorem standingOwn {l : Ledger} {i : Nat} {e : Event (Reply Context Data)} :
    (l.after policy t (i,e)).standings i = (l.standings i).after (policy i) t e := Function.update_self i _ l.standings

theorem standingOther {l : Ledger} {i j : Nat} {e : Event (Reply Context Data)} (other : j ≠ i) :
    (l.after policy t (i,e)).standings j = l.standings j := Function.update_of_ne other _ l.standings

/-- What a run that meets the condition keeps. -/
structure Kept (policy : Nat → Call Context Data) (t : String) (pool : Workers Context Data) : Prop where
  standing : ∀ i w, pool.workers[i]? = some w → (saga (policy i) t).phaseAfter {} w.history = (ledger policy t pool.log).standings i
  unused : ∀ i, pool.workers.length ≤ i → (ledger policy t pool.log).standings i = {}
  whole : ∀ i, ((ledger policy t pool.log).standings i).faulty = false
  clean : ∀ i, ((ledger policy t pool.log).standings i).rejected = true → ((ledger policy t pool.log).standings i).touched = false
  fits : ∀ i, (∀ j ≠ i, ((ledger policy t pool.log).standings j).window = {}) →
    Fits (pool.shared.stack t) (ledger policy t pool.log).outstanding ((ledger policy t pool.log).standings i).window
  absent : pool.shared.getTransaction t = none → (ledger policy t pool.log).outstanding = []

theorem performsPopped {s s' : MemoryStateStore} {op : Op Context Data} {r : Reply Context Data op} {step : SagaStepRecord}
    (performed : Performs s op r s') (popped : (⟨op,r⟩ : Event (Reply Context Data)) = ⟨.popSagaStep t,.ok (some step)⟩) : s.stack t ≠ [] := by
  cases popped
  exact MemoryStateStore.popSome (Except.ok.inj performed.1).symm

theorem performsReplies {s s' : MemoryStateStore} {op : Op Context Data} {r : Reply Context Data op} {call : Call Context Data}
    (performed : Performs s op r s') : (saga call t).replies op r := by
  cases op with
  | getTransaction id =>
    obtain ⟨rfl,_⟩ := performed
    cases found : s.getTransaction id with
    | none => trivial
    | some record =>
      simp only [MemoryStateStore.getTransaction,Option.map_eq_some_iff] at found
      obtain ⟨kept,got,rfl⟩ := found
      exact s.own id kept got
  | _ => trivial

theorem cleanAfter {call : Call Context Data} {s : Standing} {e : Event (Reply Context Data)}
    (allowed : s.rejected = false) (sound : s.faults call t e = false)
    (lost : (s.after call t e).rejected = true) : (s.after call t e).touched = false := by
  have late : stale t e = true := by simpa [Standing.after,allowed] using lost
  have early : s.touched = false := by
    cases touched : s.touched with
    | false => rfl
    | true => simp [Standing.faults,late,touched] at sound
  have still : moves t e = false := by
    obtain ⟨op,r⟩ := e
    cases op <;> first | rfl | cases late
  simp [Standing.after,early,still]

/-- Calls as their workers run them. -/
abbrev Called (t : String) (p : Act Context Data Unit) : Prop := ∃ call : Call Context Data, p = call.program t

theorem conforms (run : Pool.Reaches Performs (Called t) (Meets policy t) { shared := store } pool) (i : Nat) (w)
    (here : pool.workers[i]? = some w) (called : w.call = (policy i).program t) :
    (saga (policy i) t).Obeys (Steps fun s _ => s.Done) ((saga (policy i) t).phaseAfter {} w.history) w.program := by
  refine @Pool.reachesConforms _ _ _ _ _ Performs (Called t) (Meets policy t) _ pool (saga (policy i) t) {}
    (· = (policy i).program t) (Steps fun s _ => s.Done) ?_ (fun _ performed => performsReplies performed) rfl run w (List.mem_of_getElem? here) called
  rintro p _ rfl
  exact callSaga _

theorem keptAct {i : Nat} {call : Act Context Data Unit} {op : Op Context Data} {next} {history} {r shared}
    (kept : Kept policy t pool) (here : pool.workers[i]? = some ⟨call,.ask op next,history⟩) (performed : Performs pool.shared op r shared)
    (fenced : Fenced policy t pool i ⟨op,r⟩) (allowed : (saga (policy i) t).allowed ((ledger policy t pool.log).standings i) op) :
    Kept policy t {
      shared
      workers := pool.workers.set i ⟨call,next r,history ++ [⟨op,r⟩]⟩
      log := pool.log ++ [(i,⟨op,r⟩)] } := by
  have inside := (List.getElem?_eq_some_iff.mp here).1
  have before (j : Nat) (own : j ≠ i) : (ledger policy t (pool.log ++ [(i,⟨op,r⟩)])).standings j = (ledger policy t pool.log).standings j := by
    rw [ledgerSnoc,standingOther own]
  have now : (ledger policy t (pool.log ++ [(i,⟨op,r⟩)])).standings i = ((ledger policy t pool.log).standings i).after (policy i) t ⟨op,r⟩ := by
    rw [ledgerSnoc,standingOwn]
  have outstanding : (ledger policy t (pool.log ++ [(i,⟨op,r⟩)])).outstanding =
      outstandingAfter t (policy i) ((ledger policy t pool.log).standings i) (ledger policy t pool.log).outstanding ⟨op,r⟩ := by
    rw [ledgerSnoc]
    rfl
  refine ⟨fun j w there => ?_,fun j outside => ?_,fun j => ?_,fun j lost => ?_,fun j alone => ?_,fun gone => ?_⟩
  · by_cases own : j = i
    · subst own
      rw [List.getElem?_set_self inside] at there
      cases Option.some.inj there
      rw [Protocol.phaseSnoc,kept.standing j _ here,now]
      rfl
    · rw [List.getElem?_set_ne (Ne.symm own)] at there
      rw [before j own,kept.standing j w there]
  · rw [List.length_set] at outside
    rw [before j (by omega),kept.unused j outside]
  · by_cases own : j = i
    · subst own
      rw [now,Standing.after]
      simp only [kept.whole j,fenced.sound,Bool.or_false]
    · rw [before j own]
      exact kept.whole j
  · by_cases own : j = i
    · subst own
      rw [now] at lost ⊢
      exact cleanAfter (allowed (kept.whole j)).1 fenced.sound lost
    · rw [before j own] at lost ⊢
      exact kept.clean j lost
  · rw [performsStack performed,outstanding]
    cases quiet : touches t (⟨op,r⟩ : Event (Reply Context Data)) with
    | false =>
      obtain ⟨same,still,window⟩ := @quietAfter _ _ t (policy i) ((ledger policy t pool.log).standings i) (pool.shared.stack t)
        (ledger policy t pool.log).outstanding ⟨op,r⟩ quiet
      have windows (k : Nat) : ((ledger policy t (pool.log ++ [(i,⟨op,r⟩)])).standings k).window = ((ledger policy t pool.log).standings k).window := by
        by_cases own : k = i
        · subst own
          rw [now,window]
        · rw [before k own]
      rw [same,still,windows]
      exact kept.fits j (fun k other => (windows k).symm.trans (alone k other))
    | true =>
      have others := fenced.alone quiet
      have fits := fitsAfter allowed (kept.whole i) (kept.fits i others)
        (fun _ popped => performsPopped performed popped)
        (fun record creates own => kept.absent (fenced.absent record creates own))
      by_cases own : j = i
      · subst own
        rw [now]
        exact fits
      · have closed := alone i (Ne.symm own)
        rw [now] at closed
        rw [closed] at fits
        rw [before j own,others j own]
        exact fits
  · rw [outstanding]
    rcases performsGone performed gone with ⟨r',deleted⟩ | ⟨absent,unwritten⟩
    · cases deleted
      exact if_pos rfl
    · have none := kept.absent absent
      rw [none]
      cases op with
      | updateTransaction record version =>
        cases r with
        | error _ => rfl
        | ok u => exact if_neg (by simp [settles,unwritten record version rfl])
      | deleteTransaction id => exact ite_self _
      | _ => rfl

theorem keptRun (run : Pool.Reaches Performs (Called t) (Meets policy t) { shared := store } pool) (empty : store.stack t = [])
    (called : ∀ i w, pool.workers[i]? = some w → w.call = (policy i).program t) : Kept policy t pool := by
  revert called
  refine @Pool.reachesInvariant _ _ _ _ _ _ _ _ _ (fun pool : Workers Context Data =>
    (∀ i w, pool.workers[i]? = some w → w.call = (policy i).program t) → Kept policy t pool) run ?_ ?_
  · intro _
    refine ⟨fun i w here => by simp at here,fun _ _ => rfl,fun _ => rfl,fun _ lost => absurd lost (by simp [ledger]),fun _ _ => ?_,fun _ => rfl⟩
    exact fitsClosed.mpr (by rw [empty]; rfl)
  · intro pool move next before met kept step called
    cases step with
    | @call p called_ =>
      have earlier (i : Nat) (w) (here : pool.workers[i]? = some w) : (pool.workers ++ [⟨p,p,[]⟩])[i]? = some w := by
        rw [List.getElem?_append_left (List.getElem?_eq_some_iff.mp here).1]
        exact here
      have old := kept (fun i w here => called i w (earlier i w here))
      refine ⟨fun i w here => ?_,fun i outside => old.unused i (by simp at outside; omega),old.whole,old.clean,old.fits,old.absent⟩
      rcases Nat.lt_or_ge i pool.workers.length with inside | outside
      · rw [List.getElem?_append_left inside] at here
        exact old.standing i w here
      · rw [List.getElem?_append_right outside] at here
        have last : w = ⟨p,p,[]⟩ := by simpa using List.mem_of_getElem? here
        subst last
        exact (old.unused i outside).symm
    | @act i call op rest history r shared here performed =>
      have inside := (List.getElem?_eq_some_iff.mp here).1
      have earlier (j : Nat) (w) (there : pool.workers[j]? = some w) : w.call = (policy j).program t := by
        by_cases own : i = j
        · subst own
          cases Option.some.inj (here.symm.trans there)
          exact called i ⟨call,rest r,_⟩ (List.getElem?_set_self inside)
        · exact called j w (by rw [List.getElem?_set_ne own]; exact there)
      have old := kept earlier
      have obeys := conforms before i _ here (earlier i _ here)
      rw [old.standing i _ here] at obeys
      exact keptAct old here performed met obeys.1

theorem phaseLost {call : Call Context Data} (history : List (Event (Reply Context Data))) :
    ((saga call t).phaseAfter {} history).rejected = history.any (stale t) ∧
      ((saga call t).phaseAfter {} history).touched = history.any (moves t) := by
  induction history using List.reverseRec with
  | nil => exact ⟨rfl,rfl⟩
  | append_singleton history e ih =>
    rw [Protocol.phaseSnoc,List.any_append,List.any_append,← ih.1,← ih.2]
    simp [saga,Standing.after]

/-- What has to be seen of an event to find it fenced. -/
def fencedCheck (policy : Nat → Call Context Data) (t : String) (pool : Workers Context Data) : Move (Reply Context Data) Stop → Bool
  | .call _ => true
  | .act i e =>
    (!touches t e || pool.log.all (fun x => x.1 = i || decide (((ledger policy t pool.log).standings x.1).window = {}))) &&
      (match e.op with
        | .createTransaction record => record.transactionId ≠ t || (pool.shared.getTransaction t).isNone
        | _ => true) && !((ledger policy t pool.log).standings i).faults (policy i) t e

theorem standingAbsent {log : List (Nat × Event (Reply Context Data))} {j : Nat} (absent : ∀ x ∈ log, x.1 ≠ j) :
    (ledger policy t log).standings j = {} := by
  induction log using List.reverseRec with
  | nil => rfl
  | append_singleton log x ih =>
    rw [ledgerSnoc,standingOther (Ne.symm (absent x (by simp)))]
    exact ih (fun y mem => absent y (by simp [mem]))

theorem fencedSound (pool : Workers Context Data) (move : Move (Reply Context Data) Stop) (checked : fencedCheck policy t pool move = true) :
    Meets policy t pool move := by
  cases move with
  | call p => trivial
  | act i e =>
    simp only [fencedCheck,Bool.and_eq_true,Bool.or_eq_true,Bool.not_eq_true',List.all_eq_true,decide_eq_true_eq] at checked
    obtain ⟨⟨alone,absent⟩,sound⟩ := checked
    refine ⟨fun touched j other => ?_,fun record creates own => ?_,sound⟩
    · by_cases known : ∃ x ∈ pool.log, x.1 = j
      · obtain ⟨x,mem,rfl⟩ := known
        rcases alone with quiet | closed
        · exact absurd (quiet.symm.trans touched) (by decide)
        · exact (closed x mem).resolve_left other
      · rw [standingAbsent (fun x mem same => known ⟨x,mem,same⟩)]
    · rw [creates] at absent
      simpa [own] using absent

/-! The gate is unlocked, and can be locked again. -/

def lockActor : DfsmActor Unit Unit where
  machine := gate
  registry := { gateActor.registry with transitions := [("unlock",{ policy := some { compensateWith := some "relock" } })], compensations := ["relock"] }

def gateStore : MemoryStateStore where
  transactions := [("t",gateRecord)]
  own := by
    intro id record got
    simp only [Keyed.get,List.lookup_cons,List.lookup_nil] at got
    split at got
    · cases got
      exact (beq_iff_eq.mp ‹_›).symm
    · cases got

/-- Every function does as it is asked. -/
def agreeable : Surroundings Unit Unit
  | .getTransaction _ => .ok none
  | .createTransaction _ | .updateTransaction _ _ | .pushSagaStep _ _ | .deleteTransaction _ => .ok ()
  | .getSagaStack _ | .listActiveTransactions _ _ => .ok []
  | .popSagaStep _ => .ok none
  | .nowMs | .timeNow => 0
  | .sleep _ => ()
  | .loadBreaker _ _ => 0
  | .lockBreaker _ _ => ({ policy := ⟨true,5,30000,2⟩ },0)
  | .unlockBreaker _ _ => ()
  | .validate _ _ => .ok (.ok ())
  | .handler _ _ => .ok (.ok {})
  | .compensation _ _ => .ok ()
  | .effect _ _ _ => .ok (.ok ())
  | .hook _ _ => .ok ()
  | .record _ => .ok ()

/-- One opens the gate, the other cleans up. -/
def gateCalls (action : ForceCleanUpAction) : Nat → Call Unit Unit
  | 0 => .transition lockActor listed "open" 20 0 none
  | _ => .forceCleanUp lockActor 20 { action, transactionIds := ["t"] }

def turns (i n : Nat) : List (Pool.Cue (Reply Unit Unit) Stop) := List.replicate n (.turn i)

/-- The clean-up runs once the other call has made so many requests. -/
def gateCues (action : ForceCleanUpAction) (n : Nat) : List (Pool.Cue (Reply Unit Unit) Stop) :=
  .call ((gateCalls action 0).program "t")::.call ((gateCalls action 1).program "t")::(turns 0 n ++ turns 1 6 ++ turns 0 6)

def gatePool (action : ForceCleanUpAction) (n : Nat) : Workers Unit Unit := Pool.play (serve agreeable) (gateCues action n) { shared := gateStore }

def rests : Act Unit Unit Unit → Bool
  | Program.ask _ _ | Program.fail .running => false
  | _ => true

theorem gateRun {meets : Workers Unit Unit → Move (Reply Unit Unit) Stop → Prop} {action : ForceCleanUpAction} {n : Nat}
    (met : Pool.PlayMeets (serve agreeable) meets (gateCues action n) { shared := gateStore }) :
    Pool.Reaches Performs (Called "t") meets { shared := gateStore } (gatePool action n) := by
  refine Pool.reachesPlay (servePerforms agreeable) (fun cue mem p same => ?_) met .start
  subst same
  simp only [gateCues,turns,List.mem_cons,List.mem_append,List.mem_replicate,reduceCtorEq,and_false,or_false] at mem
  rcases mem with mem | mem <;> cases mem <;> exact ⟨_,rfl⟩

theorem gateCalled {action : ForceCleanUpAction} {n : Nat} (i w) (here : (gatePool action n).workers[i]? = some w) :
    w.call = (gateCalls action i).program "t" := by
  have calls := @Pool.playCalls _ _ _ _ (serve agreeable) (gateCues action n) { shared := gateStore }
  have started : (gateCues action n).filterMap Pool.Cue.starts = [(gateCalls action 0).program "t",(gateCalls action 1).program "t"] := by
    simp [gateCues,turns,Pool.Cue.starts]
  have mine := congrArg (fun l => l[i]?) calls
  simp only [started,List.map_nil,List.nil_append,List.getElem?_map] at mine
  rw [show (Pool.play (serve agreeable) (gateCues action n) { shared := gateStore }).workers[i]? = some w from here,Option.map_some] at mine
  rcases i with _ | _ | i
  · exact Option.some.inj mine
  · exact Option.some.inj mine
  · exact absurd mine (by simp)

theorem gateRests (i : Nat) (w : Worker (Reply Unit Unit) Stop) (here : (gatePool .MARK_FAIL 10).workers[i]? = some w) : Resting w.program := by
  have all : ∀ w ∈ (gatePool .MARK_FAIL 10).workers, rests w.program = true := by
    rw [← List.all_eq_true]
    decide +kernel
  have rests := all w (List.mem_of_getElem? here)
  revert rests
  cases w.program with
  | ask op next => exact fun rests => by cases rests
  | done u => exact fun _ => ⟨trivial,fun same => by cases same⟩
  | fail stop =>
    intro rests
    refine ⟨trivial,fun same => ?_⟩
    cases same
    cases rests

end
end Dfsm.Go
