import Dfsm.Rust.Requests
import Dfsm.Rust.Store

/-! Where a call of the Rust SDK stands between its mark and its settling update, and what
it may ask of the store there. -/
namespace Dfsm.Rust
open Protocol Program Act

variable {Context Data : Type}

/-- What a worker runs. -/
inductive Call (Context Data : Type) where
  | transition (a : DfsmActor Context Data) (event : String) (rounds : Nat) (input : Option Data)
  | forceCleanup (a : DfsmActor Context Data) (rounds : Nat) (opts : ForceCleanUpOptions)

/-- A step that can be compensated: the handler that ran, the one that undoes it, and where it began. -/
structure CommittedStep where
  stepName : String
  compensateHandler : String
  fromState : StateValue
  deriving DecidableEq

def SagaStepRecord.step (record : SagaStepRecord) : CommittedStep := ⟨record.stepName,record.compensateHandler,record.fromState⟩

namespace Call

def program (t : String) : Call Context Data → Act Context Data Unit
  | .transition a event rounds input => (a.transition t event rounds input).void
  | .forceCleanup a rounds opts => (a.forceCleanup rounds opts).void

/-- What a transition goes by from a record. -/
def chosen (record : TransactionRecord) : Call Context Data → Option Chosen
  | .transition a event _ _ => (resolveTransitionsForEvent a.machine record.currentState event).head?.map (a.choose event)
  | .forceCleanup _ _ _ => none

/-- The step that it takes, where its merged policy names a compensation. -/
def compensable (record : TransactionRecord) (call : Call Context Data) : Option CommittedStep :=
  (call.chosen record).bind (fun chosen =>
    chosen.policy.compensateWith.map (⟨chosen.handlerName,·,record.currentState⟩))

/-- It is the edge that names it. -/
def named (record : TransactionRecord) (call : Call Context Data) : Bool :=
  (call.chosen record).all (fun chosen => chosen.matched.edge.compensate = chosen.policy.compensateWith)

def finds (handlerName : String) : Call Context Data → Bool
  | .transition a _ _ _ => (a.registry.findCompensate handlerName).isSome
  | .forceCleanup a _ _ => (a.registry.findCompensate handlerName).isSome

end Call

/-- The update with which a call takes the transaction up. -/
def marks (t : String) (record : TransactionRecord) : Bool := record.transactionId = t && record.status = .IN_FLIGHT

/-- The update with which it ends its work on it. -/
def settles (t : String) (record : TransactionRecord) : Bool := record.transactionId = t && record.status != .IN_FLIGHT

/-- Steps of the call on the stack, and off it, that no update has committed yet; those
among the latter whose compensation is not registered. -/
structure Window where
  pushed : Option SagaStepRecord := none
  popped : Nat := 0
  stranded : List CommittedStep := []
  deriving DecidableEq

def Window.pop (w : Window) (call : Call Context Data) (step : SagaStepRecord) : Window :=
  { w with popped := w.popped + 1, stranded := if call.finds step.compensateHandler then w.stranded else step.step::w.stranded }

/-- Where a call stands: what it has read of the transaction, the record it has marked and
not settled, and how its handler has ended. -/
structure Standing where
  reads : List TransactionRecord := []
  marked : Option TransactionRecord := none
  failed : Bool := false
  window : Window := {}
  rejected : Bool := false

/-- In no step, and with nothing moved that is not committed. -/
abbrev Standing.Free (s : Standing) : Prop := s.marked = none ∧ s.window = {}

def Standing.after (call : Call Context Data) (t : String) (s : Standing) : Event (Reply Context Data) → Standing
  | ⟨.getTransaction id,.ok (some record)⟩ => if id = t then { s with reads := s.reads ++ [record] } else s
  | ⟨.listActiveTransactions _ _,.ok found⟩ => { s with reads := s.reads ++ found.filter (·.transactionId = t) }
  | ⟨.createTransaction record,.ok _⟩ => if record.transactionId = t then { s with reads := s.reads ++ [record] } else s
  | ⟨.updateTransaction record _,.ok _⟩ =>
    if marks t record then { s with marked := some record, failed := false }
    else if settles t record then { s with marked := none, window := {} } else s
  | ⟨.updateTransaction record _,.error _⟩ => if settles t record then { s with rejected := true } else s
  | ⟨.handler _ _,.ok _⟩ => { s with failed := false }
  | ⟨.handler _ _,.error _⟩ => { s with failed := true }
  | ⟨.pushSagaStep id step,_⟩ => if id = t then { s with window := { s.window with pushed := some step } } else s
  | ⟨.popSagaStep id,.ok (some step)⟩ => if id = t then { s with window := s.window.pop call step } else s
  | _ => s

/-- What the settling update of a step commits. -/
def Standing.commits (call : Call Context Data) (s : Standing) : List CommittedStep :=
  if s.failed then [] else (s.marked.bind (call.compensable ·)).toList

/-- A breaker that is open refuses a call. -/
def refuses : Event (Reply Context Data) → Bool
  | ⟨.lockBreaker _ .beforeExecution,reply⟩ => (reply.1.beforeExecution reply.2).2.isSome
  | _ => false

/-- A step is popped whose compensation is not registered. -/
def strands (call : Call Context Data) : Event (Reply Context Data) → Bool
  | ⟨.popSagaStep _,.ok (some step)⟩ => !call.finds step.compensateHandler
  | _ => false

/-- A step is marked whose compensation the edge does not name itself. -/
def misnames (call : Call Context Data) (t : String) : Event (Reply Context Data) → Bool
  | ⟨.updateTransaction record _,.ok _⟩ => marks t record && !call.named record
  | _ => false

/-- A step moves the stack between its mark and its settling update, by the step that the
update commits or off steps; a clean-up only takes steps off, and settles a record it has read. -/
def saga (call : Call Context Data) (t : String) : Protocol (Reply Context Data) Standing where
  allowed s op := s.rejected = false ∧ match op with
    | .getTransaction _ | .listActiveTransactions _ _ => s.Free
    | .createTransaction record => record.transactionId = t → s.Free
    | .updateTransaction record expectedVersion => (marks t record = true → s.Free ∧ s.reads ≠ []) ∧
        (settles t record = true → match s.marked with
          | some marked => expectedVersion = marked.version ∧ s.window.pushed.toList.map (·.step) = s.commits call
          | none => s.window.pushed = none ∧ s.commits call = [] ∧ ∃ r ∈ s.reads, r.version = expectedVersion)
    | .pushSagaStep id _ => id = t → s.marked.isSome ∧ s.window = {}
    | .popSagaStep id => id = t → s.window.pushed = none ∧ (s.marked = none → s.reads ≠ [])
    | .deleteTransaction id => id = t → s.Free
    | _ => True
  replies op r := refuses ⟨op,r⟩ = false ∧ strands call ⟨op,r⟩ = false ∧ misnames call t ⟨op,r⟩ = false ∧ match op, r with
    | .getTransaction id, .ok (some record) => record.transactionId = id
    | .pushSagaStep _ _, .error _ | .getSagaStack _, .error _ | .popSagaStep _, .error _ => False
    | _, _ => True
  after s op r := s.after call t ⟨op,r⟩

section
variable {call : Call Context Data} {t : String} {s : Standing} {α β : Type}

/-- Where the call ends with an error, its step is settled or the update was rejected. -/
abbrev Settled (s : Standing) (stop : Stop) : Prop := stop ≠ .running → s.rejected = true ∨ s.Free

abbrev Steps (good : Standing → α → Prop) : Standing → Except Stop α → Prop := Protocol.Outcome good Settled

/-- What says nothing of the transaction. -/
def Op.Aside : Op Context Data → Prop
  | .getTransaction _ | .listActiveTransactions _ _ | .createTransaction _ | .updateTransaction _ _ | .handler _ _ | .pushSagaStep _ _
  | .popSagaStep _ | .deleteTransaction _ | .lockBreaker _ .beforeExecution => False
  | _ => True

theorem asideKeeps {op : Op Context Data} (aside : op.Aside) (r : Reply Context Data op) : s.after call t ⟨op,r⟩ = s := by
  cases op <;> first | rfl | cases aside

theorem asideObeys {p : Act Context Data α} (asks : p.Asks Op.Aside) (fresh : s.rejected = false) :
    (saga call t).Obeys (fun s' _ => s' = s) s p := by
  refine @obeysAsks _ _ _ _ _ (saga call t) s Op.Aside (· = s) p asks ?_ rfl
  intro s' op same aside
  rw [same]
  refine ⟨⟨fresh,?_⟩,fun r _ => asideKeeps aside r⟩
  cases op <;> trivial

theorem asideThen {good : Standing → β → Prop} {p : Act Context Data α} {k : α → Act Context Data β} (asks : p.Asks Op.Aside)
    (fresh : s.rejected = false) (free : s.Free) (rest : ∀ x, (saga call t).Obeys (Steps good) s (k x)) :
    (saga call t).Obeys (Steps good) s (p >>= k) := by
  refine obeysBind (obeysMono (asideObeys asks fresh) (fun s' r same => ?_))
  subst same
  cases r with
  | ok x => exact rest x
  | error stop => exact fun _ => .inr free

theorem asideAsk {good : Standing → β → Prop} {op : Op Context Data} {k : Reply Context Data op → Act Context Data β} (aside : op.Aside)
    (fresh : s.rejected = false) (rest : ∀ r, (saga call t).Obeys (Steps good) s (k r)) :
    (saga call t).Obeys (Steps good) s (ask op >>= k) := by
  refine obeysAsk ⟨fresh,?_⟩ (fun r _ => ?_)
  · cases op <;> trivial
  · have kept : (saga call t).after s op r = s := asideKeeps aside r
    rw [kept]
    exact rest r

theorem asideWhole {good : Standing → β → Prop} {p : Act Context Data α} {k : α → Act Context Data β} (finishes : p.Finishes Op.Aside)
    (fresh : s.rejected = false) (rest : ∀ x, (saga call t).Obeys (Steps good) s (k x)) :
    (saga call t).Obeys (Steps good) s (p >>= k) := by
  refine obeysFinishes finishes (fun op aside => ⟨⟨fresh,?_⟩,asideKeeps aside⟩) rest
  cases op <;> trivial

theorem exceptSaga {good : Standing → β → Prop} {x : Except Stop α} {k : α → Act Context Data β}
    (stops : ∀ stop, x = .error stop → Settled s stop) (rest : ∀ v, x = .ok v → (saga call t).Obeys (Steps good) s (k v)) :
    (saga call t).Obeys (Steps good) s (.ofExcept x >>= k) := by
  cases x with
  | error stop => exact stops stop rfl
  | ok v => exact rest v rfl

theorem returnSaga {good : Standing → β → Prop} {x : Except DfsmError α} {k : α → Act Context Data β}
    (stops : ∀ e, x = .error e → s.rejected = true ∨ s.Free) (rest : ∀ v, x = .ok v → (saga call t).Obeys (Steps good) s (k v)) :
    (saga call t).Obeys (Steps good) s (orReturn x >>= k) := by
  cases x with
  | error e => exact fun _ => stops e rfl
  | ok v => exact rest v rfl

/-- In its step, with the stack moved by as much. -/
structure Standing.In (record : TransactionRecord) (failed : Bool) (window : Window) (s : Standing) : Prop where
  marked : s.marked = some record
  tried : s.failed = failed
  moved : s.window = window
  fresh : s.rejected = false

variable {record : TransactionRecord} {failed : Bool} {window : Window} {a : DfsmActor Context Data} {event : String}

theorem hooksFinish {hookType : HookType} {payload : HookEvent} : (a.fireHook hookType payload).Finishes Op.Aside :=
  finishesFold (fun _ h => (show (ask (.hook h payload) : Act Context Data Unit).Finishes Op.Aside from ⟨trivial,fun _ => trivial⟩)) _ _

theorem loadFinishes {chosen : Chosen} : (DfsmActor.loadBreaker chosen : Act Context Data (Option Nat)).Finishes Op.Aside := by
  unfold DfsmActor.loadBreaker
  split
  · trivial
  · split
    · exact ⟨trivial,fun _ => trivial⟩
    · trivial

theorem successFinishes {breaker : Option Nat} : (DfsmActor.onSuccess breaker : Act Context Data Unit).Finishes Op.Aside := by
  cases breaker with
  | none => trivial
  | some breaker => exact ⟨trivial,fun _ => ⟨trivial,fun _ => trivial⟩⟩

theorem failureFinishes {breaker : Option Nat} : (DfsmActor.onFailure breaker : Act Context Data Unit).Finishes Op.Aside := by
  cases breaker with
  | none => trivial
  | some breaker => exact ⟨trivial,fun _ => ⟨trivial,fun _ => trivial⟩⟩

theorem beforeThen {good : Standing → β → Prop} {handlerName : String} {breaker : Option Nat} {k : Unit → Act Context Data β}
    (fresh : s.rejected = false) (rest : (saga call t).Obeys (Steps good) s (k ())) :
    (saga call t).Obeys (Steps good) s (DfsmActor.beforeExecution handlerName breaker >>= k) := by
  cases breaker with
  | none => exact rest
  | some breaker =>
    unfold DfsmActor.beforeExecution
    refine ⟨⟨fresh,trivial⟩,?_⟩
    rintro ⟨cb,now⟩ ⟨passed,_⟩
    refine ⟨⟨fresh,trivial⟩,fun _ _ => ?_⟩
    have open_ : (cb.beforeExecution now).2 = none := by simpa [refuses] using passed
    rw [open_]
    exact rest

theorem attemptSaga {breaker : Option Nat} {name : String} {request : TransitionCall Context Data} {carried : Carried Context} (left : Nat) :
    ∀ {made : Nat} {lastErr : Option DfsmError} {s : Standing}, s.In record lastErr.isSome {} →
      (saga call t).Obeys (Steps fun s (tried : Tried Context Data) => s.In record tried.lastErr.isSome {}) s
        (a.attemptLoop breaker name request carried left made lastErr) := by
  induction left with
  | zero => intro made lastErr s going; exact going
  | succ left ih =>
    intro made lastErr s going
    rw [DfsmActor.attemptLoop]
    refine obeysAsk ⟨going.fresh,trivial⟩ (fun r _ => ?_)
    cases r with
    | ok output =>
      have tried : (s.after call t ⟨.handler name request,.ok output⟩).In record false {} := ⟨going.marked,rfl,going.moved,going.fresh⟩
      exact asideWhole successFinishes going.fresh (fun _ => tried)
    | error e =>
      have tried : (s.after call t ⟨.handler name request,.error e⟩).In record (some e).isSome {} := ⟨going.marked,rfl,going.moved,going.fresh⟩
      refine asideWhole failureFinishes going.fresh (fun _ => ?_)
      split
      · exact asideAsk trivial going.fresh (fun _ => ih tried)
      · exact ih tried

theorem executeSaga {input : Option Data} {chosen : Chosen} {breaker : Option Nat} {carried : Carried Context} {currentState : StateValue}
    (going : s.In record false {}) :
    (saga call t).Obeys (Steps fun s (tried : Tried Context Data) => s.In record tried.lastErr.isSome {}) s
      (a.executeHandler t event input chosen breaker carried currentState) := by
  unfold DfsmActor.executeHandler
  split
  · exact beforeThen going.fresh (attemptSaga _ going)
  · exact going

theorem inCommits (going : s.In record failed window) : s.commits call = if failed then [] else (call.compensable record).toList := by
  rw [Standing.commits,going.tried,going.marked]
  rfl

abbrev Standing.Done (s : Standing) : Prop := s.Free ∧ s.rejected = false

theorem settleThen {good : Standing → β → Prop} {committed : TransactionRecord} {k : Unit → Act Context Data β}
    (going : s.In record failed window) (settling : settles t committed = true)
    (commits : window.pushed.toList.map (·.step) = if failed then [] else (call.compensable record).toList)
    (rest : ∀ s', s'.Done → (saga call t).Obeys (Steps good) s' (k ())) :
    (saga call t).Obeys (Steps good) s (ask (.updateTransaction committed record.version) >>= fun r => orReturn r >>= k) := by
  have plain : marks t committed = false := by
    simp only [settles,marks,Bool.and_eq_true,decide_eq_true_eq,bne_iff_ne] at settling ⊢
    simp [settling.2]
  refine obeysAsk ⟨going.fresh,⟨fun mark => absurd (mark.symm.trans plain) (by decide),fun _ => ?_⟩⟩ (fun r _ => ?_)
  · rw [going.marked,going.moved]
    exact ⟨rfl,by rw [inCommits going]; exact commits⟩
  · cases r with
    | ok u => exact rest _ ⟨by simp [saga,Standing.after,Standing.Free,plain,settling],by simp [saga,Standing.after,plain,settling,going.fresh]⟩
    | error e => exact fun _ => .inl (by simp [saga,Standing.after,settling])

theorem pushSaga {input : Option Data} {chosen : Chosen} {prevState targetState : StateValue} {originalCtxJson : String}
    (going : s.In record false {}) :
    (saga call t).Obeys (Steps fun s _ => ∃ window, s.In record false window ∧ window.pushed.toList.map (·.step) =
        (chosen.matched.edge.compensate.map (⟨chosen.handlerName,·,prevState⟩)).toList) s
      (a.pushStep t input chosen prevState targetState originalCtxJson) := by
  unfold DfsmActor.pushStep
  cases chosen.matched.edge.compensate with
  | none => exact ⟨{},going,rfl⟩
  | some compName =>
    refine asideAsk trivial going.fresh (fun stamp => asideAsk trivial going.fresh (fun timestamp => ?_))
    refine obeysAsk ⟨going.fresh,fun _ => ⟨by rw [going.marked]; rfl,going.moved⟩⟩ (fun r possible => ?_)
    cases r with
    | error e => exact possible.2.2.2.elim
    | ok _ =>
      refine ⟨_,⟨?_,?_,rfl,?_⟩,?_⟩ <;> simp only [saga,Standing.after,if_true]
      · exact going.marked
      · exact going.tried
      · exact going.fresh
      · rfl

end

section
variable {a : DfsmActor Context Data} {event t : String} {rounds depth : Nat} {input : Option Data} {s : Standing}
  {record : TransactionRecord} {matched : MatchedTransition} {rest : List MatchedTransition}

theorem chosenOf (found : resolveTransitionsForEvent a.machine record.currentState event = matched::rest) :
    (Call.transition a event rounds input).chosen record = some (a.choose event matched) := by
  rw [Call.chosen,found]
  rfl

theorem notifiesAside (op : Op Context Data) (notifies : op.Notifies) : op.Aside := by
  cases op <;> trivial

theorem settledSettles {committed : TransactionRecord} (own : committed.transactionId = t) (final : committed.status ≠ .IN_FLIGHT) :
    settles t committed = true := by
  simp [settles,own,final]

theorem settledFinal (currentState : StateValue) : a.settledStatus currentState ≠ .IN_FLIGHT := by
  unfold DfsmActor.settledStatus
  split
  · split <;> decide
  · decide

theorem succeedSaga {durationMs : Int} {tried : Tried Context Data} (own : record.transactionId = t)
    (found : resolveTransitionsForEvent a.machine record.currentState event = matched::rest)
    (named : (Call.transition a event rounds input).named record = true) (going : s.In record false {}) :
    (saga (.transition a event rounds input) t).Obeys (Steps fun s _ => s.Done) s
      (a.succeed t event rounds depth input durationMs (a.choose event matched) record tried) := by
  rw [Call.named,chosenOf found,Option.all_some,decide_eq_true_eq] at named
  unfold DfsmActor.succeed
  refine obeysThen _ (pushSaga going) ?_
  rintro s _ ⟨window,going,pushed⟩
  refine exceptSaga (fun stop cascades returns => ?_) (fun settled _ => asideAsk trivial going.fresh (fun updatedAt => ?_))
  · have loops (rounds : Nat) : ∀ {v : StateValue}, a.cascadeOnDone rounds v = .error stop → stop = .running := by
      induction rounds with
      | zero => exact fun h => (Except.error.inj h).symm
      | succ rounds ih =>
        intro v h
        rw [DfsmActor.cascadeOnDone] at h
        split at h
        · cases h
        · split at h
          · cases h
          · exact ih h
    exact absurd (loops _ cascades) returns
  · refine settleThen going (settledSettles own (settledFinal settled)) ?_ ?_
    · rw [pushed,Call.compensable,chosenOf found,named]
      rfl
    · intro s done
      refine asideAsk trivial done.2 (fun _ => ?_)
      exact asideThen (asksMono successNotifies notifiesAside) done.2 done.1 (fun _ => done)

variable {call : Call Context Data}

theorem compensateFinishes {step : SagaStepRecord} {carried : Carried Context} : (a.compensateStep t step carried).Finishes Op.Aside := by
  unfold DfsmActor.compensateStep
  split
  · trivial
  · refine ⟨trivial,fun _ => ?_⟩
    split
    · trivial
    · split <;> trivial

/-- Steps that a failed step has taken off the stack. -/
abbrev Unwinding (record : TransactionRecord) (s : Standing) : Prop := ∃ window, s.In record true window ∧ window.pushed = none

theorem unwindSaga (remaining : Nat) : ∀ {s : Standing} {carried : Carried Context} {compensated : Nat}, Unwinding record s →
    (saga call t).Obeys (Steps fun s _ => Unwinding record s) s (a.unwind t remaining carried compensated) := by
  induction remaining with
  | zero => intro s carried compensated unwinding; exact unwinding
  | succ remaining ih =>
    rintro s carried compensated ⟨window,going,none_⟩
    rw [DfsmActor.unwind]
    refine obeysAsk ⟨going.fresh,fun _ => ⟨by rw [going.moved,none_],fun free => absurd (going.marked.symm.trans free) (by simp)⟩⟩
      (fun r possible => ?_)
    rcases r with e | _ | step
    · exact possible.2.2.2.elim
    · exact ⟨window,going,none_⟩
    · have next : Unwinding record (s.after call t ⟨.popSagaStep t,.ok (some step)⟩) := by
        have after : s.after call t ⟨.popSagaStep t,.ok (some step)⟩ = { s with window := s.window.pop call step } := if_pos rfl
        rw [after]
        exact ⟨_,⟨going.marked,going.tried,rfl,going.fresh⟩,by rw [Window.pop,going.moved,none_]⟩
      have fresh : (s.after call t ⟨.popSagaStep t,.ok (some step)⟩).rejected = false := by
        obtain ⟨_,going,_⟩ := next
        exact going.fresh
      refine returnSaga (fun e same => by cases same) (fun popped same => ?_)
      cases same
      exact asideWhole compensateFinishes fresh (fun _ => asideWhole hooksFinish fresh (fun _ => ih next))

theorem rollBackSaga {rollback : Bool} {carried : Carried Context} (unwinding : Unwinding record s) :
    (saga call t).Obeys (Steps fun s _ => Unwinding record s) s (a.rollBack t rollback carried) := by
  unfold DfsmActor.rollBack
  split
  · have fresh : s.rejected = false := by
      obtain ⟨_,going,_⟩ := unwinding
      exact going.fresh
    refine obeysAsk ⟨fresh,trivial⟩ (fun r possible => ?_)
    cases r with
    | error e => exact possible.2.2.2.elim
    | ok stack => exact unwindSaga _ unwinding
  · exact unwinding

theorem failSaga {durationMs : Int} {tried : Tried Context Data} {lastErr : DfsmError} {chosen : Chosen} (own : record.transactionId = t)
    (going : s.In record true {}) :
    (saga call t).Obeys (Steps fun s _ => s.Done) s (a.fail t event durationMs chosen record tried lastErr) := by
  unfold DfsmActor.fail
  refine asideAsk trivial going.fresh (fun _ => ?_)
  refine obeysThen _ (rollBackSaga ⟨{},going,rfl⟩) ?_
  rintro s _ ⟨window,going,none_⟩
  refine asideAsk trivial going.fresh (fun updatedAt => ?_)
  refine settleThen going (settledSettles own ?_) (by rw [none_]; rfl) ?_
  · dsimp only
    split <;> decide
  · exact fun s done => asideWhole hooksFinish done.2 (fun _ => done)

theorem stepSaga (own : record.transactionId = t)
    (found : resolveTransitionsForEvent a.machine record.currentState event = matched::rest)
    (named : (Call.transition a event rounds input).named record = true) (going : s.In record false {}) :
    (saga (.transition a event rounds input) t).Obeys (Steps fun s _ => s.Done) s
      (a.execute t event rounds depth input (a.choose event matched) record) := by
  unfold DfsmActor.execute
  refine asideWhole loadFinishes going.fresh (fun breaker => asideAsk trivial going.fresh (fun startTime => ?_))
  refine obeysThen _ (executeSaga going) (fun s tried going => asideAsk trivial going.fresh (fun ended => ?_))
  cases outcome : tried.lastErr with
  | none =>
    rw [outcome] at going
    exact succeedSaga own found named going
  | some lastErr =>
    rw [outcome] at going
    exact failSaga own going

/-- Before the mark. -/
structure Standing.Read (s : Standing) : Prop where
  free : s.Free
  fresh : s.rejected = false
  some_ : s.reads ≠ []

theorem markSaga (read : s.Read) (own : record.transactionId = t) :
    (saga call t).Obeys (Steps fun s marked => marked.transactionId = t ∧ marked.currentState = record.currentState ∧
        call.named marked = true ∧ s.In marked false {}) s
      (DfsmActor.markInFlight record : Act Context Data TransactionRecord) := by
  unfold DfsmActor.markInFlight
  refine asideAsk trivial read.fresh (fun updatedAt => obeysAsk ⟨read.fresh,⟨fun _ => ⟨read.free,read.some_⟩,?_⟩⟩ (fun r possible => ?_))
  · exact fun settles_ => by simp [settles] at settles_
  · have mark : marks t { record with status := .IN_FLIGHT, updatedAt, version := record.version + 1 } = true := by
      simp [marks,own]
    cases r with
    | error e =>
      refine fun _ => .inr ?_
      simpa [saga,Standing.after,settles] using read.free
    | ok _ =>
      refine ⟨own,rfl,?_,?_,?_,?_,?_⟩
      · have named := possible.2.2.1
        simpa [misnames,mark] using named
      all_goals simp only [saga,Standing.after,mark,if_true]
      · exact read.free.2
      · exact read.fresh

theorem loadSaga (free : s.Free) (fresh : s.rejected = false) :
    (saga call t).Obeys (Steps fun s record => s.Read ∧ record.transactionId = t) s (a.loadOrCreate t event depth) := by
  unfold DfsmActor.loadOrCreate
  refine obeysAsk ⟨fresh,free⟩ (fun r possible => ?_)
  rcases r with e | _ | record
  · exact fun _ => .inr free
  · show (saga call t).Obeys _ s (a.create t event depth)
    unfold DfsmActor.create
    refine asideAsk trivial fresh (fun now => obeysAsk ⟨fresh,fun _ => free⟩ (fun r _ => ?_))
    cases r with
    | error e => exact fun _ => .inr free
    | ok _ =>
      refine returnSaga (fun e same => by cases same) (fun _ _ => ?_)
      generalize created : ({ transactionId := t, machineId := _, currentState := _, status := _, contextJson := _, version := _, createdAt := _, updatedAt := _ } : TransactionRecord) = record
      have own : record.transactionId = t := by rw [← created]
      have after : s.after call t ⟨.createTransaction record,.ok ()⟩ = { s with reads := s.reads ++ [record] } := if_pos own
      have read : (s.after call t ⟨.createTransaction record,.ok ()⟩).Read := by
        rw [after]
        exact ⟨free,fresh,by simp⟩
      refine asideWhole hooksFinish read.fresh (fun _ => ?_)
      exact asideThen (asksMono effectsNotify notifiesAside) read.fresh read.free (fun _ => ⟨read,own⟩)
  · have own : record.transactionId = t := possible.2.2.2
    have after : s.after call t ⟨.getTransaction t,.ok (some record)⟩ = { s with reads := s.reads ++ [record] } := if_pos rfl
    show (s.after call t ⟨.getTransaction t,.ok (some record)⟩).Read ∧ record.transactionId = t
    rw [after]
    exact ⟨⟨free,fresh,by simp⟩,own⟩

theorem transitionSaga : (saga (.transition a event rounds input) t).Obeys (Steps fun s _ => s.Done) {}
    (a.transition t event rounds input) := by
  unfold DfsmActor.transition DfsmActor.transitionInternal
  split
  · exact fun _ => .inr ⟨rfl,rfl⟩
  · refine obeysThen _ (loadSaga ⟨rfl,rfl⟩ rfl) ?_
    rintro s record ⟨read,own⟩
    unfold DfsmActor.transitionOn
    split
    · exact fun _ => .inr read.free
    · split
      · exact fun _ => .inr read.free
      · rename_i matched rest found
        refine asideWhole hooksFinish read.fresh (fun _ => ?_)
        refine obeysThen _ (markSaga read own) ?_
        rintro s marked ⟨own,same,named,going⟩
        exact stepSaga own (by rw [same]; exact found) named going

end

/-! Clean-up. -/

section
variable {a : DfsmActor Context Data} {t : String} {rounds : Nat} {opts : ForceCleanUpOptions} {s : Standing} {record : TransactionRecord}
  {now : Int} {known : List TransactionRecord}

/-- Between two requests of a clean-up that knows some records of the transaction. -/
structure Standing.Sweeps (known : List TransactionRecord) (window : Window) (s : Standing) : Prop where
  reads : s.reads = known
  still : s.marked = none
  moved : s.window = window
  fresh : s.rejected = false

theorem cleanupCommits : s.commits (.forceCleanup a rounds opts) = [] := by
  rw [Standing.commits]
  split
  · rfl
  · cases s.marked <;> rfl

theorem endSaga {status : TransactionStatus} {currentState : StateValue} {window : Window} (sweeps : s.Sweeps known window)
    (none_ : window.pushed = none) (own : window ≠ {} → record.transactionId = t) (member : record.transactionId = t → record ∈ known)
    (final : status ≠ .IN_FLIGHT) :
    (saga (.forceCleanup a rounds opts) t).Obeys (Steps fun s _ => s.Sweeps known {}) s
      (DfsmActor.endWith record now status currentState : Act Context Data Unit) := by
  unfold DfsmActor.endWith
  have plain : marks t { record with status, currentState, updatedAt := now, version := record.version + 1 } = false := by
    simp [marks,final]
  refine obeysAsk ⟨sweeps.fresh,⟨fun mark => absurd (mark.symm.trans plain) (by decide),fun settling => ?_⟩⟩ (fun r _ => ?_)
  · rw [sweeps.still,sweeps.moved,sweeps.reads]
    have here : record.transactionId = t := by
      simp only [settles,Bool.and_eq_true,decide_eq_true_eq] at settling
      exact settling.1
    exact ⟨none_,cleanupCommits,record,member here,rfl⟩
  · by_cases here : record.transactionId = t
    · have settling : settles t { record with status, currentState, updatedAt := now, version := record.version + 1 } = true :=
        settledSettles here final
      cases r with
      | ok _ =>
        refine ⟨?_,?_,?_,?_⟩ <;> simp only [saga,Standing.after,plain,settling,if_true,Bool.false_eq_true,if_false]
        · exact sweeps.reads
        · exact sweeps.fresh
      | error e => exact fun _ => .inl (by simp [saga,Standing.after,settling])
    · have closed : window = {} := by
        by_contra some_
        exact here (own some_)
      have other : settles t { record with status, currentState, updatedAt := now, version := record.version + 1 } = false := by
        simp [settles,here]
      cases r with
      | ok _ =>
        refine ⟨?_,?_,?_,?_⟩ <;> simp only [saga,Standing.after,plain,other,Bool.false_eq_true,if_false]
        · exact sweeps.reads
        · exact sweeps.still
        · exact sweeps.moved.trans closed
        · exact sweeps.fresh
      | error e =>
        refine fun _ => .inr ?_
        simp only [saga,Standing.after,other,Bool.false_eq_true,if_false]
        exact ⟨sweeps.still,sweeps.moved.trans closed⟩

/-- Only steps of the transaction itself count. -/
abbrev Sweeping (t : String) (known : List TransactionRecord) (record : TransactionRecord) (s : Standing) : Prop :=
  ∃ window, s.Sweeps known window ∧ window.pushed = none ∧ (window ≠ {} → record.transactionId = t)

variable {call : Call Context Data}

theorem sweepPop {step : SagaStepRecord} (sweeping : Sweeping t known record s) :
    Sweeping t known record (s.after call t ⟨.popSagaStep record.transactionId,.ok (some step)⟩) := by
  obtain ⟨window,sweeps,none_,own⟩ := sweeping
  by_cases here : record.transactionId = t
  · have after : s.after call t ⟨.popSagaStep record.transactionId,.ok (some step)⟩ = { s with window := s.window.pop call step } := if_pos here
    rw [after]
    exact ⟨_,⟨sweeps.reads,sweeps.still,rfl,sweeps.fresh⟩,by rw [Window.pop,sweeps.moved,none_],fun _ => here⟩
  · have kept : s.after call t ⟨.popSagaStep record.transactionId,.ok (some step)⟩ = s := if_neg here
    rw [kept]
    exact ⟨window,sweeps,none_,own⟩

theorem sweepingFresh (sweeping : Sweeping t known record s) : s.rejected = false := by
  obtain ⟨_,sweeps,_⟩ := sweeping
  exact sweeps.fresh

theorem compensateAllSaga (member : record.transactionId = t → record ∈ known) (rounds' : Nat) :
    ∀ {s : Standing}, Sweeping t known record s →
      (saga call t).Obeys (Steps fun s _ => Sweeping t known record s) s (a.compensateAll record rounds') := by
  induction rounds' with
  | zero => exact fun _ returns => absurd rfl returns
  | succ rounds' ih =>
    intro s sweeping
    have allowed : record.transactionId = t → s.window.pushed = none ∧ (s.marked = none → s.reads ≠ []) := by
      obtain ⟨window,sweeps,none_,_⟩ := sweeping
      intro here
      exact ⟨by rw [sweeps.moved,none_],fun _ => by rw [sweeps.reads]; exact List.ne_nil_of_mem (member here)⟩
    rw [DfsmActor.compensateAll]
    refine obeysAsk ⟨sweepingFresh sweeping,allowed⟩ (fun r possible => ?_)
    rcases r with e | _ | step
    · exact possible.2.2.2.elim
    · exact sweeping
    · have next : Sweeping t known record (s.after call t ⟨.popSagaStep record.transactionId,.ok (some step)⟩) := sweepPop sweeping
      refine returnSaga (fun e same => by cases same) (fun popped same => ?_)
      cases same
      dsimp only
      split
      · exact asideAsk trivial (sweepingFresh next) (fun _ => ih next)
      · exact ih next

theorem processSaga {action : ForceCleanUpAction} (sweeps : s.Sweeps known {}) (member : record.transactionId = t → record ∈ known) :
    (saga (.forceCleanup a rounds opts) t).Obeys (Steps fun s _ => s.Sweeps known {}) s (a.processOne rounds action now record) := by
  unfold DfsmActor.processOne
  cases action with
  | Delete =>
    refine obeysAsk ⟨sweeps.fresh,fun _ => ⟨sweeps.still,sweeps.moved⟩⟩ (fun r _ => ?_)
    cases r with
    | error e => exact fun _ => .inr ⟨sweeps.still,sweeps.moved⟩
    | ok _ => exact sweeps
  | MarkFail => exact endSaga sweeps rfl (fun some_ => absurd rfl some_) member (by decide)
  | Compensate =>
    refine obeysThen _ (compensateAllSaga member rounds ⟨{},sweeps,rfl,fun some_ => absurd rfl some_⟩) ?_
    rintro s _ ⟨window,sweeps,none_,own⟩
    exact endSaga sweeps none_ own member (by decide)
  | Continue => exact endSaga sweeps rfl (fun some_ => absurd rfl some_) member (by decide)

/-- Nothing has been done but to read. -/
structure Standing.Reading (s : Standing) : Prop where
  still : s.marked = none
  moved : s.window = {}
  fresh : s.rejected = false

/-- The records that a call has gathered are among those it has read. -/
abbrev Gathered (t : String) (s : Standing) (records : List TransactionRecord) : Prop :=
  s.Reading ∧ ∀ r ∈ records, r.transactionId = t → r ∈ s.reads

theorem readSaga (ids : List String) : ∀ {s : Standing}, s.Reading →
    (saga call t).Obeys (Steps fun s' records => Gathered t s' records ∧ ∀ r ∈ s.reads, r ∈ s'.reads) s
      (DfsmActor.readCandidates ids : Act Context Data (List TransactionRecord)) := by
  induction ids with
  | nil => exact fun reading => ⟨⟨reading,by simp⟩,fun _ mem => mem⟩
  | cons id rest ih =>
    intro s reading
    rw [DfsmActor.readCandidates]
    refine obeysAsk ⟨reading.fresh,⟨reading.still,reading.moved⟩⟩ (fun r possible => ?_)
    rcases r with e | _ | record
    · exact fun _ => .inr ⟨reading.still,reading.moved⟩
    · exact ih reading
    · have next : (s.after call t ⟨.getTransaction id,.ok (some record)⟩).Reading ∧
          (∀ r ∈ s.reads, r ∈ (s.after call t ⟨.getTransaction id,.ok (some record)⟩).reads) ∧
          (id = t → record ∈ (s.after call t ⟨.getTransaction id,.ok (some record)⟩).reads) := by
        by_cases here : id = t
        · have after : s.after call t ⟨.getTransaction id,.ok (some record)⟩ = { s with reads := s.reads ++ [record] } := if_pos here
          rw [after]
          exact ⟨⟨reading.still,reading.moved,reading.fresh⟩,fun r mem => List.mem_append_left _ mem,fun _ => List.mem_append_right _ List.mem_cons_self⟩
        · have kept : s.after call t ⟨.getTransaction id,.ok (some record)⟩ = s := if_neg here
          rw [kept]
          exact ⟨reading,fun r mem => mem,fun same => absurd same here⟩
      obtain ⟨reading,kept,added⟩ := next
      have own : record.transactionId = id := possible.2.2.2
      refine returnSaga (fun e same => by cases same) (fun found same => ?_)
      cases same
      refine obeysThen _ (ih reading) ?_
      rintro s' records ⟨⟨reading,gathered⟩,more⟩
      refine ⟨⟨reading,fun r mem here => ?_⟩,fun r mem => more r (kept r mem)⟩
      rcases List.mem_cons.mp mem with rfl | mem
      · exact more r (added (own.symm.trans here))
      · exact gathered r mem here

theorem candidatesSaga (reading : s.Reading) : (saga call t).Obeys (Steps fun s records => Gathered t s records) s (a.candidates opts) := by
  unfold DfsmActor.candidates
  split
  · refine obeysAsk ⟨reading.fresh,⟨reading.still,reading.moved⟩⟩ (fun r _ => ?_)
    cases r with
    | error e => exact fun _ => .inr ⟨reading.still,reading.moved⟩
    | ok found =>
      refine ⟨⟨reading.still,reading.moved,reading.fresh⟩,fun r mem here => ?_⟩
      exact List.mem_append_right _ (List.mem_filter.mpr ⟨mem,by simpa using here⟩)
  · exact obeysMono (readSaga opts.transactionIds reading) (fun s r holds => by
      cases r with
      | ok records => exact holds.1
      | error stop => exact holds)

theorem cleanupSaga : (saga (.forceCleanup a rounds opts) t).Obeys (Steps fun s _ => s.Done) {} (a.forceCleanup rounds opts) := by
  unfold DfsmActor.forceCleanup
  refine obeysThen _ (candidatesSaga ⟨rfl,rfl,rfl⟩) ?_
  rintro s candidates ⟨reading,gathered⟩
  refine asideAsk trivial reading.fresh (fun now => ?_)
  dsimp only
  split
  · exact ⟨⟨reading.still,reading.moved⟩,reading.fresh⟩
  · have start : s.Sweeps s.reads {} := ⟨rfl,reading.still,reading.moved,reading.fresh⟩
    refine obeysThen (fun (s' : Standing) (_ : Nat) => s'.Sweeps s.reads {}) ?_
      (fun s' _ sweeps => (show s'.Done from ⟨⟨sweeps.still,sweeps.moved⟩,sweeps.fresh⟩))
    have each : ∀ {records : List TransactionRecord}, (∀ r ∈ records, r.transactionId = t → r ∈ s.reads) → ∀ {s' : Standing} {processed : Nat},
        s'.Sweeps s.reads {} → (saga (.forceCleanup a rounds opts) t).Obeys (Steps fun s' _ => s'.Sweeps s.reads {}) s'
          (records.foldlM (fun processed r => do
            a.processOne rounds (opts.action.getD .MarkFail) now r
            pure (processed+1)) processed) := by
      intro records
      induction records with
      | nil => exact fun _ _ _ sweeps => sweeps
      | cons record records ih =>
        intro member s' processed sweeps
        rw [List.foldlM_cons]
        have first : (saga (.forceCleanup a rounds opts) t).Obeys (Steps fun s' _ => s'.Sweeps s.reads {}) s'
            (a.processOne rounds (opts.action.getD .MarkFail) now record >>= fun _ => (pure (processed+1) : Act Context Data Nat)) :=
          obeysThen _ (processSaga sweeps (member record List.mem_cons_self)) (fun s' _ sweeps => sweeps)
        exact obeysThen _ first fun s' processed sweeps => ih (fun r mem => member r (List.mem_cons_of_mem _ mem)) sweeps
    exact each (fun r mem => gathered r (List.mem_of_mem_filter mem)) start

theorem callSaga (call : Call Context Data) : (saga call t).Obeys (Steps fun s _ => s.Done) {} (call.program t) := by
  cases call with
  | transition a event rounds input => exact obeysThen _ transitionSaga (fun _ _ done => done)
  | forceCleanup a rounds opts => exact obeysThen _ cleanupSaga (fun _ _ done => done)

end

end Dfsm.Rust
