import Dfsm.Csharp.Abandoned
import Dfsm.Csharp.Store
import Dfsm.Lib.Sagas

/-! Where a call of the C# SDK stands between its mark and its settling update, and what it asks
of the store there. -/
namespace Dfsm.Csharp
open Protocol Program Act
open Sagas (Touch Saga Standing Stored Window)

variable {Context Data : Type}

/-- What an update of a transaction writes. -/
structure Row where
  currentState : StateValue
  status : TransactionStatus
  contextJson : String
  version : Int
  updatedAt : Int
  leaseExpiresAt : Option Int
  leaseOwner : Option String
  deriving DecidableEq

def TransactionRecord.row (record : TransactionRecord) : Row :=
  ⟨record.currentState,record.status,record.contextJson,record.version,record.updatedAt,record.leaseExpiresAt,record.leaseOwner⟩

instance : Leased Row where
  version := Row.version
  held row := row.status = .IN_FLIGHT

instance : DecidablePred (Leased.held : Row → Prop) := fun row => inferInstanceAs (Decidable (row.status = .IN_FLIGHT))

/-- A step that can be compensated: the handler that ran, the one that undoes it, and where it began. -/
structure CommittedStep where
  stepName : String
  compensateHandler : String
  fromState : StateValue
  deriving DecidableEq

def SagaStepRecord.step (record : SagaStepRecord) : CommittedStep := ⟨record.stepName,record.compensateHandler,record.fromState⟩

/-- What a worker runs; `depth` is what `EffectChainDepth` holds in its flow. -/
inductive Call (Context Data : Type) where
  | transitionAsync (a : DfsmActor Context) (eventName : String) (rounds : Nat) (depth : Int) (input : Option Data)
  | forceCleanUpAsync (a : DfsmActor Context) (rounds : Nat) (options : ForceCleanUpOptions)

namespace Call

def program (t : String) : Call Context Data → Act Context Data Unit
  | .transitionAsync a eventName rounds depth input => (a.transitionAsync t eventName rounds depth input).void
  | .forceCleanUpAsync a rounds options => (a.forceCleanUpAsync rounds options).void

/-- The step that a transition takes from a record, where its merged policy names a compensation. -/
def compensable (row : Row) : Call Context Data → Option CommittedStep
  | .transitionAsync a eventName _ _ _ => (a.selectTransition eventName row.currentState).bind (fun matched =>
      (given (a.choose eventName matched).policy.compensateWith).map (⟨(a.choose eventName matched).handlerName,·,row.currentState⟩))
  | .forceCleanUpAsync _ _ _ => none

/-- Whatever target a step goes to once it has moved the stack is there. -/
def resolves (row : Row) : Call Context Data → Bool
  | .transitionAsync a eventName rounds _ _ => (a.selectTransition eventName row.currentState).all (fun matched =>
      let policy := (a.choose eventName matched).policy
      ((given policy.compensateWith).isNone || match a.applyTarget row.currentState matched.sourcePath matched.edge.target with
        | .ok applied => !missed (a.cascadeOnDone rounds applied.nextStateValue)
        | .error _ => true) &&
      (!policy.onFail.any (·.compensate) || !missed (a.applyTarget row.currentState matched.sourcePath (DfsmActor.failTarget policy))))
  | .forceCleanUpAsync _ _ _ => true

def finds (handlerName : String) : Call Context Data → Bool
  | .transitionAsync a _ _ _ _ => a.registry.getCompensate handlerName
  | .forceCleanUpAsync a _ _ => a.registry.getCompensate handlerName

def cleansUp : Call Context Data → Bool
  | .transitionAsync _ _ _ _ _ => false
  | .forceCleanUpAsync _ _ _ => true

end Call

/-- What an event of a call is to the transaction. An update that leaves it IN_FLIGHT is the
mark of a step; any other settles it. -/
def touch (t : String) : Event (Reply Context Data) → Touch Row CommittedStep
  | ⟨.getTransaction id,.ok (some record)⟩ => if id = t then .saw [record.row] else .aside
  | ⟨.listActiveTransactions _ _,.ok found⟩ => .saw ((found.filter (·.transactionId = t)).map (·.row))
  | ⟨.createTransaction record,.ok _⟩ => if record.transactionId = t then .created record.row else .aside
  | ⟨.updateTransaction record expectedVersion,.ok _⟩ =>
    if record.transactionId = t then
      if record.status = .IN_FLIGHT then .taken record.row expectedVersion else .put record.row expectedVersion
    else .aside
  | ⟨.updateTransaction record expectedVersion,.error _⟩ =>
    if record.transactionId = t then if record.status = .IN_FLIGHT then .aside else .stale expectedVersion else .aside
  | ⟨.handler _ _,.ok _⟩ => .tried false
  | ⟨.handler _ _,.error _⟩ => .tried true
  | ⟨.pushSagaStep id step,.ok _⟩ => if id = t then .pushed step.step else .aside
  | ⟨.popSagaStep id,.ok (some step)⟩ => if id = t then .popped step.step else .aside
  | ⟨.compensation _ request,.ok _⟩ => if request.transactionId = t then .undone else .aside
  | ⟨.deleteTransaction id,.ok _⟩ => if id = t then .deleted else .aside
  | _ => .aside

/-- A step is popped whose compensation is registered and does what it is asked; no exception
leaves a call that has moved the stack. -/
def fine (t : String) (call : Call Context Data) : Event (Reply Context Data) → Bool
  | ⟨.popSagaStep _,.ok (some step)⟩ => call.finds step.compensateHandler
  | ⟨.parseSnapshot _,.error _⟩ | ⟨.compensation _ _,.error _⟩ | ⟨.log (.hookError .OnCompensate _),.error _⟩ => false
  | ⟨.deserializeContext _,.error _⟩ => !call.cleansUp
  | ⟨.updateTransaction record _,.ok _⟩ => record.transactionId ≠ t || record.status ≠ .IN_FLIGHT || call.resolves record.row
  | _ => true

/-- What the store tells by itself. -/
def told : Event (Reply Context Data) → Prop
  | ⟨.getTransaction id,.ok (some record)⟩ => record.transactionId = id
  | ⟨.getTransaction _,.error _⟩ | ⟨.getSagaStack _,.error _⟩ | ⟨.popSagaStep _,.error _⟩ | ⟨.deleteTransaction _,.error _⟩ => False
  | _ => True

def saga (t : String) (call : Call Context Data) : Saga (Reply Context Data) Row CommittedStep where
  touch := touch t
  fine e := fine t call e = true
  told := told
  step row := call.compensable row

/-- A loop that is followed no further is no return. -/
def returns : Stop → Bool
  | .thrown _ => true
  | .running => false

/-- What says nothing of the transaction. -/
def Op.Aside : Op Context Data → Prop
  | .getTransaction _ | .listActiveTransactions _ _ | .createTransaction _ | .updateTransaction _ _ | .handler _ _ | .pushSagaStep _ _
  | .popSagaStep _ | .compensation _ _ | .deleteTransaction _ => False
  | _ => True

section
variable {call : Call Context Data} {t eventName : String} {s : Standing Row CommittedStep} {α β : Type} {a : DfsmActor Context}

abbrev Steps (good : Standing Row CommittedStep → α → Prop) : Standing Row CommittedStep → Except Stop α → Prop := Sagas.Steps returns good

theorem asideTouch (op : Op Context Data) (aside : op.Aside) : (saga t call).Aside op := by
  intro r
  cases op <;> first | rfl | cases aside

theorem notifiesAside (op : Op Context Data) (notifies : op.Notifies) : op.Aside := by
  cases op <;> trivial

theorem throwSaga {good : Standing Row CommittedStep → β → Prop} {x : Except Exn α} {k : α → Act Context Data β}
    (closed : ∀ e, x = .error e → s.rejected = true ∨ s.window = {}) (rest : ∀ v, x = .ok v → (saga t call).rules.Obeys (Steps good) s (k v)) :
    (saga t call).rules.Obeys (Steps good) s (orThrow x >>= k) := by
  cases x with
  | error e => exact fun _ => closed e rfl
  | ok v => exact rest v rfl

theorem hooksAside {hookType : HookType} {event : HookEvent Context Data} : (a.fireHook hookType event).Asks Op.Aside :=
  asksFold (fun _ _ => asksRequest trivial (fun _ => loggedAsks (fun _ => trivial))) _ _

theorem serializeAside {context : Context} : (a.serializeContext context : Act Context Data _).Asks Op.Aside := by
  unfold DfsmActor.serializeContext
  split
  · trivial
  · exact asksRequest trivial (fun r => throwAsks)

theorem deserializeAside {json : String} : (a.deserializeContext json : Act Context Data _).Asks Op.Aside := by
  unfold DfsmActor.deserializeContext
  split
  · trivial
  · exact asksRequest trivial (fun r => throwAsks)

theorem asideSaga {good : Standing Row CommittedStep → β → Prop} {p : Act Context Data α} {k : α → Act Context Data β}
    (asks : p.Asks Op.Aside) (fresh : s.rejected = false) (closed : s.window = {})
    (rest : ∀ x, (saga t call).rules.Obeys (Steps good) s (k x)) : (saga t call).rules.Obeys (Steps good) s (p >>= k) :=
  Sagas.asideThen (asksMono asks asideTouch) fresh closed rest

theorem askSaga {post : Standing Row CommittedStep → Except Stop β → Prop} {op : Op Context Data} {k : Reply Context Data op → Act Context Data β}
    (aside : op.Aside) (fresh : s.rejected = false)
    (rest : ∀ r, fine t call ⟨op,r⟩ = true → (saga t call).rules.Obeys post s (k r)) :
    (saga t call).rules.Obeys post s (ask op >>= k) :=
  Sagas.asideAsk (asideTouch op aside) fresh rest

/-- In its step, with the stack moved by as much. -/
structure In (record : TransactionRecord) (failed : Bool) (window : Window CommittedStep) (s : Standing Row CommittedStep) : Prop where
  taken : s.taken = some record.row
  tried : s.failed = failed
  moved : s.window = window
  fresh : s.rejected = false

variable {record : TransactionRecord} {failed : Bool} {window : Window CommittedStep}

theorem successAside {breaker : Option Nat} : (DfsmActor.onSuccess breaker : Act Context Data Unit).Asks Op.Aside := by
  cases breaker with
  | none => trivial
  | some breaker => exact ⟨trivial,fun _ => ⟨trivial,fun _ => trivial⟩⟩

theorem failureAside {breaker : Option Nat} : (DfsmActor.onFailure breaker : Act Context Data Unit).Asks Op.Aside := by
  cases breaker with
  | none => trivial
  | some breaker => exact ⟨trivial,fun _ => ⟨trivial,fun _ => trivial⟩⟩

theorem beforeAside {handlerName : String} {breaker : Option Nat} :
    (DfsmActor.beforeExecution handlerName breaker : Act Context Data Unit).Asks Op.Aside := by
  cases breaker with
  | none => trivial
  | some breaker =>
    refine asksRequest trivial (fun taken => asksRequest trivial (fun _ => ?_))
    split <;> trivial

theorem retrySaga {breaker : Option Nat} {handlerName : String} {request : TransitionRequest Context Data} (left : Nat) :
    ∀ {made : Nat} {lastError : Option Exn} {s : Standing Row CommittedStep}, In record lastError.isSome {} s →
      (saga t call).rules.Obeys (Steps fun s (tried : Tried Context Data) => In record tried.lastError.isSome {} s) s
        (DfsmActor.retryLoop breaker handlerName request left made lastError) := by
  induction left with
  | zero => intro made lastError s going; exact going
  | succ left ih =>
    intro made lastError s going
    rw [DfsmActor.retryLoop]
    refine Sagas.lawfulAsk going.fresh (fun r _ _ => (by cases r <;> trivial)) (fun r _ _ => ?_)
    cases r with
    | ok output =>
      have tried : In record false {} (s.after (.tried false)) := ⟨going.taken,rfl,going.moved,going.fresh⟩
      exact asideSaga successAside tried.fresh tried.moved (fun _ => tried)
    | error ex =>
      have tried : In record (some ex).isSome {} (s.after (.tried true)) := ⟨going.taken,rfl,going.moved,going.fresh⟩
      refine asideSaga failureAside tried.fresh tried.moved (fun _ => ?_)
      split
      · refine askSaga trivial tried.fresh (fun slept _ => ?_)
        exact throwSaga (fun _ _ => .inr tried.moved) (fun _ _ => ih tried)
      · exact ih tried

theorem executeSaga {chosen : Chosen} {breaker : Option Nat} {currentCtx : Context} {coercedInput : Option Data} {currentState : StateValue}
    (going : In record false {} s) :
    (saga t call).rules.Obeys (Steps fun s (tried : Tried Context Data) => In record tried.lastError.isSome {} s) s
      (DfsmActor.executeHandler t eventName chosen breaker currentCtx coercedInput currentState) := by
  unfold DfsmActor.executeHandler
  split
  · exact asideSaga beforeAside going.fresh going.moved (fun _ => retrySaga _ going)
  · exact going

theorem settleSaga {good : Standing Row CommittedStep → β → Prop} {committed : TransactionRecord} {k : Unit → Act Context Data β}
    (going : In record failed window s) (own : committed.transactionId = t) (final : committed.status ≠ .IN_FLIGHT) (owed : window.owed = [])
    (commits : window.pushed.toList = if failed then [] else (call.compensable record.row).toList)
    (rest : ∀ s', s'.window = {} → s'.rejected = false → (saga t call).rules.Obeys (Steps good) s' (k ())) :
    (saga t call).rules.Obeys (Steps good) s (ask (.updateTransaction committed record.version) >>= fun r => orThrow r >>= k) := by
  have puts : (saga t call).Puts s record.version := by
    refine ⟨by rw [going.moved,owed],?_⟩
    rw [going.taken]
    refine ⟨rfl,?_⟩
    rw [going.moved,commits,Saga.commits,going.tried,going.taken]
    rfl
  refine Sagas.lawfulAsk going.fresh (fun r _ _ => ?_) (fun r _ _ => ?_)
  · cases r <;> simp only [saga,touch,if_pos own,if_neg final] <;> exact puts
  · cases r with
    | error e =>
      refine throwSaga (fun _ _ => .inl ?_) (fun v same => by cases same)
      simp only [saga,touch,if_pos own,if_neg final]
      rfl
    | ok _ =>
      simp only [saga,touch,if_pos own,if_neg final]
      exact rest _ rfl going.fresh

theorem pushSaga {input : Option Data} {chosen : Chosen} {prevState targetState : StateValue} {currentCtx : Context}
    (going : In record false {} s) :
    (saga t call).rules.Obeys (Steps fun s _ => In record false
        { pushed := (given chosen.policy.compensateWith).map (⟨chosen.handlerName,·,prevState⟩) } s) s
      (a.pushStep t chosen input prevState targetState currentCtx) := by
  have serialized : (DfsmActor.serializeInput input : Act Context Data _).Asks Op.Aside := by
    cases input with
    | none => trivial
    | some input => exact asksRequest trivial (fun r => asksBind throwAsks (fun _ => trivial))
  unfold DfsmActor.pushStep
  cases given chosen.policy.compensateWith with
  | none => exact going
  | some compensateHandler =>
    refine askSaga trivial going.fresh (fun stepId _ => asideSaga serialized going.fresh going.moved (fun inputSnapshotJson => ?_))
    refine asideSaga serializeAside going.fresh going.moved (fun contextBeforeJson => askSaga trivial going.fresh (fun timestamp _ => ?_))
    refine Sagas.lawfulAsk going.fresh (fun r _ _ => ?_) (fun r _ _ => ?_)
    · cases r with
      | error e => trivial
      | ok _ =>
        simp only [saga,touch,if_true]
        exact ⟨by rw [going.taken]; rfl,going.moved⟩
    · cases r with
      | error e => exact fun _ => .inr going.moved
      | ok _ =>
        simp only [saga,touch,if_true]
        exact ⟨going.taken,going.tried,by rw [Standing.after,going.moved]; rfl,going.fresh⟩

theorem undoSaga {post : Standing Row CommittedStep → Except Stop β → Prop} {currentCtx : Context} {step : SagaStepRecord} {id : String}
    {k : Except Exn Unit → Act Context Data β} (fresh : s.rejected = false)
    (rest : (saga t call).rules.Obeys post (s.after (if id = t then .undone else .aside)) (k (.ok ()))) :
    (saga t call).rules.Obeys post s (DfsmActor.tryCompensate id currentCtx step >>= k) := by
  have asked {request : CompensationRequest Context Data} (own : request.transactionId = id) :
      (saga t call).rules.Obeys post s (ask (.compensation step.compensateHandler request) >>= k) := by
    refine Sagas.lawfulAsk fresh (fun r _ _ => ?_) (fun r done _ => ?_)
    · cases r with
      | error e => trivial
      | ok _ =>
        simp only [saga,touch]
        split <;> trivial
    · cases r with
      | error e => cases done
      | ok _ =>
        simp only [saga,touch,own]
        exact rest
  unfold DfsmActor.tryCompensate
  split
  · exact asked rfl
  · rw [bind_assoc]
    refine askSaga trivial fresh (fun r parsed => ?_)
    cases r with
    | error e => cases parsed
    | ok snapshot => exact asked rfl

/-- Steps that a failed step has taken off the stack, and undone. -/
structure Unwinding (record : TransactionRecord) (s : Standing Row CommittedStep) : Prop where
  taken : s.taken = some record.row
  tried : s.failed = true
  unpushed : s.window.pushed = none
  undone : s.window.owed = []
  fresh : s.rejected = false

theorem compensateHooks {good : Standing Row CommittedStep → β → Prop} {event : HookEvent Context Data} {k : Unit → Act Context Data β}
    (fresh : s.rejected = false) (rest : (saga t call).rules.Obeys (Steps good) s (k ())) :
    (saga t call).rules.Obeys (Steps good) s (a.fireHook .OnCompensate event >>= k) := by
  unfold DfsmActor.fireHook
  generalize a.registry.hooks .OnCompensate = hooks
  induction hooks with
  | nil => exact rest
  | cons h hooks ih =>
    rw [List.foldlM_cons,bind_assoc,bind_assoc]
    refine askSaga trivial fresh (fun r _ => ?_)
    cases r with
    | ok _ => exact ih
    | error e =>
      refine askSaga trivial fresh (fun logged written => ?_)
      cases logged with
      | error e => cases written
      | ok _ => exact ih

theorem poppedUndone {key : CommittedStep} (unwinding : Unwinding record s) : Unwinding record ((s.after (.popped key)).after .undone) :=
  ⟨unwinding.taken,unwinding.tried,unwinding.unpushed,by simp [Standing.after,unwinding.undone],unwinding.fresh⟩

theorem unwindSaga {currentCtx : Context} (finds : ∀ name, call.finds name = a.registry.getCompensate name) (remaining : Nat) :
    ∀ {s : Standing Row CommittedStep} {compensatedSteps : Nat}, Unwinding record s →
      (saga t call).rules.Obeys (Steps fun s _ => Unwinding record s) s
        (a.unwind t currentCtx remaining compensatedSteps : Act Context Data Nat) := by
  induction remaining with
  | zero => intro s compensatedSteps unwinding; exact unwinding
  | succ remaining ih =>
    intro s compensatedSteps unwinding
    rw [DfsmActor.unwind]
    refine Sagas.lawfulAsk unwinding.fresh (fun r _ _ => ?_) (fun r found possible => ?_)
    · rcases r with e | _ | step
      · trivial
      · trivial
      · simp only [saga,touch,if_true]
        refine ⟨unwinding.unpushed,unwinding.undone,fun free => ?_⟩
        rw [unwinding.taken] at free
        cases free
    · rcases r with e | _ | step
      · exact possible.elim
      · exact unwinding
      · have registered : a.registry.getCompensate step.compensateHandler = true := (finds _).symm.trans found
        simp only [saga,touch,if_true]
        refine throwSaga (fun e same => by cases same) (fun popped same => ?_)
        cases same
        dsimp only
        rw [DfsmActor.compensateStep,if_pos registered,bind_assoc]
        refine undoSaga unwinding.fresh ?_
        rw [if_pos rfl]
        exact compensateHooks unwinding.fresh (ih (poppedUndone unwinding))

theorem rollBackSaga {rollbackTriggered : Bool} {currentCtx : Context} (finds : ∀ name, call.finds name = a.registry.getCompensate name)
    (going : In record true {} s) :
    (saga t call).rules.Obeys (Steps fun s _ => Unwinding record s ∧ (rollbackTriggered = false → s.window = {})) s
      (a.rollBack t rollbackTriggered currentCtx : Act Context Data Nat) := by
  have start : Unwinding record s := ⟨going.taken,going.tried,by rw [going.moved],by rw [going.moved],going.fresh⟩
  unfold DfsmActor.rollBack
  split
  · rename_i triggered
    refine askSaga trivial going.fresh (fun r _ => throwSaga (fun _ _ => .inr going.moved) (fun sagaStack _ => ?_))
    refine obeysMono (unwindSaga finds _ start) (fun s r kept => ?_)
    cases r with
    | ok _ => exact ⟨kept,fun none_ => absurd (triggered.symm.trans none_) (by decide)⟩
    | error _ => exact kept
  · exact ⟨start,fun _ => going.moved⟩

theorem resolvedFinal (m : MachineDefinition) (sv : StateValue) (wasCompensated : Bool) :
    resolveSettledTransactionStatus m sv wasCompensated ≠ .IN_FLIGHT := by
  intro same
  have settled := resolvedSettled m sv wasCompensated
  rw [same] at settled
  rcases settled with h | h | h | h <;> cases h

end

section
variable {t eventName : String} {s : Standing Row CommittedStep} {a : DfsmActor Context} {rounds : Nat} {depth : Int} {input : Option Data}
variable {record : TransactionRecord} {matched : MatchedTransition}

theorem compensableOf (selected : a.selectTransition eventName record.currentState = some matched) :
    (Call.transitionAsync a eventName rounds depth input).compensable record.row =
      (given (a.choose eventName matched).policy.compensateWith).map (⟨(a.choose eventName matched).handlerName,·,record.currentState⟩) := by
  rw [Call.compensable,show record.row.currentState = record.currentState from rfl,selected]
  rfl

theorem resolvesOf (selected : a.selectTransition eventName record.currentState = some matched)
    (resolves : (Call.transitionAsync a eventName rounds depth input).resolves record.row = true) :
    (given (a.choose eventName matched).policy.compensateWith = none ∨ ∀ applied,
        a.applyTarget record.currentState matched.sourcePath matched.edge.target = .ok applied →
          missed (a.cascadeOnDone rounds applied.nextStateValue) = false) ∧
      ((a.choose eventName matched).policy.onFail.any (·.compensate) = false ∨
        missed (a.applyTarget record.currentState matched.sourcePath (DfsmActor.failTarget (a.choose eventName matched).policy)) = false) := by
  rw [Call.resolves,show record.row.currentState = record.currentState from rfl,selected,Option.all_some] at resolves
  simp only [Bool.and_eq_true,Bool.or_eq_true,Bool.not_eq_true',Option.isNone_iff_eq_none] at resolves
  obtain ⟨success,failure⟩ := resolves
  refine ⟨success.imp_right (fun kept applied same => ?_),failure⟩
  rw [same] at kept
  simpa using kept

theorem missedStop {α : Type} {x : Except Stop α} {stop : Stop} (here : missed x = false) (same : x = .error stop) : returns stop = false := by
  subst same
  cases stop with
  | thrown e => cases here
  | running => rfl

theorem succeedSaga {durationMs : Int} {currentCtx : Context} {tried : Tried Context Data} (own : record.transactionId = t)
    (selected : a.selectTransition eventName record.currentState = some matched)
    (resolves : (Call.transitionAsync a eventName rounds depth input).resolves record.row = true) (going : In record false {} s) :
    (saga t (.transitionAsync a eventName rounds depth input)).rules.Obeys (Steps fun s _ => s.window = {}) s
      (a.succeed t eventName rounds depth durationMs input (a.choose eventName matched) record currentCtx tried) := by
  have next : (a.nextContextJson record tried.output.context : Act Context Data _).Asks Op.Aside := by
    unfold DfsmActor.nextContextJson
    split
    · trivial
    · exact serializeAside
  unfold DfsmActor.succeed
  refine Sagas.stopThen (fun _ _ _ => .inr going.moved) (fun applied here => asideSaga next going.fresh going.moved (fun contextJson => ?_))
  refine obeysThen _ (pushSaga going) (fun s _ going => Sagas.stopThen (fun stop same returns_ => ?_) (fun settled _ => ?_))
  · rcases (resolvesOf selected resolves).1 with none_ | whole
    · refine .inr ?_
      rw [going.moved,show given (Chosen.policy _).compensateWith = none from none_]
      rfl
    · exact absurd (missedStop (whole applied here) same) (by rw [returns_]; decide)
  · refine askSaga trivial going.fresh (fun updatedAt _ => ?_)
    refine settleSaga going own (resolvedFinal a.machine settled false) rfl ?_ (fun s closed fresh => ?_)
    · rw [compensableOf selected]
      rfl
    · refine askSaga trivial fresh (fun r _ => throwSaga (fun _ _ => .inr closed) (fun _ _ => ?_))
      exact asideSaga (asksMono successNotifies notifiesAside) fresh closed (fun _ => closed)

theorem failSaga {durationMs : Int} {currentCtx : Context} {attempts : Nat} {lastError : Exn} (own : record.transactionId = t)
    (selected : a.selectTransition eventName record.currentState = some matched)
    (resolves : (Call.transitionAsync a eventName rounds depth input).resolves record.row = true) (going : In record true {} s) :
    (saga t (.transitionAsync a eventName rounds depth input)).rules.Obeys (Steps fun s _ => s.window = {}) s
      (a.fail t eventName durationMs (a.choose eventName matched) record currentCtx attempts lastError : Act Context Data _) := by
  unfold DfsmActor.fail
  refine askSaga trivial going.fresh (fun r _ => throwSaga (fun _ _ => .inr going.moved) (fun _ _ => ?_))
  refine obeysThen _ (rollBackSaga (fun _ => rfl) going) ?_
  rintro s compensatedSteps ⟨unwinding,unmoved⟩
  refine Sagas.stopThen (fun stop same returns_ => ?_) (fun applied _ => askSaga trivial unwinding.fresh (fun updatedAt _ => ?_))
  · rcases (resolvesOf selected resolves).2 with none_ | whole
    · exact .inr (unmoved none_)
    · exact absurd (missedStop whole same) (by rw [returns_]; decide)
  · have going : In record true s.window s := ⟨unwinding.taken,unwinding.tried,rfl,unwinding.fresh⟩
    refine settleSaga going own (resolvedFinal _ _ _) unwinding.undone (by rw [unwinding.unpushed]; rfl) (fun s closed fresh => ?_)
    exact asideSaga hooksAside fresh closed (fun _ => closed)

theorem stepSaga {coercedInput : Option Data} (own : record.transactionId = t)
    (selected : a.selectTransition eventName record.currentState = some matched)
    (resolves : (Call.transitionAsync a eventName rounds depth input).resolves record.row = true) (going : In record false {} s) :
    (saga t (.transitionAsync a eventName rounds depth input)).rules.Obeys (Steps fun s _ => s.window = {}) s
      (a.execute t eventName rounds depth input coercedInput (a.choose eventName matched) record) := by
  have breaker : (DfsmActor.getBreaker (a.choose eventName matched) : Act Context Data (Option Nat)).Asks Op.Aside := by
    unfold DfsmActor.getBreaker
    split
    · trivial
    · exact ⟨trivial,fun _ => trivial⟩
  unfold DfsmActor.execute
  refine asideSaga deserializeAside going.fresh going.moved (fun currentCtx => asideSaga breaker going.fresh going.moved (fun breaker => ?_))
  refine obeysThen _ (executeSaga going) (fun s tried going => askSaga trivial going.fresh (fun durationMs _ => ?_))
  cases outcome : tried.lastError with
  | none =>
    rw [outcome] at going
    exact succeedSaga own selected resolves going
  | some lastError =>
    rw [outcome] at going
    exact failSaga own selected resolves going

/-- Before the mark. -/
structure Read (s : Standing Row CommittedStep) : Prop where
  free : s.Free
  fresh : s.rejected = false
  some_ : s.reads ≠ []

variable {call : Call Context Data}

theorem markSaga (read : Read s) (own : record.transactionId = t) :
    (saga t call).rules.Obeys (Steps fun s marked => marked.transactionId = t ∧ marked.currentState = record.currentState ∧
        call.resolves marked.row = true ∧ In marked false {} s) s
      (DfsmActor.markInFlight record : Act Context Data TransactionRecord) := by
  unfold DfsmActor.markInFlight
  refine askSaga trivial read.fresh (fun updatedAt _ => Sagas.lawfulAsk read.fresh (fun r _ _ => ?_) (fun r met _ => ?_))
  · cases r with
    | error e => simp only [saga,touch,own,if_true]; trivial
    | ok _ =>
      simp only [saga,touch,own,if_true]
      exact ⟨read.free,read.some_⟩
  · cases r with
    | error e =>
      simp only [saga,touch,own,if_true]
      exact throwSaga (fun _ _ => .inr read.free.2) (fun v same => by cases same)
    | ok _ =>
      have resolves : call.resolves { record with status := .IN_FLIGHT, updatedAt, version := record.version + 1 }.row = true := by
        simpa [saga,fine,own] using met
      simp only [saga,touch,own,if_true]
      exact ⟨rfl,rfl,resolves,rfl,rfl,read.free.2,read.fresh⟩

theorem createSaga {now : Int} (free : s.Free) (fresh : s.rejected = false) :
    (saga t call).rules.Obeys (Steps fun s record => Read s ∧ record.transactionId = t) s
      (a.create t eventName depth now : Act Context Data TransactionRecord) := by
  unfold DfsmActor.create
  split
  · exact fun _ => .inr free.2
  · refine asideSaga serializeAside fresh free.2 (fun contextJson => Sagas.lawfulAsk fresh (fun r _ _ => ?_) (fun r _ _ => ?_))
    · cases r with
      | error e => trivial
      | ok _ =>
        simp only [saga,touch,if_true]
        exact free
    · cases r with
      | error e => exact fun _ => .inr free.2
      | ok _ =>
        simp only [saga,touch,if_true]
        refine throwSaga (fun _ same => by cases same) (fun _ _ => ?_)
        refine asideSaga hooksAside fresh free.2 (fun _ => ?_)
        exact asideSaga (asksMono effectsNotify notifiesAside) fresh free.2 (fun _ => ⟨⟨free,fresh,by simp [Standing.after]⟩,rfl⟩)

theorem loadSaga (free : s.Free) (fresh : s.rejected = false) :
    (saga t call).rules.Obeys (Steps fun s record => Read s ∧ record.transactionId = t) s
      (a.loadOrCreate t eventName depth : Act Context Data TransactionRecord) := by
  unfold DfsmActor.loadOrCreate
  refine Sagas.lawfulAsk fresh (fun r _ _ => ?_) (fun r _ possible => ?_)
  · rcases r with e | _ | record
    · trivial
    · trivial
    · simp only [saga,touch,if_true]
      exact free
  · rcases r with e | _ | record
    · exact possible.elim
    · exact askSaga trivial fresh (fun now _ => createSaga free fresh)
    · simp only [saga,touch,if_true]
      refine askSaga trivial fresh (fun now _ => ?_)
      exact ⟨⟨free,fresh,by simp [Standing.after]⟩,possible⟩

theorem coerceAside {chosen : Chosen} : (DfsmActor.coerceInput chosen input : Act Context Data (Option Data)).Asks Op.Aside :=
  asksMono coerceNotifies notifiesAside

theorem transitionSaga : (saga t (.transitionAsync a eventName rounds depth input)).rules.Obeys (Steps fun s _ => s.window = {}) {}
    (a.transitionAsync t eventName rounds depth input) := by
  unfold DfsmActor.transitionAsync
  split
  · exact fun _ => .inr rfl
  · refine obeysThen _ (loadSaga ⟨rfl,rfl⟩ rfl) ?_
    rintro s record ⟨read,own⟩
    have closed := read.free.2
    unfold DfsmActor.transitionOn
    split
    · exact fun _ => .inr closed
    · split
      · exact fun _ => .inr closed
      · rename_i matched selected
        refine asideSaga coerceAside read.fresh closed (fun coercedInput => ?_)
        refine asideSaga (asksMono validateNotifies notifiesAside) read.fresh closed (fun _ => asideSaga hooksAside read.fresh closed (fun _ => ?_))
        refine obeysThen _ (markSaga read own) ?_
        rintro s marked ⟨own,same,resolves,going⟩
        exact stepSaga own (by rw [same]; exact selected) resolves going

end
/-! Clean-up. -/

section
variable {a : DfsmActor Context} {t : String} {rounds : Nat} {options : ForceCleanUpOptions} {s : Standing Row CommittedStep}
variable {record : TransactionRecord} {now : Int} {known : List Row} {call : Call Context Data}

/-- Between two requests of a clean-up that knows some records of the transaction, with steps of
the one it is at taken off and undone. -/
structure Sweeping (t : String) (known : List Row) (record : TransactionRecord) (s : Standing Row CommittedStep) : Prop where
  reads : s.reads = known
  still : s.taken = none
  unpushed : s.window.pushed = none
  undone : s.window.owed = []
  fresh : s.rejected = false
  own : s.window ≠ {} → record.transactionId = t

/-- With nothing taken off. -/
structure Swept (known : List Row) (s : Standing Row CommittedStep) : Prop where
  reads : s.reads = known
  still : s.taken = none
  closed : s.window = {}
  fresh : s.rejected = false

theorem sweptSweeping (swept : Swept known s) : Sweeping t known record s :=
  ⟨swept.reads,swept.still,by rw [swept.closed],by rw [swept.closed],swept.fresh,fun some_ => absurd swept.closed some_⟩

theorem endSaga {status : TransactionStatus} {currentState : StateValue} (sweeping : Sweeping t known record s)
    (member : record.transactionId = t → record.row ∈ known) (final : status ≠ .IN_FLIGHT) :
    (saga t call).rules.Obeys (Steps fun s _ => Swept known s) s
      (DfsmActor.endWith record now status currentState : Act Context Data Unit) := by
  unfold DfsmActor.endWith
  by_cases here : record.transactionId = t
  · have puts : (saga t call).Puts s record.version := by
      refine ⟨sweeping.undone,?_⟩
      rw [sweeping.still]
      exact ⟨sweeping.unpushed,record.row,by rw [sweeping.reads]; exact member here,rfl⟩
    refine Sagas.lawfulAsk sweeping.fresh (fun r _ _ => ?_) (fun r _ _ => ?_)
    · cases r <;> simp only [saga,touch,if_pos here,if_neg final] <;> exact puts
    · cases r with
      | ok _ =>
        simp only [saga,touch,if_pos here,if_neg final]
        exact ⟨sweeping.reads,rfl,rfl,sweeping.fresh⟩
      | error e =>
        simp only [saga,touch,if_pos here,if_neg final]
        exact fun _ => .inl rfl
  · have closed : s.window = {} := by
      by_contra some_
      exact here (sweeping.own some_)
    refine Sagas.lawfulAsk sweeping.fresh (fun r _ _ => ?_) (fun r _ _ => ?_)
    · cases r <;> simp only [saga,touch,if_neg here] <;> trivial
    · cases r with
      | ok _ =>
        simp only [saga,touch,if_neg here]
        exact ⟨sweeping.reads,sweeping.still,closed,sweeping.fresh⟩
      | error e =>
        simp only [saga,touch,if_neg here]
        exact fun _ => .inr closed

theorem cleanUpSaga {step : SagaStepRecord} {good : Standing Row CommittedStep → Unit → Prop} (cleansUp : call.cleansUp = true)
    (registered : a.registry.getCompensate step.compensateHandler = true) (fresh : s.rejected = false)
    (rest : good (s.after (if record.transactionId = t then .undone else .aside)) ()) :
    (saga t call).rules.Obeys (Steps good) s (a.cleanUpStep record step : Act Context Data Unit) := by
  have body : (saga t call).rules.Obeys (Protocol.Outcome (fun s' _ => good s' ()) (fun _ _ => False)) s (do
      let context ← a.deserializeContext record.contextJson
      orThrow (← DfsmActor.tryCompensate record.transactionId context step) : Act Context Data Unit) := by
    have tried {context : Context} : (saga t call).rules.Obeys (Protocol.Outcome (fun s' _ => good s' ()) (fun _ _ => False)) s
        (DfsmActor.tryCompensate record.transactionId context step >>= fun x => (orThrow x : Act Context Data Unit)) := undoSaga fresh rest
    unfold DfsmActor.deserializeContext
    split
    · exact tried
    · rw [bind_assoc]
      refine askSaga trivial fresh (fun r read => ?_)
      cases r with
      | ok context => exact tried
      | error e =>
        simp only [fine,cleansUp] at read
        cases read
  unfold DfsmActor.cleanUpStep
  rw [if_pos registered]
  refine obeysThen (fun s' _ => good s' ()) (obeysAttempt (obeysMono body (fun s' r holds => ?_))) (fun s' _ holds => holds)
  cases r with
  | ok _ => exact holds
  | error _ => exact holds.elim

theorem compensateAllSaga (finds : ∀ name, call.finds name = a.registry.getCompensate name) (cleansUp : call.cleansUp = true)
    (member : record.transactionId = t → record.row ∈ known) (rounds' : Nat) :
    ∀ {s : Standing Row CommittedStep}, Sweeping t known record s →
      (saga t call).rules.Obeys (Steps fun s _ => Sweeping t known record s) s (a.compensateAll record rounds' : Act Context Data Unit) := by
  induction rounds' with
  | zero => exact fun _ ended => absurd ended (by decide)
  | succ rounds' ih =>
    intro s sweeping
    rw [DfsmActor.compensateAll]
    refine Sagas.lawfulAsk sweeping.fresh (fun r _ _ => ?_) (fun r found possible => ?_)
    · rcases r with e | _ | step
      · trivial
      · trivial
      · simp only [saga,touch]
        split
        · rename_i here
          refine ⟨sweeping.unpushed,sweeping.undone,fun _ => ?_⟩
          rw [sweeping.reads]
          exact List.ne_nil_of_mem (member here)
        · trivial
    · rcases r with e | _ | step
      · exact possible.elim
      · exact sweeping
      · have registered : a.registry.getCompensate step.compensateHandler = true := (finds _).symm.trans found
        refine throwSaga (fun e same => by cases same) (fun popped same => ?_)
        cases same
        dsimp only
        refine obeysThen (fun s' _ => Sweeping t known record s') (cleanUpSaga cleansUp registered ?_ ?_) (fun s' _ sweeping => ih sweeping)
        · simp only [saga,touch]
          split <;> exact sweeping.fresh
        · simp only [saga,touch]
          split
          · rename_i here
            exact ⟨sweeping.reads,sweeping.still,sweeping.unpushed,by simp [Standing.after,sweeping.undone],sweeping.fresh,fun _ => here⟩
          · exact sweeping

theorem processSaga {action : ForceCleanUpAction} (finds : ∀ name, call.finds name = a.registry.getCompensate name)
    (cleansUp : call.cleansUp = true) (swept : Swept known s) (member : record.transactionId = t → record.row ∈ known) :
    (saga t call).rules.Obeys (Steps fun s _ => Swept known s) s (a.processOne rounds action now record : Act Context Data Unit) := by
  unfold DfsmActor.processOne
  cases action with
  | DELETE =>
    refine Sagas.lawfulAsk swept.fresh (fun r _ _ => ?_) (fun r _ possible => ?_)
    · cases r with
      | error e => trivial
      | ok _ =>
        simp only [saga,touch]
        split
        · exact ⟨swept.still,swept.closed⟩
        · trivial
    · cases r with
      | error e => exact possible.elim
      | ok _ =>
        have same : s.after ((saga t call).touch ⟨.deleteTransaction record.transactionId,.ok ()⟩) = s := by
          simp only [saga,touch]
          split <;> rfl
        rw [same]
        exact swept
  | MARK_FAIL => exact endSaga (sweptSweeping swept) member (by decide)
  | COMPENSATE =>
    exact obeysThen _ (compensateAllSaga finds cleansUp member rounds (sweptSweeping swept)) (fun s _ sweeping => endSaga sweeping member (by decide))
  | CONTINUE => exact endSaga (sweptSweeping swept) member (by decide)

/-- The records that a call has gathered are among those it has read. -/
structure Gathered (t : String) (s : Standing Row CommittedStep) (records : List TransactionRecord) : Prop where
  free : s.Free
  fresh : s.rejected = false
  seen : ∀ r ∈ records, r.transactionId = t → r.row ∈ s.reads

theorem readSaga (ids : List String) : ∀ {s : Standing Row CommittedStep}, s.Free → s.rejected = false →
    (saga t call).rules.Obeys (Steps fun s' records => Gathered t s' records ∧ ∀ r ∈ s.reads, r ∈ s'.reads) s
      (DfsmActor.readCandidates ids : Act Context Data (List TransactionRecord)) := by
  induction ids with
  | nil => exact fun free fresh => ⟨⟨free,fresh,by simp⟩,fun _ mem => mem⟩
  | cons id rest ih =>
    intro s free fresh
    rw [DfsmActor.readCandidates]
    refine Sagas.lawfulAsk fresh (fun r _ _ => ?_) (fun r _ possible => ?_)
    · rcases r with e | _ | record
      · trivial
      · trivial
      · simp only [saga,touch]
        split
        · exact free
        · trivial
    · rcases r with e | _ | record
      · exact possible.elim
      · exact ih free fresh
      · have own : record.transactionId = id := possible
        have saw : ∃ s', s.after ((saga t call).touch ⟨.getTransaction id,.ok (some record)⟩) = s' ∧ s'.Free ∧ s'.rejected = false ∧
            (∀ r ∈ s.reads, r ∈ s'.reads) ∧ (id = t → record.row ∈ s'.reads) := by
          refine ⟨_,rfl,?_⟩
          by_cases here : id = t
          · simp only [saga,touch,if_pos here,Standing.after]
            exact ⟨free,fresh,fun r mem => List.mem_append_left _ mem,fun _ => List.mem_append_right _ List.mem_cons_self⟩
          · simp only [saga,touch,if_neg here,Standing.after]
            exact ⟨free,fresh,fun r mem => mem,fun same => absurd same here⟩
        obtain ⟨s',after,free,fresh,kept,added⟩ := saw
        rw [after]
        refine throwSaga (fun e same => by cases same) (fun found same => ?_)
        cases same
        refine obeysThen _ (ih free fresh) ?_
        rintro s'' records ⟨gathered,more⟩
        refine ⟨⟨gathered.free,gathered.fresh,fun r mem here => ?_⟩,fun r mem => more r (kept r mem)⟩
        rcases List.mem_cons.mp mem with rfl | mem
        · exact more _ (added (own.symm.trans here))
        · exact gathered.seen r mem here

theorem candidatesSaga (free : s.Free) (fresh : s.rejected = false) :
    (saga t call).rules.Obeys (Steps fun s records => Gathered t s records) s (a.candidates options : Act Context Data _) := by
  unfold DfsmActor.candidates
  split
  · refine Sagas.lawfulAsk fresh (fun r _ _ => ?_) (fun r _ _ => ?_)
    · cases r with
      | error e => trivial
      | ok found => exact free
    · cases r with
      | error e => exact fun _ => .inr free.2
      | ok found =>
        refine ⟨free,fresh,fun r mem here => List.mem_append_right _ (List.mem_map_of_mem (List.mem_filter.mpr ⟨mem,?_⟩))⟩
        simpa using here
  · refine obeysMono (readSaga options.transactionIds free fresh) (fun s r holds => ?_)
    cases r with
    | ok records => exact holds.1
    | error stop => exact holds

theorem forceSaga : (saga t (.forceCleanUpAsync a rounds options : Call Context Data)).rules.Obeys (Steps fun s _ => s.window = {}) {}
    (a.forceCleanUpAsync rounds options) := by
  unfold DfsmActor.forceCleanUpAsync
  refine obeysThen _ (candidatesSaga ⟨rfl,rfl⟩ rfl) (fun s candidates gathered => askSaga trivial gathered.fresh (fun now _ => ?_))
  have start : Swept s.reads s := ⟨rfl,gathered.free.1,gathered.free.2,gathered.fresh⟩
  refine obeysThen (fun s' _ => Swept s.reads s') ?_ (fun s' processedCount swept => swept.closed)
  unfold DfsmActor.processAll
  split
  · exact start
  · have each : ∀ {records : List TransactionRecord}, (∀ r ∈ records, r.transactionId = t → r.row ∈ s.reads) →
        ∀ {s' : Standing Row CommittedStep} {processed : Nat}, Swept s.reads s' →
          (saga t (.forceCleanUpAsync a rounds options : Call Context Data)).rules.Obeys (Steps fun s' _ => Swept s.reads s') s'
            (records.foldlM (fun processed record => do
              a.processOne rounds options.action now record
              pure (processed+1)) processed) := by
      intro records
      induction records with
      | nil => exact fun _ _ _ swept => swept
      | cons record records ih =>
        intro member s' processed swept
        rw [List.foldlM_cons]
        refine obeysThen (fun s' _ => Swept s.reads s') ?_
          (fun s' processed swept => ih (fun r mem => member r (List.mem_cons_of_mem _ mem)) swept)
        exact obeysThen _ (processSaga (fun _ => rfl) rfl swept (member record List.mem_cons_self)) (fun s' _ swept => swept)
    exact each (fun r mem => gathered.seen r (List.mem_of_mem_filter mem)) start

theorem callSaga (call : Call Context Data) : (saga t call).rules.Obeys (Sagas.Ends returns) {} (call.program t) := by
  have whole : (saga t call).rules.Obeys (Steps fun s _ => s.window = {}) {} (call.program t) := by
    cases call with
    | transitionAsync a eventName rounds depth input => exact obeysThen _ transitionSaga (fun _ _ closed => closed)
    | forceCleanUpAsync a rounds options => exact obeysThen _ forceSaga (fun _ _ closed => closed)
  refine obeysMono whole (fun s r holds => ?_)
  cases r with
  | ok _ => exact holds
  | error stop => exact holds

end
end Dfsm.Csharp
