import Dfsm.Go.Requests
import Dfsm.Go.Validate

/-! What a transition of the Go SDK leaves behind when every store operation succeeds.
Between the mark and the commit an early return or a panic ends the call where it stands. -/
namespace Dfsm.Go
open Protocol Act

variable {Context Data : Type}

/-- Where a call stands: the record as its own updates have made it, whether it has marked
it, whether something since then has gone wrong, and whether the way the step would now go
misses a target. -/
structure Footing where
  record : Option TransactionRecord := none
  marked : Bool := false
  broken : Bool := false
  misses : Bool := false

section
variable (a : DfsmActor Context Data) (ord : Order) (eventName : String) (rounds : Nat)

def missed {α : Type} : Except Stop α → Bool
  | .ok _ => false
  | .error .running => false
  | .error _ => true

/-- The target of a step that succeeds, or that of a completion after it, does not resolve. -/
def successMisses (sv : StateValue) (matched : MatchedTransition) : Bool :=
  missed (do
    let applied ← a.applyTarget ord "apply" sv matched.sourcePath matched.edge.target
    a.cascadeOnDone (ord.below "cascade") rounds applied.nextStateValue)

/-- The fallback of a step that fails does not resolve. -/
def failMisses (sv : StateValue) (matched : MatchedTransition) : Bool :=
  missed (a.applyTarget ord "fail" sv matched.sourcePath (DfsmActor.failTarget (a.choose eventName matched none).policy))

def stepMisses (failed : Bool) (record : TransactionRecord) : Bool :=
  (a.selectTransition ord eventName record.currentState).any (fun matched =>
    if failed then failMisses a ord eventName record.currentState matched
    else successMisses a ord rounds record.currentState matched)

namespace Footing

def breaks (f : Footing) : Footing := { f with broken := true }

def tried (f : Footing) (failed : Bool) : Footing :=
  { f with misses := f.record.any (stepMisses a ord eventName rounds failed) }

def updated (f : Footing) (record : TransactionRecord) : Footing :=
  if record.status = .IN_FLIGHT then tried a ord eventName rounds { f with record := some record, marked := true } false
  else { f with record := some record }

def next (f : Footing) : (op : Op Context Data) → Reply Context Data op → Footing
  | .updateTransaction record _, .ok _ => f.updated a ord eventName rounds record
  | .lockBreaker _ .beforeExecution, (cb,now) => if (cb.beforeExecution now).2.isSome then f.breaks else f
  | .handler _ _, .ok (.ok _) => f.tried a ord eventName rounds false
  | .handler _ _, .ok (.error _) => f.tried a ord eventName rounds true
  | .handler _ _, .error _ => f.breaks
  | .compensation _ _, .error _ => f.breaks
  | .hook _ (.onCompensate _ _ _ _ _), .error _ => f.breaks
  | .record event, .error _ => if event.outcome = .FAILED then f.breaks else f
  | _, _ => f

/-- A call that marked its record leaves it settled exactly when nothing broke and the
target it went for was there. -/
def Released (f : Footing) : Prop :=
  f.marked = true → ((∃ record, f.record = some record ∧ record.status.IsSettled) ↔ f.broken = false ∧ f.misses = false)

end Footing

/-- Store operations succeed; everything else may be answered in any way. -/
def footing : Protocol (Reply Context Data) Footing where
  allowed _ _ := True
  replies op r := match op, r with
    | .getTransaction _, r => ∃ found, r = .ok found
    | .createTransaction _, r => r = .ok ()
    | .updateTransaction _ _, r => r = .ok ()
    | .pushSagaStep _ _, r => r = .ok ()
    | .getSagaStack _, r => ∃ stack, r = .ok stack
    | .popSagaStep _, r => ∃ step, r = .ok step
    | _, _ => True
  after f op r := f.next a ord eventName rounds op r

end

section
variable {a : DfsmActor Context Data} {ord : Order} {eventName : String} {rounds : Nat} {f : Footing} {txId : String}

/-- In the step, which would now go to a target that is missing or there. -/
structure Footing.Going (record : TransactionRecord) (misses : Bool) (f : Footing) : Prop where
  here : f.record = some record
  inFlight : record.status = .IN_FLIGHT
  marked : f.marked = true
  whole : f.broken = false
  misses : f.misses = misses

def Footing.Closed (f : Footing) : Prop :=
  f.broken = false ∧ f.misses = false ∧ ∃ record, f.record = some record ∧ record.status.IsSettled

/-- A loop that is followed no further is no return. -/
abbrev Left (f : Footing) (stop : Stop) : Prop := stop ≠ .running → f.Released

abbrev Leaves {α : Type} (good : Footing → α → Prop) : Footing → Except Stop α → Prop := Protocol.Outcome good Left

theorem resolvedSettled (ord : Order) (m : MachineDefinition) (sv : StateValue) (wasCompensated : Bool) :
    (resolveSettledStatus ord m sv wasCompensated).IsSettled := by
  unfold resolveSettledStatus TransactionStatus.IsSettled
  split
  · simp
  · split
    · simp
    · dsimp only
      split <;> simp

theorem goingLost {record : TransactionRecord} {misses : Bool} (going : f.Going record misses) {g : Footing}
    (same : g.record = f.record) (lost : ¬(g.broken = false ∧ g.misses = false)) : g.Released := by
  refine fun _ => iff_of_false ?_ lost
  rintro ⟨other,here,settled⟩
  rw [same,going.here] at here
  cases Option.some.inj here
  rcases settled with h | h | h | h <;> exact absurd (going.inFlight.symm.trans h) (by decide)

theorem goingBreaks {record : TransactionRecord} {misses : Bool} (going : f.Going record misses) : f.breaks.Released :=
  goingLost going rfl (fun both => absurd both.1 (by simp [Footing.breaks]))

theorem closedReleased (closed : f.Closed) : f.Released :=
  fun _ => iff_of_true closed.2.2 ⟨closed.1,closed.2.1⟩

theorem goingStop {α : Type} {record : TransactionRecord} {stop : Stop} (going : f.Going record (missed (.error stop : Except Stop α))) :
    Left f stop := by
  intro returns
  have misses : f.misses = true := by
    rw [going.misses]
    cases stop with
    | running => contradiction
    | _ => rfl
  exact goingLost going rfl (fun both => absurd both.2 (by simp [misses]))

/-- What decides nothing of the step: it leaves the footing whatever the reply. -/
def Op.Quiet : Op Context Data → Prop
  | .updateTransaction _ _ | .lockBreaker _ .beforeExecution | .handler _ _ | .compensation _ _ => False
  | .hook _ (.onCompensate _ _ _ _ _) => False
  | .record event => event.outcome = .SUCCESS
  | _ => True

theorem quietKeeps {op : Op Context Data} (quiet : op.Quiet) (r : Reply Context Data op) : f.next a ord eventName rounds op r = f := by
  cases op with
  | lockBreaker breaker call => cases call <;> first | rfl | exact absurd quiet id
  | hook h event => cases event <;> first | (cases r <;> rfl) | exact absurd quiet id
  | record event =>
    cases r with
    | ok _ => rfl
    | error _ =>
      have other : ¬event.outcome = .FAILED := by rw [show event.outcome = .SUCCESS from quiet]; decide
      exact if_neg other
  | _ => first | rfl | exact absurd quiet id

theorem quietObeys {α : Type} {p : Act Context Data α} (asks : p.Asks Op.Quiet) :
    (footing a ord eventName rounds).Obeys (fun f' _ => f' = f) f p := by
  refine @obeysAsks _ _ _ _ _ (footing a ord eventName rounds) f Op.Quiet (· = f) p asks ?_ rfl
  intro f' op same quiet
  refine ⟨trivial,fun r _ => ?_⟩
  rw [same]
  exact quietKeeps quiet r

theorem notifiesQuiet (op : Op Context Data) (notifies : op.Notifies) : op.Quiet := by
  cases op with
  | hook h event => cases event <;> trivial
  | _ => trivial

theorem panicThen {α β : Type} {good : Footing → β → Prop} {x : Except Panic α} {k : α → Act Context Data β}
    (panics : ∀ p, x = .error p → Left f (.panicked p))
    (rest : ∀ v, (footing a ord eventName rounds).Obeys (Leaves good) f (k v)) :
    (footing a ord eventName rounds).Obeys (Leaves good) f (orPanic x >>= k) := by
  cases x with
  | error p => exact panics p rfl
  | ok v => exact rest v

theorem quietThen {α β : Type} {good : Footing → β → Prop} {p : Act Context Data α} {k : α → Act Context Data β} (asks : p.Asks Op.Quiet)
    (stops : ∀ stop, Left f stop) (rest : ∀ x, (footing a ord eventName rounds).Obeys (Leaves good) f (k x)) :
    (footing a ord eventName rounds).Obeys (Leaves good) f (p >>= k) := by
  refine obeysBind (obeysMono (quietObeys asks) (fun f' r same => ?_))
  subst same
  cases r with
  | ok x => exact rest x
  | error stop => exact stops stop

variable {record : TransactionRecord} {misses : Bool}

theorem goingBefore {handlerName : String} {breaker : Option Nat} (going : f.Going record misses) :
    (footing a ord eventName rounds).Obeys (Leaves fun f' _ => f'.Going record misses) f
      (DfsmActor.beforeExecution handlerName breaker : Act Context Data Unit) := by
  cases breaker with
  | none => exact going
  | some breaker =>
    unfold DfsmActor.beforeExecution
    refine obeysAsk trivial ?_
    rintro ⟨cb,now⟩ _
    refine obeysAsk trivial (fun _ _ => ?_)
    simp only [footing,Footing.next]
    cases (cb.beforeExecution now).2 with
    | none => exact going
    | some waitMs => exact fun _ => goingBreaks going

theorem successThen {β : Type} {good : Footing → β → Prop} {breaker : Option Nat} {k : Unit → Act Context Data β}
    (rest : (footing a ord eventName rounds).Obeys (Leaves good) f (k ())) :
    (footing a ord eventName rounds).Obeys (Leaves good) f (DfsmActor.onSuccess breaker >>= k) := by
  cases breaker with
  | none => exact rest
  | some breaker => exact ⟨trivial,fun _ _ => ⟨trivial,fun _ _ => rest⟩⟩

theorem failureThen {β : Type} {good : Footing → β → Prop} {breaker : Option Nat} {k : Unit → Act Context Data β}
    (rest : (footing a ord eventName rounds).Obeys (Leaves good) f (k ())) :
    (footing a ord eventName rounds).Obeys (Leaves good) f (DfsmActor.onFailure breaker >>= k) := by
  cases breaker with
  | none => exact rest
  | some breaker => exact ⟨trivial,fun _ _ => ⟨trivial,fun _ _ => rest⟩⟩

/-- After the attempts the step goes where the last of them leads. -/
abbrev GoingOn (a : DfsmActor Context Data) (ord : Order) (eventName : String) (rounds : Nat) (record : TransactionRecord)
    (f : Footing) (tried : Tried Context Data) : Prop :=
  f.Going record (stepMisses a ord eventName rounds tried.lastErr.isSome record)

theorem goingTried {failed : Bool} (going : f.Going record misses) :
    (f.tried a ord eventName rounds failed).Going record (stepMisses a ord eventName rounds failed record) :=
  ⟨going.here,going.inFlight,going.marked,going.whole,by rw [Footing.tried,going.here]; rfl⟩

theorem goingRetry {breaker : Option Nat} {handlerName : String} {request : TransitionRequest Context Data} (left : Nat) :
    ∀ {made : Nat} {lastErr : Option String} {f : Footing}, f.Going record (stepMisses a ord eventName rounds lastErr.isSome record) →
      (footing a ord eventName rounds).Obeys (Leaves (GoingOn a ord eventName rounds record)) f
        (DfsmActor.retryLoop breaker handlerName request left made lastErr) := by
  induction left with
  | zero => intro made lastErr f going; exact going
  | succ left ih =>
    intro made lastErr f going
    rw [DfsmActor.retryLoop]
    refine obeysAsk trivial (fun r _ => ?_)
    cases r with
    | error p => exact fun _ => goingBreaks going
    | ok result =>
      cases result with
      | ok output => exact successThen (goingTried going)
      | error err =>
        refine failureThen ?_
        split
        · exact ⟨trivial,fun _ _ => ih (goingTried going)⟩
        · exact ih (goingTried going)

theorem goingExecute {chosen : Chosen Data} {breaker : Option Nat} {userCtx : Context} {currentState : StateValue}
    (going : f.Going record (stepMisses a ord eventName rounds false record)) :
    (footing a ord eventName rounds).Obeys (Leaves (GoingOn a ord eventName rounds record)) f
      (DfsmActor.executeHandler txId eventName chosen breaker userCtx currentState) := by
  unfold DfsmActor.executeHandler
  split
  · exact obeysThen _ (goingBefore going) (fun f _ going => goingRetry _ going)
  · exact going

theorem goingExcept {α β γ : Type} {good : Footing → β → Prop} {x : Except Stop α} {y : α → Except Stop γ} {k : α → Act Context Data β}
    (going : f.Going record (missed (x >>= y)))
    (rest : ∀ v, x = .ok v → f.Going record (missed (y v)) → (footing a ord eventName rounds).Obeys (Leaves good) f (k v)) :
    (footing a ord eventName rounds).Obeys (Leaves good) f (.ofExcept x >>= k) := by
  cases x with
  | error stop => exact goingStop going
  | ok v => exact rest v rfl going

theorem goingCommit {committed : TransactionRecord} (going : f.Going record false) (settled : committed.status.IsSettled) :
    (f.updated a ord eventName rounds committed).Closed := by
  have other : ¬committed.status = .IN_FLIGHT := by
    intro same
    rw [same] at settled
    rcases settled with h | h | h | h <;> exact absurd h (by decide)
  rw [Footing.updated,if_neg other]
  exact ⟨going.whole,going.misses,committed,rfl,settled⟩

theorem closedQuiet {α : Type} {p : Act Context Data α} (asks : p.Asks Op.Quiet) (closed : f.Closed) :
    (footing a ord eventName rounds).Obeys (Leaves fun f' _ => f'.Released) f p := by
  refine obeysMono (quietObeys asks) (fun f' r same => ?_)
  subst same
  cases r with
  | ok _ => exact closedReleased closed
  | error _ => exact fun _ => closedReleased closed

theorem goingSucceed {depth durationMs : Int} {chosen : Chosen Data} {userCtx : Context} {tried : Tried Context Data}
    (going : f.Going record (successMisses a ord rounds record.currentState chosen.matched)) :
    (footing a ord eventName rounds).Obeys (Leaves fun f' _ => f'.Released) f
      (a.succeed ord txId eventName rounds depth durationMs chosen record userCtx tried) := by
  unfold DfsmActor.succeed
  refine goingExcept going (fun applied _ going => ?_)
  have pushed {β : Type} {k : Unit → Act Context Data β} {good : Footing → β → Prop} {prevState targetState contextBefore}
      (rest : (footing a ord eventName rounds).Obeys (Leaves good) f (k ())) :
      (footing a ord eventName rounds).Obeys (Leaves good) f
        (a.pushStep txId chosen prevState targetState contextBefore >>= k) := by
    unfold DfsmActor.pushStep
    split
    · exact rest
    · exact ⟨trivial,fun _ _ => ⟨trivial,fun _ _ => ⟨trivial,fun r _ => by cases r <;> exact rest⟩⟩⟩
  refine pushed ?_
  rw [← bind_pure (a.cascadeOnDone (ord.below "cascade") rounds applied.nextStateValue)] at going
  refine goingExcept going (fun settled _ going => ?_)
  refine obeysAsk trivial (fun updatedAt _ => obeysAsk trivial ?_)
  rintro _ rfl
  have final := resolvedSettled (ord.below "status") a.machine settled false
  refine closedQuiet ?_ (goingCommit going final)
  refine Program.asksRequest rfl (fun r => Program.asksBind panicAsks (fun _ => ?_))
  exact Program.asksBind (Program.asksMono successNotifies notifiesQuiet) (fun _ => trivial)

theorem goingCompensate {step : SagaStepRecord} {unwound : DfsmActor.Unwound Context} (going : f.Going record misses) :
    (footing a ord eventName rounds).Obeys (Leaves fun f' _ => f'.Going record misses) f (a.compensateStep txId step unwound) := by
  unfold DfsmActor.compensateStep
  split
  · refine obeysAsk trivial (fun r _ => ?_)
    cases r with
    | error p => exact fun _ => goingBreaks going
    | ok _ =>
      by_cases unwritten : step.contextBeforeJson = ""
      · rw [if_pos unwritten]
        exact going
      · rw [if_neg unwritten]
        exact going
  · exact going

theorem goingHooks {t name : String} {from_ to_ : StateValue} {n : Nat} (going : f.Going record misses) :
    (footing a ord eventName rounds).Obeys (Leaves fun f' _ => f'.Going record misses) f
      (a.fireHook .onCompensate (.onCompensate t name from_ to_ n)) := by
  unfold DfsmActor.fireHook
  refine obeysEach (fun (f' : Footing) (_ : Unit) => f'.Going record misses) (fun h f' _ going => ?_) _ going
  refine And.intro trivial (fun r _ => ?_)
  cases r with
  | error p => exact fun _ => goingBreaks going
  | ok _ => exact going

theorem goingUnwind (remaining : Nat) : ∀ {f : Footing} {unwound : DfsmActor.Unwound Context}, f.Going record misses →
    (footing a ord eventName rounds).Obeys (Leaves fun f' _ => f'.Going record misses) f (a.unwind txId remaining unwound) := by
  induction remaining with
  | zero => intro f unwound going; exact going
  | succ remaining ih =>
    intro f unwound going
    rw [DfsmActor.unwind]
    refine obeysAsk trivial (fun r _ => ?_)
    split
    · refine obeysThen _ (goingCompensate going) (fun f _ going => ?_)
      exact obeysThen _ (goingHooks going) (fun f _ going => ih going)
    · exact going

theorem goingRollBack {unwound : DfsmActor.Unwound Context} {rollback : Bool} (going : f.Going record misses) :
    (footing a ord eventName rounds).Obeys (Leaves fun f' _ => f'.Going record misses) f (a.rollBack txId rollback unwound) := by
  unfold DfsmActor.rollBack
  split
  · refine obeysAsk trivial (fun r _ => ?_)
    cases r with
    | ok stack => exact goingUnwind _ going
    | error _ => exact going
  · exact going

theorem goingFail {durationMs : Int} {chosen : Chosen Data} {userCtx : Context} {attempts : Nat} {lastErr : String}
    (policy : chosen.policy = (a.choose eventName chosen.matched none).policy)
    (going : f.Going record (failMisses a ord eventName record.currentState chosen.matched)) :
    (footing a ord eventName rounds).Obeys (Leaves fun f' _ => f'.Released) f
      (a.fail ord txId eventName durationMs chosen record userCtx attempts lastErr) := by
  rw [failMisses,← policy,← bind_pure (a.applyTarget _ _ _ _ _)] at going
  unfold DfsmActor.fail
  refine obeysAsk trivial (fun r _ => ?_)
  cases r with
  | error p => exact fun _ => goingBreaks going
  | ok _ =>
    refine panicThen (fun p same => by cases same) (fun _ => obeysThen _ (goingRollBack going) (fun f unwound going => ?_))
    refine goingExcept going (fun applied _ going => ?_)
    refine obeysAsk trivial (fun updatedAt _ => obeysAsk trivial ?_)
    rintro _ rfl
    have final := resolvedSettled (ord.below "status") a.machine applied.nextStateValue (chosen.policy.onFail.any (·.compensate))
    refine closedQuiet ?_ (goingCommit going final)
    exact Program.asksBind (Program.asksMono (hooksNotify (fun _ => trivial)) notifiesQuiet) (fun _ => trivial)

theorem loadThen {β : Type} {good : Footing → β → Prop} {chosen : Chosen Data} {k : Option Nat → Act Context Data β}
    (rest : ∀ breaker, (footing a ord eventName rounds).Obeys (Leaves good) f (k breaker)) :
    (footing a ord eventName rounds).Obeys (Leaves good) f (DfsmActor.loadBreaker chosen >>= k) := by
  unfold DfsmActor.loadBreaker
  cases chosen.policy.circuitBreaker with
  | none => exact rest none
  | some policy => exact obeysAsk trivial (fun breaker _ => rest (some breaker))

theorem goingStep {depth : Int} {input : Option Data} {matched : MatchedTransition}
    (selected : a.selectTransition ord eventName record.currentState = some matched)
    (going : f.Going record (stepMisses a ord eventName rounds false record)) :
    (footing a ord eventName rounds).Obeys (Leaves fun f' _ => f'.Released) f
      (a.execute ord txId eventName rounds depth (a.choose eventName matched input) record) := by
  unfold DfsmActor.execute
  refine loadThen (fun breaker => obeysAsk trivial (fun startTime _ => ?_))
  refine obeysThen _ (goingExecute going) (fun f tried going => obeysAsk trivial (fun ended _ => ?_))
  rw [GoingOn,stepMisses,selected,Option.any_some] at going
  cases outcome : tried.lastErr with
  | none =>
    rw [outcome] at going
    exact goingSucceed going
  | some lastErr =>
    rw [outcome] at going
    exact goingFail rfl going

theorem freeStop {stop : Stop} : Left {} stop := fun _ marked => absurd marked (by decide)

theorem createQuiet {depth : Int} : (a.loadOrCreate ord txId eventName depth).Asks Op.Quiet := by
  refine Program.asksRequest trivial (fun r => Program.asksBind returnAsks (fun found => Program.asksRequest trivial (fun now => ?_)))
  cases found with
  | some record => trivial
  | none =>
    dsimp only
    unfold DfsmActor.create
    split
    · trivial
    · refine Program.asksRequest trivial (fun r => Program.asksBind returnAsks (fun _ => ?_))
      exact Program.asksBind (Program.asksMono (hooksNotify (fun _ => trivial)) notifiesQuiet) (fun _ => Program.asksBind (Program.asksMono effectsNotify notifiesQuiet) (fun _ => trivial))

theorem freeTransition {depth : Int} {input : Option Data} :
    (footing a ord eventName rounds).Obeys (Leaves fun f _ => f.Released) {}
      (a.transitionOn ord txId eventName rounds depth input record) := by
  unfold DfsmActor.transitionOn
  split
  · exact freeStop
  · split
    · exact freeStop
    · rename_i matched selected
      refine quietThen (Program.asksMono validateNotifies notifiesQuiet) (fun _ => freeStop) (fun _ => ?_)
      refine quietThen (Program.asksMono (hooksNotify (fun _ => trivial)) notifiesQuiet) (fun _ => freeStop) (fun _ => ?_)
      unfold DfsmActor.markInFlight
      refine obeysAsk trivial (fun updatedAt _ => obeysAsk trivial ?_)
      rintro _ rfl
      exact goingStep selected ⟨rfl,rfl,rfl,rfl,rfl⟩

/-- No abandoned step: whatever is registered does, a call that marked its record leaves it
settled exactly when neither a refusal nor a panic broke the step, and the target that its
outcome leads to was there. -/
theorem noStepLeftOpen (a : DfsmActor Context Data) (ord : Order) (txId eventName : String) (rounds : Nat) (depth : Int)
    (input : Option Data) : (footing a ord eventName rounds).Obeys (fun f r => r ≠ .error .running → f.Released) {}
      (a.transition ord txId eventName rounds depth input) := by
  have whole : (footing a ord eventName rounds).Obeys (Leaves fun f _ => f.Released) {}
      (a.transition ord txId eventName rounds depth input) := by
    unfold DfsmActor.transition
    split
    · exact freeStop
    · exact quietThen createQuiet (fun _ => freeStop) (fun record => freeTransition)
  refine obeysMono whole (fun f r released returns => ?_)
  cases r with
  | ok _ => exact released
  | error stop => exact released (fun same => returns (by rw [same]))

end

def gate : MachineDefinition where
  id := "gate"
  initial := "shut"
  states := [("shut",{ id := "shut", on := [("open",[{ target := "opened", handler := "unlock" }])] }),
    ("opened",{ id := "opened", type := "final" }),
    ("error",{ id := "error", type := "final" })]

/-- The handler has a circuit breaker. -/
def gateActor : DfsmActor Unit Unit where
  machine := gate
  registry := {
    transitions := [("unlock",{ policy := some { cbDefined := true } })]
    zeroContext := ()
    marshalContext _ := "{}"
    unmarshalContext _ _ := ()
    marshalData _ := "null"
    unmarshalData _ := some () }

def gateRecord : TransactionRecord where
  transactionId := "t"
  machineId := "gate"
  currentState := leaf "shut"
  status := .IDLE
  contextJson := "{}"
  version := 1
  createdAt := 0
  updatedAt := 0

def listed : Order := fun _ _ => 0

/-- The breaker is open, and the gate's transaction stays in flight. -/
theorem noStepLeftOpenRefused : ¬∀ (a : DfsmActor Unit Unit), Parsed a.machine → ∀ ord txId eventName rounds depth input,
    (footing a ord eventName rounds).Obeys (fun f r => r ≠ .error .running → f.marked = true →
      ∃ record, f.record = some record ∧ record.status.IsSettled) {} (a.transition ord txId eventName rounds depth input) := by
  intro claim
  have start := claim gateActor (by decide) listed "t" "open" 20 0 none
  have loaded := And.right start (.ok (some gateRecord)) ⟨_,rfl⟩
  have stamped := And.right loaded (0 : Int) trivial
  have marking := And.right stamped (1 : Int) trivial
  have marked := And.right marking (.ok ()) rfl
  have known := And.right marked (0 : Nat) trivial
  have timed := And.right known (0 : Int) trivial
  have locked := And.right timed ({ policy := ⟨true,5,30000,2⟩, state := .OPEN },1) trivial
  obtain ⟨record,here,settled⟩ := And.right locked () trivial (by simp) rfl
  cases here
  exact absurd settled (by simp [TransactionStatus.IsSettled])

end Dfsm.Go
