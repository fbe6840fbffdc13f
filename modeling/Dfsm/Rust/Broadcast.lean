import Dfsm.Rust.Dispatch
import Dfsm.Rust.Requests

/-! What a transition of the Rust actor executes of the matches it has found. -/
namespace Dfsm.Rust
open Protocol Program Act

/-- A handler that succeeded. -/
structure Handled (Context Data : Type) where
  name : String
  context : Context
  output : HandlerOutput Data

/-- The handler that a match runs: one that is registered, where its policy has an attempt for it. -/
def Chosen.runs (chosen : Chosen) : Option String := if 0 < chosen.policy.maxAttempts then chosen.registered else none

variable {Context Data : Type}

/-- The matches in order, the context of each the one its predecessor has left. -/
def Follows (a : DfsmActor Context Data) (event : String) : List MatchedTransition → Context → List (Handled Context Data) → Prop
  | [], _, calls => calls = []
  | matched::rest, context, calls => match (a.choose event matched).runs with
    | none => Follows a event rest context calls
    | some name => ∃ call later, calls = call::later ∧ call.name = name ∧ call.context = context ∧
      Follows a event rest (a.updatedContext ⟨context,""⟩ call.output.1).context later

/-- The record a call has marked, and the handlers that have succeeded since. -/
structure Ran (Context Data : Type) where
  record : Option TransactionRecord := none
  calls : List (Handled Context Data) := []

def Ran.after (ran : Ran Context Data) : Event (Reply Context Data) → Ran Context Data
  | ⟨.updateTransaction record _,.ok _⟩ => if record.status = .IN_FLIGHT then { record := some record } else ran
  | ⟨.handler name call,.ok output⟩ => { ran with calls := ran.calls ++ [⟨name,call.context,output⟩] }
  | _ => ran

/-- Every call keeps to it; it follows what the call has marked and run. -/
def following : Protocol (Reply Context Data) (Ran Context Data) where
  allowed _ _ := True
  replies _ _ := True
  after ran op r := ran.after ⟨op,r⟩

/-- From this value on all the matches for the event have been executed. -/
def Executed (a : DfsmActor Context Data) (v : StateValue) (event : String) (ran : Ran Context Data) : Prop :=
  ∀ record, ran.record = some record → record.currentState = v →
    Follows a event (resolveTransitionsForEvent a.machine v event) (a.registry.loadContext record.contextJson) ran.calls

/-- A call that returns with success, or has come to follow the completions, has executed them. -/
def AllExecuted (a : DfsmActor Context Data) (v : StateValue) (event : String) (ran : Ran Context Data) :
    Except Stop (TransitionExecutionResult Data) → Prop
  | .ok result => result.status = .IDLE ∨ result.status = .COMPLETED → Executed a v event ran
  | .error .running => Executed a v event ran
  | .error (.returned _) => True

def Executes (m : MachineDefinition) (v : StateValue) (event : String) : Prop :=
  ∀ (Context Data : Type) (a : DfsmActor Context Data), a.machine = m → ∀ txId rounds input depth,
    following.Obeys (AllExecuted a v event) {} (a.transitionInternal txId event rounds input depth)

section
variable {a : DfsmActor Context Data} {v : StateValue} {txId event : String} {ran : Ran Context Data} {α β : Type}

/-- Neither a handler nor an update. -/
def Op.Other : Op Context Data → Prop
  | .handler _ _ | .updateTransaction _ _ => False
  | _ => True

theorem otherKeeps {op : Op Context Data} (other : op.Other) (r : Reply Context Data op) : ran.after ⟨op,r⟩ = ran := by
  cases op <;> first | contradiction | rfl

/-- A part of a call that runs no handler, updates nothing and is not a loop without end. -/
def Quiet (p : Act Context Data α) : Prop :=
  ∀ ran, following.Obeys (Protocol.Outcome (fun ran' _ => ran' = ran) (fun _ stop => stop ≠ .running)) ran p

theorem quietPure {x : α} : Quiet (pure x : Act Context Data α) := fun _ => rfl

theorem quietAsk {op : Op Context Data} {k : Reply Context Data op → Act Context Data β} (other : op.Other) (rest : ∀ r, Quiet (k r)) :
    Quiet (ask op >>= k) := by
  refine fun ran => ⟨trivial,fun r _ => ?_⟩
  have kept : following.after ran op r = ran := otherKeeps other r
  rw [kept]
  exact rest r ran

theorem quietOne (op : Op Context Data) (other : op.Other) : Quiet (ask op) := by
  refine fun ran => ⟨trivial,fun r _ => ?_⟩
  exact otherKeeps other r

theorem quietReturn {x : Except DfsmError α} : Quiet (orReturn x : Act Context Data α) := by
  intro ran
  cases x with
  | ok x => exact rfl
  | error e => exact fun same => by cases same

theorem quietBind {p : Act Context Data α} {k : α → Act Context Data β} (quiet : Quiet p) (rest : ∀ x, Quiet (k x)) : Quiet (p >>= k) := by
  refine fun ran => obeysThen _ (quiet ran) ?_
  rintro _ x rfl
  exact rest x _

theorem quietFold {γ : Type} {body : α → γ → Act Context Data α} (each : ∀ a x, Quiet (body a x)) (xs : List γ) (a : α) :
    Quiet (xs.foldlM body a) := by
  induction xs generalizing a with
  | nil => exact quietPure
  | cons x xs ih =>
    rw [List.foldlM_cons]
    exact quietBind (each a x) ih

theorem quietThen {good : Ran Context Data → β → Prop} {bad : Ran Context Data → Stop → Prop} {p : Act Context Data α}
    {k : α → Act Context Data β} (quiet : Quiet p) (stops : ∀ ran e, bad ran (.returned e))
    (rest : ∀ x, following.Obeys (Protocol.Outcome good bad) ran (k x)) : following.Obeys (Protocol.Outcome good bad) ran (p >>= k) := by
  refine obeysBind (obeysMono (quiet ran) (fun ran' r holds => ?_))
  cases r with
  | ok x =>
    have same : ran' = ran := holds
    rw [same]
    exact rest x
  | error stop =>
    cases stop with
    | returned e => exact stops ran' e
    | running => exact absurd rfl holds

theorem exceptThen {good : Ran Context Data → β → Prop} {bad : Ran Context Data → Stop → Prop} {x : Except Stop α} {k : α → Act Context Data β}
    (stops : ∀ stop, x = .error stop → bad ran stop) (rest : ∀ v, x = .ok v → following.Obeys (Protocol.Outcome good bad) ran (k v)) :
    following.Obeys (Protocol.Outcome good bad) ran (.ofExcept x >>= k) := by
  cases x with
  | error stop => exact stops stop rfl
  | ok v => exact rest v rfl

theorem updateThen {good : Ran Context Data → β → Prop} {bad : Ran Context Data → Stop → Prop} {committed : TransactionRecord} {version : Int}
    {k : Except DfsmError Unit → Act Context Data β} (settles : committed.status ≠ .IN_FLIGHT)
    (rest : ∀ r, following.Obeys (Protocol.Outcome good bad) ran (k r)) :
    following.Obeys (Protocol.Outcome good bad) ran (ask (.updateTransaction committed version) >>= k) := by
  refine ⟨trivial,fun r _ => ?_⟩
  have kept : following.after ran (.updateTransaction committed version) r = ran := by
    cases r with
    | error _ => rfl
    | ok _ => exact if_neg settles
  rw [kept]
  exact rest r

theorem hooksQuiet {hookType : HookType} {payload : HookEvent} : Quiet (a.fireHook hookType payload) :=
  quietFold (fun _ h => quietOne (.hook h payload) trivial) _ _

theorem effectsQuiet {depth : Nat} {userCtx : Context} {state : StateValue} {effects : List String} :
    Quiet (a.runEffects txId event depth userCtx state effects) := by
  refine quietFold (fun _ eff => ?_) _ _
  unfold DfsmActor.runEffectInternal
  split
  · exact quietAsk trivial (fun _ => quietPure)
  · exact quietPure

theorem createQuiet {depth : Nat} : Quiet (a.create txId event depth) := by
  unfold DfsmActor.create
  refine quietAsk trivial (fun now => quietAsk trivial (fun created => ?_))
  exact quietBind quietReturn (fun _ => quietBind hooksQuiet (fun _ => quietBind effectsQuiet (fun _ => quietPure)))

theorem loadQuiet {depth : Nat} : Quiet (a.loadOrCreate txId event depth) := by
  unfold DfsmActor.loadOrCreate
  refine quietAsk trivial (fun r => quietBind quietReturn (fun found => ?_))
  cases found with
  | some r => exact quietPure
  | none => exact createQuiet

theorem loadBreakerQuiet {chosen : Chosen} : Quiet (DfsmActor.loadBreaker chosen : Act Context Data (Option Nat)) := by
  unfold DfsmActor.loadBreaker
  split
  · exact quietPure
  · split
    · exact quietAsk trivial (fun _ => quietPure)
    · exact quietPure

theorem beforeQuiet {handlerName : String} {breaker : Option Nat} :
    Quiet (DfsmActor.beforeExecution handlerName breaker : Act Context Data Unit) := by
  cases breaker with
  | none => exact quietPure
  | some breaker =>
    refine quietAsk trivial (fun r => ?_)
    refine quietAsk trivial (fun _ => ?_)
    split
    · exact fun ran same => by cases same
    · exact quietPure

theorem successQuiet {breaker : Option Nat} : Quiet (DfsmActor.onSuccess breaker : Act Context Data Unit) := by
  cases breaker with
  | none => exact quietPure
  | some breaker => exact quietAsk trivial (fun r => quietAsk trivial (fun _ => quietPure))

theorem failureQuiet {breaker : Option Nat} : Quiet (DfsmActor.onFailure breaker : Act Context Data Unit) := by
  cases breaker with
  | none => exact quietPure
  | some breaker => exact quietAsk trivial (fun r => quietAsk trivial (fun _ => quietPure))

theorem pushQuiet {input : Option Data} {chosen : Chosen} {prevState targetState : StateValue} {ctxJson : String} :
    Quiet (a.pushStep txId input chosen prevState targetState ctxJson) := by
  unfold DfsmActor.pushStep
  split
  · exact quietPure
  · exact quietAsk trivial (fun stamp => quietAsk trivial (fun timestamp => quietAsk trivial (fun r => quietReturn)))

theorem notifyQuiet {depth : Nat} {r : TransactionRecord} {prevState : StateValue} {currentCtx : Context} {applied : AppliedTransition} :
    Quiet (a.notifySuccess txId event depth r prevState currentCtx applied) := by
  have effects {effects : List String} : Quiet (a.runEffects txId event depth currentCtx r.currentState effects) := effectsQuiet
  unfold DfsmActor.notifySuccess
  refine quietBind hooksQuiet (fun _ => ?_)
  split
  · exact quietBind hooksQuiet (fun _ => quietBind hooksQuiet (fun _ => quietBind effects (fun _ => effects)))
  · exact quietBind effects (fun _ => effects)

theorem compensateQuiet {step : SagaStepRecord} {carried : Carried Context} : Quiet (a.compensateStep txId step carried) := by
  unfold DfsmActor.compensateStep
  split
  · exact quietPure
  · refine quietAsk trivial (fun _ => ?_)
    split
    · exact quietPure
    · split <;> exact quietPure

theorem unwindQuiet (remaining : Nat) {carried : Carried Context} {compensated : Nat} :
    Quiet (a.unwind txId remaining carried compensated) := by
  induction remaining generalizing carried compensated with
  | zero => exact quietPure
  | succ remaining ih =>
    rw [DfsmActor.unwind]
    refine quietAsk trivial (fun r => quietBind quietReturn (fun popped => ?_))
    cases popped with
    | none => exact quietPure
    | some step => exact quietBind compensateQuiet (fun _ => quietBind hooksQuiet (fun _ => ih))

theorem rollBackQuiet {rollback : Bool} {carried : Carried Context} : Quiet (a.rollBack txId rollback carried) := by
  unfold DfsmActor.rollBack
  split
  · exact quietAsk trivial (fun r => quietBind quietReturn (fun stack => unwindQuiet _))
  · exact quietPure

/-! From the mark on. -/

/-- The handler has succeeded once, where it has an attempt at all. -/
def Once (attempts : Nat) (name : String) (context : Context) (calls : List (Handled Context Data)) : Prop :=
  if 0 < attempts then ∃ output, calls = [⟨name,context,output⟩] else calls = []

variable {matched : MatchedTransition} {marked : TransactionRecord} {carried : Carried Context} {input : Option Data}

theorem attemptRuns {breaker : Option Nat} {name : String} {call : TransitionCall Context Data} {total : Nat} (left : Nat) :
    ∀ {made : Nat} {lastErr : Option DfsmError} {ran : Ran Context Data}, left ≤ total → (lastErr = none → left = total) →
      ran.record = some marked → ran.calls = [] →
      following.Obeys (Protocol.Outcome (fun ran (tried : Tried Context Data) => ran.record = some marked ∧
        (tried.lastErr = none → Once total name call.context ran.calls)) (fun _ stop => stop ≠ .running)) ran
        (a.attemptLoop breaker name call carried left made lastErr) := by
  induction left with
  | zero =>
    intro made lastErr ran _ first here none_
    refine ⟨here,fun ended => ?_⟩
    rw [Once,if_neg (by have := first ended; omega)]
    exact none_
  | succ left ih =>
    intro made lastErr ran bound first here none_
    rw [DfsmActor.attemptLoop]
    refine obeysAsk trivial (fun r _ => ?_)
    have errors : ∀ (ran : Ran Context Data) e, (fun (_ : Ran Context Data) stop => stop ≠ Stop.running) ran (.returned e) :=
      fun _ _ same => by cases same
    cases r with
    | ok output =>
      obtain ⟨updatedCtx,out⟩ := output
      refine quietThen successQuiet errors (fun _ => ⟨here,fun _ => ?_⟩)
      rw [Once,if_pos (by omega)]
      exact ⟨(updatedCtx,out),congrArg (· ++ [_]) none_⟩
    | error e =>
      have next {made : Nat} := @ih made (some e) ran (by omega) (fun same => by cases same) here none_
      refine quietThen failureQuiet errors (fun _ => ?_)
      split
      · exact quietThen (quietOne _ trivial) errors (fun _ => next)
      · exact next

theorem executeRuns {breaker : Option Nat} {currentState : StateValue} (here : ran.record = some marked) (none_ : ran.calls = []) :
    following.Obeys (Protocol.Outcome (fun ran (tried : Tried Context Data) => ran.record = some marked ∧
      (tried.lastErr = none → Follows a event [matched] carried.context ran.calls)) (fun _ stop => stop ≠ .running)) ran
      (a.executeHandler txId event input (a.choose event matched) breaker carried currentState) := by
  unfold DfsmActor.executeHandler
  cases registered : (a.choose event matched).registered with
  | none =>
    refine ⟨here,fun _ => ?_⟩
    have nothing : (a.choose event matched).runs = none := by rw [Chosen.runs,registered]; exact ite_self _
    simp only [Follows,nothing]
    exact none_
  | some name =>
    refine quietThen beforeQuiet (fun _ _ same => by cases same) (fun _ => ?_)
    refine obeysMono (attemptRuns _ (Nat.le_refl _) (fun _ => rfl) here none_) (fun ran r holds => ?_)
    cases r with
    | error stop => exact holds
    | ok tried =>
      refine ⟨holds.1,fun ended => ?_⟩
      have once := holds.2 ended
      by_cases attempts : 0 < (a.choose event matched).policy.maxAttempts
      · rw [Once,if_pos attempts] at once
        obtain ⟨output,calls⟩ := once
        have runs : (a.choose event matched).runs = some name := by rw [Chosen.runs,if_pos attempts,registered]
        simp only [Follows,runs]
        exact ⟨_,[],calls,rfl,rfl,rfl⟩
      · rw [Once,if_neg attempts] at once
        have runs : (a.choose event matched).runs = none := by rw [Chosen.runs,if_neg attempts]
        simp only [Follows,runs]
        exact once

/-- What the last part of the call comes to. -/
abbrev Settles (a : DfsmActor Context Data) (v : StateValue) (event : String) :
    Ran Context Data → Except Stop (TransitionExecutionResult Data) → Prop :=
  Protocol.Outcome (fun ran result => result.status = .IDLE ∨ result.status = .COMPLETED → Executed a v event ran)
    (fun ran stop => stop = .running → Executed a v event ran)

theorem settlesError (ran : Ran Context Data) (e : DfsmError) :
    (fun (ran : Ran Context Data) stop => stop = Stop.running → Executed a v event ran) ran (.returned e) := by
  intro same
  cases same

theorem settledOpen (currentState : StateValue) : a.settledStatus currentState ≠ .IN_FLIGHT := by
  unfold DfsmActor.settledStatus
  split
  · split <;> simp
  · simp

theorem succeedRuns {rounds depth : Nat} {durationMs : Int} {chosen : Chosen} {tried : Tried Context Data} (executed : Executed a v event ran) :
    following.Obeys (Settles a v event) ran (a.succeed txId event rounds depth input durationMs chosen marked tried) := by
  unfold DfsmActor.succeed
  refine quietThen pushQuiet settlesError (fun _ => ?_)
  refine exceptThen (fun stop _ _ => executed) (fun settled _ => ?_)
  refine quietThen (quietOne .nowMs trivial) settlesError (fun updatedAt => updateThen (settledOpen settled) ?_)
  refine fun r => quietThen quietReturn settlesError (fun _ => quietThen (quietOne (.record _) trivial) settlesError (fun _ => ?_))
  exact quietThen notifyQuiet settlesError (fun _ _ => executed)

theorem failRuns {durationMs : Int} {chosen : Chosen} {tried : Tried Context Data} {lastErr : DfsmError} :
    following.Obeys (Settles a v event) ran (a.fail txId event durationMs chosen marked tried lastErr) := by
  unfold DfsmActor.fail
  refine quietThen (quietOne (.record _) trivial) settlesError (fun _ => quietThen rollBackQuiet settlesError ?_)
  rintro ⟨unwound,compensatedSteps⟩
  refine quietThen (quietOne .nowMs trivial) settlesError (fun updatedAt => updateThen ?_ (fun r => ?_))
  · dsimp only
    split <;> simp
  · refine quietThen quietReturn settlesError (fun _ => quietThen hooksQuiet settlesError (fun _ successful => ?_))
    dsimp only at successful
    split at successful <;> simp at successful

theorem stepRuns {rounds depth : Nat} (single : marked.currentState = v → resolveTransitionsForEvent a.machine v event = [matched])
    (here : ran.record = some marked) (none_ : ran.calls = []) :
    following.Obeys (Settles a v event) ran (a.execute txId event rounds depth input (a.choose event matched) marked) := by
  unfold DfsmActor.execute
  refine quietThen loadBreakerQuiet settlesError (fun breaker => quietThen (quietOne .instantNow trivial) settlesError (fun startTime => ?_))
  dsimp only
  refine obeysBind (obeysMono (executeRuns here none_) (fun ran r holds => ?_))
  cases r with
  | error stop => exact fun same => absurd same holds
  | ok tried =>
    obtain ⟨here,follows⟩ := holds
    refine quietThen (quietOne .instantNow trivial) settlesError (fun ended => ?_)
    split
    · rename_i succeeded
      refine succeedRuns (fun record same value => ?_)
      cases here.symm.trans same
      rw [single value]
      exact follows succeeded
    · exact failRuns

theorem markRuns {r : TransactionRecord} : following.Obeys (Protocol.Outcome (fun ran (marked : TransactionRecord) =>
      ran.record = some marked ∧ ran.calls = [] ∧ marked.currentState = r.currentState) (fun _ stop => stop ≠ .running)) ran
    (DfsmActor.markInFlight r : Act Context Data TransactionRecord) := by
  unfold DfsmActor.markInFlight
  refine quietThen (quietOne .nowMs trivial) (fun _ _ same => by cases same) (fun updatedAt => obeysAsk trivial (fun stored _ => ?_))
  cases stored with
  | error e => exact fun same => by cases same
  | ok _ => exact ⟨rfl,rfl,rfl⟩

theorem transitionRuns {rounds depth : Nat} (short : (resolveTransitionsForEvent a.machine v event).length ≤ 1) :
    following.Obeys (AllExecuted a v event) {} (a.transitionInternal txId event rounds input depth) := by
  have settles : following.Obeys (Settles a v event) {} (a.transitionInternal txId event rounds input depth) := by
    unfold DfsmActor.transitionInternal
    split
    · exact settlesError _ _
    · refine quietThen loadQuiet settlesError (fun r => ?_)
      unfold DfsmActor.transitionOn
      split
      · exact settlesError _ _
      · split
        · exact settlesError _ _
        · rename_i matched rest found
          refine quietThen hooksQuiet settlesError (fun _ => ?_)
          refine obeysBind (obeysMono markRuns (fun ran marked holds => ?_))
          cases marked with
          | error stop => exact fun same => absurd same holds
          | ok marked =>
            obtain ⟨here,none_,same⟩ := holds
            refine stepRuns (fun value => ?_) here none_
            rw [← same,value] at found
            rw [found] at short ⊢
            have alone : rest = [] := by simpa using short
            rw [alone]
  refine obeysMono settles (fun ran r holds => ?_)
  cases r with
  | ok result => exact holds
  | error stop => cases stop with
    | running => exact holds rfl
    | returned e => trivial

end

/-! Two matches: only the first is executed. -/

/-- Every match has a handler with one attempt. -/
def everyHandler (m : MachineDefinition) (v : StateValue) (event : String) : DfsmActor Unit Unit where
  machine := m
  registry := {
    transitions := (resolveTransitionsForEvent m v event).map
      (fun x => (x.edge.transition.getD event,{ policy := some { retryMaxAttempts := some 1, cbEnabled := some false } }))
    defaultContext := ()
    contextJson _ := "{}"
    parseContext _ := some ()
    fromValue _ := some ()
    valueText _ := "null"
    parseValue _ := some () }

section
variable {m : MachineDefinition} {v : StateValue} {event : String}

theorem everyRuns {x : MatchedTransition} (mem : x ∈ resolveTransitionsForEvent m v event) :
    ((everyHandler m v event).choose event x).registered = some (x.edge.transition.getD event) ∧
      ((everyHandler m v event).choose event x).policy.maxAttempts = 1 ∧
      ((everyHandler m v event).choose event x).policy.circuitBreaker.any (·.enabled) = false := by
  have same (l : List MatchedTransition) (mem : x ∈ l) :
      Keyed.get (l.map (fun x => (x.edge.transition.getD event,({ policy := some { retryMaxAttempts := some 1, cbEnabled := some false } } : RegisteredTransition))))
        (x.edge.transition.getD event) = some { policy := some { retryMaxAttempts := some 1, cbEnabled := some false } } := by
    induction l with
    | nil => cases mem
    | cons y rest ih =>
      rw [List.map_cons,Keyed.getCons]
      split
      · rfl
      · rename_i other
        rcases List.mem_cons.mp mem with rfl | later
        · exact absurd rfl other
        · exact ih later
  have found : find (everyHandler m v event).registry.transitions (x.edge.transition.getD event) =
      some (x.edge.transition.getD event,{ policy := some { retryMaxAttempts := some 1, cbEnabled := some false } }) := by
    rw [find,show Keyed.get (everyHandler m v event).registry.transitions _ = _ from same _ mem]
  simp only [DfsmActor.choose,FSMRegistry.findTransition,found]
  exact ⟨rfl,rfl,rfl⟩

theorem everyHandled {x : MatchedTransition} (mem : x ∈ resolveTransitionsForEvent m v event) :
    ((everyHandler m v event).choose event x).runs = some (x.edge.transition.getD event) := by
  obtain ⟨registered,attempts,_⟩ := everyRuns mem
  rw [Chosen.runs,attempts,registered]
  rfl

theorem oneCall {first : MatchedTransition} {rest : List MatchedTransition} (matches_ : resolveTransitionsForEvent m v event = first::rest)
    {context : Unit} {call : Handled Unit Unit} (follows : Follows (everyHandler m v event) event (first::rest) context [call]) : rest = [] := by
  have mem {x : MatchedTransition} (listed : x ∈ first::rest) : x ∈ resolveTransitionsForEvent m v event := by rwa [matches_]
  rcases rest with _ | ⟨y,rest⟩
  · rfl
  · simp only [Follows,everyHandled (mem List.mem_cons_self)] at follows
    obtain ⟨_,later,calls,_,_,follows⟩ := follows
    obtain rfl := (List.cons.inj calls).2
    simp only [everyHandled (mem (List.mem_cons_of_mem _ List.mem_cons_self))] at follows
    obtain ⟨_,_,none,_⟩ := follows
    cases none

theorem loadNone {chosen : Chosen} (off : chosen.policy.circuitBreaker.any (·.enabled) = false) :
    (DfsmActor.loadBreaker chosen : Act Unit Unit (Option Nat)) = pure none := by
  unfold DfsmActor.loadBreaker
  split
  · rfl
  · rename_i policy
    rw [if_neg (by simpa [policy] using off)]

def standingRecord (v : StateValue) : TransactionRecord where
  transactionId := "t"
  machineId := ""
  currentState := v
  status := .IDLE
  contextJson := "{}"
  version := 1
  createdAt := 0
  updatedAt := 0

theorem onlyFirst (depth : 0 < m.maxEffectChainDepth) {first : MatchedTransition} {rest : List MatchedTransition}
    (matches_ : resolveTransitionsForEvent m v event = first::rest) (executes : Executes m v event) : rest = [] := by
  have all := executes Unit Unit (everyHandler m v event) rfl "t" 0 none 0
  have registered := everyRuns (show first ∈ resolveTransitionsForEvent m v event by rw [matches_]; exact List.mem_cons_self)
  unfold DfsmActor.transitionInternal at all
  rw [if_neg (show ¬(everyHandler m v event).machine.maxEffectChainDepth ≤ 0 from Nat.not_le.mpr depth)] at all
  have on : following.Obeys (AllExecuted (everyHandler m v event) v event) {}
      ((everyHandler m v event).transitionOn "t" event 0 0 none (standingRecord v)) := And.right all (.ok (some (standingRecord v))) trivial
  unfold DfsmActor.transitionOn at on
  rw [if_neg (by simp [standingRecord]),
    show resolveTransitionsForEvent (everyHandler m v event).machine (standingRecord v).currentState event = first::rest from matches_] at on
  have marking := And.right on (0 : Int) trivial
  have running : following.Obeys (AllExecuted (everyHandler m v event) v event)
      { record := some { standingRecord v with status := .IN_FLIGHT, updatedAt := 0, version := 2 } }
      ((everyHandler m v event).execute "t" event 0 0 none ((everyHandler m v event).choose event first)
        { standingRecord v with status := .IN_FLIGHT, updatedAt := 0, version := 2 }) := And.right marking (.ok ()) trivial
  unfold DfsmActor.execute DfsmActor.executeHandler at running
  rw [loadNone registered.2.2] at running
  simp only [registered.1,registered.2.1] at running
  have handled := And.right (And.right running (0 : Int) trivial) (.ok (none,none)) trivial
  have succeeded : following.Obeys (AllExecuted (everyHandler m v event) v event)
      { record := some { standingRecord v with status := .IN_FLIGHT, updatedAt := 0, version := 2 }
        calls := [⟨first.edge.transition.getD event,(),(none,none)⟩] }
      ((everyHandler m v event).succeed "t" event 0 0 none 0 ((everyHandler m v event).choose event first)
        { standingRecord v with status := .IN_FLIGHT, updatedAt := 0, version := 2 } { carried := ⟨(),"{}"⟩, attempts := 1 }) :=
    And.right handled (0 : Int) trivial
  have executed : Executed (everyHandler m v event) v event
      { record := some { standingRecord v with status := .IN_FLIGHT, updatedAt := 0, version := 2 }
        calls := [⟨first.edge.transition.getD event,(),(none,none)⟩] } := by
    unfold DfsmActor.succeed DfsmActor.pushStep at succeeded
    cases pushed : ((everyHandler m v event).choose event first).matched.edge.compensate with
    | none =>
      simp only [pushed] at succeeded
      exact succeeded
    | some compName =>
      simp only [pushed] at succeeded
      have stamped := And.right (And.right succeeded (0 : Int) trivial) (0 : Int) trivial
      exact And.right stamped (.ok ()) trivial
  have follows := executed _ rfl rfl
  rw [show resolveTransitionsForEvent (everyHandler m v event).machine v event = first::rest from matches_] at follows
  exact oneCall matches_ follows

/-- The engine returns each deepest handler and the actor executes them all exactly where
there is no second one. -/
theorem dispatchesAlone (accepted : Accepted m) (unique : distinct v = true) :
    Returns m v event ∧ Executes m v event ↔ ∀ p q, Deepest m v event p → Deepest m v event q → p = q := by
  constructor
  · rintro ⟨returns,executes⟩ p q deepestP deepestQ
    obtain ⟨x,inX,rfl⟩ := deepestMatch accepted unique deepestP
    obtain ⟨y,inY,rfl⟩ := deepestMatch accepted unique deepestQ
    have inX := (returns.exact_ x).mpr ((memDeepest accepted unique x).mp inX)
    have inY := (returns.exact_ y).mpr ((memDeepest accepted unique y).mp inY)
    rcases matches_ : resolveTransitionsForEvent m v event with _ | ⟨first,rest⟩
    · rw [matches_] at inX
      cases inX
    · rw [matches_,onlyFirst accepted.depth matches_ executes,List.mem_singleton] at inX inY
      rw [inX,inY]
  · intro alone
    obtain ⟨same,short⟩ := returnsAlone accepted unique alone
    refine ⟨returnsExact accepted unique same,?_⟩
    rintro Context Data a rfl txId rounds input depth
    exact transitionRuns (by rw [same]; exact short)
end

/-! A shop with a door and a window, whose lamp goes out on an event of its own. -/

def shop (lampOut : String) : MachineDefinition where
  id := "shop"
  initial := "day"
  states := [("day",{
    stateType := some "parallel"
    states := [
      ("door",{ initial := some "unlocked", states := [("locked",{}),("unlocked",{ on := [("evening",.target "locked")] })] }),
      ("window",{ initial := some "lit", states := [("dark",{}),("lit",{ on := [(lampOut,.target "dark")] })] })] })]

def shopOpen : StateValue := .obj [("day",.obj [("door",Go.leaf "unlocked"),("window",Go.leaf "lit")])]

theorem shopMatches : ∃ x, handlersIn "evening" shopOpen (shop "dusk").states [] = [x] := ⟨_,rfl⟩

theorem dispatchesAloneShop : Returns (shop "dusk") shopOpen "evening" ∧ Executes (shop "dusk") shopOpen "evening" := by
  have accepted : Accepted (shop "dusk") := by decide
  refine (dispatchesAlone accepted (by decide)).mpr ?_
  intro p q deepestP deepestQ
  obtain ⟨x,inX,rfl⟩ := deepestMatch accepted (by decide) deepestP
  obtain ⟨y,inY,rfl⟩ := deepestMatch accepted (by decide) deepestQ
  obtain ⟨only,one⟩ := shopMatches
  rw [one,List.mem_singleton] at inX inY
  rw [inX,inY]

/-- The window keeps its lamp on in the evening: only the door's handler runs. -/
theorem dispatchesAloneEvening : Accepted (shop "evening") ∧ (resolveInitialState (shop "evening")).stateValue = shopOpen ∧
    ¬(Returns (shop "evening") shopOpen "evening" ∧ Executes (shop "evening") shopOpen "evening") := by
  refine ⟨by decide,rfl,?_⟩
  rintro ⟨_,executes⟩
  have two : resolveTransitionsForEvent (shop "evening") shopOpen "evening" =
      [⟨["day","door","unlocked"],_,_⟩,⟨["day","window","lit"],_,_⟩] := rfl
  cases onlyFirst (by decide) two executes

end Dfsm.Rust
