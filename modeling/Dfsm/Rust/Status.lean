import Dfsm.Rust.Requests
import Dfsm.Rust.Store
import Dfsm.Lib.Trace

/-! The status that a call of the Rust SDK settles a transaction with, against the status that
the configuration it comes to stands for. -/
namespace Dfsm.Rust
open Protocol Program Act

variable {Context Data : Type}

/-- An event that is sent to a transaction. -/
structure Sent (Context Data : Type) where
  a : DfsmActor Context Data
  txId : String
  event : String
  rounds : Nat
  input : Option Data

def Sent.program (c : Sent Context Data) : Act Context Data Unit := (c.a.transition c.txId c.event c.rounds c.input).void

/-- The state at the top, where it is one. -/
def top : StateValue → Option String
  | .str leaf => some leaf
  | .obj [(key,_)] => some key
  | .obj _ => none

def finalAtTop (machine : MachineDefinition) (sv : StateValue) : Bool :=
  (top sv).any (fun key => (Keyed.get machine.states key).any (·.isFinal))

/-- The status of the specification, for a step that has unwound the stack or not. -/
def expected (machine : MachineDefinition) (unwound : Bool) (sv : StateValue) : TransactionStatus :=
  if unwound then .COMPENSATED
  else if top sv = some "error" then .FAILED
  else if finalAtTop machine sv then .COMPLETED
  else .IDLE

/-- How far a call has come: the configuration that it takes its step from, whether its last
attempt has failed, and whether it has turned to the stack. -/
structure Progress where
  found : Option StateValue := none
  failed : Bool := false
  unwound : Bool := false

def Progress.after (p : Progress) : Event (Reply Context Data) → Progress
  | ⟨.getTransaction _,.ok (some r)⟩ => { p with found := some r.currentState }
  | ⟨.createTransaction r,_⟩ => { p with found := some r.currentState }
  | ⟨.handler _ _,.ok _⟩ => { p with failed := false }
  | ⟨.handler _ _,.error _⟩ => { p with failed := true }
  | ⟨.getSagaStack _,_⟩ => { p with unwound := true }
  | _ => p

def progress (es : List (Event (Reply Context Data))) : Progress := es.foldl Progress.after {}

namespace Sent
variable (c : Sent Context Data)

def compensates (chosen : Chosen) : Bool := chosen.policy.onFail.any (·.compensate)

/-- The configuration that a step of the call comes to, from the one that it starts from. -/
def comesTo (chosen : Chosen) (start : StateValue) (failed : Bool) : Option StateValue :=
  if failed then
    some (applyTargetTransition c.a.machine start chosen.matched.sourcePath ((chosen.policy.onFail.bind (·.target)).getD "error")).nextStateValue
  else (c.a.cascadeOnDone c.rounds
    (applyTargetTransition c.a.machine start chosen.matched.sourcePath (DfsmActor.targetName chosen.matched)).nextStateValue).toOption

/-- The status that the code settles with. -/
def status (chosen : Chosen) (failed : Bool) (sv : StateValue) : TransactionStatus :=
  if failed then if compensates chosen then .COMPENSATED else .FAILED else c.a.settledStatus sv

/-- The step that a call takes from a configuration. -/
def Takes (start : StateValue) (chosen : Chosen) : Prop :=
  ∃ matched rest, resolveTransitionsForEvent c.a.machine start c.event = matched::rest ∧ chosen = c.a.choose c.event matched

/-- Without a rollback a failure comes to the error state, and nothing else does; a final state
at the top has no states in it. -/
def Comes (start : StateValue) (failed : Bool) : Prop :=
  ∀ chosen sv, c.Takes start chosen → c.comesTo chosen start failed = some sv →
    if failed then compensates chosen = true ∨ top sv = some "error"
    else top sv ≠ some "error" ∧ ∀ entries, sv = .obj entries → finalAtTop c.a.machine sv = false

end Sent

theorem takesOnce {c : Sent Context Data} {start : StateValue} {chosen chosen' : Chosen} (takes : c.Takes start chosen)
    (takes' : c.Takes start chosen') : chosen = chosen' := by
  obtain ⟨matched,rest,resolved,rfl⟩ := takes
  obtain ⟨matched',rest',resolved',rfl⟩ := takes'
  rw [resolved] at resolved'
  cases resolved'
  rfl

theorem statusComes {c : Sent Context Data} {start sv : StateValue} {failed : Bool} {chosen : Chosen} (takes : c.Takes start chosen)
    (comes : c.comesTo chosen start failed = some sv) :
    c.status chosen failed sv = expected c.a.machine (failed && Sent.compensates chosen) sv ↔ c.Comes start failed := by
  have only : c.Comes start failed ↔ if failed then Sent.compensates chosen = true ∨ top sv = some "error"
      else top sv ≠ some "error" ∧ ∀ entries, sv = .obj entries → finalAtTop c.a.machine sv = false := by
    refine ⟨fun all => all chosen sv takes comes,fun holds chosen' sv' takes' comes' => ?_⟩
    cases takesOnce takes takes'
    cases Option.some.inj (comes.symm.trans comes')
    exact holds
  rw [only]
  cases failed with
  | true =>
    by_cases rolls : Sent.compensates chosen = true
    · simp [Sent.status,expected,rolls]
    · by_cases error : top sv = some "error"
      · simp [Sent.status,expected,rolls,error]
      · by_cases final : finalAtTop c.a.machine sv = true <;> simp [Sent.status,expected,rolls,error,final]
  | false =>
    simp only [Sent.status,expected,Bool.false_and,Bool.false_eq_true,if_false]
    cases sv with
    | str leaf =>
      have final : finalAtTop c.a.machine (.str leaf) = (Keyed.get c.a.machine.states leaf).any (·.isFinal) := rfl
      rw [final]
      unfold DfsmActor.settledStatus
      by_cases error : top (.str leaf) = some "error"
      · by_cases ends : (Keyed.get c.a.machine.states leaf).any (·.isFinal) = true <;> simp [error,ends]
      · simp [error]
    | obj entries =>
      have settled : c.a.settledStatus (.obj entries) = .IDLE := rfl
      rw [settled]
      by_cases error : top (.obj entries) = some "error"
      · simp [error]
      · by_cases final : finalAtTop c.a.machine (.obj entries) = true <;> simp [error,final]

/-- The step that a settling update is for. -/
structure Settling (c : Sent Context Data) (p : Progress) (record : TransactionRecord) (start : StateValue) (chosen : Chosen) : Prop where
  found : p.found = some start
  takes : c.Takes start chosen
  comes : c.comesTo chosen start p.failed = some record.currentState
  status : record.status = c.status chosen p.failed record.currentState
  unwound : p.unwound = (p.failed && Sent.compensates chosen)

/-- A call settles the step that it takes, with the status of the code. -/
def settling (c : Sent Context Data) : Protocol (Reply Context Data) Progress where
  allowed p
    | .updateTransaction record _ => record.status ≠ .IN_FLIGHT → ∃ start chosen, Settling c p record start chosen
    | _ => True
  replies _ _ := True
  after p op r := p.after ⟨op,r⟩

section
variable {c : Sent Context Data} {p : Progress} {α β : Type} {good : Progress → β → Prop} {a : DfsmActor Context Data} {txId event : String}

abbrev Keeps (c : Sent Context Data) (good : Progress → α → Prop) (p : Progress) (program : Act Context Data α) : Prop :=
  (settling c).Obeys (Protocol.Ends good) p program

/-- What leaves a call where it is. -/
def Op.Plain : Op Context Data → Prop
  | .updateTransaction _ _ | .getSagaStack _ | .getTransaction _ | .createTransaction _ | .handler _ _ => False
  | _ => True

theorem plainKeeps {op : Op Context Data} (plain : op.Plain) (r : Reply Context Data op) : p.after ⟨op,r⟩ = p := by
  cases op <;> first | rfl | exact plain.elim

theorem plainAllowed {op : Op Context Data} (plain : op.Plain) : (settling c).allowed p op := by
  cases op <;> trivial

theorem plainThen {program : Act Context Data α} {k : α → Act Context Data β} (asks : program.Asks Op.Plain)
    (rest : ∀ x, Keeps c good p (k x)) : Keeps c good p (program >>= k) := by
  refine obeysBind (obeysMono (@obeysAsks _ _ _ _ _ (settling c) p Op.Plain (· = p) program asks (fun phase op same plain => ?_) rfl)
    (fun phase r same => ?_))
  · exact ⟨plainAllowed plain,fun r _ => (plainKeeps plain r).trans same⟩
  · rw [same]
    cases r with
    | ok x => exact rest x
    | error e => trivial

theorem plainAsk {op : Op Context Data} {k : Reply Context Data op → Act Context Data β} (plain : op.Plain)
    (rest : ∀ r, Keeps c good p (k r)) : Keeps c good p (ask op >>= k) := by
  refine obeysAsk (plainAllowed plain) (fun r _ => ?_)
  have kept : (settling c).after p op r = p := plainKeeps plain r
  rw [kept]
  exact rest r

theorem returnKeeps {x : Except DfsmError α} {k : α → Act Context Data β} (rest : ∀ v, x = .ok v → Keeps c good p (k v)) :
    Keeps c good p (orReturn x >>= k) := by
  cases x with
  | error e => trivial
  | ok v => exact rest v rfl

theorem updateKeeps {record : TransactionRecord} {version : Int} {k : Unit → Act Context Data β}
    (settles : record.status ≠ .IN_FLIGHT → ∃ start chosen, Settling c p record start chosen)
    (rest : Keeps c good p (k ())) : Keeps c good p (ask (.updateTransaction record version) >>= fun r => orReturn r >>= k) :=
  obeysAsk settles (fun _ _ => returnKeeps (fun _ _ => rest))

theorem informsPlain (op : Op Context Data) (informs : op.Informs) : op.Plain := by
  cases op <;> trivial

theorem guardsPlain (op : Op Context Data) (guards : op.Guards) : op.Plain := by
  cases op <;> trivial

/-- The record that a call goes on with. -/
def Found (p : Progress) (r : TransactionRecord) : Prop := p = ⟨some r.currentState,false,false⟩

theorem createKeeps {depth : Nat} : Keeps c Found {} (a.create txId event depth) := by
  unfold DfsmActor.create
  have clock : (Op.nowMs : Op Context Data).Plain := trivial
  refine plainAsk clock (fun now => obeysAsk trivial (fun r _ => returnKeeps (fun _ _ => ?_)))
  exact plainThen (asksMono hooksInform informsPlain) (fun _ => plainThen (asksMono effectsInform informsPlain) (fun _ => rfl))

theorem loadKeeps {depth : Nat} : Keeps c Found {} (a.loadOrCreate txId event depth) := by
  unfold DfsmActor.loadOrCreate
  refine obeysAsk trivial (fun r _ => returnKeeps (fun found same => ?_))
  subst same
  cases found with
  | some r => exact (rfl : Found _ r)
  | none => exact createKeeps

/-- How the attempts end. -/
def Tries (start : StateValue) (p : Progress) (tried : Tried Context Data) : Prop := p = ⟨some start,tried.lastErr.isSome,false⟩

theorem attemptKeeps {start : StateValue} {breaker : Option Nat} {name : String} {request : TransitionCall Context Data}
    {carried : Carried Context} (left : Nat) : ∀ {made : Nat} {lastErr : Option DfsmError},
    Keeps c (Tries start) ⟨some start,lastErr.isSome,false⟩ (a.attemptLoop breaker name request carried left made lastErr) := by
  induction left with
  | zero => exact rfl
  | succ left ih =>
    intro made lastErr
    unfold DfsmActor.attemptLoop
    refine obeysAsk trivial (fun result _ => ?_)
    cases result with
    | ok output => exact plainThen (asksMono successGuards guardsPlain) (fun _ => rfl)
    | error e =>
      change Keeps c (Tries start) ⟨some start,true,false⟩ _
      refine plainThen (asksMono failureGuards guardsPlain) (fun _ => ?_)
      dsimp only
      split
      · have slept : (Op.sleep (made+1) : Op Context Data).Plain := trivial
        exact plainAsk slept (fun _ => @ih (made+1) (some e))
      · exact @ih (made+1) (some e)

theorem executorKeeps {start : StateValue} {input : Option Data} {chosen : Chosen} {breaker : Option Nat} {carried : Carried Context}
    {currentState : StateValue} :
    Keeps c (Tries start) ⟨some start,false,false⟩ (a.executeHandler txId event input chosen breaker carried currentState) := by
  unfold DfsmActor.executeHandler
  split
  · exact plainThen (asksMono beforeGuards guardsPlain) (fun _ => @attemptKeeps _ _ _ _ _ _ _ _ _ _ 0 none)
  · exact (rfl : _ = _)

theorem pushPlain {input : Option Data} {chosen : Chosen} {prevState targetState : StateValue} {originalCtxJson : String} :
    (a.pushStep txId input chosen prevState targetState originalCtxJson).Asks Op.Plain := by
  unfold DfsmActor.pushStep
  split
  · trivial
  · exact asksRequest trivial (fun _ => asksRequest trivial (fun _ => asksRequest trivial (fun _ => returnAsks)))

theorem compensatePlain {step : SagaStepRecord} {carried : Carried Context} : (a.compensateStep txId step carried).Asks Op.Plain := by
  unfold DfsmActor.compensateStep
  split
  · trivial
  · refine asksRequest trivial (fun _ => ?_)
    split
    · trivial
    · split <;> trivial

theorem unwindPlain (remaining : Nat) : ∀ {carried : Carried Context} {compensated : Nat}, (a.unwind txId remaining carried compensated).Asks Op.Plain := by
  induction remaining with
  | zero => exact trivial
  | succ remaining ih =>
    intro carried compensated
    unfold DfsmActor.unwind
    refine asksRequest trivial (fun r => asksBind returnAsks (fun popped => ?_))
    cases popped with
    | none => trivial
    | some step => exact asksBind compensatePlain (fun _ => asksBind (asksMono hooksInform informsPlain) (fun _ => ih))

abbrev Anyhow : Progress → α → Prop := fun _ _ => True

theorem succeedKeeps {depth : Nat} {durationMs : Int} {chosen : Chosen} {r : TransactionRecord} {tried : Tried Context Data}
    (takes : c.Takes r.currentState chosen) :
    Keeps c Anyhow ⟨some r.currentState,false,false⟩ (c.a.succeed c.txId c.event c.rounds depth c.input durationMs chosen r tried) := by
  unfold DfsmActor.succeed
  refine plainThen pushPlain (fun _ => obeysExcept (fun settled cascaded => ?_))
  have clock : (Op.nowMs : Op Context Data).Plain := trivial
  have comes : c.comesTo chosen r.currentState false = some settled := by
    simp only [Sent.comesTo,Bool.false_eq_true,if_false]
    rw [cascaded]
    rfl
  refine plainAsk clock (fun updatedAt => updateKeeps (fun _ => ⟨r.currentState,chosen,rfl,takes,comes,rfl,rfl⟩) ?_)
  exact plainAsk trivial (fun _ => plainThen (asksMono successInforms informsPlain) (fun _ => trivial))

theorem rollKeeps {found : Option StateValue} {rollbackTriggered : Bool} {carried : Carried Context}
    {k : Carried Context × Nat → Act Context Data β} (rest : ∀ x, Keeps c good ⟨found,true,rollbackTriggered⟩ (k x)) :
    Keeps c good ⟨found,true,false⟩ (a.rollBack txId rollbackTriggered carried >>= k) := by
  cases rollbackTriggered with
  | false => exact rest (carried,0)
  | true =>
    have rolled : a.rollBack txId true carried =
      (ask (.getSagaStack txId) >>= fun r => orReturn r >>= fun stack => a.unwind txId stack.length carried 0) := rfl
    rw [rolled,bindAssoc]
    refine obeysAsk trivial (fun r _ => ?_)
    rw [bindAssoc]
    exact returnKeeps (fun stack _ => plainThen (unwindPlain _) rest)

theorem failKeeps {durationMs : Int} {chosen : Chosen} {r : TransactionRecord} {tried : Tried Context Data} {lastErr : DfsmError}
    (takes : c.Takes r.currentState chosen) :
    Keeps c Anyhow ⟨some r.currentState,true,false⟩ (c.a.fail c.txId c.event durationMs chosen r tried lastErr) := by
  unfold DfsmActor.fail
  refine plainAsk trivial (fun _ => rollKeeps (fun rolled => ?_))
  obtain ⟨carried,compensatedSteps⟩ := rolled
  have clock : (Op.nowMs : Op Context Data).Plain := trivial
  refine plainAsk clock (fun updatedAt => updateKeeps (fun _ => ⟨r.currentState,chosen,rfl,takes,rfl,rfl,rfl⟩) ?_)
  exact plainThen (asksMono hooksInform informsPlain) (fun _ => trivial)

theorem executeKeeps {depth : Nat} {chosen : Chosen} {marked : TransactionRecord} (takes : c.Takes marked.currentState chosen) :
    Keeps c Anyhow ⟨some marked.currentState,false,false⟩ (c.a.execute c.txId c.event c.rounds depth c.input chosen marked) := by
  unfold DfsmActor.execute
  have clock : (Op.instantNow : Op Context Data).Plain := trivial
  refine plainThen (asksMono loadGuards guardsPlain) (fun breaker => ?_)
  refine plainAsk clock (fun startTime => obeysSeq (Tries marked.currentState) executorKeeps (fun p tried tries => ?_))
  subst tries
  refine plainAsk clock (fun ended => ?_)
  cases tried.lastErr with
  | none => exact succeedKeeps takes
  | some lastErr => exact failKeeps takes

theorem transitionKeeps {depth : Nat} : Keeps c Anyhow {} (c.a.transitionInternal c.txId c.event c.rounds c.input depth) := by
  unfold DfsmActor.transitionInternal
  split
  · trivial
  · refine obeysSeq Found loadKeeps (fun p r found => ?_)
    subst found
    unfold DfsmActor.transitionOn
    split
    · trivial
    · split
      · trivial
      · rename_i matched rest resolved
        refine plainThen (asksMono hooksInform informsPlain) (fun _ => ?_)
        unfold DfsmActor.markInFlight
        rw [bindAssoc]
        refine plainAsk trivial (fun updatedAt => ?_)
        rw [bindAssoc]
        refine obeysAsk (fun settles => absurd rfl settles) (fun _ _ => ?_)
        rw [bindAssoc]
        refine returnKeeps (fun _ _ => ?_)
        have takes : c.Takes r.currentState (c.a.choose c.event matched) := ⟨matched,rest,resolved,rfl⟩
        have step := @executeKeeps _ _ c depth _ { r with status := .IN_FLIGHT, updatedAt, version := r.version + 1 } takes
        exact step

end

theorem sentKeeps (c : Sent Context Data) : Keeps c Anyhow {} c.program :=
  obeysSeq Anyhow transitionKeeps (fun _ _ _ => trivial)

/-! Runs. -/

abbrev Pooled (Context Data : Type) := Pool (Reply Context Data) Stop MemoryStateStore

/-- Calls as they are made. -/
abbrev Sends (p : Act Context Data Unit) : Prop := ∃ c : Sent Context Data, p = c.program

def isTerminal (status : TransactionStatus) : Prop := status = .COMPLETED ∨ status = .FAILED

def Handles (c : Sent Context Data) (r : TransactionRecord) : Prop := resolveTransitionsForEvent c.a.machine r.currentState c.event ≠ []

/-- What is asked of a call: what it settles has the status of its configuration, and it does not
turn an event away that the configuration it has read handles. -/
structure Proper (c : Sent Context Data) (w : Worker (Reply Context Data) Stop) : Prop where
  settled : ∀ before record version u after, w.history = before ++ ⟨.updateTransaction record version,.ok u⟩::after →
    record.status ≠ .IN_FLIGHT → record.status = expected c.a.machine (progress before).unwound record.currentState
  handled : ∀ r, w.history = [⟨.getTransaction c.txId,.ok (some r)⟩] → Handles c r →
    w.program ≠ .fail (.returned (.alreadyTerminal r.currentState c.event c.txId r.status))

/-- What the step of a call has to meet: it does not read a completed or failed transaction whose
configuration handles its event, and what it settles comes to where a step like it does. -/
structure Suits (c : Sent Context Data) (history : List (Event (Reply Context Data))) (e : Event (Reply Context Data)) : Prop where
  read : ∀ r, history = [] → e = ⟨.getTransaction c.txId,.ok (some r)⟩ → isTerminal r.status → ¬Handles c r
  settles : ∀ record version u start, e = ⟨.updateTransaction record version,.ok u⟩ → record.status ≠ .IN_FLIGHT →
    (progress history).found = some start → c.Comes start (progress history).failed

def StepsSuit (pool : Pooled Context Data) : Move (Reply Context Data) Stop → Prop
  | .call _ => True
  | .act i e => ∀ w c, pool.workers[i]? = some w → w.call = c.program → Suits c w.history e

/-- All calls of a run are proper. -/
def StatusAgrees (pool : Pooled Context Data) : Prop := ∀ w ∈ pool.workers, ∀ c, w.call = c.program → Proper c w

theorem readProgram {c : Sent Context Data} {w : Worker (Reply Context Data) Stop} (call : w.call = c.program)
    (runs : Runs w.call w.history w.program) {r : TransactionRecord} (read : w.history = [⟨.getTransaction c.txId,.ok (some r)⟩]) :
    w.program = (c.a.transitionOn c.txId c.event c.rounds 0 c.input r).void := by
  rw [call,read] at runs
  unfold Sent.program DfsmActor.transition DfsmActor.transitionInternal at runs
  split at runs
  · cases runs
  · cases runs with
    | step rest => exact runsNil rest

theorem turnedAway {c : Sent Context Data} {w : Worker (Reply Context Data) Stop} (call : w.call = c.program)
    (runs : Runs w.call w.history w.program) {r : TransactionRecord} (read : w.history = [⟨.getTransaction c.txId,.ok (some r)⟩]) :
    w.program = .fail (.returned (.alreadyTerminal r.currentState c.event c.txId r.status)) ↔ isTerminal r.status := by
  rw [readProgram call runs read]
  unfold DfsmActor.transitionOn isTerminal
  split
  · rename_i terminal
    exact ⟨fun _ => terminal,fun _ => rfl⟩
  · rename_i going
    refine ⟨fun ends => ?_,fun terminal => absurd terminal going⟩
    split at ends
    · injection ends with same
      injection same with same
      cases same
    · cases hooks : c.a.registry.hooks .beforeTransition with
      | nil =>
        unfold DfsmActor.fireHook at ends
        rw [hooks] at ends
        cases ends
      | cons h rest =>
        unfold DfsmActor.fireHook at ends
        rw [hooks] at ends
        cases ends

section
variable {meets : Pooled Context Data → Move (Reply Context Data) Stop → Prop} {store : MemoryStateStore} {pool : Pooled Context Data}

theorem workersKeep (run : Pool.Reaches Performs Sends meets { shared := store } pool) {w : Worker (Reply Context Data) Stop}
    (mem : w ∈ pool.workers) {c : Sent Context Data} (call : w.call = c.program) : Keeps c Anyhow (progress w.history) w.program :=
  @Pool.reachesConforms _ _ _ _ _ Performs Sends meets _ pool (settling c) {} (· = c.program) (Protocol.Ends Anyhow)
    (fun _ _ same => same ▸ sentKeeps c) (fun _ _ => trivial) rfl run w mem call

/-- The status of a settling update is the one of its configuration exactly where the step comes
to where a step like it does. -/
theorem settlesProper (run : Pool.Reaches Performs Sends meets { shared := store } pool) {call : Act Context Data Unit}
    {record : TransactionRecord} {version : Int} {next history} (mem : ⟨call,.ask (.updateTransaction record version) next,history⟩ ∈ pool.workers)
    {c : Sent Context Data} (same : call = c.program) (settles : record.status ≠ .IN_FLIGHT) :
    record.status = expected c.a.machine (progress history).unwound record.currentState ↔
      ∀ start, (progress history).found = some start → c.Comes start (progress history).failed := by
  obtain ⟨start,chosen,settled⟩ := (workersKeep run mem same).1 settles
  have only : (∀ start, (progress history).found = some start → c.Comes start (progress history).failed) ↔
      c.Comes start (progress history).failed := by
    refine ⟨fun all => all start settled.found,fun comes start' found' => ?_⟩
    cases Option.some.inj (settled.found.symm.trans found')
    exact comes
  rw [only,settled.status,settled.unwound]
  exact statusComes settled.takes settled.comes

theorem properStep (run : Pool.Reaches Performs Sends meets { shared := store } pool) {call : Act Context Data Unit} {op next history}
    (mem : ⟨call,.ask op next,history⟩ ∈ pool.workers) {c : Sent Context Data} (same : call = c.program) (r : Reply Context Data op) :
    Proper c ⟨call,next r,history ++ [⟨op,r⟩]⟩ ↔ Proper c ⟨call,.ask op next,history⟩ ∧ Suits c history ⟨op,r⟩ := by
  have runs : Runs call (history ++ [⟨op,r⟩]) (next r) := runsSnoc (Pool.reachesRuns rfl run _ mem) rfl
  constructor
  · intro proper
    refine ⟨⟨fun before record version u after split settles => ?_,fun _ _ _ ends => by cases ends⟩,?_,?_⟩
    · exact proper.settled before record version u (after ++ [⟨op,r⟩]) (by simp_all) settles
    · intro found first read terminal handles
      subst first
      have mine : [⟨op,r⟩] = [(⟨.getTransaction c.txId,.ok (some found)⟩ : Event (Reply Context Data))] := by rw [read]
      exact proper.handled found mine handles ((turnedAway same runs mine).mpr terminal)
    · intro record version u start stored settles
      cases stored
      exact (settlesProper run mem same settles).mp (proper.settled history record version u [] rfl settles) start
  · rintro ⟨proper,suits⟩
    refine ⟨fun before record version u after split settles => ?_,fun found read handles away => ?_⟩
    · rcases List.eq_nil_or_concat after with rfl | ⟨earlier,last,rfl⟩
      · obtain ⟨rfl,stored⟩ := List.append_inj' split rfl
        cases List.singleton_inj.mp stored
        exact (settlesProper run mem same settles).mpr (fun start => suits.settles record version u start rfl settles)
      · have whole : history ++ [⟨op,r⟩] = (before ++ ⟨.updateTransaction record version,.ok u⟩::earlier) ++ [last] := by simpa using split
        exact proper.settled before record version u earlier (List.append_inj' whole rfl).1 settles
    · have whole : history ++ [⟨op,r⟩] = [] ++ [⟨.getTransaction c.txId,.ok (some found)⟩] := read
      obtain ⟨first,mine⟩ := List.append_inj' whole rfl
      exact suits.read found first (List.singleton_inj.mp mine) ((turnedAway same runs read).mp away) handles

end

/-- A run has only proper calls exactly where all of its steps suit their call. -/
theorem statusSettles (store : MemoryStateStore) (pool : Pooled Context Data) :
    Pool.Reaches Performs Sends StepsSuit { shared := store } pool ↔
      Pool.Reaches Performs Sends Pool.Anything { shared := store } pool ∧ StatusAgrees pool := by
  have fresh (p : Act Context Data Unit) (c : Sent Context Data) : Proper c ⟨p,p,[]⟩ :=
    ⟨fun before _ _ _ _ split => absurd split (by simp),fun _ read => by cases read⟩
  constructor
  · intro run
    refine ⟨Pool.reachesMono run (fun _ _ _ => trivial),?_⟩
    induction run with
    | start => exact fun w mem => by cases mem
    | step before step met ih =>
      intro w mem c same
      cases step with
      | call called =>
        rcases List.mem_append.mp mem with old | new
        · exact ih w old c same
        · rw [List.mem_singleton.mp new]
          exact fresh _ c
      | act here performed =>
        rcases List.mem_or_eq_of_mem_set mem with old | rfl
        · exact ih w old c same
        · have first := List.mem_of_getElem? here
          exact (properStep before first same _).mpr ⟨ih _ first c same,met _ c here same⟩
  · rintro ⟨run,agrees⟩
    induction run with
    | start => exact .start
    | step before step met ih =>
      cases step with
      | call called =>
        exact .step (ih (fun w mem => agrees w (List.mem_append_left _ mem))) (.call called) trivial
      | @act i call op next history r shared here performed =>
        have first := List.mem_of_getElem? here
        have inside := (List.getElem?_eq_some_iff.mp here).1
        have proper (c : Sent Context Data) (same : call = c.program) := (properStep before first same r).mp
          (agrees _ (List.mem_of_getElem? (List.getElem?_set_self inside)) c same)
        refine .step (ih (fun w mem c same => ?_)) (.act here performed) (fun w c at_ same => ?_)
        · obtain ⟨j,there⟩ := List.mem_iff_getElem?.mp mem
          by_cases mine : i = j
          · subst mine
            cases here.symm.trans there
            exact (proper c same).1
          · exact agrees w (List.mem_of_getElem? ((List.getElem?_set_ne mine).trans there)) c same
        · cases here.symm.trans at_
          exact (proper c same).2

/-! A press that jams, without failing. -/

def press : DfsmActor Unit Unit where
  machine := { id := "press", initial := "idle", states := [
    ("error",{ on := [("RESET",.detailed { target := some "idle" })] }),("idle",{ on := [("jam",.detailed { target := some "error" })] })] }
  registry := {
    transitions := [("jam",{})], defaultContext := (), contextJson := fun _ => "{}"
    parseContext := fun _ => some (), fromValue := fun _ => some (), valueText := fun _ => "null", parseValue := fun _ => some () }

def pressRecord : TransactionRecord where
  transactionId := "t"
  machineId := "press"
  currentState := .str "idle"
  status := .IDLE
  contextJson := "{}"
  version := 1
  createdAt := 0
  updatedAt := 0

def pressStore : MemoryStateStore where
  transactions := [("t",pressRecord)]
  own := by
    intro id record got
    simp only [Keyed.get,List.lookup_cons,List.lookup_nil] at got
    split at got
    · cases got
      exact (beq_iff_eq.mp ‹_›).symm
    · cases got

/-- Handlers return what they were given. -/
def quiet : Surroundings Unit Unit
  | .getTransaction _ => .ok none
  | .createTransaction _ | .updateTransaction _ _ | .pushSagaStep _ _ | .deleteTransaction _ => .ok ()
  | .getSagaStack _ | .listActiveTransactions _ _ => .ok []
  | .popSagaStep _ => .ok none
  | .nowMs | .instantNow => 0
  | .sleep _ => ()
  | .loadBreaker _ _ => 0
  | .lockBreaker _ _ => ({ policy := {} },0)
  | .unlockBreaker _ _ => ()
  | .handler _ _ => .ok (none,none)
  | .compensation _ _ => ()
  | .effect _ _ _ => .ok ()
  | .hook _ _ => ()
  | .record _ => ()

def jam : Sent Unit Unit := { a := press, txId := "t", event := "jam", rounds := 1, input := none }

def pressCues : List (Pool.Cue (Reply Unit Unit) Stop) := .call jam.program::List.replicate 9 (.turn 0)

def pressPool : Pooled Unit Unit := Pool.play (serve quiet) pressCues { shared := pressStore }

theorem pressRun : Pool.Reaches Performs Sends Pool.Anything { shared := pressStore } pressPool := by
  refine Pool.reachesPlay (servePerforms quiet) (fun cue mem p same => ?_) (Pool.playAnything _ _) .start
  subst same
  rcases List.mem_cons.mp mem with first | turn
  · cases first
    exact ⟨jam,rfl⟩
  · cases List.eq_of_mem_replicate turn

/-- It comes to the error state, and is idle there. -/
theorem statusSettlesPress : ¬∀ (store : MemoryStateStore) (pool : Pooled Unit Unit),
    Pool.Reaches Performs Sends Pool.Anything { shared := store } pool → StatusAgrees pool := by
  intro claim
  let jammed : TransactionRecord := { pressRecord with currentState := .str "error", version := 3 }
  have settles : (pressPool.workers[0]?.bind (·.history[7]?)) = some ⟨.updateTransaction jammed 2,.ok ()⟩ := by rfl
  obtain ⟨w,here,at_⟩ := Option.bind_eq_some_iff.mp settles
  obtain ⟨inside,event⟩ := List.getElem?_eq_some_iff.mp at_
  have call : w.call = jam.program := by
    cases here
    rfl
  have split : w.history = w.history.take 7 ++ w.history[7]::w.history.drop 8 := by
    rw [List.getElem_cons_drop,List.take_append_drop]
  rw [event] at split
  have idle := (claim _ _ pressRun w (List.mem_of_getElem? here) jam call).settled _ _ _ _ _ split (by decide)
  have failed : expected press.machine (progress (w.history.take 7)).unwound (.str "error") = .FAILED := by
    cases here
    rfl
  exact absurd (idle.trans failed) (by decide)

end Dfsm.Rust
