import Dfsm.Go.Requests
import Dfsm.Lib.Pool

/-! What a transition of the Go SDK asks of its circuit breaker, and when. -/
namespace Dfsm.Go.Guarding
open Dfsm.Go Program Protocol Act

variable {Context Data : Type}

/-- An event that is sent to a transaction, from an effect chain of some depth. -/
structure Sent (Context Data : Type) where
  a : DfsmActor Context Data
  ord : Order
  txId : String
  eventName : String
  rounds : Nat
  depth : Int
  input : Option Data

namespace Sent
variable (c : Sent Context Data)

def program : Act Context Data Unit := (c.a.transition c.ord c.txId c.eventName c.rounds c.depth c.input).void

/-- The attempts that the policy of the step gives from a configuration. -/
def attempts (start : StateValue) : Int :=
  (c.a.selectTransition c.ord c.eventName start).elim 1 (fun matched => (c.a.choose c.eventName matched c.input).policy.maxAttempts)

end Sent

/-- A method of a breaker. -/
def method (cb : CircuitBreakerInstance) (now : Int) : BreakerCall → CircuitBreakerInstance
  | .beforeExecution => (cb.beforeExecution now).1
  | .onSuccess => cb.onSuccess
  | .onFailure => cb.onFailure now

/-- How far a call has come. -/
structure Phase where
  attempts : Int := 1
  breaker : Option Nat := none
  /-- The breaker it is in a method of, and how the method leaves it. -/
  inside : Option (Nat × CircuitBreakerInstance) := none
  admitted : Bool := false
  /-- How the attempts have ended. -/
  results : List Bool := []
  /-- What the breaker has been told. -/
  reported : List Bool := []
  ended : Bool := false
  deriving DecidableEq

namespace Phase

def replied (p : Phase) : Except Panic (Except String (HandlerOutput Context Data)) → Phase
  | .ok (.ok _) => { p with results := p.results ++ [true] }
  | .ok (.error _) => { p with results := p.results ++ [false] }
  | .error _ => { p with ended := p.admitted }

def entered (p : Phase) (b : Nat) (cb : CircuitBreakerInstance) (now : Int) (call : BreakerCall) : Phase :=
  let p := { p with inside := some (b,method cb now call) }
  match call with
  | .beforeExecution => { p with admitted := (cb.beforeExecution now).2.isNone }
  | .onSuccess => { p with reported := p.reported ++ [true] }
  | .onFailure => { p with reported := p.reported ++ [false] }

def after (c : Sent Context Data) (p : Phase) : Event (Reply Context Data) → Phase
  | ⟨.getTransaction _,.ok (some r)⟩ => { p with attempts := c.attempts r.currentState }
  | ⟨.createTransaction r,_⟩ => { p with attempts := c.attempts r.currentState }
  | ⟨.loadBreaker _ _,b⟩ => { p with breaker := some b }
  | ⟨.lockBreaker b call,(cb,now)⟩ => p.entered b cb now call
  | ⟨.unlockBreaker _ _,_⟩ => { p with inside := none }
  | ⟨.handler _ _,r⟩ => p.replied r
  | ⟨.timeNow,_⟩ => { p with ended := p.admitted }
  | _ => p

end Phase

/-- A call loads one breaker and asks it once; then each attempt is reported before the next one,
and the last attempt before the call goes on. -/
def guarding (c : Sent Context Data) : Protocol (Reply Context Data) Phase where
  allowed p
    | .getTransaction _ | .createTransaction _ => p.admitted = false ∧ p.results = []
    | .loadBreaker _ _ => p.breaker = none ∧ p.inside = none ∧ p.admitted = false
    | .lockBreaker b call => p.inside = none ∧ p.breaker = some b ∧ match call with
      | .beforeExecution => p.admitted = false ∧ p.results = [] ∧ p.reported = []
      | .onSuccess => p.admitted = true ∧ p.results = p.reported ++ [true]
      | .onFailure => p.admitted = true ∧ p.results = p.reported ++ [false]
    | .unlockBreaker b cb => p.inside = some (b,cb)
    | .handler _ _ => p.breaker.isSome = true → p.admitted = true ∧ p.results = p.reported ∧ true ∉ p.results ∧ (p.results.length : Int) < p.attempts
    | .timeNow => p.breaker.isSome = true → p.admitted = true →
      p.results = p.reported ∧ (p.results.getLast? = some true ∨ p.attempts ≤ p.results.length)
    | _ => True
  replies _ _ := True
  after p op r := p.after c ⟨op,r⟩

section
variable {c : Sent Context Data} {p : Phase} {α β : Type} {good : Phase → β → Prop} {a : DfsmActor Context Data} {txId eventName : String}

abbrev Keeps (c : Sent Context Data) (good : Phase → α → Prop) (p : Phase) (program : Act Context Data α) : Prop :=
  (guarding c).Obeys (Ends good) p program

abbrev Anyhow : Phase → α → Prop := fun _ _ => True

/-- What leaves a call where it is. -/
def Plain : Op Context Data → Prop
  | .getTransaction _ | .createTransaction _ | .loadBreaker _ _ | .lockBreaker _ _ | .unlockBreaker _ _ | .handler _ _ | .timeNow => False
  | _ => True

theorem plainKeeps {op : Op Context Data} (plain : Plain op) (r : Reply Context Data op) : p.after c ⟨op,r⟩ = p := by
  cases op <;> first | rfl | exact plain.elim

theorem plainAllowed {op : Op Context Data} (plain : Plain op) : (guarding c).allowed p op := by
  cases op <;> trivial

theorem plainThen {program : Act Context Data α} {k : α → Act Context Data β} (asks : program.Asks Plain)
    (rest : ∀ x, Keeps c good p (k x)) : Keeps c good p (program >>= k) := by
  refine obeysBind (obeysMono (@obeysAsks _ _ _ _ _ (guarding c) p Plain (· = p) program asks (fun phase op same plain => ?_) rfl)
    (fun phase r same => ?_))
  · exact ⟨plainAllowed plain,fun r _ => (plainKeeps plain r).trans same⟩
  · rw [same]
    cases r with
    | ok x => exact rest x
    | error e => trivial

theorem plainAsk {op : Op Context Data} {k : Reply Context Data op → Act Context Data β} (plain : Plain op)
    (rest : ∀ r, Keeps c good p (k r)) : Keeps c good p (ask op >>= k) := by
  refine obeysAsk (plainAllowed plain) (fun r _ => ?_)
  have kept : (guarding c).after p op r = p := plainKeeps plain r
  rw [kept]
  exact rest r

theorem plainEnds {program : Act Context Data α} (asks : program.Asks Plain) : Keeps c Anyhow p program := by
  refine obeysMono (@obeysAsks _ _ _ _ _ (guarding c) p Plain (fun _ => True) program asks (fun phase op _ plain => ?_) trivial)
    (fun _ r _ => ?_)
  · exact ⟨plainAllowed plain,fun _ _ => trivial⟩
  · cases r <;> trivial

theorem returnKeeps {x : Except DfsmError α} {k : α → Act Context Data β} (rest : ∀ v, x = .ok v → Keeps c good p (k v)) :
    Keeps c good p (orReturn x >>= k) := by
  cases x with
  | error e => trivial
  | ok v => exact rest v rfl

theorem notifiesPlain (op : Op Context Data) (notifies : op.Notifies) : Plain op := by
  cases op <;> trivial

theorem hooksPlain {hookType : HookType} {event : HookEvent Context Data} : (a.fireHook hookType event).Asks Plain := by
  unfold DfsmActor.fireHook
  exact asksFold (fun _ h => asksRequest trivial (fun _ => panicAsks)) _ _

/-- The record that a call goes on with. -/
def Found (c : Sent Context Data) (p : Phase) (r : TransactionRecord) : Prop := p = { attempts := c.attempts r.currentState }

theorem createKeeps {ord : Order} {depth now : Int} : Keeps c (Found c) {} (a.create ord txId eventName depth now) := by
  unfold DfsmActor.create
  split
  · trivial
  · refine obeysAsk ⟨rfl,rfl⟩ (fun r _ => returnKeeps (fun _ _ => ?_))
    exact plainThen hooksPlain (fun _ => plainThen (asksMono effectsNotify notifiesPlain) (fun _ => rfl))

theorem loadKeeps {ord : Order} {depth : Int} : Keeps c (Found c) {} (a.loadOrCreate ord txId eventName depth) := by
  unfold DfsmActor.loadOrCreate
  refine obeysAsk ⟨rfl,rfl⟩ (fun r _ => returnKeeps (fun found same => ?_))
  subst same
  have clock : Plain (Op.nowMs : Op Context Data) := trivial
  cases found with
  | some r => exact plainAsk clock (fun _ => (rfl : Found c _ r))
  | none => exact plainAsk clock (fun _ => createKeeps)

/-- All attempts are reported, and no more of them are made. -/
def Spent (p : Phase) (_ : α) : Prop := p.breaker.isSome = true → p.admitted = true →
  p.results = p.reported ∧ (p.results.getLast? = some true ∨ p.attempts ≤ p.results.length)

theorem spentFree (free : p.breaker = none) (x : α) : Spent p x := by
  intro loaded
  rw [free] at loaded
  cases loaded

theorem againKeeps {left made : Nat} {k : Act Context Data β} (rest : Keeps c good p k) :
    Keeps c good p (if left ≠ 0 then ask (.sleep (made+1)) >>= fun _ => k else k) := by
  split
  · have slept : Plain (Op.sleep (made+1) : Op Context Data) := trivial
    exact plainAsk slept (fun _ => rest)
  · exact rest

theorem freeKeeps {handlerName : String} {request : TransitionRequest Context Data} (left : Nat) :
    ∀ {p : Phase} {made : Nat} {lastErr : Option String}, p.breaker = none →
      Keeps c Spent p (DfsmActor.retryLoop none handlerName request left made lastErr) := by
  induction left with
  | zero =>
    intro p made lastErr free
    exact spentFree free ({ lastErr, attempts := made } : Tried Context Data)
  | succ left ih =>
    intro p made lastErr free
    unfold DfsmActor.retryLoop
    refine obeysAsk (fun loaded => by rw [free] at loaded; cases loaded) (fun result _ => ?_)
    have still (r : Except Panic (Except String (HandlerOutput Context Data))) : (p.replied r).breaker = none := by
      rcases r with panic | (error | output) <;> exact free
    rcases result with panic | (error | output)
    · trivial
    · exact againKeeps (ih (still (.ok (.error error))))
    · exact spentFree (still (.ok (.ok output))) ({ output, attempts := made+1 } : Tried Context Data)

theorem loopKeeps {n : Int} {b : Nat} {handlerName : String} {request : TransitionRequest Context Data} (left : Nat) :
    ∀ {failed : List Bool} {made : Nat} {lastErr : Option String}, true ∉ failed → failed.length + left = n.toNat →
      Keeps c Spent { attempts := n, breaker := some b, admitted := true, results := failed, reported := failed }
        (DfsmActor.retryLoop (some b) handlerName request left made lastErr) := by
  induction left with
  | zero =>
    intro failed made lastErr _ all _ _
    exact ⟨rfl,.inr (by dsimp only at *; omega)⟩
  | succ left ih =>
    intro failed made lastErr fails all
    unfold DfsmActor.retryLoop
    refine obeysAsk (fun _ => ⟨rfl,rfl,fails,by dsimp only; omega⟩) (fun result _ => ?_)
    rcases result with panic | (error | output)
    · trivial
    · refine obeysAsk ⟨rfl,rfl,rfl,rfl⟩ (fun locked _ => obeysAsk rfl (fun _ _ => ?_))
      have fails' : true ∉ failed ++ [false] := by simpa using fails
      have all' : (failed ++ [false]).length + left = n.toNat := by
        rw [List.length_append]
        exact (Nat.add_right_comm _ _ _).trans all
      exact againKeeps (ih fails' all')
    · refine obeysAsk ⟨rfl,rfl,rfl,rfl⟩ (fun locked _ => obeysAsk rfl (fun _ _ => ?_))
      exact fun _ _ => ⟨rfl,.inl List.getLast?_concat⟩

theorem executorKeeps {chosen : Chosen Data} {breaker : Option Nat} {userCtx : Context} {currentState : StateValue} :
    Keeps c Spent { attempts := chosen.policy.maxAttempts, breaker }
      (DfsmActor.executeHandler txId eventName chosen breaker userCtx currentState) := by
  unfold DfsmActor.executeHandler
  split
  · cases breaker with
    | none => exact freeKeeps _ rfl
    | some b =>
      refine obeysAsk ⟨rfl,rfl,rfl,rfl,rfl⟩ (fun locked _ => ?_)
      obtain ⟨cb,now⟩ := locked
      refine obeysAsk rfl (fun _ _ => ?_)
      change Keeps c Spent { attempts := chosen.policy.maxAttempts, breaker := some b, admitted := (cb.beforeExecution now).2.isNone } _
      cases (cb.beforeExecution now).2 with
      | none => exact loopKeeps _ (by simp) (by simp)
      | some waitMs => trivial
  · exact fun _ admitted => by cases admitted

theorem pushPlain {chosen : Chosen Data} {prevState targetState : StateValue} {contextBefore : String} :
    (a.pushStep txId chosen prevState targetState contextBefore).Asks Plain := by
  unfold DfsmActor.pushStep
  split
  · trivial
  · exact asksRequest trivial (fun _ => asksRequest trivial (fun _ => asksRequest trivial (fun _ => trivial)))

theorem succeedPlain {ord : Order} {rounds : Nat} {depth durationMs : Int} {chosen : Chosen Data} {r : TransactionRecord}
    {userCtx : Context} {tried : Tried Context Data} :
    (a.succeed ord txId eventName rounds depth durationMs chosen r userCtx tried).Asks Plain := by
  unfold DfsmActor.succeed
  refine asksBind asksExcept (fun applied => asksBind pushPlain (fun _ => asksBind asksExcept (fun settled => ?_)))
  refine asksRequest trivial (fun updatedAt => asksRequest trivial (fun _ => asksBind returnAsks (fun _ => ?_)))
  refine asksRequest trivial (fun _ => asksBind panicAsks (fun _ => ?_))
  exact asksBind (asksMono successNotifies notifiesPlain) (fun _ => trivial)

theorem compensatePlain {step : SagaStepRecord} {unwound : DfsmActor.Unwound Context} :
    (a.compensateStep txId step unwound).Asks Plain := by
  unfold DfsmActor.compensateStep
  split
  · refine asksRequest trivial (fun _ => asksBind panicAsks (fun _ => ?_))
    split <;> trivial
  · trivial

theorem unwindPlain (remaining : Nat) : ∀ {unwound : DfsmActor.Unwound Context}, (a.unwind txId remaining unwound).Asks Plain := by
  induction remaining with
  | zero => exact trivial
  | succ remaining ih =>
    intro unwound
    unfold DfsmActor.unwind
    refine asksRequest trivial (fun popped => ?_)
    rcases popped with e | (_ | step)
    · trivial
    · trivial
    · exact asksBind compensatePlain (fun _ => asksBind hooksPlain (fun _ => ih))

theorem failPlain {ord : Order} {durationMs : Int} {chosen : Chosen Data} {r : TransactionRecord} {userCtx : Context} {attempts : Nat}
    {lastErr : String} : (a.fail ord txId eventName durationMs chosen r userCtx attempts lastErr).Asks Plain := by
  unfold DfsmActor.fail
  refine asksRequest trivial (fun _ => asksBind panicAsks (fun _ => asksBind ?_ (fun unwound => asksBind asksExcept (fun applied => ?_))))
  · unfold DfsmActor.rollBack
    split
    · refine asksRequest trivial (fun r => ?_)
      cases r with
      | ok stack => exact unwindPlain _
      | error e => trivial
    · trivial
  · refine asksRequest trivial (fun updatedAt => asksRequest trivial (fun _ => ?_))
    exact asksBind hooksPlain (fun _ => trivial)

theorem breakerKeeps {chosen : Chosen Data} :
    Keeps c (fun p breaker => p = { attempts := chosen.policy.maxAttempts, breaker }) { attempts := chosen.policy.maxAttempts }
      (DfsmActor.loadBreaker chosen) := by
  unfold DfsmActor.loadBreaker
  split
  · exact (rfl : _ = _)
  · exact obeysAsk ⟨rfl,rfl,rfl⟩ (fun _ _ => (rfl : _ = _))

theorem executeKeeps {rounds : Nat} {ord : Order} {depth : Int} {chosen : Chosen Data} {marked : TransactionRecord} :
    Keeps c Anyhow { attempts := chosen.policy.maxAttempts } (a.execute ord txId eventName rounds depth chosen marked) := by
  unfold DfsmActor.execute
  refine obeysSeq _ breakerKeeps (fun p breaker loaded => ?_)
  subst loaded
  refine obeysAsk (fun _ admitted => by cases admitted) (fun startTime _ => ?_)
  refine obeysSeq Spent executorKeeps (fun p tried spent => obeysAsk spent (fun ended _ => ?_))
  cases tried.lastErr with
  | none => exact plainEnds succeedPlain
  | some lastErr => exact plainEnds failPlain

theorem transitionKeeps : Keeps c Anyhow {} (c.a.transition c.ord c.txId c.eventName c.rounds c.depth c.input) := by
  unfold DfsmActor.transition
  split
  · trivial
  · refine obeysSeq (Found c) loadKeeps (fun p r found => ?_)
    subst found
    unfold DfsmActor.transitionOn
    split
    · trivial
    · split
      · trivial
      · rename_i matched selected
        refine plainThen (asksMono validateNotifies notifiesPlain) (fun _ => plainThen hooksPlain (fun _ => ?_))
        unfold DfsmActor.markInFlight
        rw [bindAssoc]
        refine plainAsk trivial (fun updatedAt => ?_)
        rw [bindAssoc]
        refine plainAsk trivial (fun stored => ?_)
        rw [bindAssoc]
        refine returnKeeps (fun _ _ => ?_)
        have attempts : c.attempts r.currentState = (c.a.choose c.eventName matched c.input).policy.maxAttempts := by
          simp [Sent.attempts,selected]
        rw [attempts]
        exact executeKeeps

end

theorem sentKeeps (c : Sent Context Data) : Keeps c Anyhow {} c.program :=
  obeysSeq Anyhow transitionKeeps (fun _ _ _ => trivial)

end Dfsm.Go.Guarding
