import Dfsm.Python.Actor
import Dfsm.Lib.Calls

/-! Effects of the Python SDK that run other effects and transitions of their actor, and how
deep they nest. -/
namespace Dfsm.Python
open Relation (ReflTransGen)

/-- What an effect may wait for: `request.actor.run_effect`, `request.actor.transition`, and
whatever else it has to do with. -/
inductive EffectCall (Data : Type) where
  | runEffect (txId effectName : String) (userCtx : Option Data) (state : StateValue) (event : String)
  | transition (txId event : String) (input : Option Data) (depth : Int)
  | own (query : Data)

abbrev EffectReply (Data : Type) : EffectCall Data → Type
  | .runEffect _ _ _ _ _ => Except Exn Unit
  | .transition _ _ _ _ => Except Exn (TransitionExecutionResult Data)
  | .own _ => Data

abbrev EffectBody (Data : Type) := Program (EffectReply Data) Exn Unit

/-- A registered effect, by its name. -/
abbrev EffectFns (Data : Type) := String → EffectRequest Data → EffectBody Data

/-- What is left to run of a transition or of an effect. An effect in `run_effect` looks up
the other effect and its context before that one starts. -/
inductive Frame (Data : Type) where
  | transition (rest : Program (Reply Data) Stop (TransitionExecutionResult Data))
  | effect (rest : EffectBody Data)
  | running (inner : Program (Reply Data) Stop Unit) (next : Except Exn Unit → EffectBody Data)

inductive Ended (Data : Type) where
  | transition (result : Except Exn (TransitionExecutionResult Data))
  | effect (result : Except Exn Unit)

variable {Data : Type}

def Op.isEffect : Op Data → Bool
  | .effect _ _ => true
  | _ => false

section
variable (a : DfsmActor Data) (effects : EffectFns Data) (rounds : Nat)

/-- A transition whose depth the guard refuses comes back at once. -/
inductive Moves : Frame Data → Frame Data → Prop where
  | replied (op : Op Data) {next} (other : op.isEffect = false) (r : Reply Data op) :
      Moves (.transition (.ask op next)) (.transition (next r))
  | own {query next} (r : Data) : Moves (.effect (.ask (.own query) next)) (.effect (next r))
  | runEffect {txId effectName userCtx state event next} :
      Moves (.effect (.ask (.runEffect txId effectName userCtx state event) next)) (.running (a.runEffect txId event effectName userCtx state) next)
  | looked (op : Op Data) {inner next} (other : op.isEffect = false) (r : Reply Data op) :
      Moves (.running (.ask op inner) next) (.running (inner r) next)
  | ran {next} : Moves (.running (.done ()) next) (.effect (next (.ok ())))
  | raised {e next} : Moves (.running (.fail (.raised e)) next) (.effect (next (.error e)))
  | guarded {txId event input depth next} (guard : a.machine.maxEffectChainDepth ≤ depth) :
      Moves (.effect (.ask (.transition txId event input depth) next))
        (.effect (next (.error (.maxEffectChainDepthExceeded txId a.machine.maxEffectChainDepth))))

/-- The request of an effect holds no depth. -/
inductive CallsFrame : Frame Data → Frame Data → Prop where
  | effect {name request next} : CallsFrame (.transition (.ask (.effect name request) next)) (.effect (effects name request))
  | nested {name request inner next} : CallsFrame (.running (.ask (.effect name request) inner) next) (.effect (effects name request))
  | transition {txId event input depth next} (passed : ¬a.machine.maxEffectChainDepth ≤ depth) :
      CallsFrame (.effect (.ask (.transition txId event input depth) next)) (.transition (a.transition txId event rounds depth input))

inductive Ends : Frame Data → Ended Data → Prop where
  | result {r} : Ends (.transition (.done r)) (.transition (.ok r))
  | error {e} : Ends (.transition (.fail (.raised e))) (.transition (.error e))
  | effect : Ends (.effect (.done ())) (.effect (.ok ()))
  | failed {e} : Ends (.effect (.fail e)) (.effect (.error e))

inductive Resumes : Frame Data → Ended Data → Frame Data → Prop where
  | effect {name request next} (r : Except Exn Unit) :
      Resumes (.transition (.ask (.effect name request) next)) (.effect r) (.transition (next r))
  | nested {name request inner next} (r : Except Exn Unit) :
      Resumes (.running (.ask (.effect name request) inner) next) (.effect r) (.running (inner r) next)
  | transition {txId event input depth next} (r : Except Exn (TransitionExecutionResult Data)) :
      Resumes (.effect (.ask (.transition txId event input depth) next)) (.transition r) (.effect (next r))

def nesting : Frames (Frame Data) (Ended Data) where
  moves := Moves a
  calls := CallsFrame a effects rounds
  ends := Ends
  resumes := Resumes

end

/-- The frame waits for an effect or a transition. -/
inductive Awaits : Frame Data → Prop where
  | effect {name request next} : Awaits (.transition (.ask (.effect name request) next))
  | nested {name request inner next} : Awaits (.running (.ask (.effect name request) inner) next)
  | transition {txId event input depth next} : Awaits (.effect (.ask (.transition txId event input depth) next))

/-- The frame goes on with the error that a chain that is too deep ends in. -/
def Refused (maxDepth : Int) (f f' : Frame Data) : Prop :=
  ∃ txId, Resumes f (.effect (.error (.maxEffectChainDepthExceeded txId maxDepth))) f' ∨
    Resumes f (.transition (.error (.maxEffectChainDepthExceeded txId maxDepth))) f'

/-- No chain of effects and transitions that the frame starts is deeper than the machine
allows: what would be the next one is refused. -/
structure ChainsBounded (a : DfsmActor Data) (effects : EffectFns Data) (rounds : Nat) (start : Frame Data) : Prop where
  bounded : ∀ stack, (nesting a effects rounds).Reaches start stack → (stack.length : Int) ≤ a.machine.maxEffectChainDepth + 1
  refused : ∀ f stack next, (nesting a effects rounds).Reaches start (f::stack) → (stack.length : Int) = a.machine.maxEffectChainDepth →
    Awaits f → (nesting a effects rounds).Step (f::stack) next → ∃ f', next = f'::stack ∧ Refused a.machine.maxEffectChainDepth f f'

/-- In the graph of what each effect and transition may ask for, no path is longer. -/
def CallsShallow (a : DfsmActor Data) (effects : EffectFns Data) (rounds : Nat) (start : Frame Data) : Prop :=
  ∀ chain, (nesting a effects rounds).Chain start chain → (chain.length : Int) ≤ a.machine.maxEffectChainDepth

section
variable {a : DfsmActor Data} {effects : EffectFns Data} {rounds : Nat}

theorem awaitsStep {f : Frame Data} {stack next : List (Frame Data)} (awaits : Awaits f)
    (step : (nesting a effects rounds).Step (f::stack) next) :
    (∃ g, CallsFrame a effects rounds f g) ∨ ∃ f', next = f'::stack ∧ Refused a.machine.maxEffectChainDepth f f' := by
  cases step with
  | call calls => exact .inl ⟨_,calls⟩
  | ret ends resumes => cases awaits <;> cases ends
  | own moves =>
    cases moves with
    | replied op other r =>
      cases awaits
      cases other
    | looked op other r =>
      cases awaits
      cases other
    | guarded guard => exact .inr ⟨_,rfl,_,.inr (.transition _)⟩
    | own r => cases awaits
    | runEffect => cases awaits
    | ran => cases awaits
    | raised => cases awaits

end

def canyon : DfsmActor Unit where
  machine := {
    id := "canyon", initial := "ledge"
    states := [("ledge",{ id := "ledge", on := [("shout",[{ target := some "ledge", effects := ["echo"] }])] }),
      ("error",{ id := "error", stateType := some "final" })] }
  empty := ()

def onLedge : TransactionRecord where
  transactionId := "t"
  machineId := "canyon"
  currentState := .str "ledge"
  status := .IDLE
  contextJson := "{}"
  version := 1
  createdAt := 0
  updatedAt := 0

/-- A store with one transaction, a clock that stands still and no code but the effect. -/
def calm : (op : Op Unit) → Reply Unit op
  | .getTransaction _ => .ok (some onLedge)
  | .createTransaction _ => .ok ()
  | .updateTransaction _ _ => .ok ()
  | .pushSagaStep _ _ => .ok ()
  | .getSagaStack _ => .ok []
  | .popSagaStep _ => .ok none
  | .nowMs => (0 : Int)
  | .backOff _ => .ok ()
  | .getBreaker _ _ => (0 : Nat)
  | .readBreaker _ => ({ policy := {} },0)
  | .writeBreaker _ _ => ()
  | .findTransition _ => none
  | .findCompensate _ => false
  | .findEffect _ => true
  | .findHooks _ => []
  | .globalPolicy => none
  | .newContext => .ok none
  | .serializeContext _ => .ok "{}"
  | .deserializeContext _ => .ok none
  | .serializeInput _ => .ok ""
  | .parseSnapshot _ => .ok none
  | .handler _ _ => .ok .nothing
  | .compensation _ _ => .ok ()
  | .effect _ _ => .ok ()
  | .hook _ _ => .ok ()
  | .record _ => .ok ()
  | .printHookError _ _ => .ok ()

/-- So many replies on, or at its first effect. -/
def upTo {α : Type} : Nat → Program (Reply Unit) Stop α → Program (Reply Unit) Stop α
  | n+1, .ask op next => if op.isEffect then .ask op next else upTo n (next (calm op))
  | _, p => p

theorem upToReaches (effects : EffectFns Unit) (n : Nat) (p : Program (Reply Unit) Stop (TransitionExecutionResult Unit)) :
    (nesting canyon effects 1).Reaches (.transition p) [.transition (upTo n p)] := by
  induction n generalizing p with
  | zero => cases p <;> exact .refl
  | succ n ih =>
    cases p with
    | done r => exact .refl
    | fail e => exact .refl
    | ask op next =>
      rw [upTo]
      split
      · exact .refl
      · rename_i other
        exact (ih (next (calm op))).head (.own (.replied op (Bool.not_eq_true _ ▸ other) (calm op)))

def echo : EffectFns Unit := fun _ request =>
  .ask (.runEffect request.transactionId "echo" (some ()) request.state request.eventName) (fun _ => .done ())

def echoRequest : EffectRequest Unit := { transactionId := "t", context := some (), eventName := "shout", state := .str "ledge" }

def shout : Frame Unit := .transition (canyon.transition "t" "shout" 1 0 none)

theorem echoes (depth : Nat) :
    ∃ stack, (nesting canyon echo 1).Reaches shout (.effect (echo "echo" echoRequest)::stack) ∧ stack.length = depth + 1 := by
  induction depth with
  | zero =>
    have waits := upToReaches echo 20 (canyon.transition "t" "shout" 1 0 none)
    exact ⟨_,waits.tail (.call .effect),rfl⟩
  | succ depth ih =>
    obtain ⟨stack,reaches,high⟩ := ih
    have looks := (reaches.tail (.own .runEffect)).tail (.own (.looked (.findEffect "echo") rfl true))
    exact ⟨_,looks.tail (.call .nested),congrArg (· + 1) high⟩

end Dfsm.Python
