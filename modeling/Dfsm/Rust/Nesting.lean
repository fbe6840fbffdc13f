import Dfsm.Rust.Actor
import Dfsm.Lib.Calls

/-! Effects of the Rust SDK that run other effects and transitions, and how deep they nest. -/
namespace Dfsm.Rust
open Relation (ReflTransGen)
open Go (leaf)

/-- What an effect may wait for: its runner, `actor.transition_raw`, and whatever else it has
to do with. -/
inductive EffectCall (Data : Type) where
  | runner (subEff : String) (subPayload : Option Data)
  | transitionRaw (txId event : String) (input : Option Data)
  | own (query : Data)

abbrev EffectReply (Data : Type) : EffectCall Data → Type
  | .runner _ _ => Except DfsmError Unit
  | .transitionRaw _ _ _ => Except DfsmError (TransitionExecutionResult Data)
  | .own _ => Data

abbrev EffectBody (Data : Type) := Program (EffectReply Data) DfsmError Unit

/-- A registered effect, by its name. -/
abbrev EffectFns (Context Data : Type) := String → EffectRequest Context → EffectBody Data

/-- What is left to run of a transition or of an effect. -/
inductive Frame (Context Data : Type) where
  | transition (rest : Program (Reply Context Data) Stop (TransitionExecutionResult Data))
  | effect (depth : Nat) (request : EffectRequest Context) (rest : Program (EffectReply Data) DfsmError Unit)

inductive Ended (Data : Type) where
  | transition (result : Except DfsmError (TransitionExecutionResult Data))
  | effect (result : Except DfsmError Unit)

variable {Context Data : Type}

def Op.isEffect : Op Context Data → Bool
  | .effect _ _ _ => true
  | _ => false

section
variable (a : DfsmActor Context Data) (effects : EffectFns Context Data) (rounds : Nat)

/-- A call whose depth the guard refuses comes back at once. -/
inductive Moves : Frame Context Data → Frame Context Data → Prop where
  | replied (op : Op Context Data) {next} (other : op.isEffect = false) (r : Reply Context Data op) :
      Moves (.transition (.ask op next)) (.transition (next r))
  | own {depth request query next} (r : Data) :
      Moves (.effect depth request (.ask (.own query) next)) (.effect depth request (next r))
  | unknown {depth request subEff subPayload next} (missing : a.registry.findEffect subEff = none) :
      Moves (.effect depth request (.ask (.runner subEff subPayload) next)) (.effect depth request (next (.ok ())))
  | guarded {depth request txId event input next} (guard : a.machine.maxEffectChainDepth ≤ 0) :
      Moves (.effect depth request (.ask (.transitionRaw txId event input) next))
        (.effect depth request (next (.error (.maxEffectChainDepthExceeded a.machine.maxEffectChainDepth txId))))

/-- The runner passes on what its effect was requested with, except for the context and the
depth; `transition_raw` starts from the depth of a transition that is called from outside. -/
inductive CallsFrame : Frame Context Data → Frame Context Data → Prop where
  | effect {name depth request next} :
      CallsFrame (.transition (.ask (.effect name depth request) next)) (.effect depth request (effects name request))
  | runner {depth request subEff subPayload next name} (found : a.registry.findEffect subEff = some name) :
      CallsFrame (.effect depth request (.ask (.runner subEff subPayload) next))
        (.effect (depth+1) { request with context := a.registry.defaultContext }
          (effects name { request with context := a.registry.defaultContext }))
  | transitionRaw {depth request txId event input next} (passed : ¬a.machine.maxEffectChainDepth ≤ 0) :
      CallsFrame (.effect depth request (.ask (.transitionRaw txId event input) next)) (.transition (a.transitionRaw txId event rounds input))

inductive Ends : Frame Context Data → Ended Data → Prop where
  | result {r} : Ends (.transition (.done r)) (.transition (.ok r))
  | error {e} : Ends (.transition (.fail (.returned e))) (.transition (.error e))
  | effect {depth request} : Ends (.effect depth request (.done ())) (.effect (.ok ()))
  | failed {depth request e} : Ends (.effect depth request (.fail e)) (.effect (.error e))

inductive Resumes : Frame Context Data → Ended Data → Frame Context Data → Prop where
  | effect {name depth request next} (r : Except DfsmError Unit) :
      Resumes (.transition (.ask (.effect name depth request) next)) (.effect r) (.transition (next r))
  | runner {depth request subEff subPayload next} (r : Except DfsmError Unit) :
      Resumes (.effect depth request (.ask (.runner subEff subPayload) next)) (.effect r) (.effect depth request (next r))
  | transitionRaw {depth request txId event input next} (r : Except DfsmError (TransitionExecutionResult Data)) :
      Resumes (.effect depth request (.ask (.transitionRaw txId event input) next)) (.transition r) (.effect depth request (next r))

def nesting : Frames (Frame Context Data) (Ended Data) where
  moves := Moves a
  calls := CallsFrame a effects rounds
  ends := Ends
  resumes := Resumes

end

/-- The frame waits for an effect or a transition. -/
inductive Awaits (a : DfsmActor Context Data) : Frame Context Data → Prop where
  | effect {name depth request next} : Awaits a (.transition (.ask (.effect name depth request) next))
  | runner {depth request subEff subPayload next name} (found : a.registry.findEffect subEff = some name) :
      Awaits a (.effect depth request (.ask (.runner subEff subPayload) next))
  | transitionRaw {depth request txId event input next} : Awaits a (.effect depth request (.ask (.transitionRaw txId event input) next))

/-- The frame goes on with the error that a chain that is too deep ends in. -/
def Refused (maxDepth : Nat) (f f' : Frame Context Data) : Prop :=
  ∃ txId, Resumes f (.effect (.error (.maxEffectChainDepthExceeded maxDepth txId))) f' ∨
    Resumes f (.transition (.error (.maxEffectChainDepthExceeded maxDepth txId))) f'

/-- No chain of effects and transitions that the frame starts is deeper than the machine
allows: what would be the next one is refused. -/
structure ChainsBounded (a : DfsmActor Context Data) (effects : EffectFns Context Data) (rounds : Nat) (start : Frame Context Data) :
    Prop where
  bounded : ∀ stack, (nesting a effects rounds).Reaches start stack → stack.length ≤ a.machine.maxEffectChainDepth + 1
  refused : ∀ f stack next, (nesting a effects rounds).Reaches start (f::stack) → stack.length = a.machine.maxEffectChainDepth →
    Awaits a f → (nesting a effects rounds).Step (f::stack) next → ∃ f', next = f'::stack ∧ Refused a.machine.maxEffectChainDepth f f'

/-- The calls of the effects nest no deeper by themselves. -/
def NestShallow (a : DfsmActor Context Data) (effects : EffectFns Context Data) (rounds : Nat) (start : Frame Context Data) : Prop :=
  ∀ chain, (nesting a effects rounds).Chain start chain → chain.length ≤ a.machine.maxEffectChainDepth

section
variable {a : DfsmActor Context Data} {effects : EffectFns Context Data} {rounds : Nat}

theorem awaitsStep {f : Frame Context Data} {stack next : List (Frame Context Data)} (awaits : Awaits a f)
    (step : (nesting a effects rounds).Step (f::stack) next) :
    (∃ g, CallsFrame a effects rounds f g) ∨ ∃ f', next = f'::stack ∧ Refused a.machine.maxEffectChainDepth f f' := by
  cases step with
  | call calls => exact .inl ⟨_,calls⟩
  | ret ends resumes =>
    cases awaits <;> cases ends
  | own moves =>
    cases moves with
    | replied op other r =>
      cases awaits
      cases other
    | own r => cases awaits
    | unknown missing =>
      cases awaits with
      | runner found =>
        rw [missing] at found
        cases found
    | guarded guard => exact .inr ⟨_,rfl,_,.inr (.transitionRaw _)⟩

end

def canyon : DfsmActor Unit Unit where
  machine := { id := "canyon", initial := "ledge", states := [("ledge",{ on := [("shout",.target "ledge")], entry := ["echo"] })] }
  registry := {
    effects := [("echo",())], defaultContext := (), contextJson := fun _ => "{}", parseContext := fun _ => some ()
    fromValue := fun _ => some (), valueText := fun _ => "null", parseValue := fun _ => some () }

def echo : EffectFns Unit Unit := fun _ _ => .ask (.runner "echo" none) (fun _ => .done ())

def echoRequest : EffectRequest Unit := { transactionId := "t", context := (), eventName := "shout", state := leaf "ledge" }

def shout : Frame Unit Unit := .transition (canyon.transition "t" "shout" 1 none)

theorem echoes (depth : Nat) :
    ∃ stack, (nesting canyon echo 1).Reaches shout (.effect depth echoRequest (echo "echo" echoRequest)::stack) ∧ stack.length = depth + 1 := by
  induction depth with
  | zero =>
    have read : (nesting canyon echo 1).Step [shout] _ := .own (.replied (.getTransaction "t") rfl (.ok none))
    have clock := ReflTransGen.single read |>.tail (.own (.replied .nowMs rfl (0 : Int)))
    have created := clock.tail (.own (.replied (.createTransaction _) rfl (.ok ())))
    exact ⟨_,created.tail (.call .effect),rfl⟩
  | succ depth ih =>
    obtain ⟨stack,reaches,high⟩ := ih
    exact ⟨_,reaches.tail (.call (.runner rfl)),congrArg (· + 1) high⟩

end Dfsm.Rust
