import Dfsm.Rust.Actor

/-! What the parts of a call of the Rust actor ask for. -/
namespace Dfsm.Rust
open Act Program

variable {Context Data : Type} {a : DfsmActor Context Data} {txId event : String}

/-- Hooks, effects and benchmarks. -/
def Op.Notifies : Op Context Data → Prop
  | .hook _ _ | .effect _ _ _ | .record _ => True
  | _ => False

/-- The circuit breakers. -/
def Op.Guards : Op Context Data → Prop
  | .loadBreaker _ _ | .lockBreaker _ _ | .unlockBreaker _ _ => True
  | _ => False

theorem returnAsks {α : Type} {good : Op Context Data → Prop} {x : Except DfsmError α} : (orReturn x : Act Context Data α).Asks good := by
  cases x <;> trivial

/-- Hooks and effects. -/
def Op.Informs : Op Context Data → Prop
  | .hook _ _ | .effect _ _ _ => True
  | _ => False

theorem informsNotifies (op : Op Context Data) (informs : op.Informs) : op.Notifies := by
  cases op <;> first | trivial | cases informs

theorem hooksInform {hookType : HookType} {payload : HookEvent} : (a.fireHook hookType payload).Asks Op.Informs :=
  asksFold (fun _ h => (show (ask (.hook h payload) : Act Context Data Unit).Asks Op.Informs from ⟨trivial,fun _ => trivial⟩)) _ _

theorem effectsInform {depth : Nat} {userCtx : Context} {state : StateValue} {effects : List String} :
    (a.runEffects txId event depth userCtx state effects).Asks Op.Informs := by
  refine asksFold (fun _ eff => ?_) _ _
  unfold DfsmActor.runEffectInternal
  split
  · exact ⟨trivial,fun _ => trivial⟩
  · trivial

theorem successInforms {depth : Nat} {r : TransactionRecord} {prevState : StateValue} {currentCtx : Context} {applied : AppliedTransition} :
    (a.notifySuccess txId event depth r prevState currentCtx applied).Asks Op.Informs := by
  have effects {effects : List String} : (a.runEffects txId event depth currentCtx r.currentState effects).Asks Op.Informs := effectsInform
  unfold DfsmActor.notifySuccess
  refine asksBind hooksInform (fun _ => ?_)
  split
  · exact asksBind hooksInform (fun _ => asksBind hooksInform (fun _ => asksBind effects (fun _ => effects)))
  · exact asksBind effects (fun _ => effects)

theorem effectsNotify {depth : Nat} {userCtx : Context} {state : StateValue} {effects : List String} :
    (a.runEffects txId event depth userCtx state effects).Asks Op.Notifies :=
  asksMono effectsInform informsNotifies

theorem successNotifies {depth : Nat} {r : TransactionRecord} {prevState : StateValue} {currentCtx : Context} {applied : AppliedTransition} :
    (a.notifySuccess txId event depth r prevState currentCtx applied).Asks Op.Notifies :=
  asksMono successInforms informsNotifies

theorem loadGuards {chosen : Chosen} : (DfsmActor.loadBreaker chosen : Act Context Data (Option Nat)).Asks Op.Guards := by
  unfold DfsmActor.loadBreaker
  split
  · trivial
  · split
    · exact ⟨trivial,fun _ => trivial⟩
    · trivial

theorem beforeGuards {handlerName : String} {breaker : Option Nat} :
    (DfsmActor.beforeExecution handlerName breaker : Act Context Data Unit).Asks Op.Guards := by
  cases breaker with
  | none => trivial
  | some breaker =>
    unfold DfsmActor.beforeExecution
    refine asksRequest trivial ?_
    rintro ⟨cb,now⟩
    refine asksRequest trivial (fun _ => ?_)
    split <;> trivial

theorem successGuards {breaker : Option Nat} : (DfsmActor.onSuccess breaker : Act Context Data Unit).Asks Op.Guards := by
  cases breaker with
  | none => trivial
  | some breaker => exact ⟨trivial,fun _ => ⟨trivial,fun _ => trivial⟩⟩

theorem failureGuards {breaker : Option Nat} : (DfsmActor.onFailure breaker : Act Context Data Unit).Asks Op.Guards := by
  cases breaker with
  | none => trivial
  | some breaker => exact ⟨trivial,fun _ => ⟨trivial,fun _ => trivial⟩⟩

end Dfsm.Rust
