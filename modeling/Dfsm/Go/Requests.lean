import Dfsm.Go.Actor

/-! The parts of a call of the Go actor that only notify. -/
namespace Dfsm.Go
open Act

variable {Context Data : Type} {a : DfsmActor Context Data} {ord : Order} {txId eventName : String}

/-- Validators, effects, and hooks other than those of a rollback. -/
def Op.Notifies : Op Context Data → Prop
  | .hook _ (.onCompensate _ _ _ _ _) => False
  | .hook _ _ | .effect _ _ _ | .validate _ _ => True
  | _ => False

theorem panicAsks {α : Type} {good : Op Context Data → Prop} {x : Except Panic α} : (orPanic x : Act Context Data α).Asks good := by
  cases x <;> trivial

theorem returnAsks {α : Type} {good : Op Context Data → Prop} {x : Except DfsmError α} : (orReturn x : Act Context Data α).Asks good := by
  cases x <;> trivial

theorem hooksNotify {hookType : HookType} {event : HookEvent Context Data} (other : ∀ h, (Op.hook h event).Notifies) :
    (a.fireHook hookType event).Asks Op.Notifies := by
  unfold DfsmActor.fireHook
  refine Program.asksFold (fun _ h => ?_) _ _
  exact And.intro (other h) (fun r => by cases r <;> trivial)

theorem effectsNotify {depth : Int} {userCtx : Context} {state : StateValue} {effects : List String} :
    (a.runEffects txId eventName depth userCtx state effects).Asks Op.Notifies := by
  refine Program.asksFold (fun _ eff => ?_) _ _
  unfold DfsmActor.runEffectInternal
  split
  · exact ⟨trivial,fun r => by cases r <;> trivial⟩
  · trivial

theorem successNotifies {depth : Int} {committed : TransactionRecord} {prevState : StateValue} {updatedCtx : Context}
    {applied : AppliedTransition} : (a.notifySuccess txId eventName depth committed prevState updatedCtx applied).Asks Op.Notifies := by
  have effects {effects : List String} : (a.runEffects txId eventName depth updatedCtx committed.currentState effects).Asks Op.Notifies :=
    effectsNotify
  unfold DfsmActor.notifySuccess
  refine Program.asksBind (hooksNotify (fun _ => trivial)) (fun _ => ?_)
  split
  · refine Program.asksBind (hooksNotify (fun _ => trivial)) (fun _ => Program.asksBind (hooksNotify (fun _ => trivial)) (fun _ => ?_))
    exact Program.asksBind effects (fun _ => effects)
  · exact Program.asksBind effects (fun _ => effects)

theorem validateNotifies {coercedInput : Option Data} : (a.validateInput eventName coercedInput).Asks Op.Notifies := by
  unfold DfsmActor.validateInput
  split
  · trivial
  · split
    · refine Program.asksRequest trivial (fun r => Program.asksBind panicAsks (fun checked => ?_))
      cases checked <;> trivial
    · trivial

end Dfsm.Go
