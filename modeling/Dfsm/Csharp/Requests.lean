import Dfsm.Csharp.Actor

/-! The parts of a call of the C# actor that only notify. -/
namespace Dfsm.Csharp
open Act

variable {Context Data : Type} {a : DfsmActor Context} {txId eventName : String}

/-- Validators, effects, and hooks other than those of a rollback. -/
def Op.Notifies : Op Context Data → Prop
  | .hook _ (.onCompensate _ _ _ _ _) | .log (.compensateError _ _ _) | .log (.hookError .OnCompensate _) => False
  | .hook _ _ | .log _ | .effect _ _ _ | .coerce _ _ | .validate _ _ => True
  | _ => False

theorem throwAsks {α : Type} {good : Op Context Data → Prop} {x : Except Exn α} : (orThrow x : Act Context Data α).Asks good := by
  cases x <;> trivial

theorem loggedAsks {good : Op Context Data → Prop} {line : Exn → LogLine} {x : Except Exn Unit} (logs : ∀ e, good (.log (line e))) :
    (DfsmActor.logged line x : Act Context Data Unit).Asks good := by
  cases x with
  | ok _ => trivial
  | error e => exact ⟨logs e,fun r => throwAsks⟩

theorem hooksNotify {hookType : HookType} {event : HookEvent Context Data} (other : ∀ h, (Op.hook h event).Notifies)
    (logs : ∀ e, (Op.log (.hookError hookType e) : Op Context Data).Notifies) : (a.fireHook hookType event).Asks Op.Notifies := by
  unfold DfsmActor.fireHook
  exact Program.asksFold (fun _ h => Program.asksRequest (other h) (fun r => loggedAsks logs)) _ _

theorem effectsNotify {depth : Int} {context : Context} {state : StateValue} {effects : List String} :
    (a.runEffects txId eventName depth context state effects : Act Context Data Unit).Asks Op.Notifies := by
  refine Program.asksFold (fun _ eff => ?_) _ _
  unfold DfsmActor.runEffectInternal
  split
  · exact ⟨trivial,fun r => throwAsks⟩
  · trivial

theorem successNotifies {depth : Int} {committed : TransactionRecord} {prevState : StateValue} {updatedCtx : Context}
    {applied : AppliedTransition} :
    (a.notifySuccess txId eventName depth committed prevState updatedCtx applied : Act Context Data Unit).Asks Op.Notifies := by
  have effects {effects : List String} :
      (a.runEffects txId eventName depth updatedCtx committed.currentState effects : Act Context Data Unit).Asks Op.Notifies := effectsNotify
  unfold DfsmActor.notifySuccess
  refine Program.asksBind (hooksNotify (fun _ => trivial) (fun _ => trivial)) (fun _ => ?_)
  split
  · refine Program.asksBind (hooksNotify (fun _ => trivial) (fun _ => trivial)) (fun _ => ?_)
    refine Program.asksBind (hooksNotify (fun _ => trivial) (fun _ => trivial)) (fun _ => ?_)
    exact Program.asksBind effects (fun _ => effects)
  · exact Program.asksBind effects (fun _ => effects)

theorem coerceNotifies {chosen : Chosen} {input : Option Data} :
    (DfsmActor.coerceInput chosen input : Act Context Data (Option Data)).Asks Op.Notifies := by
  unfold DfsmActor.coerceInput
  split
  · trivial
  · split
    · exact Program.asksRequest trivial (fun r => Program.asksBind throwAsks (fun _ => trivial))
    · trivial

theorem validateNotifies {coercedInput : Option Data} :
    (DfsmActor.validateInput eventName coercedInput : Act Context Data Unit).Asks Op.Notifies := by
  unfold DfsmActor.validateInput
  split
  · trivial
  · exact Program.asksRequest trivial (fun r => throwAsks)

end Dfsm.Csharp
