import Dfsm.Runtime.Recovery

/-! The kinds of requests that the parts of an actor ask, whatever the replies. -/
namespace Dfsm
open Program Act

variable {Context Data : Type}

/-- Reads, the clock, validators, and hooks other than the terminal ones. -/
def Op.Consults : Op Context Data → Prop
  | .now | .randomUUID | .getTransaction _ | .validateContext _ | .validateInput _ _ _ | .recordTransition _ | .logRecovery _ _ _ => True
  | .hook (.onComplete _ _ _ _ _) | .hook (.onTerminal _ _ _ _ _ _ _) => False
  | .hook _ => True
  | _ => False

/-- With effects and the counters around them. -/
def Op.Observes : Op Context Data → Prop
  | .effect _ _ | .bumpTransitionRevision _ | .transitionRevision _ | .dropTransitionRevision _ | .effectChainDepth _
  | .setEffectChainDepth _ _ => True
  | op => op.Consults

/-- With the hooks of an end. -/
def Op.Reports : Op Context Data → Prop
  | .hook _ => True
  | op => op.Consults

/-- What follows a settled step: effects, and hooks of any kind. -/
def Op.Concludes : Op Context Data → Prop
  | .hook _ => True
  | op => op.Observes

/-- With the requests of a rollback over the stack. -/
def Op.Unwinds : Op Context Data → Prop
  | .getUncompensatedStack _ | .markCompensationExecuted _ _ _ | .compensate _ _ => True
  | op => op.Consults

/-- With the handlers, and updates that leave the transaction in flight or compensating. -/
def Op.Works : Op Context Data → Prop
  | .handler _ _ | .doneHandler _ _ => True
  | .updateTransaction _ _ patch _ => ∀ status, patch.status = some status → status = .IN_FLIGHT ∨ status = .COMPENSATING
  | op => op.Unwinds

/-- With the updates of recovery and clean-up, which take no lease and append nothing. -/
def Op.Recovers : Op Context Data → Prop
  | .updateTransaction _ _ patch append => patch.status ≠ some .IN_FLIGHT ∧ append = []
  | op => op.Unwinds

theorem consultsObserves (op : Op Context Data) (consults : op.Consults) : op.Observes := by
  cases op <;> trivial

theorem consultsUnwinds (op : Op Context Data) (consults : op.Consults) : op.Unwinds := by
  cases op <;> trivial

theorem consultsReports (op : Op Context Data) (consults : op.Consults) : op.Reports := by
  cases op <;> trivial

theorem reportsConcludes (op : Op Context Data) (reports : op.Reports) : op.Concludes := by
  cases op <;> trivial

theorem observesConcludes (op : Op Context Data) (observes : op.Observes) : op.Concludes := by
  cases op <;> trivial

theorem unwindsWorks (op : Op Context Data) (unwinds : op.Unwinds) : op.Works := by
  cases op <;> trivial

theorem unwindsRecovers (op : Op Context Data) (unwinds : op.Unwinds) : op.Recovers := by
  cases op <;> trivial

theorem consultsWorks (op : Op Context Data) (consults : op.Consults) : op.Works := unwindsWorks op (consultsUnwinds op consults)

section
variable {actor : Actor} {snapshot : TransactionSnapshot Context Data} {event : String} {stepStartedAt : Int}
  {metadata : Metadata Data} {t : String} {good : Op Context Data → Prop}

theorem asksOne {α : Type} {op : Op Context Data} {f : Reply Context Data op → Act Context Data α} (here : good op)
    (rest : ∀ r, (f r).Asks good) : (ask op >>= f).Asks good :=
  ⟨here,rest⟩

theorem asksThrow {α β : Type} {x : Except DfsmError α} {f : α → Act Context Data β} (rest : ∀ a, (f a).Asks good) :
    (orThrow x >>= f).Asks good :=
  asksBind asksExcept rest

theorem asksUpdate {α : Type} {version patch append} {f : Nat → Act Context Data α}
    (here : good (.updateTransaction t version patch append)) (rest : ∀ v, (f v).Asks good) :
    (updateTransaction t version patch append >>= f).Asks good :=
  asksBind (asksOne here (fun _ => asksExcept)) rest

theorem validateInputsAsks {rawInput matched} : (actor.validateInputs rawInput matched : Act Context Data (List Data)).Asks Op.Consults :=
  asksMap (fun _ => asksThrow (fun _ => asksOne trivial (fun _ => asksExcept))) _

theorem telemetryAsks {binding from_ to_ attempts t0 outcome error} :
    (actor.recordTelemetry snapshot event binding from_ to_ attempts t0 outcome error).Asks Op.Consults := by
  unfold Actor.recordTelemetry
  refine asksOne trivial (fun _ => ?_)
  cases binding.benchmarkEnabled with
  | false => trivial
  | true => exact asksOne trivial (fun _ => asksOne trivial (fun _ => asksExcept))

theorem rereadAsks {before after} : (Actor.rereadMoved t before after : Act Context Data _).Asks Op.Consults := by
  unfold Actor.rereadMoved
  split
  · trivial
  · exact ⟨trivial,fun _ => trivial⟩

theorem effectsAsks {state effects} {context : Context} : (actor.invokeEffects t state context effects : Act Context Data Unit).Asks Op.Observes := by
  have frame {name depth} {request : EffectRequest Context Data} : (Actor.runEffectFrame name depth request).Asks Op.Observes := by
    refine asksOne trivial (fun _ => asksOne trivial (fun ran => asksOne trivial (fun _ => asksOne trivial (fun _ => asksExcept))))
  have single {revision item} : (actor.invokeSingleEffect t state context revision item : Act Context Data Unit).Asks Op.Observes := by
    unfold Actor.invokeSingleEffect
    split
    · split <;> trivial
    · refine asksOne trivial (fun _ => ?_)
      dsimp only
      split
      · trivial
      · exact asksOne trivial (fun _ => asksBind (asksMono rereadAsks consultsObserves) (fun _ => frame))
  exact asksOne trivial (fun _ => asksFold (fun _ _ => single) _ _)

theorem unwindAsks {context : Context} {reason} : (actor.unwindCompensationStack t context reason : Act Context Data _).Asks Op.Unwinds := by
  have entryAsks {context : Context} {entry} : (actor.compensateEntry t reason context entry : Act Context Data Context).Asks Op.Unwinds := by
    unfold Actor.compensateEntry
    split
    · trivial
    · exact asksOne trivial (fun _ => asksThrow (fun _ => trivial))
  refine asksOne trivial (fun stack => asksFold (fun unwound entry => ?_) _ _)
  refine asksBind entryAsks (fun _ => asksOne trivial (fun _ => asksOne trivial (fun _ => ?_)))
  exact asksBind (asksOne trivial (fun _ => asksExcept)) (fun _ => trivial)

theorem recordAsks {m binding input} {before after : Working Context Data} :
    (Actor.recordCompensation event m binding input before after).Asks Op.Consults := by
  unfold Actor.recordCompensation
  split
  · trivial
  · exact asksOne trivial (fun _ => trivial)

theorem succeedStepAsks {m binding input output} {w : Working Context Data} :
    (actor.succeedStep event m binding input output w).Asks Op.Consults := by
  unfold Actor.succeedStep
  split
  · exact asksThrow (fun _ => recordAsks)
  · exact recordAsks

theorem failStepAsks {m error compensateRequested fallbackTarget} {w : Working Context Data} :
    (actor.failStep snapshot m error compensateRequested fallbackTarget w).Asks Op.Works := by
  have flush : (Actor.flushCompensations snapshot w).Asks Op.Works := by
    unfold Actor.flushCompensations
    split
    · trivial
    · refine asksOne trivial (fun _ => asksOne ?_ (fun _ => asksExcept))
      exact fun status set => by contradiction
  have rollBack {version} : (actor.rollBack snapshot version error compensateRequested w.workingContext).Asks Op.Works := by
    unfold Actor.rollBack
    split
    · refine asksOne trivial (fun _ => asksUpdate ?_ (fun _ => asksBind (asksMono unwindAsks unwindsWorks) (fun _ => trivial)))
      intro status set
      cases set
      exact .inr rfl
    · trivial
  exact asksBind flush (fun _ => asksBind rollBack (fun _ => asksThrow (fun _ => trivial)))

theorem runMatchesAsks (matches_ : List (MatchedTransition × Data)) (w : Working Context Data) :
    (actor.runMatches snapshot event stepStartedAt metadata matches_ w).Asks Op.Works := by
  induction matches_ generalizing w with
  | nil => trivial
  | cons x rest ih =>
    obtain ⟨m,input⟩ := x
    have outcome {binding result} : (actor.stepOutcome snapshot event m binding input result w).Asks Op.Works := by
      unfold Actor.stepOutcome
      split
      · exact asksBind (asksMono succeedStepAsks consultsWorks) (fun _ => trivial)
      · exact asksBind failStepAsks (fun _ => trivial)
    have one : (actor.runMatch snapshot event stepStartedAt metadata m input w).Asks Op.Works := by
      refine asksThrow (fun _ => asksOne trivial (fun _ => asksOne trivial (fun _ => asksBind outcome (fun _ => ?_))))
      exact asksBind (asksMono telemetryAsks consultsWorks) (fun _ => trivial)
    refine asksBind one (fun next => ?_)
    obtain ⟨next,failed⟩ := next
    cases failed with
    | none => exact ih next
    | some step => trivial

theorem cascadeAsks (rounds : Nat) (w : Working Context Data) : (actor.cascade snapshot metadata rounds w).Asks Op.Works := by
  induction rounds generalizing w with
  | zero => trivial
  | succ rounds ih =>
    have handler {done} : (actor.runDoneHandler snapshot metadata done w).Asks Op.Works := by
      unfold Actor.runDoneHandler
      split
      · trivial
      · refine asksOne trivial (fun _ => asksOne trivial (fun r => ?_))
        obtain ⟨result,attempts⟩ := r
        cases result <;> trivial
    rw [Actor.cascade]
    split
    · trivial
    · refine asksBind handler (fun ran => ?_)
      split
      · trivial
      · exact asksThrow (fun _ => ih _)

theorem dropAsks : (Actor.dropRevision snapshot).Asks Op.Observes := by
  refine asksOne trivial (fun depth => ?_)
  split
  · exact ⟨trivial,fun _ => trivial⟩
  · trivial

theorem emitAsks {α : Type} {event : HookEvent Context Data} {f : Unit → Act Context Data α} (here : good (.hook event))
    (rest : ∀ r, (f r).Asks good) : (emit event >>= f).Asks good :=
  asksBind (asksOne here (fun _ => asksExcept)) rest

theorem terminalHooksAsks {state status error} {context : Context} :
    (actor.emitSettledTerminalHooks t state status context error : Act Context Data Unit).Asks Op.Reports := by
  unfold Actor.emitSettledTerminalHooks
  split
  · by_cases complete : status = .COMPLETED
    · simp only [complete,if_true]
      exact emitAsks trivial (fun _ => asksOne trivial (fun _ => asksExcept))
    · simp only [complete,if_false]
      exact asksOne trivial (fun _ => asksExcept)
  · trivial

theorem concludeAsks {input value steps duration error status} {w : Working Context Data} :
    (actor.conclude snapshot event input w status value steps duration error).Asks Op.Concludes := by
  have observed {α : Type} {p : Act Context Data α} (asks : p.Asks Op.Observes) : p.Asks Op.Concludes :=
    asksMono asks observesConcludes
  have reread {before after} := observed (asksMono (@rereadAsks Context Data snapshot.transactionId before after) consultsObserves)
  unfold Actor.conclude
  refine emitAsks trivial (fun _ => asksBind (asksMono terminalHooksAsks reportsConcludes) (fun _ => asksOne trivial (fun _ => ?_)))
  refine asksBind (observed effectsAsks) (fun _ => asksOne trivial (fun _ => asksBind (observed dropAsks) (fun _ => ?_)))
  refine asksBind reread (fun latest => ?_)
  cases latest <;> trivial

theorem compensateAsks {item : TransactionSummary Context Data} {reason} : (actor.compensateTransaction item reason).Asks Op.Recovers := by
  refine asksOne trivial (fun _ => asksUpdate ?_ (fun _ => asksBind (asksMono unwindAsks unwindsRecovers) (fun _ => ?_)))
  · simp [Op.Recovers]
  · exact asksOne trivial (fun _ => asksUpdate (by simp [Op.Recovers,compensated]) (fun _ => trivial))

theorem failAsks {item : TransactionSummary Context Data} {reason report} : (failTransaction reason report item).Asks Op.Recovers :=
  asksOne trivial (fun _ => asksUpdate (by simp [Op.Recovers,markFailed]) (fun _ => trivial))

theorem unlockAsks {item : TransactionSummary Context Data} {report} : (unlockTransaction report item).Asks Op.Recovers :=
  asksOne trivial (fun _ => asksUpdate (by simp [Op.Recovers]) (fun _ => trivial))

end

end Dfsm
