import Dfsm.Java.Store

/-! Which transaction the requests of a call are about. -/
namespace Dfsm.Java
open Program Act Protocol

variable {Context Data : Type}

def HookEvent.transactionId : HookEvent Context Data → String
  | .onStart transactionId _ _ _ _ _ | .beforeTransition transactionId _ _ _ _ _ _ => transactionId
  | .afterTransition transactionId _ _ _ _ _ _ _ _ _ _ _ _ | .onCompensate transactionId _ _ _ _ _ _ _ _ => transactionId
  | .onComplete transactionId _ _ _ _ | .onTerminal transactionId _ _ _ _ _ _ => transactionId

/-- A request of a step, of its unwinding or of a recovery, about this transaction. -/
def Op.Concerns (t : String) : Op Context Data → Prop
  | .getTransaction id | .getUncompensatedStack id => id = t
  | .updateTransaction id _ _ _ | .markCompensationExecuted id _ _ | .deleteTransaction id _ => id = t
  | .handler _ call | .doneHandler _ call => call.transactionId = t
  | .hook event => event.transactionId = t
  | .createTransaction _ | .listInFlight _ _ _ | .listByStatuses _ _ _ => False
  | .initializeStore | .closed | .initialized | .setInitialized | .startScheduler => False
  | _ => True

section
variable {actor : DfsmActor} {snapshot : TransactionSnapshot Context Data} {event : String} {stepStartedAt : Int}
  {metadata : List (String × Data)} {t : String} {good : Op Context Data → Prop}

theorem asksOne {α : Type} {op : Op Context Data} {f : Reply Context Data op → Act Context Data α} (here : good op)
    (rest : ∀ r, (f r).Asks good) : (ask op >>= f).Asks good := ⟨here,rest⟩

theorem asksThrow {α β : Type} {x : Except Throwable α} {f : α → Act Context Data β} (rest : ∀ a, (f a).Asks good) :
    (orThrow x >>= f).Asks good := asksBind asksExcept rest

theorem asksUpdate {α : Type} {version patch append} {f : Nat → Act Context Data α}
    (here : good (.updateTransaction t version patch append)) (rest : ∀ v, (f v).Asks good) :
    (updateTransaction t version patch append >>= f).Asks good :=
  asksBind (asksOne here (fun _ => asksExcept)) rest

theorem asksGet : (getTransaction t : Act Context Data _).Asks (Op.Concerns t) := asksOne rfl (fun _ => asksExcept)

theorem asksEmit {event : HookEvent Context Data} (here : event.transactionId = t) : (emit event).Asks (Op.Concerns t) :=
  asksOne here (fun _ => asksExcept)

theorem asksWhen {fires : Bool} {event : HookEvent Context Data} (here : event.transactionId = t) :
    (DfsmActor.emitWhen fires event).Asks (Op.Concerns t) := by
  unfold DfsmActor.emitWhen
  split
  · exact asksEmit here
  · trivial

theorem terminalConcerns {state status error} {ctx : Context} :
    (actor.emitSettledTerminalHooks t state status ctx error : Act Context Data Unit).Asks (Op.Concerns t) :=
  asksBind (asksWhen rfl) (fun _ => asksWhen rfl)

theorem unwindConcerns {reason} {ctx : Context} :
    (actor.unwindCompensationStack t ctx reason : Act Context Data _).Asks (Op.Concerns t) := by
  refine asksOne rfl (fun r => asksThrow (fun stack => asksFold (fun unwound entry => asksBind ?_ (fun ctx => ?_)) _ _))
  · unfold DfsmActor.compensateEntry
    split
    · trivial
    · exact asksOne trivial (fun _ => asksThrow (fun _ => asksOne trivial (fun _ => asksThrow (fun _ => trivial))))
  · exact asksOne trivial (fun _ => asksOne rfl (fun _ => asksThrow (fun _ => asksBind (asksEmit rfl) (fun _ => trivial))))

theorem effectConcerns {state} {ctx : Context} {eff : EffectInvocation Data} :
    (actor.invokeSingleEffect t state ctx eff).Asks (Op.Concerns t) := by
  have executes {name payload} : (actor.executeEffect t state ctx name payload : Act Context Data Unit).Asks (Op.Concerns t) := by
    refine asksOne trivial (fun revision => asksBind ?_ (fun latest => asksOne trivial (fun _ => asksExcept)))
    unfold DfsmActor.readMoved
    split
    · exact asksGet
    · trivial
  unfold DfsmActor.invokeSingleEffect
  refine asksOne trivial (fun depth => ?_)
  dsimp only
  split
  · trivial
  · split
    · split <;> trivial
    · refine asksOne trivial (fun _ => asksBind (asksAttempt executes) (fun _ => ?_))
      exact asksOne trivial (fun _ => asksOne trivial (fun _ => asksExcept))

theorem concludeConcerns {input value steps duration error} {w : Working Context Data} {status} :
    (actor.conclude snapshot event input w status value steps duration error).Asks (Op.Concerns snapshot.transactionId) := by
  have dropped : (DfsmActor.dropRevision snapshot : Act Context Data Unit).Asks (Op.Concerns snapshot.transactionId) := by
    refine asksOne trivial (fun depth => ?_)
    split
    · exact ⟨trivial,fun _ => trivial⟩
    · trivial
  have reread {before after} : (DfsmActor.rereadNested snapshot before after).Asks (Op.Concerns snapshot.transactionId) := by
    unfold DfsmActor.rereadNested
    split
    · trivial
    · exact asksGet
  unfold DfsmActor.conclude
  refine asksBind (asksEmit rfl) (fun _ => asksBind terminalConcerns (fun _ => ?_))
  refine asksOne trivial (fun _ => asksBind (asksFold (fun _ _ => effectConcerns) _ _) (fun _ => ?_))
  refine asksOne trivial (fun _ => asksBind dropped (fun _ => asksBind reread (fun latest => ?_)))
  cases latest <;> trivial

theorem failConcerns {m failErr compensateRequested fallbackTarget} {w : Working Context Data} :
    (actor.failStep snapshot m failErr compensateRequested fallbackTarget w).Asks (Op.Concerns snapshot.transactionId) := by
  have flushed : (DfsmActor.flushCompensations snapshot w).Asks (Op.Concerns snapshot.transactionId) := by
    unfold DfsmActor.flushCompensations
    split
    · trivial
    · refine asksOne trivial (fun _ => ?_)
      rw [← bind_pure (updateTransaction _ _ _ _)]
      exact asksUpdate rfl (fun _ => trivial)
  unfold DfsmActor.failStep
  refine asksBind flushed (fun _ => asksBind ?_ (fun _ => asksThrow (fun _ => trivial)))
  unfold DfsmActor.rollBack
  split
  · exact asksOne trivial (fun _ => asksUpdate rfl (fun _ => asksBind unwindConcerns (fun _ => trivial)))
  · trivial

theorem resolveConcerns {m binding input result} {w : Working Context Data} :
    (actor.resolveStep snapshot event m binding input result w).Asks (Op.Concerns snapshot.transactionId) := by
  have recorded {w moved : Working Context Data} : (DfsmActor.recordCompensation event m binding input w moved).Asks
      (Op.Concerns snapshot.transactionId) := by
    unfold DfsmActor.recordCompensation
    split
    · trivial
    · exact asksOne trivial (fun _ => trivial)
  have succeeds {result} : (actor.succeedStep event m binding input result w).Asks (Op.Concerns snapshot.transactionId) := by
    unfold DfsmActor.succeedStep
    split
    · exact asksThrow (fun _ => recorded)
    · exact recorded
  unfold DfsmActor.resolveStep
  cases result with
  | ok result => exact asksBind succeeds (fun _ => trivial)
  | error failErr => exact asksBind failConcerns (fun _ => trivial)

theorem matchesConcern (matches_ : List (MatchedTransition × Option Data)) : ∀ {w : Working Context Data},
    (actor.executeMatches snapshot event stepStartedAt metadata matches_ w).Asks (Op.Concerns snapshot.transactionId) := by
  have recorded {binding from_ to_ attempts t0 outcome error} :
      (actor.recordBenchmark snapshot event binding from_ to_ attempts t0 outcome error : Act Context Data Unit).Asks
        (Op.Concerns snapshot.transactionId) := by
    unfold DfsmActor.recordBenchmark
    refine asksOne trivial (fun _ => ?_)
    split
    · exact asksOne trivial (fun _ => asksOne trivial (fun _ => asksExcept))
    · trivial
  induction matches_ with
  | nil => intro w; trivial
  | cons x rest ih =>
    intro w
    rw [DfsmActor.executeMatches]
    refine asksBind ?_ ?_
    · unfold DfsmActor.executeMatch
      refine asksThrow (fun binding => asksOne trivial (fun _ => asksOne rfl (fun _ => ?_)))
      exact asksBind resolveConcerns (fun _ => asksBind recorded (fun _ => trivial))
    · rintro ⟨next,failed⟩
      cases failed with
      | some step => trivial
      | none => exact ih

theorem cascadeConcerns (rounds : Nat) : ∀ {w : Working Context Data},
    (actor.cascadeDone snapshot metadata rounds w).Asks (Op.Concerns snapshot.transactionId) := by
  induction rounds with
  | zero => intro w; trivial
  | succ rounds ih =>
    intro w
    rw [DfsmActor.cascadeDone]
    split
    · trivial
    · refine asksBind ?_ (fun ran => ?_)
      · unfold DfsmActor.executeDone
        split
        · trivial
        · refine asksOne trivial (fun _ => asksOne rfl ?_)
          rintro ⟨doneOut,attempts⟩
          cases doneOut <;> trivial
      · split
        · trivial
        · exact asksThrow (fun _ => ih)

theorem settleConcerns {w : Working Context Data} {status lastError completedAt append} :
    (DfsmActor.settle snapshot w status lastError completedAt append).Asks (Op.Concerns snapshot.transactionId) :=
  asksUpdate rfl (fun _ => ⟨trivial,fun _ => trivial⟩)

theorem settleStepConcerns {input failed} {w : Working Context Data} :
    (actor.settleStep snapshot event stepStartedAt metadata input w failed).Asks (Op.Concerns snapshot.transactionId) := by
  cases failed with
  | some step => exact asksOne trivial (fun _ => asksBind settleConcerns (fun _ => concludeConcerns))
  | none =>
    refine asksBind (cascadeConcerns 20) (fun w => asksOne trivial (fun _ => ?_))
    exact asksBind settleConcerns (fun _ => concludeConcerns)

theorem inputsConcern {rawInput matched} :
    (actor.validateInputs rawInput matched : Act Context Data (List (Option Data))).Asks (Op.Concerns t) :=
  asksMap (fun _ => asksThrow (fun _ => asksOne trivial (fun _ => asksExcept))) _

theorem executeConcerns {rawInput} :
    (actor.executeTransitionOnSnapshot snapshot event rawInput metadata).Asks (Op.Concerns snapshot.transactionId) := by
  unfold DfsmActor.executeTransitionOnSnapshot
  dsimp only
  split
  · trivial
  · refine asksBind inputsConcern (fun inputs => asksBind (asksEmit rfl) (fun _ => asksOne trivial (fun _ => ?_)))
    refine asksBind ?_ (fun _ => asksBind (matchesConcern _) (fun _ => settleStepConcerns))
    unfold DfsmActor.takeLease
    split
    · trivial
    · rw [← bind_pure (updateTransaction _ _ _ _)]
      exact asksUpdate rfl (fun _ => trivial)

end

/-- Requests about one transaction, of a store that answers with it. -/
def concerning (t : String) : Protocol (Reply Context Data) Unit where
  allowed _ op := op.Concerns t
  replies op r := match op, r with
    | .getTransaction id, .ok (some snapshot) => snapshot.transactionId = id
    | _, _ => True
  after _ _ _ := ()

section
variable {actor : DfsmActor} {t : String}

theorem concernsAsks {α : Type} {p : Act Context Data α} (asks : p.Asks (Op.Concerns t)) :
    (concerning t).Obeys (fun _ _ => True) () p :=
  obeysMono (obeysAsks asks (fun _ _ (_ : True) concerns => ⟨concerns,fun _ _ => trivial⟩) trivial) (fun _ _ _ => trivial)

theorem concernsGet {β : Type} {f : Option (TransactionSnapshot Context Data) → Act Context Data β}
    (absent : (concerning t).Obeys (fun _ _ => True) () (f none))
    (found : ∀ snapshot, snapshot.transactionId = t → (concerning t).Obeys (fun _ _ => True) () (f (some snapshot))) :
    (concerning t).Obeys (fun _ _ => True) () (getTransaction t >>= f) := by
  refine And.intro rfl (fun r possible => ?_)
  cases r with
  | error e => trivial
  | ok answer =>
    cases answer with
    | none => exact absent
    | some snapshot => exact found snapshot possible

theorem compensationConcerns {snapshot : TransactionSnapshot Context Data} :
    (actor.recoverByCompensation t snapshot).Asks (Op.Concerns t) :=
  asksOne trivial (fun _ => asksUpdate rfl (fun _ => asksBind unwindConcerns (fun _ =>
    asksOne trivial (fun _ => asksUpdate rfl (fun _ => trivial)))))

theorem recoverConcerns {mode} : (concerning t).Obeys (fun _ _ => True) () (actor.applyRecoveryMode t mode : Act Context Data Unit) := by
  unfold DfsmActor.applyRecoveryMode
  refine concernsGet trivial (fun snapshot own => ?_)
  cases mode with
  | STOP => trivial
  | DELETE => exact concernsAsks (asksOne rfl (fun _ => asksThrow (fun _ => trivial)))
  | MARK_FAIL => exact concernsAsks (asksOne trivial (fun _ => asksUpdate rfl (fun _ => trivial)))
  | COMPENSATE => exact concernsAsks compensationConcerns
  | CONTINUE =>
    refine obeysAsk trivial (fun at_ _ => And.intro rfl (fun r _ => ?_))
    cases r with
    | error e => trivial
    | ok v =>
      cases snapshot.activeStep with
      | none => trivial
      | some activeStep =>
        refine concernsGet trivial (fun again own => ?_)
        dsimp only
        split
        · exact concernsAsks (asksBind (own ▸ executeConcerns) (fun _ => trivial))
        · trivial

end
end Dfsm.Java
