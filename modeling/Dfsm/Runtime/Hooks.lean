import Dfsm.Runtime.Fencing
import Dfsm.Runtime.Requests

/-! The hooks of one transition call, in the order they fire, among the entries it marks as
compensated and the effects it starts. -/
namespace Dfsm
open Protocol Program Act

variable {Context Data : Type} {t : String}

/-- What a call shows to the outside, in turn. -/
inductive Sign (Context Data : Type) where
  | hook (event : HookEvent Context Data)
  | marked (transactionId : String) (stepSeq : Nat)
  | effect (resolvedName : String)

def sign : Event (Reply Context Data) → Option (Sign Context Data)
  | ⟨.hook event,_⟩ => some (.hook event)
  | ⟨.markCompensationExecuted transactionId stepSeq _,_⟩ => some (.marked transactionId stepSeq)
  | ⟨.effect resolvedName _,_⟩ => some (.effect resolvedName)
  | _ => none

/-- The mark of an entry and the hook that follows it, with the context after its handler. -/
def Actor.undoes (actor : Actor) (t reason : String) (round : CompensationEntryRecord Context Data × Context) : List (Sign Context Data) :=
  [.marked t round.1.stepSeq,.hook (.onCompensate t actor.machine.id actor.actorId round.1.stepSeq
    ((actor.resolveCompensate round.1.compensateKey).getD round.1.compensateKey) round.1.fromState round.1.inputSnapshot
    round.2 reason)]

def Actor.endings (actor : Actor) (t : String) (finalState : StateValue) (status : TransactionStatus) (context : Context)
    (error : Option String) : List (Sign Context Data) :=
  if isTerminalStatus status then
    (if status = .COMPLETED then [.hook (.onComplete t actor.machine.id actor.actorId finalState context)] else []) ++
      [.hook (.onTerminal t actor.machine.id actor.actorId finalState status context error)]
  else []

/-- What a call that returns has done: each entry it has undone once, the last one first, and
none unless it ends as compensated. -/
structure Fired (Context Data : Type) where
  input : Data
  previousState : StateValue
  contextBefore : Context
  undone : List (CompensationEntryRecord Context Data × Context)
  currentState : StateValue
  status : TransactionStatus
  value : Option Data
  context : Context
  durationMs : Int
  error : Option String
  effects : List String
  descending : (undone.map (·.1.stepSeq)).Pairwise (fun a b => b < a)
  compensated : undone ≠ [] → status = .COMPENSATED

def Fired.signs (f : Fired Context Data) (actor : Actor) (t event : String) : List (Sign Context Data) :=
  .hook (.beforeTransition t actor.machine.id actor.actorId event f.input f.previousState f.contextBefore) ::
    f.undone.flatMap (actor.undoes t (f.error.getD "")) ++
    .hook (.afterTransition t actor.machine.id actor.actorId event f.input f.previousState f.currentState f.status f.value
      f.context f.undone.length f.durationMs f.error) ::
    actor.endings t f.currentState f.status f.context f.error ++ f.effects.map .effect

/-- The stack is read with the last entry first. -/
def signs : Protocol (Reply Context Data) (List (Sign Context Data)) where
  allowed _ _ := True
  replies op r := match op, r with
    | .getTransaction id, some snapshot => snapshot.transactionId = id
    | .getUncompensatedStack _, stack => stack.Pairwise (fun a b => b.stepSeq < a.stepSeq)
    | _, _ => True
  after shown op r := shown ++ (sign ⟨op,r⟩).toList

theorem signsPhase (shown : List (Sign Context Data)) (es : List (Event (Reply Context Data))) :
    signs.phaseAfter shown es = shown ++ es.filterMap sign := by
  induction es generalizing shown with
  | nil => exact (List.append_nil _).symm
  | cons e es ih =>
    have first : signs.phaseAfter shown (e::es) = signs.phaseAfter (shown ++ (sign e).toList) es := rfl
    rw [first,ih,List.append_assoc]
    cases seen : sign e with
    | none => rw [List.filterMap_cons_none seen]; rfl
    | some x => rw [List.filterMap_cons_some seen]; rfl

/-- Shows nothing. -/
def Op.Mute : Op Context Data → Prop
  | .hook _ | .markCompensationExecuted _ _ _ | .effect _ _ => False
  | _ => True

/-- Reads the clock, checks an input, runs a handler or logs. -/
def Op.Plain : Op Context Data → Prop
  | .now | .validateInput _ _ _ | .handler _ _ | .doneHandler _ _ | .recordTransition _ => True
  | _ => False

theorem plainMute (op : Op Context Data) (plain : op.Plain) : op.Mute := by
  cases op <;> first | contradiction | trivial

/-- Sees to the counters around effects, or reads a record again. -/
def Op.Counts : Op Context Data → Prop
  | .getTransaction _ | .transitionRevision _ | .dropTransitionRevision _ | .effectChainDepth _ | .setEffectChainDepth _ _ => True
  | _ => False

theorem countsMute (op : Op Context Data) (counts : op.Counts) : op.Mute := by
  cases op <;> first | contradiction | trivial

/-- With the effects. -/
def Op.Affects : Op Context Data → Prop
  | .effect _ _ => True
  | op => op.Counts

theorem countsAffects (op : Op Context Data) (counts : op.Counts) : op.Affects := by
  cases op <;> first | contradiction | trivial

theorem muteAfter {shown : List (Sign Context Data)} {op : Op Context Data} (mute : op.Mute) (r : Reply Context Data op) :
    signs.after shown op r = shown := by
  cases op <;> first | contradiction | exact List.append_nil _

section
variable {shown : List (Sign Context Data)} {α β : Type}

theorem muteThen {p : Act Context Data α} {f : α → Act Context Data β} {post : List (Sign Context Data) → β → Prop}
    (asks : p.Asks Op.Mute) (rest : ∀ a, signs.Obeys (Ends post) shown (f a)) : signs.Obeys (Ends post) shown (p >>= f) := by
  have still : signs.Obeys (fun shown' _ => shown' = shown) shown p := by
    refine @obeysAsks _ _ _ _ _ signs shown _ (· = shown) p asks ?_ rfl
    exact fun shown' op same mute => ⟨trivial,fun r _ => (muteAfter mute r).trans same⟩
  refine obeysBind (obeysMono still (fun shown' r same => ?_))
  subst same
  cases r with
  | ok a => exact rest a
  | error e => trivial

theorem askMute {op : Op Context Data} {f : Reply Context Data op → Act Context Data β} {post : List (Sign Context Data) → β → Prop}
    (mute : op.Mute) (rest : ∀ r, signs.Obeys (Ends post) shown (f r)) : signs.Obeys (Ends post) shown (ask op >>= f) := by
  refine obeysAsk trivial (fun r _ => ?_)
  rw [muteAfter mute]
  exact rest r

theorem emitSigns {event : HookEvent Context Data} {f : Unit → Act Context Data β} {post : List (Sign Context Data) → β → Prop}
    (rest : signs.Obeys (Ends post) (shown ++ [.hook event]) (f ())) : signs.Obeys (Ends post) shown (emit event >>= f) := by
  refine And.intro trivial (fun r _ => ?_)
  cases r with
  | ok _ => exact rest
  | error _ => trivial

end

/-! What the parts of a call ask, without their hooks. -/

section
variable {actor : Actor} {snapshot : TransactionSnapshot Context Data} {event : String} {metadata : Metadata Data}
  {w : Working Context Data}

theorem validatePlain {rawInput matched} : (actor.validateInputs rawInput matched : Act Context Data (List Data)).Asks Op.Plain :=
  asksMap (fun _ => asksThrow (fun _ => asksOne trivial (fun _ => asksExcept))) _

theorem succeedStepPlain {m binding input output} : (actor.succeedStep event m binding input output w).Asks Op.Plain := by
  have recorded {before after : Working Context Data} : (Actor.recordCompensation event m binding input before after).Asks Op.Plain := by
    unfold Actor.recordCompensation
    split
    · trivial
    · exact asksOne trivial (fun _ => trivial)
  unfold Actor.succeedStep
  split
  · exact asksThrow (fun _ => recorded)
  · exact recorded

theorem telemetryPlain {binding from_ to_ attempts t0 outcome error} :
    (actor.recordTelemetry snapshot event binding from_ to_ attempts t0 outcome error).Asks Op.Plain := by
  unfold Actor.recordTelemetry
  refine asksOne trivial (fun _ => ?_)
  cases binding.benchmarkEnabled with
  | false => trivial
  | true => exact asksOne trivial (fun _ => asksOne trivial (fun _ => asksExcept))

theorem cascadePlain (rounds : Nat) (w : Working Context Data) : (actor.cascade snapshot metadata rounds w).Asks Op.Plain := by
  induction rounds generalizing w with
  | zero => trivial
  | succ rounds ih =>
    have handler {done} : (actor.runDoneHandler snapshot metadata done w).Asks Op.Plain := by
      unfold Actor.runDoneHandler
      split
      · trivial
      · refine asksOne trivial (fun _ => asksOne trivial (fun r => ?_))
        obtain ⟨result,attempts⟩ := r
        cases result <;> trivial
    rw [Actor.cascade]
    split
    · trivial
    · refine asksBind handler (fun ran => ?_)
      split
      · trivial
      · exact asksThrow (fun _ => ih _)

theorem rereadCounts {before after} : (Actor.rereadMoved t before after : Act Context Data _).Asks Op.Counts := by
  unfold Actor.rereadMoved
  split
  · trivial
  · exact ⟨trivial,fun _ => trivial⟩

theorem dropCounts : (Actor.dropRevision snapshot).Asks Op.Counts := by
  refine asksOne trivial (fun depth => ?_)
  split
  · exact ⟨trivial,fun _ => trivial⟩
  · trivial

theorem singleAffects {state revision item} {context : Context} :
    (actor.invokeSingleEffect t state context revision item : Act Context Data Unit).Asks Op.Affects := by
  have frame {name depth} {request : EffectRequest Context Data} : (Actor.runEffectFrame name depth request).Asks Op.Affects :=
    asksOne trivial (fun _ => asksOne trivial (fun ran => asksOne trivial (fun _ => asksOne trivial (fun _ => asksExcept))))
  unfold Actor.invokeSingleEffect
  split
  · split <;> trivial
  · refine asksOne trivial (fun _ => ?_)
    dsimp only
    split
    · trivial
    · exact asksOne trivial (fun revision => asksBind (asksMono rereadCounts countsAffects) (fun _ => frame))

theorem effectsAffect {state effects} {context : Context} :
    (actor.invokeEffects t state context effects : Act Context Data Unit).Asks Op.Affects :=
  asksOne trivial (fun _ => asksFold (fun _ _ => singleAffects) _ _)

end

/-! What the parts of a call show. -/

section
variable {actor : Actor} {snapshot : TransactionSnapshot Context Data} {event : String} {stepStartedAt : Int}
  {metadata : Metadata Data} {shown : List (Sign Context Data)} {w : Working Context Data}

theorem unwindEntrySigns {reason} {unwound : Context × Nat} {entry : CompensationEntryRecord Context Data} :
    signs.Obeys (Ends fun shown' (unwound' : Context × Nat) =>
      shown' = shown ++ actor.undoes t reason (entry,unwound'.1) ∧ unwound'.2 = unwound.2 + 1) shown
      (actor.unwindEntry t reason unwound entry) := by
  have handled : (actor.compensateEntry t reason unwound.1 entry : Act Context Data Context).Asks Op.Mute := by
    unfold Actor.compensateEntry
    split
    · trivial
    · exact asksOne trivial (fun _ => asksThrow (fun _ => trivial))
  refine muteThen handled (fun ctx => askMute trivial (fun compensatedAt => ?_))
  refine obeysAsk trivial (fun _ _ => emitSigns ?_)
  exact ⟨by simp [Actor.undoes,signs,sign],rfl⟩

theorem unwindSigns {context : Context} {reason} : signs.Obeys (Ends fun shown' (unwound : Context × Nat) =>
    ∃ undone : List (CompensationEntryRecord Context Data × Context), shown' = shown ++ undone.flatMap (actor.undoes t reason) ∧
      undone.length = unwound.2 ∧ (undone.map (·.1.stepSeq)).Pairwise (fun a b => b < a)) shown
    (actor.unwindCompensationStack t context reason) := by
  refine obeysAsk trivial (fun stack descending => ?_)
  rw [@muteAfter _ _ _ (.getUncompensatedStack t) trivial stack]
  refine obeysLoop (fun left shown' (unwound : Context × Nat) =>
    ∃ undone : List (CompensationEntryRecord Context Data × Context), shown' = shown ++ undone.flatMap (actor.undoes t reason) ∧
      undone.length = unwound.2 ∧ undone.map (·.1) ++ left = stack) ?_ stack ⟨[],by simp,rfl,rfl⟩ ?_
  · intro entry left shown' unwound ⟨undone,here,length,split⟩
    subst here
    refine obeysMono unwindEntrySigns (fun shown' r ended => ?_)
    cases r with
    | error e => exact fun _ => trivial
    | ok unwound' =>
      obtain ⟨here,counted⟩ := ended
      refine ⟨undone ++ [(entry,unwound'.1)],?_,?_,?_⟩
      · rw [here,List.flatMap_append,List.append_assoc]
        simp
      · rw [List.length_append,length,counted]
        rfl
      · rw [← split,List.map_append,List.append_assoc]
        rfl
  · intro shown' unwound ⟨undone,here,length,all⟩
    refine ⟨undone,here,length,?_⟩
    rw [List.append_nil] at all
    subst all
    exact List.pairwise_map.mpr (List.pairwise_map.mp descending)

/-- After a step nothing is shown, or, where it has failed, what it has undone. -/
def Undoes (actor : Actor) (t : String) (shown shown' : List (Sign Context Data)) : Option FailedStep → Prop
  | none => shown' = shown
  | some step => ∃ undone : List (CompensationEntryRecord Context Data × Context),
      shown' = shown ++ undone.flatMap (actor.undoes t step.errorMessage) ∧ undone.length = step.compensatedSteps ∧
      (undone.map (·.1.stepSeq)).Pairwise (fun a b => b < a) ∧ (undone ≠ [] → step.settledStatus = .COMPENSATED)

theorem updateMute {version patch append} : (updateTransaction t version patch append : Act Context Data Nat).Asks Op.Mute :=
  asksOne trivial (fun _ => asksExcept)

theorem rollBackSigns {version error compensateRequested} {context : Context} :
    signs.Obeys (Ends fun shown' (rolled : Nat × Context × Nat) =>
      ∃ undone : List (CompensationEntryRecord Context Data × Context), shown' = shown ++ undone.flatMap (actor.undoes snapshot.transactionId error) ∧
        undone.length = rolled.2.2 ∧ (undone.map (·.1.stepSeq)).Pairwise (fun a b => b < a) ∧
        (undone ≠ [] → compensateRequested = true)) shown
      (actor.rollBack snapshot version error compensateRequested context) := by
  unfold Actor.rollBack
  cases compensateRequested with
  | false => exact ⟨[],by simp,rfl,List.Pairwise.nil,fun some => absurd rfl some⟩
  | true =>
    refine askMute trivial (fun updatedAt => muteThen updateMute (fun version => ?_))
    refine obeysSeq _ unwindSigns (fun shown' unwound ended => ?_)
    obtain ⟨undone,here,length,descending⟩ := ended
    exact ⟨undone,here,length,descending,fun _ => rfl⟩

theorem failStepSigns {m error compensateRequested fallbackTarget} :
    signs.Obeys (Ends fun shown' (failed : Working Context Data × FailedStep) => Undoes actor snapshot.transactionId shown shown' (some failed.2))
      shown (actor.failStep snapshot m error compensateRequested fallbackTarget w) := by
  have flushed : (Actor.flushCompensations snapshot w).Asks Op.Mute := by
    unfold Actor.flushCompensations
    split
    · trivial
    · exact asksOne trivial (fun _ => updateMute)
  refine muteThen flushed (fun version => obeysSeq _ rollBackSigns (fun shown' rolled ended => ?_))
  obtain ⟨undone,here,length,descending,asked⟩ := ended
  refine obeysExcept (fun applied _ => ⟨undone,here,length,descending,fun some => ?_⟩)
  rw [asked some]
  rfl

theorem stepOutcomeSigns {m binding input result} :
    signs.Obeys (Ends fun shown' (ended : Working Context Data × Option FailedStep × LogOutcome) =>
      Undoes actor snapshot.transactionId shown shown' ended.2.1) shown
      (actor.stepOutcome snapshot event m binding input result w) := by
  unfold Actor.stepOutcome
  split
  · exact muteThen (asksMono succeedStepPlain plainMute) (fun _ => rfl)
  · refine obeysSeq _ failStepSigns (fun shown' failed ended => ?_)
    exact ended

theorem runMatchSigns {m input} : signs.Obeys (Ends fun shown' (ran : Working Context Data × Option FailedStep) =>
    Undoes actor snapshot.transactionId shown shown' ran.2) shown
    (actor.runMatch snapshot event stepStartedAt metadata m input w) := by
  refine obeysExcept (fun binding _ => askMute trivial (fun t0 => askMute trivial (fun ran => ?_)))
  refine obeysSeq _ stepOutcomeSigns (fun shown' ended undoes => muteThen (asksMono telemetryPlain plainMute) (fun _ => ?_))
  exact undoes

theorem runMatchesSigns (matches_ : List (MatchedTransition × Data)) : ∀ w : Working Context Data,
    signs.Obeys (Ends fun shown' (ran : Working Context Data × Option FailedStep) =>
      Undoes actor snapshot.transactionId shown shown' ran.2) shown
      (actor.runMatches snapshot event stepStartedAt metadata matches_ w) := by
  induction matches_ with
  | nil => exact fun w => rfl
  | cons x rest ih =>
    intro w
    obtain ⟨m,input⟩ := x
    refine obeysSeq _ runMatchSigns (fun shown' ran undoes => ?_)
    obtain ⟨next,failed⟩ := ran
    cases failed with
    | none =>
      have same : shown' = shown := undoes
      subst same
      exact ih next
    | some step => exact undoes

theorem effectsSigns {state effects} {context : Context} :
    signs.Obeys (Ends fun shown' _ => ∃ names : List String, shown' = shown ++ names.map .effect) shown
      (actor.invokeEffects t state context effects : Act Context Data Unit) := by
  refine obeysMono (@obeysAsks _ _ _ _ _ signs shown _ (fun shown' => ∃ names : List String, shown' = shown ++ names.map .effect)
    _ effectsAffect ?_ ⟨[],by simp⟩) ?_
  · intro shown' op ⟨names,here⟩ affects
    subst here
    refine ⟨trivial,fun r _ => ?_⟩
    cases op with
    | effect name request => exact ⟨names ++ [name],by simp [signs,sign]⟩
    | _ => first | contradiction | exact ⟨names,List.append_nil _⟩
  · intro shown' r shows
    cases r with
    | ok _ => exact shows
    | error _ => trivial

theorem terminalHooksSigns {state status error} {context : Context} :
    signs.Obeys (Ends fun shown' _ => shown' = shown ++ actor.endings t state status context error) shown
      (actor.emitSettledTerminalHooks t state status context error : Act Context Data Unit) := by
  unfold Actor.emitSettledTerminalHooks Actor.endings
  by_cases final : isTerminalStatus status = true
  · by_cases complete : status = .COMPLETED
    · simp only [complete,if_true]
      refine emitSigns ?_
      rw [← bind_pure (emit _)]
      refine emitSigns ?_
      exact List.append_assoc _ _ _
    · simp only [final,complete,if_true,if_false]
      rw [← bind_pure (emit _)]
      exact emitSigns rfl
  · simp only [final]
    exact (List.append_nil _).symm

theorem concludeSigns {input value steps duration error status} :
    signs.Obeys (Ends fun shown' _ => ∃ names : List String, shown' = shown ++
      .hook (.afterTransition snapshot.transactionId actor.machine.id actor.actorId event input snapshot.stateValue w.workingState
        status value w.workingContext steps duration error) ::
      actor.endings snapshot.transactionId w.workingState status w.workingContext error ++ names.map .effect) shown
      (actor.conclude snapshot event input w status value steps duration error) := by
  unfold Actor.conclude
  refine emitSigns (obeysSeq _ terminalHooksSigns (fun shown' _ ended => ?_))
  subst ended
  refine askMute trivial (fun revBeforeEffects => obeysSeq _ effectsSigns (fun shown' _ ran => ?_))
  obtain ⟨names,here⟩ := ran
  refine askMute trivial (fun revision => muteThen (asksMono dropCounts countsMute) (fun _ => ?_))
  refine muteThen (asksMono rereadCounts countsMute) (fun latest => ?_)
  rw [List.append_assoc shown,List.singleton_append] at here
  cases latest <;> exact ⟨names,here⟩

theorem settleStepSigns {input failed} {before : List (Sign Context Data)}
    (began : before = [.hook (.beforeTransition snapshot.transactionId actor.machine.id actor.actorId event input snapshot.stateValue
      snapshot.context)]) (undoes : Undoes actor snapshot.transactionId before shown failed) :
    signs.Obeys (Ends fun shown' _ => ∃ f : Fired Context Data, shown' = f.signs actor snapshot.transactionId event) shown
      (actor.settleStep snapshot event metadata input stepStartedAt w failed) := by
  have settled {w : Working Context Data} {status lastError completedAt append} :
      (Actor.settle snapshot w status lastError completedAt append).Asks Op.Mute :=
    asksBind updateMute (fun _ => ⟨trivial,fun _ => trivial⟩)
  subst began
  cases failed with
  | some step =>
    obtain ⟨undone,here,length,descending,compensated⟩ := undoes
    refine askMute trivial (fun completedAt => muteThen settled (fun _ => obeysMono concludeSigns (fun shown' r ended => ?_)))
    cases r with
    | error e => trivial
    | ok result =>
      obtain ⟨names,told⟩ := ended
      refine ⟨⟨input,snapshot.stateValue,snapshot.context,undone,w.workingState,step.settledStatus,none,w.workingContext,
        max 0 (completedAt - stepStartedAt),some step.errorMessage,names,descending,compensated⟩,?_⟩
      rw [told,here,← length]
      simp only [Fired.signs,Option.getD_some,List.append_assoc,List.cons_append,List.nil_append]
  | none =>
    have none_ : shown = _ := undoes
    subst none_
    refine muteThen (asksMono (cascadePlain 20 w) plainMute) (fun w => askMute trivial (fun completedAt => muteThen settled (fun _ => ?_)))
    refine obeysMono concludeSigns (fun shown' r ended => ?_)
    cases r with
    | error e => trivial
    | ok result =>
      obtain ⟨names,told⟩ := ended
      refine ⟨⟨input,snapshot.stateValue,snapshot.context,[],w.workingState,
        resolveSettledTransactionStatus actor.machine.toRawMachine w.workingState false,w.lastReturnValue,w.workingContext,
        max 0 (completedAt - stepStartedAt),none,names,List.Pairwise.nil,fun some => absurd rfl some⟩,?_⟩
      rw [told]
      rfl

theorem executeSigns {rawInput} : signs.Obeys (Ends fun shown' _ => ∃ f : Fired Context Data,
    shown' = f.signs actor snapshot.transactionId event) ([] : List (Sign Context Data))
    (actor.executeTransitionOnSnapshot snapshot event rawInput metadata) := by
  have leased {startedAt} : (actor.takeLease snapshot event rawInput startedAt).Asks Op.Mute := by
    unfold Actor.takeLease
    split
    · trivial
    · exact updateMute
  unfold Actor.executeTransitionOnSnapshot
  dsimp only
  split
  · trivial
  · refine muteThen (asksMono validatePlain plainMute) (fun inputs => emitSigns (askMute trivial (fun startedAt => muteThen leased (fun version => ?_))))
    exact obeysSeq _ (runMatchesSigns _ _) (fun shown' ran undoes => settleStepSigns rfl undoes)

theorem transitionSigns {input fields} : signs.Obeys (Ends fun shown' _ => ∃ f : Fired Context Data, shown' = f.signs actor t event)
    ([] : List (Sign Context Data)) (actor.transition t event input fields) := by
  refine obeysAsk trivial (fun found known => ?_)
  rw [@muteAfter _ _ _ (.getTransaction t) trivial found]
  cases found with
  | none => trivial
  | some snapshot =>
    obtain rfl : snapshot.transactionId = t := known
    dsimp only
    split
    · exact executeSigns
    · trivial

end

/-! In a run over one store. -/

/-- The entries of each transaction are in the order of their numbers. -/
def Store.InOrder (store : Store Context Data) : Prop := ∀ t, (store.entries t).Pairwise (fun a b => a.stepSeq < b.stepSeq)

theorem lifoDescends {entries : List (CompensationEntryRecord Context Data)} (inOrder : entries.Pairwise (fun a b => a.stepSeq < b.stepSeq)) :
    (Store.lifo entries).Pairwise (fun a b => b.stepSeq < a.stepSeq) := by
  have apart : entries.Pairwise (fun a b => a.stepSeq ≠ b.stepSeq) := inOrder.imp (fun less => Nat.ne_of_lt less)
  have sorted : (Store.lifo entries).Pairwise (fun a b => b.stepSeq ≤ a.stepSeq) :=
    List.pairwise_insertionSort (fun a b => b.stepSeq ≤ a.stepSeq) entries
  have same : entries.Perm (entries.insertionSort (fun a b => b.stepSeq ≤ a.stepSeq)) := (List.perm_insertionSort _ entries).symm
  have distinct : (Store.lifo entries).Pairwise (fun a b => a.stepSeq ≠ b.stepSeq) := same.pairwise apart (fun ne => Ne.symm ne)
  exact (sorted.and distinct).imp (fun h => Nat.lt_of_le_of_ne h.1 (Ne.symm h.2))

theorem numberedInOrder (next : Nat) (append : List (PendingCompensation Context Data)) :
    (Store.numbered t next append).Pairwise (fun a b => a.stepSeq < b.stepSeq) ∧ ∀ e ∈ Store.numbered t next append, next ≤ e.stepSeq := by
  induction append generalizing next with
  | nil => exact ⟨List.Pairwise.nil,by simp [Store.numbered]⟩
  | cons item rest ih =>
    obtain ⟨inOrder,above⟩ := ih (next+1)
    refine ⟨List.pairwise_cons.mpr ⟨fun e mem => above e mem,inOrder⟩,fun e mem => ?_⟩
    rcases List.mem_cons.mp mem with rfl | later
    · exact Nat.le_refl _
    · exact Nat.le_of_succ_le (above e later)

theorem maxSeqAbove {entries : List (CompensationEntryRecord Context Data)} {e} (mem : e ∈ entries) : e.stepSeq ≤ Store.maxSeq entries := by
  unfold Store.maxSeq
  induction entries with
  | nil => contradiction
  | cons head rest ih =>
    rw [List.map_cons,List.foldr_cons]
    rcases List.mem_cons.mp mem with rfl | later
    · exact Nat.le_max_left _ _
    · exact Nat.le_trans (ih later) (Nat.le_max_right _ _)

theorem inOrderAfter {w : World Context Data} (inOrder : w.entries.Pairwise (fun a b => a.stepSeq < b.stepSeq)) (op : Op Context Data)
    (r : Reply Context Data op) : (w.after t op r).entries.Pairwise (fun a b => a.stepSeq < b.stepSeq) := by
  cases op with
  | createTransaction record =>
    cases r with
    | error _ => exact inOrder
    | ok _ =>
      simp only [World.after]
      split <;> exact inOrder
  | updateTransaction id version patch append =>
    cases r with
    | error _ => exact inOrder
    | ok next =>
      simp only [World.after]
      split
      · obtain ⟨added,above⟩ := @numberedInOrder _ _ t (Store.maxSeq w.entries + 1) append
        exact List.pairwise_append.mpr ⟨inOrder,added,fun a old b new => Nat.lt_of_lt_of_le (Nat.lt_succ_of_le (maxSeqAbove old)) (above b new)⟩
      · exact inOrder
  | markCompensationExecuted id stepSeq compensatedAt =>
    simp only [World.after]
    split
    · refine List.pairwise_map.mpr (inOrder.imp (fun less => ?_))
      unfold CompensationEntryRecord.marked
      split <;> split <;> exact less
    · exact inOrder
  | deleteTransactions ids =>
    simp only [World.after]
    split
    · exact List.Pairwise.nil
    · exact inOrder
  | _ => exact inOrder

section
variable {actors : Actor → Prop} {store : Store Context Data} {pool : Pool (Reply Context Data) DfsmError (Store Context Data)}

theorem runInOrder (start : store.InOrder) (run : Pool.Reaches Performs (Operation actors) Pool.Anything { shared := store } pool) :
    pool.shared.InOrder := by
  refine @Pool.reachesInvariant _ _ _ _ _ _ _ _ _ (fun pool : Pool _ DfsmError (Store Context Data) => pool.shared.InOrder) run start ?_
  intro pool move next _ _ inOrder step
  cases step with
  | call called => exact inOrder
  | @act i call op next history r shared here performed =>
    intro t
    have kept := @inOrderAfter _ _ t (pool.shared.world t) (inOrder t) op r
    rw [← (performsWorld performed t).2] at kept
    exact kept

/-- A transition call that has returned has fired its hooks in this order, with its marks
among them and its effects after them, whatever other calls have done meanwhile. -/
theorem hooksInOrder (start : store.InOrder) (run : Pool.Reaches Performs (Operation actors) Pool.Anything { shared := store } pool)
    {w} (mem : w ∈ pool.workers) {actor : Actor} {event : String} {input : Data} {fields}
    (call : w.call = (actor.transition t event input fields).void) (returned : w.program = .done ()) :
    ∃ f : Fired Context Data, w.history.filterMap sign = f.signs actor t event := by
  have gained := @Pool.reachesGain _ _ _ _ _ _ _ _ _ (fun pool _ => pool.shared.InOrder) run (fun pool move next before _ _ => runInOrder start before)
  have conforms := @Pool.reachesConforms _ _ _ _ _ Performs (Operation actors) _ _ pool signs ([] : List (Sign Context Data))
    (· = (actor.transition t event input fields).void) (Ends fun shown _ => ∃ f : Fired Context Data, shown = f.signs actor t event)
    (fun p _ same => ?_) (fun met performed => ?_) rfl gained w mem call
  · rw [returned,signsPhase,List.nil_append] at conforms
    exact conforms
  · subst same
    refine obeysBind (obeysMono transitionSigns (fun shown r ended => ?_))
    cases r with
    | ok result => exact ended
    | error e => trivial
  · rename_i pool i op r s'
    cases op with
    | getTransaction id =>
      have replies := @performsReplies _ _ pool.shared s' (.getTransaction id) r (fun _ => True) performed
      cases r <;> exact replies
    | getUncompensatedStack id =>
      rw [performed.1]
      exact lifoDescends ((met id).sublist List.filter_sublist)
    | _ => trivial

end

/-! A handler that refuses makes its call undo two earlier steps. -/

/-- Where entering fails the steps before it are undone. -/
def guardedActor : Actor where
  machine := doorActor.machine
  actorId := "porter"
  compiledBindings key := (doorActor.compiledBindings key).map (fun binding => { binding with onFailCompensate := true })
  resolveCompensate key := some key

def earlierStep (stepSeq : Nat) (compensateKey : String) : CompensationEntryRecord Unit Unit where
  transitionKey := "earlier"
  compensateKey := compensateKey
  fromState := .str "idle"
  inputSnapshot := ()
  contextBefore := ()
  createdAt := 0
  transactionId := "t"
  stepSeq := stepSeq

def steppedStore : Store Unit Unit where
  transactions := [doorRecord.toTransactionRecord]
  compensations := [earlierStep 1 "unring",earlierStep 2 "unlatch"]
  unique := List.nodup_singleton _

def refusing : (op : Op Unit Unit) → Reply Unit Unit op
  | .handler _ _ => (.error "refused",1)
  | op => politeUser op

def guardedCall : Act Unit Unit Unit := (guardedActor.transition "t" "enter" () []).void

def undonePool : Calls Unit Unit :=
  Pool.play (serve refusing) (.call guardedCall::turns 0 40) { shared := steppedStore }

theorem steppedInOrder : steppedStore.InOrder := by
  intro t
  by_cases here : "t" = t
  · subst here
    decide
  · simp [Store.entries,steppedStore,earlierStep,here]

set_option maxRecDepth 2000 in
theorem hooksInOrderUndone : ∃ w ∈ undonePool.workers, ∃ f : Fired Unit Unit, w.history.filterMap sign = f.signs guardedActor "t" "enter" := by
  have enters : Operation (· = guardedActor) guardedCall := .inr (.inl ⟨guardedActor,"t","enter",(),[],rfl,rfl⟩)
  have run : Pool.Reaches Performs (Operation (· = guardedActor)) Pool.Anything { shared := steppedStore } undonePool := by
    apply Pool.reachesPlay (servePerforms refusing) _ (Pool.playAnything _ _) .start
    simp [turns,enters]
  obtain ⟨w,here,call,returned⟩ : ∃ w, undonePool.workers[0]? = some w ∧ w.call = guardedCall ∧ w.program = .done () := ⟨_,rfl,rfl,rfl⟩
  have mem := List.mem_of_getElem? here
  exact ⟨w,mem,hooksInOrder steppedInOrder run mem call returned⟩

/-- The marks of a call. -/
def marks (history : List (Event (Reply Unit Unit))) : List Nat :=
  (history.filterMap sign).filterMap (fun s => match s with | .marked _ stepSeq => some stepSeq | _ => none)

example : (undonePool.workers.map (fun w => marks w.history)) = [[2,1]] := by decide +kernel

end Dfsm
