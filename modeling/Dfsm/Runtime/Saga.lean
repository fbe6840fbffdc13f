import Dfsm.Runtime.Fencing
import Dfsm.Runtime.Watching

/-! The saga stack over whole runs: what the steps of each call leave to be compensated, as
the log of the run shows it, against the entries the store holds. -/
namespace Dfsm
open Protocol Program Act

variable {Context Data : Type} {t : String}

/-- A step that can be compensated: the handler for it, and where the step began. -/
structure SagaStep (Context Data : Type) where
  compensateKey : String
  fromState : StateValue
  inputSnapshot : Option Data
  contextBefore : Context

def PendingCompensation.step (entry : PendingCompensation Context Data) : SagaStep Context Data :=
  ⟨entry.compensateKey,entry.fromState,some entry.inputSnapshot,entry.contextBefore⟩

/-- The effective policy of a binding names the handler; the call tells the rest. -/
def compensable (actor : Actor) (key : String) (call : PipelineExecutionContext Context Data) : List (SagaStep Context Data) :=
  match (actor.compiledBindings key).bind (fun binding => given binding.resolvedCompensateName) with
  | none => []
  | some compensateKey => [⟨compensateKey,call.currentState,call.input,call.contextData⟩]

/-- Makes steps durable: a settling commit, or the steps before a failed one. -/
def TransactionUpdatePatch.Commits (patch : TransactionUpdatePatch Context Data) : Bool :=
  patch.stateValue.isSome || patch.status.isNone

/-- The steps of a call that are still to be committed, after one of its events. -/
def carried (actor : Actor) (t : String) (steps : List (SagaStep Context Data)) : Event (Reply Context Data) → List (SagaStep Context Data)
  | ⟨.handler key call,(.ok _,_)⟩ => if call.transactionId = t then steps ++ compensable actor key call else steps
  | ⟨.doneHandler key call,(.ok _,_)⟩ => if call.transactionId = t then steps ++ compensable actor key call else steps
  | ⟨.updateTransaction id _ patch _,.ok _⟩ => if id = t ∧ patch.Commits = true then [] else steps
  | ⟨.queryTransactions filter nowTimestamp threshold,found⟩ =>
    if (listed t ⟨.queryTransactions filter nowTimestamp threshold,found⟩).isSome then [] else steps
  | _ => steps

/-- What a call appends is what its steps have left, in the update that commits them. -/
def saga (actor : Actor) (t : String) : Protocol (Reply Context Data) (List (SagaStep Context Data)) where
  allowed steps op := match op with
    | .updateTransaction id _ patch append => id = t → append.map (·.step) = if patch.Commits = true then steps else []
    | _ => True
  replies op r := match op, r with
    | .getTransaction id, some snapshot => snapshot.transactionId = id
    | .queryTransactions filter _ _, found =>
      (found.map (·.transactionId)).Nodup ∧ ∀ item ∈ found, Store.matchesFilter filter item.toTransactionRecord = true
    | _, _ => True
  after steps op r := carried actor t steps ⟨op,r⟩

/-- A hook makes no step, also where it throws. -/
example (actor : Actor) (steps : List (SagaStep Context Data)) (event : HookEvent Context Data) (e : DfsmError) :
    (saga actor t).after steps (.hook event) (.error e) = steps := by
  simp only [saga,carried]

/-- Requests that neither make a step nor commit one. -/
def Op.Stepless : Op Context Data → Prop
  | .updateTransaction _ _ _ _ | .queryTransactions _ _ _ | .handler _ _ | .doneHandler _ _ => False
  | _ => True

/-- No automatic transition of the machine has a policy that names a compensation. -/
def Actor.PlainDone (actor : Actor) : Prop :=
  ∀ path binding, actor.compiledBindings (bindingKey path "$onDone") = some binding → given binding.resolvedCompensateName = none

section
variable {actor : Actor} {steps : List (SagaStep Context Data)} {α β : Type}

theorem compensableOf {path event : String} {call : PipelineExecutionContext Context Data} {binding} (bound : actor.binding path event = .ok binding) :
    compensable actor (bindingKey path event) call = match given binding.resolvedCompensateName with
      | none => []
      | some compensateKey => [⟨compensateKey,call.currentState,call.input,call.contextData⟩] := by
  unfold Actor.binding at bound
  split at bound
  · contradiction
  · rename_i found
    cases bound
    simp only [compensable,found,Option.bind_some]

theorem plainCompensable (plain : actor.PlainDone) {path : String} {call : PipelineExecutionContext Context Data} :
    compensable actor (bindingKey path "$onDone") call = [] := by
  unfold compensable
  cases found : actor.compiledBindings (bindingKey path "$onDone") with
  | none => rfl
  | some binding => simp only [Option.bind_some,plain path binding found]

theorem sagaAway {op : Op Context Data} (away : op.about ≠ some t) (scans : ∀ filter now threshold, op ≠ .queryTransactions filter now threshold) :
    (saga actor t).allowed steps op ∧ ∀ r, (saga actor t).replies op r → (saga actor t).after steps op r = steps := by
  cases op with
  | updateTransaction id version patch append =>
    have other : id ≠ t := fun here => away (congrArg some here)
    refine ⟨fun here => absurd here other,fun r _ => ?_⟩
    cases r with
    | ok _ => exact if_neg (fun here => other here.1)
    | error _ => rfl
  | queryTransactions filter now threshold => exact absurd rfl (scans _ _ _)
  | handler key call =>
    refine ⟨trivial,fun r _ => ?_⟩
    obtain ⟨result,attempts⟩ := r
    cases result with
    | ok _ => exact if_neg (fun here => away (congrArg some here))
    | error _ => rfl
  | doneHandler key call =>
    refine ⟨trivial,fun r _ => ?_⟩
    obtain ⟨result,attempts⟩ := r
    cases result with
    | ok _ => exact if_neg (fun here => away (congrArg some here))
    | error _ => rfl
  | _ => exact ⟨trivial,fun _ _ => rfl⟩

theorem steplessSaga {good : Op Context Data → Prop} {p : Act Context Data α} (asks : p.Asks good) (stepless : ∀ op, good op → op.Stepless) :
    (saga actor t).Obeys (fun steps' _ => steps' = steps) steps p := by
  refine @obeysAsks _ _ _ _ _ (saga actor t) steps _ (· = steps) p (asksMono asks stepless) ?_ rfl
  intro steps' op same unwinds
  subst same
  cases op <;> first | contradiction | exact ⟨trivial,fun _ _ => rfl⟩

theorem unwindsStepless (op : Op Context Data) (unwinds : op.Unwinds) : op.Stepless := by
  cases op <;> first | contradiction | trivial

theorem concludesStepless (op : Op Context Data) (concludes : op.Concludes) : op.Stepless := by
  cases op <;> first | contradiction | trivial

theorem consultsThen {p : Act Context Data α} {f : α → Act Context Data β} {post : List (SagaStep Context Data) → β → Prop}
    (asks : p.Asks Op.Consults) (rest : ∀ a, (saga actor t).Obeys (Ends post) steps (f a)) :
    (saga actor t).Obeys (Ends post) steps (p >>= f) := by
  refine obeysBind (obeysMono (steplessSaga asks (fun op consults => unwindsStepless op (consultsUnwinds op consults))) (fun steps' r same => ?_))
  subst same
  cases r with
  | ok a => exact rest a
  | error e => trivial

theorem recoversSaga {op : Op Context Data} (recovers : op.Recovers) : (saga actor t).allowed [] op ∧
    ∀ r, (saga actor t).replies op r → (saga actor t).after [] op r = [] := by
  cases op with
  | updateTransaction id version patch append =>
    refine ⟨fun _ => ?_,fun r _ => ?_⟩
    · rw [recovers.2]
      simp
    · cases r with
      | ok _ => exact ite_self _
      | error _ => rfl
  | _ => first | contradiction | exact ⟨trivial,fun _ _ => rfl⟩

theorem sagaWatch : Watches (saga actor t : Protocol (Reply Context Data) (List (SagaStep Context Data))) t (fun _ => True) (· = []) where
  freshClear _ _ := trivial
  away _ _ := sagaAway
  scan steps _ _ _ found _ _ := ⟨fun mem => if_pos (listedSome.mpr mem),fun absent => if_neg (mt listedSome.mp absent)⟩
  scans _ _ _ _ _ := trivial
  replies op r possible := by
    cases op with
    | getTransaction => cases r <;> exact possible
    | queryTransactions => exact possible
    | _ => trivial
  recovers steps op none recovers := by
    subst none
    exact recoversSaga recovers

end

/-! A step, from its lease to its commit: the call carries what it has still to append. -/

def Working.steps (w : Working Context Data) : List (SagaStep Context Data) := w.pendingCompensations.map (·.step)

/-- Where a step has failed nothing is left to append. -/
def Carries (steps : List (SagaStep Context Data)) (p : Working Context Data × Option FailedStep) : Prop :=
  steps = p.1.steps ∧ (p.2.isSome = true → p.1.pendingCompensations = [])

section
variable {actor : Actor} {snapshot : TransactionSnapshot Context Data} {event : String} {stepStartedAt : Int}
  {metadata : Metadata Data} {w : Working Context Data} {steps : List (SagaStep Context Data)} {β : Type}

theorem updateSaga {version patch append} {f : Nat → Act Context Data β} {post : List (SagaStep Context Data) → β → Prop}
    (allowed : append.map (·.step) = if patch.Commits = true then steps else [])
    (rest : ∀ v, (saga actor t).Obeys (Ends post) (if patch.Commits = true then [] else steps) (f v)) :
    (saga actor t).Obeys (Ends post) steps (updateTransaction t version patch append >>= f) := by
  refine And.intro (fun _ => allowed) (fun r _ => ?_)
  cases r with
  | error _ => trivial
  | ok v =>
    have after : (saga actor t).after steps (.updateTransaction t version patch append) (.ok v) =
        if patch.Commits = true then [] else steps := by simp only [saga,carried,true_and]
    rw [after]
    exact rest v

theorem recordSaga {m : MatchedTransition} {input : Data} {binding} {call : PipelineExecutionContext Context Data} {moved : Working Context Data}
    (bound : actor.binding m.sourceNode.path m.edge.event = .ok binding) (state : call.currentState = w.workingState)
    (given_ : call.input = some input) (context : call.contextData = w.workingContext) (kept : moved.pendingCompensations = w.pendingCompensations) :
    (saga actor t).Obeys (Ends fun steps (w' : Working Context Data) => steps = w'.steps)
      (w.steps ++ compensable actor (bindingKey m.sourceNode.path m.edge.event) call)
      (Actor.recordCompensation event m binding input w moved) := by
  unfold Actor.recordCompensation
  rw [compensableOf bound]
  cases given binding.resolvedCompensateName with
  | none =>
    refine obeysPure ?_
    simp [Working.steps,kept]
  | some compensateKey =>
    refine obeysAsk trivial (fun createdAt _ => obeysPure ?_)
    simp only [saga,carried,Working.steps,List.map_append,List.map_singleton,PendingCompensation.step,state,given_,context]

theorem succeedStepSaga {m : MatchedTransition} {input : Data} {binding output} {call : PipelineExecutionContext Context Data}
    (bound : actor.binding m.sourceNode.path m.edge.event = .ok binding) (state : call.currentState = w.workingState)
    (given_ : call.input = some input) (context : call.contextData = w.workingContext) :
    (saga actor t).Obeys (Ends fun steps (w' : Working Context Data) => steps = w'.steps)
      (w.steps ++ compensable actor (bindingKey m.sourceNode.path m.edge.event) call)
      (actor.succeedStep event m binding input output w) := by
  unfold Actor.succeedStep
  split
  · refine consultsThen asksExcept (fun applied => ?_)
    exact recordSaga bound state given_ context rfl
  · exact recordSaga bound state given_ context rfl

theorem failStepSaga {m error compensateRequested fallbackTarget} :
    (saga actor snapshot.transactionId).Obeys (Ends fun steps p => Carries steps (p.1,some p.2)) w.steps
      (actor.failStep snapshot m error compensateRequested fallbackTarget w) := by
  have flush : (saga actor snapshot.transactionId).Obeys (Ends fun steps _ => steps = []) w.steps
      (Actor.flushCompensations snapshot w) := by
    unfold Actor.flushCompensations Working.steps
    split
    · rename_i none
      rw [none]
      exact rfl
    · rename_i pending
      refine obeysAsk trivial (fun updatedAt _ => ?_)
      rw [← bind_pure (updateTransaction _ _ _ _)]
      exact updateSaga rfl (fun v => rfl)
  have rollBack {version} : (saga actor snapshot.transactionId).Obeys (Ends fun steps _ => steps = []) []
      (actor.rollBack snapshot version error compensateRequested w.workingContext) := by
    unfold Actor.rollBack
    split
    · refine obeysAsk trivial (fun updatedAt _ => updateSaga rfl (fun v => ?_))
      refine obeysSeq (fun steps _ => steps = []) (obeysMono (steplessSaga unwindAsks unwindsStepless) ?_) (fun _ _ none => none)
      intro steps r none
      cases r with
      | ok _ => exact none
      | error _ => trivial
    · exact rfl
  unfold Actor.failStep
  refine obeysSeq _ flush (fun steps version none => ?_)
  subst none
  refine obeysSeq _ rollBack (fun steps unwound none => ?_)
  subst none
  exact consultsThen asksExcept (fun applied => ⟨rfl,fun _ => rfl⟩)

theorem runMatchSaga {m input} : (saga actor snapshot.transactionId).Obeys (Ends fun steps p => Carries steps p) w.steps
    (actor.runMatch snapshot event stepStartedAt metadata m input w) := by
  unfold Actor.runMatch
  refine obeysExcept (fun binding bound => obeysAsk trivial (fun t0 _ => obeysAsk trivial (fun r _ => ?_)))
  obtain ⟨result,attempts⟩ := r
  have outcome : (saga actor snapshot.transactionId).Obeys
      (Ends fun steps (p : Working Context Data × Option FailedStep × LogOutcome) => Carries steps (p.1,p.2.1))
      (carried actor snapshot.transactionId w.steps ⟨.handler (bindingKey m.sourceNode.path m.edge.event) {
        transactionId := snapshot.transactionId, machineId := actor.machine.id, actorId := actor.actorId, event
        transitionHandlerName := binding.resolvedTransitionName, currentState := w.workingState
        input := some input, contextData := w.workingContext, startedAt := stepStartedAt, metadata },(result,attempts)⟩)
      (actor.stepOutcome snapshot event m binding input result w) := by
    unfold Actor.stepOutcome
    cases result with
    | ok output =>
      simp only [carried,if_true,fallbackCompensate]
      exact obeysSeq _ (succeedStepSaga bound rfl rfl rfl) (fun steps w' same => ⟨same,fun failed => by contradiction⟩)
    | error error =>
      simp only [carried,fallbackCompensate]
      exact obeysSeq _ failStepSaga (fun steps p carries => carries)
  refine obeysSeq _ outcome (fun steps p carries => ?_)
  obtain ⟨next,failed,outcome⟩ := p
  exact consultsThen telemetryAsks (fun _ => carries)

theorem runMatchesSaga (matches_ : List (MatchedTransition × Data)) (carries : steps = w.steps) :
    (saga actor snapshot.transactionId).Obeys (Ends fun steps p => Carries steps p) steps
      (actor.runMatches snapshot event stepStartedAt metadata matches_ w) := by
  induction matches_ generalizing w steps with
  | nil => exact ⟨carries,fun failed => by contradiction⟩
  | cons x rest ih =>
    subst carries
    obtain ⟨m,input⟩ := x
    refine obeysSeq _ runMatchSaga (fun steps p carries => ?_)
    obtain ⟨next,failed⟩ := p
    cases failed with
    | some step => exact carries
    | none =>
      exact ih carries.1

theorem doneHandlerSaga (plain : actor.PlainDone) {done} : (saga actor snapshot.transactionId).Obeys
    (Ends fun steps (w' : Working Context Data) => steps = w'.steps) w.steps (actor.runDoneHandler snapshot metadata done w) := by
  unfold Actor.runDoneHandler
  split
  · exact rfl
  · refine obeysAsk trivial (fun startedAt _ => obeysAsk trivial (fun r _ => ?_))
    obtain ⟨result,attempts⟩ := r
    cases result with
    | error _ => exact rfl
    | ok output =>
      refine obeysPure ?_
      simp only [saga,carried,plainCompensable plain,List.append_nil,ite_self]
      rfl

theorem cascadeSaga (plain : actor.PlainDone) (rounds : Nat) (carries : steps = w.steps) :
    (saga actor snapshot.transactionId).Obeys (Ends fun steps (w' : Working Context Data) => steps = w'.steps) steps
      (actor.cascade snapshot metadata rounds w) := by
  induction rounds generalizing w steps with
  | zero => exact carries
  | succ rounds ih =>
    subst carries
    rw [Actor.cascade]
    split
    · exact rfl
    · refine obeysSeq _ (doneHandlerSaga plain) (fun steps ran same => ?_)
      subst same
      split
      · exact rfl
      · exact consultsThen asksExcept (fun applied => ih rfl)

theorem settleStepSaga (plain : actor.PlainDone) {input failed} (carries : Carries steps (w,failed)) :
    (saga actor snapshot.transactionId).Obeys (Ends fun _ _ => True) steps
      (actor.settleStep snapshot event metadata input stepStartedAt w failed) := by
  have settled {w : Working Context Data} {status lastError completedAt append input value compensatedSteps durationMs error}
      (all : append.map (·.step) = w.steps) : (saga actor snapshot.transactionId).Obeys (Ends fun _ _ => True) w.steps (do
        Actor.settle snapshot w status lastError completedAt append
        actor.conclude snapshot event input w status value compensatedSteps durationMs error) := by
    unfold Actor.settle
    rw [bind_assoc]
    refine updateSaga all (fun v => obeysAsk trivial (fun _ _ => ?_))
    refine obeysMono (steplessSaga concludeAsks concludesStepless) (fun steps r _ => ?_)
    cases r <;> trivial
  obtain ⟨same,none⟩ := carries
  subst same
  cases failed with
  | some step =>
    refine obeysAsk trivial (fun completedAt _ => settled ?_)
    rw [Working.steps,none rfl]
  | none =>
    refine obeysSeq _ (cascadeSaga plain 20 rfl) (fun steps w' same => ?_)
    subst same
    exact obeysAsk trivial (fun completedAt _ => settled rfl)

theorem executeSaga (plain : actor.PlainDone) {rawInput} : (saga actor snapshot.transactionId).Obeys (Ends fun _ _ => True) []
    (actor.executeTransitionOnSnapshot snapshot event rawInput metadata) := by
  unfold Actor.executeTransitionOnSnapshot
  dsimp only
  split
  · trivial
  · refine consultsThen validateInputsAsks (fun inputs => consultsThen (asksOne trivial (fun _ => asksExcept)) (fun _ => ?_))
    refine obeysAsk trivial (fun startedAt _ => ?_)
    have stepped (version : Nat) : (saga actor snapshot.transactionId).Obeys (Ends fun _ _ => True) [] (do
        let ran ← actor.runMatches snapshot event startedAt metadata
          ((resolveTransitionsForEvent actor.machine.toRawMachine snapshot.stateValue event).zip inputs)
          { currentVersion := version, workingState := snapshot.stateValue, workingContext := snapshot.context }
        actor.settleStep snapshot event metadata (inputs.headD rawInput) startedAt ran.1 ran.2) :=
      obeysSeq _ (runMatchesSaga _ rfl) (fun steps p carries => settleStepSaga plain carries)
    unfold Actor.takeLease
    split
    · exact stepped _
    · exact updateSaga rfl stepped

theorem transitionSaga (plain : actor.PlainDone) {input fields} :
    (saga actor t).Obeys (Ends fun _ _ => True) [] (actor.transition t event input fields : Act Context Data _) := by
  refine obeysAsk trivial (fun found known => ?_)
  cases found with
  | none => trivial
  | some snapshot =>
    obtain rfl : snapshot.transactionId = t := known
    dsimp only
    split
    · exact executeSaga plain
    · trivial

theorem startSaga {context : Context} {customTransactionId} :
    (saga actor t).Obeys (Ends fun _ _ => True) [] (actor.startTransaction context customTransactionId : Act Context Data String) := by
  have chosen : (Actor.chosenId customTransactionId : Act Context Data String).Asks Op.Observes := by
    cases customTransactionId with
    | some id => trivial
    | none => exact ⟨trivial,fun _ => trivial⟩
  refine obeysMono (@steplessSaga _ _ t actor [] _ Op.Stepless _ ?_ (fun _ => id)) (fun steps r _ => by cases r <;> trivial)
  have observed {α : Type} {p : Act Context Data α} (asks : p.Asks Op.Observes) : p.Asks Op.Stepless :=
    asksMono asks (fun op observes => concludesStepless op (observesConcludes op observes))
  refine asksOne trivial (fun _ => asksThrow (fun _ => asksBind (observed chosen) (fun _ => asksOne trivial (fun _ => ?_))))
  refine asksOne trivial (fun _ => asksThrow (fun _ => emitAsks trivial (fun _ => ?_)))
  exact asksBind (asksMono terminalHooksAsks (fun op reports => concludesStepless op (reportsConcludes op reports))) (fun _ => asksBind (observed effectsAsks) (fun _ => trivial))

end

/-- The call is by an actor; a clean-up, which makes no step, may be by any. -/
def CallBy (actors : Actor → Prop) (actor : Actor) (p : Act Context Data Unit) : Prop :=
  Operation (· = actor) p ∨ CleanUpCall actors p

theorem operationsSaga {actors : Actor → Prop} {actor : Actor} (plain : actor.PlainDone) (p : Act Context Data Unit)
    (called : CallBy actors actor p) : (saga actor t).Obeys (fun _ _ => True) [] p := by
  have replays (other : Actor) (same : other = actor) : Replays (saga actor t : Protocol (Reply Context Data) _) t
      (fun _ => True) (· = []) other := by
    intro steps snapshot event input metadata here idle none
    subst same here none
    refine obeysMono (executeSaga plain) (fun steps r _ => ?_)
    cases r <;> trivial
  rcases called with (⟨other,context,id,same,shape⟩ | transition | sweep | clean) | clean
  · subst same shape
    exact watchVoid startSaga (fun _ _ _ => trivial)
  · refine watchTransitionCall sagaWatch trivial (fun other event input fields same => ?_) p transition
    subst same
    refine obeysMono (transitionSaga plain) (fun steps r _ => ?_)
    cases r <;> trivial
  · exact watchSweepCall sagaWatch trivial replays p sweep
  · exact watchCleanUpCall sagaWatch trivial p clean
  · exact watchCleanUpCall sagaWatch trivial p clean

/-! The run: the steps of every call, and the entries of the store. -/

/-- What each call has still to commit, and the steps committed, each with whether it has
been compensated since. -/
structure Saga (Context Data : Type) where
  pending : Nat → List (SagaStep Context Data) := fun _ => []
  steps : List (SagaStep Context Data × Bool) := []

/-- The steps committed, after an event of a call that carries the pending ones. -/
def recorded (t : String) (pending : List (SagaStep Context Data)) (steps : List (SagaStep Context Data × Bool)) :
    Event (Reply Context Data) → List (SagaStep Context Data × Bool)
  | ⟨.updateTransaction id _ patch _,.ok _⟩ => if id = t ∧ patch.Commits = true then steps ++ pending.map (·,false) else steps
  | ⟨.markCompensationExecuted id stepSeq _,_⟩ =>
    if id = t then steps.mapIdx (fun k x => (x.1,x.2 || decide (k+1 = stepSeq))) else steps
  | ⟨.deleteTransactions ids,_⟩ => if t ∈ ids then [] else steps
  | _ => steps

def Saga.after (policy : Nat → Actor) (t : String) (s : Saga Context Data) (x : Nat × Event (Reply Context Data)) : Saga Context Data where
  pending := Function.update s.pending x.1 (carried (policy x.1) t (s.pending x.1) x.2)
  steps := recorded t (s.pending x.1) s.steps x.2

/-- The saga of a run whose calls are by these actors. -/
def sagaOf (policy : Nat → Actor) (t : String) (log : Log Context Data) : Saga Context Data := log.foldl (Saga.after policy t) {}

/-- The steps committed that have not been compensated. -/
def Saga.outstanding (s : Saga Context Data) : List (SagaStep Context Data) := (s.steps.filter (!·.2)).map (·.1)

/-- The entries are the steps committed, numbered in turn. -/
structure Records (entries : List (CompensationEntryRecord Context Data)) (steps : List (SagaStep Context Data × Bool)) : Prop where
  same : entries.map (fun e => (e.step,e.compensatedAt.isSome)) = steps
  seqs : entries.map (·.stepSeq) = List.range' 1 entries.length

section
variable {entries : List (CompensationEntryRecord Context Data)} {steps : List (SagaStep Context Data × Bool)}

theorem maxRange (first n : Nat) : (List.range' (first+1) n).foldr max 0 = if n = 0 then 0 else first+n := by
  induction n generalizing first with
  | zero => rfl
  | succ n ih =>
    rw [List.range'_succ,List.foldr_cons,ih (first+1)]
    split <;> simp <;> omega

theorem recordsMax (records : Records entries steps) : Store.maxSeq entries = entries.length := by
  rw [Store.maxSeq,records.seqs,maxRange]
  split <;> omega

theorem numberedSame (append : List (PendingCompensation Context Data)) (next : Nat) :
    (Store.numbered t next append).map (fun e => (e.step,e.compensatedAt.isSome)) = append.map (fun p => (p.step,false)) ∧
      (Store.numbered t next append).map (·.stepSeq) = List.range' next append.length := by
  induction append generalizing next with
  | nil => exact ⟨rfl,rfl⟩
  | cons item rest ih =>
    obtain ⟨same,seqs⟩ := ih (next+1)
    exact ⟨congrArg (List.cons _) same,congrArg (List.cons next) seqs⟩

theorem recordsAppend (records : Records entries steps) (append : List (PendingCompensation Context Data)) :
    Records (entries ++ Store.numbered t (Store.maxSeq entries + 1) append) (steps ++ (append.map (·.step)).map (·,false)) := by
  obtain ⟨same,seqs⟩ := @numberedSame _ _ t append (Store.maxSeq entries + 1)
  have length := congrArg List.length seqs
  rw [List.length_map,List.length_range'] at length
  refine ⟨?_,?_⟩
  · rw [List.map_append,records.same,same,List.map_map]
    rfl
  · rw [List.map_append,records.seqs,seqs,List.length_append,length,recordsMax records,Nat.add_comm entries.length 1,List.range'_append_1]

theorem recordsMark (records : Records entries steps) (stepSeq : Nat) (compensatedAt : Int) :
    Records (entries.map (·.marked stepSeq compensatedAt)) (steps.mapIdx (fun k x => (x.1,x.2 || decide (k+1 = stepSeq)))) := by
  obtain ⟨same,seqs⟩ := records
  subst same
  have seq (k : Nat) (inside : k < entries.length) : entries[k].stepSeq = k+1 := by
    have here := congrArg (fun l => l[k]?) seqs
    simp only [List.getElem?_map,List.getElem?_eq_getElem inside,Option.map_some,List.getElem?_range' inside] at here
    have := Option.some.inj here
    omega
  refine ⟨List.ext_getElem (by simp) (fun k inside _ => ?_),?_⟩
  · have inside : k < entries.length := by simpa using inside
    simp only [List.getElem_map,List.getElem_mapIdx,CompensationEntryRecord.marked,seq k inside]
    split <;> rename_i here <;> simp [here]
  · rw [List.length_map,← seqs,List.map_map]
    refine List.map_congr_left (fun e _ => ?_)
    simp only [Function.comp,CompensationEntryRecord.marked]
    split <;> rfl

theorem lifoReverse (inOrder : entries.Pairwise (fun a b => a.stepSeq < b.stepSeq)) : Store.lifo entries = entries.reverse := by
  have last (e : CompensationEntryRecord Context Data) (above : List (CompensationEntryRecord Context Data))
      (all : ∀ x ∈ above, e.stepSeq < x.stepSeq) : above.orderedInsert (fun a b => b.stepSeq ≤ a.stepSeq) e = above ++ [e] := by
    induction above with
    | nil => rfl
    | cons x rest ih =>
      have := all x List.mem_cons_self
      rw [List.orderedInsert,if_neg (by omega),ih (fun y mem => all y (List.mem_cons_of_mem _ mem))]
      rfl
  induction entries with
  | nil => rfl
  | cons e rest ih =>
    obtain ⟨first,rest_⟩ := List.pairwise_cons.mp inOrder
    have reversed : rest.insertionSort (fun a b => b.stepSeq ≤ a.stepSeq) = rest.reverse := ih rest_
    rw [Store.lifo,List.insertionSort_cons,reversed,last e _ (fun x mem => first x (List.mem_reverse.mp mem)),List.reverse_cons]

theorem recordsStack (records : Records entries steps) :
    (Store.lifo (entries.filter (·.compensatedAt.isNone))).map (·.step) = ((steps.filter (!·.2)).map (·.1)).reverse ∧
      (Store.lifo (entries.filter (·.compensatedAt.isNone))).Pairwise (fun a b => b.stepSeq < a.stepSeq) := by
  have inOrder : entries.Pairwise (fun a b => a.stepSeq < b.stepSeq) := by
    have seqs := @List.pairwise_lt_range' 1 entries.length 1 (by omega)
    rw [← records.seqs,List.pairwise_map] at seqs
    exact seqs
  have filtered := inOrder.sublist (List.filter_sublist (p := fun e => e.compensatedAt.isNone))
  rw [lifoReverse filtered]
  refine ⟨?_,List.pairwise_reverse.mpr filtered⟩
  rw [List.map_reverse,← records.same,List.filter_map,List.map_map]
  refine congrArg List.reverse (congrArg (List.map _) (List.filter_congr (fun e _ => ?_)))
  simp

end

theorem recordsStep {w : World Context Data} {actor : Actor} {pending : List (SagaStep Context Data)} {steps} {op : Op Context Data} {r}
    (records : Records w.entries steps) (allowed : (saga actor t).allowed pending op) :
    Records (w.after t op r).entries (recorded t pending steps ⟨op,r⟩) := by
  cases op with
  | createTransaction record =>
    cases r with
    | error _ => exact records
    | ok _ =>
      simp only [World.after,recorded]
      split <;> exact records
  | updateTransaction id version patch append =>
    cases r with
    | error _ => exact records
    | ok next =>
      by_cases here : id = t
      · simp only [World.after,recorded,here,if_true,true_and]
        have appended := @recordsAppend _ _ t _ _ records append
        rw [allowed here] at appended
        by_cases commits : patch.Commits = true
        · simpa only [commits,if_true] using appended
        · simpa [commits] using appended
      · simpa only [World.after,recorded,here,if_false,false_and] using records
  | markCompensationExecuted id stepSeq compensatedAt =>
    simp only [World.after,recorded]
    split
    · exact recordsMark records _ _
    · exact records
  | deleteTransactions ids =>
    simp only [World.after,recorded]
    split
    · exact ⟨rfl,rfl⟩
    · exact records
  | _ => exact records

section
variable {actors : Actor → Prop} {store : Store Context Data} {pool : Calls Context Data} {policy : Nat → Actor}

theorem sagaSnoc {log : Log Context Data} {x : Nat × Event (Reply Context Data)} :
    sagaOf policy t (log ++ [x]) = (sagaOf policy t log).after policy t x := by
  simp [sagaOf]

theorem pendingOwn {s : Saga Context Data} {i : Nat} {e} : (s.after policy t (i,e)).pending i = carried (policy i) t (s.pending i) e :=
  Function.update_self i _ s.pending

theorem pendingOther {s : Saga Context Data} {i j : Nat} {e} (other : j ≠ i) : (s.after policy t (i,e)).pending j = s.pending j :=
  Function.update_of_ne other _ s.pending

theorem runSaga (run : Pool.Reaches Performs (Operation actors) Pool.Anything { shared := store } pool) (empty : store.entries t = [])
    (plain : ∀ i, (policy i).PlainDone) (called : ∀ i w, pool.workers[i]? = some w → CallBy actors (policy i) w.call) :
    (∀ i w, pool.workers[i]? = some w → (saga (policy i) t).phaseAfter [] w.history = (sagaOf policy t pool.log).pending i) ∧
      (∀ i, pool.workers.length ≤ i → (sagaOf policy t pool.log).pending i = []) ∧
      Records (pool.shared.entries t) (sagaOf policy t pool.log).steps := by
  revert called
  refine @Pool.reachesInvariant _ _ _ _ _ _ _ _ _ (fun pool : Calls Context Data =>
    (∀ i w, pool.workers[i]? = some w → CallBy actors (policy i) w.call) →
    (∀ i w, pool.workers[i]? = some w → (saga (policy i) t).phaseAfter [] w.history = (sagaOf policy t pool.log).pending i) ∧
      (∀ i, pool.workers.length ≤ i → (sagaOf policy t pool.log).pending i = []) ∧
      Records (pool.shared.entries t) (sagaOf policy t pool.log).steps) run ?_ ?_
  · intro _
    refine ⟨fun i w here => by simp at here,fun i _ => rfl,?_⟩
    rw [empty]
    exact ⟨rfl,rfl⟩
  · intro pool move next before _ kept step called
    cases step with
    | @call p called_ =>
      have earlier (i : Nat) (w) (here : pool.workers[i]? = some w) : (pool.workers ++ [⟨p,p,[]⟩])[i]? = some w := by
        rw [List.getElem?_append_left (List.getElem?_eq_some_iff.mp here).1]
        exact here
      obtain ⟨carries,unused,records⟩ := kept (fun i w here => called i w (earlier i w here))
      refine ⟨fun i w here => ?_,fun i outside => unused i (by simp at outside; omega),records⟩
      rcases Nat.lt_or_ge i pool.workers.length with old | new
      · rw [List.getElem?_append_left old] at here
        exact carries i w here
      · rw [List.getElem?_append_right new] at here
        have last : w = ⟨p,p,[]⟩ := by simpa using List.mem_of_getElem? here
        subst last
        exact (unused i new).symm
    | @act i call op rest history r shared here performed =>
      have inside := (List.getElem?_eq_some_iff.mp here).1
      have earlier (j : Nat) (w) (there : pool.workers[j]? = some w) : CallBy actors (policy j) w.call := by
        by_cases own : i = j
        · subst own
          cases Option.some.inj (here.symm.trans there)
          exact called i ⟨call,rest r,_⟩ (List.getElem?_set_self inside)
        · exact called j w (by rw [List.getElem?_set_ne own]; exact there)
      obtain ⟨carries,unused,records⟩ := kept earlier
      have conforms := @Pool.reachesConforms _ _ _ _ _ Performs (Operation actors) Pool.Anything _ pool (saga (policy i) t) []
        (CallBy actors (policy i)) (fun _ _ => True) (fun p _ by_ => operationsSaga (plain i) p by_)
        (fun _ performed => @performsReplies _ _ _ _ _ _ (fun _ => True) performed) rfl before
      have obeys := conforms _ (List.mem_of_getElem? here) (earlier i _ here)
      have phase := carries i _ here
      rw [sagaSnoc]
      rw [phase] at obeys
      refine ⟨fun j w there => ?_,fun j outside => ?_,?_⟩
      · by_cases own : i = j
        · subst own
          rw [List.getElem?_set_self inside] at there
          cases Option.some.inj there
          rw [Protocol.phaseSnoc,phase,pendingOwn]
          rfl
        · rw [List.getElem?_set_ne own] at there
          rw [carries j w there,pendingOther (Ne.symm own)]
      · rw [List.length_set] at outside
        rw [pendingOther (by omega),unused j outside]
      · have world := (performsWorld performed t).2
        have entries : shared.entries t = ((pool.shared.world t).after t op r).entries := by
          rw [← world]
          rfl
        rw [entries]
        exact recordsStep records obeys.1

end

/-! A parcel is sealed; that completes its packing, and it is labelled at once. -/

def parcel : RawMachine :=
  { id := "parcel"
    initial := some "packing"
    states := [
      ("packing",{ key := "packing", path := "packing", type := .compound, initial := some "open"
                   onDone := some { event := "$onDone", target := some "labelled", transition := some "label" }
                   states := [
                     ("open",{ key := "open", path := "packing.open", type := .atomic
                               on := [("seal",{ event := "seal", target := some "packing.sealed" })] }),
                     ("sealed",{ key := "sealed", path := "packing.sealed", type := .final })] }),
      ("labelled",{ key := "labelled", path := "labelled", type := .atomic })] }

/-- The policy of the automatic transition may name a compensation of its own. -/
def parcelActor (unlabel : Option String) : Actor where
  machine := injectErrorState parcel
  actorId := "clerk"
  compiledBindings key :=
    if key = bindingKey "packing.open" "seal" then
      some { edge := { event := "seal", target := some "packing.sealed" }, resolvedCompensateName := some "unseal" }
    else if key = bindingKey "packing" "$onDone" then
      some { edge := { event := "$onDone", target := some "labelled" }, resolvedTransitionName := some "label", resolvedCompensateName := unlabel }
    else none
  resolveCompensate key := some key

def parcelStore : Store Unit Unit where
  transactions := [{ doorRecord.toTransactionRecord with machineId := "parcel", stateValue := .obj [("packing",.str "open")] }]
  compensations := []
  unique := by simp

def sealCall (unlabel : Option String) : Act Unit Unit Unit := ((parcelActor unlabel).transition "t" "seal" () []).void

def parcelPool (unlabel : Option String) : Calls Unit Unit :=
  Pool.play (serve politeUser) (.call (sealCall unlabel)::turns 0 15) { shared := parcelStore }

theorem parcelRun (unlabel : Option String) : Pool.Reaches Performs (Operation (· = parcelActor unlabel)) Pool.Anything
    { shared := parcelStore } (parcelPool unlabel) := by
  have seals : Operation (· = parcelActor unlabel) (sealCall unlabel) :=
    .inr (.inl ⟨parcelActor unlabel,"t","seal",(),[],rfl,rfl⟩)
  apply Pool.reachesPlay (servePerforms politeUser) _ (Pool.playAnything _ _) .start
  simp [turns,seals]

theorem parcelCalls (unlabel : Option String) : ∀ (i : Nat) w, (parcelPool unlabel).workers[i]? = some w →
    CallBy (· = parcelActor unlabel) (parcelActor unlabel) w.call :=
  fun _ w here => .inl (Pool.reachesCalls rfl (parcelRun unlabel) w (List.mem_of_getElem? here))

theorem parcelPlain : (parcelActor none).PlainDone := by
  intro path binding found
  have sealing : bindingKey path "$onDone" ≠ bindingKey "packing.open" "seal" := by
    intro same
    have last := congrArg (fun key : String => key.toList.getLast?) same
    simp [bindingKey] at last
  simp only [parcelActor,sealing,if_false] at found
  split at found <;> cases found
  rfl

example : ((parcelPool none).shared.getUncompensatedStack "t").map (·.compensateKey) = ["unseal"] := by decide +kernel

end Dfsm
