import Mathlib.Data.List.Chain
import Dfsm.Runtime.Reentry
import Dfsm.Runtime.Hooks

/-! The afterTransition hooks of a transaction while effects start further transitions of
any transaction: the state each tells as previous is the one told before it. -/
namespace Dfsm
open Protocol Program Act

variable {Context Data : Type} {t : String}

/-- What an effect may ask of its actor, short of cleaning up. -/
inductive Reaction (Context Data : Type) where
  | runEffect (subEffectName : String) (subPayload : Option Data)
  | transition (transactionId event : String) (input : Data) (metadata : List (String × Data))
  | startTransaction (initialContext : Context) (customTransactionId : Option String)

@[reducible] def Reaction.Ended (Context Data : Type) : Reaction Context Data → Type
  | .runEffect _ _ => Except DfsmError Unit
  | .transition _ _ _ _ => Except DfsmError (TransitionExecutionResult Context Data)
  | .startTransaction _ _ => Except DfsmError String

abbrev Script (Context Data : Type) : Type := Program (Reaction.Ended Context Data) DfsmError Unit

def Actor.react (actor : Actor) (request : EffectRequest Context Data) : Script Context Data → Act Context Data Unit
  | .done a => pure a
  | .fail e => .fail e
  | .ask (.runEffect subEffectName subPayload) next => do
    let ended ← (actor.invokeSingleEffect request.transactionId request.state request.context request.baselineRevision
      { handler := subEffectName, payload := subPayload }).attempt
    react actor request (next ended)
  | .ask (.transition transactionId event input metadata) next => do
    let ended ← (actor.transition transactionId event input metadata).attempt
    react actor request (next ended)
  | .ask (.startTransaction initialContext customTransactionId) next => do
    let ended ← (actor.startTransaction initialContext customTransactionId).attempt
    react actor request (next ended)

def Actor.reacting (actor : Actor) (effects : String → EffectRequest Context Data → Script Context Data) :
    (op : Op Context Data) → Option (Act Context Data (Reply Context Data op))
  | .effect resolvedName request => some (actor.react request (effects resolvedName request)).attempt
  | _ => none

abbrev Follows (actor : Actor) (effects : String → EffectRequest Context Data → Script Context Data) {α : Type} :
    Act Context Data α → Process Context Data → List (Event (Reply Context Data)) → Except DfsmError α → Process Context Data → Prop :=
  Exec Process.Serves (actor.reacting effects)

/-- The move that a hook tells, from the previous state to the current one. A new transaction has
stayed where it is. -/
def moveTold (t : String) : Event (Reply Context Data) → Option (StateValue × StateValue)
  | ⟨.createTransaction record,.ok _⟩ => if record.transactionId = t then some (record.stateValue,record.stateValue) else none
  | ⟨.hook (.afterTransition id _ _ _ _ previousState currentState _ _ _ _ _ _),_⟩ =>
    if id = t then some (previousState,currentState) else none
  | _ => none

/-- Where a call stands: the record read, or moved on and not yet told of. -/
inductive Place where
  | rest
  | read (v : StateValue)
  | moved (u v : StateValue)

namespace Place

def Still : Place → Prop
  | .moved _ _ => False
  | _ => True

def written (p : Place) (stateValue : Option StateValue) : Place :=
  match p, stateValue with
  | .read u, some v => .moved u v
  | p, _ => p

def reads (p : Place) (stateValue : Option StateValue) : Place :=
  match p, stateValue with
  | .moved u v, _ => .moved u v
  | _, some v => .read v
  | p, none => p

theorem readsStill {p : Place} (still : p.Still) (stateValue : Option StateValue) : (p.reads stateValue).Still := by
  cases p <;> cases stateValue <;> first | trivial | contradiction

def after (t : String) (p : Place) : (op : Op Context Data) → Reply Context Data op → Place
  | .getTransaction id, some snapshot => p.reads (if id = t then some snapshot.stateValue else none)
  | .createTransaction record, .ok _ => if record.transactionId = t then .rest else p
  | .updateTransaction id _ patch _, .ok _ => if id = t then p.written patch.stateValue else p
  | .hook (.afterTransition id _ _ _ _ _ _ _ _ _ _ _ _), _ => if id = t then .rest else p
  | .effect _ _, _ => .rest
  | _, _ => p

end Place

/-- A state is written only after a state was read, and told before anything else is done. -/
def places (t : String) : Protocol (Reply Context Data) Place where
  allowed p op := match op with
    | .createTransaction record => record.transactionId = t → p.Still
    | .updateTransaction id _ patch _ => id = t → patch.stateValue = none ∨ ∃ v, p = .read v
    | .deleteTransactions _ => False
    | .effect _ _ => p.Still
    | .hook (.afterTransition id _ _ _ _ previousState currentState _ _ _ _ _ _) => id = t → p = .moved previousState currentState
    | _ => True
  replies op r := match op, r with
    | .getTransaction id, some snapshot => snapshot.transactionId = id
    | _, _ => True
  after p op r := p.after t op r

/-- A call, between two of its steps, as it ends or fails. -/
abbrev Rests {α : Type} (p : Place) (_ : Except DfsmError α) : Prop := p.Still

/-- Moves no record and tells of no move. -/
def Op.Aside : Op Context Data → Prop
  | .updateTransaction _ _ _ _ | .deleteTransactions _ | .hook (.afterTransition _ _ _ _ _ _ _ _ _ _ _ _ _) => False
  | _ => True

/-- Part of a forward step before its settling commit. -/
def Op.Forward : Op Context Data → Prop
  | .updateTransaction _ _ patch _ => patch.stateValue = none
  | .createTransaction _ | .getTransaction _ | .effect _ _ => False
  | op => op.Aside

section
variable {actor : Actor} {α β : Type} {p : Place}

theorem asideStill {q : Act Context Data α} (asks : q.Asks Op.Aside) (still : p.Still) : (places t).Obeys Rests p q := by
  refine @obeysAsks _ _ _ _ _ (places t) p _ Place.Still q asks ?_ still
  intro p op still aside
  cases op with
  | hook event => cases event <;> first | contradiction | exact ⟨trivial,fun r _ => still⟩
  | getTransaction id =>
    refine ⟨trivial,fun found _ => ?_⟩
    cases found with
    | none => exact still
    | some snapshot => exact Place.readsStill still _
  | createTransaction record =>
    refine ⟨fun _ => still,fun r _ => ?_⟩
    cases r with
    | error _ => exact still
    | ok _ => simp only [places,Place.after]; split <;> first | trivial | exact still
  | effect name request => exact ⟨still,fun _ _ => trivial⟩
  | _ => first | contradiction | exact ⟨trivial,fun _ _ => still⟩

theorem forwardRead {v : StateValue} {q : Act Context Data α} (asks : q.Asks Op.Forward) :
    (places t).Obeys (fun p _ => p = .read v) (.read v) q := by
  refine @obeysAsks _ _ _ _ _ (places t) _ _ (· = .read v) q asks ?_ rfl
  intro p op here forward
  subst here
  cases op with
  | hook event => cases event <;> first | contradiction | exact ⟨trivial,fun r _ => rfl⟩
  | getTransaction id => contradiction
  | updateTransaction id version patch append =>
    have kept : patch.stateValue = none := forward
    refine ⟨fun _ => .inl kept,fun r _ => ?_⟩
    cases r with
    | error _ => rfl
    | ok _ => simp only [places,Place.after,kept]; split <;> rfl
  | _ => first | contradiction | exact ⟨trivial,fun _ _ => rfl⟩

theorem forwardThen {v : StateValue} {q : Act Context Data α} {f : α → Act Context Data β} (asks : q.Asks Op.Forward)
    (rest : ∀ a, (places t).Obeys Rests (.read v) (f a)) : (places t).Obeys Rests (.read v) (q >>= f) := by
  refine obeysBind (obeysMono (forwardRead asks) (fun p r here => ?_))
  subst here
  cases r with
  | ok a => exact rest a
  | error e => trivial

theorem asideThen {q : Act Context Data α} {f : α → Act Context Data β} (asks : q.Asks Op.Aside) (still : p.Still)
    (rest : ∀ a p, p.Still → (places t).Obeys Rests p (f a)) : (places t).Obeys Rests p (q >>= f) := by
  refine obeysBind (obeysMono (asideStill asks still) (fun p r still => ?_))
  cases r with
  | ok a => exact rest a p still
  | error e => exact still

theorem plainForward (op : Op Context Data) (plain : op.Plain) : op.Forward := by
  cases op <;> first | contradiction | trivial

theorem affectsAside (op : Op Context Data) (affects : op.Affects) : op.Aside := by
  cases op <;> first | contradiction | trivial

variable {snapshot : TransactionSnapshot Context Data} {event : String} {stepStartedAt : Int} {metadata : Metadata Data}
  {w : Working Context Data}

theorem updateForward {version patch append} (kept : patch.stateValue = none) :
    (updateTransaction t version patch append : Act Context Data Nat).Asks Op.Forward :=
  asksOne kept (fun _ => asksExcept)

theorem failStepForward {m error compensateRequested fallbackTarget} :
    (actor.failStep snapshot m error compensateRequested fallbackTarget w).Asks Op.Forward := by
  have flush : (Actor.flushCompensations snapshot w).Asks Op.Forward := by
    unfold Actor.flushCompensations
    split
    · trivial
    · exact asksOne trivial (fun _ => updateForward rfl)
  have entry {context : Context} {e} : (actor.compensateEntry snapshot.transactionId error context e : Act Context Data Context).Asks Op.Forward := by
    unfold Actor.compensateEntry
    split
    · trivial
    · exact asksOne trivial (fun _ => asksThrow (fun _ => trivial))
  have unwind {context : Context} : (actor.unwindCompensationStack snapshot.transactionId context error : Act Context Data _).Asks Op.Forward := by
    refine asksOne trivial (fun stack => asksFold (fun unwound e => ?_) _ _)
    refine asksBind entry (fun _ => asksOne trivial (fun _ => asksOne trivial (fun _ => ?_)))
    exact asksBind (asksOne trivial (fun _ => asksExcept)) (fun _ => trivial)
  have rollBack {version} : (actor.rollBack snapshot version error compensateRequested w.workingContext).Asks Op.Forward := by
    unfold Actor.rollBack
    split
    · exact asksOne trivial (fun _ => asksBind (updateForward rfl) (fun _ => asksBind unwind (fun _ => trivial)))
    · trivial
  exact asksBind flush (fun _ => asksBind rollBack (fun _ => asksThrow (fun _ => trivial)))

theorem runMatchesForward (matches_ : List (MatchedTransition × Data)) (w : Working Context Data) :
    (actor.runMatches snapshot event stepStartedAt metadata matches_ w).Asks Op.Forward := by
  induction matches_ generalizing w with
  | nil => trivial
  | cons x rest ih =>
    obtain ⟨m,input⟩ := x
    have outcome {binding result} : (actor.stepOutcome snapshot event m binding input result w).Asks Op.Forward := by
      unfold Actor.stepOutcome
      split
      · exact asksBind (asksMono succeedStepPlain plainForward) (fun _ => trivial)
      · exact asksBind failStepForward (fun _ => trivial)
    have one : (actor.runMatch snapshot event stepStartedAt metadata m input w).Asks Op.Forward := by
      refine asksThrow (fun _ => asksOne trivial (fun _ => asksOne trivial (fun _ => asksBind outcome (fun _ => ?_))))
      exact asksBind (asksMono telemetryPlain plainForward) (fun _ => trivial)
    refine asksBind one (fun next => ?_)
    obtain ⟨next,failed⟩ := next
    cases failed with
    | none => exact ih next
    | some step => trivial

theorem terminalHooksAside {state status error} {context : Context} :
    (actor.emitSettledTerminalHooks t state status context error : Act Context Data Unit).Asks Op.Aside := by
  unfold Actor.emitSettledTerminalHooks
  split
  · by_cases complete : status = .COMPLETED
    · simp only [complete,if_true]
      exact emitAsks trivial (fun _ => asksOne trivial (fun _ => asksExcept))
    · simp only [complete,if_false]
      exact asksOne trivial (fun _ => asksExcept)
  · trivial

theorem emitTold {machineId actorId : String} {input : Data} {u v status value} {context : Context} {steps duration error}
    {f : Unit → Act Context Data β} (rest : (places t).Obeys Rests .rest (f ())) : (places t).Obeys Rests (.moved u v)
      (emit (.afterTransition t machineId actorId event input u v status value context steps duration error) >>= f) := by
  refine And.intro (fun _ => rfl) (fun r _ => ?_)
  have told : (places t).after (.moved u v) (.hook (.afterTransition t machineId actorId event input u v status value context
      steps duration error)) r = .rest := if_pos rfl
  rw [told]
  cases r with
  | ok _ => exact rest
  | error _ => trivial

theorem concludeRests {input value steps duration error status} :
    (places snapshot.transactionId).Obeys Rests (.moved snapshot.stateValue w.workingState)
      (actor.conclude snapshot event input w status value steps duration error) := by
  unfold Actor.conclude
  refine emitTold (asideThen terminalHooksAside trivial (fun _ p still => asideStill ?_ still))
  refine asksOne trivial (fun _ => asksBind (asksMono effectsAffect affectsAside) (fun _ => asksOne trivial (fun _ => ?_)))
  have counts (op : Op Context Data) (counts : op.Counts) : op.Aside := affectsAside op (countsAffects op counts)
  refine asksBind (asksMono dropCounts counts) (fun _ => asksBind (asksMono rereadCounts counts) (fun latest => ?_))
  cases latest <;> trivial

theorem settleRests {input value steps duration error lastError completedAt append status} :
    (places snapshot.transactionId).Obeys Rests (.read snapshot.stateValue) (do
      Actor.settle snapshot w status lastError completedAt append
      actor.conclude snapshot event input w status value steps duration error) := by
  unfold Actor.settle
  rw [bind_assoc]
  refine And.intro (fun _ => .inr ⟨_,rfl⟩) (fun r _ => ?_)
  cases r with
  | error e => trivial
  | ok version =>
    have moved : (places snapshot.transactionId).after (.read snapshot.stateValue) (.updateTransaction snapshot.transactionId
        w.currentVersion {
          stateValue := some w.workingState, context := some w.workingContext, status := some status
          activeStep := some none, lastError := some lastError, leaseOwner := some none, leaseExpiresAt := some none
          updatedAt := completedAt } append : Op Context Data) (.ok version) = .moved snapshot.stateValue w.workingState :=
      if_pos rfl
    rw [moved]
    exact ⟨trivial,fun _ _ => concludeRests⟩

theorem settleStepRests {input failed} : (places snapshot.transactionId).Obeys Rests (.read snapshot.stateValue)
    (actor.settleStep snapshot event metadata input stepStartedAt w failed) := by
  cases failed with
  | some step => exact obeysAsk trivial (fun completedAt _ => settleRests)
  | none =>
    refine forwardThen (asksMono (cascadePlain 20 w) plainForward) (fun w => ?_)
    exact obeysAsk trivial (fun completedAt _ => settleRests)

theorem executeRests {rawInput} : (places snapshot.transactionId).Obeys Rests (.read snapshot.stateValue)
    (actor.executeTransitionOnSnapshot snapshot event rawInput metadata) := by
  have leased {startedAt} : (actor.takeLease snapshot event rawInput startedAt).Asks Op.Forward := by
    unfold Actor.takeLease
    split
    · trivial
    · exact updateForward rfl
  have announced {input} : (emit (.beforeTransition snapshot.transactionId actor.machine.id actor.actorId event input
      snapshot.stateValue snapshot.context) : Act Context Data Unit).Asks Op.Forward := asksOne trivial (fun _ => asksExcept)
  unfold Actor.executeTransitionOnSnapshot
  dsimp only
  split
  · trivial
  · refine forwardThen (asksMono validatePlain plainForward) (fun inputs => forwardThen announced (fun _ => ?_))
    refine obeysAsk trivial (fun startedAt _ => forwardThen leased (fun version => forwardThen (runMatchesForward _ _) (fun ran => ?_)))
    exact settleStepRests

theorem transitionRests {u : String} {input fields} (still : p.Still) :
    (places t).Obeys Rests p (actor.transition u event input fields : Act Context Data _) := by
  by_cases here : u = t
  · subst here
    refine obeysAsk trivial (fun found known => ?_)
    cases found with
    | none => exact still
    | some snapshot =>
      obtain rfl : snapshot.transactionId = u := known
      have read : (places snapshot.transactionId).after p (.getTransaction snapshot.transactionId : Op Context Data) (some snapshot) =
          .read snapshot.stateValue := by
        simp only [places,Place.after,if_true]
        cases p <;> first | rfl | contradiction
      rw [read]
      dsimp only
      split
      · exact executeRests
      · trivial
  · -- a call on another transaction asks nothing about this one
    have member : (fun _ : Actor => True) actor := trivial
    refine @obeysWithin _ _ _ _ _ (places t) p _ (stages (fun _ => True) u) _ _ Place.Still _ (transitionStages member) ?_ still
    intro p stage op still ⟨_,about,allowed⟩
    cases op with
    | getTransaction id =>
      refine ⟨trivial,fun found known => ?_⟩
      cases found with
      | none => exact ⟨known,still⟩
      | some snapshot => exact ⟨known,Place.readsStill still _⟩
    | updateTransaction id version patch append =>
      have away : id ≠ t := fun same => Ne.symm here (by simpa [Op.about,same] using about.symm)
      refine ⟨fun same => absurd same away,fun r possible => ⟨possible,?_⟩⟩
      cases r with
      | error _ => exact still
      | ok v =>
        have kept : (places t).after p (.updateTransaction id version patch append) (.ok v) = p := if_neg away
        rw [kept]
        exact still
    | hook event =>
      have away : event.transactionId ≠ t := fun same => Ne.symm here (by simpa [Op.about,same] using about.symm)
      refine ⟨?_,fun r possible => ⟨possible,?_⟩⟩
      · cases event <;> first | trivial | exact fun same => absurd same away
      · have kept : (places t).after p (.hook event) r = p := by cases event <;> first | rfl | exact if_neg away
        rw [kept]
        exact still
    | effect name request => exact ⟨still,fun r possible => ⟨possible,trivial⟩⟩
    | _ => first | exact allowed.elim | exact ⟨trivial,fun r possible => ⟨possible,still⟩⟩

theorem startAside {initial : Context} {custom} : (actor.startTransaction initial custom : Act Context Data String).Asks Op.Aside := by
  unfold Actor.startTransaction
  have chosen : (Actor.chosenId custom : Act Context Data String).Asks Op.Aside := by
    cases custom with
    | some id => trivial
    | none => exact ⟨trivial,fun _ => trivial⟩
  refine asksOne trivial (fun r => asksThrow (fun initial => asksBind chosen (fun txId => asksOne trivial (fun startedAt => ?_))))
  refine asksOne trivial (fun _ => asksThrow (fun _ => emitAsks trivial (fun _ => asksBind terminalHooksAside (fun _ => ?_))))
  exact asksBind (asksMono effectsAffect affectsAside) (fun _ => trivial)

theorem reactRests {request : EffectRequest Context Data} (script : Script Context Data) (still : p.Still) :
    (places t).Obeys Rests p (actor.react request script) := by
  have goOn {γ : Type} {q : Act Context Data γ} {f : Except DfsmError γ → Act Context Data Unit} {p : Place}
      (obeys : (places t).Obeys Rests p q) (rest : ∀ ended p, p.Still → (places t).Obeys Rests p (f ended)) :
      (places t).Obeys Rests p (q.attempt >>= f) := by
    refine obeysBind (obeysAttempt (obeysMono obeys (fun p r still => ?_)))
    exact rest r p still
  induction script generalizing p with
  | done a => exact still
  | fail e => exact still
  | ask call next ih =>
    cases call with
    | runEffect name payload => exact goOn (asideStill (asksMono singleAffects affectsAside) still) (fun ended p still => ih ended still)
    | transition u event input metadata => exact goOn (transitionRests still) (fun ended p still => ih ended still)
    | startTransaction context custom => exact goOn (asideStill startAside still) (fun ended p still => ih ended still)

end

/-- The moves told so far, against the record. -/
def Place.Along (t : String) (g : List (StateValue × StateValue)) (s : Process Context Data) (p : Place) : Prop :=
  let value := (s.store.row t).map (·.stateValue)
  g.IsChain (fun a b => a.2 = b.1) ∧ match p with
    | .rest => value = g.getLast?.map (·.2)
    | .read v => value = g.getLast?.map (·.2) ∧ value = some v
    | .moved u v => g.getLast?.map (·.2) = some u ∧ value = some v

namespace Place

variable {g : List (StateValue × StateValue)} {s s' : Process Context Data}

theorem alongRest {p : Place} (still : p.Still) (along : p.Along t g s) : Along t g s .rest := by
  cases p with
  | rest => exact along
  | read v => exact ⟨along.1,along.2.1⟩
  | moved u v => contradiction

theorem alongKept {p : Place} (same : (s'.store.row t).map (·.stateValue) = (s.store.row t).map (·.stateValue)) (along : p.Along t g s) :
    p.Along t g s' := by
  unfold Along at along ⊢
  rw [same]
  exact along

theorem chainNext {u v : StateValue} (chain : g.IsChain (fun a b => a.2 = b.1)) (last : ∀ w, g.getLast?.map (·.2) = some w → w = u) :
    (g ++ [(u,v)]).IsChain (fun a b => a.2 = b.1) := by
  refine List.isChain_append.mpr ⟨chain,List.isChain_singleton _,fun x here y there => ?_⟩
  obtain rfl : (u,v) = y := by simpa using there
  exact last _ (by rw [here]; rfl)

theorem alongTold {u v : StateValue} (along : (Place.moved u v).Along t g s) : Place.rest.Along t (g ++ [(u,v)]) s := by
  obtain ⟨chain,last,value⟩ := along
  refine ⟨chainNext chain (fun w same => ?_),by simpa using value⟩
  rw [last] at same
  exact (Option.some.inj same).symm

end Place

section
variable {g : List (StateValue × StateValue)} {s s' : Process Context Data}

def extend (t : String) (g : List (StateValue × StateValue)) (e : Event (Reply Context Data)) : List (StateValue × StateValue) :=
  g ++ (moveTold t e).toList

theorem foldExtend (es : List (Event (Reply Context Data))) : es.foldl (extend t) g = g ++ es.filterMap (moveTold t) := by
  induction es generalizing g with
  | nil => simp
  | cons e rest ih =>
    rw [List.foldl_cons,ih,extend,List.filterMap_cons]
    cases moveTold t e <;> simp

theorem alongStill {p : Place} {op : Op Context Data} {r : Reply Context Data op} (row : s'.store.row t = s.store.row t)
    (untold : moveTold t (⟨op,r⟩ : Event (Reply Context Data)) = none) (along : p.Along t g s) :
    p.Along t (extend t g ⟨op,r⟩) s' := by
  rw [extend,untold,Option.toList_none,List.append_nil]
  exact Place.alongKept (congrArg _ row) along

theorem alongRead {p : Place} {id found} (performed : Performs s.store (.getTransaction id) found s'.store) (along : p.Along t g s) :
    ((places t).after p (.getTransaction id : Op Context Data) found).Along t (extend t g ⟨.getTransaction id,found⟩) s' := by
  obtain ⟨tells,world⟩ := performsWorld performed t
  have kept : s'.store.row t = s.store.row t := congrArg World.row world
  refine alongStill kept rfl ?_
  cases found with
  | none => exact along
  | some snapshot =>
    by_cases here : id = t
    · have row : (s.store.row t).map (·.stateValue) = some snapshot.stateValue := by
        have same : some snapshot = (s.store.world t).snapshot := tells here
        obtain ⟨row,found,rfl⟩ := Option.map_eq_some_iff.mp same.symm
        exact congrArg _ found
      have read : (places t).after p (.getTransaction id) (some snapshot) = p.reads (some snapshot.stateValue) := by
        simp [places,Place.after,here]
      rw [read]
      cases p with
      | moved u v => exact along
      | rest => exact ⟨along.1,along.2,row⟩
      | read v => exact ⟨along.1,along.2.1,row⟩
    · have read : (places t).after p (.getTransaction id) (some snapshot) = p.reads none := by
        simp [places,Place.after,here]
      rw [read]
      cases p <;> exact along

theorem alongCreated {p : Place} {record r} (performed : Performs s.store (.createTransaction record) r s'.store)
    (allowed : (places t).allowed p (.createTransaction record : Op Context Data)) (along : p.Along t g s) :
    ((places t).after p (.createTransaction record : Op Context Data) r).Along t (extend t g ⟨.createTransaction record,r⟩) s' := by
  obtain ⟨tells,world⟩ := performsWorld performed t
  have row := congrArg World.row world
  cases r with
  | error e => exact alongStill row rfl along
  | ok _ =>
    by_cases here : record.transactionId = t
    · have fresh : s.store.row t = none := tells here
      have created : s'.store.row t = some record := by simpa [Store.world,World.after,here] using row
      have empty : g = [] := by
        have rest := (Place.alongRest (allowed here) along).2
        simpa [fresh] using rest.symm
      have placed : (places t).after p (.createTransaction record) (.ok ()) = .rest := if_pos here
      rw [placed]
      subst empty
      simp [Place.Along,extend,moveTold,here,created]
    · have kept : s'.store.row t = s.store.row t := by simpa [Store.world,World.after,here] using row
      have placed : (places t).after p (.createTransaction record) (.ok ()) = p := if_neg here
      rw [placed]
      exact alongStill kept (if_neg here) along

theorem alongUpdated {p : Place} {id version patch append r} (performed : Performs s.store (.updateTransaction id version patch append) r s'.store)
    (allowed : (places t).allowed p (.updateTransaction id version patch append : Op Context Data)) (along : p.Along t g s) :
    ((places t).after p (.updateTransaction id version patch append : Op Context Data) r).Along t
      (extend t g ⟨.updateTransaction id version patch append,r⟩) s' := by
  have row := congrArg World.row (performsWorld performed t).2
  have untold : extend t g (⟨.updateTransaction id version patch append,r⟩ : Event (Reply Context Data)) = g := List.append_nil g
  rw [untold]
  cases r with
  | error e => exact Place.alongKept (congrArg _ row) along
  | ok next =>
    by_cases here : id = t
    · have changed : s'.store.row t = (s.store.row t).map patch.apply := by simpa [Store.world,World.after,here] using row
      have value : (s'.store.row t).map (·.stateValue) = (s.store.row t).map (fun row => patch.stateValue.getD row.stateValue) := by
        rw [changed,Option.map_map]
        rfl
      have placed : (places t).after p (.updateTransaction id version patch append) (.ok next) = p.written patch.stateValue :=
        if_pos here
      rw [placed]
      cases written : patch.stateValue with
      | none =>
        rw [written] at value
        cases p <;> exact Place.alongKept value along
      | some v =>
        obtain ⟨u,rfl⟩ := (allowed here).resolve_left (by simp [written])
        obtain ⟨chain,last,read⟩ := along
        obtain ⟨old,found,_⟩ := Option.map_eq_some_iff.mp read
        rw [written,found] at value
        exact ⟨chain,last.symm.trans read,value⟩
    · have kept : s'.store.row t = s.store.row t := by simpa [Store.world,World.after,here] using row
      have placed : (places t).after p (.updateTransaction id version patch append) (.ok next) = p := if_neg here
      rw [placed]
      exact Place.alongKept (congrArg _ kept) along

theorem alongHook {p : Place} {event : HookEvent Context Data} {r} (same : s'.store.row t = s.store.row t)
    (allowed : (places t).allowed p (.hook event : Op Context Data)) (along : p.Along t g s) :
    ((places t).after p (.hook event : Op Context Data) r).Along t (extend t g ⟨.hook event,r⟩) s' := by
  cases event with
  | afterTransition id machineId actorId event input u v status value context steps duration error =>
    by_cases here : id = t
    · obtain rfl := allowed here
      have placed : (places t).after (.moved u v) (.hook (.afterTransition id machineId actorId event input u v status value
          context steps duration error) : Op Context Data) r = .rest := if_pos here
      have told : moveTold t (⟨.hook (.afterTransition id machineId actorId event input u v status value context steps duration
          error),r⟩ : Event (Reply Context Data)) = some (u,v) := if_pos here
      rw [placed,extend,told]
      exact Place.alongTold (Place.alongKept (congrArg _ same) along)
    · have placed : (places t).after p (.hook (.afterTransition id machineId actorId event input u v status value context steps
          duration error) : Op Context Data) r = p := if_neg here
      rw [placed]
      exact alongStill same (if_neg here) along
  | _ => exact alongStill same rfl along

theorem alongServed {p : Place} {op : Op Context Data} {r : Reply Context Data op} (served : s.Serves op r s')
    (direct : ∀ name request, op ≠ .effect name request) (allowed : (places t).allowed p op) (along : p.Along t g s) :
    (places t).replies op r ∧ ((places t).after p op r).Along t (extend t g ⟨op,r⟩) s' := by
  cases op with
  | bumpTransitionRevision | dropTransitionRevision | setEffectChainDepth =>
    cases served
    exact ⟨trivial,alongStill rfl rfl along⟩
  | transitionRevision | effectChainDepth =>
    cases served.2
    exact ⟨trivial,alongStill rfl rfl along⟩
  | effect name request => exact absurd rfl (direct name request)
  | deleteTransactions ids => exact allowed.elim
  | getTransaction id =>
    obtain ⟨store,performed,rfl⟩ := served
    have replies := @performsReplies _ _ _ _ (.getTransaction id) r (fun _ => True) performed
    refine ⟨?_,alongRead performed along⟩
    cases r with
    | none => trivial
    | some snapshot => exact replies
  | createTransaction record =>
    obtain ⟨store,performed,rfl⟩ := served
    exact ⟨trivial,alongCreated performed allowed along⟩
  | updateTransaction id version patch append =>
    obtain ⟨store,performed,rfl⟩ := served
    exact ⟨trivial,alongUpdated performed allowed along⟩
  | hook event =>
    obtain ⟨store,performed,rfl⟩ := served
    have same := congrArg World.row (performsWorld performed t).2
    exact ⟨trivial,alongHook same allowed along⟩
  | markCompensationExecuted id stepSeq compensatedAt =>
    obtain ⟨store,performed,rfl⟩ := served
    have row := congrArg World.row (performsWorld performed t).2
    have still : ((s.store.world t).after t (.markCompensationExecuted id stepSeq compensatedAt) r).row = s.store.row t := by
      simp only [World.after]
      split <;> rfl
    exact ⟨trivial,alongStill (row.trans still) rfl along⟩
  | _ =>
    obtain ⟨store,performed,rfl⟩ := served
    have row : store.row t = s.store.row t := congrArg World.row (performsWorld performed t).2
    exact ⟨trivial,alongStill row rfl along⟩

end

section
variable {actor : Actor} {effects : String → EffectRequest Context Data → Script Context Data} {s s' : Process Context Data}
  {es : List (Event (Reply Context Data))}

theorem followsAlong {α : Type} {q : Act Context Data α} {result : Except DfsmError α} {p : Place}
    (run : Follows actor effects q s es result s') (obeys : (places t).Obeys Rests p q) {g : List (StateValue × StateValue)}
    (start : p.Along t g s) : ∃ last : Place, last.Along t (g ++ es.filterMap (moveTold t)) s' ∧ last.Still := by
  rw [← foldExtend]
  refine @execSimulates _ _ _ _ _ _ _ _ _ _ _ _ _ _ (places t) (fun g s (p : Place) => p.Along t g s) (extend t) Rests ?_ ?_ run _ _ obeys start
  · intro g s op r s' p direct served allowed along
    refine alongServed served (fun name request same => ?_) allowed along
    subst same
    contradiction
  · intro g s op inner p known allowed along
    cases op with
    | effect name request =>
      cases known
      refine ⟨.rest,Place.alongRest allowed along,?_⟩
      refine obeysAttempt (obeysMono (reactRests _ trivial) (fun last ended still => ?_))
      intro g s r along same
      refine ⟨trivial,?_⟩
      have untold : extend t g (⟨.effect name request,r⟩ : Event (Reply Context Data)) = g := List.append_nil g
      rw [untold]
      exact Place.alongRest still along
    | _ => contradiction

/-- However deep its effects go, what the hooks tell of a transaction is one path, from where it
was to where it ends up. -/
theorem transitionsFormPath {request : EffectRequest Context Data} {body : Script Context Data} {result}
    (run : Follows actor effects (actor.react request body) s es result s') :
    let path := ((s.store.row t).map (fun row => (row.stateValue,row.stateValue))).toList ++ es.filterMap (moveTold t)
    path.IsChain (fun a b => a.2 = b.1) ∧ (s'.store.row t).map (·.stateValue) = path.getLast?.map (·.2) := by
  intro path
  have start : Place.rest.Along t ((s.store.row t).map (fun row => (row.stateValue,row.stateValue))).toList s := by
    cases found : s.store.row t <;> simp [Place.Along,found]
  obtain ⟨last,along,still⟩ := followsAlong run (reactRests (p := .rest) body trivial) start
  exact Place.alongRest still along

end

/-! The guest of the host, let in by an effect. -/

/-- The effect of the skipped door enters by it. -/
def entering : Script Unit Unit := .ask (.transition "t" "enter" () []) (fun _ => .done ())

/-- The caller tries the door, and then skips it. -/
def skipping : Script Unit Unit := .ask (.transition "t" "skip" () []) (fun _ => .done ())

def askedFor : EffectRequest Unit Unit :=
  { transactionId := "t", machineId := "door", actorId := "porter", state := .str "idle", context := (), payload := none, baselineRevision := 0 }

def skippedRun : Option (List (Event (Reply Unit Unit)) × Except DfsmError Unit × Process Unit Unit) :=
  runWith (hostActor.reacting fun _ _ => entering) (Process.serve hostUser)
    (runInner (hostActor.reacting fun _ _ => entering) (Process.serve hostUser) 1) (hostActor.react askedFor skipping) { store := doorStore }

theorem skippedFollows {es result s'} (ran : skippedRun = some (es,result,s')) :
    Follows hostActor (fun _ _ => entering) (hostActor.react askedFor skipping) { store := doorStore } es result s' :=
  runWithExec (fun s op _ => Process.serveServes hostUser s op)
    (fun _ _ _ _ _ _ ran => runInnerExec (fun s op _ => Process.serveServes hostUser s op) 1 ran) ran

theorem transitionsFormPathSkipped : ∃ es result s', skippedRun = some (es,result,s') ∧ (es.filterMap (moveTold "t")).length = 2 ∧
    ((StateValue.str "idle",StateValue.str "idle")::es.filterMap (moveTold "t")).IsChain (fun a b => a.2 = b.1) ∧
    (s'.store.row "t").map (·.stateValue) = ((StateValue.str "idle",StateValue.str "idle")::es.filterMap (moveTold "t")).getLast?.map (·.2) := by
  have told : skippedRun.map (fun ran => (ran.1.filterMap (moveTold "t")).length) = some 2 := by decide +kernel
  obtain ⟨⟨es,result,s'⟩,ran,moves⟩ := Option.map_eq_some_iff.mp told
  exact ⟨es,result,s',ran,moves,transitionsFormPath (t := "t") (skippedFollows ran)⟩

end Dfsm
