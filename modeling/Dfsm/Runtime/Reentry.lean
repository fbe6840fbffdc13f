import Dfsm.Runtime.View
import Dfsm.Runtime.Requests
import Dfsm.Lib.Nested
import Dfsm.Runtime.Rejection

/-! Effects that call their actor again. The actor keeps count of the steps settled and of the
effects running; a transition goes by the first to see whether its effects have moved the
transaction on. -/
namespace Dfsm
open Protocol Program Act

variable {Context Data : Type} {t : String}

/-- What an effect may ask of its actor, about its own transaction. -/
inductive EffectCall (Data : Type) where
  | runEffect (subEffectName : String) (subPayload : Option Data)
  | transition (event : String) (input : Data) (metadata : List (String × Data))
  | forceCleanUp (options : ForceCleanUpOptions)

@[reducible] def EffectReply (Context Data : Type) : EffectCall Data → Type
  | .runEffect _ _ => Except DfsmError Unit
  | .transition _ _ _ => Except DfsmError (TransitionExecutionResult Context Data)
  | .forceCleanUp _ => Except DfsmError CleanUpReport

/-- An effect sees how each call ends, and may go on or throw. -/
abbrev EffectBody (Context Data : Type) : Type := Program (EffectReply Context Data) DfsmError Unit

namespace Actor
variable (actor : Actor)

def perform (request : EffectRequest Context Data) : EffectBody Context Data → Act Context Data Unit
  | .done a => pure a
  | .fail e => .fail e
  | .ask (.runEffect subEffectName subPayload) next => do
    let ended ← (actor.invokeSingleEffect request.transactionId request.state request.context request.baselineRevision
      { handler := subEffectName, payload := subPayload }).attempt
    perform request (next ended)
  | .ask (.transition event input metadata) next => do
    let ended ← (actor.transition request.transactionId event input metadata).attempt
    perform request (next ended)
  | .ask (.forceCleanUp options) next => do
    let ended ← (actor.forceCleanUp options).attempt
    perform request (next ended)

def withinEffect (effects : String → EffectRequest Context Data → EffectBody Context Data) :
    (op : Op Context Data) → Option (Act Context Data (Reply Context Data op))
  | .effect resolvedName request => some (actor.perform request (effects resolvedName request)).attempt
  | _ => none

end Actor

/-- One process with the only actor that writes to the store. -/
structure Process (Context Data : Type) where
  store : Store Context Data
  txTransitionRevision : String → Nat := fun _ => 0
  effectChainDepthByTx : String → Option Nat := fun _ => none

namespace Process

def Serves (s : Process Context Data) : (op : Op Context Data) → Reply Context Data op → Process Context Data → Prop
  | .bumpTransitionRevision id, _, s' =>
    s' = { s with txTransitionRevision := Function.update s.txTransitionRevision id (s.txTransitionRevision id + 1) }
  | .transitionRevision id, revision, s' => revision = s.txTransitionRevision id ∧ s' = s
  | .dropTransitionRevision id, _, s' => s' = { s with txTransitionRevision := Function.update s.txTransitionRevision id 0 }
  | .effectChainDepth id, depth, s' => depth = s.effectChainDepthByTx id ∧ s' = s
  | .setEffectChainDepth id depth, _, s' => s' = { s with effectChainDepthByTx := Function.update s.effectChainDepthByTx id depth }
  | op, r, s' => ∃ store, Performs s.store op r store ∧ s' = { s with store }

/-- The counters of the process, with the answers of everything else given. -/
def serve (user : (op : Op Context Data) → Reply Context Data op) (s : Process Context Data) :
    (op : Op Context Data) → Reply Context Data op × Process Context Data
  | .bumpTransitionRevision id =>
    ((),{ s with txTransitionRevision := Function.update s.txTransitionRevision id (s.txTransitionRevision id + 1) })
  | .transitionRevision id => (s.txTransitionRevision id,s)
  | .dropTransitionRevision id => ((),{ s with txTransitionRevision := Function.update s.txTransitionRevision id 0 })
  | .effectChainDepth id => (s.effectChainDepthByTx id,s)
  | .setEffectChainDepth id depth => ((),{ s with effectChainDepthByTx := Function.update s.effectChainDepthByTx id depth })
  | op => ((Dfsm.serve user s.store op).1,{ s with store := (Dfsm.serve user s.store op).2 })

theorem serveServes (user : (op : Op Context Data) → Reply Context Data op) (s : Process Context Data) (op : Op Context Data) :
    s.Serves op (s.serve user op).1 (s.serve user op).2 := by
  cases op with
  | bumpTransitionRevision | dropTransitionRevision | setEffectChainDepth => exact rfl
  | transitionRevision | effectChainDepth => exact ⟨rfl,rfl⟩
  | _ => exact ⟨_,servePerforms user s.store _,rfl⟩

end Process

/-- A whole run of a program of an actor with these effects. -/
abbrev Executes (actor : Actor) (effects : String → EffectRequest Context Data → EffectBody Context Data) {α : Type} :
    Act Context Data α → Process Context Data → List (Event (Reply Context Data)) → Except DfsmError α → Process Context Data → Prop :=
  Exec Process.Serves (actor.withinEffect effects)

/-- Neither runs an effect nor goes near a counter. -/
def Op.Calm : Op Context Data → Prop
  | .effect _ _ | .bumpTransitionRevision _ | .transitionRevision _ | .dropTransitionRevision _ | .effectChainDepth _
  | .setEffectChainDepth _ _ => False
  | _ => True

theorem worksCalm (op : Op Context Data) (works : op.Works) : op.Calm := by
  cases op <;> first | contradiction | trivial

theorem recoversCalm (op : Op Context Data) (recovers : op.Recovers) : op.Calm := by
  cases op <;> first | contradiction | trivial

theorem reportsCalm (op : Op Context Data) (reports : op.Reports) : op.Calm := by
  cases op <;> first | contradiction | trivial

theorem consultsCalm (op : Op Context Data) (consults : op.Consults) : op.Calm := worksCalm op (consultsWorks op consults)

theorem calmDirect {actor : Actor} {effects : String → EffectRequest Context Data → EffectBody Context Data} (op : Op Context Data)
    (calm : op.Calm) : actor.withinEffect effects op = none := by
  cases op <;> first | contradiction | rfl

/-! The effects running. -/

/-- How many effects of the transaction are running, none where a reply has denied it. The
revision is not dropped. -/
def framed (t : String) : Protocol (Reply Context Data) (Option Nat) where
  allowed running op := running = none ∨ match op with
    | .dropTransitionRevision id => id ≠ t
    | .effect _ request => request.transactionId = t ∧ running ≠ some 0
    | _ => True
  replies op r := match op, r with
    | .getTransaction id, some snapshot => snapshot.transactionId = id
    | _, _ => True
  after running op r := match op, r with
    | .effectChainDepth id, depth => if id = t ∧ running ≠ some (depth.getD 0) then none else running
    | .setEffectChainDepth id depth, _ => if id = t then running.map (fun _ => depth.getD 0) else running
    | _, _ => running

/-- As many effects are running as before. -/
abbrev Restored (n : Nat) {α : Type} (running : Option Nat) (_ : Except DfsmError α) : Prop := running = none ∨ running = some n

section
variable {actor : Actor} {n : Nat} {α β : Type}

theorem voidFramed (p : Act Context Data α) : (framed t).Obeys (fun running _ => running = none) none p := by
  induction p with
  | done a => rfl
  | fail e => rfl
  | ask op next ih =>
    refine ⟨.inl rfl,fun r _ => ?_⟩
    have stays : (framed t).after none op r = none := by
      cases op <;> first | rfl | simp [framed]
    rw [stays]
    exact ih r

theorem restoredVoid (p : Act Context Data α) : (framed t).Obeys (Restored n) none p :=
  obeysMono (voidFramed p) (fun _ _ here => .inl here)

theorem restoredBind {p : Act Context Data α} {f : α → Act Context Data β} (obeys : (framed t).Obeys (Restored n) (some n) p)
    (rest : ∀ a, (framed t).Obeys (Restored n) (some n) (f a)) : (framed t).Obeys (Restored n) (some n) (p >>= f) := by
  refine obeysBind (obeysMono obeys (fun running r restored => ?_))
  cases r with
  | error e => exact restored
  | ok a =>
    rcases restored with here | here
    · subst here
      exact restoredVoid _
    · subst here
      exact rest a

theorem calmRestored {good : Op Context Data → Prop} {p : Act Context Data α} (asks : p.Asks good) (calm : ∀ op, good op → op.Calm) :
    (framed t).Obeys (Restored n) (some n) p := by
  refine obeysMono (@obeysAsks _ _ _ _ _ (framed t) _ _ (· = some n) p (asksMono asks calm) ?_ rfl) (fun _ _ same => .inr same)
  intro running op same calm
  subst same
  cases op <;> first | contradiction | exact ⟨.inr trivial,fun _ _ => rfl⟩

theorem readDepth {m : Nat} {f : Option Nat → Act Context Data β} (rest : ∀ depth : Option Nat, depth.getD 0 = n → (framed t).Obeys (Restored m) (some n) (f depth)) :
    (framed t).Obeys (Restored m) (some n) (ask (.effectChainDepth t) >>= f) := by
  refine obeysAsk (.inr trivial) (fun depth _ => ?_)
  by_cases right : depth.getD 0 = n
  · have stays : (framed t).after (some n) (.effectChainDepth t : Op Context Data) depth = some n := by simp [framed,right]
    rw [stays]
    exact rest depth right
  · have denied : (framed t).after (some n) (.effectChainDepth t : Op Context Data) depth = none := by simp [framed,Ne.symm right]
    rw [denied]
    exact restoredVoid _

theorem setDepth {m : Nat} {depth : Option Nat} {f : Unit → Act Context Data β} (rest : ∀ r, (framed t).Obeys (Restored m) (some (depth.getD 0)) (f r)) :
    (framed t).Obeys (Restored m) (some n) (ask (.setEffectChainDepth t depth) >>= f) := by
  refine obeysAsk (.inr trivial) (fun r _ => ?_)
  have moved : (framed t).after (some n) (.setEffectChainDepth t depth : Op Context Data) r = some (depth.getD 0) := by simp [framed]
  rw [moved]
  exact rest r

theorem frameRestored {request : EffectRequest Context Data} {name} :
    (framed request.transactionId).Obeys (Restored n) (some n) (Actor.runEffectFrame name (n+1) request) := by
  unfold Actor.runEffectFrame
  refine setDepth (fun _ => obeysAsk (.inr ⟨rfl,by simp⟩) (fun ran _ => readDepth (fun depth same => ?_)))
  cases depth with
  | none => simp at same
  | some depth =>
    obtain rfl : depth = n+1 := same
    refine setDepth (fun _ => ?_)
    have left : (if n = 0 then none else some n : Option Nat).getD 0 = n := by split <;> simp_all
    simp only [Option.getD_some,Nat.add_sub_cancel,left]
    cases ran <;> exact .inr rfl

theorem singleRestored {state item baseline} {context : Context} :
    (framed t).Obeys (Restored n) (some n) (actor.invokeSingleEffect t state context baseline item : Act Context Data Unit) := by
  unfold Actor.invokeSingleEffect
  split
  · split <;> exact .inr rfl
  · refine readDepth (fun depth same => ?_)
    subst same
    dsimp only
    split
    · exact .inr rfl
    · refine obeysAsk (.inr trivial) (fun revision _ => restoredBind (calmRestored rereadAsks consultsCalm) (fun latest => ?_))
      exact frameRestored

theorem effectsRestored {state effects} {context : Context} :
    (framed t).Obeys (Restored n) (some n) (actor.invokeEffects t state context effects : Act Context Data Unit) := by
  refine obeysAsk (.inr trivial) (fun revision _ => ?_)
  have all (running : Option Nat) (restored : running = none ∨ running = some n) : (framed t).Obeys (Restored n) running
      (effects.foldlM (fun _ item => actor.invokeSingleEffect t state context revision item) () : Act Context Data Unit) := by
    induction effects generalizing running with
    | nil => exact restored
    | cons item rest ih =>
      rw [List.foldlM_cons]
      rcases restored with here | here
      · subst here
        exact restoredVoid _
      · subst here
        exact restoredBind singleRestored (fun _ => ih _ (.inr rfl))
  exact all _ (.inr rfl)

section
variable {snapshot : TransactionSnapshot Context Data} {event : String} {stepStartedAt : Int} {metadata : Metadata Data}
  {w : Working Context Data}

theorem concludeRestored (inside : n ≠ 0) {input status value steps duration error} :
    (framed snapshot.transactionId).Obeys (Restored n) (some n) (actor.conclude snapshot event input w status value steps duration error) := by
  unfold Actor.conclude
  refine restoredBind (calmRestored (asksOne trivial (fun _ => asksExcept)) reportsCalm) (fun _ => ?_)
  refine restoredBind (calmRestored terminalHooksAsks reportsCalm) (fun _ => obeysAsk (.inr trivial) (fun before _ => ?_))
  refine restoredBind effectsRestored (fun _ => obeysAsk (.inr trivial) (fun revision _ => ?_))
  have kept : (framed snapshot.transactionId).Obeys (Restored n) (some n) (Actor.dropRevision snapshot) := by
    refine readDepth (fun depth same => ?_)
    cases depth with
    | none => exact absurd same.symm inside
    | some depth => exact .inr rfl
  refine restoredBind kept (fun _ => restoredBind (calmRestored rereadAsks consultsCalm) (fun latest => ?_))
  cases latest <;> exact .inr rfl

theorem settleStepRestored (inside : n ≠ 0) {input failed} : (framed snapshot.transactionId).Obeys (Restored n) (some n)
    (actor.settleStep snapshot event metadata input stepStartedAt w failed) := by
  have settled {w : Working Context Data} {status lastError completedAt append} :
      (framed snapshot.transactionId).Obeys (Restored n) (some n) (Actor.settle snapshot w status lastError completedAt append) := by
    refine restoredBind (@calmRestored _ _ _ n _ Op.Calm _ (asksOne trivial (fun _ => asksExcept)) (fun _ => id)) (fun _ => ?_)
    exact ⟨.inr trivial,fun _ _ => .inr rfl⟩
  cases failed with
  | some step => exact obeysAsk (.inr trivial) (fun completedAt _ => restoredBind settled (fun _ => concludeRestored inside))
  | none =>
    refine restoredBind (calmRestored (cascadeAsks 20 w) worksCalm) (fun w => obeysAsk (.inr trivial) (fun completedAt _ => ?_))
    exact restoredBind settled (fun _ => concludeRestored inside)

theorem leaseAsks {rawInput startedAt} : (actor.takeLease snapshot event rawInput startedAt).Asks Op.Calm := by
  unfold Actor.takeLease
  split
  · trivial
  · exact asksOne trivial (fun _ => asksExcept)

theorem executeRestored (inside : n ≠ 0) {rawInput} : (framed snapshot.transactionId).Obeys (Restored n) (some n)
    (actor.executeTransitionOnSnapshot snapshot event rawInput metadata) := by
  unfold Actor.executeTransitionOnSnapshot
  dsimp only
  split
  · exact .inr rfl
  · refine restoredBind (calmRestored validateInputsAsks consultsCalm) (fun inputs => ?_)
    refine restoredBind (calmRestored (asksOne trivial (fun _ => asksExcept)) consultsCalm) (fun _ => obeysAsk (.inr trivial) (fun startedAt _ => ?_))
    refine restoredBind (calmRestored leaseAsks (fun _ => id)) (fun version => restoredBind (calmRestored (runMatchesAsks _ _) worksCalm) (fun ran => ?_))
    exact settleStepRestored inside

theorem transitionRestored (inside : n ≠ 0) {input fields} :
    (framed t).Obeys (Restored n) (some n) (actor.transition t event input fields : Act Context Data _) := by
  refine obeysAsk (.inr trivial) (fun found known => ?_)
  cases found with
  | none => exact .inr rfl
  | some snapshot =>
    obtain rfl : snapshot.transactionId = t := known
    dsimp only
    split
    · exact executeRestored inside
    · exact .inr rfl

end

end

/-! Clean-up runs no effect. -/

theorem cleanUpAsks {actor : Actor} {options : ForceCleanUpOptions} : (actor.forceCleanUp options : Act Context Data CleanUpReport).Asks Op.Calm := by
  have acts (report : CleanUpReport) (item : TransactionSummary Context Data) :
      (actor.cleanUpTransaction options.action report item).Asks Op.Calm := by
    unfold Actor.cleanUpTransaction
    split
    · trivial
    · exact asksMono failAsks recoversCalm
    · exact asksMono unlockAsks recoversCalm
    · exact asksMono (asksBind compensateAsks (fun _ => trivial)) recoversCalm
  unfold Actor.forceCleanUp cleanUp
  refine asksOne trivial (fun startedAt => asksOne trivial (fun candidates => ?_))
  dsimp only
  split
  · trivial
  · split
    · exact asksOne trivial (fun _ => trivial)
    · refine asksFold (fun report item => asksBind (asksAttempt (acts report item)) (fun ended => ?_)) _ _
      cases ended <;> trivial

section
variable {actor : Actor} {effects : String → EffectRequest Context Data → EffectBody Context Data} {n : Nat}

theorem attemptRestored {α : Type} {p : Act Context Data α} (obeys : (framed t).Obeys (Restored n) (some n) p) :
    (framed t).Obeys (Restored n) (some n) p.attempt :=
  obeysAttempt (obeysMono obeys (fun _ _ restored => restored))

theorem performRestored (inside : n ≠ 0) {request : EffectRequest Context Data} (body : EffectBody Context Data) :
    (framed request.transactionId).Obeys (Restored n) (some n) (actor.perform request body) := by
  induction body with
  | done a => exact .inr rfl
  | fail e => exact .inr rfl
  | ask call next ih =>
    cases call with
    | runEffect name payload => exact restoredBind (attemptRestored singleRestored) (fun ended => ih ended)
    | transition event input metadata => exact restoredBind (attemptRestored (transitionRestored inside)) (fun ended => ih ended)
    | forceCleanUp options => exact restoredBind (attemptRestored (calmRestored cleanUpAsks (fun _ => id))) (fun ended => ih ended)

theorem servesReplies {s s' : Process Context Data} {op : Op Context Data} {r} (served : s.Serves op r s') : (framed t).replies op r ∧
    (framed t).after (some ((s.effectChainDepthByTx t).getD 0)) op r = some ((s'.effectChainDepthByTx t).getD 0) := by
  cases op with
  | effectChainDepth id =>
    obtain ⟨same,still⟩ := served
    subst still
    refine ⟨trivial,?_⟩
    simp only [framed,ite_eq_right_iff]
    intro ⟨here,apart⟩
    subst here
    exact absurd (congrArg (fun depth => some (depth.getD 0)) same).symm apart
  | setEffectChainDepth id depth =>
    cases served
    refine ⟨trivial,?_⟩
    by_cases here : id = t
    · subst here
      simp [framed]
    · simp [framed,here,Function.update_of_ne (Ne.symm here)]
  | transitionRevision id =>
    cases served.2
    exact ⟨trivial,rfl⟩
  | bumpTransitionRevision id =>
    cases served
    exact ⟨trivial,rfl⟩
  | dropTransitionRevision id =>
    cases served
    exact ⟨trivial,rfl⟩
  | getTransaction id =>
    obtain ⟨store,performed,same⟩ := served
    subst same
    refine ⟨?_,rfl⟩
    have replies := @performsReplies _ _ s.store store (.getTransaction id) r (fun _ => True) performed
    cases r <;> exact replies
  | _ =>
    obtain ⟨store,performed,same⟩ := served
    subst same
    exact ⟨trivial,rfl⟩

theorem effectsKeep {s s' : Process Context Data} {es result state invoked} {context : Context}
    (run : Executes actor effects (actor.invokeEffects t state context invoked) s es result s') :
    ∀ r, (⟨.dropTransitionRevision t,r⟩ : Event (Reply Context Data)) ∉ es := by
  have obeys := @effectsRestored Context Data t actor ((s.effectChainDepthByTx t).getD 0) state invoked context
  have kept := (@execObeys _ _ _ _ _ _ _ _ _ _ _ _ _ (framed t) (fun s : Process Context Data => some ((s.effectChainDepthByTx t).getD 0))
    _ (fun _ _ _ _ _ served => servesReplies served) ?_ run obeys).2
  · intro r mem
    obtain ⟨s,denied | other⟩ := kept _ mem
    · contradiction
    · exact other rfl
  · intro op p s within allowed
    cases op with
    | effect name request =>
      cases within
      rcases allowed with denied | ⟨here,inside⟩
      · contradiction
      subst here
      have running : (s.effectChainDepthByTx request.transactionId).getD 0 ≠ 0 := fun none => inside (congrArg some none)
      refine obeysMono (attemptRestored (performRestored running _)) (fun running r restored s' r' same _ => ⟨trivial,?_⟩)
      rcases restored with denied | here
      · rw [denied] at same
        contradiction
      · exact here.symm
    | _ => contradiction

end

/-! What a whole run leaves behind, by its trace. -/

/-- The transaction after the events of a trace. -/
def World.through (t : String) (w : World Context Data) (es : List (Event (Reply Context Data))) : World Context Data :=
  es.foldl (fun w e => w.after t e.op e.reply) w

/-- A step of the transaction has settled. -/
def bumps (t : String) : Event (Reply Context Data) → Bool
  | ⟨.bumpTransitionRevision id,_⟩ => id = t
  | _ => false

def revised (t : String) (revision : Nat) : Event (Reply Context Data) → Nat
  | ⟨.bumpTransitionRevision id,_⟩ => if id = t then revision + 1 else revision
  | ⟨.dropTransitionRevision id,_⟩ => if id = t then 0 else revision
  | _ => revision

/-- What a caller is told of a record. -/
def TransactionRecord.seen (row : TransactionRecord Context Data) : StateValue × TransactionStatus × Context :=
  (row.stateValue,row.status,row.context)

def TransitionExecutionResult.seen (result : TransitionExecutionResult Context Data) : StateValue × TransactionStatus × Context :=
  (result.currentState,result.status,result.context)

/-- A trace up to the first step that settles; what comes after are the effects of that step. -/
def settling (t : String) (es : List (Event (Reply Context Data))) : List (Event (Reply Context Data)) := es.takeWhile (!bumps t ·)

def trailing (t : String) (es : List (Event (Reply Context Data))) : List (Event (Reply Context Data)) := (es.dropWhile (!bumps t ·)).tail

/-- Where the effects have settled a step the record is still there; where they have not,
what they leave of it is what the step itself had settled. -/
def Followed (t : String) (w : World Context Data) (es : List (Event (Reply Context Data))) : Prop :=
  if (trailing t es).any (bumps t) = true then (w.through t es).row.isSome = true
  else (w.through t es).row.map (·.seen) = (w.through t (settling t es)).row.map (·.seen)

section
variable {actor : Actor} {effects : String → EffectRequest Context Data → EffectBody Context Data} {α : Type} {p : Act Context Data α}
  {s s' : Process Context Data} {es : List (Event (Reply Context Data))} {result : Except DfsmError α}

theorem throughAppend {w : World Context Data} {first last : List (Event (Reply Context Data))} :
    w.through t (first ++ last) = (w.through t first).through t last :=
  List.foldl_append

theorem execWorld (run : Executes actor effects p s es result s') : s'.store.world t = (s.store.world t).through t es := by
  refine @execFold _ _ _ _ _ _ _ _ _ _ _ _ _ (fun s : Process Context Data => s.store.world t) (fun w e => w.after t e.op e.reply) ?_ ?_ run
  · intro s op r s' _ served
    cases op with
    | bumpTransitionRevision | dropTransitionRevision | setEffectChainDepth => cases served; rfl
    | transitionRevision | effectChainDepth => cases served.2; rfl
    | _ =>
      obtain ⟨store,performed,same⟩ := served
      subst same
      exact (performsWorld performed t).2
  · intro w op r p within
    cases op <;> first | contradiction | rfl

theorem execRevision (run : Executes actor effects p s es result s') :
    s'.txTransitionRevision t = es.foldl (revised t) (s.txTransitionRevision t) := by
  refine @execFold _ _ _ _ _ _ _ _ _ _ _ _ _ (fun s : Process Context Data => s.txTransitionRevision t) (revised t) ?_ ?_ run
  · intro s op r s' _ served
    cases op with
    | bumpTransitionRevision id =>
      cases served
      by_cases here : id = t
      · subst here
        simp [revised]
      · simp [revised,here,Function.update_of_ne (Ne.symm here)]
    | dropTransitionRevision id =>
      cases served
      by_cases here : id = t
      · subst here
        simp [revised]
      · simp [revised,here,Function.update_of_ne (Ne.symm here)]
    | setEffectChainDepth => cases served; rfl
    | transitionRevision | effectChainDepth => cases served.2; rfl
    | _ =>
      obtain ⟨store,performed,same⟩ := served
      subst same
      rfl
  · intro w op r p within
    cases op <;> first | contradiction | rfl

theorem revisedCount (kept : ∀ r, (⟨.dropTransitionRevision t,r⟩ : Event (Reply Context Data)) ∉ es) (revision : Nat) :
    es.foldl (revised t) revision = revision + es.countP (bumps t) := by
  induction es generalizing revision with
  | nil => rfl
  | cons e rest ih =>
    have rest := ih (fun r mem => kept r (List.mem_cons_of_mem _ mem))
    rw [List.foldl_cons,rest,List.countP_cons]
    obtain ⟨op,r⟩ := e
    cases op with
    | bumpTransitionRevision id =>
      simp only [revised,bumps,decide_eq_true_eq]
      split <;> omega
    | dropTransitionRevision id =>
      have other : id ≠ t := fun here => kept r (by rw [here]; exact List.mem_cons_self)
      simp [revised,bumps,other]
    | _ => simp [revised,bumps]

theorem movedIff {state invoked} {context : Context} {result}
    (run : Executes actor effects (actor.invokeEffects t state context invoked) s es result s') :
    s'.txTransitionRevision t = s.txTransitionRevision t ↔ es.any (bumps t) = false := by
  rw [execRevision run,revisedCount (effectsKeep run)]
  have none : es.countP (bumps t) = 0 ↔ es.any (bumps t) = false := by simp [List.countP_eq_zero]
  rw [← none]
  omega

theorem calmRuns (asks : p.Asks Op.Calm) (run : Executes actor effects p s es result s') : es.any (bumps t) = false := by
  rw [List.any_eq_false]
  intro e mem
  have calm := execAsks asks calmDirect run e mem
  obtain ⟨op,r⟩ := e
  cases op <;> first | contradiction | simp [bumps]

theorem reportsRuns (asks : p.Asks Op.Reports) (run : Executes actor effects p s es result s') :
    s'.store.world t = s.store.world t ∧ es.any (bumps t) = false := by
  refine ⟨?_,calmRuns (asksMono asks reportsCalm) run⟩
  rw [execWorld run]
  have all := execAsks asks (fun op reports => calmDirect op (reportsCalm op reports)) run
  generalize s.store.world t = w
  clear run
  induction es with
  | nil => rfl
  | cons e rest ih =>
    have here := all e List.mem_cons_self
    obtain ⟨op,r⟩ := e
    have still : w.after t op r = w := by
      cases op <;> first | contradiction | rfl
    rw [World.through,List.foldl_cons,still]
    exact ih (fun e mem => all e (List.mem_cons_of_mem _ mem))

end

section
variable {actor : Actor} {effects : String → EffectRequest Context Data → EffectBody Context Data}
  {snapshot : TransactionSnapshot Context Data} {event : String} {stepStartedAt : Int} {metadata : Metadata Data} {w : Working Context Data}
  {s s' : Process Context Data} {es : List (Event (Reply Context Data))} {result : TransitionExecutionResult Context Data}

theorem rereadRuns {before after latest} (run : Executes actor effects (Actor.rereadMoved t before after) s es (.ok latest) s') :
    s'.store.world t = s.store.world t ∧ es.any (bumps t) = false ∧ latest = if after = before then none else s.store.getTransaction t := by
  obtain ⟨still,calm⟩ := @reportsRuns Context Data t actor effects _ _ s s' es _ (asksMono rereadAsks consultsReports) run
  refine ⟨still,calm,?_⟩
  unfold Actor.rereadMoved at run
  split at run
  · rename_i same
    cases run
    rw [if_pos same]
  · rename_i moved
    obtain ⟨r,s₁,rest,_,⟨store,performed,_⟩,run⟩ := execAsk rfl run
    cases run
    rw [if_neg moved]
    exact performed.1

theorem dropRuns {r} (run : Executes actor effects (Actor.dropRevision snapshot) s es r s') :
    s'.store.world snapshot.transactionId = s.store.world snapshot.transactionId ∧ es.any (bumps snapshot.transactionId) = false := by
  obtain ⟨depth,s₁,rest,split,⟨_,same⟩,after⟩ := execRequest rfl run
  clear run
  subst same split
  split at after
  · obtain ⟨r,s₂,rest,split,same,run⟩ := execAsk rfl after
    subst same split
    cases run
    exact ⟨rfl,rfl⟩
  · cases after
    exact ⟨rfl,rfl⟩

/-- After its settling commit a call tells the record that is there in the end, where the
effects have kept it or the call has noticed. -/
theorem concludeSeen {input status value steps duration error}
    (settled : (s.store.row snapshot.transactionId).map (·.seen) = some (w.workingState,status,w.workingContext))
    (run : Executes actor effects (actor.conclude snapshot event input w status value steps duration error) s es (.ok result) s') :
    (s'.store.row snapshot.transactionId).map (·.seen) = some result.seen ↔
      if es.any (bumps snapshot.transactionId) = true then (s'.store.row snapshot.transactionId).isSome = true
      else (s'.store.row snapshot.transactionId).map (·.seen) = (s.store.row snapshot.transactionId).map (·.seen) := by
  unfold Actor.conclude at run
  obtain ⟨_,s₁,e₁,rest₁,split₁,after,run⟩ := execThen run
  obtain ⟨_,s₂,e₂,rest₂,split₂,hooks,run⟩ := execThen run
  obtain ⟨before,s₃,rest₃,split₃,⟨known,same₃⟩,run⟩ := execRequest rfl run
  obtain ⟨_,s₄,e₄,rest₄,split₄,invoked,run⟩ := execThen run
  obtain ⟨revision,s₅,rest₅,split₅,⟨now_,same₅⟩,run⟩ := execRequest rfl run
  obtain ⟨_,s₆,e₆,rest₆,split₆,dropped,run⟩ := execThen run
  obtain ⟨latest,s₇,e₇,rest₇,split₇,reread,run⟩ := execThen run
  have emitted {hook : HookEvent Context Data} : (emit hook).Asks Op.Reports := asksOne trivial (fun _ => asksExcept)
  obtain ⟨world₁,calm₁⟩ := @reportsRuns _ _ snapshot.transactionId _ _ _ _ _ _ _ _ emitted after
  obtain ⟨world₂,calm₂⟩ := @reportsRuns _ _ snapshot.transactionId _ _ _ _ _ _ _ _ terminalHooksAsks hooks
  obtain ⟨world₆,calm₆⟩ := dropRuns dropped
  obtain ⟨world₇,calm₇,found⟩ := rereadRuns reread
  have moved := movedIff invoked
  subst same₃ same₅ known now_
  have last : s' = s₇ ∧ rest₇ = [] ∧ result.seen =
      (latest.map (·.toTransactionRecord.seen)).getD (w.workingState,status,w.workingContext) := by
    cases latest <;> cases run <;> exact ⟨rfl,rfl,rfl⟩
  obtain ⟨same,none,seen⟩ := last
  subst same none split₁ split₂ split₃ split₄ split₅ split₆ split₇
  have row : s'.store.row snapshot.transactionId = s₆.store.row snapshot.transactionId := congrArg World.row world₇
  have noted (r) : bumps snapshot.transactionId (⟨.transitionRevision snapshot.transactionId,r⟩ : Event (Reply Context Data)) = false := rfl
  simp only [List.any_append,List.any_cons,List.any_nil,calm₁,calm₂,calm₆,calm₇,noted,Bool.false_or,Bool.or_false]
  rw [seen]
  by_cases any : e₄.any (bumps snapshot.transactionId) = true
  · rw [if_pos any]
    rw [if_neg (fun still => by rw [moved.mp still] at any; contradiction),Store.getTransaction,← row] at found
    cases here : s'.store.row snapshot.transactionId with
    | none => simp
    | some last =>
      rw [here] at found
      subst found
      simp [TransactionRecord.seen]
  · rw [if_neg any]
    rw [if_pos (moved.mpr (by simpa using any))] at found
    subst found
    rw [settled]
    exact Iff.rfl

/-- A part of a call up to its end, by whether what it tells is the record. -/
def Faithful (t : String) (s : Process Context Data) (es : List (Event (Reply Context Data))) (result : TransitionExecutionResult Context Data)
    (s' : Process Context Data) : Prop :=
  ∃ before r after, es = before ++ ⟨.bumpTransitionRevision t,r⟩::after ∧ before.any (bumps t) = false ∧
    ((s'.store.row t).map (·.seen) = some result.seen ↔
      if after.any (bumps t) = true then (s'.store.row t).isSome = true
      else (s'.store.row t).map (·.seen) = ((s.store.world t).through t before).row.map (·.seen))

theorem nowCalm : (now : Act Context Data Int).Asks Op.Calm := ⟨trivial,fun _ => trivial⟩

theorem emitCalm {hook : HookEvent Context Data} : (emit hook).Asks Op.Calm := ⟨trivial,fun _ => asksExcept⟩

theorem calmFaithful {α : Type} {p : Act Context Data α} {s₁ : Process Context Data} {first last ended} (asks : p.Asks Op.Calm)
    (run : Executes actor effects p s first ended s₁) (faithful : Faithful t s₁ last result s') : Faithful t s (first ++ last) result s' := by
  obtain ⟨before,r,after,split,calm,iff⟩ := faithful
  refine ⟨first ++ before,r,after,by rw [split,List.append_assoc],?_,?_⟩
  · rw [List.any_append,calmRuns asks run,calm]
    rfl
  · rw [throughAppend,← execWorld run]
    exact iff

theorem settleFaithful {status lastError completedAt append input value steps duration error}
    (run : Executes actor effects (do
      Actor.settle snapshot w status lastError completedAt append
      actor.conclude snapshot event input w status value steps duration error) s es (.ok result) s') :
    Faithful snapshot.transactionId s es result s' := by
  obtain ⟨_,s₂,first,rest,split,committed,later⟩ := execThen run
  unfold Actor.settle at committed
  obtain ⟨version,s₁,e₁,rest₁,split₁,updated,bumped⟩ := execThen committed
  obtain ⟨answer,s₀,rest₀,split₀,⟨store,performed,same⟩,known⟩ := execRequest rfl updated
  obtain ⟨r,s₃,rest₃,split₃,same₃,ended⟩ := execAsk rfl bumped
  cases answer with
  | error e => cases known
  | ok next =>
    cases known
    cases ended
    subst same same₃ split₀ split₃ split₁ split
    obtain ⟨tells,world⟩ := performsWorld performed snapshot.transactionId
    obtain ⟨row,here,_,_⟩ := tells rfl
    have stored : store.row snapshot.transactionId = (store.world snapshot.transactionId).row := rfl
    have settled : (store.row snapshot.transactionId).map (·.seen) = some (w.workingState,status,w.workingContext) := by
      rw [stored,world]
      simp only [World.after,if_true,here,Option.map_some]
      rfl
    refine ⟨[_],r,rest,rfl,rfl,(concludeSeen settled later).trans ?_⟩
    dsimp only
    rw [stored,world]
    exact Iff.rfl

theorem settleStepFaithful {input failed} (run : Executes actor effects
    (actor.settleStep snapshot event metadata input stepStartedAt w failed) s es (.ok result) s') :
    Faithful snapshot.transactionId s es result s' := by
  cases failed with
  | some step =>
    obtain ⟨completedAt,s₁,first,last,split,clock,settled⟩ := execThen run
    subst split
    exact calmFaithful nowCalm clock (settleFaithful settled)
  | none =>
    obtain ⟨w',s₁,first,last,split,cascaded,after⟩ := execThen run
    obtain ⟨completedAt,s₂,second,last',split',clock,settled⟩ := execThen after
    subst split split'
    refine calmFaithful (asksMono (cascadeAsks 20 w) worksCalm) cascaded ?_
    exact calmFaithful nowCalm clock (settleFaithful settled)

theorem executeFaithful {rawInput} (run : Executes actor effects
    (actor.executeTransitionOnSnapshot snapshot event rawInput metadata) s es (.ok result) s') :
    Faithful snapshot.transactionId s es result s' := by
  unfold Actor.executeTransitionOnSnapshot at run
  dsimp only at run
  split at run
  · cases run
  · obtain ⟨inputs,s₁,e₁,rest₁,split₁,validated,run⟩ := execThen run
    obtain ⟨_,s₂,e₂,rest₂,split₂,announced,run⟩ := execThen run
    obtain ⟨startedAt,s₃,e₃,rest₃,split₃,clock,run⟩ := execThen run
    obtain ⟨version,s₄,e₄,rest₄,split₄,leased,run⟩ := execThen run
    obtain ⟨⟨w,failed⟩,s₅,e₅,rest₅,split₅,matched,settled⟩ := execThen run
    subst split₁ split₂ split₃ split₄ split₅
    refine calmFaithful (asksMono validateInputsAsks consultsCalm) validated ?_
    refine calmFaithful emitCalm announced (calmFaithful nowCalm clock ?_)
    refine calmFaithful leaseAsks leased ?_
    exact calmFaithful (asksMono (runMatchesAsks _ _) worksCalm) matched (settleStepFaithful settled)

end

/-! A guest skips the door but is kept outside, and an effect of that step calls the actor. -/

def hostActor : Actor :=
  { doorActor with
    compiledBindings key :=
      if key = bindingKey "idle" "skip" then some { edge := { event := "skip", target := some "work.left.one", effects := ["greet"] } }
      else doorActor.compiledBindings key
    resolveEffect := some }

def hostUser : (op : Op Unit Unit) → Reply Unit Unit op
  | .handler _ call => (.ok { targetState := if call.event = "skip" then some "idle" else none, nextContext := () },1)
  | op => politeUser op

def hostRun (greet : EffectBody Unit Unit) :
    Option (List (Event (Reply Unit Unit)) × Except DfsmError (TransitionExecutionResult Unit Unit) × Process Unit Unit) :=
  runWith (hostActor.withinEffect fun _ _ => greet) (Process.serve hostUser)
    (runInner (hostActor.withinEffect fun _ _ => greet) (Process.serve hostUser) 1) (hostActor.transition "t" "skip" () []) { store := doorStore }

theorem hostExecutes {greet es result s'} (ran : hostRun greet = some (es,result,s')) :
    Executes hostActor (fun _ _ => greet) (hostActor.transition "t" "skip" () []) { store := doorStore } es result s' :=
  runWithExec (fun s op _ => Process.serveServes hostUser s op)
    (fun _ _ _ _ _ _ ran => runInnerExec (fun s op _ => Process.serveServes hostUser s op) 1 ran) ran

/-- The effect lets the guest in after all. -/
def letIn : EffectBody Unit Unit := .ask (.transition "enter" () []) (fun _ => .done ())

/-- The effect gives the guest up. -/
def giveUp : EffectBody Unit Unit :=
  .ask (.forceCleanUp { transactionIds := some ["t"], includeInFlight := true, action := .MARK_FAIL }) (fun _ => .done ())

end Dfsm
