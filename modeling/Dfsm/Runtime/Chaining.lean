import Dfsm.Runtime.Reentry

/-! The guard of effect chains, one step at a time. Outside code and effects wait for their
actor's transitions, effects also for `runEffect`; what waits is a stack, on which each
effect is a frame of its transaction. -/
namespace Dfsm.Chaining
open Protocol Program Act
open Relation (ReflTransGen)

variable {Context Data : Type}

/-- What code may wait for. A call of its own leaves the actor alone. -/
inductive NestedCall (Context Data : Type) where
  | runEffect (subEffectName : String) (subPayload : Option Data)
  | transition (transactionId event : String) (input : Data) (metadata : List (String × Data))
  | startTransaction (initialContext : Context) (customTransactionId : Option String)
  | own (query : Data)

@[reducible] def NestedReply (Context Data : Type) : NestedCall Context Data → Type
  | .runEffect _ _ => Except DfsmError Unit
  | .transition _ _ _ _ => Except DfsmError (TransitionExecutionResult Context Data)
  | .startTransaction _ _ => Except DfsmError String
  | .own _ => Data

/-- The body of an effect, or the code outside. -/
abbrev Code (Context Data : Type) := Program (NestedReply Context Data) DfsmError Unit

/-- What runs, or waits for a program of the actor: `inner` ends in the code to go on with,
and so does `caught` where something throws. The code outside has no request. -/
inductive Frame (Context Data : Type) where
  | running (request : Option (EffectRequest Context Data)) (code : Code Context Data)
  | waiting (request : Option (EffectRequest Context Data)) (inner : Program (Reply Context Data) DfsmError (Code Context Data))
      (caught : DfsmError → Code Context Data)

def Frame.request : Frame Context Data → Option (EffectRequest Context Data)
  | .running request _ => request
  | .waiting request _ _ => request

/-- The effects of a transaction that have started and not ended. -/
def active (stack : List (Frame Context Data)) (t : String) : Nat :=
  stack.countP (fun f => f.request.any (·.transactionId = t))

/-- `effectChainDepthByTx` and the stack, the innermost frame first. -/
structure Config (Context Data : Type) where
  depths : String → Option Nat
  stack : List (Frame Context Data)

/-- Not one of the steps around an effect that the actor takes without waiting. -/
def Awaited : Op Context Data → Prop
  | .effect _ _ | .effectChainDepth _ | .setEffectChainDepth _ _ => False
  | _ => True

def isEffect : Op Context Data → Bool
  | .effect _ _ => true
  | _ => false

/-- The counter; everything else may be answered in any way. -/
def Serves (depths : String → Option Nat) : (op : Op Context Data) → Reply Context Data op → (String → Option Nat) → Prop
  | .effectChainDepth id, depth, depths' => depth = depths id ∧ depths' = depths
  | .setEffectChainDepth id depth, _, depths' => depths' = Function.update depths id depth
  | _, _, depths' => depths' = depths

section
variable (actor : Actor) (effects : String → EffectRequest Context Data → Code Context Data)

/-- The program a call waits for, and how it ends. -/
def begins (request : Option (EffectRequest Context Data)) : (call : NestedCall Context Data) →
    (NestedReply Context Data call → Code Context Data) →
    Option (Act Context Data (Code Context Data) × (DfsmError → Code Context Data))
  | .runEffect subEffectName subPayload, next => request.map (fun r =>
    (actor.invokeSingleEffect r.transactionId r.state r.context r.baselineRevision
      { handler := subEffectName, payload := subPayload } >>= fun _ => pure (next (.ok ())),fun e => next (.error e)))
  | .transition transactionId event input metadata, next =>
    some (actor.transition transactionId event input metadata >>= fun result => pure (next (.ok result)),fun e => next (.error e))
  | .startTransaction initialContext customTransactionId, next =>
    some (actor.startTransaction initialContext customTransactionId >>= fun txId => pure (next (.ok txId)),fun e => next (.error e))
  | .own _, _ => none

inductive Step : Config Context Data → Config Context Data → Prop where
  | own {depths request query next below} (r : Data) :
      Step ⟨depths,.running request (.ask (.own query) next)::below⟩ ⟨depths,.running request (next r)::below⟩
  | called {depths request call next inner caught below} (begins : begins actor request call next = some (inner,caught)) :
      Step ⟨depths,.running request (.ask call next)::below⟩ ⟨depths,.waiting request inner caught::below⟩
  | served {depths request op r depths' caught below} {next : Reply Context Data op → Act Context Data (Code Context Data)}
      (direct : isEffect op = false) (served : Serves depths op r depths') :
      Step ⟨depths,.waiting request (.ask op next) caught::below⟩ ⟨depths',.waiting request (next r) caught::below⟩
  | thrown {depths request op caught below} {next : Reply Context Data op → Act Context Data (Code Context Data)}
      (awaited : Awaited op) (e : DfsmError) :
      Step ⟨depths,.waiting request (.ask op next) caught::below⟩ ⟨depths,.running request (caught e)::below⟩
  | entered {depths request name inner caught below} {next : Except DfsmError Unit → Act Context Data (Code Context Data)} :
      Step ⟨depths,.waiting request (.ask (.effect name inner) next) caught::below⟩
        ⟨depths,.running (some inner) (effects name inner)::.waiting request (.ask (.effect name inner) next) caught::below⟩
  | left {depths request name inner caught below} {next : Except DfsmError Unit → Act Context Data (Code Context Data)} :
      Step ⟨depths,.running (some inner) (.done ())::.waiting request (.ask (.effect name inner) next) caught::below⟩
        ⟨depths,.waiting request (next (.ok ())) caught::below⟩
  | threw {depths request name inner caught below e} {next : Except DfsmError Unit → Act Context Data (Code Context Data)} :
      Step ⟨depths,.running (some inner) (.fail e)::.waiting request (.ask (.effect name inner) next) caught::below⟩
        ⟨depths,.waiting request (next (.error e)) caught::below⟩
  | returned {depths request code caught below} :
      Step ⟨depths,.waiting request (.done code) caught::below⟩ ⟨depths,.running request code::below⟩
  | raised {depths request e caught below} :
      Step ⟨depths,.waiting request (.fail e) caught::below⟩ ⟨depths,.running request (caught e)::below⟩

abbrev Reaches (outside : Code Context Data) (c : Config Context Data) : Prop :=
  ReflTransGen (Step actor effects) ⟨fun _ => none,[.running none outside]⟩ c

end

/-- Some code runs, or something is waited for: nothing is between an effect and its counter. -/
def AtRest : List (Frame Context Data) → Prop
  | .waiting _ (.ask op _) _::_ => Awaited op
  | _ => True

/-- What the guard is for. -/
structure Guarded (actor : Actor) (c : Config Context Data) : Prop where
  /-- The counter counts, and has an entry only where it counts something. -/
  counted : AtRest c.stack → ∀ t, c.depths t = if active c.stack t = 0 then none else some (active c.stack t)
  bounded : ∀ t, (c.depths t).getD 0 ≤ actor.maxEffectChainDepth ∧ active c.stack t ≤ actor.maxEffectChainDepth
  /-- The next effect reads the counter and throws. -/
  refused : AtRest c.stack → ∀ t, active c.stack t = actor.maxEffectChainDepth →
    ∀ (state : StateValue) (context : Context) (revision : Nat) (item : EffectInvocation Data) (name : String),
    actor.resolveEffect item.handler = some name →
    ∃ next, actor.invokeSingleEffect t state context revision item = Program.ask (.effectChainDepth t) next ∧
      next (c.depths t) = .fail (.maxEffectChainDepth actor.maxEffectChainDepth t name)

/-! The programs of the actor between their effects. -/

/-- The counters where so many effects are active. -/
def shown (n : String → Nat) (t : String) : Option Nat := if n t = 0 then none else some (n t)

def entered (n : String → Nat) (t : String) : String → Nat := Function.update n t (n t + 1)

/-- The counters of a program that is started with so many effects active, none where a reply
has denied them. -/
def counts (max : Nat) (n : String → Nat) : Protocol (Reply Context Data) (Option (String → Option Nat)) where
  allowed depths op := ∀ d, depths = some d → match op with
    | .effect _ request => d = shown (entered n request.transactionId) ∧ n request.transactionId < max
    | .effectChainDepth _ => True
    | .setEffectChainDepth _ depth => depth.getD 0 ≤ max
    | _ => d = shown n
  replies _ _ := True
  after depths op r := match op, r with
    | .effectChainDepth id, depth => depths.filter (fun d => depth = d id)
    | .setEffectChainDepth id depth, _ => depths.map (fun d => Function.update d id depth)
    | _, _ => depths

abbrev Kept (n : String → Nat) {α : Type} (depths : Option (String → Option Nat)) (_ : Except DfsmError α) : Prop :=
  depths = none ∨ depths = some (shown n)

section
variable {actor : Actor} {max : Nat} {n : String → Nat} {α β : Type}

theorem voidKept (p : Act Context Data α) : (counts max n).Obeys (Kept n) none p := by
  induction p with
  | done a => exact .inl rfl
  | fail e => exact .inl rfl
  | ask op next ih =>
    refine ⟨fun d none_ => by contradiction,fun r _ => ?_⟩
    have stays : (counts max n).after none op r = none := by cases op <;> rfl
    rw [stays]
    exact ih r

theorem keptBind {p : Act Context Data α} {f : α → Act Context Data β} {depths : Option (String → Option Nat)}
    (obeys : (counts max n).Obeys (Kept n) depths p)
    (rest : ∀ a, (counts max n).Obeys (Kept n) (some (shown n)) (f a)) : (counts max n).Obeys (Kept n) depths (p >>= f) := by
  refine obeysBind (obeysMono obeys (fun depths r kept => ?_))
  cases r with
  | error e => exact kept
  | ok a =>
    rcases kept with here | here
    · subst here
      exact voidKept _
    · subst here
      exact rest a

theorem calmAwaited (op : Op Context Data) (calm : op.Calm) : Awaited op := by
  cases op <;> first | contradiction | trivial

theorem awaitedAllowed {op : Op Context Data} (awaited : Awaited op) : (counts max n).allowed (some (shown n)) op := by
  intro d here
  cases here
  cases op <;> first | contradiction | rfl

theorem awaitedKept {p : Act Context Data α} (asks : p.Asks Awaited) : (counts max n).Obeys (Kept n) (some (shown n)) p := by
  refine obeysMono (@obeysAsks _ _ _ _ _ (counts max n) _ _ (· = some (shown n)) p asks ?_ rfl) (fun _ _ same => .inr same)
  intro depths op same awaited
  subst same
  refine ⟨awaitedAllowed awaited,fun r _ => ?_⟩
  cases op <;> first | contradiction | rfl

theorem calmKept {good : Op Context Data → Prop} {p : Act Context Data α} (asks : p.Asks good) (calm : ∀ op, good op → op.Calm) :
    (counts max n).Obeys (Kept n) (some (shown n)) p :=
  awaitedKept (asksMono asks (fun op here => calmAwaited op (calm op here)))

theorem askKept {op : Op Context Data} (awaited : Awaited op) {f : Reply Context Data op → Act Context Data β}
    (rest : ∀ r, (counts max n).Obeys (Kept n) (some (shown n)) (f r)) :
    (counts max n).Obeys (Kept n) (some (shown n)) (ask op >>= f) :=
  keptBind (awaitedKept ⟨awaited,fun _ => trivial⟩) rest

theorem readKept {d : String → Option Nat} {t : String} {f : Option Nat → Act Context Data β}
    (rest : (counts max n).Obeys (Kept n) (some d) (f (d t))) :
    (counts max n).Obeys (Kept n) (some d) (ask (.effectChainDepth t) >>= f) := by
  refine obeysAsk (fun _ _ => trivial) (fun depth _ => ?_)
  by_cases right : depth = d t
  · subst right
    have stays : (counts max n).after (some d) (.effectChainDepth t : Op Context Data) (d t) = some d := by simp [counts]
    rw [stays]
    exact rest
  · have denied : (counts max n).after (some d) (.effectChainDepth t : Op Context Data) depth = none := by simp [counts,right]
    rw [denied]
    exact voidKept _

theorem setKept {d : String → Option Nat} {t : String} {depth : Option Nat} {f : Unit → Act Context Data β} (small : depth.getD 0 ≤ max)
    (rest : ∀ r, (counts max n).Obeys (Kept n) (some (Function.update d t depth)) (f r)) :
    (counts max n).Obeys (Kept n) (some d) (ask (.setEffectChainDepth t depth) >>= f) :=
  obeysAsk (fun _ _ => small) (fun r _ => rest r)

theorem shownGet (n : String → Nat) (t : String) : (shown n t).getD 0 = n t := by
  unfold shown
  split <;> simp_all

theorem shownEntered (t : String) : Function.update (shown n) t (some (n t + 1)) = shown (entered n t) := by
  funext other
  by_cases same : other = t
  · subst same
    simp [shown,entered]
  · simp [shown,entered,same]

theorem shownLeft (t : String) : Function.update (shown (entered n t)) t (if n t = 0 then none else some (n t)) = shown n := by
  funext other
  by_cases same : other = t
  · subst same
    simp [shown]
  · simp [shown,entered,same]

theorem frameKept {request : EffectRequest Context Data} {name} (room : n request.transactionId < max) :
    (counts max n).Obeys (Kept n) (some (shown n)) (Actor.runEffectFrame name (n request.transactionId + 1) request) := by
  unfold Actor.runEffectFrame
  refine setKept room (fun _ => ?_)
  rw [shownEntered]
  refine obeysAsk (fun d here => ⟨(Option.some.inj here).symm,room⟩) (fun ran _ => readKept ?_)
  have depth : shown (entered n request.transactionId) request.transactionId = some (n request.transactionId + 1) := by
    simp [shown,entered]
  rw [depth]
  refine setKept ?_ (fun _ => ?_)
  · split
    · exact Nat.zero_le _
    · exact Nat.le_of_lt room
  · simp only [Option.getD_some,Nat.add_sub_cancel,shownLeft]
    cases ran <;> exact .inr rfl

theorem singleKept {t state item baseline} {context : Context} (limit : actor.maxEffectChainDepth = max) :
    (counts max n).Obeys (Kept n) (some (shown n)) (actor.invokeSingleEffect t state context baseline item : Act Context Data Unit) := by
  unfold Actor.invokeSingleEffect
  split
  · split <;> exact .inr rfl
  · refine readKept ?_
    rw [shownGet]
    dsimp only
    split
    · exact .inr rfl
    · rename_i room
      refine askKept (by trivial) (fun revision => keptBind (calmKept rereadAsks consultsCalm) (fun latest => ?_))
      exact @frameKept _ _ max n _ _ (by dsimp only; omega)

theorem effectsKept {t state effects} {context : Context} (limit : actor.maxEffectChainDepth = max) :
    (counts max n).Obeys (Kept n) (some (shown n)) (actor.invokeEffects t state context effects : Act Context Data Unit) := by
  refine askKept (by trivial) (fun revision => ?_)
  induction effects with
  | nil => exact .inr rfl
  | cons item rest ih =>
    rw [List.foldlM_cons]
    exact keptBind (singleKept limit) (fun _ => ih)

section
variable {snapshot : TransactionSnapshot Context Data} {event : String} {stepStartedAt : Int} {metadata : Metadata Data}
  {w : Working Context Data}

theorem concludeKept (limit : actor.maxEffectChainDepth = max) {input status value steps duration error} :
    (counts max n).Obeys (Kept n) (some (shown n)) (actor.conclude snapshot event input w status value steps duration error) := by
  unfold Actor.conclude
  refine keptBind (calmKept (asksOne trivial (fun _ => asksExcept)) reportsCalm) (fun _ => ?_)
  refine keptBind (calmKept terminalHooksAsks reportsCalm) (fun _ => askKept (by trivial) (fun before => ?_))
  refine keptBind (effectsKept limit) (fun _ => askKept (by trivial) (fun revision => ?_))
  have dropped : (counts max n).Obeys (Kept n) (some (shown n)) (Actor.dropRevision snapshot) := by
    refine readKept ?_
    split
    · exact awaitedKept ⟨trivial,fun _ => trivial⟩
    · exact .inr rfl
  refine keptBind dropped (fun _ => keptBind (calmKept rereadAsks consultsCalm) (fun latest => ?_))
  cases latest <;> exact .inr rfl

theorem settleStepKept (limit : actor.maxEffectChainDepth = max) {input failed} : (counts max n).Obeys (Kept n) (some (shown n))
    (actor.settleStep snapshot event metadata input stepStartedAt w failed) := by
  have settled {w : Working Context Data} {status lastError completedAt append} :
      (counts max n).Obeys (Kept n) (some (shown n)) (Actor.settle snapshot w status lastError completedAt append) :=
    awaitedKept (asksBind (asksOne trivial (fun _ => asksExcept)) (fun _ => ⟨trivial,fun _ => trivial⟩))
  cases failed with
  | some step => exact askKept (by trivial) (fun completedAt => keptBind settled (fun _ => concludeKept limit))
  | none =>
    refine keptBind (calmKept (cascadeAsks 20 w) worksCalm) (fun w => askKept (by trivial) (fun completedAt => ?_))
    exact keptBind settled (fun _ => concludeKept limit)

theorem executeKept (limit : actor.maxEffectChainDepth = max) {rawInput} : (counts max n).Obeys (Kept n) (some (shown n))
    (actor.executeTransitionOnSnapshot snapshot event rawInput metadata) := by
  unfold Actor.executeTransitionOnSnapshot
  dsimp only
  split
  · exact .inr rfl
  · refine keptBind (calmKept validateInputsAsks consultsCalm) (fun inputs => ?_)
    refine keptBind (calmKept (asksOne trivial (fun _ => asksExcept)) consultsCalm) (fun _ => askKept (by trivial) (fun startedAt => ?_))
    refine keptBind (calmKept leaseAsks (fun _ => id)) (fun version => keptBind (calmKept (runMatchesAsks _ _) worksCalm) (fun ran => ?_))
    exact settleStepKept limit

end

theorem transitionKept (limit : actor.maxEffectChainDepth = max) {t event input fields} :
    (counts max n).Obeys (Kept n) (some (shown n)) (actor.transition t event input fields : Act Context Data _) := by
  refine askKept (by trivial) (fun found => ?_)
  cases found with
  | none => exact .inr rfl
  | some snapshot =>
    dsimp only
    split
    · exact executeKept limit
    · exact .inr rfl

theorem startKept (limit : actor.maxEffectChainDepth = max) {initialContext : Context} {customTransactionId} :
    (counts max n).Obeys (Kept n) (some (shown n)) (actor.startTransaction initialContext customTransactionId : Act Context Data _) := by
  have thrown {α : Type} {x : Except DfsmError α} : (orThrow x : Act Context Data α).Asks Op.Calm := asksExcept
  have chosen : (Actor.chosenId customTransactionId : Act Context Data String).Asks Op.Calm := by
    cases customTransactionId with
    | none => exact ⟨trivial,fun _ => trivial⟩
    | some id => trivial
  refine askKept (by trivial) (fun validated => keptBind (calmKept thrown (fun _ => id)) (fun context => ?_))
  refine keptBind (calmKept chosen (fun _ => id)) (fun txId => askKept (by trivial) (fun startedAt => ?_))
  refine askKept (by trivial) (fun created => keptBind (calmKept thrown (fun _ => id)) (fun _ => ?_))
  refine keptBind (calmKept emitCalm (fun _ => id)) (fun _ => keptBind (calmKept terminalHooksAsks reportsCalm) (fun _ => ?_))
  exact keptBind (effectsKept limit) (fun _ => .inr rfl)

theorem beginsKept (limit : actor.maxEffectChainDepth = max) {request : Option (EffectRequest Context Data)} {call next inner caught}
    (begun : begins actor request call next = some (inner,caught)) :
    (counts max n).Obeys (Kept n) (some (shown n)) inner := by
  cases call with
  | runEffect name payload =>
    obtain ⟨r,_,same⟩ := Option.map_eq_some_iff.mp begun
    cases same
    exact keptBind (singleKept limit) (fun _ => .inr rfl)
  | transition t event input metadata =>
    cases begun
    exact keptBind (transitionKept limit) (fun _ => .inr rfl)
  | startTransaction context id =>
    cases begun
    exact keptBind (startKept limit) (fun _ => .inr rfl)
  | own query => cases begun

end

/-! The stack: each frame keeps the counters for the frames below it. -/

theorem activeTop {f f' : Frame Context Data} {below : List (Frame Context Data)} (same : f.request = f'.request) :
    active (f::below) = active (f'::below) := by
  funext t
  simp [active,List.countP_cons,same]

theorem activeEntered {stack : List (Frame Context Data)} {request : EffectRequest Context Data} {code : Code Context Data} :
    active (.running (some request) code::stack) = entered (active stack) request.transactionId := by
  funext t
  by_cases here : t = request.transactionId
  · subst here
    simp [active,entered,Frame.request]
  · simp [active,entered,Frame.request,here,Ne.symm here]

/-- The frames that wait, for an effect with this request; the code outside waits for none. -/
def Waits (max : Nat) : List (Frame Context Data) → Option (EffectRequest Context Data) → Prop
  | [], above => above = none
  | .running _ _::_, _ => False
  | .waiting request inner caught::below, above => Waits max below request ∧ ∃ name effect next,
      above = some effect ∧ inner = Program.ask (.effect name effect) next ∧
      ∀ r, (counts max (active (.waiting request inner caught::below))).Obeys (Kept (active (.waiting request inner caught::below)))
        (some (shown (entered (active (.waiting request inner caught::below)) effect.transactionId))) (next r)

/-- The innermost frame goes on from counters that are right for it. -/
def Stands (max : Nat) (depths : String → Option Nat) : List (Frame Context Data) → Prop
  | [] => False
  | .running request code::below => Waits max below request ∧ depths = shown (active (.running request code::below))
  | .waiting request inner caught::below => Waits max below request ∧
      (counts max (active (.waiting request inner caught::below))).Obeys (Kept (active (.waiting request inner caught::below)))
        (some depths) inner

/-- No counter is beyond the limit, and no more effects are active. -/
def Small (max : Nat) (c : Config Context Data) : Prop := ∀ t, (c.depths t).getD 0 ≤ max ∧ active c.stack t ≤ max

section
variable {actor : Actor} {effects : String → EffectRequest Context Data → Code Context Data} {c c' : Config Context Data}

theorem servedAfter {max n} {depths depths' : String → Option Nat} {op : Op Context Data} {r : Reply Context Data op}
    (served : Serves depths op r depths') : (counts max n).after (some depths) op r = some depths' := by
  cases op with
  | effectChainDepth id =>
    obtain ⟨rfl,rfl⟩ := served
    simp [counts]
  | setEffectChainDepth id depth =>
    cases served
    rfl
  | _ =>
    cases served
    rfl

theorem awaitedShown {max n} {depths : String → Option Nat} {op : Op Context Data} (awaited : Awaited op)
    (allowed : (counts max n).allowed (some depths) op) : depths = shown n := by
  have here := allowed depths rfl
  cases op <;> first | contradiction | exact here

theorem keptShown {n : String → Nat} {depths : String → Option Nat} (kept : some depths = none ∨ some depths = some (shown n)) :
    depths = shown n := by
  rcases kept with none_ | same
  · contradiction
  · exact Option.some.inj same

theorem stepStands (stands : Stands actor.maxEffectChainDepth c.depths c.stack) (step : Step actor effects c c') :
    Stands actor.maxEffectChainDepth c'.depths c'.stack := by
  cases step with
  | own r =>
    obtain ⟨waits,same⟩ := stands
    exact ⟨waits,same.trans (congrArg shown (activeTop rfl))⟩
  | @called depths request call next inner caught below begun =>
    obtain ⟨waits,same⟩ := stands
    refine ⟨waits,?_⟩
    dsimp only at same ⊢
    rw [same,@activeTop _ _ _ (.waiting _ inner caught) _ rfl]
    exact beginsKept rfl begun
  | @served depths request op r depths' caught below next direct served =>
    obtain ⟨waits,obeys⟩ := stands
    refine ⟨waits,?_⟩
    have rest := obeys.2 r trivial
    rw [servedAfter served] at rest
    exact rest
  | thrown awaited e =>
    obtain ⟨waits,obeys⟩ := stands
    exact ⟨waits,awaitedShown awaited obeys.1⟩
  | entered =>
    obtain ⟨waits,obeys⟩ := stands
    obtain ⟨same,_⟩ := obeys.1 _ rfl
    refine ⟨⟨waits,_,_,_,rfl,rfl,fun r => ?_⟩,same.trans (congrArg shown activeEntered.symm)⟩
    have rest := obeys.2 r trivial
    rw [same] at rest
    exact rest
  | left =>
    obtain ⟨⟨waits,_,_,_,above,inner,rest⟩,same⟩ := stands
    cases above
    cases inner
    dsimp only at same ⊢
    rw [same,activeEntered]
    exact ⟨waits,rest _⟩
  | threw =>
    obtain ⟨⟨waits,_,_,_,above,inner,rest⟩,same⟩ := stands
    cases above
    cases inner
    dsimp only at same ⊢
    rw [same,activeEntered]
    exact ⟨waits,rest _⟩
  | returned =>
    obtain ⟨waits,kept⟩ := stands
    exact ⟨waits,keptShown kept⟩
  | raised =>
    obtain ⟨waits,kept⟩ := stands
    exact ⟨waits,keptShown kept⟩

theorem servedSmall {max n} {depths depths' : String → Option Nat} {op : Op Context Data} {r : Reply Context Data op}
    (allowed : (counts max n).allowed (some depths) op) (served : Serves depths op r depths') (t : String)
    (small : (depths t).getD 0 ≤ max) : (depths' t).getD 0 ≤ max := by
  cases op with
  | setEffectChainDepth id depth =>
    cases served
    by_cases here : t = id
    · subst here
      rw [Function.update_self]
      exact allowed depths rfl
    · rw [Function.update_of_ne here]
      exact small
  | effectChainDepth id =>
    cases served.2
    exact small
  | _ =>
    cases served
    exact small

theorem stepSmall (stands : Stands actor.maxEffectChainDepth c.depths c.stack) (small : Small actor.maxEffectChainDepth c)
    (step : Step actor effects c c') : Small actor.maxEffectChainDepth c' := by
  have popped {request : Option (EffectRequest Context Data)} {code : Code Context Data} {below : List (Frame Context Data)} {depths}
      (small : Small actor.maxEffectChainDepth ⟨depths,.running request code::below⟩) : Small actor.maxEffectChainDepth ⟨depths,below⟩ := by
    intro t
    refine ⟨(small t).1,Nat.le_trans ?_ (small t).2⟩
    exact List.Sublist.countP_le (List.sublist_cons_self _ _)
  cases step with
  | own r => exact small
  | called begun => exact small
  | @served depths request op r depths' caught below next direct served =>
    intro t
    exact ⟨servedSmall stands.2.1 served t (small t).1,(small t).2⟩
  | thrown awaited e => exact small
  | @entered depths request name inner caught below next =>
    intro t
    refine ⟨(small t).1,?_⟩
    have room := (stands.2.1 _ rfl).2
    dsimp only
    rw [activeEntered,entered]
    by_cases here : t = inner.transactionId
    · subst here
      rw [Function.update_self]
      exact room
    · rw [Function.update_of_ne here]
      exact (small t).2
  | left => exact popped small
  | threw => exact popped small
  | returned => exact small
  | raised => exact small

theorem reachesStands {outside : Code Context Data} (reaches : Reaches actor effects outside c) :
    Stands actor.maxEffectChainDepth c.depths c.stack ∧ Small actor.maxEffectChainDepth c := by
  induction reaches with
  | refl =>
    refine ⟨⟨rfl,?_⟩,fun t => ⟨Nat.zero_le _,Nat.zero_le _⟩⟩
    funext t
    rfl
  | tail _ step ih => exact ⟨stepStands ih.1 step,stepSmall ih.1 ih.2 step⟩

theorem standsRest {max : Nat} {depths : String → Option Nat} {stack : List (Frame Context Data)} (stands : Stands max depths stack)
    (rest : AtRest stack) : depths = shown (active stack) := by
  cases stack with
  | nil => exact stands.elim
  | cons f below =>
    cases f with
    | running request code => exact stands.2
    | waiting request inner caught =>
      cases inner with
      | done code => exact keptShown stands.2
      | fail e => exact keptShown stands.2
      | ask op next => exact awaitedShown rest stands.2.1

theorem nextRefused {t : String} {state : StateValue} {context : Context} {revision : Nat} {item : EffectInvocation Data} {name : String}
    {depth : Option Nat} (known : actor.resolveEffect item.handler = some name) (full : depth.getD 0 = actor.maxEffectChainDepth) :
    ∃ next, actor.invokeSingleEffect t state context revision item = Program.ask (.effectChainDepth t) next ∧
      next depth = .fail (.maxEffectChainDepth actor.maxEffectChainDepth t name) := by
  simp only [Actor.invokeSingleEffect,known]
  refine ⟨_,rfl,?_⟩
  simp only [Program.bind,full,Nat.lt_succ_self,if_true]

/-- The effect chain guard, whatever the outside code and the effects do. -/
theorem chainGuarded {outside : Code Context Data} (reaches : Reaches actor effects outside c) : Guarded actor c := by
  obtain ⟨stands,small⟩ := reachesStands reaches
  refine ⟨fun rest t => ?_,small,fun rest t full state context revision item name known => ?_⟩
  · rw [standsRest stands rest]
    rfl
  · refine nextRefused known ?_
    rw [standsRest stands rest,shownGet]
    exact full

end

/-! A bell that rings again while it rings. -/

def bell : RawMachine where
  id := "bell"
  initial := some "idle"
  states := [("idle",{ key := "idle", path := "idle", type := .atomic, entry := ["ring"] })]

def ringer : Actor where
  machine := injectErrorState bell
  actorId := "porter"
  compiledBindings _ := none
  resolveCompensate _ := none
  resolveEffect := some

def ring : String → EffectRequest Unit Unit → Code Unit Unit := fun _ _ => .ask (.runEffect "ring" none) (fun _ => .done ())

/-- Hung up once. -/
def hang : Code Unit Unit := .ask (.startTransaction () (some "t")) (fun _ => .done ())

def answered (depths : String → Option Nat) : (op : Op Unit Unit) → Reply Unit Unit op × (String → Option Nat)
  | .effectChainDepth id => (depths id,depths)
  | .setEffectChainDepth id depth => ((),Function.update depths id depth)
  | op => (politeUser op,depths)

theorem answeredServes (depths : String → Option Nat) (op : Op Unit Unit) : Serves depths op (answered depths op).1 (answered depths op).2 := by
  cases op <;> first | exact ⟨rfl,rfl⟩ | exact rfl

/-- So many replies on, or at its first effect. -/
def upTo : Nat → (String → Option Nat) → Program (Reply Unit Unit) DfsmError (Code Unit Unit) →
    (String → Option Nat) × Program (Reply Unit Unit) DfsmError (Code Unit Unit)
  | n+1, depths, .ask op next =>
    if isEffect op then (depths,.ask op next) else upTo n (answered depths op).2 (next (answered depths op).1)
  | _, depths, p => (depths,p)

theorem upToReaches (actor : Actor) (effects : String → EffectRequest Unit Unit → Code Unit Unit)
    (request : Option (EffectRequest Unit Unit)) (caught : DfsmError → Code Unit Unit) (below : List (Frame Unit Unit)) (n : Nat)
    (depths : String → Option Nat) (p : Program (Reply Unit Unit) DfsmError (Code Unit Unit)) :
    ReflTransGen (Step actor effects) ⟨depths,.waiting request p caught::below⟩
      ⟨(upTo n depths p).1,.waiting request (upTo n depths p).2 caught::below⟩ := by
  induction n generalizing depths p with
  | zero => cases p <;> exact .refl
  | succ n ih =>
    cases p with
    | done code => exact .refl
    | fail e => exact .refl
    | ask op next =>
      rw [upTo]
      split
      · exact .refl
      · rename_i other
        exact (ih _ _).head (.served (Bool.not_eq_true _ ▸ other) (answeredServes depths op))

/-- The first ring. -/
theorem chainGuardedRing : ∃ c, Reaches ringer ring hang c ∧ active c.stack "t" = 1 ∧ Guarded ringer c := by
  have start : Reaches ringer ring hang _ := .single (.called rfl)
  have waits := start.trans (upToReaches ringer ring _ _ _ 20 _ _)
  have rings := waits.tail .entered
  exact ⟨_,rings,by decide,chainGuarded rings⟩

end Dfsm.Chaining
