import Dfsm.Runtime.Fencing
import Dfsm.Runtime.Watching

/-! Terminal notification. A settled terminal status is owed its hooks by the call that has
written it; recovery and clean-up write terminal statuses and call no hooks. -/
namespace Dfsm
open Protocol Program Act

variable {Context Data : Type} {t : String}

inductive Notice where
  | complete
  | terminal (status : TransactionStatus)
  deriving DecidableEq

/-- The notices of a status that has been entered. -/
def dues (status : TransactionStatus) : List Notice :=
  if isTerminalStatus status then
    if status = .COMPLETED then [.complete,.terminal status] else [.terminal status]
  else []

def HookEvent.notice (t : String) : HookEvent Context Data → Option Notice
  | .onComplete id _ _ _ _ => if id = t then some .complete else none
  | .onTerminal id _ _ _ status _ _ => if id = t then some (.terminal status) else none
  | _ => none

/-- Where a call stands: the notices it owes, or a listing it has taken no lease after. -/
inductive Notes where
  | owing (notices : List Notice)
  | listed

namespace Notes

def debt : Notes → List Notice
  | .owing notices => notices
  | .listed => []

def written : Notes → TransactionStatus → Notes
  | .owing _, status => .owing (dues status)
  | .listed, .IN_FLIGHT => .owing []
  | .listed, _ => .listed

def after (t : String) (n : Notes) : (op : Op Context Data) → Reply Context Data op → Notes
  | .createTransaction record, .ok _ => if record.transactionId = t then .owing (dues record.status) else n
  | .updateTransaction id _ patch _, .ok _ => if id = t then (patch.status.map n.written).getD n else n
  | .queryTransactions filter nowTimestamp threshold, found =>
    if (Dfsm.listed t ⟨.queryTransactions filter nowTimestamp threshold,found⟩).isSome then .listed else n
  | .hook event, .ok _ => if (event.notice t).isSome then .owing n.debt.tail else n
  | _, _ => n

end Notes

/-- With hooks that do not throw: what is owed is paid in turn, before anything else is
written. -/
def notes (t : String) : Protocol (Reply Context Data) Notes where
  allowed n op := match op with
    | .createTransaction record => record.transactionId = t → n = .owing []
    | .updateTransaction id _ _ _ => id = t → n.debt = []
    | .queryTransactions _ _ _ => n.debt = []
    | .hook event => ∀ notice, event.notice t = some notice → ∃ rest, n = .owing (notice::rest)
    | _ => True
  replies op r := match op, r with
    | .hook _, r => r = .ok ()
    | .getTransaction id, some snapshot => snapshot.transactionId = id
    | .queryTransactions filter _ _, found =>
      (found.map (·.transactionId)).Nodup ∧ ∀ item ∈ found, Store.matchesFilter filter item.toTransactionRecord = true
    | _, _ => True
  after n op r := n.after t op r

/-- A hook that throws pays nothing. -/
example (n : Notes) (event : HookEvent Context Data) (e : DfsmError) : (notes t).after n (.hook event) (.error e) = n := by
  simp only [notes,Notes.after]

theorem noticeHere {event : HookEvent Context Data} {notice} (told : event.notice t = some notice) : event.transactionId = t := by
  cases event <;> first | contradiction | skip
  all_goals
    simp only [HookEvent.notice] at told
    split at told <;> first | contradiction | assumption

/-- At the end of a call, however it ends, nothing is owed. -/
abbrev Paid {α : Type} : Notes → Except DfsmError α → Prop := Finishes (fun n => n.debt = [])

section
variable {α β : Type} {actors : Actor → Prop} {n : Notes}

theorem notesAway {op : Op Context Data} (away : op.about ≠ some t) (scans : ∀ filter now threshold, op ≠ .queryTransactions filter now threshold) :
    (notes t).allowed n op ∧ ∀ r, (notes t).replies op r → n.after t op r = n := by
  cases op with
  | createTransaction record =>
    have other : record.transactionId ≠ t := fun here => away (congrArg some here)
    refine ⟨fun here => absurd here other,fun r _ => ?_⟩
    cases r with
    | ok _ => exact if_neg other
    | error _ => rfl
  | updateTransaction id version patch append =>
    have other : id ≠ t := fun here => away (congrArg some here)
    refine ⟨fun here => absurd here other,fun r _ => ?_⟩
    cases r with
    | ok _ => exact if_neg other
    | error _ => rfl
  | queryTransactions filter now threshold => exact absurd rfl (scans _ _ _)
  | hook event =>
    have untold : event.notice t = none := by
      cases told : event.notice t with
      | none => rfl
      | some notice => exact absurd (congrArg some (noticeHere told)) away
    refine ⟨fun notice told => by rw [untold] at told; contradiction,fun r _ => ?_⟩
    cases r with
    | ok _ => simp only [Notes.after,untold]; rfl
    | error _ => rfl
  | _ => exact ⟨trivial,fun _ _ => rfl⟩

theorem observesNotes {p : Act Context Data α} (asks : p.Asks Op.Observes) : (notes t).Obeys (fun n' _ => n' = n) n p := by
  refine @obeysAsks _ _ _ _ _ (notes t) n _ (· = n) p asks ?_ rfl
  intro n' op same observes
  subst same
  cases op with
  | hook event => cases event <;> first | contradiction | exact ⟨fun _ told => by contradiction,fun r _ => by cases r <;> rfl⟩
  | _ => first | contradiction | exact ⟨trivial,fun _ _ => rfl⟩

theorem worksNotes {p : Act Context Data α} (asks : p.Asks Op.Works) : (notes t).Obeys (fun n _ => n = .owing []) (.owing []) p := by
  refine @obeysAsks _ _ _ _ _ (notes t) _ _ (· = .owing []) p asks ?_ rfl
  intro n op same works
  subst same
  cases op with
  | hook event => cases event <;> first | contradiction | exact ⟨fun _ told => by contradiction,fun r _ => by cases r <;> rfl⟩
  | updateTransaction id version patch append =>
    refine ⟨fun _ => rfl,fun r _ => ?_⟩
    cases r with
    | error _ => rfl
    | ok next =>
      simp only [notes,Notes.after]
      split
      · cases set : patch.status with
        | none => rfl
        | some status => rcases works status set with rfl | rfl <;> rfl
      · rfl
  | _ => first | contradiction | exact ⟨trivial,fun _ _ => rfl⟩

theorem recoversNotes {op : Op Context Data} (recovers : op.Recovers) : (notes t).allowed .listed op ∧
    ∀ r, (notes t).replies op r → Notes.listed.after t op r = .listed := by
  cases op with
  | hook event => cases event <;> first | contradiction | exact ⟨fun _ told => by contradiction,fun r _ => by cases r <;> rfl⟩
  | updateTransaction id version patch append =>
    refine ⟨fun _ => rfl,fun r _ => ?_⟩
    cases r with
    | error _ => rfl
    | ok next =>
      simp only [Notes.after]
      split
      · cases set : patch.status with
        | none => rfl
        | some status => cases status <;> first | rfl | exact absurd set recovers.1
      · rfl
  | _ => first | contradiction | exact ⟨trivial,fun _ _ => rfl⟩

theorem notesWatch : Watches (notes t : Protocol (Reply Context Data) Notes) t (fun n => n.debt = []) (fun n => n = .listed) where
  freshClear n listed := by rw [listed]; rfl
  away n op := notesAway
  scan n _ _ _ found _ _ := ⟨fun mem => if_pos (listedSome.mpr mem),fun absent => if_neg (mt listedSome.mp absent)⟩
  scans n _ _ _ clear := clear
  replies op r possible := by
    cases op with
    | getTransaction => cases r <;> exact possible
    | queryTransactions => exact possible
    | _ => trivial
  recovers n op listed recovers := by
    subst listed
    exact recoversNotes recovers

theorem notesUpdated {version patch next status} {append : List (PendingCompensation Context Data)} (set : patch.status = some status) :
    (notes t).after n (.updateTransaction t version patch append) (.ok next) = n.written status := by
  simp only [notes,Notes.after,if_true,set]
  rfl

theorem emitNotes {event : HookEvent Context Data} {post : Notes → Except DfsmError β → Prop} {f : Unit → Act Context Data β}
    (untold : event.notice t = none) (rest : (notes t).Obeys post n (f ())) : (notes t).Obeys post n (emit event >>= f) := by
  refine And.intro (fun notice told => by rw [untold] at told; contradiction) (fun r returned => ?_)
  cases returned
  have same : (notes t).after n (.hook event) (.ok ()) = n := by simp only [notes,Notes.after,untold]; rfl
  rw [same]
  exact rest

theorem payNotes {event : HookEvent Context Data} {post : Notes → Except DfsmError β → Prop} {f : Unit → Act Context Data β}
    {notice owed} (told : event.notice t = some notice) (rest : (notes t).Obeys post (.owing owed) (f ())) :
    (notes t).Obeys post (.owing (notice::owed)) (emit event >>= f) := by
  refine And.intro (fun notice' told' => ?_) (fun r returned => ?_)
  · cases Option.some.inj (told.symm.trans told')
    exact ⟨owed,rfl⟩
  · cases returned
    have paid : (notes t).after (.owing (notice::owed)) (.hook event) (.ok ()) = .owing owed := by
      simp only [notes,Notes.after,told]; rfl
    rw [paid]
    exact rest

end

section
variable {actors : Actor → Prop} {actor : Actor} {snapshot : TransactionSnapshot Context Data} {event : String}
  {stepStartedAt : Int} {metadata : Metadata Data} {n : Notes}

theorem observesPaid {α β : Type} {p : Act Context Data α} {f : α → Act Context Data β} (asks : p.Asks Op.Observes) (paid : n.debt = [])
    (rest : ∀ a, (notes t).Obeys Paid n (f a)) : (notes t).Obeys Paid n (p >>= f) := by
  refine obeysBind (obeysMono (observesNotes asks) ?_)
  intro n' r same
  subst same
  cases r with
  | ok a => exact rest a
  | error e => exact paid

theorem updatePaid {β : Type} {version patch append status} {f : Nat → Act Context Data β} (set : patch.status = some status)
    (paid : n.debt = []) (rest : ∀ v, (notes t).Obeys Paid (n.written status) (f v)) :
    (notes t).Obeys Paid n (updateTransaction t version patch append >>= f) := by
  refine And.intro (fun _ => paid) (fun r _ => ?_)
  cases r with
  | error _ => exact paid
  | ok v =>
    rw [notesUpdated set]
    exact rest v

theorem terminalHooksPaid {β : Type} {state error} {context : Context} {status} {f : Unit → Act Context Data β}
    (rest : (notes t).Obeys Paid (.owing []) (f ())) : (notes t).Obeys Paid (.owing (dues status))
      (actor.emitSettledTerminalHooks t state status context error >>= f) := by
  unfold Actor.emitSettledTerminalHooks dues
  by_cases final : isTerminalStatus status = true
  · by_cases complete : status = .COMPLETED
    · subst complete
      simp only [final,if_true,bind_assoc]
      exact payNotes (if_pos rfl) (payNotes (if_pos rfl) rest)
    · simp only [final,complete,if_true,if_false]
      exact payNotes (if_pos rfl) rest
  · simp only [final]
    exact rest

theorem settlePaid {β : Type} {w : Working Context Data} {status lastError completedAt append} {f : Unit → Act Context Data β}
    (rest : (notes snapshot.transactionId).Obeys Paid (.owing (dues status)) (f ())) :
    (notes snapshot.transactionId).Obeys Paid (.owing []) (Actor.settle snapshot w status lastError completedAt append >>= f) := by
  unfold Actor.settle
  rw [bind_assoc]
  exact updatePaid rfl rfl (fun _ => ⟨trivial,fun _ _ => rest⟩)

theorem concludePaid {input value steps duration error} {w : Working Context Data} {status} :
    (notes snapshot.transactionId).Obeys Paid (.owing (dues status))
      (actor.conclude snapshot event input w status value steps duration error) := by
  unfold Actor.conclude
  refine emitNotes rfl (terminalHooksPaid (obeysAsk trivial (fun _ _ => observesPaid effectsAsks rfl (fun _ => ?_))))
  refine obeysAsk trivial (fun _ _ => observesPaid dropAsks rfl (fun _ => observesPaid (asksMono rereadAsks consultsObserves) rfl (fun latest => ?_)))
  cases latest <;> exact rfl

theorem settleStepPaid {input failed} {w : Working Context Data} : (notes snapshot.transactionId).Obeys Paid (.owing [])
    (actor.settleStep snapshot event metadata input stepStartedAt w failed) := by
  cases failed with
  | some step => exact obeysAsk trivial (fun _ _ => settlePaid concludePaid)
  | none =>
    refine obeysBind (obeysMono (worksNotes (cascadeAsks 20 w)) ?_)
    intro n r same
    subst same
    cases r with
    | error e => exact rfl
    | ok w => exact obeysAsk trivial (fun _ _ => settlePaid concludePaid)

theorem executePaid {rawInput} (ready : n = .owing [] ∨ n = .listed ∧ snapshot.status ≠ .IN_FLIGHT) :
    (notes snapshot.transactionId).Obeys Paid n (actor.executeTransitionOnSnapshot snapshot event rawInput metadata) := by
  have clear : n.debt = [] := by
    rcases ready with rfl | ⟨rfl,_⟩ <;> rfl
  unfold Actor.executeTransitionOnSnapshot
  dsimp only
  split
  · exact clear
  · refine observesPaid (asksMono validateInputsAsks consultsObserves) clear (fun inputs => emitNotes rfl (obeysAsk trivial (fun startedAt _ => ?_)))
    have stepped (version : Nat) : (notes snapshot.transactionId).Obeys Paid (.owing []) (do
        let ran ← actor.runMatches snapshot event startedAt metadata
          ((resolveTransitionsForEvent actor.machine.toRawMachine snapshot.stateValue event).zip inputs)
          { currentVersion := version, workingState := snapshot.stateValue, workingContext := snapshot.context }
        actor.settleStep snapshot event metadata (inputs.headD rawInput) startedAt ran.1 ran.2) := by
      refine obeysBind (obeysMono (worksNotes (runMatchesAsks _ _)) ?_)
      intro n r same
      subst same
      cases r with
      | error e => exact rfl
      | ok p => exact settleStepPaid
    unfold Actor.takeLease
    split
    · rename_i flying
      rcases ready with rfl | ⟨_,free⟩
      · exact stepped _
      · exact absurd flying free
    · refine updatePaid rfl clear (fun version => ?_)
      rcases ready with rfl | ⟨rfl,_⟩
      · exact stepped version
      · exact stepped version

theorem transitionPaid {input fields} :
    (notes t).Obeys Paid (.owing []) (actor.transition t event input fields : Act Context Data _) := by
  refine obeysAsk trivial (fun found known => ?_)
  cases found with
  | none => exact rfl
  | some snapshot =>
    obtain rfl : snapshot.transactionId = t := known
    dsimp only
    split
    · exact executePaid (.inl rfl)
    · exact rfl

theorem startPaid {context : Context} {customTransactionId} :
    (notes t).Obeys Paid (.owing []) (actor.startTransaction context customTransactionId : Act Context Data String) := by
  unfold Actor.startTransaction
  have chosen : (Actor.chosenId customTransactionId : Act Context Data String).Asks Op.Observes := by
    cases customTransactionId with
    | some id => trivial
    | none => exact ⟨trivial,fun _ => trivial⟩
  refine obeysAsk trivial (fun r _ => observesPaid asksExcept rfl (fun initial => ?_))
  refine observesPaid chosen rfl (fun txId => obeysAsk trivial (fun startedAt _ => ?_))
  refine And.intro (fun _ => rfl) (fun r _ => ?_)
  cases r with
  | error _ => exact rfl
  | ok _ =>
    simp only [notes,Notes.after]
    by_cases here : txId = t
    · subst here
      simp only [if_true]
      exact emitNotes rfl (terminalHooksPaid (observesPaid effectsAsks rfl (fun _ => rfl)))
    · simp only [here,if_false]
      refine obeysMono (watchBeside notesWatch here (@startedStages _ _ (fun _ => True) actor _ _ _ _ _)) ?_
      intro n r same
      subst same
      cases r <;> exact rfl

end

theorem operationsPaid {actors : Actor → Prop} (p : Act Context Data Unit) (called : Operation actors p) :
    (notes t).Obeys (fun n _ => n.debt = []) (.owing []) p := by
  have replays (actor : Actor) (_ : actors actor) : Replays (notes t : Protocol (Reply Context Data) Notes) t
      (fun n => n.debt = []) (fun n => n = .listed) actor := by
    intro n snapshot event input metadata here idle listed
    subst here
    exact executePaid (.inr ⟨listed,by simp [idle]⟩)
  rcases called with ⟨actor,context,id,member,rfl⟩ | transition | sweep | clean
  · exact watchVoid startPaid (fun n r paid => by cases r <;> exact paid)
  · exact watchTransitionCall notesWatch rfl (fun _ _ _ _ _ => transitionPaid) p transition
  · exact watchSweepCall notesWatch rfl replays p sweep
  · exact watchCleanUpCall notesWatch rfl p clean

end Dfsm
