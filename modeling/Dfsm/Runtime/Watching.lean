import Dfsm.Runtime.Phases
import Dfsm.Runtime.Requests

/-! Protocols that watch one transaction. What is done about the others leaves them where
they are, and a scan that lists the transaction starts them afresh; with this a sweep or a
clean-up keeps to such a protocol as soon as a replayed step does. -/
namespace Dfsm
open Protocol Program Act

variable {Context Data : Type} {P : Type}

/-- `clear`: nothing is left to do. `fresh`: nothing but recovery has been done since a scan. -/
structure Watches (rules : Protocol (Reply Context Data) P) (t : String) (clear fresh : P → Prop) : Prop where
  freshClear : ∀ n, fresh n → clear n
  away : ∀ n op, op.about ≠ some t → (∀ filter now threshold, op ≠ .queryTransactions filter now threshold) →
    rules.allowed n op ∧ ∀ r, rules.replies op r → rules.after n op r = n
  scan : ∀ n filter now threshold found, clear n → rules.replies (.queryTransactions filter now threshold) found →
    (t ∈ found.map (·.transactionId) → fresh (rules.after n (.queryTransactions filter now threshold) found)) ∧
    (t ∉ found.map (·.transactionId) → rules.after n (.queryTransactions filter now threshold) found = n)
  scans : ∀ n filter now threshold, clear n → rules.allowed n (.queryTransactions filter now threshold)
  replies : ∀ op r, rules.replies op r → match op, r with
    | .getTransaction id, some snapshot => snapshot.transactionId = id
    | .queryTransactions filter _ _, found =>
      (found.map (·.transactionId)).Nodup ∧ ∀ item ∈ found, Store.matchesFilter filter item.toTransactionRecord = true
    | _, _ => True
  recovers : ∀ n op, fresh n → op.Recovers → rules.allowed n op ∧ ∀ r, rules.replies op r → fresh (rules.after n op r)

/-- However a part of a call ends. -/
abbrev Finishes (clear : P → Prop) {α : Type} : P → Except DfsmError α → Prop := Within (fun n _ => clear n) clear

/-- What is left of a scan: where the transaction is still to come, it is fresh. -/
structure Awaits (clear fresh : P → Prop) (t : String) (left : List (TransactionSummary Context Data)) (n : P) : Prop where
  once : (left.map (·.transactionId)).Nodup
  clear : clear n
  fresh : ∀ item ∈ left, item.transactionId = t → fresh n

/-- After a part that is about one transaction. -/
def About (clear : P → Prop) (t id : String) (n : P) {α : Type} (n' : P) (_ : Except DfsmError α) : Prop :=
  clear n' ∧ (id ≠ t → n' = n)

section
variable {rules : Protocol (Reply Context Data) P} {t : String} {clear fresh : P → Prop} {actors : Actor → Prop} {α : Type} {n n' : P}
  {item : TransactionSummary Context Data} {left : List (TransactionSummary Context Data)}

theorem awaitsRest (awaits : Awaits clear fresh t (item::left) n) (about : clear n' ∧ (item.transactionId ≠ t → n' = n)) :
    Awaits clear fresh t left n' := by
  obtain ⟨unlike,once⟩ := List.nodup_cons.mp awaits.once
  refine ⟨once,about.1,fun other mem here => ?_⟩
  have apart : item.transactionId ≠ t := fun same => unlike (List.mem_map.mpr ⟨other,mem,here.trans same.symm⟩)
  rw [about.2 apart]
  exact awaits.fresh other (List.mem_cons_of_mem _ mem) here

variable (watch : Watches rules t clear fresh)
include watch

theorem watchBeside {u : String} (other : u ≠ t) {p : Act Context Data α} {post : Stage Context Data → Except DfsmError α → Prop} {s}
    (obeys : (stages actors u).Obeys post s p) : rules.Obeys (fun n' _ => n' = n) n p := by
  induction p generalizing s with
  | done a => exact rfl
  | fail e => exact rfl
  | ask op next ih =>
    obtain ⟨⟨_,about,allows⟩,rest⟩ := obeys
    have apart : op.about ≠ some t := by
      intro here
      rcases about with none | there
      · rw [none] at here
        contradiction
      · exact other (Option.some.inj (there.symm.trans here))
    have scans (filter now threshold) : op ≠ .queryTransactions filter now threshold := by
      intro same
      subst same
      exact allows
    obtain ⟨allowed,stays⟩ := watch.away n op apart scans
    refine ⟨allowed,fun r possible => ?_⟩
    have known : (stages actors u).replies op r := by
      have known := watch.replies op r possible
      cases op with
      | getTransaction id => cases r <;> exact known
      | _ => trivial
    rw [stays r possible]
    exact ih r (rest r known)

theorem scanAwaits {filter nowTimestamp threshold} {found : List (TransactionSummary Context Data)} (here : clear n)
    (possible : rules.replies (.queryTransactions filter nowTimestamp threshold) found) :
    Awaits clear fresh t found (rules.after n (.queryTransactions filter nowTimestamp threshold) found) := by
  obtain ⟨lists,misses⟩ := watch.scan n filter nowTimestamp threshold found here possible
  refine ⟨(watch.replies _ _ possible).1,?_,fun item mem same => lists (List.mem_map.mpr ⟨item,mem,same⟩)⟩
  by_cases listed : t ∈ found.map (·.transactionId)
  · exact watch.freshClear _ (lists listed)
  · rw [misses listed]
    exact here

theorem watchNow {β : Type} {post : P → Except DfsmError β → Prop} {f : Int → Act Context Data β}
    (rest : ∀ at_, rules.Obeys post n (f at_)) : rules.Obeys post n (now >>= f) := by
  obtain ⟨allowed,stays⟩ := watch.away n .now (by simp [Op.about]) (by simp)
  refine obeysAsk allowed (fun r possible => ?_)
  rw [stays r possible]
  exact rest r

theorem watchDelete {β : Type} {post : P → Except DfsmError β → Prop} {ids : List String} {f : Nat → Act Context Data β}
    (rest : ∀ count, rules.Obeys post n (f count)) : rules.Obeys post n (ask (.deleteTransactions ids) >>= f) := by
  obtain ⟨allowed,stays⟩ := watch.away n (.deleteTransactions ids) (by simp [Op.about]) (by simp)
  refine obeysAsk allowed (fun r possible => ?_)
  rw [stays r possible]
  exact rest r

theorem watchRecovers {p : Act Context Data α} (asks : p.Asks Op.Recovers) (here : fresh n) : rules.Obeys (fun n _ => fresh n) n p :=
  obeysAsks asks watch.recovers here

theorem watchAbout {p : Act Context Data α} {s post} (awaited : item.transactionId = t → fresh n) (here : clear n)
    (asks : p.Asks Op.Recovers) (obeys : (stages actors item.transactionId).Obeys post s p) :
    rules.Obeys (About clear t item.transactionId n) n p := by
  by_cases same : item.transactionId = t
  · exact obeysMono (watchRecovers watch asks (awaited same)) (fun n' r kept => ⟨watch.freshClear _ kept,fun away => absurd same away⟩)
  · refine obeysMono (watchBeside watch same obeys) (fun n' r kept => ?_)
    subst kept
    exact ⟨here,fun _ => rfl⟩

/-- A replayed step starts from a snapshot that has been unlocked. -/
def Replays (rules : Protocol (Reply Context Data) P) (t : String) (clear fresh : P → Prop) (actor : Actor) : Prop :=
  ∀ n (snapshot : TransactionSnapshot Context Data) event input metadata, snapshot.transactionId = t → snapshot.status = .IDLE →
    fresh n → rules.Obeys (Finishes clear) n (actor.executeTransitionOnSnapshot snapshot event input metadata)

theorem watchContinue {actor : Actor} (replays : Replays rules t clear fresh actor) (same : item.transactionId = t) (here : fresh n) :
    rules.Obeys (Finishes clear) n (actor.continueTransaction item) := by
  obtain ⟨allowed,after⟩ := watch.recovers n (.getTransaction item.transactionId) here trivial
  refine obeysAsk allowed (fun found possible => ?_)
  have fresh' := after found possible
  cases found with
  | none => exact watch.freshClear _ fresh'
  | some fullSnap =>
    have known : fullSnap.transactionId = item.transactionId := watch.replies _ _ possible
    have unlocks {β : Type} {m : P} (patch : TransactionUpdatePatch Context Data) (idle : patch.status = some .IDLE)
        {f : Nat → Act Context Data β} (fresh' : fresh m) (rest : ∀ v m, fresh m → rules.Obeys (Finishes clear) m (f v)) :
        rules.Obeys (Finishes clear) m (updateTransaction fullSnap.transactionId fullSnap.version patch >>= f) := by
      obtain ⟨allowed,after⟩ := watch.recovers m (.updateTransaction fullSnap.transactionId fullSnap.version patch []) fresh'
        ⟨by simp [idle],rfl⟩
      refine And.intro allowed (fun r possible => ?_)
      cases r with
      | ok v => exact rest v _ (after _ possible)
      | error e => exact watch.freshClear _ (after _ possible)
    dsimp only
    cases fullSnap.activeStep with
    | none => exact watchNow watch (fun at_ => unlocks _ rfl fresh' (fun _ m kept => watch.freshClear m kept))
    | some activeStep =>
      refine watchNow watch (fun at_ => unlocks _ rfl fresh' (fun v m kept => ?_))
      have replayed := replays m (fullSnap.refreshed v) activeStep.event activeStep.input (.recoveredByActor actor.actorId)
        (known.trans same) rfl kept
      exact obeysSeq (fun n _ => clear n) replayed (fun _ _ done => done)

end

section
variable {rules : Protocol (Reply Context Data) P} {t : String} {clear fresh : P → Prop} (watch : Watches rules t clear fresh)
  {actors : Actor → Prop} {n : P} {item : TransactionSummary Context Data} {actor : Actor} (member : actors actor)
include watch member

theorem watchRecover {mode : OnRestartMode} (replays : Replays rules t clear fresh actor) (awaited : item.transactionId = t → fresh n)
    (here : clear n) : rules.Obeys (About clear t item.transactionId n) n (actor.recover item mode) := by
  have recovered (kept : mode ≠ .DELETE) := @recoverStages _ _ _ _ member item item.status _ kept
  cases mode with
  | STOP =>
    refine watchAbout watch awaited here ?_ (recovered (by simp))
    exact asksOne trivial (fun _ => asksThrow (fun _ => trivial))
  | DELETE => exact watchDelete watch (fun _ => ⟨here,fun _ => rfl⟩)
  | MARK_FAIL =>
    refine watchAbout watch awaited here ?_ (recovered (by simp))
    exact asksOne trivial (fun _ => asksUpdate ⟨by simp [markFailed],rfl⟩ (fun _ => trivial))
  | COMPENSATE => exact watchAbout watch awaited here (asksBind compensateAsks (fun _ => trivial)) (recovered (by simp))
  | CONTINUE =>
    by_cases same : item.transactionId = t
    · refine obeysMono (watchContinue watch replays same (awaited same)) (fun n' r done => ?_)
      cases r <;> exact ⟨done,fun away => absurd same away⟩
    · refine obeysMono (watchBeside watch same (recovered (by simp))) (fun n' r kept => ?_)
      subst kept
      exact ⟨here,fun _ => rfl⟩

theorem watchSweep {threshold} (replays : Replays rules t clear fresh actor) (here : clear n) :
    rules.Obeys (Finishes clear) n (actor.executeRecoverySweep threshold : Act Context Data RecoverySweepReport) := by
  unfold Actor.executeRecoverySweep
  refine watchNow watch (fun sweptAt => obeysAsk (watch.scans n _ _ _ here) (fun found possible => ?_))
  refine obeysSeq _ (obeysFold (fun left n _ => Awaits clear fresh t left n) ?_ found (scanAwaits watch here possible)) ?_
  · intro item left n report awaits
    unfold Actor.sweepTransaction
    split
    · exact awaitsRest awaits ⟨awaits.clear,fun _ => rfl⟩
    · refine obeysSeq (fun n _ => Awaits clear fresh t left n) (obeysAttempt (obeysMono (watchRecover watch member replays
        (awaits.fresh item List.mem_cons_self) awaits.clear) ?_)) ?_
      · exact fun n' r about => awaitsRest awaits about
      · intro n result kept
        rcases result with err | taken
        · exact kept
        · cases taken <;> exact kept
  · intro n report left
    have cleaned : rules.Obeys (Finishes clear) n (actor.retentionCleanUp sweptAt threshold : Act Context Data Nat) := by
      unfold Actor.retentionCleanUp
      split
      · exact left.clear
      · split
        · exact left.clear
        · refine obeysAsk (watch.scans n _ _ _ left.clear) (fun expired possible => ?_)
          have listed := (scanAwaits watch left.clear possible).clear
          split
          · exact listed
          · rw [← bind_pure (ask _)]
            exact watchDelete watch (fun _ => listed)
    refine obeysSeq (fun n _ => clear n) cleaned (fun n deleted done => ?_)
    dsimp only
    split <;> exact done

theorem watchCleanUpTransaction {action report} (awaited : item.transactionId = t → fresh n) (here : clear n) :
    rules.Obeys (About clear t item.transactionId n) n (actor.cleanUpTransaction action report item) := by
  cases action with
  | DELETE => exact ⟨here,fun _ => rfl⟩
  | MARK_FAIL => exact watchAbout watch awaited here failAsks (@failStages _ _ actors item item.status _ _)
  | FORCE_UNLOCK => exact watchAbout watch awaited here unlockAsks (@unlockStages _ _ actors item item.status _)
  | COMPENSATE =>
    have obeys : (stages actors item.transactionId).Obeys (Ends fun _ _ => True) (.scanned item.version item.status) (do
        actor.compensateTransaction item "Compensated via administrative forceCleanUp"
        pure { report with compensated := report.compensated ++ [item.transactionId] }) :=
      obeysSeq _ (compensateStages member) (fun _ _ _ => trivial)
    exact watchAbout watch awaited here (asksBind compensateAsks (fun _ => trivial)) obeys

omit member in
theorem watchCleanUp {options : ForceCleanUpOptions} {machineId threshold}
    {act : CleanUpReport → TransactionSummary Context Data → Act Context Data CleanUpReport}
    (acts : ∀ report item n, (item.transactionId = t → fresh n) → clear n →
      rules.Obeys (About clear t item.transactionId n) n (act report item)) (here : clear n) :
    rules.Obeys (fun n' _ => clear n' ∧ (options.ids ≠ [] → t ∉ options.ids → n' = n)) n
      (cleanUp options machineId threshold act) := by
  unfold cleanUp
  refine watchNow watch (fun startedAt => obeysAsk (watch.scans n _ _ _ here) (fun found possible => ?_))
  have awaits := scanAwaits watch here possible
  have absent (named : options.ids ≠ []) (outside : t ∉ options.ids) : t ∉ found.map (·.transactionId) :=
    (scanOutside (fun _ => .idle) (watch.replies _ _ possible).2 named outside).1
  have kept (named : options.ids ≠ []) (outside : t ∉ options.ids) :=
    (watch.scan n _ _ _ found here possible).2 (absent named outside)
  by_cases stops : (options.dryRun || List.isEmpty found) = true
  · simp only [stops,if_true]
    exact ⟨awaits.clear,kept⟩
  simp only [stops]
  by_cases deletes : options.action = .DELETE
  · simp only [deletes,if_true]
    exact watchDelete watch (fun _ => ⟨awaits.clear,kept⟩)
  · simp only [deletes,if_false]
    refine obeysLoop (fun left n' _ => Awaits clear fresh t left n' ∧ (∀ item ∈ left, item ∈ found) ∧
      (options.ids ≠ [] → t ∉ options.ids → n' = n)) ?_ found ⟨awaits,fun _ => id,kept⟩
      (fun _ _ left => ⟨left.1.clear,left.2.2⟩)
    intro item left n' report ⟨awaits,among,kept⟩
    have acted := acts report item n' (awaits.fresh item List.mem_cons_self) awaits.clear
    refine obeysSeq (fun n' _ => Awaits clear fresh t left n' ∧ (∀ item ∈ left, item ∈ found) ∧
      (options.ids ≠ [] → t ∉ options.ids → n' = n)) (obeysAttempt (obeysMono acted ?_)) ?_
    · intro after r about
      refine ⟨awaitsRest awaits about,fun other mem => among other (List.mem_cons_of_mem _ mem),?_⟩
      intro named outside
      have apart : item.transactionId ≠ t :=
        fun same => absent named outside (List.mem_map.mpr ⟨item,among item List.mem_cons_self,same⟩)
      rw [about.2 apart]
      exact kept named outside
    · intro after r left
      cases r <;> exact left

omit member in
theorem watchRegistry {activeActors : List Actor} (members : ∀ actor ∈ activeActors, actors actor) {options : ForceCleanUpOptions}
    (here : clear n) : rules.Obeys (fun n' _ => clear n' ∧ (options.ids ≠ [] → t ∉ options.ids → n' = n)) n
      (FSMRegistry.forceCleanUp activeActors options) := by
  refine watchCleanUp watch (fun report item n awaited here => ?_) here
  unfold FSMRegistry.cleanUpTransaction
  split
  · exact ⟨here,fun _ => rfl⟩
  · exact watchAbout watch awaited here failAsks (@failStages _ _ actors item item.status _ _)
  · exact watchAbout watch awaited here unlockAsks (@unlockStages _ _ actors item item.status _)
  · split
    · rename_i actor found
      have member := members actor (List.mem_of_find?_eq_some found)
      refine obeysBind (obeysMono (watchCleanUp watch (fun report item n awaited here =>
        watchCleanUpTransaction watch member awaited here) here) ?_)
      intro n' r holds
      have about : clear n' ∧ (item.transactionId ≠ t → n' = n) :=
        ⟨holds.1,fun other => holds.2 (by simp) (by simpa using Ne.symm other)⟩
      cases r <;> exact about
    · have obeys : (stages actors item.transactionId).Obeys (Ends fun _ _ => True) (.scanned item.version item.status) (do
          let updatedAt ← now
          let _ ← updateTransaction item.transactionId item.version
            (compensated none "Compensated via FSMRegistry.forceCleanUp" updatedAt)
          pure { report with compensated := report.compensated ++ [item.transactionId] } : Act Context Data CleanUpReport) :=
        obeysNow (by simp) (fun at_ => obeysUpdate (by simp) ⟨rfl,rfl,.inr (.inr ⟨rfl,.inr rfl⟩)⟩ (leaseless rfl) (fun _ => trivial))
      refine watchAbout watch awaited here ?_ obeys
      exact asksOne trivial (fun _ => asksUpdate ⟨by simp [compensated],rfl⟩ (fun _ => trivial))

end

section
variable {rules : Protocol (Reply Context Data) P} {t : String} {clear fresh : P → Prop} (watch : Watches rules t clear fresh)
  {actors : Actor → Prop} {n : P}

theorem watchVoid {α : Type} {p : Act Context Data α} {post : P → Except DfsmError α → Prop} (obeys : rules.Obeys post n p)
    (done : ∀ n r, post n r → clear n) : rules.Obeys (fun n _ => clear n) n p.void := by
  refine obeysBind (obeysMono obeys ?_)
  intro n r holds
  cases r <;> exact done n _ holds

include watch

theorem watchSweepCall (here : clear n) (replays : ∀ actor, actors actor → Replays rules t clear fresh actor) (p : Act Context Data Unit)
    (called : SweepCall actors p) : rules.Obeys (fun n _ => clear n) n p := by
  obtain ⟨actor,threshold,member,same⟩ := called
  subst same
  exact watchVoid (watchSweep watch member (replays actor member) here) (fun n r done => by cases r <;> exact done)

theorem watchCleanUpCall (here : clear n) (p : Act Context Data Unit) (called : CleanUpCall actors p) :
    rules.Obeys (fun n _ => clear n) n p := by
  rcases called with ⟨actor,options,member,same⟩ | ⟨activeActors,options,members,same⟩
  · subst same
    exact watchVoid (watchCleanUp watch (fun report item n awaited here =>
      watchCleanUpTransaction watch member awaited here) here) (fun _ _ done => done.1)
  · subst same
    exact watchVoid (watchRegistry watch members here) (fun _ _ done => done.1)

theorem watchTransitionCall (here : clear n) (steps : ∀ actor event input fields, actors actor →
      rules.Obeys (Finishes clear) n (actor.transition t event input fields : Act Context Data _))
    (p : Act Context Data Unit) (called : TransitionCall actors p) : rules.Obeys (fun n _ => clear n) n p := by
  obtain ⟨actor,u,event,input,fields,member,same⟩ := called
  subst same
  by_cases own : u = t
  · subst own
    exact watchVoid (steps actor event input fields member) (fun n r done => by cases r <;> exact done)
  · refine watchVoid (watchBeside watch own (transitionStages member)) (fun n' r kept => ?_)
    subst kept
    exact here

end

end Dfsm
