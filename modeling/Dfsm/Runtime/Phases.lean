import Dfsm.Runtime.Lifecycle

/-! The protocol of a call over all transactions: a scan lists some of them, and each is
then taken through the stages of its own. Sweeps, clean-up and transitions keep to it. -/
namespace Dfsm
open Protocol Act

variable {Context Data : Type}

/-- The stage of each transaction. -/
abbrev Phase (Context Data : Type) : Type := String → Stage Context Data

def Phase.scan (phase : Phase Context Data) (found : List (TransactionSummary Context Data)) : Phase Context Data :=
  fun t => match found.find? (·.transactionId = t) with
    | some item => .scanned item.version item.status
    | none => phase t

def lifecycle (actors : Actor → Prop) : Protocol (Reply Context Data) (Phase Context Data) where
  allowed phase op := match op with
    | .createTransaction record => phase record.transactionId = .idle ∧ record.IsNew
    | .deleteTransactions ids => ∀ t ∈ ids, ∃ version status, phase t = .scanned version status
    | op => match op.about with
      | none => True
      | some t => phase t ≠ .ended ∧ (phase t).allows actors op
  replies op r := match op, r with
    | .getTransaction t, some snapshot => snapshot.transactionId = t
    | .queryTransactions filter _ _, found =>
      (found.map (·.transactionId)).Nodup ∧ ∀ item ∈ found, Store.matchesFilter filter item.toTransactionRecord = true
    | _, _ => True
  after phase op r := match op, r with
    | .queryTransactions _ _ _, found => phase.scan found
    | .deleteTransactions ids, _ => fun t => if t ∈ ids then .ended else phase t
    | op, r => match op.about with
      | none => phase
      | some t => Function.update phase t ((phase t).next op r)

variable {actors : Actor → Prop} {t : String}

theorem allowedAbout {phase : Phase Context Data} {op : Op Context Data} (here : op.about = some t)
    (create : ∀ record, op ≠ .createTransaction record) :
    (lifecycle actors).allowed phase op ↔ phase t ≠ .ended ∧ (phase t).allows actors op := by
  cases op <;> first | contradiction | exact absurd rfl (create _) | (cases Option.some.inj here; rfl)

theorem afterAbout {phase : Phase Context Data} {op : Op Context Data} {r} (here : op.about = some t) :
    (lifecycle actors).after phase op r = Function.update phase t ((phase t).next op r) := by
  cases op <;> first | contradiction | (cases Option.some.inj here; rfl)

theorem allowedNone {phase : Phase Context Data} {op : Op Context Data} (none : op.about = none)
    (scan : ∀ filter now threshold, op ≠ .queryTransactions filter now threshold)
    (delete : ∀ ids, op ≠ .deleteTransactions ids) : (lifecycle actors).allowed phase op := by
  cases op <;> first | contradiction | trivial | exact absurd rfl (scan _ _ _) | exact absurd rfl (delete _)

theorem afterNone {phase : Phase Context Data} {op : Op Context Data} {r} (none : op.about = none)
    (scan : ∀ filter now threshold, op ≠ .queryTransactions filter now threshold)
    (delete : ∀ ids, op ≠ .deleteTransactions ids) : (lifecycle actors).after phase op r = phase := by
  cases op <;> first | contradiction | rfl | exact absurd rfl (scan _ _ _) | exact absurd rfl (delete _)

theorem repliesAbout {op : Op Context Data} {r} (possible : (lifecycle actors).replies op r) : (stages actors t).replies op r := by
  cases op with
  | getTransaction id =>
    cases r with
    | none => trivial
    | some snapshot => exact possible
  | _ => trivial

theorem obeysLift {α : Type} {p : Act Context Data α} {post : Stage Context Data → Except DfsmError α → Prop} {s}
    (obeys : (stages actors t).Obeys post s p) {phase : Phase Context Data} (here : phase t = s) :
    (lifecycle actors).Obeys (fun phase' r => ∃ s', phase' = Function.update phase t s' ∧ post s' r) phase p := by
  induction p generalizing s phase with
  | done a => exact ⟨s,by rw [← here,Function.update_eq_self],obeys⟩
  | fail e => exact ⟨s,by rw [← here,Function.update_eq_self],obeys⟩
  | ask op next ih =>
    obtain ⟨⟨running,about,allows⟩,rest⟩ := obeys
    subst here
    rcases about with none | about
    · have scan (filter now threshold) : op ≠ .queryTransactions filter now threshold := by rintro rfl; exact allows
      have delete (ids) : op ≠ .deleteTransactions ids := by rintro rfl; exact allows
      refine ⟨allowedNone none scan delete,fun r possible => ?_⟩
      rw [afterNone none scan delete]
      have stays : (stages actors t).after (phase t) op r = phase t := by
        cases op <;> first | contradiction | rfl
      have below := rest r (repliesAbout possible)
      rw [stays] at below
      exact ih r below rfl
    · have create (record) : op ≠ .createTransaction record := by rintro rfl; exact allows
      refine ⟨(allowedAbout about create).mpr ⟨running,allows⟩,fun r possible => ?_⟩
      rw [afterAbout about]
      refine obeysMono (ih r (rest r (repliesAbout possible)) (Function.update_self t _ _)) ?_
      rintro _ result ⟨s',rfl,holds⟩
      exact ⟨s',by rw [Function.update_idem],holds⟩

/-- Everything but one transaction is where it was. -/
def Beside (t : String) (phase : Phase Context Data) {α : Type} (phase' : Phase Context Data) (_ : Except DfsmError α) : Prop :=
  ∀ u, u ≠ t → phase' u = phase u

theorem obeysBeside {α : Type} {p : Act Context Data α} {post : Stage Context Data → Except DfsmError α → Prop} {s}
    (obeys : (stages actors t).Obeys post s p) {phase : Phase Context Data} (here : phase t = s) :
    (lifecycle actors).Obeys (Beside t phase) phase p := by
  refine obeysMono (obeysLift obeys here) ?_
  rintro _ r ⟨s',rfl,_⟩ u other
  exact Function.update_of_ne other _ _

section
variable {actor : Actor} (member : actors actor)
include member

theorem compensateStages {item : TransactionSummary Context Data} {status reason} :
    (stages actors item.transactionId).Obeys (Ends fun _ _ => True) (.scanned item.version status)
      (actor.compensateTransaction item reason) := by
  unfold Actor.compensateTransaction
  refine obeysNow (by simp) (fun at_ => obeysUpdate (by simp) ⟨rfl,rfl,.inl ⟨rfl,rfl⟩⟩ (leaseless rfl) (fun ver => ?_))
  refine obeysSeq _ (unwindStages member) ?_
  rintro _ unwound rfl
  exact obeysNow (by simp) (fun at_ => obeysUpdate (by simp) ⟨rfl,rfl,rfl,rfl⟩ (leaseless rfl) (fun _ => trivial))

theorem continueStages {item : TransactionSummary Context Data} {status} :
    (stages actors item.transactionId).Obeys (Ends fun _ _ => True) (.scanned item.version status)
      (actor.continueTransaction item) := by
  unfold Actor.continueTransaction
  refine obeysAsk (quiet (by simp) (.inr rfl) (.inr (.inl ⟨_,_,rfl⟩))) (fun found known => ?_)
  cases found with
  | none => trivial
  | some fullSnap =>
    have same : fullSnap.transactionId = item.transactionId := known
    rw [← same]
    dsimp only
    cases fullSnap.activeStep with
    | none =>
      exact obeysNow (by simp [Stage.next]) (fun at_ => obeysUpdate (by simp [Stage.next])
        ⟨rfl,rfl,rfl,rfl⟩ (leaseless rfl) (fun _ => trivial))
    | some activeStep =>
      refine obeysNow (by simp [Stage.next]) (fun at_ => obeysUpdate (by simp [Stage.next])
        ⟨rfl,rfl,rfl,rfl⟩ (leaseless rfl) (fun unlockedVer => ?_))
      have replayed := @executeStages Context Data actors (fullSnap.refreshed unlockedVer) activeStep.event
        (.recoveredByActor actor.actorId) actor member activeStep.input
      exact obeysSeq _ replayed (fun _ _ _ => trivial)

theorem recoverStages {item : TransactionSummary Context Data} {status} {mode : OnRestartMode} (kept : mode ≠ .DELETE) :
    (stages actors item.transactionId).Obeys (Ends fun _ _ => True) (.scanned item.version status)
      (actor.recover item mode) := by
  cases mode with
  | STOP =>
    refine obeysAsk (quiet (by simp) (.inl rfl) trivial) (fun r _ => ?_)
    cases r <;> trivial
  | DELETE => contradiction
  | MARK_FAIL =>
    exact obeysNow (by simp) (fun at_ => obeysUpdate (by simp) ⟨rfl,rfl,.inr (.inr ⟨rfl,.inl rfl⟩)⟩ (leaseless rfl) (fun _ => trivial))
  | COMPENSATE => exact obeysSeq _ (compensateStages member) (fun _ _ _ => trivial)
  | CONTINUE => exact continueStages member

theorem recoverPhases {item : TransactionSummary Context Data} {phase : Phase Context Data}
    (here : phase item.transactionId = .scanned item.version item.status) (mode : OnRestartMode) :
    (lifecycle actors).Obeys (Beside item.transactionId phase) phase (actor.recover item mode) := by
  by_cases deletes : mode = .DELETE
  · subst deletes
    refine obeysAsk (fun t mem => ?_) (fun _ _ u other => ?_)
    · cases List.mem_singleton.mp mem
      exact ⟨_,_,here⟩
    · exact if_neg (by simpa using other)
  · exact obeysBeside (recoverStages member deletes) here

end

theorem failStages {item : TransactionSummary Context Data} {status reason report} :
    (stages actors item.transactionId).Obeys (Ends fun _ _ => True) (.scanned item.version status : Stage Context Data)
      (failTransaction reason report item) :=
  obeysNow (by simp) (fun at_ => obeysUpdate (by simp) ⟨rfl,rfl,.inr (.inr ⟨rfl,.inl rfl⟩)⟩ (leaseless rfl) (fun _ => trivial))

theorem unlockStages {item : TransactionSummary Context Data} {status report} :
    (stages actors item.transactionId).Obeys (Ends fun _ _ => True) (.scanned item.version status : Stage Context Data)
      (unlockTransaction report item) :=
  obeysNow (by simp) (fun at_ => obeysUpdate (by simp) ⟨rfl,rfl,.inr (.inl ⟨rfl,rfl⟩)⟩ (leaseless rfl) (fun _ => trivial))

/-- What is left of a scan: each transaction once, and still as the scan listed it. -/
structure Listed (left : List (TransactionSummary Context Data)) (phase : Phase Context Data) : Prop where
  once : (left.map (·.transactionId)).Nodup
  scanned : ∀ item ∈ left, phase item.transactionId = .scanned item.version item.status

theorem findListed {found : List (TransactionSummary Context Data)} (once : (found.map (·.transactionId)).Nodup) {item}
    (mem : item ∈ found) : found.find? (·.transactionId = item.transactionId) = some item := by
  induction found with
  | nil => contradiction
  | cons head rest ih =>
    obtain ⟨fresh,once⟩ := List.nodup_cons.mp once
    rcases List.mem_cons.mp mem with rfl | later
    · simp
    · have other : head.transactionId ≠ item.transactionId := by
        intro same
        exact fresh (List.mem_map.mpr ⟨item,later,same.symm⟩)
      rw [List.find?_cons_of_neg (by simpa using other)]
      exact ih once later

theorem scanListed {found : List (TransactionSummary Context Data)} (phase : Phase Context Data)
    (once : (found.map (·.transactionId)).Nodup) : Listed found (phase.scan found) := by
  refine ⟨once,fun item mem => ?_⟩
  rw [Phase.scan,findListed once mem]

theorem scannedIds {found : List (TransactionSummary Context Data)} {phase : Phase Context Data} (listed : Listed found phase) :
    ∀ t ∈ found.map (·.transactionId), ∃ version status, phase t = .scanned version status := by
  intro t mem
  obtain ⟨item,here,rfl⟩ := List.mem_map.mp mem
  exact ⟨_,_,listed.scanned item here⟩

theorem listedRest {item} {left : List (TransactionSummary Context Data)} {phase phase' : Phase Context Data}
    (listed : Listed (item::left) phase) (beside : ∀ u, u ≠ item.transactionId → phase' u = phase u) :
    Listed left phase' := by
  obtain ⟨fresh,once⟩ := List.nodup_cons.mp listed.once
  refine ⟨once,fun other mem => ?_⟩
  rw [beside]
  · exact listed.scanned other (List.mem_cons_of_mem _ mem)
  · intro same
    exact fresh (List.mem_map.mpr ⟨other,mem,same⟩)

theorem lifecycleNow {β : Type} {phase : Phase Context Data} {post} {f : Int → Act Context Data β}
    (rest : ∀ at_, (lifecycle actors).Obeys post phase (f at_)) : (lifecycle actors).Obeys post phase (now >>= f) :=
  obeysAsk trivial (fun r _ => rest r)

section
variable {actor : Actor} (member : actors actor)
include member

theorem sweepItemPhases {item} {left : List (TransactionSummary Context Data)} {phase report}
    (listed : Listed (item::left) phase) :
    (lifecycle actors).Obeys (Ends fun phase _ => Listed left phase) phase (actor.sweepTransaction report item) := by
  unfold Actor.sweepTransaction
  split
  · exact listedRest listed (fun _ _ => rfl)
  · have recovered := recoverPhases member (listed.scanned item List.mem_cons_self)
      (actor.resolveRecoveryModeForState item.stateValue)
    refine obeysSeq (fun phase _ => Listed left phase) (obeysAttempt (obeysMono recovered ?_)) ?_
    · intro phase' r beside
      exact listedRest listed beside
    · intro phase' result kept
      rcases result with err | taken
      · exact kept
      · cases taken <;> exact kept

theorem sweepPhases {phase : Phase Context Data} {threshold} :
    (lifecycle actors).Obeys (Ends fun _ _ => True) phase (actor.executeRecoverySweep threshold) := by
  unfold Actor.executeRecoverySweep
  refine lifecycleNow (fun sweptAt => obeysAsk trivial (fun found possible => ?_))
  have once : (found.map (·.transactionId)).Nodup := possible.1
  refine obeysSeq _ (obeysFold (fun left phase _ => Listed left phase) ?_ found (scanListed phase once)) ?_
  · intro item left phase report listed
    exact sweepItemPhases member listed
  · intro phase report _
    have cleaned : (lifecycle actors).Obeys (Ends fun _ _ => True) phase
        (actor.retentionCleanUp sweptAt threshold : Act Context Data Nat) := by
      unfold Actor.retentionCleanUp
      split
      · trivial
      · split
        · trivial
        · refine obeysAsk trivial (fun expired possible => ?_)
          split
          · trivial
          · exact ⟨scannedIds (scanListed phase possible.1),fun _ _ => trivial⟩
    refine obeysSeq _ cleaned (fun phase deleted _ => ?_)
    dsimp only
    split <;> trivial

theorem cleanUpTransactionPhases {item : TransactionSummary Context Data} {phase : Phase Context Data} {report}
    (here : phase item.transactionId = .scanned item.version item.status) (action : CleanUpAction) :
    (lifecycle actors).Obeys (Beside item.transactionId phase) phase (actor.cleanUpTransaction action report item) := by
  refine @obeysBeside _ _ _ _ _ _ (Ends fun _ _ => True) _ ?_ _ here
  cases action with
  | DELETE => trivial
  | MARK_FAIL => exact failStages
  | FORCE_UNLOCK => exact unlockStages
  | COMPENSATE => exact obeysSeq _ (compensateStages member) (fun _ _ _ => trivial)

end

/-- A clean-up touches only the transactions its options name. -/
def Outside (options : ForceCleanUpOptions) (phase : Phase Context Data) {α : Type} (phase' : Phase Context Data)
    (_ : Except DfsmError α) : Prop :=
  ∀ u, options.ids ≠ [] → u ∉ options.ids → phase' u = phase u

theorem scanOutside {filter : TransactionQueryFilter} {found : List (TransactionSummary Context Data)} {u} (phase : Phase Context Data)
    (matching : ∀ item ∈ found, Store.matchesFilter filter item.toTransactionRecord = true)
    (named : filter.transactionIds ≠ []) (outside : u ∉ filter.transactionIds) :
    u ∉ found.map (·.transactionId) ∧ phase.scan found u = phase u := by
  have absent : ∀ item ∈ found, item.transactionId ≠ u := by
    intro item mem same
    have judged := matching item mem
    simp only [Store.matchesFilter,Bool.and_eq_true,Bool.or_eq_true,List.isEmpty_iff,List.contains_iff_mem] at judged
    rcases judged.1.1.1.2 with none | listed
    · exact named none
    · exact outside (same ▸ listed)
  refine ⟨?_,?_⟩
  · intro mem
    obtain ⟨item,here,same⟩ := List.mem_map.mp mem
    exact absent item here same
  · have none : found.find? (·.transactionId = u) = none := by simpa using absent
    rw [Phase.scan,none]

/-- Half-way through a clean-up. -/
structure Remaining (options : ForceCleanUpOptions) (found : List (TransactionSummary Context Data)) (phase : Phase Context Data)
    (left : List (TransactionSummary Context Data)) (phase' : Phase Context Data) : Prop where
  listed : Listed left phase'
  among : ∀ item ∈ left, item ∈ found
  outside : ∀ u, options.ids ≠ [] → u ∉ options.ids → phase' u = phase u

theorem remainingRest {options found item left} {phase phase' after : Phase Context Data}
    (remaining : Remaining options found phase (item::left) phase') (beside : ∀ u, u ≠ item.transactionId → after u = phase' u)
    (inside : options.ids ≠ [] → item.transactionId ∉ options.ids → False) :
    Remaining options found phase left after := by
  refine ⟨listedRest remaining.listed beside,fun other mem => remaining.among other (List.mem_cons_of_mem _ mem),?_⟩
  intro u named outside
  rw [beside u ?_,remaining.outside u named outside]
  rintro rfl
  exact inside named outside

theorem cleanUpPhases {options : ForceCleanUpOptions} {machineId threshold phase}
    {act : CleanUpReport → TransactionSummary Context Data → Act Context Data CleanUpReport}
    (acts : ∀ report item phase, phase item.transactionId = .scanned item.version item.status →
      (lifecycle actors).Obeys (Beside item.transactionId phase) phase (act report item)) :
    (lifecycle actors).Obeys (Outside options phase) phase (cleanUp options machineId threshold act) := by
  unfold cleanUp
  refine lifecycleNow (fun startedAt => obeysAsk trivial (fun found possible => ?_))
  obtain ⟨once,matching⟩ := possible
  have kept (u) (named : options.ids ≠ []) (outside : u ∉ options.ids) :=
    scanOutside phase matching named outside
  by_cases stops : (options.dryRun || List.isEmpty found) = true
  · simp only [stops,if_true]
    exact fun u named outside => (kept u named outside).2
  simp only [stops]
  by_cases deletes : options.action = .DELETE
  · simp only [deletes,if_true]
    refine And.intro (scannedIds (scanListed phase once)) (fun _ _ u named outside => ?_)
    exact (if_neg (kept u named outside).1).trans (kept u named outside).2
  · simp only [deletes,if_false]
    have first : Remaining options found phase found (phase.scan found) :=
      ⟨scanListed phase once,fun _ => id,fun u named outside => (kept u named outside).2⟩
    refine obeysLoop (fun left phase' _ => Remaining options found phase left phase') ?_ found first (fun _ _ done => done.outside)
    intro item left phase' report remaining
    have acted := acts report item phase' (remaining.listed.scanned item List.mem_cons_self)
    refine obeysSeq (fun phase' _ => Remaining options found phase left phase') (obeysAttempt (obeysMono acted ?_)) ?_
    · intro after r beside
      refine remainingRest remaining beside (fun named outside => ?_)
      exact (kept _ named outside).1 (List.mem_map.mpr ⟨item,remaining.among item List.mem_cons_self,rfl⟩)
    · intro after r remaining
      cases r <;> exact remaining

theorem startedStages {actor : Actor} {txId state status effects} {context : Context} :
    (stages actors txId).Obeys (Ends fun _ _ => True) (.settled : Stage Context Data) (do
      emit (.onStart txId actor.machine.id actor.actorId state status context)
      actor.emitSettledTerminalHooks txId state status context none
      actor.invokeEffects txId state context effects
      pure txId) := by
  refine obeysEmit (by simp) rfl rfl (obeysSeq _ terminalHooksStages ?_)
  intro _ _ settled
  rw [settled]
  exact obeysSeq _ effectsStages (fun _ _ _ => trivial)

theorem startPhases {actor : Actor} {context : Context} {customTransactionId} {phase : Phase Context Data} (idle : ∀ t, phase t = .idle) :
    (lifecycle actors).Obeys (Ends fun _ _ => True) phase
      (actor.startTransaction context customTransactionId : Act Context Data String) := by
  unfold Actor.startTransaction
  refine obeysAsk trivial (fun r _ => obeysExcept (fun initial _ => ?_))
  refine obeysSeq (fun phase' _ => phase' = phase) ?_ ?_
  · cases customTransactionId with
    | some id => exact rfl
    | none => exact ⟨trivial,fun _ _ => rfl⟩
  intro phase' txId same
  rw [same]
  refine lifecycleNow (fun startedAt => obeysAsk ⟨idle txId,settledForward _ _,rfl⟩ (fun r _ => ?_))
  cases r with
  | error _ => trivial
  | ok _ =>
    refine obeysMono (@obeysLift Context Data actors txId _ _ (Ends fun _ _ => True) .settled ?_ _ ?_) ?_
    · exact startedStages
    · rw [afterAbout rfl]
      exact Function.update_self _ _ _
    · intro phase' r _
      cases r <;> trivial

section
variable {actor : Actor} (member : actors actor)
include member

theorem forceCleanUpPhases {options : ForceCleanUpOptions} {phase : Phase Context Data} :
    (lifecycle actors).Obeys (Outside options phase) phase (actor.forceCleanUp options) :=
  cleanUpPhases (fun _ _ _ here => cleanUpTransactionPhases member here options.action)

theorem transitionPhases {event input fields} {phase : Phase Context Data} (idle : ∀ t, phase t = .idle) :
    (lifecycle actors).Obeys (fun _ _ => True) phase (actor.transition t event input fields) :=
  obeysMono (obeysBeside (transitionStages member) (idle t)) (fun _ _ _ => trivial)

end

theorem registryCleanUpPhases {activeActors : List Actor} (members : ∀ actor ∈ activeActors, actors actor)
    {options : ForceCleanUpOptions} {phase : Phase Context Data} :
    (lifecycle actors).Obeys (Outside options phase) phase (FSMRegistry.forceCleanUp activeActors options) := by
  refine cleanUpPhases (fun report item phase here => ?_)
  unfold FSMRegistry.cleanUpTransaction
  split
  · exact fun _ _ => rfl
  · exact obeysBeside failStages here
  · exact obeysBeside unlockStages here
  · split
    · rename_i actor found
      have member := members actor (List.mem_of_find?_eq_some found)
      refine obeysBind (obeysMono (forceCleanUpPhases member) ?_)
      intro phase' r outside
      have beside : ∀ u, u ≠ item.transactionId → phase' u = phase u :=
        fun u other => outside u (by simp) (by simpa using other)
      cases r <;> exact beside
    · refine @obeysBeside _ _ _ _ _ _ (Ends fun _ _ => True) _ ?_ _ here
      exact obeysNow (by simp) (fun at_ => obeysUpdate (by simp) ⟨rfl,rfl,.inr (.inr ⟨rfl,.inr rfl⟩)⟩ (leaseless rfl) (fun _ => trivial))

/-! The calls of a run, by actors of one set. -/

def StartCall (actors : Actor → Prop) (p : Act Context Data Unit) : Prop :=
  ∃ actor context customTransactionId, actors actor ∧ p = (actor.startTransaction context customTransactionId).void

def TransitionCall (actors : Actor → Prop) (p : Act Context Data Unit) : Prop :=
  ∃ actor t event input fields, actors actor ∧ p = (actor.transition t event input fields).void

def SweepCall (actors : Actor → Prop) (p : Act Context Data Unit) : Prop :=
  ∃ actor threshold, actors actor ∧ p = (actor.executeRecoverySweep threshold).void

def CleanUpCall (actors : Actor → Prop) (p : Act Context Data Unit) : Prop :=
  (∃ actor options, actors actor ∧ p = (actor.forceCleanUp options).void) ∨
    ∃ activeActors options, (∀ actor ∈ activeActors, actors actor) ∧ p = (FSMRegistry.forceCleanUp activeActors options).void

def Operation (actors : Actor → Prop) (p : Act Context Data Unit) : Prop :=
  StartCall actors p ∨ TransitionCall actors p ∨ SweepCall actors p ∨ CleanUpCall actors p

theorem obeysVoid {α : Type} {p : Act Context Data α} {phase : Phase Context Data} {post : Phase Context Data → Except DfsmError α → Prop}
    (obeys : (lifecycle actors).Obeys post phase p) : (lifecycle actors).Obeys (fun _ _ => True) phase p.void := by
  refine obeysBind (obeysMono obeys ?_)
  intro phase r _
  cases r <;> trivial

theorem operationsObey (p : Act Context Data Unit) (called : Operation actors p) :
    (lifecycle actors).Obeys (fun _ _ => True) (fun _ => .idle) p := by
  rcases called with ⟨actor,context,id,member,rfl⟩ | ⟨actor,t,event,input,fields,member,rfl⟩ |
    ⟨actor,threshold,member,rfl⟩ | ⟨actor,options,member,rfl⟩ | ⟨activeActors,options,members,rfl⟩
  · exact obeysVoid (startPhases (fun _ => rfl))
  · exact obeysVoid (transitionPhases member (fun _ => rfl))
  · exact obeysVoid (sweepPhases member)
  · exact obeysVoid (forceCleanUpPhases member)
  · exact obeysVoid (registryCleanUpPhases members)

end Dfsm
