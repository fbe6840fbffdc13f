import Dfsm.Java.Kept

/-! Administrative clean-up of the Java SDK with a store to itself, whichever store it is:
what it touches are the transactions of its listing that it comes to, and when these are the
ones that were asked for. -/
namespace Dfsm.Java
open Program Act Protocol

variable {Context Data S : Type}

/-- A store and what has been asked so far, on which the replies of user code may depend. -/
structure Alone (Context Data S : Type) where
  store : S
  log : List (Event (Reply Context Data)) := []

namespace ForceCleanUpOptions
variable (opts : ForceCleanUpOptions)

def requested : List TransactionStatus := if opts.statuses = [] then TERMINAL_STATUSES else opts.statuses

/-- Every criterion given, as the options put it. -/
structure Meets (machineId : String) (threshold startedAt : Int) (row : TransactionRecord Context Data) : Prop where
  machine : row.machineId = machineId
  status : opts.stuckOnly = false →
    row.status ∈ opts.requested ∨ opts.includeInFlight = true ∧ H2StateStore.isInFlight row.status = true
  older : ∀ ms, opts.olderThanMs = some ms → row.updatedAt ≤ startedAt - ms
  stuck : opts.stuckOnly = true → H2StateStore.isInFlight row.status = true ∧
    (threshold < startedAt - row.updatedAt ∨ row.leaseExpiresAt.any (· ≤ startedAt) = true)
  settled : H2StateStore.isInFlight row.status = true → opts.includeInFlight = true ∨ opts.stuckOnly = true

/-- No criterion is lost on a row: an age is not asked for with `stuckOnly`, or it is met
anyway, and without `stuckOnly` there is a status left to ask for. -/
structure Asked (startedAt : Int) (row : TransactionRecord Context Data) : Prop where
  older : opts.stuckOnly = true → ∀ ms, opts.olderThanMs = some ms → row.updatedAt ≤ startedAt - ms
  statuses : opts.stuckOnly = false → DfsmActor.targetStatuses opts ≠ []

variable {opts} {machineId : String} {threshold startedAt : Int} {row : TransactionRecord Context Data}

theorem targetMem {status : TransactionStatus} : status ∈ DfsmActor.targetStatuses opts ↔
    if opts.includeInFlight then status ∈ opts.requested ∨ H2StateStore.isInFlight status = true
    else status ∈ opts.requested ∧ H2StateStore.isInFlight status = false := by
  unfold DfsmActor.targetStatuses requested
  cases opts.includeInFlight with
  | true => cases status <;> simp [H2StateStore.isInFlight]
  | false => cases status <;> simp [H2StateStore.isInFlight]

theorem stuckMeets {limit : Int} {actor : DfsmActor} (stuckOnly : opts.stuckOnly = true)
    (selected : H2StateStore.inFlightWhere (actor.stuckFilter limit) startedAt threshold row = true) :
    opts.Meets actor.machine.id threshold startedAt row ↔ opts.Asked startedAt row := by
  have parts : H2StateStore.isInFlight row.status = true ∧ row.machineId = actor.machine.id ∧
      (threshold < startedAt - row.updatedAt ∨ row.leaseExpiresAt.any (· ≤ startedAt) = true) := by
    simp only [H2StateStore.inFlightWhere,DfsmActor.stuckFilter,if_true,Option.all_some,Option.all_none,Bool.and_true,
      Bool.not_true,Bool.false_or,Bool.and_eq_true,Bool.or_eq_true,decide_eq_true_eq] at selected
    obtain ⟨⟨flies,machine⟩,stuck⟩ := selected
    exact ⟨flies,machine.symm,stuck.imp (fun old => by omega) id⟩
  obtain ⟨flies,machine,stuck⟩ := parts
  have notFree (free : opts.stuckOnly = false) : False := by
    rw [stuckOnly] at free
    cases free
  constructor
  · intro meets
    exact ⟨fun _ => meets.older,fun free => (notFree free).elim⟩
  · intro asked
    exact ⟨machine,fun free => (notFree free).elim,asked.older stuckOnly,fun _ => ⟨flies,stuck⟩,fun _ => .inr stuckOnly⟩

theorem statusMeets {limit : Int} (free : opts.stuckOnly = false)
    (selected : H2StateStore.statusWhere {
      machineId := some machineId, actorId := none, statuses := DfsmActor.targetStatuses opts
      updatedBeforeEpochMs := opts.olderThanMs.map (startedAt - ·), limit, offset := 0 } row = true) :
    opts.Meets machineId threshold startedAt row ↔ opts.Asked startedAt row := by
  simp only [H2StateStore.statusWhere,Option.all_some,Option.all_none,Bool.and_true,Bool.and_eq_true,Bool.or_eq_true,
    decide_eq_true_eq,List.isEmpty_iff,List.contains_iff_mem] at selected
  obtain ⟨⟨machine,status⟩,older⟩ := selected
  have cutoff : ∀ ms, opts.olderThanMs = some ms → row.updatedAt ≤ startedAt - ms := by
    intro ms given_
    rw [given_] at older
    simpa using older
  have notStuck (only : opts.stuckOnly = true) : False := by
    rw [free] at only
    cases only
  constructor
  · intro meets
    refine ⟨fun only => (notStuck only).elim,fun _ => ?_⟩
    refine List.ne_nil_of_mem (a := row.status) (targetMem.mpr ?_)
    cases includes : opts.includeInFlight with
    | true => exact (meets.status free).imp id And.right
    | false =>
      have settled : H2StateStore.isInFlight row.status = false := by
        cases flies : H2StateStore.isInFlight row.status with
        | false => rfl
        | true =>
          rcases meets.settled flies with yes | only
          · rw [includes] at yes
            cases yes
          · exact (notStuck only).elim
      rcases meets.status free with listed | ⟨yes,_⟩
      · exact ⟨listed,settled⟩
      · rw [includes] at yes
        cases yes
  · intro asked
    have here := targetMem.mp (status.resolve_left (asked.statuses free))
    refine ⟨machine.symm,fun _ => ?_,cutoff,fun only => (notStuck only).elim,fun flies => ?_⟩
    · cases includes : opts.includeInFlight with
      | true =>
        rw [includes] at here
        exact here.imp id (fun flies => ⟨rfl,flies⟩)
      | false =>
        rw [includes] at here
        exact .inl here.1
    · cases includes : opts.includeInFlight with
      | true => exact .inl rfl
      | false =>
        rw [includes] at here
        rw [here.2] at flies
        cases flies

end ForceCleanUpOptions

section
variable {actor : DfsmActor} {t : String}

theorem cleanUpConcerns (actor : DfsmActor) (t : String) (action : ForceCleanUpAction) :
    (actor.cleanUpReady t action : Act Context Data Bool).Asks (Op.Concerns t) := by
  refine asksBind asksGet (fun found => ?_)
  cases found with
  | none => trivial
  | some snap =>
    cases action with
    | DELETE => exact asksOne rfl (fun _ => asksExcept)
    | MARK_FAIL => exact asksOne trivial (fun _ => asksUpdate rfl (fun _ => trivial))
    | FORCE_UNLOCK => exact asksOne trivial (fun _ => asksUpdate rfl (fun _ => trivial))
    | COMPENSATE =>
      refine asksBind (asksBind asksGet (fun found => ?_)) (fun _ => trivial)
      cases found with
      | none => trivial
      | some snap => exact compensationConcerns

theorem compensationKeeps (actor : DfsmActor) (t : String) (version : Nat) (snap : TransactionSnapshot Context Data) :
    (do
      let unwind ← actor.unwindCompensationStack t snap.context (some "Compensated by recovery policy")
      let updatedAt ← now
      let _ ← updateTransaction t version (compensated unwind.1 updatedAt)
      : Act Context Data Unit).Asks (fun op => ∀ id version, op ≠ .deleteTransaction id version) := by
  refine asksBind ?_ (fun _ => asksOne (by simp) (fun _ => asksUpdate (t := t) (by simp) (fun _ => trivial)))
  refine asksOne (by simp) (fun r => asksThrow (fun stack => asksFold (fun unwound entry => asksBind ?_ (fun ctx => ?_)) _ _))
  · unfold DfsmActor.compensateEntry
    split
    · trivial
    · exact asksOne (by simp) (fun _ => asksThrow (fun _ => asksOne (by simp) (fun _ => asksThrow (fun _ => trivial))))
  · refine asksOne (by simp) (fun _ => asksOne (by simp) (fun _ => asksThrow (fun _ => ?_)))
    exact asksBind (asksOne (by simp) (fun _ => asksExcept)) (fun _ => trivial)

end

namespace Alone
variable (serve : Serving Context Data S) (user : List (Event (Reply Context Data)) → Surroundings Context Data)

def answer (op : Op Context Data) (s : Alone Context Data S) : Reply Context Data op × Alone Context Data S :=
  ((serve (user s.log) s.store op).1,⟨(serve (user s.log) s.store op).2,s.log ++ [⟨op,(serve (user s.log) s.store op).1⟩]⟩)

/-- The transactions of a listing that a clean-up comes to: up to one whose clean-up throws,
or to the closing of the actor. -/
def reached (actor : DfsmActor) (action : ForceCleanUpAction) :
    List (TransactionSummary Context Data) → Alone Context Data S → List (TransactionSummary Context Data)
  | [], _ => []
  | c::rest, s => match (actor.ensureReady : Act Context Data Unit).eval (answer serve user) s with
    | (.error _,_) => []
    | (.ok _,s) => match (actor.cleanUpReady c.transactionId action : Act Context Data Bool).eval (answer serve user) s with
      | (.error _,_) => [c]
      | (.ok _,s) => c::reached actor action rest s

/-- When the listing was made, what it has, and the world after it. -/
def scan (actor : DfsmActor) (opts : ForceCleanUpOptions) (s : Alone Context Data S) :
    Option (Int × List (TransactionSummary Context Data) × Alone Context Data S) :=
  match (actor.ensureReady : Act Context Data Unit).eval (answer serve user) s with
  | (.error _,_) => none
  | (.ok _,s) =>
    match (actor.candidates opts (answer serve user .now s).1 : Act Context Data _).eval (answer serve user) (answer serve user .now s).2 with
    | (.error _,_) => none
    | (.ok found,after) => some ((answer serve user .now s).1,found,after)

variable {serve user} {kept : S → String → Kept Context Data} {actor : DfsmActor} {s : Alone Context Data S} {t u : String}

theorem runBeside {α : Type} (user : List (Event (Reply Context Data)) → Surroundings Context Data)
    (s : Alone Context Data S) (keeps : Keeps serve kept) {p : Act Context Data α} (asks : p.Asks (Op.Concerns u)) (other : t ≠ u) :
    kept (p.eval (answer serve user) s).2.store t = kept s.store t := by
  induction p generalizing s with
  | done a => rfl
  | fail e => rfl
  | ask op next ih => exact (ih _ _ (asks.2 _)).trans (keeps.beside _ _ _ _ _ asks.1 other)

theorem runGrows {α : Type} (user : List (Event (Reply Context Data)) → Surroundings Context Data) (keeps : Keeps serve kept) {p : Act Context Data α}
    (asks : p.Asks (fun op => ∀ id version, op ≠ .deleteTransaction id version)) {row : TransactionRecord Context Data}
    (here : (kept s.store t).row = some row) :
    ∃ later, (kept (p.eval (answer serve user) s).2.store t).row = some later ∧ row.version ≤ later.version := by
  induction p generalizing s row with
  | done a => exact ⟨row,here,Nat.le_refl _⟩
  | fail e => exact ⟨row,here,Nat.le_refl _⟩
  | ask op next ih =>
    obtain ⟨middle,found,grown⟩ := keeps.grows (user s.log) s.store op t row asks.1 here
    obtain ⟨last,found,more⟩ := ih _ (asks.2 _) (s := (answer serve user op s).2) found
    exact ⟨last,found,Nat.le_trans grown more⟩

theorem readyReads (actor : DfsmActor) (user : List (Event (Reply Context Data)) → Surroundings Context Data)
    (s : Alone Context Data S) (keeps : Keeps serve kept) :
    ((actor.ensureReady : Act Context Data Unit).eval (answer serve user) s).2.store = s.store := by
  have closed : (answer serve user .closed s).2.store = s.store := keeps.reads _ _ _ id
  have initialized : (answer serve user .initialized (answer serve user .closed s).2).2.store = s.store :=
    (keeps.reads _ _ _ id).trans closed
  change (eval (answer serve user) (if (answer serve user .closed s).1 then _ else _ : Act Context Data Unit)
    (answer serve user .closed s).2).2.store = _
  split
  · exact closed
  · change (eval (answer serve user) (if (answer serve user .initialized (answer serve user .closed s).2).1 then _ else _ : Act Context Data Unit)
      (answer serve user .initialized (answer serve user .closed s).2).2).2.store = _
    rw [show (answer serve user .initialized (answer serve user .closed s).2).1 = true from keeps.ready _ _]
    exact initialized

theorem runGet {α : Type} (user : List (Event (Reply Context Data)) → Surroundings Context Data)
    (f : Option (TransactionSnapshot Context Data) → Act Context Data α) (keeps : Keeps serve kept)
    {row : TransactionRecord Context Data} (here : (kept s.store t).row = some row) :
    ∃ snap s', snap.toTransactionRecord = row ∧ s'.store = s.store ∧
      (getTransaction t >>= f).eval (answer serve user) s = (f (some snap)).eval (answer serve user) s' := by
  obtain ⟨found,read,same⟩ := keeps.get (user s.log) s.store t
  rw [here] at same
  obtain ⟨snap,rfl,own⟩ := Option.map_eq_some_iff.mp same
  refine ⟨snap,(answer serve user (.getTransaction t) s).2,own,keeps.reads _ _ _ id,?_⟩
  change eval _ (orThrow (serve (user s.log) s.store (.getTransaction t)).1 >>= f) _ = _
  rw [read]
  rfl

theorem runUpdate {α : Type} (user : List (Event (Reply Context Data)) → Surroundings Context Data) (f : Nat → Act Context Data α)
    (patch : TransactionPatch Context Data) (append) (keeps : Keeps serve kept) {row : TransactionRecord Context Data} (here : (kept s.store t).row = some row) :
    ∃ s', (kept s'.store t).row = some (patch.apply row) ∧
      (updateTransaction t row.version patch append >>= f).eval (answer serve user) s = (f (row.version + 1)).eval (answer serve user) s' := by
  obtain ⟨accepted,moved⟩ := keeps.update (user s.log) s.store t row patch append here
  refine ⟨(answer serve user (.updateTransaction t row.version patch append) s).2,moved,?_⟩
  change eval _ (orThrow (serve (user s.log) s.store (.updateTransaction t row.version patch append)).1 >>= f) _ = _
  rw [accepted]
  rfl

theorem cleanUpReads (actor : DfsmActor) (user : List (Event (Reply Context Data)) → Surroundings Context Data)
    (action : ForceCleanUpAction) (keeps : Keeps serve kept) {row : TransactionRecord Context Data}
    (here : (kept s.store t).row = some row) :
    ∃ snap s', snap.toTransactionRecord = row ∧ s'.store = s.store ∧
      (actor.cleanUpReady t action : Act Context Data Bool).eval (answer serve user) s =
        (actor.cleanUpSnapshot t action snap : Act Context Data Bool).eval (answer serve user) s' := by
  unfold DfsmActor.cleanUpReady
  exact runGet user _ keeps here

theorem recoveryRuns (actor : DfsmActor) (user : List (Event (Reply Context Data)) → Surroundings Context Data)
    (mode : OnRestartMode) (keeps : Keeps serve kept) {row : TransactionRecord Context Data}
    (here : (kept s.store t).row = some row) :
    ∃ snap s', snap.toTransactionRecord = row ∧ s'.store = s.store ∧
      (actor.applyRecoveryMode t mode : Act Context Data Unit).eval (answer serve user) s =
        (actor.applyToSnapshot t mode snap : Act Context Data Unit).eval (answer serve user) s' := by
  unfold DfsmActor.applyRecoveryMode
  exact runGet user _ keeps here

theorem updateTouches {α : Type} (user : List (Event (Reply Context Data)) → Surroundings Context Data) (f : Nat → Act Context Data α)
    (patch : TransactionPatch Context Data) (append) (keeps : Keeps serve kept) {row : TransactionRecord Context Data} (here : (kept s.store t).row = some row)
    (rest : ∀ v, (f v).Asks (fun op => ∀ id version, op ≠ .deleteTransaction id version)) :
    (kept ((updateTransaction t row.version patch append >>= f).eval (answer serve user) s).2.store t).row ≠ some row := by
  obtain ⟨s',moved,ran⟩ := runUpdate user f patch append keeps here
  rw [ran]
  obtain ⟨later,found,grown⟩ := runGrows user keeps (rest (row.version + 1)) moved
  intro same
  have versions : later = row := Option.some.inj (found.symm.trans same)
  rw [versions] at grown
  exact absurd grown (Nat.not_succ_le_self _)

theorem cleanUpTouches (actor : DfsmActor) (user : List (Event (Reply Context Data)) → Surroundings Context Data)
    (action : ForceCleanUpAction) (s : Alone Context Data S) (keeps : Keeps serve kept) {row : TransactionRecord Context Data}
    (here : (kept s.store t).row = some row) :
    (kept ((actor.cleanUpReady t action : Act Context Data Bool).eval (answer serve user) s).2.store t).row ≠ some row := by
  have timed (s : Alone Context Data S) : (answer serve user .now s).2.store = s.store := keeps.reads _ _ _ id
  obtain ⟨snap,s',rfl,same,ran⟩ := cleanUpReads actor user action keeps here
  rw [ran]
  rw [← same] at here
  have later := here
  rw [← timed s'] at later
  cases action with
  | DELETE =>
    obtain ⟨deleted,gone⟩ := keeps.delete (user s'.log) s'.store t _ here
    change (kept (eval (answer serve user) (orThrow (serve (user s'.log) s'.store (.deleteTransaction t snap.version)).1 : Act Context Data Bool)
      (answer serve user (.deleteTransaction t snap.version) s').2).2.store t).row ≠ _
    rw [deleted]
    intro same
    exact absurd (gone.symm.trans same) (by simp)
  | MARK_FAIL => exact updateTouches user (fun _ => (pure true : Act Context Data Bool)) _ _ keeps later (fun _ => trivial)
  | FORCE_UNLOCK => exact updateTouches user (fun _ => (pure true : Act Context Data Bool)) _ _ keeps later (fun _ => trivial)
  | COMPENSATE =>
    obtain ⟨again,s'',own,same',recovered⟩ := recoveryRuns actor user .COMPENSATE keeps here
    have there : (kept (answer serve user .now s'').2.store t).row = some again.toTransactionRecord := by
      rw [timed,same',own]
      exact here
    have touched := updateTouches user _ { status := some .COMPENSATING, updatedAt := (answer serve user .now s'').1 }
      [] keeps there (fun v => compensationKeeps actor t v again)
    have same'' : (eval (answer serve user) (actor.cleanUpSnapshot t .COMPENSATE snap : Act Context Data Bool) s').2.store =
        (eval (answer serve user) (actor.applyRecoveryMode t .COMPENSATE : Act Context Data Unit) s').2.store := by
      change (eval (answer serve user) (actor.applyRecoveryMode t .COMPENSATE >>= fun _ => pure true : Act Context Data Bool) s').2.store = _
      rw [evalBind]
      cases eval (answer serve user) (actor.applyRecoveryMode t .COMPENSATE : Act Context Data Unit) s' with
      | mk r s => cases r <;> rfl
    rw [same'',recovered,← own]
    exact touched

/-- One round of the loop of a clean-up. -/
abbrev round (actor : DfsmActor) (action : ForceCleanUpAction) (affected : Nat) (c : TransactionSummary Context Data) :
    Act Context Data Nat := do
  let done ← actor.forceCleanUpTransaction c.transactionId action
  pure (if done then affected+1 else affected)

theorem reachedMem {action : ForceCleanUpAction} {found : List (TransactionSummary Context Data)} {s : Alone Context Data S} :
    ∀ item ∈ reached serve user actor action found s, item ∈ found := by
  induction found generalizing s with
  | nil => exact fun item mem => mem
  | cons c rest ih =>
    intro item mem
    rw [reached] at mem
    split at mem
    · exact absurd mem List.not_mem_nil
    · split at mem
      · exact List.mem_singleton.mp mem ▸ List.mem_cons_self
      · rcases List.mem_cons.mp mem with rfl | later
        · exact List.mem_cons_self
        · exact List.mem_cons_of_mem c (ih item later)

theorem loopTouches (actor : DfsmActor) (user : List (Event (Reply Context Data)) → Surroundings Context Data)
    (action : ForceCleanUpAction) (keeps : Keeps serve kept) {found : List (TransactionSummary Context Data)}
    (once : (found.map (·.transactionId)).Nodup) (affected : Nat) (s : Alone Context Data S) :
    (∀ t, (∀ item ∈ reached serve user actor action found s, t ≠ item.transactionId) →
      kept ((found.foldlM (round actor action) affected).eval (answer serve user) s).2.store t = kept s.store t) ∧
    ∀ item ∈ reached serve user actor action found s, ∀ row, (kept s.store item.transactionId).row = some row →
      (kept ((found.foldlM (round actor action) affected).eval (answer serve user) s).2.store item.transactionId).row ≠ some row := by
  induction found generalizing affected s with
  | nil => exact ⟨fun _ _ => rfl,fun item mem => absurd mem List.not_mem_nil⟩
  | cons c rest ih =>
    obtain ⟨new,once⟩ := List.nodup_cons.mp once
    have readies := readyReads actor user s keeps
    rw [List.foldlM_cons,round,DfsmActor.forceCleanUpTransaction,bindAssoc,bindAssoc,evalBind,reached]
    cases ready : (actor.ensureReady : Act Context Data Unit).eval (answer serve user) s with
    | mk result s1 =>
      rw [ready] at readies
      cases result with
      | error e => exact ⟨fun t _ => congrArg (kept · t) readies,fun item mem => absurd mem List.not_mem_nil⟩
      | ok _ =>
        dsimp only
        rw [evalBind]
        have beside {t : String} (other : t ≠ c.transactionId) := runBeside user s1 keeps
          (cleanUpConcerns actor c.transactionId action) other
        have touches {row} (here : (kept s.store c.transactionId).row = some row) :=
          cleanUpTouches actor user action s1 keeps (by rw [readies]; exact here)
        cases cleaned : (actor.cleanUpReady c.transactionId action : Act Context Data Bool).eval (answer serve user) s1 with
        | mk result s2 =>
          rw [cleaned] at beside touches
          rw [readies] at beside
          cases result with
          | error e =>
            refine ⟨fun t others => beside (others c List.mem_cons_self),fun item mem row here => ?_⟩
            cases List.mem_singleton.mp mem
            exact touches here
          | ok done =>
            obtain ⟨others,touched⟩ := ih once (if done then affected+1 else affected) s2
            have apart {item} (mem : item ∈ reached serve user actor action rest s2) : item.transactionId ≠ c.transactionId :=
              fun same => new (List.mem_map.mpr ⟨item,reachedMem item mem,same⟩)
            constructor
            · intro t free
              exact (others t (fun item mem => free item (List.mem_cons_of_mem c mem))).trans (beside (free c List.mem_cons_self))
            · intro item mem row here
              rcases List.mem_cons.mp mem with rfl | later
              · have still := others item.transactionId (fun other mem same => apart mem same.symm)
                exact fun same => touches here ((congrArg Kept.row still).symm.trans same)
              · refine touched item later row ?_
                rw [beside (apart later)]
                exact here

/-- What follows the listing. -/
def cleaning (actor : DfsmActor) (opts : ForceCleanUpOptions) (found : List (TransactionSummary Context Data)) :
    Act Context Data ForceCleanUpReport :=
  if opts.dryRun then
    pure { dryRun := true, action := opts.action, matchedCount := (found.map (·.transactionId)).length, affectedCount := 0
           transactionIds := found.map (·.transactionId) }
  else do
    let affectedCount ← found.foldlM (round actor opts.action) 0
    pure { dryRun := false, action := opts.action, matchedCount := (found.map (·.transactionId)).length, affectedCount
           transactionIds := found.map (·.transactionId) }

theorem cleanUpParts {opts : ForceCleanUpOptions} : (actor.forceCleanUp opts : Act Context Data ForceCleanUpReport) =
    actor.ensureReady >>= fun _ => now >>= fun startedAt => actor.candidates opts startedAt >>= cleaning actor opts := rfl

theorem candidatesRun (actor : DfsmActor) (user : List (Event (Reply Context Data)) → Surroundings Context Data)
    (opts : ForceCleanUpOptions) (keeps : Keeps serve kept) (at_ : Int) (s : Alone Context Data S) :
    ∃ found after, (actor.candidates opts at_ : Act Context Data _).eval (answer serve user) s = (.ok found,after) ∧
      after.store = s.store ∧ (found.map (·.transactionId)).Nodup ∧
      ∀ item ∈ found, ∃ row, (kept s.store item.transactionId).row = some row ∧
        (opts.Meets actor.machine.id actor.recoveryConfig.stuckThresholdMs at_ row ↔ opts.Asked at_ row) := by
  unfold DfsmActor.candidates
  cases only : opts.stuckOnly with
  | true =>
    let op : Op Context Data := .listInFlight (actor.stuckFilter opts.limit) at_ actor.recoveryConfig.stuckThresholdMs
    obtain ⟨found,listed,once,rows⟩ := keeps.inFlight (user s.log) s.store (actor.stuckFilter opts.limit) at_
      actor.recoveryConfig.stuckThresholdMs
    refine ⟨found,(answer serve user op s).2,?_,keeps.reads _ _ _ id,once,fun item mem => ?_⟩
    · change eval (answer serve user) (orThrow (serve (user s.log) s.store op).1 : Act Context Data _) (answer serve user op s).2 = _
      rw [listed]
      rfl
    · obtain ⟨row,here,selected⟩ := rows item mem
      exact ⟨row,here,ForceCleanUpOptions.stuckMeets only selected⟩
  | false =>
    let filter : StatusQueryFilter := {
      machineId := some actor.machine.id, actorId := none, statuses := DfsmActor.targetStatuses opts
      updatedBeforeEpochMs := opts.olderThanMs.map (at_ - ·), limit := opts.limit, offset := 0 }
    let op : Op Context Data := .listByStatuses filter at_ actor.recoveryConfig.stuckThresholdMs
    obtain ⟨found,listed,once,rows⟩ := keeps.byStatuses (user s.log) s.store filter at_ actor.recoveryConfig.stuckThresholdMs
    refine ⟨found,(answer serve user op s).2,?_,keeps.reads _ _ _ id,once,fun item mem => ?_⟩
    · change eval (answer serve user) (orThrow (serve (user s.log) s.store op).1 : Act Context Data _) (answer serve user op s).2 = _
      rw [listed]
      rfl
    · obtain ⟨row,here,selected⟩ := rows item mem
      exact ⟨row,here,ForceCleanUpOptions.statusMeets only selected⟩

/-- A clean-up touches only transactions that meet every criterion given, and a dry run none. -/
def TouchesAsked (serve : Serving Context Data S) (user : List (Event (Reply Context Data)) → Surroundings Context Data)
    (kept : S → String → Kept Context Data) (actor : DfsmActor) (opts : ForceCleanUpOptions) (s : Alone Context Data S) : Prop :=
  (∀ t, kept ((actor.forceCleanUp opts : Act Context Data _).eval (answer serve user) s).2.store t ≠ kept s.store t →
    ∃ startedAt found after row, scan serve user actor opts s = some (startedAt,found,after) ∧ (kept s.store t).row = some row ∧
      opts.Meets actor.machine.id actor.recoveryConfig.stuckThresholdMs startedAt row) ∧
  (opts.dryRun = true → ∀ t,
    kept ((actor.forceCleanUp opts : Act Context Data _).eval (answer serve user) s).2.store t = kept s.store t)

/-- No criterion is lost on a transaction that a clean-up comes to. -/
def AllAsked (serve : Serving Context Data S) (user : List (Event (Reply Context Data)) → Surroundings Context Data)
    (kept : S → String → Kept Context Data) (actor : DfsmActor) (opts : ForceCleanUpOptions) (s : Alone Context Data S) : Prop :=
  opts.dryRun = true ∨ ∀ startedAt found after, scan serve user actor opts s = some (startedAt,found,after) →
    ∀ item ∈ reached serve user actor opts.action found after, ∀ row, (kept s.store item.transactionId).row = some row →
      opts.Asked startedAt row

theorem touchesIff (keeps : Keeps serve kept) (actor : DfsmActor) (opts : ForceCleanUpOptions) (s : Alone Context Data S) :
    TouchesAsked serve user kept actor opts s ↔ AllAsked serve user kept actor opts s := by
  unfold TouchesAsked AllAsked
  rw [cleanUpParts,evalBind,scan]
  have readies := readyReads actor user s keeps
  cases ready : (actor.ensureReady : Act Context Data Unit).eval (answer serve user) s with
  | mk result s1 =>
    rw [ready] at readies
    cases result with
    | error e =>
      have same (t : String) : kept s1.store t = kept s.store t := congrArg (kept · t) readies
      refine iff_of_true ⟨fun t moved => absurd (same t) moved,fun _ => same⟩ (.inr ?_)
      intro startedAt found after clash
      cases clash
    | ok _ =>
      dsimp only
      have timed : (answer serve user .now s1).2.store = s.store := (keeps.reads _ _ _ id).trans readies
      obtain ⟨found,after,listed,same,once,rows⟩ := candidatesRun actor user opts keeps
        (answer serve user .now s1).1 (answer serve user .now s1).2
      rw [show (now >>= fun startedAt => actor.candidates opts startedAt >>= cleaning actor opts : Act Context Data _).eval (answer serve user) s1 =
        (actor.candidates opts (answer serve user .now s1).1 >>= cleaning actor opts : Act Context Data _).eval (answer serve user)
          (answer serve user .now s1).2 from rfl,evalBind,listed]
      rw [timed] at same rows
      dsimp only
      cases dry : opts.dryRun with
      | true =>
        have still (t : String) : kept (eval (answer serve user) (cleaning actor opts found) after).2.store t = kept s.store t := by
          unfold cleaning
          rw [dry,← same]
          rfl
        exact iff_of_true ⟨fun t moved => absurd (still t) moved,fun _ => still⟩ (.inl rfl)
      | false =>
        have last : (eval (answer serve user) (cleaning actor opts found) after).2.store =
            (eval (answer serve user) (found.foldlM (round actor opts.action) 0) after).2.store := by
          unfold cleaning
          rw [dry,if_neg (by decide),evalBind]
          cases eval (answer serve user) (found.foldlM (round actor opts.action) 0) after with
          | mk r s => cases r <;> rfl
        obtain ⟨others,touched⟩ := loopTouches actor user opts.action keeps once 0 after
        rw [← last,same] at others touched
        constructor
        · rintro ⟨meets,_⟩
          refine .inr ?_
          intro startedAt found' after' scanned item mem row here
          cases scanned
          obtain ⟨row',here',iff⟩ := rows item (reachedMem item mem)
          have moved : kept (eval (answer serve user) (cleaning actor opts found) after).2.store item.transactionId ≠
              kept s.store item.transactionId :=
            fun same => touched item mem row here ((congrArg Kept.row same).trans here)
          obtain ⟨_,_,_,row'',scanned,there,held⟩ := meets item.transactionId moved
          cases scanned
          cases Option.some.inj (here.symm.trans here')
          cases Option.some.inj (here.symm.trans there)
          exact iff.mp held
        · intro asked
          refine ⟨fun t moved => ?_,fun dry => by cases dry⟩
          by_contra unmet
          refine moved (others t (fun item mem same => ?_))
          cases same
          obtain ⟨row,here,iff⟩ := rows item (reachedMem item mem)
          refine unmet ⟨_,found,after,row,rfl,here,iff.mpr ?_⟩
          exact (asked.resolve_left (by decide)) _ found after rfl item mem row here

end Alone

/-- Clean-up touches only what was asked for, over either store, exactly where no criterion is
lost: an age that `stuckOnly` drops, or statuses of which none is left. -/
theorem forcedCleanUpTouches (oldest : MongoStateStore.Oldest Context Data)
    (user : List (Event (Reply Context Data)) → Surroundings Context Data) (actor : DfsmActor) (opts : ForceCleanUpOptions) :
    (∀ s : Alone Context Data (H2StateStore Context Data), Alone.TouchesAsked serve user H2StateStore.kept actor opts s ↔
      Alone.AllAsked serve user H2StateStore.kept actor opts s) ∧
    ∀ s : Alone Context Data (MongoStateStore Context Data), Alone.TouchesAsked (serveMongo oldest) user MongoStateStore.kept actor opts s ↔
      Alone.AllAsked (serveMongo oldest) user MongoStateStore.kept actor opts s :=
  ⟨Alone.touchesIff H2StateStore.keeps actor opts,Alone.touchesIff (MongoStateStore.keeps oldest) actor opts⟩

/-- One transaction that has been completed. -/
def doneStore : H2StateStore Unit Unit where
  transactions := [{ stuckRecord "done" with status := .COMPLETED }]
  compensations := []
  unique := by decide

/-- A clean-up of IN_FLIGHT ones that does not include them deletes it: no status is left to
ask for. -/
theorem cleanUpDeletesDone : ¬Alone.TouchesAsked serve (fun _ => politeUser) H2StateStore.kept sweepingActor
    { statuses := [.IN_FLIGHT] } ⟨doneStore,[]⟩ := by
  intro claim
  obtain ⟨_,_,_,row,_,here,meets⟩ := claim.1 "done" (fun same => by cases congrArg Kept.row same)
  cases here
  rcases meets.status rfl with listed | includes
  · exact absurd listed (by decide)
  · exact absurd includes.1 (by decide)

end Dfsm.Java
