import Dfsm.Runtime.Solo
import Dfsm.Runtime.Requests
import Dfsm.Runtime.Rejection

/-! A recovery sweep with the store to itself: it takes one batch of the oldest
transactions in flight, and the stuck ones among them are the ones it acts on. -/
namespace Dfsm
open Program Act Protocol Solo

variable {Context Data : Type}

/-- The first write of a recovery action on a transaction. -/
def Takes (t : String) : OnRestartMode → Event (Reply Context Data) → Prop
  | .DELETE, ⟨.deleteTransactions ids,_⟩ => t ∈ ids
  | .MARK_FAIL, ⟨.updateTransaction id _ patch _,.ok _⟩ => id = t ∧ patch.status = some .FAILED
  | .COMPENSATE, ⟨.updateTransaction id _ patch _,.ok _⟩ => id = t ∧ patch.status = some .COMPENSATING
  | .CONTINUE, ⟨.updateTransaction id _ patch _,.ok _⟩ => id = t ∧ patch.status = some .IDLE
  | _, _ => False

theorem takesAbout {t : String} {mode : OnRestartMode} {e : Event (Reply Context Data)} (takes : Takes t mode e) :
    e.op.about = some t ∨ ∃ ids, e.op = .deleteTransactions ids ∧ t ∈ ids := by
  obtain ⟨op,r⟩ := e
  cases mode <;> cases op <;> first
    | contradiction
    | exact .inr ⟨_,rfl,takes⟩
    | (cases r <;> first | contradiction | exact .inl (congrArg some takes.1))

/-- The log goes on from what it was, with the first write of an action in it. -/
def Taken (t : String) (mode : OnRestartMode) (before after : Solo Context Data) : Prop :=
  ∃ es, after.log = before.log ++ es ∧ ∃ e ∈ es, Takes t mode e

theorem takenSince {t mode op r} {before after : Solo Context Data} (taken : Taken t mode (before.heard op r) after) :
    Taken t mode before after := by
  obtain ⟨es,log,e,mem,takes⟩ := taken
  exact ⟨⟨op,r⟩::es,log.trans (by simp),e,List.mem_cons_of_mem _ mem,takes⟩

section
variable {user : User Context Data} {s : Solo Context Data} {actor : Actor}

theorem updateTakes {α : Type} {t : String} {row : TransactionRecord Context Data} (stored : s.store.row t = some row) {mode : OnRestartMode}
    {patch : Int → TransactionUpdatePatch Context Data} {f : Int → Nat → Act Context Data α}
    (takes : ∀ at_, Takes t mode ⟨.updateTransaction t row.version (patch at_) [],.ok (row.version + 1)⟩) :
    Taken t mode s (run user (now >>= fun at_ => updateTransaction t row.version (patch at_) >>= f at_) s).2 := by
  rw [runNow]
  obtain ⟨s',ran,log,_⟩ := @runUpdate _ _ user (s.heard .now (clock user s)) t row stored (patch (clock user s)) []
  rw [runBind ran]
  obtain ⟨es,more⟩ := @runExtends _ _ user _ (f (clock user s) (row.version + 1)) s'
  have taken : Taken t mode (s.heard .now (clock user s)) (run user (f (clock user s) (row.version + 1)) s').2 :=
    ⟨⟨.updateTransaction t row.version (patch (clock user s)) [],.ok (row.version + 1)⟩::es,by rw [more,log]; simp,_,
      List.mem_cons_self,takes _⟩
  exact takenSince taken

theorem continueTakes {item : TransactionSummary Context Data} (stored : s.store.row item.transactionId = some item.toTransactionRecord) :
    Taken item.transactionId .CONTINUE s (run user (actor.continueTransaction item) s).2 := by
  let snapshot : TransactionSnapshot Context Data :=
    { item.toTransactionRecord with compensationStack := Store.lifo (s.store.entries item.transactionId) }
  have read : s.store.getTransaction item.transactionId = some snapshot := by
    rw [Store.getTransaction,stored]
    rfl
  have first {α : Type} {activeStep} {f : Int → Nat → Act Context Data α} := @updateTakes _ _ user
    (s.heard (.getTransaction item.transactionId) (some snapshot)) α item.transactionId item.toTransactionRecord stored .CONTINUE
    (fun updatedAt => { status := some .IDLE, activeStep, leaseOwner := some none, leaseExpiresAt := some none, updatedAt }) f
    (fun _ => ⟨rfl,rfl⟩)
  unfold Actor.continueTransaction
  rw [runGet,read]
  dsimp only
  cases item.activeStep with
  | none => exact takenSince first
  | some activeStep => exact takenSince first

theorem recoverTakes {item : TransactionSummary Context Data} (stored : s.store.row item.transactionId = some item.toTransactionRecord)
    {mode : OnRestartMode} (acts : mode ≠ .STOP) : Taken item.transactionId mode s (run user (actor.recover item mode) s).2 := by
  cases mode with
  | STOP => contradiction
  | DELETE => exact ⟨_,rfl,_,List.mem_singleton_self _,List.mem_singleton_self _⟩
  | MARK_FAIL => exact updateTakes stored (fun _ => ⟨rfl,rfl⟩)
  | COMPENSATE =>
    unfold Actor.recover Actor.compensateTransaction
    dsimp only
    simp only [bind_assoc]
    exact updateTakes stored (fun _ => ⟨rfl,rfl⟩)
  | CONTINUE => exact continueTakes stored

theorem recoverBeside {item : TransactionSummary Context Data} {mode : OnRestartMode} (s : Solo Context Data) :
    (∀ t, t ≠ item.transactionId → (run user (actor.recover item mode) s).2.store.world t = s.store.world t) ∧
      ∃ es, (run user (actor.recover item mode) s).2.log = s.log ++ es ∧
        ∀ e ∈ es, ∀ t, t ≠ item.transactionId → ∀ mode, ¬Takes t mode e := by
  by_cases deletes : mode = .DELETE
  · subst deletes
    refine ⟨?_,_,rfl,?_⟩
    · intro t other
      have unlisted : t ∉ [item.transactionId] := by simpa using other
      refine (@Solo.answered _ _ user s t (.deleteTransactions [item.transactionId])).2.trans ?_
      simp only [World.after,unlisted,if_false]
    · intro e mem t other mode takes
      cases List.mem_singleton.mp mem
      rcases takesAbout takes with none | ⟨ids,same,listed⟩
      · contradiction
      · cases same
        exact other (List.mem_singleton.mp listed)
  · obtain ⟨others,es,log,within⟩ := @runBeside _ _ user _ _ _ _ _ _ (@recoverStages _ _ (· = actor) actor rfl item item.status mode deletes) s
    refine ⟨others,es,log,?_⟩
    intro e mem t other mode takes
    obtain ⟨about,keeps⟩ := within e mem
    rcases takesAbout takes with here | ⟨ids,same,_⟩
    · rcases about with none | mine
      · rw [none] at here
        contradiction
      · exact other (Option.some.inj (here.symm.trans mine))
    · exact keeps ids same

/-- The whole recovery action was run on a transaction that stood as the sweep found it,
and its first write was accepted. -/
def Applied (user : User Context Data) (actor : Actor) (before : Store Context Data) (item : TransactionSummary Context Data)
    (after : Solo Context Data) : Prop :=
  ∃ start : Solo Context Data, start.store.world item.transactionId = before.world item.transactionId ∧
    Taken item.transactionId (actor.resolveRecoveryModeForState item.stateValue) start
      (run user (actor.recover item (actor.resolveRecoveryModeForState item.stateValue)) start).2 ∧
    ∃ later, after.log = (run user (actor.recover item (actor.resolveRecoveryModeForState item.stateValue)) start).2.log ++ later

theorem appliedLater {before : Store Context Data} {item} {after after' : Solo Context Data} (applied : Applied user actor before item after)
    (more : ∃ es, after'.log = after.log ++ es) : Applied user actor before item after' := by
  obtain ⟨start,stood,taken,later,log⟩ := applied
  obtain ⟨es,more⟩ := more
  exact ⟨start,stood,taken,later ++ es,by rw [more,log,List.append_assoc]⟩

theorem appliedTakes {before : Store Context Data} {item} {after : Solo Context Data} (applied : Applied user actor before item after) :
    ∃ e ∈ after.log, Takes item.transactionId (actor.resolveRecoveryModeForState item.stateValue) e := by
  obtain ⟨start,_,⟨es,log,e,mem,takes⟩,later,last⟩ := applied
  refine ⟨e,?_,takes⟩
  rw [last,log]
  simp [mem]

/-- Between two transactions of a sweep. -/
structure Swept (user : User Context Data) (actor : Actor) (before : Store Context Data) (found left : List (TransactionSummary Context Data))
    (s : Solo Context Data) : Prop extends Waiting before found left s where
  applied : ∀ item ∈ found, item ∈ left ∨ item.isStuck = false ∨ actor.resolveRecoveryModeForState item.stateValue = .STOP ∨
    Applied user actor before item s
  quiet : ∀ t, (∀ item ∈ found, item.transactionId ≠ t) → ∀ mode, ∀ e ∈ s.log, ¬Takes t mode e

theorem sweepRun {report : RecoverySweepReport} {item : TransactionSummary Context Data} (s : Solo Context Data) :
    (∃ report', (run user (actor.sweepTransaction report item) s).1 = .ok report') ∧
    (run user (actor.sweepTransaction report item) s).2 = if item.isStuck
      then (run user (actor.recover item (actor.resolveRecoveryModeForState item.stateValue)) s).2 else s := by
  unfold Actor.sweepTransaction
  cases item.isStuck with
  | false => exact ⟨⟨_,rfl⟩,rfl⟩
  | true =>
    simp only [Bool.not_true,Bool.false_eq_true,if_false,if_true]
    rw [runBind runAttempt]
    cases (run user (actor.recover item (actor.resolveRecoveryModeForState item.stateValue)) s).1 with
    | error e => exact ⟨⟨_,rfl⟩,rfl⟩
    | ok taken => cases taken <;> exact ⟨⟨_,rfl⟩,rfl⟩

theorem sweptStep {before : Store Context Data} {found left item} {report : RecoverySweepReport}
    (stored : before.row item.transactionId = some item.toTransactionRecord) (swept : Swept user actor before found (item::left) s) :
    Swept user actor before found left (run user (actor.sweepTransaction report item) s).2 := by
  rw [(@sweepRun _ _ user actor report item s).2]
  cases stuck : item.isStuck with
  | false =>
    simp only [Bool.false_eq_true,if_false]
    refine ⟨waitingStep swept.toWaiting (fun _ _ => rfl),?_,swept.quiet⟩
    intro other mem
    rcases swept.applied other mem with waiting | done
    · rcases List.mem_cons.mp waiting with head | later
      · exact .inr (.inl (head ▸ stuck))
      · exact .inl later
    · exact .inr done
  | true =>
    simp only [if_true]
    have stood := swept.waiting item List.mem_cons_self
    have here : s.store.row item.transactionId = some item.toTransactionRecord := (congrArg World.row stood).trans stored
    obtain ⟨beside,es,log,none⟩ := @recoverBeside _ _ user actor item (actor.resolveRecoveryModeForState item.stateValue) s
    refine ⟨waitingStep swept.toWaiting beside,?_,?_⟩
    · intro other mem
      rcases swept.applied other mem with waiting | stays | stops | applied
      · rcases List.mem_cons.mp waiting with head | later
        · by_cases stops : actor.resolveRecoveryModeForState item.stateValue = .STOP
          · cases head
            exact .inr (.inr (.inl stops))
          · cases head
            exact .inr (.inr (.inr ⟨s,stood,recoverTakes here stops,[],(List.append_nil _).symm⟩))
        · exact .inl later
      · exact .inr (.inl stays)
      · exact .inr (.inr (.inl stops))
      · exact .inr (.inr (.inr (appliedLater applied ⟨es,log⟩)))
    · intro t other mode e mem
      rw [log] at mem
      rcases List.mem_append.mp mem with before | new
      · exact swept.quiet t other mode e before
      · exact none e new t (Ne.symm (other item (swept.among item List.mem_cons_self))) mode

theorem retentionQuiet {sweptAt threshold : Int} (s : Solo Context Data) :
    ∃ count s' es, run user (actor.retentionCleanUp sweptAt threshold : Act Context Data Nat) s = (.ok count,s') ∧ s'.log = s.log ++ es ∧
      ∀ t row, s.store.row t = some row → (row.status = .IN_FLIGHT ∨ row.status = .COMPENSATING) →
        ∀ mode, ∀ e ∈ es, ¬Takes t mode e := by
  unfold Actor.retentionCleanUp
  split
  · exact ⟨_,_,[],rfl,(List.append_nil _).symm,by simp⟩
  split
  · exact ⟨_,_,[],rfl,(List.append_nil _).symm,by simp⟩
  rw [runQuery]
  split
  · refine ⟨_,_,[_],rfl,rfl,?_⟩
    intro t row stored flying mode e mem takes
    cases List.mem_singleton.mp mem
    rcases takesAbout takes with none | ⟨ids,same,_⟩ <;> contradiction
  · refine ⟨_,_,[_,_],rfl,List.append_assoc s.log [_] [_],?_⟩
    intro t row stored flying mode e mem takes
    rcases List.mem_cons.mp mem with first | second
    · subst first
      rcases takesAbout takes with none | ⟨ids,same,_⟩ <;> contradiction
    · cases List.mem_singleton.mp second
      rcases takesAbout takes with none | ⟨ids,same,listed⟩
      · contradiction
      cases same
      obtain ⟨item,found,named⟩ := List.mem_map.mp listed
      obtain ⟨stored',matching,_⟩ := Store.queryTells found
      rw [named] at stored'
      cases Option.some.inj (stored.symm.trans stored')
      simp only [Store.matchesFilter,Bool.and_eq_true] at matching
      have terminal := matching.1.1.2
      rcases flying with flying | flying <;> rw [flying] at terminal <;> contradiction

end

/-! The batch. -/

/-- Of the machine and in flight. -/
def Actor.inFlight (actor : Actor) (row : TransactionRecord Context Data) : Bool :=
  row.machineId = actor.machine.id && (row.status = .IN_FLIGHT || row.status = .COMPENSATING)

def Actor.queue (actor : Actor) (store : Store Context Data) : List (TransactionRecord Context Data) :=
  (store.transactions.filter actor.inFlight).insertionSort (fun a b => a.updatedAt ≤ b.updatedAt)

/-- The oldest in flight, as many as a sweep takes. -/
def Actor.batch (actor : Actor) (store : Store Context Data) : List (TransactionRecord Context Data) :=
  (actor.queue store).take actor.schedulerConfig.batchSize.toNat

theorem acceptedId {machine : MachineDefinition} (accepted : Accepted machine) : machine.id ≠ "" := by
  obtain ⟨raw,rfl,none⟩ := acceptedIssues accepted
  simp only [definitionIssues,List.append_eq_nil_iff] at none
  intro empty
  have id : raw.id = "" := empty
  have first := none.1.1.1.1.1
  rw [id] at first
  contradiction

/-- The query of a sweep. -/
def Actor.sweepFilter (actor : Actor) : TransactionQueryFilter :=
  { machineId := some actor.machine.id, statuses := [.IN_FLIGHT,.COMPENSATING], limit := some actor.schedulerConfig.batchSize }

/-- What follows the scan. -/
def Actor.sweepBatch (actor : Actor) (stuckThresholdMs sweptAt : Int) (inFlightList : List (TransactionSummary Context Data)) :
    Act Context Data RecoverySweepReport := do
  let report ← inFlightList.foldlM actor.sweepTransaction { sweptAt, scannedInFlight := inFlightList.length }
  let retentionDeleted ← actor.retentionCleanUp sweptAt stuckThresholdMs
  let stopIds := (report.actionsTaken.filter (·.1 = .STOP)).map (·.2)
  if !stopIds.isEmpty && actor.recoveryConfig.haltActorOnStop then
    .fail (.actorStoppedByRecovery actor.actorId stopIds)
  pure { report with retentionDeleted }

theorem sweepScans {actor : Actor} {threshold : Int} : (actor.executeRecoverySweep threshold : Act Context Data RecoverySweepReport) =
    now >>= fun sweptAt => ask (.queryTransactions actor.sweepFilter sweptAt threshold) >>= actor.sweepBatch threshold sweptAt := rfl

theorem sweepQuery {actor : Actor} (accepted : Accepted actor.machine) (store : Store Context Data) {sweptAt threshold : Int} :
    store.queryTransactions actor.sweepFilter sweptAt threshold = (actor.batch store).map (store.summary sweptAt threshold) := by
  have named : given (some actor.machine.id) = some actor.machine.id := by simp [given,Option.filter,acceptedId accepted]
  have any : given none = none := rfl
  have same : Store.matchesFilter actor.sweepFilter = (actor.inFlight : TransactionRecord Context Data → Bool) := by
    funext row
    simp [Store.matchesFilter,Actor.inFlight,Actor.sweepFilter,named,any,@eq_comm _ actor.machine.id row.machineId]
  unfold Store.queryTransactions
  rw [same]
  rfl

section
variable {actor : Actor} {store : Store Context Data} {row : TransactionRecord Context Data}

theorem queueMem : row ∈ actor.queue store ↔ row ∈ store.transactions ∧ actor.inFlight row = true := by
  unfold Actor.queue
  rw [List.mem_insertionSort,List.mem_filter]

theorem batchMem (mem : row ∈ actor.batch store) : row ∈ store.transactions ∧ actor.inFlight row = true :=
  queueMem.mp (List.mem_of_mem_take mem)

theorem batchNodup : (actor.batch store).Nodup := by
  have rows : store.transactions.Nodup := List.Nodup.of_map _ store.unique
  exact ((List.perm_insertionSort _ _).nodup_iff.mpr (rows.filter _)).sublist (List.take_sublist _ _)

theorem batchOlder (queued : row ∈ actor.queue store) (out : row ∉ actor.batch store) :
    (actor.batch store).length = actor.schedulerConfig.batchSize.toNat ∧ ∀ first ∈ actor.batch store, first.updatedAt ≤ row.updatedAt := by
  have sorted : (actor.queue store).Pairwise (fun a b => a.updatedAt ≤ b.updatedAt) := List.pairwise_insertionSort _ _
  unfold Actor.batch at out ⊢
  rw [← List.take_append_drop actor.schedulerConfig.batchSize.toNat (actor.queue store)] at queued sorted
  have later : row ∈ (actor.queue store).drop actor.schedulerConfig.batchSize.toNat := (List.mem_append.mp queued).resolve_left out
  constructor
  · have some := List.length_pos_of_mem later
    rw [List.length_drop] at some
    rw [List.length_take]
    omega
  · intro first mem
    exact (List.pairwise_append.mp sorted).2.2 first mem row later

end

/-! What a sweep has done to every stuck transaction. -/

/-- Stuck, and in a state whose recovery mode is not STOP. -/
structure Recoverable (actor : Actor) (stuckThresholdMs sweptAt : Int) (row : TransactionRecord Context Data) : Prop where
  flying : actor.inFlight row = true
  stuck : stuckThresholdMs ≤ sweptAt - row.updatedAt
  mode : actor.resolveRecoveryModeForState row.stateValue ≠ .STOP

section
variable {user : User Context Data} {actor : Actor} {store : Store Context Data}

theorem foldSwept {found : List (TransactionSummary Context Data)} {sweptAt : Int} {s : Solo Context Data}
    (start : Swept user actor s.store found found s)
    (stored : ∀ item ∈ found, s.store.row item.transactionId = some item.toTransactionRecord) :
    ∃ report s', run user (found.foldlM actor.sweepTransaction { sweptAt, scannedInFlight := found.length }) s = (.ok report,s') ∧
      Swept user actor s.store found [] s' := by
  obtain ⟨report,done,swept⟩ := evalFold (fun left (_ : RecoverySweepReport) s' => Swept user actor s.store found left s')
    (by
      intro item left report s' swept
      obtain ⟨⟨report',ok⟩,_⟩ := @sweepRun _ _ user actor report item s'
      exact ⟨report',ok,sweptStep (stored item (swept.among item List.mem_cons_self)) swept⟩) found start
  exact ⟨report,_,Prod.ext done rfl,swept⟩

theorem sweepApplies (accepted : Accepted actor.machine) {threshold : Int} {row : TransactionRecord Context Data}
    (here : row ∈ store.transactions) (recoverable : Recoverable actor threshold (clock user ⟨store,[]⟩) row) :
    Applied user actor store (store.summary (clock user ⟨store,[]⟩) threshold row)
      (run user (actor.executeRecoverySweep threshold) ⟨store,[]⟩).2 ↔ row ∈ actor.batch store := by
  let s : Solo Context Data := ⟨store,[]⟩
  let found := (actor.batch store).map (store.summary (clock user s) threshold)
  let before := (s.heard .now (clock user s)).heard (.queryTransactions actor.sweepFilter (clock user s) threshold) found
  have listed : store.queryTransactions actor.sweepFilter (clock user s) threshold = found := sweepQuery accepted store
  have stored : ∀ item ∈ found, store.row item.transactionId = some item.toTransactionRecord := by
    intro item mem
    rw [← listed] at mem
    exact (Store.queryTells mem).1
  have once : (found.map (·.transactionId)).Nodup := by
    rw [← listed]
    exact Store.queryOnce
  have start : Swept user actor before.store found found before := by
    refine ⟨waitingStart once,fun _ mem => .inl mem,?_⟩
    intro t _ mode e mem takes
    rcases List.mem_cons.mp mem with first | second
    · subst first
      rcases takesAbout takes with none | ⟨ids,same,_⟩ <;> contradiction
    · cases List.mem_singleton.mp second
      rcases takesAbout takes with none | ⟨ids,same,_⟩ <;> contradiction
  obtain ⟨report,s₁,folded,swept⟩ := foldSwept start stored
  obtain ⟨count,s₂,es,retained,log,quiet⟩ := @retentionQuiet _ _ user actor (clock user s) threshold s₁
  have ended : (run user (actor.executeRecoverySweep threshold) s).2 = s₂ := by
    rw [sweepScans,runNow,runQuery,heardStore,listed]
    unfold Actor.sweepBatch
    rw [runBind folded,runBind retained]
    dsimp only
    split <;> rfl
  rw [ended]
  constructor
  · intro applied
    by_contra out
    have alone : ∀ item ∈ found, item.transactionId ≠ row.transactionId := by
      intro item mem named
      obtain ⟨first,batched,same⟩ := List.mem_map.mp mem
      subst same
      have stood := Store.rowOf (batchMem batched).1
      rw [show first.transactionId = row.transactionId from named,Store.rowOf here] at stood
      cases Option.some.inj stood
      exact out batched
    have still : s₁.store.row row.transactionId = some row :=
      (congrArg World.row (swept.others row.transactionId alone)).trans (Store.rowOf here)
    have flying := recoverable.flying
    simp only [Actor.inFlight,Bool.and_eq_true,Bool.or_eq_true,decide_eq_true_eq] at flying
    obtain ⟨e,mem,takes⟩ := appliedTakes applied
    rw [log] at mem
    rcases List.mem_append.mp mem with first | last
    · exact swept.quiet _ alone _ e first takes
    · exact quiet _ row still flying.2 _ e last takes
  · intro batched
    rcases swept.applied _ (List.mem_map_of_mem batched) with left | fresh | stops | applied
    · contradiction
    · have flying := recoverable.flying
      simp only [Actor.inFlight,Bool.and_eq_true] at flying
      simp only [Store.summary,flying.2,Bool.true_and,decide_eq_false_iff_not] at fresh
      exact absurd recoverable.stuck fresh
    · exact absurd stops recoverable.mode
    · exact appliedLater applied ⟨es,log⟩

/-- No recoverable transaction is passed over: its action is applied, or a whole batch of
others is that are no younger. -/
def StarvesNone (user : User Context Data) (actor : Actor) (store : Store Context Data) (threshold : Int) : Prop :=
  let sweptAt := clock user ⟨store,[]⟩
  let after := (run user (actor.executeRecoverySweep threshold) ⟨store,[]⟩).2
  ∀ row ∈ store.transactions, Recoverable actor threshold sweptAt row → Applied user actor store (store.summary sweptAt threshold row) after ∨
    ∃ others : List (TransactionRecord Context Data), others.Nodup ∧ actor.schedulerConfig.batchSize ≤ others.length ∧
      ∀ other ∈ others, other ∈ store.transactions ∧ other ≠ row ∧ Recoverable actor threshold sweptAt other ∧
        other.updatedAt ≤ row.updatedAt ∧ Applied user actor store (store.summary sweptAt threshold other) after

end

/-- One transaction a sweep, and a door that stops in idle. -/
def stoppingActor : Actor :=
  { doorActor with recoveryConfig := { stateActions := [("idle",.STOP)] }, schedulerConfig := { batchSize := 1 } }

def stoppedStore : Store Unit Unit where
  transactions :=
    [{ doorRecord.toTransactionRecord with status := .IN_FLIGHT },
     { doorRecord.toTransactionRecord with transactionId := "u", stateValue := working, status := .IN_FLIGHT, updatedAt := 1 }]
  compensations := []
  unique := by decide

def oneUser : User Unit Unit
  | _, .now => 1
  | _, op => politeUser op

end Dfsm
