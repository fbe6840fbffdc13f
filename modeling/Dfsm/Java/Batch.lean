import Dfsm.Java.Requests
import Dfsm.Lib.Trace

/-! How far a recovery sweep comes through its batch, and an actor through its
initialization. -/
namespace Dfsm.Java
open Program Act Protocol

variable {Context Data σ : Type}

/-- What every store keeps to, whatever user code and other workers do between two
requests: a transaction is read under its own id, and a listing has each one once. -/
structure Coherent (answer : (op : Op Context Data) → σ → Reply Context Data op × σ) : Prop where
  own : ∀ t s snapshot, (answer (.getTransaction t) s).1 = .ok (some snapshot) → snapshot.transactionId = t
  inFlight : ∀ f at_ threshold s found, (answer (.listInFlight f at_ threshold) s).1 = .ok found →
    (found.map (·.transactionId)).Nodup
  byStatuses : ∀ f at_ threshold s found, (answer (.listByStatuses f at_ threshold) s).1 = .ok found →
    (found.map (·.transactionId)).Nodup

theorem sortedIds {store : H2StateStore Context Data} {keep : TransactionRecord Context Data → Bool} {limit offset at_ threshold} :
    (((H2StateStore.page limit offset (store.transactions.filter keep)).map (store.summary at_ threshold)).map
      (·.transactionId)).Nodup := by
  rw [List.map_map]
  change ((H2StateStore.page limit offset (store.transactions.filter keep)).map (·.transactionId)).Nodup
  have sorted : (((store.transactions.filter keep).insertionSort (fun a b => a.updatedAt ≤ b.updatedAt)).map
      (·.transactionId)).Nodup :=
    (((List.perm_insertionSort _ _).map _).nodup_iff).mpr (store.unique.sublist (List.filter_sublist.map _))
  exact sorted.sublist (((List.take_sublist _ _).trans (List.drop_sublist _ _)).map _)

theorem readOwn {store : H2StateStore Context Data} {t : String} {snapshot : TransactionSnapshot Context Data}
    (read : store.getTransaction t = some snapshot) : snapshot.transactionId = t := by
  obtain ⟨row,found,rfl⟩ := Option.map_eq_some_iff.mp read
  have same := List.find?_some found
  exact of_decide_eq_true same

theorem serveCoherent (user : Surroundings Context Data) : Coherent (fun op store => serve user store op) where
  own t store snapshot read := readOwn (Except.ok.inj read)
  inFlight f at_ threshold store found listed := by
    cases Except.ok.inj listed
    exact sortedIds
  byStatuses f at_ threshold store found listed := by
    cases Except.ok.inj listed
    exact sortedIds

namespace DfsmActor
variable (actor : DfsmActor)

/-- The transactions of a batch that the recovery acts on. -/
def acting (found : List (TransactionSummary Context Data)) : List (TransactionSummary Context Data) :=
  found.filter (fun item => actor.resolveRecoveryMode item.stateValue ≠ .STOP)

def recovery (item : TransactionSummary Context Data) : Act Context Data Unit :=
  actor.applyRecoveryMode item.transactionId (actor.resolveRecoveryMode item.stateValue)

def deletion (exp : TransactionSummary Context Data) : Act Context Data Unit := do
  let _ ← orThrow (← ask (.deleteTransaction exp.transactionId exp.version))

def stuckListing (sweptAt stuckThresholdMs : Int) : Op Context Data :=
  .listInFlight (actor.stuckFilter actor.schedulerConfig.batchSize) sweptAt stuckThresholdMs

def expiredListing (sweptAt stuckThresholdMs retentionMs : Int) : Op Context Data :=
  .listByStatuses {
    machineId := some actor.machine.id, actorId := none, statuses := TERMINAL_STATUSES
    updatedBeforeEpochMs := some (sweptAt - retentionMs), limit := actor.schedulerConfig.batchSize, offset := 0 }
    sweptAt stuckThresholdMs

/-- The recovery of this transaction is somewhere in the log, from its first request to its last. -/
def Treated (log : List (Event (Reply Context Data))) (item : TransactionSummary Context Data) : Prop :=
  ∃ own, own <:+: log ∧ (actor.recovery item).Ran own

/-- Where a retention is set the log has a listing of what is over it, and then the deletion
of all of that. -/
def Purged (sweptAt stuckThresholdMs : Int) (retentionMs : Option Int) (log : List (Event (Reply Context Data))) : Prop :=
  ∀ ms, retention retentionMs = some ms → ∃ before expired after,
    log = before ++ ⟨actor.expiredListing sweptAt stuckThresholdMs ms,.ok expired⟩ :: after ∧
    ∀ exp ∈ expired, ∃ r, ⟨.deleteTransaction exp.transactionId exp.version,r⟩ ∈ after

variable (answer : (op : Op Context Data) → σ → Reply Context Data op × σ)

/-- The listing succeeds, and no deletion throws but that of the last. -/
def PurgeFlows (sweptAt stuckThresholdMs : Int) (retentionMs : Option Int) (s : σ) : Prop :=
  ∀ ms, retention retentionMs = some ms → ∃ expired,
    (answer (actor.expiredListing sweptAt stuckThresholdMs ms) s).1 = .ok expired ∧
    Flows answer deletion True (fun _ => True) expired (answer (actor.expiredListing sweptAt stuckThresholdMs ms) s).2

/-- No recovery throws but that of the last where there is nothing to purge, and the purge
that comes after them flows. -/
def BatchFlows (sweptAt stuckThresholdMs : Int) (retentionMs : Option Int) (found : List (TransactionSummary Context Data))
    (s : σ) : Prop :=
  Flows answer actor.recovery (retention retentionMs = none) (actor.PurgeFlows answer sweptAt stuckThresholdMs retentionMs)
    (actor.acting found) s

end DfsmActor

section
variable {actor : DfsmActor} {answer : (op : Op Context Data) → σ → Reply Context Data op × σ}
  {sweptAt stuckThresholdMs : Int} {retentionMs : Option Int}

theorem purgeVoid (expired : List (TransactionSummary Context Data)) :
    (DfsmActor.purge expired).void = forM expired DfsmActor.deletion := by
  refine voidFold (fun count exp => ?_) expired 0
  rw [voidBind]
  refine congrArg (Program.bind _) (funext fun r => ?_)
  cases r <;> rfl

theorem batchVoid (found : List (TransactionSummary Context Data)) :
    (actor.sweepBatch sweptAt stuckThresholdMs retentionMs found).void =
      (forM (actor.acting found) actor.recovery >>= fun _ =>
        (actor.purgeExpired sweptAt stuckThresholdMs retentionMs : Act Context Data Nat).void) := by
  have round (swept) (item : TransactionSummary Context Data) : (actor.sweepSummary swept item).void =
      if actor.resolveRecoveryMode item.stateValue ≠ .STOP then actor.recovery item else pure () := by
    unfold DfsmActor.sweepSummary
    dsimp only
    by_cases stops : actor.resolveRecoveryMode item.stateValue = .STOP
    · rw [if_pos stops,if_neg (not_not_intro stops)]
      rfl
    · rw [if_neg stops,if_pos stops,voidBind]
      exact bindDoneRight _
  have rounds : (found.foldlM actor.sweepSummary (0,[])).void = forM (actor.acting found) actor.recovery := by
    rw [voidFold round,DfsmActor.acting,← forFilter]
    simp only [decide_eq_true_eq]
  unfold DfsmActor.sweepBatch
  rw [voidBind,← rounds,← bindVoid]
  refine congrArg (Program.bind _) (funext fun swept => ?_)
  exact voidBind _ _

theorem recoveryEvents (coherent : Coherent answer) {item : TransactionSummary Context Data} {s : σ} :
    ∀ e ∈ trace answer (actor.recovery item) s, e.op.Concerns item.transactionId := by
  intro e e_in
  have possible (op : Op Context Data) (s : σ) : (concerning item.transactionId).replies op (answer op s).1 := by
    cases op with
    | getTransaction t =>
      cases read : (answer (.getTransaction t) s).1 with
      | error e => trivial
      | ok found =>
        cases found with
        | none => trivial
        | some snapshot => exact coherent.own t s snapshot read
    | _ => trivial
  obtain ⟨_,concerns⟩ := traceObeys possible recoverConcerns s e e_in
  exact concerns

theorem recoveryReads {item : TransactionSummary Context Data} {es} (ran : (actor.recovery item).Ran es) :
    ∃ r, ⟨.getTransaction item.transactionId,r⟩ ∈ es := by
  obtain ⟨q,runs,ended⟩ := ran
  cases runs with
  | stop => exact ended.elim
  | step rest => exact ⟨_,List.mem_cons_self⟩

theorem deletionEvents {exp : TransactionSummary Context Data} {s : σ} :
    ∀ e ∈ trace answer (DfsmActor.deletion exp) s, e.op = .deleteTransaction exp.transactionId exp.version := by
  intro e e_in
  rcases List.mem_cons.mp e_in with rfl | e_in
  · rfl
  · cases deleted : (answer (.deleteTransaction exp.transactionId exp.version) s).1 with
    | ok _ => rw [deleted] at e_in; exact absurd e_in List.not_mem_nil
    | error _ => rw [deleted] at e_in; exact absurd e_in List.not_mem_nil

theorem deletionDeletes {exp : TransactionSummary Context Data} {es} (ran : (DfsmActor.deletion exp).Ran es) :
    ∃ r, ⟨.deleteTransaction exp.transactionId exp.version,r⟩ ∈ es := by
  obtain ⟨q,runs,ended⟩ := ran
  cases runs with
  | stop => exact ended.elim
  | step rest => exact ⟨_,List.mem_cons_self⟩

theorem middleUnique {Op : Type} {Reply : Op → Type} (kind : Op → Prop) {before before' after after' : List (Event Reply)}
    {e e' : Event Reply} (same : before ++ e::after = before' ++ e'::after') (is' : kind e'.op)
    (noneBefore : ∀ e ∈ before, ¬kind e.op) (noneAfter : ∀ e ∈ after, ¬kind e.op) :
    e = e' ∧ after = after' := by
  have parts := (List.append_cons_inj_of_notMem (fun e_in => noneBefore e' e_in is') (fun e_in => noneAfter e' e_in is')).mp same
  exact parts.2

def Op.ListsStatuses : Op Context Data → Prop
  | .listByStatuses _ _ _ => True
  | _ => False

theorem concernsNot {op : Op Context Data} {t : String} (concerns : op.Concerns t) : ¬op.ListsStatuses := by
  cases op <;> first | exact id | exact concerns.elim

theorem purgeTrace {s : σ} {ms : Int} (due : DfsmActor.retention retentionMs = some ms) :
    trace answer (actor.purgeExpired sweptAt stuckThresholdMs retentionMs : Act Context Data Nat) s =
      ⟨actor.expiredListing sweptAt stuckThresholdMs ms,(answer (actor.expiredListing sweptAt stuckThresholdMs ms) s).1⟩ ::
        trace answer (orThrow (answer (actor.expiredListing sweptAt stuckThresholdMs ms) s).1 >>= DfsmActor.purge)
          (answer (actor.expiredListing sweptAt stuckThresholdMs ms) s).2 := by
  unfold DfsmActor.purgeExpired
  rw [due]
  rfl

theorem purgeRounds (answer : (op : Op Context Data) → σ → Reply Context Data op × σ)
    (expired : List (TransactionSummary Context Data)) (s : σ) :
    ∃ front left, expired = front ++ left ∧ Rounds answer DfsmActor.deletion front (trace answer (DfsmActor.purge expired) s) ∧
      (Flows answer DfsmActor.deletion True (fun _ => True) expired s ↔ left = []) := by
  rw [← traceVoid,purgeVoid,← bindDoneRight (forM expired DfsmActor.deletion)]
  rcases loopTrace answer DfsmActor.deletion True (fun _ => True) (pure () : Act Context Data Unit) expired s with
    ⟨es,last,same,rounds,flows⟩ | ⟨front,x,left,rfl,rounds,flows⟩
  · refine ⟨expired,[],(List.append_nil _).symm,?_,by simpa using flows⟩
    have whole : trace answer (forM expired DfsmActor.deletion >>= Program.done) s = es := same.trans (List.append_nil _)
    rwa [whole]
  · exact ⟨front ++ [x],left,by simp,rounds,by simpa using flows⟩

theorem purgedIff (coherent : Coherent answer) {before : List (Event (Reply Context Data))} {s : σ}
    (noneBefore : ∀ e ∈ before, ¬e.op.ListsStatuses) :
    actor.Purged sweptAt stuckThresholdMs retentionMs
        (before ++ trace answer (actor.purgeExpired sweptAt stuckThresholdMs retentionMs : Act Context Data Nat) s) ↔
      actor.PurgeFlows answer sweptAt stuckThresholdMs retentionMs s := by
  refine forall_congr' fun ms => forall_congr' fun due => ?_
  rw [purgeTrace due]
  cases listed : (answer (actor.expiredListing sweptAt stuckThresholdMs ms) s).1 with
  | error e =>
    constructor
    · rintro ⟨before',expired,after,same,_⟩
      obtain ⟨clash,_⟩ := middleUnique Op.ListsStatuses same trivial noneBefore (fun e e_in => absurd e_in List.not_mem_nil)
      cases clash
    · rintro ⟨expired,clash,_⟩
      cases clash
  | ok found =>
    obtain ⟨front,left,parts,rounds,flows⟩ := purgeRounds answer found
      (answer (actor.expiredListing sweptAt stuckThresholdMs ms) s).2
    have noneAfter : ∀ e ∈ trace answer (DfsmActor.purge found) (answer (actor.expiredListing sweptAt stuckThresholdMs ms) s).2,
        ¬e.op.ListsStatuses := by
      intro e e_in
      obtain ⟨exp,_,s,e_in⟩ := rounds.only e e_in
      rw [deletionEvents e e_in]
      exact id
    constructor
    · rintro ⟨before',expired,after,same,deleted⟩
      obtain ⟨⟨⟩,rfl⟩ := middleUnique Op.ListsStatuses same trivial noneBefore noneAfter
      refine ⟨found,rfl,flows.mpr ?_⟩
      refine List.eq_nil_iff_forall_not_mem.mpr (fun missed missed_in => ?_)
      obtain ⟨r,asked⟩ := deleted missed (by rw [parts]; exact List.mem_append_right front missed_in)
      obtain ⟨exp,exp_in,s,e_in⟩ := rounds.only _ asked
      have ids : missed.transactionId = exp.transactionId := (Op.deleteTransaction.inj (deletionEvents _ e_in)).1
      have distinct := coherent.byStatuses _ _ _ _ _ listed
      rw [parts,List.map_append] at distinct
      exact (List.disjoint_of_nodup_append distinct) (List.mem_map_of_mem exp_in)
        (List.mem_map.mpr ⟨missed,missed_in,ids⟩)
    · rintro ⟨expired,⟨⟩,flow⟩
      have all : found = front := by rw [parts,flows.mp flow,List.append_nil]
      refine ⟨before,found,_,rfl,fun exp exp_in => ?_⟩
      obtain ⟨own,within,ran⟩ := rounds.each exp (all ▸ exp_in)
      obtain ⟨r,asked⟩ := deletionDeletes ran
      exact ⟨r,within.subset asked⟩

/-- What is asked before a batch: neither a transaction nor a listing by statuses. -/
def Op.Scans : Op Context Data → Prop
  | .now | .listInFlight _ _ _ => True
  | _ => False

theorem batchRounds (actor : DfsmActor) (answer : (op : Op Context Data) → σ → Reply Context Data op × σ)
    (sweptAt stuckThresholdMs : Int) (retentionMs : Option Int) (found : List (TransactionSummary Context Data)) (s : σ) :
    (∃ es s', trace answer (actor.sweepBatch sweptAt stuckThresholdMs retentionMs found) s =
        es ++ trace answer (actor.purgeExpired sweptAt stuckThresholdMs retentionMs : Act Context Data Nat) s' ∧
      Rounds answer actor.recovery (actor.acting found) es ∧
      (actor.BatchFlows answer sweptAt stuckThresholdMs retentionMs found s ↔
        actor.PurgeFlows answer sweptAt stuckThresholdMs retentionMs s')) ∨
    ∃ front x left, actor.acting found = front ++ x::left ∧
      Rounds answer actor.recovery (front ++ [x]) (trace answer (actor.sweepBatch sweptAt stuckThresholdMs retentionMs found) s) ∧
      (actor.BatchFlows answer sweptAt stuckThresholdMs retentionMs found s ↔
        left = [] ∧ DfsmActor.retention retentionMs = none) := by
  rw [← traceVoid (actor.sweepBatch _ _ _ _),batchVoid]
  have ends := loopTrace answer actor.recovery (DfsmActor.retention retentionMs = none)
    (actor.PurgeFlows answer sweptAt stuckThresholdMs retentionMs)
    (actor.purgeExpired sweptAt stuckThresholdMs retentionMs : Act Context Data Nat).void (actor.acting found) s
  simp only [traceVoid (actor.purgeExpired _ _ _)] at ends
  exact ends

theorem batchIff (coherent : Coherent answer) {found : List (TransactionSummary Context Data)}
    (distinct : (found.map (·.transactionId)).Nodup) {scan : List (Event (Reply Context Data))}
    (scanned : ∀ e ∈ scan, e.op.Scans) (s : σ) :
    ((∀ item ∈ actor.acting found,
        actor.Treated (scan ++ trace answer (actor.sweepBatch sweptAt stuckThresholdMs retentionMs found) s) item) ∧
      actor.Purged sweptAt stuckThresholdMs retentionMs
        (scan ++ trace answer (actor.sweepBatch sweptAt stuckThresholdMs retentionMs found) s)) ↔
      actor.BatchFlows answer sweptAt stuckThresholdMs retentionMs found s := by
  have scanLists : ∀ e ∈ scan, ¬e.op.ListsStatuses := by
    rintro ⟨op,r⟩ e_in lists
    have scans := scanned _ e_in
    cases op <;> first | exact lists | exact scans
  have scanReads {t r} : (⟨.getTransaction t,r⟩ : Event (Reply Context Data)) ∉ scan := fun e_in => scanned _ e_in
  rcases batchRounds actor answer sweptAt stuckThresholdMs retentionMs found s with ⟨es,s',same,rounds,flows⟩ | ⟨front,x,left,parts,rounds,flows⟩
  · rw [same,flows,← List.append_assoc]
    have lists : ∀ e ∈ scan ++ es, ¬e.op.ListsStatuses := by
      intro e e_in
      rcases List.mem_append.mp e_in with e_in | e_in
      · exact scanLists e e_in
      · obtain ⟨item,_,s,e_in⟩ := rounds.only e e_in
        exact concernsNot (recoveryEvents coherent e e_in)
    rw [purgedIff coherent lists]
    refine and_iff_right (fun item item_in => ?_)
    obtain ⟨own,within,ran⟩ := rounds.each item item_in
    exact ⟨own,within.trans ((List.suffix_append scan es).isInfix.trans (List.prefix_append _ _).isInfix),ran⟩
  · rw [flows]
    constructor
    · rintro ⟨treated,purged⟩
      constructor
      · refine List.eq_nil_iff_forall_not_mem.mpr (fun missed missed_in => ?_)
        obtain ⟨own,within,ran⟩ := treated missed (by rw [parts]; exact List.mem_append_right front (List.mem_cons_of_mem x missed_in))
        obtain ⟨r,read⟩ := recoveryReads ran
        rcases List.mem_append.mp (within.subset read) with e_in | e_in
        · exact scanReads e_in
        · obtain ⟨item,item_in,s,e_in⟩ := rounds.only _ e_in
          have ids : missed.transactionId = item.transactionId := recoveryEvents coherent _ e_in
          have own : ((actor.acting found).map (·.transactionId)).Nodup := distinct.sublist (List.filter_sublist.map _)
          rw [parts,List.append_cons,List.map_append] at own
          exact (List.disjoint_of_nodup_append own) (List.mem_map_of_mem item_in) (List.mem_map.mpr ⟨missed,missed_in,ids⟩)
      · cases due : DfsmActor.retention retentionMs with
        | none => rfl
        | some ms =>
          obtain ⟨before,expired,after,same,_⟩ := purged ms due
          have listing : (⟨actor.expiredListing sweptAt stuckThresholdMs ms,.ok expired⟩ : Event (Reply Context Data)) ∈
              scan ++ trace answer (actor.sweepBatch sweptAt stuckThresholdMs retentionMs found) s := by
            rw [same]
            exact List.mem_append_right before List.mem_cons_self
          rcases List.mem_append.mp listing with e_in | e_in
          · exact absurd trivial (scanLists _ e_in)
          · obtain ⟨item,_,s,e_in⟩ := rounds.only _ e_in
            exact absurd trivial (concernsNot (recoveryEvents coherent _ e_in))
    · rintro ⟨rfl,free⟩
      constructor
      · intro item item_in
        obtain ⟨own,within,ran⟩ := rounds.each item (parts ▸ item_in)
        exact ⟨own,within.trans (List.suffix_append scan _).isInfix,ran⟩
      · intro ms due
        rw [free] at due
        cases due

theorem sweepTrace (stuckThresholdMs : Int) (retentionMs : Option Int) (s : σ) :
    trace answer (actor.runRecoverySweep stuckThresholdMs retentionMs : Act Context Data SweepReport) s =
      [⟨.now,(answer .now s).1⟩,⟨actor.stuckListing (answer .now s).1 stuckThresholdMs,
        (answer (actor.stuckListing (answer .now s).1 stuckThresholdMs) (answer .now s).2).1⟩] ++
      trace answer (orThrow (answer (actor.stuckListing (answer .now s).1 stuckThresholdMs) (answer .now s).2).1 >>=
        actor.sweepBatch (answer .now s).1 stuckThresholdMs retentionMs)
        (answer (actor.stuckListing (answer .now s).1 stuckThresholdMs) (answer .now s).2).2 := rfl

theorem sweepIff (actor : DfsmActor) (stuckThresholdMs : Int) (retentionMs : Option Int) (coherent : Coherent answer) {s : σ} {found : List (TransactionSummary Context Data)}
    (scanned : (answer (actor.stuckListing (answer .now s).1 stuckThresholdMs) (answer .now s).2).1 = .ok found) :
    ((∀ item ∈ found, actor.resolveRecoveryMode item.stateValue ≠ .STOP →
        actor.Treated (trace answer (actor.runRecoverySweep stuckThresholdMs retentionMs : Act Context Data SweepReport) s) item) ∧
      actor.Purged (answer .now s).1 stuckThresholdMs retentionMs
        (trace answer (actor.runRecoverySweep stuckThresholdMs retentionMs : Act Context Data SweepReport) s)) ↔
      actor.BatchFlows answer (answer .now s).1 stuckThresholdMs retentionMs found
        (answer (actor.stuckListing (answer .now s).1 stuckThresholdMs) (answer .now s).2).2 := by
  have acted (log : List (Event (Reply Context Data))) :
      (∀ item ∈ found, actor.resolveRecoveryMode item.stateValue ≠ .STOP → actor.Treated log item) ↔
        ∀ item ∈ actor.acting found, actor.Treated log item := by
    simp only [DfsmActor.acting,List.mem_filter,decide_eq_true_eq,and_imp]
  rw [acted,sweepTrace,scanned]
  refine batchIff coherent (coherent.inFlight _ _ _ _ _ scanned) ?_ _
  intro e e_in
  rcases List.mem_cons.mp e_in with rfl | e_in
  · trivial
  · cases List.mem_singleton.mp e_in
    trivial

theorem sweepStarts (coherent : Coherent answer) {s : σ} {r : Unit} :
    (⟨.startScheduler,r⟩ : Event (Reply Context Data)) ∉
      trace answer (actor.runRecoverySweep stuckThresholdMs none : Act Context Data SweepReport) s := by
  rw [sweepTrace]
  intro e_in
  rcases List.mem_append.mp e_in with e_in | e_in
  · rcases List.mem_cons.mp e_in with clash | e_in
    · cases clash
    · cases List.mem_singleton.mp e_in
  · cases scanned : (answer (actor.stuckListing (answer .now s).1 stuckThresholdMs) (answer .now s).2).1 with
    | error e =>
      rw [scanned] at e_in
      exact absurd e_in List.not_mem_nil
    | ok found =>
      rw [scanned] at e_in
      rcases batchRounds actor answer (answer .now s).1 stuckThresholdMs none found
         (answer (actor.stuckListing (answer .now s).1 stuckThresholdMs) (answer .now s).2).2 with
        ⟨es,s',same,rounds,_⟩ | ⟨front,x,left,_,rounds,_⟩
      · change _ ∈ trace answer (actor.sweepBatch _ _ _ found) _ at e_in
        rw [same] at e_in
        rcases List.mem_append.mp e_in with e_in | e_in
        · obtain ⟨item,_,s,e_in⟩ := rounds.only _ e_in
          exact recoveryEvents coherent _ e_in
        · exact absurd e_in List.not_mem_nil
      · obtain ⟨item,_,s,e_in⟩ := rounds.only _ e_in
        exact recoveryEvents coherent _ e_in

end

/-- The flag of an actor: it is set once, and never taken back. -/
structure Flagged (answer : (op : Op Context Data) → σ → Reply Context Data op × σ) (flag : σ → Bool) : Prop where
  reads : ∀ s, (answer .initialized s).1 = flag s
  sets : ∀ s, flag (answer .setInitialized s).2 = true
  stays : ∀ op s, flag s = true → flag (answer op s).2 = true

/-- The store and the flag of one actor. -/
def attend (user : Surroundings Context Data) : (op : Op Context Data) → H2StateStore Context Data × Bool →
    Reply Context Data op × (H2StateStore Context Data × Bool)
  | .initialized, s => (s.2,s)
  | .setInitialized, s => ((),(s.1,true))
  | op, s => ((serve user s.1 op).1,((serve user s.1 op).2,s.2))

theorem attendCoherent (user : Surroundings Context Data) : Coherent (attend user) where
  own t s snapshot read := (serveCoherent user).own t s.1 snapshot read
  inFlight f at_ threshold s found listed := (serveCoherent user).inFlight f at_ threshold s.1 found listed
  byStatuses f at_ threshold s found listed := (serveCoherent user).byStatuses f at_ threshold s.1 found listed

theorem attendFlagged (user : Surroundings Context Data) : Flagged (attend user) (·.2) where
  reads _ := rfl
  sets _ := rfl
  stays op s set_ := by cases op <;> first | exact set_ | rfl

section
variable {actor : DfsmActor} {answer : (op : Op Context Data) → σ → Reply Context Data op × σ} {flag : σ → Bool}

theorem flagStays {α : Type} (flagged : Flagged answer flag) (p : Act Context Data α) {s : σ} (set_ : flag s = true) :
    flag (eval answer p s).2 = true := by
  induction p generalizing s with
  | done a => exact set_
  | fail e => exact set_
  | ask op next ih => exact ih _ (flagged.stays op s set_)

/-- The world in which the initial sweep starts. -/
def beforeSweep (answer : (op : Op Context Data) → σ → Reply Context Data op × σ) (s : σ) : σ :=
  (answer .setInitialized (answer .initializeStore (answer .initialized s).2).2).2

theorem initializes {s : σ} (flagged : Flagged answer flag) (fresh : flag s = false)
    (stored : (answer .initializeStore (answer .initialized s).2).1 = .ok ()) :
    eval answer (actor.initializeActor : Act Context Data Unit) s =
        eval answer (actor.initialSweep >>= fun _ => actor.startEnabled : Act Context Data Unit) (beforeSweep answer s) ∧
    trace answer (actor.initializeActor : Act Context Data Unit) s =
      [⟨.initialized,false⟩,⟨.initializeStore,.ok ()⟩,⟨.setInitialized,(answer .setInitialized
        (answer .initializeStore (answer .initialized s).2).2).1⟩] ++
      trace answer (actor.initialSweep >>= fun _ => actor.startEnabled : Act Context Data Unit) (beforeSweep answer s) := by
  have unset : (answer .initialized s).1 = false := (flagged.reads s).trans fresh
  unfold DfsmActor.initializeActor
  constructor
  · change eval answer (if (answer .initialized s).1 then _ else _ : Act Context Data Unit) _ = _
    rw [unset]
    change eval answer (orThrow (answer .initializeStore (answer .initialized s).2).1 >>= _ : Act Context Data Unit) _ = _
    rw [stored]
    rfl
  · change _::trace answer (if (answer .initialized s).1 then _ else _ : Act Context Data Unit) _ = _
    rw [unset]
    change _::_::trace answer (orThrow (answer .initializeStore (answer .initialized s).2).1 >>= _ : Act Context Data Unit) _ = _
    rw [stored]
    rfl

theorem staysReady (flagged : Flagged answer flag) {s : σ} (set_ : flag s = true) (open_ : (answer .closed s).1 = false) :
    (eval answer (actor.ensureReady : Act Context Data Unit) s).1 = .ok () := by
  change (eval answer (if (answer .closed s).1 then _ else _ : Act Context Data Unit) _).1 = _
  rw [open_]
  change (eval answer (if (answer .initialized (answer .closed s).2).1 then _ else _ : Act Context Data Unit) _).1 = _
  rw [flagged.reads,flagged.stays .closed s set_]
  rfl

theorem schedulerStarts (coherent : Coherent answer) (flagged : Flagged answer flag) {s : σ} (fresh : flag s = false)
    (stored : (answer .initializeStore (answer .initialized s).2).1 = .ok ()) (enabled : actor.schedulerConfig.enabled = true) :
    (∃ r, ⟨.startScheduler,r⟩ ∈ trace answer (actor.initializeActor : Act Context Data Unit) s) ↔
      (eval answer (actor.initialSweep : Act Context Data Unit) (beforeSweep answer s)).1 = .ok () := by
  have quiet {r} : (⟨.startScheduler,r⟩ : Event (Reply Context Data)) ∉
      trace answer (actor.initialSweep : Act Context Data Unit) (beforeSweep answer s) := by
    unfold DfsmActor.initialSweep
    split
    · change _ ∉ trace answer (actor.runRecoverySweep actor.recoveryConfig.stuckThresholdMs none).void _
      rw [traceVoid]
      exact sweepStarts coherent
    · exact List.not_mem_nil
  rw [(initializes flagged fresh stored).2,traceBind,DfsmActor.startEnabled,if_pos enabled]
  cases swept : eval answer (actor.initialSweep : Act Context Data Unit) (beforeSweep answer s) with
  | mk result s' =>
    cases result with
    | ok u =>
      refine ⟨fun _ => rfl,fun _ => ⟨(answer .startScheduler s').1,?_⟩⟩
      exact List.mem_append_right _ (List.mem_append_right _ (List.mem_singleton_self _))
    | error e =>
      refine ⟨fun started => ?_,fun clash => by cases clash⟩
      obtain ⟨r,e_in⟩ := started
      simp only [List.append_nil,List.cons_append,List.nil_append,List.mem_cons] at e_in
      rcases e_in with clash | clash | clash | e_in
      · cases clash
      · cases clash
      · cases clash
      · exact absurd e_in quiet

/-- A sweep treats its batch: where the scan succeeds, every transaction that it found and that
is not to stop is recovered, and the purge performed, exactly when no recovery throws but that
of the last with nothing to purge, and no deletion but that of the last. Its failures never
keep the actor from being ready, but the scheduler is started only after an initial sweep
that does not throw. -/
theorem sweepTreatsBatch (actor : DfsmActor) {answer : (op : Op Context Data) → σ → Reply Context Data op × σ}
    (coherent : Coherent answer) :
    (∀ (stuckThresholdMs : Int) (retentionMs : Option Int) (s : σ) (found : List (TransactionSummary Context Data)),
      (answer (actor.stuckListing (answer .now s).1 stuckThresholdMs) (answer .now s).2).1 = .ok found →
      (((∀ item ∈ found, actor.resolveRecoveryMode item.stateValue ≠ .STOP →
          actor.Treated (trace answer (actor.runRecoverySweep stuckThresholdMs retentionMs : Act Context Data SweepReport) s) item) ∧
        actor.Purged (answer .now s).1 stuckThresholdMs retentionMs
          (trace answer (actor.runRecoverySweep stuckThresholdMs retentionMs : Act Context Data SweepReport) s)) ↔
        actor.BatchFlows answer (answer .now s).1 stuckThresholdMs retentionMs found
          (answer (actor.stuckListing (answer .now s).1 stuckThresholdMs) (answer .now s).2).2)) ∧
    (∀ flag : σ → Bool, Flagged answer flag → ∀ s, flag s = false →
      (answer .initializeStore (answer .initialized s).2).1 = .ok () →
      flag (eval answer (actor.initializeActor : Act Context Data Unit) s).2 = true ∧
      (∀ later, flag later = true → (answer .closed later).1 = false →
        (eval answer (actor.ensureReady : Act Context Data Unit) later).1 = .ok ()) ∧
      (actor.schedulerConfig.enabled = true →
        ((∃ r, ⟨.startScheduler,r⟩ ∈ trace answer (actor.initializeActor : Act Context Data Unit) s) ↔
          (eval answer (actor.initialSweep : Act Context Data Unit) (beforeSweep answer s)).1 = .ok ()))) := by
  refine ⟨fun stuckThresholdMs retentionMs s found scanned => sweepIff actor stuckThresholdMs retentionMs coherent scanned,?_⟩
  intro flag flagged s fresh stored
  refine ⟨?_,fun later set_ open_ => staysReady flagged set_ open_,schedulerStarts coherent flagged fresh stored⟩
  rw [(initializes flagged fresh stored).1]
  exact flagStays flagged _ (flagged.sets _)

end

/-! A batch of two whose first transaction cannot be compensated. -/

def stuckRecord (transactionId : String) : TransactionRecord Unit Unit where
  transactionId := transactionId
  machineId := "gate"
  machineVersion := "1.0.0"
  actorId := "porter"
  stateValue := .str "shut"
  context := ()
  status := .IN_FLIGHT
  version := 2
  createdAt := 0
  updatedAt := 0

def stuckStore : H2StateStore Unit Unit where
  transactions := [stuckRecord "a",stuckRecord "b"]
  compensations := [{
    transitionKey := "unlock", compensateKey := "lock", fromState := .str "shut", inputSnapshot := none, contextBefore := ()
    createdAt := 0, transactionId := "a", stepSeq := 1 }]
  unique := by decide

/-- The compensation handler throws. -/
def jammedUser : Surroundings Unit Unit
  | .now => 100000
  | .compensate _ _ => .error (.thrown (some "jammed"))
  | op => politeUser op

def sweepingActor : DfsmActor where
  machine := withErrorState { id := "gate", states := [("shut",{ key := "shut", path := "shut", type := .atomic })], initial := some "shut" }
  actorId := "sweeper"
  compiledBindings := []
  resolveCompensate name := some name
  recoveryConfig := { enabled := true, defaultAction := some .COMPENSATE }
  schedulerConfig := { enabled := true }

theorem stuckLeftBehind : ∃ found,
    ((attend jammedUser (sweepingActor.stuckListing 100000 30000) (stuckStore,false)).1 : Except Throwable _) = .ok found ∧
    ¬∀ item ∈ found, sweepingActor.resolveRecoveryMode item.stateValue ≠ .STOP →
      sweepingActor.Treated (trace (attend jammedUser)
        (sweepingActor.runRecoverySweep 30000 none : Act Unit Unit SweepReport) (stuckStore,false)) item := by
  refine ⟨_,rfl,fun claim => ?_⟩
  have treats := @sweepIff _ _ _ (attend jammedUser) sweepingActor 30000 none (attendCoherent jammedUser) (stuckStore,false) _ rfl
  have flows := treats.mp ⟨claim,fun ms due => by cases due⟩
  exact absurd flows.1 (List.cons_ne_nil _ _)

/-- The clock of the sweep, with handlers that return. -/
def oiledUser : Surroundings Unit Unit
  | .now => 100000
  | op => politeUser op

theorem stuckBatchTreated : ∃ found,
    ((attend oiledUser (sweepingActor.stuckListing 100000 30000) (stuckStore,false)).1 : Except Throwable _) = .ok found ∧
    (∀ item ∈ found, sweepingActor.resolveRecoveryMode item.stateValue ≠ .STOP →
      sweepingActor.Treated (trace (attend oiledUser)
        (sweepingActor.runRecoverySweep 30000 none : Act Unit Unit SweepReport) (stuckStore,false)) item) ∧
    ∃ r, ⟨.startScheduler,r⟩ ∈ trace (attend oiledUser) (sweepingActor.initializeActor : Act Unit Unit Unit) (stuckStore,false) := by
  have treats := sweepTreatsBatch sweepingActor (attendCoherent oiledUser)
  refine ⟨_,rfl,((treats.1 30000 none (stuckStore,false) _ rfl).mpr ?_).1,?_⟩
  · exact fun ms due => by cases due
  · exact ((treats.2 (·.2) (attendFlagged oiledUser) (stuckStore,false) rfl rfl).2.2 rfl).mpr rfl

end Dfsm.Java
