import Dfsm.Runtime.Solo
import Dfsm.Runtime.Requests
import Dfsm.Runtime.Rejection

/-! Administrative clean-up with the store to itself: the transactions it changes are
those its query lists, and when these meet all the criteria that were given. -/
namespace Dfsm
open Program Act Protocol

variable {Context Data : Type}

namespace ForceCleanUpOptions
variable (options : ForceCleanUpOptions)

/-- The query of a clean-up. -/
def filter (machineId : Option String) (threshold startedAt : Int) : TransactionQueryFilter := {
  machineId, actorId := options.actorId, transactionIds := options.ids, statuses := options.scanned
  stuckBeforeTimestamp := if options.stuckOnly then some (startedAt - threshold) else none
  olderThanTimestamp := options.olderThanMs.map (startedAt - ·) }

/-- Every criterion given, as the options put it. -/
structure Meets (machineId : Option String) (threshold startedAt : Int) (row : TransactionRecord Context Data) : Prop where
  machine : ∀ id, machineId = some id → row.machineId = id
  actor : ∀ id, options.actorId = some id → row.actorId = id
  listed : ∀ ids, options.transactionIds = some ids → row.transactionId ∈ ids
  status : row.status ∈ options.scanned
  older : ∀ ms, options.olderThanMs = some ms → row.updatedAt ≤ startedAt - ms
  stuck : options.stuckOnly = true → (row.status = .IN_FLIGHT ∨ row.status = .COMPENSATING) ∧ row.updatedAt ≤ startedAt - threshold

/-- No criterion is lost on the row: one that is empty is dropped from the query, and
stuckness is queried by age alone. -/
structure Asked (machineId : Option String) (row : TransactionRecord Context Data) : Prop where
  machine : machineId = some "" → row.machineId = ""
  actor : options.actorId = some "" → row.actorId = ""
  listed : options.transactionIds ≠ some []
  status : options.statuses ≠ some []
  stuck : options.stuckOnly = true → row.status = .IN_FLIGHT ∨ row.status = .COMPENSATING

variable {options} {machineId : Option String} {threshold startedAt : Int} {row : TransactionRecord Context Data}

theorem givenAll {text : Option String} {column : String} : (given text).all (· = column) = true ↔
    ∀ id, text = some id → id ≠ "" → column = id := by
  cases text with
  | none => simp [given]
  | some id =>
    by_cases empty : id = ""
    · simp [given,empty]
    · simpa [given,Option.filter,empty] using eq_comm

theorem scannedNil : options.scanned = [] ↔ options.statuses = some [] := by
  unfold scanned
  cases options.statuses with
  | none => cases options.includeInFlight <;> simp
  | some statuses => simp

theorem matchesMeets : Store.matchesFilter (options.filter machineId threshold startedAt) row = true ↔
    (∀ id, machineId = some id → id ≠ "" → row.machineId = id) ∧ (∀ id, options.actorId = some id → id ≠ "" → row.actorId = id) ∧
    (options.ids ≠ [] → row.transactionId ∈ options.ids) ∧ (options.statuses ≠ some [] → row.status ∈ options.scanned) ∧
    (options.stuckOnly = true → row.updatedAt ≤ startedAt - threshold) ∧
    (∀ ms, options.olderThanMs = some ms → row.updatedAt ≤ startedAt - ms) := by
  have ids : (options.ids.isEmpty || options.ids.contains row.transactionId) = true ↔
      (options.ids ≠ [] → row.transactionId ∈ options.ids) := by
    cases options.ids <;> simp
  have statuses : (options.scanned.isEmpty || options.scanned.contains row.status) = true ↔
      (options.statuses ≠ some [] → row.status ∈ options.scanned) := by
    rw [show options.statuses ≠ some [] ↔ options.scanned ≠ [] from not_congr scannedNil.symm]
    cases options.scanned <;> simp
  have stuck : (if options.stuckOnly then some (startedAt - threshold) else none).all (fun at_ => decide (row.updatedAt ≤ at_)) = true ↔
      (options.stuckOnly = true → row.updatedAt ≤ startedAt - threshold) := by
    cases options.stuckOnly <;> simp
  have older : (options.olderThanMs.map (startedAt - ·)).all (fun at_ => decide (row.updatedAt ≤ at_)) = true ↔
      (∀ ms, options.olderThanMs = some ms → row.updatedAt ≤ startedAt - ms) := by
    cases options.olderThanMs <;> simp
  unfold Store.matchesFilter filter
  simp only [Bool.and_eq_true,givenAll,ids,statuses,stuck,older,and_assoc]

theorem meetsAsked (selected : Store.matchesFilter (options.filter machineId threshold startedAt) row = true) :
    options.Meets machineId threshold startedAt row ↔ options.Asked machineId row := by
  obtain ⟨machine,actor,listed,status,stuck,older⟩ := matchesMeets.mp selected
  constructor
  · intro meets
    refine ⟨meets.machine "",meets.actor "",?_,?_,fun only => (meets.stuck only).1⟩
    · intro none
      exact absurd (meets.listed [] none) (by simp)
    · intro none
      have present := meets.status
      rw [scannedNil.mpr none] at present
      contradiction
  · intro asked
    refine ⟨?_,?_,?_,status asked.status,older,fun only => ⟨asked.stuck only,stuck only⟩⟩
    · intro id named
      by_cases empty : id = ""
      · subst empty
        exact asked.machine named
      · exact machine id named empty
    · intro id named
      by_cases empty : id = ""
      · subst empty
        exact asked.actor named
      · exact actor id named empty
    · intro ids named
      have some : options.ids = ids := by simp [named]
      rw [← some]
      refine listed ?_
      intro empty
      exact asked.listed (by rw [named,← some,empty])

end ForceCleanUpOptions

namespace Solo

section
variable {user : User Context Data} {s : Solo Context Data} {t : String}

/-- An action on a listed transaction: it leaves the others, and of the one it is about it
leaves another version or nothing. -/
structure Acts (user : User Context Data) (act : CleanUpReport → TransactionSummary Context Data → Act Context Data CleanUpReport) : Prop where
  beside : ∀ report item s t, t ≠ item.transactionId →
    (run user (act report item) s).2.store.world t = s.store.world t
  moves : ∀ report item s, s.store.row item.transactionId = some item.toTransactionRecord →
    (run user (act report item) s).2.store.row item.transactionId ≠ some item.toTransactionRecord

theorem movedOn {α : Type} {row : TransactionRecord Context Data} (stored : s.store.row t = some row)
    {patch : Int → TransactionUpdatePatch Context Data} {f : Int → Nat → Act Context Data α}
    (asks : ∀ at_ v, (f at_ v).Asks (fun op => ∀ ids, op ≠ .deleteTransactions ids)) :
    (run user (now >>= fun at_ => updateTransaction t row.version (patch at_) >>= f at_) s).2.store.row t ≠ some row := by
  rw [runNow]
  obtain ⟨s',ran,_,world⟩ := @runUpdate _ _ user (s.heard .now (clock user s)) t row stored (patch (clock user s)) []
  have here := congrArg World.row (world t)
  simp only [World.after,if_true,Store.world,heardStore,stored,Option.map_some] at here
  rw [runBind ran]
  obtain ⟨after,found,grown⟩ := @runGrows _ _ user _ t (f (clock user s) (row.version + 1)) (asks _ _) (row.version + 1) s'
    ⟨_,here,Nat.le_refl _⟩
  rw [found]
  intro same
  cases Option.some.inj same
  exact absurd grown (by omega)

/-- The rows that the query of a clean-up lists. -/
def Selected (options : ForceCleanUpOptions) (machineId : Option String) (threshold startedAt : Int) (store : Store Context Data)
    (t : String) : Prop :=
  ∃ row, store.row t = some row ∧ Store.matchesFilter (options.filter machineId threshold startedAt) row = true

theorem querySelects {store : Store Context Data} {filter : TransactionQueryFilter} {nowTimestamp stuckThresholdMs : Int}
    (unlimited : filter.limit = none) : (∃ item ∈ store.queryTransactions filter nowTimestamp stuckThresholdMs, item.transactionId = t) ↔
      ∃ row, store.row t = some row ∧ Store.matchesFilter filter row = true := by
  constructor
  · intro listed
    obtain ⟨item,mem,named⟩ := listed
    obtain ⟨stored,matching,_⟩ := Store.queryTells mem
    exact ⟨item.toTransactionRecord,named ▸ stored,matching⟩
  · intro selected
    obtain ⟨row,stored,matching⟩ := selected
    have mem : row ∈ store.transactions := List.mem_of_find?_eq_some stored
    refine ⟨store.summary nowTimestamp stuckThresholdMs row,?_,Store.rowId stored⟩
    simp only [Store.queryTransactions,unlimited,List.mem_map,List.mem_insertionSort]
    exact ⟨row,List.mem_filter.mpr ⟨mem,matching⟩,rfl⟩

/-- What is left of a clean-up, where what is done has moved. -/
structure Cleaning (before : Store Context Data) (found left : List (TransactionSummary Context Data)) (s : Solo Context Data) : Prop
    extends Waiting before found left s where
  moved : ∀ item ∈ found, item ∈ left ∨ s.store.row item.transactionId ≠ before.row item.transactionId

theorem cleaningStep {act : CleanUpReport → TransactionSummary Context Data → Act Context Data CleanUpReport} (acts : Acts user act)
    {before : Store Context Data} {found left item report} (stored : before.row item.transactionId = some item.toTransactionRecord)
    (cleaning : Cleaning before found (item::left) s) :
    Cleaning before found left (run user (act report item) s).2 := by
  refine ⟨waitingStep cleaning.toWaiting (acts.beside report item s),?_⟩
  intro other mem
  by_cases same : other.transactionId = item.transactionId
  · have here : s.store.row item.transactionId = before.row item.transactionId :=
      congrArg World.row (cleaning.waiting item List.mem_cons_self)
    right
    rw [same,stored]
    exact acts.moves report item s (here.trans stored)
  · rcases cleaning.moved other mem with waiting | moved
    · rcases List.mem_cons.mp waiting with head | later
      · exact absurd (head ▸ rfl) same
      · exact .inl later
    · right
      rw [show (run user (act report item) s).2.store.row other.transactionId = s.store.row other.transactionId from
        congrArg World.row (acts.beside report item s _ same)]
      exact moved

/-- What follows the scan. -/
def cleaning (options : ForceCleanUpOptions) (act : CleanUpReport → TransactionSummary Context Data → Act Context Data CleanUpReport)
    (candidates : List (TransactionSummary Context Data)) : Act Context Data CleanUpReport :=
  let report : CleanUpReport := { scanned := candidates.length, matched := candidates.length, dryRun := options.dryRun }
  if options.dryRun || candidates.isEmpty then pure report
  else if options.action = .DELETE then do
    let ids := candidates.map (·.transactionId)
    let _ ← ask (.deleteTransactions ids)
    pure { report with deleted := ids }
  else candidates.foldlM (fun report item => do
    match ← (act report item).attempt with
    | .ok report => pure report
    | .error err => pure { report with errors := report.errors ++ [⟨item.transactionId,err.message⟩] }) report

theorem cleanUpScans {options : ForceCleanUpOptions} {machineId threshold}
    {act : CleanUpReport → TransactionSummary Context Data → Act Context Data CleanUpReport} :
    cleanUp options machineId threshold act = now >>= fun startedAt =>
      ask (.queryTransactions (options.filter machineId threshold startedAt) startedAt threshold) >>= cleaning options act := rfl

theorem cleaningRun {options : ForceCleanUpOptions}
    {act : CleanUpReport → TransactionSummary Context Data → Act Context Data CleanUpReport}
    (acts : options.action ≠ .DELETE → Acts user act) (wet : options.dryRun = false) {found : List (TransactionSummary Context Data)}
    (once : (found.map (·.transactionId)).Nodup)
    (stored : ∀ item ∈ found, s.store.row item.transactionId = some item.toTransactionRecord) :
    Cleaning s.store found [] (run user (cleaning options act found) s).2 := by
  unfold cleaning
  cases empty : found.isEmpty with
  | true =>
    cases List.isEmpty_iff.mp empty
    simp only [Bool.or_true,if_true]
    exact ⟨waitingStart once,by simp⟩
  | false =>
    simp only [wet,Bool.or_self,Bool.false_eq_true,if_false]
    by_cases deletes : options.action = .DELETE
    · simp only [deletes,if_true]
      rw [runAsk]
      have world (t) := (@answered _ _ user s t (.deleteTransactions (found.map (·.transactionId)))).2
      refine ⟨⟨by simp,by simp,by simp,?_⟩,?_⟩
      rotate_left
      · intro item mem
        right
        have gone := congrArg World.row (world item.transactionId)
        simp only [World.after,List.mem_map_of_mem mem,if_true] at gone
        rw [stored item mem]
        intro same
        exact absurd (gone.symm.trans same) (by simp)
      · intro t other
        have unlisted : t ∉ found.map (·.transactionId) := by
          intro mem
          obtain ⟨item,here,named⟩ := List.mem_map.mp mem
          exact other item here named
        have kept := world t
        simp only [World.after,unlisted,if_false] at kept
        exact kept
    · simp only [deletes,if_false]
      have start : Cleaning s.store found found s := ⟨waitingStart once,fun _ mem => .inl mem⟩
      refine (evalFold (fun left (_ : CleanUpReport) s' => Cleaning s.store found left s') ?_ found start).elim (fun _ done => done.2)
      intro item left report s' kept
      have next := @cleaningStep _ _ _ s' _ (acts deletes) s.store found left item report (stored item (kept.among item List.mem_cons_self)) kept
      rw [evalBind,evalAttempt]
      unfold run at next
      cases (eval (answer user) (act report item) s').1 <;> exact ⟨_,rfl,next⟩

theorem cleanUpRun {options : ForceCleanUpOptions} {machineId : Option String} {threshold : Int}
    {act : CleanUpReport → TransactionSummary Context Data → Act Context Data CleanUpReport}
    (acts : options.action ≠ .DELETE → Acts user act) (s : Solo Context Data) :
    (options.dryRun = true → (run user (cleanUp options machineId threshold act) s).2.store = s.store) ∧
    (options.dryRun = false → ∀ t,
      (Selected options machineId threshold (clock user s) s.store t →
        (run user (cleanUp options machineId threshold act) s).2.store.row t ≠ s.store.row t) ∧
      (¬Selected options machineId threshold (clock user s) s.store t →
        (run user (cleanUp options machineId threshold act) s).2.store.world t = s.store.world t)) := by
  rw [cleanUpScans,runNow,runQuery]
  constructor
  · intro dry
    simp only [cleaning,dry,Bool.true_or,if_true]
    rfl
  · intro wet t
    have listed := @querySelects _ _ t s.store (options.filter machineId threshold (clock user s)) (clock user s) threshold rfl
    have told := @Store.queryTells _ _ s.store (options.filter machineId threshold (clock user s)) (clock user s) threshold
    have ran := @cleaningRun _ _ user
      ((s.heard .now (clock user s)).heard (.queryTransactions (options.filter machineId threshold (clock user s)) (clock user s) threshold)
        (s.store.queryTransactions (options.filter machineId threshold (clock user s)) (clock user s) threshold))
      options act acts wet _ Store.queryOnce (fun item mem => (told mem).1)
    constructor
    · intro selected
      obtain ⟨item,mem,named⟩ := listed.mpr selected
      rcases ran.moved item mem with waiting | moved
      · contradiction
      · exact named ▸ moved
    · intro unselected
      refine ran.others t ?_
      intro item mem named
      exact unselected (listed.mp ⟨item,mem,named⟩)

/-! The actions of an actor and of the registry. -/

theorem asksKeep {α : Type} {p : Act Context Data α} (asks : p.Asks Op.Recovers) : p.Asks (fun op => ∀ ids, op ≠ .deleteTransactions ids) := by
  refine asksMono asks ?_
  intro op recovers ids same
  subst same
  exact recovers

theorem actsFail {reason : String} : Acts user (failTransaction reason) where
  beside report item s := (runBeside (@failStages _ _ (fun _ => True) item item.status reason report) s).1
  moves _ _ _ stored := movedOn stored (fun _ _ => trivial)

theorem actsUnlock : Acts user unlockTransaction where
  beside report item s := (runBeside (@unlockStages _ _ (fun _ => True) item item.status report) s).1
  moves _ _ _ stored := movedOn stored (fun _ _ => trivial)

theorem runMap {α β : Type} {p : Act Context Data α} {g : α → β} : (run user (p >>= fun a => pure (g a)) s).2 = (run user p s).2 := by
  unfold run
  rw [evalBind]
  cases ran : eval (answer user) p s with
  | mk result s' => cases result <;> rfl

theorem actsCompensate {actor : Actor} {reason : String} {done : CleanUpReport → TransactionSummary Context Data → CleanUpReport} :
    Acts user (fun report item => do
      actor.compensateTransaction item reason
      pure (done report item)) where
  beside report item s t other := by
    rw [@runMap _ _ user s _ _ _ (fun _ : Unit => done report item)]
    exact (runBeside (@compensateStages _ _ (· = actor) actor rfl item item.status reason) s).1 t other
  moves report item s stored := by
    rw [@runMap _ _ user s _ _ _ (fun _ : Unit => done report item)]
    refine movedOn stored (fun at_ v => asksKeep ?_)
    refine asksBind (asksMono unwindAsks unwindsRecovers) (fun unwound => ?_)
    exact asksOne trivial (fun _ => asksUpdate (by simp [Op.Recovers,compensated]) (fun _ => trivial))

theorem actsActor {actor : Actor} {action : CleanUpAction} (keeps : action ≠ .DELETE) : Acts user (actor.cleanUpTransaction action) := by
  cases action with
  | DELETE => contradiction
  | MARK_FAIL => exact actsFail
  | FORCE_UNLOCK => exact actsUnlock
  | COMPENSATE => exact actsCompensate

theorem forceCleanUpTransactionRun {actor : Actor} {action : CleanUpAction} (s : Solo Context Data) :
    (∀ u, u ≠ t → (run user (actor.forceCleanUpTransaction t action) s).2.store.world u = s.store.world u) ∧
    ∀ row, s.store.row t = some row → row.machineId = actor.machine.id →
      (run user (actor.forceCleanUpTransaction t action) s).2.store.row t ≠ some row := by
  let options : ForceCleanUpOptions := { transactionIds := some [t], includeInFlight := true, action }
  have ran := (@cleanUpRun _ _ user options (some actor.machine.id) actor.recoveryConfig.stuckThresholdMs
    (actor.cleanUpTransaction action) actsActor s).2 rfl
  constructor
  · intro u other
    refine (ran u).2 ?_
    intro selected
    obtain ⟨row,stored,matching⟩ := selected
    have named := (ForceCleanUpOptions.matchesMeets.mp matching).2.2.1 (by simp [options])
    rw [Store.rowId stored] at named
    exact other (by simpa [options] using named)
  · intro row stored mine
    rw [← stored]
    refine (ran t).1 ⟨row,stored,ForceCleanUpOptions.matchesMeets.mpr ?_⟩
    refine ⟨?_,?_,?_,?_,?_,?_⟩
    · intro id named _
      exact mine.trans (Option.some.inj named)
    · intro id named
      contradiction
    · intro _
      rw [Store.rowId stored]
      simp [options]
    · intro _
      cases row.status <;> simp [options,ForceCleanUpOptions.scanned]
    · intro only
      contradiction
    · intro ms older
      contradiction

theorem actsRegistry {activeActors : List Actor} {action : CleanUpAction} (keeps : action ≠ .DELETE) :
    Acts user (FSMRegistry.cleanUpTransaction activeActors action) := by
  cases action with
  | DELETE => contradiction
  | MARK_FAIL => exact actsFail
  | FORCE_UNLOCK => exact actsUnlock
  | COMPENSATE =>
    constructor
    · intro report item s t other
      unfold FSMRegistry.cleanUpTransaction
      dsimp only
      split
      · rw [@runMap _ _ user s]
        exact (forceCleanUpTransactionRun s).1 t other
      · have obeys (at_ : Int) : (@stages Context Data (fun _ => True) item.transactionId).Obeys (Ends fun _ _ => True)
            (.scanned item.version item.status) (do
              let _ ← updateTransaction item.transactionId item.version
                (compensated none "Compensated via FSMRegistry.forceCleanUp" at_)
              pure { report with compensated := report.compensated ++ [item.transactionId] }) :=
          obeysUpdate (by simp) ⟨rfl,rfl,.inr (.inr ⟨rfl,.inr rfl⟩)⟩ (leaseless rfl) (fun _ => trivial)
        exact (runBeside (obeysNow (by simp) obeys) s).1 t other
    · intro report item s stored
      unfold FSMRegistry.cleanUpTransaction
      dsimp only
      split
      · rename_i actor found
        rw [@runMap _ _ user s]
        refine (forceCleanUpTransactionRun s).2 _ stored ?_
        simpa [eq_comm] using List.find?_some found
      · exact movedOn stored (fun _ _ => trivial)

end

end Solo

/-- A clean-up changes only transactions that meet every criterion given, and a dry run
changes nothing. -/
def TouchesAsked (options : ForceCleanUpOptions) (machineId : Option String) (threshold : Int) (user : User Context Data)
    (s : Solo Context Data) (p : Act Context Data CleanUpReport) : Prop :=
  (∀ t, (Solo.run user p s).2.store.world t ≠ s.store.world t →
    ∃ row, s.store.row t = some row ∧ options.Meets machineId threshold (Solo.clock user s) row) ∧
  (options.dryRun = true → (Solo.run user p s).2.store = s.store)

/-- A dry run, or no row is listed on which a criterion is lost. -/
def KeepsAsked (options : ForceCleanUpOptions) (machineId : Option String) (threshold startedAt : Int) (store : Store Context Data) : Prop :=
  options.dryRun = true ∨ ∀ t row, store.row t = some row →
    Store.matchesFilter (options.filter machineId threshold startedAt) row = true → options.Asked machineId row

open ForceCleanUpOptions Solo in
theorem touchesKeeps {user : User Context Data} {options : ForceCleanUpOptions} {machineId : Option String} {threshold : Int}
    {act : CleanUpReport → TransactionSummary Context Data → Act Context Data CleanUpReport}
    (acts : options.action ≠ .DELETE → Acts user act) (s : Solo Context Data) :
    TouchesAsked options machineId threshold user s (cleanUp options machineId threshold act) ↔
      KeepsAsked options machineId threshold (clock user s) s.store := by
  obtain ⟨dry,wet⟩ := @cleanUpRun _ _ user options machineId threshold act acts s
  unfold TouchesAsked KeepsAsked
  cases mode : options.dryRun with
  | true =>
    have kept := dry mode
    constructor
    · intro _
      exact .inl rfl
    · intro _
      refine ⟨?_,fun _ => kept⟩
      intro t changed
      rw [kept] at changed
      contradiction
  | false =>
    have ran := wet mode
    constructor
    · intro touches
      right
      intro t row stored selected
      have moved := (ran t).1 ⟨row,stored,selected⟩
      obtain ⟨row',stored',meets⟩ := touches.1 t (fun same => moved (congrArg World.row same))
      cases Option.some.inj (stored.symm.trans stored')
      exact (meetsAsked selected).mp meets
    · intro keeps
      rcases keeps with none | keeps
      · contradiction
      refine ⟨?_,fun none => by contradiction⟩
      intro t changed
      by_cases selected : Selected options machineId threshold (clock user s) s.store t
      · obtain ⟨row,stored,matching⟩ := selected
        exact ⟨row,stored,(meetsAsked matching).mpr (keeps t row stored matching)⟩
      · exact absurd ((ran t).2 selected) changed

/-- Clean-up by an actor and by the registry, each with the threshold it defaults to. -/
theorem cleanUpTouchesAsked (user : User Context Data) (options : ForceCleanUpOptions) (s : Solo Context Data) :
    (∀ actor : Actor, TouchesAsked options (some actor.machine.id)
      (options.stuckThresholdMs.getD actor.recoveryConfig.stuckThresholdMs) user s (actor.forceCleanUp options) ↔
        KeepsAsked options (some actor.machine.id) (options.stuckThresholdMs.getD actor.recoveryConfig.stuckThresholdMs)
          (Solo.clock user s) s.store) ∧
    ∀ activeActors, TouchesAsked options options.machineId (options.stuckThresholdMs.getD 30000) user s
      (FSMRegistry.forceCleanUp activeActors options) ↔
        KeepsAsked options options.machineId (options.stuckThresholdMs.getD 30000) (Solo.clock user s) s.store :=
  ⟨fun _ => touchesKeeps Solo.actsActor s,fun _ => touchesKeeps Solo.actsRegistry s⟩

/-- With an empty list of ids every transaction of the store goes. -/
theorem cleanUpIgnoresEmptyIds :
    ¬TouchesAsked { transactionIds := some [], includeInFlight := true } (some "door") 30000 (fun _ => politeUser) ⟨doorStore,[]⟩
      (doorActor.forceCleanUp { transactionIds := some [], includeInFlight := true }) ∧
    ¬TouchesAsked { transactionIds := some [], includeInFlight := true } none 30000 (fun _ => politeUser) ⟨doorStore,[]⟩
      (FSMRegistry.forceCleanUp [doorActor] { transactionIds := some [], includeInFlight := true }) := by
  constructor
  · intro touches
    obtain ⟨row,_,meets⟩ := touches.1 "t" (fun same => by
      have gone := congrArg (fun w => w.row.isSome) same
      contradiction)
    exact absurd (meets.listed [] rfl) (by simp)
  · intro touches
    obtain ⟨row,_,meets⟩ := touches.1 "t" (fun same => by
      have gone := congrArg (fun w => w.row.isSome) same
      contradiction)
    exact absurd (meets.listed [] rfl) (by simp)

end Dfsm
