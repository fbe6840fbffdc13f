import Dfsm.Runtime.View
import Dfsm.Runtime.Rejection

/-! The version as a fence. A call that has taken a lease is past reading: once another
call writes the row, its version is behind for good, unless the row is created anew. -/
namespace Dfsm

variable {Context Data : Type} {t : String}

/-- The version a call works with, and the status the row has while it is current. -/
def Stage.seen : Stage Context Data → Option (Nat × TransactionStatus)
  | .scanned version status => some (version,status)
  | .reread version status => some (version,status)
  | .loaded version status => some (version,status)
  | .holding version => some (version,.IN_FLIGHT)
  | .compensating version => some (version,.COMPENSATING)
  | .unwinding version _ => some (version,.COMPENSATING)
  | .handled version _ => some (version,.COMPENSATING)
  | _ => none

def Stage.Past : Stage Context Data → Prop
  | .idle => False
  | .scanned _ _ => False
  | .reread _ _ => False
  | .loaded _ _ => False
  | _ => True

def TakesLease (t : String) : Event (Reply Context Data) → Prop
  | ⟨.updateTransaction id _ patch _,.ok _⟩ => id = t ∧ patch.status = some .IN_FLIGHT
  | _ => False

/-- A transaction as a scan has listed it. -/
structure Listing (Context Data : Type) where
  item : TransactionSummary Context Data
  nowTimestamp : Int
  stuckThresholdMs : Int

def listed (t : String) : Event (Reply Context Data) → Option (Listing Context Data)
  | ⟨.queryTransactions _ nowTimestamp stuckThresholdMs,found⟩ =>
    (found.find? (·.transactionId = t)).map (⟨·,nowTimestamp,stuckThresholdMs⟩)
  | _ => none

theorem listedSome {filter nowTimestamp threshold} {found : List (TransactionSummary Context Data)} :
    (listed t ⟨.queryTransactions filter nowTimestamp threshold,found⟩).isSome = true ↔ t ∈ found.map (·.transactionId) := by
  simp [listed]

def scans : Event (Reply Context Data) → Bool
  | ⟨.queryTransactions _ _ _,_⟩ => true
  | _ => false

abbrev Log (Context Data : Type) : Type := List (Nat × Event (Reply Context Data))

/-- The call has taken a lease on the transaction, and has not scanned again. -/
def Leased (t : String) (i : Nat) (log since : Log Context Data) : Prop :=
  Pool.Since i (TakesLease t) (fun e => scans e = false) log since

/-- Another call has written the transaction. -/
def Overtaken (t : String) (i : Nat) (since : Log Context Data) : Prop := ∃ x ∈ since, x.1 ≠ i ∧ Writes t x.2

theorem overtakenSnoc {i : Nat} {since : Log Context Data} {x} (overtaken : Overtaken t i (since ++ [x])) :
    Overtaken t i since ∨ x.1 ≠ i ∧ Writes t x.2 := by
  obtain ⟨y,mem,other,writes⟩ := overtaken
  rcases List.mem_append.mp mem with old | new
  · exact .inl ⟨y,old,other,writes⟩
  · cases List.mem_singleton.mp new
    exact .inr ⟨other,writes⟩

section
variable {actors : Actor → Prop} {w : World Context Data} {s : Stage Context Data} {op : Op Context Data}
  {r : Reply Context Data op}

/-- Where a request that does not write leaves its call: where it was, past reading with
no other version, or with a version just read. -/
theorem quietStep (may : s.May actors t op) (tells : w.Tells t op r) (quiet : ¬Writes t ⟨op,r⟩) :
    s.step t op r = s ∨ (s.step t op r).Past ∧ ((s.step t op r).seen = none ∨ (s.step t op r).seen = s.seen) ∨
      ∃ row, w.row = some row ∧ (s.step t op r).seen = some (row.version,row.status) ∧
        (op = .getTransaction t ∧ ¬s.Past ∨ (listed t ⟨op,r⟩).isSome = true) := by
  by_cases about : op.about = some t
  · rw [Stage.stepAbout about]
    have allows (create : ∀ record, op ≠ .createTransaction record) := (Stage.mayAbout may about create).2
    cases op with
    | createTransaction record =>
      cases r with
      | ok done => exact absurd (Option.some.inj about) quiet
      | error e => exact .inr (.inl ⟨trivial,.inl rfl⟩)
    | getTransaction id =>
      have found := tells (Option.some.inj about)
      rcases allows (by simp) with rfl | ⟨version,status,rfl⟩ | rfl
      · cases here : w.row with
        | none =>
          rw [show r = none by rw [found,World.snapshot,here]; rfl]
          exact .inr (.inl ⟨trivial,.inl rfl⟩)
        | some row =>
          rw [show r = some _ by rw [found,World.snapshot,here]; rfl]
          exact .inr (.inr ⟨row,rfl,rfl,.inl ⟨congrArg _ (Option.some.inj about),False.elim⟩⟩)
      · cases here : w.row with
        | none =>
          rw [show r = none by rw [found,World.snapshot,here]; rfl]
          exact .inr (.inl ⟨trivial,.inl rfl⟩)
        | some row =>
          rw [show r = some _ by rw [found,World.snapshot,here]; rfl]
          exact .inr (.inr ⟨row,rfl,rfl,.inl ⟨congrArg _ (Option.some.inj about),False.elim⟩⟩)
      · exact .inl rfl
    | updateTransaction id version patch append =>
      cases r with
      | ok next => exact absurd (Option.some.inj about) quiet
      | error e => exact .inr (.inl ⟨trivial,.inl rfl⟩)
    | getUncompensatedStack id =>
      obtain ⟨version,rfl⟩ := allows (by simp)
      exact .inr (.inl ⟨trivial,.inr rfl⟩)
    | compensate resolvedName request =>
      obtain ⟨entry,⟨version,rest,rfl⟩,_⟩ := allows (by simp)
      cases r with
      | ok _ => exact .inr (.inl ⟨trivial,.inr rfl⟩)
      | error _ => exact .inr (.inl ⟨trivial,.inl rfl⟩)
    | markCompensationExecuted id stepSeq compensatedAt =>
      obtain ⟨entry,_,⟨⟨version,rest,rfl⟩,_⟩ | ⟨version,rest,rfl⟩⟩ := allows (by simp)
      · exact .inr (.inl ⟨trivial,.inr rfl⟩)
      · exact .inr (.inl ⟨trivial,.inr rfl⟩)
    | hook event =>
      cases r with
      | error _ => exact .inr (.inl ⟨trivial,.inl rfl⟩)
      | ok _ =>
        cases event with
        | beforeTransition =>
          cases s with
          | loaded version status => cases status <;> first | exact .inl rfl | exact .inr (.inl ⟨trivial,.inr rfl⟩)
          | _ => exact .inl rfl
        | _ => exact .inl rfl
    | recordTransition telemetry =>
      cases r with
      | ok _ => exact .inl rfl
      | error _ => exact .inr (.inl ⟨trivial,.inl rfl⟩)
    | _ => exact .inl rfl
  · cases op with
    | queryTransactions filter nowTimestamp threshold =>
      cases first : List.find? (·.transactionId = t) r with
      | none => exact .inl (by simp only [Stage.step,first])
      | some item =>
        have here : item.transactionId = t := by simpa using List.find?_some first
        have stored := (tells item (List.mem_of_find?_eq_some first) here).1
        exact .inr (.inr ⟨_,stored,by simp only [Stage.step,first,Stage.seen],.inr (by simp only [listed,first]; rfl)⟩)
    | deleteTransactions ids => exact .inl (if_neg quiet)
    | _ => exact .inl (Stage.stepBeside about (by simp) (by simp))

/-- An accepted update was made with the version its call has seen, and the call goes on
with the version and the status it has written, or is done. -/
theorem updatesSeen {version next patch} {append : List (PendingCompensation Context Data)}
    (allowed : s.updates version patch append) : ∃ status, s.seen = some (version,status) ∧
      ((Stage.updated next patch : Stage Context Data).seen = none ∨
        (Stage.updated next patch : Stage Context Data).seen = some (next,patch.status.getD status)) := by
  have unlock (unlock : patch.IsUnlock) : (Stage.updated next patch : Stage Context Data).seen = some (next,.IDLE) := by
    simp [Stage.updated,unlock.1,unlock.2,Stage.seen]
  cases s with
  | scanned v status =>
    obtain ⟨rfl,_,⟨_,status'⟩ | unlocked | ⟨_,status' | status'⟩⟩ := allowed
    · exact ⟨status,rfl,.inr (by simp [Stage.updated,status',Stage.seen])⟩
    · exact ⟨status,rfl,.inr (by simp [unlock unlocked,unlocked.1])⟩
    · exact ⟨status,rfl,.inl (by simp [Stage.updated,status',Stage.seen])⟩
    · exact ⟨status,rfl,.inl (by simp [Stage.updated,status',Stage.seen])⟩
  | reread v status =>
    obtain ⟨rfl,_,unlocked⟩ := allowed
    exact ⟨status,rfl,.inr (by simp [unlock unlocked,unlocked.1])⟩
  | loaded v status =>
    obtain ⟨rfl,_,_,_,status'⟩ := allowed
    exact ⟨status,rfl,.inr (by simp [Stage.updated,status',Stage.seen])⟩
  | holding v =>
    obtain ⟨rfl,⟨_,same⟩ | ⟨_,status',_⟩ | ⟨value,status'⟩⟩ := allowed
    · exact ⟨_,rfl,.inr (by simp [Stage.updated,same,Stage.seen])⟩
    · exact ⟨_,rfl,.inr (by simp [Stage.updated,status',Stage.seen])⟩
    · refine ⟨_,rfl,.inl ?_⟩
      obtain ⟨state,value⟩ := Option.isSome_iff_exists.mp value
      rcases status' with status' | status' | status' <;> simp [Stage.updated,status',value,Stage.seen]
  | unwinding v entries =>
    cases entries with
    | nil =>
      obtain ⟨rfl,_,_,status'⟩ := allowed
      exact ⟨_,rfl,.inl (by simp [Stage.updated,status',Stage.seen])⟩
    | cons => contradiction
  | _ => contradiction

end

/-! What a call has seen of the row. -/

/-- The call is not ahead of the row, and while it is not behind either it knows the status. -/
def Stage.Agrees (s : Stage Context Data) (row : TransactionRecord Context Data) : Prop :=
  ∀ version status, s.seen = some (version,status) → version ≤ row.version ∧ (version = row.version → row.status = status)

/-- A transaction is created only where no call has a version of it. -/
def CreatedFresh (t : String) (pool : Calls Context Data) : Move (Reply Context Data) DfsmError → Prop
  | .act _ ⟨.createTransaction record,.ok _⟩ => record.transactionId = t → ∀ s ∈ stagesOf t pool, s.seen = none
  | _ => True

section
variable {actors : Actor → Prop} {calls : Act Context Data Unit → Prop}
  {meets : Calls Context Data → Move (Reply Context Data) DfsmError → Prop} {w w' : World Context Data} {s : Stage Context Data}
  {op : Op Context Data} {r : Reply Context Data op} {e : Event (Reply Context Data)} {row : TransactionRecord Context Data}

theorem blindAgrees (blind : s.seen = none) : s.Agrees row := by
  intro version status seen
  rw [blind] at seen
  contradiction

theorem ownAgrees (may : s.May actors t op) (tells : w.Tells t op r) (change : Change t w ⟨op,r⟩ w')
    (agrees : ∀ row, w.row = some row → s.Agrees row) (here : w'.row = some row) : (s.step t op r).Agrees row := by
  have quiet (stored : w.row = some row) (quiet : ¬Writes t ⟨op,r⟩) : (s.step t op r).Agrees row := by
    rcases quietStep may tells quiet with stays | ⟨_,none | same⟩ | ⟨found,read,seen,_⟩
    · rw [stays]
      exact agrees row stored
    · exact blindAgrees none
    · intro version status seen
      exact agrees row stored version status (same.symm.trans seen)
    · cases Option.some.inj (stored.symm.trans read)
      intro version status seen'
      cases Option.some.inj (seen.symm.trans seen')
      exact ⟨Nat.le_refl _,fun _ => rfl⟩
  cases change with
  | kept silent => exact quiet here silent
  | marked => exact quiet here id
  | @created record done fresh named =>
    have about : (Op.createTransaction record : Op Context Data).about = some t := congrArg some named
    rw [Stage.stepAbout about]
    exact blindAgrees rfl
  | deleted listed => contradiction
  | @updated before patch append stored =>
    cases here
    obtain ⟨status,seen,goes⟩ := @updatesSeen _ _ s before.version (before.version + 1) patch append (Stage.mayUpdate may).1
    rw [Stage.stepAbout rfl]
    rcases goes with none | goes
    · exact blindAgrees none
    · intro version status' seen'
      cases Option.some.inj (goes.symm.trans seen')
      refine ⟨Nat.le_refl _,fun _ => ?_⟩
      rw [TransactionUpdatePatch.apply,(agrees before stored _ _ seen).2 rfl]

theorem otherAgrees (change : Change t w e w')
    (apart : ∀ record done, e = ⟨.createTransaction record,.ok done⟩ → record.transactionId = t → s.seen = none)
    (agrees : ∀ row, w.row = some row → s.Agrees row) (here : w'.row = some row) : s.Agrees row := by
  cases change with
  | kept silent => exact agrees row here
  | marked => exact agrees row here
  | created fresh named => exact blindAgrees (apart _ _ rfl named)
  | deleted listed => contradiction
  | updated stored =>
    cases here
    intro version status seen
    have behind := (agrees _ stored version status seen).1
    refine ⟨?_,?_⟩ <;> simp only [TransactionUpdatePatch.apply] <;> omega

/-- In every run no call is ahead of the row, and one that is not behind knows its status. -/
theorem runAgrees {store : Store Context Data} {pool : Calls Context Data} (within : ∀ p, calls p → Operation actors p)
    (fresh : ∀ pool move, meets pool move → CreatedFresh t pool move)
    (run : Pool.Reaches Performs calls meets { shared := store } pool) (here : (pool.shared.world t).row = some row) :
    ∀ s ∈ stagesOf t pool, s.Agrees row := by
  have all := @viewInvariant _ _ actors calls meets { shared := store } pool t
    (fun w _ ss => ∀ s ∈ ss, ∀ row, w.row = some row → s.Agrees row) within rfl run (by simp) ?_ ?_
  · exact fun s mem => all s mem row here
  · intro w log ss agrees s mem row here
    rcases List.mem_append.mp mem with old | new
    · exact agrees s old row here
    · rw [List.mem_singleton.mp new]
      exact blindAgrees rfl
  · intro pool next i op r s _ met answered agrees s' mem row here
    have change := worldChange answered.tells
    have stored := List.mem_of_getElem? answered.stage
    rcases List.mem_or_eq_of_mem_set mem with old | rfl
    · refine otherAgrees change ?_ (agrees s' old) here
      rintro record done same named
      cases same
      exact fresh _ _ met named s' old
    · exact ownAgrees answered.may answered.tells change (agrees s stored) here

end

/-! The fence. -/

/-- A transaction is created only where no call that has leased it is still in its step. -/
def CreatedApart (t : String) (pool : Calls Context Data) : Move (Reply Context Data) DfsmError → Prop
  | .act _ ⟨.createTransaction record,.ok _⟩ => record.transactionId = t → ∀ i since s, Leased t i pool.log since →
    (stagesOf t pool)[i]? = some s → s.seen = none
  | _ => True

/-- A call that has leased the transaction is past reading, and behind once overtaken. -/
structure Fenced (t : String) (w : World Context Data) (i : Nat) (since : Log Context Data) (s : Stage Context Data) : Prop where
  past : s.Past
  behind : ∀ version status, s.seen = some (version,status) → ∀ row, w.row = some row →
    version ≤ row.version ∧ (Overtaken t i since → version < row.version)

section
variable {actors : Actor → Prop} {pool next : Calls Context Data}
  {i j : Nat} {op : Op Context Data} {r : Reply Context Data op} {s : Stage Context Data} {since : Log Context Data}
  {w w' : World Context Data}

theorem leaseFenced (takes : TakesLease t ⟨op,r⟩) (change : Change t w ⟨op,r⟩ w') : Fenced t w' i [] (s.step t op r) := by
  cases change with
  | kept quiet =>
    refine absurd ?_ quiet
    cases op <;> first | contradiction | (cases r <;> first | contradiction | exact takes.1)
  | created => contradiction
  | marked => contradiction
  | deleted => contradiction
  | @updated row patch append stored =>
    have moved : s.step t (.updateTransaction t row.version patch append) (.ok (row.version + 1)) = .holding (row.version + 1) := by
      rw [Stage.stepAbout rfl,Stage.next,Stage.updated,takes.2]
    rw [moved]
    refine ⟨trivial,fun version status seen row here => ?_⟩
    cases seen
    cases here
    refine ⟨Nat.le_refl _,?_⟩
    rintro ⟨x,mem,_⟩
    contradiction

theorem updatedPast {version next patch} {append : List (PendingCompensation Context Data)} (past : s.Past)
    (allowed : s.updates version patch append) : (Stage.updated next patch : Stage Context Data).Past := by
  cases s with
  | holding v =>
    obtain ⟨_,⟨_,status⟩ | ⟨_,status,_⟩ | ⟨value,status⟩⟩ := allowed
    · simp [Stage.updated,status,Stage.Past]
    · simp [Stage.updated,status,Stage.Past]
    · obtain ⟨state,value⟩ := Option.isSome_iff_exists.mp value
      rcases status with status | status | status <;> simp [Stage.updated,status,value,Stage.Past]
  | unwinding v entries =>
    cases entries with
    | nil =>
      obtain ⟨_,_,_,status⟩ := allowed
      simp [Stage.updated,status,Stage.Past]
    | cons => contradiction
  | _ => contradiction

theorem listedScans {e : Event (Reply Context Data)} (lists : (listed t e).isSome = true) : scans e = true := by
  obtain ⟨op,r⟩ := e
  cases op <;> first | rfl | contradiction

theorem ownFenced (may : s.May actors t op) (tells : w.Tells t op r) (change : Change t w ⟨op,r⟩ w') (scan : scans ⟨op,r⟩ = false)
    (fenced : Fenced t w i since s) : Fenced t w' i (since ++ [(i,⟨op,r⟩)]) (s.step t op r) := by
  have own (overtaken : Overtaken t i (since ++ [(i,⟨op,r⟩)])) : Overtaken t i since := by
    rcases overtakenSnoc overtaken with old | ⟨other,_⟩
    · exact old
    · exact absurd rfl other
  have quiet {w' : World Context Data} (same : w'.row = w.row) (quiet : ¬Writes t ⟨op,r⟩) :
      Fenced t w' i (since ++ [(i,⟨op,r⟩)]) (s.step t op r) := by
    rcases quietStep may tells quiet with stays | ⟨past,seen⟩ | ⟨row,_,_,scanned⟩
    · rw [stays]
      exact ⟨fenced.past,fun version status seen row here =>
        (fenced.behind version status seen row (same ▸ here)).imp_right (fun behind overtaken => behind (own overtaken))⟩
    · refine ⟨past,fun version status seen' row here => ?_⟩
      rcases seen with none | same'
      · rw [none] at seen'
        contradiction
      · rw [same'] at seen'
        exact (fenced.behind version status seen' row (same ▸ here)).imp_right (fun behind overtaken => behind (own overtaken))
    · rcases scanned with ⟨_,reads⟩ | lists
      · exact absurd fenced.past reads
      · exact absurd scan (by simp [listedScans lists])
  cases change with
  | kept silent => exact quiet rfl silent
  | marked => exact quiet rfl id
  | created fresh here =>
    have idle := (may here).1
    rw [show s = .idle from idle] at fenced
    exact fenced.past.elim
  | deleted listed =>
    obtain ⟨version,status,rfl⟩ := may listed
    exact fenced.past.elim
  | @updated row patch append stored =>
    have allowed := (Stage.mayUpdate may).1
    obtain ⟨status,seen,goes⟩ := @updatesSeen _ _ s row.version (row.version + 1) patch append allowed
    rw [Stage.stepAbout rfl]
    refine ⟨updatedPast fenced.past allowed,fun version status' seen' row' here => ?_⟩
    cases here
    rcases goes with none | goes
    · exact absurd (none.symm.trans seen') (by simp)
    · cases Option.some.inj (goes.symm.trans seen')
      refine ⟨Nat.le_refl _,fun overtaken => ?_⟩
      have behind := (fenced.behind _ _ seen row stored).2 (own overtaken)
      omega

theorem otherFenced (change : Change t w ⟨op,r⟩ w')
    (apart : ∀ record done, (⟨op,r⟩ : Event (Reply Context Data)) = ⟨.createTransaction record,.ok done⟩ → record.transactionId = t →
      s.seen = none)
    (fenced : Fenced t w i since s) : Fenced t w' i (since ++ [(j,⟨op,r⟩)]) s := by
  refine ⟨fenced.past,fun version status seen row here => ?_⟩
  have quiet (here : w.row = some row) (quiet : ¬Writes t ⟨op,r⟩) :
      version ≤ row.version ∧ (Overtaken t i (since ++ [(j,⟨op,r⟩)]) → version < row.version) := by
    refine (fenced.behind version status seen row here).imp_right (fun behind overtaken => ?_)
    rcases overtakenSnoc overtaken with old | ⟨_,writes⟩
    · exact behind old
    · exact absurd writes quiet
  cases change with
  | kept silent => exact quiet here silent
  | marked => exact quiet here id
  | created fresh named =>
    rw [apart _ _ rfl named] at seen
    contradiction
  | deleted listed => contradiction
  | updated stored =>
    cases here
    have before := (fenced.behind version status seen _ stored).1
    refine ⟨?_,fun _ => ?_⟩ <;> simp only [TransactionUpdatePatch.apply] <;> omega

theorem leasedFenced {store : Store Context Data}
    (run : Pool.Reaches Performs (Operation actors) (CreatedApart t) { shared := store } pool) :
    ∀ i since, Leased t i pool.log since → ∃ s, (stagesOf t pool)[i]? = some s ∧ Fenced t (pool.shared.world t) i since s := by
  refine @viewInvariant _ _ actors (Operation actors) (CreatedApart t) { shared := store } pool t
    (fun w log ss => ∀ i since, Leased t i log since → ∃ s, ss[i]? = some s ∧ Fenced t w i since s)
    (fun _ => id) rfl run ?_ ?_ ?_
  · exact fun i since leased => absurd leased Pool.sinceNil
  · intro w log ss fenced i since leased
    obtain ⟨s,here,fenced⟩ := fenced i since leased
    exact ⟨s,by rw [List.getElem?_append_left (List.getElem?_eq_some_iff.mp here).1]; exact here,fenced⟩
  · intro pool next j op r s _ apart answered fenced i since leased
    have change := worldChange answered.tells
    have inside := (List.getElem?_eq_some_iff.mp answered.stage).1
    rcases Pool.sinceSnoc leased with ⟨rfl,rfl,takes⟩ | ⟨earlier,rfl,leasedBefore,scan⟩
    · exact ⟨_,List.getElem?_set_self inside,leaseFenced takes change⟩
    · obtain ⟨s',here,fenced⟩ := fenced i earlier leasedBefore
      by_cases own : j = i
      · subst own
        cases Option.some.inj (here.symm.trans answered.stage)
        exact ⟨_,List.getElem?_set_self inside,ownFenced answered.may answered.tells change (scan rfl) fenced⟩
      · refine ⟨s',(List.getElem?_set_ne own).trans here,otherFenced change ?_ fenced⟩
        rintro record done same named
        cases same
        exact apart named i earlier s' leasedBefore here

/-- A call that has leased a transaction which another call has written since gets no
update accepted any more. -/
theorem zombieFencing {store : Store Context Data}
    (run : Pool.Reaches Performs (Operation actors) (CreatedApart t) { shared := store } pool)
    (leased : Leased t i pool.log since) (overtaken : Overtaken t i since) {version patch append r}
    (step : Pool.Step Performs (Operation actors) pool (.act i ⟨.updateTransaction t version patch append,r⟩) next) :
    r = .error (.staleTransactionVersion t version) ∧ next.shared = pool.shared := by
  obtain ⟨s,answered⟩ := answered (fun _ => id) rfl run step t
  obtain ⟨s',here,fenced⟩ := leasedFenced run i since leased
  cases Option.some.inj (answered.stage.symm.trans here)
  obtain ⟨status,seen,_⟩ := @updatesSeen _ _ s version 0 patch append (Stage.mayUpdate answered.may).1
  have tells := answered.tells
  cases r with
  | ok written =>
    obtain ⟨row,stored,current,_⟩ := tells rfl
    have behind := (fenced.behind _ _ seen row stored).2 overtaken
    omega
  | error e =>
    refine ⟨congrArg Except.error tells,?_⟩
    cases step with
    | act _ performed => exact rejectedUpdate performed

end

/-! The version of a new record starts at 1 again. -/

def enterCall : Act Unit Unit Unit := (doorActor.transition "t" "enter" () []).void

def deleteCall : Act Unit Unit Unit :=
  (doorActor.forceCleanUp { transactionIds := some ["t"], includeInFlight := true }).void

def startCall : Act Unit Unit Unit := (doorActor.startTransaction () (some "t")).void

open Pool in
/-- So many requests of one call. -/
def turns (i n : Nat) : List (Cue (Reply Unit Unit) DfsmError) := List.replicate n (.turn i)

/-- A call takes its lease; the transaction is deleted, created anew and leased again;
then the first call goes on to its commit. -/
def rebornPool : Calls Unit Unit :=
  Pool.play (serve politeUser) (.call enterCall::turns 0 5 ++ .call deleteCall::turns 1 3 ++ .call startCall::turns 2 3 ++
    .call enterCall::turns 3 5 ++ turns 0 6) { shared := doorStore }

theorem rebornReaches : Pool.Reaches Performs (Operation (· = doorActor)) Pool.Anything { shared := doorStore } rebornPool := by
  have enters : Operation (· = doorActor) enterCall := .inr (.inl ⟨doorActor,"t","enter",(),[],rfl,rfl⟩)
  have deletes : Operation (· = doorActor) deleteCall := .inr (.inr (.inr (.inl ⟨doorActor,_,rfl,rfl⟩)))
  have starts : Operation (· = doorActor) startCall := .inl ⟨doorActor,(),some "t",rfl,rfl⟩
  refine Pool.reachesPlay (servePerforms politeUser) ?_ (Pool.playAnything _ _) .start
  simp [turns,enters,deletes,starts]

/-- The same without the new record: the commit is rejected. -/
def deletedPool : Calls Unit Unit :=
  Pool.play (serve politeUser) (.call enterCall::turns 0 5 ++ .call deleteCall::turns 1 3 ++ turns 0 6) { shared := doorStore }

theorem zombieFencingDeleted : (Pool.turn (serve politeUser) 0 deletedPool).shared = deletedPool.shared := by
  have enters : Operation (· = doorActor) enterCall := .inr (.inl ⟨doorActor,"t","enter",(),[],rfl,rfl⟩)
  have deletes : Operation (· = doorActor) deleteCall := .inr (.inr (.inr (.inl ⟨doorActor,_,rfl,rfl⟩)))
  have run : Pool.Reaches Performs (Operation (· = doorActor)) (CreatedApart "t") { shared := doorStore } deletedPool := by
    refine Pool.reachesPlay (servePerforms politeUser) ?_ ?_ .start
    · simp [turns,enters,deletes]
    · repeat (first | exact trivial | refine ⟨trivial,?_⟩)
  have leased : Leased "t" 0 deletedPool.log (deletedPool.log.drop 5) := ⟨deletedPool.log.take 4,_,rfl,⟨rfl,rfl⟩,by decide⟩
  have overtaken : Overtaken "t" 0 (deletedPool.log.drop 5) :=
    ⟨deletedPool.log.get ⟨7,by decide⟩,List.mem_drop_iff_getElem.mpr ⟨2,by decide,rfl⟩,by decide,List.mem_singleton_self _⟩
  have waits : ∃ patch append call next history,
      deletedPool.workers[0]? = some ⟨call,.ask (.updateTransaction "t" 2 patch append) next,history⟩ := ⟨_,_,_,_,_,rfl⟩
  obtain ⟨patch,append,call,next,history,here⟩ := waits
  exact (zombieFencing run leased overtaken (Pool.stepTurn (servePerforms politeUser) here)).2

theorem zombieFencingReborn : ¬∀ (store : Store Unit Unit) (pool next : Calls Unit Unit) i since version patch append r,
    Pool.Reaches Performs (Operation (· = doorActor)) Pool.Anything { shared := store } pool → Leased "t" i pool.log since →
    Overtaken "t" i since → Pool.Step Performs (Operation (· = doorActor)) pool
      (.act i ⟨.updateTransaction "t" version patch append,r⟩) next →
    r = .error (.staleTransactionVersion "t" version) ∧ next.shared = pool.shared := by
  intro claim
  have leased : Leased "t" 0 rebornPool.log (rebornPool.log.drop 5) := ⟨rebornPool.log.take 4,_,rfl,⟨rfl,rfl⟩,by decide⟩
  have overtaken : Overtaken "t" 0 (rebornPool.log.drop 5) :=
    ⟨rebornPool.log.get ⟨7,by decide⟩,List.mem_drop_iff_getElem.mpr ⟨2,by decide,rfl⟩,by decide,List.mem_singleton_self _⟩
  have waits : ∃ patch append call next history,
      rebornPool.workers[0]? = some ⟨call,.ask (.updateTransaction "t" 2 patch append) next,history⟩ := ⟨_,_,_,_,_,rfl⟩
  obtain ⟨patch,append,call,next,history,here⟩ := waits
  have rejected := claim doorStore rebornPool _ 0 _ 2 patch append _ rebornReaches leased overtaken
    (Pool.stepTurn (servePerforms politeUser) here)
  have accepted : (serve politeUser rebornPool.shared (.updateTransaction "t" 2 patch append)).1 = .ok 3 := rfl
  exact absurd (accepted.symm.trans rejected.1) (by simp)

end Dfsm
