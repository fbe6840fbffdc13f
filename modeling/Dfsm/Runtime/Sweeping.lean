import Dfsm.Runtime.Fencing

/-! Recovery sweeps. A sweep takes up only what it has listed; between the scan and the
action it may be overtaken by the worker whose transaction it is. -/
namespace Dfsm
open Protocol Act

variable {Context Data : Type} {t : String}

/-- Stuck for as long as the scan was asked for, where it is in flight. -/
def Listing.Due (l : Listing Context Data) : Prop :=
  l.item.status = .IN_FLIGHT → l.stuckThresholdMs ≤ l.nowTimestamp - l.item.updatedAt

/-- The protocol of a sweep: what it writes it has listed before as due. -/
def sweeping (bound : Int → Prop) : Protocol (Reply Context Data) (String → Option (Listing Context Data)) where
  allowed last op := match op with
    | .createTransaction _ => False
    | .queryTransactions _ _ threshold => bound threshold
    | .deleteTransactions ids => ∀ t ∈ ids, ∃ l, last t = some l ∧ l.Due ∧ bound l.stuckThresholdMs
    | .updateTransaction t _ _ _ => ∃ l, last t = some l ∧ l.Due ∧ bound l.stuckThresholdMs
    | _ => True
  replies op r := match op, r with
    | .getTransaction t, some snapshot => snapshot.transactionId = t
    | .queryTransactions filter nowTimestamp threshold, found => (found.map (·.transactionId)).Nodup ∧ ∀ item ∈ found,
      Store.matchesFilter filter item.toTransactionRecord = true ∧
        (item.isStuck = true → threshold ≤ nowTimestamp - item.updatedAt)
    | _, _ => True
  after last op r t := (listed t ⟨op,r⟩).or (last t)

section
variable {actors : Actor → Prop} {bound : Int → Prop} {last : String → Option (Listing Context Data)}

theorem sweepingLift {α : Type} {p : Act Context Data α} {post : Stage Context Data → Except DfsmError α → Prop} {s}
    (obeys : (stages actors t).Obeys post s p) {l} (here : last t = some l) (due : l.Due) (within : bound l.stuckThresholdMs) :
    (sweeping bound).Obeys (fun last' _ => last' = last) last p := by
  induction p generalizing s with
  | done a => exact rfl
  | fail e => exact rfl
  | ask op next ih =>
    obtain ⟨⟨_,about,allows⟩,rest⟩ := obeys
    refine ⟨?_,fun r possible => ?_⟩
    · cases op with
      | createTransaction | queryTransactions | deleteTransactions => exact allows.elim
      | updateTransaction id version patch append =>
        rcases about with none | about
        · contradiction
        · cases Option.some.inj about
          exact ⟨l,here,due,within⟩
      | _ => trivial
    · have replies : (stages actors t).replies op r := by
        cases op with
        | getTransaction id => cases r <;> trivial
        | _ => trivial
      have same : (sweeping bound).after last op r = last := by
        cases op <;> first | rfl | exact allows.elim
      rw [same]
      exact ih r (rest r replies)

theorem foundListed {filter nowTimestamp threshold} {found : List (TransactionSummary Context Data)}
    (once : (found.map (·.transactionId)).Nodup) {item} (mem : item ∈ found) :
    (sweeping bound).after last (.queryTransactions filter nowTimestamp threshold) found item.transactionId =
      some ⟨item,nowTimestamp,threshold⟩ := by
  have first : found.find? (·.transactionId = item.transactionId) = some item := findListed once mem
  simp only [sweeping,listed,first]
  rfl

variable {actor : Actor}

theorem retentionSweeping {sweptAt threshold} (within : bound threshold) :
    (sweeping bound).Obeys (Ends fun _ _ => True) last (actor.retentionCleanUp sweptAt threshold : Act Context Data Nat) := by
  unfold Actor.retentionCleanUp
  split
  · trivial
  · split
    · trivial
    · refine obeysAsk within (fun expired possible => ?_)
      split
      · trivial
      · refine And.intro (fun t mem => ?_) (fun _ _ => trivial)
        obtain ⟨item,here,rfl⟩ := List.mem_map.mp mem
        refine ⟨_,foundListed possible.1 here,?_,within⟩
        intro flying
        have terminal := (possible.2 item here).1
        have flying : item.status = .IN_FLIGHT := flying
        simp [Store.matchesFilter,flying] at terminal

variable (member : actors actor)
include member

theorem sweepItemSweeping {item : TransactionSummary Context Data} {report} {nowTimestamp threshold}
    (here : last item.transactionId = some ⟨item,nowTimestamp,threshold⟩)
    (stuck : item.isStuck = true → threshold ≤ nowTimestamp - item.updatedAt) (within : bound threshold) :
    (sweeping bound).Obeys (Ends fun last' _ => last' = last) last (actor.sweepTransaction report item) := by
  unfold Actor.sweepTransaction
  split
  · exact rfl
  · rename_i taken
    have due : Listing.Due ⟨item,nowTimestamp,threshold⟩ := fun _ => stuck (by simpa using taken)
    have recovered : (sweeping bound).Obeys (fun last' _ => last' = last) last
        (actor.recover item (actor.resolveRecoveryModeForState item.stateValue)) := by
      by_cases deletes : actor.resolveRecoveryModeForState item.stateValue = .DELETE
      · rw [deletes]
        refine obeysAsk (fun t mem => ?_) (fun _ _ => rfl)
        cases List.mem_singleton.mp mem
        exact ⟨_,here,due,within⟩
      · exact sweepingLift (@recoverStages _ _ _ _ member item item.status _ deletes) here due within
    refine obeysSeq (fun last' _ => last' = last) (obeysAttempt (obeysMono recovered ?_)) ?_
    · intro last' r same
      exact same
    · intro last' result same
      rcases result with err | taken
      · exact same
      · cases taken <;> exact same

theorem sweepSweeping {threshold} (within : bound threshold) :
    (sweeping bound).Obeys (Ends fun _ _ => True) last (actor.executeRecoverySweep threshold : Act Context Data RecoverySweepReport) := by
  unfold Actor.executeRecoverySweep
  refine obeysAsk trivial (fun sweptAt _ => obeysAsk within (fun found possible => ?_))
  refine obeysSeq _ (obeysFold (fun left last' _ => (∀ item ∈ left, item ∈ found) ∧
    last' = (sweeping bound).after last (.queryTransactions _ sweptAt threshold) found) ?_ found ⟨fun _ => id,rfl⟩) ?_
  · intro item left last' report ⟨among,same⟩
    have mem := among item List.mem_cons_self
    refine obeysMono (sweepItemSweeping member (same ▸ foundListed possible.1 mem) (possible.2 item mem).2 within) ?_
    intro last'' r kept
    cases r with
    | ok _ => exact ⟨fun other later => among other (List.mem_cons_of_mem _ later),kept.trans same⟩
    | error _ => trivial
  · intro last' report _
    refine obeysSeq _ (retentionSweeping within) (fun _ deleted _ => ?_)
    dsimp only
    split <;> trivial

end

/-- Started as a sweep, with a threshold of a kind. -/
def SweepsAt (actors : Actor → Prop) (bound : Int → Prop) (p : Act Context Data Unit) : Prop :=
  ∃ actor threshold, actors actor ∧ bound threshold ∧ p = (actor.executeRecoverySweep threshold).void

def Sweeper (actors : Actor → Prop) (bound : Int → Prop) (pool : Calls Context Data) (i : Nat) : Prop :=
  ∃ w, pool.workers[i]? = some w ∧ SweepsAt actors bound w.call

/-- The call has listed the transaction; what has happened since. -/
def Lists (t : String) (i : Nat) (l : Listing Context Data) (log since : Log Context Data) : Prop :=
  Pool.Since i (fun e => listed t e = some l) (fun e => listed t e = none) log since

/-- It has not yet acted on what it has listed. -/
def Sighted (t : String) (i : Nat) (l : Listing Context Data) (log since : Log Context Data) : Prop :=
  Pool.Since i (fun e => listed t e = some l) (fun e => listed t e = none ∧ ¬Writes t e) log since

def Acted (t : String) (i : Nat) (since : Log Context Data) : Prop := ∃ x ∈ since, x.1 = i ∧ Writes t x.2

theorem listsSighted {i : Nat} {l : Listing Context Data} {log since : Log Context Data} (lists : Lists t i l log since)
    (idle : ¬Acted t i since) : Sighted t i l log since := by
  obtain ⟨before,e,split,first,alone⟩ := lists
  exact ⟨before,e,split,first,fun x mem own => ⟨alone x mem own,fun writes => idle ⟨x,mem,own,writes⟩⟩⟩

section
variable {actors : Actor → Prop} {bound : Int → Prop} {calls : Act Context Data Unit → Prop}
  {meets : Calls Context Data → Move (Reply Context Data) DfsmError → Prop} {store : Store Context Data}
  {pool next : Calls Context Data} {i : Nat} {e : Event (Reply Context Data)}

theorem performsSweeping {store store' : Store Context Data} {op r} (performed : Performs store op r store') :
    (sweeping bound).replies op r := by
  cases op with
  | getTransaction id =>
    have found := @performsReplies _ _ store store' (.getTransaction id) r (fun _ => True) performed
    cases r <;> exact found
  | queryTransactions filter nowTimestamp threshold =>
    rw [performed.1]
    refine ⟨Store.queryOnce,fun item mem => ?_⟩
    obtain ⟨_,matching,stuck⟩ := Store.queryTells mem
    refine ⟨matching,fun is => ?_⟩
    rw [stuck] at is
    simp only [Bool.and_eq_true,decide_eq_true_eq] at is
    exact is.2
  | _ => trivial

theorem lastListed (history : List (Event (Reply Context Data))) (last : String → Option (Listing Context Data)) :
    (sweeping bound).phaseAfter last history t = history.foldl (fun before e => (listed t e).or before) (last t) := by
  induction history generalizing last with
  | nil => rfl
  | cons e rest ih => exact ih _

theorem sweepListed (run : Pool.Reaches Performs calls meets { shared := store } pool) (sweeper : Sweeper actors bound pool i)
    (step : Pool.Step Performs calls pool (.act i e) next) (writes : Writes t e) :
    ∃ l since, Lists t i l pool.log since ∧ l.Due ∧ bound l.stuckThresholdMs := by
  have conforms := @Pool.reachesConforms _ _ _ _ _ Performs calls meets _ pool (sweeping bound) (fun _ => none)
    (SweepsAt actors bound) (fun _ _ => True) ?_ (fun _ performed => performsSweeping performed) rfl run
  · obtain ⟨w,here,sweeps⟩ := sweeper
    cases step with
    | @act _ call op next history r shared here' performed =>
      cases Option.some.inj (here.symm.trans here')
      have allowed := (conforms _ (List.mem_of_getElem? here) sweeps).1
      have found : ∃ l, (sweeping bound).phaseAfter (fun _ => none) history t = some l ∧ l.Due ∧ bound l.stuckThresholdMs := by
        cases op with
        | createTransaction => exact allowed.elim
        | updateTransaction id version patch append =>
          cases r with
          | ok _ => cases writes; exact allowed
          | error _ => contradiction
        | deleteTransactions ids => exact allowed t writes
        | _ => contradiction
      obtain ⟨l,last,due⟩ := found
      have recorded : history = Pool.eventsOf i pool.log := (Pool.reachesHistory run).1 i _ here
      rw [lastListed,recorded] at last
      obtain ⟨since,lists⟩ := Pool.sinceLast last
      exact ⟨l,since,lists,due⟩
  · intro p _ ⟨actor,threshold,member,within,same⟩
    subst same
    refine obeysBind (obeysMono (sweepSweeping member within) ?_)
    intro last r _
    cases r <;> trivial

/-- Between its scan and its action a sweep is not overtaken, where the action is a deletion or
begins with reading the transaction again. -/
def Undisturbed (actors : Actor → Prop) (bound : Int → Prop) (t : String) (pool : Calls Context Data) :
    Move (Reply Context Data) DfsmError → Prop
  | .act i ⟨.deleteTransactions ids,_⟩ => t ∈ ids → Sweeper actors bound pool i →
    ∀ l since, Sighted t i l pool.log since → ¬Overtaken t i since
  | .act i ⟨.getTransaction id,_⟩ => id = t → ∀ l since, Sighted t i l pool.log since → ¬Overtaken t i since
  | _ => True

/-- A call that has listed the transaction and not yet acted knows no other version of it. -/
structure Sight (t : String) (w : World Context Data) (i : Nat) (l : Listing Context Data) (since : Log Context Data)
    (s : Stage Context Data) : Prop where
  begun : s ≠ .idle
  version : ∀ version status, s.seen = some (version,status) → version = l.item.version
  stored : ¬Overtaken t i since → w.row = some l.item.toTransactionRecord

theorem quietRow {w w' : World Context Data} (change : Change t w e w') (quiet : ¬Writes t e) : w'.row = w.row := by
  cases change with
  | kept | marked => rfl
  | created fresh here => exact absurd here quiet
  | updated stored => exact absurd rfl quiet
  | deleted listed => exact absurd listed quiet

theorem runSight (within : ∀ p, calls p → Operation actors p) (undisturbed : ∀ pool move, meets pool move → Undisturbed actors bound t pool move)
    (run : Pool.Reaches Performs calls meets { shared := store } pool) : ∀ i l since, Sighted t i l pool.log since →
    ∃ s, (stagesOf t pool)[i]? = some s ∧ Sight t (pool.shared.world t) i l since s := by
  refine @viewInvariant _ _ actors calls meets { shared := store } pool t (fun w log ss => ∀ i l since, Sighted t i l log since →
    ∃ s, ss[i]? = some s ∧ Sight t w i l since s) within rfl run ?_ ?_ ?_
  · exact fun i l since sighted => absurd sighted Pool.sinceNil
  · intro w log ss sight i l since sighted
    obtain ⟨s,here,sight⟩ := sight i l since sighted
    exact ⟨s,by rw [List.getElem?_append_left (List.getElem?_eq_some_iff.mp here).1]; exact here,sight⟩
  · intro pool next j op r s _ met answered sight i l since sighted
    have change := worldChange answered.tells
    have inside := (List.getElem?_eq_some_iff.mp answered.stage).1
    rcases Pool.sinceSnoc sighted with ⟨rfl,rfl,lists⟩ | ⟨earlier,rfl,before,own⟩
    · refine ⟨_,List.getElem?_set_self inside,?_⟩
      cases op with
      | queryTransactions filter nowTimestamp threshold =>
        obtain ⟨item,first,rfl⟩ := Option.map_eq_some_iff.mp lists
        have here : item.transactionId = t := by simpa using List.find?_some first
        have scanned : s.step t (.queryTransactions filter nowTimestamp threshold) r = .scanned item.version item.status := by
          simp only [Stage.step,first]
        rw [scanned]
        refine ⟨by simp,?_,fun _ => (answered.tells item (List.mem_of_find?_eq_some first) here).1⟩
        intro version status seen
        cases seen
        rfl
      | _ => contradiction
    · obtain ⟨s',here,sight⟩ := sight i l earlier before
      by_cases same : j = i
      · subst same
        cases Option.some.inj (here.symm.trans answered.stage)
        obtain ⟨unlisted,quiet⟩ := own rfl
        have still : ¬Overtaken t j (earlier ++ [(j,⟨op,r⟩)]) → ((pool.shared.world t).after t op r).row =
            some l.item.toTransactionRecord := by
          intro alone
          rw [quietRow change quiet]
          refine sight.stored ?_
          rintro ⟨x,mem,overtakes⟩
          exact alone ⟨x,List.mem_append_left _ mem,overtakes⟩
        refine ⟨_,List.getElem?_set_self inside,?_⟩
        rcases quietStep answered.may answered.tells quiet with stays | ⟨past,seen⟩ | ⟨row,read,seen,⟨reads,_⟩ | lists⟩
        · rw [stays]
          exact ⟨sight.begun,sight.version,still⟩
        · refine ⟨fun idle => by rw [idle] at past; exact past,fun version status seen' => ?_,still⟩
          rcases seen with none | kept
          · rw [none] at seen'
            contradiction
          · exact sight.version version status (kept.symm.trans seen')
        · refine ⟨fun idle => by rw [idle] at seen; contradiction,fun version status seen' => ?_,still⟩
          have alone : ¬Overtaken t j earlier := by
            cases reads
            exact undisturbed _ _ met rfl l earlier before
          cases Option.some.inj (read.symm.trans (sight.stored alone))
          cases Option.some.inj (seen.symm.trans seen')
          rfl
        · rw [unlisted] at lists
          contradiction
      · refine ⟨s',(List.getElem?_set_ne same).trans here,sight.begun,sight.version,fun alone => ?_⟩
        have quiet : ¬Writes t ⟨op,r⟩ := fun writes => alone ⟨_,List.mem_append_right _ List.mem_cons_self,same,writes⟩
        rw [quietRow change quiet]
        refine sight.stored ?_
        rintro ⟨x,mem,overtakes⟩
        exact alone ⟨x,List.mem_append_left _ mem,overtakes⟩

/-- The first write of a sweep to what it has listed: a deletion of a transaction it was not
overtaken on, or an update of the version it knows. -/
theorem sightWrites {w w' : World Context Data} {l : Listing Context Data} {since : Log Context Data} {s : Stage Context Data} {op r}
    (sight : Sight t w i l since s) (may : s.May actors t op) (change : Change t w ⟨op,r⟩ w') (writes : Writes t ⟨op,r⟩)
    (alone : (∃ ids, op = .deleteTransactions ids) → ¬Overtaken t i since) :
    ∃ row, w.row = some row ∧ row.version = l.item.version ∧ (s.seen ≠ none ∨ ¬Overtaken t i since) := by
  cases change with
  | kept quiet => exact absurd writes quiet
  | created fresh here => exact absurd (may here).1 sight.begun
  | marked => contradiction
  | deleted listed => exact ⟨_,sight.stored (alone ⟨_,rfl⟩),rfl,.inr (alone ⟨_,rfl⟩)⟩
  | @updated row patch append stored =>
    obtain ⟨status,seen,_⟩ := @updatesSeen _ _ s row.version 0 patch append (Stage.mayUpdate may).1
    exact ⟨row,stored,sight.version _ _ seen,.inl (by simp [seen])⟩

/-- A sweep that is not overtaken writes a transaction for the first time only at the version
it had in the scan. -/
theorem sweepsOnSight (run : Pool.Reaches Performs (Operation actors) (Undisturbed actors (fun _ => True) t) { shared := store } pool)
    (sweeper : Sweeper actors (fun _ => True) pool i) (met : Undisturbed actors (fun _ => True) t pool (.act i e))
    (step : Pool.Step Performs (Operation actors) pool (.act i e) next) (writes : Writes t e) :
    ∃ l since, Lists t i l pool.log since ∧ (Acted t i since ∨
      ∃ row, (pool.shared.world t).row = some row ∧ row.version = l.item.version) := by
  obtain ⟨l,since,lists,_⟩ := sweepListed run sweeper step writes
  refine ⟨l,since,lists,?_⟩
  by_cases acted : Acted t i since
  · exact .inl acted
  · have sighted := listsSighted lists acted
    obtain ⟨op,r⟩ := e
    obtain ⟨s,answered⟩ := answered (fun _ => id) rfl run step t
    obtain ⟨s',here,sight⟩ := runSight (fun _ => id) (fun _ _ => id) run i l since sighted
    cases Option.some.inj (answered.stage.symm.trans here)
    have alone : (∃ ids, op = .deleteTransactions ids) → ¬Overtaken t i since := by
      intro ⟨ids,same⟩
      subst same
      exact met writes sweeper l since sighted
    obtain ⟨row,stored,version,_⟩ := sightWrites sight answered.may answered.change writes alone
    exact .inr ⟨row,stored,version⟩

end

/-! A worker commits between the scan and the deletion. -/

def reaper : Actor := { doorActor with recoveryConfig := { defaultAction := .DELETE } }

def sweepCall : Act Unit Unit Unit := (reaper.executeRecoverySweep 0).void

/-- A call takes its lease, a sweep lists it, and the call goes on to its end. -/
def committedPool : Calls Unit Unit :=
  Pool.play (serve politeUser) (.call enterCall::turns 0 5 ++ .call sweepCall::turns 1 2 ++ turns 0 20) { shared := doorStore }

/-- The same without the end. -/
def listedPool : Calls Unit Unit :=
  Pool.play (serve politeUser) (.call enterCall::turns 0 5 ++ .call sweepCall::turns 1 2) { shared := doorStore }

abbrev Porters (actor : Actor) : Prop := actor = doorActor ∨ actor = reaper

theorem entersOperation : Operation Porters enterCall := .inr (.inl ⟨doorActor,"t","enter",(),[],.inl rfl,rfl⟩)

theorem sweepsOperation : Operation Porters sweepCall := .inr (.inr (.inl ⟨reaper,0,.inr rfl,rfl⟩))

theorem listedReaches : Pool.Reaches Performs (Operation Porters) (Undisturbed Porters (fun _ => True) "t")
    { shared := doorStore } listedPool := by
  apply Pool.reachesPlay (servePerforms politeUser) _ _ .start
  · simp [turns,entersOperation,sweepsOperation]
  · refine ⟨trivial,fun _ l since sighted => absurd sighted Pool.sinceNil,?_⟩
    repeat (first | exact trivial | refine ⟨trivial,?_⟩)

theorem committedReaches : Pool.Reaches Performs (Operation Porters) Pool.Anything { shared := doorStore } committedPool := by
  apply Pool.reachesPlay (servePerforms politeUser) _ (Pool.playAnything _ _) .start
  simp [turns,entersOperation,sweepsOperation]

theorem scannedOnly {i n} {scan : Event (Reply Context Data)} {l log since} (events : Pool.eventsOf i log = [⟨.now,n⟩,scan])
    (scanned : scans scan = true) (lists : Lists t i l log since) : listed t scan = some l ∧ ¬Acted t i since := by
  obtain ⟨before,e,split,found,_⟩ := Pool.sinceEvents lists
  rw [events] at split
  have quiet : ¬Writes t scan := by
    obtain ⟨op,r⟩ := scan
    cases op <;> first | exact id | contradiction
  match before,split with
  | [],split =>
    simp only [List.nil_append,List.cons.injEq] at split
    rw [← split.1] at found
    contradiction
  | [_],split =>
    simp only [List.cons_append,List.nil_append,List.cons.injEq] at split
    obtain ⟨_,rfl,none⟩ := split
    refine ⟨found,fun ⟨x,mem,own,writes⟩ => ?_⟩
    have here : x.2 ∈ Pool.eventsOf i since := List.mem_map.mpr ⟨x,List.mem_filter.mpr ⟨mem,by simpa using own⟩,rfl⟩
    rw [← none] at here
    contradiction
  | _::_::_,split => simp at split

theorem justListed {i l scan} {log log' since : Log Context Data} (split : log = log' ++ [(i,scan)])
    (scanned : (listed t scan).isSome = true) (sighted : Sighted t i l log since) : ¬Overtaken t i since := by
  rw [split] at sighted
  rcases Pool.sinceSnoc sighted with ⟨rfl,_⟩ | ⟨_,_,_,keeps⟩
  · exact fun ⟨_,mem,_⟩ => by contradiction
  · rw [(keeps rfl).1] at scanned
    contradiction

theorem sweepsOnSightListed : ∃ l since, Lists "t" 1 l listedPool.log since ∧ (Acted "t" 1 since ∨
    ∃ row, (listedPool.shared.world "t").row = some row ∧ row.version = l.item.version) := by
  have sweeper : Sweeper Porters (fun _ => True) listedPool 1 := ⟨_,rfl,reaper,0,.inr rfl,trivial,rfl⟩
  have waits : ∃ call next history, listedPool.workers[1]? = some ⟨call,.ask (.deleteTransactions ["t"]) next,history⟩ :=
    ⟨_,_,_,rfl⟩
  obtain ⟨call,next,history,here⟩ := waits
  refine sweepsOnSight listedReaches sweeper ?_ (Pool.stepTurn (servePerforms politeUser) here) List.mem_cons_self
  intro _ _ l since sighted
  obtain ⟨log,scan,split,last⟩ : ∃ log scan, listedPool.log = log ++ [(1,scan)] ∧ (listed "t" scan).isSome = true := ⟨_,_,rfl,rfl⟩
  exact justListed split last sighted

/-- The sweep deletes a transaction that its worker has committed since. -/
theorem sweepsOnSightCommitted : ¬∀ (store : Store Unit Unit) (pool next : Calls Unit Unit) i e,
    Pool.Reaches Performs (Operation Porters) Pool.Anything { shared := store } pool → Sweeper Porters (fun _ => True) pool i →
    Pool.Step Performs (Operation Porters) pool (.act i e) next → Writes "t" e →
    ∃ l since, Lists "t" i l pool.log since ∧ (Acted "t" i since ∨
      ∃ row, (pool.shared.world "t").row = some row ∧ row.version = l.item.version) := by
  intro claim
  have sweeper : Sweeper Porters (fun _ => True) committedPool 1 := ⟨_,rfl,reaper,0,.inr rfl,trivial,rfl⟩
  have waits : ∃ call next history, committedPool.workers[1]? = some ⟨call,.ask (.deleteTransactions ["t"]) next,history⟩ :=
    ⟨_,_,_,rfl⟩
  obtain ⟨call,next,history,here⟩ := waits
  obtain ⟨l,since,lists,held⟩ := claim doorStore committedPool _ 1 _ committedReaches sweeper
    (Pool.stepTurn (servePerforms politeUser) here) List.mem_cons_self
  obtain ⟨scan,events,scanned,versions⟩ : ∃ scan, Pool.eventsOf 1 committedPool.log = [⟨.now,0⟩,scan] ∧ scans scan = true ∧
      (listed "t" scan).map (·.item.version) = some 2 := ⟨_,rfl,rfl,rfl⟩
  obtain ⟨found,idle⟩ := scannedOnly events scanned lists
  obtain ⟨row,stored,version⟩ := held.resolve_left idle
  rw [found] at versions
  have current : (committedPool.shared.world "t").row.map (·.version) = some 3 := by decide
  rw [stored,Option.map_some,version] at current
  exact absurd (versions.symm.trans current) (by decide)

end Dfsm
