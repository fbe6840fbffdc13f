import Dfsm.Runtime.Sweeping

/-! Leases and recovery. How long a lease runs is set by the recovery threshold of the actor
that takes it, and when a sweep finds its holder stuck by the threshold of the sweep. -/
namespace Dfsm

variable {Context Data : Type} {t : String}

/-- At least as long as a lease of any of the actors. -/
def Covers (actors : Actor → Prop) (threshold : Int) : Prop :=
  ∀ actor, actors actor → max 30000 actor.recoveryConfig.stuckThresholdMs ≤ threshold

/-- Operations whose sweeps wait for as long as leases run. -/
def PatientOperation (actors : Actor → Prop) (p : Act Context Data Unit) : Prop :=
  StartCall actors p ∨ TransitionCall actors p ∨ SweepsAt actors (Covers actors) p ∨ CleanUpCall actors p

theorem patientWithin {actors : Actor → Prop} (p : Act Context Data Unit) (patient : PatientOperation actors p) : Operation actors p := by
  rcases patient with start | transition | ⟨actor,threshold,member,_,same⟩ | clean
  · exact .inl start
  · exact .inr (.inl transition)
  · exact .inr (.inr (.inl ⟨actor,threshold,member,same⟩))
  · exact .inr (.inr (.inr clean))

/-- The lease ends within the term of an actor from the last update on. -/
def LeaseWithin (actors : Actor → Prop) (row : TransactionRecord Context Data) : Prop :=
  ∀ expiry, row.leaseExpiresAt = some expiry →
    ∃ actor, actors actor ∧ expiry ≤ row.updatedAt + max 30000 actor.recoveryConfig.stuckThresholdMs

/-- No update is stamped earlier than the row it replaces. -/
def Onward (t : String) (pool : Calls Context Data) : Move (Reply Context Data) DfsmError → Prop
  | .act _ ⟨.updateTransaction id _ patch _,.ok _⟩ => id = t →
    ∀ row, (pool.shared.world t).row = some row → row.updatedAt ≤ patch.updatedAt
  | _ => True

section
variable {actors : Actor → Prop} {bound : Int → Prop} {calls : Act Context Data Unit → Prop}
  {meets : Calls Context Data → Move (Reply Context Data) DfsmError → Prop} {store : Store Context Data}
  {pool next : Calls Context Data} {i : Nat} {e : Event (Reply Context Data)}

theorem changeLeases {w w' : World Context Data} {s : Stage Context Data} {op r} (change : Change t w ⟨op,r⟩ w')
    (may : s.May actors t op) (onward : ∀ version patch append next, (⟨op,r⟩ : Event (Reply Context Data)) =
      ⟨.updateTransaction t version patch append,.ok next⟩ → ∀ row, w.row = some row → row.updatedAt ≤ patch.updatedAt)
    (leased : ∀ row, w.row = some row → LeaseWithin actors row) : ∀ row, w'.row = some row → LeaseWithin actors row := by
  intro row here
  cases change with
  | kept | marked => exact leased row here
  | created fresh named =>
    cases here
    intro expiry set
    rw [(may named).2.2] at set
    contradiction
  | deleted listed => contradiction
  | @updated before patch append stored =>
    cases here
    intro expiry set
    have later := onward _ _ _ _ rfl before stored
    simp only [TransactionUpdatePatch.apply] at set ⊢
    cases given : patch.leaseExpiresAt with
    | none =>
      rw [given] at set
      obtain ⟨actor,member,ends⟩ := leased before stored expiry set
      exact ⟨actor,member,by omega⟩
    | some lease =>
      rw [given] at set
      have set : lease = some expiry := set
      subst set
      obtain ⟨_,actor,member,ends⟩ := (Stage.mayUpdate may).2 expiry given
      exact ⟨actor,member,by omega⟩

theorem runLeases (within : ∀ p, calls p → Operation actors p) (onward : ∀ pool move, meets pool move → Onward t pool move)
    (first : ∀ row, store.row t = some row → LeaseWithin actors row)
    (run : Pool.Reaches Performs calls meets { shared := store } pool) :
    ∀ row, (pool.shared.world t).row = some row → LeaseWithin actors row := by
  refine @viewInvariant _ _ actors calls meets { shared := store } pool t
    (fun w _ _ => ∀ row, w.row = some row → LeaseWithin actors row) within rfl run first (fun _ _ _ => id) ?_
  intro pool next j op r s _ met answered leased
  refine changeLeases (worldChange answered.tells) answered.may ?_ leased
  intro version patch append next same
  cases same
  exact onward _ _ met rfl

theorem otherBehind {w w' : World Context Data} {j l} {earlier : Log Context Data} {s : Stage Context Data} (change : Change t w e w')
    (sight : Sight t w i l earlier s) (seen : s.seen ≠ none)
    (apart : ∀ record done, e = ⟨.createTransaction record,.ok done⟩ → record.transactionId = t → s.seen = none)
    (behind : Overtaken t i earlier → ∀ row, w.row = some row → l.item.version < row.version)
    (overtaken : Overtaken t i (earlier ++ [(j,e)])) {row} (stored : w'.row = some row) : l.item.version < row.version := by
  have quiet (quiet : ¬Writes t e) (stored : w.row = some row) : l.item.version < row.version :=
    behind ((overtakenSnoc overtaken).resolve_right (fun other => quiet other.2)) row stored
  cases change with
  | kept silent => exact quiet silent stored
  | marked => exact quiet id stored
  | created _ named => exact absurd (apart _ _ rfl named) seen
  | deleted listed => contradiction
  | @updated before patch append found =>
    cases stored
    simp only [TransactionUpdatePatch.apply]
    by_cases already : Overtaken t i earlier
    · have less := behind already before found
      omega
    · have same := found.symm.trans (sight.stored already)
      cases Option.some.inj same
      omega

theorem runBehind (within : ∀ p, calls p → Operation actors p) (undisturbed : ∀ pool move, meets pool move → Undisturbed actors bound t pool move)
    (fresh : ∀ pool move, meets pool move → CreatedFresh t pool move)
    (run : Pool.Reaches Performs calls meets { shared := store } pool) : ∀ i l since, Sighted t i l pool.log since →
    ∀ s, (stagesOf t pool)[i]? = some s → s.seen ≠ none → Overtaken t i since →
    ∀ row, (pool.shared.world t).row = some row → l.item.version < row.version := by
  refine @viewInvariant _ _ actors calls meets { shared := store } pool t (fun w log ss => ∀ i l since, Sighted t i l log since →
    ∀ s, ss[i]? = some s → s.seen ≠ none → Overtaken t i since → ∀ row, w.row = some row → l.item.version < row.version)
    within rfl run ?_ ?_ ?_
  · exact fun i l since sighted => absurd sighted Pool.sinceNil
  · intro w log ss behind i l since sighted s here seen overtaken row stored
    rcases Nat.lt_or_ge i ss.length with old | new
    · rw [List.getElem?_append_left old] at here
      exact behind i l since sighted s here seen overtaken row stored
    · rw [List.getElem?_append_right new] at here
      have last : s = .idle := by simpa using List.mem_of_getElem? here
      rw [last] at seen
      exact absurd rfl seen
  · intro pool next j op r s before met answered behind i l since sighted s' here seen overtaken row stored
    have change := worldChange answered.tells
    have inside := (List.getElem?_eq_some_iff.mp answered.stage).1
    rcases Pool.sinceSnoc sighted with ⟨rfl,_⟩ | ⟨earlier,rfl,sightedBefore,own⟩
    · obtain ⟨x,mem,_⟩ := overtaken
      contradiction
    by_cases same : j = i
    · subst same
      obtain ⟨unlisted,quiet⟩ := own rfl
      rw [List.getElem?_set_self inside] at here
      cases Option.some.inj here
      rw [quietRow change quiet] at stored
      have already := (overtakenSnoc overtaken).resolve_right (fun other => other.1 rfl)
      have known (kept : s.seen ≠ none) := behind j l earlier sightedBefore s answered.stage kept already row stored
      rcases quietStep answered.may answered.tells quiet with stays | ⟨_,none | kept⟩ | ⟨_,_,_,⟨reads,_⟩ | lists⟩
      · rw [stays] at seen
        exact known seen
      · exact absurd none seen
      · rw [kept] at seen
        exact known seen
      · cases reads
        exact absurd already (undisturbed _ _ met rfl l earlier sightedBefore)
      · rw [unlisted] at lists
        contradiction
    · rw [List.getElem?_set_ne same] at here
      obtain ⟨s'',here',sight⟩ := runSight within undisturbed before i l earlier sightedBefore
      cases Option.some.inj (here.symm.trans here')
      refine otherBehind change sight seen ?_ (behind i l earlier sightedBefore s' here seen) overtaken stored
      intro record done same named
      cases same
      exact fresh _ _ met named s' (List.mem_of_getElem? here)

/-- A sweep that waits for as long as leases run, and is not overtaken, does not take over
a transaction whose lease still runs. -/
theorem leasesRespected (first : ∀ row, store.row t = some row → LeaseWithin actors row)
    (run : Pool.Reaches Performs (PatientOperation actors) (fun pool move => Undisturbed actors (Covers actors) t pool move ∧
      CreatedFresh t pool move ∧ Onward t pool move) { shared := store } pool)
    (sweeper : Sweeper actors (Covers actors) pool i) (met : Undisturbed actors (Covers actors) t pool (.act i e))
    (step : Pool.Step Performs (PatientOperation actors) pool (.act i e) next) (writes : Writes t e) :
    ∃ l since, Lists t i l pool.log since ∧ (Acted t i since ∨
      ∀ row expiry, (pool.shared.world t).row = some row → row.status = .IN_FLIGHT → row.leaseExpiresAt = some expiry →
        expiry ≤ l.nowTimestamp) := by
  obtain ⟨l,since,lists,due,covers⟩ := sweepListed run sweeper step writes
  refine ⟨l,since,lists,?_⟩
  by_cases acted : Acted t i since
  · exact .inl acted
  · refine .inr (fun row expiry stored flying leased => ?_)
    have sighted := listsSighted lists acted
    obtain ⟨op,r⟩ := e
    obtain ⟨s,answered⟩ := answered patientWithin rfl run step t
    obtain ⟨s',here,sight⟩ := runSight patientWithin (fun _ _ met => met.1) run i l since sighted
    cases Option.some.inj (answered.stage.symm.trans here)
    have alone : (∃ ids, op = .deleteTransactions ids) → ¬Overtaken t i since := by
      intro ⟨ids,same⟩
      subst same
      exact met writes sweeper l since sighted
    obtain ⟨row',stored',version,known⟩ := sightWrites sight answered.may answered.change writes alone
    cases Option.some.inj (stored.symm.trans stored')
    have alone : ¬Overtaken t i since := by
      rcases known with seen | alone
      · intro overtaken
        have behind := runBehind patientWithin (fun _ _ met => met.1) (fun _ _ met => met.2.1) run i l since sighted s here seen
          overtaken row stored
        omega
      · exact alone
    have same := sight.stored alone
    rw [stored] at same
    cases Option.some.inj same
    obtain ⟨actor,member,ends⟩ := runLeases patientWithin (fun _ _ met => met.2.2) first run _ stored expiry leased
    have stuck := due flying
    have covered := covers actor member
    omega

end

/-! The scheduler has a threshold of its own, which may be shorter than a lease. -/

/-- A sweep as patient as the leases are long, at a time when they have run out. -/
def lateUser : (op : Op Unit Unit) → Reply Unit Unit op
  | .now => 30000
  | op => politeUser op

def patientCall : Act Unit Unit Unit := (reaper.executeRecoverySweep 30000).void

def leasedPool : Calls Unit Unit :=
  Pool.play (serve politeUser) (.call enterCall::turns 0 5) { shared := doorStore }

def latePool : Calls Unit Unit := Pool.play (serve lateUser) (.call patientCall::turns 1 2) leasedPool

theorem coversPorters : Covers Porters 30000 := by
  intro actor member
  rcases member with rfl | rfl <;> decide

theorem leasesRespectedLate : ∃ l since, Lists "t" 1 l latePool.log since ∧ (Acted "t" 1 since ∨
    ∀ row expiry, (latePool.shared.world "t").row = some row → row.status = .IN_FLIGHT → row.leaseExpiresAt = some expiry →
      expiry ≤ l.nowTimestamp) := by
  have enters : PatientOperation Porters enterCall := .inr (.inl ⟨doorActor,"t","enter",(),[],.inl rfl,rfl⟩)
  have sweeps : PatientOperation Porters patientCall := .inr (.inr (.inl ⟨reaper,30000,.inr rfl,coversPorters,rfl⟩))
  have run : Pool.Reaches Performs (PatientOperation Porters) (fun pool move => Undisturbed Porters (Covers Porters) "t" pool move ∧
      CreatedFresh "t" pool move ∧ Onward "t" pool move) { shared := doorStore } latePool := by
    apply Pool.reachesPlay (servePerforms lateUser) _ _ (Pool.reachesPlay (servePerforms politeUser) _ _ .start)
    · simp [turns,sweeps]
    · repeat (first | exact trivial | refine ⟨⟨trivial,trivial,trivial⟩,?_⟩)
    · simp [turns,enters]
    · refine ⟨⟨trivial,trivial,trivial⟩,⟨fun _ l since sighted => absurd sighted Pool.sinceNil,trivial,trivial⟩,?_⟩
      refine ⟨⟨trivial,trivial,trivial⟩,⟨trivial,trivial,trivial⟩,⟨trivial,trivial,trivial⟩,⟨trivial,trivial,?_⟩,trivial⟩
      intro _ row stored
      cases stored
      decide
  have first : ∀ row, doorStore.row "t" = some row → LeaseWithin Porters row := by
    intro row stored expiry leased
    cases stored
    contradiction
  have sweeper : Sweeper Porters (Covers Porters) latePool 1 := ⟨_,rfl,reaper,30000,.inr rfl,coversPorters,rfl⟩
  have waits : ∃ call next history, latePool.workers[1]? = some ⟨call,.ask (.deleteTransactions ["t"]) next,history⟩ :=
    ⟨_,_,_,rfl⟩
  obtain ⟨call,next,history,here⟩ := waits
  refine leasesRespected first run sweeper ?_ (Pool.stepTurn (servePerforms lateUser) here) List.mem_cons_self
  intro _ _ l since sighted
  obtain ⟨log,scan,split,last⟩ : ∃ log scan, latePool.log = log ++ [(1,scan)] ∧ (listed "t" scan).isSome = true := ⟨_,_,rfl,rfl⟩
  exact justListed split last sighted

/-- A sweep with a shorter threshold deletes a transaction that has been leased just now. -/
theorem leasesRespectedImpatient : ¬∀ (store : Store Unit Unit) (pool next : Calls Unit Unit) i e,
    (∀ row, store.row "t" = some row → LeaseWithin Porters row) →
    Pool.Reaches Performs (Operation Porters) Pool.Anything { shared := store } pool → Sweeper Porters (fun _ => True) pool i →
    Pool.Step Performs (Operation Porters) pool (.act i e) next → Writes "t" e →
    ∃ l since, Lists "t" i l pool.log since ∧ (Acted "t" i since ∨
      ∀ row expiry, (pool.shared.world "t").row = some row → row.status = .IN_FLIGHT → row.leaseExpiresAt = some expiry →
        expiry ≤ l.nowTimestamp) := by
  intro claim
  have sweeper : Sweeper Porters (fun _ => True) listedPool 1 := ⟨_,rfl,reaper,0,.inr rfl,trivial,rfl⟩
  have waits : ∃ call next history, listedPool.workers[1]? = some ⟨call,.ask (.deleteTransactions ["t"]) next,history⟩ :=
    ⟨_,_,_,rfl⟩
  obtain ⟨call,next,history,here⟩ := waits
  have first : ∀ row, doorStore.row "t" = some row → LeaseWithin Porters row := by
    intro row stored expiry leased
    cases stored
    contradiction
  obtain ⟨l,since,lists,held⟩ := claim doorStore listedPool _ 1 _ first (Pool.reachesMono listedReaches (fun _ _ _ => trivial)) sweeper
    (Pool.stepTurn (servePerforms politeUser) here) List.mem_cons_self
  obtain ⟨scan,events,scanned,times⟩ : ∃ scan, Pool.eventsOf 1 listedPool.log = [⟨.now,0⟩,scan] ∧ scans scan = true ∧
      (listed "t" scan).map (·.nowTimestamp) = some 0 := ⟨_,rfl,rfl,rfl⟩
  obtain ⟨found,idle⟩ := scannedOnly events scanned lists
  rw [found,Option.map_some,Option.some.injEq] at times
  obtain ⟨row,stored,flying,leased⟩ : ∃ row, (listedPool.shared.world "t").row = some row ∧ row.status = .IN_FLIGHT ∧
    row.leaseExpiresAt = some 30000 := ⟨_,rfl,rfl,rfl⟩
  have expired := held.resolve_left idle row 30000 stored flying leased
  omega

end Dfsm
