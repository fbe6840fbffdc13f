import Dfsm.Runtime.Notices

/-! Terminal notification over whole runs: what each call has told is what it has made the
persisted status enter, up to what it still owes. -/
namespace Dfsm

variable {Context Data : Type} {t : String}

/-- The persisted status, as the log shows it. -/
def statusAfter (t : String) (status : Option TransactionStatus) : Event (Reply Context Data) → Option TransactionStatus
  | ⟨.createTransaction record,.ok _⟩ => if record.transactionId = t then some record.status else status
  | ⟨.updateTransaction id _ patch _,.ok _⟩ => if id = t then status.map patch.status.getD else status
  | ⟨.deleteTransactions ids,_⟩ => if t ∈ ids then none else status
  | _ => status

/-- The terminal status that an event makes the transaction enter. -/
def entered (t : String) (status : Option TransactionStatus) (e : Event (Reply Context Data)) : Option TransactionStatus :=
  (statusAfter t status e).filter (fun next => isTerminalStatus next && decide (status ≠ some next))

/-- The terminal statuses entered by one call. -/
def entries (t : String) (i : Nat) : Option TransactionStatus → Log Context Data → List TransactionStatus
  | _, [] => []
  | status, (j,e)::rest => (if j = i then (entered t status e).toList else []) ++ entries t i (statusAfter t status e) rest

/-- The hooks that have fired. -/
def told (t : String) : Event (Reply Context Data) → Option Notice
  | ⟨.hook event,_⟩ => event.notice t
  | _ => none

def notices (t : String) (i : Nat) (log : Log Context Data) : List Notice := (Pool.eventsOf i log).filterMap (told t)

def statuses (t : String) (status : Option TransactionStatus) (log : Log Context Data) : Option TransactionStatus :=
  log.foldl (fun status x => statusAfter t status x.2) status

/-- The call has listed the transaction and taken no lease since. -/
def Unleased (t : String) (i : Nat) (log since : Log Context Data) : Prop :=
  Pool.Since i (fun e => (listed t e).isSome = true) (fun e => listed t e = none ∧ ¬TakesLease t e) log since

def HooksReturn : Calls Context Data → Move (Reply Context Data) DfsmError → Prop
  | _, .act _ ⟨.hook _,r⟩ => r = .ok ()
  | _, _ => True

/-- A terminal status is written only by a call that has not listed the transaction or has
leased it since, and over another status. -/
def Notified (t : String) (pool : Calls Context Data) : Move (Reply Context Data) DfsmError → Prop
  | .act i ⟨.updateTransaction id _ patch _,.ok _⟩ => id = t → ∀ status, patch.status = some status →
    isTerminalStatus status = true → (∀ since, ¬Unleased t i pool.log since) ∧
      ∀ row, (pool.shared.world t).row = some row → row.status ≠ status
  | _ => True

section
variable {i : Nat} {status : Option TransactionStatus} {log : Log Context Data}

theorem entriesSnoc {x : Nat × Event (Reply Context Data)} : entries t i status (log ++ [x]) = entries t i status log ++
    if x.1 = i then (entered t (statuses t status log) x.2).toList else [] := by
  induction log generalizing status with
  | nil => simp [entries,statuses]
  | cons y rest ih =>
    rw [List.cons_append,entries,entries,ih,List.append_assoc]
    rfl

theorem noticesSnoc {x : Nat × Event (Reply Context Data)} : notices t i (log ++ [x]) = notices t i log ++
    if x.1 = i then (told t x.2).toList else [] := by
  obtain ⟨j,e⟩ := x
  unfold notices
  rw [Pool.eventsSnoc]
  by_cases own : j = i
  · simp only [own,if_true,List.filterMap_append]
    cases here : told t e <;> simp [here]
  · simp [own]

theorem entriesAbsent (absent : ∀ x ∈ log, x.1 ≠ i) : entries t i status log = [] := by
  induction log generalizing status with
  | nil => rfl
  | cons x rest ih =>
    rw [entries,if_neg (absent x List.mem_cons_self),ih (fun y mem => absent y (List.mem_cons_of_mem _ mem))]
    rfl

theorem notesReplies {pool : Calls Context Data} {j : Nat} {op : Op Context Data} {r s'} (returned : HooksReturn pool (.act j ⟨op,r⟩))
    (performed : Performs pool.shared op r s') : (notes t).replies op r := by
  have replies := @performsReplies _ _ pool.shared s' op r (fun _ => True) performed
  cases op with
  | hook event => exact returned
  | getTransaction id => cases r <;> exact replies
  | queryTransactions => exact replies
  | _ => trivial

theorem unleasedListed {op : Op Context Data} {r} {n : Notes} (listed_ : n.after t op r = .listed) :
    (listed t ⟨op,r⟩).isSome = true ∨ n = .listed ∧ listed t ⟨op,r⟩ = none ∧ ¬TakesLease t ⟨op,r⟩ := by
  cases op with
  | createTransaction record =>
    cases r with
    | error _ => exact .inr ⟨listed_,rfl,id⟩
    | ok _ =>
      simp only [Notes.after] at listed_
      split at listed_
      · contradiction
      · exact .inr ⟨listed_,rfl,id⟩
  | updateTransaction id version patch append =>
    cases r with
    | error _ => exact .inr ⟨listed_,rfl,fun takes => takes⟩
    | ok next =>
      simp only [Notes.after] at listed_
      split at listed_
      · cases set : patch.status with
        | none =>
          rw [set] at listed_
          refine .inr ⟨listed_,rfl,?_⟩
          rintro ⟨_,leases⟩
          rw [set] at leases
          contradiction
        | some status =>
          rw [set] at listed_
          have written : n.written status = .listed := listed_
          cases n with
          | owing _ => contradiction
          | listed =>
            refine .inr ⟨rfl,rfl,?_⟩
            rintro ⟨_,leases⟩
            rw [set] at leases
            cases leases
            contradiction
      · rename_i away
        exact .inr ⟨listed_,rfl,fun takes => away takes.1⟩
  | queryTransactions filter nowTimestamp threshold =>
    cases here : listed t ⟨.queryTransactions filter nowTimestamp threshold,r⟩ with
    | some l => exact .inl rfl
    | none =>
      simp only [Notes.after,here] at listed_
      exact .inr ⟨listed_,rfl,fun takes => takes⟩
  | hook event =>
    cases r with
    | error _ => exact .inr ⟨listed_,rfl,id⟩
    | ok _ =>
      simp only [Notes.after] at listed_
      split at listed_
      · contradiction
      · exact .inr ⟨listed_,rfl,id⟩
  | _ => exact .inr ⟨listed_,rfl,id⟩

theorem noteStep {w : World Context Data} {op : Op Context Data} {r} {n : Notes} (allowed : (notes t).allowed n op)
    (replies : (notes t).replies op r) (tells : w.Tells t op r)
    (notified : ∀ version patch append next, (⟨op,r⟩ : Event (Reply Context Data)) = ⟨.updateTransaction t version patch append,.ok next⟩ →
      ∀ status, patch.status = some status → isTerminalStatus status = true → n ≠ .listed ∧ ∀ row, w.row = some row → row.status ≠ status) :
    (told t ⟨op,r⟩).toList ++ (n.after t op r).debt =
      n.debt ++ ((entered t (w.row.map (·.status)) ⟨op,r⟩).toList).flatMap dues ∧
      ((w.after t op r).row).map (·.status) = statusAfter t (w.row.map (·.status)) ⟨op,r⟩ := by
  have still (same : statusAfter t (w.row.map (·.status)) ⟨op,r⟩ = w.row.map (·.status)) :
      entered t (w.row.map (·.status)) ⟨op,r⟩ = none := by
    unfold entered
    rw [same]
    cases w.row.map (·.status) <;> simp
  cases op with
  | createTransaction record =>
    cases r with
    | error _ => rw [still rfl]; exact ⟨(List.append_nil _).symm,rfl⟩
    | ok done =>
      by_cases here : record.transactionId = t
      · have absent : w.row = none := tells here
        have clear : n = .owing [] := allowed here
        subst clear
        simp only [told,Notes.after,here,if_true,entered,statusAfter,absent,World.after]
        refine ⟨?_,rfl⟩
        by_cases final : isTerminalStatus record.status = true
        · simp [Option.filter,final,Notes.debt]
        · simp [Option.filter,final,Notes.debt,dues]
      · rw [still (by simp [statusAfter,here])]
        simp [told,Notes.after,here,statusAfter,World.after]
  | updateTransaction id version patch append =>
    cases r with
    | error _ => rw [still rfl]; exact ⟨(List.append_nil _).symm,rfl⟩
    | ok next =>
      by_cases here : id = t
      · subst here
        obtain ⟨row,stored,_,_⟩ := tells rfl
        have clear : n.debt = [] := allowed rfl
        have after : ((w.after id (.updateTransaction id version patch append) (.ok next)).row).map (·.status) =
            statusAfter id (w.row.map (·.status)) ⟨.updateTransaction id version patch append,.ok next⟩ := by
          simp [World.after,statusAfter,stored,TransactionUpdatePatch.apply]
        refine ⟨?_,after⟩
        cases set : patch.status with
        | none =>
          rw [still (by simp [statusAfter,stored,set])]
          simp [told,Notes.after,set]
        | some status =>
          by_cases final : isTerminalStatus status = true
          · obtain ⟨unlisted,other⟩ := notified _ _ _ _ rfl status set final
            have moved := other row stored
            cases n with
            | listed => exact absurd rfl unlisted
            | owing owed =>
              simp [told,Notes.after,set,Notes.written,Notes.debt,entered,statusAfter,stored,final,moved,Option.filter,
                show owed = [] from clear]
          · have paid : (n.written status).debt = [] := by
              cases n with
              | owing owed => simp [Notes.written,Notes.debt,dues,final]
              | listed => cases status <;> rfl
            simp [told,Notes.after,set,paid,clear,entered,statusAfter,stored,final,Option.filter]
      · rw [still (by simp [statusAfter,here])]
        simp [told,Notes.after,here,statusAfter,World.after]
  | queryTransactions filter nowTimestamp threshold =>
    have clear : n.debt = [] := allowed
    rw [still rfl]
    refine ⟨?_,rfl⟩
    simp only [told,Notes.after,clear]
    split
    · rfl
    · simp [clear]
  | deleteTransactions ids =>
    by_cases listed : t ∈ ids
    · simp [entered,statusAfter,World.after,told,Notes.after,listed,Option.filter]
    · rw [still (by simp [statusAfter,listed])]
      simp [told,Notes.after,statusAfter,World.after,listed]
  | hook event =>
    rw [still rfl]
    have returned : r = .ok () := replies
    subst returned
    refine ⟨?_,rfl⟩
    cases here : event.notice t with
    | none => simp [told,Notes.after,here]
    | some notice =>
      obtain ⟨rest,same⟩ := allowed notice here
      simp [told,Notes.after,here,same,Notes.debt]
  | markCompensationExecuted id stepSeq compensatedAt =>
    rw [still rfl]
    by_cases here : id = t <;> simp [told,Notes.after,statusAfter,World.after,here]
  | _ => rw [still rfl]; exact ⟨(List.append_nil _).symm,rfl⟩

/-- What the history of a call leaves it owing. -/
def noteOf (t : String) (w : Worker (Reply Context Data) DfsmError) : Notes :=
  (notes t).phaseAfter (.owing []) w.history

theorem noteListed {history : List (Event (Reply Context Data))} (events : history = Pool.eventsOf i log)
    (here : (notes t).phaseAfter (.owing []) history = .listed) : ∃ since, Unleased t i log since := by
  subst events
  have enters (n : Notes) (e : Event (Reply Context Data)) (listed_ : n.after t e.op e.reply = .listed) :=
    unleasedListed listed_
  exact @Pool.sinceFold _ _ _ _ (fun (n : Notes) e => n.after t e.op e.reply) (fun n => n = .listed) _ _ (.owing []) (by simp)
    enters log here

/-- What a call has told and still owes is, in turn, what it has made the status enter. -/
def Accounts (t : String) (status : Option TransactionStatus) (pool : Calls Context Data) (i : Nat)
    (w : Worker (Reply Context Data) DfsmError) : Prop :=
  notices t i pool.log ++ (noteOf t w).debt = (entries t i status pool.log).flatMap dues

section
variable {actors : Actor → Prop} {store : Store Context Data} {pool : Calls Context Data}

theorem runNotes (run : Pool.Reaches Performs (Operation actors) (fun pool move => HooksReturn pool move ∧ Notified t pool move)
    { shared := store } pool) :
    ∀ w ∈ pool.workers, (notes t).Obeys (fun n _ => n.debt = []) (noteOf t w) w.program := by
  have conforms := @Pool.reachesConforms _ _ _ _ _ Performs (Operation actors) _ _ pool (notes t) (.owing []) (fun _ => True)
    (fun n _ => n.debt = []) (fun p called _ => operationsPaid p called) (fun met performed => notesReplies met.1 performed) rfl run
  exact fun w mem => conforms w mem trivial

theorem runAccounts (run : Pool.Reaches Performs (Operation actors) (fun pool move => HooksReturn pool move ∧ Notified t pool move)
    { shared := store } pool) :
    (∀ i w, pool.workers[i]? = some w → Accounts t ((store.row t).map (·.status)) pool i w) ∧
      (pool.shared.row t).map (·.status) = statuses t ((store.row t).map (·.status)) pool.log := by
  refine @Pool.reachesInvariant _ _ _ _ _ _ _ _ _ (fun pool : Calls Context Data =>
    (∀ i w, pool.workers[i]? = some w → Accounts t ((store.row t).map (·.status)) pool i w) ∧
      (pool.shared.row t).map (·.status) = statuses t ((store.row t).map (·.status)) pool.log) run ?_ ?_
  · exact ⟨fun i w here => by simp at here,rfl⟩
  · intro pool move next before met ⟨accounts,status⟩ step
    obtain ⟨histories,inside⟩ := Pool.reachesHistory before
    cases step with
    | @call p called =>
      refine ⟨fun i w here => ?_,status⟩
      rcases Nat.lt_or_ge i pool.workers.length with old | new
      · rw [List.getElem?_append_left old] at here
        exact accounts i w here
      · rw [List.getElem?_append_right new] at here
        have last : w = ⟨p,p,[]⟩ := by simpa using List.mem_of_getElem? here
        have absent : ∀ x ∈ pool.log, x.1 ≠ i := by
          intro x mem
          have := inside x mem
          omega
        subst last
        unfold Accounts notices
        rw [entriesAbsent absent,Pool.eventsAbsent absent]
        rfl
    | @act i call op next history r shared here performed =>
      have allowed := (runNotes before _ (List.mem_of_getElem? here)).1
      obtain ⟨tells,world⟩ := performsWorld performed t
      have notified (version patch append version') (same : (⟨op,r⟩ : Event (Reply Context Data)) =
          ⟨.updateTransaction t version patch append,.ok version'⟩) (status') (set : patch.status = some status')
          (final : isTerminalStatus status' = true) : noteOf t ⟨call,.ask op next,history⟩ ≠ .listed ∧
            ∀ row, (pool.shared.world t).row = some row → row.status ≠ status' := by
        cases same
        obtain ⟨leased,other⟩ := met.2 rfl status' set final
        refine ⟨fun unleased => ?_,other⟩
        obtain ⟨since,unleased⟩ := noteListed (histories i _ here) unleased
        exact leased since unleased
      obtain ⟨tell,moves⟩ := noteStep allowed (notesReplies met.1 performed) tells notified
      have current : (pool.shared.world t).row.map (·.status) = statuses t ((store.row t).map (·.status)) pool.log := status
      rw [current] at tell moves
      refine ⟨fun j w here' => ?_,?_⟩
      · unfold Accounts
        rw [noticesSnoc,entriesSnoc]
        by_cases own : i = j
        · subst own
          rw [List.getElem?_set_self (List.getElem?_eq_some_iff.mp here).1] at here'
          cases Option.some.inj here'
          have account : notices t i pool.log ++ (noteOf t ⟨call,.ask op next,history⟩).debt = _ := accounts i _ here
          have later : noteOf t ⟨call,next r,history ++ [⟨op,r⟩]⟩ = (noteOf t ⟨call,.ask op next,history⟩).after t op r :=
            Protocol.phaseSnoc _ _ _
          rw [if_pos rfl,if_pos rfl,later,List.append_assoc,tell,← List.append_assoc,account,List.flatMap_append]
        · rw [List.getElem?_set_ne own] at here'
          rw [if_neg own,if_neg own,List.append_nil,List.append_nil]
          exact accounts j w here'
      · have row : (shared.row t).map (·.status) = (shared.world t).row.map (·.status) := rfl
        rw [row,world,moves]
        simp [statuses]

/-- In every run whose hooks return, in which recovery and clean-up end no transaction, each
call has told exactly the terminal statuses it has entered, in turn, up to what it still owes;
a call that has ended owes nothing. -/
theorem terminalNotices (run : Pool.Reaches Performs (Operation actors) (fun pool move => HooksReturn pool move ∧ Notified t pool move)
    { shared := store } pool) {i : Nat} {w} (here : pool.workers[i]? = some w) :
    ∃ owed, notices t i pool.log ++ owed = (entries t i ((store.row t).map (·.status)) pool.log).flatMap dues ∧
      (w.program.Ended → owed = []) := by
  refine ⟨_,(runAccounts run).1 i w here,fun ended => ?_⟩
  have obeys := runNotes run w (List.mem_of_getElem? here)
  cases program : w.program with
  | done a =>
    rw [program] at obeys
    exact obeys
  | fail e =>
    rw [program] at obeys
    exact obeys
  | ask op next =>
    rw [program] at ended
    exact ended.elim

end

end

/-! A handler that refuses ends its transaction, and the end is told. -/

def refusingUser : (op : Op Unit Unit) → Reply Unit Unit op
  | .handler _ _ => (.error "refused",1)
  | op => politeUser op

def refusedPool : Calls Unit Unit :=
  Pool.play (serve refusingUser) (.call enterCall::turns 0 20) { shared := doorStore }

theorem neverUnleased {i : Nat} {log since : Log Context Data} (unlisted : (log.all fun x => (listed t x.2).isNone) = true) :
    ¬Unleased t i log since := by
  intro ⟨before,e,split,found,_⟩
  subst split
  have none := List.all_eq_true.mp unlisted (i,e) (List.mem_append_right _ List.mem_cons_self)
  have found : (listed t e).isSome = true := found
  rw [Option.isNone_iff_eq_none.mp none] at found
  contradiction

theorem terminalNoticesRefused : ∃ owed, notices "t" 0 refusedPool.log ++ owed =
    (entries "t" 0 ((doorStore.row "t").map (·.status)) refusedPool.log).flatMap dues ∧ owed = [] := by
  have enters : Operation (· = doorActor) enterCall := .inr (.inl ⟨doorActor,"t","enter",(),[],rfl,rfl⟩)
  have run : Pool.Reaches Performs (Operation (· = doorActor)) (fun pool move => HooksReturn pool move ∧ Notified "t" pool move)
      { shared := doorStore } refusedPool := by
    apply Pool.reachesPlay (servePerforms refusingUser) _ _ .start
    · simp [turns,enters]
    · refine ⟨⟨trivial,trivial⟩,⟨trivial,trivial⟩,⟨trivial,trivial⟩,⟨rfl,trivial⟩,⟨trivial,trivial⟩,⟨trivial,?_⟩,?_⟩
      · intro _ status set final
        cases set
        contradiction
      · repeat (first | exact trivial | refine ⟨⟨trivial,trivial⟩,?_⟩ | refine ⟨⟨rfl,trivial⟩,?_⟩ | refine ⟨⟨trivial,?_⟩,?_⟩)
        · intro _ status set _
          cases set
          refine ⟨fun since => neverUnleased rfl,fun row stored => ?_⟩
          cases stored
          decide
        · repeat (first | exact trivial | refine ⟨⟨trivial,trivial⟩,?_⟩ | refine ⟨⟨rfl,trivial⟩,?_⟩)
  obtain ⟨w,here,ended⟩ : ∃ w, refusedPool.workers[0]? = some w ∧ w.program.Ended := ⟨_,rfl,trivial⟩
  obtain ⟨owed,told,paid⟩ := terminalNotices run here
  exact ⟨owed,told,paid ended⟩

example : entries "t" 0 (some .IDLE) refusedPool.log = [.FAILED] := by decide

/-! A stuck transaction is marked as failed, and no hook fires. -/

def failingCall : Act Unit Unit Unit := (doorActor.executeRecoverySweep 0).void

def markedPool : Calls Unit Unit :=
  Pool.play (serve politeUser) (.call enterCall::turns 0 5 ++ .call failingCall::turns 1 4) { shared := doorStore }

theorem terminalNoticesMarked : ¬∀ (store : Store Unit Unit) (pool : Calls Unit Unit) i w,
    Pool.Reaches Performs (Operation (· = doorActor)) HooksReturn { shared := store } pool → pool.workers[i]? = some w →
    ∃ owed, notices "t" i pool.log ++ owed = (entries "t" i ((store.row "t").map (·.status)) pool.log).flatMap dues ∧
      (w.program.Ended → owed = []) := by
  intro claim
  have enters : Operation (· = doorActor) enterCall := .inr (.inl ⟨doorActor,"t","enter",(),[],rfl,rfl⟩)
  have sweeps : Operation (· = doorActor) failingCall := .inr (.inr (.inl ⟨doorActor,0,rfl,rfl⟩))
  have run : Pool.Reaches Performs (Operation (· = doorActor)) HooksReturn { shared := doorStore } markedPool := by
    apply Pool.reachesPlay (servePerforms politeUser) _ _ .start
    · simp [turns,enters,sweeps]
    · repeat (first | exact trivial | refine ⟨trivial,?_⟩ | refine ⟨rfl,?_⟩)
  obtain ⟨w,here,ended⟩ : ∃ w, markedPool.workers[1]? = some w ∧ w.program.Ended := ⟨_,rfl,trivial⟩
  obtain ⟨owed,told,paid⟩ := claim doorStore markedPool 1 w run here
  rw [paid ended] at told
  exact absurd told (by decide)

end Dfsm
