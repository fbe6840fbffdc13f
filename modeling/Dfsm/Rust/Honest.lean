import Dfsm.Rust.Saga
import Mathlib.Logic.Function.Basic

/-! Runs of the Rust SDK over one memory store: who is in a step, and the saga stack against
the steps that have been committed. -/
namespace Dfsm.Rust
open Protocol Program Act

variable {Context Data : Type} {t : String}

/-- Where the calls stand, and the steps committed that are still to be compensated, by the
log alone. -/
structure Ledger where
  standings : Nat → Standing := fun _ => {}
  outstanding : List CommittedStep := []

section
variable (policy : Nat → Call Context Data) (t : String)

/-- A settling update takes off what its call has compensated, and adds what it has done. -/
def outstandingAfter (call : Call Context Data) (s : Standing) (outstanding : List CommittedStep) :
    Event (Reply Context Data) → List CommittedStep
  | ⟨.updateTransaction record _,.ok _⟩ =>
    if settles t record then outstanding.take (outstanding.length - s.window.popped) ++ s.window.stranded ++ s.commits call
    else outstanding
  | ⟨.deleteTransaction id,_⟩ => if id = t then [] else outstanding
  | _ => outstanding

def Ledger.after (l : Ledger) (x : Nat × Event (Reply Context Data)) : Ledger where
  standings := Function.update l.standings x.1 ((l.standings x.1).after (policy x.1) t x.2)
  outstanding := outstandingAfter t (policy x.1) (l.standings x.1) l.outstanding x.2

def ledger (log : List (Nat × Event (Reply Context Data))) : Ledger := log.foldl (Ledger.after policy t) {}

end

abbrev Workers (Context Data : Type) := Pool (Reply Context Data) Stop MemoryStateStore

/-- A step is put on the stack, or taken off it. -/
def moves (t : String) : Event (Reply Context Data) → Bool
  | ⟨.pushSagaStep id _,_⟩ => id = t
  | ⟨.popSagaStep id,.ok (some _)⟩ => id = t
  | _ => false

/-- A settling update is rejected. -/
def stale (t : String) : Event (Reply Context Data) → Bool
  | ⟨.updateTransaction record _,.error _⟩ => settles t record
  | _ => false

/-- Settles or deletes the transaction, or moves its stack. -/
def touches (t : String) : Event (Reply Context Data) → Bool
  | ⟨.updateTransaction record _,.ok _⟩ => settles t record
  | ⟨.deleteTransaction id,_⟩ => id = t
  | e => moves t e

/-- Nothing goes wrong at the event: the call marks a record that it has not read as being
in flight, that is still there, and whose step is not being cleaned up; outside of a step it
touches the transaction while nobody else is busy with it, and pops where it has read the
record as it is. -/
structure Fenced (policy : Nat → Call Context Data) (t : String) (pool : Workers Context Data) (i : Nat)
    (e : Event (Reply Context Data)) : Prop where
  unheld : ∀ record v u, e = ⟨.updateTransaction record v,.ok u⟩ → marks t record = true →
    (∀ r ∈ ((ledger policy t pool.log).standings i).reads, r.status ≠ .IN_FLIGHT ∧ pool.shared.getTransaction t = some r) ∧
      ∀ j ≠ i, ((ledger policy t pool.log).standings j).window = {}
  alone : ((ledger policy t pool.log).standings i).marked = none → touches t e = true →
    ∀ j ≠ i, ((ledger policy t pool.log).standings j).Free
  current : ((ledger policy t pool.log).standings i).marked = none → moves t e = true →
    ∀ r ∈ ((ledger policy t pool.log).standings i).reads, pool.shared.getTransaction t = some r
  admitted : refuses e = false
  found : strands (policy i) e = false
  named : misnames (policy i) t e = false

def Meets (policy : Nat → Call Context Data) (t : String) (pool : Workers Context Data) : Move (Reply Context Data) Stop → Prop
  | .call _ => True
  | .act i e => Fenced policy t pool i e

/-- It has returned, with a result or an error. -/
def Returned (p : Act Context Data Unit) : Prop := p.Ended ∧ p ≠ .fail .running

/-- At most one call is in a step; a call that has returned is in none; with nobody between
a move of the stack and the update that commits it the stack is what has been committed
and not been compensated; a call whose settling update was rejected has moved nothing. -/
structure Honest (policy : Nat → Call Context Data) (t : String) (pool : Workers Context Data) : Prop where
  single : ∀ i j, ((ledger policy t pool.log).standings i).marked.isSome → ((ledger policy t pool.log).standings j).marked.isSome → i = j
  settled : ∀ (i : Nat) (w : Worker (Reply Context Data) Stop), pool.workers[i]? = some w → Returned w.program →
    ((ledger policy t pool.log).standings i).marked = none
  stack : (∀ (i : Nat) (w : Worker (Reply Context Data) Stop), pool.workers[i]? = some w →
      ((ledger policy t pool.log).standings i).window = {} ∨ Returned w.program) →
    (pool.shared.getSagaStack t).map (·.step) = (ledger policy t pool.log).outstanding
  lost : ∀ (i : Nat) (w : Worker (Reply Context Data) Stop), pool.workers[i]? = some w → w.history.any (stale t) = true →
    ((ledger policy t pool.log).standings i).window = {}

/-! The transaction in the store. -/

def storedAfter (t : String) (stored : Option TransactionRecord) : Event (Reply Context Data) → Option TransactionRecord
  | ⟨.createTransaction record,.ok _⟩ => if record.transactionId = t then some record else stored
  | ⟨.updateTransaction record _,.ok _⟩ => if record.transactionId = t then some record else stored
  | ⟨.deleteTransaction id,_⟩ => if id = t then none else stored
  | _ => stored

def stackAfter (t : String) (stack : List SagaStepRecord) : Event (Reply Context Data) → List SagaStepRecord
  | ⟨.pushSagaStep id step,_⟩ => if id = t then stack ++ [step] else stack
  | ⟨.popSagaStep id,.ok (some _)⟩ => if id = t then stack.dropLast else stack
  | ⟨.deleteTransaction id,_⟩ => if id = t then [] else stack
  | _ => stack

/-- What the reply tells of the transaction. -/
def Tells (t : String) (stored : Option TransactionRecord) (stack : List SagaStepRecord) : Event (Reply Context Data) → Prop
  | ⟨.createTransaction record,.ok _⟩ => record.transactionId = t → stored = none
  | ⟨.updateTransaction record expectedVersion,.ok _⟩ => record.transactionId = t → ∃ existing, stored = some existing ∧ existing.version = expectedVersion
  | ⟨.updateTransaction record expectedVersion,.error _⟩ =>
    record.transactionId = t → ∀ existing, stored = some existing → existing.version ≠ expectedVersion
  | ⟨.popSagaStep id,.ok (some _)⟩ => id = t → stack ≠ []
  | _ => True

section
variable {store store' : MemoryStateStore} {op : Op Context Data} {r : Reply Context Data op}

theorem performsStore (performed : Performs store op r store') :
    store'.getTransaction t = storedAfter t (store.getTransaction t) ⟨op,r⟩ ∧
      store'.getSagaStack t = stackAfter t (store.getSagaStack t) ⟨op,r⟩ ∧ Tells t (store.getTransaction t) (store.getSagaStack t) ⟨op,r⟩ := by
  cases op with
  | createTransaction record =>
    rcases MemoryStateStore.createCases performed with ⟨rfl,rfl,absent⟩ | ⟨⟨e,rfl⟩,rfl⟩
    · exact ⟨MemoryStateStore.getInsert _,rfl,fun here => here ▸ absent⟩
    · exact ⟨rfl,rfl,trivial⟩
  | updateTransaction record expectedVersion =>
    rcases MemoryStateStore.updateCases performed with ⟨rfl,rfl,found⟩ | ⟨⟨e,rfl⟩,rfl,lost⟩
    · exact ⟨MemoryStateStore.getInsert _,rfl,fun here => here ▸ found⟩
    · exact ⟨rfl,rfl,fun here => here ▸ lost⟩
  | pushSagaStep id step =>
    obtain ⟨rfl,rfl⟩ := performed
    exact ⟨rfl,MemoryStateStore.stackPush _ _,trivial⟩
  | popSagaStep id =>
    obtain ⟨popped,rfl,answer⟩ := performed
    rcases MemoryStateStore.popCases answer with ⟨rfl,rfl,_⟩ | ⟨last,rfl,here,rfl⟩
    · exact ⟨rfl,rfl,trivial⟩
    · refine ⟨rfl,?_,fun own empty => ?_⟩
      · rw [MemoryStateStore.stackInsert,stackAfter]
        split
        · rename_i own
          rw [own]
        · rfl
      · rw [own,empty] at here
        cases here
  | deleteTransaction id =>
    obtain ⟨rfl,rfl⟩ := performed
    exact ⟨MemoryStateStore.getDelete _,MemoryStateStore.stackDelete _,trivial⟩
  | getTransaction | getSagaStack | listActiveTransactions =>
    obtain ⟨_,rfl⟩ := performed
    exact ⟨rfl,rfl,trivial⟩
  | _ =>
    cases performed
    exact ⟨rfl,rfl,trivial⟩

end

/-! One call that may be busy, while nobody else is. -/

/-- The stack holds what is outstanding, but for what the call has moved. -/
structure Fits (stack : List SagaStepRecord) (outstanding : List CommittedStep) (w : Window) : Prop where
  popped : w.popped ≤ outstanding.length
  stack : stack.map (·.step) = outstanding.take (outstanding.length - w.popped) ++ w.pushed.toList.map (·.step)
  found : w.stranded = []

/-- A step has the transaction as it has marked it; a clean-up that has popped has it as it
has read it. -/
structure Sound (stored : Option TransactionRecord) (stack : List SagaStepRecord) (outstanding : List CommittedStep) (s : Standing) :
    Prop where
  step : ∀ marked, s.marked = some marked → stored = some marked ∧ marked.status = .IN_FLIGHT
  swept : s.marked = none → s.window ≠ {} → s.reads ≠ [] ∧ ∀ r ∈ s.reads, stored = some r
  lost : s.rejected = true → s.Free
  absent : stored = none → outstanding = []
  fits : Fits stack outstanding s.window

section
variable {call : Call Context Data} {s s' : Standing} {stored : Option TransactionRecord} {stack : List SagaStepRecord}
  {outstanding : List CommittedStep} {e : Event (Reply Context Data)}

theorem fitsClosed : Fits stack outstanding {} ↔ stack.map (·.step) = outstanding := by
  constructor
  · intro fits
    simpa using fits.stack
  · intro same
    exact ⟨Nat.zero_le _,by simpa using same,rfl⟩

theorem soundFree (sound : Sound stored stack outstanding s) (free : s.Free) (free' : s'.Free) : Sound stored stack outstanding s' where
  step marked here := absurd (free'.1.symm.trans here) (by simp)
  swept _ some_ := absurd free'.2 some_
  lost _ := free'
  absent := sound.absent
  fits := by
    have fits := sound.fits
    rw [free.2] at fits
    rw [free'.2]
    exact fits

theorem busyStored (sound : Sound stored stack outstanding s) (busy : ¬s.Free) : ∃ record, stored = some record := by
  cases marked : s.marked with
  | some record => exact ⟨record,(sound.step record marked).1⟩
  | none =>
    obtain ⟨some_,current⟩ := sound.swept marked (fun closed => busy ⟨marked,closed⟩)
    obtain ⟨record,mem⟩ := List.exists_mem_of_ne_nil _ some_
    exact ⟨record,current record mem⟩

/-- What the condition says of an event, as far as the call itself goes. -/
structure Fine (call : Call Context Data) (t : String) (stored : Option TransactionRecord) (s : Standing) (e : Event (Reply Context Data)) : Prop where
  current : s.marked = none → moves t e = true → ∀ r ∈ s.reads, stored = some r
  found : strands call e = false

theorem marksOwn {record : TransactionRecord} (mark : marks t record = true) : record.transactionId = t ∧ record.status = .IN_FLIGHT := by
  simpa [marks] using mark

theorem settlesOwn {record : TransactionRecord} (settle : settles t record = true) : record.transactionId = t ∧ record.status ≠ .IN_FLIGHT := by
  simpa [settles] using settle

theorem settlesMarks {record : TransactionRecord} (settle : settles t record = true) : marks t record = false := by
  have final := (settlesOwn settle).2
  simp [marks,final]

theorem ownUpdate {record : TransactionRecord} (own : record.transactionId = t) : marks t record = true ∨ settles t record = true := by
  by_cases flight : record.status = .IN_FLIGHT
  · exact .inl (by simp [marks,own,flight])
  · exact .inr (by simp [settles,own,flight])

theorem otherUpdate {record : TransactionRecord} (other : record.transactionId ≠ t) : marks t record = false ∧ settles t record = false := by
  simp [marks,settles,other]

theorem settleCurrent {record : TransactionRecord} {v : Int} (sound : Sound stored stack outstanding s) (busy : ¬s.Free)
    (allowed : (saga call t).allowed s (.updateTransaction record v)) (settle : settles t record = true) :
    ∃ existing, stored = some existing ∧ existing.version = v := by
  have expects := allowed.2.2 settle
  cases marked : s.marked with
  | some record' =>
    rw [marked] at expects
    exact ⟨record',(sound.step record' marked).1,expects.1.symm⟩
  | none =>
    rw [marked] at expects
    obtain ⟨_,_,r,mem,version⟩ := expects
    obtain ⟨_,current⟩ := sound.swept marked (fun closed => busy ⟨marked,closed⟩)
    exact ⟨r,current r mem,version⟩

theorem fitsPushed {step : SagaStepRecord} (fits : Fits stack outstanding {}) :
    Fits (stack ++ [step]) outstanding { pushed := some step } where
  popped := Nat.zero_le _
  stack := by
    rw [List.map_append,fitsClosed.mp fits]
    simp
  found := rfl

theorem fitsPopped {step : SagaStepRecord} {w : Window} (fits : Fits stack outstanding w) (none_ : w.pushed = none) (some_ : stack ≠ [])
    (found : call.finds step.compensateHandler = true) : Fits stack.dropLast outstanding (w.pop call step) := by
  have same := fits.stack
  rw [none_,Option.toList_none,List.map_nil,List.append_nil] at same
  have more : w.popped < outstanding.length := by
    by_contra all
    rw [Nat.sub_eq_zero_of_le (by omega),List.take_zero,List.map_eq_nil_iff] at same
    exact some_ same
  refine ⟨more,?_,?_⟩
  · rw [List.map_dropLast,same,List.dropLast_eq_take,List.take_take,List.length_take,Window.pop,none_]
    simp only [Option.toList_none,List.map_nil,List.append_nil]
    congr 1
    omega
  · rw [Window.pop,found]
    exact fits.found

theorem soundAfter {op : Op Context Data} {r : Reply Context Data op} (sound : Sound stored stack outstanding s)
    (allowed : (saga call t).allowed s op) (fine : Fine call t stored s ⟨op,r⟩) (tells : Tells t stored stack ⟨op,r⟩) :
    Sound (storedAfter t stored ⟨op,r⟩) (stackAfter t stack ⟨op,r⟩) (outstandingAfter t call s outstanding ⟨op,r⟩) (s.after call t ⟨op,r⟩) := by
  cases op with
  | updateTransaction record v =>
    cases r with
    | error e =>
      cases settle : settles t record with
      | false => simpa only [storedAfter,stackAfter,outstandingAfter,Standing.after,settle,Bool.false_eq_true,if_false] using sound
      | true =>
        have free : s.Free := by
          by_contra busy
          obtain ⟨existing,here,version⟩ := settleCurrent sound busy allowed settle
          exact tells (settlesOwn settle).1 existing here version
        have after : s.after call t ⟨.updateTransaction record v,.error e⟩ = { s with rejected := true } := if_pos settle
        rw [after]
        exact soundFree sound free free
    | ok u =>
      by_cases own : record.transactionId = t
      · rcases ownUpdate own with mark | settle
        · have plain : settles t record = false := by simp [settles,(marksOwn mark).2]
          obtain ⟨free,_⟩ := allowed.2.1 mark
          have fits := sound.fits
          have absent := sound.absent
          obtain ⟨existing,here,_⟩ := tells own
          simp only [storedAfter,stackAfter,outstandingAfter,Standing.after,mark,own,plain,if_true,Bool.false_eq_true,if_false]
          refine ⟨?_,fun none_ => (by cases none_),fun lost => absurd (allowed.1.symm.trans lost) (by decide),fun none_ => (by cases none_),fits⟩
          rintro marked here
          cases here
          exact ⟨rfl,(marksOwn mark).2⟩
        · have fits := sound.fits
          have commits : s.window.pushed.toList.map (·.step) = s.commits call := by
            have expects := allowed.2.2 settle
            cases marked : s.marked with
            | some record' =>
              rw [marked] at expects
              exact expects.2
            | none =>
              rw [marked] at expects
              rw [expects.1,expects.2.1]
              rfl
          simp only [storedAfter,stackAfter,outstandingAfter,Standing.after,settlesMarks settle,settle,own,if_true,Bool.false_eq_true,if_false]
          refine ⟨fun _ none_ => (by cases none_),fun _ some_ => absurd rfl some_,fun _ => ⟨rfl,rfl⟩,fun none_ => (by cases none_),fitsClosed.mpr ?_⟩
          rw [fits.stack,fits.found,List.append_nil,commits]
      · obtain ⟨plain,other⟩ := otherUpdate own
        simpa only [storedAfter,stackAfter,outstandingAfter,Standing.after,plain,other,own,Bool.false_eq_true,if_false] using sound
  | pushSagaStep id step =>
    by_cases own : id = t
    · obtain ⟨marked,closed⟩ := allowed.2 own
      have fits := sound.fits
      rw [closed] at fits
      simp only [storedAfter,stackAfter,outstandingAfter,Standing.after,own,if_true,closed]
      refine ⟨sound.step,fun none_ => ?_,fun lost => absurd (allowed.1.symm.trans lost) (by decide),sound.absent,fitsPushed fits⟩
      rw [none_] at marked
      cases marked
    · simpa only [storedAfter,stackAfter,outstandingAfter,Standing.after,own,if_false] using sound
  | popSagaStep id =>
    rcases r with e | _ | step
    · exact sound
    · exact sound
    · by_cases own : id = t
      · obtain ⟨none_,reads⟩ := allowed.2 own
        have found : call.finds step.compensateHandler = true := by simpa [strands] using fine.found
        simp only [storedAfter,stackAfter,outstandingAfter,Standing.after,own,if_true]
        refine ⟨sound.step,fun idle _ => ⟨reads idle,fine.current idle (by simp [moves,own])⟩,
          fun lost => absurd (allowed.1.symm.trans lost) (by decide),sound.absent,fitsPopped sound.fits none_ (tells own) found⟩
      · simpa only [storedAfter,stackAfter,outstandingAfter,Standing.after,own,if_false] using sound
  | deleteTransaction id =>
    by_cases own : id = t
    · have free := allowed.2 own
      have after : s.after call t ⟨.deleteTransaction id,r⟩ = s := rfl
      simp only [storedAfter,stackAfter,outstandingAfter,own,if_true]
      refine ⟨fun marked here => absurd (free.1.symm.trans here) (by simp),fun _ some_ => absurd free.2 some_,fun _ => free,fun _ => rfl,?_⟩
      rw [after,free.2]
      exact fitsClosed.mpr rfl
    · simpa only [storedAfter,stackAfter,outstandingAfter,Standing.after,own,if_false] using sound
  | createTransaction record =>
    cases r with
    | error e => exact sound
    | ok u =>
      by_cases own : record.transactionId = t
      · have free := allowed.2 own
        have empty := sound.absent (tells own)
        have fits := sound.fits
        simp only [storedAfter,stackAfter,outstandingAfter,Standing.after,own,if_true]
        exact ⟨fun marked here => absurd (free.1.symm.trans here) (by simp),fun _ some_ => absurd free.2 some_,fun _ => free,fun _ => empty,fits⟩
      · simpa only [storedAfter,stackAfter,outstandingAfter,Standing.after,own,if_false] using sound
  | getTransaction id =>
    have free := allowed.2
    rcases r with e | _ | record
    · exact sound
    · exact sound
    · by_cases own : id = t
      · refine soundFree sound free ?_
        simpa only [Standing.after,own,if_true] using free
      · simpa only [storedAfter,stackAfter,outstandingAfter,Standing.after,own,if_false] using sound
  | listActiveTransactions machineId limit =>
    cases r with
    | error e => exact sound
    | ok found => exact soundFree sound allowed.2 allowed.2
  | handler name request =>
    cases r with
    | error e => exact ⟨sound.step,sound.swept,sound.lost,sound.absent,sound.fits⟩
    | ok output => exact ⟨sound.step,sound.swept,sound.lost,sound.absent,sound.fits⟩
  | _ => exact sound

theorem quietAfter {busy : Standing} {op : Op Context Data} {r : Reply Context Data op} (sound : Sound stored stack outstanding busy)
    (some_ : ¬busy.Free) (free : s.Free) (allowed : (saga call t).allowed s op) (tells : Tells t stored stack ⟨op,r⟩)
    (unheld : ∀ record v u, (⟨op,r⟩ : Event (Reply Context Data)) = ⟨.updateTransaction record v,.ok u⟩ → marks t record = true →
      (∀ r ∈ s.reads, r.status ≠ .IN_FLIGHT ∧ stored = some r) ∧ busy.window = {})
    (alone : touches t (⟨op,r⟩ : Event (Reply Context Data)) = true → busy.Free) :
    storedAfter t stored (⟨op,r⟩ : Event (Reply Context Data)) = stored ∧ stackAfter t stack (⟨op,r⟩ : Event (Reply Context Data)) = stack ∧
      outstandingAfter t call s outstanding ⟨op,r⟩ = outstanding ∧ (s.after call t ⟨op,r⟩).Free := by
  have untouched : touches t (⟨op,r⟩ : Event (Reply Context Data)) = false := by
    cases touched : touches t (⟨op,r⟩ : Event (Reply Context Data)) with
    | false => rfl
    | true => exact absurd (alone touched) some_
  cases op with
  | updateTransaction record v =>
    cases r with
    | error e =>
      refine ⟨rfl,rfl,rfl,?_⟩
      rw [Standing.after]
      split <;> exact free
    | ok u =>
      have unsettled : settles t record = false := untouched
      have unmarked : marks t record = false := by
        by_contra mark
        have mark : marks t record = true := by simpa using mark
        obtain ⟨fresh,closed⟩ := unheld record v u rfl mark
        obtain ⟨r,mem⟩ := List.exists_mem_of_ne_nil _ (allowed.2.1 mark).2
        cases marked : busy.marked with
        | none => exact some_ ⟨marked,closed⟩
        | some held =>
          obtain ⟨here,flight⟩ := sound.step held marked
          obtain ⟨other,stored_⟩ := fresh r mem
          cases Option.some.inj (here.symm.trans stored_)
          exact other flight
      have own : record.transactionId ≠ t := by
        intro own
        rcases ownUpdate own with mark | settle
        · exact absurd (mark.symm.trans unmarked) (by decide)
        · exact absurd (settle.symm.trans unsettled) (by decide)
      simp only [storedAfter,stackAfter,outstandingAfter,Standing.after,unmarked,unsettled,own,Bool.false_eq_true,if_false]
      exact ⟨trivial,trivial,trivial,free⟩
  | pushSagaStep id step =>
    have own : id ≠ t := of_decide_eq_false untouched
    simp only [storedAfter,stackAfter,outstandingAfter,Standing.after,own,if_false]
    exact ⟨trivial,trivial,trivial,free⟩
  | popSagaStep id =>
    rcases r with e | _ | step
    · exact ⟨rfl,rfl,rfl,free⟩
    · exact ⟨rfl,rfl,rfl,free⟩
    · have own : id ≠ t := of_decide_eq_false untouched
      simp only [storedAfter,stackAfter,outstandingAfter,Standing.after,own,if_false]
      exact ⟨trivial,trivial,trivial,free⟩
  | deleteTransaction id =>
    have own : id ≠ t := of_decide_eq_false untouched
    simp only [storedAfter,stackAfter,outstandingAfter,Standing.after,own,if_false]
    exact ⟨trivial,trivial,trivial,free⟩
  | createTransaction record =>
    cases r with
    | error e => exact ⟨rfl,rfl,rfl,free⟩
    | ok u =>
      have own : record.transactionId ≠ t := by
        intro own
        obtain ⟨existing,here⟩ := busyStored sound some_
        exact absurd (here.symm.trans (tells own)) (by simp)
      simp only [storedAfter,stackAfter,outstandingAfter,Standing.after,own,if_false]
      exact ⟨trivial,trivial,trivial,free⟩
  | getTransaction id =>
    refine ⟨rfl,rfl,rfl,?_⟩
    rcases r with e | _ | record
    · exact free
    · exact free
    · rw [Standing.after]
      split <;> exact free
  | listActiveTransactions machineId limit => cases r <;> exact ⟨rfl,rfl,rfl,free⟩
  | handler name request => cases r <;> exact ⟨rfl,rfl,rfl,free⟩
  | _ => exact ⟨rfl,rfl,rfl,free⟩

end

/-! The whole run. -/

section
variable {policy : Nat → Call Context Data} {store : MemoryStateStore} {pool : Workers Context Data}

theorem ledgerSnoc {log : List (Nat × Event (Reply Context Data))} {x : Nat × Event (Reply Context Data)} :
    ledger policy t (log ++ [x]) = (ledger policy t log).after policy t x := by
  simp [ledger]

theorem standingOwn {l : Ledger} {i : Nat} {e : Event (Reply Context Data)} :
    (l.after policy t (i,e)).standings i = (l.standings i).after (policy i) t e := Function.update_self i _ l.standings

theorem standingOther {l : Ledger} {i j : Nat} {e : Event (Reply Context Data)} (other : j ≠ i) :
    (l.after policy t (i,e)).standings j = l.standings j := Function.update_of_ne other _ l.standings

/-- What a run that meets the condition keeps: every call keeps to its protocol, and one may
be busy. -/
structure Kept (policy : Nat → Call Context Data) (t : String) (pool : Workers Context Data) : Prop where
  obeys : ∀ i w, pool.workers[i]? = some w →
    (saga (policy i) t).Obeys (Steps fun s _ => s.Done) ((ledger policy t pool.log).standings i) w.program
  history : ∀ i w, pool.workers[i]? = some w → ((ledger policy t pool.log).standings i).rejected = w.history.any (stale t)
  unused : ∀ i, pool.workers.length ≤ i → (ledger policy t pool.log).standings i = {}
  lost : ∀ i, ((ledger policy t pool.log).standings i).rejected = true → ((ledger policy t pool.log).standings i).Free
  one : ∃ i, (∀ j ≠ i, ((ledger policy t pool.log).standings j).Free) ∧ Sound (pool.shared.getTransaction t) (pool.shared.getSagaStack t)
    (ledger policy t pool.log).outstanding ((ledger policy t pool.log).standings i)

/-- Calls as their workers run them. -/
abbrev Called (t : String) (p : Act Context Data Unit) : Prop := ∃ call : Call Context Data, p = call.program t

theorem fencedReplies {i : Nat} {op : Op Context Data} {r : Reply Context Data op} {shared : MemoryStateStore}
    (fenced : Fenced policy t pool i ⟨op,r⟩) (performed : Performs pool.shared op r shared) : (saga (policy i) t).replies op r := by
  refine ⟨fenced.admitted,fenced.found,fenced.named,?_⟩
  cases op with
  | getTransaction id =>
    obtain ⟨rfl,_⟩ := performed
    cases found : pool.shared.getTransaction id with
    | none => trivial
    | some record => exact pool.shared.own id record found
  | pushSagaStep id step =>
    obtain ⟨rfl,_⟩ := performed
    trivial
  | getSagaStack id =>
    obtain ⟨rfl,_⟩ := performed
    trivial
  | popSagaStep id =>
    obtain ⟨popped,rfl,_⟩ := performed
    trivial
  | _ => trivial

theorem rejectedAfter {call : Call Context Data} {s : Standing} {e : Event (Reply Context Data)} :
    (s.after call t e).rejected = (s.rejected || stale t e) := by
  obtain ⟨op,r⟩ := e
  cases op with
  | updateTransaction record v =>
    cases r with
    | ok u => simp only [Standing.after,stale,Bool.or_false]; split <;> (try split) <;> rfl
    | error e => simp only [Standing.after,stale]; split <;> rename_i h <;> simp [h]
  | getTransaction id =>
    rcases r with e | _ | record <;> simp only [Standing.after,stale,Bool.or_false]
    split <;> rfl
  | popSagaStep id =>
    rcases r with e | _ | step <;> simp only [Standing.after,stale,Bool.or_false]
    split <;> rfl
  | listActiveTransactions | handler => cases r <;> simp [Standing.after,stale]
  | createTransaction record =>
    cases r <;> simp only [Standing.after,stale,Bool.or_false]
    split <;> rfl
  | pushSagaStep id step =>
    simp only [Standing.after,stale,Bool.or_false]
    split <;> rfl
  | _ => exact (Bool.or_false _).symm

theorem oneAfter {i : Nat} {op : Op Context Data} {r : Reply Context Data op} {shared : MemoryStateStore} (kept : Kept policy t pool)
    (performed : Performs pool.shared op r shared) (fenced : Fenced policy t pool i ⟨op,r⟩)
    (allowed : (saga (policy i) t).allowed ((ledger policy t pool.log).standings i) op) :
    ∃ k, (∀ j ≠ k, ((ledger policy t (pool.log ++ [(i,⟨op,r⟩)])).standings j).Free) ∧
      Sound (shared.getTransaction t) (shared.getSagaStack t) (ledger policy t (pool.log ++ [(i,⟨op,r⟩)])).outstanding
        ((ledger policy t (pool.log ++ [(i,⟨op,r⟩)])).standings k) := by
  obtain ⟨k,others,sound⟩ := kept.one
  obtain ⟨stored,stack,tells⟩ := @performsStore _ _ t _ _ _ _ performed
  have before (j : Nat) (other : j ≠ i) :
      ((ledger policy t pool.log).after policy t (i,⟨op,r⟩)).standings j = (ledger policy t pool.log).standings j := standingOther other
  have now : ((ledger policy t pool.log).after policy t (i,⟨op,r⟩)).standings i =
      ((ledger policy t pool.log).standings i).after (policy i) t ⟨op,r⟩ := standingOwn
  have outstanding : ((ledger policy t pool.log).after policy t (i,⟨op,r⟩)).outstanding =
      outstandingAfter t (policy i) ((ledger policy t pool.log).standings i) (ledger policy t pool.log).outstanding ⟨op,r⟩ := rfl
  rw [ledgerSnoc,stored,stack,outstanding]
  have turn (alone : ∀ j ≠ i, ((ledger policy t pool.log).standings j).Free)
      (sound : Sound (pool.shared.getTransaction t) (pool.shared.getSagaStack t) (ledger policy t pool.log).outstanding
        ((ledger policy t pool.log).standings i)) :
      ∃ k, (∀ j ≠ k, (((ledger policy t pool.log).after policy t (i,⟨op,r⟩)).standings j).Free) ∧
        Sound (storedAfter t (pool.shared.getTransaction t) ⟨op,r⟩) (stackAfter t (pool.shared.getSagaStack t) ⟨op,r⟩)
          (outstandingAfter t (policy i) ((ledger policy t pool.log).standings i) (ledger policy t pool.log).outstanding ⟨op,r⟩)
          (((ledger policy t pool.log).after policy t (i,⟨op,r⟩)).standings k) := by
    refine ⟨i,fun j other => ?_,?_⟩
    · rw [before j other]
      exact alone j other
    · rw [now]
      exact soundAfter sound allowed ⟨fenced.current,fenced.found⟩ tells
  by_cases own : i = k
  · subst own
    exact turn others sound
  · have free := others i own
    by_cases idle : ((ledger policy t pool.log).standings k).Free
    · refine turn (fun j other => ?_) (soundFree sound idle free)
      by_cases same : j = k
      · rw [same]
        exact idle
      · exact others j same
    · have quiet := quietAfter sound idle free allowed tells
        (fun record v u same mark => ⟨(fenced.unheld record v u same mark).1,(fenced.unheld record v u same mark).2 k (Ne.symm own)⟩)
        (fun touched => fenced.alone free.1 touched k (Ne.symm own))
      obtain ⟨stored,stack,outstanding,free⟩ := quiet
      refine ⟨k,fun j other => ?_,?_⟩
      · by_cases same : j = i
        · rw [same,now]
          exact free
        · rw [before j same]
          exact others j other
      · rw [stored,stack,outstanding,before k (Ne.symm own)]
        exact sound

theorem lostAfter {i : Nat} {op : Op Context Data} {r : Reply Context Data op} {shared : MemoryStateStore} (kept : Kept policy t pool)
    (performed : Performs pool.shared op r shared)
    (allowed : (saga (policy i) t).allowed ((ledger policy t pool.log).standings i) op)
    (lost : (((ledger policy t pool.log).standings i).after (policy i) t ⟨op,r⟩).rejected = true) :
    (((ledger policy t pool.log).standings i).after (policy i) t ⟨op,r⟩).Free := by
  obtain ⟨_,_,tells⟩ := @performsStore _ _ t _ _ _ _ performed
  rw [rejectedAfter,allowed.1,Bool.false_or] at lost
  cases op with
  | updateTransaction record v =>
    cases r with
    | ok u => cases lost
    | error e =>
      have settle : settles t record = true := lost
      have free : ((ledger policy t pool.log).standings i).Free := by
        by_contra busy
        obtain ⟨k,others,sound⟩ := kept.one
        by_cases own : i = k
        · subst own
          obtain ⟨existing,here,version⟩ := settleCurrent sound busy allowed settle
          exact tells (settlesOwn settle).1 existing here version
        · exact busy (others i own)
      rw [Standing.after,if_pos settle]
      exact free
  | _ => cases lost

theorem keptAct {i : Nat} {call : Act Context Data Unit} {op : Op Context Data} {next} {history} {r shared}
    (kept : Kept policy t pool) (here : pool.workers[i]? = some ⟨call,.ask op next,history⟩) (performed : Performs pool.shared op r shared)
    (fenced : Fenced policy t pool i ⟨op,r⟩) :
    Kept policy t {
      shared
      workers := pool.workers.set i ⟨call,next r,history ++ [⟨op,r⟩]⟩
      log := pool.log ++ [(i,⟨op,r⟩)] } := by
  have inside := (List.getElem?_eq_some_iff.mp here).1
  have obeys := kept.obeys i _ here
  have before (j : Nat) (own : j ≠ i) : (ledger policy t (pool.log ++ [(i,⟨op,r⟩)])).standings j = (ledger policy t pool.log).standings j := by
    rw [ledgerSnoc,standingOther own]
  have now : (ledger policy t (pool.log ++ [(i,⟨op,r⟩)])).standings i = ((ledger policy t pool.log).standings i).after (policy i) t ⟨op,r⟩ := by
    rw [ledgerSnoc,standingOwn]
  refine ⟨fun j w there => ?_,fun j w there => ?_,fun j outside => ?_,fun j lost => ?_,oneAfter kept performed fenced obeys.1⟩
  · by_cases own : j = i
    · subst own
      rw [List.getElem?_set_self inside] at there
      cases Option.some.inj there
      rw [now]
      exact obeys.2 r (fencedReplies fenced performed)
    · rw [List.getElem?_set_ne (Ne.symm own)] at there
      rw [before j own]
      exact kept.obeys j w there
  · by_cases own : j = i
    · subst own
      rw [List.getElem?_set_self inside] at there
      cases Option.some.inj there
      rw [now,rejectedAfter,kept.history j _ here,List.any_append]
      simp
    · rw [List.getElem?_set_ne (Ne.symm own)] at there
      rw [before j own]
      exact kept.history j w there
  · rw [List.length_set] at outside
    rw [before j (by omega)]
    exact kept.unused j outside
  · by_cases own : j = i
    · subst own
      rw [now] at lost ⊢
      exact lostAfter kept performed obeys.1 lost
    · rw [before j own] at lost ⊢
      exact kept.lost j lost

theorem keptRun (run : Pool.Reaches Performs (Called t) (Meets policy t) { shared := store } pool) (empty : store.getSagaStack t = [])
    (called : ∀ i w, pool.workers[i]? = some w → w.call = (policy i).program t) : Kept policy t pool := by
  revert called
  refine @Pool.reachesInvariant _ _ _ _ _ _ _ _ _ (fun pool : Workers Context Data =>
    (∀ i w, pool.workers[i]? = some w → w.call = (policy i).program t) → Kept policy t pool) run ?_ ?_
  · intro _
    refine ⟨fun i w here => by simp at here,fun i w here => by simp at here,fun _ _ => rfl,fun _ lost => absurd lost (by simp [ledger]),
      0,fun _ _ => ⟨rfl,rfl⟩,?_⟩
    exact ⟨fun marked here => by simp [ledger] at here,fun _ some_ => absurd rfl some_,fun _ => ⟨rfl,rfl⟩,fun _ => rfl,
      fitsClosed.mpr (by rw [empty]; rfl)⟩
  · intro pool move next before met kept step called
    cases step with
    | @call p called_ =>
      have earlier (i : Nat) (w) (here : pool.workers[i]? = some w) : (pool.workers ++ [⟨p,p,[]⟩])[i]? = some w := by
        rw [List.getElem?_append_left (List.getElem?_eq_some_iff.mp here).1]
        exact here
      have old := kept (fun i w here => called i w (earlier i w here))
      have split (i : Nat) (w) (here : (pool.workers ++ [⟨p,p,[]⟩])[i]? = some w) :
          pool.workers[i]? = some w ∨ (ledger policy t pool.log).standings i = {} ∧ w = ⟨p,p,[]⟩ := by
        rcases Nat.lt_or_ge i pool.workers.length with inside | outside
        · rw [List.getElem?_append_left inside] at here
          exact .inl here
        · rw [List.getElem?_append_right outside] at here
          exact .inr ⟨old.unused i outside,by simpa using List.mem_of_getElem? here⟩
      refine ⟨fun i w here => ?_,fun i w here => ?_,fun i outside => old.unused i (by simp at outside; omega),old.lost,old.one⟩
      · rcases split i w here with here' | ⟨fresh,rfl⟩
        · exact old.obeys i w here'
        · have mine : p = (policy i).program t := called i _ here
          rw [show (ledger policy t pool.log).standings i = {} from fresh]
          exact mine ▸ callSaga (policy i)
      · rcases split i w here with here' | ⟨fresh,rfl⟩
        · exact old.history i w here'
        · rw [show (ledger policy t pool.log).standings i = {} from fresh]
          rfl
    | @act i call op rest history r shared here performed =>
      have inside := (List.getElem?_eq_some_iff.mp here).1
      have earlier (j : Nat) (w) (there : pool.workers[j]? = some w) : w.call = (policy j).program t := by
        by_cases own : i = j
        · subst own
          cases Option.some.inj (here.symm.trans there)
          exact called i ⟨call,rest r,_⟩ (List.getElem?_set_self inside)
        · exact called j w (by rw [List.getElem?_set_ne own]; exact there)
      exact keptAct (kept earlier) here performed met

theorem returnedFree {call : Call Context Data} {s : Standing} {p : Act Context Data Unit} (obeys : (saga call t).Obeys (Steps fun s _ => s.Done) s p)
    (lost : s.rejected = true → s.Free) (returned : Returned p) : s.Free := by
  obtain ⟨ended,ends⟩ := returned
  cases p with
  | ask op next => exact absurd ended id
  | done u => exact obeys.1
  | fail stop => exact (obeys (fun same => ends (by rw [same]))).elim lost id

/-- In every run whose events are fenced one call at a time is in a step, whoever has
returned is in none, and the stack is what has been committed and not compensated. -/
theorem oneHonestStep (run : Pool.Reaches Performs (Called t) (Meets policy t) { shared := store } pool) (empty : store.getSagaStack t = [])
    (called : ∀ i w, pool.workers[i]? = some w → w.call = (policy i).program t) : Honest policy t pool := by
  have kept := keptRun run empty called
  have returned (i : Nat) (w) (here : pool.workers[i]? = some w) (returned : Returned w.program) :
      ((ledger policy t pool.log).standings i).Free := returnedFree (kept.obeys i w here) (kept.lost i) returned
  obtain ⟨k,others,sound⟩ := kept.one
  refine ⟨fun i j inI inJ => ?_,fun i w here ended => (returned i w here ended).1,fun quiet => ?_,fun i w here lost => ?_⟩
  · have busy (i : Nat) (inI : ((ledger policy t pool.log).standings i).marked.isSome) : i = k := by
      by_contra other
      rw [(others i other).1] at inI
      cases inI
    rw [busy i inI,busy j inJ]
  · have closed : ((ledger policy t pool.log).standings k).window = {} := by
      rcases Nat.lt_or_ge k pool.workers.length with inside | outside
      · have here := List.getElem?_eq_getElem inside
        rcases quiet k _ here with closed | ended
        · exact closed
        · exact (returned k _ here ended).2
      · rw [kept.unused k outside]
    have fits := sound.fits
    rw [closed] at fits
    exact fitsClosed.mp fits
  · exact (kept.lost i ((kept.history i w here).trans lost)).2

/-- What has to be seen of an event to find it fenced. -/
def fencedCheck (policy : Nat → Call Context Data) (t : String) (pool : Workers Context Data) : Move (Reply Context Data) Stop → Bool
  | .call _ => true
  | .act i e =>
    let s := (ledger policy t pool.log).standings i
    let marked := match e with
      | ⟨.updateTransaction record _,.ok _⟩ => marks t record
      | _ => false
    (!marked || s.reads.all (fun r => r.status != .IN_FLIGHT && decide (pool.shared.getTransaction t = some r)) &&
      pool.log.all (fun x => x.1 = i || decide (((ledger policy t pool.log).standings x.1).window = {}))) &&
    (!touches t e || s.marked.isSome || pool.log.all (fun x => x.1 = i ||
      ((ledger policy t pool.log).standings x.1).marked.isNone && decide (((ledger policy t pool.log).standings x.1).window = {}))) &&
    (!moves t e || s.marked.isSome || s.reads.all (fun r => decide (pool.shared.getTransaction t = some r))) &&
    !refuses e && !strands (policy i) e && !misnames (policy i) t e

theorem standingAbsent {log : List (Nat × Event (Reply Context Data))} {j : Nat} (absent : ∀ x ∈ log, x.1 ≠ j) :
    (ledger policy t log).standings j = {} := by
  induction log using List.reverseRec with
  | nil => rfl
  | append_singleton log x ih =>
    rw [ledgerSnoc,standingOther (Ne.symm (absent x (by simp)))]
    exact ih (fun y mem => absent y (by simp [mem]))

theorem logged {log : List (Nat × Event (Reply Context Data))} {i : Nat} (good : Standing → Prop) (idle : good {})
    (all : ∀ x ∈ log, x.1 = i ∨ good ((ledger policy t log).standings x.1)) : ∀ j ≠ i, good ((ledger policy t log).standings j) := by
  intro j other
  by_cases known : ∃ x ∈ log, x.1 = j
  · obtain ⟨x,mem,rfl⟩ := known
    exact (all x mem).resolve_left other
  · rw [standingAbsent (fun x mem same => known ⟨x,mem,same⟩)]
    exact idle

theorem fencedSound (pool : Workers Context Data) (move : Move (Reply Context Data) Stop) (checked : fencedCheck policy t pool move = true) :
    Meets policy t pool move := by
  cases move with
  | call p => trivial
  | act i e =>
    simp only [fencedCheck,Bool.and_eq_true,Bool.or_eq_true,Bool.not_eq_true',List.all_eq_true,decide_eq_true_eq,bne_iff_ne,
      Option.isNone_iff_eq_none] at checked
    obtain ⟨⟨⟨⟨⟨marking,alone⟩,current⟩,admitted⟩,found⟩,named⟩ := checked
    refine ⟨?_,fun idle touched => ?_,fun idle moved => ?_,admitted,found,named⟩
    · rintro record v u rfl mark
      rcases marking with plain | ⟨fresh,closed⟩
      · exact absurd (plain.symm.trans mark) (by decide)
      · exact ⟨fresh,logged (fun s => s.window = {}) rfl closed⟩
    · rcases alone with (quiet | busy) | free
      · exact absurd (quiet.symm.trans touched) (by decide)
      · rw [idle] at busy
        cases busy
      · exact logged Standing.Free ⟨rfl,rfl⟩ free
    · rcases current with (still | busy) | same
      · exact absurd (still.symm.trans moved) (by decide)
      · rw [idle] at busy
        cases busy
      · exact same

end

/-! A gate that two workers open, or that is cleaned up. -/

def gate : DfsmActor Unit Unit where
  machine := { id := "gate", initial := "shut", states := [
    ("open",{}),("shut",{ on := [("unlock",.detailed { target := some "open", compensate := some "relock" })] })] }
  registry := {
    transitions := [("unlock",{})], compensations := [("relock",())], defaultContext := (), contextJson := fun _ => "{}"
    parseContext := fun _ => some (), fromValue := fun _ => some (), valueText := fun _ => "null", parseValue := fun _ => some () }

def gateRecord : TransactionRecord where
  transactionId := "t"
  machineId := "gate"
  currentState := Go.leaf "shut"
  status := .IDLE
  contextJson := "{}"
  version := 1
  createdAt := 0
  updatedAt := 0

def gateStore : MemoryStateStore where
  transactions := [("t",gateRecord)]
  own := by
    intro id record got
    simp only [Keyed.get,List.lookup_cons,List.lookup_nil] at got
    split at got
    · cases got
      exact (beq_iff_eq.mp ‹_›).symm
    · cases got

/-- Every function does as it is asked. -/
def agreeable : Surroundings Unit Unit
  | .getTransaction _ => .ok none
  | .createTransaction _ | .updateTransaction _ _ | .pushSagaStep _ _ | .deleteTransaction _ => .ok ()
  | .getSagaStack _ | .listActiveTransactions _ _ => .ok []
  | .popSagaStep _ => .ok none
  | .nowMs | .instantNow => 0
  | .sleep _ => ()
  | .loadBreaker _ _ => 0
  | .lockBreaker _ _ => ({ policy := {} },0)
  | .unlockBreaker _ _ => ()
  | .handler _ _ => .ok (none,none)
  | .compensation _ _ => ()
  | .effect _ _ _ => .ok ()
  | .hook _ _ => ()
  | .record _ => ()

def unlock : Call Unit Unit := .transition gate "unlock" 20 none
def cleanUp : Call Unit Unit := .forceCleanup gate 20 { transactionIds := ["t"], action := some .Compensate }

/-- The first call makes so many requests, then the second. -/
def gateCues (second : Call Unit Unit) (n : Nat) : List (Pool.Cue (Reply Unit Unit) Stop) :=
  .call (unlock.program "t")::.call (second.program "t")::(List.replicate n (.turn 0) ++ List.replicate 6 (.turn 1))

def gatePool (second : Call Unit Unit) (n : Nat) : Workers Unit Unit :=
  Pool.play (serve agreeable) (gateCues second n) { shared := gateStore }

def gateCalls (second : Call Unit Unit) : Nat → Call Unit Unit
  | 0 => unlock
  | _ => second

theorem gateRun {meets : Workers Unit Unit → Move (Reply Unit Unit) Stop → Prop} {second : Call Unit Unit} {n : Nat}
    (met : Pool.PlayMeets (serve agreeable) meets (gateCues second n) { shared := gateStore }) :
    Pool.Reaches Performs (Called "t") meets { shared := gateStore } (gatePool second n) := by
  refine Pool.reachesPlay (servePerforms agreeable) (fun cue mem p same => ?_) met .start
  subst same
  simp only [gateCues,List.mem_cons,List.mem_append,List.mem_replicate,reduceCtorEq,and_false,or_false] at mem
  rcases mem with mem | mem <;> cases mem <;> exact ⟨_,rfl⟩

theorem gateCalled {second : Call Unit Unit} {n : Nat} (i w) (here : (gatePool second n).workers[i]? = some w) :
    w.call = (gateCalls second i).program "t" := by
  have calls := @Pool.playCalls _ _ _ _ (serve agreeable) (gateCues second n) { shared := gateStore }
  have started : (gateCues second n).filterMap Pool.Cue.starts = [unlock.program "t",second.program "t"] := by
    simp [gateCues,Pool.Cue.starts]
  have mine := congrArg (fun l => l[i]?) calls
  simp only [started,List.map_nil,List.nil_append,List.getElem?_map] at mine
  rw [show (Pool.play (serve agreeable) (gateCues second n) { shared := gateStore }).workers[i]? = some w from here,Option.map_some] at mine
  rcases i with _ | _ | i
  · exact Option.some.inj mine
  · exact Option.some.inj mine
  · exact absurd mine (by simp)

/-- The gate is unlocked, and then its step is compensated. -/
theorem oneHonestStepGate : Honest (gateCalls cleanUp) "t" (gatePool cleanUp 12) :=
  oneHonestStep (gateRun (Pool.playChecked fencedSound (by decide +kernel))) (by decide +kernel) gateCalled

/-- A second call takes up the transaction that the first has just marked. -/
theorem oneHonestStepTwice : ¬∀ (policy : Nat → Call Unit Unit) (store : MemoryStateStore) (pool : Workers Unit Unit),
    Pool.Reaches Performs (Called "t") Pool.Anything { shared := store } pool → store.getSagaStack "t" = [] →
    (∀ i w, pool.workers[i]? = some w → w.call = (policy i).program "t") → Honest policy "t" pool := by
  intro claim
  have honest := claim (gateCalls unlock) gateStore (gatePool unlock 3) (gateRun (Pool.playAnything _ _)) (by decide +kernel) gateCalled
  exact absurd (honest.single 0 1 (by decide +kernel) (by decide +kernel)) (by decide)

end Dfsm.Rust
