import Dfsm.Go.Actor
import Dfsm.Go.Documents
import Dfsm.Go.Tame

/-! How the loop over `onDone` can run forever. Whatever it builds is built of the names of the
machine, in maps of bounded size: it comes back to a value or goes deeper and deeper. -/
namespace Dfsm.Go
open Keyed (Record)

section
variable (m : MachineDefinition)

/-- One turn of the loop that does not end it. -/
def turn (ord : Order) (sv : StateValue) : Option StateValue :=
  (findPendingOnDone (ord.below "pending") m sv).bind (fun pending =>
    (applyTargetTransition (ord.below "done") m sv pending.sourcePath pending.edge.target).map (·.nextStateValue))

/-- The completion of a container that is done leads from a value to the next, in some order of the maps. -/
def Completes (sv next : StateValue) : Prop := ∃ ord, turn m ord sv = some next

/-- The value after so many turns, where the loop has not ended before. -/
def after (ord : Order) : Nat → StateValue → Option StateValue
  | 0, sv => some sv
  | rounds+1, sv => (turn m ord sv).bind (after (ord.below "next") rounds)

/-- The completions lead to a value that they lead back to. -/
def ComesBack (sv : StateValue) : Prop := ∃ v, Relation.ReflTransGen (Completes m) sv v ∧ Relation.TransGen (Completes m) v v

/-- In whatever order the maps are taken, the values do not go deeper and deeper. -/
def StaysFlat (sv : StateValue) : Prop := ∀ ord, ∃ depth, ∀ rounds v, after m ord rounds sv = some v → shallow depth v

end

/-- The loop ends, in whatever order the maps are taken. -/
def DfsmActor.CascadeEnds {Context Data : Type} (a : DfsmActor Context Data) (sv : StateValue) : Prop :=
  ∀ ord, ∃ rounds, a.cascadeOnDone ord rounds sv ≠ .error .running

section
variable {m : MachineDefinition} {ord : Order} {sv v : StateValue}

theorem stillRunning {Context Data : Type} (a : DfsmActor Context Data) (ord : Order) (rounds : Nat) (sv : StateValue) :
    a.cascadeOnDone ord rounds sv = .error .running ↔ (after a.machine ord rounds sv).isSome := by
  induction rounds generalizing ord sv with
  | zero => simp [DfsmActor.cascadeOnDone,after]
  | succ rounds ih =>
    rw [DfsmActor.cascadeOnDone,after,turn]
    cases findPendingOnDone (ord.below "pending") a.machine sv with
    | none => simp
    | some pending =>
      simp only [DfsmActor.applyTarget,Option.bind_some]
      cases applyTargetTransition (ord.below "done") a.machine sv pending.sourcePath pending.edge.target with
      | none => simp [DfsmActor.panicUnresolved]
      | some applied => exact ih (ord.below "next") applied.nextStateValue

theorem afterLast {rounds : Nat} (here : after m ord (rounds+1) sv = some v) : ∃ u, after m ord rounds sv = some u ∧ Completes m u v := by
  induction rounds generalizing ord sv with
  | zero =>
    obtain ⟨w,first,last⟩ := Option.bind_eq_some_iff.mp here
    cases last
    exact ⟨sv,rfl,ord,first⟩
  | succ rounds ih =>
    obtain ⟨w,first,rest⟩ := Option.bind_eq_some_iff.mp here
    obtain ⟨u,before,last⟩ := ih rest
    exact ⟨u,Option.bind_eq_some_iff.mpr ⟨w,first,before⟩,last⟩

theorem afterLeads {rounds : Nat} (here : after m ord rounds sv = some v) : Relation.ReflTransGen (Completes m) sv v := by
  induction rounds generalizing v with
  | zero =>
    cases here
    exact .refl
  | succ rounds ih =>
    obtain ⟨u,before,last⟩ := afterLast here
    exact .tail (ih before) last

theorem tameLeads {names : Finset String} {width : Nat} (enough : names.card ≤ width) (blank : "" ∈ names)
    (known : ∀ name ∈ namesAmong m.states, name ∈ names) (tame : Tame names width sv) (leads : Relation.ReflTransGen (Completes m) sv v) :
    Tame names width v := by
  induction leads with
  | refl => exact tame
  | tail _ last ih =>
    obtain ⟨ord,turned⟩ := last
    obtain ⟨pending,_,here⟩ := Option.bind_eq_some_iff.mp turned
    obtain ⟨applied,applies,rfl⟩ := Option.map_eq_some_iff.mp here
    exact tameApplied enough blank known ih applies

theorem leadsTame (m : MachineDefinition) (sv : StateValue) : ∃ names width, ∀ v, Relation.ReflTransGen (Completes m) sv v → Tame names width v := by
  obtain ⟨least,tame⟩ := @tameValue ("" :: namesAmong m.states ++ stringsOf sv).toFinset sv (fun text mem => by simp [mem])
  refine ⟨_,max least _,fun v leads => tameLeads (le_max_right _ _) ?_ ?_ (tame _ (le_max_left _ _)) leads⟩
  · simp
  · exact fun name mem => by simp [mem]

/-- An order of the maps for each turn, as one order. -/
def woven (orders : Nat → Order) : Order
  | [] => orders 0 []
  | first::place => if first = "next" then woven (fun n => orders (n+1)) place else orders 0 (first::place)

theorem wovenRuns {orders : Nat → Order} {run : Nat → StateValue} (turns : ∀ n, turn m (orders n) (run n) = some (run (n+1))) (rounds : Nat) :
    after m (woven orders) rounds (run 0) = some (run rounds) := by
  induction rounds generalizing orders run with
  | zero => rfl
  | succ rounds ih =>
    have pending : (woven orders).below "pending" = (orders 0).below "pending" := by
      funext place
      simp [Order.below,woven]
    have done : (woven orders).below "done" = (orders 0).below "done" := by
      funext place
      simp [Order.below,woven]
    have next : (woven orders).below "next" = woven (fun n => orders (n+1)) := by
      funext place
      simp [Order.below,woven]
    have first := turns 0
    rw [turn] at first
    rw [after,turn,pending,done,first,next]
    exact ih (fun n => turns (n+1))

end

/-- A job is done as soon as it is entered, and its completion has no target. -/
def workshop : Document where
  id := "workshop"
  initial := some "idle"
  states := [("idle",{ on := [("work",.shorthand "job")] }),
    ("job",{ initial := some "ready", onDone := some (.full {}), states := [("ready",{ type := some .final })] })]

theorem jobAgain (rounds : Nat) : after (built workshop) (fun _ _ => 0) rounds (singleNested "job" (leaf "ready")) =
    some (singleNested "job" (leaf "ready")) := by
  induction rounds with
  | zero => rfl
  | succ rounds ih =>
    have same : turn (built workshop) (fun _ _ => 0) (singleNested "job" (leaf "ready")) = some (singleNested "job" (leaf "ready")) := by
      decide +kernel
    rw [after,same]
    exact ih

def workshopActor : DfsmActor Unit Unit where
  machine := built workshop
  registry := {
    zeroContext := ()
    marshalContext _ := "{}"
    unmarshalContext _ _ := ()
    marshalData _ := "null"
    unmarshalData _ := some () }

end Dfsm.Go
