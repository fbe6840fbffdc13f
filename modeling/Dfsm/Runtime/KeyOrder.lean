import Dfsm.Engine.KeyOrder
import Dfsm.Runtime.Recovery

/-! What a run makes of a persisted value whose keys come back in another order: the
functions of the engine and the choice of a recovery action, each with the condition under
which two listings of one value are treated alike. -/
namespace Dfsm
open Keyed (Record Relisted)

def firstKey : StateValue → String
  | .str key => key
  | .obj entries => (Keyed.keys entries).headD ""

/-- The two listings begin with the same key and read the same as JSON. -/
def SameText (v w : StateValue) : Prop := firstKey v = firstKey w ∧ v.stringify = w.stringify

/-- The action under the first name, or else under the second. -/
def actionUnder (table : Record OnRestartMode) (first second : String) : OnRestartMode :=
  (Keyed.get table first).getD ((Keyed.get table second).getD .STOP)

theorem tablesTell {a b c d : String} (all : ∀ table, actionUnder table a b = actionUnder table c d) : a = c ∧ b = d := by
  -- an entry for the second name as a decoy
  have firstOf {a b c d : String} (all : ∀ table, actionUnder table a b = actionUnder table c d) :
      a = c ∨ b ≠ c ∧ d = a := by
    have told := all [(a,.COMPENSATE),(b,.DELETE)]
    simp only [actionUnder,Keyed.getCons,if_true,Option.getD_some] at told
    by_cases here : c = a
    · exact .inl here.symm
    · rw [if_neg here] at told
      by_cases second : c = b
      · simp [second] at told
      · refine .inr ⟨Ne.symm second,?_⟩
        rw [if_neg second] at told
        by_contra other
        rw [if_neg other] at told
        by_cases again : d = b <;> simp [again] at told
  have secondOf {a b d : String} (all : ∀ table, actionUnder table a b = actionUnder table a d) : d = b ∨ a = b := by
    have told := all [(b,.COMPENSATE)]
    by_cases here : a = b
    · exact .inr here
    · by_cases there : d = b
      · exact .inl there
      · simp [actionUnder,here,there] at told
  have first : a = c := by
    rcases firstOf all with here | ⟨other,_⟩
    · exact here
    · rcases firstOf (fun table => (all table).symm) with back | ⟨_,back⟩
      · exact back.symm
      · exact absurd back other
  subst first
  refine ⟨rfl,?_⟩
  rcases secondOf all with same | here
  · exact same.symm
  · rcases secondOf (fun table => (all table).symm) with same | there
    · exact same
    · exact here.symm.trans there

theorem actionTaken (actor : Actor) {v : StateValue} {entries : Record StateValue} (held : v = .obj entries) (named : firstKey v ≠ "")
    (stops : actor.recoveryConfig.defaultAction = .STOP) :
    actor.resolveRecoveryModeForState v = actionUnder actor.recoveryConfig.stateActions (firstKey v) v.stringify := by
  subst held
  unfold Actor.resolveRecoveryModeForState actionUnder
  unfold firstKey at named ⊢
  dsimp only at named ⊢
  rw [if_neg named,stops]
  cases Keyed.get actor.recoveryConfig.stateActions ((Keyed.keys entries).headD "") <;> rfl

section
variable {machine : MachineDefinition} (loaded : Loaded machine) {v w : StateValue}
  (legal : Legal machine.toRawMachine v)
include loaded legal

theorem firstKeyNamed (clean : KeysClean machine.toRawMachine) : firstKey v ≠ "" := by
  have plain := shapedPlain (legalShaped loaded legal) clean
  cases legalShaped loaded legal with
  | str found => exact (plainEntry clean found).1.1
  | @obj _ entries _ any =>
    obtain ⟨e,rest,rfl⟩ := List.exists_cons_of_ne_nil any
    exact (memPlainEntries.mp plain e List.mem_cons_self).1.1

variable (same : SameMap v w)
include same

theorem recoverySame : Decides machine.toRawMachine
    (∀ actor : Actor, actor.machine = machine → actor.resolveRecoveryModeForState v = actor.resolveRecoveryModeForState w)
    (SameText v w) := by
  constructor
  · rintro ⟨first,text⟩ actor _
    cases same with
    | str key => rfl
    | obj relisted values =>
      unfold firstKey at first
      dsimp only at first
      unfold Actor.resolveRecoveryModeForState
      dsimp only
      rw [first,text]
  · intro clean all
    have named := firstKeyNamed loaded legal clean
    have named' := firstKeyNamed loaded (legalSame legal same) clean
    cases same with
    | str key => exact ⟨rfl,rfl⟩
    | obj relisted values =>
      refine tablesTell (fun table => ?_)
      have told := all {
        machine, actorId := "", compiledBindings := fun _ => none, resolveCompensate := fun _ => none
        recoveryConfig := { stateActions := table, defaultAction := .STOP } } rfl
      rwa [actionTaken _ rfl named rfl,actionTaken _ rfl named' rfl] at told

end

/-- Two regions of the root that both answer the same event. -/
def spot (key : String) : StateNodeIR := { key, path := key, type := .atomic, on := [("cut",{ event := "cut" })] }

def desk : RawMachine := { id := "desk", type := .parallel, states := [("left",spot "left"),("right",spot "right")] }

def leftFirst : StateValue := .obj [("left",.str "left"),("right",.str "right")]

def rightFirst : StateValue := .obj [("right",.str "right"),("left",.str "left")]

theorem deskLoaded : Loaded (injectErrorState desk) := ⟨⟨desk,by decide,by decide,if_pos (by decide)⟩⟩

theorem deskLegal : Legal (injectErrorState desk).toRawMachine leftFirst := by
  left
  have same : rootStates (injectErrorState desk).toRawMachine = desk.states := rfl
  rw [same]
  exact @enterRegionsLegal desk.states (by decide) (fun k r found inner => by
    simp only [desk,Keyed.getCons] at found
    split at found
    · cases found; contradiction
    · split at found
      · cases found; contradiction
      · contradiction)

theorem deskSame : SameMap leftFirst rightFirst := by
  refine .obj ⟨by decide,by decide⟩ (fun k v w got got' => ?_)
  have own {first second : String} {u : StateValue} (held : Keyed.get [(first,.str first),(second,.str second)] k = some u) : u = .str k := by
    simp only [Keyed.getCons,Keyed.getNil] at held
    split at held
    · rename_i here
      rw [here,← Option.some.inj held]
    · split at held
      · rename_i here
        rw [here,← Option.some.inj held]
      · contradiction
  rw [own got,own got']
  exact .str k

end Dfsm
