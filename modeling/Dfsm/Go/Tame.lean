import Dfsm.Go.Actor
import Dfsm.Lib.Endless
import Mathlib.Data.Set.Finite.List

/-! How the loop over `onDone` can run forever. Whatever it builds is built of the names of the
machine, in maps of bounded size: it comes back to a value or goes deeper and deeper. -/
namespace Dfsm.Go
open Keyed (Record)

/-! The values that are built of given names. -/

/-- A key that `put` finds. -/
def placed {α : Type} (key : String) : Record α → Bool
  | [] => false
  | e::rest => if key < e.1 then false else if key = e.1 then true else placed key rest

theorem placedPut {α : Type} (key : String) (value : α) (m : Record α) : placed key (put key value m) = true := by
  induction m with
  | nil => simp [put,placed]
  | cons e rest ih =>
    rw [put]
    split
    · simp [placed]
    · split
      · simp [placed]
      · rename_i above other
        rw [placed,if_neg above,if_neg other]
        exact ih

theorem placedKept {α : Type} {other : String} (key : String) (value : α) {m : Record α} (here : placed other m = true) :
    placed other (put key value m) = true := by
  induction m with
  | nil => cases here
  | cons e rest ih =>
    rw [put]
    rw [placed] at here
    split at here
    · cases here
    · rename_i notBelow
      split
      · rename_i below
        rw [placed,if_neg (fun less => notBelow (String.lt_trans less below)),placed,if_neg notBelow]
        split
        · rfl
        · exact here
      · split
        · rename_i same
          rw [placed,same,if_neg notBelow]
          exact here
        · rw [placed,if_neg notBelow]
          split
          · rfl
          · rename_i apart
            rw [if_neg apart] at here
            exact ih here

theorem putLength {α : Type} (key : String) (value : α) (m : Record α) :
    (put key value m).length = if placed key m = true then m.length else m.length + 1 := by
  induction m with
  | nil => rfl
  | cons e rest ih =>
    rw [put,placed]
    split
    · rfl
    · split
      · rfl
      · rw [List.length_cons,List.length_cons,ih]
        split <;> rfl

theorem memPut {α : Type} {key : String} {value : α} {m : Record α} {e : String × α} (mem : e ∈ put key value m) : e = (key,value) ∨ e ∈ m := by
  induction m with
  | nil => exact .inl (List.mem_singleton.mp mem)
  | cons first rest ih =>
    rw [put] at mem
    split at mem
    · exact List.mem_cons.mp mem
    · split at mem
      · exact (List.mem_cons.mp mem).imp_right (List.mem_cons_of_mem _)
      · rcases List.mem_cons.mp mem with rfl | later
        · exact .inr List.mem_cons_self
        · exact (ih later).imp_right (List.mem_cons_of_mem _)

section
variable {names : Finset String} {width : Nat}

/-- The names that `put` would still add to a map. -/
def unplaced {α : Type} (names : Finset String) (m : Record α) : Nat := (names.filter (fun key => placed key m = false)).card

theorem putRoom {α : Type} {key : String} (value : α) {m : Record α} (mem : key ∈ names) :
    (put key value m).length + unplaced names (put key value m) ≤ m.length + unplaced names m := by
  have fewer : names.filter (fun other => placed other (put key value m) = false) ⊆ names.filter (fun other => placed other m = false) := by
    intro other here
    obtain ⟨known,open_⟩ := Finset.mem_filter.mp here
    refine Finset.mem_filter.mpr ⟨known,?_⟩
    by_contra found
    rw [placedKept key value (Bool.eq_true_of_not_eq_false found)] at open_
    cases open_
  rw [putLength]
  unfold unplaced
  split
  · exact Nat.add_le_add_left (Finset.card_le_card fewer) _
  · rename_i fresh
    have less := Finset.card_lt_card (Finset.ssubset_iff_of_subset fewer |>.mpr
      ⟨key,Finset.mem_filter.mpr ⟨mem,Bool.eq_false_of_not_eq_true fresh⟩,by simp [placedPut]⟩)
    omega

/-- Values of given names, in maps of a bounded size. -/
inductive Tame (names : Finset String) (width : Nat) : StateValue → Prop where
  | str {state} (mem : state ∈ names) : Tame names width (.str state)
  | obj {entries} (room : entries.length + unplaced names entries ≤ width)
      (keys : ∀ e ∈ entries, e.1 ∈ names) (each : ∀ e ∈ entries, Tame names width e.2) : Tame names width (.obj entries)

theorem tamePut {key : String} {value : StateValue} {entries : Record StateValue} (mem : key ∈ names) (tame : Tame names width value)
    (map : Tame names width (.obj entries)) : Tame names width (.obj (put key value entries)) := by
  obtain _ | ⟨room,keys,each⟩ := map
  refine .obj ((putRoom value mem).trans room) (fun e inside => ?_) (fun e inside => ?_)
  · rcases memPut inside with rfl | old
    · exact mem
    · exact keys e old
  · rcases memPut inside with rfl | old
    · exact tame
    · exact each e old

theorem tameEmpty (enough : names.card ≤ width) : Tame names width (.obj []) := by
  refine .obj ?_ (by simp) (by simp)
  have all := Finset.card_filter_le names (fun key => placed key ([] : Record StateValue) = false)
  simp only [unplaced,List.length_nil]
  omega

theorem tameSingle {key : String} {value : StateValue} (enough : names.card ≤ width) (mem : key ∈ names) (tame : Tame names width value) :
    Tame names width (singleNested key value) := tamePut mem tame (tameEmpty enough)

theorem tamePutAll {entries more : Record StateValue} (each : ∀ e ∈ more, e.1 ∈ names ∧ Tame names width e.2)
    (map : Tame names width (.obj entries)) : Tame names width (.obj (putAll entries more)) := by
  unfold putAll
  induction more generalizing entries with
  | nil => exact map
  | cons e rest ih =>
    obtain ⟨mem,tame⟩ := each e List.mem_cons_self
    exact ih (fun other inside => each other (List.mem_cons_of_mem _ inside)) (tamePut mem tame map)

theorem tameGet {key : String} {value : StateValue} {entries : Record StateValue} (map : Tame names width (.obj entries))
    (here : Keyed.get entries key = some value) : Tame names width value := by
  obtain _ | ⟨_,_,each⟩ := map
  exact each _ (Keyed.getSome here)

theorem tameRegion {branch : StateValue} (regionKey : String) (tame : Tame names width branch) : Tame names width (regionValue branch regionKey) := by
  cases branch with
  | str => exact tame
  | obj entries =>
    simp only [regionValue]
    cases here : Keyed.get entries regionKey with
    | none => exact tame
    | some value => exact tameGet tame here

theorem tameCursor {cursor value : StateValue} {parts : List String} (tame : Tame names width cursor)
    (here : extractCursor cursor parts = some value) : Tame names width value := by
  induction parts generalizing cursor with
  | nil =>
    cases cursor <;> cases here <;> exact tame
  | cons part rest ih =>
    cases cursor with
    | str => cases here
    | obj entries =>
      obtain ⟨child,found,below⟩ := Option.bind_eq_some_iff.mp here
      exact ih (tameGet tame found) below

theorem tameExtract {root : StateValue} (enough : names.card ≤ width) (dotPath : String) (tame : Tame names width root) :
    Tame names width (.obj (extractSubStateObject root dotPath)) := by
  unfold extractSubStateObject
  split
  · rename_i entries here
    exact tameCursor tame here
  · exact tameEmpty enough

theorem tameWithEntry {current value : StateValue} {key : String} (enough : names.card ≤ width) (mem : key ∈ names)
    (here : Tame names width current) (tame : Tame names width value) : Tame names width (withEntry current key value) := by
  cases current with
  | str => exact tameSingle enough mem tame
  | obj entries => exact tamePut mem tame here

end

/-! What a transition builds is built of the names of the machine and of the value before it. -/

mutual
def namesOf : StateDefinition → List String
  | { id, type := _, initial := _, states, on := _, onDone := _, entry := _, exit := _ } => id::namesAmong states
def namesAmong : List (String × StateDefinition) → List String
  | [] => []
  | (key,s)::rest => key::namesOf s ++ namesAmong rest
end

theorem namesWhole (node : StateDefinition) : namesOf node = node.id::namesAmong node.states := by
  cases node
  rw [namesOf]

theorem namesGet {key : String} {node : StateDefinition} {states : List (String × StateDefinition)} (mem : (key,node) ∈ states) :
    key ∈ namesAmong states ∧ ∀ name ∈ namesOf node, name ∈ namesAmong states := by
  induction states with
  | nil => cases mem
  | cons e rest ih =>
    obtain ⟨k,s⟩ := e
    rw [namesAmong]
    rcases List.mem_cons.mp mem with here | later
    · cases here
      exact ⟨by simp,fun name inside => by simp [inside]⟩
    · obtain ⟨known,below⟩ := ih later
      exact ⟨by simp [known],fun name inside => by simp [below name inside]⟩

section
variable {names : Finset String} {width : Nat}

/-- What a subtree holds below its id. -/
def TameEntry (names : Finset String) (width : Nat) (entered : SubtreeEntry) : Prop :=
  ∀ sub, entered.subValue = some sub → Tame names width sub

theorem tameAt (enough : names.card ≤ width) {entered : SubtreeEntry} {id : String} (mem : id ∈ names) (tame : TameEntry names width entered) :
    Tame names width (entered.at id) := by
  unfold SubtreeEntry.at
  split
  · exact .str mem
  · rename_i sub here
    exact tameSingle enough mem (tame sub here)

theorem tameRegions (enough : names.card ≤ width) {entered : Record SubtreeEntry}
    (each : ∀ e ∈ entered, e.1 ∈ names ∧ TameEntry names width e.2) : Tame names width (regionsOf entered).1 := by
  refine tamePutAll (fun e mem => ?_) (tameEmpty enough)
  obtain ⟨region,here,rfl⟩ := List.mem_map.mp mem
  obtain ⟨known,tame⟩ := each region here
  refine ⟨known,?_⟩
  cases sub : region.2.subValue with
  | none => exact .str known
  | some value => exact tame value sub

theorem memRange {α : Type} {ord : Order} {m : Record α} {e : String × α} : e ∈ ord.range m ↔ e ∈ m :=
  (List.perm_insertionSort _ m).mem_iff

mutual
theorem tameSubtree (enough : names.card ≤ width) (ord : Order) : ∀ node, (∀ name ∈ namesOf node, name ∈ names) →
    TameEntry names width (enterSubtree ord node)
  | { id, type, initial, states, on, onDone, entry, exit }, known => by
    have below : ∀ name ∈ namesAmong states, name ∈ names := fun name mem => known name (by rw [namesOf]; exact List.mem_cons_of_mem _ mem)
    intro sub here
    rw [enterSubtree] at here
    simp only [] at here
    split at here
    · cases here
    · split at here
      · split at here
        · cases here
        · split at here
          · cases here
          · rename_i childId enteredChild found
            cases here
            obtain ⟨mem,tame⟩ := tameChild enough (ord.below initial) initial states below found
            exact tameAt enough mem tame
      · cases here
        exact tameRegions enough (fun e mem => tameStates enough ord states below e (memRange.mp mem))
theorem tameChild (enough : names.card ≤ width) (ord : Order) (initial : String) : ∀ states, (∀ name ∈ namesAmong states, name ∈ names) →
    ∀ {id entered}, enterChild ord initial states = some (id,entered) → id ∈ names ∧ TameEntry names width entered
  | [], _, _, _, here => by cases here
  | (k,child)::rest, known, id, entered, here => by
    rw [namesAmong] at known
    rw [enterChild] at here
    split at here
    · cases here
      refine ⟨known _ ?_,tameSubtree enough ord child (fun name mem => known name (by simp [mem]))⟩
      simp [namesWhole]
    · exact tameChild enough ord initial rest (fun name mem => known name (by simp [mem])) here
theorem tameStates (enough : names.card ≤ width) (ord : Order) : ∀ states, (∀ name ∈ namesAmong states, name ∈ names) →
    ∀ e ∈ enterStates ord states, e.1 ∈ names ∧ TameEntry names width e.2
  | [], _, e, mem => by simp [enterStates] at mem
  | (k,region)::rest, known, e, mem => by
    rw [namesAmong] at known
    rw [enterStates] at mem
    rcases List.mem_cons.mp mem with rfl | later
    · exact ⟨known k (by simp),tameSubtree enough (ord.below k) region (fun name inside => known name (by simp [inside]))⟩
    · exact tameStates enough ord rest (fun name inside => known name (by simp [inside])) e later
end

section
variable {m : MachineDefinition} {current : StateValue}

theorem tameBuilt (enough : names.card ≤ width) {enteredTarget : StateValue} (here : Tame names width current)
    (tame : Tame names width enteredTarget) {front parts : List String} (known : ∀ part ∈ parts, part ∈ names) :
    Tame names width (builtBranch m current enteredTarget front parts) := by
  induction parts generalizing front with
  | nil => exact tame
  | cons ancKey rest ih =>
    cases rest with
    | nil => exact tame
    | cons regionKey rest =>
      have branch := @ih (front ++ [ancKey]) (fun part mem => known part (List.mem_cons_of_mem _ mem))
      have anc := known ancKey List.mem_cons_self
      rw [builtBranch]
      split
      · refine tameSingle enough anc (tamePut (known regionKey (by simp)) (tameRegion regionKey branch) ?_)
        exact tameExtract enough _ here
      · exact tameSingle enough anc branch

theorem tameReplaced (enough : names.card ≤ width) (blank : "" ∈ names) {branch : StateValue} (tame : Tame names width branch)
    {front parts : List String} (known : ∀ part ∈ parts, part ∈ names) (here : Tame names width current) :
    Tame names width (replaceAtLca m current front branch parts) := by
  induction parts generalizing front current with
  | nil =>
    unfold replaceAtLca
    exact tame
  | cons key rest ih =>
    have own := known key List.mem_cons_self
    cases rest with
    | nil =>
      have plain := tameWithEntry enough own here tame
      cases current with
      | str => simpa only [replaceAtLca,ite_self] using plain
      | obj entries =>
        cases branch with
        | str => simpa only [replaceAtLca,ite_self] using plain
        | obj replaced =>
          cases replaced with
          | nil => simpa only [replaceAtLca,ite_self] using plain
          | cons first others =>
            simp only [replaceAtLca]
            split
            · obtain _ | ⟨_,keys,each⟩ := tame
              refine tamePut own (tamePutAll (fun e mem => ⟨keys e mem,each e mem⟩) ?_) here
              split
              · rename_i regions found
                exact tameGet here found
              · exact tameEmpty enough
            · exact plain
    | cons next rest =>
      rw [replaceAtLca]
      refine tameWithEntry enough own here (ih (fun part mem => known part (List.mem_cons_of_mem _ mem)) ?_)
      cases current with
      | str => exact .str blank
      | obj entries =>
        simp only [entryAt]
        cases found : Keyed.get entries key with
        | none => exact .str blank
        | some value => exact tameGet here found

theorem commonInside {src tgt : List String} : ∀ part ∈ commonSegments src tgt, part ∈ tgt := by
  induction src generalizing tgt with
  | nil => simp [commonSegments]
  | cons s rest ih =>
    intro part mem
    cases rest with
    | nil => simp [commonSegments] at mem
    | cons s' rest =>
      cases tgt with
      | nil => simp [commonSegments] at mem
      | cons t more =>
        cases more with
        | nil => simp [commonSegments] at mem
        | cons t' more =>
          rw [commonSegments] at mem
          split at mem
          · rcases List.mem_cons.mp mem with rfl | later
            · exact List.mem_cons_self
            · exact List.mem_cons_of_mem _ (ih part later)
          · cases mem

theorem tameNext (enough : names.card ≤ width) (blank : "" ∈ names) {lcaParts tgtParts : List String} {branch : StateValue}
    (lca : ∀ part ∈ lcaParts, part ∈ names) (tgt : ∀ part ∈ tgtParts, part ∈ names) (here : Tame names width current)
    (tame : Tame names width branch) : Tame names width (nextStateValue m current lcaParts tgtParts branch) := by
  cases lcaParts with
  | nil =>
    simp only [nextStateValue]
    split
    · split
      · refine tamePut ?_ (tameRegion _ tame) here
        cases tgtParts with
        | nil => exact blank
        | cons first rest => exact tgt first List.mem_cons_self
      · exact tame
    · exact tame
  | cons key rest => exact tameReplaced enough blank tame lca here

theorem partsNamed (blank : "" ∈ names) {states : List (String × StateDefinition)} {found : Option StateDefinition} {parts : List String}
    {node : StateDefinition} (known : ∀ name ∈ namesAmong states, name ∈ names) (here : getNodeByParts states found parts = some node) :
    (∀ part ∈ parts, part ∈ names) ∧ (found = some node ∨ ∀ name ∈ namesOf node, name ∈ names) := by
  induction parts generalizing states found with
  | nil => exact ⟨by simp,.inl here⟩
  | cons part rest ih =>
    rw [getNodeByParts] at here
    split at here
    · rename_i empty
      obtain ⟨named,node_⟩ := ih known here
      exact ⟨List.forall_mem_cons.mpr ⟨empty ▸ blank,named⟩,node_⟩
    · split at here
      · cases here
      · rename_i s found_
        obtain ⟨key,below⟩ := namesGet (Keyed.getSome found_)
        have own : ∀ name ∈ namesOf s, name ∈ names := fun name mem => known name (below name mem)
        obtain ⟨named,node_⟩ := ih (fun name mem => own name (by rw [namesWhole]; exact List.mem_cons_of_mem _ mem)) here
        refine ⟨List.forall_mem_cons.mpr ⟨known part key,named⟩,.inr ?_⟩
        rcases node_ with same | deeper
        · exact Option.some.inj same ▸ own
        · exact deeper

theorem tameApplied (enough : names.card ≤ width) (blank : "" ∈ names) (known : ∀ name ∈ namesAmong m.states, name ∈ names) {ord : Order}
    {sourcePath targetRef : String} {applied : AppliedTransition} (here : Tame names width current)
    (applies : applyTargetTransition ord m current sourcePath targetRef = some applied) : Tame names width applied.nextStateValue := by
  simp only [applyTargetTransition] at applies
  split at applies
  · cases applies
  · rename_i targetNode found
    cases applies
    unfold getNodeByPath at found
    split at found
    · cases found
    · obtain ⟨parts,node | node⟩ := partsNamed blank known found
      · cases node
      · have id := node targetNode.id (by simp [namesWhole])
        have entered := tameAt enough id (tameSubtree enough (ord.below "enter") targetNode node)
        refine tameNext enough blank (fun part mem => parts part (commonInside part mem)) parts here (tameBuilt enough here entered ?_)
        exact fun part mem => parts part (List.mem_of_mem_drop mem)

end

end

/-! There are finitely many such values of a depth. -/

def shallow : Nat → StateValue → Prop
  | _, .str _ => True
  | 0, .obj _ => False
  | depth+1, .obj entries => ∀ e ∈ entries, shallow depth e.2

theorem shallowMono {depth more : Nat} {v : StateValue} (le : depth ≤ more) (here : shallow depth v) : shallow more v := by
  induction depth generalizing more v with
  | zero =>
    cases v with
    | str => cases more <;> trivial
    | obj => cases here
  | succ depth ih =>
    obtain ⟨rest,rfl⟩ : ∃ rest, more = rest + 1 := ⟨more - 1,by omega⟩
    cases v with
    | str => trivial
    | obj entries => exact fun e mem => ih (by omega) (here e mem)

mutual
theorem someDepth : ∀ v : StateValue, ∃ depth, shallow depth v
  | .str _ => ⟨0,trivial⟩
  | .obj entries => by
    obtain ⟨depth,all⟩ := someDepths entries
    exact ⟨depth+1,all⟩
theorem someDepths : ∀ entries : List (String × StateValue), ∃ depth, ∀ e ∈ entries, shallow depth e.2
  | [] => ⟨0,by simp⟩
  | (_,v)::rest => by
    obtain ⟨first,here⟩ := someDepth v
    obtain ⟨depth,all⟩ := someDepths rest
    refine ⟨max first depth,List.forall_mem_cons.mpr ⟨shallowMono (le_max_left _ _) here,fun e mem => ?_⟩⟩
    exact shallowMono (le_max_right _ _) (all e mem)
end

theorem tameFew (names : Finset String) (width depth : Nat) : {v | Tame names width v ∧ shallow depth v}.Finite := by
  induction depth with
  | zero =>
    refine (names.finite_toSet.image StateValue.str).subset (fun v here => ?_)
    obtain ⟨tame,flat⟩ := here
    cases tame with
    | str mem => exact ⟨_,mem,rfl⟩
    | obj => cases flat
  | succ depth ih =>
    have maps := (Endless.fewLists (names.finite_toSet.prod ih) width).image StateValue.obj
    refine ((names.finite_toSet.image StateValue.str).union maps).subset (fun v here => ?_)
    obtain ⟨tame,flat⟩ := here
    cases tame with
    | str mem => exact .inl ⟨_,mem,rfl⟩
    | @obj entries room keys each =>
      exact .inr ⟨entries,⟨by omega,fun e mem => ⟨keys e mem,each e mem,flat e mem⟩⟩,rfl⟩

mutual
def stringsOf : StateValue → List String
  | .str state => [state]
  | .obj entries => stringsAmong entries
def stringsAmong : List (String × StateValue) → List String
  | [] => []
  | (key,v)::rest => key::stringsOf v ++ stringsAmong rest
end

mutual
theorem tameValue {names : Finset String} : ∀ v : StateValue, (∀ text ∈ stringsOf v, text ∈ names) →
    ∃ least, ∀ width, least ≤ width → Tame names width v
  | .str state, known => ⟨0,fun _ _ => .str (known state (by simp [stringsOf]))⟩
  | .obj entries, known => by
    rw [stringsOf] at known
    obtain ⟨least,all⟩ := tameEntries entries known
    refine ⟨max least (entries.length + unplaced names entries),fun width enough => ?_⟩
    have each := all width ((le_max_left _ _).trans enough)
    exact .obj ((le_max_right _ _).trans enough) (fun e mem => (each e mem).1) (fun e mem => (each e mem).2)
theorem tameEntries {names : Finset String} : ∀ entries : List (String × StateValue), (∀ text ∈ stringsAmong entries, text ∈ names) →
    ∃ least, ∀ width, least ≤ width → ∀ e ∈ entries, e.1 ∈ names ∧ Tame names width e.2
  | [], _ => ⟨0,by simp⟩
  | (key,v)::rest, known => by
    rw [stringsAmong] at known
    obtain ⟨first,here⟩ := tameValue v (fun text mem => known text (by simp [mem]))
    obtain ⟨least,all⟩ := tameEntries rest (fun text mem => known text (by simp [mem]))
    refine ⟨max first least,fun width enough => List.forall_mem_cons.mpr ⟨⟨known key (by simp),?_⟩,?_⟩⟩
    · exact here width ((le_max_left _ _).trans enough)
    · exact all width ((le_max_right _ _).trans enough)
end

end Dfsm.Go
