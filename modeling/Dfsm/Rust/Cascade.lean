import Dfsm.Rust.Completion
import Dfsm.Go.Tame
import Dfsm.Engine.Rewrite

/-! The loop over `onDone` in the Rust SDK. What it builds is built of the names of the machine,
and never goes deeper than the machine: the loop runs forever only where it comes back to a value. -/
namespace Dfsm.Rust
open Keyed (Record)
open Go (leaf put Tame shallow shallowMono memPut)

/-! The names of a machine, and how deep its states go. -/

/-- The targets of an `onDone`. -/
def targetsOf (onDone : OnDoneValue) : List String := (TransitionValue.details onDone).filterMap (fun edge => edge.target.map trimHashes)

mutual
def namesOf : StateDefinition → List String
  | { stateType := _, initial, states, on := _, onDone, entry := _, exit := _ } =>
    initial.toList ++ onDone.toList.flatMap targetsOf ++ namesAmong states
def namesAmong : List (String × StateDefinition) → List String
  | [] => []
  | (key,s)::rest => key::namesOf s ++ namesAmong rest
end

mutual
def heightOf : StateDefinition → Nat
  | { stateType := _, initial := _, states, on := _, onDone := _, entry := _, exit := _ } => heightAmong states + 1
def heightAmong : List (String × StateDefinition) → Nat
  | [] => 0
  | (_,s)::rest => max (heightOf s) (heightAmong rest)
end

theorem namesWhole (node : StateDefinition) :
    namesOf node = node.initial.toList ++ node.onDone.toList.flatMap targetsOf ++ namesAmong node.states := by
  cases node
  rw [namesOf]

theorem heightWhole (node : StateDefinition) : heightOf node = heightAmong node.states + 1 := by
  cases node
  rw [heightOf]

theorem namesGet {key : String} {node : StateDefinition} {states : List (String × StateDefinition)} (mem : (key,node) ∈ states) :
    key ∈ namesAmong states ∧ List.Sublist (namesOf node) (namesAmong states) := by
  induction states with
  | nil => cases mem
  | cons e rest ih =>
    obtain ⟨k,s⟩ := e
    rw [namesAmong]
    rcases List.mem_cons.mp mem with here | later
    · cases here
      exact ⟨by simp,(List.sublist_append_left _ _).cons _⟩
    · obtain ⟨known,below⟩ := ih later
      exact ⟨by simp [known],(below.trans (List.sublist_append_right _ _)).cons _⟩

theorem namesBelow (node : StateDefinition) : List.Sublist (namesAmong node.states) (namesOf node) := by
  rw [namesWhole]
  exact List.sublist_append_right _ _

theorem heightGet {key : String} {node : StateDefinition} {states : List (String × StateDefinition)} (mem : (key,node) ∈ states) :
    heightAmong node.states + 1 ≤ heightAmong states := by
  induction states with
  | nil => cases mem
  | cons e rest ih =>
    obtain ⟨k,s⟩ := e
    rw [heightAmong]
    rcases List.mem_cons.mp mem with here | later
    · cases here
      rw [heightWhole]
      exact le_max_left _ _
    · exact (ih later).trans (le_max_right _ _)

section
variable {names : Finset String}

theorem nodeNamed {states : List (String × StateDefinition)} {path : List String} {node : StateDefinition}
    (known : ∀ name ∈ namesAmong states, name ∈ names) (here : getNodeIn states path = some node) :
    (∀ part ∈ path, part ∈ names) ∧ List.Sublist (namesOf node) (namesAmong states) ∧
      path.length + heightAmong node.states ≤ heightAmong states := by
  induction path generalizing states with
  | nil => cases here
  | cons seg rest ih =>
    cases rest with
    | nil =>
      have mem := Keyed.getSome here
      obtain ⟨key,below⟩ := namesGet mem
      have room := heightGet mem
      refine ⟨by simpa using known _ key,below,?_⟩
      rw [List.length_singleton]
      omega
    | cons next rest =>
      obtain ⟨cur,found,deeper⟩ := Option.bind_eq_some_iff.mp here
      have mem := Keyed.getSome found
      obtain ⟨key,below⟩ := namesGet mem
      have room := heightGet mem
      have inner := (namesBelow cur).trans below
      obtain ⟨parts,own,fits⟩ := @ih cur.states (fun name inside => known name (inner.subset inside)) deeper
      refine ⟨List.forall_mem_cons.mpr ⟨known _ key,parts⟩,own.trans inner,?_⟩
      rw [List.length_cons]
      omega

mutual
theorem belowNamed (target : String) : ∀ (node : StateDefinition) (cur path : List String), findPathBelow target cur node = some path →
    (∀ name ∈ namesAmong node.states, name ∈ names) → (∀ part ∈ cur, part ∈ names) →
    (∀ part ∈ path, part ∈ names) ∧ path.length ≤ cur.length + heightAmong node.states
  | { stateType, initial, states, on, onDone, entry, exit }, cur, path, here, known, above => foundNamed target states cur path here known above
theorem foundNamed (target : String) : ∀ (states : List (String × StateDefinition)) (above path : List String),
    findPathRecursive target above states = some path → (∀ name ∈ namesAmong states, name ∈ names) → (∀ part ∈ above, part ∈ names) →
    (∀ part ∈ path, part ∈ names) ∧ path.length ≤ above.length + heightAmong states
  | [], _, _, here, _, _ => by cases here
  | (k,v)::rest, above, path, here, known, cur => by
    obtain ⟨key,below⟩ := namesGet (List.mem_cons_self (a := (k,v)) (l := rest))
    have deeper : ∀ part ∈ above ++ [k], part ∈ names := by
      intro part mem
      rcases List.mem_append.mp mem with old | own
      · exact cur part old
      · exact List.mem_singleton.mp own ▸ known k key
    have room := heightGet (List.mem_cons_self (a := (k,v)) (l := rest))
    rw [findPathRecursive] at here
    split at here
    · cases here
      refine ⟨deeper,?_⟩
      rw [List.length_append,List.length_singleton]
      omega
    · rcases Option.or_eq_some_iff.mp here with first | ⟨_,later⟩
      · obtain ⟨parts,fits⟩ := belowNamed target v (above ++ [k]) path first (fun name mem => known name (((namesBelow v).trans below).subset mem)) deeper
        rw [List.length_append,List.length_singleton] at fits
        exact ⟨parts,by omega⟩
      · obtain ⟨parts,fits⟩ := foundNamed target rest above path later (fun name mem => known name (by simp [namesAmong,mem])) cur
        rw [heightAmong]
        exact ⟨parts,fits.trans (Nat.add_le_add_left (le_max_right _ _) _)⟩
end

/-- A target path is of known names, and fits into the machine or is the mere name of a target that is missing. -/
theorem targetNamed {m : MachineDefinition} {sourcePath : List String} {targetRef : String} (known : ∀ name ∈ namesAmong m.states, name ∈ names)
    (target : trimHashes targetRef ∈ names) : (∀ part ∈ resolveTargetPath m sourcePath targetRef, part ∈ names) ∧
      (resolveTargetPath m sourcePath targetRef).length ≤ heightAmong m.states + 1 := by
  have alone : ∀ part ∈ [trimHashes targetRef], part ∈ names := by simpa using target
  simp only [resolveTargetPath]
  split
  · exact ⟨alone,by simp⟩
  · split
    · rename_i candidate here
      obtain ⟨node,leads⟩ := Option.isSome_iff_exists.mp (List.find?_some (p := fun path => (getNodeByPath m path).isSome) here)
      obtain ⟨parts,_,fits⟩ := nodeNamed known leads
      exact ⟨parts,by omega⟩
    · cases found : findPathRecursive (trimHashes targetRef) [] m.states with
      | none => exact ⟨alone,by simp⟩
      | some path =>
        obtain ⟨parts,fits⟩ := foundNamed _ m.states [] path found known (by simp)
        rw [List.length_nil] at fits
        exact ⟨parts,by simp only [Option.getD_some]; omega⟩

end

/-! What is entered is of known names, and as deep as what it is resolved from. -/

theorem tameOne {names : Finset String} {width : Nat} {key : String} {value : StateValue} (enough : names.card ≤ width) (mem : key ∈ names)
    (tame : Tame names width value) : Tame names width (.obj [(key,value)]) := Go.tameSingle enough mem tame

theorem shallowOne {depth : Nat} {key : String} {value : StateValue} : shallow (depth+1) (.obj [(key,value)]) ↔ shallow depth value := by
  simp [shallow]

theorem regionsFew (states : List (String × StateDefinition)) : (resolveRegions states).length ≤ (namesAmong states).length := by
  induction states with
  | nil => simp [resolveRegions]
  | cons e rest ih =>
    obtain ⟨k,region⟩ := e
    have own : ((resolveRegion region).map (k,·)).toList.length ≤ 1 := by
      cases resolveRegion region <;> simp
    rw [resolveRegions,namesAmong,List.length_append,List.length_append,List.length_cons]
    omega

section
variable {names : Finset String} {width : Nat}

theorem tameRegions {regions : List (String × StateValue × List String)} (enough : names.card + regions.length ≤ width)
    (each : ∀ r ∈ regions, r.1 ∈ names ∧ Tame names width r.2.1) : Tame names width (.obj (regions.map (fun r => (r.1,r.2.1)))) := by
  refine .obj ?_ (fun e mem => ?_) (fun e mem => ?_)
  · have all := Finset.card_filter_le names (fun key => Go.placed key (regions.map (fun r => (r.1,r.2.1))) = false)
    rw [List.length_map]
    unfold Go.unplaced
    omega
  · obtain ⟨r,inside,rfl⟩ := List.mem_map.mp mem
    exact (each r inside).1
  · obtain ⟨r,inside,rfl⟩ := List.mem_map.mp mem
    exact (each r inside).2

mutual
theorem tameNode : ∀ (node : StateDefinition) (nodeId : String), names.card + (namesOf node).length ≤ width → nodeId ∈ names →
    (∀ name ∈ namesOf node, name ∈ names) →
    Tame names width (resolveNode nodeId node).1 ∧ shallow (heightOf node + 1) (resolveNode nodeId node).1
  | { stateType, initial, states, on, onDone, entry, exit }, nodeId, enough, own, known => by
    have plain : Tame names width (leaf nodeId) ∧ shallow (heightAmong states + 2) (leaf nodeId) := ⟨.str own,trivial⟩
    rw [namesOf,List.length_append] at enough
    have below : ∀ name ∈ namesAmong states, name ∈ names := fun name mem => known name (by rw [namesOf]; exact List.mem_append_right _ mem)
    simp only [resolveNode,heightOf]
    split
    · have each := tameAmong states (by omega) below
      have few := regionsFew states
      refine ⟨tameOne (by omega) own (tameRegions (by omega) (fun r mem => ⟨(each r mem).1,(each r mem).2.1⟩)),shallowOne.mpr ?_⟩
      intro e mem
      obtain ⟨r,inside,rfl⟩ := List.mem_map.mp mem
      exact (each r inside).2.2
    · split
      · cases initial with
        | none => exact plain
        | some init =>
          obtain ⟨tame,flat⟩ := tameInitial states init (by omega) (known init (by simp [namesOf])) below
          exact ⟨tameOne (by omega) own tame,shallowOne.mpr flat⟩
      · exact plain
theorem tameInitial : ∀ (states : List (String × StateDefinition)) (nodeId : String), names.card + (namesAmong states).length ≤ width →
    nodeId ∈ names → (∀ name ∈ namesAmong states, name ∈ names) →
    Tame names width (resolveInitialNode nodeId states).1 ∧ shallow (heightAmong states + 1) (resolveInitialNode nodeId states).1
  | [], _, _, own, _ => ⟨.str own,trivial⟩
  | (k,v)::rest, nodeId, enough, own, known => by
    rw [namesAmong,List.length_append,List.length_cons] at enough
    rw [resolveInitialNode,heightAmong]
    split
    · obtain ⟨tame,flat⟩ := tameNode v nodeId (by omega) own (fun name mem => known name (by simp [namesAmong,mem]))
      exact ⟨tame,shallowMono (Nat.add_le_add_right (le_max_left _ _) _) flat⟩
    · obtain ⟨tame,flat⟩ := tameInitial rest nodeId (by omega) own (fun name mem => known name (by simp [namesAmong,mem]))
      exact ⟨tame,shallowMono (Nat.add_le_add_right (le_max_right _ _) _) flat⟩
theorem tameAmong : ∀ (states : List (String × StateDefinition)), names.card + (namesAmong states).length ≤ width →
    (∀ name ∈ namesAmong states, name ∈ names) →
    ∀ r ∈ resolveRegions states, r.1 ∈ names ∧ Tame names width r.2.1 ∧ shallow (heightAmong states) r.2.1
  | [], _, _, r, mem => by cases mem
  | (k,region)::rest, enough, known, r, mem => by
    rw [namesAmong,List.length_append,List.length_cons] at enough
    rw [resolveRegions] at mem
    rw [heightAmong]
    rcases List.mem_append.mp mem with first | later
    · obtain ⟨value,here,rfl⟩ := Option.map_eq_some_iff.mp (Option.mem_toList.mp first)
      obtain ⟨tame,flat⟩ := tameRegion region (by omega) (fun name inside => known name (by simp [namesAmong,inside])) value here
      exact ⟨known k (by simp [namesAmong]),tame,shallowMono (le_max_left _ _) flat⟩
    · obtain ⟨own,tame,flat⟩ := tameAmong rest (by omega) (fun name inside => known name (by simp [namesAmong,inside])) r later
      exact ⟨own,tame,shallowMono (le_max_right _ _) flat⟩
theorem tameRegion : ∀ (region : StateDefinition), names.card + (namesOf region).length ≤ width → (∀ name ∈ namesOf region, name ∈ names) →
    ∀ value, resolveRegion region = some value → Tame names width value.1 ∧ shallow (heightOf region) value.1
  | { stateType, initial, states, on, onDone, entry, exit }, enough, known, value, here => by
    rw [namesOf,List.length_append] at enough
    cases initial with
    | none => cases here
    | some init =>
      cases here
      rw [heightOf]
      refine tameInitial states init (by omega) (known init (by simp [namesOf])) (fun name mem => known name ?_)
      rw [namesOf]
      exact List.mem_append_right _ mem
end

theorem tameEntered {node : StateDefinition} {targetLeaf : String} (enough : names.card + (namesOf node).length ≤ width)
    (own : targetLeaf ∈ names) (known : ∀ name ∈ namesOf node, name ∈ names) :
    Tame names width (enterTarget targetLeaf (some node)).1 ∧ shallow (heightAmong node.states + 1) (enterTarget targetLeaf (some node)).1 := by
  have plain : Tame names width (leaf targetLeaf) ∧ shallow (heightAmong node.states + 1) (leaf targetLeaf) := ⟨.str own,trivial⟩
  rw [namesWhole,List.length_append] at enough
  have below : ∀ name ∈ namesAmong node.states, name ∈ names := fun name mem => known name (by simp [namesWhole,mem])
  simp only [enterTarget]
  split
  · have each := @tameAmong names width node.states (by omega) below
    have few := regionsFew node.states
    refine ⟨tameRegions (by omega) (fun r mem => ⟨(each r mem).1,(each r mem).2.1⟩),fun e mem => ?_⟩
    obtain ⟨r,inside,rfl⟩ := List.mem_map.mp mem
    exact (each r inside).2.2
  · split
    · split
      · rename_i init here
        exact tameInitial node.states init (by omega) (known init (by simp [namesWhole,here])) below
      · exact plain
    · exact plain

end

/-! What a transition builds, at its depth in the value. -/

theorem shallowGet {depth : Nat} {key : String} {value : StateValue} {entries : Record StateValue} (flat : shallow depth (.obj entries))
    (here : Keyed.get entries key = some value) : 0 < depth ∧ shallow (depth-1) value := by
  cases depth with
  | zero => cases flat
  | succ depth => exact ⟨Nat.succ_pos depth,flat _ (Keyed.getSome here)⟩

theorem shallowPut {depth : Nat} {key : String} {value : StateValue} {entries : Record StateValue} (flat : shallow (depth+1) (.obj entries))
    (own : shallow depth value) : shallow (depth+1) (.obj (put key value entries)) := by
  intro e mem
  rcases memPut mem with rfl | old
  · exact own
  · exact flat e old

theorem shallowCursor {depth : Nat} {cursor value : StateValue} {parts : List String} (flat : shallow depth cursor)
    (here : extractCursor cursor parts = some value) : shallow (depth - parts.length) value := by
  induction parts generalizing depth cursor with
  | nil =>
    cases cursor <;> cases here <;> exact flat
  | cons part rest ih =>
    cases cursor with
    | str => cases here
    | obj entries =>
      obtain ⟨child,found,below⟩ := Option.bind_eq_some_iff.mp here
      have deeper := ih (shallowGet flat found).2 below
      rw [List.length_cons]
      rwa [Nat.sub_sub,Nat.add_comm 1] at deeper

theorem shallowExtract {depth : Nat} {root : StateValue} {path : List String} (flat : shallow depth root) (room : path.length < depth) :
    shallow (depth - path.length) (.obj (extractRegions root path)) := by
  obtain ⟨rest,more⟩ : ∃ rest, depth - path.length = rest + 1 := ⟨depth - path.length - 1,by omega⟩
  unfold extractRegions
  split
  · rename_i regions here
    exact shallowCursor flat here
  · rw [more]
    simp [shallow]

section
variable {names : Finset String} {width depth : Nat} {m : MachineDefinition} {current enteredTarget : StateValue}

theorem tameExtract {path : List String} (enough : names.card ≤ width) (here : Tame names width current) :
    Tame names width (.obj (extractRegions current path)) := by
  unfold extractRegions
  split
  · rename_i regions found
    exact Go.tameCursor here found
  · exact Go.tameEmpty enough

/-- What is built for a path is its first segment, or a map with that one entry. -/
def Headed (key : String) (v : StateValue) : Prop := (∃ name, v = .str name) ∨ ∃ below, v = .obj [(key,below)]

theorem builtHeaded {front rest : List String} {key : String} (entered : Headed ((key::rest).getLast (by simp)) enteredTarget) :
    Headed key (builtBranch m current enteredTarget front (key::rest)) := by
  cases rest with
  | nil => exact entered
  | cons regionKey rest =>
    rw [builtBranch]
    split
    · exact .inr ⟨_,rfl⟩
    · exact .inr ⟨_,rfl⟩

theorem regionFlat {key : String} {branch : StateValue} (headed : Headed key branch) (flat : shallow (depth+1) branch) :
    shallow depth (regionValue branch key) := by
  rcases headed with ⟨name,rfl⟩ | ⟨below,rfl⟩
  · cases depth <;> trivial
  · have own : regionValue (.obj [(key,below)]) key = below := by simp [regionValue,Keyed.getSingle]
    rw [own]
    exact shallowOne.mp flat

theorem tameBuilt (enough : names.card ≤ width) (here : Tame names width current) (tame : Tame names width enteredTarget)
    {front parts : List String} (known : ∀ part ∈ parts, part ∈ names) :
    Tame names width (builtBranch m current enteredTarget front parts) := by
  induction parts generalizing front with
  | nil => exact tame
  | cons ancKey rest ih =>
    cases rest with
    | nil => exact tame
    | cons regionKey rest =>
      have branch := @ih (front ++ [ancKey]) (fun part mem => known part (List.mem_cons_of_mem _ mem))
      have anc := known ancKey List.mem_cons_self
      rw [builtBranch]
      split
      · exact tameOne enough anc (Go.tamePut (known regionKey (by simp)) (Go.tameRegion regionKey branch) (tameExtract enough here))
      · exact tameOne enough anc branch

theorem flatBuilt (here : shallow depth current) {front rest : List String} {key : String} (room : front.length + rest.length + 1 < depth)
    (entered : Headed ((key::rest).getLast (by simp)) enteredTarget) (flat : shallow (depth - (front.length + rest.length + 1)) enteredTarget) :
    shallow (depth - front.length) (builtBranch m current enteredTarget front (key::rest)) := by
  induction rest generalizing front key with
  | nil =>
    rw [builtBranch]
    · exact shallowMono (by simp only [List.length_nil]; omega) flat
    · simp
  | cons regionKey rest ih =>
    rw [List.length_cons] at room flat
    have longer : (front ++ [key]).length = front.length + 1 := by simp
    have branch := @ih (front ++ [key]) regionKey (by omega) entered (shallowMono (by omega) flat)
    have headed := @builtHeaded m current enteredTarget (front ++ [key]) rest regionKey entered
    have kept := @shallowExtract depth current (front ++ [key]) here (by omega)
    obtain ⟨left,more⟩ : ∃ left, depth - front.length = left + 2 := ⟨depth - front.length - 2,by omega⟩
    have below : depth - (front ++ [key]).length = left + 1 := by omega
    rw [below] at branch kept
    rw [more,builtBranch]
    split
    · exact shallowOne.mpr (shallowPut kept (regionFlat headed branch))
    · exact shallowOne.mpr branch

theorem tameReplaced (enough : names.card ≤ width) {branch : StateValue} (tame : Tame names width branch) {lcaPath : List String}
    (known : ∀ part ∈ lcaPath, part ∈ names) (here : Tame names width current) : Tame names width (replaceAtLca current lcaPath branch) := by
  induction lcaPath generalizing current with
  | nil =>
    cases current <;> exact tame
  | cons head rest ih =>
    cases current with
    | str name =>
      obtain ⟨mem⟩ := here
      exact tameOne enough mem tame
    | obj map =>
      rw [replaceAtLca]
      refine Go.tamePut (known head List.mem_cons_self) ?_ here
      cases found : Keyed.get map head with
      | none => exact tame
      | some child => exact ih (fun part mem => known part (List.mem_cons_of_mem _ mem)) (Go.tameGet here found)

theorem flatReplaced {branch : StateValue} {lcaPath : List String} (room : lcaPath.length ≤ depth) (flat : shallow (depth - lcaPath.length) branch)
    (here : shallow depth current) : shallow depth (replaceAtLca current lcaPath branch) := by
  induction lcaPath generalizing depth current with
  | nil =>
    cases current <;> exact flat
  | cons head rest ih =>
    rw [List.length_cons] at room flat
    obtain ⟨left,rfl⟩ : ∃ left, depth = left + 1 := ⟨depth - 1,by omega⟩
    rw [Nat.add_sub_add_right] at flat
    have higher : shallow left branch := shallowMono (Nat.sub_le _ _) flat
    cases current with
    | str name => exact shallowOne.mpr higher
    | obj map =>
      rw [replaceAtLca]
      refine shallowPut here ?_
      cases found : Keyed.get map head with
      | none => exact higher
      | some child => exact ih (by omega) flat (shallowGet here found).2

theorem tameApplied (enough : names.card + (namesAmong m.states).length ≤ width) (blank : "" ∈ names)
    (known : ∀ name ∈ namesAmong m.states, name ∈ names) {targetName : String} (target : trimHashes targetName ∈ names)
    (deep : heightAmong m.states + 2 ≤ depth) (sourcePath : List String) (here : Tame names width current ∧ shallow depth current) :
    Tame names width (applyTargetTransition m current sourcePath targetName).nextStateValue ∧
      shallow depth (applyTargetTransition m current sourcePath targetName).nextStateValue := by
  obtain ⟨tame,flat⟩ := here
  obtain ⟨parts,fits⟩ := @targetNamed names m sourcePath targetName known target
  have few : names.card ≤ width := by omega
  simp only [applyTargetTransition]
  generalize resolveTargetPath m sourcePath targetName = targetPath at parts fits
  have own : targetPath.getLastD "" ∈ names := by
    cases targetPath with
    | nil => exact blank
    | cons first rest => exact parts _ (by simp [List.getLastD])
  have entered : Tame names width (enterTarget (targetPath.getLastD "") (getNodeByPath m targetPath)).1 ∧
      shallow (depth - targetPath.length - 1) (enterTarget (targetPath.getLastD "") (getNodeByPath m targetPath)).1 := by
    cases found : getNodeByPath m targetPath with
    | none => exact ⟨.str own,by simp [enterTarget,leaf,shallow]⟩
    | some node =>
      obtain ⟨_,below,room⟩ := nodeNamed known found
      have width_ := below.length_le
      obtain ⟨tame_,flat_⟩ := @tameEntered names width node _ (by omega) own (fun name mem => known name (below.subset mem))
      exact ⟨tame_,shallowMono (by omega) flat_⟩
  generalize (enterTarget (targetPath.getLastD "") (getNodeByPath m targetPath)).1 = targetSubval at entered
  have built : Tame names width (if targetSubval = leaf (targetPath.getLastD "") then leaf (targetPath.getLastD "")
        else .obj [(targetPath.getLastD "",targetSubval)]) ∧
      shallow (depth - targetPath.length) (if targetSubval = leaf (targetPath.getLastD "") then leaf (targetPath.getLastD "")
        else .obj [(targetPath.getLastD "",targetSubval)]) ∧
      Headed (targetPath.getLastD "") (if targetSubval = leaf (targetPath.getLastD "") then leaf (targetPath.getLastD "")
        else .obj [(targetPath.getLastD "",targetSubval)]) := by
    split
    · exact ⟨.str own,by simp [leaf,shallow],.inl ⟨_,rfl⟩⟩
    · obtain ⟨left,more⟩ : ∃ left, depth - targetPath.length = left + 1 := ⟨depth - targetPath.length - 1,by omega⟩
      rw [more,Nat.add_sub_cancel] at entered
      rw [more]
      exact ⟨tameOne few own entered.1,shallowOne.mpr entered.2,.inr ⟨_,rfl⟩⟩
  generalize (if targetSubval = leaf (targetPath.getLastD "") then leaf (targetPath.getLastD "")
        else .obj [(targetPath.getLastD "",targetSubval)] : StateValue) = enteredTarget at built
  obtain ⟨builtTame,builtFlat,headed⟩ := built
  by_cases any : targetPath = []
  · subst any
    have no : commonSegments sourcePath [] = [] := by
      cases sourcePath with
      | nil => rfl
      | cons s rest => cases rest <;> rfl
    rw [no]
    exact ⟨builtTame,builtFlat⟩
  · obtain ⟨key,rest,split_⟩ := commonSplit sourcePath targetPath any
    have lca : ∀ part ∈ commonSegments sourcePath targetPath, part ∈ names := fun part mem => parts part (by rw [split_]; exact List.mem_append_left _ mem)
    generalize commonSegments sourcePath targetPath = lcaParts at split_ lca
    subst split_
    have own : (lcaParts ++ key::rest).getLastD "" = (key::rest).getLast (by simp) := by
      rw [List.getLastD_eq_getLast?,List.getLast?_append_of_ne_nil _ (List.cons_ne_nil _ _),List.getLast?_eq_some_getLast (List.cons_ne_nil _ _)]
      rfl
    rw [List.length_append,List.length_cons] at fits builtFlat
    rw [List.drop_left]
    have branchTame := @tameBuilt names width m current enteredTarget few tame builtTame lcaParts (key::rest)
      (fun part mem => parts part (List.mem_append_right _ mem))
    have branchFlat := @flatBuilt depth m current enteredTarget flat lcaParts rest key (by omega) (own ▸ headed) builtFlat
    split
    · rename_i empty
      cases List.isEmpty_iff.mp empty
      exact ⟨branchTame,branchFlat⟩
    · exact ⟨tameReplaced few branchTame lca tame,flatReplaced (by omega) branchFlat flat⟩

theorem pendingNamed {pending : PendingOnDone} {target : String} (here : findPendingOnDone m current = some pending)
    (has : pending.edge.target = some target) : trimHashes target ∈ namesAmong m.states := by
  rw [findPendingOnDone,searchFinds] at here
  obtain ⟨c,mem,takes⟩ := List.exists_of_findSome?_eq_some here
  have inside : ∀ {states : List (String × StateDefinition)} {v : StateValue} {c : Container}, ActiveIn states v c →
      List.Sublist (namesOf c.node) (namesAmong states) := by
    intro states v c active
    induction active with
    | here _ found => exact (namesGet (Keyed.getSome found)).2
    | inner _ found _ ih => exact ih.trans ((namesBelow _).trans (namesGet (Keyed.getSome found)).2)
  obtain ⟨active,_⟩ := listed.mp mem
  refine (inside active).subset ?_
  simp only [taken] at takes
  split at takes
  · obtain ⟨onDone,own,rfl⟩ := Option.map_eq_some_iff.mp takes
    rw [namesWhole,own]
    refine List.mem_append_left _ (List.mem_append_right _ (List.mem_flatMap.mpr ⟨onDone,by simp,?_⟩))
    unfold targetsOf
    cases edges : TransitionValue.details onDone with
    | nil =>
      rw [edges] at has
      cases has
    | cons edge more =>
      rw [edges] at has
      exact List.mem_filterMap.mpr ⟨edge,List.mem_cons_self,by rw [show edge.target = some target from has]; rfl⟩
  · cases takes

end

/-! The loop. -/

section
variable (m : MachineDefinition)

/-- One turn of the loop that does not end it. -/
def turn (sv : StateValue) : Option StateValue :=
  (findPendingOnDone m sv).bind (fun pending =>
    pending.edge.target.map (fun target => (applyTargetTransition m sv pending.sourcePath target).nextStateValue))

/-- The completion of a container that is done leads from a value to the next. -/
def Completes (sv next : StateValue) : Prop := turn m sv = some next

/-- The completions lead to a value that they lead back to. -/
def ComesBack (sv : StateValue) : Prop := ∃ v, Relation.ReflTransGen (Completes m) sv v ∧ Relation.TransGen (Completes m) v v

end

def DfsmActor.CascadeEnds {Context Data : Type} (a : DfsmActor Context Data) (sv : StateValue) : Prop :=
  ∃ rounds, a.cascadeOnDone rounds sv ≠ .error .running

theorem stillRunning {Context Data : Type} (a : DfsmActor Context Data) (rounds : Nat) (sv : StateValue) :
    a.cascadeOnDone rounds sv = .error .running ↔ Endless.after (turn a.machine) rounds sv ≠ none := by
  induction rounds generalizing sv with
  | zero => simp [DfsmActor.cascadeOnDone,Endless.after]
  | succ rounds ih =>
    rw [DfsmActor.cascadeOnDone,Endless.after,turn]
    cases findPendingOnDone a.machine sv with
    | none => simp
    | some pending =>
      simp only [Option.bind_some]
      cases pending.edge.target with
      | none => simp
      | some target => exact ih _

/-- All that a value leads to is built of finitely many names, in maps of a bounded size, and at a bounded depth. -/
theorem leadsFew (m : MachineDefinition) (sv : StateValue) :
    ∃ names width depth, ∀ v, Relation.ReflTransGen (Completes m) sv v → Tame names width v ∧ shallow depth v := by
  obtain ⟨least,tame⟩ := @Go.tameValue ("" :: namesAmong m.states ++ Go.stringsOf sv).toFinset sv (fun text mem => by simp [mem])
  obtain ⟨depth,flat⟩ := Go.someDepth sv
  refine ⟨("" :: namesAmong m.states ++ Go.stringsOf sv).toFinset,
    max least (("" :: namesAmong m.states ++ Go.stringsOf sv).toFinset.card + (namesAmong m.states).length),
    max depth (heightAmong m.states + 2),fun v leads => ?_⟩
  induction leads with
  | refl => exact ⟨tame _ (le_max_left _ _),shallowMono (le_max_left _ _) flat⟩
  | tail _ last ih =>
    obtain ⟨pending,found,here⟩ := Option.bind_eq_some_iff.mp last
    obtain ⟨target,has,rfl⟩ := Option.map_eq_some_iff.mp here
    refine tameApplied (le_max_right _ _) (by simp) (fun name mem => by simp [mem]) ?_ (le_max_right _ _) _ ih
    simp [pendingNamed found has]

theorem cascadeStops {Context Data : Type} (a : DfsmActor Context Data) (sv : StateValue) : a.CascadeEnds sv ↔ ¬ComesBack a.machine sv := by
  obtain ⟨names,width,depth,few⟩ := leadsFew a.machine sv
  refine Iff.trans (exists_congr (fun rounds => ?_)) (Endless.stops (Go.tameFew names width depth) few)
  rw [ne_eq,stillRunning,not_not]

/-- A job is restarted as soon as its stage is ready, though no stage is ever final. -/
def forge : DfsmActor Unit Unit where
  machine := { id := "forge", initial := "idle", states := [
    ("idle",{ on := [("work",.target "job")] }),
    ("job",{ initial := some "stage", onDone := some (.target "job"), states := [
      ("stage",{ initial := some "ready", states := [("ready",{ stateType := some "final" })] })] })] }
  registry := {
    transitions := [("work",{})], defaultContext := (), contextJson := fun _ => "{}"
    parseContext := fun _ => some (), fromValue := fun _ => some (), valueText := fun _ => "null", parseValue := fun _ => some () }

def forgeWorks : StateValue := .obj [("job",.obj [("stage",leaf "ready")])]

/-- What the first event leads to, before the loop. -/
def Begun (m : MachineDefinition) (sv : StateValue) : Prop :=
  ∃ event matched, (resolveTransitionsForEvent m (resolveInitialState m).stateValue event).head? = some matched ∧
    sv = (applyTargetTransition m (resolveInitialState m).stateValue matched.sourcePath (DfsmActor.targetName matched)).nextStateValue

end Dfsm.Rust
