import Mathlib.Data.List.Sort
import Dfsm.Java.Portable
import Dfsm.Engine.KeyOrder

/-! The Java engine in step with the reference engine: over portable keys no run of it goes
another way. -/
namespace Dfsm.Java
open Keyed (Record)

/-! Values made of such keys, and the paths of their leaves. -/

inductive Spelled : StateValue → Prop where
  | str {key} (here : Portable key) : Spelled (.str key)
  | obj {entries} (keys : ∀ e ∈ entries, Portable e.1) (each : ∀ e ∈ entries, Spelled e.2) : Spelled (.obj entries)

theorem childTrail {front : List String} (known : ∀ k ∈ front, Portable k) {key : String} (here : Portable key) :
    ∃ ks, (∀ k ∈ ks, Portable k) ∧ childPath (Dotted.join front) key = Dotted.join ks ∧ ks ≠ [] := by
  refine ⟨front ++ [key],?_,childPathJoin (fun k mem => (known k mem).plain) key,by simp⟩
  intro k mem
  rcases List.mem_append.mp mem with above | last
  · exact known k above
  · exact List.mem_singleton.mp last ▸ here

theorem appendTrail {front : List String} (known : ∀ k ∈ front, Portable k) (some : front ≠ []) {key : String} (here : Portable key) :
    ∃ ks, (∀ k ∈ ks, Portable k) ∧ Dotted.join front ++ "." ++ key = Dotted.join ks ∧ ks ≠ [] := by
  refine ⟨front ++ [key],?_,(Dotted.joinSnoc some key).symm,by simp⟩
  intro k mem
  rcases List.mem_append.mp mem with above | last
  · exact known k above
  · exact List.mem_singleton.mp last ▸ here

section
variable {machine : RawMachine} (portable : KeysPortable machine)
include portable

mutual
theorem leavesSame : (v : StateValue) → (path : String) → getActiveLeafPaths machine v path = Dfsm.getActiveLeafPaths machine v path
  | .str leaf, path => by
    rw [getActiveLeafPaths,Dfsm.getActiveLeafPaths]
    rfl
  | .obj entries, path => by
    rw [getActiveLeafPaths,Dfsm.getActiveLeafPaths]
    exact entryLeavesSame entries path
theorem entryLeavesSame : (entries : List (String × StateValue)) → (path : String) →
    leafPathsOfEntries machine entries path = Dfsm.leafPathsOfEntries machine entries path
  | [], path => rfl
  | (key,.str leaf)::rest, path => by
    rw [leafPathsOfEntries,Dfsm.leafPathsOfEntries,entryLeavesSame rest,leavesSame (.str leaf)]
    simp only [ite_self]
    rfl
  | (key,.obj inner)::rest, path => by
    rw [leafPathsOfEntries,Dfsm.leafPathsOfEntries,entryLeavesSame rest,Dfsm.getActiveLeafPaths]
    simp only [typeSame portable,decide_eq_true_eq,regionLeavesSame inner,entryLeavesSame inner]
    rfl
theorem regionLeavesSame : (regions : List (String × StateValue)) → (path : String) →
    leafPathsOfRegions machine regions path = Dfsm.leafPathsOfRegions machine regions path
  | [], path => rfl
  | (key,.str leaf)::rest, path => by
    rw [leafPathsOfRegions,Dfsm.leafPathsOfRegions,regionLeavesSame rest,nodeSame portable]
    cases Dfsm.getNodeByPath machine (path ++ "." ++ key) <;> simp [isLeaf,StateNodeIR.isLeaf]
  | (key,.obj inner)::rest, path => by
    rw [leafPathsOfRegions,Dfsm.leafPathsOfRegions,regionLeavesSame rest,nodeSame portable]
    rw [entryLeavesSame inner]
    cases Dfsm.getNodeByPath machine (path ++ "." ++ key) <;> simp [isLeaf,StateNodeIR.isLeaf]
end

end

section
variable {machine : RawMachine}

mutual
theorem leafTrails : (v : StateValue) → Spelled v → (front : List String) → (∀ k ∈ front, Portable k) →
    ∀ path ∈ Dfsm.getActiveLeafPaths machine v (Dotted.join front), Trail path
  | .str leaf, spelled, front, known, path, mem => by
    rw [Dfsm.getActiveLeafPaths,List.mem_singleton] at mem
    subst mem
    cases spelled with
    | str here =>
      obtain ⟨ks,all,same,some⟩ := childTrail known here
      exact ⟨ks,some,all,same⟩
  | .obj entries, spelled, front, known, path, mem => by
    rw [Dfsm.getActiveLeafPaths] at mem
    cases spelled with
    | obj keys each => exact entryTrails entries keys each front known path mem
theorem entryTrails : (entries : List (String × StateValue)) → (∀ e ∈ entries, Portable e.1) → (∀ e ∈ entries, Spelled e.2) →
    (front : List String) → (∀ k ∈ front, Portable k) →
    ∀ path ∈ Dfsm.leafPathsOfEntries machine entries (Dotted.join front), Trail path
  | [], _, _, _, _, path, mem => by simp [Dfsm.leafPathsOfEntries] at mem
  | (key,v)::rest, keys, each, front, known, path, mem => by
    obtain ⟨here,later⟩ := List.forall_mem_cons.mp keys
    obtain ⟨first,others⟩ := List.forall_mem_cons.mp each
    obtain ⟨ks,all,same,some⟩ := childTrail known here
    cases v with
    | str leaf =>
      rw [Dfsm.leafPathsOfEntries,same] at mem
      rcases List.mem_append.mp mem with inside | outside
      · exact leafTrails (.str leaf) first ks all path (by simpa using inside)
      · exact entryTrails rest later others front known path outside
    | obj inner =>
      rw [Dfsm.leafPathsOfEntries,same,Dfsm.getActiveLeafPaths] at mem
      rcases List.mem_append.mp mem with inside | outside
      · cases first with
        | obj innerKeys innerEach =>
          split at inside
          · exact regionTrails inner innerKeys innerEach ks all some path inside
          · exact entryTrails inner innerKeys innerEach ks all path inside
      · exact entryTrails rest later others front known path outside
theorem regionTrails : (regions : List (String × StateValue)) → (∀ e ∈ regions, Portable e.1) → (∀ e ∈ regions, Spelled e.2) →
    (front : List String) → (∀ k ∈ front, Portable k) → front ≠ [] →
    ∀ path ∈ Dfsm.leafPathsOfRegions machine regions (Dotted.join front), Trail path
  | [], _, _, _, _, _, path, mem => by simp [Dfsm.leafPathsOfRegions] at mem
  | (key,v)::rest, keys, each, front, known, above, path, mem => by
    obtain ⟨here,later⟩ := List.forall_mem_cons.mp keys
    obtain ⟨first,others⟩ := List.forall_mem_cons.mp each
    obtain ⟨ks,all,same,some⟩ := appendTrail known above here
    cases v with
    | str leaf =>
      rw [Dfsm.leafPathsOfRegions,same] at mem
      rcases List.mem_append.mp mem with inside | outside
      · split at inside
        · exact ⟨ks,some,all,List.mem_singleton.mp inside⟩
        · cases first with
          | str leafHere =>
            obtain ⟨ls,lsAll,lsSame,lsSome⟩ := appendTrail all some leafHere
            exact ⟨ls,lsSome,lsAll,(List.mem_singleton.mp inside).trans lsSame⟩
      · exact regionTrails rest later others front known above path outside
    | obj inner =>
      rw [Dfsm.leafPathsOfRegions,same] at mem
      rcases List.mem_append.mp mem with inside | outside
      · split at inside
        · exact ⟨ks,some,all,List.mem_singleton.mp inside⟩
        · cases first with
          | obj innerKeys innerEach => exact entryTrails inner innerKeys innerEach ks all path inside
      · exact regionTrails rest later others front known above path outside
end

theorem activeTrails {v : StateValue} (spelled : Spelled v) : ∀ path ∈ Dfsm.getActiveLeafPaths machine v "", Trail path :=
  leafTrails v spelled [] (by simp)

theorem candidatesSame {path : String} (trail : Trail path) : candidatePaths path = Dfsm.candidatePaths path := by
  rw [candidatePaths,Dfsm.candidatePaths,trailSplit trail]

theorem candidateTrail {path candidate : String} (trail : Trail path) (mem : candidate ∈ Dfsm.candidatePaths path) : Trail candidate := by
  obtain ⟨ks,some,portable,rfl⟩ := trail
  rw [Dfsm.candidatePaths,Dotted.splitJoinPlain some (fun k mem => (portable k mem).plain)] at mem
  obtain ⟨i,_,rfl⟩ := List.mem_map.mp mem
  exact trailTake portable i some

end

/-! What is entered, left and matched. -/

section
variable {machine : RawMachine} (portable : KeysPortable machine)
include portable

theorem exitsSame {v : StateValue} (spelled : Spelled v) (root : String) :
    collectBottomUpExitEffects machine v root = (exitNodes machine v root).flatMap (·.exit) := by
  have walks : ((getActiveLeafPaths machine v "").filter (inSubtree root)).flatMap (fun leaf => (candidatePaths leaf).takeWhile (inSubtree root)) =
      ((Dfsm.getActiveLeafPaths machine v "").filter (insideSubtree root)).flatMap
        (fun leaf => (Dfsm.candidatePaths leaf).takeWhile (insideSubtree root)) := by
    rw [leavesSame portable]
    refine List.flatMap_congr (fun leaf mem => ?_)
    rw [candidatesSame (activeTrails spelled leaf (List.mem_of_mem_filter mem))]
    rfl
  have nodes (paths : List String) : paths.flatMap (fun path => ((getNodeByPath machine path).map (·.exit)).getD []) =
      (paths.filterMap (Dfsm.getNodeByPath machine)).flatMap (·.exit) := by
    induction paths with
    | nil => rfl
    | cons path rest ih =>
      rw [List.flatMap_cons,ih,nodeSame portable,List.filterMap_cons]
      cases Dfsm.getNodeByPath machine path <;> rfl
  rw [collectBottomUpExitEffects,walks,nodes]
  rfl

end

mutual
theorem enterSame : (node : StateNodeIR) → enterSubtree node =
    ⟨(Dfsm.enterSubtree node).subValue,(Dfsm.enterSubtree node).nodes.flatMap (·.entry)⟩
  | { key := _, path := _, type, initial, entry, exit := _, on := _, onDone := _, states, isImplicitError := _ } => by
    cases type with
    | atomic | final => simp [enterSubtree,Dfsm.enterSubtree]
    | compound =>
      rw [enterSubtree,Dfsm.enterSubtree,enterInitialSame states initial]
      cases Dfsm.enterInitial states initial with
      | none => simp
      | some child =>
        simp only [Option.map_some,SubtreeEntry.under,Entered.slot,List.flatMap_cons] <;> rfl
    | parallel =>
      rw [enterSubtree,Dfsm.enterSubtree,enterRegionsSame states]
      simp [List.flatMap_map,List.map_map,Function.comp_def,List.flatMap_assoc]
theorem enterInitialSame : (states : List (String × StateNodeIR)) → (initial : Option String) → enterInitial states initial =
    (Dfsm.enterInitial states initial).map (fun e => (e.1,⟨e.2.subValue,e.2.nodes.flatMap (·.entry)⟩))
  | [], _ => rfl
  | (key,node)::rest, initial => by
    rw [enterInitial,Dfsm.enterInitial,enterSame node,enterInitialSame rest initial]
    split <;> rfl
theorem enterRegionsSame : (states : List (String × StateNodeIR)) → enterRegions states =
    (Dfsm.enterRegions states).map (fun e => (e.1,⟨e.2.subValue,e.2.nodes.flatMap (·.entry)⟩))
  | [] => rfl
  | (key,node)::rest => by
    rw [enterRegions,Dfsm.enterRegions,enterSame node,enterRegionsSame rest]
    rfl
end

mutual
theorem searchSame {event : String} (own : event ∉ inheritedNames) : (node : StateNodeIR) → (v : Option StateValue) →
    searchInSubtree event node v = Dfsm.searchInSubtree event node v
  | { key, path, type, initial, entry, exit, on, onDone, states, isImplicitError }, v => by
    have mine (node : StateNodeIR) : ownMatch node event = selfMatch node event := by
      rw [ownMatch,selfMatch,if_neg (by simpa using own)] <;> rfl
    have child := searchChildSame own states
    have regions := searchRegionsSame own states
    cases type with
    | atomic | final => simp only [searchInSubtree,Dfsm.searchInSubtree,mine]
    | compound =>
      simp only [searchInSubtree,Dfsm.searchInSubtree,mine,child] <;> rfl
    | parallel =>
      simp only [searchInSubtree,Dfsm.searchInSubtree,mine,regions] <;> rfl
theorem searchChildSame {event : String} (own : event ∉ inheritedNames) : (states : List (String × StateNodeIR)) →
    (child : String) → (v : Option StateValue) → searchChild event states child v = Dfsm.searchChild event states child v
  | [], _, _ => rfl
  | (key,node)::rest, child, v => by
    rw [searchChild,Dfsm.searchChild,searchSame own node,searchChildSame own rest]
theorem searchRegionsSame {event : String} (own : event ∉ inheritedNames) : (states : List (String × StateNodeIR)) →
    (regions : Record StateValue) → searchRegions event states regions = Dfsm.searchRegions event states regions
  | [], _ => rfl
  | (key,node)::rest, regions => by
    rw [searchRegions,Dfsm.searchRegions,searchSame own node,searchRegionsSame own rest]
    rfl
end

theorem matchesSame {machine : RawMachine} {event : String} (own : event ∉ inheritedNames) (v : StateValue) :
    resolveTransitionsForEvent machine v event = Dfsm.resolveTransitionsForEvent machine v event := by
  unfold resolveTransitionsForEvent Dfsm.resolveTransitionsForEvent
  simp only [searchSame own]
  rfl

/-! What a transition makes of a value. -/

theorem commonPrefix (src tgt : List String) : commonLen (min src.length tgt.length - 1) src tgt = (commonSegments src tgt).length ∧
    tgt.take (commonSegments src tgt).length = commonSegments src tgt := by
  fun_induction commonSegments src tgt with
  | case1 s' src s t' tgt ih =>
    obtain ⟨same,front⟩ := ih
    have room : min (s::s'::src).length (s::t'::tgt).length - 1 = min (s'::src).length (t'::tgt).length - 1 + 1 := by
      simp only [List.length_cons]
      omega
    refine ⟨?_,by rw [List.length_cons,List.take_succ_cons,front]⟩
    rw [room,commonLen,if_pos rfl,same]
    rfl
  | case2 s s' src t t' tgt other =>
    have room : min (s::s'::src).length (t::t'::tgt).length - 1 = min (s'::src).length (t'::tgt).length - 1 + 1 := by
      simp only [List.length_cons]
      omega
    exact ⟨by rw [room,commonLen,if_neg other]; rfl,rfl⟩
  | case3 src tgt short =>
    refine ⟨?_,rfl⟩
    have none : min src.length tgt.length - 1 = 0 := by
      cases src with
      | nil => simp
      | cons s src => cases src with
        | nil => simp
        | cons s' src => cases tgt with
          | nil => simp
          | cons t tgt => cases tgt with
            | nil => simp
            | cons t' tgt => exact absurd rfl (short s s' src t t' tgt rfl)
    rw [none]
    rfl

theorem cursorSame (v : StateValue) (parts : List String) : extractCursor v parts = Dfsm.extractCursor v parts := by
  induction parts generalizing v with
  | nil => cases v <;> rfl
  | cons part rest ih =>
    cases v with
    | str => rfl
    | obj entries =>
      rw [extractCursor,Dfsm.extractCursor]
      cases Keyed.get entries part with
      | none => rfl
      | some child => exact ih child

theorem extractSame (v : StateValue) (path : String) : extractSubStateMap v path = extractSubStateObject v path := by
  rw [extractSubStateMap,extractSubStateObject,splitFilled,cursorSame] <;> rfl

theorem putIntoSame {current value : StateValue} {key : String} (here : Portable key) : putInto current key value = withEntry current key value := by
  cases current with
  | str => rfl
  | obj entries => rw [putInto,withEntry,putPortable here]

section
variable {machine : RawMachine} (portable : KeysPortable machine)
include portable

theorem branchSame (current entered : StateValue) (front parts : List String) (known : ∀ k ∈ parts, Portable k) :
    builtBranch machine current entered front parts = Dfsm.builtBranch machine current entered front parts := by
  induction parts generalizing front with
  | nil => rfl
  | cons key rest ih =>
    cases rest with
    | nil => rfl
    | cons region rest =>
      obtain ⟨_,later⟩ := List.forall_mem_cons.mp known
      rw [builtBranch,Dfsm.builtBranch,ih _ later]
      simp only [typeSame portable,decide_eq_true_eq,extractSame,putPortable (later region List.mem_cons_self)]
      rfl

theorem replaceSame (current branch : StateValue) (front parts : List String) (known : ∀ k ∈ parts, Portable k) (spelled : Spelled branch) :
    replaceAtLca machine current front branch parts = Dfsm.replaceAtLca machine current front branch parts := by
  induction parts generalizing front current with
  | nil => rfl
  | cons key rest ih =>
    obtain ⟨here,later⟩ := List.forall_mem_cons.mp known
    cases rest with
    | nil =>
      rw [replaceAtLca.eq_def,Dfsm.replaceAtLca.eq_def]
      dsimp only
      rw [typeSame portable,putIntoSame here]
      generalize (Dfsm.getNodeByPath machine (Dotted.join (front ++ [key]))).map (·.type) = type
      by_cases parallel : type = some .parallel
      · rw [decide_eq_true parallel]
        subst parallel
        cases current with
        | str => rfl
        | obj entries => cases spelled with
          | str => rfl
          | @obj regions keys each => cases regions with
            | nil => rfl
            | cons first rest =>
              dsimp only
              rw [putPortable here,putPortable (keys first List.mem_cons_self)] <;> rfl
      · rw [decide_eq_false parallel]
        cases type with
        | none => rfl
        | some type => cases type <;> first | contradiction | rfl
    | cons next rest =>
      rw [replaceAtLca,Dfsm.replaceAtLca,putIntoSame here]
      have child : childOf current key = (entryAt current key).getD (.str "") := by
        cases current <;> rfl
      rw [child,ih _ _ later]

end

/-! The keys of what is made. -/

section
variable {entries : Record StateValue} {key : String} {v value branch : StateValue}

theorem spelledSet (here : Portable key) (value_ : Spelled value) (spelled : Spelled (.obj entries)) :
    Spelled (.obj (Keyed.set entries key value)) := by
  obtain _ | ⟨keys,each⟩ := spelled
  refine .obj (fun e mem => ?_) (fun e mem => ?_)
  · rcases Keyed.memSet mem with rfl | old
    · exact here
    · exact keys e old
  · rcases Keyed.memSet mem with rfl | old
    · exact value_
    · exact each e old

theorem spelledGet (spelled : Spelled (.obj entries)) (found : Keyed.get entries key = some value) : Spelled value := by
  obtain _ | ⟨_,each⟩ := spelled
  exact each _ (Keyed.getSome found)

theorem spelledEmpty : Spelled (.obj []) := .obj (by simp) (by simp)

theorem spelledSingle (here : Portable key) (value_ : Spelled value) : Spelled (.obj [(key,value)]) :=
  .obj (by simpa using here) (by simpa using value_)

theorem spelledRegion (spelled : Spelled branch) (regionKey : String) : Spelled (regionValue branch regionKey) := by
  cases branch with
  | str => exact spelled
  | obj entries =>
    rw [regionValue]
    cases found : Keyed.get entries regionKey with
    | none => exact spelled
    | some child => exact spelledGet spelled found

theorem spelledWith {current : StateValue} (here : Portable key) (value_ : Spelled value) (spelled : ∀ entries, current = .obj entries → Spelled current) :
    Spelled (withEntry current key value) := by
  cases current with
  | str => exact spelledSingle here value_
  | obj entries => exact spelledSet here value_ (spelled entries rfl)

theorem spelledCursor {cursor : StateValue} {parts : List String} (spelled : Spelled cursor)
    (found : Dfsm.extractCursor cursor parts = some value) : Spelled value := by
  induction parts generalizing cursor with
  | nil => cases cursor <;> cases found <;> exact spelled
  | cons part rest ih =>
    cases cursor with
    | str => contradiction
    | obj entries =>
      obtain ⟨child,here,below⟩ := Option.bind_eq_some_iff.mp found
      exact ih (spelledGet spelled here) below

theorem spelledExtract (spelled : Spelled v) (path : String) : Spelled (.obj (extractSubStateObject v path)) := by
  unfold extractSubStateObject
  split
  · rename_i entries found
    exact spelledCursor spelled found
  · exact spelledEmpty

variable {machine : RawMachine}

theorem spelledBranch {entered : StateValue} (spelled : Spelled v) (entered_ : Spelled entered) (front parts : List String)
    (known : ∀ k ∈ parts, Portable k) : Spelled (Dfsm.builtBranch machine v entered front parts) := by
  induction parts generalizing front with
  | nil => exact entered_
  | cons key rest ih =>
    cases rest with
    | nil => exact entered_
    | cons region rest =>
      obtain ⟨here,later⟩ := List.forall_mem_cons.mp known
      rw [Dfsm.builtBranch]
      split
      · exact spelledSingle here (spelledSet (later region List.mem_cons_self) (spelledRegion (ih _ later) region) (spelledExtract spelled _))
      · exact spelledSingle here (ih _ later)

theorem spelledReplace {current : StateValue} (branch_ : Spelled branch) (front parts : List String) (known : ∀ k ∈ parts, Portable k)
    (spelled : ∀ entries, current = .obj entries → Spelled current) (some : parts ≠ []) :
    Spelled (Dfsm.replaceAtLca machine current front branch parts) := by
  induction parts generalizing front current with
  | nil => contradiction
  | cons key rest ih =>
    obtain ⟨here,later⟩ := List.forall_mem_cons.mp known
    cases rest with
    | nil =>
      rw [Dfsm.replaceAtLca.eq_def]
      dsimp only
      split
      · rename_i entries region value rest_
        obtain _ | ⟨keys,each⟩ := branch_
        refine spelledSet here (spelledSet (keys _ List.mem_cons_self) (each _ List.mem_cons_self) ?_) (spelled _ rfl)
        split
        · rename_i regions found
          exact spelledGet (spelled _ rfl) found
        · exact spelledEmpty
      · exact spelledWith here branch_ spelled
    | cons next rest =>
      rw [Dfsm.replaceAtLca]
      refine spelledWith here (ih _ later ?_ (by simp)) spelled
      intro entries same
      cases current with
      | str => simp [entryAt] at same
      | obj outer =>
        rw [entryAt] at same ⊢
        cases found : Keyed.get outer key with
        | none => simp [found] at same
        | some child =>
          rw [found] at same
          exact spelledGet (spelled _ rfl) found

theorem spelledNext (spelled : Spelled v) (branch_ : Spelled branch) {lcaParts tgtParts : List String} (known : ∀ k ∈ tgtParts, Portable k)
    (inside : ∀ k ∈ lcaParts, k ∈ tgtParts) (any : tgtParts ≠ []) : Spelled (Dfsm.nextStateValue machine v lcaParts tgtParts branch) := by
  unfold Dfsm.nextStateValue
  split
  · refine spelledSet ?_ (spelledRegion branch_ _) spelled
    cases tgtParts with
    | nil => contradiction
    | cons first rest => exact known first List.mem_cons_self
  · exact branch_
  · exact spelledReplace branch_ [] _ (fun k mem => known k (inside k mem)) (fun _ _ => spelled) (by simp)

end

/-! One transition. -/

theorem enterSpelled {parentPath key : String} {node : StateNodeIR} (formed : WellFormed parentPath key node)
    (below : portableStates node.states = true) (v : StateValue) (contributed : (Dfsm.enterSubtree node).subValue = some v) : Spelled v := by
  induction formed generalizing v with
  | node sameKey samePath unique valid children ih =>
    rename_i parentPath key node
    cases valid with
    | leaf leaf =>
      rw [enterLeaf leaf] at contributed
      contradiction
    | compound type start found =>
      rename_i initial child _
      have mem := Keyed.getSome found
      have childKey : child.key = initial := by
        cases children _ mem with
        | node sameKey => exact sameKey
      obtain ⟨here,inner⟩ := portableEntry below found
      rw [enterCompound type start found,childKey] at contributed
      obtain rfl := Option.some.inj contributed
      unfold Entered.slot
      cases entered : (Dfsm.enterSubtree child).subValue with
      | none => exact .str here
      | some w => exact spelledSingle here (ih _ mem inner w entered)
    | parallel type =>
      rw [enterParallel type] at contributed
      obtain rfl := Option.some.inj contributed
      have keyed : ∀ e ∈ node.states, Portable e.1 ∧ portableStates e.2.states = true :=
        fun e mem => portableEntry below (Keyed.getOfMem unique mem)
      refine .obj (fun e mem => ?_) (fun e mem => ?_)
      · obtain ⟨region,inside,rfl⟩ := List.mem_map.mp mem
        exact (keyed region inside).1
      · obtain ⟨region,inside,rfl⟩ := List.mem_map.mp mem
        rw [regionEntry]
        cases entered : (Dfsm.enterSubtree region.2).subValue with
        | none => exact .str (keyed region inside).1
        | some w => exact ih _ inside (keyed region inside).2 w entered

theorem slotSpelled {key : String} {entered : Entered} (here : Portable key) (each : ∀ v, entered.subValue = some v → Spelled v) :
    Spelled (entered.slot key) := by
  unfold Entered.slot
  cases contributed : entered.subValue with
  | none => exact .str here
  | some v => exact spelledSingle here (each v contributed)

theorem legalSpelled {type states v} (legal : LegalIn type states v) (portable : portableStates states = true) : Spelled v := by
  induction legal with
  | leafChild found leaf => exact .str (portableEntry portable found).1
  | nested found inner below ih =>
    obtain ⟨here,under⟩ := portableEntry portable found
    exact spelledSingle here (ih under)
  | regions unique all leaves below ih =>
    have stored (e : String × StateValue) (mem : e ∈ _) := (all e.1).mp (List.mem_map_of_mem mem)
    refine .obj (fun e mem => ?_) (fun e mem => ?_)
    · obtain ⟨region,found⟩ := Option.isSome_iff_exists.mp (Keyed.getIsSome.mpr (stored e mem))
      exact (portableEntry portable found).1
    · obtain ⟨region,found⟩ := Option.isSome_iff_exists.mp (Keyed.getIsSome.mpr (stored e mem))
      obtain ⟨here,under⟩ := portableEntry portable found
      have got := Keyed.getOfMem unique mem
      cases leaf : region.isLeaf with
      | true =>
        rw [leaves _ _ _ found leaf got]
        exact .str here
      | false => exact ih _ _ _ found leaf got under

/-- What both engines tell of a transition. -/
def told (applied : Dfsm.AppliedTransition) : AppliedTransition :=
  ⟨applied.targetPath,applied.nextStateValue,applied.exitEffects,applied.entryEffects⟩

section
variable {machine : RawMachine} (portable : KeysPortable machine)
include portable

theorem legalKeys {v : StateValue} (legal : Legal machine v) : Spelled v := by
  rcases legal with inside | ⟨_,rfl,node,found,_⟩
  · refine legalSpelled inside ?_
    unfold rootStates
    split
    · exact portable
    · have kept (states : Record StateNodeIR) (all : portableStates states = true) :
          portableStates (states.filter (fun e => !e.2.isImplicitError)) = true := by
        induction states with
        | nil => rfl
        | cons first rest ih =>
          obtain ⟨key,node⟩ := first
          simp only [portableStates,Bool.and_eq_true] at all
          rw [List.filter_cons]
          split
          · simp only [portableStates,Bool.and_eq_true]
            exact ⟨all.1,ih all.2⟩
          · exact ih all.2
      exact kept _ portable
  · exact .str (portableEntry portable found).1

theorem entersSame (from_ count : Nat) (front : Nat → String) :
    (List.range count).flatMap (fun i => if from_ ≤ i then ((getNodeByPath machine (front i)).map (·.entry)).getD [] else []) =
      ((List.range count).filterMap (fun i => if from_ ≤ i then Dfsm.getNodeByPath machine (front i) else none)).flatMap
        (·.entry) := by
  induction List.range count with
  | nil => rfl
  | cons i rest ih =>
    rw [List.flatMap_cons,ih,nodeSame portable,List.filterMap_cons]
    split
    · cases Dfsm.getNodeByPath machine (front i) <;> rfl
    · rfl

theorem nextSame {v branch : StateValue} {lcaParts tgtParts : List String} (known : ∀ k ∈ tgtParts, Portable k)
    (inside : ∀ k ∈ lcaParts, k ∈ tgtParts) (some : tgtParts ≠ []) (branch_ : Spelled branch) :
    nextStateValue machine v lcaParts tgtParts branch = Dfsm.nextStateValue machine v lcaParts tgtParts branch := by
  unfold nextStateValue Dfsm.nextStateValue
  cases lcaParts with
  | nil =>
    cases tgtParts with
    | nil => contradiction
    | cons first rest =>
      cases machine.type <;> cases v <;> first | rfl | exact congrArg StateValue.obj (putPortable (known first List.mem_cons_self) _ _)
  | cons key rest => exact replaceSame portable _ _ _ _ (fun k mem => known k (inside k mem)) branch_

end

theorem givenResolved {machine : MachineDefinition} (loaded : Loaded machine) {source targetRef : String} : Dfsm.given (Dfsm.resolveTargetStatePath machine.toRawMachine source targetRef) =
    Dfsm.resolveTargetStatePath machine.toRawMachine source targetRef := by
  cases resolved : Dfsm.resolveTargetStatePath machine.toRawMachine source targetRef with
  | none => rfl
  | some path =>
    obtain ⟨parts,node,plain,found,same⟩ := resolvedNode resolved
    refine Option.filter_eq_some_iff.mpr ⟨rfl,?_⟩
    cases parts using List.reverseRecOn with
    | nil => simp [lookupParts] at found
    | append_singleton ks k =>
      cases loadedChain loaded found with
      | node _ samePath _ _ _ =>
        have whole : path = Dotted.join (ks ++ [k]) := by
          rw [← same,samePath,← pathOfJoin plain,pathOf,pathOf,List.foldl_append]
          rfl
        have some : path ≠ "" := by
          rw [whole]
          exact fun empty => by simpa using (Dotted.joinEmpty plain).mp empty
        simpa using some

section
variable {machine : MachineDefinition} (loaded : Loaded machine) (portable : KeysPortable machine.toRawMachine)
include loaded portable

theorem resolvedTrail {source targetRef path : String} (resolved : Dfsm.resolveTargetStatePath machine.toRawMachine source targetRef = some path) :
    ∃ ks, ks ≠ [] ∧ (∀ k ∈ ks, Portable k) ∧ path = Dotted.join ks := by
  rw [← givenResolved loaded] at resolved
  obtain ⟨ks,k,node,_,found,same⟩ := resolvedChain loaded resolved
  exact ⟨ks ++ [k],by simp,(portableChain portable found).1,same⟩

theorem enteredSpelled {path : String} {node : StateNodeIR} (found : Dfsm.getNodeByPath machine.toRawMachine path = some node) :
    Spelled ((Dfsm.enterSubtree node).slot node.key) := by
  have known : ∀ k ∈ Dotted.parts path, Portable k := (portableChain portable found).1
  unfold Dfsm.getNodeByPath Dfsm.lookupByDotPath at found
  generalize Dotted.parts path = parts at found known
  cases parts using List.reverseRecOn with
  | nil => contradiction
  | append_singleton ks k =>
    have formed := loadedChain loaded found
    have own : node.key = k := by
      cases formed with
      | node sameKey => exact sameKey
    have below := (portableChain portable found).2 (by simp)
    exact slotSpelled (own ▸ known k (by simp)) (enterSpelled formed below)

theorem branchSpelled {v : StateValue} {path : String} {node : StateNodeIR} (spelled : Spelled v)
    (found : Dfsm.getNodeByPath machine.toRawMachine path = some node) (front : List String) (count : Nat) :
    Spelled (Dfsm.builtBranch machine.toRawMachine v ((Dfsm.enterSubtree node).slot node.key) front ((Dotted.parts path).drop count)) :=
  spelledBranch spelled (enteredSpelled loaded portable found) _ _ (fun k mem => (portableChain portable found).1 k (List.mem_of_mem_drop mem))

theorem applyAlike {v : StateValue} {source targetRef : String} (spelled : Spelled v) (trail : Trail source)
    (same : resolveTargetStatePath machine.toRawMachine source targetRef = Dfsm.resolveTargetStatePath machine.toRawMachine source targetRef) :
    applyTargetTransition machine.toRawMachine v source targetRef =
      (Dfsm.applyTargetTransition machine.toRawMachine v source targetRef).map told := by
  unfold applyTargetTransition Dfsm.applyTargetTransition
  rw [same,givenResolved loaded]
  cases resolved : Dfsm.resolveTargetStatePath machine.toRawMachine source targetRef with
  | none => rfl
  | some path =>
    have target := resolvedTrail loaded portable resolved
    dsimp only
    rw [trailSplit trail,trailSplit target,← trailParts trail,← trailParts target,nodeSame portable]
    obtain ⟨common,front⟩ := commonPrefix (Dotted.parts source) (Dotted.parts path)
    rw [common]
    cases found : Dfsm.getNodeByPath machine.toRawMachine path with
    | none => rfl
    | some node =>
      have slot : (⟨(Dfsm.enterSubtree node).subValue,(Dfsm.enterSubtree node).nodes.flatMap (·.entry)⟩ : SubtreeEntry).under node.key =
          (Dfsm.enterSubtree node).slot node.key := rfl
      have known : ∀ k ∈ Dotted.parts path, Portable k := (portableChain portable found).1
      have some_ : Dotted.parts path ≠ [] := by
        obtain ⟨ks,some,all,rfl⟩ := target
        rw [Dotted.partsJoin (fun k mem => (all k mem).plain)]
        exact some
      have inside : ∀ k ∈ commonSegments (Dotted.parts source) (Dotted.parts path), k ∈ Dotted.parts path := by
        intro k mem
        rw [← front] at mem
        exact List.mem_of_mem_take mem
      dsimp only
      rw [enterSame,slot,exitsSame portable spelled,
        branchSame portable _ _ _ _ (fun k mem => known k (List.mem_of_mem_drop mem)),front,
        nextSame portable known inside some_ (branchSpelled loaded portable spelled found _ _),
        entersSame portable _ _ (fun i => Dotted.join ((Dotted.parts path).take (i+1)))]
      simp only [Option.map_some,told,Dfsm.AppliedTransition.exitEffects,Dfsm.AppliedTransition.entryEffects,List.flatMap_append]
      rfl

theorem applySpelled {v : StateValue} {source targetRef : String} {applied : Dfsm.AppliedTransition} (spelled : Spelled v)
    (done : Dfsm.applyTargetTransition machine.toRawMachine v source targetRef = some applied) : Spelled applied.nextStateValue := by
  unfold Dfsm.applyTargetTransition at done
  rw [givenResolved loaded] at done
  split at done
  · contradiction
  · rename_i path resolved
    have target := resolvedTrail loaded portable resolved
    obtain ⟨_,front⟩ := commonPrefix (Dotted.parts source) (Dotted.parts path)
    dsimp only at done
    split at done
    · contradiction
    · rename_i node found
      cases done
      refine spelledNext spelled (branchSpelled loaded portable spelled found _ _) (portableChain portable found).1 (fun k mem => ?_) ?_
      · rw [← front] at mem
        exact List.mem_of_mem_take mem
      · obtain ⟨ks,some,all,rfl⟩ := target
        rw [Dotted.partsJoin (fun k mem => (all k mem).plain)]
        exact some

end

/-! What both engines tell of a value. -/

section
variable {machine : RawMachine} (portable : KeysPortable machine)
include portable

theorem finalSame (path : String) : isFinalAt machine path = Dfsm.isFinalAt machine path := by
  rw [isFinalAt,typeSame portable,Dfsm.isFinalAt]

theorem statusSame (v : StateValue) (wasCompensated : Bool) :
    resolveSettledTransactionStatus machine v wasCompensated = Dfsm.resolveSettledTransactionStatus machine v wasCompensated := by
  have final : isFinalAt machine = Dfsm.isFinalAt machine := funext (finalSame portable)
  unfold resolveSettledTransactionStatus Dfsm.resolveSettledTransactionStatus
  rw [leavesSame portable,final]

theorem eventsSame {v : StateValue} (spelled : Spelled v) : getAvailableEvents machine v = Dfsm.getAvailableEvents machine v := by
  unfold getAvailableEvents Dfsm.getAvailableEvents
  rw [leavesSame portable]
  refine congrArg List.eraseDups (List.flatMap_congr (fun leaf mem => ?_))
  have trail := activeTrails spelled leaf mem
  rw [candidatesSame trail,Dfsm.candidatePaths,List.flatMap_map,trailParts trail]
  refine List.flatMap_congr (fun i _ => ?_)
  rw [nodeSame portable] <;> rfl

theorem doneSame (leaves : List String) (path : String) (node : StateNodeIR) :
    containerDone machine leaves path node = Dfsm.containerDone machine leaves path node := by
  have final : isFinalAt machine = Dfsm.isFinalAt machine := funext (finalSame portable)
  have branch (region leaf : String) : isBranchFinalAt machine region leaf = Dfsm.isBranchFinalAt machine region leaf := by
    rw [isBranchFinalAt,Dfsm.isBranchFinalAt,nodeSame portable,nodeSame portable]
    cases Dfsm.getNodeByPath machine leaf with
    | none => rfl
    | some leafNode => cases Dfsm.getNodeByPath machine region <;> rfl
  have region : regionDone machine leaves = Dfsm.regionDone machine leaves := by
    funext node
    rw [regionDone,Dfsm.regionDone,funext (branch node.path)]
  rw [containerDone,Dfsm.containerDone,final,region] <;> rfl

theorem pendingSame {v : StateValue} (spelled : Spelled v) : findPendingOnDone machine v = Dfsm.findPendingOnDone machine v := by
  have trails := @activeTrails machine v spelled
  have containers : candidateContainers (Dfsm.getActiveLeafPaths machine v "") = Dfsm.candidateContainers (Dfsm.getActiveLeafPaths machine v "") := by
    refine congrArg List.eraseDups (List.flatMap_congr (fun leaf mem => ?_))
    rw [candidatesSame (trails leaf mem)]
  have known : ∀ path ∈ Dfsm.candidateContainers (Dfsm.getActiveLeafPaths machine v ""), Trail path := by
    intro path mem
    obtain ⟨leaf,inside,below⟩ := List.mem_flatMap.mp (List.mem_eraseDups.mp mem)
    exact candidateTrail (trails leaf inside) (List.mem_of_mem_tail below)
  have sorted : (Dfsm.candidateContainers (Dfsm.getActiveLeafPaths machine v "")).insertionSort deeper =
      (Dfsm.candidateContainers (Dfsm.getActiveLeafPaths machine v "")).insertionSort deeperFirst := by
    have same := List.map_insertionSort (r := deeper) (s := deeperFirst) id (Dfsm.candidateContainers (Dfsm.getActiveLeafPaths machine v "")) ?_
    · simpa using same
    · intro a left b right
      rw [deeper,trailSplit (known a left),trailSplit (known b right)]
      rfl
  unfold findPendingOnDone Dfsm.findPendingOnDone
  dsimp only
  rw [leavesSame portable,containers,sorted]
  congr 1
  funext path
  rw [nodeSame portable]
  cases Dfsm.getNodeByPath machine path with
  | none => rfl
  | some node => cases done : node.onDone <;> simp [done,doneSame portable]

end

/-- Both engines see the same in a value: the matches of an event, the events accepted, the
container to complete and the status. -/
structure Alike (machine : RawMachine) (v : StateValue) : Prop where
  answers : ∀ event, event ∉ inheritedNames → resolveTransitionsForEvent machine v event = Dfsm.resolveTransitionsForEvent machine v event
  events : getAvailableEvents machine v = Dfsm.getAvailableEvents machine v
  pending : findPendingOnDone machine v = Dfsm.findPendingOnDone machine v
  status : ∀ wasCompensated,
    resolveSettledTransactionStatus machine v wasCompensated = Dfsm.resolveSettledTransactionStatus machine v wasCompensated

theorem spelledAlike {machine : RawMachine} (portable : KeysPortable machine) {v : StateValue} (spelled : Spelled v) : Alike machine v where
  answers _ own := matchesSame own v
  events := eventsSame portable spelled
  pending := pendingSame portable spelled
  status := statusSame portable v

theorem initialSame {machine : MachineDefinition} (loaded : Loaded machine) : resolveInitialState machine.toRawMachine =
    some ⟨(Dfsm.resolveInitialState machine.toRawMachine).1,(Dfsm.resolveInitialState machine.toRawMachine).2.flatMap (·.entry)⟩ := by
  unfold resolveInitialState Dfsm.resolveInitialState
  cases type : machine.type with
  | compound =>
    obtain ⟨start,child,initial,found⟩ := acceptedInitial (loadedAccepted loaded) type
    simp only [initial,enterInitialSame,enterInitialGet found,Option.map_some]
    rfl
  | parallel =>
    simp only [enterRegionsSame,List.map_map,List.flatMap_map,Function.comp_def,List.flatMap_assoc]

/-- Transitions one after the other, each from a source path to a target reference. -/
def through (apply : StateValue → String → String → Option AppliedTransition) : StateValue → List (String × String) →
    Option (List AppliedTransition × StateValue)
  | v, [] => some ([],v)
  | v, move::rest => (apply v move.1 move.2).bind (fun applied =>
      (through apply applied.nextStateValue rest).map (fun later => (applied::later.1,later.2)))

/-- The reference engine, as the Java engine would tell its transitions. -/
def reference (machine : RawMachine) (v : StateValue) (source targetRef : String) : Option AppliedTransition :=
  (Dfsm.applyTargetTransition machine v source targetRef).map told

section
variable {machine : MachineDefinition} (loaded : Loaded machine) (portable : KeysPortable machine.toRawMachine)
include loaded portable

theorem followed {v : StateValue} {source targetRef : String} {applied : AppliedTransition} (spelled : Spelled v) (trail : Trail source)
    (done : applyTargetTransition machine.toRawMachine v source targetRef = some applied) :
    reference machine.toRawMachine v source targetRef = some applied ∧ Spelled applied.nextStateValue := by
  have resolved : ∃ path, resolveTargetStatePath machine.toRawMachine source targetRef = some path := by
    unfold applyTargetTransition at done
    split at done
    · contradiction
    · exact ⟨_,‹_›⟩
  obtain ⟨path,here⟩ := resolved
  rw [applyAlike loaded portable spelled trail (by rw [here,resolvesAlike portable trail here])] at done
  refine ⟨done,?_⟩
  obtain ⟨mine,made,same⟩ := Option.map_eq_some_iff.mp done
  rw [← same]
  exact applySpelled loaded portable spelled made

theorem throughAlike (moves : List (String × String)) {v w : StateValue} {applied : List AppliedTransition} (spelled : Spelled v)
    (trails : ∀ m ∈ moves, Trail m.1) (ran : through (applyTargetTransition machine.toRawMachine) v moves = some (applied,w)) :
    through (reference machine.toRawMachine) v moves = some (applied,w) ∧ Spelled w := by
  induction moves generalizing v applied with
  | nil =>
    cases ran
    exact ⟨rfl,spelled⟩
  | cons move rest ih =>
    obtain ⟨here,later⟩ := List.forall_mem_cons.mp trails
    obtain ⟨first,done,ran⟩ := Option.bind_eq_some_iff.mp ran
    obtain ⟨⟨others,last⟩,below,same⟩ := Option.map_eq_some_iff.mp ran
    cases same
    obtain ⟨step,next⟩ := followed loaded portable spelled here done
    obtain ⟨whole,ended⟩ := ih next later below
    exact ⟨by rw [through,step,Option.bind_some,whole]; rfl,ended⟩

theorem throughTidy (moves : List (String × String)) {v : StateValue} (spelled : Spelled v) (trails : ∀ m ∈ moves, Trail m.1)
    (tidy : ∀ m ∈ moves, Tidy machine.toRawMachine m.2) :
    through (applyTargetTransition machine.toRawMachine) v moves = through (reference machine.toRawMachine) v moves := by
  induction moves generalizing v with
  | nil => rfl
  | cons move rest ih =>
    obtain ⟨here,later⟩ := List.forall_mem_cons.mp trails
    obtain ⟨own,others⟩ := List.forall_mem_cons.mp tidy
    have step := applyAlike loaded portable spelled here (resolvesTidy portable here own)
    rw [through,through,reference,step]
    cases made : Dfsm.applyTargetTransition machine.toRawMachine v move.1 move.2 with
    | none => rfl
    | some applied =>
      rw [Option.map_some,Option.bind_some,Option.bind_some,told,ih (applySpelled loaded portable spelled made) later others]

/-- Over a machine with portable keys both engines start alike, and from any legal value the
reference engine makes every run that the Java engine makes, with the same effects and the
same to see at its end. Over tidy references they refuse the same runs too. -/
theorem enginesInStep : resolveInitialState machine.toRawMachine =
    some ⟨(Dfsm.resolveInitialState machine.toRawMachine).1,(Dfsm.resolveInitialState machine.toRawMachine).2.flatMap (·.entry)⟩ ∧
    ∀ (v : StateValue) (moves : List (String × String)), Legal machine.toRawMachine v → (∀ m ∈ moves, Trail m.1) →
      (∀ applied w, through (applyTargetTransition machine.toRawMachine) v moves = some (applied,w) →
        through (reference machine.toRawMachine) v moves = some (applied,w) ∧ Alike machine.toRawMachine w) ∧
      ((∀ m ∈ moves, Tidy machine.toRawMachine m.2) →
        through (applyTargetTransition machine.toRawMachine) v moves = through (reference machine.toRawMachine) v moves) := by
  refine ⟨initialSame loaded,fun v moves legal trails => ⟨fun applied w ran => ?_,?_⟩⟩
  · obtain ⟨same,spelled⟩ := throughAlike loaded portable moves (legalKeys portable legal) trails ran
    exact ⟨same,spelledAlike portable spelled⟩
  · exact throughTidy loaded portable moves (legalKeys portable legal) trails

end

/-- In at the door and, from within a region, out of it again. -/
def inAndOut : List (String × String) := [("idle","work"),("work.left.one","#door.idle")]

theorem enginesInStepDoor : ∃ applied,
    through (applyTargetTransition (injectErrorState door).toRawMachine) (.str "idle") inAndOut = some (applied,.str "idle") ∧
    through (reference (injectErrorState door).toRawMachine) (.str "idle") inAndOut = some (applied,.str "idle") := by
  have ran : ((through (applyTargetTransition (injectErrorState door).toRawMachine) (.str "idle") inAndOut).map (·.2)) = some (.str "idle") := by
    decide +kernel
  obtain ⟨⟨applied,w⟩,done,same⟩ := Option.map_eq_some_iff.mp ran
  obtain rfl : w = .str "idle" := same
  have trails : ∀ m ∈ inAndOut, Trail m.1 := by
    intro m mem
    rcases List.mem_cons.mp mem with rfl | mem
    · exact ⟨["idle"],by simp,by decide,by decide⟩
    · obtain rfl := List.mem_singleton.mp mem
      exact ⟨["work","left","one"],by simp,by decide,by decide⟩
  exact ⟨applied,done,(((enginesInStep doorLoaded (by decide +kernel)).2 _ _ doorIdle trails).1 _ _ done).1⟩

end Dfsm.Java
