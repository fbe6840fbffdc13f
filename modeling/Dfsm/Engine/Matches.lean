import Dfsm.Engine.Settled

/-! The transitions an event matches: in a legal configuration their source nodes are
active, each matched by an edge of its own. -/
namespace Dfsm
open Keyed (Record)

theorem searchChildGet (event : String) (states : List (String × StateNodeIR)) (child : String) (subVal : Option StateValue) :
    searchChild event states child subVal = match Keyed.get states child with
      | none => []
      | some node => searchInSubtree event node subVal := by
  induction states with
  | nil => rfl
  | cons first rest ih =>
    obtain ⟨key,node⟩ := first
    rw [searchChild,Keyed.getCons]
    split
    · rfl
    · exact ih

theorem searchRegionsFlat (event : String) (states : List (String × StateNodeIR)) (regionMap : Record StateValue) :
    searchRegions event states regionMap = states.flatMap (fun e =>
      searchInSubtree event e.2 (if e.2.isLeaf then none else Keyed.get regionMap e.1)) := by
  induction states with
  | nil => rfl
  | cons first rest ih =>
    obtain ⟨key,node⟩ := first
    rw [searchRegions,List.flatMap_cons,ih]

theorem searchLeaf {event : String} {node : StateNodeIR} (leaf : node.isLeaf = true) (subVal : Option StateValue) :
    searchInSubtree event node subVal = selfMatch node event := by
  obtain ⟨key,path,type,initial,entry,exit,on,onDone,states,isImplicitError⟩ := node
  rcases leafType.mp leaf with h | h <;> (dsimp only at h; subst h; rfl)

theorem searchContainer {event : String} {node : StateNodeIR} {subVal m} (inner : node.isLeaf = false)
    (mem : m ∈ searchInSubtree event node (some subVal)) : m ∈ selfMatch node event ∨
      (node.type = .compound ∧ ((∃ child, subVal = .str child ∧ m ∈ searchChild event node.states child none) ∨
        ∃ entries e, subVal = .obj entries ∧ e ∈ entries ∧ m ∈ searchChild event node.states e.1 (some e.2))) ∨
      (node.type = .parallel ∧ ∃ regionMap, (subVal = .obj regionMap ∨ (∃ s, subVal = .str s) ∧ regionMap = []) ∧
        m ∈ searchRegions event node.states regionMap) := by
  obtain ⟨key,path,type,initial,entry,exit,on,onDone,states,isImplicitError⟩ := node
  rcases containerType inner with h | h
  · dsimp only at h
    subst h
    cases subVal with
    | str child =>
      rw [searchInSubtree] at mem
      split at mem
      · exact .inl mem
      · exact .inr (.inl ⟨rfl,.inl ⟨child,rfl,mem⟩⟩)
    | obj entries =>
      rw [searchInSubtree] at mem
      split at mem
      · exact .inl mem
      · cases first : (entries.map (fun e => searchChild event states e.1 (some e.2))).find? (fun ms => !ms.isEmpty) with
        | none => simp [first] at mem
        | some ms =>
          rw [first,Option.getD_some] at mem
          obtain ⟨e,he,rfl⟩ := List.mem_map.mp (List.mem_of_find?_eq_some first)
          exact .inr (.inl ⟨rfl,.inr ⟨entries,e,rfl,he,mem⟩⟩)
  · dsimp only at h
    subst h
    cases subVal with
    | str s =>
      rw [searchInSubtree] at mem
      · split at mem
        · exact .inl mem
        · exact .inr (.inr ⟨rfl,[],.inr ⟨⟨s,rfl⟩,rfl⟩,mem⟩)
      · simp
    | obj entries =>
      rw [searchInSubtree] at mem
      split at mem
      · exact .inl mem
      · exact .inr (.inr ⟨rfl,entries,.inl rfl,mem⟩)

theorem selfMatchSource {event : String} {node m} (mem : m ∈ selfMatch node event) : m.sourceNode = node := by
  unfold selfMatch at mem
  split at mem
  · rw [List.mem_singleton.mp mem]
  · split at mem
    · rw [List.mem_singleton.mp mem]
    · contradiction

/-- An active node below the container, and its own answer to the event. -/
def MatchedAt (event : String) (states : Record StateNodeIR) (v : StateValue) (m : MatchedTransition) : Prop :=
  ∃ q, isActive states v q = true ∧ lookupParts states none q = some m.sourceNode ∧ m ∈ selfMatch m.sourceNode event

theorem matchedSelf {event : String} {states v key child m} (found : Keyed.get states key = some child)
    (active : isActive states v [key] = true) (mem : m ∈ selfMatch child event) : MatchedAt event states v m := by
  refine ⟨[key],active,?_,?_⟩
  · simp [lookupParts,found,selfMatchSource mem]
  · rw [selfMatchSource mem]
    exact mem

theorem matchedBelow {event : String} {states key child v m} {entries : Record StateValue}
    (found : Keyed.get states key = some child) (got : Keyed.get entries key = some v) (inner : child.isLeaf = false)
    (mem : m ∈ selfMatch child event ∨ MatchedAt event child.states v m) : MatchedAt event states (.obj entries) m := by
  rcases mem with self | ⟨q,active,stored,own⟩
  · exact matchedSelf found (by simp [isActive,got,found]) self
  · have step : q ≠ [] := by
      rintro rfl
      simp [isActive] at active
    refine ⟨key::q,by simp [isActive,got,found,inner,active],?_,own⟩
    rw [lookupParts,found]
    dsimp only
    rw [lookupPartsCurrent _ _ none step]
    exact stored

theorem searchActive {event : String} {type states v} (legal : LegalIn type states v) {node : StateNodeIR}
    (hasType : node.type = type) (hasStates : node.states = states) {parentPath key} (formed : WellFormed parentPath key node)
    (inner : node.isLeaf = false) {m} (mem : m ∈ searchInSubtree event node (some v)) :
    m ∈ selfMatch node event ∨ MatchedAt event states v m := by
  induction legal generalizing node parentPath key with
  | leafChild found leaf =>
    rcases searchContainer inner mem with self | ⟨_,⟨child,same,below⟩ | ⟨_,_,same,_⟩⟩ | ⟨parallel,_⟩
    · exact .inl self
    · cases same
      simp only [searchChildGet,hasStates,found] at below
      rw [searchLeaf leaf] at below
      exact .inr (matchedSelf found (by simp [isActive,Keyed.has,found]) below)
    · contradiction
    · rw [hasType] at parallel; contradiction
  | nested found innerChild below ih =>
    rcases searchContainer inner mem with self | ⟨_,⟨_,same,_⟩ | ⟨entries,e,same,he,searched⟩⟩ | ⟨parallel,_⟩
    · exact .inl self
    · contradiction
    · cases same
      have child := wellFormedChildren formed _ (hasStates ▸ Keyed.getSome found)
      rw [List.mem_singleton.mp he] at searched
      simp only [searchChildGet,hasStates,found] at searched
      exact .inr (matchedBelow found (by simp) innerChild (ih rfl rfl child innerChild searched))
    · rw [hasType] at parallel; contradiction
  | @regions states entries unique all leaves below ih =>
    rcases searchContainer inner mem with self | ⟨compound,_⟩ | ⟨_,regionMap,same,searched⟩
    · exact .inl self
    · rw [hasType] at compound; contradiction
    · obtain rfl : entries = regionMap := by
        rcases same with same | ⟨⟨_,same⟩,_⟩
        · exact StateValue.obj.inj same
        · contradiction
      rw [searchRegionsFlat,hasStates] at searched
      obtain ⟨⟨key,region⟩,he,searched⟩ := List.mem_flatMap.mp searched
      have found : Keyed.get states key = some region := by
        cases formed with
        | node _ _ uniqueKeys => exact Keyed.getOfMem (hasStates ▸ uniqueKeys) he
      have child := wellFormedChildren formed _ (hasStates ▸ he)
      have present : key ∈ Keyed.keys entries := (all key).mpr (Keyed.getIsSome.mp (by simp [found]))
      obtain ⟨u,got⟩ := Option.isSome_iff_exists.mp (Keyed.getIsSome.mpr present)
      cases leaf : region.isLeaf with
      | true =>
        rw [searchLeaf leaf] at searched
        exact .inr (matchedSelf found (by simp [isActive,got,found]) searched)
      | false =>
        simp only [leaf,got,Bool.false_eq_true,if_false] at searched
        exact .inr (matchedBelow found got leaf (ih key region u found leaf got rfl rfl child leaf searched))

theorem matchesActive {machine : MachineDefinition} (loaded : Loaded machine) {v} (legal : Legal machine.toRawMachine v)
    {event m} (mem : m ∈ resolveTransitionsForEvent machine.toRawMachine v event) :
    MatchedAt event machine.states v m := by
  have formed := loadedWellFormed loaded
  cases v with
  | str key =>
    have leaf : ∃ child, Keyed.get machine.states key = some child ∧ child.isLeaf = true := by
      rcases legal with legal | ⟨_,same,error,found,leaf⟩
      · cases standsShaped (legalStandsRoot loaded (.inl legal)) with
        | str found leaf => exact ⟨_,found,leaf⟩
      · cases same
        exact ⟨error,found,leaf⟩
    obtain ⟨child,found,leaf⟩ := leaf
    simp only [resolveTransitionsForEvent,found] at mem
    rw [searchLeaf leaf] at mem
    exact matchedSelf found (by simp [isActive,Keyed.has,found]) mem
  | obj entries =>
    obtain ⟨⟨key,u⟩,he,searched⟩ := List.mem_flatMap.mp mem
    have legalHere := legal.resolve_right (by rintro ⟨_,same,_⟩; contradiction)
    have got : Keyed.get entries key = some u := by
      cases standsShaped (legalStandsRoot loaded legal) with
      | obj unique => exact Keyed.getOfMem unique he
    cases found : Keyed.get machine.states key with
    | none => simp [found] at searched
    | some child =>
      simp only [found] at searched
      cases leaf : child.isLeaf with
      | true =>
        rw [searchLeaf leaf] at searched
        exact matchedSelf found (by simp [isActive,got,found]) searched
      | false =>
        simp only [leaf,Bool.false_eq_true,if_false] at searched
        have below := legalEntry legalHere (innerRoot loaded found leaf) leaf (by simpa [entryAt] using got)
        exact matchedBelow found got leaf (searchActive below rfl rfl (formed _ (Keyed.getSome found)) leaf searched)

end Dfsm
