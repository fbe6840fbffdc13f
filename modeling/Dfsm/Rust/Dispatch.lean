import Dfsm.Rust.Actor

/-! An event against a configuration: the deepest handlers that the specification asks for,
those the engine of the Rust SDK returns, and those its actor executes. -/
namespace Dfsm.Rust
open Keyed (Record)
open Protocol Program Act

mutual
/-- No map of the value has a key twice. -/
def distinct : StateValue → Bool
  | .str _ => true
  | .obj entries => decide (Keyed.keys entries).Nodup && distinctEntries entries
def distinctEntries : List (String × StateValue) → Bool
  | [] => true
  | (_,v)::rest => distinct v && distinctEntries rest
end

/-- The node at the end of a chain of keys that are active one below the other. -/
def activeNode : List (String × StateDefinition) → StateValue → List String → Option StateDefinition
  | _, _, [] => none
  | states, .str key, k::ks => if k = key ∧ ks = [] then Keyed.get states k else none
  | states, .obj entries, k::ks => match Keyed.get entries k, Keyed.get states k with
    | some v, some node => if ks = [] then some node else activeNode node.states v ks
    | _, _ => none

/-- A leaf is active under its own key alone. -/
example (states : List (String × StateDefinition)) (key child : String) : activeNode states (.str key) [key,child] = none := by
  simp only [activeNode,List.cons_ne_nil,and_false,if_false]

def handles (event : String) (node : Option StateDefinition) : Bool := node.any (fun node => Keyed.has node.on event)

/-- It handles the event, and nothing that is active below it does. -/
def DeepestIn (event : String) (states : List (String × StateDefinition)) (v : StateValue) (chain : List String) : Prop :=
  handles event (activeNode states v chain) = true ∧ ∀ below ≠ [], handles event (activeNode states v (chain ++ below)) = false

abbrev Deepest (m : MachineDefinition) (v : StateValue) (event : String) (chain : List String) : Prop :=
  DeepestIn event m.states v chain

/-- Every deepest handler is returned once with its edge, and nothing else. -/
structure Returns (m : MachineDefinition) (v : StateValue) (event : String) : Prop where
  once : ((resolveTransitionsForEvent m v event).map (·.sourcePath)).Nodup
  exact_ : ∀ x, x ∈ resolveTransitionsForEvent m v event ↔ Deepest m v event x.sourcePath ∧
    ∃ node, activeNode m.states v x.sourcePath = some node ∧ x ∈ nodeMatches node event x.sourcePath

/-! The handlers below each branch, each branch by itself. -/

mutual
def handlersIn (event : String) : StateValue → List (String × StateDefinition) → List String → List MatchedTransition
  | .str name, states, path => match Keyed.get states name with
    | none => []
    | some node => nodeMatches node event (path ++ [name])
  | .obj map, states, path => handlersOf event map states path
def handlersOf (event : String) : List (String × StateValue) → List (String × StateDefinition) → List String → List MatchedTransition
  | [], _, _ => []
  | (k,v)::rest, states, path =>
    (match Keyed.get states k with
      | none => []
      | some node =>
        let below := handlersIn event v node.states (path ++ [k])
        if below.isEmpty then nodeMatches node event (path ++ [k]) else below) ++ handlersOf event rest states path
end

section
variable {event : String} {states : List (String × StateDefinition)} {path : List String}

theorem acceptedGet (accepted : acceptedStates states = true) {k : String} {node : StateDefinition} (found : Keyed.get states k = some node) :
    node.accepted = true := by
  induction states with
  | nil => simp at found
  | cons e rest ih =>
    obtain ⟨key,v⟩ := e
    rw [acceptedStates,Bool.and_eq_true] at accepted
    rw [Keyed.getCons] at found
    split at found
    · cases found
      exact accepted.1
    · exact ih accepted.2 found

theorem acceptedBelow {node : StateDefinition} (accepted : node.accepted = true) : acceptedStates node.states = true := by
  obtain ⟨stateType,initial,states,on,onDone,entry,exit⟩ := node
  rw [StateDefinition.accepted,Bool.and_eq_true] at accepted
  exact accepted.2

theorem matchesOne {node : StateDefinition} (accepted : node.accepted = true) (event : String) (sourcePath : List String) :
    (Keyed.has node.on event = true ∧ ∃ x, nodeMatches node event sourcePath = [x] ∧ x.sourcePath = sourcePath) ∨
      Keyed.has node.on event = false ∧ nodeMatches node event sourcePath = [] := by
  obtain ⟨stateType,initial,states,on,onDone,entry,exit⟩ := node
  simp only [StateDefinition.accepted,Bool.and_eq_true,List.all_eq_true] at accepted
  obtain ⟨⟨⟨⟨_,_⟩,single⟩,_⟩,_⟩ := accepted
  unfold nodeMatches
  cases found : Keyed.get on event with
  | none => exact .inr ⟨by rw [Keyed.has,found]; rfl,rfl⟩
  | some tv =>
    refine .inl ⟨by rw [Keyed.has,found]; rfl,?_⟩
    have one := single _ (Keyed.getSome found)
    cases tv with
    | target tgt => exact ⟨_,rfl,rfl⟩
    | detailed d => exact ⟨_,rfl,rfl⟩
    | multiple v => cases one

theorem activeStr {key : String} {chain : List String} {node : StateDefinition} :
    activeNode states (.str key) chain = some node ↔ chain = [key] ∧ Keyed.get states key = some node := by
  cases chain with
  | nil => simp [activeNode]
  | cons k ks =>
    rw [activeNode]
    constructor
    · intro here
      split at here
      · rename_i same
        obtain ⟨rfl,rfl⟩ := same
        exact ⟨rfl,here⟩
      · cases here
    · rintro ⟨same,found⟩
      obtain ⟨rfl,rfl⟩ := List.cons.inj same
      rw [if_pos ⟨rfl,rfl⟩,found]

theorem activeAccepted (accepted : acceptedStates states = true) {v : StateValue} {chain : List String} {node : StateDefinition}
    (active : activeNode states v chain = some node) : node.accepted = true := by
  induction chain generalizing states v with
  | nil => simp [activeNode] at active
  | cons k ks ih =>
    cases v with
    | str key => exact acceptedGet accepted (activeStr.mp active).2
    | obj entries =>
      rw [activeNode] at active
      split at active
      · rename_i v parent _ found
        have inner := acceptedGet accepted found
        split at active
        · cases active
          exact inner
        · exact ih (acceptedBelow inner) active
      · cases active

theorem activeEntry {entries : List (String × StateValue)} {k : String} {v : StateValue} {node : StateDefinition}
    (value : Keyed.get entries k = some v) (found : Keyed.get states k = some node) (ks : List String) :
    activeNode states (.obj entries) (k::ks) = if ks = [] then some node else activeNode node.states v ks := by
  simp only [activeNode,value,found]

theorem activeHead {entries : List (String × StateValue)} {chain : List String} {node : StateDefinition}
    (active : activeNode states (.obj entries) chain = some node) :
    ∃ k ks v parent, chain = k::ks ∧ Keyed.get entries k = some v ∧ Keyed.get states k = some parent := by
  cases chain with
  | nil => simp [activeNode] at active
  | cons k ks =>
    rw [activeNode] at active
    split at active
    · rename_i v parent value found
      exact ⟨k,ks,v,parent,rfl,value,found⟩
    · cases active

theorem handlesSome {node : StateDefinition} : handles event (some node) = Keyed.has node.on event := rfl

/-- What one entry of a map adds. -/
def slotHandlers (event : String) (k : String) (v : StateValue) (states : List (String × StateDefinition)) (path : List String) :
    List MatchedTransition :=
  match Keyed.get states k with
  | none => []
  | some node =>
    if (handlersIn event v node.states (path ++ [k])).isEmpty then nodeMatches node event (path ++ [k])
    else handlersIn event v node.states (path ++ [k])

theorem handlersFlat (entries : List (String × StateValue)) :
    handlersOf event entries states path = entries.flatMap (fun e => slotHandlers event e.1 e.2 states path) := by
  induction entries with
  | nil => rfl
  | cons e rest ih =>
    obtain ⟨k,v⟩ := e
    rw [handlersOf,List.flatMap_cons,ih]
    rfl

mutual
theorem handlersNil : (v : StateValue) → distinct v = true → ∀ {states : List (String × StateDefinition)}, acceptedStates states = true →
    ∀ path, handlersIn event v states path = [] ↔ ∀ chain, handles event (activeNode states v chain) = false
  | .str key, _, states, accepted, path => by
    rw [handlersIn]
    constructor
    · intro none chain
      cases active : activeNode states (.str key) chain with
      | none => rfl
      | some node =>
        obtain ⟨rfl,found⟩ := activeStr.mp active
        simp only [found] at none
        rcases matchesOne (acceptedGet accepted found) event (path ++ [key]) with ⟨_,x,one,_⟩ | ⟨has,_⟩
        · rw [one] at none
          cases none
        · exact has
    · intro quiet
      cases found : Keyed.get states key with
      | none => rfl
      | some node =>
        have here := quiet [key]
        rw [activeStr.mpr ⟨rfl,found⟩,handlesSome] at here
        rcases matchesOne (acceptedGet accepted found) event (path ++ [key]) with ⟨has,_⟩ | ⟨_,none⟩
        · exact absurd (here.symm.trans has) (by decide)
        · exact none
  | .obj entries, unique, states, accepted, path => by
    rw [distinct,Bool.and_eq_true,decide_eq_true_eq] at unique
    rw [handlersIn,handlersFlat,List.flatMap_eq_nil_iff]
    constructor
    · intro none chain
      cases active : activeNode states (.obj entries) chain with
      | none => rfl
      | some node =>
        obtain ⟨k,ks,v,parent,rfl,value,found⟩ := activeHead active
        have slot := (slotNil entries unique.2 accepted path (k,v) (Keyed.getSome value) parent found).mp (none _ (Keyed.getSome value))
        rw [activeEntry value found] at active
        split at active
        · cases active
          exact slot.1
        · rw [← active]
          exact slot.2 ks
    · intro quiet e mem
      obtain ⟨k,v⟩ := e
      cases found : Keyed.get states k with
      | none => rw [slotHandlers,found]
      | some parent =>
        have value := Keyed.getOfMem unique.1 mem
        refine (slotNil entries unique.2 accepted path (k,v) mem parent found).mpr ⟨?_,fun chain => ?_⟩
        · have here := quiet [k]
          rw [activeEntry value found,if_pos rfl] at here
          exact here
        · cases chain with
          | nil => rfl
          | cons c cs =>
            have here := quiet (k::c::cs)
            rw [activeEntry value found,if_neg (by simp)] at here
            exact here
theorem slotNil : (entries : List (String × StateValue)) → distinctEntries entries = true → ∀ {states : List (String × StateDefinition)},
    acceptedStates states = true → ∀ path, ∀ e ∈ entries, ∀ node, Keyed.get states e.1 = some node →
      (slotHandlers event e.1 e.2 states path = [] ↔
        Keyed.has node.on event = false ∧ ∀ chain, handles event (activeNode node.states e.2 chain) = false)
  | [], _, _, _, _, _, mem, _, _ => by cases mem
  | (k,v)::rest, unique, states, accepted, path, e, mem, node, found => by
    rw [distinctEntries,Bool.and_eq_true] at unique
    rcases List.mem_cons.mp mem with rfl | later
    · have inner := acceptedGet accepted found
      have below := handlersNil v unique.1 (acceptedBelow inner) (path ++ [k])
      rw [slotHandlers,found,← below]
      dsimp only
      split
      · rename_i none
        rw [List.isEmpty_iff] at none
        rcases matchesOne inner event (path ++ [k]) with ⟨has,x,one,_⟩ | ⟨has,nothing⟩
        · simp [one,has]
        · simp [none,has,nothing]
      · rename_i some_
        rw [List.isEmpty_iff] at some_
        simp [some_]
    · exact slotNil rest unique.2 accepted path e later node found
end

theorem matchHandled {node : StateDefinition} {sourcePath : List String} {x : MatchedTransition} (mem : x ∈ nodeMatches node event sourcePath) :
    Keyed.has node.on event = true ∧ x.sourcePath = sourcePath := by
  unfold nodeMatches at mem
  split at mem
  · cases mem
  · rename_i tv found
    obtain ⟨edge,_,rfl⟩ := List.mem_map.mp mem
    exact ⟨by rw [Keyed.has,found]; rfl,rfl⟩

/-- The match is the one of a deepest handler, at the end of the chain. -/
structure MatchAt (event : String) (states : List (String × StateDefinition)) (v : StateValue) (path : List String)
    (x : MatchedTransition) (chain : List String) : Prop where
  source : x.sourcePath = path ++ chain
  active : ∃ node, activeNode states v chain = some node ∧ x ∈ nodeMatches node event x.sourcePath
  deepest : ∀ below ≠ [], handles event (activeNode states v (chain ++ below)) = false

theorem matchHandles {v : StateValue} {x : MatchedTransition} {chain : List String} (at_ : MatchAt event states v path x chain) :
    handles event (activeNode states v chain) = true := by
  obtain ⟨node,active,mem⟩ := at_.active
  rw [active]
  exact (matchHandled mem).1

theorem matchEntry {entries : List (String × StateValue)} {k : String} {v : StateValue} {node : StateDefinition} {x : MatchedTransition}
    (value : Keyed.get entries k = some v) (found : Keyed.get states k = some node) (ks : List String) :
    MatchAt event states (.obj entries) path x (k::ks) ↔
      (ks = [] ∧ x ∈ nodeMatches node event (path ++ [k]) ∧ ∀ below, handles event (activeNode node.states v below) = false) ∨
        (ks ≠ [] ∧ MatchAt event node.states v (path ++ [k]) x ks) := by
  have deeper (below : List String) (some_ : ks ++ below ≠ []) :
      activeNode states (.obj entries) (k::ks ++ below) = activeNode node.states v (ks ++ below) := by
    rw [List.cons_append,activeEntry value found,if_neg some_]
  by_cases top : ks = []
  · subst top
    constructor
    · rintro ⟨source,⟨n,active,mem⟩,deepest⟩
      rw [activeEntry value found,if_pos rfl] at active
      cases active
      refine .inl ⟨rfl,by rw [← source]; exact mem,fun below => ?_⟩
      cases below with
      | nil => rfl
      | cons b bs =>
        rw [← deepest (b::bs) (by simp),deeper (b::bs) (by simp)]
        rfl
    · rintro (⟨_,mem,quiet⟩ | ⟨some_,_⟩)
      · obtain ⟨_,source⟩ := matchHandled mem
        refine ⟨source,⟨node,by rw [activeEntry value found,if_pos rfl],by rw [source]; exact mem⟩,fun below some_ => ?_⟩
        rw [deeper below (by simpa using some_)]
        exact quiet below
      · exact absurd rfl some_
  · have inner : activeNode states (.obj entries) (k::ks) = activeNode node.states v ks := by
      rw [activeEntry value found,if_neg top]
    constructor
    · rintro ⟨source,active,deepest⟩
      refine .inr ⟨top,by rw [source]; simp,inner ▸ active,fun below some_ => ?_⟩
      rw [← deeper below (by simp [top])]
      exact deepest below some_
    · rintro (⟨none,_⟩ | ⟨_,source,active,deepest⟩)
      · exact absurd none top
      · refine ⟨by rw [source]; simp,inner ▸ active,fun below some_ => ?_⟩
        rw [deeper below (by simp [top])]
        exact deepest below some_

mutual
theorem memHandlers : (v : StateValue) → distinct v = true → ∀ {states : List (String × StateDefinition)}, acceptedStates states = true →
    ∀ path x, x ∈ handlersIn event v states path ↔ ∃ chain, MatchAt event states v path x chain
  | .str key, _, states, accepted, path, x => by
    rw [handlersIn]
    constructor
    · intro mem
      cases found : Keyed.get states key with
      | none => simp [found] at mem
      | some node =>
        simp only [found] at mem
        obtain ⟨_,source⟩ := matchHandled mem
        refine ⟨[key],source,⟨node,activeStr.mpr ⟨rfl,found⟩,by rw [source]; exact mem⟩,fun below some_ => ?_⟩
        cases active : activeNode states (.str key) ([key] ++ below) with
        | none => rfl
        | some n => exact absurd (activeStr.mp active).1 (by simpa using some_)
    · rintro ⟨chain,source,⟨node,active,mem⟩,_⟩
      obtain ⟨rfl,found⟩ := activeStr.mp active
      simp only [found]
      rw [← source]
      exact mem
  | .obj entries, unique, states, accepted, path, x => by
    rw [distinct,Bool.and_eq_true,decide_eq_true_eq] at unique
    rw [handlersIn,handlersFlat,List.mem_flatMap]
    constructor
    · rintro ⟨e,mem,here⟩
      obtain ⟨k,v⟩ := e
      cases found : Keyed.get states k with
      | none => simp [slotHandlers,found] at here
      | some node =>
        obtain ⟨ks,at_⟩ := (memSlot entries unique.2 accepted path (k,v) mem node found x).mp here
        exact ⟨k::ks,(matchEntry (Keyed.getOfMem unique.1 mem) found ks).mpr at_⟩
    · rintro ⟨chain,at_⟩
      obtain ⟨node,active,_⟩ := at_.active
      obtain ⟨k,ks,v,parent,rfl,value,found⟩ := activeHead active
      have mem := Keyed.getSome value
      exact ⟨(k,v),mem,(memSlot entries unique.2 accepted path (k,v) mem parent found x).mpr ⟨ks,(matchEntry value found ks).mp at_⟩⟩
theorem memSlot : (entries : List (String × StateValue)) → distinctEntries entries = true → ∀ {states : List (String × StateDefinition)},
    acceptedStates states = true → ∀ path, ∀ e ∈ entries, ∀ node, Keyed.get states e.1 = some node → ∀ x,
      (x ∈ slotHandlers event e.1 e.2 states path ↔ ∃ ks,
        (ks = [] ∧ x ∈ nodeMatches node event (path ++ [e.1]) ∧ ∀ below, handles event (activeNode node.states e.2 below) = false) ∨
          (ks ≠ [] ∧ MatchAt event node.states e.2 (path ++ [e.1]) x ks))
  | [], _, _, _, _, _, mem, _, _, _ => by cases mem
  | (k,v)::rest, unique, states, accepted, path, e, mem, node, found, x => by
    rw [distinctEntries,Bool.and_eq_true] at unique
    rcases List.mem_cons.mp mem with rfl | later
    · have below := acceptedBelow (acceptedGet accepted found)
      have none_ : handlersIn event v node.states (path ++ [k]) = [] ↔ _ := handlersNil v unique.1 below (path ++ [k])
      have inner := memHandlers v unique.1 below (path ++ [k]) x
      rw [slotHandlers,found]
      dsimp only
      split
      · rename_i nil
        rw [List.isEmpty_iff,none_] at nil
        constructor
        · exact fun here => ⟨[],.inl ⟨rfl,here,nil⟩⟩
        · rintro ⟨ks,⟨_,here,_⟩ | ⟨_,at_⟩⟩
          · exact here
          · exact absurd ((matchHandles at_).symm.trans (nil ks)) (by decide)
      · rename_i some_
        rw [List.isEmpty_iff,none_] at some_
        rw [inner]
        constructor
        · rintro ⟨chain,at_⟩
          refine ⟨chain,.inr ⟨?_,at_⟩⟩
          rintro rfl
          exact absurd (matchHandles at_) (by simp [activeNode,handles])
        · rintro ⟨ks,⟨_,_,quiet⟩ | ⟨_,at_⟩⟩
          · exact absurd quiet some_
          · exact ⟨ks,at_⟩
    · exact memSlot rest unique.2 accepted path e later node found x
end

theorem slotBelow {entries : List (String × StateValue)} (unique : distinctEntries entries = true) (accepted : acceptedStates states = true)
    {e : String × StateValue} (mem : e ∈ entries) {x : MatchedTransition} (here : x ∈ slotHandlers event e.1 e.2 states path) :
    ∃ ks, x.sourcePath = path ++ e.1::ks := by
  cases found : Keyed.get states e.1 with
  | none => simp [slotHandlers,found] at here
  | some node =>
    obtain ⟨ks,⟨_,at_,_⟩ | ⟨_,at_⟩⟩ := (memSlot entries unique accepted path e mem node found x).mp here
    · exact ⟨[],(matchHandled at_).2⟩
    · exact ⟨ks,by rw [at_.source]; simp⟩

mutual
theorem handlersOnce : (v : StateValue) → distinct v = true → ∀ {states : List (String × StateDefinition)}, acceptedStates states = true →
    ∀ path, ((handlersIn event v states path).map (·.sourcePath)).Nodup
  | .str key, _, states, accepted, path => by
    rw [handlersIn]
    cases found : Keyed.get states key with
    | none => simp
    | some node =>
      rcases matchesOne (acceptedGet accepted found) event (path ++ [key]) with ⟨_,x,one,_⟩ | ⟨_,none_⟩
      · simp [one]
      · simp [none_]
  | .obj entries, unique, states, accepted, path => by
    rw [distinct,Bool.and_eq_true,decide_eq_true_eq] at unique
    rw [handlersIn,handlersFlat,List.map_flatMap,List.nodup_flatMap]
    refine ⟨fun e mem => slotOnce entries unique.2 accepted path e mem,?_⟩
    have keys : entries.Pairwise (fun a b => a.1 ≠ b.1) := List.pairwise_map.mp unique.1
    refine keys.imp_of_mem (fun {a b} left right other => ?_)
    intro source inA inB
    obtain ⟨x,memA,sourceA⟩ := List.mem_map.mp inA
    obtain ⟨y,memB,sourceB⟩ := List.mem_map.mp inB
    obtain ⟨ks,pathA⟩ := slotBelow unique.2 accepted left memA
    obtain ⟨ls,pathB⟩ := slotBelow unique.2 accepted right memB
    have same := List.append_cancel_left (pathA.symm.trans ((sourceA.trans sourceB.symm).trans pathB))
    exact other (List.cons.inj same).1
theorem slotOnce : (entries : List (String × StateValue)) → distinctEntries entries = true → ∀ {states : List (String × StateDefinition)},
    acceptedStates states = true → ∀ path, ∀ e ∈ entries, ((slotHandlers event e.1 e.2 states path).map (·.sourcePath)).Nodup
  | [], _, _, _, _, _, mem => by cases mem
  | (k,v)::rest, unique, states, accepted, path, e, mem => by
    rw [distinctEntries,Bool.and_eq_true] at unique
    rcases List.mem_cons.mp mem with rfl | later
    · unfold slotHandlers
      cases found : Keyed.get states k with
      | none => simp
      | some node =>
        have inner := acceptedGet accepted found
        dsimp only
        split
        · rcases matchesOne inner event (path ++ [k]) with ⟨_,x,one,_⟩ | ⟨_,none_⟩
          · simp [one]
          · simp [none_]
        · exact handlersOnce v unique.1 (acceptedBelow inner) (path ++ [k])
    · exact slotOnce rest unique.2 accepted path e later
end

/-! The engine against that: the one list of results, from its first entry on, hides what is
found above a leaf in another branch. -/

mutual
theorem findSome : (v : StateValue) → ∀ (states : List (String × StateDefinition)) (path : List String) (results : List MatchedTransition),
    ∃ found, findTransitionsInState event v states path results = results ++ found ∧ found.Sublist (handlersIn event v states path) ∧
      (results = [] → found = [] → handlersIn event v states path = [])
  | .str key, states, path, results => by
    rw [findTransitionsInState,handlersIn]
    cases Keyed.get states key with
    | none => exact ⟨[],by simp,List.nil_sublist _,fun _ _ => rfl⟩
    | some node => exact ⟨_,rfl,List.Sublist.refl _,fun _ none => none⟩
  | .obj entries, states, path, results => by
    rw [findTransitionsInState,handlersIn]
    exact findEntries entries states path results
theorem findEntries : (entries : List (String × StateValue)) → ∀ (states : List (String × StateDefinition)) (path : List String)
    (results : List MatchedTransition), ∃ found, findTransitionsInEntries event entries states path results = results ++ found ∧
      found.Sublist (handlersOf event entries states path) ∧ (results = [] → found = [] → handlersOf event entries states path = [])
  | [], states, path, results => ⟨[],by simp [findTransitionsInEntries],List.nil_sublist _,fun _ _ => rfl⟩
  | (k,v)::rest, states, path, results => by
    rw [findTransitionsInEntries,handlersOf]
    cases Keyed.get states k with
    | none => exact findEntries rest states path results
    | some node =>
      dsimp only
      obtain ⟨inner,same,sub,only⟩ := findSome v node.states (path ++ [k]) results
      rw [same]
      by_cases first : results ++ inner = []
      · obtain ⟨rfl,rfl⟩ := List.append_eq_nil_iff.mp first
        have below := only rfl rfl
        obtain ⟨later,same,sub,only⟩ := findEntries rest states path (nodeMatches node event (path ++ [k]))
        rw [if_pos (by simp),same,if_pos (by simp [below])]
        refine ⟨_,rfl,List.Sublist.append (List.Sublist.refl _) sub,fun _ none => ?_⟩
        obtain ⟨here,later⟩ := List.append_eq_nil_iff.mp none
        rw [here,only here later]
        rfl
      · obtain ⟨later,same,sub',only'⟩ := findEntries rest states path (results ++ inner)
        rw [if_neg (by simpa using first),same]
        refine ⟨inner ++ later,by simp,List.Sublist.append ?_ sub',fun none empty => ?_⟩
        · split
          · rename_i nil
            rw [List.isEmpty_iff] at nil
            rw [nil] at sub
            rw [List.sublist_nil.mp sub]
            exact List.nil_sublist _
          · exact sub
        · exact absurd (by rw [none,(List.append_eq_nil_iff.mp empty).1]; rfl) first
end

variable {m : MachineDefinition} {v : StateValue}

theorem memDeepest (accepted : Accepted m) (unique : distinct v = true) (x : MatchedTransition) :
    x ∈ handlersIn event v m.states [] ↔ Deepest m v event x.sourcePath ∧
      ∃ node, activeNode m.states v x.sourcePath = some node ∧ x ∈ nodeMatches node event x.sourcePath := by
  rw [memHandlers v unique accepted.states [] x]
  constructor
  · rintro ⟨chain,at_⟩
    have same : x.sourcePath = chain := at_.source
    rw [same]
    refine ⟨⟨matchHandles at_,at_.deepest⟩,?_⟩
    have active := at_.active
    rwa [same] at active
  · rintro ⟨⟨_,deepest⟩,active⟩
    exact ⟨x.sourcePath,rfl,active,deepest⟩

theorem deepestMatch (accepted : Accepted m) (unique : distinct v = true) {chain : List String} (deepest : Deepest m v event chain) :
    ∃ x ∈ handlersIn event v m.states [], x.sourcePath = chain := by
  obtain ⟨handled,below⟩ := deepest
  cases active : activeNode m.states v chain with
  | none => simp [active,handles] at handled
  | some node =>
    rw [active,handlesSome] at handled
    have node_ := activeAccepted accepted.states active
    rcases matchesOne node_ event chain with ⟨_,x,one,source⟩ | ⟨none,_⟩
    · have mem : x ∈ nodeMatches node event x.sourcePath := by rw [source,one]; exact List.mem_singleton_self x
      refine ⟨x,(memHandlers v unique accepted.states [] x).mpr ⟨chain,source,⟨node,active,mem⟩,below⟩,source⟩
    · exact absurd (none.symm.trans handled) (by decide)

theorem returnsAlone (accepted : Accepted m) (unique : distinct v = true)
    (alone : ∀ p q, Deepest m v event p → Deepest m v event q → p = q) :
    resolveTransitionsForEvent m v event = handlersIn event v m.states [] ∧ (handlersIn event v m.states []).length ≤ 1 := by
  have once := @handlersOnce event v unique m.states accepted.states []
  have deepest (x) (mem : x ∈ handlersIn event v m.states []) : Deepest m v event x.sourcePath :=
    ((memDeepest accepted unique x).mp mem).1
  obtain ⟨found,same,sub,only⟩ := @findSome event v m.states [] []
  rw [resolveTransitionsForEvent,same,List.nil_append]
  rcases all : handlersIn event v m.states [] with _ | ⟨x,_ | ⟨y,rest⟩⟩
  · rw [all] at sub
    exact ⟨List.sublist_nil.mp sub,by simp⟩
  · rw [all] at sub only
    refine ⟨?_,by simp⟩
    rcases List.sublist_singleton.mp sub with none | one
    · exact absurd (only rfl none) (by simp)
    · exact one
  · rw [all] at once deepest
    have same := alone _ _ (deepest x (by simp)) (deepest y (by simp))
    rw [List.map_cons,List.map_cons,same,List.nodup_cons] at once
    exact absurd List.mem_cons_self once.1

theorem returnsExact (accepted : Accepted m) (unique : distinct v = true)
    (same : resolveTransitionsForEvent m v event = handlersIn event v m.states []) : Returns m v event := by
  refine ⟨?_,fun x => ?_⟩
  · rw [same]
    exact handlersOnce v unique accepted.states []
  · rw [same]
    exact memDeepest accepted unique x

end
end Dfsm.Rust
