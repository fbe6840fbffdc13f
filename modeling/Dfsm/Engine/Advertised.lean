import Dfsm.Engine.Exact
import Dfsm.Engine.Matches

/-! The events a configuration advertises against those it accepts, and the matches of
an event against the deepest active nodes that declare it. -/
namespace Dfsm
open Keyed (Record)

/-- The node at the end of the chain is active and declares this edge for the event. -/
structure Declares (event : String) (states : Record StateNodeIR) (v : StateValue) (q : List String)
    (m : MatchedTransition) : Prop where
  active : isActive states v q = true
  stored : lookupParts states none q = some m.sourceNode
  edge : Keyed.get m.sourceNode.on event = some m.edge

/-- It declares the event, and nothing active below it does. -/
structure DeepestAt (event : String) (states : Record StateNodeIR) (v : StateValue) (q : List String)
    (m : MatchedTransition) : Prop where
  here : Declares event states v q m
  quiet : ∀ r ≠ [], ∀ other, ¬Declares event states v (q ++ r) other

/-- The matches are those of the chains given, each with a match of its own. -/
def OneEach (ms : List MatchedTransition) (deepest : List String → MatchedTransition → Prop) : Prop :=
  ∃ found : List (List String × MatchedTransition), found.map Prod.snd = ms ∧ (found.map Prod.fst).Nodup ∧
    ∀ q m, (q,m) ∈ found ↔ deepest q m

/-- Names every object inherits are declared by each active leaf. -/
def Spoken (event : String) (states : Record StateNodeIR) (v : StateValue) : Prop :=
  inheritedNames.contains event = true → ∀ q node, LeafIn states v q node → Keyed.has node.on event = true

def ownMatch (node : StateNodeIR) (event : String) : List MatchedTransition :=
  ((Keyed.get node.on event).map (⟨node,·⟩)).toList

theorem memDeclared {node : StateNodeIR} {event : String} {m : MatchedTransition} :
    m ∈ ownMatch node event ↔ m.sourceNode = node ∧ Keyed.get node.on event = some m.edge := by
  obtain ⟨source,edge⟩ := m
  cases h : Keyed.get node.on event with
  | none => simp [ownMatch,h]
  | some own =>
    simp only [ownMatch,h,Option.map_some,Option.toList_some,List.mem_singleton,MatchedTransition.mk.injEq,Option.some.injEq]
    exact and_congr_right (fun _ => eq_comm)

theorem selfDeclared {node : StateNodeIR} {event : String}
    (spoken : inheritedNames.contains event = true → Keyed.has node.on event = true) :
    selfMatch node event = ownMatch node event := by
  unfold selfMatch ownMatch
  cases h : Keyed.get node.on event with
  | some edge => rfl
  | none =>
    dsimp only
    rw [if_neg]
    · rfl
    · intro inherited
      have declared := spoken inherited
      simp [Keyed.has,h] at declared

section
variable {event : String} {states : Record StateNodeIR} {entries : Record StateValue}

/-- A deepest declaring node at or below a child, in the value held for it. -/
def Under (event : String) (child : StateNodeIR) (w : StateValue) (q : List String) (m : MatchedTransition) : Prop :=
  match q with
  | [] => m.sourceNode = child ∧ Keyed.get child.on event = some m.edge ∧
      (child.isLeaf = false → ∀ r other, ¬Declares event child.states w r other)
  | q => child.isLeaf = false ∧ DeepestAt event child.states w q m

theorem declaresBelow {key child w q m} (found : Keyed.get states key = some child) (got : Keyed.get entries key = some w)
    (any : q ≠ []) : Declares event states (.obj entries) (key::q) m ↔
      child.isLeaf = false ∧ Declares event child.states w q m := by
  obtain ⟨next,q,rfl⟩ := List.exists_cons_of_ne_nil any
  constructor
  · rintro ⟨active,stored,edge⟩
    simp only [isActive,got,found,List.isEmpty_cons,Bool.false_or,Bool.and_eq_true,Bool.not_eq_true'] at active
    exact ⟨active.1,active.2,by simpa only [lookupParts,found] using stored,edge⟩
  · rintro ⟨inner,active,stored,edge⟩
    exact ⟨by simpa [isActive,got,found,inner] using active,by simpa only [lookupParts,found] using stored,edge⟩

theorem declaresHere {key child w m} (found : Keyed.get states key = some child) (got : Keyed.get entries key = some w) :
    Declares event states (.obj entries) [key] m ↔ m.sourceNode = child ∧ Keyed.get child.on event = some m.edge := by
  constructor
  · rintro ⟨_,stored,edge⟩
    simp only [lookupParts,found,Option.some.injEq] at stored
    exact ⟨stored.symm,stored ▸ edge⟩
  · rintro ⟨same,edge⟩
    exact ⟨by simp [isActive,got,found],by simp [lookupParts,found,same],same ▸ edge⟩

theorem deepestUnder {key child w q m} (found : Keyed.get states key = some child) (got : Keyed.get entries key = some w) :
    DeepestAt event states (.obj entries) (key::q) m ↔ Under event child w q m := by
  cases q with
  | nil =>
    constructor
    · rintro ⟨here,quiet⟩
      obtain ⟨same,edge⟩ := (declaresHere found got).mp here
      refine ⟨same,edge,fun inner r other below => ?_⟩
      have any : r ≠ [] := by rintro rfl; simpa [isActive] using below.active
      exact quiet r any other ((declaresBelow found got any).mpr ⟨inner,below⟩)
    · rintro ⟨same,edge,quiet⟩
      refine ⟨(declaresHere found got).mpr ⟨same,edge⟩,fun r any other below => ?_⟩
      obtain ⟨inner,deeper⟩ := (declaresBelow found got any).mp below
      exact quiet inner r other deeper
  | cons next q =>
    constructor
    · rintro ⟨here,quiet⟩
      obtain ⟨inner,deeper⟩ := (declaresBelow found got (by simp)).mp here
      refine ⟨inner,deeper,fun r any other below => ?_⟩
      exact quiet r any other ((declaresBelow found got (by simp)).mpr ⟨inner,below⟩)
    · rintro ⟨inner,deeper,quiet⟩
      refine ⟨(declaresBelow found got (by simp)).mpr ⟨inner,deeper⟩,fun r any other below => ?_⟩
      exact quiet r any other ((declaresBelow found got (by simp)).mp below).2

/-- A child answers for itself where nothing below it does. -/
def childMatches (event : String) (child : StateNodeIR) (w : StateValue) : List MatchedTransition :=
  searchInSubtree event child (if child.isLeaf then none else some w)

/-- What the children hold against the event, by the type of the container. -/
def beneath (event : String) (type : StateNodeType) (states : Record StateNodeIR) (v : StateValue) : List MatchedTransition :=
  match type, v with
  | .parallel, .obj entries => searchRegions event states entries
  | .parallel, .str _ => searchRegions event states []
  | _, .str child => searchChild event states child none
  | _, .obj entries =>
    ((entries.map (fun e => searchChild event states e.1 (some e.2))).find? (fun ms => !ms.isEmpty)).getD []

theorem searchInner {node : StateNodeIR} (inner : node.isLeaf = false) (v : StateValue) :
    searchInSubtree event node (some v) = if (beneath event node.type node.states v).isEmpty then selfMatch node event
      else beneath event node.type node.states v := by
  obtain ⟨key,path,type,initial,entry,exit,on,onDone,states,isImplicitError⟩ := node
  rcases containerType inner with h | h
  · dsimp only at h
    subst h
    cases v <;> rfl
  · dsimp only at h
    subst h
    cases v <;> rfl

/-- The answer of a container: its deepest declaring nodes, or none where nothing declares. -/
structure Answers (event : String) (states : Record StateNodeIR) (v : StateValue) (ms : List MatchedTransition) : Prop where
  listed : OneEach ms (DeepestAt event states v)
  quiet : ms = [] → ∀ q m, ¬Declares event states v q m

theorem spokenBelow {key child w} (found : Keyed.get states key = some child) (got : Keyed.get entries key = some w)
    (inner : child.isLeaf = false) (spoken : Spoken event states (.obj entries)) : Spoken event child.states w :=
  fun inherited q node here => spoken inherited (key::q) node ((leafBelow found got inner).mpr here)

theorem oneEachNone {deepest : List String → MatchedTransition → Prop} (none : ∀ q m, ¬deepest q m) : OneEach [] deepest :=
  ⟨[],rfl,List.nodup_nil,fun q m => iff_of_false (by simp) (none q m)⟩

theorem oneEachOwn {child : StateNodeIR} {q : List String} {deepest : List String → MatchedTransition → Prop}
    (only : ∀ r m, deepest r m ↔ r = q ∧ m.sourceNode = child ∧ Keyed.get child.on event = some m.edge) :
    OneEach (ownMatch child event) deepest := by
  refine ⟨(ownMatch child event).map (fun m => (q,m)),by simp,?_,fun r m => ?_⟩
  · rw [List.map_map,Function.comp_def]
    unfold ownMatch
    cases Keyed.get child.on event <;> simp
  · rw [only,List.mem_map,← memDeclared]
    constructor
    · rintro ⟨m,mem,same⟩
      cases same
      exact ⟨rfl,mem⟩
    · rintro ⟨rfl,mem⟩
      exact ⟨m,mem,rfl⟩

theorem underNone {child : StateNodeIR} {w q m} (quiet : ∀ q m, ¬Declares event child.states w q m) :
    Under event child w q m ↔ q = [] ∧ m.sourceNode = child ∧ Keyed.get child.on event = some m.edge := by
  cases q with
  | nil => exact ⟨fun under => ⟨rfl,under.1,under.2.1⟩,fun own => ⟨own.2.1,own.2.2,fun _ => quiet⟩⟩
  | cons next q => exact iff_of_false (fun under => quiet _ _ under.2.here) (by simp)

theorem underSome {child : StateNodeIR} {w q m r other} (inner : child.isLeaf = false) (loud : Declares event child.states w r other) :
    Under event child w q m ↔ DeepestAt event child.states w q m := by
  cases q with
  | nil =>
    refine iff_of_false (fun under => under.2.2 inner r other loud) (fun deepest => ?_)
    simpa [isActive] using deepest.here.active
  | cons next q => exact ⟨fun under => under.2,fun deepest => ⟨inner,deepest⟩⟩

theorem childAnswers {key child w} (found : Keyed.get states key = some child) (got : Keyed.get entries key = some w)
    (spoken : Spoken event states (.obj entries)) (empty : child.isLeaf = true → child.states = [])
    (shaped : child.isLeaf = false → Shaped child.states w)
    (below : child.isLeaf = false → Answers event child.states w (beneath event child.type child.states w)) :
    OneEach (childMatches event child w) (Under event child w) ∧
      (childMatches event child w = [] → ∀ q m, ¬Declares event states (.obj entries) (key::q) m) := by
  -- a child nothing below which declares the event answers by its own edge
  have own (quiet : ∀ q m, ¬Declares event child.states w q m) (same : selfMatch child event = ownMatch child event) :
      OneEach (selfMatch child event) (Under event child w) ∧
        (selfMatch child event = [] → ∀ q m, ¬Declares event states (.obj entries) (key::q) m) := by
    rw [same]
    refine ⟨oneEachOwn (fun r m => underNone quiet),fun none q m declares => ?_⟩
    cases q with
    | nil =>
      have mem := memDeclared.mpr ((declaresHere found got).mp declares)
      rw [none] at mem
      contradiction
    | cons next q => exact quiet _ _ ((declaresBelow found got (by simp)).mp declares).2
  unfold childMatches
  cases leaf : child.isLeaf with
  | true =>
    rw [if_pos rfl,searchLeaf leaf]
    refine own (fun q m declares => ?_) (selfDeclared (fun inherited => ?_))
    · have stored := declares.stored
      rw [empty leaf] at stored
      cases q with
      | nil => simp [lookupParts] at stored
      | cons next q => simp [lookupParts] at stored
    · exact spoken inherited [key] child ((leafHere found got leaf).mpr ⟨rfl,rfl⟩)
  | false =>
    have answers := below leaf
    rw [if_neg (by simp),searchInner leaf]
    split
    · rename_i nothing
      have quiet := answers.quiet (List.isEmpty_iff.mp nothing)
      refine own quiet (selfDeclared (fun inherited => ?_))
      obtain ⟨q,node,here⟩ := leafExists (shaped leaf)
      obtain ⟨edge,has⟩ := Option.isSome_iff_exists.mp (spokenBelow found got leaf spoken inherited q node here)
      exact absurd ⟨here.active,here.stored,has⟩ (quiet q ⟨node,edge⟩)
    · rename_i something
      rw [List.isEmpty_iff] at something
      refine ⟨?_,fun none => absurd none something⟩
      obtain ⟨pairs,same,once,all⟩ := answers.listed
      obtain ⟨⟨r,other⟩,mem⟩ := List.exists_mem_of_ne_nil pairs (by rintro rfl; exact something same.symm)
      refine ⟨pairs,same,once,fun q m => ?_⟩
      rw [all,underSome leaf ((all r other).mp mem).here]

theorem oneEachFlat {α : Type} {key : α → String} {ms : α → List MatchedTransition}
    {deepest : α → List String → MatchedTransition → Prop} {items : List α} (unique : (items.map key).Nodup)
    (each : ∀ i ∈ items, OneEach (ms i) (deepest i)) :
    OneEach (items.flatMap ms) (fun q m => ∃ i ∈ items, ∃ r, q = key i::r ∧ deepest i r m) := by
  induction items with
  | nil => exact oneEachNone (by simp)
  | cons i rest ih =>
    obtain ⟨here,same,once,all⟩ := each i List.mem_cons_self
    obtain ⟨others,same',once',all'⟩ := ih (List.nodup_cons.mp unique).2 (fun j mem => each j (List.mem_cons_of_mem _ mem))
    refine ⟨here.map (fun p => (key i::p.1,p.2)) ++ others,?_,?_,fun q m => ?_⟩
    · simp [← same,← same',Function.comp_def]
    · rw [List.map_append,List.nodup_append]
      refine ⟨?_,once',?_⟩
      · rw [List.map_map]
        have below := @List.Nodup.map _ _ _ (key i::·) (fun c d same => (List.cons.inj same).2) once
        simpa only [List.map_map,Function.comp_def] using below
      · rintro c inHere d inOthers rfl
        obtain ⟨p,memP,rfl⟩ := List.mem_map.mp inHere
        obtain ⟨p',memP',same⟩ := List.mem_map.mp inOthers
        obtain ⟨j,memJ,r,chain,_⟩ := (all' p'.1 p'.2).mp memP'
        obtain ⟨first,_,rfl⟩ := List.mem_map.mp memP
        have keys : key i = key j := (List.cons.inj (same.symm.trans chain)).1
        exact (List.nodup_cons.mp unique).1 (keys ▸ List.mem_map.mpr ⟨j,memJ,rfl⟩)
    · rw [List.mem_append,all',List.mem_map]
      constructor
      · rintro (⟨p,mem,same⟩ | ⟨j,mem,r,chain,deep⟩)
        · cases same
          exact ⟨i,List.mem_cons_self,p.1,rfl,(all p.1 p.2).mp mem⟩
        · exact ⟨j,List.mem_cons_of_mem _ mem,r,chain,deep⟩
      · rintro ⟨j,mem,r,chain,deep⟩
        rcases List.mem_cons.mp mem with rfl | later
        · exact .inl ⟨(r,m),(all r m).mpr deep,by rw [chain]⟩
        · exact .inr ⟨j,later,r,chain,deep⟩

/-- The answer of the child under a key, where the value has that entry. -/
def slotMatches (event : String) (states : Record StateNodeIR) (entries : Record StateValue) (key : String) : List MatchedTransition :=
  match Keyed.get states key, Keyed.get entries key with
  | some child, some w => childMatches event child w
  | _, _ => []

theorem activeHeadHeld {key q} (active : isActive states (.obj entries) (key::q) = true) :
    ∃ child w, Keyed.get states key = some child ∧ Keyed.get entries key = some w := by
  simp only [isActive] at active
  split at active
  · rename_i w child got found
    exact ⟨child,w,found,got⟩
  · contradiction

theorem entriesAnswer {keys : List String} (unique : keys.Nodup)
    (covered : ∀ key, (Keyed.get states key).isSome → (Keyed.get entries key).isSome → key ∈ keys)
    (spoken : Spoken event states (.obj entries))
    (empty : ∀ key child, Keyed.get states key = some child → child.isLeaf = true → child.states = [])
    (shaped : Shaped states (.obj entries))
    (below : ∀ key child w, Keyed.get states key = some child → Keyed.get entries key = some w →
      child.isLeaf = false → Answers event child.states w (beneath event child.type child.states w)) :
    Answers event states (.obj entries) (keys.flatMap (slotMatches event states entries)) := by
  have slot (key) : OneEach (slotMatches event states entries key) (fun r m => DeepestAt event states (.obj entries) (key::r) m) ∧
      (slotMatches event states entries key = [] → ∀ q m, ¬Declares event states (.obj entries) (key::q) m) := by
    unfold slotMatches
    split
    · rename_i child w found got
      have inside (inner : child.isLeaf = false) : Shaped child.states w := by
        cases shaped with
        | obj _ _ _ below => exact below key w child got found inner
      obtain ⟨listed,quiet⟩ := childAnswers found got spoken (empty key child found) inside (below key child w found got)
      refine ⟨?_,quiet⟩
      simpa only [deepestUnder found got] using listed
    · rename_i missing
      have quiet (q m) : ¬Declares event states (.obj entries) (key::q) m := by
        intro declares
        obtain ⟨child,w,found,got⟩ := activeHeadHeld declares.active
        exact missing child w found got
      exact ⟨oneEachNone (fun q m deepest => quiet q m deepest.here),fun _ => quiet⟩
  have head {q m} (declares : Declares event states (.obj entries) q m) : ∃ key ∈ keys, ∃ r, q = key::r := by
    cases q with
    | nil => simpa [isActive] using declares.active
    | cons key r =>
      obtain ⟨child,w,found,got⟩ := activeHeadHeld declares.active
      exact ⟨key,covered key (by simp [found]) (by simp [got]),r,rfl⟩
  constructor
  · obtain ⟨found,same,once,all⟩ := @oneEachFlat String id _ _ keys (by simpa using unique) (fun key _ => (slot key).1)
    refine ⟨found,same,once,fun q m => ?_⟩
    rw [all]
    constructor
    · rintro ⟨key,_,r,rfl,deepest⟩
      exact deepest
    · intro deepest
      obtain ⟨key,mem,r,rfl⟩ := head deepest.here
      exact ⟨key,mem,r,rfl,deepest⟩
  · intro none q m declares
    obtain ⟨key,mem,r,rfl⟩ := head declares
    exact (slot key).2 (List.flatMap_eq_nil_iff.mp none key mem) r m declares

end

theorem regionsSlots {event : String} {states : Record StateNodeIR} {entries : Record StateValue}
    (unique : (Keyed.keys states).Nodup) (held : ∀ k, k ∈ Keyed.keys entries ↔ k ∈ Keyed.keys states) :
    searchRegions event states entries = (Keyed.keys states).flatMap (slotMatches event states entries) := by
  rw [searchRegionsFlat,Keyed.keys,List.flatMap_map]
  refine List.flatMap_congr (fun e mem => ?_)
  have found := Keyed.getOfMem unique (show (e.1,e.2) ∈ states from mem)
  have present : e.1 ∈ Keyed.keys entries := (held e.1).mpr (List.mem_map.mpr ⟨e,mem,rfl⟩)
  obtain ⟨w,got⟩ := Option.isSome_iff_exists.mp (Keyed.getIsSome.mpr present)
  simp only [slotMatches,found,got,childMatches]

theorem leafAnswers {event : String} {states : Record StateNodeIR} {key child} (found : Keyed.get states key = some child)
    (leaf : child.isLeaf = true) (spoken : Spoken event states (.str key)) :
    Answers event states (.str key) (selfMatch child event) := by
  have here : LeafIn states (.str key) [key] child := ⟨by simp [isActive,Keyed.has,found],by simp [lookupParts,found],leaf⟩
  have only {q m} : Declares event states (.str key) q m ↔
      q = [key] ∧ m.sourceNode = child ∧ Keyed.get child.on event = some m.edge := by
    constructor
    · rintro ⟨active,stored,edge⟩
      cases q with
      | nil => simp [isActive] at active
      | cons k q =>
        simp only [isActive,Bool.and_eq_true,decide_eq_true_eq,List.isEmpty_iff] at active
        obtain ⟨⟨rfl,rfl⟩,_⟩ := active
        simp only [lookupParts,found,Option.some.injEq] at stored
        exact ⟨rfl,stored.symm,stored ▸ edge⟩
    · rintro ⟨rfl,same,edge⟩
      exact ⟨here.active,by rw [same]; exact here.stored,same ▸ edge⟩
  rw [selfDeclared (fun inherited => spoken inherited [key] child here)]
  constructor
  · refine oneEachOwn (fun q m => ⟨fun deepest => only.mp deepest.here,fun own => ⟨only.mpr own,?_⟩⟩)
    intro r any other below
    obtain ⟨rfl,_⟩ := own
    have more := (only.mp below).1
    simp [any] at more
  · intro none q m declares
    have mem := memDeclared.mpr (only.mp declares).2
    rw [none] at mem
    contradiction

theorem nestedSlot {event : String} {states : Record StateNodeIR} {key child v} (found : Keyed.get states key = some child)
    (inner : child.isLeaf = false) :
    beneath event .compound states (.obj [(key,v)]) = slotMatches event states [(key,v)] key := by
  have got : Keyed.get [(key,v)] key = some v := by simp
  have here := searchChildGet event states key (some v)
  rw [found] at here
  simp only [slotMatches,found,got,childMatches,inner,beneath,List.map_cons,List.map_nil,here]
  cases h : searchInSubtree event child (some v) <;> simp [h]

theorem wellFormedUnique {parentPath key node} (formed : WellFormed parentPath key node) : (Keyed.keys node.states).Nodup := by
  cases formed with
  | node _ _ unique => exact unique

theorem beneathAnswers {event : String} {type states v} (legal : LegalIn type states v) (any : states ≠ [])
    (unique : (Keyed.keys states).Nodup) {parentPath} (formed : ∀ e ∈ states, WellFormed parentPath e.1 e.2)
    (spoken : Spoken event states v) : Answers event states v (beneath event type states v) := by
  have empty {states : Record StateNodeIR} {parentPath} (formed : ∀ e ∈ states, WellFormed parentPath e.1 e.2) (key child)
      (found : Keyed.get states key = some child) (leaf : child.isLeaf = true) : child.states = [] :=
    validLeafEmpty (wellFormedValid (formed _ (Keyed.getSome found))) leaf
  induction legal generalizing parentPath with
  | @leafChild states key child found leaf =>
    have same := searchChildGet event states key none
    rw [found] at same
    dsimp only at same
    rw [beneath,same,searchLeaf leaf]
    · exact leafAnswers found leaf spoken
    · simp
  | @nested states key child v found inner below ih =>
    have shaped := legalShapedIn (.nested found inner below) (fun k c here => wellFormedValid (formed _ (Keyed.getSome here))) any
    have formedChild := formed _ (Keyed.getSome found)
    have answer := @entriesAnswer event states [(key,v)] [key] (by simp)
      (fun k _ got => by simpa [Keyed.getSingle] using got) spoken (empty formed) shaped
      (fun k other w here got _ => by
        rw [Keyed.getSingle] at got
        split at got
        · rename_i same
          subst k
          cases got
          cases Option.some.inj (found.symm.trans here)
          exact ih (validInside (wellFormedValid formedChild) inner) (wellFormedUnique formedChild)
            (wellFormedChildren formedChild) (spokenBelow found (by simp) inner spoken)
        · contradiction)
    rw [List.flatMap_cons,List.flatMap_nil,List.append_nil,← nestedSlot found inner] at answer
    exact answer
  | @regions states entries unique' all leaves below ih =>
    have shaped := legalShapedIn (.regions unique' all leaves below)
      (fun k c here => wellFormedValid (formed _ (Keyed.getSome here))) any
    have same : beneath event .parallel states (.obj entries) = searchRegions event states entries := rfl
    rw [same,regionsSlots unique all]
    refine entriesAnswer unique (fun key stored _ => Keyed.getIsSome.mp stored) spoken (empty formed) shaped ?_
    intro key child w found got inner
    have formedChild := formed _ (Keyed.getSome found)
    exact ih key child w found inner got (validInside (wellFormedValid formedChild) inner) (wellFormedUnique formedChild)
      (wellFormedChildren formedChild) (spokenBelow found got inner spoken)

theorem strLeaf {states : Record StateNodeIR} {key child q node} (found : Keyed.get states key = some child)
    (here : LeafIn states (.str key) q node) : node = child := by
  have active := here.active
  have stored := here.stored
  cases q with
  | nil => simp [isActive] at active
  | cons k q =>
    simp only [isActive,Bool.and_eq_true,decide_eq_true_eq,List.isEmpty_iff] at active
    obtain ⟨⟨rfl,rfl⟩,_⟩ := active
    simp only [lookupParts,found,Option.some.injEq] at stored
    exact stored.symm

theorem inheritedAnswer {event : String} (inherited : inheritedNames.contains event = true) (node : StateNodeIR) :
    ∃ m, m ∈ selfMatch node event := by
  unfold selfMatch
  split
  · exact ⟨_,List.mem_singleton_self _⟩
  · rw [if_pos inherited]
    exact ⟨_,List.mem_singleton_self _⟩

theorem childHeard {event : String} {states : Record StateNodeIR} {entries : Record StateValue} {key child w q node}
    (found : Keyed.get states key = some child) (got : Keyed.get entries key = some w)
    (here : LeafIn states (.obj entries) (key::q) node) (inherited : inheritedNames.contains event = true)
    (below : child.isLeaf = false → LeafIn child.states w q node →
      ∃ m ∈ beneath event child.type child.states w, m ∈ selfMatch node event) :
    ∃ m ∈ slotMatches event states entries key, m ∈ selfMatch node event := by
  have slot : slotMatches event states entries key = childMatches event child w := by simp only [slotMatches,found,got]
  rw [slot,childMatches]
  cases leaf : child.isLeaf with
  | true =>
    obtain ⟨_,rfl⟩ := (leafHere found got leaf).mp here
    obtain ⟨m,mem⟩ := inheritedAnswer inherited node
    exact ⟨m,by rw [if_pos rfl,searchLeaf leaf]; exact mem,mem⟩
  | false =>
    obtain ⟨m,mem,answer⟩ := below leaf ((leafBelow found got leaf).mp here)
    refine ⟨m,?_,answer⟩
    rw [if_neg (by simp),searchInner leaf,if_neg]
    · exact mem
    · intro none
      rw [List.isEmpty_iff.mp none] at mem
      contradiction

theorem leafHeard {event : String} (inherited : inheritedNames.contains event = true) {type states v}
    (legal : LegalIn type states v) (unique : (Keyed.keys states).Nodup) {parentPath}
    (formed : ∀ e ∈ states, WellFormed parentPath e.1 e.2) {q node} (here : LeafIn states v q node) :
    ∃ m ∈ beneath event type states v, m ∈ selfMatch node event := by
  induction legal generalizing parentPath q with
  | @leafChild states key child found leaf =>
    have same := strLeaf found here
    obtain ⟨m,mem⟩ := inheritedAnswer inherited node
    refine ⟨m,?_,mem⟩
    have search := searchChildGet event states key none
    rw [found] at search
    dsimp only at search
    rw [beneath,search,searchLeaf leaf,← same]
    · exact mem
    · simp
  | @nested states key child v found inner below ih =>
    have child' := formed _ (Keyed.getSome found)
    rw [nestedSlot found inner]
    cases q with
    | nil => simpa [isActive] using here.active
    | cons k q =>
      obtain rfl := singleKey here.active
      exact childHeard found (by simp) here inherited (fun _ deeper =>
        ih (wellFormedUnique child') (wellFormedChildren child') deeper)
  | @regions states entries unique' all leaves below ih =>
    have same : beneath event .parallel states (.obj entries) = searchRegions event states entries := rfl
    cases q with
    | nil => simpa [isActive] using here.active
    | cons k q =>
      obtain ⟨child,w,found,got⟩ := activeHeadHeld here.active
      have child' := formed _ (Keyed.getSome found)
      obtain ⟨m,mem,answer⟩ := childHeard found got here inherited (fun inner deeper =>
        ih k child w found inner got (wellFormedUnique child') (wellFormedChildren child') deeper)
      rw [same,regionsSlots unique all]
      exact ⟨m,List.mem_flatMap.mpr ⟨k,Keyed.getIsSome.mp (by simp [found]),mem⟩,answer⟩

section
variable {machine : MachineDefinition} (loaded : Loaded machine)
include loaded

variable {v : StateValue} (legal : Legal machine.toRawMachine v) {event : String}
include legal

theorem legalLeaf {key : String} (same : v = .str key) :
    ∃ child, Keyed.get machine.states key = some child ∧ child.isLeaf = true := by
  subst same
  cases legalShaped loaded legal with
  | str found leaf => exact ⟨_,found,leaf⟩

theorem resolvedSlots {entries : Record StateValue} (same : v = .obj entries) :
    resolveTransitionsForEvent machine.toRawMachine v event =
      (Keyed.keys entries).flatMap (slotMatches event machine.states entries) := by
  subst same
  have unique : (Keyed.keys entries).Nodup := by
    cases legalShaped loaded legal with
    | obj unique => exact unique
  rw [resolveTransitionsForEvent,Keyed.keys,List.flatMap_map]
  refine List.flatMap_congr (fun e mem => ?_)
  have got := Keyed.getOfMem unique (show (e.1,e.2) ∈ entries from mem)
  cases found : Keyed.get machine.states e.1 with
  | none => simp only [slotMatches,found]
  | some child => simp only [slotMatches,found,got,childMatches]

theorem legalBelow {entries : Record StateValue} (same : v = .obj entries) {key child w}
    (found : Keyed.get machine.states key = some child) (got : Keyed.get entries key = some w) (inner : child.isLeaf = false) :
    LegalIn child.type child.states w := by
  subst same
  have legalHere := legal.resolve_right (by rintro ⟨_,same,_⟩; contradiction)
  exact legalEntry legalHere (innerRoot loaded found inner) inner (by simpa [entryAt] using got)

theorem resolvedAnswers (spoken : Spoken event machine.states v) :
    Answers event machine.states v (resolveTransitionsForEvent machine.toRawMachine v event) := by
  have formed := loadedWellFormed loaded
  cases same : v with
  | str key =>
    obtain ⟨child,found,leaf⟩ := legalLeaf loaded legal same
    subst same
    rw [resolveTransitionsForEvent,found]
    dsimp only
    rw [searchLeaf leaf]
    exact leafAnswers found leaf spoken
  | obj entries =>
    rw [← same,resolvedSlots loaded legal same,same]
    have shaped := legalShaped loaded legal
    rw [same] at shaped spoken
    refine entriesAnswer ?_ (fun key _ held => Keyed.getIsSome.mp held) spoken ?_ shaped ?_
    · cases shaped with
      | obj unique => exact unique
    · intro key child found leaf
      exact validLeafEmpty (wellFormedValid (formed _ (Keyed.getSome found))) leaf
    · intro key child w found got inner
      have child' := formed _ (Keyed.getSome found)
      exact beneathAnswers (legalBelow loaded legal same found got inner) (validInside (wellFormedValid child') inner)
        (wellFormedUnique child') (wellFormedChildren child') (spokenBelow found got inner spoken)

theorem resolvedHeard (inherited : inheritedNames.contains event = true) {q node} (here : LeafIn machine.states v q node) :
    ∃ m ∈ resolveTransitionsForEvent machine.toRawMachine v event, m ∈ selfMatch node event := by
  cases same : v with
  | str key =>
    obtain ⟨child,found,leaf⟩ := legalLeaf loaded legal same
    subst same
    obtain ⟨m,mem⟩ := inheritedAnswer inherited node
    refine ⟨m,?_,mem⟩
    rw [resolveTransitionsForEvent,found]
    dsimp only
    rw [searchLeaf leaf,← strLeaf found here]
    exact mem
  | obj entries =>
    rw [← same,resolvedSlots loaded legal same]
    rw [same] at here
    cases q with
    | nil => simpa [isActive] using here.active
    | cons k q =>
      obtain ⟨child,w,found,got⟩ := activeHeadHeld here.active
      have child' := loadedWellFormed loaded _ (Keyed.getSome found)
      obtain ⟨m,mem,answer⟩ := childHeard found got here inherited (fun inner deeper =>
        leafHeard inherited (legalBelow loaded legal same found got inner) (wellFormedUnique child') (wellFormedChildren child') deeper)
      exact ⟨m,List.mem_flatMap.mpr ⟨k,Keyed.getIsSome.mp (by simp [got]),mem⟩,answer⟩

theorem chainKeys (plain : plainValue v = true) {c} (mem : c ∈ valueChains false machine.states v) : ∀ k ∈ c, Dotted.Plain k := by
  obtain ⟨q,node,here,rfl⟩ := (chainsReported (legalShaped loaded legal)).mp mem
  have keys := plainActive plain here.active
  intro k inside
  unfold reported at inside
  split at inside
  · rcases List.mem_append.mp inside with above | last
    · exact keys k above
    · exact keys k (List.mem_of_getLast? (Option.mem_toList.mp last))
  · exact keys k inside

omit loaded legal in
theorem finalQuiet {machine : RawMachine} : {node : StateNodeIR} → validateNode machine node = [] → node.type = .final → node.on = []
  | { key := _, path := _, type := _, initial := _, entry := _, exit := _, on, onDone := _, states := _, isImplicitError := _ },
      clean, final => by
    dsimp only at final
    subst final
    simp only [validateNode,shapeIssues,List.append_eq_nil_iff] at clean
    by_contra some_
    simp [some_] at clean

theorem availableDeclared (plain : plainValue v = true) :
    event ∈ getAvailableEvents machine.toRawMachine v ↔ ∃ q m, Declares event machine.states v q m := by
  have shaped := legalShaped loaded legal
  have formed (k child) (found : Keyed.get machine.states k = some child) : Valid child :=
    wellFormedValid (loadedWellFormed loaded _ (Keyed.getSome found))
  unfold getAvailableEvents
  rw [List.mem_eraseDups,plainLeafPaths plain shaped]
  simp only [List.mem_flatMap,List.mem_map,List.mem_reverse,List.mem_range]
  constructor
  · rintro ⟨path,⟨c,mem,rfl⟩,i,short,listed⟩
    have keys := chainKeys loaded legal plain mem
    rw [Dotted.partsJoin keys] at short listed
    rw [getNodeJoin (fun k inside => keys k (List.mem_of_mem_take inside))] at listed
    split at listed
    · contradiction
    · rename_i node stored
      split at listed
      · contradiction
      · obtain ⟨edge,has⟩ := Option.isSome_iff_exists.mp (Keyed.getIsSome.mpr listed)
        have any : c.take (i+1) ≠ [] := by
          rw [ne_eq,List.take_eq_nil_iff]
          rintro (none | rfl)
          · contradiction
          · simp at short
        exact ⟨c.take (i+1),⟨node,edge⟩,chainActive shaped formed mem (List.take_prefix _ _) any stored,stored,has⟩
  · rintro ⟨q,m,active,stored,edge⟩
    obtain ⟨c,mem,pre⟩ := @activeOnChain false _ _ _ shaped active
    have keys := chainKeys loaded legal plain mem
    have any : q ≠ [] := by rintro rfl; simp [isActive] at active
    have long : 0 < q.length := List.length_pos_iff.mpr any
    refine ⟨_,⟨c,mem,rfl⟩,q.length - 1,?_,?_⟩
    · rw [Dotted.partsJoin keys]
      have := pre.length_le
      omega
    · rw [Dotted.partsJoin keys,getNodeJoin (fun k inside => keys k (List.mem_of_mem_take inside)),
        Nat.sub_add_cancel long,← List.prefix_iff_eq_take.mp pre,stored]
      dsimp only
      rw [if_neg]
      · exact Keyed.getIsSome.mp (by simp [edge])
      · intro final
        have none := finalQuiet (loadedNode loaded stored any) final
        rw [none] at edge
        simp at edge

/-- What the event is answered by is advertised, and is the deepest active nodes that declare it. -/
structure Dispatched (machine : RawMachine) (v : StateValue) (event : String) : Prop where
  advertised : event ∈ getAvailableEvents machine v ↔ resolveTransitionsForEvent machine v event ≠ []
  deepest : OneEach (resolveTransitionsForEvent machine v event) (DeepestAt event machine.states v)

end

end Dfsm
