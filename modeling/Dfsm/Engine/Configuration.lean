import Dfsm.Engine.Statechart
import Dfsm.Definition.Loaded

/-! Configurations in the shape the specification prescribes, and the nodes that
are active in one. A chain is the list of keys from the root down to a node. -/
namespace Dfsm
open Keyed (Record)

/-- A value held by a container of the given type over the given children: one
active child of a compound, all regions of a parallel, leaves as their keys. -/
inductive LegalIn : StateNodeType → Record StateNodeIR → StateValue → Prop where
  | leafChild {states key child} (found : Keyed.get states key = some child)
      (leaf : child.isLeaf = true) : LegalIn .compound states (.str key)
  | nested {states key child v} (found : Keyed.get states key = some child)
      (inner : child.isLeaf = false) (below : LegalIn child.type child.states v) :
      LegalIn .compound states (.obj [(key,v)])
  | regions {states entries} (unique : (Keyed.keys entries).Nodup)
      (all : ∀ k, k ∈ Keyed.keys entries ↔ k ∈ Keyed.keys states)
      (leaves : ∀ k r v, Keyed.get states k = some r → r.isLeaf = true →
        Keyed.get entries k = some v → v = .str k)
      (below : ∀ k r v, Keyed.get states k = some r → r.isLeaf = false →
        Keyed.get entries k = some v → LegalIn r.type r.states v) : LegalIn .parallel states (.obj entries)

/-- The children the root holds: a parallel root does not run the implicit error state. -/
def rootStates (machine : RawMachine) : Record StateNodeIR :=
  match machine.type with
  | .compound => machine.states
  | .parallel => machine.states.filter (fun e => !e.2.isImplicitError)

def MachineType.node : MachineType → StateNodeType
  | .compound => .compound
  | .parallel => .parallel

/-- A parallel root may also stand in an error state that is a leaf. -/
def inError (machine : RawMachine) (v : StateValue) : Prop :=
  machine.type = .parallel ∧ v = .str "error" ∧
    ∃ node, Keyed.get machine.states "error" = some node ∧ node.isLeaf = true

def Legal (machine : RawMachine) (v : StateValue) : Prop :=
  LegalIn machine.type.node (rootStates machine) v ∨ inError machine v

/-- The node at the end of the chain is active in the value of the container. -/
def isActive : Record StateNodeIR → StateValue → List String → Bool
  | _, _, [] => false
  | states, .str key, k::ks => key = k && ks.isEmpty && Keyed.has states k
  | states, .obj entries, k::ks => match Keyed.get entries k, Keyed.get states k with
    | some v, some node => ks.isEmpty || (!node.isLeaf && isActive node.states v ks)
    | _, _ => false

theorem leafOrContainer (node : StateNodeIR) :
    node.isLeaf = true ∨ node.type = .compound ∨ node.type = .parallel := by
  cases h : node.type <;> simp [StateNodeIR.isLeaf,h]

theorem leafType {node : StateNodeIR} : node.isLeaf = true ↔ node.type = .atomic ∨ node.type = .final := by
  simp [StateNodeIR.isLeaf]

theorem containerType {node : StateNodeIR} (inner : node.isLeaf = false) :
    node.type = .compound ∨ node.type = .parallel := by
  rcases leafOrContainer node with leaf | container
  · rw [leaf] at inner; contradiction
  · exact container

theorem validLeafEmpty {node} (valid : Valid node) (leaf : node.isLeaf = true) : node.states = [] := by
  cases valid with
  | leaf _ empty => exact empty
  | compound type => simp [StateNodeIR.isLeaf,type] at leaf
  | parallel type => simp [StateNodeIR.isLeaf,type] at leaf

theorem keysFilterNodup {states : Record StateNodeIR} (unique : (Keyed.keys states).Nodup)
    (p : String × StateNodeIR → Bool) : (Keyed.keys (states.filter p)).Nodup :=
  unique.sublist (List.filter_sublist.map Prod.fst)

theorem getFilter {states : Record StateNodeIR} (unique : (Keyed.keys states).Nodup)
    {p : String × StateNodeIR → Bool} {k node} :
    Keyed.get (states.filter p) k = some node ↔ Keyed.get states k = some node ∧ p (k,node) = true := by
  constructor
  · intro h
    obtain ⟨mem,ok⟩ := List.mem_filter.mp (Keyed.getSome h)
    exact ⟨Keyed.getOfMem unique mem,ok⟩
  · rintro ⟨h,ok⟩
    exact Keyed.getOfMem (keysFilterNodup unique p) (List.mem_filter.mpr ⟨Keyed.getSome h,ok⟩)

section
variable {machine : MachineDefinition} (loaded : Loaded machine)
include loaded

theorem rootUnique : (Keyed.keys (rootStates machine.toRawMachine)).Nodup := by
  unfold rootStates
  split
  · exact loadedUnique loaded
  · exact keysFilterNodup (loadedUnique loaded) _

theorem rootGet {k node} : Keyed.get (rootStates machine.toRawMachine) k = some node ↔
    Keyed.get machine.states k = some node ∧
      (machine.type = .parallel → node.isImplicitError = false) := by
  unfold rootStates
  cases ht : machine.type with
  | compound => simp
  | parallel => simp [getFilter (loadedUnique loaded)]

theorem rootWellFormed {k node} (found : Keyed.get (rootStates machine.toRawMachine) k = some node) :
    WellFormed "" k node :=
  loadedWellFormed loaded _ (Keyed.getSome ((rootGet loaded).mp found).1)

end

/-! What `enterSubtree` contributes. -/

theorem enterLeaf {node : StateNodeIR} (leaf : node.isLeaf = true) : enterSubtree node = ⟨none,[node]⟩ := by
  obtain ⟨key,path,type,initial,entry,exit,on,onDone,states,isImplicitError⟩ := node
  rcases leafType.mp leaf with h | h <;> (dsimp only at h; subst h; rfl)

theorem enterInitialGet {states : List (String × StateNodeIR)} {start child}
    (found : Keyed.get states start = some child) :
    enterInitial states (some start) = some (child.key,enterSubtree child) := by
  induction states with
  | nil => simp at found
  | cons first rest ih =>
    obtain ⟨key,node⟩ := first
    rw [Keyed.getCons] at found
    simp only [enterInitial,Option.some.injEq]
    split at found
    · rename_i here; cases found; rw [if_pos here]
    · rename_i other; rw [if_neg other]; exact ih found

theorem enterRegionsMap (states : List (String × StateNodeIR)) :
    enterRegions states = states.map (fun e => (e.1,enterSubtree e.2)) := by
  induction states with
  | nil => rfl
  | cons first rest ih => simp [enterRegions,ih]

theorem enterCompound {node child : StateNodeIR} {start} (type : node.type = .compound)
    (initial : node.initial = some start) (found : Keyed.get node.states start = some child) :
    enterSubtree node = ⟨some ((enterSubtree child).slot child.key),node::(enterSubtree child).nodes⟩ := by
  obtain ⟨key,path,type,initial,entry,exit,on,onDone,states,isImplicitError⟩ := node
  dsimp only at *
  subst type initial
  rw [enterSubtree,enterInitialGet found]

def regionEntry (e : String × StateNodeIR) : String × StateValue :=
  (e.1,(enterSubtree e.2).subValue.getD (.str e.1))

theorem enterParallel {node : StateNodeIR} (type : node.type = .parallel) :
    enterSubtree node = ⟨some (.obj (node.states.map regionEntry)),
      node::node.states.flatMap (fun e => (enterSubtree e.2).nodes)⟩ := by
  obtain ⟨key,path,type,initial,entry,exit,on,onDone,states,isImplicitError⟩ := node
  dsimp only at *
  subst type
  rw [enterSubtree,enterRegionsMap,List.map_map,List.flatMap_map]
  rfl

theorem getRegionEntry {states : Record StateNodeIR} {k r} (found : Keyed.get states k = some r) :
    Keyed.get (states.map regionEntry) k = some ((enterSubtree r).subValue.getD (.str k)) := by
  induction states with
  | nil => simp at found
  | cons first rest ih =>
    rw [Keyed.getCons] at found
    rw [List.map_cons,Keyed.getCons]
    split at found
    · rename_i here; cases found; simp [regionEntry,here]
    · rename_i other; rw [if_neg (by simpa [regionEntry] using other)]; exact ih found

theorem keysRegionEntry (states : Record StateNodeIR) :
    Keyed.keys (states.map regionEntry) = Keyed.keys states := by
  simp [Keyed.keys,regionEntry,Function.comp_def]

theorem enterRegionsLegal {states : Record StateNodeIR} (unique : (Keyed.keys states).Nodup)
    (below : ∀ k r, Keyed.get states k = some r → r.isLeaf = false →
      ∃ v, (enterSubtree r).subValue = some v ∧ LegalIn r.type r.states v) :
    LegalIn .parallel states (.obj (states.map regionEntry)) := by
  refine .regions (by rwa [keysRegionEntry]) (by simp [keysRegionEntry]) ?_ ?_
  · intro k r v found leaf got
    rw [getRegionEntry found,enterLeaf leaf] at got
    exact (Option.some.inj got).symm
  · intro k r v found inner got
    obtain ⟨w,contributed,legal⟩ := below k r found inner
    rw [getRegionEntry found,contributed] at got
    cases Option.some.inj got
    exact legal

theorem slotLegal {states : Record StateNodeIR} {k child} (found : Keyed.get states k = some child)
    (below : child.isLeaf = false → ∃ v, (enterSubtree child).subValue = some v ∧ LegalIn child.type child.states v) :
    LegalIn .compound states ((enterSubtree child).slot k) := by
  cases leaf : child.isLeaf with
  | true => rw [enterLeaf leaf]; exact .leafChild found leaf
  | false =>
    obtain ⟨v,contributed,legal⟩ := below leaf
    rw [Entered.slot,contributed]
    exact .nested found leaf legal

theorem enterLegal {parentPath key node} (formed : WellFormed parentPath key node) (inner : node.isLeaf = false) :
    ∃ v, (enterSubtree node).subValue = some v ∧ LegalIn node.type node.states v := by
  induction formed with
  | node sameKey samePath unique valid children ih =>
    rename_i parentPath key node
    cases valid with
    | leaf leaf => rw [leaf] at inner; contradiction
    | compound type start found =>
      rename_i initial child _
      have mem := Keyed.getSome found
      have childKey : child.key = initial := by
        cases children _ mem with
        | node sameKey => exact sameKey
      rw [enterCompound type start found,type,childKey]
      exact ⟨_,rfl,slotLegal found (ih _ mem)⟩
    | parallel type =>
      rw [enterParallel type,type]
      exact ⟨_,rfl,enterRegionsLegal unique (fun k r found => ih _ (Keyed.getSome found))⟩

theorem initialLegal {machine : MachineDefinition} (loaded : Loaded machine) :
    Legal machine.toRawMachine (resolveInitialState machine.toRawMachine).1 := by
  left
  have formed := @rootWellFormed machine loaded
  have contributes {k r} (found : Keyed.get (rootStates machine.toRawMachine) k = some r)
      (inner : r.isLeaf = false) := enterLegal (formed found) inner
  cases ht : machine.type with
  | compound =>
    obtain ⟨start,child,initial,found⟩ := acceptedInitial (loadedAccepted loaded) ht
    have root : Keyed.get (rootStates machine.toRawMachine) start = some child :=
      (rootGet loaded).mpr ⟨found,by simp [ht]⟩
    have childKey : child.key = start := by
      cases formed root with
      | node sameKey => exact sameKey
    have legal := slotLegal root (contributes root)
    simpa [resolveInitialState,ht,initial,enterInitialGet found,childKey,MachineType.node] using legal
  | parallel =>
    have legal := enterRegionsLegal (rootUnique loaded) (fun k r found inner => contributes found inner)
    simp only [resolveInitialState,rootStates,ht,enterRegionsMap,List.map_map] at legal ⊢
    exact legal

end Dfsm
