import Dfsm.Engine.Objects
import Dfsm.Engine.Rewrite

/-! Validation against the engine, on plain objects: when an accepted definition has every
node at its path, a start that reaches its leaves, and targets that can be taken. -/
namespace Dfsm.Objects
open Keyed (Record)

theorem bindOk {α β : Type} {x : Except String α} {f : α → Except String β} {b : β} :
    (x >>= f) = .ok b ↔ ∃ a, x = .ok a ∧ f a = .ok b := by
  cases x with
  | ok a =>
    constructor
    · intro ran
      exact ⟨a,rfl,ran⟩
    · intro ran
      obtain ⟨_,same,ran⟩ := ran
      cases same
      exact ran
  | error e =>
    constructor
    · intro ran
      cases ran
    · intro ran
      obtain ⟨_,same,_⟩ := ran
      cases same

/-! Lookups. -/

/-- Whether a walk leaves the declared states at an inherited name. -/
def meetsInherited : Record StateNodeIR → List String → Bool
  | _, [] => false
  | states, part::rest => match Keyed.get states part with
    | some node => meetsInherited node.states rest
    | none => inheritedNames.contains part

theorem slotsPlain {states : Record StateNodeIR} {parts : List String} (plain : meetsInherited states parts = false)
    (current : Option StateNodeIR) :
    lookupSlots states (current.map .own) parts = .ok ((lookupParts states current parts).map .own) := by
  induction parts generalizing states current with
  | nil => rfl
  | cons part rest ih =>
    simp only [meetsInherited] at plain
    simp only [lookupSlots,lookupParts,slot]
    cases found : Keyed.get states part with
    | none =>
      simp only [found] at plain
      simp only [plain]
      rfl
    | some node =>
      simp only [found] at plain
      exact ih plain (some node)

theorem slotsInherited {states : Record StateNodeIR} {parts : List String} (meets : meetsInherited states parts = true)
    (current : Option Slot) : (∃ e, lookupSlots states current parts = .error e) ∨ lookupSlots states current parts = .ok (some .inherited) := by
  induction parts generalizing states current with
  | nil => contradiction
  | cons part rest ih =>
    simp only [meetsInherited] at meets
    simp only [lookupSlots,slot]
    cases found : Keyed.get states part with
    | none =>
      simp only [found] at meets
      simp only [meets,if_true]
      cases rest with
      | nil => exact .inr rfl
      | cons next tail => exact .inl ⟨_,rfl⟩
    | some node =>
      simp only [found] at meets
      exact ih meets _

theorem meetsLast {states : Record StateNodeIR} {current : Option StateNodeIR} {front : List String} {k name : String} {node : StateNodeIR}
    (found : lookupParts states current (front ++ [k]) = some node) (meets : meetsInherited states (front ++ [name]) = true) :
    inheritedNames.contains name = true := by
  induction front generalizing states current with
  | nil =>
    simp only [List.nil_append,meetsInherited] at meets
    split at meets
    · contradiction
    · exact meets
  | cons j rest ih =>
    simp only [List.cons_append,lookupParts] at found
    simp only [List.cons_append,meetsInherited] at meets
    cases got : Keyed.get states j with
    | none => simp [got] at found
    | some child =>
      simp only [got] at found meets
      exact ih found meets

theorem slotsOwn {states : Record StateNodeIR} {parts : List String} {current : Option StateNodeIR} {node : StateNodeIR} :
    lookupSlots states (current.map .own) parts = .ok (some (.own node)) ↔ lookupParts states current parts = some node := by
  constructor
  · intro found
    cases meets : meetsInherited states parts with
    | false =>
      rw [slotsPlain meets] at found
      simpa using found
    | true => rcases slotsInherited meets (current.map .own) with ⟨e,other⟩ | other <;> (rw [other] at found; cases found)
  · intro found
    have plain : meetsInherited states parts = false := by
      induction parts generalizing states current with
      | nil => rfl
      | cons part rest ih =>
        simp only [lookupParts] at found
        simp only [meetsInherited]
        cases got : Keyed.get states part with
        | none => simp [got] at found
        | some child =>
          simp only [got] at found
          exact ih found
    rw [slotsPlain plain,found]
    rfl

theorem slotsFound {states : Record StateNodeIR} {parts : List String} {current : Option StateNodeIR} {found : Option Slot}
    (looked : lookupSlots states (current.map .own) parts = .ok found) :
    found = some .inherited ∨ found = (lookupParts states current parts).map .own := by
  cases meets : meetsInherited states parts with
  | false =>
    rw [slotsPlain meets] at looked
    exact .inr (Except.ok.inj looked).symm
  | true =>
    rcases slotsInherited meets (current.map .own) with ⟨e,other⟩ | other
    · rw [other] at looked
      cases looked
    · rw [other] at looked
      exact .inl (Except.ok.inj looked).symm

theorem pathFound {states : Record StateNodeIR} {dotPath path : String} (ok : pathAt states dotPath = .ok (some path)) :
    ∃ node, Dfsm.lookupByDotPath states dotPath = some node ∧ node.path = path := by
  unfold pathAt at ok
  cases looked : lookupByDotPath states dotPath with
  | error e => simp [looked,Except.map] at ok
  | ok found =>
    rw [looked] at ok
    have same : found.bind Slot.path = some path := by simpa [Except.map] using ok
    obtain ⟨s,rfl,here⟩ := Option.bind_eq_some_iff.mp same
    cases s with
    | inherited => cases here
    | own node => exact ⟨node,(@slotsOwn _ _ none node).mp looked,Option.some.inj here⟩

theorem resolvedRecord {machine : RawMachine} {sourceStatePath targetRef path : String}
    (ok : resolveTargetStatePath machine sourceStatePath targetRef = .ok (some path)) :
    Dfsm.resolveTargetStatePath machine sourceStatePath targetRef = some path := by
  have atRoot {dotPath} (ok : pathAt machine.states dotPath = .ok (some path)) :
      (Dfsm.lookupByDotPath machine.states dotPath).map (·.path) = some path := by
    obtain ⟨node,found,same⟩ := pathFound ok
    rw [found]
    exact congrArg some same
  unfold resolveTargetStatePath at ok
  unfold Dfsm.resolveTargetStatePath
  split at ok
  · rename_i hash
    rw [if_pos hash]
    dsimp only at ok ⊢
    split at ok
    · rename_i named
      rw [if_pos named]
      exact atRoot ok
    · rename_i other
      rw [if_neg other]
      exact atRoot ok
  · rename_i hash
    rw [if_neg hash]
    obtain ⟨sibling,looked,rest⟩ := bindOk.mp ok
    have same : (if parentSegments sourceStatePath = [] then none
        else Dfsm.lookupByDotPath machine.states (Dotted.join (parentSegments sourceStatePath ++ [targetRef]))).map Slot.own = sibling := by
      unfold siblingAt at looked
      split at looked
      · rename_i top
        rw [if_pos top]
        exact Except.ok.inj looked
      · rename_i below
        rw [if_neg below]
        rcases @slotsFound _ _ none _ looked with inherited | own
        · subst inherited
          cases rest
        · exact own.symm
    cases found : (if parentSegments sourceStatePath = [] then none
        else Dfsm.lookupByDotPath machine.states (Dotted.join (parentSegments sourceStatePath ++ [targetRef]))) with
    | none =>
      rw [found] at same
      subst same
      exact atRoot rest
    | some node =>
      rw [found] at same
      subst same
      exact Except.ok.inj rest

/-! What validation establishes. -/

/-- As the front ends hand it over and validation leaves it: key and path below every node,
and a start that is found, though not always a declared one. -/
inductive Shaped : String → String → StateNodeIR → Prop where
  | node {parentPath key node} (sameKey : node.key = key) (samePath : node.path = childPath parentPath key)
      (unique : (Keyed.keys node.states).Nodup)
      (start : node.type = .compound → ∃ initial, node.initial = some initial ∧ (slot node.states initial).isSome = true)
      (children : ∀ e ∈ node.states, Shaped node.path e.1 e.2) : Shaped parentPath key node

theorem mapNil {α : Type} {f : α → Except String (List String)} {xs : List α} {issues : List (List String)} (ok : xs.mapM f = .ok issues)
    (none : issues.flatten = []) : ∀ x ∈ xs, f x = .ok [] := by
  induction xs generalizing issues with
  | nil => simp
  | cons x rest ih =>
    rw [List.mapM_cons] at ok
    obtain ⟨here,first,ok⟩ := bindOk.mp ok
    obtain ⟨later,second,same⟩ := bindOk.mp ok
    cases same
    obtain ⟨nothing,none⟩ := List.append_eq_nil_iff.mp (by simpa using none : here ++ later.flatten = [])
    intro y mem
    rcases List.mem_cons.mp mem with same | inside
    · rw [same,first,nothing]
    · exact ih second none y inside

/-- No issue with a node: its shape, its edges and what is below it. -/
structure Checked (machine : RawMachine) (node : StateNodeIR) : Prop where
  shape : shapeIssues node.path node.type node.initial node.on node.states = []
  on : ∀ e ∈ node.on, validateEdge machine node.path s!"event '{e.1}'" e.2 = .ok []
  onDone : ∀ edge, node.onDone = some edge → validateEdge machine node.path "'onDone'" edge = .ok []
  below : validateNodes machine node.states = .ok []

theorem checkedNode {machine : RawMachine} {node : StateNodeIR} (ok : validateNode machine node = .ok []) : Checked machine node := by
  obtain ⟨key,path,type,initial,entry,exit,on,onDone,states,isImplicitError⟩ := node
  rw [validateNode] at ok
  obtain ⟨edges,first,ok⟩ := bindOk.mp ok
  obtain ⟨done,second,ok⟩ := bindOk.mp ok
  obtain ⟨below,third,same⟩ := bindOk.mp ok
  obtain ⟨⟨⟨shape,none⟩,nothing⟩,rest⟩ := by simpa only [List.append_eq_nil_iff] using Except.ok.inj same
  refine ⟨shape,mapNil first none,?_,by rw [third,rest]⟩
  intro edge here
  dsimp only at here
  subst here
  exact second.trans (congrArg _ nothing)

theorem checkedNodes {machine : RawMachine} {states : Record StateNodeIR} (ok : validateNodes machine states = .ok []) :
    ∀ e ∈ states, Checked machine e.2 := by
  induction states with
  | nil => simp
  | cons first rest ih =>
    obtain ⟨key,node⟩ := first
    rw [validateNodes] at ok
    obtain ⟨here,one,ok⟩ := bindOk.mp ok
    obtain ⟨later,two,same⟩ := bindOk.mp ok
    obtain ⟨nothing,none⟩ := List.append_eq_nil_iff.mp (Except.ok.inj same)
    subst nothing none
    intro e mem
    rcases List.mem_cons.mp mem with head | inside
    · subst head
      exact checkedNode one
    · exact ih two e inside

theorem checkedChain {machine : RawMachine} {states : Record StateNodeIR} {current : Option StateNodeIR} {ks : List String} {node : StateNodeIR}
    (checked : ∀ e ∈ states, Checked machine e.2) (found : lookupParts states current ks = some node) (step : ks ≠ []) : Checked machine node := by
  induction ks generalizing states current with
  | nil => contradiction
  | cons key rest ih =>
    simp only [lookupParts] at found
    cases hg : Keyed.get states key with
    | none => simp [hg] at found
    | some child =>
      simp only [hg] at found
      have here := checked _ (Keyed.getSome hg)
      cases rest with
      | nil =>
        cases found
        exact here
      | cons j tail => exact ih (checkedNodes here.below) found (by simp)

theorem shapeStart {path type initial on states} (shape : shapeIssues path type initial on states = []) (compound : type = .compound) :
    ∃ start, initial = some start ∧ (slot states start).isSome = true := by
  subst compound
  simp only [shapeIssues,List.append_eq_nil_iff] at shape
  have none := shape.2
  unfold initialIssues at none
  split at none
  · contradiction
  · rename_i start named
    split at none
    · rename_i found
      exact ⟨start,(Option.filter_eq_some_iff.mp named).1,found⟩
    · contradiction

mutual
theorem shapedNode {machine parentPath key} : (node : StateNodeIR) → builtNode parentPath key node = true → Checked machine node →
    Shaped parentPath key node
  | { key := own, path, type, initial, entry, exit, on, onDone, states, isImplicitError }, built, checked => by
    simp only [builtNode,Bool.and_eq_true,decide_eq_true_eq] at built
    obtain ⟨⟨⟨⟨same,here⟩,_⟩,unique⟩,rest⟩ := built
    exact .node same here unique (shapeStart checked.shape) (shapedAll states rest (checkedNodes checked.below))
theorem shapedAll {machine parentPath} : (states : List (String × StateNodeIR)) → builtStates parentPath states = true →
    (∀ e ∈ states, Checked machine e.2) → ∀ e ∈ states, Shaped parentPath e.1 e.2
  | [], _, _ => by intro e mem; simp at mem
  | (key,node)::rest, built, checked => by
    simp only [builtStates,Bool.and_eq_true] at built
    intro e mem
    rcases List.mem_cons.mp mem with same | inside
    · subst e; exact shapedNode node built.1 (checked _ List.mem_cons_self)
    · exact shapedAll rest built.2 (fun e he => checked e (List.mem_cons_of_mem _ he)) e inside
end

/-- A definition as a front end builds it, accepted by the validator. -/
structure Loaded (machine : MachineDefinition) : Prop where
  source : ∃ raw, (Keyed.keys raw.states).Nodup ∧ builtStates "" raw.states = true ∧
    finalizeAndValidateMachineIR raw = .ok machine

section
variable {machine : MachineDefinition} (loaded : Loaded machine)
include loaded

theorem loadedIssues : ∃ raw, (Keyed.keys raw.states).Nodup ∧ builtStates "" raw.states = true ∧ machine = injectErrorState raw ∧
    rootIssues machine.toRawMachine = [] ∧ defaultsIssues machine.toRawMachine = .ok [] ∧
    ∀ e ∈ machine.states, Checked machine.toRawMachine e.2 := by
  obtain ⟨raw,unique,built,ok⟩ := loaded.source
  unfold finalizeAndValidateMachineIR at ok
  split at ok <;> cases ok
  rename_i none
  obtain ⟨defaults,first,ok⟩ := bindOk.mp none
  obtain ⟨nodes,second,same⟩ := bindOk.mp ok
  obtain ⟨⟨⟨_,root⟩,nothing⟩,rest⟩ := by simpa only [List.append_eq_nil_iff] using Except.ok.inj same
  exact ⟨raw,unique,built,rfl,root,by rw [first,nothing],checkedNodes (by rw [second,rest])⟩

theorem loadedUnique : (Keyed.keys machine.states).Nodup := by
  obtain ⟨raw,unique,_,rfl,_⟩ := loadedIssues loaded
  unfold injectErrorState
  dsimp only
  split
  · exact unique
  · exact Keyed.setNodup unique _ _

theorem loadedShaped : ∀ e ∈ machine.states, Shaped "" e.1 e.2 := by
  obtain ⟨raw,_,built,rfl,_,_,checked⟩ := loadedIssues loaded
  have implicit : Shaped "" "error" implicitError :=
    .node rfl rfl (by decide) (fun compound => by cases compound) (by simp [implicitError])
  unfold injectErrorState at checked ⊢
  dsimp only at checked ⊢
  split
  · rename_i custom
    rw [if_pos custom] at checked
    exact shapedAll raw.states built checked
  · rename_i none
    rw [if_neg none] at checked
    intro e mem
    rw [Keyed.set,if_neg none] at mem
    rcases List.mem_cons.mp ((Keyed.insertPerm _ _ _).subset mem) with here | inside
    · rw [here]
      exact implicit
    · refine shapedAll raw.states built (fun other listed => checked other ?_) e inside
      rw [Keyed.set,if_neg none]
      exact (Keyed.insertPerm _ _ _).symm.subset (List.mem_cons_of_mem _ listed)

theorem loadedError : Keyed.has machine.states "error" = true := by
  obtain ⟨raw,_,_,rfl,_⟩ := loadedIssues loaded
  simp only [injectErrorState]
  split
  · assumption
  · simp [Keyed.has]

end

theorem shapedChain {parentPath states} (all : ∀ e ∈ states, Shaped parentPath e.1 e.2) {current ks k node}
    (found : lookupParts states current (ks ++ [k]) = some node) : Shaped (ks.foldl childPath parentPath) k node := by
  induction ks generalizing parentPath states current with
  | nil =>
    simp only [List.nil_append,lookupParts] at found
    cases hg : Keyed.get states k with
    | none => simp [hg] at found
    | some child =>
      simp only [hg] at found
      cases found
      exact all _ (Keyed.getSome hg)
  | cons j rest ih =>
    simp only [List.cons_append,lookupParts] at found
    cases hg : Keyed.get states j with
    | none => simp [hg] at found
    | some child =>
      simp only [hg] at found
      cases all _ (Keyed.getSome hg) with
      | node _ samePath _ _ children =>
        have below := ih children found
        rwa [samePath] at below

/-! Paths. -/

section
variable {machine : MachineDefinition} (loaded : Loaded machine)
include loaded

theorem chainPath {ks k node} (found : lookupParts machine.states none (ks ++ [k]) = some node) :
    node.key = k ∧ node.path = pathOf (ks ++ [k]) := by
  cases shapedChain (loadedShaped loaded) found with
  | node sameKey samePath _ _ _ =>
    refine ⟨sameKey,samePath.trans ?_⟩
    rw [pathOf,List.foldl_append]
    rfl

theorem pathParts (clean : KeysClean machine.toRawMachine) {ks node} (found : lookupParts machine.states none ks = some node) :
    node.path = Dotted.join ks ∧ Dotted.parts node.path = ks ∧ node.path ≠ "" := by
  have plain := plainChain clean found
  cases ks using List.reverseRecOn with
  | nil => simp [lookupParts] at found
  | append_singleton front k =>
    have path : node.path = Dotted.join (front ++ [k]) := by rw [(chainPath loaded found).2,pathOfJoin plain]
    refine ⟨path,by rw [path,Dotted.partsJoin plain],?_⟩
    rw [path]
    intro empty
    exact absurd ((Dotted.joinEmpty plain).mp empty) (by simp)

theorem nodeAtPath (clean : KeysClean machine.toRawMachine) {ks node} (found : lookupParts machine.states none ks = some node) :
    getNodeByPath machine.toRawMachine node.path = .ok (some (.own node)) := by
  unfold getNodeByPath lookupByDotPath
  rw [(pathParts loaded clean found).2.1]
  exact (@slotsOwn _ _ none node).mpr found

theorem keyPlain {ks k node} (found : lookupParts machine.states none (ks ++ [k]) = some node)
    (here : getNodeByPath machine.toRawMachine node.path = .ok (some (.own node))) : Dotted.Plain k := by
  have chain := (@slotsOwn _ _ none node).mp here
  cases parts : Dotted.parts node.path using List.reverseRecOn with
  | nil => rw [parts] at chain; contradiction
  | append_singleton front last =>
    rw [parts] at chain
    have same : k = last := (chainPath loaded found).1.symm.trans (chainPath loaded chain).1
    rw [same]
    exact Dotted.partsPlain node.path last (by rw [parts]; simp)

end

theorem plainAll {states : Record StateNodeIR} (all : ∀ e ∈ states, Dotted.Plain e.1 ∧ plainStates e.2.states = true) :
    plainStates states = true := by
  induction states with
  | nil => rfl
  | cons first rest ih =>
    obtain ⟨key,node⟩ := first
    obtain ⟨plain,below⟩ := all _ List.mem_cons_self
    have node : plainNode node = true := by cases node; exact below
    simp only [plainStates,Bool.and_eq_true,decide_eq_true_eq]
    exact ⟨⟨plain,node⟩,ih (fun e mem => all e (List.mem_cons_of_mem _ mem))⟩

theorem plainBelow {parentPath key node} (shaped : Shaped parentPath key node)
    (chains : ∀ ks k child, lookupParts node.states none (ks ++ [k]) = some child → Dotted.Plain k) : plainStates node.states = true := by
  induction shaped with
  | node _ _ unique _ _ ih =>
    refine plainAll (fun e mem => ?_)
    obtain ⟨k,child⟩ := e
    have got := Keyed.getOfMem unique mem
    refine ⟨chains [] k child (by simp [lookupParts,got]),ih _ mem (fun ks j below found => chains (k::ks) j below ?_)⟩
    simp only [List.cons_append,lookupParts,got]
    rwa [lookupPartsCurrent _ _ none (by simp)]

/-! Entry. -/

/-- Everything a node enters at its start is declared. -/
inductive Enterable : StateNodeIR → Prop where
  | leaf {node} (leaf : node.isLeaf = true) : Enterable node
  | compound {node initial child} (type : node.type = .compound) (start : node.initial = some initial)
      (found : Keyed.get node.states initial = some child) (below : Enterable child) : Enterable node
  | parallel {node} (type : node.type = .parallel) (below : ∀ e ∈ node.states, Enterable e.2) : Enterable node

theorem enterInitialOwn {states : List (String × StateNodeIR)} {start child} (found : Keyed.get states start = some child) :
    enterInitial states (some start) = (enterSubtree child).map (fun v => some (child.key,v)) := by
  induction states with
  | nil => simp at found
  | cons first rest ih =>
    obtain ⟨key,node⟩ := first
    rw [Keyed.getCons] at found
    rw [enterInitial]
    split at found
    · rename_i here
      cases found
      rw [if_pos (by rw [here])]
      cases enterSubtree node <;> rfl
    · rename_i other
      rw [if_neg (by simpa using other)]
      exact ih found

theorem enterInitialNone {states : List (String × StateNodeIR)} {start : String} (none : Keyed.get states start = none)
    (inherited : inheritedNames.contains start = true) : enterInitial states (some start) = .error notIterable := by
  induction states with
  | nil => simp only [enterInitial,Option.any_some,inherited,if_true]
  | cons first rest ih =>
    obtain ⟨key,node⟩ := first
    rw [Keyed.getCons] at none
    rw [enterInitial]
    split at none
    · contradiction
    · rename_i other
      rw [if_neg (by simpa using other)]
      exact ih none

theorem enterLeaf {node : StateNodeIR} (leaf : node.isLeaf = true) : enterSubtree node = .ok none := by
  obtain ⟨key,path,type,initial,entry,exit,on,onDone,states,isImplicitError⟩ := node
  rcases leafType.mp leaf with h | h <;> (dsimp only at h; subst h; rfl)

theorem enterCompound {node : StateNodeIR} {start} (type : node.type = .compound) (initial : node.initial = some start) :
    enterSubtree node = (enterInitial node.states (some start)).map (·.map (fun e => slotValue e.1 e.2)) := by
  obtain ⟨key,path,type,initial,entry,exit,on,onDone,states,isImplicitError⟩ := node
  dsimp only at *
  subst type initial
  rw [enterSubtree]
  cases enterInitial states (some start) <;> rfl

theorem enterParallel {node : StateNodeIR} (type : node.type = .parallel) :
    enterSubtree node = (enterRegions node.states).map (fun regions => some (.obj regions)) := by
  obtain ⟨key,path,type,initial,entry,exit,on,onDone,states,isImplicitError⟩ := node
  dsimp only at *
  subst type
  rw [enterSubtree]
  cases enterRegions states <;> rfl

theorem mapOk {α β : Type} {x : Except String α} {f : α → β} {b : β} : x.map f = .ok b ↔ ∃ a, x = .ok a ∧ f a = b := by
  cases x with
  | ok a => simp [Except.map]
  | error e => simp [Except.map]

theorem regionsEntered {states : Record StateNodeIR} (each : ∀ e ∈ states, ∃ v, enterSubtree e.2 = .ok v) :
    ∃ entries, enterRegions states = .ok entries ∧ Keyed.keys entries = Keyed.keys states ∧
      ∀ k r, Keyed.get states k = some r → ∃ v, enterSubtree r = .ok v ∧ Keyed.get entries k = some (v.getD (.str k)) := by
  induction states with
  | nil => exact ⟨[],rfl,rfl,by simp⟩
  | cons first rest ih =>
    obtain ⟨key,node⟩ := first
    obtain ⟨v,entered⟩ := each _ List.mem_cons_self
    obtain ⟨entries,ok,keys,gets⟩ := ih (fun e mem => each e (List.mem_cons_of_mem _ mem))
    dsimp only at entered
    refine ⟨(key,v.getD (.str key))::entries,by rw [enterRegions,entered,ok]; rfl,congrArg (key::·) keys,?_⟩
    intro k r found
    rw [Keyed.getCons] at found ⊢
    split at found
    · rename_i here
      cases found
      exact ⟨v,entered,by rw [if_pos here,here]⟩
    · rename_i other
      rw [if_neg other]
      exact gets k r found

theorem regionsEach {states : List (String × StateNodeIR)} {entries} (ok : enterRegions states = .ok entries) :
    ∀ e ∈ states, ∃ v, enterSubtree e.2 = .ok v := by
  induction states generalizing entries with
  | nil => simp
  | cons first rest ih =>
    obtain ⟨key,node⟩ := first
    rw [enterRegions] at ok
    obtain ⟨v,entered,ok⟩ := bindOk.mp ok
    obtain ⟨later,rest,_⟩ := bindOk.mp ok
    intro e mem
    rcases List.mem_cons.mp mem with head | inside
    · subst head
      exact ⟨v,entered⟩
    · exact ih rest e inside

theorem entersLegal {parentPath key node} (shaped : Shaped parentPath key node) (enterable : Enterable node) :
    ∃ v, enterSubtree node = .ok v ∧ (node.isLeaf = true → v = none) ∧
      (node.isLeaf = false → ∃ w, v = some w ∧ LegalIn node.type node.states w) := by
  induction shaped with
  | node sameKey samePath unique start children ih =>
    rename_i parentPath key node
    cases enterable with
    | leaf leaf => exact ⟨none,enterLeaf leaf,fun _ => rfl,fun inner => by rw [leaf] at inner; contradiction⟩
    | compound type initial found below =>
      rename_i start child
      obtain ⟨v,entered,leaf,inner⟩ := ih _ (Keyed.getSome found) below
      have childKey : child.key = start := by
        cases children _ (Keyed.getSome found) with
        | node sameKey => exact sameKey
      refine ⟨some (slotValue child.key v),?_,?_,?_⟩
      · rw [enterCompound type initial,enterInitialOwn found,entered]
        rfl
      · intro isLeaf
        simp [StateNodeIR.isLeaf,type] at isLeaf
      · intro _
        refine ⟨_,rfl,?_⟩
        rw [type,childKey]
        cases kind : child.isLeaf with
        | true =>
          rw [leaf kind]
          exact .leafChild found kind
        | false =>
          obtain ⟨w,rfl,legal⟩ := inner kind
          exact .nested found kind legal
    | parallel type below =>
      have each (e) (mem : e ∈ node.states) : ∃ v, enterSubtree e.2 = .ok v := by
        obtain ⟨v,entered,_⟩ := ih e mem (below e mem)
        exact ⟨v,entered⟩
      obtain ⟨entries,entered,keys,gets⟩ := regionsEntered each
      refine ⟨some (.obj entries),?_,?_,?_⟩
      · rw [enterParallel type,entered]
        rfl
      · intro isLeaf
        simp [StateNodeIR.isLeaf,type] at isLeaf
      · intro _
        refine ⟨_,rfl,?_⟩
        rw [type]
        refine .regions (by rwa [keys]) (by simp [keys]) ?_ ?_
        · intro k r v found isLeaf got
          obtain ⟨w,contributed,here⟩ := gets k r found
          obtain ⟨w',same,leaf,_⟩ := ih _ (Keyed.getSome found) (below _ (Keyed.getSome found))
          cases same.symm.trans contributed
          rw [here,leaf isLeaf] at got
          exact (Option.some.inj got).symm
        · intro k r v found inside got
          obtain ⟨w,contributed,here⟩ := gets k r found
          obtain ⟨w',same,_,inner⟩ := ih _ (Keyed.getSome found) (below _ (Keyed.getSome found))
          cases same.symm.trans contributed
          obtain ⟨w,rfl,legal⟩ := inner inside
          rw [here] at got
          cases Option.some.inj got
          exact legal

theorem entersDeclared {parentPath key node} (shaped : Shaped parentPath key node) {v} (entered : enterSubtree node = .ok v) :
    Enterable node := by
  induction shaped generalizing v with
  | node sameKey samePath unique start children ih =>
    rename_i parentPath key node
    rcases leafOrContainer node with leaf | compound | parallel
    · exact .leaf leaf
    · obtain ⟨initial,named,present⟩ := start compound
      rw [enterCompound compound named] at entered
      obtain ⟨found,ran,_⟩ := mapOk.mp entered
      cases got : Keyed.get node.states initial with
      | none =>
        simp only [slot,got] at present
        split at present
        · rename_i inherited
          rw [enterInitialNone got inherited] at ran
          cases ran
        · contradiction
      | some child =>
        rw [enterInitialOwn got] at ran
        obtain ⟨w,below,_⟩ := mapOk.mp ran
        exact .compound compound named got (ih _ (Keyed.getSome got) below)
    · rw [enterParallel parallel] at entered
      obtain ⟨entries,ran,_⟩ := mapOk.mp entered
      refine .parallel parallel (fun e mem => ?_)
      obtain ⟨w,below⟩ := regionsEach ran e mem
      exact ih e mem below

/-! The root. -/

def rootNode (machine : RawMachine) : StateNodeIR :=
  { key := "", path := "", type := machine.type.node, initial := machine.initial, states := rootStates machine }

theorem rootContainer (machine : RawMachine) : (rootNode machine).isLeaf = false := by
  unfold rootNode StateNodeIR.isLeaf
  cases machine.type <;> rfl

theorem initialEntered {machine : RawMachine} {v : StateValue} :
    resolveInitialState machine = .ok v ↔ enterSubtree (rootNode machine) = .ok (some v) := by
  unfold resolveInitialState rootNode rootStates
  cases machine.type with
  | parallel =>
    rw [enterParallel rfl]
    dsimp only
    cases enterRegions (machine.states.filter (fun e => !e.2.isImplicitError)) with
    | error e => simp [Except.map,bind,Except.bind]
    | ok entries => simp [Except.map,bind,Except.bind,pure,Except.pure]
  | compound =>
    dsimp only [MachineType.node]
    rw [enterSubtree]
    cases enterInitial machine.states machine.initial with
    | error e => simp [bind,Except.bind]
    | ok found => cases found <;> simp [bind,Except.bind,pure,Except.pure]

theorem rootShaped {machine : MachineDefinition} (loaded : Loaded machine) : Shaped "" "" (rootNode machine.toRawMachine) := by
  obtain ⟨_,_,_,_,root,_,_⟩ := loadedIssues loaded
  refine .node rfl rfl ?_ ?_ ?_
  · unfold rootNode rootStates
    dsimp only
    split
    · exact loadedUnique loaded
    · exact keysFilterNodup (loadedUnique loaded) _
  · intro compound
    have type : machine.type = .compound := by
      unfold rootNode MachineType.node at compound
      cases kind : machine.type with
      | compound => rfl
      | parallel => simp [kind] at compound
    simp only [rootIssues,type] at root
    split at root
    · contradiction
    · rename_i start named
      split at root
      · rename_i found
        exact ⟨start,(Option.filter_eq_some_iff.mp named).1,by simpa [rootNode,rootStates,type] using found⟩
      · contradiction
  · intro e mem
    refine loadedShaped loaded e ?_
    unfold rootNode rootStates at mem
    dsimp only at mem
    split at mem
    · exact mem
    · exact List.mem_of_mem_filter mem

/-! References. -/

/-- A reference, where one is given, resolves from the source to a path. -/
def Resolves (machine : RawMachine) (sourceStatePath : String) (reference : Option String) : Prop :=
  ∀ target, given reference = some target →
    ∃ path, resolveTargetStatePath machine sourceStatePath target = .ok (some path) ∧ path ≠ ""

theorem referenceChecked {machine sourcePath reference issue} (ok : validateReference machine sourcePath reference issue = .ok []) :
    Resolves machine sourcePath reference := by
  intro target named
  simp only [validateReference,named] at ok
  obtain ⟨resolved,looked,none⟩ := bindOk.mp ok
  split at none
  · rename_i path here
    obtain ⟨rfl,some⟩ := Option.filter_eq_some_iff.mp here
    exact ⟨path,looked,by simpa using some⟩
  · cases none

theorem edgeChecked {machine sourcePath label edge} (ok : validateEdge machine sourcePath label edge = .ok []) :
    Resolves machine sourcePath edge.target ∧ Resolves machine sourcePath (edge.policy.onFail.bind (·.target)) := by
  obtain ⟨target,first,ok⟩ := bindOk.mp ok
  obtain ⟨fallback,second,same⟩ := bindOk.mp ok
  obtain ⟨nothing,none⟩ := List.append_eq_nil_iff.mp (Except.ok.inj same)
  subst nothing none
  exact ⟨referenceChecked first,referenceChecked second⟩

/-- A node of the tree, and an edge it declares. -/
def Declares (machine : RawMachine) (node : StateNodeIR) (edge : TransitionEdgeIR) : Prop :=
  (∃ ks, lookupParts machine.states none ks = some node) ∧ ((∃ event, (event,edge) ∈ node.on) ∨ node.onDone = some edge)

theorem declaredChecked {machine : MachineDefinition} (loaded : Loaded machine) {node edge} (declares : Declares machine.toRawMachine node edge) :
    Resolves machine.toRawMachine node.path edge.target ∧
      Resolves machine.toRawMachine node.path (edge.policy.onFail.bind (·.target)) := by
  obtain ⟨_,_,_,_,_,_,checked⟩ := loadedIssues loaded
  obtain ⟨⟨ks,found⟩,edges⟩ := declares
  have here : Checked machine.toRawMachine node := by
    refine checkedChain checked found ?_
    intro empty
    subst empty
    contradiction
  rcases edges with ⟨event,mem⟩ | done
  · exact edgeChecked (here.on _ mem)
  · exact edgeChecked (here.onDone _ done)

/-- Beside the source an inherited name stands in the way of the reference. -/
def Shadowed (machine : RawMachine) (sourceStatePath targetRef : String) : Prop :=
  "#".toList.isPrefixOf targetRef.toList = false ∧ parentSegments sourceStatePath ≠ [] ∧
    meetsInherited machine.states (parentSegments sourceStatePath ++ Dotted.parts targetRef) = true

theorem partsBelow {front : List String} (plain : ∀ k ∈ front, Dotted.Plain k) (some : front ≠ []) (reference : String) :
    Dotted.parts (Dotted.join (front ++ [reference])) = front ++ Dotted.parts reference := by
  have kept : front.filter (fun p => p != "") = front := List.filter_eq_self.mpr (fun p mem => by simp [(plain p mem).1])
  rw [Dotted.joinSnoc some,Dotted.parts,Dotted.splitAppend,Dotted.splitJoinPlain some plain,List.filter_append,kept]
  rfl

section
variable {machine : MachineDefinition} (loaded : Loaded machine)
include loaded

theorem containerSegments (clean : KeysClean machine.toRawMachine) {ks node} (found : lookupParts machine.states none ks = some node) :
    parentSegments node.path = ks.dropLast := by
  obtain ⟨path,_,some⟩ := pathParts loaded clean found
  have step : ks ≠ [] := by
    intro empty
    subst empty
    contradiction
  rw [parentSegments,if_neg some,path,Dotted.splitJoinPlain step (plainChain clean found)]

/-- A fallback was validated at the root only. From a node it resolves where no inherited
name stands in its way. -/
theorem fallbackResolves (clean : KeysClean machine.toRawMachine) {ks node} (found : lookupParts machine.states none ks = some node)
    {target path} (root : resolveTargetStatePath machine.toRawMachine "" target = .ok (some path)) (nonempty : path ≠ "") :
    (∃ path, resolveTargetStatePath machine.toRawMachine node.path target = .ok (some path) ∧ path ≠ "") ↔
      ¬Shadowed machine.toRawMachine node.path target := by
  cases hash : "#".toList.isPrefixOf target.toList with
  | true =>
    have same : resolveTargetStatePath machine.toRawMachine node.path target = .ok (some path) := by
      rw [← root]
      unfold resolveTargetStatePath
      rw [if_pos hash,if_pos hash]
    constructor
    · intro _ shadowed
      exact absurd (hash.symm.trans shadowed.1) (by simp)
    · intro _
      exact ⟨path,same,nonempty⟩
  | false =>
    have atRoot : pathAt machine.states target = .ok (some path) := by
      unfold resolveTargetStatePath at root
      rw [if_neg (ne_true_of_eq_false hash)] at root
      exact root
    unfold resolveTargetStatePath
    rw [if_neg (ne_true_of_eq_false hash)]
    by_cases top : parentSegments node.path = []
    · simp only [siblingAt,top,if_true]
      constructor
      · intro _ shadowed
        exact shadowed.2.1 top
      · intro _
        exact ⟨path,atRoot,nonempty⟩
    · have plain : ∀ k ∈ parentSegments node.path, Dotted.Plain k := by
        rw [containerSegments loaded clean found]
        intro k mem
        exact plainChain clean found k ((List.dropLast_sublist _).subset mem)
      have beside : siblingAt machine.states node.path target =
          lookupSlots machine.states none (parentSegments node.path ++ Dotted.parts target) := by
        rw [siblingAt,if_neg top,lookupByDotPath,partsBelow plain top]
      rw [beside]
      cases meets : meetsInherited machine.states (parentSegments node.path ++ Dotted.parts target) with
      | true =>
        constructor
        · intro resolves
          obtain ⟨path,ok,_⟩ := resolves
          rcases slotsInherited meets none with ⟨e,other⟩ | other <;> (rw [other] at ok; cases ok)
        · intro clear
          exact absurd ⟨hash,top,meets⟩ clear
      | false =>
        rw [show lookupSlots machine.states none _ = _ from slotsPlain meets none]
        constructor
        · intro _ shadowed
          exact absurd (meets.symm.trans shadowed.2.2) (by simp)
        · intro _
          cases looked : lookupParts machine.states none (parentSegments node.path ++ Dotted.parts target) with
          | none => exact ⟨path,atRoot,nonempty⟩
          | some sibling => exact ⟨sibling.path,rfl,(pathParts loaded clean looked).2.2⟩

theorem errorResolves (clean : KeysClean machine.toRawMachine) {ks node} (found : lookupParts machine.states none ks = some node) :
    ∃ path, resolveTargetStatePath machine.toRawMachine node.path "error" = .ok (some path) ∧ path ≠ "" := by
  obtain ⟨error,stored⟩ := Option.isSome_iff_exists.mp (loadedError loaded)
  have chain : lookupParts machine.states none ["error"] = some error := by simp [lookupParts,stored]
  have parts : Dotted.parts "error" = ["error"] := by decide
  have atRoot : resolveTargetStatePath machine.toRawMachine "" "error" = .ok (some error.path) := by
    have here : pathAt machine.states "error" = .ok (some error.path) := by
      rw [pathAt,lookupByDotPath,parts,show lookupSlots machine.states none ["error"] = _ from (@slotsOwn _ _ none error).mpr chain]
      rfl
    unfold resolveTargetStatePath
    rw [if_neg (by decide)]
    exact here
  refine (fallbackResolves loaded clean found atRoot (pathParts loaded clean chain).2.2).mpr ?_
  intro shadowed
  obtain ⟨_,_,meets⟩ := shadowed
  rw [containerSegments loaded clean found,parts] at meets
  cases ks using List.reverseRecOn with
  | nil => contradiction
  | append_singleton front k =>
    rw [List.dropLast_concat] at meets
    exact absurd (meetsLast found meets) (by decide)

end

/-! Soundness. -/

/-- What validation promises the engine. -/
structure Sound (machine : MachineDefinition) : Prop where
  nodes : ∀ ks node, lookupParts machine.states none ks = some node →
    getNodeByPath machine.toRawMachine node.path = .ok (some (.own node))
  initial : ∃ v, resolveInitialState machine.toRawMachine = .ok v ∧ Legal machine.toRawMachine v
  target : ∀ node edge, Declares machine.toRawMachine node edge → Resolves machine.toRawMachine node.path edge.target
  fallback : ∀ node edge, Declares machine.toRawMachine node edge →
    Resolves machine.toRawMachine node.path (edge.policy.onFail.bind (·.target)) ∧
    Resolves machine.toRawMachine node.path (machine.defaults.onFail.bind (·.target)) ∧
    Resolves machine.toRawMachine node.path (some "error")
  applies : ∀ node edge, Declares machine.toRawMachine node edge → ∀ target, given edge.target = some target →
    ∀ current, Legal machine.toRawMachine current →
      ∃ applied, applyTargetTransition machine.toRawMachine current node.path target = .ok applied

/-- The names of a definition that the engine reads as they are meant. -/
structure Plainly (machine : MachineDefinition) : Prop where
  /-- No key is empty or contains a dot. -/
  keys : KeysClean machine.toRawMachine
  /-- Every state that is entered at the start is declared. -/
  initial : Enterable (rootNode machine.toRawMachine)
  /-- So is every state that is entered at a target. -/
  targets : ∀ node edge, Declares machine.toRawMachine node edge → ∀ target path state, given edge.target = some target →
    resolveTargetStatePath machine.toRawMachine node.path target = .ok (some path) →
    Dfsm.getNodeByPath machine.toRawMachine path = some state → Enterable state
  /-- The default fallback is not hidden from a node with edges. -/
  defaults : ∀ node edge, Declares machine.toRawMachine node edge → ∀ target,
    given (machine.defaults.onFail.bind (·.target)) = some target → ¬Shadowed machine.toRawMachine node.path target

theorem targetNode {machine : MachineDefinition} (loaded : Loaded machine) (clean : KeysClean machine.toRawMachine) {source target path}
    (ok : resolveTargetStatePath machine.toRawMachine source target = .ok (some path)) :
    ∃ ks state, lookupParts machine.states none ks = some state ∧ state.path = path ∧
      Dfsm.getNodeByPath machine.toRawMachine path = some state := by
  obtain ⟨ks,state,_,found,same⟩ := resolvedNode (resolvedRecord ok)
  refine ⟨ks,state,found,same,?_⟩
  subst same
  unfold Dfsm.getNodeByPath Dfsm.lookupByDotPath
  rw [(pathParts loaded clean found).2.1]
  exact found

theorem appliesEntered {machine : RawMachine} {source target path : String} {state current}
    (resolved : resolveTargetStatePath machine source target = .ok (some path)) (nonempty : path ≠ "")
    (stored : Dfsm.getNodeByPath machine path = some state) :
    (∃ applied, applyTargetTransition machine current source target = .ok applied) ↔ ∃ v, enterSubtree state = .ok v := by
  have named : given (some path) = some path := by simp [given,Option.filter,nonempty]
  have here : getNodeByPath machine path = .ok (some (.own state)) := (@slotsOwn _ _ none state).mpr stored
  obtain ⟨applied,ran⟩ : ∃ applied, Dfsm.applyTargetTransition machine current source target = some applied := by
    simp only [Dfsm.applyTargetTransition,resolvedRecord resolved,named,stored]
    exact ⟨_,rfl⟩
  have unfolded : applyTargetTransition machine current source target = (enterSubtree state).map (fun _ => applied) := by
    cases entered : enterSubtree state <;>
      simp [applyTargetTransition,resolved,named,here,ran,entered,bind,Except.bind,Except.map,pure,Except.pure]
  rw [unfolded]
  constructor
  · intro applies
    obtain ⟨_,did⟩ := applies
    obtain ⟨v,entered,_⟩ := mapOk.mp did
    exact ⟨v,entered⟩
  · intro enters
    obtain ⟨v,entered⟩ := enters
    exact ⟨applied,mapOk.mpr ⟨v,entered,rfl⟩⟩

theorem chainShaped {machine : MachineDefinition} (loaded : Loaded machine) {ks state} (found : lookupParts machine.states none ks = some state) :
    ∃ parentPath key, Shaped parentPath key state := by
  cases ks using List.reverseRecOn with
  | nil => contradiction
  | append_singleton front k => exact ⟨_,_,shapedChain (loadedShaped loaded) found⟩

/-- A state whose key has a dot, and an initial state that is only inherited. -/
def dotted : RawMachine :=
  { id := "dotted", initial := some "a.b", states := [("a.b",{ key := "a.b", path := "a.b", type := .atomic })] }

def hidden : RawMachine :=
  { id := "hidden", initial := some "toString", states := [("idle",{ key := "idle", path := "idle", type := .atomic })] }

end Dfsm.Objects
