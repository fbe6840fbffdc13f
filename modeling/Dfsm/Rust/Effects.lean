import Dfsm.Rust.Broadcast

/-! The entry and exit effects of a transition in the Rust SDK, against the nodes that it
leaves and enters. -/
namespace Dfsm.Rust
open Keyed (Record)
open Go (leaf)

section
variable {α β : Type} {l : List α} {p : α → Bool} {f : α → List β}

theorem flatMapFilter (nothing : ∀ x ∈ l, p x = false → f x = []) : (l.filter p).flatMap f = l.flatMap f := by
  induction l with
  | nil => rfl
  | cons x l ih =>
    have rest := ih (fun y inside => nothing y (List.mem_cons_of_mem x inside))
    cases here : p x with
    | true => rw [List.filter_cons_of_pos here,List.flatMap_cons,List.flatMap_cons,rest]
    | false => rw [List.filter_cons_of_neg (by simp [here]),List.flatMap_cons,nothing x List.mem_cons_self here,rest,List.nil_append]

theorem filterLength (l : List α) : ((l.filter p).flatMap f).length ≤ (l.flatMap f).length := by
  induction l with
  | nil => exact Nat.le_refl _
  | cons x l ih =>
    rw [List.filter_cons]
    split <;> simp only [List.flatMap_cons,List.length_append] <;> omega

theorem flatMapNothing (same : ((l.filter p).flatMap f).length = (l.flatMap f).length) : ∀ x ∈ l, p x = false → f x = [] := by
  induction l with
  | nil => simp
  | cons y l ih =>
    intro x inside out
    have bound : ((l.filter p).flatMap f).length ≤ (l.flatMap f).length := filterLength l
    rw [List.filter_cons] at same
    cases here : p y with
    | true =>
      simp only [here,if_true,List.flatMap_cons,List.length_append] at same
      rcases List.mem_cons.mp inside with rfl | later
      · rw [here] at out
        cases out
      · exact ih (by omega) x later out
    | false =>
      simp only [here,Bool.false_eq_true,if_false,List.flatMap_cons,List.length_append] at same
      rcases List.mem_cons.mp inside with rfl | later
      · exact List.eq_nil_of_length_eq_zero (by omega)
      · exact ih (by omega) x later out

end

/-! Nodes in an order. -/

abbrev Node := List String × StateDefinition

/-- The nodes of a set in an order that `waits` allows: no node stands again or before one it
has to wait for. -/
structure Arranges (set : Node → Prop) (waits : List String → List String → Prop) (nodes : List Node) : Prop where
  exact_ : ∀ x, x ∈ nodes ↔ set x
  ordered : nodes.Pairwise (fun x y => ¬waits x.1 y.1)

/-- Children before parents. -/
abbrev BottomUp (set : Node → Prop) (nodes : List Node) : Prop := Arranges set (fun x y => x <+: y) nodes
/-- Parents before children. -/
abbrev TopDown (set : Node → Prop) (nodes : List Node) : Prop := Arranges set (fun x y => y <+: x) nodes

section
variable {set : Node → Prop} {waits : List String → List String → Prop} {nodes nodes' : List Node}
variable {f : StateDefinition → List String}

theorem Arranges.once (self : ∀ c, waits c c) (arranges : Arranges set waits nodes) : nodes.Nodup := by
  refine arranges.ordered.imp ?_
  intro x y early same
  exact early (same ▸ self x.1)

theorem Arranges.sameLength (self : ∀ c, waits c c) (arranges : Arranges set waits nodes) (other : Arranges set waits nodes') :
    (nodes.flatMap (f ·.2)).length = (nodes'.flatMap (f ·.2)).length :=
  ((List.perm_ext_iff_of_nodup (arranges.once self) (other.once self)).mpr
    (fun x => (arranges.exact_ x).trans (other.exact_ x).symm) |>.flatMap_right (f ·.2)).length_eq

theorem Arranges.filter (arranges : Arranges set waits nodes) (p : Node → Bool) :
    Arranges (fun x => set x ∧ p x = true) waits (nodes.filter p) where
  exact_ x := by rw [List.mem_filter,arranges.exact_]
  ordered := arranges.ordered.filter _

theorem Arranges.onlySome (p : Node → Bool) (self : ∀ c, waits c c) (arranges : Arranges set waits nodes) :
    (∃ some_, Arranges (fun x => set x ∧ p x = true) waits some_ ∧ nodes.flatMap (f ·.2) = some_.flatMap (f ·.2)) ↔
      ∀ x, set x → p x = false → f x.2 = [] := by
  constructor
  · rintro ⟨some_,arranged,same⟩ x inside out
    have short : ((nodes.filter p).flatMap (f ·.2)).length = (nodes.flatMap (f ·.2)).length :=
      ((arranges.filter p).sameLength self arranged).trans (congrArg List.length same).symm
    exact flatMapNothing short x ((arranges.exact_ x).mpr inside) out
  · intro nothing
    exact ⟨_,arranges.filter p,(flatMapFilter (fun x inside => nothing x ((arranges.exact_ x).mp inside))).symm⟩

theorem Arranges.allOfSome (p : Node → Bool) (self : ∀ c, waits c c) (arranges : Arranges set waits nodes) :
    (∃ all, Arranges set waits all ∧ (nodes.filter p).flatMap (f ·.2) = all.flatMap (f ·.2)) ↔
      ∀ x, set x → p x = false → f x.2 = [] := by
  constructor
  · rintro ⟨all,arranged,same⟩ x inside out
    have short : ((nodes.filter p).flatMap (f ·.2)).length = (nodes.flatMap (f ·.2)).length :=
      (congrArg List.length same).trans (arranged.sameLength self arranges)
    exact flatMapNothing short x ((arranges.exact_ x).mpr inside) out
  · intro nothing
    exact ⟨_,arranges,flatMapFilter (fun x inside => nothing x ((arranges.exact_ x).mp inside))⟩

end

/-! The active nodes in the order of `collectExitEffects`. -/

def under (key : String) (x : Node) : Node := (key::x.1,x.2)

mutual
def exitNodes : StateValue → List (String × StateDefinition) → List Node
  | .str name, states => ((Keyed.get states name).map (([name],·))).toList
  | .obj map, states => exitEntryNodes map states
def exitEntryNodes : List (String × StateValue) → List (String × StateDefinition) → List Node
  | [], _ => []
  | (parentName,childVal)::rest, states =>
    (match Keyed.get states parentName with
      | none => []
      | some parentDef => (exitNodes childVal parentDef.states).map (under parentName) ++ [([parentName],parentDef)]) ++
        exitEntryNodes rest states
end

section
variable {states : List (String × StateDefinition)}

theorem underEffects {f : StateDefinition → List String} (key : String) (nodes : List Node) :
    (nodes.map (under key)).flatMap (f ·.2) = nodes.flatMap (f ·.2) := List.flatMap_map ..

mutual
theorem exitsCollected : (v : StateValue) → ∀ states, collectExitEffects v states = (exitNodes v states).flatMap (·.2.exit)
  | .str name => by
    intro states
    rw [collectExitEffects,exitNodes]
    cases Keyed.get states name with
    | none => rfl
    | some node => exact (List.append_nil _).symm
  | .obj map => by
    intro states
    rw [collectExitEffects,exitNodes]
    exact entryExitsCollected map states
theorem entryExitsCollected : (entries : List (String × StateValue)) → ∀ states,
    collectExitEntries entries states = (exitEntryNodes entries states).flatMap (·.2.exit)
  | [] => fun _ => by rw [collectExitEntries,exitEntryNodes]; rfl
  | (k,v)::rest => by
    intro states
    rw [collectExitEntries,exitEntryNodes,List.flatMap_append,entryExitsCollected rest states]
    cases Keyed.get states k with
    | none => rfl
    | some node => simp only [List.flatMap_append,underEffects,exitsCollected v node.states,List.flatMap_singleton]
end

theorem distinctEntry {entries : List (String × StateValue)} (unique : distinctEntries entries = true) {k : String} {v : StateValue}
    (mem : (k,v) ∈ entries) : distinct v = true := by
  induction entries with
  | nil => cases mem
  | cons e rest ih =>
    rw [distinctEntries,Bool.and_eq_true] at unique
    rcases List.mem_cons.mp mem with same | later
    · cases same
      exact unique.1
    · exact ih unique.2 later

/-- The entry of the value that a node belongs to. -/
def BelowEntry (states : List (String × StateDefinition)) (entries : List (String × StateValue)) (x : Node) : Prop :=
  ∃ k v node, (k,v) ∈ entries ∧ Keyed.get states k = some node ∧
    (x = ([k],node) ∨ ∃ y ∈ exitNodes v node.states, x = under k y)

theorem memEntryNodes {entries : List (String × StateValue)} {x : Node} :
    x ∈ exitEntryNodes entries states ↔ BelowEntry states entries x := by
  induction entries with
  | nil => simp [exitEntryNodes,BelowEntry]
  | cons e rest ih =>
    obtain ⟨k,v⟩ := e
    rw [exitEntryNodes,List.mem_append,ih]
    constructor
    · rintro (here | ⟨k,v,node,inside,found⟩)
      · cases found : Keyed.get states k with
        | none => simp [found] at here
        | some node =>
          simp only [found,List.mem_append,List.mem_map,List.mem_singleton] at here
          refine ⟨k,v,node,List.mem_cons_self,found,?_⟩
          rcases here with ⟨y,inside,rfl⟩ | rfl
          · exact .inr ⟨y,inside,rfl⟩
          · exact .inl rfl
      · exact ⟨k,v,node,List.mem_cons_of_mem _ inside,found⟩
    · rintro ⟨k',v',node,inside,found,shape⟩
      rcases List.mem_cons.mp inside with same | inside
      · cases same
        refine .inl ?_
        simp only [found,List.mem_append,List.mem_map,List.mem_singleton]
        rcases shape with rfl | ⟨y,inside,rfl⟩
        · exact .inr rfl
        · exact .inl ⟨y,inside,rfl⟩
      · exact .inr ⟨k',v',node,inside,found,shape⟩

theorem memExitNodes (c : List String) (node : StateDefinition) : ∀ {v : StateValue} {states : List (String × StateDefinition)},
    distinct v = true → ((c,node) ∈ exitNodes v states ↔ activeNode states v c = some node) := by
  induction c with
  | nil =>
    intro v states _
    cases v with
    | str name =>
      simp only [exitNodes,activeNode]
      cases Keyed.get states name <;> simp
    | obj entries =>
      simp only [exitNodes,memEntryNodes,BelowEntry,activeNode,under]
      constructor
      · rintro ⟨_,_,_,_,_,same | ⟨_,_,same⟩⟩ <;> cases same
      · intro none_; cases none_
  | cons k ks ih =>
    intro v states unique
    cases v with
    | str name =>
      rw [activeStr,exitNodes]
      cases found : Keyed.get states name with
      | none => simp
      | some other =>
        constructor
        · intro inside
          cases List.mem_singleton.mp inside
          exact ⟨rfl,rfl⟩
        · rintro ⟨same,here⟩
          cases here
          rw [same]
          exact List.mem_singleton.mpr rfl
    | obj entries =>
      rw [distinct,Bool.and_eq_true,decide_eq_true_eq] at unique
      obtain ⟨once,below⟩ := unique
      rw [exitNodes,memEntryNodes]
      constructor
      · rintro ⟨k',v,parent,inside,found,shape⟩
        have value := Keyed.getOfMem once inside
        rcases shape with same | ⟨y,inside',same⟩
        · cases same
          rw [activeEntry value found,if_pos rfl]
        · obtain ⟨c,n⟩ := y
          cases same
          rw [activeEntry value found]
          have deeper := (ih (distinctEntry below inside)).mp inside'
          split
          · rename_i none_
            rw [none_] at deeper
            simp [activeNode] at deeper
          · exact deeper
      · intro active
        obtain ⟨k',ks',v,parent,same,value,found⟩ := activeHead active
        obtain ⟨rfl,rfl⟩ := List.cons.inj same
        rw [activeEntry value found] at active
        refine ⟨k,v,parent,Keyed.getSome value,found,?_⟩
        split at active
        · rename_i none_
          cases active
          exact .inl (by rw [none_])
        · exact .inr ⟨(ks,node),(ih (distinctEntry below (Keyed.getSome value))).mpr active,rfl⟩

theorem exitSome {v : StateValue} {x : Node} (mem : x ∈ exitNodes v states) : x.1 ≠ [] := by
  cases v with
  | str name =>
    rw [exitNodes] at mem
    cases found : Keyed.get states name with
    | none => simp [found] at mem
    | some node =>
      rw [found] at mem
      cases List.mem_singleton.mp mem
      simp
  | obj entries =>
    rw [exitNodes,memEntryNodes] at mem
    obtain ⟨k,v,node,_,_,rfl | ⟨y,_,rfl⟩⟩ := mem <;> simp [under]

theorem underApart {k k' : String} {c c' : List String} (other : k ≠ k') : ¬k::c <+: k'::c' :=
  fun early => other (List.cons_prefix_cons.mp early).1

theorem entryHead {entries : List (String × StateValue)} {x : Node} (mem : x ∈ exitEntryNodes entries states) :
    ∃ k c, x.1 = k::c ∧ k ∈ Keyed.keys entries := by
  obtain ⟨k,v,node,inside,_,rfl | ⟨y,_,rfl⟩⟩ := memEntryNodes.mp mem
  · exact ⟨k,[],rfl,List.mem_map_of_mem inside⟩
  · exact ⟨k,y.1,rfl,List.mem_map_of_mem inside⟩

theorem pairwiseUnder (waits : List String → List String → Prop) (key : String)
    (lift : ∀ c c', waits (key::c) (key::c') → waits c c') {nodes : List Node} (ordered : nodes.Pairwise (fun x y => ¬waits x.1 y.1)) :
    (nodes.map (under key)).Pairwise (fun x y => ¬waits x.1 y.1) :=
  List.pairwise_map.mpr (ordered.imp (fun early waits => early (lift _ _ waits)))

mutual
theorem exitOrder : (v : StateValue) → distinct v = true → ∀ states, (exitNodes v states).Pairwise (fun x y => ¬x.1 <+: y.1)
  | .str name => by
    intro _ states
    rw [exitNodes]
    cases Keyed.get states name <;> simp
  | .obj entries => by
    intro unique states
    rw [distinct,Bool.and_eq_true,decide_eq_true_eq] at unique
    rw [exitNodes]
    exact entryOrder entries unique.1 unique.2 states
theorem entryOrder : (entries : List (String × StateValue)) → (Keyed.keys entries).Nodup → distinctEntries entries = true →
    ∀ states, (exitEntryNodes entries states).Pairwise (fun x y => ¬x.1 <+: y.1)
  | [] => fun _ _ _ => by rw [exitEntryNodes]; exact .nil
  | (k,v)::rest => by
    intro once unique states
    rw [distinctEntries,Bool.and_eq_true] at unique
    obtain ⟨fresh,once⟩ := List.nodup_cons.mp once
    have later := entryOrder rest once unique.2 states
    rw [exitEntryNodes]
    cases found : Keyed.get states k with
    | none => exact later
    | some node =>
      have below := exitOrder v unique.1 node.states
      refine List.pairwise_append.mpr ⟨List.pairwise_append.mpr ⟨pairwiseUnder _ k
        (fun _ _ early => (List.cons_prefix_cons.mp early).2) below,List.pairwise_singleton ..,?_⟩,later,?_⟩
      · intro x inside y last
        obtain ⟨z,deeper,rfl⟩ := List.mem_map.mp inside
        cases List.mem_singleton.mp last
        intro early
        exact exitSome deeper (List.prefix_nil.mp (List.cons_prefix_cons.mp early).2)
      · intro x inside y later
        obtain ⟨k',c',same,mem⟩ := entryHead later
        have other : k ≠ k' := fun same => fresh (same ▸ mem)
        rw [same]
        rcases List.mem_append.mp inside with inside | last
        · obtain ⟨z,_,rfl⟩ := List.mem_map.mp inside
          exact underApart other
        · cases List.mem_singleton.mp last
          exact underApart other
end

theorem exitArranged {v : StateValue} (unique : distinct v = true) :
    BottomUp (fun x => activeNode states v x.1 = some x.2) (exitNodes v states) where
  exact_ x := memExitNodes x.1 x.2 unique
  ordered := exitOrder v unique states

end

/-! The nodes that entering a node enters, and how the engine goes through them. -/

def enteredBelow : StateDefinition → List String → Option StateDefinition
  | node, [] => some node
  | node, k::ks =>
    if node.isParallel ∨ node.initial = some k then (Keyed.get node.states k).bind (enteredBelow · ks) else none

/-- It enters the node, only looks through it for an initial state, or does not come to it. -/
inductive Walk where
  | entered
  | lookedThrough
  | passedOver
  deriving DecidableEq, Repr

def Walk.next (walk : Walk) (node : StateDefinition) (key : String) : Walk :=
  match walk with
  | .entered => if node.isParallel then .lookedThrough else .entered
  | .lookedThrough => if node.initial = some key then .entered else .passedOver
  | .passedOver => .passedOver

def Walk.along : Walk → StateDefinition → List String → Walk
  | walk, _, [] => walk
  | walk, node, k::ks => match Keyed.get node.states k with
    | none => .passedOver
    | some child => (walk.next node k).along child ks

def Walk.effects : Walk → StateDefinition → List String
  | .entered, node => (resolveNode "" node).2
  | .lookedThrough, node => ((resolveRegion node).map (·.2)).getD []
  | .passedOver, _ => []

mutual
def enterNodes : StateDefinition → List Node
  | { stateType, initial, states, on, onDone, entry, exit } =>
    let node : StateDefinition := { stateType, initial, states, on, onDone, entry, exit }
    ([],node)::enterStates node.isParallel initial states
def enterStates (isParallel : Bool) (initial : Option String) : List (String × StateDefinition) → List Node
  | [] => []
  | (k,v)::rest => (if isParallel ∨ initial = some k then (enterNodes v).map (under k) else []) ++ enterStates isParallel initial rest
end

section
variable {states : List (String × StateDefinition)} {isParallel : Bool} {initial : Option String}

theorem enterNode (node : StateDefinition) : enterNodes node = ([],node)::enterStates node.isParallel node.initial node.states := by
  obtain ⟨stateType,initial,states,on,onDone,entry,exit⟩ := node
  rw [enterNodes]

theorem memEnterStates {x : Node} : x ∈ enterStates isParallel initial states ↔
    ∃ k v, (k,v) ∈ states ∧ (isParallel ∨ initial = some k) ∧ ∃ y ∈ enterNodes v, x = under k y := by
  induction states with
  | nil => simp [enterStates]
  | cons e rest ih =>
    obtain ⟨k,v⟩ := e
    rw [enterStates,List.mem_append,ih]
    constructor
    · rintro (here | ⟨k,v,inside,enters⟩)
      · split at here
        · rename_i enters
          obtain ⟨y,inside,rfl⟩ := List.mem_map.mp here
          exact ⟨k,v,List.mem_cons_self,enters,y,inside,rfl⟩
        · cases here
      · exact ⟨k,v,List.mem_cons_of_mem _ inside,enters⟩
    · rintro ⟨k',v',inside,enters,y,below,rfl⟩
      rcases List.mem_cons.mp inside with same | inside
      · cases same
        rw [if_pos enters]
        exact .inl (List.mem_map_of_mem below)
      · exact .inr ⟨k',v',inside,enters,y,below,rfl⟩

theorem acceptedOnce {node : StateDefinition} (accepted : node.accepted = true) : (Keyed.keys node.states).Nodup := by
  obtain ⟨stateType,initial,states,on,onDone,entry,exit⟩ := node
  simp only [StateDefinition.accepted,Bool.and_eq_true,decide_eq_true_eq] at accepted
  refine accepted.1.1.1.1.imp ?_
  rintro k k' before rfl
  exact String.lt_irrefl k before

theorem memEnterNodes (c : List String) (n : StateDefinition) : ∀ {node : StateDefinition}, node.accepted = true →
    ((c,n) ∈ enterNodes node ↔ enteredBelow node c = some n) := by
  induction c with
  | nil =>
    intro node accepted
    rw [enterNode,List.mem_cons,memEnterStates,enteredBelow]
    constructor
    · rintro (same | ⟨_,_,_,_,_,_,same⟩)
      · cases same
        rfl
      · cases same
    · intro same
      cases same
      exact .inl rfl
  | cons k ks ih =>
    intro node accepted
    rw [enterNode,List.mem_cons,memEnterStates,enteredBelow]
    constructor
    · rintro (same | ⟨k',v,inside,enters,y,below,same⟩)
      · cases same
      · obtain ⟨c,n⟩ := y
        cases same
        have found := Keyed.getOfMem (acceptedOnce accepted) inside
        rw [if_pos enters,found]
        exact (ih (acceptedGet (acceptedBelow accepted) found)).mp below
    · intro entered
      split at entered
      · rename_i enters
        obtain ⟨child,found,below⟩ := Option.bind_eq_some_iff.mp entered
        exact .inr ⟨k,child,Keyed.getSome found,enters,(ks,n),(ih (acceptedGet (acceptedBelow accepted) found)).mpr below,rfl⟩
      · cases entered

mutual
theorem enterOrder : (node : StateDefinition) → node.accepted = true → (enterNodes node).Pairwise (fun x y => ¬y.1 <+: x.1)
  | { stateType, initial, states, on, onDone, entry, exit } => by
    intro accepted
    have below := enterStatesOrder states (acceptedOnce accepted) (acceptedBelow accepted)
    rw [enterNodes]
    refine .cons ?_ (below ..)
    intro y inside early
    obtain ⟨k,v,_,_,z,_,rfl⟩ := memEnterStates.mp inside
    cases List.prefix_nil.mp early
theorem enterStatesOrder : (states : List (String × StateDefinition)) → (Keyed.keys states).Nodup → acceptedStates states = true →
    ∀ isParallel initial, (enterStates isParallel initial states).Pairwise (fun x y => ¬y.1 <+: x.1)
  | [] => fun _ _ _ _ => by rw [enterStates]; exact .nil
  | (k,v)::rest => by
    intro once accepted isParallel initial
    rw [acceptedStates,Bool.and_eq_true] at accepted
    obtain ⟨fresh,once⟩ := List.nodup_cons.mp once
    have below := enterOrder v accepted.1
    rw [enterStates]
    refine List.pairwise_append.mpr ⟨?_,enterStatesOrder rest once accepted.2 isParallel initial,?_⟩
    · split
      · exact pairwiseUnder (fun c c' => c' <+: c) k (fun _ _ early => (List.cons_prefix_cons.mp early).2) below
      · exact .nil
    · intro x here y later
      obtain ⟨k',v',inside,_,z,_,rfl⟩ := memEnterStates.mp later
      have held : k' ∈ Keyed.keys rest := List.mem_map_of_mem inside
      have other : k' ≠ k := fun same => fresh (same ▸ held)
      split at here
      · obtain ⟨w,_,rfl⟩ := List.mem_map.mp here
        exact underApart other
      · cases here
end

theorem resolvedEffects (nodeId : String) (node : StateDefinition) : (resolveNode nodeId node).2 = node.entry ++
    if node.isParallel then (resolveRegions node.states).flatMap (·.2.2)
    else if node.isCompound then (node.initial.map (fun init => (resolveInitialNode init node.states).2)).getD [] else [] := by
  obtain ⟨stateType,initial,states,on,onDone,entry,exit⟩ := node
  unfold resolveNode
  dsimp only
  split
  · rfl
  · split
    · cases initial with
      | none => exact (List.append_nil _).symm
      | some init => rfl
    · exact (List.append_nil _).symm

/-- What a walk runs below a node, state by state. -/
def stepEffects (walk : Walk) (node : StateDefinition) (k : String) (v : StateDefinition) : List String :=
  if node.isParallel ∨ node.initial = some k then (walk.next node k).effects v else []

theorem initialEffects {init : String} (once : (Keyed.keys states).Nodup) :
    states.flatMap (fun e => if some init = some e.1 then Walk.entered.effects e.2 else []) = (resolveInitialNode init states).2 := by
  induction states with
  | nil => rw [resolveInitialNode]; rfl
  | cons e rest ih =>
    obtain ⟨k,v⟩ := e
    obtain ⟨fresh,once⟩ := List.nodup_cons.mp once
    rw [List.flatMap_cons,resolveInitialNode]
    by_cases same : k = init
    · subst same
      have none_ : rest.flatMap (fun e => if some k = some e.1 then Walk.entered.effects e.2 else []) = [] := by
        refine List.flatMap_eq_nil_iff.mpr ?_
        intro e inside
        have held : e.1 ∈ Keyed.keys rest := List.mem_map_of_mem inside
        refine if_neg (fun same => fresh ?_)
        obtain rfl := Option.some.inj same
        exact held
      rw [none_,if_pos rfl,if_pos rfl,List.append_nil]
      exact (resolvedEffects ..).trans (resolvedEffects ..).symm
    · rw [if_neg (fun h => same (Option.some.inj h).symm),if_neg same,List.nil_append,ih once]

theorem regionEffects : (resolveRegions states).flatMap (·.2.2) = states.flatMap (fun e => Walk.lookedThrough.effects e.2) := by
  induction states with
  | nil => rw [resolveRegions]; rfl
  | cons e rest ih =>
    obtain ⟨k,v⟩ := e
    rw [resolveRegions,List.flatMap_append,List.flatMap_cons,ih]
    cases here : resolveRegion v <;> simp [Walk.effects,here]

theorem walkStates {node : StateDefinition} (accepted : node.accepted = true) (walk : Walk) :
    walk.effects node = (if walk = .entered then node.entry else []) ++
      node.states.flatMap (fun e => stepEffects walk node e.1 e.2) := by
  have once := acceptedOnce accepted
  have initials : node.states.flatMap (fun e => if node.initial = some e.1 then Walk.entered.effects e.2 else []) =
      (node.initial.map (fun init => (resolveInitialNode init node.states).2)).getD [] := by
    cases node.initial with
    | none => simp
    | some init => exact initialEffects once
  cases walk with
  | entered =>
    rw [Walk.effects,resolvedEffects,if_pos rfl]
    cases parallel : node.isParallel with
    | true => simp [stepEffects,Walk.next,parallel,regionEffects]
    | false =>
      simp only [stepEffects,Walk.next,parallel,Bool.false_eq_true,false_or,if_false,initials]
      split
      · rfl
      · rename_i simple
        have none_ : node.states = [] := by
          by_contra some_
          have plain : node.stateType ≠ some "parallel" := by simpa [StateDefinition.isParallel] using parallel
          exact simple (by simp [StateDefinition.isCompound,some_,plain])
        rw [none_]
        cases node.initial <;> simp [resolveInitialNode]
  | lookedThrough =>
    have same : node.states.flatMap (fun e => stepEffects .lookedThrough node e.1 e.2) =
        node.states.flatMap (fun e => if node.initial = some e.1 then Walk.entered.effects e.2 else []) := by
      congr 1
      funext e
      simp only [stepEffects,Walk.next]
      by_cases initial : node.initial = some e.1 <;> simp [initial,Walk.effects]
    rw [same,initials,if_neg (by simp),List.nil_append]
    obtain ⟨stateType,initial,states,on,onDone,entry,exit⟩ := node
    unfold Walk.effects resolveRegion
    cases initial <;> rfl
  | passedOver =>
    rw [if_neg (by simp),List.nil_append]
    refine (List.flatMap_eq_nil_iff.mpr ?_).symm
    intro e _
    exact ite_self _

/-- Those the walk enters. -/
def Walk.enters (walk : Walk) (node : StateDefinition) (x : Node) : Bool := walk.along node x.1 = .entered

def Walked (walk : Walk) (node : StateDefinition) : Prop :=
  walk.effects node = ((enterNodes node).filter (walk.enters node)).flatMap (·.2.entry)

theorem statesWalked {node : StateDefinition} {walk : Walk} {states : List (String × StateDefinition)}
    (found : ∀ k v, (k,v) ∈ states → Keyed.get node.states k = some v) (below : ∀ k v, (k,v) ∈ states → ∀ walk, Walked walk v) :
    states.flatMap (fun e => stepEffects walk node e.1 e.2) =
      ((enterStates node.isParallel node.initial states).filter (walk.enters node)).flatMap (·.2.entry) := by
  induction states with
  | nil => rw [enterStates]; rfl
  | cons e rest ih =>
    obtain ⟨k,v⟩ := e
    rw [enterStates,List.filter_append,List.flatMap_append,List.flatMap_cons,
      ih (fun k v inside => found k v (List.mem_cons_of_mem _ inside)) (fun k v inside => below k v (List.mem_cons_of_mem _ inside))]
    congr 1
    rw [stepEffects]
    split
    · have step : walk.enters node ∘ under k = (walk.next node k).enters v := by
        funext x
        simp only [Function.comp_apply,Walk.enters,under,Walk.along,found k v List.mem_cons_self]
      rw [List.filter_map,underEffects,step]
      exact below k v List.mem_cons_self _
    · rfl

mutual
theorem nodeWalked : (node : StateDefinition) → node.accepted = true → ∀ walk, Walked walk node
  | { stateType, initial, states, on, onDone, entry, exit } => by
    intro accepted walk
    have below := allWalked states (acceptedBelow accepted)
    have once := acceptedOnce accepted
    rw [Walked,walkStates accepted,enterNode,List.filter_cons,
      statesWalked (fun k v inside => Keyed.getOfMem once inside) below]
    cases walk <;> simp [Walk.enters,Walk.along]
theorem allWalked : (states : List (String × StateDefinition)) → acceptedStates states = true →
    ∀ k v, (k,v) ∈ states → ∀ walk, Walked walk v
  | [] => fun _ _ _ inside => by cases inside
  | (k,v)::rest => by
    intro accepted k' v' inside walk
    rw [acceptedStates,Bool.and_eq_true] at accepted
    rcases List.mem_cons.mp inside with same | later
    · cases same
      exact nodeWalked v accepted.1 walk
    · exact allWalked rest accepted.2 k' v' later walk
end

end

/-! A transition from a source to a target. -/

section
variable (m : MachineDefinition) (v : StateValue) (source target : List String)

abbrev Active (x : Node) : Prop := activeNode m.states v x.1 = some x.2

/-- The node is the child of the lowest common ancestor that the source is in, or below it. -/
def onSourceSide (c : List String) : Bool := (source.take (commonLen source target + 1)).isPrefixOf c

/-- Below the lowest common ancestor: what is above the target, the target, and what entering
the target enters. -/
def Entered (x : Node) : Prop :=
  (∃ i, commonLen source target < i ∧ i < target.length ∧ x.1 = target.take i ∧ getNodeByPath m x.1 = some x.2) ∨
    ∃ below tn, x.1 = target ++ below ∧ getNodeByPath m target = some tn ∧ enteredBelow tn below = some x.2

def ExitsMatch (targetName : String) : Prop :=
  let target := resolveTargetPath m source targetName
  ∃ nodes, BottomUp (fun x => Active m v x ∧ onSourceSide source target x.1 = true) nodes ∧
    (applyTargetTransition m v source targetName).exitEffects = nodes.flatMap (·.2.exit)

def EntriesMatch (targetName : String) : Prop :=
  ∃ nodes, TopDown (Entered m source (resolveTargetPath m source targetName)) nodes ∧
    (applyTargetTransition m v source targetName).entryEffects = nodes.flatMap (·.2.entry)

/-- The target, and what is reached from it without staying in a region. -/
def walkedTo (c : List String) : Bool :=
  target.isPrefixOf c && (getNodeByPath m target).any (fun tn => Walk.along .entered tn (c.drop target.length) = .entered)

end

section
variable {m : MachineDefinition} {v : StateValue} {source target : List String} {targetName : String}

def ancestorNodes (m : MachineDefinition) (common : Nat) (target : List String) : List Node :=
  ((List.range target.length).filter (common < ·)).filterMap (fun i => (getNodeByPath m (target.take i)).map (target.take i,·))

theorem memAncestors {common : Nat} {x : Node} : x ∈ ancestorNodes m common target ↔
    ∃ i, common < i ∧ i < target.length ∧ x.1 = target.take i ∧ getNodeByPath m x.1 = some x.2 := by
  obtain ⟨c,n⟩ := x
  simp only [ancestorNodes,List.mem_filterMap,List.mem_filter,List.mem_range,decide_eq_true_eq,Option.map_eq_some_iff,Prod.mk.injEq]
  constructor
  · rintro ⟨i,⟨short,later⟩,node,found,rfl,rfl⟩
    exact ⟨i,later,short,rfl,found⟩
  · rintro ⟨i,later,short,rfl,found⟩
    exact ⟨i,⟨short,later⟩,n,found,rfl,rfl⟩

theorem shorterFirst {i : Nat} (short : i < target.length) {c : List String} (longer : i < c.length) : ¬c <+: target.take i := by
  intro early
  have bound := early.length_le
  rw [List.length_take] at bound
  omega

theorem ancestorOrder {common : Nat} : (ancestorNodes m common target).Pairwise (fun x y => ¬y.1 <+: x.1) := by
  refine List.pairwise_filterMap.mpr (List.Pairwise.imp_of_mem ?_ (List.pairwise_lt_range.filter _))
  intro i j inI inJ before x foundX y foundY
  obtain ⟨_,_,rfl⟩ := Option.map_eq_some_iff.mp foundX
  obtain ⟨_,_,rfl⟩ := Option.map_eq_some_iff.mp foundY
  have shortI := List.mem_range.mp (List.mem_filter.mp inI).1
  have shortJ := List.mem_range.mp (List.mem_filter.mp inJ).1
  exact shorterFirst shortI (by rw [List.length_take]; omega)

def atTarget (target : List String) (x : Node) : Node := (target ++ x.1,x.2)

theorem nodeAccepted (states : List (String × StateDefinition)) (accepted : acceptedStates states = true) (path : List String)
    {node : StateDefinition} (found : getNodeIn states path = some node) : node.accepted = true := by
  induction path generalizing states with
  | nil => cases found
  | cons k ks ih =>
    cases ks with
    | nil => exact acceptedGet accepted found
    | cons k' ks =>
      obtain ⟨child,here,below⟩ := Option.bind_eq_some_iff.mp found
      exact ih child.states (acceptedBelow (acceptedGet accepted here)) below

theorem enterArranged {common : Nat} {tn : StateDefinition} (accepted : tn.accepted = true) (found : getNodeByPath m target = some tn) :
    TopDown (fun x => (∃ i, common < i ∧ i < target.length ∧ x.1 = target.take i ∧ getNodeByPath m x.1 = some x.2) ∨
      ∃ below tn, x.1 = target ++ below ∧ getNodeByPath m target = some tn ∧ enteredBelow tn below = some x.2)
      (ancestorNodes m common target ++ (enterNodes tn).map (atTarget target)) where
  exact_ x := by
    obtain ⟨c,n⟩ := x
    rw [List.mem_append,memAncestors,List.mem_map]
    refine or_congr Iff.rfl ?_
    constructor
    · rintro ⟨⟨below,node⟩,inside,same⟩
      cases same
      exact ⟨below,tn,rfl,found,(memEnterNodes below node accepted).mp inside⟩
    · rintro ⟨below,tn',rfl,found',entered⟩
      cases Option.some.inj (found.symm.trans found')
      exact ⟨(below,n),(memEnterNodes below n accepted).mpr entered,rfl⟩
  ordered := by
    refine List.pairwise_append.mpr ⟨ancestorOrder,?_,?_⟩
    · refine List.pairwise_map.mpr ((enterOrder tn accepted).imp ?_)
      intro x y early later
      exact early ((List.prefix_append_right_inj target).mp later)
    · intro x above y below
      obtain ⟨i,_,short,same,_⟩ := memAncestors.mp above
      obtain ⟨z,_,rfl⟩ := List.mem_map.mp below
      rw [same]
      exact shorterFirst short (by rw [atTarget,List.length_append]; omega)

theorem exitEffects : (applyTargetTransition m v source targetName).exitEffects = (exitNodes v m.states).flatMap (·.2.exit) :=
  exitsCollected v m.states

theorem entersTarget (targetLeaf : String) (tn : StateDefinition) : (enterTarget targetLeaf (some tn)).2 = Walk.entered.effects tn := by
  rw [Walk.effects,resolvedEffects,enterTarget]
  dsimp only
  split
  · rfl
  · split
    · cases tn.initial with
      | none => exact (List.append_nil _).symm
      | some init => rfl
    · exact (List.append_nil _).symm

theorem entryEffects {common : Nat} {tn : StateDefinition} (accepted : tn.accepted = true)
    (found : getNodeByPath m (resolveTargetPath m source targetName) = some tn) :
    (applyTargetTransition m v source targetName).entryEffects =
      ((ancestorNodes m common (resolveTargetPath m source targetName) ++
        (enterNodes tn).map (atTarget (resolveTargetPath m source targetName))).filter
          (fun x => walkedTo m (resolveTargetPath m source targetName) x.1)).flatMap (·.2.entry) := by
  generalize targets : resolveTargetPath m source targetName = target at found
  have effects : (applyTargetTransition m v source targetName).entryEffects = Walk.entered.effects tn := by
    simp only [applyTargetTransition,targets,found]
    exact entersTarget ..
  have above : (ancestorNodes m common target).filter (fun x => walkedTo m target x.1) = [] := by
    refine List.filter_eq_nil_iff.mpr ?_
    intro x inside
    obtain ⟨i,_,short,same,_⟩ := memAncestors.mp inside
    have before : target.isPrefixOf x.1 = false := by
      rw [Bool.eq_false_iff,ne_eq,List.isPrefixOf_iff_prefix,same]
      exact shorterFirst short short
    simp [walkedTo,before]
  have step : (fun x : Node => walkedTo m target x.1) ∘ atTarget target = Walk.entered.enters tn := by
    funext x
    have after : target.isPrefixOf (target ++ x.1) = true := List.isPrefixOf_iff_prefix.mpr (List.prefix_append ..)
    simp [walkedTo,atTarget,found,Walk.enters,after]
  rw [effects,nodeWalked tn accepted,List.filter_append,above,List.nil_append,List.filter_map,step,List.flatMap_map]
  rfl

/-- The effects are those of what is left and entered exactly where the nodes that stay active
have no exit effect, and those that the walk passes over no entry effect. -/
theorem effectsMatch (accepted : Accepted m) (unique : distinct v = true)
    (resolvable : (getNodeByPath m (resolveTargetPath m source targetName)).isSome) :
    ExitsMatch m v source targetName ∧ EntriesMatch m v source targetName ↔
      (∀ x, Active m v x → onSourceSide source (resolveTargetPath m source targetName) x.1 = false → x.2.exit = []) ∧
        ∀ x, Entered m source (resolveTargetPath m source targetName) x →
          walkedTo m (resolveTargetPath m source targetName) x.1 = false → x.2.entry = [] := by
  obtain ⟨tn,found⟩ := Option.isSome_iff_exists.mp resolvable
  have acceptedNode := nodeAccepted m.states accepted.states _ found
  refine and_congr ?_ ?_
  · rw [ExitsMatch,exitEffects]
    exact (exitArranged unique).onlySome (fun x => onSourceSide source (resolveTargetPath m source targetName) x.1) List.prefix_refl
  · rw [EntriesMatch,entryEffects acceptedNode found]
    exact (enterArranged acceptedNode found).allOfSome (fun x => walkedTo m (resolveTargetPath m source targetName) x.1) List.prefix_refl

end

/-! A hall whose door is shut from inside. -/

def lodge (leaving : List String) : MachineDefinition where
  id := "lodge"
  initial := "hall"
  states := [("hall",{
    initial := some "ajar"
    exit := leaving
    states := [("ajar",{ on := [("shut",.target "closed")], exit := ["draught"] }),("closed",{ entry := ["bolt"] })] })]

def inHall : StateValue := .obj [("hall",Go.leaf "ajar")]

theorem lodgeTarget (leaving : List String) : resolveTargetPath (lodge leaving) ["hall","ajar"] "closed" = ["hall","closed"] := rfl

theorem effectsMatchShut : ExitsMatch (lodge []) inHall ["hall","ajar"] "closed" ∧ EntriesMatch (lodge []) inHall ["hall","ajar"] "closed" := by
  have exits : ∀ x ∈ exitNodes inHall (lodge []).states, onSourceSide ["hall","ajar"] ["hall","closed"] x.1 = false → x.2.exit = [] := by
    decide
  have entries : ∀ x ∈ ancestorNodes (lodge []) 1 ["hall","closed"] ++ (enterNodes { entry := ["bolt"] }).map (atTarget ["hall","closed"]),
      walkedTo (lodge []) ["hall","closed"] x.1 = false → x.2.entry = [] := by
    decide
  refine (effectsMatch (by decide) (by decide) rfl).mpr ⟨?_,?_⟩
  · intro x active outside
    rw [lodgeTarget] at outside
    exact exits x ((memExitNodes x.1 x.2 (by decide)).mpr active) outside
  · intro x entered passed
    rw [lodgeTarget] at entered passed
    exact entries x (((enterArranged (by decide) rfl).exact_ x).mpr entered) passed

/-- Shutting the door from the hall's inside runs the effect of leaving the hall. -/
theorem effectsMatchDim : Accepted (lodge ["dim"]) ∧ (resolveInitialState (lodge ["dim"])).stateValue = inHall ∧
    (activeNode (lodge ["dim"]).states inHall ["hall","ajar"]).isSome ∧
    (getNodeByPath (lodge ["dim"]) (resolveTargetPath (lodge ["dim"]) ["hall","ajar"] "closed")).isSome ∧
    ¬ExitsMatch (lodge ["dim"]) inHall ["hall","ajar"] "closed" := by
  have side : ∀ x ∈ exitNodes inHall (lodge ["dim"]).states, onSourceSide ["hall","ajar"] ["hall","closed"] x.1 = true → "dim" ∉ x.2.exit := by
    decide
  refine ⟨by decide,rfl,rfl,rfl,?_⟩
  rintro ⟨nodes,arranges,same⟩
  have dims : "dim" ∈ nodes.flatMap (·.2.exit) := by
    rw [← same,exitEffects]
    decide
  obtain ⟨x,inside,dim⟩ := List.mem_flatMap.mp dims
  obtain ⟨active,below⟩ := (arranges.exact_ x).mp inside
  rw [lodgeTarget] at below
  exact side x ((memExitNodes x.1 x.2 (by decide)).mpr active) below dim

end Dfsm.Rust
