import Dfsm.Rust.Dispatch

/-! Completion in the Rust SDK: what the specification calls done, against what the engine
takes for complete. -/
namespace Dfsm.Rust
open Keyed (Record)

/-- A container that is active, and the value in it. -/
structure Container where
  path : List String
  node : StateDefinition
  value : StateValue

mutual
/-- A compound whose active direct child is final, or a parallel all of whose regions are final or done. -/
def isDone (node : StateDefinition) : StateValue → Bool
  | .str key =>
    if node.isParallel then node.states.all (·.2.isFinal)
    else node.isCompound && (Keyed.get node.states key).any (·.isFinal)
  | .obj entries =>
    if node.isParallel then node.states.all (fun region => region.2.isFinal || regionDone region.1 region.2 entries)
    else node.isCompound && entries.any (fun e => (Keyed.get node.states e.1).any (·.isFinal))
def regionDone (key : String) (region : StateDefinition) : List (String × StateValue) → Bool
  | [] => false
  | (k,v)::rest => if k = key then isDone region v else regionDone key region rest
end

/-- The containers of a value. -/
inductive ActiveIn : List (String × StateDefinition) → StateValue → Container → Prop where
  | here {states entries key v node} (entry : (key,v) ∈ entries) (found : Keyed.get states key = some node) :
      ActiveIn states (.obj entries) ⟨[key],node,v⟩
  | inner {states entries key v node path inner value} (entry : (key,v) ∈ entries) (found : Keyed.get states key = some node)
      (inside : ActiveIn node.states v ⟨path,inner,value⟩) : ActiveIn states (.obj entries) ⟨key::path,inner,value⟩

namespace Container
variable (c : Container)

def done : Bool := isDone c.node c.value
/-- What the engine takes for done. -/
def complete : Bool := isStateComplete c.node c.value
def pending : PendingOnDone := { sourcePath := c.path, edge := ((c.node.onDone.map TransitionValue.details).getD []).headD {} }

end Container

section
variable (m : MachineDefinition) (sv : StateValue)

/-- An active container with `onDone` that is done. -/
structure Completed (c : Container) : Prop where
  active : ActiveIn m.states sv c
  onDone : c.node.onDone.isSome = true
  done : c.done = true

/-- A container is found exactly when it is a deepest one of those completed. -/
def CompletionFound : Prop :=
  match findPendingOnDone m sv with
  | none => ∀ c, ¬Completed m sv c
  | some pending => ∃ c, Completed m sv c ∧ pending = c.pending ∧ ∀ c', Completed m sv c' → c'.path.length ≤ c.path.length

end

mutual
/-- The containers with `onDone`, in the order of the search. -/
def containers (above : List String) (states : List (String × StateDefinition)) : StateValue → List Container
  | .str _ => []
  | .obj map => containersAmong above states map
def containersAmong (above : List String) (states : List (String × StateDefinition)) : List (String × StateValue) → List Container
  | [] => []
  | (key,v)::rest =>
    (match Keyed.get states key with
      | none => []
      | some node => containers (above ++ [key]) node.states v ++ if node.onDone.isSome then [⟨above ++ [key],node,v⟩] else []) ++
      containersAmong above states rest
end

/-- Before the first container that is done and taken for it, none is taken for done without being
so; and no container that is done is deeper than that first one. -/
structure CompletionClear (m : MachineDefinition) (sv : StateValue) : Prop where
  spurious : ∀ front c back, containers [] m.states sv = front ++ c::back → (∀ x ∈ front, x.done = false ∨ x.complete = false) →
    c.complete = true → c.done = true
  deepest : ∀ c ∈ containers [] m.states sv, c.done = true → ∃ front first back, containers [] m.states sv = front ++ first::back ∧
    (∀ x ∈ front, x.done = false ∨ x.complete = false) ∧ first.done = true ∧ first.complete = true ∧ c.path.length ≤ first.path.length

/-- A container at its place in the search. -/
def taken (c : Container) : Option PendingOnDone :=
  if c.complete then c.node.onDone.map (fun onDone => { sourcePath := c.path, edge := (TransitionValue.details onDone).headD {} }) else none

mutual
theorem searchFinds : ∀ (v : StateValue) (states : List (String × StateDefinition)) (above : List String),
    checkOnDoneRecursive v states above = (containers above states v).findSome? taken
  | .str _, _, _ => rfl
  | .obj map, states, above => searchFindsAmong map states above
theorem searchFindsAmong : ∀ (map : List (String × StateValue)) (states : List (String × StateDefinition)) (above : List String),
    checkOnDoneEntries map states above = (containersAmong above states map).findSome? taken
  | [], _, _ => rfl
  | (key,v)::rest, states, above => by
    rw [checkOnDoneEntries,containersAmong,List.findSome?_append,searchFindsAmong rest states above]
    cases found : Keyed.get states key with
    | none => rfl
    | some node =>
      have own : (if node.onDone.isSome then [⟨above ++ [key],node,v⟩] else []).findSome? taken = taken ⟨above ++ [key],node,v⟩ := by
        cases onDone : node.onDone <;> simp [taken,onDone]
      dsimp only
      rw [List.findSome?_append,own,searchFinds v node.states (above ++ [key])]
      rfl
end

theorem activeMore {states : List (String × StateDefinition)} {map more : List (String × StateValue)} {c : Container}
    (active : ActiveIn states (.obj map) c) (inside : ∀ e ∈ map, e ∈ more) : ActiveIn states (.obj more) c := by
  cases active with
  | here entry found => exact .here (inside _ entry) found
  | inner entry found below => exact .inner (inside _ entry) found below

mutual
theorem listsActive : ∀ (v : StateValue) (states : List (String × StateDefinition)) (above : List String) (c : Container),
    c ∈ containers above states v ↔ ∃ path, c.path = above ++ path ∧ ActiveIn states v { c with path } ∧ c.node.onDone.isSome = true
  | .str _, _, _, c => by
    refine iff_of_false (by simp [containers]) ?_
    rintro ⟨path,_,active,_⟩
    cases active
  | .obj map, states, above, c => by
    rw [containers,listsActiveAmong map states above c]
theorem listsActiveAmong : ∀ (map : List (String × StateValue)) (states : List (String × StateDefinition)) (above : List String) (c : Container),
    c ∈ containersAmong above states map ↔
      ∃ path, c.path = above ++ path ∧ ActiveIn states (.obj map) { c with path } ∧ c.node.onDone.isSome = true
  | [], _, _, c => by
    refine iff_of_false (by simp [containersAmong]) ?_
    rintro ⟨path,_,active,_⟩
    cases active with
    | here entry => cases entry
    | inner entry => cases entry
  | (key,v)::rest, states, above, ⟨place,node,value⟩ => by
    rw [containersAmong,List.mem_append,listsActiveAmong rest states above _]
    constructor
    · rintro (first | ⟨path,placed,active,onDone⟩)
      · cases found : Keyed.get states key with
        | none =>
          rw [found] at first
          cases first
        | some child =>
          rw [found] at first
          rcases List.mem_append.mp first with below | own
          · obtain ⟨path,placed,active,onDone⟩ := (listsActive v child.states (above ++ [key]) _).mp below
            exact ⟨key::path,by simpa using placed,.inner List.mem_cons_self found active,onDone⟩
          · split at own
            · rename_i onDone
              cases List.mem_singleton.mp own
              exact ⟨[key],rfl,.here List.mem_cons_self found,onDone⟩
            · cases own
      · exact ⟨path,placed,activeMore active (fun e mem => List.mem_cons_of_mem _ mem),onDone⟩
    · rintro ⟨path,placed,active,onDone⟩
      cases active with
      | @here _ _ k w _ entry found =>
        rcases List.mem_cons.mp entry with same | later
        · cases same
          refine .inl ?_
          rw [found]
          dsimp only at placed onDone ⊢
          simp [placed,onDone]
        · exact .inr ⟨[k],placed,.here later found,onDone⟩
      | @inner _ _ k w child path _ _ entry found below =>
        rcases List.mem_cons.mp entry with same | later
        · cases same
          refine .inl ?_
          rw [found]
          refine List.mem_append_left _ ((listsActive v child.states (above ++ [key]) _).mpr ⟨path,?_,below,onDone⟩)
          simpa using placed
        · exact .inr ⟨k::path,placed,.inner later found below,onDone⟩
end

theorem listed {m : MachineDefinition} {sv : StateValue} {c : Container} :
    c ∈ containers [] m.states sv ↔ ActiveIn m.states sv c ∧ c.node.onDone.isSome = true := by
  rw [listsActive]
  constructor
  · rintro ⟨path,rfl,active,onDone⟩
    exact ⟨active,onDone⟩
  · rintro ⟨active,onDone⟩
    exact ⟨c.path,rfl,active,onDone⟩

theorem distinctInside {map : List (String × StateValue)} (maps : distinctEntries map = true) {e : String × StateValue} (mem : e ∈ map) :
    distinct e.2 = true := by
  induction map with
  | nil => cases mem
  | cons first rest ih =>
    obtain ⟨here,later⟩ := Bool.and_eq_true_iff.mp maps
    rcases List.mem_cons.mp mem with rfl | deeper
    · exact here
    · exact ih later deeper

theorem activeOnce {states : List (String × StateDefinition)} {v : StateValue} (maps : distinct v = true) {c c' : Container}
    (active : ActiveIn states v c) (active' : ActiveIn states v c') (same : c.path = c'.path) : c = c' := by
  have entryOnce {map : List (String × StateValue)} (maps : distinct (.obj map) = true) {key : String} {u w : StateValue}
      (left : (key,u) ∈ map) (right : (key,w) ∈ map) : u = w := by
    have unique := of_decide_eq_true (Bool.and_eq_true_iff.mp maps).1
    exact Option.some.inj ((Keyed.getOfMem unique left).symm.trans (Keyed.getOfMem unique right))
  induction active generalizing c' with
  | here entry found =>
    cases active' with
    | here entry' found' =>
      cases same
      cases entryOnce maps entry entry'
      cases Option.some.inj (found.symm.trans found')
      rfl
    | inner entry' found' below =>
      obtain ⟨rfl,rfl⟩ := List.cons.inj same
      cases below
  | inner entry found below ih =>
    cases active' with
    | here entry' found' =>
      obtain ⟨rfl,rfl⟩ := List.cons.inj same
      cases below
    | inner entry' found' below' =>
      obtain ⟨rfl,rest⟩ := List.cons.inj same
      cases entryOnce maps entry entry'
      cases Option.some.inj (found.symm.trans found')
      have one := ih (distinctInside (Bool.and_eq_true_iff.mp maps).2 entry) below' rest
      cases one
      rfl

theorem takenOf {c : Container} (onDone : c.node.onDone.isSome = true) : taken c = if c.complete then some c.pending else none := by
  obtain ⟨edge,has⟩ := Option.isSome_iff_exists.mp onDone
  simp [taken,Container.pending,has]

/-- The first container that is taken for complete is the first that is also done, where there is one before all
that are not. -/
theorem firstOnly {front front' back back' : List Container} {c c' : Container} (same : front ++ c::back = front' ++ c'::back')
    (quiet : ∀ x ∈ front, x.done = false ∨ x.complete = false) (complete : c.complete = true) (quiet' : ∀ x ∈ front', x.complete = false)
    (done' : c'.done = true) (complete' : c'.complete = true) : c = c' := by
  rcases List.append_eq_append_iff.mp same with ⟨between,rfl,rest⟩ | ⟨between,rfl,rest⟩
  · cases between with
    | nil => exact (List.cons.inj rest).1
    | cons first between =>
      obtain ⟨rfl,_⟩ := List.cons.inj rest
      exact absurd (complete.symm.trans (quiet' c (by simp))) (by decide)
  · cases between with
    | nil => exact (List.cons.inj rest).1.symm
    | cons first between =>
      obtain ⟨rfl,_⟩ := List.cons.inj rest
      rcases quiet c' (by simp) with undone | open_
      · exact absurd (done'.symm.trans undone) (by decide)
      · exact absurd (complete'.symm.trans open_) (by decide)

theorem completionExact {m : MachineDefinition} {sv : StateValue} (maps : distinct sv = true) : CompletionFound m sv ↔ CompletionClear m sv := by
  have completed {c : Container} : Completed m sv c ↔ c ∈ containers [] m.states sv ∧ c.done = true := by
    rw [listed]
    exact ⟨fun ⟨active,onDone,done⟩ => ⟨⟨active,onDone⟩,done⟩,fun ⟨⟨active,onDone⟩,done⟩ => ⟨active,onDone,done⟩⟩
  have judged {c : Container} (mem : c ∈ containers [] m.states sv) : taken c = if c.complete then some c.pending else none :=
    takenOf (listed.mp mem).2
  unfold CompletionFound
  rw [show findPendingOnDone m sv = (containers [] m.states sv).findSome? taken from searchFinds sv m.states []]
  cases search : (containers [] m.states sv).findSome? taken with
  | none =>
    have open_ {c : Container} (mem : c ∈ containers [] m.states sv) : c.complete = false := by
      have none_ := List.findSome?_eq_none_iff.mp search c mem
      rw [judged mem] at none_
      simpa using none_
    constructor
    · intro found
      refine ⟨fun front c back split _ complete => ?_,fun c mem done => absurd (completed.mpr ⟨mem,done⟩) (found c)⟩
      have mem : c ∈ containers [] m.states sv := by simp [split]
      exact absurd (complete.symm.trans (open_ mem)) (by decide)
    · intro clear c here
      obtain ⟨mem,done⟩ := completed.mp here
      obtain ⟨front,first,back,split,_,_,complete,_⟩ := clear.deepest c mem done
      have inside : first ∈ containers [] m.states sv := by simp [split]
      exact absurd (complete.symm.trans (open_ inside)) (by decide)
  | some pending =>
    obtain ⟨front,c,back,split,takes,before⟩ := List.findSome?_eq_some_iff.mp search
    have mem : c ∈ containers [] m.states sv := by simp [split]
    have complete : c.complete = true ∧ c.pending = pending := by
      rw [judged mem] at takes
      simpa using takes
    have quiet : ∀ x ∈ front, x.complete = false := by
      intro x inside
      have none_ := before x inside
      rw [judged (by simp [split,inside])] at none_
      simpa using none_
    constructor
    · rintro ⟨found,here,same,deepest⟩
      have one : found = c := by
        refine activeOnce maps here.active (listed.mp mem).1 ?_
        exact congrArg PendingOnDone.sourcePath (same.symm.trans complete.2.symm)
      subst one
      refine ⟨fun front' c' back' split' quiet' complete' => ?_,fun c' inside done => ?_⟩
      · have first := firstOnly (split'.symm.trans split) quiet' complete' quiet here.done complete.1
        rw [first]
        exact here.done
      · exact ⟨front,found,back,split,fun x inside => .inr (quiet x inside),here.done,complete.1,deepest c' (completed.mpr ⟨inside,done⟩)⟩
    · intro clear
      have done := clear.spurious front c back split (fun x inside => .inr (quiet x inside)) complete.1
      refine ⟨c,completed.mpr ⟨mem,done⟩,complete.2.symm,fun c' here => ?_⟩
      obtain ⟨inside,done'⟩ := completed.mp here
      obtain ⟨front',first,back',split',quiet',_,complete',deep⟩ := clear.deepest c' inside done'
      rw [firstOnly (split'.symm.trans split) quiet' complete' quiet done complete.1] at deep
      exact deep

end Dfsm.Rust
