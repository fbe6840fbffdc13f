import Dfsm.Extension.Unreachable
import Mathlib.Data.List.TakeWhile

/-! Where the nodes of a parsed machine stand: each with its ancestors above it, whose paths
are those that its own path contains. -/
namespace Dfsm.Extension.Reachability
open Keyed (Record)

/-- A node and its ancestors, nearest first. -/
inductive Trail (states : Record ParsedStateNode) : List ParsedStateNode → Prop where
  | root {key node} (mem : (key,node) ∈ states) : Trail states [node]
  | child {key node parent up} (above : Trail states (parent::up)) (mem : (key,node) ∈ parent.states) :
      Trail states (node::parent::up)

/-- Nodes as the parser makes them, of keys that are names of their own. -/
inductive Formed : Option String → List (String × ParsedStateNode) → Prop where
  | intro {parentPath states} (distinct : (Keyed.keys states).Nodup)
      (each : ∀ key node, (key,node) ∈ states → node.name = key ∧ Dotted.Plain key ∧ node.parentPath = parentPath ∧
        node.path = (given parentPath).elim key (· ++ "." ++ key) ∧ node.isImplicitError = false ∧
        node.isCustomError = (parentPath.isNone && key == "error"))
      (below : ∀ key node, (key,node) ∈ states → Formed (some node.path) node.states) : Formed parentPath states

mutual
/-- Every key names a state by itself: none is empty, or has a dot. -/
def plainSource : StateSource → Bool
  | { explicitType := _, initial := _, on := _, onDone := _, states } => plainSources states
def plainSources : List (String × StateSource) → Bool
  | [] => true
  | (key,state)::rest => decide (Dotted.Plain key) && plainSource state && plainSources rest
end

mutual
/-- The keys of one map differ. -/
def distinctSource : StateSource → Bool
  | { explicitType := _, initial := _, on := _, onDone := _, states } => decide (Keyed.keys states).Nodup && distinctSources states
def distinctSources : List (String × StateSource) → Bool
  | [] => true
  | (_,state)::rest => distinctSource state && distinctSources rest
end

theorem parsedKeys {parentPath : Option String} {states : List (String × StateSource)} :
    Keyed.keys (parseStates parentPath states) = Keyed.keys states := by
  induction states with
  | nil => rfl
  | cons e rest ih =>
    obtain ⟨key,state⟩ := e
    simp only [parseStates,Keyed.keys,List.map_cons] at ih ⊢
    rw [ih]

theorem formedCons {parentPath : Option String} {key : String} {node : ParsedStateNode} {rest : List (String × ParsedStateNode)}
    (distinct : (Keyed.keys ((key,node)::rest)).Nodup)
    (own : node.name = key ∧ Dotted.Plain key ∧ node.parentPath = parentPath ∧
      node.path = (given parentPath).elim key (· ++ "." ++ key) ∧ node.isImplicitError = false ∧
      node.isCustomError = (parentPath.isNone && key == "error"))
    (below : Formed (some node.path) node.states) (formed : Formed parentPath rest) : Formed parentPath ((key,node)::rest) := by
  obtain ⟨_,each,deeper⟩ := formed
  refine .intro distinct (fun k n mem => ?_) (fun k n mem => ?_)
  · rcases List.mem_cons.mp mem with here | later
    · cases here
      exact own
    · exact each k n later
  · rcases List.mem_cons.mp mem with here | later
    · cases here
      exact below
    · exact deeper k n later

mutual
theorem formedNode (parentPath : Option String) (key : String) : ∀ state, plainSource state = true → distinctSource state = true →
    Formed (some (parseStatePair parentPath key state).path) (parseStatePair parentPath key state).states
  | { explicitType, initial, on, onDone, states }, plain, distinct => by
    rw [plainSource] at plain
    simp only [distinctSource,Bool.and_eq_true,decide_eq_true_eq] at distinct
    exact formedStates _ states plain distinct.1 distinct.2
theorem formedStates (parentPath : Option String) : ∀ states, plainSources states = true → (Keyed.keys states).Nodup →
    distinctSources states = true → Formed parentPath (parseStates parentPath states)
  | [], _, _, _ => .intro (by simp [parseStates,Keyed.keys]) (by simp [parseStates]) (by simp [parseStates])
  | (key,state)::rest, plain, once, distinct => by
    simp only [plainSources,Bool.and_eq_true,decide_eq_true_eq] at plain
    simp only [distinctSources,Bool.and_eq_true] at distinct
    have keys : (Keyed.keys (parseStates parentPath ((key,state)::rest))).Nodup := by rwa [parsedKeys]
    rw [parseStates] at keys ⊢
    refine formedCons keys ?_ (formedNode parentPath key state plain.1.2 distinct.1)
      (formedStates parentPath rest plain.2 (List.nodup_cons.mp once).2 distinct.2)
    cases state
    exact ⟨rfl,plain.1.1,rfl,rfl,rfl,rfl⟩
end

/-- The names from the top down. -/
def names (trail : List ParsedStateNode) : List String := (trail.map (·.name)).reverse

section
variable {states : Record ParsedStateNode}

/-- What the paths along a trail are. -/
structure Along (node : ParsedStateNode) (up : List ParsedStateNode) : Prop where
  plain : ∀ name ∈ names (node::up), Dotted.Plain name
  path : node.path = Dotted.join (names (node::up))
  parentPath : node.parentPath = up.head?.map (·.path)
  declared : node.isImplicitError = false
  error : node.isCustomError = (up.isEmpty && node.name == "error")
  below : Formed (some node.path) node.states

theorem namesCons {node : ParsedStateNode} {up : List ParsedStateNode} : names (node::up) = names up ++ [node.name] := by
  simp [names]

theorem plainPath {node : ParsedStateNode} {up : List ParsedStateNode} (along : Along node up) : node.path ≠ "" := by
  rw [along.path]
  intro none_
  have nil := (Dotted.joinEmpty along.plain).mp none_
  simp [names] at nil

theorem trailAlong {node : ParsedStateNode} {up : List ParsedStateNode} (formed : Formed none states) (trail : Trail states (node::up)) :
    Along node up := by
  generalize whole : node::up = line at trail
  induction trail generalizing node up with
  | @root key top mem =>
    cases whole
    obtain ⟨_,each,below⟩ := formed
    obtain ⟨name,plain,parent,path,declared,error⟩ := each key top mem
    refine ⟨?_,?_,parent,declared,?_,below key top mem⟩
    · simpa [names,name] using plain
    · rw [path,namesCons,name]
      rfl
    · rw [error,name]
      rfl
  | @child key last parent above _ mem ih =>
    cases whole
    have along := ih rfl
    obtain ⟨_,each,below⟩ := along.below
    obtain ⟨name,plain,parentPath,path,declared,error⟩ := each key last mem
    have some_ : given (some parent.path) = some parent.path := by simp [given,plainPath along]
    rw [some_] at path
    refine ⟨fun n here => ?_,?_,parentPath,declared,?_,below key last mem⟩
    · rw [namesCons,List.mem_append,List.mem_singleton] at here
      rcases here with old | rfl
      · exact along.plain n old
      · exact name ▸ plain
    · rw [path,namesCons,name,Dotted.joinSnoc (by simp [names]),along.path]
      rfl
    · rw [error]
      rfl

theorem trailUp {node : ParsedStateNode} {up : List ParsedStateNode} (trail : Trail states (node::up)) (some_ : up ≠ []) :
    Trail states up := by
  cases trail with
  | root => contradiction
  | child above => exact above

theorem trailNames {front other : List ParsedStateNode} (formed : Formed none states) (one : Trail states front)
    (two : Trail states other) (same : names front = names other) : front = other := by
  induction one generalizing other with
  | @root key node mem =>
    cases two with
    | @root key' node' mem' =>
      obtain ⟨distinct,each,_⟩ := formed
      have name : node.name = node'.name := by simpa [names] using same
      rw [(each _ _ mem).1,(each _ _ mem').1] at name
      subst name
      have here := (Keyed.getOfMem distinct mem).symm.trans (Keyed.getOfMem distinct mem')
      rw [Option.some.inj here]
    | child => exact absurd (congrArg List.length same) (by simp [names])
  | @child key node parent up above mem ih =>
    cases two with
    | root => exact absurd (congrArg List.length same) (by simp [names])
    | @child key' node' parent' up' above' mem' =>
      rw [namesCons,@namesCons node'] at same
      obtain ⟨rest,last⟩ := List.append_inj' same rfl
      have line := ih above' rest
      cases line
      obtain ⟨distinct,each,_⟩ := (trailAlong formed above).below
      have name : node.name = node'.name := by simpa using last
      rw [(each _ _ mem).1,(each _ _ mem').1] at name
      subst name
      have here := (Keyed.getOfMem distinct mem).symm.trans (Keyed.getOfMem distinct mem')
      rw [Option.some.inj here]

theorem trailPath {node other : ParsedStateNode} {up beside : List ParsedStateNode} (formed : Formed none states)
    (one : Trail states (node::up)) (two : Trail states (other::beside)) (same : node.path = other.path) :
    node = other ∧ up = beside := by
  have a := trailAlong formed one
  have b := trailAlong formed two
  rw [a.path,b.path] at same
  have line := trailNames formed one two (Dotted.joinInj a.plain b.plain same)
  exact ⟨(List.cons.inj line).1,(List.cons.inj line).2⟩

theorem trailAbove {node ancestor : ParsedStateNode} {up : List ParsedStateNode} (trail : Trail states (node::up))
    (mem : ancestor ∈ up) : ∃ rest, Trail states (ancestor::rest) ∧ ancestor::rest <:+ up := by
  induction up generalizing node with
  | nil => contradiction
  | cons parent above ih =>
    have line := trailUp trail (by simp)
    rcases List.mem_cons.mp mem with rfl | higher
    · exact ⟨above,line,List.suffix_refl _⟩
    · obtain ⟨rest,whole,suffix⟩ := ih line higher
      exact ⟨rest,whole,suffix.trans (List.suffix_cons _ _)⟩

theorem trailAncestors {node : ParsedStateNode} {up : List ParsedStateNode} (formed : Formed none states)
    (trail : Trail states (node::up)) : ancestorPaths node.parentPath = up.map (·.path) := by
  have paths : ∀ line : List ParsedStateNode, (line = [] ∨ Trail states line) →
      containers (line.map (·.name)) = line.map (·.path) := by
    intro line
    induction line with
    | nil => exact fun _ => rfl
    | cons first rest ih =>
      intro here
      have trail := here.resolve_left (by simp)
      have rest_ : rest = [] ∨ Trail states rest := by
        by_cases none_ : rest = []
        · exact .inl none_
        · exact .inr (trailUp trail none_)
      have along := trailAlong formed trail
      have own : Dotted.join (first.name::rest.map (·.name)).reverse = first.path := along.path.symm
      simp only [List.map_cons,containers,own,ih rest_]
  have along := trailAlong formed trail
  rw [along.parentPath]
  cases up with
  | nil => rfl
  | cons parent above =>
    have line := trailUp trail (by simp)
    have parentAlong := trailAlong formed line
    simp only [ancestorPaths,List.head?_cons,Option.map_some,Option.elim_some]
    rw [parentAlong.path,Dotted.splitJoinPlain (by simp [names]) parentAlong.plain]
    have reversed : (names (parent::above)).reverse = (parent::above).map (·.name) := by simp [names]
    rw [reversed,paths _ (.inr line)]
    refine List.takeWhile_eq_self_iff.mpr (fun path mem => ?_)
    obtain ⟨ancestor,inside,rfl⟩ := List.mem_map.mp mem
    obtain ⟨rest,whole,_⟩ := trailAbove trail inside
    simpa using plainPath (trailAlong formed whole)

end

/-! The nodes below a map of states are those with a trail in it. -/

theorem nodesOfEq (node : ParsedStateNode) : nodesOf node = nodesBelow node.states ++ [node] := by
  cases node
  rw [nodesOf]

theorem memBelow {states : Record ParsedStateNode} {node : ParsedStateNode} :
    node ∈ nodesBelow states ↔ ∃ key top, (key,top) ∈ states ∧ (node = top ∨ node ∈ nodesBelow top.states) := by
  induction states with
  | nil => simp [nodesBelow]
  | cons e rest ih =>
    obtain ⟨key,top⟩ := e
    rw [nodesBelow,List.mem_append,ih,nodesOfEq,List.mem_append,List.mem_singleton]
    constructor
    · rintro ((below | rfl) | ⟨key',top',mem,here⟩)
      · exact ⟨key,top,List.mem_cons_self,.inr below⟩
      · exact ⟨key,node,List.mem_cons_self,.inl rfl⟩
      · exact ⟨key',top',List.mem_cons_of_mem _ mem,here⟩
    · rintro ⟨key',top',mem,here⟩
      rcases List.mem_cons.mp mem with same | later
      · cases same
        exact .inl here.symm
      · exact .inr ⟨key',top',later,here⟩

theorem belowChild {states : Record ParsedStateNode} {key : String} {node : ParsedStateNode} (mem : (key,node) ∈ states) :
    node ∈ nodesBelow states := memBelow.mpr ⟨key,node,mem,.inl rfl⟩

mutual
theorem belowTransNode : ∀ (top : ParsedStateNode) {middle node : ParsedStateNode}, middle = top ∨ middle ∈ nodesBelow top.states →
    node ∈ nodesBelow middle.states → node ∈ nodesBelow top.states
  | { name, path, parentPath, inferredType, initial, on, onDone, states, isImplicitError, isCustomError }, _, _, .inl rfl, below => below
  | { name, path, parentPath, inferredType, initial, on, onDone, states, isImplicitError, isCustomError }, _, _, .inr inside, below =>
    belowTrans states inside below
theorem belowTrans : ∀ (states : List (String × ParsedStateNode)) {middle node : ParsedStateNode}, middle ∈ nodesBelow states →
    node ∈ nodesBelow middle.states → node ∈ nodesBelow states
  | [], _, _, inside, _ => by simp [nodesBelow] at inside
  | (key,top)::rest, middle, node, inside, below => by
    rw [nodesBelow,List.mem_append,nodesOfEq,List.mem_append,List.mem_singleton] at inside ⊢
    rcases inside with (deeper | rfl) | later
    · exact .inl (.inl (belowTransNode top (.inr deeper) below))
    · exact .inl (.inl below)
    · exact .inr (belowTrans rest later below)
end

theorem trailInside {states : Record ParsedStateNode} {top : ParsedStateNode} {line above : List ParsedStateNode}
    (outer : Trail states (top::above)) (trail : Trail top.states line) : Trail states (line ++ top::above) := by
  induction trail with
  | root mem => exact .child outer mem
  | child _ mem ih => exact .child ih mem

theorem trailMore {states more : Record ParsedStateNode} {line : List ParsedStateNode} (sub : ∀ e ∈ states, e ∈ more)
    (trail : Trail states line) : Trail more line := by
  induction trail with
  | root mem => exact .root (sub _ mem)
  | child _ mem ih => exact .child ih mem

mutual
theorem trailOfNode : ∀ (top : ParsedStateNode) {node : ParsedStateNode}, node ∈ nodesBelow top.states → ∃ up, Trail top.states (node::up)
  | { name, path, parentPath, inferredType, initial, on, onDone, states, isImplicitError, isCustomError }, _, inside =>
    trailOfBelow states inside
theorem trailOfBelow : ∀ (states : List (String × ParsedStateNode)) {node : ParsedStateNode}, node ∈ nodesBelow states →
    ∃ up, Trail states (node::up)
  | [], _, inside => by simp [nodesBelow] at inside
  | (key,top)::rest, node, inside => by
    rw [nodesBelow,List.mem_append,nodesOfEq,List.mem_append,List.mem_singleton] at inside
    have here : Trail ((key,top)::rest) [top] := .root List.mem_cons_self
    rcases inside with (deeper | rfl) | later
    · obtain ⟨up,trail⟩ := trailOfNode top deeper
      exact ⟨_,trailInside here trail⟩
    · exact ⟨[],here⟩
    · obtain ⟨up,trail⟩ := trailOfBelow rest later
      exact ⟨up,trailMore (fun e mem => List.mem_cons_of_mem _ mem) trail⟩
end

theorem belowTrail {states : Record ParsedStateNode} {node : ParsedStateNode} :
    node ∈ nodesBelow states ↔ ∃ up, Trail states (node::up) := by
  constructor
  · exact trailOfBelow states
  · rintro ⟨up,trail⟩
    induction up generalizing node with
    | nil =>
      cases trail with
      | root mem => exact belowChild mem
    | cons parent above ih =>
      cases trail with
      | child outer mem => exact belowTrans states (ih outer) (belowChild mem)

theorem trailBelow {states : Record ParsedStateNode} {node ancestor : ParsedStateNode} {up : List ParsedStateNode}
    (formed : Formed none states) (trail : Trail states (node::up)) (declared : ancestor ∈ nodesBelow states) :
    ancestor ∈ up ↔ node ∈ nodesBelow ancestor.states := by
  constructor
  · intro mem
    induction up generalizing node with
    | nil => contradiction
    | cons parent above ih =>
      cases trail with
      | child outer inside =>
        rcases List.mem_cons.mp mem with rfl | higher
        · exact belowChild inside
        · exact belowTrans ancestor.states (ih outer higher) (belowChild inside)
  · intro below
    obtain ⟨above,outer⟩ := belowTrail.mp declared
    obtain ⟨front,inner⟩ := trailOfBelow ancestor.states below
    obtain ⟨_,rfl⟩ := trailPath formed trail (trailInside outer inner) rfl
    simp

/-! The nodes of a machine, the implicit error state among them. -/

/-- A node of the machine and its ancestors. -/
def Line (machine : ParsedMachine) (node : ParsedStateNode) (up : List ParsedStateNode) : Prop :=
  Trail machine.states (node::up) ∨ machine.implicitErrorNode = some node ∧ up = []

/-- A machine as it is parsed, of keys that are plain and differ. -/
structure Lined (machine : ParsedMachine) : Prop where
  formed : Formed none machine.states
  implicit : ∀ node, machine.implicitErrorNode = some node → node = implicitError ∧ Keyed.get machine.states "error" = none

section
variable {machine : ParsedMachine} {node other : ParsedStateNode} {up beside : List ParsedStateNode}

theorem lineOf : node ∈ machine.allStates ↔ ∃ up, Line machine node up := by
  rw [ParsedMachine.allStates,List.mem_append,belowTrail,Option.mem_toList]
  constructor
  · rintro (⟨up,trail⟩ | implicit)
    · exact ⟨up,.inl trail⟩
    · exact ⟨[],.inr ⟨implicit,rfl⟩⟩
  · rintro ⟨up,trail | ⟨implicit,_⟩⟩
    · exact .inl ⟨up,trail⟩
    · exact .inr implicit

theorem lineMem (line : Line machine node up) : node ∈ machine.allStates := lineOf.mpr ⟨up,line⟩

theorem lineAncestors (lined : Lined machine) (line : Line machine node up) : ancestorPaths node.parentPath = up.map (·.path) := by
  rcases line with trail | ⟨implicit,rfl⟩
  · exact trailAncestors lined.formed trail
  · obtain ⟨rfl,_⟩ := lined.implicit node implicit
    rfl

theorem errorFree (lined : Lined machine) (trail : Trail machine.states (node::up)) (none_ : Keyed.get machine.states "error" = none) :
    node.path ≠ "error" := by
  intro same
  have along := trailAlong lined.formed trail
  have plain : ∀ name ∈ ["error"], Dotted.Plain name := by decide
  rw [along.path] at same
  have one := Dotted.joinInj along.plain plain (same.trans (by decide))
  cases trail with
  | @root key _ mem =>
    obtain ⟨_,each,_⟩ := lined.formed
    have name : node.name = "error" := by simpa [names] using one
    rw [(each _ _ mem).1] at name
    exact absurd (List.mem_map_of_mem (f := Prod.fst) mem) (name ▸ Keyed.getNone.mp none_)
  | child => exact absurd (congrArg List.length one) (by simp [names])

theorem linePath (lined : Lined machine) (one : Line machine node up) (two : Line machine other beside)
    (same : node.path = other.path) : node = other ∧ up = beside := by
  rcases one with trail | ⟨implicit,rfl⟩
  · rcases two with trail' | ⟨implicit',rfl⟩
    · exact trailPath lined.formed trail trail' same
    · obtain ⟨rfl,none_⟩ := lined.implicit other implicit'
      exact absurd same (errorFree lined trail none_)
  · rcases two with trail' | ⟨implicit',rfl⟩
    · obtain ⟨rfl,none_⟩ := lined.implicit node implicit
      exact absurd same.symm (errorFree lined trail' none_)
    · exact ⟨Option.some.inj (implicit.symm.trans implicit'),rfl⟩

theorem samePath (lined : Lined machine) (one : node ∈ machine.allStates) (two : other ∈ machine.allStates)
    (same : node.path = other.path) : node = other := by
  obtain ⟨_,lineOne⟩ := lineOf.mp one
  obtain ⟨_,lineTwo⟩ := lineOf.mp two
  exact (linePath lined lineOne lineTwo same).1

theorem getNode (lined : Lined machine) (mem : node ∈ machine.allStates) : machine.get node.path = some node := by
  obtain ⟨found,here⟩ := Filed.lastOf (·.path) mem
  rw [ParsedMachine.get,here,samePath lined (Filed.lastMem here) mem (Filed.lastKey here)]

theorem getMem {path : String} (here : machine.get path = some node) : node ∈ machine.allStates ∧ node.path = path :=
  ⟨Filed.lastMem here,Filed.lastKey here⟩

theorem lineChild {key : String} (lined : Lined machine) (line : Line machine node up) (mem : (key,other) ∈ node.states) :
    Line machine other (node::up) := by
  rcases line with trail | ⟨implicit,rfl⟩
  · exact .inl (.child trail mem)
  · obtain ⟨rfl,_⟩ := lined.implicit node implicit
    cases mem

theorem lineAbove (line : Line machine node up) (mem : other ∈ up) : ∃ rest, Line machine other rest ∧ other::rest <:+ up := by
  rcases line with trail | ⟨_,rfl⟩
  · obtain ⟨rest,above,suffix⟩ := trailAbove trail mem
    exact ⟨rest,.inl above,suffix⟩
  · contradiction

theorem lineBelow (lined : Lined machine) (line : Line machine node up) (declared : other ∈ machine.allStates) :
    other ∈ up ↔ node ∈ nodesBelow other.states := by
  rcases lineOf.mp declared with ⟨rest,trail' | ⟨implicit',_⟩⟩
  · rcases line with trail | ⟨implicit,rfl⟩
    · exact trailBelow lined.formed trail (belowTrail.mpr ⟨rest,trail'⟩)
    · obtain ⟨rfl,none_⟩ := lined.implicit node implicit
      refine iff_of_false (by simp) (fun inside => ?_)
      have deep := belowTrans machine.states (belowTrail.mpr ⟨rest,trail'⟩) inside
      obtain ⟨up,trail⟩ := belowTrail.mp deep
      exact absurd rfl (errorFree lined trail none_)
  · obtain ⟨rfl,none_⟩ := lined.implicit other implicit'
    refine iff_of_false (fun inside => ?_) (by simp [implicitError,nodesBelow])
    rcases line with trail | ⟨_,rfl⟩
    · obtain ⟨rest,above,_⟩ := trailAbove trail inside
      exact absurd rfl (errorFree lined above none_)
    · contradiction

end

theorem parsedLined {source : MachineSource} (plain : plainSources source.states = true) (once : (Keyed.keys source.states).Nodup)
    (distinct : distinctSources source.states = true) : Lined (parseMachine source) := by
  refine ⟨formedStates none source.states plain once distinct,fun node implicit => ?_⟩
  simp only [parseMachine] at implicit ⊢
  split at implicit
  · cases implicit
  · rename_i absent
    refine ⟨(Option.some.inj implicit).symm,?_⟩
    rw [Keyed.getNone,parsedKeys,← Keyed.hasKey]
    exact absent

end Dfsm.Extension.Reachability
