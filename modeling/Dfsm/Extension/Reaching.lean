import Dfsm.Extension.Trails

/-! What a machine can reach, by the meaning of entering a state, against the walk that looks
for unreachable states. The walk keeps apart badly what it entered and what it only marked. -/
namespace Dfsm.Extension.Reachability
open Keyed (Record)

variable {machine : ParsedMachine}

/-- The states that can be active, and (with `true`) those that are entered as targets. -/
inductive Reach (machine : ParsedMachine) : Bool → ParsedStateNode → Prop where
  | region {key node} (parallel : machine.rootType = .parallel) (mem : (key,node) ∈ machine.states) : Reach machine true node
  | initial {key node} (compound : machine.rootType = .compound) (own : given machine.initial = some key)
      (mem : (key,node) ∈ machine.states) : Reach machine true node
  | fallback {node} (named : resolveStateTarget machine none (defaultFailTarget machine) = some node) (error : node.path = "error") :
      Reach machine true node
  | target {source t node} (active : Reach machine false source) (leads : t ∈ transitionsOf source)
      (named : (given t.target).bind (resolveStateTarget machine source.path) = some node) : Reach machine true node
  | failure {source t node} (active : Reach machine false source) (leads : t ∈ transitionsOf source)
      (named : (given t.effectivePolicy.target).bind (resolveStateTarget machine source.path) = some node) : Reach machine true node
  | active {node} (target : Reach machine true node) : Reach machine false node
  | ancestor {node outer} (target : Reach machine true node) (declared : outer ∈ machine.allStates)
      (inside : node ∈ nodesBelow outer.states) : Reach machine false outer
  | initialChild {node key child} (target : Reach machine true node) (compound : node.inferredType = .compound)
      (own : given node.initial = some key) (mem : (key,child) ∈ node.states) : Reach machine true child
  | regionChild {node key child} (active : Reach machine false node) (parallel : node.inferredType = .parallel)
      (mem : (key,child) ∈ node.states) : Reach machine true child

/-- A state is warned about just where it cannot be active. -/
def WarnsRight (machine : ParsedMachine) : Prop :=
  ∀ node ∈ machine.allStates, node.isImplicitError = false →
    (node.path ∈ collectUnreachableStateDiagnostics machine ↔ ¬Reach machine false node)

/-- A declared error state that the defaults of the machine name. -/
def defaultError (machine : ParsedMachine) : List ParsedStateNode :=
  ((resolveStateTarget machine none (defaultFailTarget machine)).filter (fun node => node.path = "error" ∧ node.isImplicitError = false)).elim
    [] (fun error => error::entered error)

/-- What the walk passes over it comes to in another way. -/
def MadeGood (machine : ParsedMachine) : Prop :=
  ∀ node ∈ (walked machine).leftOut ++ defaultError machine, node.path ∈ (walked machine).reachable

/-- What the rules of the editor ask of a machine here: maps have keys that differ, and the initial
state of a compound root is one of its states. -/
structure Valid (source : MachineSource) : Prop where
  once : (Keyed.keys source.states).Nodup
  distinct : distinctSources source.states = true
  initial : source.rootType = .compound → ∃ key, given source.initial = some key ∧ key ∈ Keyed.keys source.states

/-! What entering a node enters. -/

theorem memEnteredAmong {pick : String → Bool} {states : Record ParsedStateNode} {node : ParsedStateNode} :
    node ∈ enteredAmong pick states ↔ ∃ key top, (key,top) ∈ states ∧ pick key = true ∧ (node = top ∨ node ∈ entered top) := by
  induction states with
  | nil => simp [enteredAmong]
  | cons e rest ih =>
    obtain ⟨key,top⟩ := e
    rw [enteredAmong,List.mem_append,ih]
    constructor
    · rintro (here | ⟨key',top',mem,picked,inside⟩)
      · split at here
        · rename_i picked
          exact ⟨key,top,List.mem_cons_self,picked,List.mem_cons.mp here⟩
        · cases here
      · exact ⟨key',top',List.mem_cons_of_mem _ mem,picked,inside⟩
    · rintro ⟨key',top',mem,picked,inside⟩
      rcases List.mem_cons.mp mem with same | later
      · cases same
        rw [if_pos picked]
        exact .inl (List.mem_cons.mpr inside)
      · exact .inr ⟨key',top',later,picked,inside⟩

theorem memEntered {node child : ParsedStateNode} : child ∈ entered node ↔ ∃ key top, (key,top) ∈ node.states ∧
    enters node.inferredType node.initial key = true ∧ (child = top ∨ child ∈ entered top) := by
  cases node
  rw [entered]
  exact memEnteredAmong

mutual
theorem enteredBelow : ∀ (node : ParsedStateNode) {child : ParsedStateNode}, child ∈ entered node → child ∈ nodesBelow node.states
  | { name, path, parentPath, inferredType, initial, on, onDone, states, isImplicitError, isCustomError }, child, mem => by
    rw [entered] at mem
    exact enteredAmongBelow states mem
theorem enteredAmongBelow {pick : String → Bool} : ∀ (states : List (String × ParsedStateNode)) {child : ParsedStateNode},
    child ∈ enteredAmong pick states → child ∈ nodesBelow states
  | [], _, mem => by simp [enteredAmong] at mem
  | (key,top)::rest, child, mem => by
    rw [enteredAmong,List.mem_append] at mem
    rw [nodesBelow,List.mem_append,nodesOfEq,List.mem_append,List.mem_singleton]
    rcases mem with here | later
    · split at here
      · rcases List.mem_cons.mp here with rfl | deeper
        · exact .inl (.inr rfl)
        · exact .inl (.inl (enteredBelow top deeper))
      · cases here
    · exact .inr (enteredAmongBelow rest later)
end

mutual
theorem enteredReach : ∀ (node : ParsedStateNode) {child : ParsedStateNode}, Reach machine true node → child ∈ entered node →
    Reach machine true child
  | { name, path, parentPath, inferredType, initial, on, onDone, states, isImplicitError, isCustomError }, child, target, mem => by
    rw [entered] at mem
    refine enteredAmongReach states (fun key top inside picked => ?_) mem
    cases inferredType with
    | compound => exact .initialChild target rfl (by simpa [enters] using picked) inside
    | parallel => exact .regionChild (.active target) rfl inside
    | atomic => cases picked
    | final => cases picked
theorem enteredAmongReach {pick : String → Bool} : ∀ (states : List (String × ParsedStateNode)) {child : ParsedStateNode},
    (∀ key top, (key,top) ∈ states → pick key = true → Reach machine true top) → child ∈ enteredAmong pick states →
    Reach machine true child
  | [], _, _, mem => by simp [enteredAmong] at mem
  | (key,top)::rest, child, targets, mem => by
    rw [enteredAmong,List.mem_append] at mem
    rcases mem with here | later
    · split at here
      · rename_i picked
        have target := targets key top List.mem_cons_self picked
        rcases List.mem_cons.mp here with rfl | deeper
        · exact target
        · exact enteredReach top target deeper
      · cases here
    · exact enteredAmongReach rest (fun key top inside => targets key top (List.mem_cons_of_mem _ inside)) later
end

/-! What the walk keeps, step by step. -/

section Keeping

def Seen (walk : Walk) (node : ParsedStateNode) : Prop := node.path ∈ walk.reachable

/-- Found, or at least on the account of what was passed over. -/
def Covered (walk : Walk) (node : ParsedStateNode) : Prop := Seen walk node ∨ node ∈ walk.leftOut

def unseen (machine : ParsedMachine) (reachable : List String) : Nat := (machine.allStates.filter (·.path ∉ reachable)).length

/-- From one moment of the walk to a later one of the same turn. -/
structure Grows (machine : ParsedMachine) (walk later : Walk) : Prop where
  reachable : ∀ path ∈ walk.reachable, path ∈ later.reachable
  leftOut : ∀ node ∈ walk.leftOut, node ∈ later.leftOut
  queue : ∀ node ∈ walk.queue, node ∈ later.queue
  queued : ∀ node ∈ machine.allStates, Seen later node → Seen walk node ∨ node ∈ later.queue
  spent : unseen machine later.reachable + later.queue.length ≤ unseen machine walk.reachable + walk.queue.length

theorem growsRefl (walk : Walk) : Grows machine walk walk :=
  ⟨fun _ => id,fun _ => id,fun _ => id,fun _ _ => .inl,le_refl _⟩

theorem growsTrans {one two three : Walk} (first : Grows machine one two) (second : Grows machine two three) : Grows machine one three := by
  refine ⟨fun p mem => second.reachable p (first.reachable p mem),fun n mem => second.leftOut n (first.leftOut n mem),
    fun n mem => second.queue n (first.queue n mem),fun n mem seen => ?_,second.spent.trans first.spent⟩
  rcases second.queued n mem seen with earlier | queued
  · exact (first.queued n mem earlier).imp_right (second.queue n)
  · exact .inr queued

theorem coveredGrows {one two : Walk} {node : ParsedStateNode} (grows : Grows machine one two) (covered : Covered one node) : Covered two node :=
  covered.imp (grows.reachable _) (grows.leftOut _)

theorem unseenLess {reachable : List String} {node : ParsedStateNode} (mem : node ∈ machine.allStates) (fresh : node.path ∉ reachable) :
    unseen machine (reachable ++ [node.path]) < unseen machine reachable := by
  unfold unseen
  have fewer : machine.allStates.filter (·.path ∉ reachable ++ [node.path]) =
      (machine.allStates.filter (·.path ∉ reachable)).filter (·.path ≠ node.path) := by
    rw [List.filter_filter]
    refine List.filter_congr (fun other _ => ?_)
    simp [and_comm]
  rw [fewer]
  refine List.length_filter_lt_length_iff_exists.mpr ⟨node,List.mem_filter.mpr ⟨mem,by simpa using fresh⟩,by simp⟩

theorem growsNode {walk later : Walk} {node : ParsedStateNode} (lined : Lined machine) (mem : node ∈ machine.allStates) (fresh : ¬Seen walk node)
    (reachable : later.reachable = walk.reachable ++ [node.path]) (queue : later.queue = walk.queue ++ [node])
    (leftOut : ∀ n ∈ walk.leftOut, n ∈ later.leftOut) : Grows machine walk later := by
  refine ⟨fun p mem => ?_,leftOut,fun n mem => ?_,fun n here seen => ?_,?_⟩
  · rw [reachable]
    exact List.mem_append_left _ mem
  · rw [queue]
    exact List.mem_append_left _ mem
  · rw [Seen,reachable,List.mem_append,List.mem_singleton] at seen
    rcases seen with old | same
    · exact .inl old
    · rw [samePath lined here mem same,queue]
      exact .inr (by simp)
  · have less := unseenLess mem fresh
    rw [reachable,queue,List.length_append,List.length_singleton]
    omega

/-- What holds between the turns: with a node its ancestors are found, and what a parallel one enters is
accounted for, save while it is being entered. -/
structure Kept (machine : ParsedMachine) (opened : ParsedStateNode → Prop) (walk : Walk) : Prop where
  above : ∀ node up, Line machine node up → Seen walk node → ∀ ancestor ∈ up, Seen walk ancestor
  regions : ∀ node ∈ machine.allStates, Seen walk node → node.inferredType = .parallel → ¬opened node →
    ∀ child ∈ entered node, Covered walk child

theorem markNode (lined : Lined machine) {walk : Walk} {node : ParsedStateNode} (mem : node ∈ machine.allStates) :
    Grows machine walk (mark machine walk node.path) ∧ Seen (mark machine walk node.path) node ∧
      (∀ other ∈ machine.allStates, Seen (mark machine walk node.path) other → Seen walk other ∨
        other = node ∧ (node.inferredType = .parallel → ∀ child ∈ entered node, Covered (mark machine walk node.path) child)) := by
  unfold mark
  rw [getNode lined mem]
  split
  · rename_i seen
    exact ⟨growsRefl walk,seen,fun _ _ => .inl⟩
  · rename_i fresh
    refine ⟨growsNode lined mem fresh rfl rfl (fun n => List.mem_append_left _),by simp [Seen],fun other here seen => ?_⟩
    rcases List.mem_append.mp seen with old | new
    · exact .inl old
    · refine .inr ⟨samePath lined here mem (List.mem_singleton.mp new),fun parallel child inside => .inr ?_⟩
      simp only [Option.elim_some,if_pos parallel]
      exact List.mem_append_right _ inside

theorem markNodes (lined : Lined machine) {opened : ParsedStateNode → Prop} {walk : Walk} {line : List ParsedStateNode}
    (declared : ∀ node ∈ line, node ∈ machine.allStates)
    (regions : ∀ node ∈ machine.allStates, Seen walk node → node.inferredType = .parallel → ¬opened node →
      ∀ child ∈ entered node, Covered walk child) :
    Grows machine walk ((line.map (·.path)).foldl (mark machine) walk) ∧
      (∀ node ∈ line, Seen ((line.map (·.path)).foldl (mark machine) walk) node) ∧
      (∀ node ∈ machine.allStates, Seen ((line.map (·.path)).foldl (mark machine) walk) node → Seen walk node ∨ node ∈ line) ∧
      ∀ node ∈ machine.allStates, Seen ((line.map (·.path)).foldl (mark machine) walk) node → node.inferredType = .parallel →
        ¬opened node → ∀ child ∈ entered node, Covered ((line.map (·.path)).foldl (mark machine) walk) child := by
  induction line generalizing walk with
  | nil => exact ⟨growsRefl walk,by simp,fun _ _ => .inl,regions⟩
  | cons first rest ih =>
    have mem := declared first List.mem_cons_self
    obtain ⟨grows,seen,only⟩ := @markNode _ lined walk first mem
    have regions_ : ∀ node ∈ machine.allStates, Seen (mark machine walk first.path) node → node.inferredType = .parallel →
        ¬opened node → ∀ child ∈ entered node, Covered (mark machine walk first.path) child := by
      intro node here found parallel closed child inside
      rcases only node here found with old | ⟨rfl,kept⟩
      · exact coveredGrows grows (regions node here old parallel closed child inside)
      · exact kept parallel child inside
    obtain ⟨more,all,few,kept⟩ := ih (fun node inside => declared node (List.mem_cons_of_mem _ inside)) regions_
    refine ⟨growsTrans grows more,fun node inside => ?_,fun node here found => ?_,kept⟩
    · rcases List.mem_cons.mp inside with rfl | later
      · exact more.reachable _ seen
      · exact all node later
    · rcases few node here found with before | later
      · rcases only node here before with old | ⟨rfl,_⟩
        · exact .inl old
        · exact .inr List.mem_cons_self
      · exact .inr (List.mem_cons_of_mem _ later)

/-- Entering a node: it is found, and what it enters is accounted for. -/
structure Enters (machine : ParsedMachine) (opened : ParsedStateNode → Prop) (walk : Walk) (nodes : List ParsedStateNode) (later : Walk) : Prop where
  grows : Grows machine walk later
  kept : Kept machine opened later
  covered : ∀ node ∈ nodes, Covered later node

theorem keptMarked (lined : Lined machine) {opened : ParsedStateNode → Prop} {walk : Walk} {node : ParsedStateNode} {up : List ParsedStateNode}
    (line : Line machine node up) (kept : Kept machine opened walk) :
    Grows machine walk ((ancestorPaths node.parentPath).foldl (mark machine) walk) ∧
      Kept machine opened ((ancestorPaths node.parentPath).foldl (mark machine) walk) ∧
      ∀ ancestor ∈ up, Seen ((ancestorPaths node.parentPath).foldl (mark machine) walk) ancestor := by
  rw [lineAncestors lined line]
  have declared : ∀ ancestor ∈ up, ancestor ∈ machine.allStates := by
    intro ancestor mem
    obtain ⟨rest,above,_⟩ := lineAbove line mem
    exact lineMem above
  obtain ⟨grows,all,few,regions⟩ := markNodes lined declared kept.regions
  refine ⟨grows,⟨fun other beside otherLine seen ancestor mem => ?_,regions⟩,all⟩
  rcases few other (lineMem otherLine) seen with old | marked
  · exact grows.reachable _ (kept.above other beside otherLine old ancestor mem)
  · obtain ⟨rest,above,suffix⟩ := lineAbove line marked
    obtain ⟨_,rfl⟩ := linePath lined otherLine above rfl
    exact all ancestor (suffix.subset (List.mem_cons_of_mem _ mem))

mutual
theorem enterNode (lined : Lined machine) : ∀ (node : ParsedStateNode) {opened : ParsedStateNode → Prop} {walk : Walk}
    {up : List ParsedStateNode}, Line machine node up → Kept machine opened walk →
    Enters machine opened walk (entered node) (enterState machine walk node) ∧ Seen (enterState machine walk node) node
  | { name, path, parentPath, inferredType, initial, on, onDone, states, isImplicitError, isCustomError }, opened, walk, up, line, kept => by
    obtain ⟨marked,keptMarked,all⟩ := keptMarked lined line kept
    simp only [enterState]
    generalize (ancestorPaths parentPath).foldl (mark machine) walk = walk' at marked keptMarked all ⊢
    generalize isNode : ParsedStateNode.mk name path parentPath inferredType initial on onDone states isImplicitError isCustomError = node at line ⊢
    have inside : entered node = enteredAmong (enters inferredType initial) states := by rw [← isNode,entered]
    have own : node.path = path := by rw [← isNode]
    split
    · rename_i found
      have grows : Grows machine walk' { walk' with leftOut := walk'.leftOut ++ entered node } :=
        ⟨fun _ => id,fun _ => List.mem_append_left _,fun _ => id,fun _ _ => .inl,le_refl _⟩
      refine ⟨⟨growsTrans marked grows,⟨keptMarked.above,?_⟩,fun child below => .inr (List.mem_append_right _ below)⟩,?_⟩
      · exact fun other here seen parallel closed child below => coveredGrows grows (keptMarked.regions other here seen parallel closed child below)
      · rw [Seen,own]
        exact found
    · rename_i fresh
      have mem := lineMem line
      have grows : Grows machine walk' { walk' with reachable := walk'.reachable ++ [path], queue := walk'.queue ++ [node] } :=
        growsNode lined mem (by rwa [Seen,own]) (by rw [own]) rfl (fun _ => id)
      have lines : ∀ key top, (key,top) ∈ states → ∃ up, Line machine top up :=
        fun key top below => ⟨_,lineChild lined line (by rw [← isNode]; exact below)⟩
      -- while it is being entered, what a parallel node enters is not yet accounted for
      have during : Kept machine (fun other => opened other ∨ other = node)
          { walk' with reachable := walk'.reachable ++ [path], queue := walk'.queue ++ [node] } := by
        refine ⟨fun other beside otherLine seen ancestor higher => ?_,fun other here seen parallel closed child below => ?_⟩
        · rcases List.mem_append.mp seen with old | new
          · exact grows.reachable _ (keptMarked.above other beside otherLine old ancestor higher)
          · obtain ⟨_,rfl⟩ := linePath lined otherLine line ((List.mem_singleton.mp new).trans own.symm)
            exact grows.reachable _ (all ancestor higher)
        · rcases List.mem_append.mp seen with old | new
          · exact coveredGrows grows (keptMarked.regions other here old parallel (fun open_ => closed (.inl open_)) child below)
          · exact absurd (.inr (samePath lined here mem ((List.mem_singleton.mp new).trans own.symm))) closed
      obtain ⟨more,after,covered⟩ := enterAmongNodes lined states (enters inferredType initial) lines during
      refine ⟨⟨growsTrans marked (growsTrans grows more),⟨after.above,?_⟩,by rwa [inside]⟩,?_⟩
      · intro other here seen parallel closed child below
        by_cases same : other = node
        · rw [same,inside] at below
          exact covered child below
        · exact after.regions other here seen parallel (by rintro (open_ | here); exacts [closed open_,same here]) child below
      · exact more.reachable _ (by rw [own]; simp)
theorem enterAmongNodes (lined : Lined machine) : ∀ (states : List (String × ParsedStateNode)) (pick : String → Bool)
    {opened : ParsedStateNode → Prop} {walk : Walk}, (∀ key top, (key,top) ∈ states → ∃ up, Line machine top up) →
    Kept machine opened walk → Enters machine opened walk (enteredAmong pick states) (enterAmong machine pick walk states)
  | [], _, _, _, _, kept => ⟨growsRefl _,kept,by simp [enteredAmong]⟩
  | (key,top)::rest, pick, opened, walk, lines, kept => by
    rw [enterAmong,enteredAmong]
    have later := fun key top mem => lines key top (List.mem_cons_of_mem _ mem)
    split
    · obtain ⟨up,line⟩ := lines key top List.mem_cons_self
      obtain ⟨⟨grows,kept',covered⟩,seen⟩ := enterNode lined top line kept
      obtain ⟨more,after,others⟩ := enterAmongNodes lined rest pick later kept'
      refine ⟨growsTrans grows more,after,fun node mem => ?_⟩
      rcases List.mem_append.mp mem with here | there
      · rcases List.mem_cons.mp here with rfl | deeper
        · exact .inl (more.reachable _ seen)
        · exact coveredGrows more (covered node deeper)
      · exact others node there
    · exact enterAmongNodes lined rest pick later kept
end

end Keeping

end Dfsm.Extension.Reachability
