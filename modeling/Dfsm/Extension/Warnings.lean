import Dfsm.Extension.Reaching

/-! The walk from its seeds to its end: what it finds can be active, and all that can be active is
found where nothing that it passed over is missing. -/
namespace Dfsm.Extension.Reachability
open Keyed (Record)

variable {machine : ParsedMachine}

theorem resolvedMem {source : Option String} {raw : String} {node : ParsedStateNode}
    (named : resolveStateTarget machine source raw = some node) : node ∈ machine.allStates := by
  simp only [resolveStateTarget] at named
  split at named
  · cases named
  · split at named
    · split at named
      · cases named
      · split at named
        · exact (getMem named).1
        · split at named
          · exact (getMem named).1
          · exact (getMem named).1
    · rcases Option.or_eq_some_iff.mp named with inner | ⟨_,outer⟩
      · obtain ⟨parent,_,here⟩ := Option.bind_eq_some_iff.mp inner
        exact (getMem here).1
      · exact (getMem outer).1

theorem namedMem {source : String} {raw : Option String} {node : ParsedStateNode}
    (named : (given raw).bind (resolveStateTarget machine source) = some node) : node ∈ machine.allStates := by
  obtain ⟨text,_,here⟩ := Option.bind_eq_some_iff.mp named
  exact resolvedMem here

theorem insideMem (lined : Lined machine) {node child : ParsedStateNode} (mem : node ∈ machine.allStates)
    (inside : child ∈ nodesBelow node.states) : child ∈ machine.allStates ∧ child.isImplicitError = false := by
  obtain ⟨up,trail | ⟨implicit,_⟩⟩ := lineOf.mp mem
  · have below := belowTrans machine.states (belowTrail.mpr ⟨up,trail⟩) inside
    obtain ⟨above,deeper⟩ := belowTrail.mp below
    exact ⟨List.mem_append_left _ below,(trailAlong lined.formed deeper).declared⟩
  · obtain ⟨rfl,_⟩ := lined.implicit node implicit
    simp [implicitError,nodesBelow] at inside

theorem regionsReach {node child : ParsedStateNode} (active : Reach machine false node) (parallel : node.inferredType = .parallel)
    (inside : child ∈ entered node) : Reach machine true child := by
  obtain ⟨key,top,mem,_,rfl | deeper⟩ := memEntered.mp inside
  · exact .regionChild active parallel mem
  · exact enteredReach top (.regionChild active parallel mem) deeper

/-! What the walk finds can be active. -/

section Soundness

structure Sound (machine : ParsedMachine) (walk : Walk) : Prop where
  reachable : ∀ path ∈ walk.reachable, ∃ node ∈ machine.allStates, node.path = path ∧ Reach machine false node
  queue : ∀ node ∈ walk.queue, node ∈ machine.allStates ∧ Reach machine false node
  leftOut : ∀ node ∈ walk.leftOut, node ∈ machine.allStates ∧ node.isImplicitError = false ∧ Reach machine true node
  flagged : walk.errorReferencedImplicitlyOrExplicitly = true → ∀ node ∈ machine.allStates, node.path = "error" → Reach machine true node

theorem soundFound {walk : Walk} {node : ParsedStateNode} {more : List ParsedStateNode} (sound : Sound machine walk)
    (mem : node ∈ machine.allStates) (active : Reach machine false node)
    (passed : ∀ other ∈ more, other ∈ machine.allStates ∧ other.isImplicitError = false ∧ Reach machine true other) :
    Sound machine { walk with
      reachable := walk.reachable ++ [node.path], queue := walk.queue ++ [node], leftOut := walk.leftOut ++ more } := by
  refine ⟨fun path here => ?_,fun other here => ?_,fun other here => ?_,sound.flagged⟩
  · rcases List.mem_append.mp here with old | new
    · exact sound.reachable path old
    · exact ⟨node,mem,(List.mem_singleton.mp new).symm,active⟩
  · rcases List.mem_append.mp here with old | new
    · exact sound.queue other old
    · cases List.mem_singleton.mp new
      exact ⟨mem,active⟩
  · exact (List.mem_append.mp here).elim (sound.leftOut other) (passed other)

theorem soundOver {walk : Walk} {more : List ParsedStateNode} (sound : Sound machine walk)
    (passed : ∀ other ∈ more, other ∈ machine.allStates ∧ other.isImplicitError = false ∧ Reach machine true other) :
    Sound machine { walk with leftOut := walk.leftOut ++ more } :=
  ⟨sound.reachable,sound.queue,fun other here => (List.mem_append.mp here).elim (sound.leftOut other) (passed other),sound.flagged⟩

theorem soundMark (lined : Lined machine) {walk : Walk} {node : ParsedStateNode} (mem : node ∈ machine.allStates)
    (active : Reach machine false node) (sound : Sound machine walk) : Sound machine (mark machine walk node.path) := by
  unfold mark
  rw [getNode lined mem]
  split
  · exact sound
  · refine soundFound sound mem active (fun other here => ?_)
    simp only [Option.elim_some] at here
    split at here
    · rename_i parallel
      obtain ⟨declared,explicit⟩ := insideMem lined mem (enteredBelow node here)
      exact ⟨declared,explicit,regionsReach active parallel here⟩
    · cases here

theorem soundMarks (lined : Lined machine) {walk : Walk} {line : List ParsedStateNode}
    (each : ∀ node ∈ line, node ∈ machine.allStates ∧ Reach machine false node) (sound : Sound machine walk) :
    Sound machine ((line.map (·.path)).foldl (mark machine) walk) := by
  induction line generalizing walk with
  | nil => exact sound
  | cons first rest ih =>
    obtain ⟨mem,active⟩ := each first List.mem_cons_self
    exact ih (fun node inside => each node (List.mem_cons_of_mem _ inside)) (soundMark lined mem active sound)

mutual
theorem soundNode (lined : Lined machine) : ∀ (node : ParsedStateNode) {walk : Walk}, node ∈ machine.allStates → Reach machine true node →
    Sound machine walk → Sound machine (enterState machine walk node)
  | { name, path, parentPath, inferredType, initial, on, onDone, states, isImplicitError, isCustomError }, walk, mem, target, sound => by
    simp only [enterState]
    generalize isNode : ParsedStateNode.mk name path parentPath inferredType initial on onDone states isImplicitError isCustomError = node at mem target ⊢
    have inside : entered node = enteredAmong (enters inferredType initial) states := by rw [← isNode,entered]
    have own : node.path = path := by rw [← isNode]
    have below : node.states = states := by rw [← isNode]
    obtain ⟨up,line⟩ := lineOf.mp mem
    have marked : Sound machine ((ancestorPaths parentPath).foldl (mark machine) walk) := by
      have ancestors := lineAncestors lined line
      rw [← isNode] at ancestors
      rw [ancestors]
      refine soundMarks lined (fun ancestor higher => ?_) sound
      obtain ⟨_,above,_⟩ := lineAbove line higher
      exact ⟨lineMem above,.ancestor target (lineMem above) ((lineBelow lined line (lineMem above)).mp higher)⟩
    have declared : ∀ child ∈ entered node, child ∈ machine.allStates ∧ child.isImplicitError = false ∧ Reach machine true child := by
      intro child here
      obtain ⟨known,explicit⟩ := insideMem lined mem (enteredBelow node here)
      exact ⟨known,explicit,enteredReach node target here⟩
    split
    · exact soundOver marked declared
    · have found := soundFound marked mem (.active target) (List.forall_mem_nil _)
      simp only [List.append_nil,own] at found
      refine soundAmong lined states _ (fun key top here picked => ?_) found
      have known := declared top (by rw [inside]; exact memEnteredAmong.mpr ⟨key,top,here,picked,.inl rfl⟩)
      exact ⟨known.1,known.2.2⟩
theorem soundAmong (lined : Lined machine) : ∀ (states : List (String × ParsedStateNode)) (pick : String → Bool) {walk : Walk},
    (∀ key top, (key,top) ∈ states → pick key = true → top ∈ machine.allStates ∧ Reach machine true top) →
    Sound machine walk → Sound machine (enterAmong machine pick walk states)
  | [], _, _, _, sound => sound
  | (key,top)::rest, pick, walk, each, sound => by
    rw [enterAmong]
    have later := fun key top mem => each key top (List.mem_cons_of_mem _ mem)
    split
    · rename_i picked
      obtain ⟨mem,target⟩ := each key top List.mem_cons_self picked
      exact soundAmong lined rest pick later (soundNode lined top mem target sound)
    · exact soundAmong lined rest pick later sound
end

theorem soundFollow (lined : Lined machine) {fallbacks : Bool} (apart : fallbacks = true ∨ machine.implicitErrorNode = none)
    {walk : Walk} {current : ParsedStateNode} {t : ParsedTransition} (active : Reach machine false current)
    (leads : t ∈ transitionsOf current) (sound : Sound machine walk) : Sound machine (follow machine fallbacks current walk t) := by
  unfold follow
  have after : Sound machine (((given t.target).bind (resolveStateTarget machine current.path)).elim walk (enterState machine walk)) := by
    cases named : (given t.target).bind (resolveStateTarget machine current.path) with
    | none => exact sound
    | some node => exact soundNode lined node (namedMem named) (.target active leads named) sound
  simp only []
  split
  · exact after
  · rename_i node named
    have mem := namedMem named
    have target : Reach machine true node := .failure active leads named
    split
    · refine soundNode lined node mem target ⟨after.reachable,after.queue,after.leftOut,fun flag other here path => ?_⟩
      rcases Bool.or_eq_true _ _ ▸ flag with before | own
      · exact after.flagged before other here path
      · rw [samePath lined here mem (path.trans (beq_iff_eq.mp own).symm)]
        exact target
    · rename_i second
      -- only a machine without an error state of its own has the implicit one
      have none_ := apart.resolve_left second
      refine soundOver after (fun other here => ?_)
      rcases List.mem_cons.mp here with rfl | below
      · obtain ⟨up,trail | ⟨implicit,_⟩⟩ := lineOf.mp mem
        · exact ⟨mem,(trailAlong lined.formed trail).declared,target⟩
        · rw [none_] at implicit
          cases implicit
      · obtain ⟨known,explicit⟩ := insideMem lined mem (enteredBelow node below)
        exact ⟨known,explicit,enteredReach node target below⟩

theorem soundTurn (lined : Lined machine) {fallbacks : Bool} (apart : fallbacks = true ∨ machine.implicitErrorNode = none)
    {current : ParsedStateNode} (active : Reach machine false current) {ts : List ParsedTransition}
    (leads : ∀ t ∈ ts, t ∈ transitionsOf current) {walk : Walk} (sound : Sound machine walk) :
    Sound machine (ts.foldl (follow machine fallbacks current) walk) := by
  induction ts generalizing walk with
  | nil => exact sound
  | cons t rest ih =>
    exact ih (fun other mem => leads other (List.mem_cons_of_mem _ mem))
      (soundFollow lined apart active (leads t List.mem_cons_self) sound)

theorem soundDrain (lined : Lined machine) {fallbacks : Bool} (apart : fallbacks = true ∨ machine.implicitErrorNode = none)
    {turns : Nat} {walk : Walk} (sound : Sound machine walk) : Sound machine (drain machine fallbacks turns walk) := by
  induction turns generalizing walk with
  | zero => exact sound
  | succ turns ih =>
    rw [drain]
    split
    · exact sound
    · rename_i current queue waiting
      have active := (sound.queue current (waiting ▸ List.mem_cons_self)).2
      refine ih (soundTurn lined apart active (fun _ => id) ⟨sound.reachable,fun node mem => ?_,sound.leftOut,sound.flagged⟩)
      exact sound.queue node (waiting ▸ List.mem_cons_of_mem _ mem)

end Soundness

/-! What can be active is found, or on the account. -/

section Completeness

/-- Every state that a transition of the node names is accounted for. -/
def Treated (machine : ParsedMachine) (walk : Walk) (ts : List ParsedTransition) (node : ParsedStateNode) : Prop :=
  ∀ t ∈ ts, ∀ named, (given t.target).bind (resolveStateTarget machine node.path) = some named ∨
    (given t.effectivePolicy.target).bind (resolveStateTarget machine node.path) = some named →
    ∀ child ∈ named::entered named, Covered walk child

theorem treatedGrows {one two : Walk} {ts : List ParsedTransition} {node : ParsedStateNode} (grows : Grows machine one two)
    (treated : Treated machine one ts node) : Treated machine two ts node :=
  fun t leads named here child inside => coveredGrows grows (treated t leads named here child inside)

theorem enterWhole (lined : Lined machine) {opened : ParsedStateNode → Prop} {walk : Walk} {node : ParsedStateNode}
    (mem : node ∈ machine.allStates) (kept : Kept machine opened walk) :
    Enters machine opened walk (node::entered node) (enterState machine walk node) := by
  obtain ⟨up,line⟩ := lineOf.mp mem
  obtain ⟨⟨grows,after,covered⟩,seen⟩ := enterNode lined node line kept
  refine ⟨grows,after,fun child inside => ?_⟩
  rcases List.mem_cons.mp inside with rfl | below
  · exact .inl seen
  · exact covered child below

theorem entersSame {opened : ParsedStateNode → Prop} {walk : Walk} (kept : Kept machine opened walk) : Enters machine opened walk [] walk :=
  ⟨growsRefl walk,kept,by simp⟩

theorem entersTrans {opened : ParsedStateNode → Prop} {one two three : Walk} {nodes more : List ParsedStateNode}
    (first : Enters machine opened one nodes two) (second : Enters machine opened two more three) :
    Enters machine opened one (nodes ++ more) three :=
  ⟨growsTrans first.grows second.grows,second.kept,fun node mem => (List.mem_append.mp mem).elim
    (fun early => coveredGrows second.grows (first.covered node early)) (second.covered node)⟩

theorem enterNamed (lined : Lined machine) {opened : ParsedStateNode → Prop} {walk : Walk} (named : Option ParsedStateNode)
    (declared : ∀ node, named = some node → node ∈ machine.allStates) (kept : Kept machine opened walk) :
    Enters machine opened walk (named.elim [] (fun node => node::entered node)) (named.elim walk (enterState machine walk)) := by
  cases named with
  | none => exact entersSame kept
  | some node => exact enterWhole lined (declared node rfl) kept

theorem followEnters (lined : Lined machine) {opened : ParsedStateNode → Prop} {walk : Walk} (fallbacks : Bool) (current : ParsedStateNode)
    (t : ParsedTransition) (kept : Kept machine opened walk) :
    Enters machine opened walk
      (((given t.target).bind (resolveStateTarget machine current.path)).elim [] (fun node => node::entered node) ++
        ((given t.effectivePolicy.target).bind (resolveStateTarget machine current.path)).elim [] (fun node => node::entered node))
      (follow machine fallbacks current walk t) := by
  have first := enterNamed lined ((given t.target).bind (resolveStateTarget machine current.path)) (fun node => namedMem) kept
  refine entersTrans first ?_
  unfold follow
  generalize ((given t.target).bind (resolveStateTarget machine current.path)).elim walk (enterState machine walk) = walk' at first ⊢
  cases named : (given t.effectivePolicy.target).bind (resolveStateTarget machine current.path) with
  | none => exact entersSame first.kept
  | some node =>
    simp only [Option.elim_some]
    split
    · have kept' : Kept machine opened { walk' with
          errorReferencedImplicitlyOrExplicitly := walk'.errorReferencedImplicitlyOrExplicitly || node.path == "error" } :=
        ⟨first.kept.above,first.kept.regions⟩
      obtain ⟨grows,after,covered⟩ := enterWhole lined (namedMem named) kept'
      exact ⟨⟨grows.reachable,grows.leftOut,grows.queue,grows.queued,grows.spent⟩,after,covered⟩
    · have grows : Grows machine walk' { walk' with leftOut := walk'.leftOut ++ node::entered node } :=
        ⟨fun _ => id,fun _ => List.mem_append_left _,fun _ => id,fun _ _ => .inl,le_refl _⟩
      refine ⟨grows,⟨first.kept.above,?_⟩,fun child inside => .inr (List.mem_append_right _ inside)⟩
      exact fun other here seen parallel closed child below =>
        coveredGrows grows (first.kept.regions other here seen parallel closed child below)

theorem turnEnters (lined : Lined machine) {opened : ParsedStateNode → Prop} {walk : Walk} (fallbacks : Bool) (current : ParsedStateNode)
    (ts : List ParsedTransition) (kept : Kept machine opened walk) :
    Grows machine walk (ts.foldl (follow machine fallbacks current) walk) ∧
      Kept machine opened (ts.foldl (follow machine fallbacks current) walk) ∧
      Treated machine (ts.foldl (follow machine fallbacks current) walk) ts current := by
  induction ts generalizing walk with
  | nil => exact ⟨growsRefl walk,kept,fun _ mem => by cases mem⟩
  | cons t rest ih =>
    obtain ⟨grows,kept',covered⟩ := followEnters lined fallbacks current t kept
    obtain ⟨more,after,treated⟩ := ih kept'
    refine ⟨growsTrans grows more,after,fun other mem named here child inside => ?_⟩
    rcases List.mem_cons.mp mem with rfl | later
    · refine coveredGrows more (covered child ?_)
      rcases here with target | failure
      · rw [target]
        exact List.mem_append_left _ inside
      · rw [failure]
        exact List.mem_append_right _ inside
    · exact treated other later named here child inside

/-- Between the turns a node that is found waits in the queue, or all it names is accounted for. -/
structure Between (machine : ParsedMachine) (walk : Walk) : Prop where
  kept : Kept machine (fun _ => False) walk
  treated : ∀ node ∈ machine.allStates, Seen walk node → node ∈ walk.queue ∨ Treated machine walk (transitionsOf node) node

/-- What the loop comes to: the queue is empty before the turns are spent. -/
structure Drained (machine : ParsedMachine) (walk later : Walk) : Prop where
  between : Between machine later
  queue : later.queue = []
  reachable : ∀ path ∈ walk.reachable, path ∈ later.reachable
  leftOut : ∀ node ∈ walk.leftOut, node ∈ later.leftOut

theorem drained (lined : Lined machine) (fallbacks : Bool) (turns : Nat) {walk : Walk} (between : Between machine walk)
    (enough : unseen machine walk.reachable + walk.queue.length ≤ turns) : Drained machine walk (drain machine fallbacks turns walk) := by
  induction turns generalizing walk with
  | zero =>
    have empty : walk.queue = [] := List.length_eq_zero_iff.mp (by omega)
    exact ⟨between,empty,fun _ => id,fun _ => id⟩
  | succ turns ih =>
    rw [drain]
    split
    · rename_i empty
      exact ⟨between,empty,fun _ => id,fun _ => id⟩
    · rename_i current queue waiting
      have kept : Kept machine (fun _ => False) { walk with queue } := ⟨between.kept.above,between.kept.regions⟩
      obtain ⟨grows,after,treated⟩ := turnEnters lined fallbacks current (transitionsOf current) kept
      have next : Between machine ((transitionsOf current).foldl (follow machine fallbacks current) { walk with queue }) := by
        refine ⟨after,fun node mem seen => ?_⟩
        rcases grows.queued node mem seen with early | queued
        · rcases between.treated node mem early with inQueue | before
          · rw [waiting] at inQueue
            rcases List.mem_cons.mp inQueue with rfl | later
            · exact .inr treated
            · exact .inl (grows.queue node later)
          · refine .inr (fun t leads named here child inside => ?_)
            exact (before t leads named here child inside).imp (grows.reachable _) (grows.leftOut _)
        · exact .inl queued
      have spent := grows.spent
      rw [waiting,List.length_cons] at enough
      obtain ⟨end_,empty,mono,passed⟩ := ih next (by simp only [] at spent ⊢; omega)
      exact ⟨end_,empty,fun path mem => mono path (grows.reachable path mem),fun node mem => passed node (grows.leftOut node mem)⟩

end Completeness

/-! The whole walk. -/

section Whole

def seeds (machine : ParsedMachine) : List ParsedStateNode :=
  match machine.rootType with
  | .parallel => machine.states.map Prod.snd
  | .compound => ((given machine.initial).bind machine.get).toList

theorem seededFold : seeded machine = (seeds machine).foldl (enterState machine) {} := by
  unfold seeded seeds
  cases machine.rootType with
  | parallel => rfl
  | compound => cases (given machine.initial).bind machine.get <;> rfl

theorem topMem {key : String} {node : ParsedStateNode} (mem : (key,node) ∈ machine.states) : node ∈ machine.allStates :=
  List.mem_append_left _ (belowChild mem)

theorem topPath (lined : Lined machine) {key : String} {node : ParsedStateNode} (mem : (key,node) ∈ machine.states) : node.path = key := by
  obtain ⟨_,each,_⟩ := lined.formed
  exact (each key node mem).2.2.2.1

theorem seedsMem {node : ParsedStateNode} (seed : node ∈ seeds machine) : node ∈ machine.allStates := by
  unfold seeds at seed
  split at seed
  · obtain ⟨⟨key,top⟩,mem,rfl⟩ := List.mem_map.mp seed
    exact topMem mem
  · obtain ⟨text,_,here⟩ := Option.bind_eq_some_iff.mp (Option.mem_toList.mp seed)
    exact (getMem here).1

theorem seedInitial (lined : Lined machine) {key : String} {node : ParsedStateNode} (compound : machine.rootType = .compound)
    (own : given machine.initial = some key) (mem : (key,node) ∈ machine.states) : seeds machine = [node] := by
  have found := getNode lined (topMem mem)
  rw [topPath lined mem] at found
  simp [seeds,compound,own,found]

theorem seedsReach (lined : Lined machine) (initial : machine.rootType = .compound →
    ∃ key node, given machine.initial = some key ∧ (key,node) ∈ machine.states) {node : ParsedStateNode} (seed : node ∈ seeds machine) :
    Reach machine true node := by
  cases rootType : machine.rootType with
  | parallel =>
    simp only [seeds,rootType] at seed
    obtain ⟨⟨key,top⟩,mem,rfl⟩ := List.mem_map.mp seed
    exact .region rootType mem
  | compound =>
    obtain ⟨key,top,own,mem⟩ := initial rootType
    rw [seedInitial lined rootType own mem] at seed
    cases List.mem_singleton.mp seed
    exact .initial rootType own mem

theorem soundNodes (lined : Lined machine) {nodes : List ParsedStateNode} {walk : Walk}
    (targets : ∀ node ∈ nodes, node ∈ machine.allStates ∧ Reach machine true node) (sound : Sound machine walk) :
    Sound machine (nodes.foldl (enterState machine) walk) := by
  induction nodes generalizing walk with
  | nil => exact sound
  | cons first rest ih =>
    obtain ⟨mem,target⟩ := targets first List.mem_cons_self
    exact ih (fun node inside => targets node (List.mem_cons_of_mem _ inside)) (soundNode lined first mem target sound)

theorem entersNodes (lined : Lined machine) {opened : ParsedStateNode → Prop} {nodes : List ParsedStateNode} {walk : Walk}
    (declared : ∀ node ∈ nodes, node ∈ machine.allStates) (kept : Kept machine opened walk) :
    Enters machine opened walk (nodes.flatMap (fun node => node::entered node)) (nodes.foldl (enterState machine) walk) := by
  induction nodes generalizing walk with
  | nil => exact entersSame kept
  | cons first rest ih =>
    have here := enterWhole lined (declared first List.mem_cons_self) kept
    exact entersTrans here (ih (fun node inside => declared node (List.mem_cons_of_mem _ inside)) here.kept)

theorem seededEnters (lined : Lined machine) :
    Enters machine (fun _ => False) {} ((seeds machine).flatMap (fun node => node::entered node)) (seeded machine) := by
  rw [seededFold]
  refine entersNodes lined (fun node => seedsMem) ⟨fun node up line seen => ?_,fun node mem seen => ?_⟩
  · cases seen
  · cases seen

theorem errorNamed (lined : Lined machine) {node : ParsedStateNode} (mem : node ∈ machine.allStates) (path : node.path = "error")
    (default : defaultFailTarget machine = "error") :
    resolveStateTarget machine none (defaultFailTarget machine) = some node := by
  have found := getNode lined mem
  rw [path] at found
  have text : trim "error" = "error" := by decide
  simp [default,resolveStateTarget,text,given,found]

theorem soundFirst (lined : Lined machine) (initial : machine.rootType = .compound →
    ∃ key node, given machine.initial = some key ∧ (key,node) ∈ machine.states) : Sound machine (firstWalk machine) := by
  have start : Sound machine {} := ⟨by simp,by simp,by simp,by simp⟩
  have seeds_ : Sound machine (seeded machine) := by
    rw [seededFold]
    exact soundNodes lined (fun node seed => ⟨seedsMem seed,seedsReach lined initial seed⟩) start
  refine soundDrain lined (.inl rfl) ⟨seeds_.reachable,seeds_.queue,seeds_.leftOut,fun flag node mem path => ?_⟩
  exact .fallback (errorNamed lined mem path (beq_iff_eq.mp flag)) path

theorem firstDrained (lined : Lined machine) : Drained machine (seeded machine) (firstWalk machine) := by
  have seeds_ := seededEnters lined
  have between : Between machine { seeded machine with
      errorReferencedImplicitlyOrExplicitly := defaultFailTarget machine == "error" } := by
    refine ⟨⟨seeds_.kept.above,seeds_.kept.regions⟩,fun node mem seen => ?_⟩
    rcases seeds_.grows.queued node mem seen with early | queued
    · cases early
    · exact .inl queued
  have few : unseen machine [] ≤ machine.allStates.length := List.length_filter_le _ _
  have spent := seeds_.grows.spent
  obtain ⟨end_,empty,reachable,leftOut⟩ := drained lined true machine.allStates.length between
    (by simp only [List.length_nil] at spent ⊢; omega)
  exact ⟨end_,empty,reachable,leftOut⟩

/-- What the walk comes to in the end. -/
structure Ended (machine : ParsedMachine) (walk : Walk) : Prop where
  sound : Sound machine walk
  above : ∀ node up, Line machine node up → Seen walk node → ∀ ancestor ∈ up, Seen walk ancestor
  regions : ∀ node ∈ machine.allStates, Seen walk node → node.inferredType = .parallel → ∀ child ∈ entered node, Covered walk child
  treated : ∀ node ∈ machine.allStates, Seen walk node → Treated machine walk (transitionsOf node) node
  seeds : ∀ node ∈ seeds machine, ∀ child ∈ node::entered node, Covered walk child
  error : walk.errorReferencedImplicitlyOrExplicitly = true → ∀ error, Keyed.get machine.states "error" = some error → Seen walk error

theorem endedOf {walk : Walk} (between : Between machine walk) (empty : walk.queue = []) (sound : Sound machine walk)
    (seeds : ∀ node ∈ seeds machine, ∀ child ∈ node::entered node, Covered walk child)
    (error : walk.errorReferencedImplicitlyOrExplicitly = true → ∀ error, Keyed.get machine.states "error" = some error → Seen walk error) :
    Ended machine walk := by
  refine ⟨sound,between.kept.above,fun node mem seen parallel => between.kept.regions node mem seen parallel (fun no => no),?_,seeds,error⟩
  intro node mem seen
  refine (between.treated node mem seen).resolve_left (fun queued => ?_)
  rw [empty] at queued
  cases queued

theorem walkedEnded (lined : Lined machine) (initial : machine.rootType = .compound →
    ∃ key node, given machine.initial = some key ∧ (key,node) ∈ machine.states) : Ended machine (walked machine) := by
  have sound := soundFirst lined initial
  obtain ⟨between,empty,reachable,leftOut⟩ := firstDrained lined
  have seeds_ : ∀ node ∈ seeds machine, ∀ child ∈ node::entered node, Covered (firstWalk machine) child := by
    intro node seed child inside
    have covered := (seededEnters lined).covered child (List.mem_flatMap.mpr ⟨node,seed,inside⟩)
    exact covered.imp (reachable _) (leftOut _)
  unfold walked
  cases declared : Keyed.get machine.states "error" with
  | none =>
    refine endedOf between empty sound seeds_ (fun _ error here => ?_)
    rw [declared] at here
    cases here
  | some error =>
    have mem := Keyed.getSome declared
    have path := topPath lined mem
    simp only []
    split
    · rename_i second
      have none_ : machine.implicitErrorNode = none := by
        cases implicit : machine.implicitErrorNode with
        | none => rfl
        | some node =>
          obtain ⟨_,absent⟩ := lined.implicit node implicit
          rw [declared] at absent
          cases absent
      have target : Reach machine true error := sound.flagged second.1 error (topMem mem) path
      have enters := enterWhole lined (topMem mem) between.kept
      have again : Between machine (enterState machine (firstWalk machine) error) := by
        refine ⟨enters.kept,fun node here seen => ?_⟩
        rcases enters.grows.queued node here seen with early | queued
        · rcases between.treated node here early with inQueue | before
          · rw [empty] at inQueue
            cases inQueue
          · exact .inr (treatedGrows enters.grows before)
        · exact .inl queued
      have few : unseen machine (firstWalk machine).reachable ≤ machine.allStates.length := List.length_filter_le _ _
      have spent := enters.grows.spent
      rw [empty,List.length_nil] at spent
      obtain ⟨end_,empty',reachable',leftOut'⟩ := drained lined false machine.allStates.length again (by omega)
      refine endedOf end_ empty' (soundDrain lined (.inr none_) (soundNode lined error (topMem mem) target sound))
        (fun node seed child inside => ?_) (fun _ other here => ?_)
      · exact (coveredGrows enters.grows (seeds_ node seed child inside)).imp (reachable' _) (leftOut' _)
      · obtain ⟨up,line⟩ := lineOf.mp (topMem mem)
        cases Option.some.inj (declared.symm.trans here)
        exact reachable' _ (enterNode lined error line between.kept).2
    · rename_i never
      refine endedOf between empty sound seeds_ (fun flag other here => ?_)
      cases Option.some.inj (declared.symm.trans here)
      by_contra missing
      exact never ⟨flag,path ▸ missing⟩

end Whole

/-! The result. -/

section Result

theorem defaultErrorNamed {error : ParsedStateNode} (named : resolveStateTarget machine none (defaultFailTarget machine) = some error)
    (path : error.path = "error") (explicit : error.isImplicitError = false) : defaultError machine = error::entered error := by
  simp [defaultError,named,Option.filter_some,path,explicit]

/-- Where nothing that was passed over is missing, all that can be active is found, but for the implicit error state. -/
theorem reachSeen (lined : Lined machine) (ended : Ended machine (walked machine)) (good : MadeGood machine) {target : Bool}
    {node : ParsedStateNode} (reach : Reach machine target node) : node ∈ machine.allStates ∧ (node.isImplicitError = false →
      Seen (walked machine) node ∧ (target = true → ∀ child ∈ entered node, Seen (walked machine) child)) := by
  have found : ∀ node, Covered (walked machine) node → Seen (walked machine) node := fun node covered =>
    covered.elim id (fun passed => good node (List.mem_append_left _ passed))
  have whole : ∀ node, (∀ child ∈ node::entered node, Covered (walked machine) child) →
      Seen (walked machine) node ∧ (true = true → ∀ child ∈ entered node, Seen (walked machine) child) := fun node covered =>
    ⟨found node (covered node List.mem_cons_self),fun _ child inside => found child (covered child (List.mem_cons_of_mem _ inside))⟩
  -- the implicit error state has no states, and no transitions
  have explicit : ∀ node ∈ machine.allStates, node.states ≠ [] ∨ transitionsOf node ≠ [] → node.isImplicitError = false := by
    intro node mem some_
    obtain ⟨up,trail | ⟨implicit,_⟩⟩ := lineOf.mp mem
    · exact (trailAlong lined.formed trail).declared
    · obtain ⟨rfl,_⟩ := lined.implicit node implicit
      exact absurd some_ (by simp [implicitError,transitionsOf])
  induction reach with
  | @region key node parallel mem =>
    refine ⟨topMem mem,fun _ => whole node (ended.seeds node ?_)⟩
    simp only [seeds,parallel]
    exact List.mem_map_of_mem (f := Prod.snd) mem
  | @initial key node compound own mem =>
    refine ⟨topMem mem,fun _ => whole node (ended.seeds node ?_)⟩
    rw [seedInitial lined compound own mem]
    exact List.mem_singleton_self node
  | @fallback node named error =>
    refine ⟨resolvedMem named,fun declared => whole node (fun child inside => .inl (good child (List.mem_append_right _ ?_)))⟩
    rwa [defaultErrorNamed named error declared]
  | @target source t node active leads named ih =>
    refine ⟨namedMem named,fun _ => whole node ?_⟩
    have seen := (ih.2 (explicit source ih.1 (.inr (List.ne_nil_of_mem leads)))).1
    exact ended.treated source ih.1 seen t leads node (.inl named)
  | @failure source t node active leads named ih =>
    refine ⟨namedMem named,fun _ => whole node ?_⟩
    have seen := (ih.2 (explicit source ih.1 (.inr (List.ne_nil_of_mem leads)))).1
    exact ended.treated source ih.1 seen t leads node (.inr named)
  | active target ih => exact ⟨ih.1,fun declared => ⟨(ih.2 declared).1,fun wrong => Bool.noConfusion wrong⟩⟩
  | @ancestor node outer target declared inside ih =>
    obtain ⟨mem,explicit⟩ := insideMem lined declared inside
    obtain ⟨up,line⟩ := lineOf.mp mem
    exact ⟨declared,fun _ => ⟨ended.above node up line (ih.2 explicit).1 outer ((lineBelow lined line declared).mpr inside),fun wrong => Bool.noConfusion wrong⟩⟩
  | @initialChild node key child target compound own mem ih =>
    have all := (ih.2 (explicit node ih.1 (.inl (List.ne_nil_of_mem mem)))).2 rfl
    have inside : ∀ other ∈ child::entered child, other ∈ entered node := fun other below =>
      memEntered.mpr ⟨key,child,mem,by simp [enters,compound,own],List.mem_cons.mp below⟩
    exact ⟨(insideMem lined ih.1 (belowChild mem)).1,fun _ => whole child (fun other below => .inl (all other (inside other below)))⟩
  | @regionChild node key child active parallel mem ih =>
    have seen := (ih.2 (explicit node ih.1 (.inl (List.ne_nil_of_mem mem)))).1
    have inside : ∀ other ∈ child::entered child, other ∈ entered node := fun other below =>
      memEntered.mpr ⟨key,child,mem,by simp [enters,parallel],List.mem_cons.mp below⟩
    exact ⟨(insideMem lined ih.1 (belowChild mem)).1,fun _ => whole child (fun other below =>
      ended.regions node ih.1 seen parallel other (inside other below))⟩

theorem warned (lined : Lined machine) {node : ParsedStateNode} (mem : node ∈ machine.allStates) (explicit : node.isImplicitError = false) :
    node.path ∈ collectUnreachableStateDiagnostics machine ↔ ¬Seen (walked machine) node ∧
      ¬(node.isCustomError = true ∧ (walked machine).errorReferencedImplicitlyOrExplicitly = true) := by
  have some_ : machine.states ≠ [] := by
    intro none_
    obtain ⟨up,trail | ⟨implicit,_⟩⟩ := lineOf.mp mem
    · rw [none_] at trail
      exact absurd (belowTrail.mpr ⟨up,trail⟩) (by simp [nodesBelow])
    · obtain ⟨rfl,_⟩ := lined.implicit node implicit
      cases explicit
  have kept : node ∈ machine.values := (Filed.memFiled _ _ _).mpr (getNode lined mem)
  simp only [collectUnreachableStateDiagnostics,if_neg some_,List.mem_map,List.mem_filter]
  constructor
  · rintro ⟨other,⟨here,unfound⟩,same⟩
    have declared := Filed.lastMem ((Filed.memFiled _ _ _).mp here)
    rw [samePath lined declared mem same] at unfound
    simpa [explicit,Seen,and_comm,imp_iff_not_or] using unfound
  · intro unfound
    refine ⟨node,⟨kept,?_⟩,rfl⟩
    simpa [explicit,Seen,and_comm,imp_iff_not_or] using unfound

theorem customSeen (lined : Lined machine) (ended : Ended machine (walked machine)) {node : ParsedStateNode} (mem : node ∈ machine.allStates)
    (custom : node.isCustomError = true) (flag : (walked machine).errorReferencedImplicitlyOrExplicitly = true) :
    Seen (walked machine) node := by
  obtain ⟨up,trail | ⟨implicit,_⟩⟩ := lineOf.mp mem
  · have along := trailAlong lined.formed trail
    rw [along.error,Bool.and_eq_true,List.isEmpty_iff,beq_iff_eq] at custom
    obtain ⟨rfl,name⟩ := custom
    cases trail with
    | @root key _ top =>
      obtain ⟨distinct,each,_⟩ := lined.formed
      rw [(each key node top).1] at name
      subst name
      exact ended.error flag node (Keyed.getOfMem distinct top)
  · obtain ⟨rfl,_⟩ := lined.implicit node implicit
    cases custom

theorem foundReach (lined : Lined machine) (ended : Ended machine (walked machine)) {node : ParsedStateNode} (mem : node ∈ machine.allStates)
    (seen : Seen (walked machine) node) : Reach machine false node := by
  obtain ⟨other,declared,path,active⟩ := ended.sound.reachable node.path seen
  rwa [← samePath lined declared mem path]

theorem warnsRightIff (lined : Lined machine) (ended : Ended machine (walked machine)) : WarnsRight machine ↔ MadeGood machine := by
  constructor
  · intro right node passed
    have known : node ∈ machine.allStates ∧ node.isImplicitError = false ∧ Reach machine true node := by
      rcases List.mem_append.mp passed with left_ | default_
      · exact ended.sound.leftOut node left_
      · unfold defaultError at default_
        cases named : resolveStateTarget machine none (defaultFailTarget machine) with
        | none =>
          rw [named] at default_
          cases default_
        | some error =>
          rw [named,Option.filter_some] at default_
          split at default_
          · rename_i both
            simp only [Bool.decide_and,Bool.and_eq_true,decide_eq_true_eq] at both
            have target : Reach machine true error := .fallback named both.1
            rcases List.mem_cons.mp default_ with rfl | below
            · exact ⟨resolvedMem named,both.2,target⟩
            · obtain ⟨declared,explicit⟩ := insideMem lined (resolvedMem named) (enteredBelow error below)
              exact ⟨declared,explicit,enteredReach error target below⟩
          · cases default_
    obtain ⟨mem,explicit,target⟩ := known
    by_contra missing
    refine (right node mem explicit).mp ((warned lined mem explicit).mpr ⟨missing,fun custom => ?_⟩) (.active target)
    exact missing (customSeen lined ended mem custom.1 custom.2)
  · intro good node mem explicit
    rw [warned lined mem explicit]
    constructor
    · exact fun unfound active => unfound.1 ((reachSeen lined ended good active).2 explicit).1
    · intro inactive
      have missing : ¬Seen (walked machine) node := fun seen => inactive (foundReach lined ended mem seen)
      exact ⟨missing,fun custom => missing (customSeen lined ended mem custom.1 custom.2)⟩

def visit (event target : String) : String × ParsedTransition :=
  (event,{ id := event, event, isOnDone := false, isShorthand := true, sourceStatePath := "", target := some target, effectivePolicy := SDK_DEFAULT_POLICY, policySources := fun _ => some .sdk })

def room (on : Record ParsedTransition) : StateSource := { explicitType := none, initial := none, on, onDone := none, states := [] }

/-- A house with a hall to enter by, and an attic. -/
def house (start : Record ParsedTransition) : MachineSource where
  id := none
  rootType := .compound
  initial := some "START"
  defaults := {}
  states := [("START",room start),
    ("HOUSE",{ explicitType := none, initial := some "HALL", on := [], onDone := none, states := [("HALL",room []),("ATTIC",room [visit "AGAIN" "HOUSE"])] })]

end Result

end Dfsm.Extension.Reachability
