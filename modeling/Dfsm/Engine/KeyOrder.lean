import Dfsm.Engine.Listing

/-! Where the order in which a persisted value lists its keys comes through: the answers of
the regions of a parallel root, the exits of the leaves that are left, and completions
of containers that are equally deep. -/
namespace Dfsm
open Keyed (Record Relisted)

section
variable (machine : RawMachine)

/-- Of the given keys those under which the value answers the event. -/
def answeringOf (event : String) (entries : Record StateValue) (keys : List String) : List String :=
  keys.filter (fun key => !(slotMatches event machine.states entries key).isEmpty)

/-- The top-level keys that answer the event, as the value lists them. -/
def answering (event : String) : StateValue → List String
  | .str _ => []
  | .obj entries => answeringOf machine event entries (Keyed.keys entries)

/-- The same keys as the machine declares them. -/
def answeringDeclared (event : String) : StateValue → List String
  | .str _ => []
  | .obj entries => answeringOf machine event entries (Keyed.keys machine.states)

/-- The matches of the regions in declaration order. -/
def declaredMatches (event : String) : StateValue → List MatchedTransition
  | .str key => resolveTransitionsForEvent machine (.str key) event
  | .obj entries => (Keyed.keys machine.states).flatMap (slotMatches event machine.states entries)

/-- The root of what a transition exits, where its target resolves. -/
def exitRoot (sourceStatePath targetRef : String) : Option String :=
  (given (resolveTargetStatePath machine sourceStatePath targetRef)).map (fun targetPath =>
    exitingRootPath sourceStatePath (commonSegments (Dotted.parts sourceStatePath) (Dotted.parts targetPath)).length)

/-- The active leaves inside a subtree, as the value lists them. -/
def leavesWithin (subtreePrefix : String) (v : StateValue) : List String :=
  (activeLeaves machine v).filter (insideSubtree subtreePrefix)

/-- The deepest of the completed containers with a completion edge, as the value lists them. -/
def deepestDone (v : StateValue) : List String :=
  Chains.leading deeperFirst (pendingAt machine v) (candidateContainers (activeLeaves machine v))

end

/-- The same move: what is exited and what is entered in one order, the next value as a map. -/
structure SameApplied (a b : AppliedTransition) : Prop where
  target : a.targetPath = b.targetPath
  next : SameMap a.nextStateValue b.nextStateValue
  exited : a.exited = b.exited
  entered : a.entered = b.entered

/-- Of the given condition the property follows, and over clean keys from nothing less. -/
structure Decides (machine : RawMachine) (property condition : Prop) : Prop where
  enough : condition → property
  needed : KeysClean machine → property → condition

/-! The answers of the root. -/

section
variable {machine : RawMachine} {event : String}

theorem answeringFlat (entries : Record StateValue) (keys : List String) :
    (answeringOf machine event entries keys).flatMap (slotMatches event machine.states entries) =
      keys.flatMap (slotMatches event machine.states entries) := by
  induction keys with
  | nil => rfl
  | cons key rest ih =>
    unfold answeringOf at ih ⊢
    rw [List.filter_cons,List.flatMap_cons]
    split
    · rw [List.flatMap_cons,ih]
    · rename_i none
      have empty : slotMatches event machine.states entries key = [] := by simpa using none
      rw [ih,empty,List.nil_append]

theorem answeringSome {entries : Record StateValue} {keys : List String} {key}
    (mem : key ∈ answeringOf machine event entries keys) : slotMatches event machine.states entries key ≠ [] := by
  simpa using (List.mem_filter.mp mem).2

theorem resolveListed {entries : Record StateValue} (unique : (Keyed.keys entries).Nodup) :
    resolveTransitionsForEvent machine (.obj entries) event =
      (answeringOf machine event entries (Keyed.keys entries)).flatMap (slotMatches event machine.states entries) := by
  rw [answeringFlat,resolveTransitionsForEvent,Keyed.flatKeys unique]
  refine List.flatMap_congr (fun key mem => ?_)
  obtain ⟨w,got⟩ := Option.isSome_iff_exists.mp (Keyed.getIsSome.mpr mem)
  rw [got,Option.map_some,Option.getD_some,slotMatches,got]
  cases Keyed.get machine.states key <;> rfl

end

section
variable {machine : MachineDefinition} (loaded : Loaded machine)
include loaded

theorem slotSource {event : String} {entries : Record StateValue} (legal : Legal machine.toRawMachine (.obj entries)) {key m}
    (mem : m ∈ slotMatches event machine.states entries key) :
    ∃ r, lookupParts machine.states none (key::r) = some m.sourceNode := by
  have self {child m} (found : Keyed.get machine.states key = some child) (own : m ∈ selfMatch child event) :
      ∃ r, lookupParts machine.states none (key::r) = some m.sourceNode :=
    ⟨[],by simp [lookupParts,found,selfMatchSource own]⟩
  unfold slotMatches at mem
  split at mem
  · rename_i child w found got
    unfold childMatches at mem
    cases leaf : child.isLeaf with
    | true =>
      rw [searchLeaf leaf] at mem
      exact self found mem
    | false =>
      rw [leaf,if_neg (by simp)] at mem
      have legalHere := legal.resolve_right (by rintro ⟨_,same,_⟩; contradiction)
      have below := legalEntry legalHere (innerRoot loaded found leaf) leaf (by simpa [entryAt] using got)
      rcases searchActive below rfl rfl (loadedWellFormed loaded _ (Keyed.getSome found)) leaf mem with own | ⟨q,active,stored,_⟩
      · exact self found own
      · have step : q ≠ [] := by rintro rfl; simp [isActive] at active
        refine ⟨q,?_⟩
        rw [lookupParts,found]
        dsimp only
        rw [lookupPartsCurrent _ _ none step]
        exact stored
  · contradiction

theorem answersOrder (clean : KeysClean machine.toRawMachine) {event : String} {entries : Record StateValue}
    (legal : Legal machine.toRawMachine (.obj entries)) {keys keys' : List String}
    (same : (answeringOf machine.toRawMachine event entries keys).flatMap (slotMatches event machine.states entries) =
      (answeringOf machine.toRawMachine event entries keys').flatMap (slotMatches event machine.states entries)) :
    answeringOf machine.toRawMachine event entries keys = answeringOf machine.toRawMachine event entries keys' := by
  refine Chains.blocksOrder (fun key mem => ?_) (fun key _ key' _ m mem mem' => ?_) same
  · rcases List.mem_append.mp mem with here | there
    · exact answeringSome here
    · exact answeringSome there
  · obtain ⟨r,stored⟩ := slotSource loaded legal mem
    obtain ⟨r',stored'⟩ := slotSource loaded legal mem'
    exact (List.cons.inj (lookupInj loaded clean stored stored')).1

theorem rootSlotSame {event : String} {a b : Record StateValue} (legal : Legal machine.toRawMachine (.obj a))
    (same : SameMap (.obj a) (.obj b)) :
    slotMatches event machine.states a = slotMatches event machine.states b := by
  funext key
  refine slotSame same (fun k child v w found got held inner => ?_) key
  have legalHere := legal.resolve_right (by rintro ⟨_,same,_⟩; contradiction)
  have below := legalEntry legalHere (innerRoot loaded found inner) inner (by simpa [entryAt] using got)
  have formed := loadedWellFormed loaded _ (Keyed.getSome found)
  exact beneathSame below held (wellFormedUnique formed) (wellFormedChildren formed)

variable {v w : StateValue} (legal : Legal machine.toRawMachine v) (same : SameMap v w)
include legal

theorem resolveDeclared (event : String) : Decides machine.toRawMachine
    (resolveTransitionsForEvent machine.toRawMachine v event = declaredMatches machine.toRawMachine event v)
    (answering machine.toRawMachine event v = answeringDeclared machine.toRawMachine event v) := by
  cases v with
  | str key => exact ⟨fun _ => rfl,fun _ _ => rfl⟩
  | obj entries =>
    have unique : (Keyed.keys entries).Nodup := by
      cases legalShaped loaded legal with
      | obj unique => exact unique
    rw [resolveListed unique,declaredMatches,← answeringFlat entries (Keyed.keys machine.states)]
    exact ⟨fun order => by rw [answering,answeringDeclared] at order; rw [order],
      fun clean flat => answersOrder loaded clean legal flat⟩

include same

theorem resolveSame (event : String) : Decides machine.toRawMachine
    (resolveTransitionsForEvent machine.toRawMachine v event = resolveTransitionsForEvent machine.toRawMachine w event)
    (answering machine.toRawMachine event v = answering machine.toRawMachine event w) := by
  cases same with
  | str key => exact ⟨fun _ => rfl,fun _ _ => rfl⟩
  | @obj a b relisted values =>
    have slots := @rootSlotSame machine loaded event a b legal (.obj relisted values)
    have alike (keys) : answeringOf machine.toRawMachine event b keys = answeringOf machine.toRawMachine event a keys := by
      unfold answeringOf
      rw [slots]
    rw [resolveListed relisted.unique,resolveListed (Keyed.relistedUnique relisted),answering,answering,alike,← slots]
    exact ⟨fun order => by rw [order],fun clean flat => answersOrder loaded clean legal flat⟩

end

/-! The leaves that are left, one after the other. -/

/-- The root stands for a chain: inside it are the chains from there on. -/
def Rooted (root : String) (point : List String) : Prop :=
  ∀ q, q ≠ [] → (∀ k ∈ q, Dotted.Plain k) → (insideSubtree root (Dotted.join q) = true ↔ point <+: q)

theorem commonShort (src tgt : List String) (any : src ≠ []) : (commonSegments src tgt).length < src.length := by
  fun_induction commonSegments src tgt with
  | case1 s s' src t' tgt ih =>
    have below := ih (by simp)
    rw [List.length_cons,List.length_cons]
    omega
  | case2 s s' src t t' tgt => simp
  | case3 src tgt => exact List.length_pos_iff.mpr any

theorem rootStands (sourceStatePath : String) (tgt : List String) :
    (∃ point, Rooted (exitingRootPath sourceStatePath (commonSegments (Dotted.parts sourceStatePath) tgt).length) point) ∨
      ∀ q, q ≠ [] → (∀ k ∈ q, Dotted.Plain k) →
        insideSubtree (exitingRootPath sourceStatePath (commonSegments (Dotted.parts sourceStatePath) tgt).length)
          (Dotted.join q) = false := by
  unfold exitingRootPath
  have plain := Dotted.partsPlain sourceStatePath
  dsimp only
  split
  · rename_i longer
    left
    have any : (Dotted.parts sourceStatePath).take ((commonSegments (Dotted.parts sourceStatePath) tgt).length + 1) ≠ [] := by
      rw [ne_eq,List.take_eq_nil_iff]
      rintro (none | none)
      · omega
      · rw [none] at longer
        simp at longer
    exact ⟨_,fun q some_ plainQ => insideJoin any some_ (fun k mem => plain k (List.mem_of_mem_take mem)) plainQ⟩
  · rename_i short
    have none : Dotted.parts sourceStatePath = [] := by
      by_contra any
      exact short (commonShort _ tgt any)
    by_cases empty : sourceStatePath = ""
    · left
      subst empty
      exact ⟨[],fun q _ _ => by simp [insideSubtree]⟩
    · right
      intro q some_ plainQ
      -- a path inside would have all segments of the source, which has none that are plain
      have segment {t : String} (first : Dotted.split t = q ∨ ∃ more, Dotted.split t ++ more = q) : Dotted.parts t ≠ [] := by
        have inside : ∀ k ∈ Dotted.split t, Dotted.Plain k := by
          intro k mem
          rcases first with same | ⟨more,same⟩
          · exact plainQ k (same ▸ mem)
          · exact plainQ k (same ▸ List.mem_append_left _ mem)
        obtain ⟨k,mem⟩ := List.exists_mem_of_ne_nil _ (Dotted.splitNonempty t)
        exact List.ne_nil_of_mem (List.mem_filter.mpr ⟨mem,by simpa using (inside k mem).1⟩)
      by_contra inside
      simp only [insideSubtree,Bool.or_eq_true,decide_eq_true_eq,Bool.not_eq_false] at inside
      rcases inside with (same | same) | under
      · exact empty same
      · exact segment (.inl (by rw [← same,Dotted.splitJoinPlain some_ plainQ])) none
      · obtain ⟨tail,_,same⟩ := (Dotted.underIff _ _).mp under
        rw [Dotted.splitJoinPlain some_ plainQ] at same
        exact segment (.inr ⟨tail,same.symm⟩) none

/-- The paths of stored leaves. -/
def leafPath (machine : RawMachine) (path : String) : Bool :=
  (getNodeByPath machine path).any (·.isLeaf)

/-- Of the paths walked from a leaf path those of stored leaves. -/
def leafWalk (machine : RawMachine) (root leaf : String) : List String :=
  ((candidatePaths leaf).takeWhile (insideSubtree root)).filter (leafPath machine)

theorem exitedLeaves (machine : RawMachine) (v : StateValue) (root : String) :
    (exitNodes machine v root).filter (·.isLeaf) =
      (((leavesWithin machine root v).flatMap (leafWalk machine root)).eraseDups).filterMap (getNodeByPath machine) := by
  have walks : (leavesWithin machine root v).flatMap (leafWalk machine root) =
      ((leavesWithin machine root v).flatMap
        (fun leaf => (candidatePaths leaf).takeWhile (insideSubtree root))).filter (leafPath machine) := by
    rw [List.filter_flatMap]
    rfl
  rw [walks,Chains.eraseDupsFilter,List.filterMap_filter,exitNodes,List.filter_filterMap]
  refine List.filterMap_congr (fun path _ => ?_)
  unfold leafPath
  cases getNodeByPath machine path with
  | none => rfl
  | some node => cases h : node.isLeaf <;> simp [h,Option.filter]

/-- An active leaf under the path it is reported by, which may name its key twice. -/
structure Reported (machine : RawMachine) (v : StateValue) (leaf : String) (c q : List String) (node : StateNodeIR) : Prop where
  path : leaf = Dotted.join c
  listed : c ∈ valueChains false machine.states v
  here : LeafIn machine.states v q node
  again : c = q ∨ ∃ k, c = q ++ [k]

section
variable {machine : MachineDefinition} (loaded : Loaded machine)
include loaded

theorem leafEnds {x r : List String} {node below} (stored : lookupParts machine.states none x = some node)
    (leaf : node.isLeaf = true) (deeper : lookupParts machine.states none (x ++ r) = some below) : r = [] := by
  have step : x ≠ [] := by rintro rfl; simp [lookupParts] at stored
  obtain ⟨_,_,formed⟩ := storedFormed loaded stored
  rw [lookupPartsAppend stored step,validLeafEmpty (wellFormedValid formed) leaf] at deeper
  cases r with
  | nil => rfl
  | cons k r => simp [lookupParts] at deeper

variable (clean : KeysClean machine.toRawMachine) {v : StateValue} (legal : Legal machine.toRawMachine v)
include clean legal

theorem leafReported {leaf} (mem : leaf ∈ activeLeaves machine.toRawMachine v) :
    ∃ c q node, Reported machine.toRawMachine v leaf c q node := by
  have shaped := legalShaped loaded legal
  obtain ⟨c,listed,same⟩ := (memLeaves clean shaped).mp mem
  obtain ⟨q,node,here,shown⟩ := (chainsReported shaped).mp listed
  refine ⟨c,q,node,same.symm,listed,here,?_⟩
  unfold reported at shown
  split at shown
  · have some_ : q ≠ [] := by rintro rfl; simpa [isActive] using here.active
    rw [List.getLast?_eq_some_getLast some_] at shown
    exact .inr ⟨_,shown⟩
  · exact .inl shown

theorem walkLeaf {root leaf c q node b} (reports : Reported machine.toRawMachine v leaf c q node)
    (mem : b ∈ leafWalk machine.toRawMachine root leaf) : b = Dotted.join q := by
  have shaped := legalShaped loaded legal
  have plain := chainPlain clean shaped reports.listed
  obtain ⟨walked,stands⟩ := List.mem_filter.mp mem
  have candidate := (List.takeWhile_sublist _).subset walked
  rw [reports.path,candidateJoin (chainSome reports.listed) plain] at candidate
  obtain ⟨x,up,rfl⟩ := List.mem_map.mp candidate
  obtain ⟨some_,pre⟩ := Chains.memUps.mp up
  rw [leafPath,getNodeJoin (fun k hk => plain k (pre.subset hk)),Option.any_eq_true] at stands
  obtain ⟨other,stored,leafOther⟩ := stands
  have front (above : x <+: q) : Dotted.join x = Dotted.join q := by
    obtain ⟨r,rfl⟩ := above
    rw [leafEnds loaded stored leafOther reports.here.stored,List.append_nil]
  rcases reports.again with rfl | ⟨k,rfl⟩
  · exact front pre
  · rcases List.prefix_concat_iff.mp pre with rfl | above
    · rw [leafAlone loaded reports.here] at stored
      contradiction
    · exact front above

theorem walkTells {root leaf leaf' b} (mem : leaf ∈ activeLeaves machine.toRawMachine v)
    (mem' : leaf' ∈ activeLeaves machine.toRawMachine v) (walked : b ∈ leafWalk machine.toRawMachine root leaf)
    (walked' : b ∈ leafWalk machine.toRawMachine root leaf') : leaf = leaf' := by
  have shaped := legalShaped loaded legal
  obtain ⟨c,q,node,reports⟩ := leafReported loaded clean legal mem
  obtain ⟨c',q',node',reports'⟩ := leafReported loaded clean legal mem'
  have same := (walkLeaf loaded clean legal reports walked).symm.trans (walkLeaf loaded clean legal reports' walked')
  have chains := Dotted.joinInj (plainChain clean reports.here.stored) (plainChain clean reports'.here.stored) same
  subst chains
  have through {c} (again : c = q ∨ ∃ k, c = q ++ [k]) : ∃ r, c = q ++ r := by
    rcases again with rfl | ⟨k,rfl⟩
    · exact ⟨[],(List.append_nil _).symm⟩
    · exact ⟨[k],rfl⟩
  obtain ⟨r,rfl⟩ := through reports.again
  obtain ⟨r',rfl⟩ := through reports'.again
  have some_ : q ≠ [] := by rintro rfl; simpa [isActive] using reports.here.active
  have rest := chainThroughLeaf shaped reports.here.stored (loadedValid loaded) reports.here.leaf some_
    reports.listed reports'.listed
  rw [reports.path,reports'.path,rest]

theorem walkEmpty {root point leaf leaf'} (rooted : Rooted root point) (mem : leaf ∈ leavesWithin machine.toRawMachine root v)
    (mem' : leaf' ∈ leavesWithin machine.toRawMachine root v) (empty : leafWalk machine.toRawMachine root leaf = []) :
    leaf' = leaf := by
  have shaped := legalShaped loaded legal
  obtain ⟨active,inside⟩ := List.mem_filter.mp mem
  obtain ⟨active',inside'⟩ := List.mem_filter.mp mem'
  obtain ⟨c,q,node,reports⟩ := leafReported loaded clean legal active
  obtain ⟨c',q',node',reports'⟩ := leafReported loaded clean legal active'
  have plain := chainPlain clean shaped reports.listed
  have plain' := chainPlain clean shaped reports'.listed
  rw [reports.path,rooted c (chainSome reports.listed) plain] at inside
  rw [reports'.path,rooted c' (chainSome reports'.listed) plain'] at inside'
  have some_ : q ≠ [] := by rintro rfl; simpa [isActive] using reports.here.active
  have onWay : q <+: c := by
    rcases reports.again with rfl | ⟨k,rfl⟩
    · exact List.prefix_refl _
    · exact List.prefix_append _ _
  -- the leaf itself is not inside, so the root is its key named twice
  have outside : ¬point <+: q := by
    intro above
    have walked : Dotted.join q ∈ (candidatePaths leaf).takeWhile (insideSubtree root) := by
      rw [reports.path,candidateJoin (chainSome reports.listed) plain]
      exact (Chains.memTakeWhileUps Dotted.join _ (fun x any pre =>
        rooted x any (fun k hk => plain k (pre.subset hk))) _).mpr ⟨q,some_,onWay,above,rfl⟩
    have stands : leafPath machine.toRawMachine (Dotted.join q) = true := by
      rw [leafPath,getNodeJoin (plainChain clean reports.here.stored),reports.here.stored]
      exact reports.here.leaf
    have found : Dotted.join q ∈ leafWalk machine.toRawMachine root leaf := List.mem_filter.mpr ⟨walked,stands⟩
    rw [empty] at found
    contradiction
  obtain ⟨k,rfl⟩ := reports.again.resolve_left (by rintro rfl; exact outside inside)
  have whole : point = q ++ [k] := (List.prefix_concat_iff.mp inside).resolve_right outside
  subst whole
  -- and no other reported path goes on from there
  have ends : ¬(q ++ [k]) <+: q' := by
    rintro ⟨r,same⟩
    have deeper := reports'.here.stored
    rw [← same,List.append_assoc] at deeper
    have none := leafEnds loaded reports.here.stored reports.here.leaf deeper
    simp at none
  rw [reports.path,reports'.path]
  rcases reports'.again with rfl | ⟨k',rfl⟩
  · exact absurd inside' ends
  · rw [(List.prefix_concat_iff.mp inside').resolve_right ends]

theorem withinNodup (root : String) : (leavesWithin machine.toRawMachine root v).Nodup :=
  (leavesNodup clean (legalShaped loaded legal)).filter _

theorem walksNodup (root : String) :
    ((leavesWithin machine.toRawMachine root v).flatMap (leafWalk machine.toRawMachine root)).Nodup := by
  rw [List.nodup_flatMap]
  refine ⟨fun leaf mem => ?_,?_⟩
  · obtain ⟨c,q,node,reports⟩ := leafReported loaded clean legal (List.mem_filter.mp mem).1
    have plain := chainPlain clean (legalShaped loaded legal) reports.listed
    have steps : (candidatePaths leaf).Nodup := by
      rw [reports.path,candidateJoin (chainSome reports.listed) plain]
      refine (Chains.upsNodup c).map_on (fun x up y up' same => ?_)
      exact Dotted.joinInj (fun k hk => plain k ((Chains.memUps.mp up).2.subset hk))
        (fun k hk => plain k ((Chains.memUps.mp up').2.subset hk)) same
    exact (steps.sublist (List.takeWhile_sublist _)).filter _
  · refine (withinNodup loaded clean legal root).pairwise_of_forall_ne (fun leaf mem leaf' mem' other => ?_)
    intro b walked walked'
    exact other (walkTells loaded clean legal (List.mem_filter.mp mem).1 (List.mem_filter.mp mem').1 walked walked')

theorem exitedPaths (root : String) :
    ((exitNodes machine.toRawMachine v root).filter (·.isLeaf)).map (·.path) =
      (leavesWithin machine.toRawMachine root v).flatMap (leafWalk machine.toRawMachine root) := by
  rw [exitedLeaves,Chains.eraseDupsOnce (walksNodup loaded clean legal root),List.map_filterMap]
  refine (List.filterMap_congr (fun path mem => ?_)).trans List.filterMap_some
  obtain ⟨leaf,within,walked⟩ := List.mem_flatMap.mp mem
  obtain ⟨c,q,node,reports⟩ := leafReported loaded clean legal (List.mem_filter.mp within).1
  rw [walkLeaf loaded clean legal reports walked,getNodeJoin (plainChain clean reports.here.stored),reports.here.stored,
    Option.map_some,pathJoin loaded clean reports.here.stored]

theorem exitsOrder {w : StateValue} (legal' : Legal machine.toRawMachine w)
    (perm : (activeLeaves machine.toRawMachine v).Perm (activeLeaves machine.toRawMachine w)) {root : String}
    (stands : (∃ point, Rooted root point) ∨
      ∀ q, q ≠ [] → (∀ k ∈ q, Dotted.Plain k) → insideSubtree root (Dotted.join q) = false)
    (same : exitNodes machine.toRawMachine v root = exitNodes machine.toRawMachine w root) :
    leavesWithin machine.toRawMachine root v = leavesWithin machine.toRawMachine root w := by
  have within : (leavesWithin machine.toRawMachine root v).Perm (leavesWithin machine.toRawMachine root w) := perm.filter _
  rcases stands with ⟨point,rooted⟩ | nothing
  · by_cases all : ∀ leaf ∈ leavesWithin machine.toRawMachine root v, leafWalk machine.toRawMachine root leaf ≠ []
    · refine @Chains.blocksOrder _ _ (leafWalk machine.toRawMachine root) _ _ (fun leaf mem => ?_) (fun leaf mem leaf' mem' b walked walked' => ?_) ?_
      · rcases List.mem_append.mp mem with here | there
        · exact all leaf here
        · exact all leaf (within.mem_iff.mpr there)
      · exact walkTells loaded clean legal (List.mem_filter.mp mem).1
          (List.mem_filter.mp (within.mem_iff.mpr mem')).1 walked walked'
      · rw [← exitedPaths loaded clean legal,← exitedPaths loaded clean legal',same]
    · push Not at all
      obtain ⟨leaf,mem,empty⟩ := all
      have alone := onlyOne (withinNodup loaded clean legal root) mem
        (fun leaf' mem' => walkEmpty loaded clean legal rooted mem mem' empty)
      rw [alone] at within ⊢
      exact (List.perm_singleton.mp within.symm).symm
  · have none {u} (legal : Legal machine.toRawMachine u) : leavesWithin machine.toRawMachine root u = [] := by
      refine List.filter_eq_nil_iff.mpr (fun leaf mem => ?_)
      obtain ⟨c,q,node,reports⟩ := leafReported loaded clean legal mem
      rw [reports.path,nothing c (chainSome reports.listed) (chainPlain clean (legalShaped loaded legal) reports.listed)]
      simp
    rw [none legal,none legal']

end

/-- The leaves that are left are listed in one order. -/
def SameExits (machine : RawMachine) (sourceStatePath targetRef : String) (v w : StateValue) : Prop :=
  ∀ root ∈ exitRoot machine sourceStatePath targetRef, leavesWithin machine root v = leavesWithin machine root w

theorem slotRefl {parentPath own node} (formed : WellFormed parentPath own node) (key : String) :
    SameSlot ((enterSubtree node).slot key) ((enterSubtree node).slot key) := by
  cases leaf : node.isLeaf with
  | true =>
    rw [enterLeaf leaf]
    exact .str key
  | false =>
    obtain ⟨v,contributed,legal⟩ := enterLegal formed leaf
    rw [Entered.slot,contributed]
    exact .obj (legalRefl legal)

/-! Completion does not see the order of the leaves, but of the containers it finds. -/

theorem regionDoneSame {machine : RawMachine} {leaves leaves' : List String} (perm : leaves.Perm leaves') (region : StateNodeIR) :
    regionDone machine leaves region = regionDone machine leaves' region := by
  have inside := perm.filter (fun l => l = region.path || Dotted.under region.path l)
  unfold regionDone
  dsimp only
  rw [inside.all_eq,inside.isEmpty_eq]

theorem containerDoneSame {machine : RawMachine} {leaves leaves' : List String} (perm : leaves.Perm leaves')
    (containerPath : String) (node : StateNodeIR) :
    containerDone machine leaves containerPath node = containerDone machine leaves' containerPath node := by
  unfold containerDone
  cases node.type with
  | atomic => rfl
  | final => rfl
  | parallel => simp only [regionDoneSame perm]
  | compound =>
    have inside := perm.filter (Dotted.under containerPath)
    dsimp only
    cases below : leaves.filter (Dotted.under containerPath) with
    | nil =>
      rw [below] at inside
      rw [inside.nil_eq]
    | cons leaf rest =>
      rw [below] at inside
      cases rest with
      | nil => rw [List.singleton_perm.mp inside]
      | cons leaf' rest =>
        have longer := inside.length_eq
        cases below' : leaves'.filter (Dotted.under containerPath) with
        | nil => rfl
        | cons one more =>
          cases more with
          | nil => simp [below'] at longer
          | cons another more => rfl

theorem pendingAtSame {machine : RawMachine} {v w : StateValue} (same : SameMap v w) : pendingAt machine v = pendingAt machine w := by
  funext path
  unfold pendingAt activeLeaves
  simp only [containerDoneSame (leavesSame machine same)]

theorem findLeading (machine : RawMachine) (v : StateValue) :
    findPendingOnDone machine v = (deepestDone machine v).head?.bind (pendingAt machine v) := by
  have total : Std.Total deeperFirst := ⟨fun a b => Nat.le_total _ _⟩
  have transitive : IsTrans String deeperFirst := ⟨fun a b c left right => Nat.le_trans right left⟩
  exact Chains.firstLeading (pendingAt machine v) (Chains.eraseDupsNodup _)

theorem deepestFires {machine : RawMachine} {v path} (first : (deepestDone machine v).head? = some path) :
    path ∈ containersInOrder machine v ∧ ∃ pending, pendingAt machine v path = some pending := by
  obtain ⟨mem,fires⟩ := List.mem_filter.mp (List.mem_of_head? first)
  rw [Bool.and_eq_true] at fires
  exact ⟨(List.mem_insertionSort _).mpr mem,Option.isSome_iff_exists.mp fires.1⟩

section
variable {machine : MachineDefinition} (loaded : Loaded machine) {v w : StateValue}
  (legal : Legal machine.toRawMachine v) (same : SameMap v w)
include loaded legal same

theorem applySame (sourceStatePath targetRef : String) : Decides machine.toRawMachine
    (Option.Rel SameApplied (applyTargetTransition machine.toRawMachine v sourceStatePath targetRef)
      (applyTargetTransition machine.toRawMachine w sourceStatePath targetRef))
    (SameExits machine.toRawMachine sourceStatePath targetRef v w) := by
  unfold SameExits exitRoot applyTargetTransition
  cases resolved : given (resolveTargetStatePath machine.toRawMachine sourceStatePath targetRef) with
  | none => exact ⟨fun _ => .none,fun _ _ => by simp⟩
  | some targetPath =>
    obtain ⟨ks,k,node,plain,found,rfl⟩ := resolvedChain loaded resolved
    have stored : getNodeByPath machine.toRawMachine (Dotted.join (ks ++ [k])) = some node := by
      rw [getNodeJoin plain,found]
    simp only [Option.map_some,Option.mem_some_iff,forall_eq',stored]
    obtain ⟨_,_,formed⟩ := storedFormed loaded found
    constructor
    · intro order
      refine .some ⟨rfl,sameNext same (sameBranch same (slotRefl formed node.key) _ _) _ _,?_,rfl⟩
      have kept := congrArg (fun leaves => ((leaves.flatMap (fun leaf => (candidatePaths leaf).takeWhile
        (insideSubtree (exitingRootPath sourceStatePath (commonSegments (Dotted.parts sourceStatePath)
          (Dotted.parts (Dotted.join (ks ++ [k])))).length)))).eraseDups).filterMap (getNodeByPath machine.toRawMachine)) order
      exact kept
    · intro clean moved
      cases moved with
      | some alike =>
        exact exitsOrder loaded clean legal (legalSame legal same) (leavesSame machine.toRawMachine same)
          (rootStands _ _) alike.exited

theorem pendingSame : Decides machine.toRawMachine
    (findPendingOnDone machine.toRawMachine v = findPendingOnDone machine.toRawMachine w)
    ((deepestDone machine.toRawMachine v).head? = (deepestDone machine.toRawMachine w).head?) := by
  rw [findLeading,findLeading]
  refine ⟨fun order => by rw [order,pendingAtSame same],fun clean found => ?_⟩
  have legal' := legalSame legal same
  cases first : (deepestDone machine.toRawMachine v).head? with
  | none =>
    cases first' : (deepestDone machine.toRawMachine w).head? with
    | none => rfl
    | some path' =>
      obtain ⟨_,pending,fires⟩ := deepestFires first'
      rw [first,first',Option.bind_none,Option.bind_some,fires] at found
      contradiction
  | some path =>
    obtain ⟨mem,pending,fires⟩ := deepestFires first
    cases first' : (deepestDone machine.toRawMachine w).head? with
    | none =>
      rw [first,first',Option.bind_none,Option.bind_some,fires] at found
      contradiction
    | some path' =>
      obtain ⟨mem',pending',fires'⟩ := deepestFires first'
      rw [first,first',Option.bind_some,Option.bind_some,fires,fires'] at found
      cases found
      obtain ⟨q,rfl,stored,_⟩ := pendingSource loaded clean legal mem fires
      obtain ⟨q',rfl,stored',_⟩ := pendingSource loaded clean legal' mem' fires'
      rw [lookupInj loaded clean stored stored']

end

end Dfsm
