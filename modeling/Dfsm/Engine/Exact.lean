import Dfsm.Engine.Completion

/-! When the leaf paths of a configuration are exactly those of its active atomic and
final nodes. The walk takes a leaf region for a container wherever it does not look
for regions, and reports it under its key twice. -/
namespace Dfsm
open Keyed (Record)

structure LeafIn (states : Record StateNodeIR) (v : StateValue) (q : List String) (node : StateNodeIR) : Prop where
  active : isActive states v q = true
  stored : lookupParts states none q = some node
  leaf : node.isLeaf = true

/-- The walk takes the leaf at the end of the chain for a container. -/
def misread : Bool → Record StateNodeIR → StateValue → List String → Bool
  | _, _, .str _, _ => false
  | _, _, .obj _, [] => false
  | regions, _, .obj _, [_] => !regions
  | regions, states, .obj entries, key::next::q => match Keyed.get entries key, Keyed.get states key with
    | some w, some node => misread (!regions && node.type = .parallel) node.states w (next::q)
    | _, _ => false

def reported (twice : Bool) (q : List String) : List String := if twice then q ++ q.getLast?.toList else q

theorem reportedCons {twice key q} (any : q ≠ []) : reported twice (key::q) = key::reported twice q := by
  obtain ⟨next,q,rfl⟩ := List.exists_cons_of_ne_nil any
  cases twice <;> rfl

theorem leafBelow {states : Record StateNodeIR} {entries : Record StateValue} {key child w q node}
    (found : Keyed.get states key = some child) (got : Keyed.get entries key = some w) (inner : child.isLeaf = false) :
    LeafIn states (.obj entries) (key::q) node ↔ LeafIn child.states w q node := by
  constructor
  · rintro ⟨active,stored,leaf⟩
    cases q with
    | nil =>
      simp only [lookupParts,found,Option.some.injEq] at stored
      rw [← stored,inner] at leaf
      contradiction
    | cons next q =>
      refine ⟨by simpa [isActive,got,found,inner] using active,?_,leaf⟩
      simpa only [lookupParts,found] using stored
  · rintro ⟨active,stored,leaf⟩
    cases q with
    | nil => simp [isActive] at active
    | cons next q =>
      refine ⟨by simpa [isActive,got,found,inner] using active,?_,leaf⟩
      simpa only [lookupParts,found] using stored

theorem leafHere {states : Record StateNodeIR} {entries : Record StateValue} {key child w q node}
    (found : Keyed.get states key = some child) (got : Keyed.get entries key = some w) (leaf : child.isLeaf = true) :
    LeafIn states (.obj entries) (key::q) node ↔ q = [] ∧ node = child := by
  constructor
  · rintro ⟨active,stored,_⟩
    obtain rfl : q = [] := by simpa [isActive,got,found,leaf] using active
    simp only [lookupParts,found,Option.some.injEq] at stored
    exact ⟨rfl,stored.symm⟩
  · rintro ⟨rfl,rfl⟩
    exact ⟨by simp [isActive,got,found],by simp [lookupParts,found],leaf⟩

theorem chainsReported {regions states v c} (shaped : Shaped states v) :
    c ∈ valueChains regions states v ↔
      ∃ q node, LeafIn states v q node ∧ c = reported (misread regions states v q) q := by
  induction shaped generalizing regions c with
  | str found leaf =>
    rename_i states key child
    simp only [valueChains,List.mem_singleton,misread,reported,Bool.false_eq_true,if_false]
    constructor
    · rintro rfl
      exact ⟨[key],child,⟨by simp [isActive,Keyed.has,found],by simp [lookupParts,found],leaf⟩,rfl⟩
    · rintro ⟨q,node,⟨active,_,_⟩,same⟩
      rw [same]
      cases q with
      | nil => simp [isActive] at active
      | cons k q =>
        simp only [isActive,Bool.and_eq_true,decide_eq_true_eq,List.isEmpty_iff] at active
        rw [active.1.1,active.1.2]
  | obj unique any known below ih =>
    rename_i states entries
    rw [valueChains,memEntryChains]
    constructor
    · rintro ⟨key,w,child,mem,found,shape⟩
      have got := Keyed.getOfMem unique mem
      obtain ⟨_,found',only⟩ := known key w got
      cases Option.some.inj (found.symm.trans found')
      cases leaf : child.isLeaf with
      | true =>
        refine ⟨[key],child,(leafHere found got leaf).mpr ⟨rfl,rfl⟩,?_⟩
        cases regions with
        | true => simpa [leaf,misread,reported] using shape
        | false => simpa [leaf,misread,reported,only leaf,valueChains] using shape
      | false =>
        rw [if_neg (by simp [leaf])] at shape
        obtain ⟨tail,memTail,rfl⟩ := shape
        obtain ⟨q,node,inside,rfl⟩ := (ih key w child got found leaf).mp memTail
        have some : q ≠ [] := by rintro rfl; simpa [isActive] using inside.active
        refine ⟨key::q,node,(leafBelow found got leaf).mpr inside,?_⟩
        rw [reportedCons some]
        obtain ⟨next,q,rfl⟩ := List.exists_cons_of_ne_nil some
        simp [misread,got,found]
    · rintro ⟨q,node,inside,rfl⟩
      cases q with
      | nil => simpa [isActive] using inside.active
      | cons key q =>
        have active := inside.active
        simp only [isActive] at active
        split at active
        · rename_i w child got found
          have mem := Keyed.getSome got
          obtain ⟨_,found',only⟩ := known key w got
          cases Option.some.inj (found.symm.trans found')
          refine ⟨key,w,child,mem,found,?_⟩
          cases leaf : child.isLeaf with
          | true =>
            obtain ⟨rfl,_⟩ := (leafHere found got leaf).mp inside
            cases regions with
            | true => simp [misread,reported]
            | false => simp [misread,reported,only leaf,valueChains]
          | false =>
            rw [if_neg (by simp)]
            have deeper := (leafBelow found got leaf).mp inside
            have some : q ≠ [] := by rintro rfl; simpa [isActive] using deeper.active
            refine ⟨_,(ih key w child got found leaf).mpr ⟨q,node,deeper,rfl⟩,?_⟩
            rw [reportedCons some]
            obtain ⟨next,q,rfl⟩ := List.exists_cons_of_ne_nil some
            simp [misread,got,found]
        · contradiction

/-- How many parallel states stand directly in one another down to the end of the chain,
beginning with those already counted. -/
def parallelDepth : Record StateNodeIR → Nat → List String → Nat
  | _, depth, [] => depth
  | states, depth, key::q => match Keyed.get states key with
    | none => depth
    | some node => parallelDepth node.states (if node.type = .parallel then depth + 1 else 0) q

theorem lastAlone {front : List String} {j k} (same : [k] = front ++ [j]) : front = [] := by
  cases front with
  | nil => rfl
  | cons i front => simp at same

theorem misreadDepth {regions states v q depth} (same : regions = true ↔ depth % 2 = 1)
    (active : isActive states v q = true) : misread regions states v q = true ↔
      ∃ front k entries, q = front ++ [k] ∧ extractCursor v front = some (.obj entries) ∧
        parallelDepth states depth front % 2 = 0 := by
  induction q generalizing regions states v depth with
  | nil => simp [isActive] at active
  | cons key q ih =>
    cases v with
    | str s =>
      simp only [isActive,Bool.and_eq_true,List.isEmpty_iff] at active
      obtain ⟨⟨_,rfl⟩,_⟩ := active
      refine iff_of_false (by simp [misread]) ?_
      rintro ⟨front,k,entries,same,held,_⟩
      rw [lastAlone same] at held
      cases held
    | obj entries =>
      cases q with
      | nil =>
        have even : misread regions states (.obj entries) [key] = true ↔ depth % 2 = 0 := by
          cases regions <;> simp [misread] at same ⊢ <;> omega
        rw [even]
        constructor
        · intro none
          exact ⟨[],key,entries,rfl,rfl,none⟩
        · rintro ⟨front,k,_,shape,_,none⟩
          rwa [lastAlone shape] at none
      | cons next q =>
        simp only [isActive] at active
        split at active
        · rename_i w child got found
          simp only [List.isEmpty_cons,Bool.false_or,Bool.and_eq_true] at active
          have nested : (!regions && decide (child.type = .parallel)) = true ↔
              (if child.type = .parallel then depth + 1 else 0) % 2 = 1 := by
            by_cases parallel : child.type = .parallel
            · cases regions <;> simp [parallel] at same ⊢ <;> omega
            · simp [parallel]
          simp only [misread,got,found]
          rw [ih nested active.2]
          constructor
          · rintro ⟨front,k,inside,shape,held,even⟩
            exact ⟨key::front,k,inside,by rw [shape]; rfl,by simpa [extractCursor,got] using held,
              by simpa [parallelDepth,found] using even⟩
          · rintro ⟨front,k,inside,shape,held,even⟩
            cases front with
            | nil => simp at shape
            | cons first front =>
              obtain ⟨rfl,rest⟩ := List.cons.inj shape
              exact ⟨front,k,inside,rest,by simpa [extractCursor,got] using held,
                by simpa [parallelDepth,found] using even⟩
        · contradiction

theorem plainActive {states v q} (plain : plainValue v = true) (active : isActive states v q = true) :
    ∀ k ∈ q, Dotted.Plain k := by
  induction q generalizing states v with
  | nil => simp
  | cons key q ih =>
    cases v with
    | str s =>
      simp only [isActive,Bool.and_eq_true,decide_eq_true_eq,List.isEmpty_iff] at active
      obtain ⟨⟨rfl,rfl⟩,_⟩ := active
      simpa [plainValue] using plain
    | obj entries =>
      simp only [isActive] at active
      split at active
      · rename_i w child got found
        obtain ⟨here,below⟩ := memPlainEntries.mp plain _ (Keyed.getSome got)
        intro k mem
        rcases List.mem_cons.mp mem with rfl | inside
        · exact here
        · cases q with
          | nil => contradiction
          | cons next q =>
            simp only [List.isEmpty_cons,Bool.false_or,Bool.and_eq_true] at active
            exact ih below active.2 k inside
      · contradiction

theorem leafExists {states v} (shaped : Shaped states v) : ∃ q node, LeafIn states v q node := by
  obtain ⟨c,mem⟩ := @valueChainsSome false states v shaped
  obtain ⟨q,node,here,_⟩ := (chainsReported shaped).mp mem
  exact ⟨q,node,here⟩

theorem leavesPlain {states v} (shaped : Shaped states v)
    (plain : ∀ q node, LeafIn states v q node → ∀ k ∈ q, Dotted.Plain k) : plainValue v = true := by
  induction shaped with
  | str found leaf =>
    rename_i states key child
    have here : LeafIn states (.str key) [key] child :=
      ⟨by simp [isActive,Keyed.has,found],by simp [lookupParts,found],leaf⟩
    exact decide_eq_true (plain [key] child here key List.mem_cons_self)
  | obj unique any known below ih =>
    rw [plainValue,memPlainEntries]
    rintro ⟨key,w⟩ mem
    have got := Keyed.getOfMem unique mem
    obtain ⟨child,found,only⟩ := known key w got
    cases leaf : child.isLeaf with
    | true =>
      have here := plain [key] child ((leafHere found got leaf).mpr ⟨rfl,rfl⟩) key List.mem_cons_self
      rw [only leaf]
      exact ⟨here,decide_eq_true here⟩
    | false =>
      obtain ⟨q,node,inside⟩ := leafExists (below key w child got found leaf)
      refine ⟨plain (key::q) node ((leafBelow found got leaf).mpr inside) key List.mem_cons_self,?_⟩
      refine ih key w child got found leaf (fun q node inside k mem => ?_)
      exact plain (key::q) node ((leafBelow found got leaf).mpr inside) k (List.mem_cons_of_mem _ mem)

/-- Every leaf path stands once for an active atomic or final node, and finds that node. -/
structure LeavesExact (machine : RawMachine) (v : StateValue) : Prop where
  once : (getActiveLeafPaths machine v "").Nodup
  all : ∀ path, path ∈ getActiveLeafPaths machine v "" ↔ ∃ q node, LeafIn machine.states v q node ∧ node.path = path
  finds : ∀ q node, LeafIn machine.states v q node →
    Dotted.parts node.path = q ∧ getNodeByPath machine node.path = some node

/-- Active keys hold no dot, and the parallels that stand directly in one another down to
one with a leaf region are odd in number. -/
structure LeavesClear (machine : RawMachine) (v : StateValue) : Prop where
  plain : plainValue v = true
  odd : ∀ front k node entries, LeafIn machine.states v (front ++ [k]) node →
    extractCursor v front = some (.obj entries) → parallelDepth machine.states 0 front % 2 = 1

section
variable {machine : MachineDefinition} (loaded : Loaded machine)
include loaded

theorem plainPath {v q node} (plain : ∀ k ∈ q, Dotted.Plain k) (here : LeafIn machine.states v q node) :
    node.path = Dotted.join q := by
  cases q using List.reverseRecOn with
  | nil => simpa [isActive] using here.active
  | append_singleton front k =>
    cases loadedChain loaded here.stored with
    | node _ same _ _ _ =>
      rw [same,← pathOfJoin plain,pathOf,pathOf,List.foldl_append]
      rfl

theorem leafAlone {v q node k} (here : LeafIn machine.states v q node) :
    lookupParts machine.states none (q ++ [k]) = none := by
  have step : q ≠ [] := by rintro rfl; simpa [isActive] using here.active
  have valid : Valid node := by
    cases q using List.reverseRecOn with
    | nil => contradiction
    | append_singleton front k => exact wellFormedValid (loadedChain loaded here.stored)
  rw [lookupPartsAppend here.stored step,validLeafEmpty valid here.leaf]
  rfl

variable {v : StateValue} (legal : Legal machine.toRawMachine v)
include legal

/-- Active leaves: the walk finds them exactly, each once, exactly when the configuration is clear. -/
theorem activeLeavesExact : LeavesExact machine.toRawMachine v ↔ LeavesClear machine.toRawMachine v := by
  have shaped := legalShaped loaded legal
  have odd {q node} (here : LeafIn machine.states v q node) : misread false machine.states v q = true ↔
      ∃ front k entries, q = front ++ [k] ∧ extractCursor v front = some (.obj entries) ∧
        parallelDepth machine.states 0 front % 2 = 0 := misreadDepth (by simp) here.active
  constructor
  · intro same
    have plain : plainValue v = true := leavesPlain shaped (fun q node here k mem => by
      rw [← (same.finds q node here).1] at mem
      exact Dotted.partsPlain _ k mem)
    refine ⟨plain,?_⟩
    intro front k node entries here held
    by_contra even
    have twice := (odd here).mpr ⟨front,k,entries,rfl,held,by omega⟩
    -- the chain reported would have to lead to an active leaf below a leaf
    have mem := (@chainsReported false _ _ _ shaped).mpr ⟨_,node,here,rfl⟩
    rw [twice,reported,if_pos rfl,List.getLast?_concat,Option.toList_some] at mem
    have clean : ∀ j ∈ front ++ [k] ++ [k], Dotted.Plain j := by
      intro j inside
      have above := plainActive plain here.active
      rcases List.mem_append.mp inside with inside | last
      · exact above j inside
      · exact above j (List.mem_append_right _ last)
    have listed : Dotted.join (front ++ [k] ++ [k]) ∈ getActiveLeafPaths machine.toRawMachine v "" := by
      rw [plainLeafPaths plain shaped]
      exact List.mem_map.mpr ⟨_,mem,rfl⟩
    obtain ⟨q,other,there,path⟩ := (same.all _).mp listed
    have chain := (same.finds q other there).1
    rw [path,Dotted.partsJoin clean] at chain
    have none := @leafAlone _ loaded _ _ _ k here
    rw [chain,there.stored] at none
    contradiction
  · intro clear
    have plain {q} (active : isActive machine.states v q = true) := plainActive clear.plain active
    have once {q node} (here : LeafIn machine.states v q node) : reported (misread false machine.states v q) q = q := by
      rw [reported,if_neg]
      intro twice
      obtain ⟨front,k,entries,rfl,held,even⟩ := (odd here).mp twice
      have := clear.odd front k node entries here held
      omega
    have chains (c) : c ∈ valueChains false machine.states v ↔ ∃ node, LeafIn machine.states v c node := by
      rw [chainsReported shaped]
      constructor
      · rintro ⟨q,node,here,rfl⟩
        exact ⟨node,by rwa [once here]⟩
      · rintro ⟨node,here⟩
        exact ⟨c,node,here,(once here).symm⟩
    have paths := plainLeafPaths clear.plain shaped
    refine ⟨?_,?_,?_⟩
    · rw [paths]
      refine (chainsNodup shaped).map_on (fun c hc d hd same => ?_)
      obtain ⟨_,here⟩ := (chains c).mp hc
      obtain ⟨_,there⟩ := (chains d).mp hd
      exact Dotted.joinInj (plain here.active) (plain there.active) same
    · intro path
      rw [paths,List.mem_map]
      constructor
      · rintro ⟨c,mem,rfl⟩
        obtain ⟨node,here⟩ := (chains c).mp mem
        exact ⟨c,node,here,plainPath loaded (plain here.active) here⟩
      · rintro ⟨q,node,here,rfl⟩
        exact ⟨q,(chains q).mpr ⟨node,here⟩,(plainPath loaded (plain here.active) here).symm⟩
    · intro q node here
      have path := plainPath loaded (plain here.active) here
      rw [path]
      exact ⟨Dotted.partsJoin (plain here.active),(getNodeJoin (plain here.active)).trans here.stored⟩

end

/-- A lamp that is a region of the root, or of the one state below it. -/
def lamp (path : String) : StateNodeIR := { key := "lamp", path, type := .atomic, on := [("toggle",{ event := "toggle" })] }

def deck : StateNodeIR := { key := "deck", path := "deck", type := .parallel, states := [("lamp",lamp "deck.lamp")] }

def panel : RawMachine := { id := "panel", initial := some "deck", states := [("deck",deck)] }

def barePanel : RawMachine := { id := "panel", type := .parallel, states := [("lamp",lamp "lamp")] }

def lit : StateValue := .obj [("lamp",.str "lamp")]

theorem litLegal {states : Record StateNodeIR} {path} (lone : states = [("lamp",lamp path)]) : LegalIn .parallel states lit := by
  subst lone
  refine .regions (by decide) (fun _ => Iff.rfl) ?_ ?_
  · intro k r v found leaf got
    simp only [Keyed.getSingle] at got
    split at got
    · rename_i here; subst k; exact (Option.some.inj got).symm
    · contradiction
  · intro k r v found inner got
    simp only [Keyed.getSingle] at found
    split at found
    · cases found; contradiction
    · contradiction

theorem panelLoaded : Loaded (injectErrorState panel) := ⟨⟨panel,by decide,by decide,if_pos (by decide)⟩⟩

theorem panelLegal : Legal (injectErrorState panel).toRawMachine (.obj [("deck",lit)]) := by
  have found : Keyed.get (injectErrorState panel).states "deck" = some deck := rfl
  exact .inl (.nested found rfl (litLegal rfl))

theorem activeLeavesExactPanel : LeavesExact (injectErrorState panel).toRawMachine (.obj [("deck",lit)]) := by
  refine (activeLeavesExact panelLoaded panelLegal).mpr ⟨by decide,?_⟩
  intro front k node entries here held
  have holds : ∀ front, extractCursor lit front = some (.obj entries) → front = [] := by
    intro front held
    rcases front with _ | ⟨first,front⟩
    · rfl
    · simp only [lit,extractCursor,Keyed.getSingle] at held
      split at held
      · rcases front with _ | ⟨second,front⟩ <;> cases held
      · cases held
  rcases front with _ | ⟨first,front⟩
  · obtain rfl := singleKey here.active
    cases here.stored
    exact absurd here.leaf (by decide)
  · have active : isActive (injectErrorState panel).states (.obj [("deck",lit)]) (first::(front ++ [k])) = true := here.active
    obtain rfl := singleKey active
    rw [holds front held]
    decide

/-- A leaf region of a parallel root is reported below itself. -/
theorem activeLeavesExactBare : Loaded (injectErrorState barePanel) ∧ Legal (injectErrorState barePanel).toRawMachine lit ∧
    ¬LeavesExact (injectErrorState barePanel).toRawMachine lit := by
  have found : Keyed.get (injectErrorState barePanel).states "lamp" = some (lamp "lamp") := rfl
  refine ⟨⟨⟨barePanel,by decide,by decide,if_pos (by decide)⟩⟩,.inl (litLegal rfl),fun same => ?_⟩
  have here : LeafIn (injectErrorState barePanel).states lit ["lamp"] (lamp "lamp") := ⟨by decide,by rfl,rfl⟩
  have listed := (same.all "lamp").mpr ⟨_,_,here,rfl⟩
  have leaves : getActiveLeafPaths (injectErrorState barePanel).toRawMachine lit "" = ["lamp.lamp"] := by decide
  rw [leaves] at listed
  simp at listed

end Dfsm
