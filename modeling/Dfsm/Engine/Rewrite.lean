import Dfsm.Engine.Configuration

/-! What `applyTargetTransition` does to a legal configuration: the value it
builds for the target, how that value is placed below the common ancestor, and
exactly when the result is legal again. -/
namespace Dfsm
open Keyed (Record)

/-! Legality of one entry of a container. -/

/-- The value a region may hold in its parallel. -/
def RegionLegal (region : StateNodeIR) (key : String) (v : StateValue) : Prop :=
  (region.isLeaf = true → v = .str key) ∧ (region.isLeaf = false → LegalIn region.type region.states v)

theorem parallelSet {states : Record StateNodeIR} {entries k region v}
    (legal : LegalIn .parallel states (.obj entries)) (found : Keyed.get states k = some region) :
    LegalIn .parallel states (.obj (Keyed.set entries k v)) ↔ RegionLegal region k v := by
  cases legal with
  | regions unique all leaves below =>
    have present : k ∈ Keyed.keys entries := (all k).mpr (Keyed.getIsSome.mp (by simp [found]))
    constructor
    · intro after
      cases after with
      | regions _ _ leaves' below' =>
        exact ⟨fun leaf => leaves' k region v found leaf (by simp),fun inner => below' k region v found inner (by simp)⟩
    · rintro ⟨leaf,inner⟩
      refine .regions (Keyed.setNodup unique _ _) ?_ ?_ ?_
      · intro j
        rw [Keyed.keysSet,← all j]
        exact ⟨fun h => h.elim (fun same => same ▸ present) id,.inr⟩
      · intro j r w here isLeaf got
        rw [Keyed.getSet] at got
        split at got
        · rename_i same
          subst j
          cases Option.some.inj (found.symm.trans here)
          cases Option.some.inj got
          exact leaf isLeaf
        · exact leaves j r w here isLeaf got
      · intro j r w here isInner got
        rw [Keyed.getSet] at got
        split at got
        · rename_i same
          subst j
          cases Option.some.inj (found.symm.trans here)
          cases Option.some.inj got
          exact inner isInner
        · exact below j r w here isInner got

theorem parallelOnly {states : Record StateNodeIR} {k region v} (found : Keyed.get states k = some region) :
    LegalIn .parallel states (.obj [(k,v)]) ↔ (∀ j ∈ Keyed.keys states, j = k) ∧ RegionLegal region k v := by
  have present : k ∈ Keyed.keys states := Keyed.getIsSome.mp (by simp [found])
  constructor
  · intro legal
    cases legal with
    | regions _ all leaves below =>
      refine ⟨fun j mem => by simpa [Keyed.keys] using (all j).mpr mem,?_,?_⟩
      · exact fun leaf => leaves k region v found leaf (by simp)
      · exact fun inner => below k region v found inner (by simp)
  · rintro ⟨only,leaf,inner⟩
    refine .regions (by simp [Keyed.keys]) ?_ ?_ ?_
    · intro j
      simp only [Keyed.keys,List.map_cons,List.map_nil,List.mem_singleton]
      exact ⟨fun same => same ▸ present,only j⟩
    · intro j r w here isLeaf got
      simp only [Keyed.getSingle] at got
      split at got
      · subst j
        cases Option.some.inj (found.symm.trans here)
        cases Option.some.inj got
        exact leaf isLeaf
      · contradiction
    · intro j r w here isInner got
      simp only [Keyed.getSingle] at got
      split at got
      · subst j
        cases Option.some.inj (found.symm.trans here)
        cases Option.some.inj got
        exact inner isInner
      · contradiction

theorem compoundOnly {states : Record StateNodeIR} {k child v} (found : Keyed.get states k = some child) :
    LegalIn .compound states (.obj [(k,v)]) ↔ child.isLeaf = false ∧ LegalIn child.type child.states v := by
  constructor
  · intro legal
    cases legal with
    | nested here inner below =>
      cases Option.some.inj (found.symm.trans here)
      exact ⟨inner,below⟩
  · rintro ⟨inner,below⟩
    exact .nested found inner below

theorem compoundTwo {states : Record StateNodeIR} {j k v w} (other : j ≠ k) :
    ¬LegalIn .compound states (.obj (Keyed.set [(j,v)] k w)) := by
  intro legal
  have first : j ∈ Keyed.keys (Keyed.set [(j,v)] k w) := (Keyed.keysSet _ _ _ _).mpr (.inr (by simp [Keyed.keys]))
  have second : k ∈ Keyed.keys (Keyed.set [(j,v)] k w) := (Keyed.keysSet _ _ _ _).mpr (.inl rfl)
  generalize Keyed.set [(j,v)] k w = entries at legal first second
  cases legal
  simp only [Keyed.keys,List.map_cons,List.map_nil,List.mem_singleton] at first second
  exact other (first.trans second.symm)

theorem withEntryActive {type} {states : Record StateNodeIR} {v k child w}
    (legal : LegalIn type states v) (found : Keyed.get states k = some child) (inner : child.isLeaf = false) :
    LegalIn type states (withEntry v k w) ↔
      (∀ entries, v = .obj entries → Keyed.has entries k = true) ∧ LegalIn child.type child.states w := by
  cases legal with
  | leafChild => simp [withEntry,compoundOnly found,inner]
  | nested here innerHere below =>
    rename_i j other x
    by_cases same : j = k
    · subst j
      simp only [withEntry,Keyed.set,Keyed.has,Keyed.getSingle,if_pos,Option.isSome_some,Keyed.replace]
      rw [compoundOnly found]
      simp [inner]
    · simp only [withEntry,compoundTwo same,false_iff,not_and]
      intro held
      have := held _ rfl
      simp [Keyed.has,Ne.symm same] at this
  | regions unique all leaves below =>
    rename_i entries
    have present : Keyed.has entries k = true :=
      Keyed.hasKey.mpr ((all k).mpr (Keyed.getIsSome.mp (by simp [found])))
    rw [withEntry,parallelSet (.regions unique all leaves below) found]
    simp [RegionLegal,inner,present]

theorem withEntryFresh {type} {states : Record StateNodeIR} {s k child w}
    (container : type = .compound ∨ type = .parallel)
    (found : Keyed.get states k = some child) (inner : child.isLeaf = false) :
    LegalIn type states (withEntry (.str s) k w) ↔
      (type = .parallel → ∀ j ∈ Keyed.keys states, j = k) ∧ LegalIn child.type child.states w := by
  rcases container with rfl | rfl
  · simp [withEntry,compoundOnly found,inner]
  · simp [withEntry,parallelOnly found,RegionLegal,inner]

theorem legalEntry {type} {states : Record StateNodeIR} {v k child w}
    (legal : LegalIn type states v) (found : Keyed.get states k = some child) (inner : child.isLeaf = false)
    (held : entryAt v k = some w) : LegalIn child.type child.states w := by
  cases legal with
  | leafChild => simp [entryAt] at held
  | nested here _ below =>
    simp only [entryAt,Keyed.getSingle] at held
    split at held
    · rename_i same
      cases held
      subst same
      cases Option.some.inj (found.symm.trans here)
      exact below
    · contradiction
  | regions _ _ _ below => exact below k child w found inner held

theorem extractCursorSnoc (v : StateValue) (front : List String) (k : String) :
    extractCursor v (front ++ [k]) = (extractCursor v front).bind (entryAt · k) := by
  induction front generalizing v with
  | nil => cases v with
    | str s => rfl
    | obj entries => cases h : Keyed.get entries k <;> simp [extractCursor,entryAt,h]
  | cons j rest ih =>
    cases v with
    | str s => rfl
    | obj entries =>
      cases h : Keyed.get entries j with
      | none => simp [extractCursor,h]
      | some child => simpa [extractCursor,h] using ih child

/-! The conditions on the path to the target. -/

section
variable (machine : RawMachine) (current : StateValue)

/-- Every parallel on the way to the target is held by the current value, or has no
region besides the one the path goes through. -/
def Filled (front : List String) : List String → Prop
  | [] => True
  | key::rest => (∀ node, lookupParts machine.states none front = some node → node.type = .parallel →
      (extractCursor current front).isSome = true ∨ ∀ j ∈ Keyed.keys node.states, j = key) ∧
    Filled (front ++ [key]) rest

/-- Nowhere on the common path does the current value hold another key instead. -/
def Stays (front : List String) : List String → Prop
  | [] => True
  | key::rest => (∀ entries, extractCursor current front = some (.obj entries) → Keyed.has entries key = true) ∧
    Stays (front ++ [key]) rest

/-- A parallel common ancestor is not re-entered at a region that is a leaf. -/
def InnerRegion (lcaParts rest : List String) : Prop :=
  ∀ node child, lookupParts machine.states none lcaParts = some node → node.type = .parallel →
    lookupParts machine.states none (lcaParts ++ rest.take 1) = some child → child.isLeaf = false

/-- What a parallel root demands: in error only the error leaf or a single inner
region can be entered, otherwise only its regions. -/
def RootFits (tgtParts : List String) : Prop :=
  machine.type = .parallel → match current with
    | .obj _ => ∃ key region, tgtParts.head? = some key ∧ Keyed.get (rootStates machine) key = some region
    | .str _ => tgtParts = ["error"] ∨ ∃ key region, tgtParts.head? = some key ∧
        Keyed.get (rootStates machine) key = some region ∧ region.isLeaf = false ∧
        ∀ j ∈ Keyed.keys (rootStates machine), j = key

structure LandsWell (lcaParts rest : List String) : Prop where
  root : RootFits machine current (lcaParts ++ rest)
  filled : Filled machine current [] (lcaParts ++ rest)
  stays : Stays current [] lcaParts
  inner : InnerRegion machine lcaParts rest

end

/-- What is built for one child of the branch: the key of a leaf, or one entry whose
legality is the given condition. -/
inductive Branch (cond : Prop) (child : StateNodeIR) (key : String) (rest : List String) : StateValue → Prop where
  | leaf (leaf : child.isLeaf = true) (last : rest = []) (holds : cond) : Branch cond child key rest (.str key)
  | inner {w} (inner : child.isLeaf = false) (legal : LegalIn child.type child.states w ↔ cond)
      (active : rest ≠ [] → isActive child.states w rest = true) : Branch cond child key rest (.obj [(key,w)])

theorem branchRegion {cond child key rest branch} (b : Branch cond child key rest branch) :
    RegionLegal child key (regionValue branch key) ↔ cond := by
  cases b with
  | leaf leaf _ holds => simp [RegionLegal,regionValue,leaf,holds]
  | inner inner legal _ => simp [RegionLegal,regionValue,inner,legal]

theorem branchCompound {states : Record StateNodeIR} {cond child key rest branch}
    (found : Keyed.get states key = some child) (b : Branch cond child key rest branch) :
    LegalIn .compound states branch ↔ cond := by
  cases b with
  | leaf leaf _ holds => exact iff_of_true (.leafChild found leaf) holds
  | inner inner legal _ => simp [compoundOnly found,inner,legal]

theorem branchActive {states : Record StateNodeIR} {cond child key rest branch}
    (found : Keyed.get states key = some child) (b : Branch cond child key rest branch) :
    isActive states branch (key::rest) = true := by
  cases b with
  | leaf _ last _ => simp [isActive,last,Keyed.has,found]
  | inner inner _ active =>
    cases rest with
    | nil => simp [isActive,found]
    | cons j tail => simpa [isActive,found,inner] using active

theorem regionActive {states : Record StateNodeIR} {cond child key rest branch} (entries : Record StateValue)
    (found : Keyed.get states key = some child) (b : Branch cond child key rest branch) :
    isActive states (.obj (Keyed.set entries key (regionValue branch key))) (key::rest) = true := by
  cases b with
  | leaf _ last _ => simp [isActive,last,found]
  | inner inner _ active =>
    cases rest with
    | nil => simp [isActive,found]
    | cons j tail => simpa [isActive,found,inner,regionValue] using active

theorem lookupHead {states : Record StateNodeIR} {current key rest node}
    (found : lookupParts states current (key::rest) = some node) :
    ∃ child, Keyed.get states key = some child ∧ lookupParts child.states (some child) rest = some node := by
  simp only [lookupParts] at found
  cases hg : Keyed.get states key with
  | none => simp [hg] at found
  | some child => exact ⟨child,rfl,by simpa [hg] using found⟩

theorem innerOfChild {node : StateNodeIR} {key child} (valid : Valid node)
    (found : Keyed.get node.states key = some child) : node.isLeaf = false := by
  cases leaf : node.isLeaf with
  | false => rfl
  | true => rw [validLeafEmpty valid leaf] at found; simp at found

theorem wellFormedValid {parentPath key node} (formed : WellFormed parentPath key node) : Valid node := by
  cases formed with
  | node _ _ _ valid => exact valid

theorem wellFormedChildren {parentPath key node} (formed : WellFormed parentPath key node) :
    ∀ e ∈ node.states, WellFormed node.path e.1 e.2 := by
  cases formed with
  | node _ _ _ _ children => exact children

theorem wellFormedKey {parentPath key node} (formed : WellFormed parentPath key node) : node.key = key := by
  cases formed with
  | node sameKey => exact sameKey

section
variable {machine : RawMachine} {current : StateValue}

theorem getNodeJoin {ks : List String} (plain : ∀ k ∈ ks, Dotted.Plain k) :
    getNodeByPath machine (Dotted.join ks) = lookupParts machine.states none ks := by
  rw [getNodeByPath,lookupByDotPath,Dotted.partsJoin plain]

/-- Values held below the container at `front` are legal for the children. -/
def Held (current : StateValue) (front : List String) (states : Record StateNodeIR) : Prop :=
  ∀ k child v, Keyed.get states k = some child → child.isLeaf = false →
    extractCursor current (front ++ [k]) = some v → LegalIn child.type child.states v

theorem heldBelow {front states k child} (held : Held current front states)
    (found : Keyed.get states k = some child) (inner : child.isLeaf = false) :
    Held current (front ++ [k]) child.states := by
  intro j grandchild w here innerHere got
  rw [extractCursorSnoc] at got
  cases hv : extractCursor current (front ++ [k]) with
  | none => rw [hv] at got; simp at got
  | some v =>
    rw [hv] at got
    exact legalEntry (held k child v found inner hv) here innerHere got

theorem filledCons {front key rest} (node : StateNodeIR)
    (here : lookupParts machine.states none front = some node) :
    Filled machine current front (key::rest) ↔
      (node.type = .parallel → (extractCursor current front).isSome = true ∨ ∀ j ∈ Keyed.keys node.states, j = key) ∧
      Filled machine current (front ++ [key]) rest := by
  rw [Filled]
  constructor
  · rintro ⟨head,tail⟩; exact ⟨head node here,tail⟩
  · rintro ⟨head,tail⟩
    refine ⟨fun other found => ?_,tail⟩
    cases Option.some.inj (here.symm.trans found)
    exact head

/-- The branch built for the target. The induction is on the target path; the value
held at each parallel on it decides whether that parallel keeps its other regions. -/
theorem builtBranchShape {front key rest states target parentPath}
    (step : ∀ j tail, lookupParts machine.states none (front ++ j::tail) = lookupParts states none (j::tail))
    (held : Held current front states)
    (formed : ∀ e ∈ states, WellFormed parentPath e.1 e.2)
    (plain : ∀ j ∈ front ++ key::rest, Dotted.Plain j)
    (found : lookupParts states none (key::rest) = some target) :
    ∃ child, Keyed.get states key = some child ∧
      Branch (Filled machine current (front ++ [key]) rest) child key rest
        (builtBranch machine current ((enterSubtree target).slot target.key) front (key::rest)) := by
  induction rest generalizing front key states parentPath with
  | nil =>
    obtain ⟨child,here,same⟩ := lookupHead found
    obtain rfl : child = target := Option.some.inj same
    have formedChild := formed _ (Keyed.getSome here)
    refine ⟨child,here,?_⟩
    rw [builtBranch,wellFormedKey formedChild]
    · cases leaf : child.isLeaf with
      | true =>
        rw [enterLeaf leaf]
        exact .leaf leaf rfl trivial
      | false =>
        obtain ⟨v,contributed,legal⟩ := enterLegal formedChild leaf
        rw [Entered.slot,contributed]
        exact .inner leaf (iff_of_true legal trivial) (by simp)
    · simp
  | cons next tail ih =>
    obtain ⟨child,here,below⟩ := lookupHead found
    have formedChild := formed _ (Keyed.getSome here)
    rw [lookupPartsCurrent _ _ none (by simp)] at below
    obtain ⟨_,hereNext,_⟩ := lookupHead below
    have inner : child.isLeaf = false := innerOfChild (wellFormedValid formedChild) hereNext
    have chain : lookupParts machine.states none (front ++ [key]) = some child := by
      rw [step]; simp [lookupParts,here]
    have plainFront : ∀ j ∈ front ++ [key], Dotted.Plain j := by
      intro j mem
      exact plain j (by simp only [List.mem_append,List.mem_cons,List.not_mem_nil,or_false] at mem ⊢; tauto)
    have stepBelow (j t) : lookupParts machine.states none (front ++ [key] ++ j::t) =
        lookupParts child.states none (j::t) := by
      rw [lookupPartsAppend chain (by simp),lookupPartsCurrent _ _ none (by simp)]
    obtain ⟨grandchild,hereBelow,b⟩ := ih stepBelow (heldBelow held here inner)
      (wellFormedChildren formedChild) (by simpa using plain) below
    refine ⟨child,here,?_⟩
    rw [filledCons child chain]
    simp only [builtBranch]
    rw [getNodeJoin plainFront,chain]
    rcases containerType inner with compound | parallel
    · rw [if_neg (by simp [compound])]
      exact .inner inner (by simp [compound,branchCompound hereBelow b]) (fun _ => branchActive hereBelow b)
    · rw [if_pos (by simp [parallel]),extractSubStateObject,Dotted.partsJoin plainFront]
      cases hv : extractCursor current (front ++ [key]) with
      | none =>
        refine .inner inner ?_ (fun _ => regionActive _ hereBelow b)
        rw [parallel,show Keyed.set [] next _ = [(next,_)] from rfl,parallelOnly hereBelow,branchRegion b]
        simp
      | some v =>
        have legal := held key child v here inner hv
        rw [parallel] at legal
        cases legal with
        | regions unique all leaves belowAll =>
          refine .inner inner ?_ (fun _ => regionActive _ hereBelow b)
          rw [parallel,parallelSet (.regions unique all leaves belowAll) hereBelow,branchRegion b]
          simp

theorem lookupChild {front states key child}
    (step : ∀ j t, lookupParts machine.states none (front ++ j::t) = lookupParts states none (j::t))
    (here : Keyed.get states key = some child) :
    lookupParts machine.states none (front ++ [key]) = some child := by
  rw [step]; simp [lookupParts,here]

theorem entryBelow (front : List String) {v key}
    (value : v = (extractCursor current front).getD (.str "")) :
    entryAt v key = extractCursor current (front ++ [key]) := by
  rw [extractCursorSnoc,value]
  cases extractCursor current front <;> rfl

theorem entryActive {states : Record StateNodeIR} {key child w} (v : StateValue) {rest : List String}
    (here : Keyed.get states key = some child) (inner : child.isLeaf = false)
    (below : rest ≠ [] → isActive child.states w rest = true) :
    isActive states (withEntry v key w) (key::rest) = true := by
  cases rest with
  | nil => cases v <;> simp [withEntry,isActive,here]
  | cons j tail => cases v <;> simpa [withEntry,isActive,here,inner] using below

theorem placedLegal {front key child next grandchild w rest} {cond : Prop}
    (chain : lookupParts machine.states none (front ++ [key]) = some child)
    (here : Keyed.get child.states next = some grandchild) (inner : grandchild.isLeaf = false)
    (container : child.isLeaf = false)
    (held : ∀ u, extractCursor current (front ++ [key]) = some u → LegalIn child.type child.states u)
    (legal : LegalIn grandchild.type grandchild.states w ↔ Filled machine current (front ++ [key] ++ [next]) rest ∧ cond) :
    LegalIn child.type child.states (withEntry ((extractCursor current (front ++ [key])).getD (.str "")) next w) ↔
    Filled machine current (front ++ [key]) (next::rest) ∧
      (∀ entries, extractCursor current (front ++ [key]) = some (.obj entries) → Keyed.has entries next = true) ∧ cond := by
  rw [filledCons child chain]
  cases hv : extractCursor current (front ++ [key]) with
  | none =>
    rw [Option.getD_none,withEntryFresh (containerType container) here inner,legal]
    simp [and_assoc]
  | some u =>
    rw [Option.getD_some,withEntryActive (held u hv) here inner,legal]
    simp [and_left_comm]

theorem regionPresent {states : Record StateNodeIR} {entries key child}
    (legal : LegalIn .parallel states (.obj entries)) (here : Keyed.get states key = some child) :
    Keyed.has entries key = true := by
  cases legal with
  | regions _ all => exact Keyed.hasKey.mpr ((all key).mpr (Keyed.getIsSome.mp (by simp [here])))

/-- Placing the branch below the common ancestor. The induction is on the common
path; each step adds one entry to the value found there. -/
theorem replaceAtLcaShape {front key lrest tail next states v parentPath target}
    (step : ∀ j t, lookupParts machine.states none (front ++ j::t) = lookupParts states none (j::t))
    (held : Held current front states)
    (formed : ∀ e ∈ states, WellFormed parentPath e.1 e.2)
    (plain : ∀ j ∈ front ++ key::(lrest ++ next::tail), Dotted.Plain j)
    (found : lookupParts states none (key::(lrest ++ next::tail)) = some target)
    (value : v = (extractCursor current front).getD (.str "")) :
    ∃ child w, Keyed.get states key = some child ∧ child.isLeaf = false ∧
      replaceAtLca machine v front (builtBranch machine current ((enterSubtree target).slot target.key)
        (front ++ key::lrest) (next::tail)) (key::lrest) = withEntry v key w ∧
      (LegalIn child.type child.states w ↔ Filled machine current (front ++ [key]) (lrest ++ next::tail) ∧
        Stays current (front ++ [key]) lrest ∧ InnerRegion machine (front ++ key::lrest) (next::tail)) ∧
      isActive child.states w (lrest ++ next::tail) = true := by
  induction lrest generalizing front key states v parentPath with
  | nil =>
    obtain ⟨child,here,below⟩ := lookupHead found
    have formedChild := formed _ (Keyed.getSome here)
    rw [List.nil_append,lookupPartsCurrent _ _ none (by simp)] at below
    obtain ⟨_,hereNext,_⟩ := lookupHead below
    have inner : child.isLeaf = false := innerOfChild (wellFormedValid formedChild) hereNext
    have chain := lookupChild step here
    have plainFront : ∀ j ∈ front ++ [key], Dotted.Plain j := by
      intro j mem
      exact plain j (by simp only [List.mem_append,List.mem_cons,List.not_mem_nil,or_false] at mem ⊢; tauto)
    have stepBelow (j t) : lookupParts machine.states none (front ++ [key] ++ j::t) =
        lookupParts child.states none (j::t) := by
      rw [lookupPartsAppend chain (by simp),lookupPartsCurrent _ _ none (by simp)]
    obtain ⟨grandchild,hereBelow,b⟩ := builtBranchShape stepBelow (heldBelow held here inner)
      (wellFormedChildren formedChild) (by simpa using plain) below
    have chainBelow : lookupParts machine.states none (front ++ [key] ++ [next]) = some grandchild :=
      lookupChild stepBelow hereBelow
    have region : InnerRegion machine (front ++ [key]) (next::tail) ↔
        (child.type = .parallel → grandchild.isLeaf = false) := by
      constructor
      · intro h type; exact h child grandchild chain type chainBelow
      · intro h node other hn type ho
        cases Option.some.inj (chain.symm.trans hn)
        cases Option.some.inj (chainBelow.symm.trans ho)
        exact h type
    have heldHere (u) (hu : extractCursor current (front ++ [key]) = some u) := held key child u here inner hu
    refine ⟨child,?_⟩
    rw [region]
    generalize builtBranch machine current ((enterSubtree target).slot target.key) (front ++ [key]) (next::tail) = branch at b
    simp only [replaceAtLca,getNodeJoin plainFront,chain,Option.map_some,List.nil_append,Stays,true_and,here,inner]
    rcases containerType inner with compound | parallel
    · refine ⟨branch,by simp [compound],?_,branchActive hereBelow b⟩
      rw [filledCons child chain]
      simp [compound,branchCompound hereBelow b]
    · cases b with
      | leaf leaf last _ =>
        refine ⟨.str next,by simp [parallel],?_,by simp [isActive,last,Keyed.has,hereBelow]⟩
        refine iff_of_false ?_ (by simp [parallel,leaf])
        rw [parallel]; intro legal; cases legal
      | @inner w innerBelow legal active =>
        refine ⟨withEntry ((extractCursor current (front ++ [key])).getD (.str "")) next w,?_,?_,
          entryActive _ hereBelow innerBelow active⟩
        · rw [parallel,← entryBelow front value]
          rw [← entryBelow front value] at heldHere
          cases v with
          | str s => simp [entryAt,withEntry]
          | obj entries =>
            simp only [entryAt] at heldHere ⊢
            cases hg : Keyed.get entries key with
            | none => rfl
            | some u =>
              have legalHere := heldHere u hg
              rw [parallel] at legalHere
              cases legalHere
              simp [withEntry]
        · rw [placedLegal chain hereBelow innerBelow inner heldHere (show _ ↔ _ ∧ True by simpa using legal)]
          simp only [innerBelow,implies_true,and_true,and_iff_left_iff_imp]
          intro _ entries hu
          have legalHere := heldHere _ hu
          rw [parallel] at legalHere
          exact regionPresent legalHere hereBelow
  | cons k lrest ih =>
    obtain ⟨child,here,below⟩ := lookupHead found
    have formedChild := formed _ (Keyed.getSome here)
    rw [List.cons_append,lookupPartsCurrent _ _ none (by simp)] at below
    obtain ⟨_,hereNext,_⟩ := lookupHead below
    have inner : child.isLeaf = false := innerOfChild (wellFormedValid formedChild) hereNext
    have chain := lookupChild step here
    have stepBelow (j t) : lookupParts machine.states none (front ++ [key] ++ j::t) =
        lookupParts child.states none (j::t) := by
      rw [lookupPartsAppend chain (by simp),lookupPartsCurrent _ _ none (by simp)]
    have childValue : (entryAt v key).getD (.str "") = (extractCursor current (front ++ [key])).getD (.str "") := by
      rw [entryBelow front value]
    obtain ⟨grandchild,w,hereBelow,innerBelow,shape,legal,active⟩ := ih stepBelow (heldBelow held here inner)
      (wellFormedChildren formedChild) (by simpa using plain) below childValue
    rw [childValue] at shape
    refine ⟨child,withEntry ((extractCursor current (front ++ [key])).getD (.str "")) k w,here,inner,?_,?_,
      entryActive _ hereBelow innerBelow (fun _ => active)⟩
    · simp only [replaceAtLca,childValue]
      rw [← shape]
      simp
    · rw [List.cons_append,placedLegal chain hereBelow innerBelow inner
        (fun u hu => held key child u here inner hu) legal]
      simp [Stays,and_assoc]

end

theorem commonSplit (src tgt : List String) (some : tgt ≠ []) :
    ∃ key rest, tgt = commonSegments src tgt ++ key::rest := by
  induction tgt generalizing src with
  | nil => contradiction
  | cons t tail ih =>
    unfold commonSegments
    split
    · rename_i s s' src t t' tgt same
      obtain ⟨rfl,rfl⟩ := List.cons.inj same
      split
      · obtain ⟨key,rest,split⟩ := ih (s'::src) (by simp)
        exact ⟨key,rest,by rw [List.cons_append,← split]⟩
      · exact ⟨_,_,rfl⟩
    · exact ⟨t,tail,rfl⟩

section
variable {machine : MachineDefinition} (loaded : Loaded machine) {current : StateValue}
include loaded

theorem innerRoot {key child} (found : Keyed.get machine.states key = some child) (inner : child.isLeaf = false) :
    Keyed.get (rootStates machine.toRawMachine) key = some child := by
  refine (rootGet loaded).mpr ⟨found,fun _ => ?_⟩
  rcases loadedGet loaded found with explicit | ⟨_,same⟩
  · exact explicit
  · rw [same] at inner; contradiction

theorem heldRoot (legal : Legal machine.toRawMachine current) : Held current [] machine.states := by
  intro key child v found inner held
  have entry : entryAt current key = some v := (entryBelow [] rfl).trans held
  rcases legal with legal | ⟨_,same,_⟩
  · exact legalEntry legal (innerRoot loaded found inner) inner entry
  · simp [same,entryAt] at entry

theorem rootPlaced (legal : Legal machine.toRawMachine current) {key child w rest}
    (found : Keyed.get machine.states key = some child) (inner : child.isLeaf = false) (more : rest ≠ []) :
    Legal machine.toRawMachine (withEntry current key w) ↔ RootFits machine.toRawMachine current (key::rest) ∧
      (∀ entries, current = .obj entries → Keyed.has entries key = true) ∧ LegalIn child.type child.states w := by
  have root := innerRoot loaded found inner
  have noError : ¬inError machine.toRawMachine (withEntry current key w) := by
    rintro ⟨_,same,_⟩
    cases current <;> simp [withEntry] at same
  rw [Legal,or_iff_left noError]
  rcases legal with legal | ⟨parallel,error,_⟩
  · rw [withEntryActive legal root inner]
    have fits : RootFits machine.toRawMachine current (key::rest) := by
      intro parallel
      rw [parallel] at legal
      cases legal
      exact ⟨key,child,rfl,root⟩
    simp [fits]
  · rw [error,withEntryFresh (by simp [parallel,MachineType.node]) root inner]
    simp [RootFits,parallel,MachineType.node,more,root,inner]

theorem rootBranch (legal : Legal machine.toRawMachine current) {key child rest branch} {cond : Prop}
    (found : Keyed.get machine.states key = some child) (b : Branch cond child key rest branch) :
    Legal machine.toRawMachine (nextStateValue machine.toRawMachine current [] (key::rest) branch) ↔
      RootFits machine.toRawMachine current (key::rest) ∧ cond := by
  cases ht : machine.type with
  | compound =>
    have root : Keyed.get (rootStates machine.toRawMachine) key = some child :=
      (rootGet loaded).mpr ⟨found,by simp [ht]⟩
    simp [nextStateValue,ht,Legal,inError,MachineType.node,RootFits,branchCompound root b]
  | parallel =>
    cases current with
    | obj entries =>
      simp only [nextStateValue,ht,List.headD_cons,Legal,inError,MachineType.node,RootFits,reduceCtorEq,false_and,
        and_false,or_false,true_implies,List.head?_cons,Option.some.injEq,existsAndEq,true_and]
      cases hr : Keyed.get (rootStates machine.toRawMachine) key with
      | none =>
        refine iff_of_false ?_ (by simp)
        intro after
        cases after with
        | regions _ all =>
          have mem := (all key).mp ((Keyed.keysSet _ _ _ _).mpr (.inl rfl))
          rw [Keyed.getNone] at hr
          exact hr mem
      | some region =>
        obtain rfl : region = child := Option.some.inj (((rootGet loaded).mp hr).1.symm.trans found)
        rcases legal with legal | ⟨_,same,_⟩
        · simp only [ht,MachineType.node] at legal
          rw [parallelSet legal hr,branchRegion b]
          simp
        · contradiction
    | str s =>
      rcases legal with legal | ⟨_,same,error,he,leafError⟩
      · rw [ht] at legal; cases legal
      · cases same
        simp only [nextStateValue,ht,Legal,inError,MachineType.node,RootFits,true_and,true_implies,
          List.head?_cons,Option.some.injEq,existsAndEq]
        cases b with
        | leaf leaf last holds =>
          subst last
          constructor
          · rintro (after | ⟨same,_⟩)
            · cases after
            · cases same; exact ⟨.inl rfl,holds⟩
          · rintro ⟨same | ⟨region,hr,inner,_⟩,_⟩
            · cases same; exact .inr ⟨rfl,error,he,leafError⟩
            · obtain rfl : region = child := Option.some.inj (((rootGet loaded).mp hr).1.symm.trans found)
              rw [leaf] at inner; contradiction
        | inner inner below _ =>
          have root := innerRoot loaded found inner
          simp only [reduceCtorEq,false_and,or_false,parallelOnly root,RegionLegal,inner,Bool.false_eq_true,
            false_implies,true_implies,true_and,below,root,Option.some.injEq,exists_eq_left']
          have notError : key::rest ≠ ["error"] := by
            intro same
            cases same
            cases Option.some.inj (he.symm.trans found)
            rw [leafError] at inner; contradiction
          simp [notError]

theorem resolvedApplies (v : StateValue) {sourceStatePath targetRef path}
    (ok : given (resolveTargetStatePath machine.toRawMachine sourceStatePath targetRef) = some path) :
    ∃ applied, applyTargetTransition machine.toRawMachine v sourceStatePath targetRef = some applied := by
  obtain ⟨ks,k,target,plain,found,rfl⟩ := resolvedChain loaded ok
  unfold applyTargetTransition
  rw [ok]
  simp only [getNodeJoin plain,found]
  exact ⟨_,rfl⟩

/-- Where a reference resolves, the transition applies, and the next configuration
is legal with the target active exactly when the way to the target lands well. -/
theorem appliedLegal (legal : Legal machine.toRawMachine current) {sourceStatePath targetRef path}
    (ok : given (resolveTargetStatePath machine.toRawMachine sourceStatePath targetRef) = some path) :
    ∃ applied, applyTargetTransition machine.toRawMachine current sourceStatePath targetRef = some applied ∧
      isActive machine.states applied.nextStateValue (Dotted.parts path) = true ∧
      (Legal machine.toRawMachine applied.nextStateValue ↔
        LandsWell machine.toRawMachine current (commonSegments (Dotted.parts sourceStatePath) (Dotted.parts path))
          ((Dotted.parts path).drop (commonSegments (Dotted.parts sourceStatePath) (Dotted.parts path)).length)) := by
  obtain ⟨ks,k,target,plain,found,rfl⟩ := resolvedChain loaded ok
  rw [Dotted.partsJoin plain]
  obtain ⟨key,rest,split⟩ := commonSplit (Dotted.parts sourceStatePath) (ks ++ [k]) (by simp)
  unfold applyTargetTransition
  rw [ok]
  simp only [getNodeJoin plain,found,Dotted.partsJoin plain]
  refine ⟨_,rfl,?_⟩
  dsimp only
  generalize commonSegments (Dotted.parts sourceStatePath) (ks ++ [k]) = lcaParts at split
  rw [split] at plain found ⊢
  rw [List.drop_left]
  have formed := loadedWellFormed loaded
  have held := heldRoot loaded legal
  have root (j t) : lookupParts machine.states none ([] ++ j::t) = lookupParts machine.states none (j::t) := rfl
  cases lcaParts with
  | nil =>
    obtain ⟨child,here,b⟩ := builtBranchShape root held formed plain found
    refine ⟨?_,?_⟩
    · simp only [nextStateValue]
      split
      · exact regionActive _ here b
      · exact branchActive here b
      · contradiction
    · rw [List.nil_append,rootBranch loaded legal here b]
      constructor
      · rintro ⟨fits,filled⟩
        exact ⟨fits,⟨by simp [lookupParts],filled⟩,trivial,by simp [InnerRegion,lookupParts]⟩
      · intro lands
        exact ⟨lands.root,lands.filled.2⟩
  | cons j lrest =>
    obtain ⟨child,w,here,inner,shape,below,active⟩ := replaceAtLcaShape root held formed plain found
      (rfl : current = (extractCursor current []).getD (.str ""))
    rw [List.nil_append] at shape
    simp only [nextStateValue,shape]
    refine ⟨entryActive _ here inner (fun _ => active),?_⟩
    rw [rootPlaced loaded legal here inner (by simp : lrest ++ key::rest ≠ []),below]
    constructor
    · rintro ⟨fits,stays,filled,staysBelow,region⟩
      exact ⟨fits,⟨by simp [lookupParts],filled⟩,⟨fun entries same => stays entries (Option.some.inj same),staysBelow⟩,region⟩
    · intro lands
      exact ⟨lands.root,fun entries same => lands.stays.1 entries (congrArg some same),lands.filled.2,
        lands.stays.2,lands.inner⟩

end

/-- A door into a parallel with two regions: to the parallel itself, and past it into
one region. -/
def door : RawMachine :=
  { id := "door"
    initial := some "idle"
    states := [
      ("idle",{ key := "idle", path := "idle", type := .atomic
                on := [("enter",{ event := "enter", target := some "work" }),
                  ("skip",{ event := "skip", target := some "work.left.one" })] }),
      ("work",{ key := "work", path := "work", type := .parallel
                states := [
                  ("left",{ key := "left", path := "work.left", type := .compound, initial := some "one"
                            states := [("one",{ key := "one", path := "work.left.one", type := .atomic })] }),
                  ("right",{ key := "right", path := "work.right", type := .compound, initial := some "two"
                             states := [("two",{ key := "two", path := "work.right.two", type := .atomic })] })] })] }

theorem doorLoaded : Loaded (injectErrorState door) :=
  ⟨⟨door,by decide,by decide,if_pos (by decide)⟩⟩

theorem doorIdle : Legal (injectErrorState door).toRawMachine (.str "idle") :=
  .inl (.leafChild (by rfl : _ = some _) (by decide))

def working : StateValue := .obj [("work",.obj [("left",.str "one"),("right",.str "two")])]

theorem doorWorking : Legal (injectErrorState door).toRawMachine working := by
  obtain ⟨applied,did,_,iff⟩ := appliedLegal doorLoaded doorIdle
    (by decide : given (resolveTargetStatePath (injectErrorState door).toRawMachine "idle" "work") = some "work")
  have next : (applyTargetTransition (injectErrorState door).toRawMachine (.str "idle") "idle" "work").map
      (·.nextStateValue) = some working := by decide
  rw [did] at next
  rw [← Option.some.inj next]
  refine iff.mpr ⟨fun h => by contradiction,⟨by simp [lookupParts],trivial⟩,trivial,?_⟩
  intro node child found
  contradiction

end Dfsm
