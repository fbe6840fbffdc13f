import Dfsm.Engine.Leaves
import Dfsm.Lib.Chains

/-! Which nodes are active after a transition, chain by chain: those on the way to
the target, those the target enters, and those off the way that the rewriting keeps. -/
namespace Dfsm
open Keyed (Record)
open Chains (Parts)

theorem activeBelow {states v current front q node u}
    (formed : ∀ k child, Keyed.get states k = some child → Valid child)
    (found : lookupParts states current front = some node) (inner : node.isLeaf = false)
    (held : extractCursor v front = some u) (step : front ≠ []) (any : q ≠ []) :
    isActive states v (front ++ q) = isActive node.states u q := by
  induction front generalizing states v current with
  | nil => contradiction
  | cons key front ih =>
    obtain ⟨child,here,below⟩ := lookupHead found
    cases v with
    | str s => simp [extractCursor] at held
    | obj entries =>
      simp only [extractCursor,Option.bind_eq_some_iff] at held
      obtain ⟨w,got,held⟩ := held
      cases front with
      | nil =>
        cases Option.some.inj below
        cases Option.some.inj held
        simp [isActive,got,here,inner,any]
      | cons j front =>
        obtain ⟨_,hereBelow,_⟩ := lookupHead below
        have container := innerOfChild (formed key child here) hereBelow
        rw [← ih (fun k c hk => validChildren (formed key child here) _ (Keyed.getSome hk)) below held (by simp)]
        simp [isActive,got,here,container]

theorem activeHeld {states v front q} (step : front ≠ []) (any : q ≠ [])
    (active : isActive states v (front ++ q) = true) :
    ∃ node u, lookupParts states none front = some node ∧ node.isLeaf = false ∧
      extractCursor v front = some u ∧ isActive node.states u q = true := by
  induction front generalizing states v with
  | nil => contradiction
  | cons key front ih =>
    cases v with
    | str s => simp [isActive,any] at active
    | obj entries =>
      simp only [List.cons_append,isActive] at active
      split at active
      · rename_i w child got here
        have more : (front ++ q).isEmpty = false := by simp [any]
        rw [more,Bool.false_or,Bool.and_eq_true,Bool.not_eq_true'] at active
        obtain ⟨container,below⟩ := active
        cases front with
        | nil => exact ⟨child,w,by simp [lookupParts,here],container,by simp [extractCursor,got],below⟩
        | cons j front =>
          obtain ⟨node,u,found,inner,held,last⟩ := ih (by simp) below
          refine ⟨node,u,?_,inner,by simpa [extractCursor,got] using held,last⟩
          rw [← found]
          simp [lookupParts,here]
      · contradiction

theorem activePrefix {states v q r} (any : q ≠ []) (active : isActive states v (q ++ r) = true) :
    isActive states v q = true := by
  induction q generalizing states v with
  | nil => contradiction
  | cons key q ih =>
    cases v with
    | str s =>
      simp only [List.cons_append,isActive,Bool.and_eq_true,decide_eq_true_eq,List.isEmpty_iff,
        List.append_eq_nil_iff] at active ⊢
      exact ⟨⟨active.1.1,active.1.2.1⟩,active.2⟩
    | obj entries =>
      simp only [List.cons_append,isActive] at active ⊢
      split at active
      · cases q with
        | nil => rfl
        | cons j q =>
          simp only [List.cons_append,List.isEmpty_cons,Bool.false_or,Bool.and_eq_true] at active ⊢
          exact ⟨active.1,ih (by simp) active.2⟩
      · contradiction

theorem activeLookup {states v q} (active : isActive states v q = true) :
    ∃ node, lookupParts states none q = some node := by
  cases q using List.reverseRecOn with
  | nil => simp [isActive] at active
  | append_singleton front k =>
    have last {S : Record StateNodeIR} {w} (h : isActive S w [k] = true) : ∃ node, Keyed.get S k = some node := by
      cases w with
      | str s =>
        simp only [isActive,Bool.and_eq_true] at h
        exact Option.isSome_iff_exists.mp h.2
      | obj entries =>
        simp only [isActive] at h
        split at h
        · rename_i node _ here; exact ⟨node,here⟩
        · contradiction
    cases front with
    | nil =>
      obtain ⟨node,here⟩ := last active
      exact ⟨node,by simp [lookupParts,here]⟩
    | cons j front =>
      obtain ⟨node,u,found,_,_,below⟩ := activeHeld (by simp) (by simp) active
      obtain ⟨child,here⟩ := last below
      exact ⟨child,by rw [lookupPartsAppend found (by simp)]; simp [lookupParts,here]⟩

/-- The chain below the target that entering it makes active. -/
def Enters (target : StateNodeIR) (r : List String) : Prop :=
  ∃ sub, (enterSubtree target).subValue = some sub ∧ isActive target.states sub r = true

section
variable (machine : RawMachine) (current : StateValue)

def parallelAt : List String → Prop
  | [] => machine.type = .parallel
  | front => (lookupParts machine.states none front).map (·.type) = some .parallel

/-- The current value holds the regions of the parallel at this chain. -/
def Kept (front : List String) : Prop :=
  parallelAt machine front ∧ ∃ entries, extractCursor current front = some (.obj entries)

/-- Off the way at this chain the rewriting leaves the current value as it is. -/
def Retained (lcaParts rest front : List String) : Prop :=
  front.length < lcaParts.length ∨
    Kept machine current front ∧ (front = lcaParts → InnerRegion machine lcaParts rest)

/-- Active after the rewriting below the container at `front`, where `keeps` says at
which chains the current value is kept off the way. -/
def NextActive (target : StateNodeIR) (keeps : List String → Prop) (front way q : List String) : Prop :=
  q ≠ [] ∧ q <+: way ∨ (∃ r, r ≠ [] ∧ q = way ++ r ∧ Enters target r) ∨
    ∃ point, Parts point q way ∧ keeps (front ++ point) ∧ isActive machine.states current (front ++ q) = true

end

theorem parallelAtNode {machine : RawMachine} {front node}
    (found : lookupParts machine.states none front = some node) : parallelAt machine front ↔ node.type = .parallel := by
  cases front with
  | nil => simp [lookupParts] at found
  | cons j rest => simp [parallelAt,found]

section
variable {machine : RawMachine} {current : StateValue} {target : StateNodeIR} {keeps : List String → Prop}

theorem nextHead {front key way} : NextActive machine current target keeps front (key::way) [key] :=
  .inl ⟨by simp,List.cons_prefix_cons.mpr ⟨rfl,List.nil_prefix⟩⟩

theorem nextStep {front key way q} (any : q ≠ []) :
    NextActive machine current target keeps front (key::way) (key::q) ↔
      NextActive machine current target keeps (front ++ [key]) way q := by
  unfold NextActive
  simp only [List.append_assoc,List.cons_prefix_cons,true_and,List.cons_append,
    List.cons.injEq,ne_eq,reduceCtorEq,not_false_eq_true,any]
  constructor
  · rintro (pre | entered | ⟨point,⟨j,r,k,t,hq,hw,other⟩,keep,active⟩)
    · exact .inl pre
    · exact .inr (.inl entered)
    · cases point with
      | nil =>
        simp only [List.nil_append,List.cons.injEq] at hq hw
        exact absurd (hq.1.symm.trans hw.1) other
      | cons a point =>
        simp only [List.cons_append,List.cons.injEq] at hq hw
        obtain ⟨rfl,hq⟩ := hq
        exact .inr (.inr ⟨point,⟨j,r,k,t,hq,hw.2,other⟩,keep,active⟩)
  · rintro (pre | entered | ⟨point,parts,keep,active⟩)
    · exact .inl pre
    · exact .inr (.inl entered)
    · exact .inr (.inr ⟨key::point,Chains.partsCons parts,keep,active⟩)

theorem nextOther {front key way k q} (other : k ≠ key) :
    NextActive machine current target keeps front (key::way) (k::q) ↔
      keeps front ∧ isActive machine.states current (front ++ k::q) = true := by
  unfold NextActive
  constructor
  · rintro (⟨_,pre⟩ | ⟨r,_,same,_⟩ | ⟨point,⟨j,r,k',t,hq,hw,_⟩,keep,active⟩)
    · exact absurd (List.cons_prefix_cons.mp pre).1 other
    · exact absurd (List.cons.inj same).1 other
    · cases point with
      | nil => exact ⟨by simpa using keep,active⟩
      | cons a point => exact absurd ((List.cons.inj hq).1.trans (List.cons.inj hw).1.symm) other
  · rintro ⟨keep,active⟩
    exact .inr (.inr ⟨[],⟨k,q,key,way,rfl,rfl,other⟩,by simpa using keep,active⟩)

theorem nextEmpty {front way} (some : way ≠ []) : ¬NextActive machine current target keeps front way [] := by
  rintro (⟨any,_⟩ | ⟨r,any,same,_⟩ | ⟨point,⟨j,r,k,t,same,_⟩,_⟩)
  · contradiction
  · exact some (List.append_eq_nil_iff.mp same.symm).1
  · simp at same

theorem nextCongr (keeps' : List String → Prop) {front way q}
    (same : ∀ point, keeps (front ++ point) ↔ keeps' (front ++ point)) :
    NextActive machine current target keeps front way q ↔ NextActive machine current target keeps' front way q := by
  simp only [NextActive,same]

theorem nextEnd {front q} (any : q ≠ []) :
    NextActive machine current target keeps front [] q ↔ Enters target q := by
  unfold NextActive
  constructor
  · rintro (⟨_,pre⟩ | ⟨r,_,rfl,enters⟩ | ⟨point,⟨j,r,k,t,_,same,_⟩,_⟩)
    · exact absurd (List.prefix_nil.mp pre) any
    · exact enters
    · simp at same
  · intro enters
    exact .inr (.inl ⟨q,any,rfl,enters⟩)

theorem entryNext {states child key w front way q} (v : StateValue)
    (here : Keyed.get states key = some child) (inner : child.isLeaf = false)
    (below : ∀ q, q ≠ [] → (isActive child.states w q = true ↔
      NextActive machine current target keeps (front ++ [key]) way q))
    (off : ∀ k q, k ≠ key → (isActive states v (k::q) = true ∧ (∃ entries, v = .obj entries) ↔
      keeps front ∧ isActive machine.states current (front ++ k::q) = true)) :
    isActive states (withEntry v key w) q = true ↔
      NextActive machine current target keeps front (key::way) q := by
  cases q with
  | nil => exact iff_of_false (by simp [isActive]) (nextEmpty (by simp))
  | cons k q =>
    by_cases same : k = key
    · subst k
      by_cases any : q = []
      · subst q
        refine iff_of_true ?_ nextHead
        cases v <;> simp [withEntry,isActive,here]
      · rw [nextStep any,← below q any]
        cases v <;> simp [withEntry,isActive,here,inner,any]
    · rw [nextOther same,← off k q same]
      cases v with
      | str s => simp [withEntry,isActive,same]
      | obj entries => simp [withEntry,isActive,same]

theorem slotActive {front states key parentPath q} (found : Keyed.get states key = some target)
    (formed : WellFormed parentPath key target) (none : ¬keeps front) :
    isActive states ((enterSubtree target).slot key) q = true ↔
      NextActive machine current target keeps front [key] q := by
  cases leaf : target.isLeaf with
  | true =>
    rw [enterLeaf leaf,Entered.slot]
    cases q with
    | nil => exact iff_of_false (by simp [isActive]) (nextEmpty (by simp))
    | cons k q =>
      by_cases same : k = key
      · subst k
        by_cases any : q = []
        · subst q; exact iff_of_true (by simp [isActive,Keyed.has,found]) nextHead
        · rw [nextStep any,nextEnd any]
          simp [isActive,any,Enters,enterLeaf leaf]
      · rw [nextOther same]
        simp [isActive,Ne.symm same,none]
  | false =>
    obtain ⟨sub,contributed,_⟩ := enterLegal formed leaf
    rw [Entered.slot,contributed]
    refine entryNext (.str "") found leaf ?_ ?_
    · intro q any
      rw [nextEnd any]
      simp [Enters,contributed]
    · intro k q _
      simp [none]

/-- What stands for a child in its container: the key of a leaf, or one entry. -/
inductive Slot (child : StateNodeIR) (key : String) : StateValue → Prop where
  | leaf (leaf : child.isLeaf = true) : Slot child key (.str key)
  | inner {w} (inner : child.isLeaf = false) : Slot child key (.obj [(key,w)])

theorem builtBranchSlot {front key rest states parentPath}
    (formed : ∀ e ∈ states, WellFormed parentPath e.1 e.2)
    (found : lookupParts states none (key::rest) = some target) :
    ∃ child, Keyed.get states key = some child ∧
      Slot child key (builtBranch machine current ((enterSubtree target).slot target.key) front (key::rest)) := by
  obtain ⟨child,here,below⟩ := lookupHead found
  have formedChild := formed _ (Keyed.getSome here)
  refine ⟨child,here,?_⟩
  cases rest with
  | nil =>
    obtain rfl : child = target := Option.some.inj below
    rw [builtBranch,wellFormedKey formedChild]
    · cases leaf : child.isLeaf with
      | true => rw [enterLeaf leaf]; exact .leaf leaf
      | false =>
        obtain ⟨v,contributed,_⟩ := enterLegal formedChild leaf
        rw [Entered.slot,contributed]
        exact .inner leaf
    · simp
  | cons next tail =>
    obtain ⟨_,hereNext,_⟩ := lookupHead below
    have inner := innerOfChild (wellFormedValid formedChild) hereNext
    simp only [builtBranch]
    split
    · exact .inner inner
    · exact .inner inner

theorem regionValueActive {child key branch} {states : Record StateNodeIR}
    (found : Keyed.get states key = some child) (b : Slot child key branch) (q : List String) :
    isActive states branch (key::q) = true ↔
      q = [] ∨ child.isLeaf = false ∧ isActive child.states (regionValue branch key) q = true := by
  cases b with
  | leaf leaf => simp [isActive,Keyed.has,found,leaf]
  | inner inner => simp [isActive,found,inner,regionValue]

theorem regionNext {child key branch front way} {states : Record StateNodeIR} (entries : Record StateValue)
    (found : Keyed.get states key = some child) (b : Slot child key branch) {keeps' : List String → Prop}
    (same : ∀ point, point ≠ [] → (keeps (front ++ point) ↔ keeps' (front ++ point)))
    (active : ∀ q, isActive states branch q = true ↔ NextActive machine current target keeps' front (key::way) q)
    (off : ∀ k q, k ≠ key → (isActive states (.obj entries) (k::q) = true ↔
      keeps front ∧ isActive machine.states current (front ++ k::q) = true)) (q : List String) :
    isActive states (.obj (Keyed.set entries key (regionValue branch key))) q = true ↔
      NextActive machine current target keeps front (key::way) q := by
  cases q with
  | nil => exact iff_of_false (by simp [isActive]) (nextEmpty (by simp))
  | cons k q =>
    by_cases here : k = key
    · subst k
      by_cases any : q = []
      · subst q; exact iff_of_true (by simp [isActive,found]) nextHead
      · have inner := active (key::q)
        rw [regionValueActive found b,nextStep any,nextCongr keeps] at inner
        · rw [nextStep any,← inner]
          simp [isActive,found,any]
        · intro point
          rw [List.append_assoc]
          exact (same _ (by simp)).symm
    · rw [nextOther here,← off k q here]
      simp [isActive,here]

/-- What the built branch makes active below the container at `front`. The induction
is on the target path; off the way the branch keeps what a held parallel holds. -/
theorem builtBranchActive {front key rest states parentPath}
    (step : ∀ j tail, lookupParts machine.states none (front ++ j::tail) = lookupParts states none (j::tail))
    (formed : ∀ e ∈ states, WellFormed parentPath e.1 e.2)
    (valid : ∀ k child, Keyed.get machine.states k = some child → Valid child)
    (plain : ∀ j ∈ front ++ key::rest, Dotted.Plain j)
    (found : lookupParts states none (key::rest) = some target) (q : List String) :
    isActive states (builtBranch machine current ((enterSubtree target).slot target.key) front (key::rest)) q = true ↔
      NextActive machine current target (fun x => front.length < x.length ∧ Kept machine current x) front (key::rest) q := by
  induction rest generalizing front key states parentPath q with
  | nil =>
    obtain ⟨child,here,same⟩ := lookupHead found
    obtain rfl : child = target := Option.some.inj same
    have formedChild := formed _ (Keyed.getSome here)
    rw [builtBranch,wellFormedKey formedChild]
    · exact slotActive here formedChild (by simp)
    · simp
  | cons next tail ih =>
    obtain ⟨child,here,below⟩ := lookupHead found
    have formedChild := formed _ (Keyed.getSome here)
    rw [lookupPartsCurrent _ _ none (by simp)] at below
    obtain ⟨grandchild,hereNext,_⟩ := lookupHead below
    have inner : child.isLeaf = false := innerOfChild (wellFormedValid formedChild) hereNext
    have chain := lookupChild step here
    have plainFront : ∀ j ∈ front ++ [key], Dotted.Plain j := by
      intro j mem
      exact plain j (by simp only [List.mem_append,List.mem_cons,List.not_mem_nil,or_false] at mem ⊢; tauto)
    have stepBelow (j t) : lookupParts machine.states none (front ++ [key] ++ j::t) =
        lookupParts child.states none (j::t) := by
      rw [lookupPartsAppend chain (by simp),lookupPartsCurrent _ _ none (by simp)]
    have active := ih stepBelow (wellFormedChildren formedChild) (by simpa using plain) below
    obtain ⟨_,hereBelow,b⟩ := @builtBranchSlot machine current target (front ++ [key]) _ _ _ _ (wellFormedChildren formedChild) below
    simp only [builtBranch]
    rw [getNodeJoin plainFront,chain]
    have standing : parallelAt machine (front ++ [key]) ↔ child.type = .parallel := parallelAtNode chain
    have deeper (point : List String) (some : point ≠ []) : front.length < (front ++ [key] ++ point).length ↔
        (front ++ [key]).length < (front ++ [key] ++ point).length := by
      have pos := List.length_pos_iff.mpr some
      simp only [List.length_append,List.length_singleton]
      omega
    rcases containerType inner with compound | parallel
    · rw [if_neg (by simp [compound])]
      refine entryNext (.str "") here inner ?_ (by simp)
      intro q _
      rw [active,nextCongr]
      intro point
      cases point with
      | nil => simp [Kept,standing,compound]
      | cons j point => rw [deeper _ (by simp)]
    · rw [if_pos (by simp [parallel]),extractSubStateObject,Dotted.partsJoin plainFront]
      refine entryNext (.str "") here inner ?_ (by simp)
      intro q _
      refine regionNext _ hereBelow b (fun point some => by rw [deeper point some]) active ?_ q
      intro k q _
      cases hv : extractCursor current (front ++ [key]) with
      | none => simp [Kept,hv,isActive]
      | some u =>
        cases u with
        | str s => simp [Kept,hv,isActive]
        | obj entries =>
          rw [activeBelow valid chain inner hv (by simp) (by simp)]
          simp [Kept,hv,standing,parallel]

theorem retainedBelow {lcaParts rest : List String} (standing : ¬(Kept machine current lcaParts ∧ InnerRegion machine lcaParts rest))
    (point : List String) : lcaParts.length < (lcaParts ++ point).length ∧ Kept machine current (lcaParts ++ point) ↔
      Retained machine current lcaParts rest (lcaParts ++ point) := by
  cases point with
  | nil => simpa [Retained] using standing
  | cons j point => simp [Retained]

theorem innerRegionNode {front : List String} {child grandchild next tail}
    (chain : lookupParts machine.states none front = some child) (parallel : child.type = .parallel)
    (here : lookupParts machine.states none (front ++ [next]) = some grandchild) :
    InnerRegion machine front (next::tail) ↔ grandchild.isLeaf = false := by
  constructor
  · intro h; exact h child grandchild chain parallel here
  · intro inner node other _ _ ho
    cases Option.some.inj (here.symm.trans ho)
    exact inner

/-- What the rewriting makes active where the common ancestor is held by the current
value. The induction is on the common path; off it every container is kept. -/
theorem replaceAtLcaActive {front key lrest tail next states v parentPath}
    (step : ∀ j t, lookupParts machine.states none (front ++ j::t) = lookupParts states none (j::t))
    (formed : ∀ e ∈ states, WellFormed parentPath e.1 e.2)
    (valid : ∀ k child, Keyed.get machine.states k = some child → Valid child)
    (plain : ∀ j ∈ front ++ key::(lrest ++ next::tail), Dotted.Plain j)
    (found : lookupParts states none (key::(lrest ++ next::tail)) = some target)
    (value : extractCursor current front = some v)
    (present : (extractCursor v (key::lrest)).isSome = true)
    (same : ∀ q, q ≠ [] → isActive machine.states current (front ++ q) = isActive states v q) (q : List String) :
    isActive states (replaceAtLca machine v front (builtBranch machine current ((enterSubtree target).slot target.key)
        (front ++ key::lrest) (next::tail)) (key::lrest)) q = true ↔
      NextActive machine current target (Retained machine current (front ++ key::lrest) (next::tail)) front
        (key::(lrest ++ next::tail)) q := by
  induction lrest generalizing front key states v parentPath q with
  | nil =>
    obtain ⟨child,here,below⟩ := lookupHead found
    have formedChild := formed _ (Keyed.getSome here)
    rw [List.nil_append,lookupPartsCurrent _ _ none (by simp)] at below
    obtain ⟨_,hereNext,_⟩ := lookupHead below
    have inner : child.isLeaf = false := innerOfChild (wellFormedValid formedChild) hereNext
    have chain := lookupChild step here
    have plainFront : ∀ j ∈ front ++ [key], Dotted.Plain j := by
      intro j mem
      exact plain j (by simp only [List.mem_append,List.mem_cons,List.not_mem_nil,or_false] at mem ⊢; tauto)
    have stepBelow (j t) : lookupParts machine.states none (front ++ [key] ++ j::t) =
        lookupParts child.states none (j::t) := by
      rw [lookupPartsAppend chain (by simp),lookupPartsCurrent _ _ none (by simp)]
    have active := @builtBranchActive machine current target _ _ _ _ _ stepBelow (wellFormedChildren formedChild) valid (by simpa using plain) below
    obtain ⟨grandchild,hereBelow,b⟩ := @builtBranchSlot machine current target (front ++ [key]) _ _ _ _ (wellFormedChildren formedChild) below
    have region (parallel : child.type = .parallel) : InnerRegion machine (front ++ [key]) (next::tail) ↔ grandchild.isLeaf = false :=
      innerRegionNode chain parallel (lookupChild stepBelow hereBelow)
    have standing : parallelAt machine (front ++ [key]) ↔ child.type = .parallel := parallelAtNode chain
    cases v with
    | str s => simp [extractCursor] at present
    | obj entries =>
      have cursor : extractCursor current (front ++ [key]) = Keyed.get entries key := by
        rw [extractCursorSnoc,value]; rfl
      have off (k q) (_ : k ≠ key) : isActive states (.obj entries) (k::q) = true ∧ (∃ es, StateValue.obj entries = .obj es) ↔
          Retained machine current (front ++ [key]) (next::tail) front ∧
            isActive machine.states current (front ++ k::q) = true := by
        rw [same _ (by simp)]
        simp [Retained]
      generalize builtBranch machine current ((enterSubtree target).slot target.key) (front ++ [key]) (next::tail) = branch at b active
      simp only [replaceAtLca,getNodeJoin plainFront,chain,Option.map_some,List.nil_append]
      rcases containerType inner with compound | parallel
      · simp only [compound]
        refine entryNext (.obj entries) here inner (fun q _ => ?_) off
        rw [active,nextCongr]
        exact retainedBelow (by simp [Kept,standing,compound])
      · cases b with
        | leaf leaf =>
          simp only [parallel]
          refine entryNext (.obj entries) here inner (fun q _ => ?_) off
          rw [active,nextCongr]
          exact retainedBelow (by simp [region parallel,leaf])
        | @inner w innerBelow =>
          simp only [parallel]
          refine entryNext (.obj entries) here inner (fun q _ => ?_) off
          have whole : regionValue (.obj [(next,w)]) next = w := by simp [regionValue]
          rw [← whole]
          refine regionNext _ hereBelow (.inner innerBelow) (fun point any => ?_) active (fun k q _ => ?_) q
          · have pos := List.length_pos_iff.mpr any
            simp [Retained,any,pos]
          · rw [← cursor]
            cases hv : extractCursor current (front ++ [key]) with
            | none => simp [Retained,Kept,hv,isActive]
            | some u =>
              cases u with
              | str s => simp [Retained,Kept,hv,isActive]
              | obj regions =>
                rw [activeBelow valid chain inner hv (by simp) (by simp)]
                simp [Retained,Kept,hv,standing,parallel,region parallel,innerBelow]
  | cons k lrest ih =>
    obtain ⟨child,here,below⟩ := lookupHead found
    have formedChild := formed _ (Keyed.getSome here)
    rw [List.cons_append,lookupPartsCurrent _ _ none (by simp)] at below
    obtain ⟨_,hereNext,_⟩ := lookupHead below
    have inner : child.isLeaf = false := innerOfChild (wellFormedValid formedChild) hereNext
    have chain := lookupChild step here
    have stepBelow (j t) : lookupParts machine.states none (front ++ [key] ++ j::t) =
        lookupParts child.states none (j::t) := by
      rw [lookupPartsAppend chain (by simp),lookupPartsCurrent _ _ none (by simp)]
    cases v with
    | str s => simp [extractCursor] at present
    | obj entries =>
      have cursor : extractCursor current (front ++ [key]) = Keyed.get entries key := by
        rw [extractCursorSnoc,value]; rfl
      simp only [extractCursor] at present
      cases hg : Keyed.get entries key with
      | none => simp [hg] at present
      | some u =>
        rw [hg] at cursor present
        have off (k' q) (_ : k' ≠ key) : isActive states (.obj entries) (k'::q) = true ∧ (∃ es, StateValue.obj entries = .obj es) ↔
            Retained machine current (front ++ key::k::lrest) (next::tail) front ∧
              isActive machine.states current (front ++ k'::q) = true := by
          rw [same _ (by simp)]
          simp [Retained]
        have active := ih stepBelow (wellFormedChildren formedChild)
          (by simpa using plain) below cursor present
          (fun q any => activeBelow valid chain inner cursor (by simp) any)
        simp only [replaceAtLca,entryAt,hg,Option.getD_some]
        refine entryNext (.obj entries) here inner (fun q _ => ?_) off
        have whole : front ++ [key] ++ k::lrest = front ++ key::k::lrest := by simp
        rw [whole] at active
        exact active q

end

theorem nextActive {machine : MachineDefinition} (loaded : Loaded machine) {current target lcaParts key rest}
    (plain : ∀ j ∈ lcaParts ++ key::rest, Dotted.Plain j)
    (found : lookupParts machine.states none (lcaParts ++ key::rest) = some target)
    (present : (extractCursor current lcaParts).isSome = true) (q : List String) :
    isActive machine.states (nextStateValue machine.toRawMachine current lcaParts (lcaParts ++ key::rest)
        (builtBranch machine.toRawMachine current ((enterSubtree target).slot target.key) lcaParts (key::rest))) q = true ↔
      NextActive machine.toRawMachine current target (Retained machine.toRawMachine current lcaParts (key::rest)) []
        (lcaParts ++ key::rest) q := by
  have formed := loadedWellFormed loaded
  have valid (k child) (here : Keyed.get machine.states k = some child) : Valid child :=
    wellFormedValid (formed _ (Keyed.getSome here))
  have root (j t) : lookupParts machine.states none ([] ++ j::t) = lookupParts machine.states none (j::t) := rfl
  cases lcaParts with
  | nil =>
    have active := @builtBranchActive machine.toRawMachine current target _ _ _ _ _ root formed valid plain found
    obtain ⟨child,here,b⟩ := @builtBranchSlot machine.toRawMachine current target [] _ _ _ _ formed found
    simp only [nextStateValue,List.nil_append,List.headD_cons]
    split
    · rename_i parallel
      refine regionNext _ here b (fun point any => ?_) active (fun k q _ => ?_) q
      · simp [Retained,any,List.length_pos_iff]
      · simp [Retained,Kept,parallelAt,parallel,InnerRegion,lookupParts,extractCursor]
    · rename_i other
      rw [active,nextCongr]
      refine retainedBelow ?_
      rintro ⟨⟨parallel,entries,held⟩,_⟩
      exact other entries parallel (Option.some.inj held)
    · contradiction
  | cons j lrest =>
    have active := replaceAtLcaActive root formed valid plain found rfl present (fun _ _ => rfl) q
    exact active

end Dfsm
