import Dfsm.Engine.Effects

/-! Effect accounting: the nodes that stop being active are those exited, the nodes
that start are those entered, and when this holds of a transition. -/
namespace Dfsm
open Keyed (Record)
open Chains (Parts)

def ActiveNode (machine : RawMachine) (v : StateValue) (n : StateNodeIR) : Prop :=
  ∃ q, lookupParts machine.states none q = some n ∧ isActive machine.states v q = true

/-- Active afterwards is what was active and not exited, with what was entered; only
active nodes are exited, and every node is counted once. -/
structure EffectsAccounted (machine : RawMachine) (current : StateValue) (applied : AppliedTransition) : Prop where
  exitedActive : ∀ n ∈ applied.exited, ActiveNode machine current n
  exitedOnce : applied.exited.Nodup
  enteredOnce : applied.entered.Nodup
  balance : ∀ n, ActiveNode machine applied.nextStateValue n ↔
    ActiveNode machine current n ∧ n ∉ applied.exited ∨ n ∈ applied.entered

/-- When a transition from one chain to another exits and enters what it should: a
held parallel below the common ancestor has no other region, and a parallel common
ancestor is left and entered through one region, or through two and has no third
when the entered one is a leaf. -/
structure Balanced (machine : RawMachine) (current : StateValue) (src tgt lcaParts : List String) : Prop where
  others : ∀ front key rest node, tgt = front ++ key::rest → lcaParts.length < front.length →
    lookupParts machine.states none front = some node → node.type = .parallel →
    isActive machine.states current front = true → ∀ k ∈ Keyed.keys node.states, k = key
  region : Kept machine current lcaParts → InnerRegion machine lcaParts (tgt.drop lcaParts.length) →
    src[lcaParts.length]? = tgt[lcaParts.length]?
  leafRegion : Kept machine current lcaParts → ¬InnerRegion machine lcaParts (tgt.drop lcaParts.length) →
    ∀ node, lookupParts machine.states none lcaParts = some node → ∀ k ∈ Keyed.keys node.states,
      src[lcaParts.length]? = some k ∨ tgt[lcaParts.length]? = some k

theorem commonBoth (src tgt : List String) (left : src ≠ []) (right : tgt ≠ []) :
    ∃ a s b t, src = commonSegments src tgt ++ a::s ∧ tgt = commonSegments src tgt ++ b::t := by
  induction src generalizing tgt with
  | nil => contradiction
  | cons s src ih =>
    cases tgt with
    | nil => contradiction
    | cons t tgt =>
      cases src with
      | nil => exact ⟨s,[],t,tgt,rfl,rfl⟩
      | cons s' src =>
        cases tgt with
        | nil => exact ⟨s,_,t,[],rfl,rfl⟩
        | cons t' tgt =>
          unfold commonSegments
          split
          · rename_i same
            obtain ⟨a,x,b,y,left,right⟩ := ih (t'::tgt) (by simp) (by simp)
            exact ⟨a,x,b,y,by rw [List.cons_append,← left,same],by rw [List.cons_append,← right]⟩
          · exact ⟨_,_,_,_,rfl,rfl⟩

/-- Chains the transition enters: on the way below the common ancestor, or below the target. -/
def EnteredChain (target : StateNodeIR) (lcaParts way q : List String) : Prop :=
  lcaParts.length < q.length ∧ q <+: way ∨ ∃ r, r ≠ [] ∧ q = way ++ r ∧ Enters target r

section
variable {machine : MachineDefinition} (loaded : Loaded machine) (clean : KeysClean machine.toRawMachine)
  {current : StateValue} (legal : Legal machine.toRawMachine current)
  {lcaParts s t : List String} {a b : String} {target : StateNodeIR}
  (source : isActive machine.states current (lcaParts ++ a::s) = true)
  (found : lookupParts machine.states none (lcaParts ++ b::t) = some target)

include loaded in
theorem leafTarget (notInner : ¬InnerRegion machine.toRawMachine lcaParts (b::t))
    (found : lookupParts machine.states none (lcaParts ++ b::t) = some target) :
    t = [] ∧ target.isLeaf = true ∧ lcaParts ≠ [] := by
  simp only [InnerRegion,not_forall] at notInner
  obtain ⟨node,child,here,_,below,leaf⟩ := notInner
  have deep : lcaParts ≠ [] := by rintro rfl; simp [lookupParts] at here
  rw [List.take_succ_cons,List.take_zero] at below
  have leafChild : child.isLeaf = true := by simpa using leaf
  have formed := loadedChain loaded below
  cases t with
  | nil =>
    cases Option.some.inj (below.symm.trans found)
    exact ⟨rfl,leafChild,deep⟩
  | cons j t =>
    have deeper := lookupPartsAppend below (by simp) (j::t)
    rw [List.append_assoc,List.singleton_append,found] at deeper
    obtain ⟨_,next,_⟩ := lookupHead deeper.symm
    rw [validLeafEmpty (wellFormedValid formed) leafChild] at next
    simp at next

include loaded in
theorem noneBelowLeaf (leaf : target.isLeaf = true) (found : lookupParts machine.states none (lcaParts ++ b::t) = some target)
    {r n} (any : r ≠ []) : lookupParts machine.states none (lcaParts ++ b::t ++ r) ≠ some n := by
  intro deeper
  rw [lookupPartsAppend found (by simp)] at deeper
  cases r with
  | nil => contradiction
  | cons j r =>
    obtain ⟨_,next,_⟩ := lookupHead deeper
    obtain ⟨ks,k,split⟩ : ∃ ks k, lcaParts ++ b::t = ks ++ [k] :=
      ⟨(lcaParts ++ b::t).dropLast,(lcaParts ++ b::t).getLast (by simp),(List.dropLast_append_getLast (by simp)).symm⟩
    rw [split] at found
    rw [validLeafEmpty (wellFormedValid (loadedChain loaded found)) leaf] at next
    simp at next

include loaded legal source found in
theorem balancedEnough (balanced : Balanced machine.toRawMachine current (lcaParts ++ a::s) (lcaParts ++ b::t) lcaParts)
    {q n} (stored : lookupParts machine.states none q = some n) :
    NextActive machine.toRawMachine current target (Retained machine.toRawMachine current lcaParts (b::t)) []
        (lcaParts ++ b::t) q ↔
      isActive machine.states current q = true ∧ ¬lcaParts ++ [a] <+: q ∨ EnteredChain target lcaParts (lcaParts ++ b::t) q := by
  obtain ⟨others,region,leafRegion⟩ := balanced
  have exitKey : (lcaParts ++ a::s)[lcaParts.length]? = some a := by simp
  have entryKey : (lcaParts ++ b::t)[lcaParts.length]? = some b := by simp
  rw [List.drop_left,exitKey,entryKey] at region
  simp only [List.drop_left,exitKey,entryKey,Option.some.injEq] at leafRegion
  have any : q ≠ [] := by rintro rfl; simp [lookupParts] at stored
  have left : isActive machine.states current (lcaParts ++ [a]) = true := by
    rw [show lcaParts ++ a::s = (lcaParts ++ [a]) ++ s by simp] at source
    exact activePrefix (by simp) source
  -- an active chain through the entered child besides the exited one makes the ancestor a held parallel
  have sibling {j} (active : isActive machine.states current (lcaParts ++ [j]) = true) (apart : j ≠ a) :=
    legalSiblings loaded legal left active apart
  have common {point : List String} {j r k u} (hq : q = point ++ j::r) (hw : lcaParts ++ b::t = point ++ k::u) (apart : j ≠ k)
      (below : lcaParts <+: q) : lcaParts.length ≤ point.length :=
    Chains.partsBelow ⟨j,r,k,u,hq,hw,apart⟩ below (List.prefix_append _ _)
  constructor
  · rintro (⟨_,pre⟩ | entered | ⟨point,⟨j,r,k,u,hq,hw,apart⟩,keep,active⟩)
    · by_cases deep : lcaParts.length < q.length
      · exact .inr (.inl ⟨deep,pre⟩)
      · have above : q <+: lcaParts := List.prefix_of_prefix_length_le pre (List.prefix_append _ _) (by omega)
        obtain ⟨rest,rfl⟩ := above
        refine .inl ⟨?_,fun exited => ?_⟩
        · rw [List.append_assoc] at source
          exact activePrefix any source
        · have := exited.length_le
          simp only [List.length_append,List.length_singleton] at this
          omega
    · exact .inr (.inr entered)
    · refine .inl ⟨active,fun exited => ?_⟩
      have shorter := common hq hw apart ((List.prefix_append _ _).trans exited)
      rcases keep with above | ⟨kept,inner⟩
      · simp only [List.nil_append] at above; omega
      · rw [List.nil_append] at kept inner
        have onWay : point <+: lcaParts ++ b::t := by rw [hw]; exact List.prefix_append _ _
        by_cases here : point.length = lcaParts.length
        · obtain rfl : lcaParts = point :=
            (List.prefix_of_prefix_length_le (List.prefix_append _ _) onWay shorter).eq_of_length here.symm
          have exitHere : j = a := by
            rw [hq,List.prefix_append_right_inj,List.cons_prefix_cons] at exited
            exact exited.1.symm
          have entryHere : k = b := (List.cons.inj (List.append_cancel_left hw)).1.symm
          exact apart ((exitHere.trans (Option.some.inj (region kept (inner rfl)))).trans entryHere.symm)
        · have step : point ≠ [] := by
            rintro rfl
            simp only [List.length_nil] at here shorter
            omega
          obtain ⟨node,_,here',_,_,_⟩ := activeHeld step (List.cons_ne_nil j r)
            (by rw [List.nil_append,hq] at active; exact active)
          have parallel := (parallelAtNode here').mp kept.1
          have held : isActive machine.states current point = true := by
            rw [List.nil_append,hq] at active
            exact activePrefix step active
          have region : j ∈ Keyed.keys node.states := by
            rw [hq,lookupPartsAppend here' step] at stored
            obtain ⟨_,next,_⟩ := lookupHead stored
            exact Keyed.getIsSome.mp (by simp [next])
          exact apart (others point k u node hw (by omega) here' parallel held j region)
  · rintro (⟨active,kept⟩ | ⟨_,pre⟩ | entered)
    · rcases Chains.compare q (lcaParts ++ b::t) with pre | ⟨r,some,rfl⟩ | ⟨point,⟨j,r,k,u,hq,hw,apart⟩⟩
      · exact .inl ⟨any,pre⟩
      · exfalso
        have apart : b ≠ a := by
          rintro rfl
          exact kept (by rw [List.append_assoc,List.prefix_append_right_inj]; simp)
        have entry : isActive machine.states current (lcaParts ++ [b]) = true := by
          rw [show lcaParts ++ b::t ++ r = (lcaParts ++ [b]) ++ (t ++ r) by simp] at active
          exact activePrefix (by simp) active
        have held := sibling entry apart
        by_cases inner : InnerRegion machine.toRawMachine lcaParts (b::t)
        · exact apart (Option.some.inj (region held inner)).symm
        · obtain ⟨_,leaf,_⟩ := leafTarget loaded inner found
          exact noneBelowLeaf loaded leaf found some stored
      · refine .inr (.inr ⟨point,⟨j,r,k,u,hq,hw,apart⟩,?_,active⟩)
        rw [List.nil_append]
        have onWay : point <+: lcaParts ++ b::t := by rw [hw]; exact List.prefix_append _ _
        rcases Nat.lt_trichotomy point.length lcaParts.length with above | here | below
        · exact .inl above
        · obtain rfl : point = lcaParts :=
            (List.prefix_of_prefix_length_le onWay (List.prefix_append _ _) here.le).eq_of_length here
          have entryHere : k = b := (List.cons.inj (List.append_cancel_left hw)).1.symm
          have other : j ≠ a := by
            rintro rfl
            exact kept (by rw [hq,List.prefix_append_right_inj]; simp)
          have child : isActive machine.states current (point ++ [j]) = true := by
            rw [hq,show point ++ j::r = (point ++ [j]) ++ r by simp] at active
            exact activePrefix (by simp) active
          have held := sibling child other
          refine .inr ⟨held,fun _ => ?_⟩
          by_contra inner
          obtain ⟨_,_,step⟩ := leafTarget loaded inner found
          obtain ⟨node,_,here',_,_,_⟩ := activeHeld step (by simp) child
          have region : j ∈ Keyed.keys node.states := by
            rw [hq,lookupPartsAppend here' step] at stored
            obtain ⟨_,next,_⟩ := lookupHead stored
            exact Keyed.getIsSome.mp (by simp [next])
          rcases leafRegion held inner node here' j region with same | same
          · exact other same.symm
          · exact apart (same.symm.trans entryHere.symm)
        · exfalso
          have through : lcaParts ++ [b] <+: point := by
            refine List.prefix_of_prefix_length_le ?_ onWay (by simp; omega)
            rw [List.prefix_append_right_inj]; simp
          have apart' : b ≠ a := by
            rintro rfl
            exact kept (through.trans (by rw [hq]; exact List.prefix_append _ _))
          have entry : isActive machine.states current (lcaParts ++ [b]) = true := by
            obtain ⟨rest,rfl⟩ := through
            rw [hq,List.append_assoc] at active
            exact activePrefix (by simp) active
          have held := sibling entry apart'
          by_cases inner : InnerRegion machine.toRawMachine lcaParts (b::t)
          · exact apart' (Option.some.inj (region held inner)).symm
          · obtain ⟨rfl,_,_⟩ := leafTarget loaded inner found
            have := congrArg List.length hw
            simp at this
            omega
    · exact .inl ⟨any,pre⟩
    · exact .inr (.inl entered)

include loaded legal source found in
theorem balancedNeeded (chains : ∀ q n, lookupParts machine.states none q = some n →
      (NextActive machine.toRawMachine current target (Retained machine.toRawMachine current lcaParts (b::t)) []
          (lcaParts ++ b::t) q ↔
        isActive machine.states current q = true ∧ ¬lcaParts ++ [a] <+: q ∨ EnteredChain target lcaParts (lcaParts ++ b::t) q)) :
    Balanced machine.toRawMachine current (lcaParts ++ a::s) (lcaParts ++ b::t) lcaParts := by
  have exitKey : (lcaParts ++ a::s)[lcaParts.length]? = some a := by simp
  have entryKey : (lcaParts ++ b::t)[lcaParts.length]? = some b := by simp
  have left : isActive machine.states current (lcaParts ++ [a]) = true := by
    rw [show lcaParts ++ a::s = (lcaParts ++ [a]) ++ s by simp] at source
    exact activePrefix (by simp) source
  have away {point q} (parts : Parts point q (lcaParts ++ b::t)) : ¬EnteredChain target lcaParts (lcaParts ++ b::t) q := by
    rintro (⟨_,pre⟩ | ⟨r,_,rfl,_⟩)
    · exact Chains.partsNoPrefix parts pre
    · exact Chains.partsNoExtension parts (List.prefix_append _ _)
  have region (held : Kept machine.toRawMachine current lcaParts) (inner : InnerRegion machine.toRawMachine lcaParts (b::t)) :
      a = b := by
    by_contra apart
    obtain ⟨node,stored⟩ := activeLookup left
    have parts : Parts lcaParts (lcaParts ++ [a]) (lcaParts ++ b::t) := ⟨a,[],b,t,rfl,rfl,apart⟩
    rcases (chains _ node stored).mp (.inr (.inr ⟨lcaParts,parts,.inr ⟨held,fun _ => inner⟩,left⟩)) with ⟨_,kept⟩ | entered
    · exact kept (List.prefix_refl _)
    · exact away parts entered
  refine ⟨?_,?_,?_⟩
  · intro front key rest node hw deep here parallel active k mem
    by_contra apart
    have step : front ≠ [] := by rintro rfl; simp at deep
    obtain ⟨held,all⟩ := legalRegions loaded legal active here parallel
    have child := all k mem
    obtain ⟨_,stored⟩ := activeLookup child
    have parts : Parts front (front ++ [k]) (lcaParts ++ b::t) := ⟨k,[],key,rest,rfl,hw,apart⟩
    have onWay : front <+: lcaParts ++ b::t := by rw [hw]; exact List.prefix_append _ _
    have through : lcaParts ++ [b] <+: front := by
      refine List.prefix_of_prefix_length_le ?_ onWay (by simp; omega)
      rw [List.prefix_append_right_inj]; simp
    have retained : Retained machine.toRawMachine current lcaParts (b::t) ([] ++ front) :=
      .inr ⟨held,fun same => by rw [List.nil_append] at same; rw [same] at deep; omega⟩
    rcases (chains _ _ stored).mp (.inr (.inr ⟨front,parts,retained,child⟩)) with ⟨_,kept⟩ | entered
    · have apart' : b ≠ a := by
        rintro rfl
        exact kept (through.trans (List.prefix_append _ _))
      have entry : isActive machine.states current (lcaParts ++ [b]) = true := by
        obtain ⟨more,rfl⟩ := through
        exact activePrefix (by simp) active
      have heldAbove := legalSiblings loaded legal left entry apart'
      by_cases inner : InnerRegion machine.toRawMachine lcaParts (b::t)
      · exact apart' (region heldAbove inner).symm
      · obtain ⟨rfl,_,_⟩ := leafTarget loaded inner found
        have := congrArg List.length hw
        simp at this
        omega
    · exact away parts entered
  · intro held inner
    rw [List.drop_left] at inner
    rw [exitKey,entryKey,region held inner]
  · intro held notInner node here k mem
    rw [List.drop_left] at notInner
    rw [exitKey,entryKey]
    by_contra apart
    simp only [Option.some.injEq,not_or] at apart
    have step : lcaParts ≠ [] := (leafTarget loaded notInner found).2.2
    have above : isActive machine.states current lcaParts = true := activePrefix step left
    have child := (legalRegions loaded legal above here ((parallelAtNode here).mp held.1)).2 k mem
    obtain ⟨_,stored⟩ := activeLookup child
    have parts : Parts lcaParts (lcaParts ++ [k]) (lcaParts ++ b::t) := ⟨k,[],b,t,rfl,rfl,Ne.symm apart.2⟩
    have kept : ¬lcaParts ++ [a] <+: lcaParts ++ [k] := by
      rw [List.prefix_append_right_inj,List.cons_prefix_cons]
      exact fun h => apart.1 h.1
    rcases (chains _ _ stored).mpr (.inl ⟨child,kept⟩) with ⟨_,pre⟩ | ⟨r,_,same,_⟩ | ⟨point,parts',keep,_⟩
    · exact Chains.partsNoPrefix parts pre
    · exact Chains.partsNoExtension parts ⟨r,same.symm⟩
    · obtain rfl := Chains.partsUnique parts parts'
      rcases keep with short | ⟨_,inner⟩
      · simp at short
      · exact notInner (inner rfl)

end

def ancestorNodes (machine : RawMachine) (lcaParts tgt : List String) : List StateNodeIR :=
  (List.range (tgt.length - 1)).filterMap (fun i =>
    if lcaParts.length ≤ i then getNodeByPath machine (Dotted.join (tgt.take (i+1))) else none)

theorem memAncestors {machine : RawMachine} {lcaParts tgt : List String} (plain : ∀ k ∈ tgt, Dotted.Plain k) {n} :
    n ∈ ancestorNodes machine lcaParts tgt ↔
      ∃ q, lookupParts machine.states none q = some n ∧ q ≠ tgt ∧ lcaParts.length < q.length ∧ q <+: tgt := by
  have part (i) := @getNodeJoin machine (tgt.take i) (fun j hj => plain j ((List.take_prefix i tgt).subset hj))
  simp only [ancestorNodes,List.mem_filterMap,List.mem_range]
  constructor
  · rintro ⟨i,short,got⟩
    split at got
    · rw [part] at got
      refine ⟨_,got,?_,?_,List.take_prefix _ _⟩
      · intro same
        have := congrArg List.length same
        rw [List.length_take] at this
        omega
      · rw [List.length_take]; omega
    · contradiction
  · rintro ⟨q,stored,other,deep,pre⟩
    have len := pre.length_le
    have strict : q.length ≠ tgt.length := fun same => other (pre.eq_of_length same)
    refine ⟨q.length - 1,by omega,?_⟩
    rw [if_pos (by omega),part,show q.length - 1 + 1 = q.length by omega,← List.prefix_iff_eq_take.mp pre]
    exact stored

section
variable {machine : MachineDefinition} (loaded : Loaded machine) (clean : KeysClean machine.toRawMachine)
  {lcaParts t : List String} {b : String} {target : StateNodeIR}
  (found : lookupParts machine.states none (lcaParts ++ b::t) = some target)
include loaded found

theorem targetFormed : ∃ parentPath key, WellFormed parentPath key target := by
  obtain ⟨ks,k,split⟩ : ∃ ks k, lcaParts ++ b::t = ks ++ [k] :=
    ⟨_,_,(List.dropLast_append_getLast (by simp : lcaParts ++ b::t ≠ [])).symm⟩
  rw [split] at found
  exact ⟨_,_,loadedChain loaded found⟩

include clean

theorem memEntered {n} :
    n ∈ ancestorNodes machine.toRawMachine lcaParts (lcaParts ++ b::t) ++ (enterSubtree target).nodes ↔
      ∃ q, lookupParts machine.states none q = some n ∧ EnteredChain target lcaParts (lcaParts ++ b::t) q := by
  obtain ⟨_,_,formed⟩ := targetFormed loaded found
  rw [List.mem_append,memAncestors (plainChain clean found),memEnterNodes formed]
  constructor
  · rintro (⟨q,stored,_,deep,pre⟩ | rfl | ⟨r,stored,enters⟩)
    · exact ⟨q,stored,.inl ⟨deep,pre⟩⟩
    · exact ⟨_,found,.inl ⟨by simp,List.prefix_refl _⟩⟩
    · have some : r ≠ [] := by rintro rfl; exact entersSome enters
      refine ⟨lcaParts ++ b::t ++ r,?_,.inr ⟨r,some,rfl,enters⟩⟩
      rw [lookupPartsAppend found (by simp),lookupPartsCurrent _ _ none some]
      exact stored
  · rintro ⟨q,stored,⟨deep,pre⟩ | ⟨r,some,rfl,enters⟩⟩
    · by_cases same : q = lcaParts ++ b::t
      · subst q
        exact .inr (.inl (Option.some.inj (stored.symm.trans found)))
      · exact .inl ⟨q,stored,same,deep,pre⟩
    · rw [lookupPartsAppend found (by simp),lookupPartsCurrent _ _ none some] at stored
      exact .inr (.inr ⟨r,stored,enters⟩)

theorem enteredNodup :
    (ancestorNodes machine.toRawMachine lcaParts (lcaParts ++ b::t) ++ (enterSubtree target).nodes).Nodup := by
  obtain ⟨_,_,formed⟩ := targetFormed loaded found
  have plain := plainChain clean found
  have part (i) := @getNodeJoin machine.toRawMachine ((lcaParts ++ b::t).take i)
    (fun j hj => plain j ((List.take_prefix i _).subset hj))
  have below {r n} (stored : lookupParts target.states none r = some n) :
      lookupParts machine.states none (lcaParts ++ b::t ++ r) = some n := by
    have some : r ≠ [] := by rintro rfl; simp [lookupParts] at stored
    rw [lookupPartsAppend found (by simp),lookupPartsCurrent _ _ none some]
    exact stored
  refine List.nodup_append'.mpr ⟨?_,?_,?_⟩
  · refine List.Pairwise.filterMap _ ?_ (List.Pairwise.and_mem.mp List.nodup_range)
    rintro i j ⟨hi,hj,other⟩ n got n' got' rfl
    rw [List.mem_range] at hi hj
    split at got
    · split at got'
      · rw [part] at got got'
        have same := congrArg List.length (lookupInj loaded clean got got')
        rw [List.length_take,List.length_take] at same
        omega
      · contradiction
    · contradiction
  · refine enterNodesNodup formed (fun r r' n h h' => ?_) (fun r h => ?_)
    · exact List.append_cancel_left (lookupInj loaded clean (below h) (below h'))
    · have same := lookupInj loaded clean (below h) found
      have none : r = [] := by simpa using same
      subst r
      simp [lookupParts] at h
  · intro n first second
    obtain ⟨q,stored,other,_,pre⟩ := (memAncestors plain).mp first
    rcases (memEnterNodes formed).mp second with rfl | ⟨r,deeper,_⟩
    · exact other (lookupInj loaded clean stored found)
    · have same := lookupInj loaded clean stored (below deeper)
      have := pre.length_le
      have some : r ≠ [] := by rintro rfl; simp [lookupParts] at deeper
      have pos := List.length_pos_iff.mpr some
      rw [same,List.length_append] at this
      omega

end

theorem balanced {machine : MachineDefinition} (loaded : Loaded machine) {current lcaParts a s b t target}
    (legal : Legal machine.toRawMachine current)
    (source : isActive machine.states current (lcaParts ++ a::s) = true)
    (found : lookupParts machine.states none (lcaParts ++ b::t) = some target) :
    (∀ q n, lookupParts machine.states none q = some n →
      (NextActive machine.toRawMachine current target (Retained machine.toRawMachine current lcaParts (b::t)) []
          (lcaParts ++ b::t) q ↔
        isActive machine.states current q = true ∧ ¬lcaParts ++ [a] <+: q ∨ EnteredChain target lcaParts (lcaParts ++ b::t) q)) ↔
      Balanced machine.toRawMachine current (lcaParts ++ a::s) (lcaParts ++ b::t) lcaParts :=
  ⟨balancedNeeded loaded legal source found,fun h _ _ => balancedEnough loaded legal source found h⟩

end Dfsm
