import Dfsm.Engine.Active

/-! The nodes a transition exits and enters, against the nodes that stop and start
being active. -/
namespace Dfsm
open Keyed (Record)
open Chains (Parts)

theorem chainSome {regions states v c} (mem : c ∈ valueChains regions states v) : c ≠ [] := by
  cases v with
  | str key => simp [valueChains] at mem; simp [mem]
  | obj entries =>
    rw [valueChains,memEntryChains] at mem
    obtain ⟨key,v,node,_,_,shape⟩ := mem
    split at shape
    · simp [shape]
    · obtain ⟨tail,_,rfl⟩ := shape; simp

theorem chainPlain {regions} {states : Record StateNodeIR} {v c} (plain : plainStates states = true)
    (shaped : Shaped states v) (mem : c ∈ valueChains regions states v) : ∀ k ∈ c, Dotted.Plain k := by
  induction c generalizing regions states v with
  | nil => simp
  | cons key c ih =>
    cases shaped with
    | str found =>
      simp only [valueChains,List.mem_singleton] at mem
      obtain ⟨rfl,rfl⟩ := List.cons.inj mem
      simpa using (plainEntry plain found).1
    | obj unique any known below =>
      rw [valueChains,memEntryChains] at mem
      obtain ⟨key',w,child,here,found,shape⟩ := mem
      obtain ⟨head,under⟩ := plainEntry plain found
      have got := Keyed.getOfMem unique here
      split at shape
      · obtain ⟨rfl,rfl⟩ := List.cons.inj shape
        simpa using head
      · obtain ⟨tail,hc,same⟩ := shape
        obtain ⟨rfl,rfl⟩ := List.cons.inj same
        have rest : ∀ k ∈ c, Dotted.Plain k := by
          obtain ⟨child',found',leaf⟩ := known key w got
          cases Option.some.inj (found.symm.trans found')
          cases h : child.isLeaf with
          | false => exact ih under (below key w child got found h) hc
          | true =>
            rw [leaf h,valueChains,List.mem_singleton] at hc
            subst c
            simpa using head
        intro k inside
        rcases List.mem_cons.mp inside with rfl | inside
        · exact head
        · exact rest k inside

theorem insideJoin {point q : List String} (any : point ≠ []) (some : q ≠ [])
    (plainPoint : ∀ k ∈ point, Dotted.Plain k) (plain : ∀ k ∈ q, Dotted.Plain k) :
    insideSubtree (Dotted.join point) (Dotted.join q) = true ↔ point <+: q := by
  simp only [insideSubtree,Bool.or_eq_true,decide_eq_true_eq]
  rw [Dotted.underJoin any some plainPoint plain,Dotted.joinEmpty plainPoint]
  constructor
  · rintro ((none | same) | ⟨tail,_,rfl⟩)
    · contradiction
    · rw [Dotted.joinInj plain plainPoint same]
    · exact List.prefix_append _ _
  · rintro ⟨tail,rfl⟩
    cases tail with
    | nil => exact .inl (.inr (by simp))
    | cons k tail => exact .inr ⟨_,by simp,rfl⟩

theorem candidateJoin {c : List String} (some : c ≠ []) (plain : ∀ k ∈ c, Dotted.Plain k) :
    candidatePaths (Dotted.join c) = (Chains.ups c).map Dotted.join := by
  simp [candidatePaths,Dotted.splitJoinPlain some plain,Chains.ups]

theorem memExitPaths {machine : RawMachine} (clean : KeysClean machine) {v} (shaped : Shaped machine.states v) {point} (any : point ≠ [])
    (plainPoint : ∀ k ∈ point, Dotted.Plain k) {path} :
    path ∈ exitPaths machine v (Dotted.join point) ↔
      ∃ c ∈ valueChains false machine.states v, ∃ q, q ≠ [] ∧ q <+: c ∧ point <+: q ∧ Dotted.join q = path := by
  rw [exitPaths,List.mem_eraseDups,activeLeafPaths clean shaped,List.mem_flatMap]
  have walk {c} (mem : c ∈ valueChains false machine.states v) :
      path ∈ (candidatePaths (Dotted.join c)).takeWhile (insideSubtree (Dotted.join point)) ↔
        ∃ q, q ≠ [] ∧ q <+: c ∧ point <+: q ∧ Dotted.join q = path := by
    have plain := chainPlain clean shaped mem
    rw [candidateJoin (chainSome mem) plain]
    exact Chains.memTakeWhileUps Dotted.join _ (fun q some pre =>
      insideJoin any some plainPoint (fun k hk => plain k (pre.subset hk))) path
  constructor
  · rintro ⟨leaf,mem,inside⟩
    obtain ⟨c,hc,rfl⟩ := List.mem_map.mp (List.mem_filter.mp mem).1
    exact ⟨c,hc,(walk hc).mp inside⟩
  · rintro ⟨c,hc,q,some,pre,above,rfl⟩
    refine ⟨_,List.mem_filter.mpr ⟨List.mem_map.mpr ⟨c,hc,rfl⟩,?_⟩,(walk hc).mpr ⟨q,some,pre,above,rfl⟩⟩
    exact (insideJoin any (chainSome hc) plainPoint (chainPlain clean shaped hc)).mpr (above.trans pre)

theorem pathJoin {machine : MachineDefinition} (loaded : Loaded machine) (clean : KeysClean machine.toRawMachine)
    {q n} (found : lookupParts machine.states none q = some n) : n.path = Dotted.join q := by
  have plain := plainChain clean found
  cases q using List.reverseRecOn with
  | nil => simp [lookupParts] at found
  | append_singleton front k =>
    have plainFront (j) (mem : j ∈ front) := plain j (List.mem_append_left _ mem)
    cases loadedChain loaded found with
    | node _ same _ _ _ => rw [same,pathOfJoin plainFront,childPathJoin plainFront]

theorem lookupInj {machine : MachineDefinition} (loaded : Loaded machine) (clean : KeysClean machine.toRawMachine)
    {q q' n} (found : lookupParts machine.states none q = some n) (found' : lookupParts machine.states none q' = some n) :
    q = q' :=
  Dotted.joinInj (plainChain clean found) (plainChain clean found')
    ((pathJoin loaded clean found).symm.trans (pathJoin loaded clean found'))

section
variable {machine : MachineDefinition} (loaded : Loaded machine) (clean : KeysClean machine.toRawMachine) {v : StateValue}
include loaded clean

theorem memExitNodes (shaped : Shaped machine.states v) {point} (any : point ≠ [])
    (plainPoint : ∀ k ∈ point, Dotted.Plain k) {n} :
    n ∈ exitNodes machine.toRawMachine v (Dotted.join point) ↔
      ∃ q, lookupParts machine.states none q = some n ∧ isActive machine.states v q = true ∧ point <+: q := by
  have valid (k child) (here : Keyed.get machine.states k = some child) : Valid child :=
    wellFormedValid (loadedWellFormed loaded _ (Keyed.getSome here))
  rw [exitNodes,List.mem_filterMap]
  constructor
  · rintro ⟨path,mem,got⟩
    obtain ⟨c,hc,q,some,pre,above,rfl⟩ := (memExitPaths clean shaped any plainPoint).mp mem
    rw [getNodeJoin (fun k hk => chainPlain clean shaped hc k (pre.subset hk))] at got
    exact ⟨q,got,chainActive shaped valid hc pre some got,above⟩
  · rintro ⟨q,found,active,above⟩
    obtain ⟨c,hc,pre⟩ := activeOnChain shaped active
    have some : q ≠ [] := by rintro rfl; simp [isActive] at active
    refine ⟨_,(memExitPaths clean shaped any plainPoint).mpr ⟨c,hc,q,some,pre,above,rfl⟩,?_⟩
    rw [getNodeJoin (plainChain clean found),found]

theorem exitNodesNodup (shaped : Shaped machine.states v) {point} (any : point ≠ [])
    (plainPoint : ∀ k ∈ point, Dotted.Plain k) :
    (exitNodes machine.toRawMachine v (Dotted.join point)).Nodup := by
  have unique : (exitPaths machine.toRawMachine v (Dotted.join point)).Nodup := Chains.eraseDupsNodup _
  rw [exitNodes]
  refine List.Pairwise.filterMap _ ?_ (List.Pairwise.and_mem.mp unique)
  rintro a a' ⟨mem,mem',other⟩ n got n' got' rfl
  obtain ⟨c,hc,q,_,pre,_,rfl⟩ := (memExitPaths clean shaped any plainPoint).mp mem
  obtain ⟨c',hc',q',_,pre',_,rfl⟩ := (memExitPaths clean shaped any plainPoint).mp mem'
  rw [getNodeJoin (fun k hk => chainPlain clean shaped hc k (pre.subset hk))] at got
  rw [getNodeJoin (fun k hk => chainPlain clean shaped hc' k (pre'.subset hk))] at got'
  exact other (by rw [lookupInj loaded clean got got'])

end

/-- The children a container starts in when it is entered. -/
def Starts (node : StateNodeIR) (key : String) : Prop :=
  node.type = .parallel ∨ node.type = .compound ∧ node.initial = some key

theorem entersSome {node : StateNodeIR} : ¬Enters node [] := by
  rintro ⟨sub,_,active⟩
  simp [isActive] at active

theorem slotEnters {states : Record StateNodeIR} {child parentPath start key r}
    (found : Keyed.get states start = some child) (formed : WellFormed parentPath start child) :
    isActive states ((enterSubtree child).slot start) (key::r) = true ↔
      key = start ∧ (r = [] ∨ Enters child r) := by
  cases leaf : child.isLeaf with
  | true =>
    rw [enterLeaf leaf]
    simp only [Entered.slot,isActive,Enters,enterLeaf leaf,Bool.and_eq_true,decide_eq_true_eq,List.isEmpty_iff]
    constructor
    · rintro ⟨⟨rfl,rfl⟩,_⟩; exact ⟨rfl,.inl rfl⟩
    · rintro ⟨rfl,rfl | ⟨_,none,_⟩⟩
      · simp [Keyed.has,found]
      · contradiction
  | false =>
    obtain ⟨sub,contributed,_⟩ := enterLegal formed leaf
    simp only [Entered.slot,contributed,isActive,Enters,Keyed.getSingle]
    by_cases same : key = start
    · subst key; simp [found,leaf]
    · simp [same]

/-- Entering a node makes a child active when the node starts in it, and below the child what the child enters. -/
theorem entersCons {node parentPath own} (formed : WellFormed parentPath own node) {key r} :
    Enters node (key::r) ↔ Starts node key ∧ ∃ child, Keyed.get node.states key = some child ∧ (r = [] ∨ Enters child r) := by
  cases formed with
  | node _ _ unique valid children =>
    cases valid with
    | leaf leaf empty =>
      simp [Enters,enterLeaf leaf,empty]
    | compound type start found =>
      rename_i initial child _
      have formedChild := children _ (Keyed.getSome found)
      have childKey : child.key = initial := wellFormedKey formedChild
      have entered : Enters node (key::r) ↔
          isActive node.states ((enterSubtree child).slot initial) (key::r) = true := by
        simp [Enters,enterCompound type start found,childKey]
      rw [entered,slotEnters found formedChild]
      simp only [Starts,type,start,reduceCtorEq,false_or,true_and,Option.some.injEq]
      constructor
      · rintro ⟨rfl,below⟩; exact ⟨rfl,child,found,below⟩
      · rintro ⟨rfl,other,here,below⟩
        cases Option.some.inj (found.symm.trans here)
        exact ⟨rfl,below⟩
    | parallel type =>
      simp only [Enters,enterParallel type,Option.some.injEq,exists_eq_left',Starts,type,true_or,true_and,isActive]
      cases hg : Keyed.get node.states key with
      | none => split <;> simp_all
      | some child =>
        rw [getRegionEntry hg]
        have formedChild := children _ (Keyed.getSome hg)
        cases leaf : child.isLeaf with
        | true => simp [enterLeaf leaf,leaf]
        | false =>
          obtain ⟨sub,contributed,_⟩ := enterLegal formedChild leaf
          simp [contributed,leaf]

theorem lookupCons {states : Record StateNodeIR} {key child} (here : Keyed.get states key = some child) {r n} :
    lookupParts states none (key::r) = some n ↔ r = [] ∧ n = child ∨ lookupParts child.states none r = some n := by
  cases r with
  | nil => simp [lookupParts,here,eq_comm]
  | cons j tail => simp [lookupParts,here]

theorem memEnterNodes {parentPath key node} (formed : WellFormed parentPath key node) {n} :
    n ∈ (enterSubtree node).nodes ↔ n = node ∨ ∃ r, lookupParts node.states none r = some n ∧ Enters node r := by
  have whole := formed
  induction formed with
  | node sameKey samePath unique valid children ih =>
    rename_i parentPath key node
    -- below the node: a child it starts in, or what that child enters
    have split : (∃ r, lookupParts node.states none r = some n ∧ Enters node r) ↔
        ∃ k child, Keyed.get node.states k = some child ∧ Starts node k ∧ n ∈ (enterSubtree child).nodes := by
      constructor
      · rintro ⟨r,found,enters⟩
        cases r with
        | nil => exact absurd enters entersSome
        | cons k r =>
          obtain ⟨starts,child,here,below⟩ := (entersCons whole).mp enters
          refine ⟨k,child,here,starts,(ih _ (Keyed.getSome here) (children _ (Keyed.getSome here))).mpr ?_⟩
          rcases (lookupCons here).mp found with ⟨_,same⟩ | deeper
          · exact .inl same
          · rcases below with rfl | enters
            · simp [lookupParts] at deeper
            · exact .inr ⟨r,deeper,enters⟩
      · rintro ⟨k,child,here,starts,mem⟩
        rcases (ih _ (Keyed.getSome here) (children _ (Keyed.getSome here))).mp mem with rfl | ⟨r,deeper,enters⟩
        · exact ⟨[k],by simp [lookupParts,here],(entersCons whole).mpr ⟨starts,n,here,.inl rfl⟩⟩
        · exact ⟨k::r,(lookupCons here).mpr (.inr deeper),(entersCons whole).mpr ⟨starts,child,here,.inr enters⟩⟩
    rw [split]
    cases valid with
    | leaf leaf empty => simp [enterLeaf leaf,empty]
    | compound type start found =>
      rw [enterCompound type start found]
      simp only [List.mem_cons,Starts,type,start,reduceCtorEq,false_or,true_and,Option.some.injEq]
      constructor
      · rintro (same | mem)
        · exact .inl same
        · exact .inr ⟨_,_,found,rfl,mem⟩
      · rintro (same | ⟨k,child,here,rfl,mem⟩)
        · exact .inl same
        · cases Option.some.inj (found.symm.trans here); exact .inr mem
    | parallel type =>
      rw [enterParallel type]
      simp only [List.mem_cons,Starts,type,true_or,true_and,List.mem_flatMap]
      constructor
      · rintro (same | ⟨e,here,mem⟩)
        · exact .inl same
        · exact .inr ⟨e.1,e.2,Keyed.getOfMem unique here,mem⟩
      · rintro (same | ⟨k,child,here,mem⟩)
        · exact .inl same
        · exact .inr ⟨(k,child),Keyed.getSome here,mem⟩

theorem enterNodesNodup {parentPath key node} (formed : WellFormed parentPath key node)
    (apart : ∀ r r' n, lookupParts node.states none r = some n → lookupParts node.states none r' = some n → r = r')
    (self : ∀ r, lookupParts node.states none r ≠ some node) : (enterSubtree node).nodes.Nodup := by
  induction formed with
  | node sameKey samePath unique valid children ih =>
    rename_i parentPath key node
    have child {k child} (here : Keyed.get node.states k = some child) : (enterSubtree child).nodes.Nodup := by
      refine ih _ (Keyed.getSome here) ?_ ?_
      · intro r r' n found found'
        have := apart (k::r) (k::r') n ((lookupCons here).mpr (.inr found)) ((lookupCons here).mpr (.inr found'))
        exact (List.cons.inj this).2
      · intro r found
        have := apart (k::r) [k] child ((lookupCons here).mpr (.inr found)) (by simp [lookupParts,here])
        obtain rfl := (List.cons.inj this).2
        simp [lookupParts] at found
    have chain {k child n} (here : Keyed.get node.states k = some child) (mem : n ∈ (enterSubtree child).nodes) :
        ∃ r, lookupParts node.states none (k::r) = some n := by
      rcases (memEnterNodes (children _ (Keyed.getSome here))).mp mem with rfl | ⟨r,found,_⟩
      · exact ⟨[],by simp [lookupParts,here]⟩
      · exact ⟨r,(lookupCons here).mpr (.inr found)⟩
    cases valid with
    | leaf leaf => simp [enterLeaf leaf]
    | compound type start found =>
      rw [enterCompound type start found,List.nodup_cons]
      refine ⟨fun mem => ?_,child found⟩
      obtain ⟨r,same⟩ := chain found mem
      exact self _ same
    | parallel type =>
      rw [enterParallel type,List.nodup_cons,List.nodup_flatMap]
      refine ⟨fun mem => ?_,fun e mem => child (Keyed.getOfMem unique mem),?_⟩
      · obtain ⟨e,here,mem⟩ := List.mem_flatMap.mp mem
        obtain ⟨r,same⟩ := chain (Keyed.getOfMem unique here) mem
        exact self _ same
      · have keysApart : node.states.Pairwise (fun e f => e.1 ≠ f.1) := List.pairwise_map.mp unique
        refine (List.Pairwise.and_mem.mp keysApart).imp ?_
        rintro e f ⟨he,hf,other⟩ n left right
        obtain ⟨r,foundLeft⟩ := chain (Keyed.getOfMem unique he) left
        obtain ⟨r',foundRight⟩ := chain (Keyed.getOfMem unique hf) right
        exact other (List.cons.inj (apart _ _ n foundLeft foundRight)).1

/-! What legality says of the current value at one chain. -/

theorem legalInAt {type} {states stored : Record StateNodeIR} {v q node} (legal : LegalIn type states v)
    (same : ∀ k child, Keyed.get stored k = some child → child.isLeaf = false → Keyed.get states k = some child)
    (formed : ∀ k child, Keyed.get stored k = some child → Valid child)
    (active : isActive stored v q = true) (found : lookupParts stored none q = some node) (inner : node.isLeaf = false) :
    ∃ u, extractCursor v q = some u ∧ LegalIn node.type node.states u := by
  induction q generalizing type states stored v with
  | nil => simp [isActive] at active
  | cons key q ih =>
    obtain ⟨child,here,below⟩ := lookupHead found
    have container : child.isLeaf = false := by
      cases q with
      | nil => cases Option.some.inj below; exact inner
      | cons j q =>
        obtain ⟨_,next,_⟩ := lookupHead below
        exact innerOfChild (formed key child here) next
    have stands := same key child here container
    cases v with
    | str s =>
      simp only [isActive,Bool.and_eq_true,decide_eq_true_eq] at active
      obtain ⟨⟨rfl,_⟩,_⟩ := active
      cases legal with
      | leafChild other leaf =>
        cases Option.some.inj (stands.symm.trans other)
        rw [leaf] at container; contradiction
    | obj entries =>
      simp only [isActive,here] at active
      split at active
      · rename_i w child' got same'
        cases Option.some.inj same'
        have legalBelow := legalEntry legal stands container got
        cases q with
        | nil =>
          cases Option.some.inj below
          exact ⟨w,by simp [extractCursor,got],legalBelow⟩
        | cons j q =>
          rw [lookupPartsCurrent _ _ none (by simp)] at below
          simp only [List.isEmpty_cons,Bool.false_or,Bool.and_eq_true] at active
          obtain ⟨u,held,last⟩ := ih legalBelow (fun _ _ h _ => h)
            (fun k c hk => validChildren (formed key child here) _ (Keyed.getSome hk)) active.2 below
          exact ⟨u,by simpa [extractCursor,got] using held,last⟩
      · contradiction

theorem singleKey {states key v k q} (active : isActive states (.obj [(key,v)]) (k::q) = true) : k = key := by
  by_contra other
  simp [isActive,other] at active

section
variable {machine : MachineDefinition} (loaded : Loaded machine) {current : StateValue}
  (legal : Legal machine.toRawMachine current)
include loaded legal

theorem legalAt {q node} (active : isActive machine.states current q = true)
    (found : lookupParts machine.states none q = some node) (inner : node.isLeaf = false) :
    ∃ u, extractCursor current q = some u ∧ LegalIn node.type node.states u := by
  have valid (k child) (here : Keyed.get machine.states k = some child) : Valid child :=
    wellFormedValid (loadedWellFormed loaded _ (Keyed.getSome here))
  rcases legal with legal | ⟨_,rfl,error,here,leaf⟩
  · exact legalInAt legal (fun k child here inner => innerRoot loaded here inner) valid active found inner
  · cases q with
    | nil => simp [isActive] at active
    | cons k q =>
      simp only [isActive,Bool.and_eq_true,decide_eq_true_eq,List.isEmpty_iff] at active
      obtain ⟨⟨rfl,rfl⟩,_⟩ := active
      simp only [lookupParts,here] at found
      cases found
      rw [leaf] at inner; contradiction

theorem legalRegions {q node} (active : isActive machine.states current q = true)
    (found : lookupParts machine.states none q = some node) (parallel : node.type = .parallel) :
    Kept machine.toRawMachine current q ∧ ∀ k ∈ Keyed.keys node.states, isActive machine.states current (q ++ [k]) = true := by
  have valid (k child) (here : Keyed.get machine.states k = some child) : Valid child :=
    wellFormedValid (loadedWellFormed loaded _ (Keyed.getSome here))
  have inner : node.isLeaf = false := by simp [StateNodeIR.isLeaf,parallel]
  have step : q ≠ [] := by rintro rfl; simp [isActive] at active
  obtain ⟨u,held,legalHere⟩ := legalAt loaded legal active found inner
  rw [parallel] at legalHere
  cases legalHere with
  | regions unique all =>
    refine ⟨⟨(parallelAtNode found).mpr parallel,_,held⟩,fun k mem => ?_⟩
    rw [activeBelow valid found inner held step (by simp)]
    obtain ⟨w,got⟩ := Option.isSome_iff_exists.mp (Keyed.getIsSome.mpr ((all k).mpr mem))
    obtain ⟨child,here⟩ := Option.isSome_iff_exists.mp (Keyed.getIsSome.mpr mem)
    simp [isActive,got,here]

theorem legalSiblings {front a j} (active : isActive machine.states current (front ++ [a]) = true)
    (other : isActive machine.states current (front ++ [j]) = true) (apart : j ≠ a) :
    Kept machine.toRawMachine current front := by
  have several {type} {states stored : Record StateNodeIR} {v} (legal : LegalIn type states v)
      (first : isActive stored v [a] = true) (second : isActive stored v [j] = true) :
      type = .parallel ∧ ∃ entries, v = .obj entries := by
    cases legal with
    | leafChild =>
      simp only [isActive,Bool.and_eq_true,decide_eq_true_eq] at first second
      exact absurd (second.1.1.symm.trans first.1.1) apart
    | nested =>
      exact absurd ((singleKey second).trans (singleKey first).symm) apart
    | regions => exact ⟨rfl,_,rfl⟩
  cases front with
  | nil =>
    rcases legal with legal | ⟨_,rfl,_⟩
    · obtain ⟨parallel,entries,rfl⟩ := several legal active other
      refine ⟨?_,entries,rfl⟩
      cases ht : machine.type with
      | compound => simp [ht,MachineType.node] at parallel
      | parallel => exact ht
    · simp only [List.nil_append,isActive,Bool.and_eq_true,decide_eq_true_eq] at active other
      exact absurd (other.1.1.symm.trans active.1.1) apart
  | cons k front =>
    obtain ⟨node,u,found,inner,held,below⟩ := activeHeld (by simp) (by simp) active
    obtain ⟨node',u',found',_,held',below'⟩ := activeHeld (by simp) (by simp) other
    cases Option.some.inj (found.symm.trans found')
    cases Option.some.inj (held.symm.trans held')
    obtain ⟨u'',held'',legalHere⟩ := legalAt loaded legal (activePrefix (by simp) active) found inner
    cases Option.some.inj (held.symm.trans held'')
    obtain ⟨parallel,entries,rfl⟩ := several legalHere below below'
    exact ⟨(parallelAtNode found).mpr parallel,entries,held⟩

end

end Dfsm
