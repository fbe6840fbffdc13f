import Dfsm.Engine.Accounting
import Dfsm.Engine.Completion
import Dfsm.Lib.Visits

/-! The order in which a transition runs its effects: exits from the leaves up, entries
from the top down. The exits are collected leaf by leaf, so a container is left with
its first leaf. -/
namespace Dfsm
open Keyed (Record)
open Chains (Before)

/-- Each key on the way is the first of its map. -/
def firstWay : StateValue → List String → Bool
  | _, [] => true
  | .str key, k::ks => key = k && ks.isEmpty
  | .obj [], _::_ => false
  | .obj ((key,v)::_), k::ks => key = k && firstWay v ks

section
variable {regions : Bool} {states : Record StateNodeIR} {key : String} {child : StateNodeIR}

theorem leafChains (found : Keyed.get states key = some child) (leaf : child.isLeaf = true) :
    ∃ c, chainsOfEntry regions states (key,.str key) = [key::c] := by
  cases regions with
  | true => exact ⟨[],by simp [chainsOfEntry,found,leaf]⟩
  | false => exact ⟨[key],by simp [chainsOfEntry,found,valueChains]⟩

theorem innerChains (found : Keyed.get states key = some child) (inner : child.isLeaf = false) (w : StateValue) :
    chainsOfEntry regions states (key,w) = (valueChains (!regions && child.type = .parallel) child.states w).map (key::·) := by
  simp [chainsOfEntry,found,inner]

end

theorem activeEntry {states : Record StateNodeIR} {entries : Record StateValue} {key child w q}
    (found : Keyed.get states key = some child) (got : Keyed.get entries key = some w) (some_ : q ≠ []) :
    isActive states (.obj entries) (key::q) = true ↔ child.isLeaf = false ∧ isActive child.states w q = true := by
  simp [isActive,got,found,some_]

theorem firstChain {regions states v} (shaped : Shaped states v) : ∃ c rest, valueChains regions states v = c::rest ∧
    ∀ r, isActive states v r = true → (r <+: c ↔ firstWay v r = true) := by
  induction shaped generalizing regions with
  | @str states key child found leaf =>
    refine ⟨[key],[],by rw [valueChains],fun r active => ?_⟩
    cases r with
    | nil => simp [isActive] at active
    | cons k r =>
      simp only [isActive,Bool.and_eq_true,decide_eq_true_eq,List.isEmpty_iff] at active
      obtain ⟨⟨rfl,rfl⟩,_⟩ := active
      simp [firstWay]
  | @obj states entries unique any known below ih =>
    obtain ⟨⟨key,w⟩,others,rfl⟩ := List.exists_cons_of_ne_nil any
    have got : Keyed.get ((key,w)::others) key = some w := by simp [Keyed.getCons]
    obtain ⟨child,found,only⟩ := known key w got
    -- the first chain of the first entry, by what the chain below it does
    have head {c : List String} (way : child.isLeaf = false → ∀ r, isActive child.states w r = true → (r <+: c ↔ firstWay w r = true))
        (r : List String) (active : isActive states (.obj ((key,w)::others)) r = true) :
        r <+: key::c ↔ firstWay (.obj ((key,w)::others)) r = true := by
      cases r with
      | nil => simp [isActive] at active
      | cons k r =>
        rw [List.cons_prefix_cons,firstWay,Bool.and_eq_true,decide_eq_true_eq,eq_comm]
        refine and_congr_right (fun same => ?_)
        subst same
        by_cases none : r = []
        · subst r; simp [firstWay]
        · obtain ⟨inner,deeper⟩ := (activeEntry found got none).mp active
          exact way inner r deeper
    rw [valueChains,entryChainsFlat,List.flatMap_cons]
    cases leaf : child.isLeaf with
    | true =>
      obtain ⟨c,same⟩ := @leafChains regions _ _ _ found leaf
      rw [only leaf,same]
      refine ⟨key::c,_,rfl,?_⟩
      rw [← only leaf]
      exact head (fun inner => by rw [leaf] at inner; contradiction)
    | false =>
      obtain ⟨c,rest,same,way⟩ := @ih key w child got found leaf (!regions && child.type = .parallel)
      rw [innerChains found leaf,same]
      exact ⟨key::c,_,rfl,head (fun _ => way)⟩

theorem firstThrough {regions states v q} (shaped : Shaped states v) (active : isActive states v q = true) :
    ∃ pre s post, valueChains regions states v = pre ++ (q ++ s)::post ∧ (∀ d ∈ pre, ¬q <+: d) ∧
      ∀ r u, r ≠ [] → isActive states v (q ++ r) = true → extractCursor v q = some u → (r <+: s ↔ firstWay u r = true) := by
  induction q generalizing regions states v with
  | nil => simp [isActive] at active
  | cons key q ih =>
    cases shaped with
    | str found leaf =>
      simp only [isActive,Bool.and_eq_true,decide_eq_true_eq,List.isEmpty_iff] at active
      obtain ⟨⟨rfl,rfl⟩,_⟩ := active
      refine ⟨[],[],[],by simp [valueChains],by simp,fun r u step deeper _ => ?_⟩
      simp [isActive,step] at deeper
    | obj unique any known below =>
      rename_i entries
      obtain ⟨child,w,found,got⟩ : ∃ child w, Keyed.get states key = some child ∧ Keyed.get entries key = some w := by
        simp only [isActive] at active
        split at active
        · rename_i w child got found
          exact ⟨child,w,found,got⟩
        · contradiction
      obtain ⟨_,found',only⟩ := known key w got
      cases Option.some.inj (found.symm.trans found')
      obtain ⟨before,after,split⟩ := List.append_of_mem (Keyed.getSome got)
      have others : ∀ d ∈ before.flatMap (chainsOfEntry regions states), ¬key::q <+: d := by
        intro d mem through
        obtain ⟨e,here,inside⟩ := List.mem_flatMap.mp mem
        obtain ⟨t,rfl⟩ := through
        rw [split,Keyed.keys,List.map_append,List.map_cons] at unique
        exact (List.nodup_append.mp unique).2.2 e.1 (List.mem_map.mpr ⟨e,here,rfl⟩) key (by simp)
          (Option.some.inj (entryHead inside).symm)
      have flat : valueChains regions states (.obj entries) = before.flatMap (chainsOfEntry regions states) ++
          (chainsOfEntry regions states (key,w) ++ after.flatMap (chainsOfEntry regions states)) := by
        rw [valueChains,entryChainsFlat,split,List.flatMap_append,List.flatMap_cons]
      rw [flat]
      cases leaf : child.isLeaf with
      | true =>
        obtain ⟨c,same⟩ := @leafChains regions _ _ _ found leaf
        obtain rfl : q = [] := by
          by_contra deeper
          have inner := ((activeEntry found got deeper).mp active).1
          rw [leaf] at inner
          contradiction
        rw [only leaf,same]
        refine ⟨_,c,_,rfl,others,fun r u step deeper _ => ?_⟩
        have inner := ((activeEntry found got step).mp deeper).1
        rw [leaf] at inner
        contradiction
      | false =>
        have inside := below key w child got found leaf
        rw [innerChains found leaf]
        by_cases last : q = []
        · subst q
          obtain ⟨c,rest,same,way⟩ := @firstChain (!regions && child.type = .parallel) _ _ inside
          rw [same]
          refine ⟨_,c,_,rfl,others,fun r u step deeper held => ?_⟩
          simp only [extractCursor,got,Option.bind_some,Option.some.injEq] at held
          subst u
          exact way r ((activeEntry found got step).mp deeper).2
        · obtain ⟨pre,s,post,same,first,way⟩ := @ih (!regions && child.type = .parallel) _ _ inside ((activeEntry found got last).mp active).2
          rw [same]
          refine ⟨before.flatMap (chainsOfEntry regions states) ++ pre.map (key::·),s,
            post.map (key::·) ++ after.flatMap (chainsOfEntry regions states),by simp,?_,?_⟩
          · intro d mem through
            rcases List.mem_append.mp mem with early | inner
            · exact others d early through
            · obtain ⟨t,here,rfl⟩ := List.mem_map.mp inner
              exact first t here (List.cons_prefix_cons.mp through).2
          · intro r u step deeper held
            have step' : q ++ r ≠ [] := by simp [last]
            refine way r u step ((activeEntry found got step').mp deeper).2 ?_
            simpa [extractCursor,got] using held

theorem takeWhileCongr {α : Type} {p p' : α → Bool} {l : List α} (same : ∀ a ∈ l, p a = p' a) : l.takeWhile p = l.takeWhile p' := by
  induction l with
  | nil => rfl
  | cons a l ih =>
    rw [List.takeWhile_cons,List.takeWhile_cons,same a List.mem_cons_self,ih (fun b mem => same b (List.mem_cons_of_mem _ mem))]

theorem exitPathsWalks {machine : RawMachine} (clean : KeysClean machine) {v} (shaped : Shaped machine.states v) {point}
    (any : point ≠ []) (plainPoint : ∀ k ∈ point, Dotted.Plain k) :
    exitPaths machine v (Dotted.join point) =
      ((Chains.walks point (valueChains false machine.states v)).map Dotted.join).eraseDups := by
  have inside {c q} (mem : c ∈ valueChains false machine.states v) (pre : q <+: c) (some_ : q ≠ []) :
      insideSubtree (Dotted.join point) (Dotted.join q) = point.isPrefixOf q := by
    have plain := chainPlain clean shaped mem
    rw [Bool.eq_iff_iff,insideJoin any some_ plainPoint (fun k hk => plain k (pre.subset hk)),List.isPrefixOf_iff_prefix]
  rw [exitPaths,activeLeafPaths clean shaped,Chains.walks,List.map_flatMap,List.filter_map,List.flatMap_map]
  have kept : (valueChains false machine.states v).filter (insideSubtree (Dotted.join point) ∘ Dotted.join) =
      (valueChains false machine.states v).filter (fun c => point.isPrefixOf c) :=
    List.filter_congr (fun c mem => inside mem (List.prefix_refl _) (chainSome mem))
  rw [kept]
  congr 1
  refine List.flatMap_congr (fun c mem => ?_)
  have here := (List.mem_filter.mp mem).1
  rw [candidateJoin (chainSome here) (chainPlain clean shaped here),List.takeWhile_map]
  congr 1
  refine takeWhileCongr (fun q up => ?_)
  obtain ⟨some_,pre⟩ := Chains.memUps.mp up
  exact inside here pre some_

/-- One stored node stands above another. -/
def Above (machine : RawMachine) (a b : StateNodeIR) : Prop :=
  ∃ q r, r ≠ [] ∧ lookupParts machine.states none q = some a ∧ lookupParts machine.states none (q ++ r) = some b

/-- Exits from below come before those from above, entries from above before those from below. -/
structure EffectsOrdered (machine : RawMachine) (applied : AppliedTransition) : Prop where
  exits : ∀ a ∈ applied.exited, ∀ b ∈ applied.exited, Above machine a b → a.exit ≠ [] → b.exit ≠ [] → Before applied.exited b a
  entries : ∀ a ∈ applied.entered, ∀ b ∈ applied.entered, Above machine a b → a.entry ≠ [] → b.entry ≠ [] → Before applied.entered a b

/-- Below the point, whatever has exit effects under a node that has some is reached by first entries. -/
def BottomUp (machine : RawMachine) (current : StateValue) (point : List String) : Prop :=
  ∀ q r u a b, point <+: q → r ≠ [] → isActive machine.states current (q ++ r) = true →
    lookupParts machine.states none q = some a → lookupParts machine.states none (q ++ r) = some b →
    a.exit ≠ [] → b.exit ≠ [] → extractCursor current q = some u → firstWay u r = true

section
variable {machine : MachineDefinition} (loaded : Loaded machine) (clean : KeysClean machine.toRawMachine)
include loaded clean

theorem aboveChains {a b q q'} (here : lookupParts machine.states none q = some a) (there : lookupParts machine.states none q' = some b) :
    Above machine.toRawMachine a b ↔ ∃ r, r ≠ [] ∧ q' = q ++ r := by
  constructor
  · rintro ⟨p,r,step,stored,below⟩
    rw [lookupInj loaded clean here stored,lookupInj loaded clean there below]
    exact ⟨r,step,rfl⟩
  · rintro ⟨r,step,rfl⟩
    exact ⟨q,r,step,here,there⟩

variable {v : StateValue} {point : List String} (any : point ≠ []) (plainPoint : ∀ k ∈ point, Dotted.Plain k)
include any plainPoint

omit loaded in
theorem exitsBefore (shaped : Shaped machine.states v) {q r u a b} (above : point <+: q) (step : r ≠ [])
    (active : isActive machine.states v (q ++ r) = true) (held : extractCursor v q = some u)
    (stored : lookupParts machine.states none q = some a) (below : lookupParts machine.states none (q ++ r) = some b) :
    if firstWay u r then Before (exitNodes machine.toRawMachine v (Dotted.join point)) b a
      else Before (exitNodes machine.toRawMachine v (Dotted.join point)) a b := by
  have start : q ≠ [] := by
    rintro rfl
    exact any (List.prefix_nil.mp above)
  obtain ⟨pre,s,post,split,first,way⟩ := @firstThrough false _ _ _ shaped (activePrefix start active)
  have plainLow := plainChain clean below
  have plainHigh := plainChain clean stored
  have apart : Dotted.join q ≠ Dotted.join (q ++ r) := by
    intro same
    exact step (by simpa using Dotted.joinInj plainHigh plainLow same)
  have node {p n} (plain : ∀ k ∈ p, Dotted.Plain k) (found : lookupParts machine.states none p = some n) :
      getNodeByPath machine.toRawMachine (Dotted.join p) = some n := by rw [getNodeJoin plain,found]
  have lift {p p' n n'} (plain : ∀ k ∈ p, Dotted.Plain k) (found : lookupParts machine.states none p = some n)
      (plain' : ∀ k ∈ p', Dotted.Plain k) (found' : lookupParts machine.states none p' = some n')
      (before : Before (exitPaths machine.toRawMachine v (Dotted.join point)) (Dotted.join p) (Dotted.join p')) :
      Before (exitNodes machine.toRawMachine v (Dotted.join point)) n n' := by
    have both := before.filterMap (getNodeByPath machine.toRawMachine)
    rw [List.filterMap_cons_some (node plain found),List.filterMap_cons_some (node plain' found'),List.filterMap_nil] at both
    exact both
  have walked (p) (mem : p ∈ Chains.walks point (valueChains false machine.states v)) : ∀ k ∈ p, Dotted.Plain k := by
    obtain ⟨c,chain,pre⟩ := Chains.walksUnder mem
    exact fun k inside => chainPlain clean shaped chain k (pre.subset inside)
  split
  · rename_i goes
    obtain ⟨front,back,walk,fresh,after⟩ := Chains.walkedBelow split first start above step ((way r u step active held).mpr goes)
    refine lift plainLow below plainHigh stored ?_
    rw [exitPathsWalks clean shaped any plainPoint,walk,List.map_append,List.map_cons]
    refine Chains.beforeFirst rfl ?_ (List.mem_map.mpr ⟨q,after,rfl⟩) apart.symm
    intro early
    obtain ⟨p,mem,same⟩ := List.mem_map.mp early
    have := Dotted.joinInj (walked p (walk ▸ List.mem_append_left _ mem)) plainHigh same
    exact fresh (this ▸ mem)
  · rename_i other
    obtain ⟨c,mem,through⟩ := @activeOnChain false _ _ _ shaped active
    obtain ⟨front,back,walk,fresh,after⟩ := Chains.walkedAfter split first start above step
      (fun goes => other ((way r u step active held).mp goes)) ⟨c,mem,through⟩
    refine lift plainHigh stored plainLow below ?_
    rw [exitPathsWalks clean shaped any plainPoint,walk,List.map_append,List.map_cons]
    refine Chains.beforeFirst rfl ?_ (List.mem_map.mpr ⟨q ++ r,after,rfl⟩) apart
    intro early
    obtain ⟨p,mem,same⟩ := List.mem_map.mp early
    have := Dotted.joinInj (walked p (walk ▸ List.mem_append_left _ mem)) plainLow same
    exact fresh (this ▸ mem)

end

section
variable {machine : MachineDefinition} (loaded : Loaded machine) (clean : KeysClean machine.toRawMachine)
include loaded clean

theorem entersDown {parentPath key node} (formed : WellFormed parentPath key node) {p}
    (stored : lookupParts machine.states none p = some node) :
    (enterSubtree node).nodes.Pairwise (fun a b => ¬Above machine.toRawMachine b a) := by
  induction formed generalizing p with
  | node sameKey samePath unique valid children ih =>
    rename_i parentPath key node
    have step : p ≠ [] := by rintro rfl; simp [lookupParts] at stored
    have below {k child} (here : Keyed.get node.states k = some child) : lookupParts machine.states none (p ++ [k]) = some child := by
      rw [lookupPartsAppend stored step]
      simp [lookupParts,here]
    have chain {k child n} (here : Keyed.get node.states k = some child) (mem : n ∈ (enterSubtree child).nodes) :
        ∃ r, lookupParts machine.states none (p ++ k::r) = some n := by
      rcases (memEnterNodes (children _ (Keyed.getSome here))).mp mem with rfl | ⟨r,found,_⟩
      · exact ⟨[],below here⟩
      · refine ⟨r,?_⟩
        rw [lookupPartsAppend stored step]
        exact (lookupCons here).mpr (.inr found)
    have first {k child n} (here : Keyed.get node.states k = some child) (mem : n ∈ (enterSubtree child).nodes) :
        ¬Above machine.toRawMachine n node := by
      obtain ⟨r,found⟩ := chain here mem
      rw [aboveChains loaded clean found stored]
      rintro ⟨t,_,same⟩
      have := congrArg List.length same
      simp at this
    cases valid with
    | leaf leaf => simp [enterLeaf leaf]
    | compound type start found =>
      rw [enterCompound type start found,List.pairwise_cons]
      exact ⟨fun n mem => first found mem,ih _ (Keyed.getSome found) (below found)⟩
    | parallel type =>
      rw [enterParallel type,List.pairwise_cons,List.pairwise_flatMap]
      refine ⟨fun n mem => ?_,fun e mem => ih _ mem (below (Keyed.getOfMem unique mem)),?_⟩
      · obtain ⟨e,here,mem⟩ := List.mem_flatMap.mp mem
        exact first (Keyed.getOfMem unique here) mem
      · have keysApart : node.states.Pairwise (fun e f => e.1 ≠ f.1) := List.pairwise_map.mp unique
        refine (List.Pairwise.and_mem.mp keysApart).imp ?_
        rintro e f ⟨he,hf,other⟩ n left n' right
        obtain ⟨r,foundLeft⟩ := chain (Keyed.getOfMem unique he) left
        obtain ⟨r',foundRight⟩ := chain (Keyed.getOfMem unique hf) right
        rw [aboveChains loaded clean foundRight foundLeft]
        rintro ⟨t,_,same⟩
        rw [List.append_assoc] at same
        exact other (List.cons.inj (List.append_cancel_left same)).1

variable {lcaParts t : List String} {b : String} {target : StateNodeIR}
  (found : lookupParts machine.states none (lcaParts ++ b::t) = some target)
include found

theorem enteredDown : (ancestorNodes machine.toRawMachine lcaParts (lcaParts ++ b::t) ++ (enterSubtree target).nodes).Pairwise
    (fun n n' => ¬Above machine.toRawMachine n' n) := by
  obtain ⟨_,_,formed⟩ := targetFormed loaded found
  have plain := plainChain clean found
  have part (i) := @getNodeJoin machine.toRawMachine ((lcaParts ++ b::t).take i)
    (fun j hj => plain j ((List.take_prefix i _).subset hj))
  refine List.pairwise_append.mpr ⟨?_,entersDown loaded clean formed found,?_⟩
  · refine List.Pairwise.filterMap _ ?_ (List.Pairwise.and_mem.mp (@List.pairwise_lt_range _))
    rintro i j ⟨hi,hj,short⟩ n got n' got'
    rw [List.mem_range] at hi hj
    split at got
    · split at got'
      · rw [part] at got got'
        rw [aboveChains loaded clean got' got]
        rintro ⟨r,_,same⟩
        have := congrArg List.length same
        rw [List.length_append,List.length_take,List.length_take] at this
        omega
      · contradiction
    · contradiction
  · intro n first n' second
    obtain ⟨q,stored,other,_,pre⟩ := (memAncestors plain).mp first
    have short := pre.length_le
    have chain : ∃ r, lookupParts machine.states none (lcaParts ++ b::t ++ r) = some n' := by
      rcases (memEnterNodes formed).mp second with rfl | ⟨r,deeper,_⟩
      · exact ⟨[],by rw [List.append_nil]; exact found⟩
      · have some_ : r ≠ [] := by rintro rfl; simp [lookupParts] at deeper
        refine ⟨r,?_⟩
        rw [lookupPartsAppend found (by simp),lookupPartsCurrent _ _ none some_]
        exact deeper
    obtain ⟨r,there⟩ := chain
    rw [aboveChains loaded clean there stored]
    rintro ⟨s,step,same⟩
    have := congrArg List.length same
    have := List.length_pos_iff.mpr step
    simp only [List.length_append] at *
    omega

end

theorem downBefore {machine : RawMachine} {l : List StateNodeIR} (down : l.Pairwise (fun n n' => ¬Above machine n' n))
    {a b} (memA : a ∈ l) (memB : b ∈ l) (apart : a ≠ b) (above : Above machine a b) : Before l a b := by
  rcases Chains.beforeEither memA memB apart with before | before
  · exact before
  · exact absurd above (List.pairwise_iff_forall_sublist.mp down before)

/-- A parallel state over a light and a fan, left for a state beside it. -/
def light : StateNodeIR := { key := "light", path := "stage.light", type := .atomic, exit := ["dim"] }

def fan (loud : Bool) : StateNodeIR := { key := "fan", path := "stage.fan", type := .atomic, exit := if loud then ["stop"] else [] }

def stage (loud : Bool) : StateNodeIR :=
  { key := "stage", path := "stage", type := .parallel, exit := ["strike"], on := [("leave",{ event := "leave", target := some "away" })]
    states := [("light",light),("fan",fan loud)] }

def theatre (loud : Bool) : RawMachine :=
  { id := "theatre", initial := some "stage"
    states := [("stage",stage loud),("away",{ key := "away", path := "away", type := .atomic })] }

def running : StateValue := .obj [("light",.str "light"),("fan",.str "fan")]

theorem theatreLoaded (loud) : Loaded (injectErrorState (theatre loud)) := by
  cases loud <;> exact ⟨⟨_,by decide,by decide,if_pos (by decide)⟩⟩

theorem theatreClean (loud) : KeysClean (injectErrorState (theatre loud)).toRawMachine := by
  cases loud <;> decide

theorem theatreLegal (loud) : Legal (injectErrorState (theatre loud)).toRawMachine (.obj [("stage",running)]) := by
  have found : Keyed.get (injectErrorState (theatre loud)).states "stage" = some (stage loud) := rfl
  refine .inl (.nested found rfl (.regions (by decide) (fun _ => Iff.rfl) ?_ ?_))
  · intro k r v here leaf got
    simp only [Keyed.getCons] at got
    split at got
    · rename_i same; subst k; exact (Option.some.inj got).symm
    · split at got
      · rename_i same; subst k; exact (Option.some.inj got).symm
      · contradiction
  · intro k r v here inner got
    simp only [stage,Keyed.getCons] at here
    split at here
    · cases here; contradiction
    · split at here
      · cases here; contradiction
      · contradiction

theorem runningActive {loud r} (active : isActive (stage loud).states running r = true) : r = ["light"] ∨ r = ["fan"] := by
  cases r with
  | nil => simp [isActive] at active
  | cons k r =>
    simp only [isActive,running,stage,Keyed.getCons] at active
    split at active
    · rename_i w child got found
      have leaf : child.isLeaf = true := by
        split at found
        · cases found; rfl
        · split at found
          · cases found; rfl
          · contradiction
      obtain rfl : r = [] := by simpa [leaf] using active
      split at got
      · rename_i same; subst k; exact .inl rfl
      · split at got
        · rename_i same; subst k; exact .inr rfl
        · contradiction
    · contradiction

theorem exitedNodes {machine : RawMachine} {current sourceStatePath targetRef applied}
    (did : applyTargetTransition machine current sourceStatePath targetRef = some applied) :
    ∃ path, given (resolveTargetStatePath machine sourceStatePath targetRef) = some path ∧ applied.exited =
      exitNodes machine current (exitingRootPath sourceStatePath (commonSegments (Dotted.parts sourceStatePath) (Dotted.parts path)).length) := by
  unfold applyTargetTransition at did
  split at did
  · contradiction
  · rename_i path ok
    dsimp only at did
    split at did
    · contradiction
    · cases did
      exact ⟨path,ok,rfl⟩

end Dfsm
