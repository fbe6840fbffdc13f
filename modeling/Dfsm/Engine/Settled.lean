import Dfsm.Engine.Completion

/-! The status a step settles in, against the classification the specification gives
the configuration it settles in. Transitions between regions may leave a configuration
that is not legal, so the configurations are all those the engine can make. -/
namespace Dfsm
open Keyed (Record)

/-- A value that holds leaves as their key and containers by their entries; only a
parallel also holds a leaf as an entry. -/
inductive Stands : StateNodeType → Record StateNodeIR → StateValue → Prop where
  | leafChild {type states key child} (found : Keyed.get states key = some child) (leaf : child.isLeaf = true) :
      Stands type states (.str key)
  | entries {type states entries} (unique : (Keyed.keys entries).Nodup) (any : entries ≠ [])
      (known : ∀ k v, Keyed.get entries k = some v → ∃ child, Keyed.get states k = some child ∧
        (child.isLeaf = true → type = .parallel ∧ v = .str k))
      (below : ∀ k v child, Keyed.get entries k = some v → Keyed.get states k = some child →
        child.isLeaf = false → Stands child.type child.states v) : Stands type states (.obj entries)

theorem standsShaped {type states v} (stands : Stands type states v) : Shaped states v := by
  induction stands with
  | leafChild found leaf => exact .str found leaf
  | entries unique any known below ih =>
    refine .obj unique any (fun k v got => ?_) ih
    obtain ⟨child,found,leaf⟩ := known k v got
    exact ⟨child,found,fun isLeaf => (leaf isLeaf).2⟩

theorem standsSet {type states key child w} {entries : Record StateValue}
    (others : entries = [] ∨ Stands type states (.obj entries)) (found : Keyed.get states key = some child)
    (leaf : child.isLeaf = true → type = .parallel ∧ w = .str key)
    (below : child.isLeaf = false → Stands child.type child.states w) :
    Stands type states (.obj (Keyed.set entries key w)) := by
  have unique : (Keyed.keys entries).Nodup := by
    rcases others with rfl | stands
    · simp [Keyed.keys]
    · cases stands with
      | entries unique => exact unique
  have other (k v) (got : Keyed.get entries k = some v) : Stands type states (.obj entries) := by
    rcases others with rfl | stands
    · simp at got
    · exact stands
  refine .entries (Keyed.setNodup unique _ _) (keysSome ((Keyed.keysSet _ _ _ key).mpr (.inl rfl))) ?_ ?_
  · intro k v got
    rw [Keyed.getSet] at got
    split at got
    · rename_i here
      subst k
      cases got
      exact ⟨child,found,leaf⟩
    · cases other k v got with
      | entries _ _ known => exact known k v got
  · intro k v node got here inner
    rw [Keyed.getSet] at got
    split at got
    · rename_i same
      subst k
      cases got
      cases Option.some.inj (found.symm.trans here)
      exact below inner
    · cases other k v got with
      | entries _ _ _ belowOther => exact belowOther k v node got here inner

theorem standsWithEntry {type states key child v w} (standing : (∃ s, v = .str s) ∨ Stands type states v)
    (found : Keyed.get states key = some child) (inner : child.isLeaf = false)
    (below : Stands child.type child.states w) : Stands type states (withEntry v key w) := by
  have set (entries : Record StateValue) (others : entries = [] ∨ Stands type states (.obj entries)) :
      Stands type states (.obj (Keyed.set entries key w)) :=
    standsSet others found (by simp [inner]) (fun _ => below)
  cases v with
  | str s => exact set [] (.inl rfl)
  | obj entries =>
    refine set entries (.inr ?_)
    rcases standing with ⟨s,same⟩ | stands
    · contradiction
    · exact stands

theorem validInside {child : StateNodeIR} (valid : Valid child) (inner : child.isLeaf = false) : child.states ≠ [] := by
  cases valid with
  | leaf leaf => rw [leaf] at inner; contradiction
  | compound _ _ found => exact List.ne_nil_of_mem (Keyed.getSome found)
  | parallel _ any => exact any

theorem legalStands {type states v} (legal : LegalIn type states v)
    (formed : ∀ k child, Keyed.get states k = some child → Valid child) (any : states ≠ []) : Stands type states v := by
  induction legal with
  | leafChild found leaf => exact .leafChild found leaf
  | nested found inner below ih =>
    rename_i states key child v
    have valid := formed _ _ found
    have stands := ih (fun j c hc => validChildren valid _ (Keyed.getSome hc)) (validInside valid inner)
    exact standsSet (.inl rfl) found (by simp [inner]) (fun _ => stands)
  | regions unique all leaves below ih =>
    rename_i states entries
    have stored (k v) (got : Keyed.get entries k = some v) : ∃ child, Keyed.get states k = some child :=
      Option.isSome_iff_exists.mp (Keyed.getIsSome.mpr ((all k).mp (Keyed.getIsSome.mp (by simp [got]))))
    obtain ⟨e,mem⟩ := List.exists_mem_of_ne_nil _ any
    refine .entries unique (keysSome ((all e.1).mpr (List.mem_map.mpr ⟨e,mem,rfl⟩))) ?_ ?_
    · intro k v got
      obtain ⟨child,found⟩ := stored k v got
      exact ⟨child,found,fun leaf => ⟨rfl,leaves k child v found leaf got⟩⟩
    · intro k v child got found inner
      have valid := formed k child found
      exact ih k child v found inner got (fun j c hc => validChildren valid _ (Keyed.getSome hc)) (validInside valid inner)

/-- What stands for a child below its container, with what stands below it. -/
inductive StandsSlot (child : StateNodeIR) (key : String) : StateValue → Prop where
  | leaf (leaf : child.isLeaf = true) : StandsSlot child key (.str key)
  | inner {w} (inner : child.isLeaf = false) (below : Stands child.type child.states w) :
      StandsSlot child key (.obj [(key,w)])

theorem slotStands {type states key child branch} (found : Keyed.get states key = some child)
    (slot : StandsSlot child key branch) : Stands type states branch := by
  cases slot with
  | leaf leaf => exact .leafChild found leaf
  | inner inner below => exact standsSet (.inl rfl) found (by simp [inner]) (fun _ => below)

theorem slotRegion {states key child branch} {entries : Record StateValue} (found : Keyed.get states key = some child)
    (slot : StandsSlot child key branch) (others : entries = [] ∨ Stands .parallel states (.obj entries)) :
    Stands .parallel states (.obj (Keyed.set entries key (regionValue branch key))) := by
  cases slot with
  | leaf leaf => exact standsSet others found (fun _ => ⟨rfl,rfl⟩) (by simp [leaf])
  | @inner w inner below =>
    have value : regionValue (.obj [(key,w)]) key = w := by simp [regionValue]
    rw [value]
    exact standsSet others found (by simp [inner]) (fun _ => below)

section
variable {machine : RawMachine} {current : StateValue}

/-- Whatever the current value holds below a container stands there. -/
def StandsBelow (current : StateValue) (front : List String) (states : Record StateNodeIR) : Prop :=
  ∀ k child v, Keyed.get states k = some child → child.isLeaf = false →
    extractCursor current (front ++ [k]) = some v → Stands child.type child.states v

theorem standsBelowStep {front states k child} (held : StandsBelow current front states)
    (found : Keyed.get states k = some child) (inner : child.isLeaf = false) :
    StandsBelow current (front ++ [k]) child.states := by
  intro j grandchild w here innerHere got
  rw [extractCursorSnoc] at got
  cases hv : extractCursor current (front ++ [k]) with
  | none => rw [hv] at got; simp at got
  | some v =>
    rw [hv] at got
    have stands := held k child v found inner hv
    cases v with
    | str s => simp [entryAt] at got
    | obj entries =>
      cases stands with
      | entries _ _ _ below => exact below j w grandchild got here innerHere

theorem standsHeld {states : Record StateNodeIR} {front type} (held : ∀ v, extractCursor current front = some v → Stands type states v) :
    (∃ s, (extractCursor current front).getD (.str "") = .str s) ∨
      Stands type states ((extractCursor current front).getD (.str "")) := by
  cases hv : extractCursor current front with
  | none => exact .inl ⟨_,rfl⟩
  | some v => exact .inr (held v hv)

theorem builtBranchStands {front key rest states target parentPath}
    (step : ∀ j tail, lookupParts machine.states none (front ++ j::tail) = lookupParts states none (j::tail))
    (held : StandsBelow current front states)
    (formed : ∀ e ∈ states, WellFormed parentPath e.1 e.2)
    (plain : ∀ j ∈ front ++ key::rest, Dotted.Plain j)
    (found : lookupParts states none (key::rest) = some target) :
    ∃ child, Keyed.get states key = some child ∧ StandsSlot child key
      (builtBranch machine current ((enterSubtree target).slot target.key) front (key::rest)) := by
  induction rest generalizing front key states parentPath with
  | nil =>
    obtain ⟨child,here,same⟩ := lookupHead found
    obtain rfl : child = target := Option.some.inj same
    have formedChild := formed _ (Keyed.getSome here)
    have valid := wellFormedValid formedChild
    refine ⟨child,here,?_⟩
    rw [builtBranch,wellFormedKey formedChild]
    · cases leaf : child.isLeaf with
      | true =>
        rw [enterLeaf leaf]
        exact .leaf leaf
      | false =>
        obtain ⟨v,contributed,legal⟩ := enterLegal formedChild leaf
        rw [Entered.slot,contributed]
        exact .inner leaf (legalStands legal (fun j c hc => validChildren valid _ (Keyed.getSome hc)) (validInside valid leaf))
    · simp
  | cons next tail ih =>
    obtain ⟨child,here,below⟩ := lookupHead found
    have formedChild := formed _ (Keyed.getSome here)
    rw [lookupPartsCurrent _ _ none (by simp)] at below
    obtain ⟨_,hereNext,_⟩ := lookupHead below
    have inner : child.isLeaf = false := innerOfChild (wellFormedValid formedChild) hereNext
    have chain := lookupChild step here
    have plainFront : ∀ j ∈ front ++ [key], Dotted.Plain j := by
      intro j mem
      exact plain j (by simp only [List.mem_append,List.mem_cons,List.not_mem_nil,or_false] at mem ⊢; tauto)
    have stepBelow (j t) : lookupParts machine.states none (front ++ [key] ++ j::t) =
        lookupParts child.states none (j::t) := by
      rw [lookupPartsAppend chain (by simp),lookupPartsCurrent _ _ none (by simp)]
    obtain ⟨grandchild,hereBelow,slot⟩ := ih stepBelow (standsBelowStep held here inner)
      (wellFormedChildren formedChild) (by simpa using plain) below
    refine ⟨child,here,?_⟩
    simp only [builtBranch]
    rw [getNodeJoin plainFront,chain]
    rcases containerType inner with compound | parallel
    · rw [if_neg (by simp [compound])]
      exact .inner inner (slotStands hereBelow slot)
    · rw [if_pos (by simp [parallel]),extractSubStateObject,Dotted.partsJoin plainFront]
      refine .inner inner ?_
      rw [parallel]
      refine slotRegion hereBelow slot ?_
      cases hv : extractCursor current (front ++ [key]) with
      | none => exact .inl rfl
      | some v =>
        cases v with
        | str s => exact .inl rfl
        | obj entries => exact .inr (parallel ▸ held key child _ here inner hv)

theorem replaceAtLcaStands {front key lrest tail next states v parentPath target}
    (step : ∀ j t, lookupParts machine.states none (front ++ j::t) = lookupParts states none (j::t))
    (held : StandsBelow current front states)
    (formed : ∀ e ∈ states, WellFormed parentPath e.1 e.2)
    (plain : ∀ j ∈ front ++ key::(lrest ++ next::tail), Dotted.Plain j)
    (found : lookupParts states none (key::(lrest ++ next::tail)) = some target)
    (value : v = (extractCursor current front).getD (.str "")) :
    ∃ child w, Keyed.get states key = some child ∧ child.isLeaf = false ∧
      replaceAtLca machine v front (builtBranch machine current ((enterSubtree target).slot target.key)
        (front ++ key::lrest) (next::tail)) (key::lrest) = withEntry v key w ∧ Stands child.type child.states w := by
  induction lrest generalizing front key states v parentPath with
  | nil =>
    obtain ⟨child,here,below⟩ := lookupHead found
    have formedChild := formed _ (Keyed.getSome here)
    rw [List.nil_append,lookupPartsCurrent _ _ none (by simp)] at below
    obtain ⟨_,hereNext,_⟩ := lookupHead below
    have inner : child.isLeaf = false := innerOfChild (wellFormedValid formedChild) hereNext
    have chain := lookupChild step here
    have plainFront : ∀ j ∈ front ++ [key], Dotted.Plain j := by
      intro j mem
      exact plain j (by simp only [List.mem_append,List.mem_cons,List.not_mem_nil,or_false] at mem ⊢; tauto)
    have stepBelow (j t) : lookupParts machine.states none (front ++ [key] ++ j::t) =
        lookupParts child.states none (j::t) := by
      rw [lookupPartsAppend chain (by simp),lookupPartsCurrent _ _ none (by simp)]
    obtain ⟨grandchild,hereBelow,slot⟩ := builtBranchStands stepBelow (standsBelowStep held here inner)
      (wellFormedChildren formedChild) (by simpa using plain) below
    refine ⟨child,?_⟩
    generalize builtBranch machine current ((enterSubtree target).slot target.key) (front ++ [key]) (next::tail) = branch at slot
    simp only [replaceAtLca,getNodeJoin plainFront,chain,Option.map_some]
    have whole : Stands child.type child.states branch := slotStands hereBelow slot
    rcases containerType inner with compound | parallel
    · exact ⟨branch,here,inner,by simp [compound],whole⟩
    · cases v with
      | str s => exact ⟨branch,here,inner,by simp [parallel],whole⟩
      | obj entries => cases slot with
        | leaf leaf => exact ⟨.str next,here,inner,by simp [parallel],whole⟩
        | @inner w innerBelow standsBelow =>
          refine ⟨.obj (Keyed.set _ next w),here,inner,by rw [parallel]; rfl,?_⟩
          have cursor : entryAt (.obj entries) key = _ := entryBelow front value
          rw [entryAt] at cursor
          split
          · rename_i regions got
            exact standsSet (.inr (held key child _ here inner (cursor.symm.trans got))) hereBelow (by simp [innerBelow])
              (fun _ => standsBelow)
          · exact standsSet (.inl rfl) hereBelow (by simp [innerBelow]) (fun _ => standsBelow)
  | cons k lrest ih =>
    obtain ⟨child,here,below⟩ := lookupHead found
    have formedChild := formed _ (Keyed.getSome here)
    rw [List.cons_append,lookupPartsCurrent _ _ none (by simp)] at below
    obtain ⟨_,hereNext,_⟩ := lookupHead below
    have inner : child.isLeaf = false := innerOfChild (wellFormedValid formedChild) hereNext
    have chain := lookupChild step here
    have stepBelow (j t) : lookupParts machine.states none (front ++ [key] ++ j::t) =
        lookupParts child.states none (j::t) := by
      rw [lookupPartsAppend chain (by simp),lookupPartsCurrent _ _ none (by simp)]
    have childValue : (entryAt v key).getD (.str "") = (extractCursor current (front ++ [key])).getD (.str "") := by
      rw [entryBelow front value]
    obtain ⟨grandchild,w,hereBelow,innerBelow,shape,stands⟩ := ih stepBelow (standsBelowStep held here inner)
      (wellFormedChildren formedChild) (by simpa using plain) below childValue
    rw [childValue] at shape
    refine ⟨child,withEntry ((extractCursor current (front ++ [key])).getD (.str "")) k w,here,inner,?_,?_⟩
    · simp only [replaceAtLca,childValue]
      rw [← shape]
      simp
    · exact standsWithEntry (standsHeld (fun u hu => held key child u here inner hu)) hereBelow innerBelow stands

end

/-- Configurations the engine can make: initial ones, what a transition makes of one from
whatever source to whatever target, and the error state that recovery writes. -/
inductive Settles (machine : RawMachine) : StateValue → Prop where
  | initial : Settles machine (resolveInitialState machine).1
  | moved {v sourceStatePath targetRef applied} (from_ : Settles machine v)
      (did : applyTargetTransition machine v sourceStatePath targetRef = some applied) : Settles machine applied.nextStateValue
  | failed : Settles machine (.str "error")

section
variable {machine : MachineDefinition} (loaded : Loaded machine) {current : StateValue}
include loaded

theorem legalStandsRoot (legal : Legal machine.toRawMachine current) :
    Stands machine.type.node machine.states current := by
  rcases legal with legal | ⟨_,rfl,error,found,leaf⟩
  · have stands := legalStands legal (fun k child found => wellFormedValid (rootWellFormed loaded found)) (rootSome loaded)
    cases stands with
    | leafChild found leaf => exact .leafChild ((rootGet loaded).mp found).1 leaf
    | entries unique any known below =>
      refine .entries unique any (fun k v got => ?_) (fun k v child got here inner => ?_)
      · obtain ⟨child,found,leaf⟩ := known k v got
        exact ⟨child,((rootGet loaded).mp found).1,leaf⟩
      · exact below k v child got (innerRoot loaded here inner) inner
  · exact .leafChild found leaf

theorem movedStands (standing : (∃ s, current = .str s) ∨ Stands machine.type.node machine.states current)
    {sourceStatePath targetRef applied}
    (did : applyTargetTransition machine.toRawMachine current sourceStatePath targetRef = some applied) :
    Stands machine.type.node machine.states applied.nextStateValue := by
  unfold applyTargetTransition at did
  split at did
  · contradiction
  · rename_i path ok
    obtain ⟨ks,k,target,plain,found,rfl⟩ := resolvedChain loaded ok
    simp only [getNodeJoin plain,found,Dotted.partsJoin plain] at did
    cases did
    dsimp only
    obtain ⟨key,rest,split⟩ := commonSplit (Dotted.parts sourceStatePath) (ks ++ [k]) (by simp)
    generalize commonSegments (Dotted.parts sourceStatePath) (ks ++ [k]) = lcaParts at split
    rw [split] at plain found ⊢
    rw [List.drop_left]
    have formed := loadedWellFormed loaded
    have held : StandsBelow current [] machine.states := by
      intro k child v here inner got
      cases current with
      | str s => simp [extractCursor] at got
      | obj entries =>
        rcases standing with ⟨s,same⟩ | stands
        · contradiction
        · cases stands with
          | entries _ _ _ below =>
            exact below k v child ((entryBelow [] rfl).trans got) here inner
    have root (j t) : lookupParts machine.states none ([] ++ j::t) = lookupParts machine.states none (j::t) := rfl
    cases lcaParts with
    | nil =>
      obtain ⟨child,here,slot⟩ := builtBranchStands root held formed plain found
      simp only [nextStateValue]
      split
      · rename_i parallel
        rw [parallel]
        refine slotRegion here slot (.inr ?_)
        rcases standing with ⟨s,same⟩ | stands
        · contradiction
        · rw [parallel] at stands; exact stands
      · exact slotStands here slot
      · contradiction
    | cons j lrest =>
      obtain ⟨child,w,here,inner,shape,below⟩ := replaceAtLcaStands root held formed plain found
        (rfl : current = (extractCursor current []).getD (.str ""))
      rw [List.nil_append] at shape
      simp only [nextStateValue,shape]
      exact standsWithEntry standing here inner below

theorem settlesStands (settles : Settles machine.toRawMachine current) :
    current = .str "error" ∨ Stands machine.type.node machine.states current := by
  induction settles with
  | initial => exact .inr (legalStandsRoot loaded (initialLegal loaded))
  | moved _ did ih =>
    refine .inr (movedStands loaded ?_ did)
    rcases ih with rfl | stands
    · exact .inl ⟨_,rfl⟩
    · exact .inr stands
  | failed => exact .inl rfl

end

def topLevel : StateValue → List String
  | .str key => [key]
  | .obj entries => Keyed.keys entries

section
variable (machine : RawMachine) (v : StateValue)

/-- The active top-level state is final, or all regions of a parallel root are done. -/
def TopDone : Prop :=
  match machine.type with
  | .compound => ∃ k node, Keyed.get machine.states k = some node ∧ node.type = .final ∧
      isActive machine.states v [k] = true
  | .parallel => ∀ k region, Keyed.get (rootStates machine) k = some region →
      isActive machine.states v [k] = true ∧
        (region.type = .final ∨ region.type = .compound ∧ FinalChild machine v [k] region)

/-- The status the specification gives a settled configuration. -/
def Classified (unwound : Bool) : TransactionStatus → Prop
  | .COMPENSATED => unwound = true
  | .FAILED => unwound = false ∧ "error" ∈ topLevel v
  | .COMPLETED => unwound = false ∧ "error" ∉ topLevel v ∧ TopDone machine v
  | .IDLE => unwound = false ∧ "error" ∉ topLevel v ∧ ¬TopDone machine v
  | .IN_FLIGHT => False
  | .COMPENSATING => False

def LeavesFinal : Prop := ∀ leaf ∈ activeLeaves machine v, isFinalAt machine leaf = true

/-- The error state stands by itself, final leaves stand in a final top-level state or in
regions that are done, and no region of a parallel root that is done is a leaf. -/
structure StatusClear : Prop where
  error : "error" ∈ topLevel v → v = .str "error"
  nested : v ≠ .str "error" → LeavesFinal machine v → TopDone machine v
  region : machine.type = .parallel → TopDone machine v → ∀ entries, v = .obj entries →
    ∀ k region, Keyed.get (rootStates machine) k = some region → region.isLeaf = false

end

section
variable {machine : MachineDefinition} (loaded : Loaded machine) (clean : KeysClean machine.toRawMachine) {v : StateValue}

theorem finalLeaf {node : StateNodeIR} (final : node.type = .final) : node.isLeaf = true := leafType.mpr (.inr final)

theorem leafValue {states : Record StateNodeIR} {k child w} (stands : Stands .compound states w)
    (found : Keyed.get states k = some child) (leaf : child.isLeaf = true) (active : isActive states w [k] = true) :
    w = .str k := by
  cases stands with
  | leafChild => simp [isActive] at active; rw [active.1]
  | entries _ _ known =>
    simp only [isActive] at active
    split at active
    · rename_i u _ got _
      obtain ⟨other,here,parallel⟩ := known k u got
      cases Option.some.inj (found.symm.trans here)
      exact absurd (parallel leaf).1 (by simp)
    · contradiction

include clean

theorem leavesFinalIff (stands : Stands machine.type.node machine.states v) :
    LeavesFinal machine.toRawMachine v ↔ ∀ c ∈ valueChains false machine.states v,
      (lookupParts machine.states none c).map (·.type) = some .final := by
  have shaped := standsShaped stands
  constructor
  · intro all c mem
    have final := all _ ((memLeaves clean shaped).mpr ⟨c,mem,rfl⟩)
    rw [isFinalAt,nodeOfLeaf clean shaped mem] at final
    simpa using final
  · intro all leaf mem
    obtain ⟨c,hc,rfl⟩ := (memLeaves clean shaped).mp mem
    rw [isFinalAt,nodeOfLeaf clean shaped hc]
    simpa using all c hc

theorem strFinal {k node} (stands : Stands machine.type.node machine.states (.str k))
    (found : Keyed.get machine.states k = some node) (final : node.type = .final) :
    LeavesFinal machine.toRawMachine (.str k) := by
  rw [leavesFinalIff clean stands]
  simp [valueChains,lookupParts,found,final]

theorem resolvedLeaves (stands : Stands machine.type.node machine.states v) (other : v ≠ .str "error") :
    LeavesFinal machine.toRawMachine v ∧
      resolveSettledTransactionStatus machine.toRawMachine v false = .COMPLETED ∨
    ¬LeavesFinal machine.toRawMachine v ∧ resolveSettledTransactionStatus machine.toRawMachine v false = .IDLE := by
  have shaped := standsShaped stands
  obtain ⟨c,mem⟩ := @valueChainsSome false _ _ shaped
  have some : getActiveLeafPaths machine.toRawMachine v "" ≠ [] :=
    List.ne_nil_of_mem ((memLeaves clean shaped).mpr ⟨c,mem,rfl⟩)
  have decided : (getActiveLeafPaths machine.toRawMachine v "").all (isFinalAt machine.toRawMachine) = true ↔
      LeavesFinal machine.toRawMachine v := List.all_eq_true
  simp only [resolveSettledTransactionStatus,other,Bool.false_eq_true,if_false,decide_false,Bool.false_and,← decided]
  simp only [List.isEmpty_eq_false_iff.mpr some,Bool.not_false,Bool.true_and]
  split
  · rename_i all
    exact .inl ⟨all,rfl⟩
  · rename_i none_
    exact .inr ⟨none_,rfl⟩

theorem compoundDone (compound : machine.type = .compound) (stands : Stands machine.type.node machine.states v)
    (done : TopDone machine.toRawMachine v) : LeavesFinal machine.toRawMachine v := by
  simp only [TopDone,compound] at done
  obtain ⟨k,node,found,final,active⟩ := done
  have whole : v = .str k := by
    rw [compound] at stands
    exact leafValue stands found (finalLeaf final) active
  rw [whole] at stands ⊢
  exact strFinal clean stands found final

include loaded

theorem aloneDone {k} (parallel : machine.type = .parallel) (stands : Stands machine.type.node machine.states (.str k))
    (done : TopDone machine.toRawMachine (.str k)) : LeavesFinal machine.toRawMachine (.str k) := by
  simp only [TopDone,parallel] at done
  obtain ⟨⟨j,region⟩,mem⟩ := List.exists_mem_of_ne_nil _ (rootSome loaded)
  have found := Keyed.getOfMem (rootUnique loaded) mem
  obtain ⟨active,final⟩ := done j region found
  obtain ⟨rfl,_⟩ : k = j ∧ _ := by simpa [isActive] using active
  rcases final with final | ⟨_,c,child,_,_,below⟩
  · exact strFinal clean stands ((rootGet loaded).mp found).1 final
  · simp [isActive] at below

theorem regionsDone {entries} (parallel : machine.type = .parallel)
    (stands : Stands machine.type.node machine.states (.obj entries)) (noError : "error" ∉ topLevel (.obj entries))
    (done : TopDone machine.toRawMachine (.obj entries)) : LeavesFinal machine.toRawMachine (.obj entries) ↔
      ∀ k region, Keyed.get (rootStates machine.toRawMachine) k = some region → region.isLeaf = false := by
  rw [leavesFinalIff clean stands]
  simp only [TopDone,parallel] at done
  cases stands with
  | entries unique any known below =>
    simp only [valueChains,memEntryChains]
    constructor
    · intro all k region found
      cases leaf : region.isLeaf with
      | false => rfl
      | true =>
        have here := ((rootGet loaded).mp found).1
        have active := (done k region found).1
        simp only [isActive] at active
        split at active
        · rename_i w node got _
          obtain ⟨child,stored,alone⟩ := known k w got
          cases Option.some.inj (here.symm.trans stored)
          obtain ⟨_,rfl⟩ := alone leaf
          have final := all [k,k] ⟨k,_,region,Keyed.getSome got,here,by simp [valueChains]⟩
          have empty := validLeafEmpty (loadedValid loaded k region here) leaf
          simp [lookupParts,here,empty] at final
        · contradiction
    · rintro inner c ⟨key,w,node,mem,here,shape⟩
      have got := Keyed.getOfMem unique mem
      have plainError : key ≠ "error" := by
        rintro rfl
        exact noError (List.mem_map.mpr ⟨_,mem,rfl⟩)
      have declared : Keyed.get (rootStates machine.toRawMachine) key = some node := by
        refine (rootGet loaded).mpr ⟨here,fun _ => ?_⟩
        rcases loadedGet loaded here with explicit | ⟨same,_⟩
        · exact explicit
        · contradiction
      rcases (done key node declared).2 with final | ⟨compound,c,child,hereChild,final,active⟩
      · have none_ := inner key node declared
        rw [finalLeaf final] at none_
        contradiction
      · have container := inner key node declared
        have standsHere := below key w node got here container
        rw [compound] at standsHere
        have activeHere : isActive node.states w [c] = true := by
          simpa [isActive,got,here,container] using active
        rw [leafValue standsHere hereChild (finalLeaf final) activeHere] at shape
        simp [valueChains] at shape
        simp [shape,lookupParts,here,hereChild,final]

theorem topDoneLeaves (stands : Stands machine.type.node machine.states v) (noError : "error" ∉ topLevel v)
    (done : TopDone machine.toRawMachine v) : LeavesFinal machine.toRawMachine v ↔
      (machine.type = .parallel → ∀ entries, v = .obj entries →
        ∀ k region, Keyed.get (rootStates machine.toRawMachine) k = some region → region.isLeaf = false) := by
  cases ht : machine.type with
  | compound => simp [compoundDone clean ht stands done]
  | parallel =>
    cases v with
    | str k => simp [aloneDone loaded clean ht stands done]
    | obj entries => simpa using regionsDone loaded clean ht stands noError done

end

theorem nestedFinished : Settles (injectErrorState (nested none)).toRawMachine (.str "finished") := by
  have moves : (applyTargetTransition (injectErrorState (nested none)).toRawMachine
      (resolveInitialState (injectErrorState (nested none)).toRawMachine).1 "outer" "finished").map (·.nextStateValue) =
      some (.str "finished") := by decide
  obtain ⟨applied,did,same⟩ := Option.map_eq_some_iff.mp moves
  rw [← same]
  exact .moved .initial did

end Dfsm
