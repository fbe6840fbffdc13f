import Dfsm.Engine.Accounting

/-! Completion of containers: what the specification calls done, against what the
engine reads off the active leaf paths. -/
namespace Dfsm
open Keyed (Record)

/-! The leaf chains through one node. -/

def chainsOfEntry (regions : Bool) (states : Record StateNodeIR) (e : String × StateValue) : List (List String) :=
  match Keyed.get states e.1 with
  | none => []
  | some node => if regions && node.isLeaf then [[e.1]]
    else (valueChains (!regions && node.type = .parallel) node.states e.2).map (e.1::·)

theorem entryChainsFlat (regions : Bool) (states : Record StateNodeIR) (entries : List (String × StateValue)) :
    entryChains regions states entries = entries.flatMap (chainsOfEntry regions states) := by
  induction entries with
  | nil => rfl
  | cons first rest ih =>
    rw [entryChains,List.flatMap_cons,ih]
    rfl

theorem entryHead {regions states e c} (mem : c ∈ chainsOfEntry regions states e) : c.head? = some e.1 := by
  unfold chainsOfEntry at mem
  split at mem
  · simp at mem
  · split at mem
    · rw [List.mem_singleton.mp mem]; rfl
    · obtain ⟨tail,_,rfl⟩ := List.mem_map.mp mem; rfl

theorem chainsNodup {regions states v} (shaped : Shaped states v) : (valueChains regions states v).Nodup := by
  induction shaped generalizing regions with
  | str => simp [valueChains]
  | obj unique any known below ih =>
    rename_i states entries
    rw [valueChains,entryChainsFlat,List.nodup_flatMap]
    constructor
    · rintro ⟨key,v⟩ mem
      have got := Keyed.getOfMem unique mem
      obtain ⟨child,found,leaf⟩ := known key v got
      simp only [chainsOfEntry,found]
      split
      · simp
      · have inside : (valueChains (!regions && child.type = .parallel) child.states v).Nodup := by
          cases h : child.isLeaf with
          | true => rw [leaf h]; simp [valueChains]
          | false => exact ih key v child got found h
        exact inside.map (fun c c' same => (List.cons.inj same).2)
    · have apart : entries.Pairwise (fun e f => e.1 ≠ f.1) := List.pairwise_map.mp unique
      refine apart.imp ?_
      rintro e f other c left right
      exact other (Option.some.inj ((entryHead left).symm.trans (entryHead right)))

theorem chainBelow {regions states v c q node current} (shaped : Shaped states v)
    (mem : c ∈ valueChains regions states v) (found : lookupParts states current q = some node)
    (formed : ∀ k child, Keyed.get states k = some child → Valid child)
    (inner : node.isLeaf = false) (any : q ≠ []) {r} (through : c = q ++ r) :
    ∃ u regions', extractCursor v q = some u ∧ r ∈ valueChains regions' node.states u := by
  induction q generalizing regions states v c current with
  | nil => contradiction
  | cons key q ih =>
    obtain ⟨child,here,below⟩ := lookupHead found
    have container : child.isLeaf = false := by
      cases q with
      | nil => cases Option.some.inj below; exact inner
      | cons j q =>
        obtain ⟨_,next,_⟩ := lookupHead below
        exact innerOfChild (formed key child here) next
    cases shaped with
    | str other leaf =>
      simp only [valueChains,List.mem_singleton] at mem
      rw [mem] at through
      obtain ⟨rfl,_⟩ := List.cons.inj through
      cases Option.some.inj (here.symm.trans other)
      rw [leaf] at container; contradiction
    | obj unique _ known belowShaped =>
      rw [valueChains,memEntryChains] at mem
      obtain ⟨key',w,child',memEntry,here',shape⟩ := mem
      have got := Keyed.getOfMem unique memEntry
      have head : key' = key := by
        split at shape
        · rw [shape] at through; exact (List.cons.inj through).1
        · obtain ⟨tail,_,same⟩ := shape
          rw [same] at through; exact (List.cons.inj through).1
      subst key'
      cases Option.some.inj (here.symm.trans here')
      rw [if_neg (by simp [container])] at shape
      obtain ⟨tail,memTail,same⟩ := shape
      rw [same] at through
      have rest : tail = q ++ r := (List.cons.inj through).2
      cases q with
      | nil =>
        cases Option.some.inj below
        exact ⟨w,_,by simp [extractCursor,got],by simpa [rest] using memTail⟩
      | cons j q =>
        obtain ⟨u,m,held,last⟩ := ih (belowShaped key w child got here container) memTail below
          (fun k c hk => validChildren (formed key child here) _ (Keyed.getSome hk)) (by simp) rest
        exact ⟨u,m,by simpa [extractCursor,got] using held,last⟩

theorem chainThroughLeaf {regions states v q node current} (shaped : Shaped states v)
    (found : lookupParts states current q = some node)
    (formed : ∀ k child, Keyed.get states k = some child → Valid child)
    (leaf : node.isLeaf = true) (any : q ≠ []) {r r'}
    (mem : q ++ r ∈ valueChains regions states v) (mem' : q ++ r' ∈ valueChains regions states v) : r = r' := by
  induction q generalizing regions states v current with
  | nil => contradiction
  | cons key q ih =>
    obtain ⟨child,here,below⟩ := lookupHead found
    cases shaped with
    | str =>
      simp only [valueChains,List.mem_singleton,List.cons_append] at mem mem'
      exact List.append_cancel_left ((List.cons.inj mem).2.trans (List.cons.inj mem').2.symm)
    | obj unique _ known belowShaped =>
      rw [valueChains,memEntryChains] at mem mem'
      obtain ⟨k,w,child₁,entry,here₁,shape⟩ := mem
      obtain ⟨k',w',child₂,entry',here₂,shape'⟩ := mem'
      have head {k w c s} (shape : if (regions && (c : StateNodeIR).isLeaf) = true then key::q ++ s = [k]
          else ∃ tail ∈ valueChains (!regions && c.type = StateNodeType.parallel) c.states w, key::q ++ s = k::tail) : k = key := by
        split at shape
        · exact (List.cons.inj shape).1.symm
        · obtain ⟨tail,_,same⟩ := shape; exact (List.cons.inj same).1.symm
      obtain rfl := head shape
      obtain rfl := head shape'
      cases Option.some.inj (here.symm.trans here₁)
      cases Option.some.inj (here.symm.trans here₂)
      have got := Keyed.getOfMem unique entry
      cases Option.some.inj (got.symm.trans (Keyed.getOfMem unique entry'))
      split at shape
      · rename_i stop
        rw [if_pos stop] at shape'
        exact List.append_cancel_left ((List.cons.inj shape).2.trans (List.cons.inj shape').2.symm)
      · rename_i go
        rw [if_neg go] at shape'
        obtain ⟨tail,memTail,same⟩ := shape
        obtain ⟨tail',memTail',same'⟩ := shape'
        obtain ⟨_,rfl⟩ := List.cons.inj same
        obtain ⟨_,rfl⟩ := List.cons.inj same'
        cases q with
        | nil =>
          cases Option.some.inj below
          obtain ⟨child',here',only⟩ := known _ w got
          cases Option.some.inj (here.symm.trans here')
          rw [only leaf] at memTail memTail'
          simp only [valueChains,List.mem_singleton] at memTail memTail'
          exact memTail.trans memTail'.symm
        | cons j q =>
          obtain ⟨_,next,_⟩ := lookupHead below
          have inner := innerOfChild (formed _ child here) next
          exact ih (belowShaped _ w child got here inner) below
            (fun k c hk => validChildren (formed _ child here) _ (Keyed.getSome hk)) (by simp) memTail memTail'

section
variable (machine : RawMachine) (v : StateValue)

/-- The active direct child is a final state. -/
def FinalChild (q : List String) (node : StateNodeIR) : Prop :=
  ∃ k child, Keyed.get node.states k = some child ∧ child.type = .final ∧ isActive machine.states v (q ++ [k]) = true

/-- Done in the sense of the specification. -/
def Done (q : List String) (node : StateNodeIR) : Prop :=
  node.type = .compound ∧ FinalChild machine v q node ∨
  node.type = .parallel ∧ ∀ k region, Keyed.get node.states k = some region →
    region.type = .final ∨ region.type = .compound ∧ FinalChild machine v (q ++ [k]) region

/-- An active container with `onDone` that is done. -/
structure Completed (q : List String) (node : StateNodeIR) : Prop where
  stored : lookupParts machine.states none q = some node
  active : isActive machine.states v q = true
  onDone : node.onDone.isSome = true
  done : Done machine v q node

/-- A container is found exactly when it is a deepest one of those completed. -/
def CompletionFound : Prop :=
  match findPendingOnDone machine v with
  | none => ∀ q node, ¬Completed machine v q node
  | some pending => pending.sourceNode.onDone = some pending.edge ∧ ∃ q, Completed machine v q pending.sourceNode ∧
      ∀ q' node, Completed machine v q' node → q'.length ≤ q.length

def activeLeaves : List String := getActiveLeafPaths machine v ""

/-- A compound over one active leaf, a final state that is not its direct child. -/
def Spurious (node : StateNodeIR) : Prop :=
  node.type = .compound ∧ ∃ q leaf, lookupParts machine.states none q = some leaf ∧ leaf.type = .final ∧
    (activeLeaves machine v).filter (Dotted.under node.path) = [leaf.path] ∧
    leaf.path ≠ node.path ++ "." ++ leaf.key

/-- A parallel with a leaf region that the walk over the configuration does not
report at its own path, as happens to a region nested directly in another parallel. -/
def Missed (node : StateNodeIR) : Prop :=
  node.type = .parallel ∧ ∃ k region, Keyed.get node.states k = some region ∧ region.isLeaf = true ∧
    region.path ∉ activeLeaves machine v

def containersInOrder : List String :=
  (candidateContainers (activeLeaves machine v)).insertionSort deeperFirst

/-- No compound is completed by a final state further down before a container that is
done is reached, and no done parallel goes unseen unless one as deep is seen. -/
structure CompletionClear : Prop where
  spurious : ∀ front path back node, containersInOrder machine v = front ++ path::back →
    getNodeByPath machine path = some node → node.onDone.isSome = true → Spurious machine v node →
    ∃ q other, Dotted.join q ∈ front ∧ Completed machine v q other ∧ ¬Missed machine v other
  missed : ∀ q node, Completed machine v q node → Missed machine v node →
    ∃ q' other, Completed machine v q' other ∧ ¬Missed machine v other ∧ q.length ≤ q'.length

end

theorem onlyOne {α : Type} {l : List α} {a : α} (unique : l.Nodup) (mem : a ∈ l) (all : ∀ x ∈ l, x = a) : l = [a] := by
  cases l with
  | nil => simp at mem
  | cons x rest =>
    obtain rfl := all x List.mem_cons_self
    cases rest with
    | nil => rfl
    | cons y rest =>
      have same := all y (by simp)
      rw [same] at unique
      simp at unique

theorem upsProper {α : Type} {c q : List α} : q ∈ (Chains.ups c).tail ↔ q ≠ [] ∧ q <+: c ∧ q ≠ c := by
  cases c using List.reverseRecOn with
  | nil => simp [Chains.ups,List.prefix_nil]
  | append_singleton c k =>
    rw [Chains.upsSnoc,List.tail_cons,Chains.memUps]
    refine and_congr_right (fun _ => ?_)
    rw [List.prefix_concat_iff]
    constructor
    · intro pre
      refine ⟨.inr pre,fun same => ?_⟩
      have := pre.length_le
      rw [same,List.length_append,List.length_singleton] at this
      omega
    · rintro ⟨same | pre,other⟩
      · exact absurd same other
      · exact pre

section
variable {machine : RawMachine} (clean : KeysClean machine) {v : StateValue} (shaped : Shaped machine.states v)
include clean shaped

theorem memLeaves {leaf} :
    leaf ∈ activeLeaves machine v ↔ ∃ c ∈ valueChains false machine.states v, Dotted.join c = leaf := by
  rw [activeLeaves,activeLeafPaths clean shaped,List.mem_map]

theorem nodeOfLeaf {c} (mem : c ∈ valueChains false machine.states v) :
    getNodeByPath machine (Dotted.join c) = lookupParts machine.states none c :=
  getNodeJoin (chainPlain clean shaped mem)

theorem leavesNodup : (activeLeaves machine v).Nodup := by
  rw [activeLeaves,activeLeafPaths clean shaped]
  exact (chainsNodup shaped).map_on (fun c hc c' hc' same =>
    Dotted.joinInj (chainPlain clean shaped hc) (chainPlain clean shaped hc') same)

theorem memContainers {path} :
    path ∈ containersInOrder machine v ↔
      ∃ c ∈ valueChains false machine.states v, ∃ q, q ≠ [] ∧ q <+: c ∧ q ≠ c ∧ Dotted.join q = path := by
  rw [containersInOrder,List.mem_insertionSort,candidateContainers,List.mem_eraseDups,List.mem_flatMap]
  constructor
  · rintro ⟨leaf,mem,inside⟩
    obtain ⟨c,hc,rfl⟩ := (memLeaves clean shaped).mp mem
    rw [candidateJoin (chainSome hc) (chainPlain clean shaped hc),← List.map_tail] at inside
    obtain ⟨q,proper,rfl⟩ := List.mem_map.mp inside
    obtain ⟨some,pre,other⟩ := upsProper.mp proper
    exact ⟨c,hc,q,some,pre,other,rfl⟩
  · rintro ⟨c,hc,q,some,pre,other,rfl⟩
    refine ⟨_,(memLeaves clean shaped).mpr ⟨c,hc,rfl⟩,?_⟩
    rw [candidateJoin (chainSome hc) (chainPlain clean shaped hc),← List.map_tail]
    exact List.mem_map.mpr ⟨q,upsProper.mpr ⟨some,pre,other⟩,rfl⟩

end

section
variable {machine : MachineDefinition} (loaded : Loaded machine) (clean : KeysClean machine.toRawMachine) {v : StateValue}
include loaded

theorem loadedValid (k : String) (child : StateNodeIR) (here : Keyed.get machine.states k = some child) : Valid child :=
  wellFormedValid (loadedWellFormed loaded _ (Keyed.getSome here))

theorem storedFormed {q node} (stored : lookupParts machine.states none q = some node) :
    ∃ parentPath key, WellFormed parentPath key node := by
  cases q using List.reverseRecOn with
  | nil => simp [lookupParts] at stored
  | append_singleton front k => exact ⟨_,_,loadedChain loaded stored⟩

theorem finalChildValue (legal : Legal machine.toRawMachine v) {q node} (stored : lookupParts machine.states none q = some node)
    (active : isActive machine.states v q = true) (compound : node.type = .compound) {k child}
    (here : Keyed.get node.states k = some child) (final : child.type = .final)
    (below : isActive machine.states v (q ++ [k]) = true) : extractCursor v q = some (.str k) := by
  have inner : node.isLeaf = false := by simp [StateNodeIR.isLeaf,compound]
  have step : q ≠ [] := by rintro rfl; simp [lookupParts] at stored
  obtain ⟨u,held,legalHere⟩ := legalAt loaded legal active stored inner
  rw [activeBelow (loadedValid loaded) stored inner held step (by simp)] at below
  rw [compound] at legalHere
  rw [held]
  cases legalHere with
  | leafChild =>
    simp only [isActive,Bool.and_eq_true,decide_eq_true_eq] at below
    rw [below.1.1]
  | nested other innerChild =>
    have same := singleKey below
    rw [← same] at other
    cases Option.some.inj (here.symm.trans other)
    simp [StateNodeIR.isLeaf,final] at innerChild

theorem finalChildLeaf (legal : Legal machine.toRawMachine v) {q node} (stored : lookupParts machine.states none q = some node)
    (active : isActive machine.states v q = true) (compound : node.type = .compound) {k child}
    (here : Keyed.get node.states k = some child) (final : child.type = .final)
    (below : isActive machine.states v (q ++ [k]) = true) :
    q ++ [k] ∈ valueChains false machine.states v ∧
      ∀ tail, q ++ tail ∈ valueChains false machine.states v → tail = [k] := by
  have shaped := legalShaped loaded legal
  have inner : node.isLeaf = false := by simp [StateNodeIR.isLeaf,compound]
  have step : q ≠ [] := by rintro rfl; simp [lookupParts] at stored
  have held := finalChildValue loaded legal stored active compound here final below
  have only (tail) (mem : q ++ tail ∈ valueChains false machine.states v) : tail = [k] := by
    obtain ⟨u,m,held',inside⟩ := chainBelow shaped mem stored (loadedValid loaded) inner step rfl
    cases Option.some.inj (held.symm.trans held')
    simpa [valueChains] using inside
  obtain ⟨c,hc,tail,rfl⟩ := @activeOnChain false _ _ _ shaped active
  exact ⟨only tail hc ▸ hc,only⟩

include clean

theorem childStored {q node k child} (stored : lookupParts machine.states none q = some node)
    (here : Keyed.get node.states k = some child) :
    lookupParts machine.states none (q ++ [k]) = some child ∧ child.path = Dotted.join (q ++ [k]) ∧ child.key = k := by
  have step : q ≠ [] := by rintro rfl; simp [lookupParts] at stored
  have below : lookupParts machine.states none (q ++ [k]) = some child := by
    rw [lookupPartsAppend stored step]; simp [lookupParts,here]
  exact ⟨below,pathJoin loaded clean below,wellFormedKey (loadedChain loaded below)⟩

theorem underChain {q c : List String} {node} (stored : lookupParts machine.states none q = some node)
    (shaped : Shaped machine.states v) (mem : c ∈ valueChains false machine.states v) :
    (Dotted.under node.path (Dotted.join c) = true ↔ ∃ tail, tail ≠ [] ∧ c = q ++ tail) ∧
    (Dotted.join c = node.path ↔ c = q) := by
  have plain := plainChain clean stored
  have plainLeaf := chainPlain clean shaped mem
  have step : q ≠ [] := by rintro rfl; simp [lookupParts] at stored
  rw [pathJoin loaded clean stored]
  exact ⟨Dotted.underJoin step (chainSome mem) plain plainLeaf,
    ⟨fun same => Dotted.joinInj plainLeaf plain same,fun same => by rw [same]⟩⟩

theorem activeContainer (shaped : Shaped machine.states v) {q node} (stored : lookupParts machine.states none q = some node)
    (active : isActive machine.states v q = true) (inner : node.isLeaf = false) :
    Dotted.join q ∈ containersInOrder machine.toRawMachine v := by
  obtain ⟨c,hc,pre⟩ := @activeOnChain false _ _ _ shaped active
  have some : q ≠ [] := by rintro rfl; simp [isActive] at active
  refine (memContainers clean shaped).mpr ⟨c,hc,q,some,pre,?_,rfl⟩
  rintro rfl
  obtain ⟨u,m,_,mem⟩ := chainBelow shaped hc stored (loadedValid loaded) inner some (List.append_nil q).symm
  exact chainSome mem rfl

theorem compoundJudged (legal : Legal machine.toRawMachine v) {q node} (stored : lookupParts machine.states none q = some node)
    (active : isActive machine.states v q = true) (compound : node.type = .compound) :
    (containerDone machine.toRawMachine (activeLeaves machine.toRawMachine v) (Dotted.join q) node = true ↔
      Done machine.toRawMachine v q node ∨ Spurious machine.toRawMachine v node) ∧
    ¬(Done machine.toRawMachine v q node ∧ Spurious machine.toRawMachine v node) := by
  have shaped := legalShaped loaded legal
  have step : q ≠ [] := by rintro rfl; simp [lookupParts] at stored
  have path := pathJoin loaded clean stored
  have doneLeaf (done : Done machine.toRawMachine v q node) : ∃ k child, Keyed.get node.states k = some child ∧
      child.type = .final ∧ (activeLeaves machine.toRawMachine v).filter (Dotted.under node.path) = [Dotted.join (q ++ [k])] := by
    rcases done with ⟨_,k,child,here,final,below⟩ | ⟨other,_⟩
    · obtain ⟨mem,only⟩ := finalChildLeaf loaded legal stored active compound here final below
      refine ⟨k,child,here,final,onlyOne ((leavesNodup clean shaped).filter _) ?_ ?_⟩
      · exact List.mem_filter.mpr ⟨(memLeaves clean shaped).mpr ⟨_,mem,rfl⟩,
          (underChain loaded clean stored shaped mem).1.mpr ⟨[k],by simp,rfl⟩⟩
      · intro leaf inside
        obtain ⟨mem,under⟩ := List.mem_filter.mp inside
        obtain ⟨c,hc,rfl⟩ := (memLeaves clean shaped).mp mem
        obtain ⟨tail,_,rfl⟩ := (underChain loaded clean stored shaped hc).1.mp under
        rw [only tail hc]
    · rw [compound] at other; contradiction
  simp only [containerDone,compound,← path]
  constructor
  · constructor
    · intro judged
      split at judged
      · rename_i leaf same
        obtain ⟨mem,under⟩ := List.mem_filter.mp (by rw [same]; simp : leaf ∈ (activeLeaves machine.toRawMachine v).filter (Dotted.under node.path))
        obtain ⟨c,hc,rfl⟩ := (memLeaves clean shaped).mp mem
        rw [isFinalAt,nodeOfLeaf clean shaped hc,decide_eq_true_eq,Option.map_eq_some_iff] at judged
        obtain ⟨leaf,found,final⟩ := judged
        by_cases direct : leaf.path = node.path ++ "." ++ leaf.key
        · left; left
          obtain ⟨tail,some,rfl⟩ := (underChain loaded clean stored shaped hc).1.mp under
          obtain ⟨front,k,rfl⟩ : ∃ front k, tail = front ++ [k] :=
            ⟨_,_,(List.dropLast_append_getLast some).symm⟩
          have key : leaf.key = k := wellFormedKey (loadedChain loaded (by rw [List.append_assoc]; exact found))
          rw [pathJoin loaded clean found,path,key,← Dotted.joinSnoc step] at direct
          have plain := plainChain clean found
          have plainDirect : ∀ j ∈ q ++ [k], Dotted.Plain j := by
            intro j mem
            exact plain j (by simp only [List.mem_append,List.mem_cons,List.not_mem_nil,or_false] at mem ⊢; tauto)
          have same := List.append_cancel_left (Dotted.joinInj plain plainDirect direct)
          rw [same] at found hc
          rw [lookupPartsAppend stored step] at found
          obtain ⟨child,here,last⟩ := lookupHead found
          cases last
          exact ⟨compound,k,leaf,here,final,chainActive shaped (loadedValid loaded) hc (List.prefix_refl _) (by simp)
            (by rw [lookupPartsAppend stored step]; exact found)⟩
        · exact .inr ⟨compound,c,leaf,found,final,by rw [same,pathJoin loaded clean found],direct⟩
      · contradiction
    · rintro (done | ⟨_,q',leaf,found,final,same,_⟩)
      · obtain ⟨k,child,here,final,same⟩ := doneLeaf done
        obtain ⟨below,_,_⟩ := childStored loaded clean stored here
        rw [same]
        simp [isFinalAt,getNodeJoin (plainChain clean below),below,final]
      · rw [same]
        simp [isFinalAt,pathJoin loaded clean found,getNodeJoin (plainChain clean found),found,final]
  · rintro ⟨done,_,q',leaf,found,_,same,indirect⟩
    obtain ⟨k,child,here,_,same'⟩ := doneLeaf done
    obtain ⟨below,childPath,key⟩ := childStored loaded clean stored here
    have one : leaf.path = Dotted.join (q ++ [k]) := by simpa using same.symm.trans same'
    have whole : leaf = child := by
      have chains := Dotted.joinInj (plainChain clean found) (plainChain clean below)
        ((pathJoin loaded clean found).symm.trans one)
      rw [chains] at found
      exact Option.some.inj (found.symm.trans below)
    apply indirect
    rw [one,whole,key,path,Dotted.joinSnoc step]

theorem regionLeaf (shaped : Shaped machine.states v) {p region} (stored : lookupParts machine.states none p = some region) {leaf} :
    leaf ∈ (activeLeaves machine.toRawMachine v).filter (fun l => l = region.path || Dotted.under region.path l) ↔
      ∃ tail, p ++ tail ∈ valueChains false machine.states v ∧ Dotted.join (p ++ tail) = leaf := by
  rw [List.mem_filter,memLeaves clean shaped]
  constructor
  · rintro ⟨⟨c,hc,rfl⟩,inside⟩
    obtain ⟨under,same⟩ := underChain loaded clean stored shaped hc
    simp only [Bool.or_eq_true,decide_eq_true_eq,same,under] at inside
    rcases inside with rfl | ⟨tail,_,rfl⟩
    · exact ⟨[],by simpa using hc,by simp⟩
    · exact ⟨tail,hc,rfl⟩
  · rintro ⟨tail,hc,rfl⟩
    obtain ⟨under,same⟩ := underChain loaded clean stored shaped hc
    refine ⟨⟨_,hc,rfl⟩,?_⟩
    simp only [Bool.or_eq_true,decide_eq_true_eq,same,under]
    cases tail with
    | nil => exact .inl (by simp)
    | cons j tail => exact .inr ⟨_,by simp,rfl⟩

theorem regionJudged (legal : Legal machine.toRawMachine v) {p region} (stored : lookupParts machine.states none p = some region)
    (active : isActive machine.states v p = true) :
    regionDone machine.toRawMachine (activeLeaves machine.toRawMachine v) region = true ↔
    (region.type = .final ∨ region.type = .compound ∧ FinalChild machine.toRawMachine v p region) ∧
      (region.isLeaf = true → region.path ∈ activeLeaves machine.toRawMachine v) := by
  have shaped := legalShaped loaded legal
  have step : p ≠ [] := by rintro rfl; simp [lookupParts] at stored
  have plain := plainChain clean stored
  have path := pathJoin loaded clean stored
  have formed : Valid region := by
    obtain ⟨_,_,formed⟩ := storedFormed loaded stored
    exact wellFormedValid formed
  simp only [regionDone,Bool.and_eq_true,Bool.not_eq_true',List.isEmpty_eq_false_iff_exists_mem,List.all_eq_true,
    regionLeaf loaded clean shaped stored]
  have branch (leaf) : isBranchFinalAt machine.toRawMachine region.path leaf = true ↔
      ∃ leafNode, getNodeByPath machine.toRawMachine leaf = some leafNode ∧ leafNode.type = .final ∧
        (region.type = .final ∨ region.type = .compound ∧ leaf = region.path ++ "." ++ leafNode.key) := by
    have here : getNodeByPath machine.toRawMachine region.path = some region := by rw [path,getNodeJoin plain,stored]
    unfold isBranchFinalAt
    rw [here]
    cases getNodeByPath machine.toRawMachine leaf with
    | none => simp
    | some leafNode => cases h : region.type <;> simp [h]
  constructor
  · rintro ⟨⟨leaf,tail,mem,rfl⟩,all⟩
    obtain ⟨leafNode,found,final,shape⟩ := (branch _).mp (all _ ⟨tail,mem,rfl⟩)
    rw [nodeOfLeaf clean shaped mem] at found
    have below {j rest} (same : tail = j::rest) : ∃ child, Keyed.get region.states j = some child := by
      rw [same,lookupPartsAppend stored step] at found
      obtain ⟨child,here,_⟩ := lookupHead found
      exact ⟨child,here⟩
    constructor
    · rcases shape with isFinal | ⟨compound,direct⟩
      · exact .inl isFinal
      · refine .inr ⟨compound,?_⟩
        cases tail using List.reverseRecOn with
        | nil =>
          rw [List.append_nil] at found
          cases Option.some.inj (stored.symm.trans found)
          rw [compound] at final; contradiction
        | append_singleton front k =>
          have key : leafNode.key = k := wellFormedKey (loadedChain loaded (by rw [List.append_assoc]; exact found))
          have plainLeaf := plainChain clean found
          have plainDirect : ∀ j ∈ p ++ [k], Dotted.Plain j := by
            intro j inside
            exact plainLeaf j (by simp only [List.mem_append,List.mem_cons,List.not_mem_nil,or_false] at inside ⊢; tauto)
          rw [path,key,← Dotted.joinSnoc step] at direct
          have same := List.append_cancel_left (Dotted.joinInj plainLeaf plainDirect direct)
          rw [same] at found mem
          have lower := found
          rw [lookupPartsAppend stored step] at lower
          obtain ⟨child,here,last⟩ := lookupHead lower
          cases last
          exact ⟨k,leafNode,here,final,chainActive shaped (loadedValid loaded) mem (List.prefix_refl _) (by simp) found⟩
    · intro leaf
      cases tail with
      | nil => exact (memLeaves clean shaped).mpr ⟨p,by simpa using mem,path.symm⟩
      | cons j rest =>
        obtain ⟨child,here⟩ := below rfl
        rw [validLeafEmpty formed leaf] at here
        simp at here
  · rintro ⟨final | ⟨compound,j,child,here,final,below⟩,seen⟩
    · have leaf : region.isLeaf = true := by simp [StateNodeIR.isLeaf,final]
      obtain ⟨c,hc,same⟩ := (memLeaves clean shaped).mp (seen leaf)
      have whole : c = p := (underChain loaded clean stored shaped hc).2.mp same
      subst c
      have self : p ++ [] ∈ valueChains false machine.states v := by simpa using hc
      refine ⟨⟨_,[],self,rfl⟩,?_⟩
      rintro _ ⟨tail,mem,rfl⟩
      have none : tail = [] := chainThroughLeaf shaped stored (loadedValid loaded) leaf step mem self
      subst tail
      rw [branch,List.append_nil,getNodeJoin plain,stored]
      exact ⟨region,rfl,final,.inl final⟩
    · obtain ⟨mem,only⟩ := finalChildLeaf loaded legal stored active compound here final below
      refine ⟨⟨_,[j],mem,rfl⟩,?_⟩
      rintro _ ⟨tail,mem,rfl⟩
      rw [only tail mem]
      obtain ⟨childStored,childPath,key⟩ := childStored loaded clean stored here
      rw [branch,getNodeJoin (plainChain clean childStored),childStored]
      exact ⟨child,rfl,final,.inr ⟨compound,by rw [path,key,Dotted.joinSnoc step]⟩⟩

theorem parallelJudged (legal : Legal machine.toRawMachine v) {q node} (stored : lookupParts machine.states none q = some node)
    (active : isActive machine.states v q = true) (parallel : node.type = .parallel) :
    containerDone machine.toRawMachine (activeLeaves machine.toRawMachine v) (Dotted.join q) node = true ↔
      Done machine.toRawMachine v q node ∧ ¬Missed machine.toRawMachine v node := by
  have unique : (Keyed.keys node.states).Nodup := by
    obtain ⟨_,_,formed⟩ := storedFormed loaded stored
    cases formed with
    | node _ _ unique => exact unique
  have region {k r} (here : Keyed.get node.states k = some r) :=
    regionJudged loaded clean legal (childStored loaded clean stored here).1
      ((legalRegions loaded legal active stored parallel).2 k (Keyed.getIsSome.mp (by simp [here])))
  simp only [containerDone,parallel,List.all_eq_true]
  constructor
  · intro judged
    have each {k r} (here : Keyed.get node.states k = some r) := (region here).mp (judged _ (Keyed.getSome here))
    refine ⟨.inr ⟨parallel,fun k r here => (each here).1⟩,?_⟩
    rintro ⟨_,k,r,here,leaf,unseen⟩
    exact unseen ((each here).2 leaf)
  · rintro ⟨⟨compound,_⟩ | ⟨_,done⟩,seen⟩
    · rw [parallel] at compound; contradiction
    · intro e mem
      have here := Keyed.getOfMem unique (show (e.1,e.2) ∈ node.states from mem)
      refine (region here).mpr ⟨done e.1 e.2 here,fun leaf => ?_⟩
      by_contra unseen
      exact seen ⟨parallel,e.1,e.2,here,leaf,unseen⟩

theorem containerJudged (legal : Legal machine.toRawMachine v) {q node} (stored : lookupParts machine.states none q = some node)
    (active : isActive machine.states v q = true) :
    (containerDone machine.toRawMachine (activeLeaves machine.toRawMachine v) (Dotted.join q) node = true ↔
      Done machine.toRawMachine v q node ∧ ¬Missed machine.toRawMachine v node ∨ Spurious machine.toRawMachine v node) ∧
    ¬(Done machine.toRawMachine v q node ∧ Spurious machine.toRawMachine v node) := by
  cases ht : node.type with
  | compound =>
    obtain ⟨judged,apart⟩ := compoundJudged loaded clean legal stored active ht
    refine ⟨?_,apart⟩
    have notMissed : ¬Missed machine.toRawMachine v node := by rintro ⟨parallel,_⟩; rw [ht] at parallel; contradiction
    rw [judged,and_iff_left notMissed]
  | parallel =>
    have notSpurious : ¬Spurious machine.toRawMachine v node := by rintro ⟨compound,_⟩; rw [ht] at compound; contradiction
    rw [parallelJudged loaded clean legal stored active ht,or_iff_left notSpurious]
    exact ⟨Iff.rfl,fun h => notSpurious h.2⟩
  | atomic => simp [containerDone,Done,Spurious,ht]
  | final => simp [containerDone,Done,Spurious,ht]

end

theorem orderDeeper {machine : RawMachine} {v front q back q'} (order : containersInOrder machine v = front ++ Dotted.join q::back)
    (plain : ∀ k ∈ q, Dotted.Plain k) (some : q ≠ []) (plain' : ∀ k ∈ q', Dotted.Plain k) (some' : q' ≠ [])
    (mem : Dotted.join q' ∈ Dotted.join q::back) : q'.length ≤ q.length := by
  have total : Std.Total deeperFirst := ⟨fun a b => Nat.le_total _ _⟩
  have transitive : IsTrans String deeperFirst := ⟨fun a b c left right => Nat.le_trans right left⟩
  have sorted : (containersInOrder machine v).Pairwise deeperFirst := List.pairwise_insertionSort _ _
  rw [order] at sorted
  have tail := (List.pairwise_append.mp sorted).2.1
  rcases List.mem_cons.mp mem with same | inside
  · rw [Dotted.joinInj plain' plain same]
  · have deeper := (List.pairwise_cons.mp tail).1 _ inside
    rwa [deeperFirst,Dotted.splitJoinPlain some plain,Dotted.splitJoinPlain some' plain'] at deeper

def pendingAt (machine : RawMachine) (v : StateValue) (containerPath : String) : Option MatchedTransition :=
  match getNodeByPath machine containerPath with
  | none => none
  | some containerNode => match containerNode.onDone with
    | none => none
    | some edge => if containerDone machine (activeLeaves machine v) containerPath containerNode then
        some ⟨containerNode,edge⟩ else none

theorem findPending (machine : RawMachine) (v : StateValue) :
    findPendingOnDone machine v = (containersInOrder machine v).findSome? (pendingAt machine v) := rfl

theorem pendingAtIff {machine : RawMachine} {v path pending} : pendingAt machine v path = some pending ↔
    getNodeByPath machine path = some pending.sourceNode ∧ pending.sourceNode.onDone = some pending.edge ∧
      containerDone machine (activeLeaves machine v) path pending.sourceNode = true := by
  obtain ⟨node,edge⟩ := pending
  unfold pendingAt
  constructor
  · intro h
    split at h
    · contradiction
    · rename_i stored
      split at h
      · contradiction
      · rename_i onDone
        split at h
        · rename_i done
          cases h
          exact ⟨stored,onDone,done⟩
        · contradiction
  · rintro ⟨stored,onDone,done⟩
    dsimp only at stored onDone done
    simp only [stored,done,if_true]
    rw [onDone]

section
variable {machine : MachineDefinition} (loaded : Loaded machine) (clean : KeysClean machine.toRawMachine) {v : StateValue}
  (legal : Legal machine.toRawMachine v)
include loaded clean legal

theorem candidateStored {path node} (mem : path ∈ containersInOrder machine.toRawMachine v)
    (stored : getNodeByPath machine.toRawMachine path = some node) :
    ∃ q, path = Dotted.join q ∧ lookupParts machine.states none q = some node ∧ isActive machine.states v q = true := by
  have shaped := legalShaped loaded legal
  obtain ⟨c,hc,q,some,pre,_,rfl⟩ := (memContainers clean shaped).mp mem
  rw [getNodeJoin (fun k hk => chainPlain clean shaped hc k (pre.subset hk))] at stored
  exact ⟨q,rfl,stored,chainActive shaped (loadedValid loaded) hc pre some stored⟩

theorem completedPending {q node} (completed : Completed machine.toRawMachine v q node)
    (seen : ¬Missed machine.toRawMachine v node) :
    Dotted.join q ∈ containersInOrder machine.toRawMachine v ∧
      ∃ pending, pendingAt machine.toRawMachine v (Dotted.join q) = some pending := by
  have shaped := legalShaped loaded legal
  obtain ⟨stored,active,onDone,done⟩ := completed
  have inner : node.isLeaf = false := by
    rcases done with ⟨type,_⟩ | ⟨type,_⟩
    · simp [StateNodeIR.isLeaf,type]
    · simp [StateNodeIR.isLeaf,type]
  obtain ⟨edge,has⟩ := Option.isSome_iff_exists.mp onDone
  refine ⟨activeContainer loaded clean shaped stored active inner,⟨node,edge⟩,pendingAtIff.mpr ⟨?_,has,?_⟩⟩
  · rw [getNodeJoin (plainChain clean stored),stored]
  · exact (containerJudged loaded clean legal stored active).1.mpr (.inl ⟨done,seen⟩)

theorem pendingSource {path pending} (mem : path ∈ containersInOrder machine.toRawMachine v)
    (fires : pendingAt machine.toRawMachine v path = some pending) :
    ∃ q, path = Dotted.join q ∧ lookupParts machine.states none q = some pending.sourceNode ∧
      isActive machine.states v q = true ∧ pending.sourceNode.onDone = some pending.edge ∧
      (Done machine.toRawMachine v q pending.sourceNode ∧ ¬Missed machine.toRawMachine v pending.sourceNode ∨
        Spurious machine.toRawMachine v pending.sourceNode) := by
  obtain ⟨stored,onDone,judged⟩ := pendingAtIff.mp fires
  obtain ⟨q,rfl,here,active⟩ := candidateStored loaded clean legal mem stored
  exact ⟨q,rfl,here,active,onDone,(containerJudged loaded clean legal here active).1.mp judged⟩

end

/-- A compound over a compound over a final state; the outer one completes the machine. -/
def endNode : StateNodeIR := { key := "end", path := "outer.inner.end", type := .final }

def innerNode (innerDone : Option TransitionEdgeIR) : StateNodeIR :=
  { key := "inner", path := "outer.inner", type := .compound, initial := some "end"
    onDone := innerDone, states := [("end",endNode)] }

def outerNode (innerDone : Option TransitionEdgeIR) : StateNodeIR :=
  { key := "outer", path := "outer", type := .compound, initial := some "inner"
    onDone := some { event := "$onDone", target := some "finished" }
    states := [("inner",innerNode innerDone)] }

def nested (innerDone : Option TransitionEdgeIR) : RawMachine :=
  { id := "nested"
    initial := some "outer"
    states := [("outer",outerNode innerDone),("finished",{ key := "finished", path := "finished", type := .final })] }

def innerFinished : StateValue := .obj [("outer",.obj [("inner",.str "end")])]

def innerEdge : TransitionEdgeIR := { event := "$onDone", effects := ["report"] }

theorem nestedLegal (innerDone) : Legal (injectErrorState (nested innerDone)).toRawMachine innerFinished := by
  have last : Keyed.get (innerNode innerDone).states "end" = some endNode := rfl
  have inner : Keyed.get (outerNode innerDone).states "inner" = some (innerNode innerDone) := rfl
  have outer : Keyed.get (injectErrorState (nested innerDone)).states "outer" = some (outerNode innerDone) := rfl
  exact .inl (.nested outer rfl (.nested inner rfl (.leafChild last rfl)))

theorem nestedLoaded : Loaded (injectErrorState (nested none)) :=
  ⟨⟨nested none,by decide,by decide,if_pos (by decide)⟩⟩

theorem nestedEdgeLoaded : Loaded (injectErrorState (nested (some innerEdge))) :=
  ⟨⟨nested (some innerEdge),by decide,by decide,if_pos (by decide)⟩⟩

theorem nestedActive (innerDone) {q} (active : isActive (injectErrorState (nested innerDone)).states innerFinished q = true) :
    q = ["outer"] ∨ q = ["outer","inner"] ∨ q = ["outer","inner","end"] := by
  cases q with
  | nil => simp [isActive] at active
  | cons j q =>
    obtain rfl := singleKey active
    cases q with
    | nil => exact .inl rfl
    | cons k q =>
      have below : isActive (outerNode innerDone).states (.obj [("inner",.str "end")]) (k::q) = true := active
      obtain rfl := singleKey below
      cases q with
      | nil => exact .inr (.inl rfl)
      | cons l q =>
        have last : isActive (innerNode innerDone).states (.str "end") (l::q) = true := below
        simp only [isActive,Bool.and_eq_true,decide_eq_true_eq,List.isEmpty_iff] at last
        obtain ⟨⟨rfl,rfl⟩,_⟩ := last
        exact .inr (.inr rfl)

end Dfsm
