import Dfsm.Engine.Rewrite

/-! Active leaves as chains of keys. For a definition with clean keys the leaf paths
of a configuration are these chains joined by dots, and their prefixes are the
active nodes. -/
namespace Dfsm
open Keyed (Record)

/-- A value whose every entry names a stored child, leaves standing as their own key.
Legal configurations have this shape, and so has whatever a transition makes of one. -/
inductive Shaped : Record StateNodeIR → StateValue → Prop where
  | str {states key child} (found : Keyed.get states key = some child) (leaf : child.isLeaf = true) :
      Shaped states (.str key)
  | obj {states entries} (unique : (Keyed.keys entries).Nodup) (any : entries ≠ [])
      (known : ∀ k v, Keyed.get entries k = some v → ∃ child, Keyed.get states k = some child ∧
        (child.isLeaf = true → v = .str k))
      (below : ∀ k v child, Keyed.get entries k = some v → Keyed.get states k = some child →
        child.isLeaf = false → Shaped child.states v) : Shaped states (.obj entries)

theorem keysSome {α} {entries : Record α} {k} (mem : k ∈ Keyed.keys entries) : entries ≠ [] := by
  rintro rfl; simp [Keyed.keys] at mem

theorem legalShapedIn {type states v} (legal : LegalIn type states v)
    (formed : ∀ k child, Keyed.get states k = some child → Valid child) (any : states ≠ []) : Shaped states v := by
  induction legal with
  | leafChild found leaf => exact .str found leaf
  | nested found inner below ih =>
    rename_i states key child v
    have valid := formed _ _ found
    refine .obj (by simp [Keyed.keys]) (by simp) ?_ ?_
    · intro k w got
      simp only [Keyed.getSingle] at got
      split at got
      · subst k; exact ⟨child,found,by simp [inner]⟩
      · contradiction
    · intro k w other got here _
      simp only [Keyed.getSingle] at got
      split at got
      · subst k
        cases got
        cases Option.some.inj (found.symm.trans here)
        refine ih (fun j c hc => validChildren valid _ (Keyed.getSome hc)) ?_
        cases valid with
        | leaf leaf => rw [leaf] at inner; contradiction
        | compound _ _ hc => exact List.ne_nil_of_mem (Keyed.getSome hc)
        | parallel _ any => exact any
      · contradiction
  | regions unique all leaves below ih =>
    rename_i states entries
    have stored (k v) (got : Keyed.get entries k = some v) : ∃ child, Keyed.get states k = some child := by
      have mem : k ∈ Keyed.keys entries := Keyed.getIsSome.mp (by simp [got])
      exact Option.isSome_iff_exists.mp (Keyed.getIsSome.mpr ((all k).mp mem))
    refine .obj unique ?_ ?_ ?_
    · obtain ⟨e,mem⟩ := List.exists_mem_of_ne_nil _ any
      exact keysSome ((all e.1).mpr (List.mem_map.mpr ⟨e,mem,rfl⟩))
    · intro k v got
      obtain ⟨child,found⟩ := stored k v got
      exact ⟨child,found,fun leaf => leaves k child v found leaf got⟩
    · intro k v child got found inner
      have valid := formed k child found
      refine ih k child v found inner got (fun j c hc => validChildren valid _ (Keyed.getSome hc)) ?_
      cases valid with
      | leaf leaf => rw [leaf] at inner; contradiction
      | compound _ _ hc => exact List.ne_nil_of_mem (Keyed.getSome hc)
      | parallel _ any => exact any

theorem shapedMono {states states' : Record StateNodeIR} {v} (shaped : Shaped states v)
    (more : ∀ k child, Keyed.get states k = some child → Keyed.get states' k = some child) : Shaped states' v := by
  cases shaped with
  | str found leaf => exact .str (more _ _ found) leaf
  | obj unique any known below =>
    refine .obj unique any ?_ ?_
    · intro k v got
      obtain ⟨child,found,leaf⟩ := known k v got
      exact ⟨child,more k child found,leaf⟩
    · intro k v child got found inner
      obtain ⟨child',found',_⟩ := known k v got
      cases Option.some.inj ((more k child' found').symm.trans found)
      exact below k v child got found' inner

theorem rootSome {machine : MachineDefinition} (loaded : Loaded machine) : rootStates machine.toRawMachine ≠ [] := by
  obtain ⟨given,_,built,any,same⟩ := loadedStates loaded
  obtain ⟨e,mem⟩ := List.exists_mem_of_ne_nil _ any
  have stays : e ∈ machine.states := by
    rw [same]
    split
    · exact mem
    · rename_i none
      rw [Keyed.set,if_neg none]
      exact (Keyed.insertPerm _ _ _).symm.subset (List.mem_cons_of_mem _ mem)
  have found := Keyed.getOfMem (loadedUnique loaded) (show (e.1,e.2) ∈ machine.states from stays)
  exact List.ne_nil_of_mem (Keyed.getSome ((rootGet loaded).mpr ⟨found,fun _ => builtExplicit built e mem⟩))

theorem legalShaped {machine : MachineDefinition} (loaded : Loaded machine) {v}
    (legal : Legal machine.toRawMachine v) : Shaped machine.states v := by
  rcases legal with legal | ⟨_,rfl,error,found,leaf⟩
  · exact shapedMono (legalShapedIn legal (fun k child found => wellFormedValid (rootWellFormed loaded found))
      (rootSome loaded)) (fun k child found => ((rootGet loaded).mp found).1)
  · exact .str found leaf

mutual
/-- The leaf chains the walk finds. Walking the regions of a parallel it stops at a
leaf region; anywhere else it walks on into the value standing at a leaf's key. -/
def valueChains (regions : Bool) (states : Record StateNodeIR) : StateValue → List (List String)
  | .str key => [[key]]
  | .obj entries => entryChains regions states entries
def entryChains (regions : Bool) (states : Record StateNodeIR) : List (String × StateValue) → List (List String)
  | [] => []
  | (key,v)::rest => (match Keyed.get states key with
      | none => []
      | some node => if regions && node.isLeaf then [[key]]
        else (valueChains (!regions && node.type = .parallel) node.states v).map (key::·)) ++
    entryChains regions states rest
end

theorem memEntryChains {regions states c} {entries : List (String × StateValue)} :
    c ∈ entryChains regions states entries ↔ ∃ key v node, (key,v) ∈ entries ∧ Keyed.get states key = some node ∧
      (if regions && node.isLeaf then c = [key]
        else ∃ tail ∈ valueChains (!regions && node.type = .parallel) node.states v, c = key::tail) := by
  induction entries with
  | nil => simp [entryChains]
  | cons first rest ih =>
    obtain ⟨key,v⟩ := first
    rw [entryChains,List.mem_append,ih]
    constructor
    · rintro (here | ⟨key',v',node,mem,found,shape⟩)
      · cases hg : Keyed.get states key with
        | none => simp [hg] at here
        | some node =>
          refine ⟨key,v,node,List.mem_cons_self,hg,?_⟩
          simp only [hg] at here
          split at here
          · rename_i h; rw [if_pos h]; simpa using here
          · rename_i h
            rw [if_neg h]
            obtain ⟨tail,mem,rfl⟩ := List.mem_map.mp here
            exact ⟨tail,mem,rfl⟩
      · exact ⟨key',v',node,List.mem_cons_of_mem _ mem,found,shape⟩
    · rintro ⟨key',v',node,mem,found,shape⟩
      rcases List.mem_cons.mp mem with same | inside
      · cases same
        left
        simp only [found]
        split
        · rename_i h; rw [if_pos h] at shape; simp [shape]
        · rename_i h
          rw [if_neg h] at shape
          obtain ⟨tail,mem,rfl⟩ := shape
          exact List.mem_map.mpr ⟨tail,mem,rfl⟩
      · exact .inr ⟨key',v',node,inside,found,shape⟩

theorem valueChainsSome {regions states v} (shaped : Shaped states v) : ∃ c, c ∈ valueChains regions states v := by
  induction shaped generalizing regions with
  | str => exact ⟨_,List.mem_cons_self⟩
  | obj unique any known below ih =>
    rename_i states entries
    obtain ⟨⟨key,v⟩,mem⟩ := List.exists_mem_of_ne_nil _ any
    have got := Keyed.getOfMem unique mem
    obtain ⟨child,found,leaf⟩ := known key v got
    simp only [valueChains,memEntryChains]
    by_cases stop : (regions && child.isLeaf) = true
    · exact ⟨[key],key,v,child,mem,found,by rw [if_pos stop]⟩
    · have tail : ∃ c, c ∈ valueChains (!regions && child.type = .parallel) child.states v := by
        cases h : child.isLeaf with
        | true => rw [leaf h]; exact ⟨_,List.mem_cons_self⟩
        | false => exact ih key v child got found h
      obtain ⟨c,hc⟩ := tail
      exact ⟨key::c,key,v,child,mem,found,by rw [if_neg stop]; exact ⟨c,hc,rfl⟩⟩

theorem activeOnChain {regions states v q} (shaped : Shaped states v) (active : isActive states v q = true) :
    ∃ c ∈ valueChains regions states v, q <+: c := by
  induction q generalizing regions states v with
  | nil => simp [isActive] at active
  | cons key q ih =>
    cases shaped with
    | str found leaf =>
      simp only [isActive,Bool.and_eq_true,decide_eq_true_eq,List.isEmpty_iff] at active
      obtain ⟨⟨rfl,rfl⟩,_⟩ := active
      exact ⟨_,List.mem_cons_self,List.prefix_refl _⟩
    | obj unique any known below =>
      rename_i entries
      simp only [isActive] at active
      split at active
      · rename_i w child got found
        have mem := Keyed.getSome got
        simp only [valueChains,memEntryChains]
        by_cases stop : (regions && child.isLeaf) = true
        · have leaf : child.isLeaf = true := (Bool.and_eq_true_iff.mp stop).2
          simp only [leaf,Bool.not_true,Bool.false_and,Bool.or_false,List.isEmpty_iff] at active
          subst q
          exact ⟨[key],⟨key,w,child,mem,found,by rw [if_pos stop]⟩,List.prefix_refl _⟩
        · obtain ⟨c,hc,pre⟩ : ∃ c ∈ valueChains (!regions && child.type = .parallel) child.states w, q <+: c := by
            simp only [Bool.or_eq_true,List.isEmpty_iff,Bool.and_eq_true,Bool.not_eq_true'] at active
            rcases active with rfl | ⟨inner,active⟩
            · cases h : child.isLeaf with
              | true =>
                obtain ⟨child',found',leaf⟩ := known key w got
                cases Option.some.inj (found.symm.trans found')
                rw [leaf h]
                exact ⟨_,List.mem_cons_self,List.nil_prefix⟩
              | false =>
                obtain ⟨c,hc⟩ := valueChainsSome (below key w child got found h)
                exact ⟨c,hc,List.nil_prefix⟩
            · exact ih (below key w child got found inner) active
          refine ⟨key::c,⟨key,w,child,mem,found,?_⟩,List.cons_prefix_cons.mpr ⟨rfl,pre⟩⟩
          rw [if_neg stop]
          exact ⟨c,hc,rfl⟩
      · contradiction

theorem chainActive {regions states v c q n current} (shaped : Shaped states v)
    (formed : ∀ k child, Keyed.get states k = some child → Valid child)
    (leaf : c ∈ valueChains regions states v) (pre : q <+: c) (any : q ≠ [])
    (stored : lookupParts states current q = some n) : isActive states v q = true := by
  induction q generalizing regions states v c current with
  | nil => contradiction
  | cons key q ih =>
    obtain ⟨child,found,below⟩ := lookupHead stored
    cases shaped with
    | str =>
      simp only [valueChains,List.mem_singleton] at leaf
      subst c
      obtain ⟨rfl,rfl⟩ : key = _ ∧ q = [] := by simpa using List.cons_prefix_cons.mp pre
      simp [isActive,Keyed.has,found]
    | obj unique any known belowShaped =>
      rename_i entries
      simp only [valueChains,memEntryChains] at leaf
      obtain ⟨key',w,node,mem,found',shape⟩ := leaf
      have got := Keyed.getOfMem unique mem
      have head : key = key' := by
        split at shape
        · subst c; exact (List.cons_prefix_cons.mp pre).1
        · obtain ⟨tail,_,rfl⟩ := shape; exact (List.cons_prefix_cons.mp pre).1
      subst key'
      obtain rfl : child = node := Option.some.inj (found.symm.trans found')
      cases q with
      | nil => simp [isActive,got,found]
      | cons j q =>
        obtain ⟨grandchild,foundBelow,_⟩ := lookupHead below
        have inner := innerOfChild (formed key child found) foundBelow
        have goes : ¬(regions && child.isLeaf) = true := by simp [inner]
        rw [if_neg goes] at shape
        obtain ⟨tail,hc,rfl⟩ := shape
        simp only [isActive,got,found,inner,List.isEmpty_cons,Bool.false_or,Bool.not_false,Bool.true_and]
        exact ih (belowShaped key w child got found inner)
          (fun k c hk => validChildren (formed key child found) _ (Keyed.getSome hk)) hc
          (List.cons_prefix_cons.mp pre).2 (by simp) below

mutual
/-- No key the value holds is empty or contains a dot. -/
def plainValue : StateValue → Bool
  | .str key => Dotted.Plain key
  | .obj entries => plainEntries entries
def plainEntries : List (String × StateValue) → Bool
  | [] => true
  | (key,v)::rest => Dotted.Plain key && plainValue v && plainEntries rest
end

theorem memPlainEntries {entries : List (String × StateValue)} :
    plainEntries entries = true ↔ ∀ e ∈ entries, Dotted.Plain e.1 ∧ plainValue e.2 = true := by
  induction entries with
  | nil => simp [plainEntries]
  | cons first rest ih =>
    obtain ⟨key,v⟩ := first
    simp [plainEntries,ih]

theorem shapedPlain {states v} (shaped : Shaped states v) (plain : plainStates states = true) : plainValue v = true := by
  induction shaped with
  | str found => exact decide_eq_true (plainEntry plain found).1
  | obj unique any known below ih =>
    rw [plainValue,memPlainEntries]
    rintro ⟨key,v⟩ mem
    have got := Keyed.getOfMem unique mem
    obtain ⟨child,found,leaf⟩ := known key v got
    obtain ⟨here,inside⟩ := plainEntry plain found
    refine ⟨here,?_⟩
    cases h : child.isLeaf with
    | true => rw [leaf h]; exact decide_eq_true here
    | false => exact ih key v child got found h inside

theorem childPathJoin {front : List String} (plain : ∀ k ∈ front, Dotted.Plain k) (key : String) :
    childPath (Dotted.join front) key = Dotted.join (front ++ [key]) := by
  cases front with
  | nil => rfl
  | cons j rest =>
    rw [childPath,if_neg (by rw [Dotted.joinEmpty plain]; simp),Dotted.joinSnoc (by simp)]

section
variable {machine : RawMachine}

/-- Where a container stands in the definition: the chain down to it, whose children these are. -/
structure At (machine : RawMachine) (front : List String) (states : Record StateNodeIR) : Prop where
  plain : ∀ k ∈ front, Dotted.Plain k
  step : ∀ k child, Keyed.get states k = some child → lookupParts machine.states none (front ++ [k]) = some child

theorem atRoot : At machine [] machine.states := ⟨by simp,fun k child found => by simp [lookupParts,found]⟩

theorem atBelow {front states k child} (here : At machine front states) (plain : Dotted.Plain k)
    (found : Keyed.get states k = some child) : At machine (front ++ [k]) child.states := by
  refine ⟨?_,?_⟩
  · intro j mem
    rcases List.mem_append.mp mem with inside | last
    · exact here.plain j inside
    · rw [List.mem_singleton.mp last]; exact plain
  · intro j grandchild below
    rw [lookupPartsAppend (here.step k child found) (by simp)]
    simp [lookupParts,below]

def Entry (states : Record StateNodeIR) (e : String × StateValue) : Prop :=
  ∃ child, Keyed.get states e.1 = some child ∧ (child.isLeaf = true → e.2 = .str e.1) ∧
    (child.isLeaf = false → Shaped child.states e.2)

theorem shapedEntries {states entries} (shaped : Shaped states (.obj entries)) : ∀ e ∈ entries, Entry states e := by
  cases shaped with
  | obj unique _ known below =>
    intro e mem
    have got := Keyed.getOfMem unique (show (e.1,e.2) ∈ entries from mem)
    obtain ⟨child,found,leaf⟩ := known e.1 e.2 got
    exact ⟨child,found,leaf,fun inner => below e.1 e.2 child got found inner⟩

mutual
theorem leavesOfValue : (v : StateValue) → ∀ {front states}, At machine front states → plainValue v = true →
    Shaped states v → getActiveLeafPaths machine v (Dotted.join front) =
      (valueChains false states v).map (fun c => Dotted.join (front ++ c))
  | .str key, front, states, here, _, _ => by
    simp [getActiveLeafPaths,valueChains,childPathJoin here.plain]
  | .obj entries, front, states, here, plain, shaped => by
    simp only [getActiveLeafPaths,valueChains]
    exact leavesOfEntries entries here (memPlainEntries.mp plain) (shapedEntries shaped)
theorem leavesOfEntries : (entries : List (String × StateValue)) → ∀ {front states}, At machine front states →
    (∀ e ∈ entries, Dotted.Plain e.1 ∧ plainValue e.2 = true) → (∀ e ∈ entries, Entry states e) →
    leafPathsOfEntries machine entries (Dotted.join front) =
      (entryChains false states entries).map (fun c => Dotted.join (front ++ c))
  | [], _, _, _, _, _ => rfl
  | (key,.str leaf)::rest, front, states, here, plain, fit => by
    obtain ⟨child,found,_,_⟩ := fit _ List.mem_cons_self
    dsimp only at found
    have below := atBelow here (plain _ List.mem_cons_self).1 found
    rw [leafPathsOfEntries,entryChains,found,List.map_append,
      leavesOfEntries rest here (fun e mem => plain e (List.mem_cons_of_mem _ mem))
        (fun e mem => fit e (List.mem_cons_of_mem _ mem))]
    congr 1
    simp [childPathJoin here.plain,childPathJoin below.plain,getActiveLeafPaths,valueChains]
  | (key,.obj entries)::rest, front, states, here, plain, fit => by
    obtain ⟨child,found,leaf,inner⟩ := fit _ List.mem_cons_self
    obtain ⟨clean,inside⟩ := plain _ List.mem_cons_self
    dsimp only at found leaf inner clean inside
    have below := atBelow here clean found
    have container : child.isLeaf = false := by
      cases h : child.isLeaf with
      | false => rfl
      | true => have := leaf h; contradiction
    have shaped := inner container
    rw [leafPathsOfEntries,entryChains,found,List.map_append,
      leavesOfEntries rest here (fun e mem => plain e (List.mem_cons_of_mem _ mem))
        (fun e mem => fit e (List.mem_cons_of_mem _ mem))]
    congr 1
    simp only [childPathJoin here.plain,getNodeJoin below.plain,here.step key child found,Option.map_some,
      Option.some.injEq,Bool.false_and,Bool.false_eq_true,if_false,Bool.not_false,Bool.true_and,List.map_map,
      Function.comp_def]
    split
    · rename_i parallel
      rw [leavesOfRegions entries below (by simp) (memPlainEntries.mp inside) (shapedEntries shaped)]
      simp [parallel,valueChains]
    · rename_i other
      rw [leavesOfValue (.obj entries) below inside shaped]
      simp [other]
theorem leavesOfRegions : (entries : List (String × StateValue)) → ∀ {front states}, At machine front states →
    front ≠ [] → (∀ e ∈ entries, Dotted.Plain e.1 ∧ plainValue e.2 = true) → (∀ e ∈ entries, Entry states e) →
    leafPathsOfRegions machine entries (Dotted.join front) =
      (entryChains true states entries).map (fun c => Dotted.join (front ++ c))
  | [], _, _, _, _, _, _ => rfl
  | (key,v)::rest, front, states, here, below, plain, fit => by
    obtain ⟨child,found,leaf,inner⟩ := fit _ List.mem_cons_self
    obtain ⟨clean,plainBelow⟩ := plain _ List.mem_cons_self
    dsimp only at found leaf inner clean plainBelow
    have inside := atBelow here clean found
    have path := (Dotted.joinSnoc below key).symm
    rw [leafPathsOfRegions.eq_def,entryChains,found,List.map_append]
    dsimp only
    rw [leavesOfRegions rest here below (fun e mem => plain e (List.mem_cons_of_mem _ mem))
      (fun e mem => fit e (List.mem_cons_of_mem _ mem))]
    congr 1
    simp only [path,getNodeJoin inside.plain,here.step key child found,Option.map_some,Option.some.injEq,Bool.true_and]
    cases h : child.isLeaf with
    | true => simp
    | false =>
      have shaped := inner h
      simp only [Bool.false_eq_true,if_false,List.map_map,Function.comp_def,Bool.not_true,Bool.false_and]
      cases v with
      | str s =>
        simp [valueChains,← Dotted.joinSnoc (by simp : front ++ [key] ≠ [])]
      | obj entries =>
        simp only [valueChains]
        rw [leavesOfEntries entries inside (memPlainEntries.mp plainBelow) (shapedEntries shaped)]
        simp
end

theorem plainLeafPaths {v} (plain : plainValue v = true) (shaped : Shaped machine.states v) :
    getActiveLeafPaths machine v "" = (valueChains false machine.states v).map Dotted.join :=
  leavesOfValue v atRoot plain shaped

theorem activeLeafPaths (clean : KeysClean machine) {v} (shaped : Shaped machine.states v) :
    getActiveLeafPaths machine v "" = (valueChains false machine.states v).map Dotted.join :=
  plainLeafPaths (shapedPlain shaped clean) shaped

end

end Dfsm
