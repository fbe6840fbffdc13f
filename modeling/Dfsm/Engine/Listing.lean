import Dfsm.Engine.Advertised
import Dfsm.Lib.Relisted

/-! State values that are equal as nested maps and list their keys in different orders:
what the engine reads off both alike, and what only up to the order of its parts. -/
namespace Dfsm
open Keyed (Record Relisted)

/-- At every level the same keys, in whatever order, over values that are again the same. -/
inductive SameMap : StateValue → StateValue → Prop where
  | str (key : String) : SameMap (.str key) (.str key)
  | obj {a b : Record StateValue} (relisted : Relisted a b)
      (values : ∀ k v w, Keyed.get a k = some v → Keyed.get b k = some w → SameMap v w) : SameMap (.obj a) (.obj b)

theorem sameSingle {key v w} (same : SameMap v w) : SameMap (.obj [(key,v)]) (.obj [(key,w)]) := by
  refine .obj ⟨by simp [Keyed.keys],.refl _⟩ (fun k x y got got' => ?_)
  rw [Keyed.getSingle] at got got'
  split at got
  · rename_i here
    rw [if_pos here] at got'
    cases got
    cases got'
    exact same
  · contradiction

theorem sameAlone {key v w} (same : SameMap (.obj [(key,v)]) w) : ∃ u, w = .obj [(key,u)] ∧ SameMap v u := by
  cases same with
  | @obj _ b relisted values =>
    have alone : Keyed.keys b = [key] := List.perm_singleton.mp relisted.perm.symm
    obtain ⟨e,rfl,rfl⟩ := List.map_eq_singleton_iff.mp alone
    exact ⟨e.2,rfl,values e.1 v e.2 (by simp) (by simp [Keyed.getCons])⟩

theorem sameSet {a b : Record StateValue} {v w} (same : SameMap (.obj a) (.obj b)) (key : String) (value : SameMap v w) :
    SameMap (.obj (Keyed.set a key v)) (.obj (Keyed.set b key w)) := by
  cases same with
  | obj relisted values =>
    refine .obj (Keyed.relistedSet relisted key v w) (fun k x y got got' => ?_)
    rw [Keyed.getSet] at got got'
    split at got
    · rename_i here
      rw [if_pos here] at got'
      cases got
      cases got'
      exact value
    · rename_i other
      rw [if_neg other] at got'
      exact values k x y got got'

theorem sameEmpty : SameMap (.obj []) (.obj []) := .obj ⟨List.nodup_nil,.refl _⟩ (by simp)

theorem sameGet {a b : Record StateValue} (same : SameMap (.obj a) (.obj b)) (key : String) :
    Keyed.get a key = none ∧ Keyed.get b key = none ∨
      ∃ v w, Keyed.get a key = some v ∧ Keyed.get b key = some w ∧ SameMap v w := by
  cases same with
  | obj relisted values =>
    cases got : Keyed.get a key with
    | none => exact .inl ⟨rfl,(Keyed.relistedNone relisted).mp got⟩
    | some v =>
      obtain ⟨w,got'⟩ := Keyed.relistedGet relisted got
      exact .inr ⟨v,w,rfl,got',values key v w got got'⟩

/-! Legality does not see the order. -/

theorem legalInSame {type states v w} (legal : LegalIn type states v) (same : SameMap v w) : LegalIn type states w := by
  induction legal generalizing w with
  | leafChild found leaf =>
    cases same
    exact .leafChild found leaf
  | nested found inner below ih =>
    obtain ⟨u,rfl,under⟩ := sameAlone same
    exact .nested found inner (ih under)
  | @regions states entries unique all leaves below ih =>
    cases same with
    | @obj _ b relisted values =>
      refine .regions (Keyed.relistedUnique relisted) (fun k => ?_) ?_ ?_
      · rw [← relisted.perm.mem_iff,all]
      · intro k r u found leaf got
        obtain ⟨x,got'⟩ := Keyed.relistedGet (Keyed.relistedSymm relisted) got
        have held := values k x u got' got
        rw [leaves k r x found leaf got'] at held
        cases held
        rfl
      · intro k r u found inner got
        obtain ⟨x,got'⟩ := Keyed.relistedGet (Keyed.relistedSymm relisted) got
        exact ih k r x found inner got' (values k x u got' got)

theorem legalSame {machine : RawMachine} {v w} (legal : Legal machine v) (same : SameMap v w) : Legal machine w := by
  rcases legal with legal | ⟨parallel,rfl,error⟩
  · exact .inl (legalInSame legal same)
  · cases same
    exact .inr ⟨parallel,rfl,error⟩

theorem legalRefl {type states v} (legal : LegalIn type states v) : SameMap v v := by
  induction legal with
  | leafChild => exact .str _
  | nested _ _ _ ih => exact sameSingle ih
  | @regions states entries unique all leaves below ih =>
    refine .obj ⟨unique,.refl _⟩ (fun k v w got got' => ?_)
    cases Option.some.inj (got.symm.trans got')
    obtain ⟨r,found⟩ := Option.isSome_iff_exists.mp (Keyed.getIsSome.mpr ((all k).mp (Keyed.getIsSome.mp (by simp [got]))))
    cases leaf : r.isLeaf with
    | true =>
      rw [leaves k r v found leaf got]
      exact .str _
    | false => exact ih k r v found leaf got

/-! The leaf paths, up to their order. -/

section
variable (machine : RawMachine)

def leavesOfEntry (currentPath : String) (childVal : StateValue) : List String :=
  if (getNodeByPath machine currentPath).map (·.type) = some .parallel then
    match childVal with
    | .str leaf => getActiveLeafPaths machine (.str leaf) currentPath
    | .obj regions => leafPathsOfRegions machine regions currentPath
  else getActiveLeafPaths machine childVal currentPath

def leavesOfRegion (regionPath : String) (regionVal : StateValue) : List String :=
  if (getNodeByPath machine regionPath).map (·.isLeaf) = some true then [regionPath]
  else match regionVal with
    | .str leaf => [regionPath ++ "." ++ leaf]
    | .obj entries => leafPathsOfEntries machine entries regionPath

theorem entryLeavesFlat (entries : List (String × StateValue)) (parentPath : String) :
    leafPathsOfEntries machine entries parentPath =
      entries.flatMap (fun e => leavesOfEntry machine (childPath parentPath e.1) e.2) := by
  induction entries with
  | nil => rfl
  | cons first rest ih =>
    obtain ⟨key,v⟩ := first
    rw [leafPathsOfEntries.eq_def,List.flatMap_cons,← ih]
    rfl

theorem regionLeavesFlat (entries : List (String × StateValue)) (currentPath : String) :
    leafPathsOfRegions machine entries currentPath =
      entries.flatMap (fun e => leavesOfRegion machine (currentPath ++ "." ++ e.1) e.2) := by
  induction entries with
  | nil => rfl
  | cons first rest ih =>
    obtain ⟨key,v⟩ := first
    rw [leafPathsOfRegions.eq_def,List.flatMap_cons,← ih]
    rfl

theorem sameWalks {v w} (same : SameMap v w) :
    (∀ path, (getActiveLeafPaths machine v path).Perm (getActiveLeafPaths machine w path)) ∧
      ∀ path, (leavesOfEntry machine path v).Perm (leavesOfEntry machine path w) ∧
        (leavesOfRegion machine path v).Perm (leavesOfRegion machine path w) := by
  induction same with
  | str key => exact ⟨fun _ => .refl _,fun _ => ⟨.refl _,.refl _⟩⟩
  | obj relisted values ih =>
    rename_i a b
    have entries (path) : (leafPathsOfEntries machine a path).Perm (leafPathsOfEntries machine b path) := by
      rw [entryLeavesFlat,entryLeavesFlat]
      exact Keyed.relistedFlat relisted (fun k v w got got' => ((ih k v w got got').2 (childPath path k)).1)
    have regions (path) : (leafPathsOfRegions machine a path).Perm (leafPathsOfRegions machine b path) := by
      rw [regionLeavesFlat,regionLeavesFlat]
      exact Keyed.relistedFlat relisted (fun k v w got got' => ((ih k v w got got').2 (path ++ "." ++ k)).2)
    refine ⟨fun path => ?_,fun path => ⟨?_,?_⟩⟩
    · simpa only [getActiveLeafPaths] using entries path
    · unfold leavesOfEntry
      split
      · exact regions path
      · simpa only [getActiveLeafPaths] using entries path
    · unfold leavesOfRegion
      split
      · exact .refl _
      · exact entries path

theorem leavesSame {v w} (same : SameMap v w) :
    (getActiveLeafPaths machine v "").Perm (getActiveLeafPaths machine w "") := (sameWalks machine same).1 ""

end

/-! The answers of a container, which takes its regions as they are declared. -/

theorem childSame {event : String} {child : StateNodeIR} {v w}
    (below : child.isLeaf = false → beneath event child.type child.states v = beneath event child.type child.states w) :
    childMatches event child v = childMatches event child w := by
  unfold childMatches
  cases leaf : child.isLeaf with
  | true => rfl
  | false => rw [if_neg (by simp),if_neg (by simp),searchInner leaf,searchInner leaf,below leaf]

theorem slotSame {event : String} {states : Record StateNodeIR} {a b : Record StateValue}
    (same : SameMap (.obj a) (.obj b)) (below : ∀ key child v w, Keyed.get states key = some child →
      Keyed.get a key = some v → SameMap v w → child.isLeaf = false →
      beneath event child.type child.states v = beneath event child.type child.states w) (key : String) :
    slotMatches event states a key = slotMatches event states b key := by
  unfold slotMatches
  rcases sameGet same key with ⟨absent,absent'⟩ | ⟨v,w,got,got',under⟩
  · rw [absent,absent']
  · rw [got,got']
    cases found : Keyed.get states key with
    | none => rfl
    | some child => exact childSame (below key child v w found got under)

theorem beneathSame {event : String} {type states v w} (legal : LegalIn type states v) (same : SameMap v w)
    (unique : (Keyed.keys states).Nodup) {parentPath} (formed : ∀ e ∈ states, WellFormed parentPath e.1 e.2) :
    beneath event type states v = beneath event type states w := by
  have into {states : Record StateNodeIR} {parentPath key child} (formed : ∀ e ∈ states, WellFormed parentPath e.1 e.2)
      (found : Keyed.get states key = some child) := formed _ (Keyed.getSome found)
  induction legal generalizing w parentPath with
  | leafChild =>
    cases same
    rfl
  | @nested states key child v found inner below ih =>
    obtain ⟨u,rfl,under⟩ := sameAlone same
    rw [nestedSlot found inner,nestedSlot found inner]
    refine slotSame (sameSingle under) (fun k c x y here got held _ => ?_) key
    rw [Keyed.getSingle] at got
    split at got
    · rename_i same
      subst same
      cases got
      cases Option.some.inj (found.symm.trans here)
      have child := into formed found
      exact ih held (wellFormedUnique child) (wellFormedChildren child)
    · contradiction
  | @regions states entries unique' all leaves below ih =>
    have whole := legalInSame (.regions unique' all leaves below) same
    cases same with
    | @obj _ b relisted values =>
      have all' : ∀ k, k ∈ Keyed.keys b ↔ k ∈ Keyed.keys states := by
        cases whole with
        | regions _ all' => exact all'
      have left : beneath event .parallel states (.obj entries) = searchRegions event states entries := rfl
      have right : beneath event .parallel states (.obj b) = searchRegions event states b := rfl
      rw [left,right,regionsSlots unique all,regionsSlots unique all']
      refine List.flatMap_congr (fun key _ => slotSame (.obj relisted values) (fun k c x y found got held inner => ?_) key)
      have child := into formed found
      exact ih k c x found inner got held (wellFormedUnique child) (wellFormedChildren child)

/-! The value a transition makes. -/

/-- The same branch: a leaf's key, or one key over values that are the same. -/
inductive SameSlot : StateValue → StateValue → Prop where
  | str (key : String) : SameSlot (.str key) (.str key)
  | obj {key v w} (under : SameMap v w) : SameSlot (.obj [(key,v)]) (.obj [(key,w)])

theorem slotMap {v w} (same : SameSlot v w) : SameMap v w := by
  cases same with
  | str key => exact .str key
  | obj under => exact sameSingle under

theorem sameRegion {branch branch'} (same : SameMap branch branch') (regionKey : String) :
    SameMap (regionValue branch regionKey) (regionValue branch' regionKey) := by
  cases same with
  | str key => exact .str key
  | obj relisted values =>
    have whole := SameMap.obj relisted values
    unfold regionValue
    rcases sameGet whole regionKey with ⟨absent,absent'⟩ | ⟨v,w,got,got',under⟩
    · simpa only [absent,absent',Option.getD_none] using whole
    · simpa only [got,got',Option.getD_some] using under

theorem sameCursor {v w} (same : SameMap v w) (parts : List String) :
    extractCursor v parts = none ∧ extractCursor w parts = none ∨
      ∃ x y, extractCursor v parts = some x ∧ extractCursor w parts = some y ∧ SameMap x y := by
  induction parts generalizing v w with
  | nil => exact .inr ⟨v,w,by cases v <;> rfl,by cases w <;> rfl,same⟩
  | cons part rest ih =>
    cases same with
    | str key => exact .inl ⟨rfl,rfl⟩
    | obj relisted values =>
      rcases sameGet (.obj relisted values) part with ⟨absent,absent'⟩ | ⟨x,y,got,got',under⟩
      · exact .inl ⟨by simp [extractCursor,absent],by simp [extractCursor,absent']⟩
      · simpa only [extractCursor,got,got',Option.bind_some] using ih under

theorem sameExtract {v w} (same : SameMap v w) (dotPath : String) :
    SameMap (.obj (extractSubStateObject v dotPath)) (.obj (extractSubStateObject w dotPath)) := by
  unfold extractSubStateObject
  rcases sameCursor same (Dotted.parts dotPath) with ⟨none,none'⟩ | ⟨x,y,got,got',under⟩
  · rw [none,none']
    exact sameEmpty
  · rw [got,got']
    cases under with
    | str key => exact sameEmpty
    | obj relisted values => exact .obj relisted values

theorem sameBranch {machine : RawMachine} {v w target target'} (same : SameMap v w) (slot : SameSlot target target')
    (front tgt : List String) : SameSlot (builtBranch machine v target front tgt) (builtBranch machine w target' front tgt) := by
  induction tgt generalizing front with
  | nil => exact slot
  | cons ancestorKey rest ih =>
    cases rest with
    | nil => exact slot
    | cons regionKey rest =>
      have branch := ih (front ++ [ancestorKey])
      rw [builtBranch,builtBranch]
      split
      · exact .obj (sameSet (sameExtract same _) regionKey (sameRegion (slotMap branch) regionKey))
      · exact .obj (slotMap branch)

theorem sameWith {v w x y} (same : SameMap v w) (key : String) (value : SameMap x y) :
    SameMap (withEntry v key x) (withEntry w key y) := by
  cases same with
  | str => exact sameSingle value
  | obj relisted values => exact sameSet (.obj relisted values) key value

theorem sameHeld {v w} (same : SameMap v w) (key : String) :
    SameMap ((entryAt v key).getD (.str "")) ((entryAt w key).getD (.str "")) := by
  cases same with
  | str => exact .str _
  | obj relisted values =>
    rcases sameGet (.obj relisted values) key with ⟨absent,absent'⟩ | ⟨x,y,got,got',under⟩
    · simp only [entryAt,absent,absent']
      exact .str _
    · simpa only [entryAt,got,got',Option.getD_some] using under

theorem sameReplaced {machine : RawMachine} {v w branch branch'} (same : SameMap v w) (slot : SameSlot branch branch')
    (front lca : List String) : SameMap (replaceAtLca machine v front branch lca) (replaceAtLca machine w front branch' lca) := by
  induction lca generalizing v w front with
  | nil =>
    rw [replaceAtLca,replaceAtLca]
    exact slotMap slot
  | cons key rest ih =>
    cases rest with
    | cons next rest =>
      rw [replaceAtLca,replaceAtLca]
      exact sameWith same key (ih (sameHeld same key) _)
    | nil =>
      rw [replaceAtLca.eq_def,replaceAtLca.eq_def machine w]
      dsimp only
      have plain := sameWith same key (slotMap slot)
      cases kind : (getNodeByPath machine (Dotted.join (front ++ [key]))).map (·.type) with
      | none => exact plain
      | some type =>
        cases type with
        | atomic => exact plain
        | final => exact plain
        | compound => exact plain
        | parallel =>
          cases same with
          | str => exact plain
          | obj relisted values =>
            cases slot with
            | str => exact plain
            | obj under =>
              dsimp only
              have whole := SameMap.obj relisted values
              refine sameSet whole key (sameSet ?_ _ under)
              rcases sameGet whole key with ⟨absent,absent'⟩ | ⟨x,y,got,got',held⟩
              · rw [absent,absent']
                exact sameEmpty
              · rw [got,got']
                cases held with
                | str => exact sameEmpty
                | obj relisted values => exact .obj relisted values

theorem sameNext {machine : RawMachine} {v w branch branch'} (same : SameMap v w) (slot : SameSlot branch branch')
    (lcaParts tgtParts : List String) :
    SameMap (nextStateValue machine v lcaParts tgtParts branch) (nextStateValue machine w lcaParts tgtParts branch') := by
  cases lcaParts with
  | cons key rest => exact sameReplaced same slot [] (key::rest)
  | nil =>
    have plain := slotMap slot
    cases kind : machine.type with
    | compound => simpa only [nextStateValue,kind] using plain
    | parallel =>
      cases same with
      | str => simpa only [nextStateValue,kind] using plain
      | obj relisted values =>
        simp only [nextStateValue,kind]
        exact sameSet (.obj relisted values) _ (sameRegion plain _)

end Dfsm
