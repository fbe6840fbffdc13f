import Dfsm.Engine.Soundness
import Dfsm.Go.Machine

/-! Target resolution of the Go SDK against the reference: exactly when the two find the
same state. -/
namespace Dfsm.Go
open Keyed (Record)

/-- Both definitions have states at the same places. -/
def SameTree (machine : RawMachine) (m : MachineDefinition) : Prop :=
  ∀ parts : List String, (∀ p ∈ parts, p ≠ "") →
    (getNodeByParts m.states none parts).isSome = (lookupParts machine.states none parts).isSome

def found (machine : RawMachine) (dotPath : String) : Bool := (lookupByDotPath machine.states dotPath).isSome

def hash (targetRef : String) : Bool := "#".toList.isPrefixOf targetRef.toList

/-- Without empty parts. -/
def Canonical (dotPath : String) : Prop := Dotted.join (Dotted.parts dotPath) = dotPath

def container (sourcePath : String) : String := Dotted.join (parentSegments sourcePath)
def sibling (sourcePath targetRef : String) : String := Dotted.join (parentSegments sourcePath ++ [targetRef])

/-- No container of the source, nor the search of the whole tree, has the reference. -/
def Nowhere (m : MachineDefinition) (sourcePath targetRef : String) : Prop :=
  getNodeByPath m targetRef = none ∧
  ((Keyed.get m.states targetRef).isSome = true ∨
    (∀ i < (Dotted.split sourcePath).length, getNodeByPath m (candidate ((Dotted.split sourcePath).take i) targetRef) = none) ∧
    getNodeByPath m (findPathRecursive targetRef "" m.states) = none)

/-- Where a reference stands that both SDKs take alike. -/
def Placed (machine : RawMachine) (m : MachineDefinition) (sourcePath targetRef : String) : Prop :=
  if targetRef = "" then found machine (container sourcePath) = false ∧ getNodeByPath m sourcePath = none
  else if hash targetRef = true ∧ Dotted.under machine.id (trimHash targetRef) = true then
    found machine (dropPrefix (machine.id.length + 1) (trimHash targetRef)) = false ∧ Nowhere m sourcePath (trimHash targetRef)
  else if hash targetRef = false ∧ Dotted.parts (container sourcePath) ≠ [] ∧ found machine (sibling sourcePath targetRef) = true then
    Keyed.get m.states targetRef = none ∧ Canonical (sibling sourcePath targetRef)
  else if found machine (trimHash targetRef) = true ∧
      (hash targetRef = true ∨ Objects.meetsInherited machine.states (Dotted.parts (sibling sourcePath targetRef)) = false) then
    Canonical (trimHash targetRef) ∧
    ((Keyed.get m.states (trimHash targetRef)).isSome = true ∨
      ∀ i < (Dotted.split sourcePath).length, Dotted.join ((Dotted.split sourcePath).take i) ≠ "" →
        getNodeByPath m (candidate ((Dotted.split sourcePath).take i) (trimHash targetRef)) = none)
  else Nowhere m sourcePath (trimHash targetRef)

/-- The Go SDK finds what the reference finds, and nothing where that finds nothing. -/
def Agrees (machine : RawMachine) (m : MachineDefinition) (sourcePath targetRef : String) : Prop :=
  match Objects.resolveTargetStatePath machine sourcePath targetRef with
  | .ok (some path) => resolveTargetPath m sourcePath targetRef = path
  | _ => getNodeByPath m (resolveTargetPath m sourcePath targetRef) = none

theorem joinFilter (ps : List String) : (Dotted.join (ps.filter (fun p => p != ""))).length ≤ (Dotted.join ps).length := by
  induction ps with
  | nil => exact le_refl _
  | cons p rest ih =>
    have longer : (Dotted.join rest).length ≤ (Dotted.join (p::rest)).length ∧ p.length ≤ (Dotted.join (p::rest)).length := by
      cases rest with
      | nil => simp [Dotted.join]
      | cons q tail =>
        rw [Dotted.joinCons p (by simp)]
        simp only [String.length_append]
        omega
    by_cases empty : p = ""
    · rw [List.filter_cons_of_neg (by simp [empty])]
      omega
    · rw [List.filter_cons_of_pos (by simp [empty])]
      by_cases none : rest.filter (fun p => p != "") = []
      · rw [none]
        have single : Dotted.join [p] = p := by simp [Dotted.join]
        rw [single]
        exact longer.2
      · have some : rest ≠ [] := fun nil => none (by rw [nil]; rfl)
        rw [Dotted.joinCons p none,Dotted.joinCons p some]
        simp only [String.length_append]
        omega

theorem joinParts (s : String) : (Dotted.join (Dotted.parts s)).length ≤ s.length := by
  have shorter := joinFilter (Dotted.split s)
  rwa [Dotted.joinSplit] at shorter

theorem joinBlank {ks : List String} (blank : Dotted.join ks = "") : ks = [] ∨ ks = [""] := by
  cases ks with
  | nil => exact .inl rfl
  | cons k rest =>
    cases rest with
    | nil =>
      have single : Dotted.join [k] = k := by simp [Dotted.join]
      exact .inr (by rw [← single,blank])
    | cons next tail =>
      rw [Dotted.joinCons k (by simp)] at blank
      have lengths := congrArg String.length blank
      simp only [String.length_append] at lengths
      simp at lengths

theorem partsAppend (s t : String) : Dotted.parts (s ++ "." ++ t) = Dotted.parts s ++ Dotted.parts t := by
  rw [Dotted.parts,Dotted.splitAppend,List.filter_append]
  rfl

section
variable {machine : RawMachine} {m : MachineDefinition}

theorem nodeFound (same : SameTree machine m) (dotPath : String) : (getNodeByPath m dotPath).isSome = found machine dotPath := by
  rw [getNodeParts]
  exact same _ (fun p member => (Dotted.partsPlain dotPath p member).1)

theorem nodeMissing (same : SameTree machine m) (dotPath : String) : getNodeByPath m dotPath = none ↔ found machine dotPath = false := by
  rw [← nodeFound same,Option.isSome_eq_false_iff,Option.isNone_iff_eq_none]

theorem builtPath {parentPath : String} {states : Record StateNodeIR} {current : Option StateNodeIR} {parts : List String} {node : StateNodeIR}
    (built : builtStates parentPath states = true) (looked : lookupParts states current parts = some node) (some : parts ≠ []) :
    node.path = parts.foldl childPath parentPath := by
  induction parts generalizing parentPath states current with
  | nil => contradiction
  | cons part rest ih =>
    simp only [lookupParts] at looked
    cases got : Keyed.get states part with
    | none => simp [got] at looked
    | some child =>
      simp only [got] at looked
      have own : ∀ {states : List (String × StateNodeIR)}, builtStates parentPath states = true → (part,child) ∈ states →
          builtNode parentPath part child = true := by
        intro states built member
        induction states with
        | nil => exact absurd member List.not_mem_nil
        | cons first rest ih =>
          obtain ⟨key,node⟩ := first
          simp only [builtStates,Bool.and_eq_true] at built
          rcases List.mem_cons.mp member with same|later
          · cases same
            exact built.1
          · exact ih built.2 later
      have here := own built (Keyed.getSome got)
      obtain ⟨key,path,_,_,_,_,_,_,states',_⟩ := child
      simp only [builtNode,Bool.and_eq_true,decide_eq_true_eq] at here
      obtain ⟨⟨⟨⟨_,samePath⟩,_⟩,_⟩,below⟩ := here
      cases rest with
      | nil =>
        cases looked
        exact samePath
      | cons next tail =>
        rw [List.foldl_cons,← samePath]
        exact ih below looked (by simp)

theorem foundPath (built : builtStates "" machine.states = true) {dotPath : String} {node : StateNodeIR}
    (looked : lookupByDotPath machine.states dotPath = some node) : node.path = Dotted.join (Dotted.parts dotPath) := by
  have some : Dotted.parts dotPath ≠ [] := by
    intro nil
    rw [lookupByDotPath,nil] at looked
    cases looked
  rw [builtPath built looked some]
  exact pathOfJoin (Dotted.partsPlain dotPath)

/-! What the reference answers. -/

theorem pathFoundAt (built : builtStates "" machine.states = true) {dotPath : String} (here : found machine dotPath = true) :
    Objects.pathAt machine.states dotPath = .ok (some (Dotted.join (Dotted.parts dotPath))) := by
  obtain ⟨node,looked⟩ := Option.isSome_iff_exists.mp here
  have slot : Objects.lookupByDotPath machine.states dotPath = .ok (some (.own node)) := (@Objects.slotsOwn _ _ none node).mpr looked
  rw [Objects.pathAt,slot]
  exact congrArg (fun path => Except.ok (some path)) (foundPath built looked)

theorem pathMissingAt {dotPath path : String} (missing : found machine dotPath = false) :
    Objects.pathAt machine.states dotPath ≠ .ok (some path) := by
  intro looked
  obtain ⟨node,here,_⟩ := Objects.pathFound looked
  rw [found,here] at missing
  exact nomatch missing

theorem agreesFound {sourcePath targetRef path : String} (answer : Objects.resolveTargetStatePath machine sourcePath targetRef = .ok (some path)) :
    Agrees machine m sourcePath targetRef ↔ resolveTargetPath m sourcePath targetRef = path := by
  rw [Agrees,answer]

theorem agreesMissing {sourcePath targetRef : String} (answer : ∀ path, Objects.resolveTargetStatePath machine sourcePath targetRef ≠ .ok (some path)) :
    Agrees machine m sourcePath targetRef ↔ getNodeByPath m (resolveTargetPath m sourcePath targetRef) = none := by
  unfold Agrees
  split
  · rename_i path same
    exact absurd same (answer path)
  · exact Iff.rfl

variable (machine) in
theorem answerHash (sourcePath : String) {targetRef : String} (byHash : hash targetRef = true) :
    Objects.resolveTargetStatePath machine sourcePath targetRef =
      if Dotted.under machine.id (trimHash targetRef) then
        Objects.pathAt machine.states (dropPrefix (machine.id.length + 1) (trimHash targetRef))
      else Objects.pathAt machine.states (trimHash targetRef) := by
  have here : "#".toList.isPrefixOf targetRef.toList = true := byHash
  simp only [Objects.resolveTargetStatePath,trimHash,if_pos here]

theorem answerRelative {sourcePath targetRef : String} (relative : hash targetRef = false) :
    Objects.resolveTargetStatePath machine sourcePath targetRef =
      Objects.siblingAt machine.states sourcePath targetRef >>= fun
        | some found => .ok found.path
        | none => Objects.pathAt machine.states targetRef := by
  have here : ¬ "#".toList.isPrefixOf targetRef.toList = true := by
    rw [hash] at relative
    rw [relative]
    exact Bool.false_ne_true
  unfold Objects.resolveTargetStatePath
  refine (if_neg here).trans ?_
  refine congrArg (Objects.siblingAt machine.states sourcePath targetRef >>= ·) ?_
  funext x
  cases x <;> rfl

theorem siblingFound (built : builtStates "" machine.states = true) {sourcePath targetRef : String} (some : parentSegments sourcePath ≠ [])
    (here : found machine (sibling sourcePath targetRef) = true) (relative : hash targetRef = false) :
    Objects.resolveTargetStatePath machine sourcePath targetRef = .ok (Dotted.join (Dotted.parts (sibling sourcePath targetRef))) := by
  obtain ⟨node,looked⟩ := Option.isSome_iff_exists.mp here
  have slot : Objects.siblingAt machine.states sourcePath targetRef = .ok (.some (.own node)) := by
    rw [Objects.siblingAt,if_neg some]
    exact (@Objects.slotsOwn _ _ none node).mpr looked
  rw [answerRelative relative,slot]
  exact congrArg (fun path => Except.ok (Option.some path)) (foundPath built looked)

variable (machine) in
theorem siblingMissing {sourcePath targetRef : String} (relative : hash targetRef = false)
    (missing : parentSegments sourcePath = [] ∨ found machine (sibling sourcePath targetRef) = false) :
    (Objects.meetsInherited machine.states (Dotted.parts (sibling sourcePath targetRef)) = false ∨ parentSegments sourcePath = [] →
      Objects.resolveTargetStatePath machine sourcePath targetRef = Objects.pathAt machine.states targetRef) ∧
    (Objects.meetsInherited machine.states (Dotted.parts (sibling sourcePath targetRef)) = true → parentSegments sourcePath ≠ [] →
      ∀ path, Objects.resolveTargetStatePath machine sourcePath targetRef ≠ .ok (some path)) := by
  rw [answerRelative relative]
  constructor
  · intro plain
    by_cases top : parentSegments sourcePath = []
    · rw [Objects.siblingAt,if_pos top]
      rfl
    · rw [or_iff_left top] at plain
      rw [or_iff_right top] at missing
      have looked : lookupParts machine.states none (Dotted.parts (sibling sourcePath targetRef)) = none :=
        Option.isNone_iff_eq_none.mp (Option.isSome_eq_false_iff.mp missing)
      have slot : Objects.siblingAt machine.states sourcePath targetRef = .ok none := by
        rw [Objects.siblingAt,if_neg top]
        have slots := Objects.slotsPlain plain none
        rw [looked] at slots
        exact slots
      rw [slot]
      rfl
  · intro meets nested path
    rw [Objects.siblingAt,if_neg nested]
    rcases Objects.slotsInherited meets none with ⟨e,looked⟩|looked
    · have slot : Objects.lookupByDotPath machine.states (sibling sourcePath targetRef) = .error e := looked
      rw [← sibling,slot]
      intro answered
      cases answered
    · have slot : Objects.lookupByDotPath machine.states (sibling sourcePath targetRef) = .ok (some .inherited) := looked
      rw [← sibling,slot]
      intro answered
      cases answered

/-! What the Go SDK answers. -/

theorem nearestNone {parts : List String} {targetRef : String} {n : Nat} :
    nearest m parts targetRef n = none ↔ ∀ i < n, getNodeByPath m (candidate (parts.take i) targetRef) = none := by
  induction n with
  | zero => exact ⟨fun _ i below => absurd below (Nat.not_lt_zero i),fun _ => rfl⟩
  | succ n ih =>
    rw [nearest]
    split
    · rename_i here
      constructor
      · exact nofun
      · intro all
        rw [all n (Nat.lt_succ_self n)] at here
        exact nomatch here
    · rename_i missing
      rw [ih]
      have last : getNodeByPath m (candidate (parts.take n) targetRef) = none := by simpa using missing
      constructor
      · intro below i bound
        rcases Nat.lt_succ_iff_lt_or_eq.mp bound with earlier|rfl
        · exact below i earlier
        · exact last
      · intro all i bound
        exact all i (Nat.lt_succ_of_lt bound)

theorem nearestSome {parts : List String} {targetRef place : String} {n : Nat} (hit : nearest m parts targetRef n = some place) :
    ∃ i < n, place = candidate (parts.take i) targetRef ∧ (getNodeByPath m place).isSome = true ∧
      ∀ j < n, i < j → getNodeByPath m (candidate (parts.take j) targetRef) = none := by
  induction n with
  | zero => exact nomatch hit
  | succ n ih =>
    rw [nearest] at hit
    split at hit
    · rename_i here
      cases hit
      refine ⟨n,Nat.lt_succ_self n,rfl,here,?_⟩
      intro j bound above
      omega
    · rename_i missing
      obtain ⟨i,bound,same,here,above⟩ := ih hit
      refine ⟨i,Nat.lt_succ_of_lt bound,same,here,?_⟩
      intro j below later
      rcases Nat.lt_succ_iff_lt_or_eq.mp below with earlier|rfl
      · exact above j earlier later
      · simpa using missing

theorem candidateLonger (place : List String) (targetRef : String) : targetRef.length ≤ (candidate place targetRef).length := by
  unfold candidate
  split
  · exact le_refl _
  · simp only [String.length_append]
    omega

mutual
theorem belowLonger (targetRef above : String) : (v : StateDefinition) → findBelow targetRef above v ≠ "" →
    targetRef.length ≤ (findBelow targetRef above v).length
  | { id := _, type := _, initial := _, states, on := _, onDone := _, entry := _, exit := _ }, inside => by
    rw [findBelow] at inside ⊢
    exact recursiveLonger targetRef above states inside
theorem recursiveLonger (targetRef above : String) : (states : List (String × StateDefinition)) → findPathRecursive targetRef above states ≠ "" →
    targetRef.length ≤ (findPathRecursive targetRef above states).length
  | [], inside => absurd rfl inside
  | (k,v)::rest, inside => by
    rw [findPathRecursive] at inside ⊢
    split at inside
    · rename_i here
      rw [if_pos here]
      rcases here with rfl|rfl
      · unfold childPath
        split
        · exact le_refl _
        · simp only [String.length_append]
          omega
      · exact le_refl _
    · rename_i other
      rw [if_neg other]
      split at inside
      · rename_i below
        rw [if_pos below]
        exact belowLonger targetRef (childPath above k) v below
      · rename_i beside
        rw [if_neg beside]
        exact recursiveLonger targetRef above rest inside
end

theorem goLonger {sourcePath targetRef : String} (some : targetRef ≠ "") :
    (trimHash targetRef).length ≤ (resolveTargetPath m sourcePath targetRef).length := by
  unfold resolveTargetPath
  rw [if_neg some]
  dsimp only
  split
  · exact le_refl _
  · split
    · rename_i place hit
      obtain ⟨i,_,same,_⟩ := nearestSome hit
      rw [same]
      exact candidateLonger _ _
    · split
      · rename_i inside
        exact recursiveLonger _ _ _ inside
      · exact le_refl _

theorem splitLength (sourcePath : String) : 0 < (Dotted.split sourcePath).length := List.length_pos_iff.mpr (Dotted.splitNonempty sourcePath)

theorem candidateRoot (targetRef : String) : candidate [] targetRef = targetRef := if_pos rfl

theorem nowhereIff {sourcePath targetRef : String} (some : targetRef ≠ "") :
    getNodeByPath m (resolveTargetPath m sourcePath targetRef) = none ↔ Nowhere m sourcePath (trimHash targetRef) := by
  unfold resolveTargetPath Nowhere
  rw [if_neg some]
  dsimp only
  by_cases key : (Keyed.get m.states (trimHash targetRef)).isSome = true
  · rw [if_pos key]
    exact ⟨fun none => ⟨none,.inl key⟩,fun nowhere => nowhere.1⟩
  · rw [if_neg key,or_iff_right key]
    cases hit : nearest m (Dotted.split sourcePath) (trimHash targetRef) (Dotted.split sourcePath).length with
    | some place =>
      obtain ⟨i,bound,same,here,_⟩ := nearestSome hit
      dsimp only
      constructor
      · intro none
        rw [none] at here
        exact nomatch here
      · intro nowhere
        rw [same,nowhere.2.1 i bound] at here
        exact nomatch here
    | none =>
      have all := nearestNone.mp hit
      have root : getNodeByPath m (trimHash targetRef) = none := by
        have first := all 0 (splitLength sourcePath)
        rwa [List.take_zero,candidateRoot] at first
      dsimp only
      split
      · exact ⟨fun none => ⟨root,all,none⟩,fun nowhere => nowhere.2.2⟩
      · rename_i blank
        rw [ne_eq,not_not] at blank
        exact ⟨fun _ => ⟨root,all,by rw [blank]; rfl⟩,fun _ => root⟩

theorem canonicalLonger {place path targetRef : String} (longer : targetRef.length < place.length)
    (shorter : path.length ≤ targetRef.length) : place ≠ path := by
  rintro rfl
  omega

theorem emptyAgrees (built : builtStates "" machine.states = true) (sourcePath : String) :
    Agrees machine m sourcePath "" ↔ found machine (container sourcePath) = false ∧ getNodeByPath m sourcePath = none := by
  have go : resolveTargetPath m sourcePath "" = sourcePath := if_pos rfl
  have relative : hash "" = false := rfl
  have root : ∀ path, Objects.pathAt machine.states "" ≠ .ok (some path) := fun path => pathMissingAt rfl
  by_cases top : parentSegments sourcePath = []
  · have missing : found machine (container sourcePath) = false := by rw [container,top]; rfl
    have answer := (siblingMissing machine relative (.inl top)).1 (.inr top)
    rw [agreesMissing (by rw [answer]; exact root),go]
    exact ⟨fun none => ⟨missing,none⟩,fun both => both.2⟩
  · have text : sibling sourcePath "" = container sourcePath ++ "." ++ "" := Dotted.joinSnoc top ""
    have parts : Dotted.parts (sibling sourcePath "") = Dotted.parts (container sourcePath) := by
      rw [text,partsAppend]
      exact List.append_nil _
    have same : found machine (sibling sourcePath "") = found machine (container sourcePath) := by
      rw [found,found,lookupByDotPath,lookupByDotPath,parts]
    by_cases here : found machine (container sourcePath) = true
    · rw [agreesFound (siblingFound built top (same.trans here) relative),go]
      constructor
      · intro equal
        have segments : sourcePath = container sourcePath ++ "." ++ (Dotted.split sourcePath).getLast (Dotted.splitNonempty sourcePath) := by
          have given : sourcePath ≠ "" := by
            rintro rfl
            exact top rfl
          have whole := Dotted.joinSplit sourcePath
          rw [← List.dropLast_append_getLast (Dotted.splitNonempty sourcePath)] at whole
          rw [parentSegments,if_neg given] at top
          rw [Dotted.joinSnoc top] at whole
          rw [container,parentSegments,if_neg given]
          exact whole.symm
        have longer : (container sourcePath).length < sourcePath.length := by
          have lengths := congrArg String.length segments
          have dot : ".".length = 1 := rfl
          simp only [String.length_append,dot] at lengths
          omega
        exact absurd equal (canonicalLonger longer (by rw [parts]; exact joinParts _))
      · intro both
        rw [here] at both
        cases both.1
    · have missing : found machine (container sourcePath) = false := Bool.eq_false_iff.mpr here
      have answer : ∀ path, Objects.resolveTargetStatePath machine sourcePath "" ≠ .ok (some path) := by
        cases meets : Objects.meetsInherited machine.states (Dotted.parts (sibling sourcePath "")) with
        | false => rw [(siblingMissing machine relative (.inr (same.trans missing))).1 (.inl meets)]; exact root
        | true => exact (siblingMissing machine relative (.inr (same.trans missing))).2 meets top
      rw [agreesMissing answer,go]
      exact ⟨fun none => ⟨missing,none⟩,fun both => both.2⟩

theorem namedAgrees (built : builtStates "" machine.states = true) {sourcePath targetRef : String} (some : targetRef ≠ "")
    (byHash : hash targetRef = true) (named : Dotted.under machine.id (trimHash targetRef) = true) :
    Agrees machine m sourcePath targetRef ↔
      found machine (dropPrefix (machine.id.length + 1) (trimHash targetRef)) = false ∧ Nowhere m sourcePath (trimHash targetRef) := by
  have answer := answerHash machine sourcePath byHash
  rw [if_pos named] at answer
  by_cases here : found machine (dropPrefix (machine.id.length + 1) (trimHash targetRef)) = true
  · rw [agreesFound (answer.trans (pathFoundAt built here))]
    constructor
    · intro equal
      have dropped : (dropPrefix (machine.id.length + 1) (trimHash targetRef)).length < (trimHash targetRef).length := by
        have long := (List.isPrefixOf_iff_prefix.mp named).length_le
        simp only [String.length_toList,String.length_append] at long
        have dot : ".".length = 1 := rfl
        rw [dropPrefix,String.length_ofList,List.length_drop,String.length_toList]
        omega
      have goes : (trimHash targetRef).length ≤ (resolveTargetPath m sourcePath targetRef).length := goLonger some
      have parts := joinParts (dropPrefix (machine.id.length + 1) (trimHash targetRef))
      rw [equal] at goes
      omega
    · intro both
      rw [here] at both
      exact nomatch both.1
  · have missing := Bool.eq_false_iff.mpr here
    rw [agreesMissing (by rw [answer]; exact fun path => pathMissingAt missing),nowhereIff some]
    exact ⟨fun nowhere => ⟨missing,nowhere⟩,fun both => both.2⟩

theorem goKey {sourcePath targetRef : String} (some : targetRef ≠ "") (key : (Keyed.get m.states (trimHash targetRef)).isSome = true) :
    resolveTargetPath m sourcePath targetRef = trimHash targetRef := by
  rw [resolveTargetPath,if_neg some,if_pos key]

theorem goNearest {sourcePath targetRef place : String} (some : targetRef ≠ "") (key : ¬ (Keyed.get m.states (trimHash targetRef)).isSome = true)
    (hit : nearest m (Dotted.split sourcePath) (trimHash targetRef) (Dotted.split sourcePath).length = .some place) :
    resolveTargetPath m sourcePath targetRef = place := by
  rw [resolveTargetPath,if_neg some,if_neg key]
  simp only [hit]

theorem trimRelative {targetRef : String} (relative : hash targetRef = false) : trimHash targetRef = targetRef :=
  if_neg (fun byHash => by rw [hash,byHash] at relative; exact nomatch relative)

theorem candidateSibling {sourcePath : String} (nested : Dotted.parts (container sourcePath) ≠ []) (targetRef : String) :
    candidate ((Dotted.split sourcePath).take ((Dotted.split sourcePath).length - 1)) targetRef = sibling sourcePath targetRef := by
  have given : sourcePath ≠ "" := by
    rintro rfl
    exact nested rfl
  have segments : parentSegments sourcePath = (Dotted.split sourcePath).take ((Dotted.split sourcePath).length - 1) := by
    rw [parentSegments,if_neg given,List.dropLast_eq_take]
  have named : container sourcePath ≠ "" := fun blank => nested (by rw [blank]; rfl)
  have some : parentSegments sourcePath ≠ [] := fun nil => named (by rw [container,nil]; rfl)
  rw [candidate,← segments,← container,if_neg named,sibling,Dotted.joinSnoc some,container]

theorem siblingAgrees (built : builtStates "" machine.states = true) (same : SameTree machine m) {sourcePath targetRef : String}
    (some : targetRef ≠ "") (relative : hash targetRef = false) (nested : Dotted.parts (container sourcePath) ≠ [])
    (here : found machine (sibling sourcePath targetRef) = true) :
    Agrees machine m sourcePath targetRef ↔ Keyed.get m.states targetRef = none ∧ Canonical (sibling sourcePath targetRef) := by
  have inside : parentSegments sourcePath ≠ [] := fun nil => nested (by rw [container,nil]; rfl)
  have text : Dotted.parts (sibling sourcePath targetRef) = Dotted.parts (container sourcePath) ++ Dotted.parts targetRef := by
    rw [sibling,Dotted.joinSnoc inside,partsAppend,container]
  rw [agreesFound (siblingFound built inside here relative)]
  by_cases key : (Keyed.get m.states (trimHash targetRef)).isSome = true
  · rw [goKey some key]
    rw [trimRelative relative] at key ⊢
    constructor
    · intro equal
      have parts := congrArg Dotted.parts equal
      rw [Dotted.partsJoin (Dotted.partsPlain _),text] at parts
      exact absurd (List.self_eq_append_left.mp parts) nested
    · intro both
      rw [both.1] at key
      exact nomatch key
  · have hit : nearest m (Dotted.split sourcePath) (trimHash targetRef) (Dotted.split sourcePath).length = .some (sibling sourcePath targetRef) := by
      obtain ⟨n,length⟩ : ∃ n, (Dotted.split sourcePath).length = n + 1 := ⟨_,(Nat.sub_add_cancel (splitLength sourcePath)).symm⟩
      have place := candidateSibling nested targetRef
      rw [length,Nat.add_sub_cancel] at place
      rw [length,nearest,trimRelative relative,place,if_pos ((nodeFound same _).trans here)]
    rw [goNearest some key hit]
    rw [trimRelative relative] at key
    have missing : Keyed.get m.states targetRef = none := by simpa using key
    exact ⟨fun equal => ⟨missing,equal.symm⟩,fun both => both.2.symm⟩

theorem rootAgrees (built : builtStates "" machine.states = true) (same : SameTree machine m) {sourcePath targetRef : String}
    (some : targetRef ≠ "") (here : found machine (trimHash targetRef) = true)
    (answer : Objects.resolveTargetStatePath machine sourcePath targetRef = Objects.pathAt machine.states (trimHash targetRef)) :
    Agrees machine m sourcePath targetRef ↔ Canonical (trimHash targetRef) ∧
      ((Keyed.get m.states (trimHash targetRef)).isSome = true ∨
        ∀ i < (Dotted.split sourcePath).length, Dotted.join ((Dotted.split sourcePath).take i) ≠ "" →
          getNodeByPath m (candidate ((Dotted.split sourcePath).take i) (trimHash targetRef)) = none) := by
  rw [agreesFound (answer.trans (pathFoundAt built here))]
  by_cases key : (Keyed.get m.states (trimHash targetRef)).isSome = true
  · rw [goKey some key]
    exact ⟨fun equal => ⟨equal.symm,.inl key⟩,fun both => both.1.symm⟩
  · rw [or_iff_right key]
    cases hit : nearest m (Dotted.split sourcePath) (trimHash targetRef) (Dotted.split sourcePath).length with
    | none =>
      have root := nearestNone.mp hit 0 (splitLength sourcePath)
      rw [List.take_zero,candidateRoot,nodeMissing same,here] at root
      exact nomatch root
    | some place =>
      rw [goNearest some key hit]
      obtain ⟨i,bound,placed,holds,above⟩ := nearestSome hit
      by_cases blank : Dotted.join ((Dotted.split sourcePath).take i) = ""
      · have root : place = trimHash targetRef := by rw [placed,candidate,if_pos blank]
        rw [root]
        refine ⟨fun equal => ⟨equal.symm,fun j inside named => above j inside ?_⟩,fun both => both.1.symm⟩
        by_contra below
        have shorter : (Dotted.split sourcePath).take j = ((Dotted.split sourcePath).take i).take j := by
          rw [List.take_take,Nat.min_eq_left (Nat.le_of_not_lt below)]
        rcases joinBlank blank with nil|single
        · exact named (by rw [shorter,nil,List.take_nil]; rfl)
        · refine named ?_
          rw [shorter,single]
          cases j with
          | zero => rfl
          | succ j => rw [List.take_succ_cons,List.take_nil]; rfl
      · constructor
        · intro equal
          have longer : (trimHash targetRef).length < place.length := by
            have dot : ".".length = 1 := rfl
            rw [placed,candidate,if_neg blank]
            simp only [String.length_append,dot]
            omega
          exact absurd equal (canonicalLonger longer (joinParts _))
        · intro both
          rw [placed,both.2 i bound blank] at holds
          exact nomatch holds

theorem foundPlain {dotPath : String} (here : found machine dotPath = true) :
    Objects.meetsInherited machine.states (Dotted.parts dotPath) = false := by
  obtain ⟨node,looked⟩ := Option.isSome_iff_exists.mp here
  have slot := (@Objects.slotsOwn machine.states (Dotted.parts dotPath) none node).mpr looked
  cases meets : Objects.meetsInherited machine.states (Dotted.parts dotPath) with
  | false => rfl
  | true => rcases Objects.slotsInherited meets none with ⟨e,other⟩|other <;> exact nomatch slot.symm.trans other

theorem siblingTop {sourcePath : String} (top : Dotted.parts (container sourcePath) = []) (targetRef : String) :
    Dotted.parts (sibling sourcePath targetRef) = Dotted.parts targetRef := by
  by_cases none : parentSegments sourcePath = []
  · rw [sibling,none]
    exact congrArg Dotted.parts (by simp [Dotted.join])
  · rw [sibling,Dotted.joinSnoc none,partsAppend,← container,top,List.nil_append]

theorem relativeRoot (built : builtStates "" machine.states = true) {sourcePath targetRef : String} (relative : hash targetRef = false)
    (notBeside : ¬ (Dotted.parts (container sourcePath) ≠ [] ∧ found machine (sibling sourcePath targetRef) = true))
    (here : found machine targetRef = true) (plain : Objects.meetsInherited machine.states (Dotted.parts (sibling sourcePath targetRef)) = false) :
    Objects.resolveTargetStatePath machine sourcePath targetRef = Objects.pathAt machine.states targetRef := by
  by_cases missing : parentSegments sourcePath = [] ∨ found machine (sibling sourcePath targetRef) = false
  · exact (siblingMissing machine relative missing).1 (.inl plain)
  · obtain ⟨inside,beside⟩ := not_or.mp missing
    have beside' := Bool.eq_true_of_not_eq_false beside
    have top : Dotted.parts (container sourcePath) = [] := by
      by_contra nested
      exact notBeside ⟨nested,beside'⟩
    rw [siblingFound built inside beside' relative,pathFoundAt built here,siblingTop top]

theorem relativeNone {sourcePath targetRef : String} (relative : hash targetRef = false)
    (notBeside : ¬ (Dotted.parts (container sourcePath) ≠ [] ∧ found machine (sibling sourcePath targetRef) = true))
    (absent : ¬ (found machine targetRef = true ∧ Objects.meetsInherited machine.states (Dotted.parts (sibling sourcePath targetRef)) = false)) :
    ∀ path, Objects.resolveTargetStatePath machine sourcePath targetRef ≠ .ok (some path) := by
  have missing : parentSegments sourcePath = [] ∨ found machine (sibling sourcePath targetRef) = false := by
    by_cases nested : Dotted.parts (container sourcePath) = []
    · refine or_iff_not_imp_right.mpr (fun beside => ?_)
      have beside' := Bool.eq_true_of_not_eq_false beside
      have here : found machine targetRef = true := by
        rw [found,lookupByDotPath,← siblingTop nested]
        exact beside'
      exact absurd ⟨here,foundPlain beside'⟩ absent
    · exact .inr (Bool.eq_false_iff.mpr (fun beside => notBeside ⟨nested,beside⟩))
  cases meets : Objects.meetsInherited machine.states (Dotted.parts (sibling sourcePath targetRef)) with
  | false =>
    rw [(siblingMissing machine relative missing).1 (.inl meets)]
    exact fun path => pathMissingAt (Bool.eq_false_iff.mpr (fun here => absent ⟨here,meets⟩))
  | true =>
    by_cases top : parentSegments sourcePath = []
    · rw [(siblingMissing machine relative missing).1 (.inr top)]
      have nested : Dotted.parts (container sourcePath) = [] := by rw [container,top]; rfl
      rw [siblingTop nested] at meets
      exact fun path => pathMissingAt (Bool.eq_false_iff.mpr (fun here => by rw [foundPlain here] at meets; cases meets))
    · exact (siblingMissing machine relative missing).2 meets top

/-- The Go SDK and the reference agree on a target exactly where the reference stands at a
place both take alike. -/
theorem targetsAgree (built : builtStates "" machine.states = true) (same : SameTree machine m) (sourcePath targetRef : String) :
    Agrees machine m sourcePath targetRef ↔ Placed machine m sourcePath targetRef := by
  unfold Placed
  split
  · rename_i empty
    subst empty
    exact emptyAgrees built sourcePath
  · rename_i some
    split
    · rename_i named
      exact namedAgrees built some named.1 named.2
    · rename_i unnamed
      split
      · rename_i beside
        exact siblingAgrees built same some beside.1 beside.2.1 beside.2.2
      · rename_i notBeside
        cases byHash : hash targetRef with
        | true =>
          have answer := answerHash machine sourcePath byHash
          rw [if_neg (fun under => unnamed ⟨byHash,under⟩)] at answer
          split
          · rename_i here
            exact rootAgrees built same some here.1 answer
          · rename_i absent
            have missing : found machine (trimHash targetRef) = false := Bool.eq_false_iff.mpr (fun here => absent ⟨here,.inl rfl⟩)
            rw [agreesMissing (by rw [answer]; exact fun path => pathMissingAt missing),nowhereIff some]
        | false =>
          have notBeside' := fun beside => notBeside ⟨byHash,beside⟩
          have trim := trimRelative byHash
          split
          · rename_i here
            have plain := here.2.resolve_left Bool.false_ne_true
            refine rootAgrees built same some here.1 ?_
            rw [trim] at here ⊢
            exact relativeRoot built byHash notBeside' here.1 plain
          · rename_i absent
            rw [trim] at absent
            rw [agreesMissing (relativeNone byHash notBeside' (fun both => absent ⟨both.1,.inr both.2⟩)),nowhereIff some]

end

/-! The same document read by both: the Go SDK's states in the order of the reference's. -/

mutual
def mirrorNode : StateNodeIR → StateDefinition
  | { key := key, path := _, type := _, initial := initial, entry := entry, exit := exit, on := _, onDone := _, states := states,
      isImplicitError := _ } => { id := key, initial := initial.getD "", states := mirrorStates states, entry, exit }
def mirrorStates : List (String × StateNodeIR) → List (String × StateDefinition)
  | [] => []
  | (key,node)::rest => (key,mirrorNode node)::mirrorStates rest
end

theorem mirrorGet (states : Record StateNodeIR) (key : String) :
    Keyed.get (mirrorStates states) key = (Keyed.get states key).map mirrorNode := by
  induction states with
  | nil => rfl
  | cons first rest ih =>
    obtain ⟨k,node⟩ := first
    rw [mirrorStates,Keyed.getCons,Keyed.getCons]
    split
    · rfl
    · exact ih

theorem mirrorBelow (node : StateNodeIR) : (mirrorNode node).states = mirrorStates node.states := by
  cases node
  rfl

theorem mirrorSame (machine : RawMachine) : SameTree machine { id := machine.id, states := mirrorStates machine.states } := by
  intro parts given
  suffices all : ∀ (states : Record StateNodeIR) (found : Option StateDefinition) (current : Option StateNodeIR),
      found.isSome = current.isSome → (getNodeByParts (mirrorStates states) found parts).isSome = (lookupParts states current parts).isSome from
    all machine.states none none rfl
  induction parts with
  | nil => exact fun _ _ _ same => same
  | cons part rest ih =>
    intro states found current _
    rw [getNodeByParts,if_neg (given part List.mem_cons_self),mirrorGet,lookupParts]
    cases Keyed.get states part with
    | none => rfl
    | some node =>
      rw [Option.map_some]
      dsimp only
      rw [mirrorBelow]
      exact ih (fun p member => given p (List.mem_cons_of_mem _ member)) node.states _ _ rfl

def checkout : RawMachine where
  id := "checkout"
  initial := some "cart"
  states := [("cart",{ key := "cart", path := "cart", type := .atomic }),
    ("pay",{ key := "pay", path := "pay", type := .compound, initial := some "card",
             states := [("card",{ key := "card", path := "pay.card", type := .atomic }),
               ("done",{ key := "done", path := "pay.done", type := .final })] }),
    ("done",{ key := "done", path := "done", type := .final })]

def goCheckout : MachineDefinition := { id := "checkout", states := mirrorStates checkout.states }

theorem targetsAgreeCart : Placed checkout goCheckout "pay.card" "cart" ∧ Agrees checkout goCheckout "pay.card" "cart" := by
  have placed : Placed checkout goCheckout "pay.card" "cart" := by
    rw [Placed,if_neg (by decide),if_neg (by decide),if_neg (by decide),if_pos (by decide),Canonical]
    exact ⟨by decide,.inl (by decide)⟩
  exact ⟨placed,(targetsAgree (by decide) (mirrorSame checkout) "pay.card" "cart").mpr placed⟩

/-- The sibling that the reference takes, and the state of the root that the Go SDK takes. -/
theorem targetsDisagree : ¬ ∀ (machine : RawMachine) (m : MachineDefinition), builtStates "" machine.states = true → SameTree machine m →
    ∀ sourcePath targetRef, Agrees machine m sourcePath targetRef := by
  intro all
  have agrees := all checkout goCheckout (by decide) (mirrorSame checkout) "pay.card" "done"
  have reference : Objects.resolveTargetStatePath checkout "pay.card" "done" = .ok (some "pay.done") := by rfl
  have go : resolveTargetPath goCheckout "pay.card" "done" = "done" := by decide
  rw [Agrees,reference] at agrees
  rw [go] at agrees
  exact absurd agrees (by decide)

end Dfsm.Go
