import Dfsm.Java.Statechart

/-! Keys, paths and references that the Java SDK and the reference SDK read alike. -/
namespace Dfsm.Java
open Keyed (Record)

/-! Text. -/

theorem dropTrailingClean {parts : List String} (clean : "" ∉ parts) : dropTrailing parts = parts := by
  induction parts with
  | nil => rfl
  | cons part rest ih =>
    obtain ⟨here,later⟩ := List.ne_and_not_mem_of_not_mem_cons clean
    rw [dropTrailing,ih later]
    cases rest with
    | nil => rw [if_neg (Ne.symm here)]
    | cons next more => rfl

theorem dropTrailingFilled (parts : List String) : (dropTrailing parts).filter (· != "") = parts.filter (· != "") := by
  induction parts with
  | nil => rfl
  | cons part rest ih =>
    rw [dropTrailing]
    cases kept : dropTrailing rest with
    | nil =>
      rw [kept] at ih
      by_cases empty : part = ""
      · simp [empty,← ih]
      · simp [empty,← ih]
    | cons next more =>
      rw [kept] at ih
      show (part::next::more).filter (· != "") = _
      rw [List.filter_cons,List.filter_cons (x := part),ih]

theorem splitFilled (text : String) : (split text).filter (· != "") = Dotted.parts text := by
  unfold split Dotted.parts
  split
  · exact dropTrailingFilled _
  · rename_i whole
    rw [Dotted.splitPlain whole]

theorem splitClean {text : String} (clean : "" ∉ Dotted.split text) : split text = Dotted.split text := by
  unfold split
  split
  · exact dropTrailingClean clean
  · rename_i whole
    rw [Dotted.splitPlain whole]

theorem splitEmpty {text : String} (clean : "" ∉ split text) : split text = Dotted.parts text := by
  rw [← splitFilled]
  exact (List.filter_eq_self.mpr (fun part mem => by simpa using fun empty : part = "" => clean (empty ▸ mem))).symm

theorem blankWhole {text : String} (blank : isBlank text = true) : '.' ∉ text.toList := by
  intro dot
  have space := List.all_eq_true.mp blank _ dot
  exact absurd space (by decide)

theorem splitPlainJoin {ks : List String} (some : ks ≠ []) (plain : ∀ k ∈ ks, Dotted.Plain k) :
    split (Dotted.join ks) = ks := by
  have same := Dotted.splitJoinPlain some plain
  rw [splitClean,same]
  rw [same]
  exact fun empty => (plain _ empty).1 rfl

/-! Keys that both languages read alike: not blank, not an array index, of one segment. -/

structure Portable (key : String) : Prop where
  plain : Dotted.Plain key
  filled : isBlank key = false
  named : Keyed.index key = none

instance (key) : Decidable (Portable key) :=
  decidable_of_iff (Dotted.Plain key ∧ isBlank key = false ∧ Keyed.index key = none)
    ⟨fun ⟨plain,filled,named⟩ => ⟨plain,filled,named⟩,fun h => ⟨h.plain,h.filled,h.named⟩⟩

mutual
def portableNode : StateNodeIR → Bool
  | { key := _, path := _, type := _, initial := _, entry := _, exit := _, on := _, onDone := _, states, isImplicitError := _ } =>
    portableStates states
def portableStates : List (String × StateNodeIR) → Bool
  | [] => true
  | (key,node)::rest => Portable key && portableNode node && portableStates rest
end

/-- Every state key of the machine is portable. -/
def KeysPortable (machine : RawMachine) : Prop := portableStates machine.states = true
instance (machine) : Decidable (KeysPortable machine) := by unfold KeysPortable; infer_instance

theorem portableBelow (node : StateNodeIR) (portable : portableNode node = true) : portableStates node.states = true := by
  cases node
  exact portable

theorem portableEntry {states : Record StateNodeIR} (portable : portableStates states = true) {key node}
    (found : Keyed.get states key = some node) : Portable key ∧ portableStates node.states = true := by
  induction states with
  | nil => simp at found
  | cons first rest ih =>
    obtain ⟨name,child⟩ := first
    simp only [portableStates,Bool.and_eq_true,decide_eq_true_eq] at portable
    rw [Keyed.getCons] at found
    split at found
    · rename_i here
      cases found
      exact ⟨here ▸ portable.1.1,portableBelow _ portable.1.2⟩
    · exact ih portable.2 found

theorem portableChain {states : Record StateNodeIR} (portable : portableStates states = true) {current ks node}
    (found : lookupParts states current ks = some node) :
    (∀ k ∈ ks, Portable k) ∧ (ks ≠ [] → portableStates node.states = true) := by
  induction ks generalizing states current with
  | nil => simp
  | cons k rest ih =>
    simp only [lookupParts] at found
    cases here : Keyed.get states k with
    | none => simp [here] at found
    | some child =>
      simp only [here] at found
      obtain ⟨first,below⟩ := portableEntry portable here
      obtain ⟨keys,last⟩ := ih below found
      refine ⟨List.forall_mem_cons.mpr ⟨first,keys⟩,fun _ => ?_⟩
      cases rest with
      | nil =>
        cases found
        exact below
      | cons next more => exact last (by simp)

theorem putPortable {α : Type} {key : String} (portable : Portable key) (map : Record α) (value : α) :
    put map key value = Keyed.set map key value := by
  have last (map : Record α) : Keyed.insert key value map = map ++ [(key,value)] := by
    induction map with
    | nil => rfl
    | cons e rest ih => simp [Keyed.insert,Keyed.before,portable.named,ih]
  unfold put Keyed.set
  rw [last]

section
variable {machine : RawMachine} (portable : KeysPortable machine)
include portable

theorem blankUnknown {path : String} (blank : isBlank path = true) : Dfsm.getNodeByPath machine path = none := by
  unfold Dfsm.getNodeByPath Dfsm.lookupByDotPath
  rw [Dotted.parts,Dotted.splitPlain (blankWhole blank)]
  by_cases empty : path = ""
  · subst empty
    rfl
  · cases found : Keyed.get machine.states path with
    | none => simp [empty,lookupParts,found]
    | some node =>
      have filled := (portableEntry portable found).1.filled
      rw [blank] at filled
      contradiction

theorem nodeSame (path : String) : getNodeByPath machine path = Dfsm.getNodeByPath machine path := by
  unfold getNodeByPath
  split
  · rename_i blank
    exact (blankUnknown portable blank).symm
  · rw [splitFilled]
    rfl

theorem typeSame (path : String) (type : StateNodeType) : (getNodeByPath machine path).any (·.type = type) =
    decide ((Dfsm.getNodeByPath machine path).map (·.type) = some type) := by
  rw [nodeSame portable]
  cases Dfsm.getNodeByPath machine path <;> simp

end

/-- The path of a chain of such keys. -/
def Trail (path : String) : Prop := ∃ ks, ks ≠ [] ∧ (∀ k ∈ ks, Portable k) ∧ path = Dotted.join ks

theorem trailSplit {path : String} (trail : Trail path) : split path = Dotted.split path := by
  obtain ⟨ks,some,portable,rfl⟩ := trail
  have plain : ∀ k ∈ ks, Dotted.Plain k := fun k mem => (portable k mem).plain
  rw [splitPlainJoin some plain,Dotted.splitJoinPlain some plain]

theorem trailParts {path : String} (trail : Trail path) : Dotted.parts path = Dotted.split path := by
  obtain ⟨ks,some,portable,rfl⟩ := trail
  have plain : ∀ k ∈ ks, Dotted.Plain k := fun k mem => (portable k mem).plain
  rw [Dotted.partsJoin plain,Dotted.splitJoinPlain some plain]

theorem trailTake {ks : List String} (portable : ∀ k ∈ ks, Portable k) (i : Nat) (some : ks ≠ []) :
    Trail (Dotted.join (ks.take (i+1))) := by
  refine ⟨_,?_,fun k mem => portable k (List.mem_of_mem_take mem),rfl⟩
  simpa using some

/-! References. -/

/-- What is looked up for a reference, once it is not found beside the source. -/
def lookedUp (id targetRef : String) : String :=
  if "#".toList.isPrefixOf targetRef.toList then
    if Dotted.under id (dropPrefix 1 targetRef) then dropPrefix (id.length + 1) (dropPrefix 1 targetRef) else dropPrefix 1 targetRef
  else targetRef

/-- A reference without an empty segment. -/
def Tidy (machine : RawMachine) (targetRef : String) : Prop := isBlank targetRef = false ∧ "" ∉ split (lookedUp machine.id targetRef)

theorem trailFilled {path : String} (trail : Trail path) : isBlank path = false := by
  obtain ⟨ks,some,portable,rfl⟩ := trail
  refine Bool.eq_false_of_not_eq_true (fun blank => ?_)
  have whole := Dotted.splitPlain (blankWhole blank)
  rw [Dotted.splitJoinPlain some (fun k mem => (portable k mem).plain)] at whole
  have filled := (portable (Dotted.join ks) (by rw [whole]; simp [Dotted.join])).filled
  rw [blank] at filled
  contradiction

theorem parentSame {source : String} (trail : Trail source) : parentSegments source = Dfsm.parentSegments source := by
  have filled := trailFilled trail
  have some : source ≠ "" := by
    rintro rfl
    contradiction
  rw [parentSegments,Dfsm.parentSegments,filled,if_neg some,trailSplit trail]
  rfl

theorem parentPortable {source : String} (trail : Trail source) : ∀ k ∈ Dfsm.parentSegments source, Portable k := by
  obtain ⟨ks,some,portable,rfl⟩ := trail
  have plain : ∀ k ∈ ks, Dotted.Plain k := fun k mem => (portable k mem).plain
  intro k mem
  rw [Dfsm.parentSegments,if_neg (fun empty => some ((Dotted.joinEmpty plain).mp empty)),Dotted.splitJoinPlain some plain] at mem
  exact portable k (List.dropLast_subset _ mem)

theorem dropTrailingAppend {front rest : List String} (known : "" ∉ front) (clean : "" ∉ dropTrailing rest) : "" ∉ dropTrailing (front ++ rest) := by
  induction front with
  | nil => exact clean
  | cons part more ih =>
    obtain ⟨here,later⟩ := List.ne_and_not_mem_of_not_mem_cons known
    have below := ih later
    rw [List.cons_append,dropTrailing]
    cases kept : dropTrailing (more ++ rest) with
    | nil => simp [Ne.symm here,here]
    | cons next tail =>
      rw [kept] at below
      exact List.not_mem_cons_of_ne_of_not_mem here below

theorem siblingClean {front : List String} (known : ∀ k ∈ front, Portable k) (some : front ≠ []) {targetRef : String}
    (clean : "" ∉ split targetRef) : "" ∉ split (Dotted.join front ++ "." ++ targetRef) := by
  have plain : ∀ k ∈ front, Dotted.Plain k := fun k mem => (known k mem).plain
  have rest : "" ∉ dropTrailing (Dotted.split targetRef) := by
    unfold split at clean
    split at clean
    · exact clean
    · rename_i whole
      rw [Dotted.splitPlain whole,dropTrailingClean clean]
      exact clean
  unfold split
  rw [if_pos (by simp),Dotted.splitAppend,Dotted.splitJoinPlain some plain]
  exact dropTrailingAppend (fun empty => (plain _ empty).1 rfl) rest

section
variable {machine : RawMachine} (portable : KeysPortable machine)
include portable

theorem lookupSame {path : String} (clean : "" ∉ split path) :
    lookupByDotPath machine.states path = Dfsm.lookupByDotPath machine.states path := by
  unfold lookupByDotPath
  split
  · rename_i blank
    exact (blankUnknown portable blank).symm
  · rw [if_neg (by simpa using clean),splitEmpty clean]
    rfl

omit portable in
theorem lookupClean {path : String} {node} (found : lookupByDotPath machine.states path = some node) : "" ∉ split path := by
  unfold lookupByDotPath at found
  split at found
  · contradiction
  · split at found
    · contradiction
    · rename_i clean
      simpa using clean

theorem lookupFound {path : String} {node} (found : lookupByDotPath machine.states path = some node) :
    Dfsm.lookupByDotPath machine.states path = some node := by
  rw [← lookupSame portable (lookupClean found),found]

theorem resolvesTidy {source targetRef : String} (trail : Trail source) (tidy : Tidy machine targetRef) :
    resolveTargetStatePath machine source targetRef = Dfsm.resolveTargetStatePath machine source targetRef := by
  obtain ⟨filled,clean⟩ := tidy
  unfold resolveTargetStatePath Dfsm.resolveTargetStatePath
  unfold lookedUp at clean
  rw [filled,if_neg (by simp)]
  split
  · rename_i hash
    rw [if_pos hash] at clean
    dsimp only
    split
    · rename_i own
      rw [if_pos own] at clean
      rw [lookupSame portable clean]
    · rename_i own
      rw [if_neg own] at clean
      rw [lookupSame portable clean]
  · rename_i hash
    rw [if_neg hash] at clean
    dsimp only
    rw [parentSame trail,lookupSame portable clean]
    by_cases top : Dfsm.parentSegments source = []
    · rw [if_pos top,if_pos top]
    · rw [if_neg top,if_neg top,Dotted.joinSnoc top,lookupSame portable (siblingClean (parentPortable trail) top clean)] <;> rfl

/-- What the Java engine resolves the reference engine resolves, and alike: where a reference is
not tidy it can only have been found beside the source. -/
theorem resolvesAlike {source targetRef path : String} (trail : Trail source)
    (found : resolveTargetStatePath machine source targetRef = some path) :
    Dfsm.resolveTargetStatePath machine source targetRef = some path := by
  by_cases tidy : Tidy machine targetRef
  · rw [← resolvesTidy portable trail tidy,found]
  · unfold resolveTargetStatePath at found
    split at found
    · contradiction
    · rename_i filled
      have missing : lookupByDotPath machine.states (lookedUp machine.id targetRef) = none :=
        Option.eq_none_iff_forall_ne_some.mpr (fun node here => tidy ⟨Bool.eq_false_of_not_eq_true filled,lookupClean here⟩)
      unfold lookedUp at missing
      split at found
      · rename_i hash
        rw [if_pos hash] at missing
        dsimp only at found
        split at found
        · rename_i own
          rw [if_pos own] at missing
          simp [missing] at found
        · rename_i own
          rw [if_neg own] at missing
          simp [missing] at found
      · rename_i hash
        rw [if_neg hash] at missing
        rw [missing,parentSame trail] at found
        dsimp only at found
        unfold Dfsm.resolveTargetStatePath
        rw [if_neg hash]
        dsimp only
        by_cases top : Dfsm.parentSegments source = []
        · simp [top] at found
        · rw [if_neg top] at found ⊢
          rw [Dotted.joinSnoc top]
          cases here : lookupByDotPath machine.states (Dotted.join (Dfsm.parentSegments source) ++ "." ++ targetRef) with
          | none => simp [here] at found
          | some node =>
            rw [here] at found
            rw [lookupFound portable here]
            exact found

end

end Dfsm.Java
