import Dfsm.Definition.Validate
import Mathlib.Data.List.Induction

/-! Definitions as the two front ends hand them over: every node carries the key
it is stored under and the path of that key below its parent. -/
namespace Dfsm
open Keyed (Record)

mutual
/-- Key and path as `parseStateNode` and `StateNodeBuilder` write them. -/
def builtNode (parentPath key : String) : StateNodeIR → Bool
  | { key := own, path, type := _, initial := _, entry := _, exit := _, on := _, onDone := _, states, isImplicitError } =>
    own = key && path = childPath parentPath key && !isImplicitError &&
    (Keyed.keys states).Nodup && builtStates path states
def builtStates (parentPath : String) : List (String × StateNodeIR) → Bool
  | [] => true
  | (key,node)::rest => builtNode parentPath key node && builtStates parentPath rest
end

mutual
def plainNode : StateNodeIR → Bool
  | { key := _, path := _, type := _, initial := _, entry := _, exit := _, on := _, onDone := _, states, isImplicitError := _ } =>
    plainStates states
def plainStates : List (String × StateNodeIR) → Bool
  | [] => true
  | (key,node)::rest => Dotted.Plain key && plainNode node && plainStates rest
end

structure Loaded (machine : MachineDefinition) : Prop where
  source : ∃ raw, (Keyed.keys raw.states).Nodup ∧ builtStates "" raw.states = true ∧
    finalizeAndValidateMachineIR raw = .ok machine

/-- No state key of the definition is empty or contains a dot. -/
def KeysClean (machine : RawMachine) : Prop := plainStates machine.states = true
instance (machine) : Decidable (KeysClean machine) := by unfold KeysClean; infer_instance

def pathOf (ks : List String) : String := ks.foldl childPath ""

/-- Everything the front ends and the validator establish of one stored node. -/
inductive WellFormed : String → String → StateNodeIR → Prop where
  | node {parentPath key node} (sameKey : node.key = key) (samePath : node.path = childPath parentPath key)
      (unique : (Keyed.keys node.states).Nodup) (valid : Valid node)
      (children : ∀ e ∈ node.states, WellFormed node.path e.1 e.2) : WellFormed parentPath key node

theorem validChildren {node} (valid : Valid node) : ∀ e ∈ node.states, Valid e.2 := by
  cases valid with
  | leaf _ empty => simp [empty]
  | compound _ _ _ children => exact children
  | parallel _ _ children => exact children

mutual
theorem builtWellFormed {parentPath key} : (node : StateNodeIR) →
    builtNode parentPath key node = true → Valid node → WellFormed parentPath key node
  | { key := own, path, type, initial, entry, exit, on, onDone, states, isImplicitError }, built, valid => by
    simp only [builtNode,Bool.and_eq_true,decide_eq_true_eq] at built
    obtain ⟨⟨⟨⟨same,here⟩,_⟩,unique⟩,rest⟩ := built
    exact .node same here unique valid (builtAll states rest (validChildren valid))
theorem builtAll {parentPath} : (states : List (String × StateNodeIR)) →
    builtStates parentPath states = true → (∀ e ∈ states, Valid e.2) →
    ∀ e ∈ states, WellFormed parentPath e.1 e.2
  | [], _, _ => by intro e mem; simp at mem
  | (key,node)::rest, built, valid => by
    simp only [builtStates,Bool.and_eq_true] at built
    intro e mem
    rcases List.mem_cons.mp mem with same | inside
    · subst e; exact builtWellFormed node built.1 (valid _ List.mem_cons_self)
    · exact builtAll rest built.2 (fun e he => valid e (List.mem_cons_of_mem _ he)) e inside
end

theorem builtExplicit {parentPath states} (built : builtStates parentPath states = true) :
    ∀ e ∈ states, e.2.isImplicitError = false := by
  induction states with
  | nil => simp
  | cons first rest ih =>
    obtain ⟨key,node⟩ := first
    simp only [builtStates,Bool.and_eq_true] at built
    intro e mem
    rcases List.mem_cons.mp mem with same | inside
    · subst e
      cases node
      simp only [builtNode,Bool.and_eq_true,Bool.not_eq_true'] at built
      exact built.1.1.1.2
    · exact ih built.2 e inside

theorem nodesIssues {machine states key node} (clean : validateNodes machine states = [])
    (found : Keyed.get states key = some node) : validateNode machine node = [] := by
  induction states with
  | nil => simp at found
  | cons first rest ih =>
    obtain ⟨k,child⟩ := first
    simp only [validateNodes,List.append_eq_nil_iff] at clean
    rw [Keyed.getCons] at found
    split at found
    · cases found; exact clean.1
    · exact ih clean.2 found

theorem nodeIssues {machine states current ks node} (clean : validateNodes machine states = [])
    (found : lookupParts states current ks = some node) (step : ks ≠ []) : validateNode machine node = [] := by
  induction ks generalizing states current with
  | nil => contradiction
  | cons key rest ih =>
    simp only [lookupParts] at found
    cases hg : Keyed.get states key with
    | none => simp [hg] at found
    | some child =>
      simp only [hg] at found
      have here := nodesIssues clean hg
      cases rest with
      | nil => cases found; exact here
      | cons j tail =>
        obtain ⟨_,_,_,_,_,_,_,_,states,_⟩ := child
        simp only [validateNode,List.append_eq_nil_iff] at here
        exact ih here.2 found (by simp)

theorem wellFormedChain {parentPath states} (all : ∀ e ∈ states, WellFormed parentPath e.1 e.2)
    {current ks k node} (found : lookupParts states current (ks ++ [k]) = some node) :
    WellFormed (ks.foldl childPath parentPath) k node := by
  induction ks generalizing parentPath states current with
  | nil =>
    simp only [List.nil_append,lookupParts] at found
    cases hg : Keyed.get states k with
    | none => simp [hg] at found
    | some child =>
      simp only [hg] at found
      cases found
      exact all _ (Keyed.getSome hg)
  | cons j rest ih =>
    simp only [List.cons_append,lookupParts] at found
    cases hg : Keyed.get states j with
    | none => simp [hg] at found
    | some child =>
      simp only [hg] at found
      cases all _ (Keyed.getSome hg) with
      | node _ samePath _ _ children =>
        have below := ih children found
        rwa [samePath] at below

section
variable {machine : MachineDefinition} (loaded : Loaded machine)
include loaded

theorem loadedAccepted : Accepted machine := by
  obtain ⟨raw,_,_,ok⟩ := loaded.source
  exact ⟨raw,ok⟩

/-- The states of a loaded definition are the given ones, with the implicit
error state added when no state is called "error". -/
theorem loadedStates : ∃ given : Record StateNodeIR, (Keyed.keys given).Nodup ∧
    builtStates "" given = true ∧ given ≠ [] ∧
    machine.states = if Keyed.has given "error" then given else Keyed.set given "error" implicitError := by
  obtain ⟨raw,unique,built,ok⟩ := loaded.source
  unfold finalizeAndValidateMachineIR at ok
  split at ok
  · rename_i clean
    cases ok
    refine ⟨raw.states,unique,built,?_,rfl⟩
    intro empty
    simp [definitionIssues,empty] at clean
  · contradiction

theorem loadedUnique : (Keyed.keys machine.states).Nodup := by
  obtain ⟨given,unique,_,_,same⟩ := loadedStates loaded
  rw [same]
  split
  · exact unique
  · exact Keyed.setNodup unique _ _

theorem loadedGet {k node} (found : Keyed.get machine.states k = some node) :
    node.isImplicitError = false ∨ k = "error" ∧ node = implicitError := by
  obtain ⟨given,_,built,_,same⟩ := loadedStates loaded
  rw [same] at found
  split at found
  · exact .inl (builtExplicit built _ (Keyed.getSome found))
  · rw [Keyed.getSet] at found
    split at found
    · rename_i here; cases found; exact .inr ⟨here,rfl⟩
    · exact .inl (builtExplicit built _ (Keyed.getSome found))

theorem loadedWellFormed : ∀ e ∈ machine.states, WellFormed "" e.1 e.2 := by
  obtain ⟨given,unique,built,_,same⟩ := loadedStates loaded
  have valid := acceptedValid (loadedAccepted loaded)
  have implicit : WellFormed "" "error" implicitError :=
    .node rfl rfl (by decide) (.leaf rfl rfl) (by simp [implicitError])
  rw [same] at valid ⊢
  split
  · rename_i custom
    rw [if_pos custom] at valid
    exact builtAll given built valid
  · rename_i none
    rw [if_neg none] at valid
    have kept : ∀ e ∈ given, e ∈ Keyed.set given "error" implicitError := by
      intro e mem
      rw [Keyed.set,if_neg none]
      exact (Keyed.insertPerm _ _ _).symm.subset (List.mem_cons_of_mem _ mem)
    intro e mem
    rw [Keyed.set,if_neg none] at mem
    rcases List.mem_cons.mp ((Keyed.insertPerm _ _ _).subset mem) with here | inside
    · rw [here]; exact implicit
    · exact builtAll given built (fun e he => valid e (kept e he)) e inside

theorem loadedChain {current ks k node} (found : lookupParts machine.states current (ks ++ [k]) = some node) :
    WellFormed (pathOf ks) k node := wellFormedChain (loadedWellFormed loaded) found

theorem loadedNode {current ks node} (found : lookupParts machine.states current ks = some node) (some : ks ≠ []) :
    validateNode machine.toRawMachine node = [] := by
  obtain ⟨raw,rfl,none⟩ := acceptedIssues (loadedAccepted loaded)
  simp only [definitionIssues,List.append_eq_nil_iff] at none
  exact nodeIssues none.2 found some

end

theorem pathOfJoin {ks : List String} (plain : ∀ k ∈ ks, Dotted.Plain k) : pathOf ks = Dotted.join ks := by
  induction ks using List.reverseRecOn with
  | nil => rfl
  | append_singleton front k ih =>
    have before := ih (fun j hj => plain j (List.mem_append_left _ hj))
    rw [pathOf,List.foldl_append,List.foldl_cons,List.foldl_nil]
    rw [pathOf] at before
    rw [before,childPath]
    split
    · rename_i empty
      have : front = [] := (Dotted.joinEmpty (fun j hj => plain j (List.mem_append_left _ hj))).mp empty
      simp [this,Dotted.join]
    · rename_i some
      have nonempty : front ≠ [] := by rintro rfl; exact some rfl
      rw [Dotted.joinSnoc nonempty]

theorem resolvedChain {machine : MachineDefinition} (loaded : Loaded machine) {sourceStatePath targetRef path}
    (ok : given (resolveTargetStatePath machine.toRawMachine sourceStatePath targetRef) = some path) :
    ∃ ks k node, (∀ j ∈ ks ++ [k], Dotted.Plain j) ∧
      lookupParts machine.states none (ks ++ [k]) = some node ∧ path = Dotted.join (ks ++ [k]) := by
  obtain ⟨resolved,_⟩ := Option.filter_eq_some_iff.mp ok
  obtain ⟨parts,node,plain,found,same⟩ := resolvedNode resolved
  cases parts using List.reverseRecOn with
  | nil => simp [lookupParts] at found
  | append_singleton ks k =>
    cases loadedChain loaded found with
    | node _ samePath _ _ _ =>
      refine ⟨ks,k,node,plain,found,?_⟩
      rw [← same,samePath,← pathOfJoin plain,pathOf,pathOf,List.foldl_append]
      rfl

theorem onDoneResolves {machine : MachineDefinition} (loaded : Loaded machine) {current ks node edge target}
    (found : lookupParts machine.states current ks = some node) (step : ks ≠ []) (onDone : node.onDone = some edge)
    (named : given edge.target = some target) :
    ∃ path, given (resolveTargetStatePath machine.toRawMachine node.path target) = some path := by
  have clean := loadedNode loaded found step
  obtain ⟨_,_,_,_,_,_,_,_,_,_⟩ := node
  dsimp only at onDone
  subst onDone
  simp only [validateNode,Option.elim_some,validateEdge,named,List.append_eq_nil_iff] at clean
  have resolved := clean.1.2.1
  split at resolved
  · rename_i path ok
    exact ⟨path,ok⟩
  · contradiction

theorem plainNodeBelow : (node : StateNodeIR) → plainNode node = true → plainStates node.states = true
  | { key := _, path := _, type := _, initial := _, entry := _, exit := _, on := _, onDone := _, states := _, isImplicitError := _ }, plain => plain

theorem plainEntry {states : List (String × StateNodeIR)} (plain : plainStates states = true) {k node}
    (found : Keyed.get states k = some node) : Dotted.Plain k ∧ plainStates node.states = true := by
  induction states with
  | nil => simp at found
  | cons first rest ih =>
    obtain ⟨key,child⟩ := first
    simp only [plainStates,Bool.and_eq_true,decide_eq_true_eq] at plain
    rw [Keyed.getCons] at found
    split at found
    · rename_i here
      cases found
      exact ⟨here ▸ plain.1.1,plainNodeBelow _ plain.1.2⟩
    · exact ih plain.2 found

theorem plainChain {states : List (String × StateNodeIR)} (plain : plainStates states = true) {current ks node}
    (found : lookupParts states current ks = some node) : ∀ k ∈ ks, Dotted.Plain k := by
  induction ks generalizing states current with
  | nil => simp
  | cons j rest ih =>
    simp only [lookupParts] at found
    cases hg : Keyed.get states j with
    | none => simp [hg] at found
    | some child =>
      simp only [hg] at found
      obtain ⟨here,below⟩ := plainEntry plain hg
      intro k mem
      rcases List.mem_cons.mp mem with rfl | inside
      · exact here
      · exact ih below found k inside

end Dfsm
