import Dfsm.Definition.IR

/-! The machine definition of the Go SDK and its lookups. A map is the list of its entries
in the order that one iteration takes them. -/
namespace Dfsm.Go

structure PartialTransitionPolicy where
  retryMaxAttempts : Option Int := none
  retryDefined : Bool := false
  cbEnabled : Option Bool := none
  cbFailureThreshold : Option Int := none
  cbRecoveryTimeoutMs : Option Int := none
  cbHalfOpenSuccess : Option Int := none
  cbDefined : Bool := false
  onFailTarget : Option String := none
  onFailCompensate : Option Bool := none
  onFailDefined : Bool := false
  compensateWith : Option String := none
  deriving DecidableEq, Repr

structure TransitionDefinition where
  target : String
  handler : String := ""
  policy : Option PartialTransitionPolicy := none
  deriving DecidableEq, Repr

structure StateDefinition where
  id : String
  type : String := ""
  initial : String := ""
  states : List (String × StateDefinition) := []
  on : List (String × List TransitionDefinition) := []
  onDone : List TransitionDefinition := []
  entry : List String := []
  exit : List String := []

structure MachineDefinition where
  id : String
  type : String := ""
  initial : String := ""
  maxEffectChainDepth : Int := 25
  states : List (String × StateDefinition)
  defaults : Option PartialTransitionPolicy := none

/-- `strings.EqualFold`, of names whose letters fold only among themselves -/
def equalFold (a b : String) : Bool := a.toList.map Char.toLower = b.toList.map Char.toLower

def StateDefinition.isParallel (s : StateDefinition) : Bool := equalFold s.type "parallel"
def StateDefinition.isCompound (s : StateDefinition) : Bool :=
  equalFold s.type "compound" || (!s.states.isEmpty && !s.isParallel)
def StateDefinition.isFinal (s : StateDefinition) : Bool := equalFold s.type "final"

/-- The parts of a path, the empty ones skipped. -/
def getNodeByParts (currentMap : List (String × StateDefinition)) (found : Option StateDefinition) :
    List String → Option StateDefinition
  | [] => found
  | part::rest =>
    if part = "" then getNodeByParts currentMap found rest
    else match Keyed.get currentMap part with
      | none => none
      | some s => getNodeByParts s.states (some s) rest

def getNodeByPath (m : MachineDefinition) (dotPath : String) : Option StateDefinition :=
  if dotPath = "" then none else getNodeByParts m.states none (Dotted.split dotPath)

/-- `strings.TrimPrefix(targetRef, "#")` -/
def trimHash (targetRef : String) : String :=
  if "#".toList.isPrefixOf targetRef.toList then dropPrefix 1 targetRef else targetRef

mutual
def findBelow (targetRef above : String) : StateDefinition → String
  | { id := _, type := _, initial := _, states, on := _, onDone := _, entry := _, exit := _ } => findPathRecursive targetRef above states
def findPathRecursive (targetRef above : String) : List (String × StateDefinition) → String
  | [] => ""
  | (k,v)::rest =>
    let currentPath := childPath above k
    if k = targetRef ∨ currentPath = targetRef then currentPath
    else if findBelow targetRef currentPath v ≠ "" then findBelow targetRef currentPath v
    else findPathRecursive targetRef above rest
end

/-- The reference below the container that the first parts of a source name. -/
def candidate (container : List String) (targetRef : String) : String :=
  if Dotted.join container = "" then targetRef else Dotted.join container ++ "." ++ targetRef

/-- The containers of a source from the innermost out. -/
def nearest (m : MachineDefinition) (parts : List String) (targetRef : String) : Nat → Option String
  | 0 => none
  | i+1 =>
    if (getNodeByPath m (candidate (parts.take i) targetRef)).isSome then some (candidate (parts.take i) targetRef)
    else nearest m parts targetRef i

def resolveTargetPath (m : MachineDefinition) (sourcePath targetRef : String) : String :=
  if targetRef = "" then sourcePath else
  let targetRef := trimHash targetRef
  if (Keyed.get m.states targetRef).isSome then targetRef else
  let parts := Dotted.split sourcePath
  match nearest m parts targetRef parts.length with
  | some candidate => candidate
  | none =>
    if findPathRecursive targetRef "" m.states ≠ "" then findPathRecursive targetRef "" m.states
    else targetRef

theorem partsFound (states : List (String × StateDefinition)) (found : Option StateDefinition) (parts : List String) :
    getNodeByParts states found parts = getNodeByParts states found (parts.filter (fun p => p != "")) := by
  induction parts generalizing states found with
  | nil => rfl
  | cons part rest ih =>
    by_cases empty : part = ""
    · rw [getNodeByParts,if_pos empty,List.filter_cons_of_neg (by simp [empty])]
      exact ih states found
    · rw [List.filter_cons_of_pos (by simp [empty]),getNodeByParts,getNodeByParts,if_neg empty,if_neg empty]
      split
      · rfl
      · exact ih _ _

theorem getNodeParts (m : MachineDefinition) (dotPath : String) :
    getNodeByPath m dotPath = getNodeByParts m.states none (Dotted.parts dotPath) := by
  unfold getNodeByPath
  split
  · rename_i empty
    rw [empty]
    rfl
  · exact partsFound m.states none (Dotted.split dotPath)

end Dfsm.Go
