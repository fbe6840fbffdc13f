import Dfsm.Lib.Keyed
import Dfsm.Lib.Dotted

/-! The machine definition both front ends compile to, and target resolution.
Objects keyed by state or event name are records in enumeration order. -/
namespace Dfsm
open Keyed (Record)

inductive StateNodeType where
  | atomic | compound | parallel | final
  deriving DecidableEq, Repr

/-- The type of a whole definition; its root is never a leaf. -/
inductive MachineType where
  | compound | parallel
  deriving DecidableEq, Repr

structure PartialOnFailPolicy where
  compensate : Option Bool := none
  target : Option String := none
  deriving DecidableEq, Repr

structure PartialTransitionPolicy where
  onFail : Option PartialOnFailPolicy := none
  compensateHandler : Option String := none
  deriving DecidableEq, Repr

structure TransitionEdgeIR where
  event : String
  target : Option String := none
  transition : Option String := none
  compensate : Option String := none
  effects : List String := []
  policy : PartialTransitionPolicy := {}
  deriving DecidableEq, Repr

structure StateNodeIR where
  key : String
  path : String
  type : StateNodeType
  initial : Option String := none
  entry : List String := []
  exit : List String := []
  on : List (String × TransitionEdgeIR) := []
  onDone : Option TransitionEdgeIR := none
  states : List (String × StateNodeIR) := []
  isImplicitError : Bool := false

def StateNodeIR.isLeaf (node : StateNodeIR) : Bool :=
  node.type = .atomic || node.type = .final

structure RegistryBindingIR where
  namespaceName : Option String := none
  strict : Bool := true
  deriving DecidableEq, Repr

/-- What `finalizeAndValidateMachineIR` is given: a definition before the
implicit error state is injected. -/
structure RawMachine where
  id : String
  type : MachineType := .compound
  initial : Option String := none
  registry : RegistryBindingIR := {}
  defaults : PartialTransitionPolicy := {}
  maxEffectChainDepth : Option Int := none
  states : Record StateNodeIR

structure MachineDefinition extends RawMachine where
  hasCustomErrorState : Bool

/-- Optional text as the source tests it: the empty string counts as absent. -/
def given (text : Option String) : Option String := text.filter (· != "")

def childPath (parentPath key : String) : String :=
  if parentPath = "" then key else parentPath ++ "." ++ key

def lookupParts (states : Record StateNodeIR) (current : Option StateNodeIR) :
    List String → Option StateNodeIR
  | [] => current
  | part::rest => match Keyed.get states part with
    | none => none
    | some node => lookupParts node.states (some node) rest

def lookupByDotPath (states : Record StateNodeIR) (dotPath : String) : Option StateNodeIR :=
  lookupParts states none (Dotted.parts dotPath)

def dropPrefix (count : Nat) (text : String) : String := String.ofList (text.toList.drop count)

def qualifyHandlerName (handlerName : String) (namespaceName : Option String) : String :=
  match given namespaceName with
  | none => handlerName
  | some ns => if Dotted.under ns handlerName then handlerName else ns ++ "." ++ handlerName

/-- `parentSegments` of a source path: the segments of its container. -/
def parentSegments (sourceStatePath : String) : List String :=
  (if sourceStatePath = "" then [] else Dotted.split sourceStatePath).dropLast

def resolveTargetStatePath (machine : RawMachine) (sourceStatePath targetRef : String) : Option String :=
  if "#".toList.isPrefixOf targetRef.toList then
    let stripped := dropPrefix 1 targetRef
    if Dotted.under machine.id stripped then
      (lookupByDotPath machine.states (dropPrefix (machine.id.length + 1) stripped)).map (·.path)
    else (lookupByDotPath machine.states stripped).map (·.path)
  else
    let sibling := if parentSegments sourceStatePath = [] then none
      else lookupByDotPath machine.states (Dotted.join (parentSegments sourceStatePath ++ [targetRef]))
    match sibling with
    | some found => some found.path
    | none => (lookupByDotPath machine.states targetRef).map (·.path)

theorem lookupPartsCurrent (states : Record StateNodeIR) (current other : Option StateNodeIR)
    {parts : List String} (some : parts ≠ []) :
    lookupParts states current parts = lookupParts states other parts := by
  cases parts with
  | nil => contradiction
  | cons part rest => rfl

theorem lookupPartsAppend {states : Record StateNodeIR} {current node} {front : List String}
    (found : lookupParts states current front = some node) (step : front ≠ []) (rest : List String) :
    lookupParts states current (front ++ rest) = lookupParts node.states (some node) rest := by
  induction front generalizing states current with
  | nil => contradiction
  | cons part tail ih =>
    simp only [lookupParts,List.cons_append] at found ⊢
    cases hg : Keyed.get states part with
    | none => simp [hg] at found
    | some child =>
      simp only [hg] at found
      cases tail with
      | nil => cases found; rfl
      | cons p ps => exact ih found (by simp)

theorem resolvedNode {machine sourceStatePath targetRef path}
    (ok : resolveTargetStatePath machine sourceStatePath targetRef = some path) :
    ∃ parts node, (∀ p ∈ parts, Dotted.Plain p) ∧
      lookupParts machine.states none parts = some node ∧ node.path = path := by
  have byDotPath {dotPath} (h : (lookupByDotPath machine.states dotPath).map (·.path) = some path) :
      ∃ parts node, (∀ p ∈ parts, Dotted.Plain p) ∧
        lookupParts machine.states none parts = some node ∧ node.path = path := by
    obtain ⟨node,found,same⟩ := Option.map_eq_some_iff.mp h
    exact ⟨_,node,Dotted.partsPlain dotPath,found,same⟩
  unfold resolveTargetStatePath at ok
  split at ok
  · dsimp only at ok
    split at ok
    · exact byDotPath ok
    · exact byDotPath ok
  · dsimp only at ok
    split at ok
    · rename_i found hs
      split at hs
      · contradiction
      · cases ok
        exact ⟨_,found,Dotted.partsPlain _,hs,rfl⟩
    · exact byDotPath ok

end Dfsm
