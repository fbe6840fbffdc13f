import Dfsm.Engine.Statechart
import Dfsm.Csharp.Machine

/-! The machine definition of the Python SDK and its lookups. A `dict` enumerates its entries
in the order these were added. -/
namespace Dfsm.Python
open Keyed (Record)

structure PartialTransitionPolicy where
  retryMaxAttempts : Option Int := none
  retryDefined : Bool := false
  cbEnabled : Option Bool := none
  cbFailureThreshold : Option Int := none
  cbRecoveryTimeoutMs : Option Int := none
  cbHalfOpenSuccess : Option Int := none
  cbDefined : Bool := false
  onFailTarget : Option String := none
  onFailCompensate : Option Bool := none
  onFailDefined : Bool := false
  deriving DecidableEq, Repr

/-- With what `to_partial_policy` makes of its dictionaries. -/
structure TransitionDetails where
  target : Option String := none
  transition : Option String := none
  compensate : Option String := none
  policy : Option PartialTransitionPolicy := none
  effects : List String := []
  deriving DecidableEq, Repr

structure StateDefinition where
  id : String
  stateType : Option String := none
  initial : Option String := none
  states : List (String × StateDefinition) := []
  on : List (String × List TransitionDetails) := []
  onDone : List TransitionDetails := []
  entry : List String := []
  exit : List String := []

/-- `strict` is that of the registry settings, false where there are none. -/
structure MachineDefinition where
  id : String
  initial : String
  maxEffectChainDepth : Int := 25
  states : List (String × StateDefinition)
  defaults : Option PartialTransitionPolicy := none
  strict : Bool := false

def StateDefinition.isParallel (s : StateDefinition) : Bool := s.stateType = some "parallel"
def StateDefinition.isCompound (s : StateDefinition) : Bool := !s.states.isEmpty && !s.isParallel
def StateDefinition.isFinal (s : StateDefinition) : Bool := s.stateType = some "final"

mutual
def keyedBelow : StateDefinition → Bool
  | { id := _, stateType := _, initial := _, states, on := _, onDone := _, entry := _, exit := _ } =>
    decide (Keyed.keys states).Nodup && keyedStates states
def keyedStates : List (String × StateDefinition) → Bool
  | [] => true
  | (key,s)::rest => s.id = key && keyedBelow s && keyedStates rest
end

/-- What `parse_yaml_machine` returns: dictionaries that have each key once, with an error state
and a depth that is positive. Beyond the schema it checks nothing. -/
structure Accepted (m : MachineDefinition) : Prop where
  unique : (Keyed.keys m.states).Nodup
  keyed : keyedStates m.states = true
  error : Keyed.has m.states "error" = true
  positive : 0 < m.maxEffectChainDepth

instance (m : MachineDefinition) : Decidable (Accepted m) :=
  decidable_of_iff ((Keyed.keys m.states).Nodup ∧ keyedStates m.states = true ∧ Keyed.has m.states "error" = true ∧
      0 < m.maxEffectChainDepth)
    ⟨fun all => ⟨all.1,all.2.1,all.2.2.1,all.2.2.2⟩,fun accepted => ⟨accepted.unique,accepted.keyed,accepted.error,accepted.positive⟩⟩

def getNodeByPath (states : List (String × StateDefinition)) : List String → Option StateDefinition
  | [] => none
  | [seg] => Keyed.get states seg
  | seg::next::rest => (Keyed.get states seg).bind (fun cur => getNodeByPath cur.states (next::rest))

mutual
def findBelow (target : String) (cur : List String) : StateDefinition → Option (List String)
  | { id := _, stateType := _, initial := _, states, on := _, onDone := _, entry := _, exit := _ } => findPathRecursive target cur states
def findPathRecursive (target : String) (above : List String) : List (String × StateDefinition) → Option (List String)
  | [] => none
  | (k,v)::rest =>
    if k = target then some (above ++ [k])
    else (findBelow target (above ++ [k]) v).or (findPathRecursive target above rest)
end

/-- The containers of a source from the innermost out. -/
def nearest (m : MachineDefinition) (sourcePath : List String) (cleanRef : String) : Nat → Option (List String)
  | 0 => none
  | i+1 =>
    if (getNodeByPath m.states (sourcePath.take i ++ [cleanRef])).isSome then some (sourcePath.take i ++ [cleanRef])
    else nearest m sourcePath cleanRef i

/-- `target_ref.lstrip("#")` -/
def lstripHash (targetRef : String) : String := String.ofList (targetRef.toList.dropWhile (· == '#'))

def resolveTargetPath (m : MachineDefinition) (sourcePath : List String) (targetRef : String) : List String :=
  let cleanRef := lstripHash targetRef
  if Keyed.has m.states cleanRef then [cleanRef]
  else ((nearest m sourcePath cleanRef sourcePath.length).or (findPathRecursive cleanRef [] m.states)).getD [cleanRef]

end Dfsm.Python
