import Dfsm.Go.Statechart

/-! The machine definition of the Rust SDK, its policies and its lookups. A `BTreeMap` is the
list of its entries in the order of their keys. -/
namespace Dfsm.Rust
open Keyed (Record)

/-- `serde_json::Value`; no policy reads the value of a number that is not an integer. -/
inductive Value where
  | null
  | bool (b : Bool)
  | integer (n : Int)
  | float
  | string (s : String)
  | array (items : List Value)
  | object (entries : List (String × Value))

namespace Value

def get (v : Value) (key : String) : Option Value :=
  match v with
  | .object entries => Keyed.get entries key
  | _ => none

def asU64 : Value → Option Nat
  | .integer n => if 0 ≤ n then some n.toNat else none
  | _ => none

def asBool : Value → Option Bool
  | .bool b => some b
  | _ => none

def asStr : Value → Option String
  | .string s => some s
  | _ => none

end Value

structure PartialTransitionPolicy where
  retryMaxAttempts : Option Nat := none
  retryDefined : Bool := false
  cbEnabled : Option Bool := none
  cbFailureThreshold : Option Nat := none
  cbRecoveryTimeoutMs : Option Nat := none
  cbHalfOpenSuccess : Option Nat := none
  cbDefined : Bool := false
  onFailTarget : Option String := none
  onFailCompensate : Option Bool := none
  onFailDefined : Bool := false
  compensateWith : Option String := none
  deriving DecidableEq, Repr

/-- What is written flat in the map overrides what is nested. -/
def PartialTransitionPolicy.fromValue : Value → PartialTransitionPolicy
  | .object entries =>
    let map := Value.object entries
    let retry := map.get "retry"
    let cb := map.get "circuitBreaker"
    let onFail := map.get "onFail"
    let attempts := (map.get "retryMaxAttempts").bind Value.asU64
    { retryMaxAttempts := attempts.or (retry.bind (fun r => ((r.get "maxAttempts").bind Value.asU64).or r.asU64))
      retryDefined := ((map.get "retryDefined").bind Value.asBool).getD (retry.isSome || attempts.isSome)
      cbEnabled := ((map.get "cbEnabled").bind Value.asBool).or (cb.bind (fun cb => (cb.get "enabled").bind Value.asBool))
      cbFailureThreshold := cb.bind (fun cb => (cb.get "failureThreshold").bind Value.asU64)
      cbRecoveryTimeoutMs := cb.bind (fun cb => ((cb.get "recoveryTimeoutMs").or (cb.get "openDurationMs")).bind Value.asU64)
      cbHalfOpenSuccess := cb.bind (fun cb => ((cb.get "halfOpenSuccessThreshold").or (cb.get "halfOpenMaxCalls")).bind Value.asU64)
      cbDefined := ((map.get "cbDefined").bind Value.asBool).getD cb.isSome
      onFailTarget := onFail.bind (fun onFail => (onFail.get "target").bind Value.asStr)
      onFailCompensate := onFail.bind (fun onFail => (onFail.get "compensate").bind Value.asBool)
      onFailDefined := ((map.get "onFailDefined").bind Value.asBool).getD onFail.isSome
      compensateWith := ((map.get "compensateWith").or (map.get "compensate")).bind Value.asStr }
  | _ => {}

structure CircuitBreakerPolicy where
  enabled : Bool := true
  failureThreshold : Nat := 5
  recoveryTimeoutMs : Nat := 30000
  halfOpenSuccessThreshold : Nat := 2
  deriving DecidableEq, Repr

structure OnFailPolicy where
  target : Option String := none
  compensate : Bool := false
  deriving DecidableEq, Repr

structure TransitionPolicy where
  maxAttempts : Nat := 1
  circuitBreaker : Option CircuitBreakerPolicy := none
  onFail : Option OnFailPolicy := none
  compensateWith : Option String := none
  deriving DecidableEq, Repr

/-- `PolicyMerger::merge`: the first layer that defines a part gives all of it. -/
def merge (layers : List (Option PartialTransitionPolicy)) : TransitionPolicy :=
  let layers := layers.filterMap id
  { maxAttempts := ((layers.find? (fun l => l.retryDefined || l.retryMaxAttempts.isSome)).bind (·.retryMaxAttempts)).getD 1
    circuitBreaker := (layers.find? (fun l => l.cbDefined || l.cbFailureThreshold.isSome || l.cbEnabled.isSome ||
      l.cbRecoveryTimeoutMs.isSome)).map (fun l => {
        enabled := l.cbEnabled.getD true
        failureThreshold := l.cbFailureThreshold.getD 5
        recoveryTimeoutMs := l.cbRecoveryTimeoutMs.getD 30000
        halfOpenSuccessThreshold := l.cbHalfOpenSuccess.getD 2 })
    onFail := (layers.find? (fun l => l.onFailDefined || l.onFailTarget.isSome || l.onFailCompensate.isSome)).map (fun l => {
      target := l.onFailTarget
      compensate := l.onFailCompensate.getD false })
    compensateWith := layers.findSome? (·.compensateWith) }

structure TransitionDetails where
  target : Option String := none
  transition : Option String := none
  compensate : Option String := none
  retry : Option Value := none
  circuitBreaker : Option Value := none
  onFail : Option Value := none

def TransitionDetails.toPartialPolicy (d : TransitionDetails) : Option PartialTransitionPolicy :=
  let map := (d.retry.map ("retry",·)).toList ++ (d.circuitBreaker.map ("circuitBreaker",·)).toList ++
    (d.onFail.map ("onFail",·)).toList ++ (d.compensate.map (fun c => ("compensateWith",Value.string c))).toList
  if map.isEmpty then none else some (.fromValue (.object map))

inductive TransitionValue where
  | target (target : String)
  | detailed (details : TransitionDetails)
  | multiple (details : List TransitionDetails)

def TransitionValue.details : TransitionValue → List TransitionDetails
  | .target tgt => [{ target := some tgt }]
  | .detailed d => [d]
  | .multiple v => v

abbrev OnDoneValue := TransitionValue

structure StateDefinition where
  stateType : Option String := none
  initial : Option String := none
  states : List (String × StateDefinition) := []
  on : List (String × TransitionValue) := []
  onDone : Option OnDoneValue := none
  entry : List String := []
  exit : List String := []

structure MachineDefinition where
  id : String
  initial : String
  maxEffectChainDepth : Nat := 25
  states : List (String × StateDefinition)
  defaults : Option PartialTransitionPolicy := none

namespace StateDefinition
variable (s : StateDefinition)

def isCompound : Bool := !s.states.isEmpty && s.stateType != some "parallel"
def isParallel : Bool := s.stateType = some "parallel"
def isFinal : Bool := s.stateType = some "final"

end StateDefinition

/-- The schema knows no lists of transitions. -/
def TransitionValue.isSingle : TransitionValue → Bool
  | .multiple _ => false
  | _ => true

mutual
def StateDefinition.accepted : StateDefinition → Bool
  | { stateType := _, initial := _, states, on, onDone, entry := _, exit := _ } =>
    decide ((Keyed.keys states).Pairwise (· < ·)) && decide ((Keyed.keys on).Pairwise (· < ·)) &&
      on.all (·.2.isSingle) && onDone.all (·.isSingle) && acceptedStates states
def acceptedStates : List (String × StateDefinition) → Bool
  | [] => true
  | (_,v)::rest => v.accepted && acceptedStates rest
end

/-- What `parse_yaml_machine` makes sure of, as far as the SDK depends on it. -/
structure Accepted (m : MachineDefinition) : Prop where
  sorted : (Keyed.keys m.states).Pairwise (· < ·)
  states : acceptedStates m.states = true
  depth : 0 < m.maxEffectChainDepth

instance (m : MachineDefinition) : Decidable (Accepted m) :=
  decidable_of_iff ((Keyed.keys m.states).Pairwise (· < ·) ∧ acceptedStates m.states = true ∧ 0 < m.maxEffectChainDepth)
    ⟨fun ⟨sorted,states,depth⟩ => ⟨sorted,states,depth⟩,fun ⟨sorted,states,depth⟩ => ⟨sorted,states,depth⟩⟩

def getNodeIn (states : List (String × StateDefinition)) : List String → Option StateDefinition
  | [] => none
  | [seg] => Keyed.get states seg
  | seg::next::rest => (Keyed.get states seg).bind (fun cur => getNodeIn cur.states (next::rest))

def getNodeByPath (m : MachineDefinition) (path : List String) : Option StateDefinition := getNodeIn m.states path

mutual
def findPathBelow (target : String) (cur : List String) : StateDefinition → Option (List String)
  | { stateType := _, initial := _, states, on := _, onDone := _, entry := _, exit := _ } => findPathRecursive target cur states
def findPathRecursive (target : String) (above : List String) : List (String × StateDefinition) → Option (List String)
  | [] => none
  | (k,v)::rest =>
    if k = target then some (above ++ [k])
    else (findPathBelow target (above ++ [k]) v).or (findPathRecursive target above rest)
end

/-- `target_ref.trim_start_matches('#')` -/
def trimHashes (targetRef : String) : String := String.ofList (targetRef.toList.dropWhile (· = '#'))

def resolveTargetPath (m : MachineDefinition) (sourcePath : List String) (targetRef : String) : List String :=
  let cleanRef := trimHashes targetRef
  if Keyed.has m.states cleanRef then [cleanRef]
  else match ((List.range sourcePath.length).reverse.map (fun i => sourcePath.take i ++ [cleanRef])).find?
      (fun candidate => (getNodeByPath m candidate).isSome) with
    | some candidate => candidate
    | none => (findPathRecursive cleanRef [] m.states).getD [cleanRef]

end Dfsm.Rust
