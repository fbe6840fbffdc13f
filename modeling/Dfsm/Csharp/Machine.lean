import Dfsm.Engine.Statechart
import Dfsm.Go.Machine

/-! The machine definition of the C# SDK and its lookups. Nothing is ever removed from one of
its dictionaries: they enumerate their entries in the order these were added. -/
namespace Dfsm.Csharp
open Keyed (Record)
open Go (equalFold trimHash candidate)

structure PartialTransitionPolicy where
  retryMaxAttempts : Option Int := none
  retryExplicitlyDefined : Option Bool := none
  cbFailureThreshold : Option Int := none
  cbRecoveryTimeoutMs : Option Int := none
  cbHalfOpenSuccessThreshold : Option Int := none
  cbExplicitlyDefined : Option Bool := none
  onFailTarget : Option String := none
  onFailCompensate : Option Bool := none
  onFailExplicitlyDefined : Option Bool := none
  compensateWith : Option String := none
  deriving DecidableEq, Repr

structure TransitionDefinition where
  target : String := ""
  handler : Option String := none
  policy : Option PartialTransitionPolicy := none
  deriving DecidableEq, Repr

/-- `OnDone` that is null has no edge either. -/
structure StateDefinition where
  id : String
  type : Option String := none
  initial : Option String := none
  states : List (String × StateDefinition) := []
  on : List (String × List TransitionDefinition) := []
  onDone : List TransitionDefinition := []
  entry : List String := []
  exit : List String := []

structure MachineDefinition where
  id : String
  type : Option String := none
  initial : String := ""
  maxEffectChainDepth : Int := 25
  states : List (String × StateDefinition)
  defaults : Option PartialTransitionPolicy := none

/-- `string.Equals(type, name, StringComparison.OrdinalIgnoreCase)` -/
def isType (type : Option String) (name : String) : Bool := type.any (equalFold · name)

def StateDefinition.isParallel (s : StateDefinition) : Bool := isType s.type "parallel"
def StateDefinition.isCompound (s : StateDefinition) : Bool :=
  isType s.type "compound" || (!s.states.isEmpty && !s.isParallel)
def StateDefinition.isFinal (s : StateDefinition) : Bool := isType s.type "final"

/-- `dict[key] = value` -/
def put {α : Type} (key : String) (value : α) : Record α → Record α
  | [] => [(key,value)]
  | e::rest => if key = e.1 then (key,value)::rest else e::put key value rest

theorem getPut {α : Type} (key : String) (value : α) (m : Record α) (k : String) :
    Keyed.get (put key value m) k = if k = key then some value else Keyed.get m k := by
  induction m with
  | nil => exact Keyed.getSingle k key value
  | cons e rest ih =>
    rw [put]
    split
    · rename_i same
      rw [Keyed.getCons,Keyed.getCons,← same]
      split <;> rfl
    · rename_i other
      rw [Keyed.getCons,Keyed.getCons,ih]
      split
      · rename_i here
        rw [if_neg (fun same : k = key => other (same.symm.trans here))]
      · rfl

/-- `char.IsWhiteSpace` -/
def isWhiteSpace (c : Char) : Bool :=
  let n := c.toNat
  (0x9 ≤ n && n ≤ 0xD) || n = 0x20 || n = 0x85 || n = 0xA0 || n = 0x1680 || (0x2000 ≤ n && n ≤ 0x200A) ||
    n = 0x2028 || n = 0x2029 || n = 0x202F || n = 0x205F || n = 0x3000

/-- `string.IsNullOrWhiteSpace` -/
def isBlank (text : String) : Bool := text.toList.all isWhiteSpace

def getNodeByParts (map : List (String × StateDefinition)) (current : Option StateDefinition) : List String → Option StateDefinition
  | [] => current
  | part::rest => match Keyed.get map part with
    | none => none
    | some s => getNodeByParts s.states (some s) rest

def getNodeByPath (m : MachineDefinition) (dotPath : String) : Option StateDefinition :=
  if isBlank dotPath then none else getNodeByParts m.states none (Dotted.parts dotPath)

mutual
def findBelow (targetRef currentPath : String) : StateDefinition → Option String
  | { id := _, type := _, initial := _, states, on := _, onDone := _, entry := _, exit := _ } =>
    findPathRecursive targetRef currentPath states
def findPathRecursive (targetRef above : String) : List (String × StateDefinition) → Option String
  | [] => none
  | (k,v)::rest =>
    let currentPath := childPath above k
    if k = targetRef ∨ currentPath = targetRef then some currentPath
    else (findBelow targetRef currentPath v).or (findPathRecursive targetRef above rest)
end

/-- The containers of a source from the innermost out. -/
def nearest (m : MachineDefinition) (parts : List String) (targetRef : String) : Nat → Option String
  | 0 => none
  | i+1 =>
    if (getNodeByPath m (candidate (parts.take i) targetRef)).isSome then some (candidate (parts.take i) targetRef)
    else nearest m parts targetRef i

def resolveTargetStatePath (m : MachineDefinition) (sourcePath targetRef : String) : String :=
  if targetRef = "" then sourcePath else
  let targetRef := trimHash targetRef
  if Keyed.has m.states targetRef then targetRef else
  let parts := Dotted.split sourcePath
  ((nearest m parts targetRef parts.length).or (findPathRecursive targetRef "" m.states)).getD targetRef

end Dfsm.Csharp
