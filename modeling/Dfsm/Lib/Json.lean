import Dfsm.Lib.Keyed
import Mathlib.Data.Rat.Defs
import Mathlib.Algebra.Order.Ring.Rat

/-! Document values, what reads them, and checks that say which of them are admitted. -/

inductive Json where
  | null
  | flag (value : Bool)
  | number (value : ℚ)
  | text (value : String)
  | list (items : List Json)
  | object (entries : List (String × Json))

namespace Json

/-- `value[key]` -/
def prop (value : Json) (key : String) : Option Json :=
  match value with
  | .object entries => Keyed.get entries key
  | _ => none

def asFlag : Json → Option Bool
  | .flag value => some value
  | _ => none

def asNumber : Json → Option ℚ
  | .number value => some value
  | _ => none

def asText : Json → Option String
  | .text value => some value
  | _ => none

/-- The texts of a list, and nothing of what is no list. -/
def texts : Json → List String
  | .list items => items.filterMap asText
  | _ => []

/-- The entries of an object whose fields may be missing. -/
def fields (fs : List (String × Option Json)) : List (String × Json) := fs.filterMap (fun f => f.2.map (f.1,·))

@[simp] theorem getFieldsNil (key : String) : Keyed.get (fields []) key = none := rfl

@[simp] theorem getFieldsCons (k : String) (value : Option Json) (fs : List (String × Option Json)) (key : String) :
    Keyed.get (fields ((k,value)::fs)) key = if key = k then value.or (Keyed.get (fields fs) key) else Keyed.get (fields fs) key := by
  cases value with
  | none => simp [fields]
  | some v => simp [fields,Keyed.getCons]

@[simp] theorem propObject (entries : List (String × Json)) (key : String) : prop (.object entries) key = Keyed.get entries key := rfl

/-! Checks, in the terms of a schema. -/

abbrev Check := Json → Bool

def isText : Check
  | .text _ => true
  | _ => false

/-- `minLength: 1` -/
def isFilled : Check
  | .text value => value != ""
  | _ => false

def isFlag : Check
  | .flag _ => true
  | _ => false

def among (values : List String) : Check
  | .text value => values.contains value
  | _ => false

def atLeast (minimum : ℚ) : Check
  | .number value => decide (minimum ≤ value)
  | _ => false

def isInteger (minimum : ℚ) : Check
  | .number value => value.isInt && decide (minimum ≤ value)
  | _ => false

def listOf (minItems : Nat) (item : Check) : Check
  | .list items => decide (minItems ≤ items.length) && items.all item
  | _ => false

def oneOf (checks : List Check) : Check := fun value => (checks.filter (· value)).length == 1

/-- The check of a property; one that is not declared is not admitted. -/
def checkOf (properties : List (String × Check)) (key : String) : Check := (properties.lookup key).getD (fun _ => false)

@[simp] theorem checkOfCons (k : String) (check : Check) (properties : List (String × Check)) (key : String) :
    checkOf ((k,check)::properties) key = if key = k then check else checkOf properties key := by
  unfold checkOf
  rw [List.lookup_cons]
  by_cases same : key = k
  · simp [same]
  · simp [same,beq_eq_false_iff_ne.mpr same]

/-- `additionalProperties: false` -/
def closed (properties : List (String × Check)) : Check
  | .object entries => entries.all (fun e => checkOf properties e.1 e.2)
  | _ => false

@[simp] theorem closedNil (properties : List (String × Check)) : closed properties (.object (fields [])) = true := rfl

@[simp] theorem closedCons (properties : List (String × Check)) (k : String) (value : Option Json) (fs : List (String × Option Json)) :
    closed properties (.object (fields ((k,value)::fs))) = (value.all (checkOf properties k) && closed properties (.object (fields fs))) := by
  cases value with
  | none => simp [fields]
  | some v => simp [fields,closed]

theorem fieldAdmitted {α : Type} {write : α → Json} {check : Check} {admitted : α → Bool} (each : ∀ x, check (write x) = admitted x)
    (value : Option α) : (value.map write).all check = value.all admitted := by
  cases value with
  | none => rfl
  | some x => exact each x

theorem oneOfTwo (a b : Check) (value : Json) : oneOf [a,b] value = (a value ^^ b value) := by
  unfold oneOf
  cases first : a value <;> cases second : b value <;> simp [first,second]

theorem closedEntry {properties : List (String × Check)} {entries : List (String × Json)} (admitted : closed properties (.object entries) = true)
    {key : String} {value : Json} (here : Keyed.get entries key = some value) : checkOf properties key value = true :=
  List.all_eq_true.mp admitted (key,value) (Keyed.getSome here)

end Json
