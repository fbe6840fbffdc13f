import Dfsm.Lib.Json

/-! YAML documents as trees of nodes, with aliases as nodes of their own: what stands written
under a key, and what the values that they are turned into hold under it. -/

inductive YamlScalar where
  | null
  | flag (value : Bool)
  | number (value : ℚ)
  | text (value : String)
  deriving DecidableEq

/-- An alias is a node that stands for the node it is anchored at. -/
inductive Yaml where
  | scalar (value : YamlScalar)
  | seq (items : List Yaml)
  | map (items : List (Yaml × Yaml))
  | reference (anchored : Yaml)

def YamlScalar.json : YamlScalar → Json
  | .null => .null
  | .flag value => .flag value
  | .number value => .number value
  | .text value => .text value

namespace Yaml

/-- How numbers, and keys that are collections, are written as text. -/
structure Texts where
  numeral : ℚ → String
  printed : Yaml → String

variable (texts : Texts)

/-- `String(value)` -/
def stringOf : YamlScalar → String
  | .null => "null"
  | .flag value => if value then "true" else "false"
  | .number value => texts.numeral value
  | .text value => value

def resolved : Yaml → Yaml
  | .reference anchored => resolved anchored
  | node => node

/-- The text of a key: that of the empty value is empty. -/
def keyText (key : Yaml) : String :=
  match resolved key with
  | .scalar .null => ""
  | .scalar value => stringOf texts value
  | _ => texts.printed key

mutual
def toJs : Yaml → Json
  | .scalar value => value.json
  | .seq items => .list (toJsAll items)
  | .map items => .object ((toJsPairs items).foldl (fun o e => Keyed.set o e.1 e.2) [])
  | .reference anchored => toJs anchored
def toJsAll : List Yaml → List Json
  | [] => []
  | item::rest => toJs item::toJsAll rest
def toJsPairs : List (Yaml × Yaml) → List (String × Json)
  | [] => []
  | (key,value)::rest => (keyText texts key,toJs value)::toJsPairs rest
end

def isMap : Yaml → Bool
  | .map _ => true
  | _ => false

def asScalar : Yaml → Option YamlScalar
  | .scalar value => some value
  | _ => none

/-- The value of the first pair whose key is a scalar of that text. -/
def written (node : Yaml) (key : String) : Option Yaml :=
  match node with
  | .map items => (items.find? (fun pair => (asScalar pair.1).any (fun value => stringOf texts value = key))).map (·.2)
  | _ => none

/-- The value that a key has in the end, aliases followed. -/
def meant (node : Yaml) (key : String) : Option Yaml :=
  match resolved node with
  | .map items => (items.reverse.find? (fun pair => keyText texts pair.1 = key)).map (·.2)
  | _ => none

def writtenAt (node : Yaml) : List String → Option Yaml
  | [] => some node
  | key::keys => (written texts node key).bind (writtenAt · keys)

def meantAt (node : Yaml) : List String → Option Yaml
  | [] => some node
  | key::keys => (meant texts node key).bind (meantAt · keys)

theorem resolvedPlain (node anchored : Yaml) : resolved node ≠ .reference anchored := by
  induction node using resolved.induct with
  | case1 other ih => rw [resolved]; exact ih
  | case2 node plain =>
    rw [resolved]
    · exact fun same => plain anchored same
    · exact plain

theorem jsResolved (node : Yaml) : toJs texts (resolved node) = toJs texts node := by
  induction node using resolved.induct with
  | case1 anchored ih => rw [resolved,ih,toJs]
  | case2 node other => rw [resolved]; exact other

theorem jsPairs (items : List (Yaml × Yaml)) : toJsPairs texts items = items.map (fun pair => (keyText texts pair.1,toJs texts pair.2)) := by
  induction items with
  | nil => rfl
  | cons pair rest ih => rw [toJsPairs,ih,List.map_cons]

theorem getPairs (entries start : List (String × Json)) (key : String) :
    Keyed.get (entries.foldl (fun o e => Keyed.set o e.1 e.2) start) key =
      ((entries.reverse.find? (fun e => e.1 = key)).map (·.2)).or (Keyed.get start key) := by
  induction entries generalizing start with
  | nil => rfl
  | cons e rest ih =>
    rw [List.foldl_cons,ih,Keyed.getSet,List.reverse_cons,List.find?_append]
    cases later : rest.reverse.find? (fun e => e.1 = key) with
    | some found => rfl
    | none =>
      by_cases same : e.1 = key
      · simp [same]
      · have other : key ≠ e.1 := fun back => same back.symm
        simp [same,other]

theorem propMeant (node : Yaml) (key : String) : (toJs texts node).prop key = (meant texts node key).map (toJs texts) := by
  rw [← jsResolved,meant]
  cases shape : resolved node with
  | scalar value => cases value <;> rfl
  | seq items => rfl
  | reference anchored => exact absurd shape (resolvedPlain node anchored)
  | map items =>
    simp only [toJs,Json.propObject,getPairs,jsPairs,← List.map_reverse,List.find?_map,Keyed.getNil,Option.or_none,Option.map_map]
    rfl

end Yaml
