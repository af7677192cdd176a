import ReverseProxy.Text.Blank
import ReverseProxy.Text.Scientific
import ReverseProxy.Number

/-!
# Data

The values that configuration formats share, and the two ways of reading a typed value from them:
exactly, where the type of the value must fit, and leniently, where scalars are converted.
-/

namespace ReverseProxy

/-- A value of a configuration file. The keys of a table are distinct. -/
inductive Data
  | nil
  | bool (b : Bool)
  | int (n : Int)
  | float (x : Float)
  | string (s : String)
  | array (items : List Data)
  | table (entries : List (String × Data))
deriving Inhabited

namespace Data

def lookup (key : String) (entries : List (String × Data)) : Option Data :=
  (entries.find? (·.1 = key)).map (·.2)

/-- Replaces the entry of a key in place, or adds it at the end. -/
def put (key : String) (v : Data) (entries : List (String × Data)) : List (String × Data) :=
  if entries.any (·.1 = key) then entries.map fun e => if e.1 = key then (key, v) else e
  else entries ++ [(key, v)]

def wordBool? (s : String) : Option Bool :=
  if s ∈ ["true", "on", "yes"] then some true
  else if s ∈ ["false", "off", "no"] then some false
  else none

/-- A float rounded to the nearest natural number below `wordLimit`, halves away from zero; negative
numbers and the value that is no number give zero. -/
def roundedNatural (x : Float) : Nat :=
  if x.isNaN then 0 else x.round.toUInt64.toNat

structure Reading where
  bool : Data → Option Bool
  /-- Natural numbers below `wordLimit`. -/
  natural : Data → Option Nat
  text : Data → Option String
  /-- One of several names; the argument is the name found. -/
  choice : Data → Option String
  /-- Whether an array may hold more items than there are fields. -/
  extraItems : Bool

def exact : Reading where
  bool | .bool b => some b | _ => none
  natural | .int n => if 0 ≤ n ∧ n < wordLimit then some n.toNat else none | _ => none
  text | .string s => some s | _ => none
  choice
    | .string s => some s
    | .table [(s, .nil)] => some s
    | _ => none
  extraItems := false

def lenientBool : Data → Option Bool
  | .bool b => some b
  | .int n => some (n ≠ 0)
  | .float x => some (x != 0.0)
  | .string s =>
    let word := Text.lowered s
    if word = "1" then some true else if word = "0" then some false else wordBool? word
  | _ => none

def lenientNatural : Data → Option Nat
  | .bool b => some b.toNat
  | .int n => if 0 ≤ n ∧ n < wordLimit then some n.toNat else none
  | .float x => some (roundedNatural x)
  | .string s =>
    match wordBool? (Text.lowered s) with
    | some b => some b.toNat
    | none => Text.unsigned? wordLimit s.toList
  | _ => none

def lenientText : Data → Option String
  | .string s => some s
  | .bool b => some (if b then "true" else "false")
  | .int n => some (Text.signedDecimal n)
  | .float x => some (Text.positional x)
  | _ => none

def lenient : Reading where
  bool := lenientBool
  natural := lenientNatural
  text := lenientText
  choice
    | .string s => some s
    | .table [(s, _)] => some s
    | _ => none
  extraItems := true

/-- The fields of a record: the entries of a table, or the items of an array in the order of the
record's keys. -/
def fields? (r : Reading) (keys : List String) : Data → Option (List (String × Data))
  | .table es => some es
  | .array items => if r.extraItems || items.length ≤ keys.length then some (keys.zip items) else none
  | _ => none

end Data

end ReverseProxy
