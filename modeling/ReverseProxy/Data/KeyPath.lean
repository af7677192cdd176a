import ReverseProxy.Data.Value

/-!
# Paths into data

A key path names a place in a tree of data: a root key followed by keys and indices, as in
`backend.hosts[0]`. Writing to a path creates what is missing and merges tables.
-/

namespace ReverseProxy.Data

/-- A step from a value to one of its parts. -/
inductive Step
  | key (k : String)
  /-- Negative indices count from the end. -/
  | index (i : Int)
deriving DecidableEq, Repr

def isPathChar (c : Char) : Bool := c.isAlphanum || c = '_' || c = '-'

def readPathKey (cs : List Char) : Option (String × List Char) :=
  let k := cs.takeWhile isPathChar
  if k.isEmpty then none else some (String.ofList k, cs.drop k.length)

def readIndex (cs : List Char) : Option (Int × List Char) := do
  let (negative, cs) := match cs.dropWhile (· = ' ') with
    | '-' :: r => (true, r)
    | r => (false, r)
  let ds := cs.takeWhile Text.isDigit
  let n ← Text.ofDigits? 10 ds
  match (cs.drop ds.length).dropWhile (· = ' ') with
  | ']' :: r => if n < signedLimit then some (if negative then -(n : Int) else n, r) else none
  | _ => none

/-- Reads the steps after the root key. -/
def readSteps : Nat → List Char → Option (List Step)
  | _, [] => some []
  | 0, _ => none
  | n + 1, '.' :: cs => do
    let (k, cs) ← readPathKey cs
    (readSteps n cs).map (.key k :: ·)
  | n + 1, '[' :: cs => do
    let (i, cs) ← readIndex cs
    (readSteps n cs).map (.index i :: ·)
  | _ + 1, _ => none

/-- Reads a key path: a root key and steps. A text that is no path is a root key as it stands. -/
def keyPath (s : String) : String × List Step :=
  let cs := s.toList
  match readPathKey cs with
  | none => (s, [])
  | some (k, r) =>
    match readSteps r.length r with
    | some steps => (k, steps)
    | none => (s, [])

/-- The entries of a table; none for anything else. -/
def entries : Data → List (String × Data)
  | .table es => es
  | _ => []

/-- The items of an array; none for anything else. -/
def items : Data → List Data
  | .array vs => vs
  | _ => []

/-- Changes the item at an index. Missing items are filled in as nil, at the end or, for a negative
index that lies before the first item, in front. -/
def changeItem (f : Data → Data) (vs : List Data) (i : Int) : List Data :=
  let n : Int := vs.length
  if 0 ≤ i then
    let vs := vs ++ List.replicate (i.toNat + 1 - vs.length) Data.nil
    vs.modify i.toNat f
  else if -i ≤ n then vs.modify (n + i).toNat f
  else (List.replicate (-(n + i)).toNat Data.nil ++ vs).modify 0 f

/-- Changes the value at the end of the steps, creating the tables and arrays on the way. -/
def changeAt (f : Data → Data) : List Step → Data → Data
  | [], v => f v
  | .key k :: steps, v =>
    let es := v.entries
    .table (put k (changeAt f steps ((lookup k es).getD .nil)) es)
  | .index i :: steps, v => .array (changeItem (changeAt f steps) v.items i)

mutual

/-- Merges an incoming value into an old one: tables are merged key by key, anything else
replaces what was there. -/
def merge (incoming : Data) (old : Data) : Data :=
  match incoming with
  | .table es => .table (mergeEntries es old.entries)
  | v => v

/-- Merges the entries of a table into others, first one first. -/
def mergeEntries : List (String × Data) → List (String × Data) → List (String × Data)
  | [], old => old
  | (k, v) :: es, old => mergeEntries es (put k (merge v ((lookup k old).getD .nil)) old)

end

/-- Writes each entry of a root table to the place that its key, read as a path, names. -/
def expandPaths (root : List (String × Data)) : Data :=
  root.foldl (fun tree (key, v) =>
    let (k, steps) := keyPath key
    changeAt (merge v) (.key k :: steps) tree) (Data.table [])

def getPath? : List String → Data → Option Data
  | [], v => some v
  | k :: ks, .table es => (lookup k es).bind (getPath? ks)
  | _ :: _, _ => none

end ReverseProxy.Data
