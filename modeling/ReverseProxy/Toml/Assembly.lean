import ReverseProxy.Toml.Value

/-!
# Tables under construction

A document defines its tables piecewise: by headers, by keys with dots and by arrays of tables. A
draft remembers how each table came about, because that decides whether it may be extended: a table
made by dots only by dots, a table with a header of its own never again by a header.
-/

namespace ReverseProxy.Toml

inductive Origin
  | header
  | implied
  | dotted
deriving DecidableEq, Repr

/-- A table of a document that is still being read. -/
inductive Draft
  | value (v : Value)
  | table (origin : Origin) (entries : List (String × Draft))
  /-- An array of tables, last table first. -/
  | tables (latest : List (String × Draft)) (earlier : List (List (String × Draft)))

abbrev Entries := List (String × Draft)

namespace Draft

def lookup (es : Entries) (k : String) : Option Draft :=
  (es.find? (·.1 = k)).map (·.2)

/-- Replaces the entry of a key in place, or adds it at the end. -/
def put (es : Entries) (k : String) (d : Draft) : Entries :=
  if es.any (·.1 = k) then es.map fun e => if e.1 = k then (k, d) else e
  else es ++ [(k, d)]

def putLast (es : Entries) (k : String) (d : Draft) : Entries :=
  es.filter (·.1 ≠ k) ++ [(k, d)]

def insertValue (es : Entries) (v : Value) : List String → Option Entries
  | [] => none
  | [k] => if (lookup es k).isSome then none else some (put es k (.value v))
  | k :: ks =>
    match lookup es k with
    | none => (insertValue [] v ks).map fun t => put es k (.table .dotted t)
    | some (.table .dotted t) =>
      (insertValue t v ks).map fun t => put es k (.table .dotted t)
    | some (.table .implied t) =>
      if ks.length = 1 then none
      else (insertValue t v ks).map fun t => put es k (.table .implied t)
    | some (.tables latest earlier) =>
      if ks.length = 1 then none
      else (insertValue latest v ks).map fun t => put es k (.tables t earlier)
    | _ => none

/-- Inserts pairs of keys and values, first one first. -/
def insertAll (es : Entries) : List (List String × Value) → Option Entries
  | [] => some es
  | (k, v) :: rest => do insertAll (← insertValue es v k) rest

def insertTable (es : Entries) (pairs : List (List String × Value)) :
    List String → Option Entries
  | [] => none
  | [k] =>
    match lookup es k with
    | none => (insertAll [] pairs).map fun t => putLast es k (.table .header t)
    | some (.table .implied t) =>
      (insertAll t pairs).map fun t => putLast es k (.table .header t)
    | _ => none
  | k :: ks =>
    match lookup es k with
    | none => (insertTable [] pairs ks).map fun t => put es k (.table .implied t)
    | some (.table o t) => (insertTable t pairs ks).map fun t => put es k (.table o t)
    | some (.tables latest earlier) =>
      (insertTable latest pairs ks).map fun t => put es k (.tables t earlier)
    | some (.value _) => none

/-- Appends a table to the array of tables under the path of its header. -/
def appendTable (es : Entries) (pairs : List (List String × Value)) :
    List String → Option Entries
  | [] => none
  | [k] => do
    let t ← insertAll [] pairs
    match lookup es k with
    | none => some (put es k (.tables t []))
    | some (.tables latest earlier) => some (put es k (.tables t (latest :: earlier)))
    | _ => none
  | k :: ks =>
    match lookup es k with
    | none => (appendTable [] pairs ks).map fun t => put es k (.table .implied t)
    | some (.table o t) => (appendTable t pairs ks).map fun t => put es k (.table o t)
    | some (.tables latest earlier) =>
      (appendTable latest pairs ks).map fun t => put es k (.tables t earlier)
    | some (.value _) => none

mutual

def finish : Draft → Value
  | .value v => v
  | .table _ es => .table (finishEntries es)
  | .tables latest earlier =>
    .array ((finishTables earlier).reverse ++ [.table (finishEntries latest)])

def finishEntries : List (String × Draft) → List (String × Value)
  | [] => []
  | (k, d) :: es => (k, finish d) :: finishEntries es

def finishTables : List (List (String × Draft)) → List Value
  | [] => []
  | t :: ts => .table (finishEntries t) :: finishTables ts

end

end Draft

end ReverseProxy.Toml
