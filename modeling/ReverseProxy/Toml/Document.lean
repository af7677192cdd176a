import ReverseProxy.Toml.Assembly

/-!
# Documents of TOML

A document is a sequence of sections, each a header with pairs of keys and values. `sections` reads
the text, `Document.ofSections?` puts the tables together, and `Document.parse` does both.
-/

namespace ReverseProxy.Toml

abbrev Pair := List String × Value

mutual

/-- Reads a value. `fuel` bounds the number of steps and `depth` the nesting. -/
def readValue (dialect : Dialect) : Nat → Nat → List Char → Option (Value × List Char)
  | 0, _, _ => none
  | fuel + 1, depth, '[' :: cs =>
    match depth with
    | 0 => none
    | depth + 1 =>
      (readItems dialect fuel depth (dropGaps true cs.length cs)).map fun (vs, r) =>
        (.array vs, r)
  | fuel + 1, depth, '{' :: cs =>
    match depth with
    | 0 => none
    | depth + 1 => do
      let (ps, r) ← readInline dialect fuel depth (dropGaps dialect.lenient cs.length cs)
      some (.table (Draft.finishEntries (← Draft.insertAll [] ps)), r)
  | _ + 1, _, cs => readScalar dialect cs

def readItems (dialect : Dialect) :
    Nat → Nat → List Char → Option (List Value × List Char)
  | _, _, ']' :: cs => some ([], cs)
  | 0, _, _ => none
  | fuel + 1, depth, cs => do
    let (v, cs) ← readValue dialect fuel depth cs
    match dropGaps true cs.length cs with
    | ',' :: cs =>
      (readItems dialect fuel depth (dropGaps true cs.length cs)).map fun (vs, r) => (v :: vs, r)
    | ']' :: cs => some ([v], cs)
    | _ => none

def readInline (dialect : Dialect) :
    Nat → Nat → List Char → Option (List Pair × List Char)
  | _, _, '}' :: cs => some ([], cs)
  | 0, _, _ => none
  | fuel + 1, depth, cs => do
    let (p, cs) ← readPair dialect fuel depth cs
    match dropGaps dialect.lenient cs.length cs with
    | ',' :: cs =>
      match dropGaps dialect.lenient cs.length cs with
      | '}' :: cs => if dialect.lenient then some ([p], cs) else none
      | cs => (readInline dialect fuel depth cs).map fun (ps, r) => (p :: ps, r)
    | '}' :: cs => some ([p], cs)
    | _ => none

def readPair (dialect : Dialect) : Nat → Nat → List Char → Option (Pair × List Char)
  | 0, _, _ => none
  | fuel + 1, depth, cs => do
    match ← readKey dialect nestingLimit cs with
    | (k, '=' :: cs) =>
      (readValue dialect fuel depth (dropSpaces cs)).map fun (v, r) => ((k, v), r)
    | _ => none

end

/-- What a header announces: a table, or one more table of an array. -/
inductive Header
  | table (path : List String)
  | element (path : List String)
deriving DecidableEq, Repr

/-- A header and the pairs below it. -/
structure Section where
  header : Header
  pairs : List Pair

/-- Drops the rest of a line that holds nothing but blanks and a comment. -/
def endLine (cs : List Char) : Option (List Char) :=
  match dropComment (dropSpaces cs) with
  | [] => some []
  | '\n' :: r => some r
  | '\r' :: '\n' :: r => some r
  | _ => none

/-- Reads a header after its first bracket, and the rest of its line. -/
def readHeader (dialect : Dialect) : List Char → Option (Header × List Char)
  | '[' :: cs => do
    match ← readKey dialect nestingLimit cs with
    | (k, ']' :: ']' :: cs) => some (.element k, ← endLine cs)
    | _ => none
  | cs => do
    match ← readKey dialect nestingLimit cs with
    | (k, ']' :: cs) => some (.table k, ← endLine cs)
    | _ => none

/-- Reads the lines of a document: the pairs before the first header, and the sections. -/
def readLines (dialect : Dialect) : Nat → List Char → Option (List Pair × List Section)
  | 0, _ => none
  | fuel + 1, cs =>
    match dropGaps true cs.length cs with
    | [] => some ([], [])
    | '[' :: cs => do
      let (h, cs) ← readHeader dialect cs
      let (ps, ss) ← readLines dialect fuel cs
      some ([], ⟨h, ps⟩ :: ss)
    | cs => do
      let (p, cs) ← readPair dialect (2 * cs.length + 2) nestingLimit cs
      let (ps, ss) ← readLines dialect fuel (← endLine cs)
      some (p :: ps, ss)

def dropMark : List Char → List Char
  | '\ufeff' :: cs => cs
  | cs => cs

namespace Document

/-- Adds sections to a document, first one first. -/
def addSections (es : Entries) : List Section → Option Entries
  | [] => some es
  | s :: ss => do
    let es ← match s.header with
      | .table path => Draft.insertTable es s.pairs path
      | .element path => Draft.appendTable es s.pairs path
    addSections es ss

/-- The entries of a document, unless its sections contradict each other. -/
def ofSections? (top : List Pair) (ss : List Section) : Option (List (String × Value)) := do
  some (Draft.finishEntries (← addSections (← Draft.insertAll [] top) ss))

def parse (dialect : Dialect) (text : String) : Option (List (String × Value)) := do
  let cs := dropMark text.toList
  let (top, ss) ← readLines dialect (cs.length + 1) cs
  ofSections? top ss

end Document

end ReverseProxy.Toml
