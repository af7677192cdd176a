import ReverseProxy.Yaml.Scalar

/-!
# Nodes in brackets

Sequences in square brackets and mappings in braces, with the anchors, aliases and tags that any
node may carry.
-/

namespace ReverseProxy.Yaml

abbrev Anchors := List (String × Data)

/-- What may stand before a node: a name for it, and a tag. -/
structure Properties where
  anchor : Option String := none
  tag : Option String := none

def isNameChar (c : Char) : Bool :=
  !isBlank c && c ≠ '\n' && c ∉ [',', '[', ']', '{', '}']

/-- Reads what stands before a node. Each property is followed by a blank or the end. -/
def readProperties : Nat → Properties → List Char → Option (Properties × List Char)
  | 0, p, cs => some (p, cs)
  | n + 1, p, '&' :: cs =>
    let name := cs.takeWhile isNameChar
    if name.isEmpty || p.anchor.isSome then none
    else readProperties n { p with anchor := some (String.ofList name) }
      ((cs.drop name.length).dropWhile isBlank)
  | n + 1, p, '!' :: cs =>
    let name := cs.takeWhile isNameChar
    if p.tag.isSome then none
    else readProperties n { p with tag := some (String.ofList name) }
      ((cs.drop name.length).dropWhile isBlank)
  | _ + 1, p, cs => some (p, cs)

def Properties.remember (p : Properties) (v : Data) (anchors : Anchors) : Anchors :=
  match p.anchor with
  | some name => (name, v) :: anchors
  | none => anchors

/-- The value of a plain scalar with a tag. Of the tags those of the core types count; a scalar
that does not fit its type is nothing. -/
def Properties.plain (p : Properties) (cs : List Char) : Option Data :=
  match p.tag with
  | none => plainValue cs
  | some "!bool" =>
    some (match String.ofList cs with
      | "true" => .bool true
      | "false" => .bool false
      | _ => .nil)
  | some "!int" => some ((((integer? cs).filter fitsSigned).map Data.int).getD .nil)
  | some "!float" => some (((float? cs).map Data.float).getD .nil)
  | some "!null" => some .nil
  | some _ => some (.string (String.ofList cs))

def readAlias (anchors : Anchors) (cs : List Char) : Option (Data × List Char) := do
  let name := cs.takeWhile isNameChar
  let v ← anchors.lookup (String.ofList name)
  some (v, cs.drop name.length)

/-- Drops blanks, line breaks and comments. A comment needs a blank before it; `spaced` tells
whether there is one. -/
def dropSpace : Nat → Bool → List Char → List Char
  | n + 1, spaced, c :: cs =>
    if isBlank c || c = '\n' then dropSpace n true cs
    else if c = '#' && spaced then dropSpace n true (cs.dropWhile (· ≠ '\n'))
    else c :: cs
  | _, _, cs => cs

def startsPlain : List Char → Bool
  | [] => false
  | c :: cs =>
    if c = '-' || c = '?' || c = ':' then
      cs.head?.any fun d => !isBlank d && d ≠ '\n' && d ∉ [',', '[', ']', '{', '}']
    else c ∉ [',', '[', ']', '{', '}', '#', '&', '*', '!', '|', '>', '\'', '"', '%', '@', '\x60']

/-- Whether a colon before this text separates a key from its value, in brackets. -/
def separates : List Char → Bool
  | [] => true
  | c :: _ => isBlank c || c ∈ ['\n', ',', '[', ']', '{', '}']

/-- Reads a plain scalar in brackets. `out` is what was read, last character first. -/
def readPlain : Nat → List Char → List Char → List Char × List Char
  | 0, out, cs => ((out.dropWhile isBlank).reverse, cs)
  | _ + 1, out, [] => ((out.dropWhile isBlank).reverse, [])
  | n + 1, out, c :: cs =>
    if c ∈ [',', '[', ']', '{', '}'] || (c = ':' && separates cs) then
      ((out.dropWhile isBlank).reverse, c :: cs)
    else if c = '#' && out.head?.any isBlank then ((out.dropWhile isBlank).reverse, ' ' :: c :: cs)
    else if c = '\n' then
      let (breaks, r) := dropBreaks (c :: cs)
      match r with
      | d :: _ =>
        if d ∈ ['#', ',', ']', '}', ':'] then ((out.dropWhile isBlank).reverse, c :: cs)
        else readPlain n ((fold breaks).reverse ++ out.dropWhile isBlank) r
      | [] => ((out.dropWhile isBlank).reverse, [])
    else readPlain n (c :: out) cs

def addEntry (es : List (String × Data)) (k : String) (v : Data) : Option (List (String × Data)) :=
  if es.any (·.1 = k) then none else some (es ++ [(k, v)])

def nodeKey : Data → Option String
  | .string s => some s
  | .int n => some (Text.signedDecimal n)
  | .bool b => some (if b then "true" else "false")
  | .float x => some (Text.positional x)
  | _ => none

mutual

def readFlow : Nat → Anchors → List Char → Option ((Data × Bool) × Anchors × List Char)
  | 0, _, _ => none
  | n + 1, anchors, cs => do
    let (p, cs) ← readProperties 2 {} cs
    match cs with
    | '*' :: r => do
      let (v, r) ← readAlias anchors r
      some ((v, false), anchors, r)
    | '[' :: r => do
      let (vs, anchors, r) ← readItems n anchors (dropSpace r.length true r)
      some ((.array vs, true), p.remember (.array vs) anchors, r)
    | '{' :: r => do
      let (es, anchors, r) ← readEntries n anchors [] (dropSpace r.length true r)
      some ((.table es, true), p.remember (.table es) anchors, r)
    | '\'' :: _ | '"' :: _ => do
      let (s, r) ← readQuoted cs
      let v := Data.string (String.ofList s)
      some ((v, true), p.remember v anchors, r)
    | cs =>
      if startsPlain cs then do
        let (s, r) := readPlain cs.length [] cs
        let v ← p.plain s
        some ((v, false), p.remember v anchors, r)
      else if p.anchor.isSome || p.tag.isSome then do
        let v ← p.plain []
        some ((v, false), p.remember v anchors, cs)
      else none

/-- Reads the items of a sequence up to its closing bracket. An item may be a single pair. -/
def readItems : Nat → Anchors → List Char → Option (List Data × Anchors × List Char)
  | _, anchors, ']' :: cs => some ([], anchors, cs)
  | 0, _, _ => none
  | n + 1, anchors, cs => do
    let ((v, quoted), anchors, r) ← readFlow n anchors cs
    let r := dropSpace r.length false r
    let (v, anchors, r) ← match r with
      | ':' :: r =>
        if separates r || quoted then do
          let (w, anchors, r) ← readValue n anchors r
          some (Data.table [(← nodeKey v, w)], anchors, dropSpace r.length false r)
        else none
      | r => some (v, anchors, r)
    match r with
    | ',' :: r => do
      let (vs, anchors, r) ← readItems n anchors (dropSpace r.length true r)
      some (v :: vs, anchors, r)
    | ']' :: r => some ([v], anchors, r)
    | _ => none

/-- Reads the value of a pair after its colon; it may be left out. -/
def readValue : Nat → Anchors → List Char → Option (Data × Anchors × List Char)
  | 0, _, _ => none
  | n + 1, anchors, cs =>
    let cs := dropSpace cs.length true cs
    match cs with
    | ',' :: _ | ']' :: _ | '}' :: _ => some (.nil, anchors, cs)
    | cs => (readFlow n anchors cs).map fun ((v, _), anchors, r) => (v, anchors, r)

/-- Reads the pairs of a mapping up to its closing brace, after those already read. -/
def readEntries : Nat → Anchors → List (String × Data) → List Char →
    Option (List (String × Data) × Anchors × List Char)
  | _, anchors, done, '}' :: cs => some (done, anchors, cs)
  | 0, _, _, _ => none
  | n + 1, anchors, done, cs => do
    let ((k, quoted), anchors, r) ← readFlow n anchors cs
    let r := dropSpace r.length false r
    let (v, anchors, r) ← match r with
      | ':' :: r =>
        if separates r || quoted then do
          let (v, anchors, r) ← readValue n anchors r
          some (v, anchors, dropSpace r.length false r)
        else none
      | r => some (Data.nil, anchors, r)
    let done ← addEntry done (← nodeKey k) v
    match r with
    | ',' :: r => readEntries n anchors done (dropSpace r.length true r)
    | '}' :: r => some (done, anchors, r)
    | _ => none

end

end ReverseProxy.Yaml
