import ReverseProxy.Yaml.Flow

/-!
# Documents of YAML

A document is a node laid out by indentation: a mapping with a pair on each line, a sequence with an
item after each dash, a scalar, or a node in brackets. `Yaml.parse` reads a text with at most one
document as the entries of its root mapping. A key behind a question mark is a scalar on one line.
-/

namespace ReverseProxy.Yaml

/-- A line without the spaces that indent it. -/
structure Line where
  indent : Nat
  text : List Char
deriving Inhabited

namespace Line

/-- Whether a line holds nothing but blanks or a comment. -/
def isEmpty (l : Line) : Bool :=
  match l.text.dropWhile isBlank with
  | [] => true
  | c :: _ => c = '#'

def isTabbed (l : Line) : Bool := l.text.head? = some '\t'

def ofChars (cs : List Char) : Line :=
  let spaces := (cs.takeWhile (· = ' ')).length
  ⟨spaces, cs.drop spaces⟩

def toChars (l : Line) : List Char := List.replicate l.indent ' ' ++ l.text

end Line

def normalBreaks : List Char → List Char
  | '\r' :: '\n' :: cs => '\n' :: normalBreaks cs
  | '\r' :: cs => '\n' :: normalBreaks cs
  | c :: cs => c :: normalBreaks cs
  | [] => []

/-- The lines of a text. A line break at the end begins no line. -/
def linesOf (text : String) : List Line :=
  let pieces := Text.splitAtChar '\n' (normalBreaks text.toList)
  (if pieces.getLast? = some [] then pieces.dropLast else pieces).map Line.ofChars

def dropEmpty (ls : List Line) : List Line := ls.dropWhile Line.isEmpty

def joinLines : List Line → List Char
  | [] => []
  | [l] => l.toChars
  | l :: ls => l.toChars ++ '\n' :: joinLines ls

/-- Whether nothing but blanks and a comment follows. -/
def endsLine (cs : List Char) : Bool :=
  cs.isEmpty || (cs.head?.any isBlank && (cs.dropWhile isBlank).head?.all (· = '#'))

/-- Cuts a comment off a plain scalar, and the blanks before it. -/
def cutComment (cs : List Char) : List Char :=
  let rec go (previous : Char) : List Char → List Char
    | [] => []
    | c :: cs => if c = '#' && isBlank previous then [] else c :: go c cs
  trimEnd (go 'x' cs)

/-- Splits a line at the first colon that ends a plain key. -/
def splitPlainKey (previous : Char) : List Char → Option (List Char × List Char)
  | [] => none
  | c :: cs =>
    if c = ':' && (cs.isEmpty || cs.head?.any isBlank) then some ([], cs)
    else if c = '#' && isBlank previous then none
    else (splitPlainKey c cs).map fun (k, r) => (c :: k, r)

def readKey (cs : List Char) : Option (String × List Char) :=
  match cs with
  | '\'' :: _ | '"' :: _ => do
    let (k, r) ← readQuoted cs
    match r.dropWhile isBlank with
    | ':' :: r => if r.isEmpty || r.head?.any isBlank then some (String.ofList k, r) else none
    | _ => none
  | cs =>
    if startsPlain cs then do
      let (k, r) ← splitPlainKey 'x' cs
      some (← keyText (trimEnd k), r)
    else none

/-- What follows a mark that stands alone at the start of a line. -/
def afterSign (sign : Char) : List Char → Option (List Char)
  | c :: cs =>
    if c = sign && (cs.isEmpty || cs.head?.any isBlank) then some (cs.dropWhile isBlank) else none
  | [] => none

def readMarkedKey (cs : List Char) : Option String := do
  let cs ← afterSign '?' cs
  match cs with
  | '\'' :: _ | '"' :: _ => do
    let (k, r) ← readQuoted cs
    if endsLine r then some (String.ofList k) else none
  | cs => if startsPlain cs then keyText (cutComment cs) else none

/-- What follows the dash of an item, with the number of characters before it. -/
def readDash : List Char → Option (Nat × List Char)
  | ['-'] => some (1, [])
  | '-' :: c :: cs =>
    if isBlank c then
      let blanks := ((c :: cs).takeWhile isBlank).length
      some (1 + blanks, (c :: cs).drop blanks)
    else none
  | _ => none

/-! ## Scalars over several lines -/

/-- The lines that continue a plain scalar: those indented deep enough, up to a comment. The number
counts the line breaks before the next line. -/
def continuePlain (min breaks : Nat) (out : List Char) : List Line → Option (List Char × List Line)
  | [] => some (out, [])
  | l :: ls =>
    let text := l.text.dropWhile isBlank
    if text.isEmpty then continuePlain min (breaks + 1) out ls
    else if l.indent < min || text.head? = some '#' then some (out, l :: ls)
    else if (splitPlainKey 'x' text).isSome then none
    else
      let cut := cutComment text
      let out := out ++ fold breaks ++ cut
      if cut.length = (trimEnd text).length then continuePlain min 1 out ls else some (out, ls)

inductive Chomp
  | strip | clip | keep
deriving DecidableEq

/-- Reads the header of a block scalar: how it ends and how far it is indented. -/
def readBlockHeader (chomp : Chomp) (indent : Option Nat) :
    List Char → Option (Chomp × Option Nat)
  | '-' :: cs => readBlockHeader .strip indent cs
  | '+' :: cs => readBlockHeader .keep indent cs
  | c :: cs =>
    if '1' ≤ c && c ≤ '9' then readBlockHeader chomp (some (c.toNat - 48)) cs
    else if endsLine (c :: cs) then some (chomp, indent)
    else none
  | [] => some (chomp, indent)

/-- Joins the lines of a folded scalar. Lines that are indented further keep their breaks. -/
def foldLines : List (List Char) → List Char
  | [] => []
  | [l] => l
  | l :: ls =>
    let blank := ls.takeWhile List.isEmpty
    let further (cs : List Char) : Bool := cs.head?.any isBlank
    match ls.drop blank.length with
    | [] => l ++ blank.flatMap fun _ => ['\n']
    | m :: _ =>
      let breaks := blank.length + 1
      l ++ (if further l || further m || l.isEmpty then List.replicate breaks '\n' else fold breaks) ++
        foldLines (ls.drop blank.length)
termination_by ls => ls.length
decreasing_by simp only [List.length_drop, List.length_cons]; omega

def readBlockScalar (folded : Bool) (chomp : Chomp) (indent : Option Nat) (min : Nat)
    (ls : List Line) : List Char × List Line :=
  let isBlankLine (l : Line) : Bool := l.text.isEmpty
  let first := (ls.dropWhile isBlankLine).head?
  let depth := match indent with
    | some n => min - 1 + n
    | none => max min ((first.map (·.indent)).getD 0)
  let body := ls.takeWhile fun l => isBlankLine l || l.indent ≥ depth
  let texts := body.map fun l => l.toChars.drop depth
  let last := (texts.reverse.dropWhile List.isEmpty).reverse
  let ending := texts.length - last.length
  let joined := if folded then foldLines last else "\n".toList.intercalate last
  let close : List Char := match chomp with
    | .strip => []
    | .clip => if last.isEmpty then [] else ['\n']
    | .keep => List.replicate (ending + if last.isEmpty then 0 else 1) '\n'
  (joined ++ close, ls.drop body.length)

/-! ## Nodes -/

/-- Reads a quoted scalar or a node in brackets that begins on a line and may go on over others;
nothing but a comment may follow it on its last line. -/
def readOverLines {α : Type} (read : List Char → Option (α × List Char)) (cs : List Char)
    (ls : List Line) : Option (α × List Line) := do
  let all := if ls.isEmpty then cs else cs ++ '\n' :: joinLines ls
  let (a, r) ← read all
  if endsLine (r.takeWhile (· ≠ '\n')) then
    some (a, ls.drop (ls.length - (r.filter (· = '\n')).length))
  else none

mutual

/-- Reads the node that the next lines hold, if they are indented deep enough. -/
def readBlock : Nat → Anchors → Nat → List Line → Option (Data × Anchors × List Line)
  | 0, _, _, _ => none
  | n + 1, anchors, min, ls =>
    match dropEmpty ls with
    | [] => some (.nil, anchors, [])
    | l :: rest =>
      if l.isTabbed then none
      else if l.indent < min then some (.nil, anchors, l :: rest)
      else if (readDash l.text).isSome then do
        let (vs, anchors, r) ← readSequence n anchors l.indent (l :: rest)
        some (.array vs, anchors, r)
      else if (readKey l.text).isSome || (readMarkedKey l.text).isSome then do
        let (es, anchors, r) ← readMapping n anchors l.indent [] (l :: rest)
        some (.table es, anchors, r)
      else readInline n anchors min false l.text rest

def readSequence : Nat → Anchors → Nat → List Line → Option (List Data × Anchors × List Line)
  | 0, _, _, _ => none
  | n + 1, anchors, indent, ls =>
    match dropEmpty ls with
    | [] => some ([], anchors, [])
    | l :: rest =>
      match readDash l.text with
      | none => if l.indent ≤ indent then some ([], anchors, l :: rest) else none
      | some (width, text) =>
        if l.indent < indent then some ([], anchors, l :: rest)
        else if l.indent > indent then none
        else do
          let rest := if text.isEmpty then rest else ⟨indent + width, text⟩ :: rest
          let (v, anchors, r) ← readBlock n anchors (indent + 1) rest
          let (vs, anchors, r) ← readSequence n anchors indent r
          some (v :: vs, anchors, r)

/-- Reads the pairs of a mapping at an indentation, after those already read. -/
def readMapping : Nat → Anchors → Nat → List (String × Data) → List Line →
    Option (List (String × Data) × Anchors × List Line)
  | 0, _, _, _, _ => none
  | n + 1, anchors, indent, done, ls =>
    match dropEmpty ls with
    | [] => some (done, anchors, [])
    | l :: rest =>
      if l.indent < indent then some (done, anchors, l :: rest)
      else if l.indent > indent || l.isTabbed then none
      else match readMarkedKey l.text, readKey l.text with
        | some k, _ => do
          let (v, anchors, r) ← readMarkedValue n anchors indent (dropEmpty rest)
          readMapping n anchors indent (← addEntry done k v) r
        | none, some (k, text) => do
          let (v, anchors, r) ← readInline n anchors (indent + 1) true (text.dropWhile isBlank) rest
          readMapping n anchors indent (← addEntry done k v) r
        | none, none => none

/-- Reads the value of a key behind a question mark, which may be missing. -/
def readMarkedValue : Nat → Anchors → Nat → List Line → Option (Data × Anchors × List Line)
  | 0, _, _, _ => none
  | _ + 1, anchors, _, [] => some (.nil, anchors, [])
  | n + 1, anchors, indent, l :: rest =>
    match (if l.indent = indent then afterSign ':' l.text else none) with
    | some text => readInline n anchors (indent + 1) true text rest
    | none => some (.nil, anchors, l :: rest)

/-- Reads a node that begins on a line. Lines that continue it are indented at least by `min`; the
items of a sequence that is the value of a pair may be indented by one less. -/
def readInline : Nat → Anchors → Nat → Bool → List Char → List Line →
    Option (Data × Anchors × List Line)
  | 0, _, _, _, _, _ => none
  | n + 1, anchors, min, pair, cs, ls => do
    let (p, cs) ← readProperties 2 {} cs
    match cs with
    | [] | '#' :: _ => do
      let next := (dropEmpty ls).head?
      let level := next.any fun l => pair && l.indent + 1 = min && (readDash l.text).isSome
      let (v, anchors, r) ← readBlock n anchors (if level then min - 1 else min) ls
      let v := if p.tag = some "!str" && v matches .nil then Data.string "" else v
      some (v, p.remember v anchors, r)
    | '*' :: r => do
      let (v, r) ← readAlias anchors r
      if endsLine r then some (v, anchors, ls) else none
    | '|' :: r => do
      let (chomp, indent) ← readBlockHeader .clip none r
      let (s, ls) := readBlockScalar false chomp indent min ls
      let v := Data.string (String.ofList s)
      some (v, p.remember v anchors, ls)
    | '>' :: r => do
      let (chomp, indent) ← readBlockHeader .clip none r
      let (s, ls) := readBlockScalar true chomp indent min ls
      let v := Data.string (String.ofList s)
      some (v, p.remember v anchors, ls)
    | '\'' :: _ | '"' :: _ => do
      let (s, ls) ← readOverLines readQuoted cs ls
      let v := Data.string (String.ofList s)
      some (v, p.remember v anchors, ls)
    | '[' :: _ | '{' :: _ => do
      let size := cs.length + (joinLines ls).length
      let ((v, anchors), ls) ← readOverLines (fun cs =>
        (readFlow (2 * size + 2) anchors cs).map fun ((v, _), anchors, r) => ((v, anchors), r)) cs ls
      some (v, p.remember v anchors, ls)
    | cs =>
      if startsPlain cs && (splitPlainKey 'x' cs).isNone then do
        let first := cutComment cs
        let (s, ls) ← if first.length = (trimEnd cs).length then continuePlain min 1 first ls
          else some (first, ls)
        let v ← p.plain s
        some (v, p.remember v anchors, ls)
      else none

end

/-! ## Documents -/

def afterMark (mark : List Char) (l : Line) : Option (List Char) :=
  if l.indent = 0 && mark.isPrefixOf l.text then
    match l.text.drop mark.length with
    | [] => some []
    | c :: cs => if isBlank c then some (cs.dropWhile isBlank) else none
  else none

def splitDocuments (open_ : Option (List Line)) : List Line → List (List Line)
  | [] => (open_.map List.reverse).toList
  | l :: ls =>
    match afterMark ['-', '-', '-'] l with
    | some text =>
      (open_.map List.reverse).toList ++ splitDocuments (some [⟨4, text⟩]) ls
    | none =>
      match afterMark ['.', '.', '.'] l with
      | some _ => (open_.map List.reverse).toList ++ splitDocuments none ls
      | none =>
        match open_ with
        | some done => splitDocuments (some (l :: done)) ls
        | none =>
          if l.isEmpty || l.text.head? = some '%' then splitDocuments none ls
          else splitDocuments (some [l]) ls

/-- Reads the node of a document, which takes up all of its lines. -/
def readDocument (ls : List Line) : Option Data := do
  let size := (joinLines ls).length + ls.length
  let (v, _, r) ← readBlock (4 * size + 4) [] 0 ls
  if (dropEmpty r).isEmpty then some v else none

/-- Reads a text with at most one document as the entries of its root mapping. -/
def parse (text : String) : Option (List (String × Data)) :=
  match splitDocuments none (linesOf text) with
  | [] => some []
  | [ls] =>
    match readDocument ls with
    | some (.table es) => some es
    | _ => none
  | _ => none

end ReverseProxy.Yaml
