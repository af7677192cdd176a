import ReverseProxy.Text.Decimal

/-!
# Strings of TOML

Strings are quoted in four ways: basic and literal, on one line and on several. A basic string has
escapes, a literal one has none. `readString` reads all four; `quote` writes a string in the way
that needs the fewest escapes.
-/

namespace ReverseProxy.Toml

/-- What separates the two versions of the language that are read. -/
structure Dialect where
  /-- Escapes `\e` and `\xHH`, times without seconds, and inline tables over several lines. -/
  lenient : Bool
deriving DecidableEq, Repr

def Dialect.strict : Dialect := ⟨false⟩

def Dialect.relaxed : Dialect := ⟨true⟩

/-- Characters that may stand for themselves in a comment or a string: a tab and all that are no
control characters. -/
def isPlain (c : Char) : Bool := c = '\t' || (' ' ≤ c && c ≠ '\x7f')

def scalar? (n : Nat) : Option Char :=
  if h : n.isValidChar then some (Char.ofNatAux n h) else none

/-- Reads `n` hexadecimal digits as a scalar value. -/
def readHex (n : Nat) (cs : List Char) : Option (Char × List Char) := do
  if cs.length < n then none
  else some (← scalar? (← Text.ofDigits? 16 (cs.take n)), cs.drop n)

def readEscape (dialect : Dialect) : List Char → Option (Char × List Char)
  | 'b' :: cs => some ('\x08', cs)
  | 't' :: cs => some ('\t', cs)
  | 'n' :: cs => some ('\n', cs)
  | 'f' :: cs => some ('\x0c', cs)
  | 'r' :: cs => some ('\r', cs)
  | '"' :: cs => some ('"', cs)
  | '\\' :: cs => some ('\\', cs)
  | 'u' :: cs => readHex 4 cs
  | 'U' :: cs => readHex 8 cs
  | 'e' :: cs => if dialect.lenient then some ('\x1b', cs) else none
  | 'x' :: cs => if dialect.lenient then readHex 2 cs else none
  | _ => none

theorem readHex_length {n : Nat} {cs r : List Char} {c : Char} (h : readHex n cs = some (c, r)) :
    r.length ≤ cs.length := by
  unfold readHex at h
  split at h
  · simp at h
  · simp only [bind, Option.bind_eq_some_iff, Option.some.injEq, Prod.mk.injEq] at h
    obtain ⟨_, _, _, _, _, rfl⟩ := h
    simp

theorem readEscape_length {dialect : Dialect} {cs r : List Char} {c : Char}
    (h : readEscape dialect cs = some (c, r)) : r.length ≤ cs.length := by
  unfold readEscape at h
  split at h <;> first
    | (simp only [Option.some.injEq, Prod.mk.injEq] at h; obtain ⟨_, rfl⟩ := h; simp)
    | (have hr := readHex_length h; simp only [List.length_cons]; omega)
    | (split at h <;> first
        | (simp only [Option.some.injEq, Prod.mk.injEq] at h; obtain ⟨_, rfl⟩ := h; simp)
        | (have hr := readHex_length h; simp only [List.length_cons]; omega)
        | simp at h)
    | simp at h

/-- Reads the rest of a basic string up to its closing quote. -/
def readBasic (dialect : Dialect) : List Char → Option (List Char × List Char)
  | [] => none
  | '"' :: cs => some ([], cs)
  | '\\' :: cs =>
    match h : readEscape dialect cs with
    | some (c, r) =>
      have := readEscape_length h
      (readBasic dialect r).map fun (s, r) => (c :: s, r)
    | none => none
  | c :: cs =>
    if isPlain c then (readBasic dialect cs).map fun (s, r) => (c :: s, r) else none
termination_by cs => cs.length

/-- Reads the rest of a literal string up to its closing quote. -/
def readLiteral : List Char → Option (List Char × List Char)
  | [] => none
  | '\'' :: cs => some ([], cs)
  | c :: cs => if isPlain c then (readLiteral cs).map fun (s, r) => (c :: s, r) else none

def dropNewline : List Char → List Char
  | '\n' :: cs => cs
  | '\r' :: '\n' :: cs => cs
  | cs => cs

def isSpace (c : Char) : Bool := c = ' ' || c = '\t'

def dropLines : List Char → List Char
  | '\r' :: '\n' :: cs => dropLines cs
  | c :: cs => if isSpace c || c = '\n' then dropLines cs else c :: cs
  | [] => []

theorem dropLines_length (cs : List Char) : (dropLines cs).length ≤ cs.length := by
  fun_induction dropLines cs <;> simp_all <;> omega

/-- What a backslash at the end of a line leaves: the text after all blanks and newlines that
follow. Fails unless only blanks stand between the backslash and the end of the line. -/
def continuation (cs : List Char) : Option (List Char) :=
  match cs.dropWhile isSpace with
  | '\n' :: r => some (dropLines r)
  | '\r' :: '\n' :: r => some (dropLines r)
  | _ => none

theorem continuation_length {cs r : List Char} (h : continuation cs = some r) :
    r.length ≤ cs.length := by
  unfold continuation at h
  have hd := (List.dropWhile_suffix (l := cs) isSpace).length_le
  split at h <;> simp only [Option.some.injEq, reduceCtorEq] at h
  · rename_i r' hr
    have := dropLines_length r'
    simp only [hr, List.length_cons] at hd
    subst h; omega
  · rename_i r' hr
    have := dropLines_length r'
    simp only [hr, List.length_cons] at hd
    subst h; omega

/-- The closing quotes of a string over several lines: three of them, before which up to two more
belong to the string. -/
def closing (q : Char) (cs : List Char) : Option (List Char × List Char) :=
  let n := (cs.takeWhile (· = q)).length
  if n < 3 then none
  else
    let inner := min (n - 3) 2
    some (List.replicate inner q, cs.drop (inner + 3))

/-- Reads the rest of a basic string over several lines. -/
def readBasicLines (dialect : Dialect) (cs : List Char) : Option (List Char × List Char) :=
  match closing '"' cs with
  | some done => some done
  | none =>
    match cs with
    | [] => none
    | '\r' :: '\n' :: cs => (readBasicLines dialect cs).map fun (s, r) => ('\n' :: s, r)
    | '\\' :: cs =>
      match h : readEscape dialect cs with
      | some (c, r) =>
        have := readEscape_length h
        (readBasicLines dialect r).map fun (s, r) => (c :: s, r)
      | none =>
        match h : continuation cs with
        | some r =>
          have := continuation_length h
          readBasicLines dialect r
        | none => none
    | c :: cs =>
      if isPlain c || c = '\n' then (readBasicLines dialect cs).map fun (s, r) => (c :: s, r)
      else none
termination_by cs.length

/-- Reads the rest of a literal string over several lines. -/
def readLiteralLines (cs : List Char) : Option (List Char × List Char) :=
  match closing '\'' cs with
  | some done => some done
  | none =>
    match cs with
    | [] => none
    | '\r' :: '\n' :: cs => (readLiteralLines cs).map fun (s, r) => ('\n' :: s, r)
    | c :: cs =>
      if isPlain c || c = '\n' then (readLiteralLines cs).map fun (s, r) => (c :: s, r)
      else none

def readOneLine (dialect : Dialect) : List Char → Option (List Char × List Char)
  | '"' :: cs => readBasic dialect cs
  | '\'' :: cs => readLiteral cs
  | _ => none

def readString (dialect : Dialect) : List Char → Option (List Char × List Char)
  | '"' :: '"' :: '"' :: cs => readBasicLines dialect (dropNewline cs)
  | '\'' :: '\'' :: '\'' :: cs => readLiteralLines (dropNewline cs)
  | cs => readOneLine dialect cs

inductive Form
  | basic | literal | basicLines | literalLines
deriving DecidableEq, Repr

namespace Form

def quotes : Form → List Char
  | basic => ['"']
  | literal => ['\'']
  | basicLines => ['"', '"', '"']
  | literalLines => ['\'', '\'', '\'']

def hasEscapes : Form → Bool
  | basic | basicLines => true
  | _ => false

def spansLines : Form → Bool
  | basicLines | literalLines => true
  | _ => false

end Form

/-- The length of the longest run of `q`. -/
def longestRun (q : Char) (cs : List Char) : Nat :=
  (cs.foldl (fun (best, run) c =>
    if c = q then (max best (run + 1), run + 1) else (best, 0)) (0, 0)).1

/-- Control characters other than tab and newline; they need an escape. -/
def needsEscape (c : Char) : Bool := c ≠ '\t' && c ≠ '\n' && (c ≤ '\x1f' || c = '\x7f')

/-- The form a string is written in: the first that needs no escape at all, in the order basic,
literal, and the same over several lines; else a basic string. -/
def formOf (s : List Char) : Form :=
  let codes := s.any needsEscape
  let newline := s.contains '\n'
  let backslash := s.contains '\\'
  let single := longestRun '\'' s
  let double := longestRun '"' s
  if !codes && !backslash && double = 0 && !newline then .basic
  else if !codes && single = 0 && !newline then .literal
  else if !codes && !backslash && double ≤ 2 then .basicLines
  else if !codes && single ≤ 2 then .literalLines
  else if newline then .basicLines
  else .basic

/-- The body of a basic string. `run` counts the quotes just written, of which `allowed` may stand
in a row without an escape. -/
def escapeFrom (lines : Bool) (run : Nat) : List Char → List Char
  | [] => []
  | c :: cs =>
    if c = '"' then
      if run < (if lines then 2 else 0) then c :: escapeFrom lines (run + 1) cs
      else '\\' :: '"' :: escapeFrom lines 0 cs
    else if c = '\n' && lines then c :: escapeFrom lines 0 cs
    else (if c = '\x08' then ['\\', 'b']
      else if c = '\t' then ['\\', 't']
      else if c = '\n' then ['\\', 'n']
      else if c = '\x0c' then ['\\', 'f']
      else if c = '\r' then ['\\', 'r']
      else if c = '\\' then ['\\', '\\']
      else if c ≤ '\x1f' || c = '\x7f' then '\\' :: 'u' :: Text.hexPadded 4 c.toNat
      else [c]) ++ escapeFrom lines 0 cs

def quoteAs (form : Form) (s : List Char) : List Char :=
  form.quotes ++ (if form.spansLines && s.contains '\n' then ['\n'] else []) ++
    (if form.hasEscapes then escapeFrom form.spansLines 0 s else s) ++ form.quotes

def quote (s : String) : String := String.ofList (quoteAs (formOf s.toList) s.toList)

end ReverseProxy.Toml
