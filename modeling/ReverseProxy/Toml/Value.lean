import ReverseProxy.Toml.Datetime
import ReverseProxy.Toml.Quoted
import ReverseProxy.Text.Scientific
import ReverseProxy.Number

/-!
# Values of TOML

The value tree and the readers of its leaves: numbers, booleans, strings and date-times. Tables
keep their entries in the order of the document.
-/

namespace ReverseProxy.Toml

/-- A value. The keys of a table are distinct. -/
inductive Value
  | string (s : String)
  | integer (n : Int)
  | float (x : Float)
  | boolean (b : Bool)
  | datetime (d : Datetime)
  | array (items : List Value)
  | table (entries : List (String × Value))
deriving Inhabited

def Value.typeName : Value → String
  | string _ => "string"
  | integer _ => "integer"
  | float _ => "float"
  | boolean _ => "boolean"
  | datetime _ => "datetime"
  | array _ => "array"
  | table _ => "table"

/-- Characters that may make up a number, a date-time or a bare word. -/
def isWordChar (c : Char) : Bool :=
  c.isAlphanum || c = '_' || c = '+' || c = '-' || c = '.'

/-- Digits in which every underscore stands between two digits, without the underscores. -/
def groupedDigits? (base : Nat) : List Char → Option (List Char)
  | [] => none
  | c :: cs =>
    if (Text.digitValue? base c).isNone then none
    else match cs with
      | [] => some [c]
      | '_' :: rest => (groupedDigits? base rest).map (c :: ·)
      | rest => (groupedDigits? base rest).map (c :: ·)

/-- Digits of a decimal number: no zero may lead a longer number. -/
def decimalDigits? (cs : List Char) : Option (List Char) := do
  let ds ← groupedDigits? 10 cs
  if ds.head? = some '0' && ds.length ≠ 1 then none else some ds

/-- Splits a sign off; `true` is minus. -/
def splitSign : List Char → Bool × List Char
  | '-' :: cs => (true, cs)
  | '+' :: cs => (false, cs)
  | cs => (false, cs)

def inInt64 (n : Int) : Option Int := if fitsSigned n then some n else none

/-- An integer in decimal, or without sign in base 16, 8 or 2. -/
def integer? : List Char → Option Int
  | '0' :: 'x' :: cs => based 16 cs
  | '0' :: 'o' :: cs => based 8 cs
  | '0' :: 'b' :: cs => based 2 cs
  | cs => do
    let (negative, body) := splitSign cs
    let n ← Text.ofDigits? 10 (← decimalDigits? body)
    inInt64 (if negative then -(n : Int) else n)
where
  based (base : Nat) (cs : List Char) : Option Int := do
    inInt64 (← Text.ofDigits? base (← groupedDigits? base cs))

/-- A finite float: a decimal integer with a fraction, an exponent or both. -/
def finiteFloat? (cs : List Char) : Option Float := do
  let (negative, body) := splitSign cs
  let whole := body.takeWhile fun c => c ≠ '.' && c ≠ 'e' && c ≠ 'E'
  let rest := body.drop whole.length
  let (fraction, rest) ← match rest with
    | '.' :: r =>
      let f := r.takeWhile fun c => c ≠ 'e' && c ≠ 'E'
      (groupedDigits? 10 f).map (·, r.drop f.length)
    | r => if r.isEmpty then none else some ([], r)
  let exponent ← match rest with
    | [] => some 0
    | _ :: r => do
      let (negative, ds) := splitSign r
      let n ← Text.ofDigits? 10 (← groupedDigits? 10 ds)
      some (if negative then -(n : Int) else n)
  let mantissa ← Text.ofDigits? 10 ((← decimalDigits? whole) ++ fraction)
  let x := Text.decimalToFloat mantissa fraction.length exponent
  if x.isInf then none else some (if negative then -x else x)

/-- Infinity and the value that is no number, with an optional sign. -/
def specialFloat? (cs : List Char) : Option Float :=
  let (negative, body) := splitSign cs
  let infinity : Float := 1.0 / 0.0
  if body = ['i', 'n', 'f'] then some (if negative then -infinity else infinity)
  else if body = ['n', 'a', 'n'] then some (infinity - infinity)
  else none

/-- A word that is no string: a boolean or a number. -/
def word? (cs : List Char) : Option Value :=
  if cs = ['t', 'r', 'u', 'e'] then some (.boolean true)
  else if cs = ['f', 'a', 'l', 's', 'e'] then some (.boolean false)
  else (integer? cs).map .integer <|> (finiteFloat? cs).map .float <|>
    (specialFloat? cs).map .float

def readWord (dialect : Dialect) (cs : List Char) : Option (Value × List Char) :=
  match Datetime.read dialect.lenient cs with
  | some (d, cs) => some (.datetime d, cs)
  | none => (word? (cs.takeWhile isWordChar)).map (·, cs.dropWhile isWordChar)

def readScalar (dialect : Dialect) (cs : List Char) : Option (Value × List Char) :=
  match cs with
  | '"' :: _ | '\'' :: _ =>
    (readString dialect cs).map fun (s, r) => (.string (String.ofList s), r)
  | _ => readWord dialect cs

def isKeyChar (c : Char) : Bool := c.isAlphanum || c = '_' || c = '-'

def dropSpaces (cs : List Char) : List Char := cs.dropWhile isSpace

/-- Reads one part of a key: quoted on one line, or bare. -/
def readSimpleKey (dialect : Dialect) (cs : List Char) : Option (String × List Char) :=
  match cs with
  | '"' :: _ | '\'' :: _ => (readOneLine dialect cs).map fun (s, r) => (String.ofList s, r)
  | _ =>
    let k := cs.takeWhile isKeyChar
    if k.isEmpty then none else some (String.ofList k, cs.drop k.length)

/-- Reads a key of at most `n` parts, joined by dots, with the blanks around it. -/
def readKey (dialect : Dialect) : Nat → List Char → Option (List String × List Char)
  | 0, _ => none
  | n + 1, cs => do
    let (k, cs) ← readSimpleKey dialect (dropSpaces cs)
    match dropSpaces cs with
    | '.' :: cs => (readKey dialect n cs).map fun (ks, cs) => (k :: ks, cs)
    | cs => some ([k], cs)

/-- How deeply values may nest, and how many parts a key may have. -/
def nestingLimit : Nat := 80

def dropComment (cs : List Char) : List Char :=
  match cs with
  | '#' :: r => r.dropWhile isPlain
  | _ => cs

/-- Drops spaces, comments and, if `lines` holds, newlines. -/
def dropGaps (lines : Bool) : Nat → List Char → List Char
  | 0, cs => cs
  | n + 1, cs =>
    let r := dropSpaces cs
    if !lines then r
    else match dropComment r with
      | '\n' :: r => dropGaps lines n r
      | '\r' :: '\n' :: r => dropGaps lines n r
      | r => r

end ReverseProxy.Toml
