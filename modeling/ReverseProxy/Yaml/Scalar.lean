import ReverseProxy.Data.Value
import ReverseProxy.Toml.Quoted

/-!
# Scalars of YAML

Plain scalars are numbers, booleans, nothing or text, by the way they look. Quoted scalars are text;
double quotes know escapes. Line breaks inside a scalar are folded: one becomes a space, and of
more all but the first are kept.
-/

namespace ReverseProxy.Yaml

/-! ## Plain scalars -/

def integer? (cs : List Char) : Option Int :=
  let (negative, ds) := match cs with
    | '-' :: r => (true, r)
    | '+' :: r => (false, r)
    | r => (false, r)
  (Text.ofDigits? 10 ds).map fun n => if negative then -(n : Int) else n

def exponent? : List Char → Option Int
  | [] => some 0
  | 'e' :: cs | 'E' :: cs => integer? cs
  | _ => none

def float? (cs : List Char) : Option Float := do
  let (negative, cs) := match cs with
    | '-' :: r => (true, r)
    | '+' :: r => (false, r)
    | r => (false, r)
  let whole := cs.takeWhile Text.isDigit
  let (fraction, rest) := match cs.drop whole.length with
    | '.' :: r => (r.takeWhile Text.isDigit, r.dropWhile Text.isDigit)
    | r => ([], r)
  let m ← Text.ofDigits? 10 (whole ++ fraction)
  let x := Text.decimalToFloat m fraction.length (← exponent? rest)
  some (if negative then -x else x)

/-- Whether a plain scalar is one of the words for numbers that have no digits. -/
def isSpecialFloat (s : String) : Bool :=
  s ∈ [".inf", ".Inf", ".INF", "+.inf", "+.Inf", "+.INF", "-.inf", "-.Inf", "-.INF", ".nan", "NaN",
    ".NAN"]

/-- A number after a mark for its base. -/
def marked? (cs : List Char) : Option Int :=
  match cs with
  | '0' :: 'x' :: r => signed 16 r
  | '0' :: 'o' :: r => signed 8 r
  | _ => none
where
  signed (base : Nat) : List Char → Option Int
    | '-' :: r => (Text.ofDigits? base r).map fun n => -(n : Int)
    | '+' :: r | r => (Text.ofDigits? base r).map Int.ofNat

/-- The value of a plain scalar; none for a number that no double can be read from. -/
def plainValue (cs : List Char) : Option Data :=
  let s := String.ofList cs
  match (marked? cs).filter fitsSigned, (integer? cs).filter fitsSigned with
  | some n, _ | none, some n => some (.int n)
  | none, none =>
    if s ∈ ["", "~", "null"] then some .nil
    else if s = "true" then some (.bool true)
    else if s = "false" then some (.bool false)
    else if isSpecialFloat s then
      if s = "NaN" then some (.float (0.0 / 0.0)) else none
    else match float? cs with
      | some x => some (.float x)
      | none => some (.string s)

def keyText (cs : List Char) : Option String :=
  match plainValue cs with
  | some .nil => none
  | some (.int n) => some (Text.signedDecimal n)
  | _ => some (String.ofList cs)

/-! ## Quoted scalars -/

def isBlank (c : Char) : Bool := c = ' ' || c = '\t'

def fold (breaks : Nat) : List Char :=
  if breaks = 1 then [' '] else List.replicate (breaks - 1) '\n'

/-- Counts line breaks among blanks; the rest starts with neither. -/
def dropBreaks : List Char → Nat × List Char
  | [] => (0, [])
  | c :: cs =>
    if c = '\n' then let (n, r) := dropBreaks cs; (n + 1, r)
    else if isBlank c then dropBreaks cs
    else (0, c :: cs)

def trimEnd (cs : List Char) : List Char := (cs.reverse.dropWhile isBlank).reverse

/-- Reads the rest of a single-quoted scalar. `out` is what was read, last character first. -/
def readSingle : Nat → List Char → List Char → Option (List Char × List Char)
  | 0, _, _ => none
  | _ + 1, _, [] => none
  | n + 1, out, '\'' :: '\'' :: cs => readSingle n ('\'' :: out) cs
  | _ + 1, out, '\'' :: cs => some (out.reverse, cs)
  | n + 1, out, '\n' :: cs =>
    let (breaks, r) := dropBreaks ('\n' :: cs)
    readSingle n ((fold breaks).reverse ++ out.dropWhile isBlank) r
  | n + 1, out, c :: cs => readSingle n (c :: out) cs

def readEscape : List Char → Option (Char × List Char)
  | '0' :: cs => some ('\x00', cs)
  | 'a' :: cs => some ('\x07', cs)
  | 'b' :: cs => some ('\x08', cs)
  | 't' :: cs | '\t' :: cs => some ('\t', cs)
  | 'n' :: cs => some ('\n', cs)
  | 'v' :: cs => some ('\x0b', cs)
  | 'f' :: cs => some ('\x0c', cs)
  | 'r' :: cs => some ('\r', cs)
  | 'e' :: cs => some ('\x1b', cs)
  | ' ' :: cs => some (' ', cs)
  | '"' :: cs => some ('"', cs)
  | '/' :: cs => some ('/', cs)
  | '\\' :: cs => some ('\\', cs)
  | 'N' :: cs => some ('\u0085', cs)
  | '_' :: cs => some ('\u00a0', cs)
  | 'L' :: cs => some ('\u2028', cs)
  | 'P' :: cs => some ('\u2029', cs)
  | 'x' :: cs => Toml.readHex 2 cs
  | 'u' :: cs => Toml.readHex 4 cs
  | 'U' :: cs => Toml.readHex 8 cs
  | _ => none

/-- Reads the rest of a double-quoted scalar. Blanks before a line break do not count unless they
were written as escapes; `kept` is what has been written so far and stays. -/
def readDouble : Nat → List Char → List Char → List Char → Option (List Char × List Char)
  | 0, _, _, _ => none
  | _ + 1, _, _, [] => none
  | _ + 1, kept, out, '"' :: cs => some ((out ++ kept).reverse, cs)
  | n + 1, kept, out, '\\' :: '\n' :: cs =>
    let (breaks, r) := dropBreaks cs
    readDouble n (List.replicate breaks '\n' ++ (out ++ kept)) [] r
  | n + 1, kept, out, '\\' :: cs => do
    let (c, r) ← readEscape cs
    readDouble n (c :: (out ++ kept)) [] r
  | n + 1, kept, out, '\n' :: cs =>
    let (breaks, r) := dropBreaks ('\n' :: cs)
    readDouble n ((fold breaks).reverse ++ (out.dropWhile isBlank ++ kept)) [] r
  | n + 1, kept, out, c :: cs => readDouble n kept (c :: out) cs

def readQuoted : List Char → Option (List Char × List Char)
  | '\'' :: cs => readSingle (cs.length + 1) [] cs
  | '"' :: cs => readDouble (cs.length + 1) [] [] cs
  | _ => none

end ReverseProxy.Yaml
