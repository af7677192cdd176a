import ReverseProxy.Data.Value

/-!
# JSON

`Json.parse` reads a JSON text as data. Of members with the same name the last one counts; integers
keep their value as long as they fit into 64 bits and become doubles beyond.
-/

namespace ReverseProxy.Json

def dropBlanks (cs : List Char) : List Char :=
  cs.dropWhile fun c => c = ' ' || c = '\n' || c = '\t' || c = '\r'

def readUnit (cs : List Char) : Option (Nat × List Char) :=
  if cs.length < 4 then none else (Text.ofDigits? 16 (cs.take 4)).map (·, cs.drop 4)

def scalar? (n : Nat) : Option Char :=
  if h : n.isValidChar then some (Char.ofNatAux n h) else none

/-- Reads a `\u` escape after its letter. Two escapes may spell a surrogate pair. -/
def readUnicode (cs : List Char) : Option (Char × List Char) := do
  let (hi, r) ← readUnit cs
  if 0xD800 ≤ hi && hi ≤ 0xDBFF then
    match r with
    | '\\' :: 'u' :: r => do
      let (lo, r) ← readUnit r
      if 0xDC00 ≤ lo && lo ≤ 0xDFFF then
        some (← scalar? (0x10000 + (hi - 0xD800) * 0x400 + (lo - 0xDC00)), r)
      else none
    | _ => none
  else some (← scalar? hi, r)

def readEscape : List Char → Option (Char × List Char)
  | '"' :: cs => some ('"', cs)
  | '\\' :: cs => some ('\\', cs)
  | '/' :: cs => some ('/', cs)
  | 'b' :: cs => some ('\x08', cs)
  | 'f' :: cs => some ('\x0c', cs)
  | 'n' :: cs => some ('\n', cs)
  | 'r' :: cs => some ('\r', cs)
  | 't' :: cs => some ('\t', cs)
  | 'u' :: cs => readUnicode cs
  | _ => none

/-- Reads the rest of a string up to its closing quote. -/
def readString : Nat → List Char → Option (List Char × List Char)
  | 0, _ => none
  | _ + 1, [] => none
  | _ + 1, '"' :: cs => some ([], cs)
  | n + 1, '\\' :: cs => do
    let (c, r) ← readEscape cs
    (readString n r).map fun (s, r) => (c :: s, r)
  | n + 1, c :: cs =>
    if c < ' ' then none else (readString n cs).map fun (s, r) => (c :: s, r)

def readDigits (cs : List Char) : Option (List Char × List Char) :=
  let ds := cs.takeWhile Text.isDigit
  if ds.isEmpty then none else some (ds, cs.drop ds.length)

def readExponent (cs : List Char) : Option (Option Int × List Char) :=
  let signed (negative : Bool) (r : List Char) : Option (Option Int × List Char) := do
    let (ds, r) ← readDigits r
    let n ← Text.ofDigits? 10 ds
    some (some (if negative then -(n : Int) else n), r)
  match cs with
  | 'e' :: r | 'E' :: r =>
    match r with
    | '-' :: r => signed true r
    | '+' :: r => signed false r
    | r => signed false r
  | r => some (none, r)

def number? (negative : Bool) (whole fraction : List Char) (exponent : Option Int) :
    Option Data := do
  let digits := whole ++ fraction
  let m ← Text.ofDigits? 10 digits
  let asFloat : Option Data :=
    let x := Text.decimalToFloat m fraction.length (exponent.getD 0)
    if x.isInf then none else some (.float (if negative then -x else x))
  if fraction.isEmpty && exponent.isNone then
    if negative then
      if m = 0 || m > signedLimit then asFloat else some (.int (-(m : Int)))
    else if m < wordLimit then some (.int m)
    else asFloat
  else asFloat

def readNumber (cs : List Char) : Option (Data × List Char) := do
  let (negative, cs) := match cs with
    | '-' :: r => (true, r)
    | r => (false, r)
  let (whole, cs) ← readDigits cs
  if whole.head? = some '0' && whole.length ≠ 1 then none
  else
    let (fraction, cs) ← match cs with
      | '.' :: r => readDigits r
      | r => some ([], r)
    let (exponent, cs) ← readExponent cs
    some (← number? negative whole fraction exponent, cs)

def dropWord : List Char → List Char → Option (List Char)
  | [], cs => some cs
  | w :: ws, c :: cs => if w = c then dropWord ws cs else none
  | _ :: _, [] => none

mutual

/-- Reads a value. `fuel` bounds the number of steps and `depth` the nesting. -/
def readValue : Nat → Nat → List Char → Option (Data × List Char)
  | 0, _, _ => none
  | fuel + 1, depth, cs =>
    match dropBlanks cs with
    | 'n' :: r => (dropWord ['u', 'l', 'l'] r).map (.nil, ·)
    | 't' :: r => (dropWord ['r', 'u', 'e'] r).map (.bool true, ·)
    | 'f' :: r => (dropWord ['a', 'l', 's', 'e'] r).map (.bool false, ·)
    | '"' :: r => (readString (r.length + 1) r).map fun (s, r) => (.string (String.ofList s), r)
    | '[' :: r =>
      match depth, dropBlanks r with
      | 0, _ => none
      | _ + 1, ']' :: r => some (.array [], r)
      | depth + 1, r => (readItems fuel depth r).map fun (vs, r) => (.array vs, r)
    | '{' :: r =>
      match depth, dropBlanks r with
      | 0, _ => none
      | _ + 1, '}' :: r => some (.table [], r)
      | depth + 1, r => (readMembers fuel depth [] r).map fun (es, r) => (.table es, r)
    | r => readNumber r

def readItems : Nat → Nat → List Char → Option (List Data × List Char)
  | 0, _, _ => none
  | fuel + 1, depth, cs => do
    let (v, r) ← readValue fuel depth cs
    match dropBlanks r with
    | ',' :: r => (readItems fuel depth r).map fun (vs, r) => (v :: vs, r)
    | ']' :: r => some ([v], r)
    | _ => none

/-- Reads the members of an object up to its closing brace, after those already read. -/
def readMembers : Nat → Nat → List (String × Data) → List Char →
    Option (List (String × Data) × List Char)
  | 0, _, _, _ => none
  | fuel + 1, depth, done, cs => do
    match dropBlanks cs with
    | '"' :: r => do
      let (k, r) ← readString (r.length + 1) r
      match dropBlanks r with
      | ':' :: r => do
        let (v, r) ← readValue fuel depth r
        let done := Data.put (String.ofList k) v done
        match dropBlanks r with
        | ',' :: r => readMembers fuel depth done r
        | '}' :: r => some (done, r)
        | _ => none
      | _ => none
    | _ => none

end

def nestingLimit : Nat := 127

def parse (text : String) : Option Data := do
  let cs := text.toList
  let (v, r) ← readValue (2 * cs.length + 2) nestingLimit cs
  if (dropBlanks r).isEmpty then some v else none

end ReverseProxy.Json
