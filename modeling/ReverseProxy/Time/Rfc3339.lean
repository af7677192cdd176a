import ReverseProxy.Time.Timestamp
import ReverseProxy.Text.Decimal

/-!
# Timestamps in the form of RFC 3339

`Rfc3339.parse` reads a full date, a full time and an offset. The letter between date and time may
be `T`, `t` or a space, digits of a second beyond the ninth are dropped, and the sign of an offset
may be the minus sign U+2212.
-/

namespace ReverseProxy.Time.Rfc3339

def fixedDigits : Nat → List Char → Option (Nat × List Char)
  | n, cs =>
    if cs.length < n then none
    else (Text.ofDigits? 10 (cs.take n)).map (·, cs.drop n)

def literal (c : Char) : List Char → Option (List Char)
  | d :: cs => if c = d then some cs else none
  | [] => none

/-- Digits of a fraction as nanoseconds; those beyond the ninth count nothing. -/
def nanosOfFraction (ds : List Char) : Nat :=
  ((Text.ofDigits? 10 (ds.take 9)).getD 0) * Nat.pow 10 (9 - ds.length)

def fraction : List Char → Option (Nat × List Char)
  | '.' :: cs =>
    let ds := cs.takeWhile Text.isDigit
    if ds.isEmpty then none else some (nanosOfFraction ds, cs.dropWhile Text.isDigit)
  | cs => some (0, cs)

def date (cs : List Char) : Option (Date × List Char) := do
  let (year, cs) ← fixedDigits 4 cs
  let cs ← literal '-' cs
  let (month, cs) ← fixedDigits 2 cs
  let cs ← literal '-' cs
  let (day, cs) ← fixedDigits 2 cs
  some (⟨year, month, day⟩, cs)

def time (cs : List Char) : Option (ClockTime × List Char) := do
  let (hour, cs) ← fixedDigits 2 cs
  let cs ← literal ':' cs
  let (minute, cs) ← fixedDigits 2 cs
  let cs ← literal ':' cs
  let (second, cs) ← fixedDigits 2 cs
  let (nanos, cs) ← fraction cs
  some (⟨hour, minute, second, nanos⟩, cs)

def offsetMinutes (cs : List Char) : Option (Nat × List Char) := do
  let (hours, cs) ← fixedDigits 2 cs
  let cs ← literal ':' cs
  let (minutes, cs) ← fixedDigits 2 cs
  if hours ≤ 23 && minutes ≤ 59 then some (hours * 60 + minutes, cs) else none

/-- Reads an offset from universal time, in minutes. -/
def offset : List Char → Option (Int × List Char)
  | 'Z' :: cs | 'z' :: cs => some (0, cs)
  | '+' :: cs => (offsetMinutes cs).map fun (n, cs) => ((n : Int), cs)
  | '-' :: cs | '−' :: cs => (offsetMinutes cs).map fun (n, cs) => (-(n : Int), cs)
  | _ => none

def isSeparator (c : Char) : Bool := c = 'T' || c = 't' || c = ' '

def parse (s : String) : Option Timestamp := do
  let (d, cs) ← date s.toList
  match cs with
  | c :: cs =>
    if isSeparator c then
      let (t, cs) ← time cs
      let (o, cs) ← offset cs
      if cs.isEmpty then Timestamp.ofLocal? d t o else none
    else none
  | [] => none

end ReverseProxy.Time.Rfc3339
