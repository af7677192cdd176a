import ReverseProxy.Time.Rfc3339

/-!
# Dates and times of TOML

A date-time literal holds a date, a time or both, and with both perhaps an offset. Literals are
validated when they are read and print in one normal form: `T` between date and time, `Z` for an
offset of zero written as a letter, and a fraction without trailing zeros.
-/

namespace ReverseProxy.Toml

open ReverseProxy.Time

/-- A time of day. Seconds may be left out only where the dialect allows it. -/
structure TimeOfDay where
  hour : Nat
  minute : Nat
  second : Option Nat
  nanos : Nat
deriving DecidableEq, Repr, Inhabited

/-- The offset of a date-time: the letter `Z`, or minutes ahead of universal time. -/
inductive Offset
  | zulu
  | minutes (n : Int)
deriving DecidableEq, Repr, Inhabited

inductive Datetime
  | offset (date : Date) (time : TimeOfDay) (offset : Offset)
  | localDatetime (date : Date) (time : TimeOfDay)
  | localDate (date : Date)
  | localTime (time : TimeOfDay)
deriving DecidableEq, Repr, Inhabited

def printDate (d : Date) : List Char :=
  Text.padded 4 d.year.toNat ++ '-' :: Text.padded 2 d.month ++ '-' :: Text.padded 2 d.day

/-- A fraction of a second without trailing zeros; nothing when it is zero. -/
def printFraction (nanos : Nat) : List Char :=
  if nanos = 0 then []
  else '.' :: ((Text.padded 9 nanos).reverse.dropWhile (· = '0')).reverse

def TimeOfDay.print (t : TimeOfDay) : List Char :=
  Text.padded 2 t.hour ++ ':' :: Text.padded 2 t.minute ++
    (match t.second with
      | some s => ':' :: Text.padded 2 s
      | none => []) ++
    printFraction t.nanos

def Offset.print : Offset → List Char
  | .zulu => ['Z']
  | .minutes n =>
    (if n < 0 then '-' else '+') ::
      (Text.padded 2 (n.natAbs / 60) ++ ':' :: Text.padded 2 (n.natAbs % 60))

def Datetime.print : Datetime → List Char
  | .offset d t o => printDate d ++ 'T' :: t.print ++ o.print
  | .localDatetime d t => printDate d ++ 'T' :: t.print
  | .localDate d => printDate d
  | .localTime t => t.print

def readDate (cs : List Char) : Option (Date × List Char) := do
  let (d, cs) ← Rfc3339.date cs
  if d.isValid then some (d, cs) else none

def readSeconds (cs : List Char) : Option ((Nat × Nat) × List Char) := do
  let cs ← Rfc3339.literal ':' cs
  let (second, cs) ← Rfc3339.fixedDigits 2 cs
  let (nanos, cs) ← Rfc3339.fraction cs
  if second ≤ 60 then some ((second, nanos), cs) else none

def readTime (secondsOptional : Bool) (cs : List Char) : Option (TimeOfDay × List Char) := do
  let (hour, cs) ← Rfc3339.fixedDigits 2 cs
  let cs ← Rfc3339.literal ':' cs
  let (minute, cs) ← Rfc3339.fixedDigits 2 cs
  if hour ≤ 23 && minute ≤ 59 then
    match readSeconds cs with
    | some ((second, nanos), cs) => some (⟨hour, minute, some second, nanos⟩, cs)
    | none =>
      if secondsOptional && cs.head? ≠ some ':' then some (⟨hour, minute, none, 0⟩, cs) else none
  else none

/-- Reads an offset, unless there is none. -/
def readOffset : List Char → Option (Option Offset × List Char)
  | 'Z' :: cs | 'z' :: cs => some (some .zulu, cs)
  | '+' :: cs => (Rfc3339.offsetMinutes cs).map fun (n, cs) => (some (.minutes n), cs)
  | '-' :: cs => (Rfc3339.offsetMinutes cs).map fun (n, cs) => (some (.minutes (-(n : Int))), cs)
  | cs => some (none, cs)

/-- Reads what may follow a date: a separator, a time and an offset. -/
def readAfterDate (secondsOptional : Bool) (d : Date) :
    List Char → Option (Datetime × List Char)
  | [] => some (.localDate d, [])
  | c :: cs =>
    if Rfc3339.isSeparator c then
      match readTime secondsOptional cs with
      | some (t, cs) => do
        match ← readOffset cs with
        | (some o, cs) => some (.offset d t o, cs)
        | (none, cs) => some (.localDatetime d t, cs)
      | none => some (.localDate d, c :: cs)
    else some (.localDate d, c :: cs)

def Datetime.read (secondsOptional : Bool) (cs : List Char) : Option (Datetime × List Char) :=
  match readDate cs with
  | some (d, cs) => readAfterDate secondsOptional d cs
  | none => (readTime secondsOptional cs).map fun (t, cs) => (.localTime t, cs)

end ReverseProxy.Toml
