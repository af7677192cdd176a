import ReverseProxy.Duration
import ReverseProxy.Text.Blank
import ReverseProxy.Text.Decimal

/-!
# Durations people write

A duration is written as a sequence of numbers with units, such as `1h 30m` or `250ms`. `parse`
reads every unit name and a decimal fraction; `format` writes each unit once, from years down to
nanoseconds, and leaves out the units that are zero.
-/

namespace ReverseProxy.Duration.Human

/-- Why a text is no duration. -/
inductive ParseError
  | empty
  | numberExpected
  | invalidCharacter
  | numberOverflow
  | unknownUnit
deriving DecidableEq, Repr

/-- The units of time. A month is 30.44 days and a year 365.25 days. -/
inductive Unit
  | nanosecond | microsecond | millisecond | second | minute | hour | day | week | month | year
deriving DecidableEq, Repr

namespace Unit

def nanos : Unit → Nat
  | nanosecond => 1
  | microsecond => 1000
  | millisecond => 1000000
  | second => 1000000000
  | minute => 60 * 1000000000
  | hour => 3600 * 1000000000
  | day => 86400 * 1000000000
  | week => 604800 * 1000000000
  | month => 2630016 * 1000000000
  | year => 31557600 * 1000000000

/-- Whether the unit is counted in nanoseconds rather than in seconds. -/
def isSubsecond : Unit → Bool
  | nanosecond | microsecond | millisecond => true
  | _ => false

/-- The unit's size in the counter it is kept in: nanoseconds below a second, else seconds. -/
def scale (u : Unit) : Nat :=
  if u.isSubsecond then u.nanos else u.nanos / nanosPerSecond

/-- All accepted names; case matters, for `m` is a minute and `M` a month. -/
def ofName? (name : String) : Option Unit :=
  if name ∈ ["nanos", "nsec", "ns"] then some nanosecond
  else if name ∈ ["usec", "us", "µs"] then some microsecond
  else if name ∈ ["millis", "msec", "ms"] then some millisecond
  else if name ∈ ["seconds", "second", "secs", "sec", "s"] then some second
  else if name ∈ ["minutes", "minute", "min", "mins", "m"] then some minute
  else if name ∈ ["hours", "hour", "hrs", "hr", "h"] then some hour
  else if name ∈ ["days", "day", "d"] then some day
  else if name ∈ ["weeks", "week", "wk", "wks", "w"] then some week
  else if name ∈ ["months", "month", "M"] then some month
  else if name ∈ ["years", "year", "yr", "yrs", "y"] then some year
  else none

end Unit

/-- The part of a number after its point: a numerator over a power of ten. -/
structure Fraction where
  numerator : Nat
  denominator : Nat
deriving DecidableEq, Repr

/-- Where in the text the reader is. -/
inductive Place
  /-- Before the first number, or between two items. -/
  | gap (started : Bool)
  | number (n : Nat)
  | fraction (n : Nat) (f : Fraction)
  | unit (n : Nat) (f : Option Fraction) (name : List Char)
deriving DecidableEq, Repr

/-- What has been read so far: a sum in nanoseconds and the place. -/
structure State where
  total : Nat
  place : Place
deriving DecidableEq, Repr

def State.initial : State := ⟨0, .gap false⟩

/-- Fails when a counter of 64 bits would overflow. -/
def within64 (n : Nat) : Except ParseError Nat :=
  if n < wordLimit then .ok n else .error .numberOverflow

/-- Adds `n` of the counter that `u` is kept in. -/
def addCounted (total n : Nat) (u : Unit) : Except ParseError Nat := do
  if u.isSubsecond then discard <| within64 (total % nanosPerSecond + n)
  let sum := total + n * (if u.isSubsecond then 1 else nanosPerSecond)
  if sum < Duration.limit then .ok sum else .error .numberOverflow

/-- The nanoseconds or seconds a fraction of a unit stands for. A nanosecond has no fraction. -/
def addFraction (total : Nat) (f : Fraction) (u : Unit) : Except ParseError Nat := do
  match u with
  | .nanosecond => .error .numberOverflow
  | .second | .minute =>
    addCounted total ((← within64 (f.numerator * u.nanos)) / f.denominator) .nanosecond
  | _ => addCounted total ((← within64 (f.numerator * u.scale)) / f.denominator) u

def addItem (total n : Nat) (f : Option Fraction) (name : List Char) :
    Except ParseError Nat := do
  let some u := Unit.ofName? (String.ofList name.reverse) | .error .unknownUnit
  let total ← addCounted total (← within64 (n * u.scale)) u
  match f with
  | none => .ok total
  | some f => addFraction total f u

def isUnitLetter (c : Char) : Bool :=
  ('a' ≤ c && c ≤ 'z') || ('A' ≤ c && c ≤ 'Z') || c = 'µ'

/-- Appends a decimal digit to a counter of 64 bits. -/
def appendDigit (n d : Nat) : Except ParseError Nat := within64 (n * 10 + d)

def State.step (s : State) (c : Char) : Except ParseError State := do
  match s.place, Text.digitValue? 10 c with
  | .gap _, some d => .ok { s with place := .number d }
  | .gap b, none =>
    if Text.isBlank c then .ok { s with place := .gap b } else .error .numberExpected
  | .number n, some d => .ok { s with place := .number (← appendDigit n d) }
  | .number n, none =>
    if Text.isBlank c then .ok s
    else if isUnitLetter c then .ok { s with place := .unit n none [c] }
    else if c = '.' then .ok { s with place := .fraction n ⟨0, 1⟩ }
    else .error .invalidCharacter
  | .fraction n f, some d =>
    .ok { s with
      place := .fraction n ⟨← appendDigit f.numerator d, ← appendDigit f.denominator 0⟩ }
  | .fraction n f, none =>
    if Text.isBlank c then .ok s
    else if isUnitLetter c && f.denominator ≠ 1 then .ok { s with place := .unit n (some f) [c] }
    else .error .invalidCharacter
  | .unit n f name, some d => .ok ⟨← addItem s.total n f name, .number d⟩
  | .unit n f name, none =>
    if Text.isBlank c then .ok ⟨← addItem s.total n f name, .gap true⟩
    else if isUnitLetter c then .ok { s with place := .unit n f (c :: name) }
    else .error .invalidCharacter

def State.finish (s : State) : Except ParseError Nat :=
  match s.place with
  | .gap true => .ok s.total
  | .gap false => .error .empty
  | .number _ => .error .unknownUnit
  | .fraction _ f => .error (if f.denominator = 1 then .invalidCharacter else .unknownUnit)
  | .unit n f name => addItem s.total n f name

/-- Reads a duration. The lone digit `0` needs no unit. -/
def parse (s : String) : Except ParseError Duration := do
  if s = "0" then return .zero
  let n ← (← s.toList.foldlM State.step State.initial).finish
  match Duration.ofNanos? n with
  | some d => .ok d
  | none => .error .numberOverflow

/-- Reads a duration after dropping blanks at both ends. -/
def parseTrimmed (s : String) : Except ParseError Duration := parse (Text.trimmed s)

/-- One item, unless its number is zero. -/
def item (n : Nat) (unit : String) : List String :=
  if n = 0 then [] else [Text.decimal n ++ unit]

/-- An item whose unit takes an `s` unless the number is one. -/
def countedItem (n : Nat) (unit : String) : List String :=
  item n (if n = 1 then unit else unit ++ "s")

/-- The items of a duration, largest unit first. -/
def items (d : Duration) : List String :=
  let inYear := d.seconds % 31557600
  let inMonth := inYear % 2630016
  let inDay := inMonth % 86400
  let nanos := d.subsecNanos
  countedItem (d.seconds / 31557600) "year" ++
  countedItem (inYear / 2630016) "month" ++
  countedItem (inMonth / 86400) "day" ++
  item (inDay / 3600) "h" ++
  item (inDay % 3600 / 60) "m" ++
  item (inDay % 60) "s" ++
  item (nanos / 1000000) "ms" ++
  item (nanos / 1000 % 1000) "us" ++
  item (nanos % 1000) "ns"

/-- Writes a duration; the zero duration is `0s`. -/
def format (d : Duration) : String :=
  if d.isZero then "0s" else " ".intercalate (items d)

end ReverseProxy.Duration.Human
