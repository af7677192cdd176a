import ReverseProxy.Text.Blank
import ReverseProxy.Text.Decimal

/-!
# Domain names

A domain name in a URL is normalized before it is used: letters are lowered, full-width forms
become plain ones, invisible characters vanish, and a label in the encoded form that starts with
`xn--` is decoded. `Domain.normalize?` refuses names with characters that no domain may have.

This is the mapping of UTS 46 for common names only. Its tables are not here: capitals beyond ASCII
are not lowered, and characters that are not assigned are let through. Of its rules about context,
those for joiners are left out, which are refused everywhere, and so is the one for text that runs
from right to left.
-/

namespace ReverseProxy.Net.Domain

/-! ## Encoded labels -/

/-- The value of a digit in base 36: letters first. -/
def digitValue? (c : Char) : Option Nat :=
  if 'a' ≤ c && c ≤ 'z' then some (c.toNat - 97)
  else if '0' ≤ c && c ≤ '9' then some (c.toNat - 22)
  else none

/-- The smallest digit that does not end a number at position `k`. -/
def threshold (k bias : Nat) : Nat := max 1 (min 26 (k - bias))

/-- Divides until the delta is small, counting the divisions. -/
def shrink (delta k : Nat) : Nat × Nat :=
  if delta > 455 then shrink (delta / 35) (k + 36) else (delta, k)
termination_by delta
decreasing_by omega

def adapt (delta count : Nat) (first : Bool) : Nat :=
  let delta := if first then delta / 700 else delta / 2
  let (delta, k) := shrink (delta + delta / count) 0
  k + 36 * delta / (delta + 38)

def readNumber (bias k weight acc : Nat) : List Char → Option (Nat × List Char)
  | [] => none
  | c :: cs => do
    let d ← digitValue? c
    let acc := acc + d * weight
    let t := threshold k bias
    if d < t then some (acc, cs) else readNumber bias (k + 36) (weight * (36 - t)) acc cs

/-- Inserts the characters that the numbers spell. `i` and `n` are the position and the value of
the character inserted last. -/
def insertAll : Nat → Nat → Nat → Nat → Bool → List Char → List Char → Option (List Char)
  | _, _, _, _, _, out, [] => some out
  | 0, _, _, _, _, _, _ => none
  | fuel + 1, i, n, bias, first, out, cs => do
    let (delta, rest) ← readNumber bias 36 1 0 cs
    let i := i + delta
    let size := out.length + 1
    let n := n + i / size
    if h : n.isValidChar then
      let at_ := i % size
      insertAll fuel (at_ + 1) n (adapt delta size first) false
        (out.take at_ ++ Char.ofNatAux n h :: out.drop at_) rest
    else none

def decodeLabel? (cs : List Char) : Option (List Char) :=
  let r := cs.reverse
  let (basic, digits) :=
    if '-' ∈ r then (((r.dropWhile (· ≠ '-')).drop 1).reverse, (r.takeWhile (· ≠ '-')).reverse)
    else ([], cs)
  if digits.isEmpty then none else insertAll digits.length 0 128 72 true basic digits

/-! ## Characters -/

def isDelimiter (c : Char) : Bool :=
  c ≤ ' ' || c = '\x7f' || c ∈ ['%', '#', '/', ':', '<', '>', '?', '@', '[', '\\', ']', '^', '|']

def isIgnored (n : Nat) : Bool :=
  n = 0xAD || n = 0x34F || n = 0x200B || n = 0x2060 || n = 0x2064 || n = 0xFEFF ||
  (0x180B ≤ n && n ≤ 0x180F && n ≠ 0x180E) || (0xFE00 ≤ n && n ≤ 0xFE0F) ||
  (0xE0100 ≤ n && n ≤ 0xE01EF)

/-- Code points beyond ASCII that no domain may hold, those that stand for a blank included. -/
def isForbidden (n : Nat) : Bool :=
  (0x80 ≤ n && n ≤ 0xA0) || n = 0xA8 || n = 0xAF || n = 0xB4 || n = 0xB8 ||
  (0x2D8 ≤ n && n ≤ 0x2DD) || n = 0x1680 || n = 0x180E || (0x2000 ≤ n && n ≤ 0x200F) ||
  (0x2028 ≤ n && n ≤ 0x202F) || (0x205F ≤ n && n ≤ 0x206F) || n = 0x3000 ||
  (0xE000 ≤ n && n ≤ 0xF8FF) || (0xFDD0 ≤ n && n ≤ 0xFDEF) || (0xFFF0 ≤ n && n ≤ 0xFFFF) ||
  n % 0x10000 ≥ 0xFFFE || n ≥ 0xE0000

/-- Combining marks, with which no label may start. -/
def isMark (n : Nat) : Bool :=
  (0x300 ≤ n && n ≤ 0x36F) || (0x483 ≤ n && n ≤ 0x489) || (0x591 ≤ n && n ≤ 0x5BD) ||
  (0x1AB0 ≤ n && n ≤ 0x1AFF) || (0x1DC0 ≤ n && n ≤ 0x1DFF) || (0x20D0 ≤ n && n ≤ 0x20FF) ||
  (0xFE20 ≤ n && n ≤ 0xFE2F)

def plain (c : Char) : Char :=
  let n := c.toNat
  if 0xFF01 ≤ n && n ≤ 0xFF5E then (Char.ofNat (n - 0xFEE0)).toLower
  else if n = 0x3002 || n = 0xFF61 then '.'
  else if n = 0xB9 || n = 0xB2 || n = 0xB3 then Char.ofNat (if n = 0xB9 then 49 else n - 0x80)
  else if n = 0x2070 || (0x2074 ≤ n && n ≤ 0x2079) then Char.ofNat (n - 0x2040)
  else if 0x2080 ≤ n && n ≤ 0x2089 then Char.ofNat (n - 0x2050)
  else c.toLower

def labelOk (cs : List Char) : Bool :=
  let allowed (cs : List Char) :=
    !(cs.any fun c => isForbidden c.toNat || isIgnored c.toNat) && !(cs.head?.any (isMark ·.toNat))
  match cs with
  | 'x' :: 'n' :: '-' :: '-' :: r =>
    match decodeLabel? r with
    | some d => d.any (·.toNat ≥ 128) && allowed d
    | none => false
  | cs => allowed cs

/-- The normal form of a domain name, as far as it is known here; none if it holds what no domain may
hold. -/
def normalize? (cs : List Char) : Option (List Char) :=
  let cs := (cs.filter fun c => !isIgnored c.toNat).map plain
  if cs.any isDelimiter then none
  else if (Text.splitAtChar '.' cs).all labelOk then some cs
  else none

end ReverseProxy.Net.Domain
