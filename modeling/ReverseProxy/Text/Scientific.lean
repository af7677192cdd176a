import ReverseProxy.Text.Decimal
import ReverseProxy.Number

/-!
# Decimal numbers as doubles

The double nearest to a decimal number, and the shortest decimal digits that read back as a double.
-/

namespace ReverseProxy.Text

/-- The double nearest to `mantissa * 10 ^ (exponent - places)`. Powers of ten far outside the range
of a double are cut off before they are computed. -/
def decimalToFloat (mantissa places : Nat) (exponent : Int) : Float :=
  let e := exponent - places
  if mantissa = 0 then 0.0
  else if e > 400 then 1.0 / 0.0
  else if e < -(400 + (digits mantissa).length : Int) then 0.0
  else Float.ofScientific mantissa (e < 0) e.natAbs

/-- Two to the 52: the first number that takes more bits than the fraction of a double has. -/
abbrev fractionLimit : Nat := 4503599627370496

/-- A positive finite double as `mantissa * 2 ^ exponent`. -/
def decodeFloat (x : Float) : Nat × Int :=
  let bits : Nat := x.toBits.toNat
  let e : Nat := bits / fractionLimit % 2048
  let m : Nat := bits % fractionLimit
  if e = 0 then (m, -1074) else (m + fractionLimit, (e : Int) - 1075)

/-- `m * 2 ^ e` as a fraction. -/
def binaryFraction (m : Nat) (e : Int) : Nat × Nat :=
  if e < 0 then (m, Nat.pow 2 e.natAbs) else (m * Nat.pow 2 e.natAbs, 1)

/-- The decimal exponent of the last of `n` digits of the fraction `num / den`, whose integer part
or leading zeros fix its magnitude. -/
def lastPlace (num den n : Nat) : Int :=
  let magnitude : Int :=
    if den ≤ num then (digits (num / den)).length
    else
      let guess := (digits (den / num)).length
      if num * Nat.pow 10 guess < den * 10 then -(guess - 1 : Nat) else -(guess - 2 : Nat)
  magnitude - n

/-- Whether `d * 10 ^ p` lies strictly between, or for an even mantissa at an end of, the interval
of numbers that round to `m * 2 ^ e`. All is compared in quarters of `2 ^ e`. -/
def roundsTo (m : Nat) (e : Int) (d : Nat) (p : Int) : Bool :=
  let lower := if m = fractionLimit && e ≠ -1074 then 4 * m - 1 else 4 * m - 2
  let upper := 4 * m + 2
  let (un, ud) := binaryFraction 1 (e - 2)
  let (dn, dd) := if p < 0 then (d, Nat.pow 10 p.natAbs) else (d * Nat.pow 10 p.natAbs, 1)
  let left := lower * un * dd
  let right := upper * un * dd
  let value := dn * ud
  if m % 2 = 0 then left ≤ value && value ≤ right else left < value && value < right

/-- The digits and the decimal exponent nearest to the double on the first grid, of `n` digits and
more, that holds a number which rounds to it. -/
def shortestFrom (m : Nat) (e : Int) : Nat → Nat → Nat × Int
  | 0, _ => (0, 0)
  | fuel + 1, n =>
    let (num, den) := binaryFraction m e
    let p := lastPlace num den n
    let (sn, sd) := if p < 0 then (num * Nat.pow 10 p.natAbs, den) else (num, den * Nat.pow 10 p.natAbs)
    let low := sn / sd
    let lowFits := roundsTo m e low p
    let highFits := roundsTo m e (low + 1) p
    let lowNearer := 2 * (sn - low * sd) ≤ sd
    if lowFits && (lowNearer || !highFits) then (low, p)
    else if highFits then (low + 1, p)
    else shortestFrom m e fuel (n + 1)

/-- A double in positional notation with the fewest digits that read back: whole numbers have no
point, and there is never an exponent. -/
def positional (x : Float) : String :=
  if x.isNaN then "NaN"
  else
    let negative := x.toBits.toNat ≥ signedLimit
    let sign := if negative then "-" else ""
    let x := x.abs
    if x.isInf then sign ++ "inf"
    else if x == 0.0 then sign ++ "0"
    else
      let (m, e) := decodeFloat x
      let (d, p) := shortestFrom m e 20 1
      let ds := digits d
      let body :=
        if 0 ≤ p then ds ++ List.replicate p.natAbs '0'
        else
          let places := p.natAbs
          let ds := List.replicate (places + 1 - ds.length) '0' ++ ds
          let whole := ds.take (ds.length - places)
          let rest := ((ds.drop (ds.length - places)).reverse.dropWhile (· = '0')).reverse
          if rest.isEmpty then whole else whole ++ '.' :: rest
      sign ++ String.ofList body

end ReverseProxy.Text
