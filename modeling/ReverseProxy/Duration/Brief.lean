import ReverseProxy.Duration
import ReverseProxy.Text.Decimal

/-!
# Durations in messages

A duration is shown in the largest unit of which it holds at least one, with as many decimal places
as it takes.
-/

namespace ReverseProxy.Duration

def dropZeros (cs : List Char) : List Char := (cs.reverse.dropWhile (· = '0')).reverse

/-- A number of nanoseconds as a decimal fraction of a unit of `10 ^ places` nanoseconds. -/
def fraction (n places : Nat) : String :=
  let rest := dropZeros (Text.padded places (n % Nat.pow 10 places))
  String.ofList (Text.digits (n / Nat.pow 10 places) ++ if rest.isEmpty then [] else '.' :: rest)

def brief (d : Duration) : String :=
  if d.nanos ≥ 1000000000 then fraction d.nanos 9 ++ "s"
  else if d.nanos ≥ 1000000 then fraction d.nanos 6 ++ "ms"
  else if d.nanos ≥ 1000 then fraction d.nanos 3 ++ "µs"
  else Text.decimal d.nanos ++ "ns"

end ReverseProxy.Duration
