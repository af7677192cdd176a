import ReverseProxy.Scalar

/-!
# Rolling averages

An exponentially weighted moving average over samples that arrive at a fixed rate. The first
`warmUp` samples are averaged arithmetically; until they are in, the average reads zero.
-/

namespace ReverseProxy

/-- An average over roughly the last `age` samples. While it warms up, `value` holds a sum. -/
structure Average (α : Type) where
  decay : α
  value : α
  count : Nat

namespace Average

/-- Samples averaged arithmetically before the decay sets in. -/
def warmUp : Nat := 10

variable {α : Type} [Scalar α]

open Scalar

/-- An average without samples. Ages below one count as one. -/
def ofAge (age : α) : Average α :=
  { decay := ofNat 2 / (raiseTo (ofNat 1) age + ofNat 1), value := ofNat 0, count := 0 }

def add (a : Average α) (sample : α) : Average α :=
  if a.count < warmUp then
    let sum := a.value + sample
    { a with
      value := if a.count + 1 = warmUp then sum / ofNat warmUp else sum
      count := a.count + 1 }
  else
    { a with value := sample * a.decay + a.value * (ofNat 1 - a.decay) }

def addAll (a : Average α) (samples : List α) : Average α := samples.foldl add a

def isWarm (a : Average α) : Bool := warmUp ≤ a.count

/-- The average as it is reported: zero until it is warm. -/
def reported (a : Average α) : α := if a.isWarm then a.value else ofNat 0

def set (a : Average α) (value : α) : Average α := { a with value, count := warmUp }

end Average

end ReverseProxy
