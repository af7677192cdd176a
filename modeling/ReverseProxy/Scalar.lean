/-!
# Arithmetic that averages are computed in

The rolling averages are written once and run in two arithmetics: machine floating point, which
the program computes with, and exact rationals, in which their laws are stated.
-/

namespace ReverseProxy

/-- Four operations, two order tests and the whole numbers. -/
class Scalar (α : Type) extends Add α, Sub α, Mul α, Div α where
  ofNat : Nat → α
  atMost : α → α → Bool
  below : α → α → Bool

/-- Numbers of at most 64 bits become the nearest double. -/
instance : Scalar Float where
  ofNat n := n.toUInt64.toFloat
  atMost a b := a ≤ b
  below a b := a < b

instance : Scalar Rat where
  ofNat n := n
  atMost a b := a ≤ b
  below a b := a < b

namespace Scalar

variable {α : Type} [Scalar α]

/-- The larger of two numbers; `low` if `a` is not comparable to it. -/
def raiseTo (low a : α) : α := if atMost low a then a else low

/-- Nanoseconds as seconds: the whole seconds and the rest are converted one by one. -/
def secondsOfNanos (n : Nat) : α :=
  ofNat (n / 1000000000) + ofNat (n % 1000000000) / ofNat 1000000000

end Scalar

end ReverseProxy
