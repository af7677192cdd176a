/-!
# Whole numbers in text

Digits of a number in a base of at most sixteen, and the readers that turn them back. The main
small law is `ofDigits_digits`: reading the digits of a number gives the number.
-/

namespace ReverseProxy.Text

def digitChar (d : Nat) : Char :=
  if d < 10 then Char.ofNat (48 + d) else Char.ofNat (87 + d)

def hexValue? (c : Char) : Option Nat :=
  if '0' ≤ c && c ≤ '9' then some (c.toNat - 48)
  else if 'a' ≤ c && c ≤ 'f' then some (c.toNat - 87)
  else if 'A' ≤ c && c ≤ 'F' then some (c.toNat - 55)
  else none

def digitValue? (base : Nat) (c : Char) : Option Nat :=
  (hexValue? c).filter (· < base)

def isDigit (c : Char) : Bool := '0' ≤ c && c ≤ '9'

/-- Reads a digit string, most significant digit first, continuing from `acc`. -/
def ofDigitsFrom? (base acc : Nat) : List Char → Option Nat
  | [] => some acc
  | c :: cs => do ofDigitsFrom? base (acc * base + (← digitValue? base c)) cs

def ofDigits? (base : Nat) : List Char → Option Nat
  | [] => none
  | cs => ofDigitsFrom? base 0 cs

/-- The decimal digits of a number, without leading zeros. -/
def digits (n : Nat) : List Char :=
  if n < 10 then [digitChar n] else digits (n / 10) ++ [digitChar (n % 10)]

/-- The decimal digits, filled up with zeros on the left to at least `width`. -/
def padded (width n : Nat) : List Char :=
  let ds := digits n
  List.replicate (width - ds.length) '0' ++ ds

/-- The hexadecimal digits in upper case, filled up with zeros to `width`. -/
def hexPadded : Nat → Nat → List Char
  | 0, _ => []
  | width + 1, n => hexPadded width (n / 16) ++ [(digitChar (n % 16)).toUpper]

def decimal (n : Nat) : String := String.ofList (digits n)

/-- An integer in decimal, with a minus sign when negative. -/
def signedDecimal : Int → String
  | .ofNat n => decimal n
  | .negSucc n => "-" ++ decimal (n + 1)

/-- Reads an unsigned number below `limit`; one leading plus sign is allowed. -/
def unsigned? (limit : Nat) (cs : List Char) : Option Nat :=
  let body := match cs with
    | '+' :: r => r
    | r => r
  (ofDigits? 10 body).filter (· < limit)

theorem digitValue?_digitChar {d : Nat} (h : d < 10) : digitValue? 10 (digitChar d) = some d := by
  have all : ∀ e ∈ List.range 10, digitValue? 10 (digitChar e) = some e := by decide
  exact all d (List.mem_range.mpr h)

theorem ofDigitsFrom?_append (base acc : Nat) (as bs : List Char) :
    ofDigitsFrom? base acc (as ++ bs) =
      (ofDigitsFrom? base acc as).bind fun n => ofDigitsFrom? base n bs := by
  induction as generalizing acc with
  | nil => rfl
  | cons c cs ih =>
    cases h : digitValue? base c with
    | none => simp [ofDigitsFrom?, h]
    | some d => simp [ofDigitsFrom?, h, ih]

theorem ofDigitsFrom?_digits (n : Nat) : ofDigitsFrom? 10 0 (digits n) = some n := by
  rw [digits]
  split
  · rename_i h
    simp [ofDigitsFrom?, digitValue?_digitChar h]
  · have ih := ofDigitsFrom?_digits (n / 10)
    rw [ofDigitsFrom?_append, ih]
    simp [ofDigitsFrom?, digitValue?_digitChar (Nat.mod_lt n (by decide))]
    omega
termination_by n

theorem digits_ne_nil (n : Nat) : digits n ≠ [] := by
  rw [digits]; split <;> simp

theorem ofDigits?_digits (n : Nat) : ofDigits? 10 (digits n) = some n := by
  have h := digits_ne_nil n
  have key := ofDigitsFrom?_digits n
  cases hd : digits n with
  | nil => exact absurd hd h
  | cons c cs => rw [hd] at key; simpa [ofDigits?] using key

end ReverseProxy.Text
