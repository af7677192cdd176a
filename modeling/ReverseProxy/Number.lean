/-!
# Ranges of whole numbers

Numbers in documents and durations take at most 64 bits, with or without a sign.
-/

namespace ReverseProxy

/-- Two to the 64: the first natural number that takes more than 64 bits. -/
abbrev wordLimit : Nat := 18446744073709551616

/-- Two to the 63: the first number that takes more than 64 bits with a sign. -/
abbrev signedLimit : Nat := 9223372036854775808

/-- Whether a number takes at most 64 bits with a sign. -/
def fitsSigned (n : Int) : Bool := -(signedLimit : Int) ≤ n && n < (signedLimit : Int)

end ReverseProxy
