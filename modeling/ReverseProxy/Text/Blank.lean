/-!
# Blanks and letter case

The characters Unicode counts as white space, trimming by them, and comparison of ASCII text that
ignores letter case.
-/

namespace ReverseProxy.Text

/-- The characters with the Unicode property `White_Space`. -/
def isBlank (c : Char) : Bool :=
  let n := c.toNat
  (9 ≤ n && n ≤ 13) || n = 0x20 || n = 0x85 || n = 0xA0 || n = 0x1680 ||
  (0x2000 ≤ n && n ≤ 0x200A) || n = 0x2028 || n = 0x2029 || n = 0x202F || n = 0x205F || n = 0x3000

def trim (cs : List Char) : List Char :=
  ((cs.dropWhile isBlank).reverse.dropWhile isBlank).reverse

def trimmed (s : String) : String := String.ofList (trim s.toList)

/-- Letters `A` to `Z` in lower case, all other characters as they are. -/
def lowered (s : String) : String := String.ofList (s.toList.map Char.toLower)

def sameLetters (a b : List Char) : Bool := a.map Char.toLower == b.map Char.toLower

/-- Splits at every occurrence of `sep`; there is always at least one piece. -/
def splitAtChar (sep : Char) : List Char → List (List Char)
  | [] => [[]]
  | c :: cs =>
    if c = sep then [] :: splitAtChar sep cs
    else match splitAtChar sep cs with
      | [] => [[c]]
      | p :: ps => (c :: p) :: ps

theorem splitAtChar_ne_nil (sep : Char) (cs : List Char) : splitAtChar sep cs ≠ [] := by
  induction cs with
  | nil => simp [splitAtChar]
  | cons c cs ih =>
    by_cases h : c = sep
    · simp [splitAtChar, h]
    · cases hs : splitAtChar sep cs with
      | nil => exact absurd hs ih
      | cons p ps => simp [splitAtChar, h, hs]

end ReverseProxy.Text
