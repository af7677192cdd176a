import ReverseProxy.Proofs.Toml.Datetime
import ReverseProxy.Proofs.Toml.Integer
import ReverseProxy.Proofs.Toml.Lines
import ReverseProxy.Proofs.Toml.Quoted

/-!
# Lines for values

Lines that hold a string, an integer or a date-time as it is written are read as that value.
-/

namespace ReverseProxy.Toml

open ReverseProxy.Text ReverseProxy.Time

/-! ## Values at the end of a line -/

section Values

variable {dialect : Dialect} {c : Char}

theorem readValue_scalar (hbracket : c ≠ '[') (hbrace : c ≠ '{') (fuel depth : Nat)
    (cs : List Char) :
    readValue dialect (fuel + 1) depth (c :: cs) = readScalar dialect (c :: cs) := by
  rw [readValue.eq_def]
  split
  · rename_i h
    cases h
  · rename_i h
    cases h
    exact absurd rfl hbracket
  · rename_i h
    cases h
    exact absurd rfl hbrace
  · rfl

theorem readScalar_word (hdouble : c ≠ '"') (hsingle : c ≠ '\'') (cs : List Char) :
    readScalar dialect (c :: cs) = readWord dialect (c :: cs) := by
  unfold readScalar
  split
  · rename_i h
    exact absurd (List.cons.inj h).1 hdouble
  · rename_i h
    exact absurd (List.cons.inj h).1 hsingle
  · rfl

theorem readScalar_string {q : Char} (hq : q = '"' ∨ q = '\'') (cs : List Char) :
    readScalar dialect (q :: cs) =
      (readString dialect (q :: cs)).map fun (s, r) => (.string (String.ofList s), r) := by
  rcases hq with rfl | rfl <;> rfl

theorem quoteAs_head (form : Form) (s : List Char) :
    ∃ q cs, quoteAs form s = q :: cs ∧ (q = '"' ∨ q = '\'') := by
  cases form with
  | basic => exact ⟨_, _, rfl, .inl rfl⟩
  | literal => exact ⟨_, _, rfl, .inr rfl⟩
  | basicLines => exact ⟨_, _, rfl, .inl rfl⟩
  | literalLines => exact ⟨_, _, rfl, .inr rfl⟩

theorem readWord_universal {d : Date} {t : ClockTime} (hd : d.isValid = true)
    (hy : 0 ≤ d.year ∧ d.year ≤ 9999) (ht : t.isValid = true) (rest : List Char) :
    readWord dialect ((Datetime.universal d t).print ++ rest) =
      some (.datetime (.universal d t), rest) := by
  rw [readWord, Datetime.read_universal dialect.lenient hd hy ht]

end Values

/-! ## Lines -/

namespace Line

def ofString (key s : String) : Line := ⟨key, quoteAs (formOf s.toList) s.toList, .string s⟩

def ofInteger (key : String) (n : Int) : Line := ⟨key, (signedDecimal n).toList, .integer n⟩

def ofDatetime (key : String) (dt : Datetime) : Line := ⟨key, dt.print, .datetime dt⟩

theorem readable_ofString {key : String} (hkey : isBare key = true) (s : String) :
    (ofString key s).Readable := by
  obtain ⟨q, cs, htext, hq⟩ := quoteAs_head (formOf s.toList) s.toList
  constructor
  · exact hkey
  · exact ⟨q, cs, htext, by rcases hq with rfl | rfl <;> decide⟩
  · intro fuel depth rest
    have hread : readString .strict (q :: (cs ++ '\n' :: rest)) =
        some (s.toList, '\n' :: rest) := by
      rw [← List.cons_append, ← htext]
      exact readString_quoteAs s.toList rest
    have hstart : (ofString key s).text ++ '\n' :: rest = q :: (cs ++ '\n' :: rest) := by
      rw [← List.cons_append, ← htext]
      rfl
    have hbracket : q ≠ '[' ∧ q ≠ '{' := by rcases hq with rfl | rfl <;> decide
    rw [hstart, readValue_scalar hbracket.1 hbracket.2, readScalar_string hq, hread]
    simp [ofString]

/-- A line whose value is neither quoted nor bracketed. -/
theorem readable_word {l : Line} (hkey : isBare l.key = true) {c : Char} {cs : List Char}
    (htext : l.text = c :: cs) (hc : isDigit c = true ∨ c = '-')
    (hread : ∀ rest, readWord .strict (l.text ++ '\n' :: rest) = some (l.value, '\n' :: rest)) :
    l.Readable := by
  have hchar : isSpace c = false ∧ c ≠ '[' ∧ c ≠ '{' ∧ c ≠ '"' ∧ c ≠ '\'' := by
    rcases hc with hc | rfl
    · exact forall_isDigit
        (P := fun c => isSpace c = false ∧ c ≠ '[' ∧ c ≠ '{' ∧ c ≠ '"' ∧ c ≠ '\'') (by decide) hc
    · decide
  obtain ⟨hspace, hbracket, hbrace, hdouble, hsingle⟩ := hchar
  constructor
  · exact hkey
  · exact ⟨c, cs, htext, hspace⟩
  · intro fuel depth rest
    have hword := hread rest
    rw [htext, List.cons_append] at hword ⊢
    rw [readValue_scalar hbracket hbrace, readScalar_word hdouble hsingle, hword]

theorem readable_ofInteger {key : String} (hkey : isBare key = true) {n : Int}
    (hn : fitsSigned n = true) : (ofInteger key n).Readable := by
  have hhead : ∃ c cs, (ofInteger key n).text = c :: cs ∧ (isDigit c = true ∨ c = '-') := by
    simp only [ofInteger, toList_signedDecimal]
    split
    · exact ⟨_, _, rfl, .inr rfl⟩
    · obtain ⟨c, cs, hc⟩ := List.exists_cons_of_ne_nil (digits_ne_nil n.natAbs)
      exact ⟨c, cs, hc, .inl (isDigit_of_mem_digits (by rw [hc]; exact List.mem_cons_self ..))⟩
  obtain ⟨c, cs, htext, hc⟩ := hhead
  exact readable_word hkey htext hc (readWord_signedDecimal hn)

theorem readable_ofDatetime {key : String} (hkey : isBare key = true) {d : Date} {t : ClockTime}
    (hd : d.isValid = true) (hy : 0 ≤ d.year ∧ d.year ≤ 9999) (ht : t.isValid = true) :
    (ofDatetime key (.universal d t)).Readable := by
  have hne : padded 4 d.year.toNat ≠ [] := by
    simp [padded, digits_ne_nil]
  obtain ⟨c, cs, hc⟩ := List.exists_cons_of_ne_nil hne
  have hhead : ∃ r, (ofDatetime key (.universal d t)).text = c :: r := by
    simp only [ofDatetime, Datetime.print_universal, printDate, hc, List.cons_append]
    exact ⟨_, rfl⟩
  obtain ⟨r, htext⟩ := hhead
  have hdigit : isDigit c = true := isDigit_of_mem_padded (hc ▸ List.mem_cons_self ..)
  exact readable_word hkey htext (.inl hdigit) fun rest => readWord_universal hd hy ht _

end Line

/-! ## Strings without escapes -/

/-- Whether a character stands for itself between double quotes. -/
def isUnescaped (c : Char) : Bool := isPlain c && c ≠ '"' && c ≠ '\\'

section Unescaped

variable {s : List Char}

theorem readBasic_unescaped {dialect : Dialect} (h : ∀ c ∈ s, isUnescaped c = true)
    (rest : List Char) : readBasic dialect (s ++ '"' :: rest) = some (s, rest) := by
  induction s with
  | nil => rw [List.nil_append, readBasic]
  | cons c s ih =>
      obtain ⟨hc, hs⟩ := List.forall_mem_cons.mp h
      simp only [isUnescaped, Bool.and_eq_true, decide_eq_true_eq] at hc
      obtain ⟨⟨hplain, hquote⟩, hback⟩ := hc
      rw [List.cons_append, readBasic_plain hplain hquote hback, ih hs]
      rfl

/-- The line of a string that is written between double quotes without any escape. -/
theorem Line.readable_unescaped {key : String} (hkey : isBare key = true)
    (h : ∀ c ∈ s, isUnescaped c = true) :
    Line.Readable ⟨key, '"' :: (s ++ ['"']), .string (String.ofList s)⟩ := by
  refine ⟨hkey, ⟨_, _, rfl, by decide⟩, fun fuel depth rest => ?_⟩
  have hone : ∀ r, s ++ '"' :: '\n' :: rest ≠ '"' :: '"' :: r := by
    intro r hr
    cases s with
    | nil => exact absurd (List.cons.inj (List.cons.inj hr).2).1 (by decide)
    | cons c s =>
        obtain rfl := (List.cons.inj hr).1
        exact absurd (h _ List.mem_cons_self) (by decide)
  have hread : readString .strict ('"' :: (s ++ '"' :: '\n' :: rest)) =
      some (s, '\n' :: rest) := by
    rw [readString_oneLine hone]
    exact readBasic_unescaped h ('\n' :: rest)
  have hstart : ('"' :: (s ++ ['"'])) ++ '\n' :: rest = '"' :: (s ++ '"' :: '\n' :: rest) := by
    simp
  rw [hstart, readValue_scalar (by decide) (by decide), readScalar_string (.inl rfl), hread]
  rfl

end Unescaped

end ReverseProxy.Toml
