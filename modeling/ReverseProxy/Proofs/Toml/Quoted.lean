import ReverseProxy.Proofs.Toml.Escape

/-!
# Strings read back

Whatever a string holds, it is read back from the form it is written in.
-/

namespace ReverseProxy.Toml

open ReverseProxy.Text

variable {dialect : Dialect}

/-! ## Basic strings -/

theorem readBasic_escape {e r s' r' : List Char} {c : Char}
    (he : readEscape dialect e = some (c, r)) (hr : readBasic dialect r = some (s', r')) :
    readBasic dialect ('\\' :: e) = some (c :: s', r') := by
  rw [readBasic]
  split
  · rename_i c' r'' h
    rw [he] at h
    cases h
    rw [hr]
    rfl
  · rename_i h
    rw [he] at h
    cases h

theorem readBasic_plain {c : Char} (hplain : isPlain c = true) (hquote : c ≠ '"')
    (hback : c ≠ '\\') (cs : List Char) :
    readBasic dialect (c :: cs) = (readBasic dialect cs).map fun (s, r) => (c :: s, r) := by
  rw [readBasic.eq_4 _ _ _ (fun h => hquote h) (fun h => hback h), if_pos hplain]

theorem readBasic_escapeFrom (s : List Char) (run : Nat) (rest : List Char) :
    readBasic dialect (escapeFrom false run s ++ '"' :: rest) = some (s, rest) := by
  induction s generalizing run with
  | nil => rw [escapeFrom, List.nil_append, readBasic]
  | cons c cs ih =>
      rcases escapeFrom_cons false run c cs with ⟨-, -, hlines, -⟩ | ⟨-, hlines, -⟩ |
        ⟨e, he, hread⟩ | ⟨hplain, hback, hquote, he⟩
      · cases hlines
      · cases hlines
      · rw [he, List.cons_append, List.append_assoc]
        exact readBasic_escape (hread _ _) (ih 0)
      · rw [he, List.cons_append, readBasic_plain hplain hquote hback, ih 0]
        rfl

/-! ## Closing quotes -/

section Closing

variable {q : Char}

theorem takeWhile_replicate_ne {k : Nat} {d : Char} (hd : d ≠ q) (r : List Char) :
    (List.replicate k q ++ d :: r).takeWhile (· = q) = List.replicate k q :=
  takeWhile_append_stop (by simp) (by simpa using hd) r

/-- Quotes before the closing ones belong to the string. -/
theorem closing_replicate {k : Nat} (hk : k ≤ 2) {d : Char} (hd : d ≠ q) (r : List Char) :
    closing q (List.replicate k q ++ q :: q :: q :: d :: r) =
      some (List.replicate k q, d :: r) := by
  have hall : List.replicate k q ++ q :: q :: q :: d :: r = List.replicate (k + 3) q ++ d :: r := by
    rw [show q :: q :: q :: d :: r = List.replicate 3 q ++ d :: r from rfl, ← List.append_assoc,
      List.replicate_append_replicate]
  have hinner : min (k + 3 - 3) 2 = k := by omega
  rw [hall, closing, takeWhile_replicate_ne hd, List.length_replicate, if_neg (by omega)]
  simp only [hinner]
  rw [List.drop_left' (List.length_replicate ..)]

theorem closing_eq_none {k : Nat} (hk : k ≤ 2) {d : Char} (hd : d ≠ q) (r : List Char) :
    closing q (List.replicate k q ++ d :: r) = none := by
  rw [closing, takeWhile_replicate_ne hd, List.length_replicate, if_pos (by omega)]

end Closing

/-! ## Strings over several lines -/

/-- What may stand in a string over several lines. -/
def spans (c : Char) : Bool := isPlain c || c = '\n'

theorem spans_iff {c : Char} : spans c = true ↔ isPlain c = true ∨ c = '\n' := by
  simp [spans]

theorem spans_ne_return {c : Char} (h : spans c = true) : c ≠ '\r' := by
  rintro rfl
  exact absurd h (by decide)

theorem readBasicLines_closed {cs : List Char} {done : List Char × List Char}
    (h : closing '"' cs = some done) : readBasicLines dialect cs = some done := by
  rw [readBasicLines.eq_def, h]

theorem readBasicLines_escape {e r s' r' : List Char} {c : Char}
    (he : readEscape dialect e = some (c, r)) (hr : readBasicLines dialect r = some (s', r')) :
    readBasicLines dialect ('\\' :: e) = some (c :: s', r') := by
  have hopen : closing '"' ('\\' :: e) = none :=
    closing_eq_none (k := 0) (by decide) (by decide) e
  rw [readBasicLines.eq_def, hopen]
  dsimp only
  split
  · rename_i h
    cases h
  · rename_i h
    exact absurd (List.cons.inj h).1 (by decide)
  · rename_i h
    cases h
    split
    · rename_i c' r'' h
      rw [he] at h
      cases h
      rw [hr]
      rfl
    · rename_i h
      rw [he] at h
      cases h
  · rename_i hback h
    cases h
    exact absurd rfl hback

theorem readBasicLines_plain {c : Char} {cs s' r' : List Char}
    (hopen : closing '"' (c :: cs) = none) (hspans : spans c = true) (hback : c ≠ '\\')
    (hr : readBasicLines dialect cs = some (s', r')) :
    readBasicLines dialect (c :: cs) = some (c :: s', r') := by
  rw [readBasicLines.eq_def, hopen]
  dsimp only
  split
  · rename_i h
    cases h
  · rename_i h
    exact absurd (List.cons.inj h).1 (spans_ne_return hspans)
  · rename_i h
    exact absurd (List.cons.inj h).1 hback
  · rename_i h
    cases h
    simp [spans_iff.mp hspans, hr]

theorem readBasicLines_escapeFrom (dialect : Dialect) (s : List Char) (run : Nat) {d : Char}
    (hd : d ≠ '"') (rest : List Char) :
    readBasicLines dialect (escapeFrom true run s ++ '"' :: '"' :: '"' :: d :: rest) =
      some (s, d :: rest) := by
  induction s generalizing run with
  | nil => exact readBasicLines_closed (closing_replicate (k := 0) (by decide) hd rest)
  | cons c cs ih =>
      -- If only quotes are left, they and the closing ones are read at once; otherwise at most two
      -- lead, and the string goes on.
      obtain ⟨k, hk, hall | ⟨e, r, he, hlead⟩⟩ := leadsWithin_escapeFrom run (c :: cs)
      · rw [hall, eq_replicate_of_escapeFrom hall]
        exact readBasicLines_closed (closing_replicate (by omega) hd rest)
      · have hopen : closing '"' (escapeFrom true run (c :: cs) ++ '"' :: '"' :: '"' :: d :: rest) =
            none := by
          rw [hlead, List.append_assoc]
          exact closing_eq_none (by omega) he _
        rcases escapeFrom_cons true run c cs with ⟨hc, -, -, hb⟩ | ⟨hc, -, hb⟩ |
          ⟨x, hb, hread⟩ | ⟨hplain, hback, -, hb⟩
        · rw [hb] at hopen ⊢
          exact readBasicLines_plain hopen (by rw [hc]; decide) (by rw [hc]; decide) (ih (run + 1))
        · rw [hb] at hopen ⊢
          exact readBasicLines_plain hopen (by rw [hc]; decide) (by rw [hc]; decide) (ih 0)
        · rw [hb, List.cons_append, List.append_assoc]
          exact readBasicLines_escape (hread _ _) (ih 0)
        · rw [hb] at hopen ⊢
          exact readBasicLines_plain hopen (spans_iff.mpr (.inl hplain)) hback (ih 0)

/-! ## Literal strings -/

theorem readLiteral_append {s : List Char} (hplain : ∀ c ∈ s, isPlain c = true)
    (hquote : ∀ c ∈ s, c ≠ '\'') (rest : List Char) :
    readLiteral (s ++ '\'' :: rest) = some (s, rest) := by
  induction s with
  | nil => rfl
  | cons c cs ih =>
      obtain ⟨hc, hcs⟩ := List.forall_mem_cons.mp hplain
      obtain ⟨hq, hqs⟩ := List.forall_mem_cons.mp hquote
      rw [List.cons_append, readLiteral.eq_3 _ _ hq, if_pos hc, ih hcs hqs]
      rfl

theorem readLiteralLines_closed {cs : List Char} {done : List Char × List Char}
    (h : closing '\'' cs = some done) : readLiteralLines cs = some done := by
  rw [readLiteralLines.eq_def, h]

theorem readLiteralLines_plain {c : Char} {cs s' r' : List Char}
    (hopen : closing '\'' (c :: cs) = none) (hspans : spans c = true)
    (hr : readLiteralLines cs = some (s', r')) :
    readLiteralLines (c :: cs) = some (c :: s', r') := by
  rw [readLiteralLines.eq_def, hopen]
  dsimp only
  split
  · rename_i h
    cases h
  · rename_i h
    exact absurd (List.cons.inj h).1 (spans_ne_return hspans)
  · rename_i h
    cases h
    simp [spans_iff.mp hspans, hr]

theorem readLiteralLines_append {s : List Char} (hspans : ∀ c ∈ s, spans c = true) {run : Nat}
    (hruns : runsWithin '\'' 2 run s) {d : Char} (hd : d ≠ '\'') (rest : List Char) :
    readLiteralLines (s ++ '\'' :: '\'' :: '\'' :: d :: rest) = some (s, d :: rest) := by
  induction s generalizing run with
  | nil => exact readLiteralLines_closed (closing_replicate (k := 0) (by decide) hd rest)
  | cons c cs ih =>
      obtain ⟨hc, hcs⟩ := List.forall_mem_cons.mp hspans
      obtain ⟨k, hk, hall | ⟨e, r, he, hlead⟩⟩ := leadsWithin_of_runsWithin hruns
      · rw [hall]
        exact readLiteralLines_closed (closing_replicate (by omega) hd rest)
      · have hopen : closing '\'' (c :: cs ++ '\'' :: '\'' :: '\'' :: d :: rest) = none := by
          rw [hlead, List.append_assoc]
          exact closing_eq_none (by omega) he _
        have hrest : ∃ run, runsWithin '\'' 2 run cs := by
          unfold runsWithin at hruns
          split at hruns
          · exact ⟨_, hruns.2⟩
          · exact ⟨_, hruns⟩
        obtain ⟨run', hrest⟩ := hrest
        exact readLiteralLines_plain hopen hc (ih hcs hrest)

/-! ## All forms -/

theorem dropNewline_of_ne {c : Char} (hline : c ≠ '\n') (hreturn : c ≠ '\r') (cs : List Char) :
    dropNewline (c :: cs) = c :: cs := by
  unfold dropNewline
  split
  · rename_i h
    exact absurd (List.cons.inj h).1 hline
  · rename_i h
    exact absurd (List.cons.inj h).1 hreturn
  · rfl

theorem dropNewline_escapeFrom {s : List Char} (hline : '\n' ∉ s) (r : List Char) :
    dropNewline (escapeFrom true 0 s ++ '"' :: r) = escapeFrom true 0 s ++ '"' :: r := by
  cases s with
  | nil => exact dropNewline_of_ne (by decide) (by decide) r
  | cons c cs =>
      have hc : c ≠ '\n' := fun h => hline (by simp [h])
      rcases escapeFrom_cons true 0 c cs with ⟨hquote, -, -, he⟩ | ⟨h, -, -⟩ |
        ⟨e, he, -⟩ | ⟨hplain, -, -, he⟩
      · rw [he, hquote]
        exact dropNewline_of_ne (by decide) (by decide) _
      · exact absurd h hc
      · rw [he]
        exact dropNewline_of_ne (by decide) (by decide) _
      · rw [he]
        exact dropNewline_of_ne hc (spans_ne_return (spans_iff.mpr (.inl hplain))) _

theorem readString_oneLine {q : Char} {cs : List Char} (h : ∀ r, cs ≠ q :: q :: r) :
    readString dialect (q :: cs) = readOneLine dialect (q :: cs) := by
  unfold readString
  split
  · rename_i heq
    cases heq
    exact absurd rfl (h _)
  · rename_i heq
    cases heq
    exact absurd rfl (h _)
  · rfl

theorem escapeFrom_head (c : Char) (cs : List Char) :
    ∃ d r, d ≠ '"' ∧ escapeFrom false 0 (c :: cs) = d :: r := by
  rcases escapeFrom_cons false 0 c cs with ⟨-, -, h, -⟩ | ⟨-, h, -⟩ | ⟨e, he, -⟩ |
    ⟨-, -, hquote, he⟩
  · cases h
  · cases h
  · exact ⟨_, _, by decide, he⟩
  · exact ⟨_, _, hquote, he⟩

theorem readString_basic (s rest : List Char) :
    readString dialect (quoteAs .basic s ++ '\n' :: rest) = some (s, '\n' :: rest) := by
  have hform : quoteAs .basic s ++ '\n' :: rest =
      '"' :: (escapeFrom false 0 s ++ '"' :: '\n' :: rest) := by
    simp [quoteAs, Form.quotes, Form.spansLines, Form.hasEscapes]
  have hone : ∀ r, escapeFrom false 0 s ++ '"' :: '\n' :: rest ≠ '"' :: '"' :: r := by
    intro r h
    cases s with
    -- An empty string is two quotes, which the end of the line keeps from being three.
    | nil => exact absurd (List.cons.inj (List.cons.inj h).2).1 (by decide)
    | cons c cs =>
        obtain ⟨d, e, hd, he⟩ := escapeFrom_head c cs
        rw [he] at h
        exact hd (List.cons.inj h).1
  rw [hform, readString_oneLine hone]
  exact readBasic_escapeFrom s 0 ('\n' :: rest)

theorem readString_literal {s : List Char} (hspans : ∀ c ∈ s, spans c = true)
    (hquote : longestRun '\'' s = 0) (hline : '\n' ∉ s) (rest : List Char) :
    readString dialect (quoteAs .literal s ++ '\n' :: rest) = some (s, '\n' :: rest) := by
  have hform : quoteAs .literal s ++ '\n' :: rest = '\'' :: (s ++ '\'' :: '\n' :: rest) := by
    simp [quoteAs, Form.quotes, Form.spansLines, Form.hasEscapes]
  have hne : ∀ c ∈ s, c ≠ '\'' :=
    ne_of_runsWithin_zero (runsWithin_of_longestRun (Nat.le_of_eq hquote))
  have hplain : ∀ c ∈ s, isPlain c = true := by
    intro c hc
    rcases spans_iff.mp (hspans c hc) with h | rfl
    · exact h
    · exact absurd hc hline
  have hone : ∀ r, s ++ '\'' :: '\n' :: rest ≠ '\'' :: '\'' :: r := by
    intro r h
    cases s with
    | nil => exact absurd (List.cons.inj (List.cons.inj h).2).1 (by decide)
    | cons c cs => exact hne c (List.mem_cons_self ..) (List.cons.inj h).1
  rw [hform, readString_oneLine hone]
  exact readLiteral_append hplain hne ('\n' :: rest)

theorem readString_basicLines (s rest : List Char) :
    readString dialect (quoteAs .basicLines s ++ '\n' :: rest) = some (s, '\n' :: rest) := by
  have hform : quoteAs .basicLines s ++ '\n' :: rest =
      '"' :: '"' :: '"' :: ((if s.contains '\n' then ['\n'] else []) ++
        (escapeFrom true 0 s ++ '"' :: '"' :: '"' :: '\n' :: rest)) := by
    simp [quoteAs, Form.quotes, Form.spansLines, Form.hasEscapes]
  have hread := readBasicLines_escapeFrom dialect s 0 (by decide : '\n' ≠ '"') rest
  rw [hform, readString]
  cases hline : s.contains '\n' with
  | true => exact hread
  | false =>
      have hnone : '\n' ∉ s := by simpa using hline
      simp only [Bool.false_eq_true, if_false, List.nil_append]
      rw [dropNewline_escapeFrom hnone]
      exact hread

theorem dropNewline_append {s : List Char} (hspans : ∀ c ∈ s, spans c = true) (hline : '\n' ∉ s)
    (r : List Char) : dropNewline (s ++ '\'' :: r) = s ++ '\'' :: r := by
  cases s with
  | nil => exact dropNewline_of_ne (by decide) (by decide) r
  | cons c cs =>
      have hc : c ≠ '\n' := fun h => hline (by simp [h])
      exact dropNewline_of_ne hc (spans_ne_return (hspans c (List.mem_cons_self ..))) _

theorem readString_literalLines {s : List Char} (hspans : ∀ c ∈ s, spans c = true)
    (hruns : longestRun '\'' s ≤ 2) (rest : List Char) :
    readString dialect (quoteAs .literalLines s ++ '\n' :: rest) = some (s, '\n' :: rest) := by
  have hform : quoteAs .literalLines s ++ '\n' :: rest =
      '\'' :: '\'' :: '\'' :: ((if s.contains '\n' then ['\n'] else []) ++
        (s ++ '\'' :: '\'' :: '\'' :: '\n' :: rest)) := by
    simp [quoteAs, Form.quotes, Form.spansLines, Form.hasEscapes]
  have hread := readLiteralLines_append hspans (runsWithin_of_longestRun hruns)
    (by decide : '\n' ≠ '\'') rest
  rw [hform, readString]
  cases hline : s.contains '\n' with
  | true => exact hread
  | false =>
      have hnone : '\n' ∉ s := by simpa using hline
      simp only [Bool.false_eq_true, if_false, List.nil_append]
      rw [dropNewline_append hspans hnone]
      exact hread

/-- What the form that a string is written in says about its characters. -/
theorem formOf_cases (s : List Char) :
    formOf s = .basic ∨ formOf s = .basicLines ∨
      (∀ c ∈ s, needsEscape c = false) ∧
        (formOf s = .literal ∧ longestRun '\'' s = 0 ∧ '\n' ∉ s ∨
          formOf s = .literalLines ∧ longestRun '\'' s ≤ 2) := by
  simp only [formOf]
  split
  · exact .inl rfl
  split
  · rename_i h
    simp only [List.contains_eq_mem, Bool.and_eq_true, Bool.not_eq_eq_eq_not, Bool.not_true,
      List.any_eq_false, Bool.not_eq_true, decide_eq_true_eq, decide_eq_false_iff_not] at h
    exact .inr (.inr ⟨h.1.1, .inl ⟨rfl, h.1.2, h.2⟩⟩)
  split
  · exact .inr (.inl rfl)
  split
  · rename_i h
    simp only [Bool.and_eq_true, Bool.not_eq_eq_eq_not, Bool.not_true, List.any_eq_false,
      Bool.not_eq_true, decide_eq_true_eq] at h
    exact .inr (.inr ⟨h.1, .inr ⟨rfl, h.2⟩⟩)
  split
  · exact .inr (.inl rfl)
  · exact .inl rfl

theorem spans_of_unescaped {c : Char} (h : needsEscape c = false) : spans c = true := by
  by_cases htab : c = '\t'
  · subst htab
    decide
  by_cases hline : c = '\n'
  · subst hline
    decide
  simp only [needsEscape, ne_eq, htab, not_false_eq_true, decide_true, hline, Bool.and_self,
    Bool.true_and, Bool.or_eq_false_iff, decide_eq_false_iff_not, Char.not_le] at h
  exact spans_iff.mpr (.inl (isPlain_of_not_control (Char.not_le.mpr h.1) h.2))

/-- A string is read back from the form it is written in, at the end of a line. -/
theorem readString_quoteAs (s rest : List Char) :
    readString dialect (quoteAs (formOf s) s ++ '\n' :: rest) = some (s, '\n' :: rest) := by
  rcases formOf_cases s with hform | hform | ⟨hcodes, hform⟩
  · rw [hform]
    exact readString_basic s rest
  · rw [hform]
    exact readString_basicLines s rest
  · have hspans : ∀ c ∈ s, spans c = true := fun c hc => spans_of_unescaped (hcodes c hc)
    rcases hform with ⟨hform, hquote, hline⟩ | ⟨hform, hruns⟩
    · rw [hform]
      exact readString_literal hspans hquote hline rest
    · rw [hform]
      exact readString_literalLines hspans hruns rest

end ReverseProxy.Toml
