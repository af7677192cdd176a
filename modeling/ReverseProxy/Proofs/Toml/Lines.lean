import ReverseProxy.Proofs.Text.Decimal
import ReverseProxy.Toml.Document

/-!
# Lines of a document

A line that holds a key without quotes and a value is read as that pair, a header of an array of
tables begins a section, and empty lines are skipped. Each line uses up one step of the reader and
at least one character, so the steps that a document is given suffice.
-/

namespace ReverseProxy.Toml

open ReverseProxy.Text

/-! ## Keys -/

/-- Whether a key can be written without quotes. -/
def isBare (key : String) : Bool := key.toList ≠ [] && key.toList.all isKeyChar

theorem isBare_iff {key : String} :
    isBare key = true ↔ key.toList ≠ [] ∧ ∀ c ∈ key.toList, isKeyChar c = true := by
  simp [isBare]

theorem dropSpaces_of_not_space {c : Char} (h : isSpace c = false) (cs : List Char) :
    dropSpaces (c :: cs) = c :: cs := by
  simp [dropSpaces, h]

theorem keyChar_ne {c : Char} (h : isKeyChar c = true) :
    c ≠ '"' ∧ c ≠ '\'' ∧ c ≠ ' ' ∧ c ≠ '\t' ∧ c ≠ '#' ∧ c ≠ '\n' ∧ c ≠ '\r' ∧ c ≠ '[' := by
  refine ⟨?_, ?_, ?_, ?_, ?_, ?_, ?_, ?_⟩ <;>
    · rintro rfl
      exact absurd h (by decide)

theorem isSpace_of_keyChar {c : Char} (h : isKeyChar c = true) : isSpace c = false := by
  obtain ⟨-, -, hspace, htab, -⟩ := keyChar_ne h
  simp [isSpace, hspace, htab]

variable {dialect : Dialect}

theorem readSimpleKey_bare {k : List Char} (hne : k ≠ []) (hk : ∀ c ∈ k, isKeyChar c = true)
    {d : Char} (hd : isKeyChar d = false) (r : List Char) :
    readSimpleKey dialect (k ++ d :: r) = some (String.ofList k, d :: r) := by
  have hspan : (k ++ d :: r).takeWhile isKeyChar = k := takeWhile_append_stop hk hd r
  obtain ⟨c, cs, hc⟩ := List.exists_cons_of_ne_nil hne
  obtain ⟨hdouble, hsingle, -⟩ := keyChar_ne (hk c (by simp [hc]))
  unfold readSimpleKey
  split
  · rename_i h
    rw [hc] at h
    exact absurd (List.cons.inj h).1 hdouble
  · rename_i h
    rw [hc] at h
    exact absurd (List.cons.inj h).1 hsingle
  · simp [hspan, hne]

/-- A key of one part, up to what follows its blanks. -/
theorem readKey_bare (dialect : Dialect) {k : List Char} (hne : k ≠ [])
    (hk : ∀ c ∈ k, isKeyChar c = true) {d : Char} (hd : isKeyChar d = false)
    {r r' : List Char} {e : Char}
    (hr : dropSpaces (d :: r) = e :: r') (he : e ≠ '.') (n : Nat) :
    readKey dialect (n + 1) (k ++ d :: r) = some ([String.ofList k], e :: r') := by
  have hstart : dropSpaces (k ++ d :: r) = k ++ d :: r := by
    obtain ⟨c, cs, rfl⟩ := List.exists_cons_of_ne_nil hne
    exact dropSpaces_of_not_space (isSpace_of_keyChar (hk c (List.mem_cons_self ..))) _
  rw [readKey, hstart, readSimpleKey_bare hne hk hd]
  simp only [Option.bind_eq_bind, Option.bind_some, hr]
  split
  · rename_i h
    exact absurd (List.cons.inj h).1 he
  · rfl

/-! ## Lines -/

/-- A line with a key and a value, as it is written. -/
structure Line where
  key : String
  text : List Char
  value : Value

namespace Line

def print (l : Line) : List Char := l.key.toList ++ ' ' :: '=' :: ' ' :: (l.text ++ ['\n'])

/-- Whether the key is without quotes and the value is read from its text. -/
structure Readable (l : Line) : Prop where
  key : isBare l.key = true
  text : ∃ c cs, l.text = c :: cs ∧ isSpace c = false
  value : ∀ fuel depth rest,
    readValue .strict (fuel + 1) depth (l.text ++ '\n' :: rest) = some (l.value, '\n' :: rest)

theorem Readable.readPair {l : Line} (h : l.Readable) (fuel depth : Nat) (rest : List Char) :
    readPair .strict (fuel + 2) depth (l.print ++ rest) =
      some (([l.key], l.value), '\n' :: rest) := by
  obtain ⟨hne, hchars⟩ := isBare_iff.mp h.key
  obtain ⟨c, cs, htext, hc⟩ := h.text
  have hprint : l.print ++ rest =
      l.key.toList ++ ' ' :: ('=' :: ' ' :: (l.text ++ '\n' :: rest)) := by
    simp [print]
  have hkey := readKey_bare .strict hne hchars (d := ' ') (by decide)
    (r := '=' :: ' ' :: (l.text ++ '\n' :: rest)) rfl (by decide) 79
  have hvalue : dropSpaces (' ' :: (l.text ++ '\n' :: rest)) = l.text ++ '\n' :: rest := by
    rw [htext]
    exact dropSpaces_of_not_space hc _
  rw [hprint, Toml.readPair, nestingLimit, hkey]
  simp only [Option.bind_eq_bind, Option.bind_some, hvalue, h.value, Option.map_some,
    String.ofList_toList]

end Line

/-! ## Sections -/

/-- What the lines of a text are read as, with as many steps as it has characters. -/
def Reads (cs : List Char) (result : List Pair × List Section) : Prop :=
  ∀ fuel, cs.length < fuel → readLines .strict fuel cs = some result

/-- A character that is no gap between lines. -/
def opens (c : Char) : Bool := !isSpace c && c ≠ '#' && c ≠ '\n' && c ≠ '\r'

theorem dropComment_of_opens {c : Char} (h : opens c = true) (cs : List Char) :
    dropComment (c :: cs) = c :: cs := by
  unfold dropComment
  split
  · rename_i heq
    rw [(List.cons.inj heq).1] at h
    exact absurd h (by decide)
  · rfl

theorem dropGaps_of_opens {c : Char} (h : opens c = true) (n : Nat) (cs : List Char) :
    dropGaps true n (c :: cs) = c :: cs := by
  have hspace : isSpace c = false := by
    simp only [opens, Bool.and_eq_true, Bool.not_eq_true'] at h
    exact h.1.1.1
  cases n with
  | zero => rfl
  | succ n =>
      rw [dropGaps, dropSpaces_of_not_space hspace]
      simp only [Bool.not_true, Bool.false_eq_true, if_false, dropComment_of_opens h]
      split
      · rename_i heq
        rw [(List.cons.inj heq).1] at h
        exact absurd h (by decide)
      · rename_i heq
        rw [(List.cons.inj heq).1] at h
        exact absurd h (by decide)
      · rfl

theorem Reads.nil : Reads [] ([], []) := by
  intro fuel hfuel
  obtain ⟨n, rfl⟩ : ∃ n, fuel = n + 1 := ⟨fuel - 1, by omega⟩
  rfl

theorem Reads.newline {cs : List Char} {result : List Pair × List Section} (h : Reads cs result) :
    Reads ('\n' :: cs) result := by
  intro fuel hfuel
  rw [List.length_cons] at hfuel
  have hcs := h fuel (by omega)
  obtain ⟨n, rfl⟩ : ∃ n, fuel = n + 1 := ⟨fuel - 1, by omega⟩
  rw [readLines] at hcs ⊢
  exact hcs

theorem opens_of_keyChar {c : Char} (h : isKeyChar c = true) : opens c = true := by
  obtain ⟨-, -, -, -, hhash, hline, hreturn, -⟩ := keyChar_ne h
  simp [opens, isSpace_of_keyChar h, hhash, hline, hreturn]

theorem endLine_newline (cs : List Char) : endLine ('\n' :: cs) = some cs := rfl

theorem Reads.line {cs : List Char} {ps : List Pair} {ss : List Section} (h : Reads cs (ps, ss))
    {l : Line} (hl : l.Readable) :
    Reads (l.print ++ cs) (([l.key], l.value) :: ps, ss) := by
  intro fuel hfuel
  obtain ⟨n, rfl⟩ : ∃ n, fuel = n + 1 := ⟨fuel - 1, by omega⟩
  have hrest := h n (by simp [Line.print] at hfuel; omega)
  obtain ⟨hne, hchars⟩ := isBare_iff.mp hl.key
  obtain ⟨c, r, hc⟩ := List.exists_cons_of_ne_nil hne
  have hkey : isKeyChar c = true := hchars c (by simp [hc])
  have hstart : l.print ++ cs = c :: (r ++ ' ' :: '=' :: ' ' :: (l.text ++ '\n' :: cs)) := by
    simp [Line.print, hc]
  have hpair := hl.readPair (2 * (l.print ++ cs).length) nestingLimit cs
  rw [hstart] at hpair ⊢
  rw [readLines, dropGaps_of_opens (opens_of_keyChar hkey)]
  split
  · rename_i heq
    cases heq
  · rename_i heq
    exact absurd (List.cons.inj heq).1 (keyChar_ne hkey).2.2.2.2.2.2.2
  · rw [hpair]
    simp only [Option.bind_eq_bind, Option.bind_some, endLine_newline, hrest]

theorem Reads.lines {cs : List Char} {ps : List Pair} {ss : List Section} (h : Reads cs (ps, ss))
    {ls : List Line} (hls : ∀ l ∈ ls, l.Readable) :
    Reads (ls.flatMap (·.print) ++ cs) (ls.map (fun l => ([l.key], l.value)) ++ ps, ss) := by
  induction ls with
  | nil => exact h
  | cons l ls ih =>
      obtain ⟨hl, hls⟩ := List.forall_mem_cons.mp hls
      rw [List.flatMap_cons, List.append_assoc]
      exact (ih hls).line hl

/-- The line of a header with a key of one part and without quotes. -/
def printElement (k : String) : List Char := '[' :: '[' :: (k.toList ++ [']', ']', '\n'])

theorem readHeader_element {k : String} (hk : isBare k = true) (cs : List Char) :
    readHeader .strict ('[' :: (k.toList ++ ']' :: ']' :: '\n' :: cs)) =
      some (.element [k], cs) := by
  obtain ⟨hne, hchars⟩ := isBare_iff.mp hk
  have hkey := readKey_bare .strict hne hchars (d := ']') (by decide)
    (r := ']' :: '\n' :: cs) rfl (by decide) 79
  rw [readHeader.eq_1, nestingLimit, hkey]
  simp only [Option.bind_eq_bind, Option.bind_some, endLine_newline, String.ofList_toList]

theorem Reads.element {cs : List Char} {ps : List Pair} {ss : List Section}
    (h : Reads cs (ps, ss)) {k : String} (hk : isBare k = true) :
    Reads (printElement k ++ cs) ([], ⟨.element [k], ps⟩ :: ss) := by
  intro fuel hfuel
  obtain ⟨n, rfl⟩ : ∃ n, fuel = n + 1 := ⟨fuel - 1, by omega⟩
  have hrest := h n (by simp [printElement] at hfuel; omega)
  have hstart : printElement k ++ cs = '[' :: '[' :: (k.toList ++ ']' :: ']' :: '\n' :: cs) := by
    simp [printElement]
  rw [hstart, readLines, dropGaps_of_opens (by decide)]
  split
  · rename_i heq
    cases heq
  · rename_i heq
    cases heq
    rw [readHeader_element hk]
    simp only [Option.bind_eq_bind, Option.bind_some, hrest]
  · rename_i hbracket
    exact absurd rfl (hbracket _)

end ReverseProxy.Toml
