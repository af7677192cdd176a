import ReverseProxy.Proofs.Droplet.Toml
import ReverseProxy.Proofs.Toml.Assembly
import ReverseProxy.Proofs.Toml.Grammar

/-!
# When a droplet was started

The start of a droplet may be written as a date-time and as a text. Both are read, as one and the same
moment, exactly if the date-time has a date, a time and an offset (`parse_started`).
-/

namespace ReverseProxy

namespace Toml

open ReverseProxy.Text

/-! ## Literals -/

theorem isUnescaped_padded (w n : Nat) : ∀ c ∈ padded w n, isUnescaped c = true := fun _ hc =>
  forall_isDigit (P := fun c => isUnescaped c = true) (by decide) (isDigit_of_mem_padded hc)

/-- The characters of a literal stand for themselves between double quotes. -/
theorem DateLiteral.isUnescaped_text (x : DateLiteral) : ∀ c ∈ x.text, isUnescaped c = true := by
  simp only [text, List.append_assoc, List.cons_append, List.forall_mem_append, List.forall_mem_cons]
  exact ⟨isUnescaped_padded _ _, by decide, isUnescaped_padded _ _, by decide,
    isUnescaped_padded _ _⟩

theorem TimeLiteral.isUnescaped_text (x : TimeLiteral) : ∀ c ∈ x.text, isUnescaped c = true := by
  have hfraction : ∀ c ∈ x.fractionText, isUnescaped c = true := by
    rw [fractionText]
    split
    · exact List.forall_mem_nil _
    · refine List.forall_mem_cons.mpr ⟨by decide, fun c hc => ?_⟩
      exact forall_isDigit (P := fun c => isUnescaped c = true) (by decide) (x.digits c hc)
  simp only [text, List.forall_mem_append, List.forall_mem_cons]
  exact ⟨isUnescaped_padded _ _, by decide, isUnescaped_padded _ _, by decide,
    isUnescaped_padded _ _, hfraction⟩

theorem ZoneLiteral.isUnescaped_text (x : ZoneLiteral) : ∀ c ∈ x.text, isUnescaped c = true := by
  cases x with
  | universal letter hletter =>
      rcases hletter with rfl | rfl <;> exact List.forall_mem_cons.mpr ⟨by decide, List.forall_mem_nil _⟩
  | ahead | behind =>
      simp only [text, List.forall_mem_append, List.forall_mem_cons]
      exact ⟨by decide, isUnescaped_padded _ _, by decide, isUnescaped_padded _ _⟩

theorem isUnescaped_separator {c : Char} (h : c = 'T' ∨ c = 't' ∨ c = ' ') :
    isUnescaped c = true := by
  rcases h with rfl | rfl | rfl <;> decide

theorem OffsetLiteral.isUnescaped_text (x : OffsetLiteral) : ∀ c ∈ x.text, isUnescaped c = true := by
  simp only [text, List.forall_mem_append, List.forall_mem_cons]
  exact ⟨x.date.isUnescaped_text, isUnescaped_separator x.isSeparator, x.time.isUnescaped_text,
    x.zone.isUnescaped_text⟩

theorem LocalLiteral.isUnescaped_text (x : LocalLiteral) : ∀ c ∈ x.text, isUnescaped c = true := by
  cases x with
  | datetime d separator hseparator t =>
      simp only [text, List.forall_mem_append, List.forall_mem_cons]
      exact ⟨d.isUnescaped_text, isUnescaped_separator hseparator, t.isUnescaped_text⟩
  | date d => exact d.isUnescaped_text
  | time t => exact t.isUnescaped_text

/-- A text that begins with a digit and is read as a date-time up to the end of the line. -/
structure IsDatetime (text : List Char) (value : Datetime) : Prop where
  head : ∃ c cs, text = c :: cs ∧ isDigit c = true
  read : ∀ rest, Datetime.read false (text ++ '\n' :: rest) = some (value, '\n' :: rest)

theorem exists_padded (w n : Nat) (rest : List Char) :
    ∃ c cs, padded w n ++ rest = c :: cs ∧ isDigit c = true := by
  have hne : padded w n ≠ [] := by
    simp [padded, digits_ne_nil]
  obtain ⟨c, cs, hc⟩ := List.exists_cons_of_ne_nil hne
  exact ⟨c, cs ++ rest, by rw [hc, List.cons_append], isDigit_of_mem_padded (hc ▸ List.mem_cons_self)⟩

theorem OffsetLiteral.isDatetime (x : OffsetLiteral) : IsDatetime x.text x.value := by
  refine ⟨?_, fun rest => x.read_text false _⟩
  simp only [text, DateLiteral.text, List.append_assoc]
  exact exists_padded _ _ _

theorem LocalLiteral.isDatetime (x : LocalLiteral) : IsDatetime x.text x.value := by
  refine ⟨?_, x.read_text false⟩
  cases x with
  | datetime | date =>
      simp only [text, DateLiteral.text, List.append_assoc]
      exact exists_padded _ _ _
  | time => exact exists_padded _ _ _

theorem IsDatetime.readable {key : String} {text : List Char} {value : Datetime}
    (h : IsDatetime text value) (hkey : isBare key = true) :
    Line.Readable ⟨key, text, .datetime value⟩ := by
  obtain ⟨c, cs, htext, hc⟩ := h.head
  refine Line.readable_word hkey htext (.inl hc) fun rest => ?_
  rw [readWord, show Dialect.strict.lenient = false from rfl, h.read rest]

end Toml

namespace Droplet

open Toml

variable (d : Droplet)

theorem parse_textOf {ls : List Line} (hls : ∀ l ∈ ls, l.Readable)
    (hkeys : (ls.map (·.key)).Nodup) (hhead : (textOf ls).toList.head? ≠ some '\ufeff') :
    Document.parse .strict (textOf ls) = some (ls.map fun l => (l.key, l.value)) := by
  have hmark : dropMark (textOf ls).toList = (textOf ls).toList := by
    unfold dropMark
    split
    · rename_i hcs
      exact absurd (by rw [hcs]; rfl) hhead
    · rfl
  have hpairs : ls.map (fun l => ([l.key], l.value)) =
      pairsOf (ls.map fun l => (l.key, l.value)) := by
    simp [pairsOf]
  have hnodup : ((ls.map fun l => (l.key, l.value)).map (·.1)).Nodup := by
    rw [List.map_map]
    exact hkeys
  have hlines : readLines .strict ((textOf ls).toList.length + 1) (textOf ls).toList =
      some (pairsOf (ls.map fun l => (l.key, l.value)), []) := by
    have hreads := (Reads.nil.lines hls) ((textOf ls).toList.length + 1)
    rw [List.append_nil, List.append_nil, hpairs] at hreads
    rw [textOf, String.toList_ofList] at *
    exact hreads (Nat.lt_succ_self _)
  simp only [Document.parse, hmark, hlines, Option.bind_eq_bind, Option.bind_some,
    Document.ofSections?]
  rw [Draft.insertAll_pairsOf (by simpa using hnodup)]
  simp [Document.addSections, Draft.finishEntries_draftOf]

def withoutStart : Droplet := { d with startedTime := none }

theorem withoutStart_printable : d.withoutStart.HasPrintableStart := fun _ ht => by cases ht

/-- A line that gives a start, however it is written. -/
def startedLine (text : List Char) : String :=
  "started-time = " ++ String.ofList text ++ "\n"

/-- A droplet with anything at all for its start. -/
theorem ofFields_started (v : Value) :
    ofFields (d.withoutStart.fields ++ [("started-time", v)]) =
      (readStarted v).map fun t => { d with startedTime := some t } := by
  obtain ⟨id, name, privateIp, publicIp, serverHost, healthUrl, startedTime⟩ := d
  cases publicIp <;> cases hv : readStarted v <;>
    simp [ofFields, fields, lines, startedLines, withoutStart, Line.ofInteger, Line.ofString, hv,
      Partial.readFields, Partial.readField, Bind.bind, Except.bind, Except.map, Partial.complete]

theorem parse_startedLine {l : Line} (h : l.Readable) (hkey : l.key = "started-time") :
    parse (textOf d.withoutStart.lines ++ startedLine l.text) =
      (readStarted l.value).map fun t => { d with startedTime := some t } := by
  have htext : textOf d.withoutStart.lines ++ startedLine l.text =
      textOf (d.withoutStart.lines ++ [l]) := by
    apply String.toList_injective
    simp [startedLine, textOf, Line.print, hkey]
  have hreadable : ∀ l' ∈ d.withoutStart.lines ++ [l], l'.Readable :=
    List.forall_mem_append.mpr
      ⟨readable_lines d.withoutStart_printable, List.forall_mem_singleton.mpr h⟩
  have hkeys : ((d.withoutStart.lines ++ [l]).map (·.key)).Nodup := by
    cases hip : d.publicIp <;>
      simp [withoutStart, lines, startedLines, Line.ofInteger, Line.ofString, hip, hkey]
  have hhead : (textOf (d.withoutStart.lines ++ [l])).toList.head? ≠ some '\ufeff' := by
    simp [textOf, lines, Line.print, Line.ofInteger]
  have hparse := parse_textOf hreadable hkeys hhead
  rw [List.map_append, List.map_singleton, hkey] at hparse
  rw [htext, parse, hparse]
  exact d.ofFields_started l.value

/-- The start of a droplet is read from every date-time with an offset, whether it is written as it
is or between quotes, as the moment that its digits spell out. What lacks a date, a time or an offset
is refused either way. -/
theorem parse_started :
    ∃ base, d.withoutStart.print? = some base ∧
      (∀ x : OffsetLiteral, ∃ t : Time.Timestamp, t.secs = x.unixSeconds ∧ t.nanos = x.unixNanos ∧
        parse (base ++ startedLine x.text) = .ok { d with startedTime := some t } ∧
        parse (base ++ startedLine ('"' :: (x.text ++ ['"']))) =
          .ok { d with startedTime := some t }) ∧
      ∀ x : LocalLiteral,
        parse (base ++ startedLine x.text) =
          .error (.startedTimeText (String.ofList x.value.print)) ∧
        parse (base ++ startedLine ('"' :: (x.text ++ ['"']))) =
          .error (.startedTimeText (String.ofList x.text)) := by
  have hbare : isBare "started-time" = true := by decide
  refine ⟨_, print?_eq_some d.withoutStart_printable, fun x => ?_, fun x => ⟨?_, ?_⟩⟩
  · obtain ⟨t, ht, hsecs, hnanos⟩ := x.exists_moment
    refine ⟨t, hsecs, hnanos, ?_, ?_⟩
    · obtain ⟨y, hprint, hdate, hclock, hzone⟩ := x.exists_print
      have hstarted : readStarted (.datetime x.value) = .ok t := by
        simp only [readStarted, startedText, Bind.bind, Except.bind, hprint, y.parse_text, hdate,
          hclock, hzone, ht]
      rw [d.parse_startedLine (x.isDatetime.readable hbare) rfl, hstarted]
      rfl
    · have hstarted : readStarted (.string (String.ofList x.text)) = .ok t := by
        simp only [readStarted, startedText, Bind.bind, Except.bind, x.parse_text, ht]
      rw [d.parse_startedLine (Line.readable_unescaped hbare x.isUnescaped_text) rfl, hstarted]
      rfl
  · obtain ⟨y, hprint⟩ := x.exists_print
    have hstarted : readStarted (.datetime x.value) =
        .error (.startedTimeText (String.ofList x.value.print)) := by
      simp only [readStarted, startedText, Bind.bind, Except.bind, hprint, y.parse_text]
    rw [d.parse_startedLine (x.isDatetime.readable hbare) rfl, hstarted]
    rfl
  · have hstarted : readStarted (.string (String.ofList x.text)) =
        .error (.startedTimeText (String.ofList x.text)) := by
      simp only [readStarted, startedText, Bind.bind, Except.bind, x.parse_text]
    rw [d.parse_startedLine (Line.readable_unescaped hbare x.isUnescaped_text) rfl, hstarted]
    rfl

end Droplet

end ReverseProxy
