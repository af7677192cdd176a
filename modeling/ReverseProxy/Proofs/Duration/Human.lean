import ReverseProxy.Duration.Human
import ReverseProxy.Proofs.Text.Decimal
import ReverseProxy.Proofs.Text.Words

/-!
# Durations written and read

Every duration that is written is read back to the nanosecond, with blanks around it or without. The
items of a text add up (`Adds`), so that writing only has to split a duration into numbers of units.
-/

namespace ReverseProxy.Duration.Human

open Text

/-- The nanoseconds that a text stands for. The reader goes over it once. -/
def total (cs : List Char) : Except ParseError Nat :=
  cs.foldlM State.step State.initial >>= State.finish

/-! ## Characters -/

theorem isBlank_of_isUnitLetter {c : Char} (h : isUnitLetter c = true) : isBlank c = false := by
  simp only [isUnitLetter, Bool.or_eq_true, Bool.and_eq_true, decide_eq_true_eq, Char.le_def,
    UInt32.le_iff_toNat_le] at h
  rcases h with (⟨hlow, hhigh⟩ | ⟨hlow, hhigh⟩) | rfl
  · have hlow : 97 ≤ c.toNat := hlow
    have hhigh : c.toNat ≤ 122 := hhigh
    simp [isBlank]
    omega
  · have hlow : 65 ≤ c.toNat := hlow
    have hhigh : c.toNat ≤ 90 := hhigh
    simp [isBlank]
    omega
  · decide

theorem digitValue?_of_isUnitLetter {c : Char} (h : isUnitLetter c = true) :
    digitValue? 10 c = none :=
  digitValue?_of_apart (by decide) h

theorem digitValue?_of_isBlank {c : Char} (h : isBlank c = true) : digitValue? 10 c = none :=
  digitValue?_of_apart (by decide) h

/-! ## Blanks around a text -/

section Blanks

variable {c : Char}

theorem step_gap_blank (h : isBlank c = true) (n : Nat) (b : Bool) :
    State.step ⟨n, .gap b⟩ c = .ok ⟨n, .gap b⟩ := by
  simp [State.step, digitValue?_of_isBlank h, h]

/-- A blank ends at most the item that the end of the text would end, too. -/
theorem finish_step_blank (h : isBlank c = true) (s : State) :
    s.step c >>= State.finish = s.finish := by
  obtain ⟨n, place⟩ := s
  cases place with
  | gap b => rw [step_gap_blank h]; rfl
  | number k => simp only [State.step, digitValue?_of_isBlank h, h]; rfl
  | fraction k f => simp only [State.step, digitValue?_of_isBlank h, h]; rfl
  | unit k f name =>
      simp only [State.step, digitValue?_of_isBlank h, h, State.finish]
      cases addItem n k f name <;> rfl

theorem total_dropWhile (cs : List Char) : total (cs.dropWhile isBlank) = total cs := by
  induction cs with
  | nil => rfl
  | cons c cs ih =>
      rw [List.dropWhile_cons]
      split
      · rename_i hc
        rw [ih, total, total, List.foldlM_cons, State.initial, step_gap_blank hc]
        rfl
      · rfl

theorem total_append_blank (h : isBlank c = true) (cs : List Char) :
    total (cs ++ [c]) = total cs := by
  simp only [total, List.foldlM_append, List.foldlM_cons, List.foldlM_nil, bind_pure, bind_assoc,
    finish_step_blank h]

theorem total_reverse_dropWhile (cs : List Char) :
    total (cs.dropWhile isBlank).reverse = total cs.reverse := by
  induction cs with
  | nil => rfl
  | cons c cs ih =>
      rw [List.dropWhile_cons]
      split
      · rename_i hc
        rw [ih, List.reverse_cons, total_append_blank hc]
      · rfl

theorem total_trim (cs : List Char) : total (trim cs) = total cs := by
  rw [trim, total_reverse_dropWhile, List.reverse_reverse, total_dropWhile]

end Blanks

/-! ## One item -/

section Item

variable {c : Char} {n d : Nat} {u : Unit} {sum : Nat}

theorem step_gap_digit (h : digitValue? 10 c = some d) (b : Bool) :
    State.step ⟨sum, .gap b⟩ c = .ok ⟨sum, .number d⟩ := by
  simp only [State.step, h]

theorem step_number_digit (h : digitValue? 10 c = some d) (hn : n * 10 + d < wordLimit) :
    State.step ⟨sum, .number n⟩ c = .ok ⟨sum, .number (n * 10 + d)⟩ := by
  simp only [State.step, h, appendDigit, within64, if_pos hn]
  rfl

theorem step_number_letter (h : isUnitLetter c = true) :
    State.step ⟨sum, .number n⟩ c = .ok ⟨sum, .unit n none [c]⟩ := by
  simp [State.step, digitValue?_of_isUnitLetter h, isBlank_of_isUnitLetter h, h]

theorem step_unit_letter (h : isUnitLetter c = true) (name : List Char) :
    State.step ⟨sum, .unit n none name⟩ c = .ok ⟨sum, .unit n none (c :: name)⟩ := by
  simp [State.step, digitValue?_of_isUnitLetter h, isBlank_of_isUnitLetter h, h]

theorem step_unit_blank (h : isBlank c = true) (name : List Char) :
    State.step ⟨sum, .unit n none name⟩ c =
      (addItem sum n none name >>= fun k => .ok ⟨k, .gap true⟩) := by
  simp only [State.step, digitValue?_of_isBlank h, h, if_true]

theorem foldlM_digits {n : Nat} (h : n < wordLimit) (b : Bool) :
    (digits n).foldlM State.step ⟨sum, .gap b⟩ = .ok ⟨sum, .number n⟩ := by
  rw [digits]
  split
  · rename_i hn
    rw [List.foldlM_cons, step_gap_digit (digitValue?_digitChar hn)]
    rfl
  · have ih := foldlM_digits (n := n / 10) (by omega) b
    have hd := digitValue?_digitChar (Nat.mod_lt n (by decide : 10 > 0))
    have hjoin : n / 10 * 10 + n % 10 = n := by omega
    rw [List.foldlM_append, ih]
    change ([digitChar (n % 10)].foldlM State.step ⟨sum, .number (n / 10)⟩) = _
    rw [List.foldlM_cons, step_number_digit hd (by omega), hjoin]
    rfl
termination_by n

theorem foldlM_letters {cs : List Char} (h : ∀ c ∈ cs, isUnitLetter c = true) (name : List Char) :
    cs.foldlM State.step ⟨sum, .unit n none name⟩ =
      .ok ⟨sum, .unit n none (cs.reverse ++ name)⟩ := by
  induction cs generalizing name with
  | nil => rfl
  | cons c cs ih =>
      obtain ⟨hc, hcs⟩ := List.forall_mem_cons.mp h
      rw [List.foldlM_cons, step_unit_letter hc, List.reverse_cons, List.append_assoc]
      exact ih hcs (c :: name)

/-- The word is a name of the unit. -/
structure Names (word : String) (u : Unit) : Prop where
  ne_nil : word.toList ≠ []
  letters : word.toList.all isUnitLetter = true
  ofName?_eq : Unit.ofName? word = some u

instance (word : String) (u : Unit) : Decidable (Names word u) :=
  decidable_of_iff (word.toList ≠ [] ∧ word.toList.all isUnitLetter = true ∧
    Unit.ofName? word = some u) ⟨fun h => ⟨h.1, h.2.1, h.2.2⟩, fun h => ⟨h.1, h.2, h.3⟩⟩

/-- A number and a name, read where a number may begin. -/
theorem foldlM_word {word : String} (hword : Names word u) (h : n < wordLimit) (b : Bool) :
    (decimal n ++ word).toList.foldlM State.step ⟨sum, .gap b⟩ =
      .ok ⟨sum, .unit n none word.toList.reverse⟩ := by
  obtain ⟨hne, hletters, -⟩ := hword
  rw [List.all_eq_true] at hletters
  rw [String.toList_append, decimal, String.toList_ofList, List.foldlM_append, foldlM_digits h]
  cases hcs : word.toList with
  | nil => exact absurd hcs hne
  | cons c cs =>
      rw [hcs] at hletters
      obtain ⟨hc, hcs⟩ := List.forall_mem_cons.mp hletters
      change (c :: cs).foldlM State.step ⟨sum, .number n⟩ = _
      rw [List.foldlM_cons, step_number_letter hc, List.reverse_cons]
      exact foldlM_letters hcs [c]

/-! The counters of 64 bits hold what a duration holds. -/

/-- Below a second the nanoseconds are counted on their own, and so must be less than a second. -/
def Fits (n : Nat) (u : Unit) : Prop := u.isSubsecond = true → n * u.nanos < nanosPerSecond

theorem scale_of_isSubsecond (h : u.isSubsecond = true) : u.scale = u.nanos := by
  rw [Unit.scale, if_pos h]

theorem scale_pos (u : Unit) : 0 < u.scale := by
  cases u <;> decide

/-- The units from a second up are whole seconds. -/
theorem scale_mul (h : u.isSubsecond = false) : u.scale * nanosPerSecond = u.nanos := by
  cases u <;> first | contradiction | decide

theorem scaled_lt (hu : Fits n u) (hsum : sum + n * u.nanos < Duration.limit) :
    n * u.scale < wordLimit := by
  cases hsub : u.isSubsecond with
  | true =>
      have hn := hu hsub
      rw [scale_of_isSubsecond hsub]
      exact hn.trans (by decide)
  | false =>
      rw [← scale_mul hsub, ← Nat.mul_assoc] at hsum
      exact Nat.lt_of_mul_lt_mul_right (lt_of_le_of_lt (Nat.le_add_left _ _) hsum)

theorem addCounted_eq (hu : Fits n u) (hsum : sum + n * u.nanos < Duration.limit) :
    addCounted sum (n * u.scale) u = .ok (sum + n * u.nanos) := by
  cases hsub : u.isSubsecond with
  | true =>
      have hmod : sum % nanosPerSecond < nanosPerSecond := Nat.mod_lt _ (by decide)
      have htwice : nanosPerSecond + nanosPerSecond < wordLimit := by decide
      have hn := hu hsub
      have hcarry : sum % nanosPerSecond + n * u.nanos < wordLimit := by omega
      simp [addCounted, scale_of_isSubsecond hsub, hsub, within64, hcarry, hsum]
      rfl
  | false =>
      have hscale : n * u.scale * nanosPerSecond = n * u.nanos := by
        rw [Nat.mul_assoc, scale_mul hsub]
      simp [addCounted, hsub, hscale, hsum]

theorem addItem_eq {word : String} (hword : Names word u) (hu : Fits n u)
    (hsum : sum + n * u.nanos < Duration.limit) :
    addItem sum n none word.toList.reverse = .ok (sum + n * u.nanos) := by
  rw [addItem, List.reverse_reverse, String.ofList_toList, hword.ofName?_eq]
  simp only [within64, if_pos (scaled_lt hu hsum)]
  change (addCounted sum (n * u.scale) u >>= fun k => .ok k) = _
  rw [addCounted_eq hu hsum]
  rfl

end Item

/-! ## Texts of items -/

/-- The items of a text, each with a blank after it. -/
def spaced (ws : List String) : List Char := ws.flatMap fun w => w.toList ++ [' ']

/-- The text adds that many nanoseconds to any sum that leaves room for them. -/
def Adds (ws : List String) (k : Nat) : Prop :=
  ∀ sum b, sum + k < Duration.limit →
    (spaced ws).foldlM State.step ⟨sum, .gap b⟩ = .ok ⟨sum + k, .gap (b || !ws.isEmpty)⟩

theorem adds_nil : Adds [] 0 := by
  intro sum b _
  simp [spaced]
  rfl

theorem Adds.append {ws vs : List String} {k l : Nat} (hws : Adds ws k) (hvs : Adds vs l) :
    Adds (ws ++ vs) (k + l) := by
  intro sum b hsum
  rw [spaced, List.flatMap_append, List.foldlM_append]
  change (((spaced ws).foldlM State.step _) >>= fun s => (spaced vs).foldlM State.step s) = _
  rw [hws sum b (by omega)]
  change (spaced vs).foldlM State.step _ = _
  rw [hvs _ _ (by omega), Nat.add_assoc]
  cases ws <;> simp

theorem Adds.eq_zero {k : Nat} (h : Adds [] k) (hk : k < Duration.limit) : k = 0 := by
  have hread := h 0 false (by omega)
  injection hread with hstate
  injection hstate with hsum
  omega

theorem adds_singleton {word : String} {n : Nat} {u : Unit} (hword : Names word u)
    (hu : Fits n u) : Adds [decimal n ++ word] (n * u.nanos) := by
  intro sum b hsum
  have hn : n < wordLimit := lt_of_le_of_lt
    (Nat.le_mul_of_pos_right n (scale_pos u)) (scaled_lt hu hsum)
  rw [spaced, List.flatMap_singleton, List.foldlM_append, foldlM_word hword hn]
  change [' '].foldlM State.step _ = _
  rw [List.foldlM_cons, step_unit_blank (by decide), addItem_eq hword hu hsum]
  simp
  rfl

theorem adds_item {word : String} {n : Nat} {u : Unit} (hword : Names word u) (hu : Fits n u) :
    Adds (item n word) (n * u.nanos) := by
  rw [item]
  split
  · rename_i hzero
    rw [hzero, Nat.zero_mul]
    exact adds_nil
  · exact adds_singleton hword hu

theorem adds_countedItem {word : String} {n : Nat} {u : Unit} (hword : Names word u)
    (hwords : Names (word ++ "s") u) (hu : Fits n u) :
    Adds (countedItem n word) (n * u.nanos) := by
  rw [countedItem]
  split
  · exact adds_item hword hu
  · exact adds_item hwords hu

theorem intercalate_append_blank {ws : List String} (hne : ws ≠ []) :
    (" ".intercalate ws).toList ++ [' '] = spaced ws := by
  induction ws with
  | nil => exact absurd rfl hne
  | cons w ws ih =>
      cases ws with
      | nil => simp [spaced]
      | cons v vs =>
          have ih := ih (by simp)
          rw [String.intercalate_cons_cons, String.toList_append, List.append_assoc, ih]
          simp [spaced]

theorem Adds.total_eq {ws : List String} {k : Nat} (h : Adds ws k) (hne : ws ≠ [])
    (hk : k < Duration.limit) : total (" ".intercalate ws).toList = .ok k := by
  have hempty : ws.isEmpty = false := by simpa using hne
  have hread := h 0 false (by omega)
  rw [← total_append_blank (c := ' ') (by decide), intercalate_append_blank hne, total,
    State.initial, hread, hempty, Nat.zero_add]
  rfl

/-! ## Writing -/

theorem fits_of_whole {n : Nat} {u : Unit} (h : u.isSubsecond = false) : Fits n u := by
  intro hsub
  rw [h] at hsub
  contradiction

/-- The items of the whole seconds. -/
theorem adds_seconds (s : Nat) :
    Adds (countedItem (s / 31557600) "year" ++
      countedItem (s % 31557600 / 2630016) "month" ++
      countedItem (s % 31557600 % 2630016 / 86400) "day" ++
      item (s % 31557600 % 2630016 % 86400 / 3600) "h" ++
      item (s % 31557600 % 2630016 % 86400 % 3600 / 60) "m" ++
      item (s % 31557600 % 2630016 % 86400 % 60) "s") (s * nanosPerSecond) := by
  let inYear := s % 31557600
  let inMonth := inYear % 2630016
  let inDay := inMonth % 86400
  have hyears : Adds (countedItem (s / 31557600) "year") _ :=
    adds_countedItem (u := .year) (by decide) (by decide) (fits_of_whole rfl)
  have hmonths : Adds (countedItem (inYear / 2630016) "month") _ :=
    adds_countedItem (u := .month) (by decide) (by decide) (fits_of_whole rfl)
  have hdays : Adds (countedItem (inMonth / 86400) "day") _ :=
    adds_countedItem (u := .day) (by decide) (by decide) (fits_of_whole rfl)
  have hhours : Adds (item (inDay / 3600) "h") _ :=
    adds_item (u := .hour) (by decide) (fits_of_whole rfl)
  have hminutes : Adds (item (inDay % 3600 / 60) "m") _ :=
    adds_item (u := .minute) (by decide) (fits_of_whole rfl)
  have hrest : Adds (item (inDay % 60) "s") _ :=
    adds_item (u := .second) (by decide) (fits_of_whole rfl)
  have hsum := ((((hyears.append hmonths).append hdays).append hhours).append hminutes).append hrest
  convert hsum using 1
  simp only [Unit.nanos, nanosPerSecond]
  omega

/-- The items below a second. -/
theorem adds_subsecond {n : Nat} (h : n < nanosPerSecond) :
    Adds (item (n / 1000000) "ms" ++ item (n / 1000 % 1000) "us" ++ item (n % 1000) "ns") n := by
  rw [nanosPerSecond] at h
  have hmillis : Adds (item (n / 1000000) "ms") _ :=
    adds_item (u := .millisecond) (by decide) fun _ => by
      simp only [Unit.nanos, nanosPerSecond]
      omega
  have hmicros : Adds (item (n / 1000 % 1000) "us") _ :=
    adds_item (u := .microsecond) (by decide) fun _ => by
      simp only [Unit.nanos, nanosPerSecond]
      omega
  have hnanos : Adds (item (n % 1000) "ns") _ :=
    adds_item (u := .nanosecond) (by decide) fun _ => by
      simp only [Unit.nanos, nanosPerSecond]
      omega
  convert (hmillis.append hmicros).append hnanos using 1
  simp only [Unit.nanos]
  omega

theorem adds_items (d : Duration) : Adds (items d) d.nanos := by
  have hsub : d.subsecNanos < nanosPerSecond := Nat.mod_lt _ (by decide)
  have hnanos : d.seconds * nanosPerSecond + d.subsecNanos = d.nanos := Nat.div_add_mod' _ _
  have hsum := (adds_seconds d.seconds).append (adds_subsecond hsub)
  rw [hnanos] at hsum
  simpa only [items, List.append_assoc] using hsum

theorem total_format (d : Duration) : total (format d).toList = .ok d.nanos := by
  have hitems := adds_items d
  rw [format]
  split
  · rename_i hzero
    have hzero : d.nanos = 0 := by simpa [Duration.isZero] using hzero
    have hword : decimal 0 ++ "s" = "0s" := by
      rw [decimal, digits]
      rfl
    have hadds : Adds [decimal 0 ++ "s"] _ :=
      adds_singleton (u := .second) (by decide) (fits_of_whole rfl)
    rw [hword, Nat.zero_mul] at hadds
    rw [hzero]
    exact hadds.total_eq (by simp) (by decide)
  · rename_i hpos
    refine hitems.total_eq (fun hnil => hpos ?_) d.nanos_lt
    rw [hnil] at hitems
    simpa [Duration.isZero] using hitems.eq_zero d.nanos_lt

theorem parse_of_total {s : String} {d : Duration} (h : total s.toList = .ok d.nanos) :
    parse s = .ok d := by
  rw [parse, if_neg]
  · rw [total] at h
    rw [← bind_assoc, h]
    simp only [Bind.bind, Except.bind, Duration.ofNanos?_nanos]
  · -- the lone digit has no unit, so nothing but the rule for it reads it
    rintro rfl
    have hlone : total "0".toList = .error .unknownUnit := by decide
    rw [hlone] at h
    contradiction

/-- Every duration is read back from what is written for it. -/
theorem parseTrimmed_format (d : Duration) : parseTrimmed (format d) = .ok d := by
  apply parse_of_total
  rw [trimmed, String.toList_ofList, total_trim, total_format]

end ReverseProxy.Duration.Human
