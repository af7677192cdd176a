import ReverseProxy.Http.Forwarding
import ReverseProxy.Proofs.Text.Words

/-!
# Lists in headers

The values of a header are lists of elements between commas. What they list is a word, whatever its
letter case and the blanks around it (`Listed`), in values of visible text only. This is what
`Connection` nominates, and how a request asks for a websocket upgrade.
-/

namespace ReverseProxy.Http

/-! ## Values as text -/

/-- A value that is made only of visible ASCII characters, spaces and tabs, and what it spells. -/
def FieldValue.Spells (v : FieldValue) (cs : List Char) : Prop :=
  (∀ c ∈ cs, Text.IsVisible c) ∧ v.bytes = cs.map fun c => c.toNat.toUInt8

theorem visible_byte {c : Char} (h : Text.IsVisible c) :
    c.toNat.toUInt8 < 127 ∧ Char.ofNat c.toNat.toUInt8.toNat = c := by
  have hc : c.toNat < 127 := by
    rcases h with ⟨-, hhigh⟩ | rfl
    · exact Nat.lt_succ_of_le hhigh
    · decide
  have hbyte : c.toNat.toUInt8.toNat = c.toNat := by
    simp only [Nat.toUInt8, UInt8.toNat_ofNat']
    omega
  rw [UInt8.lt_iff_toNat_lt, hbyte]
  exact ⟨hc, Char.ofNat_toNat c⟩

theorem byte_visible {b : UInt8} (hvalue : isValueByte b = true) (hb : b < 127) :
    Text.IsVisible (Char.ofNat b.toNat) ∧ (Char.ofNat b.toNat).toNat.toUInt8 = b := by
  have all : ∀ n < 127, isValueByte (UInt8.ofNat n) = true →
      Text.IsVisible (Char.ofNat n) ∧ (Char.ofNat n).toNat = n := by
    decide
  have hb : b.toNat < 127 := hb
  obtain ⟨hvisible, hcode⟩ := all b.toNat hb (by rwa [UInt8.ofNat_toNat])
  refine ⟨hvisible, ?_⟩
  rw [hcode]
  exact UInt8.ofNat_toNat

theorem ascii?_eq_some_iff {v : FieldValue} {cs : List Char} :
    v.ascii? = some cs ↔ v.Spells cs := by
  rw [FieldValue.ascii?]
  constructor
  · intro h
    split at h
    · rename_i hall
      cases h
      have hbytes : ∀ b ∈ v.bytes, Text.IsVisible (Char.ofNat b.toNat) ∧
          (Char.ofNat b.toNat).toNat.toUInt8 = b := fun b hb =>
        byte_visible (List.all_eq_true.mp v.allowed b hb)
          (of_decide_eq_true (List.all_eq_true.mp hall b hb))
      refine ⟨fun c hc => ?_, ?_⟩
      · obtain ⟨b, hb, rfl⟩ := List.mem_map.mp hc
        exact (hbytes b hb).1
      · rw [List.map_map]
        exact ((List.map_congr_left fun b hb => (hbytes b hb).2).trans (List.map_id _)).symm
    · cases h
  · rintro ⟨hvisible, hbytes⟩
    have hall : v.bytes.all (· < 127) = true := by
      rw [hbytes, List.all_map, List.all_eq_true]
      exact fun c hc => decide_eq_true (visible_byte (hvisible c hc)).1
    rw [if_pos hall, hbytes, List.map_map]
    exact congrArg some
      ((List.map_congr_left fun c hc => (visible_byte (hvisible c hc)).2).trans (List.map_id _))

theorem FieldValue.Spells.unique {v : FieldValue} {cs ds : List Char} (hcs : v.Spells cs)
    (hds : v.Spells ds) : cs = ds :=
  Option.some.inj ((ascii?_eq_some_iff.mpr hcs).symm.trans (ascii?_eq_some_iff.mpr hds))

/-! ## Names of fields -/

theorem isAlphanum_bounds {c : Char} (h : c.isAlphanum = true) :
    48 ≤ c.toNat ∧ c.toNat ≤ 122 := by
  have within : ∀ {low high : Nat}, low ≤ c.toNat → c.toNat ≤ high → 48 ≤ low → high ≤ 122 →
      48 ≤ c.toNat ∧ c.toNat ≤ 122 :=
    fun hlow hhigh hfirst hlast => ⟨hfirst.trans hlow, hhigh.trans hlast⟩
  rcases Bool.or_eq_true_iff.mp h with hletter | hdigit
  · rcases Bool.or_eq_true_iff.mp hletter with hupper | hlower
    · obtain ⟨hlow, hhigh⟩ := of_decide_eq_true hupper
      exact within hlow hhigh (by decide) (by decide)
    · obtain ⟨hlow, hhigh⟩ := Bool.and_eq_true_iff.mp hlower
      exact within (of_decide_eq_true hlow) (of_decide_eq_true hhigh) (by decide) (by decide)
  · obtain ⟨hlow, hhigh⟩ := Bool.and_eq_true_iff.mp hdigit
    exact within (of_decide_eq_true hlow) (of_decide_eq_true hhigh) (by decide) (by decide)

theorem isTokenChar_bounds {c : Char} (h : isTokenChar c = true) :
    33 ≤ c.toNat ∧ c.toNat ≤ 126 := by
  rw [isTokenChar, Bool.or_eq_true] at h
  rcases h with h | h
  · obtain ⟨hlow, hhigh⟩ := isAlphanum_bounds h
    omega
  · have all : ['!', '#', '$', '%', '&', '\'', '*', '+', '-', '.', '^', '_', '\x60', '|', '~'].all
        (fun d => 33 ≤ d.toNat ∧ d.toNat ≤ 126) = true := by
      decide
    exact of_decide_eq_true (List.all_eq_true.mp all c (of_decide_eq_true h))

theorem isTokenChar_toLower (c : Char) : isTokenChar c.toLower = isTokenChar c :=
  Text.toLower_cases (P := fun c d => isTokenChar d = isTokenChar c) (by decide) (fun _ => rfl) c

theorem toLower_of_isNameChar {c : Char} : isNameChar c = true → c.toLower = c :=
  Text.toLower_cases (P := fun c d => isNameChar c = true → d = c) (by decide) (fun _ _ => rfl) c

theorem not_isBlank_of_isNameChar {c : Char} (h : isNameChar c = true) :
    Text.isBlank c = false := by
  rw [isNameChar, Bool.and_eq_true] at h
  obtain ⟨hlow, hhigh⟩ := isTokenChar_bounds h.1
  rw [Bool.eq_false_iff, ne_eq, Text.isBlank_iff (.inl ⟨Nat.le_of_succ_le hlow, hhigh⟩)]
  rintro (rfl | rfl) <;> exact absurd hlow (by decide)

namespace FieldName

variable (n : FieldName)

theorem isNameChar_chars {c : Char} (hc : c ∈ n.chars) : isNameChar c = true :=
  List.all_eq_true.mp n.allowed c hc

theorem toLower_chars : n.chars.map Char.toLower = n.chars := by
  refine (List.map_congr_left fun c hc => ?_).trans (List.map_id _)
  exact toLower_of_isNameChar (n.isNameChar_chars hc)

theorem visible_chars {c : Char} (hc : c ∈ n.chars) : Text.IsVisible c := by
  have h := n.isNameChar_chars hc
  rw [isNameChar, Bool.and_eq_true] at h
  obtain ⟨hlow, hhigh⟩ := isTokenChar_bounds h.1
  exact .inl ⟨Nat.le_of_succ_le hlow, hhigh⟩

theorem trim_chars : Text.trim n.chars = n.chars :=
  Text.trim_of_not_blank fun _ hc => not_isBlank_of_isNameChar (n.isNameChar_chars hc)

/-- A text is read as a name if it is the name in any letter case. -/
theorem ofChars?_eq_some_iff {cs : List Char} :
    ofChars? cs = some n ↔ cs.map Char.toLower = n.chars := by
  rw [ofChars?]
  constructor
  · intro h
    split at h
    · cases h
      rfl
    · cases h
  · intro h
    have htoken : cs.all isTokenChar = true := by
      rw [List.all_eq_true]
      intro c hc
      have hname := n.isNameChar_chars (h ▸ List.mem_map_of_mem hc)
      rw [isNameChar, Bool.and_eq_true, isTokenChar_toLower] at hname
      exact hname.1
    simp only [h, n.nonempty, htoken, n.allowed, ne_eq, not_false_eq_true, Bool.and_self, and_self,
      dite_true]

end FieldName

/-! ## Elements -/

/-- Some of the values list a word among their elements between commas, in any letter case and with
blanks around it. Only values of visible text count. -/
def Listed (vs : List FieldValue) (word : List Char) : Prop :=
  ∃ v ∈ vs, ∃ cs, v.Spells cs ∧ ∃ e ∈ cs.splitOn ',', Text.SameWord e word

namespace Headers

variable {h : Headers} {n : FieldName}

theorem mem_listElements {e : List Char} : e ∈ h.listElements n ↔
    ∃ v ∈ h.getAll n, ∃ cs, v.Spells cs ∧ ∃ piece ∈ cs.splitOn ',', Text.trim piece = e := by
  simp only [listElements, List.mem_flatMap, Text.splitAtChar_eq_splitOn]
  refine exists_congr fun v => and_congr_right fun _ => ?_
  constructor
  · intro he
    split at he
    · rename_i cs hcs
      exact ⟨cs, ascii?_eq_some_iff.mp hcs, List.mem_map.mp he⟩
    · cases he
  · rintro ⟨cs, hcs, he⟩
    rw [ascii?_eq_some_iff.mpr hcs]
    exact List.mem_map.mpr he

theorem listed_iff {word : List Char} (hword : ∀ c ∈ word, Text.IsVisible c) :
    Listed (h.getAll n) word ↔
      ∃ e ∈ h.listElements n, Text.sameLetters e (Text.trim word) = true := by
  -- What a value spells is visible, so trimming its elements takes away blanks only.
  constructor
  · rintro ⟨v, hv, cs, hcs, e, he, hsame⟩
    have hvisible : ∀ c ∈ e, Text.IsVisible c := fun c hc => hcs.1 c (Text.mem_of_mem_splitOn he hc)
    exact ⟨_, mem_listElements.mpr ⟨v, hv, cs, hcs, e, he, rfl⟩,
      (Text.sameWord_iff hvisible hword).mp hsame⟩
  · rintro ⟨_, hmem, hsame⟩
    obtain ⟨v, hv, cs, hcs, e, he, rfl⟩ := mem_listElements.mp hmem
    have hvisible : ∀ c ∈ e, Text.IsVisible c := fun c hc => hcs.1 c (Text.mem_of_mem_splitOn he hc)
    exact ⟨v, hv, cs, hcs, e, he, (Text.sameWord_iff hvisible hword).mpr hsame⟩

/-- Nominated is every name that `Connection` lists. -/
theorem mem_nominated : n ∈ h.nominated ↔ Listed (h.getAll .connection) n.chars := by
  rw [nominated, listed_iff fun c => n.visible_chars, List.mem_filterMap]
  refine exists_congr fun e => and_congr_right fun _ => ?_
  rw [n.ofChars?_eq_some_iff, Text.sameLetters, beq_iff_eq, n.trim_chars, n.toLower_chars]

instance (h : Headers) (n : FieldName) : Decidable (Listed (h.getAll .connection) n.chars) :=
  decidable_of_iff _ mem_nominated

/-- A request asks for a websocket if `Connection` lists the upgrade and the first value of
`Upgrade` is the word for websockets. -/
theorem asksForWebsocket_iff : h.asksForWebsocket = true ↔
    Listed (h.getAll .connection) "upgrade".toList ∧
      ∃ v, (h.getAll .upgrade).head? = some v ∧
        ∃ cs, v.Spells cs ∧ Text.SameWord cs "websocket".toList := by
  have hupgrade : Text.trim "upgrade".toList = ['u', 'p', 'g', 'r', 'a', 'd', 'e'] := by decide
  have hwebsocket : Text.trim "websocket".toList =
      ['w', 'e', 'b', 's', 'o', 'c', 'k', 'e', 't'] := by
    decide
  rw [asksForWebsocket, Bool.and_eq_true, List.any_eq_true,
    listed_iff (Text.visible_of_all (by decide)), hupgrade, get?, Option.any_eq_true]
  refine and_congr_right fun _ => exists_congr fun v => and_congr_right fun _ => ?_
  rw [Option.any_eq_true]
  refine exists_congr fun cs => ?_
  rw [ascii?_eq_some_iff, ← hwebsocket]
  exact and_congr_right fun hcs => (Text.sameWord_iff hcs.1 (Text.visible_of_all (by decide))).symm

end Headers

end ReverseProxy.Http
