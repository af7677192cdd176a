import ReverseProxy.Net.Listen
import ReverseProxy.Proofs.Net.Dotted

/-!
# Lookups, and the characters of addresses to listen on

A lookup that finds all hosts of another finds an address to listen on wherever that one does
(`exists_listenAddress_mono`). Whatever the readers of addresses read is in ASCII. So an address that
can be listened on holds nothing else, apart from the blanks around it, as long as no other names of
hosts are found (`listenAddress_chars`).
-/

namespace ReverseProxy.Net

/-! ## Lookups -/

namespace Names

/-- Whether a lookup finds an address of a host. -/
def Finds (names : Names) (host : String) : Prop := ∃ a as, names.addresses host = .ok (a :: as)

variable {names : Names} {s : String}

theorem finds_ofHosts_singleton {host known : String} {a : IpAddr × UInt32}
    {as : List (IpAddr × UInt32)} : (ofHosts [(known, a :: as)]).Finds host ↔ host = known := by
  unfold Finds ofHosts
  by_cases h : host = known
  · simp [h]
  · simp [List.lookup_cons, beq_eq_false_iff_ne.mpr h, h]

theorem exists_lookUp_iff {host : List Char} : (∃ a, lookUp s host names = .ok a) ↔
    '\x00' ∉ host ∧ names.Finds (String.ofList host) := by
  unfold lookUp Finds
  split
  · rename_i hzero
    simp [hzero]
  · rename_i hzero
    split
    · rename_i a as hfound
      simp [hzero, hfound]
    · rename_i hfound
      simp [hfound]
    · rename_i hfound
      simp [hfound]

/-- A text stands for an address by itself, or it names a host that is found. -/
theorem exists_resolve_iff : (∃ a, resolve s names = .ok a) ↔
    (∃ a, readEndpoint s = .ok (.address a)) ∨ ∃ host port,
      readEndpoint s = .ok (.named host port) ∧ '\x00' ∉ host ∧
        names.Finds (String.ofList host) := by
  unfold resolve
  split
  · rename_i hread
    simp [hread]
  · rename_i hread
    simp [hread]
  · rename_i host port hread
    -- Only the host is looked up; the port makes no difference to whether it is found.
    have hmap : (∃ a, (lookUp s host names).map (fun a => SocketAddr.mk a.1 port a.2) = .ok a) ↔
        ∃ a, lookUp s host names = .ok a := by
      cases lookUp s host names <;> simp [Except.map]
    rw [hmap, exists_lookUp_iff]
    simp [hread]

end Names

theorem exists_listenAddress_mono {names names' : Names} {bind : String}
    (hfinds : ∀ host, names.Finds host → names'.Finds host)
    (h : ∃ a, listenAddress bind names = .ok a) : ∃ a, listenAddress bind names' = .ok a := by
  simp only [listenAddress, Names.exists_resolve_iff] at h ⊢
  exact h.imp id fun ⟨host, port, hread, hzero, hfound⟩ =>
    ⟨host, port, hread, hzero, hfinds _ hfound⟩

/-! ## ASCII -/

def IsAscii (c : Char) : Prop := c.toNat < 128

/-- What comes before the rest of a text is in ASCII. -/
def AsciiBefore (cs rest : List Char) : Prop := ∃ p, cs = p ++ rest ∧ ∀ c ∈ p, IsAscii c

variable {cs rest : List Char}

section AsciiBefore

variable {next : List Char}

theorem AsciiBefore.refl (cs : List Char) : AsciiBefore cs cs := ⟨[], rfl, List.forall_mem_nil _⟩

theorem AsciiBefore.trans (h : AsciiBefore cs rest) (h' : AsciiBefore rest next) :
    AsciiBefore cs next := by
  obtain ⟨p, rfl, hp⟩ := h
  obtain ⟨q, rfl, hq⟩ := h'
  exact ⟨p ++ q, (List.append_assoc ..).symm, List.forall_mem_append.mpr ⟨hp, hq⟩⟩

/-- All of a text is in ASCII if nothing is left of it. -/
theorem AsciiBefore.all (h : AsciiBefore cs []) : ∀ c ∈ cs, IsAscii c := by
  obtain ⟨p, rfl, hp⟩ := h
  simpa using hp

end AsciiBefore

/-! ## Digits -/

theorem isAscii_of_hexValue? {c : Char} (h : (Text.hexValue? c).isSome = true) : IsAscii c := by
  unfold Text.hexValue? at h
  simp only [Bool.and_eq_true, decide_eq_true_eq, Char.le_def, UInt32.le_iff_toNat_le] at h
  split at h
  · rename_i hdigit
    have hhigh : c.toNat ≤ 57 := hdigit.2
    unfold IsAscii
    omega
  · split at h
    · rename_i hsmall
      have hhigh : c.toNat ≤ 102 := hsmall.2
      unfold IsAscii
      omega
    · split at h
      · rename_i hcapital
        have hhigh : c.toNat ≤ 70 := hcapital.2
        unfold IsAscii
        omega
      · cases h

theorem isAscii_of_digitValue? {base : Nat} {c : Char}
    (h : (Text.digitValue? base c).isSome = true) : IsAscii c := by
  refine isAscii_of_hexValue? ?_
  cases hv : Text.hexValue? c with
  | some v => rfl
  | none => simp [Text.digitValue?, hv] at h

theorem isAscii_of_ofDigits? {base n : Nat} (h : Text.ofDigits? base cs = some n) :
    ∀ c ∈ cs, IsAscii c := by
  intro c hc
  refine @isAscii_of_digitValue? base c (Option.isSome_iff_ne_none.mpr fun hnone => ?_)
  rw [Text.ofDigits?_eq_none hc hnone] at h
  cases h

/-! ## Readers -/

theorem readNumber_ascii {base most limit n : Nat}
    (h : readNumber base most limit cs = some (n, rest)) : AsciiBefore cs rest := by
  obtain ⟨m, -, h⟩ := Option.bind_eq_some_iff.mp h
  obtain ⟨-, h⟩ := Option.ite_none_right_eq_some.mp h
  cases h
  refine ⟨cs.takeWhile fun c => (Text.digitValue? base c).isSome, ?_, fun c hc => ?_⟩
  · rw [Text.drop_length_takeWhile, List.takeWhile_append_dropWhile]
  · exact isAscii_of_digitValue? (List.mem_takeWhile_imp (p := fun c =>
      (Text.digitValue? base c).isSome) hc)

theorem expect_ascii {c : Char} (hc : IsAscii c) (h : expect c cs = some rest) :
    AsciiBefore cs rest :=
  ⟨[c], eq_cons_of_expect h, by simpa using hc⟩

theorem isAscii_colon : IsAscii ':' := by unfold IsAscii; decide

theorem isAscii_of_isDotted {c : Char} (h : IsDotted c) : IsAscii c :=
  forall_isDotted (P := fun c => c.toNat < 128) (by decide) (by decide) h

theorem readV4_ascii {v : UInt8 × UInt8 × UInt8 × UInt8} (h : readV4 cs = some (v, rest)) :
    AsciiBefore cs rest :=
  ⟨_, eq_printV4_of_readV4 h, fun c hc => isAscii_of_isDotted (isDotted_printV4 c hc)⟩

theorem readGroups_ascii (first : Bool) (limit : Nat) (cs : List Char) :
    AsciiBefore cs (readGroups first limit cs).2 := by
  induction limit generalizing first cs with
  | zero => exact .refl cs
  | succ limit ih =>
      rw [readGroups]
      split
      · exact .refl cs
      · rename_i body hbody
        have hbefore : AsciiBefore cs body := by
          cases first with
          | true =>
              cases hbody
              exact .refl cs
          | false => exact expect_ascii isAscii_colon hbody
        split
        · rename_i v4 r hv4
          obtain ⟨-, hv4⟩ := Option.ite_none_left_eq_some.mp hv4
          exact hbefore.trans (readV4_ascii hv4)
        · split
          · exact .refl cs
          · rename_i g r hg
            exact hbefore.trans ((readNumber_ascii hg).trans (ih false r))

theorem readV6_ascii {ip : IpAddr} (h : readV6 cs = some (ip, rest)) : AsciiBefore cs rest := by
  have hhead := readGroups_ascii true 8 cs
  unfold readV6 at h
  dsimp only at h
  split at h
  · obtain ⟨_, -, h⟩ := Option.map_eq_some_iff.mp h
    cases h
    exact hhead
  · split at h
    · cases h
    · obtain ⟨cs₁, hcolon₁, h⟩ := Option.bind_eq_some_iff.mp h
      obtain ⟨cs₂, hcolon₂, h⟩ := Option.bind_eq_some_iff.mp h
      obtain ⟨_, -, h⟩ := Option.map_eq_some_iff.mp h
      cases h
      exact hhead.trans <| (expect_ascii isAscii_colon hcolon₁).trans <|
        (expect_ascii isAscii_colon hcolon₂).trans (readGroups_ascii ..)

theorem readPort_ascii {n : UInt16} (h : readPort cs = some (n, rest)) : AsciiBefore cs rest := by
  obtain ⟨_, hread, h⟩ := Option.map_eq_some_iff.mp h
  cases h
  exact readNumber_ascii hread

/-! ## Addresses -/

theorem of_orElse {α : Type} {x y : Option α} {a : α} (h : (x <|> y) = some a) :
    x = some a ∨ y = some a := by
  cases x with
  | none => exact .inr h
  | some b => exact .inl h

/-- What follows an address in brackets: the closing one, a colon and a port. -/
theorem readEnd_ascii {ip : IpAddr} {scope : UInt32} {a : SocketAddr}
    (h : (do
      let (port, cs) ← readPort (← expect ':' (← expect ']' cs))
      if cs.isEmpty then some (SocketAddr.mk ip port scope) else none) = some a) :
    AsciiBefore cs [] := by
  obtain ⟨cs₁, hclose, h⟩ := Option.bind_eq_some_iff.mp h
  obtain ⟨cs₂, hcolon, h⟩ := Option.bind_eq_some_iff.mp h
  obtain ⟨⟨port, cs₃⟩, hport, h⟩ := Option.bind_eq_some_iff.mp h
  obtain ⟨hend, -⟩ := Option.ite_none_right_eq_some.mp h
  obtain rfl := List.isEmpty_iff.mp hend
  exact (expect_ascii (by unfold IsAscii; decide) hclose).trans <|
    (expect_ascii isAscii_colon hcolon).trans (readPort_ascii hport)

theorem parse?_ascii {s : String} {a : SocketAddr} (h : SocketAddr.parse? s = some a) :
    ∀ c ∈ s.toList, IsAscii c := by
  refine AsciiBefore.all ?_
  unfold SocketAddr.parse? at h
  dsimp only at h
  rcases of_orElse h with h | h
  · obtain ⟨⟨v4, cs₁⟩, hv4, h⟩ := Option.bind_eq_some_iff.mp h
    obtain ⟨cs₂, hcolon, h⟩ := Option.bind_eq_some_iff.mp h
    obtain ⟨⟨port, cs₃⟩, hport, h⟩ := Option.bind_eq_some_iff.mp h
    obtain ⟨hend, -⟩ := Option.ite_none_right_eq_some.mp h
    obtain rfl := List.isEmpty_iff.mp hend
    exact (readV4_ascii hv4).trans ((expect_ascii isAscii_colon hcolon).trans (readPort_ascii hport))
  · obtain ⟨cs₁, hopen, h⟩ := Option.bind_eq_some_iff.mp h
    obtain ⟨⟨ip, cs₂⟩, hv6, h⟩ := Option.bind_eq_some_iff.mp h
    refine (expect_ascii (by unfold IsAscii; decide) hopen).trans ((readV6_ascii hv6).trans ?_)
    dsimp only at h
    split at h
    · rename_i cs₃
      obtain ⟨⟨scope, cs₄⟩, hscope, h⟩ := Option.bind_eq_some_iff.mp h
      have hpercent : IsAscii '%' := by unfold IsAscii; decide
      have hbefore : AsciiBefore ('%' :: cs₃) cs₃ := ⟨['%'], rfl, by simpa using hpercent⟩
      exact hbefore.trans ((readNumber_ascii hscope).trans (readEnd_ascii h))
    · obtain ⟨⟨scope, cs₃⟩, hscope, h⟩ := Option.bind_eq_some_iff.mp h
      cases hscope
      exact readEnd_ascii h

/-! ## Hosts and ports -/

theorem looseNumber?_ascii {n : Nat} (h : looseNumber? cs = some n) : ∀ c ∈ cs, IsAscii c := by
  have hlead : IsAscii '0' ∧ IsAscii 'x' ∧ IsAscii 'X' := by
    unfold IsAscii
    decide
  unfold looseNumber? at h
  split at h
  · exact List.forall_mem_cons.mpr ⟨hlead.1,
      List.forall_mem_cons.mpr ⟨hlead.2.1, isAscii_of_ofDigits? h⟩⟩
  · exact List.forall_mem_cons.mpr ⟨hlead.1,
      List.forall_mem_cons.mpr ⟨hlead.2.2, isAscii_of_ofDigits? h⟩⟩
  · exact List.forall_mem_cons.mpr ⟨hlead.1, isAscii_of_ofDigits? h⟩
  · exact isAscii_of_ofDigits? h

/-- A character of a text is the separator or in one of the pieces. -/
theorem mem_splitAtChar (sep : Char) {c : Char} (hc : c ∈ cs) :
    c = sep ∨ ∃ piece ∈ Text.splitAtChar sep cs, c ∈ piece := by
  induction cs with
  | nil => cases hc
  | cons d cs ih =>
      rw [Text.splitAtChar]
      split
      · rename_i hd
        rcases List.mem_cons.mp hc with rfl | hc
        · exact .inl hd
        · rcases ih hc with hsep | ⟨piece, hpiece, hmem⟩
          · exact .inl hsep
          · exact .inr ⟨piece, .tail _ hpiece, hmem⟩
      · split
        · rename_i hnil
          exact absurd hnil (Text.splitAtChar_ne_nil sep cs)
        · rename_i p ps hsplit
          rw [hsplit] at ih
          rcases List.mem_cons.mp hc with rfl | hc
          · exact .inr ⟨_, List.mem_cons_self, List.mem_cons_self⟩
          · rcases ih hc with hsep | ⟨piece, hpiece, hmem⟩
            · exact .inl hsep
            · rcases List.mem_cons.mp hpiece with rfl | hpiece
              · exact .inr ⟨_, List.mem_cons_self, .tail _ hmem⟩
              · exact .inr ⟨piece, .tail _ hpiece, hmem⟩

theorem exists_of_mapM {α β : Type} {f : α → Option β} {as : List α} {bs : List β} {a : α}
    (h : as.mapM f = some bs) (ha : a ∈ as) : ∃ b, f a = some b := by
  induction as generalizing bs with
  | nil => cases ha
  | cons a' as ih =>
      rw [List.mapM_cons] at h
      obtain ⟨b, hb, h⟩ := Option.bind_eq_some_iff.mp h
      obtain ⟨bs', hbs, -⟩ := Option.bind_eq_some_iff.mp h
      rcases List.mem_cons.mp ha with rfl | ha
      · exact ⟨b, hb⟩
      · exact ih hbs ha

theorem numericHost?_ascii {ip : IpAddr} (h : numericHost? cs = some ip) : ∀ c ∈ cs, IsAscii c := by
  rcases of_orElse h with h | h
  · obtain ⟨ns, hns, -⟩ := Option.bind_eq_some_iff.mp h
    intro c hc
    rcases mem_splitAtChar '.' hc with rfl | ⟨piece, hpiece, hmem⟩
    · exact isAscii_of_isDotted (.inr rfl)
    · obtain ⟨n, hn⟩ := exists_of_mapM hns hpiece
      exact looseNumber?_ascii hn c hmem
  · obtain ⟨⟨ip', r⟩, hread, h⟩ := Option.bind_eq_some_iff.mp h
    obtain ⟨hend, -⟩ := Option.ite_none_right_eq_some.mp h
    obtain rfl := List.isEmpty_iff.mp hend
    exact (readV6_ascii hread).all

theorem unsigned?_ascii {limit n : Nat} (h : Text.unsigned? limit cs = some n) :
    ∀ c ∈ cs, IsAscii c := by
  unfold Text.unsigned? at h
  obtain ⟨h, -⟩ := Option.filter_eq_some_iff.mp h
  split at h
  · exact List.forall_mem_cons.mpr ⟨by unfold IsAscii; decide, isAscii_of_ofDigits? h⟩
  · exact isAscii_of_ofDigits? h

theorem splitPort?_eq {host port : List Char} (h : splitPort? cs = some (host, port)) :
    cs = host ++ ':' :: port := by
  have hback : ∀ r : List Char, ':' ∈ r →
      r = r.takeWhile (· ≠ ':') ++ ':' :: (r.dropWhile (· ≠ ':')).drop 1 := by
    intro r hr
    have hsplit := List.takeWhile_append_dropWhile (p := (· ≠ ':')) (l := r)
    have hhead := List.head?_dropWhile_not (· ≠ ':') r
    cases hrest : r.dropWhile (· ≠ ':') with
    | nil =>
        have hall := List.dropWhile_eq_nil_iff.mp hrest ':' hr
        simp at hall
    | cons d rest =>
        rw [hrest] at hsplit hhead
        obtain rfl : d = ':' := by simpa using hhead
        exact hsplit.symm
  unfold splitPort? at h
  obtain ⟨hcolon, h⟩ := Option.ite_none_right_eq_some.mp h
  obtain ⟨rfl, rfl⟩ := Prod.mk.inj (Option.some.inj h)
  have hreverse := congrArg List.reverse (hback _ hcolon)
  simpa only [List.reverse_reverse, List.reverse_append, List.reverse_cons, List.append_assoc,
    List.singleton_append] using hreverse

/-- Whether all hosts that a lookup finds have names in ASCII, as names of hosts are. -/
def Names.Ascii (names : Names) : Prop := ∀ host, names.Finds host → ∀ c ∈ host.toList, IsAscii c

/-- What is not read by itself is the name of a host, a colon and a port. -/
theorem readEndpoint_ascii {s : String} {e : Endpoint} (h : readEndpoint s = .ok e) :
    (∀ c ∈ s.toList, IsAscii c) ∨ ∃ host port rest, e = .named host port ∧
      s.toList = host ++ ':' :: rest ∧ ∀ c ∈ rest, IsAscii c := by
  unfold readEndpoint at h
  split at h
  · rename_i hparse
    exact .inl (parse?_ascii hparse)
  · split at h
    · cases h
    · rename_i host port hsplit
      split at h
      · cases h
      · rename_i n hport
        split at h
        · rename_i ip hhost
          rw [splitPort?_eq hsplit]
          exact .inl (List.forall_mem_append.mpr ⟨numericHost?_ascii hhost,
            List.forall_mem_cons.mpr ⟨isAscii_colon, unsigned?_ascii hport⟩⟩)
        · cases h
          exact .inr ⟨host, _, port, rfl, splitPort?_eq hsplit, unsigned?_ascii hport⟩

theorem resolve_ascii {s : String} {names : Names} {a : SocketAddr} (hnames : names.Ascii)
    (h : resolve s names = .ok a) : ∀ c ∈ s.toList, IsAscii c := by
  rcases Names.exists_resolve_iff.mp ⟨a, h⟩ with ⟨b, hread⟩ | ⟨host, port, hread, -, hfound⟩
  · rcases readEndpoint_ascii hread with hascii | ⟨_, _, _, hnamed, -⟩
    · exact hascii
    · cases hnamed
  · rcases readEndpoint_ascii hread with hascii | ⟨_, _, rest, hnamed, hs, hrest⟩
    · exact hascii
    · cases hnamed
      rw [hs]
      refine List.forall_mem_append.mpr ⟨?_, List.forall_mem_cons.mpr ⟨isAscii_colon, hrest⟩⟩
      simpa using hnames _ hfound

/-- An address that can be listened on holds ASCII characters, and blanks around them. -/
theorem listenAddress_chars {bind : String} {names : Names} {a : SocketAddr} (hnames : names.Ascii)
    (h : listenAddress bind names = .ok a) :
    ∀ c ∈ bind.toList, IsAscii c ∨ Text.isBlank c = true := by
  have htrimmed : ∀ c ∈ Text.trim bind.toList, IsAscii c := by
    unfold listenAddress at h
    dsimp only at h
    have hresolved := resolve_ascii hnames h
    intro c hc
    refine hresolved c ?_
    split
    · rw [String.toList_append]
      exact List.mem_append_right _ (by simpa [Text.trimmed] using hc)
    · simpa [Text.trimmed] using hc
  intro c hc
  rcases Text.mem_trim_or_isBlank hc with hmem | hblank
  · exact .inl (htrimmed c hmem)
  · exact .inr hblank

end ReverseProxy.Net
