import ReverseProxy.Proofs.Net.Url
import ReverseProxy.Proofs.Text.Decimal

/-!
# Dotted addresses

An IPv4 address is written in one way only (`readV4_eq_some_iff`). As the host of a URL, where much
more is read as an address, what is written for an address still stands for it (`parse_printV4`).
-/

namespace ReverseProxy.Net

open Text (digits isDigit)

variable {cs rest : List Char} {a b c d : UInt8}

/-! ## Octets -/

theorem takeWhile_digits {n : Nat} (hrest : ∀ x ∈ rest.head?, isDigit x = false) :
    (digits n ++ rest).takeWhile (fun x => (Text.digitValue? 10 x).isSome) = digits n := by
  simp only [Text.isSome_digitValue?]
  rw [List.takeWhile_append_of_pos fun x hx => Text.isDigit_of_mem_digits hx]
  cases rest with
  | nil => rw [List.takeWhile_nil, List.append_nil]
  | cons x rest => rw [List.takeWhile_cons_of_neg (by simp [hrest x rfl]), List.append_nil]

theorem readNumber_digits {n most limit : Nat} (hmost : (digits n).length ≤ most) (hn : n < limit)
    (hrest : ∀ x ∈ rest.head?, isDigit x = false) :
    readNumber 10 most limit (digits n ++ rest) = some (n, rest) := by
  simp [readNumber, takeWhile_digits hrest, Text.ofDigits?_digits, hmost, hn]

theorem readOctet_digits (a : UInt8) (hrest : ∀ x ∈ rest.head?, isDigit x = false) :
    readOctet (digits a.toNat ++ rest) = some (a, rest) := by
  have hread := readNumber_digits (Text.length_digits_le (by decide : 0 < 3)
    (Nat.lt_trans a.toNat_lt (by decide))) a.toNat_lt hrest
  have hlead : ¬ ((digits a.toNat ++ rest).head? = some '0' &&
      ((digits a.toNat ++ rest).drop 1).head?.any isDigit) = true := by
    by_cases ha : a.toNat = 0
    · have hzero : digits 0 = ['0'] := by rw [digits]; rfl
      rw [ha, hzero, List.singleton_append, List.drop_one, List.tail_cons]
      cases rest with
      | nil => simp
      | cons x rest => simp [hrest x rfl]
    · have hhead : (digits a.toNat ++ rest).head? ≠ some '0' := by
        obtain ⟨x, xs, hx⟩ := List.exists_cons_of_ne_nil (Text.digits_ne_nil a.toNat)
        have hne := Text.digits_head_ne_zero ha
        rw [hx] at hne ⊢
        exact hne
      exact fun hboth => hhead (of_decide_eq_true (Bool.and_eq_true_iff.mp hboth).1)
  simp only [readOctet, hread, Option.bind_eq_bind, Option.bind_some, if_neg hlead]
  simp

/-- Among the digits that start a text, a zero comes first only if it comes alone. -/
theorem length_takeWhile_of_lead
    (hlead : ¬ (cs.head? = some '0' && (cs.drop 1).head?.any isDigit) = true)
    (hzero : (cs.takeWhile isDigit).head? = some '0') : (cs.takeWhile isDigit).length = 1 := by
  cases cs with
  | nil => cases hzero
  | cons x cs =>
      have hx : isDigit x = true := by
        cases hx : isDigit x with
        | true => rfl
        | false => simp [hx] at hzero
      rw [List.takeWhile_cons_of_pos hx] at hzero ⊢
      obtain rfl := Option.some.inj hzero
      cases cs with
      | nil => rfl
      | cons y cs =>
          cases hy : isDigit y with
          | true => simp [hy] at hlead
          | false => simp [hy]

/-- What is read as an octet holds its digits. -/
theorem eq_digits_of_readOctet (h : readOctet cs = some (a, rest)) : cs = digits a.toNat ++ rest := by
  obtain ⟨⟨n, r⟩, hread, h⟩ := Option.bind_eq_some_iff.mp h
  obtain ⟨hlead, h⟩ := Option.ite_none_left_eq_some.mp h
  cases h
  obtain ⟨m, hm, hread⟩ := Option.bind_eq_some_iff.mp hread
  obtain ⟨hbounds, h⟩ := Option.ite_none_right_eq_some.mp hread
  cases h
  simp only [Text.isSome_digitValue?, Bool.and_eq_true, decide_eq_true_eq] at hm hbounds ⊢
  have hne : cs.takeWhile isDigit ≠ [] := by
    intro hnil
    rw [hnil] at hm
    cases hm
  rw [Text.ofDigits?_of_ne_nil hne] at hm
  have hdigits := Text.eq_digits_of_ofDigitsFrom? hne hm (length_takeWhile_of_lead hlead)
  have hn : n.toUInt8.toNat = n := UInt8.toNat_ofNat_of_lt hbounds.2
  rw [hn, ← hdigits, Text.drop_length_takeWhile, List.takeWhile_append_dropWhile]

theorem expect_cons (x : Char) (cs : List Char) : expect x (x :: cs) = some cs := by simp [expect]

theorem eq_cons_of_expect {x : Char} (h : expect x cs = some rest) : cs = x :: rest := by
  cases cs with
  | nil => cases h
  | cons y cs =>
      simp only [expect, Option.ite_none_right_eq_some, Option.some.injEq] at h
      obtain ⟨rfl, rfl⟩ := h
      rfl

theorem readV4_printV4 (a b c d : UInt8) (hrest : ∀ x ∈ rest.head?, isDigit x = false) :
    readV4 (printV4 a b c d ++ rest) = some ((a, b, c, d), rest) := by
  have hdot : ∀ r : List Char, ∀ x ∈ ('.' :: r).head?, isDigit x = false := by
    intro r x hx
    obtain rfl := Option.some.inj hx
    decide
  simp [readV4, printV4, List.append_assoc, readOctet_digits _ (hdot _), expect_cons,
    readOctet_digits _ hrest]

theorem eq_printV4_of_readV4 (h : readV4 cs = some ((a, b, c, d), rest)) :
    cs = printV4 a b c d ++ rest := by
  obtain ⟨⟨a', cs₁⟩, ha, h⟩ := Option.bind_eq_some_iff.mp h
  obtain ⟨cs₂, hdot₁, h⟩ := Option.bind_eq_some_iff.mp h
  obtain ⟨⟨b', cs₃⟩, hb, h⟩ := Option.bind_eq_some_iff.mp h
  obtain ⟨cs₄, hdot₂, h⟩ := Option.bind_eq_some_iff.mp h
  obtain ⟨⟨c', cs₅⟩, hc, h⟩ := Option.bind_eq_some_iff.mp h
  obtain ⟨cs₆, hdot₃, h⟩ := Option.bind_eq_some_iff.mp h
  obtain ⟨⟨d', cs₇⟩, hd, h⟩ := Option.bind_eq_some_iff.mp h
  cases h
  rw [eq_digits_of_readOctet ha, eq_cons_of_expect hdot₁, eq_digits_of_readOctet hb,
    eq_cons_of_expect hdot₂, eq_digits_of_readOctet hc, eq_cons_of_expect hdot₃,
    eq_digits_of_readOctet hd]
  simp [printV4]

theorem readV4_eq_some_iff (hrest : ∀ x ∈ rest.head?, isDigit x = false) :
    readV4 cs = some ((a, b, c, d), rest) ↔ cs = printV4 a b c d ++ rest := by
  constructor
  · exact eq_printV4_of_readV4
  · rintro rfl
    exact readV4_printV4 a b c d hrest

theorem parse?_endpoint {s : String} {port : UInt16}
    (hs : s.toList = printV4 a b c d ++ ':' :: digits port.toNat) :
    SocketAddr.parse? s = some ⟨.v4 a b c d, port, 0⟩ := by
  have hcolon : ∀ x ∈ (':' :: digits port.toNat).head?, isDigit x = false := by
    intro x hx
    obtain rfl := Option.some.inj hx
    decide
  have hport : readPort (digits port.toNat) = some (port, []) := by
    have hend : ∀ x ∈ ([] : List Char).head?, isDigit x = false := by simp
    have hread := readNumber_digits (Nat.le_refl (digits port.toNat).length) port.toNat_lt hend
    rw [List.append_nil] at hread
    simp [readPort, hread]
  simp [SocketAddr.parse?, hs, readV4_printV4 a b c d hcolon, expect_cons, hport]

/-! ## Domain names -/

/-- The characters of dotted addresses. -/
def IsDotted (x : Char) : Prop := isDigit x = true ∨ x = '.'

theorem forall_isDotted {P : Char → Prop} (h : ∀ n < 10, P (Text.digitChar n)) (hdot : P '.')
    {x : Char} (hx : IsDotted x) : P x := by
  rcases hx with hx | rfl
  · exact Text.forall_isDigit h hx
  · exact hdot

theorem isDotted_printV4 : ∀ x ∈ printV4 a b c d, IsDotted x := by
  intro x hx
  simp only [printV4, List.append_assoc, List.cons_append, List.mem_append, List.mem_cons] at hx
  rcases hx with h | rfl | h | rfl | h | rfl | h
  all_goals first | exact .inl (Text.isDigit_of_mem_digits h) | exact .inr rfl

theorem percentDecode_of_plain (h : ∀ x ∈ cs, x ≠ '%') :
    percentDecode cs = cs.flatMap String.utf8EncodeChar := by
  fun_induction percentDecode cs with
  | case1 => rfl
  | case2 => exact absurd rfl (h _ List.mem_cons_self)
  | case3 => exact absurd rfl (h _ List.mem_cons_self)
  | case4 x cs hx ih => rw [ih fun y hy => h y (.tail _ hy), List.flatMap_cons]

theorem fromUTF8?_encode (cs : List Char) :
    String.fromUTF8? ⟨(cs.flatMap String.utf8EncodeChar).toArray⟩ = some (String.ofList cs) := by
  have hbytes : (⟨(cs.flatMap String.utf8EncodeChar).toArray⟩ : ByteArray) = cs.utf8Encode := by
    rw [List.utf8Encode]
    exact ByteArray.ext (List.data_toByteArray ..).symm
  have hvalid : (⟨(cs.flatMap String.utf8EncodeChar).toArray⟩ : ByteArray).IsValidUTF8 :=
    ⟨cs, hbytes⟩
  rw [String.fromUTF8?, dif_pos hvalid]
  refine congrArg some (String.toByteArray_inj.mp ?_)
  rw [String.toByteArray_ofList]
  exact hbytes

theorem labelOk_of_dotted (h : ∀ x ∈ cs, IsDotted x) : Domain.labelOk cs = true := by
  have hplain : ∀ x ∈ cs, (Domain.isForbidden x.toNat || Domain.isIgnored x.toNat) = false ∧
      Domain.isMark x.toNat = false ∧ x ≠ 'x' := fun x hx =>
    forall_isDotted (P := fun x => (Domain.isForbidden x.toNat || Domain.isIgnored x.toNat) = false ∧
      Domain.isMark x.toNat = false ∧ x ≠ 'x') (by decide) (by decide) (h x hx)
  have hallowed : cs.any (fun x => Domain.isForbidden x.toNat || Domain.isIgnored x.toNat) = false :=
    List.any_eq_false.mpr fun x hx => Bool.not_eq_true _ ▸ (hplain x hx).1
  have hhead : cs.head?.any (Domain.isMark ·.toNat) = false := by
    cases cs with
    | nil => rfl
    | cons x cs => exact (hplain x List.mem_cons_self).2.1
  unfold Domain.labelOk
  split
  · exact absurd rfl (hplain _ List.mem_cons_self).2.2
  · simp only [hallowed, hhead, Bool.not_false, Bool.and_self]

/-- A name in digits and dots is its own normal form. -/
theorem normalize?_of_dotted (h : ∀ x ∈ cs, IsDotted x) : Domain.normalize? cs = some cs := by
  have hkept : cs.filter (fun x => !Domain.isIgnored x.toNat) = cs :=
    List.filter_eq_self.mpr fun x hx =>
      forall_isDotted (P := fun x => (!Domain.isIgnored x.toNat) = true) (by decide) (by decide) (h x hx)
  have hsame : cs.map Domain.plain = cs := by
    refine (List.map_congr_left fun x hx => ?_).trans (List.map_id cs)
    exact forall_isDotted (P := fun x => Domain.plain x = id x) (by decide) (by decide) (h x hx)
  have hallowed : cs.any Domain.isDelimiter = false := by
    refine List.any_eq_false.mpr fun x hx => ?_
    exact forall_isDotted (P := fun x => ¬ Domain.isDelimiter x = true) (by decide) (by decide) (h x hx)
  have hlabels : (Text.splitAtChar '.' cs).all Domain.labelOk = true := by
    rw [Text.splitAtChar_eq_splitOn]
    refine List.all_eq_true.mpr fun label hlabel => labelOk_of_dotted fun x hx => ?_
    exact h x (Text.mem_of_mem_splitOn hlabel hx)
  simp only [Domain.normalize?, hkept, hsame, hallowed, hlabels, Bool.false_eq_true, if_false, if_true]

/-! ## Hosts of URLs -/

/-- No zero before other digits makes an octal number of them. -/
theorem dottedNumber?_digits (n : Nat) : dottedNumber? (digits n) = some n := by
  by_cases hn : n < 10
  · have all : ∀ m < 10, dottedNumber? [Text.digitChar m] = some m := by decide
    rw [digits, if_pos hn]
    exact all n hn
  · have hread := Text.ofDigits?_digits n
    have hlead := Text.digits_head_ne_zero (n := n) (by omega)
    obtain ⟨x, xs, hx⟩ := List.exists_cons_of_ne_nil (Text.digits_ne_nil n)
    rw [hx] at hread hlead ⊢
    unfold dottedNumber?
    split <;> simp_all

theorem splitAtChar_printV4 : Text.splitAtChar '.' (printV4 a b c d) =
    [digits a.toNat, digits b.toNat, digits c.toNat, digits d.toNat] := by
  have hdot : ∀ n : Nat, '.' ∉ digits n := fun n hmem =>
    absurd (Text.isDigit_of_mem_digits hmem) (by decide)
  simp only [Text.splitAtChar_eq_splitOn, printV4, List.append_assoc, List.cons_append]
  rw [List.splitOn_append_cons_self_of_not_mem (hdot _), List.splitOn_append_cons_self_of_not_mem
    (hdot _), List.splitOn_append_cons_self_of_not_mem (hdot _), List.splitOn_eq_singleton (hdot _)]

theorem dottedParts_printV4 : dottedParts (printV4 a b c d) =
    [digits a.toNat, digits b.toNat, digits c.toNat, digits d.toNat] := by
  simp [dottedParts, splitAtChar_printV4, Text.digits_ne_nil]

theorem endsInNumber_printV4 : endsInNumber (printV4 a b c d) = true := by
  have hall : (digits d.toNat).all isDigit = true :=
    List.all_eq_true.mpr fun x hx => Text.isDigit_of_mem_digits hx
  simp [endsInNumber, dottedParts_printV4, hall, Text.digits_ne_nil]

theorem ofNat_octets (a b c d : UInt8) :
    IpAddr.ofNat (((a.toNat * 256 + b.toNat) * 256 + c.toNat) * 256 + d.toNat) = .v4 a b c d := by
  have hb := b.toNat_lt
  have hc := c.toNat_lt
  have hd := d.toNat_lt
  have octet : ∀ {n : Nat} {x : UInt8}, n % 256 = x.toNat → n.toUInt8 = x := by
    intro n x h
    exact UInt8.toNat_inj.mp ((UInt8.toNat_ofNat' ..).trans h)
  have ha := a.toNat_lt
  unfold IpAddr.ofNat
  rw [octet (x := a), octet (x := b), octet (x := c), octet (x := d)]
  all_goals omega

theorem dottedAddress?_printV4 : dottedAddress? (printV4 a b c d) = some (.v4 a b c d) := by
  have hnumbers : (dottedParts (printV4 a b c d)).mapM dottedNumber? =
      some [a.toNat, b.toNat, c.toNat, d.toNat] := by
    simp [dottedParts_printV4, dottedNumber?_digits]
  have hoctet : ∀ x : UInt8, x.toNat ≤ 255 := fun x => Nat.le_of_lt_succ x.toNat_lt
  have hlast : d.toNat < 256 := d.toNat_lt
  simp [dottedAddress?, hnumbers, hoctet, hlast, ofNat_octets]

/-- What is written for an address stands for it as a host. -/
theorem parse_printV4 : Host.parse (printV4 a b c d) = .ok (.ip (.v4 a b c d)) := by
  have hplain : ∀ x ∈ printV4 a b c d, x ≠ '%' ∧ x ≠ '[' := fun x hx =>
    forall_isDotted (P := fun x => x ≠ '%' ∧ x ≠ '[') (by decide) (by decide) (isDotted_printV4 x hx)
  have hname : (String.fromUTF8? ⟨(percentDecode (printV4 a b c d)).toArray⟩).bind
      (fun s => Domain.normalize? s.toList) = some (printV4 a b c d) := by
    rw [percentDecode_of_plain fun x hx => (hplain x hx).1, fromUTF8?_encode, Option.bind_some,
      String.toList_ofList, normalize?_of_dotted isDotted_printV4]
  have hnumber : endsInNumber (printV4 a b c d) = true := endsInNumber_printV4
  unfold Host.parse
  split
  · rename_i r heq
    exact absurd rfl (hplain '[' (heq ▸ List.mem_cons_self)).2
  · simp only [hname]
    split
    · contradiction
    · rename_i hempty
      cases hnumber.symm.trans (congrArg endsInNumber (Option.some.inj hempty))
    · rename_i name heq
      obtain rfl := Option.some.inj heq
      rw [if_pos hnumber, dottedAddress?_printV4]

/-! ## URLs -/

section Urls

variable {n : Nat} {path : List Char} {scheme : String}

/-- Neither a path nor nothing at all belongs to what comes before it. -/
def IsPath (path : List Char) : Prop := path = [] ∨ ∃ r, path = '/' :: r

theorem takeWhile_append_path {p : Char → Bool} (h : ∀ x ∈ cs, p x = true) (hslash : p '/' = false)
    (hpath : IsPath path) : (cs ++ path).takeWhile p = cs := by
  rcases hpath with rfl | ⟨r, rfl⟩
  · rw [List.append_nil]
    exact List.takeWhile_eq_self_iff.mpr h
  · exact Text.takeWhile_append_stop h hslash r

theorem splitHost_of_plain (h : ∀ x ∈ cs, x ≠ ':' ∧ x ≠ '[' ∧ x ≠ ']') :
    splitHost false (cs ++ ':' :: rest) = (cs, ':' :: rest) := by
  induction cs with
  | nil => simp [splitHost]
  | cons x cs ih =>
      obtain ⟨hcolon, hopen, hclose⟩ := h x List.mem_cons_self
      have hrest := ih fun y hy => h y (.tail _ hy)
      simp [splitHost, hcolon, hopen, hclose, hrest]

theorem parsePort_digits (scheme : String) (hn : n < 65536) : parsePort scheme (':' :: digits n) =
    .ok (if defaultPort? scheme = some n then none else some n) := by
  have hall : (digits n).takeWhile (· ≠ '\\') = digits n :=
    List.takeWhile_eq_self_iff.mpr fun x hx => Text.forall_isDigit
      (P := fun x => decide (x ≠ '\\') = true) (by decide) (Text.isDigit_of_mem_digits hx)
  have hread : (Text.ofDigits? 10 (digits n)).filter (· < 65536) = some n := by
    rw [Text.ofDigits?_digits]
    exact if_pos (decide_eq_true hn)
  have hne : (digits n).isEmpty = false := by simp [Text.digits_ne_nil]
  simp only [parsePort, hall, hne, hread, Bool.false_eq_true, if_false]

/-- The characters of an address and a port end no authority, and none of them ends a user. -/
theorem endpoint_plain : ∀ x ∈ printV4 a b c d ++ ':' :: digits n,
    endsAuthority true x = false ∧ x ≠ '@' ∧ ' ' < x := by
  refine List.forall_mem_append.mpr ⟨fun x hx => ?_, List.forall_mem_cons.mpr ⟨by decide, ?_⟩⟩
  · exact forall_isDotted (P := fun x => endsAuthority true x = false ∧ x ≠ '@' ∧ ' ' < x) (by decide)
      (by decide) (isDotted_printV4 x hx)
  · exact fun x hx => forall_isDotted (P := fun x => endsAuthority true x = false ∧ x ≠ '@' ∧ ' ' < x)
      (by decide) (by decide) (.inl (Text.isDigit_of_mem_digits hx))

theorem parseAuthority_endpoint (hn : n < 65536) (hpath : IsPath path) :
    parseAuthority scheme true ((printV4 a b c d ++ ':' :: digits n) ++ path) =
      .ok ⟨scheme, some (.ip (.v4 a b c d)), if defaultPort? scheme = some n then none else some n⟩ := by
  have hplain := endpoint_plain (a := a) (b := b) (c := c) (d := d) (n := n)
  have hauthority : ((printV4 a b c d ++ ':' :: digits n) ++ path).takeWhile
      (!endsAuthority true ·) = printV4 a b c d ++ ':' :: digits n :=
    takeWhile_append_path (fun x hx => by rw [(hplain x hx).1]; rfl) (by decide) hpath
  have huser : splitUser (printV4 a b c d ++ ':' :: digits n) =
      (none, printV4 a b c d ++ ':' :: digits n) :=
    if_neg fun hmem => (hplain '@' hmem).2.1 rfl
  have hhost : splitHost false (printV4 a b c d ++ ':' :: digits n) =
      (printV4 a b c d, ':' :: digits n) :=
    splitHost_of_plain fun x hx => forall_isDotted (P := fun x => x ≠ ':' ∧ x ≠ '[' ∧ x ≠ ']')
      (by decide) (by decide) (isDotted_printV4 x hx)
  have hne : (printV4 a b c d).isEmpty = false := by simp [printV4]
  simp only [parseAuthority, hauthority, huser, hhost, hne, Bool.false_eq_true, if_false, if_true,
    parse_printV4, parsePort_digits scheme hn]
  rfl

/-- The scheme of the URLs that are probed. -/
def httpScheme (secure : Bool) : String := if secure then "https" else "http"

theorem readScheme_http (secure : Bool) (cs : List Char) :
    readScheme ((httpScheme secure).toList ++ ':' :: cs) = some (httpScheme secure, cs) := by
  cases secure with
  | true => rfl
  | false => rfl

theorem exists_urlChars_path {s : String} (hcs : ∀ x ∈ cs, ' ' < x) (hne : cs ≠ [])
    (hpath : IsPath path) (hs : s.toList = cs ++ path) :
    ∃ path', urlChars s = cs ++ path' ∧ IsPath path' := by
  rcases hpath with rfl | ⟨r, rfl⟩
  · obtain ⟨q, hq, hsub⟩ := exists_urlChars hcs hne hs
    exact ⟨q, hq, .inl (List.sublist_nil.mp hsub)⟩
  · have hslash : ∀ x ∈ cs ++ ['/'], ' ' < x :=
      List.forall_mem_append.mpr ⟨hcs, List.forall_mem_cons.mpr ⟨by decide, List.forall_mem_nil _⟩⟩
    obtain ⟨q, hq, -⟩ := exists_urlChars hslash (by simp) (q := r) (by simpa using hs)
    exact ⟨'/' :: q, by simpa using hq, .inr ⟨q, rfl⟩⟩

theorem dropSlashes_endpoint : ('/' :: '/' :: ((printV4 a b c d ++ ':' :: digits n) ++ path)).dropWhile
    (fun x => x = '/' || x = '\\') = (printV4 a b c d ++ ':' :: digits n) ++ path := by
  have hplain := endpoint_plain (a := a) (b := b) (c := c) (d := d) (n := n)
  obtain ⟨x, xs, hx⟩ := List.exists_cons_of_ne_nil
    (show printV4 a b c d ++ ':' :: digits n ≠ [] by simp)
  rw [hx] at hplain ⊢
  have hends := (hplain x List.mem_cons_self).1
  have hstop : ¬ (x = '/' || x = '\\') = true := by
    intro hslash
    have hx : x = '/' ∨ x = '\\' := by simpa using hslash
    rcases hx with rfl | rfl <;> exact absurd hends (by decide)
  rw [List.dropWhile_cons_of_pos (by decide), List.dropWhile_cons_of_pos (by decide), List.cons_append]
  exact List.dropWhile_cons_of_neg hstop

/-- Whatever path follows them, an address and a port are read as they were written. -/
theorem parse_endpoint {s : String} {secure : Bool} (hn : n < 65536) (hpath : IsPath path)
    (hs : s.toList = (httpScheme secure).toList ++ ':' :: '/' :: '/' ::
      ((printV4 a b c d ++ ':' :: digits n) ++ path)) :
    Url.parse s = .ok ⟨httpScheme secure, some (.ip (.v4 a b c d)),
      if defaultPort? (httpScheme secure) = some n then none else some n⟩ := by
  have hvisible : ∀ x ∈ (httpScheme secure).toList ++ ':' :: '/' :: '/' ::
      (printV4 a b c d ++ ':' :: digits n), ' ' < x := by
    have hscheme : (httpScheme secure).toList.all (' ' < ·) = true := by cases secure <;> decide
    refine List.forall_mem_append.mpr
      ⟨fun x hx => of_decide_eq_true (List.all_eq_true.mp hscheme x hx), ?_⟩
    simp only [List.forall_mem_cons]
    exact ⟨by decide, by decide, by decide, fun x hx => (endpoint_plain x hx).2.2⟩
  obtain ⟨path', hkept, hpath'⟩ := exists_urlChars_path (s := s) hvisible (by simp)
    hpath (by simp [hs])
  have hfile : httpScheme secure ≠ "file" := by cases secure <;> decide
  have hknown : (defaultPort? (httpScheme secure)).isSome = true := by cases secure <;> rfl
  rw [Url.parse, hkept]
  simp only [List.append_assoc (httpScheme secure).toList, List.cons_append, readScheme_http,
    if_neg hfile, if_pos hknown]
  rw [dropSlashes_endpoint, parseAuthority_endpoint hn hpath']

end Urls

end ReverseProxy.Net
