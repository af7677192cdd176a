import ReverseProxy.Proofs.Http.Target

/-!
# Targets that are spelled out

A target with a scheme of HTTP is read from a text exactly if the text spells it out: the scheme, the
authority, the path and the query one after the other, and perhaps a fragment, all of characters that
may stand there (`spelledOut_iff`).
-/

namespace ReverseProxy.Http

namespace Uri

variable {s scheme : String} {u : Uri} {cs rest : List Char}

/-- A scheme of HTTP, whatever the case of its letters. -/
def IsHttp (name : List Char) : Prop :=
  name.map Char.toLower = ['h', 't', 't', 'p'] ∨ name.map Char.toLower = ['h', 't', 't', 'p', 's']

theorem IsHttp.map_toLower {name : List Char} (h : IsHttp name) : IsHttp (name.map Char.toLower) := by
  rcases h with h | h <;> (rw [IsHttp, h]; decide)

/-- A text that spells a target over HTTP out: scheme, authority, path, query and a fragment, which
is dropped. -/
structure SpelledOut (s : String) (u : Uri) : Prop where
  size : s.utf8ByteSize ≤ maxBytes
  legal : u.Legal
  text : ∃ (name : List Char) (host : String) (fragment : List Char),
    s.toList = name ++ ':' :: '/' :: '/' :: (host.toList ++ (u.tail ++ fragment)) ∧
    IsHttp name ∧ u.scheme = some (String.ofList (name.map Char.toLower)) ∧
    u.authority = some host ∧ IsAuthority host ∧
    (∀ c ∈ (u.tail ++ fragment).head?, endsAuthority c = true) ∧ ∀ c ∈ fragment.head?, c = '#'

/-! ## Parts -/

theorem readPath_append_fragment {fragment : List Char} (h : ∀ c ∈ fragment.head?, c = '#') :
    readPath (cs ++ fragment) = readPath cs := by
  have htake : (cs ++ fragment).takeWhile (· ≠ '#') = cs.takeWhile (· ≠ '#') := by
    induction cs with
    | nil =>
        cases fragment with
        | nil => rfl
        | cons c fragment => simp [h c rfl]
    | cons c cs ih =>
        rw [List.cons_append, List.takeWhile_cons, List.takeWhile_cons, ih]
  rw [readPath, readPath, htake]

theorem exists_fragment {path : String} {query : Option String}
    (h : readPath cs = .ok (path, query)) (scheme authority : Option String) :
    ∃ fragment, cs = tail ⟨scheme, authority, path, query⟩ ++ fragment ∧
      ∀ c ∈ fragment.head?, c = '#' := by
  refine ⟨cs.dropWhile (· ≠ '#'), ?_, fun c hc => ?_⟩
  · have htail : tail ⟨scheme, authority, path, query⟩ = cs.takeWhile (· ≠ '#') := by
      simp only [readPath, Text.drop_length_takeWhile] at h
      generalize cs.takeWhile (· ≠ '#') = ds at h
      have hsplit := List.takeWhile_append_dropWhile (p := (· ≠ '?')) (l := ds)
      have hhead := List.head?_dropWhile_not (· ≠ '?') ds
      split at h
      · cases h
      split at h
      · rename_i d q hq
        rw [hq] at hsplit hhead
        obtain rfl : d = '?' := by simpa using hhead
        split at h
        · cases h
          simpa only [tail, String.toList_ofList, Option.elim_some] using hsplit
        · cases h
      · rename_i hq
        rw [hq] at hsplit
        cases h
        simpa only [tail, String.toList_ofList, Option.elim_none] using hsplit
    rw [htail, List.takeWhile_append_dropWhile]
  · have hhead := List.head?_dropWhile_not (· ≠ '#') cs
    rw [Option.mem_def.mp hc] at hhead
    simpa using hhead

theorem isSchemeChar_toLower (c : Char) : isSchemeChar c.toLower = isSchemeChar c :=
  Text.toLower_cases (P := fun c d => isSchemeChar d = isSchemeChar c) (by decide) (fun _ => rfl) c

theorem exists_of_readScheme (h : readScheme cs = .ok (some scheme, rest)) :
    ∃ name, cs = name ++ ':' :: '/' :: '/' :: rest ∧ (∀ c ∈ name, isSchemeChar c = true) ∧
      ((IsHttp name ∧ scheme.toList = name.map Char.toLower) ∨
        (¬ IsHttp name ∧ scheme.toList = name)) := by
  have hsplit := List.takeWhile_append_dropWhile (p := isSchemeChar) (l := cs)
  have hall := List.all_eq_true.mp (List.all_takeWhile (l := cs) (p := isSchemeChar))
  simp only [readScheme, Text.drop_length_takeWhile] at h
  generalize cs.takeWhile isSchemeChar = name at h hsplit hall
  split at h
  · cases h
  · rename_i hrest
    rw [hrest] at hsplit
    split at h
    · rename_i hhttp
      cases h
      exact ⟨_, hsplit.symm, hall, .inl ⟨by simpa [IsHttp] using hhttp, String.toList_ofList⟩⟩
    · rename_i hother
      split at h
      · cases h
      · cases h
        exact ⟨_, hsplit.symm, hall, .inr ⟨by simpa [IsHttp] using hother, String.toList_ofList⟩⟩
  · cases h

/-- A scheme of HTTP is read whatever the case of its letters. -/
theorem readScheme_http_append {name : List Char} (h : IsHttp name) :
    readScheme (name ++ ':' :: '/' :: '/' :: rest) =
      .ok (some (String.ofList (name.map Char.toLower)), rest) := by
  have hall : ∀ c ∈ name, isSchemeChar c = true := by
    have hlower : (name.map Char.toLower).all isSchemeChar = true := by
      rcases h with h | h <;> (rw [h]; decide)
    intro c hc
    rw [← isSchemeChar_toLower]
    exact List.all_eq_true.mp hlower _ (List.mem_map_of_mem hc)
  have htake : (name ++ ':' :: '/' :: '/' :: rest).takeWhile isSchemeChar = name := by
    rw [List.takeWhile_append_of_pos hall]
    simp [isSchemeChar]
  cases name with
  | nil => simp [IsHttp] at h
  | cons c name =>
      simp only [readScheme, htake, List.drop_left]
      exact if_pos (by simpa [IsHttp] using h)

theorem exists_of_parse (h : parse s = .ok u) (hscheme : u.scheme = some scheme) :
    s.utf8ByteSize ≤ maxBytes ∧ ∃ rest name tail, readScheme s.toList = .ok (some scheme, rest) ∧
      readAuthority rest = .ok (name, tail) ∧ name ≠ [] ∧ u.authority = some (String.ofList name) ∧
      readPath tail = .ok (u.path, u.query) := by
  unfold parse at h
  simp only [bind, Except.bind, pure, Except.pure, throw, throwThe, MonadExceptOf.throw] at h
  split at h
  · cases h
  rename_i hsize
  refine ⟨Nat.not_lt.mp hsize, ?_⟩
  split at h
  · cases h
  · cases h
    cases hscheme
  · split at h
    · cases h
    · cases h
      cases hscheme
  · split at h
    · cases h
    rename_i read hread
    obtain ⟨scheme', rest⟩ := read
    split at h
    · cases h
    split at h
    · cases h
    rename_i read hauthority
    obtain ⟨name, tail⟩ := read
    dsimp only at h
    split at h
    · split at h
      · cases h
        cases hscheme
      · cases h
    · split at h
      · cases h
      rename_i hname
      split at h
      · cases h
      · rename_i hpath
        cases h
        cases hscheme
        exact ⟨rest, name, tail, hread, hauthority, by simpa using hname, rfl, hpath⟩

theorem parse_eq_ok {rest name tail : List Char} {path : String} {query : Option String}
    (hsize : s.utf8ByteSize ≤ maxBytes) (hscheme : readScheme s.toList = .ok (some scheme, rest))
    (hauthority : readAuthority rest = .ok (name, tail)) (hname : name ≠ [])
    (hpath : readPath tail = .ok (path, query)) :
    parse s = .ok ⟨some scheme, some (String.ofList name), path, query⟩ := by
  have hrest : rest.isEmpty = false := by
    cases rest with
    | nil =>
        obtain ⟨hnil, -⟩ := readAuthority_eq_ok_iff.mp hauthority
        exact absurd hnil.symm hname
    | cons => rfl
  unfold parse
  simp only [bind, Except.bind, pure, Except.pure, throw, throwThe, MonadExceptOf.throw]
  rw [if_neg (Nat.not_lt.mpr hsize)]
  -- A text that begins with a scheme is neither empty nor an asterisk nor a bare path.
  split
  · rename_i hempty
    rw [hempty] at hscheme
    cases hscheme
  · rename_i hstar
    rw [hstar] at hscheme
    cases hscheme
  · rename_i hslash
    simp [hslash, readScheme, isSchemeChar] at hscheme
  · simp only [hscheme, hrest, hauthority, List.isEmpty_eq_false_iff.mpr hname, Bool.false_eq_true, if_false, hpath]

theorem exists_of_readAuthority {name tail : List Char}
    (h : readAuthority rest = .ok (name, tail)) :
    rest = name ++ tail ∧ readAuthority name = .ok (name, []) ∧
      ∀ c ∈ tail.head?, endsAuthority c = true := by
  obtain ⟨hname, htail, hcomplete⟩ := readAuthority_eq_ok_iff.mp h
  have hall : name.all (!endsAuthority ·) = true := hname ▸ List.all_takeWhile
  refine ⟨?_, readAuthority_eq_ok_iff.mpr ⟨?_, List.drop_length, hcomplete⟩, fun c hc => ?_⟩
  · rw [← htail, ← hname, Text.drop_length_takeWhile, List.takeWhile_append_dropWhile]
  · exact List.takeWhile_eq_self_iff.mpr (List.all_eq_true.mp hall)
  · rw [← htail, ← hname, Text.drop_length_takeWhile] at hc
    have hhead := List.head?_dropWhile_not (!endsAuthority ·) rest
    rw [Option.mem_def.mp hc] at hhead
    simpa using hhead

/-- What is spelled out is read, and nothing else is read with a scheme of HTTP. -/
theorem spelledOut_iff :
    SpelledOut s u ↔ parse s = .ok u ∧ ∃ scheme, u.scheme = some scheme ∧ IsHttp scheme.toList := by
  constructor
  · rintro ⟨hsize, hlegal, name, host, fragment, htext, hname, hscheme, hhost, ⟨hne, hauthority⟩,
      hstart, hfragment⟩
    have hread : readScheme s.toList = .ok (some (String.ofList (name.map Char.toLower)),
        host.toList ++ (u.tail ++ fragment)) := htext ▸ readScheme_http_append hname
    have hpath : readPath (u.tail ++ fragment) = .ok (u.path, u.query) :=
      (readPath_append_fragment hfragment).trans (readPath_tail hlegal)
    have hparse := parse_eq_ok hsize hread (readAuthority_append hauthority hstart)
      (by simpa using hne) hpath
    rw [String.ofList_toList, ← hscheme, ← hhost] at hparse
    exact ⟨hparse, _, hscheme, String.toList_ofList.symm ▸ hname.map_toLower⟩
  · rintro ⟨hparse, scheme, hs, hhttp⟩
    obtain ⟨hsize, rest, host, tail, hread, hauthority, hne, hhost, hpath⟩ :=
      exists_of_parse hparse hs
    obtain ⟨name, htext, -, ⟨hname, hletters⟩ | ⟨hother, hletters⟩⟩ := exists_of_readScheme hread
    · obtain ⟨hrest, hwhole, hstart⟩ := exists_of_readAuthority hauthority
      obtain ⟨fragment, htail, hfragment⟩ := exists_fragment hpath u.scheme u.authority
      refine ⟨hsize, legal_of_parse hparse, name, String.ofList host, fragment, ?_, hname, ?_, hhost,
        ⟨by simpa using hne, by rwa [String.toList_ofList]⟩, htail ▸ hstart, hfragment⟩
      · rw [htext, hrest, htail, String.toList_ofList]
      · rw [hs, ← hletters, String.ofList_toList]
    · exact absurd (hletters ▸ hhttp) hother

end Uri

end ReverseProxy.Http
