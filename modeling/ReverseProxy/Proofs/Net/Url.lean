import ReverseProxy.Net.Url
import ReverseProxy.Proofs.Text.Words

/-!
# Schemes of URLs

However much of a URL is made up for, its scheme is the word before the first colon, in lower case,
if there are no blanks in that word (`scheme_of_parse`).
-/

namespace ReverseProxy.Net

variable {s scheme : String} {v : Url} {p q cs rest : List Char}

theorem parseAuthority_scheme {known : Bool} (h : parseAuthority scheme known cs = .ok v) :
    v.scheme = scheme := by
  simp only [parseAuthority, bind, Except.bind, pure, Except.pure, throw, throwThe,
    MonadExceptOf.throw] at h
  split at h
  · split at h
    · cases h
    · cases h
      rfl
  · split at h
    · split at h
      · cases h
      split at h
      · cases h
      · cases h
        rfl
    · split at h
      · cases h
      split at h
      · cases h
      · cases h
        rfl

theorem parseFile_scheme (h : parseFile cs = .ok v) : v.scheme = "file" := by
  unfold parseFile at h
  split at h
  · split at h
    · dsimp only at h
      split at h
      · cases h
        rfl
      · generalize Host.parse _ = host at h
        cases host with
        | error => cases h
        | ok =>
            cases h
            rfl
    · cases h
      rfl
  · cases h
    rfl

theorem readScheme_of_parse (h : Url.parse s = .ok v) :
    ∃ cs, readScheme (urlChars s) = some (v.scheme, cs) := by
  unfold Url.parse at h
  split at h
  · cases h
  · rename_i scheme cs hread
    refine ⟨cs, ?_⟩
    split at h
    · rename_i hfile
      rw [parseFile_scheme h, hread, hfile]
    · split at h
      · rw [parseAuthority_scheme h, hread]
      · split at h
        · rw [parseAuthority_scheme h, hread]
        · cases h
          exact hread

theorem takeWhile_ne_colon (hp : ∀ c ∈ p, c ≠ ':') :
    (p ++ ':' :: q).takeWhile (· ≠ ':') = p := by
  rw [List.takeWhile_append_of_pos fun c hc => decide_eq_true (hp c hc)]
  simp

/-- A scheme ends at the first colon. -/
theorem readScheme_append (hp : ∀ c ∈ p, c ≠ ':')
    (h : readScheme (p ++ ':' :: q) = some (scheme, rest)) :
    scheme.toList = p.map Char.toLower := by
  simp only [readScheme, Text.drop_length_takeWhile] at h
  generalize hname : (p ++ ':' :: q).takeWhile
    (fun c => c.isAlphanum || c = '+' || c = '-' || c = '.') = name at h
  split at h
  · rename_i hrest
    have hsplit := List.takeWhile_append_dropWhile (l := p ++ ':' :: q)
      (p := fun c => c.isAlphanum || c = '+' || c = '-' || c = '.')
    rw [hname, hrest] at hsplit
    have hcolon : ∀ c ∈ name, c ≠ ':' := by
      rintro c hc rfl
      rw [← hname] at hc
      have hletter := List.all_eq_true.mp List.all_takeWhile _ hc
      exact absurd hletter (by decide)
    have heq : name = p := by
      rw [← takeWhile_ne_colon hcolon, hsplit, takeWhile_ne_colon hp]
    split at h
    · cases h
      rw [String.toList_ofList, heq]
    · cases h
  · cases h

theorem dropWhile_blank (hp : ∀ c ∈ p, ' ' < c) : p.dropWhile (· ≤ ' ') = p := by
  cases p with
  | nil => rfl
  | cons c p => exact List.dropWhile_cons_of_neg (by simpa using hp c List.mem_cons_self)

/-- A text without blanks at the beginning stays, whatever is dropped of what follows it. -/
theorem exists_urlChars (hp : ∀ c ∈ p, ' ' < c) (hne : p ≠ []) (hs : s.toList = p ++ q) :
    ∃ q', urlChars s = p ++ q' ∧ q'.Sublist q := by
  have hhead : (p ++ q).dropWhile (· ≤ ' ') = p ++ q := by
    obtain ⟨c, p, rfl⟩ := List.exists_cons_of_ne_nil hne
    exact List.dropWhile_cons_of_neg (by simpa using hp c List.mem_cons_self)
  have hlast : ∃ r, ((p ++ q).reverse.dropWhile (· ≤ ' ')).reverse = p ++ r ∧ r.Sublist q := by
    rw [List.reverse_append, List.dropWhile_append]
    split
    · rw [dropWhile_blank fun c hc => hp c (List.mem_reverse.mp hc), List.reverse_reverse]
      exact ⟨[], (List.append_nil p).symm, List.nil_sublist q⟩
    · refine ⟨_, by rw [List.reverse_append, List.reverse_reverse], ?_⟩
      have hsub := (List.dropWhile_sublist (· ≤ ' ') (l := q.reverse)).reverse
      rwa [List.reverse_reverse] at hsub
  obtain ⟨r, hr, hsub⟩ := hlast
  have hkept : p.filter (fun c => c ≠ '\t' && c ≠ '\n' && c ≠ '\r') = p := by
    refine List.filter_eq_self.mpr fun c hc => ?_
    have hlow := hp c hc
    simp only [ne_eq, decide_not, Bool.and_eq_true, Bool.not_eq_true', decide_eq_false_iff_not]
    refine ⟨⟨?_, ?_⟩, ?_⟩ <;> (rintro rfl; exact absurd hlow (by decide))
  exact ⟨_, by rw [urlChars, hs, hhead, hr, List.filter_append, hkept], List.filter_sublist.trans hsub⟩

theorem scheme_of_parse (hs : s.toList = p ++ ':' :: q) (hp : ∀ c ∈ p, ' ' < c ∧ c ≠ ':')
    (h : Url.parse s = .ok v) : v.scheme.toList = p.map Char.toLower := by
  have hblank : ∀ c ∈ p ++ [':'], ' ' < c := by
    refine List.forall_mem_append.mpr ⟨fun c hc => (hp c hc).1, ?_⟩
    rintro c (_ | ⟨_, ⟨⟩⟩)
    decide
  obtain ⟨q', hq', -⟩ := exists_urlChars (s := s) (q := q) hblank (by simp) (by simp [hs])
  obtain ⟨cs, hread⟩ := readScheme_of_parse h
  rw [hq', List.append_assoc, List.singleton_append] at hread
  exact readScheme_append (fun c hc => (hp c hc).2) hread

end ReverseProxy.Net
