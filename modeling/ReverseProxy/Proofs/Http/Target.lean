import Mathlib.Data.List.TakeWhile
import ReverseProxy.Proofs.Http.Forwarding

/-!
# Targets of forwarded requests

The target of a forwarded request is put together from text and read again. It is read as it was put
together: whatever path and query a client sends, the authority is the host of the backend
(`target_forwardedTo`).
-/

namespace ReverseProxy.Http

namespace Uri

/-- A text that is an authority as a whole. -/
def IsAuthority (host : String) : Prop :=
  host ≠ "" ∧ readAuthority host.toList = .ok (host.toList, [])

instance (host : String) : Decidable (IsAuthority host) :=
  inferInstanceAs (Decidable (host ≠ "" ∧ readAuthority host.toList = .ok (host.toList, [])))

/-- A target whose path and query hold only characters that such parts may hold, as in every target
that is read (`legal_of_parse`). -/
structure Legal (u : Uri) : Prop where
  path : ∀ c ∈ u.path.toList, isPathChar c = true
  query : ∀ q ∈ u.query, ∀ c ∈ q.toList, isQueryChar c = true

/-! ## Targets that are read are legal -/

theorem legal_of_readPath {cs : List Char} {path : String} {query : Option String}
    (h : readPath cs = .ok (path, query)) (scheme authority : Option String) :
    Legal ⟨scheme, authority, path, query⟩ := by
  simp only [readPath] at h
  split at h
  · cases h
  · rename_i hpath
    simp only [Bool.not_eq_true', Bool.not_eq_false, List.all_eq_true] at hpath
    split at h
    · split at h
      · rename_i hquery
        cases h
        refine ⟨by simpa using hpath, fun q hq => ?_⟩
        cases hq
        simpa using hquery
      · cases h
    · cases h
      exact ⟨by simpa using hpath, by simp⟩

theorem legal_of_parse {s : String} {u : Uri} (h : parse s = .ok u) : u.Legal := by
  have hbare : ∀ authority, Legal ⟨none, authority, "", none⟩ := fun _ => ⟨by simp, by simp⟩
  unfold parse at h
  simp only [bind, Except.bind, pure, Except.pure, throw, throwThe, MonadExceptOf.throw] at h
  split at h
  · cases h
  split at h
  · cases h
  · cases h
    exact ⟨List.all_eq_true.mp (by decide), by simp⟩
  · split at h
    · cases h
    · rename_i hpath
      cases h
      exact legal_of_readPath hpath _ _
  · split at h
    · cases h
    split at h
    · cases h
    split at h
    · cases h
    split at h
    · split at h
      · cases h
        exact hbare _
      · cases h
    · split at h
      · cases h
      split at h
      · cases h
      · rename_i hpath
        cases h
        exact legal_of_readPath hpath _ _

/-! ## Reading what was put together -/

theorem readAuthority_eq_ok_iff {cs name rest : List Char} :
    readAuthority cs = .ok (name, rest) ↔
      cs.takeWhile (!endsAuthority ·) = name ∧ cs.drop name.length = rest ∧
        ∃ s, name.foldlM AuthorityState.step {} = .ok s ∧ s.complete = true := by
  rw [readAuthority]
  constructor
  · intro h
    cases hs : (cs.takeWhile (!endsAuthority ·)).foldlM AuthorityState.step {} with
    | error e => rw [hs] at h; cases h
    | ok s =>
        rw [hs] at h
        change (if s.complete = true then _ else _) = _ at h
        split at h
        · rename_i hcomplete
          cases h
          exact ⟨rfl, rfl, s, hs, hcomplete⟩
        · cases h
  · rintro ⟨rfl, rfl, s, hs, hcomplete⟩
    rw [hs]
    exact if_pos hcomplete

/-- An authority is read up to what ends it. -/
theorem readAuthority_append {host rest : List Char} (hhost : readAuthority host = .ok (host, []))
    (hrest : ∀ c ∈ rest.head?, endsAuthority c = true) :
    readAuthority (host ++ rest) = .ok (host, rest) := by
  obtain ⟨hname, -, hcomplete⟩ := readAuthority_eq_ok_iff.mp hhost
  refine readAuthority_eq_ok_iff.mpr ⟨?_, List.drop_left, hcomplete⟩
  rw [List.takeWhile_append_of_pos (List.takeWhile_eq_self_iff.mp hname)]
  cases rest with
  | nil => exact List.append_nil host
  | cons c rest => simp [hrest c rfl]

theorem readScheme_http (rest : List Char) :
    readScheme ('h' :: 't' :: 't' :: 'p' :: ':' :: '/' :: '/' :: rest) = .ok (some "http", rest) :=
  rfl

theorem ne_of_isPathChar {c : Char} (h : isPathChar c = true) : c ≠ '?' ∧ c ≠ '#' := by
  constructor <;> rintro rfl <;> exact absurd h (by decide)

theorem ne_of_isQueryChar {c : Char} (h : isQueryChar c = true) : c ≠ '#' := by
  rintro rfl
  exact absurd h (by decide)

/-- The path and the query of a target as they stand in its text. -/
def tail (u : Uri) : List Char :=
  u.path.toList ++ u.query.elim [] ('?' :: ·.toList)

theorem readPath_tail {u : Uri} (h : u.Legal) : readPath u.tail = .ok (u.path, u.query) := by
  obtain ⟨scheme, authority, path, query⟩ := u
  obtain ⟨hpath, hquery⟩ := h
  simp only at hpath hquery
  have hall : path.toList.all isPathChar = true := List.all_eq_true.mpr hpath
  have hstop : ∀ c ∈ path.toList, decide (c ≠ '?') = true := fun c hc =>
    decide_eq_true (ne_of_isPathChar (hpath c hc)).1
  cases query with
  | none =>
      have htail : tail ⟨scheme, authority, path, none⟩ = path.toList := List.append_nil _
      have hfragment : path.toList.takeWhile (· ≠ '#') = path.toList :=
        List.takeWhile_eq_self_iff.mpr fun c hc => decide_eq_true (ne_of_isPathChar (hpath c hc)).2
      have hname : path.toList.takeWhile (· ≠ '?') = path.toList :=
        List.takeWhile_eq_self_iff.mpr hstop
      simp only [readPath, htail, hfragment, hname, hall, List.drop_length]
      simp
  | some q =>
      have hq : ∀ c ∈ q.toList, isQueryChar c = true := hquery q rfl
      have htail : tail ⟨scheme, authority, path, some q⟩ = path.toList ++ '?' :: q.toList := rfl
      have hfragment : (path.toList ++ '?' :: q.toList).takeWhile (· ≠ '#') =
          path.toList ++ '?' :: q.toList := by
        refine List.takeWhile_eq_self_iff.mpr (List.forall_mem_append.mpr ⟨fun c hc => ?_, ?_⟩)
        · exact decide_eq_true (ne_of_isPathChar (hpath c hc)).2
        · refine List.forall_mem_cons.mpr ⟨by decide, fun c hc => ?_⟩
          exact decide_eq_true (ne_of_isQueryChar (hq c hc))
      have hname : (path.toList ++ '?' :: q.toList).takeWhile (· ≠ '?') = path.toList := by
        rw [List.takeWhile_append_of_pos hstop]
        simp
      simp only [readPath, htail, hfragment, hname, hall, List.drop_left]
      simpa using hq

/-- A target is read as it was put together from an authority and a path or a query. -/
theorem parse_assembled {host : String} {u : Uri} (hhost : IsAuthority host) (hu : u.Legal)
    (hstart : ∀ c ∈ u.tail.head?, endsAuthority c = true)
    (hsize : ("http://" ++ host ++ String.ofList u.tail).utf8ByteSize ≤ maxBytes) :
    parse ("http://" ++ host ++ String.ofList u.tail) =
      .ok ⟨some "http", some host, u.path, u.query⟩ := by
  obtain ⟨hne, hauthority⟩ := hhost
  have hchars : ("http://" ++ host ++ String.ofList u.tail).toList =
      'h' :: 't' :: 't' :: 'p' :: ':' :: '/' :: '/' :: (host.toList ++ u.tail) := by
    simp [String.toList_append]
  have hrest : (host.toList ++ u.tail).isEmpty = false := by
    simp [hne]
  have hname : host.toList.isEmpty = false := by
    simp [hne]
  unfold parse
  simp only [bind, Except.bind, pure, Except.pure, throw, throwThe, MonadExceptOf.throw]
  rw [if_neg (Nat.not_lt.mpr hsize), hchars]
  -- A text that begins with a scheme is neither empty nor an asterisk nor a bare path.
  split
  · rename_i hempty
    cases hempty
  · rename_i hstar
    simp at hstar
  · rename_i hpath
    simp at hpath
  · simp only [readScheme_http, hrest, hname, Bool.false_eq_true, if_false,
      readAuthority_append hauthority hstart, readPath_tail hu, String.ofList_toList]

/-- The path of a served target begins with a slash, if it is spelled at all. -/
theorem head_path {u : Uri} (hserved : u.isServed = true) : ∀ c ∈ u.path.toList.head?, c = '/' := by
  intro c hc
  have hpath : u.path.isEmpty = false := by
    cases hempty : u.path.isEmpty with
    | false => rfl
    | true =>
        rw [String.isEmpty_iff.mp hempty] at hc
        cases hc
  rw [isServed, pathOrRoot, hpath, Bool.false_and, if_neg Bool.false_ne_true, decide_eq_true_eq,
    hc] at hserved
  exact Option.some.inj hserved

/-- What is forwarded of a served target is the path and the query of another one, which begin as
the end of an authority. -/
theorem exists_tail {u : Uri} (hu : u.Legal) (hserved : u.isServed = true) (host : String) :
    ∃ v : Uri, v.Legal ∧ String.ofList v.tail = u.pathAndQuery?.getD "/" ∧
      (∀ c ∈ v.tail.head?, endsAuthority c = true) ∧
      pathAndQuery? ⟨some "http", some host, v.path, v.query⟩ =
        some (u.pathAndQuery?.getD "/") := by
  have hhead := head_path hserved
  obtain ⟨scheme, authority, path, query⟩ := u
  have hroot : Legal ⟨none, none, "/", none⟩ := ⟨List.all_eq_true.mp (by decide), by simp⟩
  have hslash : ∀ c ∈ ['/'].head?, endsAuthority c = true := by simp [endsAuthority]
  -- The root stands for a path that is empty or missing, unless a query stands in its place.
  cases hinbound : pathAndQuery? ⟨scheme, authority, path, query⟩ with
  | none => exact ⟨_, hroot, rfl, hslash, rfl⟩
  | some text =>
      rw [pathAndQuery?] at hinbound
      split at hinbound
      · cases query with
        | some q =>
            cases hinbound
            refine ⟨_, hu, String.toList_inj.mp (by simp [tail]), fun c hc => ?_, rfl⟩
            cases hchars : path.toList with
            | nil =>
                simp only [tail, hchars] at hc
                cases hc
                decide
            | cons d ds =>
                simp only [tail, hchars] at hc
                cases hc
                rw [hhead c (by simp [hchars])]
                decide
        | none =>
            cases hinbound
            by_cases hempty : path.isEmpty = true
            · exact ⟨_, hroot, by rw [if_pos hempty]; rfl, hslash, by rw [if_pos hempty]; rfl⟩
            · refine ⟨_, hu, String.toList_inj.mp (by simp [tail, hempty]), fun c hc => ?_, rfl⟩
              rw [tail, Option.elim_none, List.append_nil] at hc
              rw [hhead c hc]
              decide
      · cases hinbound

end Uri

namespace Request

variable {r out : Request} {host : String}

/-- The text of the target of a request that is forwarded to a host. -/
def targetText (r : Request) (host : String) : String :=
  "http://" ++ host ++ r.uri.pathAndQuery?.getD "/"

/-- A request that goes to a host, with the path and the query of another one. -/
structure Addressed (r : Request) (host : String) (out : Request) : Prop where
  scheme : out.uri.scheme = some "http"
  authority : out.uri.authority = some host
  pathAndQuery : out.uri.pathAndQuery? = some (r.uri.pathAndQuery?.getD "/")
  version : out.version = .http11

theorem forwardedTo_addressed (hlegal : r.uri.Legal) (hserved : r.uri.isServed = true)
    (hhost : Uri.IsAuthority host) (peer : Option Net.IpAddr)
    (hsize : (r.targetText host).utf8ByteSize ≤ Uri.maxBytes) :
    ∃ out, r.forwardedTo host peer = .ok out ∧ Addressed r host out := by
  obtain ⟨v, hv, htext, hstart, hsame⟩ := Uri.exists_tail hlegal hserved host
  have htarget : r.targetAt host = .ok ⟨some "http", some host, v.path, v.query⟩ := by
    rw [targetText, ← htext] at hsize
    rw [targetAt, ← htext]
    exact Uri.parse_assembled hhost hv hstart hsize
  exact ⟨_, by rw [forwardedTo, htarget]; rfl, rfl, rfl, hsame, rfl⟩

theorem forwardedTo_tooLong (peer : Option Net.IpAddr)
    (hlong : Uri.maxBytes < (r.targetText host).utf8ByteSize) :
    r.forwardedTo host peer = .error .tooLong := by
  have htarget : r.targetAt host = .error .tooLong := by
    rw [targetText] at hlong
    rw [targetAt, Uri.parse, if_pos hlong]
    rfl
  rw [forwardedTo, htarget]
  rfl

theorem addressed_of_forwardedTo (hlegal : r.uri.Legal) (hserved : r.uri.isServed = true)
    (hhost : Uri.IsAuthority host) {peer : Option Net.IpAddr}
    (hout : r.forwardedTo host peer = .ok out) : Addressed r host out := by
  rcases Nat.lt_or_ge Uri.maxBytes (r.targetText host).utf8ByteSize with hlong | hsize
  · rw [forwardedTo_tooLong peer hlong] at hout
    cases hout
  · obtain ⟨out', hout', haddressed⟩ := forwardedTo_addressed hlegal hserved hhost peer hsize
    cases hout'.symm.trans hout
    exact haddressed

/-- A served request is forwarded to a host with the path and the query that came, byte by byte,
whatever they are; only one whose target is too long as a whole is not forwarded. So all that goes
to a backend is addressed to the backend that was chosen. -/
theorem target_forwardedTo (hlegal : r.uri.Legal) (hserved : r.uri.isServed = true) :
    (∀ host peer, Uri.IsAuthority host →
      ((r.targetText host).utf8ByteSize ≤ Uri.maxBytes →
        ∃ out, r.forwardedTo host peer = .ok out ∧ Addressed r host out) ∧
      (Uri.maxBytes < (r.targetText host).utf8ByteSize →
        r.forwardedTo host peer = .error .tooLong)) ∧
    ∀ (p : Proxy) (g : Generation) (f : Fleet) (client : Option Net.SocketAddr) (upgradable : Bool)
      (h : Handle) (out : Request),
      (p.handle g f r client upgradable).1 = .forwarded h out ∨
          (p.handle g f r client upgradable).1 = .upgrading h out →
        ∃ b, f.get? h = some b ∧ (Uri.IsAuthority b.host → Addressed r b.host out) := by
  refine ⟨fun host peer hhost => ?_, fun p g f client upgradable h out hsent => ?_⟩
  · exact ⟨forwardedTo_addressed hlegal hserved hhost peer, forwardedTo_tooLong peer⟩
  · obtain ⟨b, hget, hout⟩ := (p.handled_handle g f r client upgradable).sent hsent
    exact ⟨b, hget, fun hhost => addressed_of_forwardedTo hlegal hserved hhost hout⟩

/-- A client asks for another server in its absolute target and in its query, which stands right
after the authority. -/
theorem target_forwardedTo_absolute :
    let r : Request :=
      ⟨.get, ⟨some "ftp", some "u:p@evil.example:21", "", some "@evil.example:80//x?y"⟩, .http10,
        .empty, []⟩
    let host := "[2001:db8::1]:8080"
    let context : Backend.Context := ⟨{ unmonitored := true }, false⟩
    let f : Fleet := { backends := [.start (.ephemeral "a" "a" host "") context 0] }
    let p : Proxy := .serving {} ⟨.leastConnections, 0, ⟨[0], context⟩⟩
    let out : Request :=
      { r with
        uri := ⟨some "http", some host, "", some "@evil.example:80//x?y"⟩, version := .http11 }
    Uri.parse "ftp://u:p@evil.example:21?@evil.example:80//x?y" = .ok r.uri ∧
      r.uri.isServed = true ∧ Uri.IsAuthority host ∧
      (∃ sent, r.forwardedTo host none = .ok sent ∧ Addressed r host sent) ∧
      (p.handle p.generation f r none false).1 = .forwarded 0 out ∧ Addressed r host out := by
  intro r host context f p out
  have hread : Uri.parse "ftp://u:p@evil.example:21?@evil.example:80//x?y" = .ok r.uri := by
    decide +kernel
  have hserved : r.uri.isServed = true := by decide +kernel
  have hhost : Uri.IsAuthority host := by decide +kernel
  have harrived : (p.handle p.generation f r none false).1 = .forwarded 0 out := by decide +kernel
  obtain ⟨hforwarded, hsent⟩ := target_forwardedTo (Uri.legal_of_parse hread) hserved
  obtain ⟨b, hb, haddressed⟩ := hsent p p.generation f none false 0 out (.inl harrived)
  cases hb
  exact ⟨hread, hserved, hhost, (hforwarded host none hhost).1 (by decide +kernel), harrived,
    haddressed hhost⟩

end Request

end ReverseProxy.Http
