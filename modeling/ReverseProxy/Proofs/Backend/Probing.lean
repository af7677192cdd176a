import ReverseProxy.Http.Client
import ReverseProxy.Proofs.Backend.Post
import ReverseProxy.Proofs.Http.Spelling
import ReverseProxy.Proofs.Net.Url

/-!
# Health URLs that can be probed

A health URL is accepted by the lenient rules of URLs, but what is probed is its text, by the strict
rules of targets. `probeRequest_of_create` says which of the accepted health URLs are ever probed:
those that are spelled out, with nothing to be repaired. `probe_blank` is about one that is not.
-/

namespace ReverseProxy.Backend

open Http

variable {d : Description} {ctx : Context} {now : Nat} {b : Backend}

theorem of_isSchemeChar {c : Char} (h : Uri.isSchemeChar c = true) : ' ' < c ∧ c ≠ ':' := by
  have hlow : ∀ n < 33, Uri.isSchemeChar (Char.ofNat n) = false := by decide
  constructor
  · by_contra hle
    have hn : c.toNat < 33 := Nat.lt_succ_of_le (Char.le_def.mp (Char.not_lt.mp hle))
    rw [← Char.ofNat_toNat c, hlow _ hn] at h
    cases h
  · rintro rfl
    exact absurd h (by decide)

/-- The scheme of an accepted health URL is one of HTTP where it is spelled out at all. -/
theorem isHttp_of_checkHealthUrl {url : String} (hne : url ≠ "")
    (hcheck : checkHealthUrl url = .ok ()) {u : Uri} (hparse : Uri.parse url = .ok u) {scheme : String}
    (hscheme : u.scheme = some scheme) : Uri.IsHttp scheme.toList := by
  obtain ⟨-, rest, -, -, hread, -⟩ := Uri.exists_of_parse hparse hscheme
  obtain ⟨name, htext, hletters, hname⟩ := Uri.exists_of_readScheme hread
  rw [checkHealthUrl, if_neg hne] at hcheck
  split at hcheck
  · cases hcheck
  · rename_i v hv
    split at hcheck
    · rename_i hknown
      have hlower := Net.scheme_of_parse htext (fun c hc => of_isSchemeChar (hletters c hc)) hv
      simp only [Bool.or_eq_true, decide_eq_true_eq] at hknown
      have hhttp : Uri.IsHttp name := by
        rw [Uri.IsHttp, ← hlower]
        exact hknown.imp (congrArg String.toList) (congrArg String.toList)
      rcases hname with ⟨-, hs⟩ | ⟨hother, -⟩
      · exact hs ▸ hhttp.map_toLower
      · exact absurd hhttp hother
    · cases hcheck

theorem checkHealthUrl_of_create (hcreate : create d ctx now = .ok b) :
    checkHealthUrl b.healthUrl = .ok () := by
  obtain ⟨hcheck, rfl⟩ := create_eq_ok_iff.mp hcreate
  rw [Description.check] at hcheck
  split at hcheck
  · cases hcheck
  · split at hcheck
    · assumption
    · cases hcheck

/-- Which of the accepted health URLs are probed: those that are spelled out. Every probe of such a
one is sent over the network, and every probe of another one fails at once. -/
theorem probeRequest_of_create (hcreate : create d ctx now = .ok b) (hurl : b.healthUrl ≠ "") :
    (∀ u, Uri.SpelledOut b.healthUrl u → ∃ r, Client.probeRequest b.healthUrl = .ok r ∧
      r.method = .get ∧ r.uri = u ∧ Client.hasServer r = true ∧
      ∀ net, Client.transmit net r = net r) ∧
    ((¬ ∃ u, Uri.SpelledOut b.healthUrl u) → ∃ e,
      (e = .connection SendFailure.noServer.message ∨ ∃ text, e = .invalidRequest text) ∧
      ∀ net limit, Client.probe net b.healthUrl limit = .error e) := by
  have hcheck := checkHealthUrl_of_create hcreate
  constructor
  · intro u hu
    obtain ⟨hparse, scheme, hscheme, -⟩ := Uri.spelledOut_iff.mp hu
    obtain ⟨-, _, _, _, -, -, -, hhost, -⟩ := Uri.exists_of_parse hparse hscheme
    have hserver (r : Request) (hr : r.uri = u) : Client.hasServer r = true := by
      rw [Client.hasServer, hr, hhost, hscheme]
      rfl
    refine ⟨_, by rw [Client.probeRequest, hparse], rfl, rfl, hserver _ rfl, fun net => ?_⟩
    exact if_pos (hserver _ rfl)
  · intro hu
    cases hparse : Uri.parse b.healthUrl with
    | error e =>
        refine ⟨.invalidRequest e.message, .inr ⟨_, rfl⟩, fun net limit => ?_⟩
        simp [Client.probe, Client.probeRequest, hparse, bind, Except.bind]
    | ok u =>
        have hscheme : u.scheme = none := by
          by_contra hsome
          obtain ⟨scheme, hscheme⟩ := Option.ne_none_iff_exists'.mp hsome
          exact hu ⟨u, Uri.spelledOut_iff.mpr
            ⟨hparse, scheme, hscheme, isHttp_of_checkHealthUrl hurl hcheck hparse hscheme⟩⟩
        refine ⟨_, .inl rfl, fun net limit => ?_⟩
        have htransmit (r : Request) (hmethod : r.method = .get) (hr : r.uri = u) :
            Client.transmit net r = ⟨.zero, .error .noServer⟩ :=
          if_neg (by simp [Client.hasServer, hmethod, hr, hscheme, show Method.get ≠ .connect by decide])
        simp only [Client.probe, Client.probeRequest, hparse, bind, Except.bind, htransmit]
        exact if_neg (Nat.not_lt_zero limit.nanos)

/-- A scheme in capitals and a fragment are spelled out like any other target. -/
theorem probeRequest_of_create_capitals :
    let d : Description := .ephemeral "a" "a" "10.0.0.1:80" "HTTP://10.0.0.1:80?deep#x"
    let u : Uri := ⟨some "http", some "10.0.0.1:80", "", some "deep"⟩
    ∃ b, create d ⟨{}, false⟩ 0 = .ok b ∧ b.healthUrl ≠ "" ∧ Uri.SpelledOut b.healthUrl u ∧
      ∃ r, Client.probeRequest b.healthUrl = .ok r ∧ r.uri = u ∧
        ∀ net, Client.transmit net r = net r := by
  intro d u
  have hcreate : create d ⟨{}, false⟩ 0 = .ok (start d ⟨{}, false⟩ 0) :=
    create_eq_ok_iff.mpr ⟨by decide +kernel, rfl⟩
  have hparse : Uri.parse d.healthUrl = .ok u := by decide +kernel
  have hspelled : Uri.SpelledOut d.healthUrl u :=
    Uri.spelledOut_iff.mpr ⟨hparse, "http", rfl, .inl (by decide)⟩
  obtain ⟨r, hr, -, huri, -, hnet⟩ :=
    (probeRequest_of_create hcreate (by decide +kernel)).1 u hspelled
  exact ⟨_, hcreate, by decide +kernel, hspelled, r, hr, huri, hnet⟩

/-- A URL with a blank in its path is accepted, for the lenient rules make up for the blank, but no
probe of it is ever sent: over every network it is an invalid request. -/
theorem probe_blank :
    let d : Description := .ephemeral "a" "a" "127.0.0.1:1" "http://127.0.0.1:1/health check"
    ∃ b, create d ⟨{}, false⟩ 0 = .ok b ∧ b.healthUrl ≠ "" ∧ ∀ net limit,
      Client.probe net b.healthUrl limit = .error (.invalidRequest "invalid uri character") := by
  intro d
  have hcreate : create d ⟨{}, false⟩ 0 = .ok (start d ⟨{}, false⟩ 0) :=
    create_eq_ok_iff.mpr ⟨by decide +kernel, rfl⟩
  have hparse : Uri.parse d.healthUrl = .error .invalidChar := by decide +kernel
  refine ⟨_, hcreate, by decide +kernel, fun net limit => ?_⟩
  change Client.probe net d.healthUrl limit = _
  simp only [Client.probe, Client.probeRequest, hparse, bind, Except.bind]
  rfl

end ReverseProxy.Backend
