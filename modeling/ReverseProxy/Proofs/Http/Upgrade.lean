import Mathlib.Logic.Relation
import ReverseProxy.Http.Client
import ReverseProxy.Proofs.Http.Forwarding
import ReverseProxy.Websocket.Handover

/-!
# Requests for a websocket

Whether headers ask for a websocket depends on what `Connection` lists and on the first value of
`Upgrade` alone, not on how that is spelled, and it is the same before and after forwarding
(`asksForWebsocket_forwardedTo`). So what goes over a pooled connection never asks for one, and what
goes over a connection of its own always does.
-/

namespace ReverseProxy.Http

/-! ## Other spellings -/

/-- One way to spell the values of `Connection` differently. Lines are changed only if they are
visible text. -/
inductive Respelled : List FieldValue → List FieldValue → Prop
  /-- Two lines are joined at a comma; read backwards, a line is split at one. -/
  | joined {before after v w joint cs ds} (hv : v.Spells cs) (hw : w.Spells ds)
      (hjoint : joint.Spells (cs ++ ',' :: ds)) :
      Respelled (before ++ v :: w :: after) (before ++ joint :: after)
  | reordered {vs ws} (h : vs.Perm ws) : Respelled vs ws
  /-- The elements of a line are padded with blanks, or lose some, and change their letter case. -/
  | padded {before after v w cs ds} (hv : v.Spells cs) (hw : w.Spells ds)
      (h : List.Forall₂ Text.SameWord (cs.splitOn ',') (ds.splitOn ',')) :
      Respelled (before ++ v :: after) (before ++ w :: after)

/-- One change to headers that leaves alone what they ask for. -/
inductive Headers.Reworded : Headers → Headers → Prop
  | connection {h h' : Headers} (hlines : Respelled (h.getAll .connection) (h'.getAll .connection))
      (hupgrade : h'.getAll .upgrade = h.getAll .upgrade) : Reworded h h'
  /-- The first value of `Upgrade` is padded with blanks, or loses some, and changes its letter
  case. -/
  | upgrade {h h' : Headers} {v w cs ds} (hv : v.Spells cs) (hw : w.Spells ds)
      (hlines : h'.getAll .connection = h.getAll .connection)
      (hfirst : (h.getAll .upgrade).head? = some v) (hfirst' : (h'.getAll .upgrade).head? = some w)
      (hsame : Text.SameWord cs ds) : Reworded h h'
  /-- Fields of other names are added, removed or changed. -/
  | others {h h' : Headers} (hlines : h'.getAll .connection = h.getAll .connection)
      (hupgrade : h'.getAll .upgrade = h.getAll .upgrade) : Reworded h h'

section Listed

variable {v : FieldValue} {vs ws : List FieldValue} {word cs : List Char}

theorem listed_append : Listed (vs ++ ws) word ↔ Listed vs word ∨ Listed ws word := by
  simp only [Listed, List.mem_append, or_and_right, exists_or]

theorem spells_and (hv : v.Spells cs) {P : List Char → Prop} : (∃ ds, v.Spells ds ∧ P ds) ↔ P cs :=
  ⟨fun ⟨_, hds, h⟩ => hv.unique hds ▸ h, fun h => ⟨cs, hv, h⟩⟩

theorem listed_cons (hv : v.Spells cs) :
    Listed (v :: vs) word ↔ (∃ e ∈ cs.splitOn ',', Text.SameWord e word) ∨ Listed vs word := by
  simp only [Listed, List.mem_cons, or_and_right, exists_or, exists_eq_left, spells_and hv]

theorem exists_sameWord_iff {es fs : List (List Char)} (h : List.Forall₂ Text.SameWord es fs)
    (hes : ∀ e ∈ es, ∀ c ∈ e, Text.IsVisible c) (hfs : ∀ f ∈ fs, ∀ c ∈ f, Text.IsVisible c)
    (hword : ∀ c ∈ word, Text.IsVisible c) :
    (∃ e ∈ es, Text.SameWord e word) ↔ ∃ f ∈ fs, Text.SameWord f word := by
  induction h with
  | nil => simp
  | cons hef _ ih =>
      obtain ⟨he, hes⟩ := List.forall_mem_cons.mp hes
      obtain ⟨hf, hfs⟩ := List.forall_mem_cons.mp hfs
      simp only [List.mem_cons, or_and_right, exists_or, exists_eq_left]
      rw [Text.sameWord_congr hef he hf hword, ih hes hfs]

theorem Respelled.listed_iff (h : Respelled vs ws) (hword : ∀ c ∈ word, Text.IsVisible c) :
    Listed vs word ↔ Listed ws word := by
  cases h with
  | joined hv hw hjoint =>
      rw [listed_append, listed_append, listed_cons hv, listed_cons hw, listed_cons hjoint,
        List.splitOn_append_cons_self]
      simp only [List.mem_append, or_and_right, exists_or, or_assoc]
  | reordered h => exact exists_congr fun v => and_congr_left fun _ => h.mem_iff
  | padded hv hw h =>
      have hpieces : ∀ {v : FieldValue} {cs : List Char}, v.Spells cs →
          ∀ e ∈ cs.splitOn ',', ∀ c ∈ e, Text.IsVisible c :=
        fun hv _ he c hc => hv.1 c (Text.mem_of_mem_splitOn he hc)
      rw [listed_append, listed_append, listed_cons hv, listed_cons hw,
        exists_sameWord_iff h (hpieces hv) (hpieces hw) hword]

end Listed

namespace Headers

variable {h h' : Headers}

theorem Reworded.asksForWebsocket_eq (hr : Reworded h h') :
    h.asksForWebsocket = h'.asksForWebsocket := by
  have hword : ∀ c ∈ "upgrade".toList, Text.IsVisible c := Text.visible_of_all (by decide)
  rw [Bool.eq_iff_iff, asksForWebsocket_iff, asksForWebsocket_iff]
  cases hr with
  | connection hlines hupgrade => rw [hlines.listed_iff hword, hupgrade]
  | upgrade hv hw hlines hfirst hfirst' hsame =>
      rw [hlines, hfirst, hfirst']
      simp only [Option.some.injEq, exists_eq_left', spells_and hv, spells_and hw]
      rw [Text.sameWord_congr hsame hv.1 hw.1 (Text.visible_of_all (by decide))]
  | others hlines hupgrade => rw [hlines, hupgrade]

theorem asksForWebsocket_eq_of_eqvGen (hr : Relation.EqvGen Reworded h h') :
    h.asksForWebsocket = h'.asksForWebsocket := by
  induction hr with
  | rel _ _ hr => exact hr.asksForWebsocket_eq
  | refl _ => rfl
  | symm _ _ _ ih => exact ih.symm
  | trans _ _ _ _ _ ih ih' => exact ih.trans ih'

section Others

variable {n : FieldName} (hconnection : n ≠ .connection) (hupgrade : n ≠ .upgrade)
include hconnection hupgrade

theorem asksForWebsocket_append (h : Headers) (v : FieldValue) :
    (h.append n v).asksForWebsocket = h.asksForWebsocket := by
  refine (Reworded.others ?_ ?_).asksForWebsocket_eq.symm
  · rw [getAll_append, if_neg hconnection, List.append_nil]
  · rw [getAll_append, if_neg hupgrade, List.append_nil]

theorem asksForWebsocket_remove (h : Headers) :
    (h.remove n).asksForWebsocket = h.asksForWebsocket := by
  refine (Reworded.others ?_ ?_).asksForWebsocket_eq.symm
  · rw [getAll_remove, if_neg hconnection]
  · rw [getAll_remove, if_neg hupgrade]

theorem asksForWebsocket_set (h : Headers) (v : FieldValue) :
    (h.set n v).asksForWebsocket = h.asksForWebsocket := by
  rw [set, asksForWebsocket_append hconnection hupgrade,
    asksForWebsocket_remove hconnection hupgrade]

end Others

theorem not_asksForWebsocket (h : Headers) (hnone : h.getAll .connection = []) :
    h.asksForWebsocket = false := by
  rw [Bool.eq_false_iff, ne_eq, asksForWebsocket_iff, hnone]
  rintro ⟨⟨_, hv, -⟩, -⟩
  cases hv

end Headers

/-! ## What is sent -/

theorem Client.asksForWebsocket_of_nameHost {r sent : Request} (h : nameHost r = .ok sent) :
    sent.headers.asksForWebsocket = r.headers.asksForWebsocket := by
  rw [nameHost] at h
  split at h
  · cases h
    rfl
  · split at h
    · cases h
    · split at h
      · cases h
      · cases h
        exact r.headers.asksForWebsocket_set (by decide) (by decide) _

theorem headers_originForm (r : Request) : (Websocket.originForm r).headers = r.headers := by
  rw [Websocket.originForm]
  split <;> rfl

namespace Request

theorem asksForWebsocket_of_forwardedTo {r out : Request} {host : String}
    {peer : Option Net.IpAddr} (h : r.forwardedTo host peer = .ok out) :
    out.headers.asksForWebsocket = r.headers.asksForWebsocket := by
  have hlines := getAll_of_forwardedTo h (n := .connection) (.inl (by decide))
  have hupgrade := getAll_of_forwardedTo h (n := .upgrade) (.inl (by decide))
  rw [keptHeaders] at hlines hupgrade
  cases hasks : r.headers.asksForWebsocket with
  | true =>
      rw [if_pos hasks] at hlines hupgrade
      exact (Headers.Reworded.others hlines hupgrade).asksForWebsocket_eq.symm.trans hasks
  | false =>
      -- No `Connection` is left that could list anything.
      have hhop : FieldName.connection ∈ hopByHop := by decide
      rw [if_neg (by simp [hasks]), Headers.getAll_stripHopByHop, if_pos (.inl hhop)] at hlines
      exact out.headers.not_asksForWebsocket hlines

/-- Whether headers ask for a websocket depends on what `Connection` lists and on the first value of
`Upgrade`, however that is spelled and whatever else there is. A request asks for one as it is
forwarded if it did as it came. So what is sent over a connection that others share never asks for
one, and what is sent over a connection of its own does. -/
theorem asksForWebsocket_forwardedTo :
    (∀ h : Headers, h.asksForWebsocket = true ↔
      Listed (h.getAll .connection) "upgrade".toList ∧
        ∃ v, (h.getAll .upgrade).head? = some v ∧
          ∃ cs, v.Spells cs ∧ Text.SameWord cs "websocket".toList) ∧
    (∀ h h' : Headers, Relation.EqvGen Headers.Reworded h h' →
      h.asksForWebsocket = h'.asksForWebsocket) ∧
    (∀ (h : Headers) (n : FieldName), n ≠ .connection → n ≠ .upgrade →
      (∀ v, (h.append n v).asksForWebsocket = h.asksForWebsocket) ∧
        (h.remove n).asksForWebsocket = h.asksForWebsocket) ∧
    (∀ (r out : Request) (host : String) (peer : Option Net.IpAddr),
      r.forwardedTo host peer = .ok out →
        out.headers.asksForWebsocket = r.headers.asksForWebsocket) ∧
    ∀ (p : Proxy) (g : Generation) (f : Fleet) (r : Request) (client : Option Net.SocketAddr)
      (upgradable : Bool) (h : Handle) (out : Request),
      ((p.handle g f r client upgradable).1 = .forwarded h out →
        ∀ sent, Client.nameHost out = .ok sent → sent.headers.asksForWebsocket = false) ∧
      ((p.handle g f r client upgradable).1 = .upgrading h out →
        (Websocket.originForm out).headers.asksForWebsocket = true) := by
  refine ⟨fun _ => Headers.asksForWebsocket_iff, fun _ _ => Headers.asksForWebsocket_eq_of_eqvGen,
    fun h n hconnection hupgrade => ⟨h.asksForWebsocket_append hconnection hupgrade,
      h.asksForWebsocket_remove hconnection hupgrade⟩,
    fun _ _ _ _ => asksForWebsocket_of_forwardedTo, fun p g f r client upgradable h out => ?_⟩
  have hhandled := p.handled_handle g f r client upgradable
  constructor
  · intro hsent sent hnamed
    rw [hsent] at hhandled
    cases hhandled with
    | forwarded _ hout hplain =>
        rw [Client.asksForWebsocket_of_nameHost hnamed, asksForWebsocket_of_forwardedTo hout,
          hplain]
  · intro hsent
    rw [hsent] at hhandled
    cases hhandled with
    | upgrading _ hout hasks =>
        rw [headers_originForm, asksForWebsocket_of_forwardedTo hout, hasks]

/-- `Connection` lists the upgrade after another element, or before it in a line of its own and in
other letters. A backend that is served gets the request over a connection of its own, whereas a
request that lists the upgrade in a line which is no visible text goes over a shared one. -/
theorem asksForWebsocket_forwardedTo_respelled :
    let value (bs : List UInt8) : FieldValue := (FieldValue.ofBytes? bs).getD Response.plainText
    let text (s : String) : FieldValue := value (Response.bytesOf s)
    let once : Headers :=
      ⟨[(.connection, text "keep-alive, Upgrade"), (.upgrade, text "WebSocket")]⟩
    let twice : Headers := ⟨[(.te, text "trailers"), (.connection, text "\tUPGRADE "),
      (.upgrade, text " websocket"), (.connection, text "Keep-Alive")]⟩
    let plain : Headers := ⟨[(.connection, value (Response.bytesOf "Upgrade" ++ [44, 233])),
      (.upgrade, text "websocket")]⟩
    let request (h : Headers) : Request := ⟨.get, ⟨none, none, "/", none⟩, .http11, h, []⟩
    let context : Backend.Context := ⟨{ unmonitored := true }, false⟩
    let f : Fleet := { backends := [.start (.ephemeral "a" "a" "10.0.0.1:80" "") context 0] }
    let p : Proxy := .serving {} ⟨.leastConnections, 0, ⟨[0], context⟩⟩
    Relation.EqvGen Headers.Reworded once twice ∧
      once.asksForWebsocket = true ∧ twice.asksForWebsocket = true ∧
      (∃ out, (p.handle p.generation f (request twice) none true).1 = .upgrading 0 out ∧
        (Websocket.originForm out).headers.asksForWebsocket = true) ∧
      ∃ out sent, (p.handle p.generation f (request plain) none true).1 = .forwarded 0 out ∧
        Client.nameHost out = .ok sent ∧ sent.headers.asksForWebsocket = false := by
  intro value text once twice plain request context f p
  let recased : Headers :=
    ⟨[(.connection, text "Keep-Alive,\tUPGRADE "), (.upgrade, text "WebSocket")]⟩
  let split : Headers := ⟨[(.connection, text "Keep-Alive"), (.connection, text "\tUPGRADE "),
    (.upgrade, text "WebSocket")]⟩
  let reordered : Headers := ⟨[(.connection, text "\tUPGRADE "), (.upgrade, text "WebSocket"),
    (.connection, text "Keep-Alive"), (.te, text "trailers")]⟩
  have hspells : ∀ s : String, (text s).ascii? = some s.toList → (text s).Spells s.toList :=
    fun _ => ascii?_eq_some_iff.mp
  have hsame : ∀ cs ds : List Char, cs.all (Text.IsVisible ·) = true →
      ds.all (Text.IsVisible ·) = true →
      Text.sameLetters (Text.trim cs) (Text.trim ds) = true → Text.SameWord cs ds :=
    fun cs ds hcs hds =>
      (Text.sameWord_iff (Text.visible_of_all hcs) (Text.visible_of_all hds)).mpr
  have hrecased : Headers.Reworded once recased := by
    have hpieces : List.Forall₂ Text.SameWord ("keep-alive, Upgrade".toList.splitOn ',')
        ("Keep-Alive,\tUPGRADE ".toList.splitOn ',') :=
      .cons (hsame _ _ (by decide) (by decide) (by decide))
        (.cons (hsame _ _ (by decide) (by decide) (by decide)) .nil)
    exact .connection (@Respelled.padded [] [] _ _ _ _ (hspells _ (by decide +kernel))
      (hspells _ (by decide +kernel)) hpieces) (by decide +kernel)
  have hsplit : Headers.Reworded split recased :=
    .connection (@Respelled.joined [] [] _ _ _ _ _ (hspells "Keep-Alive" (by decide +kernel))
      (hspells "\tUPGRADE " (by decide +kernel))
      (hspells "Keep-Alive,\tUPGRADE " (by decide +kernel))) (by decide +kernel)
  have hreordered : Headers.Reworded split reordered :=
    .connection (.reordered (.swap _ _ _)) (by decide +kernel)
  have hupgrade : Headers.Reworded reordered twice :=
    .upgrade (hspells "WebSocket" (by decide +kernel)) (hspells " websocket" (by decide +kernel))
      (by decide +kernel) (by decide +kernel) (by decide +kernel)
      (hsame _ _ (by decide) (by decide) (by decide))
  have hchain : Relation.EqvGen Headers.Reworded once twice :=
    .trans _ _ _ (.rel _ _ hrecased) (.trans _ _ _ (.symm _ _ (.rel _ _ hsplit))
      (.trans _ _ _ (.rel _ _ hreordered) (.rel _ _ hupgrade)))
  have honce : once.asksForWebsocket = true := by decide +kernel
  let out (h : Headers) : Request :=
    { request h with uri := ⟨some "http", some "10.0.0.1:80", "/", none⟩ }
  have hupgrading : (p.handle p.generation f (request twice) none true).1 =
      .upgrading 0 (out twice) := by
    decide +kernel
  have hforwarded : (p.handle p.generation f (request plain) none true).1 =
      .forwarded 0 (out .empty) := by
    decide +kernel
  have hnamed : Client.nameHost (out .empty) =
      .ok (out (Headers.empty.set .host (text "10.0.0.1:80"))) := by
    rfl
  obtain ⟨-, hwords, -, -, hsent⟩ := asksForWebsocket_forwardedTo
  exact ⟨hchain, honce, (hwords _ _ hchain).symm.trans honce,
    ⟨_, hupgrading, (hsent _ _ _ _ _ _ _ _).2 hupgrading⟩,
    _, _, hforwarded, hnamed, (hsent _ _ _ _ _ _ _ _).1 hforwarded _ hnamed⟩

end Request

end ReverseProxy.Http
