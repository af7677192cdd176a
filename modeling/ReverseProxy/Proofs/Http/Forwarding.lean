import Mathlib.Data.List.Basic
import ReverseProxy.Proofs.Http.Elements
import ReverseProxy.Proofs.Net.Address
import ReverseProxy.Proxy

/-!
# Headers as they are forwarded

A plain request loses the headers that concern one hop and those that `Connection` nominates, and
nothing else; an upgrade loses none (`getAll_forwardedTo`). Whatever a client sends, the last
address in `X-Forwarded-For` is its own (`forwardedFor_forwardedTo`).
-/

namespace ReverseProxy.Http

/-! ## What follows the last separator -/

section LastPiece

variable {α : Type} {x y : α} {as bs ps qs : List α}

/-- Only one text stands before the first of two elements in a row. -/
theorem eq_of_append_pair (hxy : x ≠ y) (h : as ++ x :: y :: ps = bs ++ x :: y :: qs)
    (has : ¬ [x, y] <:+: as) (hbs : ¬ [x, y] <:+: bs) : as = bs := by
  -- Along both texts at once. Where only one of them has ended, the pair begins in the other, or
  -- its first element is its second.
  induction as generalizing bs with
  | nil =>
      match bs with
      | [] => rfl
      | [b] => exact absurd (List.cons.inj (List.cons.inj h).2).1.symm hxy
      | b :: c :: bs =>
          obtain ⟨rfl, htail⟩ := List.cons.inj h
          obtain ⟨rfl, -⟩ := List.cons.inj htail
          exact absurd ⟨[], bs, rfl⟩ hbs
  | cons a as ih =>
      match bs with
      | b :: bs =>
          obtain ⟨rfl, htail⟩ := List.cons.inj h
          rw [ih htail (mt List.infix_cons has) (mt List.infix_cons hbs)]
      | [] =>
          obtain ⟨rfl, htail⟩ := List.cons.inj h
          match as with
          | [] => exact absurd (List.cons.inj htail).1 hxy
          | c :: as =>
              obtain ⟨rfl, -⟩ := List.cons.inj htail
              exact absurd ⟨[], as, rfl⟩ has

/-- Only one text stands after the last of two elements in a row. -/
theorem eq_of_pair_append (hxy : x ≠ y) (h : ps ++ [x, y] ++ as = qs ++ [x, y] ++ bs)
    (has : ¬ [x, y] <:+: as) (hbs : ¬ [x, y] <:+: bs) : as = bs := by
  have hreverse : ∀ {cs : List α}, ¬ [x, y] <:+: cs → ¬ [y, x] <:+: cs.reverse :=
    fun hcs hi => hcs (List.reverse_infix.mp hi)
  have h := congrArg List.reverse h
  simp only [List.reverse_append, List.append_assoc] at h
  exact List.reverse_inj.mp (eq_of_append_pair hxy.symm h (hreverse has) (hreverse hbs))

theorem intercalate_concat (sep : List α) {ls : List (List α)} (hls : ls ≠ []) (l : List α) :
    sep.intercalate (ls ++ [l]) = sep.intercalate ls ++ sep ++ l := by
  induction ls with
  | nil => exact absurd rfl hls
  | cons k ls ih =>
      rw [List.cons_append, List.intercalate_cons_of_ne_nil (by simp)]
      cases ls with
      | nil => simp
      | cons k' ls =>
          rw [ih (List.cons_ne_nil _ _), List.intercalate_cons_cons]
          simp only [List.append_assoc]

/-- After the last separator of a joined text stands the last of its parts, if the separator does
not begin in there. -/
theorem last_of_intercalate (hxy : x ≠ y) {ls : List (List α)} {l before last : List α} (hl : x ∉ l)
    (h : [x, y].intercalate (ls ++ [l]) = before ++ [x, y] ++ last) (hlast : ¬ [x, y] <:+: last) :
    last = l := by
  have hinfix : ¬ [x, y] <:+: l := fun hi => hl (hi.subset List.mem_cons_self)
  by_cases hls : ls = []
  · rw [hls, List.nil_append, List.intercalate_singleton] at h
    exact absurd ⟨before, last, h.symm⟩ hinfix
  · rw [intercalate_concat _ hls] at h
    exact (eq_of_pair_append hxy h hinfix hlast).symm

end LastPiece

namespace Headers

/-! ## Headers that are left out -/

theorem getAll_removeAll (h : Headers) (ns : List FieldName) (m : FieldName) :
    (h.removeAll ns).getAll m = if m ∈ ns then [] else h.getAll m := by
  induction ns generalizing h with
  | nil => simp [removeAll]
  | cons n ns ih =>
      rw [removeAll, List.foldl_cons, ← removeAll, ih, getAll_remove]
      by_cases hm : m = n
      · simp [hm]
      · simp [hm, Ne.symm hm]

theorem getAll_stripHopByHop (h : Headers) (m : FieldName) :
    h.stripHopByHop.getAll m =
      if m ∈ hopByHop ∨ Listed (h.getAll .connection) m.chars then [] else h.getAll m := by
  rw [stripHopByHop, getAll_removeAll, getAll_removeAll]
  by_cases hhop : m ∈ hopByHop
  · rw [if_pos hhop, if_pos (.inl hhop)]
  · by_cases hnominated : m ∈ h.nominated
    · rw [if_neg hhop, if_pos hnominated, if_pos (.inr (mem_nominated.mp hnominated))]
    · rw [if_neg hhop, if_neg hnominated,
        if_neg (not_or.mpr ⟨hhop, mt mem_nominated.mpr hnominated⟩)]

/-! ## The addresses of clients -/

theorem bytesOf_separator : Response.bytesOf ", " = [44, 32] := by decide

theorem bytesOf_toText (ip : Net.IpAddr) :
    Response.bytesOf ip.toText = ip.print.map fun c => c.toNat.toUInt8 := by
  rw [Response.bytesOf, Net.IpAddr.toText, String.toList_ofList, List.map_eq_flatMap]
  exact List.flatMap_congr fun c hc => if_pos (Net.isAddressChar_print hc).bounds.2.1.le

theorem byte_of_addressChar {c : Char} (h : Net.IsAddressChar c) :
    isValueByte c.toNat.toUInt8 = true ∧ c.toNat.toUInt8 ≠ 44 := by
  have all : ∀ n < 127, 32 ≤ n → n ≠ 44 →
      isValueByte (UInt8.ofNat n) = true ∧ UInt8.ofNat n ≠ 44 := by
    decide
  obtain ⟨hlow, hhigh, hcomma⟩ := h.bounds
  exact all c.toNat hhigh hlow hcomma

theorem addressValue?_eq (ip : Net.IpAddr) :
    ∃ own, addressValue? ip = some own ∧ own.bytes = Response.bytesOf ip.toText := by
  have hallowed : (ip.print.map fun c => c.toNat.toUInt8).all isValueByte = true := by
    rw [List.all_map, List.all_eq_true]
    exact fun c hc => (byte_of_addressChar (Net.isAddressChar_print hc)).1
  exact ⟨⟨_, hallowed⟩, dif_pos hallowed, (bytesOf_toText ip).symm⟩

theorem comma_not_mem_address (ip : Net.IpAddr) : 44 ∉ Response.bytesOf ip.toText := by
  rw [bytesOf_toText, List.mem_map]
  rintro ⟨c, hc, hcomma⟩
  exact (byte_of_addressChar (Net.isAddressChar_print hc)).2 hcomma

theorem bytes_join (vs : List FieldValue) (own : FieldValue) :
    (vs.foldr (fun v w => v.join w) own).bytes =
      [44, 32].intercalate (vs.map (·.bytes) ++ [own.bytes]) := by
  induction vs with
  | nil => exact List.intercalate_singleton.symm
  | cons v vs ih =>
      rw [List.map_cons, List.cons_append, List.intercalate_cons_of_ne_nil (by simp), ← ih]
      simp [FieldValue.join]

theorem getAll_appendForwardedFor_of_ne (h : Headers) (ip : Net.IpAddr) {m : FieldName}
    (hm : m ≠ .forwardedFor) : (h.appendForwardedFor ip).getAll m = h.getAll m := by
  rw [appendForwardedFor]
  split
  · rfl
  · rw [getAll_set, if_neg (Ne.symm hm)]

theorem getAll_appendForwardedFor (h : Headers) (ip : Net.IpAddr) :
    ∃ v, (h.appendForwardedFor ip).getAll .forwardedFor = [v] ∧
      v.bytes = [44, 32].intercalate
        ((h.getAll .forwardedFor).map (·.bytes) ++ [Response.bytesOf ip.toText]) := by
  obtain ⟨own, hown, hbytes⟩ := addressValue?_eq ip
  refine ⟨_, ?_, (bytes_join _ own).trans (by rw [hbytes])⟩
  rw [appendForwardedFor, hown]
  exact (getAll_set _ _ _ _).trans (if_pos rfl)

end Headers

namespace Request

variable {r out : Request} {host : String} {peer : Option Net.IpAddr}

/-- The headers that are left of a request before an address is added. -/
def keptHeaders (r : Request) : Headers :=
  if r.headers.asksForWebsocket then r.headers else r.headers.stripHopByHop

theorem headers_of_forwardedTo (h : r.forwardedTo host peer = .ok out) :
    out.headers = peer.elim r.keptHeaders r.keptHeaders.appendForwardedFor := by
  rw [forwardedTo] at h
  cases htarget : r.targetAt host with
  | error e =>
      rw [htarget] at h
      cases h
  | ok uri =>
      rw [htarget] at h
      cases h
      cases peer <;> rfl

/-- An address changes no header but `X-Forwarded-For`. -/
theorem getAll_of_forwardedTo (h : r.forwardedTo host peer = .ok out) {n : FieldName}
    (hn : n ≠ .forwardedFor ∨ peer = none) : out.headers.getAll n = r.keptHeaders.getAll n := by
  rw [headers_of_forwardedTo h]
  cases peer with
  | none => rfl
  | some ip => exact Headers.getAll_appendForwardedFor_of_ne _ _ (hn.resolve_right (by simp))

/-- A plain request is forwarded with exactly those of its headers that neither concern one hop nor
are nominated by `Connection`, each with all its values; an upgrade with all of them. Only
`X-Forwarded-For` changes, and only where an address is added. -/
theorem getAll_forwardedTo (h : r.forwardedTo host peer = .ok out) :
    (r.headers.asksForWebsocket = false →
      (∀ n, n ≠ .forwardedFor ∨ peer = none →
        out.headers.getAll n =
          if n ∈ hopByHop ∨ Listed (r.headers.getAll .connection) n.chars then []
          else r.headers.getAll n) ∧
      ∀ n ∈ hopByHop, out.headers.getAll n = []) ∧
    (r.headers.asksForWebsocket = true →
      ∀ n, n ≠ .forwardedFor ∨ peer = none → out.headers.getAll n = r.headers.getAll n) := by
  refine ⟨fun hplain => ?_, fun hasks n hn => ?_⟩
  · have hkept : r.keptHeaders = r.headers.stripHopByHop := if_neg (by simp [hplain])
    have hout : ∀ n, n ≠ .forwardedFor ∨ peer = none → out.headers.getAll n =
        if n ∈ hopByHop ∨ Listed (r.headers.getAll .connection) n.chars then []
        else r.headers.getAll n := fun n hn => by
      rw [getAll_of_forwardedTo h hn, hkept, Headers.getAll_stripHopByHop]
    refine ⟨hout, fun n hhop => ?_⟩
    have hne : n ≠ .forwardedFor := by
      rintro rfl
      exact absurd hhop (by decide)
    rw [hout n (.inl hne), if_pos (.inl hhop)]
  · rw [getAll_of_forwardedTo h hn, keptHeaders, if_pos hasks]

/-- `Connection` nominates headers in two lines with an empty element, a text that is no name,
capitals and blanks; a third line, with a byte beyond ASCII, does not count. -/
theorem getAll_forwardedTo_nominated :
    let field (s : String) : FieldName := (FieldName.ofChars? s.toList).getD .host
    let value (bs : List UInt8) : FieldValue := (FieldValue.ofBytes? bs).getD Response.plainText
    let text (s : String) : FieldValue := value (Response.bytesOf s)
    let fields : List (FieldName × FieldValue) :=
      [(.connection, text "keep-alive,, x y, X-Hop"), (field "x-hop", text "1"),
        (.connection, text "\tTRACE-ID ,"), (field "accept", text "a"),
        (field "trace-id", text "7"), (.connection, value [104, 111, 115, 116, 233]),
        (.te, text "trailers"), (.host, text "proxy.example"), (field "accept", value [233, 44])]
    let r : Request := ⟨.get, ⟨none, none, "/", none⟩, .http11, ⟨fields⟩, []⟩
    r.headers.asksForWebsocket = false ∧ ∃ out, r.forwardedTo "10.0.0.1:80" none = .ok out ∧
      (∀ n ∈ [.connection, .te, field "x-hop", field "trace-id"], out.headers.getAll n = []) ∧
      out.headers.getAll (field "accept") = [text "a", value [233, 44]] ∧
      out.headers.getAll .host = [text "proxy.example"] := by
  intro field value text fields r
  have hplain : r.headers.asksForWebsocket = false := by decide +kernel
  have hok : (r.forwardedTo "10.0.0.1:80" none).isOk = true := by decide +kernel
  cases hout : r.forwardedTo "10.0.0.1:80" none with
  | error e => rw [hout] at hok; cases hok
  | ok out =>
      obtain ⟨hkept, -⟩ := (getAll_forwardedTo hout).1 hplain
      have hleft : ∀ n ∈ [.connection, .te, field "x-hop", field "trace-id"],
          n ∈ hopByHop ∨ Listed (r.headers.getAll .connection) n.chars := by
        decide +kernel
      refine ⟨hplain, out, rfl, ?_, ?_, ?_⟩
      · exact fun n hn => (hkept n (.inr rfl)).trans (if_pos (hleft n hn))
      · rw [hkept _ (.inr rfl)]
        decide +kernel
      · rw [hkept _ (.inr rfl)]
        decide +kernel

/-! ## The last address -/

/-- The values of `X-Forwarded-For` that a forwarded request keeps: none if a plain request
nominates them, else all. -/
def priorForwardedFor (r : Request) : List FieldValue :=
  if r.headers.asksForWebsocket = false ∧
      Listed (r.headers.getAll .connection) FieldName.forwardedFor.chars then []
  else r.headers.getAll .forwardedFor

theorem getAll_keptHeaders (r : Request) :
    r.keptHeaders.getAll .forwardedFor = r.priorForwardedFor := by
  have hhop : FieldName.forwardedFor ∉ hopByHop := by decide
  rw [keptHeaders, priorForwardedFor]
  cases hasks : r.headers.asksForWebsocket with
  | true => simp
  | false => simp [Headers.getAll_stripHopByHop, hhop]

/-- Where the address of a client is added, it joins the values before it in a single one, and it is
what follows the last comma and blank, whatever the client sent. Elsewhere the values stay as they
are. -/
theorem forwardedFor_forwardedTo {g : Generation} {client : Option Net.SocketAddr}
    (h : r.forwardedTo host (g.peer client) = .ok out) :
    (∀ a, g.settings.addForwardedFor = true → client = some a →
      ∃ v, out.headers.getAll .forwardedFor = [v] ∧
        v.bytes = (Response.bytesOf ", ").intercalate
          (r.priorForwardedFor.map (·.bytes) ++ [Response.bytesOf a.ip.toText]) ∧
        ∀ before last, v.bytes = before ++ Response.bytesOf ", " ++ last →
          ¬ Response.bytesOf ", " <:+: last → last = Response.bytesOf a.ip.toText) ∧
    (g.settings.addForwardedFor = false ∨ client = none →
      out.headers.getAll .forwardedFor = r.priorForwardedFor) := by
  rw [Headers.bytesOf_separator]
  refine ⟨?_, fun hnone => ?_⟩
  · rintro a hadd rfl
    have hpeer : g.peer (some a) = some a.ip := if_pos hadd
    rw [hpeer] at h
    obtain ⟨v, hv, hbytes⟩ := r.keptHeaders.getAll_appendForwardedFor a.ip
    rw [getAll_keptHeaders] at hbytes
    have hout : out.headers = r.keptHeaders.appendForwardedFor a.ip := headers_of_forwardedTo h
    rw [← hout] at hv
    refine ⟨v, hv, hbytes, fun before last hsplit hlast => ?_⟩
    rw [hbytes] at hsplit
    exact last_of_intercalate (by decide) (Headers.comma_not_mem_address a.ip) hsplit hlast
  · have hpeer : g.peer client = none := by
      rcases hnone with hoff | rfl
      · exact if_neg (by simp [hoff])
      · exact ite_self none
    rw [getAll_of_forwardedTo h (.inr hpeer), getAll_keptHeaders]

/-- A client that names other addresses in two lines, one of which ends in a comma and a blank and
one of which is no text. -/
theorem forwardedFor_forwardedTo_forged :
    let value (bs : List UInt8) : FieldValue := (FieldValue.ofBytes? bs).getD Response.plainText
    let fields : List (FieldName × FieldValue) :=
      [(.forwardedFor, value (Response.bytesOf "10.0.0.9, ")), (.forwardedFor, value [99, 233])]
    let r : Request := ⟨.get, ⟨none, none, "/", none⟩, .http11, ⟨fields⟩, []⟩
    let g : Generation := ⟨{}, 0⟩
    let a : Net.SocketAddr := ⟨.v6 #v[0x2001, 0xdb8, 0, 0, 0, 0, 0, 7], 5555, 0⟩
    g.settings.addForwardedFor = true ∧
      ∃ out, r.forwardedTo "10.0.0.1:80" (g.peer (some a)) = .ok out ∧
        ∃ v, out.headers.getAll .forwardedFor = [v] ∧
          v.bytes =
            Response.bytesOf "10.0.0.9, , " ++ [99, 233] ++ Response.bytesOf ", 2001:db8::7" ∧
          ∀ before last, v.bytes = before ++ Response.bytesOf ", " ++ last →
            ¬ Response.bytesOf ", " <:+: last → last = Response.bytesOf "2001:db8::7" := by
  intro value fields r g a
  have hok : (r.forwardedTo "10.0.0.1:80" (g.peer (some a))).isOk = true := by decide +kernel
  cases hout : r.forwardedTo "10.0.0.1:80" (g.peer (some a)) with
  | error e => rw [hout] at hok; cases hok
  | ok out =>
      obtain ⟨v, hv, hbytes, hlast⟩ := (forwardedFor_forwardedTo hout).1 a rfl rfl
      have haddress : Response.bytesOf a.ip.toText = Response.bytesOf "2001:db8::7" := by
        decide +kernel
      rw [haddress] at hlast
      exact ⟨rfl, out, rfl, v, hv, hbytes.trans (by decide +kernel), hlast⟩

end Request

end ReverseProxy.Http

namespace ReverseProxy

/-! ## Requests that are handled -/

namespace Proxy

/-- What can become of a request on its arrival. What goes to a backend is the request as it is
forwarded to the host of that backend, over a connection of its own if it asks for a websocket. -/
inductive Handled (g : Generation) (f : Fleet) (r : Http.Request) (client : Option Net.SocketAddr) :
    Arrival → Prop
  | answered (a : Http.Response) : Handled g f r client (.answered a)
  | forwarded {h b out} (hget : f.get? h = some b)
      (hout : r.forwardedTo b.host (g.peer client) = .ok out)
      (hplain : r.headers.asksForWebsocket = false) : Handled g f r client (.forwarded h out)
  | upgrading {h b out} (hget : f.get? h = some b)
      (hout : r.forwardedTo b.host (g.peer client) = .ok out)
      (hasks : r.headers.asksForWebsocket = true) : Handled g f r client (.upgrading h out)

theorem Handled.sent {g : Generation} {f : Fleet} {r : Http.Request}
    {client : Option Net.SocketAddr} {a : Arrival} {h : Handle} {out : Http.Request}
    (hhandled : Handled g f r client a) (hsent : a = .forwarded h out ∨ a = .upgrading h out) :
    ∃ b, f.get? h = some b ∧ r.forwardedTo b.host (g.peer client) = .ok out := by
  cases hhandled with
  | answered => rcases hsent with hsent | hsent <;> cases hsent
  | forwarded hget hout =>
      rcases hsent with hsent | hsent <;> cases hsent
      exact ⟨_, hget, hout⟩
  | upgrading hget hout =>
      rcases hsent with hsent | hsent <;> cases hsent
      exact ⟨_, hget, hout⟩

theorem handled_handle (p : Proxy) (g : Generation) (f : Fleet) (r : Http.Request)
    (client : Option Net.SocketAddr) (upgradable : Bool) :
    Handled g f r client (p.handle g f r client upgradable).1 := by
  simp only [handle]
  split
  · exact .answered _
  · rename_i h b hpick
    obtain ⟨h, -, hpair⟩ := Option.bind_eq_some_iff.mp hpick
    obtain ⟨b, hget, hpair⟩ := Option.map_eq_some_iff.mp hpair
    cases hpair
    split
    · exact .answered _
    · rename_i hout
      split
      · rename_i hasks
        split
        · exact .upgrading hget hout hasks
        · exact .answered _
      · rename_i hplain
        exact .forwarded hget hout (Bool.eq_false_iff.mpr hplain)

end Proxy

end ReverseProxy
