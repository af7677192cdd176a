import ReverseProxy.Config.Validation
import ReverseProxy.Proofs.Inventory.Members
import ReverseProxy.Proofs.Net.Dotted

/-!
# Droplets of new servers

What is derived for a server just provisioned is accepted as a backend, and its health is probed at
the address that requests are forwarded to. Only the rule that a path starts with a slash stands
between the text of the path and the rest of the URL: `addDroplet_provisioned`.
-/

namespace ReverseProxy

/-- The port that a URL leads to: its own, or else that of its scheme. -/
def Net.Url.knownPort? (u : Net.Url) : Option Nat := u.port <|> Net.defaultPort? u.scheme

theorem BackendSettings.isPath_of_problems {s : BackendSettings} (h : s.problems = []) :
    Net.IsPath s.newHostHealthPath.toList := by
  have hpath := (List.append_eq_nil_iff.mp h).2
  split at hpath
  · exact .inl ‹_›
  · exact .inr ⟨_, ‹_›⟩
  · cases hpath

namespace Droplet

open Backend (Description)

variable (id : Int64) (name : String) (publicIp : Option String) (started : Time.Timestamp)
  (settings : BackendSettings) {privateIp : String} {a b c d : UInt8}

theorem toList_serverHost (hip : Net.readV4 privateIp.toList = some ((a, b, c, d), [])) :
    (provisioned id name privateIp publicIp started settings).serverHost.toList =
      Net.printV4 a b c d ++ ':' :: Text.digits settings.newHostPort.toNat := by
  have haddress := Net.eq_printV4_of_readV4 hip
  rw [List.append_nil] at haddress
  have hcolon : ":".toList = [':'] := rfl
  simp [provisioned, Text.decimal, haddress, hcolon]

/-- The health URL leads to the host and the port that requests are forwarded to. -/
theorem parse_healthUrl (hs : settings.problems = [])
    (hip : Net.readV4 privateIp.toList = some ((a, b, c, d), [])) :
    ∃ u, Net.Url.parse (provisioned id name privateIp publicIp started settings).healthUrl = .ok u ∧
      u.scheme = Net.httpScheme settings.newHostHealthHttps ∧ u.host = some (.ip (.v4 a b c d)) ∧
      u.knownPort? = some settings.newHostPort.toNat := by
  have hhost := toList_serverHost id name publicIp started settings hip
  have hslashes : "://".toList = [':', '/', '/'] := rfl
  have hurl : (provisioned id name privateIp publicIp started settings).healthUrl.toList =
      (Net.httpScheme settings.newHostHealthHttps).toList ++ ':' :: '/' :: '/' ::
        ((Net.printV4 a b c d ++ ':' :: Text.digits settings.newHostPort.toNat) ++
          settings.newHostHealthPath.toList) := by
    rw [← hhost]
    simp [provisioned, Net.httpScheme, hslashes]
  refine ⟨_, Net.parse_endpoint settings.newHostPort.toNat_lt
    (BackendSettings.isPath_of_problems hs) hurl, rfl, rfl, ?_⟩
  unfold Net.Url.knownPort?
  dsimp only
  split
  · rename_i hdefault
    exact hdefault
  · rfl

theorem check_provisioned (hs : settings.problems = [])
    (hip : Net.readV4 privateIp.toList = some ((a, b, c, d), [])) :
    (Description.ofDroplet
      (provisioned id name privateIp publicIp started settings)).check = .ok () := by
  obtain ⟨u, hu, hscheme, -⟩ := parse_healthUrl id name publicIp started settings hs hip
  have hhost : ¬ Text.trimmed (provisioned id name privateIp publicIp started settings).serverHost =
      "" := by
    intro hblank
    have hcolon : ':' ∈ (provisioned id name privateIp publicIp started settings).serverHost.toList := by
      simp [toList_serverHost id name publicIp started settings hip]
    rcases Text.mem_trim_or_isBlank hcolon with hmem | hcolon
    · have hempty := congrArg String.toList hblank
      rw [Text.trimmed, String.toList_ofList] at hempty
      rw [hempty] at hmem
      cases hmem
    · exact absurd hcolon (by decide)
  have haccepted : Backend.checkHealthUrl
      (provisioned id name privateIp publicIp started settings).healthUrl = .ok () := by
    have hhttp : u.scheme = "http" ∨ u.scheme = "https" := by
      rw [hscheme]
      cases settings.newHostHealthHttps with
      | true => exact .inr rfl
      | false => exact .inl rfl
    unfold Backend.checkHealthUrl
    split
    · rfl
    · simp [hu, hhttp]
  simp only [Description.check, Description.ofDroplet, if_neg hhost, haccepted]

/-- A new server with an id of its own becomes a member, and it is probed at the address and the
port that requests are forwarded to. -/
theorem addDroplet_provisioned (hs : settings.problems = [])
    (hip : Net.readV4 privateIp.toList = some ((a, b, c, d), [])) {inv : Inventory} {f : Fleet}
    (hinv : inv.Sound f) (now : Nat) :
    let server := provisioned id name privateIp publicIp started settings
    (Text.signedDecimal id.toInt ∉ inv.ids f → ∃ f' h,
      inv.addDroplet f server now = (f', .ok (h, inv.push h)) ∧
      (inv.push h).descriptions f' = inv.descriptions f ++ [.ofDroplet server]) ∧
    (∃ u, Net.Url.parse server.healthUrl = .ok u ∧ u.host = some (.ip (.v4 a b c d)) ∧
      (Net.IpAddr.v4 a b c d).toText = privateIp ∧
      u.knownPort? = some settings.newHostPort.toNat) ∧
    Net.SocketAddr.parse? server.serverHost = some ⟨.v4 a b c d, settings.newHostPort, 0⟩ := by
  refine ⟨fun hnew => ?_, ?_, ?_⟩
  · have hadded := Inventory.added_addDroplet hinv
      (provisioned id name privateIp publicIp started settings) now
    generalize hresult : inv.addDroplet f
      (provisioned id name privateIp publicIp started settings) now = result at hadded
    cases hadded with
    | @added f' h grows sound last => exact ⟨f', h, rfl, last⟩
    | refused grows reason =>
        exact absurd (reason (check_provisioned id name publicIp started settings hs hip)) hnew
  · obtain ⟨u, hu, -, hhost, hport⟩ := parse_healthUrl id name publicIp started settings hs hip
    have htext : (Net.IpAddr.v4 a b c d).toText = privateIp := by
      rw [← String.toList_inj, Net.eq_printV4_of_readV4 hip, List.append_nil]
      exact String.toList_ofList
    exact ⟨u, hu, hhost, htext, hport⟩
  · exact Net.parse?_endpoint (toList_serverHost id name publicIp started settings hip)

/-- A path that looks like the rest of an authority and holds what no URL may hold. -/
theorem addDroplet_provisioned_strangePath :
    let settings : BackendSettings :=
      { newHostPort := 443, newHostHealthHttps := true, newHostHealthPath := "/@other:1\\# \t\x00é " }
    let inv := Inventory.empty ⟨settings, false⟩
    settings.problems = [] ∧ Net.readV4 "10.0.0.7".toList = some ((10, 0, 0, 7), []) ∧
    inv.Sound {} ∧ Text.signedDecimal (-7) ∉ inv.ids {} ∧
    (∃ f' h, inv.addDroplet {}
      (provisioned (-7) "new" "10.0.0.7" none ⟨0, 0, by decide, by decide⟩ settings) 0 =
        (f', .ok (h, inv.push h))) ∧
    ∃ u, Net.Url.parse "https://10.0.0.7:443/@other:1\\# \t\x00é " = .ok u ∧
      u.host = some (.ip (.v4 10 0 0 7)) ∧ u.knownPort? = some 443 := by
  intro settings inv
  have hs : settings.problems = [] := by decide +kernel
  have hip : Net.readV4 "10.0.0.7".toList = some ((10, 0, 0, 7), []) := by decide +kernel
  have hinv : inv.Sound {} := Inventory.sound_empty _ _
  have hnew : Text.signedDecimal (-7) ∉ inv.ids {} := List.not_mem_nil
  obtain ⟨hadded, ⟨u, hu, hhost, -, hport⟩, -⟩ := addDroplet_provisioned (-7) "new" none
    ⟨0, 0, by decide, by decide⟩ settings hs hip hinv 0
  have hurl : (provisioned (-7) "new" "10.0.0.7" none ⟨0, 0, by decide, by decide⟩
      settings).healthUrl = "https://10.0.0.7:443/@other:1\\# \t\x00é " := by decide +kernel
  rw [hurl] at hu
  obtain ⟨f', h, hadded, -⟩ := hadded hnew
  exact ⟨hs, hip, hinv, hnew, ⟨f', h, hadded⟩, u, hu, hhost, hport⟩

end Droplet

end ReverseProxy
