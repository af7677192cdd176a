import Mathlib.Control.Monad.Basic
import ReverseProxy.Proofs.Config.Validation
import ReverseProxy.Proofs.Reload.Steps

/-!
# The served generation is coherent

Settings, balancer and watched inventory file are changed by different steps of a reload, some of
which change only one of them. Still they always fit together: `Server.Coherent` holds at the start
and is kept by every reload, applied or rejected.
-/

namespace ReverseProxy.Server

/-- A balancer as settings call for it. -/
structure BuiltFor (s : Settings) (b : Balancer) : Prop where
  strategy : b.strategy = s.strategy
  backend : b.inventory.context.settings = s.backend

/-- What is served fits together, is valid by a lookup of hosts, and agrees with the first settings in
what is fixed. -/
structure Coherent (first : Settings) (names : Net.Names) (s : Server) : Prop where
  served : ∃ b, s.proxy.balancer? = some b ∧ BuiltFor s.proxy.settings b
  watched : s.inventoryPath.same s.proxy.settings.inventoryFile
  valid : s.proxy.settings.validate names = .ok ()
  fixed : s.proxy.settings.SameFixed first

theorem BuiltFor.of_buildBalancer {s : Settings} {t : FileTree} {f f' : Fleet} {now : Nat}
    {stops : Bool} {b : Balancer} (h : s.buildBalancer t f now stops = (f', .ok b)) :
    BuiltFor s b := by
  obtain ⟨hs, hc⟩ := Settings.buildBalancer_ok h
  exact ⟨hs, by rw [hc]⟩

variable {first : Settings} {names recheck : Net.Names} {s : Server}

/-- Coherence is about the proxy and the watched path only. -/
theorem Coherent.congr {s' : Server} (h : Coherent first names s) (hp : s'.proxy = s.proxy)
    (hi : s'.inventoryPath = s.inventoryPath) : Coherent first names s' := by
  constructor
  · rw [hp]
    exact h.served
  · rw [hp, hi]
    exact h.watched
  · rw [hp]
    exact h.valid
  · rw [hp]
    exact h.fixed

theorem coherent_start {path : FilePath} {t : FileTree} {f : Fleet} {now : Nat} {stops : Bool}
    {b : Balancer} (hnames : first.validate names = .ok ())
    (hb : (first.buildBalancer t f now stops).2 = .ok b) :
    Coherent first names (start path first b (first.buildBalancer t f now stops).1) where
  served := ⟨b, rfl, .of_buildBalancer (Prod.ext rfl hb)⟩
  watched := FilePath.same_refl _
  valid := hnames
  fixed := .refl _

/-- Settings that pass the check of a reload stay within what is fixed. As the address to listen on is,
they are valid by any lookup by which those before were. -/
theorem Coherent.next {next : Settings} (h : Coherent first names s)
    (hv : s.proxy.settings.validateReload next recheck = .ok ()) :
    next.validate names = .ok () ∧ next.SameFixed first := by
  obtain ⟨hvalid, hfixed⟩ := Settings.validateReload_eq_ok_iff.mp hv
  exact ⟨Settings.validate_of_bind hfixed.symm.bind h.valid hvalid, hfixed.symm.trans h.fixed⟩

theorem Coherent.applyRebuilt {next : Settings} {b : Balancer} {f : Fleet}
    (h : Coherent first names s) (hv : s.proxy.settings.validateReload next recheck = .ok ())
    (hb : BuiltFor next b) : Coherent first names (s.applyRebuilt next b f) where
  served := ⟨b, Proxy.balancer?_addBalancer_serve _ b f, hb⟩
  watched := by
    simp only [Server.applyRebuilt]
    split
    · assumption
    · exact FilePath.same_refl _
  valid := (h.next hv).1
  fixed := (h.next hv).2

/-- The balancer stays only if nothing differs that it was built for. -/
theorem Coherent.adjusted {next : Settings} (h : Coherent first names s)
    (hv : s.proxy.settings.validateReload next recheck = .ok ())
    (hn : s.proxy.settings.needsNewBackends next = false) :
    Coherent first names { s with proxy := s.proxy.setSettings next } := by
  obtain ⟨hfile, hstrategy, hbackend⟩ := Settings.needsNewBackends_eq_false_iff.mp hn
  obtain ⟨b, hserved, hb⟩ := h.served
  exact {
    served := ⟨b, (Proxy.balancer?_setSettings _ next).trans hserved,
      hb.strategy.trans hstrategy, hb.backend.trans hbackend⟩
    watched := FilePath.same.trans h.watched hfile
    valid := (h.next hv).1
    fixed := (h.next hv).2 }

theorem SettingsStep.coherent {t : FileTree} {now : Nat} {known : Net.Names} {o : ReloadOutcome}
    {s' : Server} (hs : SettingsStep s t now known recheck o s') (h : Coherent first names s) :
    Coherent first names s' := by
  cases hs with
  | unloadable _ => exact h
  | refused _ _ => exact h
  | unbuildable _ _ _ _ => exact h.congr rfl rfl
  | rebuilt _ hv _ hb => exact h.applyRebuilt hv (.of_buildBalancer hb)
  | adjusted _ hv hn => exact h.adjusted hv hn

theorem InventoryStep.coherent {t : FileTree} {now : Nat} {o : ReloadOutcome} {s' : Server}
    (hs : InventoryStep s t now o s') (h : Coherent first names s) :
    Coherent first names s' := by
  cases hs with
  | unbuildable _ => exact h.congr rfl rfl
  | @replaced f b hb =>
      exact {
        served := ⟨b, Proxy.balancer?_addBalancer_serve _ b f, .of_buildBalancer hb⟩
        watched := h.watched
        valid := h.valid
        fixed := h.fixed }

theorem Coherent.reload (h : Coherent first names s) (c : ReloadCall) :
    Coherent first names (s.reload c).2 := by
  unfold Server.reload
  split
  · exact ((applySettings_step s c.tree c.now c.names c.recheck).coherent h).congr rfl rfl
  · exact ((applyInventory_step s c.tree c.now).coherent h).congr rfl rfl

/-- Whatever the files hold at each reload, and whatever hosts are found then, what is served is
coherent: the balancer is of the kind and over backends of the settings, the inventory file of the
settings is watched, nothing fixed differs from the settings the server began with, and the settings
are valid by every lookup by which those were, as by the one that was made when they were loaded. -/
theorem coherent_afterReloads {path : FilePath} {t t' : FileTree} {known : Net.Names} {f : Fleet}
    {now : Nat} {stops : Bool} {b : Balancer} (hl : Settings.load t path known = .ok first)
    (hb : (first.buildBalancer t' f now stops).2 = .ok b) (cs : List ReloadCall) :
    let s := (start path first b (first.buildBalancer t' f now stops).1).afterReloads cs
    Coherent first known s ∧ ∀ names, first.validate names = .ok () → Coherent first names s := by
  have hrun (names : Net.Names) (hnames : first.validate names = .ok ()) :
      Coherent first names
        ((start path first b (first.buildBalancer t' f now stops).1).afterReloads cs) :=
    afterReloads_induction (coherent_start hnames hb) (fun _ c h => h.reload c) cs
  exact ⟨hrun known (Settings.validate_of_load hl), hrun⟩

/-- Settings for another strategy and a missing inventory, after a start with one droplet. Only the
last reload does not find the host to listen on. -/
theorem coherent_afterReloads_strategy :
    let text (strategy : String) :=
      "bind = \"localhost:8080\"\n[loadbalancing]\ntype = \"" ++ strategy ++ "\"\n"
    let inventory := "[[droplet]]\nid = 1\nserver-host = \"10.0.0.1:80\"\n"
    let t := FileTree.ofFiles [("config.toml", text "leastconn"), ("inventory.toml", inventory)]
    let t' := FileTree.ofFiles [("config.toml", text "roundrobin"), ("inventory.toml", inventory)]
    let t'' := FileTree.ofFiles [("config.toml", text "leastconn")]
    let local_ : Net.Names := .ofHosts [("localhost", [(.v4 127 0 0 1, 0)])]
    let first : Settings := { bind := "localhost:8080", strategy := .leastConnections }
    let b : Balancer := ⟨.leastConnections, 0, ⟨[0], ⟨first.backend, true⟩⟩⟩
    let s := (start ⟨"config.toml"⟩ first b (first.buildBalancer t {} 0 true).1).afterReloads
      [⟨.settings, t', 1, local_, local_⟩, ⟨.inventory, t'', 2, .none, .none⟩,
        ⟨.settings, t'', 3, local_, .none⟩]
    Settings.load t ⟨"config.toml"⟩ local_ = .ok first ∧
      (first.buildBalancer t {} 0 true).2 = .ok b ∧
      s.proxy.settings.strategy = .roundRobin ∧ Coherent first local_ s := by
  intro text inventory t t' t'' local_ first b s
  have hl : Settings.load t ⟨"config.toml"⟩ local_ = .ok first := by decide +kernel
  have hb : (first.buildBalancer t {} 0 true).2 = .ok b := by decide +kernel
  have hstrategy : s.proxy.settings.strategy = .roundRobin := by decide +kernel
  exact ⟨hl, hb, hstrategy, (coherent_afterReloads hl hb _).1⟩

end ReverseProxy.Server
