import ReverseProxy.Proofs.Config.Compatible
import ReverseProxy.Proofs.Inventory.Loading
import ReverseProxy.Reload

/-!
# What a reload can do

`SettingsStep` and `InventoryStep` list the ways in which a reload can end, with all that is known
in each case; `applySettings_step` and `applyInventory_step` say that there are no others.
Properties of reloads are proved by cases on these relations.
-/

namespace ReverseProxy

theorem Settings.load_eq_ok_iff {t : FileTree} {p : FilePath} {names : Net.Names} {s : Settings} :
    Settings.load t p names = .ok s ↔
      Settings.loadUnchecked t p = .ok s ∧ s.validate names = .ok () := by
  unfold Settings.load
  cases hu : Settings.loadUnchecked t p with
  | error e => simp [Bind.bind, Except.bind]
  | ok u =>
      simp only [Bind.bind, Except.bind, Except.ok.injEq]
      constructor
      · intro h
        cases hv : u.validate names with
        | error e => simp [hv] at h
        | ok v =>
            simp only [hv, Except.ok.injEq] at h
            exact ⟨h, h ▸ hv⟩
      · rintro ⟨rfl, hv⟩
        rw [hv]

theorem Settings.validate_of_load {t : FileTree} {p : FilePath} {names : Net.Names} {s : Settings}
    (h : Settings.load t p names = .ok s) : s.validate names = .ok () := (load_eq_ok_iff.mp h).2

/-! ## Building a balancer -/

/-- What building a balancer comes to: one for the settings over new backends for the droplets of
the file, or an error after which every backend that was added is closed. -/
inductive Settings.Built (s : Settings) (t : FileTree) (f : Fleet) (now : Nat) (stops : Bool) :
    Fleet × Except ReloadError Balancer → Prop
  | built {text : String} {ds : List Droplet} (hread : t.read s.inventoryFile = .ok text)
      (hparse : Inventory.parseFile text = .ok ds) : Built s t f now stops
      (f.extend (ds.map (f.backendFor ⟨s.backend, stops⟩ now)),
        .ok ⟨s.strategy, 0, ⟨List.range' f.backends.length ds.length, ⟨s.backend, stops⟩⟩⟩)
  | refused {closed : List Backend} {e : ReloadError} (hclosed : ∀ b ∈ closed, b.monitor = none) :
      Built s t f now stops (f.extend closed, .error e)

theorem Settings.built_buildBalancer (s : Settings) (t : FileTree) (f : Fleet) (now : Nat)
    (stops : Bool) : Built s t f now stops (s.buildBalancer t f now stops) := by
  have hloaded := Inventory.loaded_load t s.inventoryFile ⟨s.backend, stops⟩ f now
  unfold buildBalancer
  generalize Inventory.load t s.inventoryFile _ f now = r at hloaded
  cases hloaded with
  | loaded hread hparse => exact .built hread hparse
  | refused hclosed => exact .refused hclosed

theorem Settings.buildBalancer_ok {s : Settings} {t : FileTree} {f f' : Fleet} {now : Nat}
    {stops : Bool} {b : Balancer} (h : s.buildBalancer t f now stops = (f', .ok b)) :
    b.strategy = s.strategy ∧ b.inventory.context = ⟨s.backend, stops⟩ := by
  have hbuilt := s.built_buildBalancer t f now stops
  rw [h] at hbuilt
  cases hbuilt with
  | built hread hparse => exact ⟨rfl, rfl⟩

namespace Proxy

theorem balancer?_setSettings (p : Proxy) (s : Settings) :
    (p.setSettings s).balancer? = p.balancer? := rfl

theorem balancer?_addBalancer_serve (p : Proxy) (b : Balancer) (f : Fleet) :
    ((p.addBalancer b).2.serve f (p.addBalancer b).1).1.balancer? = some b := by
  simp [addBalancer, serve, balancer?]

theorem current_lt_of_balancer? {p : Proxy} {b : Balancer} (hb : p.balancer? = some b) :
    p.current < p.balancers.length :=
  (List.getElem?_eq_some_iff.mp hb).1

/-- A new balancer takes over from the one that was served, and that one is closed. -/
theorem retire_addBalancer {p : Proxy} {served : Balancer} (hs : p.balancer? = some served)
    (b : Balancer) (f : Fleet) :
    (p.addBalancer b).2.retire f (p.addBalancer b).1 = served.close f := by
  have hlt := current_lt_of_balancer? hs
  have hne : ¬ p.current = p.balancers.length := Nat.ne_of_lt hlt
  have hserved : (p.addBalancer b).2.balancer? = some served := by
    rw [← hs]
    exact List.getElem?_append_left hlt
  rw [retire, hserved]
  exact if_neg hne

end Proxy

namespace Server

/-- The ways in which reading the settings again can end. -/
inductive SettingsStep (s : Server) (t : FileTree) (now : Nat) (names recheck : Net.Names) :
    ReloadOutcome → Server → Prop
  | unloadable {e} : Settings.load t s.settingsPath names = .error e →
      SettingsStep s t now names recheck (some (.unloadable e)) s
  | refused {next e} : Settings.load t s.settingsPath names = .ok next →
      s.proxy.settings.validateReload next recheck = .error e →
      SettingsStep s t now names recheck (some (.refused e)) s
  | unbuildable {next f e} : Settings.load t s.settingsPath names = .ok next →
      s.proxy.settings.validateReload next recheck = .ok () →
      s.proxy.settings.needsNewBackends next = true →
      next.buildBalancer t s.fleet now true = (f, .error e) →
      SettingsStep s t now names recheck (some e) { s with fleet := f }
  | rebuilt {next f b} : Settings.load t s.settingsPath names = .ok next →
      s.proxy.settings.validateReload next recheck = .ok () →
      s.proxy.settings.needsNewBackends next = true →
      next.buildBalancer t s.fleet now true = (f, .ok b) →
      SettingsStep s t now names recheck none (s.applyRebuilt next b f)
  /-- The balancer stays. -/
  | adjusted {next} : Settings.load t s.settingsPath names = .ok next →
      s.proxy.settings.validateReload next recheck = .ok () →
      s.proxy.settings.needsNewBackends next = false →
      SettingsStep s t now names recheck none { s with proxy := s.proxy.setSettings next }

theorem applySettings_step (s : Server) (t : FileTree) (now : Nat) (names recheck : Net.Names) :
    SettingsStep s t now names recheck (s.applySettings t now names recheck).1
      (s.applySettings t now names recheck).2 := by
  unfold applySettings
  split
  · rename_i hl
    exact .unloadable hl
  · rename_i hl
    split
    · rename_i hv
      exact .refused hl hv
    · rename_i hv
      split
      · rename_i hn
        split
        · rename_i hb
          exact .unbuildable hl hv hn hb
        · rename_i hb
          exact .rebuilt hl hv hn hb
      · rename_i hn
        exact .adjusted hl hv (Bool.eq_false_iff.mpr hn)

/-- The server after a balancer of the current settings has been put in place. -/
def applyReplaced (s : Server) (b : Balancer) (f : Fleet) : Server :=
  { s with
    proxy := ((s.proxy.addBalancer b).2.serve f (s.proxy.addBalancer b).1).1
    fleet := ((s.proxy.addBalancer b).2.serve f (s.proxy.addBalancer b).1).2 }

/-- The ways in which reading the inventory again can end. -/
inductive InventoryStep (s : Server) (t : FileTree) (now : Nat) : ReloadOutcome → Server → Prop
  | unbuildable {f e} : s.proxy.settings.buildBalancer t s.fleet now true = (f, .error e) →
      InventoryStep s t now (some e) { s with fleet := f }
  | replaced {f b} : s.proxy.settings.buildBalancer t s.fleet now true = (f, .ok b) →
      InventoryStep s t now none (s.applyReplaced b f)

theorem applyInventory_step (s : Server) (t : FileTree) (now : Nat) :
    InventoryStep s t now (s.applyInventory t now).1 (s.applyInventory t now).2 := by
  unfold applyInventory
  split
  · rename_i hb
    exact .unbuildable hb
  · rename_i hb
    exact .replaced hb

/-! ## Runs -/

/-- A call of a reload: what is read again, what the files hold then, the time, and what is found
when settings are validated, and validated again. -/
structure ReloadCall where
  target : ReloadTarget
  tree : FileTree
  now : Nat
  names : Net.Names := .none
  recheck : Net.Names := .none

def reload (s : Server) (c : ReloadCall) : ReloadOutcome × Server :=
  match c.target with
  | .settings => s.reloadSettings c.tree c.now c.names c.recheck
  | .inventory => s.reloadInventory c.tree c.now

/-- The server after some calls, first one first. -/
def afterReloads (s : Server) (cs : List ReloadCall) : Server :=
  cs.foldl (fun s c => (s.reload c).2) s

/-- What every reload keeps, every run of reloads keeps. -/
theorem afterReloads_induction {P : Server → Prop} {s : Server} (hs : P s)
    (hstep : ∀ s c, P s → P (s.reload c).2) (cs : List ReloadCall) : P (s.afterReloads cs) := by
  induction cs generalizing s with
  | nil => exact hs
  | cons c cs ih => exact ih (hstep s c hs)

end Server

end ReverseProxy
