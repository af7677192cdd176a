import ReverseProxy.Proofs.Reload.Coherence

/-!
# A reload is applied as a whole or not at all

A rejected reload leaves behind what is served, down to the last backend, and the path that is
watched. An applied one serves what was read: other settings over the same balancer, or a new
balancer made from the file. Either way its outcome is published once.
-/

namespace ReverseProxy.Server

/-- What is served is as it was before, and so is every backend. -/
structure Unaffected (s s' : Server) : Prop where
  proxy : s'.proxy = s.proxy
  inventoryPath : s'.inventoryPath = s.inventoryPath
  fleet : s.fleet.Untouched s'.fleet

/-- A balancer is served that was not there before, made for the current settings from the droplets
that their inventory file holds. -/
structure Renewed (s : Server) (t : FileTree) (s' : Server) : Prop where
  fresh : s.proxy.balancers.length ≤ s'.proxy.current
  made : ∃ text ds b, t.read s'.proxy.settings.inventoryFile = .ok text ∧
    Inventory.parseFile text = .ok ds ∧ s'.proxy.balancer? = some b ∧ b.cursor = 0 ∧
    BuiltFor s'.proxy.settings b ∧
    (b.inventory.backends s'.fleet).map (·.description) = ds.map .ofDroplet

structure SettingsApplied (s : Server) (t : FileTree) (names : Net.Names) (s' : Server) :
    Prop where
  loaded : Settings.load t s.settingsPath names = .ok s'.proxy.settings
  kept_iff : s'.proxy.current = s.proxy.current ↔
    s.proxy.settings.inventoryFile.same s'.proxy.settings.inventoryFile ∧
      s.proxy.settings.strategy = s'.proxy.settings.strategy ∧
      s.proxy.settings.backend = s'.proxy.settings.backend
  kept : s'.proxy.current = s.proxy.current →
    s'.proxy.balancers = s.proxy.balancers ∧ s'.fleet = s.fleet ∧
      s'.inventoryPath = s.inventoryPath ∧ s.proxy.settings.NearlySame s'.proxy.settings
  renewed : s'.proxy.current ≠ s.proxy.current → Renewed s t s'

structure InventoryApplied (s : Server) (t : FileTree) (s' : Server) : Prop where
  settings : s'.proxy.settings = s.proxy.settings
  inventoryPath : s'.inventoryPath = s.inventoryPath
  renewed : Renewed s t s'
  strategy : ∀ b b', s.proxy.balancer? = some b → s'.proxy.balancer? = some b' →
    b'.strategy = b.strategy

variable {first : Settings} {names known recheck : Net.Names} {s s' : Server} {t : FileTree}
variable {now : Nat}

theorem unaffected_fleet {f : Fleet} (hf : s.fleet.Untouched f) :
    Unaffected s { s with fleet := f } :=
  ⟨rfl, rfl, hf⟩

/-- A build that fails has added backends and closed them. -/
theorem untouched_buildBalancer {next : Settings} {f : Fleet} {e : ReloadError}
    (hb : next.buildBalancer t s.fleet now true = (f, .error e)) : s.fleet.Untouched f := by
  have hbuilt := next.built_buildBalancer t s.fleet now true
  rw [hb] at hbuilt
  cases hbuilt with
  | refused hclosed => exact s.fleet.untouched_extend _

/-! ## A new balancer -/

theorem renewed_of_built {next : Settings} {f : Fleet} {b : Balancer} {hs : List Handle}
    (hb : next.buildBalancer t s.fleet now true = (f, .ok b)) (hnext : s'.proxy.settings = next)
    (hfresh : s.proxy.balancers.length ≤ s'.proxy.current) (hserved : s'.proxy.balancer? = some b)
    (hfleet : s'.fleet = f.closeAll hs) : Renewed s t s' := by
  have hbuilt := next.built_buildBalancer t s.fleet now true
  rw [hb] at hbuilt
  subst hnext
  cases hbuilt with
  | @built text ds hread hparse =>
      refine ⟨hfresh, text, ds, _, hread, hparse, hserved, rfl, ⟨rfl, rfl⟩, ?_⟩
      -- Closing keeps descriptions, so those of the members are still those of the droplets.
      rw [Inventory.map_description_backends, hfleet, Inventory.descriptions,
        Fleet.descriptions_closeAll]
      exact Inventory.descriptions_created s.fleet _ _ now ds

theorem Coherent.renewed_rebuilt {next : Settings} {f : Fleet} {b : Balancer}
    (h : Coherent first names s) (hb : next.buildBalancer t s.fleet now true = (f, .ok b)) :
    Renewed s t (s.applyRebuilt next b f) := by
  obtain ⟨served, hserved, -⟩ := h.served
  exact renewed_of_built hb rfl (Nat.le_refl _) (Proxy.balancer?_addBalancer_serve _ b f)
    (Proxy.retire_addBalancer hserved b f)

theorem Coherent.renewed_replaced {f : Fleet} {b : Balancer} (h : Coherent first names s)
    (hb : s.proxy.settings.buildBalancer t s.fleet now true = (f, .ok b)) :
    Renewed s t (s.applyReplaced b f) := by
  obtain ⟨served, hserved, -⟩ := h.served
  exact renewed_of_built hb rfl (Nat.le_refl _) (Proxy.balancer?_addBalancer_serve _ b f)
    (Proxy.retire_addBalancer hserved b f)

theorem Coherent.current_ne (h : Coherent first names s) (hr : Renewed s t s') :
    s'.proxy.current ≠ s.proxy.current := by
  obtain ⟨served, hserved, -⟩ := h.served
  exact Nat.ne_of_gt (Nat.lt_of_lt_of_le (Proxy.current_lt_of_balancer? hserved) hr.fresh)

/-! ## The two reloads -/

theorem SettingsStep.transaction {o : ReloadOutcome}
    (hs : SettingsStep s t now known recheck o s') (h : Coherent first names s) :
    (∀ e, o = some e → Unaffected s s') ∧ (o = none → SettingsApplied s t known s') := by
  cases hs with
  | unloadable _ => exact ⟨fun _ _ => unaffected_fleet (.refl _), fun ho => by cases ho⟩
  | refused _ _ => exact ⟨fun _ _ => unaffected_fleet (.refl _), fun ho => by cases ho⟩
  | unbuildable _ _ _ hb =>
      exact ⟨fun _ _ => unaffected_fleet (untouched_buildBalancer hb), fun ho => by cases ho⟩
  | @rebuilt next f b hl hv hn hb =>
      have hrenewed := h.renewed_rebuilt hb
      have hchanged := h.current_ne hrenewed
      refine ⟨fun _ ho => by (cases ho), fun _ => ⟨hl, ⟨fun heq => absurd heq hchanged, ?_⟩,
        fun heq => absurd heq hchanged, fun _ => hrenewed⟩⟩
      intro hsame
      have hkept := Settings.needsNewBackends_eq_false_iff.mpr hsame
      exact absurd hn (Bool.eq_false_iff.mp hkept)
  | @adjusted next hl hv hn =>
      have hfixed := (Settings.validateReload_eq_ok_iff.mp hv).2
      refine ⟨fun _ ho => by (cases ho), fun _ => ⟨hl, ⟨fun _ => ?_, fun _ => rfl⟩,
        fun _ => ⟨rfl, rfl, rfl, hfixed.nearlySame hn⟩, fun hne => absurd rfl hne⟩⟩
      exact Settings.needsNewBackends_eq_false_iff.mp hn

theorem InventoryStep.transaction {o : ReloadOutcome} (hs : InventoryStep s t now o s')
    (h : Coherent first names s) :
    (∀ e, o = some e → Unaffected s s') ∧ (o = none → InventoryApplied s t s') := by
  cases hs with
  | unbuildable hb =>
      exact ⟨fun _ _ => unaffected_fleet (untouched_buildBalancer hb), fun ho => by cases ho⟩
  | @replaced f b hb =>
      have hrenewed := h.renewed_replaced hb
      refine ⟨fun _ ho => by (cases ho), fun _ => ⟨rfl, rfl, hrenewed, fun b₁ b₂ h₁ h₂ => ?_⟩⟩
      -- The old balancer and the new one are both as the same settings call for.
      obtain ⟨served, hserved, hfor⟩ := h.served
      obtain ⟨text, ds, made, -, -, hmade, -, hmadeFor, -⟩ := hrenewed.made
      rw [hserved, Option.some.injEq] at h₁
      rw [hmade, Option.some.injEq] at h₂
      rw [← h₁, ← h₂, hfor.strategy, hmadeFor.strategy]
      rfl

/-! ## Publishing -/

theorem SettingsStep.events {o : ReloadOutcome} (hs : SettingsStep s t now known recheck o s') :
    s'.events = s.events := by
  cases hs <;> rfl

theorem InventoryStep.events {o : ReloadOutcome} (hs : InventoryStep s t now o s') :
    s'.events = s.events := by
  cases hs <;> rfl

variable {events : Broadcast ReloadEvent}

theorem Unaffected.publish (h : Unaffected s s') : Unaffected s { s' with events } :=
  ⟨h.proxy, h.inventoryPath, h.fleet⟩

theorem Renewed.publish (h : Renewed s t s') : Renewed s t { s' with events } :=
  ⟨h.fresh, h.made⟩

theorem SettingsApplied.publish (h : SettingsApplied s t known s') :
    SettingsApplied s t known { s' with events } :=
  ⟨h.loaded, h.kept_iff, h.kept, fun hne => (h.renewed hne).publish⟩

theorem InventoryApplied.publish (h : InventoryApplied s t s') :
    InventoryApplied s t { s' with events } :=
  ⟨h.settings, h.inventoryPath, h.renewed.publish, h.strategy⟩

theorem reload_settings (s : Server) (t : FileTree) (now : Nat) (known recheck : Net.Names) :
    s.reload ⟨.settings, t, now, known, recheck⟩ =
      (s.applySettings t now known recheck).2.publish .settings
        (s.applySettings t now known recheck).1 := by
  simp only [reload, reloadSettings]

theorem reload_inventory (s : Server) (t : FileTree) (now : Nat) (known recheck : Net.Names) :
    s.reload ⟨.inventory, t, now, known, recheck⟩ =
      (s.applyInventory t now).2.publish .inventory (s.applyInventory t now).1 := by
  simp only [reload, reloadInventory]

/-- Whatever the files hold and whatever hosts are found, a reload of a coherent server that is rejected
leaves what is served as it was, and one that is applied serves what was read. The balancer stays
exactly if nothing it was built for has changed. The outcome is published once. -/
theorem reload_transaction (h : Coherent first names s) {c : ReloadCall} {o : ReloadOutcome}
    (hr : s.reload c = (o, s')) :
    (∀ e, o = some e → Unaffected s s') ∧
      (o = none → c.target = .settings → SettingsApplied s c.tree c.names s') ∧
      (o = none → c.target = .inventory → InventoryApplied s c.tree s') ∧
      s'.events.sent = s.events.sent ++ [⟨c.target, o⟩] := by
  obtain ⟨target, t, now, known, recheck⟩ := c
  cases target with
  | settings =>
      have hs := applySettings_step s t now known recheck
      rw [reload_settings] at hr
      generalize s.applySettings t now known recheck = r at hs hr
      cases hr
      obtain ⟨hrejected, happlied⟩ := hs.transaction h
      refine ⟨fun e he => (hrejected e he).publish, fun ho _ => (happlied ho).publish,
        fun _ ht => by (cases ht), ?_⟩
      exact congrArg (·.sent ++ [⟨.settings, r.1⟩]) hs.events
  | inventory =>
      have hs := applyInventory_step s t now
      rw [reload_inventory] at hr
      generalize s.applyInventory t now = r at hs hr
      cases hr
      obtain ⟨hrejected, happlied⟩ := hs.transaction h
      refine ⟨fun e he => (hrejected e he).publish, fun _ ht => by (cases ht),
        fun ho _ => (happlied ho).publish, ?_⟩
      exact congrArg (·.sent ++ [⟨.inventory, r.1⟩]) hs.events

/-- Another strategy is asked for, which takes a new balancer. The host to listen on has been given
another address. -/
theorem reload_transaction_rebuilt :
    let text (strategy : String) :=
      "bind = \"localhost:8080\"\n[loadbalancing]\ntype = \"" ++ strategy ++ "\"\n"
    let inventory := "[[droplet]]\nid = 1\nserver-host = \"10.0.0.1:80\"\n"
    let t := FileTree.ofFiles [("config.toml", text "leastconn"), ("inventory.toml", inventory)]
    let t' := FileTree.ofFiles [("config.toml", text "roundrobin"), ("inventory.toml", inventory)]
    let names : Net.Names := .ofHosts [("localhost", [(.v4 127 0 0 1, 0)])]
    let names' : Net.Names := .ofHosts [("localhost", [(.v4 127 0 1 1, 0)])]
    let first : Settings := { bind := "localhost:8080", strategy := .leastConnections }
    let b : Balancer := ⟨.leastConnections, 0, ⟨[0], ⟨first.backend, true⟩⟩⟩
    let s := start ⟨"config.toml"⟩ first b (first.buildBalancer t {} 0 true).1
    let s' := (s.reload ⟨.settings, t', 1, names', names'⟩).2
    Coherent first names s ∧ s.reload ⟨.settings, t', 1, names', names'⟩ = (none, s') ∧
      s'.proxy.current ≠ s.proxy.current ∧ Renewed s t' s' ∧
      s'.events.sent = [⟨.settings, none⟩] := by
  intro text inventory t t' names names' first b s s'
  have hnames : first.validate names = .ok () := by decide +kernel
  have hb : (first.buildBalancer t {} 0 true).2 = .ok b := by decide +kernel
  have hs : Coherent first names s := coherent_start hnames hb
  have ho : (s.reload ⟨.settings, t', 1, names', names'⟩).1 = none := by decide +kernel
  have hr : s.reload ⟨.settings, t', 1, names', names'⟩ = (none, s') := Prod.ext ho rfl
  have hc : s'.proxy.current ≠ s.proxy.current := by decide +kernel
  obtain ⟨-, happlied, -, hevents⟩ := reload_transaction hs hr
  exact ⟨hs, hr, hc, (happlied rfl rfl).renewed hc, hevents⟩

end ReverseProxy.Server
