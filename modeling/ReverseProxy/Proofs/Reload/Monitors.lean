import ReverseProxy.Proofs.Fleet.Monitors
import ReverseProxy.Proofs.Reload.Steps

/-!
# Reloads and the monitors that run

Monitors start one by one while an inventory is loaded, and they are stopped when the load is
refused or the balancer is retired. Between reloads those that run are always the ones of the served
inventory: `Fleet.Attended` is kept by loading and retiring, and by the cycles of the monitors.
-/

namespace ReverseProxy

/-! ## Fleets -/

namespace Fleet

/-- The backends whose monitor runs are some given ones, or none if these go unmonitored. Shutdown
has not begun. -/
structure Attended (unmonitored : Bool) (hs : List Handle) (f : Fleet) : Prop where
  running : f.shuttingDown = false
  nodup : hs.Nodup
  exist : ∀ h ∈ hs, h < f.backends.length
  monitored : ∀ h, f.monitored h = true ↔ h ∈ hs ∧ unmonitored = false

variable {unmonitored : Bool} {hs : List Handle} {f : Fleet}

theorem Attended.empty (unmonitored : Bool) : Attended unmonitored [] {} where
  running := rfl
  nodup := List.nodup_nil
  exist := by simp
  monitored h := by simp [Fleet.monitored, get?]

theorem Attended.update {g : Backend → Backend} (ha : f.Attended unmonitored hs)
    (hg : ∀ b, (g b).monitor.isSome = b.monitor.isSome) (h : Handle) :
    (f.update h g).Attended unmonitored hs where
  running := ha.running
  nodup := ha.nodup
  exist i hi := by
    rw [Fleet.update, List.length_modify]
    exact ha.exist i hi
  monitored i := by
    rw [monitored_update hg]
    exact ha.monitored i

theorem Attended.beginCycle (ha : f.Attended unmonitored hs) (h : Handle) (now : Nat) :
    (f.beginCycle h now).Attended unmonitored hs :=
  ha.update (fun b => b.monitor_beginCycle now) h

theorem Attended.endCycle (ha : f.Attended unmonitored hs) (h : Handle)
    (outcome : Http.Outcome Http.Status) : (f.endCycle h outcome).Attended unmonitored hs := by
  refine ha.update (fun b => ?_) h
  -- A monitor that looks whether it is to stop finds that it is not.
  rw [ha.running, Backend.settle_false]
  exact b.monitor_endCycle outcome

theorem Attended.extend_closed {closed : List Backend} (ha : f.Attended unmonitored hs)
    (hclosed : ∀ b ∈ closed, b.monitor = none) : (f.extend closed).Attended unmonitored hs where
  running := ha.running
  nodup := ha.nodup
  exist h hh := by
    rw [extend, List.length_append]
    exact Nat.lt_add_right _ (ha.exist h hh)
  monitored h := by
    rw [monitored_extend_closed hclosed]
    exact ha.monitored h

/-- New backends take over from the ones before, which are closed. -/
theorem Attended.takeover (ha : f.Attended unmonitored hs) (ctx : Backend.Context) (now : Nat)
    (ds : List Droplet) :
    ((f.extend (ds.map (f.backendFor ctx now))).closeAll hs).Attended ctx.settings.unmonitored
      (List.range' f.backends.length ds.length) where
  running := (shuttingDown_closeAll _ hs).trans ha.running
  nodup := List.nodup_range'
  exist h hh := by
    rw [length_closeAll, extend, List.length_append, List.length_map]
    exact (List.mem_range'_1.mp hh).2
  monitored h := by
    rw [monitored_closeAll, monitored_extend_created ha.running, ha.monitored]
    constructor
    · rintro ⟨⟨hold, -⟩ | hnew, hout⟩
      · exact absurd hold hout
      · exact hnew
    · rintro ⟨hnew, hu⟩
      -- The handles of the new backends are past all that were in use.
      have hout : h ∉ hs := fun hold =>
        Nat.not_lt.mpr (List.mem_range'_1.mp hnew).1 (ha.exist h hold)
      exact ⟨.inr ⟨hnew, hu⟩, hout⟩

theorem Attended.monitors_perm (ha : f.Attended unmonitored hs) :
    f.monitors.Perm (if unmonitored then [] else hs) := by
  cases unmonitored with
  | false =>
      refine (List.perm_ext_iff_of_nodup f.nodup_monitors ha.nodup).mpr fun h => ?_
      rw [mem_monitors, ha.monitored, and_iff_left rfl]
  | true =>
      have hnone : ∀ h, h ∉ f.monitors := fun h hm => by
        obtain ⟨-, hu⟩ := (ha.monitored h).mp (mem_monitors.mp hm)
        cases hu
      rw [List.eq_nil_iff_forall_not_mem.mpr hnone]
      exact .nil

end Fleet

/-! ## Servers -/

namespace Server

/-- The monitors that run are those of the balancer that is served. -/
def Attended (s : Server) : Prop :=
  ∃ b, s.proxy.balancer? = some b ∧
    s.fleet.Attended s.proxy.settings.backend.unmonitored b.inventory.members

variable {s s' : Server} {t : FileTree} {now : Nat} {names recheck : Net.Names} {o : ReloadOutcome}

theorem attended_start {first : Settings} {stops : Bool} {b : Balancer} (path : FilePath)
    (hb : (first.buildBalancer t {} now stops).2 = .ok b) :
    Attended (start path first b (first.buildBalancer t {} now stops).1) := by
  have hbuilt := first.built_buildBalancer t {} now stops
  generalize first.buildBalancer t {} now stops = r at hb hbuilt
  cases hbuilt with
  | built hread hparse =>
      cases hb
      exact ⟨_, rfl, (Fleet.Attended.empty false).takeover ⟨first.backend, stops⟩ now _⟩
  | refused hclosed => cases hb

theorem Attended.unbuildable {next : Settings} {f : Fleet} {e : ReloadError} (h : Attended s)
    (hb : next.buildBalancer t s.fleet now true = (f, .error e)) :
    Attended { s with fleet := f } := by
  obtain ⟨b, hserved, ha⟩ := h
  have hbuilt := next.built_buildBalancer t s.fleet now true
  rw [hb] at hbuilt
  cases hbuilt with
  | refused hclosed => exact ⟨b, hserved, ha.extend_closed hclosed⟩

theorem Attended.built {next : Settings} {f : Fleet} {b : Balancer} (h : Attended s)
    (hb : next.buildBalancer t s.fleet now true = (f, .ok b))
    (hsettings : s'.proxy.settings = next) (hserved : s'.proxy.balancer? = some b)
    (hfleet : s'.fleet = (s.proxy.addBalancer b).2.retire f (s.proxy.addBalancer b).1) :
    Attended s' := by
  obtain ⟨previous, hprevious, ha⟩ := h
  rw [Proxy.retire_addBalancer hprevious] at hfleet
  have hbuilt := next.built_buildBalancer t s.fleet now true
  rw [hb] at hbuilt
  cases hbuilt with
  | built hread hparse =>
      refine ⟨_, hserved, ?_⟩
      rw [hsettings, hfleet]
      exact ha.takeover ⟨next.backend, true⟩ now _

theorem SettingsStep.attended (hs : SettingsStep s t now names recheck o s') (h : Attended s) :
    Attended s' := by
  cases hs with
  | unloadable _ => exact h
  | refused _ _ => exact h
  | unbuildable _ _ _ hb => exact h.unbuildable hb
  | @rebuilt next f b _ _ _ hb =>
      exact h.built hb rfl (Proxy.balancer?_addBalancer_serve _ b f) rfl
  | @adjusted next _ _ hn =>
      obtain ⟨b, hserved, ha⟩ := h
      obtain ⟨-, -, hbackend⟩ := Settings.needsNewBackends_eq_false_iff.mp hn
      refine ⟨b, hserved, ?_⟩
      rw [hbackend] at ha
      exact ha

theorem InventoryStep.attended (hs : InventoryStep s t now o s') (h : Attended s) :
    Attended s' := by
  cases hs with
  | unbuildable hb => exact h.unbuildable hb
  | @replaced f b hb => exact h.built hb rfl (Proxy.balancer?_addBalancer_serve _ b f) rfl

theorem Attended.reload (h : Attended s) (c : ReloadCall) : Attended (s.reload c).2 := by
  unfold Server.reload
  split
  · exact (applySettings_step s c.tree c.now c.names c.recheck).attended h
  · exact (applyInventory_step s c.tree c.now).attended h

/-! ## Runs -/

/-- What goes on while a server runs. -/
inductive Event
  | reload (c : ReloadCall)
  | beginCycle (h : Handle) (now : Nat)
  | endCycle (h : Handle) (outcome : Http.Outcome Http.Status)

def after (s : Server) : Event → Server
  | .reload c => (s.reload c).2
  | .beginCycle h now => { s with fleet := s.fleet.beginCycle h now }
  | .endCycle h outcome => { s with fleet := s.fleet.endCycle h outcome }

/-- The server after some events, first one first. -/
def afterEvents (s : Server) (es : List Event) : Server := es.foldl after s

theorem Attended.after (h : Attended s) (e : Event) : Attended (s.after e) := by
  cases e with
  | reload c => exact h.reload c
  | beginCycle i now =>
      obtain ⟨b, hserved, ha⟩ := h
      exact ⟨b, hserved, ha.beginCycle i now⟩
  | endCycle i outcome =>
      obtain ⟨b, hserved, ha⟩ := h
      exact ⟨b, hserved, ha.endCycle i outcome⟩

theorem Attended.afterEvents (h : Attended s) (es : List Event) : Attended (s.afterEvents es) := by
  induction es generalizing s with
  | nil => exact h
  | cons e es ih => exact ih (h.after e)

/-- The monitors that run are those of the served inventory, one for each of its backends, or none if
backends go unmonitored. -/
def MonitorsServed (s : Server) : Prop :=
  ∃ b, s.proxy.balancer? = some b ∧ b.inventory.members.Nodup ∧
    (∀ h ∈ b.inventory.members, h < s.fleet.backends.length) ∧
    s.fleet.monitors.Perm
      (if s.proxy.settings.backend.unmonitored then [] else b.inventory.members)

/-- Whatever the files hold at each reload, no monitor of a retired balancer or of a refused load
runs on, and none of the served inventory is missing. -/
theorem monitors_afterEvents {path : FilePath} {first : Settings} {stops : Bool} {b : Balancer}
    (hb : (first.buildBalancer t {} now stops).2 = .ok b) (es : List Event) :
    MonitorsServed
      ((start path first b (first.buildBalancer t {} now stops).1).afterEvents es) := by
  obtain ⟨b', hserved, ha⟩ := (attended_start path hb).afterEvents es
  exact ⟨b', hserved, ha.nodup, ha.exist, ha.monitors_perm⟩

/-- Between two reloads that are refused, the second at the second droplet of the file, one droplet
is replaced by two. -/
theorem monitors_afterEvents_replaced :
    let droplet (id host : String) :=
      "[[droplet]]\nid = " ++ id ++ "\nserver-host = \"" ++ host ++ "\"\n"
    let t (inventory : String) := FileTree.ofFiles [("config.toml", ""), ("inventory.toml", inventory)]
    let t₀ := t (droplet "1" "10.0.0.1:80")
    let t₁ := t (droplet "1" "10.0.0.1:80" ++ droplet "2" "10.0.0.2:80")
    let t₂ := t (droplet "3" "10.0.0.3:80" ++ droplet "4" "")
    let first : Settings := { bind := "127.0.0.1:0" }
    let b : Balancer := ⟨first.strategy, 0, ⟨[0], ⟨first.backend, true⟩⟩⟩
    let s := (start ⟨"config.toml"⟩ first b (first.buildBalancer t₀ {} 0 true).1).afterEvents
      [.reload { target := .settings, tree := t₁, now := 1 },
        .reload { target := .inventory, tree := t₁, now := 2 },
        .reload { target := .inventory, tree := t₂, now := 3 }]
    (first.buildBalancer t₀ {} 0 true).2 = .ok b ∧ s.fleet.backends.length = 4 ∧
      s.fleet.monitors.Perm [1, 2] := by
  intro droplet t t₀ t₁ t₂ first b s
  have hb : (first.buildBalancer t₀ {} 0 true).2 = .ok b := by decide +kernel
  have hs : MonitorsServed s := monitors_afterEvents hb _
  have hfacts : s.fleet.backends.length = 4 ∧
      s.proxy.balancer?.map (·.inventory.members) = some [1, 2] ∧
      s.proxy.settings.backend.unmonitored = false := by
    decide +kernel
  clear_value s
  obtain ⟨hlength, hmembers, hmonitored⟩ := hfacts
  obtain ⟨b', hserved, -, -, hperm⟩ := hs
  rw [hserved, Option.map_some, Option.some.injEq] at hmembers
  rw [hmonitored, hmembers] at hperm
  exact ⟨hb, hlength, hperm⟩

end Server

end ReverseProxy
