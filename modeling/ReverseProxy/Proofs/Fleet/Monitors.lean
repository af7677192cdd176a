import ReverseProxy.Proofs.Fleet

/-!
# The monitors that run

A backend has one monitor or none. `Fleet.monitors` lists the backends whose monitor runs; closing
takes a backend out, and a cycle of a monitor changes nothing about who has one, as long as shutdown
has not begun.
-/

namespace ReverseProxy

namespace Backend

theorem settle_false (b : Backend) : b.settle false = b := by
  cases hm : b.monitor <;> simp [settle, Monitor.stops, hm]

theorem monitor_start (d : Description) (ctx : Context) (now : Nat) :
    (start d ctx now).monitor.isSome = !ctx.settings.unmonitored := by
  cases hu : ctx.settings.unmonitored <;> simp [start, hu]

theorem monitor_beginCycle (b : Backend) (now : Nat) :
    (b.beginCycle now).monitor.isSome = b.monitor.isSome := by
  cases hm : b.monitor with
  | none => simp [beginCycle, hm]
  | some m =>
      simp only [beginCycle, hm]
      split <;> simp [hm]

theorem monitor_endCycle (b : Backend) (outcome : Http.Outcome Http.Status) :
    (b.endCycle outcome).monitor.isSome = b.monitor.isSome := by
  cases hm : b.monitor with
  | none => simp [endCycle, hm]
  | some m =>
      simp only [endCycle, hm]
      split <;> simp [hm]

end Backend

namespace Fleet

variable {f : Fleet}

def monitored (f : Fleet) (h : Handle) : Bool := (f.get? h).any (·.monitor.isSome)

/-- The backends whose monitor runs. -/
def monitors (f : Fleet) : List Handle := (List.range f.backends.length).filter f.monitored

theorem lt_of_monitored {h : Handle} (hm : f.monitored h = true) : h < f.backends.length := by
  obtain ⟨b, hb, -⟩ := (Option.any_eq_true _ _).mp hm
  exact (List.getElem?_eq_some_iff.mp hb).1

theorem mem_monitors {h : Handle} : h ∈ f.monitors ↔ f.monitored h = true := by
  simp only [monitors, List.mem_filter, List.mem_range, and_iff_right_iff_imp]
  exact lt_of_monitored

theorem nodup_monitors (f : Fleet) : f.monitors.Nodup := List.nodup_range.filter _

theorem monitored_update {g : Backend → Backend}
    (hg : ∀ b, (g b).monitor.isSome = b.monitor.isSome) (f : Fleet) (i h : Handle) :
    (f.update i g).monitored h = f.monitored h := by
  have hview (f : Fleet) : f.monitored h = ((f.get? h).map (·.monitor.isSome)).any id := by
    rw [Option.any_map]
    rfl
  rw [hview, hview, map_get?_update hg]

theorem monitored_closeAll (f : Fleet) (hs : List Handle) (h : Handle) :
    (f.closeAll hs).monitored h = true ↔ f.monitored h = true ∧ h ∉ hs := by
  simp only [monitored, get?_closeAll, Option.any_map]
  by_cases hm : h ∈ hs <;> simp [hm, Backend.close]

theorem monitored_close (f : Fleet) (h : Handle) : (f.close h).monitored h = false := by
  have hclosed := monitored_closeAll f [h] h
  simpa [closeAll] using hclosed

theorem monitored_extend_of_lt (bs : List Backend) {h : Handle} (hh : h < f.backends.length) :
    (f.extend bs).monitored h = f.monitored h := by
  rw [monitored, get?_extend_of_lt bs hh]
  rfl

theorem monitored_extend_closed {bs : List Backend} (hbs : ∀ b ∈ bs, b.monitor = none)
    (h : Handle) : (f.extend bs).monitored h = f.monitored h := by
  by_cases hh : h < f.backends.length
  · exact monitored_extend_of_lt bs hh
  · have hold : ¬ f.monitored h = true := fun hm => hh (lt_of_monitored hm)
    have hnew : ¬ (f.extend bs).monitored h = true := fun hm => by
      obtain ⟨b, hb, hsome⟩ := (Option.any_eq_true _ _).mp hm
      rw [get?, extend, List.getElem?_append_right (Nat.not_lt.mp hh)] at hb
      rw [hbs b (List.mem_of_getElem? hb)] at hsome
      cases hsome
    rw [Bool.eq_false_iff.mpr hold, Bool.eq_false_iff.mpr hnew]

theorem monitor_backendFor (hf : f.shuttingDown = false) (ctx : Backend.Context) (now : Nat)
    (d : Droplet) : (f.backendFor ctx now d).monitor.isSome = !ctx.settings.unmonitored := by
  rw [backendFor, hf, Backend.settle_false, Backend.monitor_start]

/-- Backends that are created for droplets all have a monitor, or none has. -/
theorem monitored_extend_created (hf : f.shuttingDown = false) (ctx : Backend.Context) (now : Nat)
    (ds : List Droplet) (h : Nat) :
    (f.extend (ds.map (f.backendFor ctx now))).monitored h = true ↔
      f.monitored h = true ∨
        h ∈ List.range' f.backends.length ds.length ∧ ctx.settings.unmonitored = false := by
  by_cases hh : h < f.backends.length
  · rw [monitored_extend_of_lt _ hh]
    have hout : h ∉ List.range' f.backends.length ds.length := fun hmem =>
      Nat.not_lt.mpr (List.mem_range'_1.mp hmem).1 hh
    simp [hout]
  · have hold : ¬ f.monitored h = true := fun hm => hh (lt_of_monitored hm)
    have hin : h ∈ List.range' f.backends.length ds.length ↔
        h - f.backends.length < ds.length := by
      rw [List.mem_range'_1]
      omega
    rw [or_iff_right hold, hin]
    simp only [monitored, get?, extend, List.getElem?_append_right (Nat.not_lt.mp hh),
      List.getElem?_map, Option.any_map]
    by_cases hlt : h - f.backends.length < ds.length
    · simp [hlt, monitor_backendFor hf]
    · simp [hlt]

end Fleet

end ReverseProxy
