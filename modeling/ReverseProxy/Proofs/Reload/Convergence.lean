import ReverseProxy.Proofs.Inventory.Members
import ReverseProxy.Proofs.Reload.Stages

/-!
# Reloads that converge

A change of the inventory after it was read leaves an alarm: an event on its way, a notice, or a
task that will reload. So when everything is quiet, what is served is what the inventory holds. That
takes for granted that the change was not made between the reading and the attempt to watch another
file, and that the path was not spelled otherwise since: `run?_respelled` and `run?_unwatched` show
that changes get lost then.
-/

namespace ReverseProxy

/-- Whether a watcher looks at a location. -/
def Watch.Watcher.Covers (w : Watch.Watcher) (l : Location) : Prop :=
  w.directory = some l.dropLast ∧ l.getLast? = some w.name

instance (w : Watch.Watcher) (l : Location) : Decidable (w.Covers l) :=
  inferInstanceAs (Decidable (_ ∧ _))

namespace Reload

open Watch (Watcher Vigil)
open Backend (Description)

variable {tree : FileTree} {f f' : Fleet} {settings : Settings} {b : Balancer} {r : Reading}
  {t t' : Task} {l : Location} {text : String}

/-! ## Alarms -/

/-- Whether a task is going to reload. -/
def Task.Alarmed (t : Task) : Prop :=
  t.mail ≠ 0 ∨ t.vigil.notice = true ∨ (t.vigil.stage ≠ .away ∧ t.vigil.stage ≠ .waiting) ∨
    t.stage = .queued ∨ ∃ p, t.stage = .rewatching p

theorem Task.Alarmed.hear (ha : t.Alarmed) (rs : List DirectoryReport) : (t.hear rs).Alarmed :=
  ha.imp (fun hm => by simp only [Task.hear]; omega) id

theorem alarmed_write (hc : t.watcher.Covers l) (tree : FileTree) :
    (t.hear (FileOperation.writeReports tree l)).Alarmed := by
  left
  have hmodified : FileOperation.reportOf l .modified ∈
      (FileOperation.writeReports tree l).filter t.watcher.cares := by
    refine List.mem_filter.mpr ⟨by simp [FileOperation.writeReports], ?_⟩
    simp [Watcher.cares, FileOperation.reportOf, Watch.concerns, hc.1, hc.2]
  have hpos := List.length_pos_of_mem hmodified
  simp only [Task.hear]
  omega

theorem run?_single {v v' : Vigil} {time : Nat} {e : Vigil.Event}
    (h : v.run? [(time, e)] = some v') : Vigil.step? { v with now := time } e = some v' := by
  simp only [Vigil.run?] at h
  split at h
  · simpa [Vigil.run?] using h
  · cases h

/-- A task that reloads hears of changes, but does not move on. -/
theorem keeps_of_move? {time : Nat} {e : Vigil.Event} (hm : t.move? time e = some t') :
    t'.watcher = t.watcher ∧ (t.stage = .reloading → t'.stage = .reloading) := by
  cases e with
  | change =>
      obtain ⟨-, hm⟩ := Option.ite_none_left_eq_some.mp hm
      obtain ⟨v, -, rfl⟩ := Option.map_eq_some_iff.mp hm
      exact ⟨rfl, id⟩
  | wait | take | wake | clear | report =>
      obtain ⟨hs, hm⟩ := Option.ite_none_right_eq_some.mp hm
      obtain ⟨v, -, rfl⟩ := Option.map_eq_some_iff.mp hm
      refine ⟨rfl, fun hr => ?_⟩
      rw [hs] at hr
      cases hr

theorem Task.Alarmed.move {time : Nat} {e : Vigil.Event} (ha : t.Alarmed)
    (hm : t.move? time e = some t') : t'.Alarmed := by
  cases e with
  | change =>
      obtain ⟨-, hm⟩ := Option.ite_none_left_eq_some.mp hm
      obtain ⟨v, hv, rfl⟩ := Option.map_eq_some_iff.mp hm
      cases run?_single hv
      exact .inr (.inl rfl)
  | report =>
      obtain ⟨-, hm⟩ := Option.ite_none_right_eq_some.mp hm
      obtain ⟨v, hv, rfl⟩ := Option.map_eq_some_iff.mp hm
      exact .inr (.inr (.inr (.inl rfl)))
  | wait =>
      obtain ⟨hs, hm⟩ := Option.ite_none_right_eq_some.mp hm
      obtain ⟨v, hv, rfl⟩ := Option.map_eq_some_iff.mp hm
      obtain ⟨haway, hv⟩ := Option.ite_none_right_eq_some.mp (run?_single hv)
      cases hv
      rcases ha with ha | ha | ha | ha | ⟨p, ha⟩
      · exact .inl ha
      · exact .inr (.inl ha)
      · exact absurd haway ha.1
      · rw [hs] at ha
        cases ha
      · rw [hs] at ha
        cases ha
  | take =>
      obtain ⟨-, hm⟩ := Option.ite_none_right_eq_some.mp hm
      obtain ⟨v, hv, rfl⟩ := Option.map_eq_some_iff.mp hm
      obtain ⟨-, hv⟩ := Option.ite_none_right_eq_some.mp (run?_single hv)
      cases hv
      exact .inr (.inr (.inl (by simp)))
  | wake =>
      obtain ⟨-, hm⟩ := Option.ite_none_right_eq_some.mp hm
      obtain ⟨v, hv, rfl⟩ := Option.map_eq_some_iff.mp hm
      have hv := run?_single hv
      simp only [Vigil.step?] at hv
      split at hv
      · obtain ⟨-, hv⟩ := Option.ite_none_right_eq_some.mp hv
        cases hv
        exact .inr (.inr (.inl (by simp)))
      · cases hv
  | clear =>
      obtain ⟨-, hm⟩ := Option.ite_none_right_eq_some.mp hm
      obtain ⟨v, hv, rfl⟩ := Option.map_eq_some_iff.mp hm
      obtain ⟨⟨hs, -⟩, hv⟩ := Option.ite_none_right_eq_some.mp (run?_single hv)
      have hs : t.vigil.stage = .clearing := hs
      cases hv
      exact .inr (.inr (.inl (by simp [hs])))

/-- Whether every change since a reading has left an alarm, if the watcher can have seen it. -/
def Alert (t : Task) (r : Reading) : Prop :=
  ∀ l ∈ r.written, l ∉ r.unwatched → t.watcher.Covers l → t.Alarmed

theorem Alert.write (ha : Alert t r) (tree : FileTree) (l : Location) :
    Alert (t.hear (FileOperation.writeReports tree l)) (r.write l) := by
  intro l' hl' hu hc
  rcases List.mem_cons.mp hl' with rfl | hl'
  · exact alarmed_write (t := t) hc tree
  · exact (ha l' hl' hu hc).hear _

theorem Alert.of_alarmed (ha : t.Alarmed) (r : Reading) : Alert t r := fun _ _ _ _ => ha

theorem Alert.mono (ha : Alert t r) (hw : t'.watcher = t.watcher)
    (himp : t.Alarmed → t'.Alarmed) : Alert t' r :=
  fun l hl hu hc => himp (ha l hl hu (hw ▸ hc))

theorem alert_watch (t : Task) (r : Reading) : Alert t r.watch :=
  fun _ hl hu => absurd hl hu

theorem alert_new (t : Task) (p : FilePath) : Alert t ⟨p, [], []⟩ := nofun

/-! ## What is served -/

/-- Whether a balancer has the droplets that its inventory holds, if nothing has been written there
since the reading. -/
structure Current (tree : FileTree) (f : Fleet) (settings : Settings) (b : Balancer) (r : Reading) :
    Prop where
  context : b.inventory.context = ⟨settings.backend, true⟩
  members : ∀ h ∈ b.inventory.members, h < f.descriptions.length
  content : ∀ l text ds, tree.find r.path = .ok (.file l text) → l ∉ r.written →
    Inventory.Lists text ds → b.inventory.descriptions f = ds.map .ofDroplet

theorem Current.write (hc : Current tree f settings b r) (l : Location) (text : String) :
    Current (tree.setText l text) f settings b (r.write l) where
  context := hc.context
  members := hc.members
  content := by
    intro l' old ds hfind hout hlists
    obtain ⟨hne, hout⟩ := not_or.mp (fun h => hout (List.mem_cons.mpr h))
    exact hc.content l' old ds (FileTree.find_of_setText hne hfind) hout hlists

theorem Current.grows (hc : Current tree f settings b r) (hg : f.Grows f') :
    Current tree f' settings b r where
  context := hc.context
  members := fun h hh => Nat.lt_of_lt_of_le (hc.members h hh) hg.length_le
  content := by
    rw [Inventory.descriptions_grows hc.members hg]
    exact hc.content

theorem Current.watch (hc : Current tree f settings b r) : Current tree f settings b r.watch :=
  ⟨hc.context, hc.members, hc.content⟩

theorem load_of_build {now : Nat} {result : Except ReloadError Balancer}
    (hb : settings.buildBalancer tree f now true = (f', result)) :
    ∃ loaded, Inventory.load tree settings.inventoryFile ⟨settings.backend, true⟩ f now =
        (f', loaded) ∧ (loaded.toOption = result.toOption.map (·.inventory)) := by
  unfold Settings.buildBalancer at hb
  split at hb
  · rename_i hl
    cases hb
    exact ⟨_, hl, rfl⟩
  · rename_i hl
    cases hb
    exact ⟨_, hl, rfl⟩

theorem grows_build {now : Nat} {result : Except ReloadError Balancer}
    (hb : settings.buildBalancer tree f now true = (f', result)) : f.Grows f' := by
  obtain ⟨loaded, hl, -⟩ := load_of_build hb
  have hgrows : f.Grows
      (Inventory.load tree settings.inventoryFile ⟨settings.backend, true⟩ f now).1 :=
    Inventory.load_grows.1
  rwa [hl] at hgrows

/-- A balancer that has just been built. -/
theorem current_build {now : Nat} (hb : settings.buildBalancer tree f now true = (f', .ok b)) :
    Current tree f' settings b ⟨settings.inventoryFile, [], []⟩ := by
  obtain ⟨loaded, hl, hresult⟩ := load_of_build hb
  cases loaded with
  | error e => cases hresult
  | ok inv =>
      have hinv : inv = b.inventory := Option.some.inj hresult
      subst hinv
      obtain ⟨text', ds', hread, hlists, hdescriptions⟩ := Inventory.lists_of_load hl
      have hsound : ∀ inv, (Inventory.load tree settings.inventoryFile ⟨settings.backend, true⟩ f
          now).2 = .ok inv → inv.Sound _ := Inventory.load_grows.2
      rw [hl] at hsound
      refine ⟨(Settings.buildBalancer_ok hb).2, (hsound _ rfl).members,
        fun l text ds hfind _ hds => ?_⟩
      obtain ⟨l', hfind'⟩ := FileTree.read_eq_ok.mp hread
      rw [hfind] at hfind'
      cases hfind'
      rw [hdescriptions, hlists.unique hds]

/-- What cannot be built holds no droplets that could be served. -/
theorem Current.unbuilt {now : Nat} {e : ReloadError} (hc : Current tree f settings b r)
    (hb : settings.buildBalancer tree f now true = (f', .error e)) :
    Current tree f' settings b ⟨settings.inventoryFile, [], []⟩ := by
  have hgrown := hc.grows (grows_build hb)
  refine ⟨hgrown.context, hgrown.members, fun l text ds hfind _ hds => ?_⟩
  obtain ⟨loaded, hl, hresult⟩ := load_of_build hb
  obtain ⟨f'', inv, hok⟩ := Inventory.load_of_lists (FileTree.read_eq_ok.mpr ⟨l, hfind⟩) hds
    ⟨settings.backend, true⟩ f now
  rw [hl] at hok
  cases hok
  cases hresult

/-! ## The invariant -/

namespace Job

/-- What a reload has built for which settings, and how it was read. -/
def built? (current : Settings) : Job → Option (Settings × Balancer × Reading)
  | swapping next b r => some (next, b, r)
  | serving b r => some (current, b, r)
  | _ => none

/-- Whether a reload is about to put another reading in place. -/
def rereads : Job → Bool
  | loading | serving _ _ => true
  | _ => false

def target : Job → ReloadTarget
  | loading | serving _ _ => .inventory
  | announcing target _ => target
  | _ => .settings

end Job

/-- What is served and what has been built were current when they were read, and every change since
then that could be seen has left an alarm. -/
structure Sound (s : Session) : Prop where
  served : ∃ b, s.server.proxy.balancer? = some b ∧
    Current s.tree s.server.fleet s.server.proxy.settings b s.reading
  alert : (∀ j, s.job = some j → j.rereads = false) → Alert s.inventoryTask s.reading
  built : ∀ j settings b r, s.job = some j →
    j.built? s.server.proxy.settings = some (settings, b, r) →
      Current s.tree s.server.fleet settings b r ∧ Alert s.inventoryTask r
  reloading : ∀ j, s.job = some j → j.target = .inventory → s.inventoryTask.stage = .reloading

variable {s s' : Session} {j j' : Job} {g : Reading → Reading}

theorem rereads_updateReading (g : Reading → Reading) (j : Job) :
    (j.updateReading g).rereads = j.rereads := by
  cases j <;> rfl

theorem target_updateReading (g : Reading → Reading) (j : Job) :
    (j.updateReading g).target = j.target := by
  cases j <;> rfl

theorem built?_updateReading (g : Reading → Reading) (j : Job) (current : Settings) :
    (j.updateReading g).built? current =
      (j.built? current).map fun (settings, b, r) => (settings, b, g r) := by
  cases j <;> rfl

/-! ## Files and tasks -/

/-- What the files and the task for the inventory may become. -/
theorem Sound.update (hs : Sound s) {tree' : FileTree} (settingsTask : Task)
    (hcurrent : ∀ settings b r, Current s.tree s.server.fleet settings b r →
      Current tree' s.server.fleet settings b (g r))
    (halert : ∀ r, Alert s.inventoryTask r → Alert t (g r))
    (hstage : s.inventoryTask.stage = .reloading → t.stage = .reloading) :
    Sound { s.updateReadings g with tree := tree', settingsTask, inventoryTask := t } where
  served := by
    obtain ⟨b, hb, hc⟩ := hs.served
    exact ⟨b, hb, hcurrent _ _ _ hc⟩
  alert := by
    intro hj
    refine halert _ (hs.alert fun j hj' => ?_)
    rw [← rereads_updateReading g]
    exact hj _ (congrArg (Option.map (Job.updateReading g)) hj')
  built := by
    intro j settings b r hj hb
    obtain ⟨j₀, hj₀, rfl⟩ := Option.map_eq_some_iff.mp hj
    rw [built?_updateReading] at hb
    obtain ⟨⟨settings₀, b₀, r₀⟩, hb₀, heq⟩ := Option.map_eq_some_iff.mp hb
    cases heq
    obtain ⟨hc, ha⟩ := hs.built j₀ settings b r₀ hj₀ hb₀
    exact ⟨hcurrent _ _ _ hc, halert _ ha⟩
  reloading := by
    intro j hj htarget
    obtain ⟨j₀, hj₀, rfl⟩ := Option.map_eq_some_iff.mp hj
    rw [target_updateReading] at htarget
    exact hstage (hs.reloading j₀ hj₀ htarget)

theorem updateReadings_id (s : Session) : s.updateReadings id = s := by
  obtain ⟨server, tree, settingsTask, inventoryTask, job, renamed, reading⟩ := s
  cases job with
  | none => rfl
  | some j => cases j <;> rfl

/-- What the task for the inventory may become by itself. -/
theorem Sound.withTask (hs : Sound s) (halert : ∀ r, Alert s.inventoryTask r → Alert t r)
    (hstage : s.inventoryTask.stage = .reloading → t.stage = .reloading) :
    Sound { s with inventoryTask := t } := by
  have h := hs.update (g := id) s.settingsTask (fun _ _ _ hc => hc) halert hstage
  rwa [updateReadings_id] at h

theorem Sound.write (hs : Sound s) (l : Location) (text : String) : Sound (s.write l text) :=
  hs.update _ (fun _ _ _ hc => hc.write l text) (fun _ ha => ha.write s.tree l) id

theorem Sound.inventoryMove {time : Nat} {e : Vigil.Event} (hs : Sound s)
    (hm : s.inventoryTask.move? time e = some t) : Sound { s with inventoryTask := t } := by
  obtain ⟨hwatcher, hstage⟩ := keeps_of_move? hm
  exact hs.withTask (fun r ha => ha.mono hwatcher (·.move hm)) hstage

theorem Sound.turn (hs : Sound s) (hstage : s.inventoryTask.stage = .watching) :
    Sound { s with inventoryTask := s.inventoryTask.turn s.server.inventoryPath } := by
  refine hs.withTask (fun r _ => .of_alarmed (.inr (.inr (.inr (.inr ⟨_, rfl⟩)))) r) fun h => ?_
  rw [hstage] at h
  cases h

theorem Sound.rewatch {p : FilePath} (hs : Sound s)
    (hstage : s.inventoryTask.stage = .rewatching p) :
    Sound { s.updateReadings (·.watch) with
      inventoryTask := s.inventoryTask.rewatch s.tree p } := by
  refine hs.update _ (fun _ _ _ hc => hc.watch) (fun r _ => alert_watch _ r) fun h => ?_
  rw [hstage] at h
  cases h

/-! ## Stages of a reload -/

theorem Sound.of_job (hj : s.job = some j)
    (hserved : ∃ b, s.server.proxy.balancer? = some b ∧
      Current s.tree s.server.fleet s.server.proxy.settings b s.reading)
    (halert : j.rereads = false → Alert s.inventoryTask s.reading)
    (hbuilt : ∀ settings b r, j.built? s.server.proxy.settings = some (settings, b, r) →
      Current s.tree s.server.fleet settings b r ∧ Alert s.inventoryTask r)
    (hstage : j.target = .inventory → s.inventoryTask.stage = .reloading) : Sound s where
  served := hserved
  alert := fun h => halert (h j hj)
  built := by
    intro j' settings b r hj' hb
    cases hj.symm.trans hj'
    exact hbuilt settings b r hb
  reloading := by
    intro j' hj' ht
    cases hj.symm.trans hj'
    exact hstage ht

theorem Sound.without_job (hj : s.job = none)
    (hserved : ∃ b, s.server.proxy.balancer? = some b ∧
      Current s.tree s.server.fleet s.server.proxy.settings b s.reading)
    (halert : Alert s.inventoryTask s.reading) : Sound s where
  served := hserved
  alert := fun _ => halert
  built := fun _ _ _ _ h => by simp [hj] at h
  reloading := fun _ h => by simp [hj] at h

theorem Sound.withJob (hs : Sound s) (hj : s.job = some j) (htarget : j'.target = j.target)
    (halert : j'.rereads = false → Alert s.inventoryTask s.reading)
    (hbuilt : ∀ settings b r, j'.built? s.server.proxy.settings = some (settings, b, r) →
      Current s.tree s.server.fleet settings b r ∧ Alert s.inventoryTask r) :
    Sound (s.withJob j') :=
  .of_job rfl hs.served halert hbuilt fun ht => hs.reloading j hj (htarget ▸ ht)

theorem Sound.alert_of_job (hs : Sound s) (hj : s.job = some j) (hr : j.rereads = false) :
    Alert s.inventoryTask s.reading := by
  refine hs.alert fun j' hj' => ?_
  rw [hj] at hj'
  cases hj'
  exact hr

theorem Sound.announce (hs : Sound s) (hj : s.job = some j) (hr : j.rereads = false)
    (outcome : ReloadOutcome) : Sound (s.announce j.target outcome) :=
  hs.withJob hj rfl (fun _ => hs.alert_of_job hj hr) fun _ _ _ hb => by cases hb

theorem Sound.withFleet (hs : Sound s) (hg : s.server.fleet.Grows f) :
    Sound (s.withServer { s.server with fleet := f }) where
  served := by
    obtain ⟨b, hb, hc⟩ := hs.served
    exact ⟨b, hb, hc.grows hg⟩
  alert := hs.alert
  built := by
    intro j settings b r hj hb
    obtain ⟨hc, ha⟩ := hs.built j settings b r hj hb
    exact ⟨hc.grows hg, ha⟩
  reloading := hs.reloading

theorem Sound.readSettings (hs : Sound s) (hj : s.job = some .reading)
    (names recheck : Net.Names) : Sound (s.readSettings names recheck) := by
  rw [Session.readSettings]
  split
  · exact hs.announce hj rfl _
  · rename_i next _
    split
    · exact hs.announce hj rfl _
    · split
      · exact hs.withJob hj rfl (fun _ => hs.alert_of_job hj rfl) fun _ _ _ hb => by cases hb
      · rename_i hn
        -- The settings for backends are the same, or the balancer could not stay.
        have hsame := Settings.needsNewBackends_eq_false_iff.mp (Bool.eq_false_iff.mpr hn)
        have hset : Sound (s.withServer
            { s.server with proxy := s.server.proxy.setSettings next }) := by
          refine ⟨?_, hs.alert, fun j settings b r hj' hb => ?_, hs.reloading⟩
          · obtain ⟨b, hb, hc⟩ := hs.served
            refine ⟨b, hb, ⟨?_, hc.members, hc.content⟩⟩
            rw [hc.context, hsame.2.2]
            rfl
          · rw [show s.job = some j from hj'] at hj
            cases hj
            cases hb
        exact hset.announce hj rfl _

theorem Sound.build {next : Settings} (hs : Sound s) (hj : s.job = some (.building next))
    (now : Nat) : Sound (s.build next now) := by
  rw [Session.build]
  split
  · rename_i hb
    exact (hs.withFleet (grows_build hb)).announce hj rfl _
  · rename_i hb
    refine (hs.withFleet (grows_build hb)).withJob hj rfl (fun _ => hs.alert_of_job hj rfl) ?_
    intro settings b r heq
    cases heq
    exact ⟨current_build hb, alert_new _ _⟩

theorem grows_retire (p : Proxy) (f : Fleet) (next : Nat) : f.Grows (p.retire f next) := by
  rw [Proxy.retire]
  split
  · exact .refl f
  · cases p.balancer? with
    | none => exact .refl f
    | some b => exact f.grows_closeAll b.inventory.members

theorem Sound.swap {next : Settings} (hs : Sound s) (hj : s.job = some (.swapping next b r)) :
    Sound (s.swap next b r) := by
  obtain ⟨hc, ha⟩ := hs.built _ _ _ _ hj rfl
  refine .of_job (j := .naming next) rfl ⟨b, ?_, ?_⟩ (fun _ => ha) (fun _ _ _ hb => by cases hb)
    fun ht => by cases ht
  · exact Proxy.balancer?_addBalancer_serve (s.server.proxy.setSettings next) b s.server.fleet
  · exact hc.grows (grows_retire ((s.server.proxy.addBalancer b).2.setSettings next) _ _)

theorem Sound.name {next : Settings} (hs : Sound s) (hj : s.job = some (.naming next)) :
    Sound (s.name next) := by
  have h : Sound (s.announce .settings none) := hs.announce hj rfl _
  exact ⟨h.served, h.alert, h.built, h.reloading⟩

theorem Sound.load (hs : Sound s) (hj : s.job = some .loading) (now : Nat) :
    Sound (s.load now) := by
  have hstage := hs.reloading _ hj rfl
  rw [Session.load]
  dsimp only
  split
  · rename_i hb
    obtain ⟨b, hserved, hc⟩ := hs.served
    exact .of_job rfl ⟨b, hserved, hc.unbuilt hb⟩ (fun _ => alert_new _ _)
      (fun _ _ _ hb => by cases hb) fun _ => hstage
  · rename_i hb
    refine (hs.withFleet (grows_build hb)).withJob hj rfl (fun h => by cases h) ?_
    intro settings b r heq
    cases heq
    exact ⟨current_build hb, alert_new _ _⟩

theorem Sound.serve (hs : Sound s) (hj : s.job = some (.serving b r)) : Sound (s.serve b r) := by
  obtain ⟨hc, ha⟩ := hs.built _ _ _ _ hj rfl
  refine .of_job rfl ⟨b, ?_, ?_⟩ (fun _ => ha) (fun _ _ _ hb => by cases hb)
    fun _ => hs.reloading _ hj rfl
  · exact Proxy.balancer?_addBalancer_serve s.server.proxy b s.server.fleet
  · exact hc.grows (grows_retire (s.server.proxy.addBalancer b).2 _ _)

/-- A task that watches again is as alarmed as it was when it reloaded. -/
theorem Task.Alarmed.leave (ha : t.Alarmed) (hstage : t.stage = .reloading) : t.leave.Alarmed := by
  rcases ha with ha | ha | ha | ha | ⟨p, ha⟩
  · exact .inl ha
  · exact .inr (.inl ha)
  · exact .inr (.inr (.inl ha))
  · rw [hstage] at ha
    cases ha
  · rw [hstage] at ha
    cases ha

theorem Sound.finish {target : ReloadTarget} {outcome : ReloadOutcome} (hs : Sound s)
    (hj : s.job = some (.announcing target outcome)) : Sound (s.finish target outcome) := by
  have ha := hs.alert_of_job hj rfl
  cases target with
  | settings => exact .without_job rfl hs.served ha
  | inventory =>
      have hstage := hs.reloading _ hj rfl
      exact .without_job rfl hs.served (ha.mono rfl (·.leave hstage))

theorem Sound.work (hs : Sound s) (hj : s.job = some j) (now : Nat)
    (names recheck : Net.Names) : Sound (s.work now names recheck j) := by
  cases j with
  | reading => exact hs.readSettings hj names recheck
  | building next => exact hs.build hj now
  | swapping next b r => exact hs.swap hj
  | naming next => exact hs.name hj
  | loading => exact hs.load hj now
  | serving b r => exact hs.serve hj
  | announcing target outcome => exact hs.finish hj

theorem Sound.enter {target : ReloadTarget} (hs : Sound s) (he : s.enter? target = some s') :
    Sound s' := by
  obtain ⟨hnone, he⟩ := Option.ite_none_left_eq_some.mp he
  have ha : Alert s.inventoryTask s.reading := hs.alert fun j hj => by simp [hj] at hnone
  cases target with
  | settings =>
      obtain ⟨t, -, rfl⟩ := Option.map_eq_some_iff.mp he
      exact .of_job rfl hs.served (fun _ => ha) (fun _ _ _ hb => by cases hb) fun ht => by cases ht
  | inventory =>
      obtain ⟨t, ht, rfl⟩ := Option.map_eq_some_iff.mp he
      obtain ⟨-, ht⟩ := Option.ite_none_right_eq_some.mp ht
      cases ht
      exact .of_job rfl hs.served (fun h => by cases h) (fun _ _ _ hb => by cases hb) fun _ => rfl

theorem Sound.step {e : Event} (hs : Sound s) (hstep : s.step? e = some s') : Sound s' := by
  cases e with
  | write p text =>
      obtain ⟨l, -, rfl⟩ := Option.map_eq_some_iff.mp hstep
      exact hs.write l text
  | settingsMove time e =>
      obtain ⟨t, -, rfl⟩ := Option.map_eq_some_iff.mp hstep
      exact ⟨hs.served, hs.alert, hs.built, hs.reloading⟩
  | inventoryMove time e =>
      obtain ⟨t, hm, rfl⟩ := Option.map_eq_some_iff.mp hstep
      exact hs.inventoryMove hm
  | enter target => exact hs.enter hstep
  | work now names recheck =>
      obtain ⟨j, hj, rfl⟩ := Option.map_eq_some_iff.mp hstep
      exact hs.work hj now names recheck
  | turn =>
      obtain ⟨⟨-, hstage⟩, hstep⟩ := Option.ite_none_right_eq_some.mp hstep
      cases hstep
      have h := hs.turn hstage
      exact ⟨h.served, h.alert, h.built, h.reloading⟩
  | rewatch =>
      simp only [Session.step?] at hstep
      split at hstep
      · rename_i hstage
        cases hstep
        exact hs.rewatch hstage
      · cases hstep

theorem Sound.run? {es : List Event} (hs : Sound s) (hrun : s.run? es = some s') : Sound s' := by
  induction es generalizing s with
  | nil =>
      cases hrun
      exact hs
  | cons e es ih =>
      obtain ⟨s₁, hstep, hrest⟩ := Option.bind_eq_some_iff.mp hrun
      exact ih (hs.step hstep) hrest

/-! ## Quiet -/

/-- Whether a task just waits for changes, and has heard of none. -/
def Task.Quiet (t : Task) : Prop :=
  t.mail = 0 ∧ t.vigil.notice = false ∧ (t.vigil.stage = .away ∨ t.vigil.stage = .waiting) ∧
    t.stage = .watching

instance (t : Task) : Decidable t.Quiet := inferInstanceAs (Decidable (_ ∧ _))

theorem Task.Quiet.not_alarmed (hq : t.Quiet) : ¬ t.Alarmed := by
  obtain ⟨hmail, hnotice, hvigil, hstage⟩ := hq
  rintro (ha | ha | ⟨haway, hwaiting⟩ | ha | ⟨p, ha⟩)
  · exact ha hmail
  · simp [hnotice] at ha
  · exact hvigil.elim haway hwaiting
  · simp [hstage] at ha
  · simp [hstage] at ha

namespace Session

theorem sound_start {path : FilePath} {now : Nat} (hstart : start? path settings tree now = some s) :
    Sound s := by
  unfold start? at hstart
  split at hstart
  · rename_i hb _ _
    cases hstart
    exact .without_job rfl ⟨_, rfl, current_build hb⟩ (alert_new _ _)
  · cases hstart

/-- A reload of the inventory keeps its task from being quiet. -/
theorem alert_of_quiet (hs : Sound s) (hq : s.inventoryTask.Quiet) :
    Alert s.inventoryTask s.reading := by
  refine hs.alert fun j hj => ?_
  have hstage := hq.2.2.2
  cases j with
  | loading | serving =>
      rw [hs.reloading _ hj rfl] at hstage
      cases hstage
  | reading | building | swapping | naming | announcing => rfl

/-- Files are written and reloads go on in any order. When the task that watches the inventory is
quiet, and looks at the inventory that the settings name, and the inventory could be loaded, then it
is what is served: unless the path that was read last leads elsewhere, or the inventory was written
after it was read and before the task tried to watch another file. -/
theorem run?_converged {path : FilePath} {now now' : Nat} {s₀ : Session} {es : List Event}
    {inv : Inventory} (hstart : start? path settings tree now = some s₀)
    (hrun : s₀.run? es = some s) (hquiet : s.inventoryTask.Quiet)
    (hcovers : s.inventoryTask.watcher.Covers l)
    (hfind : s.tree.find s.server.proxy.settings.inventoryFile = .ok (.file l text))
    (hread : s.tree.find s.reading.path = .ok (.file l text)) (hseen : l ∉ s.reading.unwatched)
    (hload : Inventory.load s.tree s.server.proxy.settings.inventoryFile
      ⟨s.server.proxy.settings.backend, true⟩ s.server.fleet now' = (f, .ok inv)) :
    ∃ b, s.server.proxy.balancer? = some b ∧ b.inventory.context = inv.context ∧
      (b.inventory.backends s.server.fleet).map (·.description) =
        (inv.backends f).map (·.description) := by
  have hs := (sound_start hstart).run? hrun
  obtain ⟨b, hb, hc⟩ := hs.served
  have hunwritten : l ∉ s.reading.written := fun hl =>
    hquiet.not_alarmed (alert_of_quiet hs hquiet l hl hseen hcovers)
  obtain ⟨text', ds, hread', hlists, hdescriptions⟩ := Inventory.lists_of_load hload
  rw [FileTree.read_eq_ok.mpr ⟨l, hfind⟩] at hread'
  cases hread'
  refine ⟨b, hb, hc.context.trans (Inventory.load_context hload).symm, ?_⟩
  rw [Inventory.map_description_backends, Inventory.map_description_backends, hdescriptions]
  exact hc.content l text ds hread hunwritten hlists

def servedIds (s : Session) : Option (List String) :=
  s.server.proxy.balancer?.map (·.inventory.ids s.server.fleet)

/-- The ids that the inventory would be loaded with that the settings name. -/
def loadedIds (s : Session) (now : Nat) : Option (List String) :=
  match Inventory.load s.tree s.server.proxy.settings.inventoryFile
    ⟨s.server.proxy.settings.backend, true⟩ s.server.fleet now with
  | (f, .ok inv) => some (inv.ids f)
  | (_, .error _) => none

def settingsText (inventory : String) : String :=
  "bind = \"127.0.0.1:0\"\ninventory-file = \"" ++ inventory ++
    "\"\n[loadbalancing]\ntype = \"roundrobin\"\n"

def inventoryText (ids : List String) : String :=
  String.join (ids.map fun id =>
    "[[droplet]]\nid = " ++ id ++ "\nserver-host = \"10.0.0.1:80\"\n")

/-- A task waits for a change, of which an event is on its way, and is told of it. -/
def hearing (move : Nat → Vigil.Event → Event) (time : Nat) : List Event :=
  [move time .wait, move time .change, move time .take, move (time + Watch.quietPeriod) .wake,
    move (time + Watch.quietPeriod) .report]

/-- The inventory is written again after it has been loaded, and before it is served. -/
theorem run?_converged_rewritten :
    let settings : Settings := { bind := "127.0.0.1:0" }
    let tree := FileTree.ofFiles
      [("config.toml", settingsText "inventory.toml"), ("inventory.toml", inventoryText ["1"])]
    let es : List Event :=
      [.write ⟨"inventory.toml"⟩ (inventoryText ["1", "2"])] ++ hearing .inventoryMove 0 ++
        [.enter .inventory, .work 1, .write ⟨"inventory.toml"⟩ (inventoryText ["3"]), .work 1,
          .work 1] ++
        hearing .inventoryMove 1000000 ++ [.enter .inventory, .work 2, .work 2, .work 2]
    ∃ s₀ s, start? ⟨"config.toml"⟩ settings tree 0 = some s₀ ∧ s₀.run? es = some s ∧
      s.inventoryTask.Quiet ∧ s.servedIds = some ["3"] := by
  intro settings tree es
  let l : Location := ["inventory.toml"]
  let place : Except FileError Place := .ok (.file l (inventoryText ["3"]))
  have hview : ((start? ⟨"config.toml"⟩ settings tree 0).any fun s₀ => (s₀.run? es).any fun s =>
      s.inventoryTask.Quiet ∧ s.inventoryTask.watcher.Covers l ∧
        s.tree.find s.server.proxy.settings.inventoryFile = place ∧
        s.tree.find s.reading.path = place ∧ s.reading.unwatched = [] ∧
        s.loadedIds 0 = some ["3"]) = true := by decide +kernel
  obtain ⟨s₀, hstart, hview⟩ := (Option.any_eq_true _ _).mp hview
  obtain ⟨s, hrun, hview⟩ := (Option.any_eq_true _ _).mp hview
  obtain ⟨hquiet, hcovers, hfind, hread, hseen, hids⟩ := of_decide_eq_true hview
  refine ⟨s₀, s, hstart, hrun, hquiet, ?_⟩
  unfold loadedIds at hids
  split at hids
  · rename_i f inv hload
    obtain ⟨b, hb, -, hsame⟩ := run?_converged hstart hrun hquiet hcovers hfind hread
      (by simp [hseen]) hload
    rw [Inventory.map_description_backends, Inventory.map_description_backends] at hsame
    rw [servedIds, hb, Option.map_some, Inventory.ids_eq, hsame, ← Inventory.ids_eq]
    exact hids
  · cases hids

/-- Whether nothing goes on, the inventory that the settings name is watched, and it would be loaded
with other ids than are served. -/
def Stale (s : Session) (l : Location) (served loaded : List String) : Prop :=
  s.settingsTask.Quiet ∧ s.inventoryTask.Quiet ∧ s.job.isNone = true ∧
    s.tree.fileAt? s.server.proxy.settings.inventoryFile = some l ∧
    s.inventoryTask.watcher.Covers l ∧
    s.servedIds = some served ∧ s.loadedIds 0 = some loaded ∧ served ≠ loaded

instance (s : Session) (l : Location) (served loaded : List String) :
    Decidable (s.Stale l served loaded) :=
  inferInstanceAs (Decidable (_ ∧ _))

/-- A path with a slash behind it counts as the same, but no file can be read from it. The inventory
is written meanwhile, and is not read when the settings name it as before. -/
theorem run?_respelled :
    let settings : Settings := { bind := "127.0.0.1:0" }
    let tree := FileTree.ofFiles
      [("config.toml", settingsText "inventory.toml"), ("inventory.toml", inventoryText ["1"])]
    let es : List Event :=
      [.write ⟨"config.toml"⟩ (settingsText "inventory.toml/")] ++ hearing .settingsMove 0 ++
        [.enter .settings, .work 1, .work 1,
          .write ⟨"inventory.toml"⟩ (inventoryText ["1", "2"])] ++
        hearing .inventoryMove 0 ++
        [.enter .inventory, .work 2, .work 2,
          .write ⟨"config.toml"⟩ (settingsText "inventory.toml")] ++
        hearing .settingsMove 1000000 ++ [.enter .settings, .work 3, .work 3]
    ∃ s, (start? ⟨"config.toml"⟩ settings tree 0).bind (·.run? es) = some s ∧
      s.Stale ["inventory.toml"] ["1"] ["1", "2"] := by
  intro settings tree es
  have hstale : ((start? ⟨"config.toml"⟩ settings tree 0).bind (·.run? es)).any (fun s =>
      s.Stale ["inventory.toml"] ["1"] ["1", "2"]) = true := by decide +kernel
  obtain ⟨s, hs, hstale⟩ := (Option.any_eq_true _ _).mp hstale
  exact ⟨s, hs, of_decide_eq_true hstale⟩

/-- Another inventory is loaded, and written before it is watched. -/
theorem run?_unwatched :
    let settings : Settings := { bind := "127.0.0.1:0" }
    let tree := FileTree.ofFiles
      [("config.toml", settingsText "inventory.toml"), ("inventory.toml", inventoryText ["1"]),
        ("more.toml", inventoryText ["2"])]
    let es : List Event :=
      [.write ⟨"config.toml"⟩ (settingsText "more.toml")] ++ hearing .settingsMove 0 ++
        [.enter .settings, .work 1, .work 1, .write ⟨"more.toml"⟩ (inventoryText ["3"]), .work 1,
          .work 1, .work 1, .turn, .rewatch]
    ∃ s, (start? ⟨"config.toml"⟩ settings tree 0).bind (·.run? es) = some s ∧
      s.Stale ["more.toml"] ["2"] ["3"] := by
  intro settings tree es
  have hstale : ((start? ⟨"config.toml"⟩ settings tree 0).bind (·.run? es)).any (fun s =>
      s.Stale ["more.toml"] ["2"] ["3"]) = true := by decide +kernel
  obtain ⟨s, hs, hstale⟩ := (Option.any_eq_true _ _).mp hstale
  exact ⟨s, hs, of_decide_eq_true hstale⟩

end Session

end Reload

end ReverseProxy
