import ReverseProxy.Proofs.Files.Tree
import ReverseProxy.Proofs.Reload.Steps
import ReverseProxy.Proofs.Watch.Reports
import ReverseProxy.Watch.Watcher

/-!
# Reloads stage by stage

One task waits for changes of the settings, another for changes of the inventory, and each reloads
what has changed. A reload reads a file, builds a balancer, swaps it in and publishes its outcome;
under a lock, so that there is one reload at a time, but files are written at any moment. When new
settings name another inventory, the task that watches the inventory watches that one from then on.
`reloaded_settings` and `reloaded_inventory` say that the stages in a row are the reloads of a server.
-/

namespace ReverseProxy

/-- Where a text goes that is written to a path, if it can be written. -/
def FileTree.target? (t : FileTree) (p : FilePath) : Option Location :=
  match t.find p with
  | .ok (.file l _) => some l
  | .ok (.vacant l) => if p.endsInSlash then none else some l
  | _ => none

theorem FileTree.write_target {t : FileTree} {p : FilePath} {l : Location}
    (h : t.target? p = some l) (text : String) : t.write p text = .ok (t.setText l text) := by
  refine write_of_leadsTo ?_ text
  unfold target? at h
  split at h
  · rename_i old hfind
    cases h
    exact .inl ⟨old, hfind⟩
  · rename_i hfind
    split at h
    · cases h
    · rename_i hslash
      cases h
      exact .inr ⟨by simpa using hslash, hfind⟩
  · cases h

namespace Reload

open Watch (Watcher Vigil)

/-! ## Tasks -/

/-- What a task that watches a file is about. -/
inductive Stage
  | watching
  /-- It has heard of a change and waits for its turn to reload. -/
  | queued
  | reloading
  /-- It is about to watch another file. -/
  | rewatching (p : FilePath)
deriving DecidableEq

/-- A watcher, the number of events that have not reached it yet, and who waits for changes. -/
structure Task where
  watcher : Watcher
  mail : Nat := 0
  vigil : Vigil := {}
  stage : Stage := .watching

namespace Task

def hear (t : Task) (rs : List DirectoryReport) : Task :=
  { t with mail := t.mail + (rs.filter t.watcher.cares).length }

/-- What follows for those who wait for changes. A report ends the wait. -/
def move? (t : Task) (time : Nat) (e : Vigil.Event) : Option Task :=
  match e with
  | .change =>
    if t.mail = 0 then none
    else (t.vigil.run? [(time, e)]).map fun v => { t with mail := t.mail - 1, vigil := v }
  | .report =>
    if t.stage = .watching then
      (t.vigil.run? [(time, e)]).map fun v => { t with vigil := v, stage := .queued }
    else none
  | _ =>
    if t.stage = .watching then (t.vigil.run? [(time, e)]).map fun v => { t with vigil := v }
    else none

def enter? (t : Task) : Option Task :=
  if t.stage = .queued then some { t with stage := .reloading } else none

def leave (t : Task) : Task := { t with stage := .watching }

/-- Whoever waits for changes gives up, to watch another file. -/
def turn (t : Task) (p : FilePath) : Task :=
  { t with vigil := { t.vigil with stage := .away }, stage := .rewatching p }

/-- If the other file cannot be watched, the one before still is. -/
def rewatch (t : Task) (tree : FileTree) (p : FilePath) : Task :=
  match Watcher.install tree p with
  | .ok w => { watcher := w }
  | .error _ => t.leave

end Task

/-! ## Reloads -/

/-- An attempt to read an inventory, and what has been written since. -/
structure Reading where
  path : FilePath
  written : List Location := []
  /-- What had been written when the task last tried to watch another file. -/
  unwatched : List Location := []

namespace Reading

def write (r : Reading) (l : Location) : Reading := { r with written := l :: r.written }

def watch (r : Reading) : Reading := { r with unwatched := r.written }

end Reading

/-- How far a reload has come. -/
inductive Job
  | reading
  | building (next : Settings)
  | swapping (next : Settings) (b : Balancer) (r : Reading)
  | naming (next : Settings)
  | loading
  | serving (b : Balancer) (r : Reading)
  | announcing (target : ReloadTarget) (outcome : ReloadOutcome)

def Job.updateReading (g : Reading → Reading) : Job → Job
  | swapping next b r => swapping next b (g r)
  | serving b r => serving b (g r)
  | j => j

inductive Event
  | write (p : FilePath) (text : String)
  | settingsMove (time : Nat) (e : Vigil.Event)
  | inventoryMove (time : Nat) (e : Vigil.Event)
  | enter (target : ReloadTarget)
  /-- The reload in progress goes on; hosts may be looked up, and looked up again. -/
  | work (now : Nat) (names : Net.Names := .none) (recheck : Net.Names := .none)
  | turn
  | rewatch

/-- A server whose files are watched. -/
structure Session where
  server : Server
  tree : FileTree
  settingsTask : Task
  inventoryTask : Task
  job : Option Job := none
  /-- Whether another inventory has been named and not yet taken notice of. -/
  renamed : Bool := false
  /-- How the inventory that is served was read, or was last tried to be read. -/
  reading : Reading

namespace Session

variable {s s' : Session}

/-- The server serves what the inventory held, and both files are watched. -/
def start? (path : FilePath) (settings : Settings) (tree : FileTree) (now : Nat) :
    Option Session :=
  match settings.buildBalancer tree {} now true, Watcher.install tree path,
    Watcher.install tree settings.inventoryFile with
  | (f, .ok b), .ok w, .ok v =>
    some {
      server := .start path settings b f, tree
      settingsTask := { watcher := w }, inventoryTask := { watcher := v }
      reading := ⟨settings.inventoryFile, [], []⟩ }
  | _, _, _ => none

def updateReadings (s : Session) (g : Reading → Reading) : Session :=
  { s with reading := g s.reading, job := s.job.map (·.updateReading g) }

def withJob (s : Session) (j : Job) : Session := { s with job := some j }

def withServer (s : Session) (server : Server) : Session := { s with server }

def announce (s : Session) (target : ReloadTarget) (outcome : ReloadOutcome) : Session :=
  s.withJob (.announcing target outcome)

/-- Reads the settings, and applies them at once if the balancer can stay. -/
def readSettings (s : Session) (names recheck : Net.Names) : Session :=
  match Settings.load s.tree s.server.settingsPath names with
  | .error e => s.announce .settings (some (.unloadable e))
  | .ok next =>
    match s.server.proxy.settings.validateReload next recheck with
    | .error e => s.announce .settings (some (.refused e))
    | .ok () =>
      if s.server.proxy.settings.needsNewBackends next then s.withJob (.building next)
      else
        (s.withServer { s.server with proxy := s.server.proxy.setSettings next }).announce
          .settings none

def build (s : Session) (next : Settings) (now : Nat) : Session :=
  match next.buildBalancer s.tree s.server.fleet now true with
  | (f, .error e) => (s.withServer { s.server with fleet := f }).announce .settings (some e)
  | (f, .ok b) =>
    (s.withServer { s.server with fleet := f }).withJob
      (.swapping next b ⟨next.inventoryFile, [], []⟩)

def swap (s : Session) (next : Settings) (b : Balancer) (r : Reading) : Session :=
  let (i, proxy) := s.server.proxy.addBalancer b
  let (proxy, fleet) := proxy.replace s.server.fleet next i
  { s.withServer { s.server with proxy, fleet } with job := some (.naming next), reading := r }

def name (s : Session) (next : Settings) : Session :=
  let same := s.server.inventoryPath.same next.inventoryFile
  let inventoryPath := if same then s.server.inventoryPath else next.inventoryFile
  { s.withServer { s.server with inventoryPath } with
    renamed := s.renamed || !same }.announce .settings none

/-- Reads the inventory again. -/
def load (s : Session) (now : Nat) : Session :=
  let settings := s.server.proxy.settings
  let r : Reading := ⟨settings.inventoryFile, [], []⟩
  match settings.buildBalancer s.tree s.server.fleet now true with
  | (f, .error e) =>
    { s.withServer { s.server with fleet := f } with reading := r }.announce .inventory (some e)
  | (f, .ok b) => (s.withServer { s.server with fleet := f }).withJob (.serving b r)

def serve (s : Session) (b : Balancer) (r : Reading) : Session :=
  { s.withServer (s.server.applyReplaced b s.server.fleet) with reading := r }.announce
    .inventory none

/-- The outcome is published, and the task watches again. -/
def finish (s : Session) (target : ReloadTarget) (outcome : ReloadOutcome) : Session :=
  let t := { s.withServer (s.server.publish target outcome).2 with job := none }
  match target with
  | .settings => { t with settingsTask := t.settingsTask.leave }
  | .inventory => { t with inventoryTask := t.inventoryTask.leave }

/-- The reload in progress goes on by one stage. -/
def work (s : Session) (now : Nat) (names recheck : Net.Names) : Job → Session
  | .reading => s.readSettings names recheck
  | .building next => s.build next now
  | .swapping next b r => s.swap next b r
  | .naming next => s.name next
  | .loading => s.load now
  | .serving b r => s.serve b r
  | .announcing target outcome => s.finish target outcome

/-- A task that has heard of a change begins to reload, if nobody else reloads. -/
def enter? (s : Session) (target : ReloadTarget) : Option Session :=
  if s.job.isSome then none
  else match target with
    | .settings => s.settingsTask.enter?.map fun t => { s with settingsTask := t, job := some .reading }
    | .inventory =>
      s.inventoryTask.enter?.map fun t => { s with inventoryTask := t, job := some .loading }

def write (s : Session) (l : Location) (text : String) : Session :=
  let reports := FileOperation.writeReports s.tree l
  { s.updateReadings (·.write l) with
    tree := s.tree.setText l text
    settingsTask := s.settingsTask.hear reports
    inventoryTask := s.inventoryTask.hear reports }

/-- What follows; none if it cannot happen. -/
def step? (s : Session) : Event → Option Session
  | .write p text => (s.tree.target? p).map fun l => s.write l text
  | .settingsMove time e =>
    (s.settingsTask.move? time e).map fun t => { s with settingsTask := t }
  | .inventoryMove time e =>
    (s.inventoryTask.move? time e).map fun t => { s with inventoryTask := t }
  | .enter target => s.enter? target
  | .work now names recheck => s.job.map (s.work now names recheck)
  | .turn =>
    if s.renamed ∧ s.inventoryTask.stage = .watching then
      some { s with inventoryTask := s.inventoryTask.turn s.server.inventoryPath, renamed := false }
    else none
  | .rewatch =>
    match s.inventoryTask.stage with
    | .rewatching p =>
      some { s.updateReadings (·.watch) with
        inventoryTask := s.inventoryTask.rewatch s.tree p }
    | _ => none

/-- Lets events happen one after another; none if one of them cannot. -/
def run? (s : Session) : List Event → Option Session
  | [] => some s
  | e :: es => (s.step? e).bind (·.run? es)

/-! ## Reloads that nothing comes between -/

variable {now : Nat} {names recheck : Net.Names} {j : Job}

theorem run?_work (hj : s.job = some j) (es : List Event) :
    s.run? (.work now names recheck :: es) = (s.work now names recheck j).run? es := by
  simp [run?, step?, hj]

/-- What a reload comes to when its stages follow each other. -/
structure Reloaded (s : Session) (now : Nat) (names recheck : Net.Names) (server : Server) :
    Prop where
  run : ∃ es s', (∀ e ∈ es, e = .work now names recheck) ∧ s.run? es = some s' ∧
    s'.server = server ∧ s'.tree = s.tree ∧ s'.job = none

theorem Reloaded.finish {target : ReloadTarget} {outcome : ReloadOutcome}
    (hj : s.job = some (.announcing target outcome)) :
    Reloaded s now names recheck (s.server.publish target outcome).2 := by
  refine ⟨[.work now names recheck], _, by simp, (run?_work hj []).trans rfl, ?_, ?_, ?_⟩
  all_goals cases target <;> rfl

theorem Reloaded.work {server : Server} (hj : s.job = some j)
    (htree : (s.work now names recheck j).tree = s.tree)
    (h : Reloaded (s.work now names recheck j) now names recheck server) :
    Reloaded s now names recheck server := by
  obtain ⟨es, s', hes, hrun, hserver, htree', hjob⟩ := h.run
  refine ⟨.work now names recheck :: es, s', by simpa using hes, (run?_work hj es).trans hrun,
    hserver, ?_, hjob⟩
  rw [htree', htree]

theorem reloaded_settings (hj : s.job = some .reading) (now : Nat) (names recheck : Net.Names) :
    Reloaded s now names recheck (s.server.reloadSettings s.tree now names recheck).2 := by
  have hstep := s.server.applySettings_step s.tree now names recheck
  rw [Server.reloadSettings]
  generalize s.server.applySettings s.tree now names recheck = r at hstep
  obtain ⟨outcome, server⟩ := r
  cases hstep with
  | @unloadable e hl =>
      have hwork : s.work now names recheck .reading = s.announce .settings (some (.unloadable e)) := by
        simp only [work, readSettings, hl]
      refine .work hj (by rw [hwork]; rfl) ?_
      rw [hwork]
      exact .finish rfl
  | @refused next e hl hv =>
      have hwork : s.work now names recheck .reading = s.announce .settings (some (.refused e)) := by
        simp only [work, readSettings, hl, hv]
      refine .work hj (by rw [hwork]; rfl) ?_
      rw [hwork]
      exact .finish rfl
  | @adjusted next hl hv hn =>
      have hwork : s.work now names recheck .reading =
          (s.withServer { s.server with proxy := s.server.proxy.setSettings next }).announce
            .settings none := by
        simp [work, readSettings, hl, hv, hn]
      refine .work hj (by rw [hwork]; rfl) ?_
      rw [hwork]
      exact .finish rfl
  | @unbuildable next f e hl hv hn hb =>
      have hwork : s.work now names recheck .reading = s.withJob (.building next) := by
        simp [work, readSettings, hl, hv, hn]
      have hbuild : (s.withJob (.building next)).build next now =
          (s.withServer { s.server with fleet := f }).announce .settings (some e) := by
        have hb : next.buildBalancer (s.withJob (.building next)).tree
          (s.withJob (.building next)).server.fleet now true = (f, .error e) := hb
        simp only [build, hb]
        rfl
      refine .work hj (by rw [hwork]; rfl) ?_
      rw [hwork]
      refine .work rfl (by rw [work, hbuild]; rfl) ?_
      rw [work, hbuild]
      exact .finish rfl
  | @rebuilt next f b hl hv hn hb =>
      let r : Reading := ⟨next.inventoryFile, [], []⟩
      let s₂ := (s.withServer { s.server with fleet := f }).withJob (.swapping next b r)
      have hwork : s.work now names recheck .reading = s.withJob (.building next) := by
        simp [work, readSettings, hl, hv, hn]
      have hbuild : (s.withJob (.building next)).build next now = s₂ := by
        have hb : next.buildBalancer (s.withJob (.building next)).tree
          (s.withJob (.building next)).server.fleet now true = (f, .ok b) := hb
        simp only [build, hb]
        rfl
      refine .work hj (by rw [hwork]; rfl) ?_
      rw [hwork]
      refine .work rfl (by rw [work, hbuild]; rfl) ?_
      rw [work, hbuild]
      refine .work (j := .swapping next b r) rfl rfl ?_
      refine .work (j := .naming next) rfl rfl ?_
      exact .finish rfl

theorem reloaded_inventory (hj : s.job = some .loading) (now : Nat) (names recheck : Net.Names) :
    Reloaded s now names recheck (s.server.reloadInventory s.tree now).2 := by
  have hstep := s.server.applyInventory_step s.tree now
  rw [Server.reloadInventory]
  generalize s.server.applyInventory s.tree now = r at hstep
  obtain ⟨outcome, server⟩ := r
  cases hstep with
  | @unbuildable f e hb =>
      have hload : s.work now names recheck .loading =
          { s.withServer { s.server with fleet := f } with
            reading := ⟨s.server.proxy.settings.inventoryFile, [], []⟩ }.announce .inventory
              (some e) := by
        simp only [work, load, hb]
      refine .work hj (by rw [hload]; rfl) ?_
      rw [hload]
      exact .finish rfl
  | @replaced f b hb =>
      let r : Reading := ⟨s.server.proxy.settings.inventoryFile, [], []⟩
      have hload : s.work now names recheck .loading =
          (s.withServer { s.server with fleet := f }).withJob (.serving b r) := by
        simp only [work, load, hb, r]
      refine .work hj (by rw [hload]; rfl) ?_
      rw [hload]
      refine .work (j := .serving b r) rfl rfl ?_
      exact .finish rfl

end Session

end Reload

end ReverseProxy
