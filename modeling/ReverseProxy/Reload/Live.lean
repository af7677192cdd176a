import ReverseProxy.Reload
import ReverseProxy.Shutdown.Timeline
import ReverseProxy.Watch.Watcher

/-!
# Reloads of watched files

A live server watches its files while it runs: the inventory always, the settings if they say so.
When a watcher reports a change, the file is read again; when new settings name another inventory,
that one is watched from then on. Times are in microseconds, and operations on the files are at
least one microsecond apart.
-/

namespace ReverseProxy

/-- A server with the files that it watches. -/
structure LiveServer where
  server : Server
  tree : FileTree
  now : Nat := 0
  /-- None unless the settings are watched. -/
  settingsWatcher : Option Watch.Watcher
  inventoryWatcher : Watch.Watcher
  names : Net.Names := .none

namespace LiveServer

open Watch (Watcher)

def listening (w : Watcher) (now : Nat) : Watcher := w.update (·.listen now)

def start (s : Server) (t : FileTree) (names : Net.Names := .none) :
    Except Watch.WatchError LiveServer := do
  let settingsWatcher ←
    if s.proxy.settings.watchConfig then (Watcher.install t s.settingsPath).map some else .ok none
  let inventoryWatcher ← Watcher.install t s.inventoryPath
  return { server := s, tree := t, settingsWatcher := settingsWatcher.map (listening · 0)
           inventoryWatcher := listening inventoryWatcher 0, names }

def watchers (l : LiveServer) : Nat := if l.settingsWatcher.isSome then 2 else 1

/-- An operator does something to the files, if it can be done. -/
def operate (l : LiveServer) (op : FileOperation) : LiveServer :=
  match op.perform? l.tree with
  | none => l
  | some tree =>
    { l with
      tree, now := l.now + 1
      settingsWatcher := l.settingsWatcher.map (·.observe l.tree op l.now)
      inventoryWatcher := l.inventoryWatcher.observe l.tree op l.now }

/-! ## Reloads -/

def monitorTime (l : LiveServer) : Nat := l.now * 1000

/-- Watches the inventory that is served now. If it cannot be watched, the one before still is;
either way a change that had not been reported is forgotten. -/
def rewatch (l : LiveServer) : LiveServer :=
  let next := (Watcher.install l.tree l.server.inventoryPath).toOption.getD
    (l.inventoryWatcher.update (·.abandon))
  { l with inventoryWatcher := listening next l.now }

def settingsChanged (l : LiveServer) : LiveServer :=
  let (_, server) := l.server.reloadSettings l.tree l.monitorTime l.names l.names
  let m := { l with
    server
    settingsWatcher := l.settingsWatcher.map fun w => listening (w.update (·.report)) l.now }
  if server.inventoryPath = l.server.inventoryPath then m else m.rewatch

def inventoryChanged (l : LiveServer) : LiveServer :=
  let (_, server) := l.server.reloadInventory l.tree l.monitorTime
  { l with server, inventoryWatcher := listening (l.inventoryWatcher.update (·.report)) l.now }

/-- The next report of a watcher: its time, and what follows from it. -/
def next? (l : LiveServer) : Option (Nat × (LiveServer → LiveServer)) :=
  let settings := l.settingsWatcher.bind (·.debouncer.dueTime?)
  let inventory := l.inventoryWatcher.debouncer.dueTime?
  match settings, inventory with
  | some s, some i => some (if s ≤ i then (s, settingsChanged) else (i, inventoryChanged))
  | some s, none => some (s, settingsChanged)
  | none, some i => some (i, inventoryChanged)
  | none, none => none

/-- The next report until a time, with what follows from it. -/
def step? (l : LiveServer) (limit : Nat) : Option LiveServer :=
  match l.next? with
  | some (t, follow) =>
    if t ≤ limit then some (follow { l with now := max l.now t }) else none
  | none => none

/-- How many reports can come if nothing more is done to the files. -/
def backlog (l : LiveServer) : Nat :=
  let count (w : Watcher) : Nat :=
    (if w.debouncer.pending then 1 else 0) + (if w.debouncer.dueTime?.isSome then 1 else 0)
  (l.settingsWatcher.map count).getD 0 + count l.inventoryWatcher

/-- Waits until a subscriber hears of a reload. -/
def listenUntil (s : Subscriber) (limit : Nat) :
    Nat → LiveServer → Received ReloadEvent × Subscriber × LiveServer
  | fuel, l =>
    match l.server.events.receive s with
    | (.nothing, s) =>
      match fuel, l.step? limit with
      | fuel + 1, some l => listenUntil s limit fuel l
      | _, _ => (.nothing, s, { l with now := max l.now limit })
    | (r, s) => (r, s, l)

/-- Waits for at most that many milliseconds until a subscriber hears of a reload. -/
def awaitReload (l : LiveServer) (s : Subscriber) (ms : Nat) :
    Received ReloadEvent × Subscriber × LiveServer :=
  listenUntil s (l.now + ms * 1000) l.backlog l

/-- The shutdown as the watchers live it: each takes part in its first stage and leaves as soon as
it hears of it. -/
def shutDown (l : LiveServer) : Shutdown.Timeline :=
  let t : Shutdown.Timeline := { coordinator := { timeout := Shutdown.Coordinator.defaultTimeout } }
  let t := (List.range l.watchers).foldl (fun t _ => t.participate 0) t
  t.update (t.coordinator.trigger .graceful).2

end LiveServer

end ReverseProxy
