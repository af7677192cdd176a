import ReverseProxy.Files.Operation
import ReverseProxy.Watch.Debouncer

/-!
# Watching a file

A watcher looks at the directory of its file, so that it also sees the file replaced by another.
It cares for events that may have given the file new contents.
-/

namespace ReverseProxy.Watch

inductive WatchError
  /-- The path does not end in a name. -/
  | noFileName (p : FilePath)
  | noDirectory (directory : FilePath)
deriving DecidableEq, Repr

def WatchError.message : WatchError → String
  | noFileName p => "Invalid watch path: " ++ p.text
  | noDirectory d => "Failed to watch directory " ++ d.text

/-- Whether an event may have given the file of that name new contents. Removals do not, nor does
a name that something has lost; an event with two names counts for both. -/
def concerns (name : String) : DirectoryEvent → Bool
  | .created n | .modified n | .movedTo n => n = name
  | .moved old new => old = name || new = name
  | .removed _ | .movedFrom _ => false

structure Watcher where
  path : FilePath
  name : String
  /-- The directory that is watched; none outside the tree. -/
  directory : Option Location
  debouncer : Debouncer := {}
deriving DecidableEq, Repr

namespace Watcher

def directoryOf (p : FilePath) : FilePath := if p.parent.text = "" then ⟨"."⟩ else p.parent

/-- Begins to watch a file, which need not exist, but its directory must. -/
def install (t : FileTree) (p : FilePath) : Except WatchError Watcher :=
  match p.fileName? with
  | none => .error (.noFileName p)
  | some name =>
    match t.find (directoryOf p) with
    | .ok (.directory l) | .ok (.file l _) => .ok { path := p, name, directory := some l }
    | .ok .outside => .ok { path := p, name, directory := none }
    | .ok (.vacant _) | .error _ => .error (.noDirectory (directoryOf p))

def update (w : Watcher) (g : Debouncer → Debouncer) : Watcher :=
  { w with debouncer := g w.debouncer }

def cares (w : Watcher) (r : DirectoryReport) : Bool :=
  w.directory = some r.directory && concerns w.name r.event

def notice (w : Watcher) (rs : List DirectoryReport) (now : Nat) : Watcher :=
  (rs.filter w.cares).foldl (fun w _ => w.update (·.notify now)) w

/-- Sees an operation on a tree. A directory is watched wherever it is moved to. -/
def observe (w : Watcher) (t : FileTree) (op : FileOperation) (now : Nat) : Watcher :=
  let w := w.notice (op.reports t) now
  { w with directory := w.directory.map fun l => op.follow t l }

/-- Waits for a change until a time; tells when it is reported, if it is. -/
def await (w : Watcher) (now limit : Nat) : Option Nat × Watcher :=
  let w := w.update (·.listen now)
  match w.debouncer.dueTime? with
  | some t => if t ≤ limit then (some t, w.update (·.report)) else (none, w.update (·.abandon))
  | none => (none, w.update (·.abandon))

end Watcher

end ReverseProxy.Watch
