import ReverseProxy.CommandLine.Commands

/-!
# The program

Reads the files that a command may need, runs the command on them, and writes what has changed. Host
names are not looked up: none is known.
-/

namespace ReverseProxy.CommandLine

/-- What is found under a name: the text of a file, or something that cannot be read as one. -/
def look (path : String) : IO (Option (Option String)) := do
  try
    return some (some (← IO.FS.readFile path))
  catch
    | .noFileOrDirectory .. => return none
    | _ => return some none

def gather (t : FileTree) (p : FilePath) : IO FileTree := do
  match ← look p.text with
  | some (some text) => return t.place p text
  | some none => return t.placeDirectory p
  | none =>
    let directory := p.parent
    if directory.text ≠ "" && (← look directory.text).isSome then return t.placeDirectory directory
    else return t

def gatherAll (a : Arguments) : IO FileTree := do
  let directory : FilePath := ⟨toString (← IO.currentDir)⟩
  let t : FileTree := { FileTree.empty with name := directory.fileName? }
  let t ← (Settings.candidates t ⟨a.settingsPath⟩).foldlM gather t
  match a.command, Settings.load t ⟨a.settingsPath⟩ with
  | .serve, .ok s => gather t s.inventoryFile
  | _, _ => return t

def runOnDisk (args : List String) : IO Exit := do
  let before ← match read args with
    | .ok a => gatherAll a
    | .error _ => pure FileTree.empty
  let e := run before args
  match read args with
  | .ok a =>
    match e.tree.read ⟨a.settingsPath⟩ with
    | .ok text => if e.tree ≠ before then IO.FS.writeFile a.settingsPath text
    | .error _ => pure ()
  | .error _ => pure ()
  return e

end ReverseProxy.CommandLine

def main (args : List String) : IO UInt32 := do
  let e ← ReverseProxy.CommandLine.runOnDisk args
  IO.print e.output
  IO.eprint e.errors
  return e.code.toUInt32
