import ReverseProxy.Files.Tree

/-!
# Operations on files and what directories report of them

Writing, removing and renaming change the tree. Every directory reports what happens to the names
in it: one operation can give several reports, in one directory or in two.
-/

namespace ReverseProxy

/-- What an operator does to the files. -/
inductive FileOperation
  /-- Writes a file, with the directories that it needs. -/
  | write (p : FilePath) (text : String)
  | remove (p : FilePath)
  | rename (p q : FilePath)
deriving DecidableEq, Repr

/-- What happens to a name in a directory. -/
inductive DirectoryEvent
  | created (name : String)
  | modified (name : String)
  | removed (name : String)
  /-- What had this name has another one now, here or elsewhere. -/
  | movedFrom (name : String)
  /-- What has this name had another one before, here or elsewhere. -/
  | movedTo (name : String)
  | moved (old new : String)
deriving DecidableEq, Repr

/-- An event with the directory that reports it. -/
structure DirectoryReport where
  directory : Location
  event : DirectoryEvent
deriving DecidableEq, Repr

namespace FileOperation

def reportOf (l : Location) (event : String → DirectoryEvent) : DirectoryReport :=
  ⟨l.dropLast, event (l.getLast?.getD "")⟩

/-- Applies an operation; none if it cannot be carried out. -/
def perform? (t : FileTree) : FileOperation → Option FileTree
  | write p text => some (t.place p text)
  | remove p => t.remove? p
  | rename p q => t.rename? p q

def writeReports (t : FileTree) (l : Location) : List DirectoryReport :=
  let missing := (FileTree.ancestors l).filter fun d => !t.hasDirectory d
  missing.map (reportOf · .created) ++
    (if (t.textAt l).isSome then [] else [reportOf l .created]) ++ [reportOf l .modified]

/-- The reports of moving what is at `a` to `b`. -/
def moveReports (a b : Location) : List DirectoryReport :=
  if a = b then []
  else
    [reportOf a .movedFrom, reportOf b .movedTo] ++
      (if a.dropLast = b.dropLast then
        [reportOf b (.moved (a.getLast?.getD ""))]
      else [])

def reports (t : FileTree) : FileOperation → List DirectoryReport
  | write p _ => writeReports t (FileTree.locationOf p)
  | remove p => ((t.fileAt? p).map fun l => [reportOf l .removed]).getD []
  | rename p q => ((t.moveOf? p q).map fun (a, b) => moveReports a b).getD []

/-- Where a location is found after an operation on a tree. -/
def follow (t : FileTree) (l : Location) : FileOperation → Location
  | write .. | remove _ => l
  | rename p q => ((t.moveOf? p q).map fun (a, b) => FileTree.relocate a b l).getD l

end FileOperation

end ReverseProxy
