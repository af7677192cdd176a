import ReverseProxy.Files.Path

/-!
# Files below a working directory

A tree of text files and directories. The root and the directories above the working directory have
names of their own, `/` and `..`; they are not part of the tree unless something has been placed
there.
-/

namespace ReverseProxy

/-- Why a file cannot be read or written. -/
inductive FileError
  | notFound
  | notDirectory
  | isDirectory
deriving DecidableEq, Repr

def FileError.message : FileError → String
  | notFound => "No such file or directory (os error 2)"
  | notDirectory => "Not a directory (os error 20)"
  | isDirectory => "Is a directory (os error 21)"

abbrev Location := List String

namespace Location

def root : Location := ["/"]

def up (l : Location) : Location :=
  match l.getLast? with
  | none | some ".." => l ++ [".."]
  | some "/" => l
  | some _ => l.dropLast

end Location

/-- Text files and directories, by their location. -/
structure FileTree where
  files : List (Location × String)
  directories : List Location
  /-- The name of the working directory, unless that is the root. -/
  name : Option String := none
deriving DecidableEq, Repr, Inhabited

inductive Place
  | directory (at_ : Location)
  /-- A directory that is not part of the tree. -/
  | outside
  | file (at_ : Location) (text : String)
  | vacant (at_ : Location)
deriving DecidableEq, Repr

namespace FileTree

def empty : FileTree := { files := [], directories := [] }

def textAt (t : FileTree) (l : Location) : Option String :=
  (t.files.find? (·.1 = l)).map (·.2)

def hasDirectory (t : FileTree) (l : Location) : Bool := l = [] || l ∈ t.directories

def walk (t : FileTree) (slash : Bool) : Location → List PathPart → Except FileError Place
  | l, [] => .ok (.directory l)
  | l, .here :: ps => walk t slash l ps
  | _, .root :: ps => descend t ps Location.root (walk t slash Location.root ps)
  | l, .parent :: ps => descend t ps l.up (walk t slash l.up ps)
  | l, .name n :: ps =>
    let l := l ++ [n]
    if t.hasDirectory l then walk t slash l ps
    else match t.textAt l with
      | some text => if ps.isEmpty && !slash then .ok (.file l text) else .error .notDirectory
      | none => if ps.isEmpty then .ok (.vacant l) else .error .notFound
where
  /-- Goes on in a directory that exists but need not be part of the tree. -/
  descend (t : FileTree) (ps : List PathPart) (l : Location) (inside : Except FileError Place) :
      Except FileError Place :=
    if t.hasDirectory l then inside else if ps.isEmpty then .ok .outside else .error .notFound

/-- What a path leads to from the working directory. An empty path leads nowhere. -/
def find (t : FileTree) (p : FilePath) : Except FileError Place :=
  if p.text = "" then .error .notFound else t.walk p.endsInSlash [] p.parts

def read (t : FileTree) (p : FilePath) : Except FileError String := do
  match ← t.find p with
  | .file _ text => .ok text
  | .directory _ | .outside => .error .isDirectory
  | .vacant _ => .error .notFound

def isFile (t : FileTree) (p : FilePath) : Bool := (t.read p).isOk

def exists? (t : FileTree) (p : FilePath) : Bool :=
  match t.find p with
  | .ok (.vacant _) | .error _ => false
  | .ok _ => true

def setText (t : FileTree) (l : Location) (text : String) : FileTree :=
  { t with
    files :=
      if t.files.any (·.1 = l) then t.files.map fun f => if f.1 = l then (l, text) else f
      else t.files ++ [(l, text)] }

def write (t : FileTree) (p : FilePath) (text : String) : Except FileError FileTree := do
  match ← t.find p with
  | .file l _ => .ok (t.setText l text)
  | .vacant l => if p.endsInSlash then .error .isDirectory else .ok (t.setText l text)
  | .directory _ | .outside => .error .isDirectory

/-- A path that ends in a name and leads where the given one does, going by its text alone. -/
def named? (t : FileTree) (p : FilePath) : Option FilePath :=
  match p.parts with
  | [] | [.here] => t.name.map fun n => ⟨"../" ++ n⟩
  | _ => if p.fileName?.isSome then some p else none

/-- The location that a path spells out, without looking at the tree. -/
def locationOf (p : FilePath) : Location :=
  p.parts.foldl (fun l part =>
    match part with
    | .name n => l ++ [n]
    | .parent => l.up
    | .here => l
    | .root => Location.root) []

/-- All proper prefixes of a location except the empty one. -/
def ancestors (l : Location) : List Location :=
  (List.range l.length).tail.map fun n => l.take n

def withAncestors (t : FileTree) (l : Location) : FileTree :=
  { t with directories := t.directories ++ (ancestors l).filter fun d => !t.hasDirectory d }

def place (t : FileTree) (p : FilePath) (text : String) : FileTree :=
  (t.withAncestors (locationOf p)).setText (locationOf p) text

def placeDirectory (t : FileTree) (p : FilePath) : FileTree :=
  let l := locationOf p
  let t := t.withAncestors l
  if t.hasDirectory l then t else { t with directories := t.directories ++ [l] }

def removeAt (t : FileTree) (l : Location) : FileTree :=
  { t with files := t.files.filter (·.1 ≠ l) }

def fileAt? (t : FileTree) (p : FilePath) : Option Location :=
  match t.find p with
  | .ok (.file l _) => some l
  | _ => none

def remove? (t : FileTree) (p : FilePath) : Option FileTree := (t.fileAt? p).map t.removeAt

/-- Where a location is found after what was at `a` has moved to `b`. -/
def relocate (a b l : Location) : Location := if a <+: l then b ++ l.drop a.length else l

def moveTo (t : FileTree) (a b : Location) : FileTree :=
  { t with
    files := t.files.map fun (l, text) => (relocate a b l, text)
    directories := t.directories.map (relocate a b) }

def isEmptyDirectory (t : FileTree) (l : Location) : Bool :=
  !(t.files.any (·.1.dropLast = l)) && !(t.directories.any fun d => d ≠ [] && d.dropLast = l)

/-- Where a move leads from and to, if it can be made: a file can replace a file, and a directory
an empty one. -/
def moveOf? (t : FileTree) (p q : FilePath) : Option (Location × Location) :=
  match t.find p, t.find q with
  | .ok (.file a _), .ok (.file b _) => some (a, b)
  | .ok (.file a _), .ok (.vacant b) => if q.endsInSlash then none else some (a, b)
  | .ok (.directory a), .ok (.vacant b) => if a <+: b then none else some (a, b)
  | .ok (.directory a), .ok (.directory b) =>
    if a = b && a ≠ [] then some (a, b)
    else if a <+: b || !t.isEmptyDirectory b then none
    else some (a, b)
  | _, _ => none

def rename? (t : FileTree) (p q : FilePath) : Option FileTree :=
  (t.moveOf? p q).map fun (a, b) =>
    if a = b then t
    else { t with
      files := t.files.filter (·.1 ≠ b)
      directories := t.directories.filter (· ≠ b) }.moveTo a b

def ofFiles (files : List (String × String)) : FileTree :=
  files.foldl (fun t (p, text) => t.place ⟨p⟩ text) empty

def toFiles (t : FileTree) : List (String × String) :=
  t.files.map fun (l, text) => ("/".intercalate l, text)

end FileTree

end ReverseProxy
