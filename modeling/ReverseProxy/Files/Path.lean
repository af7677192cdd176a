import ReverseProxy.Text.Blank

/-!
# Paths of files

A path is a text; what it names depends on its components only. Repeated slashes, slashes at the
end and components `.` after the first one do not count.
-/

namespace ReverseProxy

inductive PathPart
  | root
  /-- A leading `.`. -/
  | here
  | parent
  | name (s : String)
deriving DecidableEq, Repr

structure FilePath where
  text : String
deriving DecidableEq, Repr, Inhabited

namespace FilePath

/-- The pieces between slashes that are not empty. -/
def pieces (p : FilePath) : List String :=
  ((Text.splitAtChar '/' p.text.toList).filter (· ≠ [])).map String.ofList

def partOf (piece : String) : PathPart :=
  if piece = ".." then .parent else .name piece

def isAbsolute (p : FilePath) : Bool := p.text.toList.head? = some '/'

def parts (p : FilePath) : List PathPart :=
  let named := (p.pieces.filter (· ≠ ".")).map partOf
  if p.isAbsolute then .root :: named
  else if p.pieces.head? = some "." then .here :: named
  else named

def same (p q : FilePath) : Bool := p.parts = q.parts

def sameOption : Option FilePath → Option FilePath → Bool
  | some p, some q => p.same q
  | none, none => true
  | _, _ => false

/-- The last component, if it is a name. -/
def fileName? (p : FilePath) : Option String :=
  match p.parts.getLast? with
  | some (.name s) => some s
  | _ => none

/-- What follows the last dot of a file name, unless that dot leads the name. -/
def extension? (p : FilePath) : Option String := do
  let name ← p.fileName?
  let reversed := name.toList.reverse
  if '.' ∉ reversed then none
  else
    let stem := (reversed.dropWhile (· ≠ '.')).drop 1
    if stem.isEmpty then none
    else some (String.ofList (reversed.takeWhile (· ≠ '.')).reverse)

/-- Whether the path was written with a slash, or a slash and a dot, behind its last name. -/
def endsInSlash (p : FilePath) : Bool :=
  match p.text.toList.reverse with
  | '/' :: _ => true
  | ['.'] => false
  | '.' :: '/' :: _ => true
  | _ => false

/-- Drops slashes, and components `.` behind a slash, from the end. -/
def trimEnd (cs : List Char) : List Char :=
  let rec strip : Nat → List Char → List Char
    | 0, cs => cs
    | _ + 1, ['/'] | _ + 1, ['.', '/'] => ['/']
    | n + 1, '/' :: cs => strip n cs
    | n + 1, '.' :: '/' :: cs => strip n cs
    | _ + 1, cs => cs
  (strip cs.length cs.reverse).reverse

/-- The path with text appended to its last name. Slashes and dots behind that name are dropped. -/
def append (p : FilePath) (s : String) : FilePath := ⟨String.ofList (trimEnd p.text.toList) ++ s⟩

/-- The path up to its last component: empty if there is one component only. -/
def parent (p : FilePath) : FilePath :=
  let head := ((trimEnd p.text.toList).reverse.dropWhile (· ≠ '/')).reverse
  ⟨String.ofList (trimEnd head)⟩

end FilePath

end ReverseProxy
