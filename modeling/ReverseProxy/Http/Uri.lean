import ReverseProxy.Text.Decimal

/-!
# Targets of requests

`Uri.parse` reads the target of a request: a path with its query, an absolute URI, or an authority
alone. It is strict about characters, and it repairs nothing except that it drops a fragment.
-/

namespace ReverseProxy.Http

/-- A target. An authority alone has neither scheme nor path. -/
structure Uri where
  scheme : Option String
  authority : Option String
  /-- Empty where an absolute URI spells none. -/
  path : String
  query : Option String
deriving DecidableEq, Repr

/-- Why a text is no target. -/
inductive UriError
  | empty
  | invalidChar
  | invalidAuthority
  | invalidFormat
  | schemeTooLong
  | tooLong
deriving DecidableEq, Repr

def UriError.message : UriError → String
  | empty => "empty string"
  | invalidChar => "invalid uri character"
  | invalidAuthority => "invalid authority"
  | invalidFormat => "invalid format"
  | schemeTooLong => "scheme too long"
  | tooLong => "uri too long"

namespace Uri

def maxBytes : Nat := 65534

def maxScheme : Nat := 64

/-! ## Parts -/

def isSchemeChar (c : Char) : Bool :=
  c.isAlphanum || c = '+' || c = '-' || c = '.' || c = '~'

def isAuthorityChar (c : Char) : Bool :=
  c.isAlphanum || c ∈ ['!', '$', '&', '\'', '(', ')', '*', '+', ',', '-', '.', ':', ';', '=', '@',
    '[', ']', '_', '~']

def isPathChar (c : Char) : Bool :=
  let n := c.toNat
  n = 0x21 || n = 0x22 || (0x24 ≤ n && n ≤ 0x3B) || n = 0x3D || (0x40 ≤ n && n ≤ 0x5F) ||
    (0x61 ≤ n && n ≤ 0x7E) || n ≥ 0x80

def isQueryChar (c : Char) : Bool :=
  let n := c.toNat
  n = 0x21 || (0x24 ≤ n && n ≤ 0x3B) || n = 0x3D || (n ≥ 0x3F && n ≠ 0x7F)

/-- Reads a scheme and the `://` after it. Well-known schemes are given in lower case. A name may be
empty, but a bare `://` is no scheme. -/
def readScheme (cs : List Char) : Except UriError (Option String × List Char) :=
  let name := cs.takeWhile isSchemeChar
  match name, cs.drop name.length with
  | [], [':', '/', '/'] => .ok (none, cs)
  | _, ':' :: '/' :: '/' :: r =>
    let lower := name.map Char.toLower
    if lower = ['h', 't', 't', 'p'] || lower = ['h', 't', 't', 'p', 's'] then
      .ok (some (String.ofList lower), r)
    else if name.length > maxScheme then .error .schemeTooLong
    else .ok (some (String.ofList name), r)
  | _, _ => .ok (none, cs)

/-- Where in an authority a reader stands. -/
structure AuthorityState where
  colons : Nat := 0
  opened : Bool := false
  closed : Bool := false
  percent : Bool := false
  /-- Whether the last character was an `@`. -/
  atEnd : Bool := false

def AuthorityState.step (s : AuthorityState) (c : Char) : Except UriError AuthorityState :=
  let t := { s with atEnd := false }
  match c with
  | ':' => if s.colons ≥ 8 then .error .invalidAuthority else .ok { t with colons := s.colons + 1 }
  | '[' =>
    if s.percent || s.opened then .error .invalidAuthority else .ok { t with opened := true }
  | ']' =>
    if !s.opened || s.closed then .error .invalidAuthority
    else .ok { t with closed := true, colons := 0, percent := false }
  | '@' => .ok { s with colons := 0, percent := false, atEnd := true }
  | '%' => .ok { t with percent := true }
  | c => if isAuthorityChar c then .ok t else .error .invalidChar

def AuthorityState.complete (s : AuthorityState) : Bool :=
  s.opened == s.closed && s.colons ≤ 1 && !s.atEnd && !s.percent

def endsAuthority (c : Char) : Bool := c = '/' || c = '?' || c = '#'

def readAuthority (cs : List Char) : Except UriError (List Char × List Char) := do
  let name := cs.takeWhile (!endsAuthority ·)
  let s ← name.foldlM AuthorityState.step {}
  if s.complete then return (name, cs.drop name.length) else throw .invalidAuthority

/-- Reads a path and its query up to a fragment, which is dropped. -/
def readPath (cs : List Char) : Except UriError (String × Option String) :=
  let cs := cs.takeWhile (· ≠ '#')
  let path := cs.takeWhile (· ≠ '?')
  if !path.all isPathChar then .error .invalidChar
  else match cs.drop path.length with
    | _ :: query =>
      if query.all isQueryChar then .ok (String.ofList path, some (String.ofList query))
      else .error .invalidChar
    | [] => .ok (String.ofList path, none)

/-! ## The whole -/

def parse (s : String) : Except UriError Uri := do
  if s.utf8ByteSize > maxBytes then throw .tooLong
  match s.toList with
  | [] => throw .empty
  | ['*'] => return ⟨none, none, "*", none⟩
  | '/' :: cs =>
    let (path, query) ← readPath ('/' :: cs)
    return ⟨none, none, path, query⟩
  | cs =>
    let (scheme, rest) ← readScheme cs
    if rest.isEmpty then throw .empty
    let (name, rest) ← readAuthority rest
    match scheme with
    | none =>
      if rest.isEmpty then return ⟨none, some (String.ofList name), "", none⟩
      else throw (if cs.length = 1 then .invalidChar else .invalidFormat)
    | some scheme =>
      if name.isEmpty then throw .invalidFormat
      else
        let (path, query) ← readPath rest
        return ⟨some scheme, some (String.ofList name), path, query⟩

/-- The path; `/` where an absolute URI spells none. -/
def pathOrRoot (u : Uri) : String :=
  if u.path.isEmpty && u.scheme.isSome then "/" else u.path

/-- Path and query as they are sent to a server; none for an authority alone. -/
def pathAndQuery? (u : Uri) : Option String :=
  if u.scheme.isSome || u.authority.isNone then
    match u.query with
    | some q => some (u.path ++ "?" ++ q)
    | none => some (if u.path.isEmpty then "/" else u.path)
  else none

def toText (u : Uri) : String :=
  (match u.scheme with
    | some s => s ++ "://"
    | none => "") ++
  u.authority.getD "" ++
  u.pathOrRoot ++
  (match u.query with
    | some q => "?" ++ q
    | none => "")

end Uri

end ReverseProxy.Http
