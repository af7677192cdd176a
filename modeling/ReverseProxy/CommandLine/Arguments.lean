/-!
# Arguments

The program takes a command and two options. Options may stand before or behind the command; what
stands behind it counts more. An option may be given once on each side.
-/

namespace ReverseProxy.CommandLine

inductive Command
  | validate
  | init
  | serve
deriving DecidableEq, Repr

namespace Command

def name : Command → String
  | validate => "validate"
  | init => "init"
  | serve => "serve"

def all : List Command := [validate, init, serve]

def ofName? (s : String) : Option Command := all.find? (·.name = s)

end Command

/-- What the program is asked to do. -/
structure Arguments where
  command : Command
  settingsPath : String
  jsonLogs : Bool
deriving DecidableEq, Repr

inductive Page
  | overview
  | command (c : Command)
  | help
  | version
deriving DecidableEq, Repr

/-- Why arguments make no sense. -/
inductive UsageError
  | unexpected (argument : String)
  | missingValue
  | repeated
deriving DecidableEq, Repr

def UsageError.message : UsageError → String
  | unexpected s => "unexpected argument '" ++ s ++ "' found"
  | missingValue => "a value is required for '--config <CONFIG>' but none was supplied"
  | repeated => "an option cannot be used multiple times"

/-- Why no command is run. -/
inductive Stop
  | page (p : Page)
  | usage (e : UsageError)
deriving DecidableEq, Repr

/-! ## Single arguments -/

/-- What one argument is, by its spelling. -/
inductive Word
  /-- From here on there are no options. -/
  | separator
  /-- The option for the file of settings, with its value if that is attached. -/
  | settings (value : Option String)
  | jsonLogs
  | help
  | version
  | unknown
  | plain
deriving DecidableEq, Repr

namespace Word

def ofLong (name : List Char) (value : Option String) : Word :=
  match String.ofList name, value with
  | "config", value => settings value
  | "json-logs", none => jsonLogs
  | "help", none => help
  | "version", none => version
  | _, _ => unknown

/-- The value that follows the letter of an option at once, with or without `=`. -/
def attached : List Char → Option String
  | [] => none
  | '=' :: cs => some (String.ofList cs)
  | cs => some (String.ofList cs)

def ofChars : List Char → Word
  | ['-', '-'] => separator
  | '-' :: '-' :: cs =>
    let name := cs.takeWhile (· ≠ '=')
    match cs.drop name.length with
    | [] => ofLong name none
    | _ :: value => ofLong name (some (String.ofList value))
  | '-' :: 'c' :: cs => settings (attached cs)
  | '-' :: 'h' :: _ => help
  | '-' :: 'V' :: _ => version
  | '-' :: _ :: _ => unknown
  | _ => plain

def ofString (s : String) : Word := ofChars s.toList

end Word

/-! ## Both sides of the command -/

/-- What has been read on one side of the command. -/
structure Level where
  settingsPath : Option String := none
  jsonLogs : Bool := false
  /-- An option that is not complete until something else follows; with its value, if that has been
  read. -/
  pending : Option (Option String) := none
  plain : Bool := false
deriving DecidableEq, Repr

namespace Level

def setPath (l : Level) (s : String) : Except Stop Level :=
  if l.settingsPath.isSome then .error (.usage .repeated)
  else .ok { l with settingsPath := some s }

def complete (l : Level) : Except Stop Level :=
  match l.pending with
  | none => .ok l
  | some none => .error (.usage .missingValue)
  | some (some s) => { l with pending := none }.setPath s

def awaitsValue (l : Level) : Bool := l.pending = some none

/-- Takes one argument in. `page` explains the side that is read. -/
def step (page : Page) (l : Level) (s : String) : Except Stop Level :=
  if l.plain then .error (.usage (.unexpected s))
  else match Word.ofString s with
    | .separator => .ok { l with plain := true }
    | .settings value => do
      let l ← l.complete
      match value with
      | some v => l.setPath v
      | none => .ok { l with pending := some none }
    | .jsonLogs => do
      let l ← l.complete
      if l.jsonLogs then .error (.usage .repeated) else .ok { l with jsonLogs := true }
    | .help => do
      let _ ← l.complete
      .error (.page page)
    | .version => do
      if page ≠ .overview then .error (.usage (.unexpected s))
      let _ ← l.complete
      .error (.page .version)
    | .unknown => .error (.usage (.unexpected s))
    | .plain =>
      if l.awaitsValue then .ok { l with pending := some (some s) }
      else .error (.usage (.unexpected s))

end Level

/-! ## All arguments -/

/-- The file of settings unless another is named. -/
def defaultPath : String := "config.toml"

def join (c : Command) (before behind : Level) : Arguments :=
  { command := c
    settingsPath := (behind.settingsPath <|> before.settingsPath).getD defaultPath
    jsonLogs := before.jsonLogs || behind.jsonLogs }

def pageFor : List String → Stop
  | [] => .page .overview
  | ["help"] => .page .help
  | "help" :: s :: _ => .usage (.unexpected s)
  | s :: rest =>
    match Command.ofName? s, rest with
    | none, _ => .usage (.unexpected s)
    | some c, [] => .page (.command c)
    | some _, t :: _ => .usage (.unexpected t)

/-- Reads arguments, given what has been read before. Without a command, the program serves. -/
def readFrom (l : Level) : List String → Except Stop Arguments
  | [] => do return join .serve (← l.complete) {}
  | s :: rest =>
    if l.plain || l.awaitsValue then do readFrom (← l.step .overview s) rest
    else if s = "help" then .error (pageFor rest)
    else match Command.ofName? s with
      | none => do readFrom (← l.step .overview s) rest
      | some c => do
        let behind ← rest.foldlM (Level.step (.command c)) {}
        let behind ← behind.complete
        return join c (← l.complete) behind

def read (args : List String) : Except Stop Arguments := readFrom {} args

end ReverseProxy.CommandLine
