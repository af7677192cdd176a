import ReverseProxy.Config.Document
import ReverseProxy.Config.Validation
import ReverseProxy.Data.KeyPath
import ReverseProxy.Files.Tree
import ReverseProxy.Json.Reader
import ReverseProxy.Toml.Document
import ReverseProxy.Yaml.Document

/-!
# Loading settings

A configuration file is in TOML, YAML or JSON, chosen by the extension of its name. A missing file
is looked for again under its name with an extension of the format appended. `Settings.load` accepts
only valid settings, `Settings.loadUnchecked` any that can be read.
-/

namespace ReverseProxy

inductive ConfigFormat
  | toml | yaml | json
deriving DecidableEq, Repr

namespace ConfigFormat

def ofPath (p : FilePath) : ConfigFormat :=
  match p.extension? with
  | some "yaml" | some "yml" => yaml
  | some "json" => json
  | _ => toml

def extensions : ConfigFormat → List String
  | toml => ["toml"]
  | yaml => ["yaml", "yml"]
  | json => ["json"]

end ConfigFormat

namespace Toml

mutual

/-- A value of TOML as data; a date-time becomes its text. -/
def Value.toData : Value → Data
  | .string s => .string s
  | .integer n => .int n
  | .float x => .float x
  | .boolean b => .bool b
  | .datetime d => .string (String.ofList d.print)
  | .array vs => .array (listToData vs)
  | .table es => .table (entriesToData es)

def listToData : List Value → List Data
  | [] => []
  | v :: vs => v.toData :: listToData vs

def entriesToData : List (String × Value) → List (String × Data)
  | [] => []
  | (k, v) :: es => (k, v.toData) :: entriesToData es

end

end Toml

inductive LoadError
  /-- The file is missing, cannot be parsed, or holds no table. -/
  | unreadable (path : FilePath)
  /-- No strategy is named; there is no default for it in a file. -/
  | strategyMissing (path : FilePath)
  | mistyped (path : FilePath)
  | invalid (e : ValidationError)
deriving DecidableEq, Repr

/-- The message; the reasons of the readers of the formats are left out. -/
def LoadError.message : LoadError → String
  | unreadable p => "Failed to build config from " ++ p.text
  | strategyMissing p =>
    "Invalid config in " ++ p.text ++ ": " ++ (Problem.missingField "loadbalancing.type").message
  | mistyped p => "Failed to deserialize config from " ++ p.text
  | invalid e => e.message

/-- Parses the text of a configuration file as the entries of its root table. -/
def parseConfig (format : ConfigFormat) (text : String) : Option (List (String × Data)) :=
  match format with
  | .toml => (Toml.Document.parse .relaxed text).map Toml.entriesToData
  | .yaml => Yaml.parse text
  | .json =>
    match Json.parse text with
    | some (.table es) => some es
    | _ => none

/-- A byte order mark does not belong to the text. -/
def withoutMark (text : String) : String :=
  match text.toList with
  | '\ufeff' :: cs => String.ofList cs
  | _ => text

namespace Settings

/-- Where a file of settings is looked for. Only a name can have an extension appended; an empty path
and `.` lead to the working directory and take its name. -/
def candidates (t : FileTree) (p : FilePath) : List FilePath :=
  p :: match t.named? p with
    | some q => (ConfigFormat.ofPath p).extensions.map fun e => q.append ("." ++ e)
    | none => []

def findText (t : FileTree) (p : FilePath) : Option String :=
  (candidates t p).findSome? fun q => (t.read q).toOption

/-- The settings in a file, valid or not. -/
def loadUnchecked (t : FileTree) (p : FilePath) : Except LoadError Settings := do
  let some text := findText t p | .error (.unreadable p)
  let some root := parseConfig (ConfigFormat.ofPath p) (withoutMark text)
    | .error (.unreadable p)
  let tree := Data.expandPaths root
  if ((Data.getPath? ["loadbalancing", "type"] tree).bind Data.lenientText).isNone then
    .error (.strategyMissing p)
  match Settings.ofData? Data.lenient tree with
  | some s => .ok s
  | none => .error (.mistyped p)

def load (t : FileTree) (p : FilePath) (names : Net.Names := .none) :
    Except LoadError Settings := do
  let s ← loadUnchecked t p
  match s.validate names with
  | .ok () => .ok s
  | .error e => .error (.invalid e)

end Settings

end ReverseProxy
