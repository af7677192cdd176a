import ReverseProxy.CommandLine.Pages
import ReverseProxy.Config.Load
import ReverseProxy.Reload

/-!
# Commands

A command works on a tree of files. It ends with an exit code, the texts it has written on both
outputs, and the tree as it left it.
-/

namespace ReverseProxy.CommandLine

/-- How a run of the program ends. -/
structure Exit where
  code : Nat := 0
  output : String := ""
  errors : String := ""
  tree : FileTree

def lines (l : List String) : String := String.join (l.map (· ++ "\n"))

/-! ## Validation -/

def flagText (b : Bool) : String := if b then "true" else "false"

def summary (s : Settings) : String :=
  lines [
    "📋 Configuration Summary:",
    "   • Bind Address: " ++ s.bind,
    "   • HTTPS: " ++ flagText s.https,
    "   • Load Balancer: " ++ s.strategy.name,
    "   • Inventory: " ++ s.inventoryFile.text,
    "   • Health Checks: " ++ flagText (!s.backend.unmonitored),
    "   • Watch Config: " ++ flagText s.watchConfig]

/-- Says whether a file holds valid settings. Unlike the server it looks for the file under the
very path it is given. -/
def validate (t : FileTree) (path : String) (names : Net.Names := .none) : Exit :=
  let heading := "🔍 Validating configuration file: " ++ path ++ "\n"
  let parsed := heading ++ "✅ Configuration parsing: OK\n"
  if !t.exists? ⟨path⟩ then
    { code := 1, output := heading
      errors := "❌ Error: Configuration file '" ++ path ++ "' not found\n", tree := t }
  else match Settings.loadUnchecked t ⟨path⟩ with
    | .error e =>
      { code := 1, output := heading
        errors := "❌ Configuration parsing failed:\n   " ++ e.message ++ "\n", tree := t }
    | .ok s =>
      match s.validate names with
      | .error e =>
        { code := 1, output := parsed
          errors := "❌ Configuration validation failed:\n" ++ e.message ++ "\n", tree := t }
      | .ok () =>
        { output := parsed ++ "✅ Configuration validation: OK\n\n" ++ summary s, tree := t }

/-! ## A first file of settings -/

def template : String :=
  lines [
    "# droplet-proxy configuration",
    "",
    "# Address to listen on. \":80\" listens on all interfaces.",
    "bind = \":8080\"",
    "https = false",
    "# tls-cert-file = \"cert.pem\"",
    "# tls-key-file = \"key.pem\"",
    "",
    "add-x-forwarded-for = true",
    "watch-config = true",
    "inventory-file = \"inventory.toml\"",
    "shutdown-timeout = \"5s\"",
    "",
    "[loadbalancing]",
    "# roundrobin, leastconn or lowestlatency",
    "type = \"roundrobin\"",
    "",
    "[backend]",
    "dial-timeout = \"2s\"",
    "latency-average-seconds = 30",
    "health-check-timeout = \"250ms\"",
    "new-host-port = 80",
    "new-host-health-path = \"/\"",
    "new-host-health-https = false",
    "disable-health-check = false"]

def report (causes : List String) : String :=
  "Error: \n" ++ String.join ((List.range causes.length).map fun i =>
    "   " ++ String.ofList (Text.digits i) ++ ": " ++ causes.getD i "" ++ "\n")

/-- Writes a file of settings, unless there is something already. -/
def init (t : FileTree) (path : String) : Exit :=
  if t.exists? ⟨path⟩ then
    { code := 1, errors := "❌ Error: Configuration file '" ++ path ++ "' already exists\n"
      tree := t }
  else match t.write ⟨path⟩ template with
    | .error e =>
      { code := 1, errors := report ["Failed to write config file", e.message], tree := t }
    | .ok tree =>
      { output := "✅ Created default configuration at: " ++ path ++ "\n   Run 'droplet-proxy serve "
          ++ "--config " ++ path ++ "' to start the proxy\n"
        tree }

/-! ## Serving -/

/-- Loads all that a server needs and says what keeps it from starting. Nothing can listen here. The
host is looked up once when the settings are loaded and again to listen. -/
def serve (t : FileTree) (path : String) (names : Net.Names := .none)
    (again : Net.Names := .none) : Exit :=
  match Settings.load t ⟨path⟩ names with
  | .error e =>
    { code := 1, errors := report ["Failed to load config from " ++ path, e.message], tree := t }
  | .ok s =>
    match s.buildBalancer t {} 0 true with
    | (_, .error e) =>
      { code := 1, errors := report ["Failed to build load balancer", e.message], tree := t }
    | (_, .ok _) =>
      let cause := match s.listenAddress again with
        | .error e => ["Failed to resolve bind address", e.message]
        | .ok a => ["Failed to bind to " ++ a.toText]
      { code := 1, errors := report cause, tree := t }

def run (t : FileTree) (args : List String) (names : Net.Names := .none)
    (again : Net.Names := .none) : Exit :=
  match read args with
  | .error (.page p) => { output := p.text, tree := t }
  | .error (.usage e) =>
    { code := 2, tree := t
      errors := "error: " ++ e.message ++ "\n\nFor more information, try '--help'.\n" }
  | .ok a =>
    match a.command with
    | .validate => validate t a.settingsPath names
    | .init => init t a.settingsPath
    | .serve => serve t a.settingsPath names again

end ReverseProxy.CommandLine
