import ReverseProxy.Broadcast
import ReverseProxy.Config.Load
import ReverseProxy.Inventory.File
import ReverseProxy.Proxy

/-!
# Reloads

A reload reads the settings or the inventory again and, if nothing is wrong with them, serves what
it read. A reload that is rejected leaves everything as it was; either way its outcome is
published.
-/

namespace ReverseProxy

inductive ReloadTarget
  | settings
  | inventory
deriving DecidableEq, Repr

def ReloadTarget.name : ReloadTarget → String
  | settings => "Config"
  | inventory => "Inventory"

inductive ReloadError
  | unloadable (e : LoadError)
  | refused (e : ValidationError)
  | inventory (path : FilePath) (e : InventoryError)
deriving DecidableEq

/-- The reason behind a failed read or write is given twice: by the error and as its cause. -/
def InventoryError.messageWithCause (e : InventoryError) : String :=
  match e with
  | unreadable _ reason | unwritable _ reason => e.message ++ ": " ++ reason.message
  | _ => e.message

def ReloadError.message : ReloadError → String
  | unloadable e => e.message
  | refused e => e.message
  | inventory path e =>
    "Failed to load inventory from " ++ path.text ++ ": " ++ e.messageWithCause

/-- What a reload came to: none if it was applied. -/
abbrev ReloadOutcome := Option ReloadError

/-- What is published after a reload. -/
structure ReloadEvent where
  target : ReloadTarget
  outcome : ReloadOutcome
deriving DecidableEq

/-- A running proxy with all that reloads change. -/
structure Server where
  settingsPath : FilePath
  proxy : Proxy
  fleet : Fleet
  inventoryPath : FilePath
  events : Broadcast ReloadEvent := {}

def Settings.buildBalancer (s : Settings) (t : FileTree) (f : Fleet) (now : Nat)
    (stopsOnShutdown : Bool) : Fleet × Except ReloadError Balancer :=
  match Inventory.load t s.inventoryFile ⟨s.backend, stopsOnShutdown⟩ f now with
  | (f, .ok inventory) => (f, .ok { strategy := s.strategy, inventory })
  | (f, .error e) => (f, .error (.inventory s.inventoryFile e))

namespace Server

/-- A server that serves a balancer under the settings it was built for. -/
def start (path : FilePath) (s : Settings) (b : Balancer) (f : Fleet) : Server :=
  { settingsPath := path, proxy := .serving s b, fleet := f, inventoryPath := s.inventoryFile }

def publish (s : Server) (target : ReloadTarget) (outcome : ReloadOutcome) :
    ReloadOutcome × Server :=
  (outcome, { s with events := s.events.send ⟨target, outcome⟩ })

def applyRebuilt (s : Server) (next : Settings) (b : Balancer) (f : Fleet) : Server :=
  let (i, proxy) := s.proxy.addBalancer b
  let (proxy, fleet) := proxy.replace f next i
  { s with
    proxy, fleet
    inventoryPath :=
      if s.inventoryPath.same next.inventoryFile then s.inventoryPath else next.inventoryFile }

/-- Reads the settings again and applies them if they are valid and compatible. They are validated
twice, each time with a lookup of its own. -/
def applySettings (s : Server) (t : FileTree) (now : Nat) (names : Net.Names := .none)
    (recheck : Net.Names := .none) : ReloadOutcome × Server :=
  match Settings.load t s.settingsPath names with
  | .error e => (some (.unloadable e), s)
  | .ok next =>
    match s.proxy.settings.validateReload next recheck with
    | .error e => (some (.refused e), s)
    | .ok () =>
      if s.proxy.settings.needsNewBackends next then
        match next.buildBalancer t s.fleet now true with
        | (f, .error e) => (some e, { s with fleet := f })
        | (f, .ok b) => (none, s.applyRebuilt next b f)
      else (none, { s with proxy := s.proxy.setSettings next })

def reloadSettings (s : Server) (t : FileTree) (now : Nat) (names : Net.Names := .none)
    (recheck : Net.Names := .none) : ReloadOutcome × Server :=
  let (outcome, s) := s.applySettings t now names recheck
  s.publish .settings outcome

def applyInventory (s : Server) (t : FileTree) (now : Nat) : ReloadOutcome × Server :=
  match s.proxy.settings.buildBalancer t s.fleet now true with
  | (f, .error e) => (some e, { s with fleet := f })
  | (f, .ok b) =>
    let (i, proxy) := s.proxy.addBalancer b
    let (proxy, fleet) := proxy.serve f i
    (none, { s with proxy, fleet })

def reloadInventory (s : Server) (t : FileTree) (now : Nat) : ReloadOutcome × Server :=
  let (outcome, s) := s.applyInventory t now
  s.publish .inventory outcome

def close (s : Server) : Server := { s with fleet := s.proxy.close s.fleet }

end Server

end ReverseProxy
