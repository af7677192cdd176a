import ReverseProxy.Config.Settings
import ReverseProxy.Data.Value
import ReverseProxy.Duration.Human

/-!
# Settings as data

`Settings.ofData?` reads settings from a record with the keys of configuration files, in any order
and with defaults for missing keys; `Settings.toData` writes all of them.
-/

namespace ReverseProxy

open Data (Reading)

def readDuration (r : Reading) (v : Data) : Option Duration := do
  (Duration.Human.parseTrimmed (← r.text v)).toOption

def readPath? (r : Reading) : Data → Option (Option FilePath)
  | .nil => some none
  | v => (r.text v).map fun s => some ⟨s⟩

/-- Reads the fields of a record one by one into a value that holds the defaults. -/
def readRecord {α : Type} (readField : α → String → Data → Option α) (defaults : α) :
    List (String × Data) → Option α
  | [] => some defaults
  | (k, v) :: rest => do readRecord readField (← readField defaults k v) rest

namespace BackendSettings

def keys : List String :=
  ["dial-timeout", "latency-average-seconds", "health-check-timeout", "new-host-port",
    "new-host-health-path", "new-host-health-https", "disable-health-check"]

/-- Reads one setting; unknown keys are skipped. -/
def readField (r : Reading) (s : BackendSettings) (key : String) (v : Data) :
    Option BackendSettings :=
  match key with
  | "dial-timeout" => (readDuration r v).map fun d => { s with dialTimeout := d }
  | "latency-average-seconds" => (r.natural v).map fun n => { s with latencySpan := n.toUInt64 }
  | "health-check-timeout" => (readDuration r v).map fun d => { s with probeTimeout := d }
  | "new-host-port" =>
    ((r.natural v).filter (· < 65536)).map fun n => { s with newHostPort := n.toUInt16 }
  | "new-host-health-path" => (r.text v).map fun p => { s with newHostHealthPath := p }
  | "new-host-health-https" => (r.bool v).map fun b => { s with newHostHealthHttps := b }
  | "disable-health-check" => (r.bool v).map fun b => { s with unmonitored := b }
  | _ => some s

def ofData? (r : Reading) (v : Data) : Option BackendSettings := do
  readRecord (readField r) {} (← Data.fields? r keys v)

def toData (s : BackendSettings) : Data :=
  .table [
    ("dial-timeout", .string (Duration.Human.format s.dialTimeout)),
    ("latency-average-seconds", .int s.latencySpan.toNat),
    ("health-check-timeout", .string (Duration.Human.format s.probeTimeout)),
    ("new-host-port", .int s.newHostPort.toNat),
    ("new-host-health-path", .string s.newHostHealthPath),
    ("new-host-health-https", .bool s.newHostHealthHttps),
    ("disable-health-check", .bool s.unmonitored)]

end BackendSettings

namespace Strategy

/-- Reads the section that names a strategy; it may leave the name out. -/
def ofData? (r : Reading) (v : Data) : Option Strategy := do
  readRecord
    (fun s key v =>
      if key = "type" then (r.choice v).bind ofName? else some s)
    .roundRobin (← Data.fields? r ["type"] v)

def toData (s : Strategy) : Data := .table [("type", .string s.name)]

end Strategy

namespace Settings

def keys : List String :=
  ["bind", "https", "tls-cert-file", "tls-key-file", "add-x-forwarded-for", "watch-config",
    "loadbalancing", "inventory-file", "backend", "shutdown-timeout"]

/-- Reads one setting; unknown keys are skipped. -/
def readField (r : Reading) (s : Settings) (key : String) (v : Data) : Option Settings :=
  match key with
  | "bind" => (r.text v).map fun b => { s with bind := b }
  | "https" => (r.bool v).map fun b => { s with https := b }
  | "tls-cert-file" => (readPath? r v).map fun p => { s with certificate := p }
  | "tls-key-file" => (readPath? r v).map fun p => { s with privateKey := p }
  | "add-x-forwarded-for" => (r.bool v).map fun b => { s with addForwardedFor := b }
  | "watch-config" => (r.bool v).map fun b => { s with watchConfig := b }
  | "loadbalancing" => (Strategy.ofData? r v).map fun k => { s with strategy := k }
  | "inventory-file" => (r.text v).map fun p => { s with inventoryFile := ⟨p⟩ }
  | "backend" => (BackendSettings.ofData? r v).map fun b => { s with backend := b }
  | "shutdown-timeout" => (readDuration r v).map fun d => { s with shutdownTimeout := d }
  | _ => some s

def ofData? (r : Reading) (v : Data) : Option Settings := do
  readRecord (readField r) {} (← Data.fields? r keys v)

def pathToData : Option FilePath → Data
  | some p => .string p.text
  | none => .nil

def toData (s : Settings) : Data :=
  .table [
    ("bind", .string s.bind),
    ("https", .bool s.https),
    ("tls-cert-file", pathToData s.certificate),
    ("tls-key-file", pathToData s.privateKey),
    ("add-x-forwarded-for", .bool s.addForwardedFor),
    ("watch-config", .bool s.watchConfig),
    ("loadbalancing", s.strategy.toData),
    ("inventory-file", .string s.inventoryFile.text),
    ("backend", s.backend.toData),
    ("shutdown-timeout", .string (Duration.Human.format s.shutdownTimeout))]

end Settings

end ReverseProxy
