import ReverseProxy.Droplet
import ReverseProxy.Toml.Document

/-!
# Droplets in TOML

`Droplet.ofFields` reads a droplet from the entries of a table, `Droplet.print?` writes one. The
start time is written as a date-time and read from a date-time or from a text in the form of
RFC 3339. It can be written only if its year has four digits.
-/

namespace ReverseProxy.Droplet

open Toml (Value)

/-- Why a table is no droplet. -/
inductive ReadError
  /-- The text is no document, a field is missing, or a value has the wrong type. -/
  | malformed
  | startedTimeType (found : String)
  | startedTimeText (text : String)
deriving DecidableEq, Repr

def ReadError.detail? : ReadError → Option String
  | malformed => none
  | startedTimeType found => some ("expected a datetime for started-time, found " ++ found)
  | startedTimeText text => some ("invalid started-time '" ++ text ++ "'")

def startedText : Value → Except ReadError String
  | .datetime d => .ok (String.ofList d.print)
  | .string s => .ok s
  | v => .error (.startedTimeType v.typeName)

def readStarted (v : Value) : Except ReadError Time.Timestamp := do
  let text ← startedText v
  match Time.Rfc3339.parse text with
  | some t => .ok t
  | none => .error (.startedTimeText text)

/-- A droplet of which some fields may not have been read yet. -/
structure Partial where
  id : Option Int64 := none
  name : String := ""
  privateIp : String := ""
  publicIp : Option String := none
  serverHost : Option String := none
  healthUrl : String := ""
  startedTime : Option Time.Timestamp := none

/-- Reads one field; unknown keys are skipped. -/
def Partial.readField (p : Partial) (key : String) (v : Value) : Except ReadError Partial :=
  match key, v with
  | "id", .integer n => .ok { p with id := some (.ofInt n) }
  | "name", .string s => .ok { p with name := s }
  | "private-ip", .string s => .ok { p with privateIp := s }
  | "public-ip", .string s => .ok { p with publicIp := some s }
  | "server-host", .string s => .ok { p with serverHost := some s }
  | "health-url", .string s => .ok { p with healthUrl := s }
  | "started-time", v => (readStarted v).map fun t => { p with startedTime := some t }
  | key, _ =>
    if key ∈ ["id", "name", "private-ip", "public-ip", "server-host", "health-url"] then
      .error .malformed
    else .ok p

/-- The droplet, if no required field is missing. -/
def Partial.complete (p : Partial) : Except ReadError Droplet :=
  match p.id, p.serverHost with
  | some id, some serverHost =>
    .ok { id, name := p.name, privateIp := p.privateIp, publicIp := p.publicIp, serverHost
          healthUrl := p.healthUrl, startedTime := p.startedTime }
  | _, _ => .error .malformed

def Partial.readFields (p : Partial) : List (String × Value) → Except ReadError Partial
  | [] => .ok p
  | (k, v) :: rest => do (← p.readField k v).readFields rest

def ofFields (fields : List (String × Value)) : Except ReadError Droplet := do
  (← Partial.readFields {} fields).complete

def keys : List String :=
  ["id", "name", "private-ip", "public-ip", "server-host", "health-url", "started-time"]

/-- Reads a droplet from a table, or from an array of its fields in order. -/
def ofValue : Value → Except ReadError Droplet
  | .table fields => ofFields fields
  | .array items => ofFields (keys.zip items)
  | _ => .error .malformed

def parse (text : String) : Except ReadError Droplet :=
  match Toml.Document.parse .strict text with
  | some fields => ofFields fields
  | none => .error .malformed

def datetime? (t : Time.Timestamp) : Option Toml.Datetime :=
  let d := t.date
  let c := t.clock
  if 0 ≤ d.year && d.year ≤ 9999 then
    some (.offset d ⟨c.hour, c.minute, some c.second, c.nanos⟩ .zulu)
  else none

def stringLine (key value : String) : String := key ++ " = " ++ Toml.quote value ++ "\n"

/-- The lines of a droplet; none if the year of its start cannot be written. -/
def print? (d : Droplet) : Option String := do
  let started ← match d.startedTime with
    | none => some ""
    | some t => (datetime? t).map fun dt => "started-time = " ++ String.ofList dt.print ++ "\n"
  some ("id = " ++ Text.signedDecimal d.id.toInt ++ "\n" ++
    stringLine "name" d.name ++
    stringLine "private-ip" d.privateIp ++
    (match d.publicIp with
      | some ip => stringLine "public-ip" ip
      | none => "") ++
    stringLine "server-host" d.serverHost ++
    stringLine "health-url" d.healthUrl ++
    started)

end ReverseProxy.Droplet
