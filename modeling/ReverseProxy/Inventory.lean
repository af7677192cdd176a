import ReverseProxy.Droplet.Toml
import ReverseProxy.Files.Tree
import ReverseProxy.Fleet

/-!
# Inventories

An inventory is the ordered list of backends that a balancer chooses from. No two members have the
same id.
-/

namespace ReverseProxy

/-- Why an operation on an inventory is refused. -/
inductive InventoryError
  | unreadable (path : FilePath) (reason : FileError)
  | malformed (path : FilePath) (reason : Droplet.ReadError)
  | unprintable
  | unwritable (path : FilePath) (reason : FileError)
  | backend (reason : Backend.CreateError)
  | duplicateId (id : String)
  | notFound (id : String)
  | shuttingDown
deriving DecidableEq

/-- The message; the reasons of the reader and the printer of the format are left out. -/
def InventoryError.message : InventoryError → String
  | unreadable p e => "Unable to read inventory file " ++ p.text ++ ": " ++ e.message
  | malformed p _ => "Unable to parse inventory file " ++ p.text
  | unprintable => "Unable to serialize inventory"
  | unwritable p e => "Unable to write inventory file " ++ p.text ++ ": " ++ e.message
  | backend e => e.message
  | duplicateId id => "Backend with id " ++ id ++ " already exists"
  | notFound id => "Backend with id " ++ id ++ " not found"
  | shuttingDown => "Unable to save inventory - server is shutting down."

/-- The members in the order they were added, and what new ones are created with. -/
structure Inventory where
  members : List Handle := []
  context : Backend.Context
deriving DecidableEq

namespace Inventory

variable (inv : Inventory) (f : Fleet)

def empty (context : Backend.Context) : Inventory := { context }

def backends : List Backend := f.select inv.members

def ids : List String := (inv.backends f).map (·.id)

def hasId (h : Handle) (id : String) : Bool := (f.get? h).any (·.id = id)

def find? (id : String) : Option Handle := inv.members.find? fun h => hasId f h id

/-- Appends a backend of the fleet, if no member has its id. -/
def append (h : Handle) : Except InventoryError Inventory :=
  let id := ((f.get? h).map (·.id)).getD ""
  if (inv.find? f id).isSome then .error (.duplicateId id)
  else .ok { inv with members := inv.members ++ [h] }

/-- Creates a backend and appends it. A backend that cannot be appended is closed. -/
def add (d : Backend.Description) (now : Nat) : Fleet × Except InventoryError (Handle × Inventory) :=
  match f.create d inv.context now with
  | .error e => (f, .error (.backend e))
  | .ok (h, f) =>
    match inv.append f h with
    | .ok inv => (f, .ok (h, inv))
    | .error e => (f.close h, .error e)

/-- Creates a backend for a droplet and appends it. A known id is refused before anything is
created. -/
def addDroplet (d : Droplet) (now : Nat) : Fleet × Except InventoryError (Handle × Inventory) :=
  let description := Backend.Description.ofDroplet d
  if (inv.find? f description.id).isSome then (f, .error (.duplicateId description.id))
  else inv.add f description now

def remove (id : String) : Except InventoryError (Handle × Inventory × Fleet) :=
  match inv.find? f id with
  | none => .error (.notFound id)
  | some h => .ok (h, { inv with members := inv.members.filter (· ≠ h) }, f.close h)

def close : Fleet := f.closeAll inv.members

def droplets : List Droplet := (inv.backends f).filterMap (·.droplet?)

end Inventory

end ReverseProxy
