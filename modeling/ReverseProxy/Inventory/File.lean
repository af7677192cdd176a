import ReverseProxy.Inventory
import ReverseProxy.Shutdown.Coordinator

/-!
# Inventory files

An inventory file lists droplets, each as a table `droplet`. Loading creates a backend for each of
them, or none at all if one is refused; saving is refused once shutdown has begun.
-/

namespace ReverseProxy.Inventory

def dropletsOf : Toml.Value → Except Droplet.ReadError (List Droplet)
  | .array items => items.mapM Droplet.ofValue
  | _ => .error .malformed

def parseFile (text : String) : Except Droplet.ReadError (List Droplet) :=
  match Toml.Document.parse .strict text with
  | none => .error .malformed
  | some root =>
    match root.find? (·.1 = "droplet") with
    | none => .ok []
    | some (_, v) => dropletsOf v

def printTables : List Droplet → Option String
  | [] => some ""
  | [d] => (d.print?).map ("[[droplet]]\n" ++ ·)
  | d :: ds => do some ("[[droplet]]\n" ++ (← d.print?) ++ "\n" ++ (← printTables ds))

/-- The text of an inventory file; none if a droplet cannot be written. -/
def printFile? (ds : List Droplet) : Option String :=
  if ds.isEmpty then some "droplet = []\n" else printTables ds

/-- Adds droplets, first one first, up to one that is refused. -/
def addDroplets (inv : Inventory) (f : Fleet) (now : Nat) :
    List Droplet → Fleet × Inventory × Option InventoryError
  | [] => (f, inv, none)
  | d :: ds =>
    match inv.addDroplet f d now with
    | (f, .ok (_, inv)) => inv.addDroplets f now ds
    | (f, .error e) => (f, inv, some e)

/-- Reads an inventory file and creates a backend for every droplet in it. If one is refused, those
already created are closed. -/
def load (t : FileTree) (p : FilePath) (ctx : Backend.Context) (f : Fleet) (now : Nat) :
    Fleet × Except InventoryError Inventory :=
  match t.read p with
  | .error e => (f, .error (.unreadable p e))
  | .ok text =>
    match parseFile text with
    | .error e => (f, .error (.malformed p e))
    | .ok ds =>
      match (empty ctx).addDroplets f now ds with
      | (f, inv, none) => (f, .ok inv)
      | (f, inv, some e) => (inv.close f, .error e)

def write (inv : Inventory) (f : Fleet) (t : FileTree) (p : FilePath) :
    Except InventoryError FileTree :=
  match printFile? (inv.droplets f) with
  | none => .error .unprintable
  | some text =>
    match t.write p text with
    | .ok t => .ok t
    | .error e => .error (.unwritable p e)

/-- Writes the droplets of an inventory to a file while holding a lock against shutdown. -/
def save (inv : Inventory) (f : Fleet) (t : FileTree) (p : FilePath) (c : Shutdown.Coordinator) :
    Shutdown.Coordinator × Except InventoryError FileTree :=
  match c.tryLock with
  | none => (c, .error .shuttingDown)
  | some c => (c.release, inv.write f t p)

end ReverseProxy.Inventory
