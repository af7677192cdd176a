import ReverseProxy.Inventory.File
import ReverseProxy.Proofs.Shutdown.Waiting

/-!
# Saving and the lock against shutdown

A save that is granted its lock gives it back however it ends, and only a save that succeeds changes
the files.
-/

namespace ReverseProxy.Inventory

/-- The tree after a write. -/
def treeAfter (t : FileTree) : Except InventoryError FileTree → FileTree
  | .ok t' => t'
  | .error _ => t

/-- Why a write failed, if it did. -/
def failureOf : Except InventoryError FileTree → Option InventoryError
  | .ok _ => none
  | .error e => some e

variable {c : Shutdown.Coordinator} (inv : Inventory) (f : Fleet) (t : FileTree) (p : FilePath)

theorem save_of_shuttingDown (h : c.locks.shuttingDown = true) :
    inv.save f t p c = (c, .error .shuttingDown) := by
  simp [save, Shutdown.Coordinator.tryLock_of_shuttingDown h]

/-- However the write ends, the lock has been given back. -/
theorem save_of_running (h : c.locks.shuttingDown = false) :
    inv.save f t p c = (c, inv.write f t p) := by
  simp [save, Shutdown.Coordinator.tryLock_of_running h, Shutdown.Coordinator.release,
    Shutdown.Locks.release]

end ReverseProxy.Inventory
