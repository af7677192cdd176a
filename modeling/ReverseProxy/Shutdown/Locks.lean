/-!
# Locks against shutdown

Work that must not be cut short takes a lock. Locks are granted only until shutdown begins, so that
from then on their number can only fall.
-/

namespace ReverseProxy.Shutdown

/-- Whether shutdown has begun, and the number of locks held. -/
structure Locks where
  shuttingDown : Bool := false
  held : Nat := 0
deriving DecidableEq, Repr, Inhabited

namespace Locks

def trigger (l : Locks) : Option Locks :=
  if l.shuttingDown then none else some { l with shuttingDown := true }

/-- Takes a lock, if shutdown has not begun. -/
def take (l : Locks) : Option Locks :=
  if l.shuttingDown then none else some { l with held := l.held + 1 }

def release (l : Locks) : Locks := { l with held := l.held - 1 }

end Locks

end ReverseProxy.Shutdown
