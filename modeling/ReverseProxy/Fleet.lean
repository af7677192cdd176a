import ReverseProxy.Backend

/-!
# Fleets

A fleet holds every backend that was ever created, each under a handle of its own. Inventories name
their members by handle, so that a backend which has left its inventory still gets the requests
accounted that set out before.
-/

namespace ReverseProxy

abbrev Handle := Nat

structure Fleet where
  backends : List Backend := []
  shuttingDown : Bool := false

namespace Fleet

def get? (f : Fleet) (h : Handle) : Option Backend := f.backends[h]?

def update (f : Fleet) (h : Handle) (g : Backend → Backend) : Fleet :=
  { f with backends := f.backends.modify h g }

def add (f : Fleet) (b : Backend) : Handle × Fleet :=
  (f.backends.length, { f with backends := f.backends ++ [b.settle f.shuttingDown] })

def create (f : Fleet) (d : Backend.Description) (ctx : Backend.Context) (now : Nat) :
    Except Backend.CreateError (Handle × Fleet) := do
  return f.add (← Backend.create d ctx now)

def close (f : Fleet) (h : Handle) : Fleet := f.update h Backend.close

def closeAll (f : Fleet) (hs : List Handle) : Fleet := hs.foldl close f

/-- Shutdown begins: monitors that are to stop then stop, those waiting for an answer after it. -/
def shutDown (f : Fleet) : Fleet :=
  { backends := f.backends.map (·.settle true), shuttingDown := true }

def beginCycle (f : Fleet) (h : Handle) (now : Nat) : Fleet := f.update h (·.beginCycle now)

def endCycle (f : Fleet) (h : Handle) (outcome : Http.Outcome Http.Status) : Fleet :=
  f.update h fun b => (b.endCycle outcome).settle f.shuttingDown

def select (f : Fleet) (hs : List Handle) : List Backend := hs.filterMap f.get?

end Fleet

end ReverseProxy
