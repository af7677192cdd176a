/-!
# Selection

The ways to choose one of several candidates: the next healthy one in turn, or the first of those
healthy ones with the least key.
-/

namespace ReverseProxy.Balancer

variable {α β : Type}

/-- The first index at or cyclically after the cursor whose candidate is healthy, and the cursor
after it. If there is none, the cursor goes once around. -/
def inTurn (healthy : α → Bool) (xs : List α) (cursor : Nat) : Option Nat × Nat :=
  let n := xs.length
  match ((List.range n).map fun k => (cursor + k) % n).find? fun i => xs[i]?.any healthy with
  | some i => (some i, (i + 1) % n)
  | none => (none, cursor % n)

/-- The better of two candidates: the second only if its key is below that of the first. -/
def better (below : β → β → Bool) (key : α → β) (best : Option α) (x : α) : Option α :=
  match best with
  | none => some x
  | some b => if below (key x) (key b) then some x else some b

/-- The first candidate with the least key. -/
def least (below : β → β → Bool) (key : α → β) (xs : List α) : Option α :=
  xs.foldl (better below key) none

end ReverseProxy.Balancer
