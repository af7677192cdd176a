import ReverseProxy.Proofs.Files.Tree
import ReverseProxy.Proofs.Inventory.File
import ReverseProxy.Proofs.Inventory.Loading
import ReverseProxy.Proofs.Inventory.Members
import ReverseProxy.Proofs.Inventory.Saving

/-!
# Inventories that come back from their file

Whatever backends were created, added and removed and whatever was loaded before, saving an
inventory writes a file from which its droplets are loaded again, as long as their starts can be
written; if one of them cannot, nothing is written. A start in a leap second within a minute is read
back as the second after it.
-/

namespace ReverseProxy

/-- An inventory with the fleet of its backends. -/
structure Registry where
  fleet : Fleet := {}
  inventory : Inventory

namespace Registry

/-- What can be done with an inventory, and with backends that are not in it or not yet. -/
inductive Operation
  | createDroplet (d : Droplet) (ctx : Backend.Context) (now : Nat)
  | createEphemeral (id name host healthUrl : String) (ctx : Backend.Context) (now : Nat)
  | addBackend (h : Handle)
  | addDroplet (d : Droplet) (now : Nat)
  | remove (id : String)
  | load (t : FileTree) (p : FilePath) (ctx : Backend.Context) (now : Nat)
  | beginCycle (h : Handle) (now : Nat)
  | endCycle (h : Handle) (outcome : Http.Outcome Http.Status)

/-- A backend has been created, or refused. -/
def created (r : Registry) : Except Backend.CreateError (Handle × Fleet) → Registry
  | .ok (_, f) => { r with fleet := f }
  | .error _ => r

/-- A fleet has changed, and the inventory has unless there was an error. -/
def changed (r : Registry) (f : Fleet) : Except InventoryError Inventory → Registry
  | .ok inv => ⟨f, inv⟩
  | .error _ => { r with fleet := f }

/-- What follows. Only backends that exist can be added. -/
def step (r : Registry) : Operation → Registry
  | .createDroplet d ctx now => r.created (r.fleet.create (.ofDroplet d) ctx now)
  | .createEphemeral id name host healthUrl ctx now =>
    r.created (r.fleet.create (.ephemeral id name host healthUrl) ctx now)
  | .addBackend h =>
    if (r.fleet.get? h).isSome then r.changed r.fleet (r.inventory.append r.fleet h) else r
  | .addDroplet d now =>
    let (f, a) := r.inventory.addDroplet r.fleet d now
    r.changed f (a.map (·.2))
  | .remove id =>
    match r.inventory.remove r.fleet id with
    | .ok (_, inv, f) => ⟨f, inv⟩
    | .error _ => r
  | .load t p ctx now =>
    let (f, a) := Inventory.load t p ctx r.fleet now
    r.changed f a
  | .beginCycle h now => { r with fleet := r.fleet.beginCycle h now }
  | .endCycle h outcome => { r with fleet := r.fleet.endCycle h outcome }

/-- A sound inventory in a fleet of accepted backends. -/
structure Sound (r : Registry) : Prop where
  accepted : ∀ d ∈ r.fleet.descriptions, d.Accepted
  inventory : r.inventory.Sound r.fleet

variable {r : Registry} {f : Fleet}

theorem Sound.grown (hs : Sound r) (hg : r.fleet.Grows f) : Sound { r with fleet := f } :=
  ⟨hg.accepted hs.accepted, hs.inventory.grows hg⟩

theorem Sound.created {d : Backend.Description} {ctx : Backend.Context} {now : Nat} (hs : Sound r)
    (hd : d.check = .ok () → d.Accepted) : Sound (r.created (r.fleet.create d ctx now)) := by
  cases hc : r.fleet.create d ctx now with
  | error e => exact hs
  | ok c => exact hs.grown (Fleet.grows_create hd hc)

theorem Sound.changed {a : Except InventoryError Inventory} (hs : Sound r)
    (hg : r.fleet.Grows f) (ha : ∀ inv, a = .ok inv → inv.Sound f) : Sound (r.changed f a) := by
  cases a with
  | error e => exact hs.grown hg
  | ok inv => exact ⟨hg.accepted hs.accepted, ha inv rfl⟩

theorem Sound.addBackend (hs : Sound r) (h : Handle) : Sound (r.step (.addBackend h)) := by
  rw [step]
  split
  · rename_i hh
    obtain ⟨b, hb⟩ := Option.isSome_iff_exists.mp hh
    have hd : r.fleet.descriptions[h]? = some b.description := by
      rw [← Fleet.get?_description, hb]
      rfl
    rw [Inventory.append_eq hd]
    split
    · exact hs
    · rename_i hid
      exact ⟨hs.accepted, hs.inventory.push hd hid⟩
  · exact hs

theorem Sound.addDroplet (hs : Sound r) (d : Droplet) (now : Nat) :
    Sound (r.step (.addDroplet d now)) := by
  have hadded := Inventory.added_addDroplet hs.inventory d now
  rw [step]
  generalize r.inventory.addDroplet r.fleet d now = a at hadded
  cases hadded with
  | added grows sound last => exact hs.changed grows fun _ h => by cases h; exact sound
  | refused grows reason => exact hs.changed grows fun _ h => by cases h

theorem Sound.remove (hs : Sound r) (id : String) : Sound (r.step (.remove id)) := by
  rw [step]
  split
  · rename_i hr
    obtain ⟨hgrows, hsound⟩ := hs.inventory.remove hr
    exact ⟨hgrows.accepted hs.accepted, hsound⟩
  · exact hs

theorem Sound.load (hs : Sound r) (t : FileTree) (p : FilePath) (ctx : Backend.Context)
    (now : Nat) : Sound (r.step (.load t p ctx now)) := by
  obtain ⟨hgrows, hsound⟩ := Inventory.load_grows (t := t) (p := p) (f := r.fleet)
  exact hs.changed hgrows hsound

theorem Sound.step (hs : Sound r) (op : Operation) : Sound (r.step op) := by
  cases op with
  | createDroplet d ctx now => exact hs.created Backend.Description.Accepted.ofDroplet
  | createEphemeral id name host healthUrl ctx now =>
      exact hs.created Backend.Description.Accepted.ephemeral
  | addBackend h => exact hs.addBackend h
  | addDroplet d now => exact hs.addDroplet d now
  | remove id => exact hs.remove id
  | load t p ctx now => exact hs.load t p ctx now
  | beginCycle h now =>
      exact hs.grown (.of_eq (Fleet.descriptions_update (·.description_beginCycle now) _ h))
  | endCycle h outcome =>
      exact hs.grown (.of_eq (Fleet.descriptions_update
        (fun b => (Backend.description_settle _ _).trans (b.description_endCycle outcome)) _ h))

theorem map_ofDroplet {ds : List Backend.Description} (h : ∀ d ∈ ds, d.Accepted) :
    (ds.filterMap (·.droplet?)).map .ofDroplet = ds.filter (·.droplet?.isSome) := by
  induction ds with
  | nil => rfl
  | cons d ds ih =>
      obtain ⟨hd, hds⟩ := List.forall_mem_cons.mp h
      cases hdroplet : d.droplet? with
      | none => simpa [hdroplet] using ih hds
      | some droplet =>
          have heq := hd.2 droplet hdroplet
          simp only [List.filterMap_cons, hdroplet, List.map_cons, List.filter_cons,
            Option.isSome_some, if_true, ih hds, ← heq]

theorem Sound.descriptions (hs : Sound r) :
    ∀ d ∈ r.inventory.descriptions r.fleet, d.Accepted := by
  intro d hd
  obtain ⟨h, -, hh⟩ := List.mem_filterMap.mp hd
  exact hs.accepted d (List.mem_of_getElem? hh)

/-- The droplets of a sound inventory can all be added to an empty one as they come from a file. -/
theorem Sound.addDroplets (hs : Sound r) (ctx : Backend.Context) (f : Fleet) (now : Nat) :
    let saved := (r.inventory.droplets r.fleet).map (·.carryStart)
    ∃ f' inv', (Inventory.empty ctx).addDroplets f now saved = (f', inv', none) ∧
      inv'.descriptions f' = saved.map .ofDroplet := by
  intro saved
  -- Accepted descriptions follow from their droplets, so what the store held passes again.
  have hall := map_ofDroplet hs.descriptions
  rw [← Inventory.droplets_eq] at hall
  have hcheck : ∀ d ∈ saved, (Backend.Description.ofDroplet d).check = .ok () := by
    intro d hd
    obtain ⟨e, he, rfl⟩ := List.mem_map.mp hd
    have hmem := List.mem_map_of_mem (f := Backend.Description.ofDroplet) he
    rw [hall] at hmem
    exact (hs.descriptions _ (List.mem_of_mem_filter hmem)).1
  have hsame : (saved.map Backend.Description.ofDroplet).map (·.id) =
      ((r.inventory.droplets r.fleet).map Backend.Description.ofDroplet).map (·.id) := by
    simp only [saved, List.map_map]
    rfl
  have hids : (((Inventory.empty ctx).ids f) ++
      (saved.map Backend.Description.ofDroplet).map (·.id)).Nodup := by
    have hnodup := hs.inventory.ids
    rw [Inventory.ids_eq] at hnodup
    rw [hsame, hall]
    exact hnodup.sublist (List.filter_sublist.map _)
  obtain ⟨f', inv', hadd, hdescriptions⟩ :=
    Inventory.addDroplets_of_new (Inventory.sound_empty ctx f) hcheck hids
  exact ⟨f', inv', hadd, hdescriptions⟩

end Registry

end ReverseProxy
