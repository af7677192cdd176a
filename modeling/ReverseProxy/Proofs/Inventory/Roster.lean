import Mathlib.Data.List.Nodup
import ReverseProxy.Proofs.Fleet.Monitors
import ReverseProxy.Proofs.Inventory.Loading

/-!
# Who is in an inventory

A roster is an inventory with what was added to it and removed from it so far. Whoever was added and
has not been removed since is a member, in the order of the additions, and is found under the id it
was added with.
-/

namespace ReverseProxy

/-- The id of a backend; empty if there is no such backend. -/
def Fleet.idOf (f : Fleet) (h : Handle) : String := ((f.get? h).map (·.id)).getD ""

namespace Inventory

inductive Change
  | added (h : Handle) (id : String)
  | removed (id : String)
deriving DecidableEq

/-- Who was added and has not been removed since, each with its id. The oldest change comes
first. -/
def present : List Change → List (Handle × String)
  | [] => []
  | .added h id :: cs => if .removed id ∈ cs then present cs else (h, id) :: present cs
  | .removed _ :: cs => present cs

theorem present_added (cs : List Change) (h : Handle) (id : String) :
    present (cs ++ [.added h id]) = present cs ++ [(h, id)] := by
  induction cs with
  | nil => simp [present]
  | cons c cs ih =>
      cases c with
      | removed id' => simp [present, ih]
      | added h' id' => by_cases hc : .removed id' ∈ cs <;> simp [present, ih, hc]

theorem present_removed (cs : List Change) (id : String) :
    present (cs ++ [.removed id]) = (present cs).filter (·.2 ≠ id) := by
  induction cs with
  | nil => simp [present]
  | cons c cs ih =>
      cases c with
      | removed id' => simpa [present] using ih
      | added h' id' =>
          by_cases hc : .removed id' ∈ cs
          · simpa [present, hc] using ih
          · by_cases hid : id' = id
            · subst hid
              simpa [present, hc] using ih
            · simpa [present, hc, hid] using ih

theorem present_map_added (hs : List Handle) (idOf : Handle → String) :
    present (hs.map fun h => .added h (idOf h)) = hs.map fun h => (h, idOf h) := by
  induction hs with
  | nil => rfl
  | cons h hs ih => simp [present, ih]

/-- An inventory with the changes so far, the oldest first. -/
structure Roster where
  inventory : Inventory
  changes : List Change := []

namespace Roster

def present (r : Roster) : List (Handle × String) := Inventory.present r.changes

def append (r : Roster) (f : Fleet) (h : Handle) : Except InventoryError Roster :=
  (r.inventory.append f h).map fun inv => ⟨inv, r.changes ++ [.added h (f.idOf h)]⟩

def remove (r : Roster) (f : Fleet) (id : String) :
    Except InventoryError (Handle × Roster × Fleet) :=
  (r.inventory.remove f id).map fun (h, inv, f) => (h, ⟨inv, r.changes ++ [.removed id]⟩, f)

/-- The members of an inventory as if they had been added one by one. -/
def ofMembers (inv : Inventory) (f : Fleet) : Roster :=
  ⟨inv, inv.members.map fun h => .added h (f.idOf h)⟩

variable {r r' : Roster} {f f' : Fleet} {h : Handle} {id : String} {d : Backend.Description}

theorem idOf_eq (hd : f.descriptions[h]? = some d) : f.idOf h = d.id := by
  rw [← Fleet.get?_description] at hd
  obtain ⟨b, hb, rfl⟩ := Option.map_eq_some_iff.mp hd
  rw [Fleet.idOf, hb]
  rfl

/-! ## The invariant -/

/-- Those who are present are the members, and the fleet knows them by the ids they were added
with. -/
structure Kept (r : Roster) (f : Fleet) : Prop where
  inventory : r.inventory.Sound f
  members : r.inventory.members = r.present.map (·.1)
  ids : ∀ e ∈ r.present, (f.descriptions[e.1]?).map (·.id) = some e.2

theorem Kept.grows (hk : Kept r f) (hg : f.Grows f') : Kept r f' where
  inventory := hk.inventory.grows hg
  members := hk.members
  ids := by
    intro e he
    have hmem : e.1 ∈ r.inventory.members := hk.members ▸ List.mem_map_of_mem he
    rw [hg.getElem? (hk.inventory.members e.1 hmem)]
    exact hk.ids e he

theorem kept_empty (ctx : Backend.Context) (f : Fleet) : Kept { inventory := .empty ctx } f :=
  ⟨sound_empty ctx f, rfl, by simp [present, Inventory.present]⟩

theorem Kept.ids_eq (hk : Kept r f) : r.inventory.ids f = r.present.map (·.2) := by
  rw [Inventory.ids_eq, descriptions, hk.members, List.filterMap_map, List.map_filterMap]
  refine (List.filterMap_congr hk.ids).trans ?_
  exact congrFun List.filterMap_eq_map _

theorem Kept.nodup (hk : Kept r f) : (r.present.map (·.2)).Nodup :=
  hk.ids_eq ▸ hk.inventory.ids

theorem Kept.hasId_iff (hk : Kept r f) {e : Handle × String} (he : e ∈ r.present) :
    hasId f e.1 id = true ↔ e.2 = id := by
  obtain ⟨d, hd, hid⟩ := Option.map_eq_some_iff.mp (hk.ids e he)
  simp [hasId_eq, hd, hid]

/-- Nobody is present under two ids, and no id is that of two. -/
theorem Kept.handle_eq_iff (hk : Kept r f) {e e' : Handle × String} (he : e ∈ r.present)
    (he' : e' ∈ r.present) : e.1 = e'.1 ↔ e.2 = e'.2 := by
  constructor
  · intro hh
    have hids := hk.ids e he
    rw [hh, hk.ids e' he'] at hids
    exact (Option.some.inj hids).symm
  · intro hid
    rw [List.inj_on_of_nodup_map hk.nodup he he' hid]

theorem Kept.nodup_members (hk : Kept r f) : r.inventory.members.Nodup := by
  rw [hk.members]
  refine hk.nodup.of_map.map_on fun e he e' he' hh => ?_
  exact Prod.ext hh ((hk.handle_eq_iff he he').mp hh)

theorem Kept.mem_of_find? (hk : Kept r f) (hf : r.inventory.find? f id = some h) :
    (h, id) ∈ r.present := by
  obtain ⟨e, he, rfl⟩ := List.mem_map.mp (hk.members ▸ List.mem_of_find?_eq_some hf)
  have hid : hasId f e.1 id = true := List.find?_some (p := fun h => hasId f h id) hf
  rwa [← (hk.hasId_iff he).mp hid]

theorem Kept.find?_iff (hk : Kept r f) :
    r.inventory.find? f id = some h ↔ (h, id) ∈ r.present := by
  refine ⟨hk.mem_of_find?, fun he => ?_⟩
  -- Somebody is found, and nobody else can be present under the id.
  have hsome : (r.inventory.find? f id).isSome = true := by
    rw [find?_isSome_iff, hk.ids_eq]
    exact List.mem_map_of_mem he
  obtain ⟨h', hf⟩ := Option.isSome_iff_exists.mp hsome
  have hh : h' = h := (hk.handle_eq_iff (hk.mem_of_find? hf) he).mpr rfl
  rw [hf, hh]

theorem append_eq (hd : f.descriptions[h]? = some d) :
    r.append f h = if d.id ∈ r.inventory.ids f then .error (.duplicateId d.id)
      else .ok ⟨r.inventory.push h, r.changes ++ [.added h d.id]⟩ := by
  rw [append, Inventory.append_eq hd, idOf_eq hd]
  split <;> rfl

theorem Kept.append (hk : Kept r f) (hd : f.descriptions[h]? = some d)
    (hr : r.append f h = .ok r') : Kept r' f := by
  rw [append_eq hd] at hr
  split at hr
  · cases hr
  · rename_i hid
    cases hr
    refine ⟨hk.inventory.push hd hid, ?_, fun e he => ?_⟩
    · simp [push, present, present_added, hk.members]
    · rw [present, present_added] at he
      rcases List.mem_append.mp he with he | he
      · exact hk.ids e he
      · rw [List.mem_singleton.mp he, hd]
        rfl

/-! ## Removing -/

/-- What the removal of an id does: who had it is taken out, and the others stay in their order. -/
structure Removed (r : Roster) (f : Fleet) (id : String) (h : Handle) (r' : Roster) (f' : Fleet) :
    Prop where
  found : r.inventory.find? f id = some h
  members : r'.inventory.members = r.inventory.members.erase h
  ids : r'.inventory.ids f' = (r.inventory.ids f).erase id
  gone : id ∉ r'.inventory.ids f'
  stopped : f'.monitored h = false

theorem remove_eq (hf : r.inventory.find? f id = some h) :
    r.remove f id = .ok (h,
      ⟨{ r.inventory with members := r.inventory.members.filter (· ≠ h) },
        r.changes ++ [.removed id]⟩, f.close h) := by
  rw [remove, Inventory.remove, hf]
  rfl

theorem find?_of_remove (hr : r.remove f id = .ok (h, r', f')) :
    r.inventory.find? f id = some h := by
  cases hf : r.inventory.find? f id with
  | none =>
      rw [remove, Inventory.remove, hf] at hr
      cases hr
  | some h' =>
      rw [remove_eq hf] at hr
      cases hr
      rfl

theorem Kept.remove (hk : Kept r f) (hr : r.remove f id = .ok (h, r', f')) :
    f' = f.close h ∧ Kept r' f' ∧ r'.present = r.present.filter (·.2 ≠ id) := by
  have hf := find?_of_remove hr
  have hpresent := hk.find?_iff.mp hf
  rw [remove_eq hf] at hr
  cases hr
  have hsound : (r.inventory.remove f id) = .ok (h,
      { r.inventory with members := r.inventory.members.filter (· ≠ h) }, f.close h) := by
    rw [Inventory.remove, hf]
  refine ⟨rfl, ⟨(hk.inventory.remove hsound).2, ?_, fun e he => ?_⟩, present_removed _ _⟩
  · rw [present, present_removed, ← present]
    simp only [hk.members, List.filter_map, Function.comp_def]
    refine congrArg _ (List.filter_congr fun e he => ?_)
    exact decide_eq_decide.mpr (not_congr (hk.handle_eq_iff he hpresent))
  · rw [present, present_removed] at he
    rw [Fleet.descriptions_close]
    exact hk.ids e (List.mem_of_mem_filter he)

theorem Kept.removed (hk : Kept r f) (hr : r.remove f id = .ok (h, r', f')) :
    Removed r f id h r' f' := by
  have hfind := find?_of_remove hr
  obtain ⟨hfleet, hk', hpresent⟩ := hk.remove hr
  have hids : r'.inventory.ids f' = (r.inventory.ids f).erase id := by
    rw [hk.inventory.ids.erase_eq_filter, hk'.ids_eq, hk.ids_eq, hpresent, List.filter_map]
    simp only [Function.comp_def, bne, beq_eq_decide, decide_not]
  refine ⟨hfind, ?_, hids, ?_, ?_⟩
  · rw [remove_eq hfind] at hr
    cases hr
    rw [hk.nodup_members.erase_eq_filter]
    simp only [bne, beq_eq_decide, decide_not]
  · rw [hids]
    exact hk.inventory.ids.not_mem_erase
  · rw [hfleet]
    exact f.monitored_close h

/-! ## Loading -/

theorem kept_ofMembers {inv : Inventory} (hs : inv.Sound f) : Kept (ofMembers inv f) f where
  inventory := hs
  members := by simp [ofMembers, present, present_map_added, Function.comp_def]
  ids := by
    intro e he
    rw [present, ofMembers, present_map_added] at he
    obtain ⟨h, hh, rfl⟩ := List.mem_map.mp he
    have hd := List.getElem?_eq_getElem (hs.members h hh)
    rw [hd, idOf_eq hd]
    rfl

end Roster

end Inventory

end ReverseProxy
