import Mathlib.Data.List.Basic
import ReverseProxy.Inventory.File
import ReverseProxy.Proofs.Fleet

/-!
# Members of an inventory

The members of an inventory are backends of its fleet, their ids are distinct, and each of them
keeps its description while the fleet grows. Every operation on inventories keeps this, and droplets
that are accepted and have ids of their own can all be added.
-/

namespace ReverseProxy.Inventory

open Backend (Description)

/-! ## Descriptions -/

section Descriptions

variable (inv : Inventory) (f : Fleet)

/-- The descriptions of the members, in order. -/
def descriptions : List Description := inv.members.filterMap (f.descriptions[·]?)

theorem map_description_backends :
    (inv.backends f).map (·.description) = inv.descriptions f := by
  simp only [backends, Fleet.select, descriptions, List.map_filterMap, Fleet.get?_description]

theorem ids_eq : inv.ids f = (inv.descriptions f).map (·.id) := by
  rw [← map_description_backends, List.map_map]
  rfl

theorem droplets_eq : inv.droplets f = (inv.descriptions f).filterMap (·.droplet?) := by
  rw [← map_description_backends, List.filterMap_map]
  rfl

theorem hasId_eq (h : Handle) (id : String) :
    hasId f h id = (f.descriptions[h]?).any (·.id = id) := by
  rw [← Fleet.get?_description, hasId]
  cases f.get? h <;> rfl

theorem find?_isSome_iff (id : String) : (inv.find? f id).isSome = true ↔ id ∈ inv.ids f := by
  rw [find?, List.find?_isSome, ids_eq]
  simp only [hasId_eq, descriptions, List.mem_map, List.mem_filterMap, Option.any_eq_true,
    decide_eq_true_eq]
  constructor
  · rintro ⟨h, hh, d, hd, hid⟩
    exact ⟨d, ⟨h, hh, hd⟩, hid⟩
  · rintro ⟨d, ⟨h, hh, hd⟩, hid⟩
    exact ⟨h, hh, d, hd, hid⟩

end Descriptions

/-! ## The invariant -/

/-- An inventory whose members are backends of a fleet, with distinct ids. -/
structure Sound (inv : Inventory) (f : Fleet) : Prop where
  members : ∀ h ∈ inv.members, h < f.descriptions.length
  ids : (inv.ids f).Nodup

variable {inv inv' : Inventory} {f f' : Fleet} {h : Handle} {d : Description}

theorem descriptions_grows (hm : ∀ h ∈ inv.members, h < f.descriptions.length) (hg : f.Grows f') :
    inv.descriptions f' = inv.descriptions f :=
  List.filterMap_congr fun h hh => hg.getElem? (hm h hh)

theorem Sound.grows (hs : Sound inv f) (hg : f.Grows f') : Sound inv f' where
  members := fun h hh => Nat.lt_of_lt_of_le (hs.members h hh) hg.length_le
  ids := by
    rw [ids_eq, descriptions_grows hs.members hg, ← ids_eq]
    exact hs.ids

theorem Sound.get?_isSome (hs : Sound inv f) (hh : h ∈ inv.members) : (f.get? h).isSome = true := by
  rw [← Option.isSome_map (f := (·.description)), Fleet.get?_description]
  simpa using hs.members h hh

theorem Sound.nodup_members (hs : Sound inv f) : inv.members.Nodup := by
  have hids := hs.ids
  rw [ids_eq, descriptions, List.map_filterMap, List.Nodup, List.pairwise_filterMap] at hids
  refine hids.imp_of_mem fun hh _ hne heq => ?_
  have hid := congrArg (Option.map (·.id)) (List.getElem?_eq_getElem (hs.members _ hh))
  exact hne _ hid _ (heq ▸ hid) rfl

theorem sound_empty (ctx : Backend.Context) (f : Fleet) : Sound (empty ctx) f :=
  ⟨by simp [empty], List.nodup_nil⟩

/-! ## Adding -/

/-- An inventory with one more member. -/
def push (inv : Inventory) (h : Handle) : Inventory := { inv with members := inv.members ++ [h] }

theorem descriptions_push (hd : f.descriptions[h]? = some d) :
    (inv.push h).descriptions f = inv.descriptions f ++ [d] := by
  simp [descriptions, push, hd]

theorem Sound.push (hs : Sound inv f) (hd : f.descriptions[h]? = some d)
    (hnew : d.id ∉ inv.ids f) : Sound (inv.push h) f where
  members := by
    intro i hi
    rcases List.mem_append.mp hi with hi | hi
    · exact hs.members i hi
    · rw [List.mem_singleton.mp hi]
      exact (List.getElem?_eq_some_iff.mp hd).1
  ids := by
    rw [ids_eq, descriptions_push hd, List.map_append, ← ids_eq, List.map_singleton]
    refine List.nodup_append.mpr ⟨hs.ids, by simp, fun id hid id' hid' heq => hnew ?_⟩
    rwa [← List.mem_singleton.mp hid', ← heq]

theorem append_eq (hd : f.descriptions[h]? = some d) :
    inv.append f h = if d.id ∈ inv.ids f then .error (.duplicateId d.id) else .ok (inv.push h) := by
  have hid : ((f.get? h).map (·.id)).getD "" = d.id := by
    rw [← Fleet.get?_description] at hd
    obtain ⟨b, hb, rfl⟩ := Option.map_eq_some_iff.mp hd
    rw [hb]
    rfl
  simp only [append, hid, find?_isSome_iff]
  rfl

/-- What adding a description came to: a new member, or an error that is no wonder, and in any case
a fleet that has grown. -/
inductive Added (inv : Inventory) (f : Fleet) (d : Description) :
    Fleet × Except InventoryError (Handle × Inventory) → Prop
  | added {f' : Fleet} {h : Handle} (grows : f.Grows f') (sound : Sound (inv.push h) f')
      (last : (inv.push h).descriptions f' = inv.descriptions f ++ [d]) :
      Added inv f d (f', .ok (h, inv.push h))
  | refused {f' : Fleet} {e : InventoryError} (grows : f.Grows f')
      (reason : d.check = .ok () → d.id ∈ inv.ids f) : Added inv f d (f', .error e)

theorem added_add (hs : Sound inv f) (ha : d.check = .ok () → d.Accepted) (now : Nat) :
    Added inv f d (inv.add f d now) := by
  cases hd : d.check with
  | error e =>
      have hadd : inv.add f d now = (f, .error (.backend e)) := by
        simp [add, Fleet.create, Backend.create, hd, Bind.bind, Except.bind]
      rw [hadd]
      exact .refused (.refl f) (by simp [hd])
  | ok u =>
      obtain ⟨f', hcreate, heq⟩ := f.create_of_check hd inv.context now
      have hgrows : f.Grows f' := ⟨[d], heq, by simpa using ha hd⟩
      have hnew : f'.descriptions[f.backends.length]? = some d := by
        have hlength : f.backends.length = f.descriptions.length := (List.length_map _).symm
        rw [heq, hlength, List.getElem?_concat_length]
      have hsame := descriptions_grows hs.members hgrows
      have hids : inv.ids f' = inv.ids f := by rw [ids_eq, ids_eq, hsame]
      by_cases hid : d.id ∈ inv.ids f
      · simp only [add, hcreate, append_eq hnew, hids, hid, if_true]
        exact .refused (hgrows.trans (f'.grows_close _)) fun _ => hid
      · simp only [add, hcreate, append_eq hnew, hids, hid, if_false]
        refine .added hgrows ((hs.grows hgrows).push hnew (hids ▸ hid)) ?_
        rw [descriptions_push hnew, hsame]

theorem added_addDroplet (hs : Sound inv f) (d : Droplet) (now : Nat) :
    Added inv f (.ofDroplet d) (inv.addDroplet f d now) := by
  by_cases hid : (Description.ofDroplet d).id ∈ inv.ids f
  · have hfind := (find?_isSome_iff inv f _).mpr hid
    simp only [addDroplet, hfind, if_true]
    exact .refused (.refl f) fun _ => hid
  · have hfind : ¬ (inv.find? f (Description.ofDroplet d).id).isSome = true := fun h =>
      hid ((find?_isSome_iff inv f _).mp h)
    simp only [addDroplet, hfind]
    exact added_add hs Description.Accepted.ofDroplet now

/-! ## Adding several -/

theorem addDroplets_grows (hs : Sound inv f) (ds : List Droplet) (now : Nat) :
    f.Grows (inv.addDroplets f now ds).1 ∧
      Sound (inv.addDroplets f now ds).2.1 (inv.addDroplets f now ds).1 := by
  induction ds generalizing inv f with
  | nil => exact ⟨.refl f, hs⟩
  | cons d ds ih =>
      have hadded := added_addDroplet hs d now
      rw [addDroplets]
      generalize inv.addDroplet f d now = r at hadded
      cases hadded with
      | added grows sound last =>
          obtain ⟨hgrows, hsound⟩ := ih sound
          exact ⟨grows.trans hgrows, hsound⟩
      | refused grows reason => exact ⟨grows, hs.grows grows⟩

/-- Droplets that are accepted and have ids of their own are all added. -/
theorem addDroplets_of_new {ds : List Droplet} {now : Nat} (hs : Sound inv f)
    (hcheck : ∀ d ∈ ds, (Description.ofDroplet d).check = .ok ())
    (hids : (inv.ids f ++ (ds.map Description.ofDroplet).map (·.id)).Nodup) :
    ∃ f' inv', inv.addDroplets f now ds = (f', inv', none) ∧
      inv'.descriptions f' = inv.descriptions f ++ ds.map .ofDroplet := by
  induction ds generalizing inv f with
  | nil => exact ⟨f, inv, rfl, by simp⟩
  | cons d ds ih =>
      obtain ⟨hd, hds⟩ := List.forall_mem_cons.mp hcheck
      -- With an id of its own, a checked droplet leaves no reason for a refusal.
      have hnew : (Description.ofDroplet d).id ∉ inv.ids f := fun hmem =>
        (List.nodup_append.mp hids).2.2 _ hmem _ (List.mem_cons_self ..) rfl
      have hadded := added_addDroplet hs d now
      rw [addDroplets]
      generalize inv.addDroplet f d now = r at hadded
      cases hadded with
      | @added f₁ h grows sound last =>
          have hrest :
              ((inv.push h).ids f₁ ++ (ds.map Description.ofDroplet).map (·.id)).Nodup := by
            rw [ids_eq, last, List.map_append, ← ids_eq]
            simpa using hids
          obtain ⟨f', inv', hall, hdescriptions⟩ := ih sound hds hrest
          exact ⟨f', inv', hall, by simp [hdescriptions, last]⟩
      | refused grows reason => exact absurd (reason hd) hnew

/-! ## Removing and loading -/

theorem Sound.remove {id : String} (hs : Sound inv f)
    (hr : inv.remove f id = .ok (h, inv', f')) : f.Grows f' ∧ Sound inv' f' := by
  unfold Inventory.remove at hr
  split at hr
  · cases hr
  · cases hr
    refine ⟨f.grows_close _, Sound.grows ⟨?_, ?_⟩ (f.grows_close _)⟩
    · exact fun i hi => hs.members i (List.mem_of_mem_filter hi)
    · rw [ids_eq]
      refine List.Nodup.sublist ?_ hs.ids
      rw [ids_eq]
      exact (List.filter_sublist.filterMap _).map _

variable {t : FileTree} {p : FilePath} {ctx : Backend.Context} {now : Nat}

/-- Whatever a file holds, loading it lets the fleet grow, and what is loaded is sound. -/
theorem load_grows :
    f.Grows (load t p ctx f now).1 ∧
      ∀ inv, (load t p ctx f now).2 = .ok inv → Sound inv (load t p ctx f now).1 := by
  unfold load
  split
  · exact ⟨.refl f, fun _ h => by cases h⟩
  · split
    · exact ⟨.refl f, fun _ h => by cases h⟩
    · rename_i ds hds
      obtain ⟨hgrows, hsound⟩ := addDroplets_grows (sound_empty ctx f) ds now
      split
      · rename_i hadd
        rw [hadd] at hgrows hsound
        exact ⟨hgrows, fun _ h => by cases h; exact hsound⟩
      · rename_i hadd
        rw [hadd] at hgrows
        exact ⟨hgrows.trans (Fleet.grows_closeAll _ _), fun _ h => by cases h⟩

end ReverseProxy.Inventory
