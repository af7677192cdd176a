import ReverseProxy.Proofs.Inventory.Members

/-!
# Loading an inventory

Loading puts a backend for each droplet of the file behind those of the fleet, in the order of the
file, and they become the members of a new inventory. If a droplet is refused, whatever was added is
closed. Either way the backends from before are as they were.
-/

namespace ReverseProxy

namespace Inventory

open Backend (Description)

/-- An inventory with more members behind its own. -/
def pushAll (inv : Inventory) (hs : List Handle) : Inventory :=
  { inv with members := inv.members ++ hs }

variable {inv : Inventory} {f : Fleet} {now : Nat}

/-! ## Adding droplets -/

/-- What adding a droplet does to the fleet: its backend comes last, or nothing was added that has
not been closed. -/
inductive Entered (inv : Inventory) (f : Fleet) (now : Nat) (d : Droplet) :
    Fleet × Except InventoryError (Handle × Inventory) → Prop
  | entered : Entered inv f now d
      (f.extend [f.backendFor inv.context now d],
        .ok (f.backends.length, inv.push f.backends.length))
  | refused {closed : List Backend} {e : InventoryError} (hclosed : ∀ b ∈ closed, b.monitor = none) :
      Entered inv f now d (f.extend closed, .error e)

theorem Entered.unchanged {d : Droplet} (e : InventoryError) :
    Entered inv f now d (f, .error e) := by
  have hrefused : Entered inv f now d (f.extend [], .error e) := .refused (by simp)
  rwa [Fleet.extend_nil] at hrefused

theorem entered_addDroplet (inv : Inventory) (f : Fleet) (now : Nat) (d : Droplet) :
    Entered inv f now d (inv.addDroplet f d now) := by
  simp only [addDroplet]
  split
  · exact .unchanged _
  · simp only [add]
    split
    · exact .unchanged _
    · rename_i hc
      obtain ⟨rfl, rfl⟩ := Prod.ext_iff.mp (Fleet.create_eq_add hc)
      split
      · rename_i happ
        simp only [append] at happ
        split at happ
        · cases happ
        · cases happ
          exact .entered
      · -- The backend that was created is closed again.
        have hclose := f.close_extend_first (f.backendFor inv.context now d) []
        refine (congrArg (fun f' => Entered inv f now d (f', _)) hclose).mpr (.refused ?_)
        simp [Backend.close]

/-- What adding droplets does to the fleet: their backends come last, in order, or those that were
added before one was refused are the members, and nothing else was added that has not been
closed. -/
inductive EnteredAll (inv : Inventory) (f : Fleet) (now : Nat) (ds : List Droplet) :
    Fleet × Inventory × Option InventoryError → Prop
  | all : EnteredAll inv f now ds
      (f.extend (ds.map (f.backendFor inv.context now)),
        inv.pushAll (List.range' f.backends.length ds.length), none)
  | some {started closed : List Backend} {e : InventoryError}
      (hclosed : ∀ b ∈ closed, b.monitor = none) : EnteredAll inv f now ds
      (f.extend (started ++ closed),
        inv.pushAll (List.range' f.backends.length started.length), some e)

theorem pushAll_push (inv : Inventory) (f : Fleet) (b : Backend) (n : Nat) :
    (inv.push f.backends.length).pushAll (List.range' (f.extend [b]).backends.length n) =
      inv.pushAll (List.range' f.backends.length (n + 1)) := by
  simp [push, pushAll, Fleet.extend, List.range'_succ]

theorem enteredAll_addDroplets (inv : Inventory) (f : Fleet) (now : Nat) (ds : List Droplet) :
    EnteredAll inv f now ds (inv.addDroplets f now ds) := by
  induction ds generalizing inv f with
  | nil =>
      have hall : EnteredAll inv f now [] (f.extend [], inv.pushAll [], none) := .all
      rwa [Fleet.extend_nil, pushAll, List.append_nil] at hall
  | cons d ds ih =>
      have hentered := entered_addDroplet inv f now d
      rw [addDroplets]
      generalize inv.addDroplet f d now = r at hentered
      cases hentered with
      | entered =>
          have hrest := ih (inv.push f.backends.length)
            (f.extend [f.backendFor inv.context now d])
          dsimp only
          generalize addDroplets _ _ now ds = r at hrest
          cases hrest with
          | all =>
              rw [Fleet.extend_extend, pushAll_push]
              exact .all
          | some hclosed =>
              rw [Fleet.extend_extend, ← List.append_assoc, pushAll_push]
              exact .some hclosed
      | @refused closed e hclosed =>
          have hsome : EnteredAll inv f now (d :: ds)
              (f.extend ([] ++ closed), inv.pushAll [], some e) := .some hclosed
          rwa [pushAll, List.append_nil] at hsome

/-! ## Loading a file -/

/-- What loading a file does: the members are new backends for its droplets, or every backend that
was added is closed. -/
inductive Loaded (t : FileTree) (p : FilePath) (ctx : Backend.Context) (f : Fleet) (now : Nat) :
    Fleet × Except InventoryError Inventory → Prop
  | loaded {text : String} {ds : List Droplet} (hread : t.read p = .ok text)
      (hparse : parseFile text = .ok ds) : Loaded t p ctx f now
      (f.extend (ds.map (f.backendFor ctx now)),
        .ok ⟨List.range' f.backends.length ds.length, ctx⟩)
  | refused {closed : List Backend} {e : InventoryError} (hclosed : ∀ b ∈ closed, b.monitor = none) :
      Loaded t p ctx f now (f.extend closed, .error e)

theorem Loaded.unchanged {t : FileTree} {p : FilePath} {ctx : Backend.Context}
    (e : InventoryError) : Loaded t p ctx f now (f, .error e) := by
  have hrefused : Loaded t p ctx f now (f.extend [], .error e) := .refused (by simp)
  rwa [Fleet.extend_nil] at hrefused

theorem loaded_load (t : FileTree) (p : FilePath) (ctx : Backend.Context) (f : Fleet) (now : Nat) :
    Loaded t p ctx f now (load t p ctx f now) := by
  unfold load
  split
  · exact .unchanged _
  · rename_i hread
    split
    · exact .unchanged _
    · rename_i hparse
      have hentered := enteredAll_addDroplets (empty ctx) f now ‹List Droplet›
      generalize addDroplets _ _ now _ = r at hentered
      cases hentered with
      | all => exact .loaded hread hparse
      | @some started closed e hclosed =>
          have hclose := f.closeAll_extend started closed
          refine (congrArg (fun f' => Loaded t p ctx f now (f', _)) hclose).mpr (.refused ?_)
          intro b hb
          rcases List.mem_append.mp hb with hb | hb
          · obtain ⟨b', -, rfl⟩ := List.mem_map.mp hb
            rfl
          · exact hclosed b hb

theorem load_context {t : FileTree} {p : FilePath} {ctx : Backend.Context} {f f' : Fleet}
    {now : Nat} {inv : Inventory} (hl : load t p ctx f now = (f', .ok inv)) :
    inv.context = ctx := by
  have hloaded := loaded_load t p ctx f now
  rw [hl] at hloaded
  cases hloaded with
  | loaded => rfl

/-! ## The members of a loaded inventory -/

theorem filterMap_getElem?_range' {α : Type} (xs ys : List α) :
    (List.range' xs.length ys.length).filterMap ((xs ++ ys)[·]?) = ys := by
  induction ys generalizing xs with
  | nil => rfl
  | cons y ys ih =>
      have hrest := ih (xs ++ [y])
      rw [List.length_append, List.length_singleton, List.append_assoc] at hrest
      rw [List.length_cons, List.range'_succ, List.filterMap_cons_some (b := y) (by simp)]
      exact congrArg (y :: ·) hrest

theorem descriptions_extend (f : Fleet) (ctx : Backend.Context) (now : Nat) (ds : List Droplet) :
    (f.extend (ds.map (f.backendFor ctx now))).descriptions =
      f.descriptions ++ ds.map .ofDroplet := by
  simp only [Fleet.descriptions, Fleet.extend, List.map_append, List.map_map,
    List.append_cancel_left_eq]
  exact List.map_congr_left fun d _ => Backend.description_settle _ _

/-- Backends created for droplets are described by them, in order. -/
theorem descriptions_created (f : Fleet) (ctx ctx' : Backend.Context) (now : Nat)
    (ds : List Droplet) :
    descriptions ⟨List.range' f.backends.length ds.length, ctx'⟩
        (f.extend (ds.map (f.backendFor ctx now))) = ds.map .ofDroplet := by
  have hmembers := filterMap_getElem?_range' f.descriptions (ds.map Backend.Description.ofDroplet)
  rw [List.length_map, Fleet.descriptions, List.length_map] at hmembers
  rw [descriptions, descriptions_extend]
  exact hmembers

/-! ## What a file lists -/

/-- Whether a text lists droplets that are all accepted. -/
structure Lists (text : String) (ds : List Droplet) : Prop where
  parse : parseFile text = .ok ds
  check : ∀ d ∈ ds, (Description.ofDroplet d).check = .ok ()
  ids : ((ds.map Description.ofDroplet).map (·.id)).Nodup

variable {t : FileTree} {p : FilePath} {text : String} {ds ds' : List Droplet}

theorem Lists.unique (h : Lists text ds) (h' : Lists text ds') : ds = ds' :=
  Except.ok.inj (h.parse.symm.trans h'.parse)

theorem load_of_lists (hread : t.read p = .ok text) (h : Lists text ds) (ctx : Backend.Context)
    (f : Fleet) (now : Nat) : ∃ f' inv, load t p ctx f now = (f', .ok inv) := by
  have hids : ((empty ctx).ids f ++ (ds.map Description.ofDroplet).map (·.id)).Nodup := h.ids
  obtain ⟨f', inv, hadd⟩ : ∃ f' inv, (empty ctx).addDroplets f now ds = (f', inv, none) := by
    obtain ⟨f', inv, hadd, -⟩ := addDroplets_of_new (sound_empty ctx f) h.check hids
    exact ⟨f', inv, hadd⟩
  exact ⟨f', inv, by simp only [load, hread, h.parse, hadd]⟩

theorem lists_of_load {ctx : Backend.Context} {f f' : Fleet} {inv : Inventory}
    (hl : load t p ctx f now = (f', .ok inv)) : ∃ text ds, t.read p = .ok text ∧ Lists text ds ∧
      inv.descriptions f' = ds.map .ofDroplet := by
  have hloaded := loaded_load t p ctx f now
  obtain ⟨hgrows, hsound⟩ : f.Grows (load t p ctx f now).1 ∧
      ∀ inv, (load t p ctx f now).2 = .ok inv → Sound inv (load t p ctx f now).1 := load_grows
  rw [hl] at hloaded hgrows hsound
  cases hloaded with
  | @loaded text ds hread hparse =>
      have hdescriptions := descriptions_created f ctx ctx now ds
      have hids := (hsound _ rfl).ids
      rw [ids_eq, hdescriptions] at hids
      refine ⟨text, ds, hread, ⟨hparse, fun d hd => ?_, hids⟩, hdescriptions⟩
      -- The descriptions of the members are among those that have been accepted.
      obtain ⟨added, hadded, haccepted⟩ := hgrows
      have hds := List.append_cancel_left ((descriptions_extend f ctx now ds).symm.trans hadded)
      exact (haccepted _ (hds ▸ List.mem_map_of_mem hd)).1

end Inventory

end ReverseProxy
