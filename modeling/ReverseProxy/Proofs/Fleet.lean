import Mathlib.Data.List.Basic
import ReverseProxy.Fleet

/-!
# What is known about the backends of a fleet

A backend keeps its description for good. So whatever happens to a fleet, the descriptions of its
backends are only added to, and each of them has been accepted.
-/

namespace ReverseProxy

namespace Backend

/-- What a backend was created from. -/
def description (b : Backend) : Description := ⟨b.id, b.kind, b.host, b.healthUrl⟩

namespace Description

/-- The droplet of a description that is saved. -/
def droplet? (d : Description) : Option Droplet :=
  match d.kind with
  | .droplet d => some d
  | .ephemeral _ => none

/-- Whether a backend can have that description: it has been checked, and if it is of a droplet, it
follows from the droplet. -/
def Accepted (d : Description) : Prop :=
  d.check = .ok () ∧ ∀ droplet, d.droplet? = some droplet → d = .ofDroplet droplet

theorem Accepted.ofDroplet {d : Droplet} (h : (ofDroplet d).check = .ok ()) :
    Accepted (.ofDroplet d) :=
  ⟨h, fun _ hd => by cases hd; rfl⟩

theorem Accepted.ephemeral {id name host url : String}
    (h : (Description.ephemeral id name host url).check = .ok ()) :
    Accepted (.ephemeral id name host url) :=
  ⟨h, fun _ hd => by cases hd⟩

end Description

theorem description_droplet? (b : Backend) : b.description.droplet? = b.droplet? := rfl

theorem description_settle (b : Backend) (shuttingDown : Bool) :
    (b.settle shuttingDown).description = b.description := by
  unfold settle
  split <;> rfl

theorem description_beginCycle (b : Backend) (now : Nat) :
    (b.beginCycle now).description = b.description := by
  unfold beginCycle
  split
  · rfl
  · split <;> rfl

theorem description_endCycle (b : Backend) (outcome : Http.Outcome Http.Status) :
    (b.endCycle outcome).description = b.description := by
  unfold endCycle
  split
  · rfl
  · split <;> rfl

end Backend

namespace Fleet

variable {f f' : Fleet} {h : Handle} {d : Backend.Description}

/-- The descriptions of all backends, by handle. -/
def descriptions (f : Fleet) : List Backend.Description := f.backends.map (·.description)

theorem get?_description (f : Fleet) (h : Handle) :
    (f.get? h).map (·.description) = f.descriptions[h]? := by
  simp [get?, descriptions]

theorem descriptions_update {g : Backend → Backend} (hg : ∀ b, (g b).description = b.description)
    (f : Fleet) (h : Handle) : (f.update h g).descriptions = f.descriptions := by
  refine List.ext_getElem? fun i => ?_
  simp only [descriptions, update, List.getElem?_map, List.getElem?_modify]
  cases f.backends[i]? with
  | none => rfl
  | some b =>
      split
      · exact congrArg some (hg b)
      · rfl

theorem descriptions_close (f : Fleet) (h : Handle) : (f.close h).descriptions = f.descriptions :=
  descriptions_update (fun b => (rfl : b.close.description = b.description)) f h

/-- What closing one backend keeps, closing several keeps. -/
theorem closeAll_keeps {β : Type} (view : Fleet → β) (hview : ∀ f h, view (close f h) = view f)
    (f : Fleet) (hs : List Handle) : view (f.closeAll hs) = view f := by
  induction hs generalizing f with
  | nil => rfl
  | cons h hs ih => exact (ih (f.close h)).trans (hview f h)

theorem descriptions_closeAll (f : Fleet) (hs : List Handle) :
    (f.closeAll hs).descriptions = f.descriptions :=
  closeAll_keeps descriptions descriptions_close f hs

theorem create_of_check (f : Fleet) (hd : d.check = .ok ()) (ctx : Backend.Context) (now : Nat) :
    ∃ f', f.create d ctx now = .ok (f.backends.length, f') ∧
      f'.descriptions = f.descriptions ++ [d] := by
  refine ⟨(f.add (Backend.start d ctx now)).2, ?_, ?_⟩
  · simp only [create, Backend.create, hd, Bind.bind, Except.bind]
    rfl
  · simp only [add, descriptions, List.map_append, List.map_singleton,
      Backend.description_settle]
    rfl

theorem check_of_create {ctx : Backend.Context} {now : Nat}
    (hc : f.create d ctx now = .ok (h, f')) : d.check = .ok () := by
  cases hd : d.check with
  | ok u => rfl
  | error e =>
      simp only [create, Backend.create, hd, Bind.bind, Except.bind] at hc
      cases hc

theorem create_eq_add {ctx : Backend.Context} {now : Nat}
    (hc : f.create d ctx now = .ok (h, f')) : f.add (Backend.start d ctx now) = (h, f') := by
  simp only [create, Backend.create, check_of_create hc, Bind.bind, Except.bind] at hc
  exact Except.ok.inj hc

theorem create_eq_ok {ctx : Backend.Context} {now : Nat} (hc : f.create d ctx now = .ok (h, f')) :
    d.check = .ok () ∧ h = f.backends.length ∧ f'.descriptions = f.descriptions ++ [d] := by
  have hcheck := check_of_create hc
  obtain ⟨f'', hcreate, hdescriptions⟩ := f.create_of_check hcheck ctx now
  rw [hcreate] at hc
  cases hc
  exact ⟨hcheck, rfl, hdescriptions⟩

/-! ## Growth -/

/-- From one fleet to a later one, accepted descriptions were added. -/
def Grows (f f' : Fleet) : Prop :=
  ∃ ds, f'.descriptions = f.descriptions ++ ds ∧ ∀ d ∈ ds, d.Accepted

theorem Grows.of_eq (h : f'.descriptions = f.descriptions) : f.Grows f' :=
  ⟨[], by rw [h, List.append_nil], by simp⟩

theorem Grows.refl (f : Fleet) : f.Grows f := .of_eq rfl

theorem Grows.trans {f'' : Fleet} (h : f.Grows f') (h' : f'.Grows f'') : f.Grows f'' := by
  obtain ⟨ds, heq, hds⟩ := h
  obtain ⟨ds', heq', hds'⟩ := h'
  refine ⟨ds ++ ds', by rw [heq', heq, List.append_assoc], fun d hd => ?_⟩
  rcases List.mem_append.mp hd with hd | hd
  · exact hds d hd
  · exact hds' d hd

theorem Grows.accepted (h : f.Grows f') (hf : ∀ d ∈ f.descriptions, d.Accepted) :
    ∀ d ∈ f'.descriptions, d.Accepted := by
  obtain ⟨ds, heq, hds⟩ := h
  intro d hd
  rw [heq] at hd
  rcases List.mem_append.mp hd with hd | hd
  · exact hf d hd
  · exact hds d hd

theorem Grows.getElem? (h : f.Grows f') {i : Handle} (hi : i < f.descriptions.length) :
    f'.descriptions[i]? = f.descriptions[i]? := by
  obtain ⟨ds, heq, -⟩ := h
  rw [heq, List.getElem?_append_left hi]

theorem Grows.length_le (h : f.Grows f') : f.descriptions.length ≤ f'.descriptions.length := by
  obtain ⟨ds, heq, -⟩ := h
  rw [heq, List.length_append]
  exact Nat.le_add_right _ _

theorem grows_close (f : Fleet) (h : Handle) : f.Grows (f.close h) :=
  .of_eq (f.descriptions_close h)

theorem grows_closeAll (f : Fleet) (hs : List Handle) : f.Grows (f.closeAll hs) :=
  .of_eq (f.descriptions_closeAll hs)

theorem grows_create {ctx : Backend.Context} {now : Nat} (hd : d.check = .ok () → d.Accepted)
    (hc : f.create d ctx now = .ok (h, f')) : f.Grows f' := by
  obtain ⟨hcheck, -, heq⟩ := create_eq_ok hc
  exact ⟨[d], heq, by simpa using hd hcheck⟩

/-! ## Backends one by one -/

theorem get?_update (f : Fleet) (h : Handle) (g : Backend → Backend) (i : Handle) :
    (f.update h g).get? i = (f.get? i).map fun b => if h = i then g b else b := by
  simp only [get?, update, List.getElem?_modify]
  split <;> simp

theorem get?_close (f : Fleet) (h i : Handle) :
    (f.close h).get? i = (f.get? i).map fun b => if h = i then b.close else b :=
  f.get?_update h Backend.close i

theorem get?_closeAll (f : Fleet) (hs : List Handle) (i : Handle) :
    (f.closeAll hs).get? i = (f.get? i).map fun b => if i ∈ hs then b.close else b := by
  induction hs generalizing f with
  | nil => simp [closeAll]
  | cons h hs ih =>
      rw [show f.closeAll (h :: hs) = (f.close h).closeAll hs from rfl, ih, get?_close,
        Option.map_map]
      congr 1
      funext b
      by_cases hh : h = i
      · subst hh
        by_cases hm : h ∈ hs <;> simp [hm, Backend.close]
      · simp [hh, Ne.symm hh]

/-- What is done to one backend does not show where it makes no difference. -/
theorem map_get?_update {β : Type} {view : Backend → β} {g : Backend → Backend}
    (hg : ∀ b, view (g b) = view b) (f : Fleet) (h i : Handle) :
    ((f.update h g).get? i).map view = (f.get? i).map view := by
  rw [get?_update, Option.map_map]
  congr 1
  funext b
  simp only [Function.comp_apply]
  split
  · exact hg b
  · rfl

theorem shuttingDown_closeAll (f : Fleet) (hs : List Handle) :
    (f.closeAll hs).shuttingDown = f.shuttingDown :=
  closeAll_keeps (·.shuttingDown) (fun _ _ => rfl) f hs

theorem length_closeAll (f : Fleet) (hs : List Handle) :
    (f.closeAll hs).backends.length = f.backends.length :=
  closeAll_keeps (·.backends.length) (fun _ _ => List.length_modify _ _ _) f hs

/-- Every backend of a fleet is in a later one just as it was. -/
def Untouched (f f' : Fleet) : Prop := ∀ h b, f.get? h = some b → f'.get? h = some b

theorem Untouched.refl (f : Fleet) : f.Untouched f := fun _ _ hb => hb

/-! ## More backends -/

/-- A fleet with more backends behind its own. -/
def extend (f : Fleet) (bs : List Backend) : Fleet := { f with backends := f.backends ++ bs }

/-- The backend that is created for a droplet. -/
def backendFor (f : Fleet) (ctx : Backend.Context) (now : Nat) (d : Droplet) : Backend :=
  (Backend.start (.ofDroplet d) ctx now).settle f.shuttingDown

theorem extend_nil (f : Fleet) : f.extend [] = f := by simp [extend]

theorem extend_extend (f : Fleet) (bs cs : List Backend) :
    (f.extend bs).extend cs = f.extend (bs ++ cs) := by
  simp [extend]

theorem get?_extend_of_lt (bs : List Backend) {i : Handle} (hi : i < f.backends.length) :
    (f.extend bs).get? i = f.get? i :=
  List.getElem?_append_left hi

theorem untouched_extend (f : Fleet) (bs : List Backend) : f.Untouched (f.extend bs) := by
  intro h b hb
  rw [get?_extend_of_lt bs (List.getElem?_eq_some_iff.mp hb).1]
  exact hb

theorem close_extend_first (f : Fleet) (b : Backend) (bs : List Backend) :
    (f.extend (b :: bs)).close f.backends.length = f.extend (b.close :: bs) := by
  simp [extend, close, update, List.modify_eq_set_getElem?]

theorem closeAll_extend (f : Fleet) (bs cs : List Backend) :
    (f.extend (bs ++ cs)).closeAll (List.range' f.backends.length bs.length) =
      f.extend (bs.map Backend.close ++ cs) := by
  induction bs generalizing f with
  | nil => rfl
  | cons b bs ih =>
      have hlength : (f.extend [b.close]).backends.length = f.backends.length + 1 := by
        simp [extend]
      have hrest := ih (f.extend [b.close])
      rw [extend_extend, extend_extend, hlength] at hrest
      rw [List.length_cons, List.range'_succ]
      change ((f.extend (b :: (bs ++ cs))).close _).closeAll _ = _
      rw [close_extend_first]
      exact hrest

end Fleet

end ReverseProxy
