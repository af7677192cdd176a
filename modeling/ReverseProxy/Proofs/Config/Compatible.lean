import ReverseProxy.Config.Validation

/-!
# Settings that may replace others

A reload accepts settings that are valid and agree with the current ones in everything that is fixed
while the proxy runs. Agreement is an equivalence, so it carries over from one reload to the next.
-/

namespace ReverseProxy

/-! ## Paths -/

theorem FilePath.same_iff {p q : FilePath} : p.same q ↔ p.parts = q.parts := by
  simp [FilePath.same]

theorem FilePath.same_refl (p : FilePath) : p.same p := FilePath.same_iff.mpr rfl

theorem FilePath.same.trans {p q r : FilePath} (hpq : p.same q) (hqr : q.same r) : p.same r := by
  rw [FilePath.same_iff] at *
  exact hpq.trans hqr

theorem FilePath.sameOption_iff {p q : Option FilePath} :
    FilePath.sameOption p q ↔ p.map FilePath.parts = q.map FilePath.parts := by
  cases p with
  | none => cases q <;> simp [FilePath.sameOption]
  | some p =>
      cases q with
      | none => simp [FilePath.sameOption]
      | some q => simp [FilePath.sameOption, FilePath.same]

theorem FilePath.sameOption_refl (p : Option FilePath) : FilePath.sameOption p p :=
  FilePath.sameOption_iff.mpr rfl

theorem FilePath.sameOption.symm {p q : Option FilePath} (h : FilePath.sameOption p q) :
    FilePath.sameOption q p := by
  rw [FilePath.sameOption_iff] at *
  exact h.symm

theorem FilePath.sameOption.trans {p q r : Option FilePath} (hpq : FilePath.sameOption p q)
    (hqr : FilePath.sameOption q r) : FilePath.sameOption p r := by
  rw [FilePath.sameOption_iff] at *
  exact hpq.trans hqr

namespace Settings

/-! ## Fixed settings -/

/-- Agreement in all that may not change while the proxy runs; files are compared as paths. -/
structure SameFixed (s t : Settings) : Prop where
  watchConfig : s.watchConfig = t.watchConfig
  bind : s.bind = t.bind
  https : s.https = t.https
  certificate : FilePath.sameOption s.certificate t.certificate
  privateKey : FilePath.sameOption s.privateKey t.privateKey

theorem SameFixed.refl (s : Settings) : SameFixed s s :=
  ⟨rfl, rfl, rfl, FilePath.sameOption_refl _, FilePath.sameOption_refl _⟩

theorem SameFixed.symm {s t : Settings} (h : SameFixed s t) : SameFixed t s where
  watchConfig := h.watchConfig.symm
  bind := h.bind.symm
  https := h.https.symm
  certificate := FilePath.sameOption.symm h.certificate
  privateKey := FilePath.sameOption.symm h.privateKey

theorem SameFixed.trans {s t u : Settings} (h : SameFixed s t) (h' : SameFixed t u) :
    SameFixed s u where
  watchConfig := h.watchConfig.trans h'.watchConfig
  bind := h.bind.trans h'.bind
  https := h.https.trans h'.https
  certificate := FilePath.sameOption.trans h.certificate h'.certificate
  privateKey := FilePath.sameOption.trans h.privateKey h'.privateKey

theorem fixedChange?_eq_none_iff {s t : Settings} : s.fixedChange? t = none ↔ SameFixed s t := by
  constructor
  · intro h
    unfold fixedChange? at h
    split at h <;> try contradiction
    split at h <;> try contradiction
    split at h <;> try contradiction
    split at h <;> try contradiction
    split at h <;> try contradiction
    constructor <;> simp_all
  · intro h
    simp [fixedChange?, h.watchConfig, h.bind, h.https, h.certificate, h.privateKey]

theorem validateReload_eq_ok_iff {s t : Settings} {names : Net.Names} :
    s.validateReload t names = .ok () ↔ t.validate names = .ok () ∧ SameFixed s t := by
  rw [← fixedChange?_eq_none_iff]
  unfold validateReload
  cases hv : t.validate names with
  | error e => simp [Bind.bind, Except.bind]
  | ok u =>
      cases hc : s.fixedChange? t with
      | none => simp [Bind.bind, Except.bind]
      | some f => simp [Bind.bind, Except.bind]

/-! ## Settings that need no new backends -/

theorem needsNewBackends_eq_false_iff {s t : Settings} : s.needsNewBackends t = false ↔
    s.inventoryFile.same t.inventoryFile ∧ s.strategy = t.strategy ∧ s.backend = t.backend := by
  simp [needsNewBackends, and_assoc]

/-- Settings that differ at most in the forwarded address, in the time that a shutdown may take, and
in how paths are spelled. -/
structure NearlySame (s t : Settings) : Prop where
  rest : t = { s with
    addForwardedFor := t.addForwardedFor, shutdownTimeout := t.shutdownTimeout
    certificate := t.certificate, privateKey := t.privateKey, inventoryFile := t.inventoryFile }
  certificate : FilePath.sameOption s.certificate t.certificate
  privateKey : FilePath.sameOption s.privateKey t.privateKey
  inventoryFile : s.inventoryFile.same t.inventoryFile

/-- What is neither fixed nor a matter of the backends is one of two settings. -/
theorem SameFixed.nearlySame {s t : Settings} (h : SameFixed s t)
    (hn : s.needsNewBackends t = false) : NearlySame s t := by
  obtain ⟨hfile, hstrategy, hbackend⟩ := needsNewBackends_eq_false_iff.mp hn
  refine ⟨?_, h.certificate, h.privateKey, hfile⟩
  rw [h.watchConfig, h.bind, h.https, hstrategy, hbackend]

end Settings

end ReverseProxy
