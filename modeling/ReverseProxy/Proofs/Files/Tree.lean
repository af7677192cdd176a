import ReverseProxy.Files.Tree

/-!
# Files written and read

What has been written to a path is read from it, and whether a path can be written to does not
depend on the text.
-/

namespace ReverseProxy.FileTree

variable {t : FileTree} {l : Location} {text : String}

theorem textAt_setText_of_ne (t : FileTree) {l' : Location} (h : l' ≠ l) (text : String) :
    (t.setText l text).textAt l' = t.textAt l' := by
  unfold textAt setText
  dsimp only
  split
  · congr 1
    induction t.files with
    | nil => rfl
    | cons f files ih =>
        by_cases hf : f.1 = l
        · simpa [hf, List.find?_cons, h.symm] using ih
        · by_cases hf' : f.1 = l'
          · simp [hf', h]
          · simpa [hf, hf', List.find?_cons] using ih
  · simp [List.find?_append, h.symm]

/-- Whether a text can be written where a path leads to: to a file, or under a free name unless the
path ends in a slash. -/
def LeadsTo (slash : Bool) (l : Location) (r : Except FileError Place) : Prop :=
  (∃ old, r = .ok (.file l old)) ∨ (slash = false ∧ r = .ok (.vacant l))

theorem LeadsTo.inside {slash : Bool} {ps : List PathPart} {dir : Location}
    {inside : Except FileError Place} (h : LeadsTo slash l (walk.descend t ps dir inside)) :
    t.hasDirectory dir = true ∧ LeadsTo slash l inside := by
  unfold walk.descend at h
  split at h
  · rename_i hdir
    exact ⟨hdir, h⟩
  · split at h
    · rcases h with ⟨old, h⟩ | ⟨-, h⟩ <;> cases h
    · rcases h with ⟨old, h⟩ | ⟨-, h⟩ <;> cases h

/-- At a name that is no directory, only the end of a path leads to what can be written. -/
theorem leadsTo_last {slash : Bool} {ps : List PathPart} {at_ : Location}
    (h : LeadsTo slash l (match t.textAt at_ with
      | some text => if ps.isEmpty && !slash then .ok (.file at_ text) else .error .notDirectory
      | none => if ps.isEmpty then .ok (.vacant at_) else .error .notFound)) :
    l = at_ ∧ ps.isEmpty = true ∧ slash = false := by
  cases htext : t.textAt at_ with
  | some old =>
      simp only [htext] at h
      split at h
      · rename_i hlast
        rcases h with ⟨old', h⟩ | ⟨-, h⟩ <;> cases h
        simpa using hlast
      · rcases h with ⟨old', h⟩ | ⟨-, h⟩ <;> cases h
  | none =>
      simp only [htext] at h
      split at h
      · rename_i hend
        rcases h with ⟨old', h⟩ | ⟨hslash, h⟩
        · cases h
        · cases h
          exact ⟨rfl, hend, hslash⟩
      · rcases h with ⟨old', h⟩ | ⟨-, h⟩ <;> cases h

theorem write_of_leadsTo {p : FilePath} (h : LeadsTo p.endsInSlash l (t.find p))
    (text : String) : t.write p text = .ok (t.setText l text) := by
  rcases h with ⟨old, h⟩ | ⟨hslash, h⟩
  · rw [write, h]
    rfl
  · rw [write, h]
    simp [Bind.bind, Except.bind, hslash]

theorem walk_of_setText {slash : Bool} {dir : Location} {ps : List PathPart} {l' : Location}
    {old : String} (hne : l' ≠ l)
    (h : (t.setText l text).walk slash dir ps = .ok (.file l' old)) :
    t.walk slash dir ps = .ok (.file l' old) := by
  have hinside {ps : List PathPart} {at_ : Location} {inside : Except FileError Place}
      (h : walk.descend (t.setText l text) ps at_ inside = .ok (.file l' old)) :
      t.hasDirectory at_ = true ∧ inside = .ok (.file l' old) := by
    rw [walk.descend] at h
    split at h
    · rename_i hdir
      exact ⟨hdir, h⟩
    · split at h
      · cases h
      · cases h
  induction ps generalizing dir with
  | nil => cases h
  | cons p ps ih =>
      cases p with
      | here =>
          rw [walk] at h ⊢
          exact ih h
      | root =>
          rw [walk] at h ⊢
          obtain ⟨hdir, hin⟩ := hinside h
          rw [walk.descend, if_pos hdir]
          exact ih hin
      | parent =>
          rw [walk] at h ⊢
          obtain ⟨hdir, hin⟩ := hinside h
          rw [walk.descend, if_pos hdir]
          exact ih hin
      | name n =>
          rw [walk] at h ⊢
          by_cases hdir : t.hasDirectory (dir ++ [n]) = true
          · have hdir' : (t.setText l text).hasDirectory (dir ++ [n]) = true := hdir
            simp only [hdir', if_true] at h
            simp only [hdir, if_true]
            exact ih h
          · have hdir' : ¬ (t.setText l text).hasDirectory (dir ++ [n]) = true := hdir
            rw [if_neg hdir'] at h
            obtain ⟨hlast, -, -⟩ := leadsTo_last (.inl ⟨old, h⟩)
            rw [← hlast, textAt_setText_of_ne t hne] at h
            rw [if_neg hdir, ← hlast]
            exact h

/-- Where a file is found after a text has been put elsewhere, it was before. -/
theorem find_of_setText {p : FilePath} {l' : Location} {old : String} (hne : l' ≠ l)
    (h : (t.setText l text).find p = .ok (.file l' old)) : t.find p = .ok (.file l' old) := by
  unfold find at h ⊢
  split at h
  · cases h
  · rename_i hempty
    rw [if_neg hempty]
    exact walk_of_setText hne h

theorem read_eq_ok {p : FilePath} : t.read p = .ok text ↔ ∃ l, t.find p = .ok (.file l text) := by
  rw [read]
  cases t.find p with
  | error e => simp [Bind.bind, Except.bind]
  | ok place => cases place <;> simp [Bind.bind, Except.bind]

end ReverseProxy.FileTree
