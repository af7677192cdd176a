import ReverseProxy.Watch.Watcher

/-!
# Operations that a watcher notices

A watched file gets new contents when something is created or written under its name, or when
something else is moved there. A watcher notices these operations, and of all others only those that
move the file away from its name to another one in the same directory, because such a move is reported
with both names (`cares_iff`). So nothing is ever reported of operations that are neither
(`run?_unreported`). `run?_renamed` is about a move that is.
-/

namespace ReverseProxy

namespace FileOperation

/-- Whether an operation may give new contents to the file at a location: it creates it, writes it, or
moves something else there. -/
def Renews (t : FileTree) (l : Location) : FileOperation → Prop
  | write p _ =>
    l = FileTree.locationOf p ∨
      (l ∈ FileTree.ancestors (FileTree.locationOf p) ∧ t.hasDirectory l = false)
  | remove _ => False
  | rename p q => ∃ m ∈ t.moveOf? p q, m.2 = l ∧ m.1 ≠ l

/-- Whether an operation moves what is at a location to another name in the same directory. -/
def RenamesWithin (t : FileTree) (l : Location) : FileOperation → Prop
  | rename p q => ∃ m ∈ t.moveOf? p q, m.1 = l ∧ m.2 ≠ l ∧ m.2.dropLast = l.dropLast
  | write .. | remove _ => False

instance (t : FileTree) (l : Location) (op : FileOperation) : Decidable (op.Renews t l) :=
  match op with
  | write .. => inferInstanceAs (Decidable (_ ∨ _))
  | remove _ => inferInstanceAs (Decidable False)
  | rename p q => inferInstanceAs (Decidable (∃ m ∈ t.moveOf? p q, _))

instance (t : FileTree) (l : Location) (op : FileOperation) : Decidable (op.RenamesWithin t l) :=
  match op with
  | rename p q => inferInstanceAs (Decidable (∃ m ∈ t.moveOf? p q, _))
  | write .. | remove _ => inferInstanceAs (Decidable False)

end FileOperation

namespace Watch

open FileOperation (reportOf)

namespace Watcher

/-- Where the file is looked for that is watched; nowhere outside the tree. -/
def target? (w : Watcher) : Option Location := w.directory.map (· ++ [w.name])

variable {t : FileTree} {w : Watcher} {d l : Location}

/-! ## Single reports -/

/-- A location is spelled by its directory and its name, which is not empty. -/
theorem spells_iff {name : String} (hname : name ≠ "") :
    d = l.dropLast ∧ l.getLast?.getD "" = name ↔ d ++ [name] = l := by
  constructor
  · rintro ⟨rfl, hlast⟩
    cases l.eq_nil_or_concat with
    | inl hnil =>
        subst hnil
        exact absurd hlast.symm hname
    | inr hconcat =>
        obtain ⟨front, last, rfl⟩ := hconcat
        simpa using hlast.symm
  · rintro rfl
    simp

section Reports

variable {event : String → DirectoryEvent}

theorem cares_ignored (hevent : ∀ n, concerns w.name (event n) = false) :
    w.cares (reportOf l event) = false := by
  simp [cares, reportOf, hevent]

variable (hd : w.directory = some d) (hname : w.name ≠ "")
include hd hname

theorem cares_named (hevent : ∀ n, concerns w.name (event n) = decide (n = w.name)) :
    w.cares (reportOf l event) = true ↔ d ++ [w.name] = l := by
  rw [← spells_iff hname]
  simp [cares, reportOf, hevent, hd]

/-- A report with two names counts for both. -/
theorem cares_moved {a : Location} (hdir : a.dropLast = l.dropLast) :
    w.cares (reportOf l (.moved (a.getLast?.getD ""))) = true ↔
      d ++ [w.name] = a ∨ d ++ [w.name] = l := by
  rw [← spells_iff hname, ← spells_iff hname, hdir]
  simp [cares, reportOf, concerns, hd, and_or_left]

end Reports

/-! ## Operations -/

section Operations

variable (hd : w.directory = some d) (hname : w.name ≠ "")
include hd hname

theorem cares_write (p : FilePath) (text : String) :
    (∃ r ∈ FileOperation.reports t (.write p text), w.cares r = true) ↔
      FileOperation.Renews t (d ++ [w.name]) (.write p text) := by
  simp only [FileOperation.reports, FileOperation.writeReports, FileOperation.Renews,
    List.mem_append, List.mem_map, List.mem_filter, List.mem_singleton, Bool.not_eq_true']
  constructor
  · rintro ⟨r, (⟨l, ⟨hl, hmissing⟩, rfl⟩ | hcreated) | rfl, hr⟩
    · obtain rfl := (cares_named hd hname fun _ => rfl).mp hr
      exact .inr ⟨hl, hmissing⟩
    · split at hcreated
      · cases hcreated
      · obtain rfl := List.mem_singleton.mp hcreated
        exact .inl ((cares_named hd hname fun _ => rfl).mp hr)
    · exact .inl ((cares_named hd hname fun _ => rfl).mp hr)
  · rintro (hl | ⟨hl, hmissing⟩)
    · exact ⟨_, .inr rfl, (cares_named hd hname fun _ => rfl).mpr hl⟩
    · exact ⟨_, .inl (.inl ⟨_, ⟨hl, hmissing⟩, rfl⟩), (cares_named hd hname fun _ => rfl).mpr rfl⟩

theorem cares_move {a b : Location} :
    (∃ r ∈ FileOperation.moveReports a b, w.cares r = true) ↔
      (b = d ++ [w.name] ∧ a ≠ b) ∨ (a = d ++ [w.name] ∧ b ≠ a ∧ b.dropLast = a.dropLast) := by
  unfold FileOperation.moveReports
  split
  · rename_i hsame
    simp [hsame]
  · rename_i hmoved
    simp only [List.mem_append, List.mem_cons, List.not_mem_nil, or_false]
    constructor
    · rintro ⟨r, (rfl | rfl) | hboth, hr⟩
      · rw [cares_ignored fun _ => rfl] at hr
        cases hr
      · exact .inl ⟨((cares_named hd hname fun _ => rfl).mp hr).symm, hmoved⟩
      · split at hboth
        · rename_i hdir
          obtain rfl := List.mem_singleton.mp hboth
          rcases (cares_moved hd hname hdir).mp hr with ha | hb
          · exact .inr ⟨ha.symm, Ne.symm hmoved, hdir.symm⟩
          · exact .inl ⟨hb.symm, hmoved⟩
        · cases hboth
    · rintro (⟨hb, -⟩ | ⟨ha, -, hdir⟩)
      · exact ⟨_, .inl (.inr rfl), (cares_named hd hname fun _ => rfl).mpr hb.symm⟩
      · refine ⟨_, .inr ?_, (cares_moved hd hname hdir.symm).mpr (.inl ha.symm)⟩
        rw [if_pos hdir.symm]
        exact List.mem_singleton.mpr rfl

/-- What is noticed: whatever may give the file new contents, and a move of the file to another name
in its directory. -/
theorem cares_iff (op : FileOperation) :
    (∃ r ∈ op.reports t, w.cares r = true) ↔
      op.Renews t (d ++ [w.name]) ∨ op.RenamesWithin t (d ++ [w.name]) := by
  cases op with
  | write p text => simpa [FileOperation.RenamesWithin] using cares_write hd hname p text
  | remove p =>
      simp only [FileOperation.reports, FileOperation.Renews, FileOperation.RenamesWithin, or_self,
        iff_false]
      rintro ⟨r, hmem, hr⟩
      cases hfile : t.fileAt? p with
      | none => simp [hfile] at hmem
      | some l =>
          obtain rfl : r = reportOf l .removed := by simpa [hfile] using hmem
          rw [cares_ignored fun _ => rfl] at hr
          cases hr
  | rename p q =>
      simp only [FileOperation.reports, FileOperation.Renews, FileOperation.RenamesWithin]
      cases hmove : t.moveOf? p q with
      | none => simp
      | some move =>
          obtain ⟨a, b⟩ := move
          simp only [Option.map_some, Option.getD_some, cares_move hd hname, Option.mem_def,
            Option.some.injEq]
          grind

end Operations

/-! ## Watchers -/

theorem fileName?_ne_empty {p : FilePath} {name : String} (h : p.fileName? = some name) :
    name ≠ "" := by
  have hlast : PathPart.name name ∈ p.parts := by
    unfold FilePath.fileName? at h
    split at h
    · rename_i hname
      cases h
      exact List.mem_of_getLast? hname
    · cases h
  have hpiece : name ∈ p.pieces := by
    have hnamed : PathPart.name name ∈ (p.pieces.filter (· ≠ ".")).map FilePath.partOf := by
      unfold FilePath.parts at hlast
      dsimp only at hlast
      split at hlast
      · simpa using hlast
      · split at hlast
        · simpa using hlast
        · exact hlast
    obtain ⟨piece, hpiece, hpart⟩ := List.mem_map.mp hnamed
    unfold FilePath.partOf at hpart
    split at hpart
    · cases hpart
    · cases hpart
      exact (List.mem_filter.mp hpiece).1
  obtain ⟨cs, hcs, rfl⟩ := List.mem_map.mp hpiece
  have hne : cs ≠ [] := by simpa using (List.mem_filter.mp hcs).2
  simpa using hne

theorem name_of_install {p : FilePath} (h : install t p = .ok w) :
    w.name ≠ "" ∧ w.debouncer = {} := by
  unfold install at h
  split at h
  · cases h
  · rename_i name hname
    have hne := fileName?_ne_empty hname
    split at h
    · cases h
      exact ⟨hne, rfl⟩
    · cases h
      exact ⟨hne, rfl⟩
    · cases h
      exact ⟨hne, rfl⟩
    · cases h
    · cases h

/-- An operation that is not noticed changes nothing but perhaps the place of the directory. -/
theorem observe_unnoticed {op : FileOperation} (now : Nat)
    (h : ∀ r ∈ op.reports t, w.cares r = false) :
    w.observe t op now = { w with directory := w.directory.map fun l => op.follow t l } := by
  have hnone : (op.reports t).filter w.cares = [] :=
    List.filter_eq_nil_iff.mpr fun r hr => by simp [h r hr]
  rw [observe, notice, hnone]
  rfl

end Watcher

/-! ## Reports -/

namespace Lookout

inductive Event
  | operate (op : FileOperation)
  /-- Somebody begins to wait for a change. -/
  | listen
  | report
  /-- Whoever waits gives up. -/
  | abandon

/-- An operation, with the files that it was done to and where the watched one was looked for. -/
structure Done where
  tree : FileTree
  target : Option Location
  op : FileOperation
deriving DecidableEq

/-- Whether an operation is one that a watcher does not notice. -/
def Done.Spares (d : Done) : Prop :=
  ∀ l ∈ d.target, ¬ d.op.Renews d.tree l ∧ ¬ d.op.RenamesWithin d.tree l

end Lookout

/-- A watcher on a clock, with the files. What was done and reported comes newest first. -/
structure Lookout where
  tree : FileTree
  watcher : Watcher
  now : Nat := 0
  done : List Lookout.Done := []
  reports : List Nat := []
deriving DecidableEq

namespace Lookout

variable {s s' : Lookout}

def start (t : FileTree) (w : Watcher) : Lookout := { tree := t, watcher := w }

/-- What follows at once; none if it cannot happen. -/
def step? (s : Lookout) : Event → Option Lookout
  | .operate op => (op.perform? s.tree).map fun tree =>
    { s with
      tree
      watcher := s.watcher.observe s.tree op s.now
      done := ⟨s.tree, s.watcher.target?, op⟩ :: s.done }
  | .listen => some { s with watcher := s.watcher.update (·.listen s.now) }
  | .report =>
    match s.watcher.debouncer.dueTime? with
    | some t =>
      if t ≤ s.now then
        some { s with watcher := s.watcher.update (·.report), reports := s.now :: s.reports }
      else none
    | none => none
  | .abandon => some { s with watcher := s.watcher.update (·.abandon) }

/-- Lets events happen, each at its time; none if one of them cannot. -/
def run? (s : Lookout) : List (Nat × Event) → Option Lookout
  | [] => some s
  | (t, e) :: es =>
    if s.now ≤ t then (step? { s with now := t } e).bind (·.run? es) else none

/-- A wait is what a watcher does at once, with nothing between its beginning and its end. -/
theorem run?_await {limit : Nat} (hidle : s.watcher.debouncer.phase = .idle)
    (hlimit : s.now ≤ limit) :
    s.run? ((s.now, .listen) :: match (s.watcher.await s.now limit).1 with
      | some t => [(t, .report)]
      | none => [(limit, .abandon)]) =
    some { s with
      watcher := (s.watcher.await s.now limit).2
      now := (s.watcher.await s.now limit).1.getD limit
      reports := (s.watcher.await s.now limit).1.toList ++ s.reports } := by
  have hdue : ∀ t, (s.watcher.debouncer.listen s.now).dueTime? = some t → s.now ≤ t := by
    intro t ht
    unfold Debouncer.listen at ht
    rw [hidle] at ht
    dsimp only at ht
    split at ht
    · cases ht
      exact Nat.le_add_right _ _
    · cases ht
  unfold Watcher.await Watcher.update
  dsimp only
  cases hd : (s.watcher.debouncer.listen s.now).dueTime? with
  | none => simp [run?, step?, Watcher.update, hlimit]
  | some t =>
      have ht := hdue t hd
      by_cases hle : t ≤ limit
      · simp [run?, step?, Watcher.update, hd, hle, ht]
      · simp [run?, step?, Watcher.update, hle, hlimit]

/-! ### The invariant -/

/-- Nobody has been told of a change, and nobody will be unless there is one. -/
structure Still (s : Lookout) : Prop where
  named : s.watcher.name ≠ ""
  pending : s.watcher.debouncer.pending = false
  settled : s.watcher.debouncer.dueTime? = none
  unreported : s.reports = []

theorem still_start {t : FileTree} {p : FilePath} {w : Watcher} (h : Watcher.install t p = .ok w) :
    Still (start t w) := by
  obtain ⟨hname, hdebouncer⟩ := Watcher.name_of_install h
  refine ⟨hname, ?_, ?_, rfl⟩
  · rw [start, hdebouncer]
  · rw [start, hdebouncer]
    rfl

/-- What is spared is not noticed. -/
theorem Done.Spares.cares {d : Done} {w : Watcher} (hspares : d.Spares)
    (htarget : d.target = w.target?) (hname : w.name ≠ "") :
    ∀ r ∈ d.op.reports d.tree, w.cares r = false := by
  intro r hr
  cases hd : w.directory with
  | none => simp [Watcher.cares, hd]
  | some l =>
      obtain ⟨hrenews, hwithin⟩ := hspares (l ++ [w.name]) (by simp [htarget, Watcher.target?, hd])
      refine Bool.eq_false_iff.mpr fun hcares => ?_
      have hnoticed := (Watcher.cares_iff hd hname d.op).mp ⟨r, hr, hcares⟩
      exact hnoticed.elim hrenews hwithin

/-- Whoever begins to wait finds no change if there was none. -/
theorem listen_of_still {b : Debouncer} (hpending : b.pending = false) (hdue : b.dueTime? = none)
    (now : Nat) : (b.listen now).pending = false ∧ (b.listen now).dueTime? = none := by
  obtain ⟨pending, phase⟩ := b
  cases hpending
  cases phase with
  | idle => exact ⟨rfl, rfl⟩
  | waiting => exact ⟨rfl, rfl⟩
  | settling t => cases hdue

theorem Still.later (h : Still s) (t : Nat) : Still { s with now := t } :=
  ⟨h.named, h.pending, h.settled, h.unreported⟩

theorem Still.step {e : Event} (h : Still s) (he : s.step? e = some s')
    (hspares : ∀ d ∈ s'.done, d.Spares) : Still s' := by
  cases e with
  | operate op =>
      obtain ⟨tree, -, rfl⟩ := Option.map_eq_some_iff.mp he
      have hunnoticed := Watcher.observe_unnoticed s.now
        ((hspares _ List.mem_cons_self).cares rfl h.named)
      dsimp only at hunnoticed
      refine ⟨?_, ?_, ?_, h.unreported⟩
      · rw [hunnoticed]
        exact h.named
      · rw [hunnoticed]
        exact h.pending
      · rw [hunnoticed]
        exact h.settled
  | listen =>
      cases he
      obtain ⟨hpending, hsettled⟩ := listen_of_still h.pending h.settled s.now
      exact ⟨h.named, hpending, hsettled, h.unreported⟩
  | report => simp [step?, h.settled] at he
  | abandon =>
      cases he
      exact ⟨h.named, h.pending, rfl, h.unreported⟩

theorem done_step? {e : Event} (he : s.step? e = some s') : s.done ⊆ s'.done := by
  cases e with
  | operate op =>
      obtain ⟨tree, -, rfl⟩ := Option.map_eq_some_iff.mp he
      exact List.subset_cons_self _ _
  | listen | abandon =>
      cases he
      exact List.Subset.refl _
  | report =>
      simp only [step?] at he
      split at he
      · obtain ⟨-, he⟩ := Option.ite_none_right_eq_some.mp he
        cases he
        exact List.Subset.refl _
      · cases he

/-- As long as everything done so far is spared, nothing is reported. -/
theorem still_run? {es : List (Nat × Event)} (h : (∀ d ∈ s.done, d.Spares) → Still s)
    (hrun : s.run? es = some s') : (∀ d ∈ s'.done, d.Spares) → Still s' := by
  induction es generalizing s with
  | nil =>
      cases hrun
      exact h
  | cons e es ih =>
      obtain ⟨t, e⟩ := e
      simp only [run?] at hrun
      obtain ⟨-, hrun⟩ := Option.ite_none_right_eq_some.mp hrun
      obtain ⟨s₁, he, hrun⟩ := Option.bind_eq_some_iff.mp hrun
      refine ih (fun hspares => ?_) hrun
      have hstill : Still s := h fun d hd => hspares d (done_step? he hd)
      exact (hstill.later t).step he hspares

/-! ### Every sequence of operations -/

/-- Whatever is done to the files and whenever somebody waits: as long as no operation may give the
watched file new contents or moves it to another name in its directory, no change is reported. So
removals never are, nor moves out of the directory. -/
theorem run?_unreported {t : FileTree} {p : FilePath} {w : Watcher} {es : List (Nat × Event)}
    (hinstall : Watcher.install t p = .ok w) (hrun : (start t w).run? es = some s)
    (hspares : ∀ d ∈ s.done, ∀ l ∈ d.target,
      ¬ d.op.Renews d.tree l ∧ ¬ d.op.RenamesWithin d.tree l) :
    s.reports = [] :=
  (still_run? (fun _ => still_start hinstall) hrun hspares).unreported

/-- The file is moved out of its directory, others are moved about, and the directory itself is
renamed while somebody waits. -/
theorem run?_unreported_moved :
    let t := FileTree.ofFiles [("d/c.toml", "a"), ("d/e.toml", "b"), ("f/g", "")]
    let w : Watcher := { path := ⟨"d/c.toml"⟩, name := "c.toml", directory := some ["d"] }
    let es : List (Nat × Event) :=
      [(0, .listen), (1, .operate (.rename ⟨"d/c.toml"⟩ ⟨"f/c.toml"⟩)),
        (2, .operate (.rename ⟨"d/e.toml"⟩ ⟨"d/h.toml"⟩)), (3, .operate (.rename ⟨"d"⟩ ⟨"c.toml"⟩)),
        (4, .operate (.remove ⟨"c.toml/h.toml"⟩)), (5, .operate (.write ⟨"c.toml/new"⟩ "x")),
        (900000, .abandon)]
    Watcher.install t ⟨"d/c.toml"⟩ = .ok w ∧ ∃ s, (start t w).run? es = some s ∧
      s.done.length = 5 ∧ s.watcher.target? = some ["c.toml", "c.toml"] ∧
      (∀ d ∈ s.done, ∀ l ∈ d.target,
        ¬ d.op.Renews d.tree l ∧ ¬ d.op.RenamesWithin d.tree l) ∧ s.reports = [] := by
  intro t w es
  have hinstall : Watcher.install t ⟨"d/c.toml"⟩ = .ok w := rfl
  have hview : ((start t w).run? es).any (fun s => s.done.length = 5 ∧
      s.watcher.target? = some ["c.toml", "c.toml"] ∧ ∀ d ∈ s.done, ∀ l ∈ d.target,
        ¬ d.op.Renews d.tree l ∧ ¬ d.op.RenamesWithin d.tree l) = true := by decide +kernel
  obtain ⟨s, hrun, hview⟩ := (Option.any_eq_true _ _).mp hview
  obtain ⟨hdone, htarget, hspares⟩ := of_decide_eq_true hview
  exact ⟨hinstall, s, hrun, hdone, htarget, hspares, run?_unreported hinstall hrun hspares⟩

/-- A file is moved to another name in its directory, and nothing else is done. A change is
reported though the file is gone and nothing has come in its place. -/
theorem run?_renamed :
    let t := FileTree.ofFiles [("config.toml", "a")]
    let w : Watcher := { path := ⟨"config.toml"⟩, name := "config.toml", directory := some [] }
    let es : List (Nat × Event) :=
      [(0, .listen), (1, .operate (.rename ⟨"config.toml"⟩ ⟨"config.bak"⟩)), (250001, .report)]
    Watcher.install t ⟨"config.toml"⟩ = .ok w ∧ ∃ s, (start t w).run? es = some s ∧
      (∀ d ∈ s.done, ∀ l ∈ d.target, ¬ d.op.Renews d.tree l) ∧
      s.tree.exists? ⟨"config.toml"⟩ = false ∧ s.reports = [250001] := by
  intro t w es
  have hview : ((start t w).run? es).any (fun s =>
      (∀ d ∈ s.done, ∀ l ∈ d.target, ¬ d.op.Renews d.tree l) ∧
        s.tree.exists? ⟨"config.toml"⟩ = false ∧ s.reports = [250001]) = true := by decide +kernel
  obtain ⟨s, hrun, hview⟩ := (Option.any_eq_true _ _).mp hview
  exact ⟨rfl, s, hrun, of_decide_eq_true hview⟩

end Lookout

end Watch

end ReverseProxy
