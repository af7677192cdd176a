import ReverseProxy.Watch.Debouncer

/-!
# What is reported of changes

Changes leave a notice, of which there is one at most: a change that finds one leaves it at that.
Whoever waits takes the notice, rests for the quiet period, clears away what has come meanwhile,
and reports. Here these steps are taken one by one. Changes come at any time between them, every
step may come late, and after a report nobody may wait for any time. `run?_coalesced` says that no
change is lost, that none is invented, and that reports are a quiet period apart. A debouncer takes
several of the steps at once.
-/

namespace ReverseProxy.Watch

namespace Vigil

/-- Where whoever waits for changes stands. -/
inductive Stage
  | away
  | waiting
  | resting (until_ : Nat)
  | clearing
deriving DecidableEq, Repr

inductive Event
  | change
  | wait
  | take
  | wake
  | clear
  | report
deriving DecidableEq, Repr

inductive Entry
  | changed (time : Nat)
  | reported (time : Nat)
deriving DecidableEq, Repr

namespace Entry

def time : Entry → Nat
  | changed t | reported t => t

def report? : Entry → Option Nat
  | reported t => some t
  | changed _ => none

end Entry

/-- The entries after the last report, where the newest entry comes first. -/
def sinceReport (log : List Entry) : List Entry := log.takeWhile (·.report?.isNone)

def lastReport (log : List Entry) : Option Nat := log.findSome? Entry.report?

end Vigil

/-- A notice or none, and who waits for it. The log has the newest entry first. -/
structure Vigil where
  notice : Bool := false
  stage : Vigil.Stage := .away
  now : Nat := 0
  log : List Vigil.Entry := []
deriving DecidableEq, Repr

namespace Vigil

variable {s s' : Vigil} {t : Nat}

/-- What follows at once; none if it cannot happen. -/
def step? (s : Vigil) : Event → Option Vigil
  | .change => some { s with notice := true, log := .changed s.now :: s.log }
  | .wait => if s.stage = .away then some { s with stage := .waiting } else none
  | .take =>
    if s.stage = .waiting ∧ s.notice = true then
      some { s with notice := false, stage := .resting (s.now + quietPeriod) }
    else none
  | .wake =>
    match s.stage with
    | .resting until_ => if until_ ≤ s.now then some { s with stage := .clearing } else none
    | _ => none
  | .clear =>
    if s.stage = .clearing ∧ s.notice = true then some { s with notice := false } else none
  | .report =>
    if s.stage = .clearing ∧ s.notice = false then
      some { s with stage := .away, log := .reported s.now :: s.log }
    else none

/-- Lets events happen, each at its time; none if one of them cannot. -/
def run? (s : Vigil) : List (Nat × Event) → Option Vigil
  | [] => some s
  | (t, e) :: es =>
    if s.now ≤ t then (step? { s with now := t } e).bind (·.run? es) else none

/-! ## Several steps at once -/

/-- Where a debouncer stands. -/
def ofDebouncer (d : Debouncer) (now : Nat) (log : List Entry) : Vigil where
  notice := d.pending
  stage := match d.phase with
    | .idle => .away
    | .waiting => .waiting
    | .settling until_ => .resting until_
  now := now
  log := log

section Debouncer

variable {d : Debouncer} {now : Nat} {log : List Entry}

/-- A change that somebody waits for is taken at once. -/
theorem run?_notify (hd : d.phase = .waiting → d.pending = false) (ht : now ≤ t) :
    (ofDebouncer d now log).run?
        ((t, .change) :: if d.phase = .waiting then [(t, .take)] else []) =
      some (ofDebouncer (d.notify t) t (.changed t :: log)) := by
  obtain ⟨pending, phase⟩ := d
  cases phase with
  | idle => simp [run?, step?, ofDebouncer, Debouncer.notify, ht]
  | waiting =>
      have hpending : pending = false := hd rfl
      simp [run?, step?, ofDebouncer, Debouncer.notify, ht, hpending]
  | settling until_ => simp [run?, step?, ofDebouncer, Debouncer.notify, ht]

/-- A notice that is there is taken as soon as somebody waits. -/
theorem run?_listen (hd : d.phase = .idle) (ht : now ≤ t) :
    (ofDebouncer d now log).run? ((t, .wait) :: if d.pending then [(t, .take)] else []) =
      some (ofDebouncer (d.listen t) t log) := by
  obtain ⟨pending, phase⟩ := d
  cases hd
  cases pending with
  | true => simp [run?, step?, ofDebouncer, Debouncer.listen, ht]
  | false => simp [run?, step?, ofDebouncer, Debouncer.listen, ht]

/-- What has come meanwhile is cleared away with the report. -/
theorem run?_report {due : Nat} (hd : d.dueTime? = some due) (hdue : due ≤ t) (ht : now ≤ t) :
    (ofDebouncer d now log).run?
        ((t, .wake) :: (if d.pending then [(t, .clear)] else []) ++ [(t, .report)]) =
      some (ofDebouncer d.report t (.reported t :: log)) := by
  obtain ⟨pending, phase⟩ := d
  cases phase with
  | idle => cases hd
  | waiting => cases hd
  | settling until_ =>
      cases hd
      cases pending with
      | true => simp [run?, step?, ofDebouncer, Debouncer.report, ht, hdue]
      | false => simp [run?, step?, ofDebouncer, Debouncer.report, ht, hdue]

end Debouncer

/-! ## The invariant -/

/-- A change since the last report has left its notice, or somebody who will report has taken it;
and without a change there is neither. -/
structure Sound (s : Vigil) : Prop where
  sorted : s.log.Pairwise fun a b => b.time ≤ a.time
  past : ∀ e ∈ s.log, e.time ≤ s.now
  covered : ∀ t, .changed t ∈ sinceReport s.log → s.stage = .away ∨ s.stage = .waiting →
    s.notice = true
  founded : s.notice = true ∨ (s.stage ≠ .away ∧ s.stage ≠ .waiting) →
    ∃ t, .changed t ∈ sinceReport s.log
  resting : ∀ r until_, lastReport s.log = some r → s.stage = .resting until_ →
    r + quietPeriod ≤ until_
  clearing : ∀ r, lastReport s.log = some r → s.stage = .clearing → r + quietPeriod ≤ s.now
  reports : ∀ later r earlier, s.log = later ++ .reported r :: earlier →
    (∃ t, .changed t ∈ sinceReport earlier) ∧
      ∀ r', lastReport earlier = some r' → r' + quietPeriod ≤ r

theorem sound_initial : Sound {} where
  sorted := List.Pairwise.nil
  past := by simp
  covered := by simp [sinceReport]
  founded := by simp
  resting := by simp
  clearing := by simp
  reports := by simp

theorem Sound.later (h : Sound s) (ht : s.now ≤ t) : Sound { s with now := t } :=
  { h with
    past := fun e he => Nat.le_trans (h.past e he) ht
    clearing := fun r hr hs => Nat.le_trans (h.clearing r hr hs) ht }

theorem Sound.lastReport_le (h : Sound s) {r : Nat} (hr : lastReport s.log = some r) :
    r ≤ s.now := by
  obtain ⟨e, he, hre⟩ := List.exists_of_findSome?_eq_some hr
  cases e with
  | changed t => cases hre
  | reported t =>
      cases hre
      exact h.past _ he

theorem sinceReport_changed (t : Nat) (log : List Entry) :
    sinceReport (.changed t :: log) = .changed t :: sinceReport log := by
  simp [sinceReport, Entry.report?]

theorem lastReport_changed (t : Nat) (log : List Entry) :
    lastReport (.changed t :: log) = lastReport log := by
  simp [lastReport, Entry.report?, List.findSome?_cons]

theorem Sound.change (h : Sound s) :
    Sound { s with notice := true, log := .changed s.now :: s.log } where
  sorted := List.pairwise_cons.mpr ⟨h.past, h.sorted⟩
  past := List.forall_mem_cons.mpr ⟨Nat.le_refl _, h.past⟩
  covered _ _ _ := rfl
  founded _ := by
    rw [sinceReport_changed]
    exact ⟨s.now, List.mem_cons_self⟩
  resting r until_ hr hs := by
    rw [lastReport_changed] at hr
    exact h.resting r until_ hr hs
  clearing r hr hs := by
    rw [lastReport_changed] at hr
    exact h.clearing r hr hs
  reports later r earlier heq := by
    cases later with
    | nil => cases heq
    | cons e later =>
        obtain ⟨-, heq⟩ := List.cons.inj heq
        exact h.reports later r earlier heq

/-- The report itself is where what was known of the stage becomes known of the log. -/
theorem Sound.report (h : Sound s) (hs : s.stage = .clearing) (hn : s.notice = false) :
    Sound { s with stage := .away, log := .reported s.now :: s.log } where
  sorted := List.pairwise_cons.mpr ⟨h.past, h.sorted⟩
  past := List.forall_mem_cons.mpr ⟨Nat.le_refl _, h.past⟩
  covered := by simp [sinceReport, Entry.report?]
  founded hf := by simp [hn] at hf
  resting _ _ _ hr := by cases hr
  clearing _ _ hc := by cases hc
  reports later r earlier heq := by
    cases later with
    | nil =>
        obtain ⟨hr, rfl⟩ := List.cons.inj heq
        cases hr
        exact ⟨h.founded (.inr (by simp [hs])), fun r' hr' => h.clearing r' hr' hs⟩
    | cons e later =>
        obtain ⟨-, heq⟩ := List.cons.inj heq
        exact h.reports later r earlier heq

theorem Sound.step (h : Sound s) {e : Event} (he : s.step? e = some s') : Sound s' := by
  cases e with
  | change =>
      cases he
      exact h.change
  | wait =>
      simp only [step?] at he
      split at he
      · rename_i hs
        cases he
        exact { h with
          covered := fun t ht _ => h.covered t ht (.inl hs)
          founded := fun hf => h.founded (by simpa [hs] using hf)
          resting := fun _ _ _ hr => by cases hr
          clearing := fun _ _ hc => by cases hc }
      · cases he
  | take =>
      simp only [step?] at he
      split at he
      · rename_i hs
        cases he
        exact { h with
          covered := by simp
          founded := fun _ => h.founded (.inl hs.2)
          resting := fun r until_ hr hu => by
            cases hu
            exact Nat.add_le_add_right (h.lastReport_le hr) _
          clearing := fun _ _ hc => by cases hc }
      · cases he
  | wake =>
      simp only [step?] at he
      split at he
      · rename_i until_ hs
        split at he
        · rename_i hu
          cases he
          exact { h with
            covered := by simp
            founded := fun _ => h.founded (.inr (by simp [hs]))
            resting := fun _ _ _ hr => by cases hr
            clearing := fun r hr _ => Nat.le_trans (h.resting r until_ hr hs) hu }
        · cases he
      · cases he
  | clear =>
      simp only [step?] at he
      split at he
      · rename_i hs
        cases he
        exact { h with
          covered := fun _ _ ha => by simp [hs.1] at ha
          founded := fun _ => h.founded (.inl hs.2) }
      · cases he
  | report =>
      simp only [step?] at he
      split at he
      · rename_i hs
        cases he
        exact h.report hs.1 hs.2
      · cases he

theorem Sound.run {es : List (Nat × Event)} (h : Sound s) (hr : s.run? es = some s') :
    Sound s' := by
  induction es generalizing s with
  | nil =>
      cases hr
      exact h
  | cons e es ih =>
      obtain ⟨t, e⟩ := e
      simp only [run?] at hr
      split at hr
      · rename_i ht
        obtain ⟨s₁, he, hr⟩ := Option.bind_eq_some_iff.mp hr
        exact ih ((h.later ht).step he) hr
      · cases hr

/-! ## Changes and reports -/

/-- A change that is not among the entries since the last report came no later than it. -/
theorem changed_le_lastReport {log : List Entry}
    (hsorted : log.Pairwise fun a b => b.time ≤ a.time)
    (hnone : ∀ t, .changed t ∉ sinceReport log) (ht : .changed t ∈ log) :
    ∃ r, lastReport log = some r ∧ t ≤ r := by
  cases log with
  | nil => cases ht
  | cons e log =>
      cases e with
      | changed t' =>
          -- The newest entry would be a change since the last report.
          have hnew : .changed t' ∈ sinceReport (.changed t' :: log) := by
            rw [sinceReport_changed]
            exact List.mem_cons_self
          exact absurd hnew (hnone t')
      | reported r =>
          refine ⟨r, rfl, ?_⟩
          rcases List.mem_cons.mp ht with heq | hold
          · cases heq
          · exact (List.pairwise_cons.mp hsorted).1 _ hold

/-- Whatever the times of the changes and of the steps between them: when somebody waits and there is
no notice, every change so far came no later than the last report; before each report there was a
change since the one before; and that one was a quiet period earlier at least. -/
theorem run?_coalesced {es : List (Nat × Event)} (h : ({} : Vigil).run? es = some s) :
    (s.stage = .waiting → s.notice = false →
      ∀ t, .changed t ∈ s.log → ∃ r, lastReport s.log = some r ∧ t ≤ r) ∧
    ∀ later r earlier, s.log = later ++ .reported r :: earlier →
      (∃ t, .changed t ∈ sinceReport earlier) ∧
        ∀ r', lastReport earlier = some r' → r' + quietPeriod ≤ r := by
  have hs : Sound s := sound_initial.run h
  refine ⟨fun hwaiting hnotice t ht => ?_, hs.reports⟩
  refine changed_le_lastReport hs.sorted (fun t' ht' => ?_) ht
  have hnoticed := hs.covered t' ht' (.inr hwaiting)
  rw [hnotice] at hnoticed
  cases hnoticed

/-- A change at the very end of the rest, after what had come was cleared away, is reported next. -/
theorem run?_coalesced_late :
    let es : List (Nat × Event) :=
      [(0, .wait), (10, .change), (20, .take), (30, .change), (250020, .wake), (250020, .clear),
        (250020, .report), (250020, .change), (250025, .wait), (250030, .take), (500030, .wake),
        (500040, .report), (600000, .wait)]
    let log : List Entry :=
      [.reported 500040, .changed 250020, .reported 250020, .changed 30, .changed 10]
    ({} : Vigil).run? es = some ⟨false, .waiting, 600000, log⟩ ∧
      (∀ t, .changed t ∈ log → ∃ r, lastReport log = some r ∧ t ≤ r) ∧
      250020 + quietPeriod ≤ 500040 := by
  intro es log
  have h : ({} : Vigil).run? es = some ⟨false, .waiting, 600000, log⟩ := by decide
  obtain ⟨hlost, hreports⟩ := run?_coalesced h
  refine ⟨h, hlost rfl rfl, ?_⟩
  exact (hreports [] 500040 log.tail rfl).2 250020 rfl

end Vigil

end ReverseProxy.Watch
