import Mathlib.Order.Bounds.Basic
import ReverseProxy.Shutdown.Timeline

/-!
# Waits for the first stage

Handles of the first stage are given out and dropped, and the stage is waited for, again and again,
while time passes. Only the handles count that were given out before the first of these waits. A wait
ends as soon as the last of them is gone, and otherwise when the time allowed is over: `run?_timely`.
The coordinator does not know its handles; it counts those that it gave out early and that are still
held, and this count is right in every order of events (`Sound`).
-/

namespace ReverseProxy.Shutdown

/-- Coordinators at the same point of the first stage. -/
structure SameStage (c d : Coordinator) : Prop where
  registering : c.registering = d.registering
  participants : c.participants = d.participants
  timeout : c.timeout = d.timeout

namespace SameStage

variable {c d e : Coordinator}

theorem symm (h : SameStage c d) : SameStage d c :=
  ⟨h.registering.symm, h.participants.symm, h.timeout.symm⟩

theorem trans (h : SameStage c d) (h' : SameStage d e) : SameStage c e :=
  ⟨h.registering.trans h'.registering, h.participants.trans h'.participants,
    h.timeout.trans h'.timeout⟩

theorem stageDone (h : SameStage c d) : c.stageDone = d.stageDone := by
  simp only [Coordinator.stageDone, h.registering, h.participants]

theorem join (h : SameStage c d) : SameStage c.join.2 d.join.2 := by
  unfold Coordinator.join
  rw [h.registering]
  split
  · exact ⟨rfl, congrArg (· + 1) h.participants, h.timeout⟩
  · exact h

theorem leave (h : SameStage c d) (counted : Bool) :
    SameStage (c.leave counted) (d.leave counted) := by
  cases counted with
  | true => exact ⟨h.registering, congrArg (· - 1) h.participants, h.timeout⟩
  | false => exact h

end SameStage

/-- A shutdown does not touch the first stage. -/
theorem sameStage_trigger (c : Coordinator) (r : Reason) : SameStage c (c.trigger r).2 := by
  unfold Coordinator.trigger
  split <;> exact ⟨rfl, rfl, rfl⟩

/-- A handle of the first stage. -/
structure Participant where
  /-- Whether the coordinator counts it. -/
  counted : Bool
  /-- Whether it was given out before the stage was first waited for. -/
  early : Bool
  /-- When it was dropped. -/
  left : Option Nat := none
deriving DecidableEq

def Participant.holds (p : Participant) : Bool := p.counted && p.left.isNone

/-- A wait that has ended. -/
structure EndedWait where
  begun : Nat
  finished : Nat
  /-- What the wait returns. -/
  inTime : Bool
deriving DecidableEq

/-- A coordinator on a clock, with the handles that it gave out and the waits for the first stage. -/
structure Stage where
  coordinator : Coordinator
  /-- How many nanoseconds the clock counts as one. -/
  tick : Nat := 1
  now : Nat := 0
  participants : List Participant := []
  /-- Whether the stage has been waited for. -/
  waited : Bool := false
  /-- When the wait under way began. -/
  waiting : Option Nat := none
  ended : List EndedWait := []

namespace Stage

inductive Event
  /-- Time passes. -/
  | pass
  | join
  | drop (i : Nat)
  | trigger (r : Reason)
  | wait
  /-- The wait under way finds that the stage is done. -/
  | finish
  /-- The time allowed is over. -/
  | expire
  /-- The wait under way is given up. -/
  | abandon

variable (a : Stage)

def start (timeout : Duration) (tick : Nat := 1) : Stage := { coordinator := { timeout }, tick }

/-- How long a wait may take. -/
def limit : Nat := a.coordinator.timeout.nanos / a.tick

/-- Whether the clock may show a time next. It does not go past the end of a wait. -/
def mayPass (time : Nat) : Bool :=
  a.now ≤ time && a.waiting.all fun s =>
    time ≤ s + a.limit && (!a.coordinator.stageDone || time = a.now)

/-- What follows at once; none if it cannot happen. The waits are taken one after the other. -/
def act? : Event → Option Stage
  | .pass => some a
  | .join =>
    let (counted, coordinator) := a.coordinator.join
    some { a with
      coordinator
      participants := a.participants ++ [{ counted, early := !a.waited }] }
  | .drop i => do
    let p ← a.participants[i]?
    if p.left.isSome then none
    else some { a with
      coordinator := a.coordinator.leave p.counted
      participants := a.participants.set i { p with left := some a.now } }
  | .trigger r => some { a with coordinator := (a.coordinator.trigger r).2 }
  | .wait =>
    if a.waiting.isSome then none
    else some { a with
      coordinator := a.coordinator.endRegistration, waited := true, waiting := some a.now }
  | .finish => do
    let s ← a.waiting
    if a.coordinator.stageDone then
      some { a with waiting := none, ended := ⟨s, a.now, true⟩ :: a.ended }
    else none
  | .expire => do
    let s ← a.waiting
    if !a.coordinator.stageDone && s + a.limit ≤ a.now then
      some { a with waiting := none, ended := ⟨s, a.now, false⟩ :: a.ended }
    else none
  | .abandon => if a.waiting.isSome then some { a with waiting := none } else none

def step? (e : Nat × Event) : Option Stage :=
  if a.mayPass e.1 then { a with now := e.1 }.act? e.2 else none

def run? (a : Stage) : List (Nat × Event) → Option Stage
  | [] => some a
  | e :: es => do run? (← a.step? e) es

/-- When the handles were dropped that were given out before the first wait. -/
def earlyDrops (ps : List Participant) : Set Nat :=
  {t | ∃ p ∈ ps, p.early = true ∧ p.left = some t}

end Stage

open Stage (earlyDrops)

/-- The result and the end of a wait, told from the early handles: it succeeds at the last drop, if
that is before the time allowed is over, and fails then if a handle is held after that. -/
structure EndedWait.Timely (w : EndedWait) (ps : List Participant) (limit : Nat) : Prop where
  inTime : (∀ p ∈ ps, p.early = true → ∃ t < w.begun + limit, p.left = some t) →
    w.inTime = true ∧ IsGreatest (insert w.begun (earlyDrops ps)) w.finished
  late : (∃ p ∈ ps, p.early = true ∧ ∀ t, p.left = some t → w.begun + limit < t) →
    w.inTime = false ∧ w.finished = w.begun + limit

/-- What is known of a wait when it ends, and does not change later. -/
structure EndedWait.Settled (w : EndedWait) (ps : List Participant) (limit : Nat) : Prop where
  begun_le : w.begun ≤ w.finished
  finished_le : w.finished ≤ w.begun + limit
  left : w.inTime = true → ∀ p ∈ ps, p.early = true → ∃ t ≤ w.finished, p.left = some t
  finished_mem : w.inTime = true → w.finished ∈ insert w.begun (earlyDrops ps)
  held : w.inTime = false → ∃ p ∈ ps, p.early = true ∧ ∀ t, p.left = some t → w.finished ≤ t
  finished_eq : w.inTime = false → w.finished = w.begun + limit

namespace EndedWait

variable {w : EndedWait} {ps : List Participant} {limit : Nat}

theorem Settled.timely (h : Settled w ps limit) : Timely w ps limit where
  inTime := by
    intro hleft
    cases hresult : w.inTime with
    | false =>
        obtain ⟨p, hp, hearly, hheld⟩ := h.held hresult
        obtain ⟨t, ht, hpt⟩ := hleft p hp hearly
        have hle := hheld t hpt
        have heq := h.finished_eq hresult
        omega
    | true =>
        refine ⟨rfl, h.finished_mem hresult, ?_⟩
        rintro t (rfl | ⟨p, hp, hearly, hpt⟩)
        · exact h.begun_le
        · obtain ⟨t', ht', hpt'⟩ := h.left hresult p hp hearly
          cases hpt.symm.trans hpt'
          exact ht'
  late := by
    rintro ⟨p, hp, hearly, hheld⟩
    cases hresult : w.inTime with
    | false => exact ⟨rfl, h.finished_eq hresult⟩
    | true =>
        obtain ⟨t, ht, hpt⟩ := h.left hresult p hp hearly
        have hlt := hheld t hpt
        have hle := h.finished_le
        omega

end EndedWait

namespace Stage

/-- What an event does to the early handles: at most one of them is dropped, now. -/
structure Later (ps qs : List Participant) (now : Nat) : Prop where
  kept : ∀ p ∈ ps, p.early = true →
    p ∈ qs ∨ p.left = none ∧ { p with left := some now } ∈ qs
  old : ∀ q ∈ qs, q.early = true →
    q ∈ ps ∨ ∃ p ∈ ps, p.early = true ∧ p.left = none ∧ q = { p with left := some now }

variable {ps qs : List Participant} {p : Participant} {i now limit : Nat} {w : EndedWait}

theorem later_append (hp : p.early = false) : Later ps (ps ++ [p]) now where
  kept := fun _ hq _ => .inl (List.mem_append_left _ hq)
  old := by
    intro q hq hearly
    rcases List.mem_append.mp hq with hq | hq
    · exact .inl hq
    · rw [List.mem_singleton.mp hq, hp] at hearly
      contradiction

theorem later_set (hp : ps[i]? = some p) (hleft : p.left = none) :
    Later ps (ps.set i { p with left := some now }) now where
  kept := by
    intro q hq _
    obtain ⟨j, hj⟩ := List.mem_iff_getElem?.mp hq
    by_cases hij : i = j
    · subst hij
      obtain rfl := Option.some.inj (hp.symm.trans hj)
      obtain ⟨hi, -⟩ := List.getElem?_eq_some_iff.mp hp
      exact .inr ⟨hleft, List.mem_iff_getElem?.mpr ⟨i, by simp [hi]⟩⟩
    · exact .inl (List.mem_iff_getElem?.mpr ⟨j, by simp [List.getElem?_set_ne hij, hj]⟩)
  old := by
    intro q hq hearly
    rcases List.mem_or_eq_of_mem_set hq with hq | rfl
    · exact .inl hq
    · exact .inr ⟨p, List.mem_of_getElem? hp, hearly, hleft, rfl⟩

/-- What is settled about a wait stays so. -/
theorem Later.settled (h : Later ps qs now) (hw : w.Settled ps limit) (hnow : w.finished ≤ now) :
    w.Settled qs limit where
  begun_le := hw.begun_le
  finished_le := hw.finished_le
  left := by
    intro hin q hq hearly
    rcases h.old q hq hearly with hq | ⟨p, hp, hp', hleft, -⟩
    · exact hw.left hin q hq hearly
    · obtain ⟨t, -, ht⟩ := hw.left hin p hp hp'
      cases hleft.symm.trans ht
  finished_mem := by
    intro hin
    rcases hw.finished_mem hin with hbegun | ⟨p, hp, hearly, hover⟩
    · exact .inl hbegun
    · rcases h.kept p hp hearly with hq | ⟨hleft, -⟩
      · exact .inr ⟨p, hq, hearly, hover⟩
      · cases hleft.symm.trans hover
  held := by
    intro hlate
    obtain ⟨p, hp, hearly, hheld⟩ := hw.held hlate
    rcases h.kept p hp hearly with hq | ⟨-, hq⟩
    · exact ⟨p, hq, hearly, hheld⟩
    · refine ⟨_, hq, hearly, fun t ht => ?_⟩
      obtain rfl := Option.some.inj ht
      exact hnow
  finished_eq := hw.finished_eq

/-! ## The invariant -/

/-- What is known of a wait under way. -/
structure UnderWay (a : Stage) (s : Nat) : Prop where
  begun_le : s ≤ a.now
  now_le : a.now ≤ s + a.limit
  /-- The clock stands still once the last early handle is gone. -/
  now_mem : a.coordinator.stageDone = true → a.now ∈ insert s (earlyDrops a.participants)

structure Sound (a : Stage) : Prop where
  registering : a.coordinator.registering = !a.waited
  counted : ∀ p ∈ a.participants, p.counted = p.early
  held : a.coordinator.participants = a.participants.countP Participant.holds
  left_le : ∀ p ∈ a.participants, ∀ t, p.left = some t → t ≤ a.now
  fresh : a.waited = false → a.waiting = none ∧ a.ended = []
  waiting : ∀ s, a.waiting = some s → a.UnderWay s
  ended : ∀ w ∈ a.ended, w.finished ≤ a.now ∧ w.Settled a.participants a.limit

variable {a b : Stage}

theorem sound_start (timeout : Duration) (tick : Nat) : Sound (start timeout tick) where
  registering := rfl
  counted := fun _ hp => by cases hp
  held := rfl
  left_le := fun _ hp => by cases hp
  fresh := fun _ => ⟨rfl, rfl⟩
  waiting := fun _ hs => by cases hs
  ended := fun _ hw => by cases hw

/-- The stage is done when it has been waited for and the early handles are gone. -/
theorem Sound.stageDone_iff (h : Sound a) : a.coordinator.stageDone = true ↔
    a.waited = true ∧ ∀ p ∈ a.participants, p.early = true → p.left.isSome = true := by
  have hcount : a.participants.countP Participant.holds = 0 ↔
      ∀ p ∈ a.participants, p.early = true → p.left.isSome = true := by
    rw [List.countP_eq_zero]
    refine forall₂_congr fun p hp => ?_
    rw [Participant.holds, h.counted p hp]
    cases p.early <;> cases p.left <;> simp
  simp only [Coordinator.stageDone, h.registering, h.held, Bool.not_not, Bool.and_eq_true,
    decide_eq_true_eq, hcount]

theorem Sound.waited_of_waiting (h : Sound a) {s : Nat} (hs : a.waiting = some s) :
    a.waited = true := by
  cases hw : a.waited with
  | true => rfl
  | false => cases hs.symm.trans (h.fresh hw).1

theorem Sound.pass (h : Sound a) {t : Nat} (ht : a.mayPass t = true) : Sound { a with now := t } := by
  simp only [mayPass, Bool.and_eq_true, decide_eq_true_eq, Option.all_eq_true, Bool.or_eq_true,
    Bool.not_eq_true'] at ht
  obtain ⟨hle, hwait⟩ := ht
  exact { h with
    left_le := fun p hp t' ht' => Nat.le_trans (h.left_le p hp t' ht') hle
    ended := fun w hw => ⟨Nat.le_trans (h.ended w hw).1 hle, (h.ended w hw).2⟩
    waiting := by
      intro s hs
      obtain ⟨hlimit, hdone⟩ := hwait s hs
      have hunder := h.waiting s hs
      refine ⟨Nat.le_trans hunder.begun_le hle, hlimit, fun hstage => ?_⟩
      rcases hdone with hdone | rfl
      · cases hdone.symm.trans hstage
      · exact hunder.now_mem hstage }

/-! ## Steps -/

theorem limit_act? {e : Event} (hs : a.act? e = some b) : b.limit = a.limit := by
  cases e with
  | pass =>
      obtain rfl := Option.some.inj hs
      rfl
  | join =>
      obtain rfl := Option.some.inj hs
      have htimeout : a.coordinator.join.2.timeout = a.coordinator.timeout := by
        unfold Coordinator.join
        split <;> rfl
      exact congrArg (·.nanos / a.tick) htimeout
  | drop i =>
      obtain ⟨p, -, hs⟩ := Option.bind_eq_some_iff.mp hs
      obtain ⟨-, hs⟩ := Option.ite_none_left_eq_some.mp hs
      obtain rfl := Option.some.inj hs
      cases p.counted <;> rfl
  | trigger r =>
      obtain rfl := Option.some.inj hs
      unfold Coordinator.trigger limit
      split <;> rfl
  | wait =>
      obtain ⟨-, hs⟩ := Option.ite_none_left_eq_some.mp hs
      obtain rfl := Option.some.inj hs
      rfl
  | finish | expire =>
      obtain ⟨s, -, hs⟩ := Option.bind_eq_some_iff.mp hs
      obtain ⟨-, hs⟩ := Option.ite_none_right_eq_some.mp hs
      obtain rfl := Option.some.inj hs
      rfl
  | abandon =>
      obtain ⟨-, hs⟩ := Option.ite_none_right_eq_some.mp hs
      obtain rfl := Option.some.inj hs
      rfl

theorem limit_step? {e : Nat × Event} (hs : a.step? e = some b) : b.limit = a.limit := by
  obtain ⟨-, hs⟩ := Option.ite_none_right_eq_some.mp hs
  have hact := limit_act? hs
  exact hact

theorem limit_run? {es : List (Nat × Event)} (hr : a.run? es = some b) : b.limit = a.limit := by
  induction es generalizing a with
  | nil =>
      cases hr
      rfl
  | cons e es ih =>
      obtain ⟨m, hs, hr⟩ := Option.bind_eq_some_iff.mp hr
      exact (ih hr).trans (limit_step? hs)

theorem earlyDrops_append (ps : List Participant) (p : Participant) :
    earlyDrops ps ⊆ earlyDrops (ps ++ [p]) := by
  rintro t ⟨q, hq, hearly, ht⟩
  exact ⟨q, List.mem_append_left _ hq, hearly, ht⟩

theorem Sound.join_eq (h : Sound a) : a.coordinator.join = (!a.waited,
    { a.coordinator with participants := a.coordinator.participants + (!a.waited).toNat }) := by
  have hregistering := h.registering
  cases hw : a.waited with
  | true => rw [Coordinator.join, if_neg (by simp [hregistering, hw])]; rfl
  | false => rw [Coordinator.join, if_pos (by simp [hregistering, hw])]; rfl

theorem Sound.join (h : Sound a) (hs : a.act? .join = some b) : Sound b := by
  simp only [act?, h.join_eq] at hs
  obtain rfl := Option.some.inj hs
  have hwaited : ∀ {s}, a.waiting = some s → (!a.waited).toNat = 0 := fun hs => by
    rw [h.waited_of_waiting hs]
    rfl
  exact {
    registering := h.registering
    counted := List.forall_mem_append.mpr ⟨h.counted, by simp⟩
    held := by
      rw [List.countP_append, ← h.held]
      cases a.waited <;> rfl
    left_le := List.forall_mem_append.mpr ⟨h.left_le, by simp⟩
    fresh := h.fresh
    waiting := by
      intro s hs
      have hunder := h.waiting s hs
      refine ⟨hunder.begun_le, hunder.now_le, fun hdone => ?_⟩
      rw [hwaited hs] at hdone
      exact (hunder.now_mem hdone).imp_right fun hmem => earlyDrops_append _ _ hmem
    ended := by
      intro w hw
      have hlate : (!a.waited) = false := by
        cases hwaited : a.waited with
        | true => rfl
        | false =>
            rw [(h.fresh hwaited).2] at hw
            cases hw
      exact ⟨(h.ended w hw).1, (later_append hlate).settled (h.ended w hw).2 (h.ended w hw).1⟩ }

theorem Sound.drop (h : Sound a) {i : Nat} (hs : a.act? (.drop i) = some b) : Sound b := by
  have hlimit := limit_act? hs
  obtain ⟨p, hp, hs⟩ := Option.bind_eq_some_iff.mp hs
  obtain ⟨hleft, hs⟩ := Option.ite_none_left_eq_some.mp hs
  obtain rfl := Option.some.inj hs
  have hnone : p.left = none := by simpa using hleft
  have hmem : p ∈ a.participants := List.mem_of_getElem? hp
  obtain ⟨hi, hpi⟩ := List.getElem?_eq_some_iff.mp hp
  have hlater : Later a.participants (a.participants.set i { p with left := some a.now }) a.now :=
    later_set hp hnone
  exact {
    registering := by
      rw [← h.registering]
      cases p.counted <;> rfl
    counted := by
      intro q hq
      rcases List.mem_or_eq_of_mem_set hq with hq | rfl
      · exact h.counted q hq
      · exact h.counted p hmem
    held := by
      rw [List.countP_set hi, hpi, ← h.held]
      cases hc : p.counted <;> simp [Participant.holds, Coordinator.leave, hc, hnone]
    left_le := by
      intro q hq t ht
      rcases List.mem_or_eq_of_mem_set hq with hq | rfl
      · exact h.left_le q hq t ht
      · exact Nat.le_of_eq (Option.some.inj ht).symm
    fresh := h.fresh
    waiting := by
      intro s hs
      have hunder := h.waiting s hs
      refine ⟨hunder.begun_le, hlimit ▸ hunder.now_le, fun hdone => ?_⟩
      by_cases hearly : p.early = true
      · exact .inr ⟨_, List.mem_set hi _, hearly, rfl⟩
      · -- A handle that does not count cannot have been the last one.
        rw [h.counted p hmem, Bool.not_eq_true _ |>.mp hearly] at hdone
        refine (hunder.now_mem hdone).imp_right ?_
        rintro ⟨q, hq, hearly, hleft⟩
        rcases hlater.kept q hq hearly with hq | ⟨hq, -⟩
        · exact ⟨q, hq, hearly, hleft⟩
        · cases hq.symm.trans hleft
    ended := fun w hw =>
      ⟨(h.ended w hw).1, hlimit ▸ hlater.settled (h.ended w hw).2 (h.ended w hw).1⟩ }

theorem Sound.trigger (h : Sound a) {r : Reason} (hs : a.act? (.trigger r) = some b) :
    Sound b := by
  have hlimit := limit_act? hs
  obtain rfl := Option.some.inj hs
  have hsame := sameStage_trigger a.coordinator r
  exact {
    registering := hsame.registering.symm.trans h.registering
    counted := h.counted
    held := hsame.participants.symm.trans h.held
    left_le := h.left_le
    fresh := h.fresh
    waiting := fun s hs => {
      begun_le := (h.waiting s hs).begun_le
      now_le := hlimit ▸ (h.waiting s hs).now_le
      now_mem := fun hdone => (h.waiting s hs).now_mem (hsame.stageDone.trans hdone) }
    ended := fun w hw => hlimit ▸ h.ended w hw }

theorem Sound.wait (h : Sound a) (hs : a.act? .wait = some b) : Sound b := by
  obtain ⟨-, hs⟩ := Option.ite_none_left_eq_some.mp hs
  obtain rfl := Option.some.inj hs
  exact {
    registering := rfl
    counted := h.counted
    held := h.held
    left_le := h.left_le
    fresh := fun hw => by cases hw
    waiting := by
      intro s hs
      obtain rfl := Option.some.inj hs
      exact ⟨Nat.le_refl _, Nat.le_add_right _ _, fun _ => .inl rfl⟩
    ended := h.ended }

/-- A wait ends with what is then settled about it. -/
theorem Sound.endWait (h : Sound a) {s : Nat} {inTime : Bool} (hs : a.waiting = some s)
    (hw : (⟨s, a.now, inTime⟩ : EndedWait).Settled a.participants a.limit) :
    Sound { a with waiting := none, ended := ⟨s, a.now, inTime⟩ :: a.ended } :=
  { h with
    fresh := fun hfresh => by cases hs.symm.trans (h.fresh hfresh).1
    waiting := fun _ hs => by cases hs
    ended := List.forall_mem_cons.mpr ⟨⟨Nat.le_refl _, hw⟩, h.ended⟩ }

theorem Sound.finish (h : Sound a) (hs : a.act? .finish = some b) : Sound b := by
  obtain ⟨s, hwaiting, hs⟩ := Option.bind_eq_some_iff.mp hs
  obtain ⟨hdone, hs⟩ := Option.ite_none_right_eq_some.mp hs
  obtain rfl := Option.some.inj hs
  have hunder := h.waiting s hwaiting
  exact h.endWait hwaiting {
    begun_le := hunder.begun_le
    finished_le := hunder.now_le
    left := by
      intro _ p hp hearly
      obtain ⟨t, ht⟩ := Option.isSome_iff_exists.mp ((h.stageDone_iff.mp hdone).2 p hp hearly)
      exact ⟨t, h.left_le p hp t ht, ht⟩
    finished_mem := fun _ => hunder.now_mem hdone
    held := fun hlate => by cases hlate
    finished_eq := fun hlate => by cases hlate }

theorem Sound.expire (h : Sound a) (hs : a.act? .expire = some b) : Sound b := by
  obtain ⟨s, hwaiting, hs⟩ := Option.bind_eq_some_iff.mp hs
  obtain ⟨hguard, hs⟩ := Option.ite_none_right_eq_some.mp hs
  obtain rfl := Option.some.inj hs
  simp only [Bool.and_eq_true, Bool.not_eq_true', decide_eq_true_eq] at hguard
  obtain ⟨hdone, hover⟩ := hguard
  have hunder := h.waiting s hwaiting
  exact h.endWait hwaiting {
    begun_le := hunder.begun_le
    finished_le := hunder.now_le
    left := fun hin => by cases hin
    finished_mem := fun hin => by cases hin
    held := by
      intro _
      by_contra hnone
      have hall : ∀ p ∈ a.participants, p.early = true → p.left.isSome = true := by
        intro p hp hearly
        cases hleft : p.left with
        | some t => rfl
        | none => exact absurd ⟨p, hp, hearly, fun t ht => by cases hleft.symm.trans ht⟩ hnone
      cases hdone.symm.trans (h.stageDone_iff.mpr ⟨h.waited_of_waiting hwaiting, hall⟩)
    finished_eq := fun _ => Nat.le_antisymm hunder.now_le hover }

theorem Sound.act (h : Sound a) {e : Event} (hs : a.act? e = some b) : Sound b := by
  cases e with
  | pass =>
      obtain rfl := Option.some.inj hs
      exact h
  | join => exact h.join hs
  | drop i => exact h.drop hs
  | trigger r => exact h.trigger hs
  | wait => exact h.wait hs
  | finish => exact h.finish hs
  | expire => exact h.expire hs
  | abandon =>
      obtain ⟨hwaiting, hs⟩ := Option.ite_none_right_eq_some.mp hs
      obtain rfl := Option.some.inj hs
      exact { h with
        fresh := fun hfresh => ⟨rfl, (h.fresh hfresh).2⟩
        waiting := fun _ hs => by cases hs }

theorem Sound.step? (h : Sound a) {e : Nat × Event} (hs : a.step? e = some b) : Sound b := by
  obtain ⟨hpass, hs⟩ := Option.ite_none_right_eq_some.mp hs
  exact (h.pass hpass).act hs

theorem Sound.run? (h : Sound a) {es : List (Nat × Event)} (hr : a.run? es = some b) :
    Sound b := by
  induction es generalizing a with
  | nil =>
      cases hr
      exact h
  | cons e es ih =>
      obtain ⟨m, hs, hr⟩ := Option.bind_eq_some_iff.mp hr
      exact ih (h.step? hs) hr

/-! ## Every order of events -/

theorem mayPass_waiting {s time : Nat} (hs : a.waiting = some s)
    (hdone : a.coordinator.stageDone = false) (htime : a.now ≤ time) (hlimit : time ≤ s + a.limit) :
    a.mayPass time = true := by
  simp [mayPass, hs, hdone, htime, hlimit]

theorem Sound.step?_finish (h : Sound a) {s : Nat} (hs : a.waiting = some s)
    (hdone : a.coordinator.stageDone = true) : a.step? (a.now, .finish) =
      some { a with waiting := none, ended := ⟨s, a.now, true⟩ :: a.ended } := by
  simp [Stage.step?, act?, mayPass, hs, hdone, (h.waiting s hs).now_le]

theorem Sound.step?_expire (h : Sound a) {s : Nat} (hs : a.waiting = some s)
    (hdone : a.coordinator.stageDone = false) : a.step? (s + a.limit, .expire) =
      some { a with
        now := s + a.limit, waiting := none, ended := ⟨s, s + a.limit, false⟩ :: a.ended } := by
  have hpass := mayPass_waiting hs hdone (h.waiting s hs).now_le (Nat.le_refl _)
  rw [Stage.step?, if_pos hpass]
  simp [act?, hs, hdone, limit]

/-- A wait under way can end when the time allowed is over, if not before. -/
theorem Sound.exists_end (h : Sound a) {s : Nat} (hs : a.waiting = some s) :
    ∃ t ≤ s + a.limit, (a.step? (t, .finish)).isSome = true ∨ (a.step? (t, .expire)).isSome = true := by
  cases hdone : a.coordinator.stageDone with
  | true => exact ⟨a.now, (h.waiting s hs).now_le, .inl (by rw [h.step?_finish hs hdone]; rfl)⟩
  | false => exact ⟨s + a.limit, Nat.le_refl _, .inr (by rw [h.step?_expire hs hdone]; rfl)⟩

/-- In whatever order and whenever handles are given out and dropped, shutdown is triggered and the
stage is waited for: each wait ends as the early handles tell, and one that is under way is not late
and can end in time. -/
theorem run?_timely {timeout : Duration} {es : List (Nat × Event)}
    (h : (start timeout).run? es = some a) :
    (∀ w ∈ a.ended, w.Timely a.participants timeout.nanos) ∧
    ∀ s, a.waiting = some s → a.now ≤ s + timeout.nanos ∧
      ((∀ p ∈ a.participants, p.early = true → p.left.isSome = true) →
        IsGreatest (insert s (earlyDrops a.participants)) a.now) ∧
      ∃ t ≤ s + timeout.nanos,
        (a.step? (t, .finish)).isSome = true ∨ (a.step? (t, .expire)).isSome = true := by
  have hsound := (sound_start timeout 1).run? h
  have hlimit : a.limit = timeout.nanos := (limit_run? h).trans (Nat.div_one _)
  rw [← hlimit]
  refine ⟨fun w hw => (hsound.ended w hw).2.timely, fun s hs => ?_⟩
  have hunder := hsound.waiting s hs
  refine ⟨hunder.now_le, fun hgone => ⟨?_, ?_⟩, hsound.exists_end hs⟩
  · exact hunder.now_mem (hsound.stageDone_iff.mpr ⟨hsound.waited_of_waiting hs, hgone⟩)
  · rintro t (rfl | ⟨p, hp, -, ht⟩)
    · exact hunder.begun_le
    · exact hsound.left_le p hp t ht

/-- Two handles are given out, and one is still held when the first wait is over. A handle is given
out late and never dropped; a second wait ends at once when the last early handle is dropped. -/
theorem run?_timely_repeated :
    let es : List (Nat × Event) :=
      [(0, .join), (0, .join), (10, .trigger .graceful), (20, .wait), (50, .drop 1), (60, .join),
        (120, .expire), (130, .wait), (170, .drop 0), (170, .finish), (180, .wait)]
    ∃ a, (start ⟨100, by decide⟩).run? es = some a ∧
      a.ended = [⟨130, 170, true⟩, ⟨20, 120, false⟩] ∧ a.waiting = some 180 ∧
      (∀ w ∈ a.ended, w.Timely a.participants 100) ∧
      ∃ t ≤ 280, (a.step? (t, .finish)).isSome = true ∨ (a.step? (t, .expire)).isSome = true := by
  intro es
  have hview : ((start ⟨100, by decide⟩).run? es).any (fun a =>
      a.ended = [⟨130, 170, true⟩, ⟨20, 120, false⟩] ∧ a.waiting = some 180) = true := by decide
  obtain ⟨a, hrun, hview⟩ := (Option.any_eq_true _ _).mp hview
  obtain ⟨hended, hwaiting⟩ := of_decide_eq_true hview
  obtain ⟨htimely, hunder⟩ := run?_timely hrun
  obtain ⟨-, -, hends⟩ := hunder 180 hwaiting
  exact ⟨a, hrun, hended, hwaiting, htimely, hends⟩

end Stage

end ReverseProxy.Shutdown
