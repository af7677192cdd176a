import Mathlib.Algebra.Ring.Nat
import Mathlib.Control.Monad.Basic
import ReverseProxy.Backend

/-!
# Every request is accounted once

Requests set out, complete, are cancelled, and windows are drained, in any order. At every moment
the gauge is the number of requests in flight, and the windows, the current one included, divide the
completed requests among them: each completed request is in exactly one window, a cancelled one in
none.
-/

namespace ReverseProxy.Backend

/-- A completed request: its number, the time it took, and what it came to. -/
structure Completion where
  request : Nat
  latency : Nat
  outcome : Http.Outcome Http.Status
deriving DecidableEq

def Completion.failed (c : Completion) : Bool := Http.isFailure c.outcome

/-- The window that some completed requests make up. -/
def Window.ofCompletions (cs : List Completion) : Window :=
  ⟨cs.length, cs.countP (·.failed), (cs.map (·.latency)).sum⟩

inductive Traffic
  | start
  | complete (c : Completion)
  | cancel (request : Nat)
  | drain

namespace Traffic

def isStart : Traffic → Bool
  | start => true
  | _ => false

def completion? : Traffic → Option Completion
  | complete c => some c
  | _ => none

def cancellation? : Traffic → Option Nat
  | cancel q => some q
  | _ => none

end Traffic

/-- A transport with its past. Requests are numbered in the order in which they set out. -/
structure History where
  transport : Transport := .idle
  started : Nat := 0
  inFlight : List Nat := []
  completed : List Completion := []
  cancelled : List Nat := []
  /-- First one first. -/
  drained : List Window := []
deriving DecidableEq

namespace History

/-- All windows, the current one last. -/
def windows (h : History) : List Window := h.drained ++ [h.transport.window]

/-- What follows; none if a request is to end that is not in flight. -/
def step? (h : History) : Traffic → Option History
  | .start =>
    some { h with
      transport := h.transport.start
      started := h.started + 1
      inFlight := h.started :: h.inFlight }
  | .complete c =>
    if c.request ∈ h.inFlight then
      some { h with
        transport := h.transport.complete c.latency c.failed
        inFlight := h.inFlight.erase c.request
        completed := h.completed ++ [c] }
    else none
  | .cancel q =>
    if q ∈ h.inFlight then
      some { h with
        transport := h.transport.cancel
        inFlight := h.inFlight.erase q
        cancelled := h.cancelled ++ [q] }
    else none
  | .drain =>
    some { h with
      transport := h.transport.drain.2
      drained := h.drained ++ [h.transport.drain.1] }

def run? (h : History) : List Traffic → Option History
  | [] => some h
  | e :: es => (h.step? e).bind (·.run? es)

end History

/-! ## Windows -/

namespace Window

theorem ofCompletions_snoc (cs : List Completion) (c : Completion) :
    ofCompletions (cs ++ [c]) = (ofCompletions cs).record c.latency c.failed := by
  cases hf : c.failed <;> simp [ofCompletions, record, hf]

theorem ofCompletions_append (cs ds : List Completion) :
    ofCompletions (cs ++ ds) = (ofCompletions cs).merge (ofCompletions ds) := by
  simp [ofCompletions, merge]

theorem ofCompletions_flatten (parts : List (List Completion)) (cs : List Completion) :
    (parts.map ofCompletions).foldl merge (ofCompletions cs) =
      ofCompletions (cs ++ parts.flatten) := by
  induction parts generalizing cs with
  | nil => simp
  | cons p ps ih =>
      rw [List.map_cons, List.foldl_cons, ← ofCompletions_append, ih, List.flatten_cons,
        List.append_assoc]

theorem ofCompletions_errors_le (cs : List Completion) :
    (ofCompletions cs).errors ≤ (ofCompletions cs).requests :=
  List.countP_le_length

end Window

/-! ## The invariant -/

namespace History

/-- Every request that set out is in flight, completed or cancelled, and only one of them; the gauge
counts the first, the windows the second. -/
structure Accounted (h : History) : Prop where
  gauge : h.transport.running = h.inFlight.length
  requests : (h.inFlight ++ (h.completed.map (·.request) ++ h.cancelled)).Perm
    (List.range h.started)
  windows : ∃ (parts : List (List Completion)) (last : List Completion),
    h.drained = parts.map Window.ofCompletions ∧
      h.transport.window = Window.ofCompletions last ∧ parts.flatten ++ last = h.completed

theorem accounted_initial : Accounted {} where
  gauge := rfl
  requests := .refl _
  windows := ⟨[], [], rfl, rfl, rfl⟩

variable {h h' : History}

theorem Accounted.start (ha : Accounted h) (hs : h.step? .start = some h') : Accounted h' := by
  simp only [step?, Option.some.injEq] at hs
  subst hs
  constructor
  · simp [Transport.start, ha.gauge]
  · rw [List.range_succ]
    exact (ha.requests.cons _).trans (List.perm_append_singleton _ _).symm
  · exact ha.windows

theorem Accounted.complete {c : Completion} (ha : Accounted h)
    (hs : h.step? (.complete c) = some h') : Accounted h' := by
  simp only [step?] at hs
  split at hs
  · rename_i hc
    cases hs
    constructor
    · simp [Transport.complete, ha.gauge, List.length_erase_of_mem hc]
    · refine List.Perm.trans ?_ ha.requests
      -- The request moves from the first list to the end of the second.
      have hmove := (List.perm_cons_erase hc).append_right
        (h.completed.map (·.request) ++ h.cancelled)
      refine List.Perm.trans ?_ hmove.symm
      simp only [List.map_append, List.map_cons, List.map_nil, List.append_assoc,
        List.cons_append]
      exact (List.perm_middle.append_left _).trans List.perm_middle
    · obtain ⟨parts, last, hd, hw, hp⟩ := ha.windows
      refine ⟨parts, last ++ [c], hd, ?_, ?_⟩
      · rw [Window.ofCompletions_snoc, ← hw]
        rfl
      · rw [← List.append_assoc, hp]
  · cases hs

theorem Accounted.cancel {q : Nat} (ha : Accounted h) (hs : h.step? (.cancel q) = some h') :
    Accounted h' := by
  simp only [step?] at hs
  split at hs
  · rename_i hq
    cases hs
    constructor
    · simp [Transport.cancel, ha.gauge, List.length_erase_of_mem hq]
    · refine List.Perm.trans ?_ ha.requests
      have hmove := (List.perm_cons_erase hq).append_right
        (h.completed.map (·.request) ++ h.cancelled)
      refine List.Perm.trans ?_ hmove.symm
      simp only [← List.append_assoc, List.cons_append]
      exact List.perm_append_singleton _ _
    · exact ha.windows
  · cases hs

theorem Accounted.drain (ha : Accounted h) (hs : h.step? .drain = some h') : Accounted h' := by
  simp only [step?, Option.some.injEq] at hs
  subst hs
  obtain ⟨parts, last, hd, hw, hp⟩ := ha.windows
  constructor
  · exact ha.gauge
  · exact ha.requests
  · refine ⟨parts ++ [last], [], ?_, rfl, ?_⟩
    · simp [Transport.drain, hd, hw]
    · simpa using hp

theorem Accounted.step {e : Traffic} (ha : Accounted h) (hs : h.step? e = some h') :
    Accounted h' := by
  cases e with
  | start => exact ha.start hs
  | complete c => exact ha.complete hs
  | cancel q => exact ha.cancel hs
  | drain => exact ha.drain hs

/-- The past is what the events say. -/
theorem run?_log {es : List Traffic} (hr : h.run? es = some h') :
    h'.started = h.started + es.countP (·.isStart) ∧
      h'.completed = h.completed ++ es.filterMap (·.completion?) ∧
      h'.cancelled = h.cancelled ++ es.filterMap (·.cancellation?) := by
  induction es generalizing h with
  | nil =>
      cases hr
      simp
  | cons e es ih =>
      obtain ⟨m, hs, hr⟩ := Option.bind_eq_some_iff.mp hr
      obtain ⟨hstarted, hcompleted, hcancelled⟩ := ih hr
      rw [hstarted, hcompleted, hcancelled]
      cases e with
      | start =>
          cases hs
          simp [Traffic.isStart, Traffic.completion?, Traffic.cancellation?]
          omega
      | complete c =>
          obtain ⟨-, hs⟩ := Option.ite_none_right_eq_some.mp hs
          cases hs
          simp [Traffic.isStart, Traffic.completion?, Traffic.cancellation?]
      | cancel q =>
          obtain ⟨-, hs⟩ := Option.ite_none_right_eq_some.mp hs
          cases hs
          simp [Traffic.isStart, Traffic.completion?, Traffic.cancellation?]
      | drain =>
          cases hs
          simp [Traffic.isStart, Traffic.completion?, Traffic.cancellation?]

theorem Accounted.run {es : List Traffic} (ha : Accounted h) (hr : h.run? es = some h') :
    Accounted h' := by
  induction es generalizing h with
  | nil =>
      cases hr
      exact ha
  | cons e es ih =>
      obtain ⟨m, hs, hr⟩ := Option.bind_eq_some_iff.mp hr
      exact ih (ha.step hs) hr

/-! ## What follows from it -/

theorem Accounted.running_eq (ha : Accounted h) :
    h.transport.running + (h.completed.length + h.cancelled.length) = h.started := by
  have hl := ha.requests.length_eq
  simp only [List.length_append, List.length_map, List.length_range] at hl
  rw [ha.gauge]
  exact hl

/-- A request in flight is on the gauge, so the gauge never falls below zero when it ends. -/
theorem Accounted.running_pos {q : Nat} (ha : Accounted h) (hq : q ∈ h.inFlight) :
    0 < h.transport.running := by
  rw [ha.gauge]
  exact List.length_pos_of_mem hq

theorem Accounted.nodup (ha : Accounted h) :
    (h.inFlight ++ (h.completed.map (·.request) ++ h.cancelled)).Nodup :=
  ha.requests.nodup_iff.mpr List.nodup_range

theorem Accounted.parts (ha : Accounted h) :
    ∃ parts : List (List Completion), h.windows = parts.map Window.ofCompletions ∧
      parts.flatten = h.completed := by
  obtain ⟨parts, last, hd, hw, hp⟩ := ha.windows
  refine ⟨parts ++ [last], ?_, ?_⟩
  · simp [History.windows, hd, hw]
  · simpa using hp

theorem Accounted.total (ha : Accounted h) :
    h.windows.foldl Window.merge Window.empty = Window.ofCompletions h.completed := by
  obtain ⟨parts, hw, hp⟩ := ha.parts
  rw [hw, ← hp]
  exact Window.ofCompletions_flatten parts []

theorem Accounted.errors_le (ha : Accounted h) {w : Window} (hw : w ∈ h.windows) :
    w.errors ≤ w.requests := by
  obtain ⟨parts, hp, -⟩ := ha.parts
  rw [hp] at hw
  obtain ⟨cs, -, rfl⟩ := List.mem_map.mp hw
  exact Window.ofCompletions_errors_le cs

/-- Whatever has happened at a transport, the gauge is the number of requests that set out less
those completed or cancelled, and does not pass zero when one of them ends. No request ends twice.
The windows add up to the completed requests, of which each is in exactly one window, and no window
has more errors than requests. -/
theorem run?_accounted {es : List Traffic} (hr : run? {} es = some h) :
    h.started = es.countP (·.isStart) ∧ h.completed = es.filterMap (·.completion?) ∧
      h.cancelled = es.filterMap (·.cancellation?) ∧
      h.completed.length + h.cancelled.length ≤ h.started ∧
      h.transport.running = h.started - (h.completed.length + h.cancelled.length) ∧
      (∀ q ∈ h.inFlight, 0 < h.transport.running) ∧
      (h.inFlight ++ (h.completed.map (·.request) ++ h.cancelled)).Nodup ∧
      h.windows.foldl Window.merge Window.empty = Window.ofCompletions h.completed ∧
      (∃ parts : List (List Completion), h.windows = parts.map Window.ofCompletions ∧
        parts.flatten = h.completed) ∧
      ∀ w ∈ h.windows, w.errors ≤ w.requests := by
  have ha := accounted_initial.run hr
  obtain ⟨hstarted, hcompleted, hcancelled⟩ := run?_log hr
  have hrunning := ha.running_eq
  refine ⟨by simpa using hstarted, by simpa using hcompleted, by simpa using hcancelled, ?_⟩
  exact ⟨by omega, by omega, fun _ => ha.running_pos, ha.nodup, ha.total, ha.parts,
    fun _ => ha.errors_le⟩

/-- Four requests of which one is cancelled, one fails after a drain that it was in flight for, and
one is still in flight. -/
theorem run?_accounted_mixed :
    let lost : Completion := ⟨0, 7, .error (.connection "refused")⟩
    let served : Completion := ⟨2, 5, .ok ⟨200, by decide⟩⟩
    let es : List Traffic :=
      [.start, .start, .start, .complete served, .drain, .cancel 1, .start, .complete lost]
    let h : History :=
      { transport := ⟨1, ⟨1, 1, 7⟩⟩, started := 4, inFlight := [3], completed := [served, lost]
        cancelled := [1], drained := [⟨1, 0, 5⟩] }
    run? {} es = some h ∧ h.windows.foldl Window.merge Window.empty = ⟨2, 1, 12⟩ ∧
      h.transport.running = h.started - (h.completed.length + h.cancelled.length) := by
  intro lost served es h
  have hr : run? {} es = some h := by decide
  obtain ⟨-, -, -, -, hrunning, -, -, htotal, -⟩ := run?_accounted hr
  exact ⟨hr, htotal, hrunning⟩

end History

end ReverseProxy.Backend
