import ReverseProxy.Shutdown.Coordinator

/-!
# No wake-up is lost

A trigger sets the state of the locks, then the flag, and then announces the shutdown. A wait looks at
the flag first; if that is not set, it looks for the announcement, and if there is none it is parked
until something wakes it. Here each of these is a step of its own, and tokens are created, cloned and
dropped in between. A wait that is parked has found the flag unset, and so its token was there before
the announcement, which will wake it.
-/

namespace ReverseProxy.Shutdown

/-- How far a call that triggers shutdown has come. -/
inductive Call
  /-- It has set the state of the locks. -/
  | begun (r : Reason)
  /-- It has set the flag as well, and has still to announce. -/
  | flagged (r : Reason)
  | announced (r : Reason)
  /-- Shutdown had begun before. -/
  | refused
deriving DecidableEq

def Call.returned : Call → Bool
  | announced _ | refused => true
  | begun _ | flagged _ => false

/-- How far a wait with a token has come. -/
inductive Wait
  /-- Nobody waits with the token. -/
  | idle
  /-- The flag was not set. -/
  | checked
  /-- Nothing was announced, and nothing wakes the wait until something is. -/
  | parked
  | woken
  /-- The token is gone. -/
  | dropped
deriving DecidableEq

namespace Wait

/-- Whether the flag was not set when the wait looked at it. -/
def listening : Wait → Bool
  | checked | parked | woken => true
  | idle | dropped => false

def wake : Wait → Wait
  | parked => woken
  | w => w

theorem listening_wake (w : Wait) : w.wake.listening = w.listening := by
  cases w <;> rfl

theorem wake_ne_parked (w : Wait) : w.wake ≠ .parked := by
  cases w <;> nofun

end Wait

structure Token where
  subscriber : Subscriber
  wait : Wait := .idle
  /-- For a participant of the first stage, whether the stage will wait for it. -/
  counted : Option Bool := none
deriving DecidableEq

def Token.wake (t : Token) : Token := { t with wait := t.wait.wake }

/-- A coordinator with the calls that trigger shutdown and the tokens that wait for it. -/
structure Audience where
  coordinator : Coordinator
  calls : List Call := []
  tokens : List Token := []
  /-- The waits that have ended, by their tokens, and what they ended with. -/
  resolved : List (Nat × Reason) := []

namespace Audience

inductive Event
  | trigger (r : Reason)
  | setFlag (call : Nat)
  | announce (call : Nat)
  | token
  | join
  | clone (token : Nat)
  /-- A wait begins, and looks at the flag. -/
  | check (token : Nat)
  /-- A wait looks for the announcement. -/
  | look (token : Nat)
  /-- A wait is given up. -/
  | abandon (token : Nat)
  | drop (token : Nat)
  /-- The coordinator goes away. -/
  | close

/-- A coordinator without an audience. -/
def start (timeout : Duration) : Audience := { coordinator := { timeout } }

variable (a : Audience)

def alive : Bool := !a.coordinator.announcements.closed

def enter (counted : Option Bool) : Audience :=
  let subscriber := a.coordinator.announcements.subscribe
  { a with tokens := a.tokens ++ [{ subscriber, counted }] }

def setWait (i : Nat) (w : Wait) : Audience :=
  { a with tokens := a.tokens.modify i ({ · with wait := w }) }

/-- A wait ends, and its token has heard what it has heard. -/
def resolve (i : Nat) (r : Reason) (s : Subscriber) : Audience :=
  { a with
    tokens := a.tokens.modify i ({ · with subscriber := s, wait := .idle })
    resolved := a.resolved ++ [(i, r)] }

/-- What follows; none if it cannot happen. A token is used by one wait at a time, and the coordinator
stays while a call is under way. -/
def step? : Event → Option Audience
  | .trigger r =>
    if a.alive then
      match a.coordinator.locks.trigger with
      | some locks =>
        some { a with
          coordinator := { a.coordinator with locks }, calls := a.calls ++ [.begun r] }
      | none => some { a with calls := a.calls ++ [.refused] }
    else none
  | .setFlag i =>
    match a.calls[i]? with
    | some (.begun r) =>
      some { a with coordinator := a.coordinator.setFlag, calls := a.calls.set i (.flagged r) }
    | _ => none
  | .announce i =>
    match a.calls[i]? with
    | some (.flagged r) =>
      some { a with
        coordinator := a.coordinator.announce r
        calls := a.calls.set i (.announced r)
        tokens := a.tokens.map (·.wake) }
    | _ => none
  | .token => if a.alive then some (a.enter none) else none
  | .join =>
    if a.alive then
      some (enter { a with coordinator := a.coordinator.join.2 } (some a.coordinator.join.1))
    else none
  | .clone i => (a.tokens[i]?).bind fun t => if t.wait = .dropped then none else some (a.enter none)
  | .check i => (a.tokens[i]?).bind fun t =>
    if t.wait = .idle then
      some (if a.coordinator.initiated then a.resolve i .graceful t.subscriber
        else a.setWait i .checked)
    else none
  | .look i => (a.tokens[i]?).bind fun t =>
    if t.wait.listening then
      match a.coordinator.heard t.subscriber with
      | (some r, s) => some (a.resolve i r s)
      | (none, _) => some (a.setWait i .parked)
    else none
  | .abandon i => (a.tokens[i]?).bind fun t =>
    if t.wait.listening then some (a.setWait i .idle) else none
  | .drop i => (a.tokens[i]?).bind fun t =>
    if t.wait = .dropped then none
    else
      let coordinator := a.coordinator.leave (t.counted.getD false)
      some ({ a with coordinator }.setWait i .dropped)
  | .close =>
    if a.calls.all (·.returned) then
      some { a with coordinator := a.coordinator.close, tokens := a.tokens.map (·.wake) }
    else none

def run? (a : Audience) : List Event → Option Audience
  | [] => some a
  | e :: es => (a.step? e).bind (·.run? es)

/-! ## The invariant -/

/-- How far the first call has come shows on the coordinator; the calls after it were refused. -/
inductive Staged (c : Coordinator) : List Call → Prop
  | before (hlocks : c.locks.shuttingDown = false) (hflag : c.initiated = false)
      (hsent : c.announcements.sent = []) : Staged c []
  | begun (r : Reason) (n : Nat) (hlocks : c.locks.shuttingDown = true)
      (hflag : c.initiated = false) (hsent : c.announcements.sent = []) :
      Staged c (.begun r :: List.replicate n .refused)
  | flagged (r : Reason) (n : Nat) (hlocks : c.locks.shuttingDown = true)
      (hflag : c.initiated = true) (hsent : c.announcements.sent = []) :
      Staged c (.flagged r :: List.replicate n .refused)
  | announced (r : Reason) (n : Nat) (hlocks : c.locks.shuttingDown = true)
      (hflag : c.initiated = true) (hsent : c.announcements.sent = [r]) :
      Staged c (.announced r :: List.replicate n .refused)

/-- Whoever listens has heard nothing so far, and is parked only as long as there is nothing to
hear. -/
structure Attentive (c : Coordinator) (t : Token) : Prop where
  position : t.subscriber.position ≤ c.announcements.sent.length
  listening : t.wait.listening = true → t.subscriber.position = 0
  parked : t.wait = .parked → c.announcements.sent = [] ∧ c.announcements.closed = false

structure Sound (a : Audience) : Prop where
  staged : Staged a.coordinator a.calls
  attentive : ∀ t ∈ a.tokens, Attentive a.coordinator t

/-! ### The calls -/

section Calls

variable {c : Coordinator} {calls : List Call} {i : Nat} {r : Reason}

/-- A call that was not refused is the first one. -/
theorem Staged.eq_zero {call : Call} (hs : Staged c calls) (hi : calls[i]? = some call)
    (hne : call ≠ .refused) : i = 0 := by
  have hlater (first : Call) (n : Nat) (hi : (first :: List.replicate n .refused)[i]? = some call) :
      i = 0 := by
    cases i with
    | zero => rfl
    | succ i =>
        rw [List.getElem?_cons_succ] at hi
        exact absurd (List.eq_of_mem_replicate (List.mem_of_getElem? hi)) hne
  cases hs with
  | before => cases hi
  | begun r n => exact hlater _ n hi
  | flagged r n => exact hlater _ n hi
  | announced r n => exact hlater _ n hi

theorem Staged.length_sent_le (hs : Staged c calls) : c.announcements.sent.length ≤ 1 := by
  cases hs with
  | before hlocks hflag hsent => simp [hsent]
  | begun r n hlocks hflag hsent => simp [hsent]
  | flagged r n hlocks hflag hsent => simp [hsent]
  | announced r n hlocks hflag hsent => simp [hsent]

/-- The flag is set before anything is announced. -/
theorem Staged.initiated (hs : Staged c calls) (hsent : c.announcements.sent ≠ []) :
    c.initiated = true := by
  cases hs with
  | before hlocks hflag hnone => exact absurd hnone hsent
  | begun r n hlocks hflag hnone => exact absurd hnone hsent
  | flagged r n hlocks hflag hnone => exact hflag
  | announced r n hlocks hflag hr => exact hflag

theorem Staged.congr {c' : Coordinator} (hs : Staged c calls) (hlocks : c'.locks = c.locks)
    (hflag : c'.initiated = c.initiated)
    (hsent : c'.announcements.sent = c.announcements.sent) : Staged c' calls := by
  cases hs with
  | before h₁ h₂ h₃ => exact .before (hlocks ▸ h₁) (hflag ▸ h₂) (hsent ▸ h₃)
  | begun r n h₁ h₂ h₃ => exact .begun r n (hlocks ▸ h₁) (hflag ▸ h₂) (hsent ▸ h₃)
  | flagged r n h₁ h₂ h₃ => exact .flagged r n (hlocks ▸ h₁) (hflag ▸ h₂) (hsent ▸ h₃)
  | announced r n h₁ h₂ h₃ => exact .announced r n (hlocks ▸ h₁) (hflag ▸ h₂) (hsent ▸ h₃)

theorem Staged.refused (hs : Staged c calls) (hbegun : c.locks.shuttingDown = true) :
    Staged c (calls ++ [.refused]) := by
  cases hs with
  | before h₁ => simp [h₁] at hbegun
  | begun r n h₁ h₂ h₃ =>
      rw [List.cons_append, ← List.replicate_succ']
      exact .begun r (n + 1) h₁ h₂ h₃
  | flagged r n h₁ h₂ h₃ =>
      rw [List.cons_append, ← List.replicate_succ']
      exact .flagged r (n + 1) h₁ h₂ h₃
  | announced r n h₁ h₂ h₃ =>
      rw [List.cons_append, ← List.replicate_succ']
      exact .announced r (n + 1) h₁ h₂ h₃

theorem Staged.begin (hs : Staged c calls) (hlocks : c.locks.shuttingDown = false) (r : Reason) :
    Staged { c with locks := { c.locks with shuttingDown := true } } (calls ++ [.begun r]) := by
  cases hs with
  | before h₁ h₂ h₃ => exact .begun r 0 rfl h₂ h₃
  | begun _ _ h₁ => simp [h₁] at hlocks
  | flagged _ _ h₁ => simp [h₁] at hlocks
  | announced _ _ h₁ => simp [h₁] at hlocks

theorem Staged.setFlag (hs : Staged c calls) (hi : calls[i]? = some (.begun r)) :
    Staged c.setFlag (calls.set i (.flagged r)) := by
  cases hs.eq_zero hi nofun
  cases hs with
  | before => cases hi
  | begun _ n h₁ h₂ h₃ =>
      cases hi
      exact .flagged r n h₁ rfl h₃
  | flagged => cases hi
  | announced => cases hi

theorem Staged.announce (hs : Staged c calls) (hi : calls[i]? = some (.flagged r)) :
    Staged (c.announce r) (calls.set i (.announced r)) := by
  cases hs.eq_zero hi nofun
  cases hs with
  | before => cases hi
  | begun => cases hi
  | flagged _ n h₁ h₂ h₃ =>
      cases hi
      exact .announced r n h₁ h₂ (by simp [Coordinator.announce, Broadcast.send, h₃])
  | announced => cases hi

/-- A call that has announced leaves the flag set and its announcement sent. -/
theorem Staged.of_announced (hs : Staged c calls) (hr : .announced r ∈ calls) :
    c.initiated = true ∧ c.announcements.sent = [r] := by
  have hnot {call : Call} {n : Nat} (hr : .announced r ∈ call :: List.replicate n .refused) :
      .announced r = call :=
    (List.mem_cons.mp hr).resolve_right fun h => nomatch List.eq_of_mem_replicate h
  cases hs with
  | before => cases hr
  | begun => cases hnot hr
  | flagged => cases hnot hr
  | announced r' n h₁ h₂ h₃ =>
      cases hnot hr
      exact ⟨h₂, h₃⟩

/-- When calls were made and have returned, one of them has announced. -/
theorem Staged.exists_announced (hs : Staged c calls) (hne : calls ≠ [])
    (hreturned : ∀ call ∈ calls, call.returned = true) : ∃ r, .announced r ∈ calls := by
  cases hs with
  | before => exact absurd rfl hne
  | begun => cases hreturned _ List.mem_cons_self
  | flagged => cases hreturned _ List.mem_cons_self
  | announced r => exact ⟨r, List.mem_cons_self⟩

end Calls

/-! ### The tokens -/

section Tokens

variable {c c' : Coordinator} {t : Token} {r : Reason}

/-- A token that has heard nothing hears the first announcement, or that there will be none. -/
theorem heard_first (hsent : c.announcements.sent.length ≤ 1) {s : Subscriber}
    (hs : s.position = 0) :
    c.heard s = match c.announcements.sent with
      | r :: _ => (some r, ⟨1⟩)
      | [] => (if c.announcements.closed then some .force else none, s) := by
  have holdest : c.announcements.sent.length - Broadcast.capacity = 0 :=
    Nat.sub_eq_zero_of_le (Nat.le_trans hsent (by decide))
  unfold Coordinator.heard Broadcast.receive
  rw [holdest, hs, if_neg (Nat.lt_irrefl 0)]
  cases c.announcements.sent with
  | cons r rs => rfl
  | nil => cases c.announcements.closed <;> rfl

theorem attentive_subscribe (c : Coordinator) (counted : Option Bool) :
    Attentive c { subscriber := c.announcements.subscribe, counted } where
  position := Nat.le_refl _
  listening := nofun
  parked := nofun

theorem Attentive.congr (ht : Attentive c t) (hc : c'.announcements = c.announcements) :
    Attentive c' t := by
  obtain ⟨hposition, hlistening, hparked⟩ := ht
  rw [← hc] at hposition hparked
  exact ⟨hposition, hlistening, hparked⟩

theorem Attentive.stop (ht : Attentive c t) {w : Wait} (hw : w.listening = false) :
    Attentive c { t with wait := w } where
  position := ht.position
  listening := fun h => absurd h (by simp [hw])
  parked := by
    rintro rfl
    cases hw

/-- A token hears what is sent next, and is not parked when it is. -/
theorem Attentive.announce (ht : Attentive c t) (r : Reason) : Attentive (c.announce r) t.wake where
  position := by
    simp only [Coordinator.announce, Broadcast.send, List.length_append, Token.wake]
    exact Nat.le_add_right_of_le ht.position
  listening := fun h => ht.listening (t.wait.listening_wake.symm.trans h)
  parked := fun h => absurd h t.wait.wake_ne_parked

theorem Attentive.close (ht : Attentive c t) : Attentive c.close t.wake where
  position := ht.position
  listening := fun h => ht.listening (t.wait.listening_wake.symm.trans h)
  parked := fun h => absurd h t.wait.wake_ne_parked

/-- Who finds the flag unset has not missed an announcement. -/
theorem Attentive.check (ht : Attentive c t) (hsent : c.announcements.sent = []) :
    Attentive c { t with wait := .checked } where
  position := ht.position
  listening := fun _ => by simpa [hsent] using ht.position
  parked := nofun

/-- Who looks for the announcement and finds nothing can be parked. -/
theorem Attentive.park (ht : Attentive c t) (hlistening : t.wait.listening = true)
    (hsent : c.announcements.sent.length ≤ 1) {s : Subscriber}
    (hheard : c.heard t.subscriber = (none, s)) : Attentive c { t with wait := .parked } where
  position := ht.position
  listening := fun _ => ht.listening hlistening
  parked := by
    intro _
    rw [heard_first hsent (ht.listening hlistening)] at hheard
    cases hs : c.announcements.sent with
    | cons r rs =>
        rw [hs] at hheard
        cases hheard
    | nil => simpa [hs] using (congrArg Prod.fst hheard)

/-- Who has heard the announcement is past it, and not beyond. -/
theorem Attentive.hear (ht : Attentive c t) (hlistening : t.wait.listening = true)
    (hsent : c.announcements.sent.length ≤ 1) {s : Subscriber}
    (hheard : c.heard t.subscriber = (some r, s)) :
    Attentive c { t with subscriber := s, wait := .idle } where
  position := by
    rw [heard_first hsent (ht.listening hlistening)] at hheard
    cases hs : c.announcements.sent with
    | cons r rs =>
        rw [hs] at hheard
        cases hheard
        exact Nat.le_add_left 1 rs.length
    | nil =>
        rw [hs] at hheard
        obtain rfl : t.subscriber = s := congrArg Prod.snd hheard
        exact hs ▸ ht.position
  listening := nofun
  parked := nofun

/-- While the coordinator lives, only an announcement is heard. -/
theorem sent_of_heard (hsent : c.announcements.sent.length ≤ 1)
    (hclosed : c.announcements.closed = false) {s s' : Subscriber} (hs : s.position = 0)
    (hheard : c.heard s = (some r, s')) : c.announcements.sent ≠ [] := by
  rw [heard_first hsent hs] at hheard
  intro hnil
  simp [hnil, hclosed] at hheard

end Tokens

/-! ### Steps -/

section Steps

variable {a a' : Audience}

theorem forall_mem_modify {P : Token → Prop} {ts : List Token} {i : Nat} {t : Token}
    {f : Token → Token} (hi : ts[i]? = some t) (hts : ∀ u ∈ ts, P u) (ht : P (f t)) :
    ∀ u ∈ ts.modify i f, P u := by
  intro u hu
  obtain ⟨j, hj⟩ := List.getElem?_of_mem hu
  rw [List.getElem?_modify] at hj
  by_cases hij : i = j
  · subst hij
    simp only [hi, if_true, Option.map_eq_map, Option.map_some, Option.some.injEq] at hj
    exact hj ▸ ht
  · simp only [hij, if_false, Option.map_eq_map, Option.map_id'] at hj
    exact hts u (List.mem_of_getElem? hj)

theorem sound_start (timeout : Duration) : Sound (start timeout) where
  staged := .before rfl rfl rfl
  attentive := nofun

theorem Sound.enter (ha : Sound a) (counted : Option Bool) : Sound (a.enter counted) where
  staged := ha.staged
  attentive := by
    intro t ht
    rcases List.mem_append.mp ht with ht | ht
    · exact ha.attentive t ht
    · rw [List.mem_singleton.mp ht]
      exact attentive_subscribe a.coordinator counted

theorem Sound.setWait (ha : Sound a) {i : Nat} {t : Token} {w : Wait}
    (hi : a.tokens[i]? = some t) (ht : Attentive a.coordinator { t with wait := w }) :
    Sound (a.setWait i w) where
  staged := ha.staged
  attentive := forall_mem_modify hi ha.attentive ht

theorem Sound.resolve (ha : Sound a) {i : Nat} {t : Token} {s : Subscriber}
    (hi : a.tokens[i]? = some t)
    (ht : Attentive a.coordinator { t with subscriber := s, wait := .idle }) (r : Reason) :
    Sound (a.resolve i r s) where
  staged := ha.staged
  attentive := forall_mem_modify hi ha.attentive ht

/-- A coordinator on which neither the calls nor the announcements have changed. -/
theorem Sound.congr {c : Coordinator} (ha : Sound a) (hlocks : c.locks = a.coordinator.locks)
    (hflag : c.initiated = a.coordinator.initiated)
    (hannouncements : c.announcements = a.coordinator.announcements) :
    Sound { a with coordinator := c } where
  staged := ha.staged.congr hlocks hflag (by rw [hannouncements])
  attentive := fun t ht => (ha.attentive t ht).congr hannouncements

theorem Sound.step {e : Event} (ha : Sound a) (hstep : a.step? e = some a') : Sound a' := by
  have hsent := ha.staged.length_sent_le
  cases e with
  | trigger r =>
      obtain ⟨halive, hstep⟩ := Option.ite_none_right_eq_some.mp hstep
      cases hbegun : a.coordinator.locks.shuttingDown with
      | true =>
          simp only [Locks.trigger, hbegun, if_true, Option.some.injEq] at hstep
          subst hstep
          exact ⟨ha.staged.refused hbegun, ha.attentive⟩
      | false =>
          simp only [Locks.trigger, hbegun, Bool.false_eq_true, if_false, Option.some.injEq] at hstep
          subst hstep
          exact ⟨ha.staged.begin hbegun r, fun t ht => (ha.attentive t ht).congr rfl⟩
  | setFlag i =>
      simp only [step?] at hstep
      split at hstep
      · rename_i r hi
        cases hstep
        exact ⟨ha.staged.setFlag hi, fun t ht => (ha.attentive t ht).congr rfl⟩
      · cases hstep
  | announce i =>
      simp only [step?] at hstep
      split at hstep
      · rename_i r hi
        cases hstep
        refine ⟨ha.staged.announce hi, fun t ht => ?_⟩
        obtain ⟨u, hu, rfl⟩ := List.mem_map.mp ht
        exact (ha.attentive u hu).announce r
      · cases hstep
  | token =>
      obtain ⟨-, hstep⟩ := Option.ite_none_right_eq_some.mp hstep
      cases hstep
      exact ha.enter none
  | join =>
      obtain ⟨-, hstep⟩ := Option.ite_none_right_eq_some.mp hstep
      cases hstep
      refine Sound.enter (ha.congr ?_ ?_ ?_) _
      all_goals
        unfold Coordinator.join
        split <;> rfl
  | clone i =>
      obtain ⟨t, -, hstep⟩ := Option.bind_eq_some_iff.mp hstep
      obtain ⟨-, hstep⟩ := Option.ite_none_left_eq_some.mp hstep
      cases hstep
      exact ha.enter none
  | check i =>
      obtain ⟨t, hi, hstep⟩ := Option.bind_eq_some_iff.mp hstep
      obtain ⟨hidle, hstep⟩ := Option.ite_none_right_eq_some.mp hstep
      cases hstep
      have ht := ha.attentive t (List.mem_of_getElem? hi)
      split
      · exact ha.resolve hi (ht.stop rfl) .graceful
      · rename_i hflag
        -- The flag is set before the announcement, so there is none yet.
        exact ha.setWait hi (ht.check (Classical.not_not.mp (mt ha.staged.initiated hflag)))
  | look i =>
      obtain ⟨t, hi, hstep⟩ := Option.bind_eq_some_iff.mp hstep
      obtain ⟨hlistening, hstep⟩ := Option.ite_none_right_eq_some.mp hstep
      have ht := ha.attentive t (List.mem_of_getElem? hi)
      split at hstep
      · rename_i r s hheard
        cases hstep
        exact ha.resolve hi (ht.hear hlistening hsent hheard) r
      · rename_i s hheard
        cases hstep
        exact ha.setWait hi (ht.park hlistening hsent hheard)
  | abandon i =>
      obtain ⟨t, hi, hstep⟩ := Option.bind_eq_some_iff.mp hstep
      obtain ⟨-, hstep⟩ := Option.ite_none_right_eq_some.mp hstep
      cases hstep
      exact ha.setWait hi ((ha.attentive t (List.mem_of_getElem? hi)).stop rfl)
  | drop i =>
      obtain ⟨t, hi, hstep⟩ := Option.bind_eq_some_iff.mp hstep
      obtain ⟨-, hstep⟩ := Option.ite_none_left_eq_some.mp hstep
      cases hstep
      have hleave : Sound { a with coordinator := a.coordinator.leave (t.counted.getD false) } := by
        refine ha.congr ?_ ?_ ?_
        all_goals
          unfold Coordinator.leave
          split <;> rfl
      exact hleave.setWait hi ((hleave.attentive t (List.mem_of_getElem? hi)).stop rfl)
  | close =>
      obtain ⟨-, hstep⟩ := Option.ite_none_right_eq_some.mp hstep
      cases hstep
      refine ⟨ha.staged.congr rfl rfl rfl, fun t ht => ?_⟩
      obtain ⟨u, hu, rfl⟩ := List.mem_map.mp ht
      exact (ha.attentive u hu).close

theorem Sound.run? {es : List Event} (ha : Sound a) (hrun : a.run? es = some a') : Sound a' := by
  induction es generalizing a with
  | nil =>
      cases hrun
      exact ha
  | cons e es ih =>
      obtain ⟨a₁, hstep, hrest⟩ := Option.bind_eq_some_iff.mp hrun
      exact ih (ha.step hstep) hrest

/-! ## What follows from it -/

/-- Only a wait that looks at the flag or for the announcement can end. -/
theorem resolved_step? {e : Event} (hstep : a.step? e = some a') :
    a'.resolved = a.resolved ∨ (∃ i, e = .check i) ∨ ∃ i, e = .look i := by
  cases e with
  | check i => exact .inr (.inl ⟨i, rfl⟩)
  | look i => exact .inr (.inr ⟨i, rfl⟩)
  | trigger r =>
      obtain ⟨-, hstep⟩ := Option.ite_none_right_eq_some.mp hstep
      split at hstep <;> cases hstep <;> exact .inl rfl
  | setFlag i =>
      simp only [step?] at hstep
      split at hstep <;> cases hstep
      exact .inl rfl
  | announce i =>
      simp only [step?] at hstep
      split at hstep <;> cases hstep
      exact .inl rfl
  | token | join | close =>
      obtain ⟨-, hstep⟩ := Option.ite_none_right_eq_some.mp hstep
      cases hstep
      exact .inl rfl
  | clone i | drop i =>
      obtain ⟨t, -, hstep⟩ := Option.bind_eq_some_iff.mp hstep
      obtain ⟨-, hstep⟩ := Option.ite_none_left_eq_some.mp hstep
      cases hstep
      exact .inl rfl
  | abandon i =>
      obtain ⟨t, -, hstep⟩ := Option.bind_eq_some_iff.mp hstep
      obtain ⟨-, hstep⟩ := Option.ite_none_right_eq_some.mp hstep
      cases hstep
      exact .inl rfl

/-- While the coordinator lives, a wait ends only if the flag is set. -/
theorem Sound.initiated {e : Event} (ha : Sound a) (hstep : a.step? e = some a')
    (halive : a.alive = true) (hresolved : a'.resolved ≠ a.resolved) :
    a.coordinator.initiated = true := by
  obtain ⟨i, rfl⟩ | ⟨i, rfl⟩ := (resolved_step? hstep).resolve_left hresolved
  · obtain ⟨t, -, hstep⟩ := Option.bind_eq_some_iff.mp hstep
    obtain ⟨-, hstep⟩ := Option.ite_none_right_eq_some.mp hstep
    cases hflag : a.coordinator.initiated with
    | true => rfl
    | false =>
        simp only [hflag, Bool.false_eq_true, if_false, Option.some.injEq] at hstep
        subst hstep
        exact absurd rfl hresolved
  · obtain ⟨t, hi, hstep⟩ := Option.bind_eq_some_iff.mp hstep
    obtain ⟨hlistening, hstep⟩ := Option.ite_none_right_eq_some.mp hstep
    split at hstep
    · rename_i r s hheard
      have hclosed : a.coordinator.announcements.closed = false := by simpa [alive] using halive
      have hposition := (ha.attentive t (List.mem_of_getElem? hi)).listening hlistening
      exact ha.staged.initiated
        (sent_of_heard ha.staged.length_sent_le hclosed hposition hheard)
    · cases hstep
      exact absurd rfl hresolved

/-- Once a call has announced, nobody is parked. -/
theorem Sound.not_parked {r : Reason} (ha : Sound a) (hr : .announced r ∈ a.calls) :
    ∀ t ∈ a.tokens, t.wait ≠ .parked := by
  intro t ht hparked
  have hsent := (ha.staged.of_announced hr).2
  rw [((ha.attentive t ht).parked hparked).1] at hsent
  cases hsent

/-- Once a call has announced, a wait that begins ends at once. -/
theorem Sound.check_eq {r : Reason} {i : Nat} {t : Token} (ha : Sound a)
    (hr : .announced r ∈ a.calls) (hi : a.tokens[i]? = some t) (hidle : t.wait = .idle) :
    a.step? (.check i) = some (a.resolve i .graceful t.subscriber) := by
  simp [step?, hi, hidle, (ha.staged.of_announced hr).1]

/-- Once a call has announced, a wait that has begun before ends when it looks again. -/
theorem Sound.look_eq {r : Reason} {i : Nat} {t : Token} (ha : Sound a)
    (hr : .announced r ∈ a.calls) (hi : a.tokens[i]? = some t)
    (hlistening : t.wait.listening = true) :
    a.step? (.look i) = some (a.resolve i r ⟨1⟩) := by
  have hposition := (ha.attentive t (List.mem_of_getElem? hi)).listening hlistening
  have hheard : a.coordinator.heard t.subscriber = (some r, ⟨1⟩) := by
    rw [heard_first ha.staged.length_sent_le hposition, (ha.staged.of_announced hr).2]
  simp [step?, hi, hlistening, hheard]

/-- A call that has begun can go on, whatever else happens. -/
theorem exists_setFlag {i : Nat} {r : Reason} (hi : a.calls[i]? = some (.begun r)) :
    ∃ a', a.step? (.setFlag i) = some a' ∧ a'.calls[i]? = some (.flagged r) := by
  have hlt := (List.getElem?_eq_some_iff.mp hi).1
  refine ⟨{ a with coordinator := a.coordinator.setFlag, calls := a.calls.set i (.flagged r) }, ?_,
    List.getElem?_set_self hlt⟩
  simp only [step?, hi]

theorem exists_announce {i : Nat} {r : Reason} (hi : a.calls[i]? = some (.flagged r)) :
    ∃ a', a.step? (.announce i) = some a' ∧ a'.calls[i]? = some (.announced r) := by
  have hlt := (List.getElem?_eq_some_iff.mp hi).1
  refine ⟨{ a with
    coordinator := a.coordinator.announce r
    calls := a.calls.set i (.announced r)
    tokens := a.tokens.map (·.wake) }, ?_, List.getElem?_set_self hlt⟩
  simp only [step?, hi]

/-! ## Steps in a row -/

/-- A call that nothing comes between triggers shutdown. -/
theorem run?_trigger (halive : a.alive = true)
    (hlocks : a.coordinator.locks.shuttingDown = false) (r : Reason) :
    ∃ a', a.run? [.trigger r, .setFlag a.calls.length, .announce a.calls.length] = some a' ∧
      a'.coordinator = (a.coordinator.trigger r).2 := by
  simp [run?, step?, halive, Locks.trigger, hlocks, Coordinator.trigger]

/-- A wait that nothing comes between finds what a token finds when it begins to wait. -/
theorem run?_wait {i : Nat} {t : Token} (hi : a.tokens[i]? = some t) (hidle : t.wait = .idle) :
    a.run? (if a.coordinator.initiated then [.check i] else [.check i, .look i]) =
      some (match a.coordinator.beginWait t.subscriber with
        | (some r, s) => a.resolve i r s
        | (none, _) => a.setWait i .parked) := by
  cases hflag : a.coordinator.initiated with
  | true => simp [run?, step?, hi, hidle, hflag, Coordinator.beginWait]
  | false =>
      have hcheck : a.step? (.check i) = some (a.setWait i .checked) := by
        simp [step?, hi, hidle, hflag]
      have hchecked : (a.setWait i .checked).tokens[i]? = some { t with wait := .checked } := by
        simp [setWait, hi]
      have hlook : (a.setWait i .checked).step? (.look i) =
          some (match a.coordinator.heard t.subscriber with
            | (some r, s) => a.resolve i r s
            | (none, _) => a.setWait i .parked) := by
        simp only [step?, hchecked, Option.bind_some, Wait.listening, if_true]
        change (match a.coordinator.heard t.subscriber with
          | (some r, s) => _
          | (none, _) => _) = _
        split <;> simp [setWait, resolve, List.modify_modify_eq, Function.comp_def]
      simp only [Bool.false_eq_true, if_false, run?, hcheck, Option.bind_some, hlook,
        Coordinator.beginWait, hflag]

/-! ## Every interleaving -/

/-- Whatever comes between the steps of triggers, waits and tokens: once a call has announced, no wait
is parked, one that begins ends at once and one that has begun ends when it looks again, whatever
token it is with. A call that was made and has returned, with none still under way, means that one has
announced; and one under way can always go on until it has. As long as the coordinator lives, no wait
ends before the flag is set. -/
theorem run?_woken {timeout : Duration} {es : List Event}
    (hrun : (start timeout).run? es = some a) :
    (∀ r, .announced r ∈ a.calls → (∀ t ∈ a.tokens, t.wait ≠ .parked) ∧
      ∀ i t, a.tokens[i]? = some t →
        (t.wait = .idle → a.step? (.check i) = some (a.resolve i .graceful t.subscriber)) ∧
        (t.wait.listening = true → a.step? (.look i) = some (a.resolve i r ⟨1⟩))) ∧
      (a.calls ≠ [] → (∀ call ∈ a.calls, call.returned = true) → ∃ r, .announced r ∈ a.calls) ∧
      (∀ i r, a.calls[i]? = some (.begun r) →
        ∃ a', a.step? (.setFlag i) = some a' ∧ a'.calls[i]? = some (.flagged r)) ∧
      (∀ i r, a.calls[i]? = some (.flagged r) →
        ∃ a', a.step? (.announce i) = some a' ∧ a'.calls[i]? = some (.announced r)) ∧
      ∀ e a', a.step? e = some a' → a.alive = true → a'.resolved ≠ a.resolved →
        a.coordinator.initiated = true := by
  have ha : Sound a := (sound_start timeout).run? hrun
  refine ⟨fun r hr => ⟨ha.not_parked hr, fun i t hi => ⟨ha.check_eq hr hi, ha.look_eq hr hi⟩⟩,
    ha.staged.exists_announced, fun i r => exists_setFlag, fun i r => exists_announce,
    fun e a' => ha.initiated⟩

/-- A token is parked, another one finds the flag unset, and a third is cloned from the first between
the flag and the announcement. After the announcement all three waits end, and so does that of a token
created later still. -/
theorem run?_woken_between :
    let es : List Event :=
      [.token, .join, .check 0, .look 0, .check 1, .trigger .force, .trigger .graceful, .setFlag 0,
        .clone 0, .announce 0, .token]
    ∃ a : Audience, (start .oneSecond).run? es = some a ∧
      a.calls = [.announced .force, .refused] ∧
      a.tokens.map (·.wait) = [.woken, .checked, .idle, .idle] ∧
      (∀ i ∈ [0, 1], a.step? (.look i) = some (a.resolve i .force ⟨1⟩)) ∧
      ∃ s₂ s₃, a.step? (.check 2) = some (a.resolve 2 .graceful s₂) ∧
        a.step? (.check 3) = some (a.resolve 3 .graceful s₃) := by
  intro es
  have hview : ((start .oneSecond).run? es).map (fun a => (a.calls, a.tokens)) =
      some ([.announced .force, .refused],
        [⟨⟨0⟩, .woken, none⟩, ⟨⟨0⟩, .checked, some true⟩, ⟨⟨0⟩, .idle, none⟩, ⟨⟨1⟩, .idle, none⟩]) := by
    decide
  obtain ⟨a, hrun, ha⟩ := Option.map_eq_some_iff.mp hview
  obtain ⟨hcalls, htokens⟩ := Prod.mk.inj ha
  obtain ⟨hwoken, -⟩ := run?_woken hrun
  have hends := (hwoken .force (by simp [hcalls])).2
  refine ⟨a, hrun, hcalls, by simp [htokens], fun i hi => ?_, _, _,
    (hends 2 _ (by rw [htokens]; rfl)).1 rfl, (hends 3 _ (by rw [htokens]; rfl)).1 rfl⟩
  simp only [List.mem_cons, List.not_mem_nil, or_false] at hi
  rcases hi with rfl | rfl
  · exact (hends 0 _ (by rw [htokens]; rfl)).2 rfl
  · exact (hends 1 _ (by rw [htokens]; rfl)).2 rfl

end Steps

end Audience

end ReverseProxy.Shutdown
