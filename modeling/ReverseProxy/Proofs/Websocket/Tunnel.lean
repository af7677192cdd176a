import Mathlib.Data.List.Basic
import ReverseProxy.Websocket.Handover

/-!
# Bytes through a relay

The two directions of a relay copy bytes by themselves, each read and each write on its own, with
anything in between, until the first of them ends. What a side has received is at every moment what
the other side sent first, and if the stream of a side was copied to its end, nothing of it is
missing: `run?_relayed`. Each step of a `Tunnel` is what the `Relay` behind it says.
-/

namespace ReverseProxy.Websocket

/-! ## What a relay keeps -/

namespace Stream

/-- Everything that was sent, wherever it is now. -/
def whole (s : Stream) : List UInt8 := s.delivered ++ s.held ++ s.unread

variable {s : Stream}

theorem whole_send (hs : s.closed = false) (bytes : List UInt8) :
    (s.send bytes).whole = s.whole ++ bytes := by
  simp [send, hs, whole]

theorem whole_read (n : Nat) : (s.read n).whole = s.whole := by
  simp [read, whole]

theorem whole_write (n : Nat) : (s.write n).whole = s.whole := by
  simp [write, whole]

theorem whole_of_isDone (h : s.isDone = true) : s.whole = s.delivered := by
  simp only [isDone, Bool.and_eq_true, List.isEmpty_iff] at h
  simp [whole, h.2, h.1.2]

end Stream

/-! ## The two directions at work -/

def bufferSize : Nat := 8192

/-- One direction, named for the side that sends. -/
structure Lane where
  /-- Received together with the head of a message, and not read yet. -/
  early : List UInt8 := []
  /-- Received later, and not read yet. -/
  unread : List UInt8 := []
  closed : Bool := false
  held : List UInt8 := []
  /-- Whether the end of the stream has been read. -/
  sawEnd : Bool := false
  delivered : List UInt8 := []
deriving DecidableEq, Repr

namespace Lane

inductive Move
  | send (bytes : List UInt8)
  | close
  | read (n : Nat)
  | readEnd
  | write (n : Nat)
deriving DecidableEq, Repr

/-- Whether it is the relay that moves, and not the side that sends. -/
def Move.isCopying : Move → Bool
  | send _ | close => false
  | read _ | readEnd | write _ => true

variable (l : Lane)

/-- Reads some bytes. Those that came early are read first, and by themselves. -/
def read? (n : Nat) : Option Lane :=
  if l.early ≠ [] then
    if n ≤ l.early.length then
      some { l with early := l.early.drop n, held := l.held ++ l.early.take n }
    else none
  else
    if n ≤ l.unread.length then
      some { l with unread := l.unread.drop n, held := l.held ++ l.unread.take n }
    else none

/-- What follows; none if it cannot happen. Nothing is read any more once the end has been read, and
the end is read when there is nothing else to read. -/
def move? : Move → Option Lane
  | .send bytes => if l.closed then none else some { l with unread := l.unread ++ bytes }
  | .close => if l.closed then none else some { l with closed := true }
  | .read n =>
    if l.sawEnd = false ∧ 0 < n ∧ l.held.length + n ≤ bufferSize then l.read? n else none
  | .readEnd =>
    if l.sawEnd = false ∧ l.closed = true ∧ l.early = [] ∧ l.unread = [] then
      some { l with sawEnd := true }
    else none
  | .write n =>
    if 0 < n ∧ n ≤ l.held.length then
      some { l with held := l.held.drop n, delivered := l.delivered ++ l.held.take n }
    else none

/-- The direction has copied its stream: the end was read, and all before it is written. -/
def isDone : Bool := l.sawEnd && l.held.isEmpty

def stream : Stream :=
  { unread := l.early ++ l.unread, held := l.held, delivered := l.delivered, closed := l.closed }

/-! ### One move -/

inductive Moved (l : Lane) : Move → Lane → Prop
  | send (bytes : List UInt8) (isOpen : l.closed = false) :
      Moved l (.send bytes) { l with unread := l.unread ++ bytes }
  | close (isOpen : l.closed = false) : Moved l .close { l with closed := true }
  | readEarly (n : Nat) (unended : l.sawEnd = false) (fits : n ≤ l.early.length) :
      Moved l (.read n) { l with early := l.early.drop n, held := l.held ++ l.early.take n }
  | readLater (n : Nat) (unended : l.sawEnd = false) (none : l.early = []) :
      Moved l (.read n) { l with unread := l.unread.drop n, held := l.held ++ l.unread.take n }
  | readEnd (closed : l.closed = true) (early : l.early = []) (unread : l.unread = []) :
      Moved l .readEnd { l with sawEnd := true }
  | write (n : Nat) (pos : 0 < n) (fits : n ≤ l.held.length) :
      Moved l (.write n) { l with held := l.held.drop n, delivered := l.delivered ++ l.held.take n }

variable {l} {l' : Lane} {m : Move}

theorem moved_of_move? (h : l.move? m = some l') : Moved l m l' := by
  cases m with
  | send bytes =>
      obtain ⟨hopen, h⟩ := Option.ite_none_left_eq_some.mp h
      cases h
      exact .send bytes (Bool.eq_false_iff.mpr hopen)
  | close =>
      obtain ⟨hopen, h⟩ := Option.ite_none_left_eq_some.mp h
      cases h
      exact .close (Bool.eq_false_iff.mpr hopen)
  | read n =>
      obtain ⟨⟨hunended, -, -⟩, h⟩ := Option.ite_none_right_eq_some.mp h
      unfold read? at h
      split at h
      · obtain ⟨hfits, h⟩ := Option.ite_none_right_eq_some.mp h
        cases h
        exact .readEarly n hunended hfits
      · rename_i hnone
        obtain ⟨-, h⟩ := Option.ite_none_right_eq_some.mp h
        cases h
        exact .readLater n hunended (not_not.mp hnone)
  | readEnd =>
      obtain ⟨⟨-, hclosed, hearly, hunread⟩, h⟩ := Option.ite_none_right_eq_some.mp h
      cases h
      exact .readEnd hclosed hearly hunread
  | write n =>
      obtain ⟨⟨hpos, hfits⟩, h⟩ := Option.ite_none_right_eq_some.mp h
      cases h
      exact .write n hpos hfits

def Move.onStream : Move → Stream → Stream
  | send bytes => (·.send bytes)
  | close => (·.close)
  | read n => (·.read n)
  | readEnd => id
  | write n => (·.write n)

def Move.sent : Move → List UInt8
  | send bytes => bytes
  | close | read _ | readEnd | write _ => []

theorem Moved.stream (h : Moved l m l') : l'.stream = m.onStream l.stream := by
  cases h with
  | send bytes isOpen => simp [Lane.stream, Move.onStream, Stream.send, isOpen]
  | close isOpen => rfl
  | readEarly n unended fits =>
      simp [Lane.stream, Move.onStream, Stream.read, List.drop_append_of_le_length fits,
        List.take_append_of_le_length fits]
  | readLater n unended none => simp [Lane.stream, Move.onStream, Stream.read, none]
  | readEnd closed early unread => rfl
  | write n pos fits => rfl

theorem Moved.whole (h : Moved l m l') : l'.stream.whole = l.stream.whole ++ m.sent := by
  rw [h.stream]
  cases h with
  | send bytes isOpen => exact Stream.whole_send isOpen bytes
  | close isOpen => exact (List.append_nil _).symm
  | readEarly n unended fits => exact (Stream.whole_read n).trans (List.append_nil _).symm
  | readLater n unended none => exact (Stream.whole_read n).trans (List.append_nil _).symm
  | readEnd closed early unread => exact (List.append_nil _).symm
  | write n pos fits => exact (Stream.whole_write n).trans (List.append_nil _).symm

/-- The end that was read is the end of the stream: nothing is left, and nothing more will come. -/
def Sound (l : Lane) : Prop :=
  l.sawEnd = true → l.closed = true ∧ l.early = [] ∧ l.unread = []

theorem Moved.sound (h : Moved l m l') (hl : l.Sound) : l'.Sound := by
  intro hsaw
  cases h with
  | send bytes isOpen =>
      -- The end is read only of a stream that was closed, and nobody sends on such a stream.
      rw [(hl hsaw).1] at isOpen
      cases isOpen
  | close isOpen => exact ⟨rfl, (hl hsaw).2⟩
  | readEarly n unended fits => exact absurd hsaw (by simp [unended])
  | readLater n unended none => exact absurd hsaw (by simp [unended])
  | readEnd closed early unread => exact ⟨closed, early, unread⟩
  | write n pos fits => exact hl hsaw

/-- Only the relay moves on. -/
theorem Moved.isDone (h : Moved l m l') (hm : m.isCopying = false) : l'.isDone = l.isDone := by
  cases h with
  | send bytes isOpen => rfl
  | close isOpen => rfl
  | _ => cases hm

theorem Sound.isDone_stream (hl : l.Sound) (h : l.isDone = true) : l.stream.isDone = true := by
  obtain ⟨hsaw, hheld⟩ := Bool.and_eq_true_iff.mp h
  obtain ⟨hclosed, hearly, hunread⟩ := hl hsaw
  simp [Lane.stream, Stream.isDone, hclosed, hearly, hunread, hheld]

/-! ### Copying to the end -/

/-- How many reads and writes of one byte are to come, at most. -/
def pending (l : Lane) : Nat := 2 * (l.early.length + l.unread.length) + l.held.length

def moves? (l : Lane) (ms : List Move) : Option Lane := ms.foldlM move? l

/-- There is a move of the relay for every direction that is not done though its side has ended. -/
theorem exists_move? (hc : l.closed = true) (hdone : l.isDone = false) :
    ∃ m l', m.isCopying = true ∧ l.move? m = some l' ∧ l'.closed = true ∧
      (l'.pending < l.pending ∨ l'.isDone = true) := by
  cases hheld : l.held with
  | cons x xs =>
      refine ⟨.write l.held.length, _, rfl, if_pos ⟨by simp [hheld], Nat.le_refl _⟩, hc, .inl ?_⟩
      simp [pending, hheld]
  | nil =>
      have hunended : l.sawEnd = false := by simpa [isDone, hheld] using hdone
      have hroom : l.sawEnd = false ∧ 0 < 1 ∧ l.held.length + 1 ≤ bufferSize :=
        ⟨hunended, Nat.one_pos, by simp [hheld, bufferSize]⟩
      cases hearly : l.early with
      | cons x xs =>
          refine ⟨.read 1, { l with early := xs, held := [x] }, rfl, ?_, hc, .inl ?_⟩
          · rw [move?, if_pos hroom]
            simp [read?, hearly, hheld]
          · simp [pending, hearly, hheld]
            omega
      | nil =>
          cases hunread : l.unread with
          | cons x xs =>
              refine ⟨.read 1, { l with unread := xs, held := [x] }, rfl, ?_, hc, .inl ?_⟩
              · rw [move?, if_pos hroom]
                simp [read?, hearly, hunread, hheld]
              · simp [pending, hearly, hunread, hheld]
                omega
          | nil =>
              refine ⟨.readEnd, _, rfl, if_pos ⟨hunended, hc, hearly, hunread⟩, hc, .inr ?_⟩
              simp [isDone, hheld]

theorem exists_moves? (hc : l.closed = true) :
    ∃ ms l', (∀ m ∈ ms, m.isCopying = true) ∧ l.moves? ms = some l' ∧ l'.isDone = true := by
  -- Every move either brings the direction to its end or leaves it less to do.
  induction hn : l.pending using Nat.strongRecOn generalizing l with
  | ind n ih =>
      cases hdone : l.isDone with
      | true => exact ⟨[], l, by simp, rfl, hdone⟩
      | false =>
          obtain ⟨m, l₁, hm, hmove, hc₁, hless | hdone₁⟩ := exists_move? hc hdone
          · obtain ⟨ms, l', hms, hmoves, hdone'⟩ := ih _ (hn ▸ hless) hc₁ rfl
            exact ⟨m :: ms, l', List.forall_mem_cons.mpr ⟨hm, hms⟩,
              Option.bind_eq_some_iff.mpr ⟨l₁, hmove, hmoves⟩, hdone'⟩
          · exact ⟨[m], l₁, by simpa using hm, Option.bind_eq_some_iff.mpr ⟨l₁, hmove, rfl⟩, hdone₁⟩

end Lane

inductive Phase
  /-- The connections are about to be handed over. -/
  | joining
  /-- One of them was not, and both are dropped. -/
  | dropped
  | copying
  /-- The first direction has ended, and the other one was stopped. -/
  | ended (why : End)
  /-- The write half of the client is shut. -/
  | half (why : End)
  /-- That of the backend is shut, too. -/
  | closed (why : End)
deriving DecidableEq, Repr

/-- A relay at work between two connections. -/
structure Tunnel where
  phase : Phase := .joining
  client : Lane := {}
  backend : Lane := {}
deriving DecidableEq, Repr

namespace Tunnel

inductive Event
  | move (s : Side) (m : Lane.Move)
  | join
  | drop
  /-- The direction from a side finds that it has copied everything. -/
  | finish (s : Side)
  /-- The direction from a side fails, in reading from it or in writing to the other. -/
  | fail (s : Side)
  /-- The next write half is shut. -/
  | shut
deriving DecidableEq, Repr

/-- A tunnel for a relay, with what the client sent right after its request. -/
def ofRelay (r : Relay) (fromClient : List UInt8) : Tunnel :=
  { client := { early := fromClient }, backend := { early := r.fromBackend.unread } }

variable (t : Tunnel)

def lane : Side → Lane
  | .client => t.client
  | .backend => t.backend

def setLane (s : Side) (l : Lane) : Tunnel :=
  match s with
  | .client => { t with client := l }
  | .backend => { t with backend := l }

def ended? : Option End :=
  match t.phase with
  | .ended why | .half why | .closed why => some why
  | .joining | .dropped | .copying => none

def isShut (s : Side) : Bool :=
  match t.phase with
  | .half _ => s = .client
  | .closed _ => true
  | .joining | .dropped | .copying | .ended _ => false

def received (s : Side) : List UInt8 := (t.lane s.other).delivered

/-- What follows; none if it cannot happen. The directions only copy while both do. -/
def step? : Event → Option Tunnel
  | .move s m =>
    if m.isCopying = true → t.phase = .copying then ((t.lane s).move? m).map (t.setLane s) else none
  | .join => if t.phase = .joining then some { t with phase := .copying } else none
  | .drop => if t.phase = .joining then some { t with phase := .dropped } else none
  | .finish s =>
    if t.phase = .copying ∧ (t.lane s).isDone = true then
      some { t with phase := .ended (.finished s) }
    else none
  | .fail s => if t.phase = .copying then some { t with phase := .ended (.failed s) } else none
  | .shut =>
    match t.phase with
    | .ended why => some { t with phase := .half why }
    | .half why => some { t with phase := .closed why }
    | .joining | .dropped | .copying | .closed _ => none

def run? (es : List Event) : Option Tunnel := es.foldlM step? t

def Event.sent (s : Side) : Event → List UInt8
  | .move s' m => if s' = s then m.sent else []
  | .join | .drop | .finish _ | .fail _ | .shut => []

def sentBy (s : Side) (es : List Event) : List UInt8 := es.flatMap (Event.sent s)

def relay : Relay :=
  { fromClient := t.client.stream, fromBackend := t.backend.stream, ended := t.ended? }

/-- What an event of the tunnel is to the relay. -/
def Event.forRelay : Event → List Relay.Event
  | .move s (.send bytes) => [.send s bytes]
  | .move s .close => [.close s]
  | .move s (.read n) => [.read s n]
  | .move s (.write n) => [.write s n]
  | .finish s => [.finish s]
  | .fail s => [.fail s]
  | .move _ .readEnd | .join | .drop | .shut => []

/-! ## One step -/

section Step

variable {t} {t' : Tunnel} {e : Event} {s s' : Side} {l : Lane}

@[simp]
theorem lane_setLane_self (t : Tunnel) (s : Side) (l : Lane) : (t.setLane s l).lane s = l := by
  cases s <;> rfl

theorem lane_setLane (t : Tunnel) (s s' : Side) (l : Lane) :
    (t.setLane s l).lane s' = if s = s' then l else t.lane s' := by
  cases s <;> cases s' <;> rfl

@[simp]
theorem lane_withPhase (t : Tunnel) (phase : Phase) (s : Side) :
    ({ t with phase } : Tunnel).lane s = t.lane s := by
  cases s <;> rfl

@[simp]
theorem phase_setLane (t : Tunnel) (s : Side) (l : Lane) : (t.setLane s l).phase = t.phase := by
  cases s <;> rfl

theorem relay_setLane {g : Stream → Stream} (h : l.stream = g (t.lane s).stream) :
    (t.setLane s l).relay = t.relay.update s g := by
  cases s <;> simpa [relay, setLane, lane, Relay.update, ended?] using h

inductive Step (t : Tunnel) : Event → Tunnel → Prop
  | move (s : Side) (m : Lane.Move) (l : Lane) (copies : m.isCopying = true → t.phase = .copying)
      (moved : (t.lane s).Moved m l) : Step t (.move s m) (t.setLane s l)
  | join (phase : t.phase = .joining) : Step t .join { t with phase := .copying }
  | drop (phase : t.phase = .joining) : Step t .drop { t with phase := .dropped }
  | finish (s : Side) (phase : t.phase = .copying) (isDone : (t.lane s).isDone = true) :
      Step t (.finish s) { t with phase := .ended (.finished s) }
  | fail (s : Side) (phase : t.phase = .copying) :
      Step t (.fail s) { t with phase := .ended (.failed s) }
  | shutClient (why : End) (phase : t.phase = .ended why) :
      Step t .shut { t with phase := .half why }
  | shutBackend (why : End) (phase : t.phase = .half why) :
      Step t .shut { t with phase := .closed why }

theorem step_of_step? (h : t.step? e = some t') : Step t e t' := by
  cases e with
  | move s m =>
      obtain ⟨hcopies, h⟩ := Option.ite_none_right_eq_some.mp h
      obtain ⟨l, hl, rfl⟩ := Option.map_eq_some_iff.mp h
      exact .move s m l hcopies (Lane.moved_of_move? hl)
  | join =>
      obtain ⟨hphase, h⟩ := Option.ite_none_right_eq_some.mp h
      cases h
      exact .join hphase
  | drop =>
      obtain ⟨hphase, h⟩ := Option.ite_none_right_eq_some.mp h
      cases h
      exact .drop hphase
  | finish s =>
      obtain ⟨⟨hphase, hdone⟩, h⟩ := Option.ite_none_right_eq_some.mp h
      cases h
      exact .finish s hphase hdone
  | fail s =>
      obtain ⟨hphase, h⟩ := Option.ite_none_right_eq_some.mp h
      cases h
      exact .fail s hphase
  | shut =>
      rw [step?] at h
      split at h
      · rename_i why hphase
        cases h
        exact .shutClient why hphase
      · rename_i why hphase
        cases h
        exact .shutBackend why hphase
      · cases h
      · cases h
      · cases h
      · cases h

theorem ended?_of_phase (h : t.phase = t'.phase) : t.ended? = t'.ended? := by
  simp [ended?, h]

structure Sound (sent : Side → List UInt8) (t : Tunnel) : Prop where
  lane : ∀ s, (t.lane s).Sound
  whole : ∀ s, (t.lane s).stream.whole = sent s
  finished : ∀ s, t.ended? = some (.finished s) → (t.lane s).isDone = true

variable {sent : Side → List UInt8}

/-- A step that leaves both directions as they are, so that nothing is sent in it. -/
theorem Sound.withPhase (h : Sound sent t) (phase : Phase)
    (hdone : ∀ s, ({ t with phase } : Tunnel).ended? = some (.finished s) →
      (t.lane s).isDone = true) : Sound (fun s => sent s ++ []) { t with phase } where
  lane := by simpa using h.lane
  whole := by simpa using h.whole
  finished := by simpa using hdone

theorem Sound.move (h : Sound sent t) {m : Lane.Move}
    (hcopies : m.isCopying = true → t.phase = .copying) (hm : (t.lane s).Moved m l) :
    Sound (fun s' => sent s' ++ Event.sent s' (.move s m)) (t.setLane s l) := by
  constructor
  · intro s'
    rw [lane_setLane]
    split
    · exact hm.sound (h.lane s)
    · exact h.lane s'
  · intro s'
    rw [lane_setLane, Event.sent]
    split
    · rename_i heq
      rw [hm.whole, h.whole, heq]
    · rw [h.whole, List.append_nil]
  · intro s' hs'
    rw [ended?_of_phase (phase_setLane t s l)] at hs'
    have hdone := h.finished s' hs'
    rw [lane_setLane]
    split
    · rename_i heq
      -- A direction that has finished is not copying any more: only its side can have moved.
      have hstill : m.isCopying = false := by
        rw [Bool.eq_false_iff]
        intro hm
        simp [ended?, hcopies hm] at hs'
      rw [hm.isDone hstill, heq]
      exact hdone
    · exact hdone

theorem Sound.step (h : Sound sent t) (hs : Step t e t') :
    Sound (fun s => sent s ++ e.sent s) t' := by
  cases hs with
  | move s m l copies moved => exact h.move copies moved
  | join phase => exact h.withPhase .copying fun s hs => by cases hs
  | drop phase => exact h.withPhase .dropped fun s hs => by cases hs
  | finish s phase isDone =>
      refine h.withPhase (.ended (.finished s)) fun s' hs' => ?_
      cases hs'
      exact isDone
  | fail s phase => exact h.withPhase (.ended (.failed s)) fun s' hs' => by cases hs'
  | shutClient why phase | shutBackend why phase =>
      refine h.withPhase _ fun s hs => h.finished s ?_
      simpa [ended?, phase] using hs

theorem isRunning_relay (h : t.phase = .copying) : t.relay.isRunning = true := by
  simp [Relay.isRunning, relay, ended?, h]

theorem stream_relay (t : Tunnel) (s : Side) : t.relay.stream s = (t.lane s).stream := by
  cases s <;> rfl

theorem run_move (m : Lane.Move) (hcopies : m.isCopying = true → t.phase = .copying) :
    t.relay.run (Event.forRelay (.move s m)) = t.relay.update s m.onStream := by
  cases m with
  | send bytes => rfl
  | close => rfl
  | read n => exact if_pos (isRunning_relay (hcopies rfl))
  | readEnd => cases s <;> rfl
  | write n => exact if_pos (isRunning_relay (hcopies rfl))

/-- A step does what the relay does about it. -/
theorem Step.relay (hs : Step t e t') (h : Sound sent t) :
    t'.relay = t.relay.run e.forRelay := by
  cases hs with
  | move s m l copies moved => rw [relay_setLane moved.stream, run_move m copies]
  | finish s phase isDone =>
      have hdone : (t.relay.stream s).isDone = true := by
        rw [stream_relay]
        exact (h.lane s).isDone_stream isDone
      simp only [Event.forRelay, Relay.run, List.foldl_cons, List.foldl_nil, Relay.step, hdone,
        isRunning_relay phase, Bool.and_self, if_true]
      rfl
  | fail s phase =>
      simp only [Event.forRelay, Relay.run, List.foldl_cons, List.foldl_nil, Relay.step,
        isRunning_relay phase, if_true]
      rfl
  | join phase | drop phase | shutClient why phase | shutBackend why phase =>
      simp [Tunnel.relay, ended?, phase, Event.forRelay, Relay.run]

end Step

/-! ## Every order of steps -/

section Run

variable {t t' : Tunnel} {sent : Side → List UInt8} {es : List Event}

theorem Sound.run? (h : Sound sent t) (hr : t.run? es = some t') :
    Sound (fun s => sent s ++ sentBy s es) t' ∧
      t'.relay = t.relay.run (es.flatMap Event.forRelay) := by
  induction es generalizing t sent with
  | nil =>
      cases hr
      simpa [sentBy, Relay.run] using h
  | cons e es ih =>
      obtain ⟨t₁, hs, hr⟩ := Option.bind_eq_some_iff.mp hr
      have hstep := step_of_step? hs
      obtain ⟨hsound, hrelay⟩ := ih (h.step hstep) hr
      rw [hstep.relay h] at hrelay
      refine ⟨by simpa [sentBy] using hsound, ?_⟩
      rw [hrelay, List.flatMap_cons, Relay.run, Relay.run, Relay.run, List.foldl_append]

theorem run?_moves (hphase : t.phase = .copying) (s : Side) {l : Lane} {ms : List Lane.Move}
    (hms : (t.lane s).moves? ms = some l) : t.run? (ms.map (.move s)) = some (t.setLane s l) := by
  induction ms generalizing t with
  | nil =>
      cases hms
      cases s <;> rfl
  | cons m ms ih =>
      obtain ⟨l₁, hm, hms⟩ := Option.bind_eq_some_iff.mp hms
      have hstep : t.step? (.move s m) = some (t.setLane s l₁) := by
        simp [step?, hphase, hm]
      have hrest := ih (t := t.setLane s l₁) (by simpa using hphase)
        (by simpa [Lane.moves?] using hms)
      refine Option.bind_eq_some_iff.mpr ⟨_, hstep, hrest.trans ?_⟩
      cases s <;> rfl

theorem run?_append (es es' : List Event) :
    t.run? (es ++ es') = (t.run? es).bind (·.run? es') :=
  List.foldlM_append

/-- When a side has ended its stream, the direction from it can come to its end by itself. -/
theorem exists_finish (hphase : t.phase = .copying) {s : Side} (hc : (t.lane s).closed = true) :
    ∃ ms : List Lane.Move, (∀ m ∈ ms, m.isCopying = true) ∧
      (t.run? (ms.map (.move s) ++ [.finish s])).isSome = true := by
  obtain ⟨ms, l, hms, hmoves, hdone⟩ := (t.lane s).exists_moves? hc
  refine ⟨ms, hms, ?_⟩
  rw [run?_append, run?_moves hphase s hmoves]
  simp [run?, step?, hphase, hdone]

end Run

/-- What each side had sent before the connections were handed over. -/
def opening (fromClient fromBackend : List UInt8) : Side → List UInt8
  | .client => fromClient
  | .backend => fromBackend

theorem sound_ofRelay (fromClient fromBackend : List UInt8) :
    Sound (opening fromClient fromBackend) (ofRelay (.start fromBackend) fromClient) where
  lane := by
    intro s hs
    cases s <;> cases hs
  whole := by
    intro s
    cases s <;> simp [ofRelay, lane, Lane.stream, Stream.whole, opening, Relay.start]
  finished := by
    intro s hs
    cases hs

theorem relay_ofRelay (fromClient fromBackend : List UInt8) :
    (ofRelay (.start fromBackend) fromClient).relay =
      (Relay.start fromBackend).step (.send .client fromClient) := by
  simp [ofRelay, relay, Lane.stream, ended?, Relay.step, Relay.update, Relay.start, Stream.send]

/-- Once a backend agrees to switch protocols, and in whatever order the sides send and end their
streams, either direction reads, writes and fails, and both connections are shut: what a side has
received is what the other sent first, from the bytes right behind the answer on. If the relay has
come to the end of a stream, all of it was received, and no connection is shut before the relay has
ended. A stream that has ended can be copied to its end. Each step is what the relay says that the
connections were handed to. -/
theorem run?_relayed {answer : Http.Response} {fromBackend : List UInt8} {relay : Relay}
    (ha : (Attempt.answered answer fromBackend).conclude.2 = some relay) (fromClient : List UInt8)
    {es : List Event} {t : Tunnel} (hr : (ofRelay relay fromClient).run? es = some t) :
    let sent (s : Side) := opening fromClient fromBackend s ++ sentBy s es
    (∀ s, t.received s <+: sent s.other) ∧
      (∀ s, t.ended? = some (.finished s.other) → t.received s = sent s.other) ∧
      (∀ s, t.ended? = none → t.isShut s = false) ∧
      (∀ s, t.phase = .copying → (t.lane s).closed = true →
        ∃ ms : List Lane.Move, (∀ m ∈ ms, m.isCopying = true) ∧
          (t.run? (ms.map (.move s) ++ [.finish s])).isSome = true) ∧
      t.relay = relay.run (.send .client fromClient :: es.flatMap Event.forRelay) := by
  intro sent
  obtain rfl : .start fromBackend = relay := by
    rw [Attempt.conclude] at ha
    split at ha
    · exact Option.some.inj ha
    · cases ha
  obtain ⟨hsound, hrelay⟩ := (sound_ofRelay fromClient fromBackend).run? hr
  refine ⟨fun s => ?_, fun s hs => ?_, fun s hs => ?_, fun s hphase hc => exists_finish hphase hc,
    ?_⟩
  · exact ⟨_, (List.append_assoc _ _ _).symm.trans (hsound.whole s.other)⟩
  · have hdone := (hsound.lane s.other).isDone_stream (hsound.finished s.other hs)
    exact (Stream.whole_of_isDone hdone).symm.trans (hsound.whole s.other)
  · cases hphase : t.phase <;> simp [ended?, isShut, hphase] at hs ⊢
  · rw [hrelay, relay_ofRelay]
    rfl

/-- The client ends its stream, and all of it arrives; of what the backend sent, one byte was held
when its direction was stopped, and one came too late. -/
theorem run?_relayed_stopped :
    let answer : Http.Response := ⟨⟨101, by decide⟩, .empty, []⟩
    let relay : Relay := .start [104, 105]
    let es : List Event :=
      [.move .client (.send [2, 3]), .join, .move .backend (.read 1), .move .client (.read 1),
        .move .client (.write 1), .move .backend (.write 1), .move .client (.read 2),
        .move .client .close, .move .backend (.read 1), .move .client (.write 1),
        .move .client .readEnd, .move .client (.write 1), .finish .client, .shut,
        .move .backend (.send [9]), .shut]
    (Attempt.answered answer [104, 105]).conclude.2 = some relay ∧
      ∃ t, (ofRelay relay [1]).run? es = some t ∧ t.phase = .closed (.finished .client) ∧
        t.received .client = [104] ∧ t.received .client <+: [104, 105, 9] ∧
        t.received .backend = [1, 2, 3] ∧
        t.relay = relay.run (.send .client [1] :: es.flatMap Event.forRelay) := by
  intro answer relay es
  have ha : (Attempt.answered answer [104, 105]).conclude.2 = some relay := by decide
  have hview : ((ofRelay relay [1]).run? es).any (fun t =>
      t.phase = .closed (.finished .client) ∧ t.received .client = [104]) = true := by decide
  obtain ⟨t, hrun, hview⟩ := (Option.any_eq_true _ _).mp hview
  obtain ⟨hphase, hreceived⟩ := of_decide_eq_true hview
  obtain ⟨hfirst, hall, -, -, hrelay⟩ := run?_relayed ha [1] hrun
  have hended : t.ended? = some (.finished .client) := by simp [ended?, hphase]
  exact ⟨ha, t, hrun, hphase, hreceived, hfirst .client, hall .backend hended, hrelay⟩

end Tunnel

end ReverseProxy.Websocket
