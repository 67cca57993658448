import MochadBridge.Lib.Run
import MochadBridge.MochadClient

/-!
# Stopping the mochad client

`MochadClient` with the thread that reads and the thread that calls `stop()`. Their
steps interleave in any order; a block under `_socket_lock` is one step, and so is a
call of the socket factory, which runs outside the lock.

Results:
1. `Client.step_consistent`: each socket that the factory has returned is closed,
   installed or held by one of the threads.
2. `Client.stop_releases`: once `stop()` has taken the lock, no socket is installed,
   and a socket that is still open is closed by the next step of the thread that
   holds it.
3. `Client.stop_closes_all`: when both threads are done, every socket is closed.
-/

namespace MochadBridge

/-! ## The client and its threads -/

/-- Where the reader thread is in `_run`. -/
inductive Reader (σ : Type) where
  /-- Not started, or returned. -/
  | ended
  /-- `while self._running and not self._stop_event.is_set()`, which reads twice. -/
  | testRunning
  | testStopEvent
  /-- `connect`, before the factory. -/
  | create
  /-- `connect`, with a new socket, before the lock. -/
  | check (sock : σ)
  | connectCallback
  /-- `if self.connected`. -/
  | testConnected
  /-- `_read_loop`, at its `while`. -/
  | readRunning
  | readStopEvent
  | fetch
  | recv (sock : σ)
  /-- `disconnect`, before the lock. -/
  | take
  /-- `disconnect`, after the lock, with what it took. -/
  | close (sock : Option σ)
  | disconnectCallback
  /-- `if self._running: self._stop_event.wait(self.reconnect_delay)`. -/
  | wait
  deriving DecidableEq

/-- The reader is between an installation and its own `disconnect`. -/
def Reader.connects {σ : Type} : Reader σ → Bool
  | .connectCallback | .testConnected | .readRunning | .readStopEvent | .fetch | .recv _
  | .take => true
  | _ => false

/-- Where the call of `stop()` is. -/
inductive Stopper (σ : Type) where
  | idle
  | setStopEvent
  /-- `disconnect`, before the lock. -/
  | take
  /-- `disconnect`, after the lock, with what it took. -/
  | close (sock : Option σ)
  | join
  | returned
  deriving DecidableEq

/-- `MochadClient`, its threads, the sockets that the factory has returned and those
that have been closed. -/
structure Client (σ : Type) where
  socket : Option σ := none
  stopEvent : Bool := false
  running : Bool := false
  reader : Reader σ := .ended
  stopper : Stopper σ := .idle
  returned : List σ := []
  closed : List σ := []
  deriving DecidableEq

/-- What the call that a step of the reader makes does: the factory returns a socket,
`recv` returns, a callback returns, or there is an exception. -/
inductive Answer (σ : Type) where
  | socket (sock : σ)
  | received (r : Recv)
  | done
  | raises

/-- A thread takes a step. -/
inductive Turn (σ : Type) where
  | start
  | stop
  | reader (answer : Answer σ)

namespace Client

variable {σ : Type}

/-- The lock-protected part of `connect`. -/
def install (s : Client σ) (sock : σ) : Client σ :=
  if s.stopEvent then { s with closed := sock :: s.closed, reader := .testConnected }
  else { s with socket := some sock, reader := .connectCallback }

/-- A step of `_run`. -/
def runStep (s : Client σ) (answer : Answer σ) : Client σ :=
  match s.reader with
  | .ended => s
  | .testRunning => { s with reader := if s.running then .testStopEvent else .ended }
  | .testStopEvent => { s with reader := if s.stopEvent then .ended else .create }
  | .create =>
    match answer with
    | .socket sock => { s with returned := sock :: s.returned, reader := .check sock }
    | _ => { s with reader := .take }
  | .check sock => s.install sock
  | .connectCallback =>
    match answer with
    -- only an exception that is not an `Exception` gets past the callback's `try`
    | .raises => { s with reader := .take }
    | _ => { s with reader := .testConnected }
  | .testConnected => { s with reader := if s.socket.isSome then .readRunning else .take }
  | .readRunning => { s with reader := if s.running then .readStopEvent else .take }
  | .readStopEvent => { s with reader := if s.stopEvent then .take else .fetch }
  | .fetch =>
    match s.socket with
    | none => { s with reader := .take }
    | some sock => { s with reader := .recv sock }
  | .recv _ =>
    match answer with
    | .received .timeout | .received (.data (_ :: _)) => { s with reader := .readRunning }
    | _ => { s with reader := .take }
  | .take => { s with socket := none, reader := .close s.socket }
  | .close sock => { s with closed := sock.toList ++ s.closed, reader := .disconnectCallback }
  | .disconnectCallback =>
    match answer with
    | .raises => { s with reader := .ended }
    | _ => { s with reader := .wait }
  | .wait => { s with reader := .testRunning }

/-- A step of `stop()`. -/
def stopStep (s : Client σ) : Client σ :=
  match s.stopper with
  | .idle => { s with running := false, stopper := .setStopEvent }
  | .setStopEvent => { s with stopEvent := true, stopper := .take }
  | .take => { s with socket := none, stopper := .close s.socket }
  | .close sock => { s with closed := sock.toList ++ s.closed, stopper := .join }
  -- `join` ends with the thread or after its timeout
  | .join => { s with stopper := .returned }
  | .returned => s

/-- `start()`. -/
def start (s : Client σ) : Client σ :=
  if s.running then s
  else { s with running := true, stopEvent := false, reader := .testRunning, stopper := .idle }

def step (s : Client σ) : Turn σ → Client σ
  | .start => s.start
  | .stop => s.stopStep
  | .reader answer => s.runStep answer

/-- There is one reader and one call of `stop()` at a time: the client is started
when the reader of the last start has ended and no call of `stop()` is under way. -/
def oneReader (s : Client σ) : Turn σ → Prop
  | .start => s.reader = .ended ∧ (s.stopper = .idle ∨ s.stopper = .returned)
  | _ => True

/-- A run of a new client, whatever the threads do and in whatever order. -/
abbrev Reached (s : Client σ) : Prop := Run.Reaches step oneReader {} s

/-! ## Who holds a socket -/

/-- The reader holds a socket that it has created, or has taken to close it. -/
def ReaderHolds (s : Client σ) (sock : σ) : Prop :=
  s.reader = .check sock ∨ s.reader = .close (some sock)

/-- `stop()` holds a socket that it has taken to close it. -/
def StopHolds (s : Client σ) (sock : σ) : Prop := s.stopper = .close (some sock)

/-- `stop()` has set the event. -/
def eventSet (s : Client σ) : Bool :=
  match s.stopper with
  | .idle | .setStopEvent => false
  | .take | .close _ | .join | .returned => true

/-- The `disconnect` of `stop()` has taken the lock, and there was no `start()` since. -/
def disconnected (s : Client σ) : Bool :=
  match s.stopper with
  | .idle | .setStopEvent | .take => false
  | .close _ | .join | .returned => true

theorem eventSet_of_disconnected {s : Client σ} (h : s.disconnected = true) :
    s.eventSet = true := by
  cases hst : s.stopper with
  | idle | setStopEvent | take =>
    simp only [disconnected, hst] at h
    cases h
  | close _ | join | returned => simp only [eventSet, hst]

/-- What holds at every moment. -/
structure Consistent (s : Client σ) : Prop where
  /-- A socket is installed only while the reader is going to disconnect. -/
  installed : s.socket.isSome = true → s.reader.connects = true
  stopping : s.eventSet = true → s.stopEvent = true
  /-- `stop()` takes the installed socket, and none is installed afterwards. -/
  released : s.disconnected = true → s.socket = none
  accounted : ∀ sock ∈ s.returned,
    sock ∈ s.closed ∨ s.socket = some sock ∨ s.ReaderHolds sock ∨ s.StopHolds sock

theorem Consistent.socket_eq_none {s : Client σ} (h : s.Consistent)
    (hr : s.reader.connects = false) : s.socket = none := by
  cases hs : s.socket with
  | none => rfl
  | some sock =>
    have := h.installed (by rw [hs]; rfl)
    rw [hr] at this
    cases this

theorem consistent_new : Consistent ({} : Client σ) where
  installed h := nomatch h
  stopping h := nomatch h
  released _ := rfl
  accounted _ h := nomatch h

/-- The reader goes on from a place where it holds no socket. -/
theorem Consistent.move {s : Client σ} (h : s.Consistent) {reader : Reader σ}
    (hfrom : ∀ sock, ¬ s.ReaderHolds sock)
    (hto : s.reader.connects = true → reader.connects = true) :
    Consistent { s with reader } where
  installed hsome := hto (h.installed hsome)
  stopping := h.stopping
  released := h.released
  accounted sock hsock := by
    rcases h.accounted sock hsock with hc | hi | hr | hst
    · exact .inl hc
    · exact .inr (.inl hi)
    · exact absurd hr (hfrom sock)
    · exact .inr (.inr (.inr hst))

theorem Consistent.accounted_of_not_stopHolds {s : Client σ} (h : s.Consistent) {sock : σ}
    (hnot : ¬ s.StopHolds sock) (hsock : sock ∈ s.returned) {p : Prop} :
    sock ∈ s.closed ∨ s.socket = some sock ∨ s.ReaderHolds sock ∨ p := by
  rcases h.accounted sock hsock with hc | hi | hr | hst
  · exact .inl hc
  · exact .inr (.inl hi)
  · exact .inr (.inr (.inl hr))
  · exact absurd hst hnot

/-- `connect` at the lock: the socket in hand is installed, or closed if the event is
set. -/
theorem Consistent.install {s : Client σ} (h : s.Consistent) {sock : σ}
    (hr : s.reader = .check sock) : (s.install sock).Consistent := by
  have hnone : s.socket = none := h.socket_eq_none (by rw [hr]; rfl)
  have hothers : ∀ other ∈ s.returned,
      other = sock ∨ other ∈ s.closed ∨ s.StopHolds other := by
    intro other hother
    rcases h.accounted other hother with hc | hi | (hh | hh) | hst
    · exact .inr (.inl hc)
    · cases hnone.symm.trans hi
    · exact .inl (Reader.check.inj (hh.symm.trans hr))
    · cases hr.symm.trans hh
    · exact .inr (.inr hst)
  unfold Client.install
  split
  · next hset =>
    refine ⟨fun _ => rfl, h.stopping, h.released, fun other hother => ?_⟩
    rcases hothers other hother with rfl | hc | hst
    · exact .inl List.mem_cons_self
    · exact .inl (List.mem_cons_of_mem _ hc)
    · exact .inr (.inr (.inr hst))
  · next hset =>
    -- the event is not set, so `stop()` has not reached its `disconnect`
    have hbefore : s.eventSet = false := by
      cases he : s.eventSet with
      | false => rfl
      | true => exact absurd (h.stopping he) hset
    refine ⟨fun _ => rfl, h.stopping, fun hd => ?_, fun other hother => ?_⟩
    · cases hbefore.symm.trans (eventSet_of_disconnected (s := s) hd)
    · rcases hothers other hother with rfl | hc | hst
      · exact .inr (.inl rfl)
      · exact .inl hc
      · exact .inr (.inr (.inr hst))

/-- The reader's `disconnect` at the lock. -/
theorem Consistent.take {s : Client σ} (h : s.Consistent) (hr : s.reader = .take) :
    Consistent { s with socket := none, reader := .close s.socket } where
  installed hsome := nomatch hsome
  stopping := h.stopping
  released _ := rfl
  accounted sock hsock := by
    rcases h.accounted sock hsock with hc | hi | (hh | hh) | hst
    · exact .inl hc
    · exact .inr (.inr (.inl (.inr (congrArg Reader.close hi))))
    · cases hr.symm.trans hh
    · cases hr.symm.trans hh
    · exact .inr (.inr (.inr hst))

/-- The reader's `disconnect` after the lock. -/
theorem Consistent.close {s : Client σ} (h : s.Consistent) {held : Option σ}
    (hr : s.reader = .close held) :
    Consistent { s with closed := held.toList ++ s.closed, reader := .disconnectCallback } where
  installed hsome := by
    have := h.socket_eq_none (by rw [hr]; rfl)
    rw [this] at hsome
    cases hsome
  stopping := h.stopping
  released := h.released
  accounted sock hsock := by
    rcases h.accounted sock hsock with hc | hi | (hh | hh) | hst
    · exact .inl (List.mem_append_right _ hc)
    · exact .inr (.inl hi)
    · cases hr.symm.trans hh
    · have : held = some sock := Reader.close.inj (hr.symm.trans hh)
      exact .inl (List.mem_append_left _ (by rw [this]; exact List.mem_singleton_self sock))
    · exact .inr (.inr (.inr hst))

/-- The factory returns a socket, which the reader then holds. -/
theorem Consistent.create {s : Client σ} (h : s.Consistent) (hr : s.reader = .create)
    (sock : σ) :
    Consistent { s with returned := sock :: s.returned, reader := .check sock } where
  installed hsome := by
    have := h.socket_eq_none (by rw [hr]; rfl)
    rw [this] at hsome
    cases hsome
  stopping := h.stopping
  released := h.released
  accounted other hother := by
    rcases List.mem_cons.mp hother with rfl | hother
    · exact .inr (.inr (.inl (.inl rfl)))
    · rcases h.accounted other hother with hc | hi | (hh | hh) | hst
      · exact .inl hc
      · exact .inr (.inl hi)
      · cases hr.symm.trans hh
      · cases hr.symm.trans hh
      · exact .inr (.inr (.inr hst))

/-! ## One step -/

theorem runStep_consistent {s : Client σ} (h : s.Consistent) (answer : Answer σ) :
    (s.runStep answer).Consistent := by
  cases hr : s.reader with
  | ended => simpa only [runStep, hr] using h
  | create =>
    simp only [runStep, hr]
    split
    · exact h.create hr _
    · exact h.move (by simp [ReaderHolds, hr]) fun _ => rfl
  | check sock => simpa only [runStep, hr] using h.install hr
  | take => simpa only [runStep, hr] using h.take hr
  | close held => simpa only [runStep, hr] using h.close hr
  | connectCallback | fetch | recv _ =>
    have hnot : ∀ sock, ¬ s.ReaderHolds sock := by simp [ReaderHolds, hr]
    simp only [runStep, hr]
    split <;> exact h.move hnot fun _ => rfl
  | testConnected | readRunning | readStopEvent =>
    have hnot : ∀ sock, ¬ s.ReaderHolds sock := by simp [ReaderHolds, hr]
    simp only [runStep, hr]
    exact h.move hnot fun _ => by split <;> rfl
  | testRunning | testStopEvent | disconnectCallback | wait =>
    -- no socket is installed at these places, so the reader may go anywhere
    have hnot : ∀ sock, ¬ s.ReaderHolds sock := by simp [ReaderHolds, hr]
    have hto : ∀ reader : Reader σ, s.reader.connects = true → reader.connects = true := by
      rw [hr]
      exact fun _ hc => nomatch hc
    simp only [runStep, hr]
    first
      | exact h.move hnot (hto _)
      | split <;> exact h.move hnot (hto _)

theorem stopStep_consistent {s : Client σ} (h : s.Consistent) : s.stopStep.Consistent := by
  cases hst : s.stopper with
  | idle =>
    simp only [stopStep, hst]
    refine ⟨h.installed, nofun, nofun, fun sock hsock => ?_⟩
    exact h.accounted_of_not_stopHolds (by simp [StopHolds, hst]) hsock
  | setStopEvent =>
    simp only [stopStep, hst]
    refine ⟨h.installed, fun _ => rfl, nofun, fun sock hsock => ?_⟩
    exact h.accounted_of_not_stopHolds (by simp [StopHolds, hst]) hsock
  | take =>
    simp only [stopStep, hst]
    have hset : s.stopEvent = true := h.stopping (by simp only [eventSet, hst])
    refine ⟨nofun, fun _ => hset, fun _ => rfl, fun sock hsock => ?_⟩
    rcases h.accounted sock hsock with hc | hi | hr | hh
    · exact .inl hc
    · exact .inr (.inr (.inr (congrArg Stopper.close hi)))
    · exact .inr (.inr (.inl hr))
    · cases hst.symm.trans hh
  | close held =>
    simp only [stopStep, hst]
    have hset : s.stopEvent = true := h.stopping (by simp only [eventSet, hst])
    have hnone : s.socket = none := h.released (by simp only [disconnected, hst])
    refine ⟨h.installed, fun _ => hset, fun _ => hnone, fun sock hsock => ?_⟩
    rcases h.accounted sock hsock with hc | hi | hr | hh
    · exact .inl (List.mem_append_right _ hc)
    · exact .inr (.inl hi)
    · exact .inr (.inr (.inl hr))
    · have : held = some sock := Stopper.close.inj (hst.symm.trans hh)
      exact .inl (List.mem_append_left _ (by rw [this]; exact List.mem_singleton_self sock))
  | join =>
    simp only [stopStep, hst]
    have hset : s.stopEvent = true := h.stopping (by simp only [eventSet, hst])
    have hnone : s.socket = none := h.released (by simp only [disconnected, hst])
    refine ⟨h.installed, fun _ => hset, fun _ => hnone, fun sock hsock => ?_⟩
    exact h.accounted_of_not_stopHolds (by simp [StopHolds, hst]) hsock
  | returned => simpa only [stopStep, hst] using h

/-- Where the reader has ended and `stop()` holds nothing, every socket is closed. -/
theorem Consistent.all_closed {s : Client σ} (h : s.Consistent) (hr : s.reader = .ended)
    (hst : ∀ sock, ¬ s.StopHolds sock) : ∀ sock ∈ s.returned, sock ∈ s.closed := by
  have hnone := h.socket_eq_none (by rw [hr]; rfl)
  intro sock hsock
  rcases h.accounted sock hsock with hc | hi | (hh | hh) | hh
  · exact hc
  · cases hnone.symm.trans hi
  · cases hr.symm.trans hh
  · cases hr.symm.trans hh
  · exact absurd hh (hst sock)

theorem start_consistent {s : Client σ} (h : s.Consistent)
    (hone : s.reader = .ended ∧ (s.stopper = .idle ∨ s.stopper = .returned)) :
    s.start.Consistent := by
  obtain ⟨hr, hst⟩ := hone
  have hnone : s.socket = none := h.socket_eq_none (by rw [hr]; rfl)
  have hclosed := h.all_closed hr (by rcases hst with hst | hst <;> simp [StopHolds, hst])
  unfold start
  split
  · exact h
  · refine ⟨fun hsome => ?_, nofun, nofun, fun sock hsock => .inl (hclosed sock hsock)⟩
    rw [hnone] at hsome
    cases hsome

/-- Every step of a thread keeps track of all sockets. -/
theorem step_consistent {s : Client σ} (h : s.Consistent) {turn : Turn σ}
    (hone : s.oneReader turn) : (s.step turn).Consistent := by
  cases turn with
  | start => exact start_consistent h hone
  | stop => exact stopStep_consistent h
  | reader answer => exact runStep_consistent h answer

theorem Reached.consistent {s : Client σ} (h : s.Reached) : s.Consistent :=
  Run.Reaches.invariant consistent_new (fun _ _ hs hone => step_consistent hs hone) h

/-! ## After `stop()` -/

/-- The next step of the reader closes a socket that it holds, if the event is set. -/
theorem ReaderHolds.closes {s : Client σ} {sock : σ} (h : s.ReaderHolds sock)
    (hset : s.stopEvent = true) (answer : Answer σ) :
    sock ∈ (s.step (.reader answer)).closed := by
  rcases h with h | h
  · simp only [step, runStep, h, install, if_pos hset]
    exact List.mem_cons_self
  · simp only [step, runStep, h]
    exact List.mem_append_left _ (List.mem_singleton_self sock)

/-- The next step of `stop()` closes a socket that it holds. -/
theorem StopHolds.closes {s : Client σ} {sock : σ} (h : s.StopHolds sock) :
    sock ∈ (s.step .stop).closed := by
  simp only [step, stopStep, show s.stopper = .close (some sock) from h]
  exact List.mem_append_left _ (List.mem_singleton_self sock)

/-- From the moment when the `disconnect` of `stop()` has taken the lock, no socket is
installed, and each socket that the factory returned is closed or in the hands of a
thread whose next step closes it. -/
theorem stop_releases {s : Client σ} (h : s.Reached) (hd : s.disconnected = true) :
    s.socket = none ∧ ∀ sock ∈ s.returned, sock ∈ s.closed ∨
      (s.ReaderHolds sock ∧ ∀ answer, sock ∈ (s.step (.reader answer)).closed) ∨
      (s.StopHolds sock ∧ sock ∈ (s.step .stop).closed) := by
  have hs := h.consistent
  have hset := hs.stopping (eventSet_of_disconnected hd)
  have hnone := hs.released hd
  refine ⟨hnone, fun sock hsock => ?_⟩
  rcases hs.accounted sock hsock with hc | hi | hr | hst
  · exact .inl hc
  · cases hnone.symm.trans hi
  · exact .inr (.inl ⟨hr, hr.closes hset⟩)
  · exact .inr (.inr ⟨hst, hst.closes⟩)

/-- The factory is under way when `stop()` is called, and returns after its
`disconnect`. -/
def lateSocket : List (Turn Nat) :=
  [.start, .reader .done, .reader .done, .stop, .stop, .stop, .reader (.socket 7)]

theorem reached_lateSocket : Reached (Run.exec step {} lateSocket) :=
  Run.reaches_exec ⟨⟨rfl, .inl rfl⟩, trivial, trivial, trivial, trivial, trivial, trivial, trivial⟩

theorem stop_releases_lateSocket :
    (Run.exec step {} lateSocket).reader = .check 7 ∧
      (Run.exec step {} lateSocket).socket = none ∧
      ∀ sock ∈ (Run.exec step {} lateSocket).returned,
        sock ∈ (Run.exec step {} lateSocket).closed ∨
        ((Run.exec step {} lateSocket).ReaderHolds sock ∧
          ∀ answer, sock ∈ ((Run.exec step {} lateSocket).step (.reader answer)).closed) ∨
        ((Run.exec step {} lateSocket).StopHolds sock ∧
          sock ∈ ((Run.exec step {} lateSocket).step .stop).closed) :=
  ⟨rfl, stop_releases reached_lateSocket rfl⟩

/-- When the reader has ended and the call of `stop()` has returned, every socket is
closed. -/
theorem stop_closes_all {s : Client σ} (h : s.Reached) (hr : s.reader = .ended)
    (hst : s.stopper = .returned) : ∀ sock ∈ s.returned, sock ∈ s.closed :=
  h.consistent.all_closed hr (by simp [StopHolds, hst])

end Client

end MochadBridge
