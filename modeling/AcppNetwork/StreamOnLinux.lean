import AcppNetwork.LinuxSocket
import AcppNetwork.Reentrant
import AcppNetwork.SocketStream

/-!
# `socket_stream` over the Linux backend

A `socket_stream` with its callbacks installed (`callback_init`) and the socket
under it, as one object that the layers above and the event loop call.  The
callbacks `on_connected`, `on_received`, `on_disconnected` and `on_error` go to
the layers above, which may call the stream again from there; `on_sent` is the
stream's own and runs inside `handle_event`.

The last section settles when `pending_data_` is looked after: whenever it is not
empty, `EPOLLOUT` is registered, so that the loop will call `on_sent`.
-/
namespace AcppNetwork

open Reentrant

structure StreamOnLinux where
  stream : SocketStream
  socket : Linux.Socket

namespace StreamOnLinux

open Linux (Callback Callbacks Events Failure Recv Send SocketBasePimpl)

/-- The operations: `connect`, `write` and `disconnect` of the stream, and
`handle_event` of its socket. -/
inductive Op where
  | connect
  | write (buf : List Byte)
  | disconnect
  | event (events : Events)
  deriving DecidableEq

/-- Where an activation stands. -/
inductive Frame where
  | connect
  | write (buf : List Byte)
  /-- `socket_.write(buf, size)` is about to return `n`. -/
  | writeRest (buf : List Byte) (n : Nat)
  | disconnect
  | event (events : Events)
  /-- In `on_sent`, `socket_.write` is about to return `n`. -/
  | sentRest (events : Events) (n : Nat)
  /-- At `events & EPOLLIN`. -/
  | readBranch (events : Events)
  | done
  deriving DecidableEq

/-- What the kernel answers along a stretch of code. -/
inductive Answer where
  | connect (refused error : Option Nat)
  | sends (as : List Send)
  | wake (refused : Option Nat) (soError : Nat) (sends : List Send)
  | recv (a : Recv)
  | go
  deriving DecidableEq

/-- What an operation returns. -/
inductive Result where
  | void
  | size (n : Nat)
  deriving DecidableEq

abbrev Next := Outcome StreamOnLinux Frame Callback Result Failure

/-- Run the callback, if there is one, and go on at `f`. -/
def callThen (s : StreamOnLinux) (f : Frame) (failures : List Failure) : Option Callback → Next
  | some cb => .callOut s f cb failures
  | none => .goto s f failures

/-- `write`. -/
def write (s : StreamOnLinux) (buf : List Byte) (as : List Send) : Option Next :=
  (s.socket.soWrite buf as).map fun w =>
    match w.callback with
    | some cb => .callOut { s with socket := w.socket } (.writeRest buf w.n) cb w.failures
    | none =>
        let (stream, size) := s.stream.write buf w.n
        .ret ⟨stream, w.socket⟩ (.size size) w.failures

/-- The stream's `on_sent` callback, `before` being the failures so far. -/
def onSent (s : StreamOnLinux) (events : Events) (as : List Send) (before : List Failure) :
    Option Next :=
  if s.stream.pendingData ≠ [] then
    (s.socket.soWrite s.stream.pendingData as).map fun w =>
      match w.callback with
      | some cb =>
          .callOut { s with socket := w.socket } (.sentRest events w.n) cb (before ++ w.failures)
      | none => .goto ⟨s.stream.onSent w.n, w.socket⟩ (.readBranch events) (before ++ w.failures)
  else
    if as = [] then some (.goto s (.readBranch events) before) else none

/-- `handle_event` up to `events & EPOLLIN`. -/
def wake (s : StreamOnLinux) (events : Events) (refused : Option Nat) (soError : Nat)
    (as : List Send) : Option Next :=
  match s.socket.writeBranch refused soError with
  | (socket, some (.onSent _), failures) => onSent { s with socket := socket } events as failures
  | (socket, cb, failures) =>
      if as = [] then
        some (callThen { s with socket := socket } (.readBranch events) failures cb)
      else none

/-- `handle_event` from `events & EPOLLIN`; the socket does not listen. -/
def receive (s : StreamOnLinux) (a : Recv) : Option Next :=
  if s.socket.pimpl.listening = false ∧ s.socket.Receives a then
    match s.socket.receiveBranch a with
    | (socket, .callback cb) => some (callThen { s with socket := socket } .done [] cb)
    | (socket, .badFunctionCall) => some (.throw { s with socket := socket } [])
  else none

/-- The code, stretch by stretch. -/
def resume (s : StreamOnLinux) : Frame → Answer → Option Next
  | .connect, .connect refused error =>
      let (socket, _, failures) := s.socket.connect refused error
      some (.ret { s with socket := socket } .void failures)
  | .write buf, .sends as => s.write buf as
  | .writeRest buf n, .go =>
      let (stream, size) := s.stream.write buf n
      some (.ret { s with stream := stream } (.size size) [])
  | .disconnect, .go => some (.ret { s with socket := s.socket.close } .void [])
  | .event events, .wake refused soError as =>
      if events.epollout then s.wake events refused soError as else none
  | .event events, .go => if events.epollout then none else some (.goto s (.readBranch events) [])
  | .sentRest events n, .go =>
      some (.goto { s with stream := s.stream.onSent n } (.readBranch events) [])
  | .readBranch events, .recv a => if events.epollin then s.receive a else none
  | .readBranch events, .go => if events.epollin then none else some (.goto s .done [])
  | .done, .go => some (.ret s .void [])
  | _, _ => none

/-- Where an operation starts. -/
def enter (s : StreamOnLinux) : Op → StreamOnLinux × Frame
  | .connect => (s, .connect)
  | .write buf => (s, .write buf)
  | .disconnect => (s, .disconnect)
  | .event events => (s, .event events)

/-- The stream and its socket. -/
def object : Object StreamOnLinux Op Frame Callback Answer Result Failure := ⟨enter, resume⟩

abbrev Configuration := Config StreamOnLinux Op Frame Callback Result Failure

/-- The callbacks after `callback_init`; `on_error` is the user's. -/
def callbackInit (onError : Bool) : Callbacks := ⟨true, true, true, true, false, onError⟩

/-- The pimpl of a stream: `AF_INET`, `SOCK_STREAM`, `IPPROTO_TCP`. -/
def pimpl (fd : Nat) (onError : Bool) : SocketBasePimpl :=
  SocketBasePimpl.new 2 1 6 fd (callbackInit onError) 0

/-- A stream with the socket its constructor made. -/
def created (fd : Nat) (onError : Bool) : StreamOnLinux where
  stream := ⟨[]⟩
  socket := ⟨0, ⟨fun fd' => fd' = fd, fun _ => none, 0⟩, pimpl fd onError⟩

/-- A stream that was given an accepted socket. -/
def accepted (fd : Nat) (onError : Bool) : StreamOnLinux where
  stream := ⟨[]⟩
  socket :=
    ⟨0, ⟨fun fd' => fd' = fd, fun fd' => if fd' = fd then some ⟨0, ⟨true, false⟩⟩ else none, 0⟩,
      { pimpl fd onError with connected := true, eventsSet := true }⟩

/-! ## Pending data and `EPOLLOUT` -/

/-- Pending data are looked after. -/
def Armed (s : StreamOnLinux) : Prop := s.stream.pendingData ≠ [] → s.socket.Armed

/-- Pending data are looked after, and `on_sent` is the stream's. -/
structure Kept (s : StreamOnLinux) : Prop where
  armed : s.Armed
  onSent : s.socket.pimpl.callbacks.onSent = true

/-- The condition on a stretch of code: an `EPOLLOUT` event on a socket not yet
connected, and `disconnect`, find nothing pending. -/
def NothingPending (s : StreamOnLinux) (f : Frame) (_ : List Frame) (_ : Answer) : Prop :=
  match f with
  | .event events =>
      events.epollout = true → s.socket.pimpl.connected = false → s.stream.pendingData = []
  | .disconnect => s.stream.pendingData = []
  | _ => True

instance (s : StreamOnLinux) (f : Frame) (fs : List Frame) (a : Answer) :
    Decidable (s.NothingPending f fs a) := by
  cases f <;> unfold NothingPending <;> infer_instance

/-- No error callback is under way in the middle of a write. -/
def Frame.Settled : Frame → Prop
  | .writeRest _ _ => False
  | .sentRest _ _ => False
  | _ => True

section
variable {s : StreamOnLinux} {out : Next} {as : List Send} {buf : List Byte} {events : Events}

open Linux.Socket (OnlyAgain)

/-- A step of the socket that leaves its registration alone or arms it. -/
theorem Kept.socket {socket : Linux.Socket} (hs : s.Kept) (hr : s.socket.Rearms socket)
    (ha : s.socket.Armed → socket.Armed) : Kept { s with socket := socket } where
  armed h := ha (hs.armed h)
  onSent := by
    show socket.pimpl.callbacks.onSent = true
    rw [hr.callbacks]
    exact hs.onSent

theorem callThen_keeps {f : Frame} {failures : List Failure} {cb : Option Callback}
    (hs : s.Kept) (hf : f.Settled) : (callThen s f failures cb).Keeps Kept Frame.Settled := by
  cases cb
  · exact ⟨hs, hf⟩
  · exact ⟨hs, hf⟩

/-- What `write` keeps back is looked after: the send that was refused asked for
`EPOLLOUT`. -/
theorem write_keeps (hs : s.Kept) (h : s.write buf as = some out) (hf : OnlyAgain out.notes) :
    out.Keeps Kept Frame.Settled := by
  obtain ⟨w, hw, rfl⟩ := Option.map_eq_some_iff.mp h
  cases hcb : w.callback with
  | some cb =>
    simp only [hcb] at hf
    have hnone := (Linux.Socket.soWrite_again hw hf).1
    rw [hcb] at hnone
    cases hnone
  | none =>
    simp only [hcb] at hf ⊢
    obtain ⟨-, hle, hshort, hkeep⟩ := Linux.Socket.soWrite_again hw hf
    have hsocket := hs.socket (Linux.Socket.soWrite_rearms hw) hkeep
    refine ⟨?_, hsocket.onSent⟩
    show (s.stream.write buf w.n).1.pendingData ≠ [] → w.socket.Armed
    intro hpending
    by_cases hlt : w.n < buf.length
    · exact hshort hlt
    · rw [SocketStream.write, if_neg hlt] at hpending
      exact hsocket.armed hpending

/-- `on_sent` is called with `EPOLLOUT` taken back; it asks for it again unless it
gets everything sent. -/
theorem onSent_keeps {before : List Failure} (hs : s.socket.pimpl.callbacks.onSent = true)
    (h : s.onSent events as before = some out) (hf : OnlyAgain out.notes) :
    out.Keeps Kept Frame.Settled := by
  rw [StreamOnLinux.onSent] at h
  by_cases hpending : s.stream.pendingData ≠ []
  · rw [if_pos hpending] at h
    obtain ⟨w, hw, rfl⟩ := Option.map_eq_some_iff.mp h
    cases hcb : w.callback with
    | some cb =>
      simp only [hcb] at hf
      have hnone := (Linux.Socket.soWrite_again hw (Linux.Socket.onlyAgain_append.mp hf).2).1
      rw [hcb] at hnone
      cases hnone
    | none =>
      simp only [hcb] at hf ⊢
      obtain ⟨-, hle, hshort, -⟩ :=
        Linux.Socket.soWrite_again hw (Linux.Socket.onlyAgain_append.mp hf).2
      refine ⟨⟨?_, ?_⟩, trivial⟩
      · show (s.stream.onSent w.n).pendingData ≠ [] → w.socket.Armed
        rw [SocketStream.onSent_pendingData]
        intro hrest
        apply hshort
        by_contra hall
        exact hrest (List.drop_eq_nil_of_le (by omega))
      · show w.socket.pimpl.callbacks.onSent = true
        rw [(Linux.Socket.soWrite_rearms hw).callbacks]
        exact hs
  · rw [if_neg hpending] at h
    split at h
    · cases h
      exact ⟨⟨fun hne => absurd hne hpending, hs⟩, trivial⟩
    · cases h

/-- An `EPOLLOUT` event: on a connected socket `on_sent` runs; on one that is not,
nothing is pending. -/
theorem wake_keeps {refused : Option Nat} {soError : Nat} (hs : s.Kept)
    (hp : s.socket.pimpl.connected = false → s.stream.pendingData = [])
    (h : s.wake events refused soError as = some out) (hf : OnlyAgain out.notes) :
    out.Keeps Kept Frame.Settled := by
  have hcbs := (Linux.Socket.writeBranch_rearms s.socket refused soError).callbacks
  have honSent : (s.socket.writeBranch refused soError).1.pimpl.callbacks.onSent = true := by
    rw [hcbs]; exact hs.onSent
  have hcall := Linux.Socket.writeBranch_callback s.socket refused soError
  rw [wake] at h
  generalize s.socket.writeBranch refused soError = r at h honSent hcall
  obtain ⟨socket, cb, failures⟩ := r
  split at h
  · cases ‹(socket, cb, failures) = _›
    exact onSent_keeps honSent h hf
  · rename_i hnot heq
    cases heq
    split at h
    · cases h
      refine callThen_keeps ⟨fun hpending => ?_, honSent⟩ trivial
      -- the callback was not `on_sent`, so the socket was not connected
      cases hconn : s.socket.pimpl.connected with
      | false => exact absurd (hp hconn) hpending
      | true =>
        have hcb : cb = some (.onSent 0) := (hcall hconn).trans (if_pos hs.onSent)
        exact (hnot 0 hcb).elim
    · cases h

/-- The read branch leaves the registration as it is. -/
theorem receive_keeps {a : Recv} (hs : s.Kept) (h : s.receive a = some out) :
    out.Keeps Kept Frame.Settled := by
  have hrearms := Linux.Socket.receiveBranch_rearms s.socket a
  have harmed := Linux.Socket.receiveBranch_armed s.socket a
  rw [receive] at h
  split at h
  · generalize s.socket.receiveBranch a = r at h hrearms harmed
    obtain ⟨socket, d⟩ := r
    cases d with
    | callback cb =>
      cases h
      exact callThen_keeps (hs.socket hrearms harmed) trivial
    | badFunctionCall =>
      cases h
      exact hs.socket hrearms harmed
  · cases h

/-- **Every stretch of code keeps pending data looked after**, if nothing fails but
a full send buffer and the stretch meets the condition. -/
theorem resume_keeps {f : Frame} {fs : List Frame} {a : Answer} (hs : s.Kept) (hf : f.Settled)
    (hp : s.NothingPending f fs a) (h : resume s f a = some out) (hn : OnlyAgain out.notes) :
    out.Keeps Kept Frame.Settled := by
  cases f with
  | connect =>
    cases a with
    | connect refused error =>
      cases h
      exact hs.socket (Linux.Socket.connect_rearms s.socket refused error)
        fun _ => Linux.Socket.connect_armed hn
    | _ => cases h
  | write buf =>
    cases a with
    | sends as => exact write_keeps hs h hn
    | _ => cases h
  | writeRest buf n => exact hf.elim
  | disconnect =>
    cases a with
    | go =>
      cases h
      refine ⟨fun hpending => absurd hp hpending, ?_⟩
      show s.socket.close.pimpl.callbacks.onSent = true
      rw [Linux.Socket.close_callbacks]
      exact hs.onSent
    | _ => cases h
  | event events =>
    cases a with
    | wake refused soError as =>
      simp only [resume] at h
      split at h
      · exact wake_keeps hs (hp ‹_›) h hn
      · cases h
    | go =>
      simp only [resume] at h
      split at h
      · cases h
      · cases h
        exact ⟨hs, trivial⟩
    | _ => cases h
  | sentRest events n => exact hf.elim
  | readBranch events =>
    cases a with
    | recv a =>
      simp only [resume] at h
      split at h
      · exact receive_keeps hs h
      · cases h
    | go =>
      simp only [resume] at h
      split at h
      · cases h
      · cases h
        exact ⟨hs, trivial⟩
    | _ => cases h
  | done =>
    cases a with
    | go =>
      cases h
      exact hs
    | _ => cases h

theorem enter_keeps (o : Op) (hs : s.Kept) : (enter s o).1.Kept ∧ (enter s o).2.Settled := by
  cases o <;> exact ⟨hs, trivial⟩

end

theorem kept_start {fd : Nat} {onError : Bool} {s : StreamOnLinux}
    (hs : s = created fd onError ∨ s = accepted fd onError) : s.Kept := by
  rcases hs with rfl | rfl
  · exact ⟨fun h => absurd rfl h, rfl⟩
  · exact ⟨fun h => absurd rfl h, rfl⟩

/-- **When pending bytes are not stranded.**  In a run in which only sends fail,
with `EAGAIN`, and in which the first `EPOLLOUT` event and `disconnect` find
nothing pending, `EPOLLOUT` is registered whenever bytes are pending — between
events and while callbacks run. -/
theorem pending_armed {fd : Nat} {onError : Bool} {s : StreamOnLinux}
    (hs : s = created fd onError ∨ s = accepted fd onError) {es : List (Event Op Answer)}
    {c : Configuration} (hr : Runs.run (step object) (Config.start s) es = some c)
    (hn : Linux.Socket.OnlyAgain (notes c.log))
    (hp : Runs.Along (step object) (Before NothingPending) (Config.start s) es) :
    c.state.stream.pendingData ≠ [] →
      ∃ r, c.state.socket.kernel.epoll c.state.socket.pimpl.fd = some r ∧
        r.events.epollout = true :=
  (Reentrant.invariant_along (fun _ o h => enter_keeps o h)
    (fun _ _ _ _ _ hs hf hp h hn => resume_keeps hs hf hp h hn) (kept_start hs) hp hr hn).1.armed

/-- The connection completes before the first bytes are written; the kernel
takes two of three. -/
def writeAfterConnect : List (Event Op Answer) :=
  [.call .connect, .code (.connect none (some Linux.EINPROGRESS)),
    .call (.event ⟨false, true⟩), .code (.wake none 0 []),
    .back, .code .go, .code .go,
    .call (.write [1, 2, 3]), .code (.sends [.sent 2, .failed Linux.EAGAIN none])]

theorem pending_armed_writeAfterConnect :
    ∃ c, Runs.run (step object) (Config.start (created 5 false)) writeAfterConnect = some c ∧
      ∃ r, c.state.socket.kernel.epoll c.state.socket.pimpl.fd = some r ∧
        r.events.epollout = true := by
  obtain ⟨c, hr, hn, hpending⟩ :
      ∃ c, Runs.run (step object) (Config.start (created 5 false)) writeAfterConnect = some c ∧
        Linux.Socket.OnlyAgain (notes c.log) ∧ c.state.stream.pendingData ≠ [] :=
    Runs.exists_run (by decide)
  exact ⟨c, hr, pending_armed (.inl rfl) hr hn (by decide) hpending⟩

/-- The bytes are written while the connection is under way. -/
def writeBeforeConnected : List (Event Op Answer) :=
  [.call .connect, .code (.connect none (some Linux.EINPROGRESS)),
    .call (.write [1, 2, 3]), .code (.sends [.failed Linux.EAGAIN none]),
    .call (.event ⟨false, true⟩), .code (.wake none 0 []),
    .back, .code .go, .code .go]

/-- The first `EPOLLOUT` event calls `on_connected` only, and takes `EPOLLOUT` out
of the interest set. -/
theorem pending_stranded :
    ∃ c, Runs.run (step object) (Config.start (created 5 false)) writeBeforeConnected = some c ∧
      c.Quiet ∧ Linux.Socket.OnlyAgain (notes c.log) ∧
      c.state.stream.pendingData = [1, 2, 3] ∧
      c.state.socket.kernel.epoll c.state.socket.pimpl.fd = some ⟨0, ⟨true, false⟩⟩ :=
  Runs.exists_run (by decide)

end StreamOnLinux
end AcppNetwork
