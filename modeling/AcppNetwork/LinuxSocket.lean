import AcppNetwork.BufferedWriter
import Mathlib

/-!
# One socket of the Linux backend

`socket_base_pimpl` (`src/linux/socket_base.cpp`) with the part of the kernel
its system calls go to: which descriptors are open, the interest list of the
context's epoll instance, and `errno`.

What the kernel decides — whether a send takes bytes, what `SO_ERROR` holds,
what `recv` finds — is an argument of the functions here; a function that needs
such an answer twice (`so_write` sends in a loop) takes the list of them.  A
callback is not run but returned: the caller of these functions, the event loop
or a layer above, runs it.
-/
namespace AcppNetwork
namespace Linux

/-- `EWOULDBLOCK` is the same number. -/
abbrev EAGAIN : Nat := 11
abbrev EBADF : Nat := 9
abbrev EEXIST : Nat := 17
abbrev ENOENT : Nat := 2
abbrev EINPROGRESS : Nat := 115

/-- The two bits of an epoll event mask the code looks at. -/
structure Events where
  epollin : Bool
  epollout : Bool
  deriving DecidableEq

/-- An entry of the interest list: `data.ptr` and `events`. -/
structure Registration where
  ptr : Nat
  events : Events
  deriving DecidableEq

/-- The process's open descriptors, the interest list, and `errno`. -/
structure Kernel where
  isOpen : Int → Bool
  epoll : Int → Option Registration
  errno : Nat

/-- `EPOLL_CTL_ADD` or `EPOLL_CTL_MOD`. -/
inductive CtlMode where
  | add
  | mod
  deriving DecidableEq

namespace Kernel

/-- The error of an `epoll_ctl` call, if it fails; `refused` is a reason of the
kernel's own (no memory, a file that cannot be polled, ...). -/
def ctlError (k : Kernel) (mode : CtlMode) (fd : Int) (refused : Option Nat) : Option Nat :=
  if !k.isOpen fd then some EBADF
  else match mode with
    | .add => if (k.epoll fd).isSome then some EEXIST else refused
    | .mod => if (k.epoll fd).isNone then some ENOENT else refused

/-- `epoll_ctl`: the kernel afterwards, and the error if the call failed. -/
def epollCtl (k : Kernel) (mode : CtlMode) (fd : Int) (r : Registration)
    (refused : Option Nat) : Kernel × Option Nat :=
  match k.ctlError mode fd refused with
  | some e => ({ k with errno := e }, some e)
  | none => ({ k with epoll := Function.update k.epoll fd (some r) }, none)

/-- `::close`: a descriptor that is closed leaves the interest list. -/
def close (k : Kernel) (fd : Int) : Kernel where
  isOpen := Function.update k.isOpen fd false
  epoll := Function.update k.epoll fd none
  errno := if k.isOpen fd then k.errno else EBADF

/-- `getsockopt(SO_ERROR)` into an `err` that is 0 before. -/
def getsockopt (k : Kernel) (fd : Int) (soError : Nat) : Kernel × Nat :=
  if k.isOpen fd then (k, soError) else ({ k with errno := EBADF }, 0)

end Kernel

/-- Which of the `socket_callbacks` are set. -/
structure Callbacks where
  onConnected : Bool
  onDisconnected : Bool
  onReceived : Bool
  onSent : Bool
  onAccepted : Bool
  onError : Bool
  deriving DecidableEq

/-- A callback with its arguments, the socket itself and `strerror` apart. -/
inductive Callback where
  | onConnected
  | onDisconnected
  | onReceived (buffer : List Byte)
  | onSent (length : Nat)
  | onAccepted (newSocket : Nat)
  | onError (error : Nat) (hint : String)
  deriving DecidableEq

/-- The callback, if it is set. -/
def Callbacks.call? (cbs : Callbacks) (cb : Callback) : Option Callback :=
  let isSet := match cb with
    | .onConnected => cbs.onConnected
    | .onDisconnected => cbs.onDisconnected
    | .onReceived _ => cbs.onReceived
    | .onSent _ => cbs.onSent
    | .onAccepted _ => cbs.onAccepted
    | .onError _ _ => cbs.onError
  if isSet then some cb else none

theorem Callbacks.call?_eq_some {cbs : Callbacks} {cb cb' : Callback}
    (h : cbs.call? cb = some cb') : cb' = cb :=
  (Option.some.inj (Option.ite_none_right_eq_some.mp h).2).symm

/-- The fields of `socket_base_pimpl` (`io_` apart: there is one context). -/
structure SocketBasePimpl where
  domain : Int
  type : Int
  protocol : Int
  fd : Int
  parent : Nat
  callbacks : Callbacks
  connected : Bool
  listening : Bool
  writeEnabled : Bool
  eventsSet : Bool
  deriving DecidableEq

namespace SocketBasePimpl

/-- `invalid_fd`. -/
abbrev invalidFd : Int := -1

/-- `valid`. -/
def valid (p : SocketBasePimpl) : Bool := p.fd ≠ invalidFd

/-- The constructors; `parent_` is set by the `async_socket_base` that owns it. -/
def new (domain type protocol fd : Int) (callbacks : Callbacks) (parent : Nat) :
    SocketBasePimpl where
  domain := domain
  type := type
  protocol := protocol
  fd := fd
  parent := parent
  callbacks := callbacks
  connected := false
  listening := false
  writeEnabled := true
  eventsSet := false

end SocketBasePimpl

/-- A `socket_base_pimpl` at the address `this`, and the kernel. -/
structure Socket where
  this : Nat
  kernel : Kernel
  pimpl : SocketBasePimpl

/-- A system call that failed, with its error. -/
inductive Failure where
  | epollCtl (error : Nat)
  | send (error : Nat)
  deriving DecidableEq

/-- What one `send` answers: a count, or an error; with the error, whether the
`epoll_ctl` that may follow is refused. -/
inductive Send where
  | sent (n : Nat)
  | failed (error : Nat) (refused : Option Nat)
  deriving DecidableEq

/-- What `recv` answers: 0 bytes or more, or an error. -/
inductive Recv where
  | received (buffer : List Byte)
  | failed (error : Nat)
  deriving DecidableEq

namespace Socket

/-- `close`. -/
def close (s : Socket) : Socket :=
  if s.pimpl.valid then
    { s with
      kernel := s.kernel.close s.pimpl.fd
      pimpl := { s.pimpl with fd := SocketBasePimpl.invalidFd } }
  else s

/-- `set_events`: the socket afterwards and the call that failed, if it did. -/
def setEvents (s : Socket) (events : Events) (refused : Option Nat) : Socket × List Failure :=
  let mode := if s.pimpl.eventsSet then CtlMode.mod else CtlMode.add
  match s.kernel.epollCtl mode s.pimpl.fd ⟨s.this, events⟩ refused with
  | (k, some e) => ({ s with kernel := k }, [.epollCtl e])
  | (k, none) => ({ s with kernel := k, pimpl := { s.pimpl with eventsSet := true } }, [])

/-- `connect`, `error` being that of `::connect` if it fails: the value returned
is `res == 0 || errno == EINPROGRESS`. -/
def connect (s : Socket) (refused error : Option Nat) : Socket × Bool × List Failure :=
  let (s, failures) := s.setEvents ⟨true, true⟩ refused
  match if s.kernel.isOpen s.pimpl.fd then error else some EBADF with
  | none => (s, true, failures)
  | some e => ({ s with kernel := { s.kernel with errno := e } }, e == EINPROGRESS, failures)

/-- `listen`, `error` being that of `::listen` if it fails. -/
def listen (s : Socket) (refused error : Option Nat) : Socket × Int × List Failure :=
  let (s, failures) := s.setEvents ⟨true, false⟩ refused
  match if s.kernel.isOpen s.pimpl.fd then error else some EBADF with
  | none => ({ s with pimpl := { s.pimpl with listening := true } }, 0, failures)
  | some e => ({ s with kernel := { s.kernel with errno := e } }, -1, failures)

/-! ## Sending -/

/-- What a writing function returns, the callback it called last, and the calls
that failed. -/
structure Written where
  socket : Socket
  n : Nat
  callback : Option Callback
  failures : List Failure

/-- What `send(fd_, buffer, len, 0)` can answer: nothing is sent of a non-empty
buffer only by failing, and a descriptor that is not open fails with `EBADF`. -/
def Answers (s : Socket) (len : Nat) : Send → Prop
  | .sent n => s.kernel.isOpen s.pimpl.fd = true ∧ n ≤ len ∧ (n = 0 → len = 0)
  | .failed e _ => e ≠ 0 ∧ (s.kernel.isOpen s.pimpl.fd = false ↔ e = EBADF)

instance (s : Socket) (len : Nat) (a : Send) : Decidable (s.Answers len a) := by
  rcases a with n | e
  · exact inferInstanceAs (Decidable (_ ∧ _ ∧ (_ → _)))
  · exact inferInstanceAs (Decidable (_ ∧ (_ ↔ _)))

/-- `so_write_internal`. -/
def soWriteInternal (s : Socket) : Send → Written
  | .sent n => ⟨s, n, none, []⟩
  | .failed e refused =>
      let s := { s with kernel := { s.kernel with errno := e } }
      if e = EAGAIN then
        let (s, failures) := { s with pimpl := { s.pimpl with writeEnabled := false } }.setEvents
          ⟨true, true⟩ refused
        ⟨s, 0, none, .send e :: failures⟩
      else
        ⟨s, 0, s.pimpl.callbacks.call? (.onError s.kernel.errno "send"), [.send e]⟩

/-- `so_write`, one answer for each turn of its loop, which ends at the first
turn that sends nothing. -/
def soWrite (s : Socket) (buffer : List Byte) : List Send → Option Written
  | [] => none
  | a :: as =>
      let lenAux := min buffer.length (1024 * 20)
      if s.Answers lenAux a then
        let w := s.soWriteInternal a
        if w.n = 0 then
          if as = [] then some w else none
        else
          (w.socket.soWrite (buffer.drop w.n) as).map fun w' =>
            { w' with n := w.n + w'.n, failures := w.failures ++ w'.failures }
      else none

/-! ## Events -/

/-- `handle_event` from `events & EPOLLOUT` up to the callback; `soError` is what
`SO_ERROR` holds. -/
def writeBranch (s : Socket) (refused : Option Nat) (soError : Nat) :
    Socket × Option Callback × List Failure :=
  let (s, failures) := s.setEvents ⟨true, false⟩ refused
  let s := { s with pimpl := { s.pimpl with writeEnabled := true } }
  if !s.pimpl.connected then
    let s := { s with pimpl := { s.pimpl with connected := true } }
    let (k, err) := s.kernel.getsockopt s.pimpl.fd soError
    let s := { s with kernel := k }
    if err = 0 then
      (s, s.pimpl.callbacks.call? .onConnected, failures)
    else
      (s, s.pimpl.callbacks.call? (.onError s.kernel.errno "getsockopt"), failures)
  else
    (s, s.pimpl.callbacks.call? (.onSent 0), failures)

/-- What a branch of `handle_event` ends with: at most one callback, or a call of
an empty `std::function`. -/
inductive Delivery where
  | callback (cb : Option Callback)
  | badFunctionCall
  deriving DecidableEq

/-- What `recv(fd_, buffer, 4096, 0)` can answer. -/
def Receives (s : Socket) : Recv → Prop
  | .received buffer => s.kernel.isOpen s.pimpl.fd = true ∧ buffer.length ≤ 1024 * 4
  | .failed e => e ≠ 0 ∧ (s.kernel.isOpen s.pimpl.fd = false ↔ e = EBADF)

instance (s : Socket) (a : Recv) : Decidable (s.Receives a) := by
  rcases a with data | e
  · exact inferInstanceAs (Decidable (_ ∧ _))
  · exact inferInstanceAs (Decidable (_ ∧ (_ ↔ _)))

/-- `handle_event`, the `recv` of `events & EPOLLIN`; it is only tested that one
of `on_received` and `on_disconnected` is set. -/
def receiveBranch (s : Socket) (a : Recv) : Socket × Delivery :=
  if s.pimpl.callbacks.onReceived || s.pimpl.callbacks.onDisconnected then
    match a with
    | .received [] =>
        (s, match s.pimpl.callbacks.call? .onDisconnected with
          | some cb => .callback cb
          | none => .badFunctionCall)
    | .received buffer =>
        (s, match s.pimpl.callbacks.call? (.onReceived buffer) with
          | some cb => .callback cb
          | none => .badFunctionCall)
    | .failed e =>
        let s := { s with kernel := { s.kernel with errno := e } }
        (s, .callback (s.pimpl.callbacks.call? (.onError s.kernel.errno "recv")))
  else
    (s, .callback none)

/-! ## What the functions change -/

variable {s : Socket}

/-- `EPOLLOUT` is in the interest set registered for the socket. -/
def Armed (s : Socket) : Prop := ∃ r, s.kernel.epoll s.pimpl.fd = some r ∧ r.events.epollout = true

/-- What `set_events` does: it fails, leaving the error in `errno`, or registers
the events for the socket's descriptor, which is then open. -/
theorem setEvents_cases (s : Socket) (events : Events) (refused : Option Nat) :
    (∃ e, s.setEvents events refused =
      ({ s with kernel := { s.kernel with errno := e } }, [.epollCtl e])) ∨
    s.kernel.isOpen s.pimpl.fd = true ∧ s.setEvents events refused =
      (⟨s.this,
        { s.kernel with
          epoll := Function.update s.kernel.epoll s.pimpl.fd (some ⟨s.this, events⟩) },
        { s.pimpl with eventsSet := true }⟩, []) := by
  simp only [setEvents, Kernel.epollCtl]
  cases hctl : s.kernel.ctlError (if s.pimpl.eventsSet then .mod else .add) s.pimpl.fd refused with
  | some e => exact .inl ⟨e, rfl⟩
  | none =>
    refine .inr ⟨?_, rfl⟩
    by_contra hclosed
    unfold Kernel.ctlError at hctl
    rw [Bool.not_eq_true] at hclosed
    rw [hclosed, Bool.not_false, if_pos rfl] at hctl
    cases hctl

/-- `set_events` that succeeds registers the events. -/
theorem setEvents_registers {events : Events} {refused : Option Nat}
    (h : (s.setEvents events refused).2 = []) :
    (s.setEvents events refused).1.kernel.epoll s.pimpl.fd = some ⟨s.this, events⟩ := by
  obtain ⟨e, hset⟩ | ⟨-, hset⟩ := setEvents_cases s events refused
  · rw [hset] at h
    cases h
  · rw [hset]
    exact Function.update_self ..

/-- `set_events` changes nothing of the socket but `events_set_`. -/
theorem setEvents_pimpl (s : Socket) (events : Events) (refused : Option Nat) :
    ∃ b, (s.setEvents events refused).1.pimpl = { s.pimpl with eventsSet := b } := by
  obtain ⟨e, hset⟩ | ⟨-, hset⟩ := setEvents_cases s events refused
  · exact ⟨s.pimpl.eventsSet, by rw [hset]⟩
  · exact ⟨true, by rw [hset]⟩

@[simp] theorem setEvents_fd (events : Events) (refused : Option Nat) :
    (s.setEvents events refused).1.pimpl.fd = s.pimpl.fd := by
  obtain ⟨b, h⟩ := setEvents_pimpl s events refused
  rw [h]

@[simp] theorem setEvents_connected (events : Events) (refused : Option Nat) :
    (s.setEvents events refused).1.pimpl.connected = s.pimpl.connected := by
  obtain ⟨b, h⟩ := setEvents_pimpl s events refused
  rw [h]

@[simp] theorem setEvents_callbacks (events : Events) (refused : Option Nat) :
    (s.setEvents events refused).1.pimpl.callbacks = s.pimpl.callbacks := by
  obtain ⟨b, h⟩ := setEvents_pimpl s events refused
  rw [h]

theorem armed_of_setEvents {events : Events} {refused : Option Nat}
    (hout : events.epollout = true) (h : (s.setEvents events refused).2 = []) :
    (s.setEvents events refused).1.Armed := by
  refine ⟨⟨s.this, events⟩, ?_, hout⟩
  rw [setEvents_fd]
  exact setEvents_registers h

/-- A failing `set_events` reports an `epoll_ctl`. -/
theorem setEvents_failures {events : Events} {refused : Option Nat} {f : Failure}
    (h : f ∈ (s.setEvents events refused).2) : ∃ e, f = .epollCtl e := by
  obtain ⟨e, hset⟩ | ⟨-, hset⟩ := setEvents_cases s events refused
  · rw [hset, List.mem_singleton] at h
    exact ⟨e, h⟩
  · rw [hset] at h
    cases h

/-- What a socket's operations do to the rest of the world: the socket stays the
same handler for the same descriptor with the same callbacks, nothing is opened
or closed, and the interest list gets at most an entry for the socket's own,
open, descriptor. -/
structure Rearms (s s' : Socket) : Prop where
  this : s'.this = s.this
  fd : s'.pimpl.fd = s.pimpl.fd
  parent : s'.pimpl.parent = s.pimpl.parent
  callbacks : s'.pimpl.callbacks = s.pimpl.callbacks
  isOpen : s'.kernel.isOpen = s.kernel.isOpen
  epoll : ∀ fd r, s'.kernel.epoll fd = some r → s.kernel.epoll fd = some r ∨
    fd = s.pimpl.fd ∧ s.kernel.isOpen fd = true ∧ r.ptr = s.this

theorem Rearms.refl (s : Socket) : s.Rearms s := ⟨rfl, rfl, rfl, rfl, rfl, fun _ _ h => .inl h⟩

theorem Rearms.trans {s t u : Socket} (h : s.Rearms t) (h' : t.Rearms u) : s.Rearms u where
  this := h'.this.trans h.this
  fd := h'.fd.trans h.fd
  parent := h'.parent.trans h.parent
  callbacks := h'.callbacks.trans h.callbacks
  isOpen := h'.isOpen.trans h.isOpen
  epoll fd r hr := by
    rcases h'.epoll fd r hr with hr | ⟨hfd, hopen, hptr⟩
    · exact h.epoll fd r hr
    · exact .inr ⟨hfd.trans h.fd, h.isOpen ▸ hopen, hptr.trans h.this⟩

/-- A failing call leaves its error in `errno`, and no other trace. -/
theorem errno_rearms (s : Socket) (e : Nat) :
    s.Rearms { s with kernel := { s.kernel with errno := e } } :=
  ⟨rfl, rfl, rfl, rfl, rfl, fun _ _ h => .inl h⟩

theorem setEvents_rearms (s : Socket) (events : Events) (refused : Option Nat) :
    s.Rearms (s.setEvents events refused).1 := by
  obtain ⟨e, hset⟩ | ⟨hopen, hset⟩ := setEvents_cases s events refused
  · rw [hset]
    exact errno_rearms s e
  · rw [hset]
    refine ⟨rfl, rfl, rfl, rfl, rfl, fun fd r hr => ?_⟩
    change Function.update s.kernel.epoll s.pimpl.fd (some ⟨s.this, events⟩) fd = some r at hr
    by_cases hfd : fd = s.pimpl.fd
    · subst hfd
      rw [Function.update_self, Option.some.injEq] at hr
      exact .inr ⟨rfl, hopen, hr ▸ rfl⟩
    · rw [Function.update_of_ne hfd] at hr
      exact .inl hr

theorem soWriteInternal_rearms (s : Socket) (a : Send) :
    s.Rearms (s.soWriteInternal a).socket := by
  cases a with
  | sent n => exact .refl s
  | failed e refused =>
    by_cases he : e = EAGAIN
    · simp only [soWriteInternal, if_pos he]
      refine .trans ?_ (setEvents_rearms _ _ _)
      exact ⟨rfl, rfl, rfl, rfl, rfl, fun _ _ h => .inl h⟩
    · simp only [soWriteInternal, if_neg he]
      exact ⟨rfl, rfl, rfl, rfl, rfl, fun _ _ h => .inl h⟩

/-- One turn of the loop of `so_write`: it is the last one, or the rest is
written by the turns that follow. -/
theorem soWrite_cons {buffer : List Byte} {a : Send} {as : List Send} {w : Written}
    (h : s.soWrite buffer (a :: as) = some w) :
    s.Answers (min buffer.length (1024 * 20)) a ∧
      ((s.soWriteInternal a).n = 0 ∧ w = s.soWriteInternal a ∨
        ∃ w', (s.soWriteInternal a).socket.soWrite (buffer.drop (s.soWriteInternal a).n) as
            = some w' ∧
          w = { w' with
            n := (s.soWriteInternal a).n + w'.n
            failures := (s.soWriteInternal a).failures ++ w'.failures }) := by
  rw [soWrite] at h
  by_cases ha : s.Answers (min buffer.length (1024 * 20)) a
  · rw [if_pos ha] at h
    refine ⟨ha, ?_⟩
    by_cases hn : (s.soWriteInternal a).n = 0
    · rw [if_pos hn] at h
      split at h
      · cases h
        exact .inl ⟨hn, rfl⟩
      · cases h
    · rw [if_neg hn, Option.map_eq_some_iff] at h
      obtain ⟨w', hw', rfl⟩ := h
      exact .inr ⟨w', hw', rfl⟩
  · rw [if_neg ha] at h
    cases h

theorem soWrite_rearms {buffer : List Byte} {as : List Send} {w : Written}
    (h : s.soWrite buffer as = some w) : s.Rearms w.socket := by
  induction as generalizing s buffer w with
  | nil => cases h
  | cons a as ih =>
    obtain ⟨-, ⟨-, rfl⟩ | ⟨w', hw', rfl⟩⟩ := soWrite_cons h
    · exact soWriteInternal_rearms s a
    · have hrest : Rearms _ w'.socket := ih hw'
      exact (soWriteInternal_rearms s a).trans hrest

theorem connect_rearms (s : Socket) (refused error : Option Nat) :
    s.Rearms (s.connect refused error).1 := by
  have hset := setEvents_rearms s ⟨true, true⟩ refused
  unfold connect
  generalize s.setEvents ⟨true, true⟩ refused = r at hset ⊢
  obtain ⟨t, failures⟩ := r
  dsimp only
  split
  · exact hset
  · exact hset.trans (errno_rearms t _)

theorem listen_rearms (s : Socket) (refused error : Option Nat) :
    s.Rearms (s.listen refused error).1 := by
  have hset := setEvents_rearms s ⟨true, false⟩ refused
  unfold listen
  generalize s.setEvents ⟨true, false⟩ refused = r at hset ⊢
  obtain ⟨t, failures⟩ := r
  dsimp only
  split
  · exact hset.trans ⟨rfl, rfl, rfl, rfl, rfl, fun _ _ h => .inl h⟩
  · exact hset.trans (errno_rearms t _)

theorem getsockopt_rearms (s : Socket) (soError : Nat) :
    s.Rearms { s with kernel := (s.kernel.getsockopt s.pimpl.fd soError).1 } := by
  unfold Kernel.getsockopt
  split
  · exact .refl s
  · exact errno_rearms s EBADF

theorem writeBranch_rearms (s : Socket) (refused : Option Nat) (soError : Nat) :
    s.Rearms (s.writeBranch refused soError).1 := by
  have hset := setEvents_rearms s ⟨true, false⟩ refused
  unfold writeBranch
  generalize s.setEvents ⟨true, false⟩ refused = r at hset ⊢
  obtain ⟨t, failures⟩ := r
  dsimp only
  split
  · have hopen := getsockopt_rearms t soError
    split
    · exact hset.trans ⟨rfl, rfl, rfl, rfl, hopen.isOpen, hopen.epoll⟩
    · exact hset.trans ⟨rfl, rfl, rfl, rfl, hopen.isOpen, hopen.epoll⟩
  · exact hset.trans ⟨rfl, rfl, rfl, rfl, rfl, fun _ _ h => .inl h⟩

theorem receiveBranch_rearms (s : Socket) (a : Recv) : s.Rearms (s.receiveBranch a).1 := by
  unfold receiveBranch
  split
  · cases a with
    | received buffer => cases buffer <;> exact .refl s
    | failed e => exact errno_rearms s e
  · exact .refl s

/-- On a connected socket the write branch calls `on_sent`. -/
theorem writeBranch_callback (s : Socket) (refused : Option Nat) (soError : Nat)
    (h : s.pimpl.connected = true) :
    (s.writeBranch refused soError).2.1 = s.pimpl.callbacks.call? (.onSent 0) := by
  have hconn : (s.setEvents ⟨true, false⟩ refused).1.pimpl.connected = true := by
    rw [setEvents_connected, h]
  have hcbs : (s.setEvents ⟨true, false⟩ refused).1.pimpl.callbacks = s.pimpl.callbacks :=
    setEvents_callbacks _ _
  unfold writeBranch
  generalize s.setEvents ⟨true, false⟩ refused = r at hconn hcbs ⊢
  obtain ⟨t, failures⟩ := r
  dsimp only at hconn hcbs ⊢
  simp only [hconn, hcbs, Bool.not_true, Bool.false_eq_true, if_false]

theorem receiveBranch_armed (s : Socket) (a : Recv) (h : s.Armed) :
    (s.receiveBranch a).1.Armed := by
  unfold receiveBranch
  split
  · cases a with
    | received buffer => cases buffer <;> exact h
    | failed e => exact h
  · exact h

theorem close_callbacks (s : Socket) : s.close.pimpl.callbacks = s.pimpl.callbacks := by
  unfold close
  split <;> rfl

/-! ## When nothing fails but a full send buffer -/

/-- Every system call that failed is a `send` that failed with `EAGAIN`. -/
def OnlyAgain (failures : List Failure) : Prop := ∀ f ∈ failures, f = .send EAGAIN

instance (failures : List Failure) : Decidable (OnlyAgain failures) :=
  inferInstanceAs (Decidable (∀ f ∈ failures, _))

theorem onlyAgain_append {fs gs : List Failure} :
    OnlyAgain (fs ++ gs) ↔ OnlyAgain fs ∧ OnlyAgain gs := by
  simp [OnlyAgain, or_imp, forall_and]

theorem setEvents_ok {events : Events} {refused : Option Nat}
    (h : OnlyAgain (s.setEvents events refused).2) : (s.setEvents events refused).2 = [] := by
  rw [List.eq_nil_iff_forall_not_mem]
  intro f hf
  obtain ⟨e, rfl⟩ := setEvents_failures hf
  cases h _ hf

/-- `connect` asks for `EPOLLOUT`. -/
theorem connect_armed {refused error : Option Nat}
    (h : OnlyAgain (s.connect refused error).2.2) : (s.connect refused error).1.Armed := by
  have hset : OnlyAgain (s.setEvents ⟨true, true⟩ refused).2 →
      (s.setEvents ⟨true, true⟩ refused).1.Armed :=
      fun hf => armed_of_setEvents rfl (setEvents_ok hf)
  unfold connect at h ⊢
  generalize s.setEvents ⟨true, true⟩ refused = r at hset h ⊢
  obtain ⟨t, failures⟩ := r
  dsimp only at h ⊢
  split at h
  · exact hset h
  · exact hset h

/-- `so_write_internal` sends some of the buffer, or asks for `EPOLLOUT`. -/
theorem soWriteInternal_again {len : Nat} {a : Send} (ha : s.Answers len a)
    (hf : OnlyAgain (s.soWriteInternal a).failures) :
    (s.soWriteInternal a).callback = none ∧ (s.soWriteInternal a).n ≤ len ∧
      ((s.soWriteInternal a).n = 0 → len = 0 ∨ (s.soWriteInternal a).socket.Armed) ∧
      (s.Armed → (s.soWriteInternal a).socket.Armed) := by
  cases a with
  | sent n => exact ⟨rfl, ha.2.1, fun h => .inl (ha.2.2 h), id⟩
  | failed e refused =>
    by_cases he : e = EAGAIN
    · subst he
      simp only [soWriteInternal, if_true] at hf ⊢
      have hok := setEvents_ok fun f hmem => hf f (List.mem_cons_of_mem _ hmem)
      have harmed := armed_of_setEvents rfl hok
      exact ⟨trivial, Nat.zero_le _, fun _ => .inr harmed, fun _ => harmed⟩
    · simp only [soWriteInternal, if_neg he] at hf
      have : Failure.send e = .send EAGAIN := hf _ (List.mem_singleton.mpr rfl)
      exact absurd (Failure.send.inj this) he

/-- **`so_write` writes everything or asks for `EPOLLOUT`**, and it never takes
`EPOLLOUT` back. -/
theorem soWrite_again {buffer : List Byte} {as : List Send} {w : Written}
    (h : s.soWrite buffer as = some w) (hf : OnlyAgain w.failures) :
    w.callback = none ∧ w.n ≤ buffer.length ∧ (w.n < buffer.length → w.socket.Armed) ∧
      (s.Armed → w.socket.Armed) := by
  induction as generalizing s buffer w with
  | nil => cases h
  | cons a as ih =>
    obtain ⟨ha, ⟨hn, rfl⟩ | ⟨w', hw', rfl⟩⟩ := soWrite_cons h
    · -- the last turn of the loop
      obtain ⟨hcb, -, hzero, harmed⟩ := soWriteInternal_again ha hf
      refine ⟨hcb, by omega, fun hlt => ?_, harmed⟩
      rcases hzero hn with hlen | hout
      · omega
      · exact hout
    · obtain ⟨hfa, hfas⟩ := onlyAgain_append.mp hf
      obtain ⟨-, hle, -, harmed⟩ := soWriteInternal_again ha hfa
      obtain ⟨hcb, hle', hshort, harmed'⟩ := ih hw' hfas
      rw [List.length_drop] at hle' hshort
      refine ⟨hcb, ?_, fun hlt => hshort ?_, fun h => harmed' (harmed h)⟩
      · show (s.soWriteInternal a).n + w'.n ≤ buffer.length
        omega
      · change (s.soWriteInternal a).n + w'.n < buffer.length at hlt
        omega

end Socket
end Linux
end AcppNetwork
