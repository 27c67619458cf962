import AcppNetwork.LinuxSocket

/-!
# One socket of the macOS backend

`socket_base_pimpl` (`src/macos/socket_base.cpp`) with the part of the kernel its
system calls go to: the descriptors that are open, the connections that wait on those
that listen, the filters registered with the context's kqueue, and `errno`.

A read filter is registered with `EV_CLEAR`: it is active from some activity of its
descriptor on until `kevent` retrieves it, and retrieving it makes it inactive.  A
write filter is registered with `EV_ONESHOT` and goes away when it is retrieved.
Registering again a filter that exists replaces `udata` and is no activity.

The callbacks and the answers of `send` and `recv` are those of the Linux model.
-/
namespace AcppNetwork
namespace Macos

open Linux (Callbacks Callback Send Recv)

/-- `EWOULDBLOCK` is the same number. -/
abbrev EAGAIN : Nat := 35
abbrev EBADF : Nat := 9
abbrev EINPROGRESS : Nat := 36
abbrev ECONNABORTED : Nat := 53

/-- `EVFILT_READ` and `EVFILT_WRITE`. -/
inductive Filter where
  | read
  | write
  deriving DecidableEq

/-- A registered filter: `udata`, and whether there is an event of it to retrieve. -/
structure Knote where
  udata : Nat
  active : Bool
  deriving DecidableEq

/-- The process's open descriptors, those that listen with the number of connections
that wait to be accepted, the filters by descriptor, and `errno`. -/
structure Kernel where
  isOpen : Int → Bool
  listens : Int → Bool
  backlog : Int → Nat
  reads : Int → Option Knote
  writes : Int → Option Knote
  errno : Nat

namespace Kernel

/-- The error of a `kevent` call that registers a filter, if it fails; `refused` is a
reason of the kernel's own. -/
def changeError (k : Kernel) (fd : Int) (refused : Option Nat) : Option Nat :=
  if k.isOpen fd then refused else some EBADF

/-- `EV_SET(&ev_set, fd, EVFILT_READ, EV_ADD|EV_ENABLE|EV_CLEAR, 0, 0, udata)`; a filter
that is new finds what there is. -/
def addRead (k : Kernel) (fd : Int) (udata : Nat) : Kernel :=
  { k with
    reads := Function.update k.reads fd
      (some ⟨udata, match k.reads fd with
        | some kn => kn.active
        | none => 0 < k.backlog fd⟩) }

/-- `EV_SET(&ev_set, fd, EVFILT_WRITE, EV_ADD|EV_ONESHOT, 0, 0, udata)`. -/
def addWrite (k : Kernel) (fd : Int) (udata : Nat) : Kernel :=
  { k with writes := Function.update k.writes fd (some ⟨udata, (k.writes fd).any (·.active)⟩) }

/-- `::close`: nothing is left of what belongs to the descriptor. -/
def close (k : Kernel) (fd : Int) : Kernel where
  isOpen := Function.update k.isOpen fd false
  listens := Function.update k.listens fd false
  backlog := Function.update k.backlog fd 0
  reads := Function.update k.reads fd none
  writes := Function.update k.writes fd none
  errno := if k.isOpen fd then k.errno else EBADF

/-- `getsockopt(SO_ERROR)` into an `err` that is 0 before. -/
def getsockopt (k : Kernel) (fd : Int) (soError : Nat) : Kernel × Nat :=
  if k.isOpen fd then (k, soError) else ({ k with errno := EBADF }, 0)

end Kernel

/-- The fields of `socket_base_pimpl` (`io_` apart: there is one context; nothing uses
`write_buffer_`). -/
structure SocketBasePimpl where
  domain : Int
  type : Int
  protocol : Int
  fd : Int
  parent : Nat
  callbacks : Callbacks
  connected : Bool
  listening : Bool
  deriving DecidableEq

namespace SocketBasePimpl

/-- `invalid_fd`. -/
abbrev invalidFd : Int := -1

/-- `valid`. -/
def valid (p : SocketBasePimpl) : Bool := p.fd ≠ invalidFd

/-- The constructors; `parent_` is set by the `async_socket_base` that owns it. -/
def new (domain type protocol fd : Int) (callbacks : Callbacks) (parent : Nat) :
    SocketBasePimpl where
  domain := domain
  type := type
  protocol := protocol
  fd := fd
  parent := parent
  callbacks := callbacks
  connected := false
  listening := false

end SocketBasePimpl

/-- A `socket_base_pimpl` at the address `this`, and the kernel. -/
structure Socket where
  this : Nat
  kernel : Kernel
  pimpl : SocketBasePimpl

namespace Socket

/-- The socket with this value of `errno`. -/
def setErrno (s : Socket) (e : Nat) : Socket := { s with kernel := { s.kernel with errno := e } }

/-- `close`. -/
def close (s : Socket) : Socket :=
  if s.pimpl.valid then
    { s with
      kernel := s.kernel.close s.pimpl.fd
      pimpl := { s.pimpl with fd := SocketBasePimpl.invalidFd } }
  else s

/-- `ask_read_event`: it throws if `kevent` fails. -/
def askReadEvent (s : Socket) (refused : Option Nat) : Socket × Bool :=
  match s.kernel.changeError s.pimpl.fd refused with
  | some e => (s.setErrno e, false)
  | none => ({ s with kernel := s.kernel.addRead s.pimpl.fd s.this }, true)

/-- `ask_write_event`: it throws if `kevent` fails. -/
def askWriteEvent (s : Socket) (refused : Option Nat) : Socket × Bool :=
  match s.kernel.changeError s.pimpl.fd refused with
  | some e => (s.setErrno e, false)
  | none => ({ s with kernel := s.kernel.addWrite s.pimpl.fd s.this }, true)

/-- `listen` after `ask_read_event`, `error` being that of `::listen` if it fails. -/
def listen (s : Socket) (error : Option Nat) : Socket × Int :=
  match if s.kernel.isOpen s.pimpl.fd then error else some EBADF with
  | none =>
      ({ s with
        kernel := { s.kernel with listens := Function.update s.kernel.listens s.pimpl.fd true }
        pimpl := { s.pimpl with listening := true } }, 0)
  | some e => (s.setErrno e, -1)

/-- `connect` after `ask_write_event`, `error` being that of `::connect` if it fails. -/
def connect (s : Socket) (error : Option Nat) : Socket × Bool :=
  match if s.kernel.isOpen s.pimpl.fd then error else some EBADF with
  | none => (s, true)
  | some e => (s.setErrno e, e == EINPROGRESS)

/-! ## Sending -/

/-- What a writing function leaves: the count it returns (none if it throws) and the
callback it called last. -/
structure Written where
  socket : Socket
  n : Option Nat
  callback : Option Callback

/-- What `send(fd_, buffer, len, 0)` can answer. -/
def Answers (s : Socket) (len : Nat) : Send → Prop
  | .sent n => s.kernel.isOpen s.pimpl.fd = true ∧ n ≤ len ∧ (n = 0 → len = 0)
  | .failed e _ => e ≠ 0 ∧ (s.kernel.isOpen s.pimpl.fd = false ↔ e = EBADF)

instance (s : Socket) (len : Nat) (a : Send) : Decidable (s.Answers len a) := by
  rcases a with n | e
  · exact inferInstanceAs (Decidable (_ ∧ _ ∧ (_ → _)))
  · exact inferInstanceAs (Decidable (_ ∧ (_ ↔ _)))

/-- `so_write_internal`. -/
def soWriteInternal (s : Socket) : Send → Written
  | .sent n => ⟨s, some n, none⟩
  | .failed e refused =>
      let s := s.setErrno e
      if e = EAGAIN then
        match s.askWriteEvent refused with
        | (s, true) => ⟨s, some 0, none⟩
        | (s, false) => ⟨s, none, none⟩
      else ⟨s, some 0, s.pimpl.callbacks.call? (.onError s.kernel.errno "send")⟩

/-- `so_write`, one answer for each turn of its loop, which ends at the first turn that
sends nothing or throws. -/
def soWrite (s : Socket) (buffer : List Byte) : List Send → Option Written
  | [] => none
  | a :: as =>
      let lenAux := min buffer.length (1024 * 4)
      if s.Answers lenAux a then
        let w := s.soWriteInternal a
        match w.n with
        | none | some 0 => if as = [] then some w else none
        | some n =>
            (w.socket.soWrite (buffer.drop n) as).map fun w' =>
              { w' with n := w'.n.map (n + ·) }
      else none

/-! ## Receiving -/

/-- What `recv(fd_, buffer, 4096, 0)` can answer. -/
def Receives (s : Socket) : Recv → Prop
  | .received buffer => s.kernel.isOpen s.pimpl.fd = true ∧ buffer.length ≤ 1024 * 4
  | .failed e => e ≠ 0 ∧ (s.kernel.isOpen s.pimpl.fd = false ↔ e = EBADF)

instance (s : Socket) (a : Recv) : Decidable (s.Receives a) := by
  rcases a with data | e
  · exact inferInstanceAs (Decidable (_ ∧ _))
  · exact inferInstanceAs (Decidable (_ ∧ (_ ↔ _)))

end Socket
end Macos
end AcppNetwork
