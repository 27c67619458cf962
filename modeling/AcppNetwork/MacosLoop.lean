import AcppNetwork.LinuxLoop
import AcppNetwork.MacosSocket

/-!
# The event loop of the macOS backend

A context with its sockets (`src/macos/socket_base.cpp`), as one object that the program
calls: `io_context::wait_for_input`, and the operations of `async_socket_base`, from
anywhere, callbacks included.  The operations are those of the Linux backend, and so are
what they return and the callbacks.

Constructing a socket registers it (`add_socket`), which fails on a descriptor that is
not open; the constructor then throws, and the pimpl is deleted.  Deleting a pimpl closes
nothing: only the destructor of `async_socket_base` and `close` do.

Addresses are never used twice, so a pointer to a deleted pimpl points to nothing, and
what the code does through such a pointer is not modelled any further
(`Frame.undefined`).  Connections arrive and filters become active at any time
(`Elsewhere`), whether code of the context is running or not.  The timers and the queue
of `exec` are handlers of their own.
-/
namespace AcppNetwork
namespace Macos

open Reentrant
open Linux (Callbacks Callback Send Recv Opened Result CallOut)

/-- The context: the kernel, the pimpls by address, the objects by address with the
pimpl each of them owns (none, if it was moved from), the first address not used
so far, and `run_`. -/
structure World where
  kernel : Kernel
  pimpls : Nat → Option SocketBasePimpl
  objects : Nat → Option (Option Nat)
  fresh : Nat
  run : Bool

/-- An entry of the array filled by `kevent`: of a filter of a socket, with `udata`, or
of a handler of another kind. -/
inductive Ready where
  | socket (filter : Filter) (h : Nat)
  | other
  deriving DecidableEq

/-- What happens meanwhile: the kernel completes a connection to a descriptor that
listens; a filter becomes active. -/
inductive Elsewhere where
  | connects (fd : Int)
  | activates (filter : Filter) (fd : Int)
  deriving DecidableEq

/-- The calls of the program. -/
inductive Op where
  | api (op : Linux.Op)
  | elsewhere (e : Elsewhere)
  deriving DecidableEq

/-- Where an activation stands. -/
inductive Frame where
  | api (op : Op)
  /-- At `while (run_)`. -/
  | loop
  /-- In the `for` loop, with the events that are still to be handled. -/
  | batch (events : List Ready)
  /-- At the head of the loop over `recv`. -/
  | receive (h : Nat) (rest : List Ready)
  /-- `on_connected` has returned, or was not set. -/
  | afterConnected (h : Nat) (rest : List Ready)
  /-- `new_socket` goes out of scope. -/
  | newSocket (o : Nat) (rest : List Ready)
  | done (r : Result)
  | undefined
  deriving DecidableEq

/-- What the kernel answers along a stretch of code; `refused` and `again` are for the
calls of `kevent` that register a filter. -/
inductive Answer where
  | ready (events : List (Option (Filter × Int)))
  | waitFailed (error : Nat)
  | accept (a : Opened) (refused again : Option Nat)
  | recv (a : Recv)
  | wake (soError : Nat)
  | ask (refused : Option Nat)
  | opened (a : Opened) (refused : Option Nat)
  | call (refused error : Option Nat)
  | sends (as : List Send)
  | elsewhere (e : Elsewhere)
  | go
  deriving DecidableEq

abbrev Next := Outcome World Frame CallOut Result Empty

/-- `socket_callbacks{}`. -/
def noCallbacks : Callbacks := ⟨false, false, false, false, false, false⟩

/-! ## The kernel -/

namespace Kernel

/-- `kevent` retrieves an event: a read filter becomes inactive, a write filter goes
away. -/
def retrieve (k : Kernel) : Option (Filter × Int) → Option (Kernel × Ready)
  | some (.read, fd) =>
      match k.reads fd with
      | some ⟨h, true⟩ =>
          some ({ k with reads := Function.update k.reads fd (some ⟨h, false⟩) }, .socket .read h)
      | _ => none
  | some (.write, fd) =>
      match k.writes fd with
      | some ⟨h, true⟩ =>
          some ({ k with writes := Function.update k.writes fd none }, .socket .write h)
      | _ => none
  | none => some (k, .other)

/-- The events it retrieves, in order. -/
def retrieveAll (k : Kernel) : List (Option (Filter × Int)) → Option (Kernel × List Ready)
  | [] => some (k, [])
  | event :: events => do
      let (k, ready) ← k.retrieve event
      let (k, rest) ← k.retrieveAll events
      return (k, ready :: rest)

/-- A filter becomes active. -/
def activate (k : Kernel) (fd : Int) : Filter → Kernel
  | .read =>
      { k with reads := Function.update k.reads fd ((k.reads fd).map fun kn => ⟨kn.udata, true⟩) }
  | .write =>
      { k with writes := Function.update k.writes fd ((k.writes fd).map fun kn => ⟨kn.udata, true⟩) }

/-- The number of connections that wait. -/
def setBacklog (k : Kernel) (fd : Int) (n : Nat) : Kernel :=
  { k with backlog := Function.update k.backlog fd n }

end Kernel

/-- What `::accept(fd_, NULL, NULL)` can answer: a connection that waits; `EAGAIN`, if
none does; or an error of another kind. -/
def Socket.Accepts (s : Socket) : Opened → Prop
  | .fd _ => s.kernel.isOpen s.pimpl.fd = true ∧ 0 < s.kernel.backlog s.pimpl.fd
  | .failed e => (s.kernel.isOpen s.pimpl.fd = false ↔ e = EBADF) ∧
      (s.kernel.listens s.pimpl.fd = true → (s.kernel.backlog s.pimpl.fd = 0 ↔ e = EAGAIN))

instance (s : Socket) (a : Opened) : Decidable (s.Accepts a) := by
  rcases a with n | e <;> unfold Socket.Accepts <;> infer_instance

/-- The connection that `::accept` takes off the backlog; with `ECONNABORTED` it is
gone. -/
def Socket.taken (s : Socket) (a : Opened) : Socket :=
  let taken : Socket :=
    { s with kernel := s.kernel.setBacklog s.pimpl.fd (s.kernel.backlog s.pimpl.fd - 1) }
  match a with
  | .fd _ => taken
  | .failed e => if e = ECONNABORTED then taken else s

namespace World

/-- The socket that the object `o` owns. -/
def owned (w : World) (o : Nat) : Option Socket :=
  (w.objects o).join.bind fun h => (w.pimpls h).map fun p => ⟨h, w.kernel, p⟩

/-- The context after an operation of a socket. -/
def put (w : World) (s : Socket) : World :=
  { w with kernel := s.kernel, pimpls := Function.update w.pimpls s.this (some s.pimpl) }

/-- A new descriptor is one that was not open; a failing call says why. -/
def Opens (w : World) : Opened → Prop
  | .fd n => w.kernel.isOpen n = false
  | .failed e => e ≠ 0

instance (w : World) (a : Opened) : Decidable (w.Opens a) := by
  rcases a with n | e <;> unfold Opens <;> infer_instance

/-- The context after the kernel handed out a descriptor. -/
def openFd (w : World) (n : Nat) : World :=
  { w with kernel := { w.kernel with isOpen := Function.update w.kernel.isOpen n true } }

/-- The context with this value of `errno`. -/
def setErrno (w : World) (e : Nat) : World := { w with kernel := { w.kernel with errno := e } }

/-- What happens meanwhile. -/
def elsewhere (w : World) : Elsewhere → Option World
  | .connects fd =>
      if w.kernel.isOpen fd ∧ w.kernel.listens fd then
        some { w with
          kernel := (w.kernel.setBacklog fd (w.kernel.backlog fd + 1)).activate fd .read }
      else none
  | .activates .read fd =>
      -- the read filter of a descriptor that listens is about connections
      if w.kernel.listens fd then none
      else some { w with kernel := w.kernel.activate fd .read }
  | .activates .write fd => some { w with kernel := w.kernel.activate fd .write }

/-! ## Objects -/

/-- The constructor of `async_socket_base` that is given a descriptor, with `add_socket`:
false if that throws.  The object and its pimpl are numbered alike. -/
def construct (w : World) (domain type protocol fd : Int) (callbacks : Callbacks)
    (refused : Option Nat) : World × Bool :=
  let p := SocketBasePimpl.new domain type protocol fd callbacks w.fresh
  match Socket.askReadEvent ⟨w.fresh, w.kernel, p⟩ refused with
  | (s, true) =>
      ({ w.put s with
        objects := Function.update w.objects w.fresh (some (some w.fresh))
        fresh := w.fresh + 1 }, true)
  | (s, false) => ({ w with kernel := s.kernel, fresh := w.fresh + 1 }, false)

/-- The constructor that makes a descriptor of its own. -/
def constructSocket (w : World) (domain type protocol : Int) (callbacks : Callbacks)
    (refused : Option Nat) : Opened → World × Bool
  | .fd n => (w.openFd n).construct domain type protocol n callbacks refused
  | .failed e =>
      (w.setErrno e).construct domain type protocol SocketBasePimpl.invalidFd callbacks refused

/-- `pimpl_ = std::move(..); pimpl_->parent_ = this`, the pimpl being that at `h`. -/
def own (w : World) (o h : Nat) : Option World :=
  (w.pimpls h).map fun p =>
    { w with
      objects := Function.update w.objects o (some (some h))
      pimpls := Function.update w.pimpls h (some { p with parent := o }) }

/-- The object `o` gives its pimpl away. -/
def release (w : World) (o : Nat) : World :=
  { w with objects := Function.update w.objects o (some none) }

/-- The pimpl at `h` is deleted; nothing is closed. -/
def delete (w : World) (h : Nat) : World :=
  { w with pimpls := Function.update w.pimpls h none }

/-- What a `unique_ptr` does to a pimpl it no longer owns. -/
def reset (w : World) : Option Nat → World
  | some h => w.delete h
  | none => w

/-- `close` of the pimpl at `h`. -/
def closeAt (w : World) (h : Nat) : World :=
  match w.pimpls h with
  | some p => w.put (Socket.close ⟨h, w.kernel, p⟩)
  | none => w

/-- The destructor of the object `o`, which owns the pimpl at `h`. -/
def destroy (w : World) (o h : Nat) : World :=
  { (w.closeAt h).delete h with objects := Function.update w.objects o none }

/-- The destructor of `async_socket_base`. -/
def destruct (w : World) (o : Nat) : Option World :=
  (w.objects o).map fun
    | some h => w.destroy o h
    | none => { w with objects := Function.update w.objects o none }

/-- Move assignment. -/
def assign (w : World) (o other : Nat) : Option World := do
  let s ← w.owned other
  let pimpl ← (w.release other).objects o
  ((w.release other).reset pimpl).own o s.this

/-- `async_socket_base::close`. -/
def closeObject (w : World) (o : Nat) : Option World :=
  (w.objects o).map fun
    | some h => w.closeAt h
    | none => w

/-! ## The operations -/

/-- Put the socket back, call the callback of it, if there is one, and go on at `f`. -/
def callThen (w : World) (s : Socket) (f : Frame) : Option Callback → Next
  | some cb => .callOut (w.put s) f (.callback s.pimpl.parent cb) []
  | none => .goto (w.put s) f []

/-- The end of a constructor. -/
def constructed (o : Nat) : World × Bool → Next
  | (w, true) => .ret w (.object o) []
  | (w, false) => .throw w []

/-- `connect`. -/
def connect (w : World) (s : Socket) (refused error : Option Nat) : Next :=
  match s.askWriteEvent refused with
  | (s, true) => .ret (w.put (s.connect error).1) (.bool (s.connect error).2) []
  | (s, false) => .throw (w.put s) []

/-- `listen`. -/
def listen (w : World) (s : Socket) (refused error : Option Nat) : Next :=
  match s.askReadEvent refused with
  | (s, true) => .ret (w.put (s.listen error).1) (.int (s.listen error).2) []
  | (s, false) => .throw (w.put s) []

/-- `write`. -/
def write (w : World) (written : Socket.Written) : Next :=
  match written.n with
  | some n => w.callThen written.socket (.done (.size n)) written.callback
  | none => .throw (w.put written.socket) []

/-- The operations of the program. -/
def api (w : World) : Linux.Op → Answer → Option Next
  | .waitForInput, .go => some (.goto { w with run := true } .loop [])
  | .stop, .go => some (.ret { w with run := false } .void [])
  | .socket domain type protocol callbacks, .opened a refused =>
      if w.Opens a then
        some (constructed w.fresh (w.constructSocket domain type protocol callbacks refused a))
      else none
  | .adopt domain type protocol fd callbacks, .ask refused =>
      some (constructed w.fresh (w.construct domain type protocol fd callbacks refused))
  | .move other, .go => do
      let s ← w.owned other
      let w' ← { w.release other with fresh := w.fresh + 1 }.own w.fresh s.this
      return .ret w' (.object w.fresh) []
  | .assign o other, .go => (w.assign o other).map fun w' => .ret w' .void []
  | .destroy o, .go => (w.destruct o).map fun w' => .ret w' .void []
  | .close o, .go => (w.closeObject o).map fun w' => .ret w' .void []
  | .connect o, .call refused error => (w.owned o).map fun s => w.connect s refused error
  | .listen o, .call refused error => (w.owned o).map fun s => w.listen s refused error
  | .write o buffer, .sends as => do
      let s ← w.owned o
      let written ← s.soWrite buffer as
      return w.write written
  | .callbacks o callbacks, .go =>
      (w.owned o).map fun s =>
        .ret (w.put { s with pimpl := { s.pimpl with callbacks := callbacks } }) .void []
  | .otherCall none e, .go => some (.ret (w.setErrno e) .void [])
  | .otherCall (some n) e, .go =>
      if w.kernel.isOpen n then none else some (.ret ((w.openFd n).setErrno e) .void [])
  | _, _ => none

/-! ## The loop -/

/-- `kevent(kq_, NULL, 0, events, 5, NULL)`: it waits for an event, and retrieves some. -/
def kevent (w : World) (events : List (Option (Filter × Int))) : Option (World × List Ready) :=
  if 0 < events.length ∧ events.length ≤ 5 then
    (w.kernel.retrieveAll events).map fun (k, ready) => ({ w with kernel := k }, ready)
  else none

/-- A connection was accepted, and there is an `on_accepted`. -/
def accepted (w : World) (s : Socket) (rest : List Ready) (refused again : Option Nat)
    (n : Nat) : Next :=
  match w.construct s.pimpl.domain s.pimpl.type s.pimpl.protocol n noCallbacks refused with
  | (w', true) =>
      let pimpl := SocketBasePimpl.new s.pimpl.domain s.pimpl.type s.pimpl.protocol n noCallbacks
        w.fresh
      match Socket.askReadEvent ⟨w.fresh, w'.kernel, pimpl⟩ again with
      | (new, true) =>
          .callOut (w'.put { new with pimpl := { new.pimpl with connected := true } })
            (.newSocket w.fresh rest) (.callback s.pimpl.parent (.onAccepted w.fresh)) []
      | (new, false) => .throw ((w'.put new).destroy w.fresh w.fresh) []
  | (w', false) => .throw w' []

/-- The branch for a socket that listens: one `::accept`.  Without `on_accepted` nothing
becomes of the descriptor. -/
def acceptBranch (w : World) (s : Socket) (rest : List Ready) (refused again : Option Nat)
    (a : Opened) : Next :=
  match a with
  | .failed e =>
      w.callThen ((s.taken a).setErrno e) (.batch rest)
        (s.pimpl.callbacks.call? (.onError e "accept"))
  | .fd n =>
      if s.pimpl.callbacks.onAccepted then
        ((w.put (s.taken a)).openFd n).accepted s rest refused again n
      else .goto ((w.put (s.taken a)).openFd n) (.batch rest) []

/-- The branch for `EVFILT_READ`, up to the loop over `recv`. -/
def readEvent (w : World) (h : Nat) (rest : List Ready) (a : Answer) : Option Next :=
  match w.pimpls h with
  | none => if a = .go then some (.goto w .undefined []) else none
  | some p =>
      if p.listening then
        match a with
        | .accept a refused again =>
            let s : Socket := ⟨h, w.kernel, p⟩
            if s.Accepts a ∧ w.Opens a then some (w.acceptBranch s rest refused again a) else none
        | _ => none
      else if a = .go then
        some (.goto w (if p.callbacks.onReceived || p.callbacks.onDisconnected then
          .receive h rest else .batch rest) [])
      else none

/-- One turn of the loop over `recv`. -/
def received (w : World) (s : Socket) (rest : List Ready) : Recv → Next
  | .received [] =>
      match s.pimpl.callbacks.call? .onDisconnected with
      | some cb => w.callThen s (.batch rest) (some cb)
      | none => .throw w []
  | .received buffer =>
      w.callThen s (.receive s.this rest) (s.pimpl.callbacks.call? (.onReceived buffer))
  | .failed e =>
      w.callThen (s.setErrno e) (.batch rest)
        (if e = EAGAIN then none else s.pimpl.callbacks.call? (.onError e "recv"))

/-- The branch for `EVFILT_WRITE`, up to where `on_connected` has returned. -/
def writeEvent (w : World) (h : Nat) (rest : List Ready) (a : Answer) : Option Next :=
  match w.pimpls h with
  | none => if a = .go then some (.goto w .undefined []) else none
  | some p =>
      if p.connected then
        if a = .go then
          some (w.callThen ⟨h, w.kernel, p⟩ (.batch rest) (p.callbacks.call? (.onSent 0)))
        else none
      else
        match a with
        | .wake soError =>
            let (k, err) := w.kernel.getsockopt p.fd soError
            let s : Socket := ⟨h, k, { p with connected := true }⟩
            if err = 0 then
              some (w.callThen s (.afterConnected h rest) (p.callbacks.call? .onConnected))
            else
              some (w.callThen s (.batch rest)
                (p.callbacks.call? (.onError k.errno "getsockopt")))
        | _ => none

/-- `data->ask_read_event()` after `on_connected`. -/
def afterConnected (w : World) (h : Nat) (rest : List Ready) (refused : Option Nat) : Next :=
  match w.pimpls h with
  | none => .goto w .undefined []
  | some p =>
      match Socket.askReadEvent ⟨h, w.kernel, p⟩ refused with
      | (s, true) => .goto (w.put s) (.batch rest) []
      | (s, false) => .throw (w.put s) []

/-- A turn of the loop over `recv`, through `data`. -/
def receive (w : World) (h : Nat) (rest : List Ready) (a : Answer) : Option Next :=
  match w.pimpls h with
  | none => if a = .go then some (.goto w .undefined []) else none
  | some p =>
      match a with
      | .recv a =>
          let s : Socket := ⟨h, w.kernel, p⟩
          if s.Receives a then some (w.received s rest a) else none
      | _ => none

/-- The code of the program's calls, stretch by stretch. -/
def code (w : World) : Frame → Answer → Option Next
  | .api (.api op), a => w.api op a
  | .api (.elsewhere e), .go => (w.elsewhere e).map fun w' => .ret w' .void []
  | .loop, .ready events =>
      if w.run then (w.kevent events).map fun (w', ready) => .goto w' (.batch ready) [] else none
  | .loop, .waitFailed e => if w.run ∧ e ≠ 0 then some (.throw (w.setErrno e) []) else none
  | .loop, .go => if w.run then none else some (.ret w .void [])
  | .batch [], .go => some (.goto w .loop [])
  | .batch (.other :: rest), .go => some (.callOut w (.batch rest) .other [])
  | .batch (.socket .read h :: rest), a => w.readEvent h rest a
  | .batch (.socket .write h :: rest), a => w.writeEvent h rest a
  | .receive h rest, a => w.receive h rest a
  | .afterConnected h rest, .ask refused => some (w.afterConnected h rest refused)
  | .newSocket o rest, .go => (w.destruct o).map fun w' => .goto w' (.batch rest) []
  | .done r, .go => some (.ret w r [])
  | _, _ => none

end World

/-- The code, with what happens meanwhile. -/
def resume (w : World) (f : Frame) : Answer → Option Next
  | .elsewhere e => (w.elsewhere e).map fun w' => .goto w' f []
  | a => w.code f a

/-- Where an operation starts. -/
def enter (w : World) (op : Op) : World × Frame := (w, .api op)

/-- The context and its sockets. -/
def object : Object World Op Frame CallOut Answer Result Empty := ⟨enter, resume⟩

abbrev Configuration := Config World Op Frame CallOut Result Empty

/-- A new context: nothing is open, and there are no sockets. -/
def World.new : World :=
  ⟨⟨fun _ => false, fun _ => false, fun _ => 0, fun _ => none, fun _ => none, 0⟩,
    fun _ => none, fun _ => none, 0, false⟩

end Macos
end AcppNetwork
