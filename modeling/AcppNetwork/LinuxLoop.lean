import AcppNetwork.LinuxSocket
import AcppNetwork.Reentrant

/-!
# The event loop of the Linux backend

A context with its sockets, as one object that the program calls:
`io_context::wait_for_input`, and the operations of `async_socket_base`.  The
program runs between the calls and inside every callback; from there it may
construct, move, assign, close and destroy any socket, and enter the loop again.

A socket is an `async_socket_base` that owns a `socket_base_pimpl`.  The pimpl is
what epoll knows: its address is the pointer the kernel hands back with an event,
and the loop calls `handle_event` through that pointer.  Addresses here are never
used twice, so a pointer to a deleted pimpl points to nothing (`pimpls h = none`);
what the code does through such a pointer is not modelled any further
(`Frame.undefined`).

An operation that the program itself may not call (on an object that does not
exist, or that was moved from) has no step here.  The timers and the queue of
`exec` are handlers of their own: `handle_event` of these runs callbacks, too.
-/
namespace AcppNetwork
namespace Linux

open Reentrant

/-- The context: the kernel, the pimpls by address, the objects by address with the
pimpl each of them owns (none, if it was moved from), the first address not used
so far, and `run`. -/
structure World where
  kernel : Kernel
  pimpls : Nat → Option SocketBasePimpl
  objects : Nat → Option (Option Nat)
  fresh : Nat
  run : Bool

/-- An entry of the array filled by `epoll_wait`: a pointer to a socket's pimpl with
the events, or a pointer to a handler of another kind. -/
inductive Ready where
  | socket (h : Nat) (events : Events)
  | other
  deriving DecidableEq

/-- What `::socket` and `::accept` answer: a descriptor, or an error. -/
inductive Opened where
  | fd (n : Nat)
  | failed (error : Nat)
  deriving DecidableEq

/-- The calls of the program.  The operations of `async_socket_base` name the
object; other code of the program may open a descriptor, and leaves `errno`. -/
inductive Op where
  | waitForInput
  | stop
  | socket (domain type protocol : Int) (callbacks : Callbacks)
  | adopt (domain type protocol fd : Int) (callbacks : Callbacks)
  | move (other : Nat)
  | assign (o other : Nat)
  | destroy (o : Nat)
  | close (o : Nat)
  | connect (o : Nat)
  | listen (o : Nat)
  | write (o : Nat) (buffer : List Byte)
  | callbacks (o : Nat) (callbacks : Callbacks)
  | otherCall (opens : Option Nat) (errno : Nat)
  deriving DecidableEq

/-- What an operation returns. -/
inductive Result where
  | void
  | object (o : Nat)
  | bool (b : Bool)
  | int (n : Int)
  | size (n : Nat)
  deriving DecidableEq

/-- The calls of the program's callbacks: one of a socket, with the object it is
handed, or one of another handler. -/
inductive CallOut where
  | callback (parent : Nat) (cb : Callback)
  | other
  deriving DecidableEq

/-- Where an activation stands. -/
inductive Frame where
  | api (op : Op)
  /-- At `while (run)`. -/
  | loop
  /-- In the `for` loop, with the events that are still to be handled. -/
  | batch (events : List Ready)
  /-- In `handle_event`, at `events & EPOLLIN`. -/
  | readBranch (h : Nat) (events : Events) (rest : List Ready)
  /-- `new_socket` goes out of scope.  An exception that leaves this scope destroys it
  as well; there the program is left to call the destructor. -/
  | newSocket (o : Nat) (rest : List Ready)
  | done (r : Result)
  | undefined
  deriving DecidableEq

/-- What the kernel answers along a stretch of code.  `ready` gives the descriptors
of sockets and their events; a descriptor of another handler is `none`. -/
inductive Answer where
  | ready (events : List (Option (Int × Events)))
  | waitFailed (error : Nat)
  | wake (refused : Option Nat) (soError : Nat)
  | accept (a : Opened) (refused : Option Nat)
  | recv (a : Recv)
  | opened (a : Opened)
  | call (refused error : Option Nat)
  | sends (as : List Send)
  | go
  deriving DecidableEq

/-- What the log says about handlers: the loop called `handle_event` through the
pointer `h`, where a pimpl was or was not, with a descriptor or without;
`handle_event` went on to its branch for `EPOLLIN` through `h`; a callback of `h`
was called; `SO_ERROR` was read; the socket was closed. -/
inductive Note where
  | dispatched (h : Nat) (exists_ valid : Bool)
  | reads (h : Nat) (exists_ valid : Bool)
  | invoked (h : Nat) (cb : Callback)
  | soError (h : Nat) (err : Nat)
  | closed (h : Nat)
  deriving DecidableEq

abbrev Next := Outcome World Frame CallOut Result Note

/-- `accept(fd_, NULL, NULL)` fails with `EBADF` on a descriptor that is not open. -/
def Socket.Accepts (s : Socket) : Opened → Prop
  | .fd _ => s.kernel.isOpen s.pimpl.fd = true
  | .failed e => s.kernel.isOpen s.pimpl.fd = false ↔ e = EBADF

instance (s : Socket) (a : Opened) : Decidable (s.Accepts a) := by
  rcases a with n | e <;> unfold Socket.Accepts <;> infer_instance

namespace World

/-- The socket that the object `o` owns. -/
def owned (w : World) (o : Nat) : Option Socket :=
  (w.objects o).join.bind fun h => (w.pimpls h).map fun p => ⟨h, w.kernel, p⟩

/-- The context after an operation of a socket. -/
def put (w : World) (s : Socket) : World :=
  { w with kernel := s.kernel, pimpls := Function.update w.pimpls s.this (some s.pimpl) }

/-- A new descriptor is one that was not open; a failing call says why. -/
def Opens (w : World) : Opened → Prop
  | .fd n => w.kernel.isOpen n = false
  | .failed e => e ≠ 0

instance (w : World) (a : Opened) : Decidable (w.Opens a) := by
  rcases a with n | e <;> unfold Opens <;> infer_instance

/-- The context after the kernel handed out a descriptor. -/
def openFd (w : World) (n : Nat) : World :=
  { w with kernel := { w.kernel with isOpen := Function.update w.kernel.isOpen n true } }

/-- The context with this value of `errno`. -/
def setErrno (w : World) (e : Nat) : World := { w with kernel := { w.kernel with errno := e } }

/-- The constructor of `async_socket_base` that is given a descriptor; the object and
its pimpl are numbered alike. -/
def construct (w : World) (domain type protocol fd : Int) (callbacks : Callbacks) : World :=
  { w with
    pimpls := Function.update w.pimpls w.fresh
      (some (SocketBasePimpl.new domain type protocol fd callbacks w.fresh))
    objects := Function.update w.objects w.fresh (some (some w.fresh))
    fresh := w.fresh + 1 }

/-- The constructor that makes a descriptor of its own. -/
def constructSocket (w : World) (domain type protocol : Int) (callbacks : Callbacks) :
    Opened → World
  | .fd n => (w.openFd n).construct domain type protocol n callbacks
  | .failed e => (w.setErrno e).construct domain type protocol SocketBasePimpl.invalidFd callbacks

/-- `pimpl_ = std::move(..); pimpl_->parent_ = this`, the pimpl being that at `h`. -/
def own (w : World) (o h : Nat) : Option World :=
  (w.pimpls h).map fun p =>
    { w with
      objects := Function.update w.objects o (some (some h))
      pimpls := Function.update w.pimpls h (some { p with parent := o }) }

/-- The object `o` gives its pimpl away. -/
def release (w : World) (o : Nat) : World :=
  { w with objects := Function.update w.objects o (some none) }

/-- The destructor of the pimpl at `h` closes the socket. -/
def delete (w : World) (h : Nat) : World :=
  match w.pimpls h with
  | some p =>
      { w with
        kernel := (Socket.close ⟨h, w.kernel, p⟩).kernel
        pimpls := Function.update w.pimpls h none }
  | none => w

/-- What a `unique_ptr` does to a pimpl it no longer owns. -/
def reset (w : World) : Option Nat → World × List Note
  | some h => (w.delete h, [.closed h])
  | none => (w, [])

/-- The destructor of `async_socket_base`. -/
def destruct (w : World) (o : Nat) : Option (World × List Note) :=
  (w.objects o).map fun pimpl =>
    { w with objects := Function.update w.objects o none }.reset pimpl

/-- Move assignment. -/
def assign (w : World) (o other : Nat) : Option (World × List Note) := do
  let s ← w.owned other
  let pimpl ← (w.release other).objects o
  let (w, notes) := (w.release other).reset pimpl
  let w ← w.own o s.this
  return (w, notes)

/-- `async_socket_base::close`. -/
def closeObject (w : World) (o : Nat) : Option (World × List Note) := do
  match ← w.objects o with
  | some h =>
      let p ← w.pimpls h
      return (w.put (Socket.close ⟨h, w.kernel, p⟩), [.closed h])
  | none => return (w, [])

/-- Put the socket back, call the callback of it, if there is one, and go on at `f`. -/
def callThen (w : World) (s : Socket) (f : Frame) (notes : List Note) : Option Callback → Next
  | some cb => .callOut (w.put s) f (.callback s.pimpl.parent cb) (notes ++ [.invoked s.this cb])
  | none => .goto (w.put s) f notes

/-- The operations of the program. -/
def api (w : World) : Op → Answer → Option Next
  | .waitForInput, .go => some (.goto { w with run := true } .loop [])
  | .stop, .go => some (.ret { w with run := false } .void [])
  | .socket domain type protocol callbacks, .opened a =>
      if w.Opens a then
        some (.ret (w.constructSocket domain type protocol callbacks a) (.object w.fresh) [])
      else none
  | .adopt domain type protocol fd callbacks, .go =>
      some (.ret (w.construct domain type protocol fd callbacks) (.object w.fresh) [])
  | .move other, .go => do
      let s ← w.owned other
      let w' ← { w.release other with fresh := w.fresh + 1 }.own w.fresh s.this
      return .ret w' (.object w.fresh) []
  | .assign o other, .go => do
      let (w, notes) ← w.assign o other
      return .ret w .void notes
  | .destroy o, .go => do
      let (w, notes) ← w.destruct o
      return .ret w .void notes
  | .close o, .go => do
      let (w, notes) ← w.closeObject o
      return .ret w .void notes
  | .connect o, .call refused error => do
      let s ← w.owned o
      return .ret (w.put (s.connect refused error).1) (.bool (s.connect refused error).2.1) []
  | .listen o, .call refused error => do
      let s ← w.owned o
      return .ret (w.put (s.listen refused error).1) (.int (s.listen refused error).2.1) []
  | .write o buffer, .sends as => do
      let s ← w.owned o
      let written ← s.soWrite buffer as
      return w.callThen written.socket (.done (.size written.n)) [] written.callback
  | .callbacks o callbacks, .go => do
      let s ← w.owned o
      return .ret (w.put { s with pimpl := { s.pimpl with callbacks := callbacks } }) .void []
  | .otherCall none e, .go => some (.ret (w.setErrno e) .void [])
  | .otherCall (some n) e, .go =>
      if w.kernel.isOpen n then none else some (.ret ((w.openFd n).setErrno e) .void [])
  | _, _ => none

/-! ## The loop -/

/-- What `epoll_wait` may report about a descriptor: events it was registered for,
with the registered pointer. -/
def report (w : World) : Option (Int × Events) → Option Ready
  | some (fd, events) => do
      let r ← w.kernel.epoll fd
      if (events.epollin → r.events.epollin) ∧ (events.epollout → r.events.epollout) then
        return .socket r.ptr events
      else none
  | none => some .other

/-- `epoll_wait(epollfd, events, MAX_EVENTS, -1)`: at most 5 entries, one for a
descriptor. -/
def epollWait (w : World) (events : List (Option (Int × Events))) : Option (List Ready) :=
  if events.length ≤ 5 ∧ ((events.filterMap id).map Prod.fst).Nodup then events.mapM w.report
  else none

/-- `data->handle_event(events[i].events)` up to `events & EPOLLIN`. -/
def handleEvent (w : World) (h : Nat) (events : Events) (rest : List Ready) (a : Answer) :
    Option Next :=
  match w.pimpls h with
  | none => if a = .go then some (.goto w .undefined [.dispatched h false false]) else none
  | some p =>
      if events.epollout then
        match a with
        | .wake refused soError =>
            let (s, cb, _) := Socket.writeBranch ⟨h, w.kernel, p⟩ refused soError
            some (w.callThen s (.readBranch h events rest)
              (.dispatched h true p.valid ::
                if p.connected then [] else [.soError h (w.kernel.getsockopt p.fd soError).2]) cb)
        | _ => none
      else
        if a = .go then
          some (.goto w (.readBranch h events rest) [.dispatched h true p.valid])
        else none

/-- The branch of `handle_event` for a socket that listens.  The descriptor is accepted
in any case; without `on_accepted` nothing becomes of it. -/
def acceptBranch (w : World) (s : Socket) (rest : List Ready) (refused : Option Nat) :
    Opened → Next
  | .failed e =>
      w.callThen { s with kernel := { s.kernel with errno := e } } (.batch rest)
        [.reads s.this true s.pimpl.valid] (s.pimpl.callbacks.call? (.onError e "accept"))
  | .fd n =>
      if s.pimpl.callbacks.onAccepted then
        let w' := (w.openFd n).construct s.pimpl.domain s.pimpl.type s.pimpl.protocol n
          ⟨false, false, false, false, false, false⟩
        let pimpl := SocketBasePimpl.new s.pimpl.domain s.pimpl.type s.pimpl.protocol n
          ⟨false, false, false, false, false, false⟩ w.fresh
        let (new, _) := Socket.setEvents ⟨w.fresh, w'.kernel, pimpl⟩ ⟨true, false⟩ refused
        .callOut (w'.put { new with pimpl := { new.pimpl with connected := true } })
          (.newSocket w.fresh rest) (.callback s.pimpl.parent (.onAccepted w.fresh))
          [.reads s.this true s.pimpl.valid, .invoked s.this (.onAccepted w.fresh)]
      else .goto (w.openFd n) (.batch rest) [.reads s.this true s.pimpl.valid]

/-- `handle_event` from `events & EPOLLIN`. -/
def readBranch (w : World) (h : Nat) (events : Events) (rest : List Ready) (a : Answer) :
    Option Next :=
  if events.epollin then
    match w.pimpls h with
    | none => if a = .go then some (.goto w .undefined [.reads h false false]) else none
    | some p =>
        let s : Socket := ⟨h, w.kernel, p⟩
        if p.listening then
          match a with
          | .accept a refused =>
              if s.Accepts a ∧ w.Opens a then some (w.acceptBranch s rest refused a) else none
          | _ => none
        else
          match a with
          | .recv a =>
              if s.Receives a then
                match s.receiveBranch a with
                | (s, .callback cb) => some (w.callThen s (.batch rest) [.reads h true p.valid] cb)
                | (s, .badFunctionCall) => some (.throw (w.put s) [.reads h true p.valid])
              else none
          | _ => none
  else
    if a = .go then some (.goto w (.batch rest) []) else none

end World

/-- The code, stretch by stretch. -/
def resume (w : World) : Frame → Answer → Option Next
  | .api op, a => w.api op a
  | .loop, .ready events =>
      if w.run then (w.epollWait events).map fun ready => .goto w (.batch ready) [] else none
  | .loop, .waitFailed e => if w.run ∧ e ≠ 0 then some (.throw (w.setErrno e) []) else none
  | .loop, .go => if w.run then none else some (.ret w .void [])
  | .batch [], .go => some (.goto w .loop [])
  | .batch (.other :: rest), .go => some (.callOut w (.batch rest) .other [])
  | .batch (.socket h events :: rest), a => w.handleEvent h events rest a
  | .readBranch h events rest, a => w.readBranch h events rest a
  | .newSocket o rest, .go =>
      (w.destruct o).map fun (w, notes) => .goto w (.batch rest) notes
  | .done r, .go => some (.ret w r [])
  | _, _ => none

/-- Where an operation starts. -/
def enter (w : World) (op : Op) : World × Frame := (w, .api op)

/-- The context and its sockets. -/
def object : Object World Op Frame CallOut Answer Result Note := ⟨enter, resume⟩

abbrev Configuration := Config World Op Frame CallOut Result Note

/-- A new context: nothing is open, and there are no sockets. -/
def World.new : World :=
  ⟨⟨fun _ => false, fun _ => none, 0⟩, fun _ => none, fun _ => none, 0, false⟩

/-- What `epoll_wait` fills in, one entry for each that is ready. -/
theorem mem_of_mapM {α β : Type} {f : α → Option β} {l : List α} {l' : List β}
    (h : l.mapM f = some l') :
    (∀ a ∈ l, ∃ b ∈ l', f a = some b) ∧ ∀ b ∈ l', ∃ a ∈ l, f a = some b := by
  induction l generalizing l' with
  | nil =>
    cases h
    exact ⟨fun _ ha => (by cases ha), fun _ hb => (by cases hb)⟩
  | cons x l ih =>
    rw [List.mapM_cons] at h
    obtain ⟨y, hy, hrest⟩ := Option.bind_eq_some_iff.mp h
    obtain ⟨rest, hmap, hret⟩ := Option.bind_eq_some_iff.mp hrest
    cases hret
    obtain ⟨hto, hfrom⟩ := ih hmap
    constructor
    · intro a ha
      rcases List.mem_cons.mp ha with rfl | ha
      · exact ⟨y, List.mem_cons_self .., hy⟩
      · obtain ⟨b, hb, hab⟩ := hto a ha
        exact ⟨b, List.mem_cons_of_mem _ hb, hab⟩
    · intro b hb
      rcases List.mem_cons.mp hb with rfl | hb
      · exact ⟨x, List.mem_cons_self .., hy⟩
      · obtain ⟨a, ha, hab⟩ := hfrom b hb
        exact ⟨a, List.mem_cons_of_mem _ ha, hab⟩

end Linux
end AcppNetwork
