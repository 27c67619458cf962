import AcppNetwork.LinuxSocket
import AcppNetwork.Reentrant

/-!
# The event loop of the Windows backend

A context with its sockets (`src/windows/socket_base.cpp`), as one object that the
program calls: `io_context::wait_for_input` and `exec`, and the operations of
`async_socket_base`, from anywhere, callbacks included.

A `socket_base_pimpl` is known to the kernel in two ways.  Its address is the key under
which its handle is associated with the completion port, and the structures of its
overlapped operations are its members: an operation that is outstanding writes to it,
and the completion that it queues has a pointer into it.  The loop uses both.

Addresses are never used twice, so a pointer to a deleted pimpl points to nothing, and
what the code does through such a pointer is not modelled any further
(`Frame.undefined`).  Outstanding operations complete, other threads post to the queue
and other code opens handles at any time (`Elsewhere`), whether code of the context is
running or not.
-/
namespace AcppNetwork
namespace Windows

open Reentrant
open Linux (Callbacks Callback)

abbrev ERROR_NETNAME_DELETED : Nat := 64
abbrev WAIT_TIMEOUT : Nat := 258

/-- `operation_type`; `exec` apart, these are the operations of a socket. -/
inductive OperationType where
  | connect
  | read
  | write
  | accept
  deriving DecidableEq

/-- A pointer to the `OVERLAPPED` of an operation: the pimpl it is a member of, and which
of its operations it is. -/
structure Overlapped where
  pimpl : Nat
  type : OperationType
  deriving DecidableEq

/-- `write_operation`. -/
structure WriteOperation where
  buffer : List Byte
  inUse : Bool
  deriving DecidableEq

/-- The fields of `socket_base_pimpl` (`io_` apart: there is one context).  `newSocket` is
`accept_op.new_socket`, the object that is to get the next connection. -/
structure SocketBasePimpl where
  domain : Int
  type : Int
  protocol : Int
  fd : Int
  parent : Nat
  callbacks : Callbacks
  readBuffer : List Byte
  writeOp : WriteOperation
  newSocket : Option Nat
  deriving DecidableEq

namespace SocketBasePimpl

/-- `INVALID_SOCKET`. -/
abbrev invalidFd : Int := -1

/-- The size of the buffer of an operation. -/
abbrev bufferSize : Nat := 10 * 1024

/-- `valid`. -/
def valid (p : SocketBasePimpl) : Bool := p.fd ≠ invalidFd

/-- The constructors; `parent_` is set by the `async_socket_base` that owns it. -/
def new (domain type protocol fd : Int) (callbacks : Callbacks) (parent : Nat) :
    SocketBasePimpl where
  domain := domain
  type := type
  protocol := protocol
  fd := fd
  parent := parent
  callbacks := callbacks
  readBuffer := []
  writeOp := ⟨[], false⟩
  newSocket := none

end SocketBasePimpl

/-- `socket_callbacks{}`. -/
def noCallbacks : Callbacks := ⟨false, false, false, false, false, false⟩

/-- How an operation ended: with this many bytes, or an error. -/
inductive Status where
  | success (bytesTransferred : Nat)
  | failure (error : Nat)
  deriving DecidableEq

/-- An operation that the kernel has begun, with the key of its handle at the time. -/
structure Pending where
  key : Option Nat
  op : Overlapped
  len : Nat
  deriving DecidableEq

/-- A completion packet: of an operation of a socket, or posted by `exec`. -/
inductive Packet where
  | io (key : Nat) (op : Overlapped) (status : Status)
  | exec (f : Nat)
  deriving DecidableEq

/-- The handles that are open, with the key under which each is associated with the port;
the operations outstanding; the queue of the port; the pimpls by address, the objects
by address with the pimpl each of them owns (none, if it was moved from), the first
address not used so far, and `run`. -/
structure World where
  handles : Int → Option (Option Nat)
  outstanding : List Pending
  queue : List Packet
  pimpls : Nat → Option SocketBasePimpl
  objects : Nat → Option (Option Nat)
  fresh : Nat
  run : Bool

/-- What `WSASocket` answers. -/
inductive Opened where
  | fd (n : Nat)
  | failed (error : Nat)
  deriving DecidableEq

/-- What `listen` meets on its way. -/
inductive Listened where
  | refused (error : Nat)
  | noIoctl (error : Nat)
  | noAcceptEx
  | ready (socket : Opened)
  deriving DecidableEq

/-- What happens meanwhile: an outstanding operation completes, having moved these bytes,
or fails; another thread (or a timer) calls `exec`; other code opens a handle. -/
inductive Elsewhere where
  | completes (i : Nat) (data : List Byte)
  | fails (i : Nat) (error : Nat)
  | posts (f : Nat)
  | opens (n : Nat)
  deriving DecidableEq

/-- The calls of the program. -/
inductive Op where
  | waitForInput
  | stop
  | exec (f : Nat)
  | socket (domain type protocol : Int) (callbacks : Callbacks)
  | adopt (domain type protocol fd : Int) (callbacks : Callbacks)
  | move (other : Nat)
  | assign (o other : Nat)
  | destroy (o : Nat)
  | close (o : Nat)
  | connect (o : Nat)
  | listen (o : Nat)
  | write (o : Nat) (buffer : List Byte)
  | callbacks (o : Nat) (callbacks : Callbacks)
  | elsewhere (e : Elsewhere)
  deriving DecidableEq

/-- What an operation returns. -/
inductive Result where
  | void
  | object (o : Nat)
  | bool (b : Bool)
  | int (n : Int)
  | size (n : Nat)
  deriving DecidableEq

/-- The calls of the program's callbacks. -/
inductive CallOut where
  | callback (parent : Nat) (cb : Callback)
  | exec (f : Nat)
  deriving DecidableEq

/-- Where an activation stands. -/
inductive Frame where
  | api (op : Op)
  /-- At `while (pimpl_->run)`; `key` is what `completionKey` holds. -/
  | loop (key : Option Nat)
  /-- `on_received` has returned. -/
  | received (key : Nat)
  /-- The destructor of an object. -/
  | destroying (o : Nat) (next : Frame)
  /-- The destructor of a pimpl. -/
  | deleting (h : Nat) (next : Frame)
  /-- In the move assignment, after `pimpl_ = std::move(other.pimpl_)`. -/
  | assigned (o other : Nat)
  /-- In `start_accept` of the pimpl at `h`, after `new_socket` was set. -/
  | acceptEx (h : Nat)
  | done
  | undefined
  deriving DecidableEq

/-- A `unique_ptr<socket_base_pimpl>` lets go of what it had. -/
def Frame.deletingOld (next : Frame) : Option Nat → Frame
  | some h => .deleting h next
  | none => next

/-- A `unique_ptr<async_socket_base>` lets go of what it had. -/
def Frame.destroyingOld (next : Frame) : Option Nat → Frame
  | some o => .destroying o next
  | none => next

/-- What is answered along a stretch of code; `start` is for the operations begun there:
an error at once, or none (also for `WSA_IO_PENDING`). -/
inductive Answer where
  | opened (a : Opened)
  | listen (l : Listened)
  | start (refused : Option Nat)
  | posted (b : Bool)
  | waitFailed (error : Nat)
  | elsewhere (e : Elsewhere)
  | go
  deriving DecidableEq

/-- What the log says: the loop dequeued a completion with this key and `OVERLAPPED`,
where pimpls were or were not; it called `start_read` after `on_received` through the
pointer `h`. -/
inductive Note where
  | dequeued (key : Nat) (op : Overlapped) (keyExists opExists : Bool)
  | restarted (h : Nat) (exists_ : Bool)
  deriving DecidableEq

abbrev Next := Outcome World Frame CallOut Result Note

namespace World

/-- The pimpl that the object `o` owns, with its address. -/
def owned (w : World) (o : Nat) : Option (Nat × SocketBasePimpl) :=
  (w.objects o).join.bind fun h => (w.pimpls h).map fun p => (h, p)

/-- The context with this pimpl at `h`. -/
def put (w : World) (h : Nat) (p : SocketBasePimpl) : World :=
  { w with pimpls := Function.update w.pimpls h (some p) }

/-- The object is the `accept_op.new_socket` of some pimpl. -/
def isNewSocket (w : World) (o : Nat) : Bool :=
  (List.range w.fresh).any fun h => (w.pimpls h).any (·.newSocket = some o)

/-! ## Handles and operations -/

/-- A new handle is one that was not open. -/
def Opens (w : World) : Opened → Prop
  | .fd n => w.handles n = none
  | .failed e => e ≠ 0

instance (w : World) (a : Opened) : Decidable (w.Opens a) := by
  cases a <;> unfold Opens <;> infer_instance

/-- `io_context::add_socket`: `CreateIoCompletionPort` associates a handle that is open
and has no key yet, and fails otherwise. -/
def addSocket (w : World) (fd : Int) (key : Nat) : World :=
  if w.handles fd = some none then
    { w with handles := Function.update w.handles fd (some (some key)) }
  else w

/-- `WSARecv`, `WSASend`, `ConnectEx`, `AcceptEx`: the operation is outstanding, or fails
at once. -/
def start (w : World) (op : Overlapped) (fd : Int) (len : Nat) (refused : Option Nat) :
    Option World :=
  match w.handles fd, refused with
  | some key, none => some { w with outstanding := w.outstanding ++ [⟨key, op, len⟩] }
  | _, _ => none

/-- An operation that fails at once throws. -/
def startThen (w : World) (op : Overlapped) (fd : Int) (len : Nat) (refused : Option Nat)
    (notes : List Note) (next : World → Next) : Next :=
  match w.start op fd len refused with
  | some w' => next w'
  | none => .throw w notes

/-- `start_read` of the pimpl `p` at `h`. -/
def startRead (w : World) (h : Nat) (p : SocketBasePimpl) (refused : Option Nat)
    (notes : List Note) (next : World → Next) : Next :=
  w.startThen ⟨h, .read⟩ p.fd SocketBasePimpl.bufferSize refused notes next

/-- `socket_base_pimpl::close` of the pimpl `p` at `h`. -/
def close (w : World) (h : Nat) (p : SocketBasePimpl) : World :=
  if p.valid then
    { w with
      handles := Function.update w.handles p.fd none
      pimpls := Function.update w.pimpls h (some { p with fd := SocketBasePimpl.invalidFd }) }
  else w

/-- The bytes of an operation: a read puts them into the buffer, a write takes them from
there. -/
def transfer (w : World) (pending : Pending) (data : List Byte) : Option World :=
  match pending.op.type with
  | .read =>
      if data.length ≤ pending.len then
        some { w with
          pimpls := Function.update w.pimpls pending.op.pimpl
            ((w.pimpls pending.op.pimpl).map fun p =>
              { p with readBuffer := data ++ p.readBuffer.drop data.length }) }
      else none
  | .write =>
      if ∀ p ∈ w.pimpls pending.op.pimpl, data <+: p.writeOp.buffer.take pending.len then some w
      else none
  | .connect | .accept => if data = [] then some w else none

/-- The operation is not outstanding any more; its completion is queued, if its handle
has a key. -/
def settle (w : World) (i : Nat) (pending : Pending) (status : Status) : World :=
  { w with
    outstanding := w.outstanding.eraseIdx i
    queue := w.queue ++ (pending.key.map fun key => .io key pending.op status).toList }

/-- What happens meanwhile. -/
def elsewhere (w : World) : Elsewhere → Option World
  | .completes i data => do
      let pending ← w.outstanding[i]?
      let w' ← w.transfer pending data
      return w'.settle i pending (.success data.length)
  | .fails i e => do
      let pending ← w.outstanding[i]?
      if e = 0 then none else some (w.settle i pending (.failure e))
  | .posts f => some { w with queue := w.queue ++ [.exec f] }
  | .opens n =>
      if w.handles n = none then
        some { w with handles := Function.update w.handles n (some none) }
      else none

/-! ## Objects -/

/-- The constructor of `async_socket_base` that is given a handle; the object and its
pimpl are numbered alike. -/
def construct (w : World) (domain type protocol fd : Int) (callbacks : Callbacks) : World :=
  { w with
    pimpls := Function.update w.pimpls w.fresh
      (some (SocketBasePimpl.new domain type protocol fd callbacks w.fresh))
    objects := Function.update w.objects w.fresh (some (some w.fresh))
    fresh := w.fresh + 1 }.addSocket fd w.fresh

/-- The constructor that makes a handle of its own. -/
def constructSocket (w : World) (domain type protocol : Int) (callbacks : Callbacks) :
    Opened → World
  | .fd n =>
      { w with handles := Function.update w.handles n (some none) }.construct domain type protocol
        n callbacks
  | .failed _ => w.construct domain type protocol SocketBasePimpl.invalidFd callbacks

/-- The move constructor. -/
def move (w : World) (other : Nat) : Option World :=
  (w.owned other).map fun (h, p) =>
    { w with
      objects := Function.update (Function.update w.objects other (some none)) w.fresh
        (some (some h))
      pimpls := Function.update w.pimpls h (some { p with parent := w.fresh })
      fresh := w.fresh + 1 }

/-- Move assignment: `pimpl_ = std::move(other.pimpl_)`, which deletes the pimpl that the
object had, without closing it. -/
def assign (w : World) (o other : Nat) : Option Next := do
  let (h, _) ← w.owned other
  let w' := { w with objects := Function.update w.objects other (some none) }
  let old ← w'.objects o
  return .goto { w' with objects := Function.update w'.objects o (some (some h)) }
    (Frame.deletingOld (.assigned o other) old) []

/-- `pimpl_->parent_ = this; other.pimpl_ = std::make_unique<socket_base_pimpl>(other)`.
One of the objects may have been the `new_socket` of the pimpl that was deleted. -/
def assigned (w : World) (o other : Nat) : Next :=
  match w.owned o, w.objects other with
  | some (h, p), some old =>
      let w' := { w with
        pimpls := Function.update (Function.update w.pimpls h (some { p with parent := o })) w.fresh
          (some (SocketBasePimpl.new 0 0 0 SocketBasePimpl.invalidFd noCallbacks other))
        objects := Function.update w.objects other (some (some w.fresh))
        fresh := w.fresh + 1 }
      .goto w' (Frame.deletingOld .done old) []
  | _, _ => .goto w .undefined []

/-- The destructor of `async_socket_base`: it closes, and deletes the pimpl. -/
def destroying (w : World) (o : Nat) (next : Frame) : Next :=
  let w' := { w with objects := Function.update w.objects o none }
  match w.owned o with
  | some (h, p) => .goto (w'.close h p) (.deleting h next) []
  | none => .goto w' next []

/-- The destructor of the pimpl at `h`, which destroys `accept_op.new_socket`. -/
def deleting (w : World) (h : Nat) (next : Frame) : Next :=
  .goto { w with pimpls := Function.update w.pimpls h none }
    (next.destroyingOld ((w.pimpls h).bind SocketBasePimpl.newSocket)) []

/-! ## Operations -/

/-- `listen` up to where `new_socket` is set. -/
def listen (w : World) (h : Nat) (p : SocketBasePimpl) : Listened → Option Next
  | .refused e => if e = 0 then none else some (.ret w (.int (-1)) [])
  | .noIoctl e => if e = 0 ∨ w.handles p.fd = none then none else some (.throw w [])
  | .noAcceptEx => if w.handles p.fd = none then none else some (.ret w (.int 0) [])
  | .ready a =>
      if w.handles p.fd ≠ none ∧ w.Opens a then
        some (.goto ((w.constructSocket p.domain p.type p.protocol noCallbacks a).put h
            { p with newSocket := some w.fresh })
          (Frame.destroyingOld (.acceptEx h) p.newSocket) [])
      else none

/-- `lpAcceptEx`, which needs the handle of `new_socket`, too. -/
def acceptEx (w : World) (h : Nat) (refused : Option Nat) : Next :=
  match w.pimpls h with
  | some p =>
      match p.newSocket.bind w.owned with
      | some (_, new) =>
          if w.handles new.fd = none then .throw w []
          else w.startThen ⟨h, .accept⟩ p.fd 0 refused [] fun w' => .ret w' (.int 0) []
      | none => .goto w .undefined []
  | none => .goto w .undefined []

/-- `socket_base_pimpl::write` of the pimpl `p` at `h`. -/
def write (w : World) (h : Nat) (p : SocketBasePimpl) (buffer : List Byte)
    (refused : Option Nat) : Next :=
  if p.writeOp.inUse then .ret w (.size 0) []
  else
    let l := min SocketBasePimpl.bufferSize buffer.length
    let op : WriteOperation := ⟨buffer.take l ++ p.writeOp.buffer.drop l, true⟩
    (w.put h { p with writeOp := op }).startThen ⟨h, .write⟩ p.fd l refused []
      fun w' => .ret w' (.size l) []

/-- The operations of the program. -/
def api (w : World) : Op → Answer → Option Next
  | .waitForInput, .go => some (.goto { w with run := true } (.loop none) [])
  | .stop, .go => some (.ret { w with run := false } .void [])
  | .exec f, .posted b =>
      some (.ret (if b then { w with queue := w.queue ++ [.exec f] } else w) .void [])
  | .socket domain type protocol callbacks, .opened a =>
      if w.Opens a then
        some (.ret (w.constructSocket domain type protocol callbacks a) (.object w.fresh) [])
      else none
  | .adopt domain type protocol fd callbacks, .go =>
      some (.ret (w.construct domain type protocol fd callbacks) (.object w.fresh) [])
  | .move other, .go => (w.move other).map fun w' => .ret w' (.object w.fresh) []
  | .assign o other, .go => w.assign o other
  | .destroy o, .go =>
      if w.objects o = none ∨ w.isNewSocket o then none
      else some (.goto w (.destroying o .done) [])
  | .close o, .go =>
      (w.objects o).map fun _ =>
        match w.owned o with
        | some (h, p) => .ret (w.close h p) .void []
        | none => .ret w .void []
  | .connect o, .start refused =>
      (w.owned o).map fun (h, p) =>
        w.startThen ⟨h, .connect⟩ p.fd 0 refused [] fun w' => .ret w' (.bool false) []
  | .listen o, .listen l => (w.owned o).bind fun (h, p) => w.listen h p l
  | .write o buffer, .start refused => (w.owned o).map fun (h, p) => w.write h p buffer refused
  | .callbacks o callbacks, .go =>
      (w.owned o).map fun (h, p) => .ret (w.put h { p with callbacks := callbacks }) .void []
  | .elsewhere e, .go => (w.elsewhere e).map fun w' => .ret w' .void []
  | _, _ => none

/-! ## The loop -/

/-- Call the callback of the socket, if there is one, and go on at `f`. -/
def callThen (w : World) (socket : SocketBasePimpl) (f : Frame) (notes : List Note) :
    Option Callback → Next
  | some cb => .callOut w f (.callback socket.parent cb) notes
  | none => .goto w f notes

/-- The branch for an operation that failed. -/
def failed (w : World) (key : Nat) (socket : SocketBasePimpl) (op : Overlapped) (error : Nat)
    (notes : List Note) : Next :=
  if op.type = .read ∧ error = ERROR_NETNAME_DELETED then
    w.callThen socket (.loop (some key)) notes (socket.callbacks.call? .onDisconnected)
  else
    w.callThen socket (.loop (some key)) notes
      (socket.callbacks.call? (.onError error "TODO: put correct hint"))

/-- The branches for an operation that succeeded; `operation` is the pimpl that it is a
member of, which need not be `socket`. -/
def completed (w : World) (key : Nat) (socket : SocketBasePimpl) (op : Overlapped)
    (operation : SocketBasePimpl) (bytesTransferred : Nat) (refused : Option Nat)
    (notes : List Note) : Next :=
  match op.type with
  | .accept =>
      match operation.newSocket, operation.newSocket.bind w.owned with
      | some o, some (h, new) =>
          w.startRead h new refused notes fun w' =>
            w'.callThen socket (.loop (some key)) notes (socket.callbacks.call? (.onAccepted o))
      | _, _ => .goto w .undefined notes
  | .connect =>
      w.startRead key socket refused notes fun w' =>
        w'.callThen socket (.loop (some key)) notes (socket.callbacks.call? .onConnected)
  | .read =>
      if bytesTransferred = 0 then
        w.callThen socket (.loop (some key)) notes (socket.callbacks.call? .onDisconnected)
      else
        w.callThen socket (.received key) notes
          (socket.callbacks.call? (.onReceived (operation.readBuffer.take bytesTransferred)))
  | .write =>
      (w.put op.pimpl { operation with
        writeOp := { operation.writeOp with inUse := false } }).callThen socket (.loop (some key))
        notes (socket.callbacks.call? (.onSent 0))

/-- What the loop does with a completion. -/
def dequeue (w : World) (refused : Option Nat) : Packet → Next
  | .exec f => .callOut w (.loop none) (.exec f) []
  | .io key op status =>
      let notes := [.dequeued key op (w.pimpls key).isSome (w.pimpls op.pimpl).isSome]
      match w.pimpls key, w.pimpls op.pimpl with
      | some socket, some operation =>
          match status with
          | .failure error => w.failed key socket op error notes
          | .success n => w.completed key socket op operation n refused notes
      | _, _ => .goto w .undefined notes

/-- `GetQueuedCompletionStatus` fails and dequeues nothing. -/
def waitFailed (w : World) (key : Option Nat) (error : Nat) : Next :=
  if error = WAIT_TIMEOUT then .goto w (.loop key) []
  else if key = none then .ret w .void []
  else .goto w .undefined []

/-- `socket->start_read()` after `on_received`. -/
def received (w : World) (key : Nat) (refused : Option Nat) : Next :=
  match w.pimpls key with
  | some socket =>
      w.startRead key socket refused [.restarted key true]
        fun w' => .goto w' (.loop (some key)) [.restarted key true]
  | none => .goto w .undefined [.restarted key false]

/-- The code of the program's calls, stretch by stretch. -/
def code (w : World) : Frame → Answer → Option Next
  | .api op, a => w.api op a
  | .loop _, .start refused =>
      if w.run then
        match w.queue with
        | packet :: rest => some ({ w with queue := rest }.dequeue refused packet)
        | [] => none
      else none
  | .loop key, .waitFailed e => if w.run ∧ e ≠ 0 then some (w.waitFailed key e) else none
  | .loop _, .go => if w.run then none else some (.ret w .void [])
  | .received key, .start refused => some (w.received key refused)
  | .destroying o next, .go => some (w.destroying o next)
  | .deleting h next, .go => some (w.deleting h next)
  | .assigned o other, .go => some (w.assigned o other)
  | .acceptEx h, .start refused => some (w.acceptEx h refused)
  | .done, .go => some (.ret w .void [])
  | _, _ => none

end World

/-- The code, with what happens meanwhile. -/
def resume (w : World) (f : Frame) : Answer → Option Next
  | .elsewhere e => (w.elsewhere e).map fun w' => .goto w' f []
  | a => w.code f a

/-- Where an operation starts. -/
def enter (w : World) (op : Op) : World × Frame := (w, .api op)

/-- The context and its sockets. -/
def object : Object World Op Frame CallOut Answer Result Note := ⟨enter, resume⟩

abbrev Configuration := Config World Op Frame CallOut Result Note

/-- A new context: nothing is open, and there are no sockets. -/
def World.new : World := ⟨fun _ => none, [], [], fun _ => none, fun _ => none, 0, false⟩

end Windows
end AcppNetwork
