import AcppNetwork.LinuxLoop

/-!
# Timers of the Linux backend

A context with its timers, as one object that the program calls: the operations of
`timer`, and `io_context::wait_for_input`, from anywhere, callbacks included.  The
sockets and the queue of `exec` are handlers of another kind here; their callbacks
belong to the program.

A `timer` owns a `timer_impl`, which has a descriptor from `timerfd_create`.  The
descriptors are those of the whole process: other code of it, on any thread, opens
and closes some of its own, and gets any number that is not open at the time.  An
entry of the interest list is armed once (`EPOLLONESHOT`): when `epoll_wait` has
reported it, its mask is empty.

As for the sockets, the addresses of a `timer_impl` are never used twice, and what
the code does through a pointer to nothing is not modelled.  Which of the timers
that were set have expired when the kernel reports is for the kernel to say.
-/
namespace AcppNetwork
namespace Linux
namespace Timers

open Reentrant

abbrev EINVAL : Nat := 22

/-- `it_value` of an `itimerspec`; the `it_interval` is 0. -/
structure Itimerspec where
  sec : Int
  nsec : Int
  deriving DecidableEq

namespace Itimerspec

/-- The division of C++ rounds towards zero. -/
def ofMilliseconds (milliseconds : Int) : Itimerspec :=
  ⟨milliseconds.tdiv 1000, milliseconds.tmod 1000 * 1000 * 1000⟩

/-- What `timerfd_settime` takes; anything else is `EINVAL`. -/
def Valid (ts : Itimerspec) : Prop := 0 ≤ ts.sec ∧ 0 ≤ ts.nsec ∧ ts.nsec < 1000000000

instance (ts : Itimerspec) : Decidable ts.Valid := by
  unfold Valid
  infer_instance

/-- A timer that is set to this does not expire. -/
def zero : Itimerspec := ⟨0, 0⟩

/-- The kernel takes every number of milliseconds that is not negative. -/
theorem ofMilliseconds_valid {milliseconds : Int} :
    (ofMilliseconds milliseconds).Valid ↔ 0 ≤ milliseconds := by
  unfold ofMilliseconds Valid
  constructor
  · rintro ⟨hsec, hnsec, -⟩
    have hsplit := Int.mul_tdiv_add_tmod milliseconds 1000
    dsimp only at hsec hnsec
    omega
  · intro h
    have hlt := Int.tmod_lt_of_pos milliseconds (show (0 : Int) < 1000 by decide)
    have hnonneg := Int.tmod_nonneg 1000 h
    exact ⟨Int.tdiv_nonneg h (by decide), by dsimp only; omega, by dsimp only; omega⟩

end Itimerspec

/-- The fields of `timer_impl` (`io_` apart: there is one context). -/
structure TimerImpl where
  fd : Int
  milliseconds : Int
  callback : Bool
  parent : Nat
  eventsSet : Bool
  deriving DecidableEq

namespace TimerImpl

/-- `set_events_once`; that `epoll_ctl` failed is logged only. -/
def setEventsOnce (p : TimerImpl) (this : Nat) (k : Kernel) (events : Events)
    (refused : Option Nat) : TimerImpl × Kernel :=
  let mode := if p.eventsSet then CtlMode.mod else CtlMode.add
  ({ p with eventsSet := true }, (k.epollCtl mode p.fd ⟨this, events⟩ refused).1)

/-- `cancel`, which leaves `timer_fd_` as it is. -/
def cancel (p : TimerImpl) (k : Kernel) : Kernel := if p.fd = -1 then k else k.close p.fd

end TimerImpl

/-- The context: the kernel, what the timers behind descriptors were set to, the
descriptors that other code opened and did not close; the `timer_impl`s by address,
the `timer` objects by address with what each of them owns, the first address not used
so far, and `run`. -/
structure World where
  kernel : Kernel
  timerfd : Int → Itimerspec
  others : Int → Bool
  impls : Nat → Option TimerImpl
  objects : Nat → Option (Option Nat)
  fresh : Nat
  run : Bool

/-- An entry of the array filled by `epoll_wait`. -/
inductive Ready where
  | timer (h : Nat) (events : Events)
  | other
  deriving DecidableEq

/-- What other code of the process does with descriptors. -/
inductive Elsewhere where
  | opens (n : Nat)
  | closes (n : Nat)
  deriving DecidableEq

/-- The calls of the program; `raise` is code of its own that throws. -/
inductive Op where
  | waitForInput
  | stop
  | timer (milliseconds : Int) (callback : Bool)
  | move (other : Nat)
  | cancel (o : Nat)
  | destroy (o : Nat)
  | elsewhere (e : Elsewhere)
  | raise
  deriving DecidableEq

inductive Result where
  | void
  | object (o : Nat)
  deriving DecidableEq

/-- The calls of the program's callbacks. -/
inductive CallOut where
  | onTimeout (parent : Nat)
  | other
  deriving DecidableEq

/-- Where an activation stands. -/
inductive Frame where
  | api (op : Op)
  /-- At `while (run)`. -/
  | loop
  /-- In the `for` loop, with the events that are still to be handled. -/
  | batch (events : List Ready)
  | undefined
  deriving DecidableEq

/-- What is answered along a stretch of code.  `ready` gives the descriptors of timers;
a descriptor of another handler is `none`. -/
inductive Answer where
  | ready (fds : List (Option Int))
  | waitFailed (error : Nat)
  | created (a : Opened) (refused : Option Nat)
  | elsewhere (e : Elsewhere)
  | go
  deriving DecidableEq

/-- What the log says: the loop called `handle_event` through the pointer `h`, where a
`timer_impl` was or was not; its callback was called; `cancel` returned. -/
inductive Note where
  | dispatched (h : Nat) (exists_ : Bool)
  | timeout (h : Nat)
  | cancelled (h : Nat)
  deriving DecidableEq

abbrev Next := Outcome World Frame CallOut Result Note

namespace World

/-- The `timer_impl` that the object `o` owns, with its address. -/
def owned (w : World) (o : Nat) : Option (Nat × TimerImpl) :=
  (w.objects o).join.bind fun h => (w.impls h).map fun p => (h, p)

/-- A new descriptor is one that was not open; a failing call says why. -/
def Opens (w : World) : Opened → Prop
  | .fd n => w.kernel.isOpen n = false
  | .failed e => e ≠ 0

instance (w : World) (a : Opened) : Decidable (w.Opens a) := by
  rcases a with n | e <;> unfold Opens <;> infer_instance

/-- The context with this value of `errno`. -/
def setErrno (w : World) (e : Nat) : World := { w with kernel := { w.kernel with errno := e } }

/-- The context after the kernel handed out a descriptor. -/
def openFd (w : World) (n : Nat) : World :=
  { w with kernel := { w.kernel with isOpen := Function.update w.kernel.isOpen n true } }

/-- The context after `timerfd_settime` took `ts`. -/
def settime (w : World) (n : Nat) (ts : Itimerspec) : World :=
  { w with timerfd := Function.update w.timerfd n ts }

/-- The constructor of `timer_impl` from `set_events_once` on, and that of `timer`; the
object and its `timer_impl` are numbered alike. -/
def construct (w : World) (milliseconds : Int) (callback : Bool) (n : Nat)
    (refused : Option Nat) : World :=
  let (p, kernel) := TimerImpl.setEventsOnce ⟨n, milliseconds, callback, w.fresh, false⟩ w.fresh
    w.kernel ⟨true, false⟩ refused
  { w with
    kernel := kernel
    impls := Function.update w.impls w.fresh (some p)
    objects := Function.update w.objects w.fresh (some (some w.fresh))
    fresh := w.fresh + 1 }

/-- The constructor of `timer`.  An exception that leaves the constructor of `timer_impl`
does not run its destructor. -/
def timer (w : World) (milliseconds : Int) (callback : Bool) (refused : Option Nat) :
    Opened → Next
  | .failed e => .throw (w.setErrno e) []
  | .fd n =>
      let ts := Itimerspec.ofMilliseconds milliseconds
      if ts.Valid then
        .ret (((w.openFd n).settime n ts).construct milliseconds callback n refused)
          (.object w.fresh) []
      else .throw (((w.openFd n).settime n .zero).setErrno EINVAL) []

/-- The destructor of the `timer_impl` at `h`. -/
def delete (w : World) (h : Nat) : World :=
  match w.impls h with
  | some p => { w with kernel := p.cancel w.kernel, impls := Function.update w.impls h none }
  | none => w

/-- The destructor of a `timer`. -/
def destruct (w : World) (o : Nat) : Option World :=
  (w.objects o).map fun pimpl =>
    let w := { w with objects := Function.update w.objects o none }
    match pimpl with
    | some h => w.delete h
    | none => w

/-- The move constructor, which leaves `parent_` as it is. -/
def move (w : World) (other : Nat) : Option World :=
  (w.objects other).map fun pimpl =>
    { w with
      objects := Function.update (Function.update w.objects other (some none)) w.fresh (some pimpl)
      fresh := w.fresh + 1 }

/-- Other code opens a descriptor, or closes one of those it has. -/
def elsewhere (w : World) : Elsewhere → Option World
  | .opens n =>
      if w.kernel.isOpen n then none
      else some { w.openFd n with others := Function.update w.others n true }
  | .closes n =>
      if w.others n then
        some { w with
          kernel := w.kernel.close n
          others := Function.update w.others n false }
      else none

/-- The operations of the program. -/
def api (w : World) : Op → Answer → Option Next
  | .waitForInput, .go => some (.goto { w with run := true } .loop [])
  | .stop, .go => some (.ret { w with run := false } .void [])
  | .timer milliseconds callback, .created a refused =>
      if w.Opens a then some (w.timer milliseconds callback refused a) else none
  | .move other, .go => (w.move other).map fun w' => .ret w' (.object w.fresh) []
  | .cancel o, .go =>
      (w.owned o).map fun (h, p) =>
        .ret { w with kernel := p.cancel w.kernel } .void [.cancelled h]
  | .destroy o, .go => (w.destruct o).map fun w' => .ret w' .void []
  | .elsewhere e, .go => (w.elsewhere e).map fun w' => .ret w' .void []
  | .raise, .go => some (.throw w [])
  | _, _ => none

/-! ## The loop -/

/-- What `epoll_wait` may report about a descriptor: a timer that was set, with the
registered pointer. -/
def report (w : World) : Option Int → Option Ready
  | some fd => do
      let r ← w.kernel.epoll fd
      if r.events.epollin ∧ w.timerfd fd ≠ .zero then return .timer r.ptr r.events else none
  | none => some .other

/-- What was reported is not armed any more. -/
def oneShot (w : World) (fds : List Int) : World :=
  { w with
    kernel := { w.kernel with
      epoll := fun fd =>
        if fd ∈ fds then (w.kernel.epoll fd).map fun r => { r with events := ⟨false, false⟩ }
        else w.kernel.epoll fd } }

/-- `epoll_wait(epollfd, events, MAX_EVENTS, -1)`: at most 5 entries, one for a
descriptor. -/
def epollWait (w : World) (fds : List (Option Int)) : Option (World × List Ready) :=
  if fds.length ≤ 5 ∧ (fds.filterMap id).Nodup then
    (fds.mapM w.report).map fun ready => (w.oneShot (fds.filterMap id), ready)
  else none

/-- `data->handle_event(events[i].events)`. -/
def handleEvent (w : World) (h : Nat) (events : Events) (rest : List Ready) : Next :=
  match w.impls h with
  | none => .goto w .undefined [.dispatched h false]
  | some p =>
      if events.epollin ∧ p.callback then
        .callOut w (.batch rest) (.onTimeout p.parent) [.dispatched h true, .timeout h]
      else .goto w (.batch rest) [.dispatched h true]

/-- The code of the program's calls, stretch by stretch. -/
def code (w : World) : Frame → Answer → Option Next
  | .api op, a => w.api op a
  | .loop, .ready fds =>
      if w.run then (w.epollWait fds).map fun (w', ready) => .goto w' (.batch ready) [] else none
  | .loop, .waitFailed e => if w.run ∧ e ≠ 0 then some (.throw (w.setErrno e) []) else none
  | .loop, .go => if w.run then none else some (.ret w .void [])
  | .batch [], .go => some (.goto w .loop [])
  | .batch (.other :: rest), .go => some (.callOut w (.batch rest) .other [])
  | .batch (.timer h events :: rest), .go => some (w.handleEvent h events rest)
  | _, _ => none

end World

/-- The code, with what other threads do meanwhile. -/
def resume (w : World) (f : Frame) : Answer → Option Next
  | .elsewhere e => (w.elsewhere e).map fun w' => .goto w' f []
  | a => w.code f a

/-- Where an operation starts. -/
def enter (w : World) (op : Op) : World × Frame := (w, .api op)

/-- The context and its timers. -/
def object : Object World Op Frame CallOut Answer Result Note := ⟨enter, resume⟩

abbrev Configuration := Config World Op Frame CallOut Result Note

/-- A new context: nothing is open, and there are no timers. -/
def World.new : World :=
  ⟨⟨fun _ => false, fun _ => none, 0⟩, fun _ => .zero, fun _ => false, fun _ => none,
    fun _ => none, 0, false⟩

end Timers
end Linux
end AcppNetwork
