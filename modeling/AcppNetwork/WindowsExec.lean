import AcppNetwork.Refinement
import Mathlib

/-!
# `exec` and timers on Windows

One `io_context` (`src/windows/socket_base.cpp`) and the threads of a program.  `exec` posts
its function to the completion port in an `execution_operation` of its own; the loop dequeues
one packet a turn, so it is an executor of what was posted, whatever a function does
(`port_executes_in_order`).

A timer is run by a timer queue: when it is due, a thread of the pool calls `on_timer` with the
address of the `timer_impl`, which is read there for `io_`, and posts a function that reads it
again, for `cb_` and `parent_`.  `cancel` deletes the timer of the queue and does not wait for
an `on_timer` under way; there is no destructor that would call it.  `addresses_sound_iff` says when
none of these addresses is stale.  Timers are made, cancelled and destroyed on the thread of
the loop, and cancelled once at most, if they were created.

Timers are numbered as they are made; the code does not see the numbers.  Completions of the
operations of sockets go through the same queue, and of them only that a callback may be
called.  `posted`, `executed`, `called` and `cancelled` only record what happened.
-/
namespace AcppNetwork
namespace Windows
namespace Exec

/-- A `timer_impl`: its number, whether `cb_` is set, and whether `handle_` is that of a timer
of the timer queue. -/
structure TimerImpl where
  number : Nat
  cb : Bool
  handle : Bool
  deriving DecidableEq

/-- The address of a `timer_impl`, and the timer that it was the address of. -/
structure Pointer where
  address : Nat
  number : Nat
  deriving DecidableEq

/-- A call of the callback of a timer: which timer, which one was due, and whether the timer
had been cancelled. -/
structure Called where
  timer : Nat
  due : Nat
  late : Bool
  deriving DecidableEq

/-- What an `execution_operation` has to run: a function of the program, or that of
`on_timer`. -/
inductive Task (φ : Type) where
  | program (f : φ)
  | timer (p : Pointer)
  deriving DecidableEq

/-- A completion packet: of `exec`, or of an operation of a socket. -/
inductive Packet (φ : Type) where
  | exec (t : Task φ)
  | io
  deriving DecidableEq

/-- Where an activation of `wait_for_input` stands; `key` says that `completionKey` is not 0. -/
inductive Phase (φ : Type) where
  /-- Before `run = true`. -/
  | entered
  /-- At `while (pimpl_->run)`. -/
  | test (key : Bool)
  /-- In `GetQueuedCompletionStatus`. -/
  | blocked (key : Bool)
  /-- In `exec_op->fun()`. -/
  | running (f : φ)
  /-- In the callback of a timer. -/
  | timer (number : Nat)
  /-- In a callback of a socket. -/
  | handler
  /-- The key of the packet before was taken for that of one now. -/
  | undefined
  deriving DecidableEq

/-- The context: `run`, the queue of the port, the `timer_impl`s by address, the timers of the
timer queue that are not due yet, the calls of `on_timer` that have not posted yet, the
activations of `wait_for_input` (innermost first), and whether a thread read a `timer_impl` where
there is none.  Then what happened so far: what was posted and executed, how many timers
were made, the calls of their callbacks, and those that were cancelled or destroyed. -/
structure Context (φ : Type) where
  run : Bool
  queue : List (Packet φ)
  timers : Nat → Option TimerImpl
  armed : List Pointer
  firing : List Pointer
  loops : List (Phase φ)
  stale : Bool
  posted : List (Task φ)
  executed : List (Task φ)
  made : Nat
  called : List Called
  cancelled : List Nat

/-- What the threads and the kernel do. -/
inductive Event (φ : Type) where
  /-- `exec`, on whatever thread; `PostQueuedCompletionStatus` may fail. -/
  | exec (f : φ) (posted : Bool)
  | stop
  /-- An operation of a socket completes. -/
  | completes
  /-- The constructor of a timer at this address; `CreateTimerQueueTimer` may fail. -/
  | timer (address : Nat) (cb created : Bool)
  | cancel (address : Nat)
  | destroy (address : Nat)
  /-- A timer is due: a thread of the pool enters `on_timer`. -/
  | due (p : Pointer)
  /-- That thread calls `exec`. -/
  | onTimer (p : Pointer) (posted : Bool)
  /-- The thread of the loop calls `wait_for_input`. -/
  | call
  /-- The loop's next statement. -/
  | code
  /-- `GetQueuedCompletionStatus` fails and dequeues nothing. -/
  | failed (timeout : Bool)
  /-- The callback that runs returns. -/
  | back
  /-- The callback that runs throws; the exception leaves `wait_for_input`. -/
  | throw
  deriving DecidableEq

variable {φ : Type}

/-- A callback of the program runs. -/
def Phase.callsOut : Phase φ → Bool
  | running _ | timer _ | handler => true
  | _ => false

/-- What a packet of `exec` has to run. -/
def Packet.task? : Packet φ → Option (Task φ)
  | exec t => some t
  | io => none

/-- The timer a function of `on_timer` is for. -/
def Task.pointer? : Task φ → Option Pointer
  | program _ => none
  | timer p => some p

namespace Context

/-- A new context. -/
def new : Context φ where
  run := false
  queue := []
  timers _ := none
  armed := []
  firing := []
  loops := []
  stale := false
  posted := []
  executed := []
  made := 0
  called := []
  cancelled := []

/-- The code of the program runs on the thread of the loop. -/
def mainCalls (s : Context φ) : Bool :=
  match s.loops with
  | [] => true
  | p :: _ => p.callsOut

/-- `io_context_pimpl::exec`: an operation that is not posted is deleted again. -/
def exec (s : Context φ) (t : Task φ) (posted : Bool) : Context φ :=
  if posted then { s with queue := s.queue ++ [.exec t], posted := s.posted ++ [t] } else s

/-- The constructor of `timer_impl`. -/
def timer (s : Context φ) (address : Nat) (cb created : Bool) : Context φ :=
  { s with
    timers := Function.update s.timers address (some ⟨s.made, cb, created⟩)
    armed := if created then s.armed ++ [⟨address, s.made⟩] else s.armed
    made := s.made + 1 }

/-- `timer_impl::cancel` of the timer `t` at `address`.  What it does with a handle that is not
one of the timer queue, or not any more, is not modelled. -/
def cancel (s : Context φ) (address : Nat) (t : TimerImpl) : Option (Context φ) :=
  if t.handle then
    some { s with
      timers := Function.update s.timers address (some { t with handle := false })
      armed := s.armed.erase ⟨address, t.number⟩
      cancelled := t.number :: s.cancelled }
  else none

/-- The destructor of the timer `t` at `address`. -/
def destroy (s : Context φ) (address : Nat) (t : TimerImpl) : Context φ :=
  { s with
    timers := Function.update s.timers address none
    cancelled := t.number :: s.cancelled }

/-- `on_timer`: `timer->io_->exec`. -/
def onTimer (s : Context φ) (p : Pointer) (posted : Bool) : Context φ :=
  match s.timers p.address with
  | some _ => exec { s with firing := s.firing.erase p } (Task.timer p) posted
  | none => { s with firing := s.firing.erase p, stale := true }

/-- The callback of the timer `t` is called for one that was due. -/
def callTimer (s : Context φ) (t : TimerImpl) (p : Pointer) (ls : List (Phase φ)) : Context φ :=
  { s with
    called := ⟨t.number, p.number, s.cancelled.contains t.number⟩ :: s.called
    loops := .timer t.number :: ls }

/-- The function that `on_timer` posts. -/
def fire (s : Context φ) (p : Pointer) (ls : List (Phase φ)) : Context φ :=
  match s.timers p.address with
  | some t => if t.cb then s.callTimer t p ls else { s with loops := .test false :: ls }
  | none => { s with stale := true, loops := .test false :: ls }

/-- What the loop does with a packet. -/
def dequeue (s : Context φ) (ls : List (Phase φ)) : Packet φ → Context φ
  | .exec (.program f) =>
      { s with executed := s.executed ++ [.program f], loops := .running f :: ls }
  | .exec (.timer p) => { s with executed := s.executed ++ [Task.timer p] }.fire p ls
  | .io => { s with loops := .handler :: ls }

/-- The statement of the loop that comes next, up to the call of a callback. -/
def code (s : Context φ) : Option (Context φ) :=
  match s.loops with
  | .entered :: ls => some { s with run := true, loops := .test false :: ls }
  | .test key :: ls => some { s with loops := if s.run then .blocked key :: ls else ls }
  | .blocked _ :: ls =>
      match s.queue with
      | packet :: rest => some ({ s with queue := rest }.dequeue ls packet)
      | [] => none
  | _ => none

/-- `GetQueuedCompletionStatus` fails: the loop goes on, is left, or takes the key of the
packet before for that of one now. -/
def waitFailed (s : Context φ) (key timeout : Bool) (ls : List (Phase φ)) : Context φ :=
  if timeout then { s with loops := .test key :: ls }
  else if key then { s with loops := .undefined :: ls }
  else { s with loops := ls }

end Context

/-- One event; there are none after a thread read a `timer_impl` where there is none. -/
def step (s : Context φ) (e : Event φ) : Option (Context φ) :=
  if s.stale then none
  else match e with
  | .exec f posted => some (s.exec (.program f) posted)
  | .stop => some { s with run := false }
  | .completes => some { s with queue := s.queue ++ [.io] }
  | .timer address cb created =>
      if s.mainCalls ∧ s.timers address = none then some (s.timer address cb created) else none
  | .cancel address =>
      if s.mainCalls then (s.timers address).bind fun t => s.cancel address t else none
  | .destroy address =>
      if s.mainCalls then (s.timers address).map fun t => s.destroy address t else none
  | .due p =>
      if p ∈ s.armed then
        some { s with armed := s.armed.erase p, firing := s.firing ++ [p] }
      else none
  | .onTimer p posted => if p ∈ s.firing then some (s.onTimer p posted) else none
  | .call => if s.mainCalls then some { s with loops := .entered :: s.loops } else none
  | .code => s.code
  | .failed timeout =>
      match s.loops with
      | .blocked key :: ls => some (s.waitFailed key timeout ls)
      | _ => none
  | .back =>
      match s.loops with
      | .running _ :: ls | .timer _ :: ls => some { s with loops := .test false :: ls }
      | .handler :: ls => some { s with loops := .test true :: ls }
      | _ => none
  | .throw =>
      match s.loops with
      | p :: ls => if p.callsOut then some { s with loops := ls } else none
      | [] => none

/-- The kinds of steps. -/
inductive Step : Context φ → Event φ → Context φ → Prop where
  | exec {s f} : Step s (.exec f true) (s.exec (.program f) true)
  | refused {s f} : Step s (.exec f false) s
  | stop {s} : Step s .stop { s with run := false }
  | completes {s} : Step s .completes { s with queue := s.queue ++ [.io] }
  | timer {s address cb created} (hmain : s.mainCalls = true) (hnone : s.timers address = none) :
      Step s (.timer address cb created) (s.timer address cb created)
  | cancel {s address t} (hmain : s.mainCalls = true) (ht : s.timers address = some t)
      (hhandle : t.handle = true) :
      Step s (.cancel address)
        { s with
          timers := Function.update s.timers address (some { t with handle := false })
          armed := s.armed.erase ⟨address, t.number⟩
          cancelled := t.number :: s.cancelled }
  | destroy {s address t} (hmain : s.mainCalls = true) (ht : s.timers address = some t) :
      Step s (.destroy address) (s.destroy address t)
  | due {s p} (hp : p ∈ s.armed) :
      Step s (.due p) { s with armed := s.armed.erase p, firing := s.firing ++ [p] }
  | onTimer {s p t} (hp : p ∈ s.firing) (ht : s.timers p.address = some t) :
      Step s (.onTimer p true)
        (Context.exec { s with firing := s.firing.erase p } (Task.timer p) true)
  | onTimerRefused {s p t} (hp : p ∈ s.firing) (ht : s.timers p.address = some t) :
      Step s (.onTimer p false) { s with firing := s.firing.erase p }
  | onTimerStale {s p posted} (hp : p ∈ s.firing) (ht : s.timers p.address = none) :
      Step s (.onTimer p posted) { s with firing := s.firing.erase p, stale := true }
  | call {s} (hmain : s.mainCalls = true) : Step s .call { s with loops := .entered :: s.loops }
  | enter {s ls} (hl : s.loops = .entered :: ls) :
      Step s .code { s with run := true, loops := .test false :: ls }
  | test {s key ls} (hl : s.loops = .test key :: ls) (hrun : s.run = true) :
      Step s .code { s with loops := .blocked key :: ls }
  | leave {s key ls} (hl : s.loops = .test key :: ls) (hrun : s.run = false) :
      Step s .code { s with loops := ls }
  | task {s key ls f rest} (hl : s.loops = .blocked key :: ls)
      (hq : s.queue = .exec (.program f) :: rest) :
      Step s .code
        { s with
          queue := rest, executed := s.executed ++ [.program f], loops := .running f :: ls }
  | fire {s key ls p t rest} (hl : s.loops = .blocked key :: ls)
      (hq : s.queue = .exec (.timer p) :: rest) (ht : s.timers p.address = some t)
      (hcb : t.cb = true) :
      Step s .code
        ({ s with queue := rest, executed := s.executed ++ [Task.timer p] }.callTimer t p ls)
  | mute {s key ls p t rest} (hl : s.loops = .blocked key :: ls)
      (hq : s.queue = .exec (.timer p) :: rest) (ht : s.timers p.address = some t)
      (hcb : t.cb = false) :
      Step s .code
        { s with
          queue := rest, executed := s.executed ++ [.timer p], loops := .test false :: ls }
  | stale {s key ls p rest} (hl : s.loops = .blocked key :: ls)
      (hq : s.queue = .exec (.timer p) :: rest) (ht : s.timers p.address = none) :
      Step s .code
        { s with
          queue := rest, executed := s.executed ++ [.timer p], stale := true
          loops := .test false :: ls }
  | io {s key ls rest} (hl : s.loops = .blocked key :: ls) (hq : s.queue = .io :: rest) :
      Step s .code { s with queue := rest, loops := .handler :: ls }
  | timeout {s key ls} (hl : s.loops = .blocked key :: ls) :
      Step s (.failed true) { s with loops := .test key :: ls }
  | shutdown {s ls} (hl : s.loops = .blocked false :: ls) :
      Step s (.failed false) { s with loops := ls }
  | staleKey {s ls} (hl : s.loops = .blocked true :: ls) :
      Step s (.failed false) { s with loops := .undefined :: ls }
  | taskBack {s f ls} (hl : s.loops = .running f :: ls) :
      Step s .back { s with loops := .test false :: ls }
  | timerBack {s n ls} (hl : s.loops = .timer n :: ls) :
      Step s .back { s with loops := .test false :: ls }
  | handlerBack {s ls} (hl : s.loops = .handler :: ls) :
      Step s .back { s with loops := .test true :: ls }
  | throw {s p ls} (hl : s.loops = p :: ls) (hp : p.callsOut = true) :
      Step s .throw { s with loops := ls }

variable {s s' : Context φ} {e : Event φ}

theorem step_of_code (h : s.code = some s') : Step s .code s' := by
  unfold Context.code at h
  split at h
  case h_1 hl => cases h; exact .enter hl
  case h_2 key ls hl =>
    by_cases hrun : s.run = true
    · rw [if_pos hrun] at h
      cases h
      exact .test hl hrun
    · rw [if_neg hrun] at h
      cases h
      exact .leave hl (Bool.not_eq_true _ ▸ hrun)
  case h_3 key ls hl =>
    split at h
    case h_1 packet rest hq =>
      cases h
      cases packet with
      | exec t =>
        cases t with
        | program f => exact .task hl hq
        | timer p =>
          simp only [Context.dequeue, Context.fire]
          cases ht : s.timers p.address with
          | none => exact .stale hl hq ht
          | some t =>
            cases hcb : t.cb with
            | true => simpa [hcb] using Step.fire hl hq ht hcb
            | false => simpa [hcb] using Step.mute hl hq ht hcb
      | io => exact .io hl hq
    case h_2 => cases h
  case h_4 => cases h

/-- **The step function takes no other steps.** -/
theorem Step.of_step (h : step s e = some s') : Step s e s' := by
  obtain ⟨-, h⟩ := Option.ite_none_left_eq_some.mp h
  cases e with
  | exec f posted =>
    cases h
    cases posted with
    | true => exact .exec
    | false => exact .refused
  | stop => cases h; exact .stop
  | completes => cases h; exact .completes
  | timer address cb created =>
    obtain ⟨⟨hmain, hnone⟩, heq⟩ := Option.ite_none_right_eq_some.mp h
    cases heq
    exact .timer hmain hnone
  | cancel address =>
    obtain ⟨hmain, hcancel⟩ := Option.ite_none_right_eq_some.mp h
    obtain ⟨t, ht, hcancel⟩ := Option.bind_eq_some_iff.mp hcancel
    obtain ⟨hhandle, heq⟩ := Option.ite_none_right_eq_some.mp hcancel
    cases heq
    exact .cancel hmain ht hhandle
  | destroy address =>
    obtain ⟨hmain, hdestroy⟩ := Option.ite_none_right_eq_some.mp h
    obtain ⟨t, ht, rfl⟩ := Option.map_eq_some_iff.mp hdestroy
    exact .destroy hmain ht
  | due p =>
    obtain ⟨hp, heq⟩ := Option.ite_none_right_eq_some.mp h
    cases heq
    exact .due hp
  | onTimer p posted =>
    obtain ⟨hp, heq⟩ := Option.ite_none_right_eq_some.mp h
    cases heq
    unfold Context.onTimer
    cases ht : s.timers p.address with
    | none => exact .onTimerStale hp ht
    | some t =>
      cases posted with
      | true => exact .onTimer hp ht
      | false => exact .onTimerRefused hp ht
  | call =>
    obtain ⟨hmain, heq⟩ := Option.ite_none_right_eq_some.mp h
    cases heq
    exact .call hmain
  | code => exact step_of_code h
  | failed timeout =>
    dsimp only at h
    split at h
    · cases h
      rename_i key ls hl
      cases timeout with
      | true => exact .timeout hl
      | false =>
        cases key with
        | true => exact .staleKey hl
        | false => exact .shutdown hl
    · cases h
  | back =>
    dsimp only at h
    split at h
    · cases h
      exact .taskBack ‹_›
    · cases h
      exact .timerBack ‹_›
    · cases h
      exact .handlerBack ‹_›
    · cases h
  | throw =>
    dsimp only at h
    split at h
    · obtain ⟨hp, heq⟩ := Option.ite_none_right_eq_some.mp h
      cases heq
      exact .throw ‹_› hp
    · cases h

end Exec
end Windows
end AcppNetwork
