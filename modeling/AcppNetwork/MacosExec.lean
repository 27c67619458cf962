import AcppNetwork.Runs
import Mathlib

/-!
# `exec`, timers and the threads of the macOS backend

One `io_context` (`src/macos/socket_base.cpp`) and the threads of a program.  The thread
`main` calls `wait_for_input` and uses the timers; every thread, `main` included, may call
`exec` and `stop`.  `exec` pushes its function under `exec_mutex_` and then triggers the
`EVFILT_USER` event of the kqueue, and other threads run between the two.

Unlike the eventfd of the Linux backend the event is `EV_CLEAR`: `kevent` takes it back when
it reports it, and an entry of its array that is not handled is gone.  A timer is an
`EVFILT_TIMER` event that has the address of its `timer_impl` for an identifier and is
reported once.  Of the sockets only their callbacks are looked at, which may call anything
(`others` counts the events of theirs that are active).

Timers are numbered as they are made.  The events and the entries of the array carry the
number of the timer they were made for, which the code does not see: it takes the address to
be that of a `timer_impl`.  `pushed`, `executed`, `called`, `cancelled`, `triggers` and
`deliveries` only record what happened.
-/
namespace AcppNetwork
namespace Macos
namespace Exec

/-- A `timer_impl`: its number, and whether `cb_` is set. -/
structure TimerImpl where
  number : Nat
  cb : Bool
  deriving DecidableEq

/-- An `EVFILT_TIMER` event of the kqueue, with the number of the timer it is for. -/
inductive Knote where
  | armed (number : Nat)
  | expired (number : Nat)
  deriving DecidableEq

def Knote.number : Knote → Nat
  | armed n | expired n => n

/-- A call of the callback of a timer: which timer, which one the event was for, and whether
the timer had been cancelled. -/
structure Called where
  timer : Nat
  event : Nat
  late : Bool
  deriving DecidableEq

/-- An entry of the array filled by `kevent`. -/
inductive Entry where
  | user
  | timer (ident number : Nat)
  | other
  deriving DecidableEq

/-- Where an activation of `wait_for_input` stands. -/
inductive Phase (φ : Type) where
  /-- Before `run_ = true`. -/
  | entered
  /-- At `while (run_)`. -/
  | test
  /-- In `kevent`. -/
  | blocked
  /-- In the `for` loop, with the entries that are still to be handled. -/
  | batch (events : List Entry)
  /-- At `while (!tasks.empty())`. -/
  | tasks (tasks : List φ) (rest : List Entry)
  /-- In `tasks.front()()`, with the tasks behind it. -/
  | running (task : φ) (tasks : List φ) (rest : List Entry)
  /-- In the callback of a timer. -/
  | timer (number : Nat) (rest : List Entry)
  /-- In a callback of a socket. -/
  | handler (rest : List Entry)
  /-- The `timer_impl` of an entry is not there any more. -/
  | undefined (rest : List Entry)
  deriving DecidableEq

/-- The context: `run_`, `pending_callbacks_`, whether the `EVFILT_USER` event is active, the
threads that have pushed a function and not yet triggered it, the `timer_impl`s by address and
the `EVFILT_TIMER` events by identifier, the activations of `wait_for_input` (innermost
first) and the number of other events that are active.  Then what happened so far: the
functions pushed and executed, how many timers were made, the calls of their callbacks, and
those whose `cancel` or destructor has returned; and how often the `EVFILT_USER` event was
triggered and reported. -/
structure Context (τ φ : Type) where
  run : Bool
  pending : List φ
  triggered : Bool
  execs : τ → Bool
  timers : Nat → Option TimerImpl
  knotes : Nat → Option Knote
  loops : List (Phase φ)
  others : Nat
  pushed : List φ
  executed : List φ
  made : Nat
  called : List Called
  cancelled : List Nat
  triggers : Nat
  deliveries : Nat

/-- What the threads and the kernel do. -/
inductive Event (τ φ : Type) where
  /-- `exec`: the push. -/
  | push (t : τ) (f : φ)
  /-- `exec`: `NOTE_TRIGGER`. -/
  | trigger (t : τ)
  | stop
  | others (n : Nat)
  /-- The constructor of a timer at this address; `kevent` may refuse to add its event. -/
  | timer (ident : Nat) (cb added : Bool)
  | cancel (ident : Nat)
  | destroy (ident : Nat)
  /-- The time of a timer is up. -/
  | expire (ident : Nat)
  /-- `main` calls `wait_for_input`. -/
  | call
  /-- The loop's next statement. -/
  | code
  /-- `kevent` returns. -/
  | ready (events : List Entry)
  /-- `kevent` fails, and `wait_for_input` throws. -/
  | failed
  /-- The callback that runs returns. -/
  | back
  /-- The callback that runs throws; the exception leaves `wait_for_input`. -/
  | throw
  deriving DecidableEq

variable {τ φ : Type}

namespace Phase

/-- A callback of the program runs. -/
def callsOut : Phase φ → Bool
  | running _ _ _ | timer _ _ | handler _ => true
  | _ => false

/-- A function given to `exec` runs. -/
def isRunning : Phase φ → Bool
  | running _ _ _ => true
  | _ => false

/-- The functions of the swapped queue that are not called yet. -/
def inHand : Phase φ → List φ
  | tasks ts _ | running _ ts _ => ts
  | _ => []

/-- The entries of the array that are not handled yet. -/
def rest : Phase φ → List Entry
  | batch es => es
  | tasks _ es | running _ _ es | timer _ es | handler es | undefined es => es
  | _ => []

end Phase

namespace Context

/-- A new context. -/
def new : Context τ φ where
  run := false
  pending := []
  triggered := false
  execs _ := false
  timers _ := none
  knotes _ := none
  loops := []
  others := 0
  pushed := []
  executed := []
  made := 0
  called := []
  cancelled := []
  triggers := 0
  deliveries := 0

/-- The code of the program runs on the thread of the loop. -/
def mainCalls (s : Context τ φ) : Bool :=
  match s.loops with
  | [] => true
  | p :: _ => p.callsOut

/-- What `kevent(kq_, NULL, 0, events, 5, NULL)` may report: 1 to 5 entries, each for an event
that is active, and no event twice. -/
def Reports (s : Context τ φ) (events : List Entry) : Prop :=
  events ≠ [] ∧ events.length ≤ 5 ∧ events.count .other ≤ s.others ∧
    (events.filter (· ≠ .other)).Nodup ∧ (.user ∈ events → s.triggered = true) ∧
    ∀ e ∈ events, match e with
      | .timer ident number => s.knotes ident = some (.expired number)
      | _ => True

instance (s : Context τ φ) (events : List Entry) : Decidable (s.Reports events) := by
  unfold Reports
  have : ∀ e : Entry, Decidable (match e with
      | .timer ident number => s.knotes ident = some (.expired number)
      | _ => True) := by
    intro e
    rcases e with ⟨⟩ <;> infer_instance
  infer_instance

/-- The entry for the `EVFILT_TIMER` event `ident` is among these. -/
def Entry.has (events : List Entry) (ident : Nat) : Bool :=
  events.any fun | .timer i _ => i = ident | _ => false

/-- The events that were reported are not active any more; that of a timer is deleted. -/
def report (s : Context τ φ) (events : List Entry) (ls : List (Phase φ)) : Context τ φ :=
  { s with
    triggered := s.triggered && !events.contains .user
    knotes := fun ident => if Entry.has events ident then none else s.knotes ident
    loops := .batch events :: ls
    deliveries := s.deliveries + events.count .user }

/-- The constructor of `timer_impl`. -/
def timer (s : Context τ φ) (ident : Nat) (cb added : Bool) : Context τ φ :=
  { s with
    timers := Function.update s.timers ident (some ⟨s.made, cb⟩)
    knotes := if added then Function.update s.knotes ident (some (.armed s.made)) else s.knotes
    made := s.made + 1 }

/-- `timer_impl::cancel` of the timer `t` at `ident`. -/
def cancel (s : Context τ φ) (ident : Nat) (t : TimerImpl) : Context τ φ :=
  { s with
    knotes := Function.update s.knotes ident none
    cancelled := t.number :: s.cancelled }

/-- The callback of the timer `t` is called for the event of the timer `number`. -/
def callTimer (s : Context τ φ) (t : TimerImpl) (number : Nat) (rest : List Entry)
    (ls : List (Phase φ)) : Context τ φ :=
  { s with
    called := ⟨t.number, number, s.cancelled.contains t.number⟩ :: s.called
    loops := .timer t.number rest :: ls }

/-- `EVFILT_TIMER`: the callback of the timer at the address that the entry has. -/
def fire (s : Context τ φ) (ident number : Nat) (rest : List Entry) (ls : List (Phase φ)) :
    Context τ φ :=
  match s.timers ident with
  | some t => if t.cb then s.callTimer t number rest ls else { s with loops := .batch rest :: ls }
  | none => { s with loops := .undefined rest :: ls }

/-- The statement of the loop that comes next, up to the call of a callback. -/
def code (s : Context τ φ) : Option (Context τ φ) :=
  match s.loops with
  | .entered :: ls => some { s with run := true, loops := .test :: ls }
  | .test :: ls => some { s with loops := if s.run then .blocked :: ls else ls }
  | .batch [] :: ls => some { s with loops := .test :: ls }
  | .batch (.user :: rest) :: ls =>
      some { s with pending := [], loops := .tasks s.pending rest :: ls }
  | .batch (.timer ident number :: rest) :: ls => some (s.fire ident number rest ls)
  | .batch (.other :: rest) :: ls => some { s with loops := .handler rest :: ls }
  | .tasks [] rest :: ls => some { s with loops := .batch rest :: ls }
  | .tasks (f :: ts) rest :: ls =>
      some { s with executed := s.executed ++ [f], loops := .running f ts rest :: ls }
  | _ => none

end Context

variable [DecidableEq τ] (main : τ)

/-- One event. -/
def step (s : Context τ φ) : Event τ φ → Option (Context τ φ)
  | .push t f =>
      if s.execs t = false ∧ (t = main → s.mainCalls = true) then
        some { s with
          pending := s.pending ++ [f]
          execs := Function.update s.execs t true
          pushed := s.pushed ++ [f] }
      else none
  | .trigger t =>
      if s.execs t = true then
        some { s with
          triggered := true
          execs := Function.update s.execs t false
          triggers := s.triggers + 1 }
      else none
  | .stop => some { s with run := false }
  | .others n => some { s with others := n }
  | .timer ident cb added =>
      if s.execs main = false ∧ s.mainCalls = true ∧ s.timers ident = none then
        some (s.timer ident cb added)
      else none
  | .cancel ident =>
      if s.execs main = false ∧ s.mainCalls = true then
        (s.timers ident).map fun t => s.cancel ident t
      else none
  | .destroy ident =>
      if s.execs main = false ∧ s.mainCalls = true then
        (s.timers ident).map fun t =>
          { s.cancel ident t with timers := Function.update s.timers ident none }
      else none
  | .expire ident =>
      match s.knotes ident with
      | some (.armed n) =>
          some { s with knotes := Function.update s.knotes ident (some (.expired n)) }
      | _ => none
  | .call =>
      if s.execs main = false ∧ s.mainCalls = true then
        some { s with loops := .entered :: s.loops }
      else none
  | .code => s.code
  | .ready events =>
      match s.loops with
      | .blocked :: ls => if s.Reports events then some (s.report events ls) else none
      | _ => none
  | .failed =>
      match s.loops with
      | .blocked :: ls => some { s with loops := ls }
      | _ => none
  | .back =>
      if s.execs main = false then
        match s.loops with
        | .running _ ts rest :: ls => some { s with loops := .tasks ts rest :: ls }
        | .timer _ rest :: ls | .handler rest :: ls => some { s with loops := .batch rest :: ls }
        | _ => none
      else none
  | .throw =>
      if s.execs main = false then
        match s.loops with
        | p :: ls => if p.callsOut then some { s with loops := ls } else none
        | [] => none
      else none

/-- The kinds of steps. -/
inductive Step : Context τ φ → Event τ φ → Context τ φ → Prop where
  | push {s t f} (hfree : s.execs t = false) (hmain : t = main → s.mainCalls = true) :
      Step s (.push t f)
        { s with
          pending := s.pending ++ [f]
          execs := Function.update s.execs t true
          pushed := s.pushed ++ [f] }
  | trigger {s t} (ht : s.execs t = true) :
      Step s (.trigger t)
        { s with
          triggered := true
          execs := Function.update s.execs t false
          triggers := s.triggers + 1 }
  | stop {s} : Step s .stop { s with run := false }
  | others {s n} : Step s (.others n) { s with others := n }
  | timer {s ident cb added} (hfree : s.execs main = false) (hmain : s.mainCalls = true)
      (hnone : s.timers ident = none) :
      Step s (.timer ident cb added) (s.timer ident cb added)
  | cancel {s ident t} (hfree : s.execs main = false) (hmain : s.mainCalls = true)
      (ht : s.timers ident = some t) : Step s (.cancel ident) (s.cancel ident t)
  | destroy {s ident t} (hfree : s.execs main = false) (hmain : s.mainCalls = true)
      (ht : s.timers ident = some t) :
      Step s (.destroy ident)
        { s.cancel ident t with timers := Function.update s.timers ident none }
  | expire {s ident n} (hk : s.knotes ident = some (.armed n)) :
      Step s (.expire ident)
        { s with knotes := Function.update s.knotes ident (some (.expired n)) }
  | call {s} (hfree : s.execs main = false) (hmain : s.mainCalls = true) :
      Step s .call { s with loops := .entered :: s.loops }
  | enter {s ls} (hl : s.loops = .entered :: ls) :
      Step s .code { s with run := true, loops := .test :: ls }
  | test {s ls} (hl : s.loops = .test :: ls) (hrun : s.run = true) :
      Step s .code { s with loops := .blocked :: ls }
  | leave {s ls} (hl : s.loops = .test :: ls) (hrun : s.run = false) :
      Step s .code { s with loops := ls }
  | batchEnd {s ls} (hl : s.loops = .batch [] :: ls) :
      Step s .code { s with loops := .test :: ls }
  | swap {s rest ls} (hl : s.loops = .batch (.user :: rest) :: ls) :
      Step s .code { s with pending := [], loops := .tasks s.pending rest :: ls }
  | fire {s ident n t rest ls} (hl : s.loops = .batch (.timer ident n :: rest) :: ls)
      (ht : s.timers ident = some t) (hcb : t.cb = true) :
      Step s .code (s.callTimer t n rest ls)
  | mute {s ident n t rest ls} (hl : s.loops = .batch (.timer ident n :: rest) :: ls)
      (ht : s.timers ident = some t) (hcb : t.cb = false) :
      Step s .code { s with loops := .batch rest :: ls }
  | dangling {s ident n rest ls} (hl : s.loops = .batch (.timer ident n :: rest) :: ls)
      (ht : s.timers ident = none) : Step s .code { s with loops := .undefined rest :: ls }
  | handle {s rest ls} (hl : s.loops = .batch (.other :: rest) :: ls) :
      Step s .code { s with loops := .handler rest :: ls }
  | tasksEnd {s rest ls} (hl : s.loops = .tasks [] rest :: ls) :
      Step s .code { s with loops := .batch rest :: ls }
  | task {s f ts rest ls} (hl : s.loops = .tasks (f :: ts) rest :: ls) :
      Step s .code { s with executed := s.executed ++ [f], loops := .running f ts rest :: ls }
  | ready {s events ls} (hl : s.loops = .blocked :: ls) (hready : s.Reports events) :
      Step s (.ready events) (s.report events ls)
  | failed {s ls} (hl : s.loops = .blocked :: ls) : Step s .failed { s with loops := ls }
  | taskBack {s f ts rest ls} (hfree : s.execs main = false)
      (hl : s.loops = .running f ts rest :: ls) :
      Step s .back { s with loops := .tasks ts rest :: ls }
  | timerBack {s n rest ls} (hfree : s.execs main = false) (hl : s.loops = .timer n rest :: ls) :
      Step s .back { s with loops := .batch rest :: ls }
  | handlerBack {s rest ls} (hfree : s.execs main = false) (hl : s.loops = .handler rest :: ls) :
      Step s .back { s with loops := .batch rest :: ls }
  | throw {s p ls} (hfree : s.execs main = false) (hl : s.loops = p :: ls)
      (hp : p.callsOut = true) : Step s .throw { s with loops := ls }

variable {main} {s s' : Context τ φ} {e : Event τ φ}

/-- What the loop does with the entry of a timer. -/
theorem step_of_fire {ident n : Nat} {rest : List Entry} {ls : List (Phase φ)}
    (hl : s.loops = .batch (.timer ident n :: rest) :: ls) :
    Step main s .code (s.fire ident n rest ls) := by
  unfold Context.fire
  cases ht : s.timers ident with
  | none => exact .dangling hl ht
  | some t =>
    cases hcb : t.cb with
    | true => simpa [hcb] using Step.fire hl ht hcb
    | false => simpa [hcb] using Step.mute hl ht hcb

theorem step_of_code (h : s.code = some s') : Step main s .code s' := by
  unfold Context.code at h
  split at h
  case h_1 hl => cases h; exact .enter hl
  case h_2 ls hl =>
    by_cases hrun : s.run = true
    · rw [if_pos hrun] at h
      cases h
      exact .test hl hrun
    · rw [if_neg hrun] at h
      cases h
      exact .leave hl (Bool.not_eq_true _ ▸ hrun)
  case h_3 hl => cases h; exact .batchEnd hl
  case h_4 hl => cases h; exact .swap hl
  case h_5 hl => cases h; exact step_of_fire hl
  case h_6 hl => cases h; exact .handle hl
  case h_7 hl => cases h; exact .tasksEnd hl
  case h_8 hl => cases h; exact .task hl
  case h_9 => cases h

/-- **The step function takes no other steps.** -/
theorem Step.of_step (h : step main s e = some s') : Step main s e s' := by
  cases e with
  | push t f =>
    obtain ⟨⟨hfree, hmain⟩, heq⟩ := Option.ite_none_right_eq_some.mp h
    cases heq
    exact .push hfree hmain
  | trigger t =>
    obtain ⟨ht, heq⟩ := Option.ite_none_right_eq_some.mp h
    cases heq
    exact .trigger ht
  | stop => cases h; exact .stop
  | others n => cases h; exact .others
  | timer ident cb added =>
    obtain ⟨⟨hfree, hmain, hnone⟩, heq⟩ := Option.ite_none_right_eq_some.mp h
    cases heq
    exact .timer hfree hmain hnone
  | cancel ident =>
    obtain ⟨⟨hfree, hmain⟩, hcancel⟩ := Option.ite_none_right_eq_some.mp h
    obtain ⟨t, ht, rfl⟩ := Option.map_eq_some_iff.mp hcancel
    exact .cancel hfree hmain ht
  | destroy ident =>
    obtain ⟨⟨hfree, hmain⟩, hdestroy⟩ := Option.ite_none_right_eq_some.mp h
    obtain ⟨t, ht, rfl⟩ := Option.map_eq_some_iff.mp hdestroy
    exact .destroy hfree hmain ht
  | expire ident =>
    simp only [step] at h
    split at h
    · cases h
      exact .expire ‹_›
    · cases h
  | call =>
    obtain ⟨⟨hfree, hmain⟩, heq⟩ := Option.ite_none_right_eq_some.mp h
    cases heq
    exact .call hfree hmain
  | code => exact step_of_code h
  | ready events =>
    simp only [step] at h
    split at h
    · obtain ⟨hready, heq⟩ := Option.ite_none_right_eq_some.mp h
      cases heq
      exact .ready ‹_› hready
    · cases h
  | failed =>
    simp only [step] at h
    split at h
    · cases h
      exact .failed ‹_›
    · cases h
  | back =>
    obtain ⟨hfree, hback⟩ := Option.ite_none_right_eq_some.mp h
    split at hback
    · cases hback
      exact .taskBack hfree ‹_›
    · cases hback
      exact .timerBack hfree ‹_›
    · cases hback
      exact .handlerBack hfree ‹_›
    · cases hback
  | throw =>
    obtain ⟨hfree, hthrow⟩ := Option.ite_none_right_eq_some.mp h
    split at hthrow
    · obtain ⟨hp, heq⟩ := Option.ite_none_right_eq_some.mp hthrow
      cases heq
      exact .throw hfree ‹_› hp
    · cases hthrow

end Exec
end Macos
end AcppNetwork
