import AcppNetwork.Runs
import Mathlib

/-!
# `exec` and the threads of the Linux backend

One `io_context` and the threads of a program.  The thread `main` calls
`wait_for_input`; every thread, `main` included, may call `exec` and `stop`, and the
calls interleave: `exec` pushes its function under `exec_mutex_`, then counts up
`cont`, then writes the count to the eventfd, and other threads run between any two
of these.  The program has this one context, so `cont`, which is static, counts its
calls.

The loop is followed statement by statement: `run = true`, the test of `while (run)`,
the entry of `epoll_wait` and its return, the entries of its array.  Of the handlers
only that of `exec` is looked into; another one is a callback of the program, which
may call `exec`, `stop` and `wait_for_input`.  The other descriptors are ready or not
as they like (`others` counts those that are).

`pushed`, `executed` and `stopped` only record what happened.
-/
namespace AcppNetwork
namespace Linux
namespace Exec

/-- A thread inside `exec`: before `++cont`, or before `write`, with the value to write. -/
inductive Trigger where
  | pushed
  | counted (counter : Nat)
  deriving DecidableEq

/-- An entry of the array filled by `epoll_wait`: the eventfd, or another descriptor. -/
inductive Entry where
  | exec
  | other
  deriving DecidableEq

/-- Where an activation of `wait_for_input` stands. -/
inductive Phase (φ : Type) where
  /-- Before `run = true`. -/
  | entered
  /-- At `while (run)`. -/
  | test
  /-- Before `epoll_wait`. -/
  | wait
  /-- In `epoll_wait`. -/
  | blocked
  /-- In the `for` loop, with the entries that are still to be handled. -/
  | batch (events : List Entry)
  /-- In `exec_event_handler::handle_event`, at `while (!callbacks.empty())`. -/
  | callbacks (callbacks : List φ) (rest : List Entry)
  /-- In `cb()`. -/
  | running (cb : φ) (callbacks : List φ) (rest : List Entry)
  /-- In a callback of another handler. -/
  | handler (rest : List Entry)
  deriving DecidableEq

/-- The context: `run`, `pending_callbacks_`, `cont`, the eventfd's counter, the threads
inside `exec`, the activations of `wait_for_input` (innermost first) and the number of
other descriptors that are ready.  Then the functions pushed and those executed so far,
and whether `stop` was called after the last call of `wait_for_input`. -/
structure Context (τ φ : Type) where
  run : Bool
  pending : List φ
  cont : Nat
  counter : Nat
  execs : τ → Option Trigger
  loops : List (Phase φ)
  others : Nat
  pushed : List φ
  executed : List φ
  stopped : Bool

/-- What the threads and the kernel do. -/
inductive Event (τ φ : Type) where
  /-- `exec`: the push. -/
  | push (t : τ) (f : φ)
  /-- `exec`: `++cont`. -/
  | count (t : τ)
  /-- `exec`: the `write`, with which it ends, or throws. -/
  | write (t : τ)
  | stop
  | others (n : Nat)
  /-- `main` calls `wait_for_input`. -/
  | call
  /-- The loop's next statement. -/
  | code
  /-- `epoll_wait` returns. -/
  | ready (events : List Entry)
  /-- `epoll_wait` fails. -/
  | failed
  /-- The callback that runs returns. -/
  | back
  /-- The callback that runs throws; the exception leaves `wait_for_input`. -/
  | throw
  deriving DecidableEq

variable {τ φ : Type}

/-- A nonblocking `write` to an eventfd: the counter stays below 2^64 - 1. -/
def eventfdWrite (counter value : Nat) : Option Nat :=
  if counter + value ≤ 2 ^ 64 - 2 then some (counter + value) else none

/-- A write never makes the counter smaller. -/
theorem le_eventfdWrite (counter value : Nat) :
    counter ≤ (eventfdWrite counter value).getD counter := by
  unfold eventfdWrite
  split
  · exact Nat.le_add_right ..
  · exact Nat.le_refl _

namespace Phase

/-- A callback of the program runs. -/
def callsOut : Phase φ → Bool
  | running _ _ _ | handler _ => true
  | _ => false

/-- `handle_event` runs, of whatever handler. -/
def handles : Phase φ → Bool
  | callbacks _ _ | running _ _ _ | handler _ => true
  | _ => false

/-- The functions of the swapped queue that are not called yet. -/
def inHand : Phase φ → List φ
  | callbacks cs _ | running _ cs _ => cs
  | _ => []

end Phase

namespace Context

/-- A new context. -/
def new : Context τ φ where
  run := false
  pending := []
  cont := 0
  counter := 0
  execs _ := none
  loops := []
  others := 0
  pushed := []
  executed := []
  stopped := false

/-- The code of the program runs on the thread of the loop. -/
def mainCalls (s : Context τ φ) : Bool :=
  match s.loops with
  | [] => true
  | p :: _ => p.callsOut

/-- A descriptor is ready. -/
def Ready (s : Context τ φ) : Prop := 0 < s.counter ∨ 0 < s.others

instance (s : Context τ φ) : Decidable s.Ready := inferInstanceAs (Decidable (_ ∨ _))

/-- What `epoll_wait(epollfd, events, MAX_EVENTS, -1)` may report: 1 to 5 entries, each
for a descriptor that is ready. -/
def Reports (s : Context τ φ) (events : List Entry) : Prop :=
  events ≠ [] ∧ events.length ≤ 5 ∧ events.count .exec ≤ (if 0 < s.counter then 1 else 0) ∧
    events.count .other ≤ s.others

instance (s : Context τ φ) (events : List Entry) : Decidable (s.Reports events) :=
  inferInstanceAs (Decidable (_ ∧ _ ∧ _ ∧ _))

/-- The statement of the loop that comes next, up to the call of a callback. -/
def code (s : Context τ φ) : Option (Context τ φ) :=
  match s.loops with
  | .entered :: ls => some { s with run := true, loops := .test :: ls }
  | .test :: ls => some { s with loops := if s.run then .wait :: ls else ls }
  | .wait :: ls => some { s with loops := .blocked :: ls }
  | .batch [] :: ls => some { s with loops := .test :: ls }
  | .batch (.exec :: rest) :: ls =>
      some { s with pending := [], loops := .callbacks s.pending rest :: ls }
  | .batch (.other :: rest) :: ls => some { s with loops := .handler rest :: ls }
  | .callbacks [] rest :: ls => some { s with loops := .batch rest :: ls }
  | .callbacks (f :: cs) rest :: ls =>
      some { s with executed := s.executed ++ [f], loops := .running f cs rest :: ls }
  | _ => none

end Context

variable [DecidableEq τ] (main : τ)

/-- One event. -/
def step (s : Context τ φ) : Event τ φ → Option (Context τ φ)
  | .push t f =>
      if s.execs t = none ∧ (t = main → s.mainCalls = true) then
        some { s with
          pending := s.pending ++ [f]
          execs := Function.update s.execs t (some .pushed)
          pushed := s.pushed ++ [f] }
      else none
  | .count t =>
      if s.execs t = some .pushed then
        let counter := (s.cont + 1) % 2 ^ 64
        some { s with
          cont := counter
          execs := Function.update s.execs t (some (.counted counter)) }
      else none
  | .write t =>
      match s.execs t with
      | some (.counted counter) =>
          some { s with
            counter := (eventfdWrite s.counter counter).getD s.counter
            execs := Function.update s.execs t none }
      | _ => none
  | .stop => some { s with run := false, stopped := true }
  | .others n => some { s with others := n }
  | .call =>
      if s.execs main = none ∧ s.mainCalls = true then
        some { s with loops := .entered :: s.loops, stopped := false }
      else none
  | .code => s.code
  | .ready events =>
      match s.loops with
      | .blocked :: ls =>
          if s.Reports events then some { s with loops := .batch events :: ls } else none
      | _ => none
  | .failed =>
      match s.loops with
      | .blocked :: ls => some { s with loops := ls }
      | _ => none
  | .back =>
      if s.execs main = none then
        match s.loops with
        | .running _ cs rest :: ls => some { s with loops := .callbacks cs rest :: ls }
        | .handler rest :: ls => some { s with loops := .batch rest :: ls }
        | _ => none
      else none
  | .throw =>
      if s.execs main = none then
        match s.loops with
        | p :: ls => if p.callsOut then some { s with loops := ls } else none
        | [] => none
      else none

/-- The kinds of steps. -/
inductive Step : Context τ φ → Event τ φ → Context τ φ → Prop where
  | push {s t f} (hfree : s.execs t = none) (hmain : t = main → s.mainCalls = true) :
      Step s (.push t f)
        { s with
          pending := s.pending ++ [f]
          execs := Function.update s.execs t (some .pushed)
          pushed := s.pushed ++ [f] }
  | count {s t} (ht : s.execs t = some .pushed) :
      Step s (.count t)
        { s with
          cont := (s.cont + 1) % 2 ^ 64
          execs := Function.update s.execs t (some (.counted ((s.cont + 1) % 2 ^ 64))) }
  | write {s t counter} (ht : s.execs t = some (.counted counter)) :
      Step s (.write t)
        { s with
          counter := (eventfdWrite s.counter counter).getD s.counter
          execs := Function.update s.execs t none }
  | stop {s} : Step s .stop { s with run := false, stopped := true }
  | others {s n} : Step s (.others n) { s with others := n }
  | call {s} (hfree : s.execs main = none) (hmain : s.mainCalls = true) :
      Step s .call { s with loops := .entered :: s.loops, stopped := false }
  | enter {s ls} (hl : s.loops = .entered :: ls) :
      Step s .code { s with run := true, loops := .test :: ls }
  | test {s ls} (hl : s.loops = .test :: ls) (hrun : s.run = true) :
      Step s .code { s with loops := .wait :: ls }
  | leave {s ls} (hl : s.loops = .test :: ls) (hrun : s.run = false) :
      Step s .code { s with loops := ls }
  | wait {s ls} (hl : s.loops = .wait :: ls) : Step s .code { s with loops := .blocked :: ls }
  | batchEnd {s ls} (hl : s.loops = .batch [] :: ls) :
      Step s .code { s with loops := .test :: ls }
  | swap {s rest ls} (hl : s.loops = .batch (.exec :: rest) :: ls) :
      Step s .code { s with pending := [], loops := .callbacks s.pending rest :: ls }
  | handle {s rest ls} (hl : s.loops = .batch (.other :: rest) :: ls) :
      Step s .code { s with loops := .handler rest :: ls }
  | callbacksEnd {s rest ls} (hl : s.loops = .callbacks [] rest :: ls) :
      Step s .code { s with loops := .batch rest :: ls }
  | cb {s f cs rest ls} (hl : s.loops = .callbacks (f :: cs) rest :: ls) :
      Step s .code { s with executed := s.executed ++ [f], loops := .running f cs rest :: ls }
  | ready {s events ls} (hl : s.loops = .blocked :: ls) (hready : s.Reports events) :
      Step s (.ready events) { s with loops := .batch events :: ls }
  | failed {s ls} (hl : s.loops = .blocked :: ls) : Step s .failed { s with loops := ls }
  | cbBack {s f cs rest ls} (hfree : s.execs main = none)
      (hl : s.loops = .running f cs rest :: ls) :
      Step s .back { s with loops := .callbacks cs rest :: ls }
  | handlerBack {s rest ls} (hfree : s.execs main = none) (hl : s.loops = .handler rest :: ls) :
      Step s .back { s with loops := .batch rest :: ls }
  | throw {s p ls} (hfree : s.execs main = none) (hl : s.loops = p :: ls)
      (hp : p.callsOut = true) : Step s .throw { s with loops := ls }

variable {main} {s s' : Context τ φ} {e : Event τ φ}

theorem step_of_code (h : s.code = some s') : Step main s .code s' := by
  unfold Context.code at h
  split at h
  case h_2 ls hl =>
    by_cases hrun : s.run = true
    · rw [if_pos hrun] at h
      cases h
      exact .test hl hrun
    · rw [if_neg hrun] at h
      cases h
      exact .leave hl (Bool.not_eq_true _ ▸ hrun)
  case h_1 hl => cases h; exact .enter hl
  case h_3 hl => cases h; exact .wait hl
  case h_4 hl => cases h; exact .batchEnd hl
  case h_5 hl => cases h; exact .swap hl
  case h_6 hl => cases h; exact .handle hl
  case h_7 hl => cases h; exact .callbacksEnd hl
  case h_8 hl => cases h; exact .cb hl
  case h_9 => cases h

/-- **The step function takes no other steps.** -/
theorem Step.of_step (h : step main s e = some s') : Step main s e s' := by
  cases e with
  | push t f =>
    obtain ⟨⟨hfree, hmain⟩, heq⟩ := Option.ite_none_right_eq_some.mp h
    cases heq
    exact .push hfree hmain
  | count t =>
    obtain ⟨ht, heq⟩ := Option.ite_none_right_eq_some.mp h
    cases heq
    exact .count ht
  | write t =>
    simp only [step] at h
    split at h
    · cases h
      exact .write ‹_›
    · cases h
  | stop => cases h; exact .stop
  | others n => cases h; exact .others
  | call =>
    obtain ⟨⟨hfree, hmain⟩, heq⟩ := Option.ite_none_right_eq_some.mp h
    cases heq
    exact .call hfree hmain
  | code => exact step_of_code h
  | ready events =>
    simp only [step] at h
    split at h
    · obtain ⟨hready, heq⟩ := Option.ite_none_right_eq_some.mp h
      cases heq
      exact .ready ‹_› hready
    · cases h
  | failed =>
    simp only [step] at h
    split at h
    · cases h
      exact .failed ‹_›
    · cases h
  | back =>
    obtain ⟨hfree, hback⟩ := Option.ite_none_right_eq_some.mp h
    split at hback
    · cases hback
      exact .cbBack hfree ‹_›
    · cases hback
      exact .handlerBack hfree ‹_›
    · cases hback
  | throw =>
    obtain ⟨hfree, hthrow⟩ := Option.ite_none_right_eq_some.mp h
    split at hthrow
    · obtain ⟨hp, heq⟩ := Option.ite_none_right_eq_some.mp hthrow
      cases heq
      exact .throw hfree ‹_› hp
    · cases hthrow

/-- It takes each of them. -/
theorem Step.step_eq (hs : Step main s e s') : step main s e = some s' := by
  cases hs with
  | push hfree hmain => exact if_pos ⟨hfree, hmain⟩
  | count ht => exact if_pos ht
  | write ht => simp only [step, ht]
  | stop | others => rfl
  | call hfree hmain => exact if_pos ⟨hfree, hmain⟩
  | enter hl | wait hl | batchEnd hl | swap hl | handle hl | callbacksEnd hl | cb hl =>
    simp only [step, Context.code, hl]
  | test hl hrun => simp only [step, Context.code, hl, hrun, if_true]
  | leave hl hrun => simp only [step, Context.code, hl, hrun, Bool.false_eq_true, if_false]
  | ready hl hready => simp only [step, hl, if_pos hready]
  | failed hl => simp only [step, hl]
  | cbBack hfree hl | handlerBack hfree hl => simp only [step, if_pos hfree, hl]
  | throw hfree hl hp => simp only [step, if_pos hfree, hl, if_pos hp]

end Exec
end Linux
end AcppNetwork
