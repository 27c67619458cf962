import AcppNetwork.MacosExec
import AcppNetwork.Refinement
import Mathlib

/-!
# The functions given to `exec` on macOS

The `EVFILT_USER` branch swaps the whole queue into a local one and executes it from the
front, so the loop is an executor (`refines`): the functions are executed in the order they
were pushed in.

That the loop gets round to them rests on the event, which `kevent` takes back as soon as it
reports it.  Between that moment and the swap the only trace of it is the entry in the array of
the activation; an exception out of a callback in front of the entry drops it, and a callback
that calls `wait_for_input` blocks in front of it.  `nothing_forgotten_iff` says when no function is
lost, nor left in a queue nobody is woken for.
-/
namespace AcppNetwork
namespace Macos
namespace Exec

variable {τ φ : Type}

/-- A function given to `exec` neither throws nor enters `wait_for_input`. -/
def Returns (s : Context τ φ) : Event τ φ → Prop
  | .call | .throw => ∀ p ∈ s.loops.head?, p.isRunning = false
  | _ => True

/-- What a step is to an executor: `exec` hands a function in, the loop executes one. -/
def label (s : Context τ φ) : Event τ φ → List (Executor.Event φ)
  | .push _ f => [.submit f]
  | .code =>
      match s.loops with
      | .tasks (f :: _) _ :: _ => [.execute f]
      | _ => []
  | _ => []

namespace Context

/-- The functions that were swapped out of the queue and are not called yet. -/
def inHand (s : Context τ φ) : List φ := s.loops.flatMap Phase.inHand

/-- No thread is inside `exec`. -/
def NoExec (s : Context τ φ) : Prop := ∀ t, s.execs t = false

/-- The innermost activation still has the entry of the `EVFILT_USER` event to handle. -/
def ToHandle (s : Context τ φ) : Prop := ∃ p ∈ s.loops.head?, .user ∈ p.rest

/-- The event is active, or some thread is about to trigger it. -/
def Triggering (s : Context τ φ) : Prop := s.triggered = true ∨ ∃ t, s.execs t = true

/-- Nothing waits in the queue, or somebody will look into it. -/
def Awake (s : Context τ φ) : Prop := s.pending = [] ∨ s.Triggering ∨ s.ToHandle

/-- No function given to `exec` was lost, and none was executed twice; those that still wait
in the queue are the last that were pushed, in this order. -/
structure Kept (s : Context τ φ) : Prop where
  perm : s.pushed.Perm (s.executed ++ s.inHand ++ s.pending)
  order : s.pending <:+ s.pushed

/-- What the context and the executor it is have in common.  Only the innermost activation
of the loop has functions in hand. -/
structure Executes (s : Context τ φ) (q : Conduit φ) : Prop where
  traces : q.Traces s.pushed s.executed (s.inHand ++ s.pending)
  outer : ∀ p ∈ s.loops.tail, p.inHand = []

end Context

/-- The condition: an exception leaves no function behind in the local queue, and neither an
exception nor a call of `wait_for_input` leaves the entry of the `EVFILT_USER` event behind
while a function waits and nobody is about to trigger the event; if the activation under it has
such an entry, too, an exception does no harm. -/
def LeavesNothing (s : Context τ φ) : Event τ φ → Prop
  | .call => s.pending = [] ∨ s.Triggering
  | .throw => (∀ p ∈ s.loops.head?, p.inHand = []) ∧
      (s.pending = [] ∨ s.Triggering ∨ ∃ p ∈ s.loops.tail.head?, .user ∈ p.rest)
  | _ => True

instance (s : Context τ φ) (e : Event τ φ) : Decidable (Returns s e) := by
  rcases e with ⟨⟩ <;> unfold Returns <;> infer_instance

instance [Fintype τ] (s : Context τ φ) : Decidable s.NoExec :=
  inferInstanceAs (Decidable (∀ _, _))

instance [Fintype τ] (s : Context τ φ) : Decidable s.Triggering :=
  inferInstanceAs (Decidable (_ ∨ ∃ _, _))

instance [Fintype τ] [DecidableEq φ] (s : Context τ φ) (e : Event τ φ) :
    Decidable (LeavesNothing s e) := by
  rcases e with ⟨⟩ <;> unfold LeavesNothing <;> infer_instance

section
variable {s s' : Context τ φ} {e : Event τ φ} {es : List (Event τ φ)} {p : Phase φ}
  {ls : List (Phase φ)} {q : Conduit φ}

open Context

theorem inHand_cons (hl : s.loops = p :: ls) : s.inHand = p.inHand ++ ls.flatMap Phase.inHand := by
  rw [inHand, hl, List.flatMap_cons]

theorem inHand_eq_nil (h : ∀ p ∈ s.loops, p.inHand = []) : s.inHand = [] :=
  List.flatMap_eq_nil_iff.mpr h

/-! ## The loop is an executor -/

namespace Context

theorem Executes.top (h : s.Executes q) (hl : s.loops = p :: ls) :
    q.Traces s.pushed s.executed (p.inHand ++ s.pending) ∧ ∀ r ∈ ls, r.inHand = [] := by
  have houter : ∀ r ∈ ls, r.inHand = [] := by
    intro r hr
    exact h.outer r (by rw [hl]; exact hr)
  have htraces := h.traces
  rw [inHand_cons hl, List.flatMap_eq_nil_iff.mpr houter, List.append_nil] at htraces
  exact ⟨htraces, houter⟩

theorem executes_cons (hl : s.loops = p :: ls)
    (h : q.Traces s.pushed s.executed (p.inHand ++ s.pending)) (hls : ∀ r ∈ ls, r.inHand = []) :
    s.Executes q := by
  refine ⟨?_, fun r hr => hls r (by rw [hl] at hr; exact hr)⟩
  rw [inHand_cons hl, List.flatMap_eq_nil_iff.mpr hls, List.append_nil]
  exact h

/-- An activation without functions in hand ends. -/
theorem executes_tail (hl : s.loops = ls) (h : q.Traces s.pushed s.executed s.pending)
    (hls : ∀ r ∈ ls, r.inHand = []) : s.Executes q := by
  refine ⟨?_, fun r hr => hls r (List.mem_of_mem_tail (hl ▸ hr))⟩
  rw [inHand_eq_nil (hl ▸ hls), List.nil_append]
  exact h

/-- Where no function runs, an activation that calls out has none in hand. -/
theorem inHand_of_callsOut (hp : p.callsOut = true) (hnot : p.isRunning = false) :
    p.inHand = [] := by
  cases p with
  | running => cases hnot
  | timer | handler => rfl
  | _ => cases hp

end Context

/-- A step that neither hands a function in nor executes one, and leaves the innermost
activation with the functions it had in hand. -/
theorem executes_goto [DecidableEq φ] {r : Phase φ} (h : s.Executes q) (hl : s.loops = p :: ls)
    (hl' : s'.loops = r :: ls) (hr : r.inHand = p.inHand) (hpushed : s'.pushed = s.pushed)
    (hexecuted : s'.executed = s.executed) (hpending : s'.pending = s.pending) :
    ∃ q', Runs.run Executor.step q ([] : List (Executor.Event φ)) = some q' ∧ s'.Executes q' := by
  obtain ⟨htraces, houter⟩ := h.top hl
  refine Runs.refines_nil (executes_cons hl' ?_ houter)
  rw [hpushed, hexecuted, hpending, hr]
  exact htraces

theorem count_user_le_one {events : List Entry} (h : s.Reports events) :
    events.count .user ≤ 1 := by
  obtain ⟨-, -, -, hnodup, -⟩ := h
  have hcount := List.nodup_iff_count_le_one.mp hnodup .user
  rwa [List.count_filter (by decide)] at hcount

/-! ## Where the functions and the entries are -/

theorem toHandle_cons (hl : s.loops = p :: ls) : s.ToHandle ↔ .user ∈ p.rest := by
  simp [ToHandle, hl]

/-- The innermost activation goes on with no entry of the event less. -/
theorem Context.Awake.goto {r : Phase φ} (h : s.Awake) (hl : s.loops = p :: ls)
    (hl' : s'.loops = r :: ls) (hrest : .user ∈ p.rest → .user ∈ r.rest)
    (hpending : s'.pending = s.pending) (htriggered : s'.triggered = s.triggered)
    (hexecs : s'.execs = s.execs) : s'.Awake := by
  unfold Awake Triggering
  rw [hpending, htriggered, hexecs, toHandle_cons hl']
  rcases h with h | h | h
  · exact .inl h
  · exact .inr (.inl h)
  · exact .inr (.inr (hrest ((toHandle_cons hl).mp h)))

/-- The innermost activation ends without such an entry. -/
theorem Context.Awake.pop (h : s.Awake) (hl : s.loops = p :: ls) (hp : p.rest = []) :
    Context.Awake { s with loops := ls } := by
  rcases h with h | h | h
  · exact .inl h
  · exact .inr (.inl h)
  · rw [toHandle_cons hl, hp] at h
    cases h

/-- The functions are where they were, or have moved on together. -/
theorem Context.Kept.of_books (h : s.Kept) (hpushed : s'.pushed = s.pushed)
    (hpending : s'.pending = s.pending)
    (hbooks : s'.executed ++ s'.inHand = s.executed ++ s.inHand) : s'.Kept := by
  constructor
  · rw [hpushed, hbooks, hpending]
    exact h.perm
  · rw [hpushed, hpending]
    exact h.order

/-- The innermost activation goes on with the functions it had in hand. -/
theorem Context.Kept.goto {r : Phase φ} (h : s.Kept) (hl : s.loops = p :: ls)
    (hl' : s'.loops = r :: ls) (hr : r.inHand = p.inHand) (hpushed : s'.pushed = s.pushed)
    (hpending : s'.pending = s.pending) (hexecuted : s'.executed = s.executed) : s'.Kept := by
  refine h.of_books hpushed hpending ?_
  rw [hexecuted, inHand_cons hl, inHand_cons hl', hr]

/-- The innermost activation ends with nothing in hand. -/
theorem Context.Kept.pop (h : s.Kept) (hl : s.loops = p :: ls) (hp : p.inHand = []) :
    Context.Kept { s with loops := ls } := by
  refine h.of_books rfl rfl ?_
  rw [inHand_cons hl, hp]
  rfl

/-- An exception that leaves a function behind loses it. -/
theorem inHand_nil_of_throw (hl : s.loops = p :: ls) (h : s.Kept)
    (h' : Context.Kept { s with loops := ls }) : p.inHand = [] := by
  have hlength := (h.perm.symm.trans h'.perm).length_eq
  rw [inHand_cons hl] at hlength
  have hrest : Context.inHand { s with loops := ls } = ls.flatMap Phase.inHand := rfl
  rw [hrest] at hlength
  simp only [List.length_append] at hlength
  exact List.eq_nil_of_length_eq_zero (by omega)

theorem kept_new : (Context.new : Context τ φ).Kept ∧ (Context.new : Context τ φ).Awake :=
  ⟨⟨List.Perm.refl _, List.suffix_refl _⟩, .inl rfl⟩

/-! ## Steps -/

variable [DecidableEq τ] {main : τ}

/-- **Each step is one of an executor**, or none. -/
theorem Step.executor [DecidableEq φ] (hs : Step main s e s') (h : s.Executes q)
    (hret : Returns s e) :
    ∃ q', Runs.run Executor.step q (label s e) = some q' ∧ s'.Executes q' := by
  cases hs with
  | @push t f hfree hmain =>
    refine Runs.refines_one rfl ⟨?_, h.outer⟩
    show (q.accept [f]).Traces (s.pushed ++ [f]) s.executed (s.inHand ++ (s.pending ++ [f]))
    rw [← List.append_assoc]
    exact h.traces.accept [f]
  | trigger | stop | others | timer | cancel | destroy | expire =>
    exact Runs.refines_nil ⟨h.traces, h.outer⟩
  | call hfree hmain =>
    -- the activation that calls is in a callback of a timer or a socket
    have hquiet : ∀ r ∈ s.loops, r.inHand = [] := by
      intro r hr
      cases hl : s.loops with
      | nil =>
        rw [hl] at hr
        cases hr
      | cons p ls =>
        obtain ⟨-, houter⟩ := h.top hl
        rw [hl] at hr
        rcases List.mem_cons.mp hr with rfl | hr
        · rw [mainCalls, hl] at hmain
          exact inHand_of_callsOut hmain (hret r (by rw [hl]; rfl))
        · exact houter r hr
    have htraces := h.traces
    rw [inHand_eq_nil hquiet] at htraces
    exact Runs.refines_nil (executes_cons rfl htraces hquiet)
  | enter hl | test hl _ | batchEnd hl | fire hl _ _ | mute hl _ _ | dangling hl _ | handle hl
  | tasksEnd hl =>
    simp only [label, hl]
    exact executes_goto h hl rfl rfl rfl rfl rfl
  | ready hl _ | taskBack _ hl | timerBack _ hl | handlerBack _ hl =>
    exact executes_goto h hl rfl rfl rfl rfl rfl
  | leave hl _ =>
    obtain ⟨htraces, houter⟩ := h.top hl
    simp only [label, hl]
    exact Runs.refines_nil (executes_tail rfl htraces houter)
  | failed hl =>
    obtain ⟨htraces, houter⟩ := h.top hl
    exact Runs.refines_nil (executes_tail rfl htraces houter)
  | throw _ hl hp =>
    obtain ⟨htraces, houter⟩ := h.top hl
    rw [inHand_of_callsOut hp (hret _ (by rw [hl]; rfl))] at htraces
    exact Runs.refines_nil (executes_tail rfl htraces houter)
  | @swap rest ls hl =>
    obtain ⟨htraces, houter⟩ := h.top hl
    simp only [label, hl]
    refine Runs.refines_nil (executes_cons rfl ?_ houter)
    show q.Traces s.pushed s.executed (s.pending ++ [])
    rw [List.append_nil]
    exact htraces
  | @task f ts rest ls hl =>
    obtain ⟨htraces, houter⟩ := h.top hl
    have hheld : q.held = f :: (ts ++ s.pending) := htraces.held
    simp only [label, hl]
    refine Runs.refines_one (Executor.step_execute hheld) (executes_cons rfl ?_ houter)
    exact htraces.deliver 1

theorem refines [DecidableEq φ] :
    Runs.Refines (step main) Returns Executor.step label
      (fun (s : Context τ φ) q => s.Executes q) :=
  fun _ _ _ _ h hret hstep => (Step.of_step hstep).executor h hret

/-! ## What wakes the loop -/

/-- The event is reported no more often than it was triggered. -/
def Context.Spares (s : Context τ φ) : Prop :=
  s.deliveries + (if s.triggered then 1 else 0) ≤ s.triggers

/-- **An idle loop sleeps**: a report takes the event back. -/
theorem Step.spares (hs : Step main s e s') (h : s.Spares) : s'.Spares := by
  unfold Context.Spares at h ⊢
  cases hs with
  | trigger =>
    show s.deliveries + 1 ≤ s.triggers + 1
    split at h <;> omega
  | @ready events ls hl hready =>
    have hone := count_user_le_one hready
    show s.deliveries + events.count .user + (if (s.triggered && _) = true then 1 else 0) ≤
      s.triggers
    by_cases huser : .user ∈ events
    · have htriggered := hready.2.2.2.2.1 huser
      rw [htriggered, if_pos rfl] at h
      simp only [List.contains_iff_mem.mpr huser, Bool.not_true, Bool.and_false,
        Bool.false_eq_true, if_false]
      omega
    · rw [List.count_eq_zero.mpr huser]
      have hmiss : events.contains Entry.user = false := by simpa using huser
      simp only [hmiss, Bool.not_false, Bool.and_true]
      exact h
  | _ => exact h

/-! ## What an exception costs -/

/-- **A step that leaves nothing behind loses no function.** -/
theorem Step.kept (hs : Step main s e s') (h : s.Kept) (hp : LeavesNothing s e) : s'.Kept := by
  cases hs with
  | @push t f hfree hmain =>
    constructor
    · show (s.pushed ++ [f]).Perm (s.executed ++ s.inHand ++ (s.pending ++ [f]))
      rw [← List.append_assoc]
      exact h.perm.append_right [f]
    · exact List.suffix_append_self_iff.mpr h.order
  | trigger | stop | others | timer | cancel | destroy | expire => exact ⟨h.perm, h.order⟩
  | call => exact h.of_books rfl rfl rfl
  | enter hl | test hl _ | batchEnd hl | fire hl _ _ | mute hl _ _ | dangling hl _ | handle hl
  | tasksEnd hl | ready hl _ | taskBack _ hl | timerBack _ hl | handlerBack _ hl =>
    exact h.goto hl rfl rfl rfl rfl rfl
  | leave hl _ | failed hl => exact h.pop hl rfl
  | throw _ hl _ => exact h.pop hl (hp.1 _ (by rw [hl]; rfl))
  | @swap rest ls hl =>
    constructor
    · -- the queue comes to stand before what the outer activations have in hand
      have hperm := h.perm
      rw [inHand_cons hl] at hperm
      show s.pushed.Perm (s.executed ++ (s.pending ++ ls.flatMap Phase.inHand) ++ [])
      rw [List.append_nil]
      refine hperm.trans ?_
      rw [List.append_assoc]
      exact (List.perm_append_comm).append_left s.executed
    · exact List.nil_suffix
  | @task f ts rest ls hl =>
    refine h.of_books rfl rfl ?_
    rw [inHand_cons hl]
    show s.executed ++ [f] ++ (ts ++ ls.flatMap Phase.inHand) = _
    simp [Phase.inHand]

/-- **A step that leaves nothing behind leaves somebody to look into the queue.** -/
theorem Step.awake (hs : Step main s e s') (h : s.Awake) (hp : LeavesNothing s e) : s'.Awake := by
  cases hs with
  | push => exact .inr (.inl (.inr ⟨_, Function.update_self ..⟩))
  | trigger => exact .inr (.inl (.inl rfl))
  | stop | others | timer | cancel | destroy | expire => exact h
  | call => exact hp.imp_right .inl
  | swap => exact .inl rfl
  | enter hl | test hl _ | batchEnd hl => exact h.goto hl rfl (by simp [Phase.rest]) rfl rfl rfl
  | fire hl _ _ | mute hl _ _ | dangling hl _ | handle hl =>
    exact h.goto hl rfl (by simp [Phase.rest]) rfl rfl rfl
  | tasksEnd hl | task hl | taskBack _ hl | timerBack _ hl | handlerBack _ hl =>
    exact h.goto hl rfl id rfl rfl rfl
  | leave hl _ | failed hl => exact h.pop hl rfl
  | throw _ hl _ =>
    obtain ⟨-, hwoken⟩ := hp
    rw [hl, List.tail_cons] at hwoken
    exact hwoken
  | @ready events ls hl hready =>
    rcases h with h | (htriggered | hexec) | hhandle
    · exact .inl h
    · -- the event is among those reported, or still active
      by_cases huser : .user ∈ events
      · exact .inr (.inr ⟨.batch events, rfl, huser⟩)
      · refine .inr (.inl (.inl ?_))
        show (s.triggered && !events.contains .user) = true
        simp [htriggered, huser]
    · exact .inr (.inl (.inr hexec))
    · rw [toHandle_cons hl] at hhandle
      cases hhandle

theorem survives_step_iff (hstep : step main s e = some s') (h : s.Kept ∧ s.Awake) :
    s'.Kept ∧ s'.Awake ↔ LeavesNothing s e := by
  have hs := Step.of_step hstep
  refine ⟨fun h' => ?_, fun hp => ⟨hs.kept h.1 hp, hs.awake h.2 hp⟩⟩
  cases hs with
  | call =>
    -- the new activation has no entries
    rcases h'.2 with hpending | htriggering | ⟨p, hp, huser⟩
    · exact .inl hpending
    · exact .inr htriggering
    · obtain rfl := Option.some.inj hp
      cases huser
  | throw _ hl _ =>
    refine ⟨fun r hr => ?_, ?_⟩
    · rw [hl] at hr
      obtain rfl := Option.some.inj hr
      exact inHand_nil_of_throw hl h.1 h'.1
    · rw [hl, List.tail_cons]
      exact h'.2
  | _ => trivial

/-! ## Runs -/

/-- **When no function is lost or forgotten.**  In every interleaving of any threads no
function is lost, executed twice or left in a queue that nobody is woken for, exactly if no
exception leaves functions behind in the local queue, and neither an exception nor a nested
call of `wait_for_input` leaves the last entry of the `EVFILT_USER` event behind. -/
theorem nothing_forgotten_iff (hr : Runs.run (step main) Context.new es = some s) :
    Runs.Throughout (step main) (fun s => s.Kept ∧ s.Awake) (Context.new : Context τ φ) es ↔
      Runs.Along (step main) LeavesNothing (Context.new : Context τ φ) es :=
  Runs.throughout_iff_along (J := fun _ => True) (fun _ _ _ _ _ => trivial)
    (fun _ _ _ _ h hstep => survives_step_iff hstep h) trivial kept_new hr

/-- **The loop is an executor, and sleeps when there is nothing to do.**  In every
interleaving of any threads in which no function throws or enters `wait_for_input`, handing in
and executing functions happen as in an executor, which holds the functions in the hands of the
loop and those in the queue; and in every interleaving the event is reported no more often than
it was triggered. -/
theorem loop_executes_in_order [DecidableEq φ]
    (hr : Runs.run (step main) Context.new es = some s) :
    (Runs.Along (step main) Returns Context.new es →
      ∃ q, Runs.run Executor.step Conduit.empty (Runs.trace (step main) label Context.new es)
        = some q ∧ q.Traces s.pushed s.executed (s.inHand ++ s.pending)) ∧
      s.deliveries + (if s.triggered then 1 else 0) ≤ s.triggers := by
  refine ⟨fun hret => ?_, ?_⟩
  · have hnew : (Context.new : Context τ φ).Executes Conduit.empty :=
      ⟨⟨rfl, rfl, rfl⟩, by simp [Context.new]⟩
    obtain ⟨q, hq, hexecutes⟩ := refines.run hnew hret hr
    exact ⟨q, hq, hexecutes.traces⟩
  · exact Runs.run_invariant (I := Context.Spares)
      (fun _ _ _ h hstep => (Step.of_step hstep).spares h) (Nat.le_refl _) hr

end

/-- The thread of the loop is `true`; the other one pushes 7 while the loop is blocked, and 7
pushes 8 while it runs.  After 8 the loop sleeps. -/
def twoThreads : List (Event Bool Nat) :=
  [.call, .code, .code, .push false 7, .trigger false, .ready [.user], .code, .code,
    .push true 8, .trigger true, .back, .code, .code, .code, .ready [.user], .code, .code, .back,
    .code, .code, .code]

theorem loop_executes_in_order_twoThreads :
    ∃ s, Runs.run (step true) Context.new twoThreads = some s ∧ s.executed = [7, 8] ∧
      s.loops = [.blocked] ∧ s.triggered = false ∧
      (∃ q, Runs.run Executor.step Conduit.empty
          (Runs.trace (step true) label Context.new twoThreads) = some q ∧
        q.Traces s.pushed s.executed (s.inHand ++ s.pending)) ∧
      s.deliveries + (if s.triggered then 1 else 0) ≤ s.triggers := by
  obtain ⟨s, hr, hexecuted, hloops, htriggered⟩ :
      ∃ s, Runs.run (step true) Context.new twoThreads = some s ∧ s.executed = [7, 8] ∧
        s.loops = [.blocked] ∧ s.triggered = false :=
    Runs.exists_run (by decide)
  obtain ⟨hexecutes, hspares⟩ := loop_executes_in_order hr
  exact ⟨s, hr, hexecuted, hloops, htriggered, hexecutes (by decide), hspares⟩

/-- 7 pushes 8 while it runs, alone in its batch, and then throws. -/
def throwsAlone : List (Event Bool Nat) :=
  [.call, .code, .code, .push false 7, .trigger false, .ready [.user], .code, .code,
    .push true 8, .trigger true, .throw]

theorem nothing_forgotten_throwsAlone :
    Runs.Throughout (step true) (fun s => s.Kept ∧ s.Awake) (Context.new : Context Bool Nat)
      throwsAlone := by
  obtain ⟨s, hr, -⟩ : ∃ s, Runs.run (step true) Context.new throwsAlone = some s ∧
      s.pending = [8] :=
    Runs.exists_run (by decide)
  exact (nothing_forgotten_iff hr).mpr (by decide)

/-- A callback of a socket throws in front of the entry of the `EVFILT_USER` event:
`wait_for_input` is called again and sleeps, with 7 in the queue. -/
theorem function_forgotten :
    ∃ s, Runs.run (step true) (Context.new : Context Bool Nat)
        [.call, .code, .code, .others 1, .push false 7, .trigger false, .ready [.other, .user],
          .code, .throw, .call, .code, .code] = some s ∧
      s.loops = [.blocked] ∧ s.pending = [7] ∧ s.NoExec ∧ s.triggered = false :=
  Runs.exists_run (by decide)

end Exec
end Macos
end AcppNetwork
