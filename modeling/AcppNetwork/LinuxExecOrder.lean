import AcppNetwork.LinuxExec
import Mathlib

/-!
# The order of the functions given to `exec`

Functions are executed in the order they were pushed in, each of them once: whenever an
array with the entry of the eventfd was handled, all that were pushed before are.  None is
forgotten while the loop sleeps (`executed_in_order`).  What keeps the loop awake
is that the eventfd is written and never read: after the first call of `exec` its
counter is not 0 any more (`awake`), so that an idle loop does not block, either
(`idle_counter_iff`).
-/
namespace AcppNetwork
namespace Linux
namespace Exec

variable {τ φ : Type}

namespace Phase

/-- A function given to `exec` runs. -/
def isRunning : Phase φ → Bool
  | running _ _ _ => true
  | _ => false

/-- The entries of the array that are still to be handled. -/
def entries : Phase φ → List Entry
  | batch events => events
  | callbacks _ rest | running _ _ rest | handler rest => rest
  | _ => []

end Phase

/-- A function given to `exec` neither throws nor enters `wait_for_input`. -/
def Returns (s : Context τ φ) : Event τ φ → Prop
  | .call | .throw => ∀ p ∈ s.loops.head?, p.isRunning = false
  | _ => True

/-- It is a step of the loop's thread, or the return of `epoll_wait` or of a callback. -/
def Event.ofLoop : Event τ φ → Bool
  | .code | .ready _ | .back => true
  | _ => false

namespace Context

/-- The functions that were swapped out of the queue and are not called yet. -/
def inHand (s : Context τ φ) : List φ := s.loops.flatMap Phase.inHand

/-- No thread is inside `exec`. -/
def NoExec (s : Context τ φ) : Prop := ∀ t, s.execs t = none

/-- There is nothing to do: no function waits, no thread is inside `exec`, no handler runs. -/
def Idle (s : Context τ φ) : Prop :=
  s.pending = [] ∧ s.NoExec ∧ ∀ p ∈ s.loops, p.handles = false

/-- The functions were executed in the order they were pushed in, as far as they are not
in the hands of the handler or in the queue. -/
structure Ordered (s : Context τ φ) : Prop where
  order : s.pushed = s.executed ++ s.inHand ++ s.pending
  /-- Only the innermost activation of the loop has functions in hand. -/
  outer : ∀ p ∈ s.loops.tail, p.inHand = []

/-- Why the loop is or will be woken: the eventfd is readable, or somebody is about to
write the 1, or about to count it. -/
def Awake (s : Context τ φ) : Prop :=
  0 < s.counter ∨ (∃ t, s.execs t = some (.counted 1)) ∨
    s.cont = 0 ∧ (∀ t counter, s.execs t ≠ some (.counted counter)) ∧
      (s.pushed ≠ [] → ∃ t, s.execs t = some .pushed)

end Context

/-- The thread of the loop alone leads from `s` to `s'`; it pushes nothing. -/
structure Drains [DecidableEq τ] (main : τ) (s s' : Context τ φ) : Prop where
  reaches : ∃ es, (∀ e ∈ es, e.ofLoop = true) ∧ Runs.run (step main) s es = some s'
  run : s'.run = s.run
  counter : s'.counter = s.counter
  execs : s'.execs = s.execs
  pushed : s'.pushed = s.pushed
  pending : s.pending = [] → s'.pending = []

/-- Functions return in `es`, and the activation of the loop that was called by those in `ls`
is not left. -/
structure Stays [DecidableEq τ] (main : τ) (ls : List (Phase φ)) (s : Context τ φ)
    (es : List (Event τ φ)) : Prop where
  returns : Runs.Along (step main) Returns s es
  above : Runs.Throughout (step main) (fun t => ls.length < t.loops.length) s es

/-- What holds of the functions given to `exec`: they are executed in the order they were
pushed in, none is left out or executed twice; the eventfd is readable while one waits;
whatever the threads do, all that are pushed before an array with its entry is handled are
executed when it was; and the loop alone can go on until all are executed, if it is not
stopped. -/
structure InOrder [DecidableEq τ] (main : τ) (s : Context τ φ) : Prop where
  order : s.pushed = s.executed ++ s.inHand ++ s.pending
  awake : s.NoExec → s.pending ≠ [] → 0 < s.counter
  handled : ∀ events ls, s.loops = .batch events :: ls → .exec ∈ events →
    ∀ es t, Runs.run (step main) s es = some t → Stays main ls s es →
      t.loops = .test :: ls → s.pushed <+: t.executed
  drains : s.NoExec → s.run = true → s.loops ≠ [] →
    ∃ s', Drains main s s' ∧ s'.executed = s.pushed

instance (s : Context τ φ) (e : Event τ φ) : Decidable (Returns s e) := by
  rcases e with ⟨⟩ <;> unfold Returns <;> infer_instance

instance [Fintype τ] (s : Context τ φ) : Decidable s.NoExec :=
  inferInstanceAs (Decidable (∀ _, _))

instance [Fintype τ] [DecidableEq φ] (s : Context τ φ) : Decidable s.Idle :=
  inferInstanceAs (Decidable (_ ∧ _ ∧ _))

section
variable {s s' : Context τ φ} {e : Event τ φ} {es : List (Event τ φ)} {p : Phase φ}
  {ls : List (Phase φ)}

/-! ## The order -/

theorem flatMap_inHand (hls : ∀ q ∈ ls, q.inHand = []) : ls.flatMap Phase.inHand = [] :=
  List.flatMap_eq_nil_iff.mpr hls

namespace Context

theorem Ordered.top (h : s.Ordered) (hl : s.loops = p :: ls) :
    s.pushed = s.executed ++ p.inHand ++ s.pending ∧ ∀ q ∈ ls, q.inHand = [] := by
  have houter : ∀ q ∈ ls, q.inHand = [] := by
    intro q hq
    exact h.outer q (by rw [hl]; exact hq)
  refine ⟨?_, houter⟩
  have horder := h.order
  rw [inHand, hl, List.flatMap_cons, flatMap_inHand houter, List.append_nil] at horder
  exact horder

theorem ordered_cons (hl : s.loops = p :: ls)
    (h : s.pushed = s.executed ++ p.inHand ++ s.pending) (hls : ∀ q ∈ ls, q.inHand = []) :
    s.Ordered := by
  refine ⟨?_, fun q hq => hls q (by rw [hl] at hq; exact hq)⟩
  rw [inHand, hl, List.flatMap_cons, flatMap_inHand hls, List.append_nil]
  exact h

/-- An activation without functions in hand ends. -/
theorem ordered_tail (hl : s.loops = ls) (h : s.pushed = s.executed ++ s.pending)
    (hls : ∀ q ∈ ls, q.inHand = []) : s.Ordered := by
  refine ⟨?_, fun q hq => hls q (List.mem_of_mem_tail (hl ▸ hq))⟩
  rw [inHand, hl, flatMap_inHand hls, List.append_nil]
  exact h

end Context

open Context

/-- After a call of `exec` the eventfd is readable. -/
theorem counter_pos (h : s.Awake) (hfree : s.NoExec) (hpushed : s.pushed ≠ []) :
    0 < s.counter := by
  rcases h with hcounter | ⟨t, ht⟩ | ⟨-, -, hwaiting⟩
  · exact hcounter
  · rw [hfree t] at ht
    cases ht
  · obtain ⟨t, ht⟩ := hwaiting hpushed
    rw [hfree t] at ht
    cases ht

variable [DecidableEq τ] {main : τ}

/-- **The order is kept by every step**, of whatever thread. -/
theorem Step.ordered (hs : Step main s e s') (h : s.Ordered) (hret : Returns s e) :
    s'.Ordered := by
  cases hs with
  | push =>
    refine ⟨?_, h.outer⟩
    have horder := h.order
    change s.pushed ++ _ = s.executed ++ s.inHand ++ (s.pending ++ _)
    rw [horder]
    simp only [List.append_assoc]
  | count | write | stop | others => exact ⟨h.order, h.outer⟩
  | call _ hmain =>
    -- the activation that calls is in a callback of another handler
    have hquiet : ∀ q ∈ s.loops, q.inHand = [] := by
      intro q hq
      cases hl : s.loops with
      | nil =>
        rw [hl] at hq
        cases hq
      | cons p ls =>
        obtain ⟨-, houter⟩ := h.top hl
        rw [hl] at hq
        rcases List.mem_cons.mp hq with rfl | hq
        · have hrunning := hret q (by rw [hl]; rfl)
          rw [mainCalls, hl] at hmain
          cases q <;> simp_all [Phase.callsOut, Phase.isRunning, Phase.inHand]
        · exact houter q hq
    have horder := h.order
    rw [inHand, flatMap_inHand hquiet] at horder
    exact ordered_cons rfl horder hquiet
  | enter hl | test hl _ | wait hl | batchEnd hl | handle hl | callbacksEnd hl
  | ready hl _ | cbBack _ hl | handlerBack _ hl =>
    obtain ⟨horder, houter⟩ := h.top hl
    exact ordered_cons rfl horder houter
  | leave hl _ | failed hl =>
    obtain ⟨horder, houter⟩ := h.top hl
    exact ordered_tail rfl (by simpa [Phase.inHand] using horder) houter
  | throw _ hl hp =>
    obtain ⟨horder, houter⟩ := h.top hl
    have hrunning := hret _ (by rw [hl]; rfl)
    refine ordered_tail rfl ?_ houter
    cases ‹Phase φ› <;> simp_all [Phase.callsOut, Phase.isRunning, Phase.inHand]
  | swap hl =>
    obtain ⟨horder, houter⟩ := h.top hl
    exact ordered_cons rfl (by simpa [Phase.inHand] using horder) houter
  | cb hl =>
    obtain ⟨horder, houter⟩ := h.top hl
    exact ordered_cons rfl (by simpa [Phase.inHand] using horder) houter

/-! ## An array with the entry of the eventfd -/

/-- The activation called by those in `ls` has the entry still to be handled. -/
def Handling (ls loops : List (Phase φ)) : Prop :=
  ∃ above q, loops = above ++ q :: ls ∧ .exec ∈ q.entries

namespace Handling

variable {q : Phase φ} {loops : List (Phase φ)}

/-- One more activation. -/
theorem cons (h : Handling ls loops) (q : Phase φ) : Handling ls (q :: loops) := by
  obtain ⟨above, p, rfl, hexec⟩ := h
  exact ⟨q :: above, p, rfl, hexec⟩

/-- The entry is the innermost activation's, or another one's. -/
theorem of_cons (h : Handling ls (p :: loops)) :
    (.exec ∈ p.entries ∧ loops = ls) ∨ Handling ls loops := by
  obtain ⟨above, q, heq, hexec⟩ := h
  cases above with
  | nil =>
    obtain ⟨rfl, rfl⟩ := List.cons.inj heq
    exact .inl ⟨hexec, rfl⟩
  | cons r above =>
    obtain ⟨-, rfl⟩ := List.cons.inj heq
    exact .inr ⟨above, q, rfl, hexec⟩

/-- The innermost activation goes on, with the entry still to be handled. -/
theorem goto (h : Handling ls (p :: loops)) (hentries : .exec ∈ p.entries → .exec ∈ q.entries) :
    Handling ls (q :: loops) := by
  rcases h.of_cons with ⟨hexec, rfl⟩ | h
  · exact ⟨[], q, rfl, hentries hexec⟩
  · exact h.cons q

/-- An activation inside it ends. -/
theorem pop (h : Handling ls (p :: loops)) (habove : ls.length < loops.length) :
    Handling ls loops := by
  rcases h.of_cons with ⟨-, rfl⟩ | h
  · exact absurd habove (Nat.lt_irrefl _)
  · exact h

/-- At the test of `while (run)` it is handled. -/
theorem not_test (h : Handling ls (.test :: ls)) : False := by
  rcases h.of_cons with ⟨hexec, -⟩ | ⟨above, q, heq, -⟩
  · cases hexec
  · have hlength := congrArg List.length heq
    simp at hlength
    omega

end Handling

/-- **The entry waits until the queue is swapped.** -/
theorem Step.handling (hs : Step main s e s') (h : Handling ls s.loops)
    (habove : ls.length < s'.loops.length) : Handling ls s'.loops ∨ s'.pending = [] := by
  cases hs with
  | push | count | write | stop | others => exact .inl h
  | call => exact .inl (h.cons _)
  | swap => exact .inr rfl
  | handle hl =>
    rw [hl] at h
    exact .inl (h.goto fun hexec => by simpa [Phase.entries] using hexec)
  | callbacksEnd hl | cb hl | cbBack _ hl | handlerBack _ hl =>
    rw [hl] at h
    exact .inl (h.goto id)
  | enter hl | test hl _ | wait hl | batchEnd hl | ready hl _ =>
    rw [hl] at h
    exact .inl (h.goto fun hexec => (List.not_mem_nil hexec).elim)
  | leave hl _ | failed hl | throw _ hl _ =>
    rw [hl] at h
    exact .inl (h.pop habove)

/-- What is done with the functions is not taken back: those that are executed or in hand
stay so. -/
theorem Step.executed (hs : Step main s e s') (h : s.Ordered) (h' : s'.Ordered) :
    s.pushed <+: s'.pushed ∧
      s.executed ++ s.inHand <+: s'.executed ++ s'.inHand := by
  have hcases : (∃ f, s'.pushed = s.pushed ++ f ∧ s'.pending = s.pending ++ f) ∨
      s'.pushed = s.pushed ∧ s'.pending = [] := by
    cases hs with
    | push => exact .inl ⟨_, rfl, rfl⟩
    | swap => exact .inr ⟨rfl, rfl⟩
    | _ => exact .inl ⟨[], by simp, by simp⟩
  have horder := h.order
  have horder' := h'.order
  rcases hcases with ⟨f, hpushed, hpending⟩ | ⟨hpushed, hpending⟩
  · refine ⟨⟨f, hpushed.symm⟩, ?_⟩
    rw [hpushed, hpending, horder, ← List.append_assoc] at horder'
    rw [List.append_cancel_right (List.append_cancel_right horder')]
  · refine ⟨by rw [hpushed], ⟨s.pending, ?_⟩⟩
    rw [hpushed, hpending, List.append_nil] at horder'
    rw [← horder, horder']

/-- **When an array with the entry was handled, all that was pushed before is executed.** -/
theorem handled {events : List Entry} {es : List (Event τ φ)} {t : Context τ φ} (h : s.Ordered)
    (hl : s.loops = .batch events :: ls) (hexec : .exec ∈ events)
    (hr : Runs.run (step main) s es = some t) (hstays : Stays main ls s es)
    (ht : t.loops = .test :: ls) : s.pushed <+: t.executed := by
  have hinv : t.Ordered ∧ s.pushed <+: t.pushed ∧
      (Handling ls t.loops ∨ s.pushed <+: t.executed ++ t.inHand) := by
    refine Runs.run_invariant_along
      (I := fun t => t.Ordered ∧ s.pushed <+: t.pushed ∧
        (Handling ls t.loops ∨ s.pushed <+: t.executed ++ t.inHand))
      ?_ ⟨h, List.prefix_refl _, .inl ⟨[], .batch events, hl, hexec⟩⟩
      (hstays.returns.and hstays.above.along) hr
    rintro t e t' ⟨horder, hpushed, hdone⟩ ⟨hret, habove⟩ hstep
    have hs := Step.of_step hstep
    have horder' := hs.ordered horder hret
    obtain ⟨hgrows, hkept⟩ := hs.executed horder horder'
    refine ⟨horder', hpushed.trans hgrows, ?_⟩
    rcases hdone with hhandling | hdone
    · rcases hs.handling hhandling (habove t' hstep) with hhandling | hpending
      · exact .inl hhandling
      · -- the queue was swapped: all that is pushed is executed or in hand
        have hall := horder'.order
        rw [hpending, List.append_nil] at hall
        exact .inr (hall ▸ hpushed.trans hgrows)
    · exact .inr (hdone.trans hkept)
  obtain ⟨horder, -, hdone⟩ := hinv
  rcases hdone with hhandling | hdone
  · rw [ht] at hhandling
    exact hhandling.not_test.elim
  · have hnone : t.inHand = [] := by
      rw [inHand, ht, List.flatMap_cons, flatMap_inHand (horder.top ht).2]
      rfl
    rwa [hnone, List.append_nil] at hdone

/-! ## The eventfd -/

/-- The write of the first value succeeds on a new eventfd. -/
theorem eventfdWrite_one (counter : Nat) : 0 < (eventfdWrite counter 1).getD counter := by
  unfold eventfdWrite
  split
  · exact Nat.succ_pos _
  · dsimp
    omega

/-- A thread that goes on inside `exec` leaves the others where they are. -/
theorem update_execs_ne {execs : τ → Option Trigger} {t u : τ} {x : Option Trigger}
    {y : Trigger} (hu : execs u = some y) (ht : execs t ≠ some y) :
    Function.update execs t x u = some y := by
  rw [Function.update_of_ne]
  · exact hu
  · rintro rfl
    exact ht hu

/-- **Whoever pushed a function wakes the loop.** -/
theorem Step.awake (hs : Step main s e s') (h : s.Awake) : s'.Awake := by
  cases hs with
  | @push t f hfree hmain =>
    rcases h with hcounter | ⟨u, hu⟩ | ⟨hcont, hcounted, hpushed⟩
    · exact .inl hcounter
    · exact .inr (.inl ⟨u, update_execs_ne hu (by simp [hfree])⟩)
    · refine .inr (.inr ⟨hcont, fun u counter => ?_, fun _ => ⟨t, Function.update_self ..⟩⟩)
      by_cases hu : u = t
      · subst hu
        simp
      · simpa [hu] using hcounted u counter
  | @count t ht =>
    rcases h with hcounter | ⟨u, hu⟩ | ⟨hcont, hcounted, hpushed⟩
    · exact .inl hcounter
    · exact .inr (.inl ⟨u, update_execs_ne hu (by simp [ht])⟩)
    · refine .inr (.inl ⟨t, ?_⟩)
      simp [hcont]
  | @write t counter ht =>
    rcases h with hcounter | ⟨u, hu⟩ | ⟨hcont, hcounted, hpushed⟩
    · exact .inl (Nat.lt_of_lt_of_le hcounter (le_eventfdWrite ..))
    · by_cases hone : counter = 1
      · subst hone
        exact .inl (eventfdWrite_one _)
      · exact .inr (.inl ⟨u, update_execs_ne hu (by simpa [ht] using hone)⟩)
    · exact absurd ht (hcounted t counter)
  | _ => exact h

theorem Step.unused (hs : Step main s e s') (h : s.pushed = [] → s.counter = 0 ∧ s.NoExec)
    (hpushed : s'.pushed = []) : s'.counter = 0 ∧ s'.NoExec := by
  cases hs with
  | push => simp at hpushed
  | count ht | write ht =>
    have hnone := (h hpushed).2
    rw [hnone] at ht
    cases ht
  | _ => exact h hpushed

theorem awake (hr : Runs.run (step main) Context.new es = some s) : s.Awake :=
  Runs.run_invariant (fun _ _ _ h hstep => (Step.of_step hstep).awake h)
    (.inr (.inr ⟨rfl, by simp [Context.new], by simp [Context.new]⟩)) hr

theorem unused (hr : Runs.run (step main) Context.new es = some s) (hpushed : s.pushed = []) :
    s.counter = 0 ∧ s.NoExec :=
  Runs.run_invariant (I := fun s => s.pushed = [] → s.counter = 0 ∧ s.NoExec)
    (fun _ _ _ h hstep => (Step.of_step hstep).unused h) (fun _ => ⟨rfl, fun _ => rfl⟩) hr hpushed

/-! ## The loop alone -/

namespace Drains

theorem refl (s : Context τ φ) : Drains main s s :=
  ⟨⟨[], by simp, rfl⟩, rfl, rfl, rfl, rfl, id⟩

theorem trans {s t u : Context τ φ} (h : Drains main s t) (h' : Drains main t u) :
    Drains main s u where
  reaches := by
    obtain ⟨es, hes, hst⟩ := h.reaches
    obtain ⟨fs, hfs, htu⟩ := h'.reaches
    exact ⟨es ++ fs, List.forall_mem_append.mpr ⟨hes, hfs⟩, Runs.run_append_some.mpr ⟨t, hst, htu⟩⟩
  run := h'.run.trans h.run
  counter := h'.counter.trans h.counter
  execs := h'.execs.trans h.execs
  pushed := h'.pushed.trans h.pushed
  pending hp := h'.pending (h.pending hp)

/-- One step. -/
theorem one (he : e.ofLoop = true) (hstep : step main s e = some s') (hrun : s'.run = s.run)
    (hcounter : s'.counter = s.counter) (hexecs : s'.execs = s.execs)
    (hpushed : s'.pushed = s.pushed) (hpending : s.pending = [] → s'.pending = []) :
    Drains main s s' :=
  ⟨⟨[e], by simpa using he, by simp [Runs.run_cons, hstep]⟩, hrun, hcounter, hexecs, hpushed,
    hpending⟩

/-- A function does not leave the order on the way. -/
theorem ordered (h : Drains main s s') (hs : s.Ordered) : s'.Ordered := by
  obtain ⟨es, hes, hr⟩ := h.reaches
  have hrets : Runs.Along (step main) Returns s es := by
    clear h hs hr
    induction es generalizing s with
    | nil => trivial
    | cons e es ih =>
      obtain ⟨he, hes⟩ := List.forall_mem_cons.mp hes
      refine ⟨?_, fun t _ => ih hes⟩
      cases e <;> simp_all [Returns, Event.ofLoop]
  exact Runs.run_invariant_along (fun s e s' h hp hstep => (Step.of_step hstep).ordered h hp)
    hs hrets hr

end Drains

/-- The loop goes through the functions in hand. -/
theorem run_callbacks (cs : List φ) (rest : List Entry) (hfree : s.execs main = none)
    (hl : s.loops = .callbacks cs rest :: ls) :
    ∃ es, (∀ e ∈ es, e.ofLoop = true) ∧ Runs.run (step main) s es =
      some { s with executed := s.executed ++ cs, loops := .batch rest :: ls } := by
  induction cs generalizing s with
  | nil => exact ⟨[.code], by simp [Event.ofLoop], by simp [Runs.run_cons, step, code, hl]⟩
  | cons f cs ih =>
    -- `cb()`, and its return
    obtain ⟨es, hloop, hrun⟩ :=
      ih (s := { s with executed := s.executed ++ [f], loops := .callbacks cs rest :: ls })
        hfree rfl
    refine ⟨.code :: .back :: es, by simpa [Event.ofLoop] using hloop, ?_⟩
    have hcall : step main s .code =
        some { s with executed := s.executed ++ [f], loops := .running f cs rest :: ls } := by
      simp [step, code, hl]
    have hback : step main
        { s with executed := s.executed ++ [f], loops := .running f cs rest :: ls } .back =
        some { s with executed := s.executed ++ [f], loops := .callbacks cs rest :: ls } := by
      simp [step, hfree]
    rw [Runs.run_cons, hcall, Option.bind_some, Runs.run_cons, hback, Option.bind_some, hrun]
    simp

/-- The functions in hand are executed, and the loop goes on with its array. -/
theorem drains_callbacks {cs : List φ} {rest : List Entry} (hfree : s.execs main = none)
    (hl : s.loops = .callbacks cs rest :: ls) :
    ∃ s', Drains main s s' ∧ s'.loops = .batch rest :: ls := by
  obtain ⟨es, hloop, hrun⟩ := run_callbacks cs rest hfree hl
  exact ⟨_, ⟨⟨es, hloop, hrun⟩, rfl, rfl, rfl, rfl, id⟩, rfl⟩

/-- The array is handled; if it has the entry of the eventfd, the queue is empty then. -/
theorem drains_batch {events : List Entry} (hfree : s.execs main = none)
    (hl : s.loops = .batch events :: ls) :
    ∃ s', Drains main s s' ∧ s'.loops = .test :: ls ∧ (.exec ∈ events → s'.pending = []) := by
  induction events generalizing s with
  | nil =>
    have hstep : step main s .code = some { s with loops := .test :: ls } := by
      simp [step, code, hl]
    exact ⟨_, .one rfl hstep rfl rfl rfl rfl id, rfl, by simp⟩
  | cons x rest ih =>
    cases x with
    | exec =>
      have hswap : step main s .code =
          some { s with pending := [], loops := .callbacks s.pending rest :: ls } := by
        simp [step, code, hl]
      obtain ⟨t, hexecuted, hbatch⟩ := drains_callbacks
        (s := { s with pending := [], loops := .callbacks s.pending rest :: ls }) hfree rfl
      obtain ⟨s', hrest, hloops, -⟩ := ih (hexecuted.execs ▸ hfree) hbatch
      exact ⟨s', (Drains.one rfl hswap rfl rfl rfl rfl fun _ => rfl).trans (hexecuted.trans hrest),
        hloops, fun _ => hrest.pending (hexecuted.pending rfl)⟩
    | other =>
      have hcall : step main s .code = some { s with loops := .handler rest :: ls } := by
        simp [step, code, hl]
      have hback : step main { s with loops := .handler rest :: ls } .back =
          some { s with loops := .batch rest :: ls } := by
        simp [step, hfree]
      obtain ⟨s', hrest, hloops, hempty⟩ :=
        ih (s := { s with loops := .batch rest :: ls }) hfree rfl
      refine ⟨s', (Drains.one rfl hcall rfl rfl rfl rfl id).trans
        ((Drains.one rfl hback rfl rfl rfl rfl id).trans hrest), hloops, fun hmem => ?_⟩
      exact hempty (by simpa using hmem)

/-- An activation of the loop that is not stopped gets to `epoll_wait`. -/
theorem drains_blocked (hrun : s.run = true) (hfree : s.execs main = none)
    (hl : s.loops = p :: ls) : ∃ s', Drains main s s' ∧ s'.loops = .blocked :: ls := by
  -- from the three statements before `epoll_wait`
  have fromWait : ∀ {t : Context τ φ}, t.loops = .wait :: ls →
      ∃ s', Drains main t s' ∧ s'.loops = .blocked :: ls := by
    intro t ht
    have hstep : step main t .code = some { t with loops := .blocked :: ls } := by
      simp [step, code, ht]
    exact ⟨_, .one rfl hstep rfl rfl rfl rfl id, rfl⟩
  have fromTest : ∀ {t : Context τ φ}, t.run = true → t.loops = .test :: ls →
      ∃ s', Drains main t s' ∧ s'.loops = .blocked :: ls := by
    intro t hrun ht
    have hstep : step main t .code = some { t with loops := .wait :: ls } := by
      simp [step, code, ht, hrun]
    obtain ⟨s', hdrains, hloops⟩ := fromWait (t := { t with loops := .wait :: ls }) rfl
    exact ⟨s', (Drains.one rfl hstep rfl rfl rfl rfl id).trans hdrains, hloops⟩
  have fromBatch : ∀ {t : Context τ φ} {events : List Entry}, t.run = true →
      t.execs main = none → t.loops = .batch events :: ls →
      ∃ s', Drains main t s' ∧ s'.loops = .blocked :: ls := by
    intro t events hrun hfree ht
    obtain ⟨u, hbatch, hloops, -⟩ := drains_batch hfree ht
    obtain ⟨s', hdrains, hblocked⟩ := fromTest (hbatch.run.trans hrun) hloops
    exact ⟨s', hbatch.trans hdrains, hblocked⟩
  have fromCallbacks : ∀ {t : Context τ φ} {cs : List φ} {rest : List Entry}, t.run = true →
      t.execs main = none → t.loops = .callbacks cs rest :: ls →
      ∃ s', Drains main t s' ∧ s'.loops = .blocked :: ls := by
    intro t cs rest hrun hfree ht
    obtain ⟨u, hexecuted, hloops⟩ := drains_callbacks hfree ht
    obtain ⟨s', hdrains, hblocked⟩ :=
      fromBatch (hexecuted.run.trans hrun) (hexecuted.execs ▸ hfree) hloops
    exact ⟨s', hexecuted.trans hdrains, hblocked⟩
  cases p with
  | entered =>
    have hstep : step main s .code = some { s with run := true, loops := .test :: ls } := by
      simp [step, code, hl]
    obtain ⟨s', hdrains, hloops⟩ :=
      fromTest (t := { s with run := true, loops := .test :: ls }) rfl rfl
    exact ⟨s', (Drains.one rfl hstep hrun.symm rfl rfl rfl id).trans hdrains, hloops⟩
  | test => exact fromTest hrun hl
  | wait => exact fromWait hl
  | blocked => exact ⟨s, .refl s, hl⟩
  | batch events => exact fromBatch hrun hfree hl
  | callbacks cs rest => exact fromCallbacks hrun hfree hl
  | running f cs rest =>
    have hstep : step main s .back = some { s with loops := .callbacks cs rest :: ls } := by
      simp [step, hfree, hl]
    obtain ⟨s', hdrains, hloops⟩ :=
      fromCallbacks (t := { s with loops := .callbacks cs rest :: ls }) hrun hfree rfl
    exact ⟨s', (Drains.one rfl hstep rfl rfl rfl rfl id).trans hdrains, hloops⟩
  | handler rest =>
    have hstep : step main s .back = some { s with loops := .batch rest :: ls } := by
      simp [step, hfree, hl]
    obtain ⟨s', hdrains, hloops⟩ :=
      fromBatch (t := { s with loops := .batch rest :: ls }) hrun hfree rfl
    exact ⟨s', (Drains.one rfl hstep rfl rfl rfl rfl id).trans hdrains, hloops⟩

/-- **The loop executes what was pushed**, if it is not stopped. -/
theorem drains (horder : s.Ordered) (hawake : s.Awake) (hfree : s.NoExec) (hrun : s.run = true)
    (hl : s.loops ≠ []) : ∃ s', Drains main s s' ∧ s'.executed = s.pushed := by
  obtain ⟨p, ls, hloops⟩ := List.exists_cons_of_ne_nil hl
  obtain ⟨t, hdrains, hblocked⟩ := drains_blocked hrun (hfree main) hloops
  have htop := (hdrains.ordered horder).top hblocked
  by_cases hpending : t.pending = []
  · refine ⟨t, hdrains, ?_⟩
    have hall := htop.1
    rw [hpending, hdrains.pushed] at hall
    simpa [Phase.inHand] using hall.symm
  · -- something waits, so the eventfd is readable
    have hpushed : s.pushed ≠ [] := by
      rintro hnone
      have hall := htop.1
      rw [hdrains.pushed, hnone] at hall
      simp_all
    have hcounter : 0 < t.counter := hdrains.counter ▸ counter_pos hawake hfree hpushed
    have hready : step main t (.ready [.exec]) =
        some { t with loops := .batch [.exec] :: ls } := by
      simp [step, hblocked, Reports, hcounter]
    obtain ⟨s', hbatch, htest, hempty⟩ := drains_batch
      (s := { t with loops := .batch [.exec] :: ls }) (hdrains.execs ▸ hfree main) rfl
    have hall := hdrains.trans ((Drains.one rfl hready rfl rfl rfl rfl id).trans hbatch)
    refine ⟨s', hall, ?_⟩
    have horder' := ((hall.ordered horder).top htest).1
    rw [hempty (by simp), hall.pushed] at horder'
    simpa [Phase.inHand] using horder'.symm

/-- **Functions are executed in the order they were pushed in, and the loop does not
sleep on them**, in every interleaving of any threads in which no function throws or
enters `wait_for_input`. -/
theorem executed_in_order (hr : Runs.run (step main) Context.new es = some s)
    (hret : Runs.Along (step main) Returns Context.new es) : InOrder main s := by
  have hawake := awake hr
  have horder : s.Ordered := Runs.run_invariant_along
    (fun _ _ _ h hp hstep => (Step.of_step hstep).ordered h hp)
    ⟨rfl, by simp [Context.new]⟩ hret hr
  refine ⟨horder.order, fun hfree hpending => counter_pos hawake hfree ?_,
    fun _ _ hl hexec _ _ hr hstays ht => handled horder hl hexec hr hstays ht,
    fun hfree hrun hl => drains horder hawake hfree hrun hl⟩
  rw [horder.order]
  simp [hpending]

/-- **An idle loop sleeps only if `exec` was never called**: nothing takes back what was
written to the eventfd. -/
theorem idle_counter_iff (hr : Runs.run (step main) Context.new es = some s) (hidle : s.Idle) :
    s.counter = 0 ↔ s.pushed = [] := by
  constructor
  · intro hcounter
    by_contra hpushed
    have hpos := counter_pos (awake hr) hidle.2.1 hpushed
    omega
  · intro hpushed
    exact (unused hr hpushed).1

end

/-- The thread of the loop is `true`; the other one pushes 7 while the loop is blocked,
and 7 pushes 8 while it runs. -/
def twoThreads : List (Event Bool Nat) :=
  [.call, .code, .code, .code, .push false 7, .count false, .write false, .ready [.exec],
    .code, .code, .push true 8, .count true, .write true, .back, .code, .code,
    .code, .code, .ready [.exec], .code, .code, .back, .code, .code]

theorem executed_in_order_twoThreads :
    ∃ s, Runs.run (step true) Context.new twoThreads = some s ∧ s.executed = [7, 8] ∧
      InOrder true s := by
  obtain ⟨s, hr, hexecuted⟩ : ∃ s, Runs.run (step true) Context.new twoThreads = some s ∧
      s.executed = [7, 8] :=
    Runs.exists_run (by decide)
  exact ⟨s, hr, hexecuted, executed_in_order hr (by decide)⟩

/-- Both functions are executed and nothing is left to do, but the two writes to the eventfd
are still in its counter. -/
theorem idle_counter_iff_twoThreads :
    ∃ s, Runs.run (step true) Context.new twoThreads = some s ∧ s.Idle ∧ s.pushed = [7, 8] ∧
      s.counter = 3 ∧ (s.counter = 0 ↔ s.pushed = []) := by
  obtain ⟨s, hr, hidle, hpushed, hcounter⟩ :
      ∃ s, Runs.run (step true) Context.new twoThreads = some s ∧ s.Idle ∧ s.pushed = [7, 8] ∧
        s.counter = 3 :=
    Runs.exists_run (by decide)
  exact ⟨s, hr, hidle, hpushed, hcounter, idle_counter_iff hr hidle⟩

/-- Everything is executed, and `epoll_wait` reports the eventfd once more. -/
theorem idle_woken :
    ∃ s, Runs.run (step true) Context.new twoThreads = some s ∧ s.Idle ∧ s.counter ≠ 0 ∧
      (Runs.run (step true) s [.code, .code, .ready [.exec]]).isSome = true :=
  Runs.exists_run (by decide)

end Exec
end Linux
end AcppNetwork
