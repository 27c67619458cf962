import AcppNetwork.LinuxExec

/-!
# `stop` from another thread

`stop` only clears `run`: it does not wake `epoll_wait`, and `wait_for_input` sets `run`
again when it starts.  A `stop` that lands between the call of `wait_for_input` and its
first statement is overwritten, and one that lands after the test of `while (run)` is
heard only when a descriptor becomes ready.  `stop_heard` says that these are the only
places where it is lost, `unheard_lost` that at each of them it can be.
-/
namespace AcppNetwork
namespace Linux
namespace Exec

variable {τ φ : Type}

namespace Phase

/-- It stands before `run = true`. -/
def isEntered : Phase φ → Bool
  | entered => true
  | _ => false

/-- The loop has read `run` and has not come back from `epoll_wait`. -/
def waits : Phase φ → Bool
  | wait | blocked => true
  | _ => false

end Phase

/-- `stop` was called after the last call of `wait_for_input`, and the loop sleeps with
nothing to wake it, or is about to call `epoll_wait` with `run` set. -/
def Lost (s : Context τ φ) : Prop :=
  s.stopped = true ∧
    match s.loops with
    | .blocked :: _ => ¬ s.Ready
    | .wait :: _ => s.run = true
    | _ => False

/-- The condition: `stop` is not called between the call of `wait_for_input` and
`run = true`, and if it is called after the loop's test then a descriptor is ready, and
one stays ready until `epoll_wait` returns. -/
def Hears (s : Context τ φ) : Event τ φ → Prop
  | .stop => ∀ p ∈ s.loops.head?, p.isEntered = false ∧ (p.waits = true → s.Ready)
  | .others n =>
      ∀ p ∈ s.loops.head?, p.waits = true → s.stopped = true → { s with others := n }.Ready
  | _ => True

instance (s : Context τ φ) : Decidable (Lost s) := by
  unfold Lost
  split <;> infer_instance

instance (s : Context τ φ) (e : Event τ φ) : Decidable (Hears s e) := by
  rcases e with ⟨⟩ <;> unfold Hears <;> infer_instance

/-- After a `stop` the flag is clear, and the loop does not overwrite it, nor sleep for
good. -/
structure Heard (s : Context τ φ) : Prop where
  run : s.stopped = true → s.run = false
  top : s.stopped = true →
    ∀ p ∈ s.loops.head?, p.isEntered = false ∧ (p.waits = true → s.Ready)
  /-- The outer activations of the loop are in a callback. -/
  outer : ∀ p ∈ s.loops.tail, p.callsOut = true

section
variable {s s' : Context τ φ} {e : Event τ φ} {es : List (Event τ φ)} {p : Phase φ}
  {ls : List (Phase φ)}

theorem not_entered_of_callsOut (h : p.callsOut = true) :
    p.isEntered = false ∧ (p.waits = true → s.Ready) := by
  cases p with
  | running | handler => exact ⟨rfl, fun h => by cases h⟩
  | _ => cases h

/-- The innermost activation goes on at `p`, where nothing can be missed. -/
theorem Heard.goto (h : Heard s) (hl : s.loops = p :: ls) {q : Phase φ}
    (hq : q.isEntered = false) (hwaits : q.waits = false) (hs : s'.loops = q :: ls)
    (hstopped : s'.stopped = s.stopped) (hrun : s'.run = s.run) : Heard s' := by
  have houter := h.outer
  rw [hl] at houter
  refine ⟨fun hstop => ?_, fun _ r hr => ?_, ?_⟩
  · rw [hrun]
    exact h.run (hstopped ▸ hstop)
  · rw [hs] at hr
    obtain rfl := Option.some.inj hr
    exact ⟨hq, fun hw => by rw [hwaits] at hw; cases hw⟩
  · rw [hs]
    exact houter

/-- The innermost activation ends. -/
theorem Heard.pop (h : Heard s) (hl : s.loops = p :: ls) : Heard { s with loops := ls } := by
  have houter := h.outer
  rw [hl] at houter
  refine ⟨h.run, fun _ q hq => not_entered_of_callsOut (houter q (List.mem_of_mem_head? hq)),
    fun q hq => houter q (List.mem_of_mem_tail hq)⟩

variable [DecidableEq τ] {main : τ}

/-- **A step that meets the condition keeps `stop` heard.** -/
theorem Step.heard (hs : Step main s e s') (h : Heard s) (hp : Hears s e) : Heard s' := by
  cases hs with
  | push | count => exact ⟨h.run, h.top, h.outer⟩
  | @write t counter ht =>
    refine ⟨h.run, fun hstop q hq => ⟨(h.top hstop q hq).1, fun hwaits => ?_⟩, h.outer⟩
    rcases (h.top hstop q hq).2 hwaits with hcounter | hothers
    · exact .inl (Nat.lt_of_lt_of_le hcounter (le_eventfdWrite ..))
    · exact .inr hothers
  | stop => exact ⟨fun _ => rfl, fun _ => hp, h.outer⟩
  | others =>
    exact ⟨h.run, fun hstop q hq => ⟨(h.top hstop q hq).1, fun hw => hp q hq hw hstop⟩, h.outer⟩
  | call _ hmain =>
    refine ⟨fun hstop => (by cases hstop), fun hstop => (by cases hstop), fun q hq => ?_⟩
    change q ∈ s.loops at hq
    cases hl : s.loops with
    | nil =>
      rw [hl] at hq
      cases hq
    | cons p ls =>
      have houter := h.outer
      rw [hl] at houter hq
      rw [Context.mainCalls, hl] at hmain
      rcases List.mem_cons.mp hq with rfl | hq
      · exact hmain
      · exact houter q hq
  | enter hl =>
    -- nobody stopped the loop before `run = true`
    have hfresh : s.stopped = true → False := fun hstop => by
      have hentered := (h.top hstop .entered (by rw [hl]; rfl)).1
      cases hentered
    have houter := h.outer
    rw [hl] at houter
    exact ⟨fun hstop => (hfresh hstop).elim, fun hstop => (hfresh hstop).elim, houter⟩
  | test hl hrun =>
    have hfresh : s.stopped = true → False := fun hstop => by
      rw [h.run hstop] at hrun
      cases hrun
    have houter := h.outer
    rw [hl] at houter
    exact ⟨fun hstop => (hfresh hstop).elim, fun hstop => (hfresh hstop).elim, houter⟩
  | wait hl =>
    have houter := h.outer
    rw [hl] at houter
    refine ⟨h.run, fun hstop q hq => ?_, houter⟩
    obtain rfl := Option.some.inj hq
    exact ⟨rfl, fun _ => (h.top hstop .wait (by rw [hl]; rfl)).2 rfl⟩
  | leave hl _ | failed hl | throw _ hl _ => exact h.pop hl
  | batchEnd hl | swap hl | handle hl | callbacksEnd hl | cb hl | ready hl _ | cbBack _ hl
  | handlerBack _ hl => exact h.goto hl rfl rfl rfl rfl rfl

/-- **When a `stop` is not lost.**  In every interleaving in which `stop` is called
neither between the call of `wait_for_input` and `run = true`, nor between the loop's
test and the return of `epoll_wait` unless a descriptor is ready then and until that
return, the loop never sleeps or goes back to sleep after a `stop`. -/
theorem stop_heard (hr : Runs.run (step main) Context.new es = some s)
    (hp : Runs.Along (step main) Hears Context.new es) : ¬ Lost s := by
  have hheard : Heard s := Runs.run_invariant_along
    (fun _ _ _ h hp hstep => (Step.of_step hstep).heard h hp)
    ⟨by simp [Context.new], by simp [Context.new], by simp [Context.new]⟩ hp hr
  rintro ⟨hstop, hlost⟩
  split at hlost
  · rename_i hl
    exact hlost ((hheard.top hstop .blocked (by rw [hl]; rfl)).2 rfl)
  · rw [hheard.run hstop] at hlost
    cases hlost
  · exact hlost

/-- **Where it can be lost.**  After every step that does not meet the condition the
loop's thread gets by itself to where the `stop` is lost. -/
theorem unheard_lost (hstep : step main s e = some s') (hp : ¬ Hears s e) :
    ∃ es t, (∀ e ∈ es, e = .code) ∧ Runs.run (step main) s' es = some t ∧ Lost t := by
  -- a stopped loop with nothing ready, before `epoll_wait` or in it
  have sleeps : ∀ {u : Context τ φ} {q : Phase φ}, u.stopped = true → u.loops.head? = some q →
      q.waits = true → ¬ u.Ready →
      ∃ es t, (∀ e ∈ es, e = .code) ∧ Runs.run (step main) u es = some t ∧ Lost t := by
    intro u q hstop hq hwaits hready
    obtain ⟨ls, hl⟩ := List.head?_eq_some_iff.mp hq
    cases q with
    | wait =>
      refine ⟨[.code], { u with loops := .blocked :: ls }, by simp, ?_, hstop, hready⟩
      simp [Runs.run_cons, step, Context.code, hl]
    | blocked =>
      refine ⟨[], u, by simp, rfl, hstop, ?_⟩
      rw [hl]
      exact hready
    | _ => cases hwaits
  cases Step.of_step hstep with
  | stop =>
    simp only [Hears, not_forall] at hp
    obtain ⟨q, hq, hbad⟩ := hp
    by_cases hentered : q.isEntered = true
    · obtain ⟨ls, hl⟩ := List.head?_eq_some_iff.mp hq
      cases q with
      | entered =>
        refine ⟨[.code, .code], { s with run := true, stopped := true, loops := .wait :: ls },
          by simp, ?_, rfl, rfl⟩
        simp [Runs.run_cons, step, Context.code, hl]
      | _ => cases hentered
    · rw [Bool.not_eq_true] at hentered
      simp only [hentered, true_and, Classical.not_imp] at hbad
      exact sleeps rfl hq hbad.1 hbad.2
  | others =>
    simp only [Hears, not_forall] at hp
    obtain ⟨q, hq, hwaits, hstop, hready⟩ := hp
    exact sleeps hstop hq hwaits hready
  | _ => exact absurd trivial hp

end

/-- A `stop` of another thread while `epoll_wait` has something to report. -/
theorem stop_heard_ready :
    ∃ s, Runs.run (step true) (Context.new : Context Bool Nat)
        [.call, .code, .code, .code, .others 1, .stop, .ready [.other], .code, .back, .code]
        = some s ∧ s.stopped = true ∧ ¬ Lost s := by
  obtain ⟨s, hr, hstop⟩ :
      ∃ s, Runs.run (step true) (Context.new : Context Bool Nat)
        [.call, .code, .code, .code, .others 1, .stop, .ready [.other], .code, .back, .code]
        = some s ∧ s.stopped = true :=
    Runs.exists_run (by decide)
  exact ⟨s, hr, hstop, stop_heard hr (by decide)⟩

/-- One while it has not. -/
theorem stop_lost :
    ∃ s, Runs.run (step true) (Context.new : Context Bool Nat) [.call, .code, .code, .code, .stop]
        = some s ∧ Lost s :=
  Runs.exists_run (by decide)

end Exec
end Linux
end AcppNetwork
