import AcppNetwork.Runs
import Mathlib

/-!
# Runs without an end

What a system must do some time is stated of its **endless runs** (`Endless`): at every
instant there is a state and an event taken in it.  The beginnings of an endless run are
runs (`Endless.run_range`), so what holds of all runs holds at every instant.

Endless runs are made from a choice of the next event that keeps a property of the state
(`exists_following`), and put behind a run (`exists_after`).
-/
namespace Runs

variable {σ ε : Type} {step : σ → ε → Option σ} {s s' : σ} {e : ε}

/-- A run that goes on for ever. -/
structure Endless (step : σ → ε → Option σ) (s : σ) where
  state : Nat → σ
  event : Nat → ε
  zero : state 0 = s
  next : ∀ n, step (state n) (event n) = some (state (n + 1))

namespace Endless

/-- The first `n` events are a run. -/
theorem run_range (r : Endless step s) (n : Nat) :
    run step s ((List.range n).map r.event) = some (r.state n) := by
  induction n with
  | zero => exact congrArg some r.zero.symm
  | succ n ih =>
    rw [List.range_succ, List.map_append]
    refine run_append_some.mpr ⟨r.state n, ih, ?_⟩
    exact run_cons_some.mpr ⟨r.state (n + 1), r.next n, rfl⟩

/-- What every step preserves holds at every instant. -/
theorem invariant {I : σ → Prop} (r : Endless step s)
    (hstep : ∀ s e s', I s → step s e = some s' → I s') (hs : I s) (n : Nat) : I (r.state n) :=
  run_invariant hstep hs (r.run_range n)

/-- A step, and an endless run after it. -/
def cons (h : step s e = some s') (r : Endless step s') : Endless step s where
  state
    | 0 => s
    | n + 1 => r.state n
  event
    | 0 => e
    | n + 1 => r.event n
  zero := rfl
  next
    | 0 => h.trans (congrArg some r.zero.symm)
    | n + 1 => r.next n

/-- A run, and an endless run after it. -/
theorem exists_after {es : List ε} {t : σ} (hr : run step s es = some t) (r : Endless step t) :
    ∃ r' : Endless step s,
      (∀ n, r'.state (es.length + n) = r.state n ∧ r'.event (es.length + n) = r.event n) ∧
      (∀ n (h : n < es.length), r'.event n = es[n]) ∧
      ∀ P : σ → ε → Prop, Along step P s es → ∀ n, n < es.length → P (r'.state n) (r'.event n) := by
  induction es generalizing s with
  | nil =>
    obtain rfl : s = t := Option.some.inj hr
    refine ⟨r, fun n => ?_, fun n h => absurd h (Nat.not_lt_zero n),
      fun P _ n h => absurd h (Nat.not_lt_zero n)⟩
    rw [List.length_nil, Nat.zero_add]
    exact ⟨rfl, rfl⟩
  | cons e es ih =>
    obtain ⟨u, hu, hut⟩ := run_cons_some.mp hr
    obtain ⟨r', hafter, hevents, halong⟩ := ih hut
    refine ⟨r'.cons hu, fun n => ?_, fun n h => ?_, fun P hp n h => ?_⟩
    · rw [List.length_cons, Nat.add_right_comm]
      exact hafter n
    · cases n with
      | zero => rfl
      | succ n => exact hevents n (Nat.lt_of_succ_lt_succ h)
    · cases n with
      | zero => exact hp.1
      | succ n => exact halong P (hp.2 u hu) n (Nat.lt_of_succ_lt_succ h)

/-- If the chosen event can be taken in every state satisfying `P`, and leads to such a
state, it can be taken for ever. -/
theorem exists_following {P : σ → Prop} (event : σ → ε)
    (h : ∀ s, P s → ∃ s', step s (event s) = some s' ∧ P s') (hs : P s) :
    ∃ r : Endless step s, ∀ n, P (r.state n) ∧ r.event n = event (r.state n) := by
  choose! next hnext hP using h
  have hall : ∀ n, P (next^[n] s) := by
    intro n
    induction n with
    | zero => exact hs
    | succ n ih =>
      rw [Function.iterate_succ_apply']
      exact hP _ ih
  refine ⟨⟨fun n => next^[n] s, fun n => event (next^[n] s), rfl, fun n => ?_⟩,
    fun n => ⟨hall n, rfl⟩⟩
  rw [Function.iterate_succ_apply']
  exact hnext _ (hall n)

end Endless
end Runs
