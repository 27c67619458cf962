import AcppNetwork.LinuxExec
import Mathlib

/-!
# The values written to the eventfd

`trigger` counts its calls in a static counter, one for all contexts of the process, and
writes the count to the eventfd of its context, where the values add up: nothing reads
them.  A write for which there is no room fails, and `exec` throws although the function is
in the queue already.  `writes_succeed_iff` says how far it goes.

A `Process` is any number of contexts that share the counter and are otherwise on their own:
the events of each are those of `Exec.step` and interleave as they like.
-/
namespace AcppNetwork
namespace Linux
namespace Exec

/-- The contexts of a process and `cont`. -/
structure Process (ι τ φ : Type) where
  contexts : ι → Context τ φ
  cont : Nat

namespace Process

variable {ι τ φ : Type}

/-- A context with the counter as it is now. -/
def context (p : Process ι τ φ) (i : ι) : Context τ φ := { p.contexts i with cont := p.cont }

def new : Process ι τ φ := ⟨fun _ => .new, 0⟩

variable [DecidableEq ι] [DecidableEq τ] (main : ι → τ)

/-- One event of one context. -/
def step (p : Process ι τ φ) (e : ι × Event τ φ) : Option (Process ι τ φ) :=
  (Exec.step (main e.1) (p.context e.1) e.2).map fun s =>
    ⟨Function.update p.contexts e.1 s, s.cont⟩

/-- The write of the eventfd fails, and with it the call of `exec`. -/
def Fails (p : Process ι τ φ) : ι × Event τ φ → Prop
  | (i, .write t) => ∃ counter, (p.contexts i).execs t = some (.counted counter) ∧
      eventfdWrite (p.contexts i).counter counter = none
  | _ => False

end Process

/-- A process with one context is that context. -/
theorem Process.run_one {τ φ : Type} [DecidableEq τ] {main : τ} {s s' : Context τ φ}
    {es : List (Event τ φ)} (hr : Runs.run (Exec.step main) s es = some s') :
    Runs.run (Process.step fun _ : Unit => main) ⟨fun _ => s, s.cont⟩ (es.map fun e => ((), e)) =
      some ⟨fun _ => s', s'.cont⟩ := by
  induction es generalizing s with
  | nil =>
    obtain rfl := Option.some.inj hr
    rfl
  | cons e es ih =>
    obtain ⟨t, ht, hrest⟩ := Runs.run_cons_some.mp hr
    refine Runs.run_cons_some.mpr ⟨⟨fun _ => t, t.cont⟩, ?_, ih hrest⟩
    refine Option.map_eq_some_iff.mpr ⟨t, ht, ?_⟩
    congr 1

/-! ## What the calls add up to -/

/-- What a run says of the calls of `exec`: how many have counted, the position among them of
the call that a thread is in, and the sum of the positions of those that have written to
the eventfd of a context. -/
structure Tally (ι τ : Type) where
  calls : Nat
  position : ι → τ → Nat
  total : ι → Nat

namespace Tally

variable {ι τ φ : Type} [DecidableEq ι] [DecidableEq τ]

def start : Tally ι τ := ⟨0, fun _ _ => 0, fun _ => 0⟩

/-- The tally after an event; a position is a 64-bit number. -/
def next (x : Tally ι τ) : ι × Event τ φ → Tally ι τ
  | (i, .count t) =>
      { x with
        calls := x.calls + 1
        position := Function.update x.position i
          (Function.update (x.position i) t ((x.calls + 1) % 2 ^ 64)) }
  | (i, .write t) => { x with total := Function.update x.total i (x.total i + x.position i t) }
  | _ => x

/-- The tally of a run. -/
def of (es : List (ι × Event τ φ)) : Tally ι τ := es.foldl next start

theorem le_next_total (x : Tally ι τ) (e : ι × Event τ φ) (i : ι) :
    x.total i ≤ (x.next e).total i := by
  obtain ⟨j, e⟩ := e
  cases e with
  | write t =>
    show x.total i ≤ Function.update x.total j _ i
    by_cases hij : i = j
    · subst hij
      rw [Function.update_self]
      exact Nat.le_add_right ..
    · rw [Function.update_of_ne hij]
  | _ => exact Nat.le_refl _

theorem le_foldl_total (x : Tally ι τ) (es : List (ι × Event τ φ)) (i : ι) :
    x.total i ≤ (es.foldl next x).total i := by
  induction es generalizing x with
  | nil => exact Nat.le_refl _
  | cons e es ih => exact Nat.le_trans (x.le_next_total e i) (ih (x.next e))

end Tally

/-- As long as no write has failed, the eventfds and the threads have what the tally says. -/
structure Agrees {ι τ φ : Type} (p : Process ι τ φ) (x : Tally ι τ) : Prop where
  cont : p.cont = x.calls % 2 ^ 64
  position : ∀ i t counter, (p.contexts i).execs t = some (.counted counter) →
    x.position i t = counter
  counter : ∀ i, (p.contexts i).counter = x.total i
  room : ∀ i, x.total i ≤ 2 ^ 64 - 2

section
variable {ι τ φ : Type} [DecidableEq ι] [DecidableEq τ] {main : ι → τ} {p p' : Process ι τ φ}
  {x : Tally ι τ} {e : ι × Event τ φ} {es : List (ι × Event τ φ)}

open Process

omit [DecidableEq τ] in
/-- One context and its part of the tally change. -/
theorem Agrees.update {i : ι} {s : Context τ φ} {y : Tally ι τ} (h : Agrees p x)
    (hpos : ∀ j, j ≠ i → y.position j = x.position j) (htot : ∀ j, j ≠ i → y.total j = x.total j)
    (hcont : s.cont = y.calls % 2 ^ 64)
    (hexecs : ∀ t counter, s.execs t = some (.counted counter) → y.position i t = counter)
    (hcounter : s.counter = y.total i) (hroom : y.total i ≤ 2 ^ 64 - 2) :
    Agrees ⟨Function.update p.contexts i s, s.cont⟩ y := by
  have hother : ∀ j, j ≠ i → Function.update p.contexts i s j = p.contexts j :=
    fun j hij => Function.update_of_ne hij ..
  refine ⟨hcont, fun j t counter hj => ?_, fun j => ?_, fun j => ?_⟩
  · by_cases hij : j = i
    · subst hij
      exact hexecs t counter (by simpa using hj)
    · rw [hpos j hij]
      exact h.position j t counter (by simpa [hij] using hj)
  · by_cases hij : j = i
    · subst hij
      simpa using hcounter
    · rw [htot j hij]
      simpa [hij] using h.counter j
  · by_cases hij : j = i
    · subst hij
      exact hroom
    · rw [htot j hij]
      exact h.room j

/-- A thread of which the tally says nothing new. -/
theorem execs_of_update {execs : τ → Option Trigger} {t u : τ} {y : Option Trigger}
    {counter : Nat} (hu : Function.update execs t y u = some (.counted counter))
    (hy : y ≠ some (.counted counter)) : u ≠ t ∧ execs u = some (.counted counter) := by
  by_cases hut : u = t
  · subst hut
    rw [Function.update_self] at hu
    exact absurd hu hy
  · rw [Function.update_of_ne hut] at hu
    exact ⟨hut, hu⟩

/-- **The tally is kept by every step but a failing write.** -/
theorem Agrees.step (h : Agrees p x) (hstep : Process.step main p e = some p')
    (hok : ¬ Fails p e) : Agrees p' (x.next e) := by
  obtain ⟨i, e⟩ := e
  obtain ⟨s, hs, rfl⟩ := Option.map_eq_some_iff.mp hstep
  cases Step.of_step hs with
  | @count t ht =>
    have hcont : (p.cont + 1) % 2 ^ 64 = (x.calls + 1) % 2 ^ 64 := by
      rw [h.cont, Nat.mod_add_mod]
    refine h.update (fun j hij => Function.update_of_ne hij ..) (fun _ _ => rfl) hcont
      (fun u counter hu => ?_) (h.counter i) (h.room i)
    change Function.update (p.contexts i).execs t (some (.counted ((p.cont + 1) % 2 ^ 64))) u =
      some (.counted counter) at hu
    show Function.update x.position i _ i u = counter
    rw [Function.update_self]
    by_cases hut : u = t
    · subst hut
      have hvalue : (p.cont + 1) % 2 ^ 64 = counter := by
        rw [Function.update_self] at hu
        exact Trigger.counted.inj (Option.some.inj hu)
      rw [Function.update_self, ← hcont, hvalue]
    · rw [Function.update_of_ne hut]
      rw [Function.update_of_ne hut] at hu
      exact h.position i u counter hu
  | @write t counter ht =>
    -- there is room, so what the thread has in hand is added
    have hposition : x.position i t = counter := h.position i t counter ht
    have hfits : (p.contexts i).counter + counter ≤ 2 ^ 64 - 2 := by
      by_contra hnot
      exact hok ⟨counter, ht, if_neg hnot⟩
    have htotal : (x.next ((i, .write t) : ι × Event τ φ)).total i = x.total i + counter := by
      show Function.update x.total i _ i = _
      rw [Function.update_self, hposition]
    have hwritten : (eventfdWrite (p.contexts i).counter counter).getD (p.contexts i).counter =
        (p.contexts i).counter + counter := by
      rw [eventfdWrite, if_pos hfits]
      rfl
    refine h.update (fun _ _ => rfl) (fun j hij => Function.update_of_ne hij ..) h.cont
      (fun u value hu => ?_) ?_ ?_
    · exact h.position i u value (execs_of_update hu (by simp)).2
    · rw [htotal, ← h.counter i]
      exact hwritten
    · rw [htotal, ← h.counter i]
      exact hfits
  | @push t f hfree hmain =>
    refine h.update (fun _ _ => rfl) (fun _ _ => rfl) h.cont (fun u counter hu => ?_)
      (h.counter i) (h.room i)
    exact h.position i u counter (execs_of_update hu (by simp)).2
  | _ =>
    exact h.update (fun _ _ => rfl) (fun _ _ => rfl) h.cont
      (fun u counter hu => h.position i u counter hu) (h.counter i) (h.room i)

/-- A write fails exactly if the positions add up to too much. -/
theorem Agrees.not_room (h : Agrees p x) (hfails : Fails p e) :
    ∃ i, 2 ^ 64 - 2 < (x.next e).total i := by
  obtain ⟨i, e⟩ := e
  cases e with
  | write t =>
    obtain ⟨counter, ht, hfull⟩ := hfails
    refine ⟨i, ?_⟩
    show _ < Function.update x.total i _ i
    rw [Function.update_self, h.position i t counter ht, ← h.counter i]
    by_contra hnot
    rw [eventfdWrite, if_pos (Nat.not_lt.mp hnot)] at hfull
    cases hfull
  | _ => exact hfails.elim

/-- **When every `exec` succeeds.**  In every interleaving of any threads on any contexts of
a process, no write to an eventfd fails exactly if on each context the positions of its
calls among all calls of the process add up to at most `2 ^ 64 - 2`. -/
theorem writes_succeed_iff (hr : Runs.run (Process.step main) new es = some p) :
    Runs.Along (Process.step main) (fun p e => ¬ Fails p e) new es ↔
      ∀ i, (Tally.of es).total i ≤ 2 ^ 64 - 2 := by
  have hgeneral : ∀ {p q : Process ι τ φ} {x : Tally ι τ}, Agrees p x →
      Runs.run (Process.step main) p es = some q →
      (Runs.Along (Process.step main) (fun p e => ¬ Fails p e) p es ↔
        ∀ i, (es.foldl Tally.next x).total i ≤ 2 ^ 64 - 2) := by
    clear hr
    intro p q x h hr
    induction es generalizing p x with
    | nil => exact iff_of_true trivial h.room
    | cons e es ih =>
      obtain ⟨p', hp', hrest⟩ := Runs.run_cons_some.mp hr
      rw [List.foldl_cons]
      by_cases hfails : Fails p e
      · refine iff_of_false (fun ha => ha.1 hfails) fun hall => ?_
        obtain ⟨i, hi⟩ := h.not_room hfails
        have hle := (x.next e).le_foldl_total es i
        exact absurd (hall i) (by omega)
      · rw [← ih (h.step hp' hfails) hrest]
        constructor
        · exact fun ha => ha.2 p' hp'
        · refine fun ha => ⟨hfails, fun q hq => ?_⟩
          obtain rfl := Option.some.inj (hp'.symm.trans hq)
          exact ha
  refine hgeneral ⟨rfl, ?_, fun _ => rfl, fun _ => Nat.zero_le _⟩ hr
  intro i t counter ht
  cases ht

end

/-- Two contexts, each with a call of `exec` by the thread of the other one. -/
def twoContexts : List (Bool × Event Bool Nat) :=
  [(true, .push false 7), (true, .count false), (false, .push true 8), (false, .count true),
    (true, .write false), (false, .write true)]

theorem writes_succeed_twoContexts :
    Runs.Along (Process.step id) (fun p e => ¬ p.Fails e) Process.new twoContexts := by
  obtain ⟨p, hr, -⟩ : ∃ p, Runs.run (Process.step id) Process.new twoContexts = some p ∧ True :=
    Runs.exists_run (by decide)
  exact (writes_succeed_iff hr).mpr (by decide)

/-! ## How long it goes well with one context -/

/-- The sum of the first positions. -/
def triangle : Nat → Nat
  | 0 => 0
  | n + 1 => triangle n + (n + 1)

theorem two_mul_triangle (n : Nat) : 2 * triangle n = n * (n + 1) := by
  induction n with
  | zero => rfl
  | succ n ih =>
    rw [triangle, Nat.mul_add, ih]
    ring

theorem triangle_mono {m n : Nat} (h : m ≤ n) : triangle m ≤ triangle n := by
  induction h with
  | refl => exact Nat.le_refl _
  | step _ ih => exact Nat.le_trans ih (Nat.le_add_right ..)

/-- A context whose loop has executed `n` functions and waits for the next; the thread of
the loop is `true`. -/
def served (n : Nat) : Context Bool Unit where
  run := true
  pending := []
  cont := n
  counter := triangle n
  execs _ := none
  loops := [.blocked]
  others := 0
  pushed := List.replicate n ()
  executed := List.replicate n ()
  stopped := false

/-- Another thread calls `exec`, and the loop executes the function. -/
def serve : List (Event Bool Unit) :=
  [.push false (), .count false, .write false, .ready [.exec], .code, .code, .back, .code, .code,
    .code, .code]

/-- A call of `exec` by another thread than the loop's. -/
theorem run_exec {s : Context Bool Unit} (hfree : s.execs = fun _ => none) :
    Runs.run (step true) s [.push false (), .count false, .write false] = some { s with
      pending := s.pending ++ [()]
      cont := (s.cont + 1) % 2 ^ 64
      counter := (eventfdWrite s.counter ((s.cont + 1) % 2 ^ 64)).getD s.counter
      pushed := s.pushed ++ [()] } := by
  have hback : ∀ x : Option Trigger,
      Function.update (Function.update (fun _ : Bool => none) false x) false none =
        fun _ => none := by
    intro x
    funext t
    cases t <;> rfl
  simp [Runs.run_cons, step, hfree, hback]

/-- The loop executes the function that waits, and goes back to `epoll_wait`. -/
theorem run_loop {s : Context Bool Unit} (hrun : s.run = true) (hfree : s.execs = fun _ => none)
    (hloops : s.loops = [.blocked]) (hpending : s.pending = [()]) (hcounter : 0 < s.counter) :
    Runs.run (step true) s
        [.ready [.exec], .code, .code, .back, .code, .code, .code, .code] = some { s with
      pending := []
      executed := s.executed ++ [()] } := by
  obtain ⟨run, pending, cont, counter, execs, loops, others, pushed, executed, stopped⟩ := s
  simp only at hrun hfree hloops hpending hcounter
  subst hrun hfree hloops hpending
  simp [Runs.run_cons, step, Context.code, Context.Reports, hcounter]

theorem run_serve {n : Nat} (hroom : triangle (n + 1) ≤ 2 ^ 64 - 2) (hcount : n + 1 < 2 ^ 64) :
    Runs.run (step true) (served n) serve = some (served (n + 1)) := by
  have hcont : (n + 1) % 2 ^ 64 = n + 1 := Nat.mod_eq_of_lt hcount
  have hwrite : eventfdWrite (triangle n) (n + 1) = some (triangle (n + 1)) := if_pos hroom
  have hpos : 0 < triangle (n + 1) := Nat.lt_of_lt_of_le (Nat.succ_pos n) (Nat.le_add_left ..)
  refine Runs.run_append_some.mpr ⟨_, run_exec rfl, ?_⟩
  show Runs.run (step true) { served n with
    pending := [()]
    cont := (n + 1) % 2 ^ 64
    counter := (eventfdWrite (triangle n) ((n + 1) % 2 ^ 64)).getD (triangle n)
    pushed := List.replicate n () ++ [()] } _ = _
  rw [hcont, hwrite, Option.getD_some, run_loop rfl rfl rfl rfl hpos]
  rw [served, served, List.replicate_succ']

/-- So many calls, one after the other. -/
def serves (n : Nat) : List (Event Bool Unit) := (List.replicate n serve).flatten

theorem run_serves {n : Nat} (hroom : triangle n ≤ 2 ^ 64 - 2) (hcount : n < 2 ^ 64) :
    Runs.run (step true) (served 0) (serves n) = some (served n) := by
  induction n with
  | zero => rfl
  | succ n ih =>
    have hbefore := ih (Nat.le_trans (triangle_mono (Nat.le_succ n)) hroom) (by omega)
    rw [serves, List.replicate_succ', List.flatten_append, List.flatten_singleton]
    exact Runs.run_append_some.mpr ⟨_, hbefore, run_serve hroom hcount⟩

/-- The first call for which there is no room throws, after it has queued the function. -/
theorem write_fails_after {n : Nat} (hroom : triangle n ≤ 2 ^ 64 - 2)
    (hfull : 2 ^ 64 - 2 < triangle (n + 1)) (hcount : n + 1 < 2 ^ 64) :
    ∃ (es : List (Unit × Event Bool Unit)) (p : Process Unit Bool Unit),
      Runs.run (Process.step fun _ : Unit => true) Process.new es = some p ∧
      (p.contexts ()).pending = [()] ∧
      ¬ Runs.Along (Process.step fun _ : Unit => true) (fun p e => ¬ p.Fails e) Process.new es := by
  have hstart : Runs.run (step true) Context.new [.call, .code, .code, .code] =
      some (served 0) := by
    simp [Runs.run_cons, step, Context.code, Context.new, Context.mainCalls, served, triangle]
  have hserved := Runs.run_append_some.mpr ⟨_, hstart, run_serves hroom (by omega)⟩
  -- the last call, up to its write
  have hexec : Runs.run (step true) (served n) [.push false (), .count false] =
      some { served n with
        pending := [()]
        cont := (n + 1) % 2 ^ 64
        execs := Function.update (fun _ => none) false (some (.counted ((n + 1) % 2 ^ 64)))
        pushed := List.replicate n () ++ [()] } := by
    simp [Runs.run_cons, step, served]
  have hwrite : eventfdWrite (triangle n) ((n + 1) % 2 ^ 64) = none := by
    rw [Nat.mod_eq_of_lt hcount]
    exact if_neg (Nat.not_le.mpr hfull)
  have hbefore := Process.run_one (Runs.run_append_some.mpr ⟨_, hserved, hexec⟩)
  have hafter := Process.run_one (Runs.run_append_some.mpr
    ⟨_, hserved, run_exec (s := served n) rfl⟩)
  refine ⟨_, _, hafter, rfl, fun ha => ?_⟩
  rw [show ([.push false (), .count false, .write false] : List (Event Bool Unit)) =
    [.push false (), .count false] ++ [.write false] from rfl, ← List.append_assoc,
    List.map_append] at ha
  exact (ha.rest hbefore).1 ⟨(n + 1) % 2 ^ 64, by simp, hwrite⟩

/-- With one context it is the 6074001000th. -/
theorem write_fails :
    ∃ (es : List (Unit × Event Bool Unit)) (p : Process Unit Bool Unit),
      Runs.run (Process.step fun _ : Unit => true) Process.new es = some p ∧
      (p.contexts ()).pending = [()] ∧
      ¬ Runs.Along (Process.step fun _ : Unit => true) (fun p e => ¬ p.Fails e) Process.new es := by
  have hsum : 2 * triangle 6074000999 = 6074000999 * (6074000999 + 1) := two_mul_triangle _
  have hnext : triangle (6074000999 + 1) = triangle 6074000999 + (6074000999 + 1) := by
    rw [triangle]
  exact write_fails_after (n := 6074000999) (by omega) (by omega) (by omega)

end Exec
end Linux
end AcppNetwork
