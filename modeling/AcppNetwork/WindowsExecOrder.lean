import AcppNetwork.WindowsExec
import Mathlib

/-!
# Functions and timers of the completion port

`exec` and `on_timer` post what is to run, and the loop takes it from the port one by one, so
that the context is an executor in every run (`port_executes_in_order`): an exception costs nothing
but the function that threw it.

A timer that is destroyed is still known to the timer queue, and one that was due is known to a
thread of the pool, or to a function in the port, whether it is cancelled or not.  The addresses
they have are those of timers that are there exactly if the program waits for all of this before
it destroys a timer (`addresses_sound_iff`).
-/
namespace AcppNetwork
namespace Windows
namespace Exec

variable {φ : Type}

/-- What a step is to an executor: posting hands a task in, dequeuing executes one. -/
def label (s : Context φ) : Event φ → List (Executor.Event (Task φ))
  | .exec f true => [.submit (.program f)]
  | .onTimer p true => if (s.timers p.address).isSome then [.submit (.timer p)] else []
  | .code =>
      match s.loops, s.queue with
      | .blocked _ :: _, .exec t :: _ => [.execute t]
      | _, _ => []
  | _ => []

namespace Context

/-- The tasks that are in the port. -/
def waiting (s : Context φ) : List (Task φ) := s.queue.filterMap Packet.task?

/-- What still has the address of a `timer_impl`: the timer queue, the threads in `on_timer`,
and the functions in the port. -/
def pointers (s : Context φ) : List Pointer :=
  s.armed ++ (s.firing ++ s.waiting.filterMap Task.pointer?)

/-- The address is that of its timer, which was not cancelled. -/
def Holds (s : Context φ) (p : Pointer) : Prop :=
  (∃ t, s.timers p.address = some t ∧ t.number = p.number) ∧ p.number ∉ s.cancelled

/-- What is to hold of the timers: every address that is kept is that of a timer that is there
and was not cancelled; a callback was called only for its own timer, once, and not after
`cancel`; and no thread read a `timer_impl` where there is none. -/
structure Sound (s : Context φ) : Prop where
  pointers : ∀ p ∈ s.pointers, s.Holds p
  genuine : ∀ c ∈ s.called, c.timer = c.due ∧ c.late = false
  once : (s.called.map Called.timer).Nodup
  read : s.stale = false

/-- What holds in every run. -/
structure Numbered (s : Context φ) : Prop where
  made : ∀ a t, s.timers a = some t → t.number < s.made
  distinct : ∀ a b t u, s.timers a = some t → s.timers b = some u → t.number = u.number → a = b
  /-- A timer is due once, and posted once. -/
  fresh : (s.pointers.map Pointer.number ++ s.called.map Called.due).Nodup
  known : ∀ n ∈ s.pointers.map Pointer.number ++ s.called.map Called.due ++ s.cancelled, n < s.made

end Context

/-- The condition: a timer is cancelled only while no thread is in `on_timer` for it and no
function in the port has its address, and destroyed only if besides the timer queue does not
have it. -/
def Timely (s : Context φ) : Event φ → Prop
  | .cancel a => ∀ t ∈ s.timers a,
      ⟨a, t.number⟩ ∉ s.firing ++ s.waiting.filterMap Task.pointer?
  | .destroy a => ∀ t ∈ s.timers a, ⟨a, t.number⟩ ∉ s.pointers
  | _ => True

instance [DecidableEq φ] (s : Context φ) (e : Event φ) : Decidable (Timely s e) := by
  rcases e with ⟨⟩ <;> unfold Timely <;> infer_instance

section
variable {s s' : Context φ} {e : Event φ} {es : List (Event φ)} {q : Conduit (Task φ)}

open Context

/-! ## The port is an executor -/

/-- The tasks of the context and those of the executor are the same. -/
def Executes (s : Context φ) (q : Conduit (Task φ)) : Prop :=
  q.Traces s.posted s.executed s.waiting

theorem waiting_cons {t : Task φ} {rest : List (Packet φ)} (hq : s.queue = .exec t :: rest) :
    s.waiting = t :: rest.filterMap Packet.task? := by
  rw [waiting, hq]
  rfl

theorem waiting_io {rest : List (Packet φ)} (hq : s.queue = .io :: rest) :
    s.waiting = rest.filterMap Packet.task? := by
  rw [waiting, hq]
  rfl

theorem waiting_exec (t : Task φ) : (s.exec t true).waiting = s.waiting ++ [t] :=
  List.filterMap_append ..

theorem Executes.exec [DecidableEq φ] (h : Executes s q) (t : Task φ) :
    ∃ q', Runs.run Executor.step q [.submit t] = some q' ∧ Executes (s.exec t true) q' := by
  refine Runs.refines_one rfl ?_
  unfold Executes
  rw [waiting_exec]
  exact h.accept [t]

/-- The first task of the port is executed. -/
theorem Executes.dequeue [DecidableEq φ] {t : Task φ} {rest : List (Packet φ)}
    (h : Executes s q) (hq : s.queue = .exec t :: rest) (hposted : s'.posted = s.posted)
    (hexecuted : s'.executed = s.executed ++ [t]) (hqueue : s'.queue = rest) :
    ∃ q', Runs.run Executor.step q [.execute t] = some q' ∧ Executes s' q' := by
  unfold Executes at h
  rw [waiting_cons hq] at h
  refine Runs.refines_one (Executor.step_execute h.held) ?_
  unfold Executes waiting
  rw [hposted, hexecuted, hqueue]
  exact h.deliver 1

/-- **Each step is one of an executor**, or none. -/
theorem Step.executor [DecidableEq φ] (hs : Step s e s') (h : Executes s q) :
    ∃ q', Runs.run Executor.step q (label s e) = some q' ∧ Executes s' q' := by
  cases hs with
  | exec => exact h.exec _
  | onTimer hp ht =>
    simp only [label, ht, Option.isSome_some, if_true]
    exact Executes.exec (s := { s with firing := _ }) h _
  | onTimerStale hp ht =>
    refine (?_ : label s _ = []) ▸ Runs.refines_nil h
    cases ‹Bool› <;> simp [label, ht]
  | completes =>
    refine Runs.refines_nil ?_
    unfold Executes waiting
    rw [List.filterMap_append,
      show [Packet.io].filterMap Packet.task? = ([] : List (Task φ)) from rfl,
      List.append_nil]
    exact h
  | refused | stop | timer | cancel | destroy | due | onTimerRefused | call | timeout | shutdown
  | staleKey | taskBack | timerBack | handlerBack | throw => exact Runs.refines_nil h
  | enter hl | test hl _ | leave hl _ =>
    simp only [label, hl]
    exact Runs.refines_nil h
  | task hl hq | fire hl hq _ _ | mute hl hq _ _ | stale hl hq _ =>
    simp only [label, hl, hq]
    exact h.dequeue hq rfl rfl rfl
  | io hl hq =>
    simp only [label, hl, hq]
    refine Runs.refines_nil ?_
    unfold Executes at h
    rw [waiting_io hq] at h
    exact h

theorem refines [DecidableEq φ] :
    Runs.Refines step (fun _ _ => True) Executor.step label
      (fun (s : Context φ) q => Executes s q) :=
  fun _ _ _ _ h _ hstep => (Step.of_step hstep).executor h

/-- **The context is an executor.**  In every run, exceptions and nested calls of
`wait_for_input` included, handing in and executing tasks happen as in an executor, which holds
the tasks in the port. -/
theorem port_executes_in_order [DecidableEq φ] (hr : Runs.run step Context.new es = some s) :
    ∃ q, Runs.run Executor.step Conduit.empty (Runs.trace step label Context.new es) = some q ∧
      q.Traces s.posted s.executed s.waiting :=
  refines.run ⟨rfl, rfl, rfl⟩ (Runs.along_of_forall fun _ _ => trivial) hr

/-! ## The timers, in every run -/

namespace Context

/-- The numbers of the timers that may still be called, and of those that were. -/
def numbers (s : Context φ) : List Nat :=
  s.pointers.map Pointer.number ++ s.called.map Called.due

theorem Numbered.moved (h : s.Numbered) (hmade : s'.made = s.made)
    (htimers : ∀ a t', s'.timers a = some t' → ∃ t, s.timers a = some t ∧ t.number = t'.number)
    (hnumbers : s'.numbers.Subperm s.numbers)
    (hcancelled : ∀ n ∈ s'.cancelled, n ∈ s.cancelled ∨ ∃ a t, s.timers a = some t ∧ t.number = n) :
    s'.Numbered where
  made a t' ht' := by
    obtain ⟨t, ht, hn⟩ := htimers a t' ht'
    rw [← hn, hmade]
    exact h.made a t ht
  distinct a b t' u' ht' hu' htu := by
    obtain ⟨t, ht, hnt⟩ := htimers a t' ht'
    obtain ⟨u, hu, hnu⟩ := htimers b u' hu'
    exact h.distinct a b t u ht hu (by rw [hnt, hnu, htu])
  fresh := by
    obtain ⟨l, hl, hsub⟩ := hnumbers
    exact hl.nodup_iff.mp (h.fresh.sublist hsub)
  known n hn := by
    rw [hmade]
    rcases List.mem_append.mp hn with hn | hn
    · exact h.known n (List.mem_append_left _ (hnumbers.subset hn))
    · rcases hcancelled n hn with hn | ⟨a, t, ht, rfl⟩
      · exact h.known n (List.mem_append_right _ hn)
      · exact h.made a t ht

/-- Nothing happened to the timers but that some address is not kept any more. -/
theorem Numbered.fewer (h : s.Numbered) (hmade : s'.made = s.made)
    (htimers : s'.timers = s.timers) (hcalled : s'.called = s.called)
    (hcancelled : s'.cancelled = s.cancelled) (hpointers : s'.pointers.Subperm s.pointers) :
    s'.Numbered := by
  refine h.moved hmade (fun a t ht => ⟨t, htimers ▸ ht, rfl⟩) ?_ fun n hn => .inl (hcancelled ▸ hn)
  obtain ⟨l, hl, hsub⟩ := hpointers
  unfold numbers
  rw [hcalled, List.subperm_append_right]
  exact ⟨l.map Pointer.number, hl.map _, hsub.map _⟩

end Context

/-! ### Where the addresses are -/

theorem pointers_exec_timer (p : Pointer) :
    (s.exec (.timer p) true).pointers.Perm (p :: s.pointers) := by
  unfold pointers
  rw [waiting_exec, List.filterMap_append]
  show (s.armed ++ (s.firing ++ (_ ++ [p]))).Perm _
  rw [← List.append_assoc, ← List.append_assoc, ← List.append_assoc, List.append_assoc s.armed]
  exact List.perm_append_singleton ..

theorem pointers_exec_program (f : φ) : (s.exec (.program f) true).pointers = s.pointers := by
  unfold pointers
  rw [waiting_exec, List.filterMap_append]
  show s.armed ++ (s.firing ++ (_ ++ [])) = _
  rw [List.append_nil]

/-- A thread of the pool takes over from the timer queue. -/
theorem pointers_due {p : Pointer} (hp : p ∈ s.armed) :
    Context.pointers { s with armed := s.armed.erase p, firing := s.firing ++ [p] } |>.Perm
      s.pointers := by
  show (s.armed.erase p ++ (s.firing ++ [p] ++ _)).Perm (s.armed ++ (s.firing ++ _))
  rw [List.append_assoc, List.singleton_append]
  refine ((List.perm_middle.append_left (s.armed.erase p)).trans List.perm_middle).trans ?_
  rw [← List.cons_append]
  exact (List.perm_cons_erase hp).symm.append_right _

/-- The thread is done with it. -/
theorem pointers_onTimer {p : Pointer} (hp : p ∈ s.firing) :
    s.pointers.Perm (p :: Context.pointers { s with firing := s.firing.erase p }) := by
  show (s.armed ++ (s.firing ++ _)).Perm (p :: (s.armed ++ (s.firing.erase p ++ _)))
  refine (((List.perm_cons_erase hp).append_right _).append_left s.armed).trans ?_
  exact List.perm_middle

/-- The first packet of the port is taken. -/
theorem pointers_dequeue {t : Task φ} {rest : List (Packet φ)} (hq : s.queue = .exec t :: rest) :
    s.pointers.Perm (t.pointer?.toList ++ Context.pointers { s with queue := rest }) := by
  unfold pointers
  rw [waiting_cons hq]
  cases t with
  | program f => exact List.Perm.refl _
  | timer p =>
    show (s.armed ++ (s.firing ++ p :: _)).Perm (p :: (s.armed ++ (s.firing ++ _)))
    exact (List.perm_middle.append_left s.armed).trans List.perm_middle

theorem pointers_io {rest : List (Packet φ)} (hq : s.queue = .io :: rest) :
    s.pointers = Context.pointers { s with queue := rest } := by
  unfold pointers
  rw [waiting_io hq]
  rfl

theorem waiting_completes :
    Context.waiting { s with queue := s.queue ++ [.io] } = s.waiting := by
  unfold waiting
  rw [List.filterMap_append]
  exact List.append_nil _

theorem subperm_of_perm_cons {α : Type} {x : α} {xs ys : List α} (h : xs.Perm (x :: ys)) :
    ys.Subperm xs :=
  List.Subperm.trans List.Subperm.cons_self h.symm.subperm

/-! ### Steps -/

/-- A new timer has a number of its own. -/
theorem Context.Numbered.timer (h : s.Numbered) {a : Nat} (cb created : Bool) :
    (s.timer a cb created).Numbered := by
  have hnew : ∀ b u, (s.timer a cb created).timers b = some u →
      b = a ∧ u.number = s.made ∨ s.timers b = some u := by
    intro b u hu
    change Function.update s.timers a (some ⟨s.made, cb, created⟩) b = some u at hu
    by_cases hb : b = a
    · rw [hb, Function.update_self] at hu
      obtain rfl := Option.some.inj hu
      exact .inl ⟨hb, rfl⟩
    · rw [Function.update_of_ne hb] at hu
      exact .inr hu
  have hunused : ∀ n ∈ s.numbers ++ s.cancelled, n ≠ s.made :=
    fun n hn => Nat.ne_of_lt (h.known n hn)
  have hnumbers : (s.timer a cb created).numbers.Subperm (s.made :: s.numbers) := by
    cases created with
    | true =>
      refine List.Perm.subperm ?_
      show ((s.armed ++ [Pointer.mk a s.made] ++
        (s.firing ++ s.waiting.filterMap Task.pointer?)).map Pointer.number ++
          s.called.map Called.due).Perm _
      simp only [numbers, pointers, List.map_append, List.append_assoc, List.map_cons,
        List.cons_append]
      exact List.perm_middle
    | false => exact List.Subperm.cons_self
  refine ⟨fun b u hu => ?_, fun b c u v hu hv huv => ?_, ?_, fun n hn => ?_⟩
  · rcases hnew b u hu with ⟨-, hu⟩ | hu
    · exact Nat.lt_succ_of_le (Nat.le_of_eq hu)
    · exact Nat.lt_succ_of_lt (h.made b u hu)
  · rcases hnew b u hu with ⟨hb, hu⟩ | hu <;> rcases hnew c v hv with ⟨hc, hv⟩ | hv
    · exact hb.trans hc.symm
    · exact absurd (huv.symm.trans hu) (Nat.ne_of_lt (h.made c v hv))
    · exact absurd (huv.trans hv) (Nat.ne_of_lt (h.made b u hu))
    · exact h.distinct b c u v hu hv huv
  · obtain ⟨l, hl, hsub⟩ := hnumbers
    have hfresh : (s.made :: s.numbers).Nodup :=
      List.nodup_cons.mpr ⟨fun hmem => hunused _ (List.mem_append_left _ hmem) rfl, h.fresh⟩
    exact hl.nodup_iff.mp (hfresh.sublist hsub)
  · rcases List.mem_append.mp hn with hn | hn
    · rcases List.mem_cons.mp (hnumbers.subset hn) with rfl | hn
      · exact Nat.lt_succ_self _
      · exact Nat.lt_succ_of_lt (h.known n (List.mem_append_left _ hn))
    · exact Nat.lt_succ_of_lt (h.known n (List.mem_append_right _ hn))

/-- The timer moves from the port to the calls. -/
theorem Context.Numbered.callTimer (h : s.Numbered) {p : Pointer} {rest : List (Packet φ)}
    (hq : s.queue = .exec (.timer p) :: rest) (t : TimerImpl) (executed : List (Task φ))
    (ls : List (Phase φ)) :
    (Context.callTimer { s with queue := rest, executed := executed } t p ls).Numbered := by
  refine h.moved rfl (fun a u hu => ⟨u, hu, rfl⟩) (List.Perm.subperm ?_) fun n hn => .inl hn
  have hperm := (pointers_dequeue hq).map Pointer.number
  show (_ ++ p.number :: s.called.map Called.due).Perm _
  exact List.perm_middle.trans (hperm.symm.append_right _)

theorem Step.numbered (hs : Step s e s') (h : s.Numbered) : s'.Numbered := by
  have same : s'.made = s.made → s'.timers = s.timers → s'.called = s.called →
      s'.cancelled = s.cancelled → s'.pointers = s.pointers → s'.Numbered :=
    fun hm ht hc hx hp => h.fewer hm ht hc hx (hp ▸ List.Subperm.refl _)
  cases hs with
  | exec => exact same rfl rfl rfl rfl (pointers_exec_program _)
  | refused => exact h
  | completes =>
    refine same rfl rfl rfl rfl ?_
    unfold pointers
    rw [waiting_completes]
  | timer => exact h.timer _ _
  | @cancel a t hmain ht hhandle =>
    refine h.moved rfl (fun b u hu => ?_) ?_ fun n hn => ?_
    · change Function.update s.timers a (some { t with handle := false }) b = some u at hu
      by_cases hb : b = a
      · rw [hb, Function.update_self] at hu
        obtain rfl := Option.some.inj hu
        exact ⟨t, hb ▸ ht, rfl⟩
      · rw [Function.update_of_ne hb] at hu
        exact ⟨u, hu, rfl⟩
    · have hsub : (s.armed.erase ⟨a, t.number⟩).Sublist s.armed := List.erase_sublist
      exact (((hsub.append_right _).map _).append_right _).subperm
    · rcases List.mem_cons.mp hn with rfl | hn
      · exact .inr ⟨a, t, ht, rfl⟩
      · exact .inl hn
  | @destroy a t hmain ht =>
    refine h.moved rfl (fun b u hu => ?_) (List.Subperm.refl _) fun n hn => ?_
    · change Function.update s.timers a none b = some u at hu
      by_cases hb : b = a
      · rw [hb, Function.update_self] at hu
        cases hu
      · rw [Function.update_of_ne hb] at hu
        exact ⟨u, hu, rfl⟩
    · rcases List.mem_cons.mp hn with rfl | hn
      · exact .inr ⟨a, t, ht, rfl⟩
      · exact .inl hn
  | due hp => exact h.fewer rfl rfl rfl rfl (pointers_due hp).subperm
  | onTimer hp ht =>
    refine h.fewer rfl rfl rfl rfl (List.Perm.subperm ?_)
    exact (pointers_exec_timer _).trans (pointers_onTimer hp).symm
  | onTimerRefused hp _ | onTimerStale hp _ =>
    exact h.fewer rfl rfl rfl rfl (subperm_of_perm_cons (pointers_onTimer hp))
  | task _ hq => exact h.fewer rfl rfl rfl rfl (pointers_dequeue hq).symm.subperm
  | fire _ hq _ _ => exact h.callTimer hq _ _ _
  | mute _ hq _ _ | stale _ hq _ =>
    exact h.fewer rfl rfl rfl rfl (subperm_of_perm_cons (pointers_dequeue hq))
  | io _ hq => exact same rfl rfl rfl rfl (pointers_io hq).symm
  | _ => exact same rfl rfl rfl rfl rfl

/-! ## When they are sound -/

/-- No address is kept that was not, and nothing else happened to the timers. -/
theorem Context.Sound.fewer (h : s.Sound) (htimers : s'.timers = s.timers)
    (hcalled : s'.called = s.called) (hcancelled : s'.cancelled = s.cancelled)
    (hstale : s'.stale = s.stale) (hpointers : s'.pointers ⊆ s.pointers) : s'.Sound where
  pointers p hp := by
    unfold Holds
    rw [htimers, hcancelled]
    exact h.pointers p (hpointers hp)
  genuine := by rw [hcalled]; exact h.genuine
  once := by rw [hcalled]; exact h.once
  read := by rw [hstale]; exact h.read

/-- A thread that has an address finds its timer there. -/
theorem Context.Sound.found (h : s.Sound) {p : Pointer} (hp : p ∈ s.pointers) :
    s.timers p.address ≠ none := by
  obtain ⟨⟨t, ht, -⟩, -⟩ := h.pointers p hp
  rw [ht]
  exact Option.some_ne_none t

theorem Context.Sound.timer (h : s.Sound) (hnum : s.Numbered) {a : Nat}
    (hnone : s.timers a = none) (cb created : Bool) : (s.timer a cb created).Sound := by
  refine ⟨fun p hp => ?_, h.genuine, h.once, h.read⟩
  have hcases : p ∈ s.pointers ∨ p = ⟨a, s.made⟩ := by
    cases created with
    | true =>
      rcases List.mem_append.mp hp with hp | hp
      · rcases List.mem_append.mp hp with hp | hp
        · exact .inl (List.mem_append_left _ hp)
        · exact .inr (List.mem_singleton.mp hp)
      · exact .inl (List.mem_append_right _ hp)
    | false => exact .inl hp
  rcases hcases with hp | rfl
  · obtain ⟨⟨t, ht, hn⟩, hcancelled⟩ := h.pointers p hp
    have hne : p.address ≠ a := by
      intro heq
      rw [heq, hnone] at ht
      cases ht
    exact ⟨⟨t, (Function.update_of_ne hne _ _).trans ht, hn⟩, hcancelled⟩
  · refine ⟨⟨_, Function.update_self .., rfl⟩, fun hmem => ?_⟩
    exact Nat.lt_irrefl _ (hnum.known _ (List.mem_append_right _ hmem))

/-- The timer at an address is the only one that is kept under it. -/
theorem eq_of_holds {a : Nat} {t : TimerImpl} {p : Pointer} (h : s.Holds p)
    (ht : s.timers a = some t) (ha : p.address = a) : p = ⟨a, t.number⟩ := by
  obtain ⟨⟨u, hu, hn⟩, -⟩ := h
  rw [ha, ht] at hu
  obtain rfl := Option.some.inj hu
  obtain ⟨b, n⟩ := p
  obtain rfl : b = a := ha
  obtain rfl : t.number = n := hn
  rfl

/-- An address that is kept still holds after another timer was cancelled or destroyed. -/
theorem holds_of_ne {a : Nat} {t : TimerImpl} {p : Pointer} (hnum : s.Numbered)
    (h : s.Holds p) (ht : s.timers a = some t) (hne : p ≠ ⟨a, t.number⟩)
    (hcancelled : s'.cancelled = t.number :: s.cancelled)
    (htimers : ∀ b, b ≠ a → s'.timers b = s.timers b) : s'.Holds p := by
  have haddress : p.address ≠ a := fun ha => hne (eq_of_holds h ht ha)
  obtain ⟨⟨u, hu, hn⟩, hlive⟩ := h
  refine ⟨⟨u, (htimers _ haddress).trans hu, hn⟩, fun hmem => ?_⟩
  rw [hcancelled] at hmem
  rcases List.mem_cons.mp hmem with hmem | hmem
  · exact haddress (hnum.distinct _ _ u t hu ht (hn.trans hmem))
  · exact hlive hmem

theorem Context.Sound.callTimer (h : s.Sound) (hnum : s.Numbered) {p : Pointer} {t : TimerImpl}
    {rest : List (Packet φ)} (hq : s.queue = .exec (.timer p) :: rest)
    (ht : s.timers p.address = some t) (executed : List (Task φ)) (ls : List (Phase φ)) :
    (Context.callTimer { s with queue := rest, executed := executed } t p ls).Sound := by
  have hperm := pointers_dequeue hq
  have hp : p ∈ s.pointers := hperm.symm.subset (List.mem_cons_self ..)
  obtain ⟨⟨u, hu, hn⟩, hlive⟩ := h.pointers p hp
  obtain rfl : t = u := Option.some.inj (ht ▸ hu)
  refine ⟨fun r hr => h.pointers r (hperm.symm.subset (List.mem_cons_of_mem _ hr)),
    fun c hc => ?_, ?_, h.read⟩
  · rcases List.mem_cons.mp hc with rfl | hc
    · exact ⟨hn, by simpa [hn] using hlive⟩
    · exact h.genuine c hc
  · -- the calls so far were for other timers
    have hsame : s.called.map Called.timer = s.called.map Called.due :=
      List.map_congr_left fun c hc => (h.genuine c hc).1
    have hfresh : p.number ∉ s.called.map Called.due := fun hmem =>
      (List.nodup_append.mp hnum.fresh).2.2 _ (List.mem_map_of_mem hp) _ hmem rfl
    show (t.number :: s.called.map Called.timer).Nodup
    rw [hn, List.nodup_cons, hsame]
    exact ⟨hfresh, hsame ▸ h.once⟩

/-- **A step that meets the condition leaves the timers sound.** -/
theorem Step.sound (hs : Step s e s') (hnum : s.Numbered) (h : s.Sound) (htimely : Timely s e) :
    s'.Sound := by
  have same : s'.timers = s.timers → s'.called = s.called → s'.cancelled = s.cancelled →
      s'.stale = s.stale → s'.pointers = s.pointers → s'.Sound :=
    fun ht hc hx hst hpt => h.fewer ht hc hx hst (hpt ▸ fun _ => id)
  cases hs with
  | exec => exact same rfl rfl rfl rfl (pointers_exec_program _)
  | refused => exact h
  | completes =>
    refine same rfl rfl rfl rfl ?_
    unfold pointers
    rw [waiting_completes]
  | timer _ hnone => exact h.timer hnum hnone _ _
  | @cancel a t hmain ht hhandle =>
    refine ⟨fun p hmem => ?_, h.genuine, h.once, h.read⟩
    -- the timer queue had the address once, and nobody else has it
    have hnodup : s.armed.Nodup := by
      have hfresh := (List.nodup_append.mp hnum.fresh).1
      exact (List.nodup_append.mp (List.Nodup.of_map _ hfresh)).1
    have hcases : p ∈ s.pointers ∧ p ≠ ⟨a, t.number⟩ := by
      rcases List.mem_append.mp hmem with hmem | hmem
      · obtain ⟨hne, hmem⟩ := hnodup.mem_erase_iff.mp hmem
        exact ⟨List.mem_append_left _ hmem, hne⟩
      · refine ⟨List.mem_append_right _ hmem, ?_⟩
        rintro rfl
        exact htimely t ht hmem
    exact holds_of_ne hnum (h.pointers p hcases.1) ht hcases.2 rfl
      fun b hb => Function.update_of_ne hb _ _
  | @destroy a t hmain ht =>
    refine ⟨fun p hmem => ?_, h.genuine, h.once, h.read⟩
    refine holds_of_ne hnum (h.pointers p hmem) ht ?_ rfl fun b hb => Function.update_of_ne hb _ _
    rintro rfl
    exact htimely t ht hmem
  | due hp => exact h.fewer rfl rfl rfl rfl (pointers_due hp).subset
  | onTimer hp _ =>
    exact h.fewer rfl rfl rfl rfl ((pointers_exec_timer _).trans (pointers_onTimer hp).symm).subset
  | onTimerRefused hp _ =>
    exact h.fewer rfl rfl rfl rfl (subperm_of_perm_cons (pointers_onTimer hp)).subset
  | onTimerStale hp ht =>
    exact absurd ht (h.found ((pointers_onTimer hp).symm.subset (List.mem_cons_self ..)))
  | task _ hq => exact h.fewer rfl rfl rfl rfl (pointers_dequeue hq).symm.subset
  | fire _ hq ht _ => exact h.callTimer hnum hq ht _ _
  | mute _ hq _ _ =>
    exact h.fewer rfl rfl rfl rfl (subperm_of_perm_cons (pointers_dequeue hq)).subset
  | stale _ hq ht =>
    exact absurd ht (h.found ((pointers_dequeue hq).symm.subset (List.mem_cons_self ..)))
  | io _ hq => exact same rfl rfl rfl rfl (pointers_io hq).symm
  | _ => exact same rfl rfl rfl rfl rfl

/-- **One that does not meet it leaves the address of a timer that is cancelled.** -/
theorem Step.timely (hs : Step s e s') (h : s'.Sound) : Timely s e := by
  cases hs with
  | cancel _ ht _ =>
    rintro u hu hmem
    obtain rfl := Option.some.inj (ht.symm.trans hu)
    exact (h.pointers _ (List.mem_append_right _ hmem)).2 (List.mem_cons_self ..)
  | destroy _ ht =>
    rintro u hu hmem
    obtain rfl := Option.some.inj (ht.symm.trans hu)
    exact (h.pointers _ hmem).2 (List.mem_cons_self ..)
  | _ => trivial

theorem numbered_new : (Context.new : Context φ).Numbered where
  made a t h := by cases h
  distinct a b t u h := by cases h
  fresh := List.nodup_nil
  known n h := by cases h

theorem sound_new : (Context.new : Context φ).Sound where
  pointers p hp := by cases hp
  genuine c hc := by cases hc
  once := List.nodup_nil
  read := rfl

/-- **When no stale address is left.**  In every interleaving of the loop, the pool and any
threads that call `exec`, no address is kept of a timer that is cancelled or not there any more,
and the callbacks of the timers are called for their own time, once and not after `cancel`,
exactly if timers are cancelled only while neither the pool nor the port has their address, and
destroyed only while nobody has it. -/
theorem addresses_sound_iff (hr : Runs.run step Context.new es = some s) :
    Runs.Throughout step Context.Sound (Context.new : Context φ) es ↔
      Runs.Along step Timely (Context.new : Context φ) es :=
  Runs.throughout_iff_along (J := Context.Numbered)
    (fun _ _ _ h hstep => (Step.of_step hstep).numbered h)
    (fun _ _ _ hnum h hstep =>
      ⟨(Step.of_step hstep).timely, (Step.of_step hstep).sound hnum h⟩)
    numbered_new sound_new hr

end

/-- A function throws in front of two others, one of them that of a timer. -/
def throwsFirst : List (Event Nat) :=
  [.timer 16 true true, .exec 7 true, .due ⟨16, 0⟩, .onTimer ⟨16, 0⟩ true, .exec 8 true, .call,
    .code, .code, .code, .throw, .call, .code, .code, .code, .back, .code, .code, .back]

theorem port_executes_in_order_throwsFirst :
    ∃ s, Runs.run step Context.new throwsFirst = some s ∧
      s.executed = [.program 7, .timer ⟨16, 0⟩, .program 8] ∧
      ∃ q, Runs.run Executor.step Conduit.empty (Runs.trace step label Context.new throwsFirst)
          = some q ∧ q.Traces s.posted s.executed s.waiting := by
  obtain ⟨s, hr, hexecuted⟩ : ∃ s, Runs.run step Context.new throwsFirst = some s ∧
      s.executed = [.program 7, .timer ⟨16, 0⟩, .program 8] :=
    Runs.exists_run (by decide)
  exact ⟨s, hr, hexecuted, port_executes_in_order hr⟩

/-- One timer is cancelled and destroyed before it is due; another, made at the same address, is
due and called, and destroyed when the loop has been left. -/
def cancelsInTime : List (Event Nat) :=
  [.timer 16 true true, .cancel 16, .destroy 16, .timer 16 true true, .due ⟨16, 1⟩,
    .onTimer ⟨16, 1⟩ true, .call, .code, .code, .code, .back, .stop, .code, .destroy 16]

theorem addresses_sound_cancelsInTime :
    ∃ s, Runs.run step Context.new cancelsInTime = some s ∧
      s.called.map Called.timer = [1] ∧ s.cancelled = [1, 0, 0] ∧
      Runs.Throughout step Context.Sound (Context.new : Context Nat) cancelsInTime := by
  obtain ⟨s, hr, hcalled⟩ : ∃ s, Runs.run step Context.new cancelsInTime = some s ∧
      s.called.map Called.timer = [1] ∧ s.cancelled = [1, 0, 0] :=
    Runs.exists_run (by decide)
  exact ⟨s, hr, hcalled.1, hcalled.2, (addresses_sound_iff hr).mpr (by decide)⟩

/-- A timer goes out of scope before it is due, and the pool reads it. -/
theorem read_stale :
    ∃ s, Runs.run step (Context.new : Context Nat)
        [.timer 16 true true, .destroy 16, .due ⟨16, 0⟩, .onTimer ⟨16, 0⟩ true] = some s ∧
      s.stale = true :=
  Runs.exists_run (by decide)

end Exec
end Windows
end AcppNetwork
