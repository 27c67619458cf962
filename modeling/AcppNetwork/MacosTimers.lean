import AcppNetwork.MacosExec
import Mathlib

/-!
# Timers on macOS

The kernel knows a timer by the address of its `timer_impl`, and `cancel`, which the
destructor calls, deletes its event.  So an event of the kqueue is always that of a timer that
is there and was not cancelled (`Numbered`).  An entry that `kevent` has put into the array is
out of its reach: a callback in front of it that cancels the timer comes too late, and one that
destroys it leaves an address of nothing, or of another timer (`timers_sound_iff`).
-/
namespace AcppNetwork
namespace Macos
namespace Exec

variable {τ φ : Type}

/-- The timer an entry is for. -/
def Entry.number? : Entry → Option Nat
  | .timer _ n => some n
  | _ => none

/-- The timers whose entries are still to be handled by an activation. -/
def Phase.numbers (p : Phase φ) : List Nat := p.rest.filterMap Entry.number?

namespace Context

/-- The timers whose entries are still to be handled. -/
def numbers (s : Context τ φ) : List Nat := s.loops.flatMap Phase.numbers

/-- The timer `n` is at `ident`, and was not cancelled. -/
def Holds (s : Context τ φ) (ident n : Nat) : Prop :=
  (∃ t, s.timers ident = some t ∧ t.number = n) ∧ n ∉ s.cancelled

/-- What is to hold of the timers: every entry that is still to be handled is that of a timer
that is there and was not cancelled; a callback was called only for the event of its own timer,
once, and not after `cancel`; and the loop never took an address of nothing for a timer. -/
structure Sound (s : Context τ φ) : Prop where
  entries : ∀ p ∈ s.loops, ∀ ident n, .timer ident n ∈ p.rest → s.Holds ident n
  genuine : ∀ c ∈ s.called, c.timer = c.event ∧ c.late = false
  once : (s.called.map Called.timer).Nodup
  defined : ∀ p ∈ s.loops, ∀ rest, p ≠ .undefined rest

/-- What holds in every interleaving. -/
structure Numbered (s : Context τ φ) : Prop where
  made : ∀ ident t, s.timers ident = some t → t.number < s.made
  distinct : ∀ i j t u, s.timers i = some t → s.timers j = some u → t.number = u.number → i = j
  knotes : ∀ ident k, s.knotes ident = some k →
    s.Holds ident k.number ∧ k.number ∉ s.numbers ∧ k.number ∉ s.called.map Called.event
  /-- An event is reported once, and handled once. -/
  fresh : (s.numbers ++ s.called.map Called.event).Nodup
  known : ∀ n ∈ s.numbers ++ s.called.map Called.event ++ s.cancelled, n < s.made

end Context

/-- The condition: no timer is cancelled or destroyed while its entry stands in the array of
an activation of the loop. -/
def Timely (s : Context τ φ) : Event τ φ → Prop
  | .cancel ident | .destroy ident =>
      ∀ t ∈ s.timers ident, ∀ p ∈ s.loops, .timer ident t.number ∉ p.rest
  | _ => True

instance (s : Context τ φ) (e : Event τ φ) : Decidable (Timely s e) := by
  rcases e with ⟨⟩ <;> unfold Timely <;> infer_instance

section
variable {s s' : Context τ φ} {e : Event τ φ} {es : List (Event τ φ)} {p r : Phase φ}
  {ls : List (Phase φ)} {events : List Entry} {ident n : Nat} {t : TimerImpl}

open Context

theorem numbers_cons (hl : s.loops = p :: ls) :
    s.numbers = p.numbers ++ ls.flatMap Phase.numbers := by
  rw [numbers, hl, List.flatMap_cons]

/-! ## What stays so -/

/-- Entries that are handled, or dropped, are gone. -/
theorem Context.Numbered.fewer (h : s.Numbered) (htimers : s'.timers = s.timers)
    (hknotes : s'.knotes = s.knotes) (hmade : s'.made = s.made)
    (hcancelled : s'.cancelled = s.cancelled) (hcalled : s'.called = s.called)
    (hnumbers : s'.numbers.Sublist s.numbers) : s'.Numbered where
  made := by rw [htimers, hmade]; exact h.made
  distinct := by rw [htimers]; exact h.distinct
  knotes ident k hk := by
    rw [hknotes] at hk
    obtain ⟨hholds, hnumber, hevent⟩ := h.knotes ident k hk
    unfold Holds
    rw [htimers, hcancelled, hcalled]
    exact ⟨hholds, fun hmem => hnumber (hnumbers.subset hmem), hevent⟩
  fresh := by
    rw [hcalled]
    exact h.fresh.sublist (hnumbers.append_right _)
  known n hn := by
    rw [hcalled, hcancelled] at hn
    rw [hmade]
    exact h.known n (((hnumbers.append_right _).append_right _).subset hn)

/-- The innermost activation goes on with no more entries than it had. -/
theorem Context.Numbered.goto (h : s.Numbered) (hl : s.loops = p :: ls)
    (hrest : r.rest.Sublist p.rest) (pending : List φ) (run : Bool) (executed : List φ) :
    Context.Numbered { s with
      loops := r :: ls, pending := pending, run := run, executed := executed } := by
  refine h.fewer rfl rfl rfl rfl rfl ?_
  rw [numbers_cons hl]
  exact (hrest.filterMap _).append_right _

theorem Context.Numbered.pop (h : s.Numbered) (hl : s.loops = p :: ls) :
    Context.Numbered { s with loops := ls } := by
  refine h.fewer rfl rfl rfl rfl rfl ?_
  rw [numbers_cons hl]
  exact List.sublist_append_right _ _

/-- `cancel` deletes the event. -/
theorem Context.Numbered.cancel (h : s.Numbered) (ht : s.timers ident = some t) :
    (s.cancel ident t).Numbered where
  made := h.made
  distinct := h.distinct
  knotes i k hk := by
    change Function.update s.knotes ident none i = some k at hk
    by_cases hi : i = ident
    · rw [hi, Function.update_self] at hk
      cases hk
    · rw [Function.update_of_ne hi] at hk
      obtain ⟨⟨⟨u, hu, hnumber⟩, hcancelled⟩, hrest⟩ := h.knotes i k hk
      refine ⟨⟨⟨u, hu, hnumber⟩, fun hmem => ?_⟩, hrest⟩
      rcases List.mem_cons.mp hmem with hk' | hmem
      · exact hi (h.distinct i ident u t hu ht (hnumber.trans hk'))
      · exact hcancelled hmem
  fresh := h.fresh
  known m hm := by
    rcases List.mem_append.mp hm with hm | hm
    · exact h.known m (List.mem_append_left _ hm)
    · rcases List.mem_cons.mp hm with rfl | hm
      · exact h.made ident t ht
      · exact h.known m (List.mem_append_right _ hm)

theorem Context.Numbered.destroy (h : s.Numbered) (ht : s.timers ident = some t) :
    Context.Numbered
      { s.cancel ident t with timers := Function.update s.timers ident none } := by
  have hcancel := h.cancel ht
  have hkept : ∀ i u, Function.update s.timers ident none i = some u → s.timers i = some u := by
    intro i u hu
    by_cases hi : i = ident
    · rw [hi, Function.update_self] at hu
      cases hu
    · rwa [Function.update_of_ne hi] at hu
  refine ⟨fun i u hu => h.made i u (hkept i u hu),
    fun i j u v hu hv => h.distinct i j u v (hkept i u hu) (hkept j v hv),
    fun i k hk => ?_, hcancel.fresh, hcancel.known⟩
  obtain ⟨⟨⟨u, hu, hnumber⟩, hcancelled⟩, hrest⟩ := hcancel.knotes i k hk
  have hi : i ≠ ident := by
    rintro rfl
    change Function.update s.knotes i none i = some k at hk
    rw [Function.update_self] at hk
    cases hk
  exact ⟨⟨⟨u, (Function.update_of_ne hi _ _).trans hu, hnumber⟩, hcancelled⟩, hrest⟩

/-- A new timer has a number of its own. -/
theorem Context.Numbered.timer (h : s.Numbered) (hnone : s.timers ident = none)
    (cb added : Bool) : (s.timer ident cb added).Numbered := by
  have hnew : ∀ i u, (s.timer ident cb added).timers i = some u →
      i = ident ∧ u.number = s.made ∨ i ≠ ident ∧ s.timers i = some u := by
    intro i u hu
    change Function.update s.timers ident (some ⟨s.made, cb⟩) i = some u at hu
    by_cases hi : i = ident
    · rw [hi, Function.update_self] at hu
      obtain rfl := Option.some.inj hu
      exact .inl ⟨hi, rfl⟩
    · rw [Function.update_of_ne hi] at hu
      exact .inr ⟨hi, hu⟩
  have hunused : ∀ m ∈ s.numbers ++ s.called.map Called.event ++ s.cancelled, m ≠ s.made :=
    fun m hm => Nat.ne_of_lt (h.known m hm)
  refine ⟨fun i u hu => ?_, fun i j u v hu hv huv => ?_, fun i k hk => ?_, h.fresh,
    fun m hm => Nat.lt_succ_of_lt (h.known m hm)⟩
  · rcases hnew i u hu with ⟨-, hu⟩ | ⟨-, hu⟩
    · exact Nat.lt_succ_of_le (Nat.le_of_eq hu)
    · exact Nat.lt_succ_of_lt (h.made i u hu)
  · rcases hnew i u hu with ⟨hi, hu⟩ | ⟨-, hu⟩ <;> rcases hnew j v hv with ⟨hj, hv⟩ | ⟨-, hv⟩
    · exact hi.trans hj.symm
    · exact absurd (huv.symm.trans hu) (Nat.ne_of_lt (h.made j v hv))
    · exact absurd (huv.trans hv) (Nat.ne_of_lt (h.made i u hu))
    · exact h.distinct i j u v hu hv huv
  · by_cases hi : added = true ∧ i = ident
    · obtain ⟨rfl, rfl⟩ := hi
      change Function.update s.knotes i (some (.armed s.made)) i = some k at hk
      rw [Function.update_self] at hk
      obtain rfl := Option.some.inj hk
      refine ⟨⟨⟨⟨s.made, cb⟩, Function.update_self .., rfl⟩, fun hm => ?_⟩, fun hm => ?_,
        fun hm => ?_⟩
      · exact hunused _ (List.mem_append_right _ hm) rfl
      · exact hunused _ (List.mem_append_left _ (List.mem_append_left _ hm)) rfl
      · exact hunused _ (List.mem_append_left _ (List.mem_append_right _ hm)) rfl
    · have hold : s.knotes i = some k := by
        change (if added = true then Function.update s.knotes ident (some (.armed s.made))
          else s.knotes) i = some k at hk
        split at hk
        · rwa [Function.update_of_ne fun h => hi ⟨‹_›, h⟩] at hk
        · exact hk
      obtain ⟨⟨⟨u, hu, hnumber⟩, hcancelled⟩, hrest⟩ := h.knotes i k hold
      have hne : i ≠ ident := by
        rintro rfl
        rw [hnone] at hu
        cases hu
      exact ⟨⟨⟨u, (Function.update_of_ne hne _ _).trans hu, hnumber⟩, hcancelled⟩, hrest⟩

theorem Context.Numbered.expire (h : s.Numbered) (hk : s.knotes ident = some (.armed n)) :
    Context.Numbered
      { s with knotes := Function.update s.knotes ident (some (.expired n)) } := by
  refine ⟨h.made, h.distinct, fun i k hi => ?_, h.fresh, h.known⟩
  change Function.update s.knotes ident (some (.expired n)) i = some k at hi
  by_cases hid : i = ident
  · rw [hid, Function.update_self] at hi
    obtain rfl := Option.some.inj hi
    exact hid ▸ h.knotes ident _ hk
  · rw [Function.update_of_ne hid] at hi
    exact h.knotes i k hi

/-! ## The array -/

/-- An entry of the array is for an event of the kqueue. -/
theorem Reports.knote (hready : s.Reports events) (hx : .timer ident n ∈ events) :
    s.knotes ident = some (.expired n) :=
  hready.2.2.2.2.2 _ hx

/-- No timer has two entries. -/
theorem Reports.nodup (hready : s.Reports events) (h : s.Numbered) :
    (events.filterMap Entry.number?).Nodup := by
  have hsame : events.filterMap Entry.number? =
      (events.filter (· ≠ .other)).filterMap Entry.number? := by
    rw [List.filterMap_filter]
    congr 1
    funext x
    cases x <;> rfl
  rw [hsame, List.Nodup, List.pairwise_filterMap]
  refine hready.2.2.2.1.imp_of_mem fun {x y} hx hy hne m hm k hk => ?_
  cases x with
  | timer i _ =>
    cases y with
    | timer j _ =>
      obtain rfl := Option.some.inj hm
      obtain rfl := Option.some.inj hk
      rintro rfl
      obtain ⟨⟨⟨u, hu, hum⟩, -⟩, -⟩ :=
        h.knotes i _ (Reports.knote hready (List.mem_of_mem_filter hx))
      obtain ⟨⟨⟨v, hv, hvm⟩, -⟩, -⟩ :=
        h.knotes j _ (Reports.knote hready (List.mem_of_mem_filter hy))
      exact hne (by rw [h.distinct i j u v hu hv (hum.trans hvm.symm)])
    | _ => cases hk
  | _ => cases hm

theorem Entry.has_iff : Context.Entry.has events ident = true ↔ ∃ n, .timer ident n ∈ events := by
  unfold Context.Entry.has
  rw [List.any_eq_true]
  constructor
  · rintro ⟨x, hx, htest⟩
    cases x with
    | timer i m =>
      obtain rfl : i = ident := by simpa using htest
      exact ⟨m, hx⟩
    | _ => cases htest
  · rintro ⟨m, hm⟩
    exact ⟨_, hm, by simp⟩

/-- The events move from the kqueue to the array. -/
theorem Context.Numbered.report (h : s.Numbered) (hl : s.loops = .blocked :: ls)
    (hready : s.Reports events) : (s.report events ls).Numbered := by
  have hbefore : s.numbers = ls.flatMap Phase.numbers := numbers_cons hl
  have hafter : (s.report events ls).numbers =
      events.filterMap Entry.number? ++ s.numbers := by
    rw [hbefore]
    exact numbers_cons (s := s.report events ls) rfl
  -- the timers reported were in the kqueue
  have hreported : ∀ m ∈ events.filterMap Entry.number?,
      ∃ i, .timer i m ∈ events ∧ s.knotes i = some (.expired m) := by
    intro m hm
    obtain ⟨x, hx, hxm⟩ := List.mem_filterMap.mp hm
    cases x with
    | timer i k =>
      obtain rfl := Option.some.inj hxm
      exact ⟨i, hx, Reports.knote hready hx⟩
    | _ => cases hxm
  refine ⟨h.made, h.distinct, fun i k hk => ?_, ?_, fun m hm => ?_⟩
  · change (if Context.Entry.has events i then none else s.knotes i) = some k at hk
    obtain ⟨hmiss, hk⟩ := Option.ite_none_left_eq_some.mp hk
    obtain ⟨hholds, hnumber, hevent⟩ := h.knotes i k hk
    refine ⟨hholds, fun hm => ?_, hevent⟩
    rw [hafter] at hm
    rcases List.mem_append.mp hm with hm | hm
    · obtain ⟨j, hentry, hj⟩ := hreported _ hm
      obtain ⟨⟨⟨u, hu, hum⟩, -⟩, -⟩ := h.knotes j _ hj
      obtain ⟨⟨v, hv, hvm⟩, -⟩ := hholds
      obtain rfl := h.distinct i j v u hv hu (hvm.trans hum.symm)
      exact hmiss (Entry.has_iff.mpr ⟨_, hentry⟩)
    · exact hnumber hm
  · rw [hafter, List.append_assoc, List.nodup_append]
    refine ⟨Reports.nodup hready h, h.fresh, fun m hm k hk => ?_⟩
    rintro rfl
    obtain ⟨i, -, hi⟩ := hreported m hm
    obtain ⟨-, hnumber, hevent⟩ := h.knotes i _ hi
    rcases List.mem_append.mp hk with hk | hk
    · exact hnumber hk
    · exact hevent hk
  · rw [hafter, List.append_assoc, List.append_assoc, List.mem_append] at hm
    rcases hm with hm | hm
    · obtain ⟨i, -, hi⟩ := hreported m hm
      obtain ⟨⟨⟨u, hu, hum⟩, -⟩, -⟩ := h.knotes i _ hi
      have hmade := h.made i u hu
      rw [hum] at hmade
      exact hmade
    · exact h.known m (by rw [List.append_assoc]; exact hm)

/-- The entry moves from the array to the calls. -/
theorem Context.Numbered.callTimer {rest : List Entry} (h : s.Numbered)
    (hl : s.loops = .batch (.timer ident n :: rest) :: ls) (t : TimerImpl) :
    (s.callTimer t n rest ls).Numbered := by
  have hbefore : s.numbers = n :: (rest.filterMap Entry.number? ++ ls.flatMap Phase.numbers) :=
    numbers_cons hl
  have hafter : (s.callTimer t n rest ls).numbers =
      rest.filterMap Entry.number? ++ ls.flatMap Phase.numbers :=
    numbers_cons (s := s.callTimer t n rest ls) rfl
  -- the number goes from one list to the other
  have hperm : (s.numbers ++ s.called.map Called.event).Perm
      ((s.callTimer t n rest ls).numbers ++ n :: s.called.map Called.event) := by
    rw [hbefore, hafter]
    exact List.perm_middle.symm
  refine ⟨h.made, h.distinct, fun i k hk => ?_, hperm.nodup_iff.mp h.fresh, fun m hm => ?_⟩
  · obtain ⟨hholds, hnumber, hevent⟩ := h.knotes i k hk
    have hnot : k.number ∉ (s.callTimer t n rest ls).numbers ++ n :: s.called.map Called.event := by
      rw [← hperm.mem_iff, List.mem_append]
      exact not_or.mpr ⟨hnumber, hevent⟩
    rw [List.mem_append, not_or] at hnot
    exact ⟨hholds, hnot⟩
  · rcases List.mem_append.mp hm with hm | hm
    · exact h.known m (List.mem_append_left _ (hperm.mem_iff.mpr hm))
    · exact h.known m (List.mem_append_right _ hm)

theorem numbered_new : (Context.new : Context τ φ).Numbered where
  made ident t h := by cases h
  distinct i j t u h := by cases h
  knotes ident k h := by cases h
  fresh := List.nodup_nil
  known n h := by cases h

/-! ## What is kept under the condition -/

/-- The entries still to be handled are among those there were, and what happened to the timers
is the same. -/
theorem Context.Sound.fewer (h : s.Sound) (htimers : s'.timers = s.timers)
    (hcancelled : s'.cancelled = s.cancelled) (hcalled : s'.called = s.called)
    (hloops : ∀ p' ∈ s'.loops, (∀ rest, p' ≠ .undefined rest) ∧
      ∀ ident n, .timer ident n ∈ p'.rest → ∃ p ∈ s.loops, .timer ident n ∈ p.rest) :
    s'.Sound where
  entries p' hp' ident n hentry := by
    obtain ⟨p, hp, hmem⟩ := (hloops p' hp').2 ident n hentry
    unfold Holds
    rw [htimers, hcancelled]
    exact h.entries p hp ident n hmem
  genuine := by rw [hcalled]; exact h.genuine
  once := by rw [hcalled]; exact h.once
  defined p' hp' := (hloops p' hp').1

/-- The innermost activation goes on. -/
theorem Context.Sound.goto (h : s.Sound) (hl : s.loops = p :: ls) (hl' : s'.loops = r :: ls)
    (hr : ∀ rest, r ≠ .undefined rest) (hrest : ∀ ident n, .timer ident n ∈ r.rest →
      .timer ident n ∈ p.rest) (htimers : s'.timers = s.timers)
    (hcancelled : s'.cancelled = s.cancelled) (hcalled : s'.called = s.called) : s'.Sound := by
  refine h.fewer htimers hcancelled hcalled fun p' hp' => ?_
  rw [hl'] at hp'
  rcases List.mem_cons.mp hp' with rfl | hp'
  · exact ⟨hr, fun ident n hentry => ⟨p, by rw [hl]; simp, hrest ident n hentry⟩⟩
  · have hmem : p' ∈ s.loops := by rw [hl]; exact List.mem_cons_of_mem _ hp'
    exact ⟨h.defined p' hmem, fun ident n hentry => ⟨p', hmem, hentry⟩⟩

theorem Context.Sound.pop (h : s.Sound) (hl : s.loops = p :: ls) :
    Context.Sound { s with loops := ls } := by
  refine h.fewer rfl rfl rfl fun p' hp' => ?_
  have hmem : p' ∈ s.loops := by rw [hl]; exact List.mem_cons_of_mem _ hp'
  exact ⟨h.defined p' hmem, fun ident n hentry => ⟨p', hmem, hentry⟩⟩

/-- What the array has comes from the kqueue, which knows only timers that are there. -/
theorem Context.Sound.report (h : s.Sound) (hnum : s.Numbered) (hl : s.loops = .blocked :: ls)
    (hready : s.Reports events) : (s.report events ls).Sound := by
  refine ⟨fun p hp ident n hentry => ?_, h.genuine, h.once, fun p hp => ?_⟩
  · rcases List.mem_cons.mp hp with rfl | hp
    · exact (hnum.knotes ident _ (Reports.knote hready hentry)).1
    · exact h.entries p (by rw [hl]; exact List.mem_cons_of_mem _ hp) ident n hentry
  · rcases List.mem_cons.mp hp with rfl | hp
    · intro rest heq
      cases heq
    · exact h.defined p (by rw [hl]; exact List.mem_cons_of_mem _ hp)

/-- The entry that is handled is that of the timer at its address. -/
theorem Context.Sound.entry {rest : List Entry} (h : s.Sound)
    (hl : s.loops = .batch (.timer ident n :: rest) :: ls) : s.Holds ident n :=
  h.entries _ (by rw [hl]; exact List.mem_cons_self ..) ident n (List.mem_cons_self ..)

theorem Context.Sound.callTimer {rest : List Entry} (h : s.Sound) (hnum : s.Numbered)
    (hl : s.loops = .batch (.timer ident n :: rest) :: ls) (ht : s.timers ident = some t) :
    (s.callTimer t n rest ls).Sound := by
  obtain ⟨⟨u, hu, hn⟩, hcancelled⟩ := h.entry hl
  obtain rfl : t = u := Option.some.inj (ht ▸ hu)
  refine ⟨fun p hp i m hentry => ?_, fun c hc => ?_, ?_, fun p hp => ?_⟩
  · rcases List.mem_cons.mp hp with rfl | hp
    · refine h.entries (.batch (.timer ident n :: rest)) ?_ i m (List.mem_cons_of_mem _ hentry)
      rw [hl]
      exact List.mem_cons_self ..
    · exact h.entries p (by rw [hl]; exact List.mem_cons_of_mem _ hp) i m hentry
  · rcases List.mem_cons.mp hc with rfl | hc
    · exact ⟨hn, by simpa [hn] using hcancelled⟩
    · exact h.genuine c hc
  · -- the calls so far were for other events
    have hsame : s.called.map Called.timer = s.called.map Called.event :=
      List.map_congr_left fun c hc => (h.genuine c hc).1
    have hmem : n ∈ s.numbers := by
      rw [numbers_cons hl]
      exact List.mem_append_left _ (List.mem_cons_self ..)
    have hfresh : n ∉ s.called.map Called.event :=
      fun hmem' => (List.nodup_append.mp hnum.fresh).2.2 n hmem n hmem' rfl
    show (t.number :: s.called.map Called.timer).Nodup
    rw [hn, List.nodup_cons, hsame]
    exact ⟨hfresh, hsame ▸ h.once⟩
  · rcases List.mem_cons.mp hp with rfl | hp
    · intro rest heq
      cases heq
    · exact h.defined p (by rw [hl]; exact List.mem_cons_of_mem _ hp)

theorem Context.Sound.timer (h : s.Sound) (hnone : s.timers ident = none)
    (cb added : Bool) : (s.timer ident cb added).Sound := by
  refine ⟨fun p hp i n hentry => ?_, h.genuine, h.once, h.defined⟩
  obtain ⟨⟨u, hu, hn⟩, hcancelled⟩ := h.entries p hp i n hentry
  have hi : i ≠ ident := by
    rintro rfl
    rw [hnone] at hu
    cases hu
  exact ⟨⟨u, (Function.update_of_ne hi _ _).trans hu, hn⟩, hcancelled⟩

/-- A timer none of whose entries is left is cancelled in time. -/
theorem Context.Sound.cancel (h : s.Sound) (hnum : s.Numbered) (ht : s.timers ident = some t)
    (hp : ∀ p ∈ s.loops, .timer ident t.number ∉ p.rest) : (s.cancel ident t).Sound := by
  refine ⟨fun p hpl i n hentry => ?_, h.genuine, h.once, h.defined⟩
  obtain ⟨⟨u, hu, hn⟩, hcancelled⟩ := h.entries p hpl i n hentry
  refine ⟨⟨u, hu, hn⟩, fun hmem => ?_⟩
  rcases List.mem_cons.mp hmem with rfl | hmem
  · obtain rfl := hnum.distinct i ident u t hu ht hn
    exact hp p hpl hentry
  · exact hcancelled hmem

theorem Context.Sound.destroy (h : s.Sound) (hnum : s.Numbered) (ht : s.timers ident = some t)
    (hp : ∀ p ∈ s.loops, .timer ident t.number ∉ p.rest) :
    Context.Sound
      { s.cancel ident t with timers := Function.update s.timers ident none } := by
  have hcancel := h.cancel hnum ht hp
  refine ⟨fun p hpl i n hentry => ?_, hcancel.genuine, hcancel.once, hcancel.defined⟩
  obtain ⟨⟨u, hu, hn⟩, hcancelled⟩ := hcancel.entries p hpl i n hentry
  have hi : i ≠ ident := by
    rintro rfl
    obtain rfl : t = u := Option.some.inj (ht ▸ hu)
    exact hp p hpl (hn ▸ hentry)
  exact ⟨⟨u, (Function.update_of_ne hi _ _).trans hu, hn⟩, hcancelled⟩

theorem sound_new : (Context.new : Context τ φ).Sound where
  entries p hp := by cases hp
  genuine c hc := by cases hc
  once := List.nodup_nil
  defined p hp := by cases hp

/-! ## Steps -/

variable [DecidableEq τ] {main : τ}

theorem Step.numbered (hs : Step main s e s') (h : s.Numbered) : s'.Numbered := by
  cases hs with
  | push | trigger | stop | others => exact h.fewer rfl rfl rfl rfl rfl (List.Sublist.refl _)
  | timer _ _ hnone => exact h.timer hnone _ _
  | cancel _ _ ht => exact h.cancel ht
  | destroy _ _ ht => exact h.destroy ht
  | expire hk => exact h.expire hk
  | call => exact h.fewer rfl rfl rfl rfl rfl (List.Sublist.refl _)
  | enter hl | test hl _ | batchEnd hl | tasksEnd hl | task hl | taskBack _ hl | timerBack _ hl
  | handlerBack _ hl => exact h.goto hl (by rfl) _ _ _
  | leave hl _ | failed hl | throw _ hl _ => exact h.pop hl
  | fire hl _ _ => exact h.callTimer hl _
  | swap hl | mute hl _ _ | dangling hl _ | handle hl =>
    exact h.goto hl (by exact List.sublist_cons_self _ _) _ _ _
  | ready hl hready => exact h.report hl hready

/-- **A step that meets the condition leaves the timers sound.** -/
theorem Step.sound (hs : Step main s e s') (hnum : s.Numbered) (h : s.Sound)
    (hp : Timely s e) : s'.Sound := by
  cases hs with
  | push | trigger | stop | others | expire => exact ⟨h.entries, h.genuine, h.once, h.defined⟩
  | timer _ _ hnone => exact h.timer hnone _ _
  | cancel _ _ ht => exact h.cancel hnum ht (hp _ ht)
  | destroy _ _ ht => exact h.destroy hnum ht (hp _ ht)
  | call =>
    refine h.fewer rfl rfl rfl fun p hpl => ?_
    rcases List.mem_cons.mp hpl with rfl | hpl
    · exact ⟨by simp, by simp [Phase.rest]⟩
    · exact ⟨h.defined p hpl, fun ident n hentry => ⟨p, hpl, hentry⟩⟩
  | enter hl | test hl _ | batchEnd hl | swap hl | tasksEnd hl | task hl | taskBack _ hl
  | timerBack _ hl | handlerBack _ hl =>
    exact h.goto hl rfl (by simp) (by simp [Phase.rest]) rfl rfl rfl
  | mute hl _ _ | handle hl =>
    exact h.goto hl rfl (by simp) (by simp +contextual [Phase.rest]) rfl rfl rfl
  | leave hl _ | failed hl | throw _ hl _ => exact h.pop hl
  | fire hl ht _ => exact h.callTimer hnum hl ht
  | dangling hl ht =>
    obtain ⟨⟨u, hu, -⟩, -⟩ := h.entry hl
    rw [ht] at hu
    cases hu
  | ready hl hready => exact h.report hnum hl hready

/-- **One that does not meet it leaves an entry of a timer that is cancelled.** -/
theorem Step.timely (hs : Step main s e s') (h : s'.Sound) : Timely s e := by
  cases hs with
  | cancel _ _ ht =>
    rintro u hu p hp hentry
    obtain rfl := Option.some.inj (ht.symm.trans hu)
    exact (h.entries p hp _ _ hentry).2 (List.mem_cons_self ..)
  | destroy _ _ ht =>
    rintro u hu p hp hentry
    obtain rfl := Option.some.inj (ht.symm.trans hu)
    exact (h.entries p hp _ _ hentry).2 (List.mem_cons_self ..)
  | _ => trivial

/-- **When timers are cancelled in time.**  In every interleaving the callbacks of the timers
are called for their own events, once and not after `cancel`, and no entry is left of a timer
that is cancelled or not there any more, exactly if no timer is cancelled or destroyed while its
entry stands in the array of an activation of the loop. -/
theorem timers_sound_iff (hr : Runs.run (step main) Context.new es = some s) :
    Runs.Throughout (step main) Context.Sound (Context.new : Context τ φ) es ↔
      Runs.Along (step main) Timely (Context.new : Context τ φ) es :=
  Runs.throughout_iff_along (J := Context.Numbered)
    (fun _ _ _ h hstep => (Step.of_step hstep).numbered h)
    (fun _ _ _ hnum h hstep =>
      ⟨(Step.of_step hstep).timely, (Step.of_step hstep).sound hnum h⟩)
    numbered_new sound_new hr

end

/-- Two timers are due at once; the callback of the first destroys itself and makes another
timer, which gets its address. -/
def twoTimers : List (Event Bool Nat) :=
  [.timer 16 true true, .timer 32 true true, .expire 16, .expire 32, .call, .code, .code,
    .ready [.timer 16 0, .timer 32 1], .code, .destroy 16, .timer 16 true true, .back, .code,
    .back, .code, .code, .expire 16, .ready [.timer 16 2], .code, .back]

theorem timers_sound_twoTimers :
    Runs.Throughout (step true) Context.Sound (Context.new : Context Bool Nat) twoTimers := by
  obtain ⟨s, hr, -⟩ : ∃ s, Runs.run (step true) Context.new twoTimers = some s ∧
      s.called.map Called.timer = [2, 1, 0] :=
    Runs.exists_run (by decide)
  exact (timers_sound_iff hr).mpr (by decide)

/-- The callback of the first destroys the second, and another timer gets its address: that
one is called, although its time is not up. -/
theorem called_early :
    ∃ s, Runs.run (step true) (Context.new : Context Bool Nat)
        [.timer 16 true true, .timer 32 true true, .expire 16, .expire 32, .call, .code, .code,
          .ready [.timer 16 0, .timer 32 1], .code, .destroy 32, .timer 32 true true, .back,
          .code] = some s ∧
      s.called = [⟨2, 1, false⟩, ⟨0, 0, false⟩] ∧ s.knotes 32 = some (.armed 2) :=
  Runs.exists_run (by decide)

end Exec
end Macos
end AcppNetwork
