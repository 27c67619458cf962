import AcppNetwork.EndlessRuns
import AcppNetwork.LinuxTimerExpiry

/-!
# Which timers have their callback called

The runs here do not end: the loop keeps running, the kernel reports an expired timer some
time, and the loop comes to every event it was given (`KeepsRunning`).  A timer that is
armed and set then has its callback called some time (`eventually_called`), and not twice.
A timer that was set to zero, was not registered, or was disturbed is lost for good
(`Lost`).  `called_once_iff` puts the two together.
-/
namespace AcppNetwork
namespace Linux
namespace Timers

open Reentrant

section
variable {c c' : Configuration} {e : Event Op Answer} {h : Nat} {fd : Int}

/-! ## Timers that are lost -/

/-- The timer at `h` is not armed, or set to zero; it is not due, and was not called. -/
structure Lost (h : Nat) (c : Configuration) : Prop where
  lt : h < c.state.fresh
  unset : ∀ fd, c.state.Armed h fd → c.state.timerfd fd = .zero
  notDue : h ∉ dues (frames c.stack)
  notCalled : h ∉ timeouts (notes c.log)

/-- After a stretch of code the timer at `h` is lost, if the activations `fs` are under it. -/
structure Loses (h : Nat) (out : Next) (fs : List Frame) (ns : List Note) : Prop where
  lt : h < out.state.fresh
  unset : ∀ fd, out.state.Armed h fd → out.state.timerfd fd = .zero
  notDue : h ∉ dues (out.frames ++ fs)
  notCalled : h ∉ timeouts (ns ++ out.notes)

/-- An exception that unwinds the stack makes nothing due. -/
theorem Loses.lost {out : Next} {fs kept : List Frame} (hl : Loses h out fs (notes c.log))
    (hstate : c'.state = out.state) (hsuffix : kept <:+ fs)
    (hframes : frames c'.stack = out.frames ++ kept)
    (hnotes : notes c'.log = notes c.log ++ out.notes) : Lost h c' := by
  have hnotDue := hl.notDue
  rw [dues_append, List.mem_append, not_or] at hnotDue
  refine ⟨?_, ?_, ?_, ?_⟩
  · rw [hstate]
    exact hl.lt
  · rw [hstate]
    exact hl.unset
  · rw [hframes, dues_append, List.mem_append, not_or]
    exact ⟨hnotDue.1, fun hdue => hnotDue.2 ((dues_kept hsuffix).subset hdue)⟩
  · rw [hnotes]
    exact hl.notCalled

section
variable {w : World} {ns : List Note} {f : Frame} {fs : List Frame} {a : Answer} {out : Next}

/-- What is armed is neither due nor called. -/
theorem World.Armed.notDue (honce : Once w (f :: fs) ns) (harmed : w.Armed h fd) :
    h ∉ f.due ∧ h ∉ dues fs ∧ h ∉ timeouts ns := by
  obtain ⟨r, hr, rfl, hin⟩ := harmed
  have hnot := honce.armed fd r hr hin
  rw [dues_cons, List.mem_append, List.mem_append, not_or, not_or] at hnot
  exact ⟨hnot.1.1, hnot.1.2, hnot.2⟩

/-- A stretch calls only a timer that is due. -/
theorem notCalled_of_stretch (hs : Stretch w f a out) (hdue : h ∉ f.due)
    (hcalled : h ∉ timeouts ns) : h ∉ timeouts (ns ++ out.notes) := by
  rw [timeouts_append, List.mem_append, not_or]
  exact ⟨hcalled, fun hnew => hdue (called_of_stretch hs hnew).1⟩

/-- A lost timer stays lost. -/
theorem loses_of_unset (hw : w.Sound ns) (hs : Stretch w f a out) (hlt : h < w.fresh)
    (hunset : ∀ fd, w.Armed h fd → w.timerfd fd = .zero) (hdue : h ∉ dues (f :: fs))
    (hcalled : h ∉ timeouts ns) : Loses h out fs ns := by
  rw [dues_cons, List.mem_append, not_or] at hdue
  refine ⟨?_, fun fd harmed => ?_, ?_, notCalled_of_stretch hs hdue.1 hcalled⟩
  · exact Nat.lt_of_lt_of_le hlt (fresh_le_of_stretch hw hs)
  · have hbefore := armed_before hw hlt hs harmed
    rw [timerfd_of_stretch (hbefore.isOpen hw) hs]
    exact hunset fd hbefore
  · rw [dues_append, List.mem_append, not_or]
    refine ⟨fun hnew => ?_, hdue.2⟩
    rcases due_before hw hs hnew with hold | ⟨fd, harmed, hset⟩
    · exact hdue.1 hold
    · exact hset (hunset fd harmed)

/-- A timer whose descriptor is closed while it is armed is armed no more. -/
theorem loses_of_closed (honce : Once w (f :: fs) ns) (hs : Stretch w f a out)
    (hlt : h < w.fresh) (harmed : w.Armed h fd) (hclosed : w.closed f a = some fd) :
    Loses h out fs ns := by
  have hw := honce.sound
  obtain ⟨hdue, hunder, hcalled⟩ := harmed.notDue honce
  obtain ⟨hepoll, hsub⟩ := epoll_of_closed hw hclosed hs
  refine ⟨?_, fun fd' hafter => ?_, ?_, notCalled_of_stretch hs hdue hcalled⟩
  · exact Nat.lt_of_lt_of_le hlt (fresh_le_of_stretch hw hs)
  · -- it was registered once, under `fd`
    obtain ⟨r', hr', hptr', -⟩ := armed_before hw hlt hs hafter
    obtain ⟨r, hr, hptr, -⟩ := harmed
    obtain rfl : fd' = fd := hw.registered_inj hr' hr (hptr'.trans hptr.symm)
    obtain ⟨r'', hr'', -⟩ := hafter
    rw [hepoll] at hr''
    cases hr''
  · rw [dues_append, List.mem_append, not_or]
    exact ⟨fun hnew => hdue (hsub.subset hnew), hunder⟩

/-- An event that is dispatched to a timer that is gone takes the rest of its array with
it. -/
theorem loses_of_gone (honce : Once w (f :: fs) ns) (hs : Stretch w f a out)
    (hlt : h < w.fresh) (hgone : ¬ w.Reaches h f a) : Loses h out fs ns := by
  unfold World.Reaches at hgone
  split at hgone
  · rename_i x events ready
    simp only [Classical.not_imp, Option.isSome_iff_ne_none, not_not] at hgone
    obtain ⟨hrest, hnone⟩ := hgone
    have hdue : h ∈ Frame.due (.batch (.timer x events :: ready)) := List.mem_cons_of_mem _ hrest
    have hnot : h ∉ dues fs ++ timeouts ns := by
      have hall := honce.nodup
      rw [dues_cons, List.append_assoc, List.nodup_append] at hall
      exact fun hunder => hall.2.2 h hdue h hunder rfl
    rw [List.mem_append, not_or] at hnot
    have hout : out.state = w ∧ dues out.frames = [] ∧ timeouts out.notes = [] := by
      cases hs with
      | gone hp => exact ⟨rfl, rfl, rfl⟩
      | timeout hp hin hcallback | silent hp hsilent =>
        rw [hnone] at hp
        cases hp
    obtain ⟨hsame, hnothing, hsilent⟩ := hout
    refine ⟨?_, fun fd harmed => ?_, ?_, ?_⟩
    · rw [hsame]
      exact hlt
    · rw [hsame] at harmed
      exact absurd hdue (harmed.notDue honce).1
    · rw [dues_append, hnothing, List.nil_append]
      exact hnot.1
    · rw [timeouts_append, hsilent, List.append_nil]
      exact hnot.2
  · exact absurd trivial hgone

end

theorem Lost.step (hk : Known c) (hl : Lost h c) (hstep : step object c e = some c') :
    Lost h c' := by
  rcases (Step.of_step hstep).stretch with ⟨o, -, -, rfl⟩ |
    ⟨f, rest, a, out, kept, hstack, -, hres, hstate, hsuffix, -, hframes, -, hnotes, -⟩ |
    ⟨-, hstate, hframes, hlog⟩
  · refine ⟨hl.lt, hl.unset, hl.notDue, ?_⟩
    rw [notes_append, notes_call, List.append_nil]
    exact hl.notCalled
  · have hdue := hl.notDue
    rw [hstack, frames_code] at hdue
    exact (loses_of_unset hk.once.sound (stretch_of_resume hres) hl.lt hl.unset hdue
      hl.notCalled).lost hstate hsuffix hframes hnotes
  · refine ⟨?_, ?_, ?_, ?_⟩
    · rw [hstate]
      exact hl.lt
    · rw [hstate]
      exact hl.unset
    · rw [hframes]
      exact hl.notDue
    · rw [hlog]
      exact hl.notCalled

/-- **A timer that is disturbed is lost.** -/
theorem lost_of_disturbed (hk : Known c) (hlt : h < c.state.fresh)
    (hdisturbed : ¬ Before (World.Undisturbed h fd) c e) (hstep : step object c e = some c') :
    Lost h c' := by
  rcases (Step.of_step hstep).stretch with ⟨o, rfl, -⟩ |
    ⟨f, rest, a, out, kept, hstack, ha, hres, hstate, hsuffix, -, hframes, -, hnotes, -⟩ | ⟨rfl, -⟩
  · exact absurd trivial hdisturbed
  · have honce := hk.once
    rw [hstack, frames_code] at honce
    have hs := stretch_of_resume hres
    simp only [Before, ha, hstack, World.Undisturbed, not_and_or, Classical.not_imp,
      not_not] at hdisturbed
    rcases hdisturbed with ⟨harmed, hclosed⟩ | hgone
    · exact (loses_of_closed honce hs hlt harmed hclosed).lost hstate hsuffix hframes hnotes
    · exact (loses_of_gone honce hs hlt hgone).lost hstate hsuffix hframes hnotes
  · exact absurd trivial hdisturbed

/-! ## The constructor -/

/-- A timer as its constructor leaves it: it was not called and is not due, and it is armed
if the kernel did not refuse to register it. -/
structure Constructed (h : Nat) (fd : Int) (milliseconds : Int) (callback registered : Bool)
    (c : Configuration) : Prop where
  lt : h < c.state.fresh
  timerfd : c.state.timerfd fd = .ofMilliseconds milliseconds
  impl : ∃ p, c.state.impls h = some p ∧ p.callback = callback
  armed : ∀ fd', c.state.Armed h fd' ↔ fd' = fd ∧ registered = true
  notDue : h ∉ dues (frames c.stack)
  notCalled : h ∉ timeouts (notes c.log)

/-- The kernel registers the descriptor of a new timer unless it refuses to. -/
theorem epollCtl_new {w : World} {ns : List Note} (hw : w.Sound ns) {n : Nat}
    (hfree : w.kernel.isOpen n = false) (r : Registration) (refused : Option Nat) :
    ((w.openFd n).kernel.epollCtl .add n r refused).1.epoll =
      if refused.isNone then Function.update w.kernel.epoll n (some r) else w.kernel.epoll := by
  have hnone : w.kernel.epoll n = none := by
    by_contra hsome
    obtain ⟨r', hr'⟩ := Option.ne_none_iff_exists'.mp hsome
    rw [(hw.registered n r' hr').1] at hfree
    cases hfree
  have hctl : (w.openFd n).kernel.ctlError .add n refused = refused := by
    simp [Kernel.ctlError, World.openFd, hnone]
  unfold Kernel.epollCtl
  rw [hctl]
  cases refused <;> rfl

theorem constructed {milliseconds : Int} {callback : Bool} {n : Nat} {refused : Option Nat}
    {rest : List (Act Frame CallOut)} (hk : Known c) (hnonneg : 0 ≤ milliseconds)
    (hstack : c.stack = .code (.api (.timer milliseconds callback)) :: rest)
    (hstep : step object c (.code (.created (.fd n) refused)) = some c') :
    Constructed c.state.fresh n milliseconds callback refused.isNone c' := by
  rcases (Step.of_step hstep).stretch with ⟨o, he, -⟩ |
    ⟨f, rest', a, out, kept, hstack', ha, hres, hstate, hsuffix, -, hframes, -, hnotes, -⟩ |
    ⟨he, -⟩
  · cases he
  · obtain ⟨rfl, rfl⟩ : f = .api (.timer milliseconds callback) ∧ rest' = rest := by
      rw [hstack] at hstack'
      cases hstack'
      exact ⟨rfl, rfl⟩
    cases ha
    have hs : Stretch c.state (.api (.timer milliseconds callback)) (.created (.fd n) refused)
        out := stretch_of_resume hres
    have hw := hk.once.sound
    have hbeyond : c.state.fresh ∉ dues (frames c.stack) ++ timeouts (notes c.log) :=
      fun hmem => Nat.lt_irrefl _ (hk.once.beyond _ hmem)
    rw [List.mem_append, not_or, hstack] at hbeyond
    cases hs with
    | settimeFailed hfree hneg => omega
    | timer hfree hnonneg =>
      have hfresh : ∀ fd', ¬ c.state.Armed c.state.fresh fd' := by
        rintro fd' ⟨r, hr, hptr, -⟩
        obtain ⟨-, p, hp, -⟩ := hw.registered fd' r hr
        exact absurd (hw.lt_fresh hp) (by omega)
      refine ⟨?_, ?_, ?_, fun fd' => ?_, ?_, ?_⟩
      · rw [hstate]
        exact Nat.lt_succ_self _
      · rw [hstate]
        exact Function.update_self ..
      · rw [hstate]
        exact ⟨_, Function.update_self .., rfl⟩
      · rw [hstate]
        show (∃ r ∈ ((c.state.openFd n).kernel.epollCtl .add n _ refused).1.epoll fd', _) ↔ _
        rw [epollCtl_new hw hfree]
        cases refused with
        | none =>
          rw [Option.isNone_none, if_pos rfl]
          by_cases hfd : fd' = n
          · rw [hfd]
            exact iff_of_true ⟨_, Function.update_self .., rfl, rfl⟩ ⟨rfl, rfl⟩
          · rw [Function.update_of_ne hfd]
            exact iff_of_false (hfresh fd') fun h => hfd h.1
        | some e => exact iff_of_false (hfresh fd') fun h => Bool.noConfusion h.2
      · rw [hframes]
        exact fun hmem => hbeyond.1 (List.mem_append_right _ ((dues_kept hsuffix).subset hmem))
      · rw [hnotes, timeouts_append]
        exact fun hmem => hbeyond.2 ((List.mem_append.mp hmem).resolve_right List.not_mem_nil)
  · cases he

end

/-! ## Runs in which the loop keeps running -/

abbrev EndlessRun := Runs.Endless (step object) (Config.start World.new)

/-- The loop keeps running: no exception leaves it, it comes to every event it was given, and
a timer that was set and stays registered is reported some time. -/
structure KeepsRunning (r : EndlessRun) : Prop where
  stays : ∀ n, StaysInLoop (r.state n) (r.event n)
  handles : ∀ n h, h ∈ dues (frames (r.state n).stack) →
    ∃ m, n ≤ m ∧ h ∉ dues (frames (r.state m).stack)
  reports : ∀ n fd, (∀ m, n ≤ m → ((r.state m).state.report (some fd)).isSome = true) →
    ∃ m, n ≤ m ∧ ∃ fds, r.event m = .code (.ready fds) ∧ some fd ∈ fds

section
variable {r : EndlessRun} {h : Nat} {fd : Int} {k : Nat}

theorem known (r : EndlessRun) (n : Nat) : Known (r.state n) :=
  r.invariant (fun _ _ _ hk hstep => hk.step hstep) new_known n

theorem called_forever (hcalled : h ∈ timeouts (notes (r.state k).log)) :
    ∀ m, k ≤ m → h ∈ timeouts (notes (r.state m).log) := by
  intro m hm
  induction m, hm using Nat.le_induction with
  | base => exact hcalled
  | succ m hm ih => exact called_step (r.next m) ih

theorem lost_forever (hl : Lost h (r.state k)) : ∀ m, k ≤ m → Lost h (r.state m) := by
  intro m hm
  induction m, hm using Nat.le_induction with
  | base => exact hl
  | succ m hm ih => exact ih.step (known r m) (r.next m)

/-- The callback of a lost timer is never called. -/
theorem never_called (hl : Lost h (r.state k)) (m : Nat) :
    h ∉ timeouts (notes (r.state m).log) := by
  intro hcalled
  rcases Nat.le_total k m with hm | hm
  · exact (lost_forever hl m hm).notCalled hcalled
  · exact hl.notCalled (called_forever hcalled k hm)

theorem World.Armed.report_isSome {w : World} (harmed : w.Armed h fd)
    (hset : w.timerfd fd ≠ .zero) : (w.report (some fd)).isSome = true := by
  obtain ⟨r, hr, -, hin⟩ := harmed
  have hreg : w.kernel.epoll fd = some r := hr
  simp [World.report, hreg, hin, hset]

/-- **The callback is called some time.**  An armed timer that is set, keeps its
`timer_impl` and is not disturbed is reported; the loop comes to it and calls its callback. -/
theorem eventually_called (hr : KeepsRunning r) {p : TimerImpl}
    (hp : ∀ m, k ≤ m → (r.state m).state.impls h = some p) (hcallback : p.callback = true)
    (hund : ∀ m, k ≤ m → Before (World.Undisturbed h fd) (r.state m) (r.event m))
    (harmed : (r.state k).state.Armed h fd) (hset : (r.state k).state.timerfd fd ≠ .zero) :
    ∃ m, k ≤ m ∧ h ∈ timeouts (notes (r.state m).log) := by
  by_contra hnever
  have hnot : ∀ m, k ≤ m → h ∉ timeouts (notes (r.state m).log) :=
    fun m hm hcalled => hnever ⟨m, hm, hcalled⟩
  -- a timer that is not called stays due, but the loop comes to it
  have hnotDue : ∀ n, k ≤ n → h ∉ dues (frames (r.state n).stack) := by
    intro n hn hdue
    have hstays : ∀ m, n ≤ m → h ∈ dues (frames (r.state m).stack) := by
      intro m hm
      induction m, hm using Nat.le_induction with
      | base => exact hdue
      | succ m hm ih =>
        have hkm : k ≤ m := Nat.le_trans hn hm
        have hnext := due_step (known r m) (hp m hkm) hcallback (hr.stays m) (hund m hkm)
          (r.next m) ih
        exact hnext.resolve_right (hnot (m + 1) (Nat.le_succ_of_le hkm))
    obtain ⟨m, hm, hgone⟩ := hr.handles n h hdue
    exact hgone (hstays m hm)
  -- a timer that does not become due stays armed, but the kernel reports it
  have hstays : ∀ m, k ≤ m →
      (r.state m).state.Armed h fd ∧ (r.state m).state.timerfd fd ≠ .zero := by
    intro m hm
    induction m, hm using Nat.le_induction with
    | base => exact ⟨harmed, hset⟩
    | succ m hm ih =>
      have hnext := armed_step (known r m) ih.1 (hund m hm) (r.next m)
      obtain ⟨hstill, htimer⟩ := hnext.resolve_right (hnotDue (m + 1) (Nat.le_succ_of_le hm))
      exact ⟨hstill, htimer ▸ ih.2⟩
  obtain ⟨m, hm, fds, hevent, hmem⟩ :=
    hr.reports k fd fun m hm => (hstays m hm).1.report_isSome (hstays m hm).2
  have hstep := r.next m
  rw [hevent] at hstep
  exact hnotDue (m + 1) (Nat.le_succ_of_le hm) (reported_step (hstays m hm).1 hmem hstep)

/-- A timer without a callback has none called. -/
theorem never_called_of_callback {p : TimerImpl}
    (hp : ∀ m, k ≤ m → (r.state m).state.impls h = some p) (hcallback : p.callback = false)
    (hnot : h ∉ timeouts (notes (r.state k).log)) :
    ∀ m, k ≤ m → h ∉ timeouts (notes (r.state m).log) := by
  intro m hm
  induction m, hm using Nat.le_induction with
  | base => exact hnot
  | succ m hm ih =>
    intro hcalled
    rcases callback_of_called (r.next m) hcalled with hbefore | ⟨q, hq, hset⟩
    · exact ih hbefore
    · obtain rfl : p = q := Option.some.inj ((hp m hm).symm.trans hq)
      rw [hcallback] at hset
      cases hset

/-- Once called, it was called once. -/
theorem count_called (hcalled : h ∈ timeouts (notes (r.state k).log)) :
    ∀ m, k ≤ m → (timeouts (notes (r.state m).log)).count h = 1 := by
  intro m hm
  have hnodup := (List.nodup_append.mp (known r m).once.nodup).2.1
  exact List.count_eq_one_of_mem hnodup (called_forever hcalled m hm)

/-- **When a timer expires, and its callback is called exactly once.**  A timer that is
constructed with a time that is not negative is set to exactly this time, whatever becomes of
it.  If the loop keeps running and the timer is neither cancelled nor destroyed, its
callback is called, once, exactly if the time is not zero, there is a callback, the kernel
does not refuse to register the descriptor, and the timer is not disturbed: nobody else
closes its descriptor while it is armed, and no event before its own is dispatched to a timer
that is gone. -/
theorem called_once_iff (hr : KeepsRunning r) {i : Nat} {milliseconds : Int} {callback : Bool}
    {rest : List (Act Frame CallOut)} {n : Nat} {refused : Option Nat}
    (hnonneg : 0 ≤ milliseconds)
    (hstack : (r.state i).stack = .code (.api (.timer milliseconds callback)) :: rest)
    (hevent : r.event i = .code (.created (.fd n) refused)) :
    (Itimerspec.ofInt milliseconds = some ((r.state (i + 1)).state.timerfd n) ∧
      ((r.state (i + 1)).state.timerfd n).Exact milliseconds) ∧
    ((∀ m, i < m →
        Before (World.Retains (r.state i).state.fresh) (r.state m) (r.event m)) →
      ((∃ k, ∀ m, k ≤ m →
          (timeouts (notes (r.state m).log)).count (r.state i).state.fresh = 1) ↔
        0 < milliseconds ∧ callback = true ∧ refused = none ∧
          ∀ m, i < m → Before (World.Undisturbed (r.state i).state.fresh n) (r.state m)
            (r.event m))) := by
  have hstep := r.next i
  rw [hevent] at hstep
  have hnew := constructed (known r i) hnonneg hstack hstep
  refine ⟨⟨?_, ?_⟩, fun hretains => ?_⟩
  · rw [hnew.timerfd]
    exact Itimerspec.ofInt_eq milliseconds
  · rw [hnew.timerfd]
    exact Itimerspec.ofMilliseconds_exact hnonneg
  obtain ⟨p, hp, hcallback⟩ := hnew.impl
  have hkept : ∀ m, i + 1 ≤ m → (r.state m).state.impls (r.state i).state.fresh = some p := by
    intro m hm
    induction m, hm using Nat.le_induction with
    | base => exact hp
    | succ m hm ih => exact retained_step (known r m) ih (hretains m hm) (r.next m)
  constructor
  · rintro ⟨k, hk⟩
    have hcalled : (r.state i).state.fresh ∈ timeouts (notes (r.state (k + (i + 1))).log) := by
      apply List.count_pos_iff.mp
      rw [hk (k + (i + 1)) (Nat.le_add_right ..)]
      exact Nat.one_pos
    have hlost : ∀ m, ¬ Lost (r.state i).state.fresh (r.state m) :=
      fun m hl => never_called hl _ hcalled
    refine ⟨?_, ?_, ?_, fun m hm => ?_⟩
    · by_contra hzero
      have hms : milliseconds = 0 := by omega
      refine hlost (i + 1) ⟨hnew.lt, fun fd harmed => ?_, hnew.notDue, hnew.notCalled⟩
      rw [((hnew.armed fd).mp harmed).1, hnew.timerfd]
      exact Itimerspec.ofMilliseconds_eq_zero.mpr hms
    · by_contra hnone
      refine never_called_of_callback hkept ?_ hnew.notCalled _ (Nat.le_add_left ..) hcalled
      rw [hcallback]
      exact Bool.not_eq_true _ ▸ hnone
    · by_contra hrefused
      refine hlost (i + 1) ⟨hnew.lt, fun fd harmed => ?_, hnew.notDue, hnew.notCalled⟩
      exact absurd (Option.isNone_iff_eq_none.mp ((hnew.armed fd).mp harmed).2) hrefused
    · by_contra hdisturbed
      have hlt := (known r m).once.sound.lt_fresh (hkept m hm)
      exact hlost (m + 1) (lost_of_disturbed (known r m) hlt hdisturbed (r.next m))
  · rintro ⟨hpos, hset, hregistered, hund⟩
    have harmed := (hnew.armed n).mpr ⟨rfl, Option.isNone_iff_eq_none.mpr hregistered⟩
    have hnonzero : (r.state (i + 1)).state.timerfd n ≠ .zero := by
      rw [hnew.timerfd, Ne, Itimerspec.ofMilliseconds_eq_zero]
      omega
    obtain ⟨k, -, hcalled⟩ := eventually_called hr hkept (hcallback.trans hset)
      (fun m hm => hund m hm) harmed hnonzero
    exact ⟨k, count_called hcalled⟩

end

/-! ## A loop that serves others -/

/-- The loop handles other events. -/
def serveOthers (c : Configuration) : Event Op Answer :=
  match c.stack with
  | .code .loop :: _ => .code (.ready [none])
  | .outside _ :: _ => .back
  | _ => .code .go

/-- Where the loop stands meanwhile. -/
structure ServesOthers (w : World) (ns : List Note) (c : Configuration) : Prop where
  state : c.state = w
  notes : notes c.log = ns
  stack : c.stack ∈ [[.code .loop], [.code (.batch [.other])],
    [.outside .other, .code (.batch [])], [.code (.batch [])]]

section
variable {w : World} {ns : List Note} {c : Configuration}

theorem ServesOthers.step (hrun : w.run = true) (hc : ServesOthers w ns c) :
    ∃ c', step object c (serveOthers c) = some c' ∧ ServesOthers w ns c' := by
  obtain ⟨s, stack, log⟩ := c
  obtain ⟨hstate, hnotes, hstack⟩ := hc
  dsimp only at hstate hnotes hstack
  subst hstate
  simp only [List.mem_cons, List.not_mem_nil, or_false] at hstack
  rcases hstack with rfl | rfl | rfl | rfl
  · have hsame : s.oneShot [] = s := by
      unfold World.oneShot
      simp
    have hres : resume s .loop (.ready [none]) = some (.goto s (.batch [.other]) []) := by
      show (if s.run then (s.epollWait [none]).map _ else none) = _
      rw [if_pos hrun]
      show some (Outcome.goto (s.oneShot []) _ []) = _
      rw [hsame]
      rfl
    exact ⟨_, Step.to_step (.goto hres), rfl, by simpa using hnotes, by simp⟩
  · exact ⟨_, rfl, rfl, by simpa using hnotes, by simp⟩
  · exact ⟨_, rfl, rfl, by simpa using hnotes, by simp⟩
  · exact ⟨_, rfl, rfl, by simpa using hnotes, by simp⟩

/-- Nothing is due, no exception is thrown, and no timer is touched. -/
theorem ServesOthers.quiet (hc : ServesOthers w ns c) :
    dues (frames c.stack) = [] ∧ StaysInLoop c (serveOthers c) ∧
      ∀ h fd, Before (World.Undisturbed h fd) c (serveOthers c) ∧
        Before (World.Retains h) c (serveOthers c) := by
  obtain ⟨s, stack, log⟩ := c
  have hstack := hc.stack
  simp only [List.mem_cons, List.not_mem_nil, or_false] at hstack
  rcases hstack with rfl | rfl | rfl | rfl
  · exact ⟨rfl, trivial, fun h fd => ⟨⟨fun _ h => (by cases h), trivial⟩,
      fun x hx => (by cases hx)⟩⟩
  · exact ⟨rfl, trivial, fun h fd => ⟨⟨fun _ h => (by cases h), trivial⟩,
      fun x hx => (by cases hx)⟩⟩
  · exact ⟨rfl, trivial, fun h fd => ⟨trivial, trivial⟩⟩
  · exact ⟨rfl, trivial, fun h fd => ⟨⟨fun _ h => (by cases h), trivial⟩,
      fun x hx => (by cases hx)⟩⟩

/-- A run after which no timer can be reported any more goes on for ever with other events. -/
theorem exists_keepsRunning (es : List (Event Op Answer)) (hrun : w.run = true)
    (hquiet : ∀ fd, w.report (some fd) = none)
    {log : List (Label Op CallOut Result Note)}
    (hr : Runs.run (step object) (Config.start World.new) es = some ⟨w, [.code .loop], log⟩)
    (hstays : Runs.Along (step object) StaysInLoop (Config.start World.new) es) :
    ∃ r : EndlessRun, KeepsRunning r ∧ (∀ n (h : n < es.length), r.event n = es[n]) ∧
      (∀ P, Runs.Along (step object) P (Config.start World.new) es →
        ∀ n, n < es.length → P (r.state n) (r.event n)) ∧
      ∀ n, es.length ≤ n →
        ServesOthers w (notes log) (r.state n) ∧ r.event n = serveOthers (r.state n) := by
  obtain ⟨others, hothers⟩ : ∃ r : Runs.Endless (step object) ⟨w, [.code .loop], log⟩,
      ∀ n, ServesOthers w (notes log) (r.state n) ∧ r.event n = serveOthers (r.state n) :=
    Runs.Endless.exists_following serveOthers (fun c hc => ServesOthers.step hrun hc)
      ⟨rfl, rfl, List.mem_cons_self ..⟩
  obtain ⟨r, hafter, hevents, halong⟩ := Runs.Endless.exists_after hr others
  have hserves : ∀ n, es.length ≤ n →
      ServesOthers w (notes log) (r.state n) ∧ r.event n = serveOthers (r.state n) := by
    intro n hn
    obtain ⟨k, rfl⟩ := Nat.exists_eq_add_of_le hn
    rw [(hafter k).1, (hafter k).2]
    exact hothers k
  refine ⟨r, ⟨fun n => ?_, fun n h _ => ?_, fun n fd hall => ?_⟩, hevents, halong, hserves⟩
  · rcases Nat.lt_or_ge n es.length with hn | hn
    · exact halong _ hstays n hn
    · obtain ⟨hserve, hevent⟩ := hserves n hn
      rw [hevent]
      exact hserve.quiet.2.1
  · obtain ⟨hserve, -⟩ := hserves (n + es.length) (Nat.le_add_left ..)
    refine ⟨n + es.length, Nat.le_add_right .., ?_⟩
    rw [hserve.quiet.1]
    exact List.not_mem_nil
  · obtain ⟨hserve, -⟩ := hserves (n + es.length) (Nat.le_add_left ..)
    have hreport := hall (n + es.length) (Nat.le_add_right ..)
    rw [hserve.state, hquiet fd] at hreport
    cases hreport

end

instance (f : Frame) : Decidable f.InLoop := by
  cases f <;> unfold Frame.InLoop <;> infer_instance

instance (c : Configuration) (e : Event Op Answer) : Decidable (StaysInLoop c e) := by
  cases e <;> unfold StaysInLoop <;> infer_instance

/-- A timer is constructed, and the loop starts. -/
def timerThenLoop (milliseconds : Int) : List (Event Op Answer) :=
  [.call (.timer milliseconds true), .code (.created (.fd 3) none),
    .call .waitForInput, .code .go]

/-- The timer is reported, and its callback returns. -/
def timerExpires : List (Event Op Answer) :=
  timerThenLoop 1 ++ [.code (.ready [some 3]), .code .go, .back, .code .go]

/-- The context after `timerThenLoop`. -/
def looping (milliseconds : Int) : World :=
  { ((World.new.openFd 3).settime 3 (.ofMilliseconds milliseconds)).construct milliseconds true 3
      none with run := true }

theorem looping_epoll (milliseconds : Int) : (looping milliseconds).kernel.epoll =
    Function.update (fun _ => none) 3 (some ⟨0, ⟨true, false⟩⟩) :=
  epollCtl_new World.new_sound rfl _ none

/-- The configuration in which the timer is about to be constructed. -/
theorem timerThenLoop_first {r : EndlessRun} {milliseconds : Int}
    (hevent : r.event 0 = .call (.timer milliseconds true)) :
    r.state 1 = ⟨World.new, [.code (.api (.timer milliseconds true))],
      [.call (.timer milliseconds true)]⟩ := by
  have hstep := r.next 0
  rw [hevent, r.zero] at hstep
  exact (Option.some.inj hstep).symm

/-- A timer of one millisecond. -/
theorem called_once_iff_expires :
    ∃ r : EndlessRun, KeepsRunning r ∧ r.event 0 = .call (.timer 1 true) ∧
      ∃ k, ∀ m, k ≤ m → (timeouts (notes (r.state m).log)).count 0 = 1 := by
  have hquiet : ∀ fd, ((looping 1).oneShot [3]).report (some fd) = none := by
    intro fd
    by_cases hfd : fd = 3
    · simp [World.report, World.oneShot, hfd, looping_epoll]
    · simp [World.report, World.oneShot, hfd, looping_epoll]
  obtain ⟨r, hr, hevents, halong, hserves⟩ := exists_keepsRunning timerExpires rfl hquiet rfl
    (by decide)
  have hfirst := timerThenLoop_first (r := r) (hevents 0 (by decide))
  have hleft : ∀ m, Before (World.Undisturbed 0 (3 : Nat)) (r.state m) (r.event m) ∧
      Before (World.Retains 0) (r.state m) (r.event m) := by
    intro m
    rcases Nat.lt_or_ge m timerExpires.length with hm | hm
    · exact ⟨halong _ (by decide) m hm, halong _ (by decide) m hm⟩
    · obtain ⟨hserve, hevent⟩ := hserves m hm
      rw [hevent]
      exact hserve.quiet.2.2 0 (3 : Nat)
  have hiff := (called_once_iff (i := 1) hr (show (0 : Int) ≤ 1 by decide) (by rw [hfirst])
    (hevents 1 (by decide))).2 (by rw [hfirst]; exact fun m _ => (hleft m).2)
  have honce := hiff.mpr ⟨by decide, rfl, rfl, by rw [hfirst]; exact fun m _ => (hleft m).1⟩
  rw [hfirst] at honce
  exact ⟨r, hr, hevents 0 (by decide), honce⟩

/-- A timer of no time at all: the kernel registers it, nobody touches it, the loop keeps
running, and its callback is never called. -/
theorem zero_never_called :
    ∃ r : EndlessRun, KeepsRunning r ∧
      (r.state 1).stack = [.code (.api (.timer 0 true))] ∧
      r.event 1 = .code (.created (.fd 3) none) ∧
      (∀ m, Before (World.Undisturbed 0 3) (r.state m) (r.event m) ∧
        Before (World.Retains 0) (r.state m) (r.event m)) ∧
      ∀ m, 0 ∉ timeouts (notes (r.state m).log) := by
  have hquiet : ∀ fd, (looping 0).report (some fd) = none := by
    intro fd
    by_cases hfd : fd = 3
    · rw [hfd]
      decide
    · simp [World.report, hfd, looping_epoll]
  obtain ⟨r, hr, hevents, halong, hserves⟩ := exists_keepsRunning (timerThenLoop 0) rfl hquiet rfl
    (by decide)
  have hfirst := timerThenLoop_first (r := r) (hevents 0 (by decide))
  refine ⟨r, hr, by rw [hfirst], hevents 1 (by decide), fun m => ?_, fun m => ?_⟩
  · rcases Nat.lt_or_ge m (timerThenLoop 0).length with hm | hm
    · exact ⟨halong _ (by decide) m hm, halong _ (by decide) m hm⟩
    · obtain ⟨hserve, hevent⟩ := hserves m hm
      rw [hevent]
      exact hserve.quiet.2.2 0 3
  · intro hcalled
    -- what is called stays called, but the loop serves others for ever
    have hlater := called_forever hcalled (m + (timerThenLoop 0).length) (Nat.le_add_right ..)
    rw [(hserves _ (Nat.le_add_left ..)).1.notes] at hlater
    cases hlater

end Timers
end Linux
end AcppNetwork
