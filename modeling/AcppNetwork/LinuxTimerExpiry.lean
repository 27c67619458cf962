import AcppNetwork.LinuxTimerCancel

/-!
# Timers that expire

The constructor of `timer_impl` splits the milliseconds into seconds and nanoseconds, in
`int` arithmetic, sets the timer and registers it for one report.  From there on the timer is
armed until `epoll_wait` reports it, due until the loop comes to it, and then its callback
has been called.  What a step does to a timer that is armed (`armed_step`) or due
(`due_step`) holds while nobody else closes its descriptor, and no event before its own is
dispatched to a timer that is gone (`World.Undisturbed`).
-/
namespace AcppNetwork
namespace Linux
namespace Timers

open Reentrant

/-! ## The time a timer is set to -/

/-- The product of two `int`s; overflow is undefined. -/
def intMul (a b : Int) : Option Int :=
  if -2147483648 ≤ a * b ∧ a * b ≤ 2147483647 then some (a * b) else none

/-- `it_value` as the constructor of `timer_impl` computes it. -/
def Itimerspec.ofInt (milliseconds : Int) : Option Itimerspec := do
  let millisRemainder := milliseconds.tmod 1000
  let micros ← intMul millisRemainder 1000
  let nsec ← intMul micros 1000
  return ⟨milliseconds.tdiv 1000, nsec⟩

/-- The time of `ts` is that many milliseconds, with the nanoseconds less than a second. -/
structure Itimerspec.Exact (ts : Itimerspec) (milliseconds : Int) : Prop where
  total : ts.sec * 1000000000 + ts.nsec = milliseconds * 1000000
  nonneg : 0 ≤ ts.nsec
  lt : ts.nsec < 1000000000

theorem intMul_eq {a b : Int} (hlo : -2147483648 ≤ a * b) (hhi : a * b ≤ 2147483647) :
    intMul a b = some (a * b) := if_pos ⟨hlo, hhi⟩

/-- No product overflows. -/
theorem Itimerspec.ofInt_eq (milliseconds : Int) :
    ofInt milliseconds = some (ofMilliseconds milliseconds) := by
  have hlt := Int.tmod_lt_of_pos milliseconds (show (0 : Int) < 1000 by decide)
  have hgt := Int.lt_tmod_of_pos milliseconds (show (0 : Int) < 1000 by decide)
  unfold ofInt ofMilliseconds
  dsimp only
  rw [intMul_eq (by omega) (by omega)]
  dsimp only [Option.bind_eq_bind, Option.bind_some]
  rw [intMul_eq (by omega) (by omega)]
  rfl

theorem Itimerspec.ofMilliseconds_exact {milliseconds : Int} (h : 0 ≤ milliseconds) :
    (ofMilliseconds milliseconds).Exact milliseconds := by
  obtain ⟨-, hnonneg, hlt⟩ := ofMilliseconds_valid.mpr h
  refine ⟨?_, hnonneg, hlt⟩
  have hsplit := Int.mul_tdiv_add_tmod milliseconds 1000
  show milliseconds.tdiv 1000 * 1000000000 + milliseconds.tmod 1000 * 1000 * 1000 = _
  omega

/-- Only no time at all is zero. -/
theorem Itimerspec.ofMilliseconds_eq_zero {milliseconds : Int} :
    ofMilliseconds milliseconds = .zero ↔ milliseconds = 0 := by
  constructor
  · intro h
    have hsec : milliseconds.tdiv 1000 = 0 := congrArg Itimerspec.sec h
    have hnsec : milliseconds.tmod 1000 * 1000 * 1000 = 0 := congrArg Itimerspec.nsec h
    have hsplit := Int.mul_tdiv_add_tmod milliseconds 1000
    omega
  · rintro rfl
    decide

/-! ## Armed, due, called -/

/-- The timer at `h` is registered with the descriptor `fd`, and was not reported. -/
def World.Armed (w : World) (h : Nat) (fd : Int) : Prop :=
  ∃ r ∈ w.kernel.epoll fd, r.ptr = h ∧ r.events.epollin = true

/-- The number that a stretch of code closes. -/
def World.closed (w : World) (f : Frame) (a : Answer) : Option Int :=
  match f, a with
  | _, .elsewhere (.closes n) => some n
  | .api (.elsewhere (.closes n)), .go => some n
  | f, a => (w.closing f a).map fun x => x.2.fd

/-- What is dispatched to a timer that is gone is not dispatched before the event of the
timer at `h`. -/
def World.Reaches (w : World) (h : Nat) (f : Frame) (a : Answer) : Prop :=
  match f, a with
  | .batch (.timer x _ :: rest), .go => h ∈ rest.flatMap Ready.timers → (w.impls x).isSome = true
  | _, _ => True

/-- The condition on a stretch of code: while the timer at `h` is armed, its descriptor is
not closed; while it is due, no event before its own is dispatched to a timer that is
gone. -/
def World.Undisturbed (h : Nat) (fd : Int) (w : World) (f : Frame) (_ : List Frame) (a : Answer) :
    Prop :=
  (w.Armed h fd → w.closed f a ≠ some fd) ∧ w.Reaches h f a

/-- The timer at `h` is not cancelled or destroyed. -/
def World.Retains (h : Nat) (w : World) (f : Frame) (_ : List Frame) (a : Answer) : Prop :=
  ∀ x ∈ w.closing f a, x.1 ≠ h

instance (w : World) (h : Nat) (fd : Int) : Decidable (w.Armed h fd) := by
  unfold World.Armed
  infer_instance

instance (w : World) (h : Nat) (f : Frame) (a : Answer) : Decidable (w.Reaches h f a) := by
  unfold World.Reaches
  split <;> infer_instance

instance (h : Nat) (fd : Int) (w : World) (f : Frame) (fs : List Frame) (a : Answer) :
    Decidable (w.Undisturbed h fd f fs a) := by
  unfold World.Undisturbed
  infer_instance

instance (h : Nat) (w : World) (f : Frame) (fs : List Frame) (a : Answer) :
    Decidable (w.Retains h f fs a) := by
  unfold World.Retains
  infer_instance

/-- What stands in an array is an `EPOLLIN` event. -/
def Frame.Readable : Frame → Prop
  | .batch ready => ∀ h events, .timer h events ∈ ready → events.epollin = true
  | _ => True

section
variable {w w' : World} {f : Frame} {fs : List Frame} {ns : List Note} {a : Answer} {out : Next}
  {h : Nat} {fd : Int}

/-- An armed timer has an open descriptor. -/
theorem World.Armed.isOpen (hw : w.Sound ns) (harmed : w.Armed h fd) :
    w.kernel.isOpen fd = true := by
  obtain ⟨r, hr, -, -⟩ := harmed
  exact (hw.registered fd r hr).1

/-- What the kernel says about it does not change. -/
theorem World.Armed.of_eq (harmed : w.Armed h fd) (heq : w'.kernel.epoll fd = w.kernel.epoll fd) :
    w'.Armed h fd := by
  obtain ⟨r, hr, hptr, hin⟩ := harmed
  exact ⟨r, heq.trans hr, hptr, hin⟩

theorem World.Armed.close (harmed : w.Armed h fd) {fd' : Int} (hne : fd ≠ fd')
    (heq : w'.kernel.epoll = (w.kernel.close fd').epoll) : w'.Armed h fd :=
  harmed.of_eq (by rw [heq]; exact Function.update_of_ne hne ..)

theorem World.epollCtl_of_ne {k : Kernel} {mode : CtlMode} {fd fd' : Int} {r : Registration}
    {refused : Option Nat} (hne : fd' ≠ fd) :
    (k.epollCtl mode fd r refused).1.epoll fd' = k.epoll fd' := by
  unfold Kernel.epollCtl
  split
  · rfl
  · exact Function.update_of_ne hne ..

/-- A report of an armed timer is for that timer. -/
theorem World.Armed.report (harmed : w.Armed h fd) {entry : Ready}
    (hreport : w.report (some fd) = some entry) : h ∈ entry.timers := by
  obtain ⟨r, hr, hptr, -⟩ := harmed
  obtain ⟨r', hr', hrest⟩ := Option.bind_eq_some_iff.mp hreport
  obtain rfl : r = r' := Option.some.inj (hr.symm.trans hr')
  split at hrest
  · cases hrest
    exact List.mem_singleton.mpr hptr.symm
  · cases hrest

/-- What is reported becomes due. -/
theorem World.Armed.reported (harmed : w.Armed h fd) {fds : List (Option Int)} {ready : List Ready}
    (hready : w.epollWait fds = some (w', ready)) (hmem : some fd ∈ fds) :
    h ∈ ready.flatMap Ready.timers := by
  obtain ⟨-, hreports, -⟩ := epollWait_armed hready
  obtain ⟨entry, hentry, hreport⟩ := (mem_of_mapM hreports).1 _ hmem
  exact List.mem_flatMap.mpr ⟨entry, hentry, harmed.report hreport⟩

theorem World.Armed.elsewhere (harmed : w.Armed h fd) {e : Elsewhere}
    (hcloses : ∀ n : Nat, e = .closes n → fd ≠ n) (he : w.elsewhere e = some w') :
    w'.Armed h fd ∧ w'.timerfd fd = w.timerfd fd := by
  cases e with
  | opens n =>
    simp only [World.elsewhere] at he
    split at he <;> cases he
    exact ⟨harmed.of_eq rfl, rfl⟩
  | closes n =>
    simp only [World.elsewhere] at he
    split at he <;> cases he
    exact ⟨harmed.close (hcloses n rfl) rfl, rfl⟩

/-- **What becomes of an armed timer**: it stays armed, set as it was, or becomes due. -/
theorem World.Armed.stretch (hw : w.Sound ns) (harmed : w.Armed h fd)
    (hclosed : w.closed f a ≠ some fd) (hs : Stretch w f a out) :
    out.state.Armed h fd ∧ out.state.timerfd fd = w.timerfd fd ∨ h ∈ dues out.frames := by
  have hopen := harmed.isOpen hw
  have hne : ∀ {n : Nat}, w.kernel.isOpen n = false → fd ≠ n := by
    rintro n hfree rfl
    rw [hfree] at hopen
    cases hopen
  cases hs with
  | settimeFailed hfree hneg =>
    exact .inl ⟨harmed.of_eq rfl, Function.update_of_ne (hne hfree) ..⟩
  | timer hfree hnonneg =>
    exact .inl ⟨harmed.of_eq (epollCtl_of_ne (hne hfree)), Function.update_of_ne (hne hfree) ..⟩
  | @cancel o x p howned =>
    have hp : w.impls x = some p := (owned_iff.mp howned).2
    have hfd : fd ≠ p.fd := by
      rintro rfl
      exact hclosed (Option.map_eq_some_iff.mpr ⟨(x, p), howned, rfl⟩)
    refine .inl ⟨harmed.close hfd ?_, rfl⟩
    show (p.cancel w.kernel).epoll = _
    rw [hw.cancel_eq hp]
  | @destroy o w' hdestruct =>
    rcases destruct_some hdestruct with ⟨x, p, howned, rfl⟩ | ⟨-, rfl⟩
    · have hp : w.impls x = some p := (owned_iff.mp howned).2
      have hfd : fd ≠ p.fd := by
        rintro rfl
        exact hclosed (Option.map_eq_some_iff.mpr ⟨(x, p), howned, rfl⟩)
      refine .inl ⟨harmed.close hfd ?_, rfl⟩
      show (p.cancel w.kernel).epoll = _
      rw [hw.cancel_eq hp]
    · exact .inl ⟨harmed.of_eq rfl, rfl⟩
  | move hmove =>
    obtain ⟨pimpl, -, rfl⟩ := Option.map_eq_some_iff.mp hmove
    exact .inl ⟨harmed.of_eq rfl, rfl⟩
  | @elsewhereCalled e w' helsewhere =>
    exact .inl (harmed.elsewhere (fun n he hfd => hclosed (by rw [he, hfd]; rfl)) helsewhere)
  | @elsewhere f e w' helsewhere =>
    refine .inl (harmed.elsewhere (fun n he hfd => hclosed ?_) helsewhere)
    rw [he, hfd]
    unfold World.closed
    rfl
  | @ready fds w' ready hrun hready =>
    by_cases hmem : some fd ∈ fds
    · right
      rw [Outcome.frames, dues_cons, dues_nil, List.append_nil]
      exact harmed.reported hready hmem
    · left
      obtain rfl := epollWait_eq hready
      refine ⟨harmed.of_eq ?_, rfl⟩
      have hnot : fd ∉ fds.filterMap id := by
        intro h
        obtain ⟨e, he, rfl⟩ := List.mem_filterMap.mp h
        exact hmem he
      exact if_neg hnot
  | _ => exact .inl ⟨harmed.of_eq rfl, rfl⟩

/-- What the kernel reports about a timer it reports as `EPOLLIN`, and of one that is set. -/
theorem set_of_report {e : Option Int} {x : Nat} {events : Events}
    (hreport : w.report e = some (.timer x events)) :
    events.epollin = true ∧ ∃ fd, w.Armed x fd ∧ w.timerfd fd ≠ .zero := by
  cases e with
  | none => cases hreport
  | some fd =>
    obtain ⟨r, hr, hrest⟩ := Option.bind_eq_some_iff.mp hreport
    split at hrest
    · rename_i hset
      cases hrest
      exact ⟨hset.1, fd, ⟨r, hr, rfl, hset.1⟩, hset.2⟩
    · cases hrest

theorem readable_of_stretch (hf : f.Readable) (hs : Stretch w f a out) :
    ∀ g ∈ out.frames, g.Readable := by
  cases hs with
  | @ready fds w' ready hrun hready =>
    obtain ⟨-, hreports, -⟩ := epollWait_armed hready
    refine List.forall_mem_singleton.mpr fun x events hmem => ?_
    obtain ⟨e, -, hreport⟩ := (mem_of_mapM hreports).2 _ hmem
    exact (set_of_report hreport).1
  | elsewhere helsewhere => exact List.forall_mem_singleton.mpr hf
  | other | timeout _ _ _ | silent _ _ =>
    exact List.forall_mem_singleton.mpr fun x events hmem =>
      hf x events (List.mem_cons_of_mem _ hmem)
  | batchEnd | gone _ | waitForInput => exact List.forall_mem_singleton.mpr trivial
  | _ => exact fun _ hg => absurd hg List.not_mem_nil

/-- **What becomes of a due timer** that the loop comes to: its callback is called. -/
theorem due_or_called {p : TimerImpl} (hp : w.impls h = some p) (hcallback : p.callback = true)
    (hf : f.Readable) (hreaches : w.Reaches h f a) (hdue : h ∈ f.due) (hs : Stretch w f a out) :
    h ∈ dues out.frames ∨ h ∈ timeouts out.notes := by
  have hrest : ∀ {x : Nat} {events : Events} {rest : List Ready},
      h ∈ Frame.due (.batch (.timer x events :: rest)) → h = x ∨ h ∈ rest.flatMap Ready.timers :=
    fun hmem => List.mem_cons.mp hmem
  have hstays : ∀ {rest : List Ready}, h ∈ rest.flatMap Ready.timers → h ∈ dues [.batch rest] := by
    intro rest hmem
    simpa [Frame.due] using hmem
  cases hs with
  | elsewhere helsewhere =>
    left
    rw [Outcome.frames, dues_cons, dues_nil, List.append_nil]
    exact hdue
  | other => exact .inl (hstays hdue)
  | @gone x events rest hgone =>
    rcases hrest hdue with rfl | hmem
    · rw [hgone] at hp
      cases hp
    · have hsome := hreaches hmem
      rw [hgone] at hsome
      cases hsome
  | @timeout x events rest q hq hin hset =>
    rcases hrest hdue with rfl | hmem
    · right
      simp [Outcome.notes, timeouts]
    · exact .inl (hstays hmem)
  | @silent x events rest q hq hsilent =>
    rcases hrest hdue with rfl | hmem
    · obtain rfl : p = q := Option.some.inj (hp.symm.trans hq)
      exact absurd ⟨hf h events (List.mem_cons_self ..), hcallback⟩ hsilent
    · exact .inl (hstays hmem)
  | _ => cases hdue

/-- Whose callback is called stood in the array, and has one. -/
theorem called_of_stretch (hs : Stretch w f a out) (hcalled : h ∈ timeouts out.notes) :
    h ∈ f.due ∧ ∃ p, w.impls h = some p ∧ p.callback = true := by
  cases hs with
  | @timeout x events rest p hp hin hset =>
    obtain rfl : h = x := by simpa [Outcome.notes, timeouts] using hcalled
    exact ⟨List.mem_cons_self .., p, hp, hset⟩
  | _ => simp [Outcome.notes, timeouts] at hcalled

theorem fresh_le_of_stretch (hw : w.Sound ns) (hs : Stretch w f a out) :
    w.fresh ≤ out.state.fresh := by
  cases turn_of_stretch hw hs with
  | nothing hdue hnotes hfresh himpls hepoll => exact hfresh
  | constructed hdue hnotes hfresh himpls hepoll => omega
  | reported fds ready hdue hnotes hready =>
    rw [World.epollWait_eq hready]
    exact Nat.le_refl _
  | dispatched x called hdue hnotes hstate =>
    rw [hstate]
  | closed x p hclosing hdue hnotes hfresh himpls hepoll => omega

/-- A timer that is armed after a stretch, if it is not new, was armed before. -/
theorem armed_before (hw : w.Sound ns) (hlt : h < w.fresh) (hs : Stretch w f a out)
    (harmed : out.state.Armed h fd) : w.Armed h fd := by
  obtain ⟨r, hr, rfl, hin⟩ := harmed
  cases turn_of_stretch hw hs with
  | nothing hdue hnotes hfresh himpls hepoll => exact ⟨r, hepoll fd r hr, rfl, hin⟩
  | constructed hdue hnotes hfresh himpls hepoll =>
    rcases hepoll fd r hr with hold | hptr
    · exact ⟨r, hold, rfl, hin⟩
    · omega
  | reported fds ready hdue hnotes hready =>
    exact ⟨r, ((epollWait_armed hready).2.2 fd r hr hin).2, rfl, hin⟩
  | dispatched x called hdue hnotes hstate => exact ⟨r, hstate ▸ hr, rfl, hin⟩
  | closed x p hclosing hdue hnotes hfresh himpls hepoll => exact ⟨r, (hepoll fd r hr).1, rfl, hin⟩

/-- What is due after a stretch, and was not before, was armed and set. -/
theorem due_before (hw : w.Sound ns) (hs : Stretch w f a out) (hdue : h ∈ dues out.frames) :
    h ∈ f.due ∨ ∃ fd, w.Armed h fd ∧ w.timerfd fd ≠ .zero := by
  cases turn_of_stretch hw hs with
  | nothing hsub hnotes hfresh himpls hepoll => exact .inl (hsub.subset hdue)
  | constructed hnone hnotes hfresh himpls hepoll | closed x p hclosing hnone hnotes =>
    rw [hnone] at hdue
    cases hdue
  | reported fds ready hnew hnotes hready =>
    right
    rw [hnew] at hdue
    obtain ⟨entry, hentry, hx⟩ := List.mem_flatMap.mp hdue
    obtain ⟨e, -, hreport⟩ := (mem_of_mapM (epollWait_armed hready).2.1).2 entry hentry
    cases entry with
    | other => cases hx
    | timer x events =>
      obtain rfl := List.mem_singleton.mp hx
      exact (set_of_report hreport).2
  | dispatched x called hsub hnotes hstate =>
    exact .inl (hsub.subset (List.mem_cons_of_mem _ hdue))

/-- A descriptor that is open stays set to what it was. -/
theorem timerfd_of_stretch (hopen : w.kernel.isOpen fd = true) (hs : Stretch w f a out) :
    out.state.timerfd fd = w.timerfd fd := by
  have hne : ∀ {n : Nat}, w.kernel.isOpen n = false → fd ≠ n := by
    rintro n hfree rfl
    rw [hfree] at hopen
    cases hopen
  cases hs with
  | settimeFailed hfree hneg => exact Function.update_of_ne (hne hfree) ..
  | timer hfree hnonneg => exact Function.update_of_ne (hne hfree) ..
  | destroy hdestruct =>
    rcases destruct_some hdestruct with ⟨x, p, -, rfl⟩ | ⟨-, rfl⟩ <;> rfl
  | move hmove =>
    obtain ⟨pimpl, -, rfl⟩ := Option.map_eq_some_iff.mp hmove
    rfl
  | @elsewhereCalled e w' helsewhere | @elsewhere _ e w' helsewhere =>
    cases e <;> simp only [World.elsewhere] at helsewhere <;> split at helsewhere <;>
      cases helsewhere <;> rfl
  | ready hrun hready =>
    obtain rfl := World.epollWait_eq hready
    rfl
  | _ => rfl

/-- A number that is closed is not registered, and closing it makes nothing due. -/
theorem epoll_of_closed (hw : w.Sound ns) (hclosed : w.closed f a = some fd)
    (hs : Stretch w f a out) :
    out.state.kernel.epoll fd = none ∧ (dues out.frames).Sublist f.due := by
  cases hs with
  | @cancel o x p howned =>
    obtain ⟨y, hy, rfl⟩ := Option.map_eq_some_iff.mp hclosed
    obtain rfl : y = (x, p) := Option.some.inj (hy.symm.trans howned)
    refine ⟨?_, List.nil_sublist _⟩
    show (p.cancel w.kernel).epoll p.fd = none
    rw [hw.cancel_eq (owned_iff.mp howned).2]
    exact Function.update_self ..
  | @destroy o w' hdestruct =>
    obtain ⟨y, hy, rfl⟩ := Option.map_eq_some_iff.mp hclosed
    rcases destruct_some hdestruct with ⟨x, p, howned, rfl⟩ | ⟨hnone, -⟩
    · obtain rfl : y = (x, p) := Option.some.inj (hy.symm.trans howned)
      refine ⟨?_, List.nil_sublist _⟩
      show (p.cancel w.kernel).epoll p.fd = none
      rw [hw.cancel_eq (owned_iff.mp howned).2]
      exact Function.update_self ..
    · change w.owned o = some y at hy
      rw [hnone] at hy
      cases hy
  | @elsewhereCalled e w' helsewhere | @elsewhere f e w' helsewhere =>
    cases e with
    | opens n => simp [World.closed, World.closing] at hclosed
    | closes n =>
      obtain rfl : (n : Int) = fd := by
        unfold World.closed at hclosed
        exact Option.some.inj hclosed
      simp only [World.elsewhere] at helsewhere
      split at helsewhere <;> cases helsewhere
      exact ⟨Function.update_self .., by simp [Outcome.frames]⟩
  | _ => cases hclosed

/-- A timer that is retained stays where it is. -/
theorem impls_of_stretch (hw : w.Sound ns) {p : TimerImpl} (hp : w.impls h = some p)
    (hretains : w.Retains h f fs a) (hs : Stretch w f a out) : out.state.impls h = some p := by
  have hlt := hw.lt_fresh hp
  cases turn_of_stretch hw hs with
  | nothing hdue hnotes hfresh himpls hepoll => exact (congrFun himpls h).trans hp
  | constructed hdue hnotes hfresh himpls hepoll =>
    exact (himpls h (Nat.ne_of_lt hlt)).trans hp
  | reported fds ready hdue hnotes hready =>
    rw [World.epollWait_eq hready]
    exact hp
  | dispatched x called hdue hnotes hstate =>
    rw [hstate]
    exact hp
  | closed x q hclosing hdue hnotes hfresh himpls hepoll =>
    exact (himpls h (hretains (x, q) hclosing).symm).trans hp

end

/-! ## Steps -/

/-- An activation of `wait_for_input`. -/
def Frame.InLoop : Frame → Prop
  | .api _ => False
  | _ => True

/-- No exception leaves an activation of `wait_for_input`. -/
def StaysInLoop (c : Configuration) : Event Op Answer → Prop
  | .unwind _ depth => ∀ f ∈ frames (c.stack.take (depth + 1)), ¬ f.InLoop
  | _ => True

/-- What is known of every configuration a run reaches. -/
structure Known (c : Configuration) : Prop where
  once : Once c.state (frames c.stack) (notes c.log)
  readable : ∀ f ∈ frames c.stack, f.Readable

section
variable {c c' : Configuration} {e : Event Op Answer} {h : Nat} {fd : Int}

theorem new_known : Known (Config.start World.new) :=
  ⟨⟨World.new_sound, List.nodup_nil, fun _ _ h => (by cases h), by simp [Config.start]⟩,
    by simp [Config.start]⟩

theorem Known.step (hk : Known c) (hstep : step object c e = some c') : Known c' := by
  rcases (Step.of_step hstep).stretch with ⟨o, -, -, rfl⟩ |
    ⟨f, rest, a, out, kept, hstack, -, hres, hstate, hsuffix, -, hframes, -, hnotes, -⟩ |
    ⟨-, hstate, hframes, hlog⟩
  · refine ⟨?_, List.forall_mem_cons.mpr ⟨trivial, hk.readable⟩⟩
    rw [notes_append, notes_call, List.append_nil]
    exact ⟨hk.once.sound, hk.once.nodup, hk.once.armed, hk.once.beyond⟩
  · have honce := hk.once
    have hreadable := hk.readable
    rw [hstack, frames_code] at honce hreadable
    have hs := stretch_of_resume hres
    obtain ⟨hf, hrest⟩ := List.forall_mem_cons.mp hreadable
    refine ⟨?_, ?_⟩
    · rw [hstate, hframes, hnotes]
      exact honce.stretch hs hsuffix
    · rw [hframes]
      exact List.forall_mem_append.mpr
        ⟨readable_of_stretch hf hs, fun g hg => hrest g (hsuffix.subset hg)⟩
  · refine ⟨?_, ?_⟩
    · rw [hstate, hframes, hlog]
      exact hk.once
    · rw [hframes]
      exact hk.readable

/-- Calls are not forgotten. -/
theorem called_step (hstep : step object c e = some c') (hcalled : h ∈ timeouts (notes c.log)) :
    h ∈ timeouts (notes c'.log) := by
  rcases (Step.of_step hstep).stretch with ⟨o, -, -, rfl⟩ |
    ⟨f, rest, a, out, kept, -, -, -, -, -, -, -, -, hnotes, -⟩ | ⟨-, -, -, hlog⟩
  · rw [notes_append, timeouts_append]
    exact List.mem_append_left _ hcalled
  · rw [hnotes, timeouts_append]
    exact List.mem_append_left _ hcalled
  · rw [hlog]
    exact hcalled

theorem retained_step (hk : Known c) {p : TimerImpl} (hp : c.state.impls h = some p)
    (hretains : Before (World.Retains h) c e) (hstep : step object c e = some c') :
    c'.state.impls h = some p :=
  (Step.of_step hstep).preserves (J := fun w => w.impls h = some p) hp hretains (fun _ => hp)
    fun hretains hres => impls_of_stretch hk.once.sound hp hretains (stretch_of_resume hres)

theorem armed_step (hk : Known c) (harmed : c.state.Armed h fd)
    (hund : Before (World.Undisturbed h fd) c e) (hstep : step object c e = some c') :
    c'.state.Armed h fd ∧ c'.state.timerfd fd = c.state.timerfd fd ∨
      h ∈ dues (frames c'.stack) := by
  rcases (Step.of_step hstep).stretch with ⟨o, -, -, rfl⟩ |
    ⟨f, rest, a, out, kept, hstack, ha, hres, hstate, -, -, hframes, -⟩ | ⟨-, hstate, -⟩
  · exact .inl ⟨harmed, rfl⟩
  · simp only [Before, ha, hstack] at hund
    rw [hstate, hframes, dues_append]
    rcases harmed.stretch hk.once.sound (hund.1 harmed) (stretch_of_resume hres) with hsame | hdue
    · exact .inl hsame
    · exact .inr (List.mem_append_left _ hdue)
  · rw [hstate]
    exact .inl ⟨harmed, rfl⟩

/-- The kernel's report makes a timer due. -/
theorem reported_step (harmed : c.state.Armed h fd) {fds : List (Option Int)}
    (hmem : some fd ∈ fds) (hstep : step object c (.code (.ready fds)) = some c') :
    h ∈ dues (frames c'.stack) := by
  rcases (Step.of_step hstep).stretch with ⟨o, he, -⟩ |
    ⟨f, rest, a, out, kept, hstack, ha, hres, hstate, -, -, hframes, -⟩ | ⟨he, -⟩
  · cases he
  · cases ha
    rw [hframes, dues_append]
    have hs : Stretch c.state f (.ready fds) out := stretch_of_resume hres
    cases hs with
    | ready hrun hready =>
      apply List.mem_append_left
      rw [Outcome.frames, dues_cons, dues_nil, List.append_nil]
      exact harmed.reported hready hmem
  · cases he

/-- A timer whose callback is called has one. -/
theorem callback_of_called (hstep : step object c e = some c')
    (hcalled : h ∈ timeouts (notes c'.log)) :
    h ∈ timeouts (notes c.log) ∨ ∃ p, c.state.impls h = some p ∧ p.callback = true := by
  rcases (Step.of_step hstep).stretch with ⟨o, -, -, rfl⟩ |
    ⟨f, rest, a, out, kept, -, -, hres, -, -, -, -, -, hnotes, -⟩ | ⟨-, -, -, hlog⟩
  · rw [notes_append, notes_call, List.append_nil] at hcalled
    exact .inl hcalled
  · rw [hnotes, timeouts_append] at hcalled
    rcases List.mem_append.mp hcalled with hcalled | hcalled
    · exact .inl hcalled
    · exact .inr (called_of_stretch (stretch_of_resume hres) hcalled).2
  · rw [hlog] at hcalled
    exact .inl hcalled

/-- What an exception that stays in the loop leaves is due as before. -/
theorem dues_unwound {s : World} {f : Frame} {rest : List (Act Frame CallOut)}
    {log : List (Label Op CallOut Result Note)} {a : Answer} {depth : Nat}
    (hstays : StaysInLoop ⟨s, .code f :: rest, log⟩ (.unwind a depth))
    (hdue : h ∈ dues (f :: frames rest)) : h ∈ dues (frames (rest.drop depth)) := by
  have hnone : ∀ g : Frame, ¬ g.InLoop → g.due = [] := by
    intro g hg
    cases g with
    | api op => rfl
    | _ => exact absurd trivial hg
  have hsplit : frames rest = frames (rest.take depth) ++ frames (rest.drop depth) := by
    rw [← frames_append, List.take_append_drop]
  obtain ⟨g, hg, hmem⟩ := List.mem_flatMap.mp hdue
  rw [hsplit] at hg
  rcases List.mem_append.mp (show g ∈ (f :: frames (rest.take depth)) ++ _ from hg) with hg | hg
  · rw [hnone g (hstays g hg)] at hmem
    cases hmem
  · exact List.mem_flatMap.mpr ⟨g, hg, hmem⟩

theorem due_step (hk : Known c) {p : TimerImpl} (hp : c.state.impls h = some p)
    (hcallback : p.callback = true) (hstays : StaysInLoop c e)
    (hund : Before (World.Undisturbed h fd) c e) (hstep : step object c e = some c')
    (hdue : h ∈ dues (frames c.stack)) :
    h ∈ dues (frames c'.stack) ∨ h ∈ timeouts (notes c'.log) := by
  -- a stretch that leaves the activations under it
  have hgoesOn : ∀ {f : Frame} {rest : List (Act Frame CallOut)} {a : Answer} {out : Next},
      c.stack = .code f :: rest → c.state.Undisturbed h fd f (frames rest) a →
      resume c.state f a = some out →
      h ∈ dues (out.frames ++ frames rest) ∨ h ∈ timeouts (notes c.log ++ out.notes) := by
    intro f rest a out hstack hund hres
    have hreadable := hk.readable
    rw [hstack, frames_code] at hdue hreadable
    rw [dues_append, timeouts_append]
    rcases List.mem_append.mp hdue with hdue | hdue
    · rcases due_or_called hp hcallback (hreadable f (List.mem_cons_self ..)) hund.2 hdue
        (stretch_of_resume hres) with hmem | hmem
      · exact .inl (List.mem_append_left _ hmem)
      · exact .inr (List.mem_append_right _ hmem)
    · exact .inl (List.mem_append_right _ hdue)
  cases Step.of_step hstep with
  | call o hout => exact .inl hdue
  | goto hres | callOut hres | ret hres =>
    simpa [Outcome.frames, Outcome.notes] using hgoesOn rfl hund hres
  | unwind depth hres hout => exact .inl (dues_unwound hstays hdue)
  | back => exact .inl hdue

end

end Timers
end Linux
end AcppNetwork
