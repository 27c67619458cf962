import AcppNetwork.Custody
import AcppNetwork.LinuxTimerSteps

/-!
# Who closes the descriptor of a timer

A timer has its descriptor until `cancel` or its destructor closes it; `cancel`
leaves the number in `timer_fd_`, and the destructor calls `cancel` again.  The books
of `Custody` are kept beside a run, with the timers and the other code of the process
as the keepers.  To close a number that is not open does nothing; to close one that was
given to somebody else in the meantime is a release by one who does not hold it.

The books are exact, and agree with the timers that are not cancelled and with the
table of descriptors, exactly if a timer that was cancelled closes its number again
only while it is not open, and no timer is set to a negative time (`closed_once_iff`).
-/
namespace AcppNetwork
namespace Linux
namespace Timers

open Reentrant Custody

/-- Who has descriptors to close: the `timer_impl` at `h`, or other code of the process,
which keeps each of its own by its number. -/
inductive Keeper where
  | timer (h : Nat)
  | other (fd : Int)
  deriving DecidableEq

/-- What other code obtains and closes. -/
def Elsewhere.entries (k : Kernel) : Elsewhere → List (Entry Keeper Int)
  | .opens n => [.acquire (.other n) n]
  | .closes n => if k.isOpen n then [.release (.other n) n] else []

namespace World

/-- What `cancel` closes. -/
def closes (w : World) : Option (Nat × TimerImpl) → List (Entry Keeper Int)
  | some (h, p) => if w.kernel.isOpen p.fd then [.release (.timer h) p.fd] else []
  | none => []

/-- What a stretch of code obtains and closes. -/
def entries (w : World) (f : Frame) (a : Answer) : List (Entry Keeper Int) :=
  match f, a with
  | _, .elsewhere e | .api (.elsewhere e), _ => e.entries w.kernel
  | .api (.timer milliseconds _), .created (.fd n) _ =>
      if (Itimerspec.ofMilliseconds milliseconds).Valid then [.acquire (.timer w.fresh) n]
      else [.lose n]
  | f, a => w.closes (w.closing f a)

/-- The condition: the time of a timer is not negative, and a timer that was cancelled is
cancelled again or destroyed only while its number is not open. -/
def Careful (w : World) (ns : List Note) (f : Frame) (a : Answer) : Prop :=
  match f, a with
  | .api (.timer milliseconds _), .created (.fd _) _ => 0 ≤ milliseconds
  | f, a => ∀ x ∈ w.closing f a, .cancelled x.1 ∈ ns → w.kernel.isOpen x.2.fd = false

instance (w : World) (ns : List Note) (f : Frame) (a : Answer) : Decidable (w.Careful ns f a) := by
  unfold Careful
  split <;> infer_instance

/-- What each has to close: a timer its descriptor, until it is cancelled or destroyed. -/
def holds (w : World) (ns : List Note) : Keeper → Option Int
  | .timer h => if .cancelled h ∈ ns then none else (w.impls h).map TimerImpl.fd
  | .other fd => if w.others fd then some fd else none

/-- The open descriptors have one keeper each: a timer that was neither cancelled nor
destroyed, or the code that opened it.  The others were closed as often as they were
obtained. -/
structure Accounted (w : World) (ns : List Note) (b : Books Keeper Int) : Prop where
  exact : b.Exact
  holds : b.holds = w.holds ns
  isOpen : ∀ fd, w.kernel.isOpen fd = true ↔ ∃ k, b.holds k = some fd

end World

/-- What an event adds to the books. -/
def entries (c : Configuration) (e : Event Op Answer) : List (Entry Keeper Int) :=
  match e.answer?, c.stack with
  | some a, .code f :: _ => c.state.entries f a
  | _, _ => []

/-- A context with its books. -/
def audited : Configuration × Books Keeper Int → Event Op Answer →
    Option (Configuration × Books Keeper Int) :=
  Runs.observe (step object) fun c e b => (entries c e).foldl Books.enter b

/-- What the event runs is careful. -/
def Careful (c : Configuration) (e : Event Op Answer) : Prop :=
  Before (fun w f _ a => w.Careful (notes c.log) f a) c e

instance (c : Configuration) (e : Event Op Answer) : Decidable (Careful c e) := by
  unfold Careful
  infer_instance

namespace World
variable {w w' : World} {ns ns' : List Note} {b : Books Keeper Int} {f : Frame} {a : Answer}
  {out : Next}

/-! ## What a stretch does to descriptors -/

theorem holds_same (himpls : w'.impls = w.impls) (hothers : w'.others = w.others)
    {new : List Note} (hnew : ∀ h, .cancelled h ∉ new) : w'.holds (ns ++ new) = w.holds ns := by
  funext k
  cases k with
  | timer h => simp [holds, himpls, hnew h]
  | other fd => simp [holds, hothers]

/-- What becomes of the descriptors: nothing, one is obtained, one is obtained by nobody,
or the one of `k` is closed, if `k` still has it. -/
inductive Deed (w : World) (ns : List Note) (f : Frame) (a : Answer) (w' : World)
    (ns' : List Note) : Prop where
  | nothing (hentries : w.entries f a = []) (hopen : w'.kernel.isOpen = w.kernel.isOpen)
      (hholds : w'.holds ns' = w.holds ns) (hcareful : w.Careful ns f a)
  | opens (k : Keeper) (fd : Int) (hentries : w.entries f a = [.acquire k fd])
      (hfree : w.kernel.isOpen fd = false)
      (hopen : w'.kernel.isOpen = Function.update w.kernel.isOpen fd true)
      (hk : ∀ fd' ∈ w.holds ns k, fd' = fd)
      (hholds : w'.holds ns' = Function.update (w.holds ns) k (some fd))
      (hcareful : w.Careful ns f a)
  | loses (fd : Int) (hentries : w.entries f a = [.lose fd]) (hcareful : ¬ w.Careful ns f a)
  | closes (k : Keeper) (fd : Int)
      (hentries : w.entries f a = if w.kernel.isOpen fd then [.release k fd] else [])
      (hopen : w'.kernel.isOpen = Function.update w.kernel.isOpen fd false)
      (hk : ∀ fd' ∈ w.holds ns k, fd' = fd)
      (hholds : w'.holds ns' = Function.update (w.holds ns) k none)
      (hcareful : w.Careful ns f a ↔ (w.holds ns k = none → w.kernel.isOpen fd = false))

/-- Other code opens and closes its own. -/
theorem deed_of_elsewhere {e : Elsewhere} (he : w.elsewhere e = some w')
    (hentries : w.entries f a = e.entries w.kernel) (hcareful : w.Careful ns f a)
    (hns' : ns' = ns ++ []) : Deed w ns f a w' ns' := by
  rw [hns']
  cases e with
  | opens n =>
    simp only [World.elsewhere] at he
    split at he
    · cases he
    · rename_i hfree
      cases he
      refine .opens (.other n) n hentries (Bool.not_eq_true _ ▸ hfree) rfl ?_ ?_ hcareful
      · simp [holds]
      · funext k
        by_cases hk : k = .other n
        · subst hk
          simp [holds]
        · rw [Function.update_of_ne hk]
          cases k with
          | timer h => simp [holds, openFd]
          | other fd =>
            have hfd : fd ≠ n := fun hfd => hk (by rw [hfd])
            simp [holds, hfd]
  | closes n =>
    simp only [World.elsewhere] at he
    split at he
    · rename_i hheld
      cases he
      refine .closes (.other n) n hentries rfl ?_ ?_ ?_
      · simp [holds]
      · funext k
        by_cases hk : k = .other n
        · subst hk
          simp [holds]
        · rw [Function.update_of_ne hk]
          cases k with
          | timer h => simp [holds]
          | other fd =>
            have hfd : fd ≠ n := fun hfd => hk (by rw [hfd])
            simp [holds, hfd]
      · refine iff_of_true hcareful fun hnone => ?_
        simp [holds, hheld] at hnone
    · cases he

/-- `cancel` of the timer at `h`, which is cancelled or gone afterwards. -/
theorem deed_of_cancel {h : Nat} {p : TimerImpl} (hw : w.Sound ns) (hp : w.impls h = some p)
    (hclosing : w.closing f a = some (h, p)) (hentries : w.entries f a = w.closes (w.closing f a))
    (hcareful : w.Careful ns f a ↔
      ∀ x ∈ w.closing f a, .cancelled x.1 ∈ ns → w.kernel.isOpen x.2.fd = false)
    (hkernel : w'.kernel = p.cancel w.kernel) (hothers : w'.others = w.others)
    (hself : w'.holds ns' (.timer h) = none)
    (hother : ∀ x, x ≠ h → w'.holds ns' (.timer x) = w.holds ns (.timer x)) :
    Deed w ns f a w' ns' := by
  refine .closes (.timer h) p.fd ?_ ?_ ?_ ?_ ?_
  · rw [hentries, hclosing]
    rfl
  · rw [hkernel, hw.cancel_eq hp]
    rfl
  · intro fd hfd
    simp only [holds, hp, Option.map_some, Option.mem_def] at hfd
    split at hfd
    · cases hfd
    · exact (Option.some.inj hfd).symm
  · funext k
    by_cases hk : k = .timer h
    · rw [hk, Function.update_self]
      exact hself
    · rw [Function.update_of_ne hk]
      cases k with
      | timer x => exact hother x fun hx => hk (by rw [hx])
      | other fd => simp [holds, hothers]
  · have hholds : w.holds ns (.timer h) = none ↔ .cancelled h ∈ ns := by
      simp [holds, hp]
    rw [hcareful, hclosing, hholds]
    simp

/-- **What a stretch of code does to descriptors.** -/
theorem deed_of_stretch (hw : w.Sound ns) (hs : Stretch w f a out) :
    Deed w ns f a out.state (ns ++ out.notes) := by
  cases hs with
  | @settimeFailed milliseconds callback refused n hfree hneg =>
    refine .loses n (if_neg ?_) (Int.not_le.mpr hneg)
    rw [Itimerspec.ofMilliseconds_valid]
    exact Int.not_le.mpr hneg
  | @timer milliseconds callback refused n hfree hnonneg =>
    obtain ⟨hnone, hnot⟩ := hw.beyond w.fresh (Nat.le_refl _)
    refine .opens (.timer w.fresh) n (if_pos (Itimerspec.ofMilliseconds_valid.mpr hnonneg)) hfree
      (epollCtl_isOpen ..) ?_ ?_ hnonneg
    · simp [holds, hnone]
    · funext k
      by_cases hk : k = .timer w.fresh
      · subst hk
        simp [holds, hnot, Outcome.notes, Outcome.state, construct, TimerImpl.setEventsOnce,
          World.settime, World.openFd]
      · rw [Function.update_of_ne hk]
        cases k with
        | timer h =>
          have hh : h ≠ w.fresh := fun hh => hk (by rw [hh])
          simp [holds, hh, Outcome.notes, Outcome.state, construct, World.settime, World.openFd]
        | other fd => rfl
  | @cancel o h p howned =>
    obtain ⟨-, hp⟩ := owned_iff.mp howned
    refine deed_of_cancel hw hp howned rfl Iff.rfl rfl rfl ?_ fun x hx => ?_
    · simp [holds, Outcome.notes]
    · simp [holds, Outcome.notes, Outcome.state, hx]
  | @destroy o w' hdestruct =>
    rcases destruct_some hdestruct with ⟨h, p, howned, rfl⟩ | ⟨hnone, rfl⟩
    · obtain ⟨-, hp⟩ := owned_iff.mp howned
      refine deed_of_cancel hw hp howned rfl Iff.rfl rfl rfl ?_ fun x hx => ?_
      · simp [holds, Outcome.notes, Outcome.state]
      · simp [holds, Outcome.notes, Outcome.state, hx]
    · refine .nothing ?_ rfl (holds_same rfl rfl fun _ => List.not_mem_nil) ?_
      · show w.closes (w.owned o) = []
        rw [hnone]
        rfl
      · show ∀ x ∈ w.owned o, _
        rw [hnone]
        simp
  | elsewhereCalled helsewhere =>
    exact deed_of_elsewhere helsewhere rfl (by simp [Careful, closing]) rfl
  | @elsewhere f e w' helsewhere =>
    refine deed_of_elsewhere helsewhere ?_ ?_ rfl
    · unfold entries
      rfl
    · cases f with
      | api op => cases op <;> simp [Careful, closing]
      | _ => simp [Careful, closing]
  | move hmove =>
    obtain ⟨pimpl, -, rfl⟩ := Option.map_eq_some_iff.mp hmove
    exact .nothing rfl rfl (holds_same rfl rfl fun _ => List.not_mem_nil)
      (by simp [Careful, closing])
  | ready hrun hready =>
    obtain rfl := epollWait_eq hready
    exact .nothing rfl rfl (holds_same rfl rfl fun _ => List.not_mem_nil)
      (by simp [Careful, closing])
  | _ =>
    exact .nothing rfl rfl (holds_same rfl rfl (by simp [Outcome.notes]))
      (by simp [Careful, closing])

/-! ## The books of a run -/

/-- **A stretch keeps the books exactly if** it is careful. -/
theorem accounted_deed (h : Accounted w ns b) (hd : Deed w ns f a w' ns') :
    Accounted w' ns' ((w.entries f a).foldl Books.enter b) ↔ w.Careful ns f a := by
  cases hd with
  | nothing hentries hopen hholds hcareful =>
    refine iff_of_true ?_ hcareful
    rw [hentries]
    exact ⟨h.exact, h.holds.trans hholds.symm, fun fd => by rw [hopen]; exact h.isOpen fd⟩
  | opens k fd hentries hfree hopen hk hholds hcareful =>
    refine iff_of_true ?_ hcareful
    rw [hentries]
    show Accounted w' ns' (b.enter (.acquire k fd))
    -- what is not open is held by nobody
    have hnobody : ∀ k', b.holds k' ≠ some fd := by
      intro k' hk'
      have hfdOpen := (h.isOpen fd).mpr ⟨k', hk'⟩
      rw [hfree] at hfdOpen
      cases hfdOpen
    have hnone : b.holds k = none := by
      cases hkeeps : b.holds k with
      | none => rfl
      | some fd' =>
        rw [hk fd' (by rw [← h.holds, hkeeps]; rfl)] at hkeeps
        exact absurd hkeeps (hnobody k)
    refine ⟨(Books.exact_acquire_iff h.exact hnone).mpr hnobody, ?_, fun fd' => ?_⟩
    · rw [hholds, ← h.holds]
      rfl
    · rw [hopen, Books.holds_acquire_iff hnone]
      by_cases hfd : fd' = fd
      · rw [hfd, Function.update_self]
        exact iff_of_true rfl (.inl rfl)
      · rw [Function.update_of_ne hfd, h.isOpen]
        simp [hfd]
  | loses fd hentries hcareful =>
    rw [hentries]
    exact iff_of_false (fun h' => h.exact.not_lose h'.exact) hcareful
  | closes k fd hentries hopen hk hholds hcareful =>
    rw [← h.holds] at hk hcareful hholds
    rw [hentries, hcareful]
    cases hfd : w.kernel.isOpen fd with
    | false =>
      -- the number is not open: nothing is closed, and `k` has nothing
      refine iff_of_true ?_ fun _ => rfl
      have hnone : b.holds k = none := by
        cases hkeeps : b.holds k with
        | none => rfl
        | some fd' =>
          have hfdOpen := (h.isOpen fd').mpr ⟨k, hkeeps⟩
          rw [hk fd' hkeeps, hfd] at hfdOpen
          cases hfdOpen
      have hsame : w'.kernel.isOpen = w.kernel.isOpen := by
        rw [hopen, ← hfd, Function.update_eq_self]
      refine ⟨h.exact, ?_, fun fd' => ?_⟩
      · rw [hholds]
        exact (Function.update_eq_self_iff.mpr hnone.symm).symm
      · rw [hsame]
        exact h.isOpen fd'
    | true =>
      show Accounted w' ns' (b.enter (.release k fd)) ↔ _
      constructor
      · intro h' hnone
        have hheld := (Books.exact_release_iff h.exact).mp h'.exact
        rw [hnone] at hheld
        cases hheld
      · intro hkeeps
        have hheld : b.holds k = some fd := by
          cases hsome : b.holds k with
          | none => cases hkeeps hsome
          | some fd' => rw [hk fd' hsome]
        refine ⟨h.exact.release hheld, ?_, fun fd' => ?_⟩
        · rw [hholds]
          rfl
        · rw [hopen, Books.holds_release_iff h.exact hheld]
          by_cases hfd' : fd' = fd
          · rw [hfd', Function.update_self]
            simp
          · rw [Function.update_of_ne hfd', h.isOpen]
            simp [hfd']

theorem new_accounted : World.new.Accounted [] Books.new := by
  refine ⟨Books.exact_new, ?_, fun fd => iff_of_false Bool.false_ne_true ?_⟩
  · funext k
    cases k <;> rfl
  · rintro ⟨k, hk⟩
    cases hk

end World

theorem sound_step {c c' : Configuration} {e : Event Op Answer} (hw : c.state.Sound (notes c.log))
    (hstep : step object c e = some c') : c'.state.Sound (notes c'.log) := by
  rcases (Step.of_step hstep).stretch with ⟨o, -, -, rfl⟩ |
    ⟨f, rest, a, out, kept, -, -, hres, hstate, -, -, -, -, hnotes, -⟩ | ⟨-, hstate, -, hlog⟩
  · rw [notes_append, notes_call, List.append_nil]
    exact hw
  · rw [hstate, hnotes]
    exact hw.stretch (stretch_of_resume hres)
  · rw [hstate, hlog]
    exact hw

/-- **When each descriptor of a timer is closed once, and nobody else's.**  Throughout a
run the descriptors have one keeper each, or were closed as often as they were
obtained, exactly if no timer is set to a negative time, and a timer that was cancelled
closes its number again only while it is not open. -/
theorem closed_once_iff {es : List (Event Op Answer)} {c : Configuration} {b : Books Keeper Int}
    (hr : Runs.run audited (Config.start World.new, Books.new) es = some (c, b)) :
    Runs.Throughout audited (fun x => x.1.state.Accounted (notes x.1.log) x.2)
        (Config.start World.new, Books.new) es ↔
      Runs.Along audited (fun x e => Careful x.1 e) (Config.start World.new, Books.new) es := by
  refine Runs.throughout_iff_along (J := fun x => x.1.state.Sound (notes x.1.log))
    (fun _ _ _ hw hstep => sound_step hw (Runs.observe_some.mp hstep).1)
    (fun x e x' hw h hstep => ?_) World.new_sound World.new_accounted hr
  obtain ⟨hstep, hb⟩ := Runs.observe_some.mp hstep
  rw [hb]
  rcases (Step.of_step hstep).stretch with ⟨o, rfl, -, hx⟩ |
    ⟨f, rest, a, out, kept, hstack, ha, hres, hstate, -, -, -, -, hnotes, -⟩ |
    ⟨rfl, hstate, -, hlog⟩
  · rw [hx, notes_append, notes_call, List.append_nil]
    exact iff_of_true h trivial
  · have hdeed := World.accounted_deed h (World.deed_of_stretch hw (stretch_of_resume hres))
    rw [hstate, hnotes]
    simpa only [entries, Careful, Before, ha, hstack] using hdeed
  · rw [hstate, hlog]
    exact iff_of_true h trivial

/-- A timer with descriptor 3, and what is done to it. -/
def timerThen (milliseconds : Int) (rest : List (Event Op Answer)) : List (Event Op Answer) :=
  [.call (.timer milliseconds true), .code (.created (.fd 3) none)] ++ rest

/-- The timer is cancelled and destroyed before other code gets the number. -/
theorem closed_once_iff_cancelled :
    ∃ x, Runs.run audited (Config.start World.new, Books.new)
        (timerThen 100 [.call (.cancel 0), .code .go, .call (.destroy 0), .code .go,
          .call (.elsewhere (.opens 3)), .code .go]) = some x ∧
      x.2.released 3 = 1 ∧ x.1.state.kernel.isOpen 3 = true ∧
      Runs.Throughout audited (fun x => x.1.state.Accounted (notes x.1.log) x.2)
        (Config.start World.new, Books.new)
        (timerThen 100 [.call (.cancel 0), .code .go, .call (.destroy 0), .code .go,
          .call (.elsewhere (.opens 3)), .code .go]) := by
  obtain ⟨⟨c, b⟩, hr, hreleased, hopen⟩ :
      ∃ x, Runs.run audited (Config.start World.new, Books.new)
          (timerThen 100 [.call (.cancel 0), .code .go, .call (.destroy 0), .code .go,
            .call (.elsewhere (.opens 3)), .code .go]) = some x ∧
        x.2.released 3 = 1 ∧ x.1.state.kernel.isOpen 3 = true :=
    Runs.exists_run (by decide)
  exact ⟨_, hr, hreleased, hopen, (closed_once_iff hr).mpr (by decide)⟩

/-- Other code gets the number between `cancel` and the destructor, which closes it: a
descriptor that the other code holds is not open. -/
theorem destructor_closes_other :
    ∃ x, Runs.run audited (Config.start World.new, Books.new)
        (timerThen 100 [.call (.cancel 0), .code .go, .call (.elsewhere (.opens 3)), .code .go,
          .call (.destroy 0), .code .go]) = some x ∧
      x.1.state.others 3 = true ∧ x.1.state.kernel.isOpen 3 = false ∧
      ¬ x.1.state.Accounted (notes x.1.log) x.2 := by
  obtain ⟨x, hr, hother, hclosed, hholds⟩ :
      ∃ x, Runs.run audited (Config.start World.new, Books.new)
          (timerThen 100 [.call (.cancel 0), .code .go, .call (.elsewhere (.opens 3)), .code .go,
            .call (.destroy 0), .code .go]) = some x ∧
        x.1.state.others 3 = true ∧ x.1.state.kernel.isOpen 3 = false ∧
        x.2.holds (.other 3) = some 3 :=
    Runs.exists_run (by decide)
  refine ⟨x, hr, hother, hclosed, fun h => ?_⟩
  have hopen := (h.isOpen 3).mpr ⟨_, hholds⟩
  rw [hclosed] at hopen
  cases hopen

end Timers
end Linux
end AcppNetwork
