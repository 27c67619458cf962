import AcppNetwork.LinuxTimer

/-!
# The stretches of the timers' code

`Stretch` says what a stretch of code of a context with timers can do, one constructor
for each way through it, and `stretch_of_resume` that the code does nothing else.

`World.Sound` is what all of them keep: the interest list of epoll knows open
descriptors only, with the pointers to the timers they belong to.
-/
namespace AcppNetwork
namespace Linux
namespace Timers

open Reentrant

/-- The `timer_impl` whose `cancel` a stretch of code runs, with its address. -/
def World.closing (w : World) (f : Frame) (a : Answer) : Option (Nat × TimerImpl) :=
  match f, a with
  | .api (.cancel o), .go | .api (.destroy o), .go => w.owned o
  | _, _ => none

/-- The ways through the code. -/
inductive Stretch : World → Frame → Answer → Next → Prop where
  | waitForInput {w} :
      Stretch w (.api .waitForInput) .go (.goto { w with run := true } .loop [])
  | stop {w} : Stretch w (.api .stop) .go (.ret { w with run := false } .void [])
  | createFailed {w milliseconds callback refused e} (he : e ≠ 0) :
      Stretch w (.api (.timer milliseconds callback)) (.created (.failed e) refused)
        (.throw (w.setErrno e) [])
  | settimeFailed {w milliseconds callback refused} {n : Nat} (hfree : w.kernel.isOpen n = false)
      (hneg : milliseconds < 0) :
      Stretch w (.api (.timer milliseconds callback)) (.created (.fd n) refused)
        (.throw (((w.openFd n).settime n .zero).setErrno EINVAL) [])
  | timer {w milliseconds callback refused} {n : Nat} (hfree : w.kernel.isOpen n = false)
      (hnonneg : 0 ≤ milliseconds) :
      Stretch w (.api (.timer milliseconds callback)) (.created (.fd n) refused)
        (.ret (((w.openFd n).settime n (.ofMilliseconds milliseconds)).construct milliseconds
          callback n refused) (.object w.fresh) [])
  | move {w other w'} (hmove : w.move other = some w') :
      Stretch w (.api (.move other)) .go (.ret w' (.object w.fresh) [])
  | cancel {w o h p} (howned : w.owned o = some (h, p)) :
      Stretch w (.api (.cancel o)) .go
        (.ret { w with kernel := p.cancel w.kernel } .void [.cancelled h])
  | destroy {w o w'} (hdestruct : w.destruct o = some w') :
      Stretch w (.api (.destroy o)) .go (.ret w' .void [])
  | elsewhereCalled {w e w'} (helsewhere : w.elsewhere e = some w') :
      Stretch w (.api (.elsewhere e)) .go (.ret w' .void [])
  | raise {w} : Stretch w (.api .raise) .go (.throw w [])
  | elsewhere {w f e w'} (helsewhere : w.elsewhere e = some w') :
      Stretch w f (.elsewhere e) (.goto w' f [])
  | ready {w fds w' ready} (hrun : w.run = true) (hready : w.epollWait fds = some (w', ready)) :
      Stretch w .loop (.ready fds) (.goto w' (.batch ready) [])
  | waitFailed {w e} (hrun : w.run = true) (he : e ≠ 0) :
      Stretch w .loop (.waitFailed e) (.throw (w.setErrno e) [])
  | stopped {w} (hrun : w.run = false) : Stretch w .loop .go (.ret w .void [])
  | batchEnd {w} : Stretch w (.batch []) .go (.goto w .loop [])
  | other {w rest} : Stretch w (.batch (.other :: rest)) .go (.callOut w (.batch rest) .other [])
  | gone {w h events rest} (hp : w.impls h = none) :
      Stretch w (.batch (.timer h events :: rest)) .go (.goto w .undefined [.dispatched h false])
  | timeout {w h events rest p} (hp : w.impls h = some p) (hin : events.epollin = true)
      (hcallback : p.callback = true) :
      Stretch w (.batch (.timer h events :: rest)) .go
        (.callOut w (.batch rest) (.onTimeout p.parent) [.dispatched h true, .timeout h])
  | silent {w h events rest p} (hp : w.impls h = some p)
      (hsilent : ¬ (events.epollin = true ∧ p.callback = true)) :
      Stretch w (.batch (.timer h events :: rest)) .go
        (.goto w (.batch rest) [.dispatched h true])

section
variable {w : World} {f : Frame} {a : Answer} {out : Next}

theorem stretch_of_api {op : Op} (h : w.api op a = some out) : Stretch w (.api op) a out := by
  cases op with
  | waitForInput =>
    cases a <;> cases h
    exact .waitForInput
  | stop =>
    cases a <;> cases h
    exact .stop
  | timer milliseconds callback =>
    cases a <;> simp only [World.api, reduceCtorEq] at h
    rename_i a refused
    split at h <;> cases h
    rename_i hopens
    cases a with
    | failed e => exact .createFailed hopens
    | fd n =>
      unfold World.timer
      dsimp only
      split
      · exact .timer hopens (Itimerspec.ofMilliseconds_valid.mp ‹_›)
      · rename_i hinvalid
        rw [Itimerspec.ofMilliseconds_valid] at hinvalid
        exact .settimeFailed hopens (Int.not_le.mp hinvalid)
  | move other =>
    cases a <;> simp only [World.api, reduceCtorEq] at h
    obtain ⟨w', hmove, rfl⟩ := Option.map_eq_some_iff.mp h
    exact .move hmove
  | cancel o =>
    cases a <;> simp only [World.api, reduceCtorEq] at h
    obtain ⟨⟨x, p⟩, howned, rfl⟩ := Option.map_eq_some_iff.mp h
    exact .cancel howned
  | destroy o =>
    cases a <;> simp only [World.api, reduceCtorEq] at h
    obtain ⟨w', hdestruct, rfl⟩ := Option.map_eq_some_iff.mp h
    exact .destroy hdestruct
  | elsewhere e =>
    cases a <;> simp only [World.api, reduceCtorEq] at h
    obtain ⟨w', helsewhere, rfl⟩ := Option.map_eq_some_iff.mp h
    exact .elsewhereCalled helsewhere
  | raise =>
    cases a <;> cases h
    exact .raise

theorem stretch_of_handleEvent {h : Nat} {events : Events} {rest : List Ready} :
    Stretch w (.batch (.timer h events :: rest)) .go (w.handleEvent h events rest) := by
  unfold World.handleEvent
  split
  · exact .gone ‹_›
  · split
    · rename_i hp hset
      exact .timeout hp hset.1 hset.2
    · exact .silent ‹_› ‹_›

theorem stretch_of_code (h : w.code f a = some out) : Stretch w f a out := by
  cases f with
  | api op => exact stretch_of_api h
  | loop =>
    cases a <;> simp only [World.code, reduceCtorEq] at h
    · split at h
      · obtain ⟨⟨w', ready⟩, hready, rfl⟩ := Option.map_eq_some_iff.mp h
        exact .ready ‹_› hready
      · cases h
    · split at h <;> cases h
      rename_i hfailed
      exact .waitFailed hfailed.1 hfailed.2
    · split at h <;> cases h
      exact .stopped (Bool.not_eq_true _ ▸ ‹_›)
  | batch events =>
    cases events with
    | nil =>
      cases a <;> cases h
      exact .batchEnd
    | cons entry rest =>
      cases entry with
      | other =>
        cases a <;> cases h
        exact .other
      | timer x events =>
        cases a <;> cases h
        exact stretch_of_handleEvent
  | undefined => cases a <;> cases h

/-- **The code does nothing else.** -/
theorem stretch_of_resume (h : resume w f a = some out) : Stretch w f a out := by
  cases a with
  | elsewhere e =>
    obtain ⟨w', helsewhere, rfl⟩ := Option.map_eq_some_iff.mp h
    exact .elsewhere helsewhere
  | ready fds => exact stretch_of_code h
  | waitFailed e => exact stretch_of_code h
  | created a refused => exact stretch_of_code h
  | go => exact stretch_of_code h

theorem owned_iff {o h : Nat} {p : TimerImpl} :
    w.owned o = some (h, p) ↔ w.objects o = some (some h) ∧ w.impls h = some p := by
  unfold World.owned
  rw [Option.bind_eq_some_iff]
  constructor
  · rintro ⟨x, hx, hmap⟩
    obtain ⟨q, hq, heq⟩ := Option.map_eq_some_iff.mp hmap
    cases heq
    exact ⟨Option.join_eq_some_iff.mp hx, hq⟩
  · rintro ⟨ho, hp⟩
    exact ⟨h, Option.join_eq_some_iff.mpr ho, by rw [hp, Option.map_some]⟩

/-- **What a destructor does**: it deletes the `timer_impl`, if the timer has one. -/
theorem destruct_some {o : Nat} {w' : World} (h : w.destruct o = some w') :
    (∃ x p, w.owned o = some (x, p) ∧
      w' = { w with
        objects := Function.update w.objects o none
        kernel := p.cancel w.kernel
        impls := Function.update w.impls x none }) ∨
    w.owned o = none ∧ w' = { w with objects := Function.update w.objects o none } := by
  obtain ⟨pimpl, ho, rfl⟩ := Option.map_eq_some_iff.mp h
  cases pimpl with
  | none => exact .inr ⟨by simp [World.owned, ho], rfl⟩
  | some x =>
    dsimp only [World.delete]
    split
    · rename_i p hp
      exact .inl ⟨x, p, owned_iff.mpr ⟨ho, hp⟩, rfl⟩
    · rename_i hp
      exact .inr ⟨by simpa [World.owned, ho] using hp, rfl⟩

end

namespace World
variable {w w' : World} {ns : List Note}

/-! ## What the code keeps -/

/-- The interest list knows open descriptors only, with the pointers to their timers, and
what was not handed out is not used. -/
structure Sound (w : World) (ns : List Note) : Prop where
  registered : ∀ fd r, w.kernel.epoll fd = some r →
    w.kernel.isOpen fd = true ∧ ∃ p, w.impls r.ptr = some p ∧ p.fd = fd
  valid : ∀ h p, w.impls h = some p → p.fd ≠ -1
  beyond : ∀ h, w.fresh ≤ h → w.impls h = none ∧ .cancelled h ∉ ns

theorem Sound.lt_fresh (hw : w.Sound ns) {h : Nat} {p : TimerImpl} (hp : w.impls h = some p) :
    h < w.fresh := by
  by_contra hge
  rw [(hw.beyond h (Nat.not_lt.mp hge)).1] at hp
  cases hp

/-- A pointer is registered for one descriptor. -/
theorem Sound.registered_inj (hw : w.Sound ns) {fd fd' : Int} {r r' : Registration}
    (hr : w.kernel.epoll fd = some r) (hr' : w.kernel.epoll fd' = some r')
    (hptr : r.ptr = r'.ptr) : fd = fd' := by
  obtain ⟨-, p, hp, rfl⟩ := hw.registered fd r hr
  obtain ⟨-, p', hp', rfl⟩ := hw.registered fd' r' hr'
  rw [hptr, hp'] at hp
  rw [Option.some.inj hp]

theorem Sound.cancel_eq (hw : w.Sound ns) {h : Nat} {p : TimerImpl} (hp : w.impls h = some p) :
    p.cancel w.kernel = w.kernel.close p.fd :=
  if_neg (hw.valid h p hp)

/-- Nothing changes but the masks of the interest list, and addresses that were not
used. -/
theorem Sound.of_same (hw : w.Sound ns)
    (hepoll : ∀ fd r, w'.kernel.epoll fd = some r →
      ∃ r', w.kernel.epoll fd = some r' ∧ r.ptr = r'.ptr)
    (hopen : w'.kernel.isOpen = w.kernel.isOpen) (himpls : w'.impls = w.impls)
    (hfresh : w.fresh ≤ w'.fresh) : w'.Sound ns where
  registered := by
    intro fd r hr
    obtain ⟨r', hr', hptr⟩ := hepoll fd r hr
    rw [hopen, himpls, hptr]
    exact hw.registered fd r' hr'
  valid := by
    rw [himpls]
    exact hw.valid
  beyond := by
    intro h hge
    rw [himpls]
    exact hw.beyond h (by omega)

/-- The log gets longer. -/
theorem Sound.log (hw : w.Sound ns) {new : List Note}
    (hnew : ∀ h, w.fresh ≤ h → .cancelled h ∉ new) : w.Sound (ns ++ new) where
  registered := hw.registered
  valid := hw.valid
  beyond h hge := by
    obtain ⟨hnone, hnot⟩ := hw.beyond h hge
    exact ⟨hnone, by simp [hnot, hnew h hge]⟩

theorem Sound.openFd (hw : w.Sound ns) (n : Nat) : (w.openFd n).Sound ns where
  registered := by
    intro fd r hr
    obtain ⟨hopen, htimer⟩ := hw.registered fd r hr
    refine ⟨?_, htimer⟩
    show Function.update w.kernel.isOpen (n : Int) true fd = true
    rw [Function.update_apply]
    split
    · rfl
    · exact hopen
  valid := hw.valid
  beyond := hw.beyond

/-- Closing a descriptor takes it out of the interest list. -/
theorem Sound.close (hw : w.Sound ns) (fd : Int) :
    World.Sound { w with kernel := w.kernel.close fd } ns where
  registered := by
    intro fd' r hr
    change Function.update w.kernel.epoll fd none fd' = some r at hr
    show Function.update w.kernel.isOpen fd false fd' = true ∧ _
    by_cases hfd : fd' = fd
    · rw [hfd, Function.update_self] at hr
      cases hr
    · rw [Function.update_of_ne hfd] at hr ⊢
      exact hw.registered fd' r hr
  valid := hw.valid
  beyond := hw.beyond

/-- `epoll_ctl` registers the descriptor with that pointer, or nothing. -/
theorem epollCtl_some {k : Kernel} {mode : CtlMode} {fd : Int} {r : Registration}
    {refused : Option Nat} {fd' : Int} {r' : Registration}
    (h : (k.epollCtl mode fd r refused).1.epoll fd' = some r') :
    k.epoll fd' = some r' ∨ fd' = fd ∧ r' = r := by
  unfold Kernel.epollCtl at h
  split at h
  · exact .inl h
  · change Function.update k.epoll fd (some r) fd' = some r' at h
    by_cases hfd : fd' = fd
    · rw [hfd, Function.update_self] at h
      exact .inr ⟨hfd, (Option.some.inj h).symm⟩
    · rw [Function.update_of_ne hfd] at h
      exact .inl h

theorem epollCtl_isOpen (k : Kernel) (mode : CtlMode) (fd : Int) (r : Registration)
    (refused : Option Nat) : (k.epollCtl mode fd r refused).1.isOpen = k.isOpen := by
  unfold Kernel.epollCtl
  split <;> rfl

/-- A new timer is at an address that was not used. -/
theorem Sound.construct (hw : w.Sound ns) {n : Nat} (hopen : w.kernel.isOpen n = true)
    (milliseconds : Int) (callback : Bool) (refused : Option Nat) :
    (w.construct milliseconds callback n refused).Sound ns := by
  refine ⟨fun fd r hr => ?_, fun h p hp => ?_, fun h hge => ?_⟩
  · show (Kernel.epollCtl _ _ _ _ _).1.isOpen fd = true ∧ ∃ p,
      Function.update w.impls w.fresh (some _) r.ptr = some p ∧ p.fd = fd
    rw [epollCtl_isOpen]
    rcases epollCtl_some hr with hold | ⟨hfd, hr⟩
    · obtain ⟨hfdOpen, p, hp, hpfd⟩ := hw.registered fd r hold
      rw [Function.update_of_ne (Nat.ne_of_lt (hw.lt_fresh hp))]
      exact ⟨hfdOpen, p, hp, hpfd⟩
    · rw [hr, hfd]
      exact ⟨hopen, _, Function.update_self .., rfl⟩
  · change Function.update w.impls w.fresh (some _) h = some p at hp
    by_cases hh : h = w.fresh
    · rw [hh, Function.update_self, Option.some.injEq] at hp
      rw [← hp]
      show (n : Int) ≠ -1
      omega
    · rw [Function.update_of_ne hh] at hp
      exact hw.valid h p hp
  · change w.fresh + 1 ≤ h at hge
    show Function.update w.impls w.fresh _ h = none ∧ _
    rw [Function.update_of_ne (by omega)]
    exact hw.beyond h (by omega)

/-- The destructor of a `timer_impl` takes its descriptor out of the interest list, so
nothing points to it any more. -/
theorem Sound.delete (hw : w.Sound ns) {h : Nat} {p : TimerImpl} (hp : w.impls h = some p)
    (objects : Nat → Option (Option Nat)) :
    World.Sound { w with
      objects := objects
      kernel := p.cancel w.kernel
      impls := Function.update w.impls h none } ns := by
  have hclosed := hw.close p.fd
  rw [hw.cancel_eq hp]
  refine ⟨fun fd r hr => ?_, fun x q hq => ?_, fun x hge => ?_⟩
  · obtain ⟨hopen, q, hq, hqfd⟩ := hclosed.registered fd r hr
    refine ⟨hopen, q, ?_, hqfd⟩
    -- a registration of this timer would be for the descriptor that was closed
    have hne : r.ptr ≠ h := by
      intro heq
      change w.impls r.ptr = some q at hq
      rw [heq, hp] at hq
      obtain rfl : p = q := Option.some.inj hq
      change Function.update w.kernel.isOpen p.fd false fd = true at hopen
      rw [hqfd, Function.update_self] at hopen
      cases hopen
    show Function.update w.impls h none r.ptr = some q
    rw [Function.update_of_ne hne]
    exact hq
  · change Function.update w.impls h none x = some q at hq
    by_cases hx : x = h
    · rw [hx, Function.update_self] at hq
      cases hq
    · rw [Function.update_of_ne hx] at hq
      exact hw.valid x q hq
  · obtain ⟨hnone, hnot⟩ := hw.beyond x hge
    refine ⟨?_, hnot⟩
    show Function.update w.impls h none x = none
    rw [Function.update_apply]
    split
    · rfl
    · exact hnone

theorem Sound.elsewhere (hw : w.Sound ns) {e : Elsewhere} (he : w.elsewhere e = some w') :
    w'.Sound ns := by
  cases e with
  | opens n =>
    simp only [World.elsewhere] at he
    split at he <;> cases he
    exact (hw.openFd n).of_same (fun _ r hr => ⟨r, hr, rfl⟩) rfl rfl (Nat.le_refl _)
  | closes n =>
    simp only [World.elsewhere] at he
    split at he <;> cases he
    exact (hw.close n).of_same (fun _ r hr => ⟨r, hr, rfl⟩) rfl rfl (Nat.le_refl _)

/-- `epoll_wait` changes nothing but masks. -/
theorem epollWait_eq {fds : List (Option Int)} {ready : List Ready}
    (h : w.epollWait fds = some (w', ready)) : w' = w.oneShot (fds.filterMap id) := by
  unfold World.epollWait at h
  split at h
  · obtain ⟨_, -, heq⟩ := Option.map_eq_some_iff.mp h
    cases heq
    rfl
  · cases h

theorem oneShot_some {fds : List Int} {fd : Int} {r : Registration}
    (h : (w.oneShot fds).kernel.epoll fd = some r) :
    ∃ r', w.kernel.epoll fd = some r' ∧ r.ptr = r'.ptr ∧
      (r.events.epollin = true → fd ∉ fds ∧ r' = r) := by
  change (if fd ∈ fds then _ else _) = some r at h
  split at h
  · obtain ⟨r', hr', rfl⟩ := Option.map_eq_some_iff.mp h
    exact ⟨r', hr', rfl, fun hin => (by cases hin)⟩
  · exact ⟨r, h, rfl, fun _ => ⟨‹_›, rfl⟩⟩

/-- **Every stretch of code keeps that.** -/
theorem Sound.stretch {f : Frame} {a : Answer} {out : Next} (hw : w.Sound ns)
    (hs : Stretch w f a out) : out.state.Sound (ns ++ out.notes) := by
  have hsame : ∀ {v : World}, v.Sound ns → v.Sound (ns ++ []) :=
    fun hv => hv.log fun _ _ => List.not_mem_nil
  cases hs with
  | waitForInput | stop =>
    exact hsame (hw.of_same (fun _ r hr => ⟨r, hr, rfl⟩) rfl rfl (Nat.le_refl _))
  | createFailed he | waitFailed hrun he =>
    exact hsame (hw.of_same (fun _ r hr => ⟨r, hr, rfl⟩) rfl rfl (Nat.le_refl _))
  | @settimeFailed milliseconds callback refused n hfree hneg =>
    exact hsame ((hw.openFd n).of_same (fun _ r hr => ⟨r, hr, rfl⟩) rfl rfl (Nat.le_refl _))
  | @timer milliseconds callback refused n hfree hnonneg =>
    have hopened : ((w.openFd n).settime n (.ofMilliseconds milliseconds)).Sound ns :=
      (hw.openFd n).of_same (fun _ r hr => ⟨r, hr, rfl⟩) rfl rfl (Nat.le_refl _)
    exact hsame (hopened.construct (Function.update_self ..) milliseconds callback refused)
  | move hmove =>
    obtain ⟨pimpl, -, rfl⟩ := Option.map_eq_some_iff.mp hmove
    exact hsame (hw.of_same (fun _ r hr => ⟨r, hr, rfl⟩) rfl rfl (Nat.le_succ _))
  | @cancel o h p howned =>
    obtain ⟨-, hp⟩ := owned_iff.mp howned
    have hlt := hw.lt_fresh hp
    refine Sound.log ?_ fun x hge hx => ?_
    · show World.Sound { w with kernel := p.cancel w.kernel } ns
      rw [hw.cancel_eq hp]
      exact hw.close p.fd
    · obtain rfl : x = h := by simpa [Outcome.notes] using hx
      exact absurd hge (Nat.not_le.mpr hlt)
  | destroy hdestruct =>
    rcases destruct_some hdestruct with ⟨h, p, howned, rfl⟩ | ⟨-, rfl⟩
    · exact hsame (hw.delete (owned_iff.mp howned).2 _)
    · exact hsame (hw.of_same (fun _ r hr => ⟨r, hr, rfl⟩) rfl rfl (Nat.le_refl _))
  | elsewhereCalled helsewhere | elsewhere helsewhere => exact hsame (hw.elsewhere helsewhere)
  | ready hrun hready =>
    obtain rfl := epollWait_eq hready
    refine hsame (hw.of_same (fun fd r hr => ?_) rfl rfl (Nat.le_refl _))
    obtain ⟨r', hr', hptr, -⟩ := oneShot_some hr
    exact ⟨r', hr', hptr⟩
  | raise | stopped _ | batchEnd | other => exact hsame hw
  | gone hp => exact hw.log (by simp [Outcome.notes])
  | timeout hp hin hcallback => exact hw.log (by simp [Outcome.notes])
  | silent hp hsilent => exact hw.log (by simp [Outcome.notes])

theorem new_sound : World.new.Sound [] :=
  ⟨fun _ _ h => (by cases h), fun _ _ h => (by cases h), fun _ _ => ⟨rfl, List.not_mem_nil⟩⟩

end World
end Timers
end Linux
end AcppNetwork
