import AcppNetwork.LinuxTimerSteps
import Mathlib

/-!
# Timers that are cancelled

An expired timer goes through three places: its entry in the interest list is armed;
`epoll_wait` moves it to the array of an activation of `wait_for_input`, disarmed; the
loop calls its callback.  It never goes back, so the callback runs at most once.

`cancel` takes the entry out of the interest list, but not out of an array.  A timer
that is cancelled or destroyed while it stands in one is still dispatched: its callback
runs after `cancel` has returned, or through a pointer to nothing.  If none is, no
callback runs after `cancel` (`timeout_once`).
-/
namespace AcppNetwork
namespace Linux
namespace Timers

open Reentrant

/-- The timers whose callbacks were called. -/
def timeouts : List Note → List Nat :=
  List.filterMap fun | .timeout h => some h | _ => none

/-- A callback does not come after the `cancel` of its timer. -/
def Note.MayPrecede : Note → Note → Prop
  | .cancelled h, .timeout h' => h ≠ h'
  | _, _ => True

/-- No callback is called after `cancel` of its timer returned, and no event is dispatched
to a timer that is gone. -/
structure InTime (ns : List Note) : Prop where
  notAfterCancel : ns.Pairwise Note.MayPrecede
  dispatched : ∀ h exists_, .dispatched h exists_ ∈ ns → exists_ = true

/-! ## The condition -/

/-- The timer an entry of the array points to. -/
def Ready.timers : Ready → List Nat
  | .timer h _ => [h]
  | .other => []

/-- The timers an activation is still going to dispatch to. -/
def Frame.due : Frame → List Nat
  | .batch events => events.flatMap Ready.timers
  | _ => []

/-- A timer that is cancelled or destroyed is not due. -/
def World.Spares (w : World) (f : Frame) (fs : List Frame) (a : Answer) : Prop :=
  ∀ x ∈ w.closing f a, ∀ g ∈ f :: fs, x.1 ∉ g.due

instance (w : World) (f : Frame) (fs : List Frame) (a : Answer) : Decidable (w.Spares f fs a) := by
  unfold World.Spares
  infer_instance

section
variable {w w' : World} {f : Frame} {fs gs kept : List Frame} {ns new : List Note} {a : Answer}
  {out : Next}

/-- The timers that some activation is still going to dispatch to. -/
def dues (fs : List Frame) : List Nat := fs.flatMap Frame.due

@[simp] theorem dues_nil : dues [] = [] := rfl

@[simp] theorem dues_cons : dues (f :: fs) = f.due ++ dues fs := rfl

@[simp] theorem dues_append : dues (fs ++ gs) = dues fs ++ dues gs := List.flatMap_append

theorem dues_kept (h : kept <:+ fs) : (dues kept).Sublist (dues fs) := h.sublist.flatMap _

@[simp] theorem timeouts_nil : timeouts [] = [] := rfl

@[simp] theorem timeouts_append : timeouts (ns ++ new) = timeouts ns ++ timeouts new :=
  List.filterMap_append ..

/-! ## What `epoll_wait` reports -/

/-- A timer that is reported was armed. -/
theorem armed_of_report {fd : Option Int} {ready : Ready} (h : w.report fd = some ready) {x : Nat}
    (hx : x ∈ ready.timers) :
    ∃ fd' r, fd = some fd' ∧ w.kernel.epoll fd' = some r ∧ r.events.epollin = true ∧ r.ptr = x := by
  cases fd with
  | none =>
    cases h
    cases hx
  | some fd' =>
    obtain ⟨r, hr, hrest⟩ := Option.bind_eq_some_iff.mp h
    split at hrest
    · rename_i harmed
      cases hrest
      exact ⟨fd', r, rfl, hr, harmed.1, (List.mem_singleton.mp hx).symm⟩
    · cases hrest

theorem armed_of_reports {fds : List (Option Int)} {ready : List Ready}
    (h : fds.mapM w.report = some ready) {x : Nat} (hx : x ∈ ready.flatMap Ready.timers) :
    ∃ fd ∈ fds.filterMap id, ∃ r, w.kernel.epoll fd = some r ∧ r.events.epollin = true ∧
      r.ptr = x := by
  obtain ⟨entry, hentry, hx⟩ := List.mem_flatMap.mp hx
  obtain ⟨fd, hfd, hreport⟩ := (mem_of_mapM h).2 entry hentry
  obtain ⟨fd', r, rfl, hr, harmed, hptr⟩ := armed_of_report hreport hx
  exact ⟨fd', List.mem_filterMap.mpr ⟨some fd', hfd, rfl⟩, r, hr, harmed, hptr⟩

/-- One entry for a descriptor is one for a timer. -/
theorem reports_nodup (hw : w.Sound ns) {fds : List (Option Int)} {ready : List Ready}
    (hfds : (fds.filterMap id).Nodup) (h : fds.mapM w.report = some ready) :
    (ready.flatMap Ready.timers).Nodup := by
  induction fds generalizing ready with
  | nil =>
    cases h
    exact List.nodup_nil
  | cons fd fds ih =>
    rw [List.mapM_cons] at h
    obtain ⟨first, hfirst, hrest⟩ := Option.bind_eq_some_iff.mp h
    obtain ⟨rest, hreports, hret⟩ := Option.bind_eq_some_iff.mp hrest
    cases hret
    have htail : (fds.filterMap id).Nodup := by
      cases fd with
      | none => simpa using hfds
      | some fd' => exact (List.nodup_cons.mp (by simpa using hfds)).2
    rw [List.flatMap_cons]
    refine List.nodup_append.mpr ⟨?_, ih htail hreports, fun x hx y hy hxy => ?_⟩
    · cases first with
      | timer x events => exact List.nodup_singleton x
      | other => exact List.nodup_nil
    · -- the same pointer would belong to two descriptors
      subst hxy
      obtain ⟨fd₁, r₁, rfl, hr₁, -, hptr₁⟩ := armed_of_report hfirst hx
      obtain ⟨fd₂, hfd₂, r₂, hr₂, -, hptr₂⟩ := armed_of_reports hreports hy
      have hnot : fd₁ ∉ fds.filterMap id := (List.nodup_cons.mp (by simpa using hfds)).1
      have hfd := hw.registered_inj hr₁ hr₂ (hptr₁.trans hptr₂.symm)
      exact hnot (hfd ▸ hfd₂)

/-- What was reported is armed no longer, and nothing else is. -/
theorem epollWait_armed {fds : List (Option Int)} {ready : List Ready}
    (h : w.epollWait fds = some (w', ready)) :
    (fds.filterMap id).Nodup ∧ fds.mapM w.report = some ready ∧
      ∀ fd r, w'.kernel.epoll fd = some r → r.events.epollin = true →
        fd ∉ fds.filterMap id ∧ w.kernel.epoll fd = some r := by
  obtain rfl := World.epollWait_eq h
  unfold World.epollWait at h
  split at h
  · rename_i hfds
    obtain ⟨ready', hready, heq⟩ := Option.map_eq_some_iff.mp h
    cases heq
    refine ⟨hfds.2, hready, fun fd r hr harmed => ?_⟩
    obtain ⟨r', hr', -, hsame⟩ := World.oneShot_some hr
    obtain ⟨hnot, rfl⟩ := hsame harmed
    exact ⟨hnot, hr'⟩
  · cases h

/-! ## What a stretch does to armed and reported timers -/

theorem close_armed {k : Kernel} {fd fd' : Int} {r : Registration}
    (h : (k.close fd).epoll fd' = some r) : k.epoll fd' = some r ∧ fd' ≠ fd := by
  change Function.update k.epoll fd none fd' = some r at h
  by_cases hfd : fd' = fd
  · rw [hfd, Function.update_self] at h
    cases h
  · rw [Function.update_of_ne hfd] at h
    exact ⟨h, hfd⟩

theorem elsewhere_armed {e : Elsewhere} (he : w.elsewhere e = some w') :
    w'.impls = w.impls ∧ w'.fresh = w.fresh ∧
      ∀ fd r, w'.kernel.epoll fd = some r → w.kernel.epoll fd = some r := by
  cases e with
  | opens n =>
    simp only [World.elsewhere] at he
    split at he <;> cases he
    exact ⟨rfl, rfl, fun fd r hr => hr⟩
  | closes n =>
    simp only [World.elsewhere] at he
    split at he <;> cases he
    exact ⟨rfl, rfl, fun fd r hr => (close_armed hr).1⟩

/-- Nothing; a new timer is armed; the kernel reports some that are; one that was reported
is dispatched to; or one is cancelled or destroyed, and is not registered any more. -/
inductive Turn (w : World) (f : Frame) (a : Answer) (out : Next) : Prop where
  | nothing (hdue : (dues out.frames).Sublist f.due) (hnotes : out.notes = [])
      (hfresh : w.fresh ≤ out.state.fresh) (himpls : out.state.impls = w.impls)
      (hepoll : ∀ fd r, out.state.kernel.epoll fd = some r → w.kernel.epoll fd = some r)
  | constructed (hdue : dues out.frames = []) (hnotes : out.notes = [])
      (hfresh : out.state.fresh = w.fresh + 1)
      (himpls : ∀ x, x ≠ w.fresh → out.state.impls x = w.impls x)
      (hepoll : ∀ fd r, out.state.kernel.epoll fd = some r →
        w.kernel.epoll fd = some r ∨ r.ptr = w.fresh)
  | reported (fds : List (Option Int)) (ready : List Ready)
      (hdue : dues out.frames = ready.flatMap Ready.timers) (hnotes : out.notes = [])
      (hready : w.epollWait fds = some (out.state, ready))
  | dispatched (h : Nat) (called : Bool) (hdue : (h :: dues out.frames).Sublist f.due)
      (hnotes : out.notes =
        .dispatched h (w.impls h).isSome :: if called then [.timeout h] else [])
      (hstate : out.state = w)
  | closed (h : Nat) (p : TimerImpl) (hclosing : w.closing f a = some (h, p))
      (hdue : dues out.frames = []) (hnotes : out.notes = [] ∨ out.notes = [.cancelled h])
      (hfresh : out.state.fresh = w.fresh)
      (himpls : ∀ x, x ≠ h → out.state.impls x = w.impls x)
      (hepoll : ∀ fd r, out.state.kernel.epoll fd = some r →
        w.kernel.epoll fd = some r ∧ r.ptr ≠ h)

/-- After `cancel` nothing points to the timer. -/
theorem cancel_armed (hw : w.Sound ns) {h : Nat} {p : TimerImpl} (hp : w.impls h = some p)
    {fd : Int} {r : Registration} (hr : (p.cancel w.kernel).epoll fd = some r) :
    w.kernel.epoll fd = some r ∧ r.ptr ≠ h := by
  rw [hw.cancel_eq hp] at hr
  obtain ⟨hold, hfd⟩ := close_armed hr
  refine ⟨hold, fun hptr => hfd ?_⟩
  obtain ⟨-, q, hq, hqfd⟩ := hw.registered fd r hold
  rw [hptr, hp] at hq
  obtain rfl : p = q := Option.some.inj hq
  exact hqfd.symm

/-- **The code does nothing else to them.** -/
theorem turn_of_stretch (hw : w.Sound ns) (hs : Stretch w f a out) : Turn w f a out := by
  cases hs with
  | @timer milliseconds callback refused n hfree hnonneg =>
    refine .constructed rfl rfl rfl (fun x hx => Function.update_of_ne hx ..) fun fd r hr => ?_
    rcases World.epollCtl_some hr with hold | ⟨-, hr⟩
    · exact .inl hold
    · exact .inr (hr ▸ rfl)
  | @cancel o h p howned =>
    exact .closed h p howned rfl (.inr rfl) rfl (fun _ _ => rfl)
      fun fd r hr => cancel_armed hw (owned_iff.mp howned).2 hr
  | @destroy o w' hdestruct =>
    rcases destruct_some hdestruct with ⟨h, p, howned, rfl⟩ | ⟨-, rfl⟩
    · exact .closed h p howned rfl (.inl rfl) rfl (fun x hx => Function.update_of_ne hx ..)
        fun fd r hr => cancel_armed hw (owned_iff.mp howned).2 hr
    · exact .nothing (List.nil_sublist _) rfl (Nat.le_refl _) rfl fun fd r hr => hr
  | move hmove =>
    obtain ⟨pimpl, -, rfl⟩ := Option.map_eq_some_iff.mp hmove
    exact .nothing (List.nil_sublist _) rfl (Nat.le_succ _) rfl fun fd r hr => hr
  | elsewhereCalled helsewhere =>
    obtain ⟨himpls, hfresh, hepoll⟩ := elsewhere_armed helsewhere
    exact .nothing (List.nil_sublist _) rfl (Nat.le_of_eq hfresh.symm) himpls hepoll
  | elsewhere helsewhere =>
    obtain ⟨himpls, hfresh, hepoll⟩ := elsewhere_armed helsewhere
    refine .nothing ?_ rfl (Nat.le_of_eq hfresh.symm) himpls hepoll
    rw [Outcome.frames, dues_cons, dues_nil, List.append_nil]
  | @ready fds w' ready hrun hready =>
    exact .reported fds ready (by simp [Outcome.frames, Frame.due]) rfl hready
  | other =>
    refine .nothing ?_ rfl (Nat.le_refl _) rfl fun fd r hr => hr
    simp [Outcome.frames, Frame.due, Ready.timers]
  | @gone h events rest hp =>
    exact .dispatched h false (by simp [Outcome.frames, Frame.due, Ready.timers])
      (by simp [hp, Outcome.notes]) rfl
  | @timeout h events rest p hp hin hcallback =>
    exact .dispatched h true (by simp [Outcome.frames, Frame.due, Ready.timers])
      (by simp [hp, Outcome.notes]) rfl
  | @silent h events rest p hp hsilent =>
    exact .dispatched h false (by simp [Outcome.frames, Frame.due, Ready.timers])
      (by simp [hp, Outcome.notes]) rfl
  | _ => exact .nothing (List.nil_sublist _) rfl (Nat.le_refl _) rfl fun fd r hr => hr

/-! ## At most once -/

/-- A timer is armed, or stands in one array once, or its callback was called once. -/
structure Once (w : World) (fs : List Frame) (ns : List Note) : Prop where
  sound : w.Sound ns
  nodup : (dues fs ++ timeouts ns).Nodup
  armed : ∀ fd r, w.kernel.epoll fd = some r → r.events.epollin = true →
    r.ptr ∉ dues fs ++ timeouts ns
  beyond : ∀ h ∈ dues fs ++ timeouts ns, h < w.fresh

/-- Nothing is reported or called, and what is armed was armed or is new. -/
theorem Once.of_sublist (h : Once w fs ns) (hw : w'.Sound (ns ++ new))
    (hdue : (dues gs).Sublist (dues fs)) (hnew : timeouts new = [])
    (harmed : ∀ fd r, w'.kernel.epoll fd = some r →
      w.kernel.epoll fd = some r ∨ r.ptr = w.fresh)
    (hfresh : w.fresh ≤ w'.fresh) : Once w' gs (ns ++ new) := by
  have hsub : (dues gs ++ timeouts (ns ++ new)).Sublist (dues fs ++ timeouts ns) := by
    rw [timeouts_append, hnew, List.append_nil]
    exact hdue.append_right _
  refine ⟨hw, h.nodup.sublist hsub, fun fd r hr hin hmem => ?_, fun x hx => ?_⟩
  · rcases harmed fd r hr with hold | hptr
    · exact h.armed fd r hold hin (hsub.subset hmem)
    · have hlt := h.beyond r.ptr (hsub.subset hmem)
      omega
  · have hlt := h.beyond x (hsub.subset hx)
    omega

/-- **Every stretch of code keeps that.** -/
theorem Once.stretch (h : Once w (f :: fs) ns) (hs : Stretch w f a out) (hkept : kept <:+ fs) :
    Once out.state (out.frames ++ kept) (ns ++ out.notes) := by
  have hsound := h.sound.stretch hs
  have hfs := dues_kept hkept
  cases turn_of_stretch h.sound hs with
  | nothing hdue hnotes hfresh himpls hepoll =>
    refine h.of_sublist hsound ?_ (by rw [hnotes]; rfl) (fun fd r hr => .inl (hepoll fd r hr))
      hfresh
    rw [dues_append, dues_cons]
    exact hdue.append hfs
  | constructed hdue hnotes hfresh himpls hepoll =>
    refine h.of_sublist hsound ?_ (by rw [hnotes]; rfl) hepoll (by omega)
    rw [dues_append, hdue]
    exact hfs.trans (List.sublist_append_right ..)
  | closed x p hclosing hdue hnotes hfresh himpls hepoll =>
    refine h.of_sublist hsound ?_ ?_ (fun fd r hr => .inl (hepoll fd r hr).1) (by omega)
    · rw [dues_append, hdue]
      exact hfs.trans (List.sublist_append_right ..)
    · rcases hnotes with hnotes | hnotes <;> rw [hnotes] <;> rfl
  | reported fds ready hdue hnotes hready =>
    obtain ⟨hfds, hreports, harmed⟩ := epollWait_armed hready
    have hnew := reports_nodup h.sound hfds hreports
    have hsub : (dues kept ++ timeouts ns).Sublist (dues (f :: fs) ++ timeouts ns) :=
      (hfs.trans (List.sublist_append_right ..)).append_right _
    have hfrom := fun {x} (hx : x ∈ ready.flatMap Ready.timers) => armed_of_reports hreports hx
    have hstate : out.state.fresh = w.fresh := by rw [World.epollWait_eq hready]; rfl
    -- what is reported was armed, so it stood in no array and was not called
    rw [hnotes] at hsound ⊢
    refine ⟨hsound, ?_, fun fd r hr hin hmem => ?_, fun x hx => ?_⟩
    · rw [dues_append, hdue, timeouts_append, timeouts_nil, List.append_nil, List.append_assoc]
      refine List.nodup_append.mpr ⟨hnew, h.nodup.sublist hsub, fun x hx y hy hxy => ?_⟩
      obtain ⟨fd, -, r, hr, hin, hptr⟩ := hfrom hx
      subst hxy
      exact h.armed fd r hr hin (hptr ▸ hsub.subset hy)
    · obtain ⟨hnot, hold⟩ := harmed fd r hr hin
      rw [dues_append, hdue, timeouts_append, timeouts_nil, List.append_nil, List.append_assoc,
        List.mem_append] at hmem
      rcases hmem with hmem | hmem
      · obtain ⟨fd', hfd', r', hr', -, hptr⟩ := hfrom hmem
        have hfd := h.sound.registered_inj hold hr' hptr.symm
        exact hnot (hfd ▸ hfd')
      · exact h.armed fd r hold hin (hsub.subset hmem)
    · rw [dues_append, hdue, timeouts_append, timeouts_nil, List.append_nil, List.append_assoc,
        List.mem_append] at hx
      rw [hstate]
      rcases hx with hx | hx
      · obtain ⟨fd, -, r, hr, -, rfl⟩ := hfrom hx
        obtain ⟨-, p, hp, -⟩ := h.sound.registered fd r hr
        exact h.sound.lt_fresh hp
      · exact h.beyond x (hsub.subset hx)
  | dispatched x called hdue hnotes hstate =>
    rw [hnotes, hstate] at hsound ⊢
    cases called with
    | false =>
      refine h.of_sublist hsound ?_ rfl (fun fd r hr => .inl hr) (Nat.le_refl _)
      rw [dues_append, dues_cons]
      exact ((List.sublist_cons_self ..).trans hdue).append hfs
    | true =>
      -- from the array to the log
      have hperm : (dues (out.frames ++ kept) ++
          timeouts (ns ++ [.dispatched x (w.impls x).isSome, .timeout x])).Perm
          ((x :: dues out.frames ++ dues kept) ++ timeouts ns) := by
        rw [dues_append, timeouts_append]
        show (_ ++ (timeouts ns ++ [x])).Perm _
        rw [← List.append_assoc]
        exact List.perm_append_singleton ..
      have hsub : ((x :: dues out.frames ++ dues kept) ++ timeouts ns).Sublist
          (dues (f :: fs) ++ timeouts ns) := (hdue.append hfs).append_right _
      refine ⟨hsound, hperm.nodup_iff.mpr (h.nodup.sublist hsub), fun fd r hr hin hmem => ?_,
        fun y hy => ?_⟩
      · exact h.armed fd r hr hin (hsub.subset (hperm.subset hmem))
      · exact h.beyond y (hsub.subset (hperm.subset hy))

/-! ## Not after `cancel` -/

/-- Who is cancelled is not registered and stands in no array, and who stands in one
exists. -/
structure Spared (w : World) (fs : List Frame) (ns : List Note) : Prop where
  sound : w.Sound ns
  inTime : InTime ns
  cancelled : ∀ h, .cancelled h ∈ ns → h ∉ dues fs
  unregistered : ∀ h, .cancelled h ∈ ns → ∀ fd r, w.kernel.epoll fd = some r → r.ptr ≠ h
  due : ∀ h ∈ dues fs, w.impls h ≠ none

/-- Notes that say nothing of callbacks, or of events dispatched. -/
theorem InTime.append (h : InTime ns) (hcalled : ∀ x ∈ timeouts new, .cancelled x ∉ ns)
    (hnew : new.Pairwise Note.MayPrecede)
    (hdispatched : ∀ x exists_, .dispatched x exists_ ∈ new → exists_ = true) :
    InTime (ns ++ new) := by
  refine ⟨List.pairwise_append.mpr ⟨h.notAfterCancel, hnew, fun n hn m hm => ?_⟩,
    fun x exists_ hx => ?_⟩
  · unfold Note.MayPrecede
    split
    · rename_i x y
      rintro rfl
      exact hcalled x (List.mem_filterMap.mpr ⟨_, hm, rfl⟩) hn
    · trivial
  · rcases List.mem_append.mp hx with hx | hx
    · exact h.dispatched x exists_ hx
    · exact hdispatched x exists_ hx

/-- Nothing is reported, called or cancelled. -/
theorem Spared.of_sublist (h : Spared w fs ns) (hw : w'.Sound ns)
    (hdue : (dues gs).Sublist (dues fs))
    (hepoll : ∀ fd r, w'.kernel.epoll fd = some r →
      w.kernel.epoll fd = some r ∨ r.ptr = w.fresh)
    (himpls : ∀ x ∈ dues gs, w.impls x ≠ none → w'.impls x = w.impls x) :
    Spared w' gs ns := by
  refine ⟨hw, h.inTime, fun x hx hmem => ?_, fun x hx fd r hr => ?_, fun x hx => ?_⟩
  · exact h.cancelled x hx (hdue.subset hmem)
  · rcases hepoll fd r hr with hold | hptr
    · exact h.unregistered x hx fd r hold
    · rintro rfl
      exact (h.sound.beyond r.ptr (Nat.le_of_eq hptr.symm)).2 hx
  · have hex := h.due x (hdue.subset hx)
    rw [himpls x hx hex]
    exact hex

/-- **A stretch of code that cancels and destroys no timer that is due keeps that.** -/
theorem Spared.stretch (h : Spared w (f :: fs) ns) (hspares : w.Spares f fs a)
    (hs : Stretch w f a out) (hkept : kept <:+ fs) :
    Spared out.state (out.frames ++ kept) (ns ++ out.notes) := by
  have hsound := h.sound.stretch hs
  have hfs := dues_kept hkept
  have hrest : (dues kept).Sublist (dues (f :: fs)) := hfs.trans (List.sublist_append_right ..)
  cases turn_of_stretch h.sound hs with
  | nothing hdue hnotes hfresh himpls hepoll =>
    rw [hnotes, List.append_nil] at hsound ⊢
    refine h.of_sublist hsound ?_ (fun fd r hr => .inl (hepoll fd r hr))
      fun x _ _ => congrFun himpls x
    rw [dues_append, dues_cons]
    exact hdue.append hfs
  | constructed hdue hnotes hfresh himpls hepoll =>
    rw [hnotes, List.append_nil] at hsound ⊢
    refine h.of_sublist hsound ?_ hepoll fun x _ hx => himpls x ?_
    · rw [dues_append, hdue]
      exact hrest
    · rintro rfl
      exact hx (h.sound.beyond w.fresh (Nat.le_refl _)).1
  | closed x p hclosing hdue hnotes hfresh himpls hepoll =>
    -- it is not due
    have hx : x ∉ dues (f :: fs) := by
      intro hmem
      obtain ⟨g, hg, hdueg⟩ := List.mem_flatMap.mp hmem
      exact hspares (x, p) hclosing g hg hdueg
    have hgs : dues (out.frames ++ kept) = dues kept := by rw [dues_append, hdue, List.nil_append]
    have hothers : ∀ y ∈ dues kept, out.state.impls y = w.impls y := by
      intro y hy
      refine himpls y ?_
      rintro rfl
      exact hx (hrest.subset hy)
    rcases hnotes with hnotes | hnotes
    · rw [hnotes, List.append_nil] at hsound ⊢
      refine h.of_sublist hsound (hgs ▸ hrest) (fun fd r hr => .inl (hepoll fd r hr).1)
        fun y hy _ => hothers y (hgs ▸ hy)
    · rw [hnotes] at hsound ⊢
      have hcancelled : ∀ y, .cancelled y ∈ ns ++ [.cancelled x] → .cancelled y ∈ ns ∨ y = x := by
        intro y hy
        simpa using hy
      refine ⟨hsound, ?_, fun y hy hmem => ?_, fun y hy fd r hr => ?_, fun y hy => ?_⟩
      · exact h.inTime.append (by simp [timeouts]) (List.pairwise_singleton ..) (by simp)
      · rw [hgs] at hmem
        rcases hcancelled y hy with hy | rfl
        · exact h.cancelled y hy (hrest.subset hmem)
        · exact hx (hrest.subset hmem)
      · obtain ⟨hold, hne⟩ := hepoll fd r hr
        rcases hcancelled y hy with hy | rfl
        · exact h.unregistered y hy fd r hold
        · exact hne
      · rw [hgs] at hy
        rw [hothers y hy]
        exact h.due y (hrest.subset hy)
  | reported fds ready hdue hnotes hready =>
    obtain ⟨-, hreports, -⟩ := epollWait_armed hready
    rw [hnotes, List.append_nil] at hsound ⊢
    have hmem : ∀ x ∈ dues (out.frames ++ kept),
        (∃ fd r, w.kernel.epoll fd = some r ∧ r.ptr = x) ∨ x ∈ dues (f :: fs) := by
      intro x hx
      rw [dues_append, hdue] at hx
      rcases List.mem_append.mp hx with hx | hx
      · obtain ⟨fd, -, r, hr, -, hptr⟩ := armed_of_reports hreports hx
        exact .inl ⟨fd, r, hr, hptr⟩
      · exact .inr (hrest.subset hx)
    have himpls : out.state.impls = w.impls := by rw [World.epollWait_eq hready]; rfl
    refine ⟨hsound, h.inTime, fun x hx hdues => ?_, fun x hx fd r hr => ?_, fun x hx => ?_⟩
    · rcases hmem x hdues with ⟨fd, r, hr, hptr⟩ | hdues
      · exact h.unregistered x hx fd r hr hptr
      · exact h.cancelled x hx hdues
    · rw [World.epollWait_eq hready] at hr
      obtain ⟨r', hr', hptr, -⟩ := World.oneShot_some hr
      rw [hptr]
      exact h.unregistered x hx fd r' hr'
    · rw [himpls]
      rcases hmem x hx with ⟨fd, r, hr, rfl⟩ | hdues
      · obtain ⟨-, p, hp, -⟩ := h.sound.registered fd r hr
        simp [hp]
      · exact h.due x hdues
  | dispatched x called hdue hnotes hstate =>
    have hsub : (x :: dues (out.frames ++ kept)).Sublist (dues (f :: fs)) := by
      rw [dues_append, dues_cons]
      exact hdue.append hfs
    have hx : x ∈ dues (f :: fs) := hsub.subset (List.mem_cons_self ..)
    have hsome : (w.impls x).isSome = true := Option.isSome_iff_ne_none.mpr (h.due x hx)
    have hnot : .cancelled x ∉ ns := fun hcancelled => h.cancelled x hcancelled hx
    have hgs := (List.sublist_cons_self ..).trans hsub
    rw [hnotes, hstate, hsome] at hsound ⊢
    have hold : ∀ y, .cancelled y ∈
        ns ++ (.dispatched x true :: if called then [.timeout x] else []) → .cancelled y ∈ ns := by
      intro y hy
      cases called <;> simpa using hy
    refine ⟨hsound, ?_, fun y hy hmem => ?_, fun y hy => h.unregistered y (hold y hy),
      fun y hy => ?_⟩
    · cases called with
      | false => exact h.inTime.append (by simp [timeouts]) (List.pairwise_singleton ..) (by simp)
      | true =>
        exact h.inTime.append (by simpa [timeouts] using hnot) (by simp [Note.MayPrecede])
          (by simp)
    · exact h.cancelled y (hold y hy) (hgs.subset hmem)
    · exact h.due y (hgs.subset hy)

end

/-- **A timer's callback runs at most once**, whatever callbacks do, and, if no timer is
cancelled or destroyed while an activation of the loop is still going to dispatch to
it, not after `cancel` of it returned. -/
theorem timeout_once {es : List (Event Op Answer)} {c : Configuration}
    (hr : Runs.run (step object) (Config.start World.new) es = some c) :
    (timeouts (notes c.log)).Nodup ∧
      (Runs.Along (step object) (Before World.Spares) (Config.start World.new) es →
        InTime (notes c.log)) := by
  constructor
  · have honce : Once c.state (frames c.stack) (notes c.log) := by
      refine invariant_of_parts (W := fun _ => True) (I := fun w fs _ _ ns => Once w fs ns)
        (fun _ _ _ _ _ _ _ _ => trivial) (fun w fs ks os ns o _ h _ => ?_)
        (fun w f fs ks os ns a out kept _ h _ hres hkept _ =>
          h.stretch (stretch_of_resume hres) hkept) ?_ before_true onCall_true hr
      · exact ⟨h.sound, h.nodup, h.armed, h.beyond⟩
      · exact ⟨World.new_sound, List.nodup_nil, fun _ _ h => (by cases h), by simp⟩
    exact (List.nodup_append.mp honce.nodup).2.1
  · intro hspares
    have hspared : Spared c.state (frames c.stack) (notes c.log) := by
      refine invariant_of_parts (W := fun _ => True) (I := fun w fs _ _ ns => Spared w fs ns)
        (fun _ _ _ _ _ _ _ _ => trivial) (fun w fs ks os ns o _ h _ => ?_)
        (fun w f fs ks os ns a out kept _ h hp hres hkept _ =>
          h.stretch hp (stretch_of_resume hres) hkept) ?_ hspares onCall_true hr
      · exact ⟨h.sound, h.inTime, h.cancelled, h.unregistered, h.due⟩
      · exact ⟨World.new_sound, ⟨List.Pairwise.nil, by simp⟩, by simp, by simp, by simp⟩
    exact hspared.inTime

/-- Three timers; the first two expire together, and the callback of the first cancels
`o`. -/
def cancelWhenExpired (o : Nat) : List (Event Op Answer) :=
  [.call (.timer 1 true), .code (.created (.fd 3) none),
    .call (.timer 1 true), .code (.created (.fd 4) none),
    .call (.timer 200 true), .code (.created (.fd 5) none),
    .call .waitForInput, .code .go, .code (.ready [some 3, some 4]), .code .go,
    .call (.cancel o), .code .go, .back, .code .go]

/-- It cancels the third. -/
theorem timeout_once_third :
    ∃ c, Runs.run (step object) (Config.start World.new) (cancelWhenExpired 2) = some c ∧
      timeouts (notes c.log) = [0, 1] ∧ (timeouts (notes c.log)).Nodup ∧ InTime (notes c.log) := by
  obtain ⟨c, hr, htimeouts⟩ :
      ∃ c, Runs.run (step object) (Config.start World.new) (cancelWhenExpired 2) = some c ∧
        timeouts (notes c.log) = [0, 1] :=
    Runs.exists_run (by decide)
  exact ⟨c, hr, htimeouts, (timeout_once hr).1, (timeout_once hr).2 (by decide)⟩

/-- It cancels the second, whose callback is called all the same. -/
theorem timeout_after_cancel :
    ∃ c, Runs.run (step object) (Config.start World.new) (cancelWhenExpired 1) = some c ∧
      notes c.log =
        [.dispatched 0 true, .timeout 0, .cancelled 1, .dispatched 1 true, .timeout 1] ∧
      ¬ InTime (notes c.log) := by
  obtain ⟨c, hr, hnotes⟩ :
      ∃ c, Runs.run (step object) (Config.start World.new) (cancelWhenExpired 1) = some c ∧
        notes c.log =
          [.dispatched 0 true, .timeout 0, .cancelled 1, .dispatched 1 true, .timeout 1] :=
    Runs.exists_run (by decide)
  refine ⟨c, hr, hnotes, fun h => ?_⟩
  have hpairwise := h.notAfterCancel
  rw [hnotes] at hpairwise
  simp [Note.MayPrecede] at hpairwise

end Timers
end Linux
end AcppNetwork
