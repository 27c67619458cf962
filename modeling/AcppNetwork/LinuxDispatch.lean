import AcppNetwork.LinuxSteps

/-!
# Handlers that are gone

`wait_for_input` takes up to five pointers from the kernel at once and then handles
one event after the other.  A callback run for one of them may close or destroy
the socket of another; the loop still calls `handle_event` through its pointer.
The same happens inside one event with `EPOLLOUT` and `EPOLLIN`: the callback of
its first branch may close or destroy the socket of the second.

`Frame.due` says which handlers an activation of the loop is still going to use.
If no call closes or destroys one that is due, every event is dispatched to a
handler that exists and whose socket is open, and no callback of a socket is
called after it was closed, other than the `on_error` of a `write` to it
(`dispatched_open`).
-/
namespace AcppNetwork
namespace Linux

open Reentrant

/-- A callback of a socket does not come after its close. -/
def Note.MayPrecede : Note → Note → Prop
  | .closed h, .invoked h' _ => h ≠ h'
  | _, _ => True

/-- Every event is dispatched to a handler that exists and whose socket is open, and
that is so for both branches of `handle_event`; no callback of a socket is called
after it was closed. -/
structure DispatchedOpen (ns : List Note) : Prop where
  toOpen : ∀ h exists_ valid, .dispatched h exists_ valid ∈ ns → exists_ = true ∧ valid = true
  readsOpen : ∀ h exists_ valid, .reads h exists_ valid ∈ ns → exists_ = true ∧ valid = true
  notAfterClose : ns.Pairwise Note.MayPrecede

/-! ## The condition -/

/-- The handler an entry of the array points to. -/
def Ready.handlers : Ready → List Nat
  | .socket h _ => [h]
  | .other => []

/-- The handlers an activation is still going to use. -/
def Frame.due : Frame → List Nat
  | .batch events => events.flatMap Ready.handlers
  | .readBranch h events rest =>
      (if events.epollin then [h] else []) ++ rest.flatMap Ready.handlers
  | .newSocket _ rest => rest.flatMap Ready.handlers
  | _ => []

/-- The handler whose socket a stretch of code closes or destroys. -/
def World.closes (w : World) : Frame → Option Nat
  | .api (.close o) | .api (.destroy o) | .newSocket o _ => (w.objects o).join
  | .api (.assign o other) => ((w.release other).objects o).join
  | _ => none

/-- A handler that is closed or destroyed is not due. -/
def World.Spares (w : World) (f : Frame) (fs : List Frame) (_ : Answer) : Prop :=
  ∀ h ∈ w.closes f, ∀ g ∈ f :: fs, h ∉ g.due

/-- A socket that was closed has no `on_error` for `write` to call. -/
def World.MayWrite (w : World) (ns : List Note) : Frame → Prop
  | .api (.write o _) =>
      ∀ s ∈ w.owned o, s.pimpl.callbacks.onError = true → .closed s.this ∉ ns
  | _ => True

/-- What runs next may write. -/
def MayWrite (c : Configuration) : Prop :=
  match c.stack with
  | .code f :: _ => c.state.MayWrite (notes c.log) f
  | _ => True

instance (w : World) (f : Frame) (fs : List Frame) (a : Answer) : Decidable (w.Spares f fs a) := by
  unfold World.Spares
  infer_instance

instance (w : World) (ns : List Note) (f : Frame) : Decidable (w.MayWrite ns f) := by
  unfold World.MayWrite
  split <;> infer_instance

instance (c : Configuration) : Decidable (MayWrite c) := by
  unfold MayWrite
  rcases c.stack with _ | ⟨_ | _, _⟩ <;> infer_instance

namespace World
variable {w w' w'' : World} {h o : Nat} {p : SocketBasePimpl} {s : Socket} {gone : Option Nat}
  {ns : List Note}

/-! ## What the operations do to handlers -/

/-- The handler exists and its socket is open. -/
def Alive (w : World) (h : Nat) : Prop := ∃ p, w.pimpls h = some p ∧ p.valid = true

/-- The kernel knows open sockets only, with the pointers to their pimpls. -/
structure Sound (w : World) : Prop where
  registered : ∀ fd r, w.kernel.epoll fd = some r →
    ∃ p, w.pimpls r.ptr = some p ∧ p.fd = fd ∧ p.valid = true
  notOpen : w.kernel.isOpen SocketBasePimpl.invalidFd = false
  beyond : ∀ h, w.fresh ≤ h → w.pimpls h = none
  owned : ∀ o h, w.objects o = some (some h) → h < w.fresh

theorem Sound.lt_fresh (hw : w.Sound) (hp : w.pimpls h = some p) : h < w.fresh := by
  by_contra hge
  rw [hw.beyond h (by omega)] at hp
  cases hp

/-- Handlers other than `gone` live on, and handlers that are gone stay so. -/
structure Kept (gone : Option Nat) (w w' : World) : Prop where
  sound : w'.Sound
  alive : ∀ h, w.Alive h → gone ≠ some h → w'.Alive h
  stays : ∀ h, h < w.fresh → ¬ w.Alive h → h < w'.fresh ∧ ¬ w'.Alive h

theorem Kept.refl (hw : w.Sound) : Kept gone w w :=
  ⟨hw, fun _ h _ => h, fun _ hlt h => ⟨hlt, h⟩⟩

theorem Kept.trans (h : Kept gone w w') (h' : Kept gone w' w'') : Kept gone w w'' where
  sound := h'.sound
  alive x hx hne := h'.alive x (h.alive x hx hne) hne
  stays x hlt hx := by
    obtain ⟨hlt', hx'⟩ := h.stays x hlt hx
    exact h'.stays x hlt' hx'

/-- Nothing changes but the objects, and addresses that were not used. -/
theorem kept_of_same (hw : w.Sound) (hepoll : w'.kernel.epoll = w.kernel.epoll)
    (hopen : w'.kernel.isOpen SocketBasePimpl.invalidFd = false) (hpimpls : w'.pimpls = w.pimpls)
    (hfresh : w.fresh ≤ w'.fresh)
    (howned : ∀ o h, w'.objects o = some (some h) → h < w'.fresh) : Kept gone w w' where
  sound :=
    { registered := by rw [hepoll, hpimpls]; exact hw.registered
      notOpen := hopen
      beyond := by
        intro h hge
        rw [hpimpls]
        exact hw.beyond h (by omega)
      owned := howned }
  alive h halive _ := by
    rw [Alive, hpimpls]
    exact halive
  stays h hlt hnot := by
    rw [Alive, hpimpls]
    exact ⟨by omega, hnot⟩

/-- An operation of a socket that leaves the descriptors alone and registers its own
only. -/
theorem put_kept (hw : w.Sound) (hp : w.pimpls s.this = some p) (hfd : s.pimpl.fd = p.fd)
    (hopen : s.kernel.isOpen = w.kernel.isOpen)
    (hepoll : ∀ fd r, s.kernel.epoll fd = some r →
      w.kernel.epoll fd = some r ∨ fd = p.fd ∧ w.kernel.isOpen fd = true ∧ r.ptr = s.this) :
    Kept gone w (w.put s) := by
  have hvalid : s.pimpl.valid = p.valid := by simp [SocketBasePimpl.valid, hfd]
  have hpimpls : (w.put s).pimpls = Function.update w.pimpls s.this (some s.pimpl) := rfl
  have hself : (w.put s).pimpls s.this = some s.pimpl := Function.update_self ..
  refine ⟨⟨fun fd r hr => ?_, ?_, fun h hge => ?_, hw.owned⟩, fun h halive _ => ?_,
    fun h hlt hnot => ⟨hlt, fun halive => ?_⟩⟩
  · -- what is registered now was registered before, or is the socket itself
    rcases hepoll fd r hr with hold | ⟨rfl, hfdOpen, hptr⟩
    · obtain ⟨q, hq, hqfd, hqvalid⟩ := hw.registered fd r hold
      by_cases heq : r.ptr = s.this
      · rw [heq, hp] at hq
        obtain rfl : p = q := Option.some.inj hq
        exact ⟨s.pimpl, heq ▸ hself, hfd.trans hqfd, hvalid.trans hqvalid⟩
      · rw [hpimpls, Function.update_of_ne heq]
        exact ⟨q, hq, hqfd, hqvalid⟩
    · refine ⟨s.pimpl, hptr ▸ hself, hfd, ?_⟩
      rw [hvalid, SocketBasePimpl.valid, decide_eq_true_eq]
      intro hinvalid
      rw [hinvalid, hw.notOpen] at hfdOpen
      cases hfdOpen
  · show s.kernel.isOpen _ = false
    rw [hopen]
    exact hw.notOpen
  · have hne : h ≠ s.this := by
      rintro rfl
      exact absurd (hw.lt_fresh hp) (Nat.not_lt.mpr hge)
    rw [hpimpls, Function.update_of_ne hne]
    exact hw.beyond h hge
  · -- the handler of the socket keeps its descriptor, the others are not touched
    by_cases heq : h = s.this
    · subst heq
      obtain ⟨q, hq, hqvalid⟩ := halive
      obtain rfl : p = q := Option.some.inj (hp ▸ hq)
      exact ⟨s.pimpl, hself, hvalid.trans hqvalid⟩
    · rw [Alive, hpimpls, Function.update_of_ne heq]
      exact halive
  · obtain ⟨q, hq, hqvalid⟩ := halive
    by_cases heq : h = s.this
    · subst heq
      obtain rfl : s.pimpl = q := Option.some.inj (hself ▸ hq)
      exact hnot ⟨p, hp, hvalid ▸ hqvalid⟩
    · rw [hpimpls, Function.update_of_ne heq] at hq
      exact hnot ⟨q, hq, hqvalid⟩

/-- The operations of a socket keep all handlers. -/
theorem rearms_kept (hw : w.Sound) (hp : w.pimpls h = some p)
    (hr : Socket.Rearms ⟨h, w.kernel, p⟩ s) : Kept gone w (w.put s) :=
  put_kept hw (hr.this ▸ hp) hr.fd hr.isOpen fun fd r hreg => by
    rcases hr.epoll fd r hreg with hold | ⟨hfd, hopen, hptr⟩
    · exact .inl hold
    · exact .inr ⟨hfd, hopen, hptr.trans hr.this.symm⟩

theorem openFd_kept (hw : w.Sound) (n : Nat) : Kept gone w (w.openFd n) := by
  refine kept_of_same hw rfl ?_ rfl (Nat.le_refl _) hw.owned
  show Function.update w.kernel.isOpen (n : Int) true SocketBasePimpl.invalidFd = false
  rw [Function.update_of_ne (by simp [SocketBasePimpl.invalidFd])]
  exact hw.notOpen

theorem setErrno_kept (hw : w.Sound) (e : Nat) : Kept gone w (w.setErrno e) :=
  kept_of_same hw rfl hw.notOpen rfl (Nat.le_refl _) hw.owned

theorem release_kept (hw : w.Sound) (o : Nat) : Kept gone w (w.release o) := by
  refine kept_of_same hw rfl hw.notOpen rfl (Nat.le_refl _) fun o' h hown => ?_
  change Function.update w.objects o (some none) o' = some (some h) at hown
  by_cases heq : o' = o
  · subst heq
    rw [Function.update_self] at hown
    cases hown
  · rw [Function.update_of_ne heq] at hown
    exact hw.owned o' h hown

/-- A new handler is at an address that was not used. -/
theorem construct_kept (hw : w.Sound) (domain type protocol fd : Int) (callbacks : Callbacks) :
    Kept gone w (w.construct domain type protocol fd callbacks) := by
  have hother : ∀ h, h ≠ w.fresh →
      (w.construct domain type protocol fd callbacks).pimpls h = w.pimpls h :=
    fun h hne => Function.update_of_ne hne ..
  have hfresh : (w.construct domain type protocol fd callbacks).fresh = w.fresh + 1 := rfl
  refine ⟨⟨fun fd r hr => ?_, hw.notOpen, fun h hge => ?_, fun o h hown => ?_⟩,
    fun h halive _ => ?_, fun h hlt hnot => ⟨by omega, fun halive => ?_⟩⟩
  · obtain ⟨p, hp, hfd, hvalid⟩ := hw.registered fd r hr
    rw [hother r.ptr (Nat.ne_of_lt (hw.lt_fresh hp))]
    exact ⟨p, hp, hfd, hvalid⟩
  · rw [hother h (by omega)]
    exact hw.beyond h (by omega)
  · change Function.update w.objects w.fresh (some (some w.fresh)) o = some (some h) at hown
    by_cases heq : o = w.fresh
    · rw [heq, Function.update_self, Option.some.injEq, Option.some.injEq] at hown
      omega
    · rw [Function.update_of_ne heq] at hown
      have hlt := hw.owned o h hown
      omega
  · obtain ⟨p, hp, hvalid⟩ := halive
    exact ⟨p, (hother h (Nat.ne_of_lt (hw.lt_fresh hp))).trans hp, hvalid⟩
  · obtain ⟨p, hp, hvalid⟩ := halive
    rw [hother h (by omega)] at hp
    exact hnot ⟨p, hp, hvalid⟩

/-- Handing a pimpl over to another object keeps its handler. -/
theorem own_kept (hw : w.Sound) (hown : w.own o h = some w') : Kept gone w w' := by
  obtain ⟨p, hp, rfl⟩ := Option.map_eq_some_iff.mp hown
  have hput : Kept gone w (w.put ⟨h, w.kernel, { p with parent := o }⟩) :=
    put_kept hw hp rfl rfl fun _ _ hr => .inl hr
  refine hput.trans (kept_of_same hput.sound rfl hput.sound.notOpen rfl (Nat.le_refl _) ?_)
  intro o' h' hobj
  change Function.update w.objects o (some (some h)) o' = some (some h') at hobj
  by_cases heq : o' = o
  · rw [heq, Function.update_self, Option.some.injEq, Option.some.injEq] at hobj
    exact hobj ▸ hw.lt_fresh hp
  · rw [Function.update_of_ne heq] at hobj
    exact hw.owned o' h' hobj

/-- Closing a socket takes its descriptor out of the interest list. -/
theorem close_epoll (s : Socket) {fd : Int} {r : Registration}
    (hr : s.close.kernel.epoll fd = some r) :
    s.kernel.epoll fd = some r ∧ (s.pimpl.valid = true → fd ≠ s.pimpl.fd) := by
  unfold Socket.close at hr
  split at hr
  · change Function.update s.kernel.epoll s.pimpl.fd none fd = some r at hr
    by_cases hfd : fd = s.pimpl.fd
    · rw [hfd, Function.update_self] at hr
      cases hr
    · rw [Function.update_of_ne hfd] at hr
      exact ⟨hr, fun _ => hfd⟩
  · exact ⟨hr, fun hvalid => absurd hvalid ‹_›⟩

theorem close_isOpen (s : Socket) {fd : Int} (h : s.kernel.isOpen fd = false) :
    s.close.kernel.isOpen fd = false := by
  unfold Socket.close
  split
  · show Function.update s.kernel.isOpen s.pimpl.fd false fd = false
    by_cases hfd : fd = s.pimpl.fd
    · rw [hfd, Function.update_self]
    · rw [Function.update_of_ne hfd]
      exact h
  · exact h

theorem close_invalid (s : Socket) : s.close.pimpl.valid = false := by
  unfold Socket.close
  split
  · rfl
  · exact Bool.not_eq_true _ ▸ ‹_›

/-- Closing the socket of one handler, and deleting it or not, keeps the others; that
one is gone. -/
theorem gone_kept (hw : w.Sound) (hp : w.pimpls h = some p) {q : Option SocketBasePimpl}
    (hq : ∀ p' ∈ q, p'.valid = false)
    (hw' : w' = { w with
      kernel := (Socket.close ⟨h, w.kernel, p⟩).kernel
      pimpls := Function.update w.pimpls h q }) :
    Kept (some h) w w' ∧ h < w'.fresh ∧ ¬ w'.Alive h := by
  have hself : w'.pimpls h = q := by rw [hw']; exact Function.update_self ..
  have hother : ∀ x, x ≠ h → w'.pimpls x = w.pimpls x := by
    intro x hne
    rw [hw']
    exact Function.update_of_ne hne ..
  have hkernel : w'.kernel = (Socket.close ⟨h, w.kernel, p⟩).kernel := by rw [hw']
  have hfresh : w'.fresh = w.fresh := by rw [hw']
  have hobjects : w'.objects = w.objects := by rw [hw']
  have hlt : h < w.fresh := hw.lt_fresh hp
  have hgone : ¬ w'.Alive h := by
    rintro ⟨p', hp', hvalid⟩
    rw [hq p' (hself ▸ hp')] at hvalid
    cases hvalid
  refine ⟨⟨⟨fun fd r hr => ?_, ?_, fun x hge => ?_, ?_⟩, fun x halive hne => ?_,
    fun x hlt hnot => ⟨hfresh ▸ hlt, fun halive => ?_⟩⟩, hfresh ▸ hlt, hgone⟩
  · -- the entry of the closed descriptor is gone, so the others point elsewhere
    rw [hkernel] at hr
    obtain ⟨hold, hfd⟩ := close_epoll _ hr
    obtain ⟨p', hp', hpfd, hvalid⟩ := hw.registered fd r hold
    have hne : r.ptr ≠ h := by
      rintro heq
      rw [heq, hp] at hp'
      obtain rfl : p = p' := Option.some.inj hp'
      exact hfd hvalid hpfd.symm
    rw [hother _ hne]
    exact ⟨p', hp', hpfd, hvalid⟩
  · rw [hkernel]
    exact close_isOpen _ hw.notOpen
  · rw [hother x (by omega)]
    exact hw.beyond x (by omega)
  · rw [hobjects, hfresh]
    exact hw.owned
  · have hne' : x ≠ h := fun heq => hne (by rw [heq])
    rw [Alive, hother x hne']
    exact halive
  · by_cases heq : x = h
    · exact hgone (heq ▸ halive)
    · rw [Alive, hother x heq] at halive
      exact hnot halive

/-- What becomes of a pimpl that is no longer owned. -/
theorem reset_kept (hw : w.Sound) {pimpl : Option Nat} (hpimpl : ∀ h ∈ pimpl, h < w.fresh) :
    Kept pimpl w (w.reset pimpl).1 ∧ ∀ n ∈ (w.reset pimpl).2, ∃ h, n = .closed h ∧
      pimpl = some h ∧ h < (w.reset pimpl).1.fresh ∧ ¬ (w.reset pimpl).1.Alive h := by
  cases pimpl with
  | none => exact ⟨.refl hw, by simp [reset]⟩
  | some h =>
    simp only [reset, List.mem_singleton, forall_eq]
    cases hp : w.pimpls h with
    | none =>
      -- nothing there to delete
      have hdelete : w.delete h = w := by simp [delete, hp]
      rw [hdelete]
      refine ⟨.refl hw, h, rfl, rfl, hpimpl h rfl, ?_⟩
      rintro ⟨p, hp', -⟩
      rw [hp] at hp'
      cases hp'
    | some p =>
      have hdelete : w.delete h = { w with
          kernel := (Socket.close ⟨h, w.kernel, p⟩).kernel
          pimpls := Function.update w.pimpls h none } := by simp [delete, hp]
      obtain ⟨hkept, hlt, hgone⟩ := gone_kept hw hp (by simp) hdelete
      exact ⟨hkept, h, rfl, rfl, hlt, hgone⟩

/-! ## What a stretch of code may do -/

/-- What a note says, given the notes before it, the context after the stretch that
leaves it and the handler the stretch closes: events go to handlers that are there,
callbacks are called of sockets that were not closed, by stretches that close none,
and what was closed is gone. -/
def Justified (ns : List Note) (w' : World) (gone : Option Nat) : Note → Prop
  | .dispatched _ exists_ valid | .reads _ exists_ valid => exists_ = true ∧ valid = true
  | .invoked h _ => .closed h ∉ ns ∧ gone = none
  | .soError _ _ => True
  | .closed h => gone = some h ∧ h < w'.fresh ∧ ¬ w'.Alive h

/-- A stretch keeps all handlers but the one it closes; it makes due only what was due,
or is alive; and its notes are justified by those before. -/
structure Obeys (w : World) (ns : List Note) (f : Frame) (out : Next) : Prop where
  kept : Kept (w.closes f) w out.state
  due : ∀ g ∈ out.frames, ∀ h ∈ g.due, h ∈ f.due ∨ w.closes f = none ∧ w.Alive h
  notes : ∀ n ∈ out.notes, Justified ns out.state (w.closes f) n

/-! ## Calls of the program -/

theorem callThen_obeys {f : Frame} {cb : Option Callback} {ms : List Note} {g : Frame}
    (hgone : w.closes f = none) (hkept : Kept none w (w.put s))
    (hdue : ∀ x ∈ g.due, x ∈ f.due ∨ w.Alive x) (hopen : cb ≠ none → .closed s.this ∉ ns)
    (hms : ∀ n ∈ ms, ∀ w', Justified ns w' none n) : Obeys w ns f (w.callThen s g ms cb) := by
  cases cb with
  | none =>
    refine ⟨hgone ▸ hkept, fun x hx h hh => ?_, fun n hn => hgone ▸ hms n hn _⟩
    obtain rfl : x = g := List.mem_singleton.mp hx
    exact (hdue h hh).imp_right fun ha => ⟨hgone, ha⟩
  | some cb =>
    refine ⟨hgone ▸ hkept, fun x hx h hh => ?_, fun n hn => ?_⟩
    · obtain rfl : x = g := List.mem_singleton.mp hx
      exact (hdue h hh).imp_right fun ha => ⟨hgone, ha⟩
    · rcases List.mem_append.mp hn with hn | hn
      · exact hgone ▸ hms n hn _
      · obtain rfl : n = .invoked s.this cb := List.mem_singleton.mp hn
        exact ⟨hopen (by simp), hgone⟩

/-- A call that returns at once, closes nothing and logs nothing. -/
theorem ret_obeys {f : Frame} {r : Result} (hgone : w.closes f = none) (hkept : Kept none w w') :
    Obeys w ns f (.ret w' r []) :=
  ⟨hgone ▸ hkept, by simp [Outcome.frames], by simp [Outcome.notes]⟩

/-- One that goes on without anything due. -/
theorem goto_obeys {f g : Frame} (hgone : w.closes f = none) (hkept : Kept none w w')
    (hg : g.due = []) : Obeys w ns f (.goto w' g []) := by
  refine ⟨hgone ▸ hkept, fun x hx h hh => ?_, by simp [Outcome.notes]⟩
  obtain rfl : x = g := List.mem_singleton.mp hx
  rw [hg] at hh
  cases hh

/-- A callback called by `so_write` is `on_error`. -/
theorem soWrite_callback {s : Socket} {buffer : List Byte} {as : List Send}
    {written : Socket.Written} (h : s.soWrite buffer as = some written)
    (hcb : written.callback ≠ none) :
    s.pimpl.callbacks.onError = true := by
  induction as generalizing s buffer written with
  | nil => cases h
  | cons a as ih =>
    obtain ⟨-, ⟨-, rfl⟩ | ⟨w', hw', rfl⟩⟩ := Socket.soWrite_cons h
    · cases a with
      | sent n => exact absurd rfl hcb
      | failed e refused =>
        by_cases he : e = EAGAIN
        · simp [Socket.soWriteInternal, he] at hcb
        · simp only [Socket.soWriteInternal, if_neg he, Callbacks.call?] at hcb
          by_contra hnot
          simp [hnot] at hcb
    · rw [← (Socket.soWriteInternal_rearms s a).callbacks]
      exact ih hw' hcb

/-- The destructor closes what the object owns. -/
theorem destruct_obeys (hw : w.Sound) {ms : List Note} (h : w.destruct o = some (w', ms)) :
    Kept (w.objects o).join w w' ∧
      ∀ n ∈ ms, Justified ns w' (w.objects o).join n := by
  obtain ⟨pimpl, hobj, rfl, rfl⟩ := destruct_some h
  -- first the object goes, then what it owned
  have hnone : Kept pimpl w { w with objects := Function.update w.objects o none } := by
    refine kept_of_same hw rfl hw.notOpen rfl (Nat.le_refl _) fun o' x hown => ?_
    change Function.update w.objects o none o' = some (some x) at hown
    by_cases heq : o' = o
    · rw [heq, Function.update_self] at hown
      cases hown
    · rw [Function.update_of_ne heq] at hown
      exact hw.owned o' x hown
  have howned : ∀ x ∈ pimpl, x < w.fresh := by
    rintro x rfl
    exact hw.owned o x hobj
  obtain ⟨hkept, hnotes⟩ := reset_kept hnone.sound howned
  rw [hobj, Option.join_some]
  refine ⟨hnone.trans hkept, fun n hn => ?_⟩
  obtain ⟨x, rfl, hx, hlt, hgone⟩ := hnotes n hn
  exact ⟨hx, hlt, hgone⟩

theorem closeObject_obeys (hw : w.Sound) {ms : List Note} (h : w.closeObject o = some (w', ms)) :
    Kept (w.objects o).join w w' ∧
      ∀ n ∈ ms, Justified ns w' (w.objects o).join n := by
  obtain ⟨hobj, rfl, rfl⟩ | ⟨x, p, hobj, hp, rfl, hw'⟩ := closeObject_some h
  · rw [hobj]
    exact ⟨.refl hw, by simp⟩
  · obtain ⟨hkept, hlt, hgone⟩ :=
      gone_kept hw hp (fun q hq => Option.some.inj hq ▸ close_invalid _) hw'
    rw [hobj]
    refine ⟨hkept, fun n hn => ?_⟩
    obtain rfl : n = .closed x := List.mem_singleton.mp hn
    exact ⟨rfl, hlt, hgone⟩

/-- Move assignment closes what the object owned before. -/
theorem assign_obeys (hw : w.Sound) {other : Nat} {ms : List Note}
    (h : w.assign o other = some (w', ms)) :
    Kept ((w.release other).objects o).join w w' ∧
      ∀ n ∈ ms, Justified ns w' ((w.release other).objects o).join n := by
  obtain ⟨s, pimpl, hs, hobj, hown, rfl⟩ := assign_some h
  -- `other` gives its pimpl away, the old one of `o` goes, `o` gets the new one
  have hrelease : Kept pimpl w (w.release other) := release_kept hw other
  have howned : ∀ x ∈ pimpl, x < (w.release other).fresh := by
    rintro x rfl
    exact hrelease.sound.owned o x hobj
  obtain ⟨hreset, hnotes⟩ := reset_kept hrelease.sound howned
  have hlast : Kept pimpl ((w.release other).reset pimpl).1 w' := own_kept hreset.sound hown
  rw [hobj, Option.join_some]
  refine ⟨(hrelease.trans hreset).trans hlast, fun n hn => ?_⟩
  obtain ⟨x, rfl, hx, hlt, hgone⟩ := hnotes n hn
  obtain ⟨hlt', hgone'⟩ := hlast.stays x hlt hgone
  exact ⟨hx, hlt', hgone'⟩

/-! ## The loop -/

/-- What `epoll_wait` reports about a socket points to a live handler. -/
theorem report_alive (hw : w.Sound) {e : Option (Int × Events)} {ready : Ready}
    (h : w.report e = some ready) : ∀ x ∈ ready.handlers, w.Alive x := by
  rcases e with _ | ⟨fd, events⟩
  · cases h
    simp [Ready.handlers]
  · obtain ⟨r, hr, hrest⟩ := Option.bind_eq_some_iff.mp h
    obtain ⟨p, hp, -, hvalid⟩ := hw.registered fd r hr
    split at hrest
    · cases hrest
      intro x hx
      obtain rfl : x = r.ptr := List.mem_singleton.mp hx
      exact ⟨p, hp, hvalid⟩
    · cases hrest

theorem epollWait_alive (hw : w.Sound) {events : List (Option (Int × Events))}
    {ready : List Ready} (h : w.epollWait events = some ready) :
    ∀ x ∈ ready.flatMap Ready.handlers, w.Alive x := by
  unfold epollWait at h
  split at h
  · intro x hx
    obtain ⟨entry, hentry, hx⟩ := List.mem_flatMap.mp hx
    obtain ⟨e, -, hreport⟩ := (mem_of_mapM h).2 entry hentry
    exact report_alive hw hreport x hx
  · cases h

theorem acceptBranch_obeys (hw : w.Sound) (hp : w.pimpls h = some p) (hvalid : p.valid = true)
    (hopened : .closed h ∉ ns) {events : Events} {rest : List Ready} {refused : Option Nat}
    {a : Opened} :
    Obeys w ns (.readBranch h events rest) (w.acceptBranch ⟨h, w.kernel, p⟩ rest refused a) := by
  have hdue : ∀ x ∈ rest.flatMap Ready.handlers, x ∈ (Frame.readBranch h events rest).due :=
    fun x hx => List.mem_append_right _ hx
  cases a with
  | failed e =>
    exact callThen_obeys rfl (put_kept hw hp rfl rfl fun _ _ hr => .inl hr)
      (fun x hx => .inl (hdue x hx)) (fun _ => hopened) (by simp [Justified, hvalid])
  | fd n =>
    have hopen : Kept none w (w.openFd n) := openFd_kept hw n
    unfold acceptBranch
    dsimp only
    split
    · -- a new handler, registered for EPOLLIN
      have hnew : Kept none w ((w.openFd n).construct p.domain p.type p.protocol n
          ⟨false, false, false, false, false, false⟩) :=
        hopen.trans (construct_kept hopen.sound _ _ _ _ _)
      have hrearms := Socket.setEvents_rearms
        ⟨w.fresh, ((w.openFd n).construct p.domain p.type p.protocol n
            ⟨false, false, false, false, false, false⟩).kernel,
          SocketBasePimpl.new p.domain p.type p.protocol n
            ⟨false, false, false, false, false, false⟩ w.fresh⟩ ⟨true, false⟩ refused
      refine ⟨?_, fun g hg x hx => ?_, fun note hnote => ?_⟩
      · refine hnew.trans (rearms_kept hnew.sound (Function.update_self ..)
          (hrearms.trans ⟨rfl, rfl, rfl, rfl, rfl, fun _ _ hr => .inl hr⟩))
      · obtain rfl := List.mem_singleton.mp hg
        exact .inl (hdue x hx)
      · rcases List.mem_pair.mp hnote with rfl | rfl
        · exact ⟨rfl, hvalid⟩
        · exact ⟨hopened, rfl⟩
    · refine ⟨hopen, fun g hg x hx => ?_, by simp [Outcome.notes, Justified, hvalid]⟩
      obtain rfl := List.mem_singleton.mp hg
      exact .inl (hdue x hx)

/-- What `handle_event` still uses at `events & EPOLLIN` was due before. -/
theorem readBranch_due {events : Events} {rest : List Ready} {x : Nat}
    (hx : x ∈ (Frame.readBranch h events rest).due) :
    x ∈ (Frame.batch (.socket h events :: rest)).due := by
  rcases List.mem_append.mp hx with hx | hx
  · split at hx
    · exact List.mem_append_left _ hx
    · cases hx
  · exact List.mem_append_right _ hx

/-- With `EPOLLIN`, the handler of the event is due until then. -/
theorem mem_readBranch_due {events : Events} {rest : List Ready} (hin : events.epollin = true) :
    h ∈ (Frame.readBranch h events rest).due := by
  rw [Frame.due, if_pos hin]
  exact List.mem_append_left _ (List.mem_singleton.mpr rfl)

/-- An operation of a socket that the program calls. -/
theorem owned_kept (hw : w.Sound) {s' : Socket} (hs : w.owned o = some s) (hr : s.Rearms s') :
    Kept gone w (w.put s') := by
  obtain ⟨p, -, hp, hsocket⟩ := owned_iff.mp hs
  exact rearms_kept hw hp (hsocket ▸ hr)

/-- **Every stretch of code obeys**, if what is due is alive, what was closed is not,
and it may write. -/
theorem obeys_of_stretch (hw : w.Sound) {f : Frame} {a : Answer} {out : Next}
    (hdue : ∀ x ∈ f.due, w.Alive x) (hopen : ∀ x, w.Alive x → .closed x ∉ ns)
    (hwrite : w.MayWrite ns f) (hs : Stretch w f a out) : Obeys w ns f out := by
  have same : ∀ {w' : World}, w'.kernel = w.kernel → w'.pimpls = w.pimpls →
      w'.objects = w.objects → w'.fresh = w.fresh → Kept none w w' := by
    intro w' hkernel hpimpls hobjects hfresh
    refine kept_of_same hw ?_ ?_ hpimpls (Nat.le_of_eq hfresh.symm) ?_
    · rw [hkernel]
    · rw [hkernel, hw.notOpen]
    · rw [hobjects, hfresh]
      exact hw.owned
  cases hs with
  -- the calls of the program
  | waitForInput => exact goto_obeys rfl (same rfl rfl rfl rfl) (by simp [Frame.due])
  | stop => exact ret_obeys rfl (same rfl rfl rfl rfl)
  | @socket domain type protocol callbacks a hopens =>
    cases a with
    | fd n =>
      have hopen : Kept none w (w.openFd n) := openFd_kept hw n
      exact ret_obeys rfl (hopen.trans (construct_kept hopen.sound ..))
    | failed e =>
      have herr : Kept none w (w.setErrno e) := setErrno_kept hw e
      exact ret_obeys rfl (herr.trans (construct_kept herr.sound ..))
  | adopt => exact ret_obeys rfl (construct_kept hw ..)
  | @move other s w' hs hown =>
    have hrelease : Kept none w (w.release other) := release_kept hw other
    have hfresh : Kept none w { w.release other with fresh := w.fresh + 1 } := by
      refine hrelease.trans (kept_of_same hrelease.sound rfl hrelease.sound.notOpen rfl
        (Nat.le_succ _) fun o x hobj => ?_)
      exact Nat.lt_succ_of_lt (hrelease.sound.owned o x hobj)
    exact ret_obeys rfl (hfresh.trans (own_kept hfresh.sound hown))
  | assign hassign =>
    obtain ⟨hkept, hnotes⟩ := assign_obeys hw hassign
    exact ⟨hkept, by simp [Outcome.frames], hnotes⟩
  | destroy hdestruct =>
    obtain ⟨hkept, hnotes⟩ := destruct_obeys hw hdestruct
    exact ⟨hkept, by simp [Outcome.frames], hnotes⟩
  | close hclose =>
    obtain ⟨hkept, hnotes⟩ := closeObject_obeys hw hclose
    exact ⟨hkept, by simp [Outcome.frames], hnotes⟩
  | connect hs => exact ret_obeys rfl (owned_kept hw hs (Socket.connect_rearms ..))
  | listen hs => exact ret_obeys rfl (owned_kept hw hs (Socket.listen_rearms ..))
  | @write o s buffer as written hs hwritten =>
    have hrearms := Socket.soWrite_rearms hwritten
    refine callThen_obeys rfl (owned_kept hw hs hrearms) (by simp [Frame.due]) (fun hcb => ?_)
      (by simp)
    -- the callback is `on_error`, so the socket was not closed
    rw [hrearms.this]
    exact hwrite s hs (soWrite_callback hwritten hcb)
  | callbacks hs =>
    obtain ⟨p, -, hp, hsocket⟩ := owned_iff.mp hs
    refine ret_obeys rfl (put_kept hw hp ?_ ?_ fun fd r hr => .inl ?_)
    · rw [hsocket]
    · rw [hsocket]
    · rw [hsocket] at hr
      exact hr
  | otherCall => exact ret_obeys rfl (setErrno_kept hw _)
  | @otherOpen e n hfree =>
    have hopen : Kept none w (w.openFd n) := openFd_kept hw n
    exact ret_obeys rfl (hopen.trans (setErrno_kept hopen.sound e))
  -- the loop
  | ready hrun hready =>
    refine ⟨.refl hw, fun g hg x hx => ?_, by simp [Outcome.notes]⟩
    obtain rfl := List.mem_singleton.mp hg
    exact .inr ⟨rfl, epollWait_alive hw hready x hx⟩
  | waitFailed => exact ⟨setErrno_kept hw _, by simp [Outcome.frames], by simp [Outcome.notes]⟩
  | stopped => exact ret_obeys rfl (.refl hw)
  | batchEnd => exact goto_obeys rfl (.refl hw) (by simp [Frame.due])
  | other =>
    refine ⟨.refl hw, fun g hg x hx => .inl ?_, by simp [Outcome.notes]⟩
    obtain rfl := List.mem_singleton.mp hg
    exact hx
  | @gone h events rest hp =>
    -- what is due is there
    obtain ⟨p, hp', -⟩ := hdue h (List.mem_append_left _ (List.mem_singleton.mpr rfl))
    rw [hp] at hp'
    cases hp'
  | @wake h events rest p refused soError hp hout =>
    obtain ⟨p', hp', hvalid⟩ := hdue h (List.mem_append_left _ (List.mem_singleton.mpr rfl))
    obtain rfl : p = p' := Option.some.inj (hp ▸ hp')
    have hrearms := Socket.writeBranch_rearms ⟨h, w.kernel, p⟩ refused soError
    refine callThen_obeys rfl (rearms_kept hw hp hrearms) (fun x hx => .inl (readBranch_due hx))
      (fun _ => ?_) fun n hn w' => ?_
    · rw [hrearms.this]
      exact hopen h ⟨p, hp, hvalid⟩
    · rcases List.mem_cons.mp hn with rfl | hn
      · exact ⟨rfl, hvalid⟩
      · split at hn
        · cases hn
        · obtain rfl := List.mem_singleton.mp hn
          trivial
  | @noWake h events rest p hp hout =>
    obtain ⟨p', hp', hvalid⟩ := hdue h (List.mem_append_left _ (List.mem_singleton.mpr rfl))
    obtain rfl : p = p' := Option.some.inj (hp ▸ hp')
    refine ⟨.refl hw, fun g hg x hx => ?_, fun n hn => ?_⟩
    · obtain rfl := List.mem_singleton.mp hg
      exact .inl (readBranch_due hx)
    · obtain rfl := List.mem_singleton.mp hn
      exact ⟨rfl, hvalid⟩
  | noRead hin =>
    refine ⟨.refl hw, fun g hg x hx => .inl ?_, by simp [Outcome.notes]⟩
    obtain rfl := List.mem_singleton.mp hg
    exact List.mem_append_right _ hx
  | dangling hin hp =>
    obtain ⟨p, hp', -⟩ := hdue _ (mem_readBranch_due hin)
    rw [hp] at hp'
    cases hp'
  | @accept h events rest p a refused hin hp hlistening ha hopens =>
    obtain ⟨p', hp', hvalid⟩ := hdue h (mem_readBranch_due hin)
    obtain rfl : p = p' := Option.some.inj (hp ▸ hp')
    exact acceptBranch_obeys hw hp hvalid (hopen h ⟨p, hp, hvalid⟩)
  | @receive h events rest p a s cb hin hp hlistening ha hreceive =>
    obtain ⟨p', hp', hvalid⟩ := hdue h (mem_readBranch_due hin)
    obtain rfl : p = p' := Option.some.inj (hp ▸ hp')
    have hrearms := Socket.receiveBranch_rearms ⟨h, w.kernel, p⟩ a
    rw [hreceive] at hrearms
    refine callThen_obeys rfl (rearms_kept hw hp hrearms)
      (fun x hx => .inl (List.mem_append_right _ hx)) (fun _ => ?_) (by simp [Justified, hvalid])
    rw [hrearms.this]
    exact hopen h ⟨p, hp, hvalid⟩
  | @badFunctionCall h events rest p a s hin hp hlistening ha hreceive =>
    obtain ⟨p', hp', hvalid⟩ := hdue h (mem_readBranch_due hin)
    obtain rfl : p = p' := Option.some.inj (hp ▸ hp')
    have hrearms := Socket.receiveBranch_rearms ⟨h, w.kernel, p⟩ a
    rw [hreceive] at hrearms
    exact ⟨rearms_kept hw hp hrearms, by simp [Outcome.frames],
      by simp [Outcome.notes, Justified, hvalid]⟩
  | newSocket hdestruct =>
    obtain ⟨hkept, hnotes⟩ := destruct_obeys hw hdestruct
    refine ⟨hkept, fun g hg x hx => .inl ?_, hnotes⟩
    obtain rfl := List.mem_singleton.mp hg
    exact hx
  | done => exact ret_obeys rfl (.refl hw)

end World

/-! ## Runs -/

/-- What a run that meets the condition keeps: what is due is alive, and what was
closed is gone. -/
structure Orderly (w : World) (fs : List Frame) (ns : List Note) : Prop where
  sound : w.Sound
  due : ∀ f ∈ fs, ∀ h ∈ f.due, w.Alive h
  closed : ∀ h, .closed h ∈ ns → h < w.fresh ∧ ¬ w.Alive h
  dispatched : DispatchedOpen ns

section
variable {w : World} {f : Frame} {fs kept : List Frame} {ns : List Note} {a : Answer} {out : Next}

/-- The notes of a stretch that obeys go on with those before it. -/
theorem DispatchedOpen.append {gone : Option Nat} {ms : List Note} (h : DispatchedOpen ns)
    (hms : ∀ n ∈ ms, World.Justified ns w gone n) : DispatchedOpen (ns ++ ms) where
  toOpen x e v hx := by
    rcases List.mem_append.mp hx with hx | hx
    · exact h.toOpen x e v hx
    · exact hms _ hx
  readsOpen x e v hx := by
    rcases List.mem_append.mp hx with hx | hx
    · exact h.readsOpen x e v hx
    · exact hms _ hx
  notAfterClose := by
    refine List.pairwise_append.mpr ⟨h.notAfterClose, ?_, fun n hn m hm => ?_⟩
    · -- a stretch that closes a socket calls no callback
      refine List.pairwise_of_forall_mem_list fun n hn m hm => ?_
      cases n with
      | closed x =>
        cases m with
        | invoked y cb =>
          have hx : gone = some x := (hms _ hn).1
          have hy : gone = none := (hms _ hm).2
          rw [hx] at hy
          cases hy
        | _ => trivial
      | _ => trivial
    · cases n with
      | closed x =>
        cases m with
        | invoked y cb =>
          rintro rfl
          exact (hms _ hm).1 hn
        | _ => trivial
      | _ => trivial

/-- A stretch of code that meets the condition keeps the run orderly. -/
theorem Orderly.stretch (h : Orderly w (f :: fs) ns) (hp : w.Spares f fs a)
    (hwrite : w.MayWrite ns f) (hres : resume w f a = some out) (hsuffix : kept <:+ fs) :
    Orderly out.state (out.frames ++ kept) (ns ++ out.notes) := by
  obtain ⟨hdue, hdues⟩ := List.forall_mem_cons.mp h.due
  have hobeys := World.obeys_of_stretch h.sound hdue
    (fun x halive hclosed => (h.closed x hclosed).2 halive) hwrite (stretch_of_resume hres)
  -- what was due is due no longer, or is not closed by this stretch
  have spared : ∀ g ∈ f :: fs, ∀ x ∈ g.due, w.closes f ≠ some x :=
    fun g hg x hx hcloses => hp x hcloses g hg hx
  refine ⟨hobeys.kept.sound, fun g hg x hx => ?_, fun x hx => ?_,
    h.dispatched.append hobeys.notes⟩
  · rcases List.mem_append.mp hg with hg | hg
    · rcases hobeys.due g hg x hx with hold | ⟨hnone, halive⟩
      · exact hobeys.kept.alive x (hdue x hold) (spared f (List.mem_cons_self ..) x hold)
      · exact hobeys.kept.alive x halive (by rw [hnone]; simp)
    · have hmem : g ∈ fs := hsuffix.subset hg
      exact hobeys.kept.alive x (hdues g hmem x hx) (spared g (List.mem_cons_of_mem _ hmem) x hx)
  · -- what was closed stays so
    rcases List.mem_append.mp hx with hx | hx
    · obtain ⟨hlt, hgone⟩ := h.closed x hx
      exact hobeys.kept.stays x hlt hgone
    · exact (hobeys.notes _ hx).2

theorem new_sound : World.new.Sound where
  registered fd r hr := by cases hr
  notOpen := rfl
  beyond _ _ := rfl
  owned o h hown := by cases hown

/-- **When events go to handlers that are there.**  In every run in which no handler is
closed or destroyed while it is due, and nothing is written to a socket that was
closed and has `on_error` set, every event is dispatched to an existing handler of
an open socket, and no callback of a socket is called after it was closed. -/
theorem dispatched_open {es : List (Event Op Answer)} {c : Configuration}
    (hr : Runs.run (step object) (Config.start World.new) es = some c)
    (hp : Runs.Along (step object) (Before World.Spares) (Config.start World.new) es)
    (hwrite : Runs.Along (step object) (fun c _ => MayWrite c) (Config.start World.new) es) :
    DispatchedOpen (notes c.log) := by
  have horderly : Orderly c.state (frames c.stack) (notes c.log) := by
    refine Runs.run_invariant_along
      (I := fun c => Orderly c.state (frames c.stack) (notes c.log))
      (fun c e c' h hpw hstep => ?_) ⟨new_sound, by simp [Config.start], by simp [Config.start],
        ⟨by simp [Config.start], by simp [Config.start], .nil⟩⟩ (hp.and hwrite) hr
    obtain ⟨hspares, hmay⟩ := hpw
    rcases (Step.of_step hstep).stretch with ⟨o, -, -, rfl⟩ |
      ⟨f, rest, a, out, kept, hstack, ha, hres, hstate, hsuffix, -, hframes, -, hnotes, -⟩ |
      ⟨-, hstate, hframes, hlog⟩
    · -- a call has nothing due yet
      have hcalled : Orderly c.state (.api o :: frames c.stack) (notes c.log) :=
        ⟨h.sound, List.forall_mem_cons.mpr ⟨by simp [Frame.due], h.due⟩, h.closed, h.dispatched⟩
      simpa [object, enter] using hcalled
    · simp only [Before, ha, hstack] at hspares
      simp only [MayWrite, hstack] at hmay
      rw [hstack, frames_code] at h
      rw [hstate, hframes, hnotes]
      exact h.stretch hspares hmay hres hsuffix
    · rw [hstate, hframes, hlog]
      exact h
  exact horderly.dispatched

end

/-- Two sockets connect, and the loop gets an event of each in one batch; the callback
of the first one calls `op`, and `a` answers the second event. -/
def twoConnects (op : Op) (a : Answer) : List (Event Op Answer) :=
  [.call (.socket 2 1 0 ⟨true, true, true, true, false, true⟩), .code (.opened (.fd 3)),
    .call (.connect 0), .code (.call none (some EINPROGRESS)),
    .call (.socket 2 1 0 ⟨true, true, true, true, false, true⟩), .code (.opened (.fd 4)),
    .call (.connect 1), .code (.call none (some EINPROGRESS)),
    .call .waitForInput, .code .go,
    .code (.ready [some (3, ⟨false, true⟩), some (4, ⟨false, true⟩)]),
    .code (.wake none 0),
    .call op, .code .go, .back, .code .go,
    .code a]

/-- A callback may close its own socket. -/
theorem dispatched_open_own :
    ∃ c, Runs.run (step object) (Config.start World.new) (twoConnects (.close 0) (.wake none 0))
        = some c ∧ .closed 0 ∈ notes c.log ∧ DispatchedOpen (notes c.log) := by
  obtain ⟨c, hr, hclosed⟩ :
      ∃ c, Runs.run (step object) (Config.start World.new) (twoConnects (.close 0) (.wake none 0))
        = some c ∧ .closed 0 ∈ notes c.log :=
    Runs.exists_run (by decide)
  exact ⟨c, hr, hclosed, dispatched_open hr (by decide) (by decide)⟩

/-- If it closes the other one, that is told afterwards that it is connected. -/
theorem dispatched_closed :
    ∃ c, Runs.run (step object) (Config.start World.new) (twoConnects (.close 1) (.wake none 0))
        = some c ∧
      notes c.log = [.dispatched 0 true true, .soError 0 0, .invoked 0 .onConnected, .closed 1,
        .dispatched 1 true false, .soError 1 0, .invoked 1 .onConnected] ∧
      ¬ DispatchedOpen (notes c.log) := by
  obtain ⟨c, hr, hnotes⟩ :
      ∃ c, Runs.run (step object) (Config.start World.new) (twoConnects (.close 1) (.wake none 0))
          = some c ∧
        notes c.log = [.dispatched 0 true true, .soError 0 0, .invoked 0 .onConnected, .closed 1,
          .dispatched 1 true false, .soError 1 0, .invoked 1 .onConnected] :=
    Runs.exists_run (by decide)
  refine ⟨c, hr, hnotes, fun hopen => ?_⟩
  have hvalid := (hopen.toOpen 1 true false (by simp [hnotes])).2
  cases hvalid

/-- If it destroys the other one, the loop uses the pointer all the same. -/
example : ∃ c, Runs.run (step object) (Config.start World.new) (twoConnects (.destroy 1) .go)
    = some c ∧ .dispatched 1 false false ∈ notes c.log :=
  Runs.exists_run (by decide)

end Linux
end AcppNetwork
