import AcppNetwork.CloseInCallback

/-!
# The filters of the macOS backend

A filter of the kqueue has the address of a pimpl as `udata`.  A socket registers filters of
its own descriptor only, and closing that removes them, so what the kernel knows of a pimpl
that exists is about the pimpl's own descriptor (`Tied`), whatever is called.  Of a pimpl that
was closed the kernel knows nothing (`Tied.closed`).
-/
namespace AcppNetwork
namespace Macos

open Reentrant
open Linux (Callbacks Callback Send Recv Opened Result CallOut)

/-! ## What the kernel knows -/

namespace Kernel
variable {k k' : Kernel} {fd x : Int} {h u : Nat}

/-- A filter of the descriptor has this `udata`. -/
def Knows (k : Kernel) (fd : Int) (h : Nat) : Prop :=
  (k.reads fd).map Knote.udata = some h ∨ (k.writes fd).map Knote.udata = some h

instance (k : Kernel) (fd : Int) (h : Nat) : Decidable (k.Knows fd h) :=
  inferInstanceAs (Decidable (_ ∨ _))

theorem knows_addRead (hk : (k.addRead fd u).Knows x h) : k.Knows x h ∨ h = u ∧ x = fd := by
  rcases hk with hk | hk
  · change (Function.update k.reads fd _ x).map _ = _ at hk
    by_cases hx : x = fd
    · rw [hx, Function.update_self] at hk
      exact .inr ⟨(Option.some.inj hk).symm, hx⟩
    · rw [Function.update_of_ne hx] at hk
      exact .inl (.inl hk)
  · exact .inl (.inr hk)

theorem knows_addWrite (hk : (k.addWrite fd u).Knows x h) : k.Knows x h ∨ h = u ∧ x = fd := by
  rcases hk with hk | hk
  · exact .inl (.inl hk)
  · change (Function.update k.writes fd _ x).map _ = _ at hk
    by_cases hx : x = fd
    · rw [hx, Function.update_self] at hk
      exact .inr ⟨(Option.some.inj hk).symm, hx⟩
    · rw [Function.update_of_ne hx] at hk
      exact .inl (.inr hk)

theorem knows_close (hk : (k.close fd).Knows x h) : k.Knows x h ∧ x ≠ fd := by
  unfold Knows at hk
  change (Function.update k.reads fd none x).map _ = _ ∨
    (Function.update k.writes fd none x).map _ = _ at hk
  by_cases hx : x = fd
  · rw [hx, Function.update_self, Function.update_self] at hk
    simp at hk
  · rw [Function.update_of_ne hx, Function.update_of_ne hx] at hk
    exact ⟨hk, hx⟩

/-- To become active a filter need not change its `udata`. -/
theorem map_udata_activate (filters : Int → Option Knote) :
    (Function.update filters fd ((filters fd).map fun kn => ⟨kn.udata, true⟩) x).map Knote.udata =
      (filters x).map Knote.udata := by
  by_cases hx : x = fd
  · rw [hx, Function.update_self, Option.map_map]
    rfl
  · rw [Function.update_of_ne hx]

theorem knows_activate (filter : Filter) : (k.activate fd filter).Knows x h ↔ k.Knows x h := by
  cases filter with
  | read => exact or_congr (iff_of_eq (congrArg (· = some h) (map_udata_activate k.reads))) Iff.rfl
  | write =>
    exact or_congr Iff.rfl (iff_of_eq (congrArg (· = some h) (map_udata_activate k.writes)))

end Kernel

/-- The pimpl that an event is of. -/
def Ready.pointer? : Ready → Option Nat
  | .socket _ h => some h
  | .other => none

/-- What is retrieved is the `udata` of a filter, and no filter gets another one. -/
theorem Kernel.knows_retrieve {k k' : Kernel} {event : Option (Filter × Int)} {ready : Ready}
    (hret : k.retrieve event = some (k', ready)) :
    (∀ x h, k'.Knows x h → k.Knows x h) ∧ ∀ h, ready.pointer? = some h → ∃ x, k.Knows x h := by
  unfold retrieve at hret
  split at hret
  · rename_i fd
    split at hret <;> cases hret
    rename_i u hreads
    refine ⟨fun x h hk => ?_, fun h hh => ⟨fd, .inl ?_⟩⟩
    · rcases hk with hk | hk
      · left
        change (Function.update k.reads fd _ x).map _ = _ at hk
        by_cases hx : x = fd
        · rw [hx, Function.update_self] at hk
          rw [hx, hreads]
          exact hk
        · rw [Function.update_of_ne hx] at hk
          exact hk
      · exact .inr hk
    · rw [hreads]
      exact hh
  · rename_i fd
    split at hret <;> cases hret
    rename_i u hwrites
    refine ⟨fun x h hk => ?_, fun h hh => ⟨fd, .inr ?_⟩⟩
    · rcases hk with hk | hk
      · exact .inl hk
      · right
        change (Function.update k.writes fd none x).map _ = _ at hk
        by_cases hx : x = fd
        · rw [hx, Function.update_self] at hk
          cases hk
        · rw [Function.update_of_ne hx] at hk
          exact hk
    · rw [hwrites]
      exact hh
  · cases hret
    exact ⟨fun _ _ hk => hk, fun h hh => by cases hh⟩

theorem Kernel.knows_retrieveAll {k k' : Kernel} {events : List (Option (Filter × Int))}
    {ready : List Ready} (hret : k.retrieveAll events = some (k', ready)) :
    (∀ x h, k'.Knows x h → k.Knows x h) ∧
      ∀ h ∈ ready.filterMap Ready.pointer?, ∃ x, k.Knows x h := by
  induction events generalizing k ready with
  | nil =>
    cases hret
    exact ⟨fun _ _ hk => hk, fun h hh => by cases hh⟩
  | cons event events ih =>
    obtain ⟨⟨k₁, r⟩, hfirst, hrest⟩ := Option.bind_eq_some_iff.mp hret
    obtain ⟨⟨k₂, rs⟩, hall, heq⟩ := Option.bind_eq_some_iff.mp hrest
    cases heq
    obtain ⟨hless, hpointer⟩ := knows_retrieve hfirst
    obtain ⟨hless', hpointers⟩ := ih hall
    refine ⟨fun x h hk => hless x h (hless' x h hk), fun h hh => ?_⟩
    rw [List.mem_filterMap] at hh
    obtain ⟨e, hmem, he⟩ := hh
    rcases List.mem_cons.mp hmem with rfl | hmem
    · exact hpointer h he
    · obtain ⟨x, hk⟩ := hpointers h (List.mem_filterMap.mpr ⟨e, hmem, he⟩)
      exact ⟨x, hless x h hk⟩

/-! ## What the operations of a socket do to that -/

namespace Socket
variable {s s' s'' : Socket}

/-- No descriptor opens or closes, the pimpl keeps its own and its parent, and the filters
that are new, or have another `udata` now, are those of the socket. -/
structure Arms (s s' : Socket) : Prop where
  this : s'.this = s.this
  fd : s'.pimpl.fd = s.pimpl.fd
  parent : s'.pimpl.parent = s.pimpl.parent
  isOpen : s'.kernel.isOpen = s.kernel.isOpen
  knows : ∀ {x h}, s'.kernel.Knows x h →
    s.kernel.Knows x h ∨ h = s.this ∧ x = s.pimpl.fd ∧ s.kernel.isOpen x = true

theorem arms_refl (s : Socket) : s.Arms s := ⟨rfl, rfl, rfl, rfl, .inl⟩

theorem Arms.trans (h : s.Arms s') (h' : s'.Arms s'') : s.Arms s'' := by
  refine ⟨h'.this.trans h.this, h'.fd.trans h.fd, h'.parent.trans h.parent,
    h'.isOpen.trans h.isOpen, fun hk => ?_⟩
  rcases h'.knows hk with hk | ⟨hh, hx, hopen⟩
  · exact h.knows hk
  · exact .inr ⟨hh.trans h.this, hx.trans h.fd, h.isOpen ▸ hopen⟩

theorem arms_setErrno (s : Socket) (e : Nat) : s.Arms (s.setErrno e) :=
  ⟨rfl, rfl, rfl, rfl, .inl⟩

theorem isOpen_of_changeError {k : Kernel} {fd : Int} {refused : Option Nat}
    (h : k.changeError fd refused = none) : k.isOpen fd = true := by
  unfold Kernel.changeError at h
  split at h
  · assumption
  · cases h

theorem arms_askReadEvent (s : Socket) (refused : Option Nat) :
    s.Arms (s.askReadEvent refused).1 := by
  unfold askReadEvent
  split
  · exact arms_setErrno ..
  · rename_i hnone
    refine ⟨rfl, rfl, rfl, rfl, fun hk => (Kernel.knows_addRead hk).imp_right ?_⟩
    rintro ⟨hh, hx⟩
    exact ⟨hh, hx, hx ▸ isOpen_of_changeError hnone⟩

theorem arms_askWriteEvent (s : Socket) (refused : Option Nat) :
    s.Arms (s.askWriteEvent refused).1 := by
  unfold askWriteEvent
  split
  · exact arms_setErrno ..
  · rename_i hnone
    refine ⟨rfl, rfl, rfl, rfl, fun hk => (Kernel.knows_addWrite hk).imp_right ?_⟩
    rintro ⟨hh, hx⟩
    exact ⟨hh, hx, hx ▸ isOpen_of_changeError hnone⟩

theorem arms_connect (s : Socket) (error : Option Nat) : s.Arms (s.connect error).1 := by
  unfold connect
  split
  · exact arms_refl s
  · exact arms_setErrno ..

theorem arms_listen (s : Socket) (error : Option Nat) : s.Arms (s.listen error).1 := by
  unfold listen
  split
  · exact ⟨rfl, rfl, rfl, rfl, .inl⟩
  · exact arms_setErrno ..

theorem arms_soWriteInternal (s : Socket) (a : Send) : s.Arms (s.soWriteInternal a).socket := by
  cases a with
  | sent n => exact arms_refl s
  | failed e refused =>
    have herrno : s.Arms (s.setErrno e) := arms_setErrno s e
    have hask := herrno.trans (arms_askWriteEvent (s.setErrno e) refused)
    simp only [soWriteInternal]
    split
    · split <;> (rename_i hasked; rw [hasked] at hask; exact hask)
    · exact herrno

theorem arms_soWrite {buffer : List Byte} {as : List Send} {written : Written}
    (h : s.soWrite buffer as = some written) : s.Arms written.socket := by
  induction as generalizing s buffer written with
  | nil => simp [soWrite] at h
  | cons a as ih =>
    have hfirst := arms_soWriteInternal s a
    rw [soWrite] at h
    dsimp only at h
    split at h
    · split at h
      · split at h <;> cases h
        exact hfirst
      · split at h <;> cases h
        exact hfirst
      · obtain ⟨next, hnext, rfl⟩ := Option.map_eq_some_iff.mp h
        have hrest : Arms _ next.socket := ih hnext
        exact hfirst.trans hrest
    · cases h

theorem arms_taken (s : Socket) (a : Opened) : s.Arms (s.taken a) := by
  unfold taken
  split
  · exact ⟨rfl, rfl, rfl, rfl, .inl⟩
  · split
    · exact ⟨rfl, rfl, rfl, rfl, .inl⟩
    · exact arms_refl s

/-- The branch for `EVFILT_WRITE` sets `connected_`. -/
theorem arms_getsockopt {w : World} {h : Nat} {p : SocketBasePimpl} {soError err : Nat}
    {k : Kernel} (hget : w.kernel.getsockopt p.fd soError = (k, err)) :
    Arms ⟨h, w.kernel, p⟩ ⟨h, k, { p with connected := true }⟩ := by
  unfold Kernel.getsockopt at hget
  split at hget <;> cases hget <;> exact ⟨rfl, rfl, rfl, rfl, .inl⟩

end Socket

/-! ## Descriptors, filters and pimpls -/

namespace World
variable {w w' : World} {h o : Nat} {p : SocketBasePimpl} {s : Socket}

/-- Filters are those of open descriptors, and what they know are addresses that were given
out; if there is still a pimpl there, the descriptor is its own.  What was not given out is
not used. -/
structure Tied (w : World) : Prop where
  sane : w.Sane
  opened : ∀ {fd h}, w.kernel.Knows fd h → w.kernel.isOpen fd = true
  issued : ∀ {fd h}, w.kernel.Knows fd h → h < w.fresh
  own : ∀ {fd h p}, w.kernel.Knows fd h → w.pimpls h = some p → p.fd = fd
  beyond : ∀ x, w.fresh ≤ x → w.pimpls x = none ∧ w.objects x = none

theorem new_tied : World.new.Tied := by
  refine ⟨rfl, fun hk => ?_, fun hk => ?_, fun hk => ?_, fun x _ => ⟨rfl, rfl⟩⟩ <;>
    rcases hk with hk | hk <;> cases hk

/-- A pimpl has an address that was given out. -/
theorem Tied.lt_fresh (ht : w.Tied) (hp : w.pimpls h = some p) : h < w.fresh := by
  by_contra hle
  rw [(ht.beyond h (by omega)).1] at hp
  cases hp

/-- The kernel may forget filters, and descriptors open. -/
theorem Tied.kernel (ht : w.Tied) {k : Kernel}
    (hsane : k.isOpen SocketBasePimpl.invalidFd = false)
    (hopen : ∀ fd, w.kernel.isOpen fd = true → k.isOpen fd = true)
    (hknows : ∀ {fd h}, k.Knows fd h → w.kernel.Knows fd h) : Tied { w with kernel := k } :=
  ⟨hsane, fun hk => hopen _ (ht.opened (hknows hk)), fun hk => ht.issued (hknows hk),
    fun hk hp => ht.own (hknows hk) hp, ht.beyond⟩

theorem Tied.setErrno (ht : w.Tied) (e : Nat) : (w.setErrno e).Tied :=
  ht.kernel ht.sane (fun _ h => h) fun hk => hk

theorem Tied.openFd (ht : w.Tied) (n : Nat) : (w.openFd n).Tied := by
  refine ht.kernel (ht.sane.openFd n) (fun fd hopen => ?_) fun hk => hk
  show Function.update w.kernel.isOpen (n : Int) true fd = true
  rw [Function.update_apply]
  split
  · rfl
  · exact hopen

/-- A socket goes through one of its operations. -/
theorem Tied.put (ht : w.Tied) (hp : w.pimpls h = some p)
    (ha : Socket.Arms ⟨h, w.kernel, p⟩ s) : (w.put s).Tied := by
  obtain rfl : s.this = h := ha.this
  refine ⟨ht.sane.of_eq ha.isOpen, fun {fd x} hk => ?_, fun {fd x} hk => ?_,
    fun {fd x q} hk hq => ?_, fun x hx => ⟨?_, (ht.beyond x hx).2⟩⟩
  · show s.kernel.isOpen fd = true
    rw [ha.isOpen]
    rcases ha.knows hk with hk | ⟨-, -, hopen⟩
    · exact ht.opened hk
    · exact hopen
  · rcases ha.knows hk with hk | ⟨hx, -, -⟩
    · exact ht.issued hk
    · rw [hx]
      exact ht.lt_fresh hp
  · change Function.update w.pimpls s.this (some s.pimpl) x = some q at hq
    by_cases hx : x = s.this
    · rw [hx, Function.update_self] at hq
      obtain rfl := Option.some.inj hq
      rcases ha.knows hk with hk | ⟨-, hfd, -⟩
      · exact ha.fd.trans (ht.own hk (hx ▸ hp))
      · exact ha.fd.trans hfd.symm
    · rw [Function.update_of_ne hx] at hq
      rcases ha.knows hk with hk | ⟨hx', -, -⟩
      · exact ht.own hk hq
      · exact absurd hx' hx
  · show Function.update w.pimpls s.this _ x = none
    rw [Function.update_of_ne]
    · exact (ht.beyond x hx).1
    · rintro rfl
      exact absurd (ht.lt_fresh hp) (Nat.not_lt.mpr hx)

/-- A new socket for an open descriptor. -/
theorem Tied.create (ht : w.Tied) {fd : Int} (hopen : w.kernel.isOpen fd = true)
    (hfd : p.fd = fd) : Tied ⟨w.kernel.addRead fd w.fresh,
      Function.update w.pimpls w.fresh (some p),
      Function.update w.objects w.fresh (some (some w.fresh)), w.fresh + 1, w.run⟩ := by
  refine ⟨ht.sane, fun {x h} hk => ?_, fun {x h} hk => ?_, fun {x h q} hk hq => ?_,
    fun x hx => ?_⟩
  · rcases Kernel.knows_addRead hk with hk | ⟨-, rfl⟩
    · exact ht.opened hk
    · exact hopen
  · rcases Kernel.knows_addRead hk with hk | ⟨rfl, -⟩
    · exact Nat.lt_succ_of_lt (ht.issued hk)
    · exact Nat.lt_succ_self _
  · change Function.update w.pimpls w.fresh (some p) h = some q at hq
    by_cases hh : h = w.fresh
    · rw [hh, Function.update_self] at hq
      obtain rfl := Option.some.inj hq
      rcases Kernel.knows_addRead hk with hk | ⟨-, rfl⟩
      · exact absurd (ht.issued hk) (by omega)
      · exact hfd
    · rw [Function.update_of_ne hh] at hq
      rcases Kernel.knows_addRead hk with hk | ⟨rfl, -⟩
      · exact ht.own hk hq
      · exact absurd rfl hh
  · have hlt : w.fresh < x := hx
    show Function.update w.pimpls w.fresh _ x = none ∧ Function.update w.objects w.fresh _ x = none
    rw [Function.update_of_ne (by omega), Function.update_of_ne (by omega)]
    exact ht.beyond x (by omega)

theorem Tied.construct (ht : w.Tied) (domain type protocol fd : Int) (callbacks : Callbacks)
    (refused : Option Nat) : (w.construct domain type protocol fd callbacks refused).1.Tied := by
  obtain ⟨e, heq⟩ | ⟨hopen, heq⟩ := construct_cases w domain type protocol fd callbacks refused
  · have herrno := ht.setErrno e
    rw [heq]
    exact ⟨herrno.sane, herrno.opened, fun hk => Nat.lt_succ_of_lt (herrno.issued hk), herrno.own,
      fun x hx => ht.beyond x (Nat.le_of_succ_le hx)⟩
  · rw [heq]
    exact ht.create hopen rfl

theorem closeAt_objects (w : World) (h : Nat) : (w.closeAt h).objects = w.objects := by
  obtain ⟨heq, -⟩ | ⟨p, -, -, heq⟩ := closeAt_cases w h <;> rw [heq]

/-- A socket is closed: its filters go. -/
theorem Tied.closeAt (ht : w.Tied) (h : Nat) : (w.closeAt h).Tied := by
  obtain ⟨heq, -⟩ | ⟨p, hp, -, heq⟩ := closeAt_cases w h
  · rw [heq]
    exact ht
  · rw [heq]
    refine ⟨Kernel.close_isOpen ht.sane, fun {x u} hk => ?_, fun {x u} hk => ?_,
      fun {x u q} hk hq => ?_, fun x hx => ⟨?_, (ht.beyond x hx).2⟩⟩
    · obtain ⟨hk, hx⟩ := Kernel.knows_close hk
      exact (Function.update_of_ne hx ..).trans (ht.opened hk)
    · exact ht.issued (Kernel.knows_close hk).1
    · obtain ⟨hk, hx⟩ := Kernel.knows_close hk
      change Function.update w.pimpls h _ u = some q at hq
      by_cases hu : u = h
      · exact absurd (ht.own hk (hu ▸ hp)).symm hx
      · rw [Function.update_of_ne hu] at hq
        exact ht.own hk hq
    · show Function.update w.pimpls h _ x = none
      rw [Function.update_of_ne]
      · exact (ht.beyond x hx).1
      · rintro rfl
        exact absurd (ht.lt_fresh hp) (Nat.not_lt.mpr hx)

/-- No filter knows a socket that is closed. -/
theorem Tied.closed (ht : w.Tied) (h : Nat) {fd : Int} : ¬ (w.closeAt h).kernel.Knows fd h ∨
    w.pimpls h = none := by
  cases hp : w.pimpls h with
  | none => exact .inr rfl
  | some p =>
    refine .inl fun hk => ?_
    obtain ⟨heq, hinvalid⟩ | ⟨q, hq, -, heq⟩ := closeAt_cases w h
    · rw [heq] at hk
      have hfd : p.fd = SocketBasePimpl.invalidFd := by
        simpa [SocketBasePimpl.valid] using hinvalid p hp
      have hopen := ht.opened hk
      rw [← ht.own hk hp, hfd, ht.sane] at hopen
      cases hopen
    · rw [heq] at hk
      obtain ⟨hk, hx⟩ := Kernel.knows_close hk
      exact hx (ht.own hk hq).symm

/-- An object, or a pimpl, goes. -/
theorem Tied.remove (ht : w.Tied) {pimpls : Nat → Option SocketBasePimpl}
    {objects : Nat → Option (Option Nat)}
    (hpimpls : ∀ x p, pimpls x = some p → w.pimpls x = some p)
    (hobjects : ∀ x, objects x ≠ none → w.objects x ≠ none) :
    Tied { w with pimpls := pimpls, objects := objects } := by
  refine ⟨ht.sane, ht.opened, ht.issued, fun hk hp => ht.own hk (hpimpls _ _ hp), fun x hx => ?_⟩
  obtain ⟨hnone, hobj⟩ := ht.beyond x hx
  constructor
  · by_contra hsome
    obtain ⟨p, hp⟩ := Option.ne_none_iff_exists'.mp hsome
    rw [hpimpls x p hp] at hnone
    cases hnone
  · by_contra hsome
    exact hobjects x hsome hobj

theorem update_none_of {ι π : Type} [DecidableEq ι] {m : ι → Option π} {x y : ι} {p : π}
    (h : Function.update m x none y = some p) : y ≠ x ∧ m y = some p := by
  by_cases hy : y = x
  · rw [hy, Function.update_self] at h
    cases h
  · rw [Function.update_of_ne hy] at h
    exact ⟨hy, h⟩

theorem Tied.delete (ht : w.Tied) (h : Nat) : (w.delete h).Tied :=
  have hobjects : ∀ x, w.objects x ≠ none → w.objects x ≠ none := fun _ h => h
  ht.remove (fun _ _ hp => (update_none_of hp).2) hobjects

theorem Tied.reset (ht : w.Tied) (pimpl : Option Nat) : (w.reset pimpl).Tied := by
  cases pimpl with
  | none => exact ht
  | some x => exact ht.delete x

theorem Tied.destroy (ht : w.Tied) (o h : Nat) : (w.destroy o h).Tied := by
  have hdelete := (ht.closeAt h).delete h
  refine hdelete.remove (fun _ _ hp => hp) fun x hx => ?_
  obtain ⟨v, hv⟩ := Option.ne_none_iff_exists'.mp hx
  show (w.closeAt h).objects x ≠ none
  rw [closeAt_objects, (update_none_of hv).2]
  exact Option.some_ne_none _

theorem Tied.destruct (ht : w.Tied) (h : w.destruct o = some w') : w'.Tied := by
  obtain ⟨pimpl, -, rfl⟩ := Option.map_eq_some_iff.mp h
  cases pimpl with
  | some x => exact ht.destroy o x
  | none =>
    refine ht.remove (fun _ _ hp => hp) fun x hx => ?_
    obtain ⟨v, hv⟩ := Option.ne_none_iff_exists'.mp hx
    rw [(update_none_of hv).2]
    exact Option.some_ne_none _

/-- An object that exists, or the next one, gets a pimpl. -/
theorem Tied.own' (ht : w.Tied) (hown : w.own o h = some w') (ho : o < w.fresh) : w'.Tied := by
  obtain ⟨p, hp, rfl⟩ := own_some hown
  refine ⟨ht.sane, ht.opened, ht.issued, fun {fd x q} hk hq => ?_, fun x hx => ⟨?_, ?_⟩⟩
  · change Function.update w.pimpls h _ x = some q at hq
    by_cases hx : x = h
    · rw [hx, Function.update_self] at hq
      obtain rfl := Option.some.inj hq
      have hfd : p.fd = fd := ht.own (hx ▸ hk) hp
      exact hfd
    · rw [Function.update_of_ne hx] at hq
      exact ht.own hk hq
  · show Function.update w.pimpls h _ x = none
    rw [Function.update_of_ne]
    · exact (ht.beyond x hx).1
    · rintro rfl
      exact absurd (ht.lt_fresh hp) (Nat.not_lt.mpr hx)
  · have hle : w.fresh ≤ x := hx
    show Function.update w.objects o _ x = none
    rw [Function.update_of_ne (by omega)]
    exact (ht.beyond x hx).2

theorem Tied.release (ht : w.Tied) (ho : o < w.fresh) : (w.release o).Tied := by
  refine ⟨ht.sane, ht.opened, ht.issued, ht.own, fun x hx => ⟨(ht.beyond x hx).1, ?_⟩⟩
  have hle : w.fresh ≤ x := hx
  show Function.update w.objects o _ x = none
  rw [Function.update_of_ne (by omega)]
  exact (ht.beyond x hx).2

theorem Tied.elsewhere (ht : w.Tied) {e : Elsewhere} (he : w.elsewhere e = some w') :
    w'.Tied := by
  cases e with
  | connects fd =>
    simp only [World.elsewhere] at he
    split at he <;> cases he
    refine ht.kernel ht.sane (fun _ h => h) fun {x u} hk => ?_
    exact (Kernel.knows_activate (k := w.kernel.setBacklog fd _) .read).mp hk
  | activates filter fd =>
    have hactive : Tied { w with kernel := w.kernel.activate fd filter } :=
      ht.kernel (by cases filter <;> exact ht.sane)
        (fun _ h => by cases filter <;> exact h) fun hk => (Kernel.knows_activate filter).mp hk
    cases filter with
    | read =>
      simp only [World.elsewhere] at he
      split at he <;> cases he
      exact hactive
    | write =>
      cases he
      exact hactive

theorem Tied.kevent (ht : w.Tied) {events : List (Option (Filter × Int))} {ready : List Ready}
    (hk : w.kevent events = some (w', ready)) : w'.Tied := by
  unfold World.kevent at hk
  split at hk
  · obtain ⟨⟨k, r⟩, hret, heq⟩ := Option.map_eq_some_iff.mp hk
    cases heq
    have hopen : k.isOpen = w.kernel.isOpen := by rw [Kernel.retrieveAll_frame hret]
    refine ht.kernel ?_ (fun fd h => ?_) fun {x u} hknows =>
      (Kernel.knows_retrieveAll hret).1 x u hknows
    · rw [hopen]
      exact ht.sane
    · rw [hopen]
      exact h
  · cases hk

/-- The socket that an object owns. -/
theorem exists_of_owned (hs : w.owned o = some s) :
    ∃ h p, w.objects o = some (some h) ∧ w.pimpls h = some p ∧ s = ⟨h, w.kernel, p⟩ := by
  obtain ⟨p, hobj, hp, hsocket⟩ := owned_iff.mp hs
  exact ⟨s.this, p, hobj, hp, hsocket⟩

theorem Tied.lt_of_owned (ht : w.Tied) (hs : w.owned o = some s) : o < w.fresh := by
  obtain ⟨p, hobj, -, -⟩ := owned_iff.mp hs
  by_contra hle
  rw [(ht.beyond o (by omega)).2] at hobj
  cases hobj

theorem Tied.owned {s' : Socket} (ht : w.Tied) (hs : w.owned o = some s) (ha : s.Arms s') :
    (w.put s').Tied := by
  obtain ⟨p, -, hp, hsocket⟩ := owned_iff.mp hs
  exact ht.put hp (hsocket ▸ ha)

end World

end Macos
end AcppNetwork
