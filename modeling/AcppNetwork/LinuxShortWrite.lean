import AcppNetwork.LinuxOwnership

/-!
# After a short write

`send` fails with `EAGAIN` when the kernel's buffer is full; `so_write_internal` then
asks for `EPOLLOUT`, and the write returns less than it was given.  From there to the
next `EPOLLOUT` event of the socket nothing takes `EPOLLOUT` out of its interest set,
and that event calls `on_sent` (`on_sent_follows`).

The other sockets go on meanwhile, on descriptors of their own.
-/
namespace AcppNetwork
namespace Linux

open Reentrant

namespace Socket

variable {s t u : Socket} {fd : Int}

/-! ## Operations of the socket itself -/

/-- `EPOLLOUT` stays in the interest set, and the socket connected. -/
def StaysArmed (s t : Socket) : Prop :=
  (s.Armed → t.Armed) ∧ t.pimpl.connected = s.pimpl.connected

theorem setEvents_staysArmed {events : Events} (hout : events.epollout = true)
    (refused : Option Nat) : s.StaysArmed (s.setEvents events refused).1 := by
  refine ⟨fun h => ?_, setEvents_connected ..⟩
  obtain ⟨e, hset⟩ | ⟨-, hset⟩ := setEvents_cases s events refused
  · rw [hset]
    exact h
  · exact armed_of_setEvents hout (by rw [hset])

theorem connect_staysArmed (refused error : Option Nat) :
    s.StaysArmed (s.connect refused error).1 := by
  have hset : s.StaysArmed (s.setEvents ⟨true, true⟩ refused).1 := setEvents_staysArmed rfl refused
  unfold connect
  generalize s.setEvents ⟨true, true⟩ refused = r at hset ⊢
  obtain ⟨t, failures⟩ := r
  dsimp only
  split
  · exact hset
  · exact hset

theorem soWriteInternal_staysArmed (a : Send) : s.StaysArmed (s.soWriteInternal a).socket := by
  cases a with
  | sent n => exact ⟨id, rfl⟩
  | failed e refused =>
    by_cases he : e = EAGAIN
    · simp only [soWriteInternal, if_pos he]
      have hset : ∀ t : Socket, t.StaysArmed (t.setEvents ⟨true, true⟩ refused).1 :=
        fun t => setEvents_staysArmed rfl refused
      exact hset { s with
        kernel := { s.kernel with errno := e }, pimpl := { s.pimpl with writeEnabled := false } }
    · simp only [soWriteInternal, if_neg he]
      exact ⟨id, rfl⟩

theorem soWrite_staysArmed {buffer : List Byte} {as : List Send} {w : Written}
    (h : s.soWrite buffer as = some w) : s.StaysArmed w.socket := by
  induction as generalizing s buffer w with
  | nil => cases h
  | cons a as ih =>
    have hfirst := soWriteInternal_staysArmed (s := s) a
    obtain ⟨-, ⟨-, rfl⟩ | ⟨w', hw', rfl⟩⟩ := soWrite_cons h
    · exact hfirst
    · have hrest := ih hw'
      exact ⟨fun h => hrest.1 (hfirst.1 h), hrest.2.trans hfirst.2⟩

theorem receiveBranch_staysArmed (a : Recv) : s.StaysArmed (s.receiveBranch a).1 := by
  refine ⟨receiveBranch_armed s a, ?_⟩
  unfold receiveBranch
  split
  · cases a with
    | received buffer => cases buffer <;> rfl
    | failed e => rfl
  · rfl

theorem soWriteInternal_short {a : Send} (hagain : .send EAGAIN ∈ (s.soWriteInternal a).failures)
    (hctl : ∀ e, .epollCtl e ∉ (s.soWriteInternal a).failures) :
    (s.soWriteInternal a).socket.Armed := by
  cases a with
  | sent n => cases hagain
  | failed e refused =>
    by_cases he : e = EAGAIN
    · simp only [soWriteInternal, if_pos he] at hctl ⊢
      refine armed_of_setEvents rfl (List.eq_nil_iff_forall_not_mem.mpr fun f hf => ?_)
      obtain ⟨e', rfl⟩ := setEvents_failures hf
      exact hctl e' (List.mem_cons_of_mem _ hf)
    · simp only [soWriteInternal, if_neg he, List.mem_singleton] at hagain
      exact absurd (Failure.send.inj hagain).symm he

/-- A write that ends with `EAGAIN`, and whose `epoll_ctl` succeeds, asks for
`EPOLLOUT`. -/
theorem soWrite_short {buffer : List Byte} {as : List Send} {w : Written}
    (h : s.soWrite buffer as = some w) (hagain : .send EAGAIN ∈ w.failures)
    (hctl : ∀ e, .epollCtl e ∉ w.failures) : w.socket.Armed := by
  induction as generalizing s buffer w with
  | nil => cases h
  | cons a as ih =>
    obtain ⟨-, ⟨-, rfl⟩ | ⟨w', hw', rfl⟩⟩ := soWrite_cons h
    · exact soWriteInternal_short hagain hctl
    · have hfirst : ∀ e, .epollCtl e ∉ (s.soWriteInternal a).failures :=
        fun e he => hctl e (List.mem_append_left _ he)
      have hrest : ∀ e, .epollCtl e ∉ w'.failures :=
        fun e he => hctl e (List.mem_append_right _ he)
      rcases List.mem_append.mp hagain with hnow | hlater
      · exact (soWrite_staysArmed hw').1 (soWriteInternal_short hnow hfirst)
      · have harmed : w'.socket.Armed := ih hw' hlater hrest
        exact harmed

/-! ## Operations of other sockets -/

/-- The descriptor `fd` is open and registered, and not by this socket. -/
structure Apart (fd : Int) (s : Socket) : Prop where
  isOpen : s.kernel.isOpen fd = true
  registered : s.kernel.epoll fd ≠ none
  unset : s.pimpl.fd = fd → s.pimpl.eventsSet = false

/-- The registration of a descriptor that is not the socket's is left as it is. -/
def Ignores (fd : Int) (s t : Socket) : Prop :=
  s.Apart fd → t.Apart fd ∧ t.kernel.epoll fd = s.kernel.epoll fd

theorem Ignores.trans (h : s.Ignores fd t) (h' : t.Ignores fd u) : s.Ignores fd u := by
  intro hs
  obtain ⟨ht, hepoll⟩ := h hs
  obtain ⟨hu, hepoll'⟩ := h' ht
  exact ⟨hu, hepoll'.trans hepoll⟩

theorem ignores_of_same (hopen : t.kernel.isOpen = s.kernel.isOpen)
    (hepoll : t.kernel.epoll = s.kernel.epoll) (hfd : t.pimpl.fd = s.pimpl.fd)
    (hset : t.pimpl.eventsSet = s.pimpl.eventsSet) : s.Ignores fd t := by
  intro hs
  refine ⟨⟨?_, ?_, ?_⟩, ?_⟩
  · rw [hopen]
    exact hs.isOpen
  · rw [hepoll]
    exact hs.registered
  · rw [hfd, hset]
    exact hs.unset
  · rw [hepoll]

/-- `EPOLL_CTL_ADD` fails for a descriptor that is registered already. -/
theorem setEvents_ignores (events : Events) (refused : Option Nat) :
    s.Ignores fd (s.setEvents events refused).1 := by
  intro hs
  by_cases hfd : s.pimpl.fd = fd
  · subst hfd
    obtain ⟨r, hr⟩ := Option.ne_none_iff_exists'.mp hs.registered
    have hctl : s.kernel.ctlError .add s.pimpl.fd refused = some EEXIST := by
      simp [Kernel.ctlError, hs.isOpen, hr]
    have hset : (s.setEvents events refused).1 =
        { s with kernel := { s.kernel with errno := EEXIST } } := by
      simp [setEvents, hs.unset rfl, Kernel.epollCtl, hctl]
    rw [hset]
    exact ⟨⟨hs.isOpen, hs.registered, hs.unset⟩, rfl⟩
  · obtain ⟨e, hset⟩ | ⟨-, hset⟩ := setEvents_cases s events refused
    · rw [hset]
      exact ⟨⟨hs.isOpen, hs.registered, hs.unset⟩, rfl⟩
    · have hepoll : (s.setEvents events refused).1.kernel.epoll fd = s.kernel.epoll fd := by
        rw [hset]
        exact Function.update_of_ne (Ne.symm hfd) ..
      refine ⟨⟨?_, by rw [hepoll]; exact hs.registered, fun h => ?_⟩, hepoll⟩
      · rw [hset]
        exact hs.isOpen
      · rw [setEvents_fd] at h
        exact absurd h hfd

theorem connect_ignores (refused error : Option Nat) :
    s.Ignores fd (s.connect refused error).1 := by
  have hset : s.Ignores fd (s.setEvents ⟨true, true⟩ refused).1 := setEvents_ignores _ _
  unfold connect
  generalize s.setEvents ⟨true, true⟩ refused = r at hset ⊢
  obtain ⟨t, failures⟩ := r
  dsimp only
  split
  · exact hset
  · exact hset.trans (ignores_of_same rfl rfl rfl rfl)

theorem listen_ignores (refused error : Option Nat) :
    s.Ignores fd (s.listen refused error).1 := by
  have hset : s.Ignores fd (s.setEvents ⟨true, false⟩ refused).1 := setEvents_ignores _ _
  unfold listen
  generalize s.setEvents ⟨true, false⟩ refused = r at hset ⊢
  obtain ⟨t, failures⟩ := r
  dsimp only
  split
  · exact hset.trans (ignores_of_same rfl rfl rfl rfl)
  · exact hset.trans (ignores_of_same rfl rfl rfl rfl)

theorem soWriteInternal_ignores (a : Send) : s.Ignores fd (s.soWriteInternal a).socket := by
  cases a with
  | sent n => exact ignores_of_same rfl rfl rfl rfl
  | failed e refused =>
    by_cases he : e = EAGAIN
    · simp only [soWriteInternal, if_pos he]
      have hmark : s.Ignores fd
          { s with
            kernel := { s.kernel with errno := e }
            pimpl := { s.pimpl with writeEnabled := false } } := ignores_of_same rfl rfl rfl rfl
      exact hmark.trans (setEvents_ignores _ _)
    · simp only [soWriteInternal, if_neg he]
      exact ignores_of_same rfl rfl rfl rfl

theorem soWrite_ignores {buffer : List Byte} {as : List Send} {w : Written}
    (h : s.soWrite buffer as = some w) : s.Ignores fd w.socket := by
  induction as generalizing s buffer w with
  | nil => cases h
  | cons a as ih =>
    obtain ⟨-, ⟨-, rfl⟩ | ⟨w', hw', rfl⟩⟩ := soWrite_cons h
    · exact soWriteInternal_ignores a
    · have hrest : (s.soWriteInternal a).socket.Ignores fd w'.socket := ih hw'
      exact (soWriteInternal_ignores a).trans hrest

theorem writeBranch_ignores (refused : Option Nat) (soError : Nat) :
    s.Ignores fd (s.writeBranch refused soError).1 := by
  have hset : s.Ignores fd (s.setEvents ⟨true, false⟩ refused).1 := setEvents_ignores _ _
  unfold writeBranch
  generalize s.setEvents ⟨true, false⟩ refused = r at hset ⊢
  obtain ⟨t, failures⟩ := r
  have hgetsockopt : ∀ k, k = (t.kernel.getsockopt t.pimpl.fd soError).1 →
      k.isOpen = t.kernel.isOpen ∧ k.epoll = t.kernel.epoll := by
    rintro k rfl
    unfold Kernel.getsockopt
    split <;> exact ⟨rfl, rfl⟩
  obtain ⟨hopen, hepoll⟩ := hgetsockopt _ rfl
  dsimp only
  split
  · split
    · exact hset.trans (ignores_of_same hopen hepoll rfl rfl)
    · exact hset.trans (ignores_of_same hopen hepoll rfl rfl)
  · exact hset.trans (ignores_of_same rfl rfl rfl rfl)

theorem receiveBranch_ignores (a : Recv) : s.Ignores fd (s.receiveBranch a).1 := by
  unfold receiveBranch
  split
  · cases a with
    | received buffer => cases buffer <;> exact ignores_of_same rfl rfl rfl rfl
    | failed e => exact ignores_of_same rfl rfl rfl rfl
  · exact ignores_of_same rfl rfl rfl rfl

/-- A close of the descriptor itself shows. -/
theorem close_ignores (hopen : s.close.kernel.isOpen fd = true) :
    s.close.kernel.epoll fd = s.kernel.epoll fd := by
  unfold close at hopen ⊢
  split
  · rename_i hvalid
    rw [if_pos hvalid] at hopen
    change Function.update s.kernel.isOpen s.pimpl.fd false fd = true at hopen
    by_cases hfd : fd = s.pimpl.fd
    · rw [hfd, Function.update_self] at hopen
      cases hopen
    · exact Function.update_of_ne hfd ..
  · rfl

end Socket

/-! ## The context -/

namespace World

/-- The socket at `h` is open. -/
def OpenAt (w : World) (h : Nat) : Prop :=
  ∃ p ∈ w.pimpls h, p.valid = true ∧ w.kernel.isOpen p.fd = true

/-- No other socket has registered the descriptor of the one at `h`. -/
def Sole (w : World) (h : Nat) : Prop :=
  ∀ p ∈ w.pimpls h, p.valid = true → ∀ x < w.fresh, ∀ q ∈ w.pimpls x,
    x ≠ h → q.fd = p.fd → q.eventsSet = false

/-- The socket at `h` is connected, it has `EPOLLOUT` in its interest set, and no other
socket can take it out. -/
def Awaits (w : World) (h : Nat) : Prop :=
  ∃ p, w.pimpls h = some p ∧ p.connected = true ∧ Socket.Armed ⟨h, w.kernel, p⟩ ∧
    ∀ x q, x ≠ h → w.pimpls x = some q → q.fd = p.fd → q.eventsSet = false

/-- What runs next is neither an `EPOLLOUT` event of `h` nor a `listen` on it. -/
def Undisturbed (w : World) (h : Nat) : Frame → Prop
  | .batch (.socket x events :: _) => x = h → events.epollout = false
  | .api (.listen o) => (w.objects o).join ≠ some h
  | _ => True

instance (w : World) (h : Nat) : Decidable (w.OpenAt h) := by
  unfold OpenAt
  infer_instance

instance (w : World) (h : Nat) : Decidable (w.Sole h) := by
  unfold Sole
  infer_instance

instance (w : World) (h : Nat) (f : Frame) : Decidable (w.Undisturbed h f) := by
  unfold Undisturbed
  split <;> infer_instance

variable {w w' : World} {h x o : Nat} {p q : SocketBasePimpl} {s : Socket}

/-- A socket whose descriptor is its own, as the books have it, is the only one that can
have registered it. -/
theorem Accounted.sole {b : Custody.Books Nat Int} (ha : w.Accounted b) : w.Sole h := by
  intro p hp hvalid x _ q hq hne hfd
  have hdescriptor : ∀ {y r}, w.pimpls y = some r → r.fd = p.fd → b.holds y = some p.fd := by
    intro y r hr hrfd
    have hrvalid : r.valid = true := by
      rw [SocketBasePimpl.valid, hrfd]
      exact hvalid
    rw [ha.holds, fdOf, hr, Option.bind_some, SocketBasePimpl.descriptor, if_pos hrvalid, hrfd]
  exact absurd (ha.exact.unique (hdescriptor hp rfl) (hdescriptor hq hfd)) hne

theorem OpenAt.ne_fresh (hopen : w.OpenAt h) (ht : w.Tended) : h ≠ w.fresh := by
  obtain ⟨p, hp, -⟩ := hopen
  rintro rfl
  rw [ht.beyond _ (Nat.le_refl _)] at hp
  cases hp

/-- A socket stays open when another one is accepted. -/
theorem OpenAt.accepted (hopen : w.OpenAt h) (ht : w.Tended) (n : Nat)
    (domain type protocol fd : Int) (callbacks : Callbacks) :
    ((w.openFd n).construct domain type protocol fd callbacks).OpenAt h := by
  obtain ⟨p, hp, hvalid, hfd⟩ := hopen
  refine ⟨p, ?_, hvalid, (openFd_same n).isOpen _ hfd⟩
  show Function.update w.pimpls w.fresh _ h = some p
  rw [Function.update_of_ne (OpenAt.ne_fresh ⟨p, hp, hvalid, hfd⟩ ht)]
  exact hp

theorem Awaits.same (ha : w.Awaits h) (hpimpls : w'.pimpls = w.pimpls)
    (hepoll : w'.kernel.epoll = w.kernel.epoll) : w'.Awaits h := by
  obtain ⟨p, hp, hconn, ⟨r, hr, hout⟩, hsole⟩ := ha
  refine ⟨p, by rw [hpimpls]; exact hp, hconn, ⟨r, ?_, hout⟩, by rw [hpimpls]; exact hsole⟩
  show w'.kernel.epoll p.fd = some r
  rw [hepoll]
  exact hr

/-- An operation of a socket, this one or another. -/
theorem Awaits.put (ha : w.Awaits h) (hopen : w.OpenAt h) (hq : w.pimpls s.this = some q)
    (hfd : s.pimpl.fd = q.fd)
    (hself : s.this = h → Socket.StaysArmed ⟨s.this, w.kernel, q⟩ s)
    (hother : s.this ≠ h → ∀ fd, Socket.Ignores fd ⟨s.this, w.kernel, q⟩ s) :
    (w.put s).Awaits h := by
  obtain ⟨p, hp, hconn, harmed, hsole⟩ := ha
  have hpimpls : (w.put s).pimpls = Function.update w.pimpls s.this (some s.pimpl) := rfl
  by_cases hs : s.this = h
  · obtain ⟨hstays, hconn'⟩ := hself hs
    subst hs
    obtain rfl : p = q := Option.some.inj (hp.symm.trans hq)
    refine ⟨s.pimpl, Function.update_self .., hconn'.trans hconn, hstays harmed,
      fun x r hx hr => ?_⟩
    rw [hpimpls, Function.update_of_ne hx] at hr
    rw [hfd]
    exact hsole x r hx hr
  · obtain ⟨p', hp', -, hfdOpen⟩ := hopen
    obtain rfl : p = p' := Option.some.inj (hp.symm.trans hp')
    obtain ⟨r, hr, hout⟩ := harmed
    have hregistered : w.kernel.epoll p.fd ≠ none := by
      change w.kernel.epoll p.fd = some r at hr
      rw [hr]
      simp
    obtain ⟨hapart, hepoll⟩ := hother hs p.fd ⟨hfdOpen, hregistered, hsole _ q hs hq⟩
    refine ⟨p, ?_, hconn, ⟨r, hepoll.trans hr, hout⟩, fun x r' hx hr' hfd' => ?_⟩
    · rw [hpimpls, Function.update_of_ne (Ne.symm hs)]
      exact hp
    · rw [hpimpls] at hr'
      by_cases hxs : x = s.this
      · rw [hxs, Function.update_self] at hr'
        obtain rfl := Option.some.inj hr'
        exact hapart.unset hfd'
      · rw [Function.update_of_ne hxs] at hr'
        exact hsole x r' hx hr' hfd'

theorem Awaits.rearms (ha : w.Awaits h) (hopen : w.OpenAt h) (hq : w.pimpls x = some q)
    (hr : Socket.Rearms ⟨x, w.kernel, q⟩ s)
    (hself : x = h → Socket.StaysArmed ⟨x, w.kernel, q⟩ s)
    (hother : ∀ fd, Socket.Ignores fd ⟨x, w.kernel, q⟩ s) : (w.put s).Awaits h := by
  obtain rfl : s.this = x := hr.this
  exact ha.put hopen hq hr.fd hself fun _ => hother

theorem Awaits.owned (ha : w.Awaits h) (hopen : w.OpenAt h) {s' : Socket}
    (hs : w.owned o = some s) (hr : s.Rearms s')
    (hself : (w.objects o).join = some h → s.StaysArmed s')
    (hother : ∀ fd, s.Ignores fd s') : (w.put s').Awaits h := by
  obtain ⟨q, hobj, hq, hsocket⟩ := owned_iff.mp hs
  rw [hsocket] at hr hself hother
  refine ha.rearms hopen hq hr (fun hx => hself ?_) hother
  rw [hobj, Option.join_some, hx]

theorem Awaits.construct (ha : w.Awaits h) (ht : w.Tended)
    (domain type protocol fd : Int) (callbacks : Callbacks) :
    (w.construct domain type protocol fd callbacks).Awaits h := by
  obtain ⟨p, hp, hconn, harmed, hsole⟩ := ha
  have hpimpls : (w.construct domain type protocol fd callbacks).pimpls = Function.update w.pimpls
      w.fresh (some (SocketBasePimpl.new domain type protocol fd callbacks w.fresh)) := rfl
  have hne : h ≠ w.fresh := by
    rintro rfl
    rw [ht.beyond _ (Nat.le_refl _)] at hp
    cases hp
  refine ⟨p, by rw [hpimpls, Function.update_of_ne hne]; exact hp, hconn, harmed,
    fun x q hx hq hfd => ?_⟩
  rw [hpimpls] at hq
  by_cases hxf : x = w.fresh
  · rw [hxf, Function.update_self] at hq
    obtain rfl := Option.some.inj hq
    rfl
  · rw [Function.update_of_ne hxf] at hq
    exact hsole x q hx hq hfd

/-- A socket is closed, and this one is open still. -/
theorem Awaits.shut (ha : w.Awaits h) (hopen : w'.OpenAt h) (hq : w.pimpls x = some q)
    {r : Option SocketBasePimpl} (hr : ∀ p ∈ r, p.valid = false)
    (hpimpls : w'.pimpls = Function.update w.pimpls x r)
    (hkernel : w'.kernel = (Socket.close ⟨x, w.kernel, q⟩).kernel) : w'.Awaits h := by
  obtain ⟨p, hp, hconn, ⟨reg, hreg, hout⟩, hsole⟩ := ha
  obtain ⟨p', hp', hvalid, hfdOpen⟩ := hopen
  rw [hpimpls] at hp'
  have hne : h ≠ x := by
    rintro rfl
    rw [Function.update_self] at hp'
    rw [hr p' hp'] at hvalid
    cases hvalid
  rw [Function.update_of_ne hne] at hp'
  obtain rfl : p = p' := Option.some.inj (hp.symm.trans hp')
  rw [hkernel] at hfdOpen
  refine ⟨p, by rw [hpimpls, Function.update_of_ne hne]; exact hp, hconn, ⟨reg, ?_, hout⟩,
    fun y q' hy hq' hfd => ?_⟩
  · show w'.kernel.epoll p.fd = some reg
    rw [hkernel, Socket.close_ignores hfdOpen]
    exact hreg
  · rw [hpimpls] at hq'
    by_cases hyx : y = x
    · -- what was closed has no descriptor
      rw [hyx, Function.update_self] at hq'
      have hinvalid := hr q' hq'
      rw [SocketBasePimpl.valid, hfd] at hinvalid
      rw [SocketBasePimpl.valid, hinvalid] at hvalid
      cases hvalid
    · rw [Function.update_of_ne hyx] at hq'
      exact hsole y q' hy hq' hfd

theorem Awaits.reset (ha : w.Awaits h) {pimpl : Option Nat}
    (hopen : (w.reset pimpl).1.OpenAt h) : (w.reset pimpl).1.Awaits h := by
  cases pimpl with
  | none => exact ha
  | some g =>
    change (w.delete g).OpenAt h at hopen
    show (w.delete g).Awaits h
    cases hg : w.pimpls g with
    | none =>
      have hdelete : w.delete g = w := by simp [delete, hg]
      rw [hdelete]
      exact ha
    | some q =>
      refine ha.shut hopen hg (r := none) (by simp) delete_pimpls ?_
      simp [delete, hg]

theorem Awaits.own (ha : w.Awaits h) (hopen : w.OpenAt h) (hown : w.own o x = some w') :
    w'.Awaits h := by
  obtain ⟨q, hq, rfl⟩ := Option.map_eq_some_iff.mp hown
  have hput : (w.put ⟨x, w.kernel, { q with parent := o }⟩).Awaits h :=
    ha.put hopen hq rfl (fun _ => ⟨id, rfl⟩) fun _ _ => Socket.ignores_of_same rfl rfl rfl rfl
  exact hput.same rfl rfl

/-- Handing a pimpl over opens nothing. -/
theorem openAt_of_own (hopen : w'.OpenAt h) (hown : w.own o x = some w') : w.OpenAt h := by
  obtain ⟨q, hq, rfl⟩ := Option.map_eq_some_iff.mp hown
  obtain ⟨p, hp, hvalid, hfd⟩ := hopen
  change Function.update w.pimpls x (some { q with parent := o }) h = some p at hp
  by_cases hx : h = x
  · subst hx
    rw [Function.update_self] at hp
    obtain rfl := Option.some.inj hp
    exact ⟨q, hq, hvalid, hfd⟩
  · rw [Function.update_of_ne hx] at hp
    exact ⟨p, hp, hvalid, hfd⟩

/-- **`EPOLLOUT` stays in the interest set** until an `EPOLLOUT` event of the socket. -/
theorem Awaits.stretch {f : Frame} {a : Answer} {out : Next} (ha : w.Awaits h) (ht : w.Tended)
    (hopen : w.OpenAt h) (hopen' : out.state.OpenAt h) (hsince : w.Undisturbed h f)
    (hs : Stretch w f a out) : out.state.Awaits h := by
  cases hs with
  | @socket domain type protocol callbacks a hopens =>
    cases a with
    | fd n =>
      have hopened : (w.openFd n).Awaits h := ha.same rfl rfl
      exact hopened.construct (ht.of_same (fun _ => Iff.rfl) rfl rfl) ..
    | failed e =>
      have herrno : (w.setErrno e).Awaits h := ha.same rfl rfl
      exact herrno.construct (ht.of_same (fun _ => Iff.rfl) rfl rfl) ..
  | adopt => exact ha.construct ht ..
  | @move other s w' hs hown =>
    have hreleased : World.Awaits { w.release other with fresh := w.fresh + 1 } h :=
      ha.same rfl rfl
    exact hreleased.own hopen hown
  | @assign o other w' ns hassign =>
    obtain ⟨s, pimpl, -, -, hown, -⟩ := assign_some hassign
    have hreset := openAt_of_own hopen' hown
    have hreleased : (w.release other).Awaits h := ha.same rfl rfl
    exact (hreleased.reset hreset).own hreset hown
  | @destroy o w' ns hdestruct | @newSocket o rest w' ns hdestruct =>
    obtain ⟨pimpl, -, rfl, -⟩ := destruct_some hdestruct
    have hremoved : World.Awaits { w with objects := Function.update w.objects o none } h :=
      ha.same rfl rfl
    exact hremoved.reset hopen'
  | close hclose =>
    obtain ⟨-, rfl, -⟩ | ⟨x, q, -, hq, -, rfl⟩ := closeObject_some hclose
    · exact ha
    · exact ha.shut hopen' hq (r := some (Socket.close ⟨x, w.kernel, q⟩).pimpl)
        (fun p hp => Option.some.inj hp ▸ close_invalid _) rfl rfl
  | connect hs =>
    exact ha.owned hopen hs (Socket.connect_rearms ..) (fun _ => Socket.connect_staysArmed ..)
      fun _ => Socket.connect_ignores _ _
  | listen hs =>
    exact ha.owned hopen hs (Socket.listen_rearms ..) (fun hx => absurd hx hsince)
      fun _ => Socket.listen_ignores _ _
  | write hs hwrite =>
    rw [callThen_state]
    exact ha.owned hopen hs (Socket.soWrite_rearms hwrite)
      (fun _ => Socket.soWrite_staysArmed hwrite) fun _ => Socket.soWrite_ignores hwrite
  | @callbacks o s callbacks hs =>
    obtain ⟨q, -, hq, hsocket⟩ := owned_iff.mp hs
    refine ha.put hopen hq (by rw [hsocket]) (fun _ => ?_) fun _ _ => ?_
    · rw [hsocket]
      exact ⟨id, rfl⟩
    · rw [hsocket]
      exact Socket.ignores_of_same rfl rfl rfl rfl
  | @wake x events rest q refused soError hq hout =>
    rw [callThen_state]
    refine ha.rearms hopen hq (Socket.writeBranch_rearms ..) (fun hx => ?_)
      fun _ => Socket.writeBranch_ignores _ _
    rw [hsince hx] at hout
    cases hout
  | @accept x events rest q a refused hin hq hlistening haccept hopens =>
    cases a with
    | failed e =>
      rw [acceptBranch, callThen_state]
      exact ha.rearms hopen hq (Socket.errno_rearms ..) (fun _ => ⟨id, rfl⟩)
        fun _ => Socket.ignores_of_same rfl rfl rfl rfl
    | fd n =>
      have hopened : (w.openFd n).Awaits h := ha.same rfl rfl
      rcases acceptBranch_fd w ⟨x, w.kernel, q⟩ rest refused n with
        ⟨-, hstate⟩ | ⟨-, new, hnew, hstate⟩
      · rw [hstate]
        exact hopened
      · -- the new socket registers its own descriptor
        have hne := hopen.ne_fresh ht
        rw [hstate]
        refine (hopened.construct (ht.of_same (fun _ => Iff.rfl) rfl rfl) q.domain q.type
          q.protocol n ⟨false, false, false, false, false, false⟩).rearms
          (hopen.accepted ht ..) (Function.update_self ..) (accepted_rearms hnew)
          (fun hx => absurd hx.symm hne) fun fd => ?_
        rw [hnew]
        exact (Socket.setEvents_ignores _ _).trans (Socket.ignores_of_same rfl rfl rfl rfl)
  | @receive x events rest q a s cb hin hq hlistening hanswer hreceive =>
    have hrearms := Socket.receiveBranch_rearms ⟨x, w.kernel, q⟩ a
    have hstays := Socket.receiveBranch_staysArmed (s := ⟨x, w.kernel, q⟩) a
    have hignores : ∀ fd, Socket.Ignores fd ⟨x, w.kernel, q⟩
        (Socket.receiveBranch ⟨x, w.kernel, q⟩ a).1 := fun _ => Socket.receiveBranch_ignores a
    rw [hreceive] at hrearms hstays hignores
    rw [callThen_state]
    exact ha.rearms hopen hq hrearms (fun _ => hstays) hignores
  | @badFunctionCall x events rest q a s hin hq hlistening hanswer hreceive =>
    have hrearms := Socket.receiveBranch_rearms ⟨x, w.kernel, q⟩ a
    have hstays := Socket.receiveBranch_staysArmed (s := ⟨x, w.kernel, q⟩) a
    have hignores : ∀ fd, Socket.Ignores fd ⟨x, w.kernel, q⟩
        (Socket.receiveBranch ⟨x, w.kernel, q⟩ a).1 := fun _ => Socket.receiveBranch_ignores a
    rw [hreceive] at hrearms hstays hignores
    exact ha.rearms hopen hq hrearms (fun _ => hstays) hignores
  | _ => exact ha.same rfl rfl

end World

/-! ## Runs -/

/-- A write of `h`, while it is connected, that ends with `EAGAIN` before everything is
written; nothing else fails. -/
def ShortWrite (h : Nat) (c : Configuration) (e : Event Op Answer) : Prop :=
  match c.stack, e with
  | .code (.api (.write o buffer)) :: _, .code (.sends as) =>
      ∃ s ∈ c.state.owned o, s.this = h ∧ s.pimpl.connected = true ∧
        ∃ written ∈ s.soWrite buffer as,
          written.n < buffer.length ∧ written.failures = [.send EAGAIN]
  | _, _ => False

/-- No `EPOLLOUT` event of `h` begins, and no `listen` on it. -/
def Undisturbed (h : Nat) (c : Configuration) : Prop :=
  match c.stack with
  | .code f :: _ => c.state.Undisturbed h f
  | _ => True

/-- `EPOLLOUT` is in the interest set of `h`, and if an `EPOLLOUT` event of it is what
comes next, then it calls `on_sent`, if that is set. -/
structure OnSentFollows (h : Nat) (c : Configuration) : Prop where
  armed : ∃ p, c.state.pimpls h = some p ∧ Socket.Armed ⟨h, c.state.kernel, p⟩
  next : ∀ events rest fs e c' p, c.stack = .code (.batch (.socket h events :: rest)) :: fs →
    events.epollout = true → c.state.pimpls h = some p → p.callbacks.onSent = true →
    step object c e = some c' →
    notes c'.log = notes c.log ++ [.dispatched h true p.valid, .invoked h (.onSent 0)]

instance (h : Nat) (c : Configuration) (e : Event Op Answer) : Decidable (ShortWrite h c e) := by
  unfold ShortWrite
  split <;> infer_instance

instance (h : Nat) (c : Configuration) : Decidable (Undisturbed h c) := by
  unfold Undisturbed
  rcases c.stack with _ | ⟨_ | _, _⟩ <;> infer_instance

section
variable {h : Nat} {c c' : Configuration} {e : Event Op Answer}

theorem ShortWrite.elim (hshort : ShortWrite h c e) :
    ∃ o buffer fs as s written, c.stack = .code (.api (.write o buffer)) :: fs ∧
      e = .code (.sends as) ∧ c.state.owned o = some s ∧ s.this = h ∧ s.pimpl.connected = true ∧
      s.soWrite buffer as = some written ∧ written.failures = [.send EAGAIN] := by
  unfold ShortWrite at hshort
  split at hshort
  · obtain ⟨s, hs, hthis, hconn, written, hwrite, -, hfailures⟩ := hshort
    exact ⟨_, _, _, _, s, written, ‹_›, rfl, hs, hthis, hconn, hwrite, hfailures⟩
  · exact hshort.elim

/-- After the short write `EPOLLOUT` is awaited. -/
theorem awaits_of_shortWrite (ht : c'.state.Tended) (hshort : ShortWrite h c e)
    (hstep : step object c e = some c') (hopen : c'.state.OpenAt h) (hsole : c'.state.Sole h) :
    c'.state.Awaits h := by
  obtain ⟨o, buffer, fs, as, s, written, hstack, rfl, hs, rfl, hconn, hwrite, hfailures⟩ :=
    hshort.elim
  have hstate : c'.state = c.state.put written.socket := by
    rcases (Step.of_step hstep).stretch with ⟨o, he, -⟩ |
      ⟨f, rest, a, out, kept, hstack', ha, hres, hstate, -⟩ | ⟨he, -⟩
    · cases he
    · rw [hstack] at hstack'
      cases hstack'
      cases ha
      rw [hstate]
      have hway : Stretch c.state (.api (.write o buffer)) (.sends as) out :=
        stretch_of_resume hres
      cases hway with
      | write hs' hwrite' =>
        obtain rfl := Option.some.inj (hs.symm.trans hs')
        obtain rfl := Option.some.inj (hwrite.symm.trans hwrite')
        rw [World.callThen_state]
    · cases he
  have hthis := (Socket.soWrite_rearms hwrite).this
  have hself : c'.state.pimpls s.this = some written.socket.pimpl := by
    rw [hstate, ← hthis]
    exact Function.update_self ..
  obtain ⟨p, hp, hvalid, -⟩ := hopen
  obtain rfl := Option.some.inj (hp.symm.trans hself)
  have harmed := Socket.soWrite_short hwrite (by rw [hfailures]; simp) (by rw [hfailures]; simp)
  refine ⟨_, hself, (Socket.soWrite_staysArmed hwrite).2.trans hconn, ?_, fun x q hx hq hfd => ?_⟩
  · rw [hstate]
    exact harmed
  · refine hsole _ hp hvalid x ?_ q hq hx hfd
    by_contra hge
    rw [ht.beyond x (by omega)] at hq
    cases hq

/-- An `EPOLLOUT` event of a connected socket calls `on_sent`. -/
theorem on_sent_of_awaits (ha : c.state.Awaits h) : OnSentFollows h c := by
  obtain ⟨p, hp, hconn, harmed, -⟩ := ha
  refine ⟨⟨p, hp, harmed⟩, fun events rest fs e c' p' hstack hout hp' hset hstep => ?_⟩
  obtain rfl := Option.some.inj (hp.symm.trans hp')
  rcases (Step.of_step hstep).stretch with ⟨o, -, houtside, -⟩ |
    ⟨f, rest', a, out, kept, hstack', -, hres, -, -, -, -, -, hnotes, -⟩ | ⟨rfl, -⟩
  · rw [hstack] at houtside
    cases houtside
  · rw [hstack] at hstack'
    cases hstack'
    have hway : Stretch c.state (.batch (.socket h events :: rest)) a out := stretch_of_resume hres
    rw [hnotes]
    cases hway with
    | gone hgone =>
      rw [hgone] at hp
      cases hp
    | @wake x events rest q refused soError hq hout' =>
      obtain rfl := Option.some.inj (hp.symm.trans hq)
      have hcallback := Socket.writeBranch_callback ⟨h, c.state.kernel, p⟩ refused soError hconn
      have hthis := (Socket.writeBranch_rearms ⟨h, c.state.kernel, p⟩ refused soError).this
      rw [hcallback]
      simp [Callbacks.call?, hset, World.callThen, Outcome.notes, wakeNotes, hconn, hthis]
    | noWake hq hnot =>
      rw [hout] at hnot
      cases hnot
  · cases Step.of_step hstep
    cases hstack

/-- **A short write is followed by `on_sent`.**  From a write of a connected socket that
ended with `EAGAIN`, to the next `EPOLLOUT` event of the socket and as long as it is
open, `EPOLLOUT` is in its interest set, and that event calls `on_sent`. -/
theorem on_sent_follows {es₀ es : List (Event Op Answer)} {c₀ c₁ : Configuration}
    (hr₀ : Runs.run (step object) (Config.start World.new) es₀ = some c₀)
    (hshort : ShortWrite h c₀ e) (hstep : step object c₀ e = some c₁)
    (hsole : c₁.state.Sole h) (hr : Runs.run (step object) c₁ es = some c)
    (hopen : Runs.Throughout (step object) (fun c => c.state.OpenAt h) c₁ es)
    (hsince : Runs.Along (step object) (fun c _ => Undisturbed h c) c₁ es) :
    OnSentFollows h c := by
  have ht : c₁.state.Tended := tended_step (tended_of_run hr₀) hstep
  have hawaits := awaits_of_shortWrite ht hshort hstep hopen.start hsole
  -- every step leads from an open socket to an open socket
  have hinv : c.state.Tended ∧ c.state.OpenAt h ∧ c.state.Awaits h := by
    refine Runs.run_invariant_along
      (I := fun c => c.state.Tended ∧ c.state.OpenAt h ∧ c.state.Awaits h)
      (fun c e c' hI hp hstep => ?_) ⟨ht, hopen.start, hawaits⟩ (hopen.along.and hsince) hr
    obtain ⟨ht, hopen, hawaits⟩ := hI
    obtain ⟨hafter, hundisturbed⟩ := hp
    have hopen' : c'.state.OpenAt h := hafter c' hstep
    refine ⟨tended_step ht hstep, hopen', ?_⟩
    rcases (Step.of_step hstep).stretch with ⟨o, -, -, rfl⟩ |
      ⟨f, rest, a, out, kept, hstack, -, hres, hstate, -⟩ | ⟨-, hstate, -⟩
    · exact hawaits
    · simp only [Undisturbed, hstack] at hundisturbed
      rw [hstate] at hopen' ⊢
      exact hawaits.stretch ht hopen hopen' hundisturbed (stretch_of_resume hres)
    · rw [hstate]
      exact hawaits
  exact on_sent_of_awaits hinv.2.2

end

/-- A socket connects and, in `on_connected`, is about to write three bytes. -/
def aboutToWrite : List (Event Op Answer) :=
  [.call (.socket 2 1 0 ⟨true, true, true, true, false, true⟩), .code (.opened (.fd 3)),
    .call (.connect 0), .code (.call none (some EINPROGRESS)),
    .call .waitForInput, .code .go,
    .code (.ready [some (3, ⟨false, true⟩)]), .code (.wake none 0),
    .call (.write 0 [1, 2, 3])]

/-- The write returns, the socket receives something, and an `EPOLLOUT` event comes. -/
def untilReady : List (Event Op Answer) :=
  [.code .go, .back, .code .go, .code .go,
    .code (.ready [some (3, ⟨true, false⟩)]), .code .go, .code (.recv (.received [7])), .back,
    .code .go, .code (.ready [some (3, ⟨false, true⟩)])]

/-- Two of the three bytes are taken. -/
theorem on_sent_follows_received :
    ∃ c₀ c₁ c, Runs.run (step object) (Config.start World.new) aboutToWrite = some c₀ ∧
      step object c₀ (.code (.sends [.sent 2, .failed EAGAIN none])) = some c₁ ∧
      Runs.run (step object) c₁ untilReady = some c ∧
      c.stack = [.code (.batch [.socket 0 ⟨false, true⟩])] ∧ OnSentFollows 0 c := by
  obtain ⟨c₀, hr₀, hshort, c₁, hstep, hsole, hopen, hsince, c, hr, hstack⟩ :
      ∃ c₀, Runs.run (step object) (Config.start World.new) aboutToWrite = some c₀ ∧
        ShortWrite 0 c₀ (.code (.sends [.sent 2, .failed EAGAIN none])) ∧
        ∃ c₁ ∈ step object c₀ (.code (.sends [.sent 2, .failed EAGAIN none])),
          c₁.state.Sole 0 ∧
          Runs.Throughout (step object) (fun c => c.state.OpenAt 0) c₁ untilReady ∧
          Runs.Along (step object) (fun c _ => Undisturbed 0 c) c₁ untilReady ∧
          ∃ c ∈ Runs.run (step object) c₁ untilReady,
            c.stack = [.code (.batch [.socket 0 ⟨false, true⟩])] :=
    Runs.exists_run (by decide)
  exact ⟨c₀, c₁, c, hr₀, hstep, hr, hstack,
    on_sent_follows hr₀ hshort hstep hsole hr hopen hsince⟩

end Linux
end AcppNetwork
