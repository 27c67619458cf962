import AcppNetwork.CloseInCallback

/-!
# One connection for an event

The read filters of the macOS backend are registered with `EV_CLEAR`: when `kevent` has
retrieved an event, the filter is active again only after new activity.  For a socket
that listens the loop calls `accept` once for an event, so two connections that arrive
before their event is retrieved are one event, and one of them waits until some later
connection makes the filter active (`backlog_left`).  The branch that receives calls
`recv` until it fails, and on Linux the descriptors are reported as long as they are
ready.

Between these the backlog is accounted for: there are no more connections waiting than
events of the socket, retrieved and not handled yet or still to be retrieved (`Covered`).
This is kept as long as each connection has an event of its own, `accept` does its part,
and no event is lost to an exception (`OneEach`, `LosesNone`); then nothing waits when the
loop blocks (`backlog_empty`).
-/
namespace AcppNetwork
namespace Macos

open Reentrant
open Linux (Callbacks Callback Send Recv Opened Result CallOut)

/-! ## Events under way -/

namespace Frame

/-- The events an activation is still to handle. -/
def events : Frame → List Ready
  | .batch events => events
  | .receive _ rest | .afterConnected _ rest | .newSocket _ rest => rest
  | _ => []

/-- Those after the one it is at, which an exception loses. -/
def left : Frame → List Ready
  | .batch events => events.tail
  | f => f.events

end Frame

/-- How many events of the socket at `h` are retrieved and not handled. -/
def unhandled (fs : List Frame) (h : Nat) : Nat :=
  (fs.flatMap Frame.events).count (.socket .read h)

@[simp] theorem unhandled_nil (h : Nat) : unhandled [] h = 0 := rfl

theorem unhandled_cons (f : Frame) (fs : List Frame) (h : Nat) :
    unhandled (f :: fs) h = f.events.count (.socket .read h) + unhandled fs h := by
  unfold unhandled
  rw [List.flatMap_cons, List.count_append]

theorem unhandled_append (fs gs : List Frame) (h : Nat) :
    unhandled (fs ++ gs) h = unhandled fs h + unhandled gs h := by
  unfold unhandled
  rw [List.flatMap_append, List.count_append]

/-! ## The accounts -/

/-- The descriptors of the pimpls, and which of them listen. -/
def World.sockets (w : World) : Nat → Option (Int × Bool) :=
  Option.map (fun p => (p.fd, p.listening)) ∘ w.pimpls

/-- `u h` being the number of events of the socket at `h` that are retrieved and not
handled: every descriptor that a socket has is open, listens if the socket does, and its
read filter is registered for this socket; and there are no more connections waiting than
events of the socket. -/
structure Covered (k : Kernel) (sockets : Nat → Option (Int × Bool)) (fresh : Nat) (u : Nat → Nat) :
    Prop where
  sane : k.isOpen SocketBasePimpl.invalidFd = false
  notOpen : ∀ {fd}, k.isOpen fd = false → k.listens fd = false ∧ k.reads fd = none
  notListening : ∀ {fd}, k.listens fd = false → k.backlog fd = 0
  fresh : ∀ {h x}, sockets h = some x → h < fresh
  own : ∀ {h fd l}, sockets h = some (fd, l) → fd ≠ SocketBasePimpl.invalidFd →
    k.isOpen fd = true ∧ k.listens fd = l ∧ ∃ b, k.reads fd = some ⟨h, b⟩ ∧
      (l = true → k.backlog fd ≤ u h + if b then 1 else 0)

namespace Covered
variable {k k' : Kernel} {sockets sockets' : Nat → Option (Int × Bool)} {fresh h : Nat}
  {u u' : Nat → Nat} {fd : Int} {l : Bool}

/-- The filter of a descriptor knows its socket, so no two sockets have the same one. -/
theorem unique (hf : Covered k sockets fresh u) {h' : Nat} {l' : Bool}
    (hs : sockets h = some (fd, l)) (hs' : sockets h' = some (fd, l'))
    (hfd : fd ≠ SocketBasePimpl.invalidFd) : h' = h := by
  obtain ⟨-, -, b, hreads, -⟩ := hf.own hs hfd
  obtain ⟨-, -, b', hreads', -⟩ := hf.own hs' hfd
  have heq := Option.some.inj (hreads'.symm.trans hreads)
  exact congrArg Knote.udata heq

/-- What is written changes nothing here. -/
theorem sameReads (hf : Covered k sockets fresh u) (hk : k.SameReads k') :
    Covered k' sockets fresh u := by
  constructor
  · rw [hk.isOpen]
    exact hf.sane
  · rw [hk.isOpen, hk.listens, hk.reads]
    exact hf.notOpen
  · rw [hk.listens, hk.backlog]
    exact hf.notListening
  · exact hf.fresh
  · rw [hk.isOpen, hk.listens, hk.reads, hk.backlog]
    exact hf.own

/-- Only the events of the sockets that listen count. -/
theorem weaken (hf : Covered k sockets fresh u)
    (hle : ∀ {h fd}, sockets h = some (fd, true) → fd ≠ SocketBasePimpl.invalidFd → u h ≤ u' h) :
    Covered k sockets fresh u' := by
  refine ⟨hf.sane, hf.notOpen, hf.notListening, hf.fresh, fun {h fd l} hs hfd => ?_⟩
  obtain ⟨hopen, hlistens, b, hreads, hbacklog⟩ := hf.own hs hfd
  refine ⟨hopen, hlistens, b, hreads, fun hl => ?_⟩
  subst hl
  have := hle hs hfd
  have := hbacklog rfl
  omega

/-- Sockets may go, and numbers be used up. -/
theorem sub (hf : Covered k sockets fresh u)
    (hsub : ∀ {h x}, sockets' h = some x → sockets h = some x)
    {fresh' : Nat} (hle : fresh ≤ fresh') : Covered k sockets' fresh' u :=
  ⟨hf.sane, hf.notOpen, hf.notListening, fun hs => Nat.lt_of_lt_of_le (hf.fresh (hsub hs)) hle,
    fun hs => hf.own (hsub hs)⟩

/-- A descriptor is opened. -/
theorem openFd (hf : Covered k sockets fresh u) (n : Nat) :
    Covered { k with isOpen := Function.update k.isOpen n true } sockets fresh u := by
  refine ⟨?_, fun {fd} hclosed => ?_, hf.notListening, hf.fresh, fun {h fd l} hs hfd => ?_⟩
  · show Function.update k.isOpen (n : Int) true SocketBasePimpl.invalidFd = false
    rw [Function.update_of_ne (Linux.World.ne_invalidFd n).symm]
    exact hf.sane
  · have hne : fd ≠ n := by
      rintro rfl
      exact absurd hclosed (by simp)
    exact hf.notOpen ((Function.update_of_ne hne ..).symm.trans hclosed)
  · obtain ⟨hopen, hrest⟩ := hf.own hs hfd
    refine ⟨?_, hrest⟩
    show Function.update k.isOpen (n : Int) true fd = true
    by_cases hne : fd = n
    · rw [hne, Function.update_self]
    · rw [Function.update_of_ne hne]
      exact hopen

/-- A socket is made for an open descriptor that nobody has and that does not listen. -/
theorem add (hf : Covered k sockets fresh u) (hopen : k.isOpen fd = true)
    (hlistens : k.listens fd = false) (hfree : ∀ h l, sockets h ≠ some (fd, l)) :
    Covered (k.addRead fd fresh) (Function.update sockets fresh (some (fd, false))) (fresh + 1)
      u := by
  refine ⟨hf.sane, fun {x} hclosed => ?_, hf.notListening, fun {h x} hs => ?_,
    fun {h x l} hs hx => ?_⟩
  · obtain ⟨hl, hreads⟩ := hf.notOpen hclosed
    refine ⟨hl, ?_⟩
    have hne : x ≠ fd := by
      rintro rfl
      exact absurd hclosed
        (by rw [show (k.addRead x fresh).isOpen = k.isOpen from rfl, hopen]; simp)
    exact (Function.update_of_ne hne ..).trans hreads
  · by_cases hh : h = fresh
    · omega
    · rw [Function.update_of_ne hh] at hs
      exact Nat.lt_succ_of_lt (hf.fresh hs)
  · by_cases hh : h = fresh
    · rw [hh, Function.update_self, Option.some.injEq, Prod.mk.injEq] at hs
      obtain ⟨rfl, rfl⟩ := hs
      exact ⟨hopen, hlistens, _, by rw [hh]; exact Function.update_self .., fun h => nomatch h⟩
    · rw [Function.update_of_ne hh] at hs
      have hne : x ≠ fd := by
        rintro rfl
        exact hfree h l hs
      obtain ⟨hopen', hlistens', b, hreads, hbacklog⟩ := hf.own hs hx
      exact ⟨hopen', hlistens', b, (Function.update_of_ne hne ..).trans hreads, hbacklog⟩

/-- A socket asks again for its own filter, which stays as it is. -/
theorem addRead (hf : Covered k sockets fresh u) (hs : sockets h = some (fd, l))
    (hopen : k.isOpen fd = true) : k.SameReads (k.addRead fd h) := by
  have hfd : fd ≠ SocketBasePimpl.invalidFd := by
    rintro rfl
    exact absurd hopen (by rw [hf.sane]; exact Bool.false_ne_true)
  obtain ⟨-, -, b, hreads, -⟩ := hf.own hs hfd
  refine ⟨rfl, rfl, rfl, ?_⟩
  show Function.update k.reads fd _ = k.reads
  rw [hreads]
  dsimp only
  rw [← hreads, Function.update_eq_self]

/-- A socket begins to listen: nothing waits yet. -/
theorem listen (hf : Covered k sockets fresh u) (hs : sockets h = some (fd, l))
    (hopen : k.isOpen fd = true) :
    Covered { k with listens := Function.update k.listens fd true }
      (Function.update sockets h (some (fd, true))) fresh u := by
  have hfd : fd ≠ SocketBasePimpl.invalidFd := by
    rintro rfl
    exact absurd hopen (by rw [hf.sane]; exact Bool.false_ne_true)
  refine ⟨hf.sane, fun {x} hclosed => ?_, fun {x} hl => ?_, fun {h' x} hs' => ?_,
    fun {h' x l'} hs' hx => ?_⟩
  · have hne : x ≠ fd := by
      rintro rfl
      exact absurd (hopen.symm.trans hclosed) (by simp)
    obtain ⟨hl, hreads⟩ := hf.notOpen hclosed
    exact ⟨(Function.update_of_ne hne ..).trans hl, hreads⟩
  · have hne : x ≠ fd := by
      rintro rfl
      exact absurd hl (by simp)
    exact hf.notListening ((Function.update_of_ne hne ..).symm.trans hl)
  · by_cases hh : h' = h
    · rw [hh]
      exact hf.fresh hs
    · rw [Function.update_of_ne hh] at hs'
      exact hf.fresh hs'
  · by_cases hh : h' = h
    · rw [hh, Function.update_self, Option.some.injEq, Prod.mk.injEq] at hs'
      obtain ⟨rfl, rfl⟩ := hs'
      obtain ⟨-, hlistens, b, hreads, hbacklog⟩ := hf.own hs hfd
      refine ⟨hopen, Function.update_self .., b, by rw [hh]; exact hreads, fun _ => ?_⟩
      rw [hh]
      cases l with
      | true => exact hbacklog rfl
      | false =>
        show k.backlog fd ≤ _
        rw [hf.notListening hlistens]
        exact Nat.zero_le _
    · rw [Function.update_of_ne hh] at hs'
      have hne : x ≠ fd := by
        rintro rfl
        exact hh (hf.unique hs hs' hx)
      obtain ⟨hopen', hlistens', hrest⟩ := hf.own hs' hx
      exact ⟨hopen', (Function.update_of_ne hne ..).trans hlistens', hrest⟩

/-- A socket closes its descriptor. -/
theorem close (hf : Covered k sockets fresh u) (hs : sockets h = some (fd, l))
    (hfd : fd ≠ SocketBasePimpl.invalidFd) :
    Covered (k.close fd) (Function.update sockets h (some (SocketBasePimpl.invalidFd, l))) fresh
      u := by
  refine ⟨Kernel.close_isOpen hf.sane, fun {x} hclosed => ?_, fun {x} hl => ?_,
    fun {h' x} hs' => ?_, fun {h' x l'} hs' hx => ?_⟩
  · by_cases hxfd : x = fd
    · rw [hxfd]
      exact ⟨Function.update_self .., Function.update_self ..⟩
    · obtain ⟨hl, hreads⟩ := hf.notOpen ((Function.update_of_ne hxfd ..).symm.trans hclosed)
      exact ⟨(Function.update_of_ne hxfd ..).trans hl, (Function.update_of_ne hxfd ..).trans hreads⟩
  · by_cases hxfd : x = fd
    · rw [hxfd]
      exact Function.update_self ..
    · exact (Function.update_of_ne hxfd ..).trans
        (hf.notListening ((Function.update_of_ne hxfd ..).symm.trans hl))
  · by_cases hh : h' = h
    · rw [hh]
      exact hf.fresh hs
    · rw [Function.update_of_ne hh] at hs'
      exact hf.fresh hs'
  · by_cases hh : h' = h
    · rw [hh, Function.update_self, Option.some.injEq, Prod.mk.injEq] at hs'
      exact absurd hs'.1.symm hx
    · rw [Function.update_of_ne hh] at hs'
      have hne : x ≠ fd := by
        rintro rfl
        exact hh (hf.unique hs hs' hfd)
      obtain ⟨hopen, hlistens, b, hreads, hbacklog⟩ := hf.own hs' hx
      refine ⟨(Function.update_of_ne hne ..).trans hopen,
        (Function.update_of_ne hne ..).trans hlistens,
        b, (Function.update_of_ne hne ..).trans hreads, fun hl => ?_⟩
      show Function.update k.backlog fd 0 x ≤ _
      rw [Function.update_of_ne hne]
      exact hbacklog hl

/-- The backlog of one descriptor changes, or its read filter. -/
theorem update (hf : Covered k sockets fresh u) (fd : Int) (n : Nat) (filter : Option Knote)
    (u' : Nat → Nat)
    (hnone : k.reads fd = none → filter = none) (hquiet : k.listens fd = false → n = 0)
    (hu : ∀ {h x}, sockets h = some (x, true) → x ≠ SocketBasePimpl.invalidFd → x ≠ fd → u h ≤ u' h)
    (hown : ∀ {h l}, sockets h = some (fd, l) → fd ≠ SocketBasePimpl.invalidFd →
      ∃ b, filter = some ⟨h, b⟩ ∧ (l = true → n ≤ u' h + if b then 1 else 0)) :
    Covered { k with
        backlog := Function.update k.backlog fd n
        reads := Function.update k.reads fd filter } sockets fresh u' := by
  refine ⟨hf.sane, fun {x} hclosed => ?_, fun {x} hl => ?_, hf.fresh, fun {h x l} hs hx => ?_⟩
  · obtain ⟨hl, hreads⟩ := hf.notOpen hclosed
    refine ⟨hl, ?_⟩
    show Function.update k.reads fd filter x = none
    by_cases hxfd : x = fd
    · subst hxfd
      rw [Function.update_self]
      exact hnone hreads
    · rw [Function.update_of_ne hxfd]
      exact hreads
  · show Function.update k.backlog fd n x = 0
    by_cases hxfd : x = fd
    · subst hxfd
      rw [Function.update_self]
      exact hquiet hl
    · rw [Function.update_of_ne hxfd]
      exact hf.notListening hl
  · obtain ⟨hopen, hlistens, b, hreads, hbacklog⟩ := hf.own hs hx
    show k.isOpen x = true ∧ k.listens x = l ∧
      ∃ b, Function.update k.reads fd filter x = some ⟨h, b⟩ ∧
        (l = true → Function.update k.backlog fd n x ≤ u' h + if b then 1 else 0)
    by_cases hxfd : x = fd
    · subst hxfd
      rw [Function.update_self, Function.update_self]
      exact ⟨hopen, hlistens, hown hs hx⟩
    · rw [Function.update_of_ne hxfd, Function.update_of_ne hxfd]
      refine ⟨hopen, hlistens, b, hreads, fun hl => ?_⟩
      subst hl
      have := hu hs hx hxfd
      have := hbacklog rfl
      omega

/-- A connection arrives when those that wait have events of their own. -/
theorem connects (hf : Covered k sockets fresh u) (hlistens : k.listens fd = true)
    (hnew : ∀ filter, k.reads fd = some filter → k.backlog fd ≤ u filter.udata) :
    Covered ((k.setBacklog fd (k.backlog fd + 1)).activate fd .read) sockets fresh u := by
  refine hf.update fd _ _ u (fun hreads => ?_) (fun hl => ?_) (fun _ _ _ => Nat.le_refl _)
    fun {h l} hs hx => ?_
  · show (k.reads fd).map _ = none
    rw [hreads]
    rfl
  · rw [hlistens] at hl
    cases hl
  · obtain ⟨-, -, b, hreads, -⟩ := hf.own hs hx
    have hle : k.backlog fd ≤ u h := hnew _ hreads
    refine ⟨true, ?_, fun _ => ?_⟩
    · show (k.reads fd).map _ = _
      rw [hreads]
      rfl
    · rw [if_pos rfl]
      omega

/-- A filter becomes active that is not about connections. -/
theorem activates (hf : Covered k sockets fresh u) (hlistens : k.listens fd = false) :
    Covered (k.activate fd .read) sockets fresh u := by
  have hupdate := hf.update fd (k.backlog fd) ((k.reads fd).map fun f => ⟨f.udata, true⟩) u
    (fun hreads => by rw [hreads]; rfl) hf.notListening (fun _ _ _ => Nat.le_refl _)
    fun {h l} hs hx => by
      obtain ⟨-, hl, b, hreads, -⟩ := hf.own hs hx
      refine ⟨true, by rw [hreads]; rfl, fun hl' => ?_⟩
      rw [hlistens, hl'] at hl
      cases hl
  rw [Function.update_eq_self] at hupdate
  exact hupdate

/-- An event is retrieved. -/
theorem retrieve (hf : Covered k sockets fresh u) {event : Option (Filter × Int)} {ready : Ready}
    (h : k.retrieve event = some (k', ready)) :
    Covered k' sockets fresh fun x => u x + [ready].count (.socket .read x) := by
  have hle : ∀ {x}, u x ≤ u x + [ready].count (.socket .read x) := Nat.le_add_right _ _
  unfold Kernel.retrieve at h
  split at h
  · rename_i fd
    split at h <;> cases h
    rename_i x hreads
    have hupdate := hf.update fd (k.backlog fd) (some ⟨x, false⟩)
      (fun y => u y + [Ready.socket .read x].count (.socket .read y))
      (fun hnone => nomatch hnone.symm.trans hreads)
      hf.notListening (fun _ _ _ => hle) fun {y l} hs hx => by
        obtain ⟨-, -, b, hreads', hbacklog⟩ := hf.own hs hx
        obtain ⟨rfl, rfl⟩ := Knote.mk.inj (Option.some.inj (hreads'.symm.trans hreads))
        refine ⟨false, rfl, fun hl => ?_⟩
        have := hbacklog hl
        simpa using this
    rw [Function.update_eq_self] at hupdate
    exact hupdate
  · split at h <;> cases h
    exact Covered.weaken (hf.sameReads (Kernel.SameReads.mk rfl rfl rfl rfl)) fun _ _ => hle
  · cases h
    exact hf.weaken fun _ _ => hle

theorem retrieveAll (hf : Covered k sockets fresh u) {events : List (Option (Filter × Int))}
    {ready : List Ready} (h : k.retrieveAll events = some (k', ready)) :
    Covered k' sockets fresh fun x => u x + ready.count (.socket .read x) := by
  induction events generalizing k ready u with
  | nil =>
    cases h
    exact hf
  | cons event events ih =>
    obtain ⟨⟨k₁, r⟩, hfirst, hrest⟩ := Option.bind_eq_some_iff.mp h
    obtain ⟨⟨k₂, rs⟩, hall, hret⟩ := Option.bind_eq_some_iff.mp hrest
    cases hret
    refine (ih (hf.retrieve hfirst) hall).weaken fun _ _ => Nat.le_of_eq ?_
    simp only [List.count_cons, List.count_nil]
    omega

end Covered

/-! ## What the operations do to the accounts -/

namespace World
variable {w w' : World} {h o : Nat} {p : SocketBasePimpl} {s : Socket} {u u' : Nat → Nat}

/-- The accounts of the context. -/
def Fair (w : World) (u : Nat → Nat) : Prop := Covered w.kernel w.sockets w.fresh u

theorem sockets_of (hp : w.pimpls h = some p) : w.sockets h = some (p.fd, p.listening) := by
  simp [sockets, hp]

theorem sockets_update {q : Option SocketBasePimpl}
    (hpimpls : w'.pimpls = Function.update w.pimpls h q) :
    w'.sockets = Function.update w.sockets h (q.map fun p => (p.fd, p.listening)) := by
  unfold sockets
  rw [hpimpls, Function.comp_update]

/-- A pimpl that changes, but neither its descriptor nor whether it listens. -/
theorem sockets_same {q : SocketBasePimpl} (hp : w.pimpls h = some p)
    (hpimpls : w'.pimpls = Function.update w.pimpls h (some q)) (hfd : q.fd = p.fd)
    (hlistening : q.listening = p.listening) : w'.sockets = w.sockets := by
  rw [sockets_update hpimpls, Option.map_some, hfd, hlistening, ← sockets_of hp,
    Function.update_eq_self]

theorem Fair.same (hf : w.Fair u) (hk : w.kernel.SameReads w'.kernel)
    (hsockets : w'.sockets = w.sockets) (hfresh : w.fresh ≤ w'.fresh) : w'.Fair u := by
  unfold Fair
  rw [hsockets]
  exact (hf.sameReads hk).sub id hfresh

theorem Fair.put (hf : w.Fair u) (hp : w.pimpls s.this = some p)
    (hk : w.kernel.SameReads s.kernel) (hfd : s.pimpl.fd = p.fd)
    (hlistening : s.pimpl.listening = p.listening) : (w.put s).Fair u :=
  hf.same hk (sockets_same hp rfl hfd hlistening) (Nat.le_refl _)

/-- What writes keeps them. -/
theorem Fair.writes (hf : w.Fair u) {s' : Socket} (hs : w.owned o = some s) (hw : s.Writes s') :
    (w.put s').Fair u := by
  obtain ⟨p, -, hp, hsocket⟩ := owned_iff.mp hs
  have hk := hw.kernel
  have hpimpl := hw.pimpl
  rw [hsocket] at hk hpimpl
  exact hf.put (hw.this ▸ hp) hk (congrArg SocketBasePimpl.fd hpimpl)
    (congrArg SocketBasePimpl.listening hpimpl)

theorem Fair.openFd (hf : w.Fair u) (n : Nat) : (w.openFd n).Fair u := Covered.openFd hf n

theorem Fair.setErrno (hf : w.Fair u) (e : Nat) : (w.setErrno e).Fair u :=
  hf.same ⟨rfl, rfl, rfl, rfl⟩ rfl (Nat.le_refl _)

/-- A constructor is given an open descriptor that does not listen and that no socket of the
context has, or throws. -/
theorem Fair.construct (hf : w.Fair u) {fd : Int} (hfree : w.kernel.isOpen fd = true →
      w.kernel.listens fd = false ∧ ∀ h l, w.sockets h ≠ some (fd, l))
    (domain type protocol : Int) (callbacks : Callbacks) (refused : Option Nat) :
    (w.construct domain type protocol fd callbacks refused).1.Fair u := by
  obtain ⟨e, heq⟩ | ⟨hopen, heq⟩ := construct_cases w domain type protocol fd callbacks refused
  · rw [heq]
    exact (hf.setErrno e).same (.refl _) rfl (Nat.le_succ _)
  · obtain ⟨hlistens, hnobody⟩ := hfree hopen
    rw [heq]
    unfold Fair
    rw [sockets_update (w := w) rfl]
    exact Covered.add hf hopen hlistens hnobody

/-- A descriptor that was just opened is one that nobody has. -/
theorem Fair.constructNew (hf : w.Fair u) {n : Nat} (hclosed : w.kernel.isOpen n = false)
    (domain type protocol : Int) (callbacks : Callbacks) (refused : Option Nat) :
    ((w.openFd n).construct domain type protocol n callbacks refused).1.Fair u := by
  refine (hf.openFd n).construct (fun _ => ⟨(Covered.notOpen hf hclosed).1, fun h l hs => ?_⟩) ..
  obtain ⟨hopen, -⟩ := Covered.own hf hs (Linux.World.ne_invalidFd n)
  rw [hclosed] at hopen
  cases hopen

theorem Fair.closeAt (hf : w.Fair u) (h : Nat) : (w.closeAt h).Fair u := by
  obtain ⟨heq, -⟩ | ⟨p, hp, hvalid, heq⟩ := closeAt_cases w h
  · rw [heq]
    exact hf
  · have hfd : p.fd ≠ SocketBasePimpl.invalidFd := by simpa [SocketBasePimpl.valid] using hvalid
    rw [heq]
    unfold Fair
    rw [sockets_update (w := w) rfl]
    exact Covered.close hf (sockets_of hp) hfd

theorem Fair.delete (hf : w.Fair u) (h : Nat) : (w.delete h).Fair u := by
  refine Covered.sub hf (fun {x y} hx => ?_) (Nat.le_refl _)
  have hsockets : (w.delete h).sockets = Function.update w.sockets h none :=
    sockets_update (q := none) rfl
  rw [hsockets] at hx
  by_cases hxh : x = h
  · rw [hxh, Function.update_self] at hx
    cases hx
  · rw [Function.update_of_ne hxh] at hx
    exact hx

theorem Fair.destruct (hf : w.Fair u) (h : w.destruct o = some w') : w'.Fair u := by
  obtain ⟨pimpl, -, rfl⟩ := Option.map_eq_some_iff.mp h
  cases pimpl with
  | none => exact hf
  | some x => exact (hf.closeAt x).delete x

theorem Fair.own (hf : w.Fair u) (hown : w.own o h = some w') : w'.Fair u := by
  obtain ⟨p, hp, rfl⟩ := own_some hown
  exact hf.same (.refl _) (sockets_same hp rfl rfl rfl) (Nat.le_refl _)

theorem Fair.assign (hf : w.Fair u) {other : Nat} (h : w.assign o other = some w') : w'.Fair u := by
  obtain ⟨s, pimpl, -, -, hown⟩ := assign_some h
  refine Fair.own ?_ hown
  cases pimpl with
  | none => exact hf
  | some x => exact Fair.delete (w := w.release other) hf x

/-- A socket asks for its own filter: it is registered already, or the call fails. -/
theorem Fair.askReadEvent (hf : w.Fair u) (hp : w.pimpls h = some p) {refused : Option Nat}
    {asked : Bool} (hask : Socket.askReadEvent ⟨h, w.kernel, p⟩ refused = (s, asked)) :
    w.kernel.SameReads s.kernel ∧ s.this = h ∧ s.pimpl = p ∧
      (asked = true → w.kernel.isOpen p.fd = true) := by
  obtain ⟨e, heq⟩ | ⟨hopen, heq⟩ := Socket.askReadEvent_cases ⟨h, w.kernel, p⟩ refused
  · cases heq.symm.trans hask
    exact ⟨⟨rfl, rfl, rfl, rfl⟩, rfl, rfl, fun h => nomatch h⟩
  · cases heq.symm.trans hask
    exact ⟨Covered.addRead hf (sockets_of hp) hopen, rfl, rfl, fun _ => hopen⟩

theorem Fair.asked (hf : w.Fair u) (hp : w.pimpls h = some p) {refused : Option Nat}
    {asked : Bool} (hask : Socket.askReadEvent ⟨h, w.kernel, p⟩ refused = (s, asked)) :
    (w.put s).Fair u := by
  obtain ⟨hk, hthis, hpimpl, -⟩ := hf.askReadEvent hp hask
  exact hf.put (hthis ▸ hp) hk (congrArg _ hpimpl) (congrArg _ hpimpl)

theorem Fair.connect (hf : w.Fair u) (hs : w.owned o = some s) (refused error : Option Nat) :
    (w.connect s refused error).state.Fair u := by
  have hask := Socket.writes_askWriteEvent s refused
  unfold World.connect
  split
  · rename_i s' hasked
    rw [hasked] at hask
    exact hf.writes hs (hask.trans (Socket.writes_connect s' error))
  · rename_i s' hasked
    rw [hasked] at hask
    exact hf.writes hs hask

theorem Fair.write (hf : w.Fair u) (hs : w.owned o = some s) {buffer : List Byte}
    {as : List Send} {written : Socket.Written} (hwrite : s.soWrite buffer as = some written) :
    (w.write written).state.Fair u := by
  have hput := hf.writes hs (Socket.writes_soWrite hwrite)
  unfold World.write
  split
  · rw [callThen_state]
    exact hput
  · exact hput

/-- `listen`: a socket begins to listen, or a call fails. -/
theorem Fair.listen (hf : w.Fair u) (hs : w.owned o = some s) (refused error : Option Nat) :
    (w.listen s refused error).state.Fair u := by
  obtain ⟨p, -, hp, hsocket⟩ := owned_iff.mp hs
  unfold World.listen
  split
  · rename_i s' hasked
    rw [hsocket] at hasked
    obtain ⟨hk, hthis, hpimpl, hopen⟩ := hf.askReadEvent hp hasked
    have hput : (w.put s').Fair u := hf.asked hp hasked
    unfold Socket.listen
    split
    · -- the accounts of the kernel after `ask_read_event`
      have hcovered : Covered s'.kernel w.sockets w.fresh u := Covered.sameReads hf hk
      have hlisten := hcovered.listen (sockets_of hp) (hk.isOpen.symm ▸ hopen rfl)
      unfold Fair
      rw [sockets_update (w := w) rfl]
      rw [Option.map_some, hthis, hpimpl]
      exact hlisten
    · rename_i e herror
      exact hput.setErrno e
  · rename_i s' hasked
    rw [hsocket] at hasked
    exact hf.asked hp hasked

/-- `accept` leaves no connection that had this event: it takes it, finds none, or the
descriptor is closed. -/
def Took : Opened → Prop
  | .fd _ => True
  | .failed e => e = EAGAIN ∨ e = ECONNABORTED ∨ e = EBADF

instance (a : Opened) : Decidable (Took a) := by
  rcases a with n | e <;> unfold Took <;> infer_instance

/-- **One event is handled, and one connection taken.** -/
theorem Fair.taken (hf : w.Fair u) (hp : w.pimpls h = some p) (hlistening : p.listening = true)
    {a : Opened} (ha : Socket.Accepts ⟨h, w.kernel, p⟩ a) (htook : Took a)
    (hother : ∀ {x fd}, w.sockets x = some (fd, true) → fd ≠ SocketBasePimpl.invalidFd → x ≠ h →
      u x ≤ u' x)
    (hself : p.fd ≠ SocketBasePimpl.invalidFd → u h ≤ u' h + 1) :
    (w.put (Socket.taken ⟨h, w.kernel, p⟩ a)).Fair u' := by
  have hsocket : w.sockets h = some (p.fd, true) := hlistening ▸ sockets_of hp
  have hother' : ∀ {x fd}, w.sockets x = some (fd, true) → fd ≠ SocketBasePimpl.invalidFd →
      fd ≠ p.fd → u x ≤ u' x := by
    intro x fd hx hvalid hfd
    refine hother hx hvalid ?_
    rintro rfl
    exact hfd (congrArg Prod.fst (Option.some.inj (hx.symm.trans hsocket)))
  -- the backlog when the event has done its part
  have update : ∀ n, (n = w.kernel.backlog p.fd - 1 ∨ n = 0) →
      Covered (w.kernel.setBacklog p.fd n) w.sockets w.fresh u' := by
    intro n hn
    have hupdate := Covered.update hf p.fd n (w.kernel.reads p.fd) u' id (fun hl => ?_) hother'
      fun {x l} hx hfd => ?_
    · rw [Function.update_eq_self] at hupdate
      exact hupdate
    · have := Covered.notListening hf hl
      omega
    · obtain ⟨-, -, b, hreads, hbacklog⟩ := Covered.own hf hx hfd
      obtain rfl := Covered.unique hf hsocket hx hfd
      refine ⟨b, hreads, fun hl => ?_⟩
      have := hbacklog hl
      have := hself hfd
      omega
  have same : (w.kernel.backlog p.fd = 0 ∨ p.fd = SocketBasePimpl.invalidFd) →
      Covered w.kernel w.sockets w.fresh u' := by
    rintro (hzero | hfd)
    · have hupdate := update 0 (.inr rfl)
      unfold Kernel.setBacklog at hupdate
      rw [← hzero, Function.update_eq_self] at hupdate
      exact hupdate
    · exact Covered.weaken hf fun hx hvalid => hother' hx hvalid (hfd ▸ hvalid)
  have hput : ∀ {k}, Covered k w.sockets w.fresh u' → (w.put ⟨h, k, p⟩).Fair u' := by
    intro k hk
    unfold Fair
    have hsockets : (w.put ⟨h, k, p⟩).sockets = w.sockets := sockets_same hp rfl rfl rfl
    rw [hsockets]
    exact hk
  cases a with
  | fd n => exact hput (update _ (.inl rfl))
  | failed e =>
    unfold Socket.taken
    dsimp only
    split
    · exact hput (update _ (.inl rfl))
    · rename_i hnot
      refine hput (same ?_)
      by_cases hfd : p.fd = SocketBasePimpl.invalidFd
      · exact .inr hfd
      · left
        obtain ⟨hopen, hlistens, -⟩ := Covered.own hf hsocket hfd
        refine (ha.2 hlistens).mpr ?_
        refine htook.resolve_right fun hrest => ?_
        have hclosed := ha.1.mpr (hrest.resolve_left hnot)
        exact absurd (hopen.symm.trans hclosed) (by simp)

/-- The new socket of a connection. -/
theorem Fair.accepted (hf : w.Fair u) {n : Nat} (hclosed : w.kernel.isOpen n = false) (s : Socket)
    (rest : List Ready) (refused again : Option Nat) :
    ((w.openFd n).accepted s rest refused again n).state.Fair u := by
  have hnew := hf.constructNew hclosed s.pimpl.domain s.pimpl.type s.pimpl.protocol noCallbacks
    refused
  have hpimpl := construct_cases (w.openFd n) s.pimpl.domain s.pimpl.type s.pimpl.protocol n
    noCallbacks refused
  unfold World.accepted
  split
  · rename_i w' hmade
    rw [hmade] at hnew hpimpl
    have hp : w'.pimpls w.fresh = some (.new s.pimpl.domain s.pimpl.type s.pimpl.protocol n
        noCallbacks w.fresh) := by
      obtain ⟨e, heq⟩ | ⟨-, heq⟩ := hpimpl
      · cases heq
      · cases heq
        exact Function.update_self ..
    dsimp only
    split
    · rename_i new hasked
      obtain ⟨hk, hthis, heq, -⟩ := hnew.askReadEvent hp hasked
      have hp' : w'.pimpls new.this = some (.new s.pimpl.domain s.pimpl.type s.pimpl.protocol n
          noCallbacks w.fresh) := by
        rw [hthis]
        exact hp
      refine hnew.put (s := { new with pimpl := { new.pimpl with connected := true } }) hp' hk ?_ ?_
      · show new.pimpl.fd = _
        rw [heq]
      · show new.pimpl.listening = _
        rw [heq]
    · rename_i new hasked
      exact ((hnew.asked hp hasked).closeAt w.fresh).delete w.fresh
  · rename_i w' hmade
    rw [hmade] at hnew
    exact hnew

theorem Fair.kevent (hf : w.Fair u) {events : List (Option (Filter × Int))} {ready : List Ready}
    (h : w.kevent events = some (w', ready)) :
    w'.Fair fun x => u x + ready.count (.socket .read x) := by
  unfold World.kevent at h
  split at h
  · obtain ⟨⟨k, r⟩, hall, hret⟩ := Option.map_eq_some_iff.mp h
    cases hret
    exact Covered.retrieveAll hf hall
  · cases h

/-! ## One event for each connection -/

/-- Every connection that waits has an event that is retrieved and not handled. -/
def Room (w : World) (fs : List Frame) (fd : Int) : Prop :=
  ∀ filter ∈ w.kernel.reads fd, w.kernel.backlog fd ≤ unhandled fs filter.udata

/-- A descriptor that is adopted does not listen, and no socket of the context has it. -/
def Unused (w : World) (fd : Int) : Prop :=
  w.kernel.isOpen fd = true →
    w.kernel.listens fd = false ∧ ∀ h < w.fresh, ∀ p ∈ w.pimpls h, p.fd ≠ fd

/-- A connection arrives when there is room for it, `accept` does its part, and what is
adopted is unused. -/
def OneEach (w : World) (f : Frame) (fs : List Frame) (a : Answer) : Prop :=
  match f, a with
  | _, .elsewhere (.connects fd) => w.Room (f :: fs) fd
  | .api (.elsewhere (.connects fd)), .go => w.Room (f :: fs) fd
  | .api (.api (.adopt _ _ _ fd _)), .ask _ => w.Unused fd
  | _, .accept a _ _ => Took a
  | _, _ => True

instance (w : World) (fs : List Frame) (fd : Int) : Decidable (w.Room fs fd) := by
  unfold Room
  infer_instance

instance (w : World) (fd : Int) : Decidable (w.Unused fd) := by
  unfold Unused
  infer_instance

instance (w : World) (f : Frame) (fs : List Frame) (a : Answer) : Decidable (w.OneEach f fs a) := by
  unfold OneEach
  split <;> infer_instance

theorem Fair.elsewhere (hf : w.Fair u) {e : Elsewhere} (he : w.elsewhere e = some w')
    (hroom : ∀ fd, e = .connects fd → ∀ filter, w.kernel.reads fd = some filter →
      w.kernel.backlog fd ≤ u filter.udata) : w'.Fair u := by
  cases e with
  | connects fd =>
    simp only [World.elsewhere] at he
    split at he
    · rename_i hopen
      cases he
      exact Covered.connects hf hopen.2 (hroom fd rfl)
    · cases he
  | activates filter fd =>
    cases filter with
    | read =>
      simp only [World.elsewhere] at he
      split at he
      · cases he
      · rename_i hlistens
        cases he
        exact Covered.activates hf (Bool.not_eq_true _ ▸ hlistens)
    | write =>
      cases he
      exact hf.same ⟨rfl, rfl, rfl, rfl⟩ rfl (Nat.le_refl _)

theorem Unused.free {fd : Int} (hu : w.Unused fd) (hf : w.Fair u)
    (hopen : w.kernel.isOpen fd = true) :
    w.kernel.listens fd = false ∧ ∀ h l, w.sockets h ≠ some (fd, l) := by
  obtain ⟨hlistens, hnobody⟩ := hu hopen
  refine ⟨hlistens, fun h l hs => ?_⟩
  obtain ⟨p, hp, heq⟩ := Option.map_eq_some_iff.mp hs
  exact hnobody h (Covered.fresh hf hs) p hp (congrArg Prod.fst heq)

/-- A socket of the context waits for this event. -/
def awaits (w : World) : Ready → Bool
  | .socket .read h => (w.pimpls h).any fun p => p.valid && p.listening
  | _ => false

theorem count_lost {l : List Ready} (hlost : ∀ r ∈ l, w.awaits r = false) {fd : Int}
    (hs : w.sockets h = some (fd, true)) (hfd : fd ≠ SocketBasePimpl.invalidFd) :
    l.count (.socket .read h) = 0 := by
  rw [List.count_eq_zero]
  intro hmem
  obtain ⟨p, hp, heq⟩ := Option.map_eq_some_iff.mp hs
  obtain ⟨hpfd, hlistening⟩ := Prod.mk.inj heq
  have hvalid : p.valid = true := by simpa [SocketBasePimpl.valid, hpfd] using hfd
  have hnot := hlost _ hmem
  simp [awaits, hp, hvalid, hlistening] at hnot

/-- The events that a stretch of code leaves, or that its exception loses. -/
def leaves (f : Frame) (out : Next) : List Ready :=
  if out.throws then f.left else out.frames.flatMap Frame.events

theorem leaves_le {f : Frame} {out : Next}
    (hlost : out.throws = true → ∀ r ∈ f.left, w.awaits r = false) {fd : Int}
    (hs : w.sockets h = some (fd, true)) (hfd : fd ≠ SocketBasePimpl.invalidFd) :
    (leaves f out).count (.socket .read h) ≤ unhandled out.frames h := by
  unfold leaves
  split
  · rename_i hthrows
    rw [count_lost (hlost hthrows) hs hfd]
    exact Nat.zero_le _
  · exact Nat.le_refl _

@[simp] theorem reading_events (p : SocketBasePimpl) (h : Nat) (rest : List Ready) :
    (p.reading h rest).events = rest := by
  unfold SocketBasePimpl.reading
  split <;> rfl

@[simp] theorem leaves_callThen (w : World) (f g : Frame) (s : Socket) (cb : Option Callback) :
    leaves f (w.callThen s g cb) = g.events := by
  unfold leaves
  rw [callThen_throws, callThen_frames]
  simp

/-- A turn of the loop over `recv` leaves the events after its own. -/
theorem leaves_received (w : World) (s : Socket) (rest : List Ready) (a : Recv) :
    leaves (.receive h rest) (w.received s rest a) = rest := by
  unfold World.received
  split
  · split
    · exact leaves_callThen ..
    · rfl
  · exact leaves_callThen ..
  · exact leaves_callThen ..

/-- The branch for a socket that listens leaves the events after its own. -/
theorem leaves_acceptBranch (w : World) (s : Socket) (rest : List Ready)
    (refused again : Option Nat) (a : Opened) :
    leaves (.batch (.socket .read h :: rest)) (w.acceptBranch s rest refused again a) = rest := by
  unfold World.acceptBranch
  split
  · exact leaves_callThen ..
  · split
    · unfold World.accepted
      split
      · dsimp only
        split <;> simp [leaves, Outcome.throws, Outcome.frames, Frame.events, Frame.left]
      · rfl
    · simp [leaves, Outcome.throws, Outcome.frames, Frame.events]

theorem Fair.received (hf : w.Fair u) (hp : w.pimpls h = some p) (rest : List Ready) (a : Recv) :
    (w.received ⟨h, w.kernel, p⟩ rest a).state.Fair u := by
  have hput : (w.put ⟨h, w.kernel, p⟩).Fair u := hf.put hp (.refl _) rfl rfl
  unfold World.received
  split
  · split
    · rw [callThen_state]
      exact hput
    · exact hf
  · rw [callThen_state]
    exact hput
  · rw [callThen_state]
    exact hput.setErrno _

/-- The branch for a socket that listens: one connection is taken. -/
theorem Fair.acceptBranch (hf : w.Fair u) (hp : w.pimpls h = some p)
    (hlistening : p.listening = true) {a : Opened} (ha : Socket.Accepts ⟨h, w.kernel, p⟩ a)
    (hopens : w.Opens a) (htook : Took a)
    (hother : ∀ {x fd}, w.sockets x = some (fd, true) → fd ≠ SocketBasePimpl.invalidFd → x ≠ h →
      u x ≤ u' x)
    (hself : p.fd ≠ SocketBasePimpl.invalidFd → u h ≤ u' h + 1) (rest : List Ready)
    (refused again : Option Nat) :
    (w.acceptBranch ⟨h, w.kernel, p⟩ rest refused again a).state.Fair u' := by
  have htaken := hf.taken hp hlistening ha htook hother hself
  cases a with
  | failed e =>
    rw [World.acceptBranch, callThen_state]
    exact htaken.setErrno e
  | fd n =>
    have hclosed : (w.put (Socket.taken ⟨h, w.kernel, p⟩ (.fd n))).kernel.isOpen n = false := hopens
    unfold World.acceptBranch
    dsimp only
    split
    · exact htaken.accepted hclosed ..
    · exact htaken.openFd n

/-- **What a stretch of code does to the accounts**, if it loses no event to an exception. -/
theorem Fair.stretch {f : Frame} {fs : List Frame} {a : Answer} {out : Next}
    (hf : w.Fair (unhandled (f :: fs))) (hone : w.OneEach f fs a)
    (hlost : out.throws = true → ∀ r ∈ f.left, w.awaits r = false) (hs : Stretch w f a out) :
    out = .goto w .undefined [] ∨ out.state.Fair (unhandled (out.frames ++ fs)) := by
  -- where no event of a socket that listens is handled
  have keeps : (∀ {h fd}, w.sockets h = some (fd, true) →
      f.events.count (.socket .read h) ≤ (leaves f out).count (.socket .read h)) →
      w.Fair (unhandled (out.frames ++ fs)) := by
    intro hle
    refine Covered.weaken hf fun {h fd} hs hfd => ?_
    have := hle hs
    have := leaves_le hlost hs hfd
    rw [unhandled_cons, unhandled_append]
    omega
  have zero : ∀ {h : Nat} {l m : List Ready}, m = [] →
      m.count (.socket .read h) ≤ l.count (.socket .read h) := by
    rintro h l m rfl
    exact Nat.zero_le _
  cases hs with
  -- the calls of the program
  | waitForInput | stop =>
    have hkept := keeps fun _ => zero rfl
    exact .inr hkept
  | @socket domain type protocol callbacks a refused hopens =>
    have hkept := keeps fun _ => zero rfl
    rw [constructed_state]
    right
    cases a with
    | fd n => exact hkept.constructNew hopens ..
    | failed e =>
      refine (hkept.setErrno e).construct (fun hopen => ?_) ..
      exact absurd (hopen.symm.trans (Covered.sane (hkept.setErrno e))) (by simp)
  | adopt =>
    have hkept := keeps fun _ => zero rfl
    rw [constructed_state]
    exact .inr (hkept.construct (hone.free hf) ..)
  | @move other s w' hs hown =>
    have hrelease : World.Fair { w.release other with fresh := w.fresh + 1 } _ :=
      (keeps fun _ => zero rfl).same (.refl _) rfl (Nat.le_succ _)
    exact .inr (hrelease.own hown)
  | assign hassign => exact .inr ((keeps fun _ => zero rfl).assign hassign)
  | destroy hdestruct => exact .inr ((keeps fun _ => zero rfl).destruct hdestruct)
  | close hclose =>
    have hkept := keeps fun _ => zero rfl
    obtain ⟨pimpl, -, rfl⟩ := Option.map_eq_some_iff.mp hclose
    cases pimpl with
    | none => exact .inr hkept
    | some x => exact .inr (hkept.closeAt x)
  | connect hs => exact .inr ((keeps fun _ => zero rfl).connect hs ..)
  | listen hs => exact .inr ((keeps fun _ => zero rfl).listen hs ..)
  | write hs hwrite => exact .inr ((keeps fun _ => zero rfl).write hs hwrite)
  | @callbacks o s callbacks hs =>
    obtain ⟨p, -, hp, hsocket⟩ := owned_iff.mp hs
    refine .inr ((keeps fun _ => zero rfl).put hp ?_ ?_ ?_)
    · rw [hsocket]
      exact .refl _
    · rw [hsocket]
    · rw [hsocket]
  | otherCall => exact .inr ((keeps fun _ => zero rfl).setErrno _)
  | otherOpen => exact .inr (((keeps fun _ => zero rfl).openFd _).setErrno _)
  | elsewhereCalled helsewhere =>
    refine .inr ((keeps fun _ => zero rfl).elsewhere helsewhere fun fd heq => ?_)
    subst heq
    exact hone
  | elsewhere helsewhere =>
    refine .inr (hf.elsewhere helsewhere fun fd heq => ?_)
    subst heq
    have hroom : w.Room (f :: fs) fd := by simpa [OneEach] using hone
    exact hroom
  -- the loop
  | kevent hrun hkevent =>
    refine .inr (Covered.weaken (hf.kevent hkevent) fun {h fd} _ _ => ?_)
    simp only [Outcome.frames, unhandled_cons, unhandled_append, unhandled_nil, Frame.events,
      List.count_nil]
    omega
  | waitFailed => exact .inr ((keeps fun _ => zero rfl).setErrno _)
  | stopped => exact .inr (keeps fun _ => zero rfl)
  | batchEnd => exact .inr (keeps fun _ => zero rfl)
  | other =>
    refine .inr (keeps fun _ => ?_)
    simp [leaves, Outcome.throws, Outcome.frames, Frame.events]
  | gone | dangling | askGone => exact .inl rfl
  | @accept h rest p a refused again hp hlistening ha hopens =>
    refine .inr (hf.acceptBranch hp hlistening ha hopens hone (fun {x fd} hx hfd hne => ?_)
      (fun hfd => ?_) rest refused again)
    · have hle := leaves_le hlost hx hfd
      rw [leaves_acceptBranch] at hle
      rw [unhandled_cons, unhandled_append, Frame.events,
        List.count_cons_of_ne (by simpa using hne.symm)]
      omega
    · have hle := leaves_le hlost (hlistening ▸ sockets_of hp) hfd
      rw [leaves_acceptBranch] at hle
      rw [unhandled_cons, unhandled_append, Frame.events, List.count_cons_self]
      omega
  | @read h rest p hp hlistening =>
    -- an event of a socket that does not listen
    refine .inr (keeps fun {x fd} hx => ?_)
    have hne : x ≠ h := by
      rintro rfl
      have heq := congrArg Prod.snd (Option.some.inj ((sockets_of hp).symm.trans hx))
      rw [hlistening] at heq
      cases heq
    rw [Frame.events, List.count_cons_of_ne (by simpa using hne.symm)]
    simp [leaves, Outcome.throws, Outcome.frames]
  | @sent h rest p hp hconnected =>
    rw [callThen_state]
    refine .inr ((keeps fun _ => ?_).put hp (.refl _) rfl rfl)
    simp [Frame.events]
  | @connected h rest p soError k hp hconnected hgetsockopt
  | @notConnected h rest p soError k err hp hconnected hgetsockopt herr =>
    have hk := Kernel.getsockopt_sameReads w.kernel p.fd soError
    rw [hgetsockopt] at hk
    rw [callThen_state]
    refine .inr ((keeps fun _ => ?_).put hp hk rfl rfl)
    simp [Frame.events]
  | @received h rest p a hp ha =>
    refine .inr ((keeps fun _ => ?_).received hp rest a)
    rw [leaves_received]
    exact Nat.le_refl _
  | @asked h rest p refused s hp hask =>
    refine .inr ((keeps fun _ => ?_).asked hp hask)
    simp [leaves, Outcome.throws, Outcome.frames, Frame.events]
  | @askFailed h rest p refused s hp hask =>
    exact .inr ((keeps fun _ => Nat.le_refl _).asked hp hask)
  | newSocket hdestruct =>
    refine .inr ((keeps fun _ => ?_).destruct hdestruct)
    simp [leaves, Outcome.throws, Outcome.frames, Frame.events]
  | done => exact .inr (keeps fun _ => zero rfl)

/-- Only where connections arrive do the other activations matter. -/
theorem oneEach_throws {f : Frame} {fs : List Frame} {a : Answer} {out : Next}
    (hs : Stretch w f a out) (hthrows : out.throws = true) (gs : List Frame)
    (hone : w.OneEach f fs a) : w.OneEach f gs a := by
  cases hs with
  | elsewhereCalled | elsewhere => cases hthrows
  | _ => exact hone

end World

/-! ## Runs -/

/-- An exception takes no event with it that a socket waits for. -/
def LosesNone (c : Configuration) : Event Op Answer → Prop
  | .unwind _ depth =>
      match c.stack with
      | .code f :: rest =>
          ∀ r ∈ f.left ++ (frames (rest.take depth)).flatMap Frame.events,
            c.state.awaits r = false
      | _ => True
  | _ => True

instance (c : Configuration) (e : Event Op Answer) : Decidable (LosesNone c e) := by
  unfold LosesNone
  split
  · split <;> infer_instance
  · infer_instance

/-- The loop is about to wait in `kevent`, and there is no event: no filter is active, and
none that was retrieved is still to be handled. -/
structure AboutToBlock (c : Configuration) : Prop where
  loop : c.stack.head? = some (.code .loop)
  run : c.state.run = true
  reads : ∀ fd filter, c.state.kernel.reads fd = some filter → filter.active = false
  writes : ∀ fd filter, c.state.kernel.writes fd = some filter → filter.active = false
  handled : ∀ f ∈ frames c.stack, f.events = []

/-- No connection waits to be accepted by a socket of the context. -/
def NoneWaiting (w : World) : Prop :=
  ∀ h p, w.pimpls h = some p → p.valid = true → p.listening = true → w.kernel.backlog p.fd = 0

/-- The accounts are right, or the code has used a pimpl that is gone. -/
def Accounted (c : Configuration) : Prop :=
  c.stack.head? = some (.code .undefined) ∨ c.state.Fair (unhandled (frames c.stack))

/-- What an exception leaves of the accounts. -/
theorem Fair.dropped {w : World} {f : Frame} {rest : List (Act Frame CallOut)} {depth : Nat}
    (hf : w.Fair (unhandled (f :: frames rest)))
    (hlost : ∀ r ∈ (frames (rest.take depth)).flatMap Frame.events, w.awaits r = false) :
    w.Fair (unhandled (f :: frames (rest.drop depth))) := by
  refine Covered.weaken hf fun {h fd} hs hfd => ?_
  have hzero := World.count_lost hlost hs hfd
  have hsplit : frames rest = frames (rest.take depth) ++ frames (rest.drop depth) := by
    rw [← frames_append, List.take_append_drop]
  rw [unhandled_cons, unhandled_cons, hsplit, unhandled_append]
  unfold unhandled at hzero ⊢
  omega

theorem accounted_step {c c' : Configuration} {e : Event Op Answer} (hc : Accounted c)
    (hone : Before World.OneEach c e) (hloses : LosesNone c e) (hstep : Step object c e c') :
    Accounted c' := by
  -- the code that has used a pimpl that is gone does nothing any more
  have stuck : ∀ {w : World} {f : Frame} {rest : List (Act Frame CallOut)} {a : Answer}
      {out : Next}, Accounted ⟨w, .code f :: rest, c.log⟩ → resume w f a = some out →
      (∃ w', out = .goto w' .undefined []) ∨ w.Fair (unhandled (f :: frames rest)) := by
    rintro w f rest a out (hundefined | hf) hres
    · cases hundefined
      cases stretch_of_resume hres with
      | elsewhere => exact .inl ⟨_, rfl⟩
    · exact .inr hf
  have stretch : ∀ {w : World} {f : Frame} {rest : List (Act Frame CallOut)} {a : Answer}
      {out : Next}, Accounted ⟨w, .code f :: rest, c.log⟩ → w.OneEach f (frames rest) a →
      out.throws = false → resume w f a = some out →
      (∃ w', out = .goto w' .undefined []) ∨
        out.state.Fair (unhandled (out.frames ++ frames rest)) := by
    intro w f rest a out hacc hone hthrows hres
    rcases stuck hacc hres with hundefined | hf
    · exact .inl hundefined
    · rcases hf.stretch hone (fun h => by rw [hthrows] at h; cases h) (stretch_of_resume hres) with
        heq | hf'
      · exact .inl ⟨w, heq⟩
      · exact .inr hf'
  cases hstep with
  | @call w stack log op hout =>
    rcases hc with hundefined | hf
    · cases stack with
      | nil => cases hundefined
      | cons top rest =>
        cases hundefined
        cases hout
    · right
      refine Covered.weaken hf fun {h fd} _ _ => ?_
      show _ ≤ unhandled (.api op :: frames stack) h
      rw [unhandled_cons]
      exact Nat.le_add_left ..
  | goto h =>
    rcases stretch hc hone rfl h with ⟨w', heq⟩ | hf
    · cases heq
      exact .inl rfl
    · exact .inr hf
  | callOut h =>
    rcases stretch hc hone rfl h with ⟨w', heq⟩ | hf
    · cases heq
    · exact .inr hf
  | ret h =>
    rcases stretch hc hone rfl h with ⟨w', heq⟩ | hf
    · cases heq
    · exact .inr hf
  | @unwind w f rest log a s' ns depth h hout =>
    rcases stuck hc h with ⟨w', heq⟩ | hf
    · cases heq
    · have hleft : ∀ r ∈ f.left, w.awaits r = false :=
        fun r hr => hloses r (List.mem_append_left _ hr)
      have hdropped : w.Fair (unhandled (f :: frames (rest.drop depth))) :=
        Fair.dropped hf fun r hr => hloses r (List.mem_append_right _ hr)
      have hone' := World.oneEach_throws (stretch_of_resume h) rfl (frames (rest.drop depth)) hone
      rcases hdropped.stretch hone' (fun _ => hleft) (stretch_of_resume h) with heq | hf'
      · cases heq
      · exact .inr hf'
  | back => exact hc.imp (fun h => by cases h) id

theorem new_fair : World.new.Fair (unhandled []) := by
  refine ⟨rfl, fun _ => ⟨rfl, rfl⟩, fun _ => rfl, fun hs => ?_, fun hs => ?_⟩
  · cases hs
  · cases hs

/-- **Nothing waits when the loop blocks**, after every run in which each connection has an
event of its own. -/
theorem backlog_empty {es : List (Event Op Answer)} {c : Configuration}
    (hone : Runs.Along (step object) (fun c e => Before World.OneEach c e ∧ LosesNone c e)
      (Config.start World.new) es)
    (hr : Runs.run (step object) (Config.start World.new) es = some c) (hblock : AboutToBlock c) :
    NoneWaiting c.state := by
  have hacc : Accounted c := by
    refine Runs.run_invariant_along (fun c e c' hc hp hstep =>
      accounted_step hc hp.1 hp.2 (Step.of_step hstep)) (.inr ?_) hone hr
    exact new_fair
  rcases hacc with hundefined | hf
  · rw [hblock.loop] at hundefined
    cases hundefined
  intro h p hp hvalid hlistening
  have hfd : p.fd ≠ SocketBasePimpl.invalidFd := by simpa [SocketBasePimpl.valid] using hvalid
  obtain ⟨-, -, b, hreads, hbacklog⟩ := Covered.own hf (World.sockets_of hp) hfd
  have hnone : unhandled (frames c.stack) h = 0 := by
    unfold unhandled
    rw [List.flatMap_eq_nil_iff.mpr hblock.handled]
    rfl
  have hinactive : b = false := hblock.reads _ _ hreads
  have hle := hbacklog hlistening
  rw [hnone, hinactive] at hle
  exact Nat.le_zero.mp hle

/-- A socket listens; a second connection arrives when the event of the first is retrieved and
not handled yet. -/
def listenTwice : List (Event Op Answer) :=
  [.call (.api (.socket 2 1 0 noCallbacks)), .code (.opened (.fd 3) none),
    .call (.api (.listen 0)), .code (.call none none),
    .call (.elsewhere (.connects 3)), .code .go,
    .call (.api .waitForInput), .code .go, .code (.ready [some (.read, 3)]),
    .code (.elsewhere (.connects 3)), .code (.accept (.fd 4) none none), .code .go,
    .code (.ready [some (.read, 3)]), .code (.accept (.fd 5) none none), .code .go]

/-- Both are accepted, and the loop blocks. -/
theorem backlog_empty_two : ∃ c,
    Runs.run (step object) (Config.start World.new) listenTwice = some c ∧
      AboutToBlock c ∧ NoneWaiting c.state := by
  obtain ⟨c, hr, hblock⟩ : ∃ c,
      Runs.run (step object) (Config.start World.new) listenTwice = some c ∧
        AboutToBlock c := by
    refine ⟨_, rfl, rfl, rfl, fun fd filter h => ?_, fun fd filter h => ?_, by decide⟩
    · by_cases hfd : fd = 3
      · subst hfd
        cases h
        rfl
      · -- the filter of 3 is the only one: registered twice, active and retrieved twice
        iterate 6
          change Function.update (_ : Int → Option Knote) 3 _ fd = some filter at h
          rw [Function.update_of_ne hfd] at h
        cases h
    · cases h
  exact ⟨c, hr, hblock, backlog_empty (by decide) hr hblock⟩

/-- A socket listens, `n` connections arrive, and then the loop handles what it is told. -/
def listenRun (n : Nat) : List (Event Op Answer) :=
  [.call (.api (.socket 2 1 0 noCallbacks)), .code (.opened (.fd 3) none),
    .call (.api (.listen 0)), .code (.call none none)] ++
  (List.replicate n [.call (.elsewhere (.connects 3)), .code .go]).flatten ++
  [.call (.api .waitForInput), .code .go, .code (.ready [some (.read, 3)]),
    .code (.accept (.fd 4) none none), .code .go]

/-- Of two that arrive together one is left, and the loop blocks. -/
theorem backlog_left : ∃ c,
    Runs.run (step object) (Config.start World.new) (listenRun 2) = some c ∧
      AboutToBlock c ∧ c.state.kernel.backlog 3 = 1 ∧ ¬ NoneWaiting c.state := by
  refine ⟨_, rfl, ⟨rfl, rfl, fun fd filter h => ?_, fun fd filter h => ?_, by decide⟩, rfl,
    fun hnone => ?_⟩
  · by_cases hfd : fd = 3
    · subst hfd
      cases h
      rfl
    · iterate 5
        change Function.update (_ : Int → Option Knote) 3 _ fd = some filter at h
        rw [Function.update_of_ne hfd] at h
      cases h
  · cases h
  · have hzero := hnone 0 _ rfl (by decide) rfl
    cases hzero

end Macos
end AcppNetwork
