import AcppNetwork.MacosLoop

/-!
# The stretches of the macOS event loop

`Stretch` says what a stretch of code of a context can do, one constructor for each
way through it, and `stretch_of_resume` that the code does nothing else.
-/
namespace AcppNetwork
namespace Macos

open Reentrant
open Linux (Callbacks Callback Send Recv Opened Result CallOut)

/-- Where a read event of a socket that does not listen leads. -/
def SocketBasePimpl.reading (p : SocketBasePimpl) (h : Nat) (rest : List Ready) : Frame :=
  if p.callbacks.onReceived || p.callbacks.onDisconnected then .receive h rest else .batch rest

/-- The ways through the code. -/
inductive Stretch : World → Frame → Answer → Next → Prop where
  | waitForInput {w} :
      Stretch w (.api (.api .waitForInput)) .go (.goto { w with run := true } .loop [])
  | stop {w} : Stretch w (.api (.api .stop)) .go (.ret { w with run := false } .void [])
  | socket {w domain type protocol callbacks a refused} (hopens : w.Opens a) :
      Stretch w (.api (.api (.socket domain type protocol callbacks))) (.opened a refused)
        (World.constructed w.fresh (w.constructSocket domain type protocol callbacks refused a))
  | adopt {w domain type protocol fd callbacks refused} :
      Stretch w (.api (.api (.adopt domain type protocol fd callbacks))) (.ask refused)
        (World.constructed w.fresh (w.construct domain type protocol fd callbacks refused))
  | move {w other s w'} (hs : w.owned other = some s)
      (hown : World.own { w.release other with fresh := w.fresh + 1 } w.fresh s.this = some w') :
      Stretch w (.api (.api (.move other))) .go (.ret w' (.object w.fresh) [])
  | assign {w o other w'} (hassign : w.assign o other = some w') :
      Stretch w (.api (.api (.assign o other))) .go (.ret w' .void [])
  | destroy {w o w'} (hdestruct : w.destruct o = some w') :
      Stretch w (.api (.api (.destroy o))) .go (.ret w' .void [])
  | close {w o w'} (hclose : w.closeObject o = some w') :
      Stretch w (.api (.api (.close o))) .go (.ret w' .void [])
  | connect {w o s refused error} (hs : w.owned o = some s) :
      Stretch w (.api (.api (.connect o))) (.call refused error) (w.connect s refused error)
  | listen {w o s refused error} (hs : w.owned o = some s) :
      Stretch w (.api (.api (.listen o))) (.call refused error) (w.listen s refused error)
  | write {w o s buffer as written} (hs : w.owned o = some s)
      (hwrite : s.soWrite buffer as = some written) :
      Stretch w (.api (.api (.write o buffer))) (.sends as) (w.write written)
  | callbacks {w o s callbacks} (hs : w.owned o = some s) :
      Stretch w (.api (.api (.callbacks o callbacks))) .go
        (.ret (w.put { s with pimpl := { s.pimpl with callbacks := callbacks } }) .void [])
  | otherCall {w e} : Stretch w (.api (.api (.otherCall none e))) .go (.ret (w.setErrno e) .void [])
  | otherOpen {w e n} (hfree : w.kernel.isOpen (n : Nat) = false) :
      Stretch w (.api (.api (.otherCall (some n) e))) .go
        (.ret ((w.openFd n).setErrno e) .void [])
  | elsewhereCalled {w e w'} (helsewhere : w.elsewhere e = some w') :
      Stretch w (.api (.elsewhere e)) .go (.ret w' .void [])
  | elsewhere {w f e w'} (helsewhere : w.elsewhere e = some w') :
      Stretch w f (.elsewhere e) (.goto w' f [])
  | kevent {w events w' ready} (hrun : w.run = true)
      (hkevent : w.kevent events = some (w', ready)) :
      Stretch w .loop (.ready events) (.goto w' (.batch ready) [])
  | waitFailed {w e} (hrun : w.run = true) (he : e ≠ 0) :
      Stretch w .loop (.waitFailed e) (.throw (w.setErrno e) [])
  | stopped {w} (hrun : w.run = false) : Stretch w .loop .go (.ret w .void [])
  | batchEnd {w} : Stretch w (.batch []) .go (.goto w .loop [])
  | other {w rest} : Stretch w (.batch (.other :: rest)) .go (.callOut w (.batch rest) .other [])
  | gone {w filter h rest} (hp : w.pimpls h = none) :
      Stretch w (.batch (.socket filter h :: rest)) .go (.goto w .undefined [])
  | accept {w h rest p a refused again} (hp : w.pimpls h = some p)
      (hlistening : p.listening = true) (ha : Socket.Accepts ⟨h, w.kernel, p⟩ a)
      (hopens : w.Opens a) :
      Stretch w (.batch (.socket .read h :: rest)) (.accept a refused again)
        (w.acceptBranch ⟨h, w.kernel, p⟩ rest refused again a)
  | read {w h rest p} (hp : w.pimpls h = some p) (hlistening : p.listening = false) :
      Stretch w (.batch (.socket .read h :: rest)) .go (.goto w (p.reading h rest) [])
  | sent {w h rest p} (hp : w.pimpls h = some p) (hconnected : p.connected = true) :
      Stretch w (.batch (.socket .write h :: rest)) .go
        (w.callThen ⟨h, w.kernel, p⟩ (.batch rest) (p.callbacks.call? (.onSent 0)))
  | connected {w h rest p soError k} (hp : w.pimpls h = some p) (hconnected : p.connected = false)
      (hgetsockopt : w.kernel.getsockopt p.fd soError = (k, 0)) :
      Stretch w (.batch (.socket .write h :: rest)) (.wake soError)
        (w.callThen ⟨h, k, { p with connected := true }⟩ (.afterConnected h rest)
          (p.callbacks.call? .onConnected))
  | notConnected {w h rest p soError k err} (hp : w.pimpls h = some p)
      (hconnected : p.connected = false)
      (hgetsockopt : w.kernel.getsockopt p.fd soError = (k, err)) (herr : err ≠ 0) :
      Stretch w (.batch (.socket .write h :: rest)) (.wake soError)
        (w.callThen ⟨h, k, { p with connected := true }⟩ (.batch rest)
          (p.callbacks.call? (.onError k.errno "getsockopt")))
  | dangling {w h rest} (hp : w.pimpls h = none) :
      Stretch w (.receive h rest) .go (.goto w .undefined [])
  | received {w h rest p a} (hp : w.pimpls h = some p)
      (ha : Socket.Receives ⟨h, w.kernel, p⟩ a) :
      Stretch w (.receive h rest) (.recv a) (w.received ⟨h, w.kernel, p⟩ rest a)
  | askGone {w h rest refused} (hp : w.pimpls h = none) :
      Stretch w (.afterConnected h rest) (.ask refused) (.goto w .undefined [])
  | asked {w h rest p refused s} (hp : w.pimpls h = some p)
      (hask : Socket.askReadEvent ⟨h, w.kernel, p⟩ refused = (s, true)) :
      Stretch w (.afterConnected h rest) (.ask refused) (.goto (w.put s) (.batch rest) [])
  | askFailed {w h rest p refused s} (hp : w.pimpls h = some p)
      (hask : Socket.askReadEvent ⟨h, w.kernel, p⟩ refused = (s, false)) :
      Stretch w (.afterConnected h rest) (.ask refused) (.throw (w.put s) [])
  | newSocket {w o rest w'} (hdestruct : w.destruct o = some w') :
      Stretch w (.newSocket o rest) .go (.goto w' (.batch rest) [])
  | done {w r} : Stretch w (.done r) .go (.ret w r [])

section
variable {w : World} {f : Frame} {a : Answer} {out : Next}

theorem stretch_of_api {op : Linux.Op} (h : w.api op a = some out) :
    Stretch w (.api (.api op)) a out := by
  cases op with
  | waitForInput =>
    cases a <;> cases h
    exact .waitForInput
  | stop =>
    cases a <;> cases h
    exact .stop
  | socket =>
    cases a <;> simp only [World.api, reduceCtorEq] at h
    split at h <;> cases h
    exact .socket ‹_›
  | adopt =>
    cases a <;> cases h
    exact .adopt
  | move =>
    cases a <;> simp only [World.api, reduceCtorEq] at h
    obtain ⟨s, hs, hrest⟩ := Option.bind_eq_some_iff.mp h
    obtain ⟨w', hown, hret⟩ := Option.bind_eq_some_iff.mp hrest
    cases hret
    exact .move hs hown
  | assign =>
    cases a <;> simp only [World.api, reduceCtorEq] at h
    obtain ⟨w', hassign, rfl⟩ := Option.map_eq_some_iff.mp h
    exact .assign hassign
  | destroy =>
    cases a <;> simp only [World.api, reduceCtorEq] at h
    obtain ⟨w', hdestruct, rfl⟩ := Option.map_eq_some_iff.mp h
    exact .destroy hdestruct
  | close =>
    cases a <;> simp only [World.api, reduceCtorEq] at h
    obtain ⟨w', hclose, rfl⟩ := Option.map_eq_some_iff.mp h
    exact .close hclose
  | connect =>
    cases a <;> simp only [World.api, reduceCtorEq] at h
    obtain ⟨s, hs, rfl⟩ := Option.map_eq_some_iff.mp h
    exact .connect hs
  | listen =>
    cases a <;> simp only [World.api, reduceCtorEq] at h
    obtain ⟨s, hs, rfl⟩ := Option.map_eq_some_iff.mp h
    exact .listen hs
  | write =>
    cases a <;> simp only [World.api, reduceCtorEq] at h
    obtain ⟨s, hs, hrest⟩ := Option.bind_eq_some_iff.mp h
    obtain ⟨written, hwrite, hret⟩ := Option.bind_eq_some_iff.mp hrest
    cases hret
    exact .write hs hwrite
  | callbacks =>
    cases a <;> simp only [World.api, reduceCtorEq] at h
    obtain ⟨s, hs, rfl⟩ := Option.map_eq_some_iff.mp h
    exact .callbacks hs
  | otherCall opens e =>
    cases opens with
    | none =>
      cases a <;> cases h
      exact .otherCall
    | some n =>
      cases a <;> simp only [World.api, reduceCtorEq] at h
      split at h <;> cases h
      exact .otherOpen (Bool.not_eq_true _ ▸ ‹_›)

theorem stretch_of_readEvent {h : Nat} {rest : List Ready}
    (hread : w.readEvent h rest a = some out) :
    Stretch w (.batch (.socket .read h :: rest)) a out := by
  unfold World.readEvent at hread
  split at hread
  · split at hread <;> cases hread
    rename_i hgo
    subst hgo
    exact .gone ‹_›
  · split at hread
    · split at hread
      · dsimp only at hread
        split at hread
        · rename_i hasked
          cases hread
          exact .accept ‹_› ‹_› hasked.1 hasked.2
        · cases hread
      · cases hread
    · rename_i hlistening
      split at hread <;> cases hread
      rename_i hgo
      subst hgo
      exact .read ‹_› (Bool.not_eq_true _ ▸ hlistening)

theorem stretch_of_writeEvent {h : Nat} {rest : List Ready}
    (hwrite : w.writeEvent h rest a = some out) :
    Stretch w (.batch (.socket .write h :: rest)) a out := by
  unfold World.writeEvent at hwrite
  split at hwrite
  · split at hwrite <;> cases hwrite
    rename_i hgo
    subst hgo
    exact .gone ‹_›
  · split at hwrite
    · split at hwrite <;> cases hwrite
      rename_i hgo
      subst hgo
      exact .sent ‹_› ‹_›
    · rename_i hconnected
      rw [Bool.not_eq_true] at hconnected
      split at hwrite
      · dsimp only at hwrite
        split at hwrite
        · rename_i herr
          cases hwrite
          exact .connected ‹_› hconnected (Prod.ext rfl herr)
        · rename_i herr
          cases hwrite
          exact .notConnected ‹_› hconnected rfl herr
      · cases hwrite

theorem stretch_of_receive {h : Nat} {rest : List Ready}
    (hreceive : w.receive h rest a = some out) :
    Stretch w (.receive h rest) a out := by
  unfold World.receive at hreceive
  split at hreceive
  · split at hreceive <;> cases hreceive
    rename_i hgo
    subst hgo
    exact .dangling ‹_›
  · split at hreceive
    · dsimp only at hreceive
      split at hreceive <;> cases hreceive
      exact .received ‹_› ‹_›
    · cases hreceive

theorem stretch_of_afterConnected {h : Nat} {rest : List Ready} {refused : Option Nat} :
    Stretch w (.afterConnected h rest) (.ask refused) (w.afterConnected h rest refused) := by
  unfold World.afterConnected
  split
  · exact .askGone ‹_›
  · split
    · exact .asked ‹_› ‹_›
    · exact .askFailed ‹_› ‹_›

theorem stretch_of_code (h : w.code f a = some out) : Stretch w f a out := by
  cases f with
  | api op =>
    cases op with
    | api op => exact stretch_of_api h
    | elsewhere e =>
      cases a <;> simp only [World.code, reduceCtorEq] at h
      obtain ⟨w', helsewhere, rfl⟩ := Option.map_eq_some_iff.mp h
      exact .elsewhereCalled helsewhere
  | loop =>
    cases a <;> simp only [World.code, reduceCtorEq] at h
    · split at h
      · obtain ⟨⟨w', ready⟩, hkevent, rfl⟩ := Option.map_eq_some_iff.mp h
        exact .kevent ‹_› hkevent
      · cases h
    · split at h <;> cases h
      rename_i hfailed
      exact .waitFailed hfailed.1 hfailed.2
    · split at h <;> cases h
      exact .stopped (Bool.not_eq_true _ ▸ ‹_›)
  | batch events =>
    cases events with
    | nil =>
      cases a <;> cases h
      exact .batchEnd
    | cons ready rest =>
      cases ready with
      | other =>
        cases a <;> cases h
        exact .other
      | socket filter x =>
        cases filter with
        | read => exact stretch_of_readEvent h
        | write => exact stretch_of_writeEvent h
  | receive x rest => exact stretch_of_receive h
  | afterConnected x rest =>
    cases a <;> cases h
    exact stretch_of_afterConnected
  | newSocket o rest =>
    cases a <;> simp only [World.code, reduceCtorEq] at h
    obtain ⟨w', hdestruct, rfl⟩ := Option.map_eq_some_iff.mp h
    exact .newSocket hdestruct
  | done r =>
    cases a <;> cases h
    exact .done
  | undefined => cases a <;> cases h

/-- **The code does nothing else.** -/
theorem stretch_of_resume (h : resume w f a = some out) : Stretch w f a out := by
  cases a with
  | elsewhere e =>
    obtain ⟨w', helsewhere, rfl⟩ := Option.map_eq_some_iff.mp h
    exact .elsewhere helsewhere
  | ready | waitFailed | accept | recv | wake | ask | opened | call | sends | go =>
    exact stretch_of_code h

end

/-! ## What a socket's operations change -/

/-- The same descriptors are open and listen, with the same connections waiting and the
same read filters. -/
structure Kernel.SameReads (k k' : Kernel) : Prop where
  isOpen : k'.isOpen = k.isOpen
  listens : k'.listens = k.listens
  backlog : k'.backlog = k.backlog
  reads : k'.reads = k.reads

theorem Kernel.SameReads.refl (k : Kernel) : k.SameReads k := ⟨rfl, rfl, rfl, rfl⟩

theorem Kernel.SameReads.trans {k k' k'' : Kernel} (h : k.SameReads k') (h' : k'.SameReads k'') :
    k.SameReads k'' :=
  ⟨h'.isOpen.trans h.isOpen, h'.listens.trans h.listens, h'.backlog.trans h.backlog,
    h'.reads.trans h.reads⟩

theorem Kernel.getsockopt_sameReads (k : Kernel) (fd : Int) (soError : Nat) :
    k.SameReads (k.getsockopt fd soError).1 := by
  unfold Kernel.getsockopt
  split <;> exact ⟨rfl, rfl, rfl, rfl⟩

namespace Socket
variable {s s' : Socket}

/-- What writes does not touch the pimpl, and of the kernel only the write filters and
`errno`. -/
structure Writes (s s' : Socket) : Prop where
  this : s'.this = s.this
  pimpl : s'.pimpl = s.pimpl
  kernel : s.kernel.SameReads s'.kernel

theorem Writes.trans {s'' : Socket} (h : s.Writes s') (h' : s'.Writes s'') : s.Writes s'' :=
  ⟨h'.this.trans h.this, h'.pimpl.trans h.pimpl, h.kernel.trans h'.kernel⟩

theorem writes_refl (s : Socket) : s.Writes s := ⟨rfl, rfl, .refl _⟩

theorem writes_setErrno (s : Socket) (e : Nat) : s.Writes (s.setErrno e) :=
  ⟨rfl, rfl, rfl, rfl, rfl, rfl⟩

theorem writes_askWriteEvent (s : Socket) (refused : Option Nat) :
    s.Writes (s.askWriteEvent refused).1 := by
  unfold askWriteEvent
  split
  · exact writes_setErrno ..
  · exact ⟨rfl, rfl, rfl, rfl, rfl, rfl⟩

theorem writes_connect (s : Socket) (error : Option Nat) : s.Writes (s.connect error).1 := by
  unfold connect
  split
  · exact writes_refl s
  · exact writes_setErrno ..

theorem writes_soWriteInternal (s : Socket) (a : Send) :
    s.Writes (s.soWriteInternal a).socket := by
  cases a with
  | sent n => exact writes_refl s
  | failed e refused =>
    have herrno : s.Writes (s.setErrno e) := writes_setErrno s e
    have hask := writes_askWriteEvent (s.setErrno e) refused
    simp only [soWriteInternal]
    split
    · split
      · rename_i hasked
        rw [hasked] at hask
        exact herrno.trans hask
      · rename_i hasked
        rw [hasked] at hask
        exact herrno.trans hask
    · exact herrno

theorem writes_soWrite {buffer : List Byte} {as : List Send} {written : Written}
    (h : s.soWrite buffer as = some written) : s.Writes written.socket := by
  induction as generalizing s buffer written with
  | nil => simp [soWrite] at h
  | cons a as ih =>
    have hfirst := writes_soWriteInternal s a
    rw [soWrite] at h
    dsimp only at h
    split at h
    · split at h
      · split at h <;> cases h
        exact hfirst
      · split at h <;> cases h
        exact hfirst
      · obtain ⟨next, hnext, rfl⟩ := Option.map_eq_some_iff.mp h
        have hrest : Writes _ next.socket := ih hnext
        exact hfirst.trans ⟨hrest.this, hrest.pimpl, hrest.kernel⟩
    · cases h

/-- `ask_read_event` fails and throws, or the descriptor is open and the read filter is
registered. -/
theorem askReadEvent_cases (s : Socket) (refused : Option Nat) :
    (∃ e, s.askReadEvent refused = (s.setErrno e, false)) ∨
      s.kernel.isOpen s.pimpl.fd = true ∧
        s.askReadEvent refused =
          ({ s with kernel := s.kernel.addRead s.pimpl.fd s.this }, true) := by
  unfold askReadEvent
  split
  · exact .inl ⟨_, rfl⟩
  · rename_i hnone
    refine .inr ⟨?_, rfl⟩
    unfold Kernel.changeError at hnone
    split at hnone
    · assumption
    · cases hnone

/-- Nobody registers a filter of a descriptor that is not open. -/
theorem askReadEvent_closed (refused : Option Nat) (hclosed : s.kernel.isOpen s.pimpl.fd = false) :
    (s.askReadEvent refused).2 = false := by
  obtain ⟨e, heq⟩ | ⟨hopen, -⟩ := askReadEvent_cases s refused
  · rw [heq]
  · exact absurd hopen (by rw [hclosed]; exact Bool.false_ne_true)

end Socket

namespace World
variable {w w' : World} {o h : Nat}

/-- The socket an object owns is the pimpl it points to, with the kernel. -/
theorem owned_iff {s : Socket} : w.owned o = some s ↔
    ∃ p, w.objects o = some (some s.this) ∧ w.pimpls s.this = some p ∧
      s = ⟨s.this, w.kernel, p⟩ := by
  unfold owned
  constructor
  · intro hs
    obtain ⟨h, hobj, hs⟩ := Option.bind_eq_some_iff.mp hs
    obtain ⟨p, hp, rfl⟩ := Option.map_eq_some_iff.mp hs
    exact ⟨p, Option.join_eq_some_iff.mp hobj, hp, rfl⟩
  · rintro ⟨p, hobj, hp, hs⟩
    rw [Option.join_eq_some_iff.mpr hobj, hs]
    simp [hp]

@[simp] theorem callThen_state (w : World) (s : Socket) (f : Frame) (cb : Option Callback) :
    (w.callThen s f cb).state = w.put s := by
  cases cb <;> rfl

@[simp] theorem callThen_frames (w : World) (s : Socket) (f : Frame) (cb : Option Callback) :
    (w.callThen s f cb).frames = [f] := by
  cases cb <;> rfl

@[simp] theorem callThen_throws (w : World) (s : Socket) (f : Frame) (cb : Option Callback) :
    (w.callThen s f cb).throws = false := by
  cases cb <;> rfl

@[simp] theorem constructed_state (o : Nat) (r : World × Bool) : (constructed o r).state = r.1 := by
  obtain ⟨w', made⟩ := r
  cases made <;> rfl

/-- Move assignment: `other` gives its pimpl away, the old one of `o` goes, and `o` gets
the new one. -/
theorem assign_some {other : Nat} (h : w.assign o other = some w') :
    ∃ s pimpl, w.owned other = some s ∧ (w.release other).objects o = some pimpl ∧
      ((w.release other).reset pimpl).own o s.this = some w' := by
  obtain ⟨s, hs, hrest⟩ := Option.bind_eq_some_iff.mp h
  obtain ⟨pimpl, hobj, hown⟩ := Option.bind_eq_some_iff.mp hrest
  exact ⟨s, pimpl, hs, hobj, hown⟩

/-- The constructor: it throws and leaves nothing behind, or the socket is there and its
read filter registered. -/
theorem construct_cases (w : World) (domain type protocol fd : Int) (callbacks : Callbacks)
    (refused : Option Nat) :
    (∃ e, w.construct domain type protocol fd callbacks refused =
      ({ w.setErrno e with fresh := w.fresh + 1 }, false)) ∨
    w.kernel.isOpen fd = true ∧ w.construct domain type protocol fd callbacks refused =
      (⟨w.kernel.addRead fd w.fresh,
        Function.update w.pimpls w.fresh
          (some (.new domain type protocol fd callbacks w.fresh)),
        Function.update w.objects w.fresh (some (some w.fresh)), w.fresh + 1, w.run⟩, true) := by
  obtain ⟨e, hask⟩ | ⟨hopen, hask⟩ := Socket.askReadEvent_cases
    ⟨w.fresh, w.kernel, .new domain type protocol fd callbacks w.fresh⟩ refused
  · refine .inl ⟨e, ?_⟩
    unfold construct
    simp only [hask]
    rfl
  · refine .inr ⟨hopen, ?_⟩
    unfold construct
    simp only [hask]
    rfl

/-- Closing the socket at `h` changes nothing, or closes the descriptor it has. -/
theorem closeAt_cases (w : World) (h : Nat) :
    w.closeAt h = w ∧ (∀ p, w.pimpls h = some p → p.valid = false) ∨
      ∃ p, w.pimpls h = some p ∧ p.valid = true ∧ w.closeAt h = { w with
        kernel := w.kernel.close p.fd
        pimpls := Function.update w.pimpls h
          (some { p with fd := SocketBasePimpl.invalidFd }) } := by
  unfold closeAt
  cases hp : w.pimpls h with
  | none => exact .inl ⟨rfl, fun p hp' => nomatch hp'⟩
  | some p =>
    dsimp only
    by_cases hvalid : p.valid = true
    · refine .inr ⟨p, rfl, hvalid, ?_⟩
      rw [Socket.close, if_pos hvalid]
      rfl
    · refine .inl ⟨?_, fun p' hp' => ?_⟩
      · rw [Socket.close, if_neg hvalid]
        show { w with pimpls := Function.update w.pimpls h (some p) } = w
        rw [← hp, Function.update_eq_self]
      · rw [← Option.some.inj hp']
        exact Bool.not_eq_true _ ▸ hvalid

@[simp] theorem reset_kernel (w : World) (pimpl : Option Nat) :
    (w.reset pimpl).kernel = w.kernel := by
  cases pimpl <;> rfl

theorem own_some (hown : w.own o h = some w') : ∃ p, w.pimpls h = some p ∧ w' = { w with
    objects := Function.update w.objects o (some (some h))
    pimpls := Function.update w.pimpls h (some { p with parent := o }) } := by
  obtain ⟨p, hp, rfl⟩ := Option.map_eq_some_iff.mp hown
  exact ⟨p, hp, rfl⟩

end World

/-- Retrieving an event changes a filter, and nothing else. -/
theorem Kernel.retrieve_frame {k k' : Kernel} {event : Option (Filter × Int)} {ready : Ready}
    (h : k.retrieve event = some (k', ready)) :
    k' = { k with reads := k'.reads, writes := k'.writes } := by
  unfold Kernel.retrieve at h
  split at h
  · split at h <;> cases h
    rfl
  · split at h <;> cases h
    rfl
  · cases h
    rfl

theorem Kernel.retrieveAll_frame {k k' : Kernel} {events : List (Option (Filter × Int))}
    {ready : List Ready} (h : k.retrieveAll events = some (k', ready)) :
    k' = { k with reads := k'.reads, writes := k'.writes } := by
  induction events generalizing k ready with
  | nil =>
    cases h
    rfl
  | cons event events ih =>
    obtain ⟨⟨k₁, r⟩, hfirst, hrest⟩ := Option.bind_eq_some_iff.mp h
    obtain ⟨⟨k₂, rs⟩, hall, hret⟩ := Option.bind_eq_some_iff.mp hrest
    cases hret
    rw [ih hall, retrieve_frame hfirst]

end Macos
end AcppNetwork
