import AcppNetwork.LinuxLoop

/-!
# The stretches of the event loop

`Stretch` says what a stretch of code of a context can do, one constructor for each
way through it, and `stretch_of_resume` that the code does nothing else.  The
invariants of the later modules are proved by cases on it.
-/
namespace AcppNetwork
namespace Linux

open Reentrant

/-- The notes of an event with `EPOLLOUT`. -/
def wakeNotes (w : World) (h : Nat) (p : SocketBasePimpl) (soError : Nat) : List Note :=
  .dispatched h true p.valid ::
    if p.connected then [] else [.soError h (w.kernel.getsockopt p.fd soError).2]

/-- The ways through the code. -/
inductive Stretch : World → Frame → Answer → Next → Prop where
  | waitForInput {w} :
      Stretch w (.api .waitForInput) .go (.goto { w with run := true } .loop [])
  | stop {w} : Stretch w (.api .stop) .go (.ret { w with run := false } .void [])
  | socket {w domain type protocol callbacks a} (hopens : w.Opens a) :
      Stretch w (.api (.socket domain type protocol callbacks)) (.opened a)
        (.ret (w.constructSocket domain type protocol callbacks a) (.object w.fresh) [])
  | adopt {w domain type protocol fd callbacks} :
      Stretch w (.api (.adopt domain type protocol fd callbacks)) .go
        (.ret (w.construct domain type protocol fd callbacks) (.object w.fresh) [])
  | move {w other s w'} (hs : w.owned other = some s)
      (hown : World.own { w.release other with fresh := w.fresh + 1 } w.fresh s.this = some w') :
      Stretch w (.api (.move other)) .go (.ret w' (.object w.fresh) [])
  | assign {w o other w' ns} (hassign : w.assign o other = some (w', ns)) :
      Stretch w (.api (.assign o other)) .go (.ret w' .void ns)
  | destroy {w o w' ns} (hdestruct : w.destruct o = some (w', ns)) :
      Stretch w (.api (.destroy o)) .go (.ret w' .void ns)
  | close {w o w' ns} (hclose : w.closeObject o = some (w', ns)) :
      Stretch w (.api (.close o)) .go (.ret w' .void ns)
  | connect {w o s refused error} (hs : w.owned o = some s) :
      Stretch w (.api (.connect o)) (.call refused error)
        (.ret (w.put (s.connect refused error).1) (.bool (s.connect refused error).2.1) [])
  | listen {w o s refused error} (hs : w.owned o = some s) :
      Stretch w (.api (.listen o)) (.call refused error)
        (.ret (w.put (s.listen refused error).1) (.int (s.listen refused error).2.1) [])
  | write {w o s buffer as written} (hs : w.owned o = some s)
      (hwrite : s.soWrite buffer as = some written) :
      Stretch w (.api (.write o buffer)) (.sends as)
        (w.callThen written.socket (.done (.size written.n)) [] written.callback)
  | callbacks {w o s callbacks} (hs : w.owned o = some s) :
      Stretch w (.api (.callbacks o callbacks)) .go
        (.ret (w.put { s with pimpl := { s.pimpl with callbacks := callbacks } }) .void [])
  | otherCall {w e} : Stretch w (.api (.otherCall none e)) .go (.ret (w.setErrno e) .void [])
  | otherOpen {w e n} (hfree : w.kernel.isOpen (n : Nat) = false) :
      Stretch w (.api (.otherCall (some n) e)) .go (.ret ((w.openFd n).setErrno e) .void [])
  | ready {w events ready} (hrun : w.run = true) (hready : w.epollWait events = some ready) :
      Stretch w .loop (.ready events) (.goto w (.batch ready) [])
  | waitFailed {w e} (hrun : w.run = true) (he : e ≠ 0) :
      Stretch w .loop (.waitFailed e) (.throw (w.setErrno e) [])
  | stopped {w} (hrun : w.run = false) : Stretch w .loop .go (.ret w .void [])
  | batchEnd {w} : Stretch w (.batch []) .go (.goto w .loop [])
  | other {w rest} : Stretch w (.batch (.other :: rest)) .go (.callOut w (.batch rest) .other [])
  | gone {w h events rest} (hp : w.pimpls h = none) :
      Stretch w (.batch (.socket h events :: rest)) .go
        (.goto w .undefined [.dispatched h false false])
  | wake {w h events rest p refused soError} (hp : w.pimpls h = some p)
      (hout : events.epollout = true) :
      Stretch w (.batch (.socket h events :: rest)) (.wake refused soError)
        (w.callThen (Socket.writeBranch ⟨h, w.kernel, p⟩ refused soError).1
          (.readBranch h events rest) (wakeNotes w h p soError)
          (Socket.writeBranch ⟨h, w.kernel, p⟩ refused soError).2.1)
  | noWake {w h events rest p} (hp : w.pimpls h = some p) (hout : events.epollout = false) :
      Stretch w (.batch (.socket h events :: rest)) .go
        (.goto w (.readBranch h events rest) [.dispatched h true p.valid])
  | noRead {w h events rest} (hin : events.epollin = false) :
      Stretch w (.readBranch h events rest) .go (.goto w (.batch rest) [])
  | dangling {w h events rest} (hin : events.epollin = true) (hp : w.pimpls h = none) :
      Stretch w (.readBranch h events rest) .go (.goto w .undefined [.reads h false false])
  | accept {w h events rest p a refused} (hin : events.epollin = true)
      (hp : w.pimpls h = some p) (hlistening : p.listening = true)
      (ha : Socket.Accepts ⟨h, w.kernel, p⟩ a) (hopens : w.Opens a) :
      Stretch w (.readBranch h events rest) (.accept a refused)
        (w.acceptBranch ⟨h, w.kernel, p⟩ rest refused a)
  | receive {w h events rest p a s cb} (hin : events.epollin = true)
      (hp : w.pimpls h = some p) (hlistening : p.listening = false)
      (ha : Socket.Receives ⟨h, w.kernel, p⟩ a)
      (hreceive : Socket.receiveBranch ⟨h, w.kernel, p⟩ a = (s, .callback cb)) :
      Stretch w (.readBranch h events rest) (.recv a)
        (w.callThen s (.batch rest) [.reads h true p.valid] cb)
  | badFunctionCall {w h events rest p a s} (hin : events.epollin = true)
      (hp : w.pimpls h = some p) (hlistening : p.listening = false)
      (ha : Socket.Receives ⟨h, w.kernel, p⟩ a)
      (hreceive : Socket.receiveBranch ⟨h, w.kernel, p⟩ a = (s, .badFunctionCall)) :
      Stretch w (.readBranch h events rest) (.recv a) (.throw (w.put s) [.reads h true p.valid])
  | newSocket {w o rest w' ns} (hdestruct : w.destruct o = some (w', ns)) :
      Stretch w (.newSocket o rest) .go (.goto w' (.batch rest) ns)
  | done {w r} : Stretch w (.done r) .go (.ret w r [])

section
variable {w : World} {f : Frame} {a : Answer} {out : Next}

theorem stretch_of_api {op : Op} (h : w.api op a = some out) : Stretch w (.api op) a out := by
  cases op with
  | waitForInput =>
    cases a <;> cases h
    exact .waitForInput
  | stop =>
    cases a <;> cases h
    exact .stop
  | socket =>
    cases a <;> simp only [World.api, reduceCtorEq] at h
    split at h <;> cases h
    exact .socket ‹_›
  | adopt =>
    cases a <;> cases h
    exact .adopt
  | move =>
    cases a <;> simp only [World.api, reduceCtorEq] at h
    obtain ⟨s, hs, hrest⟩ := Option.bind_eq_some_iff.mp h
    obtain ⟨w', hown, hret⟩ := Option.bind_eq_some_iff.mp hrest
    cases hret
    exact .move hs hown
  | assign =>
    cases a <;> simp only [World.api, reduceCtorEq] at h
    obtain ⟨⟨w', ns⟩, hassign, hret⟩ := Option.bind_eq_some_iff.mp h
    cases hret
    exact .assign hassign
  | destroy =>
    cases a <;> simp only [World.api, reduceCtorEq] at h
    obtain ⟨⟨w', ns⟩, hdestruct, hret⟩ := Option.bind_eq_some_iff.mp h
    cases hret
    exact .destroy hdestruct
  | close =>
    cases a <;> simp only [World.api, reduceCtorEq] at h
    obtain ⟨⟨w', ns⟩, hclose, hret⟩ := Option.bind_eq_some_iff.mp h
    cases hret
    exact .close hclose
  | connect =>
    cases a <;> simp only [World.api, reduceCtorEq] at h
    obtain ⟨s, hs, hret⟩ := Option.bind_eq_some_iff.mp h
    cases hret
    exact .connect hs
  | listen =>
    cases a <;> simp only [World.api, reduceCtorEq] at h
    obtain ⟨s, hs, hret⟩ := Option.bind_eq_some_iff.mp h
    cases hret
    exact .listen hs
  | write =>
    cases a <;> simp only [World.api, reduceCtorEq] at h
    obtain ⟨s, hs, hrest⟩ := Option.bind_eq_some_iff.mp h
    obtain ⟨written, hwrite, hret⟩ := Option.bind_eq_some_iff.mp hrest
    cases hret
    exact .write hs hwrite
  | callbacks =>
    cases a <;> simp only [World.api, reduceCtorEq] at h
    obtain ⟨s, hs, hret⟩ := Option.bind_eq_some_iff.mp h
    cases hret
    exact .callbacks hs
  | otherCall opens e =>
    cases a <;> rcases opens with _ | n <;> simp only [World.api, reduceCtorEq] at h
    · cases h
      exact .otherCall
    · split at h <;> cases h
      exact .otherOpen (Bool.not_eq_true _ ▸ ‹_›)

theorem stretch_of_handleEvent {h : Nat} {events : Events} {rest : List Ready}
    (hres : w.handleEvent h events rest a = some out) :
    Stretch w (.batch (.socket h events :: rest)) a out := by
  unfold World.handleEvent at hres
  split at hres
  · split at hres
    · subst ‹a = .go›
      cases hres
      exact .gone ‹_›
    · cases hres
  · split at hres
    · cases a <;> simp only [reduceCtorEq] at hres
      cases hres
      exact .wake ‹_› ‹_›
    · split at hres
      · subst ‹a = .go›
        cases hres
        exact .noWake ‹_› (Bool.not_eq_true _ ▸ ‹_›)
      · cases hres

theorem stretch_of_readBranch {h : Nat} {events : Events} {rest : List Ready}
    (hres : w.readBranch h events rest a = some out) :
    Stretch w (.readBranch h events rest) a out := by
  unfold World.readBranch at hres
  split at hres
  · rename_i hin
    split at hres
    · split at hres
      · subst ‹a = .go›
        cases hres
        exact .dangling hin ‹_›
      · cases hres
    · rename_i p hp
      dsimp only at hres
      split at hres
      · rename_i hlistening
        cases a <;> simp only [reduceCtorEq] at hres
        split at hres
        · rename_i ha
          cases hres
          exact .accept hin hp hlistening ha.1 ha.2
        · cases hres
      · rename_i hlistening
        rw [Bool.not_eq_true] at hlistening
        cases a <;> simp only [reduceCtorEq] at hres
        split at hres
        · rename_i ha
          split at hres <;> cases hres
          · exact .receive hin hp hlistening ha ‹_›
          · exact .badFunctionCall hin hp hlistening ha ‹_›
        · cases hres
  · split at hres
    · subst ‹a = .go›
      cases hres
      exact .noRead (Bool.not_eq_true _ ▸ ‹_›)
    · cases hres

/-- **The code takes no other ways.** -/
theorem stretch_of_resume (h : resume w f a = some out) : Stretch w f a out := by
  cases f with
  | api op => exact stretch_of_api h
  | loop =>
    cases a <;> simp only [resume, reduceCtorEq] at h
    · split at h
      · obtain ⟨ready, hready, rfl⟩ := Option.map_eq_some_iff.mp h
        exact .ready ‹_› hready
      · cases h
    · split at h
      · rename_i hrun
        cases h
        exact .waitFailed hrun.1 hrun.2
      · cases h
    · split at h <;> cases h
      exact .stopped (Bool.not_eq_true _ ▸ ‹_›)
  | batch events =>
    rcases events with _ | ⟨_ | _, rest⟩
    · cases a <;> cases h
      exact .batchEnd
    · exact stretch_of_handleEvent h
    · cases a <;> cases h
      exact .other
  | readBranch x events rest => exact stretch_of_readBranch h
  | newSocket o rest =>
    cases a <;> simp only [resume, reduceCtorEq] at h
    obtain ⟨⟨w', ns⟩, hdestruct, rfl⟩ := Option.map_eq_some_iff.mp h
    exact .newSocket hdestruct
  | done r =>
    cases a <;> cases h
    exact .done
  | undefined => cases a <;> cases h

/-- The socket an object owns is the pimpl it points to, with the kernel. -/
theorem World.owned_iff {o : Nat} {s : Socket} : w.owned o = some s ↔
    ∃ p, w.objects o = some (some s.this) ∧ w.pimpls s.this = some p ∧
      s = ⟨s.this, w.kernel, p⟩ := by
  unfold owned
  constructor
  · intro hs
    obtain ⟨h, hobj, hs⟩ := Option.bind_eq_some_iff.mp hs
    obtain ⟨p, hp, rfl⟩ := Option.map_eq_some_iff.mp hs
    exact ⟨p, Option.join_eq_some_iff.mp hobj, hp, rfl⟩
  · rintro ⟨p, hobj, hp, hs⟩
    rw [Option.join_eq_some_iff.mpr hobj, hs]
    simp [hp]

@[simp] theorem World.callThen_state {s : Socket} {ns : List Note} {cb : Option Callback} :
    (w.callThen s f ns cb).state = w.put s := by
  cases cb <;> rfl

/-! ### The operations that close a socket -/

/-- The destructor: the object goes, then what it owned. -/
theorem World.destruct_some {w' : World} {o : Nat} {ns : List Note}
    (h : w.destruct o = some (w', ns)) :
    ∃ pimpl, w.objects o = some pimpl ∧
      w' = (World.reset { w with objects := Function.update w.objects o none } pimpl).1 ∧
      ns = (World.reset { w with objects := Function.update w.objects o none } pimpl).2 := by
  obtain ⟨pimpl, hobj, hreset⟩ := Option.map_eq_some_iff.mp h
  exact ⟨pimpl, hobj, (congrArg Prod.fst hreset).symm, (congrArg Prod.snd hreset).symm⟩

/-- `close` of an object that was moved from does nothing. -/
theorem World.closeObject_some {w' : World} {o : Nat} {ns : List Note}
    (h : w.closeObject o = some (w', ns)) :
    w.objects o = some none ∧ w' = w ∧ ns = [] ∨
      ∃ x p, w.objects o = some (some x) ∧ w.pimpls x = some p ∧ ns = [.closed x] ∧
        w' = { w with
          kernel := (Socket.close ⟨x, w.kernel, p⟩).kernel
          pimpls := Function.update w.pimpls x (some (Socket.close ⟨x, w.kernel, p⟩).pimpl) } := by
  obtain ⟨pimpl, hobj, hrest⟩ := Option.bind_eq_some_iff.mp h
  cases pimpl with
  | none =>
    cases hrest
    exact .inl ⟨hobj, rfl, rfl⟩
  | some x =>
    obtain ⟨p, hp, hret⟩ := Option.bind_eq_some_iff.mp hrest
    cases hret
    refine .inr ⟨x, p, hobj, hp, rfl, ?_⟩
    have hthis : (Socket.close ⟨x, w.kernel, p⟩).this = x := by
      unfold Socket.close
      split <;> rfl
    rw [put, hthis]

/-- Move assignment: `other` gives its pimpl away, the old one of `o` goes, and `o` gets
the new one. -/
theorem World.assign_some {w' : World} {o other : Nat} {ns : List Note}
    (h : w.assign o other = some (w', ns)) :
    ∃ s pimpl, w.owned other = some s ∧ (w.release other).objects o = some pimpl ∧
      ((w.release other).reset pimpl).1.own o s.this = some w' ∧
      ns = ((w.release other).reset pimpl).2 := by
  obtain ⟨s, hs, hrest⟩ := Option.bind_eq_some_iff.mp h
  obtain ⟨pimpl, hobj, hrest⟩ := Option.bind_eq_some_iff.mp hrest
  refine ⟨s, pimpl, hs, hobj, ?_⟩
  generalize (w.release other).reset pimpl = r at hrest ⊢
  obtain ⟨v, ms⟩ := r
  obtain ⟨v', hown, hret⟩ := Option.bind_eq_some_iff.mp hrest
  cases hret
  exact ⟨hown, rfl⟩

/-! ### What they log -/

theorem World.reset_closed (w : World) (pimpl : Option Nat) :
    ∀ n ∈ (w.reset pimpl).2, ∃ x, n = .closed x := by
  intro n hn
  cases pimpl with
  | none => cases hn
  | some x => exact ⟨x, List.mem_singleton.mp hn⟩

theorem World.destruct_closed {w' : World} {o : Nat} {ns : List Note}
    (h : w.destruct o = some (w', ns)) : ∀ n ∈ ns, ∃ x, n = .closed x := by
  obtain ⟨pimpl, -, -, rfl⟩ := destruct_some h
  exact reset_closed _ _

theorem World.closeObject_closed {w' : World} {o : Nat} {ns : List Note}
    (h : w.closeObject o = some (w', ns)) : ∀ n ∈ ns, ∃ x, n = .closed x := by
  intro n hn
  obtain ⟨-, -, rfl⟩ | ⟨x, p, -, -, rfl, -⟩ := closeObject_some h
  · cases hn
  · exact ⟨x, List.mem_singleton.mp hn⟩

theorem World.assign_closed {w' : World} {o other : Nat} {ns : List Note}
    (h : w.assign o other = some (w', ns)) : ∀ n ∈ ns, ∃ x, n = .closed x := by
  obtain ⟨s, pimpl, -, -, -, rfl⟩ := assign_some h
  exact reset_closed _ _

end

end Linux
end AcppNetwork
