import AcppNetwork.LinuxSteps
import AcppNetwork.MacosSteps

/-!
# Callbacks that are not set

Calling an empty `std::function` throws `std::bad_function_call`.  Both event loops test a
callback before they call it, but for what `recv` finds: there it is only tested that one
of `on_received` and `on_disconnected` is set, and then the one that is called depends on
the bytes.  The macOS loop tests `on_received` again; the end of the stream goes to
`on_disconnected` in both, and on Linux bytes go to `on_received`, set or not.

So a callback that is called is one that is set, and no `std::bad_function_call` leaves
the loop exactly if every `recv` finds the callback set that its result is for
(`callbacks_assigned_iff`).
-/
namespace AcppNetwork

open Reentrant

namespace Linux

/-- The callback for what `recv` found is set. -/
def Callbacks.Takes (cbs : Callbacks) : Recv → Prop
  | .received [] => cbs.onDisconnected = true
  | .received (_ :: _) => cbs.onReceived = true
  | .failed _ => True

instance (cbs : Callbacks) (a : Recv) : Decidable (cbs.Takes a) := by
  rcases a with (_ | _) | e <;> unfold Callbacks.Takes <;> infer_instance

/-- The callback is set on a pimpl whose parent it is handed. -/
def World.Assigned (w : World) : CallOut → Prop
  | .callback parent cb =>
      ∃ h p, w.pimpls h = some p ∧ p.parent = parent ∧ p.callbacks.call? cb = some cb
  | .other => True

/-- At the branch for `EPOLLIN`: an exception that starts there is
`std::bad_function_call`. -/
def Frame.Reads : Frame → Prop
  | .readBranch _ _ _ => True
  | _ => False

/-- An event calls out a callback that is set, and no `std::bad_function_call`. -/
def InvokesAssigned (c : Configuration) (e : Event Op Answer) : Prop :=
  CallsOut object World.Assigned c e ∧ ¬ ThrowsAt (fun _ f => f.Reads) c e

/-- What `recv` finds has its callback, if it is called. -/
def World.Expects (w : World) (f : Frame) (a : Answer) : Prop :=
  match f, a with
  | .readBranch h _ _, .recv a => ∀ p ∈ w.pimpls h,
      (p.callbacks.onReceived || p.callbacks.onDisconnected) = true → p.callbacks.Takes a
  | _, _ => True

instance (w : World) (f : Frame) (a : Answer) : Decidable (w.Expects f a) := by
  rcases f with ⟨⟩ <;> rcases a with ⟨⟩ <;> unfold World.Expects <;> infer_instance

section
variable {w : World} {f : Frame} {a : Answer} {out : Next} {s : Socket}

/-- What is called is what was asked for. -/
theorem Callbacks.call?_self {cbs : Callbacks} {cb cb' : Callback}
    (h : cbs.call? cb = some cb') : cbs.call? cb' = some cb' := by
  obtain rfl := call?_eq_some h
  exact h

/-- `so_write` calls `on_error` only if it is set. -/
theorem Socket.soWrite_callback {buffer : List Byte} {as : List Send} {written : Written}
    {cb : Callback} (h : s.soWrite buffer as = some written) (hcb : written.callback = some cb) :
    s.pimpl.callbacks.call? cb = some cb := by
  induction as generalizing s buffer written with
  | nil => cases h
  | cons a as ih =>
    obtain ⟨-, ⟨-, rfl⟩ | ⟨w', hw', rfl⟩⟩ := soWrite_cons h
    · cases a with
      | sent n => cases hcb
      | failed e refused =>
        simp only [soWriteInternal] at hcb
        split at hcb
        · cases hcb
        · dsimp only at hcb
          exact Callbacks.call?_self hcb
    · have hrest := ih hw' hcb
      rwa [(soWriteInternal_rearms s a).callbacks] at hrest

/-- The branch for `EPOLLOUT` calls what is set. -/
theorem Socket.writeBranch_assigned {refused : Option Nat} {soError : Nat} {cb : Callback}
    (h : (s.writeBranch refused soError).2.1 = some cb) : s.pimpl.callbacks.call? cb = some cb := by
  have hcbs : (s.setEvents ⟨true, false⟩ refused).1.pimpl.callbacks = s.pimpl.callbacks :=
    setEvents_callbacks _ _
  unfold writeBranch at h
  generalize s.setEvents ⟨true, false⟩ refused = r at hcbs h
  obtain ⟨t, failures⟩ := r
  dsimp only at hcbs h
  rw [← hcbs]
  split at h
  · split at h <;> dsimp only at h <;> exact Callbacks.call?_self h
  · dsimp only at h
    exact Callbacks.call?_self h

/-- What the branch for `EPOLLIN` calls is set. -/
theorem Socket.receiveBranch_assigned {s' : Socket} {a : Recv} {cb : Callback}
    (h : s.receiveBranch a = (s', .callback (some cb))) :
    s.pimpl.callbacks.call? cb = some cb := by
  unfold receiveBranch at h
  split at h
  · split at h
    · split at h
      · rename_i cb' hcb
        cases h
        exact Callbacks.call?_self hcb
      · cases h
    · split at h
      · rename_i cb' hcb
        cases h
        exact Callbacks.call?_self hcb
      · cases h
    · simp only [Prod.mk.injEq, Delivery.callback.injEq] at h
      exact Callbacks.call?_self h.2
  · cases h

/-- An empty function is called exactly if the callback is missing that what `recv` found
is for. -/
theorem Socket.receiveBranch_bad {a : Recv} :
    (s.receiveBranch a).2 = .badFunctionCall ↔
      ¬ ((s.pimpl.callbacks.onReceived || s.pimpl.callbacks.onDisconnected) = true →
        s.pimpl.callbacks.Takes a) := by
  unfold receiveBranch
  by_cases hset : (s.pimpl.callbacks.onReceived || s.pimpl.callbacks.onDisconnected) = true
  · rw [if_pos hset]
    cases a with
    | received buffer =>
      cases buffer with
      | nil =>
        cases h : s.pimpl.callbacks.onDisconnected with
        | true => simp [Callbacks.call?, Callbacks.Takes, h]
        | false =>
          rw [h, Bool.or_false] at hset
          simp [Callbacks.call?, Callbacks.Takes, h, hset]
      | cons b bs =>
        cases h : s.pimpl.callbacks.onReceived with
        | true => simp [Callbacks.call?, Callbacks.Takes, h]
        | false =>
          rw [h, Bool.false_or] at hset
          simp [Callbacks.call?, Callbacks.Takes, h, hset]
    | failed e => simp [Callbacks.Takes]
  · rw [if_neg hset]
    simp [hset]

/-- What `callThen` calls is set, if it is set on the pimpl it is for. -/
theorem World.callThen_assigned {ns : List Note} {cb : Option Callback} {h : Nat}
    {p : SocketBasePimpl} (hp : w.pimpls h = some p) (hparent : s.pimpl.parent = p.parent)
    (hcb : ∀ cb', cb = some cb' → p.callbacks.call? cb' = some cb') :
    ∀ k ∈ (w.callThen s f ns cb).callOuts, w.Assigned k := by
  intro k hk
  cases cb with
  | none => cases hk
  | some cb' =>
    obtain rfl := List.mem_singleton.mp hk
    exact ⟨h, p, hp, hparent.symm, hcb cb' rfl⟩

/-- **Every callback the Linux backend calls is set.** -/
theorem assigned_of_resume (hres : resume w f a = some out) :
    ∀ k ∈ out.callOuts, w.Assigned k := by
  cases stretch_of_resume hres with
  | write hs hwrite =>
    obtain ⟨p, -, hp, heq⟩ := World.owned_iff.mp hs
    have hpimpl := congrArg Socket.pimpl heq
    refine World.callThen_assigned hp ?_ fun cb hcb => ?_
    · rw [(Socket.soWrite_rearms hwrite).parent, hpimpl]
    · have hset := Socket.soWrite_callback hwrite hcb
      rwa [hpimpl] at hset
  | other =>
    intro k hk
    obtain rfl := List.mem_singleton.mp hk
    trivial
  | wake hp hout =>
    refine World.callThen_assigned hp (Socket.writeBranch_rearms ..).parent fun cb hcb => ?_
    exact Socket.writeBranch_assigned hcb
  | @accept h events rest p a refused hin hp hlistening ha hopens =>
    cases a with
    | failed e =>
      exact World.callThen_assigned hp rfl fun cb hcb => Callbacks.call?_self hcb
    | fd n =>
      simp only [World.acceptBranch]
      split
      · rename_i hset
        intro k hk
        obtain rfl := List.mem_singleton.mp hk
        exact ⟨h, p, hp, rfl, if_pos hset⟩
      · intro k hk
        cases hk
  | @receive h events rest p a s cb hin hp hlistening ha hreceive =>
    have hparent := (Socket.receiveBranch_rearms ⟨h, w.kernel, p⟩ a).parent
    rw [hreceive] at hparent
    refine World.callThen_assigned hp hparent fun cb' hcb => ?_
    subst hcb
    exact Socket.receiveBranch_assigned hreceive
  | _ =>
    intro k hk
    cases hk

/-- **When the branch for `EPOLLIN` throws.** -/
theorem throws_iff_of_resume (hres : resume w f a = some out) :
    out.throws = true ∧ f.Reads ↔ ¬ w.Expects f a := by
  have hquiet : out.throws = false → w.Expects f a → (out.throws = true ∧ f.Reads ↔
      ¬ w.Expects f a) := by
    intro hthrows hexpects
    rw [hthrows]
    exact iff_of_false (fun h => Bool.false_ne_true h.1) (fun h => h hexpects)
  have hcallThen : ∀ (s : Socket) (g : Frame) (ns : List Note) (cb : Option Callback),
      (w.callThen s g ns cb).throws = false := by
    intro s g ns cb
    cases cb <;> rfl
  cases stretch_of_resume hres with
  | write => exact hquiet (hcallThen ..) trivial
  | wake => exact hquiet (hcallThen ..) trivial
  | waitFailed => exact iff_of_false (fun h => h.2) (fun h => h trivial)
  | @accept h events rest p a refused =>
    refine hquiet ?_ trivial
    cases a with
    | failed e => exact hcallThen ..
    | fd n =>
      simp only [World.acceptBranch]
      split <;> rfl
  | @receive h events rest p a s cb hin hp hlistening ha hreceive =>
    refine hquiet (hcallThen ..) fun q hq => ?_
    obtain rfl : p = q := Option.some.inj (hp.symm.trans hq)
    by_contra hnot
    have hbad := Socket.receiveBranch_bad (s := ⟨h, w.kernel, p⟩).mpr hnot
    rw [hreceive] at hbad
    cases hbad
  | @badFunctionCall h events rest p a s hin hp hlistening ha hreceive =>
    have hbad := Socket.receiveBranch_bad.mp (congrArg Prod.snd hreceive)
    exact iff_of_true ⟨rfl, trivial⟩ fun hexpects => hbad (hexpects p hp)
  | _ => exact hquiet rfl trivial

end
end Linux
namespace Macos

open Linux (Callbacks Callback Recv CallOut)

/-- The callback is set on a pimpl whose parent it is handed. -/
def World.Assigned (w : World) : CallOut → Prop
  | .callback parent cb =>
      ∃ h p, w.pimpls h = some p ∧ p.parent = parent ∧ p.callbacks.call? cb = some cb
  | .other => True

/-- In the loop over `recv`: an exception that starts there is `std::bad_function_call`. -/
def Frame.Reads : Frame → Prop
  | .receive _ _ => True
  | _ => False

/-- An event calls out a callback that is set, and no `std::bad_function_call`. -/
def InvokesAssigned (c : Configuration) (e : Event Op Answer) : Prop :=
  CallsOut object World.Assigned c e ∧ ¬ ThrowsAt (fun _ f => f.Reads) c e

/-- At the end of the stream `on_disconnected` is set. -/
def World.Expects (w : World) (f : Frame) (a : Answer) : Prop :=
  match f, a with
  | .receive h _, .recv (.received []) => ∀ p ∈ w.pimpls h, p.callbacks.onDisconnected = true
  | _, _ => True

instance (w : World) (f : Frame) (a : Answer) : Decidable (w.Expects f a) := by
  unfold World.Expects
  split <;> infer_instance

section
variable {w : World} {f : Frame} {a : Answer} {out : Next} {s : Socket}

/-- `so_write` calls `on_error` only if it is set. -/
theorem Socket.soWrite_callback {buffer : List Byte} {as : List Linux.Send} {written : Written}
    {cb : Callback} (h : s.soWrite buffer as = some written) (hcb : written.callback = some cb) :
    s.pimpl.callbacks.call? cb = some cb := by
  have hturn : ∀ {s : Socket} {a : Linux.Send}, (s.soWriteInternal a).callback = some cb →
      s.pimpl.callbacks.call? cb = some cb := by
    intro s a hcb
    cases a with
    | sent n => cases hcb
    | failed e refused =>
      simp only [soWriteInternal] at hcb
      split at hcb
      · split at hcb <;> cases hcb
      · dsimp only at hcb
        exact Callbacks.call?_self hcb
  induction as generalizing s buffer written with
  | nil => simp [soWrite] at h
  | cons a as ih =>
    rw [soWrite] at h
    dsimp only at h
    split at h
    · split at h
      · split at h <;> cases h
        exact hturn hcb
      · split at h <;> cases h
        exact hturn hcb
      · obtain ⟨next, hnext, rfl⟩ := Option.map_eq_some_iff.mp h
        have hrest := ih hnext hcb
        rwa [(writes_soWriteInternal s a).pimpl] at hrest
    · cases h

/-- What `callThen` calls is set, if it is set on the pimpl it is for. -/
theorem World.callThen_assigned {cb : Option Callback} {h : Nat} {p : SocketBasePimpl}
    (hp : w.pimpls h = some p) (hparent : s.pimpl.parent = p.parent)
    (hcb : ∀ cb', cb = some cb' → p.callbacks.call? cb' = some cb') :
    ∀ k ∈ (w.callThen s f cb).callOuts, w.Assigned k := by
  intro k hk
  cases cb with
  | none => cases hk
  | some cb' =>
    obtain rfl := List.mem_singleton.mp hk
    exact ⟨h, p, hp, hparent.symm, hcb cb' rfl⟩

/-- The branch for a socket that listens: it calls out `on_accepted` with the new socket, if
that could be made. -/
theorem World.accepted_callOuts {rest : List Ready} {refused again : Option Nat} {n : Nat} :
    ∀ k ∈ (w.accepted s rest refused again n).callOuts,
      k = .callback s.pimpl.parent (.onAccepted w.fresh) := by
  intro k hk
  unfold World.accepted at hk
  split at hk
  · dsimp only at hk
    split at hk
    · exact List.mem_singleton.mp hk
    · cases hk
  · cases hk

/-- **Every callback the macOS backend calls is set.** -/
theorem assigned_of_resume (hres : resume w f a = some out) :
    ∀ k ∈ out.callOuts, w.Assigned k := by
  cases stretch_of_resume hres with
  | socket | adopt =>
    intro k hk
    unfold World.constructed at hk
    split at hk <;> cases hk
  | connect =>
    intro k hk
    unfold World.connect at hk
    split at hk <;> cases hk
  | listen =>
    intro k hk
    unfold World.listen at hk
    split at hk <;> cases hk
  | write hs hwrite =>
    obtain ⟨p, -, hp, heq⟩ := World.owned_iff.mp hs
    have hpimpl := congrArg Socket.pimpl heq
    unfold World.write
    split
    · refine World.callThen_assigned hp ?_ fun cb hcb => ?_
      · rw [(Socket.writes_soWrite hwrite).pimpl, hpimpl]
      · have hset := Socket.soWrite_callback hwrite hcb
        rwa [hpimpl] at hset
    · intro k hk
      cases hk
  | other =>
    intro k hk
    obtain rfl := List.mem_singleton.mp hk
    trivial
  | @accept h rest p a refused again hp hlistening ha hopens =>
    cases a with
    | failed e =>
      have hparent : (Socket.setErrno (Socket.taken ⟨h, w.kernel, p⟩ (.failed e)) e).pimpl.parent =
          p.parent := by
        simp only [Socket.taken]
        split <;> rfl
      exact World.callThen_assigned hp hparent fun cb hcb => Callbacks.call?_self hcb
    | fd n =>
      simp only [World.acceptBranch]
      split
      · rename_i hset
        intro k hk
        obtain rfl := World.accepted_callOuts k hk
        exact ⟨h, p, hp, rfl, if_pos hset⟩
      · intro k hk
        cases hk
  | sent hp hconnected =>
    exact World.callThen_assigned hp rfl fun cb hcb => Callbacks.call?_self hcb
  | connected hp hconnected hgetsockopt =>
    exact World.callThen_assigned hp rfl fun cb hcb => Callbacks.call?_self hcb
  | notConnected hp hconnected hgetsockopt herr =>
    exact World.callThen_assigned hp rfl fun cb hcb => Callbacks.call?_self hcb
  | @received h rest p a hp ha =>
    cases a with
    | failed e =>
      refine World.callThen_assigned hp rfl fun cb hcb => ?_
      split at hcb
      · cases hcb
      · exact Callbacks.call?_self hcb
    | received buffer =>
      cases buffer with
      | nil =>
        simp only [World.received]
        split
        · rename_i cb hcb
          refine World.callThen_assigned hp rfl fun cb' hcb' => ?_
          exact Callbacks.call?_self (hcb.trans hcb')
        · intro k hk
          cases hk
      | cons b bs => exact World.callThen_assigned hp rfl fun cb hcb => Callbacks.call?_self hcb
  | asked | askFailed | _ =>
    intro k hk
    cases hk

/-- **When the loop over `recv` throws.** -/
theorem throws_iff_of_resume (hres : resume w f a = some out) :
    out.throws = true ∧ f.Reads ↔ ¬ w.Expects f a := by
  have hother : ¬ f.Reads → w.Expects f a → (out.throws = true ∧ f.Reads ↔ ¬ w.Expects f a) :=
    fun hreads hexpects => iff_of_false (fun h => hreads h.2) (fun h => h hexpects)
  have hquiet : out.throws = false → w.Expects f a → (out.throws = true ∧ f.Reads ↔
      ¬ w.Expects f a) := by
    intro hthrows hexpects
    rw [hthrows]
    exact iff_of_false (fun h => Bool.false_ne_true h.1) (fun h => h hexpects)
  cases stretch_of_resume hres with
  | elsewhere => exact hquiet rfl (by cases f <;> trivial)
  | dangling => exact hquiet rfl trivial
  | @received h rest p a hp ha =>
    cases a with
    | failed e => exact hquiet (World.callThen_throws ..) trivial
    | received buffer =>
      cases buffer with
      | cons b bs => exact hquiet (World.callThen_throws ..) trivial
      | nil =>
        simp only [World.received]
        split
        · rename_i cb hcb
          refine iff_of_false (fun hthrows => ?_) (fun hnot => hnot fun q hq => ?_)
          · rw [World.callThen_throws] at hthrows
            exact Bool.false_ne_true hthrows.1
          · obtain rfl : p = q := Option.some.inj (hp.symm.trans hq)
            exact (Option.ite_none_right_eq_some.mp hcb).1
        · rename_i hnone
          refine iff_of_true ⟨rfl, trivial⟩ fun hexpects => ?_
          have hset := hexpects p hp
          exact absurd hnone (by simp [Callbacks.call?, hset])
  | _ => exact hother id trivial

end
end Macos
/-! ## Both backends -/

/-- **When no callback is called that is not set.**  In every run of either backend the
callbacks that are called are set, and no `std::bad_function_call` is thrown exactly if every
`recv` finds the callback set that its result is for: at the end of the stream
`on_disconnected`; for bytes `on_received`, on macOS tested. -/
theorem callbacks_assigned_iff {es : List (Event Linux.Op Linux.Answer)} {c : Linux.Configuration}
    {es' : List (Event Macos.Op Macos.Answer)} {c' : Macos.Configuration}
    (hr : Runs.run (step Linux.object) (Config.start Linux.World.new) es = some c)
    (hr' : Runs.run (step Macos.object) (Config.start Macos.World.new) es' = some c') :
    (Runs.Along (step Linux.object) Linux.InvokesAssigned (Config.start Linux.World.new) es ↔
      Runs.Along (step Linux.object) (Before fun w f _ a => w.Expects f a)
        (Config.start Linux.World.new) es) ∧
    (Runs.Along (step Macos.object) Macos.InvokesAssigned (Config.start Macos.World.new) es' ↔
      Runs.Along (step Macos.object) (Before fun w f _ a => w.Expects f a)
        (Config.start Macos.World.new) es') := by
  constructor
  · exact callsOut_throwsAt_iff (fun _ _ _ _ hres => Linux.assigned_of_resume hres)
      (fun _ _ _ _ _ hres => Linux.throws_iff_of_resume hres) hr
  · exact callsOut_throwsAt_iff (fun _ _ _ _ hres => Macos.assigned_of_resume hres)
      (fun _ _ _ _ _ hres => Macos.throws_iff_of_resume hres) hr'

/-- A client with `on_connected`, `on_received`, `on_sent` and `on_error` connects, and its
socket becomes readable. -/
def Linux.clientRun : List (Event Op Answer) :=
  [.call (.socket 2 1 6 ⟨true, false, true, true, false, true⟩), .code (.opened (.fd 5)),
    .call (.connect 0), .code (.call none (some EINPROGRESS)), .call .waitForInput, .code .go,
    .code (.ready [some (5, ⟨false, true⟩)]), .code (.wake none 0), .back, .code .go, .code .go,
    .code (.ready [some (5, ⟨true, false⟩)]), .code .go]

/-- The same client on macOS. -/
def Macos.clientRun : List (Event Op Answer) :=
  [.call (.api (.socket 2 1 6 ⟨true, false, true, true, false, true⟩)),
    .code (.opened (.fd 5) none), .call (.api (.connect 0)),
    .code (.call none (some EINPROGRESS)), .call (.api .waitForInput), .code .go,
    .code (.elsewhere (.activates .write 5)), .code (.ready [some (.write, 5)]), .code (.wake 0),
    .back, .code (.ask none), .code .go, .code (.elsewhere (.activates .read 5)),
    .code (.ready [some (.read, 5)]), .code .go]

/-- The client receives what the server sends. -/
theorem callbacks_assigned_received :
    (∃ c, Runs.run (step Linux.object) (Config.start Linux.World.new)
        (Linux.clientRun ++ [.code (.recv (.received [104, 111]))]) = some c ∧
      callOuts c.log = [.callback 0 .onConnected, .callback 0 (.onReceived [104, 111])] ∧
      Runs.Along (step Linux.object) Linux.InvokesAssigned (Config.start Linux.World.new)
        (Linux.clientRun ++ [.code (.recv (.received [104, 111]))])) ∧
    ∃ c, Runs.run (step Macos.object) (Config.start Macos.World.new)
        (Macos.clientRun ++ [.code (.recv (.received [104, 111]))]) = some c ∧
      callOuts c.log = [.callback 0 .onConnected, .callback 0 (.onReceived [104, 111])] ∧
      Runs.Along (step Macos.object) Macos.InvokesAssigned (Config.start Macos.World.new)
        (Macos.clientRun ++ [.code (.recv (.received [104, 111]))]) := by
  obtain ⟨c, hr, hcalls⟩ : ∃ c, Runs.run (step Linux.object) (Config.start Linux.World.new)
      (Linux.clientRun ++ [.code (.recv (.received [104, 111]))]) = some c ∧
      callOuts c.log = [.callback 0 .onConnected, .callback 0 (.onReceived [104, 111])] :=
    Runs.exists_run (by decide)
  obtain ⟨c', hr', hcalls'⟩ : ∃ c, Runs.run (step Macos.object) (Config.start Macos.World.new)
      (Macos.clientRun ++ [.code (.recv (.received [104, 111]))]) = some c ∧
      callOuts c.log = [.callback 0 .onConnected, .callback 0 (.onReceived [104, 111])] :=
    Runs.exists_run (by decide)
  obtain ⟨hlinux, hmacos⟩ := callbacks_assigned_iff hr hr'
  exact ⟨⟨c, hr, hcalls, hlinux.mpr (by decide)⟩, c', hr', hcalls', hmacos.mpr (by decide)⟩

/-- The server closes, and `std::bad_function_call` leaves `wait_for_input`. -/
theorem unassigned_called :
    (∃ c, Runs.run (step Linux.object) (Config.start Linux.World.new)
        (Linux.clientRun ++ [.unwind (.recv (.received [])) 0]) = some c ∧
      c.log.getLast? = some .thrown ∧
      ¬ Runs.Along (step Linux.object) Linux.InvokesAssigned (Config.start Linux.World.new)
        (Linux.clientRun ++ [.unwind (.recv (.received [])) 0])) ∧
    ∃ c, Runs.run (step Macos.object) (Config.start Macos.World.new)
        (Macos.clientRun ++ [.unwind (.recv (.received [])) 0]) = some c ∧
      c.log.getLast? = some .thrown ∧
      ¬ Runs.Along (step Macos.object) Macos.InvokesAssigned (Config.start Macos.World.new)
        (Macos.clientRun ++ [.unwind (.recv (.received [])) 0]) := by
  constructor
  · obtain ⟨c, hr, hlog⟩ : ∃ c, Runs.run (step Linux.object) (Config.start Linux.World.new)
        (Linux.clientRun ++ [.unwind (.recv (.received [])) 0]) = some c ∧
        c.log.getLast? = some .thrown := Runs.exists_run (by decide)
    obtain ⟨d, hd, hstack⟩ : ∃ d, Runs.run (step Linux.object) (Config.start Linux.World.new)
        Linux.clientRun = some d ∧ d.stack = [.code (.readBranch 0 ⟨true, false⟩ [])] :=
      Runs.exists_run (by decide)
    exact ⟨c, hr, hlog, fun hall => (hall.rest hd).1.2 ⟨_, _, hstack, trivial⟩⟩
  · obtain ⟨c, hr, hlog⟩ : ∃ c, Runs.run (step Macos.object) (Config.start Macos.World.new)
        (Macos.clientRun ++ [.unwind (.recv (.received [])) 0]) = some c ∧
        c.log.getLast? = some .thrown := Runs.exists_run (by decide)
    obtain ⟨d, hd, hstack⟩ : ∃ d, Runs.run (step Macos.object) (Config.start Macos.World.new)
        Macos.clientRun = some d ∧ d.stack = [.code (.receive 0 [])] :=
      Runs.exists_run (by decide)
    exact ⟨c, hr, hlog, fun hall => (hall.rest hd).1.2 ⟨_, _, hstack, trivial⟩⟩

end AcppNetwork
