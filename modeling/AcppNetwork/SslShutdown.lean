import AcppNetwork.SslSteps

/-!
# The end of a connection

Three things end a connection: the peer's close_notify, the peer's answer to the
close_notify of `disconnect`, and the layer below calling `on_disconnected`.  The
layer above is told in one place only, at the end of `do_shutdown`, if `SSL_shutdown`
was the call that received the peer's close_notify.  `on_received` of a connected
stream answers a close_notify and tells nobody, so does an `SSL_read` that finds
one, and `on_disconnected` is empty.

Where the connection ends the one way that is reported, it is reported once
(`told_once`).  The argument is that of the handshake: first there is nothing to
report (`Open`), then one activation of `do_shutdown` is to report it (`Ending`),
and after that none is left that could (`Told`).
-/
namespace AcppNetwork
namespace Ssl

open Reentrant

/-- The connection has ended: the peer's close_notify was received, or the layer below
reported the end. -/
def Ended (c : Configuration) : Prop :=
  c.state.receivedShutdown = true ∨ .onDisconnected ∈ calls c.log

/-- The layer above is told once that the connection ended, and not before it has;
when no operation is under way it has been told. -/
structure ToldOnce (c : Configuration) : Prop where
  atMostOnce : (callOuts c.log).count .onDisconnected ≤ 1
  ended : .onDisconnected ∈ callOuts c.log → Ended c
  told : c.Quiet → Ended c → .onDisconnected ∈ callOuts c.log

/-! ## The condition -/

/-- The condition on the answers of the engine.  The peer's close_notify is received
by `SSL_shutdown`, which then returns 1, in an activation of `do_shutdown` with no
other under it in its `BIO_read` loop; `do_shutdown` makes no such call afterwards. -/
def CloseAnswered (s : Stream) (f : Frame) (fs : List Frame) (ans : Answer) : Prop :=
  match f, ans with
  | .doShutdown _, .engine a =>
      s.receivedShutdown = false ∧
        (a.closeNotifyReceived = true → a.result = 1 ∧ .doShutdownWrite ∉ fs)
  | _, .engine a => s.receivedShutdown = false → a.closeNotifyReceived = false
  | _, .go => True

/-- The condition on the calls.  The layer below reports the end only after the peer's
close_notify; and while the activation of `do_shutdown` that received it is in its
`BIO_read` loop, the layer below hands up nothing and does not connect again. -/
def EndsByClosing (s : Stream) (fs : List Frame) (o : Op) : Prop :=
  match o with
  | .onDisconnected => s.receivedShutdown = true
  | .onReceived _ => s.receivedShutdown = true → .doShutdownWrite ∉ fs
  | .onConnected => s.receivedShutdown = true → .doShutdownWrite ∈ fs → s.side = .server
  | .write _ | .disconnect => True

instance (s : Stream) (f : Frame) (fs : List Frame) (ans : Answer) :
    Decidable (CloseAnswered s f fs ans) := by
  rcases f with ⟨⟩ <;> rcases ans with ⟨⟩ <;> unfold CloseAnswered <;> infer_instance

instance (s : Stream) (fs : List Frame) (o : Op) : Decidable (EndsByClosing s fs o) := by
  cases o <;> unfold EndsByClosing <;> infer_instance

/-! ## The phases -/

/-- The frames of `do_shutdown` up to its notification. -/
def Frame.Ends : Frame → Prop
  | .doShutdownWrite | .doShutdownNotify => True
  | _ => False

/-- The frames of the operations of a closed stream that do nothing. -/
def Frame.Idle : Frame → Prop
  | .writeRejected _ | .done => True
  | _ => False

/-- The connection has not ended. -/
structure Open (s : Stream) (fs : List Frame) (ks : List CallOut) (os : List Op) : Prop where
  notReceived : s.receivedShutdown = false
  silent : .onDisconnected ∉ ks
  notReported : .onDisconnected ∉ os
  closing : ∀ f ∈ fs, f.Ends → s.status = .closing

/-- The peer's close_notify was received, and one activation of `do_shutdown` is to say
so. -/
structure Ending (s : Stream) (fs : List Frame) (ks : List CallOut) : Prop where
  received : s.receivedShutdown = true
  closed : s.status = .closed
  silent : .onDisconnected ∉ ks
  notifier : Due Frame.Idle Frame.Ends fs

/-- The layer above has been told. -/
structure Told (s : Stream) (fs : List Frame) (ks : List CallOut) : Prop where
  received : s.receivedShutdown = true
  once : ks.count .onDisconnected = 1
  spent : ∀ f ∈ fs, ¬ f.Ends

/-- One of the three. -/
def EndPhase (s : Stream) (fs : List Frame) (ks : List CallOut) (os : List Op) : Prop :=
  Open s fs ks os ∨ Ending s fs ks ∨ Told s fs ks

section
variable {s : Stream} {f : Frame} {fs kept : List Frame} {ks : List CallOut} {os : List Op}
  {ans : Answer} {out : Next}

/-- Of the frames of `do_shutdown` up to its notification, only the loop waits. -/
theorem Frame.Ends.waits (h : f.Ends) (hw : f.Waits) : f = .doShutdownWrite := by
  cases f <;> first | rfl | exact h.elim | exact hw.elim

/-- The activation that is to notify waits in its loop while another one runs. -/
theorem doShutdownWrite_mem (h : Due Frame.Idle Frame.Ends fs) (hwait : ∀ f ∈ fs, f.Waits) :
    .doShutdownWrite ∈ fs := by
  obtain ⟨f, hmem, hf⟩ := h.exists_mem
  exact hf.waits (hwait f hmem) ▸ hmem

/-! ## Calls -/

theorem enter_not_ends (s : Stream) (o : Op) : ¬ (enter s o).2.Ends := by
  cases o with
  | onConnected | onReceived | write | disconnect =>
    simp only [enter]
    split <;> exact id
  | onDisconnected => exact id

theorem enter_status_closing (h : s.status = .closing) (o : Op) :
    (enter s o).1.status = .closing := by
  rcases enter_state s o with hs | ⟨-, -, hs⟩ <;> rw [hs]
  exact h

theorem Open.call (h : Open s fs ks os) {o : Op} (hq : EndsByClosing s fs o) :
    Open (enter s o).1 ((enter s o).2 :: fs) ks (os ++ [o]) where
  notReceived := by rw [enter_receivedShutdown, h.notReceived]
  silent := h.silent
  notReported := by
    intro hmem
    rcases List.mem_append.mp hmem with hmem | hmem
    · exact h.notReported hmem
    · obtain rfl : .onDisconnected = o := List.mem_singleton.mp hmem
      have hreceived : s.receivedShutdown = true := hq
      rw [h.notReceived] at hreceived
      cases hreceived
  closing := by
    intro g hg hends
    rcases List.mem_cons.mp hg with rfl | hg
    · exact absurd hends (enter_not_ends s o)
    · exact enter_status_closing (h.closing g hg hends) o

theorem Ending.call (h : Ending s fs ks) (hwait : ∀ f ∈ fs, f.Waits) {o : Op}
    (hq : EndsByClosing s fs o) : Ending (enter s o).1 ((enter s o).2 :: fs) ks := by
  have hloop : .doShutdownWrite ∈ fs := doShutdownWrite_mem h.notifier hwait
  have hentered : (enter s o).1 = s ∧ (enter s o).2.Idle := by
    cases o with
    | onConnected => simp [enter, hq h.received hloop, Frame.Idle]
    | onReceived buf => exact absurd hloop (hq h.received)
    | write | disconnect => simp [enter, h.closed, Frame.Idle]
    | onDisconnected => exact ⟨rfl, trivial⟩
  rw [hentered.1]
  exact ⟨h.received, h.closed, h.silent, .under hentered.2 h.notifier⟩

theorem Told.call (h : Told s fs ks) (o : Op) :
    Told (enter s o).1 ((enter s o).2 :: fs) ks where
  received := by rw [enter_receivedShutdown, h.received]
  once := h.once
  spent := List.forall_mem_cons.mpr ⟨enter_not_ends s o, h.spent⟩

/-! ## Stretches -/

/-- The outcome does not end the connection. -/
structure StaysOpen (s : Stream) (out : Next) : Prop where
  notReceived : out.state.receivedShutdown = false
  silent : .onDisconnected ∉ out.callOuts
  closing : ∀ g ∈ out.frames, g.Ends → out.state.status = .closing
  status : s.status = .closing → out.state.status = .closing

/-- The outcome ends it, and its activation is to say so. -/
structure Closes (out : Next) : Prop where
  received : out.state.receivedShutdown = true
  closed : out.state.status = .closed
  silent : out.callOuts = []
  frames : out.frames = [.doShutdownWrite]
  throws : out.throws = false

/-- While the connection has not ended, only an `SSL_shutdown` ends it. -/
theorem Stretch.ends (hopen : s.receivedShutdown = false) (hf : f.Ends → s.status = .closing)
    (hp : CloseAnswered s f fs ans) (h : Stretch s f ans out) :
    StaysOpen s out ∨ Closes out ∧ .doShutdownWrite ∉ fs := by
  cases h with
  | @shutdown buf a hst ha =>
    obtain ⟨-, hclose⟩ := hp
    by_cases hnotify : a.closeNotifyReceived = true
    · obtain ⟨hone, halone⟩ := hclose hnotify
      refine .inr ⟨⟨?_, ?_, rfl, rfl, rfl⟩, halone⟩
      · simp [Outcome.state, hnotify]
      · simp [Outcome.state, Stream.statusClosing, hone]
    · -- no close_notify: SSL_shutdown does not return 1
      have hnot : a.result ≠ 1 := by
        intro hone
        have hreceived := (ha.2.2.2.1 hone).2
        simp [hopen, hnotify] at hreceived
      have hclosing : Stream.statusClosing a.result = .closing := if_neg hnot
      refine .inl ⟨?_, ?_, fun _ _ _ => hclosing, fun _ => hclosing⟩
      · simp [Outcome.state, hopen, hnotify]
      · simp [Outcome.callOuts]
  | handshake hst ha =>
    -- do_connect does not get here while do_shutdown is under way
    have hnone : _ = false := hp hopen
    refine .inl ⟨by simp [Outcome.state, hopen, hnone], by simp [Outcome.callOuts],
      by simp [Outcome.frames, Frame.Ends], fun hclosing => ?_⟩
    simp [Stream.mayConnect, hclosing] at hst
  | connectThrow | shutdownThrow =>
    refine .inl ⟨?_, ?_, ?_, fun hclosing => ?_⟩
    · simp [Outcome.state, hopen]
    · simp [Outcome.callOuts]
    · simp [Outcome.frames]
    · simp [Outcome.state, hclosing]
  | write hdrains hout =>
    exact .inl ⟨hopen, by simp [Outcome.callOuts],
      by simpa [Outcome.frames, Outcome.state] using hf, id⟩
  | shutdownDrained =>
    exact .inl ⟨hopen, by simp [Outcome.callOuts], fun _ _ _ => hf trivial, id⟩
  | notifyDisconnected hst =>
    -- no close_notify, so the status is still closing
    have hclosing : s.status = .closing := hf trivial
    rw [hst] at hclosing
    cases hclosing
  | @read f a hreads ha hpos =>
    have hnone : a.closeNotifyReceived = false := by
      cases f <;> first | exact hreads.elim | exact hp hopen
    exact .inl ⟨by simp [Outcome.state, hopen, hnone], by simp [Outcome.callOuts],
      by simpa [Outcome.frames, Outcome.state] using hf, id⟩
  | @readEnd f a hend ha =>
    have hnone : a.closeNotifyReceived = false := by
      rcases hend with rfl | rfl <;> exact hp hopen
    exact .inl ⟨by simp [Outcome.state, hopen, hnone], by simp [Outcome.callOuts],
      by simp [Outcome.frames], id⟩
  | answerShutdown hflags =>
    simp [Stream.onlyReceived, hopen] at hflags
  | feedReadEnd | writeTook | writeBroke =>
    have hnone : _ = false := hp hopen
    exact .inl ⟨by simp [Outcome.state, hopen, hnone], by simp [Outcome.callOuts],
      by simp [Outcome.frames, Frame.Ends], id⟩
  | _ =>
    exact .inl ⟨hopen, by simp [Outcome.callOuts, WriteCall.finish],
      by simp [Outcome.frames, Frame.Ends, WriteCall.finish], id⟩

theorem Open.stretch (h : Open s (f :: fs) ks os) (hwait : ∀ g ∈ fs, g.Waits)
    (hp : CloseAnswered s f fs ans) (hs : Stretch s f ans out) (hsuffix : kept <:+ fs)
    (hkept : out.throws = false → kept = fs) :
    EndPhase out.state (out.frames ++ kept) (ks ++ out.callOuts) os := by
  obtain ⟨hf, hfs⟩ := List.forall_mem_cons.mp h.closing
  rcases hs.ends h.notReceived hf hp with hout | ⟨hout, halone⟩
  · refine .inl ⟨hout.notReceived, ?_, h.notReported, fun g hg hends => ?_⟩
    · intro hk
      rcases List.mem_append.mp hk with hk | hk
      · exact h.silent hk
      · exact hout.silent hk
    · rcases List.mem_append.mp hg with hg | hg
      · exact hout.closing g hg hends
      · exact hout.status (hfs g (hsuffix.subset hg) hends)
  · rw [hkept hout.throws, hout.frames, hout.silent, List.append_nil]
    refine .inr (.inl ⟨hout.received, hout.closed, h.silent, .here trivial fun g hg hends => ?_⟩)
    exact halone (hends.waits (hwait g hg) ▸ hg)

/-- While one activation is to notify, it stays so until it does. -/
theorem Ending.stretch (h : Ending s (f :: fs) ks) (hs : Stretch s f ans out)
    (hkept : out.throws = false → kept = fs) :
    EndPhase out.state (out.frames ++ kept) (ks ++ out.callOuts) os := by
  have hsilent : List.count .onDisconnected ks = 0 := List.count_eq_zero.mpr h.silent
  cases h.notifier with
  | here hf hrest =>
    -- the activation that is to notify runs
    cases f with
    | doShutdownWrite =>
      cases hs with
      | write hdrains hout =>
        rw [hkept rfl]
        exact .inr (.inl ⟨h.received, h.closed, by simp [Outcome.callOuts, h.silent],
          .here trivial hrest⟩)
      | shutdownDrained hout =>
        rw [hkept rfl]
        exact .inr (.inl ⟨h.received, h.closed, by simp [Outcome.callOuts, h.silent],
          .here trivial hrest⟩)
      | read hreads => exact hreads.elim
      | readEnd hend => rcases hend with hend | hend <;> cases hend
    | doShutdownNotify =>
      cases hs with
      | notifyDisconnected hst =>
        rw [hkept rfl]
        exact .inr (.inr ⟨h.received, by simp [Outcome.callOuts, hsilent],
          List.forall_mem_cons.mpr ⟨id, hrest⟩⟩)
      | skipDisconnected hst => exact absurd h.closed hst
      | write hdrains => exact hdrains.elim
      | read hreads => exact hreads.elim
      | readEnd hend => rcases hend with hend | hend <;> cases hend
    | _ => exact hf.elim
  | under hf hdue =>
    -- the status is closed: whatever else was called does nothing
    cases hs with
    | rejected | done =>
      rw [hkept rfl]
      exact .inr (.inl ⟨h.received, h.closed,
        by simp [Outcome.callOuts, WriteCall.finish, h.silent], hdue⟩)
    | write hdrains => cases f <;> first | exact hf.elim | exact hdrains.elim
    | read hreads => cases f <;> first | exact hf.elim | exact hreads.elim
    | readEnd hend => rcases hend with rfl | rfl <;> exact hf.elim
    | _ => exact hf.elim

/-- Once the layer above has been told, it is not told again. -/
theorem Told.stretch (h : Told s (f :: fs) ks) (hp : CloseAnswered s f fs ans)
    (hs : Stretch s f ans out) (hsuffix : kept <:+ fs) :
    Told out.state (out.frames ++ kept) (ks ++ out.callOuts) := by
  obtain ⟨hf, hfs⟩ := List.forall_mem_cons.mp h.spent
  have hout : out.state.receivedShutdown = true ∧ .onDisconnected ∉ out.callOuts ∧
      ∀ g ∈ out.frames, ¬ g.Ends := by
    have hreceived := h.received
    cases hs with
    | shutdown hst ha =>
      -- a second SSL_shutdown would return 1 again
      obtain ⟨hnot, -⟩ := hp
      rw [hreceived] at hnot
      cases hnot
    | shutdownDrained | notifyDisconnected | skipDisconnected => exact absurd trivial hf
    | write hdrains | read hreads =>
      exact ⟨by simp [Outcome.state, hreceived], by simp [Outcome.callOuts],
        by simpa [Outcome.frames] using hf⟩
    | _ =>
      simp [Outcome.state, Outcome.callOuts, Outcome.frames, Frame.Ends, WriteCall.finish,
        hreceived]
  obtain ⟨hreceived, hsilent, hframes⟩ := hout
  refine ⟨hreceived, ?_, fun g hg => ?_⟩
  · rw [List.count_append, h.once, List.count_eq_zero.mpr hsilent]
  · rcases List.mem_append.mp hg with hg | hg
    · exact hframes g hg
    · exact hfs g (hsuffix.subset hg)

/-! ## Runs -/

/-- What each phase says about the layer above. -/
theorem EndPhase.toldOnce {c : Configuration}
    (h : EndPhase c.state (frames c.stack) (callOuts c.log) (calls c.log)) : ToldOnce c := by
  rcases h with h | h | h
  · refine ⟨?_, fun hk => absurd hk h.silent, fun _ hended => ?_⟩
    · rw [List.count_eq_zero.mpr h.silent]
      exact Nat.zero_le 1
    · rcases hended with hreceived | hreported
      · rw [h.notReceived] at hreceived
        cases hreceived
      · exact absurd hreported h.notReported
  · refine ⟨?_, fun _ => .inl h.received, fun hq _ => ?_⟩
    · rw [List.count_eq_zero.mpr h.silent]
      exact Nat.zero_le 1
    · have hnone := h.notifier
      rw [show c.stack = [] from hq] at hnone
      cases hnone
  · refine ⟨Nat.le_of_eq h.once, fun _ => .inl h.received, fun _ _ => ?_⟩
    rw [← List.count_pos_iff, h.once]
    exact Nat.one_pos

/-- The phase of every configuration of a run that meets the conditions. -/
theorem end_phase {side : Side} {hostname : String} {capacity : Nat} {es : List (Event Op Answer)}
    {c : Configuration}
    (hr : Runs.run (step object) (Config.start (Stream.new side hostname capacity)) es = some c)
    (hp : Runs.Along (step object) (Before CloseAnswered)
      (Config.start (Stream.new side hostname capacity)) es)
    (hq : Runs.Along (step object) (OnCall EndsByClosing)
      (Config.start (Stream.new side hostname capacity)) es) :
    EndPhase c.state (frames c.stack) (callOuts c.log) (calls c.log) := by
  refine invariant_of_parts (W := Frame.Waits) (I := fun s fs ks os _ => EndPhase s fs ks os)
    (fun _ _ _ _ _ _ _ h => (stretch_of_resume h).waits)
    (fun s fs ks os ns o hwait hphase honcall => ?_)
    (fun s f fs ks os ns a out kept hwait hphase hbefore hres hsuffix hkept => ?_) ?_ hp hq hr
  · rcases hphase with h | h | h
    · exact .inl (h.call honcall)
    · exact .inr (.inl (h.call hwait honcall))
    · exact .inr (.inr (h.call o))
  · have hstretch := stretch_of_resume hres
    rcases hphase with h | h | h
    · exact h.stretch hwait hbefore hstretch hsuffix hkept
    · exact h.stretch hstretch hkept
    · exact .inr (.inr (h.stretch hbefore hstretch hsuffix))
  · exact .inl ⟨rfl, by simp, by simp, by simp⟩

/-- **When the layer above is told once that the connection ended.**  In every run that
meets the conditions, at every configuration. -/
theorem told_once {side : Side} {hostname : String} {capacity : Nat}
    {es : List (Event Op Answer)} {c : Configuration}
    (hr : Runs.run (step object) (Config.start (Stream.new side hostname capacity)) es = some c)
    (hp : Runs.Along (step object) (Before CloseAnswered)
      (Config.start (Stream.new side hostname capacity)) es)
    (hq : Runs.Along (step object) (OnCall EndsByClosing)
      (Config.start (Stream.new side hostname capacity)) es) : ToldOnce c :=
  (end_phase hr hp hq).toldOnce

end

/-- `disconnect`, then the peer's answer to its close_notify. -/
def disconnectRun : List (Event Op Answer) :=
  [.call .disconnect,
    .code (.engine { result := 0, produced := [4], closeNotifySent := true }),
    .code .go, .back, .code .go, .code .go,
    .code (.engine { result := -1, error := .wantRead }),
    .call (.onReceived [5]),
    .code (.engine { result := 1, consumed := 1, closeNotifyReceived := true }),
    .code .go, .code .go, .back,
    .code (.engine { result := 0, error := .zeroReturn })]

/-- The answer to `disconnect`, after a handshake, is reported. -/
theorem told_once_disconnect :
    ∃ c, Runs.run (step object) (Config.start (Stream.ofContext .client ""))
        (handshakeRun ++ disconnectRun) = some c ∧
      c.Quiet ∧ c.state.receivedShutdown = true ∧ ToldOnce c := by
  obtain ⟨c, hr, hquiet, hreceived⟩ :
      ∃ c, Runs.run (step object) (Config.start (Stream.ofContext .client ""))
          (handshakeRun ++ disconnectRun) = some c ∧ c.Quiet ∧ c.state.receivedShutdown = true :=
    Runs.exists_run (by decide)
  exact ⟨c, hr, hquiet, hreceived, told_once hr (by decide) (by decide)⟩

/-- The peer closes a connected stream: `SSL_read` finds its close_notify, and
`SSL_shutdown` answers it. -/
def peerClosesRun : List (Event Op Answer) :=
  [.call (.onReceived [4]), .code .go,
    .code (.engine
      { result := 0, error := .zeroReturn, consumed := 1, closeNotifyReceived := true }),
    .code .go, .code .go,
    .code (.engine { result := 1, produced := [5], closeNotifySent := true }),
    .code .go, .back, .code .go]

/-- The layer above is not told. -/
theorem told_never :
    ∃ c, Runs.run (step object) (Config.start (Stream.ofContext .client ""))
        (handshakeRun ++ peerClosesRun) = some c ∧
      c.Quiet ∧ c.state.established = true ∧ c.state.sentShutdown = true ∧
      c.state.receivedShutdown = true ∧ .onDisconnected ∉ callOuts c.log :=
  Runs.exists_run (by decide)

end Ssl
end AcppNetwork
