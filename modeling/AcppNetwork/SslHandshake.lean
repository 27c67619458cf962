import AcppNetwork.SslSteps

/-!
# The end of a handshake

`do_connect` runs its `BIO_read` loop before it notifies the layer above, and then
reads `status_` again.  While that loop runs, a layer below that delivers the
answer at once enters `do_connect` a second time, on the same engine.  If the
handshake is finished in there, both activations find the status connected, and
both notify.

A stream goes through three phases.  Before the handshake is finished there is
nothing to tell the layer above (`Handshaking`).  Then one activation of
`do_connect` is to tell it (`Pending`), and the layer has heard nothing.  Once it has
been told (`Notified`), no activation is left that could tell it again.  As long
as the handshake is finished by one activation with no other under it in its
loop, and nothing overtakes that activation, `on_connected` is called once and
data follow it (`notified_once`).
-/
namespace AcppNetwork
namespace Ssl

open Reentrant

/-- The layer above is told once that the handshake is finished, and not before it
is; when no operation is under way it has been told; data reach it afterwards. -/
structure NotifiedOnce (c : Configuration) : Prop where
  atMostOnce : (callOuts c.log).count .onConnected ≤ 1
  finished : .onConnected ∈ callOuts c.log → c.state.established = true
  told : c.Quiet → c.state.established = true → .onConnected ∈ callOuts c.log
  dataAfter : ∀ pre data post, callOuts c.log = pre ++ .onReceived data :: post →
    .onConnected ∈ pre

/-! ## The condition -/

/-- The condition on the answers of the engine.  The handshake is finished by a call
of `do_connect`, not by an `SSL_read`, and by an activation with no other under
it in its `BIO_read` loop; `do_connect` makes no handshake call afterwards.  While
the activation that finished it is in that loop, `on_received` reads no data and
answers no close_notify. -/
def HandshakeAlone (s : Stream) (f : Frame) (fs : List Frame) (ans : Answer) : Prop :=
  match f, ans with
  | .doConnect _, .engine a =>
      s.established = false ∧ (a.established = true → .doConnectWrite ∉ fs)
  | .feedRead _ _, .engine a => 0 < a.result → .doConnectWrite ∉ fs
  | .checkShutdown, .engine _ => .doConnectWrite ∉ fs
  | _, .engine a => s.established = false → a.established = false
  | _, .go => True

/-- The condition on the calls: while the activation of `do_connect` that finished the
handshake is in its `BIO_read` loop, the layer above does not disconnect and the
layer below does not connect again. -/
def NotOvertaken (s : Stream) (fs : List Frame) (o : Op) : Prop :=
  s.established = true → .doConnectWrite ∈ fs →
    o ≠ .disconnect ∧ (o = .onConnected → s.side = .server)

instance (s : Stream) (f : Frame) (fs : List Frame) (ans : Answer) :
    Decidable (HandshakeAlone s f fs ans) := by
  rcases f with ⟨⟩ <;> rcases ans with ⟨⟩ <;> unfold HandshakeAlone <;> infer_instance

instance (s : Stream) (fs : List Frame) (o : Op) : Decidable (NotOvertaken s fs o) := by
  unfold NotOvertaken
  infer_instance

/-! ## The phases -/

/-- The frames of `do_connect` up to its notification. -/
def Frame.Notifies : Frame → Prop
  | .doConnectWrite | .doConnectNotify => True
  | _ => False

/-- The frames there are before a handshake is finished. -/
def Frame.Early : Frame → Prop
  | .doConnect _ | .doConnectWrite | .doConnectNotify | .doConnectRead | .writeRejected _
  | .done => True
  | _ => False

/-- The frames of the operations for a connected stream. -/
def Frame.Connected : Frame → Prop
  | .feed _ _ | .feedRead _ _ | .feedWrite _ _ | .checkShutdown | .feedFinal | .writeLoop _
  | .writeDrain _ | .writeFinal _ | .writeRejected _ | .done => True
  | _ => False

/-- The layer above has heard nothing. -/
def Silent (ks : List CallOut) : Prop := ∀ k ∈ ks, ∃ buf, k = .nextWrite buf ∨ k = .onDisconnected

/-- The handshake is not finished. -/
structure Handshaking (s : Stream) (fs : List Frame) (ks : List CallOut) : Prop where
  established : s.established = false
  mayConnect : s.mayConnect = true
  early : ∀ f ∈ fs, f.Early
  silent : Silent ks

/-- The handshake is finished, and one activation of `do_connect` is to say so. -/
structure Pending (s : Stream) (fs : List Frame) (ks : List CallOut) : Prop where
  established : s.established = true
  connected : s.status = .connected
  silent : Silent ks
  notifier : Due Frame.Connected Frame.Notifies fs

/-- The layer above has been told. -/
structure Notified (s : Stream) (fs : List Frame) (ks : List CallOut) : Prop where
  established : s.established = true
  once : ∃ pre post, ks = pre ++ .onConnected :: post ∧ Silent pre ∧ .onConnected ∉ post
  spent : ∀ f ∈ fs, ¬ f.Notifies

/-- One of the three. -/
def Phase (s : Stream) (fs : List Frame) (ks : List CallOut) : Prop :=
  Handshaking s fs ks ∨ Pending s fs ks ∨ Notified s fs ks

section
variable {s : Stream} {f : Frame} {fs kept : List Frame} {ks : List CallOut} {ans : Answer}
  {out : Next}

theorem Silent.append {ks' : List CallOut} (h : Silent ks) (h' : Silent ks') :
    Silent (ks ++ ks') := by
  intro k hk
  rcases List.mem_append.mp hk with hk | hk
  · exact h k hk
  · exact h' k hk

theorem silent_nil : Silent [] := by
  intro k hk
  cases hk

theorem silent_write (buf : List Byte) : Silent [.nextWrite buf] := by
  intro k hk
  exact ⟨buf, .inl (List.mem_singleton.mp hk)⟩

theorem Silent.onConnected_notMem (h : Silent ks) : .onConnected ∉ ks := by
  intro hk
  obtain ⟨buf, hbuf | hbuf⟩ := h _ hk <;> cases hbuf

theorem Silent.onReceived_notMem (h : Silent ks) (data : List Byte) : .onReceived data ∉ ks := by
  intro hk
  obtain ⟨buf, hbuf | hbuf⟩ := h _ hk <;> cases hbuf

/-- Of the frames of `do_connect` up to its notification, only the loop waits. -/
theorem Frame.Notifies.waits (h : f.Notifies) (hw : f.Waits) : f = .doConnectWrite := by
  cases f <;> first | rfl | exact h.elim | exact hw.elim

/-- The activation that is to notify waits in its loop while another one runs. -/
theorem doConnectWrite_mem (h : Due Frame.Connected Frame.Notifies fs)
    (hwait : ∀ f ∈ fs, f.Waits) : .doConnectWrite ∈ fs := by
  obtain ⟨f, hmem, hf⟩ := h.exists_mem
  exact hf.waits (hwait f hmem) ▸ hmem

theorem statusConnecting_mayConnect {e : Int} (h : e ≠ 1) {s : Stream} :
    Stream.mayConnect { s with status := Stream.statusConnecting e } = true := by
  unfold Stream.statusConnecting
  by_cases h0 : e = 0
  · simp [Stream.mayConnect, h0]
  · simp [Stream.mayConnect, h0, h]

/-! ## Calls -/

theorem Handshaking.call (h : Handshaking s fs ks) (o : Op) :
    Handshaking (enter s o).1 ((enter s o).2 :: fs) ks := by
  have hstatus : s.status = .closed ∨ s.status = .connecting := by
    simpa [Stream.mayConnect] using h.mayConnect
  -- every operation goes on with the handshake, or does nothing
  have hentered : (enter s o).1 = s ∧ (enter s o).2.Early := by
    cases o with
    | onConnected => by_cases hside : s.side = .client <;> simp [enter, hside, Frame.Early]
    | onReceived | write | disconnect =>
      rcases hstatus with hst | hst <;> simp [enter, hst, Frame.Early]
    | onDisconnected => exact ⟨rfl, trivial⟩
  rw [hentered.1]
  exact ⟨h.established, h.mayConnect, List.forall_mem_cons.mpr ⟨hentered.2, h.early⟩, h.silent⟩

theorem Pending.call (h : Pending s fs ks) (hwait : ∀ f ∈ fs, f.Waits) {o : Op}
    (hq : NotOvertaken s fs o) : Pending (enter s o).1 ((enter s o).2 :: fs) ks := by
  -- the activation that is to notify waits in its loop: the condition speaks of it
  obtain ⟨hdisc, hconn⟩ := hq h.established (doConnectWrite_mem h.notifier hwait)
  have hentered : (enter s o).1 = s ∧ (enter s o).2.Connected := by
    cases o with
    | onConnected => simp [enter, hconn rfl, Frame.Connected]
    | onReceived | write => simp [enter, h.connected, Frame.Connected]
    | disconnect => exact absurd rfl hdisc
    | onDisconnected => exact ⟨rfl, trivial⟩
  rw [hentered.1]
  exact ⟨h.established, h.connected, h.silent, .under hentered.2 h.notifier⟩

theorem enter_not_notifies (s : Stream) (o : Op) : ¬ (enter s o).2.Notifies := by
  cases o with
  | onConnected | onReceived | write | disconnect =>
    simp only [enter]
    split <;> exact id
  | onDisconnected => exact id

theorem Notified.call (h : Notified s fs ks) (o : Op) :
    Notified (enter s o).1 ((enter s o).2 :: fs) ks where
  established := by rw [enter_established, h.established]
  once := h.once
  spent := List.forall_mem_cons.mpr ⟨enter_not_notifies s o, h.spent⟩

/-! ## Stretches -/

/-- Before the handshake is finished, a stretch of code leaves it so, or finishes it
and is to notify. -/
theorem Handshaking.stretch (h : Handshaking s (f :: fs) ks) (hwait : ∀ g ∈ fs, g.Waits)
    (hp : HandshakeAlone s f fs ans) (hs : Stretch s f ans out) (hsuffix : kept <:+ fs)
    (hkept : out.throws = false → kept = fs) :
    Phase out.state (out.frames ++ kept) (ks ++ out.callOuts) := by
  obtain ⟨hearly, hearlies⟩ := List.forall_mem_cons.mp h.early
  have hkeptEarly : ∀ g ∈ kept, g.Early := fun g hg => hearlies g (hsuffix.subset hg)
  -- a stretch that neither finishes the handshake nor is heard above
  have same : out.state.established = false → out.state.mayConnect = true →
      (∀ g ∈ out.frames, g.Early) → Silent out.callOuts →
      Phase out.state (out.frames ++ kept) (ks ++ out.callOuts) := by
    intro hest hmay hframes hsilent
    refine .inl ⟨hest, hmay, fun g hg => ?_, h.silent.append hsilent⟩
    rcases List.mem_append.mp hg with hg | hg
    · exact hframes g hg
    · exact hkeptEarly g hg
  have hest := h.established
  cases hs with
  | @handshake buf a hst ha =>
    obtain ⟨-, halone⟩ := hp
    have hresult : a.result = 1 ↔ a.established = true := by
      simpa [hest] using ha.2.2.2.1
    by_cases hfinished : a.established = true
    · -- finished: this activation is the only one in front of its notification
      have hone : a.result = 1 := hresult.mpr hfinished
      rw [hkept rfl]
      refine .inr (.inl ⟨?_, ?_, h.silent.append silent_nil, .here trivial ?_⟩)
      · simp [Outcome.state, hfinished]
      · simp [Outcome.state, Stream.statusConnecting, hone]
      · intro g hg hnot
        exact halone hfinished (hnot.waits (hwait g hg) ▸ hg)
    · have hnot : a.result ≠ 1 := fun hone => hfinished (hresult.mp hone)
      refine same ?_ ?_ ?_ silent_nil
      · simp [Outcome.state, hest, hfinished]
      · exact statusConnecting_mayConnect hnot
      · simp [Outcome.frames, Frame.Early]
  | connectThrow hst =>
    rw [h.mayConnect] at hst
    cases hst
  | write hf hout =>
    exact same hest h.mayConnect (by simpa [Outcome.frames] using hearly) (silent_write _)
  | connectDrained hout =>
    exact same hest h.mayConnect (by simp [Outcome.frames, Frame.Early]) silent_nil
  | notifyConnected hst =>
    have hmay := h.mayConnect
    simp [Stream.mayConnect, hst] at hmay
  | skipConnected hst =>
    exact same hest h.mayConnect (by simp [Outcome.frames, Frame.Early]) silent_nil
  | read hf ha hpos =>
    cases f with
    | doConnectRead =>
      have hnone : _ = false := hp hest
      have hdata : (s.engine _).established = true := ha.2.2.2.1 hpos
      simp [hest, hnone] at hdata
    | _ => first | exact hf.elim | exact hearly.elim
  | readEnd hf ha hend =>
    rcases hf with rfl | rfl
    · have hnone : _ = false := hp hest
      refine same ?_ h.mayConnect ?_ silent_nil
      · simp [Outcome.state, hest, hnone]
      · simp [Outcome.frames]
    · exact hearly.elim
  | rejected => exact same hest h.mayConnect (by simp [Outcome.frames, WriteCall.finish]) silent_nil
  | done => exact same hest h.mayConnect (by simp [Outcome.frames]) silent_nil
  | _ => exact hearly.elim

/-- What the operations for a connected stream do while the layer above is still to be
told. -/
theorem Stretch.connected (hf : f.Connected) (hst : s.status = .connected)
    (hloop : .doConnectWrite ∈ fs) (hp : HandshakeAlone s f fs ans) (h : Stretch s f ans out) :
    (s.established = true → out.state.established = true) ∧ out.state.status = .connected ∧
      Silent out.callOuts ∧ out.throws = false ∧ ∀ g ∈ out.frames, g.Connected := by
  cases h with
  | write hdrains hout =>
    exact ⟨id, hst, silent_write _, rfl, by simpa [Outcome.frames] using hf⟩
  | read hreads ha hpos =>
    cases f with
    -- the data would overtake on_connected
    | feedRead => exact absurd hloop (hp hpos)
    | _ => first | exact hreads.elim | exact hf.elim
  -- the status would not be connected when the loop ends
  | answerShutdown hflags ha => exact absurd hloop hp
  | readEnd hend => rcases hend with rfl | rfl <;> exact hf.elim
  | feedDrained | feedEnd | writeDrained | writeEnd | feedReadEnd | feed | feedDone | noShutdown
  | writeTook | writeBroke | writeDone | rejected | done =>
    simp_all [Outcome.state, Outcome.callOuts, Outcome.throws, Outcome.frames, Frame.Connected,
      WriteCall.finish, silent_nil]
  | _ => exact hf.elim

/-- While one activation is to notify, it stays so until it does. -/
theorem Pending.stretch (h : Pending s (f :: fs) ks) (hwait : ∀ g ∈ fs, g.Waits)
    (hp : HandshakeAlone s f fs ans) (hs : Stretch s f ans out)
    (hkept : out.throws = false → kept = fs) :
    Phase out.state (out.frames ++ kept) (ks ++ out.callOuts) := by
  cases h.notifier with
  | here hf hrest =>
    -- the activation that is to notify runs
    cases f with
    | doConnectWrite =>
      cases hs with
      | write hdrains hout =>
        rw [hkept rfl]
        exact .inr (.inl ⟨h.established, h.connected, h.silent.append (silent_write _),
          .here trivial hrest⟩)
      | connectDrained hout =>
        rw [hkept rfl]
        exact .inr (.inl ⟨h.established, h.connected, h.silent.append silent_nil,
          .here trivial hrest⟩)
      | read hreads => exact hreads.elim
      | readEnd hend => rcases hend with hend | hend <;> cases hend
    | doConnectNotify =>
      cases hs with
      | notifyConnected hst =>
        rw [hkept rfl]
        refine .inr (.inr ⟨h.established, ⟨ks, [], rfl, h.silent, ?_⟩, ?_⟩)
        · exact List.not_mem_nil
        · exact List.forall_mem_cons.mpr ⟨id, hrest⟩
      | skipConnected hst => exact absurd h.connected hst
      | write hdrains => exact hdrains.elim
      | read hreads => exact hreads.elim
      | readEnd hend => rcases hend with hend | hend <;> cases hend
    | _ => exact hf.elim
  | under hf hdue =>
    -- another one runs, called from the loop of the one that is to notify
    have hloop : .doConnectWrite ∈ fs := doConnectWrite_mem hdue hwait
    obtain ⟨hest, hstatus, hsilent, hthrows, hframes⟩ := hs.connected hf h.connected hloop hp
    rw [hkept hthrows]
    exact .inr (.inl ⟨hest h.established, hstatus, h.silent.append hsilent, hdue.append hframes⟩)

/-- A stretch that is not one of `do_connect` up to its notification does not
notify; one that makes no handshake call leaves no activation that will. -/
theorem Stretch.spent (hf : ¬ f.Notifies) (hp : HandshakeAlone s f fs ans)
    (hest : s.established = true) (h : Stretch s f ans out) :
    out.state.established = true ∧ .onConnected ∉ out.callOuts ∧
      ∀ g ∈ out.frames, ¬ g.Notifies := by
  cases h with
  | handshake hst ha =>
    -- a handshake call on a finished handshake returns 1 again
    obtain ⟨hnot, -⟩ := hp
    rw [hest] at hnot
    cases hnot
  | connectDrained | notifyConnected | skipConnected => exact absurd trivial hf
  | write hdrains hout =>
    exact ⟨hest, by simp [Outcome.callOuts], by simpa [Outcome.frames] using hf⟩
  | read hreads ha hpos =>
    exact ⟨by simp [Outcome.state, hest], by simp [Outcome.callOuts],
      by simpa [Outcome.frames] using hf⟩
  | _ =>
    simp [Outcome.state, Outcome.callOuts, Outcome.frames, Frame.Notifies, WriteCall.finish, hest]

/-- Once the layer above has been told, it is not told again. -/
theorem Notified.stretch (h : Notified s (f :: fs) ks) (hp : HandshakeAlone s f fs ans)
    (hs : Stretch s f ans out) (hsuffix : kept <:+ fs) :
    Notified out.state (out.frames ++ kept) (ks ++ out.callOuts) := by
  obtain ⟨hf, hfs⟩ := List.forall_mem_cons.mp h.spent
  obtain ⟨hest, hcallOuts, hframes⟩ := hs.spent hf hp h.established
  obtain ⟨pre, post, hks, hpre, hpost⟩ := h.once
  refine ⟨hest, ⟨pre, post ++ out.callOuts, ?_, hpre, ?_⟩, fun g hg => ?_⟩
  · rw [hks, List.append_assoc, List.cons_append]
  · intro hk
    rcases List.mem_append.mp hk with hk | hk
    · exact hpost hk
    · exact hcallOuts hk
  · rcases List.mem_append.mp hg with hg | hg
    · exact hframes g hg
    · exact hfs g (hsuffix.subset hg)

/-! ## Runs -/

/-- What each phase says about the layer above. -/
theorem Phase.notifiedOnce {c : Configuration}
    (h : Phase c.state (frames c.stack) (callOuts c.log)) : NotifiedOnce c := by
  have quiet : ∀ hq : c.Quiet, frames c.stack = [] := by
    intro hq
    rw [show c.stack = [] from hq]
    rfl
  -- a silent layer has been told nothing
  have silent : Silent (callOuts c.log) →
      (c.Quiet → c.state.established = true → .onConnected ∈ callOuts c.log) → NotifiedOnce c := by
    intro hs htold
    refine ⟨?_, fun hk => absurd hk hs.onConnected_notMem, htold, fun pre data post heq => ?_⟩
    · rw [List.count_eq_zero.mpr hs.onConnected_notMem]
      exact Nat.zero_le 1
    · exact absurd (by rw [heq]; simp) (hs.onReceived_notMem data)
  rcases h with h | h | h
  · refine silent h.silent fun _ hest => ?_
    rw [h.established] at hest
    cases hest
  · refine silent h.silent fun hq _ => ?_
    have hnone := h.notifier
    rw [quiet hq] at hnone
    cases hnone
  · obtain ⟨pre, post, hks, hpre, hpost⟩ := h.once
    refine ⟨?_, fun _ => h.established, fun _ _ => by rw [hks]; simp, fun pre' data post' heq => ?_⟩
    · rw [hks, List.count_append, List.count_cons_self,
        List.count_eq_zero.mpr hpre.onConnected_notMem, List.count_eq_zero.mpr hpost]
    · -- the data come behind the notification: before it all is silent
      rw [hks] at heq
      rcases List.append_eq_append_iff.mp heq with ⟨mid, hpre', hrest⟩ | ⟨mid, hpre', hrest⟩
      · cases mid with
        | nil => simp at hrest
        | cons k mid =>
          obtain ⟨rfl, -⟩ := List.cons.inj hrest
          simp [hpre']
      · cases mid with
        | nil => simp at hrest
        | cons k mid =>
          obtain ⟨rfl, -⟩ := List.cons.inj hrest
          exact absurd (by rw [hpre']; simp) (hpre.onReceived_notMem data)

/-- The phase of every configuration of a run that meets the conditions. -/
theorem phase {side : Side} {hostname : String} {capacity : Nat} {es : List (Event Op Answer)}
    {c : Configuration}
    (hr : Runs.run (step object) (Config.start (Stream.new side hostname capacity)) es = some c)
    (hp : Runs.Along (step object) (Before HandshakeAlone)
      (Config.start (Stream.new side hostname capacity)) es)
    (hq : Runs.Along (step object) (OnCall NotOvertaken)
      (Config.start (Stream.new side hostname capacity)) es) :
    Phase c.state (frames c.stack) (callOuts c.log) := by
  refine invariant_of_parts (W := Frame.Waits) (I := fun s fs ks _ _ => Phase s fs ks)
    (fun _ _ _ _ _ _ _ h => (stretch_of_resume h).waits)
    (fun s fs ks os ns o hwait hphase honcall => ?_)
    (fun s f fs ks os ns a out kept hwait hphase hbefore hres hsuffix hkept => ?_) ?_ hp hq hr
  · rcases hphase with h | h | h
    · exact .inl (h.call o)
    · exact .inr (.inl (h.call hwait honcall))
    · exact .inr (.inr (h.call o))
  · have hstretch := stretch_of_resume hres
    rcases hphase with h | h | h
    · exact h.stretch hwait hbefore hstretch hsuffix hkept
    · exact h.stretch hwait hbefore hstretch hkept
    · exact .inr (.inr (h.stretch hbefore hstretch hsuffix))
  · exact .inl ⟨rfl, rfl, by simp, silent_nil⟩

/-- **When the layer above is told once that the handshake is finished.**  In every
run that meets the conditions, at every configuration. -/
theorem notified_once {side : Side} {hostname : String} {capacity : Nat}
    {es : List (Event Op Answer)} {c : Configuration}
    (hr : Runs.run (step object) (Config.start (Stream.new side hostname capacity)) es = some c)
    (hp : Runs.Along (step object) (Before HandshakeAlone)
      (Config.start (Stream.new side hostname capacity)) es)
    (hq : Runs.Along (step object) (OnCall NotOvertaken)
      (Config.start (Stream.new side hostname capacity)) es) : NotifiedOnce c :=
  (phase hr hp hq).notifiedOnce

end

/-- A handshake over a transport that answers later. -/
theorem notified_once_handshake :
    ∃ c, Runs.run (step object) (Config.start (Stream.ofContext .client "")) handshakeRun = some c ∧
      NotifiedOnce c := by
  obtain ⟨c, hr, -⟩ := handshakeRun_connected
  exact ⟨c, hr, notified_once hr (by decide) (by decide)⟩

/-- The same handshake over a transport that answers at once: the peer's flight
arrives, and finishes the handshake, while the activation that wrote the first
one is in its `BIO_read` loop. -/
def synchronousRun : List (Event Op Answer) :=
  [.call .onConnected,
    .code (.engine { result := -1, error := .wantRead, produced := [1] }),
    .code .go,
    .call (.onReceived [2]),
    .code (.engine { result := 1, consumed := 1, produced := [3], established := true }),
    .code .go, .back, .code .go, .code .go, .back,
    .code (.engine { result := -1, error := .wantRead }),
    .back, .code .go, .code .go, .back,
    .code (.engine { result := -1, error := .wantRead })]

/-- Both activations notify. -/
theorem notified_twice :
    ∃ c, Runs.run (step object) (Config.start (Stream.ofContext .client "")) synchronousRun
        = some c ∧
      c.Quiet ∧ (callOuts c.log).count .onConnected = 2 :=
  Runs.exists_run (by decide)

end Ssl
end AcppNetwork
