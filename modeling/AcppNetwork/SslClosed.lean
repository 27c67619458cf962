import AcppNetwork.SslShutdown

/-!
# After the shutdown

The status of a stream that was shut down is the status of one that was never connected:
`closed`.  `on_received` tells them apart nowhere, so bytes that the layer below hands up
after the closing handshake start the other one again (`do_connect`); the engine, whose
handshake is finished, answers 1, the status is `connected` again, and so the layer above
is told (`connected_again`).  A stream in status `peer_closing` ignores such bytes.

What the claim of silence needs is exactly that no such bytes come (`down_iff`).  The
close_notify of both sides carries it: `SSL_shutdown` returns 1 when both were exchanged
(`shutdown_exchanged`), after which `SSL_read` has nothing to hand up and `on_received`
nothing to answer.
-/
namespace AcppNetwork
namespace Ssl

open Reentrant

/-- Both close_notify were exchanged. -/
def Stream.Exchanged (s : Stream) : Prop := s.sentShutdown = true ∧ s.receivedShutdown = true

/-- The shutdown completes: `do_shutdown` finds the stream closed, and calls
`on_disconnected`. -/
structure Completes (c c' : Configuration) : Prop where
  closed : c.state.status = .closed
  notifies : ∃ rest, c.stack = .code .doShutdownNotify :: rest
  step : step object c (.code .go) = some c'

/-- The calls of the layer above that belong to a connection. -/
def CallOut.connected : CallOut → Bool
  | .onConnected | .onReceived _ => true
  | _ => false

/-- The frame of the handshake call. -/
def Frame.shakes : Frame → Bool
  | .doConnect _ => true
  | _ => false

/-- The stream stays down: it is closed, no activation makes a handshake call, and of the
calls of the layer above none but the first `n` belongs to a connection. -/
structure Down (n : Nat) (c : Configuration) : Prop where
  closed : c.state.status = .closed
  unshaken : ∀ f ∈ frames c.stack, f.shakes = false
  silent : ∀ k ∈ (callOuts c.log).drop n, k.connected = false

/-- The layer below hands up bytes. -/
def HandsUp : Event Op Answer → Bool
  | .call (.onReceived _) => true
  | _ => false

/-- `SSL_read` returns no data once the peer's close_notify was received. -/
def ReadsNothing (s : Stream) (f : Frame) (ans : Answer) : Prop :=
  match f, ans with
  | .doConnectRead, .engine a | .doShutdownRead, .engine a | .feedRead _ _, .engine a =>
      s.receivedShutdown = true → a.result ≤ 0
  | _, _ => True

/-- What happens later: calls of any operation but `on_connected`, with an engine that
reads nothing after a close_notify. -/
structure Later (c : Configuration) (e : Event Op Answer) : Prop where
  connected : e ≠ .call .onConnected
  reads : Before (fun s f _ a => ReadsNothing s f a) c e

instance (s : Stream) (f : Frame) (ans : Answer) : Decidable (ReadsNothing s f ans) := by
  rcases f with ⟨⟩ <;> rcases ans with ⟨⟩ <;> unfold ReadsNothing <;> infer_instance

instance (c : Configuration) (e : Event Op Answer) : Decidable (Later c e) :=
  match e with
  | .call .onConnected => .isFalse fun h => h.connected rfl
  | .call (.onReceived _) | .call (.write _) | .call .disconnect | .call .onDisconnected =>
      .isTrue ⟨nofun, trivial⟩
  | .code a => decidable_of_iff (Before (fun s f _ a => ReadsNothing s f a) c (.code a))
      ⟨fun h => ⟨nofun, h⟩, fun h => h.reads⟩
  | .unwind a n => decidable_of_iff (Before (fun s f _ a => ReadsNothing s f a) c (.unwind a n))
      ⟨fun h => ⟨nofun, h⟩, fun h => h.reads⟩
  | .back => .isTrue ⟨nofun, trivial⟩

variable {s : Stream} {f : Frame} {ans : Answer} {out : Next}

/-! ## The flags of the engine -/

theorem Stream.Exchanged.engine {a : Reply} (h : s.Exchanged) : (s.engine a).Exchanged :=
  ⟨by rw [Stream.engine_sentShutdown, h.1, Bool.true_or],
    by rw [Stream.engine_receivedShutdown, h.2, Bool.true_or]⟩

theorem enter_exchanged (h : s.Exchanged) (o : Op) : (enter s o).1.Exchanged := by
  rcases enter_state s o with hs | ⟨-, -, hs⟩
  · rw [hs]
    exact h
  · rw [hs]
    exact h

/-- No stretch of code takes a flag back. -/
theorem Stretch.exchanged (h : s.Exchanged) (hs : Stretch s f ans out) : out.state.Exchanged := by
  cases hs with
  | @handshake buf a hst ha =>
    have hbefore : (s.beforeHandshake buf).Exchanged :=
      ⟨by rw [Stream.beforeHandshake_sentShutdown, h.1],
        by rw [Stream.beforeHandshake_receivedShutdown, h.2]⟩
    exact hbefore.engine
  | @shutdown buf a hst ha =>
    have hfed : (s.feedOnce buf).Exchanged :=
      ⟨by rw [Stream.feedOnce_sentShutdown, h.1], by rw [Stream.feedOnce_receivedShutdown, h.2]⟩
    exact hfed.engine
  | connectThrow | shutdownThrow =>
    exact ⟨by rw [Outcome.state, Stream.feedOnce_sentShutdown, h.1],
      by rw [Outcome.state, Stream.feedOnce_receivedShutdown, h.2]⟩
  | answerShutdown hflags ha =>
    exact Stream.Exchanged.engine (s := { s with status := .peerClosing }) h
  | read | readEnd | feedReadEnd | writeTook | writeBroke => exact h.engine
  | _ => exact h

/-! ## Before the shutdown completes -/

/-- The stream is closing, or will ignore what comes, or both close_notify were
exchanged. -/
def Stream.Parting (s : Stream) : Prop :=
  s.status = .closing ∨ s.status = .peerClosing ∨ s.Exchanged

theorem Stream.Parting.of_status {s' : Stream} (h : s.Parting) (hst : s'.status = s.status)
    (hflags : s.Exchanged → s'.Exchanged) : s'.Parting := by
  unfold Stream.Parting
  rw [hst]
  exact h.imp_right fun h => h.imp_right hflags

theorem enter_parting (h : s.Parting) (o : Op) : (enter s o).1.Parting := by
  rcases enter_state s o with hs | ⟨-, -, hs⟩
  · rw [hs]
    exact h
  · rw [hs]
    exact .inl rfl

/-- A parting stream does not connect. -/
theorem Stream.Parting.exchanged (h : s.Parting) (hst : s.status = .closed ∨ s.mayConnect = true) :
    s.Exchanged := by
  rcases h with h | h | h
  · simp [Stream.mayConnect, h] at hst
  · simp [Stream.mayConnect, h] at hst
  · exact h

/-- An `SSL_shutdown` of a closing stream leaves a parting one. -/
theorem parting_shutdown {buf : List Byte} {a : Reply}
    (ha : (s.feedOnce buf).Answers .shutdown a) : Stream.Parting
      { (s.feedOnce buf).engine a with status := Stream.statusClosing a.result } := by
  by_cases hone : a.result = 1
  · exact .inr (.inr (ha.2.2.2.1 hone))
  · exact .inl (by simp [Stream.statusClosing, hone])

/-- A stretch leaves a parting stream parting. -/
theorem Stretch.parting (h : s.Parting) (hs : Stretch s f ans out) : out.state.Parting := by
  have hkeep := hs.exchanged
  cases hs with
  | handshake hst ha => exact .inr (.inr (hkeep (h.exchanged (.inr hst))))
  | shutdown hst ha => exact parting_shutdown ha
  | answerShutdown hflags ha => exact .inr (.inl rfl)
  | connectThrow | shutdownThrow =>
    exact h.of_status Stream.feedOnce_status hkeep
  | _ => exact h.of_status rfl hkeep

/-- Only an activation of `do_shutdown` goes on at its notification, and of a parting
stream. -/
theorem Stretch.ends_of {g : Frame} (hs : Stretch s f ans out) (hg : g ∈ out.frames)
    (hends : g.Ends) : f.Ends ∨ out.state.Parting := by
  cases hs with
  | shutdown hst ha => exact .inr (parting_shutdown ha)
  | shutdownDrained => exact .inl trivial
  | write hf hout =>
    rw [List.mem_singleton.mp hg] at hends
    exact .inl hends
  | read hf ha hpos =>
    rw [List.mem_singleton.mp hg] at hends
    exact .inl hends
  | connectThrow | shutdownThrow | feedEnd | writeEnd | readEnd | rejected | done => cases hg
  | _ =>
    rw [List.mem_singleton.mp hg] at hends
    exact hends.elim

/-- **A shutdown completes when both close_notify were exchanged.** -/
theorem shutdown_exchanged {side : Side} {hostname : String} {capacity : Nat}
    {es : List (Event Op Answer)} {c c' : Configuration}
    (hr : Runs.run (step object) (Config.start (.new side hostname capacity)) es = some c)
    (hdone : Completes c c') : c.state.Exchanged := by
  have hinv : ∀ f ∈ frames c.stack, f.Ends → c.state.Parting := by
    refine invariant_of_parts (W := fun _ => True)
      (I := fun s fs _ _ _ => ∀ f ∈ fs, f.Ends → s.Parting)
      (fun _ _ _ _ _ _ _ _ => trivial) (fun s fs _ _ _ o _ hI _ => ?_)
      (fun s f fs _ _ _ a out kept _ hI _ hres hsuffix _ => ?_) nofun before_true onCall_true hr
    · intro g hg hends
      rcases List.mem_cons.mp hg with rfl | hg
      · exact absurd hends (enter_not_ends s o)
      · exact enter_parting (hI g hg hends) o
    · have hs := stretch_of_resume hres
      intro g hg hends
      rcases List.mem_append.mp hg with hg | hg
      · rcases hs.ends_of hg hends with hf | hparting
        · exact hs.parting (hI f (List.mem_cons_self ..) hf)
        · exact hparting
      · exact hs.parting (hI g (List.mem_cons_of_mem _ (hsuffix.subset hg)) hends)
  obtain ⟨rest, hstack⟩ := hdone.notifies
  have hparting := hinv .doShutdownNotify (by rw [hstack]; exact List.mem_cons_self ..) trivial
  exact hparting.exchanged (.inl hdone.closed)

/-! ## And after -/

/-- What every step after the shutdown keeps. -/
structure Parted (n : Nat) (c : Configuration) : Prop where
  entered : Entered c
  exchanged : c.state.Exchanged
  told : n ≤ (callOuts c.log).length

variable {n : Nat} {c c' : Configuration} {e : Event Op Answer}

theorem Parted.step (h : Parted n c) (hs : Step object c e c') : Parted n c' := by
  refine ⟨h.entered.step hs, ?_, ?_⟩
  · exact hs.preserves_always h.exchanged (enter_exchanged h.exchanged) fun hres =>
      (stretch_of_resume hres).exchanged h.exchanged
  · have htold := h.told
    rcases hs.stretch with ⟨o, -, -, rfl⟩ |
      ⟨f, rest, a, out, kept, -, -, -, -, -, -, -, hcallOuts, -⟩ | ⟨-, -, -, hlog⟩
    · simpa using htold
    · rw [hcallOuts, List.length_append]
      omega
    · rw [hlog]
      exact htold

/-- A stretch of a closed stream, both close_notify being exchanged, that is neither in a
handshake call nor reads data leaves it closed, and tells the layer above of no
connection. -/
theorem Stretch.down (hs : Stretch s f ans out) (hexchanged : s.Exchanged)
    (hclosed : s.status = .closed) (hshakes : f.shakes = false) (hread : ReadsNothing s f ans)
    (hclosing : ∀ buf, f ≠ .doShutdown buf) :
    out.state.status = .closed ∧ (∀ g ∈ out.frames, g.shakes = false) ∧
      ∀ k ∈ out.callOuts, k.connected = false := by
  cases hs with
  | handshake | connectThrow => cases hshakes
  | shutdown | shutdownThrow => exact absurd rfl (hclosing _)
  | notifyConnected hst =>
    rw [hclosed] at hst
    cases hst
  | answerShutdown hflags ha =>
    -- the close_notify of the stream was sent, there is nothing to answer
    rw [Stream.onlyReceived, hexchanged.1, Bool.not_true, Bool.and_false] at hflags
    cases hflags
  | @read _ a hf ha hpos =>
    have hend : a.result ≤ 0 := by
      cases f with
      | doConnectRead | doShutdownRead | feedRead => exact hread hexchanged.2
      | _ => exact hf.elim
    omega
  | write hf hout =>
    refine ⟨hclosed, fun g hg => ?_, fun k hk => ?_⟩
    · rw [List.mem_singleton.mp hg]
      exact hshakes
    · rw [List.mem_singleton.mp hk]
      rfl
  | _ => exact ⟨hclosed, by simp [Outcome.frames, WriteCall.finish, Frame.shakes],
      by simp [Outcome.callOuts, WriteCall.finish, CallOut.connected]⟩

/-- **A step keeps the stream down exactly if no bytes are handed up.** -/
theorem Down.step_iff (hp : Parted n c) (h : Down n c) (hlater : Later c e)
    (hstep : step object c e = some c') : Down n c' ↔ HandsUp e = false := by
  have hs := Step.of_step hstep
  rcases hs.stretch with ⟨o, rfl, hout, rfl⟩ |
    ⟨f, rest, a, out, kept, hstack, ha, hres, hstate, hsuffix, -, hframes, hcallOuts, -⟩ |
    ⟨rfl, hstate, hframes, hlog⟩
  · -- a call: `on_received` is the one that enters `do_connect`
    have hentered : (enter c.state o).1 = c.state ∧
        ((enter c.state o).2.shakes = false ↔ HandsUp (.call o) = false) := by
      cases o with
      | onConnected => exact absurd rfl hlater.connected
      | onReceived buf => simp [enter, h.closed, Frame.shakes, HandsUp]
      | write buf => simp [enter, h.closed, Frame.shakes, HandsUp]
      | disconnect => simp [enter, h.closed, Frame.shakes, HandsUp]
      | onDisconnected => exact ⟨rfl, iff_of_true rfl rfl⟩
    obtain ⟨hsame, hshakes⟩ := hentered
    rw [← hshakes]
    constructor
    · exact fun hd => hd.unshaken _ (List.mem_cons_self ..)
    · intro hf
      refine ⟨?_, List.forall_mem_cons.mpr ⟨hf, h.unshaken⟩, by simpa using h.silent⟩
      exact (congrArg Stream.status hsame).trans h.closed
  · have hhands : HandsUp e = false := by
      cases e with
      | call o => cases ha
      | code | unwind | back => rfl
    refine iff_of_true ?_ hhands
    have hmem : f ∈ frames c.stack := by
      rw [hstack]
      exact List.mem_cons_self ..
    have hread : ReadsNothing c.state f a := by
      have hbefore := hlater.reads
      simpa only [Before, ha, hstack] using hbefore
    have hclosing : ∀ buf, f ≠ .doShutdown buf := by
      rintro buf rfl
      have hst := hp.entered.closing buf hmem
      rw [h.closed] at hst
      cases hst
    obtain ⟨hclosed, hshakes, hsilent⟩ := (stretch_of_resume hres).down hp.exchanged h.closed
      (h.unshaken f hmem) hread hclosing
    refine ⟨hstate ▸ hclosed, ?_, ?_⟩
    · rw [hframes]
      intro g hg
      rcases List.mem_append.mp hg with hg | hg
      · exact hshakes g hg
      · refine h.unshaken g ?_
        rw [hstack]
        exact List.mem_cons_of_mem _ (hsuffix.subset hg)
    · rw [hcallOuts, List.drop_append_of_le_length hp.told]
      intro k hk
      rcases List.mem_append.mp hk with hk | hk
      · exact h.silent k hk
      · exact hsilent k hk
  · refine iff_of_true ⟨hstate ▸ h.closed, ?_, ?_⟩ rfl
    · rw [hframes]
      exact h.unshaken
    · rw [hlog]
      exact h.silent

/-- When the shutdown completes the stream is down. -/
theorem Completes.down (hentered : Entered c) (hexchanged : c.state.Exchanged)
    (h : Completes c c') :
    Parted (callOuts c'.log).length c' ∧ Down (callOuts c'.log).length c' := by
  have hs := Step.of_step h.step
  obtain ⟨rest, hstack⟩ := h.notifies
  obtain ⟨s, stack, log⟩ := c
  dsimp only at hstack
  subst hstack
  obtain rfl : c' = ⟨s, .outside .onDisconnected :: .code .doShutdownRead :: rest,
      log ++ [.callOut .onDisconnected]⟩ := by
    have hres : object.resume s .doShutdownNotify .go =
        some (.callOut s .doShutdownRead .onDisconnected []) := if_pos h.closed
    have hstep := h.step
    simp only [Reentrant.step, hres] at hstep
    simpa using hstep.symm
  have hentered' := hentered.step hs
  refine ⟨⟨hentered', hexchanged, Nat.le_refl _⟩, h.closed, fun f hf => ?_, by simp⟩
  -- no activation waits in a handshake call
  have hwait := hentered'.waiting.2 rfl f hf
  cases f with
  | doConnect buf => exact hwait.elim
  | _ => rfl

/-- **A stream that was shut down stays down exactly as long as no bytes are handed up**:
in every run from where `on_disconnected` is called, whatever else is called, and from
wherever. -/
theorem down_iff {side : Side} {hostname : String} {capacity : Nat}
    {es es' : List (Event Op Answer)} {c c₀ c' : Configuration}
    (hr : Runs.run (step object) (Config.start (.new side hostname capacity)) es = some c)
    (hdone : Completes c c₀) (hr' : Runs.run (step object) c₀ es' = some c')
    (hlater : Runs.Along (step object) Later c₀ es') :
    Runs.Throughout (step object) (Down (callOuts c₀.log).length) c₀ es' ↔
      Runs.Along (step object) (fun _ e => HandsUp e = false) c₀ es' := by
  have hentered : Entered c :=
    Runs.run_invariant (fun _ _ _ hc hstep => hc.step (Step.of_step hstep))
      (Entered.start (.new side hostname capacity)) hr
  obtain ⟨hparted, hdown⟩ := hdone.down hentered (shutdown_exchanged hr hdone)
  exact Runs.throughout_iff_along_under
    (fun _ _ _ hp hstep => hp.step (Step.of_step hstep))
    (fun _ _ _ hp hd hl hstep => hd.step_iff hp hl hstep) hparted hdown hlater hr'

/-! ## Two runs -/

/-- A client connects, and disconnects, up to where the layer above is to be told. -/
def shutDownRun : List (Event Op Answer) := handshakeRun ++ disconnectRun.take 10

/-- The layer above writes, and disconnects again. -/
def quietRun : List (Event Op Answer) :=
  [.back, .code (.engine { result := 0, error := .zeroReturn }),
    .call (.write [7]), .code .go, .call .disconnect, .code .go]

/-- The layer below hands up a byte. -/
def lateRun : List (Event Op Answer) :=
  [.back, .code (.engine { result := 0, error := .zeroReturn }), .call (.onReceived [9]),
    .code (.engine { result := 1, established := true }), .code .go, .code .go]

theorem shutDownRun_completes {P : Configuration → Prop} [DecidablePred P]
    (h : (Runs.run (step object) (Config.start (.ofContext .client ""))
      (shutDownRun ++ [.code .go])).any (P ·) = true) : ∃ c c₀,
    Runs.run (step object) (Config.start (.ofContext .client "")) shutDownRun = some c ∧
      Completes c c₀ ∧ P c₀ := by
  obtain ⟨c₀, hr₀, hP⟩ := Runs.exists_run h
  obtain ⟨c, hr, hstep⟩ := Runs.run_append_some.mp hr₀
  obtain ⟨d, hd, hclosed, hstack⟩ : ∃ d, Runs.run (step object)
      (Config.start (.ofContext .client "")) shutDownRun = some d ∧
        d.state.status = .closed ∧ d.stack = [.code .doShutdownNotify] :=
    Runs.exists_run (by decide)
  obtain rfl : d = c := Option.some.inj (hd.symm.trans hr)
  obtain ⟨c₁, hc₁, heq⟩ := Runs.run_cons_some.mp hstep
  obtain rfl : c₁ = c₀ := Option.some.inj heq
  exact ⟨d, c₁, hr, ⟨hclosed, ⟨[], hstack⟩, hc₁⟩, hP⟩

/-- The stream stays down while the layer above writes and disconnects. -/
theorem down_iff_quiet : ∃ c c₀,
    Runs.run (step object) (Config.start (.ofContext .client "")) shutDownRun = some c ∧
      Completes c c₀ ∧ Runs.Along (step object) Later c₀ quietRun ∧
      Runs.Throughout (step object) (Down (callOuts c₀.log).length) c₀ quietRun := by
  obtain ⟨c, c₀, hr, hdone, hrun, hlater, hquiet⟩ := shutDownRun_completes
    (P := fun c₀ => (Runs.run (step object) c₀ quietRun).isSome ∧
      Runs.Along (step object) Later c₀ quietRun ∧
      Runs.Along (step object) (fun _ e => HandsUp e = false) c₀ quietRun) (by decide)
  obtain ⟨c', hr'⟩ := Option.isSome_iff_exists.mp hrun
  exact ⟨c, c₀, hr, hdone, hlater, (down_iff hr hdone hr' hlater).mpr hquiet⟩

/-- A byte that comes late: the engine's handshake is finished, so `SSL_connect` returns
1, and the layer above is told that it is connected. -/
theorem connected_again : ∃ c c₀ c',
    Runs.run (step object) (Config.start (.ofContext .client "")) shutDownRun = some c ∧
      Completes c c₀ ∧ Runs.run (step object) c₀ lateRun = some c' ∧
      Runs.Along (step object) Later c₀ lateRun ∧ c'.state.status = .connected ∧
      (callOuts c'.log).drop (callOuts c₀.log).length = [.onConnected] := by
  obtain ⟨c, c₀, hr, hdone, hlater, hlate⟩ := shutDownRun_completes
    (P := fun c₀ => Runs.Along (step object) Later c₀ lateRun ∧
      (Runs.run (step object) c₀ lateRun).any (fun c' => c'.state.status = .connected ∧
        (callOuts c'.log).drop (callOuts c₀.log).length = [.onConnected]) = true) (by decide)
  obtain ⟨c', hr', hconnected, htold⟩ := Runs.exists_run hlate
  exact ⟨c, c₀, c', hr, hdone, hr', hlater, hconnected, htold⟩

end Ssl
end AcppNetwork
