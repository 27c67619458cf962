import AcppNetwork.SecureStream
import AcppNetwork.SslHandshake
import Mathlib

/-!
# The handshake of `ssl::stream<socket_stream>` over the Linux backend

A layer below that delivers at once lets two activations of `do_connect` notify the layer above
(`SslHandshake`).  The socket of the Linux backend does not: `write` calls nothing but
`on_error`, and what arrives comes from `handle_event`, which the event loop calls.

As long as the loop is not entered again from a callback, an operation of the layer below is
therefore under way only once (`along_oneAtATime`), whatever the application writes from its
callbacks.
The conditions of `SslHandshake` on the calls and on what overtakes what are then met, and what
remains is what the engine and the application do: the handshake is finished by a handshake
call, and the application does not disconnect (`handshake_notified`).
-/
namespace AcppNetwork

open Reentrant

namespace Ssl

/-! ## One operation of the layer below at a time -/

/-- The operations the layer below calls. -/
def Op.Incoming : Op → Prop
  | .onConnected | .onReceived _ | .onDisconnected => True
  | .write _ | .disconnect => False

/-- The activations of these; those of `write` are the others. -/
def Frame.Incoming : Frame → Prop
  | .writeLoop _ | .writeDrain _ | .writeFinal _ | .writeRejected _ => False
  | _ => True

instance (f : Frame) : Decidable f.Incoming := by
  cases f <;> unfold Frame.Incoming <;> infer_instance

/-- The activations of `do_shutdown`. -/
def Frame.ShutsDown : Frame → Prop
  | .doShutdown _ | .doShutdownWrite | .doShutdownNotify | .doShutdownRead => True
  | _ => False

/-- The condition on the calls: the layer above does not disconnect, and the layer below calls
while no activation of a call of it is under way. -/
def OneAtATime (_ : Stream) (fs : List Frame) (o : Op) : Prop :=
  o ≠ .disconnect ∧ (o.Incoming → ∀ f ∈ fs, ¬ f.Incoming)

/-- The condition on the engine: no `SSL_read`, `SSL_write` or `SSL_shutdown` finishes the
handshake. -/
def FinishedByHandshake (s : Stream) (f : Frame) (_ : List Frame) (ans : Answer) : Prop :=
  match f, ans with
  | .doConnect _, _ => True
  | _, .engine a => s.established = false → a.established = false
  | _, .go => True

instance (s : Stream) (f : Frame) (fs : List Frame) (ans : Answer) :
    Decidable (FinishedByHandshake s f fs ans) := by
  rcases f with ⟨⟩ <;> rcases ans with ⟨⟩ <;> unfold FinishedByHandshake <;> infer_instance

/-- A finished handshake leaves the stream connected until the peer closes it, and of the
activations under way at most one is of the layer below. -/
structure Calm (s : Stream) (fs : List Frame) : Prop where
  established : s.established = true → s.status = .connected ∨ s.status = .peerClosing
  notClosing : s.status ≠ .closing
  noShutdown : ∀ f ∈ fs, ¬ f.ShutsDown
  one : fs.Pairwise fun f g => f.Incoming → ¬ g.Incoming

section
variable {s : Stream} {f : Frame} {fs kept : List Frame} {ans : Answer} {out : Next} {o : Op}

/-- A stretch of code stays in its operation. -/
theorem Stretch.sameOp (h : Stretch s f ans out) :
    ∀ g ∈ out.frames, (g.Incoming ↔ f.Incoming) ∧ (g.ShutsDown → f.ShutsDown) := by
  cases h with
  | write | read =>
    intro g hg
    obtain rfl := List.mem_singleton.mp hg
    exact ⟨Iff.rfl, id⟩
  | _ => simp [Outcome.frames, Frame.Incoming, Frame.ShutsDown, WriteCall.finish]

/-- What a stretch of code outside `do_shutdown` does to the status. -/
theorem Stretch.status_established (hf : ¬ f.ShutsDown) (hp : FinishedByHandshake s f fs ans)
    (hs : s.established = true → s.status = .connected ∨ s.status = .peerClosing)
    (hne : s.status ≠ .closing) (h : Stretch s f ans out) :
    (out.state.established = true →
      out.state.status = .connected ∨ out.state.status = .peerClosing) ∧
    out.state.status ≠ .closing := by
  -- an engine call that does not finish the handshake
  have kept : ∀ a : Reply, (s.established = false → a.established = false) →
      ((s.engine a).established = true → s.status = .connected ∨ s.status = .peerClosing) := by
    intro a ha hest
    apply hs
    cases hfin : s.established with
    | true => rfl
    | false => simp [hfin, ha hfin] at hest
  cases h with
  | @handshake buf a hst ha =>
    refine ⟨fun hest => .inl ?_, ?_⟩
    · have hone : a.result = 1 := ha.2.2.2.1.mpr hest
      simp [Outcome.state, Stream.statusConnecting, hone]
    · simp only [Outcome.state, Stream.statusConnecting]
      split
      · exact fun h => by cases h
      · split <;> exact fun h => by cases h
  | connectThrow => simpa [Outcome.state] using ⟨hs, hne⟩
  | shutdown | shutdownThrow | notifyDisconnected | skipDisconnected | shutdownDrained =>
    exact absurd trivial hf
  | answerShutdown hflags ha => exact ⟨fun _ => .inr rfl, by simp [Outcome.state]⟩
  | read hreads ha hpos =>
    cases f with
    | doConnectRead | feedRead => exact ⟨kept _ hp, hne⟩
    | _ => first | exact hreads.elim | exact absurd trivial hf
  | readEnd hend =>
    rcases hend with rfl | rfl
    · exact ⟨kept _ hp, hne⟩
    · exact absurd trivial hf
  | feedReadEnd | writeTook | writeBroke => exact ⟨kept _ hp, hne⟩
  | _ => exact ⟨hs, hne⟩

theorem enter_incoming (s : Stream) (o : Op) (ho : o ≠ .disconnect) :
    (enter s o).2.Incoming → o.Incoming := by
  cases o with
  | write buf =>
    simp only [enter]
    split <;> exact id
  | disconnect => exact absurd rfl ho
  | _ => exact fun _ => trivial

/-- Calls that meet the condition keep the stream calm. -/
theorem Calm.call (h : Calm s fs) (hq : OneAtATime s fs o) :
    Calm (enter s o).1 ((enter s o).2 :: fs) := by
  obtain ⟨hdisc, hone⟩ := hq
  have hsame : (enter s o).1 = s := by
    rcases enter_state s o with heq | ⟨heq, -⟩
    · exact heq
    · exact absurd heq hdisc
  have hnoShutdown : ¬ (enter s o).2.ShutsDown := by
    cases o with
    | onReceived buf =>
      have hne := h.notClosing
      simp only [enter]
      split <;> first | exact id | exact absurd ‹_› hne
    | disconnect => exact absurd rfl hdisc
    | onConnected | write buf =>
      simp only [enter]
      split <;> exact id
    | onDisconnected => exact id
  rw [hsame]
  refine ⟨h.established, h.notClosing, List.forall_mem_cons.mpr ⟨hnoShutdown, h.noShutdown⟩, ?_⟩
  exact List.pairwise_cons.mpr ⟨fun g hg hin => hone (enter_incoming s o hdisc hin) g hg, h.one⟩

/-- So does every stretch of code. -/
theorem Calm.stretch (h : Calm s (f :: fs)) (hp : FinishedByHandshake s f fs ans)
    (hs : Stretch s f ans out) (hsuffix : kept <:+ fs) :
    Calm out.state (out.frames ++ kept) := by
  obtain ⟨hf, hfs⟩ := List.forall_mem_cons.mp h.noShutdown
  obtain ⟨hone, hones⟩ := List.pairwise_cons.mp h.one
  obtain ⟨hest, hne⟩ := hs.status_established hf hp h.established h.notClosing
  have hframes := hs.sameOp
  refine ⟨hest, hne, fun g hg => ?_, ?_⟩
  · rcases List.mem_append.mp hg with hg | hg
    · exact fun hshut => hf ((hframes g hg).2 hshut)
    · exact hfs g (hsuffix.subset hg)
  · have hkept : kept.Pairwise fun f g => f.Incoming → ¬ g.Incoming := hones.sublist hsuffix.sublist
    refine List.pairwise_append.mpr ⟨?_, hkept, fun g hg g' hg' hin => ?_⟩
    · cases out <;> simp [Outcome.frames]
    · exact hone g' (hsuffix.subset hg') ((hframes g hg).1.mp hin)

/-- A stretch of code of a calm stream meets the condition of `SslHandshake`. -/
theorem Calm.handshakeAlone (h : Calm s (f :: fs)) (hp : FinishedByHandshake s f fs ans)
    (hs : Stretch s f ans out) : HandshakeAlone s f fs ans := by
  obtain ⟨hone, -⟩ := List.pairwise_cons.mp h.one
  have halone : f.Incoming → .doConnectWrite ∉ fs := fun hf hmem => hone _ hmem hf trivial
  cases f with
  | doConnect buf =>
    cases hs with
    | handshake hst ha =>
      refine ⟨?_, fun _ => halone trivial⟩
      -- a finished handshake would have left the stream connected
      by_contra hest
      rw [Bool.not_eq_false] at hest
      rcases h.established hest with hc | hc <;> simp [Stream.mayConnect, hc] at hst
    | connectThrow hst => exact trivial
    | write hdrains => exact hdrains.elim
    | read hreads => exact hreads.elim
    | readEnd hend => rcases hend with hend | hend <;> cases hend
  | feedRead buf totN =>
    cases ans with
    | engine a => exact fun _ => halone trivial
    | go => exact trivial
  | checkShutdown =>
    cases ans with
    | engine a => exact halone trivial
    | go => exact trivial
  | _ =>
    cases ans with
    | engine a => exact hp
    | go => exact trivial

/-- And so do the calls. -/
theorem OneAtATime.notOvertaken (hq : OneAtATime s fs o) : NotOvertaken s fs o := by
  obtain ⟨hdisc, hone⟩ := hq
  refine fun _ hmem => ⟨hdisc, fun ho => ?_⟩
  exact absurd trivial (hone (ho ▸ trivial) _ hmem)

/-- **Where the layer below calls one operation at a time, the layer above is told once** that
the handshake is finished. -/
theorem notified_one_at_a_time {side : Side} {hostname : String} {capacity : Nat}
    {es : List (Event Op Answer)} {c : Configuration}
    (hr : Runs.run (step object) (Config.start (Stream.new side hostname capacity)) es = some c)
    (hp : Runs.Along (step object)
      (fun c e => Before FinishedByHandshake c e ∧ OnCall OneAtATime c e)
      (Config.start (Stream.new side hostname capacity)) es) : NotifiedOnce c := by
  have hmet : Runs.Along (step object)
      (fun c e => Before HandshakeAlone c e ∧ OnCall NotOvertaken c e)
      (Config.start (Stream.new side hostname capacity)) es := by
    refine Runs.Along.of_invariant (I := fun c => Calm c.state (frames c.stack))
      (fun c e c' hcalm hp hstep => ?_) ?_ hp hr
    · obtain ⟨hbefore, honcall⟩ := hp
      rcases (Step.of_step hstep).stretch with ⟨o, rfl, -, rfl⟩ |
        ⟨f, rest, a, out, kept, hstack, ha, hres, hstate, hsuffix, -, hframes, -⟩ |
        ⟨rfl, hstate, hframes, -⟩
      · exact ⟨hcalm.call honcall, trivial, honcall.notOvertaken⟩
      · have hstretch := stretch_of_resume hres
        simp only [Before, ha, hstack] at hbefore ⊢
        rw [hstack, frames_code] at hcalm
        rw [hstate, hframes]
        refine ⟨hcalm.stretch hbefore hstretch hsuffix, hcalm.handshakeAlone hbefore hstretch, ?_⟩
        cases e <;> first | exact trivial | cases ha
      · rw [hstate, hframes]
        exact ⟨hcalm, trivial, trivial⟩
    · exact ⟨fun h => (by cases h), fun h => (by cases h), by simp [Config.start],
        by simp [Config.start]⟩
  exact (phase hr (hmet.imp fun _ _ h => h.1) (hmet.imp fun _ _ h => h.2)).notifiedOnce

end

end Ssl

namespace StreamOnLinux

/-- The activations of `handle_event`. -/
def Frame.Looping : Frame → Prop
  | .event _ | .sentRest _ _ | .readBranch _ | .done => True
  | _ => False

instance : (f : Frame) → Decidable f.Looping
  | .event _ | .sentRest _ _ | .readBranch _ | .done => .isTrue trivial
  | .connect | .write _ | .writeRest _ _ | .disconnect => .isFalse id

section
variable {s : StreamOnLinux} {f : Frame} {a : Answer} {out : Next}

/-- `so_write` calls nothing but `on_error`. -/
theorem soWrite_onError {socket : Linux.Socket} {buffer : List Byte} {as : List Linux.Send}
    {w : Linux.Socket.Written} {cb : Linux.Callback} (h : socket.soWrite buffer as = some w)
    (hcb : w.callback = some cb) : ∃ e hint, cb = .onError e hint := by
  induction as generalizing socket buffer w with
  | nil => cases h
  | cons a as ih =>
    obtain ⟨-, ⟨-, rfl⟩ | ⟨w', hw', rfl⟩⟩ := Linux.Socket.soWrite_cons h
    · cases a with
      | sent n => cases hcb
      | failed e refused =>
        simp only [Linux.Socket.soWriteInternal] at hcb
        split at hcb
        · cases hcb
        · exact ⟨_, _, Linux.Callbacks.call?_eq_some hcb⟩
    · exact ih hw' hcb

/-- A stretch of code stays in its operation, and only `handle_event` calls anything but
`on_error`. -/
theorem resume_sameOp (h : resume s f a = some out) :
    (∀ g ∈ out.frames, (g.Looping ↔ f.Looping)) ∧
      ∀ k ∈ out.callOuts, f.Looping ∨ ∃ e hint, k = .onError e hint := by
  cases f with
  | write buf =>
    cases a with
    | sends as =>
      obtain ⟨w, hw, rfl⟩ := Option.map_eq_some_iff.mp h
      cases hcb : w.callback with
      | some cb =>
        obtain ⟨e, hint, rfl⟩ := soWrite_onError hw hcb
        exact ⟨by simp [Outcome.frames, Frame.Looping], by simp [Outcome.callOuts]⟩
      | none => exact ⟨by simp [Outcome.frames], by simp [Outcome.callOuts]⟩
    | _ => cases h
  | connect | disconnect | writeRest =>
    cases a <;> cases h
    exact ⟨by simp [Outcome.frames], by simp [Outcome.callOuts]⟩
  | event events =>
    refine ⟨fun g hg => iff_of_true ?_ trivial, fun k _ => .inl trivial⟩
    cases a with
    | wake refused soError as =>
      obtain ⟨-, g', hframes, hor⟩ := wake_frames (Option.ite_none_right_eq_some.mp h).2
      rw [hframes] at hg
      obtain rfl := List.mem_singleton.mp hg
      rcases hor with rfl | ⟨n, rfl⟩ <;> exact trivial
    | go =>
      cases (Option.ite_none_left_eq_some.mp h).2
      obtain rfl := List.mem_singleton.mp hg
      exact trivial
    | _ => cases h
  | sentRest events n =>
    cases a <;> cases h
    exact ⟨by simp [Outcome.frames, Frame.Looping], by simp [Outcome.callOuts]⟩
  | readBranch events =>
    refine ⟨fun g hg => iff_of_true ?_ trivial, fun k _ => .inl trivial⟩
    cases a with
    | recv b =>
      cases receive_frames (Option.ite_none_right_eq_some.mp h).2 g hg
      exact trivial
    | go =>
      cases (Option.ite_none_left_eq_some.mp h).2
      obtain rfl := List.mem_singleton.mp hg
      exact trivial
    | _ => cases h
  | done =>
    cases a <;> cases h
    exact ⟨by simp [Outcome.frames], by simp [Outcome.callOuts]⟩

end

end StreamOnLinux

namespace SecureStream

/-! ## What is under way -/

/-- The activations under way are of `write` and the calls of the application, of the layer
below, or of `handle_event`. -/
inductive Kind where
  | outgoing
  | incoming
  | looping
  deriving DecidableEq

def kind : (Σ i, Of Ssl.Frame StreamOnLinux.Frame i) → Kind
  | ⟨.tls, f⟩ => if Ssl.Frame.Incoming f then .incoming else .outgoing
  | ⟨.transport, f⟩ => if StreamOnLinux.Frame.Looping f then .looping else .outgoing

/-- `handle_event` is at the bottom, with at most one call of the TLS layer on it; the rest are
calls that go down. -/
inductive Shape : List Kind → Prop where
  | nil : Shape []
  | loop : Shape [.looping]
  | incoming : Shape [.incoming, .looping]
  | outgoing {ks} (h : Shape ks) : Shape (.outgoing :: ks)

theorem Shape.rest {k : Kind} {ks : List Kind} (h : Shape (k :: ks)) : Shape ks := by
  cases h with
  | loop => exact .nil
  | incoming => exact .loop
  | outgoing h => exact h

theorem Shape.looping {ks : List Kind} (h : Shape (.looping :: ks)) : ks = [] := by
  cases h
  rfl

/-- A call of the TLS layer by `handle_event`. -/
theorem Shape.onLoop (f : Ssl.Frame) : Shape [kind ⟨.tls, f⟩, .looping] := by
  by_cases hf : f.Incoming
  · rw [show kind ⟨.tls, f⟩ = .incoming from if_pos hf]
    exact .incoming
  · rw [show kind ⟨.tls, f⟩ = .outgoing from if_neg hf]
    exact .outgoing .loop

/-- The kinds of the activations under way. -/
def kinds (c : Configuration) : List Kind := (activations c.stack).map kind

/-- The condition on the outside: the application calls `write`, and `connect`, and the event loop
is not entered again while an activation is under way. -/
def Driven (c : Configuration) : Choice → Prop
  | .call ⟨.tls, .write _⟩ => True
  | .call ⟨.transport, .connect⟩ => True
  | .call ⟨.transport, .event _⟩ => c.stack = []
  | .call _ => False
  | _ => True

/-- A stretch of code of a layer leaves its activation of the kind it is. -/
theorem kind_stretch {i : Layer} {s : Of Ssl.Stream StreamOnLinux i}
    {f g : Of Ssl.Frame StreamOnLinux.Frame i} {a : Of Ssl.Answer StreamOnLinux.Answer i}
    {out : Outcome (Of Ssl.Stream StreamOnLinux i) (Of Ssl.Frame StreamOnLinux.Frame i)
      (Of Ssl.CallOut Linux.Callback i) (Of Ssl.Result StreamOnLinux.Result i)
      (Of Ssl.Note Linux.Failure i)}
    (h : (network.part i).resume s f a = some out) (hg : g ∈ out.frames) :
    kind ⟨i, g⟩ = kind ⟨i, f⟩ := by
  cases i with
  | tls =>
    have hsame := ((Ssl.stretch_of_resume h).sameOp g hg).1
    simp only [kind, hsame]
  | transport =>
    have hsame := (StreamOnLinux.resume_sameOp h).1 g hg
    simp only [kind, hsame]

/-- The TLS layer is called by `handle_event`, and calls `write`. -/
theorem kind_callTo {i m : Layer} {s : Of Ssl.Stream StreamOnLinux i}
    {f g : Of Ssl.Frame StreamOnLinux.Frame i} {a : Of Ssl.Answer StreamOnLinux.Answer i}
    {s' : Of Ssl.Stream StreamOnLinux i} {k : Of Ssl.CallOut Linux.Callback i}
    {ns : List (Of Ssl.Note Linux.Failure i)} {o : Of Ssl.Op StreamOnLinux.Op m}
    (h : (network.part i).resume s f a = some (.callOut s' g k ns))
    (hroute : network.route i k = some ⟨m, o⟩) (t : Of Ssl.Stream StreamOnLinux m) :
    m = .tls ∧ kind ⟨i, g⟩ = .looping ∨ kind ⟨m, ((network.part m).enter t o).2⟩ = .outgoing := by
  cases i with
  | tls =>
    right
    cases k with
    | nextWrite buf =>
      cases hroute
      rfl
    | _ => cases hroute
  | transport =>
    left
    obtain ⟨hframes, hcalls⟩ := StreamOnLinux.resume_sameOp h
    rcases hcalls k (List.mem_singleton.mpr rfl) with hf | ⟨e, hint, rfl⟩
    · have hg : StreamOnLinux.Frame.Looping g := (hframes g (List.mem_singleton.mpr rfl)).mpr hf
      refine ⟨?_, if_pos hg⟩
      cases k <;> cases hroute <;> rfl
    · cases hroute

/-- **A step keeps the shape of what is under way.** -/
theorem Shape.step {c c' : Configuration} {e : Choice} (hs : Shape (kinds c))
    (hp : NoThrow e ∧ Driven c e) (h : Step network.object c e c') : Shape (kinds c') := by
  cases h with
  | @call s stack log o hout =>
    obtain ⟨i, o⟩ := o
    cases i with
    | tls =>
      cases o with
      | write buf =>
        have hkind : kind ⟨.tls, (Ssl.enter (s .tls) (.write buf)).2⟩ = .outgoing := by
          simp only [Ssl.enter]
          split <;> rfl
        show Shape (kind ⟨.tls, (Ssl.enter (s .tls) (.write buf)).2⟩ :: _)
        rw [hkind]
        exact .outgoing hs
      | _ => exact hp.2.elim
    | transport =>
      cases o with
      | connect => exact .outgoing hs
      | event events =>
        obtain rfl : stack = [] := hp.2
        exact .loop
      | _ => exact hp.2.elim
  | back => exact hs
  | unwind => exact hp.1.elim
  | @goto s segs stack log a s' segs' ns h =>
    cases Network.stretch_of_resume h with
    | @goto i f rest a s' g ns hres =>
      have hkind : kind ⟨i, g⟩ = kind ⟨i, f⟩ := kind_stretch hres (List.mem_singleton.mpr rfl)
      show Shape (kind ⟨i, g⟩ :: _)
      rw [hkind]
      exact hs
    | @callTo i f rest a s' g k ns m o hres hroute =>
      have hkind : kind ⟨i, g⟩ = kind ⟨i, f⟩ := kind_stretch hres (List.mem_singleton.mpr rfl)
      have hcaller : Shape (kind ⟨i, g⟩ :: (rest.map Seg.frame ++ activations stack).map kind) := by
        rw [hkind]
        exact hs
      show Shape (kind ⟨m, ((network.part m).enter (Function.update s i s' m) o).2⟩ ::
        kind ⟨i, g⟩ :: (rest.map Seg.frame ++ activations stack).map kind)
      rcases kind_callTo hres hroute (Function.update s i s' m) with ⟨rfl, hloop⟩ | hout
      · -- `handle_event` calls the TLS layer: nothing else is under way
        rw [hloop] at hcaller ⊢
        rw [hcaller.looping]
        exact .onLoop _
      · rw [hout]
        exact .outgoing hcaller
    | retTo hres => exact hs.rest
  | callOut h =>
    cases Network.stretch_of_resume h with
    | @callOut i f rest a s' g k ns hres hroute =>
      have hkind : kind ⟨i, g⟩ = kind ⟨i, f⟩ := kind_stretch hres (List.mem_singleton.mpr rfl)
      show Shape (kind ⟨i, g⟩ :: _)
      rw [hkind]
      exact hs
  | ret h =>
    cases Network.stretch_of_resume h with
    | ret hres => exact hs.rest

/-- While `handle_event` runs, the TLS layer has nothing under way. -/
theorem tls_idle {c : Configuration} {f : StreamOnLinux.Frame}
    {rest : List Activation}
    {stack : List (Act (List Activation) (Σ i, Of Ssl.CallOut Linux.Callback i))}
    (hc : c.stack = .code (.runs .transport f :: rest) :: stack) (hs : Shape (kinds c))
    (hf : f.Looping) : frames (viewStack Layer.tls c.stack) = [] := by
  have hnone : (rest.map Seg.frame ++ activations stack).map kind = [] := by
    refine Shape.looping ?_
    have hkind : kind ⟨.transport, f⟩ = .looping := if_pos hf
    rw [← hkind]
    rw [kinds, hc] at hs
    exact hs
  rw [frames_viewStack, hc, activations_code, List.map_cons, List.cons_append,
    List.map_eq_nil_iff.mp hnone]
  rfl

/-- **The TLS layer's calls meet the condition**: those of the layer below come from
`handle_event`. -/
theorem Shape.oneAtATime {c : Configuration} {e : Choice} (hs : Shape (kinds c))
    (hp : Driven c e) : network.On .tls (OnCall Ssl.OneAtATime) c e := by
  refine Network.on_onCall (j := Layer.tls) (fun o ho => ?_)
    fun i f rest stack a s' g k ns o hc hres hroute => ?_
  · subst ho
    cases o with
    | write buf => exact ⟨fun h => (by cases h), fun h => h.elim⟩
    | _ => exact hp.elim
  · cases i with
    | tls => cases k <;> cases hroute
    | transport =>
      refine ⟨fun h => (by cases h), ?_⟩
      obtain ⟨hframes, hcalls⟩ := StreamOnLinux.resume_sameOp hres
      rcases hcalls k (List.mem_singleton.mpr rfl) with hf | ⟨e, hint, rfl⟩
      · rw [tls_idle hc hs hf]
        refine ⟨?_, fun _ f hf => (by cases hf)⟩
        cases k <;> cases hroute <;> exact fun h => (by cases h)
      · cases hroute

/-- **The transport calls the TLS layer once at a time**: in every such run no operation of the
layer below is called while an activation of one is under way, `do_connect` among them. -/
theorem along_oneAtATime {s : Network.State (Of Ssl.Stream StreamOnLinux)} {es : List Choice}
    {c : Configuration} (hr : Runs.run (step network.object) (Config.start s) es = some c)
    (hp : Runs.Along (step network.object) (fun c e => NoThrow e ∧ Driven c e)
      (Config.start s) es) :
    Runs.Along (step network.object) (network.On .tls (OnCall Ssl.OneAtATime))
      (Config.start s) es :=
  Runs.Along.of_invariant (I := fun c => Shape (kinds c))
    (fun _ _ _ hs hp hstep => ⟨hs.step hp (Step.of_step hstep), hs.oneAtATime hp.2⟩) .nil hp hr

/-- **Over this transport the layer above is told once that the handshake is finished.**  In every
run without exceptions in which the application writes and connects when it likes and the loop is
not entered again from a callback, if no engine call but that of `do_connect` finishes the
handshake, `on_connected` is called once, when the handshake is finished, and data follow it. -/
theorem handshake_notified {side : Ssl.Side} {hostname : String} {capacity : Nat}
    {socket : StreamOnLinux} {es : List Choice} {c : Configuration}
    (hr : Runs.run (step network.object) (Config.start (created side hostname capacity socket)) es
      = some c)
    (hp : Runs.Along (step network.object)
      (fun c e => (NoThrow e ∧ Driven c e) ∧ network.On .tls (Before Ssl.FinishedByHandshake) c e)
      (Config.start (created side hostname capacity socket)) es) : Ssl.NotifiedOnce (tls c) := by
  have hno : Runs.Along (step network.object) (fun _ e => NoThrow e)
      (Config.start (created side hostname capacity socket)) es := hp.imp fun _ _ h => h.1.1
  have hone := along_oneAtATime hr (hp.imp fun _ _ h => h.1)
  obtain ⟨htls, -⟩ := view_run (j := Layer.tls) hr hno
  exact Ssl.notified_one_at_a_time htls
    ((along_view hr hno (hp.imp fun _ _ h => h.2)).and (along_view hr hno hone))

instance (c : Configuration) (e : Choice) : Decidable (Driven c e) := by
  rcases e with ⟨i, o⟩ | a | ⟨a, depth⟩ | _
  · rcases i with ⟨⟩ <;> rcases o with ⟨⟩ <;> unfold Driven <;> infer_instance
  all_goals exact .isTrue trivial

theorem handshake_notified_connected :
    ∃ c, Runs.run (step network.object)
        (Config.start (created .client "" 5120 (StreamOnLinux.created 5 false))) handshakeRun
          = some c ∧
      .onConnected ∈ callOuts (tls c).log ∧ Ssl.NotifiedOnce (tls c) := by
  obtain ⟨c, hr, hconnected⟩ :
      ∃ c, Runs.run (step network.object)
          (Config.start (created .client "" 5120 (StreamOnLinux.created 5 false))) handshakeRun
            = some c ∧ .onConnected ∈ callOuts (tls c).log :=
    Runs.exists_run (by decide)
  exact ⟨c, hr, hconnected, handshake_notified hr (by decide)⟩

end SecureStream
end AcppNetwork
