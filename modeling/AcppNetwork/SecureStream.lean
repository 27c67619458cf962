import AcppNetwork.ObjectNetwork
import AcppNetwork.SslCiphertext
import AcppNetwork.StreamOrder
import Mathlib

/-!
# `ssl::stream<socket_stream>` over the Linux backend

The TLS layer and the `socket_stream` under it as a network of two objects: `next_.write` of
the one is `write` of the other, whose `on_connected`, `on_received` and `on_disconnected` are
operations of the first.  The application is above, the event loop and the kernel below.

The ciphertext passes two buffers, the pair of the engine and `pending_data_`.  If the reads
that end `do_connect` and `do_shutdown` put nothing into the pair, every `write` finds the
socket stream able to keep it in order, and no error callback of an unfinished one writes, the
kernel gets the engine's ciphertext in order: between operations, all of it but what is in
`pending_data_` (`ciphertext_sent`).
-/
namespace AcppNetwork
namespace SecureStream

open Reentrant

/-- The layers. -/
inductive Layer where
  | tls
  | transport
  deriving DecidableEq

/-- What there is of each layer. -/
abbrev Of (tls transport : Type) : Layer → Type
  | .tls => tls
  | .transport => transport

/-- `next_.write<Chain>`. -/
def down : Ssl.CallOut → Option (Σ i, Of Ssl.Op StreamOnLinux.Op i)
  | .nextWrite buf => some ⟨.transport, .write buf⟩
  | _ => none

/-- `prior->on_connected<Chain>` and so on. -/
def up : Linux.Callback → Option (Σ i, Of Ssl.Op StreamOnLinux.Op i)
  | .onConnected => some ⟨.tls, .onConnected⟩
  | .onReceived buf => some ⟨.tls, .onReceived buf⟩
  | .onDisconnected => some ⟨.tls, .onDisconnected⟩
  | _ => none

/-- The two layers. -/
def network : Network (Of Ssl.Stream StreamOnLinux) (Of Ssl.Op StreamOnLinux.Op)
    (Of Ssl.Frame StreamOnLinux.Frame) (Of Ssl.CallOut Linux.Callback)
    (Of Ssl.Answer StreamOnLinux.Answer) (Of Ssl.Result StreamOnLinux.Result)
    (Of Ssl.Note Linux.Failure) where
  part
    | .tls => Ssl.object
    | .transport => StreamOnLinux.object
  route
    | .tls => down
    | .transport => up

abbrev Configuration := NetConfig (Of Ssl.Stream StreamOnLinux) (Of Ssl.Op StreamOnLinux.Op)
  (Of Ssl.Frame StreamOnLinux.Frame) (Of Ssl.CallOut Linux.Callback)
  (Of Ssl.Result StreamOnLinux.Result) (Of Ssl.Note Linux.Failure)

/-- An activation of one of the layers. -/
abbrev Activation := Seg (Of Ssl.Frame StreamOnLinux.Frame) (Of Ssl.CallOut Linux.Callback)

/-- The choices of the outside. -/
abbrev Choice :=
  Event (Σ i, Of Ssl.Op StreamOnLinux.Op i) (Σ i, Of Ssl.Answer StreamOnLinux.Answer i)

/-- The state the constructors make. -/
def created (side : Ssl.Side) (hostname : String) (capacity : Nat) (socket : StreamOnLinux) :
    Network.State (Of Ssl.Stream StreamOnLinux)
  | .tls => Ssl.Stream.new side hostname capacity
  | .transport => socket

/-- The TLS layer, with what it has under way and logged. -/
abbrev tls (c : Configuration) : Ssl.Configuration := view Layer.tls c

/-- The transport. -/
abbrev transport (c : Configuration) : StreamOnLinux.Configuration := view Layer.transport c

/-! ## The ciphertext -/

/-- Nobody but the TLS layer writes to the transport. -/
def OnlyTls : Choice → Prop
  | .call ⟨.transport, .write _⟩ => False
  | _ => True

instance (e : Choice) : Decidable (OnlyTls e) := by
  rcases e with ⟨i, o⟩ | a | ⟨a, depth⟩ | _
  · rcases i with ⟨⟩
    · exact .isTrue trivial
    · rcases o with ⟨⟩ <;> unfold OnlyTls <;> infer_instance
  all_goals exact .isTrue trivial

/-- The condition: no exception leaves an activation, only the TLS layer writes to the transport,
no read at the end of its operations leaves ciphertext behind (`Ssl.NoOutputAtEnd`), and the
transport keeps what it is given in order. -/
def CiphertextKept (c : Configuration) (e : Choice) : Prop :=
  (NoThrow e ∧ OnlyTls e) ∧ network.On .tls (Before Ssl.NoOutputAtEnd) c e ∧
    network.On .transport
      (fun c e => Before StreamOnLinux.WritesInOrder c e ∧ OnCall StreamOnLinux.NotInWrite c e) c e

instance (c : Configuration) (e : Choice) : Decidable (CiphertextKept c e) := by
  unfold CiphertextKept
  infer_instance

/-- The transport sends in order what it is asked to write. -/
theorem sent_asked {s : Network.State (Of Ssl.Stream StreamOnLinux)} {es : List Choice}
    {c : Configuration} (hs : (s .transport).stream.pendingData = [])
    (hr : Runs.run (step network.object) (Config.start s) es = some c)
    (hp : Runs.Along (step network.object) CiphertextKept (Config.start s) es) :
    (s .transport).sent (network.ownRun .transport s es) ++
        StreamOnLinux.unsent (transport c).state.stream (frames (transport c).stack) =
      StreamOnLinux.asked (transport c).log := by
  have hno : Runs.Along (step network.object) (fun _ e => NoThrow e) (Config.start s) es :=
    hp.imp fun _ _ h => h.1.1
  obtain ⟨htransport, -⟩ := view_run (j := Layer.transport) hr hno
  have hcond := along_view hr hno (hp.imp fun _ _ h => h.2.2)
  refine StreamOnLinux.sent_in_order hs htransport
    ((hcond.and (along_noThrow hr hno)).imp fun c e h => ⟨h.1.1, h.1.2, ?_⟩)
  cases e with
  | unwind => exact h.2.elim
  | _ => exact trivial

/-- What the TLS layer hands down is what the transport is asked to write. -/
theorem asked_eq_writtenDown {s : Network.State (Of Ssl.Stream StreamOnLinux)} {es : List Choice}
    {c : Configuration} (hr : Runs.run (step network.object) (Config.start s) es = some c)
    (hp : Runs.Along (step network.object) (fun _ e => NoThrow e ∧ OnlyTls e) (Config.start s) es) :
    StreamOnLinux.asked (transport c).log = Ssl.writtenDown (tls c).log := by
  refine passed (N := network) (j := Layer.transport) (i := Layer.tls)
    (g := StreamOnLinux.Op.bytes) (h := Ssl.CallOut.ciphertext) ?_ hr (hp.imp fun c e h => ?_)
  · intro m k
    cases m with
    | tls => cases k <;> rfl
    | transport => cases k <;> rfl
  · refine ⟨h.1, fun o ho => ?_⟩
    subst ho
    cases o <;> first | rfl | exact h.2.elim

/-- **The kernel gets the engine's ciphertext in order.**  In every run that meets the condition,
whenever no operation is under way, what the kernel took and what is in `pending_data_` is all
the ciphertext the engine produced. -/
theorem ciphertext_sent {side : Ssl.Side} {hostname : String} {capacity : Nat}
    {socket : StreamOnLinux} (hsocket : socket.stream.pendingData = []) {es : List Choice}
    {c : Configuration}
    (hr : Runs.run (step network.object) (Config.start (created side hostname capacity socket)) es
      = some c)
    (hp : Runs.Along (step network.object) CiphertextKept
      (Config.start (created side hostname capacity socket)) es)
    (hq : c.Quiet) :
    socket.sent (network.ownRun .transport (created side hostname capacity socket) es) ++
      (transport c).state.stream.pendingData = Ssl.produced (tls c).log := by
  have hno : Runs.Along (step network.object) (fun _ e => NoThrow e)
      (Config.start (created side hostname capacity socket)) es := hp.imp fun _ _ h => h.1.1
  -- the TLS layer hands down all that the engine produced
  obtain ⟨htls, -⟩ := view_run (j := Layer.tls) hr hno
  have htlsCond := along_view hr hno (hp.imp fun _ _ h => h.2.1)
  have hdrained : Ssl.Drained (tls c) := Ssl.drained htls htlsCond
  have hempty : (tls c).state.outbound = [] := by
    by_contra hne
    obtain ⟨f, hf, -⟩ := hdrained hne
    rw [show (tls c).stack = [] from congrArg (viewStack Layer.tls) hq] at hf
    cases hf
  obtain ⟨q, htraces⟩ := Ssl.conduit htls
  have hdown : Ssl.writtenDown (tls c).log = Ssl.produced (tls c).log := by
    have hfifo := htraces.fifo
    rwa [hempty, List.append_nil] at hfifo
  -- the transport keeps in order what it is given
  have hsent := sent_asked hsocket hr hp
  rw [show (transport c).stack = [] from congrArg (viewStack Layer.transport) hq] at hsent
  rw [← hdown, ← asked_eq_writtenDown hr (hp.imp fun _ _ h => h.1)]
  exact hsent

/-- A handshake.  The send buffer is full when the client writes its first flight, which stays
pending until `on_sent`. -/
def handshakeRun : List Choice :=
  [.call ⟨.transport, .connect⟩,
    .code ⟨.transport, .connect none (some Linux.EINPROGRESS)⟩,
    .call ⟨.transport, .event ⟨false, true⟩⟩,
    .code ⟨.transport, .wake none 0 []⟩,
    .code ⟨.tls, .engine { result := -1, error := .wantRead, produced := [1] }⟩,
    .code ⟨.tls, .go⟩,
    .code ⟨.transport, .sends [.failed Linux.EAGAIN none]⟩,
    .code ⟨.tls, .go⟩, .code ⟨.tls, .go⟩,
    .code ⟨.tls, .engine { result := -1, error := .wantRead }⟩,
    .code ⟨.transport, .go⟩, .code ⟨.transport, .go⟩,
    .call ⟨.transport, .event ⟨true, true⟩⟩,
    .code ⟨.transport, .wake none 0 [.sent 1, .sent 0]⟩,
    .code ⟨.transport, .recv (.received [2])⟩,
    .code ⟨.tls, .engine { result := 1, consumed := 1, produced := [3], established := true }⟩,
    .code ⟨.tls, .go⟩,
    .code ⟨.transport, .sends [.sent 1, .sent 0]⟩,
    .code ⟨.tls, .go⟩, .code ⟨.tls, .go⟩, .back,
    .code ⟨.tls, .engine { result := -1, error := .wantRead }⟩,
    .code ⟨.transport, .go⟩]

theorem ciphertext_sent_handshake :
    ∃ c, Runs.run (step network.object)
        (Config.start (created .client "" 5120 (StreamOnLinux.created 5 false))) handshakeRun
          = some c ∧
      Ssl.produced (tls c).log = [1, 3] ∧
      (StreamOnLinux.created 5 false).sent (network.ownRun .transport
          (created .client "" 5120 (StreamOnLinux.created 5 false)) handshakeRun) ++
        (transport c).state.stream.pendingData = Ssl.produced (tls c).log := by
  obtain ⟨c, hr, hquiet, hproduced⟩ :
      ∃ c, Runs.run (step network.object)
          (Config.start (created .client "" 5120 (StreamOnLinux.created 5 false))) handshakeRun
            = some c ∧ c.Quiet ∧ Ssl.produced (tls c).log = [1, 3] :=
    Runs.exists_run (by decide)
  exact ⟨c, hr, hproduced, ciphertext_sent rfl hr (by decide) hquiet⟩

end SecureStream
end AcppNetwork
