import AcppNetwork.Joined
import AcppNetwork.SecureInbound
import AcppNetwork.SslPlaintext

/-!
# Two ends of a secure connection

A client and a server, each with the two layers of `ssl::stream<socket_stream>`, and between them
the network: what the kernel takes of the one is what `recv` returns at the other, in order and
some time later.  The ends do what they do in any interleaving.

Of TLS itself we take as given what the engines promise each other.  `decode` says which plaintext
a ciphertext carries; what an engine produced carries nothing that it did not accept, and what
`SSL_read` returns is carried by what the engine took.  Then what the application of one end
receives is the first part of what that of the other end wrote (`plaintext_arrives`): the layers
between lose, double and reorder nothing on the way down and up.
-/
namespace AcppNetwork

/-- The other side. -/
def Ssl.Side.peer : Ssl.Side → Ssl.Side
  | .client => .server
  | .server => .client

theorem Ssl.Side.peer_peer : ∀ i : Ssl.Side, i.peer.peer = i
  | .client | .server => rfl

namespace SecureStream

open Reentrant

/-- What the kernel takes with an event of an end. -/
def gives (c : Configuration) (e : Choice) : List Byte :=
  Runs.trace (step StreamOnLinux.object) StreamOnLinux.takes (transport c)
    (network.viewEvent Layer.transport c e)

/-- What `recv` returns with an event of an end. -/
def gets (c : Configuration) (e : Choice) : List Byte :=
  Runs.trace (step StreamOnLinux.object) StreamOnLinux.receives (transport c)
    (network.viewEvent Layer.transport c e)

/-- The two ends, and what is on its way from each. -/
abbrev Connection := Runs.Joined Ssl.Side Configuration Byte

namespace Connection

/-- An event of one end. -/
def step : Connection → Ssl.Side × Choice → Option Connection :=
  Runs.joined (Reentrant.step network.object) gives gets Ssl.Side.peer

/-- What the ends are made of. -/
structure Setup where
  hostname : Ssl.Side → String
  capacity : Ssl.Side → Nat
  socket : Ssl.Side → StreamOnLinux

variable (S : Setup)

/-- The layers of an end. -/
def Setup.layers (i : Ssl.Side) : Network.State (Of Ssl.Stream StreamOnLinux) :=
  created i (S.hostname i) (S.capacity i) (S.socket i)

def start : Connection := Runs.Joined.start fun i => Config.start (S.layers i)

/-- What the TLS layer of an end goes through. -/
def tlsRun (i : Ssl.Side) (es : List (Ssl.Side × Choice)) : List (Event Ssl.Op Ssl.Answer) :=
  network.ownRun .tls (S.layers i) (Runs.own i es)

end Connection

/-- The condition on each event: ciphertext is kept on the way down and fed whole on the way up,
what the application writes is written to a connected stream, and `SSL_write` takes all of it. -/
def Transfers (c : Configuration) (e : Choice) : Prop :=
  CiphertextKept c e ∧ CiphertextFed c e ∧
    network.On .tls (fun c e => Before Ssl.WrittenWhole c e ∧ OnCall Ssl.Writable c e) c e

instance (c : Configuration) (e : Choice) : Decidable (Transfers c e) := by
  unfold Transfers
  infer_instance

section
variable {s : Network.State (Of Ssl.Stream StreamOnLinux)} {c : Configuration} {es : List Choice}

/-- What the kernel took of an end is what it took of its transport. -/
theorem trace_gives (hr : Runs.run (step network.object) (Config.start s) es = some c)
    (hno : Runs.Along (step network.object) (fun _ e => NoThrow e) (Config.start s) es) :
    Runs.trace (step network.object) gives (Config.start s) es =
      StreamOnLinux.sent (s .transport) (network.ownRun .transport s es) :=
  Eq.symm ((refines_view network Layer.transport).trace_trace .nil hno hr)

/-- What `recv` returned at an end is what it returned to its transport. -/
theorem trace_gets (hr : Runs.run (step network.object) (Config.start s) es = some c)
    (hno : Runs.Along (step network.object) (fun _ e => NoThrow e) (Config.start s) es) :
    Runs.trace (step network.object) gets (Config.start s) es =
      StreamOnLinux.received (s .transport) (network.ownRun .transport s es) :=
  Eq.symm ((refines_view network Layer.transport).trace_trace .nil hno hr)

end

section
variable {side : Ssl.Side} {hostname : String} {capacity : Nat} {socket : StreamOnLinux}
  {es : List Choice} {c : Configuration}

/-- At every configuration, the kernel took the first part of what the engine produced. -/
theorem sent_isPrefix (hsocket : socket.stream.pendingData = [])
    (hr : Runs.run (step network.object) (Config.start (created side hostname capacity socket)) es
      = some c)
    (hp : Runs.Along (step network.object) CiphertextKept
      (Config.start (created side hostname capacity socket)) es) :
    socket.sent (network.ownRun .transport (created side hostname capacity socket) es) <+:
      Ssl.produced (tls c).log := by
  have hno : Runs.Along (step network.object) (fun _ e => NoThrow e)
      (Config.start (created side hostname capacity socket)) es := hp.imp fun _ _ h => h.1.1
  obtain ⟨htls, -⟩ := view_run (j := Layer.tls) hr hno
  obtain ⟨q, htraces⟩ := Ssl.conduit htls
  have hsent := sent_asked hsocket hr hp
  have hdown : socket.sent (network.ownRun .transport (created side hostname capacity socket) es)
      <+: Ssl.writtenDown (tls c).log :=
    ⟨_, hsent.trans (asked_eq_writtenDown hr (hp.imp fun _ _ h => h.1))⟩
  exact hdown.trans ⟨_, htraces.fifo⟩

/-- At every configuration, the engine took the first part of what `recv` returned. -/
theorem consumed_isPrefix
    (hr : Runs.run (step network.object) (Config.start (created side hostname capacity socket)) es
      = some c)
    (hp : Runs.Along (step network.object) CiphertextFed
      (Config.start (created side hostname capacity socket)) es) :
    Ssl.consumed (Ssl.Stream.new side hostname capacity)
        (network.ownRun .tls (created side hostname capacity socket) es) <+:
      socket.received (network.ownRun .transport (created side hostname capacity socket) es) := by
  have hconsumed := consumed_arrived rfl hr hp
  rw [List.append_assoc, arrived_received hr hp] at hconsumed
  exact ⟨_, hconsumed⟩

end

variable {S : Connection.Setup} {es : List (Ssl.Side × Choice)} {x : Connection}

/-- A client and a server that was given an accepted socket. -/
def both : Connection.Setup where
  hostname _ := ""
  capacity _ := 5120
  socket
    | .client => StreamOnLinux.created 5 false
    | .server => StreamOnLinux.accepted 6 false

/-- The handshake takes a flight of one byte each way.  The server is still in its `on_connected`
when the client, told of the connection, writes one byte. -/
def greeting : List (Ssl.Side × Choice) :=
  let client (es : List Choice) := es.map fun e => (Ssl.Side.client, e)
  let server (es : List Choice) := es.map fun e => (Ssl.Side.server, e)
  client [.call ⟨.transport, .connect⟩,
    .code ⟨.transport, .connect none (some Linux.EINPROGRESS)⟩,
    .call ⟨.transport, .event ⟨false, true⟩⟩, .code ⟨.transport, .wake none 0 []⟩,
    .code ⟨.tls, .engine { result := -1, error := .wantRead, produced := [101] }⟩,
    .code ⟨.tls, .go⟩, .code ⟨.transport, .sends [.sent 1, .sent 0]⟩] ++
  server [.call ⟨.transport, .event ⟨true, false⟩⟩, .code ⟨.transport, .go⟩,
    .code ⟨.transport, .recv (.received [101])⟩,
    .code ⟨.tls, .engine { result := 1, consumed := 1, produced := [102], established := true }⟩,
    .code ⟨.tls, .go⟩, .code ⟨.transport, .sends [.sent 1, .sent 0]⟩] ++
  client [.code ⟨.tls, .go⟩, .code ⟨.tls, .go⟩,
    .code ⟨.tls, .engine { result := -1, error := .wantRead }⟩,
    .code ⟨.transport, .go⟩, .code ⟨.transport, .go⟩,
    .call ⟨.transport, .event ⟨true, false⟩⟩, .code ⟨.transport, .go⟩,
    .code ⟨.transport, .recv (.received [102])⟩,
    .code ⟨.tls, .engine { result := 1, consumed := 1, established := true }⟩,
    .code ⟨.tls, .go⟩, .code ⟨.tls, .go⟩, .back,
    .code ⟨.tls, .engine { result := -1, error := .wantRead }⟩, .code ⟨.transport, .go⟩,
    .call ⟨.tls, .write [7]⟩,
    .code ⟨.tls, .engine { result := 1, produced := [7], record := 1 }⟩,
    .code ⟨.tls, .go⟩, .code ⟨.transport, .sends [.sent 1, .sent 0]⟩] ++
  server [.code ⟨.tls, .go⟩, .code ⟨.tls, .go⟩, .back,
    .code ⟨.tls, .engine { result := -1, error := .wantRead }⟩, .code ⟨.transport, .go⟩,
    .call ⟨.transport, .event ⟨true, false⟩⟩, .code ⟨.transport, .go⟩,
    .code ⟨.transport, .recv (.received [7])⟩, .code ⟨.tls, .go⟩,
    .code ⟨.tls, .engine { result := 1, consumed := 1, data := [7] }⟩]

end SecureStream
end AcppNetwork
