import AcppNetwork.BufferedWriter
import AcppNetwork.Reentrant

/-!
# `ssl::stream`

The layer between the application and a transport (`acpp-network/ssl/ssl.inl`):
plaintext above, ciphertext below.  The TLS engine sits behind a BIO pair:
`BIO_write(ext_bio, ..)` and the engine's output each fill one side of it, of
`capacity` bytes; the engine and `BIO_read(ext_bio, ..)` empty them.

The engine is outside.  A call of it (`SSL_accept`, `SSL_connect`, `SSL_read`,
`SSL_write`, `SSL_shutdown`) is answered by a `Reply`, restricted only by what
OpenSSL documents (`Stream.Answers`).  So are the layers: `next_.write`,
`prior->on_connected`, `prior->on_received` and `prior->on_disconnected` are calls
out, during which any operation of the stream may be called again.  There is a
layer above (`prior`), as in every chain `stream<ssl::stream<..>>`.
-/
namespace AcppNetwork
namespace Ssl

open Reentrant

/-- `side_t`. -/
inductive Side where
  | client
  | server
  deriving DecidableEq

/-- `enum class status`. -/
inductive Status where
  | closed
  | connecting
  | connected
  | peerClosing
  | closing
  deriving DecidableEq

/-- `SSL_get_error`. -/
inductive SslError where
  | none
  | ssl
  | wantRead
  | wantWrite
  | syscall
  | zeroReturn
  deriving DecidableEq

/-- The conversion of a `size_t` to `int`. -/
def toInt32 (n : Int) : Int := n.bmod (2 ^ 32)

/-- The conversion of an `int` to `size_t`. -/
def toSizeT (n : Int) : Nat := (n % 2 ^ 64).toNat

/-- `std::array<char, 1024*20>`. -/
abbrev bufferSize : Nat := 1024 * 20

/-- The fields of `ssl::stream` and the engine behind `ssl_`: the server name set
for it, the two sides of the BIO pair, whether the handshake is finished, whether
a call failed for good, and the flags of `SSL_get_shutdown`. -/
structure Stream where
  side : Side
  status : Status
  hostname : String
  serverName : String
  capacity : Nat
  inbound : List Byte
  outbound : List Byte
  established : Bool
  failed : Bool
  sentShutdown : Bool
  receivedShutdown : Bool
  deriving DecidableEq

/-! ## The engine -/

/-- The calls of the engine; `SSL_accept` and `SSL_connect` are one. -/
inductive EngineCall where
  | handshake
  | read
  | write (num : Int)
  | shutdown
  deriving DecidableEq

/-- What the engine answers a call, and what it does to the pair meanwhile:
`record` is the size of what `SSL_write` has to put there. -/
structure Reply where
  result : Int
  error : SslError := .none
  consumed : Nat := 0
  produced : List Byte := []
  data : List Byte := []
  record : Nat := 0
  established : Bool := false
  closeNotifySent : Bool := false
  closeNotifyReceived : Bool := false
  deriving DecidableEq

namespace Stream

/-- Room in the outgoing side. -/
def outFree (s : Stream) : Nat := s.capacity - s.outbound.length

/-- Room in the ingoing side. -/
def inFree (s : Stream) : Nat := s.capacity - s.inbound.length

/-- The engine neither failed nor received close_notify. -/
def healthy (s : Stream) : Bool := !s.failed && !s.receivedShutdown

/-- The stream after an engine call that was answered `a`. -/
def engine (s : Stream) (a : Reply) : Stream :=
  { s with
    inbound := s.inbound.drop a.consumed
    outbound := s.outbound ++ a.produced
    established := s.established || a.established
    failed := s.failed || a.error = .ssl || a.error = .syscall
    sentShutdown := s.sentShutdown || a.closeNotifySent
    receivedShutdown := s.receivedShutdown || a.closeNotifyReceived }

/-- What OpenSSL promises of the reply to a call: it takes from the pair and adds to
it no more than there is and fits; want-read is answered when everything was
taken; a handshake call returns 1 when the handshake is finished; data are read
after that only; a write is accepted as far as its record fits; a shutdown
returns 1 when both close_notify were exchanged. -/
def Answers (s : Stream) (call : EngineCall) (a : Reply) : Prop :=
  a.consumed ≤ s.inbound.length ∧ a.produced.length ≤ s.outFree ∧
    (a.error = .wantRead → a.consumed = s.inbound.length) ∧
    match call with
    | .handshake =>
        (a.result = 1 ↔ (s.engine a).established = true) ∧ a.result ≤ 1 ∧
          (a.error = .none ↔ a.result = 1)
    | .read =>
        (0 < a.result → (s.engine a).established = true) ∧
          (a.data.length : Int) = max a.result 0 ∧ a.data.length ≤ bufferSize ∧
          (a.error = .none ↔ 0 < a.result)
    | .write num =>
        (0 < a.result → a.result ≤ num ∧ a.record ≤ s.outFree) ∧
          (a.error = .none ↔ 0 < a.result) ∧ (a.error = .wantWrite → s.outFree < a.record)
    | .shutdown =>
        (a.result = 1 →
          (s.engine a).sentShutdown = true ∧ (s.engine a).receivedShutdown = true) ∧
          -1 ≤ a.result ∧ a.result ≤ 1

instance (s : Stream) (call : EngineCall) (a : Reply) : Decidable (s.Answers call a) := by
  cases call <;> unfold Answers <;> infer_instance

/-- `BIO_write(ext_bio, buf, num)` and the value it returns. -/
def bioWrite (s : Stream) (buf : List Byte) (num : Int) : Stream × Int :=
  if num ≤ 0 then (s, 0)
  else if s.inFree = 0 then (s, -1)
  else
    let n := min num.toNat s.inFree
    ({ s with inbound := s.inbound ++ buf.take n }, n)

end Stream

/-! ## The operations -/

/-- The operations a layer calls; `write` and `disconnect` come from above, the
others from below. -/
inductive Op where
  | onConnected
  | onReceived (buf : List Byte)
  | write (buf : List Byte)
  | disconnect
  | onDisconnected
  deriving DecidableEq

/-- The calls out. -/
inductive CallOut where
  | nextWrite (buf : List Byte)
  | onConnected
  | onReceived (buf : List Byte)
  | onDisconnected
  deriving DecidableEq

/-- An `SSL_write` of a `write` call. -/
structure Attempt where
  num : Int
  record : Nat
  free : Nat
  result : Int
  error : SslError
  deriving DecidableEq

/-- A call of `write`: the status it was entered in, its argument, the local
`totalLen`, and what became of it so far. -/
structure WriteCall where
  status : Status
  buf : List Byte
  totalLen : Int := 0
  accepted : List Byte := []
  attempts : List Attempt := []
  deriving DecidableEq

/-- Where an activation stands; the loops over `BIO_read` and `SSL_read` each have
a frame of their own. -/
inductive Frame where
  | doConnect (buf : List Byte)
  | doConnectWrite
  | doConnectNotify
  | doConnectRead
  | doShutdown (buf : List Byte)
  | doShutdownWrite
  | doShutdownNotify
  | doShutdownRead
  | feed (buf : List Byte) (totN : Int)
  | feedRead (buf : List Byte) (totN : Int)
  | feedWrite (buf : List Byte) (totN : Int)
  | checkShutdown
  | feedFinal
  | writeLoop (w : WriteCall)
  | writeDrain (w : WriteCall)
  | writeFinal (w : WriteCall)
  | writeRejected (w : WriteCall)
  | done
  deriving DecidableEq

/-- The reply to the engine call of a stretch of code, if it makes one. -/
inductive Answer where
  | engine (a : Reply)
  | go
  deriving DecidableEq

/-- What an operation returns. -/
inductive Result where
  | void
  | size (n : Nat)
  deriving DecidableEq

/-- What the code does unseen by the layers: chunks given to `BIO_write` by
`do_connect` and `do_shutdown`, ciphertext the engine puts into the pair, and
`write` calls with what they return. -/
inductive Note where
  | fed (healthy : Bool) (chunk taken : List Byte)
  | produced (ciphertext : List Byte)
  | wrote (w : WriteCall) (returned : Nat)
  deriving DecidableEq

abbrev Next := Outcome Stream Frame CallOut Result Note

namespace Stream

/-- `while (n = BIO_read(ext_bio, ..), n > 0) next_.write(..)`, one turn. -/
def drain (s : Stream) (again : Frame) (exit : Next) : Next :=
  if s.outbound = [] then exit
  else
    .callOut { s with outbound := s.outbound.drop bufferSize } again
      (.nextWrite (s.outbound.take bufferSize)) []

/-- `while (n = SSL_read(ssl_, ..), n > 0) prior->on_received(..)`, one turn. -/
def readLoop (s : Stream) (a : Reply) (again : Frame) (exit : Stream → List Note → Next) :
    Option Next :=
  if s.Answers .read a then
    let s := s.engine a
    if 0 < a.result then
      some (.callOut s again (.onReceived a.data) [.produced a.produced])
    else
      some (exit s [.produced a.produced])
  else none

/-- `if (len) BIO_write(ext_bio, buf, len)`. -/
def feedOnce (s : Stream) (buf : List Byte) : Stream :=
  if buf ≠ [] then (s.bioWrite buf (toInt32 buf.length)).1 else s

/-- The note of it: the chunk, and what `BIO_write` stored of it. -/
def feedNote (s : Stream) (buf : List Byte) : List Note :=
  if buf ≠ [] then
    [.fed s.healthy buf (buf.take (s.bioWrite buf (toInt32 buf.length)).2.toNat)]
  else []

/-- `SSL_set_tlsext_host_name`, on the client's side and if there is a name. -/
def setServerName (s : Stream) : Stream :=
  if s.side = .client ∧ s.hostname ≠ "" then { s with serverName := s.hostname } else s

/-- `do_connect` goes on only in these states; in the others it throws. -/
def mayConnect (s : Stream) : Bool := s.status = .closed || s.status = .connecting

/-- The status `do_connect` leaves after a handshake call that returned `e`. -/
def statusConnecting (e : Int) : Status :=
  if e = 0 then .closed else if e = 1 then .connected else .connecting

/-- `do_connect` up to its `BIO_read` loop. -/
def doConnect (s : Stream) (buf : List Byte) (a : Reply) : Option Next :=
  let fed := s.feedNote buf
  let s := s.feedOnce buf
  if s.mayConnect then
    let s := s.setServerName
    if s.Answers .handshake a then
      some (.goto { s.engine a with status := statusConnecting a.result } .doConnectWrite
        (fed ++ [.produced a.produced]))
    else none
  else none

/-- `do_connect` in a state it throws in. -/
def doConnectThrow (s : Stream) (buf : List Byte) : Option Next :=
  let fed := s.feedNote buf
  let s := s.feedOnce buf
  if s.mayConnect then none else some (.throw s fed)

/-- The status `do_shutdown` leaves after an `SSL_shutdown` that returned `e`. -/
def statusClosing (e : Int) : Status := if e = 1 then .closed else .closing

/-- `do_shutdown` up to its `BIO_read` loop. -/
def doShutdown (s : Stream) (buf : List Byte) (a : Reply) : Option Next :=
  let fed := s.feedNote buf
  let s := s.feedOnce buf
  if s.status = .closing then
    if s.Answers .shutdown a then
      some (.goto { s.engine a with status := statusClosing a.result } .doShutdownWrite
        (fed ++ [.produced a.produced]))
    else none
  else none

/-- `do_shutdown` in a state it throws in. -/
def doShutdownThrow (s : Stream) (buf : List Byte) : Option Next :=
  let fed := s.feedNote buf
  let s := s.feedOnce buf
  if s.status = .closing then none else some (.throw s fed)

/-- `BIO_write(ext_bio, buf + tot_n, len - tot_n)`. -/
def feedRest (s : Stream) (buf : List Byte) (totN : Int) : Stream × Int :=
  s.bioWrite (buf.drop totN.toNat) (toInt32 (buf.length - totN))

/-- The test and the `BIO_write` of the loop of `on_received`. -/
def feed (s : Stream) (buf : List Byte) (totN : Int) : Next :=
  if toSizeT totN < buf.length then
    .goto (s.feedRest buf totN).1 (.feedRead buf (toInt32 (totN + (s.feedRest buf totN).2))) []
  else .goto s .checkShutdown []

/-- `shutdown_st == SSL_RECEIVED_SHUTDOWN`. -/
def onlyReceived (s : Stream) : Bool := s.receivedShutdown && !s.sentShutdown

/-- The reply of the peer's close_notify. -/
def answerShutdown (s : Stream) (a : Reply) : Option Next :=
  if s.onlyReceived then
    let s := { s with status := .peerClosing }
    if s.Answers .shutdown a then some (.goto (s.engine a) .feedFinal [.produced a.produced])
    else none
  else none

end Stream

namespace WriteCall

/-- `totalLen < len`. -/
def goesOn (w : WriteCall) : Bool := toSizeT w.totalLen < w.buf.length

/-- `len - totalLen`, as `SSL_write` gets it. -/
def num (w : WriteCall) : Int := toInt32 (w.buf.length - w.totalLen)

/-- The call after an `SSL_write` answered `a`. -/
def tried (w : WriteCall) (s : Stream) (a : Reply) : WriteCall :=
  { w with attempts := w.attempts ++ [⟨w.num, a.record, s.outFree, a.result, a.error⟩] }

/-- `totalLen += e`: the engine took `e` bytes from `buf + totalLen` on. -/
def took (w : WriteCall) (e : Int) : WriteCall :=
  { w with
    totalLen := toInt32 (w.totalLen + e)
    accepted := w.accepted ++ (w.buf.drop w.totalLen.toNat).take e.toNat }

/-- `return len`. -/
def finish (w : WriteCall) (s : Stream) : Next :=
  .ret s (.size w.buf.length) [.wrote w w.buf.length]

end WriteCall

/-- The `SSL_write` of the loop of `write`. -/
def Stream.writeLoop (s : Stream) (w : WriteCall) (a : Reply) : Option Next :=
  if s.Answers (.write w.num) a then
    if 0 < a.result then
      some (.goto (s.engine a) (.writeDrain ((w.tried s a).took a.result)) [.produced a.produced])
    else
      some (.goto (s.engine a) (.writeFinal (w.tried s a)) [.produced a.produced])
  else none

/-- The code, stretch by stretch. -/
def resume (s : Stream) : Frame → Answer → Option Next
  | .doConnect buf, .engine a => s.doConnect buf a
  | .doConnect buf, .go => s.doConnectThrow buf
  | .doConnectWrite, .go => some (s.drain .doConnectWrite (.goto s .doConnectNotify []))
  | .doConnectNotify, .go =>
      if s.status = .connected then some (.callOut s .doConnectRead .onConnected [])
      else some (.goto s .doConnectRead [])
  | .doConnectRead, .engine a => s.readLoop a .doConnectRead fun s ns => .ret s .void ns
  | .doShutdown buf, .engine a => s.doShutdown buf a
  | .doShutdown buf, .go => s.doShutdownThrow buf
  | .doShutdownWrite, .go => some (s.drain .doShutdownWrite (.goto s .doShutdownNotify []))
  | .doShutdownNotify, .go =>
      if s.status = .closed then some (.callOut s .doShutdownRead .onDisconnected [])
      else some (.goto s .doShutdownRead [])
  | .doShutdownRead, .engine a => s.readLoop a .doShutdownRead fun s ns => .ret s .void ns
  | .feed buf totN, .go => some (s.feed buf totN)
  | .feedRead buf totN, .engine a =>
      s.readLoop a (.feedRead buf totN) fun s ns => .goto s (.feedWrite buf totN) ns
  | .feedWrite buf totN, .go =>
      some (s.drain (.feedWrite buf totN) (.goto s (.feed buf totN) []))
  | .checkShutdown, .engine a => s.answerShutdown a
  | .checkShutdown, .go => if s.onlyReceived then none else some (.goto s .feedFinal [])
  | .feedFinal, .go => some (s.drain .feedFinal (.ret s .void []))
  | .writeLoop w, .engine a => if w.goesOn then s.writeLoop w a else none
  | .writeLoop w, .go => if w.goesOn then none else some (.goto s (.writeFinal w) [])
  | .writeDrain w, .go => some (s.drain (.writeDrain w) (.goto s (.writeLoop w) []))
  | .writeFinal w, .go => some (s.drain (.writeFinal w) (w.finish s))
  | .writeRejected w, .go => some (w.finish s)
  | .done, .go => some (.ret s .void [])
  | _, _ => none

/-- Where an operation starts: the tests on `side_` and `status_`. -/
def enter (s : Stream) : Op → Stream × Frame
  | .onConnected => if s.side = .client then (s, .doConnect []) else (s, .done)
  | .onReceived buf =>
      match s.status with
      | .closed | .connecting => (s, .doConnect buf)
      | .closing => (s, .doShutdown buf)
      | .connected => (s, .feed buf 0)
      | .peerClosing => (s, .done)
  | .write buf =>
      if s.status = .connected then
        (s, .writeLoop { status := s.status, buf := buf })
      else
        (s, .writeRejected { status := s.status, buf := buf })
  | .disconnect =>
      if s.status = .connected then ({ s with status := .closing }, .doShutdown [])
      else (s, .done)
  | .onDisconnected => (s, .done)

/-- `ssl::stream`. -/
def object : Object Stream Op Frame CallOut Answer Result Note := ⟨enter, resume⟩

abbrev Configuration := Config Stream Op Frame CallOut Result Note

/-- The constructors: `stream(side_t)` makes a pair of `1024 * 50` bytes a side,
`stream(Context&)` one of `1024 * 5`. -/
def Stream.new (side : Side) (hostname : String) (capacity : Nat) : Stream where
  side := side
  status := .closed
  hostname := hostname
  serverName := ""
  capacity := capacity
  inbound := []
  outbound := []
  established := false
  failed := false
  sentShutdown := false
  receivedShutdown := false

/-- `stream(side_t)`. -/
def Stream.ofSide (side : Side) (hostname : String) : Stream :=
  Stream.new side hostname (1024 * 50)

/-- `stream(Context&)`. -/
def Stream.ofContext (side : Side) (hostname : String) : Stream :=
  Stream.new side hostname (1024 * 5)

end Ssl
end AcppNetwork
