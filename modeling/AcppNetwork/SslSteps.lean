import AcppNetwork.SslStream

/-!
# The stretches of `ssl::stream`

`Stretch` says what a stretch of code of `ssl::stream` can do, one constructor
for each way through it, and `stretch_of_resume` that the code does nothing else.
The invariants of the later modules are proved by cases on it.
-/
namespace AcppNetwork
namespace Ssl

open Reentrant

/-! ## `int` and `size_t` -/

theorem toInt32_eq (n : Int) : toInt32 n =
    if n % 4294967296 < 2147483648 then n % 4294967296 else n % 4294967296 - 4294967296 := by
  rw [toInt32, Int.bmod_def]
  rfl

theorem toInt32_lt (n : Int) : toInt32 n < 2147483648 := by
  rw [toInt32_eq]
  split <;> omega

/-- A length converts to at most itself. -/
theorem toInt32_le {n : Int} (hn : 0 ≤ n) : toInt32 n ≤ n := by
  rw [toInt32_eq]
  split <;> omega

theorem toInt32_of_lt {n : Int} (hn : 0 ≤ n) (hlt : n < 2147483648) : toInt32 n = n := by
  rw [toInt32_eq, if_pos (by omega)]
  omega

theorem toInt32_sub {n t : Int} (ht : 0 ≤ t) (hle : t = 0 ∨ t ≤ toInt32 n) :
    toInt32 (n - t) = toInt32 n - t := by
  rcases hle with rfl | hle
  · rw [Int.sub_zero, Int.sub_zero]
  · have hlt := toInt32_lt n
    rw [toInt32_eq] at hle hlt
    rw [toInt32_eq, toInt32_eq]
    split at hle <;> split <;> omega

theorem toSizeT_of_lt {n : Int} (hn : 0 ≤ n) (hlt : n < 2147483648) : toSizeT n = n.toNat := by
  unfold toSizeT
  rw [Int.emod_eq_of_lt hn (by omega)]

/-! ## The engine and the pair -/

namespace Stream
variable {s : Stream} {a : Reply} {buf : List Byte}

@[simp] theorem engine_side : (s.engine a).side = s.side := rfl
@[simp] theorem engine_status : (s.engine a).status = s.status := rfl
@[simp] theorem engine_capacity : (s.engine a).capacity = s.capacity := rfl
@[simp] theorem engine_outbound : (s.engine a).outbound = s.outbound ++ a.produced := rfl

@[simp] theorem engine_established :
    (s.engine a).established = (s.established || a.established) := rfl

@[simp] theorem engine_sentShutdown :
    (s.engine a).sentShutdown = (s.sentShutdown || a.closeNotifySent) := rfl

@[simp] theorem engine_receivedShutdown :
    (s.engine a).receivedShutdown = (s.receivedShutdown || a.closeNotifyReceived) := rfl

/-- `BIO_write` changes the ingoing side of the pair only. -/
theorem bioWrite_eq (s : Stream) (buf : List Byte) (num : Int) :
    ∃ xs, (s.bioWrite buf num).1 = { s with inbound := xs } := by
  unfold bioWrite
  split
  · exact ⟨s.inbound, rfl⟩
  · split
    · exact ⟨s.inbound, rfl⟩
    · exact ⟨_, rfl⟩

/-- The number of bytes `BIO_write` stores. -/
theorem bioWrite_stored (s : Stream) (buf : List Byte) (num : Int) :
    (s.bioWrite buf num).2.toNat = min num.toNat s.inFree := by
  unfold bioWrite
  by_cases hneg : num ≤ 0
  · rw [if_pos hneg, Int.toNat_of_nonpos hneg, Nat.zero_min]
    rfl
  · rw [if_neg hneg]
    by_cases hfull : s.inFree = 0
    · rw [if_pos hfull, hfull, Nat.min_zero]
      rfl
    · rw [if_neg hfull]
      rfl

theorem feedOnce_eq (s : Stream) (buf : List Byte) :
    ∃ xs, s.feedOnce buf = { s with inbound := xs } := by
  unfold feedOnce
  split
  · exact s.bioWrite_eq buf (toInt32 buf.length)
  · exact ⟨s.inbound, rfl⟩

theorem feedRest_eq (s : Stream) (buf : List Byte) (totN : Int) :
    ∃ xs, (s.feedRest buf totN).1 = { s with inbound := xs } :=
  s.bioWrite_eq _ _

theorem setServerName_eq (s : Stream) : ∃ n, s.setServerName = { s with serverName := n } := by
  unfold setServerName
  split
  · exact ⟨s.hostname, rfl⟩
  · exact ⟨s.serverName, rfl⟩

/-- What `do_connect` and `do_shutdown` do before the engine call. -/
def beforeHandshake (s : Stream) (buf : List Byte) : Stream := (s.feedOnce buf).setServerName

/-- Before the engine call, nothing changes but the ingoing side and the name. -/
theorem beforeHandshake_eq (s : Stream) (buf : List Byte) :
    ∃ xs n, s.beforeHandshake buf = { s with inbound := xs, serverName := n } := by
  obtain ⟨xs, hfeed⟩ := s.feedOnce_eq buf
  obtain ⟨n, hname⟩ := setServerName_eq { s with inbound := xs }
  exact ⟨xs, n, by rw [beforeHandshake, hfeed, hname]⟩

@[simp] theorem feedOnce_capacity : (s.feedOnce buf).capacity = s.capacity := by
  obtain ⟨xs, h⟩ := s.feedOnce_eq buf
  rw [h]

@[simp] theorem feedOnce_status : (s.feedOnce buf).status = s.status := by
  obtain ⟨xs, h⟩ := s.feedOnce_eq buf
  rw [h]

@[simp] theorem feedOnce_outbound : (s.feedOnce buf).outbound = s.outbound := by
  obtain ⟨xs, h⟩ := s.feedOnce_eq buf
  rw [h]

@[simp] theorem feedOnce_established : (s.feedOnce buf).established = s.established := by
  obtain ⟨xs, h⟩ := s.feedOnce_eq buf
  rw [h]

@[simp] theorem feedOnce_sentShutdown : (s.feedOnce buf).sentShutdown = s.sentShutdown := by
  obtain ⟨xs, h⟩ := s.feedOnce_eq buf
  rw [h]

@[simp] theorem feedOnce_receivedShutdown :
    (s.feedOnce buf).receivedShutdown = s.receivedShutdown := by
  obtain ⟨xs, h⟩ := s.feedOnce_eq buf
  rw [h]

@[simp] theorem beforeHandshake_capacity : (s.beforeHandshake buf).capacity = s.capacity := by
  obtain ⟨xs, n, h⟩ := s.beforeHandshake_eq buf
  rw [h]

@[simp] theorem beforeHandshake_status : (s.beforeHandshake buf).status = s.status := by
  obtain ⟨xs, n, h⟩ := s.beforeHandshake_eq buf
  rw [h]

@[simp] theorem beforeHandshake_outbound : (s.beforeHandshake buf).outbound = s.outbound := by
  obtain ⟨xs, n, h⟩ := s.beforeHandshake_eq buf
  rw [h]

@[simp] theorem beforeHandshake_established :
    (s.beforeHandshake buf).established = s.established := by
  obtain ⟨xs, n, h⟩ := s.beforeHandshake_eq buf
  rw [h]

@[simp] theorem beforeHandshake_sentShutdown :
    (s.beforeHandshake buf).sentShutdown = s.sentShutdown := by
  obtain ⟨xs, n, h⟩ := s.beforeHandshake_eq buf
  rw [h]

@[simp] theorem beforeHandshake_receivedShutdown :
    (s.beforeHandshake buf).receivedShutdown = s.receivedShutdown := by
  obtain ⟨xs, n, h⟩ := s.beforeHandshake_eq buf
  rw [h]

end Stream

/-! ## Where an activation can be while a call out runs -/

/-- The frames an activation calls out from. -/
def Frame.Waits : Frame → Prop
  | .doConnectWrite | .doConnectRead | .doShutdownWrite | .doShutdownRead | .feedRead _ _
  | .feedWrite _ _ | .feedFinal | .writeDrain _ | .writeFinal _ => True
  | _ => False

/-- The frames of the `BIO_read` loops. -/
def Frame.Drains : Frame → Prop
  | .doConnectWrite | .doShutdownWrite | .feedWrite _ _ | .feedFinal | .writeDrain _
  | .writeFinal _ => True
  | _ => False

/-- The frames of the `SSL_read` loops. -/
def Frame.Reads : Frame → Prop
  | .doConnectRead | .doShutdownRead | .feedRead _ _ => True
  | _ => False

/-- The ways through the code. -/
inductive Stretch : Stream → Frame → Answer → Next → Prop where
  | handshake {s buf a} (hst : s.mayConnect = true)
      (ha : (s.beforeHandshake buf).Answers .handshake a) :
      Stretch s (.doConnect buf) (.engine a)
        (.goto { (s.beforeHandshake buf).engine a with status := Stream.statusConnecting a.result }
          .doConnectWrite (s.feedNote buf ++ [.produced a.produced]))
  | connectThrow {s buf} (hst : s.mayConnect = false) :
      Stretch s (.doConnect buf) .go (.throw (s.feedOnce buf) (s.feedNote buf))
  | shutdown {s buf a} (hst : s.status = .closing) (ha : (s.feedOnce buf).Answers .shutdown a) :
      Stretch s (.doShutdown buf) (.engine a)
        (.goto { (s.feedOnce buf).engine a with status := Stream.statusClosing a.result }
          .doShutdownWrite (s.feedNote buf ++ [.produced a.produced]))
  | shutdownThrow {s buf} (hst : s.status ≠ .closing) :
      Stretch s (.doShutdown buf) .go (.throw (s.feedOnce buf) (s.feedNote buf))
  | write {s f} (hf : f.Drains) (hout : s.outbound ≠ []) :
      Stretch s f .go (.callOut { s with outbound := s.outbound.drop bufferSize } f
        (.nextWrite (s.outbound.take bufferSize)) [])
  | connectDrained {s} (hout : s.outbound = []) :
      Stretch s .doConnectWrite .go (.goto s .doConnectNotify [])
  | shutdownDrained {s} (hout : s.outbound = []) :
      Stretch s .doShutdownWrite .go (.goto s .doShutdownNotify [])
  | feedDrained {s buf totN} (hout : s.outbound = []) :
      Stretch s (.feedWrite buf totN) .go (.goto s (.feed buf totN) [])
  | feedEnd {s} (hout : s.outbound = []) : Stretch s .feedFinal .go (.ret s .void [])
  | writeDrained {s w} (hout : s.outbound = []) :
      Stretch s (.writeDrain w) .go (.goto s (.writeLoop w) [])
  | writeEnd {s} {w : WriteCall} (hout : s.outbound = []) :
      Stretch s (.writeFinal w) .go (w.finish s)
  | notifyConnected {s} (hst : s.status = .connected) :
      Stretch s .doConnectNotify .go (.callOut s .doConnectRead .onConnected [])
  | skipConnected {s} (hst : s.status ≠ .connected) :
      Stretch s .doConnectNotify .go (.goto s .doConnectRead [])
  | notifyDisconnected {s} (hst : s.status = .closed) :
      Stretch s .doShutdownNotify .go (.callOut s .doShutdownRead .onDisconnected [])
  | skipDisconnected {s} (hst : s.status ≠ .closed) :
      Stretch s .doShutdownNotify .go (.goto s .doShutdownRead [])
  | read {s f a} (hf : f.Reads) (ha : s.Answers .read a) (hpos : 0 < a.result) :
      Stretch s f (.engine a)
        (.callOut (s.engine a) f (.onReceived a.data) [.produced a.produced])
  | readEnd {s f a} (hf : f = .doConnectRead ∨ f = .doShutdownRead) (ha : s.Answers .read a)
      (hend : ¬ 0 < a.result) :
      Stretch s f (.engine a) (.ret (s.engine a) .void [.produced a.produced])
  | feedReadEnd {s buf totN a} (ha : s.Answers .read a) (hend : ¬ 0 < a.result) :
      Stretch s (.feedRead buf totN) (.engine a)
        (.goto (s.engine a) (.feedWrite buf totN) [.produced a.produced])
  | feed {s} {buf : List Byte} {totN : Int} (hlen : toSizeT totN < buf.length) (n : Int)
      (xs : List Byte) :
      Stretch s (.feed buf totN) .go
        (.goto { s with inbound := xs } (.feedRead buf n) [])
  | feedDone {s} {buf : List Byte} {totN : Int} (hlen : ¬ toSizeT totN < buf.length) :
      Stretch s (.feed buf totN) .go (.goto s .checkShutdown [])
  | answerShutdown {s a} (hflags : s.onlyReceived = true)
      (ha : Stream.Answers { s with status := .peerClosing } .shutdown a) :
      Stretch s .checkShutdown (.engine a)
        (.goto ({ s with status := .peerClosing }.engine a) .feedFinal [.produced a.produced])
  | noShutdown {s} (hflags : s.onlyReceived = false) :
      Stretch s .checkShutdown .go (.goto s .feedFinal [])
  | writeTook {s} {w : WriteCall} {a} (hgo : w.goesOn = true) (ha : s.Answers (.write w.num) a)
      (hpos : 0 < a.result) :
      Stretch s (.writeLoop w) (.engine a)
        (.goto (s.engine a) (.writeDrain ((w.tried s a).took a.result)) [.produced a.produced])
  | writeBroke {s} {w : WriteCall} {a} (hgo : w.goesOn = true) (ha : s.Answers (.write w.num) a)
      (hend : ¬ 0 < a.result) :
      Stretch s (.writeLoop w) (.engine a)
        (.goto (s.engine a) (.writeFinal (w.tried s a)) [.produced a.produced])
  | writeDone {s} {w : WriteCall} (hgo : w.goesOn = false) :
      Stretch s (.writeLoop w) .go (.goto s (.writeFinal w) [])
  | rejected {s} {w : WriteCall} : Stretch s (.writeRejected w) .go (w.finish s)
  | done {s} : Stretch s .done .go (.ret s .void [])

variable {s : Stream} {f : Frame} {ans : Answer} {out : Next}

/-- A turn of a `BIO_read` loop. -/
theorem stretch_of_drain {exit : Next} (hf : f.Drains)
    (hexit : s.outbound = [] → Stretch s f .go exit) : Stretch s f .go (s.drain f exit) := by
  unfold Stream.drain
  by_cases hout : s.outbound = []
  · rw [if_pos hout]
    exact hexit hout
  · rw [if_neg hout]
    exact .write hf hout

/-- A turn of an `SSL_read` loop. -/
theorem stretch_of_readLoop {a : Reply} {exit : Stream → List Note → Next} (hf : f.Reads)
    (hexit : s.Answers .read a → ¬ 0 < a.result →
      Stretch s f (.engine a) (exit (s.engine a) [.produced a.produced]))
    (h : s.readLoop a f exit = some out) : Stretch s f (.engine a) out := by
  unfold Stream.readLoop at h
  split at h
  · rename_i ha
    dsimp only at h
    split at h
    · cases h
      exact .read hf ha ‹_›
    · cases h
      exact hexit ha ‹_›
  · cases h

/-- **The code takes no other ways.** -/
theorem stretch_of_resume (h : resume s f ans = some out) : Stretch s f ans out := by
  cases f with
  | doConnect buf =>
    have hst : (s.feedOnce buf).mayConnect = s.mayConnect := by
      obtain ⟨xs, hfeed⟩ := s.feedOnce_eq buf
      rw [hfeed]; rfl
    cases ans with
    | engine a =>
      simp only [resume, Stream.doConnect] at h
      split at h
      · split at h
        · cases h
          exact .handshake (hst ▸ ‹_›) ‹_›
        · cases h
      · cases h
    | go =>
      simp only [resume, Stream.doConnectThrow] at h
      split at h
      · cases h
      · cases h
        rename_i hnot
        rw [hst, Bool.not_eq_true] at hnot
        exact .connectThrow hnot
  | doShutdown buf =>
    have hst : (s.feedOnce buf).status = s.status := by
      obtain ⟨xs, hfeed⟩ := s.feedOnce_eq buf
      rw [hfeed]
    cases ans with
    | engine a =>
      simp only [resume, Stream.doShutdown] at h
      split at h
      · split at h
        · cases h
          exact .shutdown (hst ▸ ‹_›) ‹_›
        · cases h
      · cases h
    | go =>
      simp only [resume, Stream.doShutdownThrow] at h
      split at h
      · cases h
      · cases h
        exact .shutdownThrow (hst ▸ ‹_›)
  | doConnectWrite =>
    cases ans with
    | engine a => cases h
    | go => cases h; exact stretch_of_drain trivial .connectDrained
  | doShutdownWrite =>
    cases ans with
    | engine a => cases h
    | go => cases h; exact stretch_of_drain trivial .shutdownDrained
  | feedWrite buf totN =>
    cases ans with
    | engine a => cases h
    | go => cases h; exact stretch_of_drain trivial .feedDrained
  | feedFinal =>
    cases ans with
    | engine a => cases h
    | go => cases h; exact stretch_of_drain trivial .feedEnd
  | writeDrain w =>
    cases ans with
    | engine a => cases h
    | go => cases h; exact stretch_of_drain trivial .writeDrained
  | writeFinal w =>
    cases ans with
    | engine a => cases h
    | go => cases h; exact stretch_of_drain trivial .writeEnd
  | doConnectNotify =>
    cases ans with
    | engine a => cases h
    | go =>
      simp only [resume] at h
      split at h
      · cases h; exact .notifyConnected ‹_›
      · cases h; exact .skipConnected ‹_›
  | doShutdownNotify =>
    cases ans with
    | engine a => cases h
    | go =>
      simp only [resume] at h
      split at h
      · cases h; exact .notifyDisconnected ‹_›
      · cases h; exact .skipDisconnected ‹_›
  | doConnectRead =>
    cases ans with
    | engine a =>
      simp only [resume] at h
      exact stretch_of_readLoop trivial (fun ha hend => .readEnd (.inl rfl) ha hend) h
    | go => cases h
  | doShutdownRead =>
    cases ans with
    | engine a =>
      simp only [resume] at h
      exact stretch_of_readLoop trivial (fun ha hend => .readEnd (.inr rfl) ha hend) h
    | go => cases h
  | feedRead buf totN =>
    cases ans with
    | engine a =>
      simp only [resume] at h
      exact stretch_of_readLoop trivial (fun ha hend => .feedReadEnd ha hend) h
    | go => cases h
  | feed buf totN =>
    cases ans with
    | engine a => cases h
    | go =>
      cases h
      unfold Stream.feed
      split
      · obtain ⟨xs, hwrite⟩ := s.feedRest_eq buf totN
        rw [hwrite]
        exact .feed ‹_› _ xs
      · exact .feedDone ‹_›
  | checkShutdown =>
    cases ans with
    | engine a =>
      simp only [resume, Stream.answerShutdown] at h
      split at h
      · split at h
        · cases h; exact .answerShutdown ‹_› ‹_›
        · cases h
      · cases h
    | go =>
      simp only [resume] at h
      split at h
      · cases h
      · cases h; exact .noShutdown (Bool.not_eq_true _ ▸ ‹_›)
  | writeLoop w =>
    cases ans with
    | engine a =>
      simp only [resume, Stream.writeLoop] at h
      split at h
      · split at h
        · split at h
          · cases h; exact .writeTook ‹_› ‹_› ‹_›
          · cases h; exact .writeBroke ‹_› ‹_› ‹_›
        · cases h
      · cases h
    | go =>
      simp only [resume] at h
      split at h
      · cases h
      · cases h; exact .writeDone (Bool.not_eq_true _ ▸ ‹_›)
  | writeRejected w =>
    cases ans with
    | engine a => cases h
    | go => cases h; exact .rejected
  | done =>
    cases ans with
    | engine a => cases h
    | go => cases h; exact .done

/-- Call outs are made from the loops and from the notifications. -/
theorem Stretch.waits {s' : Stream} {g : Frame} {k : CallOut} {ns : List Note}
    (h : Stretch s f ans (.callOut s' g k ns)) : g.Waits := by
  cases h with
  | write hf hout => cases f <;> trivial
  | notifyConnected hst => trivial
  | notifyDisconnected hst => trivial
  | read hf ha hpos => cases f <;> trivial

/-- Calling an operation leaves the stream as it is, but for `disconnect` of a
connected one, which sets the status. -/
theorem enter_state (s : Stream) (o : Op) : (enter s o).1 = s ∨
    o = .disconnect ∧ s.status = .connected ∧ (enter s o).1 = { s with status := .closing } := by
  cases o with
  | onConnected | onReceived | write =>
    left
    simp only [enter]
    split <;> rfl
  | disconnect =>
    by_cases hst : s.status = .connected
    · exact .inr ⟨rfl, hst, by simp [enter, hst]⟩
    · exact .inl (by simp [enter, hst])
  | onDisconnected => exact .inl rfl

@[simp] theorem enter_outbound (s : Stream) (o : Op) : (enter s o).1.outbound = s.outbound := by
  rcases enter_state s o with h | ⟨-, -, h⟩ <;> rw [h]

@[simp] theorem enter_capacity (s : Stream) (o : Op) : (enter s o).1.capacity = s.capacity := by
  rcases enter_state s o with h | ⟨-, -, h⟩ <;> rw [h]

@[simp] theorem enter_established (s : Stream) (o : Op) :
    (enter s o).1.established = s.established := by
  rcases enter_state s o with h | ⟨-, -, h⟩ <;> rw [h]

@[simp] theorem enter_receivedShutdown (s : Stream) (o : Op) :
    (enter s o).1.receivedShutdown = s.receivedShutdown := by
  rcases enter_state s o with h | ⟨-, -, h⟩ <;> rw [h]

theorem enter_doShutdown {o : Op} {buf : List Byte} (h : (enter s o).2 = .doShutdown buf) :
    (enter s o).1.status = .closing := by
  cases o with
  | onReceived xs =>
    simp only [enter] at h ⊢
    split at h <;> cases h
    assumption
  | disconnect =>
    simp only [enter] at h ⊢
    split at h
    · rw [if_pos ‹_›]
    · cases h
  | onConnected | write xs =>
    simp only [enter] at h
    split at h <;> cases h
  | onDisconnected => cases h

/-- No stretch goes on at the start of `do_shutdown`. -/
theorem Stretch.frames_ne_doShutdown (h : Stretch s f ans out) (buf : List Byte) :
    .doShutdown buf ∉ out.frames := by
  cases h with
  | write hf hout => cases f <;> simp [Frame.Drains, Outcome.frames] at hf ⊢
  | read hf ha hpos => cases f <;> simp [Frame.Reads, Outcome.frames] at hf ⊢
  | _ => simp [Outcome.frames, WriteCall.finish]

/-- The activations of a run: every one but the one running waits, and `do_shutdown`
is entered in status closing only. -/
structure Entered (c : Configuration) : Prop where
  waiting : Waiting Frame.Waits c.stack
  closing : ∀ buf, .doShutdown buf ∈ frames c.stack → c.state.status = .closing

theorem Entered.start (s : Stream) : Entered (Config.start s) where
  waiting := waiting_of_all (by simp [Config.start])
  closing := by simp [Config.start]

theorem Entered.step {c c' : Configuration} {e : Event Op Answer} (hc : Entered c)
    (h : Step object c e c') : Entered c' where
  waiting := hc.waiting.step (fun _ _ _ _ _ _ _ h => (stretch_of_resume h).waits) h
  closing := by
    rcases h.stretch with ⟨o, -, hout, rfl⟩ |
      ⟨f, rest, a, out, kept, hstack, -, hres, -, hkept, -, hframes, -⟩ | ⟨-, hstate, hframes, -⟩
    · intro buf hbuf
      rw [frames_code, List.mem_cons] at hbuf
      rcases hbuf with hbuf | hbuf
      · exact enter_doShutdown hbuf.symm
      · exact (hc.waiting.2 hout _ hbuf).elim
    · intro buf hbuf
      rw [hframes, List.mem_append] at hbuf
      rcases hbuf with hbuf | hbuf
      · exact absurd hbuf ((stretch_of_resume hres).frames_ne_doShutdown buf)
      · have hwait := hc.waiting.1
        rw [hstack] at hwait
        exact (hwait _ (hkept.subset hbuf)).elim
    · rw [hstate, hframes]
      exact hc.closing

/-! ## A connected stream -/

/-- A handshake of a client over a transport that answers later: `SSL_connect` wants
to read, and is finished by the chunk that arrives. -/
def handshakeRun : List (Event Op Answer) :=
  [.call .onConnected,
    .code (.engine { result := -1, error := .wantRead, produced := [1] }),
    .code .go, .back, .code .go, .code .go,
    .code (.engine { result := -1, error := .wantRead }),
    .call (.onReceived [2]),
    .code (.engine { result := 1, consumed := 1, produced := [3], established := true }),
    .code .go, .back, .code .go, .code .go, .back,
    .code (.engine { result := -1, error := .wantRead })]

/-- A client after its handshake. -/
def connectedClient : Stream :=
  { Stream.ofContext .client "" with status := .connected, established := true }

theorem handshakeRun_connected :
    ∃ c, Runs.run (step object) (Config.start (Stream.ofContext .client "")) handshakeRun = some c ∧
      c.state = connectedClient ∧ c.stack = [] :=
  Runs.exists_run (by decide)

/-- What runs from a connected client leads to is reached from a new stream. -/
theorem run_handshaken {es : List (Event Op Answer)} {P : Configuration → Prop}
    (h : ∀ l, ∃ c, Runs.run (step object) ⟨connectedClient, [], l⟩ es = some c ∧ P c) :
    ∃ c, Runs.run (step object) (Config.start (Stream.ofContext .client "")) (handshakeRun ++ es)
      = some c ∧ P c := by
  obtain ⟨⟨s, stack, l⟩, hr, rfl, rfl⟩ := handshakeRun_connected
  obtain ⟨c, hc, hp⟩ := h l
  exact ⟨c, Runs.run_append_some.mpr ⟨_, hr, hc⟩, hp⟩

end Ssl
end AcppNetwork
