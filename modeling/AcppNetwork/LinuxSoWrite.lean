import AcppNetwork.LinuxSocket
import AcppNetwork.SendLoop

/-!
# `so_write` against a kernel

`Socket.soWrite` takes the answers of `send` as a list.  Here the kernel that gives
them is a party of its own, with a state, and `so_write` is the loop of the source,
without a bound on its turns: it always ends, and what it returns is a count of the
first bytes of the buffer that the kernel has (`soWriteOver_delivers`).
-/
namespace AcppNetwork
namespace Linux

/-- What `send` answers to a request of `len` bytes. -/
def Send.Legal (len : Nat) : Send → Prop
  | .sent n => n ≤ len ∧ (n = 0 → len = 0)
  | .failed _ _ => True

/-- The number of bytes the kernel took with this answer. -/
def Send.count : Send → Nat
  | .sent n => n
  | .failed _ _ => 0

theorem Send.Legal.count_le {len : Nat} {a : Send} (h : a.Legal len) : a.count ≤ len := by
  cases a with
  | sent n => exact h.1
  | failed e refused => exact Nat.zero_le _

/-- Nothing is taken of a request that is not empty only if `send` failed. -/
theorem Send.Legal.failed {len : Nat} {a : Send} (h : a.Legal len) (hlen : 0 < len)
    (hn : a.count = 0) : ∃ e refused, a = .failed e refused := by
  cases a with
  | sent n =>
    have hzero : len = 0 := h.2 hn
    omega
  | failed e refused => exact ⟨e, refused, rfl⟩

/-- The other end of the `send` calls: it answers a request by its state. -/
structure Receiver (κ : Type) where
  answer : κ → List Byte → κ × Send
  legal : ∀ k bytes, (answer k bytes).2.Legal bytes.length

/-- The `send` of this kernel. -/
def Receiver.call {κ : Type} (K : Receiver κ) : SendCall κ Send Byte where
  send := K.answer
  took a := some a.count
  took_le {k bytes n} h := by
    obtain rfl := Option.some.inj h
    exact (K.legal k bytes).count_le

/-- The buffer of the kernel that `send` writes to, with the space that is free. -/
structure SendBuffer where
  held : List Byte
  free : Nat
  deriving DecidableEq

namespace SendBuffer

/-- The buffer with some more bytes. -/
def put (b : SendBuffer) (bytes : List Byte) : SendBuffer :=
  ⟨b.held ++ bytes, b.free - bytes.length⟩

theorem put_nil (b : SendBuffer) : b.put [] = b := by simp [put]

theorem put_append (b : SendBuffer) (xs ys : List Byte) :
    (b.put xs).put ys = b.put (xs ++ ys) := by
  simp only [put, List.append_assoc, List.length_append, Nat.sub_sub]

/-- A request: as much of it as there is space for, none if it is not empty and there is
no space at all. -/
def request (b : SendBuffer) (bytes : List Byte) : SendBuffer × Option Nat :=
  if bytes = [] then (b, some 0)
  else if b.free = 0 then (b, none)
  else (b.put (bytes.take b.free), some (min bytes.length b.free))

theorem request_le {b : SendBuffer} {bytes : List Byte} {n : Nat}
    (h : (b.request bytes).2 = some n) : n ≤ bytes.length ∧ (n = 0 → bytes.length = 0) := by
  unfold request at h
  split at h
  next hnil =>
    obtain rfl := Option.some.inj h
    simp [hnil]
  next hnil =>
    split at h
    · cases h
    next hfree =>
      obtain rfl := Option.some.inj h
      have hpos : 0 < bytes.length := List.length_pos_iff.mpr hnil
      omega

/-- The kernel with this buffer; `again` is its `EAGAIN`, and `refused` is for the call
that then asks for a write event. -/
def receiver (again : Nat) (refused : Option Nat) : Receiver SendBuffer where
  answer b bytes :=
    match b.request bytes with
    | (b', some n) => (b', .sent n)
    | (b', none) => (b', .failed again refused)
  legal b bytes := by
    have hle := @request_le b bytes
    generalize b.request bytes = r at hle ⊢
    obtain ⟨b', n | n⟩ := r
    · exact trivial
    · exact hle rfl

end SendBuffer

namespace Socket

/-- What a call of `so_write_internal` did: the answer it got, what it returns, the
callback it called and the calls that failed. -/
structure Attempt where
  answer : Send
  n : Nat
  callback : Option Callback
  failures : List Failure

variable {κ : Type}

/-- `so_write_internal` against a kernel. -/
def attempt (K : Receiver κ) (s : Socket × κ) (bytes : List Byte) : (Socket × κ) × Attempt :=
  let r := K.answer s.2 bytes
  let w := s.1.soWriteInternal r.2
  ((w.socket, r.1), ⟨r.2, w.n, w.callback, w.failures⟩)

/-- `so_write_internal` returns the count that was sent. -/
theorem soWriteInternal_n (s : Socket) (a : Send) : (s.soWriteInternal a).n = a.count := by
  cases a with
  | sent n => rfl
  | failed e refused =>
    simp only [soWriteInternal]
    split
    · rfl
    · rfl

/-- `so_write_internal` against a kernel, as a call that takes part of a buffer. -/
def sendCall (K : Receiver κ) : SendCall (Socket × κ) Attempt Byte where
  send := attempt K
  took a := some a.n
  took_le {s xs n} h := by
    obtain rfl := Option.some.inj h
    show (s.1.soWriteInternal _).n ≤ _
    rw [soWriteInternal_n]
    exact (K.legal s.2 xs).count_le

theorem sendCall_send (K : Receiver κ) (s : Socket × κ) (bytes : List Byte) :
    (sendCall K).send s bytes = attempt K s bytes := rfl

theorem sendCall_took (K : Receiver κ) (a : Attempt) : (sendCall K).took a = some a.n := rfl

/-- `so_write`: chunks of `1024 * 20` bytes, lengths in words of 64 bits. -/
def soWriteOver (K : Receiver κ) (buffer : List Byte) (fuel : Nat) (s : Socket × κ) :
    Option (SendCall.Finished (Socket × κ) Attempt) :=
  (sendCall K).pass 64 (1024 * 20) buffer fuel s

/-- The bytes the kernel takes when it is asked in `k` for what these turns ask for. -/
def delivered (K : Receiver κ) (k : κ) (buffer : List Byte)
    (turns : List (SendCall.Turn Attempt)) : List Byte :=
  K.call.got k (SendCall.requests buffer turns)

variable {K : Receiver κ} {buffer : List Byte} {fuel : Nat} {s : Socket × κ}
  {f : SendCall.Finished (Socket × κ) Attempt}

/-- The kernel behind `so_write_internal` answers for itself. -/
theorem serve_call (K : Receiver κ) (s : Socket × κ) (requests : List (List Byte)) :
    K.call.serve s.2 requests = (((sendCall K).serve s requests).1.2,
      ((sendCall K).serve s requests).2.map (·.answer)) := by
  induction requests generalizing s with
  | nil => rfl
  | cons bytes rest ih =>
    have hrest := ih (attempt K s bytes).1
    show ((K.call.serve (K.answer s.2 bytes).1 rest).1,
      (K.answer s.2 bytes).2 :: (K.call.serve (K.answer s.2 bytes).1 rest).2) = _
    rw [show (K.answer s.2 bytes).1 = (attempt K s bytes).1.2 from rfl, hrest]
    rfl

theorem got_call (K : Receiver κ) (s : Socket × κ) (requests : List (List Byte)) :
    K.call.got s.2 requests = (sendCall K).got s requests := by
  induction requests generalizing s with
  | nil => rfl
  | cons bytes rest ih =>
    have hn := soWriteInternal_n s.1 (K.answer s.2 bytes).2
    show bytes.take (K.answer s.2 bytes).2.count ++ K.call.got (K.answer s.2 bytes).1 rest =
      bytes.take (s.1.soWriteInternal (K.answer s.2 bytes).2).n ++ _
    rw [hn]
    exact congrArg _ (ih (attempt K s bytes).1)

/-- **The turns are the kernel's answers**, one after the other, and its state at the end is
that of the last. -/
theorem serve_of_soWriteOver (hfit : buffer.length < 2 ^ 64)
    (h : soWriteOver K buffer fuel s = some f) :
    K.call.serve s.2 (SendCall.requests buffer f.turns) =
      (f.state.2, f.turns.map (·.answer.answer)) := by
  rw [serve_call, SendCall.serve_of_passFrom hfit (Nat.zero_le _) h, List.map_map]
  rfl

theorem delivered_eq (hfit : buffer.length < 2 ^ 64) (h : soWriteOver K buffer fuel s = some f) :
    delivered K s.2 buffer f.turns = (sendCall K).accepted buffer f.turns := by
  rw [delivered, got_call]
  exact SendCall.got_of_serve (SendCall.serve_of_passFrom hfit (Nat.zero_le _) h)

/-- Every call that is answered returns. -/
theorem soWriteOver_returns (hfit : buffer.length < 2 ^ 64)
    (h : soWriteOver K buffer fuel s = some f) :
    f.result = some ((sendCall K).total f.turns) := by
  have hpre := SendCall.passFrom_prefix hfit (Nat.zero_le _) h
  obtain ⟨t, -, -, htook⟩ := hpre.last
  cases hr : f.result with
  | none =>
    rw [hr] at htook
    cases htook
  | some r => rw [hpre.result r hr, Nat.zero_add]

/-- The bytes that reached the kernel over several calls of `so_write`, each of them
given what the calls before left over; sockets, kernels and their states may change in
any way between the calls. -/
inductive Resumed (buffer : List Byte) : Nat → List Byte → Prop where
  | start : Resumed buffer 0 []
  | resume {m got κ fuel r} {K : Receiver κ} {s : Socket × κ}
      {f : SendCall.Finished (Socket × κ) Attempt} (h : Resumed buffer m got)
      (hwrite : soWriteOver K (buffer.drop m) fuel s = some f) (hresult : f.result = some r) :
      Resumed buffer (m + r) (got ++ delivered K s.2 (buffer.drop m) f.turns)

/-- Resuming from the returned counts delivers the buffer in order. -/
theorem Resumed.delivers {m : Nat} {got : List Byte} (hfit : buffer.length < 2 ^ 64)
    (h : Resumed buffer m got) : m ≤ buffer.length ∧ got = buffer.take m := by
  induction h with
  | start => exact ⟨Nat.zero_le _, rfl⟩
  | @resume m got κ fuel r K s f _ hwrite hresult ih =>
    obtain ⟨hm, hgot⟩ := ih
    have hlen : (buffer.drop m).length = buffer.length - m := List.length_drop
    have hpre := SendCall.passFrom_prefix (by omega) (Nat.zero_le _) hwrite
    have hr : r = (sendCall K).total f.turns := by
      have h := hpre.result r hresult
      rwa [Nat.zero_add] at h
    have hfits := hpre.fits
    refine ⟨by omega, ?_⟩
    rw [hgot, delivered_eq (by omega) hwrite, hpre.accepted, List.drop_zero, ← hr, List.take_add]

/-- **`so_write` delivers a prefix**: it ends, for every length and whatever the kernel
answers; no subtraction from the length goes below zero, no request is larger than
`1024 * 20` bytes or than what is left; the answers are those of this kernel to the
requests, one after the other, and it takes exactly as many of the first bytes as are
returned; if these are not all, the last `send` failed.  Calls that resume from the
counts returned deliver the message. -/
theorem soWriteOver_delivers (K : Receiver κ) (s : Socket × κ) (buffer : List Byte)
    (hfit : buffer.length < 2 ^ 64) :
    ∃ f r, (∀ fuel, buffer.length < fuel → soWriteOver K buffer fuel s = some f) ∧
      f.result = some r ∧ r ≤ buffer.length ∧
      (∀ t ∈ f.turns, t.offset + t.left = buffer.length ∧ t.request = min t.left 20480 ∧
        t.answer.n ≤ t.left) ∧
      K.call.serve s.2 (SendCall.requests buffer f.turns) =
        (f.state.2, f.turns.map (·.answer.answer)) ∧
      delivered K s.2 buffer f.turns = buffer.take r ∧
      (r < buffer.length →
        ∃ t e refused, f.turns.getLast? = some t ∧ t.answer.answer = .failed e refused) ∧
      ∀ m got, Resumed buffer m got → m ≤ buffer.length ∧ got = buffer.take m := by
  obtain ⟨f, hends, hpre⟩ := SendCall.pass_ends (sendCall K) (1024 * 20) s hfit
  have hends' := hends _ (Nat.lt_succ_self _)
  have hresult := soWriteOver_returns hfit hends'
  have hfits := hpre.fits
  refine ⟨f, _, hends, hresult, by omega, ?_, serve_of_soWriteOver hfit hends', ?_, ?_,
    fun m got h => h.delivers hfit⟩
  · intro t ht
    have hturn := hpre.turns t ht
    have hle : t.answer.n ≤ t.request := hturn.taken_le
    have hrequest : t.request = min t.left 20480 := hturn.request
    exact ⟨hturn.left, hrequest, by omega⟩
  · rw [delivered_eq hfit hends']
    exact hpre.accepted
  · intro hshort
    obtain ⟨t, hlast, hoff, htook⟩ := hpre.last
    have hturn := hpre.turns t (List.mem_of_getLast? hlast)
    have hleft := hturn.left
    have hrequest : t.request = min t.left (1024 * 20) := hturn.request
    obtain ⟨s', hs'⟩ := hturn.answered
    have hzero : t.answer.n = 0 := by
      rw [hresult] at htook
      exact Option.some.inj htook
    rw [← hs'] at hzero
    change (s'.1.soWriteInternal _).n = 0 at hzero
    rw [soWriteInternal_n] at hzero
    have hlen : ((buffer.drop t.offset).take t.request).length = t.request := by
      rw [List.length_take, List.length_drop]
      omega
    obtain ⟨e, refused, hanswer⟩ := (K.legal s'.2 _).failed (by omega) hzero
    refine ⟨t, e, refused, hlast, ?_⟩
    rw [← hs']
    exact hanswer

/-- Four bytes for a kernel that has space for three: it is asked for four and then for one,
and has three. -/
theorem soWriteOver_delivers_three :
    ∃ f, soWriteOver (SendBuffer.receiver EAGAIN none) [1, 2, 3, 4] 5
        (⟨0, ⟨fun fd => fd = 3, fun _ => none, 0⟩,
          .new 2 1 0 3 ⟨false, false, false, false, false, false⟩ 0⟩, ⟨[], 3⟩) = some f ∧
      f.result = some 3 ∧ f.state.2 = ⟨[1, 2, 3], 0⟩ ∧
      (SendBuffer.receiver EAGAIN none).call.serve ⟨[], 3⟩ [[1, 2, 3, 4], [4]] =
        (f.state.2, f.turns.map (·.answer.answer)) ∧
      delivered (SendBuffer.receiver EAGAIN none) ⟨[], 3⟩ [1, 2, 3, 4] f.turns = [1, 2, 3] := by
  obtain ⟨f, r, hends, hresult, -, -, hserve, hbytes, -⟩ := soWriteOver_delivers
    (SendBuffer.receiver EAGAIN none) (⟨0, ⟨fun fd => fd = 3, fun _ => none, 0⟩,
      .new 2 1 0 3 ⟨false, false, false, false, false, false⟩ 0⟩, ⟨[], 3⟩) [1, 2, 3, 4] (by decide)
  have hf := hends 5 (by decide)
  obtain ⟨g, hg, hthree, hstate, hrequests⟩ :
      ∃ g, soWriteOver (SendBuffer.receiver EAGAIN none) [1, 2, 3, 4] 5
          (⟨0, ⟨fun fd => fd = 3, fun _ => none, 0⟩,
            .new 2 1 0 3 ⟨false, false, false, false, false, false⟩ 0⟩, ⟨[], 3⟩) = some g ∧
        g.result = some 3 ∧ g.state.2 = ⟨[1, 2, 3], 0⟩ ∧
        SendCall.requests ([1, 2, 3, 4] : List Byte) g.turns = [[1, 2, 3, 4], [4]] :=
    ⟨_, rfl, rfl, rfl, rfl⟩
  obtain rfl := Option.some.inj (hf.symm.trans hg)
  obtain rfl := Option.some.inj (hresult.symm.trans hthree)
  rw [hrequests] at hserve
  exact ⟨f, hf, hthree, hstate, hserve, hbytes⟩

/-! ## The same `so_write` -/

theorem answers_soWriteInternal {s : Socket} {a b : Send} {len : Nat} :
    (s.soWriteInternal a).socket.Answers len b ↔ s.Answers len b := by
  have h := soWriteInternal_rearms s a
  cases b with
  | sent n => simp only [Answers, h.fd, h.isOpen]
  | failed e refused => simp only [Answers, h.fd, h.isOpen]

/-- The last turn of `so_write`. -/
theorem soWrite_last {s : Socket} {a : Send} (ha : s.Answers (min buffer.length (1024 * 20)) a)
    (hn : (s.soWriteInternal a).n = 0) : s.soWrite buffer [a] = some (s.soWriteInternal a) := by
  rw [soWrite, if_pos ha, if_pos hn, if_pos rfl]

/-- A turn of `so_write` before the last. -/
theorem soWrite_turn {s : Socket} {a : Send} {as : List Send} {w : Written}
    (ha : s.Answers (min buffer.length (1024 * 20)) a) (hn : (s.soWriteInternal a).n ≠ 0)
    (hw : (s.soWriteInternal a).socket.soWrite (buffer.drop (s.soWriteInternal a).n) as = some w) :
    s.soWrite buffer (a :: as) = some { w with
      n := (s.soWriteInternal a).n + w.n
      failures := (s.soWriteInternal a).failures ++ w.failures } := by
  rw [soWrite, if_pos ha, if_neg hn, hw]
  rfl

theorem soWrite_of_passFrom {offset : Nat} {s : Socket × κ} (hfit : buffer.length < 2 ^ 64)
    (hoff : offset ≤ buffer.length) (hK : ∀ k bytes, s.1.Answers bytes.length (K.answer k bytes).2)
    (h : (sendCall K).passFrom 64 (1024 * 20) buffer fuel s offset = some f) :
    ∃ w, s.1.soWrite (buffer.drop offset) (f.turns.map (·.answer.answer)) = some w ∧
      w.socket = f.state.1 ∧ f.result = some (offset + w.n) ∧
      w.failures = f.turns.flatMap (·.answer.failures) := by
  -- what a turn offers is what a call of `so_write_internal` is given
  have hanswers : ∀ {s : Socket × κ} (offset : Nat),
      (∀ k bytes, s.1.Answers bytes.length (K.answer k bytes).2) →
      s.1.Answers (min (buffer.drop offset).length (1024 * 20))
        (K.answer s.2 (SendCall.offered (1024 * 20) buffer offset)).2 := by
    intro s offset hK
    rw [List.length_drop, ← SendCall.length_offered]
    exact hK _ _
  revert hK
  refine SendCall.passFrom_induct hfit ?ends ?goes hoff h
  case ends =>
    intro s offset _ hzero hK
    have ha := hanswers offset hK
    have hn : (s.1.soWriteInternal
      (K.answer s.2 (SendCall.offered (1024 * 20) buffer offset)).2).n = 0 := hzero _ rfl
    have hresult : some offset = some (offset + (s.1.soWriteInternal _).n) :=
      congrArg (fun n => some (offset + n)) hn.symm
    exact ⟨_, soWrite_last ha hn, rfl, hresult, (List.append_nil _).symm⟩
  case goes =>
    intro s offset n f _ htook hpos ih hK
    have ha := hanswers offset hK
    obtain rfl : (s.1.soWriteInternal _).n = n := Option.some.inj htook
    obtain ⟨w, hw, hsocket, hresult, hfailures⟩ :=
      ih fun k bytes => answers_soWriteInternal.mpr (hK k bytes)
    rw [← List.drop_drop] at hw
    refine ⟨_, soWrite_turn ha hpos hw, hsocket, ?_, ?_⟩
    · exact hresult.trans (congrArg some (Nat.add_assoc ..))
    · show (s.1.soWriteInternal _).failures ++ w.failures = _
      rw [hfailures]
      rfl

/-- Against a kernel that answers this socket, `so_write` with the answers it gives is
the `so_write` of the event loop. -/
theorem soWrite_of_soWriteOver {s : Socket} {k : κ} (hfit : buffer.length < 2 ^ 64)
    (hK : ∀ k bytes, s.Answers bytes.length (K.answer k bytes).2)
    (h : soWriteOver K buffer fuel (s, k) = some f) :
    ∃ w, s.soWrite buffer (f.turns.map (·.answer.answer)) = some w ∧ w.socket = f.state.1 ∧
      f.result = some w.n ∧ w.failures = f.turns.flatMap (·.answer.failures) := by
  simpa only [List.drop_zero, Nat.zero_add] using
    soWrite_of_passFrom (s := (s, k)) hfit (Nat.zero_le _) hK h

/-! ## A send buffer -/

/-- What `so_write_internal` leaves of the socket when the kernel has no space: it asked
for `EPOLLOUT`. -/
def askedForEpollout (s : Socket) (refused : Option Nat) : Socket :=
  ({ s with
    kernel := { s.kernel with errno := EAGAIN }
    pimpl := { s.pimpl with writeEnabled := false } }.setEvents ⟨true, true⟩ refused).1

/-- `so_write_internal` puts bytes into the send buffer. -/
def buffered (refused : Option Nat) :
    (sendCall (SendBuffer.receiver EAGAIN refused)).Buffered where
  Good _ := True
  room s := s.2.free
  put s bytes := (s.1, s.2.put bytes)
  ask s := (s.1.askedForEpollout refused, s.2)
  put_nil s := by rw [s.2.put_nil]
  put_append s xs ys := by rw [s.2.put_append]
  room_put _ _ := rfl
  good_put _ _ h := h
  send_empty s _ := by
    simp [sendCall_send, sendCall_took, attempt, SendBuffer.receiver, SendBuffer.request,
      soWriteInternal]
  send_full s xs _ hxs hroom := by
    simp [sendCall_send, sendCall_took, attempt, SendBuffer.receiver, SendBuffer.request,
      soWriteInternal, hxs, hroom, askedForEpollout]
  send_room s xs _ hxs hroom := by
    simp [sendCall_send, sendCall_took, attempt, SendBuffer.receiver, SendBuffer.request,
      soWriteInternal, hxs, Nat.ne_of_gt hroom]

/-- An open socket whose registration matches `events_set_` gets what it asks for. -/
theorem askedForEpollout_armed {s : Socket} (hopen : s.kernel.isOpen s.pimpl.fd = true)
    (hset : s.pimpl.eventsSet = (s.kernel.epoll s.pimpl.fd).isSome) :
    (s.askedForEpollout none).Armed := by
  refine armed_of_setEvents rfl ?_
  simp only [setEvents, Kernel.epollCtl, Kernel.ctlError, hopen, hset]
  cases s.kernel.epoll s.pimpl.fd <;> rfl

end Socket
end Linux
end AcppNetwork
