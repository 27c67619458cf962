import AcppNetwork.LinuxSoWrite
import AcppNetwork.MacosSocket

/-!
# `so_write` on macOS and on Linux

The loops of the two backends differ in the size of their chunks.  Over a send buffer
with limited space neither the bytes that get there, nor what is returned, nor whether
a write event is asked for depends on that size (`so_write_agree`).
-/
namespace AcppNetwork
namespace Macos

open Linux (Callback Send Receiver SendBuffer)

namespace Socket

/-- What a call of `so_write_internal` did: the answer it got, what it returns (none if
it throws) and the callback it called. -/
structure Attempt where
  answer : Send
  n : Option Nat
  callback : Option Callback

variable {κ : Type}

/-- `so_write_internal` against a kernel. -/
def attempt (K : Receiver κ) (s : Socket × κ) (bytes : List Byte) : (Socket × κ) × Attempt :=
  let r := K.answer s.2 bytes
  let w := s.1.soWriteInternal r.2
  ((w.socket, r.1), ⟨r.2, w.n, w.callback⟩)

/-- What `so_write_internal` returns is the count that was sent. -/
theorem soWriteInternal_n {s : Socket} {a : Send} {n : Nat}
    (h : (s.soWriteInternal a).n = some n) : n = a.count := by
  cases a with
  | sent m => exact (Option.some.inj h).symm
  | failed e refused =>
    simp only [soWriteInternal] at h
    split at h
    · split at h
      · exact (Option.some.inj h).symm
      · cases h
    · exact (Option.some.inj h).symm

/-- `so_write_internal` against a kernel, as a call that takes part of a buffer. -/
def sendCall (K : Receiver κ) : SendCall (Socket × κ) Attempt Byte where
  send := attempt K
  took a := a.n
  took_le {s xs n} h := by
    obtain rfl := soWriteInternal_n h
    exact (K.legal s.2 xs).count_le

theorem sendCall_send (K : Receiver κ) (s : Socket × κ) (bytes : List Byte) :
    (sendCall K).send s bytes = attempt K s bytes := rfl

theorem sendCall_took (K : Receiver κ) (a : Attempt) : (sendCall K).took a = a.n := rfl

/-- `so_write`: chunks of `1024 * 4` bytes, lengths in words of 64 bits. -/
def soWriteOver (K : Receiver κ) (buffer : List Byte) (fuel : Nat) (s : Socket × κ) :
    Option (SendCall.Finished (Socket × κ) Attempt) :=
  (sendCall K).pass 64 (1024 * 4) buffer fuel s

variable {K : Receiver κ} {buffer : List Byte} {fuel : Nat}
  {f : SendCall.Finished (Socket × κ) Attempt}

/-! ## The same `so_write` -/

theorem soWriteInternal_frame (s : Socket) (a : Send) :
    (s.soWriteInternal a).socket.pimpl = s.pimpl ∧
      (s.soWriteInternal a).socket.kernel.isOpen = s.kernel.isOpen := by
  cases a with
  | sent n => exact ⟨rfl, rfl⟩
  | failed e refused =>
    simp only [soWriteInternal]
    split
    · simp only [askWriteEvent]
      cases (s.setErrno e).kernel.changeError (s.setErrno e).pimpl.fd refused with
      | none => exact ⟨rfl, rfl⟩
      | some e' => exact ⟨rfl, rfl⟩
    · exact ⟨rfl, rfl⟩

theorem answers_soWriteInternal {s : Socket} {a b : Send} {len : Nat} :
    (s.soWriteInternal a).socket.Answers len b ↔ s.Answers len b := by
  obtain ⟨hpimpl, hopen⟩ := soWriteInternal_frame s a
  cases b with
  | sent n => simp only [Answers, hpimpl, hopen]
  | failed e refused => simp only [Answers, hpimpl, hopen]

/-- The last turn of `so_write`, which throws or sends nothing. -/
theorem soWrite_last {s : Socket} {a : Send} (ha : s.Answers (min buffer.length (1024 * 4)) a)
    (hn : ∀ n, (s.soWriteInternal a).n = some n → n = 0) :
    s.soWrite buffer [a] = some (s.soWriteInternal a) := by
  simp only [soWrite, if_pos ha]
  cases hw : (s.soWriteInternal a).n with
  | none => rfl
  | some n =>
    obtain rfl := hn n hw
    rfl

/-- A turn of `so_write` before the last. -/
theorem soWrite_turn {s : Socket} {a : Send} {as : List Send} {n : Nat} {w : Written}
    (ha : s.Answers (min buffer.length (1024 * 4)) a) (hn : (s.soWriteInternal a).n = some n)
    (hpos : n ≠ 0) (hw : (s.soWriteInternal a).socket.soWrite (buffer.drop n) as = some w) :
    s.soWrite buffer (a :: as) = some { w with n := w.n.map (n + ·) } := by
  obtain ⟨m, rfl⟩ := Nat.exists_eq_succ_of_ne_zero hpos
  simp only [soWrite, if_pos ha, hn, hw, Option.map_some]

theorem soWrite_of_passFrom {offset : Nat} {s : Socket × κ} (hfit : buffer.length < 2 ^ 64)
    (hoff : offset ≤ buffer.length) (hK : ∀ k bytes, s.1.Answers bytes.length (K.answer k bytes).2)
    (h : (sendCall K).passFrom 64 (1024 * 4) buffer fuel s offset = some f) :
    ∃ w, s.1.soWrite (buffer.drop offset) (f.turns.map (·.answer.answer)) = some w ∧
      w.socket = f.state.1 ∧ f.result = w.n.map (offset + ·) := by
  -- what a turn offers is what a call of `so_write_internal` is given
  have hanswers : ∀ {s : Socket × κ} (offset : Nat),
      (∀ k bytes, s.1.Answers bytes.length (K.answer k bytes).2) →
      s.1.Answers (min (buffer.drop offset).length (1024 * 4))
        (K.answer s.2 (SendCall.offered (1024 * 4) buffer offset)).2 := by
    intro s offset hK
    rw [List.length_drop, ← SendCall.length_offered]
    exact hK _ _
  revert hK
  refine SendCall.passFrom_induct hfit ?ends ?goes hoff h
  case ends =>
    intro s offset _ hzero hK
    have hresult : ((s.1.soWriteInternal
          (K.answer s.2 (SendCall.offered (1024 * 4) buffer offset)).2).n.map fun _ => offset) =
        (s.1.soWriteInternal _).n.map (offset + ·) :=
      Option.map_congr fun n hn => by rw [hzero n hn, Nat.add_zero]
    exact ⟨_, soWrite_last (hanswers offset hK) hzero, rfl, hresult⟩
  case goes =>
    intro s offset n f _ htook hpos ih hK
    obtain ⟨w, hw, hsocket, hresult⟩ := ih fun k bytes => answers_soWriteInternal.mpr (hK k bytes)
    rw [← List.drop_drop] at hw
    refine ⟨_, soWrite_turn (hanswers offset hK) htook hpos hw, hsocket, ?_⟩
    show f.result = _
    rw [hresult, Option.map_map]
    exact Option.map_congr fun m _ => Nat.add_assoc ..

/-- Against a kernel that answers this socket, `so_write` with the answers it gives is
the `so_write` of the event loop. -/
theorem soWrite_of_soWriteOver {s : Socket} {k : κ} (hfit : buffer.length < 2 ^ 64)
    (hK : ∀ k bytes, s.Answers bytes.length (K.answer k bytes).2)
    (h : soWriteOver K buffer fuel (s, k) = some f) :
    ∃ w, s.soWrite buffer (f.turns.map (·.answer.answer)) = some w ∧ w.socket = f.state.1 ∧
      f.result = w.n := by
  simpa only [List.drop_zero, Nat.zero_add, Option.map_id'] using
    soWrite_of_passFrom (s := (s, k)) hfit (Nat.zero_le _) hK h

/-! ## A send buffer -/

/-- What `so_write_internal` leaves of an open socket when the kernel has no space: it
asked for a write event. -/
def askedForWrite (s : Socket) : Socket := ((s.setErrno EAGAIN).askWriteEvent none).1

/-- The write filter of an open socket that asked for it is registered. -/
theorem askedForWrite_writes {s : Socket} (hopen : s.kernel.isOpen s.pimpl.fd = true) :
    ∃ kn, s.askedForWrite.kernel.writes s.pimpl.fd = some kn ∧ kn.udata = s.this := by
  have hask : (s.setErrno EAGAIN).askWriteEvent none =
      ({ s.setErrno EAGAIN with
        kernel := (s.setErrno EAGAIN).kernel.addWrite s.pimpl.fd s.this }, true) := by
    simp [askWriteEvent, Kernel.changeError, setErrno, hopen]
  rw [askedForWrite, hask]
  exact ⟨_, Function.update_self .., rfl⟩

/-- `so_write_internal` of an open socket puts bytes into the send buffer. -/
def buffered : (sendCall (SendBuffer.receiver EAGAIN none)).Buffered where
  Good s := s.1.kernel.isOpen s.1.pimpl.fd = true
  room s := s.2.free
  put s bytes := (s.1, s.2.put bytes)
  ask s := (s.1.askedForWrite, s.2)
  put_nil s := by rw [s.2.put_nil]
  put_append s xs ys := by rw [s.2.put_append]
  room_put _ _ := rfl
  good_put _ _ h := h
  send_empty s _ := by
    simp [sendCall_send, sendCall_took, attempt, SendBuffer.receiver, SendBuffer.request,
      soWriteInternal]
  send_full s xs hopen hxs hroom := by
    simp [sendCall_send, sendCall_took, attempt, SendBuffer.receiver, SendBuffer.request,
      soWriteInternal, hxs, hroom, askedForWrite, askWriteEvent, Kernel.changeError, setErrno,
      hopen]
  send_room s xs _ hxs hroom := by
    simp [sendCall_send, sendCall_took, attempt, SendBuffer.receiver, SendBuffer.request,
      soWriteInternal, hxs, Nat.ne_of_gt hroom]

end Socket

/-- **`so_write` of the two backends agree** over a send buffer with free space `f`:
both return `min len f`, both leave the first `min len f` bytes in the buffer, and each
asks for a write event exactly if `f < len`: otherwise the socket is as it was.  A socket
that had not asked before is then seen to have asked by what is registered for it. -/
theorem so_write_agree (s : Linux.Socket) (t : Socket) (b : SendBuffer) (buffer : List Byte)
    (hfit : buffer.length < 2 ^ 64) (refused : Option Nat)
    (hopen : t.kernel.isOpen t.pimpl.fd = true) :
    ∃ l m, (∀ fuel, buffer.length < fuel →
        Linux.Socket.soWriteOver (SendBuffer.receiver Linux.EAGAIN refused) buffer fuel (s, b)
          = some l ∧
        Socket.soWriteOver (SendBuffer.receiver EAGAIN none) buffer fuel (t, b) = some m) ∧
      l.result = some (min buffer.length b.free) ∧ m.result = some (min buffer.length b.free) ∧
      l.state.2 = b.put (buffer.take (min buffer.length b.free)) ∧ m.state.2 = l.state.2 ∧
      l.state.1 = (if b.free < buffer.length then s.askedForEpollout refused else s) ∧
      m.state.1 = (if b.free < buffer.length then t.askedForWrite else t) ∧
      (refused = none → s.kernel.isOpen s.pimpl.fd = true →
        s.pimpl.eventsSet = (s.kernel.epoll s.pimpl.fd).isSome → ¬ s.Armed →
        (l.state.1.Armed ↔ b.free < buffer.length)) ∧
      (t.kernel.writes t.pimpl.fd = none →
        (m.state.1.kernel.writes t.pimpl.fd ≠ none ↔ b.free < buffer.length)) := by
  obtain ⟨l, hl, hlstate, hlresult⟩ := (Linux.Socket.buffered refused).pass (s := (s, b)) trivial
    (show 0 < 1024 * 20 by decide) hfit
  obtain ⟨m, hm, hmstate, hmresult⟩ := Socket.buffered.pass (s := (t, b)) hopen
    (show 0 < 1024 * 4 by decide) hfit
  change l.state = if b.free < buffer.length then
    (s.askedForEpollout refused, b.put (buffer.take b.free)) else (s, b.put buffer) at hlstate
  change m.state = if b.free < buffer.length then
    (t.askedForWrite, b.put (buffer.take b.free)) else (t, b.put buffer) at hmstate
  refine ⟨l, m, fun fuel hfuel => ⟨hl fuel hfuel, hm fuel hfuel⟩, hlresult, hmresult, ?_⟩
  rw [hlstate, hmstate]
  by_cases hfull : b.free < buffer.length
  · rw [if_pos hfull, if_pos hfull, if_pos hfull, if_pos hfull]
    refine ⟨by rw [Nat.min_eq_right (by omega)], rfl, rfl, rfl, ?_, ?_⟩
    · intro hrefused hopen' hset _
      subst hrefused
      exact iff_of_true (Linux.Socket.askedForEpollout_armed hopen' hset) hfull
    · intro _
      obtain ⟨kn, hkn, -⟩ := Socket.askedForWrite_writes hopen
      refine iff_of_true ?_ hfull
      rw [hkn]
      exact Option.some_ne_none kn
  · rw [if_neg hfull, if_neg hfull, if_neg hfull, if_neg hfull]
    refine ⟨by rw [Nat.min_eq_left (by omega), List.take_length], rfl, rfl, rfl, ?_, ?_⟩
    · intro _ _ _ harmed
      exact iff_of_false harmed hfull
    · intro hnone
      exact iff_of_false (fun h => h hnone) hfull

/-- Three bytes for a buffer with space for two. -/
theorem so_write_agree_two :
    ∃ l m,
      Linux.Socket.soWriteOver (SendBuffer.receiver Linux.EAGAIN none) [1, 2, 3] 4
        (⟨0, ⟨fun fd => fd = 3, fun _ => none, 0⟩,
          .new 2 1 0 3 ⟨false, false, false, false, false, false⟩ 0⟩, ⟨[], 2⟩) = some l ∧
      Socket.soWriteOver (SendBuffer.receiver EAGAIN none) [1, 2, 3] 4
        (⟨0, ⟨fun fd => fd = 3, fun _ => false, fun _ => 0, fun _ => none, fun _ => none, 0⟩,
          .new 2 1 0 3 ⟨false, false, false, false, false, false⟩ 0⟩, ⟨[], 2⟩) = some m ∧
      l.result = some 2 ∧ m.result = some 2 ∧ l.state.2 = ⟨[1, 2], 0⟩ ∧ m.state.2 = l.state.2 := by
  obtain ⟨l, m, hends, hl, hm, hbytes, hsame, -⟩ := so_write_agree
    ⟨0, ⟨fun fd => fd = 3, fun _ => none, 0⟩,
      .new 2 1 0 3 ⟨false, false, false, false, false, false⟩ 0⟩
    ⟨0, ⟨fun fd => fd = 3, fun _ => false, fun _ => 0, fun _ => none, fun _ => none, 0⟩,
      .new 2 1 0 3 ⟨false, false, false, false, false, false⟩ 0⟩
    ⟨[], 2⟩ [1, 2, 3] (by decide) none (by decide)
  exact ⟨l, m, (hends 4 (by decide)).1, (hends 4 (by decide)).2, hl, hm, hbytes, hsame⟩

end Macos
end AcppNetwork
