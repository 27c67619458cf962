import AcppNetwork.BufferedWriter

/-!
# `socket_stream`: the pending data

`socket_stream` (`include/acpp-network/stream.h`) is the last layer of a chain.
`write` hands its argument to the socket and, when the socket takes less than
all of it, keeps it in `pending_data_`; the socket's `on_sent` callback writes
`pending_data_` and erases what was taken.

How much the socket takes is its own choice, so a run is a sequence of `write`
and `on_sent` calls each carrying the count `socket_.write` returned.
-/
namespace AcppNetwork

/-- The field of `socket_stream` that `write` and `on_sent` work on. -/
structure SocketStream where
  pendingData : List Byte
  deriving DecidableEq

namespace SocketStream

/-- `write`, `n` being what `socket_.write(buf, size)` returned: the stream
afterwards and the value returned. -/
def write (s : SocketStream) (buf : List Byte) (n : Nat) : SocketStream × Nat :=
  (if n < buf.length then ⟨s.pendingData ++ buf⟩ else s, buf.length)

/-- The `on_sent` callback, `n` being what `socket_.write` returned if it was
called. -/
def onSent (s : SocketStream) (n : Nat) : SocketStream :=
  if s.pendingData ≠ [] then
    if n > 0 then ⟨s.pendingData.drop n⟩ else s
  else s

/-- `on_sent` erases from `pending_data_` the bytes that were taken. -/
theorem onSent_pendingData (s : SocketStream) (n : Nat) :
    (s.onSent n).pendingData = s.pendingData.drop n := by
  unfold onSent
  by_cases hempty : s.pendingData = []
  · rw [if_neg (not_not.mpr hempty), hempty, List.drop_nil]
  · rw [if_pos hempty]
    by_cases hn : n > 0
    · rw [if_pos hn]
    · rw [if_neg hn, show n = 0 by omega, List.drop_zero]

/-! ## Runs -/

/-- A call, with the count the socket answers. -/
inductive Call where
  | write (buf : List Byte) (n : Nat)
  | onSent (n : Nat)
  deriving DecidableEq

/-- The stream with the bytes the socket accepted and the bytes written so far. -/
structure Ledger where
  stream : SocketStream
  accepted : List Byte
  written : List Byte
  deriving DecidableEq

/-- Nothing written. -/
def Ledger.start : Ledger := ⟨⟨[]⟩, [], []⟩

/-- The socket takes at most what it is given. -/
def Call.Answered (s : Ledger) : Call → Prop
  | .write buf n => n ≤ buf.length
  | .onSent n => n ≤ s.stream.pendingData.length

instance (s : Ledger) (c : Call) : Decidable (c.Answered s) := by
  cases c <;> exact inferInstanceAs (Decidable (_ ≤ _))

/-- A call. -/
def perform (s : Ledger) : Call → Ledger
  | .write buf n => ⟨(s.stream.write buf n).1, s.accepted ++ buf.take n, s.written ++ buf⟩
  | .onSent n => ⟨s.stream.onSent n, s.accepted ++ s.stream.pendingData.take n, s.written⟩

/-- One call of a run. -/
def step (s : Ledger) (c : Call) : Option Ledger :=
  if c.Answered s then some (perform s c) else none

/-- The bytes accepted, followed by those pending, are the bytes written. -/
def Fifo (s : Ledger) : Prop := s.accepted ++ s.stream.pendingData = s.written

/-- A `write` of which the socket takes nothing, or one taken whole that may as
well have been sent after the pending data. -/
def Call.InOrder (s : Ledger) : Call → Prop
  | .write buf n =>
      n = 0 ∨ n = buf.length ∧ buf ++ s.stream.pendingData = s.stream.pendingData ++ buf
  | .onSent _ => True

instance (s : Ledger) (c : Call) : Decidable (c.InOrder s) := by
  cases c
  · exact inferInstanceAs (Decidable (_ ∨ _))
  · exact .isTrue trivial

theorem step_some {s s' : Ledger} {c : Call} :
    step s c = some s' ↔ c.Answered s ∧ s' = perform s c := by
  unfold step
  by_cases h : c.Answered s
  · rw [if_pos h, Option.some.injEq]
    exact ⟨fun e => ⟨h, e.symm⟩, fun e => e.2.symm⟩
  · rw [if_neg h]
    exact ⟨fun e => (Option.some_ne_none _ e.symm).elim, fun e => absurd e.1 h⟩

/-- `on_sent` delivers: what it hands to the socket it erases. -/
theorem fifo_onSent {s : Ledger} (hs : Fifo s) (n : Nat) : Fifo (perform s (.onSent n)) := by
  have htraces : Conduit.Traces ⟨s.written, s.accepted, s.stream.pendingData, hs⟩
      s.written s.accepted s.stream.pendingData := ⟨rfl, rfl, rfl⟩
  show (s.accepted ++ s.stream.pendingData.take n) ++ (s.stream.onSent n).pendingData = s.written
  rw [onSent_pendingData]
  exact (htraces.deliver n).fifo

/-- A `write` keeps the order exactly when it is in order. -/
theorem fifo_write {s : Ledger} (hs : Fifo s) {buf : List Byte} {n : Nat} (hn : n ≤ buf.length) :
    Fifo (perform s (.write buf n)) ↔ (Call.write buf n).InOrder s := by
  have hs' : s.written = s.accepted ++ s.stream.pendingData := hs.symm
  by_cases hshort : n < buf.length
  · -- the whole argument is appended, whatever part of it was taken
    have hpending : (s.stream.write buf n).1.pendingData = s.stream.pendingData ++ buf := by
      rw [write, if_pos hshort]
    show (s.accepted ++ buf.take n) ++ (s.stream.write buf n).1.pendingData = s.written ++ buf ↔ _
    rw [hpending, hs', List.append_assoc, List.append_assoc, List.append_cancel_left_eq,
      ← List.append_assoc, List.append_cancel_right_eq, List.append_left_eq_self,
      List.take_eq_nil_iff]
    constructor
    · rintro (h | h)
      · exact .inl h
      · rw [h] at hshort
        exact absurd hshort (Nat.not_lt_zero n)
    · rintro (h | ⟨h, -⟩)
      · exact .inl h
      · omega
  · have hall : n = buf.length := by omega
    have hpending : (s.stream.write buf n).1.pendingData = s.stream.pendingData := by
      rw [write, if_neg hshort]
    show (s.accepted ++ buf.take n) ++ (s.stream.write buf n).1.pendingData = s.written ++ buf ↔ _
    rw [hpending, hs', hall, List.take_length, List.append_assoc, List.append_assoc,
      List.append_cancel_left_eq]
    constructor
    · exact fun h => .inr ⟨rfl, h⟩
    · rintro (h | ⟨-, h⟩)
      · rw [List.eq_nil_of_length_eq_zero h, List.nil_append, List.append_nil]
      · exact h

/-- A step keeps the order exactly when it is in order. -/
theorem fifo_step {s s' : Ledger} {c : Call} (hs : Fifo s) (h : step s c = some s') :
    Fifo s' ↔ c.InOrder s := by
  obtain ⟨hc, rfl⟩ := step_some.mp h
  cases c with
  | write buf n => exact fifo_write hs hc
  | onSent n => exact ⟨fun _ => trivial, fun _ => fifo_onSent hs n⟩

/-- **When the pending data keep the bytes in order.**  Throughout a run, what
the socket accepted followed by `pending_data_` is what was written, exactly if
every `write` of the run is one the socket takes nothing of, or all of at a
time when the pending data commute with it. -/
theorem fifo_iff_inOrder {es : List Call} {s : Ledger}
    (hr : Runs.run step Ledger.start es = some s) :
    Runs.Throughout step Fifo Ledger.start es ↔
      Runs.Along step (fun s c => c.InOrder s) Ledger.start es :=
  Runs.throughout_iff_along (J := fun _ => True) (fun _ _ _ _ _ => trivial)
    (fun _ _ _ _ hs h => fifo_step hs h) trivial rfl hr

/-- The socket is full for the first `write` and takes the data from `on_sent`. -/
theorem fifo_iff_inOrder_drained :
    Runs.Throughout step Fifo Ledger.start [.write [1, 2] 0, .onSent 2, .write [3] 1] :=
  (@fifo_iff_inOrder [.write [1, 2] 0, .onSent 2, .write [3] 1] _ rfl).mpr (by decide)

/-- The socket takes one byte of two; both are kept, and the first is sent again
by `on_sent`. -/
theorem short_write_duplicates :
    ∃ s, Runs.run step Ledger.start [.write [1, 2] 1, .onSent 2] = some s ∧
      s.accepted = [1, 1, 2] ∧ s.written = [1, 2] ∧ ¬ Fifo s :=
  ⟨⟨⟨[]⟩, [1, 1, 2], [1, 2]⟩, by decide, rfl, rfl, by unfold Fifo; decide⟩

end SocketStream
end AcppNetwork
