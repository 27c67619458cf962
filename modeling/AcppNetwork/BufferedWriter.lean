import AcppNetwork.Conduit
import AcppNetwork.Runs

/-!
# `buffered_writer`

`buffered_writer` (`src/detail/common.h`) stands in front of a writer that may
take only part of what it is handed: what the writer does not take is kept in
`buffer_`, a `std::vector<char>` that never holds more than `buffer_size_`
bytes, and `write_buffered` drains it.

The writer is outside: every call carries its answers — whether `write_enabled()`
holds, and how many bytes `so_write` emits.  A run is a sequence of calls with
such answers (`step`), and the abstract view of the component is a conduit of
bounded capacity (`simulates`).
-/
namespace AcppNetwork

/-- One `char`. -/
abbrev Byte := UInt8

/-- A `std::vector<char>`: its elements and its capacity, which bounds them. -/
structure CharVector where
  data : List Byte
  capacity : Nat
  fits : data.length ≤ capacity

namespace CharVector

/-- `std::vector<char> v;` -/
def empty : CharVector := ⟨[], 0, Nat.le_refl 0⟩

/-- `reserve`, on an implementation that allocates exactly what is asked for. -/
def reserve (v : CharVector) (n : Nat) : CharVector :=
  ⟨v.data, max v.capacity n, Nat.le_trans v.fits (Nat.le_max_left _ _)⟩

/-- `insert(end(), ...)`: within the capacity, or after the vector has grown. -/
def insertEnd (v : CharVector) (xs : List Byte) : CharVector :=
  if h : (v.data ++ xs).length ≤ v.capacity then
    ⟨v.data ++ xs, v.capacity, h⟩
  else
    ⟨v.data ++ xs, v.data.length + max v.data.length xs.length, by
      rw [List.length_append]; omega⟩

/-- `erase(begin(), begin() + n)`: the capacity stays. -/
def eraseFront (v : CharVector) (n : Nat) : CharVector :=
  ⟨v.data.drop n, v.capacity, Nat.le_trans (by rw [List.length_drop]; omega) v.fits⟩

variable {v : CharVector} {xs : List Byte} {n : Nat}

@[simp] theorem reserve_data : (v.reserve n).data = v.data := rfl
@[simp] theorem reserve_capacity : (v.reserve n).capacity = max v.capacity n := rfl
@[simp] theorem eraseFront_data : (v.eraseFront n).data = v.data.drop n := rfl
@[simp] theorem eraseFront_capacity : (v.eraseFront n).capacity = v.capacity := rfl

@[simp] theorem insertEnd_data : (v.insertEnd xs).data = v.data ++ xs := by
  unfold insertEnd
  split <;> rfl

theorem insertEnd_capacity (h : v.data.length + xs.length ≤ v.capacity) :
    (v.insertEnd xs).capacity = v.capacity := by
  unfold insertEnd
  rw [dif_pos (by rw [List.length_append]; exact h)]

end CharVector

/-- The fields of `buffered_writer` (`writer_` is outside). -/
structure BufferedWriter where
  buffer : CharVector
  bufferSize : Nat

namespace BufferedWriter

/-- The constructor: `buffer_.reserve(buffer_size_)`. -/
def new (bufferSize : Nat) : BufferedWriter := ⟨CharVector.empty.reserve bufferSize, bufferSize⟩

/-- `add_to_buffer`: the writer afterwards and the number of bytes buffered. -/
def addToBuffer (w : BufferedWriter) (buf : List Byte) : Except String (BufferedWriter × Nat) :=
  let freeN := w.buffer.capacity - w.buffer.data.length
  let toBuffer := min buf.length freeN
  let buffer := if toBuffer > 0 then w.buffer.insertEnd (buf.take toBuffer) else w.buffer
  if buffer.capacity ≠ w.bufferSize then
    .error "write: buffer_.capacity() != buffer_size_"
  else
    .ok (⟨buffer, w.bufferSize⟩, toBuffer)

/-- `write`: the writer afterwards, the value returned and what `so_write` was
given, if it was called.  `enabled` is what `write_enabled()` answers and `n`
what `so_write` returns if it is called. -/
def write (w : BufferedWriter) (buf : List Byte) (enabled : Bool) (n : Nat) :
    Except String (BufferedWriter × Nat × Option (List Byte)) :=
  if !w.buffer.data.isEmpty || !enabled then
    (w.addToBuffer buf).map fun (w', k) => (w', k, none)
  else
    let remainingLen := buf.length - n
    if remainingLen > 0 then
      (w.addToBuffer (buf.drop n)).map fun (w', k) => (w', n + k, some buf)
    else
      .ok (w, n, some buf)

/-- `write_buffered`: the writer afterwards, the value returned and what
`so_write` was given, if it was called; `n` is what it returns then. -/
def writeBuffered (w : BufferedWriter) (n : Nat) :
    Except String (BufferedWriter × Nat × Option (List Byte)) :=
  if w.buffer.data.isEmpty then
    .ok (w, 0, none)
  else if n > w.buffer.data.length then
    .error "write_buffered: n > buffer_.size()"
  else
    .ok (⟨if n > 0 then w.buffer.eraseFront n else w.buffer, w.bufferSize⟩, n, some w.buffer.data)

/-! ## Runs -/

/-- A call with the answers of the writer behind it. -/
inductive Call where
  | write (buf : List Byte) (enabled : Bool) (n : Nat)
  | writeBuffered (n : Nat)

/-- What the writer emits when it answers `n`: the first `n` bytes of what
`so_write` was given. -/
def emits (n : Nat) (given : Option (List Byte)) : List Byte := (given.getD []).take n

@[simp] theorem emits_none (n : Nat) : emits n none = [] := List.take_nil
@[simp] theorem emits_some (n : Nat) (buf : List Byte) : emits n (some buf) = buf.take n := rfl

/-- The object with what the writer emitted and, over all `write` calls, the
first `r` bytes of the argument where `r` is the value the call returned. -/
structure Ledger where
  writer : BufferedWriter
  emitted : List Byte
  accepted : List Byte

/-- A new object. -/
def Ledger.new (bufferSize : Nat) : Ledger := ⟨BufferedWriter.new bufferSize, [], []⟩

/-- `so_write(p, l)` emits the first `n` bytes for some `n ≤ l`. -/
def Call.Answered (s : Ledger) : Call → Prop
  | .write buf _ n => n ≤ buf.length
  | .writeBuffered n => n ≤ s.writer.buffer.data.length

instance (s : Ledger) (c : Call) : Decidable (c.Answered s) := by
  cases c <;> exact inferInstanceAs (Decidable (_ ≤ _))

/-- A call: the ledger afterwards and the value returned, or the exception. -/
def perform (s : Ledger) : Call → Except String (Ledger × Nat)
  | .write buf enabled n =>
      (s.writer.write buf enabled n).map fun (w, r, given) =>
        (⟨w, s.emitted ++ emits n given, s.accepted ++ buf.take r⟩, r)
  | .writeBuffered n =>
      (s.writer.writeBuffered n).map fun (w, r, given) =>
        (⟨w, s.emitted ++ emits n given, s.accepted⟩, r)

/-- One call of a run. -/
def step (s : Ledger) (c : Call) : Option Ledger :=
  if c.Answered s then (perform s c).toOption.map Prod.fst else none

/-! ## The object is a conduit of bounded capacity -/

/-- The ledger is that of a conduit, and the vector still has the capacity the
constructor reserved. -/
structure Simulates (bufferSize : Nat) (q : Conduit Byte) (s : Ledger) : Prop where
  traces : q.Traces s.accepted s.emitted s.writer.buffer.data
  size : s.writer.bufferSize = bufferSize
  capacity : s.writer.buffer.capacity = bufferSize

theorem simulates_new (bufferSize : Nat) :
    Simulates bufferSize Conduit.empty (Ledger.new bufferSize) :=
  ⟨Conduit.Traces.empty, rfl, Nat.zero_max bufferSize⟩

theorem take_min_length (xs : List Byte) (k : Nat) : xs.take (min xs.length k) = xs.take k := by
  rw [List.take_eq_take_iff]
  omega

/-- Within the capacity, `add_to_buffer` takes what there is room for and does
not throw. -/
theorem addToBuffer_spec {w : BufferedWriter} (hcap : w.buffer.capacity = w.bufferSize)
    (buf : List Byte) :
    ∃ buffer, w.addToBuffer buf =
        .ok (⟨buffer, w.bufferSize⟩, min buf.length (w.bufferSize - w.buffer.data.length)) ∧
      buffer.capacity = w.bufferSize ∧
      buffer.data = w.buffer.data ++ buf.take (w.bufferSize - w.buffer.data.length) := by
  have hfits := w.buffer.fits
  rw [hcap] at hfits
  by_cases hroom : min buf.length (w.bufferSize - w.buffer.data.length) > 0
  · have hkeep : (w.buffer.insertEnd
        (buf.take (min buf.length (w.bufferSize - w.buffer.data.length)))).capacity
          = w.bufferSize := by
      rw [CharVector.insertEnd_capacity (by rw [List.length_take, hcap]; omega), hcap]
    refine ⟨_, ?_, hkeep, ?_⟩
    · simp only [addToBuffer, hcap, hroom, if_true, hkeep, ne_eq, not_true_eq_false, if_false]
    · rw [CharVector.insertEnd_data, take_min_length]
  · refine ⟨w.buffer, ?_, hcap, ?_⟩
    · simp only [addToBuffer, hcap, hroom, ne_eq, not_true_eq_false, if_false]
    · rw [← take_min_length, Nat.eq_zero_of_not_pos hroom, List.take_zero, List.append_nil]

/-- `write` keeps the conduit: what the writer emits passes through it, the rest
is offered to it; a call that returns less than `len` leaves the buffer full. -/
theorem perform_write {bufferSize : Nat} {q : Conduit Byte} {s : Ledger}
    (hs : Simulates bufferSize q s) {buf : List Byte} {n : Nat} (hn : n ≤ buf.length)
    (enabled : Bool) :
    ∃ s' r q', perform s (.write buf enabled n) = .ok (s', r) ∧ Simulates bufferSize q' s' ∧
      r ≤ buf.length ∧ (r < buf.length → s'.writer.buffer.data.length = bufferSize) := by
  have hfits := s.writer.buffer.fits
  have hcap : s.writer.buffer.capacity = s.writer.bufferSize := hs.capacity.trans hs.size.symm
  rw [hs.capacity] at hfits
  by_cases hbuffer : (!s.writer.buffer.data.isEmpty || !enabled) = true
  · -- nothing is emitted: the whole argument is offered to the buffer
    obtain ⟨buffer, hadd, hbcap, hdata⟩ := addToBuffer_spec hcap buf
    rw [hs.size] at hadd hbcap hdata
    have hoffer := hs.traces.offer bufferSize buf
    refine ⟨⟨⟨buffer, bufferSize⟩, s.emitted ++ emits n none, s.accepted ++ buf.take _⟩, _,
      q.offer bufferSize buf,
      by simp only [perform, write, hbuffer, if_true, hadd, Except.map]; rfl, ⟨?_, rfl, hbcap⟩,
      Nat.min_le_left .., ?_⟩
    · show Conduit.Traces _ (s.accepted ++ buf.take _) (s.emitted ++ emits n none) buffer.data
      rw [hdata, take_min_length, emits_none, List.append_nil]
      exact hoffer
    · intro hshort
      show buffer.data.length = bufferSize
      rw [hdata, ← hoffer.held]
      refine Conduit.offer_held_full (by rw [hs.traces.held]; exact hfits) ?_
      rw [hs.traces.held, List.length_take, Nat.min_comm]
      exact hshort
  · obtain ⟨hempty, henabled⟩ : s.writer.buffer.data = [] ∧ enabled = true := by
      simpa using hbuffer
    have htraces := hs.traces
    rw [hempty] at htraces
    by_cases hrest : buf.length - n > 0
    · -- the first `n` bytes are emitted, the rest is offered to the empty buffer
      obtain ⟨buffer, hadd, hbcap, hdata⟩ := addToBuffer_spec hcap (buf.drop n)
      rw [hs.size, hempty, List.length_nil, Nat.sub_zero] at hadd
      rw [hs.size, hempty, List.length_nil, Nat.sub_zero, List.nil_append] at hdata
      rw [hs.size] at hbcap
      have hoffer := (htraces.pass (buf.take n)).offer bufferSize (buf.drop n)
      rw [List.length_nil, Nat.sub_zero, List.nil_append] at hoffer
      have hle : n + min (buf.drop n).length bufferSize ≤ buf.length := by
        rw [List.length_drop]; omega
      refine ⟨⟨⟨buffer, bufferSize⟩, s.emitted ++ buf.take n, s.accepted ++ buf.take _⟩, _,
        (q.pass htraces.held (buf.take n)).offer bufferSize (buf.drop n),
        by simp only [perform, write, hbuffer, Bool.false_eq_true, if_false, hrest, if_true, hadd,
          Except.map]; rfl,
        ⟨?_, rfl, hbcap⟩, hle, ?_⟩
      · show Conduit.Traces _ (s.accepted ++ buf.take _) (s.emitted ++ buf.take n) buffer.data
        rw [hdata, List.take_add, take_min_length, ← List.append_assoc]
        exact hoffer
      · intro hshort
        show buffer.data.length = bufferSize
        have hmin : n + min (buf.drop n).length bufferSize < buf.length := hshort
        rw [List.length_drop] at hmin
        rw [hdata, List.length_take, List.length_drop]
        omega
    · -- everything is emitted
      refine ⟨⟨s.writer, s.emitted ++ buf.take n, s.accepted ++ buf.take n⟩, n,
        q.pass htraces.held (buf.take n),
        by simp only [perform, write, hbuffer, Bool.false_eq_true, if_false, hrest, Except.map,
          emits_some],
        ⟨?_, hs.size, hs.capacity⟩, hn, fun hshort => absurd hshort (by omega)⟩
      show Conduit.Traces _ _ _ s.writer.buffer.data
      rw [hempty]
      exact htraces.pass _

/-- `write_buffered` delivers what the writer emits. -/
theorem perform_writeBuffered {bufferSize : Nat} {q : Conduit Byte} {s : Ledger}
    (hs : Simulates bufferSize q s) {n : Nat} (hn : n ≤ s.writer.buffer.data.length) :
    ∃ s' r q', perform s (.writeBuffered n) = .ok (s', r) ∧ Simulates bufferSize q' s' := by
  by_cases hempty : s.writer.buffer.data.isEmpty = true
  · refine ⟨⟨s.writer, s.emitted ++ emits n none, s.accepted⟩, 0, q, ?_, ?_, hs.size, hs.capacity⟩
    · simp only [perform, writeBuffered, hempty, if_true, Except.map]
    · rw [emits_none, List.append_nil]; exact hs.traces
  · have hle : ¬ n > s.writer.buffer.data.length := by omega
    refine ⟨⟨⟨if n > 0 then s.writer.buffer.eraseFront n else s.writer.buffer, s.writer.bufferSize⟩,
      s.emitted ++ s.writer.buffer.data.take n, s.accepted⟩, n, q.deliver n, ?_, ?_, hs.size, ?_⟩
    · simp only [perform, writeBuffered, hempty, hle, Bool.false_eq_true, if_false, Except.map,
        emits_some]
    · have hdrop : (if n > 0 then s.writer.buffer.eraseFront n else s.writer.buffer).data
          = s.writer.buffer.data.drop n := by
        split
        · rfl
        · rw [show n = 0 from by omega, List.drop_zero]
      show Conduit.Traces _ _ _ (if n > 0 then _ else _ : CharVector).data
      rw [hdrop]
      exact hs.traces.deliver n
    · show (if n > 0 then _ else _ : CharVector).capacity = bufferSize
      rw [← hs.capacity]
      split <;> rfl

theorem simulates_step {bufferSize : Nat} {s s' : Ledger} {c : Call}
    (hs : ∃ q, Simulates bufferSize q s) (h : step s c = some s') :
    ∃ q, Simulates bufferSize q s' := by
  obtain ⟨q, hs⟩ := hs
  simp only [step] at h
  split at h
  · rename_i hc
    have hok : ∃ t r q', perform s c = .ok (t, r) ∧ Simulates bufferSize q' t := by
      cases c with
      | write buf enabled n =>
        obtain ⟨t, r, q', ht, hq', -, -⟩ := perform_write hs hc enabled
        exact ⟨t, r, q', ht, hq'⟩
      | writeBuffered n => exact perform_writeBuffered hs hc
    obtain ⟨t, r, q', ht, hq'⟩ := hok
    simp only [ht, Except.toOption, Option.map_some, Option.some.injEq] at h
    exact ⟨q', h ▸ hq'⟩
  · cases h

/-- **The object is a conduit of capacity `buffer_size` on every run.** -/
theorem simulates {bufferSize : Nat} {es : List Call} {s : Ledger}
    (hr : Runs.run step (Ledger.new bufferSize) es = some s) : ∃ q, Simulates bufferSize q s :=
  Runs.run_invariant (I := fun s => ∃ q, Simulates bufferSize q s) (fun _ _ _ => simulates_step)
    ⟨_, simulates_new bufferSize⟩ hr

/-- **`buffered_writer` is a bounded first-in first-out queue.**  After any run,
what was emitted followed by `buffer_` is what the `write` calls said they took,
`buffer_` is within its bound, and whatever call comes next does not throw, a
`write` returning less than `len` only when it leaves the buffer full. -/
theorem bounded_fifo {bufferSize : Nat} {es : List Call} {s : Ledger}
    (hr : Runs.run step (Ledger.new bufferSize) es = some s) :
    s.emitted ++ s.writer.buffer.data = s.accepted ∧
      s.writer.buffer.data.length ≤ bufferSize ∧
      (∀ buf enabled n, n ≤ buf.length → ∃ s' r, perform s (.write buf enabled n) = .ok (s', r) ∧
        r ≤ buf.length ∧ (r < buf.length → s'.writer.buffer.data.length = bufferSize)) ∧
      ∀ n, n ≤ s.writer.buffer.data.length →
        ∃ s' r, perform s (.writeBuffered n) = .ok (s', r) := by
  obtain ⟨q, hs⟩ := simulates hr
  refine ⟨hs.traces.fifo, hs.capacity ▸ s.writer.buffer.fits, fun buf enabled n hn => ?_,
    fun n hn => ?_⟩
  · obtain ⟨s', r, -, h, -, hle, hfull⟩ := perform_write hs hn enabled
    exact ⟨s', r, h, hle, hfull⟩
  · obtain ⟨s', r, -, h, -⟩ := perform_writeBuffered hs hn
    exact ⟨s', r, h⟩

/-- Two bytes of three are taken straight away; the third is buffered, and waits
there with the next two until `write_buffered`, of which the writer takes two. -/
def shortWrites : List Call :=
  [.write [1, 2, 3] true 2, .write [4, 5] true 0, .writeBuffered 2]

theorem bounded_fifo_shortWrites :
    ∃ s, Runs.run step (Ledger.new 4) shortWrites = some s ∧ s.emitted = [1, 2, 3, 4] ∧
      s.writer.buffer.data = [5] ∧ s.emitted ++ s.writer.buffer.data = s.accepted ∧
      s.accepted = [1, 2, 3, 4, 5] :=
  ⟨_, rfl, rfl, rfl, (@bounded_fifo 4 shortWrites _ rfl).1, rfl⟩

end BufferedWriter
end AcppNetwork
