import AcppNetwork.SslSteps

/-!
# `ssl::stream::write`

`write` hands its argument to `SSL_write` piece by piece, draining the pair in
between, and returns `len`.  Its loop ends at the first `SSL_write` that returns
0 or less, want-write included, so `len` is what the engine accepted exactly when
no `SSL_write` of the call fails (`write_exact_iff`).

What a call does is local to its activation — `totalLen` and what was accepted
so far — and survives every re-entrance (`Reentrant.locally`).
-/
namespace AcppNetwork
namespace Ssl

open Reentrant

/-- An error after which the call is to be repeated. -/
def SslError.Retryable : SslError → Prop
  | .wantRead | .wantWrite => True
  | _ => False

instance (e : SslError) : Decidable e.Retryable := by
  cases e <;> unfold SslError.Retryable <;> infer_instance

/-- The record of an `SSL_write` fits in the outgoing side of the pair, and the
engine reports no error other than that it does not. -/
def Attempt.Fits (t : Attempt) : Prop :=
  t.record ≤ t.free ∧ (t.error = .none ∨ t.error = .wantWrite)

instance (t : Attempt) : Decidable t.Fits := inferInstanceAs (Decidable (_ ∧ _))

namespace WriteCall

/-- In status connected the call went on until the engine had accepted all bytes,
in order, or had reported an error that cannot be retried; in every status it
returned the number of bytes accepted. -/
def Exact (w : WriteCall) (returned : Nat) : Prop :=
  (w.status = .connected →
    w.accepted = w.buf ∨ ∃ t ∈ w.attempts, t.error ≠ .none ∧ ¬ t.error.Retryable) ∧
  returned = w.accepted.length

/-- A call in its loop. -/
structure Going (w : WriteCall) : Prop where
  status : w.status = .connected
  nonneg : 0 ≤ w.totalLen
  within : w.totalLen = 0 ∨ w.totalLen ≤ toInt32 w.buf.length
  accepted : w.accepted = w.buf.take w.totalLen.toNat
  attempts : ∀ t ∈ w.attempts, t.Fits

/-- A call about to return: it got everything accepted, or an `SSL_write` failed
before that, or it was refused. -/
inductive Over (w : WriteCall) : Prop where
  | complete (accepted : w.accepted = w.buf) (status : w.status = .connected)
      (attempts : ∀ t ∈ w.attempts, t.Fits)
  | broken (short : w.accepted.length < w.buf.length) (attempt : ∃ t ∈ w.attempts, ¬ t.Fits)
  | refused (accepted : w.accepted = []) (status : w.status ≠ .connected)

end WriteCall

/-! ## One call -/

section
variable {s : Stream} {a : Reply} {w : WriteCall}

namespace WriteCall.Going

theorem lt (hw : w.Going) : w.totalLen < 2147483648 := by
  have hlt := toInt32_lt w.buf.length
  rcases hw.within with h | h <;> omega

/-- The number of bytes accepted so far. -/
theorem le_length (hw : w.Going) : w.totalLen.toNat ≤ w.buf.length := by
  have hnonneg := hw.nonneg
  rcases hw.within with h | h
  · omega
  · by_cases hzero : w.totalLen = 0
    · omega
    · have hle := toInt32_le (n := w.buf.length) (by omega)
      omega

theorem accepted_length (hw : w.Going) : w.accepted.length = w.totalLen.toNat := by
  have hle := hw.le_length
  rw [hw.accepted, List.length_take]
  omega

theorem num_eq (hw : w.Going) : w.num = toInt32 w.buf.length - w.totalLen :=
  toInt32_sub hw.nonneg hw.within

/-- A call starts with nothing accepted. -/
theorem start (buf : List Byte) : Going { status := .connected, buf := buf } where
  status := rfl
  nonneg := Int.le_refl 0
  within := .inl rfl
  accepted := List.take_zero.symm
  attempts := by simp

/-- An `SSL_write` that accepts some bytes: they are the next ones of the buffer. -/
theorem took (hw : w.Going) (ha : s.Answers (.write w.num) a) (hpos : 0 < a.result) :
    ((w.tried s a).took a.result).Going := by
  obtain ⟨-, -, -, hfits, herror, -⟩ := ha
  obtain ⟨hnum, hrecord⟩ := hfits hpos
  have hnonneg := hw.nonneg
  have hlt := toInt32_lt w.buf.length
  rw [hw.num_eq] at hnum
  have htotal : toInt32 (w.totalLen + a.result) = w.totalLen + a.result :=
    toInt32_of_lt (by omega) (by omega)
  refine ⟨hw.status, ?_, ?_, ?_, ?_⟩
  · show 0 ≤ toInt32 (w.totalLen + a.result)
    omega
  · show toInt32 (w.totalLen + a.result) = 0 ∨ toInt32 (w.totalLen + a.result) ≤ _
    right
    show _ ≤ toInt32 w.buf.length
    omega
  · show w.accepted ++ (w.buf.drop w.totalLen.toNat).take a.result.toNat
      = w.buf.take (toInt32 (w.totalLen + a.result)).toNat
    rw [htotal, hw.accepted, Int.toNat_add hnonneg (by omega), List.take_add]
  · intro t ht
    rcases List.mem_append.mp ht with ht | ht
    · exact hw.attempts t ht
    · rw [List.mem_singleton] at ht
      subst ht
      exact ⟨hrecord, .inl (herror.mpr hpos)⟩

/-- An `SSL_write` that does not: the record did not fit, or the engine failed. -/
theorem broke (hw : w.Going) (hgo : w.goesOn = true) (ha : s.Answers (.write w.num) a)
    (hend : ¬ 0 < a.result) : (w.tried s a).Over := by
  obtain ⟨-, -, -, -, herror, hwant⟩ := ha
  refine .broken ?_ ⟨⟨w.num, a.record, s.outFree, a.result, a.error⟩, ?_, ?_⟩
  · show w.accepted.length < w.buf.length
    rw [WriteCall.goesOn, toSizeT_of_lt hw.nonneg hw.lt, decide_eq_true_eq] at hgo
    rw [hw.accepted_length]
    exact hgo
  · exact List.mem_append_right _ (List.mem_singleton.mpr rfl)
  · rintro ⟨hrecord, hnone | hwrite⟩
    · exact hend (herror.mp hnone)
    · have hfull := hwant hwrite
      change a.record ≤ s.outFree at hrecord
      omega

/-- The loop ends when everything is accepted. -/
theorem finished (hw : w.Going) (hgo : w.goesOn = false) : w.Over := by
  rw [WriteCall.goesOn, toSizeT_of_lt hw.nonneg hw.lt, decide_eq_false_iff_not] at hgo
  have hle := hw.le_length
  refine .complete ?_ hw.status hw.attempts
  rw [hw.accepted, List.take_of_length_le (by omega)]

end WriteCall.Going

/-- The claim about one call, decided by how it came to its end. -/
theorem WriteCall.Over.exact_iff (hw : w.Over) : w.Exact w.buf.length ↔
    w.buf = [] ∨ w.status = .connected ∧ ∀ t ∈ w.attempts, t.Fits := by
  cases hw with
  | complete accepted status attempts =>
    refine ⟨fun _ => .inr ⟨status, attempts⟩, fun _ => ⟨fun _ => .inl accepted, ?_⟩⟩
    rw [accepted]
  | broken short attempt =>
    obtain ⟨t, ht, hnot⟩ := attempt
    constructor
    · rintro ⟨-, hlen⟩
      omega
    · rintro (hnil | ⟨-, hall⟩)
      · rw [hnil] at short
        exact absurd short (Nat.not_lt_zero _)
      · exact absurd (hall t ht) hnot
  | refused accepted status =>
    constructor
    · rintro ⟨-, hlen⟩
      rw [accepted] at hlen
      exact .inl (List.eq_nil_of_length_eq_zero hlen)
    · rintro (hnil | ⟨hconn, -⟩)
      · exact ⟨fun h => absurd h status, by rw [hnil, accepted]⟩
      · exact absurd hconn status

/-! ## All calls of a run -/

/-- What holds of the call an activation is in. -/
def Frame.WriteOk : Frame → Prop
  | .writeLoop w | .writeDrain w => w.Going
  | .writeFinal w | .writeRejected w => w.Over
  | _ => True

/-- What holds of a call that returned. -/
def Note.WriteOk : Note → Prop
  | .wrote w returned => w.Over ∧ returned = w.buf.length
  | _ => True

theorem enter_writeOk (s : Stream) (o : Op) : (enter s o).2.WriteOk := by
  cases o with
  | write buf =>
    simp only [enter]
    split
    · rw [‹s.status = .connected›]
      exact WriteCall.Going.start buf
    · exact .refused rfl ‹_›
  | onReceived buf =>
    simp only [enter]
    split <;> trivial
  | onConnected | disconnect =>
    simp only [enter]
    split <;> trivial
  | onDisconnected => trivial

theorem feedNote_writeOk (s : Stream) (buf : List Byte) : ∀ n ∈ s.feedNote buf, n.WriteOk := by
  unfold Stream.feedNote
  split <;> simp [Note.WriteOk]

/-- Every stretch of code keeps to the calls it is in. -/
theorem stretch_writeOk {f : Frame} {ans : Answer} {out : Next} (hf : f.WriteOk)
    (h : Stretch s f ans out) : out.Leaves Frame.WriteOk Note.WriteOk := by
  cases h with
  | handshake | shutdown =>
    refine ⟨trivial, ?_⟩
    simp only [List.mem_append, List.mem_singleton, or_imp, forall_and]
    exact ⟨feedNote_writeOk _ _, fun n hn => by rw [hn]; trivial⟩
  | connectThrow | shutdownThrow => exact feedNote_writeOk _ _
  | write hdrains => exact ⟨hf, by simp⟩
  | connectDrained | shutdownDrained | feedDrained | skipConnected | skipDisconnected
  | notifyConnected | notifyDisconnected | feed | feedDone | noShutdown =>
    exact ⟨trivial, by simp⟩
  | writeDrained => exact ⟨hf, by simp⟩
  | feedEnd | done => simp [Outcome.Leaves]
  | writeEnd | rejected =>
    intro n hn
    rw [List.mem_singleton] at hn
    subst hn
    exact ⟨hf, rfl⟩
  | read hreads => exact ⟨hf, by simp [Note.WriteOk]⟩
  | readEnd => simp [Outcome.Leaves, Note.WriteOk]
  | feedReadEnd | answerShutdown => exact ⟨trivial, by simp [Note.WriteOk]⟩
  | writeTook hgo ha hpos => exact ⟨WriteCall.Going.took hf ha hpos, by simp [Note.WriteOk]⟩
  | writeBroke hgo ha hend =>
    exact ⟨WriteCall.Going.broke hf hgo ha hend, by simp [Note.WriteOk]⟩
  | writeDone hgo => exact ⟨WriteCall.Going.finished hf hgo, by simp⟩

/-- **When `write` returns what the engine accepted.**  Of every call of `write` in
every run: it gets everything accepted, unless the engine fails for good, and
returns the number of bytes accepted, exactly if it had nothing to write, or
found the stream connected and every record it wrote fitted in the outgoing side
of the pair. -/
theorem write_exact_iff {es : List (Event Op Answer)} {c : Configuration}
    (hr : Runs.run (step object) (Config.start s) es = some c) {returned : Nat}
    (h : .wrote w returned ∈ notes c.log) :
    w.Exact returned ↔ w.buf = [] ∨ w.status = .connected ∧ ∀ t ∈ w.attempts, t.Fits := by
  obtain ⟨hover, rfl⟩ := (Reentrant.locally (fun s o => enter_writeOk s o)
    (fun _ _ _ _ hf h => stretch_writeOk hf (stretch_of_resume h)) hr).2 _ h
  exact hover.exact_iff

end

/-- Five bytes, accepted by one `SSL_write`. -/
def writeHello : List (Event Op Answer) :=
  [.call (.write [104, 101, 108, 108, 111]),
    .code (.engine { result := 5, record := 27, produced := [4] }),
    .code .go, .back, .code .go, .code .go, .code .go]

theorem write_exact_iff_hello :
    ∃ w : WriteCall, w.Exact 5 ∧ w.accepted = [104, 101, 108, 108, 111] := by
  obtain ⟨c, hr, hmem⟩ :
      ∃ c, Runs.run (step object) (Config.start connectedClient) writeHello = some c ∧
        .wrote ⟨.connected, [104, 101, 108, 108, 111], 5, [104, 101, 108, 108, 111],
          [⟨5, 27, 5120, 5, .none⟩]⟩ 5 ∈ notes c.log :=
    Runs.exists_run (by decide)
  exact ⟨_, (write_exact_iff hr hmem).mpr (by decide), rfl⟩

/-- A write whose record does not fit in the pair: part of it is put there, and
`SSL_write` is to be repeated. -/
def cutOffWrite (buf ciphertext : List Byte) (record : Nat) : List (Event Op Answer) :=
  [.call (.write buf),
    .code (.engine
      { result := -1, error := .wantWrite, record := record, produced := ciphertext }),
    .code .go, .back, .code .go]

/-- The `write` call of that run when it returns. -/
def cutOffCall (buf : List Byte) (record : Nat) : WriteCall :=
  ⟨.connected, buf, 0, [], [⟨toInt32 buf.length, record, 5120, -1, .wantWrite⟩]⟩

/-- It is not repeated. -/
theorem cutOffWrite_run (buf ciphertext : List Byte) (record : Nat) (hbuf : 0 < buf.length)
    (hne : ciphertext ≠ []) (hlen : ciphertext.length ≤ 5120) (hrec : 5120 < record)
    (l : List (Label Op CallOut Result Note)) :
    ∃ c, Runs.run (step object) ⟨connectedClient, [], l⟩ (cutOffWrite buf ciphertext record)
        = some c ∧ .wrote (cutOffCall buf record) buf.length ∈ notes c.log := by
  have hzero : toSizeT 0 = 0 := rfl
  have hdrop : ciphertext.drop bufferSize = [] :=
    List.drop_eq_nil_of_le (show ciphertext.length ≤ 20480 by omega)
  simp [cutOffWrite, Runs.run, step, object, enter, resume, connectedClient, outsideRuns,
    WriteCall.goesOn, hzero, hbuf, hne, hlen, hrec, hdrop, Stream.writeLoop, Stream.Answers,
    Stream.outFree, Stream.engine, Stream.ofContext, Stream.new, Stream.drain, WriteCall.tried,
    WriteCall.finish, WriteCall.num, cutOffCall, notes]
  exact ⟨_, .inr (.inr (.inr (.inr (.inl rfl)))), rfl⟩

/-- Of 6000 bytes nothing is accepted, and `write` returns 6000. -/
theorem write_cut_off :
    ∃ c, Runs.run (step object) (Config.start (Stream.ofContext .client ""))
        (handshakeRun ++ cutOffWrite (List.replicate 6000 0) (List.replicate 5120 0) 6022)
        = some c ∧
      ∃ w returned, .wrote w returned ∈ notes c.log ∧ w.status = .connected ∧ returned = 6000 ∧
        w.accepted = [] ∧ ¬ w.Exact returned := by
  apply run_handshaken
  intro l
  have hlen : (List.replicate 6000 (0 : Byte)).length = 6000 := List.length_replicate
  have hne : List.replicate 5120 (0 : Byte) ≠ [] := by
    rw [Ne, List.replicate_eq_nil_iff]
    omega
  obtain ⟨c, hr, hmem⟩ := cutOffWrite_run (List.replicate 6000 0) (List.replicate 5120 0) 6022
    (by rw [hlen]; omega) hne (by rw [List.length_replicate]) (by omega) l
  rw [hlen] at hmem
  refine ⟨c, hr, _, _, hmem, rfl, rfl, rfl, ?_⟩
  rintro ⟨-, h⟩
  cases h

end Ssl
end AcppNetwork
