import AcppNetwork.SslSteps

/-!
# What `do_connect` and `do_shutdown` feed the engine

A chunk that arrives while the status is closed, connecting or closing is given to
`BIO_write` once, and what does not fit into the ingoing side of the pair is
dropped; the loop of `on_received` for a connected stream goes on with it.  So
the engine gets every byte of every chunk exactly when each chunk fits into the
room there is when it arrives (`chunks_accepted_iff`).
-/
namespace AcppNetwork
namespace Ssl

open Reentrant

/-- The chunk, if it was given to `BIO_write` while the engine was healthy. -/
def Note.offered : Note → List Byte
  | .fed true chunk _ => chunk
  | _ => []

/-- The part of it that `BIO_write` stored. -/
def Note.accepted : Note → List Byte
  | .fed true _ taken => taken
  | _ => []

/-- The bytes accepted are the bytes of the chunks, each once and in order. -/
def ChunksAccepted (c : Configuration) : Prop :=
  (notes c.log).flatMap Note.accepted = (notes c.log).flatMap Note.offered

/-- The condition: a chunk that arrives while the engine is healthy fits. -/
def ChunkFits (s : Stream) (f : Frame) (_ : List Frame) (_ : Answer) : Prop :=
  match f with
  | .doConnect buf | .doShutdown buf => s.healthy = true → buf.length ≤ s.inFree
  | _ => True

instance (s : Stream) (f : Frame) (fs : List Frame) (ans : Answer) :
    Decidable (ChunkFits s f fs ans) := by
  rcases f with ⟨⟩ <;> unfold ChunkFits <;> infer_instance

section
variable {s : Stream} {f : Frame} {ans : Answer} {out : Next}

/-- `BIO_write` stores a chunk whole exactly if it fits. -/
theorem length_le_bioWrite (hcap : s.capacity < 2147483648) (buf : List Byte) :
    buf.length ≤ (s.bioWrite buf (toInt32 buf.length)).2.toNat ↔ buf.length ≤ s.inFree := by
  have hfree : s.inFree ≤ s.capacity := Nat.sub_le ..
  rw [Stream.bioWrite_stored]
  constructor
  · exact fun h => Nat.le_trans h (Nat.min_le_right _ _)
  · intro h
    have hint : toInt32 buf.length = buf.length := toInt32_of_lt (by omega) (by omega)
    rw [hint, Int.toNat_natCast]
    exact Nat.le_min.mpr ⟨Nat.le_refl _, h⟩

/-- A chunk of which the first `n` bytes were stored was accepted whole exactly if
it is no longer than that. -/
theorem fed_accepted_iff (healthy : Bool) (buf : List Byte) (n : Nat) :
    [Note.fed healthy buf (buf.take n)].flatMap Note.accepted
        = [Note.fed healthy buf (buf.take n)].flatMap Note.offered ↔
      (healthy = true → buf.length ≤ n) := by
  cases healthy with
  | false => simp [Note.accepted, Note.offered]
  | true => simp [Note.accepted, Note.offered]

/-- What is accepted of one chunk is the chunk exactly if it fits. -/
theorem feedNote_accepted_iff (hcap : s.capacity < 2147483648) (buf : List Byte) :
    (s.feedNote buf).flatMap Note.accepted = (s.feedNote buf).flatMap Note.offered ↔
      (s.healthy = true → buf.length ≤ s.inFree) := by
  by_cases hbuf : buf = []
  · subst hbuf
    exact iff_of_true rfl fun _ => Nat.zero_le _
  · have hnote : s.feedNote buf =
        [.fed s.healthy buf (buf.take (s.bioWrite buf (toInt32 buf.length)).2.toNat)] :=
      if_pos hbuf
    rw [hnote, fed_accepted_iff]
    exact imp_congr_right fun _ => length_le_bioWrite hcap buf

/-- A stretch of code feeds the chunk it starts with, if it starts with one. -/
theorem Stretch.fed {fs : List Frame} (hcap : s.capacity < 2147483648) (h : Stretch s f ans out) :
    out.notes.flatMap Note.accepted = out.notes.flatMap Note.offered ↔ ChunkFits s f fs ans := by
  cases h with
  | handshake | shutdown =>
    simpa [Outcome.notes, Note.accepted, Note.offered, ChunkFits] using feedNote_accepted_iff hcap _
  | connectThrow | shutdownThrow => exact feedNote_accepted_iff hcap _
  | write hf | read hf =>
    cases f <;> first
      | exact hf.elim
      | simp [Outcome.notes, ChunkFits, Note.accepted, Note.offered]
  | readEnd hf =>
    rcases hf with rfl | rfl <;> simp [Outcome.notes, ChunkFits, Note.accepted, Note.offered]
  | _ =>
    simp [Outcome.notes, ChunkFits, Note.accepted, Note.offered, WriteCall.finish]

theorem Stretch.capacity (h : Stretch s f ans out) : out.state.capacity = s.capacity := by
  cases h with
  | handshake | shutdown | connectThrow | shutdownThrow => simp [Outcome.state]
  | _ => rfl

/-- **When every byte of every chunk is fed to the engine.**  Throughout a run, the
bytes `BIO_write` accepted of the chunks given to `do_connect` and `do_shutdown`
while the engine was healthy are the bytes of these chunks, exactly if each of
them fits into the room there is in the ingoing side of the pair when it
arrives. -/
theorem chunks_accepted_iff {side : Side} {hostname : String}
    (hs : s = Stream.ofSide side hostname ∨ s = Stream.ofContext side hostname)
    {es : List (Event Op Answer)} {c : Configuration}
    (hr : Runs.run (step object) (Config.start s) es = some c) :
    Runs.Throughout (step object) ChunksAccepted (Config.start s) es ↔
      Runs.Along (step object) (Before ChunkFits) (Config.start s) es := by
  refine Runs.throughout_iff_along (J := fun c => c.state.capacity < 2147483648)
    (fun c e c' hcap hstep => ?_) (fun c e c' hcap hall hstep => ?_) ?_ rfl hr
  · refine (Step.of_step hstep).preserves_always (J := fun s => s.capacity < 2147483648) hcap
      (fun o => ?_) fun hres => ?_
    · show (enter c.state o).1.capacity < _
      rw [enter_capacity]
      exact hcap
    · rw [(stretch_of_resume hres).capacity]
      exact hcap
  · rcases (Step.of_step hstep).stretch with ⟨o, rfl, -, rfl⟩ |
      ⟨f, rest, a, out, kept, hstack, ha, hres, -, -, -, -, -, hnotes, -⟩ | ⟨rfl, -, -, hlog⟩
    · exact iff_of_true (by simpa [ChunksAccepted] using hall) trivial
    · rw [ChunksAccepted] at hall
      rw [ChunksAccepted, hnotes, List.flatMap_append, List.flatMap_append, hall,
        List.append_cancel_left_eq]
      simp only [Before, ha, hstack]
      exact (stretch_of_resume hres).fed hcap
    · exact iff_of_true (by rw [ChunksAccepted, hlog]; exact hall) trivial
  · rcases hs with rfl | rfl
    · show (1024 * 50 : Nat) < 2147483648
      omega
    · show (1024 * 5 : Nat) < 2147483648
      omega

end

theorem chunks_accepted_handshake :
    Runs.Throughout (step object) ChunksAccepted (Config.start (Stream.ofContext .client ""))
      handshakeRun := by
  obtain ⟨c, hr, -⟩ := handshakeRun_connected
  exact (chunks_accepted_iff (.inr rfl) hr).mpr (by decide)

/-- The first chunk a server receives; `SSL_accept` takes all there is in the pair and
wants more. -/
def firstChunk (chunk : List Byte) : List (Event Op Answer) :=
  [.call (.onReceived chunk),
    .code (.engine { result := -1, error := .wantRead, consumed := 5120 })]

/-- Of a chunk longer than the pair, `BIO_write` stores as much as the pair holds. -/
theorem firstChunk_run (chunk : List Byte) (hlong : 5120 < chunk.length)
    (hlen : chunk.length < 2147483648) :
    ∃ c, Runs.run (step object) (Config.start (Stream.ofContext .server "")) (firstChunk chunk)
        = some c ∧ c.state.healthy = true ∧
      notes c.log = [.fed true chunk (chunk.take 5120), .produced []] := by
  have hne : chunk ≠ [] := by
    rintro rfl
    exact absurd hlong (Nat.not_lt_zero _)
  have hint : toInt32 chunk.length = chunk.length := toInt32_of_lt (by omega) (by omega)
  have hmin : min chunk.length 5120 = 5120 := by omega
  have hwrite : (Stream.ofContext .server "").bioWrite chunk chunk.length =
      ({ Stream.ofContext .server "" with inbound := chunk.take 5120 }, 5120) := by
    simp [Stream.bioWrite, Stream.inFree, Stream.ofContext, Stream.new, hmin, hne]
  have hfeed : (Stream.ofContext .server "").feedOnce chunk =
      { Stream.ofContext .server "" with inbound := chunk.take 5120 } := by
    rw [Stream.feedOnce, if_pos hne, hint, hwrite]
  have hnote : (Stream.ofContext .server "").feedNote chunk =
      [.fed true chunk (chunk.take 5120)] := by
    rw [Stream.feedNote, if_pos hne, hint, hwrite]
    rfl
  have hconnect : (Stream.ofContext .server "").doConnect chunk
        { result := -1, error := .wantRead, consumed := 5120 } =
      some (.goto { Stream.ofContext .server "" with status := .connecting } .doConnectWrite
        [.fed true chunk (chunk.take 5120), .produced []]) := by
    unfold Stream.doConnect
    rw [hfeed, hnote]
    simp [Stream.mayConnect, Stream.setServerName, Stream.Answers, Stream.engine, Stream.outFree,
      Stream.statusConnecting, Stream.ofContext, Stream.new]
    omega
  have hstatus : (Stream.ofContext .server "").status = .closed := rfl
  refine ⟨⟨{ Stream.ofContext .server "" with status := .connecting }, [.code .doConnectWrite],
    [.call (.onReceived chunk), .note (.fed true chunk (chunk.take 5120)), .note (.produced [])]⟩,
    ?_, rfl, rfl⟩
  simp [firstChunk, Runs.run, step, object, enter, resume, Config.start, outsideRuns, hstatus,
    hconnect]

/-- A read of 10240 bytes on Windows: half of it is lost. -/
theorem chunk_truncated :
    ∃ c, Runs.run (step object) (Config.start (Stream.ofContext .server ""))
        (firstChunk (List.replicate 10240 0)) = some c ∧
      c.state.healthy = true ∧ ¬ ChunksAccepted c := by
  have hlen : (List.replicate 10240 (0 : Byte)).length = 10240 := List.length_replicate
  obtain ⟨c, hr, hhealthy, hnotes⟩ :=
    firstChunk_run (List.replicate 10240 0) (by rw [hlen]; omega) (by rw [hlen]; omega)
  refine ⟨c, hr, hhealthy, fun hall => ?_⟩
  rw [ChunksAccepted, hnotes] at hall
  have hsame : (List.replicate 10240 (0 : Byte)).take 5120 = List.replicate 10240 0 := by
    simpa only [List.flatMap_cons, List.flatMap_nil, Note.accepted, Note.offered, List.append_nil]
      using hall
  have hshort := congrArg List.length hsame
  rw [List.length_take, hlen] at hshort
  omega

end Ssl
end AcppNetwork
