import AcppNetwork.Accounts
import AcppNetwork.SslWrite

/-!
# The plaintext that the engine gets and gives

What the application writes is handed to `SSL_write`, each buffer in pieces.  A buffer that is
written before the handshake is finished, or after the end, is dropped, and so is what is left of
one when an `SSL_write` takes nothing.  In every run without these, in which no buffer is written
in the middle of another one, the engine accepts what is written, in order
(`plaintext_accepted`).  What `SSL_read` returns is handed to the layer above in every run
(`opened_delivered`).
-/
namespace AcppNetwork
namespace Ssl

open Reentrant

/-- The argument of a call of `write`. -/
def Op.plaintext : Op → List Byte
  | .write buf => buf
  | _ => []

/-- What the application wrote, in order. -/
def written (l : List (Label Op CallOut Result Note)) : List Byte := (calls l).flatMap Op.plaintext

/-- The data of a call of `on_received` of the layer above. -/
def CallOut.plaintext : CallOut → List Byte
  | .onReceived data => data
  | _ => []

/-- What the layer above received, in order. -/
def delivered (l : List (Label Op CallOut Result Note)) : List Byte :=
  (callOuts l).flatMap CallOut.plaintext

/-- What `SSL_read` returns with a stretch of code. -/
def stretchOpens (_ : Stream) : Frame → Answer → List Byte
  | .doConnectRead, .engine a | .doShutdownRead, .engine a | .feedRead _ _, .engine a => a.data
  | _, _ => []

/-- What `SSL_read` returned in a run, in order. -/
def opened (s : Stream) (es : List (Event Op Answer)) : List Byte :=
  Runs.trace (step object) (takenBy stretchOpens) (Config.start s) es

/-- What a call of `write` has still to write. -/
def Frame.unwritten : Frame → List Byte
  | .writeLoop w | .writeDrain w => w.buf.drop w.totalLen.toNat
  | _ => []

/-- What the engine accepts with a stretch of code. -/
def stretchAccepts (_ : Stream) : Frame → Answer → List Byte
  | .writeLoop w, .engine a => (w.buf.drop w.totalLen.toNat).take a.result.toNat
  | _, _ => []

/-- What the engine accepted in a run, in order. -/
def accepted (s : Stream) (es : List (Event Op Answer)) : List Byte :=
  Runs.trace (step object) (takenBy stretchAccepts) (Config.start s) es

/-- The condition on the stretches: every `SSL_write` takes something, and an exception drops
nothing that is to be written. -/
def WrittenWhole (_ : Stream) (f : Frame) (fs : List Frame) (ans : Answer) : Prop :=
  match f, ans with
  | .writeLoop _, .engine a => 0 < a.result
  | .doConnect _, .go | .doShutdown _, .go => owed Frame.unwritten fs = []
  | _, _ => True

/-- The condition on the calls: a buffer is written to a connected stream, and not in the middle
of another one. -/
def Writable (s : Stream) (fs : List Frame) : Op → Prop
  | .write buf => buf ≠ [] → s.status = .connected ∧ owed Frame.unwritten fs = []
  | _ => True

instance (s : Stream) (f : Frame) (fs : List Frame) (ans : Answer) :
    Decidable (WrittenWhole s f fs ans) := by
  rcases f with ⟨⟩ <;> rcases ans with ⟨⟩ <;> unfold WrittenWhole <;> infer_instance

instance (s : Stream) (fs : List Frame) (o : Op) : Decidable (Writable s fs o) := by
  rcases o with ⟨⟩ <;> unfold Writable <;> infer_instance

section
variable {s : Stream} {f : Frame} {fs : List Frame} {ans : Answer} {out : Next} {w : WriteCall}
  {a : Reply}

/-- `totalLen += e` does not overflow. -/
theorem WriteCall.Going.totalLen_took (hw : w.Going) (ha : s.Answers (.write w.num) a)
    (hpos : 0 < a.result) : toInt32 (w.totalLen + a.result) = w.totalLen + a.result := by
  obtain ⟨-, -, -, hfits, -⟩ := ha
  have hnum := (hfits hpos).1
  have hnonneg := hw.nonneg
  have hlt := toInt32_lt w.buf.length
  rw [hw.num_eq] at hnum
  exact toInt32_of_lt (by omega) (by omega)

/-- When the loop ends nothing is left. -/
theorem WriteCall.Going.nothing_left (hw : w.Going) (hgo : w.goesOn = false) :
    w.buf.drop w.totalLen.toNat = [] := by
  rw [WriteCall.goesOn, toSizeT_of_lt hw.nonneg hw.lt, decide_eq_false_iff_not] at hgo
  exact List.drop_of_length_le (Nat.le_of_not_lt hgo)

/-- **A stretch of code keeps its place in the plaintext.** -/
theorem resume_writes (hf : f.WriteOk) (hp : WrittenWhole s f fs ans)
    (h : resume s f ans = some out) :
    stretchAccepts s f ans ++ owed Frame.unwritten out.frames = f.unwritten := by
  cases f with
  | writeLoop w =>
    cases stretch_of_resume h with
    | write hf => exact hf.elim
    | read hf => exact hf.elim
    | readEnd hf => rcases hf with hf | hf <;> cases hf
    | @writeTook _ a hgo ha hpos =>
      have hsum := hf.totalLen_took ha hpos
      have hnat : (w.totalLen + a.result).toNat = w.totalLen.toNat + a.result.toNat :=
        Int.toNat_add hf.nonneg (by omega)
      show (w.buf.drop w.totalLen.toNat).take a.result.toNat ++
        (w.buf.drop (toInt32 (w.totalLen + a.result)).toNat ++ []) = w.buf.drop w.totalLen.toNat
      rw [hsum, hnat, List.append_nil, ← List.drop_drop, List.take_append_drop]
    | writeBroke hgo ha hend => exact absurd hp hend
    | writeDone hgo =>
      rw [show Frame.unwritten (.writeLoop w) = [] from hf.nothing_left hgo]
      rfl
  | writeDrain w =>
    cases stretch_of_resume h with
    | read hf => exact hf.elim
    | readEnd hf => rcases hf with hf | hf <;> cases hf
    | write | writeDrained =>
      simp [stretchAccepts, Outcome.frames, Frame.unwritten]
  | _ =>
    cases stretch_of_resume h with
    | _ => simp [stretchAccepts, Outcome.frames, Frame.unwritten, WriteCall.finish]

/-- The buffers that are written are taken by the engine in order. -/
theorem writing_account : Account object WrittenWhole Writable Frame.WriteOk stretchAccepts
    (fun _ => []) Frame.unwritten Op.plaintext where
  enter s fs o hp := by
    refine ⟨enter_writeOk s o, ?_⟩
    show [] ++ owed Frame.unwritten ((enter s o).2 :: fs) =
      [] ++ owed Frame.unwritten fs ++ o.plaintext
    cases o with
    | write buf =>
      by_cases hbuf : buf = []
      · subst hbuf
        simp only [enter]
        split <;> simp [Frame.unwritten, Op.plaintext]
      · obtain ⟨hst, hnone⟩ := hp hbuf
        simp [enter, hst, hnone, Frame.unwritten, Op.plaintext]
    | onReceived buf =>
      cases hst : s.status <;> simp [enter, hst, Frame.unwritten, Op.plaintext]
    | onConnected | disconnect | onDisconnected =>
      simp only [enter]
      try split
      all_goals simp [Frame.unwritten, Op.plaintext]
  resume s f fs a out hf hp h := by
    refine ⟨?_, (stretch_writeOk hf (stretch_of_resume h)).frames_notes.1⟩
    rw [List.append_nil, resume_writes hf hp h]
    rfl
  throws s f fs a out hp h hthrows := by
    cases stretch_of_resume h with
    | connectThrow | shutdownThrow => exact hp
    | _ => cases hthrows

/-- **When the engine gets what is written.**  At every configuration of a run that meets the
conditions, what the engine accepted, and what calls of `write` have still to write, is what the
application wrote. -/
theorem plaintext_accepted {es : List (Event Op Answer)} {c : Configuration}
    (hr : Runs.run (step object) (Config.start s) es = some c)
    (hp : Runs.Along (step object) (fun c e => Before WrittenWhole c e ∧ OnCall Writable c e)
      (Config.start s) es) :
    accepted s es ++ owed Frame.unwritten (frames c.stack) = written c.log := by
  have hitems := writing_account.run rfl hr hp
  rwa [List.append_nil] at hitems

/-- An `SSL_read` that returns nothing has no data. -/
theorem data_of_read (ha : s.Answers .read a) (hend : ¬ 0 < a.result) : a.data = [] := by
  obtain ⟨-, -, -, -, hlen, -⟩ := ha
  rw [max_eq_right (by omega)] at hlen
  exact List.length_eq_zero_iff.mp (by omega)

/-- **What `SSL_read` returns is handed up.** -/
theorem resume_opens (h : resume s f ans = some out) :
    out.callOuts.flatMap CallOut.plaintext = stretchOpens s f ans := by
  cases stretch_of_resume h with
  | read hf =>
    cases f with
    | doConnectRead | doShutdownRead | feedRead => exact List.append_nil _
    | _ => exact hf.elim
  | readEnd hf ha hend =>
    rcases hf with rfl | rfl <;> exact (data_of_read ha hend).symm
  | feedReadEnd ha hend => exact (data_of_read ha hend).symm
  | write hf =>
    cases f with
    | doConnectWrite | doShutdownWrite | feedWrite | feedFinal | writeDrain | writeFinal => rfl
    | _ => exact hf.elim
  | _ => rfl

/-- What `SSL_read` returned in a run is what the layer above received. -/
theorem opened_delivered {es : List (Event Op Answer)} {c : Configuration}
    (hr : Runs.run (step object) (Config.start s) es = some c) :
    opened s es = delivered c.log := by
  refine Runs.trace_invariant (P := fun _ _ => True) (I := fun c taken => taken = delivered c.log)
    (fun c e c' taken hI _ hstep => ?_) rfl (Runs.along_of_forall fun _ _ => trivial) hr
  rcases (Step.of_step hstep).stretch with ⟨o, rfl, -, rfl⟩ |
    ⟨f, rest, a, out, kept, hstack, ha, hres, -, -, -, -, hcallOuts, -⟩ | ⟨rfl, -, -, hlog⟩
  · rw [hI]
    simp [takenBy, Event.answer?, delivered]
  · have htaken : takenBy stretchOpens c e = stretchOpens c.state f a := by
      unfold takenBy
      rw [ha, hstack]
    rw [htaken, hI, ← resume_opens hres, delivered, delivered, hcallOuts, List.flatMap_append]
  · rw [hI, hlog]
    exact List.append_nil _

end

end Ssl
end AcppNetwork
