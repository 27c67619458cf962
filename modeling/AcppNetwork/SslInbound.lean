import AcppNetwork.Accounts
import AcppNetwork.SslFeeding

/-!
# The ciphertext that the engine gets

`do_connect` and `do_shutdown` give their chunk to `BIO_write` once, the loop of `on_received`
its chunk in turns.  We follow the ingoing side of the pair in a run of any operations, nested
as the layers like, and with it what the engine took from there (`consumed`).

Three things lose the place in the ciphertext: a chunk that does not fit where it is given to
`BIO_write` once, a pair that is full when the loop comes to it (`FedWhole`), and a chunk that
arrives while an activation still has to feed an earlier one, or when the peer's close_notify
was answered (`InTurn`).  Otherwise what the engine took, what is in the pair and what
activations still have to feed is the ciphertext that arrived, in order
(`ciphertext_consumed`).
-/
namespace AcppNetwork
namespace Ssl

open Reentrant

/-! ## What is followed -/

/-- The chunk of a call of `on_received`. -/
def Op.chunk : Op → List Byte
  | .onReceived buf => buf
  | _ => []

/-- What the stream received, in order. -/
def arrived (l : List (Label Op CallOut Result Note)) : List Byte := (calls l).flatMap Op.chunk

/-- What an activation has still to feed. -/
def Frame.unfed : Frame → List Byte
  | .doConnect buf | .doShutdown buf => buf
  | .feed buf totN | .feedRead buf totN | .feedWrite buf totN => buf.drop totN.toNat
  | _ => []

/-- What the activations have still to feed. -/
abbrev unfed (fs : List Frame) : List Byte := owed Frame.unfed fs

/-- What the engine takes from the pair with a stretch of code. -/
def stretchConsumes (s : Stream) : Frame → Answer → List Byte
  | .doConnect buf, .engine a | .doShutdown buf, .engine a =>
      (s.feedOnce buf).inbound.take a.consumed
  | _, .engine a => s.inbound.take a.consumed
  | _, .go => []

/-- What the engine took from the pair in a run, in order. -/
def consumed (s : Stream) (es : List (Event Op Answer)) : List Byte :=
  Runs.trace (step object) (takenBy stretchConsumes) (Config.start s) es

/-! ## The conditions -/

/-- The condition on the stretches: a chunk that is fed once fits, an exception drops nothing that
is to be fed, and the loop finds room in the pair. -/
def FedWhole (s : Stream) (f : Frame) (fs : List Frame) (ans : Answer) : Prop :=
  match f with
  | .doConnect buf | .doShutdown buf =>
      buf.length ≤ s.inFree ∧ (ans = .go → unfed fs = [])
  | .feed buf totN => totN < buf.length → s.inFree ≠ 0
  | _ => True

/-- The condition on the calls: a chunk arrives before the peer's close_notify is answered, and
when no other one is to be fed. -/
def InTurn (s : Stream) (fs : List Frame) : Op → Prop
  | .onReceived buf => buf ≠ [] → s.status ≠ .peerClosing ∧ unfed fs = []
  | _ => True

/-- The lengths of the chunks are those of an `int`. -/
def Short (_ : Stream) (_ : List Frame) (o : Op) : Prop := o.chunk.length < 2147483648

instance (s : Stream) (f : Frame) (fs : List Frame) (ans : Answer) :
    Decidable (FedWhole s f fs ans) := by
  rcases f with ⟨⟩ <;> unfold FedWhole <;> infer_instance

instance (s : Stream) (fs : List Frame) (o : Op) : Decidable (InTurn s fs o) := by
  rcases o with ⟨⟩ <;> unfold InTurn <;> infer_instance

/-- The count of a loop stands in its chunk. -/
def Frame.Counts : Frame → Prop
  | .doConnect buf | .doShutdown buf => buf.length < 2147483648
  | .feed buf totN | .feedRead buf totN | .feedWrite buf totN =>
      0 ≤ totN ∧ totN ≤ buf.length ∧ buf.length < 2147483648
  | _ => True

section
variable {s : Stream} {f : Frame} {fs : List Frame} {ans : Answer} {out : Next} {buf : List Byte}
  {totN : Int}

/-! ## What gets into the pair -/

/-- A chunk that fits gets into the pair whole. -/
theorem feedOnce_inbound (hfits : buf.length ≤ s.inFree) (hlen : buf.length < 2147483648) :
    (s.feedOnce buf).inbound = s.inbound ++ buf := by
  unfold Stream.feedOnce
  by_cases hbuf : buf = []
  · rw [if_neg (not_not.mpr hbuf), hbuf, List.append_nil]
  · have hpos : 0 < buf.length := List.length_pos_of_ne_nil hbuf
    have hint : toInt32 buf.length = buf.length := toInt32_of_lt (by omega) (by omega)
    have hmin : min buf.length s.inFree = buf.length := by omega
    rw [if_pos hbuf, hint, Stream.bioWrite, if_neg (by omega), if_neg (by omega),
      Int.toNat_natCast, hmin]
    exact congrArg _ (List.take_length ..)

/-- A turn of the loop that finds room: the next bytes of the chunk get into the pair, and the
count goes on by as many. -/
theorem feedRest_room (h0 : 0 ≤ totN) (hlt : totN < buf.length) (hlen : buf.length < 2147483648)
    (hroom : s.inFree ≠ 0) :
    ∃ n : Nat, (s.feedRest buf totN).2 = n ∧ totN.toNat + n ≤ buf.length ∧
      (s.feedRest buf totN).1.inbound = s.inbound ++ (buf.drop totN.toNat).take n := by
  have hnum : toInt32 (buf.length - totN) = buf.length - totN :=
    toInt32_of_lt (by omega) (by omega)
  refine ⟨min (buf.length - totN).toNat s.inFree, ?_, by omega, ?_⟩
  · rw [Stream.feedRest, hnum, Stream.bioWrite, if_neg (by omega), if_neg hroom]
  · rw [Stream.feedRest, hnum, Stream.bioWrite, if_neg (by omega), if_neg hroom]

/-- The server name is set beside the pair. -/
theorem beforeHandshake_inbound (s : Stream) (buf : List Byte) :
    (s.beforeHandshake buf).inbound = (s.feedOnce buf).inbound := by
  obtain ⟨n, hname⟩ := (s.feedOnce buf).setServerName_eq
  rw [Stream.beforeHandshake, hname]

/-- **A stretch of code keeps its place in the ciphertext**: what the engine takes from the pair,
what is then in it and what the activation has still to feed, is what was in the pair and what
it had to feed before. -/
theorem resume_feeds (hf : f.Counts) (hp : FedWhole s f fs ans) (h : resume s f ans = some out) :
    stretchConsumes s f ans ++ out.state.inbound ++ unfed out.frames = s.inbound ++ f.unfed ∧
      ∀ g ∈ out.frames, g.Counts := by
  cases f with
  | doConnect chunk =>
    have hfed := feedOnce_inbound hp.1 hf
    cases stretch_of_resume h with
    | @handshake _ a hst ha =>
      refine ⟨?_, by simp [Outcome.frames, Frame.Counts]⟩
      show (s.feedOnce chunk).inbound.take a.consumed ++
        (s.beforeHandshake chunk).inbound.drop a.consumed ++ [] = s.inbound ++ chunk
      rw [beforeHandshake_inbound, List.take_append_drop, List.append_nil, hfed]
    | connectThrow hst =>
      exact ⟨by simpa [stretchConsumes, Outcome.state, Outcome.frames, Frame.unfed] using hfed,
        by simp [Outcome.frames]⟩
    | write hf => exact hf.elim
    | read hf => exact hf.elim
    | readEnd hf => rcases hf with hf | hf <;> cases hf
  | doShutdown chunk =>
    have hfed := feedOnce_inbound hp.1 hf
    cases stretch_of_resume h with
    | @shutdown _ a hst ha =>
      refine ⟨?_, by simp [Outcome.frames, Frame.Counts]⟩
      show (s.feedOnce chunk).inbound.take a.consumed ++
        (s.feedOnce chunk).inbound.drop a.consumed ++ [] = s.inbound ++ chunk
      rw [List.take_append_drop, List.append_nil, hfed]
    | shutdownThrow hst =>
      exact ⟨by simpa [stretchConsumes, Outcome.state, Outcome.frames, Frame.unfed] using hfed,
        by simp [Outcome.frames]⟩
    | write hf => exact hf.elim
    | read hf => exact hf.elim
    | readEnd hf => rcases hf with hf | hf <;> cases hf
  | feed chunk totN =>
    obtain ⟨h0, hle, hlen⟩ := hf
    cases ans with
    | engine a => cases h
    | go =>
      have hsize : toSizeT totN = totN.toNat := toSizeT_of_lt h0 (by omega)
      cases h
      unfold Stream.feed
      rw [hsize]
      by_cases hlt : totN < chunk.length
      · obtain ⟨n, hn, hsum, hin⟩ := feedRest_room h0 hlt hlen (hp hlt)
        have hcount : toInt32 (totN + n) = totN + n := toInt32_of_lt (by omega) (by omega)
        have hnat : (totN + n).toNat = totN.toNat + n := by omega
        rw [if_pos (by omega), hn, hcount]
        refine ⟨?_, ?_⟩
        · simp only [stretchConsumes, Outcome.state, Outcome.frames, owed_cons, owed_nil,
            Frame.unfed, List.nil_append, List.append_nil, hin, hnat]
          rw [List.append_assoc, ← List.drop_drop, List.take_append_drop]
        · intro g hg
          obtain rfl := List.mem_singleton.mp hg
          exact ⟨by omega, by omega, hlen⟩
      · have hall : chunk.drop totN.toNat = [] := List.drop_of_length_le (by omega)
        rw [if_neg (by omega)]
        refine ⟨?_, by simp [Outcome.frames, Frame.Counts]⟩
        simp [stretchConsumes, Outcome.state, Outcome.frames, Frame.unfed, hall]
  | feedRead chunk totN =>
    cases stretch_of_resume h with
    | write hf => exact hf.elim
    | readEnd hf => rcases hf with hf | hf <;> cases hf
    | read | feedReadEnd =>
      refine ⟨?_, fun g hg => ?_⟩
      · simp only [stretchConsumes, Outcome.state, Outcome.frames, owed_cons, owed_nil,
          List.append_nil, Frame.unfed, Stream.engine, List.take_append_drop]
      · obtain rfl := List.mem_singleton.mp hg
        exact hf
  | feedWrite chunk totN =>
    cases stretch_of_resume h with
    | read hf => exact hf.elim
    | readEnd hf => rcases hf with hf | hf <;> cases hf
    | write | feedDrained =>
      refine ⟨?_, fun g hg => ?_⟩
      · simp only [stretchConsumes, Outcome.state, Outcome.frames, owed_cons, owed_nil,
          List.append_nil, List.nil_append, Frame.unfed]
      · obtain rfl := List.mem_singleton.mp hg
        exact hf
  | _ =>
    cases stretch_of_resume h with
    | _ =>
      refine ⟨?_, by simp [Outcome.frames, Frame.Counts, WriteCall.finish]⟩
      simp [stretchConsumes, Outcome.state, Outcome.frames, Frame.unfed, WriteCall.finish,
        Stream.engine]

/-- An exception drops nothing that is to be fed. -/
theorem resume_throws (hp : FedWhole s f fs ans) (h : resume s f ans = some out)
    (hthrows : out.throws = true) : unfed fs = [] := by
  cases stretch_of_resume h with
  | connectThrow | shutdownThrow => exact hp.2 rfl
  | _ => cases hthrows

/-- An operation begins with its chunk to be fed. -/
theorem enter_feeds {o : Op} (hp : InTurn s fs o) (hlen : o.chunk.length < 2147483648) :
    (enter s o).1.inbound = s.inbound ∧
      (enter s o).2.unfed ++ unfed fs = unfed fs ++ o.chunk ∧ (enter s o).2.Counts := by
  refine ⟨by rcases enter_state s o with h | ⟨-, -, h⟩ <;> rw [h], ?_⟩
  cases o with
  | onReceived buf =>
    by_cases hbuf : buf = []
    · subst hbuf
      cases hst : s.status <;> simp [enter, hst, Op.chunk, Frame.unfed, Frame.Counts]
    · have hlen : buf.length < 2147483648 := hlen
      obtain ⟨hopen, hnone⟩ := hp hbuf
      rw [hnone, List.append_nil, List.nil_append]
      cases hst : s.status with
      | peerClosing => exact absurd hst hopen
      | _ => simp [enter, hst, Op.chunk, Frame.unfed, Frame.Counts, hlen]
  | onConnected | write | disconnect | onDisconnected =>
    simp only [enter]
    try split
    all_goals simp [Op.chunk, Frame.unfed, Frame.Counts]

/-! ## Runs -/

/-- The chunks that arrive are taken by the engine in order. -/
theorem feeding_account : Account object FedWhole (fun s fs o => InTurn s fs o ∧ Short s fs o)
    Frame.Counts stretchConsumes Stream.inbound Frame.unfed Op.chunk where
  enter s fs o hp := by
    obtain ⟨hin, hunfed, hcounts⟩ := enter_feeds hp.1 hp.2
    refine ⟨hcounts, ?_⟩
    show (enter s o).1.inbound ++ owed Frame.unfed ((enter s o).2 :: fs) =
      s.inbound ++ owed Frame.unfed fs ++ o.chunk
    rw [hin, owed_cons, hunfed, List.append_assoc]
  resume _ _ _ _ _ hf hp h := resume_feeds hf hp h
  throws _ _ _ _ _ hp h hthrows := resume_throws hp h hthrows

/-- **When the engine gets the ciphertext in order.**  At every configuration of a run that meets
the conditions, what the engine took, what is in the pair, and what activations have still to
feed, is what arrived. -/
theorem ciphertext_consumed {es : List (Event Op Answer)} {c : Configuration}
    (hs : s.inbound = []) (hr : Runs.run (step object) (Config.start s) es = some c)
    (hp : Runs.Along (step object)
      (fun c e => (Before FedWhole c e ∧ OnCall InTurn c e) ∧ OnCall Short c e)
      (Config.start s) es) :
    consumed s es ++ c.state.inbound ++ unfed (frames c.stack) = arrived c.log :=
  feeding_account.run hs hr (hp.imp fun _ _ h => ⟨h.1.1, onCall_and h.1.2 h.2⟩)

end

end Ssl
end AcppNetwork
