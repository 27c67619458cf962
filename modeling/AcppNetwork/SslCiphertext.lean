import AcppNetwork.Conduit
import AcppNetwork.SslSteps

/-!
# The ciphertext of `ssl::stream`

The outgoing side of the BIO pair is a conduit from the engine to the layer below:
every engine call may put ciphertext in, the `BIO_read` loops take it out and hand
it to `next_.write`.  Nothing is lost or reordered on the way (`conduit`).

What is left in the pair when an operation returns waits for the next operation.
Any activation that is to pass a `BIO_read` loop still owes a drain; the
`SSL_read` loops that end `do_connect` and `do_shutdown` are followed by none, so
the pair is empty between operations provided those reads produce nothing
(`ciphertext_written`).
-/
namespace AcppNetwork
namespace Ssl

open Reentrant

/-- The ciphertext handed to the layer below. -/
def CallOut.ciphertext : CallOut → List Byte
  | .nextWrite buf => buf
  | _ => []

/-- The ciphertext the engine puts into the pair. -/
def Note.ciphertext : Note → List Byte
  | .produced xs => xs
  | _ => []

/-- The arguments of `next_.write`, in order. -/
def writtenDown (l : List (Label Op CallOut Result Note)) : List Byte :=
  (callOuts l).flatMap CallOut.ciphertext

/-- What the engine produced, in order. -/
def produced (l : List (Label Op CallOut Result Note)) : List Byte :=
  (notes l).flatMap Note.ciphertext

/-- The ciphertext of a run so far and that in the pair are those of a conduit. -/
def Carries (q : Conduit Byte) (c : Configuration) : Prop :=
  q.Traces (produced c.log) (writtenDown c.log) c.state.outbound

section
variable {s : Stream} {f : Frame} {ans : Answer} {out : Next}

theorem feedNote_ciphertext (s : Stream) (buf : List Byte) :
    (s.feedNote buf).flatMap Note.ciphertext = [] := by
  unfold Stream.feedNote
  split <;> rfl

/-- A stretch of code accepts what the engine produces and delivers what it hands
down. -/
theorem Stretch.conduit {q : Conduit Byte} {g t : List Byte} (hq : q.Traces g t s.outbound)
    (h : Stretch s f ans out) :
    ∃ q' : Conduit Byte, q'.Traces (g ++ out.notes.flatMap Note.ciphertext)
      (t ++ out.callOuts.flatMap CallOut.ciphertext) out.state.outbound := by
  cases h with
  | handshake | shutdown =>
    refine ⟨q.accept ‹Reply›.produced, ?_⟩
    simpa [Outcome.notes, Outcome.callOuts, Outcome.state, feedNote_ciphertext, Note.ciphertext]
      using hq.accept _
  | connectThrow | shutdownThrow =>
    refine ⟨q, ?_⟩
    simpa [Outcome.notes, Outcome.callOuts, Outcome.state, feedNote_ciphertext] using hq
  | write hf hout =>
    refine ⟨q.deliver bufferSize, ?_⟩
    simpa [Outcome.notes, Outcome.callOuts, Outcome.state, CallOut.ciphertext]
      using hq.deliver bufferSize
  | read | readEnd | feedReadEnd | answerShutdown | writeTook | writeBroke =>
    refine ⟨q.accept ‹Reply›.produced, ?_⟩
    simpa [Outcome.notes, Outcome.callOuts, Outcome.state, Note.ciphertext, CallOut.ciphertext]
      using hq.accept _
  | _ =>
    refine ⟨q, ?_⟩
    simpa [Outcome.notes, Outcome.callOuts, Outcome.state, WriteCall.finish, Note.ciphertext,
      CallOut.ciphertext] using hq

/-- **The pair is a conduit on every run.** -/
theorem conduit {side : Side} {hostname : String} {capacity : Nat} {es : List (Event Op Answer)}
    {c : Configuration}
    (hr : Runs.run (step object) (Config.start (Stream.new side hostname capacity)) es = some c) :
    ∃ q, Carries q c := by
  refine invariant_of_parts (W := fun _ => True)
    (I := fun s _ ks _ ns => ∃ q : Conduit Byte,
      q.Traces (ns.flatMap Note.ciphertext) (ks.flatMap CallOut.ciphertext) s.outbound)
    (fun _ _ _ _ _ _ _ _ => trivial) (fun s fs ks os ns o _ hI _ => ?_)
    (fun s f fs ks os ns a out kept _ hI _ hres _ _ => ?_) ⟨Conduit.empty, rfl, rfl, rfl⟩
    before_true onCall_true hr
  · obtain ⟨q, hq⟩ := hI
    refine ⟨q, ?_⟩
    show q.Traces _ _ (enter s o).1.outbound
    rw [enter_outbound]
    exact hq
  · obtain ⟨q, hq⟩ := hI
    rw [List.flatMap_append, List.flatMap_append]
    exact (stretch_of_resume hres).conduit hq

/-! ## Who drains the pair -/

/-- The frames from which an activation still passes a `BIO_read` loop before it
returns. -/
def Frame.OwesDrain : Frame → Prop
  | .doConnectWrite | .doShutdownWrite | .feed _ _ | .feedRead _ _ | .feedWrite _ _
  | .checkShutdown | .feedFinal | .writeLoop _ | .writeDrain _ | .writeFinal _ => True
  | _ => False

/-- Ciphertext in the pair is owed a drain. -/
def Drained (c : Configuration) : Prop :=
  c.state.outbound ≠ [] → ∃ f ∈ frames c.stack, f.OwesDrain

/-- The condition: an `SSL_read` of the loop that ends `do_connect` or `do_shutdown`
puts nothing into the pair, and `do_connect` is not called in a state it throws
in. -/
def NoOutputAtEnd (s : Stream) (f : Frame) (_ : List Frame) (ans : Answer) : Prop :=
  match f, ans with
  | .doConnectRead, .engine a | .doShutdownRead, .engine a => a.produced = []
  | .doConnect _, _ => s.mayConnect = true
  | _, _ => True

instance (s : Stream) (f : Frame) (fs : List Frame) (ans : Answer) :
    Decidable (NoOutputAtEnd s f fs ans) := by
  rcases f with ⟨⟩ <;> rcases ans with ⟨⟩ <;> unfold NoOutputAtEnd <;> infer_instance

/-- After a stretch there is nothing in the pair that was not there before, or its
activation owes a drain; and an activation that owed one has drained the pair, or
owes it still. -/
theorem Stretch.drained {fs : List Frame} (hp : NoOutputAtEnd s f fs ans)
    (h : Stretch s f ans out) :
    (∃ g ∈ out.frames, g.OwesDrain) ∨ out.state.outbound = [] ∨
      ¬ f.OwesDrain ∧ out.state.outbound = s.outbound := by
  cases h with
  | handshake | shutdown | feedDrained | writeDrained | feed | feedDone | answerShutdown
  | noShutdown | writeTook | writeBroke | writeDone | feedReadEnd =>
    exact .inl ⟨_, List.mem_singleton.mpr rfl, trivial⟩
  | connectThrow | shutdownThrow => exact .inr (.inr ⟨id, by simp [Outcome.state]⟩)
  | write hf hout =>
    cases f <;> first
      | exact hf.elim
      | exact .inl ⟨_, List.mem_singleton.mpr rfl, trivial⟩
  | connectDrained hout | shutdownDrained hout | feedEnd hout | writeEnd hout =>
    exact .inr (.inl hout)
  | read hf ha hpos =>
    cases f with
    | feedRead => exact .inl ⟨_, List.mem_singleton.mpr rfl, trivial⟩
    | doConnectRead | doShutdownRead =>
      have hnone : _ = [] := hp
      exact .inr (.inr ⟨id, by simp [Outcome.state, hnone]⟩)
    | _ => exact hf.elim
  | readEnd hf ha hend =>
    rcases hf with rfl | rfl
    · have hnone : _ = [] := hp
      exact .inr (.inr ⟨id, by simp [Outcome.state, hnone]⟩)
    · have hnone : _ = [] := hp
      exact .inr (.inr ⟨id, by simp [Outcome.state, hnone]⟩)
  | notifyConnected | skipConnected | notifyDisconnected | skipDisconnected | rejected | done =>
    exact .inr (.inr ⟨id, rfl⟩)

/-- Under the condition no stretch throws. -/
theorem Stretch.not_throws {fs : List Frame} (hp : NoOutputAtEnd s f fs ans)
    (hclosing : ∀ buf, f = .doShutdown buf → s.status = .closing) (h : Stretch s f ans out) :
    out.throws = false := by
  cases h with
  | connectThrow hst =>
    have hmay : s.mayConnect = true := hp
    rw [hmay] at hst
    cases hst
  | shutdownThrow hst => exact absurd (hclosing _ rfl) hst
  | _ => rfl

/-- Under the condition, whatever is in the pair is owed a drain. -/
theorem drained {side : Side} {hostname : String} {capacity : Nat}
    {es : List (Event Op Answer)} {c : Configuration}
    (hr : Runs.run (step object) (Config.start (Stream.new side hostname capacity)) es = some c)
    (hp : Runs.Along (step object) (Before NoOutputAtEnd)
      (Config.start (Stream.new side hostname capacity)) es) : Drained c := by
  refine Runs.run_invariant_given (J := Entered) (fun c e c' hj h => hj.step (Step.of_step h))
    (fun c e c' hj hdrained hbefore hstep => ?_) (Entered.start _) (fun hne => absurd rfl hne) hp hr
  rcases (Step.of_step hstep).stretch with ⟨o, -, -, rfl⟩ |
    ⟨f, rest, a, out, kept, hstack, ha, hres, hstate, -, hkept, hframes, -⟩ |
    ⟨-, hstate, hframes, -⟩
  · -- an operation is called: the activations under way still owe what they owed
    intro hne
    change (enter c.state o).1.outbound ≠ [] at hne
    rw [enter_outbound] at hne
    obtain ⟨f, hf, howes⟩ := hdrained hne
    exact ⟨f, List.mem_cons_of_mem _ hf, howes⟩
  · simp only [Before, ha, hstack] at hbefore
    have hstretch := stretch_of_resume hres
    have hclosing : ∀ buf, f = .doShutdown buf → c.state.status = .closing := by
      rintro buf rfl
      exact hj.closing buf (by rw [hstack]; exact List.mem_cons_self ..)
    rw [hkept (hstretch.not_throws hbefore hclosing)] at hframes
    intro hne
    rw [hstate] at hne
    rw [hframes]
    rcases hstretch.drained hbefore with ⟨g, hg, howes⟩ | hempty | ⟨hnot, hsame⟩
    · exact ⟨g, List.mem_append_left _ hg, howes⟩
    · exact absurd hempty hne
    · -- nothing new in the pair: somebody else owed the drain
      rw [hsame] at hne
      obtain ⟨g, hg, howes⟩ := hdrained hne
      rw [hstack, frames_code, List.mem_cons] at hg
      rcases hg with rfl | hg
      · exact absurd howes hnot
      · exact ⟨g, List.mem_append_right _ hg, howes⟩
  · rw [Drained, hstate, hframes]
    exact hdrained

/-- **When the ciphertext is written by the time an operation returns.**  In every
run that meets the condition, whenever no operation is under way the outgoing side
of the pair is empty and the arguments of `next_.write` are, in order, everything
the engine produced. -/
theorem ciphertext_written {side : Side} {hostname : String} {capacity : Nat}
    {es : List (Event Op Answer)} {c : Configuration}
    (hr : Runs.run (step object) (Config.start (Stream.new side hostname capacity)) es = some c)
    (hp : Runs.Along (step object) (Before NoOutputAtEnd)
      (Config.start (Stream.new side hostname capacity)) es)
    (hq : c.Quiet) :
    c.state.outbound = [] ∧ writtenDown c.log = produced c.log := by
  have hdrained : Drained c := drained hr hp
  have hempty : c.state.outbound = [] := by
    by_contra hne
    obtain ⟨f, hf, -⟩ := hdrained hne
    rw [show c.stack = [] from hq] at hf
    cases hf
  obtain ⟨q, htraces⟩ := conduit hr
  have hfifo := htraces.fifo
  rw [hempty, List.append_nil] at hfifo
  exact ⟨hempty, hfifo⟩

end

/-- A handshake whose reads put nothing into the pair. -/
theorem ciphertext_written_handshake :
    ∃ c, Runs.run (step object) (Config.start (Stream.ofContext .client "")) handshakeRun = some c ∧
      produced c.log = [1, 3] ∧ c.state.outbound = [] ∧ writtenDown c.log = produced c.log := by
  obtain ⟨c, hr, hquiet, hproduced⟩ :
      ∃ c, Runs.run (step object) (Config.start (Stream.ofContext .client "")) handshakeRun
          = some c ∧
        c.Quiet ∧ produced c.log = [1, 3] :=
    Runs.exists_run (by decide)
  exact ⟨c, hr, hproduced, ciphertext_written hr (by decide) hquiet⟩

/-- A handshake whose last chunk goes on with a record that is bad: the `SSL_read` that ends
`do_connect` finds it, fails, and puts an alert of 24 bytes into the pair. -/
def badRecordRun : List (Event Op Answer) :=
  [.call .onConnected,
    .code (.engine { result := -1, error := .wantRead, produced := [1] }),
    .code .go, .back, .code .go, .code .go,
    .code (.engine { result := -1, error := .wantRead }),
    .call (.onReceived [2, 4]),
    .code (.engine { result := 1, consumed := 1, produced := [3], established := true }),
    .code .go, .back, .code .go, .code .go, .back,
    .code (.engine
      { result := -1, error := .ssl, consumed := 1, produced := List.replicate 24 21 })]

/-- The alert stays in the pair. -/
theorem ciphertext_left_behind :
    ∃ c, Runs.run (step object) (Config.start (Stream.ofContext .client "")) badRecordRun = some c ∧
      c.Quiet ∧ c.state.outbound = List.replicate 24 21 ∧ writtenDown c.log = [1, 3] ∧
      produced c.log = [1, 3] ++ List.replicate 24 21 :=
  Runs.exists_run (by decide)

end Ssl
end AcppNetwork
