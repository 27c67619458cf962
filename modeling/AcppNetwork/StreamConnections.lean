import AcppNetwork.Reentrant
import AcppNetwork.SocketStream

/-!
# `socket_stream` over one connection after another

`socket(async_socket_base&&)` (`include/acpp-network/stream.h`) gives the stream another
socket to write to; `pending_data_` stays as it is.  The model follows `write`, the
`on_sent` callback and `socket` over sockets of any backend: what a socket takes is its own
choice, it may have sends under way when it is installed, and it may call `on_error`, which
goes to the layers above, before `socket_.write` returns.  From there the layers above may
call the stream again.

Connections are numbered in the order they are installed; that of the constructor is 0.
Beside `pending_data_` the state keeps what the code does not read: for which connection
each pending byte was written, and which byte was handed to which connection.
-/
namespace AcppNetwork

open Reentrant

/-- A byte a socket took. -/
structure Handed where
  byte : Byte
  /-- The connection it was handed to. -/
  connection : Nat
  /-- The connection that was installed when it was written. -/
  writtenFor : Nat
  deriving DecidableEq

/-- A stream and its connections. -/
structure StreamConnections where
  stream : SocketStream
  /-- The connection installed. -/
  connection : Nat
  /-- For which connection each byte of `pending_data_` was written. -/
  origins : List Nat
  handed : List Handed
  deriving DecidableEq

namespace StreamConnections

/-- The operations: `write`, the `on_sent` callback, and `socket(async_socket_base&&)`. -/
inductive Op where
  | write (buf : List Byte)
  | onSent
  | socket
  deriving DecidableEq

/-- Where an activation stands. -/
inductive Frame where
  /-- `writtenFor` is the connection installed at the call. -/
  | write (buf : List Byte) (writtenFor : Nat)
  /-- `socket_.write(buf, size)` is about to return `n`. -/
  | writeRest (buf : List Byte) (n writtenFor : Nat)
  | onSent
  /-- In `on_sent`, `socket_.write` is about to return `n`. -/
  | sentRest (n : Nat)
  | socket
  deriving DecidableEq

/-- What the stream calls, through the socket: the user's `on_error`. -/
inductive Callback where
  | onError
  deriving DecidableEq

/-- What is answered along a stretch of code. -/
inductive Answer where
  /-- `socket_.write` takes `n` bytes, and then may fail. -/
  | took (n : Nat) (fails : Bool)
  | go
  deriving DecidableEq

/-- What an operation returns. -/
inductive Result where
  | void
  | size (n : Nat)
  deriving DecidableEq

abbrev Next := Outcome StreamConnections Frame Callback Result Empty

/-- The socket takes these bytes, each with the connection it was written for. -/
def hand (s : StreamConnections) (xs : List (Byte × Nat)) : StreamConnections :=
  { s with handed := s.handed ++ xs.map fun x => ⟨x.1, s.connection, x.2⟩ }

/-- `write` from the return of `socket_.write` on. -/
def writeRest (s : StreamConnections) (buf : List Byte) (n writtenFor : Nat) : Next :=
  let (stream, size) := s.stream.write buf n
  let origins := if n < buf.length then List.replicate buf.length writtenFor else []
  .ret { s with stream := stream, origins := s.origins ++ origins } (.size size) []

/-- `on_sent` from the return of `socket_.write` on.  `erase` past the end of
`pending_data_` is undefined. -/
def sentRest (s : StreamConnections) (n : Nat) : Option Next :=
  if n ≤ s.stream.pendingData.length then
    some (.ret { s with stream := s.stream.onSent n, origins := s.origins.drop n } .void [])
  else none

/-- The code, stretch by stretch. -/
def resume (s : StreamConnections) : Frame → Answer → Option Next
  | .write buf writtenFor, .took n fails =>
      if n ≤ buf.length then
        let s := s.hand ((buf.take n).map (·, writtenFor))
        if fails then some (.callOut s (.writeRest buf n writtenFor) .onError [])
        else some (s.writeRest buf n writtenFor)
      else none
  | .writeRest buf n writtenFor, .go => some (s.writeRest buf n writtenFor)
  | .onSent, .took n fails =>
      if s.stream.pendingData ≠ [] ∧ n ≤ s.stream.pendingData.length then
        let s := s.hand ((s.stream.pendingData.zip s.origins).take n)
        if fails then some (.callOut s (.sentRest n) .onError [])
        else s.sentRest n
      else none
  | .onSent, .go => if s.stream.pendingData ≠ [] then none else some (.ret s .void [])
  | .sentRest n, .go => s.sentRest n
  | .socket, .go => some (.ret { s with connection := s.connection + 1 } .void [])
  | _, _ => none

/-- Where an operation starts. -/
def enter (s : StreamConnections) : Op → StreamConnections × Frame
  | .write buf => (s, .write buf s.connection)
  | .onSent => (s, .onSent)
  | .socket => (s, .socket)

/-- The stream. -/
def object : Object StreamConnections Op Frame Callback Answer Result Empty := ⟨enter, resume⟩

abbrev Configuration := Config StreamConnections Op Frame Callback Result Empty

/-- The stream as its constructor leaves it. -/
def new : StreamConnections := ⟨⟨[]⟩, 0, [], []⟩

/-! ## What a connection receives -/

/-- Each connection received only bytes written while it was installed. -/
def Faithful (s : StreamConnections) : Prop := ∀ h ∈ s.handed, h.writtenFor = h.connection

instance (s : StreamConnections) : Decidable s.Faithful :=
  inferInstanceAs (Decidable (∀ h ∈ s.handed, h.writtenFor = h.connection))

/-- The stretch of code does not install a connection. -/
def KeepsConnection (_ : StreamConnections) (f : Frame) (_ : List Frame) (_ : Answer) : Prop :=
  f ≠ .socket

/-- A `write` under way of which the socket did not take everything. -/
def Frame.Short : Frame → Prop
  | .writeRest buf n _ => n < buf.length
  | _ => False

instance (f : Frame) : Decidable f.Short := by
  cases f <;> unfold Frame.Short <;> infer_instance

/-- The condition on a stretch of code: an installation finds nothing pending and no
`write` under way that will leave something pending. -/
def NothingLeft (s : StreamConnections) (f : Frame) (fs : List Frame) (_ : Answer) : Prop :=
  f = .socket → s.stream.pendingData = [] ∧ ∀ g ∈ fs, ¬ g.Short

instance (s : StreamConnections) (f : Frame) (fs : List Frame) (a : Answer) :
    Decidable (s.NothingLeft f fs a) :=
  inferInstanceAs (Decidable (f = .socket → _))

/-- Where an activation waits while `on_error` runs. -/
def Frame.Waits : Frame → Prop
  | .writeRest _ _ _ => True
  | .sentRest _ => True
  | _ => False

/-- The connection a `write` under way was called for satisfies `P`, if the `write` may
still leave something pending. -/
def Frame.WrittenFor (P : Nat → Prop) : Frame → Prop
  | .write _ writtenFor => P writtenFor
  | .writeRest buf n writtenFor => n < buf.length → P writtenFor
  | _ => True

/-- The bytes pending, and those of the writes under way, were written for connections
that satisfy `P`. -/
structure Written (P : Nat → Prop) (s : StreamConnections) (fs : List Frame) : Prop where
  length : s.origins.length = s.stream.pendingData.length
  origins : ∀ w ∈ s.origins, P w
  frames : ∀ f ∈ fs, f.WrittenFor P

section
variable {s : StreamConnections} {P : Nat → Prop} {f : Frame} {fs : List Frame} {a : Answer}
  {out : Next}

theorem Written.writeRest {buf : List Byte} {n writtenFor : Nat}
    (h : s.Written P (.writeRest buf n writtenFor :: fs)) :
    (s.writeRest buf n writtenFor).state.Written P fs := by
  obtain ⟨hfor, hfs⟩ := List.forall_mem_cons.mp h.frames
  by_cases hshort : n < buf.length
  · refine ⟨?_, ?_, hfs⟩
    · simp [StreamConnections.writeRest, SocketStream.write, Outcome.state, hshort, h.length]
    · intro w hw
      simp only [StreamConnections.writeRest, Outcome.state, if_pos hshort, List.mem_append,
        List.mem_replicate] at hw
      rcases hw with hw | ⟨-, rfl⟩
      · exact h.origins w hw
      · exact hfor hshort
  · refine ⟨?_, ?_, hfs⟩
    · simp [StreamConnections.writeRest, SocketStream.write, Outcome.state, hshort, h.length]
    · intro w hw
      simp only [StreamConnections.writeRest, Outcome.state, if_neg hshort, List.append_nil] at hw
      exact h.origins w hw

theorem Written.sentRest {n : Nat} (h : s.Written P fs) (hout : s.sentRest n = some out) :
    out.state.Written P fs := by
  unfold StreamConnections.sentRest at hout
  split at hout
  · cases hout
    refine ⟨?_, ?_, h.frames⟩
    · show (s.origins.drop n).length = (s.stream.onSent n).pendingData.length
      rw [SocketStream.onSent_pendingData, List.length_drop, List.length_drop, h.length]
    · intro w hw
      exact h.origins w (List.mem_of_mem_drop hw)
  · cases hout

/-- What is handed over goes to the connection that is installed, and was written for one
that satisfies `P`. -/
structure HandsOver (P : Nat → Prop) (s s' : StreamConnections) : Prop where
  connection : s'.connection = s.connection
  handed : ∀ h ∈ s'.handed, h ∈ s.handed ∨ h.connection = s.connection ∧ P h.writtenFor

theorem handsOver_of_eq {s' : StreamConnections} (hc : s'.connection = s.connection)
    (hh : s'.handed = s.handed) : s.HandsOver P s' :=
  ⟨hc, fun _ hmem => .inl (hh ▸ hmem)⟩

theorem HandsOver.trans_eq {s' s'' : StreamConnections} (h : s.HandsOver P s')
    (hc : s''.connection = s'.connection) (hh : s''.handed = s'.handed) : s.HandsOver P s'' :=
  ⟨hc.trans h.connection, fun x hmem => h.handed x (hh ▸ hmem)⟩

theorem handsOver_hand {xs : List (Byte × Nat)} (h : ∀ x ∈ xs, P x.2) :
    s.HandsOver P (s.hand xs) := by
  refine ⟨rfl, fun y hy => ?_⟩
  rcases List.mem_append.mp hy with hy | hy
  · exact .inl hy
  · obtain ⟨x, hx, rfl⟩ := List.mem_map.mp hy
    exact .inr ⟨rfl, h x hx⟩

theorem sentRest_state {n : Nat} (h : s.sentRest n = some out) :
    out.frames = [] ∧ out.state.connection = s.connection ∧ out.state.handed = s.handed := by
  unfold StreamConnections.sentRest at h
  split at h
  · cases h
    exact ⟨rfl, rfl, rfl⟩
  · cases h

/-- **What a stretch of code does** that installs no connection. -/
theorem Written.stretch (h : s.Written P (f :: fs)) (hf : f ≠ .socket)
    (hout : resume s f a = some out) :
    out.state.Written P (out.frames ++ fs) ∧ s.HandsOver P out.state := by
  cases f with
  | socket => exact absurd rfl hf
  | write buf writtenFor =>
    obtain ⟨hfor, hfs⟩ := List.forall_mem_cons.mp h.frames
    cases a with
    | go => cases hout
    | took n fails =>
      simp only [resume] at hout
      split at hout
      · have hhand : s.HandsOver P (s.hand ((buf.take n).map (·, writtenFor))) := by
          apply handsOver_hand
          intro x hx
          obtain ⟨b, -, rfl⟩ := List.mem_map.mp hx
          exact hfor
        have hrest : (s.hand ((buf.take n).map (·, writtenFor))).Written P
            (.writeRest buf n writtenFor :: fs) :=
          ⟨h.length, h.origins, List.forall_mem_cons.mpr ⟨fun _ => hfor, hfs⟩⟩
        cases fails with
        | true =>
          cases hout
          exact ⟨hrest, hhand⟩
        | false =>
          cases hout
          exact ⟨hrest.writeRest, hhand.trans_eq rfl rfl⟩
      · cases hout
  | writeRest buf n writtenFor =>
    cases a with
    | took n fails => cases hout
    | go =>
      cases hout
      exact ⟨h.writeRest, handsOver_of_eq rfl rfl⟩
  | onSent =>
    have hfs := (List.forall_mem_cons.mp h.frames).2
    cases a with
    | go =>
      simp only [resume] at hout
      split at hout
      · cases hout
      · cases hout
        exact ⟨⟨h.length, h.origins, hfs⟩, handsOver_of_eq rfl rfl⟩
    | took n fails =>
      simp only [resume] at hout
      split at hout
      · have hhand : s.HandsOver P (s.hand ((s.stream.pendingData.zip s.origins).take n)) := by
          apply handsOver_hand
          intro x hx
          exact h.origins x.2 (List.of_mem_zip (List.mem_of_mem_take hx)).2
        have hrest : (s.hand ((s.stream.pendingData.zip s.origins).take n)).Written P fs :=
          ⟨h.length, h.origins, hfs⟩
        cases fails with
        | true =>
          cases hout
          exact ⟨⟨h.length, h.origins, List.forall_mem_cons.mpr ⟨trivial, hfs⟩⟩, hhand⟩
        | false =>
          obtain ⟨hnone, hconn, hsame⟩ := sentRest_state hout
          rw [hnone]
          exact ⟨hrest.sentRest hout, hhand.trans_eq hconn hsame⟩
      · cases hout
  | sentRest n =>
    have hrest : s.Written P fs := ⟨h.length, h.origins, (List.forall_mem_cons.mp h.frames).2⟩
    cases a with
    | took n fails => cases hout
    | go =>
      obtain ⟨hnone, hconn, hsame⟩ := sentRest_state hout
      rw [hnone]
      exact ⟨hrest.sentRest hout, handsOver_of_eq hconn hsame⟩

/-- An installation. -/
theorem socket_state (h : resume s .socket a = some out) :
    out = .ret { s with connection := s.connection + 1 } .void [] := by
  cases a with
  | go => exact (Option.some.inj h).symm
  | took n fails => cases h

end

/-- What holds in every state a run reaches: writes are for the connections installed so
far. -/
structure Sound (c : Configuration) : Prop where
  written : c.state.Written (· ≤ c.state.connection) (frames c.stack)
  waiting : Waiting Frame.Waits c.stack
  called : Called c.stack

/-- Every byte that was or may yet be handed over was written for its connection. -/
structure Current (c : Configuration) : Prop where
  faithful : c.state.Faithful
  written : c.state.Written (· = c.state.connection) (frames c.stack)

section
variable {c c' : Configuration} {e : Event Op Answer}

theorem Frame.WrittenFor.imp {P Q : Nat → Prop} {f : Frame} (h : f.WrittenFor P)
    (hPQ : ∀ k, P k → Q k) : f.WrittenFor Q := by
  cases f with
  | write buf writtenFor => exact hPQ _ h
  | writeRest buf n writtenFor => exact fun hshort => hPQ _ (h hshort)
  | _ => trivial

theorem waits_of_callOut {s s' : StreamConnections} {f g : Frame} {a : Answer} {k : Callback}
    {ns : List Empty} (h : resume s f a = some (.callOut s' g k ns)) : g.Waits := by
  unfold resume sentRest writeRest at h
  split at h <;> grind [Frame.Waits]

theorem enter_written {P : Nat → Prop} {s : StreamConnections} {fs : List Frame}
    (h : s.Written P fs) (hs : P s.connection) (o : Op) :
    (enter s o).1 = s ∧ s.Written P ((enter s o).2 :: fs) := by
  refine ⟨by cases o <;> rfl, h.length, h.origins, List.forall_mem_cons.mpr ⟨?_, h.frames⟩⟩
  cases o with
  | write buf => exact hs
  | _ => trivial

theorem Written.subset {P : Nat → Prop} {s : StreamConnections} {fs gs : List Frame}
    (h : s.Written P fs) (hgs : gs ⊆ fs) : s.Written P gs :=
  ⟨h.length, h.origins, fun f hf => h.frames f (hgs hf)⟩

theorem Sound.step (hc : Sound c) (h : step object c e = some c') : Sound c' := by
  have hstep := Step.of_step h
  refine ⟨?_, hc.waiting.step (fun _ _ _ _ _ _ _ hres => waits_of_callOut hres) hstep,
    hc.called.step hstep⟩
  rcases hstep.stretch with ⟨o, rfl, -, rfl⟩ |
    ⟨f, rest, a, out, kept, hstack, -, hres, hstate, hsuffix, -, hframes, -⟩ |
    ⟨-, hstate, hframes, -⟩
  · obtain ⟨hsame, hwritten⟩ := enter_written hc.written (Nat.le_refl _) o
    show (enter c.state o).1.Written (· ≤ (enter c.state o).1.connection) _
    rw [hsame]
    exact hwritten
  · have hwritten := hc.written
    rw [hstack, frames_code] at hwritten
    rw [hstate, hframes]
    by_cases hf : f = .socket
    · subst hf
      rw [socket_state hres]
      have hrest := hwritten.subset fun g hg => List.mem_cons_of_mem _ (hsuffix.subset hg)
      exact ⟨hrest.length, fun w hw => Nat.le_succ_of_le (hrest.origins w hw),
        fun g hg => (hrest.frames g hg).imp fun k hk => Nat.le_succ_of_le hk⟩
    · obtain ⟨hafter, hhands⟩ := hwritten.stretch hf hres
      have hkept := hafter.subset (hsuffix.sublist.append_left out.frames).subset
      rw [hhands.connection]
      exact hkept
  · rw [hstate, hframes]
    exact hc.written

/-- Without an installation, what is handed over and what is pending stays written for its
connection. -/
theorem Current.step (hc : Current c) (hp : Before KeepsConnection c e)
    (h : step object c e = some c') : Current c' := by
  rcases (Step.of_step h).stretch with ⟨o, rfl, -, rfl⟩ |
    ⟨f, rest, a, out, kept, hstack, ha, hres, hstate, hsuffix, -, hframes, -⟩ |
    ⟨-, hstate, hframes, -⟩
  · obtain ⟨hsame, hwritten⟩ := enter_written hc.written rfl o
    have hstate : (object.enter c.state o).1 = c.state := hsame
    refine ⟨?_, ?_⟩
    · show (object.enter c.state o).1.Faithful
      rw [hstate]
      exact hc.faithful
    · show (object.enter c.state o).1.Written (· = (object.enter c.state o).1.connection) _
      rw [hstate]
      exact hwritten
  · have hf : f ≠ .socket := by
      rw [Before, ha, hstack] at hp
      exact hp
    have hwritten := hc.written
    rw [hstack, frames_code] at hwritten
    obtain ⟨hafter, hhands⟩ := hwritten.stretch hf hres
    refine ⟨?_, ?_⟩
    · rw [hstate]
      intro x hx
      rcases hhands.handed x hx with hx | ⟨hconn, hfor⟩
      · exact hc.faithful x hx
      · exact hfor.trans hconn.symm
    · rw [hstate, hframes, hhands.connection]
      exact hafter.subset (hsuffix.sublist.append_left out.frames).subset
  · refine ⟨?_, ?_⟩
    · rw [hstate]
      exact hc.faithful
    · rw [hstate, hframes]
      exact hc.written

/-- Every connection receives only bytes written while it was installed, and will unless
another is installed. -/
def Safe : Configuration → Prop :=
  Runs.Always (step object) (Before KeepsConnection) fun c => c.state.Faithful

theorem Current.safe (hc : Current c) : Safe c :=
  Runs.always_of_invariant (J := Current) (fun _ _ _ hc hp h => hc.step hp h)
    (fun _ hc => hc.faithful) hc

theorem Safe.call (hc : Safe c) (o : Op) (hrun : outsideRuns c.stack = true) :
    Safe ⟨(object.enter c.state o).1, .code (object.enter c.state o).2 :: c.stack,
      c.log ++ [.call o]⟩ :=
  hc.next (e := Event.call o) trivial (Step.to_step (.call o hrun))

theorem Safe.ret {s s' : StreamConnections} {f : Frame} {rest : List (Act Frame Callback)}
    {log : List (Label Op Callback Result Empty)} {a : Answer} {r : Result}
    (hc : Safe ⟨s, .code f :: rest, log⟩) (hf : f ≠ .socket)
    (h : resume s f a = some (.ret s' r [])) : Safe ⟨s', rest, log ++ [].map .note ++ [.ret r]⟩ :=
  hc.next (e := Event.code a) hf (Step.to_step (.ret h))

theorem Safe.back {s : StreamConnections} {k : Callback} {rest : List (Act Frame Callback)}
    {log : List (Label Op Callback Result Empty)} (hc : Safe ⟨s, .outside k :: rest, log⟩) :
    Safe ⟨s, rest, log⟩ :=
  hc.next (e := Event.back) trivial (Step.to_step .back)

/-- A pending byte that was written for another connection: `on_sent` hands it over. -/
theorem not_safe_of_pending (hrun : outsideRuns c.stack = true)
    (hlen : c.state.origins.length = c.state.stream.pendingData.length) {w : Nat}
    (hw : w ∈ c.state.origins) (hne : w ≠ c.state.connection) : ¬ Safe c := by
  intro hsafe
  have hpending : c.state.stream.pendingData ≠ [] := by
    intro hnil
    rw [hnil, List.length_nil] at hlen
    rw [List.eq_nil_of_length_eq_zero hlen] at hw
    cases hw
  have hcalled := hsafe.call .onSent hrun
  have hres : ∃ out, resume c.state .onSent (.took c.state.stream.pendingData.length false) =
      some (.ret out .void []) ∧
      out.handed = c.state.handed ++ ((c.state.stream.pendingData.zip c.state.origins).map
        fun x => ⟨x.1, c.state.connection, x.2⟩) := by
    simp [resume, hpending, sentRest, hand, hlen]
  obtain ⟨out, hres, hhanded⟩ := hres
  have hsent := hcalled.ret (by rintro ⟨⟩) hres
  obtain ⟨i, hi, rfl⟩ := List.getElem_of_mem hw
  apply hne
  apply hsent.now ⟨c.state.stream.pendingData[i], c.state.connection, c.state.origins[i]⟩
  show _ ∈ out.handed
  rw [hhanded]
  apply List.mem_append_right
  exact List.mem_map.mpr ⟨(c.state.stream.pendingData[i], c.state.origins[i]),
    List.mem_iff_getElem.mpr ⟨i, by rw [List.length_zip]; omega, List.getElem_zip⟩, rfl⟩

/-- While the outside runs, it may write so much that `n` bytes are pending. -/
theorem Safe.topUp {s : StreamConnections} {stack : List (Act Frame Callback)}
    {log : List (Label Op Callback Result Empty)} (hc : Safe ⟨s, stack, log⟩)
    (hrun : outsideRuns stack = true) (hlen : s.origins.length = s.stream.pendingData.length)
    (n : Nat) : ∃ s' log', Safe ⟨s', stack, log'⟩ ∧ s'.connection = s.connection ∧
      s'.origins.length = s'.stream.pendingData.length ∧ n ≤ s'.stream.pendingData.length := by
  have hcalled := hc.call (.write (List.replicate n 0)) hrun
  have hres : resume s (.write (List.replicate n 0) s.connection) (.took 0 false) =
      some (.ret ((s.hand []).writeRest (List.replicate n 0) 0 s.connection).state
        (.size (List.replicate n (0 : Byte)).length) []) := by
    simp [resume, writeRest, SocketStream.write, Outcome.state]
  refine ⟨_, _, hcalled.ret (by rintro ⟨⟩) hres, rfl, ?_, ?_⟩
  · have hwritten : (s.hand []).Written (fun _ => True)
        [.writeRest (List.replicate n 0) 0 s.connection] :=
      ⟨hlen, fun _ _ => trivial, List.forall_mem_singleton.mpr fun _ => trivial⟩
    exact hwritten.writeRest.length
  · by_cases hn : n = 0
    · omega
    · simp [writeRest, SocketStream.write, Outcome.state, hand, Nat.pos_of_ne_zero hn]

/-- A `write` under way that was called for another connection and will leave something
pending: once everything above it has returned, it does. -/
theorem not_safe_of_waiting {s : StreamConnections} {stack : List (Act Frame Callback)}
    {log : List (Label Op Callback Result Empty)} (hcalled : Called stack)
    (hrun : outsideRuns stack = true) (hwaits : ∀ f ∈ frames stack, f.Waits)
    (hlen : s.origins.length = s.stream.pendingData.length)
    (hstale : ∃ f ∈ frames stack, ¬ f.WrittenFor (· = s.connection)) : ¬ Safe ⟨s, stack, log⟩ := by
  intro hsafe
  match stack with
  | [] =>
    obtain ⟨f, hf, -⟩ := hstale
    cases hf
  | .outside k :: [] =>
    obtain ⟨f, hf, -⟩ := hstale
    cases hf
  | .outside k :: .outside k' :: rest =>
    exact not_safe_of_waiting hcalled.rest rfl hwaits hlen hstale hsafe.back
  | .outside k :: .code f :: rest =>
    obtain ⟨hf, hrest⟩ := List.forall_mem_cons.mp hwaits
    have hunder : outsideRuns rest = true := by
      cases hcalled.rest with
      | code hout h => exact hout
    cases f with
    | writeRest buf n writtenFor =>
      have hwritten : s.Written (fun _ => True) [.writeRest buf n writtenFor] :=
        ⟨hlen, fun _ _ => trivial, List.forall_mem_singleton.mpr fun _ => trivial⟩
      have hres : resume s (.writeRest buf n writtenFor) .go =
          some (.ret (s.writeRest buf n writtenFor).state (.size buf.length) []) := rfl
      have hreturned := hsafe.back.ret (by rintro ⟨⟩) hres
      by_cases hfor : Frame.WrittenFor (· = s.connection) (.writeRest buf n writtenFor)
      · -- it is not this one
        refine not_safe_of_waiting hcalled.rest.rest hunder hrest hwritten.writeRest.length ?_
          hreturned
        obtain ⟨f, hf, hne⟩ := hstale
        rcases List.mem_cons.mp hf with rfl | hf
        · exact absurd hfor hne
        · exact ⟨f, hf, hne⟩
      · obtain ⟨hshort, hne⟩ : n < buf.length ∧ writtenFor ≠ s.connection :=
          Classical.not_imp.mp hfor
        refine not_safe_of_pending hunder hwritten.writeRest.length ?_ hne hreturned
        show writtenFor ∈ s.origins ++ if n < buf.length then _ else []
        rw [if_pos hshort]
        apply List.mem_append_right
        exact List.mem_replicate.mpr ⟨by omega, rfl⟩
    | sentRest n =>
      obtain ⟨s', log', hsafe', hconn, hlen', hn⟩ := hsafe.topUp rfl hlen n
      have hres : resume s' (.sentRest n) .go = some (.ret { s' with
          stream := s'.stream.onSent n, origins := s'.origins.drop n } .void []) := by
        simp only [resume, sentRest, if_pos hn]
      refine not_safe_of_waiting hcalled.rest.rest hunder hrest ?_ ?_
        (hsafe'.back.ret (by rintro ⟨⟩) hres)
      · show (s'.origins.drop n).length = (s'.stream.onSent n).pendingData.length
        rw [SocketStream.onSent_pendingData, List.length_drop, List.length_drop, hlen']
      · obtain ⟨f, hf, hne⟩ := hstale
        rcases List.mem_cons.mp hf with rfl | hf
        · exact absurd trivial hne
        · refine ⟨f, hf, ?_⟩
          show ¬ f.WrittenFor (· = s'.connection)
          rw [hconn]
          exact hne
    | write buf writtenFor => exact hf
    | onSent => exact hf
    | socket => exact hf
termination_by stack.length

/-- **An installation is safe exactly if nothing is left** of what was written before. -/
theorem safe_installed_iff (hc : Sound c) (hsafe : Safe c)
    (hp : ¬ Before KeepsConnection c e) (h : step object c e = some c') :
    Safe c' ↔ Before NothingLeft c e := by
  cases Step.of_step h with
  | call o hout => exact absurd trivial hp
  | back => exact absurd trivial hp
  | goto hres =>
    obtain rfl := Decidable.not_not.mp hp
    cases socket_state hres
  | callOut hres =>
    obtain rfl := Decidable.not_not.mp hp
    cases socket_state hres
  | unwind depth hres hout =>
    obtain rfl := Decidable.not_not.mp hp
    cases socket_state hres
  | @ret s f rest log a s' r ns hres =>
    obtain rfl := Decidable.not_not.mp hp
    cases socket_state hres
    have hlen : s.origins.length = s.stream.pendingData.length := hc.written.length
    have hrest : ∀ g ∈ frames rest, g.WrittenFor (· ≤ s.connection) :=
      fun g hg => hc.written.frames g (List.mem_cons_of_mem _ hg)
    have hrun : outsideRuns rest = true := by
      cases hc.called with
      | code hout h => exact hout
    constructor
    · intro hsafe' _
      refine ⟨?_, fun g hg hshort => ?_⟩
      · by_contra hpending
        obtain ⟨w, hw⟩ := List.exists_mem_of_length_pos
          (hlen ▸ List.length_pos_iff.mpr hpending : 0 < s.origins.length)
        have hold : w ≤ s.connection := hc.written.origins w hw
        exact not_safe_of_pending hrun hlen hw (by show w ≠ s.connection + 1; omega) hsafe'
      · refine not_safe_of_waiting (s := { s with connection := s.connection + 1 })
          hc.called.rest hrun hc.waiting.1 hlen ⟨g, hg, ?_⟩ hsafe'
        cases g with
        | writeRest buf n writtenFor =>
          intro hfor
          have hnew : writtenFor = s.connection + 1 := hfor hshort
          have hold : writtenFor ≤ s.connection := hrest _ hg hshort
          omega
        | _ => exact absurd hshort id
    · intro hleft
      obtain ⟨hnil, hshort⟩ := hleft rfl
      refine Current.safe ⟨hsafe.now, hlen, fun w hw => ?_, fun g hg => ?_⟩
      · rw [hnil, List.length_nil] at hlen
        rw [List.eq_nil_of_length_eq_zero hlen] at hw
        cases hw
      · cases g with
        | writeRest buf n writtenFor => exact fun h => absurd h (hshort _ hg)
        | write buf writtenFor => exact absurd (hc.waiting.1 _ hg) id
        | _ => trivial

end

theorem new_sound : Sound (Config.start new) :=
  ⟨⟨rfl, by simp [Config.start, new], by simp [Config.start]⟩,
    waiting_of_all (by simp [Config.start]), .nil⟩

theorem new_current : Current (Config.start new) :=
  ⟨by simp [Config.start, new, Faithful], rfl, by simp [Config.start, new], by simp [Config.start]⟩

/-- **What a connection receives.**  A stream is given one socket after another, with any
writes, partial sends and `on_sent` callbacks in between.  Throughout the run every
connection received only bytes written while it was installed, and will, exactly if every
installation finds `pending_data_` empty and no `write` under way that will leave something
in it. -/
theorem received_iff {es : List (Event Op Answer)} {c : Configuration}
    (hr : Runs.run (step object) (Config.start new) es = some c) :
    Runs.Throughout (step object) Safe (Config.start new) es ↔
      Runs.Along (step object) (Before NothingLeft) (Config.start new) es :=
  Runs.throughout_always_iff (J := Sound) (fun _ _ _ hc h => hc.step h)
    (fun _ _ hp => hp.imp fun _ _ _ _ hf hsocket => absurd hsocket hf)
    (fun _ _ _ hc hsafe hp h => safe_installed_iff hc hsafe hp h) new_sound new_current.safe hr

/-- What the first connection left is sent to it before the second is installed. -/
def drainedFirst : List (Event Op Answer) :=
  [.call (.write [1, 2]), .code (.took 1 false), .call .onSent, .code (.took 2 false),
    .call .socket, .code .go, .call (.write [3]), .code (.took 1 false)]

theorem received_iff_drained :
    Runs.Throughout (step object) Safe (Config.start new) drainedFirst := by
  obtain ⟨c, hr, -⟩ : ∃ c, Runs.run (step object) (Config.start new) drainedFirst = some c ∧
      c.state.Faithful := Runs.exists_run (by decide)
  exact (received_iff hr).mpr (by decide)

/-- The first connection takes nothing of `1, 2`.  Once a write to the second comes up short,
`on_sent` sends it what was written to the first. -/
def leftPending : List (Event Op Answer) :=
  [.call (.write [1, 2]), .code (.took 0 false), .call .socket, .code .go,
    .call (.write [3]), .code (.took 0 false), .call .onSent, .code (.took 3 false)]

theorem left_pending :
    ∃ c, Runs.run (step object) (Config.start new) leftPending = some c ∧
      c.state.handed = [⟨1, 1, 0⟩, ⟨2, 1, 0⟩, ⟨3, 1, 1⟩] ∧ ¬ c.state.Faithful :=
  Runs.exists_run (by decide)

end StreamConnections
end AcppNetwork
