import AcppNetwork.LinuxSoWrite
import AcppNetwork.Refinement
import AcppNetwork.StreamOnLinux
import Mathlib

/-!
# The bytes of `socket_stream` over the Linux backend

`SocketStream` speaks of `write` and `on_sent` as calls that the socket answers with a count.
Here they are the activations of `StreamOnLinux`: `so_write` sends in a loop, and if a send
fails, `on_error` runs in the middle of the call, before the stream looks at the count.

What the kernel took, followed by what the stream has still to send, is what it was asked to
write (`sent_in_order`), if each `write` meets the condition of `SocketStream`, the error
callback of an unfinished one neither writes nor handles an `EPOLLOUT` event, and no exception
leaves one.
-/
namespace AcppNetwork

/-- What the sends of a call of `so_write` take. -/
def Linux.Send.total (as : List Linux.Send) : Nat := (as.map Linux.Send.count).sum

open Linux (Send)

/-- `so_write` returns what its sends took, and they take no more than there is. -/
theorem Linux.Socket.soWrite_total {s : Linux.Socket} {buffer : List Byte} {as : List Send}
    {w : Linux.Socket.Written} (h : s.soWrite buffer as = some w) :
    w.n = Send.total as ∧ w.n ≤ buffer.length := by
  induction as generalizing s buffer w with
  | nil => cases h
  | cons a as ih =>
    rw [soWrite] at h
    dsimp only at h
    obtain ⟨hanswers, h⟩ := Option.ite_none_right_eq_some.mp h
    have hcount := soWriteInternal_n s a
    have hle : a.count ≤ buffer.length := by
      cases a with
      | sent n => exact Nat.le_trans hanswers.2.1 (Nat.min_le_left _ _)
      | failed e refused => exact Nat.zero_le _
    split at h
    · -- the turn that sends nothing is the last one
      obtain ⟨rfl, h⟩ := Option.ite_none_right_eq_some.mp h
      cases h
      exact ⟨by simp [Send.total, hcount], hcount ▸ hle⟩
    · obtain ⟨w', hw', rfl⟩ := Option.map_eq_some_iff.mp h
      obtain ⟨hn, hrest⟩ := ih hw'
      rw [List.length_drop] at hrest
      refine ⟨?_, ?_⟩
      · show (s.soWriteInternal a).n + w'.n = _
        rw [hn, hcount]
        simp [Send.total]
      · show (s.soWriteInternal a).n + w'.n ≤ _
        omega

namespace StreamOnLinux

open Reentrant

/-- What the kernel takes with a stretch of code: of the argument of `write`, or, in `on_sent`,
of the pending data. -/
def stretchTakes (s : StreamOnLinux) : Frame → Answer → List Byte
  | .write buf, .sends as => buf.take (Send.total as)
  | .event _, .wake _ _ as => s.stream.pendingData.take (Send.total as)
  | _, _ => []

/-- What the kernel takes with an event. -/
def takes (c : Configuration) (e : Event Op Answer) : List Byte :=
  match e.answer?, c.stack with
  | some a, .code f :: _ => c.state.stretchTakes f a
  | _, _ => []

/-- What the kernel took in a run, in order. -/
def sent (s : StreamOnLinux) (es : List (Event Op Answer)) : List Byte :=
  Runs.trace (step object) takes (Config.start s) es

/-- The argument of a call of `write`. -/
def Op.bytes : Op → List Byte
  | .write buf => buf
  | _ => []

/-- What the stream was asked to write, in order. -/
def asked (l : List (Label Op Linux.Callback Result Linux.Failure)) : List Byte :=
  (calls l).flatMap Op.bytes

/-- What the stream has still to send; the innermost activation that is in a write may have to
add its argument to the pending data, or to take from them what was sent. -/
def unsent (stream : SocketStream) : List Frame → List Byte
  | [] => stream.pendingData
  | .write buf :: _ => stream.pendingData ++ buf
  | .writeRest buf n :: _ => (stream.write buf n).1.pendingData
  | .sentRest _ n :: _ => (stream.onSent n).pendingData
  | .connect :: fs | .disconnect :: fs | .event _ :: fs | .readBranch _ :: fs | .done :: fs =>
      unsent stream fs

/-- The condition on the stretches: a `write` is one that keeps `socket_stream` in order. -/
def WritesInOrder (s : StreamOnLinux) (f : Frame) (_ : List Frame) (a : Answer) : Prop :=
  match f, a with
  | .write buf, .sends as =>
      (SocketStream.Call.write buf (Send.total as)).InOrder ⟨s.stream, [], []⟩
  | _, _ => True

/-- The operation may send: it is a `write`, or `handle_event` of an `EPOLLOUT` event. -/
def Op.writes : Op → Bool
  | .write _ => true
  | .event events => events.epollout
  | .connect | .disconnect => false

/-- The condition on the calls: none that may send comes in the middle of a write, from its
error callback. -/
def NotInWrite (_ : StreamOnLinux) (fs : List Frame) (o : Op) : Prop :=
  o.writes = true → ∀ f ∈ fs, f.Settled

/-- The condition on the exceptions: none is thrown in the middle of a write. -/
def NoWriteLeft (c : Configuration) : Event Op Answer → Prop
  | .unwind _ _ => ∀ f ∈ frames c.stack, f.Settled
  | _ => True

/-- The conditions of `sent_in_order`. -/
def Orderly (c : Configuration) (e : Event Op Answer) : Prop :=
  Before WritesInOrder c e ∧ OnCall NotInWrite c e ∧ NoWriteLeft c e

instance : (f : Frame) → Decidable f.Settled
  | .writeRest _ _ | .sentRest _ _ => .isFalse id
  | .connect | .write _ | .disconnect | .event _ | .readBranch _ | .done => .isTrue trivial

instance (s : StreamOnLinux) (f : Frame) (fs : List Frame) (a : Answer) :
    Decidable (s.WritesInOrder f fs a) := by
  rcases f with ⟨⟩ <;> rcases a with ⟨⟩ <;> unfold WritesInOrder <;> infer_instance

instance (s : StreamOnLinux) (fs : List Frame) (o : Op) : Decidable (s.NotInWrite fs o) := by
  unfold NotInWrite
  infer_instance

/-- The frames an activation waits at while a callback runs. -/
def Frame.Waits : Frame → Prop
  | .writeRest _ _ | .sentRest _ _ | .readBranch _ | .done => True
  | _ => False

section
variable {s : StreamOnLinux} {f : Frame} {fs : List Frame} {a : Answer} {out : Next}
  {given : List Byte} {buf : List Byte} {as : List Send} {events : Linux.Events}

/-- An activation that is, or may come to be, in a write. -/
def Frame.Writes : Frame → Prop
  | .write _ | .writeRest _ _ | .sentRest _ _ => True
  | .event events => events.epollout = true
  | .connect | .disconnect | .readBranch _ | .done => False

/-- Frames that wait outside a write. -/
def Rest (fs : List Frame) : Prop := ∀ g ∈ fs, g.Waits ∧ g.Settled

variable {stream : SocketStream}

/-- They leave the pending data as they are. -/
theorem unsent_rest (h : Rest fs) : unsent stream fs = stream.pendingData := by
  induction fs with
  | nil => rfl
  | cons g fs ih =>
    obtain ⟨⟨hwait, hset⟩, hrest⟩ := List.forall_mem_cons.mp h
    cases g with
    | connect | write | disconnect | event => exact hwait.elim
    | writeRest | sentRest => exact hset.elim
    | readBranch | done => exact ih hrest

theorem unsent_readBranch (h : Rest fs) :
    unsent stream (.readBranch events :: fs) = stream.pendingData := by
  rw [unsent]
  exact unsent_rest h

theorem total_nil : Send.total [] = 0 := rfl

@[simp] theorem callThen_state (f : Frame) (failures : List Linux.Failure)
    (cb : Option Linux.Callback) : (s.callThen f failures cb).state = s := by
  cases cb <;> rfl

@[simp] theorem callThen_frames (f : Frame) (failures : List Linux.Failure)
    (cb : Option Linux.Callback) : (s.callThen f failures cb).frames = [f] := by
  cases cb <;> rfl

theorem callThen_throws (f : Frame) (failures : List Linux.Failure)
    (cb : Option Linux.Callback) : (s.callThen f failures cb).throws = false := by
  cases cb <;> rfl

/-- `write` gives the kernel some bytes and keeps some back; in order, if it meets the
condition. -/
theorem write_unsent (hp : s.WritesInOrder (.write buf) fs (.sends as)) (hrest : Rest fs)
    (h : s.write buf as = some out) :
    (given ++ buf.take (Send.total as)) ++ unsent out.state.stream (out.frames ++ fs) =
      given ++ (s.stream.pendingData ++ buf) := by
  obtain ⟨w, hw, rfl⟩ := Option.map_eq_some_iff.mp h
  obtain ⟨hn, hle⟩ := Linux.Socket.soWrite_total hw
  have hfifo := (SocketStream.fifo_write (s := ⟨s.stream, given, given ++ s.stream.pendingData⟩)
    rfl hle).mpr (hn ▸ hp)
  have hbytes : (given ++ buf.take (Send.total as)) ++ (s.stream.write buf w.n).1.pendingData =
      given ++ s.stream.pendingData ++ buf := hn ▸ hfifo
  rw [List.append_assoc given s.stream.pendingData] at hbytes
  cases hcb : w.callback with
  | some cb => exact hbytes
  | none =>
    simp only [Outcome.frames, Outcome.state, List.nil_append]
    rw [unsent_rest hrest]
    exact hbytes

/-- `on_sent` gives the kernel pending data and erases what was taken. -/
theorem onSent_unsent {before : List Linux.Failure} (hrest : Rest fs)
    (h : s.onSent events as before = some out) :
    (given ++ s.stream.pendingData.take (Send.total as)) ++
        unsent out.state.stream (out.frames ++ fs) =
      given ++ s.stream.pendingData := by
  rw [StreamOnLinux.onSent] at h
  by_cases hpending : s.stream.pendingData ≠ []
  · rw [if_pos hpending] at h
    obtain ⟨w, hw, rfl⟩ := Option.map_eq_some_iff.mp h
    obtain ⟨hn, -⟩ := Linux.Socket.soWrite_total hw
    have hbytes : (given ++ s.stream.pendingData.take (Send.total as)) ++
        (s.stream.onSent w.n).pendingData = given ++ s.stream.pendingData := by
      rw [SocketStream.onSent_pendingData, hn, List.append_assoc, List.take_append_drop]
    cases hcb : w.callback with
    | some cb => exact hbytes
    | none =>
      rw [← hbytes]
      exact congrArg _ (unsent_readBranch hrest)
  · rw [if_neg hpending] at h
    obtain ⟨rfl, h⟩ := Option.ite_none_right_eq_some.mp h
    cases h
    rw [total_nil, List.take_zero, List.append_nil]
    exact congrArg _ (unsent_readBranch hrest)

/-- An `EPOLLOUT` event. -/
theorem wake_unsent {refused : Option Nat} {soError : Nat} (hrest : Rest fs)
    (h : s.wake events refused soError as = some out) :
    (given ++ s.stream.pendingData.take (Send.total as)) ++
        unsent out.state.stream (out.frames ++ fs) =
      given ++ s.stream.pendingData := by
  rw [wake] at h
  split at h
  next socket _ failures _ => exact onSent_unsent (s := { s with socket := socket }) hrest h
  · obtain ⟨rfl, h⟩ := Option.ite_none_right_eq_some.mp h
    obtain rfl := Option.some.inj h
    rw [total_nil, List.take_zero, List.append_nil, callThen_state, callThen_frames]
    exact congrArg _ (unsent_readBranch hrest)

/-- After an `EPOLLOUT` event the read branch is still to come. -/
theorem wake_frames {refused : Option Nat} {soError : Nat}
    (h : s.wake events refused soError as = some out) :
    out.throws = false ∧
      ∃ g, out.frames = [g] ∧ (g = .readBranch events ∨ ∃ n, g = .sentRest events n) := by
  rw [wake] at h
  split at h
  · rw [StreamOnLinux.onSent] at h
    split at h
    · obtain ⟨w, -, rfl⟩ := Option.map_eq_some_iff.mp h
      cases w.callback with
      | some cb => exact ⟨rfl, _, rfl, .inr ⟨w.n, rfl⟩⟩
      | none => exact ⟨rfl, _, rfl, .inl rfl⟩
    · obtain ⟨-, h⟩ := Option.ite_none_right_eq_some.mp h
      cases h
      exact ⟨rfl, _, rfl, .inl rfl⟩
  · obtain ⟨-, h⟩ := Option.ite_none_right_eq_some.mp h
    obtain rfl := Option.some.inj h
    exact ⟨callThen_throws .., _, callThen_frames .., .inl rfl⟩

/-- The read branch sends nothing. -/
theorem receive_unsent {kept : List Frame} {b : Linux.Recv}
    (hkept : unsent s.stream kept = unsent s.stream fs) (h : s.receive b = some out) :
    unsent out.state.stream (out.frames ++ kept) = unsent s.stream fs := by
  rw [receive] at h
  obtain ⟨-, h⟩ := Option.ite_none_right_eq_some.mp h
  split at h
  · obtain rfl := Option.some.inj h
    rw [callThen_state, callThen_frames]
    exact hkept
  · obtain rfl := Option.some.inj h
    exact hkept

/-- The read branch is the last part of `handle_event`. -/
theorem receive_frames {b : Linux.Recv} (h : s.receive b = some out) :
    ∀ g ∈ out.frames, g = .done := by
  intro g hg
  rw [receive] at h
  obtain ⟨-, h⟩ := Option.ite_none_right_eq_some.mp h
  split at h
  · obtain rfl := Option.some.inj h
    rw [callThen_frames] at hg
    exact List.mem_singleton.mp hg
  · obtain rfl := Option.some.inj h
    cases hg

/-- **Every stretch of code keeps the bytes in order**, if it meets the condition, and finds no
other activation in a write if it may write or throws. -/
theorem resume_unsent {kept : List Frame} (hp : s.WritesInOrder f fs a)
    (hrest : f.Writes ∨ out.throws = true → Rest fs) (hsuffix : kept <:+ fs)
    (hkept : out.throws = false → kept = fs) (h : resume s f a = some out) :
    (given ++ s.stretchTakes f a) ++ unsent out.state.stream (out.frames ++ kept) =
      given ++ unsent s.stream (f :: fs) := by
  have hsame : unsent s.stream kept = unsent s.stream fs := by
    cases hthrows : out.throws with
    | false => rw [hkept hthrows]
    | true =>
      have hall := hrest (.inr hthrows)
      rw [unsent_rest hall, unsent_rest fun g hg => hall g (hsuffix.subset hg)]
  -- a stretch that gives the kernel nothing
  have nothing : s.stretchTakes f a = [] →
      unsent out.state.stream (out.frames ++ kept) = unsent s.stream (f :: fs) →
      (given ++ s.stretchTakes f a) ++ unsent out.state.stream (out.frames ++ kept) =
        given ++ unsent s.stream (f :: fs) := by
    intro htakes hunsent
    rw [htakes, List.append_nil, hunsent]
  cases f with
  | connect | disconnect =>
    cases a <;> cases h
    exact nothing rfl hsame
  | writeRest =>
    cases a <;> cases h
    refine nothing rfl ?_
    rw [hkept rfl]
    exact unsent_rest (hrest (.inl trivial))
  | write buf =>
    cases a with
    | sends as =>
      have hthrows : out.throws = false := by
        obtain ⟨w, -, rfl⟩ := Option.map_eq_some_iff.mp h
        cases w.callback <;> rfl
      rw [hkept hthrows]
      exact write_unsent hp (hrest (.inl trivial)) h
    | _ => cases h
  | event events =>
    cases a with
    | wake refused soError as =>
      obtain ⟨hout, h⟩ := Option.ite_none_right_eq_some.mp h
      have hall := hrest (.inl hout)
      rw [hkept (wake_frames h).1]
      show _ = given ++ unsent s.stream fs
      rw [unsent_rest hall]
      exact wake_unsent hall h
    | go =>
      obtain ⟨-, h⟩ := Option.ite_none_left_eq_some.mp h
      cases h
      exact nothing rfl hsame
    | _ => cases h
  | sentRest events n =>
    cases a <;> cases h
    refine nothing rfl ?_
    rw [hkept rfl]
    exact unsent_readBranch (hrest (.inl trivial))
  | readBranch events =>
    cases a with
    | recv b =>
      obtain ⟨-, h⟩ := Option.ite_none_right_eq_some.mp h
      exact nothing rfl (receive_unsent hsame h)
    | go =>
      obtain ⟨-, h⟩ := Option.ite_none_left_eq_some.mp h
      cases h
      exact nothing rfl hsame
    | _ => cases h
  | done =>
    cases a <;> cases h
    exact nothing rfl hsame

/-- An activation comes to be in a write only if it may. -/
theorem resume_writes {g : Frame} (h : resume s f a = some out) (hg : g ∈ out.frames)
    (hwrites : g.Writes) : f.Writes := by
  cases f with
  | write | writeRest | sentRest => exact trivial
  | event events =>
    cases a with
    | wake refused soError as => exact (Option.ite_none_right_eq_some.mp h).1
    | go =>
      obtain ⟨-, h⟩ := Option.ite_none_left_eq_some.mp h
      cases h
      cases List.mem_singleton.mp hg
      exact hwrites.elim
    | _ => cases h
  | readBranch events =>
    cases a with
    | recv b =>
      obtain ⟨-, h⟩ := Option.ite_none_right_eq_some.mp h
      cases receive_frames h g hg
      exact hwrites.elim
    | go =>
      obtain ⟨-, h⟩ := Option.ite_none_left_eq_some.mp h
      cases h
      cases List.mem_singleton.mp hg
      exact hwrites.elim
    | _ => cases h
  | connect | disconnect | done =>
    cases a <;> cases h
    cases hg

/-- What was taken and what is still to be sent is what was asked for, and no activation called
an operation that may send from the middle of a write. -/
structure InOrder (c : Configuration) (taken : List Byte) : Prop where
  bytes : taken ++ unsent c.state.stream (frames c.stack) = asked c.log
  waiting : Waiting (fun f => f.Waits) c.stack
  alone : (frames c.stack).Pairwise fun f g => f.Writes → g.Settled

/-- A callback runs in the middle of a write, before the read branch, or at the end. -/
theorem resume_waits {s s' : StreamOnLinux} {f g : Frame} {a : Answer} {k : Linux.Callback}
    {ns : List Linux.Failure} (h : resume s f a = some (.callOut s' g k ns)) : g.Waits := by
  cases f with
  | write buf =>
    cases a with
    | sends as =>
      obtain ⟨w, -, hw⟩ := Option.map_eq_some_iff.mp h
      split at hw <;> cases hw
      exact trivial
    | _ => cases h
  | event events =>
    cases a with
    | wake refused soError as =>
      obtain ⟨-, h⟩ := Option.ite_none_right_eq_some.mp h
      obtain ⟨-, g', hg, hor⟩ := wake_frames h
      obtain rfl := List.singleton_inj.mp hg
      rcases hor with rfl | ⟨n, rfl⟩ <;> exact trivial
    | go =>
      obtain ⟨-, h⟩ := Option.ite_none_left_eq_some.mp h
      cases h
    | _ => cases h
  | readBranch events =>
    cases a with
    | recv b =>
      obtain ⟨-, h⟩ := Option.ite_none_right_eq_some.mp h
      cases receive_frames h g (List.mem_singleton.mpr rfl)
      exact trivial
    | go =>
      obtain ⟨-, h⟩ := Option.ite_none_left_eq_some.mp h
      cases h
    | _ => cases h
  | _ => cases a <;> cases h

/-- An operation that may send starts at a frame that may write. -/
theorem enter_writes {o : Op} (h : (enter s o).2.Writes) : o.writes = true := by
  cases o with
  | write => rfl
  | event => exact h
  | connect | disconnect => exact h.elim

/-- What is still to be sent when an operation is called. -/
theorem unsent_enter {o : Op} (hrest : o.writes = true → Rest fs) :
    unsent (enter s o).1.stream ((enter s o).2 :: fs) = unsent s.stream fs ++ o.bytes := by
  cases o with
  | write buf =>
    rw [unsent_rest (hrest rfl)]
    rfl
  | connect | disconnect | event => exact (List.append_nil _).symm

theorem InOrder.step {c c' : Configuration} {e : Event Op Answer} {taken : List Byte}
    (hI : InOrder c taken) (hp : Orderly c e) (h : Step object c e c') :
    InOrder c' (taken ++ takes c e) := by
  obtain ⟨hbefore, honcall, hleft⟩ := hp
  have hwaiting := hI.waiting.step (fun _ _ _ _ _ _ _ hres => resume_waits hres) h
  rcases h.stretch with ⟨o, rfl, hrun, rfl⟩ |
    ⟨f, rest, a, out, kept, hstack, ha, hres, hstate, hsuffix, hkept, hframes, -, -, hcalls⟩ |
    ⟨rfl, hstate, hframes, hlog⟩
  · refine ⟨?_, hwaiting, List.pairwise_cons.mpr ⟨fun g hg hwrites => ?_, hI.alone⟩⟩
    · -- if it may send, nobody is in a write
      have hrest : o.writes = true → Rest (frames c.stack) := fun hwrites g hg =>
        ⟨hI.waiting.2 hrun g hg, honcall hwrites g hg⟩
      show (taken ++ []) ++ unsent (enter c.state o).1.stream
        ((enter c.state o).2 :: frames c.stack) = asked (c.log ++ [.call o])
      rw [List.append_nil, unsent_enter hrest, ← List.append_assoc, hI.bytes, asked, asked,
        calls_append, List.flatMap_append, calls_call, List.flatMap_singleton]
    · exact honcall (enter_writes hwrites) g hg
  · simp only [Before, ha, hstack] at hbefore
    have halone := hI.alone
    have hwaits := hI.waiting.1
    rw [hstack, frames_code] at halone
    rw [hstack] at hwaits
    obtain ⟨hwrites, htail⟩ := List.pairwise_cons.mp halone
    have hrest : f.Writes ∨ out.throws = true → Rest (frames rest) := by
      rintro (hf | hthrows) g hg
      · exact ⟨hwaits g hg, hwrites g hg hf⟩
      · obtain ⟨depth, rfl⟩ := h.unwinds hstack ha hres hthrows
        have hsettled : ∀ g ∈ frames c.stack, g.Settled := hleft
        rw [hstack, frames_code] at hsettled
        exact ⟨hwaits g hg, hsettled g (List.mem_cons_of_mem _ hg)⟩
    have htakes : takes c e = c.state.stretchTakes f a := by
      unfold takes
      rw [ha, hstack]
    refine ⟨?_, hwaiting, ?_⟩
    · have hbytes := hI.bytes
      rw [hstack, frames_code] at hbytes
      rw [htakes, hstate, hframes, asked, hcalls, ← asked, ← hbytes]
      exact resume_unsent hbefore hrest hsuffix hkept hres
    · rw [hframes]
      refine List.pairwise_append.mpr ⟨?_, htail.sublist hsuffix.sublist, fun g hg g' hg' hw => ?_⟩
      · cases out <;> simp [Outcome.frames]
      · exact hwrites g' (hsuffix.subset hg') (resume_writes hres hg hw)
  · refine ⟨?_, hwaiting, hframes ▸ hI.alone⟩
    have htakes : takes c .back = [] := rfl
    rw [htakes, List.append_nil, hstate, hframes, hlog]
    exact hI.bytes

/-- **When the kernel gets the bytes in order.**  At every configuration of a run that meets the
conditions, what the kernel took, followed by what the stream has still to send, is what it was
asked to write, in that order. -/
theorem sent_in_order {es : List (Event Op Answer)} {c : Configuration}
    (hs : s.stream.pendingData = []) (hr : Runs.run (step object) (Config.start s) es = some c)
    (hp : Runs.Along (step object) Orderly (Config.start s) es) :
    s.sent es ++ unsent c.state.stream (frames c.stack) = asked c.log := by
  have hstart : InOrder (Config.start s) [] :=
    ⟨by simp [Config.start, unsent, hs, asked], waiting_of_all (by simp [Config.start]), .nil⟩
  exact (Runs.trace_invariant (I := InOrder)
    (fun c e c' taken hI hp hstep => hI.step hp (Step.of_step hstep)) hstart hp hr).bytes

end

end StreamOnLinux
end AcppNetwork
