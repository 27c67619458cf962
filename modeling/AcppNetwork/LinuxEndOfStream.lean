import AcppNetwork.LinuxConnect

/-!
# The end of a stream

`recv` answers 0 when the peer has closed its side, and goes on answering 0: the end
of a stream stays readable.  `handle_event` calls `on_disconnected` for it and leaves
the socket open, with `EPOLLIN` registered, so the next `epoll_wait` reports the
socket again and `on_disconnected` is called again — unless the callback has closed
the socket (`disconnected_once_iff`).
-/
namespace AcppNetwork
namespace Linux

open Reentrant

/-- It is `on_received` or `on_disconnected`. -/
def Callback.isInput : Callback → Bool
  | .onReceived _ | .onDisconnected => true
  | _ => false

/-- After an `on_disconnected` of `h` there is no other, and no `on_received`. -/
def DisconnectedOnce (h : Nat) (c : Configuration) : Prop :=
  (callbacksOf h (notes c.log)).Pairwise fun cb later =>
    cb = .onDisconnected → later.isInput = false

/-- `on_disconnected` of `h` was called. -/
def Disconnected (h : Nat) (c : Configuration) : Prop :=
  .onDisconnected ∈ callbacksOf h (notes c.log)

/-- The loop is about to call `recv` for `h`, on a descriptor that is open. -/
def Receiving (h : Nat) (c : Configuration) (p : SocketBasePimpl) : Prop :=
  match c.stack with
  | .code (.readBranch x events _) :: _ =>
      x = h ∧ events.epollin = true ∧ c.state.pimpls h = some p ∧ p.listening = false ∧
        c.state.kernel.isOpen p.fd = true
  | _ => False

/-- The end of a stream stays readable: after `on_disconnected`, `recv` answers 0 as
long as the descriptor is open. -/
def EndStays (h : Nat) (c : Configuration) (e : Event Op Answer) : Prop :=
  Disconnected h c → ∀ p ∈ c.state.pimpls h, Receiving h c p →
    ∀ a ∈ e.answer?, a = .recv (.received [])

/-- The condition: a socket that was told of the end of its stream is closed before the
loop calls `recv` for it again, or has no `on_disconnected` any more. -/
def ClosedByThen (h : Nat) (c : Configuration) : Prop :=
  Disconnected h c → ∀ p ∈ c.state.pimpls h, Receiving h c p → p.callbacks.onDisconnected = false

instance (h : Nat) (c : Configuration) : Decidable (Disconnected h c) :=
  inferInstanceAs (Decidable (_ ∈ _))

instance (h : Nat) (c : Configuration) (p : SocketBasePimpl) : Decidable (Receiving h c p) := by
  unfold Receiving
  rcases c.stack with _ | ⟨f | k, _⟩ <;> try infer_instance
  rcases f with ⟨⟩ <;> infer_instance

instance (h : Nat) (c : Configuration) (e : Event Op Answer) : Decidable (EndStays h c e) := by
  unfold EndStays
  infer_instance

instance (h : Nat) (c : Configuration) : Decidable (ClosedByThen h c) := by
  unfold ClosedByThen
  infer_instance

section
variable {w : World} {h : Nat} {f : Frame} {a : Answer} {out : Next} {c c' : Configuration}

/-! ## The callbacks of a stretch -/

/-- `so_write` calls no callback but `on_error`. -/
theorem Socket.soWrite_notInput {s : Socket} {buffer : List Byte} {as : List Send}
    {written : Written} {cb : Callback} (h : s.soWrite buffer as = some written)
    (hcb : written.callback = some cb) : cb.isInput = false := by
  induction as generalizing s buffer written with
  | nil => cases h
  | cons a as ih =>
    obtain ⟨-, ⟨-, rfl⟩ | ⟨written', hrest, rfl⟩⟩ := soWrite_cons h
    · cases a with
      | sent n => cases hcb
      | failed e refused =>
        by_cases he : e = EAGAIN
        · simp [soWriteInternal, he] at hcb
        · simp only [soWriteInternal, if_neg he] at hcb
          rw [Callbacks.call?_eq_some hcb]
          rfl
    · exact ih hrest hcb

/-- The branch for `EPOLLOUT` calls `on_connected`, `on_error` or `on_sent`. -/
theorem Socket.writeBranch_notInput {s : Socket} {refused : Option Nat} {soError : Nat}
    {cb : Callback} (h : (s.writeBranch refused soError).2.1 = some cb) : cb.isInput = false := by
  unfold writeBranch at h
  generalize s.setEvents ⟨true, false⟩ refused = r at h
  obtain ⟨t, failures⟩ := r
  dsimp only at h
  split at h
  · split at h <;> dsimp only at h
    · rw [Callbacks.call?_eq_some h]
      rfl
    · rw [Callbacks.call?_eq_some h]
      rfl
  · dsimp only at h
    rw [Callbacks.call?_eq_some h]
    rfl

/-- What `recv` answered decides the callback. -/
theorem Socket.receiveBranch_input {s t : Socket} {r : Recv} {cb : Callback}
    (h : s.receiveBranch r = (t, .callback (some cb))) (hcb : cb.isInput = true) :
    ∃ buffer, r = .received buffer ∧
      (buffer = [] → s.pimpl.callbacks.onDisconnected = true) := by
  unfold receiveBranch at h
  split at h
  · cases r with
    | received buffer =>
      refine ⟨buffer, rfl, fun hempty => ?_⟩
      subst hempty
      by_contra hset
      simp [Callbacks.call?, hset] at h
    | failed e =>
      have herror : s.pimpl.callbacks.call? (.onError e "recv") = some cb :=
        Delivery.callback.inj (Prod.mk.inj h).2
      rw [Callbacks.call?_eq_some herror] at hcb
      cases hcb
  · cases h

/-- It is not a callback. -/
def Note.Mute (n : Note) : Prop := ∀ x cb, n ≠ .invoked x cb

theorem callbacksOf_append {ns ms : List Note} :
    callbacksOf h (ns ++ ms) = callbacksOf h ns ++ callbacksOf h ms :=
  List.filterMap_append ..

theorem callbacksOf_mute {ns : List Note} (hns : ∀ n ∈ ns, n.Mute) : callbacksOf h ns = [] := by
  refine List.filterMap_eq_nil_iff.mpr fun n hn => ?_
  cases n with
  | invoked x cb => exact absurd rfl (hns _ hn x cb)
  | _ => rfl

theorem closed_mute {ns : List Note} (hns : ∀ n ∈ ns, ∃ x, n = .closed x) : ∀ n ∈ ns, n.Mute := by
  intro n hn x cb
  obtain ⟨y, rfl⟩ := hns n hn
  simp

/-- The `recv` that `on_received` or `on_disconnected` of `x` comes from. -/
def Receives (w : World) (f : Frame) (a : Answer) (x : Nat) : Prop :=
  ∃ events rest p buffer, f = .readBranch x events rest ∧ events.epollin = true ∧
    w.pimpls x = some p ∧ p.listening = false ∧ w.kernel.isOpen p.fd = true ∧
    a = .recv (.received buffer) ∧ (buffer = [] → p.callbacks.onDisconnected = true)

/-- **A stretch calls one callback at most**, last of what it logs; and for
`on_received` and `on_disconnected` it called `recv` of that socket. -/
theorem callback_of_stretch (hs : Stretch w f a out) :
    (∀ n ∈ out.notes, n.Mute) ∨ ∃ ms x cb, out.notes = ms ++ [.invoked x cb] ∧
      (∀ n ∈ ms, n.Mute) ∧ (cb.isInput = true → Receives w f a x) := by
  -- the callback of `callThen`
  have called : ∀ {s : Socket} {g : Frame} {ms : List Note} {cb : Option Callback},
      (∀ n ∈ ms, n.Mute) → (∀ b ∈ cb, b.isInput = true → Receives w f a s.this) →
      (∀ n ∈ (w.callThen s g ms cb).notes, n.Mute) ∨
        ∃ ms' x cb', (w.callThen s g ms cb).notes = ms' ++ [.invoked x cb'] ∧
          (∀ n ∈ ms', n.Mute) ∧ (cb'.isInput = true → Receives w f a x) := by
    intro s g ms cb hms hcb
    cases cb with
    | none => exact .inl hms
    | some cb => exact .inr ⟨ms, s.this, cb, rfl, hms, hcb cb rfl⟩
  cases hs with
  | assign hassign => exact .inl (closed_mute (World.assign_closed hassign))
  | destroy hdestruct | newSocket hdestruct =>
    exact .inl (closed_mute (World.destruct_closed hdestruct))
  | close hclose => exact .inl (closed_mute (World.closeObject_closed hclose))
  | write hs hwrite =>
    refine called (by simp) fun cb hcb hin => ?_
    rw [Socket.soWrite_notInput hwrite hcb] at hin
    cases hin
  | @wake x events rest p refused soError hp hout =>
    refine called ?_ fun cb hcb hin => ?_
    · cases hconn : p.connected <;> simp [wakeNotes, hconn, Note.Mute]
    · rw [Socket.writeBranch_notInput hcb] at hin
      cases hin
  | @accept x events rest p a refused hin hp hlistening ha hopens =>
    cases a with
    | failed e =>
      refine called (by simp [Note.Mute]) fun cb hcb hinput => ?_
      rw [Callbacks.call?_eq_some hcb] at hinput
      cases hinput
    | fd n =>
      simp only [World.acceptBranch]
      split
      · exact .inr ⟨[.reads x true p.valid], x, .onAccepted w.fresh, rfl, by simp [Note.Mute],
          fun h => by cases h⟩
      · exact .inl (by simp [Outcome.notes, Note.Mute])
  | @receive x events rest p r s cb hin hp hlistening ha hreceive =>
    have hthis : s.this = x := by
      have hrearms := (Socket.receiveBranch_rearms ⟨x, w.kernel, p⟩ r).this
      rw [hreceive] at hrearms
      exact hrearms
    refine called (by simp [Note.Mute]) fun b hb hinput => ?_
    rw [Option.mem_def.mp hb] at hreceive
    obtain ⟨buffer, rfl, hset⟩ := Socket.receiveBranch_input hreceive hinput
    exact ⟨events, rest, p, buffer, by rw [hthis], hin, by rw [hthis]; exact hp, hlistening,
      ha.1, rfl, hset⟩
  | _ => exact .inl (by simp [Outcome.notes, Note.Mute])

/-- The end of the stream is told to a socket that has `on_disconnected`. -/
theorem onDisconnected_of_stretch {events : Events} {rest : List Ready} {p : SocketBasePimpl}
    (hs : Stretch w (.readBranch h events rest) (.recv (.received [])) out)
    (hp : w.pimpls h = some p) (hset : p.callbacks.onDisconnected = true) :
    callbacksOf h out.notes = [.onDisconnected] := by
  have hreceiveBranch : Socket.receiveBranch ⟨h, w.kernel, p⟩ (.received []) =
      (⟨h, w.kernel, p⟩, .callback (some .onDisconnected)) := by
    simp [Socket.receiveBranch, Callbacks.call?, hset]
  cases hs with
  | receive hin hp' hlistening ha hreceive =>
    obtain rfl := Option.some.inj (hp.symm.trans hp')
    rw [hreceiveBranch] at hreceive
    cases hreceive
    simp [World.callThen, Outcome.notes, callbacksOf]
  | badFunctionCall hin hp' hlistening ha hreceive =>
    obtain rfl := Option.some.inj (hp.symm.trans hp')
    rw [hreceiveBranch] at hreceive
    cases hreceive

/-! ## The condition -/

/-- The loop is not at a `recv` when a call out or nothing runs. -/
theorem not_receiving_of_outside {p : SocketBasePimpl} (hout : outsideRuns c.stack = true) :
    ¬ Receiving h c p := by
  intro hreceiving
  unfold Receiving at hreceiving
  split at hreceiving
  · rename_i hstack
    rw [hstack] at hout
    cases hout
  · exact hreceiving

/-- The callbacks of `h` that a stretch adds may go on, unless `h` was told of its end. -/
theorem disconnectedOnce_append {ns : List Note} {cs : List Callback}
    (honce : DisconnectedOnce h c) (hlog : notes c'.log = notes c.log ++ ns)
    (hcs : callbacksOf h ns = cs) (hlen : cs.length ≤ 1) :
    DisconnectedOnce h c' ↔ (Disconnected h c → ∀ cb ∈ cs, cb.isInput = false) := by
  unfold DisconnectedOnce Disconnected
  rw [hlog, callbacksOf_append, hcs, List.pairwise_append]
  constructor
  · rintro ⟨-, -, hcross⟩ hdisc cb hcb
    exact hcross _ hdisc cb hcb rfl
  · intro hquiet
    have hsingle : cs.Pairwise fun cb later => cb = .onDisconnected → later.isInput = false := by
      match cs, hlen with
      | [], _ => exact .nil
      | [cb], _ => exact List.pairwise_singleton ..
    refine ⟨honce, hsingle, fun a ha cb hcb heq => ?_⟩
    exact hquiet (heq ▸ ha) cb hcb

/-- **A step keeps it so exactly if** a socket that was told of its end is not asked for
more, or has no `on_disconnected`. -/
theorem disconnectedOnce_step {e : Event Op Answer} (honce : DisconnectedOnce h c)
    (hend : EndStays h c e) (hstep : step object c e = some c') :
    DisconnectedOnce h c' ↔ ClosedByThen h c := by
  rcases (Step.of_step hstep).stretch with ⟨o, -, hout, rfl⟩ |
    ⟨f, rest, a, out, kept, hstack, ha, hres, -, -, -, -, -, hnotes, -⟩ |
    ⟨rfl, -, -, hlog⟩
  · refine ⟨fun _ _ p _ hrec => (not_receiving_of_outside hout hrec).elim, fun _ => ?_⟩
    unfold DisconnectedOnce at honce ⊢
    rw [notes_append, notes_call, List.append_nil]
    exact honce
  · have hs := stretch_of_resume hres
    -- the input callbacks of `h` that this stretch can have called
    obtain ⟨cs, hcs, hlen, hinput⟩ : ∃ cs, callbacksOf h out.notes = cs ∧ cs.length ≤ 1 ∧
        ∀ cb ∈ cs, cb.isInput = true → Receives c.state f a h := by
      rcases callback_of_stretch hs with hmute | ⟨ms, x, cb, hns, hms, hrec⟩
      · exact ⟨[], callbacksOf_mute hmute, by simp, by simp⟩
      · refine ⟨callbacksOf h [.invoked x cb], ?_, List.length_filterMap_le .., ?_⟩
        · rw [hns, callbacksOf_append, callbacksOf_mute hms, List.nil_append]
        · intro cb' hcb' hin
          by_cases hx : x = h
          · subst hx
            simp only [callbacksOf, List.filterMap_cons, if_true, List.filterMap_nil,
              List.mem_singleton] at hcb'
            exact hrec (hcb' ▸ hin)
          · simp [callbacksOf, hx] at hcb'
    rw [disconnectedOnce_append honce hnotes hcs hlen]
    constructor
    · intro hquiet hdisc p hp hrec
      by_contra hset
      rw [Bool.not_eq_false] at hset
      have hrecv := hend hdisc p hp hrec a ha
      subst hrecv
      unfold Receiving at hrec
      rw [hstack] at hrec
      cases f with
      | readBranch x events rest' =>
        obtain ⟨rfl, -⟩ := hrec
        have htold := onDisconnected_of_stretch hs hp hset
        have hmute := hquiet hdisc .onDisconnected (by rw [← hcs, htold]; simp)
        cases hmute
      | _ => exact hrec
    · intro hclosed hdisc cb hcb
      by_contra hin
      rw [Bool.not_eq_false] at hin
      obtain ⟨events, rest', p, buffer, rfl, hepollin, hp, hlistening, hopen, rfl, hset⟩ :=
        hinput cb hcb hin
      have hrec : Receiving h c p := by
        unfold Receiving
        rw [hstack]
        exact ⟨rfl, hepollin, hp, hlistening, hopen⟩
      have hempty := hend hdisc p hp hrec _ ha
      obtain rfl := Recv.received.inj (Answer.recv.inj hempty)
      rw [hclosed hdisc p hp hrec] at hset
      cases hset rfl
  · refine ⟨fun _ _ p _ hrec => (not_receiving_of_outside ?_ hrec).elim, fun _ => ?_⟩
    · cases Step.of_step hstep
      rfl
    · unfold DisconnectedOnce
      rw [hlog]
      exact honce

/-- **When the end of a stream is told once.**  If the end of a stream stays readable,
a socket gets `on_disconnected` at most once and no `on_received` after it, throughout
a run, exactly if in every state of the run in which the loop calls `recv` for a
socket that was told of its end before, its descriptor was closed or its
`on_disconnected` was taken away. -/
theorem disconnected_once_iff {es : List (Event Op Answer)}
    (hr : Runs.run (step object) (Config.start World.new) es = some c)
    (hend : Runs.Along (step object) (EndStays h) (Config.start World.new) es) :
    Runs.Throughout (step object) (DisconnectedOnce h) (Config.start World.new) es ↔
      Runs.Along (step object) (fun c _ => ClosedByThen h c) (Config.start World.new) es :=
  Runs.throughout_iff_along_under (J := fun _ => True) (fun _ _ _ _ _ => trivial)
    (fun _ _ _ _ honce hend hstep => disconnectedOnce_step honce hend hstep) trivial .nil hend hr

end

/-- A socket connects and its peer closes: the loop gets two events of it, with the calls
`ops` of `on_disconnected` after the first. -/
def peerCloses (ops : List (Event Op Answer)) : List (Event Op Answer) :=
  [.call (.socket 2 1 0 ⟨true, true, true, true, false, true⟩), .code (.opened (.fd 3)),
    .call (.connect 0), .code (.call none (some EINPROGRESS)),
    .call .waitForInput, .code .go,
    .code (.ready [some (3, ⟨false, true⟩)]), .code (.wake none 0), .back, .code .go, .code .go,
    .code (.ready [some (3, ⟨true, false⟩)]), .code .go, .code (.recv (.received []))] ++ ops

/-- An `on_disconnected` that closes the socket. -/
theorem disconnected_once_closes :
    ∃ c, Runs.run (step object) (Config.start World.new)
        (peerCloses [.call (.close 0), .code .go, .back, .code .go, .code (.ready [])]) = some c ∧
      Disconnected 0 c ∧
      Runs.Throughout (step object) (DisconnectedOnce 0) (Config.start World.new)
        (peerCloses [.call (.close 0), .code .go, .back, .code .go, .code (.ready [])]) := by
  obtain ⟨c, hr, hdisc⟩ :
      ∃ c, Runs.run (step object) (Config.start World.new)
          (peerCloses [.call (.close 0), .code .go, .back, .code .go, .code (.ready [])])
        = some c ∧ Disconnected 0 c :=
    Runs.exists_run (by decide)
  exact ⟨c, hr, hdisc, (disconnected_once_iff hr (by decide)).mpr (by decide)⟩

/-- One that leaves it open: the loop tells it again. -/
theorem disconnected_again :
    ∃ c, Runs.run (step object) (Config.start World.new)
        (peerCloses [.back, .code .go, .code (.ready [some (3, ⟨true, false⟩)]), .code .go,
          .code (.recv (.received []))]) = some c ∧
      Runs.Along (step object) (EndStays 0) (Config.start World.new)
        (peerCloses [.back, .code .go, .code (.ready [some (3, ⟨true, false⟩)]), .code .go,
          .code (.recv (.received []))]) ∧
      callbacksOf 0 (notes c.log) = [.onConnected, .onDisconnected, .onDisconnected] ∧
      ¬ DisconnectedOnce 0 c := by
  obtain ⟨c, hr, hcallbacks⟩ :
      ∃ c, Runs.run (step object) (Config.start World.new)
          (peerCloses [.back, .code .go, .code (.ready [some (3, ⟨true, false⟩)]), .code .go,
            .code (.recv (.received []))]) = some c ∧
        callbacksOf 0 (notes c.log) = [.onConnected, .onDisconnected, .onDisconnected] :=
    Runs.exists_run (by decide)
  refine ⟨c, hr, by decide, hcallbacks, fun honce => ?_⟩
  unfold DisconnectedOnce at honce
  rw [hcallbacks] at honce
  simp [Callback.isInput] at honce

end Linux
end AcppNetwork
