import AcppNetwork.LinuxEndOfStream
import AcppNetwork.SecureStream
import AcppNetwork.SslInbound

/-!
# The ciphertext on its way up

What `recv` returns reaches the engine through the two layers: `handle_event` calls the
`on_received` that `callback_init` installed, and the TLS layer feeds the chunk to the engine.
A chunk of `recv` is at most 4096 bytes, so its length is an `int`; whether it fits into what is
left of the pair is another matter (`Ssl.FedWhole`).  In every run in which it does, and in which
a chunk is not handed up while another one is being fed, the engine gets what `recv` returned,
in order (`ciphertext_received`).
-/
namespace AcppNetwork

/-- The bytes that are given to a callback. -/
def Linux.Callback.bytes : Linux.Callback → List Byte
  | .onReceived buffer => buffer
  | _ => []

theorem Linux.Callback.bytes_notInput {cb : Linux.Callback} (h : cb.isInput = false) :
    cb.bytes = [] := by
  cases cb <;> first | rfl | cases h

namespace StreamOnLinux

open Reentrant

/-- What `recv` returns with a stretch of code. -/
def stretchReceives (s : StreamOnLinux) : Frame → Answer → List Byte
  | .readBranch _, .recv (.received buffer) =>
      if s.socket.pimpl.callbacks.onReceived || s.socket.pimpl.callbacks.onDisconnected then buffer
      else []
  | _, _ => []

/-- What `recv` returns with an event. -/
def receives (c : Configuration) (e : Event Op Answer) : List Byte :=
  match e.answer?, c.stack with
  | some a, .code f :: _ => c.state.stretchReceives f a
  | _, _ => []

/-- What `recv` returned in a run, in order. -/
def received (s : StreamOnLinux) (es : List (Event Op Answer)) : List Byte :=
  Runs.trace (step object) receives (Config.start s) es

section
variable {s : StreamOnLinux} {f : Frame} {a : Answer} {out : Next}

/-- A callback of a stretch that is given bytes is given those of `recv`. -/
def Delivers (s : StreamOnLinux) (f : Frame) (a : Answer) (out : Next) : Prop :=
  (out.throws = false → out.callOuts.flatMap Linux.Callback.bytes = s.stretchReceives f a) ∧
    ∀ k ∈ out.callOuts, k.bytes.length ≤ 4096

/-- Nothing is received, and no callback is given bytes. -/
theorem delivers_nothing (hnone : s.stretchReceives f a = [])
    (hcalls : ∀ k ∈ out.callOuts, k.bytes = []) : s.Delivers f a out := by
  refine ⟨fun _ => ?_, fun k hk => by rw [hcalls k hk]; exact Nat.zero_le _⟩
  rw [hnone]
  exact List.flatMap_eq_nil_iff.mpr hcalls

theorem callThen_bytes {t : StreamOnLinux} {g : Frame} {failures : List Linux.Failure}
    {cb : Option Linux.Callback} (h : ∀ k ∈ cb, k.isInput = false) :
    ∀ k ∈ (t.callThen g failures cb).callOuts, k.bytes = [] := by
  cases cb with
  | none => simp [callThen, Outcome.callOuts]
  | some k =>
    intro k' hk'
    obtain rfl := List.mem_singleton.mp hk'
    exact Linux.Callback.bytes_notInput (h k' rfl)

/-- `on_sent` writes, and calls `on_error` at most. -/
theorem onSent_bytes {events : Linux.Events} {as : List Linux.Send} {before : List Linux.Failure}
    (h : s.onSent events as before = some out) : ∀ k ∈ out.callOuts, k.bytes = [] := by
  unfold onSent at h
  split at h
  · obtain ⟨w, hw, rfl⟩ := Option.map_eq_some_iff.mp h
    cases hcb : w.callback with
    | none => simp [Outcome.callOuts]
    | some cb =>
      intro k hk
      obtain rfl := List.mem_singleton.mp hk
      exact Linux.Callback.bytes_notInput (Linux.Socket.soWrite_notInput hw hcb)
  · obtain ⟨-, h⟩ := Option.ite_none_right_eq_some.mp h
    cases h
    simp [Outcome.callOuts]

/-- The part of `handle_event` for `EPOLLOUT` receives nothing. -/
theorem wake_bytes {events : Linux.Events} {refused : Option Nat} {soError : Nat}
    {as : List Linux.Send} (h : s.wake events refused soError as = some out) :
    ∀ k ∈ out.callOuts, k.bytes = [] := by
  have hcb : ∀ k ∈ (s.socket.writeBranch refused soError).2.1, k.isInput = false :=
    fun k hk => Linux.Socket.writeBranch_notInput hk
  unfold wake at h
  split at h
  · exact onSent_bytes h
  · rename_i heq
    rw [heq] at hcb
    obtain ⟨-, hout⟩ := Option.ite_none_right_eq_some.mp h
    obtain rfl := Option.some.inj hout
    exact callThen_bytes hcb

/-- The part for `EPOLLIN` hands what `recv` returned to `on_received`. -/
theorem receive_delivers {events : Linux.Events} {r : Linux.Recv} (h : s.receive r = some out) :
    s.Delivers (.readBranch events) (.recv r) out := by
  unfold receive at h
  obtain ⟨⟨-, hreceives⟩, h⟩ := Option.ite_none_right_eq_some.mp h
  cases r with
  | failed e =>
    split at h
    · rename_i t cb heq
      obtain rfl := Option.some.inj h
      refine delivers_nothing rfl (callThen_bytes fun k hk => ?_)
      by_contra hin
      subst hk
      obtain ⟨buffer, hbuffer, -⟩ :=
        Linux.Socket.receiveBranch_input heq (Bool.not_eq_false _ ▸ hin)
      cases hbuffer
    · cases h
      exact ⟨fun hthrows => (by cases hthrows), by simp [Outcome.callOuts]⟩
  | received buffer =>
    unfold Linux.Socket.receiveBranch at h
    by_cases hset : (s.socket.pimpl.callbacks.onReceived ||
        s.socket.pimpl.callbacks.onDisconnected) = true
    · have hreceived : s.stretchReceives (.readBranch events) (.recv (.received buffer)) =
          buffer := if_pos hset
      rw [if_pos hset] at h
      cases buffer with
      | nil =>
        cases hcall : s.socket.pimpl.callbacks.call? .onDisconnected with
        | none =>
          simp only [hcall] at h
          cases h
          exact ⟨fun hthrows => (by cases hthrows), by simp [Outcome.callOuts]⟩
        | some cb =>
          obtain rfl := Linux.Callbacks.call?_eq_some hcall
          simp only [hcall] at h
          cases h
          refine delivers_nothing hreceived fun k hk => ?_
          obtain rfl := List.mem_singleton.mp hk
          rfl
      | cons b rest =>
        cases hcall : s.socket.pimpl.callbacks.call? (.onReceived (b :: rest)) with
        | none =>
          simp only [hcall] at h
          cases h
          exact ⟨fun hthrows => (by cases hthrows), by simp [Outcome.callOuts]⟩
        | some cb =>
          obtain rfl := Linux.Callbacks.call?_eq_some hcall
          simp only [hcall] at h
          cases h
          refine ⟨fun _ => ?_, fun k hk => ?_⟩
          · rw [hreceived]
            exact List.append_nil _
          · obtain rfl := List.mem_singleton.mp hk
            exact hreceives.2
    · rw [if_neg hset] at h
      cases h
      exact delivers_nothing (if_neg hset) (by simp [callThen, Outcome.callOuts])

/-- **What `recv` returns is handed up**, in pieces of at most 4096 bytes. -/
theorem resume_delivers (h : resume s f a = some out) : s.Delivers f a out := by
  cases f with
  | write buf =>
    cases a with
    | sends as =>
      obtain ⟨w, hw, rfl⟩ := Option.map_eq_some_iff.mp h
      refine delivers_nothing rfl fun k hk => ?_
      cases hcb : w.callback with
      | none => simp [hcb, Outcome.callOuts] at hk
      | some cb =>
        simp only [hcb, Outcome.callOuts, List.mem_singleton] at hk
        rw [hk]
        exact Linux.Callback.bytes_notInput (Linux.Socket.soWrite_notInput hw hcb)
    | _ => cases h
  | event events =>
    cases a with
    | wake refused soError as =>
      exact delivers_nothing rfl (wake_bytes (Option.ite_none_right_eq_some.mp h).2)
    | go =>
      cases (Option.ite_none_left_eq_some.mp h).2
      exact delivers_nothing rfl (by simp [Outcome.callOuts])
    | _ => cases h
  | readBranch events =>
    cases a with
    | recv r => exact receive_delivers (Option.ite_none_right_eq_some.mp h).2
    | go =>
      cases (Option.ite_none_left_eq_some.mp h).2
      exact delivers_nothing rfl (by simp [Outcome.callOuts])
    | _ => cases h
  | connect | writeRest | disconnect | sentRest | done =>
    cases a <;> cases h
    exact delivers_nothing rfl (by simp [Outcome.callOuts])

/-- In a run without exceptions the bytes that `recv` returned are those given to `on_received`. -/
theorem received_delivered {es : List (Event Op Answer)} {c : Configuration}
    (hr : Runs.run (step object) (Config.start s) es = some c)
    (hno : Runs.Along (step object) (fun _ e => NoThrow e) (Config.start s) es) :
    (callOuts c.log).flatMap Linux.Callback.bytes = s.received es := by
  refine Eq.symm (Runs.trace_invariant
    (I := fun c taken => taken = (callOuts c.log).flatMap Linux.Callback.bytes)
    (fun c e c' taken hI hno hstep => ?_) rfl hno hr)
  have hreceives : ∀ {f : Frame} {rest : List (Act Frame Linux.Callback)} {a : Answer},
      e.answer? = some a → c.stack = .code f :: rest →
      receives c e = c.state.stretchReceives f a := by
    intro f rest a ha hstack
    unfold receives
    rw [ha, hstack]
  cases Step.of_step hstep with
  | call o hout => rw [hI]; simp [receives, Event.answer?]
  | back => rw [hI]; simp [receives, Event.answer?]
  | unwind => exact hno.elim
  | goto hres =>
    have hdelivers := (resume_delivers hres).1 rfl
    rw [hI, hreceives rfl rfl, ← hdelivers]
    simp [Outcome.callOuts]
  | callOut hres =>
    have hdelivers := (resume_delivers hres).1 rfl
    rw [hI, hreceives rfl rfl, ← hdelivers]
    simp [Outcome.callOuts]
  | ret hres =>
    have hdelivers := (resume_delivers hres).1 rfl
    rw [hI, hreceives rfl rfl, ← hdelivers]
    simp [Outcome.callOuts]

end

end StreamOnLinux

namespace SecureStream

open Reentrant

/-- Nobody but the transport hands ciphertext to the TLS layer. -/
def OnlyTransport : Choice → Prop
  | .call ⟨.tls, .onReceived buf⟩ => buf = []
  | _ => True

instance (e : Choice) : Decidable (OnlyTransport e) := by
  rcases e with ⟨i, o⟩ | a | ⟨a, depth⟩ | _
  · rcases i with ⟨⟩
    · rcases o with ⟨⟩ <;> unfold OnlyTransport <;> infer_instance
    · exact .isTrue trivial
  all_goals exact .isTrue trivial

/-- The condition: no exception leaves an activation, only the transport hands ciphertext to the
TLS layer, each chunk of it when no other one is to be fed, and the pair takes what it is given
(`Ssl.FedWhole`). -/
def CiphertextFed (c : Configuration) (e : Choice) : Prop :=
  (NoThrow e ∧ OnlyTransport e) ∧
    network.On .tls (fun c e => Before Ssl.FedWhole c e ∧ OnCall Ssl.InTurn c e) c e

instance (c : Configuration) (e : Choice) : Decidable (CiphertextFed c e) := by
  unfold CiphertextFed
  infer_instance

/-- The TLS layer is handed what the transport delivers. -/
theorem arrived_eq_delivered {s : Network.State (Of Ssl.Stream StreamOnLinux)} {es : List Choice}
    {c : Configuration} (hr : Runs.run (step network.object) (Config.start s) es = some c)
    (hp : Runs.Along (step network.object) (fun _ e => NoThrow e ∧ OnlyTransport e)
      (Config.start s) es) :
    Ssl.arrived (tls c).log = (callOuts (transport c).log).flatMap Linux.Callback.bytes := by
  refine passed (N := network) (j := Layer.tls) (i := Layer.transport)
    (g := Ssl.Op.chunk) (h := Linux.Callback.bytes) ?_ hr (hp.imp fun c e h => ?_)
  · intro m k
    cases m with
    | tls => cases k <;> rfl
    | transport => cases k <;> rfl
  · refine ⟨h.1, fun o ho => ?_⟩
    subst ho
    cases o <;> first | rfl | exact h.2

/-- The chunks are those of `recv`. -/
theorem on_short {c : Configuration} {e : Choice} (h : OnlyTransport e) :
    network.On .tls (OnCall Ssl.Short) c e := by
  have hnil : ([] : List Byte).length < 2147483648 := by decide
  refine Network.on_onCall (j := Layer.tls) (fun o ho => ?_)
    fun i f rest stack a s' g k ns o hc hres hroute => ?_
  · subst ho
    cases o with
    | onReceived buf =>
      obtain rfl : buf = [] := h
      exact hnil
    | _ => exact hnil
  · cases i with
    | tls => cases k <;> cases hroute
    | transport =>
      refine ⟨fun h => (by cases h), ?_⟩
      have hlen := (StreamOnLinux.resume_delivers hres).2 k (List.mem_singleton.mpr rfl)
      cases k <;> cases hroute
      · exact hnil
      · exact hnil
      · exact Nat.lt_of_le_of_lt hlen (by decide)

section
variable {s : Network.State (Of Ssl.Stream StreamOnLinux)} {es : List Choice} {c : Configuration}

/-- What arrives at the TLS layer is what `recv` returned. -/
theorem arrived_received (hr : Runs.run (step network.object) (Config.start s) es = some c)
    (hp : Runs.Along (step network.object) CiphertextFed (Config.start s) es) :
    Ssl.arrived (tls c).log = (s .transport).received (network.ownRun .transport s es) := by
  have hno : Runs.Along (step network.object) (fun _ e => NoThrow e) (Config.start s) es :=
    hp.imp fun _ _ h => h.1.1
  obtain ⟨htransport, -⟩ := view_run (j := Layer.transport) hr hno
  have hdelivered := StreamOnLinux.received_delivered htransport
    (along_noThrow (j := Layer.transport) hr hno)
  exact (arrived_eq_delivered hr (hp.imp fun _ _ h => h.1)).trans hdelivered

/-- The TLS layer feeds what arrives to the engine. -/
theorem consumed_arrived (hs : (s .tls).inbound = [])
    (hr : Runs.run (step network.object) (Config.start s) es = some c)
    (hp : Runs.Along (step network.object) CiphertextFed (Config.start s) es) :
    Ssl.consumed (s .tls) (network.ownRun .tls s es) ++ (tls c).state.inbound ++
      Ssl.unfed (frames (tls c).stack) = Ssl.arrived (tls c).log := by
  have hno : Runs.Along (step network.object) (fun _ e => NoThrow e) (Config.start s) es :=
    hp.imp fun _ _ h => h.1.1
  obtain ⟨htls, -⟩ := view_run (j := Layer.tls) hr hno
  have hfed := along_view hr hno (hp.imp fun _ _ h => h.2)
  have hshort := along_view hr hno (hp.imp fun _ _ h => on_short h.1.2)
  exact Ssl.ciphertext_consumed hs htls (hfed.and hshort)

end

/-- **The engine gets what `recv` returned, in order.**  At every configuration of a run that
meets the condition, what the engine took from the pair, what is in it, and what activations have
still to feed, is what `recv` returned. -/
theorem ciphertext_received {side : Ssl.Side} {hostname : String} {capacity : Nat}
    {socket : StreamOnLinux} {es : List Choice} {c : Configuration}
    (hr : Runs.run (step network.object) (Config.start (created side hostname capacity socket)) es
      = some c)
    (hp : Runs.Along (step network.object) CiphertextFed
      (Config.start (created side hostname capacity socket)) es) :
    Ssl.consumed (Ssl.Stream.new side hostname capacity)
          (network.ownRun .tls (created side hostname capacity socket) es) ++
        (tls c).state.inbound ++ Ssl.unfed (frames (tls c).stack) =
      socket.received (network.ownRun .transport (created side hostname capacity socket) es) :=
  (consumed_arrived rfl hr hp).trans (arrived_received hr hp)

/-- The server's flight arrives, and the engine takes it. -/
theorem ciphertext_received_handshake :
    ∃ c, Runs.run (step network.object)
        (Config.start (created .client "" 5120 (StreamOnLinux.created 5 false))) handshakeRun
          = some c ∧
      (StreamOnLinux.created 5 false).received (network.ownRun .transport
        (created .client "" 5120 (StreamOnLinux.created 5 false)) handshakeRun) = [2] ∧
      Ssl.consumed (Ssl.Stream.new .client "" 5120) (network.ownRun .tls
        (created .client "" 5120 (StreamOnLinux.created 5 false)) handshakeRun) ++
          (tls c).state.inbound ++ Ssl.unfed (frames (tls c).stack) = [2] := by
  obtain ⟨c, hr, -⟩ :
      ∃ c, Runs.run (step network.object)
          (Config.start (created .client "" 5120 (StreamOnLinux.created 5 false))) handshakeRun
            = some c ∧ (tls c).state.status = .connected :=
    Runs.exists_run (by decide)
  have hreceived : (StreamOnLinux.created 5 false).received (network.ownRun .transport
      (created .client "" 5120 (StreamOnLinux.created 5 false)) handshakeRun) = [2] := by decide
  exact ⟨c, hr, hreceived, (ciphertext_received hr (by decide)).trans hreceived⟩

end SecureStream
end AcppNetwork
