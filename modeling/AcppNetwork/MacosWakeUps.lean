import AcppNetwork.MacosSpares

/-!
# The wake-ups of the macOS backend

A socket that connects, or whose `send` answers `EAGAIN`, asks for one event of `EVFILT_WRITE`;
the filter goes away with the event.  That of `EVFILT_READ` stays, but is `EV_CLEAR`: bytes that
came make one event, and the loop calls `recv` until it fails or the stream ends.  So a socket
that waits is told only if no event is lost on the way.

Beside a run we observe which sockets wait for an event of either kind (`Wants`).  As long as no
two sockets have the same descriptor, a read event finds a socket with callbacks to read for, and
no exception takes events with it that are waited for (`Mindful`), what a socket waits for is
with the kernel, or with an activation of the loop that is still to handle it (`wake_ups_kept`).
-/
namespace AcppNetwork
namespace Macos

open Reentrant
open Linux (Callbacks Callback Send Recv Opened Result CallOut)

/-- The events an activation has still to handle, that of the socket on which it calls `recv`
among them. -/
def Frame.held : Frame → List Ready
  | .receive h rest => .socket .read h :: rest
  | f => f.events

/-- Those of all the activations. -/
def held (fs : List Frame) : List Ready := fs.flatMap Frame.held

theorem held_append (fs gs : List Frame) : held (fs ++ gs) = held fs ++ held gs :=
  List.flatMap_append

/-- The descriptor that a socket is constructed for. -/
def Frame.adopted : Frame → Option Int
  | .api (.api (.adopt _ _ _ fd _)) => some fd
  | _ => none

/-- The socket whose event of `EVFILT_READ` is handled next. -/
def Frame.nextRead : Frame → Option Nat
  | .batch (.socket .read h :: _) => some h
  | _ => none

/-- The events that an exception through `depth` activations takes with it. -/
def abandoned (depth : Nat) : List (Act Frame CallOut) → List Ready
  | .code f :: rest => f.left ++ held (frames (rest.take depth))
  | _ => []

/-! ## What is observed -/

/-- The sockets that wait for an event of `EVFILT_WRITE`, and those for which bytes came since
`recv` came to an end. -/
structure Wants where
  toWrite : Nat → Bool
  toRead : Nat → Bool

namespace Wants

/-- Nobody waits. -/
def none : Wants := ⟨fun _ => false, fun _ => false⟩

/-- The socket at `h` asks for an event of `EVFILT_WRITE`. -/
def asks (t : Wants) (h : Nat) : Wants := { t with toWrite := Function.update t.toWrite h true }

/-- The event comes. -/
def told (t : Wants) (h : Nat) : Wants := { t with toWrite := Function.update t.toWrite h false }

/-- Bytes come for the socket at `h`. -/
def news (t : Wants) (h : Nat) : Wants := { t with toRead := Function.update t.toRead h true }

/-- `recv` has come to an end. -/
def drained (t : Wants) (h : Nat) : Wants := { t with toRead := Function.update t.toRead h false }

/-- The socket `s` calls `ask_write_event`. -/
def asked (t : Wants) (refused : Option Nat) (s : Socket) : Wants :=
  if s.kernel.changeError s.pimpl.fd refused = Option.none then t.asks s.this else t

/-- The socket `s` calls `write`: the last `send` may have answered `EAGAIN`. -/
def wrote (t : Wants) (as : List Send) (s : Socket) : Wants :=
  match as.getLast? with
  | some (.failed e refused) => if e = EAGAIN then t.asked refused s else t
  | _ => t

/-- What happens meanwhile: bytes come for the socket that the read filter knows. -/
def elsewhere (t : Wants) (w : World) : Elsewhere → Wants
  | .activates .read fd => ((w.kernel.reads fd).map fun kn => t.news kn.udata).getD t
  | _ => t

/-- A stretch of code runs. -/
def stretch (t : Wants) (w : World) (f : Frame) (a : Answer) : Wants :=
  match f, a with
  | _, .elsewhere e | .api (.elsewhere e), _ => t.elsewhere w e
  | .api (.api (.connect o)), .call refused _ => ((w.owned o).map (t.asked refused)).getD t
  | .api (.api (.write o _)), .sends as => ((w.owned o).map (t.wrote as)).getD t
  | .batch (.socket .write h :: _), _ => t.told h
  | .receive h _, .recv (.received []) | .receive h _, .recv (.failed _) => t.drained h
  | _, _ => t

/-- What is observed with an event. -/
def event (c : Configuration) (e : Event Op Answer) (t : Wants) : Wants :=
  match e.answer?, c.stack with
  | some a, .code f :: _ => t.stretch c.state f a
  | _, _ => t

/-- A socket of the context waits for this event; one that listens waits for connections. -/
def awaits (t : Wants) (w : World) : Ready → Bool
  | .socket .write h => t.toWrite h && (w.pimpls h).any (·.valid)
  | .socket .read h => t.toRead h && (w.pimpls h).any fun p => p.valid && !p.listening
  | .other => false

/-- The condition on a stretch of code: what is adopted no socket has, and a read event that is
waited for finds a socket to read for. -/
def Minds (t : Wants) (w : World) (f : Frame) : Answer → Prop
  | .ask _ => ∀ fd ∈ f.adopted, ∀ h < w.fresh, ∀ p ∈ w.pimpls h, p.valid = true → p.fd ≠ fd
  | .go => ∀ h ∈ f.nextRead, t.awaits w (.socket .read h) = true →
      ∀ p ∈ w.pimpls h, (p.callbacks.onReceived || p.callbacks.onDisconnected) = true
  | _ => True

instance (t : Wants) (w : World) (f : Frame) (a : Answer) : Decidable (t.Minds w f a) := by
  rcases a with ⟨⟩ <;> unfold Minds <;> infer_instance

/-- An exception takes no event with it that a socket waits for. -/
def LosesNone (t : Wants) (c : Configuration) : Event Op Answer → Prop
  | .unwind _ depth => ∀ r ∈ abandoned depth c.stack, t.awaits c.state r = false
  | _ => True

instance (t : Wants) (c : Configuration) (e : Event Op Answer) : Decidable (t.LosesNone c e) := by
  rcases e with ⟨⟩ <;> unfold LosesNone <;> infer_instance

end Wants

/-- A context with the sockets that wait. -/
def withWants : Configuration × Wants → Event Op Answer → Option (Configuration × Wants) :=
  Runs.observe (step object) Wants.event

/-- The condition on each event. -/
def Mindful (x : Configuration × Wants) (e : Event Op Answer) : Prop :=
  Before (fun w f _ a => x.2.Minds w f a) x.1 e ∧ x.2.LosesNone x.1 e

instance (x : Configuration × Wants) (e : Event Op Answer) : Decidable (Mindful x e) := by
  unfold Mindful
  infer_instance

/-! ## Who waits is told -/

namespace World
variable {w w' : World} {h x : Nat} {p : SocketBasePimpl} {es es' : List Ready} {t t' : Wants}

/-- What a socket waits for is with the kernel, or among the events `es` that activations have
still to handle. -/
structure Told (w : World) (es : List Ready) (t : Wants) : Prop where
  apart : w.Apart
  beyond : ∀ h, w.fresh ≤ h → t.toWrite h = false ∧ t.toRead h = false
  write : ∀ {h p}, w.pimpls h = some p → p.valid = true → t.toWrite h = true →
    (w.kernel.writes p.fd).map Knote.udata = some h ∨ .socket .write h ∈ es
  read : ∀ {h p}, w.pimpls h = some p → p.valid = true → p.listening = false →
    t.toRead h = true → w.kernel.reads p.fd = some ⟨h, true⟩ ∨ .socket .read h ∈ es

theorem new_told : World.new.Told [] .none :=
  ⟨new_apart, fun _ _ => ⟨rfl, rfl⟩, fun hp => (nomatch hp), fun hp => (nomatch hp)⟩

/-- Nobody is taken anything from, no one more waits, and the events that are waited for are still
to be handled. -/
theorem Told.calm (ht : w.Told es t) (hc : w.Calm w')
    (hwrite : ∀ h, t'.toWrite h = true → t.toWrite h = true)
    (hread : ∀ h, t'.toRead h = true → t.toRead h = true)
    (hkept : ∀ r ∈ es, t'.awaits w r = true → r ∈ es') : w'.Told es' t' := by
  refine ⟨hc.apart, fun h hle => ?_, fun {h p'} hp' hvalid hwants => ?_,
    fun {h p'} hp' hvalid hlistening hwants => ?_⟩
  · obtain ⟨hnone, hnone'⟩ := ht.beyond h (Nat.le_trans hc.fresh hle)
    refine ⟨?_, ?_⟩
    · by_contra hwants
      rw [hwrite h (Bool.not_eq_false _ ▸ hwants)] at hnone
      cases hnone
    · by_contra hwants
      rw [hread h (Bool.not_eq_false _ ▸ hwants)] at hnone'
      cases hnone'
  · rcases hc.follows hp' hvalid with hle | ⟨p, hp, hf⟩
    · have hnone := (ht.beyond h hle).1
      rw [hwrite h hwants] at hnone
      cases hnone
    · have hvalid' : p.valid = true := by
        unfold SocketBasePimpl.valid at hvalid ⊢
        rw [hf.fd]
        exact hvalid
      rcases ht.write hp hvalid' (hwrite h hwants) with hk | hmem
      · left
        rw [← hf.fd]
        exact hf.writes hk
      · exact .inr (hkept _ hmem (by simp [Wants.awaits, hp, hvalid', hwants]))
  · rcases hc.follows hp' hvalid with hle | ⟨p, hp, hf⟩
    · have hnone := (ht.beyond h hle).2
      rw [hread h hwants] at hnone
      cases hnone
    · have hvalid' : p.valid = true := by
        unfold SocketBasePimpl.valid at hvalid ⊢
        rw [hf.fd]
        exact hvalid
      have hlistening' := hf.listening hlistening
      rcases ht.read hp hvalid' hlistening' (hread h hwants) with hk | hmem
      · left
        rw [← hf.fd]
        exact hf.reads hk
      · exact .inr (hkept _ hmem (by simp [Wants.awaits, hp, hvalid', hlistening', hwants]))

/-- A socket asks for an event, and its filter is registered. -/
theorem Told.asks (ht : w.Told es t) (hlt : x < w.fresh)
    (hreg : ∀ p, w.pimpls x = some p → (w.kernel.writes p.fd).map Knote.udata = some x) :
    w.Told es (t.asks x) := by
  refine ⟨ht.apart, fun h hle => ⟨?_, (ht.beyond h hle).2⟩, fun {h p} hp hvalid hwants => ?_,
    ht.read⟩
  · show Function.update t.toWrite x true h = false
    rw [Function.update_of_ne (by omega)]
    exact (ht.beyond h hle).1
  · by_cases hh : h = x
    · exact .inl (hh ▸ hreg p (hh ▸ hp))
    · refine ht.write hp hvalid ?_
      rw [← hwants]
      exact (Function.update_of_ne hh ..).symm

/-- Bytes come for a socket, and its filter is active. -/
theorem Told.news (ht : w.Told es t) (hlt : x < w.fresh)
    (hactive : ∀ p, w.pimpls x = some p → w.kernel.reads p.fd = some ⟨x, true⟩) :
    w.Told es (t.news x) := by
  refine ⟨ht.apart, fun h hle => ⟨(ht.beyond h hle).1, ?_⟩, ht.write,
    fun {h p} hp hvalid hlistening hwants => ?_⟩
  · show Function.update t.toRead x true h = false
    rw [Function.update_of_ne (by omega)]
    exact (ht.beyond h hle).2
  · by_cases hh : h = x
    · exact .inl (hh ▸ hactive p (hh ▸ hp))
    · refine ht.read hp hvalid hlistening ?_
      rw [← hwants]
      exact (Function.update_of_ne hh ..).symm

/-- Something happens meanwhile. -/
theorem Told.elsewhere (ht : w.Told es t) (htied : w.Tied) {e : Elsewhere}
    (he : w.elsewhere e = some w') : w'.Told es (t.elsewhere w e) := by
  have hcalm : w'.Told es t :=
    ht.calm (calm_elsewhere ht.apart he) (fun _ => id) (fun _ => id) fun _ hr _ => hr
  cases e with
  | connects fd => exact hcalm
  | activates filter fd =>
    cases filter with
    | write => exact hcalm
    | read =>
      cases hreads : w.kernel.reads fd with
      | none =>
        simp only [Wants.elsewhere, hreads]
        exact hcalm
      | some kn =>
        simp only [Wants.elsewhere, hreads]
        have hknows : w.kernel.Knows fd kn.udata := .inl (by rw [hreads]; rfl)
        simp only [World.elsewhere] at he
        split at he <;> cases he
        refine hcalm.news (htied.issued hknows) fun p hp => ?_
        obtain rfl := htied.own hknows hp
        show Function.update w.kernel.reads p.fd _ p.fd = _
        rw [Function.update_self, hreads]
        rfl

/-- The loop retrieves events. -/
theorem Told.kevent (ht : w.Told es t) {events : List (Option (Filter × Int))}
    {ready : List Ready} (hk : w.kevent events = some (w', ready)) : w'.Told (ready ++ es) t := by
  unfold World.kevent at hk
  split at hk
  · obtain ⟨⟨k, r⟩, hall, heq⟩ := Option.map_eq_some_iff.mp hk
    cases heq
    have hframe := Kernel.retrieveAll_frame hall
    obtain ⟨hwrites, hreads⟩ := Kernel.retrieveAll_held hall
    refine ⟨⟨fun hp hvalid => ?_, ht.apart.sole⟩, ht.beyond, fun hp hvalid hwants => ?_,
      fun hp hvalid hlistening hwants => ?_⟩
    · show k.isOpen _ = true
      rw [hframe]
      exact ht.apart.opened hp hvalid
    · rcases ht.write hp hvalid hwants with hk | hmem
      · exact (hwrites hk).imp_right (List.mem_append_left _)
      · exact .inr (List.mem_append_right _ hmem)
    · rcases ht.read hp hvalid hlistening hwants with hk | hmem
      · exact (hreads hk).imp_right (List.mem_append_left _)
      · exact .inr (List.mem_append_right _ hmem)
  · cases hk

/-- Fewer sockets wait, fewer events are waited for. -/
theorem awaits_of_less (hwrite : ∀ h, t'.toWrite h = true → t.toWrite h = true)
    (hread : ∀ h, t'.toRead h = true → t.toRead h = true) {r : Ready}
    (hr : t'.awaits w r = true) : t.awaits w r = true := by
  cases r with
  | other => cases hr
  | socket filter h =>
    cases filter with
    | read =>
      obtain ⟨hwants, hopen⟩ := Bool.and_eq_true_iff.mp hr
      exact Bool.and_eq_true_iff.mpr ⟨hread h hwants, hopen⟩
    | write =>
      obtain ⟨hwants, hopen⟩ := Bool.and_eq_true_iff.mp hr
      exact Bool.and_eq_true_iff.mpr ⟨hwrite h hwants, hopen⟩

theorem events_subset_held (f : Frame) : f.events ⊆ f.held := by
  cases f with
  | receive h rest => exact List.subset_cons_self ..
  | _ => exact List.Subset.refl _

variable {f : Frame} {fs : List Frame} {a : Answer} {out : Next}

/-- A stretch of code, but for those who begin to wait with it: what is waited for still of the
events that it had to handle is left. -/
theorem Told.left (ht : w.Told (held (f :: fs)) t) (hc : w.Calm out.state)
    (hlost : out.throws = true → ∀ r ∈ f.left, t.awaits w r = false)
    (hwrite : ∀ h, t'.toWrite h = true → t.toWrite h = true)
    (hread : ∀ h, t'.toRead h = true → t.toRead h = true)
    (hleft : ∀ r ∈ f.held, t'.awaits w r = true → r ∈ leaves f out ∨ r ∈ held out.frames) :
    out.state.Told (held (out.frames ++ fs)) t' := by
  refine ht.calm hc hwrite hread fun r hr hwants => ?_
  rw [held_append]
  rcases List.mem_append.mp hr with hr | hr
  · refine List.mem_append_left _ ?_
    rcases hleft r hr hwants with hmem | hmem
    · unfold leaves at hmem
      cases hthrows : out.throws with
      | false =>
        rw [hthrows] at hmem
        obtain ⟨g, hg, hmem⟩ := List.mem_flatMap.mp hmem
        exact List.mem_flatMap.mpr ⟨g, hg, events_subset_held g hmem⟩
      | true =>
        rw [hthrows] at hmem
        have hnone := hlost hthrows r hmem
        rw [awaits_of_less hwrite hread hwants] at hnone
        cases hnone
    · exact hmem
  · exact List.mem_append_right _ hr

end World

namespace Wants
variable {t : Wants} {w : World} {s : Socket}

theorem stretch_elsewhere (f : Frame) (e : Elsewhere) :
    t.stretch w f (.elsewhere e) = t.elsewhere w e := by
  unfold stretch
  cases f with
  | api op => cases op <;> rfl
  | _ => rfl

/-- A `write` asks, or it does not. -/
theorem wrote_cases (t : Wants) (as : List Send) (s : Socket) :
    t.wrote as s = t ∨ ∃ refused, as.getLast? = some (.failed EAGAIN refused) ∧
      s.kernel.changeError s.pimpl.fd refused = Option.none ∧ t.wrote as s = t.asks s.this := by
  unfold wrote
  split
  · rename_i e refused hlast
    split
    · rename_i he
      subst he
      unfold asked
      split
      · rename_i hnone
        exact .inr ⟨refused, hlast, hnone, rfl⟩
      · exact .inl rfl
    · exact .inl rfl
  · exact .inl rfl

end Wants

namespace World
variable {w w' : World} {h x : Nat} {p : SocketBasePimpl} {t t' : Wants} {rest : List Ready}
  {f : Frame} {fs : List Frame} {a : Answer} {out : Next}

theorem write_state (w : World) (written : Socket.Written) :
    (w.write written).state = w.put written.socket := by
  unfold write
  split
  · exact callThen_state ..
  · rfl

/-- An operation of the socket that registers its filter for `EVFILT_WRITE`. -/
theorem Told.registers (ht : w.Told (held fs) t) (htied : w.Tied) (hp : w.pimpls h = some p)
    {s : Socket} (hs : Socket.Serves ⟨h, w.kernel, p⟩ s)
    (hreg : (s.kernel.writes p.fd).map Knote.udata = some h) (gs : List Frame) :
    (w.put s).Told (held (gs ++ fs)) (t.asks h) := by
  have hcalm : (w.put s).Told (held (gs ++ fs)) t := by
    refine ht.calm (calm_put ht.apart hp hs) (fun _ => id) (fun _ => id) fun r hr _ => ?_
    rw [held_append]
    exact List.mem_append_right _ hr
  refine hcalm.asks (htied.lt_fresh hp) fun q hq => ?_
  obtain rfl : s.this = h := hs.arms.this
  change Function.update w.pimpls s.this (some s.pimpl) s.this = some q at hq
  rw [Function.update_self] at hq
  cases hq
  show (s.kernel.writes s.pimpl.fd).map Knote.udata = _
  rw [hs.arms.fd]
  exact hreg

/-- `connect` throws, or the socket waits. -/
theorem Told.connect (ht : w.Told (held fs) t) (htied : w.Tied) (hp : w.pimpls h = some p)
    (refused error : Option Nat) :
    (w.connect ⟨h, w.kernel, p⟩ refused error).state.Told
      (held ((w.connect ⟨h, w.kernel, p⟩ refused error).frames ++ fs))
      (t.asked refused ⟨h, w.kernel, p⟩) := by
  unfold World.connect Wants.asked
  obtain ⟨e, herr, hask⟩ | ⟨hnone, hask⟩ :=
    Socket.askWriteEvent_cases ⟨h, w.kernel, p⟩ refused
  · rw [hask, if_neg (by rw [herr]; exact Option.some_ne_none _)]
    exact ht.calm (calm_put ht.apart hp (Socket.serves_setErrno ..)) (fun _ => id) (fun _ => id)
      fun r hr _ => hr
  · rw [hask, if_pos hnone]
    have hserves := Socket.serves_askWriteEvent ⟨h, w.kernel, p⟩ refused
    rw [hask] at hserves
    refine ht.registers htied hp (hserves.trans (Socket.serves_connect _ error)) ?_ []
    have hwrites : ∀ s : Socket, (s.connect error).1.kernel.writes = s.kernel.writes := by
      intro s
      unfold Socket.connect
      split <;> rfl
    rw [hwrites]
    exact Socket.addWrite_udata ..

/-- `write` waits if its last `send` answered `EAGAIN`. -/
theorem Told.wrote (ht : w.Told (held fs) t) (htied : w.Tied) (hp : w.pimpls h = some p)
    {buffer : List Byte} {as : List Send} {written : Socket.Written}
    (hwrite : Socket.soWrite ⟨h, w.kernel, p⟩ buffer as = some written) :
    (w.write written).state.Told (held ((w.write written).frames ++ fs))
      (t.wrote as ⟨h, w.kernel, p⟩) := by
  have hserves := Socket.serves_soWrite hwrite
  rw [write_state]
  obtain heq | ⟨refused, hlast, hnone, heq⟩ := t.wrote_cases as ⟨h, w.kernel, p⟩
  · rw [heq]
    refine ht.calm (calm_put ht.apart hp hserves) (fun _ => id) (fun _ => id) fun r hr _ => ?_
    rw [held_append]
    exact List.mem_append_right _ hr
  · rw [heq]
    exact ht.registers htied hp hserves (Socket.soWrite_asks hwrite hlast hnone) _

/-- A turn of the loop over `recv` leaves its socket's events, or has come to an end. -/
theorem Told.received (ht : w.Told (held (.receive h rest :: fs)) t) (hp : w.pimpls h = some p)
    {r : Recv}
    (hlost : (w.received ⟨h, w.kernel, p⟩ rest r).throws = true →
      ∀ e ∈ rest, t.awaits w e = false) :
    (w.received ⟨h, w.kernel, p⟩ rest r).state.Told
      (held ((w.received ⟨h, w.kernel, p⟩ rest r).frames ++ fs))
      (t.stretch w (.receive h rest) (.recv r)) := by
  have hcalm : w.Calm (w.received ⟨h, w.kernel, p⟩ rest r).state := by
    unfold World.received
    split
    · split
      · rw [callThen_state]
        exact calm_put ht.apart hp (Socket.serves_refl _)
      · exact calm_refl ht.apart
    · rw [callThen_state]
      exact calm_put ht.apart hp (Socket.serves_refl _)
    · rw [callThen_state]
      exact calm_put ht.apart hp (Socket.serves_setErrno ..)
  -- when it is over, its own event is not waited for any more
  have hover : ∀ e ∈ Frame.held (.receive h rest), (t.drained h).awaits w e = true →
      e ∈ leaves (.receive h rest) (w.received ⟨h, w.kernel, p⟩ rest r) ∨
        e ∈ held (w.received ⟨h, w.kernel, p⟩ rest r).frames := by
    intro e he hwants
    rw [leaves_received]
    rcases List.mem_cons.mp he with rfl | he
    · simp [Wants.awaits, Wants.drained] at hwants
    · exact .inl he
  have hless : ∀ x, (t.drained h).toRead x = true → t.toRead x = true := by
    intro x hx
    by_cases hxh : x = h
    · subst hxh
      simp [Wants.drained] at hx
    · exact (Function.update_of_ne hxh ..).symm.trans hx
  cases r with
  | failed e => exact ht.left hcalm hlost (fun _ => id) hless hover
  | received buffer =>
    cases buffer with
    | nil => exact ht.left hcalm hlost (fun _ => id) hless hover
    | cons b bs =>
      refine ht.left hcalm hlost (fun _ => id) (fun _ => id) fun e he _ => .inr ?_
      show e ∈ held (w.callThen _ _ _).frames
      rw [callThen_frames]
      exact List.mem_append_left _ he

/-- The branch for a socket that listens. -/
theorem Told.acceptBranch (ht : w.Told (held (.batch (.socket .read h :: rest) :: fs)) t)
    (htied : w.Tied) (hp : w.pimpls h = some p) (hlistening : p.listening = true)
    {refused again : Option Nat} {o : Opened} (hopens : w.Opens o)
    (hlost : (w.acceptBranch ⟨h, w.kernel, p⟩ rest refused again o).throws = true →
      ∀ e ∈ rest, t.awaits w e = false) :
    (w.acceptBranch ⟨h, w.kernel, p⟩ rest refused again o).state.Told
      (held ((w.acceptBranch ⟨h, w.kernel, p⟩ rest refused again o).frames ++ fs)) t := by
  refine ht.left (calm_acceptBranch ht.apart htied hp rest refused again hopens) hlost
    (fun _ => id) (fun _ => id) fun e he hwants => .inl ?_
  rw [leaves_acceptBranch]
  rcases List.mem_cons.mp he with rfl | he
  · simp [Wants.awaits, hp, hlistening] at hwants
  · exact he

/-- **Every stretch of code leaves nobody untold**, if it is mindful. -/
theorem Told.stretch (ht : w.Told (held (f :: fs)) t) (htied : w.Tied) (hminds : t.Minds w f a)
    (hlost : out.throws = true → ∀ r ∈ f.left, t.awaits w r = false) (hs : Stretch w f a out) :
    out = .goto w .undefined [] ∨
      out.state.Told (held (out.frames ++ fs)) (t.stretch w f a) := by
  have ha := ht.apart
  -- a stretch that handles nothing, and with which nobody begins to wait
  have keeps : w.Calm out.state → (∀ r ∈ f.held, r ∈ leaves f out ∨ r ∈ held out.frames) →
      out.state.Told (held (out.frames ++ fs)) t :=
    fun hc hleft => ht.left hc hlost (fun _ => id) (fun _ => id) fun r hr _ => hleft r hr
  have idle : w.Calm out.state → f.held = [] → out.state.Told (held (out.frames ++ fs)) t :=
    fun hc hnone => keeps hc fun r hr => (List.not_mem_nil (hnone ▸ hr)).elim
  -- the event of `EVFILT_WRITE` is handled
  have tells : ∀ {x : Nat} {rest : List Ready}, f = .batch (.socket .write x :: rest) →
      w.Calm out.state → (∀ r ∈ rest, r ∈ leaves f out ∨ r ∈ held out.frames) →
      out.state.Told (held (out.frames ++ fs)) (t.told x) := by
    rintro x rest rfl hc hleft
    refine ht.left hc hlost (fun y hy => ?_) (fun _ => id) fun r hr hwants => ?_
    · by_cases hyx : y = x
      · subst hyx
        simp [Wants.told] at hy
      · exact (Function.update_of_ne hyx ..).symm.trans hy
    · rcases List.mem_cons.mp hr with rfl | hr
      · simp [Wants.awaits, Wants.told] at hwants
      · exact hleft r hr
  cases hs with
  | waitForInput | stop =>
    exact .inr (idle (calm_sub ha rfl (Nat.le_refl _) fun hp => ⟨_, hp, rfl, id⟩) rfl)
  | @socket domain type protocol callbacks o refused hopens =>
    refine .inr (idle ?_ rfl)
    rw [constructed_state]
    cases o with
    | fd n =>
      have hopened := calm_openFd ha n
      exact hopened.trans (calm_construct hopened.apart (htied.openFd n) _ _ _ _ _ _
        (ha.free hopens))
    | failed e =>
      have herrno := calm_setErrno ha e
      refine herrno.trans (calm_construct herrno.apart (htied.setErrno e) _ _ _ _ _ _ ?_)
      intro x q hq hvalid
      simpa [SocketBasePimpl.valid] using hvalid
  | adopt =>
    refine .inr (idle ?_ rfl)
    rw [constructed_state]
    exact calm_construct ha htied _ _ _ _ _ _ fun x q hq => hminds _ rfl x (htied.lt_fresh hq) q hq
  | @move other s w' hs hown =>
    have hnext : w.Calm { w.release other with fresh := w.fresh + 1 } :=
      calm_sub ha rfl (Nat.le_succ _) fun hp => ⟨_, hp, rfl, id⟩
    exact .inr (idle (hnext.trans (calm_own hnext.apart hown)) rfl)
  | assign hassign => exact .inr (idle (calm_assign ha hassign) rfl)
  | destroy hdestruct => exact .inr (idle (calm_destruct ha hdestruct) rfl)
  | close hclose =>
    obtain ⟨pimpl, -, rfl⟩ := Option.map_eq_some_iff.mp hclose
    cases pimpl with
    | none => exact .inr (idle (calm_refl ha) rfl)
    | some x => exact .inr (idle (calm_closeAt ha x) rfl)
  | connect hs =>
    obtain ⟨x, p, -, hp, rfl⟩ := exists_of_owned hs
    have hnow : w.Told (held fs) t := ht
    have hconnect := hnow.connect htied hp
    simp only [Wants.stretch, hs, Option.map_some, Option.getD_some]
    exact .inr (hconnect ..)
  | @listen o s refused error hs =>
    obtain ⟨x, p, -, hp, rfl⟩ := exists_of_owned hs
    have hasks := Socket.serves_askReadEvent ⟨x, w.kernel, p⟩ refused
    refine .inr (idle ?_ rfl)
    unfold World.listen
    split
    · rename_i s' hask
      rw [hask] at hasks
      exact calm_put ha hp (hasks.trans (Socket.serves_listen ..))
    · rename_i s' hask
      rw [hask] at hasks
      exact calm_put ha hp hasks
  | write hs hwrite =>
    obtain ⟨x, p, -, hp, rfl⟩ := exists_of_owned hs
    have hnow : w.Told (held fs) t := ht
    have hwritten := hnow.wrote htied hp hwrite
    simp only [Wants.stretch, hs, Option.map_some, Option.getD_some]
    exact .inr hwritten
  | callbacks hs =>
    obtain ⟨x, p, -, hp, rfl⟩ := exists_of_owned hs
    exact .inr (idle (calm_put ha hp ⟨⟨rfl, rfl, rfl, rfl, .inl⟩, id,
      Kernel.spares_of_eq rfl rfl⟩) rfl)
  | otherCall => exact .inr (idle (calm_setErrno ha _) rfl)
  | otherOpen =>
    have hopened := calm_openFd ha
    exact .inr (idle ((hopened _).trans (calm_setErrno (hopened _).apart _)) rfl)
  | elsewhereCalled he => exact .inr (Told.elsewhere ht htied he)
  | elsewhere he =>
    rw [Wants.stretch_elsewhere]
    exact .inr (Told.elsewhere ht htied he)
  | kevent hrun hk => exact .inr (Told.kevent ht hk)
  | waitFailed => exact .inr (idle (calm_setErrno ha _) rfl)
  | stopped | batchEnd | done => exact .inr (idle (calm_refl ha) rfl)
  | other =>
    refine .inr (ht.left (calm_refl ha) hlost (fun _ => id) (fun _ => id) fun r hr hwants => ?_)
    rcases List.mem_cons.mp hr with rfl | hr
    · cases hwants
    · exact .inr (List.mem_append_left _ hr)
  | gone | dangling | askGone => exact .inl rfl
  | accept hp hlistening ha' hopens => exact .inr (ht.acceptBranch htied hp hlistening hopens hlost)
  | @read x rest p hp hlistening =>
    refine .inr (ht.left (calm_refl ha) hlost (fun _ => id) (fun _ => id)
      fun r hr hwants => .inr ?_)
    show r ∈ (p.reading x rest).held ++ []
    rw [List.append_nil]
    rcases List.mem_cons.mp hr with rfl | hr
    · -- the event that is waited for finds a socket to read for
      unfold SocketBasePimpl.reading
      rw [if_pos (hminds x rfl hwants p hp)]
      exact List.mem_cons_self ..
    · refine events_subset_held _ ?_
      rw [reading_events]
      exact hr
  | @sent x rest p hp hconnected =>
    refine .inr (tells rfl ?_ fun r hr => .inl ?_)
    · rw [callThen_state]
      exact calm_put ha hp (Socket.serves_refl _)
    · rw [leaves_callThen]
      exact hr
  | @connected x rest p soError k hp hconnected hget
  | @notConnected x rest p soError k err hp hconnected hget herr =>
    refine .inr (tells rfl ?_ fun r hr => .inl ?_)
    · rw [callThen_state]
      exact calm_put ha hp (Socket.serves_getsockopt hget)
    · rw [leaves_callThen]
      exact hr
  | received hp ha' => exact .inr (ht.received hp hlost)
  | @asked x rest p refused s hp hask =>
    have hasks := Socket.serves_askReadEvent ⟨x, w.kernel, p⟩ refused
    rw [hask] at hasks
    exact .inr (keeps (calm_put ha hp hasks) fun r hr => .inr (List.mem_append_left _ hr))
  | @askFailed x rest p refused s hp hask =>
    have hasks := Socket.serves_askReadEvent ⟨x, w.kernel, p⟩ refused
    rw [hask] at hasks
    exact .inr (keeps (calm_put ha hp hasks) fun r hr => .inl hr)
  | newSocket hdestruct =>
    exact .inr (keeps (calm_destruct ha hdestruct) fun r hr => .inr (List.mem_append_left _ hr))

end World

/-! ## Runs -/

/-- Who waits is told, or the code has used a pimpl that is gone. -/
def Attended (x : Configuration × Wants) : Prop :=
  x.1.stack.head? = some (.code .undefined) ∨ x.1.state.Told (held (frames x.1.stack)) x.2

theorem attended_step {c c' : Configuration} {e : Event Op Answer} {t : Wants}
    (htied : c.state.Tied) (hc : Attended (c, t)) (hmindful : Mindful (c, t) e)
    (hstep : Step object c e c') : Attended (c', t.event c e) := by
  obtain ⟨hminds, hloses⟩ := hmindful
  -- the code that has used a pimpl that is gone does nothing any more
  have stuck : ∀ {w : World} {f : Frame} {rest : List (Act Frame CallOut)} {a : Answer}
      {out : Next}, Attended (⟨w, .code f :: rest, c.log⟩, t) → resume w f a = some out →
      (∃ w', out = .goto w' .undefined []) ∨ w.Told (held (f :: frames rest)) t := by
    rintro w f rest a out (hundefined | ht) hres
    · cases hundefined
      cases stretch_of_resume hres with
      | elsewhere => exact .inl ⟨_, rfl⟩
    · exact .inr ht
  have stretch : ∀ {w : World} {f : Frame} {rest : List (Act Frame CallOut)} {a : Answer}
      {out : Next}, Attended (⟨w, .code f :: rest, c.log⟩, t) → w.Tied → t.Minds w f a →
      out.throws = false → resume w f a = some out →
      (∃ w', out = .goto w' .undefined []) ∨
        out.state.Told (held (out.frames ++ frames rest)) (t.stretch w f a) := by
    intro w f rest a out hatt htied hminds hthrows hres
    rcases stuck hatt hres with hundefined | ht
    · exact .inl hundefined
    · rcases ht.stretch htied hminds (fun h => by rw [hthrows] at h; cases h)
        (stretch_of_resume hres) with heq | ht'
      · exact .inl ⟨w, heq⟩
      · exact .inr ht'
  cases hstep with
  | @call w stack log op hout =>
    rcases hc with hundefined | ht
    · cases stack with
      | nil => cases hundefined
      | cons top rest =>
        cases hundefined
        cases hout
    · exact .inr ht
  | goto h =>
    rcases stretch hc htied hminds rfl h with ⟨w', heq⟩ | ht
    · cases heq
      exact .inl rfl
    · exact .inr ht
  | callOut h =>
    rcases stretch hc htied hminds rfl h with ⟨w', heq⟩ | ht
    · cases heq
    · exact .inr ht
  | ret h =>
    rcases stretch hc htied hminds rfl h with ⟨w', heq⟩ | ht
    · cases heq
    · exact .inr ht
  | @unwind w f rest log a s' ns depth h hout =>
    rcases stuck hc h with ⟨w', heq⟩ | ht
    · cases heq
    · have hsplit : frames rest = frames (rest.take depth) ++ frames (rest.drop depth) := by
        rw [← frames_append, List.take_append_drop]
      have hdropped : w.Told (held (f :: frames (rest.drop depth))) t := by
        refine ht.calm (World.calm_refl ht.apart) (fun _ => id) (fun _ => id) fun r hr hwants => ?_
        rcases List.mem_append.mp hr with hr | hr
        · exact List.mem_append_left _ hr
        · replace hr : r ∈ held (frames rest) := hr
          rw [hsplit, held_append] at hr
          rcases List.mem_append.mp hr with hr | hr
          · have hnone := hloses r (List.mem_append_right _ hr)
            rw [hwants] at hnone
            cases hnone
          · exact List.mem_append_right _ hr
      rcases hdropped.stretch htied hminds (fun _ r hr => hloses r (List.mem_append_left _ hr))
        (stretch_of_resume h) with heq | ht'
      · cases heq
      · exact .inr ht'
  | back => exact hc.imp (fun h => by cases h) id

theorem attended_of_run {es : List (Event Op Answer)} {x : Configuration × Wants}
    (hr : Runs.run withWants (Config.start World.new, .none) es = some x)
    (hmindful : Runs.Along withWants Mindful (Config.start World.new, .none) es) :
    x.1.state.Tied ∧ Attended x := by
  refine Runs.run_invariant_along (I := fun x => x.1.state.Tied ∧ Attended x) ?_
    ⟨World.new_tied, .inr World.new_told⟩ hmindful hr
  rintro ⟨c, t⟩ e ⟨c', t'⟩ ⟨htied, hc⟩ hgood hstep
  obtain ⟨hstep', ht⟩ := Runs.observe_some.mp hstep
  dsimp only at htied hgood hstep' ht ⊢
  subst ht
  have hrel := Step.of_step hstep'
  refine ⟨?_, attended_step htied hc hgood hrel⟩
  exact hrel.preserves_always htied (fun _ => htied)
    fun hres => htied.stretch (stretch_of_resume hres)

/-- **No wake-up is lost.**  In every run in which what is adopted no socket has, a read event
that is waited for finds a socket to read for, and no exception takes an event with it that is
waited for: as long as the loop does not go through a pimpl that is gone, each open socket that
asked for an event of `EVFILT_WRITE` since its last one has the filter registered, or the event is
still to be handled; and each for which bytes came since `recv` came to an end has its filter
active, or its event is still to be handled, or is being handled. -/
theorem wake_ups_kept {es : List (Event Op Answer)} {c : Configuration} {t : Wants}
    (hr : Runs.run withWants (Config.start World.new, .none) es = some (c, t))
    (hmindful : Runs.Along withWants Mindful (Config.start World.new, .none) es)
    (hdefined : c.stack.head? ≠ some (.code .undefined)) {h : Nat} {p : SocketBasePimpl}
    (hp : c.state.pimpls h = some p) (hvalid : p.valid = true) :
    (t.toWrite h = true → (c.state.kernel.writes p.fd).map Knote.udata = some h ∨
      .socket .write h ∈ held (frames c.stack)) ∧
    (t.toRead h = true → p.listening = false → c.state.kernel.reads p.fd = some ⟨h, true⟩ ∨
      .socket .read h ∈ held (frames c.stack)) := by
  have ht := (attended_of_run hr hmindful).2.resolve_left hdefined
  exact ⟨ht.write hp hvalid, fun hwants hlistening => ht.read hp hvalid hlistening hwants⟩

/-- In `on_connected` a socket writes three bytes, of which two are taken; then it is called with
a byte that came. -/
def writesAndReads : List (Event Op Answer) :=
  [.call (.api (.socket 2 1 0 ⟨true, true, true, true, false, true⟩)),
    .code (.opened (.fd 3) none), .call (.api (.connect 0)), .code (.call none (some EINPROGRESS)),
    .call (.elsewhere (.activates .write 3)), .code .go,
    .call (.api .waitForInput), .code .go, .code (.ready [some (.write, 3)]), .code (.wake 0),
    .call (.api (.write 0 [1, 2, 3])), .code (.sends [.sent 2, .failed EAGAIN none]), .code .go,
    .back, .code (.elsewhere (.activates .read 3)), .code (.ask none), .code .go,
    .code (.ready [some (.read, 3)]), .code .go, .code (.recv (.received [7]))]

/-- Its filter for `EVFILT_WRITE` is registered, and the loop will call `recv` again. -/
theorem wake_ups_kept_writesAndReads :
    ∃ c t, Runs.run withWants (Config.start World.new, .none) writesAndReads = some (c, t) ∧
      (c.state.kernel.writes 3).map Knote.udata = some 0 ∧
      .socket .read 0 ∈ held (frames c.stack) := by
  obtain ⟨⟨c, t⟩, hr, hwrite, hread, hnow, hdefined, p, hp, hvalid, hlistening, hfd, hinactive⟩ :
      ∃ x, Runs.run withWants (Config.start World.new, .none) writesAndReads = some x ∧
        x.2.toWrite 0 = true ∧ x.2.toRead 0 = true ∧
        .socket .write 0 ∉ held (frames x.1.stack) ∧
        x.1.stack.head? ≠ some (.code .undefined) ∧
        ∃ p ∈ x.1.state.pimpls 0, p.valid = true ∧ p.listening = false ∧ p.fd = 3 ∧
          x.1.state.kernel.reads 3 = some ⟨0, false⟩ :=
    Runs.exists_run (by decide)
  obtain ⟨hwrites, hreads⟩ := wake_ups_kept hr (by decide) hdefined hp hvalid
  refine ⟨c, t, hr, ?_, ?_⟩
  · exact hfd ▸ (hwrites hwrite).resolve_right hnow
  · refine (hreads hread hlistening).resolve_left fun hactive => ?_
    rw [hfd, hinactive] at hactive
    cases hactive

end Macos
end AcppNetwork
