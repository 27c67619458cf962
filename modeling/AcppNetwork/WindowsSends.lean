import AcppNetwork.WindowsWriteSlot

/-!
# The bytes of the Windows writes

`write` copies its argument to the one buffer of the socket, and the kernel reads that
buffer until the `WSASend` completes.  Beside a run we observe, for one pimpl, the calls
of `write` that return, with what they return, and the bytes that the kernel moves
(`Traffic`).

While a `WSASend` is outstanding no stretch of code touches the buffer, since the flag is
set (`World.Guarded`).  So the bytes accepted are those transferred, and then those that the
`WSASend` that is outstanding, if there is one, has still to take from the buffer
(`writes_transferred`).
-/
namespace AcppNetwork
namespace Windows

open Reentrant

/-! ## What is observed -/

/-- The calls of `write` that returned, each with its argument and what it returned; the
bytes that were transferred. -/
structure Traffic where
  written : List (List Byte × Nat)
  transferred : List Byte
  deriving DecidableEq

namespace Traffic

/-- No traffic. -/
def none : Traffic := ⟨[], []⟩

/-- The first `r` bytes of each argument. -/
def accepted (t : Traffic) : List Byte := t.written.flatMap fun x => x.1.take x.2

/-- `write` of `buffer` returned `r`. -/
def wrote (t : Traffic) (buffer : List Byte) (r : Nat) : Traffic :=
  { t with written := t.written ++ [(buffer, r)] }

/-- A `WSASend` completed. -/
def sent (t : Traffic) (data : List Byte) : Traffic :=
  { t with transferred := t.transferred ++ data }

/-- An operation completes. -/
def elsewhere (h : Nat) (w : World) (t : Traffic) : Elsewhere → Traffic
  | .completes i data =>
      if (w.outstanding[i]?).any (·.op = ⟨h, .write⟩) then t.sent data else t
  | _ => t

/-- A stretch of code runs: an operation of the pimpl at `h` completes, or `write` returns
to a caller whose object has that pimpl. -/
def stretch (h : Nat) (w : World) (f : Frame) (a : Answer) (t : Traffic) : Traffic :=
  match f, a with
  | _, .elsewhere e | .api (.elsewhere e), _ => t.elsewhere h w e
  | .api (.write o buffer), .start refused =>
      match resume w (.api (.write o buffer)) (.start refused) with
      | some (.ret _ (.size r) _) =>
          if w.objects o = some (some h) then t.wrote buffer r else t
      | _ => t
  | _, _ => t

/-- What is observed with an event. -/
def event (h : Nat) (c : Configuration) (e : Event Op Answer) (t : Traffic) : Traffic :=
  match e.answer?, c.stack with
  | some a, .code f :: _ => t.stretch h c.state f a
  | _, _ => t

@[simp] theorem accepted_wrote (t : Traffic) (buffer : List Byte) (r : Nat) :
    (t.wrote buffer r).accepted = t.accepted ++ buffer.take r := by
  unfold accepted wrote
  rw [List.flatMap_append, List.flatMap_singleton]

@[simp] theorem accepted_sent (t : Traffic) (data : List Byte) :
    (t.sent data).accepted = t.accepted := rfl

@[simp] theorem transferred_wrote (t : Traffic) (buffer : List Byte) (r : Nat) :
    (t.wrote buffer r).transferred = t.transferred := rfl

@[simp] theorem transferred_sent (t : Traffic) (data : List Byte) :
    (t.sent data).transferred = t.transferred ++ data := rfl

end Traffic

/-- A context with the traffic of the pimpl at `h`. -/
def withTraffic (h : Nat) : Configuration × Traffic → Event Op Answer →
    Option (Configuration × Traffic) :=
  Runs.observe (step object) (Traffic.event h)

/-- The `WSASend` of a pimpl that completes has moved its whole buffer. -/
def Elsewhere.Whole (w : World) : Elsewhere → Prop
  | .completes i data => ∀ pending ∈ w.outstanding[i]?, pending.op.type = .write →
      w.pimpls pending.op.pimpl ≠ none → data.length = pending.len
  | .fails i _ => ∀ pending ∈ w.outstanding[i]?, pending.op.type = .write →
      w.pimpls pending.op.pimpl = none
  | .posts _ | .opens _ => True

instance (w : World) (e : Elsewhere) : Decidable (e.Whole w) := by
  cases e <;> unfold Elsewhere.Whole <;> infer_instance

/-- What completes along a stretch of code has moved its whole buffer. -/
def World.Whole (w : World) (f : Frame) (a : Answer) : Prop :=
  match f, a with
  | _, .elsewhere e | .api (.elsewhere e), _ => e.Whole w
  | _, _ => True

instance (w : World) (f : Frame) (a : Answer) : Decidable (w.Whole f a) := by
  rcases f with ⟨⟨⟩⟩ <;> rcases a with ⟨⟩ <;> unfold World.Whole <;> infer_instance

namespace World
variable {w w' : World} {h : Nat} {p q : SocketBasePimpl} {t : Traffic}

/-! ## What is outstanding -/

/-- The `WSASend` of the pimpl at `h` that are outstanding. -/
def sends (w : World) (h : Nat) : List Pending := w.outstanding.filter (·.op = ⟨h, .write⟩)

/-- The bytes that they have to move. -/
def inFlight (w : World) (h : Nat) (p : SocketBasePimpl) : List Byte :=
  (w.sends h).flatMap fun pending => p.writeOp.buffer.take pending.len

theorem length_sends_le (w : World) (h : Nat) : (w.sends h).length ≤ w.writes h := by
  have hcount : (w.outstanding.map Pending.op).count ⟨h, .write⟩ = (w.sends h).length := by
    unfold sends
    rw [List.count_eq_countP, List.countP_map, List.countP_eq_length_filter]
    rfl
  unfold writes ops
  rw [List.count_append, hcount]
  exact Nat.le_add_right _ _

/-- Nothing is outstanding while the flag is not set. -/
theorem Guarded.sends_eq_nil (hw : w.Guarded) (hp : w.pimpls h = some p)
    (hinUse : p.writeOp.inUse = false) : w.sends h = [] := by
  have hzero : w.writes h = 0 := by
    by_contra hne
    rw [hw.inUse h p hp hne] at hinUse
    cases hinUse
  exact List.length_eq_zero_iff.mp (Nat.le_zero.mp (hzero ▸ length_sends_le w h))

theorem Guarded.sends_beyond (hw : w.Guarded) (hge : w.fresh ≤ h) : w.sends h = [] :=
  List.length_eq_zero_iff.mp (Nat.le_zero.mp ((hw.beyond h hge).2 ▸ length_sends_le w h))

/-- One more operation. -/
theorem sends_start {op : Overlapped} {fd : Int} {len : Nat} {refused : Option Nat}
    (hstart : w.start op fd len refused = some w') (hop : op ≠ ⟨h, .write⟩) :
    w'.sends h = w.sends h := by
  obtain ⟨key, -, -, rfl⟩ := start_some hstart
  unfold sends
  rw [List.filter_append, List.filter_singleton, decide_eq_false hop]
  exact List.append_nil _

/-- The `WSASend` that begins is the only one. -/
theorem sends_begin {pending : Pending} (hnil : w.sends h = [])
    (houtstanding : w'.outstanding = w.outstanding ++ [pending])
    (hop : pending.op = ⟨h, .write⟩) : w'.sends h = [pending] := by
  unfold sends at hnil ⊢
  rw [houtstanding, List.filter_append, hnil, List.filter_singleton, decide_eq_true hop]
  rfl

/-- One operation less. -/
theorem sends_settle {i : Nat} {pending : Pending} (hi : w.outstanding[i]? = some pending)
    (status : Status) : ∃ before after, (w.settle i pending status).sends h = before ++ after ∧
      w.sends h = before ++ (if pending.op = ⟨h, .write⟩ then [pending] else []) ++ after := by
  obtain ⟨hlt, hget⟩ := List.getElem?_eq_some_iff.mp hi
  refine ⟨(w.outstanding.take i).filter (·.op = ⟨h, .write⟩),
    (w.outstanding.drop (i + 1)).filter (·.op = ⟨h, .write⟩), ?_, ?_⟩
  · show List.filter _ (w.outstanding.eraseIdx i) = _
    rw [List.eraseIdx_eq_take_drop_succ, List.filter_append]
  · have hsplit : w.outstanding =
        w.outstanding.take i ++ [pending] ++ w.outstanding.drop (i + 1) := by
      rw [List.append_assoc, List.singleton_append, ← hget, ← List.drop_eq_getElem_cons hlt,
        List.take_append_drop]
    unfold sends
    conv_lhs => rw [hsplit]
    rw [List.filter_append, List.filter_append, List.filter_singleton]
    by_cases hop : pending.op = ⟨h, .write⟩
    · rw [if_pos hop, decide_eq_true hop, cond_true]
    · rw [if_neg hop, decide_eq_false hop, cond_false]

/-- The operation that completes is another one. -/
theorem sends_settle_of_ne {i : Nat} {pending : Pending} (hi : w.outstanding[i]? = some pending)
    (status : Status) (hop : pending.op ≠ ⟨h, .write⟩) :
    (w.settle i pending status).sends h = w.sends h := by
  obtain ⟨before, after, hafter, hbefore⟩ := sends_settle (h := h) hi status
  rw [hafter, hbefore, if_neg hop, List.append_nil]

/-- The one `WSASend` completes. -/
theorem Guarded.sends_settle_self {i : Nat} {pending : Pending} (hw : w.Guarded)
    (hi : w.outstanding[i]? = some pending) (status : Status) (hop : pending.op = ⟨h, .write⟩) :
    w.sends h = [pending] ∧ (w.settle i pending status).sends h = [] := by
  obtain ⟨before, after, hafter, hbefore⟩ := sends_settle (h := h) hi status
  have hone := Nat.le_trans (length_sends_le w h) (hw.one h)
  rw [hbefore, if_pos hop, List.length_append, List.length_append, List.length_singleton] at hone
  obtain rfl : before = [] := List.length_eq_zero_iff.mp (by omega)
  obtain rfl : after = [] := List.length_eq_zero_iff.mp (by omega)
  rw [if_pos hop] at hbefore
  exact ⟨hbefore, hafter⟩

/-! ## What a stretch does to the writes of a pimpl -/

/-- The pimpl at `h`, if it is there, has the buffer it had, or is new. -/
def KeepsBuffer (h : Nat) (w w' : World) : Prop :=
  ∀ p', w'.pimpls h = some p' →
    (∃ p, w.pimpls h = some p ∧ p'.writeOp.buffer = p.writeOp.buffer) ∨ w.fresh ≤ h

/-- What becomes of the writes of the pimpl at `h`, and of the traffic; `good` is the
condition on what completes.  Nothing; a call returns 0; a `WSASend` begins; it fails at
once; it completes; it fails later. -/
inductive SendDeed (h : Nat) (w w' : World) (good : Prop) (g : Traffic → Traffic) : Prop where
  | nothing (hsends : w'.sends h = w.sends h) (hbuffer : KeepsBuffer h w w')
      (hfresh : w.fresh ≤ w'.fresh) (hg : ∀ t, g t = t)
  | busy (p : SocketBasePimpl) (buffer : List Byte) (hp : w.pimpls h = some p) (hw' : w' = w)
      (hg : ∀ t, g t = t.wrote buffer 0)
  | begins (p : SocketBasePimpl) (buffer : List Byte) (key : Option Nat)
      (hp : w.pimpls h = some p) (hinUse : p.writeOp.inUse = false)
      (hw' : w' = { w.put h (p.fill buffer) with
        outstanding := w.outstanding ++
          [⟨key, ⟨h, .write⟩, min SocketBasePimpl.bufferSize buffer.length⟩] })
      (hg : ∀ t, g t = t.wrote buffer (min SocketBasePimpl.bufferSize buffer.length))
  | refused (p : SocketBasePimpl) (buffer : List Byte) (hp : w.pimpls h = some p)
      (hinUse : p.writeOp.inUse = false) (hw' : w' = w.put h (p.fill buffer))
      (hg : ∀ t, g t = t)
  | completes (i : Nat) (pending : Pending) (data : List Byte)
      (hi : w.outstanding[i]? = some pending) (hop : pending.op = ⟨h, .write⟩)
      (hdata : ∀ p, w.pimpls h = some p → data <+: p.writeOp.buffer.take pending.len)
      (hw' : w' = w.settle i pending (.success data.length)) (hg : ∀ t, g t = t.sent data)
      (hgood : good → w.pimpls h ≠ none → data.length = pending.len)
  | fails (i : Nat) (pending : Pending) (error : Nat)
      (hi : w.outstanding[i]? = some pending) (hop : pending.op = ⟨h, .write⟩)
      (hw' : w' = w.settle i pending (.failure error)) (hg : ∀ t, g t = t)
      (hgood : good → w.pimpls h = none)

/-- All but `write` keeps the buffers. -/
theorem allows_buffer :
    Allows (fun p p' => p'.writeOp.buffer = p.writeOp.buffer) fun _ => True where
  refl _ := rfl
  trans hbuffer hbuffer' := hbuffer'.trans hbuffer
  keeps _ _ := trivial
  readBuffer _ _ := rfl
  fd _ := rfl
  parent _ _ := rfl
  callbacks _ _ := rfl
  newSocket _ _ := rfl
  inUse _ := rfl
  new _ _ _ _ _ _ := trivial

theorem keepsBuffer_of_grows {N : SocketBasePimpl → Prop}
    (hg : Grows (fun p p' => p'.writeOp.buffer = p.writeOp.buffer) N w w') (h : Nat) :
    KeepsBuffer h w w' := by
  intro p' hp'
  rcases hg.2 h p' hp' with ⟨p, hp, hsame⟩ | ⟨hge, -, -⟩
  · exact .inl ⟨p, hp, hsame⟩
  · exact .inr hge

theorem keepsBuffer_of_eq (hpimpls : w'.pimpls h = w.pimpls h) : KeepsBuffer h w w' := by
  intro p' hp'
  exact .inl ⟨p', hpimpls ▸ hp', rfl⟩

/-- The stretch is not a call of `write`. -/
theorem grows_buffer {f : Frame} {a : Answer} {out : Next} (hs : Stretch w f a out)
    (hf : ∀ o buffer, f ≠ .api (.write o buffer)) :
    Grows (fun p p' => p'.writeOp.buffer = p.writeOp.buffer) (fun _ => True) w out.state :=
  allows_buffer.grows_stretch (fun o _ _ buffer heq => absurd heq (hf o buffer)) hs

@[simp] theorem construct_outstanding (w : World) (domain type protocol fd : Int)
    (callbacks : Linux.Callbacks) :
    (w.construct domain type protocol fd callbacks).outstanding = w.outstanding := by
  rw [construct_eq]

@[simp] theorem constructSocket_outstanding (w : World) (domain type protocol : Int)
    (callbacks : Linux.Callbacks) (a : Opened) :
    (w.constructSocket domain type protocol callbacks a).outstanding = w.outstanding := by
  obtain ⟨fd, heq⟩ := constructSocket_eq w domain type protocol callbacks a
  rw [heq]

@[simp] theorem close_outstanding (w : World) (x : Nat) (p : SocketBasePimpl) :
    (w.close x p).outstanding = w.outstanding := by
  rw [close_eq]

theorem sends_of_eq (houtstanding : w'.outstanding = w.outstanding) : w'.sends h = w.sends h := by
  unfold sends
  rw [houtstanding]

/-- The bytes that a `WSASend` moves are those in the buffer. -/
theorem transfer_write {pending : Pending} {data : List Byte} (hop : pending.op = ⟨h, .write⟩)
    (htransfer : w.transfer pending data = some w') :
    w' = w ∧ ∀ p, w.pimpls h = some p → data <+: p.writeOp.buffer.take pending.len := by
  unfold transfer at htransfer
  simp only [hop] at htransfer
  split at htransfer <;> cases htransfer
  exact ⟨rfl, ‹_›⟩

/-- What happens meanwhile. -/
theorem sendDeed_of_elsewhere {e : Elsewhere} (he : w.elsewhere e = some w') (h : Nat) :
    SendDeed h w w' (e.Whole w) fun t => t.elsewhere h w e := by
  have hgrows := allows_buffer.grows_elsewhere he
  have hbuffer := keepsBuffer_of_grows hgrows h
  cases e with
  | completes i data =>
    obtain ⟨pending, hi, hrest⟩ := Option.bind_eq_some_iff.mp he
    obtain ⟨w₁, htransfer, hret⟩ := Option.bind_eq_some_iff.mp hrest
    cases hret
    by_cases hop : pending.op = ⟨h, .write⟩
    · obtain ⟨rfl, hdata⟩ := transfer_write hop htransfer
      refine .completes i pending data hi hop hdata rfl (fun t => ?_) fun hwhole hne => ?_
      · simp [Traffic.elsewhere, hi, hop]
      · exact hwhole pending hi (by rw [hop]) (by rw [hop]; exact hne)
    · obtain ⟨pimpls, rfl, -⟩ := transfer_some htransfer
      have hsends := sends_settle_of_ne (w := { w with pimpls := pimpls }) hi
        (.success data.length) hop
      refine .nothing hsends hbuffer hgrows.1 fun t => ?_
      simp [Traffic.elsewhere, hi, hop]
  | fails i error =>
    obtain ⟨pending, hi, hrest⟩ := Option.bind_eq_some_iff.mp he
    split at hrest <;> cases hrest
    by_cases hop : pending.op = ⟨h, .write⟩
    · refine .fails i pending error hi hop rfl (fun _ => rfl) fun hwhole => ?_
      have hgone := hwhole pending hi (by rw [hop])
      rwa [hop] at hgone
    · exact .nothing (sends_settle_of_ne hi _ hop) hbuffer hgrows.1 fun _ => rfl
  | posts f =>
    cases he
    exact .nothing rfl hbuffer hgrows.1 fun _ => rfl
  | opens n =>
    simp only [elsewhere] at he
    split at he <;> cases he
    exact .nothing rfl hbuffer hgrows.1 fun _ => rfl

/-- What the loop does with a completion begins reads only. -/
theorem sends_of_dispatch {packet : Packet} {refused : Option Nat} {out : Next}
    (hd : Dispatch w packet refused out) : out.state.sends h = w.sends h := by
  cases hd with
  | failed =>
    unfold World.failed
    split <;> rw [callThen_state]
  | accepted htype hsocket hoperation hnewSocket hnew hstart =>
    rw [callThen_state]
    exact sends_start hstart (by simp)
  | connected htype hsocket hoperation hstart =>
    rw [callThen_state]
    exact sends_start hstart (by simp)
  | disconnected => rw [callThen_state]
  | received => rw [callThen_state]
  | sent =>
    rw [callThen_state]
    exact sends_of_eq rfl
  | _ => rfl

/-- The traffic when `write` returns. -/
theorem stretch_wrote {o x r : Nat} {buffer : List Byte} {refused : Option Nat} {ns : List Note}
    (hres : resume w (.api (.write o buffer)) (.start refused) = some (.ret w' (.size r) ns))
    (howned : w.owned o = some (x, p)) (h : Nat) (t : Traffic) :
    t.stretch h w (.api (.write o buffer)) (.start refused) =
      if x = h then t.wrote buffer r else t := by
  have hobject := (owned_iff.mp howned).1
  simp only [Traffic.stretch, hres, hobject, Option.some.injEq]

/-- The traffic when `write` throws. -/
theorem stretch_threw {o : Nat} {buffer : List Byte} {refused : Option Nat} {ns : List Note}
    (hres : resume w (.api (.write o buffer)) (.start refused) = some (.throw w' ns))
    (h : Nat) (t : Traffic) : t.stretch h w (.api (.write o buffer)) (.start refused) = t := by
  simp only [Traffic.stretch, hres]

/-- **What a stretch of code does to the writes of a pimpl.** -/
theorem sendDeed_of_resume {f : Frame} {a : Answer} {out : Next}
    (hres : resume w f a = some out) (h : Nat) :
    SendDeed h w out.state (w.Whole f a) fun t => t.stretch h w f a := by
  have hs := stretch_of_resume hres
  -- every stretch but those of `write` and of the kernel
  have hother : out.state.sends h = w.sends h → (∀ o buffer, f ≠ .api (.write o buffer)) →
      (∀ t : Traffic, t.stretch h w f a = t) →
      SendDeed h w out.state (w.Whole f a) fun t => t.stretch h w f a := by
    intro hsends hf hg
    have hgrows := grows_buffer hs hf
    exact .nothing hsends (keepsBuffer_of_grows hgrows h) hgrows.1 hg
  cases hs with
  | socket => exact hother (sends_of_eq (constructSocket_outstanding ..)) (by simp) fun _ => rfl
  | adopt => exact hother (sends_of_eq (construct_outstanding ..)) (by simp) fun _ => rfl
  | move hmove =>
    obtain ⟨⟨x, p⟩, -, rfl⟩ := Option.map_eq_some_iff.mp hmove
    exact hother rfl (by simp) fun _ => rfl
  | close => exact hother (sends_of_eq (close_outstanding ..)) (by simp) fun _ => rfl
  | connect howned hstart => exact hother (sends_start hstart (by simp)) (by simp) fun _ => rfl
  | listen => exact hother (sends_of_eq (constructSocket_outstanding ..)) (by simp) fun _ => rfl
  | @writeBusy o x p buffer refused howned hinUse =>
    have hg := stretch_wrote hres howned h
    by_cases hx : x = h
    · subst hx
      exact .busy p buffer (owned_iff.mp howned).2 rfl fun t => (hg t).trans (if_pos rfl)
    · exact .nothing rfl (keepsBuffer_of_eq rfl) (Nat.le_refl _) fun t =>
        (hg t).trans (if_neg hx)
  | @write o x p buffer refused w' howned hinUse hstart =>
    have hg := stretch_wrote hres howned h
    by_cases hx : x = h
    · subst hx
      obtain ⟨key, -, -, hw'⟩ := start_some hstart
      exact .begins p buffer key (owned_iff.mp howned).2 hinUse hw' fun t =>
        (hg t).trans (if_pos rfl)
    · have hsends : w'.sends h = World.sends (w.put x (p.fill buffer)) h :=
        sends_start hstart (by simp [hx])
      obtain ⟨hpimpls, hfresh⟩ := start_frame hstart
      have hkeeps : w'.pimpls h = w.pimpls h := by
        rw [hpimpls]
        exact Function.update_of_ne (Ne.symm hx) ..
      exact .nothing hsends (keepsBuffer_of_eq hkeeps) (Nat.le_of_eq hfresh.symm) fun t =>
        (hg t).trans (if_neg hx)
  | @writeFailed o x p buffer refused howned hinUse hstart =>
    have hg := stretch_threw hres h
    by_cases hx : x = h
    · subst hx
      exact .refused p buffer (owned_iff.mp howned).2 hinUse rfl hg
    · exact .nothing rfl (keepsBuffer_of_eq (Function.update_of_ne (Ne.symm hx) ..))
        (Nat.le_refl _) hg
  | elsewhereCalled helsewhere => exact sendDeed_of_elsewhere helsewhere h
  | elsewhere helsewhere =>
    have hdeed := sendDeed_of_elsewhere helsewhere h
    unfold Traffic.stretch Whole
    exact hdeed
  | dequeue hrun hqueue hdispatch =>
    have hsends := sends_of_dispatch (h := h) hdispatch
    exact hother hsends (by simp) fun _ => rfl
  | restart hsocket hstart => exact hother (sends_start hstart (by simp)) (by simp) fun _ => rfl
  | destroying => exact hother (sends_of_eq (close_outstanding ..)) (by simp) fun _ => rfl
  | acceptEx hp hstart => exact hother (sends_start hstart (by simp)) (by simp) fun _ => rfl
  | _ => exact hother rfl (by simp) fun _ => rfl

/-! ## The bytes accepted and the bytes transferred -/

/-- No call took more than it was given or than the buffer holds, and the bytes accepted
are those transferred and those in flight. -/
structure Sent (h : Nat) (w : World) (t : Traffic) : Prop where
  fits : ∀ x ∈ t.written, x.2 ≤ min x.1.length SocketBasePimpl.bufferSize
  beyond : w.fresh ≤ h → t = .none
  accepted : ∀ p, w.pimpls h = some p → t.accepted = t.transferred ++ w.inFlight h p

theorem inFlight_nil (hsends : w.sends h = []) (p : SocketBasePimpl) : w.inFlight h p = [] := by
  unfold inFlight
  rw [hsends]
  rfl

theorem inFlight_congr (hsends : w'.sends h = w.sends h)
    (hbuffer : q.writeOp.buffer = p.writeOp.buffer) : w'.inFlight h q = w.inFlight h p := by
  unfold inFlight
  rw [hsends, hbuffer]

/-- What `write` puts into the buffer comes first there. -/
theorem take_fill (p : SocketBasePimpl) (buffer : List Byte) :
    (p.fill buffer).writeOp.buffer.take (min SocketBasePimpl.bufferSize buffer.length) =
      buffer.take (min SocketBasePimpl.bufferSize buffer.length) := by
  have hlength : (buffer.take (min SocketBasePimpl.bufferSize buffer.length)).length =
      min SocketBasePimpl.bufferSize buffer.length := by
    rw [List.length_take]
    omega
  exact List.take_left' hlength

theorem fits_wrote {buffer : List Byte} {r : Nat} (hs : Sent h w t)
    (hr : r ≤ min buffer.length SocketBasePimpl.bufferSize) :
    ∀ x ∈ (t.wrote buffer r).written, x.2 ≤ min x.1.length SocketBasePimpl.bufferSize := by
  intro x hx
  rcases List.mem_append.mp hx with hx | hx
  · exact hs.fits x hx
  · obtain rfl := List.mem_singleton.mp hx
    exact hr

/-- **A deed keeps the account**, if a `WSASend` that it completes has moved its whole
buffer. -/
theorem Sent.deed {good : Prop} {g : Traffic → Traffic} (hw : w.Guarded) (hs : Sent h w t)
    (hd : SendDeed h w w' good g) (hgood : good) : Sent h w' (g t) := by
  cases hd with
  | nothing hsends hbuffer hfresh hg =>
    rw [hg t]
    refine ⟨hs.fits, fun hge => hs.beyond (Nat.le_trans hfresh hge), fun p' hp' => ?_⟩
    rcases hbuffer p' hp' with ⟨p, hp, hsame⟩ | hge
    · rw [inFlight_congr hsends hsame]
      exact hs.accepted p hp
    · rw [inFlight_nil (hsends.trans (hw.sends_beyond hge)), hs.beyond hge]
      rfl
  | busy p buffer hp hw' hg =>
    subst hw'
    rw [hg t]
    refine ⟨fits_wrote hs (Nat.zero_le _), fun hge => ?_, fun p' hp' => ?_⟩
    · exact absurd (hw.lt_fresh hp) (Nat.not_lt.mpr hge)
    · rw [Traffic.accepted_wrote, List.take_zero, List.append_nil, Traffic.transferred_wrote]
      exact hs.accepted p' hp'
  | begins p buffer key hp hinUse hw' hg =>
    subst hw'
    rw [hg t]
    refine ⟨fits_wrote hs (Nat.le_of_eq (Nat.min_comm ..)), fun hge => ?_, fun p' hp' => ?_⟩
    · exact absurd (hw.lt_fresh hp) (Nat.not_lt.mpr hge)
    · -- nothing was outstanding, so all that was accepted is transferred
      have hnil := hw.sends_eq_nil hp hinUse
      have hbefore := hs.accepted p hp
      rw [inFlight_nil hnil, List.append_nil] at hbefore
      change Function.update w.pimpls h (some (p.fill buffer)) h = some p' at hp'
      rw [Function.update_self, Option.some.injEq] at hp'
      subst hp'
      unfold inFlight
      rw [sends_begin hnil rfl rfl, List.flatMap_singleton, take_fill, Traffic.accepted_wrote,
        hbefore, Traffic.transferred_wrote]
  | refused p buffer hp hinUse hw' hg =>
    subst hw'
    rw [hg t]
    refine ⟨hs.fits, fun hge => ?_, fun p' hp' => ?_⟩
    · exact absurd (hw.lt_fresh hp) (Nat.not_lt.mpr hge)
    · have hnil := hw.sends_eq_nil hp hinUse
      have hbefore := hs.accepted p hp
      rw [inFlight_nil hnil] at hbefore
      rw [inFlight_nil (w := w.put h (p.fill buffer)) hnil]
      exact hbefore
  | completes i pending data hi hop hdata hw' hg hwhole =>
    obtain ⟨hone, hnone⟩ := hw.sends_settle_self hi (.success data.length) hop
    rw [hg t, hw']
    refine ⟨hs.fits, fun hge => ?_, fun p hp => ?_⟩
    · rw [hw.sends_beyond hge] at hone
      cases hone
    · change w.pimpls h = some p at hp
      have hlength := hwhole hgood (by simp [hp])
      have hall : data = p.writeOp.buffer.take pending.len := by
        refine (hdata p hp).eq_of_length_le ?_
        rw [List.length_take, hlength]
        exact Nat.min_le_left ..
      have hbefore := hs.accepted p hp
      unfold inFlight at hbefore
      rw [hone, List.flatMap_singleton, ← hall] at hbefore
      rw [inFlight_nil hnone, List.append_nil, Traffic.accepted_sent, Traffic.transferred_sent]
      exact hbefore
  | fails i pending error hi hop hw' hg hgone =>
    obtain ⟨hone, -⟩ := hw.sends_settle_self hi (.failure error) hop
    rw [hg t, hw']
    refine ⟨hs.fits, fun hge => ?_, fun p hp => ?_⟩
    · rw [hw.sends_beyond hge] at hone
      cases hone
    · change w.pimpls h = some p at hp
      exact nomatch (hgone hgood).symm.trans hp

/-- **While a `WSASend` is outstanding the buffer stays as it is.** -/
theorem SendDeed.buffer_eq {good : Prop} {g : Traffic → Traffic} (hw : w.Guarded)
    (hd : SendDeed h w w' good g) (hsends : w.sends h ≠ []) (hp : w.pimpls h = some p)
    (hq : w'.pimpls h = some q) :
    q.writeOp.buffer = p.writeOp.buffer := by
  cases hd with
  | nothing _ hbuffer _ _ =>
    rcases hbuffer q hq with ⟨p', hp', hsame⟩ | hge
    · obtain rfl : p' = p := Option.some.inj (hp'.symm.trans hp)
      exact hsame
    · exact absurd (hw.sends_beyond hge) hsends
  | busy p' buffer hp' hw' =>
    rw [hw', hp] at hq
    rw [Option.some.inj hq]
  | begins p' buffer key hp' hinUse hw' => exact absurd (hw.sends_eq_nil hp' hinUse) hsends
  | refused p' buffer hp' hinUse hw' => exact absurd (hw.sends_eq_nil hp' hinUse) hsends
  | completes i pending data hi hop hdata hw' =>
    rw [hw'] at hq
    rw [Option.some.inj (hq.symm.trans hp)]
  | fails i pending error hi hop hw' =>
    rw [hw'] at hq
    rw [Option.some.inj (hq.symm.trans hp)]

end World

/-- What an event does to the writes of a pimpl. -/
theorem sendDeed_of_step {c c' : Configuration} {e : Event Op Answer}
    (hstep : step object c e = some c') (h : Nat) :
    World.SendDeed h c.state c'.state (Before (fun w f _ a => w.Whole f a) c e)
      (Traffic.event h c e) := by
  have hquiet : c'.state = c.state → (∀ t, Traffic.event h c e t = t) →
      World.SendDeed h c.state c'.state (Before (fun w f _ a => w.Whole f a) c e)
        (Traffic.event h c e) := by
    intro hstate hg
    rw [hstate]
    exact .nothing rfl (World.keepsBuffer_of_eq rfl) (Nat.le_refl _) hg
  rcases (Step.of_step hstep).stretch with ⟨o, rfl, -, rfl⟩ |
    ⟨f, rest, a, out, kept, hstack, ha, hres, hstate, -⟩ | ⟨rfl, hstate, -⟩
  · exact hquiet rfl fun _ => rfl
  · have hdeed := World.sendDeed_of_resume hres h
    have hevent : Traffic.event h c e = fun t => t.stretch h c.state f a := by
      funext t
      simp only [Traffic.event, ha, hstack]
    rw [hstate, hevent]
    simpa only [Before, ha, hstack] using hdeed
  · exact hquiet hstate fun _ => rfl

/-- **What the writes of a socket transfer.**  Let the `WSASend` that complete along a run
have moved their whole buffers.  Then `write` has returned at most the length of its
argument and at most 10240; of each socket at most one `WSASend` is outstanding; the bytes
that the calls accepted, the first `r` of each argument for the `r` returned, are those
transferred and then those of the outstanding `WSASend`, in order; and the buffer stays as
it is while one is outstanding, whatever happens next. -/
theorem writes_transferred {h : Nat} {es : List (Event Op Answer)} {c : Configuration}
    {t : Traffic} (hr : Runs.run (withTraffic h) (Config.start World.new, .none) es = some (c, t))
    (hwhole : Runs.Along (withTraffic h) (fun x e => Before (fun w f _ a => w.Whole f a) x.1 e)
      (Config.start World.new, .none) es) :
    (∀ x ∈ t.written, x.2 ≤ min x.1.length (10 * 1024)) ∧
      (c.state.sends h).length ≤ 1 ∧
      (∀ p, c.state.pimpls h = some p →
        (t.written.flatMap fun x => x.1.take x.2) = t.transferred ++ c.state.inFlight h p) ∧
      ∀ e c', step object c e = some c' → c.state.sends h ≠ [] →
        ∀ p q, c.state.pimpls h = some p → c'.state.pimpls h = some q →
          q.writeOp.buffer = p.writeOp.buffer := by
  have hinv : c.state.Guarded ∧ c.state.Sent h t := by
    refine Runs.run_invariant_along (I := fun x => x.1.state.Guarded ∧ x.1.state.Sent h x.2)
      ?_ ?_ hwhole hr
    · rintro ⟨c, t⟩ e ⟨c', t'⟩ ⟨hw, hs⟩ hgood hstep
      obtain ⟨hstep', ht⟩ := Runs.observe_some.mp hstep
      dsimp only at hw hs hgood hstep' ht ⊢
      subst ht
      exact ⟨hw.deed (slotDeed_of_step hw hstep'), hs.deed hw (sendDeed_of_step hstep' h) hgood⟩
    · exact ⟨World.new_guarded, by simp [Traffic.none], fun _ => rfl, fun _ hp => nomatch hp⟩
  obtain ⟨hw, hs⟩ := hinv
  refine ⟨hs.fits, Nat.le_trans (World.length_sends_le ..) (hw.one h), hs.accepted, ?_⟩
  intro e c' hstep hsends p q hp hq
  exact (sendDeed_of_step hstep h).buffer_eq hw hsends hp hq

/-- Two more writes after those of `writeOnce`: in `on_sent`, and while that one is
outstanding. -/
def writeAgain : List (Event Op Answer) :=
  writeOnce ++ [.call (.write 0 [4, 5]), .code (.start none), .call (.write 0 [6]),
    .code (.start none)]

/-- Two of the three writes are accepted, and one of them is transferred. -/
theorem writes_transferred_writeAgain :
    ∃ c, Runs.run (withTraffic 0) (Config.start World.new, .none) writeAgain =
        some (c, ⟨[([1, 2, 3], 3), ([4, 5], 2), ([6], 0)], [1, 2, 3]⟩) ∧
      ∀ p, c.state.pimpls 0 = some p → c.state.inFlight 0 p = [4, 5] := by
  obtain ⟨⟨c, t⟩, hr, ht⟩ :
      ∃ x, Runs.run (withTraffic 0) (Config.start World.new, .none) writeAgain = some x ∧
        x.2 = ⟨[([1, 2, 3], 3), ([4, 5], 2), ([6], 0)], [1, 2, 3]⟩ :=
    Runs.exists_run (by decide)
  dsimp only at ht
  subst ht
  obtain ⟨-, -, haccepted, -⟩ := writes_transferred hr (by decide)
  refine ⟨c, hr, fun p hp => ?_⟩
  exact (List.append_cancel_left (haccepted p hp)).symm

end Windows
end AcppNetwork
