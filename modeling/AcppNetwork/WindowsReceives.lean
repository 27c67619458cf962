import AcppNetwork.WindowsSteps

/-!
# The bytes of the Windows reads

A socket has one `read_op` with one buffer.  Reading begins when a connection is complete, of
`ConnectEx` or `AcceptEx`, and after `on_received` the loop calls `start_read` again; nothing
looks whether a `WSARecv` is outstanding.  Beside a run we observe, for one pimpl, how often
reading began, the bytes that the kernel put into the buffer, those that the loop took from
there, and the calls of `on_disconnected` (`Intake`).

Let the handles on which reading begins be associated with the port under the address of their
own pimpl (`World.ReadsOwn`).  Then each beginning is good for one `WSARecv` at a time, and for
one `on_disconnected`, and what the loop takes it passes to `on_received` exactly if that is
set.  So if reading began once, the loop takes the bytes transferred, in order, and has still
to take only those of a completion in the queue (`reads_received`).
-/
namespace AcppNetwork
namespace Windows

open Reentrant
open Linux (Callbacks Callback)

/-- The completion of a read of the pimpl at `h`. -/
def Packet.read? (h : Nat) : Packet → Option Status
  | .io _ op status => if op = ⟨h, .read⟩ then some status else none
  | .exec _ => none

/-- The bytes of a completion that lie in the buffer. -/
def Status.bytes (buffer : List Byte) : Status → List Byte
  | .success n => buffer.take n
  | .failure _ => []

/-- The pimpl for which an activation is to call `start_read`. -/
def Frame.restarts : Frame → Option Nat
  | .received key => some key
  | .destroying _ next | .deleting _ next => next.restarts
  | _ => none

/-- How many are to call it for the pimpl at `h`. -/
def restarts (fs : List Frame) (h : Nat) : Nat := (fs.filterMap Frame.restarts).count h

theorem restarts_append (fs gs : List Frame) (h : Nat) :
    restarts (fs ++ gs) h = restarts fs h + restarts gs h := by
  unfold restarts
  rw [List.filterMap_append, List.count_append]

namespace World

/-- The `WSARecv` of the pimpl at `h` that are outstanding. -/
def reading (w : World) (h : Nat) : List Pending := w.outstanding.filter (·.op = ⟨h, .read⟩)

/-- Those that have completed, and whose completion is in the queue. -/
def finished (w : World) (h : Nat) : List Status := w.queue.filterMap (Packet.read? h)

/-- The bytes of these. -/
def waiting (w : World) (h : Nat) (p : SocketBasePimpl) : List Byte :=
  (w.finished h).flatMap (Status.bytes p.readBuffer)

/-- There is a pimpl at `h`, and its `on_received` is set. -/
def onReceivedSet (w : World) (h : Nat) : Bool := (w.pimpls h).any (·.callbacks.onReceived)

/-- The pimpl on which a stretch of code would begin to read. -/
def beginsRead (w : World) : Frame → Option Nat
  | .received key => some key
  | .loop _ =>
      match w.queue.head? with
      | some (.io key op (.success _)) =>
          match op.type with
          | .connect => some key
          | .accept => (((w.pimpls op.pimpl).bind (·.newSocket)).bind w.owned).map Prod.fst
          | .read | .write => none
      | _ => none
  | _ => none

/-- The handle of a pimpl on which reading begins is associated with the port under the
pimpl's own address. -/
def ReadsOwn (w : World) (f : Frame) : Answer → Prop
  | .start _ => ∀ h ∈ w.beginsRead f, ∀ p ∈ w.pimpls h, ∀ key ∈ w.handles p.fd, key = some h
  | _ => True

instance (w : World) (f : Frame) : (a : Answer) → Decidable (w.ReadsOwn f a)
  | .start _ => inferInstanceAs (Decidable (∀ h ∈ _, ∀ p ∈ _, ∀ key ∈ _, _))
  | .opened _ | .listen _ | .posted _ | .waitFailed _ | .elsewhere _ | .go => .isTrue trivial

end World

/-! ## What is observed -/

/-- The bytes of one completion that the loop took: whether `on_received` of the pimpl was set
then, and whether it was called with them, for the parent of the pimpl. -/
structure Piece where
  data : List Byte
  onReceived : Bool
  called : Bool
  deriving DecidableEq

/-- How often reading began; the bytes transferred; what the loop took; the calls of
`on_disconnected`. -/
structure Intake where
  starts : Nat
  transferred : List Byte
  taken : List Piece
  disconnects : Nat
  deriving DecidableEq

namespace Intake

/-- Nothing so far. -/
def none : Intake := ⟨0, [], [], 0⟩

/-- All the bytes that the loop took. -/
def bytes (t : Intake) : List Byte := t.taken.flatMap Piece.data

/-- A `WSARecv` completed. -/
def received (t : Intake) (data : List Byte) : Intake :=
  { t with transferred := t.transferred ++ data }

/-- The loop took these bytes. -/
def took (t : Intake) (piece : Piece) : Intake := { t with taken := t.taken ++ [piece] }

/-- An operation completes. -/
def elsewhere (h : Nat) (w : World) (t : Intake) : Elsewhere → Intake
  | .completes i data =>
      if (w.outstanding[i]?).any (·.op = ⟨h, .read⟩) then t.received data else t
  | _ => t

/-- The loop handled the completion of a read of the pimpl at `h`. -/
def handled (h : Nat) (w : World) (status : Status) (callOuts : List CallOut) (t : Intake) :
    Intake :=
  match status, callOuts with
  | _, [.callback parent (.onReceived data)] =>
      t.took ⟨data, w.onReceivedSet h, (w.pimpls h).any (·.parent = parent)⟩
  | _, [.callback _ .onDisconnected] => { t with disconnects := t.disconnects + 1 }
  | .success (n + 1), _ =>
      t.took ⟨((w.pimpls h).map fun p => p.readBuffer.take (n + 1)).getD [], w.onReceivedSet h,
        false⟩
  | _, _ => t

/-- The loop handled a completion. -/
def dequeued (h : Nat) (w : World) (out : Next) (t : Intake) : Intake :=
  match w.queue.head?.bind (Packet.read? h) with
  | some status => t.handled h w status out.callOuts
  | Option.none =>
      { t with starts := t.starts + ((out.state.reading h).length - (w.reading h).length) }

/-- A stretch of code runs. -/
def stretch (h : Nat) (w : World) (f : Frame) (a : Answer) (t : Intake) : Intake :=
  match f, a with
  | _, .elsewhere e | .api (.elsewhere e), _ => t.elsewhere h w e
  | .loop key, .start refused =>
      match resume w (.loop key) (.start refused) with
      | some out => t.dequeued h w out
      | Option.none => t
  | _, _ => t

/-- What is observed with an event. -/
def event (h : Nat) (c : Configuration) (e : Event Op Answer) (t : Intake) : Intake :=
  match e.answer?, c.stack with
  | some a, .code f :: _ => t.stretch h c.state f a
  | _, _ => t

end Intake

/-- A context with the intake of the pimpl at `h`. -/
def withIntake (h : Nat) : Configuration × Intake → Event Op Answer →
    Option (Configuration × Intake) :=
  Runs.observe (step object) (Intake.event h)

namespace Intake
variable (t : Intake)

@[simp] theorem bytes_took (piece : Piece) : (t.took piece).bytes = t.bytes ++ piece.data := by
  unfold bytes took
  rw [List.flatMap_append, List.flatMap_singleton]

@[simp] theorem bytes_received (data : List Byte) : (t.received data).bytes = t.bytes := rfl

end Intake

namespace World
variable {w w' : World} {h x : Nat} {p q : SocketBasePimpl} {f : Frame} {a : Answer} {out : Next}

/-! ## Reads know their own pimpl -/

/-- The completion of a read has, or will have, the address of its pimpl as key. -/
structure Keyed (w : World) : Prop where
  outstanding : ∀ pending ∈ w.outstanding, pending.op.type = .read →
    pending.key = some pending.op.pimpl
  queue : ∀ key op status, .io key op status ∈ w.queue → op.type = .read → key = op.pimpl

theorem new_keyed : World.new.Keyed := by
  refine ⟨fun pending hmem => ?_, fun key op status hmem => ?_⟩ <;> cases hmem

theorem Keyed.of_eq (hw : w.Keyed) (houtstanding : w'.outstanding = w.outstanding)
    (hqueue : w'.queue = w.queue) : w'.Keyed := by
  refine ⟨?_, ?_⟩
  · rw [houtstanding]
    exact hw.outstanding
  · rw [hqueue]
    exact hw.queue

/-- An operation begins, if a read then on a handle with the right key. -/
theorem Keyed.start (hw : w.Keyed) {op : Overlapped} {fd : Int} {len : Nat}
    {refused : Option Nat} (hstart : w.start op fd len refused = some w')
    (hown : op.type = .read → ∀ key ∈ w.handles fd, key = some op.pimpl) : w'.Keyed := by
  obtain ⟨key, hkey, -, rfl⟩ := start_some hstart
  refine ⟨fun pending hmem htype => ?_, hw.queue⟩
  rcases List.mem_append.mp hmem with hmem | hmem
  · exact hw.outstanding pending hmem htype
  · obtain rfl := List.mem_singleton.mp hmem
    exact hown htype key hkey

theorem Keyed.settle (hw : w.Keyed) {i : Nat} {pending : Pending}
    (hi : w.outstanding[i]? = some pending) (status : Status) :
    (w.settle i pending status).Keyed := by
  refine ⟨fun other hmem => hw.outstanding other (List.mem_of_mem_eraseIdx hmem),
    fun key op st hmem htype => ?_⟩
  rcases List.mem_append.mp hmem with hmem | hmem
  · exact hw.queue key op st hmem htype
  · obtain ⟨key', hkey, heq⟩ := Option.map_eq_some_iff.mp (Option.mem_toList.mp hmem)
    cases heq
    have hown := hw.outstanding pending (List.mem_of_getElem? hi) htype
    rw [hkey] at hown
    exact Option.some.inj hown

theorem Keyed.elsewhere (hw : w.Keyed) {e : Elsewhere} (he : w.elsewhere e = some w') :
    w'.Keyed := by
  rcases elsewhere_some he with ⟨i, pending, pimpls, status, -, hi, -, rfl⟩ | ⟨f, -, rfl⟩ |
    ⟨n, -, -, rfl⟩
  · have hsame : Keyed { w with pimpls := pimpls } := hw.of_eq rfl rfl
    exact hsame.settle hi status
  · refine ⟨hw.outstanding, fun key op status hmem => ?_⟩
    rcases List.mem_append.mp hmem with hmem | hmem
    · exact hw.queue key op status hmem
    · cases List.mem_singleton.mp hmem
  · exact hw.of_eq rfl rfl

theorem Keyed.rest (hw : w.Keyed) {packet : Packet} {rest : List Packet}
    (hqueue : w.queue = packet :: rest) : Keyed { w with queue := rest } := by
  refine ⟨hw.outstanding, fun key op status hmem => hw.queue key op status ?_⟩
  rw [hqueue]
  exact List.mem_cons_of_mem _ hmem

theorem Keyed.dispatch {packet : Packet} {rest : List Packet} {refused key : Option Nat}
    (hw : w.Keyed) (hqueue : w.queue = packet :: rest)
    (hown : w.ReadsOwn (.loop key) (.start refused))
    (hd : Dispatch { w with queue := rest } packet refused out) : out.state.Keyed := by
  have hrest := hw.rest hqueue
  cases hd with
  | failed =>
    unfold World.failed
    split <;> (rw [callThen_state]; exact hrest)
  | @accepted key op n refused socket operation o x new w' htype hsocket hoperation hnewSocket hnew
      hstart =>
    rw [callThen_state]
    refine hrest.start hstart fun _ k hk => hown x ?_ new (owned_iff.mp hnew).2 k hk
    have howned : w.owned o = some (x, new) := hnew
    have hpimpl : w.pimpls op.pimpl = some operation := hoperation
    simp [beginsRead, hqueue, htype, hpimpl, hnewSocket, howned]
  | @connected key op n refused socket operation w' htype hsocket hoperation hstart =>
    rw [callThen_state]
    refine hrest.start hstart fun _ k hk => hown key ?_ socket hsocket k hk
    simp [beginsRead, hqueue, htype]
  | disconnected | received =>
    rw [callThen_state]
    exact hrest
  | sent =>
    rw [callThen_state]
    exact hrest.of_eq rfl rfl
  | _ => exact hrest

theorem Keyed.stretch (hw : w.Keyed) (hown : w.ReadsOwn f a) (hs : Stretch w f a out) :
    out.state.Keyed := by
  have begins : ∀ {v v' : World} {op : Overlapped} {fd : Int} {len : Nat} {refused : Option Nat},
      v.Keyed → v.start op fd len refused = some v' → op.type ≠ .read → v'.Keyed :=
    fun hv hstart htype => hv.start hstart fun h => absurd h htype
  cases hs with
  | exec =>
    refine ⟨hw.outstanding, fun key op status hmem => ?_⟩
    rcases List.mem_append.mp hmem with hmem | hmem
    · exact hw.queue key op status hmem
    · cases List.mem_singleton.mp hmem
  | @socket domain type protocol callbacks a hopens =>
    obtain ⟨fd, heq⟩ := constructSocket_eq w domain type protocol callbacks a
    show World.Keyed (w.constructSocket ..)
    rw [heq]
    exact hw.of_eq rfl rfl
  | adopt =>
    show World.Keyed (w.construct ..)
    rw [construct_eq]
    exact hw.of_eq rfl rfl
  | move hmove =>
    obtain ⟨⟨x, p⟩, -, rfl⟩ := Option.map_eq_some_iff.mp hmove
    exact hw.of_eq rfl rfl
  | close =>
    show World.Keyed (w.close ..)
    rw [close_eq]
    exact hw.of_eq rfl rfl
  | connect howned hstart => exact begins hw hstart (by simp)
  | @listen o x p a howned hopen hopens =>
    obtain ⟨fd, heq⟩ := constructSocket_eq w p.domain p.type p.protocol noCallbacks a
    show World.Keyed (World.put (w.constructSocket ..) ..)
    rw [heq]
    exact hw.of_eq rfl rfl
  | @write o x p buffer refused w' howned hinUse hstart =>
    have hput : (w.put x (p.fill buffer)).Keyed := hw.of_eq rfl rfl
    exact begins hput hstart (by simp)
  | elsewhereCalled he | elsewhere he => exact hw.elsewhere he
  | dequeue hrun hqueue hdispatch => exact hw.dispatch hqueue hown hdispatch
  | @restart key refused socket w' hsocket hstart =>
    exact hw.start hstart fun _ k hk => hown key rfl socket hsocket k hk
  | @destroying o x p next howned =>
    show World.Keyed (World.close ..)
    rw [close_eq]
    exact hw.of_eq rfl rfl
  | acceptEx hp hstart => exact begins hw hstart (by simp)
  | _ => exact hw.of_eq rfl rfl

/-! ## What is in flight -/

/-- What is in flight for the pimpl at `h`: reads outstanding, and completions in the queue. -/
structure SameReads (h : Nat) (w w' : World) : Prop where
  reading : w'.reading h = w.reading h
  finished : w'.finished h = w.finished h

theorem sameReads_of_eq (houtstanding : w'.outstanding = w.outstanding)
    (hqueue : w'.queue = w.queue) : SameReads h w w' := by
  constructor
  · unfold reading
    rw [houtstanding]
  · unfold finished
    rw [hqueue]

theorem SameReads.trans {w'' : World} (h' : SameReads h w w') (h'' : SameReads h w' w'') :
    SameReads h w w'' :=
  ⟨h''.reading.trans h'.reading, h''.finished.trans h'.finished⟩

/-- Another operation begins. -/
theorem sameReads_start {op : Overlapped} {fd : Int} {len : Nat} {refused : Option Nat}
    (hstart : w.start op fd len refused = some w') (hop : op ≠ ⟨h, .read⟩) :
    SameReads h w w' := by
  obtain ⟨key, -, -, rfl⟩ := start_some hstart
  refine ⟨?_, rfl⟩
  unfold reading
  rw [List.filter_append, List.filter_singleton, decide_eq_false hop]
  exact List.append_nil _

/-- A read of the pimpl begins. -/
theorem reading_start {fd : Int} {len : Nat} {refused : Option Nat}
    (hstart : w.start ⟨h, .read⟩ fd len refused = some w') :
    (w'.reading h).length = (w.reading h).length + 1 ∧ w'.finished h = w.finished h ∧
      w'.pimpls = w.pimpls ∧ w'.fresh = w.fresh := by
  obtain ⟨key, -, -, rfl⟩ := start_some hstart
  refine ⟨?_, rfl, rfl, rfl⟩
  unfold reading
  rw [List.filter_append, List.length_append]
  simp

/-- An operation is over: if it was a read of the pimpl, its completion comes last in the
queue. -/
theorem Keyed.settled (hw : w.Keyed) {i : Nat} {pending : Pending}
    (hi : w.outstanding[i]? = some pending) (status : Status) :
    (pending.op ≠ ⟨h, .read⟩ → SameReads h w (w.settle i pending status)) ∧
      (pending.op = ⟨h, .read⟩ →
        (w.reading h).length = ((w.settle i pending status).reading h).length + 1 ∧
          (w.settle i pending status).finished h = w.finished h ++ [status]) := by
  obtain ⟨hlt, hget⟩ := List.getElem?_eq_some_iff.mp hi
  have hsplit : w.outstanding =
      w.outstanding.take i ++ pending :: w.outstanding.drop (i + 1) := by
    rw [← hget, ← List.drop_eq_getElem_cons hlt, List.take_append_drop]
  have hreading : w.reading h = (w.outstanding.take i).filter (·.op = ⟨h, .read⟩) ++
      (if pending.op = ⟨h, .read⟩ then [pending] else []) ++
        (w.outstanding.drop (i + 1)).filter (·.op = ⟨h, .read⟩) := by
    unfold reading
    conv_lhs => rw [hsplit]
    rw [List.filter_append, List.filter_cons, List.append_assoc]
    simp only [decide_eq_true_eq]
    split <;> rfl
  have hreading' : (w.settle i pending status).reading h =
      (w.outstanding.take i).filter (·.op = ⟨h, .read⟩) ++
        (w.outstanding.drop (i + 1)).filter (·.op = ⟨h, .read⟩) := by
    show List.filter _ (w.outstanding.eraseIdx i) = _
    rw [List.eraseIdx_eq_take_drop_succ, List.filter_append]
  have hfinished : (w.settle i pending status).finished h = w.finished h ++
      ((pending.key.map fun key => Packet.io key pending.op status).toList).filterMap
        (Packet.read? h) := by
    show List.filterMap _ (w.queue ++ _) = _
    rw [List.filterMap_append]
    rfl
  constructor
  · intro hop
    refine ⟨?_, ?_⟩
    · rw [hreading, hreading', if_neg hop, List.append_nil]
    · rw [hfinished]
      cases pending.key <;> simp [Packet.read?, hop]
  · intro hop
    have hkey : pending.key = some h := by
      rw [hw.outstanding pending (List.mem_of_getElem? hi) (by rw [hop]), hop]
    refine ⟨?_, ?_⟩
    · rw [hreading, hreading', if_pos hop]
      simp only [List.length_append, List.length_singleton]
      omega
    · rw [hfinished, hkey]
      simp [Packet.read?, hop]

/-! ## What a stretch does to the reads of a pimpl -/

/-- The pimpl at `h`, if it is there, has the buffer it had, or is new. -/
def KeepsRead (h : Nat) (w w' : World) : Prop :=
  ∀ p', w'.pimpls h = some p' →
    (∃ p, w.pimpls h = some p ∧ p'.readBuffer = p.readBuffer) ∨ w.fresh ≤ h ∧ h < w'.fresh

/-- What becomes of the reads of the pimpl at `h`, of the activations that are to call
`start_read` for it, and of the intake.  Nothing; reading begins, or goes on after
`on_received`; a read is over, with data or not; the loop takes a completion with data, or one
without. -/
inductive ReadDeed (h : Nat) (w : World) (f : Frame) (out : Next) (g : Intake → Intake) : Prop where
  | nothing (hreads : SameReads h w out.state) (hbuffer : KeepsRead h w out.state)
      (hfresh : w.fresh ≤ out.state.fresh)
      (hframes : restarts out.frames h ≤ restarts [f] h) (hg : ∀ t, g t = t)
  | begins (hex : w.pimpls h ≠ none)
      (hreading : (out.state.reading h).length = (w.reading h).length + 1)
      (hfinished : out.state.finished h = w.finished h) (hpimpls : out.state.pimpls = w.pimpls)
      (hfresh : out.state.fresh = w.fresh) (hframes : restarts out.frames h = 0)
      (hg : ∀ t, g t = { t with starts := t.starts + 1 })
  | goesOn (hf : f = .received h)
      (hreading : (out.state.reading h).length = (w.reading h).length + 1)
      (hfinished : out.state.finished h = w.finished h) (hpimpls : out.state.pimpls = w.pimpls)
      (hfresh : out.state.fresh = w.fresh) (hframes : restarts out.frames h = 0)
      (hg : ∀ t, g t = t)
  | isOver (status : Status) (data : List Byte)
      (hreading : (w.reading h).length = (out.state.reading h).length + 1)
      (hfinished : out.state.finished h = w.finished h ++ [status])
      (hbuffer : ∀ p', out.state.pimpls h = some p' → w.pimpls h ≠ none ∧
        status.bytes p'.readBuffer = data)
      (hfresh : out.state.fresh = w.fresh)
      (hframes : restarts out.frames h ≤ restarts [f] h)
      (hg : ∀ t, g t = t.received data)
  | takes (n : Nat) (piece : Piece)
      (hreading : out.state.reading h = w.reading h)
      (hfinished : w.finished h = .success n :: out.state.finished h)
      (hpimpls : out.state.pimpls = w.pimpls) (hfresh : out.state.fresh = w.fresh)
      (hdata : ∀ p, w.pimpls h = some p → piece.data = p.readBuffer.take n)
      (hcalled : piece.called = piece.onReceived)
      (hframes : restarts out.frames h ≤ 1) (hg : ∀ t, g t = t.took piece)
  | ends (status : Status) (d : Nat) (hreading : out.state.reading h = w.reading h)
      (hfinished : w.finished h = status :: out.state.finished h)
      (hempty : ∀ buffer, status.bytes buffer = [])
      (hpimpls : out.state.pimpls = w.pimpls) (hfresh : out.state.fresh = w.fresh)
      (hframes : restarts out.frames h = 0) (hd : d ≤ 1)
      (hg : ∀ t, g t = { t with disconnects := t.disconnects + d })

theorem keepsRead_of_eq (hpimpls : w'.pimpls = w.pimpls) : KeepsRead h w w' := by
  intro p' hp'
  exact .inl ⟨p', hpimpls ▸ hp', rfl⟩

theorem keepsRead_update (hp : w.pimpls x = some p)
    (hpimpls : w'.pimpls = Function.update w.pimpls x (some q))
    (hq : q.readBuffer = p.readBuffer) : KeepsRead h w w' := by
  intro p' hp'
  rw [hpimpls] at hp'
  by_cases hx : h = x
  · rw [hx, Function.update_self, Option.some.injEq] at hp'
    exact .inl ⟨p, hx ▸ hp, hp' ▸ hq⟩
  · rw [Function.update_of_ne hx] at hp'
    exact .inl ⟨p', hp', rfl⟩

theorem keepsRead_new {v : Option SocketBasePimpl}
    (hpimpls : w'.pimpls = Function.update w.pimpls w.fresh v) (hfresh : w.fresh < w'.fresh) :
    KeepsRead h w w' := by
  intro p' hp'
  rw [hpimpls] at hp'
  by_cases hx : h = w.fresh
  · exact .inr ⟨Nat.le_of_eq hx.symm, hx ▸ hfresh⟩
  · rw [Function.update_of_ne hx] at hp'
    exact .inl ⟨p', hp', rfl⟩

theorem KeepsRead.trans {w'' : World} (h' : KeepsRead h w w') (h'' : KeepsRead h w' w'')
    (hfresh : w.fresh ≤ w'.fresh) (hfresh' : w'.fresh ≤ w''.fresh) : KeepsRead h w w'' := by
  intro p'' hp''
  rcases h'' p'' hp'' with ⟨p', hp', hsame'⟩ | ⟨hge, hlt⟩
  · rcases h' p' hp' with ⟨p, hp, hsame⟩ | ⟨hge, hlt⟩
    · exact .inl ⟨p, hp, hsame'.trans hsame⟩
    · exact .inr ⟨hge, by omega⟩
  · exact .inr ⟨by omega, hlt⟩

theorem keepsRead_close (hp : w.pimpls x = some p) : KeepsRead h w (w.close x p) := by
  unfold close
  split
  · exact keepsRead_update hp rfl rfl
  · exact keepsRead_of_eq rfl

/-- A completion that is not of a read of the pimpl. -/
theorem dequeued_other {out : Next} {packet : Packet} {rest : List Packet}
    (hqueue : w.queue = packet :: rest) (hnot : packet.read? h = none) (t : Intake) :
    t.dequeued h w out = { t with
      starts := t.starts + ((out.state.reading h).length - (w.reading h).length) } := by
  unfold Intake.dequeued
  rw [hqueue, List.head?_cons, Option.bind_some, hnot]

/-- The loop takes a completion that is not of a read of the pimpl. -/
theorem readDeed_dispatch_other {packet : Packet} {rest : List Packet} {refused key : Option Nat}
    (hw : w.Keyed) (hqueue : w.queue = packet :: rest) (hnot : packet.read? h = none)
    (hd : Dispatch { w with queue := rest } packet refused out) :
    ReadDeed h w (.loop key) out fun t => t.dequeued h w out := by
  have hrest : SameReads h w { w with queue := rest } := by
    refine ⟨rfl, ?_⟩
    unfold finished
    rw [hqueue, List.filterMap_cons, hnot]
  have hg : ∀ t : Intake, t.dequeued h w out = { t with
      starts := t.starts + ((out.state.reading h).length - (w.reading h).length) } :=
    dequeued_other hqueue hnot
  -- nothing begins
  have quiet : SameReads h w out.state → out.state.pimpls = w.pimpls →
      out.state.fresh = w.fresh → restarts out.frames h = 0 →
      ReadDeed h w (.loop key) out fun t => t.dequeued h w out := by
    intro hreads hpimpls hfresh hframes
    refine .nothing hreads (keepsRead_of_eq hpimpls) (Nat.le_of_eq hfresh.symm) (by omega)
      fun t => ?_
    rw [hg t, hreads.reading, Nat.sub_self, Nat.add_zero]
  -- a read begins, of the pimpl or of another one
  have begun : ∀ {y : Nat} {fd : Int} {v : World}, w.pimpls y ≠ none →
      World.start { w with queue := rest } ⟨y, .read⟩ fd SocketBasePimpl.bufferSize refused =
        some v → out.state = v → restarts out.frames h = 0 →
      ReadDeed h w (.loop key) out fun t => t.dequeued h w out := by
    intro y fd v hex hstart hstate hframes
    by_cases hy : y = h
    · subst hy
      obtain ⟨hreading, hfinished, hpimpls, hfresh⟩ := reading_start hstart
      rw [hrest.reading] at hreading
      refine .begins hex (by rw [hstate]; exact hreading) ?_ (by rw [hstate]; exact hpimpls)
        (by rw [hstate]; exact hfresh) hframes fun t => ?_
      · rw [hstate, hfinished, hrest.finished]
      · rw [hg t, hstate, hreading, Nat.add_sub_cancel_left]
    · obtain ⟨hpimpls, hfresh⟩ := start_frame hstart
      have hsame := hrest.trans (sameReads_start hstart (by simp [hy]))
      exact quiet (by rw [hstate]; exact hsame) (by rw [hstate]; exact hpimpls)
        (by rw [hstate]; exact hfresh) hframes
  cases hd with
  | failed =>
    refine quiet ?_ ?_ ?_ ?_ <;> unfold World.failed <;> split <;>
      first
      | (rw [callThen_state]; exact hrest)
      | (rw [callThen_state])
      | (rw [callThen_frames]; rfl)
  | accepted htype hsocket hoperation hnewSocket hnew hstart =>
    refine begun (fun hnone => ?_) hstart (callThen_state ..) (by rw [callThen_frames]; rfl)
    rw [(owned_iff.mp hnew).2] at hnone
    cases hnone
  | connected htype hsocket hoperation hstart =>
    refine begun (fun hnone => ?_) hstart (callThen_state ..) (by rw [callThen_frames]; rfl)
    rw [hsocket] at hnone
    cases hnone
  | disconnected =>
    refine quiet ?_ ?_ ?_ ?_
    · rw [callThen_state]
      exact hrest
    · rw [callThen_state]
    · rw [callThen_state]
    · rw [callThen_frames]
      rfl
  | @received key op n refused socket operation htype hn hsocket hoperation =>
    -- it is the read of another pimpl that goes on
    have hkey : key = op.pimpl :=
      hw.queue key op _ (by rw [hqueue]; exact List.mem_cons_self ..) htype
    have hne : key ≠ h := by
      rintro rfl
      simp [Packet.read?, ← htype, hkey] at hnot
    refine quiet ?_ ?_ ?_ ?_
    · rw [callThen_state]
      exact hrest
    · rw [callThen_state]
    · rw [callThen_state]
    · rw [callThen_frames]
      simp [restarts, Frame.restarts, hne]
  | @sent key op n refused socket operation htype hsocket hoperation =>
    refine .nothing ?_ ?_ ?_ ?_ fun t => ?_
    · rw [callThen_state]
      exact hrest.trans (sameReads_of_eq rfl rfl)
    · rw [callThen_state]
      exact keepsRead_update hoperation rfl rfl
    · rw [callThen_state]
      exact Nat.le_refl _
    · rw [callThen_frames]
      exact Nat.zero_le _
    · rw [hg t, callThen_state]
      show { t with starts := t.starts + ((w.reading h).length - (w.reading h).length) } = t
      rw [Nat.sub_self]
      rfl
  | _ => exact quiet hrest rfl rfl rfl

/-- What a completion without data comes to. -/
theorem handled_empty {status : Status} {callOuts : List CallOut}
    (hempty : ∀ n, status ≠ .success (n + 1))
    (hcalls : ∀ parent data, callOuts ≠ [.callback parent (.onReceived data)]) :
    ∃ d ≤ 1, ∀ t : Intake, t.handled h w status callOuts =
      { t with disconnects := t.disconnects + d } := by
  unfold Intake.handled
  split
  · exact absurd rfl (hcalls _ _)
  · exact ⟨1, Nat.le_refl _, fun t => rfl⟩
  · exact absurd rfl (hempty _)
  · exact ⟨0, Nat.zero_le _, fun t => rfl⟩

theorem callThen_not_received (w : World) (socket : SocketBasePimpl) (g : Frame)
    (ns : List Note) {cb : Callback} (hcb : ∀ data, cb ≠ .onReceived data) (parent : Nat)
    (data : List Byte) :
    (w.callThen socket g ns (socket.callbacks.call? cb)).callOuts ≠
      [.callback parent (.onReceived data)] := by
  unfold callThen
  split
  · rename_i cb' hcall
    obtain rfl := Callbacks.call?_eq_some hcall
    intro heq
    cases heq
    exact hcb data rfl
  · intro heq
    cases heq

/-- The completion of a read has the address of its pimpl as key. -/
theorem Keyed.key_eq (hw : w.Keyed) {key : Nat} {status : Status} {rest : List Packet}
    (hqueue : w.queue = .io key ⟨h, .read⟩ status :: rest) : key = h :=
  hw.queue key ⟨h, .read⟩ status (by rw [hqueue]; exact List.mem_cons_self ..) rfl

/-- `on_received` is called if it is set. -/
theorem call?_onReceived (cbs : Callbacks) (data : List Byte) :
    (cbs.call? (.onReceived data)).isSome = cbs.onReceived := by
  unfold Callbacks.call?
  cases cbs.onReceived <;> rfl

/-- The loop takes a completion of a read of the pimpl. -/
theorem readDeed_dispatch_own {packet : Packet} {rest : List Packet} {refused key : Option Nat}
    {status : Status} (hw : w.Keyed) (hqueue : w.queue = packet :: rest)
    (hown : packet.read? h = some status)
    (hd : Dispatch { w with queue := rest } packet refused out) :
    ReadDeed h w (.loop key) out fun t => t.dequeued h w out := by
  have hg : ∀ t : Intake, t.dequeued h w out = t.handled h w status out.callOuts := by
    intro t
    unfold Intake.dequeued
    rw [hqueue, List.head?_cons, Option.bind_some, hown]
  have hfinished : w.finished h = status :: World.finished { w with queue := rest } h := by
    unfold finished
    rw [hqueue, List.filterMap_cons, hown]
  -- without data
  have nodata : (∀ n, status ≠ .success (n + 1)) →
      (∀ parent data, out.callOuts ≠ [.callback parent (.onReceived data)]) →
      out.state = { w with queue := rest } → restarts out.frames h = 0 →
      ReadDeed h w (.loop key) out fun t => t.dequeued h w out := by
    intro hempty hcalls hstate hframes
    obtain ⟨d, hle, hhandled⟩ := handled_empty (h := h) (w := w) hempty hcalls
    refine .ends status d ?_ ?_ (fun buffer => ?_) ?_ ?_ hframes hle fun t =>
      (hg t).trans (hhandled t)
    · rw [hstate]
      rfl
    · rw [hstate]
      exact hfinished
    · cases status with
      | failure e => rfl
      | success n =>
        cases n with
        | zero => rfl
        | succ n => exact absurd rfl (hempty n)
    · rw [hstate]
    · rw [hstate]
  cases packet with
  | exec f => cases hown
  | io k op st =>
    have hop : op = ⟨h, .read⟩ ∧ st = status := by
      simp only [Packet.read?] at hown
      split at hown
      · exact ⟨‹_›, Option.some.inj hown⟩
      · cases hown
    obtain ⟨rfl, rfl⟩ := hop
    cases hd with
    | gone hgone =>
      cases st with
      | failure e => exact nodata (fun _ => by simp) (fun _ _ => by simp [Outcome.callOuts]) rfl rfl
      | success n =>
        cases n with
        | zero => exact nodata (fun _ => by simp) (fun _ _ => by simp [Outcome.callOuts]) rfl rfl
        | succ n =>
          refine .takes (n + 1) _ rfl hfinished rfl rfl (fun p hp => ?_) ?_ (Nat.zero_le _)
            fun t => hg t
          · rw [hp]
            rfl
          · have hnone : w.pimpls h = none := by
              rcases hgone with hnone | hnone
              · exact hw.key_eq hqueue ▸ hnone
              · exact hnone
            show false = w.onReceivedSet h
            rw [onReceivedSet, hnone]
            rfl
    | @failed _ _ error _ socket operation hsocket hoperation =>
      refine nodata (fun _ => by simp) (fun parent data => ?_) ?_ ?_
      · unfold World.failed
        split <;> exact callThen_not_received _ _ _ _ (by simp) _ _
      · unfold World.failed
        split <;> rw [callThen_state]
      · unfold World.failed
        split <;> (rw [callThen_frames]; rfl)
    | accepted htype => cases htype
    | acceptedGone htype => cases htype
    | connected htype => cases htype
    | startFailed htype => rcases htype with htype | htype <;> cases htype
    | sent htype => cases htype
    | disconnected htype hsocket hoperation =>
      exact nodata (fun _ => by simp)
        (fun parent data => callThen_not_received _ _ _ _ (by simp) _ _) (callThen_state ..)
        (by rw [callThen_frames]; rfl)
    | @received _ _ n _ socket operation htype hn hsocket hoperation =>
      obtain ⟨m, rfl⟩ := Nat.exists_eq_succ_of_ne_zero hn
      have hdata : ∀ p, w.pimpls h = some p →
          operation.readBuffer.take (m + 1) = p.readBuffer.take (m + 1) := by
        intro p hp
        rw [Option.some.inj (hp.symm.trans hoperation)]
      have hsame : socket = operation := by
        have hkey := hw.key_eq hqueue
        subst hkey
        exact Option.some.inj (hsocket.symm.trans hoperation)
      subst hsame
      have hpimpl : w.pimpls h = some socket := hoperation
      have hset : w.onReceivedSet h = socket.callbacks.onReceived := by
        rw [onReceivedSet, hpimpl]
        rfl
      refine .takes (m + 1) ⟨socket.readBuffer.take (m + 1), w.onReceivedSet h,
        (socket.callbacks.call? (.onReceived (socket.readBuffer.take (m + 1)))).isSome⟩
        ?_ ?_ ?_ ?_ hdata ?_ ?_ fun t => (hg t).trans ?_
      · rw [callThen_state]
        rfl
      · rw [callThen_state]
        exact hfinished
      · rw [callThen_state]
      · rw [callThen_state]
      · rw [hset]
        exact call?_onReceived ..
      · rw [callThen_frames]
        exact List.count_le_length
      · unfold callThen
        split
        · rename_i cb hcb
          rw [hcb, Callbacks.call?_eq_some hcb]
          have hparent : ((w.pimpls h).any fun p => p.parent = socket.parent) = true := by
            rw [hpimpl]
            exact decide_eq_true rfl
          show t.took ⟨_, w.onReceivedSet h, (w.pimpls h).any _⟩ = _
          rw [hparent]
          rfl
        · rename_i hnone
          rw [hnone]
          show t.took ⟨((w.pimpls h).map fun p => p.readBuffer.take (m + 1)).getD [], _, _⟩ = _
          rw [hpimpl]
          rfl

theorem keepsRead_delete (hpimpls : w'.pimpls = Function.update w.pimpls x none) :
    KeepsRead h w w' := by
  intro p' hp'
  rw [hpimpls] at hp'
  by_cases hx : h = x
  · rw [hx, Function.update_self] at hp'
    cases hp'
  · rw [Function.update_of_ne hx] at hp'
    exact .inl ⟨p', hp', rfl⟩

/-- The bytes of a read of the pimpl are put into its buffer. -/
theorem transfer_read {pending : Pending} {data : List Byte} (hop : pending.op = ⟨h, .read⟩)
    (htransfer : w.transfer pending data = some w') :
    w' = { w with pimpls := Function.update w.pimpls h ((w.pimpls h).map fun p =>
      { p with readBuffer := data ++ p.readBuffer.drop data.length }) } := by
  unfold transfer at htransfer
  simp only [hop] at htransfer
  split at htransfer <;> cases htransfer
  rfl

/-- Those of another operation are not. -/
theorem keepsRead_transfer {pending : Pending} {data : List Byte} (hop : pending.op ≠ ⟨h, .read⟩)
    (htransfer : w.transfer pending data = some w') : KeepsRead h w w' := by
  unfold transfer at htransfer
  split at htransfer
  · rename_i htype
    have hne : h ≠ pending.op.pimpl := by
      rintro rfl
      rw [← htype] at hop
      exact hop rfl
    split at htransfer <;> cases htransfer
    intro p' hp'
    change Function.update w.pimpls pending.op.pimpl _ h = some p' at hp'
    rw [Function.update_of_ne hne] at hp'
    exact .inl ⟨p', hp', rfl⟩
  all_goals
    split at htransfer <;> cases htransfer
    exact keepsRead_of_eq rfl

/-- What happens meanwhile. -/
theorem readDeed_of_elsewhere (hw : w.Keyed) {e : Elsewhere} (he : w.elsewhere e = some w')
    (hstate : out.state = w')
    (hframes : restarts out.frames h ≤ restarts [f] h) :
    ReadDeed h w f out fun t => t.elsewhere h w e := by
  subst hstate
  cases e with
  | completes i data =>
    obtain ⟨pending, hi, hrest⟩ := Option.bind_eq_some_iff.mp he
    obtain ⟨v, htransfer, hret⟩ := Option.bind_eq_some_iff.mp hrest
    obtain ⟨pimpls, hv, -⟩ := transfer_some htransfer
    have hv' : v.Keyed := hw.of_eq (by rw [hv]) (by rw [hv])
    have hvi : v.outstanding[i]? = some pending := by rw [hv]; exact hi
    have hsame : SameReads h w v := sameReads_of_eq (by rw [hv]) (by rw [hv])
    have hsettled := hv'.settled (h := h) hvi (.success data.length)
    have hout : out.state = v.settle i pending (.success data.length) :=
      (Option.some.inj hret).symm
    have hfresh : out.state.fresh = w.fresh := by rw [hout, hv]; rfl
    by_cases hop : pending.op = ⟨h, .read⟩
    · obtain ⟨hreading, hfinished⟩ := hsettled.2 hop
      refine .isOver (.success data.length) data ?_ ?_ (fun p' hp' => ?_) hfresh hframes
        fun t => ?_
      · rw [← hsame.reading, hout]
        exact hreading
      · rw [hout, hfinished, hsame.finished]
      · rw [hout, transfer_read hop htransfer] at hp'
        change Function.update w.pimpls h _ h = some p' at hp'
        rw [Function.update_self] at hp'
        obtain ⟨p, hp, rfl⟩ := Option.map_eq_some_iff.mp hp'
        exact ⟨by rw [hp]; exact Option.some_ne_none _, List.take_left' rfl⟩
      · simp [Intake.elsewhere, hi, hop]
    · refine .nothing ?_ ?_ (Nat.le_of_eq hfresh.symm) hframes fun t => ?_
      · rw [hout]
        exact hsame.trans (hsettled.1 hop)
      · have hkeeps : KeepsRead h w v := keepsRead_transfer hop htransfer
        rw [hout]
        exact hkeeps
      · simp [Intake.elsewhere, hi, hop]
  | fails i error =>
    obtain ⟨pending, hi, hrest⟩ := Option.bind_eq_some_iff.mp he
    split at hrest
    · cases hrest
    · have hout : out.state = w.settle i pending (.failure error) := (Option.some.inj hrest).symm
      have hsettled := hw.settled (h := h) hi (.failure error)
      by_cases hop : pending.op = ⟨h, .read⟩
      · obtain ⟨hreading, hfinished⟩ := hsettled.2 hop
        refine .isOver (.failure error) [] ?_ ?_ (fun p' hp' => ?_) ?_ hframes fun t => ?_
        · rw [hout]
          exact hreading
        · rw [hout]
          exact hfinished
        · rw [hout] at hp'
          change w.pimpls h = some p' at hp'
          exact ⟨by rw [hp']; exact Option.some_ne_none _, rfl⟩
        · rw [hout]
          rfl
        · show t = { t with transferred := t.transferred ++ [] }
          rw [List.append_nil]
      · refine .nothing ?_ ?_ ?_ hframes fun t => rfl
        · rw [hout]
          exact hsettled.1 hop
        · rw [hout]
          exact keepsRead_of_eq rfl
        · rw [hout]
          exact Nat.le_refl _
  | posts k =>
    have hout : out.state = { w with queue := w.queue ++ [.exec k] } := (Option.some.inj he).symm
    refine .nothing ⟨?_, ?_⟩ ?_ ?_ hframes fun t => rfl
    · rw [hout]
      exact rfl
    · rw [hout]
      show (w.queue ++ [Packet.exec k]).filterMap _ = _
      rw [List.filterMap_append]
      exact List.append_nil _
    · rw [hout]
      exact keepsRead_of_eq rfl
    · rw [hout]
  | opens n =>
    simp only [elsewhere] at he
    split at he
    · have hout := (Option.some.inj he).symm
      refine .nothing ?_ ?_ ?_ hframes fun t => rfl
      · rw [hout]
        exact sameReads_of_eq rfl rfl
      · rw [hout]
        exact keepsRead_of_eq rfl
      · rw [hout]
    · cases he

/-- **What a stretch of code does to the reads of a pimpl.** -/
theorem readDeed_of_resume (hw : w.Keyed) (hres : resume w f a = some out) (h : Nat) :
    ReadDeed h w f out fun t => t.stretch h w f a := by
  have hs := stretch_of_resume hres
  -- every stretch but those of the kernel and of the loop
  have quiet : SameReads h w out.state → KeepsRead h w out.state →
      w.fresh ≤ out.state.fresh → restarts out.frames h = 0 →
      (∀ t : Intake, t.stretch h w f a = t) → ReadDeed h w f out fun t => t.stretch h w f a :=
    fun hreads hbuffer hfresh hframes hg => .nothing hreads hbuffer hfresh (by omega) hg
  have started : ∀ {v v' : World} {op : Overlapped} {fd : Int} {len : Nat} {refused : Option Nat},
      SameReads h w v → KeepsRead h w v → w.fresh = v.fresh →
      v.start op fd len refused = some v' → op ≠ ⟨h, .read⟩ → out.state = v' →
      restarts out.frames h = 0 → (∀ t : Intake, t.stretch h w f a = t) →
      ReadDeed h w f out fun t => t.stretch h w f a := by
    intro v v' op fd len refused hreads hbuffer hfresh hstart hop hstate hframes hg
    obtain ⟨hpimpls, hfresh'⟩ := start_frame hstart
    refine quiet ?_ ?_ ?_ hframes hg
    · rw [hstate]
      exact hreads.trans (sameReads_start hstart hop)
    · rw [hstate]
      exact hbuffer.trans (keepsRead_of_eq hpimpls) (by omega) (by omega)
    · rw [hstate]
      omega
  cases hs with
  | exec =>
    refine quiet ⟨rfl, ?_⟩ (keepsRead_of_eq rfl) (Nat.le_refl _) rfl fun _ => rfl
    show (w.queue ++ [Packet.exec _]).filterMap _ = _
    rw [List.filterMap_append]
    exact List.append_nil _
  | @socket domain type protocol callbacks a hopens =>
    obtain ⟨fd, heq⟩ := constructSocket_eq w domain type protocol callbacks a
    refine quiet ?_ ?_ ?_ rfl fun _ => rfl
    all_goals
      simp only [Outcome.state]
      rw [heq]
    · exact sameReads_of_eq rfl rfl
    · exact keepsRead_new rfl (Nat.lt_succ_self _)
    · exact Nat.le_succ _
  | adopt =>
    refine quiet ?_ ?_ ?_ rfl fun _ => rfl
    all_goals
      simp only [Outcome.state]
      rw [construct_eq]
    · exact sameReads_of_eq rfl rfl
    · exact keepsRead_new rfl (Nat.lt_succ_self _)
    · exact Nat.le_succ _
  | move hmove =>
    obtain ⟨⟨x, p⟩, howned, rfl⟩ := Option.map_eq_some_iff.mp hmove
    exact quiet (sameReads_of_eq rfl rfl) (keepsRead_update (owned_iff.mp howned).2 rfl rfl)
      (Nat.le_succ _) rfl fun _ => rfl
  | @close o x p howned =>
    refine quiet ?_ (keepsRead_close (owned_iff.mp howned).2) ?_ rfl fun _ => rfl
    all_goals
      simp only [Outcome.state]
      rw [close_eq]
    exact sameReads_of_eq rfl rfl
  | connect howned hstart =>
    exact started (sameReads_of_eq rfl rfl) (keepsRead_of_eq rfl) rfl hstart (by simp) rfl rfl
      fun _ => rfl
  | @listen o x p a howned hopen hopens =>
    obtain ⟨fd, heq⟩ := constructSocket_eq w p.domain p.type p.protocol noCallbacks a
    refine quiet ?_ ?_ ?_ ?_ fun _ => rfl
    · simp only [Outcome.state]
      rw [heq]
      exact sameReads_of_eq rfl rfl
    · simp only [Outcome.state]
      rw [heq]
      intro p' hp'
      change Function.update (Function.update w.pimpls w.fresh _) x _ h = some p' at hp'
      by_cases hx : h = x
      · rw [hx, Function.update_self, Option.some.injEq] at hp'
        exact .inl ⟨p, hx ▸ (owned_iff.mp howned).2, by rw [← hp']⟩
      · rw [Function.update_of_ne hx] at hp'
        by_cases hn : h = w.fresh
        · exact .inr ⟨Nat.le_of_eq hn.symm, hn ▸ Nat.lt_succ_self _⟩
        · rw [Function.update_of_ne hn] at hp'
          exact .inl ⟨p', hp', rfl⟩
    · simp only [Outcome.state]
      rw [heq]
      exact Nat.le_succ _
    · unfold Frame.destroyingOld
      split <;> rfl
  | @write o x p buffer refused w' howned hinUse hstart =>
    refine started (v := w.put x (p.fill buffer)) (sameReads_of_eq rfl rfl)
      (keepsRead_update (owned_iff.mp howned).2 rfl rfl) rfl hstart (by simp) rfl rfl fun t => ?_
    simp only [Intake.stretch]
  | writeFailed howned hinUse hstart =>
    exact quiet (sameReads_of_eq rfl rfl) (keepsRead_update (owned_iff.mp howned).2 rfl rfl)
      (Nat.le_refl _) rfl fun _ => rfl
  | callbacks howned =>
    exact quiet (sameReads_of_eq rfl rfl) (keepsRead_update (owned_iff.mp howned).2 rfl rfl)
      (Nat.le_refl _) rfl fun _ => rfl
  | elsewhereCalled he => exact readDeed_of_elsewhere hw he rfl (Nat.zero_le _)
  | @elsewhere f e w' he =>
    have hdeed : ReadDeed h w f (.goto w' f []) fun t => t.elsewhere h w e :=
      readDeed_of_elsewhere hw he rfl (Nat.le_refl _)
    unfold Intake.stretch
    exact hdeed
  | @dequeue key refused packet rest out hrun hqueue hdispatch =>
    have hg : ∀ t : Intake, t.stretch h w (.loop key) (.start refused) = t.dequeued h w out := by
      intro t
      simp only [Intake.stretch, hres]
    rw [funext hg]
    cases hread : packet.read? h with
    | none => exact readDeed_dispatch_other hw hqueue hread hdispatch
    | some status => exact readDeed_dispatch_own hw hqueue hread hdispatch
  | @restart key refused socket w' hsocket hstart =>
    by_cases hkey : key = h
    · subst hkey
      obtain ⟨hreading, hfinished, hpimpls, hfresh⟩ := reading_start hstart
      exact .goesOn rfl hreading hfinished hpimpls hfresh rfl fun _ => rfl
    · exact started (sameReads_of_eq rfl rfl) (keepsRead_of_eq rfl) rfl hstart (by simp [hkey]) rfl
        rfl fun _ => rfl
  | @assign o other x p old howned =>
    refine quiet (sameReads_of_eq rfl rfl) (keepsRead_of_eq rfl) (Nat.le_refl _) ?_ fun _ => rfl
    cases old <;> rfl
  | @destroying o x p next howned =>
    refine .nothing ?_ ?_ ?_ (Nat.le_refl _) fun _ => rfl
    · simp only [Outcome.state]
      rw [close_eq]
      exact sameReads_of_eq rfl rfl
    · have hclose : KeepsRead h { w with objects := Function.update w.objects o none }
          (World.close { w with objects := Function.update w.objects o none } x p) :=
        keepsRead_close (owned_iff.mp howned).2
      exact hclose
    · simp only [Outcome.state]
      rw [close_eq]
  | @destroyingMoved o next howned =>
    exact .nothing (sameReads_of_eq rfl rfl) (keepsRead_of_eq rfl) (Nat.le_refl _) (Nat.le_refl _)
      fun _ => rfl
  | @deleting x next =>
    refine .nothing (sameReads_of_eq rfl rfl) (keepsRead_delete rfl) (Nat.le_refl _) ?_ fun _ => rfl
    unfold Frame.destroyingOld
    split <;> exact Nat.le_refl _
  | @assigned o other x p old howned hother =>
    refine quiet (sameReads_of_eq rfl rfl) ?_ (Nat.le_succ _) ?_ fun _ => rfl
    · have hput : KeepsRead h w (w.put x { p with parent := o }) :=
        keepsRead_update (owned_iff.mp howned).2 rfl rfl
      exact hput.trans (keepsRead_new rfl (Nat.lt_succ_self _)) (Nat.le_refl _) (Nat.le_succ _)
    · cases old <;> rfl
  | acceptEx hp hstart =>
    exact started (sameReads_of_eq rfl rfl) (keepsRead_of_eq rfl) rfl hstart (by simp) rfl rfl
      fun _ => rfl
  | _ =>
    exact quiet (sameReads_of_eq rfl rfl) (keepsRead_of_eq rfl) (Nat.le_refl _) rfl fun _ => rfl

/-! ## The account -/

/-- Each beginning is good for one read in flight, one activation that is to go on reading, or
one `on_disconnected`; `on_received` was called with what was taken exactly if it was set; and
if reading began once, the bytes transferred are those taken and those that wait. -/
structure Drawn (h : Nat) (w : World) (fs : List Frame) (t : Intake) : Prop where
  beyond : w.fresh ≤ h → w.pimpls h = none ∧ w.reading h = [] ∧ w.finished h = [] ∧
    restarts fs h = 0 ∧ t = .none
  balance : (w.reading h).length + (w.finished h).length + restarts fs h + t.disconnects ≤ t.starts
  called : ∀ piece ∈ t.taken, piece.called = piece.onReceived
  bytes : t.starts ≤ 1 → ∀ p, w.pimpls h = some p → t.transferred = t.bytes ++ w.waiting h p

variable {fs kept : List Frame} {t : Intake} {g : Intake → Intake}

theorem new_drawn (h : Nat) : Drawn h World.new [] .none :=
  ⟨fun _ => ⟨rfl, rfl, rfl, rfl, rfl⟩, Nat.le_refl _, fun _ hmem => (List.not_mem_nil hmem).elim,
    fun _ _ hp => nomatch hp⟩

theorem restarts_suffix (hk : kept <:+ fs) : restarts kept h ≤ restarts fs h :=
  ((hk.sublist.filterMap _).count_le _)

theorem restarts_cons (f : Frame) (fs : List Frame) (h : Nat) :
    restarts (f :: fs) h = restarts [f] h + restarts fs h :=
  restarts_append [f] fs h

/-- **A deed keeps the account.** -/
theorem Drawn.deed (hd : Drawn h w (f :: fs) t) (hdeed : ReadDeed h w f out g)
    (hkept : kept <:+ fs) : Drawn h out.state (out.frames ++ kept) (g t) := by
  have hle := restarts_suffix (h := h) hkept
  have hbalance := hd.balance
  rw [restarts_cons] at hbalance
  have hbeyond := hd.beyond
  rw [restarts_cons] at hbeyond
  cases hdeed with
  | nothing hreads hbuffer hfresh hframes hg =>
    rw [hg t]
    refine ⟨fun hge => ?_, ?_, hd.called, fun hone p' hp' => ?_⟩
    · obtain ⟨hnone, hreading, hfinished, hrestarts, ht⟩ := hbeyond (Nat.le_trans hfresh hge)
      refine ⟨?_, hreads.reading.trans hreading, hreads.finished.trans hfinished, ?_, ht⟩
      · by_contra hsome
        obtain ⟨p', hp'⟩ := Option.ne_none_iff_exists'.mp hsome
        rcases hbuffer p' hp' with ⟨p, hp, -⟩ | ⟨-, hlt⟩
        · rw [hnone] at hp
          cases hp
        · omega
      · rw [restarts_append]
        omega
    · rw [hreads.reading, hreads.finished, restarts_append]
      omega
    · unfold waiting
      rw [hreads.finished]
      rcases hbuffer p' hp' with ⟨p, hp, hsame⟩ | ⟨hge, -⟩
      · rw [hsame]
        exact hd.bytes hone p hp
      · obtain ⟨-, -, hfinished, -, rfl⟩ := hbeyond hge
        rw [hfinished]
        rfl
  | begins hex hreading hfinished hpimpls hfresh hframes hg =>
    rw [hg t]
    refine ⟨fun hge => absurd (hbeyond (hfresh ▸ hge)).1 hex, ?_, hd.called, fun hone p hp => ?_⟩
    · rw [hreading, hfinished, restarts_append]
      show _ + t.disconnects ≤ t.starts + 1
      omega
    · have hone' : t.starts + 1 ≤ 1 := hone
      rw [hpimpls] at hp
      unfold waiting
      rw [hfinished]
      exact hd.bytes (by omega) p hp
  | goesOn hf hreading hfinished hpimpls hfresh hframes hg =>
    have hself : restarts [f] h = 1 := by
      rw [hf]
      simp [restarts, Frame.restarts]
    rw [hg t]
    refine ⟨fun hge => ?_, ?_, hd.called, fun hone p hp => ?_⟩
    · obtain ⟨-, -, -, hrestarts, -⟩ := hbeyond (hfresh ▸ hge)
      omega
    · rw [hreading, hfinished, restarts_append]
      omega
    · rw [hpimpls] at hp
      unfold waiting
      rw [hfinished]
      exact hd.bytes hone p hp
  | isOver status data hreading hfinished hbuffer hfresh hframes hg =>
    rw [hg t]
    refine ⟨fun hge => ?_, ?_, hd.called, fun hone p' hp' => ?_⟩
    · obtain ⟨-, hnil, -⟩ := hbeyond (hfresh ▸ hge)
      rw [hnil] at hreading
      cases hreading
    · rw [hfinished, restarts_append, List.length_append, List.length_singleton]
      show _ ≤ t.starts
      have hdisconnects : (t.received data).disconnects = t.disconnects := rfl
      omega
    · -- nothing else is in flight, so all that was transferred before is taken
      have hone' : t.starts ≤ 1 := hone
      have hnil : w.finished h = [] := List.length_eq_zero_iff.mp (by omega)
      obtain ⟨hex, hdata⟩ := hbuffer p' hp'
      obtain ⟨p, hp⟩ := Option.ne_none_iff_exists'.mp hex
      have hbefore := hd.bytes hone' p hp
      unfold waiting at hbefore ⊢
      rw [hnil, List.flatMap_nil, List.append_nil] at hbefore
      rw [hfinished, hnil, List.nil_append, List.flatMap_singleton, hdata, Intake.bytes_received,
        ← hbefore]
      rfl
  | takes n piece hreading hfinished hpimpls hfresh hdata hcalled hframes hg =>
    rw [hfinished, List.length_cons] at hbalance
    rw [hg t]
    refine ⟨fun hge => ?_, ?_, fun other hmem => ?_, fun hone p hp => ?_⟩
    · obtain ⟨-, -, hnil, -⟩ := hbeyond (hfresh ▸ hge)
      rw [hnil] at hfinished
      cases hfinished
    · rw [hreading, restarts_append]
      show _ ≤ t.starts
      have hdisconnects : (t.took piece).disconnects = t.disconnects := rfl
      omega
    · rcases List.mem_append.mp hmem with hmem | hmem
      · exact hd.called other hmem
      · rw [List.mem_singleton.mp hmem]
        exact hcalled
    · have hone' : t.starts ≤ 1 := hone
      have hnil : out.state.finished h = [] := List.length_eq_zero_iff.mp (by omega)
      rw [hpimpls] at hp
      have hbefore := hd.bytes hone' p hp
      unfold waiting at hbefore ⊢
      rw [hfinished, hnil, List.flatMap_singleton] at hbefore
      rw [hnil, List.flatMap_nil, List.append_nil, Intake.bytes_took, hdata p hp]
      exact hbefore
  | ends status d hreading hfinished hempty hpimpls hfresh hframes hd' hg =>
    rw [hfinished, List.length_cons] at hbalance
    rw [hg t]
    refine ⟨fun hge => ?_, ?_, hd.called, fun hone p hp => ?_⟩
    · obtain ⟨-, -, hnil, -⟩ := hbeyond (hfresh ▸ hge)
      rw [hnil] at hfinished
      cases hfinished
    · rw [hreading, restarts_append]
      show _ + (t.disconnects + d) ≤ t.starts
      omega
    · rw [hpimpls] at hp
      have hbefore := hd.bytes hone p hp
      unfold waiting at hbefore ⊢
      rw [hfinished, List.flatMap_cons, hempty, List.nil_append] at hbefore
      exact hbefore

end World

/-- A step keeps the account of a pimpl. -/
theorem drawn_step {h : Nat} {c c' : Configuration} {e : Event Op Answer} {t : Intake}
    (hw : c.state.Keyed) (hd : World.Drawn h c.state (frames c.stack) t)
    (hstep : Step object c e c') :
    World.Drawn h c'.state (frames c'.stack) (t.event h c e) := by
  rcases hstep.stretch with ⟨o, rfl, -, rfl⟩ |
    ⟨f, rest, a, out, kept, hstack, ha, hres, hstate, hkept, -, hframes, -⟩ |
    ⟨rfl, hstate, hframes, -⟩
  · have hzero : restarts (.api o :: frames c.stack) h = restarts (frames c.stack) h := rfl
    refine ⟨fun hge => ?_, ?_, hd.called, hd.bytes⟩
    · rw [show frames (_ :: c.stack) = .api o :: frames c.stack from rfl, hzero]
      exact hd.beyond hge
    · rw [show frames (_ :: c.stack) = .api o :: frames c.stack from rfl, hzero]
      exact hd.balance
  · rw [hstack, frames_code] at hd
    have hevent : t.event h c e = t.stretch h c.state f a := by
      simp only [Intake.event, ha, hstack]
    rw [hstate, hframes, hevent]
    exact hd.deed (World.readDeed_of_resume hw hres h) hkept
  · rw [hstate, hframes]
    exact hd

/-- **What the reads of a socket receive.**  Let each `WSARecv` of a run begin on a handle that
is associated with the port under the address of the pimpl itself.  Then of each pimpl there
are never more `WSARecv` outstanding, completions in the queue, activations that are to call
`start_read` and calls of `on_disconnected` together than connections that began reading, and the
loop called `on_received` with each piece that it took exactly if that was set on the pimpl.
And if one connection began reading, the bytes transferred are those that the loop took and
then those of the completion in the queue, in order. -/
theorem reads_received {h : Nat} {es : List (Event Op Answer)} {c : Configuration} {t : Intake}
    (hr : Runs.run (withIntake h) (Config.start World.new, .none) es = some (c, t))
    (hown : Runs.Along (withIntake h) (fun x e => Before (fun w f _ a => w.ReadsOwn f a) x.1 e)
      (Config.start World.new, .none) es) :
    (c.state.reading h).length + (c.state.finished h).length + restarts (frames c.stack) h +
        t.disconnects ≤ t.starts ∧
      (∀ piece ∈ t.taken, piece.called = piece.onReceived) ∧
      (t.starts ≤ 1 → ∀ p, c.state.pimpls h = some p →
        t.transferred = t.taken.flatMap Piece.data ++ c.state.waiting h p) := by
  have hinv : c.state.Keyed ∧ World.Drawn h c.state (frames c.stack) t := by
    refine Runs.run_invariant_along
      (I := fun x => x.1.state.Keyed ∧ World.Drawn h x.1.state (frames x.1.stack) x.2) ?_
      ⟨World.new_keyed, World.new_drawn h⟩ hown hr
    rintro ⟨c, t⟩ e ⟨c', t'⟩ ⟨hw, hd⟩ hgood hstep
    obtain ⟨hstep', ht⟩ := Runs.observe_some.mp hstep
    dsimp only at hw hd hgood hstep' ht ⊢
    subst ht
    have hrel := Step.of_step hstep'
    refine ⟨?_, drawn_step hw hd hrel⟩
    exact hrel.preserves hw hgood (fun _ => hw) fun hp hres =>
      hw.stretch hp (stretch_of_resume hres)
  exact ⟨hinv.2.balance, hinv.2.called, hinv.2.bytes⟩

/-- A socket connects, gets two bytes with one `on_received`, and the next byte waits. -/
def readTwice : List (Event Op Answer) :=
  [.call (.socket 2 1 0 ⟨true, true, true, true, true, true⟩), .code (.opened (.fd 4)),
    .call (.connect 0), .code (.start none), .call (.elsewhere (.completes 0 [])), .code .go,
    .call .waitForInput, .code .go, .code (.start none), .back,
    .code (.elsewhere (.completes 0 [1, 2])), .code (.start none), .back, .code (.start none),
    .code (.elsewhere (.completes 0 [3]))]

/-- The last byte is in the buffer, and no `WSARecv` is outstanding. -/
theorem reads_received_readTwice :
    ∃ c, Runs.run (withIntake 0) (Config.start World.new, .none) readTwice =
        some (c, ⟨1, [1, 2, 3], [⟨[1, 2], true, true⟩], 0⟩) ∧
      c.state.reading 0 = [] ∧ ∀ p, c.state.pimpls 0 = some p → c.state.waiting 0 p = [3] := by
  obtain ⟨⟨c, t⟩, hr, ht, hfinished⟩ :
      ∃ x, Runs.run (withIntake 0) (Config.start World.new, .none) readTwice = some x ∧
        x.2 = ⟨1, [1, 2, 3], [⟨[1, 2], true, true⟩], 0⟩ ∧ (x.1.state.finished 0).length = 1 :=
    Runs.exists_run (by decide)
  dsimp only at ht hfinished
  subst ht
  obtain ⟨hbalance, -, hbytes⟩ := reads_received hr (by decide)
  refine ⟨c, hr, List.length_eq_zero_iff.mp ?_, fun p hp => ?_⟩
  · rw [hfinished] at hbalance
    dsimp only at hbalance
    omega
  · have hwaiting : [1, 2] ++ [3] = [1, 2] ++ c.state.waiting 0 p := hbytes (Nat.le_refl 1) p hp
    exact (List.append_cancel_left hwaiting).symm

end Windows
end AcppNetwork
