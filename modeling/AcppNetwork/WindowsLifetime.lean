import AcppNetwork.WindowsSteps

/-!
# Completions of pimpls that are gone

The structures of the overlapped operations are members of the pimpl.  Its destructor
waits for none of them: an operation that is outstanding when the pimpl is deleted
queues its completion later, and the loop dequeues it with a key and an `OVERLAPPED`
that point to nothing.  A pimpl is deleted by the destructor of its object, by a move
assignment to that object (which does not even close it), also from itself, and when
it is the `new_socket` of a pimpl that is deleted or listens again.

If no pimpl is deleted while the kernel has a pointer to it, and no operation is begun
on a handle that was associated under the address of a pimpl deleted since, then every
completion is dequeued for pimpls that exist (`dequeued_alive`).
-/
namespace AcppNetwork
namespace Windows

open Reentrant

/-- Every completion that was dequeued was for pimpls that existed. -/
def Alive (ns : List Note) : Prop :=
  ∀ key op keyExists opExists, .dequeued key op keyExists opExists ∈ ns →
    keyExists = true ∧ opExists = true

/-! ## The condition -/

/-- The pimpls that the completion will have pointers to, if it is queued. -/
def Pending.refs (pending : Pending) : List Nat :=
  match pending.key with
  | some key => [key, pending.op.pimpl]
  | none => []

/-- The pimpls that a packet has pointers to. -/
def Packet.refs : Packet → List Nat
  | .io key op _ => [key, op.pimpl]
  | .exec _ => []

/-- The pimpls that the kernel has pointers to. -/
def World.refs (w : World) : List Nat :=
  w.outstanding.flatMap Pending.refs ++ w.queue.flatMap Packet.refs

/-- The handle on which a stretch begins an operation, if it begins one. -/
def World.beginsOn (w : World) : Frame → Answer → Option Int
  | .api (.connect o), .start none => (w.owned o).map (·.2.fd)
  | .api (.write o _), .start none =>
      ((w.owned o).filter fun x => !x.2.writeOp.inUse).map (·.2.fd)
  | .acceptEx h, .start none | .received h, .start none => (w.pimpls h).map (·.fd)
  | .loop _, .start none =>
      match w.queue with
      | .io key op (.success _) :: _ =>
          match op.type with
          | .accept =>
              (((w.pimpls op.pimpl).bind (·.newSocket)).bind w.owned).map (·.2.fd)
          | .connect => (w.pimpls key).map (·.fd)
          | .read | .write => none
      | _ => none
  | _, _ => none

/-- The kernel has no pointer to a pimpl that is deleted; the key of a handle on which an
operation begins is the address of a pimpl. -/
def World.Spares (w : World) (f : Frame) (a : Answer) : Prop :=
  match f, a with
  | .deleting h _, .go => h ∉ w.refs
  | f, a => ∀ fd ∈ w.beginsOn f a, ∀ key ∈ (w.handles fd).join, w.pimpls key ≠ none

instance (w : World) (f : Frame) (a : Answer) : Decidable (w.Spares f a) := by
  unfold World.Spares
  split <;> infer_instance

namespace World
variable {w w' w'' : World} {h x : Nat} {p q : SocketBasePimpl}

/-! ## What the kernel has pointers to -/

/-- The kernel has pointers to pimpls that exist. -/
def Live (w : World) : Prop := ∀ h ∈ w.refs, w.pimpls h ≠ none

/-- No pimpl is deleted, and the kernel gets no pointer but to pimpls that exist. -/
structure Keeps (w w' : World) : Prop where
  alive : ∀ h, w.pimpls h ≠ none → w'.pimpls h ≠ none
  refs : ∀ h ∈ w'.refs, h ∈ w.refs ∨ w'.pimpls h ≠ none

theorem mem_refs : h ∈ w.refs ↔
    (∃ pending ∈ w.outstanding, h ∈ pending.refs) ∨ ∃ packet ∈ w.queue, h ∈ packet.refs := by
  unfold refs
  rw [List.mem_append, List.mem_flatMap, List.mem_flatMap]

theorem Live.keeps (hw : w.Live) (hk : Keeps w w') : w'.Live := by
  intro h hh
  rcases hk.refs h hh with hold | halive
  · exact hk.alive h (hw h hold)
  · exact halive

theorem Keeps.trans (h : Keeps w w') (h' : Keeps w' w'') : Keeps w w'' := by
  refine ⟨fun x hx => h'.alive x (h.alive x hx), fun x hx => ?_⟩
  rcases h'.refs x hx with hold | halive
  · exact (h.refs x hold).imp_right (h'.alive x)
  · exact .inr halive

theorem keeps_of_alive (hrefs : w'.refs = w.refs)
    (halive : ∀ h, w.pimpls h ≠ none → w'.pimpls h ≠ none) : Keeps w w' :=
  ⟨halive, fun _ hh => .inl (hrefs ▸ hh)⟩

theorem Keeps.refl (w : World) : Keeps w w := keeps_of_alive rfl fun _ => id

theorem alive_update (hx : w.pimpls x ≠ none) : Function.update w.pimpls h (some q) x ≠ none := by
  rw [Function.update_apply]
  split
  · exact Option.some_ne_none _
  · exact hx

/-- **An operation that begins** is one of a pimpl that exists, and so is its key. -/
theorem keeps_start {op : Overlapped} {fd : Int} {len : Nat} {refused : Option Nat}
    (hstart : w.start op fd len refused = some w') (hop : w.pimpls op.pimpl = some p)
    (hfd : ∀ key ∈ (w.handles fd).join, w.pimpls key ≠ none) : Keeps w w' := by
  obtain ⟨key, hkey, -, rfl⟩ := start_some hstart
  refine ⟨fun _ => id, fun h hh => ?_⟩
  rcases mem_refs.mp hh with ⟨pending, hpending, hh⟩ | hqueue
  · rcases List.mem_append.mp hpending with hold | hnew
    · exact .inl (mem_refs.mpr (.inl ⟨pending, hold, hh⟩))
    · rw [List.mem_singleton.mp hnew] at hh
      cases key with
      | none => cases hh
      | some key =>
        have hkey' := hfd key (by rw [hkey]; rfl)
        rcases List.mem_pair.mp hh with rfl | rfl
        · exact .inr hkey'
        · exact .inr (Option.ne_none_iff_exists'.mpr ⟨p, hop⟩)
  · exact .inl (mem_refs.mpr (.inr hqueue))

/-- **An operation that completes** queues a packet with the pointers that it had. -/
theorem keeps_settle {i : Nat} {pending : Pending} (hi : w.outstanding[i]? = some pending)
    (status : Status) : Keeps w (w.settle i pending status) := by
  refine ⟨fun _ => id, fun h hh => .inl ?_⟩
  rcases mem_refs.mp hh with ⟨other, hother, hh⟩ | ⟨packet, hpacket, hh⟩
  · exact mem_refs.mpr (.inl ⟨other, List.mem_of_mem_eraseIdx hother, hh⟩)
  · rcases List.mem_append.mp hpacket with hold | hnew
    · exact mem_refs.mpr (.inr ⟨packet, hold, hh⟩)
    · obtain ⟨key, hkey, rfl⟩ := Option.map_eq_some_iff.mp (Option.mem_toList.mp hnew)
      refine mem_refs.mpr (.inl ⟨pending, List.mem_of_getElem? hi, ?_⟩)
      unfold Pending.refs
      rw [hkey]
      exact hh

/-- A packet is taken off the queue. -/
theorem keeps_rest {packet : Packet} {rest : List Packet} (hqueue : w.queue = packet :: rest) :
    Keeps w { w with queue := rest } := by
  refine ⟨fun _ => id, fun h hh => .inl ?_⟩
  rcases mem_refs.mp hh with hout | ⟨other, hother, hh⟩
  · exact mem_refs.mpr (.inl hout)
  · exact mem_refs.mpr (.inr ⟨other, hqueue ▸ List.mem_cons_of_mem _ hother, hh⟩)

/-- `exec` posts no pointer to a pimpl. -/
theorem refs_posts (w : World) (f : Nat) :
    refs { w with queue := w.queue ++ [.exec f] } = w.refs := by
  unfold refs
  rw [List.flatMap_append, show [Packet.exec f].flatMap Packet.refs = [] from rfl, List.append_nil]

theorem keeps_put (w : World) (h : Nat) (p : SocketBasePimpl) : Keeps w (w.put h p) :=
  keeps_of_alive rfl fun _ => alive_update

theorem keeps_close (w : World) (h : Nat) (p : SocketBasePimpl) : Keeps w (w.close h p) := by
  unfold close
  split
  · exact keeps_of_alive rfl fun _ => alive_update
  · exact .refl w

theorem keeps_construct (w : World) (domain type protocol fd : Int) (callbacks : Linux.Callbacks) :
    Keeps w (w.construct domain type protocol fd callbacks) := by
  rw [construct_eq]
  exact keeps_of_alive rfl fun _ => alive_update

theorem keeps_constructSocket (w : World) (domain type protocol : Int) (callbacks : Linux.Callbacks)
    (a : Opened) : Keeps w (w.constructSocket domain type protocol callbacks a) := by
  obtain ⟨fd, heq⟩ := constructSocket_eq w domain type protocol callbacks a
  rw [heq]
  exact keeps_of_alive rfl fun _ => alive_update

theorem keeps_elsewhere {e : Elsewhere} (he : w.elsewhere e = some w') : Keeps w w' := by
  rcases elsewhere_some he with ⟨i, pending, pimpls, status, -, hi, hread, rfl⟩ |
    ⟨f, -, rfl⟩ | ⟨n, -, -, rfl⟩
  · have hfilled : Keeps w { w with pimpls := pimpls } := by
      refine keeps_of_alive rfl fun x hx => ?_
      rcases hread x with ⟨hnone, -⟩ | ⟨p, buffer, -, hp⟩
      · exact absurd hnone hx
      · show pimpls x ≠ none
        rw [hp]
        exact Option.some_ne_none _
    exact hfilled.trans (keeps_settle (w := { w with pimpls := pimpls }) hi status)
  · exact keeps_of_alive (refs_posts w f) fun _ => id
  · exact keeps_of_alive rfl fun _ => id

/-! ## What a stretch does to the pimpls -/

theorem keeps_of_dispatch {packet : Packet} {rest : List Packet} {key : Option Nat}
    {refused : Option Nat} {out : Next} (hqueue : w.queue = packet :: rest)
    (hd : Dispatch { w with queue := rest } packet refused out)
    (hspares : w.Spares (.loop key) (.start refused)) : Keeps w out.state := by
  refine (keeps_rest hqueue).trans ?_
  cases hd with
  | @failed key op error refused socket operation hsocket hoperation =>
    unfold World.failed
    split <;> rw [callThen_state] <;> exact .refl _
  | @accepted key op n refused socket operation o h new w' htype hsocket hoperation hnewSocket hnew
      hstart =>
    rw [callThen_state]
    obtain ⟨-, hp⟩ := owned_iff.mp hnew
    refine keeps_start hstart hp (hspares new.fd ?_)
    obtain ⟨-, -, rfl, -⟩ := start_some hstart
    change w.pimpls op.pimpl = some operation at hoperation
    change w.owned o = some (h, new) at hnew
    simp [beginsOn, hqueue, htype, hoperation, hnewSocket, hnew]
  | @connected key op n refused socket operation w' htype hsocket hoperation hstart =>
    rw [callThen_state]
    refine keeps_start hstart hsocket (hspares socket.fd ?_)
    obtain ⟨-, -, rfl, -⟩ := start_some hstart
    change w.pimpls key = some socket at hsocket
    simp [beginsOn, hqueue, htype, hsocket]
  | disconnected => rw [callThen_state]; exact .refl _
  | received => rw [callThen_state]; exact .refl _
  | sent => rw [callThen_state]; exact keeps_put ..
  | _ => exact .refl _

/-- **A stretch deletes no pimpl**, or it is the destructor of one. -/
theorem keeps_of_stretch {f : Frame} {a : Answer} {out : Next} (hs : Stretch w f a out)
    (hspares : w.Spares f a) : Keeps w out.state ∨ ∃ h next, f = .deleting h next ∧ a = .go ∧
      out.state = { w with pimpls := Function.update w.pimpls h none } := by
  cases hs with
  | @deleting h next => exact .inr ⟨h, next, rfl, rfl, rfl⟩
  | exec => exact .inl (keeps_of_alive (refs_posts ..) fun _ => id)
  | socket => exact .inl (keeps_constructSocket ..)
  | adopt => exact .inl (keeps_construct ..)
  | move hmove =>
    obtain ⟨⟨h, p⟩, -, rfl⟩ := Option.map_eq_some_iff.mp hmove
    exact .inl (keeps_of_alive rfl fun _ => alive_update)
  | close => exact .inl (keeps_close ..)
  | @connect o h p refused w' howned hstart =>
    obtain ⟨-, hp⟩ := owned_iff.mp howned
    refine .inl (keeps_start hstart hp (hspares p.fd ?_))
    obtain ⟨-, -, rfl, -⟩ := start_some hstart
    simp [beginsOn, howned]
  | @listen o h p a howned hopen hopens =>
    have hnew := keeps_constructSocket w p.domain p.type p.protocol noCallbacks a
    exact .inl (hnew.trans (keeps_put ..))
  | @write o h p buffer refused w' howned hinUse hstart =>
    have hput := keeps_put w h (p.fill buffer)
    refine .inl (hput.trans (keeps_start hstart (Function.update_self ..) fun key hkey => ?_))
    refine hput.alive key (hspares p.fd ?_ key hkey)
    obtain ⟨-, -, rfl, -⟩ := start_some hstart
    simp [beginsOn, howned, hinUse]
  | writeFailed => exact .inl (keeps_put ..)
  | callbacks => exact .inl (keeps_put ..)
  | elsewhereCalled helsewhere => exact .inl (keeps_elsewhere helsewhere)
  | elsewhere helsewhere => exact .inl (keeps_elsewhere helsewhere)
  | dequeue hrun hqueue hdispatch => exact .inl (keeps_of_dispatch hqueue hdispatch hspares)
  | @restart key refused socket w' hsocket hstart =>
    refine .inl (keeps_start hstart hsocket (hspares socket.fd ?_))
    obtain ⟨-, -, rfl, -⟩ := start_some hstart
    simp [beginsOn, hsocket]
  | destroying =>
    refine .inl (Keeps.trans ?_ (keeps_close ..))
    exact keeps_of_alive rfl fun _ => id
  | assigned =>
    refine .inl (keeps_of_alive rfl fun x hx => ?_)
    exact alive_update (w := w.put _ _) (alive_update hx)
  | @acceptEx h p refused w' hp hstart =>
    refine .inl (keeps_start hstart hp (hspares p.fd ?_))
    obtain ⟨-, -, rfl, -⟩ := start_some hstart
    simp [beginsOn, hp]
  | _ => exact .inl (keeps_of_alive rfl fun _ => id)

/-- **The kernel's pointers stay good.** -/
theorem Live.stretch {f : Frame} {a : Answer} {out : Next} (hw : w.Live) (hs : Stretch w f a out)
    (hspares : w.Spares f a) : out.state.Live := by
  rcases keeps_of_stretch hs hspares with hk | ⟨h, next, rfl, rfl, hstate⟩
  · exact hw.keeps hk
  · intro x hx
    rw [hstate] at hx ⊢
    have hne : x ≠ h := by
      rintro rfl
      exact hspares hx
    show Function.update w.pimpls h none x ≠ none
    rw [Function.update_of_ne hne]
    exact hw x hx

/-! ## What the loop uses -/

theorem dispatch_notes {packet : Packet} {refused : Option Nat} {out : Next}
    (hd : Dispatch w packet refused out) :
    ∀ n ∈ out.notes, ∃ key op status, packet = .io key op status ∧
      n = .dequeued key op (w.pimpls key).isSome (w.pimpls op.pimpl).isSome := by
  have hio : ∀ {key op status} {ns : List Note}, ns = w.dequeued key op → ∀ n ∈ ns,
      ∃ key' op' status', Packet.io key op status = .io key' op' status' ∧
        n = .dequeued key' op' (w.pimpls key').isSome (w.pimpls op'.pimpl).isSome := by
    rintro key op status ns rfl n hn
    exact ⟨key, op, status, rfl, List.mem_singleton.mp hn⟩
  cases hd with
  | exec => exact fun n hn => (by cases hn)
  | failed =>
    refine hio ?_
    unfold World.failed
    split <;> rw [callThen_notes]
  | accepted => exact hio (callThen_notes ..)
  | connected => exact hio (callThen_notes ..)
  | disconnected => exact hio (callThen_notes ..)
  | received => exact hio (callThen_notes ..)
  | sent => exact hio (callThen_notes ..)
  | gone => exact hio rfl
  | acceptedGone => exact hio rfl
  | startFailed => exact hio rfl

/-- **What is dequeued** has pointers the kernel had. -/
theorem Live.dequeued {f : Frame} {a : Answer} {out : Next} (hw : w.Live)
    (hs : Stretch w f a out) : Alive out.notes := by
  intro key op keyExists opExists hn
  cases hs with
  | @dequeue k refused packet rest out hrun hqueue hdispatch =>
    obtain ⟨key', op', status, rfl, heq⟩ := dispatch_notes hdispatch _ hn
    cases heq
    have hrefs : ∀ x ∈ Packet.refs (.io key op status), w.pimpls x ≠ none := by
      intro x hx
      refine hw x (mem_refs.mpr (.inr ⟨_, ?_, hx⟩))
      rw [hqueue]
      exact List.mem_cons_self ..
    exact ⟨Option.isSome_iff_ne_none.mpr (hrefs key (by simp [Packet.refs])),
      Option.isSome_iff_ne_none.mpr (hrefs op.pimpl (by simp [Packet.refs]))⟩
  | _ => simp [Outcome.notes] at hn

theorem new_live : World.new.Live := fun h hh => by cases hh

end World

/-- **What the loop dequeues refers to pimpls that exist**, throughout every run in which
no pimpl is deleted that the kernel has a pointer to, and every operation begins on a
handle whose key is the address of a pimpl. -/
theorem dequeued_alive {es : List (Event Op Answer)} {c : Configuration}
    (hr : Runs.run (step object) (Config.start World.new) es = some c)
    (hspares : Runs.Along (step object) (Before fun w f _ a => w.Spares f a)
      (Config.start World.new) es) : Alive (notes c.log) := by
  have hinvariant : c.state.Live ∧ Alive (notes c.log) := by
    refine invariant_of_parts (W := fun _ => True) (I := fun w _ _ _ ns => w.Live ∧ Alive ns)
      (fun _ _ _ _ _ _ _ _ => trivial) (fun _ _ _ _ _ _ _ h _ => h)
      (fun w f fs ks os ns a out kept _ h hp hres _ _ => ?_) ?_ hspares onCall_true hr
    · have hs := stretch_of_resume hres
      refine ⟨h.1.stretch hs hp, fun key op keyExists opExists hn => ?_⟩
      rcases List.mem_append.mp hn with hold | hnew
      · exact h.2 key op keyExists opExists hold
      · exact h.1.dequeued hs key op keyExists opExists hnew
    · exact ⟨World.new_live, fun _ _ _ _ hn => by cases hn⟩
  exact hinvariant.2

/-- `on_connected` closes the socket; its read fails, and only then, in `on_disconnected`,
the object is destroyed. -/
def closeThenDestroy : List (Event Op Answer) :=
  [.call (.socket 2 1 0 ⟨true, true, true, true, true, true⟩), .code (.opened (.fd 4)),
    .call (.connect 0), .code (.start none), .call (.elsewhere (.completes 0 [])), .code .go,
    .call .waitForInput, .code .go, .code (.start none),
    .call (.close 0), .code .go, .back,
    .code (.elsewhere (.fails 0 64)), .code (.start none),
    .call (.destroy 0), .code .go, .code .go, .code .go, .code .go]

theorem dequeued_alive_closed :
    ∃ c, Runs.run (step object) (Config.start World.new) closeThenDestroy = some c ∧
      notes c.log = [.dequeued 0 ⟨0, .connect⟩ true true, .dequeued 0 ⟨0, .read⟩ true true] ∧
      c.state.pimpls 0 = none ∧ Alive (notes c.log) := by
  obtain ⟨c, hr, hnotes, hgone⟩ :
      ∃ c, Runs.run (step object) (Config.start World.new) closeThenDestroy = some c ∧
        notes c.log = [.dequeued 0 ⟨0, .connect⟩ true true, .dequeued 0 ⟨0, .read⟩ true true] ∧
        c.state.pimpls 0 = none :=
    Runs.exists_run (by decide)
  exact ⟨c, hr, hnotes, hgone, dequeued_alive hr (by decide)⟩

/-- A socket is destroyed while it connects. -/
def destroyConnecting : List (Event Op Answer) :=
  [.call (.socket 2 1 0 ⟨true, true, true, true, true, true⟩), .code (.opened (.fd 4)),
    .call (.connect 0), .code (.start none),
    .call (.destroy 0), .code .go, .code .go, .code .go, .code .go,
    .call .waitForInput, .code .go, .code (.elsewhere (.fails 0 995)), .code (.start none)]

theorem dequeued_after_destroy :
    ∃ c, Runs.run (step object) (Config.start World.new) destroyConnecting = some c ∧
      notes c.log = [.dequeued 0 ⟨0, .connect⟩ false false] ∧ ¬ Alive (notes c.log) := by
  obtain ⟨c, hr, hnotes⟩ :
      ∃ c, Runs.run (step object) (Config.start World.new) destroyConnecting = some c ∧
        notes c.log = [.dequeued 0 ⟨0, .connect⟩ false false] :=
    Runs.exists_run (by decide)
  refine ⟨c, hr, hnotes, fun h => ?_⟩
  have hgone := (h 0 ⟨0, .connect⟩ false false (by rw [hnotes]; exact List.mem_singleton_self _)).1
  cases hgone

end Windows
end AcppNetwork
