import AcppNetwork.BackPointers
import AcppNetwork.MacosPointers

/-!
# Who a callback is given on macOS

A callback of a socket gets `*parent_`.  Every constructor and every move of
`async_socket_base` sets it, and throughout every run the parent of a pimpl is the one object
that owns it (`mutual_of_run`), so a callback that is called gets the object of the socket
whose event is handled, or that is written to (`callbacks_given_owner`).
-/
namespace AcppNetwork
namespace Macos

open Reentrant BackPointers
open Linux (Callbacks Callback Send Recv Opened Result CallOut)

namespace World

/-- The parent of every pimpl is the one object that owns it. -/
def Parented (w : World) : Prop :=
  ∀ h p, w.pimpls h = some p → ∀ o, w.objects o = some (some h) ↔ o = p.parent

/-- The socket that an activation works on. -/
def worksOn (w : World) : Frame → Option Nat
  | .batch (.socket _ h :: _) | .receive h _ => some h
  | .api (.api (.write o _)) => (w.objects o).join
  | _ => none

/-- A callback that is called gets the object that owns the socket it is about. -/
def Hands (w : World) (f : Frame) (a : Answer) : Prop :=
  ∀ out, resume w f a = some out → ∀ parent cb, .callback parent cb ∈ out.callOuts →
    ∃ h, w.worksOn f = some h ∧ out.state.objects parent = some (some h)

/-- The objects and the pimpls. -/
def pool (w : World) : Pool Nat Nat := .ofTables w.objects w.pimpls SocketBasePimpl.parent

variable {w w' : World} {h o : Nat} {p : SocketBasePimpl} {s : Socket} {f : Frame} {a : Answer}
  {out : Next}

theorem pool_put (hp : w.pimpls h = some p) (ha : Socket.Arms ⟨h, w.kernel, p⟩ s) :
    (w.put s).pool = w.pool := by
  obtain rfl : s.this = h := ha.this
  exact Pool.ofTables_item hp ha.parent

theorem pool_operates (hp : w.pimpls h = some p) {gs : List Frame}
    (ho : w.Operates ⟨h, w.kernel, p⟩ gs out) : out.state.pool = w.pool := by
  obtain ⟨s', ha, hstate, -⟩ := ho
  rw [hstate]
  exact pool_put hp ha

theorem pool_closeAt (w : World) (h : Nat) : (w.closeAt h).pool = w.pool := by
  obtain ⟨heq, -⟩ | ⟨p, hp, -, heq⟩ := closeAt_cases w h
  · rw [heq]
  · rw [heq]
    exact Pool.ofTables_item hp rfl

theorem mutual_of_eq {q : Pool Nat Nat} (heq : w.pool = q) (hm : q.Mutual) : w.pool.Mutual :=
  heq ▸ hm

/-- A new socket: there was nothing with its number. -/
theorem mutual_construct (ht : w.Tied) (hm : w.pool.Mutual) (domain type protocol fd : Int)
    (callbacks : Callbacks) (refused : Option Nat) :
    (w.construct domain type protocol fd callbacks refused).1.pool.Mutual := by
  obtain ⟨e, heq⟩ | ⟨-, heq⟩ := construct_cases w domain type protocol fd callbacks refused
  · rw [heq]
    exact hm
  · rw [heq]
    obtain ⟨hpimpl, hobject⟩ := ht.beyond w.fresh (Nat.le_refl _)
    have hcreate : (w.pool.create w.fresh w.fresh).Mutual := by
      refine hm.create ?_ ?_
      · show (w.objects w.fresh).join = none
        rw [hobject]
        rfl
      · show (w.pimpls w.fresh).map SocketBasePimpl.parent = none
        rw [hpimpl]
        rfl
    exact mutual_of_eq (Pool.ofTables_create rfl) hcreate

theorem mutual_destroy (hm : w.pool.Mutual) (hobj : w.objects o = some (some h)) :
    (w.destroy o h).pool.Mutual := by
  have hclosed : (w.closeAt h).pool.Mutual := by
    rw [pool_closeAt]
    exact hm
  have howns : (w.closeAt h).pool.owns o = some h := by
    refine Pool.ofTables_owns.mpr ?_
    rw [closeAt_objects]
    exact hobj
  refine mutual_of_eq ?_ (hclosed.destroy howns)
  unfold pool
  rw [← Pool.ofTables_destroy, closeAt_objects]
  rfl

theorem mutual_destruct (hm : w.pool.Mutual) (hd : w.destruct o = some w') :
    w'.pool.Mutual := by
  obtain ⟨pimpl, hobj, rfl⟩ := Option.map_eq_some_iff.mp hd
  cases pimpl with
  | some x => exact mutual_destroy hm hobj
  | none =>
    have howns : (w.objects o).join = none := by
      rw [hobj]
      rfl
    have hsame : Pool.ofTables (Function.update w.objects o none) w.pimpls
        SocketBasePimpl.parent = w.pool := Pool.ofTables_object howns rfl
    exact mutual_of_eq hsame hm

theorem mutual_move (ht : w.Tied) (hm : w.pool.Mutual) {other : Nat}
    (hs : w.owned other = some s)
    (hown : World.own { w.release other with fresh := w.fresh + 1 } w.fresh s.this = some w') :
    w'.pool.Mutual := by
  obtain ⟨-, hother, -, -⟩ := owned_iff.mp hs
  obtain ⟨p, -, rfl⟩ := own_some hown
  have howns : w.pool.owns other = some s.this := Pool.ofTables_owns.mpr hother
  have hfree : w.pool.owns w.fresh = none := by
    show (w.objects w.fresh).join = none
    rw [(ht.beyond w.fresh (Nat.le_refl _)).2]
    rfl
  exact mutual_of_eq (Pool.ofTables_handOver rfl) (hm.handOver howns hfree)

/-- Move assignment: the pimpl that the object had goes, and an object that is assigned to
itself keeps its own. -/
theorem mutual_assign (hm : w.pool.Mutual) {other : Nat} (hassign : w.assign o other = some w') :
    w'.pool.Mutual := by
  obtain ⟨s, pimpl, hs, hobj, hown⟩ := assign_some hassign
  obtain ⟨p, hother, hp, -⟩ := owned_iff.mp hs
  obtain ⟨q, hq, rfl⟩ := own_some hown
  have howns : w.pool.owns other = some s.this := Pool.ofTables_owns.mpr hother
  by_cases heq : other = o
  · subst heq
    change Function.update w.objects other (some none) other = some pimpl at hobj
    rw [Function.update_self] at hobj
    obtain rfl := Option.some.inj hobj
    have hfree : (w.pool.destroy other s.this).owns other = none := Function.update_self ..
    have hmade := (hm.destroy howns).create hfree (Function.update_self ..)
    rw [← Pool.handOver_eq] at hmade
    exact mutual_of_eq (Pool.ofTables_handOver rfl) hmade
  · change Function.update w.objects other (some none) o = some pimpl at hobj
    rw [Function.update_of_ne (Ne.symm heq)] at hobj
    cases pimpl with
    | none =>
      have hfree : w.pool.owns o = none := by
        show (w.objects o).join = none
        rw [hobj]
        rfl
      exact mutual_of_eq (Pool.ofTables_handOver rfl) (hm.handOver howns hfree)
    | some y =>
      have hmoved := hm.replace heq howns (Pool.ofTables_owns.mpr hobj)
      refine mutual_of_eq ?_ hmoved
      -- the entry of `o` is overwritten in any case
      have hobjects : Function.update (Function.update w.objects other (some none)) o
          (some (some s.this)) = Function.update (Function.update (Function.update w.objects o none)
            other (some none)) o (some (some s.this)) := by
        rw [Function.update_comm (Ne.symm heq), Function.update_idem]
      show Pool.ofTables (Function.update (Function.update w.objects other (some none)) o _) _ _ = _
      rw [hobjects]
      unfold pool
      rw [← Pool.ofTables_destroy]
      exact Pool.ofTables_handOver rfl

theorem mutual_accepted (ht : w.Tied) (hm : w.pool.Mutual) (s : Socket) (rest : List Ready)
    (refused again : Option Nat) (n : Nat) :
    (w.accepted s rest refused again n).state.pool.Mutual := by
  have hmade := mutual_construct ht hm s.pimpl.domain s.pimpl.type s.pimpl.protocol n noCallbacks
    refused
  obtain ⟨w', hc, heq⟩ | ⟨w', p, new, hc, hp, hobj, harms, heq | heq⟩ :=
    accepted_cases w s rest refused again n
  all_goals
    rw [heq]
    rw [hc] at hmade
  · exact hmade
  · have hput := pool_put hp harms
    show (w'.put new).pool.Mutual
    rw [hput]
    exact hmade
  · have hput : (w'.put new).pool.Mutual := by
      rw [pool_put hp harms]
      exact hmade
    exact mutual_destroy hput hobj

theorem mutual_acceptBranch (ht : w.Tied) (hm : w.pool.Mutual) (hp : w.pimpls h = some p)
    (rest : List Ready) (refused again : Option Nat) (a : Opened) :
    (w.acceptBranch ⟨h, w.kernel, p⟩ rest refused again a).state.pool.Mutual := by
  have harms := Socket.arms_taken ⟨h, w.kernel, p⟩ a
  have htaken : (w.put (Socket.taken ⟨h, w.kernel, p⟩ a)).pool.Mutual := by
    rw [pool_put hp harms]
    exact hm
  cases a with
  | failed e =>
    rw [acceptBranch, callThen_state]
    exact htaken
  | fd n =>
    unfold acceptBranch
    dsimp only
    split
    · exact mutual_accepted ((ht.put hp harms).openFd n) htaken _ rest refused again n
    · exact htaken

theorem pool_elsewhere {e : Elsewhere} (he : w.elsewhere e = some w') : w'.pool = w.pool := by
  cases e with
  | connects fd =>
    simp only [elsewhere] at he
    split at he <;> cases he
    rfl
  | activates filter fd =>
    cases filter with
    | read =>
      simp only [elsewhere] at he
      split at he <;> cases he
      rfl
    | write =>
      cases he
      rfl

theorem pool_kevent {events : List (Option (Filter × Int))} {ready : List Ready}
    (hk : w.kevent events = some (w', ready)) : w'.pool = w.pool := by
  unfold World.kevent at hk
  split at hk
  · obtain ⟨⟨k, r⟩, -, heq⟩ := Option.map_eq_some_iff.mp hk
    cases heq
    rfl
  · cases hk

/-- **Every stretch of code keeps owners and parents together.** -/
theorem mutual_stretch (ht : w.Tied) (hm : w.pool.Mutual) (hs : Stretch w f a out) :
    out.state.pool.Mutual := by
  have same : ∀ {v : World}, v.pool = w.pool → v.pool.Mutual := fun heq => heq ▸ hm
  cases hs with
  | @socket domain type protocol callbacks a refused hopens =>
    rw [constructed_state]
    cases a with
    | fd n => exact mutual_construct (ht.openFd n) hm _ _ _ _ _ _
    | failed e => exact mutual_construct (ht.setErrno e) hm _ _ _ _ _ _
  | adopt =>
    rw [constructed_state]
    exact mutual_construct ht hm _ _ _ _ _ _
  | move hs hown => exact mutual_move ht hm hs hown
  | assign hassign => exact mutual_assign hm hassign
  | destroy hdestruct | newSocket hdestruct => exact mutual_destruct hm hdestruct
  | close hclose =>
    obtain ⟨pimpl, -, rfl⟩ := Option.map_eq_some_iff.mp hclose
    cases pimpl with
    | none => exact hm
    | some x => exact same (pool_closeAt w x)
  | connect hs =>
    obtain ⟨x, p, -, hp, rfl⟩ := exists_of_owned hs
    exact same (pool_operates hp (operates_connect ..))
  | listen hs =>
    obtain ⟨x, p, -, hp, rfl⟩ := exists_of_owned hs
    exact same (pool_operates hp (operates_listen ..))
  | write hs hwrite =>
    obtain ⟨x, p, -, hp, rfl⟩ := exists_of_owned hs
    obtain ⟨r, ho⟩ := operates_write (w := w) (Socket.arms_soWrite hwrite)
    exact same (pool_operates hp ho)
  | callbacks hs =>
    obtain ⟨x, p, -, hp, rfl⟩ := exists_of_owned hs
    exact same (Pool.ofTables_item hp rfl)
  | elsewhereCalled he | elsewhere he => exact same (pool_elsewhere he)
  | kevent hrun hk => exact same (pool_kevent hk)
  | accept hp => exact mutual_acceptBranch ht hm hp _ _ _ _
  | sent hp => exact same (pool_operates hp (operates_callThen (Socket.arms_refl _) _))
  | connected hp hconnected hget | notConnected hp hconnected hget =>
    exact same (pool_operates hp (operates_callThen (Socket.arms_getsockopt hget) _))
  | received hp ha => exact same (pool_operates hp (operates_received hp ..))
  | @asked h rest p refused s hp hask | @askFailed h rest p refused s hp hask =>
    have harms := Socket.arms_askReadEvent ⟨h, w.kernel, p⟩ refused
    rw [hask] at harms
    exact same (pool_put hp harms)
  | _ => exact hm

/-! ### What a callback gets -/

/-- The callback is called for the socket at `h`. -/
theorem callThen_hands {cb' : Option Callback} {g : Frame} {parent : Nat} {cb : Callback}
    (hw : w.Parented) (hp : w.pimpls h = some p) (hparent : s.pimpl.parent = p.parent)
    (hcall : .callback parent cb ∈ (w.callThen s g cb').callOuts) :
    (w.callThen s g cb').state.objects parent = some (some h) := by
  rw [callThen_state]
  cases cb' with
  | none => cases hcall
  | some cb' =>
    obtain ⟨hp', -⟩ := CallOut.callback.inj (List.mem_singleton.mp hcall)
    rw [hp', hparent]
    exact (hw h p hp p.parent).mpr rfl

theorem accepted_hands (ht : w.Tied) {rest : List Ready} {refused again : Option Nat} {n : Nat}
    {parent : Nat} {cb : Callback} (hobj : w.objects s.pimpl.parent = some (some h))
    (hcall : .callback parent cb ∈ (w.accepted s rest refused again n).callOuts) :
    (w.accepted s rest refused again n).state.objects parent = some (some h) := by
  have hne : s.pimpl.parent ≠ w.fresh := by
    intro heq
    rw [heq, (ht.beyond w.fresh (Nat.le_refl _)).2] at hobj
    cases hobj
  obtain ⟨e, hc⟩ | ⟨-, hc⟩ := construct_cases w s.pimpl.domain s.pimpl.type s.pimpl.protocol n
    noCallbacks refused
  all_goals
    obtain ⟨w', hc', heq⟩ | ⟨w', p, new, hc', hp, hobj', harms, heq | heq⟩ :=
      accepted_cases w s rest refused again n
  all_goals
    rw [heq] at hcall ⊢
    cases hc.symm.trans hc'
  · cases hcall
  · obtain ⟨hp', -⟩ := CallOut.callback.inj (List.mem_singleton.mp hcall)
    rw [hp']
    exact (Function.update_of_ne hne ..).trans hobj
  · cases hcall

/-- **While the parents are right**, a callback gets the object that owns its socket. -/
theorem Parented.hands (hw : w.Parented) (ht : w.Tied) (f : Frame) (a : Answer) :
    w.Hands f a := by
  intro out hres parent cb hcall
  cases stretch_of_resume hres with
  | @write o s buffer as written hs hwrite =>
    obtain ⟨x, p, hobj, hp, rfl⟩ := exists_of_owned hs
    refine ⟨x, by simp [worksOn, hobj], ?_⟩
    unfold World.write at hcall ⊢
    split at hcall
    · exact callThen_hands hw hp (Socket.arms_soWrite hwrite).parent hcall
    · cases hcall
  | @accept h rest p a refused again hp hlistening ha hopens =>
    refine ⟨h, rfl, ?_⟩
    cases a with
    | failed e => exact callThen_hands hw hp (Socket.arms_taken ⟨h, w.kernel, p⟩ _).parent hcall
    | fd n =>
      unfold acceptBranch at hcall ⊢
      dsimp only at hcall ⊢
      split at hcall
      · rename_i hset
        rw [if_pos hset]
        have htied := (ht.put hp (Socket.arms_taken ⟨h, w.kernel, p⟩ (.fd n))).openFd n
        exact accepted_hands htied ((hw h p hp p.parent).mpr rfl) hcall
      · cases hcall
  | @sent h rest p hp hconnected => exact ⟨h, rfl, callThen_hands hw hp rfl hcall⟩
  | @connected h rest p soError k hp hconnected hget =>
    exact ⟨h, rfl, callThen_hands hw hp rfl hcall⟩
  | @notConnected h rest p soError k err hp hconnected hget herr =>
    exact ⟨h, rfl, callThen_hands hw hp rfl hcall⟩
  | @received h rest p a hp ha =>
    refine ⟨h, rfl, ?_⟩
    unfold World.received at hcall ⊢
    split at hcall
    · split at hcall
      · exact callThen_hands hw hp rfl hcall
      · cases hcall
    · exact callThen_hands hw hp rfl hcall
    · exact callThen_hands hw hp rfl hcall
  | other => cases List.mem_singleton.mp hcall
  | connect =>
    unfold World.connect at hcall
    split at hcall <;> cases hcall
  | listen =>
    unfold World.listen at hcall
    split at hcall <;> cases hcall
  | socket | adopt =>
    unfold constructed at hcall
    split at hcall <;> cases hcall
  | _ => cases hcall

end World

/-- What a run keeps: descriptors, filters and pimpls belong together, and so do owners and
parents. -/
theorem mutual_of_run {es : List (Event Op Answer)} {c : Configuration}
    (hr : Runs.run (step object) (Config.start World.new) es = some c) :
    c.state.Tied ∧ c.state.pool.Mutual := by
  refine Runs.run_invariant (I := fun c => c.state.Tied ∧ c.state.pool.Mutual)
    (fun c e c' ⟨ht, hm⟩ hstep => ?_) ⟨World.new_tied, Pool.mutual_empty⟩ hr
  refine (Step.of_step hstep).preserves_always (J := fun w => w.Tied ∧ w.pool.Mutual) ⟨ht, hm⟩
    (fun _ => ⟨ht, hm⟩) fun hres => ?_
  have hs := stretch_of_resume hres
  exact ⟨ht.stretch hs, World.mutual_stretch ht hm hs⟩

/-- **A callback gets the object that owns its socket**, after every run. -/
theorem callbacks_given_owner {es : List (Event Op Answer)} {c : Configuration}
    (hr : Runs.run (step object) (Config.start World.new) es = some c) :
    c.state.Parented ∧ ∀ f rest, c.stack = .code f :: rest → ∀ a, c.state.Hands f a := by
  obtain ⟨ht, hm⟩ := mutual_of_run hr
  have hparented : c.state.Parented := (Pool.mutual_ofTables hm.proper).mp hm
  exact ⟨hparented, fun f rest _ a => hparented.hands ht f a⟩

/-- A socket that connects is moved, and another one is assigned to the object it was in; then
its event is to be handled. -/
def movedRun : List (Event Op Answer) :=
  [.call (.api (.socket 2 1 0 ⟨true, false, false, false, false, false⟩)),
    .code (.opened (.fd 3) none), .call (.api (.connect 0)),
    .code (.call none (some EINPROGRESS)), .call (.api (.move 0)), .code .go,
    .call (.api (.socket 2 1 0 noCallbacks)), .code (.opened (.fd 4) none),
    .call (.api (.assign 0 2)), .code .go,
    .call (.elsewhere (.activates .write 3)), .code .go,
    .call (.api .waitForInput), .code .go, .code (.ready [some (.write, 3)])]

/-- `on_connected` gets the object that the socket was moved to. -/
theorem callbacks_given_owner_moved :
    ∃ c, Runs.run (step object) (Config.start World.new) movedRun = some c ∧
      c.state.Hands (.batch [.socket .write 0]) (.wake 0) ∧
      c.state.objects 1 = some (some 0) := by
  obtain ⟨c, hr, hstack, hobj⟩ : ∃ c,
      Runs.run (step object) (Config.start World.new) movedRun = some c ∧
        c.stack = [.code (.batch [.socket .write 0])] ∧ c.state.objects 1 = some (some 0) :=
    Runs.exists_run (by decide)
  exact ⟨c, hr, (callbacks_given_owner hr).2 _ _ hstack _, hobj⟩

end Macos
end AcppNetwork
