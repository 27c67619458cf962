import AcppNetwork.BackPointers
import AcppNetwork.LinuxOwnership
import AcppNetwork.LinuxTimerSteps

/-!
# Who a callback is given

`parent_` of a `socket_base_pimpl` and of a `timer_impl` is a reference to the object that
owns it, and that is what a callback of it gets.  The objects move, so every constructor
and every move has to set it.

Those of `async_socket_base` do, and throughout every run the parent of a socket's pimpl is
the one object that owns it.  The move constructor of `timer` does not: the parent of a
`timer_impl` is the object that it was made for, and stays its owner exactly if no timer
is moved (`parents_iff`).
-/
namespace AcppNetwork
namespace Linux

open Reentrant BackPointers

namespace World

/-- The parent of every live pimpl is the one object that owns it. -/
def Parented (w : World) : Prop :=
  ∀ h p, w.pimpls h = some p → ∀ o, w.objects o = some (some h) ↔ o = p.parent

/-- A callback of a socket that is called gets the object that owns the socket. -/
def Hands (w : World) (f : Frame) (a : Answer) : Prop :=
  ∀ out, resume w f a = some out → ∀ parent cb, .callback parent cb ∈ out.callOuts →
    ∃ h, .invoked h cb ∈ out.notes ∧ out.state.objects parent = some (some h)

/-- The objects and the pimpls. -/
def pool (w : World) : Pool Nat Nat := .ofTables w.objects w.pimpls SocketBasePimpl.parent

variable {w w' : World} {h o : Nat} {p : SocketBasePimpl} {s : Socket}

theorem pool_put (hp : w.pimpls s.this = some p) (hparent : s.pimpl.parent = p.parent) :
    (w.put s).pool = w.pool := Pool.ofTables_item hp hparent

theorem pool_rearms (hp : w.pimpls h = some p) (hr : Socket.Rearms ⟨h, w.kernel, p⟩ s) :
    (w.put s).pool = w.pool := by
  obtain rfl : s.this = h := hr.this
  exact pool_put hp hr.parent

theorem pool_owned {s' : Socket} (hs : w.owned o = some s) (hr : s.Rearms s') :
    (w.put s').pool = w.pool := by
  obtain ⟨p, -, hp, hsocket⟩ := owned_iff.mp hs
  exact pool_rearms hp (hsocket ▸ hr)

theorem pool_construct (domain type protocol fd : Int) (callbacks : Callbacks) :
    (w.construct domain type protocol fd callbacks).pool = w.pool.create w.fresh w.fresh :=
  Pool.ofTables_create rfl

/-- A new socket. -/
theorem construct_deed (ht : w.Tended) (hpool : w'.pool = w.pool.create w.fresh w.fresh) :
    Pool.Deed w.pool w'.pool True := by
  refine .creates w.fresh w.fresh ?_ ?_ hpool trivial
  · show (w.objects w.fresh).join = none
    rw [ht.noObject w.fresh (Nat.le_refl _)]
    rfl
  · show (w.pimpls w.fresh).map SocketBasePimpl.parent = none
    rw [ht.beyond w.fresh (Nat.le_refl _)]
    rfl

theorem destruct_deed {ns : List Note} (h : w.destruct o = some (w', ns)) :
    Pool.Deed w.pool w'.pool True := by
  obtain ⟨pimpl, hobj, rfl, -⟩ := destruct_some h
  cases pimpl with
  | none =>
    refine .keeps ?_ trivial
    have howns : (w.objects o).join = none := by
      rw [hobj]
      rfl
    exact Pool.ofTables_object howns rfl
  | some x =>
    refine .destroys o x (Pool.ofTables_owns.mpr hobj) ?_ trivial
    show Pool.ofTables (World.delete { w with objects := _ } x).objects
      (World.delete { w with objects := _ } x).pimpls _ = _
    rw [delete_objects, delete_pimpls]
    exact Pool.ofTables_destroy

theorem close_parent (s : Socket) : s.close.pimpl.parent = s.pimpl.parent := by
  unfold Socket.close
  split <;> rfl

theorem closeObject_pool {ns : List Note} (h : w.closeObject o = some (w', ns)) :
    w'.pool = w.pool := by
  obtain ⟨-, rfl, -⟩ | ⟨x, p, -, hp, -, rfl⟩ := closeObject_some h
  · rfl
  · exact Pool.ofTables_item hp (close_parent ⟨x, w.kernel, p⟩)

theorem move_deed {other : Nat} (ht : w.Tended) (hs : w.owned other = some s)
    (hown : World.own { w.release other with fresh := w.fresh + 1 } w.fresh s.this = some w') :
    Pool.Deed w.pool w'.pool True := by
  obtain ⟨-, hother, -, -⟩ := owned_iff.mp hs
  obtain ⟨p, -, rfl⟩ := Option.map_eq_some_iff.mp hown
  refine .moves other w.fresh s.this (Pool.ofTables_owns.mpr hother) ?_
    (Pool.ofTables_handOver rfl) trivial
  show (w.objects w.fresh).join = none
  rw [ht.noObject w.fresh (Nat.le_refl _)]
  rfl

/-- Move assignment.  The old pimpl of the object goes, if it has one; an object that is
assigned to itself keeps its pimpl. -/
theorem assign_deed {other : Nat} {ns : List Note} (hm : w.pool.Mutual)
    (h : w.assign o other = some (w', ns)) : Pool.Deed w.pool w'.pool True := by
  obtain ⟨s, pimpl, hs, hobj, hown, -⟩ := assign_some h
  obtain ⟨p, hother, hp, -⟩ := owned_iff.mp hs
  obtain ⟨q, hq, rfl⟩ := Option.map_eq_some_iff.mp hown
  have howns : w.pool.owns other = some s.this := Pool.ofTables_owns.mpr hother
  have hpool : World.pool { ((w.release other).reset pimpl).1 with
      objects := Function.update ((w.release other).reset pimpl).1.objects o (some (some s.this))
      pimpls := Function.update ((w.release other).reset pimpl).1.pimpls s.this
        (some { q with parent := o }) } =
      Pool.handOver (.ofTables w.objects ((w.release other).reset pimpl).1.pimpls
        SocketBasePimpl.parent) other o s.this := by
    rw [reset_objects]
    exact Pool.ofTables_handOver rfl
  rw [hpool]
  cases pimpl with
  | none =>
    by_cases heq : other = o
    · subst heq
      refine .keeps ?_ trivial
      have hparent : w.pool.parent s.this = some other := (hm other s.this).mp howns
      show Pool.mk (Function.update (Function.update w.pool.owns other none) other (some s.this))
        (Function.update w.pool.parent s.this (some other)) = w.pool
      rw [Function.update_idem, ← howns, ← hparent, Function.update_eq_self,
        Function.update_eq_self]
    · refine .moves other o s.this howns ?_ rfl trivial
      change Function.update w.objects other _ o = some none at hobj
      rw [Function.update_of_ne (Ne.symm heq)] at hobj
      show (w.objects o).join = none
      rw [hobj]
      rfl
  | some y =>
    have hne : other ≠ o := by
      rintro rfl
      change Function.update w.objects other (some none) other = some (some y) at hobj
      rw [Function.update_self] at hobj
      cases hobj
    change Function.update w.objects other _ o = some (some y) at hobj
    rw [Function.update_of_ne (Ne.symm hne)] at hobj
    refine .replaces other o s.this y hne howns (Pool.ofTables_owns.mpr hobj) ?_ trivial
    -- the entry of `o` is overwritten in any case
    have hpimpls : ((w.release other).reset (some y)).1.pimpls = Function.update w.pimpls y none :=
      delete_pimpls
    rw [hpimpls]
    unfold Pool.handOver Pool.destroy
    ext1
    · show Function.update (Function.update w.pool.owns other none) o (some s.this) =
        Function.update (Function.update (Function.update w.pool.owns o none) other none) o
          (some s.this)
      rw [Function.update_comm hne.symm, Function.update_idem]
    · show Function.update (Option.map _ ∘ Function.update w.pimpls y none) s.this (some o) = _
      rw [Function.comp_update]
      rfl

/-- **What a stretch of code does to the objects and the pimpls.** -/
theorem pool_deed {f : Frame} {a : Answer} {out : Next} (ht : w.Tended) (hm : w.pool.Mutual)
    (hs : Stretch w f a out) : Pool.Deed w.pool out.state.pool True := by
  cases hs with
  | @socket domain type protocol callbacks a hopens =>
    cases a with
    | fd n => exact construct_deed ht (pool_construct (w := w.openFd n) ..)
    | failed e => exact construct_deed ht (pool_construct (w := w.setErrno e) ..)
  | adopt => exact construct_deed ht (pool_construct ..)
  | move hs hown => exact move_deed ht hs hown
  | assign hassign => exact assign_deed hm hassign
  | destroy hdestruct | newSocket hdestruct => exact destruct_deed hdestruct
  | close hclose => exact .keeps (closeObject_pool hclose) trivial
  | connect hs => exact .keeps (pool_owned hs (Socket.connect_rearms ..)) trivial
  | listen hs => exact .keeps (pool_owned hs (Socket.listen_rearms ..)) trivial
  | write hs hwrite =>
    rw [callThen_state]
    exact .keeps (pool_owned hs (Socket.soWrite_rearms hwrite)) trivial
  | callbacks hs =>
    obtain ⟨p, -, hp, hsocket⟩ := owned_iff.mp hs
    exact .keeps (Pool.ofTables_item hp (congrArg (·.pimpl.parent) hsocket)) trivial
  | wake hp hout =>
    rw [callThen_state]
    exact .keeps (pool_rearms hp (Socket.writeBranch_rearms ..)) trivial
  | @accept h events rest p a refused hin hp hlistening ha hopens =>
    cases a with
    | failed e =>
      rw [acceptBranch, callThen_state]
      exact .keeps (pool_rearms hp (Socket.errno_rearms ..)) trivial
    | fd n =>
      rcases acceptBranch_fd w ⟨h, w.kernel, p⟩ rest refused n with
        ⟨-, hstate⟩ | ⟨-, new, hnew, hstate⟩
      · rw [hstate]
        exact .keeps rfl trivial
      · rw [hstate]
        have hput := pool_rearms (w := (w.openFd n).construct p.domain p.type p.protocol n
          ⟨false, false, false, false, false, false⟩) (Function.update_self ..)
          (accepted_rearms hnew)
        exact construct_deed ht (hput.trans (pool_construct ..))
  | @receive h events rest p a s cb hin hp hlistening ha hreceive =>
    have hrearms := Socket.receiveBranch_rearms ⟨h, w.kernel, p⟩ a
    rw [hreceive] at hrearms
    rw [callThen_state]
    exact .keeps (pool_rearms hp hrearms) trivial
  | @badFunctionCall h events rest p a s hin hp hlistening ha hreceive =>
    have hrearms := Socket.receiveBranch_rearms ⟨h, w.kernel, p⟩ a
    rw [hreceive] at hrearms
    exact .keeps (pool_rearms hp hrearms) trivial
  | _ => exact .keeps rfl trivial

theorem parented_iff (h : w.pool.Proper) : w.pool.Mutual ↔ w.Parented :=
  Pool.mutual_ofTables h

/-! ### What a callback gets -/

theorem callThen_hands {ns : List Note} {cb : Callback} {cb' : Option Callback} {f : Frame}
    {parent : Nat} (hw : w.Parented) (hp : w.pimpls h = some p) (hthis : s.this = h)
    (hparent : s.pimpl.parent = p.parent)
    (hcall : .callback parent cb ∈ (w.callThen s f ns cb').callOuts) :
    ∃ x, .invoked x cb ∈ (w.callThen s f ns cb').notes ∧
      (w.callThen s f ns cb').state.objects parent = some (some x) := by
  cases cb' with
  | none => cases hcall
  | some cb' =>
    obtain ⟨hp', hcb⟩ := CallOut.callback.inj (List.mem_singleton.mp hcall)
    refine ⟨s.this, List.mem_append_right _ (hcb ▸ List.mem_singleton_self _), ?_⟩
    rw [hp', hparent, hthis]
    exact (hw h p hp p.parent).mpr rfl

/-- **While the parents are right**, a callback gets the object that owns its socket. -/
theorem Parented.hands (hw : w.Parented) (ht : w.Tended) (f : Frame) (a : Answer) :
    w.Hands f a := by
  intro out hres parent cb hcall
  cases stretch_of_resume hres with
  | write hs hwrite =>
    obtain ⟨p, -, hp, heq⟩ := owned_iff.mp hs
    have hrearms := Socket.soWrite_rearms hwrite
    exact callThen_hands hw hp hrearms.this (hrearms.parent.trans (congrArg (·.pimpl.parent) heq))
      hcall
  | @wake h events rest p refused soError hp hout =>
    have hrearms := Socket.writeBranch_rearms ⟨h, w.kernel, p⟩ refused soError
    exact callThen_hands hw hp hrearms.this hrearms.parent hcall
  | @accept h events rest p a refused hin hp hlistening ha hopens =>
    cases a with
    | failed e => exact callThen_hands hw hp rfl rfl hcall
    | fd n =>
      simp only [acceptBranch] at hcall ⊢
      split at hcall
      · rename_i hset
        rw [if_pos hset]
        obtain ⟨hp', hcb⟩ := CallOut.callback.inj (List.mem_singleton.mp hcall)
        refine ⟨h, ?_, ?_⟩
        · rw [hcb]
          exact List.mem_cons_of_mem _ (List.mem_singleton_self _)
        · have hobject := (hw h p hp p.parent).mpr rfl
          have hne : p.parent ≠ w.fresh := by
            intro heq
            rw [heq, ht.noObject w.fresh (Nat.le_refl _)] at hobject
            cases hobject
          rw [hp']
          exact (Function.update_of_ne hne ..).trans hobject
      · cases hcall
  | @receive h events rest p a s cb hin hp hlistening ha hreceive =>
    have hrearms := Socket.receiveBranch_rearms ⟨h, w.kernel, p⟩ a
    rw [hreceive] at hrearms
    exact callThen_hands hw hp hrearms.this hrearms.parent hcall
  | other => cases List.mem_singleton.mp hcall
  | _ => cases hcall

end World

/-- **The parent of a socket's pimpl is its owner, in every run.** -/
theorem mutual_of_run {es : List (Event Op Answer)} {c : Configuration}
    (hr : Runs.run (step object) (Config.start World.new) es = some c) : c.state.pool.Mutual := by
  refine Runs.run_invariant_given (J := fun c => c.state.Tended)
    (I := fun c => c.state.pool.Mutual) (fun _ _ _ => tended_step) (fun c e c' ht hm _ hstep => ?_)
    World.new_tended Pool.mutual_empty (Runs.along_of_forall fun _ _ => trivial) hr
  refine (Step.of_step hstep).preserves_always (J := fun w => w.pool.Mutual) hm (fun _ => hm)
    fun hres => ?_
  exact ((World.pool_deed ht hm (stretch_of_resume hres)).mutual_iff hm).mpr trivial

/-! ## Timers -/

namespace Timers

namespace World

/-- The parent of every live `timer_impl` is the one object that owns it. -/
def Parented (w : World) : Prop :=
  ∀ h p, w.impls h = some p → ∀ o, w.objects o = some (some h) ↔ o = p.parent

/-- A callback of a timer that is called gets the object that owns the timer. -/
def Hands (w : World) (f : Frame) (a : Answer) : Prop :=
  ∀ out, resume w f a = some out → ∀ parent, .onTimeout parent ∈ out.callOuts →
    ∃ h, .timeout h ∈ out.notes ∧ out.state.objects parent = some (some h)

/-- No timer is moved that owns a `timer_impl`. -/
def Stays (w : World) (f : Frame) (a : Answer) : Prop :=
  match f, a with
  | .api (.move other), .go => w.owned other = none
  | _, _ => True

instance (w : World) (f : Frame) (a : Answer) : Decidable (w.Stays f a) := by
  unfold Stays
  split <;> infer_instance

/-- The objects and the `timer_impl`s. -/
def pool (w : World) : Pool Nat Nat := .ofTables w.objects w.impls TimerImpl.parent

/-- Every `timer_impl` has one owner, and what was not handed out is not used. -/
structure Kept (w : World) : Prop where
  proper : w.pool.Proper
  beyond : ∀ x, w.fresh ≤ x → w.impls x = none ∧ w.objects x = none

variable {w w' : World} {f : Frame} {a : Answer} {out : Next}

/-- An object has a `timer_impl`, unless it was moved from. -/
theorem owned_none_iff (hw : w.Kept) {o : Nat} : w.owned o = none ↔ w.pool.owns o = none := by
  show (w.objects o).join.bind _ = none ↔ (w.objects o).join = none
  cases h : (w.objects o).join with
  | none => exact iff_of_true rfl rfl
  | some x =>
    refine iff_of_false (fun hnone => ?_) (fun hnone => nomatch hnone)
    have hex := hw.proper.exists (Pool.ofTables_owns.mpr (Option.join_eq_some_iff.mp h))
    obtain ⟨o', ho'⟩ := Option.ne_none_iff_exists'.mp hex
    obtain ⟨p, hp, -⟩ := Pool.ofTables_parent.mp ho'
    rw [Option.bind_some, hp] at hnone
    cases hnone

/-- The move constructor: it sets no parent. -/
theorem move_deed {other : Nat} (hw : w.Kept) (hmove : w.move other = some w') :
    Pool.Deed w.pool w'.pool (w.owned other = none) := by
  obtain ⟨pimpl, hobj, rfl⟩ := Option.map_eq_some_iff.mp hmove
  have hfree : (w.objects w.fresh).join = none := by
    rw [(hw.beyond w.fresh (Nat.le_refl _)).2]
    rfl
  cases pimpl with
  | none =>
    have howns : (w.objects other).join = none := by
      rw [hobj]
      rfl
    refine .keeps ?_ ((owned_none_iff hw).mpr howns)
    have hfirst : Pool.ofTables (Function.update w.objects other (some none)) w.impls
        TimerImpl.parent = w.pool := Pool.ofTables_object howns rfl
    refine Eq.trans (Pool.ofTables_object ?_ rfl) hfirst
    rw [Function.update_apply]
    split
    · rfl
    · exact hfree
  | some x =>
    have howns : w.pool.owns other = some x := Pool.ofTables_owns.mpr hobj
    refine .forgets other w.fresh x howns hfree Pool.ofTables_forget fun hnone => ?_
    rw [owned_none_iff hw, howns] at hnone
    cases hnone

theorem elsewhere_pool {e : Elsewhere} (he : w.elsewhere e = some w') : w'.pool = w.pool := by
  cases e with
  | opens n =>
    simp only [elsewhere] at he
    split at he
    · cases he
    · cases he
      rfl
  | closes n =>
    simp only [elsewhere] at he
    split at he
    · cases he
      rfl
    · cases he

/-- **What a stretch of code does to the objects and the timers.** -/
theorem pool_deed (hw : w.Kept) (hs : Stretch w f a out) :
    Pool.Deed w.pool out.state.pool (w.Stays f a) := by
  cases hs with
  | timer hfree hnonneg =>
    obtain ⟨himpl, hobject⟩ := hw.beyond w.fresh (Nat.le_refl _)
    refine .creates w.fresh w.fresh ?_ ?_ (Pool.ofTables_create rfl) trivial
    · show (w.objects w.fresh).join = none
      rw [hobject]
      rfl
    · show (w.impls w.fresh).map TimerImpl.parent = none
      rw [himpl]
      rfl
  | move hmove => exact move_deed hw hmove
  | destroy hdestruct =>
    rcases destruct_some hdestruct with ⟨x, p, howned, rfl⟩ | ⟨hnone, rfl⟩
    · exact .destroys _ x (Pool.ofTables_owns.mpr (owned_iff.mp howned).1) Pool.ofTables_destroy
        trivial
    · exact .keeps (Pool.ofTables_object ((owned_none_iff hw).mp hnone) rfl) trivial
  | elsewhereCalled helsewhere => exact .keeps (elsewhere_pool helsewhere) trivial
  | @elsewhere f e w' helsewhere =>
    refine .keeps (elsewhere_pool helsewhere) ?_
    unfold Stays
    split <;> trivial
  | ready hrun hready =>
    obtain rfl := epollWait_eq hready
    exact .keeps rfl trivial
  | _ => exact .keeps rfl trivial

/-- What was not handed out stays unused. -/
theorem beyond_stretch (hw : w.Kept) (hs : Stretch w f a out) :
    ∀ x, out.state.fresh ≤ x → out.state.impls x = none ∧ out.state.objects x = none := by
  have hsame : ∀ {v : World}, v.impls = w.impls → v.objects = w.objects → v.fresh = w.fresh →
      ∀ x, v.fresh ≤ x → v.impls x = none ∧ v.objects x = none := by
    intro v himpls hobjects hfresh x hx
    rw [himpls, hobjects]
    exact hw.beyond x (hfresh ▸ hx)
  cases hs with
  | timer hfree hnonneg =>
    intro x hx
    have hlt : w.fresh < x := hx
    show Function.update w.impls w.fresh _ x = none ∧ Function.update w.objects w.fresh _ x = none
    rw [Function.update_of_ne (by omega), Function.update_of_ne (by omega)]
    exact hw.beyond x (by omega)
  | @move other w' hmove =>
    obtain ⟨pimpl, hobj, rfl⟩ := Option.map_eq_some_iff.mp hmove
    intro x hx
    have hlt : w.fresh < x := hx
    have hne : x ≠ other := by
      rintro rfl
      rw [(hw.beyond x (by omega)).2] at hobj
      cases hobj
    show w.impls x = none ∧
      Function.update (Function.update w.objects other (some none)) w.fresh _ x = none
    rw [Function.update_of_ne (by omega), Function.update_of_ne hne]
    exact hw.beyond x (by omega)
  | @destroy o w' hdestruct =>
    have hgone : ∀ {m : Nat → Option (Option Nat)} {x : Nat}, m x = none →
        Function.update m o none x = none := by
      intro m x hx
      rw [Function.update_apply]
      split
      · rfl
      · exact hx
    rcases destruct_some hdestruct with ⟨y, p, howned, rfl⟩ | ⟨-, rfl⟩
    · intro x hx
      obtain ⟨himpl, hobject⟩ := hw.beyond x hx
      refine ⟨?_, hgone hobject⟩
      show Function.update w.impls y none x = none
      rw [Function.update_apply]
      split
      · rfl
      · exact himpl
    · intro x hx
      obtain ⟨himpl, hobject⟩ := hw.beyond x hx
      exact ⟨himpl, hgone hobject⟩
  | elsewhereCalled helsewhere | elsewhere helsewhere =>
    rename_i e _
    cases e with
    | opens n =>
      simp only [World.elsewhere] at helsewhere
      split at helsewhere
      · cases helsewhere
      · cases helsewhere
        exact hsame rfl rfl rfl
    | closes n =>
      simp only [World.elsewhere] at helsewhere
      split at helsewhere
      · cases helsewhere
        exact hsame rfl rfl rfl
      · cases helsewhere
  | ready hrun hready =>
    obtain rfl := epollWait_eq hready
    exact hsame rfl rfl rfl
  | _ => exact hsame rfl rfl rfl

theorem Kept.stretch (hw : w.Kept) (hs : Stretch w f a out) : out.state.Kept :=
  ⟨hw.proper.deed (pool_deed hw hs), beyond_stretch hw hs⟩

theorem new_kept : World.new.Kept := ⟨Pool.mutual_empty.proper, fun _ _ => ⟨rfl, rfl⟩⟩

theorem parented_iff (hw : w.Kept) : w.pool.Mutual ↔ w.Parented := Pool.mutual_ofTables hw.proper

/-- **While the parents are right**, a callback gets the object that owns its timer. -/
theorem Parented.hands (hw : w.Parented) (f : Frame) (a : Answer) : w.Hands f a := by
  intro out hres parent hcall
  cases stretch_of_resume hres with
  | @timeout h events rest p hp hin hcallback =>
    obtain rfl := CallOut.onTimeout.inj (List.mem_singleton.mp hcall)
    exact ⟨h, List.mem_cons_of_mem _ (List.mem_singleton_self _), (hw h p hp p.parent).mpr rfl⟩
  | other => cases List.mem_singleton.mp hcall
  | _ => cases hcall

end World

theorem kept_step {c c' : Configuration} {e : Event Op Answer} (hw : c.state.Kept)
    (hstep : step object c e = some c') : c'.state.Kept :=
  (Step.of_step hstep).preserves_always hw (fun _ => hw) fun hres =>
    hw.stretch (stretch_of_resume hres)

/-- **One event keeps the parents right exactly if** it moves no timer. -/
theorem parented_step {c c' : Configuration} {e : Event Op Answer} (hw : c.state.Kept)
    (h : c.state.Parented) (hstep : step object c e = some c') :
    c'.state.Parented ↔ Before (fun w f _ a => w.Stays f a) c e := by
  rcases (Step.of_step hstep).stretch with ⟨o, rfl, -, rfl⟩ |
    ⟨f, rest, a, out, kept, hstack, ha, hres, hstate, -⟩ | ⟨rfl, hstate, -⟩
  · exact iff_of_true h trivial
  · have hs := stretch_of_resume hres
    have hiff := (World.pool_deed hw hs).mutual_iff ((World.parented_iff hw).mpr h)
    rw [hstate, ← World.parented_iff (hw.stretch hs), hiff]
    simp only [Before, ha, hstack]
  · rw [hstate]
    exact iff_of_true h trivial

end Timers

/-- **When `parent_` is the owner.**  In every run the parent of every live socket is the
one object that owns it, and a callback of a socket gets that object.  The same holds of
the timers throughout a run exactly if no timer is moved that owns a `timer_impl`. -/
theorem parents_iff (es : List (Event Op Answer)) {es' : List (Event Timers.Op Timers.Answer)}
    {c : Timers.Configuration}
    (hr : Runs.run (step Timers.object) (Config.start Timers.World.new) es' = some c) :
    (Runs.Throughout (step object) (fun c => c.state.Parented) (Config.start World.new) es ∧
      Runs.Along (step object) (Before fun w f _ a => w.Hands f a) (Config.start World.new) es) ∧
    (Runs.Throughout (step Timers.object) (fun c => c.state.Parented)
        (Config.start Timers.World.new) es' ∧
      Runs.Along (step Timers.object) (Before fun w f _ a => w.Hands f a)
        (Config.start Timers.World.new) es' ↔
      Runs.Along (step Timers.object) (Before fun w f _ a => w.Stays f a)
        (Config.start Timers.World.new) es') := by
  have hiff := Runs.throughout_iff_along (J := fun c => c.state.Kept)
    (fun _ _ _ => Timers.kept_step) (fun _ _ _ => Timers.parented_step) Timers.World.new_kept
    (fun _ _ h => nomatch h) hr
  refine ⟨?_, fun h => hiff.mp h.1, fun h => ?_⟩
  · have hall : Runs.Throughout (step object) (fun c => c.state.Parented ∧ c.state.Tended)
        (Config.start World.new) es := by
      refine Runs.throughout_iff_prefix.mpr fun fs _ d hd => ⟨?_, tended_of_run hd⟩
      have hm := mutual_of_run hd
      exact (World.parented_iff hm.proper).mp hm
    refine ⟨?_, hall.before.imp fun d e h => before_of_state fun f _ a => h.1.hands h.2 f a⟩
    exact Runs.throughout_iff_prefix.mpr fun fs hfs d hd =>
      (Runs.throughout_iff_prefix.mp hall fs hfs d hd).1
  · have hall := hiff.mpr h
    exact ⟨hall, hall.before.imp fun d e h => before_of_state fun f _ a => h.hands f a⟩

/-- A timer is made and fires. -/
def fireRun : List (Event Timers.Op Timers.Answer) :=
  [.call (.timer 5 true), .code (.created (.fd 4) none), .call .waitForInput, .code .go,
    .code (.ready [some 4]), .code .go, .back]

/-- A socket is made, moved and assigned; the timer fires. -/
theorem parents_iff_moved :
    ∃ c c', Runs.run (step object) (Config.start World.new)
        [.call (.socket 2 1 0 ⟨true, true, true, true, true, true⟩), .code (.opened (.fd 5)),
          .call (.socket 2 1 0 ⟨true, true, true, true, true, true⟩), .code (.opened (.fd 6)),
          .call (.move 0), .code .go, .call (.assign 1 2), .code .go] = some c ∧
      Runs.run (step Timers.object) (Config.start Timers.World.new) fireRun = some c' ∧
      c.state.objects 1 = some (some 0) ∧ callOuts c'.log = [.onTimeout 0] ∧
      c.state.Parented ∧ c'.state.Parented := by
  obtain ⟨c, hr, hobject⟩ : ∃ c, Runs.run (step object) (Config.start World.new)
      [.call (.socket 2 1 0 ⟨true, true, true, true, true, true⟩), .code (.opened (.fd 5)),
        .call (.socket 2 1 0 ⟨true, true, true, true, true, true⟩), .code (.opened (.fd 6)),
        .call (.move 0), .code .go, .call (.assign 1 2), .code .go] = some c ∧
      c.state.objects 1 = some (some 0) := Runs.exists_run (by decide)
  obtain ⟨c', hr', hcalls⟩ : ∃ c, Runs.run (step Timers.object) (Config.start Timers.World.new)
      fireRun = some c ∧ callOuts c.log = [.onTimeout 0] := Runs.exists_run (by decide)
  obtain ⟨⟨hsockets, -⟩, htimers⟩ := parents_iff _ hr'
  obtain ⟨hall, -⟩ := htimers.mpr (by decide)
  exact ⟨c, c', hr, hr', hobject, hcalls,
    Runs.throughout_iff_prefix.mp hsockets _ (List.prefix_refl _) c hr,
    Runs.throughout_iff_prefix.mp hall _ (List.prefix_refl _) c' hr'⟩

/-- A timer is made and moved, the object that it was made for is destroyed, and it fires:
the callback gets the object that is gone. -/
theorem moved_timer :
    ∃ c, Runs.run (step Timers.object) (Config.start Timers.World.new)
        [.call (.timer 5 true), .code (.created (.fd 4) none), .call (.move 0), .code .go,
          .call (.destroy 0), .code .go, .call .waitForInput, .code .go, .code (.ready [some 4]),
          .code .go] = some c ∧
      callOuts c.log = [.onTimeout 0] ∧ c.state.objects 0 = none ∧
      c.state.objects 1 = some (some 0) ∧ ¬ c.state.Parented := by
  obtain ⟨c, hr, hcalls, hgone, hobject, hparent⟩ :
      ∃ c, Runs.run (step Timers.object) (Config.start Timers.World.new)
          [.call (.timer 5 true), .code (.created (.fd 4) none), .call (.move 0), .code .go,
            .call (.destroy 0), .code .go, .call .waitForInput, .code .go, .code (.ready [some 4]),
            .code .go] = some c ∧
        callOuts c.log = [.onTimeout 0] ∧ c.state.objects 0 = none ∧
        c.state.objects 1 = some (some 0) ∧ (c.state.impls 0).map (·.parent) = some 0 :=
    Runs.exists_run (by decide)
  refine ⟨c, hr, hcalls, hgone, hobject, fun h => ?_⟩
  obtain ⟨p, hp, hzero⟩ := Option.map_eq_some_iff.mp hparent
  have howner := (h 0 p hp 1).mp hobject
  rw [hzero] at howner
  cases howner

end Linux
end AcppNetwork
