import AcppNetwork.MacosAccept
import AcppNetwork.MacosFilters

/-!
# The pointers of the macOS backend

The loop goes through the addresses that the filters have as `udata`.  It has those of the
events it has retrieved, and that of the socket it is at, also while callbacks run.

A pimpl is deleted by the destructor, which closes the descriptor first, so that no filter
knows it any more, and by move assignment, which closes nothing; neither looks at the events
under way.  So every address that the kernel and the loop have is that of a pimpl exactly as
long as none is deleted that they have (`pointers_good_iff`).

When an exception leaves `on_accepted`, the destructor of `new_socket` is a call of `destroy`.
-/
namespace AcppNetwork
namespace Macos

open Reentrant
open Linux (Callbacks Callback Send Recv Opened Result CallOut)

/-! ## Pointers that are good -/

/-- The pimpls that an activation has pointers to: that of the socket it is at, and those of
the events it is still to handle. -/
def Frame.pointers : Frame → List Nat
  | .batch events => events.filterMap Ready.pointer?
  | .receive h rest | .afterConnected h rest => h :: rest.filterMap Ready.pointer?
  | .newSocket _ rest => rest.filterMap Ready.pointer?
  | _ => []

/-- No activation has a pointer to the pimpl. -/
def Unheld (fs : List Frame) (h : Nat) : Prop := ∀ f ∈ fs, h ∉ f.pointers

instance (fs : List Frame) (h : Nat) : Decidable (Unheld fs h) := by
  unfold Unheld
  infer_instance

namespace World
variable {w w' : World} {h o : Nat} {p : SocketBasePimpl} {s : Socket} {fs gs : List Frame}
  {rest : List Ready}

/-- What the kernel and the activations have are addresses of pimpls, and none was used that
was not. -/
structure Points (w : World) (fs : List Frame) : Prop where
  kernel : ∀ fd h, w.kernel.Knows fd h → w.pimpls h ≠ none
  frames : ∀ f ∈ fs, ∀ h ∈ f.pointers, w.pimpls h ≠ none
  defined : .undefined ∉ fs

theorem new_points : World.new.Points [] := by
  refine ⟨fun fd h hk => ?_, fun f hf => ?_, List.not_mem_nil⟩
  · rcases hk with hk | hk <;> cases hk
  · cases hf

theorem Points.sub (hp : w.Points fs) (hsub : ∀ g ∈ gs, g ∈ fs) : w.Points gs :=
  ⟨hp.kernel, fun g hg => hp.frames g (hsub g hg), fun hmem => hp.defined (hsub _ hmem)⟩

/-- No pimpl goes, and what filters know that are new is there. -/
structure Keeps (w w' : World) : Prop where
  pimpls : ∀ {h}, w.pimpls h ≠ none → w'.pimpls h ≠ none
  knows : ∀ {fd h}, w'.kernel.Knows fd h → w.kernel.Knows fd h ∨ w'.pimpls h ≠ none

theorem keeps_refl (w : World) : w.Keeps w := ⟨fun h => h, .inl⟩

theorem Keeps.trans {w'' : World} (h : w.Keeps w') (h' : w'.Keeps w'') : w.Keeps w'' := by
  refine ⟨fun hx => h'.pimpls (h.pimpls hx), fun hk => ?_⟩
  rcases h'.knows hk with hk | hx
  · exact (h.knows hk).imp_right h'.pimpls
  · exact .inr hx

theorem Points.keeps (hp : w.Points fs) (hw : w.Keeps w') : w'.Points fs := by
  refine ⟨fun fd h hk => ?_, fun f hf h hh => hw.pimpls (hp.frames f hf h hh), hp.defined⟩
  rcases hw.knows hk with hk | hsome
  · exact hw.pimpls (hp.kernel fd h hk)
  · exact hsome

/-- An activation goes on at a frame that has nothing new. -/
theorem Points.goto {f g : Frame} (hp : w.Points (f :: fs))
    (hsub : ∀ h ∈ g.pointers, h ∈ f.pointers)
    (hg : g ≠ .undefined) : w.Points (g :: fs) := by
  refine ⟨hp.kernel, fun g' hg' h hh => ?_, fun hmem => ?_⟩
  · rcases List.mem_cons.mp hg' with rfl | hg'
    · exact hp.frames f (List.mem_cons_self ..) h (hsub h hh)
    · exact hp.frames g' (List.mem_cons_of_mem _ hg') h hh
  · rcases List.mem_cons.mp hmem with heq | hmem
    · exact hg heq.symm
    · exact hp.defined (List.mem_cons_of_mem _ hmem)

theorem update_ne_none {x : Nat} (h : w.pimpls x ≠ none) (y : Nat) (q : SocketBasePimpl) :
    Function.update w.pimpls y (some q) x ≠ none := by
  rw [Function.update_apply]
  split
  · exact Option.some_ne_none _
  · exact h

theorem keeps_put (hp : w.pimpls h = some p) (ha : Socket.Arms ⟨h, w.kernel, p⟩ s) :
    w.Keeps (w.put s) := by
  obtain rfl : s.this = h := ha.this
  refine ⟨fun hx => update_ne_none hx _ _, fun hk => (ha.knows hk).imp_right ?_⟩
  rintro ⟨rfl, -⟩
  show Function.update w.pimpls s.this _ s.this ≠ none
  rw [Function.update_self]
  exact Option.some_ne_none _

theorem keeps_construct (w : World) (domain type protocol fd : Int) (callbacks : Callbacks)
    (refused : Option Nat) : w.Keeps (w.construct domain type protocol fd callbacks refused).1 := by
  obtain ⟨e, heq⟩ | ⟨-, heq⟩ := construct_cases w domain type protocol fd callbacks refused
  · rw [heq]
    exact ⟨fun h => h, .inl⟩
  · rw [heq]
    refine ⟨fun hx => update_ne_none hx _ _, fun hk => (Kernel.knows_addRead hk).imp_right ?_⟩
    rintro ⟨rfl, -⟩
    show Function.update w.pimpls w.fresh _ w.fresh ≠ none
    rw [Function.update_self]
    exact Option.some_ne_none _

theorem keeps_closeAt (w : World) (h : Nat) : w.Keeps (w.closeAt h) := by
  obtain ⟨heq, -⟩ | ⟨p, -, -, heq⟩ := closeAt_cases w h
  · rw [heq]
    exact keeps_refl w
  · rw [heq]
    exact ⟨fun hx => update_ne_none hx _ _, fun hk => .inl (Kernel.knows_close hk).1⟩

theorem keeps_own (hown : w.own o h = some w') : w.Keeps w' := by
  obtain ⟨p, -, rfl⟩ := own_some hown
  exact ⟨fun hx => update_ne_none hx _ _, .inl⟩

theorem keeps_elsewhere {e : Elsewhere} (he : w.elsewhere e = some w') : w.Keeps w' := by
  cases e with
  | connects fd =>
    simp only [elsewhere] at he
    split at he <;> cases he
    exact ⟨fun h => h, fun hk => .inl
      ((Kernel.knows_activate (k := w.kernel.setBacklog fd _) .read).mp hk)⟩
  | activates filter fd =>
    cases filter with
    | read =>
      simp only [elsewhere] at he
      split at he <;> cases he
      exact ⟨fun h => h, fun hk => .inl ((Kernel.knows_activate .read).mp hk)⟩
    | write =>
      cases he
      exact ⟨fun h => h, fun hk => .inl ((Kernel.knows_activate .write).mp hk)⟩

/-- What `kevent` retrieves are addresses that the kernel knows. -/
theorem Points.kevent (hp : w.Points (.loop :: fs)) {events : List (Option (Filter × Int))}
    {ready : List Ready} (hk : w.kevent events = some (w', ready)) :
    w'.Points (.batch ready :: fs) := by
  unfold World.kevent at hk
  split at hk
  · obtain ⟨⟨k, r⟩, hret, heq⟩ := Option.map_eq_some_iff.mp hk
    cases heq
    obtain ⟨hless, hpointers⟩ := Kernel.knows_retrieveAll hret
    refine ⟨fun fd h hknows => hp.kernel fd h (hless fd h hknows), fun f hf h hh => ?_,
      fun hmem => ?_⟩
    · rcases List.mem_cons.mp hf with rfl | hf
      · obtain ⟨fd, hknows⟩ := hpointers h hh
        exact hp.kernel fd h hknows
      · exact hp.frames f (List.mem_cons_of_mem _ hf) h hh
    · rcases List.mem_cons.mp hmem with heq | hmem
      · cases heq
      · exact hp.defined (List.mem_cons_of_mem _ hmem)
  · cases hk

/-! ### Deleting a pimpl -/

/-- The kernel has the address of the pimpl. -/
def Registered (w : World) (h : Nat) : Prop := ∃ p, w.pimpls h = some p ∧ w.kernel.Knows p.fd h

instance (w : World) (h : Nat) : Decidable (w.Registered h) :=
  decidable_of_iff (((w.pimpls h).any fun p => decide (w.kernel.Knows p.fd h)) = true) (by
    unfold Registered
    rw [Option.any_eq_true]
    simp only [decide_eq_true_eq])

/-- No pimpl is deleted that an activation has a pointer to, or, without being closed, that
the kernel knows. -/
def Spares (w : World) (f : Frame) (fs : List Frame) (a : Answer) : Prop :=
  match f, a with
  | .api (.api (.destroy o)), .go => ∀ h ∈ (w.objects o).join, Unheld fs h
  | .newSocket o rest, .go => ∀ h ∈ (w.objects o).join, Unheld (.batch rest :: fs) h
  | .api (.api (.assign o other)), .go =>
      o = other ∨ ∀ h ∈ (w.objects o).join, Unheld fs h ∧ ¬ w.Registered h
  | _, _ => True

instance (w : World) (f : Frame) (fs : List Frame) (a : Answer) :
    Decidable (w.Spares f fs a) := by
  unfold Spares
  split <;> infer_instance

theorem Points.unheld (hp : w.Points fs) (hnone : w.pimpls h = none) : Unheld fs h :=
  fun f hf hmem => hp.frames f hf h hmem hnone

/-- A pimpl goes that nothing has a pointer to. -/
theorem Points.delete (hp : w.Points fs) (hknows : ∀ fd, ¬ w.kernel.Knows fd h)
    (hfs : Unheld fs h) : (w.delete h).Points fs := by
  have other : ∀ {x}, w.pimpls x ≠ none → x ≠ h → (w.delete h).pimpls x ≠ none := by
    intro x hx hne
    show Function.update w.pimpls h none x ≠ none
    rw [Function.update_of_ne hne]
    exact hx
  refine ⟨fun fd x hk => other (hp.kernel fd x hk) ?_,
    fun f hf x hx => other (hp.frames f hf x hx) ?_, hp.defined⟩
  · rintro rfl
    exact hknows fd hk
  · rintro rfl
    exact hfs f hf hx

/-- The destructor leaves no bad pointer exactly if no activation has one to the pimpl. -/
theorem Points.destruct_iff (hp : w.Points fs) (ht : w.Tied) (h : w.destruct o = some w') :
    w'.Points fs ↔ ∀ x ∈ (w.objects o).join, Unheld fs x := by
  obtain ⟨pimpl, hobj, rfl⟩ := Option.map_eq_some_iff.mp h
  rw [hobj]
  cases pimpl with
  | none => exact iff_of_true ⟨hp.kernel, hp.frames, hp.defined⟩ fun x hx => nomatch hx
  | some x =>
    have hjoin : ∀ y ∈ (some (some x)).join, y = x := fun y hy => (Option.some.inj hy).symm
    constructor
    · intro hp' y hy
      obtain rfl := hjoin y hy
      refine hp'.unheld ?_
      exact Function.update_self ..
    · intro hfree
      have hclosed : ∀ fd, ¬ (w.closeAt x).kernel.Knows fd x := by
        intro fd hk
        have hcases : ¬ (w.closeAt x).kernel.Knows fd x ∨ w.pimpls x = none := ht.closed x
        rcases hcases with hno | hnone
        · exact hno hk
        · refine hp.kernel fd x ?_ hnone
          obtain ⟨heq, -⟩ | ⟨p, hpx, -⟩ := closeAt_cases w x
          · rwa [heq] at hk
          · rw [hnone] at hpx
            cases hpx
      have hdeleted := (hp.keeps (keeps_closeAt w x)).delete hclosed (hfree x rfl)
      exact ⟨hdeleted.kernel, hdeleted.frames, hdeleted.defined⟩

/-- Move assignment leaves none exactly if, besides, the kernel does not know it. -/
theorem Points.assign_iff (hp : w.Points fs) (ht : w.Tied) {other : Nat}
    (h : w.assign o other = some w') :
    w'.Points fs ↔ o = other ∨ ∀ x ∈ (w.objects o).join, Unheld fs x ∧ ¬ w.Registered x := by
  obtain ⟨s, pimpl, hs, hobj, hown⟩ := assign_some h
  have hrelease : (w.release other).Points fs := ⟨hp.kernel, hp.frames, hp.defined⟩
  by_cases heq : o = other
  · subst heq
    change Function.update w.objects o (some none) o = some pimpl at hobj
    rw [Function.update_self] at hobj
    obtain rfl := Option.some.inj hobj
    exact iff_of_true (hrelease.keeps (keeps_own hown)) (.inl rfl)
  · change Function.update w.objects other (some none) o = some pimpl at hobj
    rw [Function.update_of_ne heq] at hobj
    rw [hobj]
    cases pimpl with
    | none =>
      exact iff_of_true (hrelease.keeps (keeps_own hown)) (.inr fun x hx => nomatch hx)
    | some x =>
      constructor
      · intro hp'
        refine .inr fun y hy => ?_
        obtain rfl : x = y := Option.some.inj hy
        obtain ⟨q, hq, rfl⟩ := own_some hown
        have hne : s.this ≠ x := by
          rintro rfl
          change Function.update w.pimpls s.this none s.this = some q at hq
          rw [Function.update_self] at hq
          cases hq
        have hgone : Function.update (Function.update w.pimpls x none) s.this
            (some { q with parent := o }) x = none := by
          rw [Function.update_of_ne hne.symm, Function.update_self]
        refine ⟨hp'.unheld hgone, ?_⟩
        rintro ⟨p, -, hk⟩
        exact hp'.kernel p.fd x hk hgone
      · intro hspares
        obtain ⟨hfree, hunregistered⟩ := (hspares.resolve_left heq) x rfl
        have hknows : ∀ fd, ¬ w.kernel.Knows fd x := by
          intro fd hk
          obtain ⟨p, hpx⟩ := Option.ne_none_iff_exists'.mp (hp.kernel fd x hk)
          refine hunregistered ⟨p, hpx, ?_⟩
          rwa [ht.own hk hpx]
        exact (hrelease.delete hknows hfree).keeps (keeps_own hown)

/-! ### The accept branch -/

/-- A connection is accepted: the constructor throws; or the new socket asks for its events
once more and is handed to `on_accepted`, or destroyed if that throws. -/
theorem accepted_cases (w : World) (s : Socket) (rest : List Ready) (refused again : Option Nat)
    (n : Nat) :
    (∃ w', w.construct s.pimpl.domain s.pimpl.type s.pimpl.protocol n noCallbacks refused =
        (w', false) ∧ w.accepted s rest refused again n = .throw w' []) ∨
    ∃ w' p new, w.construct s.pimpl.domain s.pimpl.type s.pimpl.protocol n noCallbacks refused =
        (w', true) ∧ w'.pimpls w.fresh = some p ∧ w'.objects w.fresh = some (some w.fresh) ∧
      Socket.Arms ⟨w.fresh, w'.kernel, p⟩ new ∧
      (w.accepted s rest refused again n = .callOut (w'.put new) (.newSocket w.fresh rest)
          (.callback s.pimpl.parent (.onAccepted w.fresh)) [] ∨
        w.accepted s rest refused again n = .throw ((w'.put new).destroy w.fresh w.fresh) []) := by
  unfold accepted
  obtain ⟨e, heq⟩ | ⟨-, heq⟩ := construct_cases w s.pimpl.domain s.pimpl.type s.pimpl.protocol n
    noCallbacks refused
  · rw [heq]
    exact .inl ⟨_, rfl, rfl⟩
  · rw [heq]
    dsimp only
    have harms := Socket.arms_askReadEvent ⟨w.fresh, w.kernel.addRead n w.fresh,
      .new s.pimpl.domain s.pimpl.type s.pimpl.protocol n noCallbacks w.fresh⟩ again
    split
    · rename_i new hask
      rw [hask] at harms
      exact .inr ⟨_, _, { new with pimpl := { new.pimpl with connected := true } }, rfl,
        Function.update_self .., Function.update_self ..,
        harms.trans ⟨rfl, rfl, rfl, rfl, .inl⟩, .inl rfl⟩
    · rename_i new hask
      rw [hask] at harms
      exact .inr ⟨_, _, new, rfl, Function.update_self .., Function.update_self .., harms, .inr rfl⟩

theorem destruct_put {v : World} {x : Nat} (hobj : v.objects x = some (some x)) (s : Socket) :
    (v.put s).destruct x = some ((v.put s).destroy x x) := by
  unfold destruct
  show (v.objects x).map _ = _
  rw [hobj]
  rfl

theorem Tied.accepted (ht : w.Tied) (s : Socket) (rest : List Ready) (refused again : Option Nat)
    (n : Nat) : (w.accepted s rest refused again n).state.Tied := by
  have hmade := ht.construct s.pimpl.domain s.pimpl.type s.pimpl.protocol n noCallbacks refused
  obtain ⟨w', hc, heq⟩ | ⟨w', p, new, hc, hp, hobj, harms, heq | heq⟩ :=
    accepted_cases w s rest refused again n
  all_goals
    rw [heq]
    rw [hc] at hmade
  · exact hmade
  · exact hmade.put hp harms
  · exact (hmade.put hp harms).destruct (destruct_put hobj new)

theorem Points.accepted {filter : Filter}
    (hp : w.Points (.batch (.socket filter h :: rest) :: fs)) (ht : w.Tied)
    (s : Socket) (refused again : Option Nat) (n : Nat) :
    (w.accepted s rest refused again n).state.Points
      ((w.accepted s rest refused again n).frames ++ fs) := by
  have hfs : w.Points fs := hp.sub fun g => List.mem_cons_of_mem _
  have hkeeps := keeps_construct w s.pimpl.domain s.pimpl.type s.pimpl.protocol n noCallbacks
    refused
  have hmade := ht.construct s.pimpl.domain s.pimpl.type s.pimpl.protocol n noCallbacks refused
  obtain ⟨w', hc, heq⟩ | ⟨w', p, new, hc, hpimpl, hobj, harms, heq | heq⟩ :=
    accepted_cases w s rest refused again n
  all_goals
    rw [heq]
    rw [hc] at hkeeps hmade
  · exact hfs.keeps hkeeps
  · have hput := hp.keeps (hkeeps.trans (keeps_put hpimpl harms))
    refine hput.goto (fun x hx => ?_) (fun h => by cases h)
    exact List.mem_cons_of_mem _ hx
  · -- nothing has a pointer to the new socket yet
    have hput := hfs.keeps (hkeeps.trans (keeps_put hpimpl harms))
    refine (hput.destruct_iff (hmade.put hpimpl harms) (destruct_put hobj new)).mpr fun x hx => ?_
    have hjoin : (w'.objects w.fresh).join = some x := hx
    rw [hobj] at hjoin
    obtain rfl : w.fresh = x := Option.some.inj hjoin
    exact hfs.unheld (ht.beyond w.fresh (Nat.le_refl _)).1

theorem Tied.acceptBranch (ht : w.Tied) (hp : w.pimpls h = some p) (rest : List Ready)
    (refused again : Option Nat) (a : Opened) :
    (w.acceptBranch ⟨h, w.kernel, p⟩ rest refused again a).state.Tied := by
  have htaken := ht.put hp (Socket.arms_taken ⟨h, w.kernel, p⟩ a)
  cases a with
  | failed e =>
    rw [World.acceptBranch, callThen_state]
    exact htaken.setErrno e
  | fd n =>
    unfold World.acceptBranch
    dsimp only
    split
    · exact (htaken.openFd n).accepted ..
    · exact htaken.openFd n

theorem Points.acceptBranch (hpoints : w.Points (.batch (.socket .read h :: rest) :: fs))
    (ht : w.Tied) (hp : w.pimpls h = some p) (refused again : Option Nat) (a : Opened) :
    (w.acceptBranch ⟨h, w.kernel, p⟩ rest refused again a).state.Points
      ((w.acceptBranch ⟨h, w.kernel, p⟩ rest refused again a).frames ++ fs) := by
  have harms := Socket.arms_taken ⟨h, w.kernel, p⟩ a
  have hsub : ∀ x ∈ (Frame.batch rest).pointers,
      x ∈ (Frame.batch (.socket .read h :: rest)).pointers := fun x hx => List.mem_cons_of_mem _ hx
  cases a with
  | failed e =>
    rw [World.acceptBranch, callThen_state, callThen_frames]
    have hput := hpoints.keeps (keeps_put hp (harms.trans (Socket.arms_setErrno _ e)))
    exact hput.goto hsub (fun h => by cases h)
  | fd n =>
    have hput : (w.put (Socket.taken ⟨h, w.kernel, p⟩ (.fd n))).Points _ :=
      hpoints.keeps (keeps_put hp harms)
    have hopened : ((w.put (Socket.taken ⟨h, w.kernel, p⟩ (.fd n))).openFd n).Points _ :=
      hput.keeps ⟨fun h => h, .inl⟩
    unfold World.acceptBranch
    dsimp only
    split
    · exact hopened.accepted ((ht.put hp harms).openFd n) ..
    · exact hopened.goto hsub (fun h => by cases h)

/-! ### Stretches -/

@[simp] theorem constructed_frames (o : Nat) (r : World × Bool) :
    (constructed o r).frames = [] := by
  obtain ⟨w', made⟩ := r
  cases made <;> rfl

/-- What an operation of the socket `s` comes to: it leaves the socket as `Arms` says, and goes
on at frames of the list, if at all. -/
def Operates (w : World) (s : Socket) (gs : List Frame) (out : Next) : Prop :=
  ∃ s', s.Arms s' ∧ out.state = w.put s' ∧ out.frames ⊆ gs

theorem operates_callThen {s' : Socket} {f : Frame} (ha : s.Arms s') (cb : Option Callback) :
    w.Operates s [f] (w.callThen s' f cb) :=
  ⟨s', ha, callThen_state .., by rw [callThen_frames]; exact List.Subset.refl _⟩

theorem operates_connect (w : World) (s : Socket) (refused error : Option Nat) :
    w.Operates s [] (w.connect s refused error) := by
  have hask := Socket.arms_askWriteEvent s refused
  unfold connect
  split
  · rename_i s' hasked
    rw [hasked] at hask
    exact ⟨_, hask.trans (Socket.arms_connect s' error), rfl, List.nil_subset _⟩
  · rename_i s' hasked
    rw [hasked] at hask
    exact ⟨s', hask, rfl, List.nil_subset _⟩

theorem operates_listen (w : World) (s : Socket) (refused error : Option Nat) :
    w.Operates s [] (w.listen s refused error) := by
  have hask := Socket.arms_askReadEvent s refused
  unfold listen
  split
  · rename_i s' hasked
    rw [hasked] at hask
    exact ⟨_, hask.trans (Socket.arms_listen s' error), rfl, List.nil_subset _⟩
  · rename_i s' hasked
    rw [hasked] at hask
    exact ⟨s', hask, rfl, List.nil_subset _⟩

theorem operates_write {written : Socket.Written} (ha : s.Arms written.socket) :
    ∃ r, w.Operates s [.done r] (w.write written) := by
  unfold write
  split
  · rename_i n hn
    exact ⟨.size n, operates_callThen ha _⟩
  · exact ⟨.void, _, ha, rfl, List.nil_subset _⟩

theorem operates_received (hp : w.pimpls h = some p) (rest : List Ready) (a : Recv) :
    w.Operates ⟨h, w.kernel, p⟩ [.batch rest, .receive h rest]
      (w.received ⟨h, w.kernel, p⟩ rest a) := by
  have widen : ∀ {g : Frame} {out : Next}, w.Operates ⟨h, w.kernel, p⟩ [g] out →
      g ∈ [Frame.batch rest, .receive h rest] →
      w.Operates ⟨h, w.kernel, p⟩ [.batch rest, .receive h rest] out := by
    rintro g out ⟨s', ha, hstate, hframes⟩ hg
    refine ⟨s', ha, hstate, fun x hx => ?_⟩
    rw [List.mem_singleton.mp (hframes hx)]
    exact hg
  unfold received
  split
  · split
    · exact widen (operates_callThen (Socket.arms_refl _) _) (by simp)
    · refine ⟨_, Socket.arms_refl _, ?_, List.nil_subset _⟩
      show w = { w with pimpls := Function.update w.pimpls h (some p) }
      rw [← hp, Function.update_eq_self]
  · exact widen (operates_callThen (Socket.arms_refl _) _) (by simp)
  · exact widen (operates_callThen (Socket.arms_setErrno ..) _) (by simp)

/-- An operation of a socket of the context: it is a pimpl that exists. -/
theorem Tied.operates (ht : w.Tied) (hp : w.pimpls h = some p) {gs : List Frame} {out : Next}
    (ho : w.Operates ⟨h, w.kernel, p⟩ gs out) : out.state.Tied := by
  obtain ⟨s', ha, hstate, -⟩ := ho
  rw [hstate]
  exact ht.put hp ha

theorem Points.operates {f : Frame} (hpoints : w.Points (f :: fs)) (hp : w.pimpls h = some p)
    {gs : List Frame} {out : Next} (ho : w.Operates ⟨h, w.kernel, p⟩ gs out)
    (hgs : ∀ g ∈ gs, (∀ x ∈ g.pointers, x ∈ f.pointers) ∧ g ≠ .undefined) :
    out.state.Points (out.frames ++ fs) := by
  obtain ⟨s', ha, hstate, hframes⟩ := ho
  rw [hstate]
  have hput := hpoints.keeps (keeps_put hp ha)
  refine ⟨hput.kernel, fun g hg x hx => ?_, fun hmem => ?_⟩
  · rcases List.mem_append.mp hg with hg | hg
    · exact hput.frames f (List.mem_cons_self ..) x ((hgs g (hframes hg)).1 x hx)
    · exact hput.frames g (List.mem_cons_of_mem _ hg) x hx
  · rcases List.mem_append.mp hmem with hmem | hmem
    · exact (hgs _ (hframes hmem)).2 rfl
    · exact hput.defined (List.mem_cons_of_mem _ hmem)

variable {f : Frame} {a : Answer} {out : Next}

/-- **Every stretch of code keeps the descriptors, the filters and the pimpls together.** -/
theorem Tied.stretch (ht : w.Tied) (hs : Stretch w f a out) : out.state.Tied := by
  cases hs with
  | @socket domain type protocol callbacks a refused hopens =>
    rw [constructed_state]
    cases a with
    | fd n => exact (ht.openFd n).construct ..
    | failed e => exact (ht.setErrno e).construct ..
  | adopt =>
    rw [constructed_state]
    exact ht.construct ..
  | @move other s w' hs hown =>
    have hrelease := ht.release (ht.lt_of_owned hs)
    have hnext : Tied { w.release other with fresh := w.fresh + 1 } :=
      ⟨hrelease.sane, hrelease.opened, fun hk => Nat.lt_succ_of_lt (hrelease.issued hk),
        hrelease.own, fun x hx => hrelease.beyond x (Nat.le_of_succ_le hx)⟩
    exact hnext.own' hown (Nat.lt_succ_self _)
  | @assign o other w' hassign =>
    obtain ⟨s, pimpl, hs, hobj, hown⟩ := assign_some hassign
    have hrelease := ht.release (ht.lt_of_owned hs)
    have ho : o < w.fresh := by
      by_contra hle
      rw [(hrelease.beyond o (Nat.not_lt.mp hle)).2] at hobj
      cases hobj
    refine (hrelease.reset pimpl).own' hown ?_
    cases pimpl <;> exact ho
  | destroy hdestruct | newSocket hdestruct => exact ht.destruct hdestruct
  | close hclose =>
    obtain ⟨pimpl, -, rfl⟩ := Option.map_eq_some_iff.mp hclose
    cases pimpl with
    | none => exact ht
    | some x => exact ht.closeAt x
  | connect hs =>
    obtain ⟨x, p, -, hp, rfl⟩ := exists_of_owned hs
    exact ht.operates hp (operates_connect ..)
  | listen hs =>
    obtain ⟨x, p, -, hp, rfl⟩ := exists_of_owned hs
    exact ht.operates hp (operates_listen ..)
  | write hs hwrite =>
    obtain ⟨x, p, -, hp, rfl⟩ := exists_of_owned hs
    obtain ⟨r, ho⟩ := operates_write (w := w) (Socket.arms_soWrite hwrite)
    exact ht.operates hp ho
  | callbacks hs =>
    obtain ⟨x, p, -, hp, rfl⟩ := exists_of_owned hs
    exact ht.put hp ⟨rfl, rfl, rfl, rfl, .inl⟩
  | otherCall => exact ht.setErrno _
  | otherOpen => exact (ht.openFd _).setErrno _
  | elsewhereCalled he | elsewhere he => exact ht.elsewhere he
  | kevent hrun hk => exact ht.kevent hk
  | waitFailed => exact ht.setErrno _
  | accept hp => exact ht.acceptBranch hp ..
  | sent hp => exact ht.operates hp (operates_callThen (Socket.arms_refl _) _)
  | connected hp hconnected hget | notConnected hp hconnected hget =>
    exact ht.operates hp (operates_callThen (Socket.arms_getsockopt hget) _)
  | received hp ha => exact ht.operates hp (operates_received hp ..)
  | @asked h rest p refused s hp hask | @askFailed h rest p refused s hp hask =>
    have harms := Socket.arms_askReadEvent ⟨h, w.kernel, p⟩ refused
    rw [hask] at harms
    exact ht.put hp harms
  | waitForInput | stop => exact ⟨ht.sane, ht.opened, ht.issued, ht.own, ht.beyond⟩
  | _ => exact ht

/-- **A stretch of code leaves no bad pointer exactly if it spares the pimpls** that the kernel
and the activations know. -/
theorem Points.stretch_iff (hp : w.Points (f :: fs)) (ht : w.Tied) (hs : Stretch w f a out) :
    out.state.Points (out.frames ++ fs) ↔ w.Spares f fs a := by
  have hfs : w.Points fs := hp.sub fun g => List.mem_cons_of_mem _
  cases hs with
  | waitForInput =>
    have hrun : World.Points { w with run := true } (_ :: fs) := ⟨hp.kernel, hp.frames, hp.defined⟩
    exact iff_of_true (hrun.goto (fun x hx => by cases hx) (by simp)) trivial
  | stop => exact iff_of_true ⟨hfs.kernel, hfs.frames, hfs.defined⟩ trivial
  | @socket domain type protocol callbacks a refused hopens =>
    rw [constructed_state, constructed_frames]
    refine iff_of_true ?_ trivial
    cases a with
    | fd n =>
      have hopened : (w.openFd n).Points fs := hfs.keeps ⟨fun h => h, .inl⟩
      exact hopened.keeps (keeps_construct ..)
    | failed e =>
      have herrno : (w.setErrno e).Points fs := hfs.keeps ⟨fun h => h, .inl⟩
      exact herrno.keeps (keeps_construct ..)
  | adopt =>
    rw [constructed_state, constructed_frames]
    exact iff_of_true (hfs.keeps (keeps_construct ..)) trivial
  | @move other s w' hs hown =>
    have hnext : World.Points { w.release other with fresh := w.fresh + 1 } fs :=
      ⟨hfs.kernel, hfs.frames, hfs.defined⟩
    exact iff_of_true (hnext.keeps (keeps_own hown)) trivial
  | assign hassign => exact hfs.assign_iff ht hassign
  | destroy hdestruct => exact hfs.destruct_iff ht hdestruct
  | close hclose =>
    obtain ⟨pimpl, -, rfl⟩ := Option.map_eq_some_iff.mp hclose
    refine iff_of_true ?_ trivial
    cases pimpl with
    | none => exact hfs
    | some x => exact hfs.keeps (keeps_closeAt w x)
  | connect hs =>
    obtain ⟨x, p, -, hpimpl, rfl⟩ := exists_of_owned hs
    exact iff_of_true (hp.operates hpimpl (operates_connect ..) (by simp)) trivial
  | listen hs =>
    obtain ⟨x, p, -, hpimpl, rfl⟩ := exists_of_owned hs
    exact iff_of_true (hp.operates hpimpl (operates_listen ..) (by simp)) trivial
  | write hs hwrite =>
    obtain ⟨x, p, -, hpimpl, rfl⟩ := exists_of_owned hs
    obtain ⟨r, ho⟩ := operates_write (w := w) (Socket.arms_soWrite hwrite)
    exact iff_of_true (hp.operates hpimpl ho (by simp [Frame.pointers])) trivial
  | callbacks hs =>
    obtain ⟨x, p, -, hpimpl, rfl⟩ := exists_of_owned hs
    exact iff_of_true (hfs.keeps (keeps_put hpimpl ⟨rfl, rfl, rfl, rfl, .inl⟩)) trivial
  | otherCall | otherOpen => exact iff_of_true (hfs.keeps ⟨fun h => h, .inl⟩) trivial
  | elsewhereCalled he => exact iff_of_true (hfs.keeps (keeps_elsewhere he)) trivial
  | elsewhere he =>
    refine iff_of_true (hp.keeps (keeps_elsewhere he)) ?_
    unfold Spares
    split <;> trivial
  | kevent hrun hk => exact iff_of_true (hp.kevent hk) trivial
  | waitFailed => exact iff_of_true (hfs.keeps ⟨fun h => h, .inl⟩) trivial
  | stopped | done => exact iff_of_true hfs trivial
  | batchEnd => exact iff_of_true (hp.goto (fun x hx => by cases hx) (by simp)) trivial
  | other => exact iff_of_true (hp.goto (fun x hx => hx) (by simp)) trivial
  | gone hnone | dangling hnone | askGone hnone =>
    -- there is a pimpl at the address of the event
    exact absurd hnone (hp.frames _ (List.mem_cons_self ..) _ (List.mem_cons_self ..))
  | accept hpimpl => exact iff_of_true (hp.acceptBranch ht hpimpl ..) trivial
  | @read h rest p hpimpl hlistening =>
    refine iff_of_true ?_ trivial
    show w.Points (p.reading h rest :: fs)
    unfold SocketBasePimpl.reading
    split
    · exact hp.goto (fun x hx => hx) (by simp)
    · exact hp.goto (fun x hx => List.mem_cons_of_mem _ hx) (by simp)
  | sent hpimpl =>
    exact iff_of_true (hp.operates hpimpl (operates_callThen (Socket.arms_refl _) _)
      (by simp +contextual [Frame.pointers, Ready.pointer?])) trivial
  | connected hpimpl hconnected hget | notConnected hpimpl hconnected hget =>
    exact iff_of_true (hp.operates hpimpl (operates_callThen (Socket.arms_getsockopt hget) _)
      (by simp +contextual [Frame.pointers, Ready.pointer?])) trivial
  | received hpimpl ha =>
    exact iff_of_true (hp.operates hpimpl (operates_received hpimpl ..)
      (by simp +contextual [Frame.pointers])) trivial
  | @asked h rest p refused s hpimpl hask =>
    have harms := Socket.arms_askReadEvent ⟨h, w.kernel, p⟩ refused
    rw [hask] at harms
    exact iff_of_true ((hp.keeps (keeps_put hpimpl harms)).goto
      (fun x hx => List.mem_cons_of_mem _ hx) (by simp)) trivial
  | @askFailed h rest p refused s hpimpl hask =>
    have harms := Socket.arms_askReadEvent ⟨h, w.kernel, p⟩ refused
    rw [hask] at harms
    exact iff_of_true (hfs.keeps (keeps_put hpimpl harms)) trivial
  | @newSocket o rest w' hdestruct =>
    have hbatch : w.Points (.batch rest :: fs) := hp.goto (fun x hx => hx) (by simp)
    exact hbatch.destruct_iff ht hdestruct

/-- Nothing that throws deletes a pimpl that was there before. -/
theorem spares_of_throws (hs : Stretch w f a out) (hthrows : out.throws = true) :
    w.Spares f fs a := by
  cases hs with
  | assign | destroy | newSocket => cases hthrows
  | elsewhere => cases hthrows
  | _ => trivial

end World

/-- After every step: what the kernel and the loop have are pimpls. -/
theorem points_step_iff {c c' : Configuration} {e : Event Op Answer} (ht : c.state.Tied)
    (hp : c.state.Points (frames c.stack)) (hstep : Step object c e c') :
    c'.state.Points (frames c'.stack) ↔ Before World.Spares c e := by
  rcases hstep.stretch with ⟨o, rfl, -, rfl⟩ |
    ⟨f, rest, a, out, kept, hstack, ha, hres, hstate, hsuffix, hkept, hframes, -⟩ |
    ⟨rfl, hstate, hframes, -⟩
  · refine iff_of_true ?_ trivial
    refine ⟨hp.kernel, fun f hf x hx => ?_, fun hmem => ?_⟩
    · rcases List.mem_cons.mp hf with rfl | hf
      · cases hx
      · exact hp.frames f hf x hx
    · rcases List.mem_cons.mp hmem with heq | hmem
      · cases heq
      · exact hp.defined hmem
  · rw [hstack, frames_code] at hp
    have hs := stretch_of_resume hres
    have hiff := hp.stretch_iff ht hs
    simp only [Before, ha, hstack]
    rw [hstate, hframes]
    cases hthrows : out.throws with
    | false =>
      rw [hkept hthrows]
      exact hiff
    | true =>
      have hspares : c.state.Spares f (frames rest) a := World.spares_of_throws hs hthrows
      refine iff_of_true ((hiff.mpr hspares).sub fun g hg => ?_) hspares
      rcases List.mem_append.mp hg with hg | hg
      · exact List.mem_append_left _ hg
      · exact List.mem_append_right _ (hsuffix.subset hg)
  · rw [hstate, hframes]
    exact iff_of_true hp (by simp [Before, Event.answer?])

/-- **When all pointers are good.**  Throughout a run the kernel and the loop have addresses of
pimpls only, and go through no other, exactly if no step deletes a pimpl that an activation has
a pointer to, or by move assignment one that the kernel knows. -/
theorem pointers_good_iff {es : List (Event Op Answer)} {c : Configuration}
    (hr : Runs.run (step object) (Config.start World.new) es = some c) :
    Runs.Throughout (step object) (fun c => c.state.Points (frames c.stack))
        (Config.start World.new) es ↔
      Runs.Along (step object) (Before World.Spares) (Config.start World.new) es := by
  refine Runs.throughout_iff_along (J := fun c => c.state.Tied) (fun c e c' ht hstep => ?_)
    (fun c e c' ht hp hstep => ?_) World.new_tied World.new_points hr
  · exact (Step.of_step hstep).preserves_always ht (fun _ => ht) fun hres =>
      ht.stretch (stretch_of_resume hres)
  · have hiff := points_step_iff ht hp (Step.of_step hstep)
    exact ⟨hiff.mp, hiff.mpr⟩

/-- Two sockets that connect are reported together; the callback of the first does `op` and
returns. -/
def twoConnected (op : Linux.Op) (rest : List (Event Op Answer)) : List (Event Op Answer) :=
  [.call (.api (.socket 2 1 0 ⟨true, false, false, false, false, false⟩)),
    .code (.opened (.fd 3) none), .call (.api (.connect 0)), .code (.call none (some EINPROGRESS)),
    .call (.api (.socket 2 1 0 noCallbacks)), .code (.opened (.fd 4) none),
    .call (.api (.connect 1)), .code (.call none (some EINPROGRESS)),
    .call (.elsewhere (.activates .write 3)), .code .go,
    .call (.elsewhere (.activates .write 4)), .code .go,
    .call (.api .waitForInput), .code .go, .code (.ready [some (.write, 3), some (.write, 4)]),
    .code (.wake 0), .call (.api op), .code .go, .back, .code (.ask none)] ++ rest

/-- The callback closes the other socket, which is destroyed when the loop is done. -/
theorem pointers_good_closed :
    Runs.Throughout (step object) (fun c => c.state.Points (frames c.stack))
      (Config.start World.new) (twoConnected (.close 1) [.code (.wake 0), .unwind (.ask none) 0,
        .call (.api (.destroy 1)), .code .go]) := by
  obtain ⟨c, hr, -⟩ : ∃ c, Runs.run (step object) (Config.start World.new)
      (twoConnected (.close 1) [.code (.wake 0), .unwind (.ask none) 0,
        .call (.api (.destroy 1)), .code .go]) = some c ∧ c.stack = [] :=
    Runs.exists_run (by decide)
  exact (pointers_good_iff hr).mpr (by decide)

/-- It destroys the other one: the loop goes through a pointer to nothing. -/
theorem pointer_dangles : ∃ c, Runs.run (step object) (Config.start World.new)
    (twoConnected (.destroy 1) [.code .go]) = some c ∧
      c.stack.head? = some (.code .undefined) :=
  Runs.exists_run (by decide)

end Macos
end AcppNetwork
