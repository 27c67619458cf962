import AcppNetwork.LinuxDispatch
import AcppNetwork.Custody

/-!
# Who closes a descriptor

A descriptor comes from `::socket`, from `::accept`, or from the program that lets a
socket adopt it, and the pimpl it is given to closes it, in `close` or in its
destructor.  The books of `Custody` are kept beside a run: the pimpls are the keepers,
and the code says what each stretch of it obtains and closes (`World.entries`).

They are exact, and every descriptor obtained and not closed yet is open, exactly if
whatever is obtained gets a keeper (`accounted_iff`): a connection that is accepted
while `on_accepted` is not set gets none.
-/
namespace AcppNetwork
namespace Linux

open Reentrant Custody

/-- The descriptor a pimpl is to close. -/
def SocketBasePimpl.descriptor (p : SocketBasePimpl) : Option Int :=
  if p.valid then some p.fd else none

namespace World

/-- The descriptor the pimpl at `h` is to close. -/
def fdOf (w : World) (h : Nat) : Option Int := (w.pimpls h).bind SocketBasePimpl.descriptor

/-- What a stretch of code obtains and closes. -/
def entries (w : World) (f : Frame) (a : Answer) : List (Entry Nat Int) :=
  match f, a with
  | .api (.socket _ _ _ _), .opened (.fd n) => [.acquire w.fresh n]
  | .api (.adopt _ _ _ fd _), _ =>
      if fd = SocketBasePimpl.invalidFd then [] else [.acquire w.fresh fd]
  | .readBranch h _ _, .accept (.fd n) _ =>
      if (w.pimpls h).any (·.callbacks.onAccepted) then [.acquire w.fresh n] else [.lose n]
  | f, _ => ((w.closes f).bind fun h => (w.fdOf h).map (.release h)).toList

/-- The condition: what is obtained is taken over.  A descriptor that is adopted is open
and no other socket's, and a connection is accepted for an `on_accepted`. -/
def TakesOver (w : World) (f : Frame) (a : Answer) : Prop :=
  match f, a with
  | .api (.adopt _ _ _ fd _), _ =>
      fd = SocketBasePimpl.invalidFd ∨
        w.kernel.isOpen fd = true ∧ ∀ h < w.fresh, w.fdOf h ≠ some fd
  | .readBranch h _ _, .accept (.fd _) _ => (w.pimpls h).any (·.callbacks.onAccepted) = true
  | _, _ => True

/-- The descriptors that were obtained are held by one live pimpl each, and open, or were
closed as often as they were obtained; when no object owns a pimpl any more, all of
them were. -/
structure Accounted (w : World) (b : Books Nat Int) : Prop where
  exact : b.Exact
  holds : b.holds = w.fdOf
  isOpen : ∀ h fd, w.fdOf h = some fd → w.kernel.isOpen fd = true
  released : (∀ o, (w.objects o).join = none) → b.acquired = b.released

/-- Every pimpl is owned by an object, and what was not handed out is not used. -/
structure Tended (w : World) : Prop where
  owned : ∀ h, w.pimpls h ≠ none → ∃ o, w.objects o = some (some h)
  beyond : ∀ h, w.fresh ≤ h → w.pimpls h = none
  noObject : ∀ o, w.fresh ≤ o → w.objects o = none

instance (w : World) (f : Frame) (a : Answer) : Decidable (w.TakesOver f a) := by
  unfold TakesOver
  split <;> infer_instance

end World

/-- What an event adds to the books. -/
def entries (c : Configuration) (e : Event Op Answer) : List (Entry Nat Int) :=
  match e.answer?, c.stack with
  | some a, .code f :: _ => c.state.entries f a
  | _, _ => []

/-- A context with its books. -/
def audited : Configuration × Books Nat Int → Event Op Answer →
    Option (Configuration × Books Nat Int) :=
  Runs.observe (step object) fun c e b => (entries c e).foldl Books.enter b

namespace World
variable {w w' w'' : World} {h o : Nat} {p : SocketBasePimpl} {s : Socket}

/-! ## What the operations do to descriptors -/

theorem fdOf_update {q : Option SocketBasePimpl} (hw' : w'.pimpls = Function.update w.pimpls h q) :
    w'.fdOf = Function.update w.fdOf h (q.bind SocketBasePimpl.descriptor) := by
  funext x
  unfold fdOf
  rw [hw']
  by_cases hx : x = h
  · subst hx
    rw [Function.update_self, Function.update_self]
  · rw [Function.update_of_ne hx, Function.update_of_ne hx]

/-- The descriptors are where they were, and those that were open are. -/
structure Same (w w' : World) : Prop where
  fdOf : w'.fdOf = w.fdOf
  isOpen : ∀ fd, w.kernel.isOpen fd = true → w'.kernel.isOpen fd = true

theorem Same.refl (w : World) : Same w w := ⟨rfl, fun _ h => h⟩

/-- A pimpl that changes, but not its descriptor. -/
theorem same_update {q : SocketBasePimpl} (hp : w.pimpls h = some p) (hfd : q.fd = p.fd)
    (hw' : w'.pimpls = Function.update w.pimpls h (some q))
    (hopen : ∀ fd, w.kernel.isOpen fd = true → w'.kernel.isOpen fd = true) : Same w w' := by
  have hdescriptor : (some q).bind SocketBasePimpl.descriptor = w.fdOf h := by
    simp [fdOf, hp, SocketBasePimpl.descriptor, SocketBasePimpl.valid, hfd]
  refine ⟨?_, hopen⟩
  rw [fdOf_update hw', hdescriptor, Function.update_eq_self]

theorem rearms_same (hp : w.pimpls h = some p) (hr : Socket.Rearms ⟨h, w.kernel, p⟩ s) :
    Same w (w.put s) := by
  obtain rfl : s.this = h := hr.this
  refine same_update hp hr.fd rfl fun fd hfd => ?_
  show s.kernel.isOpen fd = true
  rw [hr.isOpen]
  exact hfd

theorem owned_same {s' : Socket} (hs : w.owned o = some s) (hr : s.Rearms s') :
    Same w (w.put s') := by
  obtain ⟨p, -, hp, hsocket⟩ := owned_iff.mp hs
  exact rearms_same hp (hsocket ▸ hr)

theorem openFd_same (n : Nat) : Same w (w.openFd n) := by
  refine ⟨rfl, fun fd hfd => ?_⟩
  show Function.update w.kernel.isOpen (n : Int) true fd = true
  by_cases hn : fd = n
  · rw [hn, Function.update_self]
  · rw [Function.update_of_ne hn]
    exact hfd

theorem own_same (hown : w.own o h = some w') : Same w w' := by
  obtain ⟨p, hp, rfl⟩ := Option.map_eq_some_iff.mp hown
  exact same_update hp (q := { p with parent := o }) rfl rfl fun _ hfd => hfd

/-- The pimpl that is `gone`, if one is, has no descriptor any more, which was closed. -/
structure Shut (gone : Option Nat) (w w' : World) : Prop where
  fdOf : ∀ h, w'.fdOf h = if gone = some h then none else w.fdOf h
  isOpen : ∀ fd, (∀ h ∈ gone, w.fdOf h ≠ some fd) → w.kernel.isOpen fd = true →
    w'.kernel.isOpen fd = true

theorem Same.shut (h : Same w w') : Shut none w w' :=
  ⟨fun x => by rw [h.fdOf, if_neg (by simp)], fun fd _ => h.isOpen fd⟩

theorem Shut.trans_same {gone : Option Nat} (h : Shut gone w w') (hsame : Same w' w'') :
    Shut gone w w'' :=
  ⟨fun x => by rw [hsame.fdOf, h.fdOf], fun fd hne hfd => hsame.isOpen fd (h.isOpen fd hne hfd)⟩

theorem shut_of_close (hp : w.pimpls h = some p) {q : Option SocketBasePimpl}
    (hq : q.bind SocketBasePimpl.descriptor = none)
    (hpimpls : w'.pimpls = Function.update w.pimpls h q)
    (hkernel : w'.kernel = (Socket.close ⟨h, w.kernel, p⟩).kernel) : Shut (some h) w w' := by
  refine ⟨fun x => ?_, fun fd hne hfd => ?_⟩
  · rw [fdOf_update hpimpls, hq]
    by_cases hx : x = h
    · subst hx
      rw [Function.update_self, if_pos rfl]
    · rw [Function.update_of_ne hx, if_neg fun heq => hx (Option.some.inj heq).symm]
  · rw [hkernel, Socket.close]
    split
    · rename_i hvalid
      -- another descriptor
      have hother : fd ≠ p.fd := by
        rintro rfl
        refine hne h rfl ?_
        simp [World.fdOf, hp, SocketBasePimpl.descriptor, show p.valid = true from hvalid]
      show Function.update w.kernel.isOpen p.fd false fd = true
      rw [Function.update_of_ne hother]
      exact hfd
    · exact hfd

/-- What `unique_ptr` closes. -/
theorem reset_shut (pimpl : Option Nat) : Shut pimpl w (w.reset pimpl).1 := by
  cases pimpl with
  | none => exact (Same.refl w).shut
  | some h =>
    show Shut (some h) w (w.delete h)
    unfold delete
    split
    · exact shut_of_close ‹_› (q := none) rfl rfl rfl
    · rename_i hnone
      refine ⟨fun x => ?_, fun _ _ hopen => hopen⟩
      split
      · rename_i hx
        rw [← Option.some.inj hx, fdOf, hnone]
        rfl
      · rfl

theorem destruct_shut {ns : List Note} (h : w.destruct o = some (w', ns)) :
    Shut (w.objects o).join w w' := by
  obtain ⟨pimpl, hobj, rfl, -⟩ := destruct_some h
  have hshut := reset_shut (w := { w with objects := Function.update w.objects o none }) pimpl
  rw [hobj, Option.join_some]
  exact ⟨hshut.fdOf, hshut.isOpen⟩

theorem closeObject_shut {ns : List Note} (h : w.closeObject o = some (w', ns)) :
    Shut (w.objects o).join w w' := by
  obtain ⟨hobj, rfl, -⟩ | ⟨x, p, hobj, hp, -, rfl⟩ := closeObject_some h
  · rw [hobj]
    exact (Same.refl w').shut
  · rw [hobj]
    refine shut_of_close hp (q := some (Socket.close ⟨x, w.kernel, p⟩).pimpl) ?_ rfl rfl
    simp [SocketBasePimpl.descriptor, close_invalid]

theorem assign_shut {other : Nat} {ns : List Note} (h : w.assign o other = some (w', ns)) :
    Shut ((w.release other).objects o).join w w' := by
  obtain ⟨s, pimpl, -, hobj, hown, -⟩ := assign_some h
  have hshut := (reset_shut (w := w.release other) pimpl).trans_same (own_same hown)
  rw [hobj, Option.join_some]
  exact ⟨hshut.fdOf, hshut.isOpen⟩

/-- A connection that is accepted: nothing becomes of its descriptor, or a new pimpl
gets it and is registered. -/
theorem acceptBranch_fd (w : World) (s : Socket) (rest : List Ready) (refused : Option Nat)
    (n : Nat) :
    s.pimpl.callbacks.onAccepted = false ∧
        (w.acceptBranch s rest refused (.fd n)).state = w.openFd n ∨
      s.pimpl.callbacks.onAccepted = true ∧ ∃ new, new = (Socket.setEvents
          ⟨w.fresh, (w.openFd n).kernel, SocketBasePimpl.new s.pimpl.domain s.pimpl.type
            s.pimpl.protocol n ⟨false, false, false, false, false, false⟩ w.fresh⟩
          ⟨true, false⟩ refused).1 ∧
        (w.acceptBranch s rest refused (.fd n)).state =
          ((w.openFd n).construct s.pimpl.domain s.pimpl.type s.pimpl.protocol n
            ⟨false, false, false, false, false, false⟩).put
              { new with pimpl := { new.pimpl with connected := true } } := by
  cases hset : s.pimpl.callbacks.onAccepted with
  | false => exact .inl ⟨rfl, by simp [acceptBranch, hset, Outcome.state]⟩
  | true =>
    refine .inr ⟨rfl, _, rfl, ?_⟩
    generalize hnew : Socket.setEvents ⟨w.fresh, (w.openFd n).kernel, _⟩ _ _ = r
    obtain ⟨new, failures⟩ := r
    simp only [acceptBranch, hset, if_true, construct, hnew]
    rfl

/-- The new pimpl keeps its descriptor. -/
theorem accepted_rearms {s new : Socket} {refused : Option Nat}
    (hnew : new = (s.setEvents ⟨true, false⟩ refused).1) :
    s.Rearms { new with pimpl := { new.pimpl with connected := true } } := by
  subst hnew
  exact (Socket.setEvents_rearms ..).trans ⟨rfl, rfl, rfl, rfl, rfl, fun _ _ hr => .inl hr⟩

/-! ## What becomes of the pimpls -/

theorem delete_pimpls : (w.delete h).pimpls = Function.update w.pimpls h none := by
  unfold delete
  split
  · rfl
  · rename_i hnone
    rw [← hnone, Function.update_eq_self]

@[simp] theorem delete_objects : (w.delete h).objects = w.objects := by
  unfold delete
  split <;> rfl

@[simp] theorem delete_fresh : (w.delete h).fresh = w.fresh := by
  unfold delete
  split <;> rfl

theorem reset_pimpls (pimpl : Option Nat) (x : Nat) :
    (w.reset pimpl).1.pimpls x = if pimpl = some x then none else w.pimpls x := by
  cases pimpl with
  | none => simp [reset]
  | some h =>
    show (w.delete h).pimpls x = _
    rw [delete_pimpls]
    by_cases hx : x = h
    · simp [hx]
    · rw [Function.update_of_ne hx, if_neg fun heq => hx (Option.some.inj heq).symm]

@[simp] theorem reset_objects (pimpl : Option Nat) : (w.reset pimpl).1.objects = w.objects := by
  cases pimpl <;> simp [reset]

@[simp] theorem reset_fresh (pimpl : Option Nat) : (w.reset pimpl).1.fresh = w.fresh := by
  cases pimpl <;> simp [reset]

section
variable (ht : w.Tended)
include ht

theorem Tended.of_same (hpimpls : ∀ x, w'.pimpls x = none ↔ w.pimpls x = none)
    (hobjects : w'.objects = w.objects) (hfresh : w'.fresh = w.fresh) : w'.Tended where
  owned x hx := by
    rw [hobjects]
    exact ht.owned x ((hpimpls x).not.mp hx)
  beyond x hx := (hpimpls x).mpr (ht.beyond x (hfresh ▸ hx))
  noObject x hx := by
    rw [hobjects]
    exact ht.noObject x (hfresh ▸ hx)

theorem Tended.put (hp : w.pimpls s.this = some p) : (w.put s).Tended := by
  refine ht.of_same (fun x => ?_) rfl rfl
  show Function.update w.pimpls s.this (some s.pimpl) x = none ↔ _
  by_cases hx : x = s.this
  · subst hx
    simp [hp]
  · rw [Function.update_of_ne hx]

theorem Tended.rearms (hp : w.pimpls h = some p) (hr : Socket.Rearms ⟨h, w.kernel, p⟩ s) :
    (w.put s).Tended := by
  obtain rfl : s.this = h := hr.this
  exact ht.put hp

theorem Tended.owned_put {s' : Socket} (hs : w.owned o = some s) (hthis : s'.this = s.this) :
    (w.put s').Tended := by
  obtain ⟨p, -, hp, -⟩ := owned_iff.mp hs
  exact ht.put (hthis ▸ hp)

theorem Tended.construct (domain type protocol fd : Int) (callbacks : Callbacks) :
    (w.construct domain type protocol fd callbacks).Tended where
  owned x hx := by
    by_cases heq : x = w.fresh
    · exact ⟨w.fresh, by rw [heq]; exact Function.update_self ..⟩
    · change Function.update w.pimpls w.fresh _ x ≠ none at hx
      rw [Function.update_of_ne heq] at hx
      obtain ⟨o, ho⟩ := ht.owned x hx
      refine ⟨o, ?_⟩
      have hne : o ≠ w.fresh := by
        rintro rfl
        rw [ht.noObject w.fresh (Nat.le_refl _)] at ho
        cases ho
      show Function.update w.objects w.fresh _ o = _
      rw [Function.update_of_ne hne]
      exact ho
  beyond x hx := by
    have hlt : w.fresh < x := hx
    show Function.update w.pimpls w.fresh _ x = none
    rw [Function.update_of_ne (by omega)]
    exact ht.beyond x (by omega)
  noObject x hx := by
    have hlt : w.fresh < x := hx
    show Function.update w.objects w.fresh _ x = none
    rw [Function.update_of_ne (by omega)]
    exact ht.noObject x (by omega)

/-- An object goes, and with it the pimpl it owned. -/
theorem Tended.destruct {ns : List Note} (h : w.destruct o = some (w', ns)) : w'.Tended := by
  obtain ⟨pimpl, hobj, rfl, -⟩ := destruct_some h
  refine ⟨fun x hx => ?_, fun x hx => ?_, fun x hx => ?_⟩
  · rw [reset_pimpls] at hx
    by_cases hgone : pimpl = some x
    · rw [if_pos hgone] at hx
      exact absurd rfl hx
    · rw [if_neg hgone] at hx
      obtain ⟨o', ho'⟩ := ht.owned x hx
      refine ⟨o', ?_⟩
      rw [reset_objects]
      show Function.update w.objects o none o' = _
      rw [Function.update_of_ne]
      · exact ho'
      · rintro rfl
        exact hgone (Option.some.inj (hobj.symm.trans ho'))
  · rw [reset_fresh] at hx
    rw [reset_pimpls]
    split
    · rfl
    · exact ht.beyond x hx
  · rw [reset_fresh] at hx
    rw [reset_objects]
    show Function.update w.objects o none x = none
    by_cases hxo : x = o
    · rw [hxo, Function.update_self]
    · rw [Function.update_of_ne hxo]
      exact ht.noObject x hx

theorem Tended.closeObject {ns : List Note} (h : w.closeObject o = some (w', ns)) :
    w'.Tended := by
  obtain ⟨-, rfl, -⟩ | ⟨x, p, -, hp, -, rfl⟩ := closeObject_some h
  · exact ht
  · refine ht.of_same (fun y => ?_) rfl rfl
    show Function.update w.pimpls x _ y = none ↔ _
    by_cases hy : y = x
    · subst hy
      simp [hp]
    · rw [Function.update_of_ne hy]

omit ht in
/-- Handing a pimpl over leaves it with the object it is handed to. -/
theorem Tended.own (hown : w'.own o h = some w'')
    (hobjects : ∀ x, x ≠ h → w'.pimpls x ≠ none →
      ∃ o', w'.objects o' = some (some x) ∧ o' ≠ o)
    (hbeyond : ∀ x, w'.fresh ≤ x → w'.pimpls x = none)
    (hnone : ∀ x, w'.fresh ≤ x → w'.objects x = none) (ho : o < w'.fresh) : w''.Tended := by
  obtain ⟨p, hp, rfl⟩ := Option.map_eq_some_iff.mp hown
  refine ⟨fun x hx => ?_, fun x hx => ?_, fun x hx => ?_⟩
  · change Function.update w'.pimpls h _ x ≠ none at hx
    show ∃ o', Function.update w'.objects o (some (some h)) o' = some (some x)
    by_cases hxh : x = h
    · exact ⟨o, by rw [Function.update_self, hxh]⟩
    · rw [Function.update_of_ne hxh] at hx
      obtain ⟨o', ho', hne⟩ := hobjects x hxh hx
      exact ⟨o', by rw [Function.update_of_ne hne]; exact ho'⟩
  · change w'.fresh ≤ x at hx
    show Function.update w'.pimpls h _ x = none
    rw [Function.update_of_ne]
    · exact hbeyond x hx
    · rintro rfl
      rw [hbeyond x hx] at hp
      cases hp
  · change w'.fresh ≤ x at hx
    show Function.update w'.objects o _ x = none
    rw [Function.update_of_ne (by omega)]
    exact hnone x hx

theorem Tended.move {other : Nat} (hs : w.owned other = some s)
    (hown : World.own { w.release other with fresh := w.fresh + 1 } w.fresh s.this = some w') :
    w'.Tended := by
  obtain ⟨-, hother, -, -⟩ := owned_iff.mp hs
  refine Tended.own hown (fun x hne hx => ?_) (fun x hx => ?_) (fun x hx => ?_) (Nat.lt_succ_self _)
  · obtain ⟨o', ho'⟩ := ht.owned x hx
    refine ⟨o', ?_, ?_⟩
    · show Function.update w.objects other _ o' = _
      rw [Function.update_of_ne]
      · exact ho'
      · rintro rfl
        exact hne (Option.some.inj (Option.some.inj (ho'.symm.trans hother)))
    · rintro rfl
      rw [ht.noObject w.fresh (Nat.le_refl _)] at ho'
      cases ho'
  · change w.fresh + 1 ≤ x at hx
    exact ht.beyond x (by omega)
  · change w.fresh + 1 ≤ x at hx
    show Function.update w.objects other _ x = none
    rw [Function.update_of_ne]
    · exact ht.noObject x (by omega)
    · rintro rfl
      rw [ht.noObject x (by omega)] at hother
      cases hother

theorem Tended.assign {other : Nat} {ns : List Note} (h : w.assign o other = some (w', ns)) :
    w'.Tended := by
  obtain ⟨s, pimpl, hs, hobj, hown, -⟩ := assign_some h
  obtain ⟨-, hother, -, -⟩ := owned_iff.mp hs
  have hlt : ∀ {x q}, w.objects x = some q → x < w.fresh := by
    intro x q hx
    by_contra hge
    rw [ht.noObject x (by omega)] at hx
    cases hx
  refine Tended.own hown (fun x hne hx => ?_) (fun x hx => ?_) (fun x hx => ?_) ?_
  · -- `x` is not the pimpl that was reset, so `o` does not own it
    rw [reset_pimpls] at hx
    by_cases hgone : pimpl = some x
    · rw [if_pos hgone] at hx
      exact absurd rfl hx
    · rw [if_neg hgone] at hx
      obtain ⟨o', ho'⟩ := ht.owned x hx
      have hrelease : (w.release other).objects o' = some (some x) := by
        show Function.update w.objects other _ o' = _
        rw [Function.update_of_ne]
        · exact ho'
        · rintro rfl
          exact hne (Option.some.inj (Option.some.inj (ho'.symm.trans hother)))
      refine ⟨o', by rw [reset_objects]; exact hrelease, ?_⟩
      rintro rfl
      exact hgone (Option.some.inj (hobj.symm.trans hrelease))
  · rw [reset_fresh] at hx
    rw [reset_pimpls]
    split
    · rfl
    · exact ht.beyond x hx
  · rw [reset_fresh] at hx
    rw [reset_objects]
    show Function.update w.objects other _ x = none
    have hx' : w.fresh ≤ x := hx
    rw [Function.update_of_ne]
    · exact ht.noObject x hx'
    · rintro rfl
      exact absurd (hlt hother) (Nat.not_lt.mpr hx')
  · rw [reset_fresh]
    change Function.update w.objects other _ o = _ at hobj
    show o < w.fresh
    by_cases heq : o = other
    · rw [heq]
      exact hlt hother
    · rw [Function.update_of_ne heq] at hobj
      exact hlt hobj

/-- **Every pimpl has its object**, whatever the code does. -/
theorem Tended.stretch {f : Frame} {a : Answer} {out : Next} (hs : Stretch w f a out) :
    out.state.Tended := by
  have same : ∀ {w' : World}, w'.pimpls = w.pimpls → w'.objects = w.objects →
      w'.fresh = w.fresh → w'.Tended := by
    intro w' hpimpls hobjects hfresh
    exact ht.of_same (fun x => by rw [hpimpls]) hobjects hfresh
  cases hs with
  | @socket domain type protocol callbacks a hopens =>
    cases a with
    | fd n => exact Tended.construct (w := w.openFd n) (same rfl rfl rfl) ..
    | failed e => exact Tended.construct (w := w.setErrno e) (same rfl rfl rfl) ..
  | adopt => exact ht.construct ..
  | move hs hown => exact ht.move hs hown
  | assign hassign => exact ht.assign hassign
  | destroy hdestruct | newSocket hdestruct => exact ht.destruct hdestruct
  | close hclose => exact ht.closeObject hclose
  | connect hs => exact ht.owned_put hs (Socket.connect_rearms ..).this
  | listen hs => exact ht.owned_put hs (Socket.listen_rearms ..).this
  | write hs hwrite =>
    rw [callThen_state]
    exact ht.owned_put hs (Socket.soWrite_rearms hwrite).this
  | callbacks hs => exact ht.owned_put hs rfl
  | @wake h events rest p refused soError hp hout =>
    rw [callThen_state]
    exact ht.rearms hp (Socket.writeBranch_rearms ..)
  | @accept h events rest p a refused hin hp hlistening ha hopens =>
    cases a with
    | failed e =>
      rw [acceptBranch, callThen_state]
      exact ht.put hp
    | fd n =>
      have hopen : (w.openFd n).Tended := same rfl rfl rfl
      rcases acceptBranch_fd w ⟨h, w.kernel, p⟩ rest refused n with
        ⟨-, hstate⟩ | ⟨-, new, hnew, hstate⟩
      · rw [hstate]
        exact hopen
      · rw [hstate]
        exact Tended.rearms (Tended.construct hopen ..) (Function.update_self ..)
          (accepted_rearms hnew)
  | @receive h events rest p a s cb hin hp hlistening ha hreceive =>
    have hrearms := Socket.receiveBranch_rearms ⟨h, w.kernel, p⟩ a
    rw [hreceive] at hrearms
    rw [callThen_state]
    exact ht.rearms hp hrearms
  | @badFunctionCall h events rest p a s hin hp hlistening ha hreceive =>
    have hrearms := Socket.receiveBranch_rearms ⟨h, w.kernel, p⟩ a
    rw [hreceive] at hrearms
    exact ht.rearms hp hrearms
  | _ => exact same rfl rfl rfl

end

/-! ## What a stretch of code does to the books -/

/-- It gives a new pimpl a descriptor, closes what one pimpl has, if it has anything, or
obtains a descriptor for nobody. -/
inductive Deed (w : World) (f : Frame) (a : Answer) (w' : World) : Prop where
  | acquires (fd : Int) (hentries : w.entries f a = [.acquire w.fresh fd])
      (hfd : w'.fdOf = Function.update w.fdOf w.fresh (some fd))
      (hopen : ∀ r, w.kernel.isOpen r = true → w'.kernel.isOpen r = true)
      (htakes : w.TakesOver f a ↔
        w'.kernel.isOpen fd = true ∧ ∀ h < w.fresh, w.fdOf h ≠ some fd)
  | closes (gone : Option Nat)
      (hentries : w.entries f a = (gone.bind fun h => (w.fdOf h).map (.release h)).toList)
      (htakes : w.TakesOver f a) (hshut : Shut gone w w')
  | loses (n : Nat) (hentries : w.entries f a = [.lose n]) (htakes : ¬ w.TakesOver f a)

theorem new_descriptor (domain type protocol fd : Int) (callbacks : Callbacks) (parent : Nat) :
    (SocketBasePimpl.new domain type protocol fd callbacks parent).descriptor =
      if fd = SocketBasePimpl.invalidFd then none else some fd := by
  by_cases hfd : fd = SocketBasePimpl.invalidFd <;>
    simp [SocketBasePimpl.descriptor, SocketBasePimpl.valid, SocketBasePimpl.new, hfd]

theorem ne_invalidFd (n : Nat) : (n : Int) ≠ SocketBasePimpl.invalidFd := by
  show (n : Int) ≠ -1
  omega

theorem construct_fdOf (domain type protocol fd : Int) (callbacks : Callbacks) :
    (w.construct domain type protocol fd callbacks).fdOf =
      Function.update w.fdOf w.fresh
        (if fd = SocketBasePimpl.invalidFd then none else some fd) := by
  rw [fdOf_update (w := w) (h := w.fresh) rfl, Option.bind_some, new_descriptor]

/-- A new descriptor is nobody's. -/
theorem deed_opened {f : Frame} {a : Answer} {n : Nat}
    (hheld : ∀ h fd, w.fdOf h = some fd → w.kernel.isOpen fd = true)
    (hfree : w.kernel.isOpen n = false) (hentries : w.entries f a = [.acquire w.fresh n])
    (htakes : w.TakesOver f a)
    (hfd : w'.fdOf = Function.update w.fdOf w.fresh (some (n : Int)))
    (hopen : ∀ r, (w.openFd n).kernel.isOpen r = true → w'.kernel.isOpen r = true) :
    Deed w f a w' := by
  refine .acquires n hentries hfd (fun r hr => hopen r ((openFd_same n).isOpen r hr))
    (iff_of_true htakes ⟨hopen n (Function.update_self ..), fun h _ hh => ?_⟩)
  rw [hheld h n hh] at hfree
  cases hfree

/-- **A stretch does one of these deeds.** -/
theorem deed_of_stretch {f : Frame} {a : Answer} {out : Next} (hnew : w.fdOf w.fresh = none)
    (hheld : ∀ h fd, w.fdOf h = some fd → w.kernel.isOpen fd = true) (hs : Stretch w f a out) :
    Deed w f a out.state := by
  -- a pimpl without a descriptor
  have hinvalid : ∀ {v : World} {domain type protocol : Int} {callbacks : Callbacks},
      v.fdOf = w.fdOf → v.fresh = w.fresh →
      (v.construct domain type protocol SocketBasePimpl.invalidFd callbacks).fdOf = w.fdOf := by
    intro v domain type protocol callbacks hv hfresh
    rw [construct_fdOf, if_pos rfl, hv, hfresh, ← hnew, Function.update_eq_self]
  cases hs with
  | @socket domain type protocol callbacks a hopens =>
    cases a with
    | fd n =>
      refine deed_opened hheld hopens rfl trivial ?_ fun r hr => hr
      refine (construct_fdOf (w := w.openFd n) ..).trans ?_
      rw [if_neg (ne_invalidFd n)]
      rfl
    | failed e =>
      exact .closes none rfl trivial
        (Same.shut ⟨hinvalid (v := w.setErrno e) rfl rfl, fun _ h => h⟩)
  | @adopt domain type protocol fd callbacks =>
    by_cases hfd : fd = SocketBasePimpl.invalidFd
    · subst hfd
      exact .closes none rfl (.inl rfl) (Same.shut ⟨hinvalid rfl rfl, fun _ h => h⟩)
    · refine .acquires fd (if_neg hfd) ?_ (fun _ h => h) ⟨fun h => h.resolve_left hfd, .inr⟩
      exact (construct_fdOf ..).trans (by rw [if_neg hfd])
  | move hs hown =>
    refine .closes none rfl trivial (Same.shut ?_)
    have hsame := own_same hown
    exact ⟨hsame.fdOf, hsame.isOpen⟩
  | assign hassign => exact .closes _ rfl trivial (assign_shut hassign)
  | destroy hdestruct => exact .closes _ rfl trivial (destruct_shut hdestruct)
  | newSocket hdestruct => exact .closes _ rfl trivial (destruct_shut hdestruct)
  | close hclose => exact .closes _ rfl trivial (closeObject_shut hclose)
  | connect hs => exact .closes none rfl trivial (owned_same hs (Socket.connect_rearms ..)).shut
  | listen hs => exact .closes none rfl trivial (owned_same hs (Socket.listen_rearms ..)).shut
  | write hs hwrite =>
    rw [callThen_state]
    exact .closes none rfl trivial (owned_same hs (Socket.soWrite_rearms hwrite)).shut
  | @callbacks o s callbacks hs =>
    obtain ⟨p, -, hp, hsocket⟩ := owned_iff.mp hs
    refine .closes none rfl trivial (same_update hp ?_ rfl fun fd hfd => ?_).shut
    · rw [hsocket]
    · show s.kernel.isOpen fd = true
      rw [hsocket]
      exact hfd
  | @otherOpen e n hfree =>
    exact .closes none rfl trivial (Same.shut ⟨rfl, (openFd_same n).isOpen⟩)
  | @wake h events rest p refused soError hp hout =>
    rw [callThen_state]
    exact .closes none rfl trivial (rearms_same hp (Socket.writeBranch_rearms ..)).shut
  | @accept h events rest p a refused hin hp hlistening ha hopens =>
    cases a with
    | failed e =>
      rw [acceptBranch, callThen_state]
      exact .closes none rfl trivial (rearms_same hp (Socket.errno_rearms ..)).shut
    | fd n =>
      rcases acceptBranch_fd w ⟨h, w.kernel, p⟩ rest refused n with
        ⟨hset, hstate⟩ | ⟨hset, new, hnew, hstate⟩
      · have hunset : (w.pimpls h).any (·.callbacks.onAccepted) = false := by
          rw [hp]
          exact hset
        exact .loses n (if_neg (by simp [hunset])) (by simp [TakesOver, hunset])
      · have hset' : (w.pimpls h).any (·.callbacks.onAccepted) = true := by
          rw [hp]
          exact hset
        have hsame := rearms_same (w := (w.openFd n).construct p.domain p.type p.protocol n
          ⟨false, false, false, false, false, false⟩) (Function.update_self ..)
          (accepted_rearms hnew)
        rw [hstate]
        refine deed_opened hheld hopens (if_pos hset') hset' ?_ hsame.isOpen
        rw [hsame.fdOf, construct_fdOf, if_neg (ne_invalidFd n)]
        rfl
  | @receive h events rest p a s cb hin hp hlistening ha hreceive =>
    have hrearms := Socket.receiveBranch_rearms ⟨h, w.kernel, p⟩ a
    rw [hreceive] at hrearms
    rw [callThen_state]
    exact .closes none rfl trivial (rearms_same hp hrearms).shut
  | @badFunctionCall h events rest p a s hin hp hlistening ha hreceive =>
    have hrearms := Socket.receiveBranch_rearms ⟨h, w.kernel, p⟩ a
    rw [hreceive] at hrearms
    exact .closes none rfl trivial (rearms_same hp hrearms).shut
  | _ => exact .closes none rfl trivial (Same.shut ⟨rfl, fun _ hfd => hfd⟩)

/-! ## The books of a run -/

/-- Without owners there are no pimpls, so nothing is held. -/
theorem Accounted.of_tended {b : Books Nat Int} (ht : w.Tended) (hexact : b.Exact)
    (hholds : b.holds = w.fdOf)
    (hopen : ∀ h fd, w.fdOf h = some fd → w.kernel.isOpen fd = true) : Accounted w b := by
  refine ⟨hexact, hholds, hopen, fun hnone => hexact.released fun h => ?_⟩
  rw [hholds, fdOf]
  by_cases hp : w.pimpls h = none
  · rw [hp]
    rfl
  · obtain ⟨o, ho⟩ := ht.owned h hp
    have hjoin := hnone o
    rw [ho] at hjoin
    cases hjoin

/-- **A stretch keeps the books exactly if** it takes over what it obtains. -/
theorem accounted_deed {b : Books Nat Int} {f : Frame} {a : Answer} (ht : w.Tended)
    (ht' : w'.Tended) (h : Accounted w b) (hd : Deed w f a w') :
    Accounted w' ((w.entries f a).foldl Books.enter b) ↔ w.TakesOver f a := by
  have hnew : b.holds w.fresh = none := by
    rw [h.holds, fdOf, ht.beyond w.fresh (Nat.le_refl _)]
    rfl
  cases hd with
  | acquires fd hentries hfd hopen htakes =>
    rw [hentries, htakes]
    show Accounted w' (b.enter (.acquire w.fresh fd)) ↔ _
    have hholds : (b.enter (.acquire w.fresh fd)).holds = w'.fdOf := by
      rw [hfd, ← h.holds]
      rfl
    constructor
    · intro h'
      refine ⟨h'.isOpen w.fresh fd (by rw [hfd, Function.update_self]), fun x _ => ?_⟩
      rw [← h.holds]
      exact (Books.exact_acquire_iff h.exact hnew).mp h'.exact x
    · rintro ⟨hfdOpen, hfree⟩
      refine .of_tended ht' ((Books.exact_acquire_iff h.exact hnew).mpr fun x hx => ?_) hholds
        fun x r hx => ?_
      · by_cases hlt : x < w.fresh
        · exact hfree x hlt (h.holds ▸ hx)
        · rw [h.holds, fdOf, ht.beyond x (by omega)] at hx
          cases hx
      · by_cases hxf : x = w.fresh
        · rw [hfd, hxf, Function.update_self] at hx
          exact Option.some.inj hx ▸ hfdOpen
        · rw [hfd, Function.update_of_ne hxf] at hx
          exact hopen r (h.isOpen x r hx)
  | closes gone hentries htakes hshut =>
    refine iff_of_true ?_ htakes
    rw [hentries]
    -- whoever holds something now held it before, and it was not closed
    have hstill : ∀ x r, w'.fdOf x = some r → w.fdOf x = some r ∧ gone ≠ some x := by
      intro x r hx
      rw [hshut.fdOf] at hx
      split at hx
      · cases hx
      · exact ⟨hx, ‹_›⟩
    have hopen : ∀ x r, w'.fdOf x = some r → w'.kernel.isOpen r = true := by
      intro x r hx
      obtain ⟨hx', hne⟩ := hstill x r hx
      refine hshut.isOpen r (fun g hg hgr => hne ?_) (h.isOpen x r hx')
      rw [← h.holds] at hx' hgr
      rw [Option.mem_def.mp hg, h.exact.unique hx' hgr]
    cases hgone : gone.bind fun g => (w.fdOf g).map (Entry.release g) with
    | none =>
      -- there was nothing to close
      refine .of_tended ht' h.exact ?_ hopen
      show b.holds = w'.fdOf
      rw [h.holds]
      funext x
      rw [hshut.fdOf]
      split
      · rename_i hx
        rw [hx, Option.bind_some, Option.map_eq_none_iff] at hgone
        exact hgone
      · rfl
    | some entry =>
      obtain ⟨g, rfl, hentry⟩ := Option.bind_eq_some_iff.mp hgone
      obtain ⟨fd, hfd, rfl⟩ := Option.map_eq_some_iff.mp hentry
      refine .of_tended ht' (h.exact.release (by rw [h.holds]; exact hfd)) ?_ hopen
      funext x
      rw [hshut.fdOf]
      by_cases hx : g = x
      · subst hx
        rw [if_pos rfl]
        exact Function.update_self ..
      · rw [if_neg fun heq => hx (Option.some.inj heq), ← h.holds]
        exact Function.update_of_ne (Ne.symm hx) ..
  | loses n hentries htakes =>
    rw [hentries]
    exact iff_of_false (fun h' => h.exact.not_lose h'.exact) htakes

theorem new_tended : World.new.Tended where
  owned _ hx := absurd rfl hx
  beyond _ _ := rfl
  noObject _ _ := rfl

theorem new_accounted : World.new.Accounted Books.new :=
  ⟨Books.exact_new, rfl, fun _ _ h => (by cases h), fun _ => rfl⟩

end World

theorem tended_step {c c' : Configuration} {e : Event Op Answer} (ht : c.state.Tended)
    (hstep : step object c e = some c') : c'.state.Tended :=
  (Step.of_step hstep).preserves_always ht (fun _ => ht) fun hres =>
    ht.stretch (stretch_of_resume hres)

theorem tended_of_run {es : List (Event Op Answer)} {c : Configuration}
    (hr : Runs.run (step object) (Config.start World.new) es = some c) : c.state.Tended :=
  Runs.run_invariant (I := fun c => c.state.Tended) (fun _ _ _ => tended_step) World.new_tended hr

/-- A server accepts a connection; `callbacks` are those of its socket. -/
def acceptOne (callbacks : Callbacks) (rest : List (Event Op Answer)) :
    List (Event Op Answer) :=
  [.call (.socket 2 1 0 callbacks), .code (.opened (.fd 3)),
    .call (.listen 0), .code (.call none none), .call .waitForInput, .code .go,
    .code (.ready [some (3, ⟨true, false⟩)]), .code .go, .code (.accept (.fd 4) none)] ++ rest

end Linux
end AcppNetwork
