import AcppNetwork.LinuxOwnership
import AcppNetwork.MacosSteps

/-!
# The open descriptors of the two backends

The Linux and the macOS `async_socket_base` own their pimpls in the same way, but not the
descriptors: on Linux the destructor of the pimpl closes, on macOS only that of
`async_socket_base` does.  A move assignment deletes the pimpl that the object had, and
does not run the destructor of the object.

`Holdings` is what matters for this: objects that own slots, the descriptors in the
slots, and which of them are open.  The two backends are the same machine of holdings,
but for what a deleted slot does (`Linux.step_refines`, `Macos.step_refines`).  Run side
by side, they have the same descriptors open exactly as long as no move assignment
replaces a socket whose descriptor is still open (`same_open_iff`).
-/
namespace AcppNetwork

open Reentrant
open Linux (Callbacks Opened)

/-- The operations that make, move and end objects, with the descriptor that the system
hands out.  Other code of the program may open one for itself, to have it adopted. -/
inductive OwnerOp where
  | socket (domain type protocol : Int) (callbacks : Callbacks) (a : Opened)
  | adopt (domain type protocol fd : Int) (callbacks : Callbacks)
  | move (other : Nat)
  | assign (o other : Nat)
  | close (o : Nat)
  | destroy (o : Nat)
  | opens (n : Nat)
  deriving DecidableEq

namespace OwnerOp

/-- The call of the program. -/
def op : OwnerOp → Linux.Op
  | socket domain type protocol callbacks _ => .socket domain type protocol callbacks
  | adopt domain type protocol fd callbacks => .adopt domain type protocol fd callbacks
  | move other => .move other
  | assign o other => .assign o other
  | close o => .close o
  | destroy o => .destroy o
  | opens n => .otherCall (some n) 0

/-- What the kernel answers on Linux. -/
def linuxAnswer : OwnerOp → Linux.Answer
  | socket _ _ _ _ a => .opened a
  | _ => .go

/-- What it answers on macOS, where a filter is registered, or refused. -/
def macosAnswer (refused : Option Nat) : OwnerOp → Macos.Answer
  | socket _ _ _ _ a => .opened a refused
  | adopt .. => .ask refused
  | _ => .go

end OwnerOp

/-! ## Holdings -/

/-- Objects with the slots they own (none, if they were moved from), the descriptors in
the slots (`invalid_fd`, if there is none), those that are open, and the first number
not used so far. -/
structure Holdings where
  objects : Nat → Option (Option Nat)
  fds : Nat → Option Int
  isOpen : Int → Bool
  fresh : Nat

namespace Holdings

/-- `invalid_fd`. -/
abbrev invalidFd : Int := -1

/-- A descriptor is opened. -/
def openFd (v : Holdings) (n : Nat) : Holdings :=
  { v with isOpen := Function.update v.isOpen n true }

/-- A new object with a new slot for the descriptor, unless it cannot be registered. -/
def add (v : Holdings) (registered : Bool) (fd : Int) : Holdings :=
  if registered then
    { v with
      objects := Function.update v.objects v.fresh (some (some v.fresh))
      fds := Function.update v.fds v.fresh (some fd)
      fresh := v.fresh + 1 }
  else { v with fresh := v.fresh + 1 }

/-- The descriptor in a slot is closed. -/
def closeSlot (v : Holdings) (h : Nat) : Holdings :=
  match v.fds h with
  | some fd =>
      if fd = invalidFd then v
      else { v with
        fds := Function.update v.fds h (some invalidFd)
        isOpen := Function.update v.isOpen fd false }
  | none => v

/-- A slot is deleted, its descriptor being closed or not. -/
def discard (v : Holdings) (closes : Bool) : Option Nat → Holdings
  | some h =>
      let v' := if closes then v.closeSlot h else v
      { v' with fds := Function.update v'.fds h none }
  | none => v

/-- Slots do not know who owns them. -/
theorem discard_with (v : Holdings) (closes : Bool) (old : Option Nat)
    (objects : Nat → Option (Option Nat)) :
    discard { v with objects := objects } closes old =
      { v.discard closes old with objects := objects } := by
  cases old with
  | none => rfl
  | some h =>
    unfold discard closeSlot
    dsimp only
    split
    · split
      · split <;> rfl
      · rfl
    · rfl

/-- The slot of an object that was not moved from. -/
def slot (v : Holdings) (o : Nat) : Option Nat := do
  let h ← (v.objects o).join
  let _ ← v.fds h
  return h

/-- One operation, where deleting a slot in a move assignment closes its descriptor or
does not. -/
def step (closes registered : Bool) (v : Holdings) : OwnerOp → Option Holdings
  | .socket _ _ _ _ (.fd n) => if v.isOpen n then none else some ((v.openFd n).add registered n)
  | .socket _ _ _ _ (.failed e) => if e = 0 then none else some (v.add registered invalidFd)
  | .adopt _ _ _ fd _ => some (v.add registered fd)
  | .move other => do
      let h ← v.slot other
      return { v with
        objects := Function.update (Function.update v.objects other (some none)) v.fresh
          (some (some h))
        fresh := v.fresh + 1 }
  | .assign o other => do
      let h ← v.slot other
      let objects := Function.update v.objects other (some none)
      let old ← objects o
      return { v.discard closes old with objects := Function.update objects o (some (some h)) }
  | .close o => (v.objects o).map fun
      | some h => v.closeSlot h
      | none => v
  | .destroy o => (v.objects o).map fun pimpl =>
      { v.discard true pimpl with objects := Function.update v.objects o none }
  | .opens n => if v.isOpen n then none else some (v.openFd n)

/-- The object that a move assignment replaces has no open descriptor. -/
def Spares (v : Holdings) : OwnerOp → Prop
  | .assign o other => ∀ h fd, o ≠ other → v.objects o = some (some h) → v.fds h = some fd →
      fd ≠ invalidFd → v.isOpen fd = false
  | _ => True

theorem spares_assign_iff {v : Holdings} {o other : Nat} :
    (o = other ∨ ∀ fd ∈ (v.objects o).join.bind v.fds, fd = invalidFd ∨ v.isOpen fd = false) ↔
      v.Spares (.assign o other) := by
  constructor
  · intro h x fd hne ho hfd hvalid
    refine ((h.resolve_left hne) fd ?_).resolve_left hvalid
    rw [ho, Option.join_some, Option.bind_some]
    exact hfd
  · intro h
    by_cases hself : o = other
    · exact .inl hself
    · refine .inr fun fd hmem => ?_
      obtain ⟨x, hx, hfd⟩ := Option.bind_eq_some_iff.mp hmem
      by_cases hvalid : fd = invalidFd
      · exact .inl hvalid
      · exact .inr (h x fd hself (Option.join_eq_some_iff.mp hx) hfd hvalid)

instance (v : Holdings) : (op : OwnerOp) → Decidable (v.Spares op)
  | .assign _ _ => decidable_of_iff _ spares_assign_iff
  | .socket .. | .adopt .. | .move _ | .close _ | .destroy _ | .opens _ => .isTrue trivial

theorem slot_of_objects {v : Holdings} {o h : Nat} {fd : Int} (hobj : v.objects o = some (some h))
    (hfd : v.fds h = some fd) : v.slot o = some h := by
  simp [slot, hobj, hfd]

/-- The parts of a move assignment, one after the other. -/
theorem step_assign {v u : Holdings} {closes registered : Bool} {o other h : Nat}
    {old : Option Nat} (hslot : v.slot other = some h)
    (hold : Function.update v.objects other (some none) o = some old)
    (hu : u =
      discard { v with objects := Function.update v.objects other (some none) } closes old) :
    v.step closes registered (.assign o other) =
      some { u with objects := Function.update u.objects o (some (some h)) } := by
  rw [discard_with] at hu
  subst hu
  simp only [step, hslot, hold, Option.bind_eq_bind, Option.bind_some]
  rfl

/-- Only the descriptors in the slots count. -/
theorem map_update_same {π : Type} (fd : π → Int) {pimpls : Nat → Option π} {h : Nat} {p : π}
    (hp : pimpls h = some p) (q : π) (hq : fd q = fd p) :
    Option.map fd ∘ Function.update pimpls h (some q) = Option.map fd ∘ pimpls := by
  have hfd : (some q).map fd = (Option.map fd ∘ pimpls) h := by simp [hp, hq]
  rw [Function.comp_update, hfd, Function.update_eq_self]

/-! ### What the operations change -/

section
variable {v u v' u' : Holdings} {o other h : Nat}

theorem slot_some (hs : v.slot o = some h) : v.objects o = some (some h) := by
  obtain ⟨x, hobj, hrest⟩ := Option.bind_eq_some_iff.mp hs
  obtain ⟨fd, -, hret⟩ := Option.bind_eq_some_iff.mp hrest
  cases hret
  exact Option.join_eq_some_iff.mp hobj

theorem openFd_isOpen (hopen : v.isOpen = u.isOpen) (n : Nat) :
    (v.openFd n).isOpen = (u.openFd n).isOpen := by
  unfold openFd
  rw [hopen]

@[simp] theorem add_isOpen (v : Holdings) (registered : Bool) (fd : Int) :
    (v.add registered fd).isOpen = v.isOpen := by
  cases registered <;> rfl

@[simp] theorem closeSlot_objects (v : Holdings) (h : Nat) :
    (v.closeSlot h).objects = v.objects := by
  unfold closeSlot
  split
  · split <;> rfl
  · rfl

@[simp] theorem closeSlot_fresh (v : Holdings) (h : Nat) : (v.closeSlot h).fresh = v.fresh := by
  unfold closeSlot
  split
  · split <;> rfl
  · rfl

theorem closeSlot_fds_self (v : Holdings) (h : Nat) :
    (v.closeSlot h).fds h = (v.fds h).map fun _ => invalidFd := by
  unfold closeSlot
  split
  · rename_i fd hfd
    split
    · rename_i hinvalid
      rw [hfd, hinvalid]
      rfl
    · rw [hfd]
      exact Function.update_self ..
  · rename_i hnone
    rw [hnone]
    rfl

theorem closeSlot_fds_of_ne {x : Nat} (hx : x ≠ h) : (v.closeSlot h).fds x = v.fds x := by
  unfold closeSlot
  split
  · split
    · rfl
    · exact Function.update_of_ne hx ..
  · rfl

/-- The same descriptor in the slot, the same set afterwards. -/
theorem closeSlot_isOpen (hfds : v.fds h = u.fds h) (hopen : v.isOpen = u.isOpen) :
    (v.closeSlot h).isOpen = (u.closeSlot h).isOpen := by
  unfold closeSlot
  rw [hfds]
  split
  · split
    · exact hopen
    · exact congrArg (Function.update · _ false) hopen
  · exact hopen

/-- **Closing a slot that has an open descriptor is seen from outside.** -/
theorem closeSlot_isOpen_iff (v : Holdings) (h : Nat) : (v.closeSlot h).isOpen = v.isOpen ↔
    ∀ fd, v.fds h = some fd → fd ≠ invalidFd → v.isOpen fd = false := by
  unfold closeSlot
  split
  · rename_i fd hfd
    split
    · rename_i hinvalid
      refine iff_of_true rfl fun fd' hfd' hvalid => ?_
      obtain rfl := Option.some.inj (hfd.symm.trans hfd')
      exact absurd hinvalid hvalid
    · rename_i hvalid
      rw [Function.update_eq_self_iff]
      constructor
      · intro hclosed fd' hfd' _
        obtain rfl := Option.some.inj (hfd.symm.trans hfd')
        exact hclosed.symm
      · intro hclosed
        exact (hclosed fd hfd hvalid).symm
  · rename_i hnone
    exact iff_of_true rfl fun fd hfd => nomatch hnone.symm.trans hfd

@[simp] theorem discard_fresh (v : Holdings) (closes : Bool) (old : Option Nat) :
    (v.discard closes old).fresh = v.fresh := by
  cases old with
  | none => rfl
  | some h => cases closes <;> simp [discard]

theorem discard_fds_of_ne {closes : Bool} {old : Option Nat} {x : Nat} (hx : old ≠ some x) :
    (v.discard closes old).fds x = v.fds x := by
  cases old with
  | none => rfl
  | some h =>
    have hne : x ≠ h := fun heq => hx (by rw [heq])
    refine (Function.update_of_ne hne ..).trans ?_
    cases closes with
    | false => rfl
    | true => exact closeSlot_fds_of_ne hne

/-! ### Two backends side by side -/

/-- Every object of the second is one of the first, and owns a slot with the same
descriptor.  The first may have more: its constructor does not throw. -/
structure Alike (v u : Holdings) : Prop where
  fresh : u.fresh = v.fresh
  objects : ∀ {o x}, u.objects o = some x → v.objects o = some x
  fds : ∀ {o h}, u.objects o = some (some h) → v.fds h = u.fds h
  unique : ∀ {o o' h}, u.objects o = some (some h) → u.objects o' = some (some h) → o = o'
  below : ∀ {o x}, u.objects o = some x → o < u.fresh ∧ ∀ h ∈ x, h < u.fresh

theorem Alike.openFd (ha : Alike v u) (n : Nat) : Alike (v.openFd n) (u.openFd n) :=
  ⟨ha.fresh, ha.objects, ha.fds, ha.unique, ha.below⟩

theorem Alike.add (ha : Alike v u) (registered : Bool) (fd : Int) :
    Alike (v.add true fd) (u.add registered fd) := by
  have hfresh := ha.fresh
  cases registered with
  | false =>
    -- the new object is one of the first only
    refine ⟨congrArg (· + 1) hfresh, fun {o x} ho => ?_, fun {o h} ho => ?_, ha.unique,
      fun {o x} ho => ?_⟩
    · have hlt := (ha.below ho).1
      show Function.update v.objects v.fresh _ o = some x
      rw [Function.update_of_ne (by omega)]
      exact ha.objects ho
    · have hlt := (ha.below ho).2 h rfl
      show Function.update v.fds v.fresh _ h = u.fds h
      rw [Function.update_of_ne (by omega)]
      exact ha.fds ho
    · obtain ⟨hlt, hslot⟩ := ha.below ho
      exact ⟨Nat.lt_succ_of_lt hlt, fun h hh => Nat.lt_succ_of_lt (hslot h hh)⟩
  | true =>
    have hnew : ∀ {o x}, Function.update u.objects u.fresh (some (some u.fresh)) o = some x →
        o = u.fresh ∧ x = some u.fresh ∨ o ≠ u.fresh ∧ u.objects o = some x := by
      intro o x ho
      by_cases heq : o = u.fresh
      · rw [heq, Function.update_self, Option.some.injEq] at ho
        exact .inl ⟨heq, ho.symm⟩
      · rw [Function.update_of_ne heq] at ho
        exact .inr ⟨heq, ho⟩
    refine ⟨congrArg (· + 1) hfresh, fun {o x} ho => ?_, fun {o h} ho => ?_,
      fun {o o' h} ho ho' => ?_, fun {o x} ho => ?_⟩
    · show Function.update v.objects v.fresh (some (some v.fresh)) o = some x
      rcases hnew ho with ⟨rfl, rfl⟩ | ⟨hne, ho⟩
      · rw [hfresh, Function.update_self]
      · rw [Function.update_of_ne (hfresh ▸ hne)]
        exact ha.objects ho
    · show Function.update v.fds v.fresh (some fd) h = Function.update u.fds u.fresh (some fd) h
      rcases hnew ho with ⟨-, hx⟩ | ⟨-, ho⟩
      · rw [Option.some.inj hx, hfresh, Function.update_self, Function.update_self]
      · have hlt := (ha.below ho).2 h rfl
        rw [Function.update_of_ne (by omega), Function.update_of_ne (by omega)]
        exact ha.fds ho
    · rcases hnew ho with ⟨rfl, hx⟩ | ⟨-, ho⟩ <;> rcases hnew ho' with ⟨rfl, hx'⟩ | ⟨-, ho'⟩
      · rfl
      · exact absurd ((ha.below ho').2 h rfl) (by rw [Option.some.inj hx]; exact Nat.lt_irrefl _)
      · exact absurd ((ha.below ho).2 h rfl) (by rw [Option.some.inj hx']; exact Nat.lt_irrefl _)
      · exact ha.unique ho ho'
    · rcases hnew ho with ⟨rfl, rfl⟩ | ⟨-, ho⟩
      · refine ⟨Nat.lt_succ_self _, fun h hh => ?_⟩
        obtain rfl := Option.some.inj hh
        exact Nat.lt_succ_self _
      · obtain ⟨hlt, hslot⟩ := ha.below ho
        exact ⟨Nat.lt_succ_of_lt hlt, fun h hh => Nat.lt_succ_of_lt (hslot h hh)⟩

theorem Alike.same_slot {h' : Nat} (ha : Alike v u) (hu : u.slot o = some h)
    (hv : v.slot o = some h') : h = h' :=
  Option.some.inj (Option.some.inj ((ha.objects (slot_some hu)).symm.trans (slot_some hv)))

/-- A slot goes from one object to another. -/
theorem Alike.hand (ha : Alike v u) (hother : u.objects other = some (some h))
    (hv : v'.objects = Function.update (Function.update v.objects other (some none)) o
      (some (some h)))
    (hu : u'.objects = Function.update (Function.update u.objects other (some none)) o
      (some (some h)))
    (hfresh : u'.fresh = v'.fresh) (hle : u.fresh ≤ u'.fresh) (ho : o < u'.fresh)
    (hfds : ∀ {x y}, x ≠ o ∨ x = other → u.objects x = some (some y) → v'.fds y = u'.fds y) :
    Alike v' u' := by
  have hnew : ∀ {x y}, u'.objects x = some y →
      x = o ∧ y = some h ∨ x ≠ o ∧ x = other ∧ y = none ∨
        x ≠ o ∧ x ≠ other ∧ u.objects x = some y := by
    intro x y hx
    rw [hu] at hx
    by_cases hxo : x = o
    · rw [hxo, Function.update_self, Option.some.injEq] at hx
      exact .inl ⟨hxo, hx.symm⟩
    · rw [Function.update_of_ne hxo] at hx
      by_cases hxother : x = other
      · rw [hxother, Function.update_self, Option.some.injEq] at hx
        exact .inr (.inl ⟨hxo, hxother, hx.symm⟩)
      · rw [Function.update_of_ne hxother] at hx
        exact .inr (.inr ⟨hxo, hxother, hx⟩)
  refine ⟨hfresh, fun {x y} hx => ?_, fun {x y} hx => ?_, fun {x x' y} hx hx' => ?_,
    fun {x y} hx => ?_⟩
  · rw [hv]
    rcases hnew hx with ⟨rfl, rfl⟩ | ⟨hxo, rfl, rfl⟩ | ⟨hxo, hxother, hx⟩
    · rw [Function.update_self]
    · rw [Function.update_of_ne hxo, Function.update_self]
    · rw [Function.update_of_ne hxo, Function.update_of_ne hxother]
      exact ha.objects hx
  · rcases hnew hx with ⟨-, hy⟩ | ⟨-, -, hy⟩ | ⟨hxo, -, hx⟩
    · rw [Option.some.inj hy]
      exact hfds (.inr rfl) hother
    · cases hy
    · exact hfds (.inl hxo) hx
  · rcases hnew hx with ⟨rfl, hy⟩ | ⟨-, -, hy⟩ | ⟨hxo, hxother, hx⟩
    · rcases hnew hx' with ⟨rfl, -⟩ | ⟨-, -, hy'⟩ | ⟨-, hxother', hx'⟩
      · rfl
      · cases hy'
      · rw [Option.some.inj hy] at hx'
        exact absurd (ha.unique hx' hother) hxother'
    · cases hy
    · rcases hnew hx' with ⟨rfl, hy'⟩ | ⟨-, -, hy'⟩ | ⟨-, -, hx'⟩
      · rw [Option.some.inj hy'] at hx
        exact absurd (ha.unique hx hother) hxother
      · cases hy'
      · exact ha.unique hx hx'
  · rcases hnew hx with ⟨rfl, rfl⟩ | ⟨-, rfl, rfl⟩ | ⟨-, -, hx⟩
    · refine ⟨ho, fun z hz => ?_⟩
      obtain rfl := Option.some.inj hz
      exact Nat.lt_of_lt_of_le ((ha.below hother).2 h rfl) hle
    · exact ⟨Nat.lt_of_lt_of_le (ha.below hother).1 hle, fun z hz => nomatch hz⟩
    · obtain ⟨hlt, hslot⟩ := ha.below hx
      exact ⟨Nat.lt_of_lt_of_le hlt hle, fun z hz => Nat.lt_of_lt_of_le (hslot z hz) hle⟩

/-- An object closes its slot. -/
theorem Alike.closeSlot (ha : Alike v u) (ho : u.objects o = some (some h)) :
    Alike (v.closeSlot h) (u.closeSlot h) := by
  refine ⟨?_, fun {x y} hx => ?_, fun {x y} hx => ?_, fun {x x' y} hx hx' => ?_,
    fun {x y} hx => ?_⟩
  · rw [closeSlot_fresh, closeSlot_fresh]
    exact ha.fresh
  · rw [closeSlot_objects] at hx ⊢
    exact ha.objects hx
  · rw [closeSlot_objects] at hx
    by_cases hy : y = h
    · rw [hy, closeSlot_fds_self, closeSlot_fds_self, ha.fds ho]
    · rw [closeSlot_fds_of_ne hy, closeSlot_fds_of_ne hy]
      exact ha.fds hx
  · rw [closeSlot_objects] at hx hx'
    exact ha.unique hx hx'
  · rw [closeSlot_objects] at hx
    rw [closeSlot_fresh]
    exact ha.below hx

/-- An object goes, with its slot. -/
theorem Alike.remove (ha : Alike v u) {pimpl : Option Nat} (ho : u.objects o = some pimpl) :
    Alike { v.discard true pimpl with objects := Function.update v.objects o none }
      { u.discard true pimpl with objects := Function.update u.objects o none } := by
  have hleft : ∀ {x y}, Function.update u.objects o none x = some y →
      x ≠ o ∧ u.objects x = some y := by
    intro x y hx
    by_cases hxo : x = o
    · rw [hxo, Function.update_self] at hx
      cases hx
    · rw [Function.update_of_ne hxo] at hx
      exact ⟨hxo, hx⟩
  refine ⟨?_, fun {x y} hx => ?_, fun {x y} hx => ?_,
    fun hx hx' => ha.unique (hleft hx).2 (hleft hx').2, fun {x y} hx => ?_⟩
  · show Holdings.fresh _ = Holdings.fresh _
    rw [discard_fresh, discard_fresh]
    exact ha.fresh
  · show Function.update v.objects o none x = some y
    rw [Function.update_of_ne (hleft hx).1]
    exact ha.objects (hleft hx).2
  · have hne : pimpl ≠ some y := by
      rintro rfl
      exact (hleft hx).1 (ha.unique (hleft hx).2 ho)
    show Holdings.fds _ y = Holdings.fds _ y
    rw [discard_fds_of_ne hne, discard_fds_of_ne hne]
    exact ha.fds (hleft hx).2
  · show _ < Holdings.fresh _ ∧ ∀ z ∈ y, z < Holdings.fresh _
    rw [discard_fresh]
    exact ha.below (hleft hx).2

/-- Move assignment. -/
theorem Alike.assign (ha : Alike v u) (hother : u.objects other = some (some h))
    {old : Option Nat} (hold : Function.update u.objects other (some none) o = some old) :
    Alike
      { v.discard true old with
        objects := Function.update (Function.update v.objects other (some none)) o
          (some (some h)) }
      { u.discard false old with
        objects := Function.update (Function.update u.objects other (some none)) o
          (some (some h)) } := by
  have ho : o < u.fresh ∧ (o ≠ other → u.objects o = some old) := by
    by_cases heq : o = other
    · exact ⟨heq ▸ (ha.below hother).1, fun hne => absurd heq hne⟩
    · rw [Function.update_of_ne heq] at hold
      exact ⟨(ha.below hold).1, fun _ => hold⟩
  refine ha.hand hother rfl rfl ?_ (Nat.le_of_eq (discard_fresh ..).symm) ?_
      fun {x y} hx hslot => ?_
  · show Holdings.fresh _ = Holdings.fresh _
    rw [discard_fresh, discard_fresh]
    exact ha.fresh
  · show o < Holdings.fresh _
    rw [discard_fresh]
    exact ho.1
  · -- the slot that is deleted was owned by `o`, and by nobody else
    have hne : old ≠ some y := by
      rintro rfl
      by_cases heq : o = other
      · rw [heq, Function.update_self] at hold
        cases hold
      · have hox := ha.unique (ho.2 heq) hslot
        rcases hx with hx | hx
        · exact hx hox.symm
        · exact heq (hox.trans hx)
    show Holdings.fds _ y = Holdings.fds _ y
    rw [discard_fds_of_ne hne, discard_fds_of_ne hne]
    exact ha.fds hslot

/-- What the first closes, the second does not. -/
theorem Alike.assign_isOpen (ha : Alike v u) {old : Option Nat}
    (hold : Function.update u.objects other (some none) o = some old)
    (hopen : v.isOpen = u.isOpen) :
    (v.discard true old).isOpen = (u.discard false old).isOpen ↔ u.Spares (.assign o other) := by
  cases old with
  | none =>
    refine iff_of_true hopen fun h fd hne ho => ?_
    rw [Function.update_of_ne hne, ho] at hold
    cases hold
  | some z =>
    have hne : o ≠ other := by
      rintro rfl
      rw [Function.update_self] at hold
      cases hold
    rw [Function.update_of_ne hne] at hold
    have hseen := closeSlot_isOpen_iff v z
    rw [ha.fds hold, hopen] at hseen
    refine hseen.trans ⟨fun hclosed h fd _ ho hfd hvalid => ?_, fun hspares fd hfd hvalid =>
      hspares z fd hne hold hfd hvalid⟩
    obtain rfl : z = h := Option.some.inj (Option.some.inj (hold.symm.trans ho))
    exact hclosed fd hfd hvalid

/-- **Two backends stay alike**, and if they have the same descriptors open, they still do
after the step exactly if no open one was replaced. -/
theorem Alike.step (ha : Alike v u) {registered : Bool} {op : OwnerOp}
    (hv : v.step true true op = some v') (hu : u.step false registered op = some u') :
    Alike v' u' ∧ (v.isOpen = u.isOpen → (v'.isOpen = u'.isOpen ↔ u.Spares op)) := by
  cases op with
  | socket domain type protocol callbacks a =>
    cases a with
    | fd n =>
      simp only [Holdings.step] at hv hu
      split at hv <;> cases hv
      split at hu <;> cases hu
      refine ⟨(ha.openFd n).add .., fun hopen => iff_of_true ?_ trivial⟩
      rw [add_isOpen, add_isOpen]
      exact openFd_isOpen hopen n
    | failed e =>
      simp only [Holdings.step] at hv hu
      split at hv <;> cases hv
      split at hu <;> cases hu
      refine ⟨ha.add .., fun hopen => iff_of_true ?_ trivial⟩
      rw [add_isOpen, add_isOpen]
      exact hopen
  | adopt domain type protocol fd callbacks =>
    cases hv
    cases hu
    refine ⟨ha.add .., fun hopen => iff_of_true ?_ trivial⟩
    rw [add_isOpen, add_isOpen]
    exact hopen
  | move other =>
    obtain ⟨h, hslot, hret⟩ := Option.bind_eq_some_iff.mp hu
    obtain ⟨h', hslot', hret'⟩ := Option.bind_eq_some_iff.mp hv
    cases hret
    cases hret'
    have hother := slot_some hslot
    obtain rfl := ha.same_slot hslot hslot'
    refine ⟨ha.hand hother (o := u.fresh) ?_ rfl (congrArg (· + 1) ha.fresh) (Nat.le_succ _)
      (Nat.lt_succ_self _) fun _ hx => ha.fds hx, fun hopen => iff_of_true hopen trivial⟩
    rw [ha.fresh]
  | assign o other =>
    obtain ⟨h, hslot, hrest⟩ := Option.bind_eq_some_iff.mp hu
    obtain ⟨old, hold, hret⟩ := Option.bind_eq_some_iff.mp hrest
    obtain ⟨h', hslot', hrest'⟩ := Option.bind_eq_some_iff.mp hv
    obtain ⟨old', hold', hret'⟩ := Option.bind_eq_some_iff.mp hrest'
    cases hret
    cases hret'
    have hother := slot_some hslot
    obtain rfl := ha.same_slot hslot hslot'
    have heq : old = old' := by
      by_cases hself : o = other
      · rw [hself, Function.update_self] at hold hold'
        exact Option.some.inj (hold.symm.trans hold')
      · rw [Function.update_of_ne hself] at hold hold'
        exact Option.some.inj ((ha.objects hold).symm.trans hold')
    subst heq
    exact ⟨ha.assign hother hold, fun hopen => ha.assign_isOpen hold hopen⟩
  | close o =>
    obtain ⟨pimpl, ho, hret⟩ := Option.map_eq_some_iff.mp hu
    obtain ⟨pimpl', ho', hret'⟩ := Option.map_eq_some_iff.mp hv
    obtain rfl : pimpl = pimpl' := Option.some.inj ((ha.objects ho).symm.trans ho')
    cases pimpl with
    | none =>
      cases hret
      cases hret'
      exact ⟨ha, fun hopen => iff_of_true hopen trivial⟩
    | some h =>
      cases hret
      cases hret'
      exact ⟨ha.closeSlot ho, fun hopen => iff_of_true (closeSlot_isOpen (ha.fds ho) hopen) trivial⟩
  | destroy o =>
    obtain ⟨pimpl, ho, hret⟩ := Option.map_eq_some_iff.mp hu
    obtain ⟨pimpl', ho', hret'⟩ := Option.map_eq_some_iff.mp hv
    obtain rfl : pimpl = pimpl' := Option.some.inj ((ha.objects ho).symm.trans ho')
    cases hret
    cases hret'
    refine ⟨ha.remove ho, fun hopen => iff_of_true ?_ trivial⟩
    cases pimpl with
    | none => exact hopen
    | some h => exact closeSlot_isOpen (ha.fds ho) hopen
  | opens n =>
    simp only [Holdings.step] at hv hu
    split at hv <;> cases hv
    split at hu <;> cases hu
    exact ⟨ha.openFd n, fun hopen => iff_of_true (openFd_isOpen hopen n) trivial⟩

end

end Holdings

/-! ## Linux -/

namespace Linux

/-- What the context holds. -/
def World.holdings (w : World) : Holdings where
  objects := w.objects
  fds := Option.map (·.fd) ∘ w.pimpls
  isOpen := w.kernel.isOpen
  fresh := w.fresh

namespace World
variable {w w' : World} {o h : Nat}

theorem holdings_slot {s : Socket} (hs : w.owned o = some s) : w.holdings.slot o = some s.this := by
  obtain ⟨p, hobj, hp, -⟩ := owned_iff.mp hs
  have hfd : w.holdings.fds s.this = some p.fd := by simp [holdings, hp]
  exact Holdings.slot_of_objects hobj hfd

theorem fds_own (hown : w.own o h = some w') :
    w'.holdings =
      { w.holdings with objects := Function.update w.holdings.objects o (some (some h)) } := by
  obtain ⟨p, hp, rfl⟩ := Option.map_eq_some_iff.mp hown
  have hfds := Holdings.map_update_same (·.fd) hp { p with parent := o } rfl
  exact congrArg (fun fds => { w.holdings with
    objects := Function.update w.objects o (some (some h)), fds := fds }) hfds

/-- Closing a pimpl closes its slot. -/
theorem holdings_close {p : SocketBasePimpl} (hp : w.pimpls h = some p) :
    { w with
      kernel := (Socket.close ⟨h, w.kernel, p⟩).kernel
      pimpls := Function.update w.pimpls h (some (Socket.close ⟨h, w.kernel, p⟩).pimpl)
      : World }.holdings = w.holdings.closeSlot h := by
  have hfds : w.holdings.fds h = some p.fd := by simp [holdings, hp]
  unfold Holdings.closeSlot Socket.close
  simp only [hfds]
  by_cases hfd : p.fd = Holdings.invalidFd
  · have hvalid : ¬ p.valid = true := by simpa [SocketBasePimpl.valid] using hfd
    rw [if_pos hfd, if_neg hvalid, ← hp, Function.update_eq_self]
  · have hvalid : p.valid = true := by simpa [SocketBasePimpl.valid] using hfd
    rw [if_neg hfd, if_pos hvalid]
    simp only [holdings, Function.comp_update]
    rfl

/-- The destructor of a pimpl closes. -/
theorem holdings_delete (w : World) (h : Nat) :
    (w.delete h).holdings = w.holdings.discard true (some h) := by
  cases hp : w.pimpls h with
  | none =>
    have hfds : w.holdings.fds h = none := by simp [holdings, hp]
    simp only [delete, hp, Holdings.discard, Holdings.closeSlot, hfds, if_true]
    rw [← hfds, Function.update_eq_self]
  | some p =>
    simp only [Holdings.discard, if_true]
    rw [← holdings_close hp]
    simp only [delete, hp, holdings, Function.comp_update, Option.map_none, Function.update_idem]

theorem holdings_reset (w : World) (pimpl : Option Nat) :
    (w.reset pimpl).1.holdings = w.holdings.discard true pimpl := by
  cases pimpl with
  | none => rfl
  | some h => exact holdings_delete w h

theorem holdings_construct (w : World) (domain type protocol fd : Int) (callbacks : Callbacks) :
    (w.construct domain type protocol fd callbacks).holdings = w.holdings.add true fd := by
  simp only [holdings, construct, Function.comp_update, Holdings.add, if_true]
  rfl

theorem holdings_closeObject {ns : List Note} (h : w.closeObject o = some (w', ns)) :
    w.holdings.step true true (.close o) = some w'.holdings := by
  obtain ⟨hobj, rfl, -⟩ | ⟨x, p, hobj, hp, -, rfl⟩ := closeObject_some h
  · exact Option.map_eq_some_iff.mpr ⟨none, hobj, rfl⟩
  · exact Option.map_eq_some_iff.mpr ⟨some x, hobj, (holdings_close hp).symm⟩

theorem holdings_assign {other : Nat} {ns : List Note} (h : w.assign o other = some (w', ns)) :
    w.holdings.step true true (.assign o other) = some w'.holdings := by
  obtain ⟨s, pimpl, hs, hobj, hown, -⟩ := assign_some h
  rw [fds_own hown]
  exact Holdings.step_assign (holdings_slot hs) hobj (holdings_reset (w.release other) pimpl)

theorem holdings_destruct {ns : List Note} (h : w.destruct o = some (w', ns)) :
    w.holdings.step true true (.destroy o) = some w'.holdings := by
  obtain ⟨pimpl, hobj, rfl, -⟩ := destruct_some h
  refine Option.map_eq_some_iff.mpr ⟨pimpl, hobj, ?_⟩
  rw [holdings_reset, ← Holdings.discard_with]
  rfl

end World

/-- **The Linux backend is the machine that closes what a move assignment deletes.** -/
theorem step_refines {w : World} {op : OwnerOp} {out : Next}
    (h : w.api op.op op.linuxAnswer = some out) :
    w.holdings.step true true op = some out.state.holdings := by
  have hs := stretch_of_api h
  cases op with
  | socket domain type protocol callbacks a =>
    cases hs with
    | socket hopens =>
      cases a with
      | fd n =>
        have hfree : w.holdings.isOpen n = false := hopens
        simp only [Holdings.step, hfree, Bool.false_eq_true, if_false]
        exact congrArg some (World.holdings_construct (w.openFd n) ..).symm
      | failed e =>
        simp only [Holdings.step]
        rw [if_neg hopens]
        exact congrArg some (World.holdings_construct (w.setErrno e) ..).symm
  | adopt domain type protocol fd callbacks =>
    cases hs with
    | adopt => exact congrArg some (World.holdings_construct ..).symm
  | move other =>
    cases hs with
    | move hs hown =>
      simp only [Holdings.step, World.holdings_slot hs, Option.bind_eq_bind, Option.bind_some]
      exact congrArg some (World.fds_own hown).symm
  | assign o other =>
    cases hs with
    | assign hassign => exact World.holdings_assign hassign
  | close o =>
    cases hs with
    | close hclose => exact World.holdings_closeObject hclose
  | destroy o =>
    cases hs with
    | destroy hdestruct => exact World.holdings_destruct hdestruct
  | opens n =>
    cases hs with
    | otherOpen hfree =>
      have hfree' : w.holdings.isOpen n = false := hfree
      simp only [Holdings.step, hfree', Bool.false_eq_true, if_false]
      rfl

end Linux

/-! ## macOS -/

namespace Macos

/-- What the context holds. -/
def World.holdings (w : World) : Holdings where
  objects := w.objects
  fds := Option.map (·.fd) ∘ w.pimpls
  isOpen := w.kernel.isOpen
  fresh := w.fresh

namespace World
variable {w w' : World} {o h : Nat}

theorem holdings_slot {s : Socket} (hs : w.owned o = some s) : w.holdings.slot o = some s.this := by
  obtain ⟨p, hobj, hp, -⟩ := owned_iff.mp hs
  have hfd : w.holdings.fds s.this = some p.fd := by simp [holdings, hp]
  exact Holdings.slot_of_objects hobj hfd

theorem fds_own (hown : w.own o h = some w') :
    w'.holdings =
      { w.holdings with objects := Function.update w.holdings.objects o (some (some h)) } := by
  obtain ⟨p, hp, rfl⟩ := own_some hown
  have hfds := Holdings.map_update_same (·.fd) hp { p with parent := o } rfl
  exact congrArg (fun fds => { w.holdings with
    objects := Function.update w.objects o (some (some h)), fds := fds }) hfds

/-- The destructor of a pimpl closes nothing. -/
theorem holdings_reset (w : World) (pimpl : Option Nat) :
    (w.reset pimpl).holdings = w.holdings.discard false pimpl := by
  cases pimpl with
  | none => rfl
  | some h =>
    unfold reset delete Holdings.discard
    simp only [holdings, Function.comp_update, Option.map_none, Bool.false_eq_true, if_false]

/-- A constructor that throws leaves no object behind. -/
theorem holdings_construct (w : World) (domain type protocol fd : Int) (callbacks : Callbacks)
    (refused : Option Nat) :
    (w.construct domain type protocol fd callbacks refused).1.holdings = w.holdings.add
      (w.construct domain type protocol fd callbacks refused).2 fd := by
  obtain ⟨e, heq⟩ | ⟨-, heq⟩ := construct_cases w domain type protocol fd callbacks refused
  · rw [heq]
    rfl
  · rw [heq]
    simp only [holdings, Function.comp_update, Holdings.add, if_true]
    rfl

theorem holdings_closeAt (w : World) (h : Nat) :
    (w.closeAt h).holdings = w.holdings.closeSlot h := by
  unfold Holdings.closeSlot
  obtain ⟨heq, hinvalid⟩ | ⟨p, hp, hvalid, heq⟩ := closeAt_cases w h
  · rw [heq]
    cases hp : w.pimpls h with
    | none => simp [holdings, hp]
    | some p =>
      have hfd : p.fd = Holdings.invalidFd := by
        simpa [SocketBasePimpl.valid] using hinvalid p hp
      simp [holdings, hp, hfd]
  · have hfds : w.holdings.fds h = some p.fd := by simp [holdings, hp]
    have hfd : p.fd ≠ Holdings.invalidFd := by simpa [SocketBasePimpl.valid] using hvalid
    rw [heq]
    simp only [hfds, if_neg hfd]
    simp only [holdings, Function.comp_update]
    rfl

/-- The destructor of an object closes, and then deletes. -/
theorem holdings_destroy (w : World) (o h : Nat) :
    (w.destroy o h).holdings =
      { w.holdings.discard true (some h) with objects := Function.update w.objects o none } := by
  show _ = { w.holdings.closeSlot h with
    objects := Function.update w.objects o none
    fds := Function.update (w.holdings.closeSlot h).fds h none }
  rw [← holdings_closeAt]
  unfold destroy delete
  simp only [holdings, Function.comp_update, Option.map_none]

theorem holdings_assign {other : Nat} (h : w.assign o other = some w') :
    w.holdings.step false true (.assign o other) = some w'.holdings := by
  obtain ⟨s, pimpl, hs, hobj, hown⟩ := assign_some h
  rw [fds_own hown]
  exact Holdings.step_assign (holdings_slot hs) hobj (holdings_reset (w.release other) pimpl)

theorem holdings_constructSocket {domain type protocol : Int} {callbacks : Callbacks}
    {refused : Option Nat} {a : Opened} (hopens : w.Opens a) :
    ∃ registered, w.holdings.step false registered (.socket domain type protocol callbacks a) =
      some (w.constructSocket domain type protocol callbacks refused a).1.holdings := by
  cases a with
  | fd n =>
    have hfree : w.holdings.isOpen n = false := hopens
    refine ⟨((w.openFd n).construct domain type protocol n callbacks refused).2, ?_⟩
    simp only [Holdings.step, hfree, Bool.false_eq_true, if_false]
    exact congrArg some (holdings_construct (w.openFd n) ..).symm
  | failed e =>
    refine ⟨((w.setErrno e).construct domain type protocol SocketBasePimpl.invalidFd callbacks
      refused).2, ?_⟩
    simp only [Holdings.step]
    rw [if_neg hopens]
    exact congrArg some (holdings_construct (w.setErrno e) ..).symm

end World

/-- **The macOS backend is the machine that does not.** -/
theorem step_refines {w : World} {op : OwnerOp} {refused : Option Nat} {out : Next}
    (h : w.api op.op (op.macosAnswer refused) = some out) :
    ∃ registered, w.holdings.step false registered op = some out.state.holdings := by
  have hs := stretch_of_api h
  cases op with
  | socket domain type protocol callbacks a =>
    cases hs with
    | socket hopens =>
      rw [World.constructed_state]
      exact World.holdings_constructSocket hopens
  | adopt domain type protocol fd callbacks =>
    cases hs with
    | adopt =>
      rw [World.constructed_state]
      exact ⟨_, congrArg some (World.holdings_construct ..).symm⟩
  | move other =>
    cases hs with
    | move hs hown =>
      refine ⟨true, ?_⟩
      simp only [Holdings.step, World.holdings_slot hs, Option.bind_eq_bind, Option.bind_some]
      exact congrArg some (World.fds_own hown).symm
  | assign o other =>
    cases hs with
    | assign hassign =>
      exact ⟨true, World.holdings_assign hassign⟩
  | close o =>
    cases hs with
    | close hclose =>
      obtain ⟨pimpl, hobj, rfl⟩ := Option.map_eq_some_iff.mp hclose
      refine ⟨true, Option.map_eq_some_iff.mpr ⟨pimpl, hobj, ?_⟩⟩
      cases pimpl with
      | none => rfl
      | some x => exact (World.holdings_closeAt w x).symm
  | destroy o =>
    cases hs with
    | destroy hdestruct =>
      obtain ⟨pimpl, hobj, rfl⟩ := Option.map_eq_some_iff.mp hdestruct
      refine ⟨true, Option.map_eq_some_iff.mpr ⟨pimpl, hobj, ?_⟩⟩
      cases pimpl with
      | none => rfl
      | some x => exact (World.holdings_destroy w o x).symm
  | opens n =>
    cases hs with
    | otherOpen hfree =>
      have hfree' : w.holdings.isOpen n = false := hfree
      refine ⟨true, ?_⟩
      simp only [Holdings.step, hfree', Bool.false_eq_true, if_false]
      rfl

end Macos

/-! ## Side by side -/

/-- The same operation on both, which both can perform, with the same descriptor handed
out; on macOS a filter may be refused. -/
def sideBySide (c : Linux.World × Macos.World) (e : OwnerOp × Option Nat) :
    Option (Linux.World × Macos.World) := do
  let l ← c.1.api e.1.op e.1.linuxAnswer
  let m ← c.2.api e.1.op (e.1.macosAnswer e.2)
  return (l.state, m.state)

/-- The same descriptors are open. -/
def SameOpen (c : Linux.World × Macos.World) : Prop := c.1.kernel.isOpen = c.2.kernel.isOpen

/-- A move assignment replaces no socket whose descriptor is open. -/
def Spares (c : Linux.World × Macos.World) (e : OwnerOp × Option Nat) : Prop :=
  c.2.holdings.Spares e.1

instance (c : Linux.World × Macos.World) (e : OwnerOp × Option Nat) : Decidable (Spares c e) :=
  inferInstanceAs (Decidable (c.2.holdings.Spares e.1))

theorem new_alike : Holdings.Alike Linux.World.new.holdings Macos.World.new.holdings := by
  refine ⟨rfl, ?_, ?_, ?_, ?_⟩
  · intro o x h
    cases h
  · intro o x h
    cases h
  · intro o o' x h
    cases h
  · intro o x h
    cases h

theorem alike_step {c c' : Linux.World × Macos.World} {e : OwnerOp × Option Nat}
    (ha : Holdings.Alike c.1.holdings c.2.holdings) (hstep : sideBySide c e = some c') :
    Holdings.Alike c'.1.holdings c'.2.holdings ∧ (SameOpen c → (SameOpen c' ↔ Spares c e)) := by
  obtain ⟨l, hl, hrest⟩ := Option.bind_eq_some_iff.mp hstep
  obtain ⟨m, hm, hret⟩ := Option.bind_eq_some_iff.mp hrest
  cases hret
  obtain ⟨registered, hmacos⟩ := Macos.step_refines hm
  exact ha.step (Linux.step_refines hl) hmacos

/-- **The two backends have the same descriptors open** throughout a run exactly if no move
assignment in it replaces a socket whose descriptor is still open. -/
theorem same_open_iff {es : List (OwnerOp × Option Nat)} {c : Linux.World × Macos.World}
    (hr : Runs.run sideBySide (Linux.World.new, Macos.World.new) es = some c) :
    Runs.Throughout sideBySide SameOpen (Linux.World.new, Macos.World.new) es ↔
      Runs.Along sideBySide Spares (Linux.World.new, Macos.World.new) es :=
  Runs.throughout_iff_along (J := fun c => Holdings.Alike c.1.holdings c.2.holdings)
    (fun _ _ _ ha hstep => (alike_step ha hstep).1)
    (fun _ _ _ ha hopen hstep => (alike_step ha hstep).2 hopen) new_alike rfl hr

/-- Two sockets; the first is closed, or not, and replaced by the second. -/
def replaceRun (closes : Bool) : List (OwnerOp × Option Nat) :=
  [(.socket 2 1 0 ⟨false, false, false, false, false, false⟩ (.fd 3), none),
    (.socket 2 1 0 ⟨false, false, false, false, false, false⟩ (.fd 4), none)] ++
  (if closes then [(.close 0, none)] else []) ++ [(.assign 0 1, none)]

/-- A socket that is closed first is replaced on both alike. -/
theorem same_open_replaced : ∃ c,
    Runs.run sideBySide (Linux.World.new, Macos.World.new) (replaceRun true) = some c ∧
      c.1.kernel.isOpen 4 = true ∧
      Runs.Throughout sideBySide SameOpen (Linux.World.new, Macos.World.new) (replaceRun true) := by
  obtain ⟨c, hr, hopen⟩ : ∃ c,
      Runs.run sideBySide (Linux.World.new, Macos.World.new) (replaceRun true) = some c ∧
        c.1.kernel.isOpen 4 = true := Runs.exists_run (by decide)
  exact ⟨c, hr, hopen, (same_open_iff hr).mpr (by decide)⟩

/-- One that is not stays open on macOS, and nobody owns it any more. -/
theorem not_same_open : ∃ c,
    Runs.run sideBySide (Linux.World.new, Macos.World.new) (replaceRun false) = some c ∧
      c.1.kernel.isOpen 3 = false ∧ c.2.kernel.isOpen 3 = true ∧ c.2.pimpls 0 = none ∧
      ¬ Runs.Throughout sideBySide SameOpen (Linux.World.new, Macos.World.new)
        (replaceRun false) := by
  obtain ⟨c, hr, hlinux, hmacos, hgone⟩ : ∃ c,
      Runs.run sideBySide (Linux.World.new, Macos.World.new) (replaceRun false) = some c ∧
        c.1.kernel.isOpen 3 = false ∧ c.2.kernel.isOpen 3 = true ∧ c.2.pimpls 0 = none :=
    Runs.exists_run (by decide)
  refine ⟨c, hr, hlinux, hmacos, hgone, fun h => ?_⟩
  have hsame : SameOpen c := Runs.throughout_iff_prefix.mp h _ (List.prefix_refl _) c hr
  have hthree := congrFun hsame 3
  rw [hlinux, hmacos] at hthree
  cases hthree

end AcppNetwork
