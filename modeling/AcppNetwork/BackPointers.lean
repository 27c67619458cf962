import Mathlib

/-!
# Owners and back pointers

Objects (`ω`) own items (`ι`), at most one each, and every item that exists has a pointer
back to the object that is to own it, its parent.  Objects are made with an item, are
destroyed with it, and hand it over to each other.

The pool is `Mutual` if the two maps are inverse to each other: the parent of an item is
the one object that owns it.  Handing an item over keeps that if the parent is set, and
breaks it if it is forgotten; nothing else breaks it (`Deed.mutual_iff`).  Whatever is
forgotten, every item that exists has one owner (`Proper`).
-/
namespace BackPointers

variable {ω ι : Type}

/-- What each object owns, and the parent of each item that exists. -/
@[ext]
structure Pool (ω ι : Type) where
  owns : ω → Option ι
  parent : ι → Option ω

namespace Pool

/-- The parent of an item is the object that owns it. -/
def Mutual (s : Pool ω ι) : Prop := ∀ o x, s.owns o = some x ↔ s.parent x = some o

/-- Every item that exists has one owner, `m` of it. -/
def Proper (s : Pool ω ι) : Prop :=
  ∃ m : ι → Option ω, Mutual ⟨s.owns, m⟩ ∧ ∀ x, m x = none ↔ s.parent x = none

section
variable [DecidableEq ω] [DecidableEq ι]

/-- `o` is made, with the item `x`. -/
def create (s : Pool ω ι) (o : ω) (x : ι) : Pool ω ι :=
  ⟨Function.update s.owns o (some x), Function.update s.parent x (some o)⟩

/-- `o` is destroyed, with its item `x`. -/
def destroy (s : Pool ω ι) (o : ω) (x : ι) : Pool ω ι :=
  ⟨Function.update s.owns o none, Function.update s.parent x none⟩

/-- `o` hands its item `x` over to `o'`. -/
def handOver (s : Pool ω ι) (o o' : ω) (x : ι) : Pool ω ι :=
  ⟨Function.update (Function.update s.owns o none) o' (some x),
    Function.update s.parent x (some o')⟩

/-- The same, but the parent is forgotten. -/
def forget (s : Pool ω ι) (o o' : ω) (x : ι) : Pool ω ι :=
  { s.handOver o o' x with parent := s.parent }

end

variable {s s' : Pool ω ι} {o o' : ω} {x y : ι}

theorem mutual_empty : Mutual (⟨fun _ => none, fun _ => none⟩ : Pool ω ι) :=
  fun _ _ => ⟨fun h => (by cases h), fun h => (by cases h)⟩

theorem Mutual.proper (h : s.Mutual) : s.Proper := ⟨s.parent, h, fun _ => Iff.rfl⟩

theorem Proper.inj (h : s.Proper) (ho : s.owns o = some x) (ho' : s.owns o' = some x) :
    o = o' := by
  obtain ⟨m, hm, -⟩ := h
  exact Option.some.inj (((hm o x).mp ho).symm.trans ((hm o' x).mp ho'))

theorem Proper.exists (h : s.Proper) (ho : s.owns o = some x) : s.parent x ≠ none := by
  obtain ⟨m, hm, hdom⟩ := h
  intro hnone
  have hmx : m x = some o := (hm o x).mp ho
  rw [(hdom x).mpr hnone] at hmx
  cases hmx

/-- **The parent of an item is its owner**, said of each item that exists. -/
theorem Proper.mutual_iff (h : s.Proper) :
    s.Mutual ↔ ∀ x o, s.parent x = some o → ∀ o', s.owns o' = some x ↔ o' = o := by
  constructor
  · intro hm x o hx o'
    rw [hm o' x, hx, Option.some.injEq]
    exact eq_comm
  · intro hall o x
    constructor
    · intro ho
      obtain ⟨o', hx⟩ := Option.ne_none_iff_exists'.mp (h.exists ho)
      obtain rfl := (hall x o' hx o).mp ho
      exact hx
    · intro hx
      exact (hall x o hx o).mpr rfl

section
variable [DecidableEq ω] [DecidableEq ι]

/-- An object that owned nothing gets an item that did not exist. -/
theorem Mutual.create (h : s.Mutual) (ho : s.owns o = none) (hx : s.parent x = none) :
    (s.create o x).Mutual := by
  intro a z
  show Function.update s.owns o (some x) a = some z ↔ Function.update s.parent x (some o) z = some a
  by_cases ha : a = o
  · subst ha
    rw [Function.update_self, Option.some.injEq]
    by_cases hz : z = x
    · subst hz
      rw [Function.update_self]
      exact iff_of_true rfl rfl
    · rw [Function.update_of_ne hz, ← h a z, ho]
      exact iff_of_false (fun heq => hz heq.symm) (fun hnone => nomatch hnone)
  · rw [Function.update_of_ne ha]
    by_cases hz : z = x
    · subst hz
      rw [Function.update_self, h a z, hx, Option.some.injEq]
      exact iff_of_false (fun hnone => nomatch hnone) (fun heq => ha heq.symm)
    · rw [Function.update_of_ne hz]
      exact h a z

/-- An object goes with its item. -/
theorem Mutual.destroy (h : s.Mutual) (ho : s.owns o = some x) : (s.destroy o x).Mutual := by
  intro a z
  show Function.update s.owns o none a = some z ↔ Function.update s.parent x none z = some a
  have hx := (h o x).mp ho
  by_cases ha : a = o
  · subst ha
    rw [Function.update_self]
    refine iff_of_false (fun hnone => nomatch hnone) fun hz => ?_
    by_cases hzx : z = x
    · rw [hzx, Function.update_self] at hz
      cases hz
    · rw [Function.update_of_ne hzx, ← h a z, ho] at hz
      exact hzx (Option.some.inj hz).symm
  · rw [Function.update_of_ne ha]
    by_cases hz : z = x
    · subst hz
      rw [Function.update_self, h a z, hx, Option.some.injEq]
      exact iff_of_false (fun heq => ha heq.symm) (fun hnone => nomatch hnone)
    · rw [Function.update_of_ne hz]
      exact h a z

/-- To hand an item over is to destroy it with its owner, and to make it again. -/
theorem handOver_eq : s.handOver o o' x = (s.destroy o x).create o' x := by
  unfold Pool.handOver Pool.create Pool.destroy
  rw [Function.update_idem]

theorem Mutual.handOver (h : s.Mutual) (ho : s.owns o = some x) (ho' : s.owns o' = none) :
    (s.handOver o o' x).Mutual := by
  have hfree : (s.destroy o x).owns o' = none := by
    show Function.update s.owns o none o' = none
    rw [Function.update_apply]
    split
    · rfl
    · exact ho'
  rw [handOver_eq]
  exact (h.destroy ho).create hfree (Function.update_self ..)

/-- The old item of the object that `x` is handed over to goes first. -/
theorem Mutual.replace (h : s.Mutual) (hne : o ≠ o') (ho : s.owns o = some x)
    (ho' : s.owns o' = some y) : ((s.destroy o' y).handOver o o' x).Mutual := by
  refine (h.destroy ho').handOver ?_ (Function.update_self ..)
  show Function.update s.owns o' none o = some x
  rw [Function.update_of_ne hne]
  exact ho

end

/-! ## What can become of a pool -/

/-- What a step does to the pool; `good` is that it forgets no parent. -/
inductive Deed [DecidableEq ω] [DecidableEq ι] (s s' : Pool ω ι) (good : Prop) : Prop where
  | keeps (hs' : s' = s) (hgood : good)
  | creates (o : ω) (x : ι) (ho : s.owns o = none) (hx : s.parent x = none)
      (hs' : s' = s.create o x) (hgood : good)
  | destroys (o : ω) (x : ι) (ho : s.owns o = some x) (hs' : s' = s.destroy o x) (hgood : good)
  | moves (o o' : ω) (x : ι) (ho : s.owns o = some x) (ho' : s.owns o' = none)
      (hs' : s' = s.handOver o o' x) (hgood : good)
  | replaces (o o' : ω) (x y : ι) (hne : o ≠ o') (ho : s.owns o = some x)
      (ho' : s.owns o' = some y) (hs' : s' = (s.destroy o' y).handOver o o' x) (hgood : good)
  | forgets (o o' : ω) (x : ι) (ho : s.owns o = some x) (ho' : s.owns o' = none)
      (hs' : s' = s.forget o o' x) (hgood : ¬ good)

/-- Two maps that are defined at the same items still are when both change at `x`. -/
theorem update_none_iff [DecidableEq ι] {m m' : ι → Option ω} (hdom : ∀ z, m z = none ↔ m' z = none)
    {v v' : Option ω} (hv : v = none ↔ v' = none) (z : ι) :
    Function.update m x v z = none ↔ Function.update m' x v' z = none := by
  by_cases hz : z = x
  · subst hz
    rw [Function.update_self, Function.update_self]
    exact hv
  · rw [Function.update_of_ne hz, Function.update_of_ne hz]
    exact hdom z

variable [DecidableEq ω] [DecidableEq ι] {good : Prop}

/-- **Every item keeps one owner**, whatever is forgotten. -/
theorem Proper.deed (h : s.Proper) (hd : Deed s s' good) : s'.Proper := by
  obtain ⟨m, hm, hdom⟩ := h
  cases hd with
  | keeps hs' => exact hs' ▸ ⟨m, hm, hdom⟩
  | creates o x ho hx hs' =>
    subst hs'
    have hmade := hm.create ho ((hdom x).mpr hx)
    exact ⟨_, hmade, update_none_iff hdom (by simp)⟩
  | destroys o x ho hs' =>
    subst hs'
    have hgone := hm.destroy ho
    exact ⟨_, hgone, update_none_iff hdom Iff.rfl⟩
  | moves o o' x ho ho' hs' =>
    subst hs'
    have hmoved := hm.handOver ho ho'
    exact ⟨_, hmoved, update_none_iff hdom (by simp)⟩
  | replaces o o' x y hne ho ho' hs' =>
    subst hs'
    have hmoved := hm.replace hne ho ho'
    exact ⟨_, hmoved, update_none_iff (update_none_iff hdom Iff.rfl) (by simp)⟩
  | forgets o o' x ho ho' hs' =>
    subst hs'
    have hmoved := hm.handOver ho ho'
    refine ⟨_, hmoved, fun z => ?_⟩
    show Function.update m x (some o') z = none ↔ s.parent z = none
    rw [← hdom z]
    by_cases hz : z = x
    · have hx : m x = some o := (hm o x).mp ho
      rw [hz, Function.update_self, hx]
      simp
    · rw [Function.update_of_ne hz]

/-- **The parents stay right exactly if** none is forgotten. -/
theorem Deed.mutual_iff (hd : Deed s s' good) (h : s.Mutual) : s'.Mutual ↔ good := by
  cases hd with
  | keeps hs' hgood => exact iff_of_true (hs' ▸ h) hgood
  | creates o x ho hx hs' hgood => exact iff_of_true (hs' ▸ h.create ho hx) hgood
  | destroys o x ho hs' hgood => exact iff_of_true (hs' ▸ h.destroy ho) hgood
  | moves o o' x ho ho' hs' hgood => exact iff_of_true (hs' ▸ h.handOver ho ho') hgood
  | replaces o o' x y hne ho ho' hs' hgood =>
    exact iff_of_true (hs' ▸ h.replace hne ho ho') hgood
  | forgets o o' x ho ho' hs' hgood =>
    subst hs'
    refine iff_of_false (fun h' => ?_) hgood
    -- the parent of `x` is still `o`, which owns nothing
    have hne : o ≠ o' := by
      rintro rfl
      rw [ho] at ho'
      cases ho'
    have howns := (h' o x).mpr ((h o x).mp ho)
    change Function.update (Function.update s.owns o none) o' (some x) o = some x at howns
    rw [Function.update_of_ne hne, Function.update_self] at howns
    cases howns

/-! ## Pools in tables -/

section
omit [DecidableEq ω] [DecidableEq ι]
variable {π : Type} {objects : ω → Option (Option ι)} {items : ι → Option π} {parent : π → ω}
  {p p' : π}

/-- The pool of a program that keeps its objects in one table, each with the item it owns, if
it owns one, and the items in another. -/
def ofTables (objects : ω → Option (Option ι)) (items : ι → Option π) (parent : π → ω) :
    Pool ω ι :=
  ⟨Option.join ∘ objects, Option.map parent ∘ items⟩

theorem ofTables_owns : (ofTables objects items parent).owns o = some x ↔
    objects o = some (some x) := Option.join_eq_some_iff

theorem ofTables_parent : (ofTables objects items parent).parent x = some o ↔
    ∃ p, items x = some p ∧ parent p = o := Option.map_eq_some_iff

/-- The pool is mutual if the parent of each item is the one object that owns it. -/
theorem mutual_ofTables (h : (ofTables objects items parent).Proper) :
    (ofTables objects items parent).Mutual ↔
      ∀ x p, items x = some p → ∀ o, objects o = some (some x) ↔ o = parent p := by
  rw [h.mutual_iff]
  constructor
  · intro hall x p hp o
    have howns : objects o = some (some x) ↔ (ofTables objects items parent).owns o = some x :=
      ofTables_owns.symm
    rw [howns]
    exact hall x (parent p) (ofTables_parent.mpr ⟨p, hp, rfl⟩) o
  · intro hall x o hx o'
    obtain ⟨p, hp, rfl⟩ := ofTables_parent.mp hx
    rw [ofTables_owns]
    exact hall x p hp o'

variable [DecidableEq ω] [DecidableEq ι]

theorem ofTables_create (hp : parent p = o) :
    ofTables (Function.update objects o (some (some x))) (Function.update items x (some p)) parent =
      (ofTables objects items parent).create o x := by
  unfold ofTables Pool.create
  rw [Function.comp_update, Function.comp_update, Option.map_some, hp]
  rfl

theorem ofTables_destroy :
    ofTables (Function.update objects o none) (Function.update items x none) parent =
      (ofTables objects items parent).destroy o x := by
  unfold ofTables Pool.destroy
  rw [Function.comp_update, Function.comp_update]
  rfl

theorem ofTables_handOver (hp : parent p = o') :
    ofTables (Function.update (Function.update objects o (some none)) o' (some (some x)))
        (Function.update items x (some p)) parent =
      (ofTables objects items parent).handOver o o' x := by
  unfold ofTables Pool.handOver
  rw [Function.comp_update, Function.comp_update, Function.comp_update, Option.map_some, hp]
  rfl

theorem ofTables_forget :
    ofTables (Function.update (Function.update objects o (some none)) o' (some (some x))) items
        parent = (ofTables objects items parent).forget o o' x := by
  unfold ofTables Pool.forget Pool.handOver
  rw [Function.comp_update, Function.comp_update]
  rfl

omit [DecidableEq ω] in
/-- An item changes, but not its parent. -/
theorem ofTables_item (hp : items x = some p) (hparent : parent p' = parent p) :
    ofTables objects (Function.update items x (some p')) parent =
      ofTables objects items parent := by
  unfold ofTables
  rw [Function.comp_update, Option.map_some, hparent, ← Option.map_some, ← hp]
  congr 1
  exact Function.update_eq_self x (Option.map parent ∘ items)

omit [DecidableEq ι] in
/-- An object changes that owns nothing. -/
theorem ofTables_object {v : Option (Option ι)} (ho : (objects o).join = none)
    (hv : v.join = none) :
    ofTables (Function.update objects o v) items parent = ofTables objects items parent := by
  unfold ofTables
  rw [Function.comp_update, hv, ← ho]
  congr 1
  exact Function.update_eq_self o (Option.join ∘ objects)

end

end Pool
end BackPointers
