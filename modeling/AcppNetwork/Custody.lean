import Mathlib

/-!
# Keepers and what they hold

Resources (`ρ`) are acquired and released by keepers (`κ`), each of which holds at most
one.  The `Books` say who holds what, and how often each resource was acquired and
released so far: a resource is a name, such as the number of a descriptor, that may be
given out again after its release.

The books are `Exact` if every resource is held by one keeper, who is the one that has
not released it yet, or by none, and then it was released as often as it was acquired:
nothing is held twice, lost, or released twice.
-/
namespace Custody

variable {κ ρ : Type}

@[ext]
structure Books (κ ρ : Type) where
  holds : κ → Option ρ
  acquired : ρ → Nat
  released : ρ → Nat

/-- What changes the books; what is lost was acquired, and nobody holds it. -/
inductive Entry (κ ρ : Type) where
  | acquire (k : κ) (r : ρ)
  | release (k : κ) (r : ρ)
  | lose (r : ρ)
  deriving DecidableEq

namespace Books

def new : Books κ ρ := ⟨fun _ => none, fun _ => 0, fun _ => 0⟩

def enter [DecidableEq κ] [DecidableEq ρ] (b : Books κ ρ) : Entry κ ρ → Books κ ρ
  | .acquire k r =>
      { b with
        holds := Function.update b.holds k (some r)
        acquired := Function.update b.acquired r (b.acquired r + 1) }
  | .release k r =>
      { b with
        holds := Function.update b.holds k none
        released := Function.update b.released r (b.released r + 1) }
  | .lose r => { b with acquired := Function.update b.acquired r (b.acquired r + 1) }

/-- The one keeper of `r` has it still to release. -/
def Held (b : Books κ ρ) (r : ρ) : Prop :=
  (∃ k, b.holds k = some r ∧ ∀ k', b.holds k' = some r → k' = k) ∧
    b.acquired r = b.released r + 1

/-- Nobody has `r`, and nobody has it to release. -/
def Free (b : Books κ ρ) (r : ρ) : Prop :=
  (∀ k, b.holds k ≠ some r) ∧ b.acquired r = b.released r

def Exact (b : Books κ ρ) : Prop := ∀ r, b.Held r ∨ b.Free r

variable {b : Books κ ρ} {k k' : κ} {r : ρ}

theorem exact_new : (new : Books κ ρ).Exact := fun _ => .inr ⟨fun _ h => (by cases h), rfl⟩

theorem Exact.unique (h : b.Exact) (hk : b.holds k = some r) (hk' : b.holds k' = some r) :
    k' = k := by
  rcases h r with ⟨⟨j, -, huniq⟩, -⟩ | ⟨hfree, -⟩
  · rw [huniq k hk, huniq k' hk']
  · exact absurd hk (hfree k)

theorem Exact.held (h : b.Exact) (hk : b.holds k = some r) :
    b.acquired r = b.released r + 1 := by
  rcases h r with hheld | ⟨hfree, -⟩
  · exact hheld.2
  · exact absurd hk (hfree k)

theorem Exact.free (h : b.Exact) (hnone : ∀ k, b.holds k ≠ some r) :
    b.acquired r = b.released r := by
  rcases h r with ⟨⟨k, hk, -⟩, -⟩ | hfree
  · exact absurd hk (hnone k)
  · exact hfree.2

/-- **When nobody holds anything, all was released.** -/
theorem Exact.released (h : b.Exact) (hnone : ∀ k, b.holds k = none) :
    b.acquired = b.released := by
  funext r
  refine h.free fun k hk => ?_
  rw [hnone k] at hk
  cases hk

/-- The keeper `k` hands what it holds, if anything, to `k'`. -/
def hand [DecidableEq κ] (b : Books κ ρ) (k k' : κ) : Books κ ρ :=
  { b with holds := Function.update (Function.update b.holds k none) k' (b.holds k) }

/-- **What one keeper has it may hand to one that has nothing.** -/
theorem Exact.hand [DecidableEq κ] (h : b.Exact) (hne : k ≠ k') (hnone : b.holds k' = none) :
    (b.hand k k').Exact := by
  have hgiver : (b.hand k k').holds k = none := by
    show Function.update (Function.update b.holds k none) k' (b.holds k) k = none
    rw [Function.update_of_ne hne, Function.update_self]
  have htaker : (b.hand k k').holds k' = b.holds k := Function.update_self ..
  have hother : ∀ j, j ≠ k → j ≠ k' → (b.hand k k').holds j = b.holds j := by
    intro j hj hj'
    show Function.update (Function.update b.holds k none) k' (b.holds k) j = b.holds j
    rw [Function.update_of_ne hj', Function.update_of_ne hj]
  intro r
  rcases h r with ⟨⟨j, hj, huniq⟩, hbalance⟩ | ⟨hfree, hbalance⟩
  · have hj' : j ≠ k' := by
      rintro rfl
      rw [hnone] at hj
      cases hj
    by_cases hjk : j = k
    · subst hjk
      refine .inl ⟨⟨k', htaker.trans hj, fun i hi => ?_⟩, hbalance⟩
      by_contra hik'
      by_cases hik : i = j
      · rw [hik, hgiver] at hi
        cases hi
      · exact hik (huniq i ((hother i hik hik').symm.trans hi))
    · refine .inl ⟨⟨j, (hother j hjk hj').trans hj, fun i hi => ?_⟩, hbalance⟩
      by_cases hik' : i = k'
      · rw [hik', htaker] at hi
        exact absurd (huniq k hi).symm hjk
      · by_cases hik : i = k
        · rw [hik, hgiver] at hi
          cases hi
        · exact huniq i ((hother i hik hik').symm.trans hi)
  · refine .inr ⟨fun i hi => ?_, hbalance⟩
    by_cases hik' : i = k'
    · rw [hik', htaker] at hi
      exact hfree k hi
    · by_cases hik : i = k
      · rw [hik, hgiver] at hi
        cases hi
      · exact hfree i ((hother i hik hik').symm.trans hi)

variable [DecidableEq κ] [DecidableEq ρ]

/-- **A keeper may acquire what nobody holds**, and nothing else. -/
theorem exact_acquire_iff (h : b.Exact) (hk : b.holds k = none) :
    (b.enter (.acquire k r)).Exact ↔ ∀ k', b.holds k' ≠ some r := by
  have hself : (b.enter (.acquire k r)).holds k = some r := Function.update_self ..
  have hother : ∀ j, j ≠ k → (b.enter (.acquire k r)).holds j = b.holds j :=
    fun j hj => Function.update_of_ne hj ..
  constructor
  · intro h' k' hk'
    have hne : k' ≠ k := by
      rintro rfl
      rw [hk] at hk'
      cases hk'
    exact hne (h'.unique hself ((hother k' hne).trans hk'))
  · intro hfree x
    by_cases hx : x = r
    · subst hx
      refine .inl ⟨⟨k, hself, fun j hj => ?_⟩, ?_⟩
      · by_contra hne
        exact hfree j ((hother j hne).symm.trans hj)
      · have hacquired : (b.enter (.acquire k x)).acquired x = b.acquired x + 1 :=
          Function.update_self ..
        rw [hacquired, h.free hfree]
        rfl
    · have hacquired : (b.enter (.acquire k r)).acquired x = b.acquired x :=
        Function.update_of_ne hx ..
      rcases h x with ⟨⟨j, hj, huniq⟩, hbalance⟩ | ⟨hnone, hbalance⟩
      · refine .inl ⟨⟨j, ?_, fun i hi => ?_⟩, hacquired.trans hbalance⟩
        · rw [hother j (by rintro rfl; rw [hk] at hj; cases hj)]
          exact hj
        · by_cases hik : i = k
          · subst hik
            rw [hself] at hi
            exact absurd (Option.some.inj hi).symm hx
          · exact huniq i ((hother i hik).symm.trans hi)
      · refine .inr ⟨fun i hi => ?_, hacquired.trans hbalance⟩
        by_cases hik : i = k
        · subst hik
          rw [hself] at hi
          exact hx (Option.some.inj hi).symm
        · exact hnone i ((hother i hik).symm.trans hi)

/-- What is held once `r` was acquired. -/
theorem holds_acquire_iff (hk : b.holds k = none) {x : ρ} :
    (∃ j, (b.enter (.acquire k r)).holds j = some x) ↔ x = r ∨ ∃ j, b.holds j = some x := by
  have hself : (b.enter (.acquire k r)).holds k = some r := Function.update_self ..
  have hother : ∀ j, j ≠ k → (b.enter (.acquire k r)).holds j = b.holds j :=
    fun j hj => Function.update_of_ne hj ..
  constructor
  · rintro ⟨j, hj⟩
    by_cases hjk : j = k
    · rw [hjk, hself] at hj
      exact .inl (Option.some.inj hj).symm
    · exact .inr ⟨j, (hother j hjk).symm.trans hj⟩
  · rintro (rfl | ⟨j, hj⟩)
    · exact ⟨k, hself⟩
    · refine ⟨j, (hother j ?_).trans hj⟩
      rintro rfl
      rw [hk] at hj
      cases hj

/-- What is held once the keeper of `r` released it. -/
theorem holds_release_iff (h : b.Exact) (hk : b.holds k = some r) {x : ρ} :
    (∃ j, (b.enter (.release k r)).holds j = some x) ↔ x ≠ r ∧ ∃ j, b.holds j = some x := by
  have hself : (b.enter (.release k r)).holds k = none := Function.update_self ..
  have hother : ∀ j, j ≠ k → (b.enter (.release k r)).holds j = b.holds j :=
    fun j hj => Function.update_of_ne hj ..
  constructor
  · rintro ⟨j, hj⟩
    have hjk : j ≠ k := by
      rintro rfl
      rw [hself] at hj
      cases hj
    have hold := (hother j hjk).symm.trans hj
    refine ⟨?_, j, hold⟩
    rintro rfl
    exact hjk (h.unique hk hold)
  · rintro ⟨hx, j, hj⟩
    refine ⟨j, (hother j ?_).trans hj⟩
    rintro rfl
    exact hx (Option.some.inj (hj.symm.trans hk))

/-- **A keeper may release what it holds.** -/
theorem Exact.release (h : b.Exact) (hk : b.holds k = some r) :
    (b.enter (.release k r)).Exact := by
  have hself : (b.enter (.release k r)).holds k = none := Function.update_self ..
  have hother : ∀ j, j ≠ k → (b.enter (.release k r)).holds j = b.holds j :=
    fun j hj => Function.update_of_ne hj ..
  intro x
  by_cases hx : x = r
  · subst hx
    refine .inr ⟨fun j hj => ?_, ?_⟩
    · by_cases hjk : j = k
      · subst hjk
        rw [hself] at hj
        cases hj
      · exact hjk (h.unique hk ((hother j hjk).symm.trans hj))
    · have hreleased : (b.enter (.release k x)).released x = b.released x + 1 :=
        Function.update_self ..
      rw [hreleased, ← h.held hk]
      rfl
  · have hreleased : (b.enter (.release k r)).released x = b.released x :=
      Function.update_of_ne hx ..
    rcases h x with ⟨⟨j, hj, huniq⟩, hbalance⟩ | ⟨hnone, hbalance⟩
    · have hjk : j ≠ k := by
        rintro rfl
        exact hx (Option.some.inj (hj.symm.trans hk))
      refine .inl ⟨⟨j, (hother j hjk).trans hj, fun i hi => ?_⟩, ?_⟩
      · by_cases hik : i = k
        · subst hik
          rw [hself] at hi
          cases hi
        · exact huniq i ((hother i hik).symm.trans hi)
      · rw [hreleased]
        exact hbalance
    · refine .inr ⟨fun i hi => ?_, ?_⟩
      · by_cases hik : i = k
        · subst hik
          rw [hself] at hi
          cases hi
        · exact hnone i ((hother i hik).symm.trans hi)
      · rw [hreleased]
        exact hbalance

/-- **Nobody may release what it does not hold**: somebody else has it, or nobody. -/
theorem exact_release_iff (h : b.Exact) :
    (b.enter (.release k r)).Exact ↔ b.holds k = some r := by
  refine ⟨fun h' => ?_, h.release⟩
  have hreleased : (b.enter (.release k r)).released r = b.released r + 1 :=
    Function.update_self ..
  have hother : ∀ j, j ≠ k → (b.enter (.release k r)).holds j = b.holds j :=
    fun j hj => Function.update_of_ne hj ..
  rcases h r with ⟨⟨j, hj, -⟩, hbalance⟩ | ⟨hnone, hbalance⟩
  · by_cases hjk : j = k
    · exact hjk ▸ hj
    · have hheld := h'.held ((hother j hjk).trans hj)
      rw [hreleased] at hheld
      exact absurd (hbalance.symm.trans hheld) (by omega)
  · have hfree : (b.enter (.release k r)).acquired r = _ := h'.free fun j hj => by
      by_cases hjk : j = k
      · subst hjk
        rw [show (b.enter (.release j r)).holds j = none from Function.update_self ..] at hj
        cases hj
      · exact hnone j ((hother j hjk).symm.trans hj)
    rw [hreleased] at hfree
    exact absurd (hbalance.symm.trans hfree) (by omega)

/-- **What is lost shows in the books.** -/
theorem Exact.not_lose (h : b.Exact) : ¬ (b.enter (.lose r)).Exact := by
  intro h'
  have hacquired : (b.enter (.lose r)).acquired r = b.acquired r + 1 := Function.update_self ..
  have hreleased : (b.enter (.lose r)).released r = b.released r := rfl
  rcases h r with ⟨⟨k, hk, -⟩, hbalance⟩ | ⟨hnone, hbalance⟩
  · have hheld := h'.held (k := k) (r := r) hk
    omega
  · have hfree := h'.free (r := r) hnone
    omega

end Books
end Custody
