import Mathlib

/-!
# Runs of a partial step function

A system is given by `step : σ → ε → Option σ`: `step s e` is the state after
the event `e` in state `s`, and `none` when `e` cannot happen there.  A **run**
is a finite list of events (`run`).

Two predicates speak about a whole run.  `Throughout step I s es` says that the
states it passes through, first and last included, satisfy `I`; it is the
conjunction over all prefixes of the run (`throughout_iff_prefix`).
`Along step P s es` says that every step it takes meets `P`, a condition on the
event and on the state *before* it.

The rules are the ones every invariant proof uses: an invariant is carried
along a run (`run_invariant`), or along a run whose steps meet a condition
(`run_invariant_along`); and when a property survives a step exactly if that
step meets a condition, the property holds throughout a run exactly if the
condition holds along it (`throughout_iff_along`).  `Always step P I s` looks
ahead: whatever steps that meet `P` follow, they lead to states satisfying `I`.
-/
namespace Runs

variable {σ ε : Type} (step : σ → ε → Option σ)

/-- The state after the events `es`, taken in order. -/
def run : σ → List ε → Option σ
  | s, [] => some s
  | s, e :: es => (step s e).bind (run · es)

/-- Every state the run passes through satisfies `I`. -/
def Throughout (I : σ → Prop) : σ → List ε → Prop
  | s, [] => I s
  | s, e :: es => I s ∧ ∀ s', step s e = some s' → Throughout I s' es

/-- Every step the run takes meets `P`. -/
def Along (P : σ → ε → Prop) : σ → List ε → Prop
  | _, [] => True
  | s, e :: es => P s e ∧ ∀ s', step s e = some s' → Along P s' es

variable {step} {I : σ → Prop} {P Q : σ → ε → Prop} {s s' : σ} {e : ε} {es fs : List ε}

@[simp] theorem run_nil : run step s [] = some s := rfl

theorem run_cons : run step s (e :: es) = (step s e).bind (run step · es) := rfl

theorem run_cons_some : run step s (e :: es) = some s' ↔
    ∃ t, step s e = some t ∧ run step t es = some s' := by
  rw [run_cons, Option.bind_eq_some_iff]

theorem run_append : run step s (es ++ fs) = (run step s es).bind (run step · fs) := by
  induction es generalizing s with
  | nil => rfl
  | cons e es ih =>
    rw [List.cons_append, run_cons, run_cons]
    cases step s e with
    | none => rfl
    | some t => exact ih

theorem run_append_some : run step s (es ++ fs) = some s' ↔
    ∃ t, run step s es = some t ∧ run step t fs = some s' := by
  rw [run_append, Option.bind_eq_some_iff]

/-! ## Checking a given run -/

/-- A run whose end passes the test `P`. -/
theorem exists_run {P : σ → Prop} [DecidablePred P] (h : (run step s es).any (P ·) = true) :
    ∃ t, run step s es = some t ∧ P t := by
  rw [Option.any_eq_true] at h
  obtain ⟨t, ht, hp⟩ := h
  exact ⟨t, ht, of_decide_eq_true hp⟩

instance decidableAlong [∀ s e, Decidable (P s e)] :
    (s : σ) → (es : List ε) → Decidable (Along step P s es)
  | _, [] => .isTrue trivial
  | s, e :: es =>
      match h : step s e with
      | none => decidable_of_iff (P s e)
          ⟨fun hp => ⟨hp, fun t ht => by rw [h] at ht; cases ht⟩, And.left⟩
      | some t =>
          have := decidableAlong t es
          decidable_of_iff (P s e ∧ Along step P t es)
            ⟨fun hp => ⟨hp.1, fun u hu => Option.some.inj (h.symm.trans hu) ▸ hp.2⟩,
              fun hp => ⟨hp.1, hp.2 t h⟩⟩

instance decidableThroughout [∀ s, Decidable (I s)] :
    (s : σ) → (es : List ε) → Decidable (Throughout step I s es)
  | s, [] => inferInstanceAs (Decidable (I s))
  | s, e :: es =>
      match h : step s e with
      | none => decidable_of_iff (I s)
          ⟨fun hi => ⟨hi, fun t ht => by rw [h] at ht; cases ht⟩, And.left⟩
      | some t =>
          have := decidableThroughout t es
          decidable_of_iff (I s ∧ Throughout step I t es)
            ⟨fun hi => ⟨hi.1, fun u hu => Option.some.inj (h.symm.trans hu) ▸ hi.2⟩,
              fun hi => ⟨hi.1, hi.2 t h⟩⟩

/-! ## Conditions along a run -/

/-- What every step meets holds along every run. -/
theorem along_of_forall (h : ∀ s e, P s e) : Along step P s es := by
  induction es generalizing s with
  | nil => trivial
  | cons e es ih => exact ⟨h s e, fun t _ => ih⟩

theorem Along.and (hp : Along step P s es) (hq : Along step Q s es) :
    Along step (fun s e => P s e ∧ Q s e) s es := by
  induction es generalizing s with
  | nil => trivial
  | cons e es ih => exact ⟨⟨hp.1, hq.1⟩, fun t ht => ih (hp.2 t ht) (hq.2 t ht)⟩

theorem Along.imp (h : Along step P s es) (hPQ : ∀ s e, P s e → Q s e) : Along step Q s es := by
  induction es generalizing s with
  | nil => trivial
  | cons e es ih => exact ⟨hPQ s e h.1, fun t ht => ih (h.2 t ht)⟩

/-- What holds along a run holds along the rest of it. -/
theorem Along.rest (h : Along step P s (es ++ fs)) (hr : run step s es = some s') :
    Along step P s' fs := by
  induction es generalizing s with
  | nil => exact Option.some.inj hr ▸ h
  | cons e es ih =>
    obtain ⟨t, ht, hts⟩ := run_cons_some.mp hr
    exact ih (h.2 t ht) hts

theorem Throughout.start (h : Throughout step I s es) : I s := by
  cases es with
  | nil => exact h
  | cons e es => exact h.1

/-- If `I` holds throughout a run, every step of it leads to a state satisfying `I`. -/
theorem Throughout.along (h : Throughout step I s es) :
    Along step (fun s e => ∀ s', step s e = some s' → I s') s es := by
  induction es generalizing s with
  | nil => trivial
  | cons e es ih => exact ⟨fun t ht => (h.2 t ht).start, fun t ht => ih (h.2 t ht)⟩

/-- If `I` holds throughout a run, every step of it is taken in a state satisfying `I`. -/
theorem Throughout.before (h : Throughout step I s es) : Along step (fun s _ => I s) s es := by
  induction es generalizing s with
  | nil => trivial
  | cons e es ih => exact ⟨h.1, fun t ht => ih (h.2 t ht)⟩

/-- `Throughout` is the conjunction over the prefixes of the run. -/
theorem throughout_iff_prefix :
    Throughout step I s es ↔ ∀ fs, fs <+: es → ∀ t, run step s fs = some t → I t := by
  induction es generalizing s with
  | nil =>
    constructor
    · intro h fs hfs t ht
      rw [List.prefix_nil.mp hfs] at ht
      exact Option.some.inj ht ▸ h
    · exact fun h => h [] (List.prefix_refl _) s rfl
  | cons e es ih =>
    constructor
    · rintro ⟨hs, hrest⟩ fs hfs t ht
      cases fs with
      | nil => exact Option.some.inj ht ▸ hs
      | cons f fs =>
        obtain ⟨rfl, hfs'⟩ := List.cons_prefix_cons.mp hfs
        obtain ⟨u, hu, hut⟩ := run_cons_some.mp ht
        exact ih.mp (hrest u hu) fs hfs' t hut
    · intro h
      refine ⟨h [] List.nil_prefix s rfl, fun u hu => ih.mpr fun fs hfs t ht => ?_⟩
      exact h (e :: fs) (List.cons_prefix_cons.mpr ⟨rfl, hfs⟩) t (run_cons_some.mpr ⟨u, hu, ht⟩)

/-! ## Invariants -/

/-- **The invariant rule under a step condition.**  What every step meeting `P`
preserves holds after every run whose steps meet `P`. -/
theorem run_invariant_along (hstep : ∀ s e s', I s → P s e → step s e = some s' → I s')
    (hs : I s) (ha : Along step P s es) (hr : run step s es = some s') : I s' := by
  induction es generalizing s with
  | nil => exact Option.some.inj hr ▸ hs
  | cons e es ih =>
    obtain ⟨t, ht, hts⟩ := run_cons_some.mp hr
    exact ih (hstep s e t hs ha.1 ht) (ha.2 t ht) hts

/-- **The invariant rule relative to another invariant.**  `J` is known to be
preserved; `I` is preserved by the steps from states that satisfy both. -/
theorem run_invariant_given {J : σ → Prop} (hJ : ∀ s e s', J s → step s e = some s' → J s')
    (hstep : ∀ s e s', J s → I s → P s e → step s e = some s' → I s')
    (hj : J s) (hs : I s) (ha : Along step P s es) (hr : run step s es = some s') : I s' :=
  (run_invariant_along (I := fun s => J s ∧ I s)
    (fun s e s' h hp he => ⟨hJ s e s' h.1 he, hstep s e s' h.1 h.2 hp he⟩) ⟨hj, hs⟩ ha hr).2

/-- **The invariant rule.**  What every step preserves holds after every run. -/
theorem run_invariant (hstep : ∀ s e s', I s → step s e = some s' → I s')
    (hs : I s) (hr : run step s es = some s') : I s' := by
  induction es generalizing s with
  | nil => exact Option.some.inj hr ▸ hs
  | cons e es ih =>
    obtain ⟨t, ht, hts⟩ := run_cons_some.mp hr
    exact ih (hstep s e t hs ht) hts

/-- **An exact condition, under another one.**  If a step that meets `Q` keeps the
property `I` exactly when it meets `P`, then `I` holds throughout a run from a state
satisfying `I`, of which every step meets `Q`, exactly when `P` holds along it.
The invariant `J` is whatever the steps keep unconditionally. -/
theorem throughout_iff_along_under {J : σ → Prop}
    (hJ : ∀ s e s', J s → step s e = some s' → J s')
    (hstep : ∀ s e s', J s → I s → Q s e → step s e = some s' → (I s' ↔ P s e))
    (hj : J s) (hs : I s) (hq : Along step Q s es) (hr : run step s es = some s') :
    Throughout step I s es ↔ Along step P s es := by
  induction es generalizing s with
  | nil => exact ⟨fun _ => trivial, fun _ => hs⟩
  | cons e es ih =>
    obtain ⟨t, ht, hts⟩ := run_cons_some.mp hr
    have hjt := hJ s e t hj ht
    obtain ⟨hqe, hqes⟩ := hq
    constructor
    · rintro ⟨-, hrest⟩
      have hI : I t := (hrest t ht).start
      refine ⟨(hstep s e t hj hs hqe ht).mp hI, fun u hu => ?_⟩
      obtain rfl : t = u := Option.some.inj (ht ▸ hu)
      exact (ih hjt hI (hqes t ht) hts).mp (hrest t ht)
    · rintro ⟨hp, hrest⟩
      have hI : I t := (hstep s e t hj hs hqe ht).mpr hp
      refine ⟨hs, fun u hu => ?_⟩
      obtain rfl : t = u := Option.some.inj (ht ▸ hu)
      exact (ih hjt hI (hqes t ht) hts).mpr (hrest t ht)

/-- **An exact condition.**  If a step keeps the property `I` exactly when it
meets `P`, then `I` holds throughout a run from a state satisfying `I` exactly
when `P` holds along it. -/
theorem throughout_iff_along {J : σ → Prop} (hJ : ∀ s e s', J s → step s e = some s' → J s')
    (hstep : ∀ s e s', J s → I s → step s e = some s' → (I s' ↔ P s e))
    (hj : J s) (hs : I s) (hr : run step s es = some s') :
    Throughout step I s es ↔ Along step P s es :=
  throughout_iff_along_under (Q := fun _ _ => True) hJ
    (fun s e s' hj hs _ ht => hstep s e s' hj hs ht) hj hs (along_of_forall fun _ _ => trivial) hr

/-- **Two conditions along a run.**  If the steps from states that satisfy the invariant
`J` meet `P` exactly when they meet `Q`, then `P` holds along a run exactly when `Q`
does. -/
theorem along_iff {J : σ → Prop} (hJ : ∀ s e s', J s → step s e = some s' → J s')
    (hstep : ∀ s e s', J s → step s e = some s' → (P s e ↔ Q s e))
    (hj : J s) (hr : run step s es = some s') : Along step P s es ↔ Along step Q s es := by
  induction es generalizing s with
  | nil => exact Iff.rfl
  | cons e es ih =>
    obtain ⟨t, ht, hts⟩ := run_cons_some.mp hr
    have hrest := ih (hJ s e t hj ht) hts
    constructor
    · rintro ⟨hp, hps⟩
      refine ⟨(hstep s e t hj ht).mp hp, fun u hu => ?_⟩
      obtain rfl : t = u := Option.some.inj (ht ▸ hu)
      exact hrest.mp (hps t ht)
    · rintro ⟨hq, hqs⟩
      refine ⟨(hstep s e t hj ht).mpr hq, fun u hu => ?_⟩
      obtain rfl : t = u := Option.some.inj (ht ▸ hu)
      exact hrest.mpr (hqs t ht)

/-! ## Whatever follows -/

/-- Whatever steps that meet `P` follow, they lead to states satisfying `I`. -/
def Always (step : σ → ε → Option σ) (P : σ → ε → Prop) (I : σ → Prop) (s : σ) : Prop :=
  ∀ es s', Along step P s es → run step s es = some s' → I s'

theorem Always.now (h : Always step P I s) : I s := h [] s trivial rfl

theorem Always.next (h : Always step P I s) (hp : P s e) (hs : step s e = some s') :
    Always step P I s' := by
  intro es t ha hr
  refine h (e :: es) t ⟨hp, fun u hu => ?_⟩ (run_cons_some.mpr ⟨s', hs, hr⟩)
  obtain rfl : s' = u := Option.some.inj (hs ▸ hu)
  exact ha

/-- What an invariant of the steps that meet `P` implies holds whatever such steps
follow. -/
theorem always_of_invariant {J : σ → Prop}
    (hstep : ∀ s e s', J s → P s e → step s e = some s' → J s') (hI : ∀ s, J s → I s)
    (hs : J s) : Always step P I s :=
  fun _ _ ha hr => hI _ (run_invariant_along hstep hs ha hr)

/-- **Which steps put an end to it.**  If of the steps that do not meet `P` those that
meet `R` are the ones after which `I` holds whatever follows, then this is so throughout a
run exactly if all its steps meet `R`. -/
theorem throughout_always_iff {R : σ → ε → Prop} {J : σ → Prop}
    (hJ : ∀ s e s', J s → step s e = some s' → J s') (hfree : ∀ s e, P s e → R s e)
    (hstep : ∀ s e s', J s → Always step P I s → ¬ P s e → step s e = some s' →
      (Always step P I s' ↔ R s e))
    (hj : J s) (hs : Always step P I s) (hr : run step s es = some s') :
    Throughout step (Always step P I) s es ↔ Along step R s es := by
  refine throughout_iff_along hJ (fun t e t' hjt ht hstep' => ?_) hj hs hr
  by_cases hp : P t e
  · exact iff_of_true (ht.next hp hstep') (hfree t e hp)
  · exact hstep t e t' hjt ht hp hstep'

/-! ## History variables -/

section
variable {η : Type} {g : σ → ε → η → η} {x x' : η}

/-- The system with a variable beside it that it does not read: `g` says how an event
changes it. -/
def observe (step : σ → ε → Option σ) (g : σ → ε → η → η) (c : σ × η) (e : ε) : Option (σ × η) :=
  (step c.1 e).map fun s => (s, g c.1 e c.2)

theorem observe_some {c c' : σ × η} :
    observe step g c e = some c' ↔ step c.1 e = some c'.1 ∧ c'.2 = g c.1 e c.2 := by
  obtain ⟨s', x'⟩ := c'
  unfold observe
  rw [Option.map_eq_some_iff]
  constructor
  · rintro ⟨t, ht, heq⟩
    cases heq
    exact ⟨ht, rfl⟩
  · rintro ⟨ht, hx⟩
    dsimp only at ht hx
    exact ⟨s', ht, by rw [hx]⟩

/-- Observed runs are the runs of the system. -/
theorem run_observe : (∃ x', run (observe step g) (s, x) es = some (s', x')) ↔
    run step s es = some s' := by
  induction es generalizing s x with
  | nil =>
    constructor
    · rintro ⟨x', h⟩
      exact congrArg _ (congrArg Prod.fst (Option.some.inj h))
    · intro h
      exact ⟨x, by rw [Option.some.inj h]; rfl⟩
  | cons e es ih =>
    constructor
    · rintro ⟨x', h⟩
      obtain ⟨⟨t, y⟩, ht, hts⟩ := run_cons_some.mp h
      exact run_cons_some.mpr ⟨t, (observe_some.mp ht).1, ih.mp ⟨x', hts⟩⟩
    · intro h
      obtain ⟨t, ht, hts⟩ := run_cons_some.mp h
      obtain ⟨x', hx'⟩ := ih (x := g s e x).mpr hts
      exact ⟨x', run_cons_some.mpr ⟨(t, g s e x), observe_some.mpr ⟨ht, rfl⟩, hx'⟩⟩

end

end Runs
