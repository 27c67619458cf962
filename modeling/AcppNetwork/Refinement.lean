import AcppNetwork.Conduit
import AcppNetwork.Runs
import Mathlib

/-!
# Forward simulations

A system with steps of its own does what an abstract one allows if every step of it amounts
to some steps of the abstract one, possibly none.  `label s e` are these steps for the event
`e` in the state `s`, and `rel` says which states belong together.

`Refines` asks this of the steps that meet a condition `P`; a run whose steps all meet it is
matched by a run of the abstract system over the labels (`Refines.run`), so that whatever holds
of every abstract run holds of the labels of such a run.

The abstract system of a program that runs what it is given in turn is a conduit: `Executor`.
-/
namespace Runs

variable {σ ε α κ : Type}

/-- What the events of a run amount to, in order. -/
def trace (step : σ → ε → Option σ) (label : σ → ε → List κ) : σ → List ε → List κ
  | _, [] => []
  | s, e :: es => label s e ++ ((step s e).map (trace step label · es)).getD []

/-- Steps that meet `P` are steps of the abstract system. -/
def Refines (step : σ → ε → Option σ) (P : σ → ε → Prop) (abs : α → κ → Option α)
    (label : σ → ε → List κ) (rel : σ → α → Prop) : Prop :=
  ∀ s e s' a, rel s a → P s e → step s e = some s' →
    ∃ a', run abs a (label s e) = some a' ∧ rel s' a'

variable {step : σ → ε → Option σ} {P : σ → ε → Prop} {abs : α → κ → Option α}
  {label : σ → ε → List κ} {rel : σ → α → Prop} {s s' t : σ} {e : ε} {es fs : List ε} {a : α}

@[simp] theorem trace_nil : trace step label s [] = [] := rfl

theorem trace_cons (h : step s e = some t) :
    trace step label s (e :: es) = label s e ++ trace step label t es := by
  rw [trace, h]
  rfl

/-- The labels of a run and of what comes after it. -/
theorem trace_append (hr : Runs.run step s es = some t) :
    trace step label s (es ++ fs) = trace step label s es ++ trace step label t fs := by
  induction es generalizing s with
  | nil =>
    obtain rfl := Option.some.inj hr
    rfl
  | cons e es ih =>
    obtain ⟨u, hu, hrest⟩ := run_cons_some.mp hr
    rw [List.cons_append, trace_cons hu, trace_cons hu, ih hrest, List.append_assoc]

/-- **A run is matched by an abstract run over its labels.** -/
theorem Refines.run (h : Refines step P abs label rel) (hrel : rel s a) (hp : Along step P s es)
    (hr : Runs.run step s es = some s') :
    ∃ a', Runs.run abs a (trace step label s es) = some a' ∧ rel s' a' := by
  induction es generalizing s a with
  | nil =>
    obtain rfl := Option.some.inj hr
    exact ⟨a, rfl, hrel⟩
  | cons e es ih =>
    obtain ⟨t, ht, hts⟩ := run_cons_some.mp hr
    obtain ⟨b, hab, hb⟩ := h s e t a hrel hp.1 ht
    obtain ⟨a', hba, ha'⟩ := ih hb (hp.2 t ht) hts
    refine ⟨a', ?_, ha'⟩
    rw [trace_cons ht]
    exact run_append_some.mpr ⟨b, hab, hba⟩

/-- **What a step keeps of the labels so far, a run keeps.** -/
theorem trace_invariant {I : σ → List κ → Prop} {ks : List κ}
    (hstep : ∀ s e s' ks, I s ks → P s e → step s e = some s' → I s' (ks ++ label s e))
    (hs : I s ks) (hp : Along step P s es) (hr : Runs.run step s es = some s') :
    I s' (ks ++ trace step label s es) := by
  induction es generalizing s ks with
  | nil =>
    obtain rfl := Option.some.inj hr
    rwa [trace_nil, List.append_nil]
  | cons e es ih =>
    obtain ⟨t, ht, hts⟩ := run_cons_some.mp hr
    rw [trace_cons ht, ← List.append_assoc]
    exact ih (hstep s e t ks hs hp.1 ht) (hp.2 t ht) hts

/-- **The labels of the abstract run** are those of what each step amounts to. -/
theorem Refines.trace_trace {f : σ → α} {I : σ → Prop} {β : Type} {lab : α → κ → List β}
    (h : Refines step P abs label fun s a => a = f s ∧ I s) (hI : I s) (hp : Along step P s es)
    (hr : Runs.run step s es = some s') :
    trace abs lab (f s) (trace step label s es) =
      trace step (fun s e => trace abs lab (f s) (label s e)) s es := by
  induction es generalizing s with
  | nil => rfl
  | cons e es ih =>
    obtain ⟨t, ht, hrest⟩ := run_cons_some.mp hr
    obtain ⟨_, hrun, rfl, hIt⟩ := h s e t (f s) ⟨rfl, hI⟩ hp.1 ht
    rw [trace_cons ht, trace_cons ht, trace_append hrun, ih hIt (hp.2 t ht) hrest]

/-- **Conditions that an invariant makes of others.** -/
theorem Along.of_invariant {I : σ → Prop} {Q : σ → ε → Prop}
    (hstep : ∀ s e s', I s → P s e → step s e = some s' → I s' ∧ Q s e)
    (hs : I s) (hp : Along step P s es) (hr : Runs.run step s es = some s') :
    Along step Q s es := by
  induction es generalizing s with
  | nil => exact trivial
  | cons e es ih =>
    obtain ⟨t, ht, hts⟩ := run_cons_some.mp hr
    obtain ⟨hi, hq⟩ := hstep s e t hs hp.1 ht
    refine ⟨hq, fun u hu => ?_⟩
    obtain rfl := Option.some.inj (ht.symm.trans hu)
    exact ih hi (hp.2 t ht) hts

/-- A condition on the events alone. -/
theorem along_of_mem {P : ε → Prop} (h : ∀ e ∈ es, P e) : Along step (fun _ e => P e) s es := by
  induction es generalizing s with
  | nil => exact trivial
  | cons e es ih =>
    obtain ⟨he, hes⟩ := List.forall_mem_cons.mp h
    exact ⟨he, fun t _ => ih hes⟩

/-- Conditions along a run and along what comes after it. -/
theorem Along.append (hp : Along step P s es)
    (hrest : ∀ t, Runs.run step s es = some t → Along step P t fs) : Along step P s (es ++ fs) := by
  induction es generalizing s with
  | nil => exact hrest s rfl
  | cons e es ih =>
    refine ⟨hp.1, fun t ht => ih (hp.2 t ht) fun u hu => hrest u ?_⟩
    exact run_cons_some.mpr ⟨t, ht, hu⟩

/-- **Conditions on the abstract steps hold along the labels** if they hold of those of each
step. -/
theorem Refines.along {Q : α → κ → Prop} (h : Refines step P abs label rel) (hrel : rel s a)
    (hp : Along step P s es) (hr : Runs.run step s es = some s')
    (hq : Along step (fun s e => ∀ a, rel s a → Along abs Q a (label s e)) s es) :
    Along abs Q a (trace step label s es) := by
  induction es generalizing s a with
  | nil => exact trivial
  | cons e es ih =>
    obtain ⟨t, ht, hts⟩ := run_cons_some.mp hr
    rw [trace_cons ht]
    refine (hq.1 a hrel).append fun b hab => ?_
    obtain ⟨b', hab', hb'⟩ := h s e t a hrel hp.1 ht
    obtain rfl := Option.some.inj (hab.symm.trans hab')
    exact ih hb' (hp.2 t ht) hts (hq.2 t ht)

/-- A step that amounts to nothing keeps the states together. -/
theorem refines_nil (h : rel s' a) : ∃ a', Runs.run abs a ([] : List κ) = some a' ∧ rel s' a' :=
  ⟨a, rfl, h⟩

/-- A step that amounts to one abstract step. -/
theorem refines_one {x : κ} {a' : α} (hx : abs a x = some a') (h : rel s' a') :
    ∃ a', Runs.run abs a [x] = some a' ∧ rel s' a' :=
  ⟨a', run_cons_some.mpr ⟨a', hx, rfl⟩, h⟩

end Runs

/-! ## Executors -/

namespace Executor

variable {φ : Type}

/-- A function is handed in, or executed. -/
inductive Event (φ : Type) where
  | submit (f : φ)
  | execute (f : φ)
  deriving DecidableEq

/-- The function handed in waits behind those that wait already; the one that has waited
longest is executed. -/
def step [DecidableEq φ] (q : Conduit φ) : Event φ → Option (Conduit φ)
  | .submit f => some (q.accept [f])
  | .execute f => if q.held.head? = some f then some (q.deliver 1) else none

variable [DecidableEq φ] {q : Conduit φ} {f : φ}

theorem step_execute {fs : List φ} (h : q.held = f :: fs) :
    step q (.execute f) = some (q.deliver 1) := by
  rw [step, h]
  exact if_pos rfl

end Executor
