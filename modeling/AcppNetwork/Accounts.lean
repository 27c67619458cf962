import AcppNetwork.Reentrant
import AcppNetwork.Refinement

/-!
# Accounts of what an object takes in

Items come in with the calls of an object (`chunk`).  From there they are taken, in order, by
stretches of its code (`took`); those that are not taken yet are held by its state (`held`) or
owed by an activation (`owes`), which has them from its call and hands them on bit by bit.  What
an activation owes comes before what those under it owe, so the order is lost when an operation
brings items while others are owed, and items are lost when an exception drops an activation
that owes some.

`Account` says what single calls and stretches have to keep, and `Account.run` that then nothing
is lost, doubled or out of order in a whole run.
-/
namespace Reentrant

variable {σ ο φ κ α ρ ν β : Type}

/-- What is taken with an event. -/
def takenBy (took : σ → φ → α → List β) (c : Config σ ο φ κ ρ ν) (e : Event ο α) : List β :=
  match e.answer?, c.stack with
  | some a, .code f :: _ => took c.state f a
  | _, _ => []

/-- What activations owe, innermost first. -/
def owed (owes : φ → List β) (fs : List φ) : List β := fs.flatMap owes

/-- Calls that meet `Q` and stretches that meet `P` keep the items in order; `F` is what
activations keep of themselves. -/
structure Account (O : Object σ ο φ κ α ρ ν) (P : σ → φ → List φ → α → Prop)
    (Q : σ → List φ → ο → Prop) (F : φ → Prop) (took : σ → φ → α → List β) (held : σ → List β)
    (owes : φ → List β) (chunk : ο → List β) : Prop where
  enter : ∀ s fs o, Q s fs o → F (O.enter s o).2 ∧
    held (O.enter s o).1 ++ owed owes ((O.enter s o).2 :: fs) = held s ++ owed owes fs ++ chunk o
  resume : ∀ s f fs a out, F f → P s f fs a → O.resume s f a = some out →
    took s f a ++ held out.state ++ owed owes out.frames = held s ++ owes f ∧
      ∀ g ∈ out.frames, F g
  throws : ∀ s f fs a out, P s f fs a → O.resume s f a = some out → out.throws = true →
    owed owes fs = []

variable {O : Object σ ο φ κ α ρ ν} {P : σ → φ → List φ → α → Prop} {Q : σ → List φ → ο → Prop}
  {F : φ → Prop} {took : σ → φ → α → List β} {held : σ → List β} {owes : φ → List β}
  {chunk : ο → List β} {c c' : Config σ ο φ κ ρ ν} {e : Event ο α} {s : σ}

@[simp] theorem owed_nil : owed owes [] = [] := rfl

@[simp] theorem owed_cons (f : φ) (fs : List φ) :
    owed owes (f :: fs) = owes f ++ owed owes fs := List.flatMap_cons

@[simp] theorem owed_append (fs gs : List φ) :
    owed owes (fs ++ gs) = owed owes fs ++ owed owes gs := List.flatMap_append

/-- Two conditions on the calls. -/
theorem onCall_and {Q' : σ → List φ → ο → Prop} (h : OnCall Q c e) (h' : OnCall Q' c e) :
    OnCall (fun s fs o => Q s fs o ∧ Q' s fs o) c e := by
  cases e with
  | call o => exact ⟨h, h'⟩
  | _ => exact trivial

theorem owed_suffix {fs kept : List φ} (h : kept <:+ fs) (hfs : owed owes fs = []) :
    owed owes kept = [] := by
  obtain ⟨dropped, rfl⟩ := h
  rw [owed_append] at hfs
  exact (List.append_eq_nil_iff.mp hfs).2

/-- What was taken, what is held and what is owed is what came in. -/
structure Balanced (F : φ → Prop) (held : σ → List β) (owes : φ → List β) (chunk : ο → List β)
    (c : Config σ ο φ κ ρ ν) (taken : List β) : Prop where
  items : taken ++ held c.state ++ owed owes (frames c.stack) = (calls c.log).flatMap chunk
  kept : ∀ f ∈ frames c.stack, F f

theorem Account.step (hA : Account O P Q F took held owes chunk) {taken : List β}
    (hI : Balanced F held owes chunk c taken) (hp : Before P c e ∧ OnCall Q c e)
    (h : Step O c e c') : Balanced F held owes chunk c' (taken ++ takenBy took c e) := by
  obtain ⟨hbefore, honcall⟩ := hp
  rcases h.stretch with ⟨o, rfl, -, rfl⟩ |
    ⟨f, rest, a, out, kept, hstack, ha, hres, hstate, hsuffix, hkept, hframes, -, -, hcalls⟩ |
    ⟨rfl, hstate, hframes, hlog⟩
  · obtain ⟨hF, hitems⟩ := hA.enter _ _ o honcall
    refine ⟨?_, fun f hf => ?_⟩
    · show taken ++ [] ++ held (O.enter c.state o).1 ++
        owed owes ((O.enter c.state o).2 :: frames c.stack) = (calls (c.log ++ [.call o])).flatMap _
      rw [List.append_nil, List.append_assoc, hitems, ← List.append_assoc, ← List.append_assoc,
        hI.items]
      simp
    · rcases List.mem_cons.mp hf with rfl | hf
      · exact hF
      · exact hI.kept f hf
  · simp only [Before, ha, hstack] at hbefore
    have hitems := hI.items
    have hkeeps := hI.kept
    rw [hstack, frames_code] at hitems hkeeps
    obtain ⟨hstretch, hF⟩ := hA.resume _ f _ a out (hkeeps f (List.mem_cons_self ..)) hbefore hres
    have htaken : takenBy took c e = took c.state f a := by
      unfold takenBy
      rw [ha, hstack]
    have howed : owed owes kept = owed owes (frames rest) := by
      cases hthrows : out.throws with
      | false => rw [hkept hthrows]
      | true =>
        have hnone := hA.throws _ f _ a out hbefore hres hthrows
        rw [hnone, owed_suffix hsuffix hnone]
    refine ⟨?_, fun g hg => ?_⟩
    · calc taken ++ takenBy took c e ++ held c'.state ++ owed owes (frames c'.stack)
          = taken ++ (took c.state f a ++ held out.state ++ owed owes out.frames) ++
              owed owes (frames rest) := by
            rw [htaken, hstate, hframes, owed_append, howed]
            simp only [List.append_assoc]
        _ = taken ++ held c.state ++ owed owes (f :: frames rest) := by
            rw [hstretch, owed_cons]
            simp only [List.append_assoc]
        _ = (calls c'.log).flatMap chunk := by rw [hitems, hcalls]
    · rw [hframes] at hg
      rcases List.mem_append.mp hg with hg | hg
      · exact hF g hg
      · exact hkeeps g (List.mem_cons_of_mem _ (hsuffix.subset hg))
  · refine ⟨?_, hframes ▸ hI.kept⟩
    have htaken : takenBy took c .back = [] := rfl
    rw [htaken, List.append_nil, hstate, hframes, hlog]
    exact hI.items

/-- **Nothing is lost, doubled or out of order in a run.** -/
theorem Account.run (hA : Account O P Q F took held owes chunk) (hs : held s = [])
    {es : List (Event ο α)} (hr : Runs.run (Reentrant.step O) (Config.start s) es = some c)
    (hp : Runs.Along (Reentrant.step O) (fun c e => Before P c e ∧ OnCall Q c e)
      (Config.start s) es) :
    Runs.trace (Reentrant.step O) (takenBy took) (Config.start s) es ++ held c.state ++
      owed owes (frames c.stack) = (calls c.log).flatMap chunk := by
  have hstart : Balanced F held owes chunk (Config.start s : Config σ ο φ κ ρ ν) [] :=
    ⟨by simp [Config.start, hs], fun f hf => by cases hf⟩
  exact (Runs.trace_invariant (I := Balanced F held owes chunk)
    (fun c e c' taken hI hp hstep => hA.step hI hp (Step.of_step hstep)) hstart hp hr).items

end Reentrant
