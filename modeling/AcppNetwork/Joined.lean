import AcppNetwork.Conduit
import AcppNetwork.Refinement

/-!
# Systems joined by conduits

Systems of one kind, each with a peer, run side by side.  What an event of one gives to the
outside goes into a conduit, and what an event of its peer takes from the outside is the next of
what that conduit holds.  So in every interleaving each of them goes through a run of its own,
and what its peer took is the first part of what it gave (`taken_isPrefix`).
-/

/-- To take what comes first. -/
theorem Conduit.taken_deliver {β : Type} {q : Conduit β} {xs : List β} (h : xs <+: q.held) :
    (q.deliver xs.length).taken = q.taken ++ xs := by
  obtain ⟨rest, hheld⟩ := h
  show q.taken ++ q.held.take xs.length = q.taken ++ xs
  rw [← hheld, List.take_left' rfl]

namespace Runs

variable {ι σ ε β : Type}

/-- The systems, and for each the conduit of what it gave. -/
structure Joined (ι σ β : Type) where
  ends : ι → σ
  wires : ι → Conduit β

/-- The systems before anything was given. -/
def Joined.start (s : ι → σ) : Joined ι σ β := ⟨s, fun _ => Conduit.empty⟩

section
variable [DecidableEq ι] [DecidableEq β] (step : σ → ε → Option σ) (gives takes : σ → ε → List β)
  (peer : ι → ι)

/-- An event of one of the systems. -/
def joined (x : Joined ι σ β) (e : ι × ε) : Option (Joined ι σ β) :=
  let given := gives (x.ends e.1) e.2
  let taken := takes (x.ends e.1) e.2
  if taken <+: (x.wires (peer e.1)).held then
    (step (x.ends e.1) e.2).map fun s =>
      ⟨Function.update x.ends e.1 s, fun i =>
        let q := if i = e.1 then (x.wires i).accept given else x.wires i
        if i = peer e.1 then q.deliver taken.length else q⟩
  else none

end

section
variable [DecidableEq ι]

/-- The events of one of the systems. -/
def own (i : ι) (es : List (ι × ε)) : List ε :=
  es.filterMap fun e => if e.1 = i then some e.2 else none

theorem own_cons_self (i : ι) (e : ε) (es : List (ι × ε)) :
    own i ((i, e) :: es) = e :: own i es := by
  simp [own]

theorem own_cons_of_ne {i j : ι} (h : i ≠ j) (e : ε) (es : List (ι × ε)) :
    own j ((i, e) :: es) = own j es := by
  simp [own, h]

end

variable [DecidableEq ι] [DecidableEq β] {step : σ → ε → Option σ} {gives takes : σ → ε → List β}
  {peer : ι → ι} {x x' : Joined ι σ β} {i : ι} {e : ε} {es : List (ι × ε)}

/-- **An event of one of the systems** is a step of it, of which the others see what it gave and
what it took. -/
theorem joined_step (h : joined step gives takes peer x (i, e) = some x') :
    step (x.ends i) e = some (x'.ends i) ∧ (∀ j, j ≠ i → x'.ends j = x.ends j) ∧
      (∀ j, (x'.wires j).given =
        (x.wires j).given ++ if j = i then gives (x.ends i) e else []) ∧
      ∀ j, (x'.wires j).taken =
        (x.wires j).taken ++ if j = peer i then takes (x.ends i) e else [] := by
  unfold joined at h
  obtain ⟨hnext, h⟩ := Option.ite_none_right_eq_some.mp h
  obtain ⟨s, hs, rfl⟩ := Option.map_eq_some_iff.mp h
  dsimp only at hnext hs ⊢
  refine ⟨by rw [Function.update_self]; exact hs, fun j hj => Function.update_of_ne hj ..,
    fun j => ?_, fun j => ?_⟩
  · have hdeliver : ∀ (q : Conduit β) (n : Nat),
        (if j = peer i then q.deliver n else q).given = q.given := by
      intro q n
      split <;> rfl
    rw [hdeliver]
    split
    · rfl
    · exact (List.append_nil _).symm
  · -- what is taken is the next of what is held, also if the same event gave more
    have haccept : ∀ ys : List β, (if j = i then (x.wires j).accept ys else x.wires j).taken =
        (x.wires j).taken := by
      intro ys
      split <;> rfl
    by_cases hp : j = peer i
    · rw [if_pos hp, if_pos hp, Conduit.taken_deliver, haccept]
      rw [hp]
      split
      · exact hnext.trans (List.prefix_append ..)
      · exact hnext
    · rw [if_neg hp, if_neg hp, haccept, List.append_nil]

/-- **Each goes through a run of its own**, and the conduits say what it gave and what its peer
took. -/
theorem joined_run (hpeer : ∀ j, peer (peer j) = j)
    (hr : run (joined step gives takes peer) x es = some x') (i : ι) :
    run step (x.ends i) (own i es) = some (x'.ends i) ∧
      (x'.wires i).given = (x.wires i).given ++ trace step gives (x.ends i) (own i es) ∧
      (x'.wires i).taken =
        (x.wires i).taken ++ trace step takes (x.ends (peer i)) (own (peer i) es) := by
  induction es generalizing x with
  | nil =>
    obtain rfl := Option.some.inj hr
    simp [own]
  | cons e es ih =>
    obtain ⟨j, e⟩ := e
    obtain ⟨y, hy, hrest⟩ := run_cons_some.mp hr
    obtain ⟨hstep, hothers, hgiven, htaken⟩ := joined_step hy
    obtain ⟨hrun, hg, ht⟩ := ih hrest
    refine ⟨?_, ?_, ?_⟩
    · by_cases hij : j = i
      · subst hij
        rw [own_cons_self]
        exact run_cons_some.mpr ⟨_, hstep, hrun⟩
      · rw [own_cons_of_ne hij, ← hothers i (Ne.symm hij)]
        exact hrun
    · rw [hg, hgiven i, List.append_assoc]
      by_cases hij : j = i
      · subst hij
        rw [if_pos rfl, own_cons_self, trace_cons hstep]
      · rw [if_neg (Ne.symm hij), own_cons_of_ne hij, hothers i (Ne.symm hij), List.nil_append]
    · rw [ht, htaken i, List.append_assoc]
      by_cases hij : j = peer i
      · subst hij
        rw [hpeer, if_pos rfl, own_cons_self, trace_cons hstep]
      · have hne : i ≠ peer j := fun h => hij (by rw [h, hpeer])
        rw [if_neg hne, own_cons_of_ne hij, hothers (peer i) (Ne.symm hij), List.nil_append]

/-- **What its peer took is the first part of what it gave.** -/
theorem taken_isPrefix {s : ι → σ} (hpeer : ∀ j, peer (peer j) = j)
    (hr : run (joined step gives takes peer) (Joined.start s) es = some x') (i : ι) :
    trace step takes (s (peer i)) (own (peer i) es) <+: trace step gives (s i) (own i es) := by
  obtain ⟨-, hgiven, htaken⟩ := joined_run hpeer hr i
  refine ⟨(x'.wires i).held, ?_⟩
  have hfifo := (x'.wires i).fifo
  rw [hgiven, htaken] at hfifo
  exact hfifo

/-- A condition on the events of all is one on the events of each. -/
theorem joined_along {P : ι → σ → ε → Prop}
    (hr : run (joined step gives takes peer) x es = some x')
    (hp : Along (joined step gives takes peer) (fun x e => P e.1 (x.ends e.1) e.2) x es) (i : ι) :
    Along step (P i) (x.ends i) (own i es) := by
  induction es generalizing x with
  | nil => exact trivial
  | cons e es ih =>
    obtain ⟨j, e⟩ := e
    obtain ⟨y, hy, hrest⟩ := run_cons_some.mp hr
    obtain ⟨hstep, hothers, -⟩ := joined_step hy
    have hlater := ih hrest (hp.2 y hy)
    by_cases hij : j = i
    · subst hij
      rw [own_cons_self]
      refine ⟨hp.1, fun t ht => ?_⟩
      obtain rfl := Option.some.inj (hstep.symm.trans ht)
      exact hlater
    · rw [own_cons_of_ne hij, ← hothers i (Ne.symm hij)]
      exact hlater

end Runs
