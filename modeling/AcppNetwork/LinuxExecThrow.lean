import AcppNetwork.LinuxExecOrder

/-!
# Functions given to `exec` that throw

`handle_event` swaps the whole queue into a local one before it calls the first function.
An exception destroys what is left of the local queue, in every activation of the loop that
it leaves; what was pushed meanwhile is in `pending_callbacks_` and is not touched
(`survives_iff`).
-/
namespace AcppNetwork
namespace Linux
namespace Exec

variable {τ φ : Type}

/-- No function given to `exec` was lost, and none was executed twice; those that still wait
in the queue are the last that were pushed, in this order. -/
structure Kept (s : Context τ φ) : Prop where
  perm : s.pushed.Perm (s.executed ++ s.inHand ++ s.pending)
  order : s.pending <:+ s.pushed

/-- `wait_for_input`, called in `s`, has got to `t`: what waited in the queue and what was
pushed since is executed in this order, but for what the new activations have in hand and what
is in the queue; the eventfd is readable while a function waits; and when an array with its
entry is handled, all that waited is executed. -/
structure GoesOn [DecidableEq τ] (main : τ) (s t : Context τ φ) : Prop where
  order : ∃ above news, t.loops = above ++ s.loops ∧ t.pushed = s.pushed ++ news ∧
    s.executed ++ s.pending ++ news = t.executed ++ above.flatMap Phase.inHand ++ t.pending
  awake : t.NoExec → t.pending ≠ [] → 0 < t.counter
  handled : ∀ events, t.loops = .batch events :: s.loops → .exec ∈ events →
    ∀ es u, Runs.run (step main) t es = some u → Stays main s.loops t es →
      u.loops = .test :: s.loops → s.executed ++ s.pending <+: u.executed

/-- If `wait_for_input` is called, what waits in the queue is executed, each function once and
in order, whatever the threads do until the call is left; and the loop alone can do so. -/
structure Again [DecidableEq τ] (main : τ) (s : Context τ φ) : Prop where
  goesOn : ∀ s₁, step main s .call = some s₁ → ∀ es t, Runs.run (step main) s₁ es = some t →
    Stays main s.loops s₁ es → GoesOn main s t
  drains : s.NoExec → s.mainCalls = true →
    ∃ es t, (∀ e ∈ es, e.ofLoop = true) ∧ Runs.run (step main) s (.call :: es) = some t ∧
      t.executed = s.executed ++ s.pending ∧ t.pending = [] ∧ t.pushed = s.pushed

/-- What is to hold of the functions accepted by `exec` whatever one of them throws. -/
structure Survives [DecidableEq τ] (main : τ) (s : Context τ φ) : Prop where
  kept : Kept s
  again : Again main s

/-- The condition: an exception leaves a `handle_event` only if no function is behind in its
local queue. -/
def NoneBehind (s : Context τ φ) : Event τ φ → Prop
  | .throw => ∀ p ∈ s.loops.head?, p.inHand = []
  | _ => True

instance [DecidableEq φ] (s : Context τ φ) (e : Event τ φ) : Decidable (NoneBehind s e) := by
  rcases e with ⟨⟩ <;> unfold NoneBehind <;> infer_instance

section
variable {s s' : Context τ φ} {e : Event τ φ} {es : List (Event τ φ)} {p : Phase φ}
  {ls : List (Phase φ)}

open Context

theorem inHand_cons (hl : s.loops = p :: ls) : s.inHand = p.inHand ++ ls.flatMap Phase.inHand := by
  rw [inHand, hl, List.flatMap_cons]

/-- The functions are where they were, or have moved on together. -/
theorem Kept.of_books (h : Kept s) (hpushed : s'.pushed = s.pushed)
    (hpending : s'.pending = s.pending)
    (hbooks : s'.executed ++ s'.inHand = s.executed ++ s.inHand) : Kept s' := by
  constructor
  · rw [hpushed, hbooks, hpending]
    exact h.perm
  · rw [hpushed, hpending]
    exact h.order

/-- The innermost activation goes on at another place with the same functions in hand. -/
theorem Kept.goto {q : Phase φ} (h : Kept s) (hl : s.loops = p :: ls) (hl' : s'.loops = q :: ls)
    (hq : q.inHand = p.inHand) (hpushed : s'.pushed = s.pushed)
    (hpending : s'.pending = s.pending) (hexecuted : s'.executed = s.executed) : Kept s' := by
  refine h.of_books hpushed hpending ?_
  rw [hexecuted, inHand_cons hl, inHand_cons hl', hq]

/-- The innermost activation ends with nothing in hand. -/
theorem Kept.pop (h : Kept s) (hl : s.loops = p :: ls) (hp : p.inHand = []) :
    Kept { s with loops := ls } := by
  refine h.of_books rfl rfl ?_
  rw [inHand_cons hl, hp]
  rfl

variable [DecidableEq τ] {main : τ}

/-- **A step that leaves no function behind keeps them all.** -/
theorem Step.kept (hs : Step main s e s') (h : Kept s) (hp : NoneBehind s e) : Kept s' := by
  cases hs with
  | @push t f hfree hmain =>
    constructor
    · show (s.pushed ++ [f]).Perm (s.executed ++ s.inHand ++ (s.pending ++ [f]))
      rw [← List.append_assoc]
      exact h.perm.append_right [f]
    · exact List.suffix_append_self_iff.mpr h.order
  | count | write | stop | others => exact ⟨h.perm, h.order⟩
  | call => exact h.of_books rfl rfl rfl
  | enter hl | test hl _ | wait hl | batchEnd hl | handle hl | callbacksEnd hl | ready hl _
  | cbBack _ hl | handlerBack _ hl => exact h.goto hl rfl rfl rfl rfl rfl
  | leave hl _ | failed hl => exact h.pop hl rfl
  | throw _ hl _ => exact h.pop hl (hp _ (by rw [hl]; rfl))
  | @swap rest ls hl =>
    constructor
    · -- the queue comes to stand before what the outer activations have in hand
      have hperm := h.perm
      rw [inHand_cons hl] at hperm
      show s.pushed.Perm (s.executed ++ (s.pending ++ ls.flatMap Phase.inHand) ++ [])
      rw [List.append_nil]
      refine hperm.trans ?_
      rw [List.append_assoc]
      exact (List.perm_append_comm).append_left s.executed
    · exact List.nil_suffix
  | @cb f cs rest ls hl =>
    refine h.of_books rfl rfl ?_
    rw [inHand_cons hl]
    show s.executed ++ [f] ++ (cs ++ ls.flatMap Phase.inHand) = _
    simp [Phase.inHand]

/-- **An exception that leaves a function behind loses it.** -/
theorem not_kept_of_throw (hs : Step main s .throw s') (h : Kept s) (hp : ¬ NoneBehind s .throw) :
    ¬ Kept s' := by
  cases hs with
  | @throw p ls hfree hl hcalls =>
    intro h'
    refine hp fun q hq => ?_
    rw [hl] at hq
    obtain rfl := Option.some.inj hq
    have hlength := (h.perm.symm.trans h'.perm).length_eq
    rw [inHand_cons hl] at hlength
    have hrest : ({ s with loops := ls } : Context τ φ).inHand = ls.flatMap Phase.inHand := rfl
    rw [hrest] at hlength
    simp only [List.length_append] at hlength
    exact List.eq_nil_of_length_eq_zero (by omega)

theorem kept_iff (hstep : step main s e = some s') (h : Kept s) : Kept s' ↔ NoneBehind s e := by
  have hs := Step.of_step hstep
  refine ⟨fun h' => ?_, hs.kept h⟩
  by_contra hp
  cases e with
  | throw => exact not_kept_of_throw hs h hp h'
  | _ => exact hp trivial

/-! ## The new activations by themselves -/

/-- The same with these activations only, and these functions on record as pushed. -/
def Context.alone (s : Context τ φ) (loops : List (Phase φ)) (pushed : List φ) : Context τ φ :=
  { s with loops := loops, pushed := pushed }

omit [DecidableEq τ] in
theorem mainCalls_alone {above : List (Phase φ)} (hl : s.loops = p :: above ++ ls)
    (pushed : List φ) : (s.alone (p :: above) pushed).mainCalls = s.mainCalls := by
  unfold mainCalls
  rw [hl]
  rfl

/-- **The activations above `ls` do not look at those in `ls`**, as long as one of them is
left. -/
theorem Step.alone {above : List (Phase φ)} (hs : Step main s e s')
    (hl : s.loops = p :: above ++ ls) (habove : ls.length < s'.loops.length) :
    ∃ q above' news, s'.loops = q :: above' ++ ls ∧ s'.pushed = s.pushed ++ news ∧
      ∀ pushed, Step main (s.alone (p :: above) pushed) e
        (s'.alone (q :: above') (pushed ++ news)) := by
  -- nothing is pushed, and the innermost activation goes on, calls one, or ends
  have goes : ∀ {q : Phase φ} {above' : List (Phase φ)}, s'.loops = q :: above' ++ ls →
      s'.pushed = s.pushed →
      (∀ pushed, Step main (s.alone (p :: above) pushed) e (s'.alone (q :: above') pushed)) →
      ∃ q above' news, s'.loops = q :: above' ++ ls ∧ s'.pushed = s.pushed ++ news ∧
        ∀ pushed, Step main (s.alone (p :: above) pushed) e
          (s'.alone (q :: above') (pushed ++ news)) := by
    intro q above' hl' hpushed hstep
    refine ⟨q, above', [], hl', by rw [hpushed, List.append_nil], fun pushed => ?_⟩
    rw [List.append_nil]
    exact hstep pushed
  have ends : ∀ {loops : List (Phase φ)}, s.loops = p :: loops → s'.loops = loops →
      ∃ q above', above = q :: above' ∧ s'.loops = q :: above' ++ ls := by
    intro loops hloops hl'
    obtain rfl : loops = above ++ ls := (List.cons.inj (hloops.symm.trans hl)).2
    rw [hl'] at habove ⊢
    cases above with
    | nil => exact absurd habove (Nat.lt_irrefl _)
    | cons q above' => exact ⟨q, above', rfl, rfl⟩
  cases hs with
  | @push t f hfree hmain =>
    refine ⟨p, above, [f], hl, rfl, fun pushed => ?_⟩
    exact .push hfree fun ht => (mainCalls_alone hl pushed).trans (hmain ht)
  | count ht => exact goes hl rfl fun _ => .count ht
  | write ht => exact goes hl rfl fun _ => .write ht
  | stop => exact goes hl rfl fun _ => .stop
  | others => exact goes hl rfl fun _ => .others
  | call hfree hmain =>
    have hloops : Phase.entered :: s.loops = .entered :: (p :: above) ++ ls := by
      rw [hl]
      rfl
    refine goes hloops rfl fun pushed => ?_
    exact .call hfree ((mainCalls_alone hl pushed).trans hmain)
  | enter hl' | wait hl' | batchEnd hl' | swap hl' | handle hl' | callbacksEnd hl' | cb hl' =>
    obtain ⟨rfl, rfl⟩ := List.cons.inj (hl'.symm.trans hl)
    refine goes rfl rfl fun _ => ?_
    first
      | exact .enter rfl | exact .wait rfl | exact .batchEnd rfl | exact .swap rfl
      | exact .handle rfl | exact .callbacksEnd rfl | exact .cb rfl
  | test hl' hrun =>
    obtain ⟨rfl, rfl⟩ := List.cons.inj (hl'.symm.trans hl)
    exact goes rfl rfl fun _ => .test rfl hrun
  | ready hl' hready =>
    obtain ⟨rfl, rfl⟩ := List.cons.inj (hl'.symm.trans hl)
    exact goes rfl rfl fun _ => .ready rfl hready
  | cbBack hfree hl' =>
    obtain ⟨rfl, rfl⟩ := List.cons.inj (hl'.symm.trans hl)
    exact goes rfl rfl fun _ => .cbBack hfree rfl
  | handlerBack hfree hl' =>
    obtain ⟨rfl, rfl⟩ := List.cons.inj (hl'.symm.trans hl)
    exact goes rfl rfl fun _ => .handlerBack hfree rfl
  | leave hl' hrun =>
    obtain rfl := (List.cons.inj (hl'.symm.trans hl)).1
    obtain ⟨q, above', rfl, hloops⟩ := ends hl' rfl
    exact goes hloops rfl fun _ => .leave rfl hrun
  | failed hl' =>
    obtain rfl := (List.cons.inj (hl'.symm.trans hl)).1
    obtain ⟨q, above', rfl, hloops⟩ := ends hl' rfl
    exact goes hloops rfl fun _ => .failed rfl
  | throw hfree hl' hp =>
    obtain rfl := (List.cons.inj (hl'.symm.trans hl)).1
    obtain ⟨q, above', rfl, hloops⟩ := ends hl' rfl
    exact goes hloops rfl fun _ => .throw hfree rfl hp

/-- Where the activations above `ls` are one, it is this one. -/
theorem eq_of_cons_append {q r : Phase φ} {above : List (Phase φ)}
    (h : q :: above ++ ls = r :: ls) : q = r ∧ above = [] := by
  obtain ⟨rfl, happend⟩ := List.cons.inj h
  exact ⟨rfl, List.append_left_eq_self.mp happend⟩

/-- A run of which the activations in `ls` are no part is a run without them. -/
theorem run_alone {above : List (Phase φ)} {t : Context τ φ} (hl : s.loops = p :: above ++ ls)
    (hr : Runs.run (step main) s es = some t) (hstays : Stays main ls s es) :
    ∃ q above' news, t.loops = q :: above' ++ ls ∧ t.pushed = s.pushed ++ news ∧
      ∀ pushed, Runs.run (step main) (s.alone (p :: above) pushed) es =
          some (t.alone (q :: above') (pushed ++ news)) ∧
        Stays main [] (s.alone (p :: above) pushed) es := by
  induction es generalizing s p above with
  | nil =>
    obtain rfl := Option.some.inj hr
    refine ⟨p, above, [], hl, (List.append_nil _).symm, fun pushed => ⟨?_, trivial, ?_⟩⟩
    · rw [List.append_nil]
      rfl
    · exact Nat.succ_pos _
  | cons e es ih =>
    obtain ⟨u, hu, hut⟩ := Runs.run_cons_some.mp hr
    obtain ⟨hret, hrets⟩ := hstays.returns
    obtain ⟨-, haboves⟩ := hstays.above
    have hs := Step.of_step hu
    obtain ⟨q, above', news, hloops, hpushed, hstep⟩ := hs.alone hl (haboves u hu).start
    obtain ⟨r, above'', news', hloops', hpushed', hrest⟩ :=
      ih hloops hut ⟨hrets u hu, haboves u hu⟩
    refine ⟨r, above'', news ++ news', hloops', ?_, fun pushed => ?_⟩
    · rw [hpushed', hpushed, List.append_assoc]
    · have hstep' := (hstep pushed).step_eq
      obtain ⟨hrun, hstays'⟩ := hrest (pushed ++ news)
      rw [← List.append_assoc]
      refine ⟨Runs.run_cons_some.mpr ⟨_, hstep', hrun⟩, ⟨?_, fun v hv => ?_⟩,
        ⟨Nat.succ_pos _, fun v hv => ?_⟩⟩
      · cases e with
        | call | throw =>
          intro q hq
          exact hret q (by rw [hl]; exact hq)
        | _ => trivial
      · obtain rfl := Option.some.inj (hstep'.symm.trans hv)
        exact hstays'.returns
      · obtain rfl := Option.some.inj (hstep'.symm.trans hv)
        exact hstays'.above

/-! ## Calling `wait_for_input` again -/

/-- **What waits in the queue when `wait_for_input` is called is executed in order.** -/
theorem goesOn_of_call {s₁ t : Context τ φ} (hkept : Kept s) (hawake : s.Awake)
    (hcall : step main s .call = some s₁) (hr : Runs.run (step main) s₁ es = some t)
    (hstays : Stays main s.loops s₁ es) : GoesOn main s t := by
  obtain ⟨-, hcalled⟩ := Option.ite_none_right_eq_some.mp hcall
  obtain rfl := Option.some.inj hcalled
  obtain ⟨q, above, news, hloops, hpushed, hrun⟩ :=
    run_alone (show _ = Phase.entered :: [] ++ s.loops from rfl) hr hstays
  obtain ⟨hrun, hstays'⟩ := hrun (s.executed ++ s.pending)
  have horder : (t.alone (q :: above) (s.executed ++ s.pending ++ news)).Ordered := by
    refine Runs.run_invariant_along (fun _ _ _ h hp hstep => (Step.of_step hstep).ordered h hp)
      ?_ hstays'.returns hrun
    exact ordered_cons rfl (by simp [alone, Phase.inHand]) (by simp)
  refine ⟨⟨q :: above, news, hloops, hpushed, horder.order⟩, fun hfree hpending => ?_, ?_⟩
  · have hawake' : t.Awake := Runs.run_invariant
      (fun _ _ _ h hstep => (Step.of_step hstep).awake h)
      ((Step.of_step hcall).awake hawake) hr
    refine counter_pos hawake' hfree fun hnone => ?_
    -- nothing is pushed, so nothing waits
    obtain ⟨hnone, rfl⟩ := List.append_eq_nil_iff.mp (hpushed.symm.trans hnone)
    have hbooks := hkept.perm
    rw [show s.pushed = [] from hnone] at hbooks
    obtain ⟨hdone, hqueue⟩ := List.append_eq_nil_iff.mp hbooks.nil_eq.symm
    have hall := horder.order
    change s.executed ++ s.pending ++ [] = _ at hall
    rw [(List.append_eq_nil_iff.mp hdone).1, hqueue] at hall
    exact hpending (List.append_eq_nil_iff.mp hall.symm).2
  · intro events hl hexec fs u hu hstays'' htest
    obtain ⟨rfl, rfl⟩ := eq_of_cons_append (hloops.symm.trans hl)
    obtain ⟨r, above, news', hloops', -, hrun'⟩ :=
      run_alone (show _ = Phase.batch events :: [] ++ s.loops from hl) hu hstays''
    obtain ⟨rfl, rfl⟩ := eq_of_cons_append (hloops'.symm.trans htest)
    obtain ⟨hrun', hstays''⟩ := hrun' (s.executed ++ s.pending ++ news)
    have hall := handled horder rfl hexec hrun' hstays'' rfl
    exact (List.prefix_append ..).trans hall

/-- The loop alone executes what waits in the queue. -/
theorem drains_of_awake (hawake : s.Awake) (horder : s.pending <:+ s.pushed) (hfree : s.NoExec)
    (hmain : s.mainCalls = true) :
    ∃ es t, (∀ e ∈ es, e.ofLoop = true) ∧ Runs.run (step main) s (.call :: es) = some t ∧
      t.executed = s.executed ++ s.pending ∧ t.pending = [] ∧ t.pushed = s.pushed := by
  have hcall : Runs.run (step main) s [.call, .code, .code, .code] =
      some { s with run := true, stopped := false, loops := .blocked :: s.loops } := by
    simp [Runs.run_cons, step, code, hfree main, hmain]
  by_cases hpending : s.pending = []
  · exact ⟨[.code, .code, .code], _, by simp [Event.ofLoop], hcall, by simp [hpending], hpending,
      rfl⟩
  · have hpushed : s.pushed ≠ [] := by
      intro hnil
      rw [hnil] at horder
      exact hpending (List.suffix_nil.mp horder)
    have hcounter := counter_pos hawake hfree hpushed
    obtain ⟨es, hloop, hrun⟩ := run_callbacks s.pending []
      (s := { s with
        run := true
        stopped := false
        pending := []
        loops := .callbacks s.pending [] :: s.loops }) (hfree main) rfl
    have hready : Runs.run (step main)
        { s with run := true, stopped := false, loops := .blocked :: s.loops }
        [.ready [.exec], .code] =
        some { s with
          run := true
          stopped := false
          pending := []
          loops := .callbacks s.pending [] :: s.loops } := by
      simp [Runs.run_cons, step, code, Reports, hcounter]
    have hall := Runs.run_append_some.mpr
      ⟨_, hcall, Runs.run_append_some.mpr ⟨_, hready, hrun⟩⟩
    exact ⟨_, _, by simpa [Event.ofLoop] using hloop, hall, rfl, rfl, rfl⟩

theorem again_of_kept (hkept : Kept s) (hawake : s.Awake) : Again main s :=
  ⟨fun _ hcall _ _ hr hstays => goesOn_of_call hkept hawake hcall hr hstays,
    drains_of_awake hawake hkept.order⟩

/-- **When a function that throws costs no other function.**  In every interleaving of any
threads no function is lost, executed twice or overtaken in the queue, and those that wait
are executed when `wait_for_input` is called again, exactly if no exception leaves a
`handle_event` with functions behind in its local queue. -/
theorem survives_iff (hr : Runs.run (step main) Context.new es = some s) :
    Runs.Throughout (step main) (Survives main) (Context.new : Context τ φ) es ↔
      Runs.Along (step main) NoneBehind (Context.new : Context τ φ) es := by
  refine Runs.throughout_iff_along (J := Context.Awake)
    (fun _ _ _ h hstep => (Step.of_step hstep).awake h) (fun t e t' hawake h hstep => ?_)
    (.inr (.inr ⟨rfl, by simp [Context.new], by simp [Context.new]⟩)) ?_ hr
  · have hiff := kept_iff hstep h.kept
    refine ⟨fun h' => hiff.mp h'.kept, fun hp => ?_⟩
    have hkept := hiff.mpr hp
    exact ⟨hkept, again_of_kept hkept ((Step.of_step hstep).awake hawake)⟩
  · have hkept : Kept (Context.new : Context τ φ) := ⟨List.Perm.refl _, List.suffix_refl _⟩
    refine ⟨hkept, again_of_kept hkept ?_⟩
    exact .inr (.inr ⟨rfl, by simp [Context.new], by simp [Context.new]⟩)

end

/-- The thread of the loop is `true`.  7 pushes 8 while it runs, alone in its batch, and then
throws. -/
def throwsAlone : List (Event Bool Nat) :=
  [.call, .code, .code, .code, .push false 7, .count false, .write false, .ready [.exec],
    .code, .code, .push true 8, .count true, .write true, .throw]

theorem survives_throwsAlone :
    ∃ s, Runs.run (step true) Context.new throwsAlone = some s ∧ s.pending = [8] ∧
      Survives true s := by
  obtain ⟨s, hr, hpending⟩ : ∃ s, Runs.run (step true) Context.new throwsAlone = some s ∧
      s.pending = [8] :=
    Runs.exists_run (by decide)
  have hall := (survives_iff hr).mpr (by decide)
  exact ⟨s, hr, hpending, (Runs.throughout_iff_prefix.mp hall) _ (List.prefix_refl _) s hr⟩

/-- 7 and 8 are in one batch, and 7 throws: `wait_for_input` is called again and sleeps, and
8 was never executed. -/
def throwsFirst : List (Event Bool Nat) :=
  [.call, .code, .code, .code, .push false 7, .count false, .write false, .push false 8,
    .count false, .write false, .ready [.exec], .code, .code, .throw, .call, .code, .code, .code,
    .ready [.exec], .code, .code, .code, .code, .code]

theorem function_lost :
    ∃ s, Runs.run (step true) Context.new throwsFirst = some s ∧ s.pushed = [7, 8] ∧
      s.executed = [7] ∧ s.Idle ∧ ¬ Survives true s := by
  obtain ⟨s, hr, hpushed, hexecuted, hidle, hloops⟩ :
      ∃ s, Runs.run (step true) Context.new throwsFirst = some s ∧ s.pushed = [7, 8] ∧
        s.executed = [7] ∧ s.Idle ∧ s.loops = [.blocked] :=
    Runs.exists_run (by decide)
  refine ⟨s, hr, hpushed, hexecuted, hidle, fun h => ?_⟩
  have hlength := h.kept.perm.length_eq
  have hnone : s.inHand = [] := by rw [Context.inHand, hloops]; rfl
  rw [hpushed, hexecuted, hnone, hidle.1] at hlength
  cases hlength

end Exec
end Linux
end AcppNetwork
