import AcppNetwork.Reentrant
import AcppNetwork.Refinement
import Mathlib

/-!
# Objects that call each other

Objects that are put together call each other: what one calls out for is an operation of
another (`route`), or still a call to the outside.  Together they are one object again
(`Network.object`): its state is that of all of them, and an activation of it is a stack of
activations of theirs, each called by the one under it, of which the innermost runs.

Each of them goes through a run of its own (`view_run`): what the others do to it are calls of
its operations and returns of what it called.  So whatever holds of every run of an object
holds of it in every network, and a condition on its runs becomes one on what the others do
(`along_view`).  An exception that passes through the activations of several objects is none
that the model of a single one has, so the runs are those without one.
-/
namespace Reentrant

variable {ι : Type} {σ ο φ κ α ρ ν : ι → Type}

/-- Objects, and which calls out of each are operations of which. -/
structure Network (σ ο φ κ α ρ ν : ι → Type) where
  part : (i : ι) → Object (σ i) (ο i) (φ i) (κ i) (α i) (ρ i) (ν i)
  route : (i : ι) → κ i → Option (Σ j, ο j)

/-- An activation of one of the objects: the one that runs, or one that called another. -/
inductive Seg (φ κ : ι → Type) where
  | runs (i : ι) (f : φ i)
  | calls (i : ι) (k : κ i) (f : φ i)

/-- It called another one. -/
def Seg.isCall : Seg φ κ → Bool
  | .runs _ _ => false
  | .calls _ _ _ => true

/-- The one of these that belongs to `j`. -/
def pick [DecidableEq ι] {G : ι → Type} (j : ι) (x : Σ i, G i) : Option (G j) :=
  if h : x.1 = j then some (h ▸ x.2) else none

section
variable [DecidableEq ι] {G : ι → Type} {i j : ι}

@[simp] theorem pick_self (x : G j) : pick j ⟨j, x⟩ = some x := dif_pos rfl

theorem pick_of_ne (h : i ≠ j) (x : G i) : pick j ⟨i, x⟩ = none := dif_neg h

end

namespace Network

abbrev State (σ : ι → Type) := (i : ι) → σ i

/-- A label of the log of an object. -/
abbrev Labels (ο κ ρ ν : ι → Type) := Σ i, Label (ο i) (κ i) (ρ i) (ν i)

/-- What a stretch of code of the network ends with. -/
abbrev Next (σ ο φ κ ρ ν : ι → Type) :=
  Outcome (State σ) (List (Seg φ κ)) (Σ i, κ i) (Σ i, ρ i) (Labels ο κ ρ ν)

variable [DecidableEq ι] (N : Network σ ο φ κ α ρ ν)

/-- An operation of one of the objects starts. -/
def enter (s : State σ) (o : Σ i, ο i) : State σ × List (Seg φ κ) :=
  let entered := (N.part o.1).enter (s o.1) o.2
  (Function.update s o.1 entered.1, [.runs o.1 entered.2])

/-- The notes of one of the objects. -/
def ownNotes (i : ι) (ns : List (ν i)) : List (Labels ο κ ρ ν) := ns.map fun n => ⟨i, .note n⟩

/-- What becomes of the network when the running activation of `i`, called by those in
`rest`, ends a stretch of its code like this. -/
def proceed (s : State σ) (i : ι) (rest : List (Seg φ κ)) :
    Outcome (σ i) (φ i) (κ i) (ρ i) (ν i) → Option (Next σ ο φ κ ρ ν)
  | .goto s' g ns =>
      some (.goto (Function.update s i s') (.runs i g :: rest) (ownNotes i ns))
  | .callOut s' g k ns =>
      let s' := Function.update s i s'
      match N.route i k with
      | some o =>
          some (.goto (N.enter s' o).1 ((N.enter s' o).2 ++ .calls i k g :: rest)
            (ownNotes i ns ++ [⟨i, .callOut k⟩, ⟨o.1, .call o.2⟩]))
      | none => some (.callOut s' (.runs i g :: rest) ⟨i, k⟩ (ownNotes i ns))
  | .ret s' r ns =>
      let s' := Function.update s i s'
      match rest with
      | [] => some (.ret s' ⟨i, r⟩ (ownNotes i ns))
      | .calls j _ g :: rest =>
          some (.goto s' (.runs j g :: rest) (ownNotes i ns ++ [⟨i, .ret r⟩]))
      | .runs _ _ :: _ => none
  | .throw s' ns => some (.throw (Function.update s i s') (ownNotes i ns))

/-- The innermost activation runs. -/
def resume (s : State σ) : List (Seg φ κ) → (Σ i, α i) → Option (Next σ ο φ κ ρ ν)
  | .runs i f :: rest, a =>
      (pick i a).bind fun a => ((N.part i).resume (s i) f a).bind fun out => N.proceed s i rest out
  | _, _ => none

/-- The objects together. -/
def object : Object (State σ) (Σ i, ο i) (List (Seg φ κ)) (Σ i, κ i) (Σ i, α i) (Σ i, ρ i)
    (Labels ο κ ρ ν) := ⟨N.enter, N.resume⟩

end Network

/-- A label of the log of a network: those of the objects are notes of it. -/
abbrev NetLabel (ο κ ρ ν : ι → Type) :=
  Label (Σ i, ο i) (Σ i, κ i) (Σ i, ρ i) (Network.Labels ο κ ρ ν)

/-- A configuration of a network. -/
abbrev NetConfig (σ ο φ κ ρ ν : ι → Type) :=
  Config (Network.State σ) (Σ i, ο i) (List (Seg φ κ)) (Σ i, κ i) (Σ i, ρ i)
    (Network.Labels ο κ ρ ν)

/-! ## The stack of a network -/

/-- Every activation of the network has an object that runs, called by others, and if it called
out it was this object that did. -/
inductive Wired : List (Act (List (Seg φ κ)) (Σ i, κ i)) → Prop where
  | nil : Wired []
  | code {i f rest stack} (hrest : ∀ x ∈ rest, x.isCall = true) (hout : outsideRuns stack = true)
      (h : Wired stack) : Wired (.code (.runs i f :: rest) :: stack)
  | outside {i k f rest stack} (h : Wired (.code (.runs i f :: rest) :: stack)) :
      Wired (.outside ⟨i, k⟩ :: .code (.runs i f :: rest) :: stack)

/-- The activation that runs stays on top of those that called it. -/
theorem Wired.top {i : ι} {f : φ i} {rest : List (Seg φ κ)}
    {stack : List (Act (List (Seg φ κ)) (Σ i, κ i))}
    (h : Wired (.code (.runs i f :: rest) :: stack)) :
    (∀ x ∈ rest, x.isCall = true) ∧ outsideRuns stack = true ∧ Wired stack := by
  cases h with
  | code hrest hout h => exact ⟨hrest, hout, h⟩

/-- It does not matter where it stands. -/
theorem Wired.goto {i : ι} {f g : φ i} {rest : List (Seg φ κ)}
    {stack : List (Act (List (Seg φ κ)) (Σ i, κ i))}
    (h : Wired (.code (.runs i f :: rest) :: stack)) :
    Wired (.code (.runs i g :: rest) :: stack) := by
  obtain ⟨hrest, hout, hstack⟩ := h.top
  exact .code hrest hout hstack

/-- Where an activation stands. -/
def Seg.frame : Seg φ κ → Σ i, φ i
  | .runs i f | .calls i _ f => ⟨i, f⟩

/-- The activations of all objects, innermost first. -/
def activations (stack : List (Act (List (Seg φ κ)) (Σ i, κ i))) : List (Σ i, φ i) :=
  stack.flatMap fun
    | .code segs => segs.map Seg.frame
    | .outside _ => []

section
variable {segs : List (Seg φ κ)} {stack : List (Act (List (Seg φ κ)) (Σ i, κ i))}

@[simp] theorem activations_code :
    activations (.code segs :: stack) = segs.map Seg.frame ++ activations stack := rfl

@[simp] theorem activations_outside (k : Σ i, κ i) :
    activations (.outside k :: stack) = activations stack := rfl

end

/-! ## What one object sees -/

section
variable [DecidableEq ι] (j : ι)

/-- The activations of `j`, each with what it called. -/
def viewSeg : Seg φ κ → List (Act (φ j) (κ j))
  | .runs i f => ((pick j ⟨i, f⟩ : Option (φ j)).map .code).toList
  | .calls i k f =>
      ((pick (G := fun i => κ i × φ i) j ⟨i, (k, f)⟩).map fun x =>
        [.outside x.1, .code x.2]).getD []

def viewAct : Act (List (Seg φ κ)) (Σ i, κ i) → List (Act (φ j) (κ j))
  | .code segs => segs.flatMap (viewSeg j)
  | .outside k => ((pick j k).map .outside).toList

def viewStack (stack : List (Act (List (Seg φ κ)) (Σ i, κ i))) : List (Act (φ j) (κ j)) :=
  stack.flatMap (viewAct j)

/-- What a label of the network's log says about `j`. -/
def viewLabel : NetLabel ο κ ρ ν →
    Option (Label (ο j) (κ j) (ρ j) (ν j))
  | .call o => (pick j o).map .call
  | .callOut k => (pick j k).map .callOut
  | .ret r => (pick j r).map .ret
  | .thrown => none
  | .note l => pick j l

/-- What the log of the network says about `j`. -/
def viewLog (log : List (NetLabel ο κ ρ ν)) :
    List (Label (ο j) (κ j) (ρ j) (ν j)) := log.filterMap (viewLabel j)

/-- The configuration of `j`. -/
def view (c : NetConfig σ ο φ κ ρ ν) : Config (σ j) (ο j) (φ j) (κ j) (ρ j) (ν j) where
  state := c.state j
  stack := viewStack j c.stack
  log := viewLog j c.log

section
variable {j : ι} {i : ι} {segs rest : List (Seg φ κ)}
  {stack : List (Act (List (Seg φ κ)) (Σ i, κ i))}

@[simp] theorem viewStack_nil :
    viewStack j ([] : List (Act (List (Seg φ κ)) (Σ i, κ i))) = [] := rfl

@[simp] theorem viewStack_done : viewStack j (.code [] :: stack) = viewStack j stack := rfl

@[simp] theorem viewStack_runs (f : φ j) :
    viewStack j (.code (.runs j f :: rest) :: stack) =
      .code f :: viewStack j (.code rest :: stack) := by
  simp [viewStack, viewAct, viewSeg]

theorem viewStack_runs_of_ne (h : i ≠ j) (f : φ i) :
    viewStack j (.code (.runs i f :: rest) :: stack) = viewStack j (.code rest :: stack) := by
  simp [viewStack, viewAct, viewSeg, pick_of_ne h]

@[simp] theorem viewStack_calls (k : κ j) (f : φ j) :
    viewStack j (.code (.calls j k f :: rest) :: stack) =
      .outside k :: .code f :: viewStack j (.code rest :: stack) := by
  simp [viewStack, viewAct, viewSeg]

theorem viewStack_calls_of_ne (h : i ≠ j) (k : κ i) (f : φ i) :
    viewStack j (.code (.calls i k f :: rest) :: stack) = viewStack j (.code rest :: stack) := by
  simp [viewStack, viewAct, viewSeg, pick_of_ne (G := fun i => κ i × φ i) h]

@[simp] theorem viewStack_outside (k : κ j) :
    viewStack j (.outside ⟨j, k⟩ :: stack) = .outside k :: viewStack j stack := by
  simp [viewStack, viewAct]

theorem viewStack_outside_of_ne (h : i ≠ j) (k : κ i) :
    viewStack j (.outside ⟨i, k⟩ :: stack) = viewStack j stack := by
  simp [viewStack, viewAct, pick_of_ne h]

/-- Objects that called another one do not run. -/
theorem outsideRuns_calls (hrest : ∀ x ∈ rest, x.isCall = true)
    (hout : outsideRuns (viewStack j stack) = true) :
    outsideRuns (viewStack j (.code rest :: stack)) = true := by
  induction rest with
  | nil => exact hout
  | cons x rest ih =>
    obtain ⟨hx, hcalls⟩ := List.forall_mem_cons.mp hrest
    cases x with
    | runs i f => cases hx
    | calls i k f =>
      by_cases hij : i = j
      · subst hij
        rw [viewStack_calls]
        rfl
      · rw [viewStack_calls_of_ne hij]
        exact ih hcalls

/-- Where the outside runs, no object does, and where one object runs, no other. -/
theorem Wired.outsideRuns (h : Wired stack) :
    (Reentrant.outsideRuns stack = true → Reentrant.outsideRuns (viewStack j stack) = true) ∧
      ∀ i f rest stack', stack = .code (.runs i f :: rest) :: stack' →
        Reentrant.outsideRuns (viewStack j (.code rest :: stack')) = true := by
  induction h with
  | nil => exact ⟨fun _ => rfl, fun i f rest stack' heq => (by cases heq)⟩
  | code hrest hout h ih =>
    refine ⟨fun hrun => (by cases hrun), fun i f rest stack' heq => ?_⟩
    cases heq
    exact outsideRuns_calls hrest (ih.1 hout)
  | @outside i k f rest stack h ih =>
    refine ⟨fun _ => ?_, fun i f rest stack' heq => (by cases heq)⟩
    by_cases hij : i = j
    · subst hij
      rw [viewStack_outside]
      rfl
    · rw [viewStack_outside_of_ne hij, viewStack_runs_of_ne hij]
      exact ih.2 i f rest stack rfl

/-- The activations that `j` sees are its own. -/
theorem frames_viewStack :
    frames (viewStack j stack) = (activations stack).filterMap (pick j) := by
  induction stack with
  | nil => rfl
  | cons top stack ih =>
    cases top with
    | code segs =>
      induction segs with
      | nil => exact ih
      | cons x segs ihs =>
        rw [activations_code, List.map_cons, List.cons_append, ← activations_code]
        cases x with
        | runs i f | calls i k f =>
          by_cases hij : i = j
          · subst hij
            simp [Seg.frame, ihs]
          · simp [Seg.frame, pick_of_ne hij, viewStack_runs_of_ne hij, viewStack_calls_of_ne hij,
              ihs]
    | outside k =>
      obtain ⟨i, k⟩ := k
      by_cases hij : i = j
      · subst hij
        simpa using ih
      · rw [viewStack_outside_of_ne hij]
        exact ih

/-! ## Runs -/

variable (N : Network σ ο φ κ α ρ ν) (j)

/-- What a stretch of code of `i` that ends like this is to `j`, besides being one of `j`. -/
def Network.afterwards (i : ι) (rest : List (Seg φ κ)) :
    Outcome (σ i) (φ i) (κ i) (ρ i) (ν i) → List (Event (ο j) (α j))
  | .callOut _ _ k _ => (((N.route i k).bind (pick j)).map .call).toList
  | .ret _ _ _ =>
      match rest with
      | .calls i' _ _ :: _ => if i' = j then [.back] else []
      | _ => []
  | _ => []

/-- What an event of the network is to `j`. -/
def Network.viewEvent (c : NetConfig σ ο φ κ ρ ν) :
    Event (Σ i, ο i) (Σ i, α i) → List (Event (ο j) (α j))
  | .call o => ((pick j o).map .call).toList
  | .code a =>
      match c.stack with
      | .code (.runs i f :: rest) :: _ =>
          ((pick j a).map .code).toList ++
            (((pick i a).bind ((N.part i).resume (c.state i) f)).map
              (N.afterwards j i rest)).getD []
      | _ => []
  | .back =>
      match c.stack with
      | .outside k :: _ => ((pick j k).map fun _ => .back).toList
      | _ => []
  | .unwind _ _ => []

/-- No exception leaves an activation. -/
def NoThrow {ο α : Type} : Event ο α → Prop
  | .unwind _ _ => False
  | _ => True

instance {ο α : Type} (e : Event ο α) : Decidable (NoThrow e) := by
  rcases e with o | a | ⟨a, depth⟩ | _ <;> unfold NoThrow <;> infer_instance

variable {N j} {c c' : NetConfig σ ο φ κ ρ ν} {e : Event (Σ i, ο i) (Σ i, α i)}

/-- What an object sees is no exception. -/
theorem Network.viewEvent_noThrow : ∀ x ∈ N.viewEvent j c e, NoThrow x := by
  intro x hx
  cases e with
  | call o =>
    obtain ⟨o', -, rfl⟩ := Option.map_eq_some_iff.mp (Option.mem_toList.mp hx)
    exact trivial
  | code a =>
    simp only [Network.viewEvent] at hx
    split at hx
    · rename_i i f rest stack hstack
      rcases List.mem_append.mp hx with hx | hx
      · obtain ⟨a', -, rfl⟩ := Option.map_eq_some_iff.mp (Option.mem_toList.mp hx)
        exact trivial
      · cases hres : (pick i a).bind ((N.part i).resume (c.state i) f) with
        | none => simp [hres] at hx
        | some out =>
          simp only [hres, Option.map_some, Option.getD_some] at hx
          cases out with
          | callOut =>
            obtain ⟨o, -, rfl⟩ := Option.map_eq_some_iff.mp (Option.mem_toList.mp hx)
            exact trivial
          | ret =>
            simp only [Network.afterwards] at hx
            split at hx
            · split at hx
              · obtain rfl := List.mem_singleton.mp hx
                exact trivial
              · cases hx
            · cases hx
          | goto | throw => cases hx
    · cases hx
  | back =>
    simp only [Network.viewEvent] at hx
    split at hx
    · obtain ⟨k, -, rfl⟩ := Option.map_eq_some_iff.mp (Option.mem_toList.mp hx)
      exact trivial
    · cases hx
  | unwind => cases hx

/-- What a stretch of the network's code is: one of the object that runs. -/
inductive Network.Stretch (N : Network σ ο φ κ α ρ ν) (s : Network.State σ) :
    List (Seg φ κ) → (Σ i, α i) → Network.Next σ ο φ κ ρ ν → Prop where
  | goto {i f rest a s' g ns} (h : (N.part i).resume (s i) f a = some (.goto s' g ns)) :
      Stretch N s (.runs i f :: rest) ⟨i, a⟩
        (.goto (Function.update s i s') (.runs i g :: rest) (Network.ownNotes i ns))
  | callTo {i f rest a s' g k ns m o}
      (h : (N.part i).resume (s i) f a = some (.callOut s' g k ns))
      (hroute : N.route i k = some ⟨m, o⟩) :
      Stretch N s (.runs i f :: rest) ⟨i, a⟩
        (.goto (N.enter (Function.update s i s') ⟨m, o⟩).1
          ((N.enter (Function.update s i s') ⟨m, o⟩).2 ++ .calls i k g :: rest)
          (Network.ownNotes i ns ++ [⟨i, .callOut k⟩, ⟨m, .call o⟩]))
  | callOut {i f rest a s' g k ns}
      (h : (N.part i).resume (s i) f a = some (.callOut s' g k ns))
      (hroute : N.route i k = none) :
      Stretch N s (.runs i f :: rest) ⟨i, a⟩
        (.callOut (Function.update s i s') (.runs i g :: rest) ⟨i, k⟩ (Network.ownNotes i ns))
  | ret {i f a s' r ns} (h : (N.part i).resume (s i) f a = some (.ret s' r ns)) :
      Stretch N s [.runs i f] ⟨i, a⟩
        (.ret (Function.update s i s') ⟨i, r⟩ (Network.ownNotes i ns))
  | retTo {i f rest a s' r ns m k g}
      (h : (N.part i).resume (s i) f a = some (.ret s' r ns)) :
      Stretch N s (.runs i f :: .calls m k g :: rest) ⟨i, a⟩
        (.goto (Function.update s i s') (.runs m g :: rest)
          (Network.ownNotes i ns ++ [⟨i, .ret r⟩]))
  | throw {i f rest a s' ns} (h : (N.part i).resume (s i) f a = some (.throw s' ns)) :
      Stretch N s (.runs i f :: rest) ⟨i, a⟩
        (.throw (Function.update s i s') (Network.ownNotes i ns))

theorem Network.stretch_of_resume {s : Network.State σ} {a : Σ i, α i}
    {next : Network.Next σ ο φ κ ρ ν} (h : N.resume s segs a = some next) :
    N.Stretch s segs a next := by
  unfold Network.resume at h
  split at h
  · rename_i i f rest
    obtain ⟨a', ha, h⟩ := Option.bind_eq_some_iff.mp h
    obtain ⟨out, hout, hnext⟩ := Option.bind_eq_some_iff.mp h
    obtain ⟨i', a⟩ := a
    unfold pick at ha
    split at ha
    · rename_i hi
      subst hi
      cases ha
      cases out with
      | goto t g ns =>
        cases hnext
        exact .goto hout
      | callOut t g k ns =>
        simp only [Network.proceed] at hnext
        split at hnext
        · rename_i o hroute
          obtain ⟨m, o⟩ := o
          cases hnext
          exact .callTo hout hroute
        · cases hnext
          exact .callOut hout ‹_›
      | ret t r ns =>
        cases rest with
        | nil =>
          cases hnext
          exact .ret hout
        | cons x rest =>
          cases x with
          | runs => cases hnext
          | calls m k g =>
            cases hnext
            exact .retTo hout
      | throw t ns =>
        cases hnext
        exact .throw hout
    · cases ha
  · cases h

section
variable {log log' : List (NetLabel ο κ ρ ν)}

@[simp] theorem viewLog_nil : viewLog j
    ([] : List (NetLabel ο κ ρ ν)) = [] := rfl

@[simp] theorem viewLog_append : viewLog j (log ++ log') = viewLog j log ++ viewLog j log' :=
  List.filterMap_append

theorem viewLog_cons (l : NetLabel ο κ ρ ν) :
    viewLog j (l :: log) = (viewLabel j l).toList ++ viewLog j log := by
  rw [viewLog, List.filterMap_cons]
  cases viewLabel j l <;> rfl

/-- The notes of an object are in its own log only. -/
@[simp] theorem viewLog_ownNotes (ns : List (ν j)) :
    viewLog j ((Network.ownNotes j ns : List (Network.Labels ο κ ρ ν)).map Label.note) =
      ns.map .note := by
  simp [viewLog, Network.ownNotes, viewLabel, List.filterMap_map, Function.comp_def]

theorem viewLog_ownNotes_of_ne (h : i ≠ j) (ns : List (ν i)) :
    viewLog j ((Network.ownNotes i ns : List (Network.Labels ο κ ρ ν)).map Label.note) = [] := by
  simp [viewLog, Network.ownNotes, viewLabel, List.filterMap_map, Function.comp_def, pick_of_ne h]

end

section
variable {s : Network.State σ} {f : φ i} {a : α i}
  {log : List (NetLabel ο κ ρ ν)}
  {s' : σ i} {g : φ i} {k : κ i} {r : ρ i} {ns : List (ν i)}

/-- The object that runs goes on by itself. -/
theorem view_goto (hres : (N.part i).resume (s i) f a = some (.goto s' g ns)) :
    Runs.run (step (N.part j)) (view j ⟨s, .code (.runs i f :: rest) :: stack, log⟩)
        (N.viewEvent j ⟨s, .code (.runs i f :: rest) :: stack, log⟩ (.code ⟨i, a⟩)) =
      some (view j ⟨Function.update s i s', .code (.runs i g :: rest) :: stack,
        log ++ (Network.ownNotes i ns).map .note⟩) := by
  by_cases hij : i = j
  · subst hij
    simp [Network.viewEvent, Network.afterwards, hres, Runs.run_cons, step, view]
  · simp [Network.viewEvent, Network.afterwards, pick_of_ne hij, hres, view,
      viewStack_runs_of_ne hij, viewLog_ownNotes_of_ne hij, Function.update_of_ne (Ne.symm hij)]

/-- It calls the outside. -/
theorem view_callOut (hres : (N.part i).resume (s i) f a = some (.callOut s' g k ns))
    (hroute : N.route i k = none) :
    Runs.run (step (N.part j)) (view j ⟨s, .code (.runs i f :: rest) :: stack, log⟩)
        (N.viewEvent j ⟨s, .code (.runs i f :: rest) :: stack, log⟩ (.code ⟨i, a⟩)) =
      some (view j ⟨Function.update s i s',
        .outside ⟨i, k⟩ :: .code (.runs i g :: rest) :: stack,
        log ++ (Network.ownNotes i ns).map .note ++ [.callOut ⟨i, k⟩]⟩) := by
  by_cases hij : i = j
  · subst hij
    simp [Network.viewEvent, Network.afterwards, hres, hroute, Runs.run_cons, step, view,
      viewLog_cons, viewLabel]
  · simp [Network.viewEvent, Network.afterwards, pick_of_ne hij, hres, hroute, view,
      viewStack_runs_of_ne hij, viewStack_outside_of_ne hij, viewLog_ownNotes_of_ne hij,
      viewLog_cons, viewLabel,
      Function.update_of_ne (Ne.symm hij)]

/-- It returns to the outside. -/
theorem view_ret (hres : (N.part i).resume (s i) f a = some (.ret s' r ns)) :
    Runs.run (step (N.part j)) (view j ⟨s, .code [.runs i f] :: stack, log⟩)
        (N.viewEvent j ⟨s, .code [.runs i f] :: stack, log⟩ (.code ⟨i, a⟩)) =
      some (view j ⟨Function.update s i s', stack,
        log ++ (Network.ownNotes i ns).map .note ++ [.ret ⟨i, r⟩]⟩) := by
  by_cases hij : i = j
  · subst hij
    simp [Network.viewEvent, Network.afterwards, hres, Runs.run_cons, step, view, viewLog_cons,
      viewLabel]
  · simp [Network.viewEvent, Network.afterwards, pick_of_ne hij, hres, view,
      viewStack_runs_of_ne hij, viewLog_ownNotes_of_ne hij, viewLog_cons, viewLabel,
      Function.update_of_ne (Ne.symm hij)]

/-- It returns to the object that called it. -/
theorem view_retTo {m : ι} {k' : κ m} {g' : φ m}
    (hres : (N.part i).resume (s i) f a = some (.ret s' r ns)) :
    Runs.run (step (N.part j))
        (view j ⟨s, .code (.runs i f :: .calls m k' g' :: rest) :: stack, log⟩)
        (N.viewEvent j ⟨s, .code (.runs i f :: .calls m k' g' :: rest) :: stack, log⟩
          (.code ⟨i, a⟩)) =
      some (view j ⟨Function.update s i s', .code (.runs m g' :: rest) :: stack,
        log ++ (Network.ownNotes i ns ++ [(⟨i, .ret r⟩ : Network.Labels ο κ ρ ν)]).map .note⟩) := by
  by_cases hij : i = j
  · subst hij
    by_cases hmj : m = i
    · subst hmj
      simp [Network.viewEvent, Network.afterwards, hres, Runs.run_cons, step, view, viewLog_cons,
      viewLabel]
    · simp [Network.viewEvent, Network.afterwards, hres, Runs.run_cons, step, view, viewLog_cons,
        viewLabel, hmj,
        viewStack_runs_of_ne hmj, viewStack_calls_of_ne hmj]
  · by_cases hmj : m = j
    · subst hmj
      simp [Network.viewEvent, Network.afterwards, pick_of_ne hij, hres, Runs.run_cons, step, view,
        viewStack_runs_of_ne hij, viewLog_ownNotes_of_ne hij, viewLog_cons, viewLabel,
        Function.update_of_ne (Ne.symm hij)]
    · simp [Network.viewEvent, Network.afterwards, pick_of_ne hij, hres, hmj, view,
        viewStack_runs_of_ne hij, viewStack_runs_of_ne hmj, viewStack_calls_of_ne hmj,
        viewLog_ownNotes_of_ne hij, viewLog_cons, viewLabel, Function.update_of_ne (Ne.symm hij)]

/-- It calls another one. -/
theorem view_callTo {m : ι} {o : ο m}
    (hw : Wired (.code (.runs i f :: rest) :: stack))
    (hres : (N.part i).resume (s i) f a = some (.callOut s' g k ns))
    (hroute : N.route i k = some ⟨m, o⟩) :
    Runs.run (step (N.part j)) (view j ⟨s, .code (.runs i f :: rest) :: stack, log⟩)
        (N.viewEvent j ⟨s, .code (.runs i f :: rest) :: stack, log⟩ (.code ⟨i, a⟩)) =
      some (view j ⟨(N.enter (Function.update s i s') ⟨m, o⟩).1,
        .code ((N.enter (Function.update s i s') ⟨m, o⟩).2 ++ .calls i k g :: rest) :: stack,
        log ++ (Network.ownNotes i ns ++
          [(⟨i, .callOut k⟩ : Network.Labels ο κ ρ ν), ⟨m, .call o⟩]).map .note⟩) := by
  by_cases hij : i = j
  · subst hij
    by_cases hmj : m = i
    · subst hmj
      simp [Network.viewEvent, Network.afterwards, hres, hroute, Runs.run_cons, step, view,
        viewLog_cons, viewLabel, Network.enter, outsideRuns]
    · simp [Network.viewEvent, Network.afterwards, hres, hroute, Runs.run_cons, step, view,
        viewLog_cons, viewLabel, Network.enter, pick_of_ne hmj, viewStack_runs_of_ne hmj,
        Function.update_of_ne (Ne.symm hmj)]
  · by_cases hmj : m = j
    · subst hmj
      have hout := (hw.outsideRuns (j := m)).2 i f rest stack rfl
      simp [Network.viewEvent, Network.afterwards, pick_of_ne hij, hres, hroute, Runs.run_cons,
        step, view, viewLog_cons, viewLabel, Network.enter, hout, viewStack_runs_of_ne hij,
        viewStack_calls_of_ne hij, viewLog_ownNotes_of_ne hij, Function.update_of_ne (Ne.symm hij)]
    · simp [Network.viewEvent, Network.afterwards, pick_of_ne hij, hres, hroute, view,
        viewLog_cons, viewLabel,
        Network.enter, pick_of_ne hmj, viewStack_runs_of_ne hmj, viewStack_runs_of_ne hij,
        viewStack_calls_of_ne hij, viewLog_ownNotes_of_ne hij, Function.update_of_ne (Ne.symm hij),
        Function.update_of_ne (Ne.symm hmj)]

end

/-- **A step of the network is a run of each of its objects.** -/
theorem view_step (hw : Wired c.stack) (h : Step N.object c e c') (hno : NoThrow e) :
    Runs.run (step (N.part j)) (view j c) (N.viewEvent j c e) = some (view j c') ∧
      Wired c'.stack := by
  cases h with
  | @call s stack log o hout =>
    obtain ⟨i, o⟩ := o
    refine ⟨?_, .code (by simp) hout hw⟩
    by_cases hij : i = j
    · subst hij
      have hrun := (hw.outsideRuns (j := i)).1 hout
      simp [Network.viewEvent, Runs.run_cons, step, view, hrun, Network.object, Network.enter,
        viewLog_cons, viewLabel]
    · simp [Network.viewEvent, pick_of_ne hij, view, Network.object, Network.enter,
        viewStack_runs_of_ne hij, viewLog_cons, viewLabel, Function.update_of_ne (Ne.symm hij)]
  | @back s k stack log =>
    obtain ⟨i, k⟩ := k
    cases hw with
    | outside hw =>
      refine ⟨?_, hw⟩
      by_cases hij : i = j
      · subst hij
        simp [Network.viewEvent, Runs.run_cons, step, view]
      · simp [Network.viewEvent, pick_of_ne hij, view, viewStack_outside_of_ne hij]
  | unwind => exact hno.elim
  | goto h =>
    cases Network.stretch_of_resume h with
    | goto hres =>
      obtain ⟨hrest, hout, hstack⟩ := hw.top
      exact ⟨view_goto hres, .code hrest hout hstack⟩
    | callTo hres hroute =>
      -- the object called runs, and all the others called one
      obtain ⟨hrest, hout, hstack⟩ := hw.top
      exact ⟨view_callTo hw hres hroute, .code (List.forall_mem_cons.mpr ⟨rfl, hrest⟩) hout hstack⟩
    | retTo hres =>
      obtain ⟨hcalls, hout, hstack⟩ := hw.top
      exact ⟨view_retTo hres, .code (List.forall_mem_cons.mp hcalls).2 hout hstack⟩
  | callOut h =>
    cases Network.stretch_of_resume h with
    | callOut hres hroute => exact ⟨view_callOut hres hroute, .outside hw.goto⟩
  | ret h =>
    cases Network.stretch_of_resume h with
    | ret hres => exact ⟨view_ret hres, hw.top.2.2⟩

/-- The run of `j` that a run of the network is. -/
def Network.ownRun (N : Network σ ο φ κ α ρ ν) (j : ι) (s : Network.State σ)
    (es : List (Event (Σ i, ο i) (Σ i, α i))) : List (Event (ο j) (α j)) :=
  Runs.trace (step N.object) (N.viewEvent j) (Config.start s) es

/-- The steps of `j` that an event of the network amounts to meet `Q`. -/
def Network.On (N : Network σ ο φ κ α ρ ν) (j : ι)
    (Q : Config (σ j) (ο j) (φ j) (κ j) (ρ j) (ν j) → Event (ο j) (α j) → Prop)
    (c : NetConfig σ ο φ κ ρ ν) (e : Event (Σ i, ο i) (Σ i, α i)) : Prop :=
  Runs.Along (step (N.part j)) Q (view j c) (N.viewEvent j c e)

instance (Q : Config (σ j) (ο j) (φ j) (κ j) (ρ j) (ν j) → Event (ο j) (α j) → Prop)
    [∀ c e, Decidable (Q c e)] (c : NetConfig σ ο φ κ ρ ν)
    (e : Event (Σ i, ο i) (Σ i, α i)) : Decidable (N.On j Q c e) :=
  Runs.decidableAlong _ _

section
variable {s : Network.State σ} {es : List (Event (Σ i, ο i) (Σ i, α i))}

theorem refines_view (N : Network σ ο φ κ α ρ ν) (j : ι) :
    Runs.Refines (step N.object) (fun _ e => NoThrow e) (step (N.part j)) (N.viewEvent j)
      (fun c v => v = view j c ∧ Wired c.stack) := by
  rintro c e c' v ⟨rfl, hw⟩ hno hstep
  obtain ⟨hrun, hw'⟩ := view_step (j := j) hw (Step.of_step hstep) hno
  exact ⟨view j c', hrun, rfl, hw'⟩

/-- **Every run of a network is a run of each of its objects.** -/
theorem view_run (hr : Runs.run (step N.object) (Config.start s) es = some c)
    (hno : Runs.Along (step N.object) (fun _ e => NoThrow e) (Config.start s) es) :
    Runs.run (step (N.part j)) (Config.start (s j)) (N.ownRun j s es) = some (view j c) ∧
      Wired c.stack := by
  obtain ⟨v, hrun, rfl, hw⟩ := (refines_view N j).run ⟨rfl, .nil⟩ hno hr
  exact ⟨hrun, hw⟩

/-- **What the steps of an object meet holds along its own run.** -/
theorem along_view {Q : Config (σ j) (ο j) (φ j) (κ j) (ρ j) (ν j) → Event (ο j) (α j) → Prop}
    (hr : Runs.run (step N.object) (Config.start s) es = some c)
    (hno : Runs.Along (step N.object) (fun _ e => NoThrow e) (Config.start s) es)
    (hq : Runs.Along (step N.object) (N.On j Q) (Config.start s) es) :
    Runs.Along (step (N.part j)) Q (Config.start (s j)) (N.ownRun j s es) := by
  refine (refines_view N j).along ⟨rfl, .nil⟩ hno hr (hq.imp fun c e h => ?_)
  rintro _ ⟨rfl, -⟩
  exact h

/-- An object sees no exceptions. -/
theorem along_noThrow (hr : Runs.run (step N.object) (Config.start s) es = some c)
    (hno : Runs.Along (step N.object) (fun _ e => NoThrow e) (Config.start s) es) :
    Runs.Along (step (N.part j)) (fun _ e => NoThrow e) (Config.start (s j)) (N.ownRun j s es) :=
  along_view hr hno (hno.imp fun _ _ _ => Runs.along_of_mem Network.viewEvent_noThrow)

end

/-! ## Conditions on the calls of an object -/

section
variable {σ' ο' φ' κ' α' ρ' ν' : Type} {O : Object σ' ο' φ' κ' α' ρ' ν'}
  {Q : σ' → List φ' → ο' → Prop}

/-- Events that call nothing meet every condition on calls. -/
theorem along_onCall_of_no_call {d : Config σ' ο' φ' κ' ρ' ν'} {xs : List (Event ο' α')}
    (h : ∀ x ∈ xs, ∀ o, x ≠ .call o) : Runs.Along (step O) (OnCall Q) d xs := by
  induction xs generalizing d with
  | nil => exact trivial
  | cons x xs ih =>
    obtain ⟨hx, hxs⟩ := List.forall_mem_cons.mp h
    refine ⟨?_, fun t _ => ih hxs⟩
    cases x with
    | call o => exact absurd rfl (hx o)
    | _ => exact trivial

end

theorem pick_eq_some {G : ι → Type} {x : Σ i, G i} {y : G j} (h : pick j x = some y) :
    x = ⟨j, y⟩ := by
  obtain ⟨i, x⟩ := x
  by_cases hij : i = j
  · subst hij
    rw [pick_self] at h
    rw [Option.some.inj h]
  · rw [pick_of_ne hij] at h
    cases h

/-- **A condition on the calls of `j` is one on the calls from outside and on what the others
call out for.** -/
theorem Network.on_onCall {Q : σ j → List (φ j) → ο j → Prop}
    (houter : ∀ o, e = .call ⟨j, o⟩ → Q (c.state j) (frames (viewStack j c.stack)) o)
    (hinner : ∀ i f rest stack a s' g k ns o, c.stack = .code (.runs i f :: rest) :: stack →
      (N.part i).resume (c.state i) f a = some (.callOut s' g k ns) →
      N.route i k = some ⟨j, o⟩ → i ≠ j ∧ Q (c.state j) (frames (viewStack j c.stack)) o) :
    N.On j (OnCall Q) c e := by
  unfold Network.On
  cases e with
  | call o =>
    simp only [Network.viewEvent]
    cases hpick : pick j o with
    | none => exact trivial
    | some o' =>
      obtain rfl := pick_eq_some hpick
      exact ⟨houter o' rfl, fun _ _ => trivial⟩
  | code a =>
    simp only [Network.viewEvent]
    split
    · rename_i i f rest stack heq
      -- the stretch of `j` itself, if it is one, is no call
      have own : ∀ x ∈ ((pick j a).map (.code : α j → Event (ο j) (α j))).toList,
          ∀ o, x ≠ .call o := by
        intro x hx o
        obtain ⟨a', -, rfl⟩ := Option.map_eq_some_iff.mp (Option.mem_toList.mp hx)
        exact fun h => (by cases h)
      cases hres : (pick i a).bind ((N.part i).resume (c.state i) f) with
      | none => exact along_onCall_of_no_call fun x hx => own x (by simpa using hx)
      | some out =>
        obtain ⟨a', ha, hout⟩ := Option.bind_eq_some_iff.mp hres
        obtain rfl := pick_eq_some ha
        cases out with
        | callOut s' g k ns =>
          cases hto : (N.route i k).bind (pick j) with
          | none =>
            refine along_onCall_of_no_call fun x hx => own x ?_
            simpa [Network.afterwards, hto] using hx
          | some o =>
            obtain ⟨o', hroute, ho⟩ := Option.bind_eq_some_iff.mp hto
            obtain rfl := pick_eq_some ho
            obtain ⟨hij, hQ⟩ := hinner i f rest stack a' s' g k ns o heq hout hroute
            simp only [pick_of_ne hij, Option.map_some, Option.getD_some, Network.afterwards, hto]
            exact ⟨hQ, fun _ _ => trivial⟩
        | ret s' r ns =>
          refine along_onCall_of_no_call fun x hx o => ?_
          rcases List.mem_append.mp hx with hx | hx
          · exact own x hx o
          · have hback : x = .back := by
              simp only [Network.afterwards, Option.map_some, Option.getD_some] at hx
              split at hx
              · split at hx
                · exact List.mem_singleton.mp hx
                · cases hx
              · cases hx
            rw [hback]
            exact fun h => (by cases h)
        | goto | throw =>
          exact along_onCall_of_no_call fun x hx => own x (by simpa [Network.afterwards] using hx)
    · exact trivial
  | back =>
    refine along_onCall_of_no_call fun x hx o => ?_
    simp only [Network.viewEvent] at hx
    split at hx
    · obtain ⟨k, -, rfl⟩ := Option.map_eq_some_iff.mp (Option.mem_toList.mp hx)
      exact fun h => (by cases h)
    · cases hx
  | unwind => exact trivial

/-! ## What one object hands to another -/

section
variable {s : Network.State σ} {es : List (Event (Σ i, ο i) (Σ i, α i))} {β : Type} {m : ι}
  {g : ο j → List β} {h : κ i → List β}

@[simp] theorem calls_ownNotes (ns : List (ν m)) :
    calls (viewLog j ((Network.ownNotes m ns : List (Network.Labels ο κ ρ ν)).map Label.note)) =
      [] := by
  by_cases hm : m = j
  · subst hm
    rw [viewLog_ownNotes, calls_map_note]
  · rw [viewLog_ownNotes_of_ne hm, calls_nil]

@[simp] theorem callOuts_ownNotes (ns : List (ν m)) :
    callOuts (viewLog j ((Network.ownNotes m ns : List (Network.Labels ο κ ρ ν)).map Label.note)) =
      [] := by
  by_cases hm : m = j
  · subst hm
    rw [viewLog_ownNotes, callOuts_map_note]
  · rw [viewLog_ownNotes_of_ne hm, callOuts_nil]

section
variable {ο' κ' ρ' ν' : Type}

@[simp] theorem calls_map_call (o : Option ο') :
    calls (o.map .call : Option (Label ο' κ' ρ' ν')).toList = o.toList := by
  cases o <;> rfl

@[simp] theorem calls_map_callOut (k : Option κ') :
    calls (k.map .callOut : Option (Label ο' κ' ρ' ν')).toList = [] := by
  cases k <;> rfl

@[simp] theorem calls_map_ret (r : Option ρ') :
    calls (r.map .ret : Option (Label ο' κ' ρ' ν')).toList = [] := by
  cases r <;> rfl

@[simp] theorem callOuts_map_call (o : Option ο') :
    callOuts (o.map .call : Option (Label ο' κ' ρ' ν')).toList = [] := by
  cases o <;> rfl

@[simp] theorem callOuts_map_callOut (k : Option κ') :
    callOuts (k.map .callOut : Option (Label ο' κ' ρ' ν')).toList = k.toList := by
  cases k <;> rfl

@[simp] theorem callOuts_map_ret (r : Option ρ') :
    callOuts (r.map .ret : Option (Label ο' κ' ρ' ν')).toList = [] := by
  cases r <;> rfl

end

section
variable (j)

@[simp] theorem viewLabel_note_call (o : ο m) :
    viewLabel j (.note ⟨m, .call o⟩ : NetLabel ο κ ρ ν) =
      (pick j ⟨m, o⟩).map .call := by
  by_cases hm : m = j
  · subst hm
    simp [viewLabel]
  · simp [viewLabel, pick_of_ne hm]

@[simp] theorem viewLabel_note_callOut (k : κ m) :
    viewLabel j (.note ⟨m, .callOut k⟩ : NetLabel ο κ ρ ν) =
      (pick j ⟨m, k⟩).map .callOut := by
  by_cases hm : m = j
  · subst hm
    simp [viewLabel]
  · simp [viewLabel, pick_of_ne hm]

@[simp] theorem viewLabel_note_ret (r : ρ m) :
    viewLabel j (.note ⟨m, .ret r⟩ : NetLabel ο κ ρ ν) =
      (pick j ⟨m, r⟩).map .ret := by
  by_cases hm : m = j
  · subst hm
    simp [viewLabel]
  · simp [viewLabel, pick_of_ne hm]

@[simp] theorem viewLabel_call (o : Σ i, ο i) :
    viewLabel j (.call o : NetLabel ο κ ρ ν) = (pick j o).map .call := rfl

@[simp] theorem viewLabel_callOut (k : Σ i, κ i) :
    viewLabel j (.callOut k : NetLabel ο κ ρ ν) = (pick j k).map .callOut := rfl

@[simp] theorem viewLabel_ret (r : Σ i, ρ i) :
    viewLabel j (.ret r : NetLabel ο κ ρ ν) = (pick j r).map .ret := rfl

end

/-- **What one object hands out arrives at the other**, if that is who all its call outs that
carry anything are operations of, and nobody else calls these. -/
theorem passed
    (hroute : ∀ m k, ((N.route m k).bind (pick j)).toList.flatMap g =
      (pick i ⟨m, k⟩).toList.flatMap h)
    (hr : Runs.run (step N.object) (Config.start s) es = some c)
    (hp : Runs.Along (step N.object) (fun _ e => NoThrow e ∧ ∀ o, e = .call ⟨j, o⟩ → g o = [])
      (Config.start s) es) :
    (calls (viewLog j c.log)).flatMap g = (callOuts (viewLog i c.log)).flatMap h := by
  refine Runs.run_invariant_along (I := fun c : NetConfig σ ο φ κ ρ ν =>
      (calls (viewLog j c.log)).flatMap g = (callOuts (viewLog i c.log)).flatMap h)
    (fun c e c' hI hpass hstep => ?_) rfl hp hr
  obtain ⟨hno, houter⟩ := hpass
  cases Step.of_step hstep with
  | call o hout =>
    obtain ⟨m, o⟩ := o
    have hnone : (pick j ⟨m, o⟩).toList.flatMap g = [] := by
      by_cases hm : m = j
      · subst hm
        simp [houter o rfl]
      · simp [pick_of_ne hm]
    simpa [viewLog_cons, hnone] using hI
  | back => exact hI
  | unwind => exact hno.elim
  | goto hres =>
    cases Network.stretch_of_resume hres with
    | goto hres => simpa using hI
    | @callTo m f rest a s' f' k ns m' o hres hto =>
      have hk := hroute m k
      simp only [hto, Option.bind_some] at hk
      simp [viewLog_cons, hI, hk]
    | retTo hres => simpa [viewLog_cons] using hI
  | callOut hres =>
    cases Network.stretch_of_resume hres with
    | @callOut m f rest a s' f' k ns hres hto =>
      have hk := hroute m k
      simp only [hto, Option.bind_none, Option.toList_none, List.flatMap_nil] at hk
      simp [viewLog_cons, hI, ← hk]
  | ret hres =>
    cases Network.stretch_of_resume hres with
    | ret hres => simpa [viewLog_cons] using hI

end

end

end

end Reentrant
