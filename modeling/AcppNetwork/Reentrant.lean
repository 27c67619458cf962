import AcppNetwork.Runs

/-!
# Objects that call out and may be re-entered

An object whose operations call other parties — a layer above, a layer below, a
user's callback — is not a state machine with one step an operation: while a
party it called is running, that party may call any of its operations again, to
any depth, and the interrupted activations go on afterwards with whatever those
calls left behind.

An `Object` gives the code of its operations in stretches.  `enter s o` starts
the operation `o`: the state and the program point (`φ`, a *frame*) its
activation begins with.  `resume s f a` runs an activation standing at `f` up
to the next point where something outside answers or is called; `a` is what the
outside answers on the way.  Its `Outcome` says whether the activation goes on,
calls out, returns or throws.

A configuration (`Config`) is the state, the stack of activations, innermost
first, and the log of what was visible outside.  The events of a run are the
choices of the outside: it calls an operation, it answers the running
activation, it returns from what it was called for.  Nothing bounds the depth
of the stack, and when several activations of one operation are on it they share
the state.  An exception leaves the activation that throws it and goes through
as many more as the outside lets it.

`Step` is the step function as a relation with one constructor per kind of step;
`step_iff` connects the two, and invariants are proved by cases on `Step`.
-/
namespace Reentrant

/-- What a stretch of an activation's code ends with, and the notes it leaves. -/
inductive Outcome (σ φ κ ρ ν : Type) where
  /-- The activation goes on at `f`. -/
  | goto (s : σ) (f : φ) (notes : List ν)
  /-- The activation calls `k` and will go on at `f` once `k` has returned. -/
  | callOut (s : σ) (f : φ) (k : κ) (notes : List ν)
  /-- The operation returns `r`. -/
  | ret (s : σ) (r : ρ) (notes : List ν)
  /-- The operation ends by an exception. -/
  | throw (s : σ) (notes : List ν)

/-- An entry of the stack: an activation of the object's code, or a party it
called. -/
inductive Act (φ κ : Type) where
  | code (f : φ)
  | outside (k : κ)
  deriving DecidableEq

/-- What the log records. -/
inductive Label (ο κ ρ ν : Type) where
  | call (o : ο)
  | callOut (k : κ)
  | ret (r : ρ)
  | thrown
  | note (n : ν)
  deriving DecidableEq

/-- The choices of the outside. -/
inductive Event (ο α : Type) where
  /-- Whoever is running outside calls the operation `o`. -/
  | call (o : ο)
  /-- The running activation goes on, answered `a`. -/
  | code (a : α)
  /-- The running activation goes on, answered `a`, and throws; the exception
  leaves `depth` further entries of the stack. -/
  | unwind (a : α) (depth : Nat)
  /-- The party called last returns. -/
  | back

section
variable {σ ο φ κ α ρ ν : Type}

/-- The answer the running activation gets with the event. -/
def Event.answer? : Event ο α → Option α
  | .code a | .unwind a _ => some a
  | _ => none

/-- The state a stretch of code leaves. -/
def Outcome.state : Outcome σ φ κ ρ ν → σ
  | .goto s _ _ | .callOut s _ _ _ | .ret s _ _ | .throw s _ => s

/-- The frame it leaves its activation at, if that goes on. -/
def Outcome.frames : Outcome σ φ κ ρ ν → List φ
  | .goto _ f _ | .callOut _ f _ _ => [f]
  | .ret _ _ _ | .throw _ _ => []

/-- The call out it makes, if it makes one. -/
def Outcome.callOuts : Outcome σ φ κ ρ ν → List κ
  | .callOut _ _ k _ => [k]
  | _ => []

/-- The notes it leaves. -/
def Outcome.notes : Outcome σ φ κ ρ ν → List ν
  | .goto _ _ ns | .callOut _ _ _ ns | .ret _ _ ns | .throw _ ns => ns

/-- It ends by an exception. -/
def Outcome.throws : Outcome σ φ κ ρ ν → Bool
  | .throw _ _ => true
  | _ => false

end

/-- The code of an object's operations. -/
structure Object (σ ο φ κ α ρ ν : Type) where
  /-- The state and frame an operation starts with. -/
  enter : σ → ο → σ × φ
  /-- One stretch of code; `none` when the answer is not one the outside can
  give. -/
  resume : σ → φ → α → Option (Outcome σ φ κ ρ ν)

/-- The state, the activations under way (innermost first), and the log. -/
structure Config (σ ο φ κ ρ ν : Type) where
  state : σ
  stack : List (Act φ κ)
  log : List (Label ο κ ρ ν)

/-- No code of the object is running: nothing is under way, or a party it called
is. -/
def outsideRuns {φ κ : Type} : List (Act φ κ) → Bool
  | .code _ :: _ => false
  | _ => true

section
variable {σ ο φ κ α ρ ν : Type}

/-- Nothing under way, nothing logged. -/
def Config.start (s : σ) : Config σ ο φ κ ρ ν := ⟨s, [], []⟩

/-- No operation is under way. -/
def Config.Quiet (c : Config σ ο φ κ ρ ν) : Prop := c.stack = []

instance (c : Config σ ο φ κ ρ ν) : Decidable c.Quiet :=
  match h : c.stack with
  | [] => .isTrue h
  | _ :: _ => .isFalse (by simp [Config.Quiet, h])

/-- The notes of a log, in order. -/
def notes : List (Label ο κ ρ ν) → List ν :=
  List.filterMap fun | .note n => some n | _ => none

/-- The calls out of a log, in order. -/
def callOuts : List (Label ο κ ρ ν) → List κ :=
  List.filterMap fun | .callOut k => some k | _ => none

/-- The calls of operations of a log, in order. -/
def calls : List (Label ο κ ρ ν) → List ο :=
  List.filterMap fun | .call o => some o | _ => none

/-- The frames of the activations on a stack. -/
def frames : List (Act φ κ) → List φ :=
  List.filterMap fun | .code f => some f | .outside _ => none

variable (O : Object σ ο φ κ α ρ ν)

/-- One event. -/
def step (c : Config σ ο φ κ ρ ν) : Event ο α → Option (Config σ ο φ κ ρ ν)
  | .call o =>
      if outsideRuns c.stack then
        some ⟨(O.enter c.state o).1, .code (O.enter c.state o).2 :: c.stack, c.log ++ [.call o]⟩
      else none
  | .code a =>
      match c.stack with
      | .code f :: rest =>
          match O.resume c.state f a with
          | some (.goto s g ns) => some ⟨s, .code g :: rest, c.log ++ ns.map .note⟩
          | some (.callOut s g k ns) =>
              some ⟨s, .outside k :: .code g :: rest, c.log ++ ns.map .note ++ [.callOut k]⟩
          | some (.ret s r ns) => some ⟨s, rest, c.log ++ ns.map .note ++ [.ret r]⟩
          | _ => none
      | _ => none
  | .unwind a depth =>
      match c.stack with
      | .code f :: rest =>
          match O.resume c.state f a with
          | some (.throw s ns) =>
              if outsideRuns (rest.drop depth) then
                some ⟨s, rest.drop depth, c.log ++ ns.map .note ++ [.thrown]⟩
              else none
          | _ => none
      | _ => none
  | .back =>
      match c.stack with
      | .outside _ :: rest => some ⟨c.state, rest, c.log⟩
      | _ => none

/-- The kinds of steps. -/
inductive Step : Config σ ο φ κ ρ ν → Event ο α → Config σ ο φ κ ρ ν → Prop where
  | call {s stack log} (o : ο) (hout : outsideRuns stack = true) :
      Step ⟨s, stack, log⟩ (.call o)
        ⟨(O.enter s o).1, .code (O.enter s o).2 :: stack, log ++ [.call o]⟩
  | goto {s f rest log a s' g ns} (h : O.resume s f a = some (.goto s' g ns)) :
      Step ⟨s, .code f :: rest, log⟩ (.code a) ⟨s', .code g :: rest, log ++ ns.map .note⟩
  | callOut {s f rest log a s' g k ns} (h : O.resume s f a = some (.callOut s' g k ns)) :
      Step ⟨s, .code f :: rest, log⟩ (.code a)
        ⟨s', .outside k :: .code g :: rest, log ++ ns.map .note ++ [.callOut k]⟩
  | ret {s f rest log a s' r ns} (h : O.resume s f a = some (.ret s' r ns)) :
      Step ⟨s, .code f :: rest, log⟩ (.code a) ⟨s', rest, log ++ ns.map .note ++ [.ret r]⟩
  | unwind {s f rest log a s' ns} (depth : Nat) (h : O.resume s f a = some (.throw s' ns))
      (hout : outsideRuns (rest.drop depth) = true) :
      Step ⟨s, .code f :: rest, log⟩ (.unwind a depth)
        ⟨s', rest.drop depth, log ++ ns.map .note ++ [.thrown]⟩
  | back {s k rest log} : Step ⟨s, .outside k :: rest, log⟩ .back ⟨s, rest, log⟩

variable {O} {c c' : Config σ ο φ κ ρ ν} {e : Event ο α}

/-- The step function takes the steps of the relation. -/
theorem Step.of_step (h : step O c e = some c') : Step O c e c' := by
  obtain ⟨s, stack, log⟩ := c
  cases e with
  | call o =>
    simp only [step] at h
    split at h
    · cases h; exact .call o ‹_›
    · cases h
  | code a =>
    cases stack with
    | nil => simp [step] at h
    | cons top rest =>
      cases top with
      | outside k => simp [step] at h
      | code f =>
        simp only [step] at h
        split at h <;> cases h
        · exact .goto ‹_›
        · exact .callOut ‹_›
        · exact .ret ‹_›
  | unwind a depth =>
    cases stack with
    | nil => simp [step] at h
    | cons top rest =>
      cases top with
      | outside k => simp [step] at h
      | code f =>
        simp only [step] at h
        split at h
        · split at h
          · cases h; exact .unwind depth ‹_› ‹_›
          · cases h
        · cases h
  | back =>
    cases stack with
    | nil => simp [step] at h
    | cons top rest =>
      cases top with
      | outside k => cases h; exact .back
      | code f => simp [step] at h

/-- The relation takes the steps of the step function. -/
theorem Step.to_step (h : Step O c e c') : step O c e = some c' := by
  cases h with
  | call o hout => simp [step, hout]
  | goto h | callOut h | ret h => simp [step, h]
  | unwind depth h hout => simp [step, h, hout]
  | back => rfl

theorem step_iff : step O c e = some c' ↔ Step O c e c' := ⟨Step.of_step, Step.to_step⟩

/-! ### Logs and stacks -/

section Logs
variable {l m : List (Label ο κ ρ ν)} {ns : List ν} {stack : List (Act φ κ)}

@[simp] theorem notes_nil : notes ([] : List (Label ο κ ρ ν)) = [] := rfl

@[simp] theorem notes_append : notes (l ++ m) = notes l ++ notes m := List.filterMap_append ..

@[simp] theorem notes_map_note : notes (ns.map .note : List (Label ο κ ρ ν)) = ns := by
  simp [notes, List.filterMap_map]

@[simp] theorem notes_call (o : ο) : notes ([.call o] : List (Label ο κ ρ ν)) = [] := rfl
@[simp] theorem notes_callOut (k : κ) : notes ([.callOut k] : List (Label ο κ ρ ν)) = [] := rfl
@[simp] theorem notes_ret (r : ρ) : notes ([.ret r] : List (Label ο κ ρ ν)) = [] := rfl
@[simp] theorem notes_thrown : notes ([.thrown] : List (Label ο κ ρ ν)) = [] := rfl

@[simp] theorem callOuts_nil : callOuts ([] : List (Label ο κ ρ ν)) = [] := rfl

@[simp] theorem callOuts_append : callOuts (l ++ m) = callOuts l ++ callOuts m :=
  List.filterMap_append ..

@[simp] theorem callOuts_map_note : callOuts (ns.map .note : List (Label ο κ ρ ν)) = [] := by
  simp [callOuts, List.filterMap_map]

@[simp] theorem callOuts_call (o : ο) : callOuts ([.call o] : List (Label ο κ ρ ν)) = [] := rfl
@[simp] theorem callOuts_callOut (k : κ) :
    callOuts ([.callOut k] : List (Label ο κ ρ ν)) = [k] := rfl
@[simp] theorem callOuts_ret (r : ρ) : callOuts ([.ret r] : List (Label ο κ ρ ν)) = [] := rfl
@[simp] theorem callOuts_thrown : callOuts ([.thrown] : List (Label ο κ ρ ν)) = [] := rfl

@[simp] theorem calls_nil : calls ([] : List (Label ο κ ρ ν)) = [] := rfl

@[simp] theorem calls_append : calls (l ++ m) = calls l ++ calls m := List.filterMap_append ..

@[simp] theorem calls_map_note : calls (ns.map .note : List (Label ο κ ρ ν)) = [] := by
  simp [calls, List.filterMap_map]

@[simp] theorem calls_call (o : ο) : calls ([.call o] : List (Label ο κ ρ ν)) = [o] := rfl
@[simp] theorem calls_callOut (k : κ) : calls ([.callOut k] : List (Label ο κ ρ ν)) = [] := rfl
@[simp] theorem calls_ret (r : ρ) : calls ([.ret r] : List (Label ο κ ρ ν)) = [] := rfl
@[simp] theorem calls_thrown : calls ([.thrown] : List (Label ο κ ρ ν)) = [] := rfl

@[simp] theorem frames_nil : frames ([] : List (Act φ κ)) = [] := rfl
@[simp] theorem frames_code (f : φ) : frames (.code f :: stack) = f :: frames stack := rfl
@[simp] theorem frames_outside (k : κ) : frames (.outside k :: stack) = frames stack := rfl

@[simp] theorem frames_append {stack' : List (Act φ κ)} :
    frames (stack ++ stack') = frames stack ++ frames stack' := List.filterMap_append ..

/-- Unwinding the stack removes activations, it adds none. -/
theorem mem_frames_of_drop {f : φ} {n : Nat} (h : f ∈ frames (stack.drop n)) :
    f ∈ frames stack :=
  (List.drop_sublist n stack).filterMap _ |>.subset h

end Logs

/-! ### The two ways to go on -/

/-- If the event runs a stretch of code, then `P` holds of the state, the frame it
starts at, the frames of the activations under it, and its answer. -/
def Before (P : σ → φ → List φ → α → Prop) (c : Config σ ο φ κ ρ ν) (e : Event ο α) : Prop :=
  match e.answer?, c.stack with
  | some a, .code f :: rest => P c.state f (frames rest) a
  | _, _ => True

/-- If the event calls an operation, then `Q` holds of the state, the frames of the
activations under way, and the operation. -/
def OnCall (Q : σ → List φ → ο → Prop) (c : Config σ ο φ κ ρ ν) : Event ο α → Prop
  | .call o => Q c.state (frames c.stack) o
  | _ => True

instance {P : σ → φ → List φ → α → Prop} [∀ s f fs a, Decidable (P s f fs a)]
    (c : Config σ ο φ κ ρ ν) (e : Event ο α) : Decidable (Before P c e) := by
  unfold Before
  split <;> infer_instance

instance {Q : σ → List φ → ο → Prop} [∀ s fs o, Decidable (Q s fs o)]
    (c : Config σ ο φ κ ρ ν) (e : Event ο α) : Decidable (OnCall Q c e) := by
  cases e <;> unfold OnCall <;> infer_instance

/-- **A step calls an operation, runs a stretch of code, or returns to one.**  Of a
stretch, its outcome says what becomes of the state, the frames and the log; an
exception may drop activations. -/
theorem Step.stretch (h : Step O c e c') :
    (∃ o, e = .call o ∧ outsideRuns c.stack = true ∧
      c' = ⟨(O.enter c.state o).1, .code (O.enter c.state o).2 :: c.stack, c.log ++ [.call o]⟩) ∨
    (∃ f rest a out kept, c.stack = .code f :: rest ∧ e.answer? = some a ∧
      O.resume c.state f a = some out ∧ c'.state = out.state ∧
      kept <:+ frames rest ∧ (out.throws = false → kept = frames rest) ∧
      frames c'.stack = out.frames ++ kept ∧
      callOuts c'.log = callOuts c.log ++ out.callOuts ∧
      notes c'.log = notes c.log ++ out.notes ∧ calls c'.log = calls c.log) ∨
    (e = .back ∧ c'.state = c.state ∧ frames c'.stack = frames c.stack ∧ c'.log = c.log) := by
  cases h with
  | call o hout => exact .inl ⟨o, rfl, hout, rfl⟩
  | goto h =>
    exact .inr (.inl ⟨_, _, _, _, _, rfl, rfl, h, rfl, List.suffix_refl _, fun _ => rfl, rfl,
      by simp [Outcome.callOuts], by simp [Outcome.notes], by simp⟩)
  | callOut h =>
    exact .inr (.inl ⟨_, _, _, _, _, rfl, rfl, h, rfl, List.suffix_refl _, fun _ => rfl, rfl,
      by simp [Outcome.callOuts], by simp [Outcome.notes], by simp⟩)
  | ret h =>
    exact .inr (.inl ⟨_, _, _, _, _, rfl, rfl, h, rfl, List.suffix_refl _, fun _ => rfl, rfl,
      by simp [Outcome.callOuts], by simp [Outcome.notes], by simp⟩)
  | unwind depth h hout =>
    exact .inr (.inl ⟨_, _, _, _, _, rfl, rfl, h, rfl,
      (List.drop_suffix depth _).filterMap _, fun h => (Bool.noConfusion h), rfl,
      by simp [Outcome.callOuts], by simp [Outcome.notes], by simp⟩)
  | back => exact .inr (.inr ⟨rfl, rfl, rfl, rfl⟩)

/-- A stretch of code that throws unwinds the stack. -/
theorem Step.unwinds {f : φ} {rest : List (Act φ κ)} {a : α} {out : Outcome σ φ κ ρ ν}
    (h : Step O c e c') (hstack : c.stack = .code f :: rest) (ha : e.answer? = some a)
    (hres : O.resume c.state f a = some out) (hthrows : out.throws = true) :
    ∃ depth, e = .unwind a depth := by
  cases h with
  | call | back => cases ha
  | goto h | callOut h | ret h =>
    cases hstack
    cases ha
    rw [h] at hres
    cases hres
    cases hthrows
  | unwind depth =>
    cases ha
    exact ⟨depth, rfl⟩

theorem Before.imp {P Q : σ → φ → List φ → α → Prop} (h : Before P c e)
    (hPQ : ∀ s f fs a, P s f fs a → Q s f fs a) : Before Q c e := by
  unfold Before at h ⊢
  split
  next ha hstack =>
    rw [ha, hstack] at h
    exact hPQ _ _ _ _ h
  · trivial

/-- A condition that every stretch of code meets. -/
theorem before_of_state {P : σ → φ → List φ → α → Prop} (h : ∀ f fs a, P c.state f fs a) :
    Before P c e := by
  unfold Before
  split
  · exact h _ _ _
  · trivial

/-- **An invariant of the state alone**: the operations start with it, and every stretch of
code that runs under `P` leaves it. -/
theorem Step.preserves {J : σ → Prop} {P : σ → φ → List φ → α → Prop} (h : Step O c e c')
    (hJ : J c.state) (hp : Before P c e) (henter : ∀ o, J (O.enter c.state o).1)
    (hresume : ∀ {f fs a out}, P c.state f fs a → O.resume c.state f a = some out → J out.state) :
    J c'.state := by
  rcases h.stretch with ⟨o, -, -, rfl⟩ |
    ⟨f, rest, a, out, kept, hstack, ha, hres, hstate, -⟩ | ⟨-, hstate, -⟩
  · exact henter o
  · simp only [Before, ha, hstack] at hp
    rw [hstate]
    exact hresume hp hres
  · rw [hstate]
    exact hJ

theorem Step.preserves_always {J : σ → Prop} (h : Step O c e c') (hJ : J c.state)
    (henter : ∀ o, J (O.enter c.state o).1)
    (hresume : ∀ {f a out}, O.resume c.state f a = some out → J out.state) : J c'.state :=
  h.preserves (P := fun _ _ _ _ => True) hJ (before_of_state fun _ _ _ => trivial) henter
    fun _ hres => hresume hres

/-! ### Two objects -/

/-- Objects with the same operations take the same step where their code agrees. -/
theorem step_congr {O' : Object σ ο φ κ α ρ ν} (henter : O.enter = O'.enter)
    (h : Before (fun s f _ a => O.resume s f a = O'.resume s f a) c e) :
    step O c e = step O' c e := by
  obtain ⟨s, stack, log⟩ := c
  cases e with
  | call o => simp only [step, henter]
  | back => rfl
  | code a | unwind a =>
    cases stack with
    | nil => rfl
    | cons top rest =>
      cases top with
      | outside k => rfl
      | code f =>
        have hsame : O.resume s f a = O'.resume s f a := h
        simp only [step, hsame]

/-- **A run goes the same way in an object whose code differs only where the run does not
go.** -/
theorem run_congr {O' : Object σ ο φ κ α ρ ν} {P : σ → φ → List φ → α → Prop}
    (henter : O.enter = O'.enter)
    (hresume : ∀ s f fs a, P s f fs a → O.resume s f a = O'.resume s f a)
    {es : List (Event ο α)} (hp : Runs.Along (step O) (Before P) c es) :
    Runs.run (step O) c es = Runs.run (step O') c es := by
  induction es generalizing c with
  | nil => rfl
  | cons e es ih =>
    have hstep : step O c e = step O' c e := step_congr henter (hp.1.imp hresume)
    rw [Runs.run_cons, Runs.run_cons, ← hstep]
    cases ht : step O c e with
    | none => rfl
    | some t => exact ih (hp.2 t ht)

/-! ### Activations under a call out -/

/-- Every activation was called while the outside ran. -/
inductive Called : List (Act φ κ) → Prop where
  | nil : Called []
  | code {f : φ} {rest : List (Act φ κ)} (hout : outsideRuns rest = true) (h : Called rest) :
      Called (.code f :: rest)
  | outside {k : κ} {rest : List (Act φ κ)} (h : Called rest) : Called (.outside k :: rest)

theorem Called.rest {top : Act φ κ} {rest : List (Act φ κ)} (h : Called (top :: rest)) :
    Called rest := by
  cases h with
  | code hout h => exact h
  | outside h => exact h

theorem Called.drop {stack : List (Act φ κ)} (h : Called stack) (n : Nat) :
    Called (stack.drop n) := by
  induction n generalizing stack with
  | zero => exact h
  | succ n ih =>
    cases stack with
    | nil => exact .nil
    | cons top rest => exact ih h.rest

theorem Called.step (hc : Called c.stack) (h : Step O c e c') : Called c'.stack := by
  cases h with
  | call o hout => exact .code hout hc
  | goto h =>
    cases hc with
    | code hout hrest => exact .code hout hrest
  | callOut h =>
    cases hc with
    | code hout hrest => exact .outside (.code hout hrest)
  | ret h => exact hc.rest
  | unwind depth h hout => exact hc.rest.drop depth
  | back => exact hc.rest

/-- Every activation but the one running is at a frame satisfying `W`. -/
def Waiting (W : φ → Prop) (stack : List (Act φ κ)) : Prop :=
  (∀ f ∈ frames stack.tail, W f) ∧ (outsideRuns stack = true → ∀ f ∈ frames stack, W f)

theorem waiting_of_all {W : φ → Prop} {stack : List (Act φ κ)} (h : ∀ f ∈ frames stack, W f) :
    Waiting W stack := by
  refine ⟨fun f hf => h f ?_, fun _ => h⟩
  rw [← List.drop_one] at hf
  exact mem_frames_of_drop hf

/-- If every call out goes on at a frame satisfying `W`, a step keeps it so that
all activations but the one running are at such frames. -/
theorem Waiting.step {W : φ → Prop}
    (hout : ∀ s f a s' g k ns, O.resume s f a = some (.callOut s' g k ns) → W g)
    (hc : Waiting W c.stack) (h : Step O c e c') : Waiting W c'.stack := by
  cases h with
  | call o hout' => exact ⟨hc.2 hout', fun h => by cases h⟩
  | goto h => exact ⟨hc.1, fun h => by cases h⟩
  | callOut h =>
    apply waiting_of_all
    rw [frames_outside, frames_code]
    exact List.forall_mem_cons.mpr ⟨hout _ _ _ _ _ _ _ h, hc.1⟩
  | ret h => exact waiting_of_all hc.1
  | unwind depth h hout' => exact waiting_of_all fun f hf => hc.1 f (mem_frames_of_drop hf)
  | back =>
    apply waiting_of_all
    intro f hf
    exact hc.2 rfl f (by rw [frames_outside]; exact hf)

/-- No condition on the stretches of code. -/
theorem before_true {s : σ} {es : List (Event ο α)} :
    Runs.Along (step O) (Before fun _ _ _ _ => True) (Config.start s) es := by
  apply Runs.along_of_forall
  intro c e
  exact before_of_state fun _ _ _ => trivial

/-- No condition on the calls. -/
theorem onCall_true {s : σ} {es : List (Event ο α)} :
    Runs.Along (step O) (OnCall fun _ _ _ => True) (Config.start s) es := by
  apply Runs.along_of_forall
  intro c e
  cases e <;> trivial

/-! ### Invariants of what is under way and what was logged -/

/-- **The invariant rule for the state, the activations and the log.**  An invariant
of the state, of the frames under way, of the calls out and in and of the notes is
kept if calling an operation keeps it, and if every stretch of code does, whatever
part of the stack it leaves: all of it, unless it throws.  Activations that are not
running may be assumed to wait at a frame satisfying `W`. -/
theorem invariant_of_parts {W : φ → Prop}
    {I : σ → List φ → List κ → List ο → List ν → Prop} {P : σ → φ → List φ → α → Prop}
    {Q : σ → List φ → ο → Prop}
    (hout : ∀ s f a s' g k ns, O.resume s f a = some (.callOut s' g k ns) → W g)
    (hcall : ∀ s fs ks os ns o, (∀ f ∈ fs, W f) → I s fs ks os ns → Q s fs o →
      I (O.enter s o).1 ((O.enter s o).2 :: fs) ks (os ++ [o]) ns)
    (hresume : ∀ s f fs ks os ns a out kept, (∀ g ∈ fs, W g) → I s (f :: fs) ks os ns →
      P s f fs a → O.resume s f a = some out → kept <:+ fs → (out.throws = false → kept = fs) →
      I out.state (out.frames ++ kept) (ks ++ out.callOuts) os (ns ++ out.notes))
    {s : σ} {es : List (Event ο α)} (hs : I s [] [] [] [])
    (hp : Runs.Along (step O) (Before P) (Config.start s) es)
    (hq : Runs.Along (step O) (OnCall Q) (Config.start s) es)
    (hr : Runs.run (step O) (Config.start s) es = some c) :
    I c.state (frames c.stack) (callOuts c.log) (calls c.log) (notes c.log) := by
  refine Runs.run_invariant_given (J := fun c => Waiting W c.stack)
    (I := fun c => I c.state (frames c.stack) (callOuts c.log) (calls c.log) (notes c.log))
    (fun _ _ _ hw h => hw.step hout (Step.of_step h)) (fun c e c' hw hI hpq hstep => ?_)
    (waiting_of_all (by simp [Config.start])) hs (hp.and hq) hr
  obtain ⟨hbefore, honcall⟩ := hpq
  rcases (Step.of_step hstep).stretch with ⟨o, rfl, hrun, rfl⟩ |
    ⟨f, rest, a, out, kept, hstack, ha, hres, hstate, hsuffix, hkept, hframes, hcallOuts, hnotes,
      hcalls⟩ | ⟨-, hstate, hframes, hlog⟩
  · have hcalled := hcall c.state _ _ _ _ o (hw.2 hrun) hI honcall
    simpa using hcalled
  · simp only [Before, ha, hstack] at hbefore
    rw [hstack, frames_code] at hI
    have hwait := hw.1
    rw [hstack] at hwait
    rw [hstate, hframes, hcallOuts, hcalls, hnotes]
    exact hresume _ f _ _ _ _ a out kept hwait hI hbefore hres hsuffix hkept
  · rw [hstate, hframes, hlog]
    exact hI

/-! ### Exceptions -/

/-- The running activation ends by an exception, at a frame satisfying `C` in this
state. -/
def ThrowsAt (C : σ → φ → Prop) (c : Config σ ο φ κ ρ ν) : Event ο α → Prop
  | .unwind _ _ => ∃ f rest, c.stack = .code f :: rest ∧ C c.state f
  | _ => False

/-- **Which exceptions a run meets.**  If a stretch of code from a frame satisfying `C`
throws exactly when it does not run under `P`, then a run has no exception at such a
frame exactly when all its stretches run under `P`. -/
theorem throwsAt_iff {J : σ → Prop} {C : σ → φ → Prop} {P : σ → φ → List φ → α → Prop}
    (henter : ∀ s o, J s → J (O.enter s o).1)
    (hresume : ∀ s f a out, J s → O.resume s f a = some out → J out.state)
    (hthrows : ∀ s f fs a out, J s → O.resume s f a = some out →
      (out.throws = true ∧ C s f ↔ ¬ P s f fs a))
    {s : σ} {es : List (Event ο α)} (hs : J s)
    (hr : Runs.run (step O) (Config.start s) es = some c) :
    Runs.Along (step O) (fun c e => ¬ ThrowsAt C c e) (Config.start s) es ↔
      Runs.Along (step O) (Before P) (Config.start s) es := by
  refine Runs.along_iff (J := fun c => J c.state) (fun c e c' hJ hstep => ?_)
    (fun c e c' hJ hstep => ?_) hs hr
  · rcases (Step.of_step hstep).stretch with ⟨o, -, -, rfl⟩ |
      ⟨f, rest, a, out, kept, -, -, hres, hstate, -⟩ | ⟨-, hstate, -⟩
    · exact henter _ _ hJ
    · rw [hstate]
      exact hresume _ _ _ _ hJ hres
    · rw [hstate]
      exact hJ
  · cases Step.of_step hstep with
    | call => exact iff_of_true (fun h => h) trivial
    | goto h | callOut h | ret h =>
      refine iff_of_true (fun h => h) ?_
      by_contra hnot
      exact absurd ((hthrows _ _ _ _ _ hJ h).mpr hnot).1 Bool.false_ne_true
    | @unwind s f rest log a s' ns depth h hout =>
      have hiff := hthrows _ _ (frames rest) _ _ hJ h
      constructor
      · intro hno
        by_contra hnot
        exact hno ⟨f, rest, rfl, (hiff.mpr hnot).2⟩
      · rintro hP ⟨f', rest', hstack, hC⟩
        cases hstack
        exact hiff.mp ⟨rfl, hC⟩ hP
    | back => exact iff_of_true (fun h => h) trivial

/-- What the running activation calls satisfies `G`, in the state before. -/
def CallsOut (O : Object σ ο φ κ α ρ ν) (G : σ → κ → Prop) : Config σ ο φ κ ρ ν → Event ο α → Prop :=
  Before fun s f _ a => ∀ out, O.resume s f a = some out → ∀ k ∈ out.callOuts, G s k

/-- If everything the code calls satisfies `G`, only the exceptions are left to ask for. -/
theorem callsOut_throwsAt_iff {G : σ → κ → Prop} {C : σ → φ → Prop} {P : σ → φ → List φ → α → Prop}
    (hcalls : ∀ s f a out, O.resume s f a = some out → ∀ k ∈ out.callOuts, G s k)
    (hthrows : ∀ s f fs a out, O.resume s f a = some out →
      (out.throws = true ∧ C s f ↔ ¬ P s f fs a))
    {s : σ} {es : List (Event ο α)} (hr : Runs.run (step O) (Config.start s) es = some c) :
    Runs.Along (step O) (fun c e => CallsOut O G c e ∧ ¬ ThrowsAt C c e) (Config.start s) es ↔
      Runs.Along (step O) (Before P) (Config.start s) es := by
  have hout : ∀ (c : Config σ ο φ κ ρ ν) (e : Event ο α), CallsOut O G c e := by
    intro c e
    exact before_of_state fun f _ a out hres => hcalls _ f a out hres
  have hthrown := throwsAt_iff (J := fun _ => True) (C := C) (P := P) (fun _ _ _ => trivial)
    (fun _ _ _ _ _ _ => trivial) (fun s f fs a out _ => hthrows s f fs a out) trivial hr
  refine Iff.trans (Runs.along_iff (J := fun _ => True) (fun _ _ _ _ _ => trivial) ?_ trivial hr)
    hthrown
  intro c e _ _ _
  exact and_iff_right (hout c e)

/-! ### Facts local to an activation -/

/-- An outcome leaves a frame satisfying `L` and notes satisfying `N`. -/
def Outcome.Leaves (L : φ → Prop) (N : ν → Prop) : Outcome σ φ κ ρ ν → Prop
  | .goto _ f ns => L f ∧ ∀ n ∈ ns, N n
  | .callOut _ f _ ns => L f ∧ ∀ n ∈ ns, N n
  | .ret _ _ ns => ∀ n ∈ ns, N n
  | .throw _ ns => ∀ n ∈ ns, N n

theorem Outcome.Leaves.frames_notes {L : φ → Prop} {N : ν → Prop} {out : Outcome σ φ κ ρ ν}
    (h : out.Leaves L N) : (∀ f ∈ out.frames, L f) ∧ ∀ n ∈ out.notes, N n := by
  cases out with
  | goto s f ns => exact ⟨List.forall_mem_singleton.mpr h.1, h.2⟩
  | callOut s f k ns => exact ⟨List.forall_mem_singleton.mpr h.1, h.2⟩
  | ret s r ns => exact ⟨by simp [Outcome.frames], h⟩
  | throw s ns => exact ⟨by simp [Outcome.frames], h⟩

/-- **Facts local to an activation survive every re-entrance.**  If every
operation starts at a frame satisfying `L`, and every stretch of code from such
a frame leaves such a frame and only notes satisfying `N`, then whatever calls
interleave, all activations satisfy `L` and all notes satisfy `N`. -/
theorem locally {L : φ → Prop} {N : ν → Prop} (henter : ∀ s o, L (O.enter s o).2)
    (hresume : ∀ s f a out, L f → O.resume s f a = some out → out.Leaves L N)
    {s : σ} {es : List (Event ο α)} (hr : Runs.run (step O) (Config.start s) es = some c) :
    (∀ f ∈ frames c.stack, L f) ∧ ∀ n ∈ notes c.log, N n := by
  refine invariant_of_parts (W := fun _ => True)
    (I := fun _ fs _ _ ns => (∀ f ∈ fs, L f) ∧ ∀ n ∈ ns, N n)
    (fun _ _ _ _ _ _ _ _ => trivial) (fun s fs ks os ns o _ hI _ => ?_)
    (fun s f fs ks os ns a out kept _ hI _ hres hsuffix _ => ?_) (by simp)
    before_true onCall_true hr
  · exact ⟨List.forall_mem_cons.mpr ⟨henter s o, hI.1⟩, hI.2⟩
  · obtain ⟨hL, hN⟩ := hI
    obtain ⟨hf, hfs⟩ := List.forall_mem_cons.mp hL
    obtain ⟨hframes, hnotes⟩ := (hresume s f a out hf hres).frames_notes
    refine ⟨fun g hg => ?_, fun n hn => ?_⟩
    · rcases List.mem_append.mp hg with hg | hg
      · exact hframes g hg
      · exact hfs g (hsuffix.subset hg)
    · rcases List.mem_append.mp hn with hn | hn
      · exact hN n hn
      · exact hnotes n hn

/-! ### Invariants of the state and of the activations -/

/-- The state an outcome leaves satisfies `J`, the frame, if any, `L`. -/
def Outcome.Keeps (J : σ → Prop) (L : φ → Prop) : Outcome σ φ κ ρ ν → Prop
  | .goto s f _ => J s ∧ L f
  | .callOut s f _ _ => J s ∧ L f
  | .ret s _ _ => J s
  | .throw s _ => J s

theorem Outcome.Keeps.state_frames {J : σ → Prop} {L : φ → Prop} {out : Outcome σ φ κ ρ ν}
    (h : out.Keeps J L) : J out.state ∧ ∀ f ∈ out.frames, L f := by
  cases out with
  | goto s f ns => exact ⟨h.1, List.forall_mem_singleton.mpr h.2⟩
  | callOut s f k ns => exact ⟨h.1, List.forall_mem_singleton.mpr h.2⟩
  | ret s r ns => exact ⟨h, by simp [Outcome.frames]⟩
  | throw s ns => exact ⟨h, by simp [Outcome.frames]⟩

/-- **The invariant rule for runs with a clean log.**  An invariant of the state
and of the frames that operations start with, and that every stretch of code
keeps when it runs under `P` and leaves only notes satisfying `N`, holds after
every run whose stretches run under `P` and whose notes all satisfy `N`. -/
theorem invariant_along {J : σ → Prop} {L : φ → Prop} {N : ν → Prop} {P : σ → φ → List φ → α → Prop}
    (henter : ∀ s o, J s → J (O.enter s o).1 ∧ L (O.enter s o).2)
    (hresume : ∀ s f fs a out, J s → L f → P s f fs a → O.resume s f a = some out →
      (∀ n ∈ out.notes, N n) → out.Keeps J L)
    {s : σ} {es : List (Event ο α)} (hs : J s)
    (hp : Runs.Along (step O) (Before P) (Config.start s) es)
    (hr : Runs.run (step O) (Config.start s) es = some c) (hn : ∀ n ∈ notes c.log, N n) :
    J c.state ∧ ∀ f ∈ frames c.stack, L f := by
  have hinv : (∀ n ∈ notes c.log, N n) → J c.state ∧ ∀ f ∈ frames c.stack, L f := by
    -- the log only grows, so while it is clean it was clean before
    refine invariant_of_parts (W := fun _ => True)
      (I := fun s fs _ _ ns => (∀ n ∈ ns, N n) → J s ∧ ∀ f ∈ fs, L f)
      (fun _ _ _ _ _ _ _ _ => trivial) (fun s fs ks os ns o _ hI _ hclean => ?_)
      (fun s f fs ks os ns a out kept _ hI hP hres hsuffix _ hclean => ?_)
      (fun _ => ⟨hs, by simp⟩) hp onCall_true hr
    · obtain ⟨hJ, hL⟩ := hI hclean
      obtain ⟨hJ', hL'⟩ := henter s o hJ
      exact ⟨hJ', List.forall_mem_cons.mpr ⟨hL', hL⟩⟩
    · obtain ⟨hbefore, hnew⟩ := List.forall_mem_append.mp hclean
      obtain ⟨hJ, hL⟩ := hI hbefore
      obtain ⟨hf, hfs⟩ := List.forall_mem_cons.mp hL
      obtain ⟨hJ', hframes⟩ := (hresume s f fs a out hJ hf hP hres hnew).state_frames
      refine ⟨hJ', fun g hg => ?_⟩
      rcases List.mem_append.mp hg with hg | hg
      · exact hframes g hg
      · exact hfs g (hsuffix.subset hg)
  exact hinv hn

/-! ### An activation that is to do something once -/

/-- One activation stands at a frame satisfying `N`; those over it satisfy `T`, those
under it do not satisfy `N`. -/
inductive Due (T N : φ → Prop) : List φ → Prop where
  | here {f : φ} {fs : List φ} (hf : N f) (hrest : ∀ g ∈ fs, ¬ N g) : Due T N (f :: fs)
  | under {f : φ} {fs : List φ} (hf : T f) (hdue : Due T N fs) : Due T N (f :: fs)

theorem Due.exists_mem {T N : φ → Prop} {fs : List φ} (h : Due T N fs) : ∃ f ∈ fs, N f := by
  induction h with
  | here hf hrest => exact ⟨_, List.mem_cons_self .., hf⟩
  | under hf hdue ih =>
    obtain ⟨g, hg, hN⟩ := ih
    exact ⟨g, List.mem_cons_of_mem _ hg, hN⟩

theorem Due.append {T N : φ → Prop} {fs gs : List φ} (h : Due T N fs) (hgs : ∀ g ∈ gs, T g) :
    Due T N (gs ++ fs) := by
  induction gs with
  | nil => exact h
  | cons g gs ih =>
    obtain ⟨hg, hgs⟩ := List.forall_mem_cons.mp hgs
    exact .under hg (ih hgs)

end
end Reentrant
