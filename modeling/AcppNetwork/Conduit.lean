import Mathlib

/-!
# First-in first-out conduits

A conduit stands between a party that gives items and a party that takes them,
and holds what was given and not yet taken.  Its law is that the items taken,
followed by the items held, are the items given, in order: nothing is lost,
duplicated or reordered.

The law is a field of the structure, so a value whose items are out of order
cannot be built, and the operations — `accept` at one end, `deliver` at the
other, `pass` straight through an empty conduit, and `offer` to one that has
room for only so much — each carry the proof that they keep it.

A program with a queue, a pending buffer or a pipe of bytes is related to a
conduit by `Traces`: what it was given, what it handed on and what it keeps are
the conduit's.
-/

/-- What was given, what was taken, and what is held, in the order it was given. -/
structure Conduit (α : Type) where
  given : List α
  taken : List α
  held : List α
  fifo : taken ++ held = given

namespace Conduit
variable {α : Type}

/-- A conduit nothing was given to. -/
def empty : Conduit α := ⟨[], [], [], rfl⟩

/-- Give `xs`; they are held behind what is held already. -/
def accept (q : Conduit α) (xs : List α) : Conduit α where
  given := q.given ++ xs
  taken := q.taken
  held := q.held ++ xs
  fifo := by rw [← q.fifo, List.append_assoc]

/-- Take the first `n` items held. -/
def deliver (q : Conduit α) (n : Nat) : Conduit α where
  given := q.given
  taken := q.taken ++ q.held.take n
  held := q.held.drop n
  fifo := by rw [List.append_assoc, List.take_append_drop, q.fifo]

/-- Give `xs` straight to the taker, past an empty conduit. -/
def pass (q : Conduit α) (h : q.held = []) (xs : List α) : Conduit α where
  given := q.given ++ xs
  taken := q.taken ++ xs
  held := []
  fifo := by rw [List.append_nil, ← q.fifo, h, List.append_nil]

/-- Give as much of `xs` as a conduit holding at most `cap` items has room for. -/
def offer (q : Conduit α) (cap : Nat) (xs : List α) : Conduit α :=
  q.accept (xs.take (cap - q.held.length))

/-- The given, taken and held items of `q` are these. -/
structure Traces (q : Conduit α) (given taken held : List α) : Prop where
  given : q.given = given
  taken : q.taken = taken
  held : q.held = held

variable {q : Conduit α} {g t h xs : List α} {n cap : Nat}

theorem Traces.empty : (empty : Conduit α).Traces [] [] [] := ⟨rfl, rfl, rfl⟩

theorem Traces.fifo (hq : q.Traces g t h) : t ++ h = g := by
  rw [← hq.given, ← hq.taken, ← hq.held, q.fifo]

theorem Traces.accept (hq : q.Traces g t h) (xs : List α) :
    (q.accept xs).Traces (g ++ xs) t (h ++ xs) :=
  ⟨congrArg (· ++ xs) hq.given, hq.taken, congrArg (· ++ xs) hq.held⟩

theorem Traces.deliver (hq : q.Traces g t h) (n : Nat) :
    (q.deliver n).Traces g (t ++ h.take n) (h.drop n) := by
  refine ⟨hq.given, ?_, ?_⟩
  · show q.taken ++ q.held.take n = _
    rw [hq.taken, hq.held]
  · show q.held.drop n = _
    rw [hq.held]

theorem Traces.pass (hq : q.Traces g t []) (xs : List α) :
    (q.pass hq.held xs).Traces (g ++ xs) (t ++ xs) [] :=
  ⟨congrArg (· ++ xs) hq.given, congrArg (· ++ xs) hq.taken, rfl⟩

theorem Traces.offer (hq : q.Traces g t h) (cap : Nat) (xs : List α) :
    (q.offer cap xs).Traces (g ++ xs.take (cap - h.length)) t (h ++ xs.take (cap - h.length)) := by
  have haccept := hq.accept (xs.take (cap - h.length))
  rw [← hq.held] at haccept ⊢
  exact haccept

/-- A conduit that does not take all it is offered is full afterwards. -/
theorem offer_held_full (hcap : q.held.length ≤ cap)
    (hshort : (xs.take (cap - q.held.length)).length < xs.length) :
    (q.offer cap xs).held.length = cap := by
  show (q.held ++ xs.take (cap - q.held.length)).length = cap
  rw [List.length_take] at hshort
  rw [List.length_append, List.length_take]
  omega

end Conduit
