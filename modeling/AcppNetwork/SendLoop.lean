import Mathlib

/-!
# Loops that hand a buffer over in chunks

A loop offers a chunk of a buffer to a call that takes a prefix of it and says how
much, moves on by that much, and stops at the first call that takes nothing.  It has
no bound of its own: it ends because every turn but the last takes something.

The length that is left and the count so far are machine words of `w` bits, so that
the loop subtracts and adds modulo `2 ^ w`; for a buffer whose length is such a word
neither wraps (`passFrom_succ`).  What a loop that ended has done is `Prefix`: the
bytes taken are the first of the buffer, in order, and they are as many as it returns.

`Buffered` is a call that fills a buffer of limited room.  The loop over it has a
closed form in which the size of the chunk does not occur (`Buffered.pass`), so that
loops with different chunks do the same.
-/

/-- A call that is offered part of a buffer: its answer carries the number of
elements it took, or none if the call threw. -/
structure SendCall (σ ρ α : Type) where
  send : σ → List α → σ × ρ
  took : ρ → Option Nat
  took_le : ∀ {s xs n}, took (send s xs).2 = some n → n ≤ xs.length

namespace SendCall

variable {σ ρ α : Type}

/-- One turn: where in the buffer it starts, the length that is left, the length
it offers, and the answer. -/
structure Turn (ρ : Type) where
  offset : Nat
  left : Nat
  request : Nat
  answer : ρ

/-- What the loop leaves, with the count it returns (none if a call threw). -/
structure Finished (σ ρ : Type) where
  state : σ
  result : Option Nat
  turns : List (Turn ρ)

/-- The loop as seen from the turn before. -/
def Finished.after (t : Turn ρ) (f : Finished σ ρ) : Finished σ ρ :=
  { f with turns := t :: f.turns }

/-- The loop; `fuel` bounds the number of its turns. -/
def loop (c : SendCall σ ρ α) (w chunk : Nat) (buffer : List α) :
    Nat → σ → Nat → Nat → Nat → Option (Finished σ ρ)
  | 0, _, _, _, _ => none
  | fuel + 1, s, offset, len, result =>
      let request := min len chunk
      let r := c.send s ((buffer.drop offset).take request)
      let turn := ⟨offset, len, request, r.2⟩
      match c.took r.2 with
      | none => some ⟨r.1, none, [turn]⟩
      | some n =>
          if n = 0 then some ⟨r.1, some result, [turn]⟩
          else
            (c.loop w chunk buffer fuel r.1 (offset + n) ((len + 2 ^ w - n) % 2 ^ w)
              ((result + n) % 2 ^ w)).map (Finished.after turn)

/-- The loop over the buffer from `offset` on. -/
def passFrom (c : SendCall σ ρ α) (w chunk : Nat) (buffer : List α) (fuel : Nat) (s : σ)
    (offset : Nat) : Option (Finished σ ρ) :=
  c.loop w chunk buffer fuel s offset (buffer.length - offset) offset

/-- The loop over the whole buffer. -/
def pass (c : SendCall σ ρ α) (w chunk : Nat) (buffer : List α) (fuel : Nat) (s : σ) :
    Option (Finished σ ρ) :=
  c.loop w chunk buffer fuel s 0 buffer.length 0

variable {c : SendCall σ ρ α} {w chunk fuel offset : Nat} {buffer : List α} {s : σ}

theorem pass_eq : c.pass w chunk buffer fuel s = c.passFrom w chunk buffer fuel s 0 := rfl

/-- The part of the buffer a turn at `offset` offers. -/
def offered (chunk : Nat) (buffer : List α) (offset : Nat) : List α :=
  (buffer.drop offset).take (min (buffer.length - offset) chunk)

theorem length_offered (chunk : Nat) (buffer : List α) (offset : Nat) :
    (offered chunk buffer offset).length = min (buffer.length - offset) chunk := by
  rw [offered, List.length_take, List.length_drop]
  omega

/-- The turn at `offset`, with its answer. -/
def turnAt (chunk : Nat) (buffer : List α) (offset : Nat) (answer : ρ) : Turn ρ where
  offset := offset
  left := buffer.length - offset
  request := min (buffer.length - offset) chunk
  answer := answer

/-- **One turn of the loop**: the word arithmetic does not wrap. -/
theorem passFrom_succ (hfit : buffer.length < 2 ^ w) (hoff : offset ≤ buffer.length) :
    c.passFrom w chunk buffer (fuel + 1) s offset =
      let r := c.send s (offered chunk buffer offset)
      match c.took r.2 with
      | none => some ⟨r.1, none, [turnAt chunk buffer offset r.2]⟩
      | some n =>
          if n = 0 then some ⟨r.1, some offset, [turnAt chunk buffer offset r.2]⟩
          else (c.passFrom w chunk buffer fuel r.1 (offset + n)).map
            (Finished.after (turnAt chunk buffer offset r.2)) := by
  rw [passFrom, loop]
  simp only [offered, turnAt]
  generalize hr : c.send s ((buffer.drop offset).take (min (buffer.length - offset) chunk)) = r
  cases hn : c.took r.2 with
  | none => rfl
  | some n =>
    have hle : n ≤ buffer.length - offset := by
      have hlen := c.took_le (hr ▸ hn)
      rw [List.length_take, List.length_drop] at hlen
      omega
    have hsub : (buffer.length - offset + 2 ^ w - n) % 2 ^ w = buffer.length - (offset + n) := by
      rw [show buffer.length - offset + 2 ^ w - n
        = (buffer.length - (offset + n)) + 2 ^ w by omega, Nat.add_mod_right,
        Nat.mod_eq_of_lt (by omega)]
    have hadd : (offset + n) % 2 ^ w = offset + n := Nat.mod_eq_of_lt (by omega)
    dsimp only
    rw [hsub, hadd, passFrom]

/-! ## What a loop that ended has done -/

/-- The number of elements a turn took. -/
def taken (c : SendCall σ ρ α) (t : Turn ρ) : Nat := (c.took t.answer).getD 0

/-- The number of elements some turns took. -/
def total (c : SendCall σ ρ α) (turns : List (Turn ρ)) : Nat := (turns.map c.taken).sum

/-- The elements some turns took, in the order they were taken. -/
def accepted (c : SendCall σ ρ α) (buffer : List α) (turns : List (Turn ρ)) : List α :=
  turns.flatMap fun t => ((buffer.drop t.offset).take t.request).take (c.taken t)

/-- A turn of a loop over `buffer`. -/
structure Turn.OfLoop (c : SendCall σ ρ α) (chunk : Nat) (buffer : List α) (t : Turn ρ) :
    Prop where
  left : t.offset + t.left = buffer.length
  request : t.request = min t.left chunk
  answered : ∃ s, (c.send s ((buffer.drop t.offset).take t.request)).2 = t.answer

/-- A turn takes no more than it offers, and so no more than is left. -/
theorem Turn.OfLoop.taken_le {t : Turn ρ} (h : t.OfLoop c chunk buffer) :
    c.taken t ≤ t.request := by
  obtain ⟨s, hs⟩ := h.answered
  rw [taken]
  cases hn : c.took t.answer with
  | none => exact Nat.zero_le _
  | some n =>
    have hle := c.took_le (hs ▸ hn)
    rw [List.length_take] at hle
    exact Nat.le_trans hle (Nat.min_le_left _ _)

theorem turnAt_ofLoop (c : SendCall σ ρ α) (chunk : Nat) (s : σ) (hoff : offset ≤ buffer.length) :
    (turnAt chunk buffer offset (c.send s (offered chunk buffer offset)).2).OfLoop c chunk
      buffer where
  left := Nat.add_sub_cancel' hoff
  request := rfl
  answered := ⟨s, rfl⟩

/-- The next turn stands in the buffer, or at its end. -/
theorem next_le {n : Nat} (hoff : offset ≤ buffer.length)
    (hn : c.took (c.send s (offered chunk buffer offset)).2 = some n) :
    offset + n ≤ buffer.length := by
  have hle := c.took_le hn
  rw [length_offered] at hle
  omega

/-- **What a loop from `offset` on has done** when it ends: it took elements from
`offset` on, in order, and none of them is missing from its count; the last turn
stands where it stopped, and took nothing or threw. -/
structure Prefix (c : SendCall σ ρ α) (chunk : Nat) (buffer : List α) (offset : Nat)
    (f : Finished σ ρ) : Prop where
  turns : ∀ t ∈ f.turns, t.OfLoop c chunk buffer
  fits : offset + c.total f.turns ≤ buffer.length
  accepted : c.accepted buffer f.turns = (buffer.drop offset).take (c.total f.turns)
  result : ∀ r, f.result = some r → r = offset + c.total f.turns
  last : ∃ t, f.turns.getLast? = some t ∧ t.offset = offset + c.total f.turns ∧
    c.took t.answer = f.result.map fun _ => 0

theorem Prefix.one {answer : ρ} {s' : σ} {result : Option Nat}
    (ht : (turnAt chunk buffer offset answer).OfLoop c chunk buffer)
    (hoff : offset ≤ buffer.length) (htook : c.took answer = result.map fun _ => 0)
    (hresult : ∀ r, result = some r → r = offset) :
    Prefix c chunk buffer offset ⟨s', result, [turnAt chunk buffer offset answer]⟩ := by
  have hzero : c.taken (turnAt chunk buffer offset answer) = 0 := by
    rw [taken]
    show (c.took answer).getD 0 = 0
    rw [htook]
    cases result <;> rfl
  have htotal : c.total [turnAt chunk buffer offset answer] = 0 := by simp [total, hzero]
  constructor
  · intro t hmem
    rw [List.mem_singleton] at hmem
    exact hmem ▸ ht
  · rw [htotal]
    exact hoff
  · rw [htotal]
    simp [SendCall.accepted, hzero]
  · intro r hr
    rw [htotal]
    exact hresult r hr
  · exact ⟨_, rfl, by rw [htotal]; rfl, htook⟩

theorem Prefix.after {answer : ρ} {n : Nat} {f : Finished σ ρ}
    (ht : (turnAt chunk buffer offset answer).OfLoop c chunk buffer)
    (hn : c.took answer = some n) (h : Prefix c chunk buffer (offset + n) f) :
    Prefix c chunk buffer offset (f.after (turnAt chunk buffer offset answer)) := by
  have htaken : c.taken (turnAt chunk buffer offset answer) = n := by
    rw [taken]
    exact congrArg (Option.getD · 0) hn
  have htotal : c.total (turnAt chunk buffer offset answer :: f.turns) = n + c.total f.turns := by
    rw [total, List.map_cons, List.sum_cons, htaken]
    rfl
  have hle : n ≤ min (buffer.length - offset) chunk := htaken ▸ ht.taken_le
  constructor
  · intro t hmem
    rcases List.mem_cons.mp hmem with rfl | hmem
    · exact ht
    · exact h.turns t hmem
  · have hfits := h.fits
    show offset + c.total (_ :: f.turns) ≤ _
    rw [htotal]
    omega
  · show c.accepted buffer (_ :: f.turns) = (buffer.drop offset).take (c.total (_ :: f.turns))
    have hrest := h.accepted
    rw [SendCall.accepted] at hrest
    rw [SendCall.accepted, List.flatMap_cons, hrest, htaken, htotal, List.take_add]
    show ((buffer.drop offset).take (min (buffer.length - offset) chunk)).take n ++ _ = _
    rw [List.take_take, Nat.min_eq_left hle, List.drop_drop]
  · intro r hr
    show r = offset + c.total (_ :: f.turns)
    rw [htotal, h.result r hr]
    omega
  · obtain ⟨t, hlast, hoff, htook⟩ := h.last
    refine ⟨t, ?_, ?_, htook⟩
    · show (_ :: f.turns).getLast? = some t
      rw [List.getLast?_cons, hlast]
      rfl
    · show t.offset = offset + c.total (_ :: f.turns)
      rw [htotal, hoff]
      omega

/-- **Induction over a loop that ends**: its last turn takes nothing or throws, every turn
before takes something. -/
@[elab_as_elim]
theorem passFrom_induct {motive : σ → Nat → Finished σ ρ → Prop} (hfit : buffer.length < 2 ^ w)
    (ends : ∀ s offset, offset ≤ buffer.length →
      (∀ n, c.took (c.send s (offered chunk buffer offset)).2 = some n → n = 0) →
      motive s offset ⟨(c.send s (offered chunk buffer offset)).1,
        (c.took (c.send s (offered chunk buffer offset)).2).map fun _ => offset,
        [turnAt chunk buffer offset (c.send s (offered chunk buffer offset)).2]⟩)
    (goes : ∀ s offset n f, offset ≤ buffer.length →
      c.took (c.send s (offered chunk buffer offset)).2 = some n → n ≠ 0 →
      motive (c.send s (offered chunk buffer offset)).1 (offset + n) f →
      motive s offset
        (f.after (turnAt chunk buffer offset (c.send s (offered chunk buffer offset)).2)))
    {f : Finished σ ρ} (hoff : offset ≤ buffer.length)
    (h : c.passFrom w chunk buffer fuel s offset = some f) : motive s offset f := by
  induction fuel generalizing s offset f with
  | zero => cases h
  | succ fuel ih =>
    rw [passFrom_succ hfit hoff] at h
    cases hn : c.took (c.send s (offered chunk buffer offset)).2 with
    | none =>
      simp only [hn, Option.some.injEq] at h
      have hend := ends s offset hoff fun n hn' => by
        rw [hn] at hn'
        cases hn'
      rw [hn] at hend
      exact h ▸ hend
    | some n =>
      simp only [hn] at h
      by_cases hzero : n = 0
      · rw [if_pos hzero, Option.some.injEq] at h
        have hend := ends s offset hoff fun m hm => by
          rw [hn] at hm
          exact (Option.some.inj hm).symm.trans hzero
        rw [hn] at hend
        exact h ▸ hend
      · rw [if_neg hzero, Option.map_eq_some_iff] at h
        obtain ⟨f, hf, rfl⟩ := h
        exact goes s offset n f hoff hn hzero (ih (next_le hoff hn) hf)

/-- A loop that ends has taken a prefix of what it was to hand over. -/
theorem passFrom_prefix (hfit : buffer.length < 2 ^ w) {f : Finished σ ρ}
    (hoff : offset ≤ buffer.length) (h : c.passFrom w chunk buffer fuel s offset = some f) :
    Prefix c chunk buffer offset f := by
  refine passFrom_induct hfit ?ends ?goes hoff h
  case ends =>
    intro s offset hoff hzero
    have ht := turnAt_ofLoop c chunk s hoff
    generalize c.send s (offered chunk buffer offset) = r at hzero ht
    refine .one ht hoff ?_ ?_
    · cases hn : c.took r.2 with
      | none => rfl
      | some n => rw [hzero n hn]; rfl
    · intro m hm
      obtain ⟨_, -, rfl⟩ := Option.map_eq_some_iff.mp hm
      rfl
  case goes =>
    intro s offset n f hoff hn _ ih
    exact .after (turnAt_ofLoop c chunk s hoff) hn ih

/-! ## What the call was offered -/

/-- The call is offered these, one after the other: the state afterwards, and the answers. -/
def serve (c : SendCall σ ρ α) : σ → List (List α) → σ × List ρ
  | s, [] => (s, [])
  | s, xs :: rest =>
      let r := c.send s xs
      let served := c.serve r.1 rest
      (served.1, r.2 :: served.2)

/-- The elements that it takes of them. -/
def got (c : SendCall σ ρ α) : σ → List (List α) → List α
  | _, [] => []
  | s, xs :: rest =>
      let r := c.send s xs
      xs.take ((c.took r.2).getD 0) ++ c.got r.1 rest

/-- What some turns offered. -/
def requests (buffer : List α) (turns : List (Turn ρ)) : List (List α) :=
  turns.map fun t => (buffer.drop t.offset).take t.request

/-- **The turns of a loop are the call's answers** to what they offer, one after the other. -/
theorem serve_of_passFrom (hfit : buffer.length < 2 ^ w) {f : Finished σ ρ}
    (hoff : offset ≤ buffer.length) (h : c.passFrom w chunk buffer fuel s offset = some f) :
    c.serve s (requests buffer f.turns) = (f.state, f.turns.map Turn.answer) := by
  refine passFrom_induct hfit ?ends ?goes hoff h
  case ends =>
    intro s offset _ _
    rfl
  case goes =>
    intro s offset n f _ _ _ ih
    generalize hr : c.send s (offered chunk buffer offset) = r at ih
    show ((c.serve (c.send s (offered chunk buffer offset)).1 (requests buffer f.turns)).1,
      (c.send s (offered chunk buffer offset)).2 ::
        (c.serve (c.send s (offered chunk buffer offset)).1 (requests buffer f.turns)).2) = _
    rw [hr, ih]
    rfl

/-- What the call takes is what its answers say. -/
theorem got_of_serve {turns : List (Turn ρ)} {s' : σ}
    (h : c.serve s (requests buffer turns) = (s', turns.map Turn.answer)) :
    c.got s (requests buffer turns) = c.accepted buffer turns := by
  induction turns generalizing s with
  | nil => rfl
  | cons t turns ih =>
    obtain ⟨hstate, hanswers⟩ := Prod.ext_iff.mp h
    obtain ⟨hanswer, hrest⟩ := List.cons.inj hanswers
    show ((buffer.drop t.offset).take t.request).take ((c.took (c.send s _).2).getD 0) ++ _ = _
    rw [accepted, List.flatMap_cons, ← accepted, ← ih (Prod.ext hstate hrest), taken, ← hanswer]
    rfl

/-! ## The loop ends -/

/-- With a turn for each element that is left and one more, the loop ends; further
fuel changes nothing. -/
theorem passFrom_ends (c : SendCall σ ρ α) (chunk : Nat) (s : σ) (hfit : buffer.length < 2 ^ w)
    (hoff : offset ≤ buffer.length) :
    ∃ f, ∀ fuel, buffer.length - offset < fuel →
      c.passFrom w chunk buffer fuel s offset = some f := by
  induction hd : buffer.length - offset using Nat.strongRecOn generalizing s offset with
  | ind d ih =>
    have hsucc : ∀ fuel, c.passFrom w chunk buffer (fuel + 1) s offset = _ :=
      fun fuel => passFrom_succ hfit hoff
    have hle : ∀ n, c.took (c.send s (offered chunk buffer offset)).2 = some n →
        offset + n ≤ buffer.length := fun _ => next_le hoff
    generalize c.send s (offered chunk buffer offset) = r at hsucc hle
    cases hn : c.took r.2 with
    | none =>
      refine ⟨⟨r.1, none, [turnAt chunk buffer offset r.2]⟩, fun fuel hfuel => ?_⟩
      obtain ⟨k, rfl⟩ := Nat.exists_eq_succ_of_ne_zero (by omega : fuel ≠ 0)
      rw [hsucc k]
      simp only [hn]
    | some n =>
      by_cases hzero : n = 0
      · refine ⟨⟨r.1, some offset, [turnAt chunk buffer offset r.2]⟩, fun fuel hfuel => ?_⟩
        obtain ⟨k, rfl⟩ := Nat.exists_eq_succ_of_ne_zero (by omega : fuel ≠ 0)
        rw [hsucc k]
        simp only [hn, if_pos hzero]
      · have hnext : offset + n ≤ buffer.length := hle n hn
        obtain ⟨f, hf⟩ := ih (buffer.length - (offset + n)) (by omega) (s := r.1) hnext rfl
        refine ⟨f.after (turnAt chunk buffer offset r.2), fun fuel hfuel => ?_⟩
        obtain ⟨k, rfl⟩ := Nat.exists_eq_succ_of_ne_zero (by omega : fuel ≠ 0)
        rw [hsucc k]
        simp only [hn, if_neg hzero, hf k (by omega), Option.map_some]

/-- The loop over a whole buffer ends, and has taken a prefix of it. -/
theorem pass_ends (c : SendCall σ ρ α) (chunk : Nat) (s : σ) (hfit : buffer.length < 2 ^ w) :
    ∃ f, (∀ fuel, buffer.length < fuel → c.pass w chunk buffer fuel s = some f) ∧
      Prefix c chunk buffer 0 f := by
  obtain ⟨f, hf⟩ := passFrom_ends c chunk s hfit (Nat.zero_le _)
  have hends : ∀ fuel, buffer.length < fuel → c.pass w chunk buffer fuel s = some f := by
    intro fuel hfuel
    rw [pass_eq]
    exact hf fuel hfuel
  exact ⟨f, hends, passFrom_prefix hfit (Nat.zero_le _) (hends _ (Nat.lt_succ_self _))⟩

/-! ## Filling a buffer of limited room -/

/-- A call that, in a good state, puts what it is offered into a buffer with limited
room, and that leaves `ask` behind when it is offered something and there is no room. -/
structure Buffered (c : SendCall σ ρ α) where
  Good : σ → Prop
  room : σ → Nat
  put : σ → List α → σ
  ask : σ → σ
  put_nil : ∀ s, put s [] = s
  put_append : ∀ s xs ys, put (put s xs) ys = put s (xs ++ ys)
  room_put : ∀ s xs, room (put s xs) = room s - xs.length
  good_put : ∀ s xs, Good s → Good (put s xs)
  send_empty : ∀ s, Good s → (c.send s []).1 = s ∧ c.took (c.send s []).2 = some 0
  send_full : ∀ s xs, Good s → xs ≠ [] → room s = 0 →
    (c.send s xs).1 = ask s ∧ c.took (c.send s xs).2 = some 0
  send_room : ∀ s xs, Good s → xs ≠ [] → 0 < room s →
    (c.send s xs).1 = put s (xs.take (room s)) ∧
      c.took (c.send s xs).2 = some (min xs.length (room s))

namespace Buffered

/-- What a loop over such a call leaves: the room is filled with the first elements,
and more room is asked for if it did not do. -/
def left (b : Buffered c) (s : σ) (xs : List α) : σ :=
  if b.room s < xs.length then b.ask (b.put s (xs.take (b.room s))) else b.put s xs

theorem passFrom (b : Buffered c) (hgood : b.Good s) (hchunk : 0 < chunk)
    (hfit : buffer.length < 2 ^ w) (hoff : offset ≤ buffer.length)
    (hfuel : buffer.length - offset < fuel) :
    ∃ f, c.passFrom w chunk buffer fuel s offset = some f ∧
      f.state = b.left s (buffer.drop offset) ∧
      f.result = some (offset + min (buffer.length - offset) (b.room s)) := by
  induction fuel generalizing s offset with
  | zero => omega
  | succ fuel ih =>
    rw [passFrom_succ hfit hoff]
    have hlen := length_offered chunk buffer offset
    have hrest : (buffer.drop offset).length = buffer.length - offset := List.length_drop
    by_cases hempty : offered chunk buffer offset = []
    · -- the buffer is used up
      have hdone : buffer.length - offset = 0 := by
        rw [hempty, List.length_nil] at hlen
        omega
      obtain ⟨hstate, htook⟩ := b.send_empty s hgood
      rw [hempty]
      simp only [htook, if_true]
      refine ⟨_, rfl, ?_, by rw [hdone, Nat.zero_min, Nat.add_zero]⟩
      have hnil : buffer.drop offset = [] := List.length_eq_zero_iff.mp (by omega)
      rw [left, hnil, if_neg (by simp), b.put_nil]
      exact hstate
    · have hpos : 0 < min (buffer.length - offset) chunk := by
        rw [← hlen]
        exact List.length_pos_iff.mpr hempty
      by_cases hroom : b.room s = 0
      · obtain ⟨hstate, htook⟩ := b.send_full s _ hgood hempty hroom
        simp only [htook, if_true]
        refine ⟨_, rfl, ?_, by rw [hroom, Nat.min_zero, Nat.add_zero]⟩
        rw [left, hroom, if_pos (by omega), List.take_zero, b.put_nil]
        exact hstate
      · obtain ⟨hstate, htook⟩ := b.send_room s _ hgood hempty (Nat.pos_of_ne_zero hroom)
        have htaken : (offered chunk buffer offset).take (b.room s)
            = (buffer.drop offset).take (min (offered chunk buffer offset).length (b.room s)) := by
          rw [offered, List.take_take, ← offered, hlen, Nat.min_comm]
        rw [hlen] at htook
        rw [htaken, hlen] at hstate
        generalize hn : min (min (buffer.length - offset) chunk) (b.room s) = n at htook hstate
        simp only [htook, if_neg (show n ≠ 0 by omega), hstate]
        have hnext : offset + n ≤ buffer.length := by omega
        obtain ⟨f, hf, hfstate, hfresult⟩ := ih (s := b.put s ((buffer.drop offset).take n))
          (b.good_put _ _ hgood) hnext (by omega)
        have hroom' : b.room (b.put s ((buffer.drop offset).take n)) = b.room s - n := by
          rw [b.room_put, List.length_take, hrest]
          omega
        rw [hf]
        refine ⟨_, rfl, ?_, ?_⟩
        · show f.state = _
          rw [hfstate, left, left, hroom', b.put_append, b.put_append, List.length_drop, hrest,
            ← List.drop_drop, List.take_append_drop]
          have hjoin : (buffer.drop offset).take n
                ++ ((buffer.drop offset).drop n).take (b.room s - n)
              = (buffer.drop offset).take (b.room s) := by
            rw [← List.take_add]
            congr 1
            omega
          rw [hjoin]
          congr 1
          exact propext (by omega)
        · show f.result = _
          rw [hfresult, hroom']
          congr 1
          omega

/-- **The loop fills the room**: neither what it leaves nor what it returns depends
on the size of the chunk. -/
theorem pass (b : Buffered c) (hgood : b.Good s) (hchunk : 0 < chunk)
    (hfit : buffer.length < 2 ^ w) :
    ∃ f, (∀ fuel, buffer.length < fuel → c.pass w chunk buffer fuel s = some f) ∧
      f.state = b.left s buffer ∧ f.result = some (min buffer.length (b.room s)) := by
  obtain ⟨f, hends, -⟩ := pass_ends c chunk s hfit
  obtain ⟨g, hg, hstate, hresult⟩ := b.passFrom hgood hchunk hfit
    (Nat.zero_le _) (Nat.lt_succ_self _)
  obtain rfl : f = g := Option.some.inj ((hends _ (Nat.lt_succ_self _)).symm.trans hg)
  rw [List.drop_zero] at hstate
  rw [Nat.zero_add, Nat.sub_zero] at hresult
  exact ⟨f, hends, hstate, hresult⟩

end Buffered

end SendCall
