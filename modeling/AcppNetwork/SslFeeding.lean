import AcppNetwork.SslSteps

/-!
# The feeding loop of `on_received`

A chunk that a connected stream receives is given to `BIO_write` in turns, as far as there
is room in the ingoing side of the pair; between two turns the engine reads from the pair.
`tot_n` counts what was given, but the -1 of a `BIO_write` that finds the pair full is
added to it like any other result: it goes back by one, and if the next `BIO_write` finds
room the byte there is fed again.  `feeds_prefix_iff` says that this, and an `int` that is
too small for the length, is all that goes wrong.

Between two turns anything may happen to the stream, since the layers that are called
out may call it again; the activation keeps its chunk and its count (`feed_keeps`).  So
the loop is followed over the streams that its turns find, one after the other.
-/
namespace AcppNetwork
namespace Ssl

open Reentrant

/-- The activation of a loop that was left to read or to write goes on with the same chunk
and the same count. -/
theorem feed_keeps {s : Stream} {f : Frame} {ans : Answer} {out : Next} {buf : List Byte}
    {totN : Int} (h : Stretch s f ans out)
    (hf : f = .feedRead buf totN ∨ f = .feedWrite buf totN) :
    ∀ g ∈ out.frames, g = .feedRead buf totN ∨ g = .feedWrite buf totN ∨ g = .feed buf totN := by
  intro g hg
  rcases hf with rfl | rfl
  · cases h with
    | write hdrains => exact hdrains.elim
    | read => exact .inl (List.mem_singleton.mp hg)
    | readEnd hf => rcases hf with hf | hf <;> cases hf
    | feedReadEnd => exact .inr (.inl (List.mem_singleton.mp hg))
  · cases h with
    | write => exact .inr (.inl (List.mem_singleton.mp hg))
    | feedDrained => exact .inr (.inr (List.mem_singleton.mp hg))
    | read hreads => exact hreads.elim
    | readEnd hf => rcases hf with hf | hf <;> cases hf

/-- The loop between two turns: `tot_n`, the positions of the bytes `BIO_write` took so
far, and the bytes themselves. -/
structure Feeding where
  totN : Int
  fed : List Nat
  taken : List Byte
  deriving DecidableEq

namespace Feeding

/-- Before the loop. -/
def start : Feeding := ⟨0, [], []⟩

/-- `tot_n < len`. -/
def goesOn (x : Feeding) (buf : List Byte) : Bool := toSizeT x.totN < buf.length

/-- `len - tot_n`, as `BIO_write` gets it. -/
def num (x : Feeding) (buf : List Byte) : Int := toInt32 (buf.length - x.totN)

/-- A turn that finds the stream `s`, or none if the test fails. -/
def turn (buf : List Byte) (s : Stream) (x : Feeding) : Option Feeding :=
  match s.feed buf x.totN with
  | .goto _ (.feedRead _ totN) _ =>
      let n := (s.feedRest buf x.totN).2.toNat
      some ⟨totN, x.fed ++ List.range' x.totN.toNat n,
        x.taken ++ (buf.drop x.totN.toNat).take n⟩
  | _ => none

/-- The loop after `k` turns, which found the streams `found 0`, `found 1`, and so on. -/
def after (buf : List Byte) (found : Nat → Stream) : Nat → Option Feeding
  | 0 => some start
  | k + 1 => (after buf found k).bind (turn buf (found k))

end Feeding

open Feeding

/-- The loop ends, reads nothing outside the chunk, and what it feeds the engine are the
first bytes of the chunk, none of them twice. -/
structure FeedsPrefix (buf : List Byte) (found : Nat → Stream) : Prop where
  ends : ∃ k, after buf found k = none
  inside : ∀ k x, after buf found k = some x → x.goesOn buf = true →
    0 ≤ x.totN ∧ x.totN + max (x.num buf) 0 ≤ buf.length
  once : ∀ k x, after buf found k = some x → x.fed = List.range x.fed.length
  first : ∀ k x, after buf found k = some x → x.taken = buf.take x.fed.length ∧
    x.fed.length ≤ buf.length

/-- The condition: every `BIO_write` of the loop gets a positive number, and once one has
found the pair full none finds room in it. -/
def KeepsUp (buf : List Byte) (found : Nat → Stream) : Prop :=
  ∀ k x, after buf found k = some x → x.goesOn buf = true →
    0 < x.num buf ∧ ((found k).inFree ≠ 0 → ∀ j < k, (found j).inFree ≠ 0)

section
variable {buf : List Byte} {found : Nat → Stream} {s : Stream} {x : Feeding} {k : Nat}

/-! ## One turn -/

/-- What a turn counts as taken is what gets into the pair. -/
theorem feedRest_inbound (s : Stream) (buf : List Byte) (totN : Int) :
    (s.feedRest buf totN).1.inbound =
      s.inbound ++ (buf.drop totN.toNat).take (s.feedRest buf totN).2.toNat := by
  unfold Stream.feedRest Stream.bioWrite
  split
  · simp
  · split
    · simp
    · dsimp only
      rw [Int.toNat_natCast]

theorem turn_stop (h : x.goesOn buf = false) : x.turn buf s = none := by
  have htest : ¬ toSizeT x.totN < buf.length := of_decide_eq_false h
  rw [turn, Stream.feed, if_neg htest]

theorem turn_goesOn (h : x.goesOn buf = true) : x.turn buf s =
    some ⟨toInt32 (x.totN + (s.feedRest buf x.totN).2),
      x.fed ++ List.range' x.totN.toNat (s.feedRest buf x.totN).2.toNat,
      x.taken ++ (buf.drop x.totN.toNat).take (s.feedRest buf x.totN).2.toNat⟩ := by
  have htest : toSizeT x.totN < buf.length := of_decide_eq_true h
  rw [turn, Stream.feed, if_pos htest]

/-- The count is in the range of the chunk, as far as an `int` goes. -/
def InRange (buf : List Byte) (x : Feeding) : Prop :=
  -1 ≤ x.totN ∧ (x.totN ≤ 0 ∨ x.totN ≤ toInt32 buf.length)

theorem goesOn_iff (hlen : buf.length < 2 ^ 64) (hx : InRange buf x) :
    x.goesOn buf = true ↔ 0 ≤ x.totN ∧ x.totN < buf.length := by
  obtain ⟨hlow, hhigh⟩ := hx
  have hint := toInt32_lt buf.length
  rw [goesOn, decide_eq_true_iff]
  by_cases hneg : x.totN < 0
  · -- `(size_t) -1`
    have hone : x.totN = -1 := by omega
    have hsize : toSizeT (-1) = 2 ^ 64 - 1 := by decide
    rw [hone, hsize]
    omega
  · rw [toSizeT_of_lt (by omega) (by omega)]
    omega

/-- What is offered to `BIO_write` ends where the length as an `int` does. -/
theorem num_eq (hx : InRange buf x) (h0 : 0 ≤ x.totN) :
    x.num buf = toInt32 buf.length - x.totN := by
  refine toInt32_sub h0 ?_
  rcases hx.2 with hle | hle
  · exact .inl (by omega)
  · exact .inr hle

/-- No number to write: nothing changes. -/
theorem turn_idle (hlen : buf.length < 2 ^ 64) (hx : InRange buf x) (h : x.goesOn buf = true)
    (hnum : x.num buf ≤ 0) : x.turn buf s = some x := by
  obtain ⟨h0, -⟩ := (goesOn_iff hlen hx).mp h
  have hint := toInt32_lt buf.length
  have hwrite : (s.feedRest buf x.totN).2 = 0 := by
    rw [num] at hnum
    rw [Stream.feedRest, Stream.bioWrite, if_pos hnum]
  have hsame : toInt32 x.totN = x.totN := by
    refine toInt32_of_lt h0 ?_
    rcases hx.2 with hle | hle <;> omega
  rw [turn_goesOn h, hwrite, Int.add_zero, hsame]
  simp

/-- The pair is full: the count goes back. -/
theorem turn_full (hlen : buf.length < 2 ^ 64) (hx : InRange buf x) (h : x.goesOn buf = true)
    (hnum : 0 < x.num buf) (hfull : s.inFree = 0) :
    x.turn buf s = some { x with totN := x.totN - 1 } := by
  obtain ⟨h0, -⟩ := (goesOn_iff hlen hx).mp h
  have hint := toInt32_lt buf.length
  have hwrite : (s.feedRest buf x.totN).2 = -1 := by
    rw [num] at hnum
    rw [Stream.feedRest, Stream.bioWrite, if_neg (by omega), if_pos hfull]
  have hback : toInt32 (x.totN + -1) = x.totN - 1 := by
    by_cases hzero : x.totN = 0
    · rw [hzero]
      decide
    · rw [← Int.sub_eq_add_neg]
      refine toInt32_of_lt (by omega) ?_
      rcases hx.2 with hle | hle <;> omega
  rw [turn_goesOn h, hwrite, hback]
  simp

/-- There is room: `BIO_write` takes as much as there is room for. -/
theorem turn_room (hlen : buf.length < 2 ^ 64) (hx : InRange buf x) (h : x.goesOn buf = true)
    (hnum : 0 < x.num buf) (hroom : s.inFree ≠ 0) :
    ∃ n : Nat, 0 < n ∧ x.totN + n ≤ toInt32 buf.length ∧ x.turn buf s =
      some ⟨x.totN + n, x.fed ++ List.range' x.totN.toNat n,
        x.taken ++ (buf.drop x.totN.toNat).take n⟩ := by
  obtain ⟨h0, -⟩ := (goesOn_iff hlen hx).mp h
  have hint := toInt32_lt buf.length
  have heq := num_eq hx h0
  have hwrite : (s.feedRest buf x.totN).2 = (min (x.num buf).toNat s.inFree : Nat) := by
    rw [num] at hnum ⊢
    rw [Stream.feedRest, Stream.bioWrite, if_neg (by omega), if_neg hroom]
  have hsum : toInt32 (x.totN + (min (x.num buf).toNat s.inFree : Nat)) =
      x.totN + (min (x.num buf).toNat s.inFree : Nat) := toInt32_of_lt (by omega) (by omega)
  refine ⟨min (x.num buf).toNat s.inFree, by omega, by omega, ?_⟩
  rw [turn_goesOn h, hwrite, hsum, Int.toNat_natCast]

/-! ## All turns -/

theorem after_succ {x' : Feeding} : after buf found (k + 1) = some x' ↔
    ∃ x, after buf found k = some x ∧ x.turn buf (found k) = some x' := by
  rw [after, Option.bind_eq_some_iff]

/-- A turn was taken, so the test was passed. -/
theorem goesOn_of_turn {x' : Feeding} (h : x.turn buf s = some x') : x.goesOn buf = true := by
  by_contra hnot
  rw [turn_stop (Bool.not_eq_true _ ▸ hnot)] at h
  cases h

theorem InRange.turn {x' : Feeding} (hlen : buf.length < 2 ^ 64) (hx : InRange buf x)
    (h : x.turn buf s = some x') : InRange buf x' := by
  have hgo := goesOn_of_turn h
  obtain ⟨h0, -⟩ := (goesOn_iff hlen hx).mp hgo
  by_cases hnum : x.num buf ≤ 0
  · rw [turn_idle hlen hx hgo hnum] at h
    exact Option.some.inj h ▸ hx
  · by_cases hfull : s.inFree = 0
    · rw [turn_full hlen hx hgo (by omega) hfull] at h
      obtain rfl := Option.some.inj h
      have hhigh := hx.2
      constructor
      · show -1 ≤ x.totN - 1
        omega
      · show x.totN - 1 ≤ 0 ∨ x.totN - 1 ≤ _
        omega
    · obtain ⟨n, -, hle, hturn⟩ := turn_room hlen hx hgo (by omega) hfull
      rw [hturn] at h
      obtain rfl := Option.some.inj h
      constructor
      · show -1 ≤ x.totN + n
        omega
      · exact .inr hle

theorem inRange_after (hlen : buf.length < 2 ^ 64) (h : after buf found k = some x) :
    InRange buf x := by
  induction k generalizing x with
  | zero =>
    obtain rfl := Option.some.inj h
    exact ⟨by decide, .inl (Int.le_refl _)⟩
  | succ k ih =>
    obtain ⟨y, hy, hturn⟩ := after_succ.mp h
    exact (ih hy).turn hlen hturn

theorem after_of_le {j : Nat} (h : after buf found k = some x) (hj : j ≤ k) :
    ∃ y, after buf found j = some y := by
  induction hj generalizing x with
  | refl => exact ⟨x, h⟩
  | step _ ih =>
    obtain ⟨y, hy, -⟩ := after_succ.mp h
    exact ih hy

/-- A loop that has nothing to write turns for ever. -/
theorem after_idle (hlen : buf.length < 2 ^ 64) (h : after buf found k = some x)
    (hgo : x.goesOn buf = true) (hnum : x.num buf ≤ 0) (d : Nat) :
    after buf found (k + d) = some x := by
  induction d with
  | zero => exact h
  | succ d ih =>
    exact after_succ.mpr ⟨x, ih, turn_idle hlen (inRange_after hlen h) hgo hnum⟩

/-- A loop that ends always has something to write. -/
theorem num_pos_of_ends (hlen : buf.length < 2 ^ 64) (hends : ∃ k, after buf found k = none)
    (h : after buf found k = some x) (hgo : x.goesOn buf = true) : 0 < x.num buf := by
  obtain ⟨m, hm⟩ := hends
  by_contra hnum
  have hidle := after_idle hlen h hgo (Int.not_lt.mp hnum) m
  obtain ⟨y, hy⟩ := after_of_le hidle (Nat.le_add_left m k)
  rw [hm] at hy
  cases hy

/-- Once a `BIO_write` has found the pair full, `tot_n` is behind what was fed, and stays
behind. -/
theorem behind_of_full (hlen : buf.length < 2 ^ 64) (hends : ∃ k, after buf found k = none)
    (h : after buf found k = some x) :
    x.totN ≤ x.fed.length ∧ ((∃ j < k, (found j).inFree = 0) → x.totN < x.fed.length) := by
  induction k generalizing x with
  | zero =>
    obtain rfl := Option.some.inj h
    exact ⟨Int.le_refl _, fun ⟨j, hj, _⟩ => absurd hj (Nat.not_lt_zero j)⟩
  | succ k ih =>
    obtain ⟨y, hy, hturn⟩ := after_succ.mp h
    obtain ⟨hle, hbehind⟩ := ih hy
    have hgo := goesOn_of_turn hturn
    have hx := inRange_after hlen hy
    have hnum := num_pos_of_ends hlen hends hy hgo
    by_cases hfull : (found k).inFree = 0
    · rw [turn_full hlen hx hgo hnum hfull] at hturn
      obtain rfl := Option.some.inj hturn
      dsimp only
      exact ⟨by omega, fun _ => by omega⟩
    · obtain ⟨n, -, -, heq⟩ := turn_room hlen hx hgo hnum hfull
      rw [heq] at hturn
      obtain rfl := Option.some.inj hturn
      simp only [List.length_append, List.length_range']
      refine ⟨by omega, fun ⟨j, hj, hjfull⟩ => ?_⟩
      have hjk : j < k := by
        rcases Nat.lt_succ_iff_lt_or_eq.mp hj with hlt | rfl
        · exact hlt
        · exact absurd hjfull hfull
      have hlt := hbehind ⟨j, hjk, hjfull⟩
      omega

/-- Bytes that are fed from a position behind the end are fed twice. -/
theorem not_once {fed : List Nat} {totN n : Nat} (hn : 0 < n) (hbehind : totN < fed.length)
    (h : fed ++ List.range' totN n = List.range (fed ++ List.range' totN n).length) : False := by
  have hget := congrArg (·[fed.length]?) h
  simp only [List.length_append, List.length_range'] at hget
  rw [List.getElem?_append_right (Nat.le_refl _), Nat.sub_self, List.getElem?_range' hn,
    List.getElem?_range (by omega)] at hget
  simp only [Nat.mul_zero, Nat.add_zero, Option.some.injEq] at hget
  omega

/-! ## As long as it keeps up -/

/-- What a loop that meets the condition has done after `k` turns: it has fed the first
bytes, and the count says how many, until the pair is full; from then on the count goes
back to -1. -/
structure Fed (buf : List Byte) (found : Nat → Stream) (k : Nat) (x : Feeding) : Prop where
  once : x.fed = List.range x.fed.length
  taken : x.taken = buf.take x.fed.length
  le : x.fed.length ≤ buf.length
  count : ((∀ j < k, (found j).inFree ≠ 0) ∧ x.totN = x.fed.length ∧ k ≤ x.fed.length) ∨
    ((∃ j < k, (found j).inFree = 0) ∧ k + x.totN ≤ 2 * x.fed.length)

theorem Fed.full (hf : Fed buf found k x) (hfull : (found k).inFree = 0) :
    Fed buf found (k + 1) { x with totN := x.totN - 1 } := by
  refine ⟨hf.once, hf.taken, hf.le, .inr ⟨⟨k, Nat.lt_succ_self k, hfull⟩, ?_⟩⟩
  dsimp only
  rcases hf.count with ⟨-, heq, hle⟩ | ⟨-, hle⟩
  · push_cast
    omega
  · push_cast
    omega

theorem Fed.room {n : Nat} (hf : Fed buf found k x) (hall : ∀ j < k, (found j).inFree ≠ 0)
    (hroom : (found k).inFree ≠ 0) (hn : 0 < n) (hle : x.totN + n ≤ toInt32 buf.length) :
    Fed buf found (k + 1) ⟨x.totN + n, x.fed ++ List.range' x.totN.toNat n,
      x.taken ++ (buf.drop x.totN.toNat).take n⟩ := by
  -- nothing was full so far, so the count says what was fed
  obtain ⟨heq, hk⟩ : x.totN = x.fed.length ∧ k ≤ x.fed.length := by
    rcases hf.count with ⟨-, heq, hle⟩ | ⟨⟨j, hj, hfull⟩, -⟩
    · exact ⟨heq, hle⟩
    · exact absurd hfull (hall j hj)
  have hnat : x.totN.toNat = x.fed.length := by omega
  have hint := toInt32_le (n := buf.length) (Int.natCast_nonneg _)
  have hlength : (x.fed ++ List.range' x.totN.toNat n).length = x.fed.length + n := by
    rw [List.length_append, List.length_range']
  constructor
  · dsimp only
    rw [hlength, hnat, List.range_add, ← hf.once, List.range'_eq_map_range]
  · dsimp only
    rw [hlength, hnat, hf.taken, List.take_add]
  · dsimp only
    rw [hlength]
    omega
  · refine .inl ⟨fun j hj => ?_, ?_, ?_⟩
    · rcases Nat.lt_succ_iff_lt_or_eq.mp hj with hlt | rfl
      · exact hall j hlt
      · exact hroom
    · dsimp only
      rw [hlength]
      omega
    · dsimp only
      rw [hlength]
      omega

theorem fed_after (hlen : buf.length < 2 ^ 64) (hkeep : KeepsUp buf found)
    (h : after buf found k = some x) : Fed buf found k x := by
  induction k generalizing x with
  | zero =>
    obtain rfl := Option.some.inj h
    exact ⟨rfl, rfl, Nat.zero_le _,
      .inl ⟨fun j hj => absurd hj (Nat.not_lt_zero j), rfl, Nat.le_refl _⟩⟩
  | succ k ih =>
    obtain ⟨y, hy, hturn⟩ := after_succ.mp h
    have hgo := goesOn_of_turn hturn
    have hx := inRange_after hlen hy
    obtain ⟨hnum, hroom⟩ := hkeep k y hy hgo
    by_cases hfull : (found k).inFree = 0
    · rw [turn_full hlen hx hgo hnum hfull] at hturn
      obtain rfl := Option.some.inj hturn
      exact (ih hy).full hfull
    · obtain ⟨n, hn, hle, heq⟩ := turn_room hlen hx hgo hnum hfull
      rw [heq] at hturn
      obtain rfl := Option.some.inj hturn
      exact (ih hy).room (hroom hfull) hfull hn hle

/-- It takes at most two turns a byte, and one more. -/
theorem ends_of_keepsUp (hlen : buf.length < 2 ^ 64) (hkeep : KeepsUp buf found) :
    after buf found (2 * buf.length + 2) = none := by
  cases h : after buf found (2 * buf.length + 2) with
  | none => rfl
  | some x =>
    obtain ⟨-, -, hle, hcount⟩ := fed_after hlen hkeep h
    have hlow := (inRange_after hlen h).1
    rcases hcount with ⟨-, -, hturns⟩ | ⟨-, hturns⟩
    · omega
    · push_cast at hturns
      omega

/-- **When the feeding loop is right.**  Whatever streams its turns find, it ends, stays
inside the chunk and feeds its first bytes, each once, exactly if no `BIO_write` finds room
after one that found the pair full, and none is given a number that is not positive. -/
theorem feeds_prefix_iff (buf : List Byte) (hlen : buf.length < 2 ^ 64) (found : Nat → Stream) :
    FeedsPrefix buf found ↔ KeepsUp buf found := by
  constructor
  · intro hfeeds k x h hgo
    have hnum := num_pos_of_ends hlen hfeeds.ends h hgo
    refine ⟨hnum, fun hroom j hj hfull => ?_⟩
    have hx := inRange_after hlen h
    obtain ⟨h0, -⟩ := (goesOn_iff hlen hx).mp hgo
    have hbehind := (behind_of_full hlen hfeeds.ends h).2 ⟨j, hj, hfull⟩
    obtain ⟨n, hn, -, heq⟩ := turn_room hlen hx hgo hnum hroom
    exact not_once hn (by omega) (hfeeds.once _ _ (after_succ.mpr ⟨x, h, heq⟩))
  · intro hkeep
    refine ⟨⟨_, ends_of_keepsUp hlen hkeep⟩, fun k x h hgo => ?_,
      fun k x h => (fed_after hlen hkeep h).once,
      fun k x h => ⟨(fed_after hlen hkeep h).taken, (fed_after hlen hkeep h).le⟩⟩
    have hx := inRange_after hlen h
    obtain ⟨h0, hlt⟩ := (goesOn_iff hlen hx).mp hgo
    have hint := toInt32_le (n := buf.length) (Int.natCast_nonneg _)
    rw [num_eq hx h0]
    omega

/-- A chunk whose length is an `int` always leaves something to write. -/
theorem keepsUp_iff_of_int (hlen : buf.length < 2147483648) :
    KeepsUp buf found ↔ ∀ k x, after buf found k = some x → x.goesOn buf = true →
      (found k).inFree ≠ 0 → ∀ j < k, (found j).inFree ≠ 0 := by
  have hint : toInt32 buf.length = buf.length := toInt32_of_lt (Int.natCast_nonneg _) (by omega)
  constructor
  · exact fun h k x hk hgo => (h k x hk hgo).2
  · intro h k x hk hgo
    have hx := inRange_after (show buf.length < 2 ^ 64 by omega) hk
    obtain ⟨h0, hlt⟩ := (goesOn_iff (by omega) hx).mp hgo
    refine ⟨?_, h k x hk hgo⟩
    rw [num_eq hx h0, hint]
    omega

end

/-- A stream whose pair has a side of 5120 bytes, with as many bytes in it as given. -/
def withInbound (inbound : List Byte) : Stream :=
  { Stream.ofContext .client "" with
    status := .connected
    established := true
    inbound := inbound }

theorem inFree_withInbound (inbound : List Byte) :
    (withInbound inbound).inFree = 5120 - inbound.length := rfl

/-- A chunk of 5122 bytes, two more than the pair holds. -/
def longChunk : List Byte := List.replicate 5122 0

theorem length_longChunk : longChunk.length = 5122 := List.length_replicate

/-- The engine reads all there is before every turn, so the chunk is fed in two. -/
theorem feeds_prefix_emptied : FeedsPrefix longChunk fun _ => withInbound [] := by
  have hlong := length_longChunk
  exact (feeds_prefix_iff longChunk (by omega) _).mpr
    ((keepsUp_iff_of_int (by omega)).mpr fun _ _ _ _ _ _ _ => by decide)

/-- What its turns find: an empty pair, the same pair full, since `SSL_read` stopped with
want-write, and the pair after the engine has read all of it. -/
def stalled : Nat → Stream
  | 1 => withInbound (longChunk.take 5120)
  | _ => withInbound []

/-- The third `BIO_write` feeds the byte at 5119 once more. -/
theorem byte_fed_twice : (∃ x, after longChunk stalled 3 = some x ∧
      x.fed = List.range' 0 5120 ++ List.range' 5119 3) ∧
    ¬ FeedsPrefix longChunk stalled := by
  have hlong := length_longChunk
  have htest : ∀ {totN : Int} {fed taken}, 0 ≤ totN → totN < 5122 →
      (⟨totN, fed, taken⟩ : Feeding).goesOn longChunk = true := by
    intro totN fed taken h0 hlt
    rw [goesOn, hlong, toSizeT_of_lt h0 (by omega), decide_eq_true_iff]
    omega
  have hempty : (withInbound []).inFree = 5120 := by decide
  have hfull : (withInbound (longChunk.take 5120)).inFree = 0 := by
    rw [inFree_withInbound, List.length_take, hlong]
    decide
  have h1 : after longChunk stalled 1 = some ⟨5120, List.range' 0 5120, longChunk.take 5120⟩ := by
    have hwrite : ((withInbound []).feedRest longChunk 0).2 = 5120 := by
      have hnum : toInt32 (longChunk.length - 0) = 5122 := by rw [hlong]; decide
      rw [Stream.feedRest, Stream.bioWrite, hnum, if_neg (by decide), hempty]
      decide
    refine after_succ.mpr ⟨start, rfl, ?_⟩
    show start.turn longChunk (withInbound []) = _
    rw [turn_goesOn (htest (by decide) (by decide))]
    simp only [start, hwrite]
    rfl
  have h2 : after longChunk stalled 2 = some ⟨5119, List.range' 0 5120, longChunk.take 5120⟩ := by
    have hwrite : ((withInbound (longChunk.take 5120)).feedRest longChunk 5120).2 = -1 := by
      have hnum : toInt32 (longChunk.length - 5120) = 2 := by rw [hlong]; decide
      rw [Stream.feedRest, Stream.bioWrite, hnum, if_neg (by decide), if_pos hfull]
    refine after_succ.mpr ⟨_, h1, ?_⟩
    show Feeding.turn longChunk (withInbound (longChunk.take 5120)) _ = _
    have hback : toInt32 (5120 + -1) = 5119 := by decide
    have hnone : (-1 : Int).toNat = 0 := by decide
    rw [turn_goesOn (htest (by decide) (by decide))]
    simp only [hwrite, hback, hnone, List.range'_zero, List.append_nil, List.take_zero]
  have h3 : ∃ x, after longChunk stalled 3 = some x ∧
      x.fed = List.range' 0 5120 ++ List.range' 5119 3 := by
    have hwrite : ((withInbound []).feedRest longChunk 5119).2 = 3 := by
      have hnum : toInt32 (longChunk.length - 5119) = 3 := by rw [hlong]; decide
      rw [Stream.feedRest, Stream.bioWrite, hnum, if_neg (by decide), hempty]
      decide
    refine ⟨_, after_succ.mpr ⟨_, h2, turn_goesOn (htest (by decide) (by decide))⟩, ?_⟩
    show List.range' 0 5120 ++ List.range' 5119 ((withInbound []).feedRest longChunk 5119).2.toNat
      = _
    rw [hwrite]
    rfl
  refine ⟨h3, fun h => ?_⟩
  obtain ⟨x, hx, hfed⟩ := h3
  have honce := h.once 3 x hx
  rw [hfed] at honce
  exact not_once (by decide) (by rw [List.length_range']; decide) honce

end Ssl
end AcppNetwork
