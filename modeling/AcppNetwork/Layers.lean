import AcppNetwork.BufferedWriter
import AcppNetwork.Reentrant

/-!
# Stacks of layers

`stream<layer<..<layer<E>>>>` (`acpp-network/stream.h`) is one object: every layer, and the
endpoint at last, is the `next_` of the one before it.  Calls go down by `next_`; they come
up by `prev_`, an untyped pointer, which `get_prev` casts to the type it finds in the
tuple `chain_type` at the position one above the layer's own.  A call through a pointer to
an object of another type is not given a meaning here (`none`).

The endpoint and the user are outside: the endpoint answers `connect` and `write` as it
likes and raises `on_received` through `last()` when it likes, also while one of these runs,
and the user's callback may call the stream again.
-/
namespace AcppNetwork
namespace Layers

open Reentrant

/-- The types of a stack. -/
inductive Ty where
  | endpoint
  | layer (next : Ty)
  | stream (next : Ty)
  deriving DecidableEq

namespace Ty

/-- `it`. -/
def it : Ty → Nat
  | endpoint => 0
  | layer next | stream next => next.it + 1

/-- `chain_type`, the type at the bottom first. -/
def chainType : Ty → List Ty
  | endpoint => [endpoint]
  | layer next => next.chainType ++ [layer next]
  | stream next => next.chainType ++ [stream next]

end Ty

/-- An object of the stack, and its `prev_`. -/
structure Obj where
  ty : Ty
  prev : Option Nat
  deriving DecidableEq

/-- The objects the constructors make, from the one at `this` on: a reference says how many
`next_` an object is away from the stream.  Each sets `next_.prev_ = this`. -/
def construct : Ty → Option Nat → Nat → List Obj
  | .endpoint, prev, _ => [⟨.endpoint, prev⟩]
  | .layer next, prev, this => ⟨.layer next, prev⟩ :: construct next (some this) (this + 1)
  | .stream next, prev, this => ⟨.stream next, prev⟩ :: construct next (some this) (this + 1)

/-- `get_prev<Chain, Int>(p)`. -/
def getPrev (chain : List Ty) (int : Nat) (p : Option Nat) : Option (Ty × Nat) :=
  if h : int + 1 < chain.length then p.map fun p => (chain[int + 1], p) else none

/-- What the endpoint calls through `last()`, and what the user calls; `assign` is an
assignment to `on_received_cb_`. -/
inductive Op where
  | connect
  | write (buf : List Byte)
  | onReceived (buf : List Byte)
  | assign (set : Bool)
  deriving DecidableEq

/-- The calls of the endpoint, and of `on_received_cb_`. -/
inductive CallOut where
  | connect
  | write (buf : List Byte)
  | onReceived (buf : List Byte)
  deriving DecidableEq

/-- Where an activation stands: before the first call, or after the call out. -/
inductive Frame where
  | connect
  | write (buf : List Byte)
  | onReceived (buf : List Byte)
  | writeReturn
  | done
  deriving DecidableEq

/-- How a party that was called answers. -/
inductive Answer where
  | go
  | size (n : Nat)
  | thrown
  deriving DecidableEq

inductive Result where
  | void
  | size (n : Nat)
  deriving DecidableEq

/-- Bytes that come to the stream while no `on_received_cb_` is set. -/
inductive Note where
  | noCallback (buf : List Byte)
  deriving DecidableEq

/-- The state is whether `on_received_cb_` is set. -/
abbrev Next := Outcome Bool Frame CallOut Result Note

namespace Ty

/-- `connect`. -/
def connect (s : Bool) : Ty → Next
  | stream next => next.connect s
  | layer _ => .ret s .void []
  | endpoint => .callOut s .done .connect []

/-- `write`. -/
def write (s : Bool) (buf : List Byte) : Ty → Next
  | stream next | layer next => next.write s buf
  | endpoint => .callOut s .writeReturn (.write buf) []

/-- `last`: the endpoint in the object at `this`. -/
def last : Ty → Nat → Nat
  | stream next, this | layer next, this => next.last (this + 1)
  | endpoint, this => this

end Ty

/-- `on_received<Chain>` of an object, called as one of type `ty`; the types go up along the
chain, so its length is fuel enough. -/
def onReceived (chain : List Ty) (memory : List Obj) (s : Bool) (buf : List Byte) :
    Nat → Ty → Obj → Option Next
  | 0, _, _ => none
  | fuel + 1, ty, obj =>
      if obj.ty = ty then
        match ty with
        | .stream _ =>
            if s then some (.callOut s .done (.onReceived buf) [])
            else some (.ret s .void [.noCallback buf])
        | _ =>
            match getPrev chain ty.it obj.prev with
            | none => some (.ret s .void [])
            | some (prior, p) => memory[p]?.bind (onReceived chain memory s buf fuel prior)
      else none

/-- The code of the stack of type `stack`. -/
def resume (stack : Ty) (s : Bool) : Frame → Answer → Option Next
  | .connect, .go => some (stack.connect s)
  | .write buf, .go => some (stack.write s buf)
  | .onReceived buf, .go =>
      let memory := construct stack none 0
      memory[stack.last 0]?.bind
        (onReceived stack.chainType memory s buf stack.chainType.length .endpoint)
  | .writeReturn, .size n => some (.ret s (.size n) [])
  | .done, .go => some (.ret s .void [])
  | .writeReturn, .thrown | .done, .thrown => some (.throw s [])
  | _, _ => none

/-- Where an operation starts. -/
def enter (s : Bool) : Op → Bool × Frame
  | .connect => (s, .connect)
  | .write buf => (s, .write buf)
  | .onReceived buf => (s, .onReceived buf)
  | .assign set => (set, .done)

/-- `layer<..<layer<E>>>`. -/
def layers : Nat → Ty
  | 0 => .endpoint
  | n + 1 => .layer (layers n)

/-- `stream<layer<..<layer<E>>>>`, with `n` layers. -/
def object (n : Nat) : Object Bool Op Frame CallOut Answer Result Note :=
  ⟨enter, resume (.stream (layers n))⟩

abbrev Configuration := Config Bool Op Frame CallOut Result Note

/-! ## The stack in memory -/

theorem it_layers (n : Nat) : (layers n).it = n := by
  induction n with
  | zero => rfl
  | succ n ih => rw [layers, Ty.it, ih]

theorem length_chainType_layers (n : Nat) : (layers n).chainType.length = n + 1 := by
  induction n with
  | zero => rfl
  | succ n ih => rw [layers, Ty.chainType, List.length_append, ih, List.length_singleton]

/-- The chain has every layer at the position it knows as its own. -/
theorem chainType_layers {n j : Nat} (h : j ≤ n) : (layers n).chainType[j]? = some (layers j) := by
  induction n with
  | zero =>
    obtain rfl := Nat.le_zero.mp h
    rfl
  | succ n ih =>
    rw [layers, Ty.chainType]
    rcases Nat.lt_or_eq_of_le h with hlt | rfl
    · rw [List.getElem?_append_left (by rw [length_chainType_layers]; exact hlt)]
      exact ih (Nat.le_of_lt_succ hlt)
    · rw [List.getElem?_append_right (by rw [length_chainType_layers]),
        length_chainType_layers, Nat.sub_self]
      rfl

/-- The layer `j` above the endpoint is `n - j` below the first, and points to the object
above it. -/
theorem construct_layers {n j this : Nat} (h : j ≤ n) :
    (construct (layers n) (some this) (this + 1))[n - j]? =
      some ⟨layers j, some (this + (n - j))⟩ := by
  induction n generalizing this with
  | zero =>
    obtain rfl := Nat.le_zero.mp h
    rfl
  | succ n ih =>
    rw [layers, construct]
    rcases Nat.lt_or_eq_of_le h with hlt | rfl
    · have hle : j ≤ n := Nat.le_of_lt_succ hlt
      rw [Nat.succ_sub hle, List.getElem?_cons_succ, ih hle]
      congr 3
      omega
    · rw [Nat.sub_self, Nat.add_zero]
      rfl

theorem last_layers (n this : Nat) : (layers n).last this = this + n := by
  induction n generalizing this with
  | zero => rfl
  | succ n ih =>
    rw [layers, Ty.last, ih]
    omega

/-- The memory of a whole stack. -/
theorem construct_stream {n j : Nat} (h : j ≤ n) :
    (construct (.stream (layers n)) none 0)[n - j + 1]? = some ⟨layers j, some (n - j)⟩ := by
  rw [construct, List.getElem?_cons_succ, construct_layers h, Nat.zero_add]

/-- What `get_prev` gives the layer `j` of the stack: the layer above it, or the stream. -/
theorem getPrev_layers {n j : Nat} (h : j ≤ n) (p : Nat) :
    getPrev (Ty.stream (layers n)).chainType (layers j).it (some p) =
      some (if j = n then .stream (layers n) else layers (j + 1), p) := by
  have hlen : (layers n).chainType.length = n + 1 := length_chainType_layers n
  have hget : (Ty.stream (layers n)).chainType[j + 1]? =
      some (if j = n then .stream (layers n) else layers (j + 1)) := by
    rw [Ty.chainType]
    split
    next hj =>
      rw [hj, List.getElem?_append_right hlen.le, hlen, Nat.sub_self]
      rfl
    next hj =>
      have hlt : j + 1 ≤ n := by omega
      rw [List.getElem?_append_left (by omega)]
      exact chainType_layers hlt
  obtain ⟨hlt, hget⟩ := List.getElem?_eq_some_iff.mp hget
  rw [getPrev, it_layers, dif_pos hlt, hget]
  rfl

/-- What comes up reaches the user's callback, if it is set. -/
def reached (s : Bool) (buf : List Byte) : Next :=
  if s then .callOut s .done (.onReceived buf) [] else .ret s .void [.noCallback buf]

/-- A layer, or the endpoint, passes the bytes to the object its `prev_` points to. -/
theorem onReceived_layer (chain : List Ty) (memory : List Obj) (s : Bool) (buf : List Byte)
    (fuel j : Nat) (prev : Option Nat) :
    onReceived chain memory s buf (fuel + 1) (layers j) ⟨layers j, prev⟩ =
      match getPrev chain (layers j).it prev with
      | none => some (.ret s .void [])
      | some (prior, p) => memory[p]?.bind (onReceived chain memory s buf fuel prior) := by
  cases j with
  | zero => simp [onReceived, layers]
  | succ j => simp [onReceived, layers]

/-- **Bytes go up to the callback from every layer of the stack.** -/
theorem onReceived_layers (s : Bool) (buf : List Byte) {n j fuel : Nat} (hj : j ≤ n)
    (hfuel : n - j + 2 ≤ fuel) :
    onReceived (Ty.stream (layers n)).chainType (construct (.stream (layers n)) none 0) s buf fuel
      (layers j) ⟨layers j, some (n - j)⟩ = some (reached s buf) := by
  -- by induction on the number of layers above
  induction hd : n - j generalizing j fuel with
  | zero =>
    obtain rfl : j = n := by omega
    obtain ⟨fuel, rfl⟩ := Nat.exists_eq_add_of_le' (show 2 ≤ fuel by omega)
    rw [onReceived_layer, getPrev_layers (Nat.le_refl _), if_pos rfl]
    simp only [construct, List.getElem?_cons_zero, Option.bind_some, onReceived, if_true, reached]
    split <;> rfl
  | succ d ih =>
    obtain ⟨fuel, rfl⟩ := Nat.exists_eq_add_of_le' (show 1 ≤ fuel by omega)
    have habove : n - (j + 1) = d := by omega
    have hmemory := construct_stream (n := n) (j := j + 1) (by omega)
    rw [habove] at hmemory
    rw [onReceived_layer, getPrev_layers hj, if_neg (by omega)]
    simp only
    rw [hmemory, Option.bind_some]
    exact ih (by omega) (by omega) habove

/-! ## What each call does -/

theorem connect_layers (n : Nat) (s : Bool) : (Ty.stream (layers n)).connect s =
    if n = 0 then .callOut s .done .connect [] else .ret s .void [] := by
  cases n with
  | zero => rfl
  | succ n => rfl

theorem write_layers (n : Nat) (s : Bool) (buf : List Byte) :
    (layers n).write s buf = .callOut s .writeReturn (.write buf) [] := by
  induction n with
  | zero => rfl
  | succ n ih => rw [layers, Ty.write, ih]

theorem resume_onReceived (n : Nat) (s : Bool) (buf : List Byte) :
    resume (.stream (layers n)) s (.onReceived buf) .go = some (reached s buf) := by
  have hlast : (Ty.stream (layers n)).last 0 = n - 0 + 1 := by
    rw [Ty.last, last_layers]
    omega
  have hlen : (Ty.stream (layers n)).chainType.length = n + 2 := by
    rw [Ty.chainType, List.length_append, length_chainType_layers]
    rfl
  rw [resume, hlast, construct_stream (Nat.zero_le n), hlen, Option.bind_some]
  exact onReceived_layers s buf (Nat.zero_le n) (Nat.le_refl _)

/-- The ways through the code of a stack with `n` layers. -/
inductive Stretch (n : Nat) (s : Bool) : Frame → Answer → Next → Prop where
  | connect (hn : n = 0) : Stretch n s .connect .go (.callOut s .done .connect [])
  | connectLost (hn : n ≠ 0) : Stretch n s .connect .go (.ret s .void [])
  | write (buf) : Stretch n s (.write buf) .go (.callOut s .writeReturn (.write buf) [])
  | onReceived (buf) (hs : s = true) :
      Stretch n s (.onReceived buf) .go (.callOut s .done (.onReceived buf) [])
  | noCallback (buf) (hs : s = false) :
      Stretch n s (.onReceived buf) .go (.ret s .void [.noCallback buf])
  | writeReturn (m) : Stretch n s .writeReturn (.size m) (.ret s (.size m) [])
  | done : Stretch n s .done .go (.ret s .void [])
  | writeThrow : Stretch n s .writeReturn .thrown (.throw s [])
  | throw : Stretch n s .done .thrown (.throw s [])

theorem stretch_iff {n : Nat} {s : Bool} {f : Frame} {a : Answer} {out : Next} :
    (object n).resume s f a = some out ↔ Stretch n s f a out := by
  constructor
  · intro h
    change resume _ s f a = some out at h
    cases f with
    | connect =>
      cases a with
      | go =>
        rw [resume, connect_layers] at h
        obtain rfl := Option.some.inj h
        by_cases hn : n = 0
        · rw [if_pos hn]
          exact .connect hn
        · rw [if_neg hn]
          exact .connectLost hn
      | _ => cases h
    | write buf =>
      cases a with
      | go =>
        rw [resume, Ty.write, write_layers] at h
        cases h
        exact .write buf
      | _ => cases h
    | onReceived buf =>
      cases a with
      | go =>
        rw [resume_onReceived, reached] at h
        obtain rfl := Option.some.inj h
        cases s with
        | true => exact .onReceived buf rfl
        | false => exact .noCallback buf rfl
      | _ => cases h
    | writeReturn =>
      cases a with
      | go => cases h
      | size m => cases h; exact .writeReturn m
      | thrown => cases h; exact .writeThrow
    | done =>
      cases a with
      | go => cases h; exact .done
      | size m => cases h
      | thrown => cases h; exact .throw
  · intro h
    change resume _ s f a = some out
    cases h with
    | connect hn => rw [resume, connect_layers, if_pos hn]
    | connectLost hn => rw [resume, connect_layers, if_neg hn]
    | write buf => rw [resume, Ty.write, write_layers]
    | onReceived buf hs => rw [resume_onReceived, reached, if_pos hs]
    | noCallback buf hs => rw [resume_onReceived, reached, if_neg (by simp [hs])]
    | writeReturn | done | writeThrow | throw => rfl

/-! ## Runs -/

/-- What the user and the endpoint ask the stack to pass on. -/
def asked : Label Op CallOut Result Note → Option CallOut
  | .call .connect => some .connect
  | .call (.write buf) => some (.write buf)
  | .call (.onReceived buf) => some (.onReceived buf)
  | _ => none

/-- What gets to the other end; bytes also when there is no callback for them. -/
def arrived : Label Op CallOut Result Note → Option CallOut
  | .callOut k => some k
  | .note (.noCallback buf) => some (.onReceived buf)
  | _ => none

/-- What the running activation has still to pass on. -/
def toPass : List (Act Frame CallOut) → List CallOut
  | .code .connect :: _ => [.connect]
  | .code (.write buf) :: _ => [.write buf]
  | .code (.onReceived buf) :: _ => [.onReceived buf]
  | _ => []

/-- Every `connect` and every `write` got to the endpoint, and all bytes received to the
user's callback: each once, as it was given, and in this order. -/
def Reaches (c : Configuration) : Prop :=
  c.log.filterMap asked = c.log.filterMap arrived ++ toPass c.stack

/-- The condition: there is no layer, or `connect` is not executed. -/
def Forwarded (n : Nat) (_ : Bool) (f : Frame) (_ : List Frame) (_ : Answer) : Prop :=
  n = 0 ∨ f ≠ .connect

instance (n : Nat) (s : Bool) (f : Frame) (fs : List Frame) (a : Answer) :
    Decidable (Forwarded n s f fs a) := inferInstanceAs (Decidable (_ ∨ _))

instance (c : Configuration) : Decidable (Reaches c) := inferInstanceAs (Decidable (_ = _))

section
variable {n : Nat} {s : Bool} {es : List (Event Op Answer)} {c : Configuration}

theorem toPass_of_waiting {stack : List (Act Frame CallOut)}
    (h : ∀ f ∈ frames stack, f = .writeReturn ∨ f = .done) : toPass stack = [] := by
  cases stack with
  | nil => rfl
  | cons top rest =>
    cases top with
    | outside k => rfl
    | code f =>
      rcases h f List.mem_cons_self with rfl | rfl
      · rfl
      · rfl

theorem toPass_of_outside {stack : List (Act Frame CallOut)} (h : outsideRuns stack = true) :
    toPass stack = [] := by
  cases stack with
  | nil => rfl
  | cons top rest =>
    cases top with
    | outside k => rfl
    | code f => cases h

/-- Stretches that meet the condition are those of the stream without layers. -/
theorem resume_eq {f : Frame} {fs : List Frame} {a : Answer} (h : Forwarded n s f fs a) :
    (object n).resume s f a = (object 0).resume s f a := by
  have hsame : ∀ out, Stretch n s f a out ↔ Stretch 0 s f a out := by
    intro out
    constructor
    · intro hs
      cases hs with
      | connect hn => exact .connect rfl
      | connectLost hn => exact absurd (h.resolve_left hn) (by simp)
      | write | onReceived | noCallback | writeReturn | done | writeThrow | throw =>
        constructor <;> assumption
    · intro hs
      cases hs with
      | connect hn => exact .connect (h.resolve_right (by simp))
      | connectLost hn => exact absurd rfl hn
      | write | onReceived | noCallback | writeReturn | done | writeThrow | throw =>
        constructor <;> assumption
  refine Option.ext fun out => ?_
  rw [stretch_iff, stretch_iff]
  exact hsame out

/-- A step keeps it exactly if it meets the condition. -/
theorem reaches_iff {e : Event Op Answer} {c c' : Configuration}
    (hwait : Waiting (fun f => f = .writeReturn ∨ f = .done) c.stack) (hc : Reaches c)
    (hstep : Step (object n) c e c') : Reaches c' ↔ Before (Forwarded n) c e := by
  unfold Reaches at hc ⊢
  cases hstep with
  | @call s stack log o hout =>
    refine iff_of_true ?_ trivial
    rw [toPass_of_outside hout, List.append_nil] at hc
    cases o with
    | connect | write | onReceived | assign =>
      simp [List.filterMap_append, List.filterMap_cons, hc, asked, arrived, toPass, object, enter]
  | goto h => cases stretch_iff.mp h
  | @callOut s f rest log a s' g k ns h =>
    refine iff_of_true ?_ ?_
    · cases stretch_iff.mp h with
      | connect | write | onReceived =>
        simpa [List.filterMap_append, List.filterMap_cons, asked, arrived, toPass] using hc
    · cases stretch_iff.mp h with
      | connect hn => exact .inl hn
      | write | onReceived => exact .inr (by simp)
  | @ret s f rest log a s' r ns h =>
    have hrest : toPass rest = [] := toPass_of_waiting hwait.1
    cases stretch_iff.mp h with
    | connectLost hn =>
      refine iff_of_false ?_ (fun hp => hn (hp.resolve_right (by simp)))
      change log.filterMap asked = log.filterMap arrived ++ [.connect] at hc
      simp [List.filterMap_append, List.filterMap_cons, hc, hrest, asked, arrived]
    | noCallback buf =>
      refine iff_of_true ?_ (.inr (by simp))
      change log.filterMap asked = log.filterMap arrived ++ [.onReceived buf] at hc
      simp [List.filterMap_append, List.filterMap_cons, hc, hrest, asked, arrived]
    | writeReturn | done =>
      refine iff_of_true ?_ (.inr (by simp))
      change log.filterMap asked = log.filterMap arrived ++ [] at hc
      simp [List.filterMap_append, List.filterMap_cons, hc, hrest, asked, arrived]
  | @unwind s f rest log a s' ns depth h hout =>
    have hrest : toPass (rest.drop depth) = [] := toPass_of_outside hout
    cases stretch_iff.mp h with
    | writeThrow | throw =>
      refine iff_of_true ?_ (.inr (by simp))
      change log.filterMap asked = log.filterMap arrived ++ [] at hc
      simp [List.filterMap_append, List.filterMap_cons, hc, hrest, asked, arrived]
  | @back s k rest log =>
    have hrest : toPass rest = [] := toPass_of_waiting fun f hf => hwait.2 rfl f hf
    refine iff_of_true ?_ trivial
    rw [hrest]
    exact hc

end

/-- A client's write, and what the server sends back. -/
def echo : List (Event Op Answer) :=
  [.call (.assign true), .code .go, .call (.write [1, 2]), .code .go, .back, .code (.size 2),
    .call (.onReceived [3]), .code .go, .back, .code .go]

end Layers
end AcppNetwork
