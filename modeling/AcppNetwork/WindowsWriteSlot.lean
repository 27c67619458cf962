import AcppNetwork.WindowsSteps

/-!
# The write slot of a Windows socket

`write` does nothing while `write_op.in_use` is set.  It is set before `WSASend` is
called, and the loop resets it when it dequeues the completion of the operation, if that
succeeded.

So there is one `WSASend` of a socket at a time, and the flag is set while there is one
(`World.Guarded`).  It is set no longer than that exactly if no `WSASend` fails at once
and none of their completions is a failure (`released_iff`); otherwise it stays set, and
every later write returns 0.
-/
namespace AcppNetwork
namespace Windows

open Reentrant

/-- `in_use` is set only while a `WSASend` is outstanding or has its completion in the
queue. -/
def World.Released (w : World) : Prop :=
  ∀ h p, w.pimpls h = some p → p.writeOp.inUse = true → ⟨h, .write⟩ ∈ w.ops

/-! ## The condition -/

/-- The completion of a `WSASend` is a success, and its key is that of a socket; unless
the pimpl is gone, and its flag with it. -/
def Packet.Releases (w : World) : Packet → Prop
  | .io key op (.success _) =>
      op.type = .write → w.pimpls op.pimpl ≠ none → w.pimpls key ≠ none
  | .io _ op (.failure _) => op.type = .write → w.pimpls op.pimpl = none
  | .exec _ => True

instance (w : World) (packet : Packet) : Decidable (packet.Releases w) := by
  unfold Packet.Releases
  split <;> infer_instance

/-- A `WSASend` that completes was on a handle associated with the port. -/
def Elsewhere.Queues (w : World) (e : Elsewhere) : Prop :=
  ∀ i ∈ e.index, ∀ pending ∈ w.outstanding[i]?,
    pending.op.type = .write → w.pimpls pending.op.pimpl ≠ none → pending.key ≠ none

instance (w : World) (e : Elsewhere) : Decidable (e.Queues w) := by
  unfold Elsewhere.Queues
  infer_instance

/-- `WSASend` does not fail at once, and what becomes of it is a success. -/
def World.Releases (w : World) (f : Frame) (a : Answer) : Prop :=
  match f, a with
  | _, .elsewhere e | .api (.elsewhere e), _ => e.Queues w
  | .api (.write o _), .start refused =>
      ∀ x ∈ w.owned o, x.2.writeOp.inUse = false → w.handles x.2.fd ≠ none ∧ refused = none
  | .loop _, .start _ => ∀ packet ∈ w.queue.head?, packet.Releases w
  | _, _ => True

instance (w : World) (f : Frame) (a : Answer) : Decidable (w.Releases f a) := by
  unfold World.Releases
  split <;> infer_instance

namespace World
variable {w w' w'' : World} {h x : Nat} {p q : SocketBasePimpl}

/-! ## One write at a time -/

/-- How many `WSASend` of the pimpl at `h` there are. -/
def writes (w : World) (h : Nat) : Nat := w.ops.count ⟨h, .write⟩

/-- There is at most one of each pimpl, and while there is, the flag is set. -/
structure Guarded (w : World) : Prop where
  one : ∀ h, w.writes h ≤ 1
  inUse : ∀ h p, w.pimpls h = some p → w.writes h ≠ 0 → p.writeOp.inUse = true
  beyond : ∀ h, w.fresh ≤ h → w.pimpls h = none ∧ w.writes h = 0

/-- The flags are as they were, and those of new pimpls are not set. -/
def SameFlags (w w' : World) : Prop :=
  ∀ h p', w'.pimpls h = some p' →
    (∃ p, w.pimpls h = some p ∧ p'.writeOp.inUse = p.writeOp.inUse) ∨
      w.fresh ≤ h ∧ h < w'.fresh ∧ p'.writeOp.inUse = false

/-- What becomes of the write slots; `good` is the condition.  Nothing; a `WSASend`
begins; it fails at once; it is over, and the flag is reset or not. -/
inductive SlotDeed (w w' : World) (good : Prop) : Prop where
  | nothing (hwrites : w'.writes = w.writes) (hflags : SameFlags w w')
      (hfresh : w.fresh ≤ w'.fresh) (hgood : good)
  | begins (h : Nat) (p q : SocketBasePimpl) (hp : w.pimpls h = some p)
      (hinUse : p.writeOp.inUse = false) (hpimpls : w'.pimpls = Function.update w.pimpls h (some q))
      (hset : q.writeOp.inUse = true) (hfresh : w'.fresh = w.fresh)
      (hwrites : w'.writes = Function.update w.writes h (w.writes h + 1)) (hgood : good)
  | refused (h : Nat) (p q : SocketBasePimpl) (hp : w.pimpls h = some p)
      (hinUse : p.writeOp.inUse = false) (hpimpls : w'.pimpls = Function.update w.pimpls h (some q))
      (hset : q.writeOp.inUse = true) (hfresh : w'.fresh = w.fresh)
      (hwrites : w'.writes = w.writes) (hgood : ¬ good)
  | releases (h : Nat) (q : SocketBasePimpl) (hp : w.pimpls h ≠ none)
      (hpimpls : w'.pimpls = Function.update w.pimpls h (some q))
      (hreset : q.writeOp.inUse = false) (hfresh : w'.fresh = w.fresh)
      (hwrites : w.writes = Function.update w'.writes h (w'.writes h + 1)) (hgood : good)
  | drops (h : Nat) (hflags : SameFlags w w')
      (halive : ∀ p, w.pimpls h = some p → ∃ p', w'.pimpls h = some p' ∧
        p'.writeOp.inUse = p.writeOp.inUse)
      (hfresh : w'.fresh = w.fresh)
      (hwrites : w.writes = Function.update w'.writes h (w'.writes h + 1))
      (hgood : good ↔ w.pimpls h = none)

theorem Guarded.lt_fresh (hw : w.Guarded) (hp : w.pimpls h = some p) : h < w.fresh := by
  by_contra hge
  rw [(hw.beyond h (Nat.not_lt.mp hge)).1] at hp
  cases hp

theorem SameFlags.lt_fresh (hw : w.Guarded) (h : SameFlags w w') (hfresh : w.fresh ≤ w'.fresh)
    (hp : w'.pimpls x = some p) : x < w'.fresh := by
  rcases h x p hp with ⟨q, hq, -⟩ | ⟨-, hlt, -⟩
  · have hlt := hw.lt_fresh hq
    omega
  · exact hlt

/-- The counts when one `WSASend` of `h` is over. -/
theorem writes_pred (h' : w.writes = Function.update w'.writes h (w'.writes h + 1)) (x : Nat) :
    w'.writes x ≤ w.writes x ∧ (x = h → w.writes x = w'.writes x + 1) ∧
      (x ≠ h → w.writes x = w'.writes x) := by
  rw [h']
  by_cases hx : x = h
  · subst hx
    rw [Function.update_self]
    exact ⟨by omega, fun _ => rfl, fun hne => absurd rfl hne⟩
  · rw [Function.update_of_ne hx]
    exact ⟨Nat.le_refl _, fun heq => absurd heq hx, fun _ => rfl⟩

/-- No flag changes, and no write begins. -/
theorem Guarded.of_flags (hw : w.Guarded) (hflags : SameFlags w w')
    (hle : ∀ x, w'.writes x ≤ w.writes x) (hfresh : w.fresh ≤ w'.fresh) : w'.Guarded := by
  refine ⟨fun x => Nat.le_trans (hle x) (hw.one x), fun x p' hp' hne => ?_, fun x hge => ?_⟩
  · have hlex := hle x
    rcases hflags x p' hp' with ⟨p, hp, hsame⟩ | ⟨hnew, -, -⟩
    · rw [hsame]
      exact hw.inUse x p hp (by omega)
    · have hzero := (hw.beyond x hnew).2
      omega
  · have hlex := hle x
    have hzero := (hw.beyond x (by omega)).2
    refine ⟨?_, by omega⟩
    by_contra hex
    obtain ⟨p', hp'⟩ := Option.ne_none_iff_exists'.mp hex
    have hlt := hflags.lt_fresh hw hfresh hp'
    omega

/-- One pimpl changes its flag. -/
theorem Guarded.of_update (hw : w.Guarded) (hp : w.pimpls h = some p)
    (hpimpls : w'.pimpls = Function.update w.pimpls h (some q)) (hfresh : w'.fresh = w.fresh)
    (hle : ∀ x, x ≠ h → w'.writes x ≤ w.writes x) (hone : w'.writes h ≤ 1)
    (hset : w'.writes h ≠ 0 → q.writeOp.inUse = true) : w'.Guarded := by
  have hlt := hw.lt_fresh hp
  refine ⟨fun x => ?_, fun x p' hp' hne => ?_, fun x hge => ?_⟩
  · by_cases hx : x = h
    · rw [hx]
      exact hone
    · exact Nat.le_trans (hle x hx) (hw.one x)
  · rw [hpimpls] at hp'
    by_cases hx : x = h
    · rw [hx] at hp' hne
      rw [Function.update_self, Option.some.injEq] at hp'
      rw [← hp']
      exact hset hne
    · rw [Function.update_of_ne hx] at hp'
      have hlex := hle x hx
      exact hw.inUse x p' hp' (by omega)
  · have hx : x ≠ h := by omega
    have hlex := hle x hx
    obtain ⟨hnone, hzero⟩ := hw.beyond x (by omega)
    rw [hpimpls, Function.update_of_ne hx]
    exact ⟨hnone, by omega⟩

/-- **Every stretch keeps one write at a time.** -/
theorem Guarded.deed {good : Prop} (hw : w.Guarded) (hd : SlotDeed w w' good) : w'.Guarded := by
  cases hd with
  | nothing hwrites hflags hfresh hgood =>
    exact hw.of_flags hflags (fun x => by rw [hwrites]) hfresh
  | begins h p q hp hinUse hpimpls hset hfresh hwrites hgood =>
    have hzero : w.writes h = 0 := by
      by_contra hne
      rw [hw.inUse h p hp hne] at hinUse
      cases hinUse
    refine hw.of_update hp hpimpls hfresh (fun x hx => ?_) ?_ fun _ => hset
    · rw [hwrites, Function.update_of_ne hx]
    · rw [hwrites, Function.update_self, hzero]
  | refused h p q hp hinUse hpimpls hset hfresh hwrites hgood =>
    refine hw.of_update hp hpimpls hfresh (fun x _ => by rw [hwrites]) ?_ fun _ => hset
    rw [hwrites]
    exact hw.one h
  | releases h q hex hpimpls hreset hfresh hwrites hgood =>
    obtain ⟨p, hp⟩ := Option.ne_none_iff_exists'.mp hex
    have hone := hw.one h
    have hself := (writes_pred hwrites h).2.1 rfl
    exact hw.of_update hp hpimpls hfresh (fun x _ => (writes_pred hwrites x).1) (by omega)
      fun hne => absurd hself (by omega)
  | drops h hflags halive hfresh hwrites hgood =>
    exact hw.of_flags hflags (fun x => (writes_pred hwrites x).1) (Nat.le_of_eq hfresh.symm)

theorem mem_ops_iff : (⟨h, .write⟩ : Overlapped) ∈ w.ops ↔ w.writes h ≠ 0 := by
  unfold writes
  rw [← List.count_pos_iff, Nat.pos_iff_ne_zero]

/-- **A stretch keeps the slots released exactly if** it meets the condition. -/
theorem released_deed {good : Prop} (hw : w.Guarded) (h : w.Released) (hd : SlotDeed w w' good) :
    w'.Released ↔ good := by
  cases hd with
  | nothing hwrites hflags hfresh hgood =>
    refine iff_of_true (fun x p' hp' hset => ?_) hgood
    rw [mem_ops_iff, hwrites, ← mem_ops_iff]
    rcases hflags x p' hp' with ⟨p, hp, hsame⟩ | ⟨-, -, hclear⟩
    · exact h x p hp (hsame ▸ hset)
    · rw [hclear] at hset
      cases hset
  | begins y p q hp hinUse hpimpls hset hfresh hwrites hgood =>
    refine iff_of_true (fun x p' hp' hset' => ?_) hgood
    rw [mem_ops_iff, hwrites]
    by_cases hx : x = y
    · rw [hx, Function.update_self]
      omega
    · rw [hpimpls, Function.update_of_ne hx] at hp'
      rw [Function.update_of_ne hx, ← mem_ops_iff]
      exact h x p' hp' hset'
  | refused y p q hp hinUse hpimpls hset hfresh hwrites hgood =>
    -- nothing is outstanding, since the flag was not set
    refine iff_of_false (fun h' => ?_) hgood
    have hmem := h' y q (by rw [hpimpls, Function.update_self]) hset
    rw [mem_ops_iff, hwrites] at hmem
    rw [hw.inUse y p hp hmem] at hinUse
    cases hinUse
  | releases y q hex hpimpls hreset hfresh hwrites hgood =>
    refine iff_of_true (fun x p' hp' hset => ?_) hgood
    rw [hpimpls] at hp'
    by_cases hx : x = y
    · rw [hx, Function.update_self, Option.some.injEq] at hp'
      rw [← hp', hreset] at hset
      cases hset
    · rw [Function.update_of_ne hx] at hp'
      rw [mem_ops_iff, ← (writes_pred hwrites x).2.2 hx, ← mem_ops_iff]
      exact h x p' hp' hset
  | drops y hflags halive hfresh hwrites hgood =>
    rw [hgood]
    constructor
    · intro h'
      cases hp : w.pimpls y with
      | none => rfl
      | some p =>
        -- the one `WSASend` is gone, and the flag is still set
        obtain ⟨p', hp', hsame⟩ := halive p hp
        have hone := hw.one y
        have hpred := (writes_pred hwrites y).2.1 rfl
        have hset := hw.inUse y p hp (by omega)
        have hmem := h' y p' hp' (hsame.trans hset)
        rw [mem_ops_iff] at hmem
        omega
    · intro hnone x p' hp' hset
      rcases hflags x p' hp' with ⟨p, hp, hsame⟩ | ⟨-, -, hclear⟩
      · have hx : x ≠ y := by
          rintro rfl
          rw [hnone] at hp
          cases hp
        rw [mem_ops_iff, ← (writes_pred hwrites x).2.2 hx, ← mem_ops_iff]
        exact h x p hp (hsame ▸ hset)
      · rw [hclear] at hset
        cases hset

/-! ## What a stretch does to the slots -/

theorem sameFlags_of_eq (h : w'.pimpls = w.pimpls) : SameFlags w w' :=
  evolves_of_eq (fun _ => rfl) h

theorem SameFlags.trans (h : SameFlags w w') (h' : SameFlags w' w'') (hfresh : w.fresh ≤ w'.fresh)
    (hfresh' : w'.fresh ≤ w''.fresh) : SameFlags w w'' :=
  Evolves.trans (fun hsame hsame' => hsame'.trans hsame) (fun hclear hsame => hsame.trans hclear)
    h h' hfresh hfresh'

theorem sameFlags_update (hpimpls : w'.pimpls = Function.update w.pimpls h (some q))
    (hp : w.pimpls h = some p) (hsame : q.writeOp.inUse = p.writeOp.inUse) : SameFlags w w' :=
  evolves_update (fun _ => rfl) hpimpls hp hsame

theorem sameFlags_new (hpimpls : w'.pimpls = Function.update w.pimpls w.fresh (some q))
    (hfresh : w'.fresh = w.fresh + 1) (hclear : q.writeOp.inUse = false) : SameFlags w w' := by
  refine evolves_new (fun _ => rfl) hpimpls (by omega) fun p hp => ?_
  rw [← Option.some.inj hp]
  exact hclear

theorem sameFlags_close (hp : w.pimpls h = some p) : SameFlags w (w.close h p) := by
  unfold close
  split
  · exact sameFlags_update (q := { p with fd := SocketBasePimpl.invalidFd }) rfl hp rfl
  · exact sameFlags_of_eq rfl

theorem sameFlags_read {pimpls : Nat → Option SocketBasePimpl} (h : SameButRead w.pimpls pimpls)
    (hpimpls : w'.pimpls = pimpls) : SameFlags w w' := by
  subst hpimpls
  exact evolves_read (fun _ _ => rfl) h

/-- The counts when an operation is gone from the list. -/
theorem writes_of_perm {op : Overlapped} (h : w.ops.Perm (op :: w'.ops)) :
    (op.type ≠ .write → w'.writes = w.writes) ∧
      (op.type = .write →
        w.writes = Function.update w'.writes op.pimpl (w'.writes op.pimpl + 1)) := by
  have hcount : ∀ x, w.writes x = w'.writes x + if op = ⟨x, .write⟩ then 1 else 0 :=
    fun x => count_of_perm h ⟨x, .write⟩
  constructor
  · intro htype
    funext x
    rw [hcount x, if_neg (by rintro rfl; exact htype rfl)]
    rfl
  · intro htype
    funext x
    rw [hcount x]
    by_cases hx : x = op.pimpl
    · subst hx
      rw [Function.update_self, if_pos (by rw [← htype])]
    · rw [Function.update_of_ne hx, if_neg (by rintro rfl; exact hx rfl), Nat.add_zero]

/-- The operations of the other kinds. -/
theorem writes_start {op : Overlapped} {fd : Int} {len : Nat} {refused : Option Nat}
    (h : w.start op fd len refused = some w') (htype : op.type ≠ .write) :
    w'.writes = w.writes :=
  ((writes_of_perm (ops_start h)).1 htype).symm

/-- What happens meanwhile. -/
theorem slotDeed_of_elsewhere {e : Elsewhere} (he : w.elsewhere e = some w') {good : Prop}
    (hgood : good ↔ e.Queues w) : SlotDeed w w' good := by
  rcases elsewhere_some he with ⟨i, pending, pimpls, status, hindex, hi, hread, rfl⟩ |
    ⟨f, hindex, rfl⟩ | ⟨n, hindex, -, rfl⟩
  · have hqueues : e.Queues w ↔
        (pending.op.type = .write → w.pimpls pending.op.pimpl ≠ none → pending.key ≠ none) := by
      unfold Elsewhere.Queues
      rw [hindex]
      simp [hi]
    have hflags : SameFlags w (World.settle { w with pimpls := pimpls } i pending status) :=
      sameFlags_read hread rfl
    have hops := ops_settle (w := { w with pimpls := pimpls }) hi status
    by_cases hkey : pending.key = none
    · -- the port does not hear of it
      rw [if_pos hkey] at hops
      obtain ⟨hother, hwrite⟩ := writes_of_perm (w := w) hops
      by_cases htype : pending.op.type = .write
      · refine .drops pending.op.pimpl hflags (fun p hp => ?_) rfl (hwrite htype) ?_
        · rcases hread pending.op.pimpl with ⟨hnone, -⟩ | ⟨p', buffer, hp', hread'⟩
          · rw [hnone] at hp
            cases hp
          · obtain rfl : p' = p := Option.some.inj (hp'.symm.trans hp)
            exact ⟨_, hread', rfl⟩
        · rw [hgood, hqueues]
          constructor
          · intro h
            by_contra hex
            exact h htype hex hkey
          · intro hnone _ hex
            exact absurd hnone hex
      · exact .nothing (hother htype) hflags (Nat.le_refl _)
          (hgood.mpr (hqueues.mpr fun h => absurd h htype))
    · rw [if_neg hkey, List.nil_append] at hops
      have hwrites : (World.settle { w with pimpls := pimpls } i pending status).writes =
          w.writes := by
        funext x
        exact (hops.count_eq _).symm
      exact .nothing hwrites hflags (Nat.le_refl _) (hgood.mpr (hqueues.mpr fun _ _ => hkey))
  · refine .nothing ?_ (sameFlags_of_eq rfl) (Nat.le_refl _) (hgood.mpr ?_)
    · funext x
      unfold writes
      rw [ops_posts]
    · simp [Elsewhere.Queues, hindex]
  · refine .nothing rfl (sameFlags_of_eq rfl) (Nat.le_refl _) (hgood.mpr ?_)
    simp [Elsewhere.Queues, hindex]

/-- What becomes of a completion. -/
theorem slotDeed_of_dispatch {packet : Packet} {rest : List Packet} {refused : Option Nat}
    {out : Next} (hqueue : w.queue = packet :: rest)
    (hd : Dispatch { w with queue := rest } packet refused out) {good : Prop}
    (hgood : good ↔ packet.Releases w) : SlotDeed w out.state good := by
  have hops : ∀ {key op status}, packet = .io key op status →
      w.ops.Perm (op :: World.ops { w with queue := rest }) := by
    rintro key op status rfl
    exact ops_dequeue hqueue
  -- an operation that is not a `WSASend`
  have hother : ∀ {key op status} {v : World}, packet = .io key op status → op.type ≠ .write →
      v.writes = World.writes { w with queue := rest } → v.pimpls = w.pimpls →
      v.fresh = w.fresh → SlotDeed w v good := by
    rintro key op status v rfl htype hwrites hpimpls hfresh
    refine .nothing ?_ (sameFlags_of_eq hpimpls) (Nat.le_of_eq hfresh.symm) (hgood.mpr ?_)
    · exact hwrites.trans ((writes_of_perm (hops rfl)).1 htype)
    · cases status <;> exact fun h => absurd h htype
  -- a completion through which nothing is reset
  have hdrop : ∀ {key op status}, packet = .io key op status →
      (op.type = .write → (good ↔ w.pimpls op.pimpl = none)) →
      SlotDeed w { w with queue := rest } good := by
    intro key op status hpacket hdrops
    by_cases htype : op.type = .write
    · exact .drops op.pimpl (sameFlags_of_eq rfl) (fun p hp => ⟨p, hp, rfl⟩) rfl
        ((writes_of_perm (hops hpacket)).2 htype) (hdrops htype)
    · exact hother hpacket htype rfl rfl rfl
  cases hd with
  | exec =>
    refine .nothing ?_ (sameFlags_of_eq rfl) (Nat.le_refl _) (hgood.mpr trivial)
    funext x
    exact congrArg (List.count _) (ops_dequeue_exec hqueue)
  | @gone key op status refused hgone =>
    refine hdrop rfl fun htype => hgood.trans ?_
    cases status with
    | failure error => exact ⟨fun h => h htype, fun h _ => h⟩
    | success n =>
      constructor
      · intro h
        by_contra hex
        rcases hgone with hkey | hnone
        · exact h htype hex hkey
        · exact hex hnone
      · exact fun hnone _ hex => absurd hnone hex
  | @failed key op error refused socket operation hsocket hoperation =>
    have hstate : (World.failed { w with queue := rest } key socket op error
        (World.dequeued { w with queue := rest } key op)).state = { w with queue := rest } := by
      unfold World.failed
      split <;> rw [callThen_state]
    rw [hstate]
    exact hdrop rfl fun htype => hgood.trans ⟨fun h => h htype, fun h _ => h⟩
  | accepted htype hsocket hoperation hnewSocket hnew hstart =>
    rw [callThen_state]
    obtain ⟨hpimpls, hfresh⟩ := start_frame hstart
    exact hother rfl (by rw [htype]; decide) (writes_start hstart (by simp)) hpimpls hfresh
  | acceptedGone htype hsocket hoperation hnew =>
    exact hother rfl (by rw [htype]; decide) rfl rfl rfl
  | connected htype hsocket hoperation hstart =>
    rw [callThen_state]
    obtain ⟨hpimpls, hfresh⟩ := start_frame hstart
    exact hother rfl (by rw [htype]; decide) (writes_start hstart (by simp)) hpimpls hfresh
  | startFailed htype hsocket hoperation =>
    refine hother rfl ?_ rfl rfl rfl
    rcases htype with htype | htype <;> rw [htype] <;> decide
  | disconnected htype hsocket hoperation =>
    rw [callThen_state]
    exact hother rfl (by rw [htype]; decide) rfl rfl rfl
  | received htype hn hsocket hoperation =>
    rw [callThen_state]
    exact hother rfl (by rw [htype]; decide) rfl rfl rfl
  | @sent key op n refused socket operation htype hsocket hoperation =>
    rw [callThen_state]
    change w.pimpls key = some socket at hsocket
    change w.pimpls op.pimpl = some operation at hoperation
    refine .releases op.pimpl _ (by rw [hoperation]; exact Option.some_ne_none _) rfl rfl rfl
      ((writes_of_perm (hops rfl)).2 htype) (hgood.mpr fun _ _ => ?_)
    rw [hsocket]
    exact Option.some_ne_none _

/-- **What a stretch of code does to the slots.** -/
theorem slotDeed_of_stretch {f : Frame} {a : Answer} {out : Next} (hw : w.Guarded)
    (hs : Stretch w f a out) : SlotDeed w out.state (w.Releases f a) := by
  cases hs with
  | exec =>
    refine .nothing ?_ (sameFlags_of_eq rfl) (Nat.le_refl _) trivial
    funext x
    exact congrArg (List.count _) (ops_posts ..)
  | socket hopens =>
    obtain ⟨fd, heq⟩ := constructSocket_eq ..
    show SlotDeed w (w.constructSocket ..) _
    rw [heq]
    exact .nothing rfl (sameFlags_new rfl rfl rfl) (Nat.le_succ _) trivial
  | adopt =>
    show SlotDeed w (w.construct ..) _
    rw [construct_eq]
    exact .nothing rfl (sameFlags_new rfl rfl rfl) (Nat.le_succ _) trivial
  | move hmove =>
    obtain ⟨⟨h, p⟩, howned, rfl⟩ := Option.map_eq_some_iff.mp hmove
    obtain ⟨-, hp⟩ := owned_iff.mp howned
    exact .nothing rfl (sameFlags_update rfl hp rfl) (Nat.le_succ _) trivial
  | close howned =>
    obtain ⟨-, hp⟩ := owned_iff.mp howned
    have hsame := sameFlags_close hp
    show SlotDeed w (w.close _ _) _
    rw [close_eq] at hsame ⊢
    exact .nothing rfl hsame (Nat.le_refl _) trivial
  | connect howned hstart =>
    obtain ⟨hpimpls, hfresh⟩ := start_frame hstart
    exact .nothing (writes_start hstart (by simp)) (sameFlags_of_eq hpimpls)
      (Nat.le_of_eq hfresh.symm) trivial
  | @listen o h p a howned hopen hopens =>
    obtain ⟨-, hp⟩ := owned_iff.mp howned
    have hne : h ≠ w.fresh := Nat.ne_of_lt (hw.lt_fresh hp)
    obtain ⟨fd, heq⟩ := constructSocket_eq w p.domain p.type p.protocol noCallbacks a
    have hnew : SameFlags w (w.constructSocket p.domain p.type p.protocol noCallbacks a) := by
      rw [heq]
      exact sameFlags_new rfl rfl rfl
    have hfresh : (w.constructSocket p.domain p.type p.protocol noCallbacks a).fresh =
        w.fresh + 1 := by rw [heq]
    have hold : (w.constructSocket p.domain p.type p.protocol noCallbacks a).pimpls h = some p := by
      rw [heq]
      exact (Function.update_of_ne hne ..).trans hp
    refine .nothing ?_ (hnew.trans (sameFlags_update rfl hold rfl) ?_ (Nat.le_refl _)) ?_ trivial
    · show World.writes (w.constructSocket ..) = _
      rw [heq]
      rfl
    · omega
    · show w.fresh ≤ (w.constructSocket ..).fresh
      omega
  | @writeBusy o h p buffer refused howned hinUse =>
    refine .nothing rfl (sameFlags_of_eq rfl) (Nat.le_refl _) ?_
    intro x hx hclear
    obtain rfl : (h, p) = x := Option.some.inj (howned.symm.trans hx)
    rw [hinUse] at hclear
    cases hclear
  | @write o h p buffer refused w' howned hinUse hstart =>
    obtain ⟨-, hp⟩ := owned_iff.mp howned
    obtain ⟨hpimpls, hfresh⟩ := start_frame hstart
    refine .begins h p _ hp hinUse hpimpls rfl hfresh ?_ ?_
    · exact (writes_of_perm (ops_start hstart)).2 rfl
    · intro x hx _
      obtain rfl : (h, p) = x := Option.some.inj (howned.symm.trans hx)
      obtain ⟨key, hkey, hrefused, -⟩ := start_some hstart
      change w.handles p.fd = some key at hkey
      exact ⟨by rw [hkey]; exact Option.some_ne_none _, hrefused⟩
  | @writeFailed o h p buffer refused howned hinUse hstart =>
    obtain ⟨-, hp⟩ := owned_iff.mp howned
    refine .refused h p _ hp hinUse rfl rfl rfl rfl fun hgood => ?_
    obtain ⟨hopen, hrefused⟩ := hgood (h, p) howned hinUse
    rcases start_none.mp hstart with hclosed | hne
    · exact hopen hclosed
    · exact hne hrefused
  | callbacks howned =>
    obtain ⟨-, hp⟩ := owned_iff.mp howned
    exact .nothing rfl (sameFlags_update rfl hp rfl) (Nat.le_refl _) trivial
  | elsewhereCalled helsewhere => exact slotDeed_of_elsewhere helsewhere Iff.rfl
  | elsewhere helsewhere =>
    refine slotDeed_of_elsewhere helsewhere ?_
    unfold Releases
    exact Iff.rfl
  | dequeue hrun hqueue hdispatch =>
    refine slotDeed_of_dispatch hqueue hdispatch ?_
    simp [Releases, hqueue]
  | restart hsocket hstart =>
    obtain ⟨hpimpls, hfresh⟩ := start_frame hstart
    exact .nothing (writes_start hstart (by simp)) (sameFlags_of_eq hpimpls)
      (Nat.le_of_eq hfresh.symm) trivial
  | @destroying o h p next howned =>
    obtain ⟨-, hp⟩ := owned_iff.mp howned
    have hsame : SameFlags w (close { w with objects := Function.update w.objects o none } h p) :=
      sameFlags_close (w := { w with objects := Function.update w.objects o none }) hp
    show SlotDeed w (close { w with objects := Function.update w.objects o none } h p) _
    rw [close_eq] at hsame ⊢
    exact .nothing rfl hsame (Nat.le_refl _) trivial
  | @deleting h next =>
    exact .nothing rfl (evolves_delete (fun _ => rfl) rfl) (Nat.le_refl _) trivial
  | @assigned o other h p old howned hother =>
    obtain ⟨-, hp⟩ := owned_iff.mp howned
    have hown : SameFlags w (w.put h { p with parent := o }) := sameFlags_update rfl hp rfl
    refine .nothing rfl (hown.trans (sameFlags_new rfl rfl rfl) (Nat.le_refl _) ?_) ?_ trivial
    · exact Nat.le_succ _
    · exact Nat.le_succ _
  | acceptEx hp hstart =>
    obtain ⟨hpimpls, hfresh⟩ := start_frame hstart
    exact .nothing (writes_start hstart (by simp)) (sameFlags_of_eq hpimpls)
      (Nat.le_of_eq hfresh.symm) trivial
  | _ => exact .nothing rfl (sameFlags_of_eq rfl) (Nat.le_refl _) trivial

theorem new_guarded : World.new.Guarded :=
  ⟨fun _ => Nat.zero_le _, fun _ _ h => (by cases h), fun _ _ => ⟨rfl, rfl⟩⟩

theorem new_released : World.new.Released := fun _ _ h => (by cases h)

end World

/-- What an event does to the slots. -/
theorem slotDeed_of_step {c c' : Configuration} {e : Event Op Answer} (hw : c.state.Guarded)
    (hstep : step object c e = some c') :
    World.SlotDeed c.state c'.state (Before (fun w f _ a => w.Releases f a) c e) := by
  rcases (Step.of_step hstep).stretch with ⟨o, rfl, -, rfl⟩ |
    ⟨f, rest, a, out, kept, hstack, ha, hres, hstate, -⟩ | ⟨rfl, hstate, -⟩
  · exact .nothing rfl (World.sameFlags_of_eq rfl) (Nat.le_refl _) trivial
  · have hdeed := World.slotDeed_of_stretch hw (stretch_of_resume hres)
    rw [hstate]
    simpa only [Before, ha, hstack] using hdeed
  · rw [hstate]
    exact .nothing rfl (World.sameFlags_of_eq rfl) (Nat.le_refl _) trivial

/-- **When a write slot is always released.**  Throughout a run `in_use` is set only while
a `WSASend` is outstanding or has its completion in the queue, exactly if along it no
`WSASend` fails at once, and each completes with success on a handle of the port. -/
theorem released_iff {es : List (Event Op Answer)} {c : Configuration}
    (hr : Runs.run (step object) (Config.start World.new) es = some c) :
    Runs.Throughout (step object) (fun c => c.state.Released) (Config.start World.new) es ↔
      Runs.Along (step object) (Before fun w f _ a => w.Releases f a) (Config.start World.new) es :=
  Runs.throughout_iff_along (J := fun c => c.state.Guarded)
    (fun _ _ _ hw hstep => hw.deed (slotDeed_of_step hw hstep))
    (fun _ _ _ hw h hstep => World.released_deed hw h (slotDeed_of_step hw hstep))
    World.new_guarded World.new_released hr

/-- A socket connects; `on_connected` writes, and the operation completes. -/
def writeOnce : List (Event Op Answer) :=
  [.call (.socket 2 1 0 ⟨true, true, true, true, true, true⟩), .code (.opened (.fd 4)),
    .call (.connect 0), .code (.start none), .call (.elsewhere (.completes 0 [])), .code .go,
    .call .waitForInput, .code .go, .code (.start none),
    .call (.write 0 [1, 2, 3]), .code (.start none), .back,
    .code (.elsewhere (.completes 1 [1, 2, 3])), .code (.start none)]

/-- The slot is released before `on_sent` is called. -/
theorem released_iff_sent :
    ∃ c, Runs.run (step object) (Config.start World.new) writeOnce = some c ∧
      callOuts c.log = [.callback 0 .onConnected, .callback 0 (.onSent 0)] ∧
      Runs.Throughout (step object) (fun c => c.state.Released) (Config.start World.new)
        writeOnce := by
  obtain ⟨c, hr, hcalls⟩ :
      ∃ c, Runs.run (step object) (Config.start World.new) writeOnce = some c ∧
        callOuts c.log = [.callback 0 .onConnected, .callback 0 (.onSent 0)] :=
    Runs.exists_run (by decide)
  exact ⟨c, hr, hcalls, (released_iff hr).mpr (by decide)⟩

/-- `WSASend` fails at once (the socket is not connected), and a later write returns 0. -/
theorem slot_stays_used :
    ∃ c, Runs.run (step object) (Config.start World.new)
        [.call (.socket 2 1 0 ⟨true, true, true, true, true, true⟩), .code (.opened (.fd 4)),
          .call (.write 0 [1]), .unwind (.start (some 10057)) 0,
          .call (.write 0 [1]), .code (.start none)] = some c ∧
      c.log.getLast? = some (.ret (.size 0)) ∧ ¬ c.state.Released := by
  obtain ⟨c, hr, hlog, hops, hinUse⟩ :
      ∃ c, Runs.run (step object) (Config.start World.new)
          [.call (.socket 2 1 0 ⟨true, true, true, true, true, true⟩), .code (.opened (.fd 4)),
            .call (.write 0 [1]), .unwind (.start (some 10057)) 0,
            .call (.write 0 [1]), .code (.start none)] = some c ∧
        c.log.getLast? = some (.ret (.size 0)) ∧ c.state.ops = [] ∧
        (c.state.pimpls 0).any (·.writeOp.inUse) = true :=
    Runs.exists_run (by decide)
  refine ⟨c, hr, hlog, fun h => ?_⟩
  obtain ⟨p, hp, hset⟩ := (Option.any_eq_true ..).mp hinUse
  have hmem := h 0 p hp hset
  rw [hops] at hmem
  cases hmem

end Windows
end AcppNetwork
