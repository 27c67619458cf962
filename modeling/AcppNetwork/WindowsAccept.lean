import AcppNetwork.WindowsSteps

/-!
# The accept operations of a Windows socket

`listen` begins an `AcceptEx` (`start_accept`), and nothing else does: when its
completion has been handled there is none any more, and the next connection waits for
ever (`not_served_again`).  The other backends accept whenever the descriptor is ready.

A program can make up for it only by calling `listen` again while its callback runs
(`served`).  What is observed beside a run (`Watch`) are the pimpls whose `listen`
returned 0, those of them that called it after their last completion was dequeued, the
completions that are being handled, and the connections that were not handed over.

`AcceptEx` operations are conserved (`accepts_of_resume`): one more for each that
begins, one less for each whose completion is dequeued or never queued.
-/
namespace AcppNetwork
namespace Windows

open Reentrant

/-- The pimpl of an `AcceptEx`. -/
def Overlapped.accepting (op : Overlapped) : List Nat :=
  if op.type = .accept then [op.pimpl] else []

/-- The pimpl whose `start_accept` returns. -/
def Frame.accepting : Frame → Next → List Nat
  | .acceptEx h, .ret _ _ _ => [h]
  | _, _ => []

namespace World

/-- How many `AcceptEx` of the pimpl at `h` are outstanding or have their completion in
the queue. -/
def accepts (w : World) (h : Nat) : Nat := w.ops.count ⟨h, .accept⟩

/-- The pimpl at `h` exists, and has not been closed. -/
def validAt (w : World) (h : Nat) : Bool := (w.pimpls h).any SocketBasePimpl.valid

/-- The pimpl whose `AcceptEx` a stretch of code begins: `start_accept` returns. -/
def begun (w : World) (f : Frame) (a : Answer) : List Nat :=
  match resume w f a with
  | some out => f.accepting out
  | none => []

/-- The pimpl whose `listen` returns 0 without one. -/
def unbegun (w : World) : Frame → Answer → List Nat
  | .api (.listen o), .listen .noAcceptEx => ((w.owned o).map Prod.fst).toList
  | _, _ => []

/-- The packet that the loop dequeues. -/
def packet? (w : World) : Frame → Answer → Option Packet
  | .loop _, .start _ => w.queue.head?
  | _, _ => none

/-- The pimpl whose `AcceptEx` has its completion dequeued. -/
def taken (w : World) (f : Frame) (a : Answer) : List Nat :=
  match w.packet? f a with
  | some (.io _ op _) => op.accepting
  | _ => []

/-- The same, if it succeeded. -/
def arrived (w : World) (f : Frame) (a : Answer) : List Nat :=
  match w.packet? f a with
  | some (.io _ op (.success _)) => op.accepting
  | _ => []

/-- The pimpl whose `AcceptEx` completes on a handle without a key. -/
def unheard (w : World) (e : Elsewhere) : List Nat :=
  match e.index.bind (w.outstanding[·]?) with
  | some pending => if pending.key = none then pending.op.accepting else []
  | none => []

/-- The same, of a stretch of code. -/
def lost (w : World) (f : Frame) (a : Answer) : List Nat :=
  match f, a with
  | _, .elsewhere e => w.unheard e
  | .api (.elsewhere e), .go => w.unheard e
  | _, _ => []

end World

/-! ## What is observed -/

/-- The frame at which an event runs code, and its answer. -/
def running (c : Configuration) (e : Event Op Answer) : Option (Frame × Answer) :=
  match e.answer?, c.stack with
  | some a, .code f :: _ => some (f, a)
  | _, _ => none

/-- The pimpls that `d` says of the stretch of code that an event runs. -/
def ofStretch (d : World → Frame → Answer → List Nat) (c : Configuration)
    (e : Event Op Answer) : List Nat :=
  match running c e with
  | some (f, a) => d c.state f a
  | none => []

/-- The running callback is `on_accepted`. -/
def handsOver (c : Configuration) : Bool :=
  match c.stack with
  | .outside (.callback _ (.onAccepted _)) :: _ => true
  | _ => false

/-- What is observed: the pimpls whose `listen` returned 0; those of which an `AcceptEx`
began after the last completion of one was dequeued; the completions that the loop is
handling, with the height of the stack while the callback runs; the pimpls that were not
closed when a connection of theirs arrived and was not handed over. -/
structure Watch where
  listened : List Nat
  renewed : List Nat
  handling : List (Nat × Nat)
  missed : List Nat

namespace Watch

/-- Nothing observed. -/
def start : Watch := ⟨[], [], [], []⟩

/-- What is left of `renewed` when the event has dequeued. -/
def left (g : Watch) (c : Configuration) (e : Event Op Answer) : List Nat :=
  g.renewed.filter (· ∉ ofStretch World.taken c e)

/-- The completions being handled, with the one that the event dequeues. -/
def handled (g : Watch) (c : Configuration) (e : Event Op Answer) : List (Nat × Nat) :=
  g.handling ++ (ofStretch World.taken c e).map fun h => (c.stack.length + 1, h)

/-- What is observed after an event that led to `c'`. -/
def next (g : Watch) (c : Configuration) (e : Event Op Answer) (c' : Configuration) : Watch where
  listened := g.listened ++ ofStretch World.begun c e ++ ofStretch World.unbegun c e
  renewed := g.left c e ++ ofStretch World.begun c e
  handling := (g.handled c e).filter (·.1 ≤ c'.stack.length)
  missed := g.missed ++
    (ofStretch World.arrived c e).filter fun h => c.state.validAt h && !handsOver c'

end Watch

/-- A context with what is observed. -/
def observed : Configuration × Watch → Event Op Answer → Option (Configuration × Watch) :=
  Runs.observe (step object) fun c e g =>
    match step object c e with
    | some c' => g.next c e c'
    | none => g

/-- What a listening socket is promised: while it is open, and no completion of its
accept operations is being handled, there is exactly one of them; and every connection
that arrived was handed over. -/
structure Served (x : Configuration × Watch) : Prop where
  one : ∀ h ∈ x.2.listened, x.1.state.validAt h = true → h ∉ x.2.handling.map Prod.snd →
    x.1.state.accepts h = 1
  missed : x.2.missed = []

/-! ## The condition -/

/-- The handling that the event ends is of a pimpl that was closed, or that called
`listen` again. -/
def EndsWell (x : Configuration × Watch) (e : Event Op Answer) : Prop :=
  ∀ c' ∈ step object x.1 e, ∀ y ∈ x.2.handled x.1 e, c'.stack.length < y.1 →
    x.1.state.validAt y.2 = false ∨ y.2 ∈ x.2.left x.1 e

/-- The condition: `listen` begins no second `AcceptEx` of a pimpl; it finds `AcceptEx`;
every completion is queued; and when the handling of one ends, the socket was closed or
called `listen` again. -/
structure Renews (x : Configuration × Watch) (e : Event Op Answer) : Prop where
  begins : ∀ h ∈ ofStretch World.begun x.1 e, h ∉ x.2.renewed
  finds : ofStretch World.unbegun x.1 e = []
  heard : ∀ h ∈ ofStretch World.lost x.1 e, x.1.state.validAt h = false
  ends : EndsWell x e

instance (x : Configuration × Watch) (e : Event Op Answer) : Decidable (EndsWell x e) := by
  unfold EndsWell
  infer_instance

instance (x : Configuration × Watch) (e : Event Op Answer) : Decidable (Renews x e) :=
  decidable_of_iff
    ((∀ h ∈ ofStretch World.begun x.1 e, h ∉ x.2.renewed) ∧ ofStretch World.unbegun x.1 e = [] ∧
      (∀ h ∈ ofStretch World.lost x.1 e, x.1.state.validAt h = false) ∧ EndsWell x e)
    ⟨fun h => ⟨h.1, h.2.1, h.2.2.1, h.2.2.2⟩, fun h => ⟨h.begins, h.finds, h.heard, h.ends⟩⟩

namespace World
variable {w w' : World} {f : Frame} {a : Answer} {out : Next} {h : Nat}

/-! ## The operations are conserved -/

/-- What begins is seen from the outcome. -/
theorem begun_eq (hres : resume w f a = some out) : w.begun f a = f.accepting out := by
  unfold begun
  rw [hres]

@[simp] theorem taken_elsewhere (e : Elsewhere) : w.taken f (.elsewhere e) = [] := by
  cases f <;> rfl

@[simp] theorem lost_elsewhere (e : Elsewhere) : w.lost f (.elsewhere e) = w.unheard e := by
  cases f <;> rfl

theorem count_accepting (op : Overlapped) :
    op.accepting.count h = if op = ⟨h, .accept⟩ then 1 else 0 := by
  obtain ⟨x, type⟩ := op
  unfold Overlapped.accepting
  cases type <;> simp [List.count_singleton]

/-- An operation of another kind begins. -/
theorem accepts_start {op : Overlapped} {fd : Int} {len : Nat} {refused : Option Nat}
    (hstart : w.start op fd len refused = some w') (htype : op.type ≠ .accept) :
    w'.accepts h = w.accepts h := by
  have hcount := count_of_perm (ops_start hstart) ⟨h, .accept⟩
  rw [if_neg (by rintro rfl; exact htype rfl)] at hcount
  exact hcount

/-- What happens meanwhile: an operation is lost if the port does not hear of it. -/
theorem accepts_elsewhere {e : Elsewhere} (he : w.elsewhere e = some w') :
    w'.accepts h + (w.unheard e).count h = w.accepts h := by
  rcases elsewhere_some he with ⟨i, pending, pimpls, status, hindex, hi, -, rfl⟩ |
    ⟨f, hindex, rfl⟩ | ⟨n, hindex, -, rfl⟩
  · have hops := ops_settle (w := { w with pimpls := pimpls }) hi status
    have hunheard : w.unheard e = if pending.key = none then pending.op.accepting else [] := by
      simp [unheard, hindex, hi]
    rw [hunheard]
    by_cases hkey : pending.key = none
    · rw [if_pos hkey] at hops
      rw [if_pos hkey, count_accepting]
      exact (count_of_perm (w := w) hops _).symm
    · rw [if_neg hkey, List.nil_append] at hops
      rw [if_neg hkey]
      exact (hops.count_eq _).symm
  · simp only [unheard, hindex, Option.bind_none, List.count_nil, Nat.add_zero]
    exact congrArg (List.count _) (ops_posts w f)
  · simp only [unheard, hindex, Option.bind_none, List.count_nil, Nat.add_zero]
    rfl

/-- What a completion does. -/
theorem accepts_of_dispatch {packet : Packet} {refused : Option Nat}
    (hd : Dispatch w packet refused out) : out.state.accepts h = w.accepts h := by
  cases hd with
  | failed =>
    unfold World.failed
    split <;> rw [callThen_state]
  | accepted htype hsocket hoperation hnewSocket hnew hstart =>
    rw [callThen_state]
    exact accepts_start hstart nofun
  | connected htype hsocket hoperation hstart =>
    rw [callThen_state]
    exact accepts_start hstart nofun
  | disconnected => rw [callThen_state]
  | received => rw [callThen_state]
  | sent => rw [callThen_state]; rfl
  | _ => rfl

/-- **Accept operations are conserved**: one more for each that begins, one less for each
whose completion is dequeued or never queued. -/
theorem accepts_of_resume (hres : resume w f a = some out) :
    out.state.accepts h + ((w.taken f a).count h + (w.lost f a).count h) =
      w.accepts h + (w.begun f a).count h := by
  rw [begun_eq hres]
  cases stretch_of_resume hres with
  | exec => exact congrArg (List.count _) (ops_posts ..)
  | @socket domain type protocol callbacks a hopens =>
    obtain ⟨fd, heq⟩ := constructSocket_eq w domain type protocol callbacks a
    show accepts (w.constructSocket ..) h = _
    rw [heq]
    rfl
  | adopt =>
    show accepts (w.construct ..) h = _
    rw [construct_eq]
    rfl
  | move hmove =>
    obtain ⟨⟨x, p⟩, howned, rfl⟩ := Option.map_eq_some_iff.mp hmove
    rfl
  | close howned =>
    show accepts (w.close ..) h = _
    rw [close_eq]
    rfl
  | connect howned hstart => exact accepts_start hstart nofun
  | @listen o x p a howned hopen hopens =>
    obtain ⟨fd, heq⟩ := constructSocket_eq w p.domain p.type p.protocol noCallbacks a
    show accepts (w.constructSocket ..) h = _
    rw [heq]
    rfl
  | @write o x p buffer refused w' howned hinUse hstart =>
    have hsent := accepts_start (h := h) hstart nofun
    exact hsent
  | elsewhereCalled helsewhere =>
    have hlost := accepts_elsewhere (h := h) helsewhere
    rw [show w.taken (.api (.elsewhere _)) .go = [] from rfl, List.count_nil, Nat.zero_add]
    exact hlost
  | @elsewhere _ e w' helsewhere =>
    have hlost := accepts_elsewhere (h := h) helsewhere
    rw [taken_elsewhere, lost_elsewhere, List.count_nil, Nat.zero_add]
    cases f <;> exact hlost
  | @dequeue key refused packet rest out hrun hqueue hdispatch =>
    rw [accepts_of_dispatch hdispatch]
    cases packet with
    | exec n =>
      have htaken : w.taken (.loop key) (.start refused) = [] := by
        simp [taken, packet?, hqueue]
      rw [htaken]
      exact congrArg (List.count _) (ops_dequeue_exec hqueue)
    | io k op status =>
      have htaken : w.taken (.loop key) (.start refused) = op.accepting := by
        simp [taken, packet?, hqueue]
      rw [htaken, count_accepting]
      exact (count_of_perm (ops_dequeue hqueue) _).symm
  | restart hsocket hstart => exact accepts_start hstart nofun
  | @destroying o x p next howned =>
    show accepts (World.close { w with objects := Function.update w.objects o none } x p) h = _
    rw [close_eq]
    rfl
  | @acceptEx x p refused w' hp hstart =>
    have hcount := count_of_perm (ops_start hstart) ⟨h, .accept⟩
    have hbegun : List.count h [x] = if Overlapped.mk x .accept = ⟨h, .accept⟩ then 1 else 0 := by
      rw [List.count_singleton]
      simp
    rw [← hbegun] at hcount
    exact hcount
  | _ => rfl

theorem arrived_subset (hmem : h ∈ w.arrived f a) : h ∈ w.taken f a := by
  unfold arrived at hmem
  unfold taken
  split at hmem
  · rename_i hpacket
    rw [hpacket]
    exact hmem
  · cases hmem

/-- A pimpl of which an `AcceptEx` begins exists. -/
theorem begun_exists (hres : resume w f a = some out) (hmem : h ∈ w.begun f a) :
    w.pimpls h ≠ none := by
  rw [begun_eq hres] at hmem
  cases stretch_of_resume hres with
  | @acceptEx x p refused w' hp hstart =>
    rw [List.mem_singleton.mp hmem, hp]
    exact Option.some_ne_none _
  | elsewhere helsewhere => cases f <;> cases hmem
  | _ => cases hmem

/-- The callback that is called with a connection is `on_accepted`. -/
theorem dispatch_handsOver {key n : Nat} {op : Overlapped} {refused : Option Nat} {k : CallOut}
    (hd : Dispatch w (.io key op (.success n)) refused out) (htype : op.type = .accept)
    (hk : k ∈ out.callOuts) : ∃ parent o, k = .callback parent (.onAccepted o) := by
  cases hd with
  | @accepted _ _ _ _ socket _ o _ _ w' _ _ _ _ _ _ =>
    unfold World.callThen at hk
    split at hk
    · rename_i cb hcb
      rw [Linux.Callbacks.call?_eq_some hcb] at hk
      exact ⟨socket.parent, o, List.mem_singleton.mp hk⟩
    · cases hk
  | connected htype' | disconnected htype' | received htype' | sent htype' =>
    rw [htype] at htype'
    cases htype'
  | gone | acceptedGone | startFailed => cases hk

/-- What is called with an arriving connection. -/
theorem arrived_handsOver {k : CallOut} (hres : resume w f a = some out)
    (hmem : h ∈ w.arrived f a) (hk : k ∈ out.callOuts) :
    ∃ parent o, k = .callback parent (.onAccepted o) := by
  cases stretch_of_resume hres with
  | @dequeue key refused packet rest out hrun hqueue hdispatch =>
    cases packet with
    | exec n =>
      simp [arrived, packet?, hqueue] at hmem
    | io k op status =>
      cases status with
      | failure error => simp [arrived, packet?, hqueue] at hmem
      | success n =>
        have hop : h ∈ op.accepting := by simpa [arrived, packet?, hqueue] using hmem
        refine dispatch_handsOver hdispatch ?_ hk
        unfold Overlapped.accepting at hop
        split at hop
        · assumption
        · cases hop
  | elsewhere helsewhere => cases hk
  | _ => cases hmem

end World

/-! ## What an event does -/

/-- The accept operations over an event. -/
structure Moves (c : Configuration) (e : Event Op Answer) (c' : Configuration) : Prop where
  conserved : ∀ h, c'.state.accepts h +
    ((ofStretch World.taken c e).count h + (ofStretch World.lost c e).count h) =
      c.state.accepts h + (ofStretch World.begun c e).count h
  descends : World.Descends c.state c'.state
  begins : ∀ h ∈ ofStretch World.begun c e, c.state.pimpls h ≠ none
  one : (ofStretch World.begun c e).length ≤ 1
  apart : ofStretch World.begun c e = [] ∨ ofStretch World.taken c e = []
  taken : ∀ h ∈ ofStretch World.arrived c e, h ∈ ofStretch World.taken c e
  handsOver : ∀ h ∈ ofStretch World.arrived c e, c.stack.length < c'.stack.length →
    handsOver c' = true

/-- An event that runs no code. -/
theorem Moves.idle {c c' : Configuration} {e : Event Op Answer} (hidle : running c e = none)
    (hstate : c'.state = c.state) : Moves c e c' := by
  have hnil : ∀ d, ofStretch d c e = [] := fun d => by rw [ofStretch, hidle]
  refine ⟨fun h => ?_, ?_, fun h hh => ?_, ?_, .inl (hnil _), fun h hh => ?_, fun h hh => ?_⟩
  · rw [hnil, hnil, hnil, hstate]
    rfl
  · exact World.descends_of_eq (by rw [hstate]) (by rw [hstate])
  · rw [hnil] at hh
    cases hh
  · rw [hnil]
    exact Nat.zero_le _
  · rw [hnil] at hh
    cases hh
  · rw [hnil] at hh
    cases hh

/-- An event that runs code, with the outcome `out`. -/
theorem Moves.code {c c' : Configuration} {e : Event Op Answer} {f : Frame} {a : Answer}
    {out : Next} (hrun : running c e = some (f, a)) (hres : resume c.state f a = some out)
    (hstate : c'.state = out.state)
    (hstack : c.stack.length < c'.stack.length → ∃ k ∈ out.callOuts, ∃ rest,
      c'.stack = .outside k :: rest) : Moves c e c' := by
  have heq : ∀ d, ofStretch d c e = d c.state f a := fun d => by rw [ofStretch, hrun]
  refine ⟨fun h => ?_, ?_, fun h hh => ?_, ?_, ?_, fun h hh => ?_, fun h hh hlt => ?_⟩
  · rw [heq, heq, heq, hstate]
    exact World.accepts_of_resume hres
  · rw [hstate]
    exact World.descends_of_stretch (stretch_of_resume hres)
  · rw [heq] at hh
    exact World.begun_exists hres hh
  · rw [heq, World.begun_eq hres]
    unfold Frame.accepting
    split
    · exact Nat.le_refl _
    · exact Nat.zero_le _
  · rw [heq, heq, World.begun_eq hres]
    unfold Frame.accepting
    split
    · exact .inr rfl
    · exact .inl rfl
  · rw [heq] at hh ⊢
    exact World.arrived_subset hh
  · rw [heq] at hh
    obtain ⟨k, hk, rest, hc'⟩ := hstack hlt
    obtain ⟨parent, o, rfl⟩ := World.arrived_handsOver hres hh hk
    rw [Windows.handsOver, hc']

theorem moves_of_step {c c' : Configuration} {e : Event Op Answer}
    (hs : Step object c e c') : Moves c e c' := by
  cases hs with
  | call o hout => exact .idle rfl rfl
  | goto hres => exact .code rfl hres rfl fun hlt => absurd hlt (by simp)
  | callOut hres =>
    exact .code rfl hres rfl fun _ => ⟨_, List.mem_singleton_self _, _, rfl⟩
  | ret hres => exact .code rfl hres rfl fun hlt => absurd hlt (by simp)
  | unwind depth hres hout =>
    refine .code rfl hres rfl fun hlt => absurd hlt ?_
    simp only [List.length_drop, List.length_cons]
    omega
  | back => exact .idle rfl rfl

/-! ## The invariant -/

/-- What holds after every step of a run that meets the condition. -/
structure Kept (c : Configuration) (g : Watch) : Prop where
  beyond : ∀ h, c.state.fresh ≤ h → c.state.pimpls h = none ∧ c.state.accepts h = 0 ∧
    h ∉ g.listened ∧ h ∉ g.renewed
  counts : ∀ h, c.state.validAt h = true → c.state.accepts h = if h ∈ g.renewed then 1 else 0
  renewed : ∀ h ∈ g.listened, c.state.validAt h = true → h ∉ g.handling.map Prod.snd →
    h ∈ g.renewed
  missed : g.missed = []

variable {c c' : Configuration} {e : Event Op Answer} {g : Watch} {h : Nat}

theorem Kept.start : Kept (Config.start World.new) Watch.start where
  beyond _ _ := ⟨rfl, rfl, nofun, nofun⟩
  counts _ h := by cases h
  renewed _ h := by cases h
  missed := rfl

theorem Kept.promised (hk : Kept c g) : Served (c, g) where
  one h hlistened hvalid hnot := by
    have hrenewed := hk.renewed h hlistened hvalid hnot
    have hcounts := hk.counts h hvalid
    rwa [if_pos hrenewed] at hcounts
  missed := hk.missed

/-- A pimpl that is not closed after an event was not closed before, or is new. -/
theorem Moves.validAt (hm : Moves c e c') (hvalid : c'.state.validAt h = true) :
    c.state.validAt h = true ∨ c.state.fresh ≤ h := by
  obtain ⟨p', hp', hvalid'⟩ := (Option.any_eq_true ..).mp hvalid
  rcases hm.descends.pimpls h p' hp' with ⟨p, hp, hfd⟩ | ⟨hge, -⟩
  · refine .inl ((Option.any_eq_true ..).mpr ⟨p, hp, ?_⟩)
    unfold SocketBasePimpl.valid at hvalid' ⊢
    rwa [← hfd hvalid']
  · exact .inr hge

theorem mem_left : h ∈ g.left c e ↔ h ∈ g.renewed ∧ h ∉ ofStretch World.taken c e := by
  unfold Watch.left
  rw [List.mem_filter, decide_eq_true_eq]

/-- A handling of a valid pimpl that is over by the next configuration was well ended. -/
theorem Renews.of_over {n : Nat} (hr : Renews (c, g) e) (hstep : step object c e = some c')
    (hmem : (n, h) ∈ g.handled c e) (hover : (n, h) ∉ (g.next c e c').handling)
    (hvalid : c.state.validAt h = true) : h ∈ g.left c e := by
  have hlt : c'.stack.length < n := by
    by_contra hle
    exact hover (List.mem_filter.mpr ⟨hmem, decide_eq_true (Nat.le_of_not_lt hle)⟩)
  rcases hr.ends c' hstep (n, h) hmem hlt with hclosed | hleft
  · exact absurd (hvalid.symm.trans hclosed) (by decide)
  · exact hleft

/-- A new pimpl has no accept operation, and has not called `listen`. -/
theorem Kept.new (hk : Kept c g) (hm : Moves c e c')
    (hfinds : ofStretch World.unbegun c e = []) (hge : c.state.fresh ≤ h) :
    c'.state.accepts h = 0 ∧ h ∉ (g.next c e c').listened ∧ h ∉ (g.next c e c').renewed := by
  obtain ⟨hnone, hzero, hlistened, hrenewed⟩ := hk.beyond h hge
  have hbegun : h ∉ ofStretch World.begun c e := fun hmem => hm.begins h hmem hnone
  have hconserved := hm.conserved h
  have hcount := List.count_eq_zero.mpr hbegun
  refine ⟨by omega, ?_, ?_⟩
  · show h ∉ g.listened ++ ofStretch World.begun c e ++ ofStretch World.unbegun c e
    rw [hfinds, List.append_nil, List.mem_append, not_or]
    exact ⟨hlistened, hbegun⟩
  · show h ∉ g.left c e ++ ofStretch World.begun c e
    rw [List.mem_append, not_or, mem_left]
    exact ⟨fun hleft => hrenewed hleft.1, hbegun⟩

/-- The count of a pimpl that is not closed. -/
theorem Kept.count (hk : Kept c g) (hm : Moves c e c') (hr : Renews (c, g) e)
    (hvalid : c.state.validAt h = true) :
    c'.state.accepts h = if h ∈ (g.next c e c').renewed then 1 else 0 := by
  show c'.state.accepts h = if h ∈ g.left c e ++ ofStretch World.begun c e then 1 else 0
  have hlost : (ofStretch World.lost c e).count h = 0 := by
    refine List.count_eq_zero.mpr fun hmem => ?_
    have hclosed : c.state.validAt h = false := hr.heard h hmem
    exact absurd (hvalid.symm.trans hclosed) (by decide)
  have hconserved := hm.conserved h
  have hcounts := hk.counts h hvalid
  by_cases hbegun : h ∈ ofStretch World.begun c e
  · -- `listen` was called again: there was none
    have hnot : h ∉ g.renewed := hr.begins h hbegun
    have htaken : ofStretch World.taken c e = [] :=
      hm.apart.resolve_left (List.ne_nil_of_mem hbegun)
    have hle : (ofStretch World.begun c e).count h ≤ 1 :=
      Nat.le_trans List.count_le_length hm.one
    have hpos := List.count_pos_iff.mpr hbegun
    rw [if_pos (List.mem_append_right _ hbegun)]
    rw [if_neg hnot] at hcounts
    rw [htaken, List.count_nil] at hconserved
    omega
  · rw [List.count_eq_zero.mpr hbegun] at hconserved
    by_cases htaken : h ∈ ofStretch World.taken c e
    · -- there was one, and it is over
      have hpos := List.count_pos_iff.mpr htaken
      have hnot : h ∉ g.left c e ++ ofStretch World.begun c e := by
        rw [List.mem_append, not_or, mem_left]
        exact ⟨fun hleft => hleft.2 htaken, hbegun⟩
      rw [if_neg hnot]
      split at hcounts <;> omega
    · rw [List.count_eq_zero.mpr htaken] at hconserved
      have hiff : h ∈ g.left c e ++ ofStretch World.begun c e ↔ h ∈ g.renewed := by
        rw [List.mem_append, mem_left]
        exact ⟨fun hmem => (hmem.resolve_right hbegun).1, fun hmem => .inl ⟨hmem, htaken⟩⟩
      simp only [hiff]
      omega

/-- A listening pimpl that is not closed, and no completion of which is being handled, has
called `listen` since the last was dequeued. -/
theorem Kept.renews (hk : Kept c g) (hr : Renews (c, g) e)
    (hstep : step object c e = some c') (hlistened' : h ∈ (g.next c e c').listened)
    (hvalid : c.state.validAt h = true) (hover : h ∉ (g.next c e c').handling.map Prod.snd) :
    h ∈ (g.next c e c').renewed := by
  change h ∈ g.listened ++ ofStretch World.begun c e ++ ofStretch World.unbegun c e at hlistened'
  show h ∈ g.left c e ++ ofStretch World.begun c e
  have hfinds : ofStretch World.unbegun c e = [] := hr.finds
  have hended : ∀ n, (n, h) ∈ g.handled c e → h ∈ g.left c e := fun n hmem =>
    hr.of_over hstep hmem (fun hin => hover (List.mem_map.mpr ⟨_, hin, rfl⟩)) hvalid
  rw [hfinds, List.append_nil, List.mem_append] at hlistened'
  rcases hlistened' with hlistened | hbegun
  · refine List.mem_append_left _ ?_
    by_cases htaken : h ∈ ofStretch World.taken c e
    · exact hended _ (List.mem_append_right _ (List.mem_map.mpr ⟨h, htaken, rfl⟩))
    · by_cases hrenewed : h ∈ g.renewed
      · exact mem_left.mpr ⟨hrenewed, htaken⟩
      · have hhandling : h ∈ g.handling.map Prod.snd := by
          by_contra hnot
          exact hrenewed (hk.renewed h hlistened hvalid hnot)
        obtain ⟨⟨n, z⟩, hmem, rfl⟩ := List.mem_map.mp hhandling
        exact hended n (List.mem_append_left _ hmem)
  · exact List.mem_append_right _ hbegun

/-- A connection of a pimpl that is not closed is handed over when it arrives. -/
theorem Renews.hands_over (hr : Renews (c, g) e) (hm : Moves c e c')
    (hstep : step object c e = some c') (harrived : h ∈ ofStretch World.arrived c e)
    (hvalid : c.state.validAt h = true) : handsOver c' = true := by
  have htaken := hm.taken h harrived
  have hmem : (c.stack.length + 1, h) ∈ g.handled c e :=
    List.mem_append_right _ (List.mem_map.mpr ⟨h, htaken, rfl⟩)
  refine hm.handsOver h harrived ?_
  by_contra hnot
  have hover : (c.stack.length + 1, h) ∉ (g.next c e c').handling := by
    intro hin
    have hle := of_decide_eq_true (List.mem_filter.mp hin).2
    exact hnot hle
  exact (mem_left.mp (hr.of_over hstep hmem hover hvalid)).2 htaken

/-- **An event that meets the condition** keeps it so that every open listening socket has
its accept operation. -/
theorem Kept.step (hk : Kept c g) (hr : Renews (c, g) e) (hstep : step object c e = some c') :
    Kept c' (g.next c e c') := by
  have hm := moves_of_step (Step.of_step hstep)
  have hfresh := hm.descends.fresh
  constructor
  · intro h hge
    have hge' := Nat.le_trans hfresh hge
    refine ⟨?_, hk.new hm hr.finds hge'⟩
    by_contra hex
    obtain ⟨p', hp'⟩ := Option.ne_none_iff_exists'.mp hex
    rcases hm.descends.pimpls h p' hp' with ⟨p, hp, -⟩ | ⟨-, hlt⟩
    · have hnone := (hk.beyond h hge').1
      rw [hp] at hnone
      cases hnone
    · exact absurd hlt (Nat.not_lt.mpr hge)
  · intro h hvalid'
    rcases hm.validAt hvalid' with hvalid | hge
    · exact hk.count hm hr hvalid
    · obtain ⟨hzero, -, hnot⟩ := hk.new hm hr.finds hge
      rw [hzero, if_neg hnot]
  · intro h hlistened hvalid' hover
    rcases hm.validAt hvalid' with hvalid | hge
    · exact hk.renews hr hstep hlistened hvalid hover
    · exact absurd hlistened (hk.new hm hr.finds hge).2.1
  · show g.missed ++ _ = []
    rw [hk.missed, List.nil_append, List.filter_eq_nil_iff]
    intro h harrived hmissed
    rw [Bool.and_eq_true, Bool.not_eq_true'] at hmissed
    obtain ⟨hvalid, hnot⟩ := hmissed
    rw [hr.hands_over hm hstep harrived hvalid] at hnot
    cases hnot

/-- **When a listening socket is served**: after every run whose steps meet the condition,
while the socket is open and none of its completions is being handled, there is exactly
one accept operation of it; and every connection that arrived was handed over. -/
theorem served {es : List (Event Op Answer)} {c : Configuration} {g : Watch}
    (hr : Runs.run observed (Config.start World.new, Watch.start) es = some (c, g))
    (hgood : Runs.Along observed Renews (Config.start World.new, Watch.start) es) :
    Served (c, g) := by
  have hkept : Kept c g := by
    refine Runs.run_invariant_along (I := fun x => Kept x.1 x.2) (fun x e x' hk hp hstep => ?_)
      Kept.start hgood hr
    obtain ⟨hstep', hnext⟩ := Runs.observe_some.mp hstep
    rw [hstep'] at hnext
    rw [hnext]
    exact hk.step hp hstep'
  exact hkept.promised

/-! ## Two runs -/

/-- A socket listens, and a connection arrives: the callback is running. -/
def acceptRun : List (Event Op Answer) :=
  [.call (.socket 2 1 0 ⟨true, true, true, true, true, true⟩), .code (.opened (.fd 4)),
    .call (.listen 0), .code (.listen (.ready (.fd 5))), .code (.start none),
    .call .waitForInput, .code .go, .code (.elsewhere (.completes 0 [])), .code (.start none)]

/-- `on_accepted` keeps the new socket, and calls `listen` again. -/
def renewRun : List (Event Op Answer) :=
  [.call (.move 1), .code .go, .call (.listen 0), .code (.listen (.ready (.fd 6))),
    .code .go, .code (.start none), .back]

/-- The socket can take the next connection. -/
theorem served_again : ∃ c g,
    Runs.run observed (Config.start World.new, Watch.start) (acceptRun ++ renewRun) = some (c, g) ∧
      callOuts c.log = [.callback 0 (.onAccepted 1)] ∧ g.listened = [0, 0] ∧
      g.handling = [] ∧ c.state.validAt 0 = true ∧ Served (c, g) := by
  obtain ⟨⟨c, g⟩, hr, hcalls, hlistened, hhandling, hvalid⟩ : ∃ x,
      Runs.run observed (Config.start World.new, Watch.start) (acceptRun ++ renewRun) = some x ∧
        callOuts x.1.log = [.callback 0 (.onAccepted 1)] ∧ x.2.listened = [0, 0] ∧
        x.2.handling = [] ∧ x.1.state.validAt 0 = true :=
    Runs.exists_run (by decide)
  exact ⟨c, g, hr, hcalls, hlistened, hhandling, hvalid, served hr (by decide)⟩

/-- `on_accepted` returns, and nothing waits for the next connection. -/
theorem not_served_again : ∃ c g,
    Runs.run observed (Config.start World.new, Watch.start) (acceptRun ++ [.back]) = some (c, g) ∧
      callOuts c.log = [.callback 0 (.onAccepted 1)] ∧ c.state.validAt 0 = true ∧
      c.state.accepts 0 = 0 ∧ ¬ Served (c, g) := by
  obtain ⟨⟨c, g⟩, hr, hcalls, hvalid, haccepts, hlistened, hhandling⟩ : ∃ x,
      Runs.run observed (Config.start World.new, Watch.start) (acceptRun ++ [.back]) = some x ∧
        callOuts x.1.log = [.callback 0 (.onAccepted 1)] ∧ x.1.state.validAt 0 = true ∧
        x.1.state.accepts 0 = 0 ∧ x.2.listened = [0] ∧ x.2.handling = [] :=
    Runs.exists_run (by decide)
  refine ⟨c, g, hr, hcalls, hvalid, haccepts, fun h => ?_⟩
  have hone := h.one 0 (by rw [hlistened]; exact List.mem_singleton_self 0) hvalid
    (by rw [hhandling]; exact List.not_mem_nil)
  rw [haccepts] at hone
  cases hone

end Windows
end AcppNetwork
