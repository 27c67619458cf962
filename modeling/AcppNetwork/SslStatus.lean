import AcppNetwork.SslShutdown
import AcppNetwork.SslWrite

/-!
# The status of `ssl::stream`

`status_` is assigned at seven places, some of them in code that goes on after a layer
was called and may have called back.  The values assigned along a run are its history
(`observed`); every value is the one before it or follows it by one of six edges, and no
operation is ever in a state it throws in (`status_orderly`).

Two things carry the argument.  While the stream has sent no close_notify of its own, an
activation of `on_received` that is feeding the engine finds the status it was entered in
(`Orderly.feeding`): only `disconnect` and the answer to the peer's close_notify lead
away from it, and both send one before anything else can run.  And the transport
connects before it hands up anything, so that `on_connected` finds the stream as it was
made (`Orderly.unstarted`).
-/
namespace AcppNetwork
namespace Ssl

open Reentrant

/-! ## What is assigned -/

/-- The changes of `status_`. -/
def Status.Edge : Status → Status → Prop
  | .closed, .connecting | .connecting, .connected | .connecting, .closed | .connected, .closing
  | .connected, .peerClosing | .closing, .closed => True
  | _, _ => False

/-- A value that is assigned changes the status along an edge, or not. -/
def Status.Moves (a b : Status) : Prop := a = b ∨ a.Edge b

/-- The values that calling an operation assigns. -/
def enterAssigns (s : Stream) : Op → List Status
  | .disconnect => if s.status = .connected then [.closing] else []
  | _ => []

/-- The values that a stretch of code assigns: `do_connect` two, if the handshake call
does not want to go on, and `do_shutdown` one, if `SSL_shutdown` does not fail. -/
def assigns : Frame → Answer → List Status
  | .doConnect _, .engine a =>
      .connecting :: if a.result = 0 then [.closed] else if a.result = 1 then [.connected] else []
  | .doShutdown _, .engine a =>
      if a.result = 0 then [.closing] else if a.result = 1 then [.closed] else []
  | .checkShutdown, .engine _ => [.peerClosing]
  | _, _ => []

/-- The values that an event assigns. -/
def eventAssigns (c : Configuration) (e : Event Op Answer) : List Status :=
  match e with
  | .call o => enterAssigns c.state o
  | .code a | .unwind a _ =>
      match c.stack with
      | .code f :: _ => assigns f a
      | _ => []
  | .back => []

/-- A stream with the values assigned to `status_` so far. -/
def observed : Configuration × List Status → Event Op Answer →
    Option (Configuration × List Status) :=
  Runs.observe (step object) fun c e hist => hist ++ eventAssigns c e

/-- The values `l` were assigned after `a`, `b` being the last of them. -/
structure Follows (a : Status) (l : List Status) (b : Status) : Prop where
  chain : List.IsChain Status.Moves (a :: l)
  last : l.getLastD a = b

theorem Follows.refl (a : Status) : Follows a [] a := ⟨.singleton a, rfl⟩

theorem Follows.one {a b : Status} (h : a.Moves b) : Follows a [b] b :=
  ⟨.cons_cons h (.singleton b), rfl⟩

theorem Follows.cons {a b c : Status} {l : List Status} (h : a.Moves b) (h' : Follows b l c) :
    Follows a (b :: l) c where
  chain := List.isChain_cons_cons.mpr ⟨h, h'.chain⟩
  last := by
    rw [List.getLastD_cons]
    exact h'.last

theorem Follows.trans {a b c : Status} {l m : List Status} (h : Follows a l b)
    (h' : Follows b m c) : Follows a (l ++ m) c := by
  induction l generalizing a with
  | nil =>
    obtain rfl : a = b := h.last
    exact h'
  | cons x l ih =>
    obtain ⟨hax, hchain⟩ := List.isChain_cons_cons.mp h.chain
    refine .cons hax (ih ⟨hchain, ?_⟩)
    rw [← h.last, List.getLastD_cons]

/-- Nothing follows `peer_closing`. -/
theorem Follows.peerClosing {a b : Status} {l : List Status} (h : Follows a l b)
    (hmem : .peerClosing ∈ a :: l) : b = .peerClosing := by
  induction l generalizing a with
  | nil =>
    obtain rfl := List.mem_singleton.mp hmem
    exact h.last.symm
  | cons x l ih =>
    obtain ⟨hax, hchain⟩ := List.isChain_cons_cons.mp h.chain
    refine ih ⟨hchain, by rw [← h.last, List.getLastD_cons]⟩ ?_
    rcases List.mem_cons.mp hmem with rfl | hmem
    · rcases hax with rfl | hedge
      · exact List.mem_cons_self ..
      · cases x <;> exact hedge.elim
    · exact hmem

/-! ## What is promised -/

/-- The calls by which the transport starts a connection. -/
def Op.starts : Op → Bool
  | .onConnected | .onReceived _ => true
  | _ => false

/-- The transport has neither connected nor handed up anything. -/
def Unstarted (os : List Op) : Prop := ∀ o ∈ os, o.starts = false

/-- `SSL_shutdown` sets `SSL_SENT_SHUTDOWN`. -/
def Shuts (s : Stream) (f : Frame) (ans : Answer) : Prop :=
  match f, ans with
  | .doShutdown _, .engine a | .checkShutdown, .engine a => (s.engine a).sentShutdown = true
  | _, _ => True

/-- The transport connects once at most, before it hands up anything. -/
def ConnectsFirst (c : Configuration) : Event Op Answer → Prop
  | .call .onConnected => Unstarted (calls c.log)
  | _ => True

/-- What the transport and the engine promise. -/
structure Promised (c : Configuration) (e : Event Op Answer) : Prop where
  connects : ConnectsFirst c e
  shuts : Before (fun s f _ a => Shuts s f a) c e

instance (s : Stream) (f : Frame) (ans : Answer) : Decidable (Shuts s f ans) := by
  rcases f with ⟨⟩ <;> rcases ans with ⟨⟩ <;> unfold Shuts <;> infer_instance

instance (c : Configuration) (e : Event Op Answer) : Decidable (ConnectsFirst c e) := by
  unfold ConnectsFirst
  split
  · exact inferInstanceAs (Decidable (∀ o ∈ calls c.log, o.starts = false))
  · infer_instance

instance (c : Configuration) (e : Event Op Answer) : Decidable (Promised c e) :=
  decidable_of_iff (ConnectsFirst c e ∧ Before (fun s f _ a => Shuts s f a) c e)
    ⟨fun h => ⟨h.1, h.2⟩, fun h => ⟨h.connects, h.shuts⟩⟩

/-! ## The invariant -/

/-- The frames of `on_received` of a connected stream, up to the close_notify. -/
def Frame.Feeds : Frame → Prop
  | .feed _ _ | .feedRead _ _ | .feedWrite _ _ | .checkShutdown => True
  | _ => False

/-- What holds of a stream, the activations of its operations and the calls of them. -/
structure Orderly (s : Stream) (fs : List Frame) (os : List Op) : Prop where
  connects : ∀ buf, .doConnect buf ∈ fs → s.mayConnect = true
  closes : ∀ buf, .doShutdown buf ∈ fs → s.status = .closing
  unstarted : Unstarted os → s.status = .closed ∧ ∀ f ∈ fs, f.Idle
  feeding : s.sentShutdown = false → ∀ f ∈ fs, f.Feeds →
    s.status = .connected ∨ ∃ buf, fs.head? = some (.doShutdown buf)

variable {s : Stream} {f : Frame} {fs : List Frame} {os : List Op} {ans : Answer} {out : Next}

theorem Orderly.start (side : Side) (hostname : String) (capacity : Nat) :
    Orderly (.new side hostname capacity) [] [] where
  connects _ h := by cases h
  closes _ h := by cases h
  unstarted _ := ⟨rfl, fun _ h => by cases h⟩
  feeding _ _ h := by cases h

theorem unstarted_append {o : Op} (h : Unstarted (os ++ [o])) :
    Unstarted os ∧ o.starts = false :=
  ⟨fun o' ho' => h o' (List.mem_append_left _ ho'),
    h o (List.mem_append_right _ (List.mem_singleton_self o))⟩

/-- While every activation waits, a feeding one finds the stream connected. -/
theorem Orderly.connected (h : Orderly s fs os) (hwait : ∀ f ∈ fs, f.Waits)
    (hsent : s.sentShutdown = false) (hf : f ∈ fs) (hfeeds : f.Feeds) : s.status = .connected := by
  obtain hst | ⟨buf, hhead⟩ := h.feeding hsent f hf hfeeds
  · exact hst
  · exact (hwait _ (List.mem_of_head? hhead)).elim

/-- Likewise while an activation runs that is not at the start of `do_shutdown`. -/
theorem Orderly.connected_under {g : Frame} (h : Orderly s (f :: fs) os)
    (hf : ∀ buf, f ≠ .doShutdown buf) (hsent : s.sentShutdown = false) (hg : g ∈ f :: fs)
    (hfeeds : g.Feeds) : s.status = .connected := by
  obtain hst | ⟨buf, hhead⟩ := h.feeding hsent g hg hfeeds
  · exact hst
  · exact absurd (Option.some.inj hhead) (hf buf)

/-! ## Calls -/

/-- An operation that starts without a change of the status, at a frame that is in order. -/
theorem Orderly.push {o : Op} {g : Frame} (h : Orderly s fs os) (hwait : ∀ f ∈ fs, f.Waits)
    (hconnect : ∀ buf, g = .doConnect buf → s.mayConnect = true)
    (hclose : ∀ buf, g = .doShutdown buf → s.status = .closing)
    (hidle : Unstarted (os ++ [o]) → g.Idle) (hfeed : g.Feeds → s.status = .connected) :
    Orderly s (g :: fs) (os ++ [o]) where
  connects buf hmem := by
    rcases List.mem_cons.mp hmem with hg | hmem
    · exact hconnect buf hg.symm
    · exact (hwait _ hmem).elim
  closes buf hmem := by
    rcases List.mem_cons.mp hmem with hg | hmem
    · exact hclose buf hg.symm
    · exact (hwait _ hmem).elim
  unstarted hun := by
    obtain ⟨hst, hfs⟩ := h.unstarted (unstarted_append hun).1
    exact ⟨hst, List.forall_mem_cons.mpr ⟨hidle hun, hfs⟩⟩
  feeding hsent f hmem hfeeds := by
    rcases List.mem_cons.mp hmem with rfl | hmem
    · exact .inl (hfeed hfeeds)
    · exact .inl (h.connected hwait hsent hmem hfeeds)

/-- Calling an operation keeps the order, if `on_connected` comes first. -/
theorem Orderly.enter {o : Op} (h : Orderly s fs os) (hwait : ∀ f ∈ fs, f.Waits)
    (hconnects : o = .onConnected → Unstarted os) :
    Orderly (Ssl.enter s o).1 ((Ssl.enter s o).2 :: fs) (os ++ [o]) ∧
      Follows s.status (enterAssigns s o) (Ssl.enter s o).1.status := by
  cases o with
  | onConnected =>
    have hclosed := (h.unstarted (hconnects rfl)).1
    have hmay : s.mayConnect = true := by simp [Stream.mayConnect, hclosed]
    have hnot : ¬ Unstarted (os ++ [.onConnected]) := by
      intro hun
      cases (unstarted_append hun).2
    simp only [Ssl.enter]
    split
    · exact ⟨h.push hwait (fun _ _ => hmay) (fun _ heq => by cases heq)
        (fun hun => absurd hun hnot) False.elim, .refl _⟩
    · exact ⟨h.push hwait (fun _ heq => by cases heq) (fun _ heq => by cases heq)
        (fun hun => absurd hun hnot) False.elim, .refl _⟩
  | onReceived buf =>
    have hnot : ¬ Unstarted (os ++ [.onReceived buf]) := by
      intro hun
      cases (unstarted_append hun).2
    cases hst : s.status with
    | closed | connecting =>
      have hmay : s.mayConnect = true := by simp [Stream.mayConnect, hst]
      simp only [Ssl.enter, hst]
      exact ⟨h.push hwait (fun _ _ => hmay) (fun _ heq => by cases heq)
        (fun hun => absurd hun hnot) False.elim, .refl _⟩
    | closing =>
      simp only [Ssl.enter, hst]
      exact ⟨h.push hwait (fun _ heq => by cases heq) (fun _ _ => hst)
        (fun hun => absurd hun hnot) False.elim, .refl _⟩
    | connected =>
      simp only [Ssl.enter, hst]
      exact ⟨h.push hwait (fun _ heq => by cases heq) (fun _ heq => by cases heq)
        (fun hun => absurd hun hnot) (fun _ => hst), .refl _⟩
    | peerClosing =>
      simp only [Ssl.enter, hst]
      exact ⟨h.push hwait (fun _ heq => by cases heq) (fun _ heq => by cases heq)
        (fun hun => absurd hun hnot) False.elim, .refl _⟩
  | write buf =>
    simp only [Ssl.enter]
    split
    next hst =>
      refine ⟨h.push hwait (fun _ heq => by cases heq) (fun _ heq => by cases heq)
        (fun hun => ?_) False.elim, .refl _⟩
      rw [(h.unstarted (unstarted_append hun).1).1] at hst
      cases hst
    next hst =>
      exact ⟨h.push hwait (fun _ heq => by cases heq) (fun _ heq => by cases heq)
        (fun _ => trivial) False.elim, .refl _⟩
  | disconnect =>
    simp only [Ssl.enter, enterAssigns]
    split
    next hst =>
      refine ⟨?_, .one (.inr (by rw [hst]; trivial))⟩
      constructor
      · intro buf hmem
        rcases List.mem_cons.mp hmem with hg | hmem
        · cases hg
        · exact (hwait _ hmem).elim
      · exact fun _ _ => rfl
      · intro hun
        rw [(h.unstarted (unstarted_append hun).1).1] at hst
        cases hst
      · exact fun _ _ _ _ => .inr ⟨[], rfl⟩
    next hst =>
      exact ⟨h.push hwait (fun _ heq => by cases heq) (fun _ heq => by cases heq)
        (fun _ => trivial) False.elim, .refl _⟩
  | onDisconnected =>
    exact ⟨h.push hwait (fun _ heq => by cases heq) (fun _ heq => by cases heq)
      (fun _ => trivial) False.elim, .refl _⟩

/-! ## Stretches -/

/-- A stretch that leaves the status as it is and goes on at frames that are in order:
at one that feeds only from one that did. -/
theorem Orderly.goOn {s' : Stream} {gs : List Frame} (h : Orderly s (f :: fs) os)
    (hwait : ∀ f ∈ fs, f.Waits) (hf : ∀ buf, f ≠ .doShutdown buf) (hst : s'.status = s.status)
    (hsent : s'.sentShutdown = false → s.sentShutdown = false)
    (hconnect : ∀ buf, .doConnect buf ∉ gs) (hclose : ∀ buf, .doShutdown buf ∉ gs)
    (hidle : f.Idle → gs = []) (hfeed : ∀ g ∈ gs, g.Feeds → f.Feeds) :
    Orderly s' (gs ++ fs) os where
  connects buf hmem := by
    rcases List.mem_append.mp hmem with hmem | hmem
    · exact absurd hmem (hconnect buf)
    · exact (hwait _ hmem).elim
  closes buf hmem := by
    rcases List.mem_append.mp hmem with hmem | hmem
    · exact absurd hmem (hclose buf)
    · exact (hwait _ hmem).elim
  unstarted hun := by
    obtain ⟨hclosed, hfs⟩ := h.unstarted hun
    obtain ⟨hfi, hfs⟩ := List.forall_mem_cons.mp hfs
    rw [hidle hfi, hst]
    exact ⟨hclosed, hfs⟩
  feeding hs' g hmem hg := by
    rw [hst]
    rcases List.mem_append.mp hmem with hmem | hmem
    · exact .inl (h.connected_under hf (hsent hs') (List.mem_cons_self ..) (hfeed g hmem hg))
    · exact .inl (h.connected_under hf (hsent hs') (List.mem_cons_of_mem _ hmem) hg)

/-- A stretch that assigns goes on at a frame that does not feed. -/
theorem Orderly.assigned {s' : Stream} {g : Frame} (h : Orderly s (f :: fs) os)
    (hwait : ∀ f ∈ fs, f.Waits) (hf : ¬ f.Idle)
    (hg : ∀ buf, g ≠ .doConnect buf ∧ g ≠ .doShutdown buf) (hfeeds : ¬ g.Feeds)
    (hunder : s'.sentShutdown = false → ∀ f ∈ fs, ¬ f.Feeds) : Orderly s' (g :: fs) os where
  connects buf hmem := by
    rcases List.mem_cons.mp hmem with heq | hmem
    · exact absurd heq.symm (hg buf).1
    · exact (hwait _ hmem).elim
  closes buf hmem := by
    rcases List.mem_cons.mp hmem with heq | hmem
    · exact absurd heq.symm (hg buf).2
    · exact (hwait _ hmem).elim
  unstarted hun := absurd ((h.unstarted hun).2 _ (List.mem_cons_self ..)) hf
  feeding hsent g' hmem hg' := by
    rcases List.mem_cons.mp hmem with rfl | hmem
    · exact absurd hg' hfeeds
    · exact absurd hg' (hunder hsent g' hmem)

/-- A stretch that assigns nothing. -/
theorem Orderly.quiet (h : Orderly s (f :: fs) os) (hwait : ∀ f ∈ fs, f.Waits)
    (hs : Stretch s f ans out) (hf : ∀ buf, f ≠ .doShutdown buf ∧ f ≠ .doConnect buf)
    (hassign : assigns f ans = []) :
    out.throws = false ∧ Orderly out.state (out.frames ++ fs) os ∧
      out.state.status = s.status := by
  have hgo : ∀ {s' : Stream} {gs : List Frame}, s'.status = s.status →
      (s'.sentShutdown = false → s.sentShutdown = false) → (∀ buf, .doConnect buf ∉ gs) →
      (∀ buf, .doShutdown buf ∉ gs) → (f.Idle → gs = []) → (∀ g ∈ gs, g.Feeds → f.Feeds) →
      Orderly s' (gs ++ fs) os := h.goOn hwait (fun buf => (hf buf).1)
  have hsame : ∀ buf, .doConnect buf ∉ [f] ∧ .doShutdown buf ∉ [f] := fun buf =>
    ⟨fun hmem => (hf buf).2 (List.mem_singleton.mp hmem).symm,
      fun hmem => (hf buf).1 (List.mem_singleton.mp hmem).symm⟩
  have hsent : ∀ {a : Reply}, (s.engine a).sentShutdown = false → s.sentShutdown = false := by
    intro a ha
    rw [Stream.engine_sentShutdown, Bool.or_eq_false_iff] at ha
    exact ha.1
  cases hs with
  | handshake hmay ha => exact absurd rfl (hf _).2
  | connectThrow hmay => exact absurd rfl (hf _).2
  | shutdown hst ha => exact absurd rfl (hf _).1
  | shutdownThrow hst => exact absurd rfl (hf _).1
  | answerShutdown hflags ha => cases hassign
  | write hdrains hout =>
    refine ⟨rfl, hgo rfl id (fun buf => (hsame buf).1) (fun buf => (hsame buf).2) (fun hidle => ?_)
      (fun g hg => ?_), rfl⟩
    · cases f <;> first | exact hdrains.elim | exact hidle.elim
    · rw [List.mem_singleton.mp hg]
      exact id
  | read hreads ha hpos =>
    refine ⟨rfl, hgo rfl hsent (fun buf => (hsame buf).1) (fun buf => (hsame buf).2)
      (fun hidle => ?_) (fun g hg => ?_), rfl⟩
    · cases f <;> first | exact hreads.elim | exact hidle.elim
    · rw [List.mem_singleton.mp hg]
      exact id
  | readEnd hf' ha hend =>
    exact ⟨rfl, hgo rfl hsent nofun nofun (fun _ => rfl) nofun, rfl⟩
  | feedEnd | writeEnd | rejected | done =>
    exact ⟨rfl, hgo rfl id nofun nofun (fun _ => rfl) nofun, rfl⟩
  | connectDrained | shutdownDrained | feedDrained | writeDrained | notifyConnected
  | skipConnected | notifyDisconnected | skipDisconnected | feed | feedDone | noShutdown
  | writeDone =>
    refine ⟨rfl, hgo rfl id ?_ ?_ False.elim ?_, rfl⟩ <;> simp [Outcome.frames, Frame.Feeds]
  | feedReadEnd | writeTook | writeBroke =>
    refine ⟨rfl, hgo rfl hsent ?_ ?_ False.elim ?_, rfl⟩ <;> simp [Outcome.frames, Frame.Feeds]

/-- A stretch keeps the order, assigns along the edges, and does not throw. -/
theorem Orderly.stretch (h : Orderly s (f :: fs) os) (hwait : ∀ f ∈ fs, f.Waits)
    (hshuts : Shuts s f ans) (hs : Stretch s f ans out) :
    out.throws = false ∧ Orderly out.state (out.frames ++ fs) os ∧
      Follows s.status (assigns f ans) out.state.status := by
  have hquiet : (∀ buf, f ≠ .doShutdown buf ∧ f ≠ .doConnect buf) → assigns f ans = [] →
      out.throws = false ∧ Orderly out.state (out.frames ++ fs) os ∧
        Follows s.status (assigns f ans) out.state.status := by
    intro hf hassign
    obtain ⟨hthrow, horder, hst⟩ := h.quiet hwait hs hf hassign
    exact ⟨hthrow, horder, by rw [hassign, hst]; exact .refl _⟩
  cases hs with
  | @handshake buf a hmay ha =>
    have hmoves : Status.Moves s.status .connecting := by
      simp only [Stream.mayConnect, Bool.or_eq_true, decide_eq_true_eq] at hmay
      rcases hmay with hst | hst
      · exact .inr (hst ▸ trivial)
      · exact .inl hst
    refine ⟨rfl, h.assigned hwait id (by simp) id ?_, .cons hmoves ?_⟩
    · -- a feeding activation under it would have found the stream connected
      intro hsent g hmem hg
      have hbefore : ((s.beforeHandshake buf).engine a).sentShutdown = false := hsent
      rw [Stream.engine_sentShutdown, Stream.beforeHandshake_sentShutdown,
        Bool.or_eq_false_iff] at hbefore
      have hst := h.connected_under (fun _ heq => by cases heq) hbefore.1
        (List.mem_cons_of_mem _ hmem) hg
      simp [Stream.mayConnect, hst] at hmay
    · show Follows .connecting _ (Stream.statusConnecting a.result)
      rw [Stream.statusConnecting]
      split
      · exact .one (.inr trivial)
      · split
        · exact .one (.inr trivial)
        · exact .refl _
  | @connectThrow buf hmay =>
    rw [h.connects buf (List.mem_cons_self ..)] at hmay
    cases hmay
  | @shutdown buf a hst ha =>
    refine ⟨rfl, h.assigned hwait id (by simp) id fun hsent => ?_, ?_⟩
    · have hfed : ((s.feedOnce buf).engine a).sentShutdown = false := hsent
      rw [Stream.engine_sentShutdown, Stream.feedOnce_sentShutdown] at hfed
      rw [show (s.sentShutdown || a.closeNotifySent) = true from hshuts] at hfed
      cases hfed
    · show Follows s.status (assigns _ _) (Stream.statusClosing a.result)
      rw [hst, assigns, Stream.statusClosing]
      split
      next hzero =>
        rw [if_neg (by omega)]
        exact .one (.inl rfl)
      next hzero =>
        split
        · exact .one (.inr trivial)
        · exact .refl _
  | @shutdownThrow buf hst => exact absurd (h.closes buf (List.mem_cons_self ..)) hst
  | @answerShutdown a hflags ha =>
    have hsent : s.sentShutdown = false := by
      simp only [Stream.onlyReceived, Bool.and_eq_true, Bool.not_eq_true'] at hflags
      exact hflags.2
    have hst := h.connected_under (fun _ heq => by cases heq) hsent (List.mem_cons_self ..) trivial
    refine ⟨rfl, h.assigned hwait id (by simp) id fun hsent' => ?_, ?_⟩
    · have hanswered : (s.sentShutdown || a.closeNotifySent) = false := hsent'
      rw [show (s.sentShutdown || a.closeNotifySent) = true from hshuts] at hanswered
      cases hanswered
    · show Follows s.status [.peerClosing] .peerClosing
      rw [hst]
      exact .one (.inr trivial)
  | write hf hout =>
    cases f <;> first | exact hf.elim | exact hquiet (by simp) rfl
  | read hf ha hpos =>
    cases f <;> first | exact hf.elim | exact hquiet (by simp) rfl
  | readEnd hf ha hend =>
    rcases hf with rfl | rfl
    · exact hquiet (by simp) rfl
    · exact hquiet (by simp) rfl
  | _ => exact hquiet (by simp) rfl

/-! ## Runs -/

/-- What holds after every step of a run that keeps the promises. -/
structure Steady (x : Configuration × List Status) : Prop where
  waiting : Waiting Frame.Waits x.1.stack
  orderly : Orderly x.1.state (frames x.1.stack) (calls x.1.log)
  follows : Follows .closed x.2 x.1.state.status
  unthrown : .thrown ∉ x.1.log

theorem Steady.step {x x' : Configuration × List Status} {e : Event Op Answer} (h : Steady x)
    (hp : Promised x.1 e) (hstep : observed x e = some x') : Steady x' := by
  obtain ⟨c, hist⟩ := x
  obtain ⟨c', hist'⟩ := x'
  obtain ⟨hc, rfl⟩ : Reentrant.step object c e = some c' ∧ hist' = hist ++ eventAssigns c e :=
    Runs.observe_some.mp hstep
  have hs := Step.of_step hc
  have hwaiting : Waiting Frame.Waits c'.stack :=
    h.waiting.step (fun _ _ _ _ _ _ _ hres => (stretch_of_resume hres).waits) hs
  obtain ⟨hwait, horder, hfollows, hthrown⟩ := h
  cases hs with
  | @call s stack log o hout =>
    have hfirst : o = .onConnected → Unstarted (calls log) := by
      rintro rfl
      exact hp.connects
    obtain ⟨horder', hassign⟩ := horder.enter (hwait.2 hout) hfirst
    refine ⟨hwaiting, ?_, hfollows.trans hassign, by simpa using hthrown⟩
    show Orderly _ _ (calls (log ++ [.call o]))
    rw [calls_append, calls_call]
    exact horder'
  | @goto s f rest log a s' g ns hres =>
    obtain ⟨-, horder', hassign⟩ := horder.stretch hwait.1 hp.shuts (stretch_of_resume hres)
    refine ⟨hwaiting, ?_, hfollows.trans hassign, by simpa using hthrown⟩
    simp only [calls_append, calls_map_note, List.append_nil]
    exact horder'
  | @callOut s f rest log a s' g k ns hres =>
    obtain ⟨-, horder', hassign⟩ := horder.stretch hwait.1 hp.shuts (stretch_of_resume hres)
    refine ⟨hwaiting, ?_, hfollows.trans hassign, by simpa using hthrown⟩
    simp only [calls_append, calls_map_note, calls_callOut, List.append_nil]
    exact horder'
  | @ret s f rest log a s' r ns hres =>
    obtain ⟨-, horder', hassign⟩ := horder.stretch hwait.1 hp.shuts (stretch_of_resume hres)
    refine ⟨hwaiting, ?_, hfollows.trans hassign, by simpa using hthrown⟩
    simp only [calls_append, calls_map_note, calls_ret, List.append_nil]
    exact horder'
  | @unwind s f rest log a s' ns depth hres hout =>
    obtain ⟨hthrow, -, -⟩ := horder.stretch hwait.1 hp.shuts (stretch_of_resume hres)
    cases hthrow
  | back =>
    refine ⟨hwaiting, by simpa using horder, ?_, hthrown⟩
    simpa [eventAssigns] using hfollows

/-- The status of a stream over a run, with the values assigned to it on the way. -/
structure StatusKept (c : Configuration) (hist : List Status) : Prop where
  edges : List.IsChain Status.Moves (.closed :: hist)
  current : hist.getLastD .closed = c.state.status
  peerClosing : .peerClosing ∈ hist → c.state.status = .peerClosing
  unthrown : .thrown ∉ c.log
  writes : ∀ w, .writeLoop w ∈ frames c.stack → w.status = .connected

/-- **The status keeps to its edges**: in every run of a stream, whatever the engine
answers and whoever calls in from wherever, as long as the transport connects once at
most, before it hands up anything, and `SSL_shutdown` sets `SSL_SENT_SHUTDOWN`.  The
values assigned follow one another along the edges, `peer_closing` is never left, nothing
is thrown, and the `write` calls that give data to `SSL_write` were entered in status
connected. -/
theorem status_orderly {side : Side} {hostname : String} {capacity : Nat}
    {es : List (Event Op Answer)} {c : Configuration} {hist : List Status}
    (hr : Runs.run observed (Config.start (.new side hostname capacity), []) es = some (c, hist))
    (hp : Runs.Along observed (fun x e => Promised x.1 e)
      (Config.start (.new side hostname capacity), []) es) : StatusKept c hist := by
  have hstart : Steady (Config.start (.new side hostname capacity), []) :=
    ⟨waiting_of_all nofun, .start side hostname capacity, .refl _, nofun⟩
  have h : Steady (c, hist) :=
    Runs.run_invariant_along (I := Steady) (fun _ _ _ h hp hstep => h.step hp hstep) hstart hp hr
  refine ⟨h.follows.chain, h.follows.last, fun hmem => ?_, h.unthrown, fun w hmem => ?_⟩
  · exact h.follows.peerClosing (List.mem_cons_of_mem _ hmem)
  · have hgoing := (Reentrant.locally (fun s o => enter_writeOk s o)
      (fun _ _ _ _ hf h => stretch_writeOk hf (stretch_of_resume h))
      (Runs.run_observe.mp ⟨hist, hr⟩)).1 _ hmem
    exact hgoing.status

/-- A client connects, and disconnects; the peer answers. -/
theorem status_orderly_disconnect : ∃ c hist,
    Runs.run observed (Config.start (.ofContext .client ""), []) (handshakeRun ++ disconnectRun)
        = some (c, hist) ∧
      hist = [.connecting, .connecting, .connected, .closing, .closing, .closed] ∧
      StatusKept c hist := by
  obtain ⟨⟨c, hist⟩, hr, hhist⟩ : ∃ x, Runs.run observed
      (Config.start (.ofContext .client ""), []) (handshakeRun ++ disconnectRun) = some x ∧
        x.2 = [.connecting, .connecting, .connected, .closing, .closing, .closed] :=
    Runs.exists_run (by decide)
  exact ⟨c, hist, hr, hhist, status_orderly hr (by decide)⟩

end Ssl
end AcppNetwork
