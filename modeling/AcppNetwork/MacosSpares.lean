import AcppNetwork.MacosPointers

/-!
# What the macOS sockets leave each other

An operation of a socket changes the filters of its own descriptor, and keeps those as the socket
wants them: `EVFILT_WRITE` stays registered for it, and `EVFILT_READ` active
(`Socket.Serves`).  So as long as no two sockets have the same descriptor (`World.Apart`), what
one does leaves the filters of all the others alone (`World.Calm`).
-/
namespace AcppNetwork
namespace Macos

open Reentrant
open Linux (Callbacks Callback Send Recv Opened Result CallOut)

/-! ## Filters -/

/-- Of the filters that `P` is about, those of `EVFILT_WRITE` stay registered for the same
socket, and those of `EVFILT_READ` stay active. -/
structure Kernel.Spares (P : Int → Nat → Prop) (k k' : Kernel) : Prop where
  writes : ∀ {fd h}, P fd h → (k.writes fd).map Knote.udata = some h →
    (k'.writes fd).map Knote.udata = some h
  reads : ∀ {fd h}, P fd h → k.reads fd = some ⟨h, true⟩ → k'.reads fd = some ⟨h, true⟩

namespace Kernel
variable {P : Int → Nat → Prop} {k k' k'' : Kernel} {fd : Int}

theorem Spares.trans (h : Spares P k k') (h' : Spares P k' k'') : Spares P k k'' :=
  ⟨fun hP hk => h'.writes hP (h.writes hP hk), fun hP hk => h'.reads hP (h.reads hP hk)⟩

theorem Spares.imp {Q : Int → Nat → Prop} (h : Spares P k k')
    (hPQ : ∀ {fd h}, Q fd h → P fd h) : Spares Q k k' :=
  ⟨fun hQ => h.writes (hPQ hQ), fun hQ => h.reads (hPQ hQ)⟩

theorem spares_of_eq (hreads : k'.reads = k.reads) (hwrites : k'.writes = k.writes) :
    Spares P k k' := by
  refine ⟨fun _ hk => ?_, fun _ hk => ?_⟩
  · rw [hwrites]
    exact hk
  · rw [hreads]
    exact hk

theorem spares_addRead (k : Kernel) (fd : Int) (u : Nat) :
    Spares (fun x h => x ≠ fd ∨ h = u) k (k.addRead fd u) := by
  refine ⟨fun _ hk => hk, fun {x h} hP hk => ?_⟩
  show Function.update k.reads fd _ x = _
  by_cases hx : x = fd
  · obtain rfl : h = u := hP.resolve_left (not_not_intro hx)
    subst hx
    rw [Function.update_self, hk]
  · rw [Function.update_of_ne hx]
    exact hk

theorem spares_addWrite (k : Kernel) (fd : Int) (u : Nat) :
    Spares (fun x h => x ≠ fd ∨ h = u) k (k.addWrite fd u) := by
  refine ⟨fun {x h} hP hk => ?_, fun _ hk => hk⟩
  show (Function.update k.writes fd _ x).map Knote.udata = _
  by_cases hx : x = fd
  · obtain rfl : h = u := hP.resolve_left (not_not_intro hx)
    rw [hx, Function.update_self]
    rfl
  · rw [Function.update_of_ne hx]
    exact hk

theorem spares_close (k : Kernel) (fd : Int) : Spares (fun x _ => x ≠ fd) k (k.close fd) := by
  refine ⟨fun {x h} hx hk => ?_, fun {x h} hx hk => ?_⟩
  · show (Function.update k.writes fd Option.none x).map Knote.udata = _
    rw [Function.update_of_ne hx]
    exact hk
  · show Function.update k.reads fd Option.none x = _
    rw [Function.update_of_ne hx]
    exact hk

theorem spares_activate (k : Kernel) (fd : Int) (filter : Filter) :
    Spares P k (k.activate fd filter) := by
  cases filter with
  | read =>
    refine ⟨fun _ hk => hk, fun {x h} _ hk => ?_⟩
    show Function.update k.reads fd _ x = _
    by_cases hx : x = fd
    · subst hx
      rw [Function.update_self, hk]
      rfl
    · rw [Function.update_of_ne hx]
      exact hk
  | write =>
    refine ⟨fun {x h} _ hk => ?_, fun _ hk => hk⟩
    exact (map_udata_activate k.writes).trans hk

/-- What an event takes from the kernel, the loop has. -/
theorem retrieve_held {event : Option (Filter × Int)} {ready : Ready}
    (hret : k.retrieve event = some (k', ready)) :
    (∀ {x h}, (k.writes x).map Knote.udata = some h →
      (k'.writes x).map Knote.udata = some h ∨ ready = .socket .write h) ∧
    ∀ {x h}, k.reads x = some ⟨h, true⟩ →
      k'.reads x = some ⟨h, true⟩ ∨ ready = .socket .read h := by
  unfold retrieve at hret
  split at hret
  · rename_i fd
    split at hret <;> cases hret
    rename_i u hreads
    refine ⟨fun hk => .inl hk, fun {x h} hk => ?_⟩
    by_cases hx : x = fd
    · rw [hx, hreads] at hk
      cases hk
      exact .inr rfl
    · exact .inl ((Function.update_of_ne hx ..).trans hk)
  · rename_i fd
    split at hret <;> cases hret
    rename_i u hwrites
    refine ⟨fun {x h} hk => ?_, fun hk => .inl hk⟩
    by_cases hx : x = fd
    · rw [hx, hwrites] at hk
      cases hk
      exact .inr rfl
    · left
      show (Function.update k.writes fd Option.none x).map Knote.udata = _
      rw [Function.update_of_ne hx]
      exact hk
  · cases hret
    exact ⟨fun hk => .inl hk, fun hk => .inl hk⟩

theorem retrieveAll_held {events : List (Option (Filter × Int))} {ready : List Ready}
    (hret : k.retrieveAll events = some (k', ready)) :
    (∀ {x h}, (k.writes x).map Knote.udata = some h →
      (k'.writes x).map Knote.udata = some h ∨ .socket .write h ∈ ready) ∧
    ∀ {x h}, k.reads x = some ⟨h, true⟩ →
      k'.reads x = some ⟨h, true⟩ ∨ .socket .read h ∈ ready := by
  induction events generalizing k ready with
  | nil =>
    cases hret
    exact ⟨fun hk => .inl hk, fun hk => .inl hk⟩
  | cons event events ih =>
    obtain ⟨⟨k₁, r⟩, hfirst, hrest⟩ := Option.bind_eq_some_iff.mp hret
    obtain ⟨⟨k₂, rs⟩, hall, heq⟩ := Option.bind_eq_some_iff.mp hrest
    cases heq
    obtain ⟨hwrites, hreads⟩ := retrieve_held hfirst
    obtain ⟨hwrites', hreads'⟩ := ih hall
    refine ⟨fun hk => ?_, fun hk => ?_⟩
    · rcases hwrites hk with hk | rfl
      · exact (hwrites' hk).imp_right (List.mem_cons_of_mem _)
      · exact .inr (List.mem_cons_self ..)
    · rcases hreads hk with hk | rfl
      · exact (hreads' hk).imp_right (List.mem_cons_of_mem _)
      · exact .inr (List.mem_cons_self ..)

end Kernel

namespace Socket
variable {s s' s'' : Socket}

/-- An operation of the socket leaves the filters of the others alone, and its own as they are
wanted. -/
structure Serves (s s' : Socket) : Prop where
  arms : s.Arms s'
  listening : s'.pimpl.listening = false → s.pimpl.listening = false
  spares : Kernel.Spares (fun x h => x ≠ s.pimpl.fd ∨ h = s.this) s.kernel s'.kernel

theorem serves_refl (s : Socket) : s.Serves s :=
  ⟨arms_refl s, id, Kernel.spares_of_eq rfl rfl⟩

theorem Serves.trans (h : s.Serves s') (h' : s'.Serves s'') : s.Serves s'' := by
  refine ⟨h.arms.trans h'.arms, fun hl => h.listening (h'.listening hl), ?_⟩
  have hspares := h'.spares
  rw [h.arms.fd, h.arms.this] at hspares
  exact h.spares.trans hspares

theorem serves_setErrno (s : Socket) (e : Nat) : s.Serves (s.setErrno e) :=
  ⟨arms_setErrno s e, id, Kernel.spares_of_eq rfl rfl⟩

theorem serves_askReadEvent (s : Socket) (refused : Option Nat) :
    s.Serves (s.askReadEvent refused).1 := by
  refine ⟨arms_askReadEvent s refused, ?_, ?_⟩ <;> unfold askReadEvent <;> split
  · exact id
  · exact id
  · exact Kernel.spares_of_eq rfl rfl
  · exact Kernel.spares_addRead ..

theorem serves_askWriteEvent (s : Socket) (refused : Option Nat) :
    s.Serves (s.askWriteEvent refused).1 := by
  refine ⟨arms_askWriteEvent s refused, ?_, ?_⟩ <;> unfold askWriteEvent <;> split
  · exact id
  · exact id
  · exact Kernel.spares_of_eq rfl rfl
  · exact Kernel.spares_addWrite ..

theorem serves_connect (s : Socket) (error : Option Nat) : s.Serves (s.connect error).1 := by
  unfold connect
  split
  · exact serves_refl s
  · exact serves_setErrno ..

theorem serves_listen (s : Socket) (error : Option Nat) : s.Serves (s.listen error).1 := by
  refine ⟨arms_listen s error, ?_, ?_⟩ <;> unfold listen <;> split
  · exact fun h => nomatch h
  · exact id
  · exact Kernel.spares_of_eq rfl rfl
  · exact Kernel.spares_of_eq rfl rfl

theorem serves_soWriteInternal (s : Socket) (a : Send) :
    s.Serves (s.soWriteInternal a).socket := by
  cases a with
  | sent n => exact serves_refl s
  | failed e refused =>
    have herrno : s.Serves (s.setErrno e) := serves_setErrno s e
    have hask := herrno.trans (serves_askWriteEvent (s.setErrno e) refused)
    simp only [soWriteInternal]
    split
    · split <;> (rename_i hasked; rw [hasked] at hask; exact hask)
    · exact herrno

theorem serves_soWrite {buffer : List Byte} {as : List Send} {written : Written}
    (h : s.soWrite buffer as = some written) : s.Serves written.socket := by
  induction as generalizing s buffer written with
  | nil => simp [soWrite] at h
  | cons a as ih =>
    have hfirst := serves_soWriteInternal s a
    rw [soWrite] at h
    dsimp only at h
    split at h
    · split at h
      · split at h <;> cases h
        exact hfirst
      · split at h <;> cases h
        exact hfirst
      · obtain ⟨next, hnext, rfl⟩ := Option.map_eq_some_iff.mp h
        have hrest : Serves _ next.socket := ih hnext
        exact hfirst.trans hrest
    · cases h

theorem serves_taken (s : Socket) (a : Opened) : s.Serves (s.taken a) := by
  have htaken := arms_taken s a
  unfold taken at htaken ⊢
  split
  · exact ⟨htaken, id, Kernel.spares_of_eq rfl rfl⟩
  · dsimp only at htaken
    split
    · rename_i h
      rw [if_pos h] at htaken
      exact ⟨htaken, id, Kernel.spares_of_eq rfl rfl⟩
    · exact serves_refl s

theorem serves_getsockopt {w : World} {h : Nat} {p : SocketBasePimpl} {soError err : Nat}
    {k : Kernel} (hget : w.kernel.getsockopt p.fd soError = (k, err)) :
    Serves ⟨h, w.kernel, p⟩ ⟨h, k, { p with connected := true }⟩ := by
  refine ⟨arms_getsockopt hget, id, ?_⟩
  unfold Kernel.getsockopt at hget
  split at hget <;> cases hget <;> exact Kernel.spares_of_eq rfl rfl

/-- `ask_write_event` fails and throws, or the filter is registered for the socket. -/
theorem askWriteEvent_cases (s : Socket) (refused : Option Nat) :
    (∃ e, s.kernel.changeError s.pimpl.fd refused = some e ∧
      s.askWriteEvent refused = (s.setErrno e, false)) ∨
    s.kernel.changeError s.pimpl.fd refused = none ∧
      s.askWriteEvent refused =
        ({ s with kernel := s.kernel.addWrite s.pimpl.fd s.this }, true) := by
  unfold askWriteEvent
  split
  · exact .inl ⟨_, ‹_›, rfl⟩
  · exact .inr ⟨‹_›, rfl⟩

theorem addWrite_udata (k : Kernel) (fd : Int) (u : Nat) :
    ((k.addWrite fd u).writes fd).map Knote.udata = some u := by
  show (Function.update k.writes fd _ fd).map Knote.udata = _
  rw [Function.update_self]
  rfl

/-- A turn of `so_write` is the last one, or it sent something. -/
theorem soWrite_cons {buffer : List Byte} {a : Send} {as : List Send} {written : Written}
    (h : s.soWrite buffer (a :: as) = some written) :
    as = [] ∧ written = s.soWriteInternal a ∨
      ∃ n next, a = .sent n ∧ s.soWrite (buffer.drop n) as = some next ∧
        written.socket = next.socket := by
  rw [soWrite] at h
  dsimp only at h
  split at h
  · cases a with
    | sent n =>
      simp only [soWriteInternal] at h
      split at h
      · cases ‹some n = none›
      · split at h <;> cases h
        exact .inl ⟨‹_›, rfl⟩
      · obtain ⟨next, hnext, rfl⟩ := Option.map_eq_some_iff.mp h
        exact .inr ⟨n, next, rfl, (Option.some.inj ‹some n = some _› ▸ hnext), rfl⟩
    | failed e refused =>
      have hn : (s.soWriteInternal (.failed e refused)).n = none ∨
          (s.soWriteInternal (.failed e refused)).n = some 0 := by
        unfold soWriteInternal
        dsimp only
        split
        · split
          · exact .inr rfl
          · exact .inl rfl
        · exact .inr rfl
      rcases hn with hn | hn <;>
        (simp only [hn] at h
         obtain ⟨hnil, h⟩ := Option.ite_none_right_eq_some.mp h
         exact .inl ⟨hnil, (Option.some.inj h).symm⟩)
  · cases h

/-- A `write` whose last `send` answered `EAGAIN` has asked for the event. -/
theorem soWrite_asks {buffer : List Byte} {as : List Send} {written : Written}
    {refused : Option Nat} (h : s.soWrite buffer as = some written)
    (hlast : as.getLast? = some (.failed EAGAIN refused))
    (hask : s.kernel.changeError s.pimpl.fd refused = none) :
    (written.socket.kernel.writes s.pimpl.fd).map Knote.udata = some s.this := by
  induction as generalizing buffer written with
  | nil => cases hlast
  | cons a as ih =>
    obtain ⟨rfl, rfl⟩ | ⟨n, next, rfl, hnext, heq⟩ := soWrite_cons h
    · obtain rfl : a = .failed EAGAIN refused := by simpa using hlast
      obtain ⟨e, herr, -⟩ | ⟨-, hasked⟩ := askWriteEvent_cases (s.setErrno EAGAIN) refused
      · exact absurd (hask.symm.trans herr) (by simp)
      · simp only [soWriteInternal, if_true, hasked]
        exact addWrite_udata ..
    · rw [heq]
      refine ih hnext ?_
      cases as with
      | nil => cases hlast
      | cons b bs => rwa [List.getLast?_cons_cons] at hlast

end Socket

/-! ## Descriptors of their own -/

namespace World
variable {w w' w'' : World} {h o : Nat} {p : SocketBasePimpl} {s : Socket}

/-- The sockets have open descriptors, and no two the same. -/
structure Apart (w : World) : Prop where
  opened : ∀ {h p}, w.pimpls h = some p → p.valid = true → w.kernel.isOpen p.fd = true
  sole : ∀ {h x p q}, w.pimpls h = some p → w.pimpls x = some q → p.valid = true →
    p.fd = q.fd → x = h

theorem new_apart : World.new.Apart := ⟨fun hp => (nomatch hp), fun hp => (nomatch hp)⟩

/-- What was a socket's is still its: the descriptor, and the filters as it wants them. -/
structure Follows (w w' : World) (h : Nat) (p p' : SocketBasePimpl) : Prop where
  fd : p.fd = p'.fd
  listening : p'.listening = false → p.listening = false
  writes : (w.kernel.writes p.fd).map Knote.udata = some h →
    (w'.kernel.writes p.fd).map Knote.udata = some h
  reads : w.kernel.reads p.fd = some ⟨h, true⟩ → w'.kernel.reads p.fd = some ⟨h, true⟩

/-- The sockets that are open after it are new, or nothing was taken from them. -/
structure Calm (w w' : World) : Prop where
  apart : w'.Apart
  fresh : w.fresh ≤ w'.fresh
  follows : ∀ {h p'}, w'.pimpls h = some p' → p'.valid = true →
    w.fresh ≤ h ∨ ∃ p, w.pimpls h = some p ∧ w.Follows w' h p p'

theorem Calm.trans (h : w.Calm w') (h' : w'.Calm w'') : w.Calm w'' := by
  refine ⟨h'.apart, Nat.le_trans h.fresh h'.fresh, fun {x p''} hp'' hvalid => ?_⟩
  rcases h'.follows hp'' hvalid with hle | ⟨p', hp', hf'⟩
  · exact .inl (Nat.le_trans h.fresh hle)
  · have hvalid' : p'.valid = true := by
      unfold SocketBasePimpl.valid at hvalid ⊢
      rw [hf'.fd]
      exact hvalid
    rcases h.follows hp' hvalid' with hle | ⟨p, hp, hf⟩
    · exact .inl hle
    · refine .inr ⟨p, hp, hf.fd.trans hf'.fd, fun hl => hf.listening (hf'.listening hl),
        fun hk => ?_, fun hk => ?_⟩
      · have hkept := hf.writes hk
        rw [hf.fd] at hkept ⊢
        exact hf'.writes hkept
      · have hkept := hf.reads hk
        rw [hf.fd] at hkept ⊢
        exact hf'.reads hkept

/-- The pimpls are those that were there, with the descriptors they had, and the filters of the
open ones are spared. -/
theorem calm_of (ha : w.Apart) (hfresh : w.fresh ≤ w'.fresh)
    (hopen : ∀ {h p}, w.pimpls h = some p → p.valid = true →
      w.kernel.isOpen p.fd = true → w'.kernel.isOpen p.fd = true)
    (hspares : Kernel.Spares (fun x h => ∃ p, w.pimpls h = some p ∧ p.valid = true ∧ p.fd = x)
      w.kernel w'.kernel)
    (hpimpls : ∀ {h p'}, w'.pimpls h = some p' → ∃ p, w.pimpls h = some p ∧ p.fd = p'.fd ∧
      (p'.listening = false → p.listening = false)) : w.Calm w' := by
  have hvalid : ∀ {p p' : SocketBasePimpl}, p.fd = p'.fd → p'.valid = true → p.valid = true := by
    intro p p' hfd hv
    unfold SocketBasePimpl.valid at hv ⊢
    rw [hfd]
    exact hv
  refine ⟨⟨fun {h p'} hp' hv => ?_, fun {h x p' q'} hp' hq' hv heq => ?_⟩, hfresh,
    fun {h p'} hp' hv => ?_⟩
  · obtain ⟨p, hp, hfd, -⟩ := hpimpls hp'
    rw [← hfd]
    exact hopen hp (hvalid hfd hv) (ha.opened hp (hvalid hfd hv))
  · obtain ⟨p, hp, hfd, -⟩ := hpimpls hp'
    obtain ⟨q, hq, hfd', -⟩ := hpimpls hq'
    exact ha.sole hp hq (hvalid hfd hv) (hfd.trans (heq.trans hfd'.symm))
  · obtain ⟨p, hp, hfd, hlistening⟩ := hpimpls hp'
    have hown : ∃ q, w.pimpls h = some q ∧ q.valid = true ∧ q.fd = p.fd :=
      ⟨p, hp, hvalid hfd hv, rfl⟩
    exact .inr ⟨p, hp, hfd, hlistening, hspares.writes hown, hspares.reads hown⟩

theorem calm_refl (ha : w.Apart) : w.Calm w :=
  calm_of ha (Nat.le_refl _) (fun _ _ hopen => hopen) (Kernel.spares_of_eq rfl rfl)
    fun hp => ⟨_, hp, rfl, id⟩

/-- Nothing happens to a socket. -/
theorem calm_same (ha : w.Apart) (hpimpls : w'.pimpls = w.pimpls) (hfresh : w.fresh ≤ w'.fresh)
    (hopen : ∀ fd, w.kernel.isOpen fd = true → w'.kernel.isOpen fd = true)
    (hspares : Kernel.Spares (fun _ _ => True) w.kernel w'.kernel) : w.Calm w' := by
  refine calm_of ha hfresh (fun _ _ => hopen _) (hspares.imp fun _ => trivial) fun {h p'} hp' => ?_
  rw [hpimpls] at hp'
  exact ⟨p', hp', rfl, id⟩

theorem calm_setErrno (ha : w.Apart) (e : Nat) : w.Calm (w.setErrno e) :=
  calm_same ha rfl (Nat.le_refl _) (fun _ h => h) (Kernel.spares_of_eq rfl rfl)

theorem calm_openFd (ha : w.Apart) (n : Nat) : w.Calm (w.openFd n) := by
  refine calm_same ha rfl (Nat.le_refl _) (fun fd hopen => ?_) (Kernel.spares_of_eq rfl rfl)
  show Function.update w.kernel.isOpen (n : Int) true fd = true
  rw [Function.update_apply]
  split
  · rfl
  · exact hopen

theorem calm_elsewhere (ha : w.Apart) {e : Elsewhere} (he : w.elsewhere e = some w') :
    w.Calm w' := by
  cases e with
  | connects fd =>
    simp only [World.elsewhere] at he
    split at he
    · cases he
      refine calm_same ha rfl (Nat.le_refl _) (fun _ h => h) ?_
      have hbacklog : Kernel.Spares (fun _ _ => True) w.kernel
          (w.kernel.setBacklog fd (w.kernel.backlog fd + 1)) := Kernel.spares_of_eq rfl rfl
      exact hbacklog.trans (Kernel.spares_activate _ fd .read)
    · cases he
  | activates filter fd =>
    cases filter with
    | read =>
      simp only [World.elsewhere] at he
      split at he <;> cases he
      exact calm_same ha rfl (Nat.le_refl _) (fun _ h => h) (Kernel.spares_activate _ fd .read)
    | write =>
      cases he
      exact calm_same ha rfl (Nat.le_refl _) (fun _ h => h) (Kernel.spares_activate _ fd .write)

/-- A socket goes through one of its operations. -/
theorem calm_put (ha : w.Apart) (hp : w.pimpls h = some p)
    (hs : Socket.Serves ⟨h, w.kernel, p⟩ s) : w.Calm (w.put s) := by
  obtain rfl : s.this = h := hs.arms.this
  refine calm_of ha (Nat.le_refl _) (fun _ _ hopen => ?_)
    (hs.spares.imp fun {x y} hy => ?_) fun {x q} hq => ?_
  · show s.kernel.isOpen _ = true
    rw [hs.arms.isOpen]
    exact hopen
  · -- a descriptor that is this socket's is nobody else's
    obtain ⟨q, hq, hvalid, rfl⟩ := hy
    by_cases hfd : q.fd = p.fd
    · exact .inr (ha.sole hq hp hvalid hfd).symm
    · exact .inl hfd
  · change Function.update w.pimpls s.this (some s.pimpl) x = some q at hq
    by_cases hx : x = s.this
    · rw [hx, Function.update_self] at hq
      cases hq
      exact ⟨p, hx ▸ hp, hs.arms.fd.symm, hs.listening⟩
    · rw [Function.update_of_ne hx] at hq
      exact ⟨q, hq, rfl, id⟩

/-- A new socket gets a descriptor that no other one has. -/
theorem calm_create (ha : w.Apart) (ht : w.Tied) {fd : Int}
    (hopen : w.kernel.isOpen fd = true) (hfd : p.fd = fd)
    (hfree : ∀ h q, w.pimpls h = some q → q.valid = true → q.fd ≠ fd) :
    w.Calm ⟨w.kernel.addRead fd w.fresh, Function.update w.pimpls w.fresh (some p),
      Function.update w.objects w.fresh (some (some w.fresh)), w.fresh + 1, w.run⟩ := by
  have hvalid : p.valid = true := by
    have hne : fd ≠ SocketBasePimpl.invalidFd := by
      rintro rfl
      rw [ht.sane] at hopen
      cases hopen
    simpa [SocketBasePimpl.valid, hfd] using hne
  have hcases : ∀ {h q}, Function.update w.pimpls w.fresh (some p) h = some q →
      h = w.fresh ∧ q = p ∨ w.pimpls h = some q := by
    intro h q hq
    by_cases hh : h = w.fresh
    · rw [hh, Function.update_self] at hq
      exact .inl ⟨hh, (Option.some.inj hq).symm⟩
    · rw [Function.update_of_ne hh] at hq
      exact .inr hq
  refine ⟨⟨fun {h q} hq hv => ?_, fun {h x q r} hq hr hv heq => ?_⟩, Nat.le_succ _,
    fun {h q} hq hv => ?_⟩
  · rcases hcases hq with ⟨-, rfl⟩ | hq
    · rw [hfd]
      exact hopen
    · exact ha.opened hq hv
  · have hv' : r.valid = true := by
      unfold SocketBasePimpl.valid at hv ⊢
      rw [← heq]
      exact hv
    rcases hcases hq with ⟨hh, hqp⟩ | hq <;> rcases hcases hr with ⟨hx, hrp⟩ | hr
    · rw [hh, hx]
    · rw [hqp, hfd] at heq
      exact absurd heq.symm (hfree x r hr hv')
    · rw [hrp, hfd] at heq
      exact absurd heq (hfree h q hq hv)
    · exact ha.sole hq hr hv heq
  · rcases hcases hq with ⟨rfl, -⟩ | hq
    · exact .inl (Nat.le_refl _)
    · have hspares := Kernel.spares_addRead w.kernel fd w.fresh
      exact .inr ⟨q, hq, rfl, id, hspares.writes (.inl (hfree h q hq hv)),
        hspares.reads (.inl (hfree h q hq hv))⟩

theorem calm_construct (ha : w.Apart) (ht : w.Tied) (domain type protocol fd : Int)
    (callbacks : Callbacks) (refused : Option Nat)
    (hfree : ∀ h q, w.pimpls h = some q → q.valid = true → q.fd ≠ fd) :
    w.Calm (w.construct domain type protocol fd callbacks refused).1 := by
  obtain ⟨e, heq⟩ | ⟨hopen, heq⟩ := construct_cases w domain type protocol fd callbacks refused
  · rw [heq]
    exact calm_same ha rfl (Nat.le_succ _) (fun _ h => h) (Kernel.spares_of_eq rfl rfl)
  · rw [heq]
    exact calm_create ha ht hopen rfl hfree

/-- The kernel gives out a descriptor that was not open, so no socket has it. -/
theorem Apart.free (ha : w.Apart) {n : Nat} (hclosed : w.kernel.isOpen n = false) :
    ∀ h q, w.pimpls h = some q → q.valid = true → q.fd ≠ n := by
  intro h q hq hvalid heq
  have hopen := ha.opened hq hvalid
  rw [heq, hclosed] at hopen
  cases hopen

/-- Closing a socket takes nothing from the others. -/
theorem calm_closeAt (ha : w.Apart) (h : Nat) : w.Calm (w.closeAt h) := by
  obtain ⟨heq, -⟩ | ⟨p, hp, hvalid, heq⟩ := closeAt_cases w h
  · rw [heq]
    exact calm_refl ha
  · -- the sockets that are open now had another descriptor
    have hother : ∀ {x q}, Function.update w.pimpls h
        (some { p with fd := SocketBasePimpl.invalidFd }) x = some q → q.valid = true →
        w.pimpls x = some q ∧ q.fd ≠ p.fd := by
      intro x q hq hv
      by_cases hx : x = h
      · rw [hx, Function.update_self] at hq
        cases hq
        cases hv
      · rw [Function.update_of_ne hx] at hq
        exact ⟨hq, fun hfd => hx (ha.sole hp hq hvalid hfd.symm)⟩
    rw [heq]
    refine ⟨⟨fun {x q} hq hv => ?_, fun {x y q r} hq hr hv hfd => ?_⟩, Nat.le_refl _,
      fun {x q} hq hv => ?_⟩
    · obtain ⟨hq, hne⟩ := hother hq hv
      exact (Function.update_of_ne hne ..).trans (ha.opened hq hv)
    · have hv' : r.valid = true := by
        unfold SocketBasePimpl.valid at hv ⊢
        rw [← hfd]
        exact hv
      exact ha.sole (hother hq hv).1 (hother hr hv').1 hv hfd
    · obtain ⟨hq, hne⟩ := hother hq hv
      have hspares := Kernel.spares_close w.kernel p.fd
      exact .inr ⟨q, hq, rfl, id, hspares.writes hne, hspares.reads hne⟩

/-- Pimpls are deleted, objects change. -/
theorem calm_sub (ha : w.Apart) (hkernel : w'.kernel = w.kernel) (hfresh : w.fresh ≤ w'.fresh)
    (hpimpls : ∀ {h p'}, w'.pimpls h = some p' → ∃ p, w.pimpls h = some p ∧ p.fd = p'.fd ∧
      (p'.listening = false → p.listening = false)) : w.Calm w' := by
  refine calm_of ha hfresh (fun _ _ hopen => ?_) (Kernel.spares_of_eq ?_ ?_) hpimpls
  · rw [hkernel]
    exact hopen
  · rw [hkernel]
  · rw [hkernel]

theorem calm_delete (ha : w.Apart) (h : Nat) : w.Calm (w.delete h) :=
  calm_sub ha rfl (Nat.le_refl _) fun hp => ⟨_, (update_none_of hp).2, rfl, id⟩

theorem calm_reset (ha : w.Apart) (pimpl : Option Nat) : w.Calm (w.reset pimpl) := by
  cases pimpl with
  | none => exact calm_refl ha
  | some h => exact calm_delete ha h

theorem calm_destruct (ha : w.Apart) (h : w.destruct o = some w') : w.Calm w' := by
  obtain ⟨pimpl, -, rfl⟩ := Option.map_eq_some_iff.mp h
  cases pimpl with
  | none => exact calm_sub ha rfl (Nat.le_refl _) fun hp => ⟨_, hp, rfl, id⟩
  | some x =>
    have hclose := calm_closeAt ha x
    refine hclose.trans (calm_sub hclose.apart rfl (Nat.le_refl _) fun hp => ?_)
    exact ⟨_, (update_none_of hp).2, rfl, id⟩

theorem calm_own (ha : w.Apart) (hown : w.own o h = some w') : w.Calm w' := by
  obtain ⟨p, hp, rfl⟩ := own_some hown
  refine calm_sub ha rfl (Nat.le_refl _) fun {x q} hq => ?_
  change Function.update w.pimpls h (some { p with parent := o }) x = some q at hq
  by_cases hx : x = h
  · rw [hx, Function.update_self] at hq
    cases hq
    exact ⟨p, hx ▸ hp, rfl, id⟩
  · rw [Function.update_of_ne hx] at hq
    exact ⟨q, hq, rfl, id⟩

theorem calm_assign (ha : w.Apart) {other : Nat} (h : w.assign o other = some w') :
    w.Calm w' := by
  obtain ⟨s, pimpl, -, -, hown⟩ := assign_some h
  have hrelease : w.Calm (w.release other) :=
    calm_sub ha rfl (Nat.le_refl _) fun hp => ⟨_, hp, rfl, id⟩
  have hreset := calm_reset hrelease.apart pimpl
  exact (hrelease.trans hreset).trans (calm_own hreset.apart hown)

/-- The new socket asks for its events, or is destroyed again. -/
theorem calm_accepted (ha : w.Apart) (ht : w.Tied) (s : Socket) (rest : List Ready)
    (refused again : Option Nat) {n : Nat}
    (hfree : ∀ h q, w.pimpls h = some q → q.valid = true → q.fd ≠ n) :
    w.Calm (w.accepted s rest refused again n).state := by
  have hmade := calm_construct ha ht s.pimpl.domain s.pimpl.type s.pimpl.protocol n noCallbacks
    refused hfree
  unfold accepted
  obtain ⟨e, heq⟩ | ⟨-, heq⟩ := construct_cases w s.pimpl.domain s.pimpl.type s.pimpl.protocol n
    noCallbacks refused
  · rw [heq] at hmade ⊢
    exact hmade
  · rw [heq] at hmade ⊢
    have hasks := Socket.serves_askReadEvent ⟨w.fresh, w.kernel.addRead n w.fresh,
      .new s.pimpl.domain s.pimpl.type s.pimpl.protocol n noCallbacks w.fresh⟩ again
    dsimp only
    split
    · rename_i new hask
      rw [hask] at hasks
      have hconnected : Socket.Serves new
          { new with pimpl := { new.pimpl with connected := true } } :=
        ⟨⟨rfl, rfl, rfl, rfl, .inl⟩, id, Kernel.spares_of_eq rfl rfl⟩
      exact hmade.trans
        (calm_put hmade.apart (Function.update_self ..) (hasks.trans hconnected))
    · rename_i new hask
      rw [hask] at hasks
      have hput := calm_put hmade.apart (Function.update_self ..) hasks
      exact (hmade.trans hput).trans
        (calm_destruct hput.apart (destruct_put (Function.update_self ..) new))

theorem calm_acceptBranch (ha : w.Apart) (ht : w.Tied) (hp : w.pimpls h = some p)
    (rest : List Ready) (refused again : Option Nat) {a : Opened} (hopens : w.Opens a) :
    w.Calm (w.acceptBranch ⟨h, w.kernel, p⟩ rest refused again a).state := by
  have htaken := Socket.serves_taken ⟨h, w.kernel, p⟩ a
  cases a with
  | failed e =>
    rw [World.acceptBranch, callThen_state]
    exact calm_put ha hp (htaken.trans (Socket.serves_setErrno ..))
  | fd n =>
    have hput := calm_put ha hp htaken
    have hopened := hput.trans (calm_openFd hput.apart n)
    unfold World.acceptBranch
    dsimp only
    split
    · have hfree := hput.apart.free (n := n) ((congrFun htaken.arms.isOpen _).trans hopens)
      exact hopened.trans
        (calm_accepted hopened.apart ((ht.put hp htaken.arms).openFd n) _ _ _ _ hfree)
    · exact hopened

end World
end Macos
end AcppNetwork
