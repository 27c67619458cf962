import AcppNetwork.LinuxSteps

/-!
# A connection attempt that fails

The first `EPOLLOUT` event of a socket tells how its connection attempt ended:
`handle_event` sets `connected_`, reads `SO_ERROR`, and calls `on_connected` or
`on_error`.  It sets `connected_` whatever `SO_ERROR` is, so a socket whose attempt
failed counts as connected from then on, and the branches for established
connections run for it (`failed_connect`).  What `on_error` gets is `errno`, which
neither `getsockopt` nor anything before it set to the error that was read.
-/
namespace AcppNetwork
namespace Linux

open Reentrant

/-- The callbacks of `h`, in order. -/
def callbacksOf (h : Nat) : List Note → List Callback :=
  List.filterMap fun
    | .invoked h' cb => if h' = h then some cb else none
    | _ => none

/-- `connected_` of `h`, if it exists, is false. -/
def World.Unconnected (h : Nat) (w : World) : Prop :=
  ∀ p, w.pimpls h = some p → p.connected = false

/-- It is `on_error` with the error `err`. -/
def Callback.reports (err : Nat) : Callback → Bool
  | .onError e _ => e == err
  | _ => false

/-- It is `on_error`, or `on_accepted`. -/
def Callback.isFailure : Callback → Bool
  | .onError _ _ | .onAccepted _ => true
  | _ => false

/-- The connection attempt of `h` failed: `SO_ERROR` was read, and was `err`. -/
def Failed (h err : Nat) (c : Configuration) : Prop :=
  err ≠ 0 ∧ .soError h err ∈ notes c.log

/-- After the failure of its connection attempt with `err` the socket `h` is told so
once, is told nothing of a connection, and `connected_` was false all along. -/
structure FailsCleanly (h err : Nat) (es : List (Event Op Answer)) (c : Configuration) :
    Prop where
  unconnected : Runs.Throughout (step object) (fun c => c.state.Unconnected h)
    (Config.start World.new) es
  reported : (callbacksOf h (notes c.log)).countP (Callback.reports err) = 1
  nothingElse : ∀ cb ∈ callbacksOf h (notes c.log), cb.isFailure = true

section
variable {w : World} {h err : Nat} {f : Frame} {a : Answer} {out : Next} {ns : List Note}

/-- After the branch for `EPOLLOUT` a socket is connected, whatever `SO_ERROR` was. -/
theorem Socket.writeBranch_connected (s : Socket) (refused : Option Nat) (soError : Nat) :
    (s.writeBranch refused soError).1.pimpl.connected = true := by
  unfold writeBranch
  generalize s.setEvents ⟨true, false⟩ refused = r
  obtain ⟨t, failures⟩ := r
  dsimp only
  split
  · split <;> rfl
  · rename_i hconn
    rw [Bool.not_eq_true, Bool.not_eq_false'] at hconn
    exact hconn

/-- On a socket not yet connected, an error makes it call `on_error` with `errno`. -/
theorem Socket.writeBranch_failed (s : Socket) {refused : Option Nat} {soError : Nat}
    (hconn : s.pimpl.connected = false) (hopen : s.kernel.isOpen s.pimpl.fd = true)
    (herr : soError ≠ 0) :
    (s.writeBranch refused soError).2.1 = s.pimpl.callbacks.call?
      (.onError (s.setEvents ⟨true, false⟩ refused).1.kernel.errno "getsockopt") := by
  have hrearms := setEvents_rearms s ⟨true, false⟩ refused
  have hconn' : (s.setEvents ⟨true, false⟩ refused).1.pimpl.connected = false := by
    rw [setEvents_connected, hconn]
  unfold writeBranch
  generalize s.setEvents ⟨true, false⟩ refused = r at hrearms hconn' ⊢
  obtain ⟨t, failures⟩ := r
  have hfd : t.kernel.isOpen t.pimpl.fd = true := by
    rw [hrearms.isOpen, hrearms.fd]
    exact hopen
  dsimp only at hconn' ⊢
  simp [hconn', Kernel.getsockopt, hfd, herr, ← hrearms.callbacks]

/-- A note that says nothing of `SO_ERROR`. -/
def Note.Other : Note → Prop
  | .soError _ _ => False
  | _ => True

namespace World

theorem callThen_other {s : Socket} {cb : Option Callback} (hns : ∀ n ∈ ns, n.Other) :
    ∀ n ∈ (w.callThen s f ns cb).notes, n.Other := by
  cases cb with
  | none => exact hns
  | some cb =>
    intro n hn
    rcases List.mem_append.mp hn with hn | hn
    · exact hns n hn
    · obtain rfl := List.mem_singleton.mp hn
      trivial

theorem closed_other (h : ∀ n ∈ ns, ∃ x, n = .closed x) : ∀ n ∈ ns, n.Other := by
  intro n hn
  obtain ⟨x, rfl⟩ := h n hn
  trivial

theorem acceptBranch_other (s : Socket) (rest : List Ready) (refused : Option Nat) (a : Opened) :
    ∀ n ∈ (w.acceptBranch s rest refused a).notes, n.Other := by
  cases a with
  | failed e => exact callThen_other (by simp [Note.Other])
  | fd n =>
    unfold acceptBranch
    dsimp only
    split <;> simp [Outcome.notes, Note.Other]

/-- **Reading `SO_ERROR` leaves the socket connected**, whatever was read. -/
theorem connected_of_stretch (hs : Stretch w f a out) (hread : .soError h err ∈ out.notes) :
    ∃ p, out.state.pimpls h = some p ∧ p.connected = true := by
  have never : (∀ n ∈ out.notes, n.Other) →
      ∃ p, out.state.pimpls h = some p ∧ p.connected = true :=
    fun hother => (hother _ hread).elim
  cases hs with
  | @wake x events rest p refused soError hp hout =>
    have hconn := Socket.writeBranch_connected ⟨x, w.kernel, p⟩ refused soError
    have hthis := (Socket.writeBranch_rearms ⟨x, w.kernel, p⟩ refused soError).this
    generalize (Socket.writeBranch ⟨x, w.kernel, p⟩ refused soError).2.1 = cb at hread ⊢
    generalize (Socket.writeBranch ⟨x, w.kernel, p⟩ refused soError).1 = s at hconn hthis hread ⊢
    -- the note is about the handler whose event it is
    have hx : h = x := by
      by_contra hne
      rcases cb with _ | cb <;> by_cases hwas : p.connected = true <;>
        simp [callThen, Outcome.notes, wakeNotes, hwas, hne] at hread
    have hput : (w.put s).pimpls h = some s.pimpl := by
      rw [hx, ← show s.this = x from hthis]
      exact Function.update_self ..
    refine ⟨s.pimpl, ?_, hconn⟩
    rcases cb with _ | cb <;> exact hput
  | assign hassign => exact never (closed_other (assign_closed hassign))
  | destroy hdestruct | newSocket hdestruct =>
    exact never (closed_other (destruct_closed hdestruct))
  | close hclose => exact never (closed_other (closeObject_closed hclose))
  | write | receive => exact never (callThen_other (by simp [Note.Other]))
  | accept => exact never (acceptBranch_other _ _ _ _)
  | _ => exact never (by simp [Outcome.notes, Note.Other])

end World

/-- While a socket is not connected, its `SO_ERROR` was not read. -/
theorem soError_unread {es : List (Event Op Answer)} {c : Configuration}
    (hr : Runs.run (step object) (Config.start World.new) es = some c)
    (hun : Runs.Throughout (step object) (fun c => c.state.Unconnected h)
      (Config.start World.new) es) : .soError h err ∉ notes c.log := by
  refine Runs.run_invariant_along (I := fun c => .soError h err ∉ notes c.log)
    (fun c e c' hunread hafter hstep hread => ?_) List.not_mem_nil hun.along hr
  -- the step that read it left the socket connected
  have hun' : c'.state.Unconnected h := hafter c' hstep
  rcases (Step.of_step hstep).stretch with ⟨o, -, -, rfl⟩ |
    ⟨f, rest, a, out, kept, -, -, hres, hstate, -, -, -, -, hnotes, -⟩ | ⟨-, -, -, hlog⟩
  · exact hunread (by simpa using hread)
  · rw [hnotes] at hread
    rcases List.mem_append.mp hread with hread | hread
    · exact hunread hread
    · obtain ⟨p, hp, hconn⟩ := World.connected_of_stretch (stretch_of_resume hres) hread
      rw [← hstate] at hp
      rw [hun' p hp] at hconn
      cases hconn
  · exact hunread (hlog ▸ hread)

/-- **A failed connection attempt is never handled as one.**  In no run in which the
connection attempt of a socket failed does the socket stay unconnected and get one
`on_error` with the error and no callback of an established connection. -/
theorem failed_connect {es : List (Event Op Answer)} {c : Configuration}
    (hr : Runs.run (step object) (Config.start World.new) es = some c)
    (hfailed : Failed h err c) : ¬ FailsCleanly h err es c :=
  fun hclean => soError_unread hr hclean.unconnected hfailed.2

end

/-- A connection attempt that is refused (`ECONNREFUSED` is 111). -/
def refusedRun : List (Event Op Answer) :=
  [.call (.socket 2 1 0 ⟨true, true, true, true, false, true⟩), .code (.opened (.fd 3)),
    .call (.connect 0), .code (.call none (some EINPROGRESS)),
    .call .waitForInput, .code .go,
    .code (.ready [some (3, ⟨true, true⟩)]), .code (.wake none 111),
    .back, .code (.recv (.received [])), .back, .code .go]

theorem failed_connect_refused :
    ∃ c, Runs.run (step object) (Config.start World.new) refusedRun = some c ∧
      ¬ FailsCleanly 0 111 refusedRun c := by
  obtain ⟨c, hr, hread⟩ :
      ∃ c, Runs.run (step object) (Config.start World.new) refusedRun = some c ∧
        .soError 0 111 ∈ notes c.log :=
    Runs.exists_run (by decide)
  exact ⟨c, hr, failed_connect hr ⟨by decide, hread⟩⟩

/-- `on_error` gets the `EINPROGRESS` left by `connect`; then the socket, connected by
now, is told that it was disconnected. -/
theorem refused_disconnected :
    ∃ c, Runs.run (step object) (Config.start World.new) refusedRun = some c ∧
      Failed 0 111 c ∧
      callbacksOf 0 (notes c.log) = [.onError EINPROGRESS "getsockopt", .onDisconnected] ∧
      ∃ p, c.state.pimpls 0 = some p ∧ p.connected = true := by
  obtain ⟨c, hr, hread, hcallbacks, hconn⟩ :
      ∃ c, Runs.run (step object) (Config.start World.new) refusedRun = some c ∧
        .soError 0 111 ∈ notes c.log ∧
        callbacksOf 0 (notes c.log) = [.onError EINPROGRESS "getsockopt", .onDisconnected] ∧
        (c.state.pimpls 0).any (·.connected) = true :=
    Runs.exists_run (by decide)
  exact ⟨c, hr, ⟨by decide, hread⟩, hcallbacks, (Option.any_eq_true _ _).mp hconn⟩

end Linux
end AcppNetwork
