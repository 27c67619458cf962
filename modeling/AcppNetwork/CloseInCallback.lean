import AcppNetwork.LinuxOwnership
import AcppNetwork.MacosSteps
import AcppNetwork.WindowsSteps

/-!
# A callback closes its socket

A callback may call `close` of the very socket it is called for.  When it has returned,
the loop goes on with that socket, which has no descriptor now; no system call on it
succeeds.  What the loop does then differs.

On Linux an error is logged, or handed to `on_error`, and no exception comes of it.  On
macOS `ask_read_event` is called after `on_connected`, and on Windows `start_read` after
`on_received`, and for a connection that is complete, however it was closed meanwhile:
these throw, and the exception leaves `wait_for_input`, so that no other socket is
served any more (`close_in_callback_throws`).  They throw nowhere else because of a
socket that is closed, and always there (`close_in_callback`).

A descriptor that is open is never `invalid_fd`; this is all that the backends keep for
it, whatever is called.
-/
namespace AcppNetwork

open Reentrant

/-! ## Linux -/

namespace Linux
namespace World
variable {w w' : World} {h o : Nat}

/-- `invalid_fd` is not the number of an open descriptor. -/
def Sane (w : World) : Prop := w.kernel.isOpen SocketBasePimpl.invalidFd = false

/-- The socket at `h` was closed, or never had a descriptor. -/
def ClosedAt (w : World) (h : Nat) : Prop := ∃ p, w.pimpls h = some p ∧ p.valid = false

/-- The loop works on a socket that is closed. -/
def AtClosed (w : World) : Frame → Prop
  | .batch (.socket h _ :: _) | .readBranch h _ _ => w.ClosedAt h
  | _ => False

theorem Sane.of_eq (hw : w.Sane) (hopen : w'.kernel.isOpen = w.kernel.isOpen) : w'.Sane := by
  unfold Sane
  rw [hopen]
  exact hw

theorem Sane.openFd (hw : w.Sane) (n : Nat) : (w.openFd n).Sane := by
  show Function.update w.kernel.isOpen (n : Int) true SocketBasePimpl.invalidFd = false
  rw [Function.update_of_ne (ne_invalidFd n).symm]
  exact hw

theorem Sane.put (hw : w.Sane) {s : Socket} {p : SocketBasePimpl}
    (hr : Socket.Rearms ⟨h, w.kernel, p⟩ s) : (w.put s).Sane :=
  hw.of_eq hr.isOpen

theorem Sane.owned (hw : w.Sane) {s s' : Socket} (hs : w.owned o = some s)
    (hr : s.Rearms s') : (w.put s').Sane := by
  obtain ⟨p, -, -, hsocket⟩ := owned_iff.mp hs
  rw [hsocket] at hr
  exact hw.put hr

theorem Sane.reset (hw : w.Sane) (pimpl : Option Nat) : (w.reset pimpl).1.Sane := by
  cases pimpl with
  | none => exact hw
  | some h =>
    show (w.delete h).Sane
    unfold delete
    split
    · exact close_isOpen _ hw
    · exact hw

theorem Sane.destruct (hw : w.Sane) {ns : List Note} (h : w.destruct o = some (w', ns)) :
    w'.Sane := by
  obtain ⟨pimpl, -, rfl, -⟩ := destruct_some h
  have hobjects : Sane { w with objects := Function.update w.objects o none } := hw
  exact hobjects.reset pimpl

/-- **Whatever the code does, no open descriptor gets that number.** -/
theorem Sane.stretch (hw : w.Sane) {f : Frame} {a : Answer} {out : Next} (hs : Stretch w f a out) :
    out.state.Sane := by
  cases hs with
  | @socket domain type protocol callbacks a hopens =>
    cases a with
    | fd n => exact hw.openFd n
    | failed e => exact hw
  | move hs hown =>
    obtain ⟨p, hp, rfl⟩ := Option.map_eq_some_iff.mp hown
    exact hw
  | @assign o other w' ns hassign =>
    obtain ⟨s, pimpl, -, -, hown, -⟩ := assign_some hassign
    have hrelease : (w.release other).Sane := hw
    obtain ⟨p, -, rfl⟩ := Option.map_eq_some_iff.mp hown
    exact hrelease.reset pimpl
  | destroy hdestruct | newSocket hdestruct => exact hw.destruct hdestruct
  | close hclose =>
    obtain ⟨-, rfl, -⟩ | ⟨x, p, -, -, -, rfl⟩ := closeObject_some hclose
    · exact hw
    · exact close_isOpen ⟨x, w.kernel, p⟩ hw
  | connect hs => exact hw.owned hs (Socket.connect_rearms ..)
  | listen hs => exact hw.owned hs (Socket.listen_rearms ..)
  | write hs hwrite =>
    rw [callThen_state]
    exact hw.owned hs (Socket.soWrite_rearms hwrite)
  | callbacks hs =>
    obtain ⟨p, -, -, hsocket⟩ := owned_iff.mp hs
    refine hw.of_eq ?_
    rw [hsocket]
    rfl
  | @otherOpen e n hfree => exact hw.openFd n
  | @wake h events rest p refused soError =>
    rw [callThen_state]
    exact hw.put (Socket.writeBranch_rearms ⟨h, w.kernel, p⟩ refused soError)
  | @accept h events rest p a refused =>
    cases a with
    | failed e =>
      rw [acceptBranch, callThen_state]
      exact hw
    | fd n =>
      rcases acceptBranch_fd w ⟨h, w.kernel, p⟩ rest refused n with
        ⟨-, hstate⟩ | ⟨-, new, hnew, hstate⟩
      · rw [hstate]
        exact hw.openFd n
      · rw [hstate]
        exact (hw.openFd n).put (accepted_rearms hnew)
  | @receive h events rest p a s cb hin hp hlistening ha hreceive =>
    have hrearms := Socket.receiveBranch_rearms ⟨h, w.kernel, p⟩ a
    rw [hreceive] at hrearms
    rw [callThen_state]
    exact hw.put hrearms
  | @badFunctionCall h events rest p a s hin hp hlistening ha hreceive =>
    have hrearms := Socket.receiveBranch_rearms ⟨h, w.kernel, p⟩ a
    rw [hreceive] at hrearms
    exact hw.put hrearms
  | _ => exact hw

/-- **The loop throws for no socket that is closed**: only `recv` returning 0 makes it throw,
which takes a descriptor. -/
theorem Sane.not_throws (hw : w.Sane) {f : Frame} {a : Answer} {out : Next}
    (hs : Stretch w f a out) (hclosed : w.AtClosed f) : out.throws = false := by
  cases hs with
  | @badFunctionCall h events rest p a s hin hp hlistening ha hreceive =>
    obtain ⟨p', hp', hinvalid⟩ := hclosed
    obtain rfl := Option.some.inj (hp'.symm.trans hp)
    have hfd : p'.fd = SocketBasePimpl.invalidFd := by
      simpa [SocketBasePimpl.valid] using hinvalid
    -- `recv` answers with an error, which is handed to `on_error`
    cases a with
    | received buffer =>
      have hopen : w.kernel.isOpen p'.fd = true := ha.1
      rw [hfd, hw] at hopen
      cases hopen
    | failed e =>
      unfold Socket.receiveBranch at hreceive
      split at hreceive <;> cases hreceive
  | waitFailed => exact hclosed.elim
  | @wake h events rest p refused soError =>
    unfold World.callThen
    split <;> rfl
  | @accept h events rest p a refused =>
    unfold World.acceptBranch
    split
    · unfold World.callThen
      split <;> rfl
    · split <;> rfl
  | receive =>
    unfold World.callThen
    split <;> rfl
  | write => exact hclosed.elim
  | _ => rfl

end World

theorem new_sane : World.new.Sane := rfl

/-- No exception of the loop is about a socket that is closed. -/
theorem not_throwsAt {es : List (Event Op Answer)} {c : Configuration}
    (hr : Runs.run (step object) (Config.start World.new) es = some c) :
    Runs.Along (step object) (fun c e => ¬ ThrowsAt World.AtClosed c e)
      (Config.start World.new) es := by
  refine (throwsAt_iff (J := World.Sane) (P := fun _ _ _ _ => True) (fun _ _ hw => hw)
    (fun w f a out hw hres => hw.stretch (stretch_of_resume hres)) (fun w f fs a out hw hres => ?_)
    new_sane hr).mpr before_true
  refine iff_of_false ?_ (not_not.mpr trivial)
  rintro ⟨hthrows, hclosed⟩
  rw [hw.not_throws (stretch_of_resume hres) hclosed] at hthrows
  cases hthrows

/-- A socket that connects, up to where its `on_connected`, in which it calls `op`, has
returned. -/
def connectedRun (op : Op) : List (Event Op Answer) :=
  [.call (.socket 2 1 0 ⟨true, false, false, false, false, false⟩), .code (.opened (.fd 3)),
    .call (.connect 0), .code (.call none (some EINPROGRESS)),
    .call .waitForInput, .code .go, .code (.ready [some (3, ⟨true, true⟩)]), .code (.wake none 0),
    .call op, .code .go, .back]

end Linux

/-! ## macOS -/

namespace Macos

open Linux (Callbacks Send Opened)

theorem Kernel.close_isOpen {k : Kernel} {fd fd' : Int} (h : k.isOpen fd = false) :
    (k.close fd').isOpen fd = false := by
  show Function.update k.isOpen fd' false fd = false
  by_cases heq : fd = fd'
  · rw [heq, Function.update_self]
  · rw [Function.update_of_ne heq]
    exact h

namespace World
variable {w w' : World} {h o : Nat}

/-- `invalid_fd` is not the number of an open descriptor. -/
def Sane (w : World) : Prop := w.kernel.isOpen SocketBasePimpl.invalidFd = false

/-- The socket at `h` was closed, or never had a descriptor. -/
def ClosedAt (w : World) (h : Nat) : Prop := ∃ p, w.pimpls h = some p ∧ p.valid = false

/-- The loop works on a socket that is closed. -/
def AtClosed (w : World) : Frame → Prop
  | .batch (.socket _ h :: _) | .receive h _ | .afterConnected h _ => w.ClosedAt h
  | _ => False

/-- When `ask_read_event` is called after `on_connected`, the socket is not closed. -/
def AsksOpen (w : World) : Frame → List Frame → Answer → Prop
  | .afterConnected h _, _, .ask _ => ¬ w.ClosedAt h
  | _, _, _ => True

instance (w : World) (h : Nat) : Decidable (w.ClosedAt h) :=
  decidable_of_iff (((w.pimpls h).any fun p => !p.valid) = true) (by
    unfold ClosedAt
    rw [Option.any_eq_true]
    simp only [Bool.not_eq_true'])

instance (w : World) (f : Frame) (fs : List Frame) (a : Answer) :
    Decidable (w.AsksOpen f fs a) := by
  rcases f with ⟨⟩ <;> rcases a with ⟨⟩ <;> unfold AsksOpen <;> infer_instance

theorem Sane.of_eq (hw : w.Sane) (hopen : w'.kernel.isOpen = w.kernel.isOpen) : w'.Sane := by
  unfold Sane
  rw [hopen]
  exact hw

theorem Sane.openFd (hw : w.Sane) (n : Nat) : (w.openFd n).Sane := by
  show Function.update w.kernel.isOpen (n : Int) true SocketBasePimpl.invalidFd = false
  rw [Function.update_of_ne (Linux.World.ne_invalidFd n).symm]
  exact hw

theorem Sane.closeAt (hw : w.Sane) (h : Nat) : (w.closeAt h).Sane := by
  obtain ⟨heq, -⟩ | ⟨p, -, -, heq⟩ := closeAt_cases w h
  · rw [heq]
    exact hw
  · rw [heq]
    exact Kernel.close_isOpen hw

theorem Sane.destruct (hw : w.Sane) (h : w.destruct o = some w') : w'.Sane := by
  obtain ⟨pimpl, -, rfl⟩ := Option.map_eq_some_iff.mp h
  cases pimpl with
  | none => exact hw
  | some x => exact hw.closeAt x

theorem Sane.construct (hw : w.Sane) (domain type protocol fd : Int) (callbacks : Callbacks)
    (refused : Option Nat) :
    (w.construct domain type protocol fd callbacks refused).1.Sane := by
  obtain ⟨e, heq⟩ | ⟨-, heq⟩ := construct_cases w domain type protocol fd callbacks refused
  · rw [heq]
    exact hw
  · rw [heq]
    exact hw

theorem Sane.askReadEvent (hw : w.Sane) {s s' : Socket} {refused : Option Nat} {asked : Bool}
    (hs : s.kernel.isOpen = w.kernel.isOpen) (hask : s.askReadEvent refused = (s', asked)) :
    (w.put s').Sane := by
  refine hw.of_eq (Eq.trans ?_ hs)
  obtain ⟨e, heq⟩ | ⟨-, heq⟩ := Socket.askReadEvent_cases s refused
  · cases heq.symm.trans hask
    rfl
  · cases heq.symm.trans hask
    rfl

theorem Sane.connect (hw : w.Sane) {s : Socket} (hs : w.owned o = some s)
    (refused error : Option Nat) : (w.connect s refused error).state.Sane := by
  obtain ⟨p, -, -, hsocket⟩ := owned_iff.mp hs
  have hopen : s.kernel.isOpen = w.kernel.isOpen := by rw [hsocket]
  have hask := Socket.writes_askWriteEvent s refused
  unfold World.connect
  split
  · rename_i s' hasked
    rw [hasked] at hask
    exact hw.of_eq ((Socket.writes_connect s' error).kernel.isOpen.trans
      (hask.kernel.isOpen.trans hopen))
  · rename_i s' hasked
    rw [hasked] at hask
    exact hw.of_eq (hask.kernel.isOpen.trans hopen)

theorem Sane.listen (hw : w.Sane) {s : Socket} (hs : w.owned o = some s)
    (refused error : Option Nat) : (w.listen s refused error).state.Sane := by
  obtain ⟨p, -, -, hsocket⟩ := owned_iff.mp hs
  have hopen : s.kernel.isOpen = w.kernel.isOpen := by rw [hsocket]
  unfold World.listen
  split
  · rename_i s' hasked
    have hput := hw.askReadEvent hopen hasked
    unfold Socket.listen
    split <;> exact hput
  · rename_i s' hasked
    exact hw.askReadEvent hopen hasked

theorem Sane.write (hw : w.Sane) {s : Socket} (hs : w.owned o = some s) {buffer : List Byte}
    {as : List Send} {written : Socket.Written} (hwrite : s.soWrite buffer as = some written) :
    (w.write written).state.Sane := by
  obtain ⟨p, -, -, hsocket⟩ := owned_iff.mp hs
  have hopen : written.socket.kernel.isOpen = w.kernel.isOpen := by
    rw [(Socket.writes_soWrite hwrite).kernel.isOpen, hsocket]
  unfold World.write
  split
  · rw [callThen_state]
    exact hw.of_eq hopen
  · exact hw.of_eq hopen

theorem Sane.taken (hw : w.Sane) {p : SocketBasePimpl} (a : Opened) :
    (w.put (Socket.taken ⟨h, w.kernel, p⟩ a)).Sane := by
  cases a with
  | fd n => exact hw
  | failed e =>
    unfold Socket.taken
    dsimp only
    split <;> exact hw

theorem Sane.accepted (hw : w.Sane) (s : Socket) (rest : List Ready) (refused again : Option Nat)
    (n : Nat) : (w.accepted s rest refused again n).state.Sane := by
  have hconstruct := hw.construct s.pimpl.domain s.pimpl.type s.pimpl.protocol n noCallbacks refused
  unfold World.accepted
  split
  · rename_i w' hmade
    rw [hmade] at hconstruct
    dsimp only
    split
    · rename_i new hasked
      have hput : (w'.put new).Sane := hconstruct.askReadEvent rfl hasked
      exact hput
    · rename_i new hasked
      exact (hconstruct.askReadEvent rfl hasked).closeAt w.fresh
  · rename_i w' hmade
    rw [hmade] at hconstruct
    exact hconstruct

/-- **Whatever the code does, no open descriptor gets that number.** -/
theorem Sane.stretch (hw : w.Sane) {f : Frame} {a : Answer} {out : Next} (hs : Stretch w f a out) :
    out.state.Sane := by
  have elsewhere : ∀ {e : Elsewhere} {w' : World}, w.elsewhere e = some w' → w'.Sane := by
    intro e w' he
    cases e with
    | connects fd =>
      simp only [World.elsewhere] at he
      split at he <;> cases he
      exact hw
    | activates filter fd =>
      cases filter with
      | read =>
        simp only [World.elsewhere] at he
        split at he <;> cases he
        exact hw
      | write =>
        cases he
        exact hw
  cases hs with
  | @socket domain type protocol callbacks a refused hopens =>
    rw [constructed_state]
    cases a with
    | fd n => exact (hw.openFd n).construct ..
    | failed e => exact Sane.construct (w := w.setErrno e) hw ..
  | adopt =>
    rw [constructed_state]
    exact hw.construct ..
  | move hs hown =>
    obtain ⟨p, -, rfl⟩ := own_some hown
    exact hw
  | assign hassign =>
    obtain ⟨s, pimpl, -, -, hown⟩ := assign_some hassign
    obtain ⟨p, -, rfl⟩ := own_some hown
    refine hw.of_eq ?_
    exact congrArg Kernel.isOpen (reset_kernel ..)
  | destroy hdestruct | newSocket hdestruct => exact hw.destruct hdestruct
  | close hclose =>
    obtain ⟨pimpl, -, rfl⟩ := Option.map_eq_some_iff.mp hclose
    cases pimpl with
    | none => exact hw
    | some x => exact hw.closeAt x
  | connect hs => exact hw.connect hs ..
  | listen hs => exact hw.listen hs ..
  | write hs hwrite => exact hw.write hs hwrite
  | callbacks hs =>
    obtain ⟨p, -, -, hsocket⟩ := owned_iff.mp hs
    refine hw.of_eq ?_
    rw [hsocket]
    rfl
  | @otherOpen e n hfree => exact hw.openFd n
  | elsewhereCalled helsewhere | elsewhere helsewhere => exact elsewhere helsewhere
  | kevent hrun hkevent =>
    unfold World.kevent at hkevent
    split at hkevent
    · obtain ⟨⟨k, ready⟩, hall, hret⟩ := Option.map_eq_some_iff.mp hkevent
      cases hret
      refine hw.of_eq ?_
      rw [Kernel.retrieveAll_frame hall]
      rfl
    · cases hkevent
  | @accept h rest p a refused again =>
    cases a with
    | failed e =>
      rw [acceptBranch, callThen_state]
      exact hw.taken (.failed e)
    | fd n =>
      have hopen := (hw.taken (h := h) (p := p) (.fd n)).openFd n
      unfold World.acceptBranch
      dsimp only
      split
      · exact hopen.accepted ..
      · exact hopen
  | sent =>
    rw [callThen_state]
    exact hw
  | @connected h rest p soError k hp hconnected hgetsockopt
  | @notConnected h rest p soError k err hp hconnected hgetsockopt =>
    rw [callThen_state]
    have hk := Kernel.getsockopt_sameReads w.kernel p.fd soError
    rw [hgetsockopt] at hk
    exact hw.of_eq hk.isOpen
  | @received h rest p a hp ha =>
    unfold World.received
    split
    · split
      · rw [callThen_state]
        exact hw
      · exact hw
    · rw [callThen_state]
      exact hw
    · rw [callThen_state]
      exact hw
  | asked hp hask | askFailed hp hask => exact hw.askReadEvent rfl hask
  | _ => exact hw

/-- **The loop throws for a socket that is closed exactly after `on_connected`**: `kevent`
takes no filter for it. -/
theorem Sane.throws_iff (hw : w.Sane) {f : Frame} {fs : List Frame} {a : Answer} {out : Next}
    (hs : Stretch w f a out) : out.throws = true ∧ w.AtClosed f ↔ ¬ w.AsksOpen f fs a := by
  have hfd : ∀ {p : SocketBasePimpl}, p.valid = false → w.kernel.isOpen p.fd = false := by
    intro p hinvalid
    have : p.fd = SocketBasePimpl.invalidFd := by simpa [SocketBasePimpl.valid] using hinvalid
    rw [this]
    exact hw
  cases hs with
  | @askGone h rest refused hp =>
    refine iff_of_false (fun hthrows => Bool.noConfusion hthrows.1) (not_not.mpr ?_)
    rintro ⟨p, hp', -⟩
    exact nomatch hp.symm.trans hp'
  | @asked h rest p refused s hp hask =>
    refine iff_of_false (fun hthrows => Bool.noConfusion hthrows.1) (not_not.mpr ?_)
    rintro ⟨p', hp', hinvalid⟩
    obtain rfl := Option.some.inj (hp.symm.trans hp')
    have hfalse := Socket.askReadEvent_closed (s := ⟨h, w.kernel, p⟩) refused (hfd hinvalid)
    rw [hask] at hfalse
    cases hfalse
  | askFailed hp hask => exact ⟨fun hthrows => not_not.mpr hthrows.2, fun h => ⟨rfl, not_not.mp h⟩⟩
  | @accept h rest p a refused again hp hlistening ha hopens =>
    refine iff_of_false ?_ (not_not.mpr trivial)
    rintro ⟨hthrows, p', hp', hinvalid⟩
    obtain rfl := Option.some.inj (hp.symm.trans hp')
    -- nothing is accepted from a descriptor that is not open
    cases a with
    | failed e =>
      rw [acceptBranch, callThen_throws] at hthrows
      cases hthrows
    | fd n =>
      have hopen : w.kernel.isOpen p.fd = true := ha.1
      rw [hfd hinvalid] at hopen
      cases hopen
  | @received h rest p a hp ha =>
    refine iff_of_false ?_ (not_not.mpr trivial)
    rintro ⟨hthrows, p', hp', hinvalid⟩
    obtain rfl := Option.some.inj (hp.symm.trans hp')
    cases a with
    | received buffer =>
      have hopen : w.kernel.isOpen p.fd = true := ha.1
      rw [hfd hinvalid] at hopen
      cases hopen
    | failed e =>
      rw [World.received, callThen_throws] at hthrows
      cases hthrows
  | sent | connected | notConnected =>
    refine iff_of_false (fun hthrows => ?_) (not_not.mpr trivial)
    rw [callThen_throws] at hthrows
    exact Bool.noConfusion hthrows.1
  | waitFailed | socket | adopt | connect | listen | write =>
    exact iff_of_false (fun hthrows => hthrows.2.elim) (not_not.mpr trivial)
  | elsewhere =>
    refine iff_of_false (fun hthrows => Bool.noConfusion hthrows.1) (not_not.mpr ?_)
    unfold AsksOpen
    split
    · rename_i heq
      cases heq
    · trivial
  | _ => exact iff_of_false (fun hthrows => Bool.noConfusion hthrows.1) (not_not.mpr trivial)

end World

theorem new_sane : World.new.Sane := rfl

theorem throwsAt_iff_asksOpen {es : List (Event Op Answer)} {c : Configuration}
    (hr : Runs.run (step object) (Config.start World.new) es = some c) :
    Runs.Along (step object) (fun c e => ¬ ThrowsAt World.AtClosed c e)
        (Config.start World.new) es ↔
      Runs.Along (step object) (Before World.AsksOpen) (Config.start World.new) es :=
  throwsAt_iff (J := World.Sane) (fun _ _ hw => hw)
    (fun _ _ _ _ hw hres => hw.stretch (stretch_of_resume hres))
    (fun _ _ _ _ _ hw hres => hw.throws_iff (stretch_of_resume hres)) new_sane hr

/-- A socket that connects, up to where its `on_connected`, in which it calls `op`, has
returned. -/
def connectedRun (op : Op) : List (Event Op Answer) :=
  [.call (.api (.socket 2 1 0 ⟨true, false, false, false, false, false⟩)),
    .code (.opened (.fd 3) none),
    .call (.api (.connect 0)), .code (.call none (some EINPROGRESS)),
    .call (.elsewhere (.activates .write 3)), .code .go,
    .call (.api .waitForInput), .code .go, .code (.ready [some (.write, 3)]), .code (.wake 0),
    .call op, .code .go, .back]

/-- A socket that receives, up to where its `on_received`, in which it calls `op`, has
returned. -/
def receivedRun (op : Op) : List (Event Op Answer) :=
  [.call (.api (.socket 2 1 0 ⟨false, false, true, false, false, false⟩)),
    .code (.opened (.fd 3) none),
    .call (.api (.connect 0)), .code (.call none (some EINPROGRESS)),
    .call (.elsewhere (.activates .write 3)), .code .go,
    .call (.api .waitForInput), .code .go, .code (.ready [some (.write, 3)]), .code (.wake 0),
    .code (.elsewhere (.activates .read 3)), .code (.ask none), .code .go,
    .code (.ready [some (.read, 3)]), .code .go, .code (.recv (.received [7])),
    .call op, .code .go, .back]

end Macos

/-! ## Windows -/

namespace Windows

open Linux (Callbacks)

namespace World
variable {w w' : World} {h o : Nat} {p : SocketBasePimpl}

/-- `INVALID_SOCKET` is not an open handle. -/
def Sane (w : World) : Prop := w.handles SocketBasePimpl.invalidFd = none

/-- The socket whose `start_read` the loop calls for a completion. -/
def readsFor (w : World) : Packet → Option SocketBasePimpl
  | .io key op (.success _) => do
      let socket ← w.pimpls key
      let operation ← w.pimpls op.pimpl
      match op.type with
      | .accept => (operation.newSocket.bind w.owned).map Prod.snd
      | .connect => some socket
      | .read | .write => none
  | _ => none

/-- The socket whose `start_read` the loop calls next. -/
def startsRead (w : World) : Frame → Option SocketBasePimpl
  | .loop _ => w.queue.head?.bind w.readsFor
  | .received key => w.pimpls key
  | _ => none

/-- That socket is closed. -/
def AtClosed (w : World) (f : Frame) : Prop := ∃ p, w.startsRead f = some p ∧ p.valid = false

/-- When `start_read` is called, the socket is not closed. -/
def StartsOpen (w : World) (f : Frame) (_ : List Frame) : Answer → Prop
  | .start _ => ¬ w.AtClosed f
  | _ => True

instance (w : World) (f : Frame) : Decidable (w.AtClosed f) :=
  decidable_of_iff (((w.startsRead f).any fun p => !p.valid) = true) (by
    unfold AtClosed
    rw [Option.any_eq_true]
    simp only [Bool.not_eq_true'])

instance (w : World) (f : Frame) (fs : List Frame) (a : Answer) :
    Decidable (w.StartsOpen f fs a) := by
  rcases a with ⟨⟩ <;> unfold StartsOpen <;> infer_instance

theorem Sane.of_eq (hw : w.Sane) (hhandles : w'.handles = w.handles) : w'.Sane := by
  unfold Sane
  rw [hhandles]
  exact hw

theorem Sane.opens (hw : w.Sane) (n : Nat) :
    Sane { w with handles := Function.update w.handles n (some none) } := by
  show Function.update w.handles (n : Int) (some none) SocketBasePimpl.invalidFd = none
  rw [Function.update_of_ne (Linux.World.ne_invalidFd n).symm]
  exact hw

theorem Sane.start (hw : w.Sane) {op : Overlapped} {fd : Int} {len : Nat} {refused : Option Nat}
    (h : w.start op fd len refused = some w') : w'.Sane := by
  obtain ⟨key, -, -, rfl⟩ := start_some h
  exact hw

theorem Sane.close (hw : w.Sane) (h : Nat) (p : SocketBasePimpl) : (w.close h p).Sane := by
  unfold World.close
  split
  · show Function.update w.handles p.fd none SocketBasePimpl.invalidFd = none
    by_cases hfd : SocketBasePimpl.invalidFd = p.fd
    · rw [hfd, Function.update_self]
    · rw [Function.update_of_ne hfd]
      exact hw
  · exact hw

/-- A handle is given a key only if it is open. -/
theorem Sane.construct (hw : w.Sane) (domain type protocol fd : Int) (callbacks : Callbacks) :
    (w.construct domain type protocol fd callbacks).Sane := by
  unfold World.construct addSocket
  split
  · rename_i hopen
    change w.handles fd = some none at hopen
    have hfd : SocketBasePimpl.invalidFd ≠ fd := by
      rintro rfl
      rw [hw] at hopen
      cases hopen
    show Function.update w.handles fd _ SocketBasePimpl.invalidFd = none
    rw [Function.update_of_ne hfd]
    exact hw
  · exact hw

theorem Sane.constructSocket (hw : w.Sane) (domain type protocol : Int) (callbacks : Callbacks)
    (a : Opened) : (w.constructSocket domain type protocol callbacks a).Sane := by
  cases a with
  | fd n => exact (hw.opens n).construct ..
  | failed e => exact hw.construct ..

theorem Sane.elsewhere (hw : w.Sane) {e : Elsewhere} (he : w.elsewhere e = some w') : w'.Sane := by
  rcases elsewhere_some he with ⟨i, pending, pimpls, status, -, -, -, rfl⟩ | ⟨f, -, rfl⟩ |
    ⟨n, -, -, rfl⟩
  · exact hw
  · exact hw
  · exact hw.opens n

theorem Sane.dispatch (hw : w.Sane) {packet : Packet} {refused : Option Nat} {out : Next}
    (hd : Dispatch w packet refused out) : out.state.Sane := by
  cases hd with
  | failed =>
    unfold World.failed
    split <;> rw [callThen_state] <;> exact hw
  | accepted htype hsocket hoperation hnewSocket hnew hstart =>
    rw [callThen_state]
    exact hw.start hstart
  | connected htype hsocket hoperation hstart =>
    rw [callThen_state]
    exact hw.start hstart
  | disconnected | received | sent =>
    rw [callThen_state]
    exact hw
  | _ => exact hw

/-- **Whatever the code does, no open handle gets that value.** -/
theorem Sane.stretch (hw : w.Sane) {f : Frame} {a : Answer} {out : Next} (hs : Stretch w f a out) :
    out.state.Sane := by
  cases hs with
  | socket hopens => exact hw.constructSocket ..
  | adopt => exact hw.construct ..
  | move hmove =>
    obtain ⟨⟨h, p⟩, -, rfl⟩ := Option.map_eq_some_iff.mp hmove
    exact hw
  | close howned => exact hw.close ..
  | connect howned hstart => exact hw.start hstart
  | @listen o h p a howned hopen hopens =>
    exact (hw.constructSocket p.domain p.type p.protocol noCallbacks a).of_eq rfl
  | @write o h p buffer refused w' howned hinUse hstart =>
    have hput : (w.put h (p.fill buffer)).Sane := hw
    exact hput.start hstart
  | elsewhereCalled helsewhere | elsewhere helsewhere => exact hw.elsewhere helsewhere
  | @dequeue key refused packet rest out hrun hqueue hdispatch =>
    have hrest : Sane { w with queue := rest } := hw
    exact hrest.dispatch hdispatch
  | restart hsocket hstart => exact hw.start hstart
  | @destroying o h p next howned =>
    have hobjects : Sane { w with objects := Function.update w.objects o none } := hw
    exact hobjects.close h p
  | acceptEx hp hstart => exact hw.start hstart
  | _ => exact hw

theorem Sane.not_open (hw : w.Sane) (hinvalid : p.valid = false) : w.handles p.fd = none := by
  have hfd : p.fd = SocketBasePimpl.invalidFd := by
    simpa [SocketBasePimpl.valid] using hinvalid
  rw [hfd]
  exact hw

/-- `start_read` of a socket that is closed throws. -/
theorem Sane.dispatch_throws (hw : w.Sane) {packet : Packet} {refused : Option Nat} {out : Next}
    (hd : Dispatch w packet refused out) (hreads : w.readsFor packet = some p)
    (hinvalid : p.valid = false) : out.throws = true := by
  have hnone : ∀ {op : Overlapped} {len : Nat}, w.start op p.fd len refused = none := by
    intro op len
    exact start_none.mpr (.inl (hw.not_open hinvalid))
  cases hd with
  | exec | failed => cases hreads
  | @gone key op status refused hgone =>
    cases status with
    | failure error => cases hreads
    | success n =>
      obtain ⟨socket, hsocket, hrest⟩ := Option.bind_eq_some_iff.mp hreads
      obtain ⟨operation, hoperation, -⟩ := Option.bind_eq_some_iff.mp hrest
      rcases hgone with hgone | hgone
      · exact nomatch hgone.symm.trans hsocket
      · exact nomatch hgone.symm.trans hoperation
  | @accepted key op n refused socket operation o h new w' htype hsocket hoperation hnewSocket hnew
      hstart =>
    simp only [readsFor, hsocket, hoperation, htype, hnewSocket, hnew, Option.bind_eq_bind,
      Option.bind_some, Option.map_some, Option.some.injEq] at hreads
    subst hreads
    rw [hnone] at hstart
    cases hstart
  | acceptedGone htype hsocket hoperation hnew =>
    simp only [readsFor, hsocket, hoperation, htype, hnew, Option.bind_eq_bind, Option.bind_some,
      Option.map_none, reduceCtorEq] at hreads
  | connected htype hsocket hoperation hstart =>
    simp only [readsFor, hsocket, hoperation, htype, Option.bind_eq_bind, Option.bind_some,
      Option.some.injEq] at hreads
    subst hreads
    rw [hnone] at hstart
    cases hstart
  | startFailed => rfl
  | disconnected htype hsocket hoperation | received htype hn hsocket hoperation
  | sent htype hsocket hoperation =>
    simp [readsFor, hsocket, hoperation, htype] at hreads

/-- **The loop throws for a socket that is closed exactly where it calls `start_read`.** -/
theorem Sane.throws_iff (hw : w.Sane) {f : Frame} {fs : List Frame} {a : Answer} {out : Next}
    (hs : Stretch w f a out) : out.throws = true ∧ w.AtClosed f ↔ ¬ w.StartsOpen f fs a := by
  cases hs with
  | @dequeue key refused packet rest out hrun hqueue hdispatch =>
    have hrest : Sane { w with queue := rest } := hw
    constructor
    · rintro ⟨-, hclosed⟩
      exact not_not.mpr hclosed
    · intro hnot
      obtain ⟨p, hreads, hinvalid⟩ := not_not.mp hnot
      refine ⟨?_, p, hreads, hinvalid⟩
      rw [startsRead, hqueue] at hreads
      exact hrest.dispatch_throws hdispatch hreads hinvalid
  | @restart key refused socket w' hsocket hstart =>
    refine iff_of_false (fun hthrows => Bool.noConfusion hthrows.1) (not_not.mpr ?_)
    rintro ⟨p, hp, hinvalid⟩
    obtain rfl := Option.some.inj (hsocket.symm.trans hp)
    rw [start_none.mpr (.inl (hw.not_open hinvalid))] at hstart
    cases hstart
  | restartFailed => exact ⟨fun hthrows => not_not.mpr hthrows.2, fun h => ⟨rfl, not_not.mp h⟩⟩
  | restartGone hgone =>
    refine iff_of_false (fun hthrows => Bool.noConfusion hthrows.1) (not_not.mpr ?_)
    rintro ⟨p, hp, -⟩
    exact nomatch hgone.symm.trans hp
  | connect | connectFailed | writeBusy | write | writeFailed | acceptEx | acceptExFailed
  | acceptExGone =>
    refine iff_of_false (fun hthrows => ?_) (not_not.mpr ?_)
    · obtain ⟨p, hp, -⟩ := hthrows.2
      cases hp
    · rintro ⟨p, hp, -⟩
      cases hp
  | noIoctl =>
    refine iff_of_false (fun hthrows => ?_) (not_not.mpr trivial)
    obtain ⟨p, hp, -⟩ := hthrows.2
    cases hp
  | _ => exact iff_of_false (fun hthrows => Bool.noConfusion hthrows.1) (not_not.mpr trivial)

end World

theorem new_sane : World.new.Sane := rfl

theorem throwsAt_iff_startsOpen {es : List (Event Op Answer)} {c : Configuration}
    (hr : Runs.run (step object) (Config.start World.new) es = some c) :
    Runs.Along (step object) (fun c e => ¬ ThrowsAt World.AtClosed c e)
        (Config.start World.new) es ↔
      Runs.Along (step object) (Before World.StartsOpen) (Config.start World.new) es :=
  throwsAt_iff (J := World.Sane) (fun _ _ hw => hw)
    (fun _ _ _ _ hw hres => hw.stretch (stretch_of_resume hres))
    (fun _ _ _ _ _ hw hres => hw.throws_iff (stretch_of_resume hres)) new_sane hr

/-- A socket that receives, up to where its `on_received`, in which it calls `op`, has
returned. -/
def receivedRun (op : Op) : List (Event Op Answer) :=
  [.call (.socket 2 1 0 ⟨false, false, true, false, false, false⟩), .code (.opened (.fd 3)),
    .call (.connect 0), .code (.start none), .call (.elsewhere (.completes 0 [])), .code .go,
    .call .waitForInput, .code .go, .code (.start none),
    .code (.elsewhere (.completes 0 [7])), .code (.start none),
    .call op, .code .go, .back]

/-- A socket that is disconnected, up to where its `on_disconnected`, in which it calls `op`,
has returned. -/
def disconnectedRun (op : Op) : List (Event Op Answer) :=
  [.call (.socket 2 1 0 ⟨false, true, false, false, false, false⟩), .code (.opened (.fd 3)),
    .call (.connect 0), .code (.start none), .call (.elsewhere (.completes 0 [])), .code .go,
    .call .waitForInput, .code .go, .code (.start none),
    .code (.elsewhere (.completes 0 [])), .code (.start none),
    .call op, .code .go, .back]

end Windows

/-! ## The three backends -/

/-- **Closing a socket in its callback.**  On Linux no run leaves `wait_for_input` by an
exception for a socket that is closed; on macOS a run does not exactly if no socket is
closed when `ask_read_event` is called after `on_connected`, and on Windows exactly if
none is when the loop calls `start_read`. -/
theorem close_in_callback {ls : List (Event Linux.Op Linux.Answer)} {lc : Linux.Configuration}
    (hl : Runs.run (step Linux.object) (Config.start Linux.World.new) ls = some lc)
    {ms : List (Event Macos.Op Macos.Answer)} {mc : Macos.Configuration}
    (hm : Runs.run (step Macos.object) (Config.start Macos.World.new) ms = some mc)
    {ws : List (Event Windows.Op Windows.Answer)} {wc : Windows.Configuration}
    (hw : Runs.run (step Windows.object) (Config.start Windows.World.new) ws = some wc) :
    Runs.Along (step Linux.object) (fun c e => ¬ ThrowsAt Linux.World.AtClosed c e)
        (Config.start Linux.World.new) ls ∧
      (Runs.Along (step Macos.object) (fun c e => ¬ ThrowsAt Macos.World.AtClosed c e)
          (Config.start Macos.World.new) ms ↔
        Runs.Along (step Macos.object) (Before Macos.World.AsksOpen)
          (Config.start Macos.World.new) ms) ∧
      (Runs.Along (step Windows.object) (fun c e => ¬ ThrowsAt Windows.World.AtClosed c e)
          (Config.start Windows.World.new) ws ↔
        Runs.Along (step Windows.object) (Before Windows.World.StartsOpen)
          (Config.start Windows.World.new) ws) :=
  ⟨Linux.not_throwsAt hl, Macos.throwsAt_iff_asksOpen hm, Windows.throwsAt_iff_startsOpen hw⟩

/-- On Linux a socket is closed in `on_connected` and then received from, on macOS in
`on_received`, and on Windows in `on_disconnected`. -/
theorem close_in_callback_served : ∃ lc mc wc,
    Runs.run (step Linux.object) (Config.start Linux.World.new)
        (Linux.connectedRun (.close 0) ++ [.code (.recv (.failed Linux.EBADF)), .code .go]) =
      some lc ∧ frames lc.stack = [.loop] ∧
    Runs.run (step Macos.object) (Config.start Macos.World.new)
        (Macos.receivedRun (.api (.close 0)) ++ [.code (.recv (.failed Macos.EBADF)), .code .go]) =
      some mc ∧ frames mc.stack = [.loop] ∧
    Runs.run (step Windows.object) (Config.start Windows.World.new)
        (Windows.disconnectedRun (.close 0)) = some wc ∧ frames wc.stack = [.loop (some 0)] ∧
    Runs.Along (step Linux.object) (fun c e => ¬ ThrowsAt Linux.World.AtClosed c e)
      (Config.start Linux.World.new)
      (Linux.connectedRun (.close 0) ++ [.code (.recv (.failed Linux.EBADF)), .code .go]) ∧
    Runs.Along (step Macos.object) (fun c e => ¬ ThrowsAt Macos.World.AtClosed c e)
      (Config.start Macos.World.new)
      (Macos.receivedRun (.api (.close 0)) ++ [.code (.recv (.failed Macos.EBADF)), .code .go]) ∧
    Runs.Along (step Windows.object) (fun c e => ¬ ThrowsAt Windows.World.AtClosed c e)
      (Config.start Windows.World.new) (Windows.disconnectedRun (.close 0)) := by
  obtain ⟨lc, hl, hlstack⟩ : ∃ c, Runs.run (step Linux.object) (Config.start Linux.World.new)
      (Linux.connectedRun (.close 0) ++ [.code (.recv (.failed Linux.EBADF)), .code .go]) =
        some c ∧ frames c.stack = [.loop] := Runs.exists_run (by decide)
  obtain ⟨mc, hm, hmstack⟩ : ∃ c, Runs.run (step Macos.object) (Config.start Macos.World.new)
      (Macos.receivedRun (.api (.close 0)) ++ [.code (.recv (.failed Macos.EBADF)), .code .go]) =
        some c ∧ frames c.stack = [.loop] := Runs.exists_run (by decide)
  obtain ⟨wc, hw, hwstack⟩ : ∃ c, Runs.run (step Windows.object) (Config.start Windows.World.new)
      (Windows.disconnectedRun (.close 0)) = some c ∧ frames c.stack = [.loop (some 0)] :=
    Runs.exists_run (by decide)
  obtain ⟨hlinux, hmacos, hwindows⟩ := close_in_callback hl hm hw
  exact ⟨lc, mc, wc, hl, hlstack, hm, hmstack, hw, hwstack, hlinux, hmacos.mpr (by decide),
    hwindows.mpr (by decide)⟩

/-- On macOS a socket is closed in `on_connected`, on Windows in `on_received`: the
exception ends `wait_for_input`. -/
theorem close_in_callback_throws :
    (∃ c, Runs.run (step Macos.object) (Config.start Macos.World.new)
        (Macos.connectedRun (.api (.close 0)) ++ [.unwind (.ask none) 0]) = some c ∧
      c.stack = [] ∧
      ¬ Runs.Along (step Macos.object) (fun c e => ¬ ThrowsAt Macos.World.AtClosed c e)
        (Config.start Macos.World.new)
        (Macos.connectedRun (.api (.close 0)) ++ [.unwind (.ask none) 0])) ∧
    ∃ c, Runs.run (step Windows.object) (Config.start Windows.World.new)
        (Windows.receivedRun (.close 0) ++ [.unwind (.start none) 0]) = some c ∧
      c.stack = [] ∧
      ¬ Runs.Along (step Windows.object) (fun c e => ¬ ThrowsAt Windows.World.AtClosed c e)
        (Config.start Windows.World.new)
        (Windows.receivedRun (.close 0) ++ [.unwind (.start none) 0]) := by
  obtain ⟨mc, hm, hmstack⟩ : ∃ c, Runs.run (step Macos.object) (Config.start Macos.World.new)
      (Macos.connectedRun (.api (.close 0)) ++ [.unwind (.ask none) 0]) = some c ∧ c.stack = [] :=
    Runs.exists_run (by decide)
  obtain ⟨wc, hw, hwstack⟩ : ∃ c, Runs.run (step Windows.object) (Config.start Windows.World.new)
      (Windows.receivedRun (.close 0) ++ [.unwind (.start none) 0]) = some c ∧ c.stack = [] :=
    Runs.exists_run (by decide)
  refine ⟨⟨mc, hm, hmstack, fun h => ?_⟩, wc, hw, hwstack, fun h => ?_⟩
  · exact absurd ((Macos.throwsAt_iff_asksOpen hm).mp h) (by decide)
  · exact absurd ((Windows.throwsAt_iff_startsOpen hw).mp h) (by decide)

end AcppNetwork
