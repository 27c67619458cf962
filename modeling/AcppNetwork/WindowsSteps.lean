import AcppNetwork.WindowsLoop
import Mathlib

/-!
# The stretches of the Windows event loop

`Stretch` says what a stretch of code of a context can do, one constructor for each
way through it, and `stretch_of_resume` that the code does nothing else.

`World.ops` are the operations that the kernel still has pointers to: those that are
outstanding, and those with a completion in the queue.
-/
namespace AcppNetwork
namespace Windows

open Reentrant
open Linux (Callbacks)

/-- What the log says about a completion of an operation of a socket. -/
def World.dequeued (w : World) (key : Nat) (op : Overlapped) : List Note :=
  [.dequeued key op (w.pimpls key).isSome (w.pimpls op.pimpl).isSome]

/-- The ways through the code for a completion, which is off the queue. -/
inductive Dispatch : World → Packet → Option Nat → Next → Prop where
  | exec {w f refused} : Dispatch w (.exec f) refused (.callOut w (.loop none) (.exec f) [])
  | gone {w key op status refused} (hgone : w.pimpls key = none ∨ w.pimpls op.pimpl = none) :
      Dispatch w (.io key op status) refused (.goto w .undefined (w.dequeued key op))
  | failed {w key op error refused socket operation} (hsocket : w.pimpls key = some socket)
      (hoperation : w.pimpls op.pimpl = some operation) :
      Dispatch w (.io key op (.failure error)) refused
        (w.failed key socket op error (w.dequeued key op))
  | accepted {w key op n refused socket operation o h new w'} (htype : op.type = .accept)
      (hsocket : w.pimpls key = some socket) (hoperation : w.pimpls op.pimpl = some operation)
      (hnewSocket : operation.newSocket = some o) (hnew : w.owned o = some (h, new))
      (hstart : w.start ⟨h, .read⟩ new.fd SocketBasePimpl.bufferSize refused = some w') :
      Dispatch w (.io key op (.success n)) refused
        (w'.callThen socket (.loop (some key)) (w.dequeued key op)
          (socket.callbacks.call? (.onAccepted o)))
  | acceptedGone {w key op n refused socket operation} (htype : op.type = .accept)
      (hsocket : w.pimpls key = some socket) (hoperation : w.pimpls op.pimpl = some operation)
      (hnew : operation.newSocket.bind w.owned = none) :
      Dispatch w (.io key op (.success n)) refused (.goto w .undefined (w.dequeued key op))
  | connected {w key op n refused socket operation w'} (htype : op.type = .connect)
      (hsocket : w.pimpls key = some socket) (hoperation : w.pimpls op.pimpl = some operation)
      (hstart : w.start ⟨key, .read⟩ socket.fd SocketBasePimpl.bufferSize refused = some w') :
      Dispatch w (.io key op (.success n)) refused
        (w'.callThen socket (.loop (some key)) (w.dequeued key op)
          (socket.callbacks.call? .onConnected))
  | startFailed {w key op n refused} (htype : op.type = .accept ∨ op.type = .connect)
      (hsocket : w.pimpls key ≠ none) (hoperation : w.pimpls op.pimpl ≠ none) :
      Dispatch w (.io key op (.success n)) refused (.throw w (w.dequeued key op))
  | disconnected {w key op refused socket operation} (htype : op.type = .read)
      (hsocket : w.pimpls key = some socket) (hoperation : w.pimpls op.pimpl = some operation) :
      Dispatch w (.io key op (.success 0)) refused
        (w.callThen socket (.loop (some key)) (w.dequeued key op)
          (socket.callbacks.call? .onDisconnected))
  | received {w key op n refused socket operation} (htype : op.type = .read) (hn : n ≠ 0)
      (hsocket : w.pimpls key = some socket) (hoperation : w.pimpls op.pimpl = some operation) :
      Dispatch w (.io key op (.success n)) refused
        (w.callThen socket (.received key) (w.dequeued key op)
          (socket.callbacks.call? (.onReceived (operation.readBuffer.take n))))
  | sent {w key op n refused socket operation} (htype : op.type = .write)
      (hsocket : w.pimpls key = some socket) (hoperation : w.pimpls op.pimpl = some operation) :
      Dispatch w (.io key op (.success n)) refused
        ((w.put op.pimpl { operation with
          writeOp := { operation.writeOp with inUse := false } }).callThen socket (.loop (some key))
          (w.dequeued key op) (socket.callbacks.call? (.onSent 0)))

/-- The pimpl after `write` filled the buffer. -/
def SocketBasePimpl.fill (p : SocketBasePimpl) (buffer : List Byte) : SocketBasePimpl :=
  let l := min SocketBasePimpl.bufferSize buffer.length
  { p with writeOp := ⟨buffer.take l ++ p.writeOp.buffer.drop l, true⟩ }

/-- The ways through the code. -/
inductive Stretch : World → Frame → Answer → Next → Prop where
  | waitForInput {w} :
      Stretch w (.api .waitForInput) .go (.goto { w with run := true } (.loop none) [])
  | stop {w} : Stretch w (.api .stop) .go (.ret { w with run := false } .void [])
  | exec {w f} : Stretch w (.api (.exec f)) (.posted true)
      (.ret { w with queue := w.queue ++ [.exec f] } .void [])
  | execLost {w f} : Stretch w (.api (.exec f)) (.posted false) (.ret w .void [])
  | socket {w domain type protocol callbacks a} (hopens : w.Opens a) :
      Stretch w (.api (.socket domain type protocol callbacks)) (.opened a)
        (.ret (w.constructSocket domain type protocol callbacks a) (.object w.fresh) [])
  | adopt {w domain type protocol fd callbacks} :
      Stretch w (.api (.adopt domain type protocol fd callbacks)) .go
        (.ret (w.construct domain type protocol fd callbacks) (.object w.fresh) [])
  | move {w other w'} (hmove : w.move other = some w') :
      Stretch w (.api (.move other)) .go (.ret w' (.object w.fresh) [])
  | assign {w o other h p old} (howned : w.owned other = some (h, p)) :
      Stretch w (.api (.assign o other)) .go
        (.goto { w with objects :=
            Function.update (Function.update w.objects other (some none)) o (some (some h)) }
          (Frame.deletingOld (.assigned o other) old) [])
  | destroy {w o} (ho : w.objects o ≠ none) (hheld : w.isNewSocket o = false) :
      Stretch w (.api (.destroy o)) .go (.goto w (.destroying o .done) [])
  | close {w o h p} (howned : w.owned o = some (h, p)) :
      Stretch w (.api (.close o)) .go (.ret (w.close h p) .void [])
  | closeMoved {w o} (howned : w.owned o = none) :
      Stretch w (.api (.close o)) .go (.ret w .void [])
  | connect {w o h p refused w'} (howned : w.owned o = some (h, p))
      (hstart : w.start ⟨h, .connect⟩ p.fd 0 refused = some w') :
      Stretch w (.api (.connect o)) (.start refused) (.ret w' (.bool false) [])
  | connectFailed {w o h p refused} (howned : w.owned o = some (h, p))
      (hstart : w.start ⟨h, .connect⟩ p.fd 0 refused = none) :
      Stretch w (.api (.connect o)) (.start refused) (.throw w [])
  | listenRefused {w o h p e} (howned : w.owned o = some (h, p)) :
      Stretch w (.api (.listen o)) (.listen (.refused e)) (.ret w (.int (-1)) [])
  | noIoctl {w o h p e} (howned : w.owned o = some (h, p)) :
      Stretch w (.api (.listen o)) (.listen (.noIoctl e)) (.throw w [])
  | noAcceptEx {w o h p} (howned : w.owned o = some (h, p)) (hopen : w.handles p.fd ≠ none) :
      Stretch w (.api (.listen o)) (.listen .noAcceptEx) (.ret w (.int 0) [])
  | listen {w o h p a} (howned : w.owned o = some (h, p)) (hopen : w.handles p.fd ≠ none)
      (hopens : w.Opens a) :
      Stretch w (.api (.listen o)) (.listen (.ready a))
        (.goto ((w.constructSocket p.domain p.type p.protocol noCallbacks a).put h
            { p with newSocket := some w.fresh })
          (Frame.destroyingOld (.acceptEx h) p.newSocket) [])
  | writeBusy {w o h p buffer refused} (howned : w.owned o = some (h, p))
      (hinUse : p.writeOp.inUse = true) :
      Stretch w (.api (.write o buffer)) (.start refused) (.ret w (.size 0) [])
  | write {w o h p buffer refused w'} (howned : w.owned o = some (h, p))
      (hinUse : p.writeOp.inUse = false)
      (hstart : (w.put h (p.fill buffer)).start ⟨h, .write⟩ p.fd
        (min SocketBasePimpl.bufferSize buffer.length) refused = some w') :
      Stretch w (.api (.write o buffer)) (.start refused)
        (.ret w' (.size (min SocketBasePimpl.bufferSize buffer.length)) [])
  | writeFailed {w o h p buffer refused} (howned : w.owned o = some (h, p))
      (hinUse : p.writeOp.inUse = false)
      (hstart : (w.put h (p.fill buffer)).start ⟨h, .write⟩ p.fd
        (min SocketBasePimpl.bufferSize buffer.length) refused = none) :
      Stretch w (.api (.write o buffer)) (.start refused) (.throw (w.put h (p.fill buffer)) [])
  | callbacks {w o h p callbacks} (howned : w.owned o = some (h, p)) :
      Stretch w (.api (.callbacks o callbacks)) .go
        (.ret (w.put h { p with callbacks := callbacks }) .void [])
  | elsewhereCalled {w e w'} (helsewhere : w.elsewhere e = some w') :
      Stretch w (.api (.elsewhere e)) .go (.ret w' .void [])
  | elsewhere {w f e w'} (helsewhere : w.elsewhere e = some w') :
      Stretch w f (.elsewhere e) (.goto w' f [])
  | dequeue {w key refused packet rest out} (hrun : w.run = true)
      (hqueue : w.queue = packet :: rest)
      (hdispatch : Dispatch { w with queue := rest } packet refused out) :
      Stretch w (.loop key) (.start refused) out
  | waitTimeout {w key} (hrun : w.run = true) :
      Stretch w (.loop key) (.waitFailed WAIT_TIMEOUT) (.goto w (.loop key) [])
  | waitEnds {w e} (hrun : w.run = true) (he : e ≠ WAIT_TIMEOUT) :
      Stretch w (.loop none) (.waitFailed e) (.ret w .void [])
  | waitBroken {w key e} (hrun : w.run = true) (he : e ≠ WAIT_TIMEOUT) :
      Stretch w (.loop (some key)) (.waitFailed e) (.goto w .undefined [])
  | stopped {w key} (hrun : w.run = false) : Stretch w (.loop key) .go (.ret w .void [])
  | restart {w key refused socket w'} (hsocket : w.pimpls key = some socket)
      (hstart : w.start ⟨key, .read⟩ socket.fd SocketBasePimpl.bufferSize refused = some w') :
      Stretch w (.received key) (.start refused)
        (.goto w' (.loop (some key)) [.restarted key true])
  | restartFailed {w key refused socket} (hsocket : w.pimpls key = some socket)
      (hstart : w.start ⟨key, .read⟩ socket.fd SocketBasePimpl.bufferSize refused = none) :
      Stretch w (.received key) (.start refused) (.throw w [.restarted key true])
  | restartGone {w key refused} (hgone : w.pimpls key = none) :
      Stretch w (.received key) (.start refused) (.goto w .undefined [.restarted key false])
  | destroying {w o h p next} (howned : w.owned o = some (h, p)) :
      Stretch w (.destroying o next) .go
        (.goto (World.close { w with objects := Function.update w.objects o none } h p)
          (.deleting h next) [])
  | destroyingMoved {w o next} (howned : w.owned o = none) :
      Stretch w (.destroying o next) .go
        (.goto { w with objects := Function.update w.objects o none } next [])
  | deleting {w h next} :
      Stretch w (.deleting h next) .go
        (.goto { w with pimpls := Function.update w.pimpls h none }
          (next.destroyingOld ((w.pimpls h).bind SocketBasePimpl.newSocket)) [])
  | assigned {w o other h p old} (howned : w.owned o = some (h, p))
      (hother : w.objects other = some old) :
      Stretch w (.assigned o other) .go
        (.goto { w with
            pimpls := Function.update (Function.update w.pimpls h (some { p with parent := o }))
              w.fresh (some (.new 0 0 0 SocketBasePimpl.invalidFd noCallbacks other))
            objects := Function.update w.objects other (some (some w.fresh))
            fresh := w.fresh + 1 }
          (Frame.deletingOld .done old) [])
  | assignedGone {w o other} (hgone : w.owned o = none ∨ w.objects other = none) :
      Stretch w (.assigned o other) .go (.goto w .undefined [])
  | acceptEx {w h p refused w'} (hp : w.pimpls h = some p)
      (hstart : w.start ⟨h, .accept⟩ p.fd 0 refused = some w') :
      Stretch w (.acceptEx h) (.start refused) (.ret w' (.int 0) [])
  | acceptExFailed {w h p refused} (hp : w.pimpls h = some p) :
      Stretch w (.acceptEx h) (.start refused) (.throw w [])
  | acceptExGone {w h refused} (hgone : ((w.pimpls h).bind (·.newSocket)).bind w.owned = none) :
      Stretch w (.acceptEx h) (.start refused) (.goto w .undefined [])
  | done {w} : Stretch w .done .go (.ret w .void [])

section
variable {w : World} {f : Frame} {a : Answer} {out : Next}

theorem dispatch_of_completed {key n : Nat} {op : Overlapped} {socket operation : SocketBasePimpl}
    {refused : Option Nat} (hsocket : w.pimpls key = some socket)
    (hoperation : w.pimpls op.pimpl = some operation) :
    Dispatch w (.io key op (.success n)) refused
      (w.completed key socket op operation n refused (w.dequeued key op)) := by
  unfold World.completed
  split
  · rename_i htype
    split
    · rename_i o h new hnewSocket hnew
      rw [hnewSocket, Option.bind_some] at hnew
      unfold World.startRead World.startThen
      split
      · exact .accepted htype hsocket hoperation hnewSocket hnew ‹_›
      · exact .startFailed (.inl htype) (by simp [hsocket]) (by simp [hoperation])
    · rename_i hnot
      refine .acceptedGone htype hsocket hoperation ?_
      cases ho : operation.newSocket with
      | none => rfl
      | some o =>
        rw [ho, Option.bind_some] at hnot
        cases hnew : w.owned o with
        | none => rw [Option.bind_some, hnew]
        | some x => exact absurd hnew (hnot o x.1 x.2 rfl)
  · rename_i htype
    unfold World.startRead World.startThen
    split
    · exact .connected htype hsocket hoperation ‹_›
    · exact .startFailed (.inr htype) (by simp [hsocket]) (by simp [hoperation])
  · rename_i htype
    split
    · rename_i hn
      subst hn
      exact .disconnected htype hsocket hoperation
    · exact .received htype ‹_› hsocket hoperation
  · exact .sent ‹_› hsocket hoperation

theorem dispatch_of_dequeue {packet : Packet} {refused : Option Nat} :
    Dispatch w packet refused (w.dequeue refused packet) := by
  cases packet with
  | exec f => exact .exec
  | io key op status =>
    unfold World.dequeue
    dsimp only
    split
    · cases status with
      | failure error => exact .failed ‹_› ‹_›
      | success n => exact dispatch_of_completed ‹_› ‹_›
    · rename_i hnot
      refine .gone ?_
      cases hsocket : w.pimpls key with
      | none => exact .inl rfl
      | some socket =>
        cases hoperation : w.pimpls op.pimpl with
        | none => exact .inr rfl
        | some operation => exact absurd hoperation (hnot socket operation hsocket)

theorem stretch_of_listen {o h : Nat} {p : SocketBasePimpl} {l : Listened}
    (howned : w.owned o = some (h, p)) (hl : w.listen h p l = some out) :
    Stretch w (.api (.listen o)) (.listen l) out := by
  cases l with
  | refused e =>
    simp only [World.listen] at hl
    split at hl <;> cases hl
    exact .listenRefused howned
  | noIoctl e =>
    simp only [World.listen] at hl
    split at hl <;> cases hl
    exact .noIoctl howned
  | noAcceptEx =>
    simp only [World.listen] at hl
    split at hl <;> cases hl
    exact .noAcceptEx howned ‹_›
  | ready a =>
    simp only [World.listen] at hl
    split at hl
    · rename_i hopen
      cases hl
      exact .listen howned hopen.1 hopen.2
    · cases hl

theorem stretch_of_write {o h : Nat} {p : SocketBasePimpl} {buffer : List Byte}
    {refused : Option Nat} (howned : w.owned o = some (h, p)) :
    Stretch w (.api (.write o buffer)) (.start refused) (w.write h p buffer refused) := by
  unfold World.write
  split
  · exact .writeBusy howned ‹_›
  · rename_i hinUse
    rw [Bool.not_eq_true] at hinUse
    unfold World.startThen
    dsimp only
    split
    · exact .write howned hinUse ‹_›
    · exact .writeFailed howned hinUse ‹_›

theorem stretch_of_api {op : Op} (h : w.api op a = some out) : Stretch w (.api op) a out := by
  cases op with
  | waitForInput =>
    cases a <;> cases h
    exact .waitForInput
  | stop =>
    cases a <;> cases h
    exact .stop
  | exec f =>
    cases a <;> simp only [World.api, reduceCtorEq] at h
    rename_i posted
    cases posted <;> cases h
    · exact .execLost
    · exact .exec
  | socket =>
    cases a <;> simp only [World.api, reduceCtorEq] at h
    split at h <;> cases h
    exact .socket ‹_›
  | adopt =>
    cases a <;> cases h
    exact .adopt
  | move =>
    cases a <;> simp only [World.api, reduceCtorEq] at h
    obtain ⟨w', hmove, rfl⟩ := Option.map_eq_some_iff.mp h
    exact .move hmove
  | assign o other =>
    cases a <;> simp only [World.api, reduceCtorEq] at h
    obtain ⟨⟨x, p⟩, howned, hrest⟩ := Option.bind_eq_some_iff.mp h
    obtain ⟨old, -, hret⟩ := Option.bind_eq_some_iff.mp hrest
    cases hret
    exact .assign howned
  | destroy o =>
    cases a <;> simp only [World.api, reduceCtorEq] at h
    split at h
    · cases h
    · rename_i hfree
      cases h
      rw [not_or, Bool.not_eq_true] at hfree
      exact .destroy hfree.1 hfree.2
  | close o =>
    cases a <;> simp only [World.api, reduceCtorEq] at h
    obtain ⟨_, -, rfl⟩ := Option.map_eq_some_iff.mp h
    split
    · exact .close ‹_›
    · exact .closeMoved ‹_›
  | connect o =>
    cases a <;> simp only [World.api, reduceCtorEq] at h
    obtain ⟨⟨x, p⟩, howned, rfl⟩ := Option.map_eq_some_iff.mp h
    unfold World.startThen
    dsimp only
    split
    · exact .connect howned ‹_›
    · exact .connectFailed howned ‹_›
  | listen o =>
    cases a <;> simp only [World.api, reduceCtorEq] at h
    obtain ⟨⟨x, p⟩, howned, hl⟩ := Option.bind_eq_some_iff.mp h
    exact stretch_of_listen howned hl
  | write o buffer =>
    cases a <;> simp only [World.api, reduceCtorEq] at h
    obtain ⟨⟨x, p⟩, howned, rfl⟩ := Option.map_eq_some_iff.mp h
    exact stretch_of_write howned
  | callbacks o callbacks =>
    cases a <;> simp only [World.api, reduceCtorEq] at h
    obtain ⟨⟨x, p⟩, howned, rfl⟩ := Option.map_eq_some_iff.mp h
    exact .callbacks howned
  | elsewhere e =>
    cases a <;> simp only [World.api, reduceCtorEq] at h
    obtain ⟨w', helsewhere, rfl⟩ := Option.map_eq_some_iff.mp h
    exact .elsewhereCalled helsewhere

theorem stretch_of_waitFailed {key : Option Nat} {e : Nat} (hrun : w.run = true) :
    Stretch w (.loop key) (.waitFailed e) (w.waitFailed key e) := by
  unfold World.waitFailed
  split
  · rename_i he
    subst he
    exact .waitTimeout hrun
  · cases key with
    | none => exact .waitEnds hrun ‹_›
    | some key => exact .waitBroken hrun ‹_›

theorem stretch_of_destroying {o : Nat} {next : Frame} :
    Stretch w (.destroying o next) .go (w.destroying o next) := by
  unfold World.destroying
  dsimp only
  split
  · exact .destroying ‹_›
  · exact .destroyingMoved ‹_›

theorem stretch_of_assigned {o other : Nat} :
    Stretch w (.assigned o other) .go (w.assigned o other) := by
  unfold World.assigned
  split
  · exact .assigned ‹_› ‹_›
  · rename_i hnot
    refine .assignedGone ?_
    cases howned : w.owned o with
    | none => exact .inl rfl
    | some x =>
      cases hother : w.objects other with
      | none => exact .inr rfl
      | some old => exact absurd hother (hnot x.1 x.2 old howned)

theorem stretch_of_acceptEx {h : Nat} {refused : Option Nat} :
    Stretch w (.acceptEx h) (.start refused) (w.acceptEx h refused) := by
  unfold World.acceptEx
  split
  · rename_i p hp
    split
    · split
      · exact .acceptExFailed hp
      · unfold World.startThen
        split
        · exact .acceptEx hp ‹_›
        · exact .acceptExFailed hp
    · refine .acceptExGone ?_
      rw [hp]
      assumption
  · rename_i hp
    refine .acceptExGone ?_
    rw [hp]
    rfl

theorem stretch_of_received {key : Nat} {refused : Option Nat} :
    Stretch w (.received key) (.start refused) (w.received key refused) := by
  unfold World.received
  split
  · unfold World.startRead World.startThen
    split
    · exact .restart ‹_› ‹_›
    · exact .restartFailed ‹_› ‹_›
  · exact .restartGone ‹_›

theorem stretch_of_code (h : w.code f a = some out) : Stretch w f a out := by
  cases f with
  | api op => exact stretch_of_api h
  | loop key =>
    cases a <;> simp only [World.code, reduceCtorEq] at h
    · split at h
      · split at h <;> cases h
        exact .dequeue ‹_› ‹_› dispatch_of_dequeue
      · cases h
    · split at h
      · rename_i hfailed
        cases h
        exact stretch_of_waitFailed hfailed.1
      · cases h
    · split at h <;> cases h
      exact .stopped (Bool.not_eq_true _ ▸ ‹_›)
  | received key =>
    cases a <;> cases h
    exact stretch_of_received
  | destroying o next =>
    cases a <;> cases h
    exact stretch_of_destroying
  | deleting x next =>
    cases a <;> cases h
    exact .deleting
  | assigned o other =>
    cases a <;> cases h
    exact stretch_of_assigned
  | acceptEx x =>
    cases a <;> cases h
    exact stretch_of_acceptEx
  | done =>
    cases a <;> cases h
    exact .done
  | undefined => cases a <;> cases h

/-- **The code does nothing else.** -/
theorem stretch_of_resume (h : resume w f a = some out) : Stretch w f a out := by
  cases a with
  | elsewhere e =>
    obtain ⟨w', helsewhere, rfl⟩ := Option.map_eq_some_iff.mp h
    exact .elsewhere helsewhere
  | opened a => exact stretch_of_code h
  | listen l => exact stretch_of_code h
  | start refused => exact stretch_of_code h
  | posted b => exact stretch_of_code h
  | waitFailed e => exact stretch_of_code h
  | go => exact stretch_of_code h

end

/-! ## Operations the kernel knows -/

/-- The operation a packet is of. -/
def Packet.op? : Packet → Option Overlapped
  | .io _ op _ => some op
  | .exec _ => none

/-- The same pimpls, but the buffers of their reads may have been filled. -/
def SameButRead (pimpls pimpls' : Nat → Option SocketBasePimpl) : Prop :=
  ∀ x, pimpls x = none ∧ pimpls' x = none ∨
    ∃ p buffer, pimpls x = some p ∧ pimpls' x = some { p with readBuffer := buffer }

theorem SameButRead.refl (pimpls : Nat → Option SocketBasePimpl) : SameButRead pimpls pimpls := by
  intro x
  cases hx : pimpls x with
  | none => exact .inl ⟨rfl, rfl⟩
  | some p => exact .inr ⟨p, p.readBuffer, rfl, rfl⟩

/-- The operation that completes. -/
def Elsewhere.index : Elsewhere → Option Nat
  | .completes i _ | .fails i _ => some i
  | .posts _ | .opens _ => none

namespace World
variable {w w' : World} {h o : Nat} {p : SocketBasePimpl}

/-- The operations that are outstanding or have a completion in the queue. -/
def ops (w : World) : List Overlapped :=
  w.outstanding.map Pending.op ++ w.queue.filterMap Packet.op?

theorem owned_iff : w.owned o = some (h, p) ↔
    w.objects o = some (some h) ∧ w.pimpls h = some p := by
  unfold owned
  rw [Option.bind_eq_some_iff]
  constructor
  · rintro ⟨x, hx, hmap⟩
    obtain ⟨q, hq, heq⟩ := Option.map_eq_some_iff.mp hmap
    cases heq
    exact ⟨Option.join_eq_some_iff.mp hx, hq⟩
  · rintro ⟨ho, hp⟩
    exact ⟨h, Option.join_eq_some_iff.mpr ho, by rw [hp, Option.map_some]⟩

/-- **An operation that begins is outstanding**, with the key of its handle. -/
theorem start_some {op : Overlapped} {fd : Int} {len : Nat} {refused : Option Nat}
    (h : w.start op fd len refused = some w') :
    ∃ key, w.handles fd = some key ∧ refused = none ∧
      w' = { w with outstanding := w.outstanding ++ [⟨key, op, len⟩] } := by
  unfold start at h
  split at h
  · cases h
    exact ⟨_, ‹_›, rfl, rfl⟩
  · cases h

theorem start_none {op : Overlapped} {fd : Int} {len : Nat} {refused : Option Nat} :
    w.start op fd len refused = none ↔ w.handles fd = none ∨ refused ≠ none := by
  unfold start
  split
  · rename_i hfd
    simp [hfd]
  · rename_i hnot
    refine iff_of_true rfl ?_
    cases hfd : w.handles fd with
    | none => exact .inl rfl
    | some key =>
      refine .inr ?_
      rintro rfl
      exact hnot key hfd rfl

/-- One more operation. -/
theorem ops_start {op : Overlapped} {fd : Int} {len : Nat} {refused : Option Nat}
    (h : w.start op fd len refused = some w') : w'.ops.Perm (op :: w.ops) := by
  obtain ⟨key, -, -, rfl⟩ := start_some h
  unfold ops
  rw [List.map_append, List.append_assoc]
  exact List.perm_middle

/-- **An operation that completes** is in the queue afterwards, or the port does not hear
of it. -/
theorem ops_settle {i : Nat} {pending : Pending} (hi : w.outstanding[i]? = some pending)
    (status : Status) : w.ops.Perm
      ((if pending.key = none then [pending.op] else []) ++ (w.settle i pending status).ops) := by
  obtain ⟨hlt, hget⟩ := List.getElem?_eq_some_iff.mp hi
  have hperm : w.outstanding.Perm (pending :: w.outstanding.eraseIdx i) := by
    have hcons := List.getElem_cons_eraseIdx_perm hlt
    rw [hget] at hcons
    exact hcons.symm
  have hops : w.ops.Perm (pending.op :: ((w.outstanding.eraseIdx i).map Pending.op ++
      w.queue.filterMap Packet.op?)) := (hperm.map Pending.op).append_right _
  refine hops.trans ?_
  unfold ops settle
  cases hkey : pending.key with
  | none => simp
  | some key =>
    have hqueue : (w.queue ++ [Packet.io key pending.op status]).filterMap Packet.op? =
        w.queue.filterMap Packet.op? ++ [pending.op] := by
      rw [List.filterMap_append]
      rfl
    simp only [Option.map_some, Option.toList_some, hqueue, reduceCtorEq, if_false,
      List.nil_append, ← List.append_assoc]
    exact (List.perm_append_singleton ..).symm

/-- `exec` is no operation of a socket. -/
theorem ops_posts (w : World) (f : Nat) : ops { w with queue := w.queue ++ [.exec f] } = w.ops := by
  unfold ops
  rw [List.filterMap_append, show [Packet.exec f].filterMap Packet.op? = [] from rfl,
    List.append_nil]

/-- The packet of an operation is the first one in the queue. -/
theorem ops_dequeue {key : Nat} {op : Overlapped} {status : Status} {rest : List Packet}
    (hqueue : w.queue = .io key op status :: rest) :
    w.ops.Perm (op :: ops { w with queue := rest }) := by
  unfold ops
  rw [hqueue]
  exact List.perm_middle

theorem ops_dequeue_exec {f : Nat} {rest : List Packet} (hqueue : w.queue = .exec f :: rest) :
    ops { w with queue := rest } = w.ops := by
  unfold ops
  rw [hqueue]
  rfl

/-- The counts when an operation is gone from the list. -/
theorem count_of_perm {op : Overlapped} (h : w.ops.Perm (op :: w'.ops)) (x : Overlapped) :
    w.ops.count x = w'.ops.count x + if op = x then 1 else 0 := by
  rw [h.count_eq, List.count_cons]
  simp only [beq_iff_eq]

/-- The bytes of an operation change the buffer of a read, and nothing else. -/
theorem transfer_some {pending : Pending} {data : List Byte}
    (h : w.transfer pending data = some w') :
    ∃ pimpls, w' = { w with pimpls := pimpls } ∧ SameButRead w.pimpls pimpls := by
  unfold transfer at h
  split at h
  · split at h <;> cases h
    refine ⟨_, rfl, fun x => ?_⟩
    by_cases hx : x = pending.op.pimpl
    · subst hx
      rw [Function.update_self]
      cases hp : w.pimpls pending.op.pimpl with
      | none => exact .inl ⟨rfl, rfl⟩
      | some p => exact .inr ⟨p, _, rfl, rfl⟩
    · rw [Function.update_of_ne hx]
      exact SameButRead.refl w.pimpls x
  · split at h <;> cases h
    exact ⟨w.pimpls, rfl, .refl _⟩
  · split at h <;> cases h
    exact ⟨w.pimpls, rfl, .refl _⟩
  · split at h <;> cases h
    exact ⟨w.pimpls, rfl, .refl _⟩

/-- **What happens meanwhile**: an operation completes, or `exec` is called, or a handle
is opened. -/
theorem elsewhere_some {e : Elsewhere} (he : w.elsewhere e = some w') :
    (∃ i pending pimpls status, e.index = some i ∧ w.outstanding[i]? = some pending ∧
      SameButRead w.pimpls pimpls ∧ w' = World.settle { w with pimpls := pimpls } i pending status) ∨
    (∃ f, e.index = none ∧ w' = { w with queue := w.queue ++ [.exec f] }) ∨
    ∃ n : Nat, e.index = none ∧ w.handles n = none ∧
      w' = { w with handles := Function.update w.handles n (some none) } := by
  cases e with
  | completes i data =>
    obtain ⟨pending, hi, hrest⟩ := Option.bind_eq_some_iff.mp he
    obtain ⟨w₁, htransfer, hret⟩ := Option.bind_eq_some_iff.mp hrest
    cases hret
    obtain ⟨pimpls, rfl, hpimpls⟩ := transfer_some htransfer
    exact .inl ⟨i, pending, pimpls, _, rfl, hi, hpimpls, rfl⟩
  | fails i error =>
    obtain ⟨pending, hi, hrest⟩ := Option.bind_eq_some_iff.mp he
    split at hrest <;> cases hrest
    exact .inl ⟨i, pending, w.pimpls, _, rfl, hi, .refl _, rfl⟩
  | posts f =>
    cases he
    exact .inr (.inl ⟨f, rfl, rfl⟩)
  | opens n =>
    simp only [elsewhere] at he
    split at he <;> cases he
    exact .inr (.inr ⟨n, rfl, ‹_›, rfl⟩)

/-! ### Frame facts -/

theorem start_frame {op : Overlapped} {fd : Int} {len : Nat} {refused : Option Nat}
    (h : w.start op fd len refused = some w') : w'.pimpls = w.pimpls ∧ w'.fresh = w.fresh := by
  obtain ⟨key, -, -, rfl⟩ := start_some h
  exact ⟨rfl, rfl⟩

@[simp] theorem callThen_state (w : World) (socket : SocketBasePimpl) (f : Frame)
    (notes : List Note) (cb : Option Linux.Callback) :
    (w.callThen socket f notes cb).state = w := by
  cases cb <;> rfl

@[simp] theorem callThen_frames (w : World) (socket : SocketBasePimpl) (f : Frame)
    (notes : List Note) (cb : Option Linux.Callback) :
    (w.callThen socket f notes cb).frames = [f] := by
  cases cb <;> rfl

@[simp] theorem callThen_notes (w : World) (socket : SocketBasePimpl) (f : Frame)
    (notes : List Note) (cb : Option Linux.Callback) :
    (w.callThen socket f notes cb).notes = notes := by
  cases cb <;> rfl

theorem addSocket_eq (w : World) (fd : Int) (key : Nat) :
    w.addSocket fd key = { w with handles := (w.addSocket fd key).handles } := by
  unfold addSocket
  split <;> rfl

theorem close_eq (w : World) (h : Nat) (p : SocketBasePimpl) :
    w.close h p =
      { w with handles := (w.close h p).handles, pimpls := (w.close h p).pimpls } := by
  unfold close
  split <;> rfl

theorem construct_eq (w : World) (domain type protocol fd : Int) (callbacks : Callbacks) :
    w.construct domain type protocol fd callbacks =
      { w with
        handles := (w.construct domain type protocol fd callbacks).handles
        pimpls := Function.update w.pimpls w.fresh
          (some (SocketBasePimpl.new domain type protocol fd callbacks w.fresh))
        objects := Function.update w.objects w.fresh (some (some w.fresh))
        fresh := w.fresh + 1 } := by
  unfold construct
  rw [addSocket_eq]

theorem constructSocket_eq (w : World) (domain type protocol : Int) (callbacks : Callbacks)
    (a : Opened) : ∃ fd, w.constructSocket domain type protocol callbacks a =
      { w with
        handles := (w.constructSocket domain type protocol callbacks a).handles
        pimpls := Function.update w.pimpls w.fresh
          (some (SocketBasePimpl.new domain type protocol fd callbacks w.fresh))
        objects := Function.update w.objects w.fresh (some (some w.fresh))
        fresh := w.fresh + 1 } := by
  cases a with
  | fd n => exact ⟨n, construct_eq ..⟩
  | failed e => exact ⟨SocketBasePimpl.invalidFd, construct_eq ..⟩

/-! ### What becomes of the pimpls -/

/-- Each pimpl of the second table is one of the first, changed as `R` allows, or has an
address from `n` up to `n'`, and is as `N` says. -/
def Evolves (R : SocketBasePimpl → SocketBasePimpl → Prop) (N : SocketBasePimpl → Prop)
    (n n' : Nat) (m m' : Nat → Option SocketBasePimpl) : Prop :=
  ∀ h p', m' h = some p' → (∃ p, m h = some p ∧ R p p') ∨ n ≤ h ∧ h < n' ∧ N p'

section
variable {R : SocketBasePimpl → SocketBasePimpl → Prop} {N : SocketBasePimpl → Prop}
  {n n' n'' : Nat} {m m' m'' : Nat → Option SocketBasePimpl}

theorem evolves_of_eq (hR : ∀ p, R p p) (h : m' = m) : Evolves R N n n' m m' := by
  intro x p' hp'
  rw [h] at hp'
  exact .inl ⟨p', hp', hR p'⟩

theorem evolves_update {q : SocketBasePimpl} (hR : ∀ p, R p p)
    (hm' : m' = Function.update m h (some q)) (hp : m h = some p) (hq : R p q) :
    Evolves R N n n' m m' := by
  intro x p' hp'
  rw [hm'] at hp'
  by_cases hx : x = h
  · rw [hx, Function.update_self, Option.some.injEq] at hp'
    exact .inl ⟨p, hx ▸ hp, hp' ▸ hq⟩
  · rw [Function.update_of_ne hx] at hp'
    exact .inl ⟨p', hp', hR p'⟩

theorem evolves_new {q : Option SocketBasePimpl} (hR : ∀ p, R p p)
    (hm' : m' = Function.update m n q) (hn : n < n') (hq : ∀ p, q = some p → N p) :
    Evolves R N n n' m m' := by
  intro x p' hp'
  rw [hm'] at hp'
  by_cases hx : x = n
  · rw [hx, Function.update_self] at hp'
    exact .inr ⟨Nat.le_of_eq hx.symm, hx ▸ hn, hq p' hp'⟩
  · rw [Function.update_of_ne hx] at hp'
    exact .inl ⟨p', hp', hR p'⟩

theorem evolves_delete (hR : ∀ p, R p p) (hm' : m' = Function.update m h none) :
    Evolves R N n n' m m' := by
  intro x p' hp'
  rw [hm'] at hp'
  by_cases hx : x = h
  · rw [hx, Function.update_self] at hp'
    cases hp'
  · rw [Function.update_of_ne hx] at hp'
    exact .inl ⟨p', hp', hR p'⟩

theorem evolves_read (hR : ∀ p buffer, R p { p with readBuffer := buffer })
    (hread : SameButRead m m') : Evolves R N n n' m m' := by
  intro x p' hp'
  rcases hread x with ⟨-, hnone⟩ | ⟨p, buffer, hp, hp''⟩
  · exact nomatch hnone.symm.trans hp'
  · obtain rfl := Option.some.inj (hp''.symm.trans hp')
    exact .inl ⟨p, hp, hR p buffer⟩

theorem Evolves.trans (hR : ∀ {p p' p''}, R p p' → R p' p'' → R p p'')
    (hN : ∀ {p p'}, N p → R p p' → N p') (he : Evolves R N n n' m m')
    (he' : Evolves R N n' n'' m' m'') (hn : n ≤ n') (hn' : n' ≤ n'') :
    Evolves R N n n'' m m'' := by
  intro x p'' hp''
  rcases he' x p'' hp'' with ⟨p', hp', hstep'⟩ | ⟨hge, hlt, hnew⟩
  · rcases he x p' hp' with ⟨p, hp, hstep⟩ | ⟨hge, hlt, hnew⟩
    · exact .inl ⟨p, hp, hR hstep hstep'⟩
    · exact .inr ⟨hge, by omega, hN hnew hstep'⟩
  · exact .inr ⟨by omega, hlt, hnew⟩

end

/-! ### What a stretch of code does to the pimpls -/

/-- `R` allows what the code does to a pimpl, one field of it after the other (filling the
write buffer apart), and a new one is as `N` says. -/
structure Allows (R : SocketBasePimpl → SocketBasePimpl → Prop) (N : SocketBasePimpl → Prop) :
    Prop where
  refl : ∀ p, R p p
  trans : ∀ {p p' p''}, R p p' → R p' p'' → R p p''
  keeps : ∀ {p p'}, N p → R p p' → N p'
  readBuffer : ∀ p buffer, R p { p with readBuffer := buffer }
  fd : ∀ p, R p { p with fd := SocketBasePimpl.invalidFd }
  parent : ∀ p o, R p { p with parent := o }
  callbacks : ∀ p callbacks, R p { p with callbacks := callbacks }
  newSocket : ∀ p o, R p { p with newSocket := o }
  inUse : ∀ p, R p { p with writeOp := { p.writeOp with inUse := false } }
  new : ∀ domain type protocol fd callbacks parent,
    N (SocketBasePimpl.new domain type protocol fd callbacks parent)

/-- Pimpls are made, and those that exist change as `R` allows. -/
def Grows (R : SocketBasePimpl → SocketBasePimpl → Prop) (N : SocketBasePimpl → Prop)
    (w w' : World) : Prop :=
  w.fresh ≤ w'.fresh ∧ Evolves R N w.fresh w'.fresh w.pimpls w'.pimpls

namespace Allows
variable {R : SocketBasePimpl → SocketBasePimpl → Prop} {N : SocketBasePimpl → Prop}
  {w'' : World}

theorem grows_of_eq (hR : Allows R N) (hpimpls : w'.pimpls = w.pimpls)
    (hfresh : w'.fresh = w.fresh) : Grows R N w w' :=
  ⟨Nat.le_of_eq hfresh.symm, evolves_of_eq hR.refl hpimpls⟩

theorem grows_trans (hR : Allows R N) (hg : Grows R N w w') (hg' : Grows R N w' w'') :
    Grows R N w w'' :=
  ⟨Nat.le_trans hg.1 hg'.1, hg.2.trans hR.trans hR.keeps hg'.2 hg.1 hg'.1⟩

theorem grows_update {q : SocketBasePimpl} (hR : Allows R N) (hp : w.pimpls h = some p)
    (hpimpls : w'.pimpls = Function.update w.pimpls h (some q)) (hq : R p q)
    (hfresh : w.fresh ≤ w'.fresh) : Grows R N w w' :=
  ⟨hfresh, evolves_update hR.refl hpimpls hp hq⟩

theorem grows_new {q : SocketBasePimpl} (hR : Allows R N)
    (hpimpls : w'.pimpls = Function.update w.pimpls w.fresh (some q))
    (hfresh : w'.fresh = w.fresh + 1) (hq : N q) : Grows R N w w' := by
  refine ⟨by omega, evolves_new hR.refl hpimpls (by omega) fun p hp => ?_⟩
  rw [← Option.some.inj hp]
  exact hq

theorem grows_start {op : Overlapped} {fd : Int} {len : Nat} {refused : Option Nat}
    (hR : Allows R N) (hstart : w.start op fd len refused = some w') : Grows R N w w' :=
  hR.grows_of_eq (start_frame hstart).1 (start_frame hstart).2

theorem grows_close (hR : Allows R N) (hp : w.pimpls h = some p) : Grows R N w (w.close h p) := by
  unfold close
  split
  · exact hR.grows_update hp rfl (hR.fd p) (Nat.le_refl _)
  · exact hR.grows_of_eq rfl rfl

theorem grows_constructSocket (hR : Allows R N) (w : World) (domain type protocol : Int)
    (callbacks : Callbacks) (a : Opened) :
    Grows R N w (w.constructSocket domain type protocol callbacks a) := by
  obtain ⟨fd, heq⟩ := constructSocket_eq w domain type protocol callbacks a
  rw [heq]
  exact hR.grows_new rfl rfl (hR.new ..)

theorem grows_elsewhere {e : Elsewhere} (hR : Allows R N) (he : w.elsewhere e = some w') :
    Grows R N w w' := by
  rcases elsewhere_some he with ⟨i, pending, pimpls, status, -, -, hread, rfl⟩ | ⟨f, -, rfl⟩ |
    ⟨n, -, -, rfl⟩
  · exact ⟨Nat.le_refl _, evolves_read hR.readBuffer hread⟩
  · exact hR.grows_of_eq rfl rfl
  · exact hR.grows_of_eq rfl rfl

theorem grows_dispatch {packet : Packet} {refused : Option Nat} {out : Next} (hR : Allows R N)
    (hd : Dispatch w packet refused out) : Grows R N w out.state := by
  cases hd with
  | failed =>
    unfold World.failed
    split <;> rw [callThen_state] <;> exact hR.grows_of_eq rfl rfl
  | accepted htype hsocket hoperation hnewSocket hnew hstart =>
    rw [callThen_state]
    exact hR.grows_start hstart
  | connected htype hsocket hoperation hstart =>
    rw [callThen_state]
    exact hR.grows_start hstart
  | disconnected => exact callThen_state .. ▸ hR.grows_of_eq rfl rfl
  | received => exact callThen_state .. ▸ hR.grows_of_eq rfl rfl
  | sent htype hsocket hoperation =>
    rw [callThen_state]
    exact hR.grows_update hoperation rfl (hR.inUse _) (Nat.le_refl _)
  | _ => exact hR.grows_of_eq rfl rfl

/-- **What a stretch of code does to the pimpls**; `write` fills the buffer of one whose
flag is not set. -/
theorem grows_stretch {f : Frame} {a : Answer} {out : Next} (hR : Allows R N)
    (hfill : ∀ o h p buffer, f = .api (.write o buffer) → w.owned o = some (h, p) →
      p.writeOp.inUse = false → R p (p.fill buffer))
    (hs : Stretch w f a out) : Grows R N w out.state := by
  cases hs with
  | socket hopens => exact hR.grows_constructSocket ..
  | adopt =>
    show Grows R N w (w.construct ..)
    rw [construct_eq]
    exact hR.grows_new rfl rfl (hR.new ..)
  | move hmove =>
    obtain ⟨⟨h, p⟩, howned, rfl⟩ := Option.map_eq_some_iff.mp hmove
    exact hR.grows_update (owned_iff.mp howned).2 rfl (hR.parent ..) (Nat.le_succ _)
  | close howned => exact hR.grows_close (owned_iff.mp howned).2
  | connect howned hstart => exact hR.grows_start hstart
  | @listen o h p a howned hopen hopens =>
    have hnew := hR.grows_constructSocket w p.domain p.type p.protocol noCallbacks a
    refine ⟨hnew.1, fun x p' hp' => ?_⟩
    change Function.update (World.pimpls (w.constructSocket ..)) h _ x = some p' at hp'
    by_cases hx : x = h
    · subst hx
      rw [Function.update_self, Option.some.injEq] at hp'
      subst hp'
      exact .inl ⟨p, (owned_iff.mp howned).2, hR.newSocket ..⟩
    · rw [Function.update_of_ne hx] at hp'
      exact hnew.2 x p' hp'
  | @write o h p buffer refused w' howned hinUse hstart =>
    have hput : Grows R N w (w.put h (p.fill buffer)) :=
      hR.grows_update (owned_iff.mp howned).2 rfl (hfill o h p buffer rfl howned hinUse)
        (Nat.le_refl _)
    exact hR.grows_trans hput (hR.grows_start hstart)
  | @writeFailed o h p buffer refused howned hinUse hstart =>
    exact hR.grows_update (owned_iff.mp howned).2 rfl (hfill o h p buffer rfl howned hinUse)
      (Nat.le_refl _)
  | callbacks howned =>
    exact hR.grows_update (owned_iff.mp howned).2 rfl (hR.callbacks ..) (Nat.le_refl _)
  | elsewhereCalled helsewhere => exact hR.grows_elsewhere helsewhere
  | elsewhere helsewhere => exact hR.grows_elsewhere helsewhere
  | @dequeue key refused packet rest out hrun hqueue hdispatch =>
    have hrest : Grows R N w { w with queue := rest } := hR.grows_of_eq rfl rfl
    exact hR.grows_trans hrest (hR.grows_dispatch hdispatch)
  | restart hsocket hstart => exact hR.grows_start hstart
  | @destroying o h p next howned =>
    have hobjects : Grows R N w { w with objects := Function.update w.objects o none } :=
      hR.grows_of_eq rfl rfl
    exact hR.grows_trans hobjects (hR.grows_close (owned_iff.mp howned).2)
  | @deleting h next => exact ⟨Nat.le_refl _, evolves_delete hR.refl rfl⟩
  | @assigned o other h p old howned hother =>
    have hown : Grows R N w (w.put h { p with parent := o }) :=
      hR.grows_update (owned_iff.mp howned).2 rfl (hR.parent ..) (Nat.le_refl _)
    exact hR.grows_trans hown (hR.grows_new rfl rfl (hR.new ..))
  | acceptEx hp hstart => exact hR.grows_start hstart
  | _ => exact hR.grows_of_eq rfl rfl

end Allows

/-! ### The handles of pimpls -/

/-- Pimpls are made, and no pimpl that exists gets another handle. -/
structure Descends (w w' : World) : Prop where
  fresh : w.fresh ≤ w'.fresh
  pimpls : ∀ h p', w'.pimpls h = some p' →
    (∃ p, w.pimpls h = some p ∧ (p'.valid = true → p'.fd = p.fd)) ∨ w.fresh ≤ h ∧ h < w'.fresh

theorem descends_iff : Descends w w' ↔
    Grows (fun p p' => p'.valid = true → p'.fd = p.fd) (fun _ => True) w w' := by
  simp only [Grows, Evolves, and_true]
  exact ⟨fun hd => ⟨hd.fresh, hd.pimpls⟩, fun hd => ⟨hd.1, hd.2⟩⟩

/-- The code gives no pimpl another handle. -/
theorem allows_fd : Allows (fun p p' => p'.valid = true → p'.fd = p.fd) fun _ => True where
  refl _ _ := rfl
  trans {p p' p''} hfd hfd' hvalid := by
    have heq := hfd' hvalid
    refine heq.trans (hfd ?_)
    unfold SocketBasePimpl.valid at hvalid ⊢
    rwa [← heq]
  keeps _ _ := trivial
  readBuffer _ _ _ := rfl
  fd _ hvalid := by simp [SocketBasePimpl.valid] at hvalid
  parent _ _ _ := rfl
  callbacks _ _ _ := rfl
  newSocket _ _ _ := rfl
  inUse _ _ := rfl
  new _ _ _ _ _ _ := trivial

theorem descends_of_eq (hpimpls : w'.pimpls = w.pimpls) (hfresh : w'.fresh = w.fresh) :
    Descends w w' :=
  descends_iff.mpr (allows_fd.grows_of_eq hpimpls hfresh)

/-- **No stretch of code gives a pimpl another handle.** -/
theorem descends_of_stretch {f : Frame} {a : Answer} {out : Next} (hs : Stretch w f a out) :
    Descends w out.state :=
  descends_iff.mpr (allows_fd.grows_stretch (fun _ _ _ _ _ _ _ _ => rfl) hs)

end World
end Windows
end AcppNetwork
