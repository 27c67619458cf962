import AcppNetwork.Addresses

/-!
# `resolve_host`

`resolve_host` (`acpp-network/socket.inl`) hands the addresses of a host to a callback,
one after the other, until the callback sets `success`.  Each entry of the list is
converted by `from_sockaddr` to the address type of the socket, outside of any `try`: an
entry of a family which that type does not have is not skipped, it ends the loop by an
exception.  `resolveHost_meets_iff` says exactly when none is reached.
-/
namespace AcppNetwork
namespace Addresses

/-- An entry of the list of `getaddrinfo`: the memory at `ai_addr`, which holds a whole
socket address of the family it begins with. -/
structure Addrinfo where
  aiAddr : List Byte
  family : Bytes 2
  begins : field 0 2 aiAddr = some family
  ip4 : family = AF_INET → 16 ≤ aiAddr.length
  ip6 : family = AF_INET6 → 28 ≤ aiAddr.length

/-- How a call of the callback ends: it returns, with `success` as it set it, or throws. -/
inductive Reply where
  | returned (success : Bool)
  | thrown
  deriving DecidableEq

/-- How `resolve_host` ends. -/
inductive Ending where
  | returned
  | callbackThrew
  | convertThrew (f : Failure)
  | exit
  deriving DecidableEq

/-- The addresses the callback was called on, what it left behind, and the end. -/
structure Resolution (σ α : Type) where
  called : List α
  state : σ
  ending : Ending
  deriving DecidableEq

/-- The same after a first call. -/
def Resolution.following {σ α : Type} (r : Resolution σ α) (first : α) : Resolution σ α :=
  { r with called := first :: r.called }

/-! ## What is converted -/

/-- There is a field as far as the memory goes. -/
theorem field_isSome (offset n : Nat) {memory : List Byte} (h : offset + n ≤ memory.length) :
    ∃ b, field offset n memory = some b := by
  have hlen : ((memory.drop offset).take n).length = n := by
    rw [List.length_take, List.length_drop]
    omega
  exact ⟨⟨_, hlen⟩, dif_pos hlen⟩

theorem SockaddrIn.copy_isSome {f : Bytes 2} {sa : List Byte} (h : 16 ≤ sa.length) :
    ∃ a, SockaddrIn.copy f sa = some a := by
  obtain ⟨port, hport⟩ := field_isSome 2 2 (Nat.le_trans (by decide) h)
  obtain ⟨addr, haddr⟩ := field_isSome 4 4 (Nat.le_trans (by decide) h)
  obtain ⟨zero, hzero⟩ := field_isSome 8 8 (Nat.le_trans (by decide) h)
  rw [copy, hport, haddr, hzero]
  exact ⟨_, rfl⟩

theorem SockaddrIn6.copy_isSome {f : Bytes 2} {sa : List Byte} (h : 28 ≤ sa.length) :
    ∃ a, SockaddrIn6.copy f sa = some a := by
  obtain ⟨port, hport⟩ := field_isSome 2 2 (Nat.le_trans (by decide) h)
  obtain ⟨flow, hflow⟩ := field_isSome 4 4 (Nat.le_trans (by decide) h)
  obtain ⟨addr, haddr⟩ := field_isSome 8 16 (Nat.le_trans (by decide) h)
  obtain ⟨scope, hscope⟩ := field_isSome 24 4 (Nat.le_trans (by decide) h)
  rw [copy, hport, hflow, haddr, hscope]
  exact ⟨_, rfl⟩

namespace Addrinfo
variable (rp : Addrinfo)

theorem fromSockaddr4_ok : (∃ a, fromSockaddr4 rp.aiAddr = .ok a) ↔ rp.family = AF_INET := by
  rw [fromSockaddr4, rp.begins]
  by_cases hf : rp.family = AF_INET
  · obtain ⟨b, hb⟩ := SockaddrIn.copy_isSome (f := AF_INET) (rp.ip4 hf)
    simp only [hf, ne_eq, not_true, if_false, iff_true]
    split
    next hnone =>
      rw [hb] at hnone
      cases hnone
    next a' _ => exact ⟨_, rfl⟩
  · simp [hf]

theorem fromSockaddr6_ok : (∃ a, fromSockaddr6 rp.aiAddr = .ok a) ↔ rp.family = AF_INET6 := by
  rw [fromSockaddr6, rp.begins]
  by_cases hf : rp.family = AF_INET6
  · obtain ⟨b, hb⟩ := SockaddrIn6.copy_isSome (f := AF_INET6) (rp.ip6 hf)
    simp only [hf, ne_eq, not_true, if_false, iff_true]
    split
    next hnone =>
      rw [hb] at hnone
      cases hnone
    next a' _ => exact ⟨_, rfl⟩
  · simp [hf]

theorem fromSockaddr_ok :
    (∃ a, fromSockaddr rp.aiAddr = .ok a) ↔ rp.family = AF_INET ∨ rp.family = AF_INET6 := by
  rw [fromSockaddr, rp.begins]
  by_cases h4 : rp.family = AF_INET
  · obtain ⟨a, ha⟩ := rp.fromSockaddr4_ok.mpr h4
    simp [h4, ha, Except.map]
  · by_cases h6 : rp.family = AF_INET6
    · obtain ⟨a, ha⟩ := rp.fromSockaddr6_ok.mpr h6
      simp [h6, ha, Except.map]
    · simp [h4, h6]

end Addrinfo

/-- The overloads of `from_sockaddr`, one an address type, and the families each takes. -/
class SocketAddress (α : Type) where
  fromSockaddr : List Byte → Except Failure α
  families : List (Bytes 2)
  converts : ∀ rp : Addrinfo, (∃ a, fromSockaddr rp.aiAddr = .ok a) ↔ rp.family ∈ families

instance : SocketAddress Ip4Sockaddress where
  fromSockaddr := fromSockaddr4
  families := [AF_INET]
  converts rp := by rw [List.mem_singleton, rp.fromSockaddr4_ok]

instance : SocketAddress Ip6Sockaddress where
  fromSockaddr := fromSockaddr6
  families := [AF_INET6]
  converts rp := by rw [List.mem_singleton, rp.fromSockaddr6_ok]

instance : SocketAddress IpSocketaddress where
  fromSockaddr := fromSockaddr
  families := [AF_INET, AF_INET6]
  converts rp := by rw [List.mem_pair, rp.fromSockaddr_ok]

/-! ## The loop -/

section
variable {σ α : Type} [SocketAddress α]

/-- `for (rp = result; rp != NULL; rp = rp->ai_next)`. -/
def resolveLoop (callback : σ → α → σ × Reply) : σ → List Addrinfo → Resolution σ α
  | s, [] => ⟨[], s, .returned⟩
  | s, rp :: rest =>
      match (SocketAddress.fromSockaddr rp.aiAddr : Except Failure α) with
      | .error f => ⟨[], s, .convertThrew f⟩
      | .ok addr =>
          match callback s addr with
          | (s, .thrown) => ⟨[addr], s, .callbackThrew⟩
          | (s, .returned true) => ⟨[addr], s, .returned⟩
          | (s, .returned false) => (resolveLoop callback s rest).following addr

/-- `resolve_host`; if `getaddrinfo` fails, it exits. -/
def resolveHost (callback : σ → α → σ × Reply) (s : σ) :
    Option (List Addrinfo) → Resolution σ α
  | none => ⟨[], s, .exit⟩
  | some result => resolveLoop callback s result

/-- The entry as an address of the type, if it can be converted. -/
def Addrinfo.address? (rp : Addrinfo) : Option α :=
  match SocketAddress.fromSockaddr rp.aiAddr with
  | .error _ => none
  | .ok addr => some addr

/-- What the callback replies when it is called on the addresses, one after the other. -/
def replies (callback : σ → α → σ × Reply) : σ → List α → List Reply
  | _, [] => []
  | s, a :: as => (callback s a).2 :: replies callback (callback s a).1 as

/-- The callback is called on the entries that can be converted, in their order, up to and
including the first call that sets `success`, or throws; no other entry ends the loop. -/
structure Meets (callback : σ → α → σ × Reply) (s : σ) (result : List Addrinfo)
    (r : Resolution σ α) : Prop where
  called : r.called <+: result.filterMap Addrinfo.address?
  goesOn : ∀ reply ∈ (replies callback s r.called).dropLast, reply = .returned false
  stops : r.called = result.filterMap Addrinfo.address? ∨
    ∃ reply ∈ (replies callback s r.called).getLast?, reply ≠ .returned false
  skips : r.ending = .returned ∨ r.ending = .callbackThrew

/-- The condition: of the entries before one that the address type does not take, one was
taken by the callback. -/
def Reaches (callback : σ → α → σ × Reply) (s : σ) (result : List Addrinfo) : Prop :=
  ∀ before rp behind, result = before ++ rp :: behind →
    rp.family ∉ SocketAddress.families α →
    ∃ reply ∈ replies callback s (before.filterMap Addrinfo.address?), reply ≠ .returned false

variable {callback : σ → α → σ × Reply} {s : σ} {rp : Addrinfo} {rest : List Addrinfo} {a : α}

theorem address?_isSome :
    (∃ a : α, rp.address? = some a) ↔ rp.family ∈ SocketAddress.families α := by
  rw [← SocketAddress.converts, Addrinfo.address?]
  cases (SocketAddress.fromSockaddr rp.aiAddr : Except Failure α) with
  | error f => simp
  | ok addr => simp

theorem resolveLoop_none (callback : σ → α → σ × Reply) (s : σ) (rest : List Addrinfo)
    (h : (rp.address? : Option α) = none) :
    ∃ f, resolveLoop callback s (rp :: rest) = ⟨[], s, .convertThrew f⟩ := by
  rw [Addrinfo.address?] at h
  rw [resolveLoop]
  cases hc : (SocketAddress.fromSockaddr rp.aiAddr : Except Failure α) with
  | error f => exact ⟨f, rfl⟩
  | ok addr =>
    rw [hc] at h
    cases h

/-- The callback takes the address, or the loop goes on. -/
theorem resolveLoop_some (h : rp.address? = some a) :
    resolveLoop callback s (rp :: rest) =
      match callback s a with
      | (s, .thrown) => ⟨[a], s, .callbackThrew⟩
      | (s, .returned true) => ⟨[a], s, .returned⟩
      | (s, .returned false) => (resolveLoop callback s rest).following a := by
  rw [Addrinfo.address?] at h
  rw [resolveLoop]
  cases hc : (SocketAddress.fromSockaddr rp.aiAddr : Except Failure α) with
  | error f =>
    rw [hc] at h
    cases h
  | ok addr =>
    rw [hc] at h
    cases h
    rfl

/-! ## When no entry ends it -/

theorem not_reaches_none (h : (rp.address? : Option α) = none) :
    ¬ Reaches callback s (rp :: rest) := by
  intro hreach
  have hfamily : rp.family ∉ SocketAddress.families α := by
    rw [← address?_isSome, h]
    simp
  obtain ⟨reply, hmem, -⟩ := hreach [] rp rest rfl hfamily
  cases hmem

theorem reaches_some (h : rp.address? = some a) :
    Reaches callback s (rp :: rest) ↔
      (callback s a).2 ≠ .returned false ∨ Reaches callback (callback s a).1 rest := by
  constructor
  · intro hreach
    refine or_iff_not_imp_left.mpr fun hgoes before other behind heq hfamily => ?_
    obtain ⟨reply, hmem, hreply⟩ := hreach (rp :: before) other behind (by rw [heq]; rfl) hfamily
    rw [List.filterMap_cons_some h, replies, List.mem_cons] at hmem
    rcases hmem with rfl | hmem
    · exact absurd hreply hgoes
    · exact ⟨reply, hmem, hreply⟩
  · intro hor before other behind heq hfamily
    cases before with
    | nil =>
      obtain ⟨rfl, -⟩ := List.cons.inj heq
      exact absurd (address?_isSome.mp ⟨a, h⟩) hfamily
    | cons first before =>
      obtain ⟨rfl, htail⟩ := List.cons.inj heq
      rw [List.filterMap_cons_some h, replies]
      rcases hor with htaken | hreach
      · exact ⟨_, List.mem_cons_self, htaken⟩
      · obtain ⟨reply, hmem, hreply⟩ := hreach before other behind htail hfamily
        exact ⟨reply, List.mem_cons_of_mem _ hmem, hreply⟩

/-- The loop is ended by an entry exactly if one is reached. -/
theorem skips_iff (callback : σ → α → σ × Reply) (s : σ) (result : List Addrinfo) :
    ((resolveLoop callback s result).ending = .returned ∨
      (resolveLoop callback s result).ending = .callbackThrew) ↔ Reaches callback s result := by
  induction result generalizing s with
  | nil =>
    refine iff_of_true (.inl rfl) fun before rp behind heq => ?_
    simp at heq
  | cons rp rest ih =>
    cases h : (rp.address? : Option α) with
    | none =>
      obtain ⟨f, hloop⟩ := resolveLoop_none callback s rest h
      refine iff_of_false ?_ (not_reaches_none h)
      simp [hloop]
    | some a =>
      rw [reaches_some h, resolveLoop_some h]
      rcases callback s a with ⟨t, (_ | _) | _⟩
      · simpa [Resolution.following] using ih t
      · simp
      · simp

/-- A call that does not stop the loop goes before those that are as they should be. -/
theorem Meets.following {t : σ} {r : Resolution σ α} (h : rp.address? = some a)
    (hc : callback s a = (t, .returned false)) (hm : Meets callback t rest r) :
    Meets callback s (rp :: rest) (r.following a) := by
  have haddresses : (rp :: rest).filterMap Addrinfo.address? =
      a :: rest.filterMap Addrinfo.address? := List.filterMap_cons_some h
  have hreplies : replies callback s (r.following a).called =
      .returned false :: replies callback t r.called := by
    rw [Resolution.following, replies, hc]
  refine ⟨?_, ?_, ?_, hm.skips⟩
  · rw [haddresses]
    exact List.cons_prefix_cons.mpr ⟨rfl, hm.called⟩
  · rw [hreplies]
    by_cases hnil : replies callback t r.called = []
    · simp [hnil]
    · rw [List.dropLast_cons_of_ne_nil hnil]
      exact List.forall_mem_cons.mpr ⟨rfl, hm.goesOn⟩
  · rcases hm.stops with hall | ⟨reply, hlast, hreply⟩
    · left
      rw [haddresses, ← hall]
      rfl
    · right
      refine ⟨reply, ?_, hreply⟩
      rw [hreplies, List.getLast?_cons, Option.mem_def.mp hlast]
      rfl

/-- A call that stops the loop is the last one. -/
theorem meets_one {t : σ} {reply : Reply} {ending : Ending} (h : rp.address? = some a)
    (hc : callback s a = (t, reply)) (hreply : reply ≠ .returned false)
    (hending : ending = .returned ∨ ending = .callbackThrew) :
    Meets callback s (rp :: rest) ⟨[a], t, ending⟩ := by
  have hreplies : replies callback s [a] = [reply] := by rw [replies, hc, replies]
  refine ⟨?_, ?_, .inr ⟨reply, ?_, hreply⟩, hending⟩
  · rw [List.filterMap_cons_some h]
    exact List.cons_prefix_cons.mpr ⟨rfl, List.nil_prefix⟩
  · simp [hreplies]
  · rw [hreplies]
    rfl

/-- Unless an entry ends it, the loop calls the callback as it should. -/
theorem meets_of_skips (callback : σ → α → σ × Reply) (s : σ) (result : List Addrinfo)
    (hskips : (resolveLoop callback s result).ending = .returned ∨
      (resolveLoop callback s result).ending = .callbackThrew) :
    Meets callback s result (resolveLoop callback s result) := by
  induction result generalizing s with
  | nil => exact ⟨List.prefix_refl _, by simp [resolveLoop, replies], .inl rfl, .inl rfl⟩
  | cons rp rest ih =>
    cases h : (rp.address? : Option α) with
    | none =>
      obtain ⟨f, hloop⟩ := resolveLoop_none callback s rest h
      simp [hloop] at hskips
    | some a =>
      rw [resolveLoop_some h] at hskips ⊢
      rcases hc : callback s a with ⟨t, (_ | _) | _⟩
      · rw [hc] at hskips
        exact (ih t hskips).following h hc
      · exact meets_one h hc (by decide) (.inl rfl)
      · exact meets_one h hc (by decide) (.inr rfl)

/-- **`resolve_host` does what it should exactly if no entry of another family is
reached.** -/
theorem resolveHost_meets_iff (callback : σ → α → σ × Reply) (s : σ) (result : List Addrinfo) :
    Meets callback s result (resolveHost callback s (some result)) ↔ Reaches callback s result :=
  ⟨fun h => (skips_iff callback s result).mp h.skips,
    fun h => meets_of_skips callback s result ((skips_iff callback s result).mpr h)⟩

end

/-- An entry with an IPv4 address. -/
def Addrinfo.ofIp4 (a : Ip4Sockaddress) (hfamily : a.addr.sinFamily = AF_INET) : Addrinfo where
  aiAddr := a.addr.bytes
  family := AF_INET
  begins := by
    have h := a.addr.field_family []
    rwa [List.append_nil, hfamily] at h
  ip4 _ := (SockaddrIn.length_bytes a.addr).ge
  ip6 h := absurd h (by decide)

/-- An entry with an IPv6 address. -/
def Addrinfo.ofIp6 (a : Ip6Sockaddress) (hfamily : a.addr.sin6Family = AF_INET6) : Addrinfo where
  aiAddr := a.addr.bytes
  family := AF_INET6
  begins := by
    have h := a.addr.field_family []
    rwa [List.append_nil, hfamily] at h
  ip4 h := absurd h (by decide)
  ip6 _ := (SockaddrIn6.length_bytes a.addr).ge

/-- `127.0.0.1:8080`. -/
def localhost4 : Ip4Sockaddress :=
  ⟨⟨AF_INET, ⟨[31, 144], rfl⟩, ⟨[127, 0, 0, 1], rfl⟩, ⟨List.replicate 8 0, rfl⟩⟩⟩

/-- `[::1]:8080`. -/
def localhost6 : Ip6Sockaddress :=
  ⟨⟨AF_INET6, ⟨[31, 144], rfl⟩, ⟨List.replicate 4 0, rfl⟩, ⟨List.replicate 15 0 ++ [1], rfl⟩,
    ⟨List.replicate 4 0, rfl⟩⟩⟩

/-- A host with an IPv6 and an IPv4 address, in this order: the callback of an IPv4 socket,
which would take any address, is not called, and the exception leaves `resolve_host`. -/
theorem ip4_not_reached :
    let callback : Unit → Ip4Sockaddress → Unit × Reply := fun _ _ => ((), .returned true)
    let result := [Addrinfo.ofIp6 localhost6 rfl, Addrinfo.ofIp4 localhost4 rfl]
    resolveHost callback () (some result) =
        ⟨[], (), .convertThrew (.invalidArgument "Expected AF_INET sockaddr")⟩ ∧
      result.filterMap Addrinfo.address? = [localhost4] ∧
      ¬ Meets callback () result (resolveHost callback () (some result)) := by
  refine ⟨by decide, by decide, fun h => ?_⟩
  exact absurd h.skips (by decide)

end Addresses
end AcppNetwork
