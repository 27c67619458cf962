import AcppNetwork.BufferedWriter
import Mathlib

/-!
# Socket addresses, to the kernel and back

An `ip_socketaddress` is handed to the kernel as the bytes it has in memory, and
`from_sockaddr` makes an address of such bytes again (`src/address.cpp`).  Every call
that hands an address over gives the kernel `sizeof(sockaddr)` bytes of it, which is
the size of an IPv4 address and less than that of an IPv6 address.

The family that an address says it has is a field like the others: the constructors that are
given a text set it to that of the alternative, and so does `from_sockaddr`, but an address
that was made by default, or whose `addr` was written to, has any (`IpSocketaddress.family`).

A field is the bytes it has in memory.  What is read past the end of the bytes that were
given is not modelled any further (`Failure.readsPast`).
-/
namespace AcppNetwork
namespace Addresses

/-- A field of `n` bytes. -/
@[ext]
structure Bytes (n : Nat) where
  bytes : List Byte
  length : bytes.length = n
  deriving DecidableEq

/-- The field at an offset, if the memory goes so far. -/
def field (offset n : Nat) (memory : List Byte) : Option (Bytes n) :=
  if h : ((memory.drop offset).take n).length = n then some ⟨_, h⟩ else none

abbrev AF_INET : Bytes 2 := ⟨[2, 0], rfl⟩
abbrev AF_INET6 : Bytes 2 := ⟨[10, 0], rfl⟩

/-- `sizeof(sockaddr)`. -/
abbrev sizeofSockaddr : Nat := 16

/-- `sockaddr_in`. -/
structure SockaddrIn where
  sinFamily : Bytes 2
  sinPort : Bytes 2
  sinAddr : Bytes 4
  sinZero : Bytes 8
  deriving DecidableEq

/-- `sockaddr_in6`. -/
structure SockaddrIn6 where
  sin6Family : Bytes 2
  sin6Port : Bytes 2
  sin6Flowinfo : Bytes 4
  sin6Addr : Bytes 16
  sin6ScopeId : Bytes 4
  deriving DecidableEq

/-- The bytes in memory, `sizeof(sockaddr_in)` of them. -/
def SockaddrIn.bytes (a : SockaddrIn) : List Byte :=
  a.sinFamily.bytes ++ a.sinPort.bytes ++ a.sinAddr.bytes ++ a.sinZero.bytes

/-- The bytes in memory, `sizeof(sockaddr_in6)` of them. -/
def SockaddrIn6.bytes (a : SockaddrIn6) : List Byte :=
  a.sin6Family.bytes ++ a.sin6Port.bytes ++ a.sin6Flowinfo.bytes ++ a.sin6Addr.bytes ++
    a.sin6ScopeId.bytes

/-- `ip4_sockaddress`. -/
structure Ip4Sockaddress where
  addr : SockaddrIn
  deriving DecidableEq

/-- `ip6_sockaddress`. -/
structure Ip6Sockaddress where
  addr : SockaddrIn6
  deriving DecidableEq

/-- The alternatives of `ip_socketaddress`. -/
inductive IpSocketaddress where
  | ip4 (a : Ip4Sockaddress)
  | ip6 (a : Ip6Sockaddress)
  deriving DecidableEq

/-- The whole socket address. -/
def IpSocketaddress.bytes : IpSocketaddress → List Byte
  | .ip4 a => a.addr.bytes
  | .ip6 a => a.addr.bytes

/-- `get_family`: that of the alternative. -/
def IpSocketaddress.getFamily : IpSocketaddress → Bytes 2
  | .ip4 _ => AF_INET
  | .ip6 _ => AF_INET6

/-- `family`: what the address says. -/
def IpSocketaddress.family : IpSocketaddress → Bytes 2
  | .ip4 a => a.addr.sinFamily
  | .ip6 a => a.addr.sin6Family

/-- An `ip_socketaddress` in memory: the value at offset 0, and the bytes behind it, which
are those of a longer alternative and the index. -/
structure Variant where
  value : IpSocketaddress
  rest : List Byte

/-- The memory of the variant. -/
def Variant.storage (v : Variant) : List Byte := v.value.bytes ++ v.rest

/-! ## To the kernel -/

/-- `to_sockaddr`: the memory from the address of the alternative on. -/
def toSockaddr (v : Variant) : List Byte :=
  match v.value with
  | .ip4 a => a.addr.bytes ++ v.rest
  | .ip6 a => a.addr.bytes ++ v.rest

/-- The calls that hand an address to the kernel. -/
inductive CallSite where
  | streamConnect
  | streamBind
  | datagramSendTo
  | datagramBind
  | asyncConnect
  | asyncBind
  deriving DecidableEq

/-- The pointer that the call hands over: `to_sockaddr`, or a cast of the variant. -/
def CallSite.pointer (v : Variant) : CallSite → List Byte
  | .streamConnect | .streamBind | .asyncConnect | .asyncBind => toSockaddr v
  | .datagramSendTo | .datagramBind => v.storage

/-- The bytes that the call hands over: the length it gives is `sizeof(sockaddr)`. -/
def CallSite.handed (site : CallSite) (v : Variant) : List Byte :=
  (site.pointer v).take sizeofSockaddr

/-! ## From the kernel -/

/-- An exception, or a `memcpy` past the end. -/
inductive Failure where
  | invalidArgument (what : String)
  | readsPast
  deriving DecidableEq

/-- `memcpy(&out_addr.addr, &sa, sizeof(sockaddr_in))`, the family being read already. -/
def SockaddrIn.copy (family : Bytes 2) (sa : List Byte) : Option SockaddrIn := do
  return ⟨family, ← field 2 2 sa, ← field 4 4 sa, ← field 8 8 sa⟩

/-- `memcpy(&out_addr.addr, &sa, sizeof(sockaddr_in6))`, the family being read already. -/
def SockaddrIn6.copy (family : Bytes 2) (sa : List Byte) : Option SockaddrIn6 := do
  return ⟨family, ← field 2 2 sa, ← field 4 4 sa, ← field 8 16 sa, ← field 24 4 sa⟩

/-- `from_sockaddr(const sockaddr&, ip4_sockaddress&)`. -/
def fromSockaddr4 (sa : List Byte) : Except Failure Ip4Sockaddress :=
  match field 0 2 sa with
  | none => .error .readsPast
  | some family =>
      if family ≠ AF_INET then .error (.invalidArgument "Expected AF_INET sockaddr")
      else
        match SockaddrIn.copy family sa with
        | none => .error .readsPast
        | some a => .ok ⟨a⟩

/-- `from_sockaddr(const sockaddr&, ip6_sockaddress&)`. -/
def fromSockaddr6 (sa : List Byte) : Except Failure Ip6Sockaddress :=
  match field 0 2 sa with
  | none => .error .readsPast
  | some family =>
      if family ≠ AF_INET6 then .error (.invalidArgument "Expected AF_INET6 sockaddr")
      else
        match SockaddrIn6.copy family sa with
        | none => .error .readsPast
        | some a => .ok ⟨a⟩

/-- `from_sockaddr(const sockaddr&, ip_socketaddress&)`. -/
def fromSockaddr (sa : List Byte) : Except Failure IpSocketaddress :=
  match field 0 2 sa with
  | none => .error .readsPast
  | some family =>
      if family = AF_INET then (fromSockaddr4 sa).map .ip4
      else if family = AF_INET6 then (fromSockaddr6 sa).map .ip6
      else .error (.invalidArgument "Unsupported sockaddr family")

/-- `addr1` of `recv_from` after `::recvfrom`: the kernel has put as much of the address
there as there is room for. -/
def received (address : List Byte) : List Byte :=
  address.take sizeofSockaddr ++ List.replicate (sizeofSockaddr - address.length) 0

/-! ## What is read of what was written -/

/-- A field stands behind what is before it. -/
theorem field_append {n offset : Nat} {pre : List Byte} (b : Bytes n) (rest : List Byte)
    (hpre : pre.length = offset) : field offset n (pre ++ (b.bytes ++ rest)) = some b := by
  obtain ⟨bytes, hbytes⟩ := b
  have htake : ((pre ++ (bytes ++ rest)).drop offset).take n = bytes := by
    rw [← hpre, List.drop_left, ← hbytes, List.take_left]
  unfold field
  rw [dif_pos (by rw [htake, hbytes])]
  exact congrArg some (Bytes.ext htake)

/-- A field is the same in the first bytes, if these go so far. -/
theorem field_take {n offset m : Nat} {memory : List Byte} (h : offset + n ≤ m) :
    field offset n (memory.take m) = field offset n memory := by
  have htake : ((memory.take m).drop offset).take n = (memory.drop offset).take n := by
    rw [List.drop_take, List.take_take, Nat.min_eq_left (by omega)]
  unfold field
  simp only [htake]

namespace SockaddrIn

variable (a : SockaddrIn) (rest : List Byte)

theorem length_bytes : a.bytes.length = 16 := by
  simp [bytes, a.sinFamily.length, a.sinPort.length, a.sinAddr.length, a.sinZero.length]

theorem field_family : field 0 2 (a.bytes ++ rest) = some a.sinFamily := by
  simp only [bytes, List.append_assoc]
  exact field_append a.sinFamily _ (show ([] : List Byte).length = 0 from rfl)

theorem copy_bytes : copy a.sinFamily (a.bytes ++ rest) = some a := by
  have hport : field 2 2 (a.bytes ++ rest) = some a.sinPort := by
    simp only [bytes, List.append_assoc]
    exact field_append a.sinPort _ a.sinFamily.length
  have haddr : field 4 4 (a.bytes ++ rest) = some a.sinAddr := by
    rw [bytes, List.append_assoc, List.append_assoc]
    exact field_append a.sinAddr _ (by simp [a.sinFamily.length, a.sinPort.length])
  have hzero : field 8 8 (a.bytes ++ rest) = some a.sinZero := by
    rw [bytes, List.append_assoc]
    exact field_append a.sinZero _
      (by simp [a.sinFamily.length, a.sinPort.length, a.sinAddr.length])
  rw [copy, hport, haddr, hzero]
  rfl

end SockaddrIn

theorem SockaddrIn6.field_family (a : SockaddrIn6) (rest : List Byte) :
    field 0 2 (a.bytes ++ rest) = some a.sin6Family := by
  simp only [bytes, List.append_assoc]
  exact field_append a.sin6Family _ (show ([] : List Byte).length = 0 from rfl)

theorem SockaddrIn6.length_bytes (a : SockaddrIn6) : a.bytes.length = 28 := by
  simp [bytes, a.sin6Family.length, a.sin6Port.length, a.sin6Flowinfo.length, a.sin6Addr.length,
    a.sin6ScopeId.length]

/-- `from_sockaddr` reads an IPv4 address where one is. -/
theorem fromSockaddr_ip4 {a : Ip4Sockaddress} (hfamily : a.addr.sinFamily = AF_INET)
    (rest : List Byte) : fromSockaddr (a.addr.bytes ++ rest) = .ok (.ip4 a) := by
  have hcopy := a.addr.copy_bytes rest
  rw [hfamily] at hcopy
  rw [fromSockaddr, fromSockaddr4, a.addr.field_family rest, hfamily]
  simp only [ne_eq, not_true, if_false, if_true, hcopy]
  rfl

/-- An address that `from_sockaddr` makes is of the family that is read. -/
theorem family_of_fromSockaddr {sa : List Byte} {a : IpSocketaddress}
    (h : fromSockaddr sa = .ok a) : field 0 2 sa = some a.getFamily := by
  rw [fromSockaddr] at h
  split at h
  · cases h
  next family hfield =>
    rw [hfield]
    split at h
    next h4 =>
      cases hmade : fromSockaddr4 sa with
      | error e =>
        rw [hmade] at h
        cases h
      | ok b =>
        rw [hmade] at h
        cases h
        exact congrArg some h4
    next =>
      split at h
      next h6 =>
        cases hmade : fromSockaddr6 sa with
        | error e =>
          rw [hmade] at h
          cases h
        | ok b =>
          rw [hmade] at h
          cases h
          exact congrArg some h6
      next => cases h

/-! ## What is handed over -/

theorem toSockaddr_eq (v : Variant) : toSockaddr v = v.storage := by
  obtain ⟨a | a, rest⟩ := v
  · rfl
  · rfl

/-- All calls hand over the same bytes. -/
theorem CallSite.handed_eq (site : CallSite) (v : Variant) :
    site.handed v = v.storage.take sizeofSockaddr := by
  cases site with
  | streamConnect | streamBind | asyncConnect | asyncBind =>
    show (toSockaddr v).take _ = _
    rw [toSockaddr_eq]
  | datagramSendTo | datagramBind => rfl

theorem CallSite.length_handed (site : CallSite) (v : Variant) :
    (site.handed v).length = sizeofSockaddr := by
  have hlen : sizeofSockaddr ≤ v.value.bytes.length := by
    cases hv : v.value with
    | ip4 a => exact (SockaddrIn.length_bytes a.addr).ge
    | ip6 a =>
      show sizeofSockaddr ≤ a.addr.bytes.length
      rw [SockaddrIn6.length_bytes]
      decide
  rw [handed_eq, Variant.storage, List.length_take, List.length_append]
  omega

theorem CallSite.handed_ip4 (site : CallSite) (a : Ip4Sockaddress) (rest : List Byte) :
    site.handed ⟨.ip4 a, rest⟩ = a.addr.bytes := by
  rw [handed_eq]
  exact List.take_left' a.addr.length_bytes

/-- What an address says of its family is read first. -/
theorem CallSite.field_handed (site : CallSite) (v : Variant) :
    field 0 2 (site.handed v) = some v.value.family := by
  rw [handed_eq, field_take (by decide)]
  obtain ⟨a | a, rest⟩ := v
  · exact a.addr.field_family rest
  · exact a.addr.field_family rest

/-- The bytes handed over hold the whole socket address, `from_sockaddr` and `recv_from`
give it back, and no other address that says its family is handed over as the same bytes. -/
structure CallSite.Delivers (site : CallSite) (v : Variant) : Prop where
  whole : v.value.bytes <+: site.handed v
  decoded : fromSockaddr (site.handed v) = .ok v.value
  received : fromSockaddr (received (site.handed v)) = .ok v.value
  injective : ∀ v', v'.value.family = v'.value.getFamily → site.handed v' = site.handed v →
    v'.value = v.value

/-- **Exactly the IPv4 addresses that say so are delivered.** -/
theorem delivers_iff (site : CallSite) (v : Variant) :
    site.Delivers v ↔ v.value.getFamily = AF_INET ∧ v.value.family = AF_INET := by
  obtain ⟨a | a, rest⟩ := v
  · constructor
    · intro h
      refine ⟨rfl, ?_⟩
      have hread := family_of_fromSockaddr h.decoded
      rw [site.field_handed] at hread
      exact Option.some.inj hread
    · rintro ⟨-, hfamily⟩
      have hdecoded : fromSockaddr a.addr.bytes = .ok (.ip4 a) := by
        have h := fromSockaddr_ip4 hfamily []
        rwa [List.append_nil] at h
      have hreceived : received (site.handed ⟨.ip4 a, rest⟩) = site.handed ⟨.ip4 a, rest⟩ := by
        have hlen := site.length_handed ⟨.ip4 a, rest⟩
        rw [received, hlen, Nat.sub_self, List.replicate_zero, List.append_nil, ← hlen,
          List.take_length]
      constructor
      · rw [site.handed_ip4]
        exact List.prefix_refl _
      · rw [site.handed_ip4]
        exact hdecoded
      · rw [hreceived, site.handed_ip4]
        exact hdecoded
      · intro v' hsays hsame
        -- it says the same family
        have hread := congrArg (field 0 2) hsame
        rw [site.field_handed, site.field_handed, Option.some.injEq, hsays,
          show (⟨.ip4 a, rest⟩ : Variant).value.family = AF_INET from hfamily] at hread
        obtain ⟨b | b, rest'⟩ := v'
        · rw [site.handed_ip4, site.handed_ip4] at hsame
          have hb := fromSockaddr_ip4 (a := b) hsays []
          rw [List.append_nil, hsame, hdecoded] at hb
          exact (Except.ok.inj hb).symm
        · exact absurd hread (show AF_INET6 ≠ AF_INET by decide)
  · refine iff_of_false (fun h => ?_) fun h => absurd h.1 (show AF_INET6 ≠ AF_INET by decide)
    have hlen := h.whole.length_le
    rw [site.length_handed] at hlen
    change a.addr.bytes.length ≤ sizeofSockaddr at hlen
    rw [SockaddrIn6.length_bytes] at hlen
    exact absurd hlen (by decide)

/-- An IPv6 address with port 80 and 15 bytes of zero. -/
def ip6 (last : Byte) : Variant where
  value := .ip6 ⟨⟨AF_INET6, ⟨[0, 80], rfl⟩, ⟨[0, 0, 0, 0], rfl⟩,
    ⟨[0, 0, 0, 0, 0, 0, 0, 0, 0, 0, 0, 0, 0, 0, 0, last], rfl⟩, ⟨[0, 0, 0, 0], rfl⟩⟩⟩
  rest := [1, 0, 0, 0]

/-- Two addresses are handed over as the same bytes, which give back neither. -/
theorem ip6_not_delivered : (ip6 1).value ≠ (ip6 2).value ∧ ∀ site : CallSite,
    site.handed (ip6 1) = site.handed (ip6 2) ∧ ¬ (ip6 1).value.bytes <+: site.handed (ip6 1) ∧
      fromSockaddr (site.handed (ip6 1)) = .error .readsPast ∧ ¬ site.Delivers (ip6 1) := by
  refine ⟨by decide, fun site => ?_⟩
  have hsame : site.handed (ip6 1) = site.handed (ip6 2) := by cases site <;> decide
  refine ⟨hsame, ?_, ?_, fun h => ?_⟩
  · cases site <;> decide
  · cases site <;> decide
  · exact absurd (h.injective (ip6 2) rfl hsame.symm) (by decide)

end Addresses
end AcppNetwork
