import Muduo.Lib.Bytes
import Muduo.Lib.Vec

/-!
# Socket addresses (`InetAddress.h`, `InetAddress.cpp`, `SocketsOps.cpp`, `Socket.cpp`)

A `sockaddr_in` is 16 bytes, a `sockaddr_in6` is 28: the family in the byte order of the
host, then port and address in the byte order of the network. An `InetAddress` is a union
of the two, and the socket calls are given a pointer to it and a length. The kernel writes
at most that many bytes of the peer's address, and binds a socket only if the length is
at least that of the family.

`bindOrDie` passes the size of a `sockaddr_in`, `accept` that of the generic `sockaddr`;
`connect`, `getLocalAddr` and `getPeerAddr` pass that of a `sockaddr_in6`.
-/

namespace Muduo.Net

open Lib Vec

def AF_INET : BitVec 16 := 2

def AF_INET6 : BitVec 16 := 10

/-- `sizeof(struct sockaddr)`. -/
def sizeofSockaddr : Nat := 16

def sizeofSockaddrIn : Nat := 16

def sizeofSockaddrIn6 : Nat := 28

/-- An address and a port, as numbers. -/
inductive Endpoint
  | inet (port : BitVec 16) (addr : BitVec 32)
  | inet6 (port : BitVec 16) (addr : BitVec 128)
  deriving DecidableEq, Repr

/-- A variable in the byte order of the network. -/
def netBytes {w : Nat} (x : BitVec w) : List UInt8 := objectBytes (byteSwap x)

/-- The `sockaddr` of an endpoint; an IPv6 one has two more fields. -/
def Endpoint.sockaddr (flowinfo scopeId : BitVec 32) : Endpoint → List UInt8
  | .inet port addr =>
      objectBytes AF_INET ++ (netBytes port ++ (netBytes addr ++ List.replicate 8 0))
  | .inet6 port addr =>
      objectBytes AF_INET6 ++ (netBytes port ++ (objectBytes flowinfo ++
        (netBytes addr ++ objectBytes scopeId)))

/-- The union of `M_addr` and `M_addr6`, byte for byte. -/
structure InetAddress where
  bytes : List UInt8
  size : bytes.length = sizeofSockaddrIn6

namespace InetAddress

/-- A member of `w` bits at an offset. -/
def field (a : InetAddress) (w offset : Nat) : BitVec w :=
  ofObjectBytes w (slice a.bytes offset (w / 8))

/-- `M_addr.sin_family`. -/
def family (a : InetAddress) : BitVec 16 := a.field 16 0

/-- `ntohs(M_addr.sin_port)`. -/
def toPort (a : InetAddress) : BitVec 16 := byteSwap (a.field 16 2)

/-- What the union holds, by its family: `M_addr.sin_addr` is at offset 4,
`M_addr6.sin6_addr` at 8. -/
def endpoint (a : InetAddress) : Option Endpoint :=
  if a.family = AF_INET then some (.inet a.toPort (byteSwap (a.field 32 4)))
  else if a.family = AF_INET6 then some (.inet6 a.toPort (byteSwap (a.field 128 8)))
  else none

end InetAddress

/-! ## The socket calls -/

/-- What a call hands to the kernel: where the address begins, and a length. -/
structure SockaddrArg where
  addr : InetAddress
  addrlen : Nat

/-- `::bind` accepts the length. -/
def BindAccepts (arg : SockaddrArg) : Prop :=
  (arg.addr.family = AF_INET → sizeofSockaddrIn ≤ arg.addrlen) ∧
    (arg.addr.family = AF_INET6 → sizeofSockaddrIn6 ≤ arg.addrlen)

/-- `sockets::bindOrDie`. -/
def bindOrDie (addr : InetAddress) : SockaddrArg := ⟨addr, sizeofSockaddrIn⟩

/-- `Socket::bindAddress`. -/
def bindAddress (addr : InetAddress) : SockaddrArg := bindOrDie addr

/-- `sockets::connect`. -/
def connect (addr : InetAddress) : SockaddrArg := ⟨addr, sizeofSockaddrIn6⟩

/-- A buffer of the size of a `sockaddr_in6`, set to zero, into which the kernel has
copied at most `addrlen` bytes of an address. -/
def received (addrlen : Nat) (sockaddr : List UInt8) : List UInt8 :=
  sockaddr.take addrlen ++ List.replicate (sizeofSockaddrIn6 - min addrlen sockaddr.length) 0

theorem length_sockaddr_le (e : Endpoint) (flowinfo scopeId : BitVec 32) :
    (e.sockaddr flowinfo scopeId).length ≤ sizeofSockaddrIn6 := by
  cases e with
  | inet port addr => simp [Endpoint.sockaddr, netBytes, sizeofSockaddrIn6]
  | inet6 port addr => simp [Endpoint.sockaddr, netBytes, sizeofSockaddrIn6]

theorem length_received {sockaddr : List UInt8} (h : sockaddr.length ≤ sizeofSockaddrIn6)
    (addrlen : Nat) : (received addrlen sockaddr).length = sizeofSockaddrIn6 := by
  simp only [received, List.length_append, List.length_take, List.length_replicate]
  omega

/-- The kernel hands out the address of `e` to a call that passes `addrlen`. -/
def receive (addrlen : Nat) (e : Endpoint) (flowinfo scopeId : BitVec 32) : InetAddress :=
  ⟨received addrlen (e.sockaddr flowinfo scopeId), length_received (length_sockaddr_le _ _ _) _⟩

/-- `sockets::getPeerAddr` and `sockets::getLocalAddr`. -/
def getAddr (e : Endpoint) (flowinfo scopeId : BitVec 32) : InetAddress :=
  receive sizeofSockaddrIn6 e flowinfo scopeId

/-- `sockets::accept`: the address it leaves in `addr`. -/
def acceptAddr (e : Endpoint) (flowinfo scopeId : BitVec 32) : InetAddress :=
  receive sizeofSockaddr e flowinfo scopeId

/-- `Socket::accept`, when the kernel's `accept` returned `connfd`: `*peeraddr` after it. -/
def socketAccept (connfd : Int) (e : Endpoint) (flowinfo scopeId : BitVec 32)
    (peeraddr : InetAddress) : InetAddress :=
  if connfd ≥ 0 then acceptAddr e flowinfo scopeId else peeraddr

/-! ## Reading what was written -/

section Fields

variable {w : Nat}

theorem byteSwap_byteSwap (hw : w % 8 = 0) (x : BitVec w) : byteSwap (byteSwap x) = x := by
  have hlen : w = 8 * (objectBytes x).reverse.length := by
    rw [List.length_reverse, length_objectBytes]
    omega
  conv_lhs => rw [show byteSwap x = ofObjectBytes w (objectBytes x).reverse from rfl]
  rw [byteSwap_ofObjectBytes hlen, List.reverse_reverse, ofObjectBytes_objectBytes hw]

@[simp] theorem length_netBytes (x : BitVec w) : (netBytes x).length = w / 8 :=
  length_objectBytes _

/-- The bytes behind a prefix. -/
theorem slice_append_mid {pre mid post : List UInt8} {offset n : Nat} (hpre : pre.length = offset)
    (hmid : mid.length = n) : slice (pre ++ (mid ++ post)) offset n = mid := by
  rw [slice, ← hpre, List.drop_left, ← hmid, List.take_left]

theorem ofObjectBytes_netBytes (hw : w % 8 = 0) (x : BitVec w) :
    byteSwap (ofObjectBytes w (netBytes x)) = x := by
  rw [netBytes, ofObjectBytes_objectBytes hw, byteSwap_byteSwap hw]

/-- A member in the byte order of the network, behind a prefix. -/
theorem byteSwap_field {a : InetAddress} {x : BitVec w} {pre post : List UInt8} {offset : Nat}
    (hw : w % 8 = 0) (ha : a.bytes = pre ++ (netBytes x ++ post)) (hpre : pre.length = offset) :
    byteSwap (a.field w offset) = x := by
  rw [InetAddress.field, ha, slice_append_mid hpre (length_netBytes x), ofObjectBytes_netBytes hw]

theorem family_of {a : InetAddress} {family : BitVec 16} {post : List UInt8}
    (ha : a.bytes = objectBytes family ++ post) : a.family = family := by
  rw [InetAddress.family, InetAddress.field, ha, slice, List.drop_zero,
    ← length_objectBytes family, List.take_left, ofObjectBytes_objectBytes (by decide)]

end Fields

/-- An IPv4 address in the union is read back, whatever is behind it. -/
theorem endpoint_inet {a : InetAddress} {port : BitVec 16} {addr : BitVec 32} {post : List UInt8}
    (ha : a.bytes = objectBytes AF_INET ++ (netBytes port ++ (netBytes addr ++ post))) :
    a.endpoint = some (.inet port addr) := by
  have hport : a.toPort = port := byteSwap_field (by decide) ha (length_objectBytes _)
  have hbytes : a.bytes = (objectBytes AF_INET ++ netBytes port) ++ (netBytes addr ++ post) := by
    rw [ha, List.append_assoc]
  have haddr : byteSwap (a.field 32 4) = addr := byteSwap_field (by decide) hbytes (by simp)
  rw [InetAddress.endpoint, if_pos (family_of ha), hport, haddr]

/-- Of an IPv6 address, what stands at its place. -/
theorem endpoint_inet6 {a : InetAddress} {port : BitVec 16} {flowinfo addr post : List UInt8}
    (ha : a.bytes = objectBytes AF_INET6 ++ (netBytes port ++ (flowinfo ++ (addr ++ post))))
    (hflow : flowinfo.length = 4) (haddr : addr.length = 16) :
    a.endpoint = some (.inet6 port (ofObjectBytes 128 addr.reverse)) := by
  have hport : a.toPort = port := byteSwap_field (by decide) ha (length_objectBytes _)
  have hslice : slice a.bytes 8 16 = addr := by
    rw [ha, ← List.append_assoc, ← List.append_assoc]
    exact slice_append_mid (by simp [hflow]) haddr
  have hfamily : a.family = AF_INET6 := family_of ha
  rw [InetAddress.endpoint, if_neg (by rw [hfamily]; decide), if_pos hfamily, hport,
    InetAddress.field, hslice, byteSwap_ofObjectBytes (by omega)]

/-! ## Addresses that arrive whole -/

/-- Sixteen bytes are an IPv4 address. -/
theorem receive_inet {addrlen : Nat} (h : sizeofSockaddrIn ≤ addrlen) (port : BitVec 16)
    (addr flowinfo scopeId : BitVec 32) :
    (receive addrlen (.inet port addr) flowinfo scopeId).endpoint = some (.inet port addr) := by
  have hlen : (Endpoint.sockaddr flowinfo scopeId (.inet port addr)).length = sizeofSockaddrIn := by
    simp [Endpoint.sockaddr, sizeofSockaddrIn]
  have hbytes : (receive addrlen (.inet port addr) flowinfo scopeId).bytes =
      objectBytes AF_INET ++ (netBytes port ++ (netBytes addr ++
        (List.replicate 8 0 ++ List.replicate 12 0))) := by
    show received addrlen _ = _
    rw [received, List.take_of_length_le (by omega), hlen, Nat.min_eq_right h]
    simp [Endpoint.sockaddr, sizeofSockaddrIn, sizeofSockaddrIn6]
  exact endpoint_inet hbytes

theorem objectBytes_eq_reverse {w : Nat} (hw : w % 8 = 0) (x : BitVec w) :
    objectBytes x = (netBytes x).reverse := by
  rw [netBytes, objectBytes_byteSwap hw, List.reverse_reverse]

/-- Twenty-eight bytes are one of either family. -/
theorem getAddr_endpoint (e : Endpoint) (flowinfo scopeId : BitVec 32) :
    (getAddr e flowinfo scopeId).endpoint = some e := by
  cases e with
  | inet port addr => exact receive_inet (by decide) port addr flowinfo scopeId
  | inet6 port addr =>
      have hlen : (Endpoint.sockaddr flowinfo scopeId (.inet6 port addr)).length =
          sizeofSockaddrIn6 := by
        simp [Endpoint.sockaddr, sizeofSockaddrIn6]
      have hbytes : (getAddr (.inet6 port addr) flowinfo scopeId).bytes =
          Endpoint.sockaddr flowinfo scopeId (.inet6 port addr) := by
        show received _ _ = _
        rw [received, List.take_of_length_le (by omega), hlen]
        simp
      rw [endpoint_inet6 (a := getAddr (.inet6 port addr) flowinfo scopeId) hbytes
        (length_objectBytes _) (length_netBytes _), ← objectBytes_eq_reverse (by decide),
        ofObjectBytes_objectBytes (by decide)]

/-- Of an IPv6 address, `accept` keeps the first eight bytes. -/
theorem acceptAddr_inet6 (port : BitVec 16) (addr : BitVec 128) (flowinfo scopeId : BitVec 32) :
    (acceptAddr (.inet6 port addr) flowinfo scopeId).endpoint = some (.inet6 port
      (ofObjectBytes 128 (List.replicate 8 0 ++ (objectBytes addr).drop 8))) := by
  have hbytes : (acceptAddr (.inet6 port addr) flowinfo scopeId).bytes =
      objectBytes AF_INET6 ++ (netBytes port ++ (objectBytes flowinfo ++
        (((netBytes addr).take 8 ++ List.replicate 8 0) ++ List.replicate 4 0))) := by
    have htake : ∀ {xs : List UInt8} {n : Nat}, xs.length ≤ n → xs.take n = xs :=
      List.take_of_length_le
    show received _ _ = _
    simp [received, Endpoint.sockaddr, List.take_append, sizeofSockaddr, sizeofSockaddrIn6,
      htake (show (objectBytes AF_INET6).length ≤ 16 by simp),
      htake (show (netBytes port).length ≤ 14 by simp),
      htake (show (objectBytes flowinfo).length ≤ 12 by simp)]
  have hreverse : ((netBytes addr).take 8 ++ List.replicate 8 0).reverse =
      List.replicate 8 0 ++ (objectBytes addr).drop 8 := by
    rw [List.reverse_append, List.reverse_replicate, List.reverse_take, length_netBytes,
      ← objectBytes_eq_reverse (by decide)]
  rw [endpoint_inet6 hbytes (length_objectBytes _) (by simp), hreverse]

/-- They are the whole address if the other eight are zero. -/
theorem high_bytes_iff (addr : BitVec 128) :
    ofObjectBytes 128 (List.replicate 8 0 ++ (objectBytes addr).drop 8) = addr ↔
      addr.toNat % 2 ^ 64 = 0 := by
  have hlow : (objectBytes addr).take 8 = bytes 8 addr.toNat := take_bytes (by decide) _
  constructor
  · intro h
    have hbytes := congrArg (fun x => (objectBytes x).take 8) h
    rw [objectBytes_ofObjectBytes (by simp), List.take_left' (by simp), hlow] at hbytes
    have hvalue := congrArg value hbytes
    rw [value_bytes] at hvalue
    exact hvalue.symm
  · intro h
    have hzero : bytes 8 addr.toNat = List.replicate 8 0 := by
      rw [← bytes_mod, show 256 ^ 8 = 2 ^ 64 from rfl, h]
      rfl
    rw [← hzero, ← hlow, List.take_append_drop, ofObjectBytes_objectBytes (by decide)]

/-- A local address can be bound, whatever else the union holds, and the address of a peer
is stored by every `accept` that succeeds. -/
structure CrossesWhole (bound peer : Endpoint) : Prop where
  bind : ∀ addr : InetAddress, addr.endpoint = some bound → BindAccepts (bindAddress addr)
  accept : ∀ connfd ≥ 0, ∀ flowinfo scopeId peeraddr,
    (socketAccept connfd peer flowinfo scopeId peeraddr).endpoint = some peer

/-- An IPv4 address. -/
def Endpoint.Inet : Endpoint → Prop
  | .inet _ _ => True
  | .inet6 _ _ => False

/-- An IPv4 address, or an IPv6 address whose low 64 bits are zero. -/
def Endpoint.InSockaddr : Endpoint → Prop
  | .inet _ _ => True
  | .inet6 _ addr => addr.toNat % 2 ^ 64 = 0

instance : ∀ e : Endpoint, Decidable e.Inet
  | .inet _ _ => inferInstanceAs (Decidable True)
  | .inet6 _ _ => inferInstanceAs (Decidable False)

instance : ∀ e : Endpoint, Decidable e.InSockaddr
  | .inet _ _ => inferInstanceAs (Decidable True)
  | .inet6 _ addr => inferInstanceAs (Decidable (addr.toNat % 2 ^ 64 = 0))

/-- The family of an address that is read back as an endpoint. -/
theorem family_of_endpoint {a : InetAddress} {e : Endpoint} (h : a.endpoint = some e) :
    (a.family = AF_INET ↔ e.Inet) ∧ (a.family = AF_INET6 ↔ ¬ e.Inet) := by
  unfold InetAddress.endpoint at h
  split at h
  · rename_i hfamily
    obtain rfl := Option.some.inj h
    exact ⟨iff_of_true hfamily trivial,
      iff_of_false (by rw [hfamily]; decide) (not_not_intro trivial)⟩
  · rename_i hne
    split at h
    · rename_i hfamily
      obtain rfl := Option.some.inj h
      exact ⟨iff_of_false hne not_false, iff_of_true hfamily not_false⟩
    · exact absurd h (by simp)

/-- `bindOrDie` passes enough for IPv4. -/
theorem bindAccepts_iff {a : InetAddress} {e : Endpoint} (h : a.endpoint = some e) :
    BindAccepts (bindAddress a) ↔ e.Inet := by
  obtain ⟨hinet, hinet6⟩ := family_of_endpoint h
  constructor
  · intro haccepts
    by_contra hne
    exact absurd (haccepts.2 (hinet6.mpr hne))
      (show ¬ sizeofSockaddrIn6 ≤ sizeofSockaddrIn by decide)
  · intro he
    exact ⟨fun _ => le_rfl, fun hfamily => absurd he (hinet6.mp hfamily)⟩

/-- `connect` passes enough for both. -/
theorem connect_accepts (a : InetAddress) : BindAccepts (connect a) :=
  ⟨fun _ => show sizeofSockaddrIn ≤ sizeofSockaddrIn6 by decide, fun _ => le_rfl⟩

/-- What `accept` stores is the peer's address if its sixteen bytes hold that. -/
theorem acceptAddr_iff (peer : Endpoint) (flowinfo scopeId : BitVec 32) :
    (acceptAddr peer flowinfo scopeId).endpoint = some peer ↔ peer.InSockaddr := by
  cases peer with
  | inet port addr => exact iff_of_true (receive_inet (by decide) port addr _ _) trivial
  | inet6 port addr =>
      rw [acceptAddr_inet6, Option.some.injEq, Endpoint.inet6.injEq]
      exact (and_iff_right rfl).trans (high_bytes_iff addr)

/-- **Addresses of both families.** A local address and the address of a peer cross the
socket layer whole if and only if the first is IPv4, and the second is IPv4 or has nothing
in its low 64 bits. -/
theorem crosses_whole_iff (bound peer : Endpoint) :
    CrossesWhole bound peer ↔ bound.Inet ∧ peer.InSockaddr := by
  constructor
  · intro h
    have hbind := h.bind _ (getAddr_endpoint bound 0 0)
    have haccept := h.accept 0 le_rfl 0 0 (getAddr bound 0 0)
    exact ⟨(bindAccepts_iff (getAddr_endpoint bound 0 0)).mp hbind,
      (acceptAddr_iff peer 0 0).mp haccept⟩
  · rintro ⟨hbound, hpeer⟩
    refine ⟨fun addr haddr => (bindAccepts_iff haddr).mpr hbound, ?_⟩
    intro connfd hconnfd flowinfo scopeId peeraddr
    rw [socketAccept, if_pos hconnfd]
    exact (acceptAddr_iff peer flowinfo scopeId).mpr hpeer

/-- `[::1]:80` can not be bound, and arrives as `[::]:80`. -/
theorem loopback6_not_whole :
    ¬ BindAccepts (bindAddress (getAddr (.inet6 80 1) 0 0)) ∧
      (socketAccept 7 (.inet6 80 1) 0 0 (getAddr (.inet 80 0) 0 0)).endpoint =
        some (.inet6 80 0) ∧
      ¬ CrossesWhole (.inet6 80 1) (.inet6 80 1) := by
  refine ⟨fun h => absurd (h.2 (by decide)) (by decide), by decide, fun h => ?_⟩
  have haccept := h.accept 7 (by decide) 0 0 (getAddr (.inet 80 0) 0 0)
  exact absurd haccept (by decide)

end Muduo.Net
