import ProtocolProxy.IpText
import ProtocolProxy.Resolver

/-!
# The sockmap and its keys

The loader of the BPF relay (`rust/crates/utopia-proxy/src/sockmap/linux.rs`), the key it makes of a
connected socket (`tuple.rs`), the one the PHP loader makes (`src/Sockmap/Loader.php`), and the
program that looks the key up again when a segment arrives (`src/Sockmap/relay.bpf.c`).

A socket is what its two ends are.  The loader reads them from the first 16 bytes of the socket
addresses that `getsockname` and `getpeername` report.
-/

namespace ProtocolProxy

namespace Sockmap

open Net

/-! ## Sockets -/

/-- The two ends of a connection.  An IPv6 one has the flow information that `getpeername` reports
with it. -/
inductive Socket
  | inet (localAddr : Ipv4Addr) (localPort : UInt16) (remoteAddr : Ipv4Addr) (remotePort : UInt16)
  | inet6 (localAddr : Ipv6Addr) (localPort : UInt16) (remoteAddr : Ipv6Addr) (remotePort : UInt16)
      (flowinfo : UInt32)
  deriving DecidableEq

abbrev Buffer := Vector UInt8 16

/-- The high byte and the low byte, the order in which the network has them. -/
def beBytes (n : UInt16) : UInt8 × UInt8 := (UInt8.ofNat (n.toNat / 256), UInt8.ofNat n.toNat)

/-- A `sockaddr_in`: family, port, address and padding. -/
def sockaddrIn (port : UInt16) (addr : Ipv4Addr) : Buffer :=
  #v[2, 0, (beBytes port).1, (beBytes port).2, addr.a, addr.b, addr.c, addr.d,
    0, 0, 0, 0, 0, 0, 0, 0]

/-- The first 16 bytes of a `sockaddr_in6`: family, port, flow information and half the address. -/
def sockaddrIn6 (port : UInt16) (flowinfo : UInt32) (addr : Ipv6Addr) : Buffer :=
  let flow (i : ℕ) : UInt8 := UInt8.ofNat (flowinfo.toNat / 256 ^ (3 - i))
  let seg (i : ℕ) : UInt8 × UInt8 := beBytes (addr.segments.getD i 0)
  #v[10, 0, (beBytes port).1, (beBytes port).2, flow 0, flow 1, flow 2, flow 3,
    (seg 0).1, (seg 0).2, (seg 1).1, (seg 1).2, (seg 2).1, (seg 2).2, (seg 3).1, (seg 3).2]

def getsocknameInet : Socket → Buffer
  | .inet localAddr localPort _ _ => sockaddrIn localPort localAddr
  | .inet6 localAddr localPort _ _ _ => sockaddrIn6 localPort 0 localAddr

def getpeernameInet : Socket → Buffer
  | .inet _ _ remoteAddr remotePort => sockaddrIn remotePort remoteAddr
  | .inet6 _ _ remoteAddr remotePort flowinfo => sockaddrIn6 remotePort flowinfo remoteAddr

/-! ## Keys -/

def u16FromLeBytes (b₀ b₁ : UInt8) : UInt16 := UInt16.ofNat (b₀.toNat + 256 * b₁.toNat)

def u16FromBeBytes (b₀ b₁ : UInt8) : UInt16 := u16FromLeBytes b₁ b₀

def u32FromLeBytes (b₀ b₁ b₂ b₃ : UInt8) : UInt32 :=
  UInt32.ofNat (b₀.toNat + 256 * (b₁.toNat + 256 * (b₂.toNat + 256 * b₃.toNat)))

/-- `tuple_key` of `tuple.rs`. -/
def tupleKey (localPort : UInt16) (remotePortBe : UInt8 × UInt8) (remoteIpBe : Ipv4Addr) : UInt64 :=
  let rportLe := u16FromLeBytes remotePortBe.1 remotePortBe.2
  let ripLe := u32FromLeBytes remoteIpBe.a remoteIpBe.b remoteIpBe.c remoteIpBe.d
  let k : UInt64 := localPort.toUInt64 &&& 0xffff
  let k := k <<< 16
  let k := k ||| (rportLe.toUInt64 &&& 0xffff)
  let k := k <<< 32
  k ||| ripLe.toUInt64

/-- The key of an open socket.  The address family is not looked at. -/
def buildTupleKey (s : Socket) : Option UInt64 :=
  let sockname := getsocknameInet s
  let peer := getpeernameInet s
  let localPort := u16FromBeBytes sockname[2] sockname[3]
  if localPort = 0 then none
  else some (tupleKey localPort (peer[2], peer[3]) ⟨peer[4], peer[5], peer[6], peer[7]⟩)

/-- The low byte first, in `width` bytes. -/
def leBytes : (width n : ℕ) → Bytes
  | 0, _ => []
  | width + 1, n => UInt8.ofNat n :: leBytes width (n / 256)

/-- The eight bytes of a key in the map, and in the memory of a little-endian host. -/
def toLeBytes (k : UInt64) : Bytes := leBytes 8 k.toNat

/-- What both loaders read from the socket addresses of a descriptor: the local port, and the bytes
of the remote port and of the remote address. -/
def keyFields (sockname peername : Buffer) : UInt16 × (UInt8 × UInt8) × Ipv4Addr :=
  (u16FromBeBytes sockname[2] sockname[3], (peername[2], peername[3]),
    ⟨peername[4], peername[5], peername[6], peername[7]⟩)

/-! ## The PHP loader's keys -/

namespace Loader

/-- `unpack('v', …)`.  Integers are signed 64-bit ones. -/
def unpackU16Le (b₀ b₁ : UInt8) : Int64 := Int64.ofNat (b₀.toNat + 256 * b₁.toNat)

/-- `unpack('n', …)`. -/
def unpackU16Be (b₀ b₁ : UInt8) : Int64 := unpackU16Le b₁ b₀

/-- `unpack('V', …)`. -/
def unpackU32Le (b₀ b₁ b₂ b₃ : UInt8) : Int64 :=
  Int64.ofNat (b₀.toNat + 256 * (b₁.toNat + 256 * (b₂.toNat + 256 * b₃.toNat)))

/-- `pack('P', …)`: the 64 bits of the integer, the low byte first. -/
def packU64Le (k : Int64) : Bytes := toLeBytes k.toUInt64

/-- The key of a descriptor from the two socket addresses that libc reports for it.  Zero stands for
a failure: libc is not loaded, or one of the calls fails. -/
def tupleKey (libc : Bool) (sockname peername : Option Buffer) : Int64 :=
  if !libc then 0
  else
    match sockname, peername with
    | some localBytes, some peerBytes =>
      let lport := unpackU16Be localBytes[2] localBytes[3]
      let rport := unpackU16Le peerBytes[2] peerBytes[3]
      let rip := unpackU32Le peerBytes[4] peerBytes[5] peerBytes[6] peerBytes[7]
      if lport ≤ 0 then 0
      else
        let k := (lport &&& 0xffff) <<< 48
        let k := k ||| ((rport &&& 0xffff) <<< 32)
        k ||| (rip &&& 0xffffffff)
    | _, _ => 0

end Loader

/-! ## The map -/

/-- The open descriptors. -/
abbrev Fds := RawFd → Option Socket

structure Inner where
  peers : UInt64 → Option Socket
  allocatedPairs : RawFd → Option (UInt64 × UInt64)

/-- Whether the map is found, and whether the kernel does what it is asked: the two updates, and the
deletion that undoes the first one. -/
structure MapAnswers where
  found : Bool
  update : Bool
  update' : Bool
  delete : Bool

def insertPair (fds : Fds) (inner : Inner) (k : MapAnswers) (acceptFd backendFd : RawFd) :
    Inner × Bool :=
  match fds acceptFd, fds backendFd with
  | some accept, some backend =>
    match buildTupleKey accept, buildTupleKey backend with
    | some selfKey, some peerKey =>
      if !k.found then (inner, false)
      else if !k.update then (inner, false)
      else
        let peers := Function.update inner.peers selfKey (some backend)
        if !k.update' then
          ({ inner with peers := if k.delete then Function.update peers selfKey none else peers },
            false)
        else
          (⟨Function.update peers peerKey (some accept),
            Function.update inner.allocatedPairs acceptFd (some (selfKey, peerKey))⟩, true)
    | _, _ => (inner, false)
  | _, _ => (inner, false)

/-- `remove_pair`.  The backend's descriptor is not looked at. -/
def removePair (inner : Inner) (found : Bool) (acceptFd : RawFd) : Inner :=
  match inner.allocatedPairs acceptFd with
  | none => inner
  | some keys =>
    ⟨if found then Function.update (Function.update inner.peers keys.1 none) keys.2 none
      else inner.peers,
      Function.update inner.allocatedPairs acceptFd none⟩

/-- `Drop` of the loader, which goes through the allocated descriptors in any order. -/
def Inner.drop (inner : Inner) (found : Bool) (accepts : List RawFd) : Inner :=
  accepts.foldl (fun inner fd => removePair inner found fd) inner

/-! ## The relay -/

/-- What a segment shows of the socket it arrived on. -/
structure SkBuff where
  localPort : UInt32
  remotePort : UInt32
  remoteIp4 : UInt32

/-- `tuple_key` of `relay.bpf.c`. -/
def bpfTupleKey (skb : SkBuff) : UInt64 :=
  let k := (skb.localPort &&& 0xffff).toUInt64
  let k := (k <<< 16) ||| ((skb.remotePort >>> 16) &&& 0xffff).toUInt64
  (k <<< 32) ||| skb.remoteIp4.toUInt64

/-- A segment on an IPv4 socket: the local port in host order, the remote port's bytes in the high
half of its field, the remote address's bytes as they are. -/
def inetSkb (localPort : UInt16) (remoteAddr : Ipv4Addr) (remotePort : UInt16) : SkBuff where
  localPort := localPort.toUInt32
  remotePort := (u16FromLeBytes (beBytes remotePort).1 (beBytes remotePort).2).toUInt32 <<< 16
  remoteIp4 := u32FromLeBytes remoteAddr.a remoteAddr.b remoteAddr.c remoteAddr.d

/-- A segment whose fields are given byte by byte: the remote port's two bytes stand in the high
half of a field whose low half can be anything. -/
def rawSkb (localPort : UInt16) (remotePortBe : UInt8 × UInt8) (remoteIpBe : Ipv4Addr)
    (low : UInt16) : SkBuff where
  localPort := localPort.toUInt32
  remotePort := (u16FromLeBytes remotePortBe.1 remotePortBe.2).toUInt32 <<< 16 ||| low.toUInt32
  remoteIp4 := u32FromLeBytes remoteIpBe.a remoteIpBe.b remoteIpBe.c remoteIpBe.d

/-- Where the program sends a segment that arrives on an IPv4 socket. -/
def relay (peers : UInt64 → Option Socket) : Socket → Option Socket
  | .inet _ localPort remoteAddr remotePort =>
    peers (bpfTupleKey (inetSkb localPort remoteAddr remotePort))
  | .inet6 .. => none

/-! ## What a key keeps of a socket -/

/-- The local port, the remote port and the remote address of an IPv4 socket. -/
def Socket.inetTuple : Socket → Option (UInt16 × UInt16 × Ipv4Addr)
  | .inet _ localPort remoteAddr remotePort => some (localPort, remotePort, remoteAddr)
  | .inet6 .. => none

end Sockmap

end ProtocolProxy
