import ProtocolProxy.Endpoint
import ProtocolProxy.Networks

/-!
# What the block list is for

The networks whose addresses an endpoint must not lead to, as sets of addresses.  For IPv4 they are
the ones the comments of `is_blocked_ipv4` name (`rust/crates/utopia-proxy/src/adapter/mod.rs`), for
IPv6 the classes of addresses that correspond to them.
-/

namespace ProtocolProxy

namespace BlockList

open Net

/-! ## IPv4 -/

/-- The networks, by their first address and the length of what their addresses have in common. -/
def reservedNetworks : List (Ipv4Addr × ℕ) :=
  [(⟨10, 0, 0, 0⟩, 8), (⟨172, 16, 0, 0⟩, 12), (⟨192, 168, 0, 0⟩, 16), (⟨127, 0, 0, 0⟩, 8),
   (⟨169, 254, 0, 0⟩, 16), (⟨224, 0, 0, 0⟩, 4), (⟨240, 0, 0, 0⟩, 4), (⟨0, 0, 0, 0⟩, 8)]

def Reserved (ip : Ipv4Addr) : Prop :=
  ∃ net ∈ reservedNetworks, ip ∈ network 32 Ipv4Addr.toBits net.1 net.2

/-! ## IPv6 -/

/-- The address of which only the first segment may not be zero. -/
def leading (g : UInt16) : Ipv6Addr := ⟨[g, 0, 0, 0, 0, 0, 0, 0], rfl⟩

def unspecified : Ipv6Addr := leading 0

def localhost : Ipv6Addr := ⟨[0, 0, 0, 0, 0, 0, 0, 1], rfl⟩

def linkLocal : Set Ipv6Addr := network 128 Ipv6Addr.toBits (leading 0xfe80) 10

def uniqueLocal : Set Ipv6Addr := network 128 Ipv6Addr.toBits (leading 0xfc00) 7

def multicast : Set Ipv6Addr := network 128 Ipv6Addr.toBits (leading 0xff00) 8

/-- The addresses of the classes that are blocked in IPv4. -/
inductive Sensitive (ip : Ipv6Addr) : Prop
  | unspecified (eq : ip = unspecified)
  | loopback (eq : ip = localhost)
  | linkLocal (mem : ip ∈ linkLocal)
  | uniqueLocal (mem : ip ∈ uniqueLocal)
  | multicast (mem : ip ∈ multicast)
  | mapped (a : Ipv4Addr) (blocked : isBlockedIpv4 a = true) (eq : ip = a.toIpv6Mapped)
  | compatible (a : Ipv4Addr) (blocked : isBlockedIpv4 a = true) (eq : ip = a.toIpv6Compatible)

/-- A lookup of the host is answered with IPv6 addresses only, and this one is the first. -/
def Aaaa (env : DnsEnv) (host : Text) (ip : Ipv6Addr) : Prop :=
  Asks env.cache host ∧ ∃ ips : List Ipv6Addr, env.lookup = .answer ((ip :: ips).map .v6)

/-- The address is on the block list, and no endpoint that leads to it is accepted. -/
def Refused (ip : Ipv6Addr) : Prop :=
  isBlockedIpv6 ip = true
    ∧ ∀ env endpoint s, Aaaa env (hostPart endpoint) ip → validate env endpoint ≠ .ok s

end BlockList

end ProtocolProxy
