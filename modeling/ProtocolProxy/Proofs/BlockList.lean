import ProtocolProxy.BlockList
import ProtocolProxy.PhpEndpoint
import ProtocolProxy.Proofs.Endpoint
import ProtocolProxy.Proofs.Lookup

/-!
# The block lists

The IPv4 addresses that are refused are those of eight networks (`Reserved`).  The octet tests of
`is_blocked_ipv4` and the intervals of `Adapter.php` both describe them, so the two lists are the
same.

The test for IPv6 addresses covers the loopback address, two networks and the IPv4-mapped addresses
(`isBlockedIpv6_iff`).  Multicast addresses pass it, and so do IPv4-compatible ones, the unspecified
address among them.
-/

namespace ProtocolProxy

open Net

namespace BlockList

/-! ## IPv4 -/

theorem isBlockedIpv4_iff_octets (ip : Ipv4Addr) :
    isBlockedIpv4 ip = true ↔ ip.a.toNat = 10 ∨ (ip.a.toNat = 172 ∧ ip.b.toNat / 16 = 1)
      ∨ (ip.a.toNat = 192 ∧ ip.b.toNat = 168) ∨ ip.a.toNat = 127
      ∨ (ip.a.toNat = 169 ∧ ip.b.toNat = 254) ∨ 224 ≤ ip.a.toNat ∨ ip.a.toNat = 0 := by
  unfold isBlockedIpv4
  simp only [← UInt8.toNat_inj, UInt8.le_iff_toNat_le, UInt8.reduceToNat]
  split_ifs <;> simp <;> omega

theorem reserved_iff_toBits (ip : Ipv4Addr) :
    Reserved ip ↔ ip.toBits / 2 ^ 24 = 10 ∨ ip.toBits / 2 ^ 20 = 172 * 16 + 1
      ∨ ip.toBits / 2 ^ 16 = 192 * 256 + 168 ∨ ip.toBits / 2 ^ 24 = 127
      ∨ ip.toBits / 2 ^ 16 = 169 * 256 + 254 ∨ ip.toBits / 2 ^ 28 = 14
      ∨ ip.toBits / 2 ^ 28 = 15 ∨ ip.toBits / 2 ^ 24 = 0 := by
  simp [Reserved, reservedNetworks, mem_network, Ipv4Addr.toBits_eq]

theorem isBlockedIpv4_iff_reserved (ip : Ipv4Addr) : isBlockedIpv4 ip = true ↔ Reserved ip := by
  obtain ⟨ha, hb, hc, hd⟩ := ip.octets_lt
  rw [isBlockedIpv4_iff_octets, reserved_iff_toBits, ip.toBits_eq]
  omega

section Ranges

open PhpEndpoint

theorem ip2long_text (ip : Ipv4Addr) : ip2long ip.text = some ip.toBits := by
  simp [ip2long, Ipv4Addr.parse, readIpv4Addr_whole]

theorem inRange_iff {longIp : ℕ} {range : Text × Text} :
    inRange longIp range = true ↔ ∃ rangeStart rangeEnd, ip2long range.1 = some rangeStart
      ∧ ip2long range.2 = some rangeEnd ∧ rangeStart ≤ longIp ∧ longIp ≤ rangeEnd := by
  unfold inRange
  split
  · rename_i rangeStart rangeEnd hstart hend
    simp [hstart, hend]
  · rename_i hnone
    constructor
    · intro h
      simp at h
    · rintro ⟨rangeStart, rangeEnd, hstart, hend, -⟩
      exact absurd hend (hnone rangeStart rangeEnd hstart)

/-- The ranges of `Adapter.php` go from the first to the last address of the networks. -/
theorem blockedRanges_ends :
    blockedRanges.map (fun range => (ip2long range.1, ip2long range.2))
      = reservedNetworks.map fun net =>
          (some net.1.toBits, some (net.1.toBits + (2 ^ (32 - net.2) - 1))) := by
  decide

theorem reservedNetworks_aligned :
    ∀ net ∈ reservedNetworks, 2 ^ (32 - net.2) ∣ net.1.toBits := by
  decide

theorem exists_inRange_iff (ip : Ipv4Addr) :
    (∃ range ∈ blockedRanges, inRange ip.toBits range = true) ↔ Reserved ip := by
  have hends : (∃ range ∈ blockedRanges, inRange ip.toBits range = true)
      ↔ ∃ ends ∈ blockedRanges.map (fun range => (ip2long range.1, ip2long range.2)),
          ∃ rangeStart rangeEnd, ends = (some rangeStart, some rangeEnd)
            ∧ rangeStart ≤ ip.toBits ∧ ip.toBits ≤ rangeEnd := by
    simp only [List.mem_map, exists_exists_and_eq_and, inRange_iff, Prod.mk.injEq, and_assoc]
  rw [hends, blockedRanges_ends]
  constructor
  · rintro ⟨ends, hmem, rangeStart, rangeEnd, rfl, hstart, hend⟩
    obtain ⟨net, hnet, heq⟩ := List.mem_map.1 hmem
    simp only [Prod.mk.injEq, Option.some.injEq] at heq
    have hpos : 0 < 2 ^ (32 - net.2) := by positivity
    refine ⟨net, hnet, (mem_network_iff_le (reservedNetworks_aligned net hnet)).2 ?_⟩
    omega
  · rintro ⟨net, hnet, hip⟩
    obtain ⟨hstart, hend⟩ := (mem_network_iff_le (reservedNetworks_aligned net hnet)).1 hip
    have hpos : 0 < 2 ^ (32 - net.2) := by positivity
    refine ⟨_, List.mem_map_of_mem hnet, _, _, rfl, hstart, ?_⟩
    omega

/-- Every IPv4 address: the octet tests refuse it exactly when the number `ip2long` reads lies in
one of the intervals. -/
theorem isBlockedIpv4_iff_ranges (ip : Ipv4Addr) :
    ip2long ip.text = some ip.toBits
      ∧ (isBlockedIpv4 ip = true ↔ ∃ range ∈ blockedRanges, ∃ rangeStart rangeEnd,
          ip2long range.1 = some rangeStart ∧ ip2long range.2 = some rangeEnd
            ∧ rangeStart ≤ ip.toBits ∧ ip.toBits ≤ rangeEnd) := by
  refine ⟨ip2long_text ip, ?_⟩
  rw [isBlockedIpv4_iff_reserved, ← exists_inRange_iff]
  simp only [inRange_iff]

end Ranges

/-! ## IPv6 -/

/-- The first segment tells whether an address is in one of these networks. -/
theorem mem_leading {g : UInt16} {ip : Ipv6Addr} {len : ℕ} (hlen : len ≤ 16) :
    ip ∈ network 128 Ipv6Addr.toBits (leading g) len
      ↔ (ip.segments.getD 0 0).toNat / 2 ^ (16 - len) = g.toNat / 2 ^ (16 - len) :=
  Ipv6Addr.mem_network_first hlen

theorem isBlockedIpv6_iff (ip : Ipv6Addr) :
    isBlockedIpv6 ip = true ↔ ip = localhost ∨ ip ∈ linkLocal ∨ ip ∈ uniqueLocal
      ∨ ∃ a : Ipv4Addr, ip = a.toIpv6Mapped := by
  have hlocal : ip.segments = [0, 0, 0, 0, 0, 0, 0, 1] ↔ ip = localhost :=
    Ipv6Addr.segments_injective.eq_iff (b := localhost)
  have hlink : ip.segments.getD 0 0 &&& 0xffc0 = 0xfe80 ↔ ip ∈ linkLocal := by
    rw [linkLocal, mem_leading (by omega)]
    exact and_mask_iff (by decide) (by decide)
  have hunique : ip.segments.getD 0 0 &&& 0xfe00 = 0xfc00 ↔ ip ∈ uniqueLocal := by
    rw [uniqueLocal, mem_leading (by omega)]
    exact and_mask_iff (by decide) (by decide)
  rw [Ipv6Addr.mapped_iff, ← hlocal, ← hlink, ← hunique]
  obtain ⟨a, b, c, d, e, f, g, h, hip⟩ := ip.exists_segments
  simp [isBlockedIpv6, hip]

/-- What is on the list is not multicast, and IPv4-compatible only as `::1`. -/
theorem isBlockedIpv6_excludes {ip : Ipv6Addr} (h : isBlockedIpv6 ip = true) :
    ip ∉ multicast ∧ ∀ a : Ipv4Addr, ip = a.toIpv6Compatible → ip = localhost := by
  rw [multicast, mem_leading (by omega)]
  rcases (isBlockedIpv6_iff ip).1 h with rfl | hlink | hunique | ⟨b, rfl⟩
  · exact ⟨by decide, fun _ _ => rfl⟩
  · rw [linkLocal, mem_leading (by omega)] at hlink
    refine ⟨?_, ?_⟩
    · simp only [UInt16.reduceToNat] at hlink ⊢
      omega
    · rintro a rfl
      simp [Ipv4Addr.toIpv6Compatible] at hlink
  · rw [uniqueLocal, mem_leading (by omega)] at hunique
    refine ⟨?_, ?_⟩
    · simp only [UInt16.reduceToNat] at hunique ⊢
      omega
    · rintro a rfl
      simp [Ipv4Addr.toIpv6Compatible] at hunique
  · refine ⟨by simp [Ipv4Addr.toIpv6Mapped], fun a ha => ?_⟩
    simp [Ipv4Addr.toIpv6Mapped, Ipv4Addr.toIpv6Compatible] at ha

theorem isBlockedIpv6_iff_of_sensitive {ip : Ipv6Addr} (h : Sensitive ip) :
    isBlockedIpv6 ip = true
      ↔ ip ∉ multicast ∧ ∀ a : Ipv4Addr, ip = a.toIpv6Compatible → ip = localhost := by
  refine ⟨isBlockedIpv6_excludes, ?_⟩
  rintro ⟨hmulticast, hcompatible⟩
  rw [isBlockedIpv6_iff]
  cases h with
  | unspecified eq => exact .inl (hcompatible ⟨0, 0, 0, 0⟩ eq)
  | loopback eq => exact .inl eq
  | linkLocal mem => exact .inr (.inl mem)
  | uniqueLocal mem => exact .inr (.inr (.inl mem))
  | multicast mem => exact absurd mem hmulticast
  | mapped a _ eq => exact .inr (.inr (.inr ⟨a, eq⟩))
  | compatible a _ eq => exact .inl (hcompatible a eq)

/-! ## Through a lookup -/

theorem checkedAddress_of_aaaa {env : DnsEnv} {endpoint : Text} {ip : Ipv6Addr}
    (h : Aaaa env (hostPart endpoint) ip) : checkedAddress env endpoint = some (.v6 ip) := by
  obtain ⟨hasks, ips, hlookup⟩ := h
  have hpreferred : Preferred ((ip :: ips).map .v6) (.v6 ip) :=
    .inr ⟨by simp [IpAddr.isIpv4], rfl⟩
  rw [checkedAddress, resolve_answer hasks hlookup hpreferred]
  exact IpAddr.parse_text (.v6 ip)

theorem refused_iff (ip : Ipv6Addr) : Refused ip ↔ isBlockedIpv6 ip = true := by
  refine ⟨And.left, fun h => ⟨h, ?_⟩⟩
  intro env endpoint s haaaa hok
  obtain ⟨ip', port, haddr, hb, -, -⟩ := validate_ok hok
  rw [checkedAddress_of_aaaa haaaa, Option.some.injEq] at haddr
  subst haddr
  rw [isBlockedIp, h] at hb
  simp at hb

/-- Every IPv6 address of the classes blocked in IPv4: it is refused, on its own and through a
lookup, exactly when it is neither multicast nor IPv4-compatible other than `::1`. -/
theorem refused_iff_of_sensitive {ip : Ipv6Addr} (h : Sensitive ip) :
    Refused ip ↔ ip ∉ multicast ∧ ∀ a : Ipv4Addr, ip = a.toIpv6Compatible → ip = localhost := by
  rw [refused_iff]
  exact isBlockedIpv6_iff_of_sensitive h

/-- `::ffff:127.0.0.1`. -/
theorem refused_iff_of_sensitive_mapped :
    Sensitive (Ipv4Addr.toIpv6Mapped ⟨127, 0, 0, 1⟩)
      ∧ (Refused (Ipv4Addr.toIpv6Mapped ⟨127, 0, 0, 1⟩)
        ↔ Ipv4Addr.toIpv6Mapped ⟨127, 0, 0, 1⟩ ∉ multicast
          ∧ ∀ a : Ipv4Addr, Ipv4Addr.toIpv6Mapped ⟨127, 0, 0, 1⟩ = a.toIpv6Compatible →
            Ipv4Addr.toIpv6Mapped ⟨127, 0, 0, 1⟩ = localhost) :=
  have h : Sensitive (Ipv4Addr.toIpv6Mapped ⟨127, 0, 0, 1⟩) := .mapped ⟨127, 0, 0, 1⟩ rfl rfl
  ⟨h, refused_iff_of_sensitive h⟩

/-- A host whose AAAA record is `::` is accepted. -/
theorem unspecified_accepted : ¬ ∀ ip, Sensitive ip → Refused ip := by
  intro h
  obtain ⟨-, hrefused⟩ := h unspecified (.unspecified rfl)
  refine hrefused ⟨fun _ => none, .answer [.v6 unspecified]⟩ "db.example:5432".toList
    ":::5432".toList ⟨⟨by decide, by decide, rfl⟩, [], rfl⟩ ?_
  decide

end BlockList

end ProtocolProxy
