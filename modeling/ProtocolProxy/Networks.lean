import ProtocolProxy.Proofs.IpText

/-!
# Addresses as numbers, and networks

The number of an address is the one its octets or segments spell, the first the most significant.
A network is the set of the addresses that share their first `len` bits with a given one; if that
one has no other bits, it is an interval of numbers (`mem_network_iff_le`).
-/

namespace Net

/-! ## Numbers -/

/-- `Ipv4Addr::to_bits`. -/
def Ipv4Addr.toBits (ip : Ipv4Addr) : ℕ :=
  Nat.ofDigits 256 [ip.d.toNat, ip.c.toNat, ip.b.toNat, ip.a.toNat]

/-- `Ipv6Addr::to_bits`. -/
def Ipv6Addr.toBits (ip : Ipv6Addr) : ℕ :=
  Nat.ofDigits 65536 (ip.segments.map UInt16.toNat).reverse

theorem Ipv4Addr.toBits_eq (ip : Ipv4Addr) :
    ip.toBits = ip.a.toNat * 2 ^ 24 + ip.b.toNat * 2 ^ 16 + ip.c.toNat * 2 ^ 8 + ip.d.toNat := by
  simp only [toBits, Nat.ofDigits_cons, Nat.ofDigits_nil]
  omega

theorem Ipv4Addr.octets_lt (ip : Ipv4Addr) :
    ip.a.toNat < 256 ∧ ip.b.toNat < 256 ∧ ip.c.toNat < 256 ∧ ip.d.toNat < 256 :=
  ⟨ip.a.toNat_lt, ip.b.toNat_lt, ip.c.toNat_lt, ip.d.toNat_lt⟩

theorem Ipv6Addr.segments_injective : Function.Injective Ipv6Addr.segments := by
  rintro ⟨gs, _⟩ ⟨hs, _⟩ h
  simpa using h

theorem Ipv6Addr.exists_segments (ip : Ipv6Addr) :
    ∃ a b c d e f g h, ip.segments = [a, b, c, d, e, f, g, h] := by
  obtain ⟨gs, hgs⟩ := ip
  match gs, hgs with
  | [a, b, c, d, e, f, g, h], _ => exact ⟨a, b, c, d, e, f, g, h, rfl⟩

theorem Ipv6Addr.toBits_div (ip : Ipv6Addr) :
    ip.toBits / 2 ^ 112 = (ip.segments.getD 0 0).toNat := by
  obtain ⟨a, b, c, d, e, f, g, h, hip⟩ := ip.exists_segments
  have hb := b.toNat_lt
  have hc := c.toNat_lt
  have hd := d.toNat_lt
  have he := e.toNat_lt
  have hf := f.toNat_lt
  have hg := g.toNat_lt
  have hh := h.toNat_lt
  simp only [toBits, hip, List.map_cons, List.map_nil, List.reverse_cons, List.reverse_nil,
    List.nil_append, List.cons_append, Nat.ofDigits_cons, Nat.ofDigits_nil, List.getD_cons_zero]
  omega

/-! ## Networks -/

section

variable {α : Type*} {w len : ℕ} {bits : α → ℕ} {base x : α}

/-- Addresses of `w` bits that begin with the first `len` bits of `base`. -/
def network (w : ℕ) (bits : α → ℕ) (base : α) (len : ℕ) : Set α :=
  {x | bits x / 2 ^ (w - len) = bits base / 2 ^ (w - len)}

theorem mem_network :
    x ∈ network w bits base len ↔ bits x / 2 ^ (w - len) = bits base / 2 ^ (w - len) :=
  Iff.rfl

theorem mem_network_iff_le (h : 2 ^ (w - len) ∣ bits base) :
    x ∈ network w bits base len ↔ bits base ≤ bits x ∧ bits x < bits base + 2 ^ (w - len) := by
  have hpos : 0 < 2 ^ (w - len) := by positivity
  obtain ⟨q, hq⟩ := h
  rw [mem_network, hq, Nat.mul_div_cancel_left q hpos, Nat.div_eq_iff hpos, Nat.mul_comm q]
  omega

end

/-- A network of IPv6 addresses with at most 16 bits looks at the first segment only. -/
theorem Ipv6Addr.mem_network_first {base ip : Ipv6Addr} {len : ℕ} (hlen : len ≤ 16) :
    ip ∈ network 128 toBits base len ↔ (ip.segments.getD 0 0).toNat / 2 ^ (16 - len)
      = (base.segments.getD 0 0).toNat / 2 ^ (16 - len) := by
  have hpow : 2 ^ (128 - len) = 2 ^ 112 * 2 ^ (16 - len) := by
    rw [← pow_add]
    congr 1
    omega
  rw [mem_network, hpow, ← Nat.div_div_eq_div_mul, ← Nat.div_div_eq_div_mul, toBits_div, toBits_div]

/-! ## Masks -/

/-- Masking with the upper bits of a word drops the lower ones. -/
theorem and_upperBits {n w k : ℕ} (hn : n < 2 ^ w) :
    n &&& ((2 ^ (w - k) - 1) <<< k) = n / 2 ^ k * 2 ^ k := by
  rw [← Nat.shiftLeft_eq, ← Nat.shiftRight_eq_div_pow]
  apply Nat.eq_of_testBit_eq
  intro i
  rw [Nat.testBit_and, Nat.testBit_shiftLeft, Nat.testBit_shiftLeft, Nat.testBit_shiftRight,
    Nat.testBit_two_pow_sub_one]
  rcases Nat.lt_or_ge i k with hk | hk
  · simp [Nat.not_le.2 hk]
  rcases Nat.lt_or_ge i w with hw | hw
  · have hin : i - k < w - k := by omega
    simp [hk, hin]
  · have hout : n.testBit i = false :=
      Nat.testBit_lt_two_pow (hn.trans_le (Nat.pow_le_pow_right (by omega) hw))
    simp [hk, hout]

/-- A mask with the upper bits is a test for a network. -/
theorem and_mask_iff {g x mask : UInt16} {k : ℕ} (hmask : mask.toNat = (2 ^ (16 - k) - 1) <<< k)
    (hg : 2 ^ k ∣ g.toNat) : x &&& mask = g ↔ x.toNat / 2 ^ k = g.toNat / 2 ^ k := by
  have hpos : 0 < 2 ^ k := by positivity
  obtain ⟨q, hq⟩ := hg
  rw [← UInt16.toNat_inj, UInt16.toNat_and, hmask, and_upperBits x.toNat_lt, hq,
    Nat.mul_div_cancel_left q hpos, Nat.mul_comm (2 ^ k) q]
  exact Nat.mul_left_inj hpos.ne'

/-! ## IPv4 addresses inside IPv6 ones -/

/-- `Ipv4Addr::to_ipv6_mapped`. -/
def Ipv4Addr.toIpv6Mapped (ip : Ipv4Addr) : Ipv6Addr :=
  ⟨[0, 0, 0, 0, 0, 0xffff] ++ ip.toSegments, rfl⟩

/-- `Ipv4Addr::to_ipv6_compatible`. -/
def Ipv4Addr.toIpv6Compatible (ip : Ipv4Addr) : Ipv6Addr :=
  ⟨[0, 0, 0, 0, 0, 0] ++ ip.toSegments, rfl⟩

theorem Ipv6Addr.mapped_iff (ip : Ipv6Addr) :
    (∃ a : Ipv4Addr, ip = a.toIpv6Mapped)
      ↔ ∃ g h, ip.segments = [0, 0, 0, 0, 0, 0xffff, g, h] := by
  constructor
  · rintro ⟨a, rfl⟩
    exact ⟨_, _, rfl⟩
  · rintro ⟨g, h, hip⟩
    have hsome : ip.toIpv4Mapped
        = some ⟨(g >>> 8).toUInt8, g.toUInt8, (h >>> 8).toUInt8, h.toUInt8⟩ := by
      unfold Ipv6Addr.toIpv4Mapped
      rw [hip]
      rfl
    exact ⟨_, Ipv6Addr.segments_injective (toIpv4Mapped_eq_some hsome)⟩

end Net
