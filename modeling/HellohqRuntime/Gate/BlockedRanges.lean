import HellohqRuntime.Foundation.BitBlocks
import HellohqRuntime.Gate.Address
import Mathlib.Tactic.FinCases

/-!
# The blocked set as address blocks

The gate decides over octets, segments and masks which addresses may not be
reached. Read as numbers of 32 and 128 bits, these are the address blocks that
its documentation lists, and no others.
-/

namespace HellohqRuntime.Gate.BlockedRanges

open HellohqRuntime.Foundation.BitBlocks
open HellohqRuntime.Gate.Address

/-! ## Addresses as numbers -/

theorem ipv4Bits_toNat (v4 : Ipv4Addr) :
    (ipv4Bits v4).toNat =
      ((v4.a.toNat * 256 + v4.b.toNat) * 256 + v4.c.toNat) * 256 + v4.d.toNat := by
  simp only [ipv4Bits, toNat_append, UInt8.toNat_toBitVec]
  rfl

theorem ipv6Bits_toNat (v6 : Ipv6Addr) :
    (ipv6Bits v6).toNat =
      (((((((v6.segments 0).toNat * 65536 + (v6.segments 1).toNat) * 65536 +
        (v6.segments 2).toNat) * 65536 + (v6.segments 3).toNat) * 65536 +
        (v6.segments 4).toNat) * 65536 + (v6.segments 5).toNat) * 65536 +
        (v6.segments 6).toNat) * 65536 + (v6.segments 7).toNat := by
  simp only [ipv6Bits, toNat_append, UInt16.toNat_toBitVec]
  rfl

theorem ipv4Bits_inj {v4 other : Ipv4Addr} : ipv4Bits v4 = ipv4Bits other ↔ v4 = other := by
  cases v4
  cases other
  change @Eq (BitVec (8 + 8 + 8 + 8)) _ _ ↔ _
  simp only [ipv4Bits, append_inj, UInt8.toBitVec_inj, Ipv4Addr.mk.injEq, and_assoc]

theorem ipv6Bits_inj {v6 other : Ipv6Addr} : ipv6Bits v6 = ipv6Bits other ↔ v6 = other := by
  constructor
  · intro hbits
    change @Eq (BitVec (16 + 16 + 16 + 16 + 16 + 16 + 16 + 16)) _ _ at hbits
    simp only [ipv6Bits, append_inj, UInt16.toBitVec_inj, and_assoc] at hbits
    obtain ⟨h0, h1, h2, h3, h4, h5, h6, h7⟩ := hbits
    cases v6
    cases other
    congr 1
    funext index
    fin_cases index
    all_goals assumption
  · rintro rfl
    rfl

/-- Every number of 32 bits is one address. -/
theorem ipv4Bits_bijective : Function.Bijective ipv4Bits := by
  refine ⟨fun v4 other => ipv4Bits_inj.mp, ?_⟩
  intro bits
  obtain ⟨bits, d, rfl⟩ := @exists_append 24 8 bits
  obtain ⟨bits, c, rfl⟩ := @exists_append 16 8 bits
  obtain ⟨a, b, rfl⟩ := @exists_append 8 8 bits
  exact ⟨⟨⟨a⟩, ⟨b⟩, ⟨c⟩, ⟨d⟩⟩, rfl⟩

/-- Every number of 128 bits is one address. -/
theorem ipv6Bits_bijective : Function.Bijective ipv6Bits := by
  refine ⟨fun v6 other => ipv6Bits_inj.mp, ?_⟩
  intro bits
  obtain ⟨bits, s7, rfl⟩ := @exists_append 112 16 bits
  obtain ⟨bits, s6, rfl⟩ := @exists_append 96 16 bits
  obtain ⟨bits, s5, rfl⟩ := @exists_append 80 16 bits
  obtain ⟨bits, s4, rfl⟩ := @exists_append 64 16 bits
  obtain ⟨bits, s3, rfl⟩ := @exists_append 48 16 bits
  obtain ⟨bits, s2, rfl⟩ := @exists_append 32 16 bits
  obtain ⟨s0, s1, rfl⟩ := @exists_append 16 16 bits
  refine ⟨⟨fun index => [⟨s0⟩, ⟨s1⟩, ⟨s2⟩, ⟨s3⟩, ⟨s4⟩, ⟨s5⟩, ⟨s6⟩, ⟨s7⟩].getD index.val 0⟩, ?_⟩
  rw [← BitVec.toNat_inj, ipv6Bits_toNat]
  simp only [toNat_append]
  rfl

/-! ## The blocks -/

/-- `0.0.0.0/8`, `10.0.0.0/8`, `100.64.0.0/10`, `127.0.0.0/8`, `169.254.0.0/16`,
`172.16.0.0/12`, `192.168.0.0/16` and `224.0.0.0/4`. -/
def ipv4Blocks : List (Block 32) :=
  [{ network := ipv4Bits ⟨0, 0, 0, 0⟩, length := 8 },
    { network := ipv4Bits ⟨10, 0, 0, 0⟩, length := 8 },
    { network := ipv4Bits ⟨100, 64, 0, 0⟩, length := 10 },
    { network := ipv4Bits ⟨127, 0, 0, 0⟩, length := 8 },
    { network := ipv4Bits ⟨169, 254, 0, 0⟩, length := 16 },
    { network := ipv4Bits ⟨172, 16, 0, 0⟩, length := 12 },
    { network := ipv4Bits ⟨192, 168, 0, 0⟩, length := 16 },
    { network := ipv4Bits ⟨224, 0, 0, 0⟩, length := 4 }]

/-- The numbers in a block, and the broadcast address. -/
def InIpv4Blocks (bits : BitVec 32) : Prop :=
  (∃ block ∈ ipv4Blocks, bits ∈ block) ∨ bits = ipv4Bits ⟨255, 255, 255, 255⟩

/-- `ff00::/8`, `fc00::/7` and `fe80::/10`. -/
def ipv6Blocks : List (Block 128) :=
  [{ network := 0xFF00#16 ++ 0#112, length := 8 },
    { network := 0xFC00#16 ++ 0#112, length := 7 },
    { network := 0xFE80#16 ++ 0#112, length := 10 }]

/-- `::`, `::1`, the numbers in a block, and those that a blocked IPv4 address is
mapped to, 16 bits set between it and 80 zeroes. -/
def InIpv6Blocks (bits : BitVec 128) : Prop :=
  bits = 0#128 ∨ bits = 1#128 ∨ (∃ block ∈ ipv6Blocks, bits ∈ block) ∨
    ∃ mapped, InIpv4Blocks mapped ∧ bits = 0#80 ++ 0xFFFF#16 ++ mapped

/-! ## Octet by octet -/

/-- The blocks as the octets of an address tell them. -/
def InOctetRanges (v4 : Ipv4Addr) : Prop :=
  v4.a.toNat = 0 ∨ v4.a.toNat = 10 ∨
    (v4.a.toNat = 100 ∧ 64 ≤ v4.b.toNat ∧ v4.b.toNat ≤ 127) ∨ v4.a.toNat = 127 ∨
    (v4.a.toNat = 169 ∧ v4.b.toNat = 254) ∨
    (v4.a.toNat = 172 ∧ 16 ≤ v4.b.toNat ∧ v4.b.toNat ≤ 31) ∨
    (v4.a.toNat = 192 ∧ v4.b.toNat = 168) ∨ (224 ≤ v4.a.toNat ∧ v4.a.toNat ≤ 239) ∨
    v4 = ⟨255, 255, 255, 255⟩

theorem inIpv4Blocks_iff {v4 : Ipv4Addr} : InIpv4Blocks (ipv4Bits v4) ↔ InOctetRanges v4 := by
  have hb := v4.b.toNat_lt
  have hc := v4.c.toNat_lt
  have hd := v4.d.toNat_lt
  simp only [InIpv4Blocks, ipv4Blocks, List.mem_cons, List.not_mem_nil, or_false,
    exists_eq_or_imp, exists_eq_left, ipv4Bits_inj, Block.mem_iff_range, ipv4Bits_toNat,
    UInt8.reduceToNat, Nat.reduceMul, Nat.reduceAdd, Nat.reduceSub, Nat.reducePow, or_assoc,
    InOctetRanges]
  -- One row of the list after the other.
  iterate 8 refine or_congr (by omega) ?_
  exact Iff.rfl

theorem isBlockedV4_iff {v4 : Ipv4Addr} : isBlockedV4 v4 = true ↔ InOctetRanges v4 := by
  obtain ⟨a, b, c, d⟩ := v4
  simp only [isBlockedV4, Ipv4Addr.isLoopback, Ipv4Addr.isLinkLocal, Ipv4Addr.isMulticast,
    Ipv4Addr.isUnspecified, Ipv4Addr.isBroadcast, Ipv4Addr.mk.injEq, ← UInt8.toNat_inj,
    UInt8.le_iff_toNat_le, InOctetRanges]
  simp only [UInt8.reduceToNat, UInt8.toNat_zero, Bool.decide_and, Bool.or_eq_true,
    decide_eq_true_eq, Bool.and_eq_true, Bool.if_false_right, Bool.and_true, Bool.if_true_left,
    Bool.decide_or]
  -- Some rows are tested twice, and the all-zero address is one of `0.0.0.0/8`.
  constructor
  · rintro (((((h | h) | h) | h) | h) | h | h | h | h | h | h | h)
    all_goals simp [h]
  · rintro (h | h | h | h | h | h | h | h | h)
    all_goals simp [h]

/-! ## Segments and masks -/

theorem segments_lt (v6 : Ipv6Addr) :
    (v6.segments 0).toNat < 65536 ∧ (v6.segments 1).toNat < 65536 ∧
      (v6.segments 2).toNat < 65536 ∧ (v6.segments 3).toNat < 65536 ∧
      (v6.segments 4).toNat < 65536 ∧ (v6.segments 5).toNat < 65536 ∧
      (v6.segments 6).toNat < 65536 ∧ (v6.segments 7).toNat < 65536 := by
  have hlt := fun index => (v6.segments index).toNat_lt
  exact ⟨hlt 0, hlt 1, hlt 2, hlt 3, hlt 4, hlt 5, hlt 6, hlt 7⟩

/-- The first segment decides over a block whose network bits it holds. -/
theorem mem_iff_first_segment {v6 : Ipv6Addr} {block : Block 128} {front : Block 16}
    (hnetwork : block.network = front.network ++ 0#112) (hlength : block.length = front.length) :
    ipv6Bits v6 ∈ block ↔ (v6.segments 0).toBitVec ∈ front := by
  have hsize : 2 ^ (128 - front.length) = 2 ^ (16 - front.length) * 2 ^ 112 := by
    rw [← pow_add]
    have := front.length_le
    congr 1
    omega
  obtain ⟨-, h1, h2, h3, h4, h5, h6, h7⟩ := segments_lt v6
  have hzero : (front.network ++ 0#112).toNat = front.network.toNat * 2 ^ 112 := by
    rw [toNat_append, BitVec.toNat_zero, Nat.add_zero]
  rw [Block.mem_iff_range, Block.mem_iff_range, ipv6Bits_toNat, hnetwork, hlength, hsize, hzero,
    UInt16.toNat_toBitVec]
  omega

/-- The mapped IPv4 address is the last 32 of the 128 bits. -/
theorem toIpv4Mapped_eq_some {v6 : Ipv6Addr} {v4 : Ipv4Addr} :
    v6.toIpv4Mapped = some v4 ↔ ipv6Bits v6 = 0#80 ++ 0xFFFF#16 ++ ipv4Bits v4 := by
  obtain ⟨-, h1, h2, h3, h4, h5, h6, h7⟩ := segments_lt v6
  have hmapped : (0#80 ++ 0xFFFF#16 ++ ipv4Bits v4).toNat = 0xFFFF * 2 ^ 32 + (ipv4Bits v4).toNat :=
    toNat_append _ _
  rw [← BitVec.toNat_inj, hmapped, ipv6Bits_toNat, ipv4Bits_toNat]
  obtain ⟨a, b, c, d⟩ := v4
  have ha := a.toNat_lt
  have hb := b.toNat_lt
  have hc := c.toNat_lt
  have hd := d.toNat_lt
  unfold Ipv6Addr.toIpv4Mapped
  simp only [← UInt16.toNat_inj, Option.ite_none_right_eq_some, Option.some.injEq,
    Ipv4Addr.mk.injEq, ← UInt8.toNat_inj, UInt8.toNat_ofNat', UInt16.toNat_zero,
    UInt16.reduceToNat, Nat.reducePow, Nat.reduceMul]
  omega

theorem isUnspecified_iff {v6 : Ipv6Addr} : v6.isUnspecified = true ↔ ipv6Bits v6 = 0#128 := by
  have hbits : ipv6Bits (ofGroups [] []) = 0#128 := by decide
  rw [Ipv6Addr.isUnspecified, decide_eq_true_eq, ← hbits, ipv6Bits_inj]

theorem isLoopback_iff {v6 : Ipv6Addr} : v6.isLoopback = true ↔ ipv6Bits v6 = 1#128 := by
  have hbits : ipv6Bits (ofGroups [] [1]) = 1#128 := by decide
  rw [Ipv6Addr.isLoopback, decide_eq_true_eq, ← hbits, ipv6Bits_inj]

/-- A short block is told by masking the first segment. -/
theorem mem_iff_mask_first {v6 : Ipv6Addr} {block : Block 128} {mask network : UInt16}
    (hlength : block.length ≤ 16) (hmask : mask.toBitVec = frontMask 16 block.length)
    (hmasked : network &&& mask = network) (hnetwork : block.network = network.toBitVec ++ 0#112) :
    ipv6Bits v6 ∈ block ↔ v6.segments 0 &&& mask = network := by
  have hfront : network.toBitVec &&& frontMask 16 block.length = network.toBitVec := by
    rw [← hmask, ← UInt16.toBitVec_and, hmasked]
  rw [@mem_iff_first_segment v6 block ⟨network.toBitVec, block.length, hlength, hfront⟩ hnetwork rfl,
    Block.mem_iff_mask, ← hmask, ← UInt16.toBitVec_and, UInt16.toBitVec_inj]

theorem exists_mem_ipv6Blocks {v6 : Ipv6Addr} :
    (∃ block ∈ ipv6Blocks, ipv6Bits v6 ∈ block) ↔ v6.isMulticast = true ∨
      v6.segments 0 &&& 0xFE00 = 0xFC00 ∨ v6.segments 0 &&& 0xFFC0 = 0xFE80 := by
  simp only [ipv6Blocks, List.mem_cons, List.not_mem_nil, or_false, exists_eq_or_imp,
    exists_eq_left, Ipv6Addr.isMulticast, decide_eq_true_eq]
  refine or_congr ?_ (or_congr ?_ ?_)
  all_goals
    apply mem_iff_mask_first
    all_goals decide

/-- A mapped address starts with zeroes. -/
theorem first_segment_of_mapped {v6 : Ipv6Addr} {v4 : Ipv4Addr} (hmapped : v6.toIpv4Mapped = some v4) :
    v6.segments 0 = 0 := by
  unfold Ipv6Addr.toIpv4Mapped at hmapped
  split at hmapped
  next hzero => exact hzero.1
  next => cases hmapped

theorem exists_mapped_iff {v6 : Ipv6Addr} :
    (∃ mapped, InIpv4Blocks mapped ∧ ipv6Bits v6 = 0#80 ++ 0xFFFF#16 ++ mapped) ↔
      ∃ v4, v6.toIpv4Mapped = some v4 ∧ isBlockedV4 v4 = true := by
  rw [ipv4Bits_bijective.surjective.exists]
  simp only [inIpv4Blocks_iff, isBlockedV4_iff, toIpv4Mapped_eq_some, and_comm]

/-- No early return shadows a block: a mapped address is in none of them. -/
theorem isBlockedV6_iff {v6 : Ipv6Addr} : isBlockedV6 v6 = true ↔ InIpv6Blocks (ipv6Bits v6) := by
  rw [InIpv6Blocks, ← isUnspecified_iff, ← isLoopback_iff, exists_mem_ipv6Blocks, exists_mapped_iff]
  unfold isBlockedV6
  cases hmapped : v6.toIpv4Mapped with
  | none => simp [or_assoc]
  | some v4 =>
      have hzero := first_segment_of_mapped hmapped
      have hmulticast : v6.isMulticast = false := by
        rw [Ipv6Addr.isMulticast, hzero]
        rfl
      simp [hzero, hmulticast, or_assoc]

/-- Every number of 32 or 128 bits is an address, and the gate blocks exactly those
in the listed blocks. -/
theorem isBlockedAddress_exact :
    (Function.Bijective ipv4Bits ∧
      ∀ v4, isBlockedAddress (.v4 v4) = true ↔ InIpv4Blocks (ipv4Bits v4)) ∧
    (Function.Bijective ipv6Bits ∧
      ∀ v6, isBlockedAddress (.v6 v6) = true ↔ InIpv6Blocks (ipv6Bits v6)) := by
  refine ⟨⟨ipv4Bits_bijective, ?_⟩, ipv6Bits_bijective, ?_⟩
  · intro v4
    rw [isBlockedAddress, isBlockedV4_iff, inIpv4Blocks_iff]
  · intro v6
    exact isBlockedV6_iff

end HellohqRuntime.Gate.BlockedRanges
