import Rill.Prefix

/-!
# Prefixes as sets of addresses

A prefix stands for the block of the addresses of its family with its leading bits.
`Prefix::matches` decides membership in it and `Prefix::contains` inclusion of blocks, except where
their shift is as wide as the word: a prefix of length 0 against an IPv6 prefix of length 128. A
build with overflow checks panics there, and one without compares all bits.
-/

namespace Rill
namespace Prefix

def block (p : Prefix) : Set IpAddr :=
  {a | isV4 a = p.v4 ∧ ∀ i < p.len.toNat, (addrBits a).getMsbD i = p.bits.getMsbD i}

/-- `Prefix::contains` in a build that checks its arithmetic, or in one that does not. -/
def tryContains (checks : Bool) (p q : Prefix) : Option Bool :=
  if checks && p.shiftOverflows q then none else some (p.contains q)

/-- `Prefix::is_covered_by` in such a build. -/
def tryIsCoveredBy (checks : Bool) (p q : Prefix) : Option Bool := tryContains checks q p

def width (v4 : Bool) : ℕ := if v4 then 32 else 128

def addrOf (v4 : Bool) (bits : BitVec 128) : IpAddr :=
  if v4 then .v4 (bits.extractLsb' 96 32) else .v6 bits

theorem width_le (v4 : Bool) : width v4 ≤ 128 := by
  cases v4 <;> decide

theorem len_le_width (p : Prefix) : p.len.toNat ≤ width p.v4 := p.len_le

theorem shift_eq_iff {x y : BitVec 128} {n : ℕ} (hn : n ≤ 128) :
    x >>> (128 - n) = y >>> (128 - n) ↔ ∀ i < n, x.getMsbD i = y.getMsbD i := by
  have hbit : ∀ (z : BitVec 128) (i : ℕ), i < n → (z >>> (128 - n)).getMsbD (128 - n + i) =
      z.getMsbD i := by
    intro z i hi
    have hlt : 128 - n + i < 128 := by omega
    rw [BitVec.getMsbD_ushiftRight, decide_eq_true hlt, decide_eq_false (by omega),
      Nat.add_sub_cancel_left]
    rfl
  constructor
  · intro h i hi
    rw [← hbit x i hi, h, hbit y i hi]
  · intro h
    refine BitVec.eq_of_getMsbD_eq fun j hj => ?_
    rw [BitVec.getMsbD_ushiftRight, BitVec.getMsbD_ushiftRight]
    by_cases hlow : j < 128 - n
    · simp [hlow]
    · rw [h (j - (128 - n)) (by omega)]

theorem getMsbD_shift_back {x : BitVec 128} {n i : ℕ} (hi : i < n) (hn : n ≤ 128) :
    ((x >>> (128 - n)) <<< (128 - n)).getMsbD i = x.getMsbD i := by
  have hlt : i + (128 - n) < 128 := by omega
  rw [BitVec.getMsbD_shiftLeft, BitVec.getMsbD_ushiftRight, decide_eq_true hlt,
    decide_eq_false (by omega), Nat.add_sub_cancel]
  rfl

theorem isV4_addrOf (v4 : Bool) (bits : BitVec 128) : isV4 (addrOf v4 bits) = v4 := by
  cases v4 <;> rfl

theorem getMsbD_addrOf {v4 : Bool} {bits : BitVec 128} {i : ℕ} (hi : i < width v4) :
    (addrBits (addrOf v4 bits)).getMsbD i = bits.getMsbD i := by
  cases v4 with
  | false => rfl
  | true =>
    have hi : i < 32 := hi
    have hindex : 128 - (96 + 32 - i) = i := by omega
    change ((bits.extractLsb' 96 32) ++ 0#96).getMsbD i = _
    rw [BitVec.getMsbD_append, if_neg (by omega), BitVec.getMsbD_extractLsb', decide_eq_true hi,
      decide_eq_true (by omega), hindex]
    rfl

theorem fromIp_v4 (a : IpAddr) : (fromIp a).v4 = isV4 a := by
  cases a <;> simp [fromIp, new, isV4]

theorem fromIp_len (a : IpAddr) : (fromIp a).len.toNat = width (isV4 a) := by
  cases a <;> simp [fromIp, new, isV4, width]

theorem getMsbD_fromIp {a : IpAddr} {i : ℕ} (hi : i < width (isV4 a)) :
    (fromIp a).bits.getMsbD i = (addrBits a).getMsbD i := by
  have hbits : (fromIp a).bits =
      (addrBits a >>> (128 - width (isV4 a))) <<< (128 - width (isV4 a)) := by
    cases a <;> simp [fromIp, new, isV4, width]
  rw [hbits, getMsbD_shift_back hi (width_le _)]

theorem shiftOverflows_iff (p q : Prefix) : p.shiftOverflows q = true ↔
    p.v4 = false ∧ q.v4 = false ∧ p.len = 0 ∧ q.len = 128 := by
  rw [shiftOverflows, Bool.and_eq_true, Bool.and_eq_true, beq_iff_eq, decide_eq_true_eq,
    beq_iff_eq, UInt8.le_iff_toNat_le, ← UInt8.toNat_inj, ← UInt8.toNat_inj]
  change _ ↔ _ ∧ _ ∧ p.len.toNat = 0 ∧ q.len.toNat = 128
  constructor
  · rintro ⟨⟨hfamily, hle⟩, hwide⟩
    have hq := q.len_le
    cases hv : q.v4 with
    | true =>
      rw [hv, if_pos rfl] at hq
      omega
    | false =>
      rw [hv, if_neg (by decide)] at hq
      exact ⟨hfamily.trans hv, rfl, by omega, by omega⟩
  · rintro ⟨hp, hq, hplen, hqlen⟩
    exact ⟨⟨hp.trans hq.symm, by omega⟩, by omega⟩

theorem contains_iff {p q : Prefix} (h : p.shiftOverflows q = false) : p.contains q = true ↔
    q.v4 = p.v4 ∧ p.len.toNat ≤ q.len.toNat ∧
      ∀ i < p.len.toNat, q.bits.getMsbD i = p.bits.getMsbD i := by
  have hp := p.len_le_width.trans (width_le _)
  have hq := q.len_le_width.trans (width_le _)
  rw [contains, Bool.and_eq_true, Bool.and_eq_true, beq_iff_eq, decide_eq_true_eq, beq_iff_eq,
    UInt8.le_iff_toNat_le, and_assoc, eq_comm]
  refine and_congr_right fun hfamily => and_congr_right fun hle => ?_
  have hlt : q.len.toNat - p.len.toNat < 128 := by
    refine lt_of_le_of_ne (by omega) fun hwide => ?_
    rw [shiftOverflows, hfamily, beq_self_eq_true, decide_eq_true (UInt8.le_iff_toNat_le.mpr hle),
      hwide] at h
    cases h
  have hshift : 128 - q.len.toNat + (q.len.toNat - p.len.toNat) = 128 - p.len.toNat := by omega
  rw [Nat.mod_eq_of_lt hlt, significant, significant, ← BitVec.shiftRight_add, hshift,
    shift_eq_iff hp]

theorem mem_block_iff {p : Prefix} {a : IpAddr} (h : p.shiftOverflows (fromIp a) = false) :
    p.contains (fromIp a) = true ↔ a ∈ p.block := by
  rw [contains_iff h, fromIp_v4, fromIp_len]
  refine and_congr_right fun hfamily => ?_
  have hle : p.len.toNat ≤ width (isV4 a) := by
    rw [hfamily]
    exact p.len_le_width
  rw [and_iff_right hle]
  exact forall₂_congr fun i hi => by rw [getMsbD_fromIp (lt_of_lt_of_le hi hle)]

theorem addrOf_mem_block {p : Prefix} {bits : BitVec 128}
    (h : ∀ i < p.len.toNat, bits.getMsbD i = p.bits.getMsbD i) : addrOf p.v4 bits ∈ p.block :=
  ⟨isV4_addrOf p.v4 bits, fun i hi => by
    rw [getMsbD_addrOf (lt_of_lt_of_le hi p.len_le_width), h i hi]⟩

/-- A block that is part of another one is no longer than that. -/
theorem len_le_of_block_subset {p q : Prefix} (h : q.block ⊆ p.block) (hfamily : q.v4 = p.v4) :
    p.len.toNat ≤ q.len.toNat := by
  by_contra hlt
  have hlt : q.len.toNat < p.len.toNat := not_le.mp hlt
  have hwidth : q.len.toNat < width q.v4 := by
    rw [hfamily]
    exact lt_of_lt_of_le hlt p.len_le_width
  have hmax := width_le q.v4
  -- the base address of `q`, and the one with the bit behind the length turned
  have hbase := (h (addrOf_mem_block fun i _ => rfl)).2 q.len.toNat hlt
  have hsame : ∀ i < q.len.toNat,
      (q.bits ^^^ BitVec.twoPow 128 (127 - q.len.toNat)).getMsbD i = q.bits.getMsbD i := by
    intro i hi
    rw [BitVec.getMsbD_xor, BitVec.getMsbD_twoPow, decide_eq_false (p := i = _) (by omega)]
    simp
  have hturned := (h (addrOf_mem_block hsame)).2 q.len.toNat hlt
  rw [getMsbD_addrOf hwidth] at hbase hturned
  rw [BitVec.getMsbD_xor, BitVec.getMsbD_twoPow, decide_eq_true (by omega),
    decide_eq_true (by omega), hbase] at hturned
  simp at hturned

theorem block_subset_iff {p q : Prefix} (h : p.shiftOverflows q = false) :
    p.contains q = true ↔ q.block ⊆ p.block := by
  rw [contains_iff h]
  constructor
  · rintro ⟨hfamily, hle, hbits⟩ a ⟨ha, hlead⟩
    exact ⟨ha.trans hfamily, fun i hi => (hlead i (lt_of_lt_of_le hi hle)).trans (hbits i hi)⟩
  · intro hsub
    have hbase := hsub (addrOf_mem_block (p := q) fun i _ => rfl)
    have hfamily : q.v4 = p.v4 := (isV4_addrOf q.v4 q.bits).symm.trans hbase.1
    refine ⟨hfamily, len_le_of_block_subset hsub hfamily, fun i hi => ?_⟩
    rw [← hbase.2 i hi, getMsbD_addrOf]
    rw [hfamily]
    exact lt_of_lt_of_le hi p.len_le_width

/-- A comparison answers in every build, and rightly. -/
def Decides (compared : Bool → Option Bool) (holds : Prop) : Prop :=
  ∀ checks, ∃ b, compared checks = some b ∧ (b = true ↔ holds)

theorem decides_iff {p q : Prefix} {holds : Prop}
    (h : p.shiftOverflows q = false → (p.contains q = true ↔ holds)) :
    Decides (fun checks => tryContains checks p q) holds ↔
      ¬ (p.v4 = false ∧ q.v4 = false ∧ p.len = 0 ∧ q.len = 128) := by
  rw [← shiftOverflows_iff, Bool.not_eq_true]
  constructor
  · intro hdecides
    obtain ⟨b, hb, -⟩ := hdecides true
    by_contra hover
    have hb : tryContains true p q = some b := hb
    rw [tryContains, Bool.true_and, if_pos (by simpa using hover)] at hb
    exact nomatch hb
  · intro hover checks
    refine ⟨p.contains q, ?_, h hover⟩
    change tryContains checks p q = _
    rw [tryContains, hover, Bool.and_false]
    rfl

/-- `matches` decides membership in the block and `contains` and `is_covered_by` inclusion of
blocks, without panic, but for the prefix of length 0 against a whole IPv6 address. -/
theorem prefix_arithmetic_iff (p q : Prefix) (a : IpAddr) :
    (Decides (fun checks => p.matchesAddr checks a) (a ∈ p.block) ↔
      ¬ (p.v4 = false ∧ isV4 a = false ∧ p.len = 0)) ∧
    (Decides (fun checks => tryContains checks p q) (q.block ⊆ p.block) ↔
      ¬ (p.v4 = false ∧ q.v4 = false ∧ p.len = 0 ∧ q.len = 128)) ∧
    (Decides (fun checks => tryIsCoveredBy checks q p) (q.block ⊆ p.block) ↔
      ¬ (p.v4 = false ∧ q.v4 = false ∧ p.len = 0 ∧ q.len = 128)) := by
  refine ⟨?_, decides_iff block_subset_iff, decides_iff block_subset_iff⟩
  have hmatches : (fun checks => p.matchesAddr checks a) =
      fun checks => tryContains checks p (fromIp a) := rfl
  rw [hmatches, decides_iff mem_block_iff, fromIp_v4]
  refine not_congr (and_congr_right fun _ => and_congr_right fun hv6 => ?_)
  have hlen : (fromIp a).len = 128 := by
    rw [← UInt8.toNat_inj, fromIp_len, hv6]
    rfl
  rw [and_iff_left hlen]

section Lab

def labDefault : Prefix := ⟨0, 0, false, by decide, by decide⟩

/-- An address that the default route of IPv6 does not match: it panics, or it answers no. -/
theorem default_route_shift_overflows :
    IpAddr.v6 1 ∈ labDefault.block ∧ labDefault.matchesAddr true (.v6 1) = none ∧
      labDefault.matchesAddr false (.v6 1) = some false := by
  refine ⟨⟨rfl, fun i hi => absurd hi (Nat.not_lt_zero i)⟩, by decide, by decide⟩

end Lab

end Prefix

end Rill
