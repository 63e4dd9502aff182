import Rill.Text
import Rill.Table

/-!
# Address prefixes

`Prefix` of `rill-core/src/route/mod.rs`: the leading bits of an address and their number. The
source keeps the bits behind the length zero; here the structure carries that. The text of an
address is an argument.
-/

namespace Rill

inductive IpAddr where
  | v4 (octets : BitVec 32)
  | v6 (octets : BitVec 128)
  deriving DecidableEq

def IpAddr.key : IpAddr → Bool × ℕ
  | .v4 octets => (false, octets.toNat)
  | .v6 octets => (true, octets.toNat)

theorem IpAddr.key_injective : Function.Injective IpAddr.key := by
  intro a b h
  cases a <;> cases b <;> simp_all [IpAddr.key, BitVec.toNat_inj]

instance : Ord IpAddr := ⟨compareOn IpAddr.key⟩

instance : Std.TransOrd IpAddr := inferInstanceAs (Std.TransCmp (compareOn IpAddr.key))

instance : Std.LawfulEqOrd IpAddr where
  compare_self := by
    intro a
    exact Std.compare_self (a := a.key)
  eq_of_compare := by
    intro a b h
    exact IpAddr.key_injective (Std.compare_eq_iff_eq.mp h)

structure Prefix where
  bits : BitVec 128
  len : UInt8
  v4 : Bool
  len_le : len.toNat ≤ if v4 then 32 else 128
  canonical : (bits >>> (128 - len.toNat)) <<< (128 - len.toNat) = bits
  deriving DecidableEq

namespace Prefix

theorem shift_canonical (bits : BitVec 128) (shift : ℕ) :
    (((bits >>> shift) <<< shift) >>> shift) <<< shift = (bits >>> shift) <<< shift := by
  ext i hi
  by_cases h : i < shift
  · simp [h]
  · have hi' : shift + (i - shift) < 128 := by omega
    simp [h, hi']

/-- `Prefix::new`: the bits behind the length are cleared. -/
def new (bits : BitVec 128) (len : UInt8) (v4 : Bool) : Option Prefix :=
  if h : len.toNat ≤ if v4 then 32 else 128 then
    some { bits := (bits >>> (128 - len.toNat)) <<< (128 - len.toNat), len, v4, len_le := h,
           canonical := shift_canonical bits _ }
  else none

def addrBits : IpAddr → BitVec 128
  | .v4 octets => octets ++ 0#96
  | .v6 octets => octets

def isV4 : IpAddr → Bool
  | .v4 _ => true
  | .v6 _ => false

/-- `Prefix::parse` over the parser of addresses; every failure is `BadCidr`. -/
def parse (parseIp : Text → Option IpAddr) (cidr : Text) : Option Prefix := do
  let (addr, len) ← Text.splitOnce 47 cidr
  let len ← Text.parseUnsigned 8 len
  let ip ← parseIp addr
  new (addrBits ip) (UInt8.ofNat len) (isV4 ip)

/-- The address a prefix is written with. -/
def toIp (p : Prefix) : IpAddr :=
  if p.v4 then .v4 (p.bits.extractLsb' 96 32) else .v6 p.bits

def toCidr (showIp : IpAddr → Text) (p : Prefix) : Text :=
  showIp p.toIp ++ 47 :: Text.ofNat p.len.toNat

def significant (p : Prefix) : BitVec 128 := p.bits >>> (128 - p.len.toNat)

/-- The shift is one of a `u128`, which a release build takes modulo 128. -/
def contains (p q : Prefix) : Bool :=
  p.v4 == q.v4 && p.len ≤ q.len &&
    (q.significant >>> ((q.len.toNat - p.len.toNat) % 128)) == p.significant

def isCoveredBy (p q : Prefix) : Bool := q.contains p

/-- The shift of `contains` is as wide as the word. -/
def shiftOverflows (p q : Prefix) : Bool :=
  p.v4 == q.v4 && p.len ≤ q.len && q.len.toNat - p.len.toNat == 128

/-- All addresses of `p` are addresses of `q`: the leading bits of `p` are those of `q`. -/
def Within (p q : Prefix) : Prop :=
  p.v4 = q.v4 ∧ q.len ≤ p.len ∧ p.significant >>> (p.len.toNat - q.len.toNat) = q.significant

/-- A shift by the whole width leaves the bits in place, so the check is strict there. -/
theorem within_of_isCoveredBy {p q : Prefix} (h : p.isCoveredBy q = true) : p.Within q := by
  rw [isCoveredBy, contains, Bool.and_eq_true, Bool.and_eq_true, beq_iff_eq, decide_eq_true_eq,
    beq_iff_eq] at h
  obtain ⟨⟨hfamily, hlen⟩, hbits⟩ := h
  refine ⟨hfamily.symm, hlen, ?_⟩
  have hwidth : p.len.toNat ≤ 128 := by
    have hle := p.len_le
    split_ifs at hle <;> omega
  rcases Nat.lt_or_ge (p.len.toNat - q.len.toNat) 128 with hlt | hge
  · rwa [Nat.mod_eq_of_lt hlt] at hbits
  · have hq : q.len.toNat = 0 := by omega
    rw [BitVec.ushiftRight_eq_zero (by omega), significant, hq,
      BitVec.ushiftRight_eq_zero (by omega)]

def fromIp (addr : IpAddr) : Prefix :=
  (new (addrBits addr) (if isV4 addr then 32 else 128) (isV4 addr)).get (by
    cases addr <;> simp [new, isV4])

/-- `Prefix::matches`. A build with overflow checks panics where the shift overflows. -/
def matchesAddr (checks : Bool) (p : Prefix) (addr : IpAddr) : Option Bool :=
  if checks && p.shiftOverflows (fromIp addr) then none else some (p.contains (fromIp addr))

def key (p : Prefix) : BitVec 128 × UInt8 × Bool := (p.bits, p.len, p.v4)

theorem key_injective : Function.Injective key := by
  rintro ⟨bits, len, v4, _, _⟩ ⟨bits', len', v4', _, _⟩ h
  obtain ⟨rfl, rfl, rfl⟩ : bits = bits' ∧ len = len' ∧ v4 = v4' := by simpa [key] using h
  rfl

instance : Ord Prefix := ⟨compareOn key⟩

instance : Std.TransOrd Prefix := inferInstanceAs (Std.TransCmp (compareOn key))

theorem compare_eq (p q : Prefix) : compare p q = compare p.key q.key := rfl

instance : Std.LawfulEqOrd Prefix where
  compare_self := by
    intro p
    rw [compare_eq, Std.compare_self]
  eq_of_compare := by
    intro p q h
    exact key_injective (Std.compare_eq_iff_eq.mp h)

end Prefix

end Rill
