import Mathlib

/-!
# Byte strings and fixed-width integers on the wire

`beBytes w n` writes the low `w` bytes of `n`, most significant byte first, and `readBE` reads
a byte string back. The two are inverse on values below `256 ^ w`, which makes every
fixed-width field of a header an injective function of the value it carries.
-/

namespace Rill

abbrev Bytes := List UInt8

instance : LawfulBEq Bytes := inferInstanceAs (LawfulBEq (List UInt8))

def beBytes : ℕ → ℕ → Bytes
  | 0, _ => []
  | w + 1, n => beBytes w (n / 256) ++ [UInt8.ofNat (n % 256)]

def readBE (b : Bytes) : ℕ := b.foldl (fun n x => n * 256 + x.toNat) 0

def leBytes (w n : ℕ) : Bytes := (beBytes w n).reverse

def readLE (b : Bytes) : ℕ := readBE b.reverse

@[simp] theorem length_beBytes (w n : ℕ) : (beBytes w n).length = w := by
  induction w generalizing n with
  | zero => rfl
  | succ w ih => simp [beBytes, ih]

theorem readBE_concat (b : Bytes) (x : UInt8) : readBE (b ++ [x]) = readBE b * 256 + x.toNat := by
  simp [readBE]

theorem readBE_beBytes (w n : ℕ) : readBE (beBytes w n) = n % 256 ^ w := by
  induction w generalizing n with
  | zero => simp [beBytes, readBE, Nat.mod_one]
  | succ w ih =>
    have hbyte : (UInt8.ofNat (n % 256)).toNat = n % 256 := by simp
    rw [beBytes, readBE_concat, ih, hbyte, pow_succ, mul_comm (256 ^ w) 256, Nat.mod_mul]
    ring

theorem readBE_lt (b : Bytes) : readBE b < 256 ^ b.length := by
  induction b using List.reverseRecOn with
  | nil => simp [readBE]
  | append_singleton b x ih =>
    have hx : x.toNat < 256 := x.toNat_lt
    rw [readBE_concat, List.length_append, List.length_singleton, pow_succ]
    omega

theorem beBytes_readBE (b : Bytes) : beBytes b.length (readBE b) = b := by
  induction b using List.reverseRecOn with
  | nil => rfl
  | append_singleton b x ih =>
    have hx : x.toNat < 256 := x.toNat_lt
    have hdiv : (readBE b * 256 + x.toNat) / 256 = readBE b := by omega
    have hmod : (readBE b * 256 + x.toNat) % 256 = x.toNat := by omega
    rw [List.length_append, List.length_singleton, beBytes, readBE_concat, hdiv, hmod, ih]
    simp

theorem beBytes_injective {w m n : ℕ} (hm : m < 256 ^ w) (hn : n < 256 ^ w)
    (h : beBytes w m = beBytes w n) : m = n := by
  have hread := congrArg readBE h
  rwa [readBE_beBytes, readBE_beBytes, Nat.mod_eq_of_lt hm, Nat.mod_eq_of_lt hn] at hread

def u16be (x : UInt16) : Bytes := beBytes 2 x.toNat

def u32be (x : UInt32) : Bytes := beBytes 4 x.toNat

def u64be (x : UInt64) : Bytes := beBytes 8 x.toNat

@[simp] theorem length_u16be (x : UInt16) : (u16be x).length = 2 := length_beBytes _ _

@[simp] theorem length_u32be (x : UInt32) : (u32be x).length = 4 := length_beBytes _ _

@[simp] theorem length_u64be (x : UInt64) : (u64be x).length = 8 := length_beBytes _ _

theorem u16be_injective : Function.Injective u16be := by
  intro x y h
  exact UInt16.toNat_inj.mp (beBytes_injective x.toNat_lt y.toNat_lt h)

theorem u32be_injective : Function.Injective u32be := by
  intro x y h
  exact UInt32.toNat_inj.mp (beBytes_injective x.toNat_lt y.toNat_lt h)

theorem u64be_injective : Function.Injective u64be := by
  intro x y h
  exact UInt64.toNat_inj.mp (beBytes_injective x.toNat_lt y.toNat_lt h)

@[simp] theorem ofNat_readBE_u16be (x : UInt16) : UInt16.ofNat (readBE (u16be x)) = x := by
  have hx : x.toNat < 256 ^ 2 := x.toNat_lt
  rw [u16be, readBE_beBytes, Nat.mod_eq_of_lt hx, UInt16.ofNat_toNat]

@[simp] theorem ofNat_readBE_u32be (x : UInt32) : UInt32.ofNat (readBE (u32be x)) = x := by
  have hx : x.toNat < 256 ^ 4 := x.toNat_lt
  rw [u32be, readBE_beBytes, Nat.mod_eq_of_lt hx, UInt32.ofNat_toNat]

theorem u32be_ofNat_readBE {b : Bytes} (hb : b.length = 4) : u32be (UInt32.ofNat (readBE b)) = b := by
  have hlt : readBE b < 2 ^ 32 := by simpa [hb] using readBE_lt b
  rw [u32be, UInt32.toNat_ofNat_of_lt' hlt, ← hb, beBytes_readBE]

@[simp] theorem ofNat_readBE_u64be (x : UInt64) : UInt64.ofNat (readBE (u64be x)) = x := by
  have hx : x.toNat < 256 ^ 8 := x.toNat_lt
  rw [u64be, readBE_beBytes, Nat.mod_eq_of_lt hx, UInt64.ofNat_toNat]

theorem u32_ofNat_eq_iff (m n : ℕ) : UInt32.ofNat m = UInt32.ofNat n ↔ m % 2 ^ 32 = n % 2 ^ 32 := by
  rw [← UInt32.toNat_inj, UInt32.toNat_ofNat', UInt32.toNat_ofNat']

/-- The field of `n` bytes at offset `off` of a buffer. -/
def field (off n : ℕ) (buf : Bytes) : Bytes := (buf.drop off).take n

theorem field_zero_append {a b : Bytes} {n : ℕ} (h : a.length = n) : field 0 n (a ++ b) = a := by
  subst h
  simp [field]

@[simp] theorem field_succ_cons (off n : ℕ) (x : UInt8) (b : Bytes) :
    field (off + 1) n (x :: b) = field off n b := rfl

theorem field_set_of_lt {b : Bytes} {i off n : ℕ} {x : UInt8} (h : i < off) :
    field off n (b.set i x) = field off n b := by
  rw [field, field, List.drop_set_of_lt h]

theorem field_append_of_length_le {a b : Bytes} {off n : ℕ} (h : a.length ≤ off) :
    field off n (a ++ b) = field (off - a.length) n b := by
  rw [field, field, List.drop_append, List.drop_eq_nil_of_le h, List.nil_append]

end Rill
