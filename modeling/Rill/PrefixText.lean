import Rill.Prefix

/-!
# Numbers and prefixes as text

A number that is written in decimal is read back. A prefix is made again from the address it is
written with and its length, since the bits behind the length are zero before and after.
-/

namespace Rill

namespace Text

theorem digit_digitChar {d : ℕ} (h : d < 10) :
    UInt8.ofNat (Nat.digitChar d).toNat = UInt8.ofNat (48 + d) := by
  interval_cases d <;> rfl

theorem ofNat_eq (n : ℕ) :
    ofNat n = (if n < 10 then [] else ofNat (n / 10)) ++ [UInt8.ofNat (48 + n % 10)] := by
  rw [ofNat, Nat.toDigits_eq_if (by omega)]
  split_ifs with h
  · rw [List.map_singleton, digit_digitChar h, Nat.mod_eq_of_lt h]
    rfl
  · rw [List.map_append, List.map_singleton, digit_digitChar (Nat.mod_lt _ (by omega))]
    rfl

theorem toNat_digit {d : ℕ} (h : d < 10) : (UInt8.ofNat (48 + d)).toNat = 48 + d := by
  rw [UInt8.toNat_ofNat']
  exact Nat.mod_eq_of_lt (by omega)

theorem isDigit_digit {d : ℕ} (h : d < 10) : isDigit (UInt8.ofNat (48 + d)) = true := by
  interval_cases d <;> rfl

theorem isDigit_of_mem_ofNat {n : ℕ} : ∀ b ∈ ofNat n, isDigit b = true := by
  induction n using Nat.strongRecOn with
  | ind n ih =>
    intro b hb
    rw [ofNat_eq] at hb
    rcases List.mem_append.mp hb with hb | hb
    · split_ifs at hb with hn
      · nomatch hb
      · exact ih (n / 10) (by omega) b hb
    · rw [List.mem_singleton.mp hb]
      exact isDigit_digit (Nat.mod_lt _ (by omega))

theorem foldl_ofNat (n : ℕ) : (ofNat n).foldl (fun n b => 10 * n + (b.toNat - 48)) 0 = n := by
  induction n using Nat.strongRecOn with
  | ind n ih =>
    have hlast := toNat_digit (Nat.mod_lt n (by omega : 10 > 0))
    rw [ofNat_eq, List.foldl_append, List.foldl_cons, List.foldl_nil, hlast]
    split_ifs with hn
    · rw [List.foldl_nil, Nat.mod_eq_of_lt hn]
      omega
    · rw [ih (n / 10) (by omega)]
      omega

theorem ofNat_ne_nil (n : ℕ) : ofNat n ≠ [] := by
  rw [ofNat_eq]
  exact List.append_ne_nil_of_right_ne_nil _ (List.cons_ne_nil _ _)

theorem parseUnsigned_ofNat {width n : ℕ} (h : n < 2 ^ width) :
    parseUnsigned width (ofNat n) = some n := by
  have hhead : (ofNat n).head? ≠ some 43 := by
    intro hplus
    have hdigit := isDigit_of_mem_ofNat 43 (List.mem_of_mem_head? hplus)
    nomatch hdigit
  have hdigits : (ofNat n).all isDigit = true := List.all_eq_true.mpr isDigit_of_mem_ofNat
  rw [parseUnsigned, if_neg hhead, foldl_ofNat, hdigits,
    List.isEmpty_eq_false_iff.mpr (ofNat_ne_nil n), if_neg]
  simpa using h

theorem splitOnce_append {sep : UInt8} {before : Text} (h : sep ∉ before) (after : Text) :
    splitOnce sep (before ++ sep :: after) = some (before, after) := by
  induction before with
  | nil => rw [List.nil_append, splitOnce, if_pos rfl]
  | cons b before ih =>
    rw [List.cons_append, splitOnce, if_neg (List.ne_of_not_mem_cons h).symm,
      ih (List.not_mem_of_not_mem_cons h)]
    rfl

end Text

namespace Prefix

theorem new_self (p : Prefix) : new p.bits p.len p.v4 = some p := by
  rw [new, dif_pos p.len_le]
  exact congrArg some (key_injective (by simp [key, p.canonical]))

theorem isV4_toIp (p : Prefix) : isV4 p.toIp = p.v4 := by
  rw [toIp]
  cases p.v4 with
  | true => rfl
  | false => rfl

theorem addrBits_toIp (p : Prefix) : addrBits p.toIp = p.bits := by
  rw [toIp]
  cases hv4 : p.v4 with
  | false => rfl
  | true =>
    have hlen : p.len.toNat ≤ 32 := by simpa [hv4] using p.len_le
    have hzero : ∀ i (hi : i < 128), i < 96 → p.bits[i] = false := by
      intro i hi hlow
      rw [← p.canonical]
      simp [show i < 128 - p.len.toNat by omega]
    rw [if_pos rfl, addrBits]
    ext i hi
    rw [BitVec.getElem_append]
    split_ifs with hlow
    · rw [BitVec.getElem_zero, hzero i hi hlow]
    · simp [show 96 + (i - 96) = i by omega, BitVec.getLsbD_eq_getElem (show i < 128 from hi)]

end Prefix

end Rill
