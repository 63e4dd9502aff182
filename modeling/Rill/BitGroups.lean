import Mathlib

/-!
# Regrouping bits

A number is written in digits of `w` bits, the highest first. The same bits are taken off in digits
of `v` bits, and the bits that do not fill a digit are left over. `Regrouped` relates what has been
read with what has been put out and what is left. A word of limited size in which the digits are
collected keeps the bits that are left over, and forgets only bits that have been put out.
-/

namespace BitGroups

def value (w : ℕ) (ds : List ℕ) : ℕ := Nat.ofDigits (2 ^ w) ds.reverse

theorem value_concat (w : ℕ) (ds : List ℕ) (d : ℕ) :
    value w (ds ++ [d]) = value w ds * 2 ^ w + d := by
  rw [value, List.reverse_append, List.reverse_singleton, List.singleton_append, Nat.ofDigits_cons,
    value, Nat.mul_comm, Nat.add_comm]

theorem value_injective {w : ℕ} (hw : 0 < w) {ds es : List ℕ} (hlen : ds.length = es.length)
    (hds : ∀ d ∈ ds, d < 2 ^ w) (hes : ∀ d ∈ es, d < 2 ^ w) (h : value w ds = value w es) :
    ds = es := by
  refine List.reverse_injective (Nat.ofDigits_inj_of_len_eq ?_ ?_ ?_ ?_ h)
  · exact Nat.one_lt_two_pow hw.ne'
  · rw [List.length_reverse, List.length_reverse, hlen]
  · simpa using hds
  · simpa using hes

theorem byte_lt (data : List UInt8) : ∀ d ∈ data.map UInt8.toNat, d < 2 ^ 8 := by
  intro d hd
  obtain ⟨b, -, rfl⟩ := List.mem_map.mp hd
  exact b.toNat_lt

/-- The digits `ds` of `w` bits are the digits `out` of `v` bits, and `bits` bits that spell
`rem`. -/
structure Regrouped (w v : ℕ) (ds out : List ℕ) (bits rem : ℕ) : Prop where
  value_eq : value w ds = value v out * 2 ^ bits + rem
  rem_lt : rem < 2 ^ bits
  length_eq : w * ds.length = v * out.length + bits

namespace Regrouped
variable {w v bits rem : ℕ} {ds es out : List ℕ}

theorem nil (w v : ℕ) : Regrouped w v [] [] 0 0 := ⟨by simp [value], by simp, by simp⟩

theorem feed (h : Regrouped w v ds out bits rem) {d : ℕ} (hd : d < 2 ^ w) :
    Regrouped w v (ds ++ [d]) out (bits + w) (rem * 2 ^ w + d) := by
  obtain ⟨hvalue, hrem, hlength⟩ := h
  refine ⟨?_, ?_, ?_⟩
  · rw [value_concat, hvalue]
    ring
  · calc rem * 2 ^ w + d < (rem + 1) * 2 ^ w := by
          rw [Nat.succ_mul]
          omega
      _ ≤ 2 ^ bits * 2 ^ w := Nat.mul_le_mul_right _ hrem
      _ = 2 ^ (bits + w) := (pow_add 2 bits w).symm
  · rw [List.length_append, List.length_singleton, Nat.mul_add, hlength]
    omega

theorem emit (h : Regrouped w v ds out (bits + v) rem) :
    Regrouped w v ds (out ++ [rem / 2 ^ bits]) bits (rem % 2 ^ bits) := by
  obtain ⟨hvalue, hrem, hlength⟩ := h
  refine ⟨?_, Nat.mod_lt _ (by positivity), ?_⟩
  · rw [hvalue, value_concat, pow_add, Nat.add_mul, Nat.add_assoc, Nat.div_add_mod']
    ring
  · rw [List.length_append, List.length_singleton, Nat.mul_add, hlength]
    omega

theorem pad (h : Regrouped w v ds out bits rem) (hbits : bits ≤ v) :
    Regrouped v w (out ++ [rem * 2 ^ (v - bits)]) ds (v - bits) 0 := by
  obtain ⟨hvalue, hrem, hlength⟩ := h
  refine ⟨?_, by positivity, ?_⟩
  · have hpow : 2 ^ v = 2 ^ bits * 2 ^ (v - bits) := by
      rw [← pow_add, Nat.add_sub_cancel' hbits]
    rw [value_concat, hvalue, hpow]
    ring
  · rw [List.length_append, List.length_singleton, Nat.mul_add, hlength]
    omega

theorem symm_of_empty (h : Regrouped w v ds out 0 rem) : Regrouped v w out ds 0 0 := by
  obtain ⟨hvalue, hrem, hlength⟩ := h
  rw [pow_zero, Nat.lt_one_iff] at hrem
  refine ⟨?_, by simp, by omega⟩
  rw [hvalue, hrem]
  simp

theorem unique {out' : List ℕ} {bits' rem' : ℕ} (h : Regrouped w v ds out bits rem)
    (h' : Regrouped w v ds out' bits' rem') (hbits : bits < v) (hbits' : bits' < v)
    (hout : ∀ d ∈ out, d < 2 ^ v) (hout' : ∀ d ∈ out', d < 2 ^ v) :
    out = out' ∧ bits = bits' ∧ rem = rem' := by
  have hlength : v * out.length + bits = v * out'.length + bits' :=
    h.length_eq.symm.trans h'.length_eq
  have hcount : out.length = out'.length := by
    have hdiv := congrArg (· / v) hlength
    simpa [Nat.mul_add_div (by omega : 0 < v), Nat.div_eq_of_lt hbits,
      Nat.div_eq_of_lt hbits'] using hdiv
  obtain rfl : bits = bits' := by
    rw [hcount] at hlength
    omega
  have hvalue := h.value_eq.symm.trans h'.value_eq
  have hpos : 0 < 2 ^ bits := by positivity
  have hquot : value v out = value v out' := by
    have hdiv := congrArg (· / 2 ^ bits) hvalue
    simpa [Nat.mul_comm _ (2 ^ bits), Nat.mul_add_div hpos, Nat.div_eq_of_lt h.rem_lt,
      Nat.div_eq_of_lt h'.rem_lt] using hdiv
  refine ⟨value_injective (by omega) hcount hout hout' hquot, rfl, ?_⟩
  rw [hquot] at hvalue
  omega

theorem injective (h : Regrouped w v ds out bits rem) (h' : Regrouped w v es out bits rem)
    (hw : 0 < w) (hds : ∀ d ∈ ds, d < 2 ^ w) (hes : ∀ d ∈ es, d < 2 ^ w) : ds = es := by
  refine value_injective hw ?_ hds hes (h.value_eq.trans h'.value_eq.symm)
  exact Nat.eq_of_mul_eq_mul_left hw (h.length_eq.trans h'.length_eq.symm)

section Word
variable {W b : ℕ}

theorem mod_shift_or {k d : ℕ} (hd : d < 2 ^ w) (hk : k + w ≤ W) :
    ((b * 2 ^ w % 2 ^ W) ||| d) % 2 ^ (k + w) = b % 2 ^ k * 2 ^ w + d := by
  have hW : 2 ^ W = 2 ^ (W - w) * 2 ^ w := by
    rw [← pow_add, Nat.sub_add_cancel (by omega)]
  have hor : (b * 2 ^ w % 2 ^ W) ||| d = b % 2 ^ (W - w) * 2 ^ w + d := by
    rw [hW, Nat.mul_mod_mul_right, ← Nat.shiftLeft_eq, Nat.shiftLeft_add_eq_or_of_lt hd]
  have hlow : b % 2 ^ (W - w) % 2 ^ k = b % 2 ^ k :=
    Nat.mod_mod_of_dvd b (pow_dvd_pow 2 (by omega))
  have hsplit : 2 ^ (k + w) = 2 ^ w * 2 ^ k := by rw [pow_add, Nat.mul_comm]
  rw [hor, hsplit, Nat.mod_mul, Nat.mul_comm (b % 2 ^ (W - w)), Nat.mul_add_mod,
    Nat.mod_eq_of_lt hd, Nat.mul_add_div (by positivity), Nat.div_eq_of_lt hd, Nat.add_zero, hlow]
  ring

theorem feed_word (h : Regrouped w v ds out bits (b % 2 ^ bits)) {d : ℕ} (hd : d < 2 ^ w)
    (hbits : bits + w ≤ W) :
    Regrouped w v (ds ++ [d]) out (bits + w)
      (((b * 2 ^ w % 2 ^ W) ||| d) % 2 ^ (bits + w)) := by
  rw [mod_shift_or hd hbits]
  exact h.feed hd

theorem emit_word (h : Regrouped w v ds out (bits + v) (b % 2 ^ (bits + v))) :
    Regrouped w v ds (out ++ [b / 2 ^ bits % 2 ^ v]) bits (b % 2 ^ bits) := by
  have hnext := h.emit
  rwa [pow_add, Nat.mod_mul_right_div_self, Nat.mod_mul_right_mod] at hnext

end Word

end Regrouped

end BitGroups
