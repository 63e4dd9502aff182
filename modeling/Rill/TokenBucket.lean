import Mathlib.Algebra.Order.Field.Basic
import Mathlib.Tactic.Linarith
import Mathlib.Tactic.Ring

/-!
# Token buckets

A bucket holds tokens up to its capacity and is refilled at a rate. From a time `a` on, the tokens
it has given and those it has left are at most its capacity and what was refilled since `a`.
-/

structure TokenBucket (K : Type) where
  capacity : ℕ
  rate : K
  tokens : K
  last : K

namespace TokenBucket
variable {K : Type} [Field K] [LinearOrder K]

def new (rate : K) (capacity : ℕ) (now : K) : TokenBucket K :=
  { capacity, rate, tokens := capacity, last := now }

/-- The tokens at a time, before one is taken. -/
def refilled (b : TokenBucket K) (now : K) : K :=
  min (b.tokens + max (now - b.last) 0 * b.rate) b.capacity

def take (b : TokenBucket K) (now : K) : TokenBucket K × Bool :=
  if 1 ≤ b.refilled now then ({ b with tokens := b.refilled now - 1, last := now }, true)
  else ({ b with tokens := b.refilled now, last := now }, false)

variable {b : TokenBucket K} {a now : K} {n : ℕ}

@[simp] theorem take_capacity : (b.take now).1.capacity = b.capacity := by
  rw [take]
  split <;> rfl

@[simp] theorem take_rate : (b.take now).1.rate = b.rate := by
  rw [take]
  split <;> rfl

@[simp] theorem take_last : (b.take now).1.last = now := by
  rw [take]
  split <;> rfl

theorem take_tokens (b : TokenBucket K) (now : K) :
    (if (b.take now).2 then 1 else 0 : K) + (b.take now).1.tokens = b.refilled now := by
  rw [take]
  split
  · simp
  · simp

variable [IsStrictOrderedRing K]

theorem take_tokens_nonneg (h : 0 ≤ b.refilled now) : 0 ≤ (b.take now).1.tokens := by
  rw [take]
  split
  · rename_i hone
    exact sub_nonneg.mpr hone
  · exact h

/-- The bucket has given `n` tokens since the time `a`. -/
structure Charged (b : TokenBucket K) (a : K) (n : ℕ) : Prop where
  rate_nonneg : 0 ≤ b.rate
  nonneg : 0 ≤ b.tokens
  full : b.tokens ≤ b.capacity
  spent : n = 0 ∨ a ≤ b.last ∧ n + b.tokens ≤ b.capacity + b.rate * (b.last - a)

theorem charged_new {rate : K} (hrate : 0 ≤ rate) (capacity : ℕ) (now a : K) :
    (new rate capacity now).Charged a 0 :=
  ⟨hrate, Nat.cast_nonneg _, le_rfl, .inl rfl⟩

namespace Charged

theorem refilled_nonneg (h : b.Charged a n) (now : K) : 0 ≤ b.refilled now := by
  have hgain : 0 ≤ max (now - b.last) 0 * b.rate := mul_nonneg (le_max_right _ _) h.rate_nonneg
  exact le_min (add_nonneg h.nonneg hgain) (Nat.cast_nonneg _)

/-- What a call gives is counted if it is not before the time `a`. -/
theorem take (h : b.Charged a n) (hlast : b.last ≤ now) (ha : a ≤ now) :
    (b.take now).1.Charged a (n + if (b.take now).2 then 1 else 0) := by
  have htokens := take_tokens b now
  have hnonneg := take_tokens_nonneg (h.refilled_nonneg now)
  have hcap : b.refilled now ≤ b.capacity := min_le_right _ _
  have hgiven : ((n + if (b.take now).2 then 1 else 0 : ℕ) : K) + (b.take now).1.tokens =
      n + b.refilled now := by
    rw [← htokens]
    split <;> push_cast <;> ring
  refine ⟨by rw [take_rate]; exact h.rate_nonneg, hnonneg, ?_, .inr ⟨by rwa [take_last], ?_⟩⟩
  · have hzero : (0 : K) ≤ if (b.take now).2 then 1 else 0 := by split <;> simp
    rw [take_capacity]
    linarith
  · rw [hgiven, take_capacity, take_rate, take_last]
    rcases h.spent with rfl | ⟨-, hspent⟩
    · have hsince := mul_nonneg h.rate_nonneg (sub_nonneg.mpr ha)
      push_cast
      linarith
    · have hrefill : b.refilled now ≤ b.tokens + (now - b.last) * b.rate := by
        rw [refilled, max_eq_left (sub_nonneg.mpr hlast)]
        exact min_le_left _ _
      linarith

/-- Calls before the time `a` are not counted. -/
theorem take_before (h : b.Charged a 0) (now : K) : (b.take now).1.Charged a 0 := by
  have htokens := take_tokens b now
  have hcap : b.refilled now ≤ b.capacity := min_le_right _ _
  refine ⟨by rw [take_rate]; exact h.rate_nonneg, take_tokens_nonneg (h.refilled_nonneg now), ?_,
    .inl rfl⟩
  have hzero : (0 : K) ≤ if (b.take now).2 then 1 else 0 := by split <;> simp
  rw [take_capacity]
  linarith

theorem of_le (h : b.Charged a n) {m : ℕ} (hm : m ≤ n) : b.Charged a m := by
  refine ⟨h.rate_nonneg, h.nonneg, h.full, ?_⟩
  rcases h.spent with rfl | ⟨ha, hspent⟩
  · exact .inl (Nat.le_zero.mp hm)
  · have hcast : (m : K) ≤ n := Nat.cast_le.mpr hm
    exact .inr ⟨ha, by linarith⟩

theorem le_of_last_le (h : b.Charged a n) {T : K} (hT : 0 ≤ T) (hlast : b.last ≤ a + T) :
    (n : K) ≤ b.capacity + b.rate * T := by
  have hmore := mul_nonneg h.rate_nonneg hT
  rcases h.spent with rfl | ⟨-, hspent⟩
  · have hcap : (0 : K) ≤ b.capacity := Nat.cast_nonneg _
    push_cast
    linarith
  · have hsince : b.rate * (b.last - a) ≤ b.rate * T :=
      mul_le_mul_of_nonneg_left (by linarith) h.rate_nonneg
    linarith [h.nonneg]

end Charged

end TokenBucket
