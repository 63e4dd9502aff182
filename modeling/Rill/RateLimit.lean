import Rill.TokenBucket
import Rill.Prefix

/-!
# Limits by source

`SourceRateLimiter` of `rill-core/src/rate.rs`: a token bucket for each source address. The prune,
which is called now and then, drops all buckets when there are too many; a source whose bucket is
dropped starts with a full one.
-/

namespace Rill

/-- The arithmetic is that of an ordered field. -/
structure SourceRateLimiter (K : Type) where
  buckets : Table IpAddr (TokenBucket K) := ∅
  ratePerSec : K
  capacity : ℕ

inductive LimiterCall (K : Type) where
  | allow (now : K) (src : IpAddr)
  | prune (now : K)

def LimiterCall.time {K : Type} : LimiterCall K → K
  | .allow now _ => now
  | .prune now => now

namespace SourceRateLimiter
variable {K : Type} [Field K] [LinearOrder K]

def new (ratePerSec : K) (capacity : ℕ) : SourceRateLimiter K :=
  { ratePerSec, capacity }

def bucket (l : SourceRateLimiter K) (src : IpAddr) (now : K) : TokenBucket K :=
  l.buckets[src]?.getD (.new l.ratePerSec l.capacity now)

def allow (l : SourceRateLimiter K) (src : IpAddr) (now : K) : SourceRateLimiter K × Bool :=
  ({ l with buckets := l.buckets.insert src ((l.bucket src now).take now).1 },
    ((l.bucket src now).take now).2)

def prune (l : SourceRateLimiter K) : SourceRateLimiter K :=
  if 4096 < l.buckets.size then { l with buckets := ∅ } else l

def call (src : IpAddr) (l : SourceRateLimiter K) : LimiterCall K → SourceRateLimiter K × Bool
  | .allow now other =>
    let (l, allowed) := l.allow other now
    (l, allowed && other == src)
  | .prune _ => (l.prune, false)

/-- One if the call lets `src` through from the time `a` to the time `b`. -/
def hit (src : IpAddr) (a b : K) (l : SourceRateLimiter K) (c : LimiterCall K) : ℕ :=
  if (l.call src c).2 = true ∧ a ≤ c.time ∧ c.time ≤ b then 1 else 0

/-- How often `src` is let through from the time `a` to the time `b`. -/
def passed (src : IpAddr) (a b : K) : SourceRateLimiter K → List (LimiterCall K) → ℕ
  | _, [] => 0
  | l, c :: cs => l.hit src a b c + passed src a b (l.call src c).1 cs

/-- A prune from the time `a` to the time `b` does not drop the bucket of `src`. -/
def Keeps (src : IpAddr) (a b : K) (l : SourceRateLimiter K) : LimiterCall K → Prop
  | .prune now => a ≤ now → now ≤ b → l.buckets[src]? = none ∨ l.buckets.size ≤ 4096
  | .allow .. => True

def KeepsAll (src : IpAddr) (a b : K) : SourceRateLimiter K → List (LimiterCall K) → Prop
  | _, [] => True
  | l, c :: cs => l.Keeps src a b c ∧ KeepsAll src a b (l.call src c).1 cs

variable {src : IpAddr} {a T t now : K} {n : ℕ} {l : SourceRateLimiter K} {c : LimiterCall K}

theorem getElem?_allow (l : SourceRateLimiter K) (src other : IpAddr) (now : K) :
    (l.allow other now).1.buckets[src]? =
      if other = src then some ((l.bucket src now).take now).1 else l.buckets[src]? := by
  rw [allow, Table.getElem?_insert]
  split
  · rename_i h
    rw [h]
  · rfl

@[simp] theorem call_capacity : (l.call src c).1.capacity = l.capacity := by
  cases c with
  | allow now other => rfl
  | prune now =>
    rw [call, prune]
    split <;> rfl

@[simp] theorem call_ratePerSec : (l.call src c).1.ratePerSec = l.ratePerSec := by
  cases c with
  | allow now other => rfl
  | prune now =>
    rw [call, prune]
    split <;> rfl

theorem passed_late {b : K} {calls : List (LimiterCall K)} (hlate : ∀ c ∈ calls, b < c.time)
    (l : SourceRateLimiter K) : l.passed src a b calls = 0 := by
  induction calls generalizing l with
  | nil => rfl
  | cons c cs ih =>
    obtain ⟨hc, hcs⟩ := List.forall_mem_cons.mp hlate
    rw [passed, ih hcs, hit, if_neg fun hhit => hc.not_ge hhit.2.2]

theorem hit_fresh [IsStrictOrderedRing K] {b : K} (hfresh : l.buckets[src]? = none)
    (hcap : 0 < l.capacity) (ha : a ≤ now) (hb : now ≤ b) : l.hit src a b (.allow now src) = 1 := by
  have hbucket : l.bucket src now = .new l.ratePerSec l.capacity now := by
    rw [bucket, hfresh, Option.getD_none]
  have hfull : 1 ≤ (l.bucket src now).refilled now := by
    have hcast : (1 : K) ≤ l.capacity := by exact_mod_cast hcap
    rw [hbucket, TokenBucket.refilled]
    simpa [TokenBucket.new] using hcast
  have htake : ((l.bucket src now).take now).2 = true := by
    rw [TokenBucket.take, if_pos hfull]
  refine if_pos ⟨?_, ha, hb⟩
  change (((l.bucket src now).take now).2 && src == src) = true
  rw [htake, beq_self_eq_true, Bool.and_self]

/-- The limiter after a call for each source of a list. -/
def flood (now : K) (l : SourceRateLimiter K) (others : List IpAddr) : SourceRateLimiter K :=
  others.foldl (fun l other => (l.allow other now).1) l

theorem passed_flood {others : List IpAddr} (hothers : src ∉ others) (now b : K)
    (l : SourceRateLimiter K) (calls : List (LimiterCall K)) :
    l.passed src a b (others.map (.allow now) ++ calls) =
      (l.flood now others).passed src a b calls := by
  induction others generalizing l with
  | nil => rfl
  | cons other others ih =>
    rw [List.mem_cons, not_or] at hothers
    have hmiss : l.hit src a b (.allow now other) = 0 :=
      if_neg fun hhit => hothers.1 (beq_iff_eq.mp (Bool.and_eq_true_iff.mp hhit.1).2).symm
    rw [List.map_cons, List.cons_append, passed, hmiss, Nat.zero_add]
    exact ih hothers.2 _

theorem size_flood {others : List IpAddr} (hnodup : others.Nodup) (now : K)
    (l : SourceRateLimiter K) (hfresh : ∀ other ∈ others, other ∉ l.buckets) :
    (l.flood now others).buckets.size = l.buckets.size + others.length := by
  induction others generalizing l with
  | nil => rfl
  | cons other others ih =>
    rw [List.nodup_cons] at hnodup
    have hsize : (l.allow other now).1.buckets.size = l.buckets.size + 1 := by
      rw [allow, Std.ExtTreeMap.size_insert, if_neg (mt Std.ExtTreeMap.mem_iff_contains.mpr
        (hfresh other List.mem_cons_self))]
    have hnext := ih hnodup.2 (l.allow other now).1 (by
      intro x hx hmem
      rw [allow, Std.ExtTreeMap.mem_insert, Std.LawfulEqOrd.compare_eq_iff_eq] at hmem
      rcases hmem with rfl | hmem
      · exact hnodup.1 hx
      · exact hfresh x (List.mem_cons_of_mem _ hx) hmem)
    rw [hsize] at hnext
    rw [List.length_cons, ← Nat.add_assoc, Nat.add_right_comm]
    exact hnext

@[simp] theorem flood_capacity (now : K) (l : SourceRateLimiter K) (others : List IpAddr) :
    (l.flood now others).capacity = l.capacity := by
  induction others generalizing l with
  | nil => rfl
  | cons other others ih => exact ih _

variable [IsStrictOrderedRing K]

/-- The bucket of the source has given `n` tokens since `a`, the last at `t` or before. -/
structure Tracks (src : IpAddr) (a T : K) (l : SourceRateLimiter K) (n : ℕ) (t : K) : Prop where
  rate : 0 ≤ l.ratePerSec
  kept : ∀ b, l.buckets[src]? = some b →
    b.capacity = l.capacity ∧ b.rate = l.ratePerSec ∧ b.Charged a n ∧ b.last ≤ t
  fresh : l.buckets[src]? = none → n = 0
  since : n = 0 ∨ a ≤ t
  bound : (n : K) ≤ l.capacity + l.ratePerSec * T

namespace Tracks

theorem bucket (h : Tracks src a T l n t) (hnow : t ≤ now) :
    (l.bucket src now).capacity = l.capacity ∧ (l.bucket src now).rate = l.ratePerSec ∧
      (l.bucket src now).Charged a n ∧ (l.bucket src now).last ≤ now := by
  rw [SourceRateLimiter.bucket]
  cases hb : l.buckets[src]? with
  | none =>
    rw [h.fresh hb]
    exact ⟨rfl, rfl, TokenBucket.charged_new h.rate _ _ _, le_rfl⟩
  | some b =>
    obtain ⟨hcap, hrate, hcharged, hlast⟩ := h.kept b hb
    exact ⟨hcap, hrate, hcharged, hlast.trans hnow⟩

omit [IsStrictOrderedRing K] in
theorem elsewhere (h : Tracks src a T l n t) (hnow : t ≤ now) {l' : SourceRateLimiter K}
    (hbucket : l'.buckets[src]? = l.buckets[src]?) (hcap : l'.capacity = l.capacity)
    (hrate : l'.ratePerSec = l.ratePerSec) : Tracks src a T l' n now where
  rate := hrate ▸ h.rate
  kept b hb := by
    rw [hbucket] at hb
    obtain ⟨hbcap, hbrate, hcharged, hlast⟩ := h.kept b hb
    exact ⟨hbcap.trans hcap.symm, hbrate.trans hrate.symm, hcharged, hlast.trans hnow⟩
  fresh hb := h.fresh (hbucket ▸ hb)
  since := h.since.imp_right fun ha => ha.trans hnow
  bound := by
    rw [hcap, hrate]
    exact h.bound

theorem own (h : Tracks src a T l n t) {m : ℕ}
    (hcharged : ((l.bucket src now).take now).1.Charged a (n + m)) (hnow : t ≤ now)
    (hsince : n + m = 0 ∨ a ≤ now) (hbound : ((n + m : ℕ) : K) ≤ l.capacity + l.ratePerSec * T) :
    Tracks src a T (l.allow src now).1 (n + m) now where
  rate := h.rate
  kept b hb := by
    obtain ⟨hcap, hrate, -, -⟩ := h.bucket hnow
    rw [getElem?_allow, if_pos rfl, Option.some_inj] at hb
    subst hb
    exact ⟨TokenBucket.take_capacity.trans hcap, TokenBucket.take_rate.trans hrate, hcharged,
      TokenBucket.take_last.le⟩
  fresh hb := by
    rw [getElem?_allow, if_pos rfl] at hb
    cases hb
  since := hsince
  bound := hbound

theorem allow (h : Tracks src a T l n t) (hT : 0 ≤ T) (hnow : t ≤ now) :
    Tracks src a T (l.allow src now).1 (n + l.hit src a (a + T) (.allow now src)) now := by
  obtain ⟨hcap, hrate, hcharged, hlast⟩ := h.bucket hnow
  rcases lt_or_ge now a with hbefore | hsince
  · have hmiss : l.hit src a (a + T) (.allow now src) = 0 :=
      if_neg fun hhit => absurd hhit.2.1 (not_le.mpr hbefore)
    have hzero : n = 0 := h.since.resolve_right fun hat => absurd (hat.trans hnow) hbefore.not_ge
    subst hzero
    rw [hmiss]
    exact h.own (hcharged.take_before now) hnow (.inl rfl) h.bound
  · have htake := hcharged.take hlast hsince
    by_cases hhit : (l.call src (.allow now src)).2 = true ∧ a ≤ now ∧ now ≤ a + T
    · have hone : l.hit src a (a + T) (.allow now src) = 1 := if_pos hhit
      have hgiven : ((l.bucket src now).take now).2 = true := (Bool.and_eq_true_iff.mp hhit.1).1
      rw [hgiven, if_pos rfl] at htake
      have hbound := htake.le_of_last_le hT (TokenBucket.take_last.trans_le hhit.2.2)
      rw [TokenBucket.take_capacity, TokenBucket.take_rate, hcap, hrate] at hbound
      rw [hone]
      exact h.own htake hnow (.inr hsince) hbound
    · have hmiss : l.hit src a (a + T) (.allow now src) = 0 := if_neg hhit
      rw [hmiss]
      exact h.own (htake.of_le (Nat.le_add_right _ _)) hnow (.inr hsince) h.bound

theorem of_fresh (hrate : 0 ≤ l.ratePerSec) (hfresh : l.buckets[src]? = none) (hT : 0 ≤ T) :
    Tracks src a T l 0 t where
  rate := hrate
  kept b hb := by cases hfresh.symm.trans hb
  fresh _ := rfl
  since := .inl rfl
  bound := by
    rw [Nat.cast_zero]
    exact add_nonneg (Nat.cast_nonneg _) (mul_nonneg hrate hT)

/-- A bucket that has given nothing since `a` may be dropped. -/
theorem prune (h : Tracks src a T l n t) (hT : 0 ≤ T) (hnow : t ≤ now)
    (hkept : n = 0 ∨ l.buckets.size ≤ 4096) : Tracks src a T l.prune n now := by
  rw [SourceRateLimiter.prune]
  split_ifs with hlarge
  · rcases hkept with rfl | hsize
    · exact of_fresh h.rate Std.ExtTreeMap.getElem?_empty hT
    · exact absurd hlarge hsize.not_gt
  · exact h.elsewhere hnow rfl rfl rfl

theorem call (h : Tracks src a T l n t) (hT : 0 ≤ T) (hc : l.Keeps src a (a + T) c)
    (htime : t ≤ c.time) (hlate : c.time ≤ a + T) :
    Tracks src a T (l.call src c).1 (n + l.hit src a (a + T) c) c.time := by
  cases c with
  | allow now other =>
    by_cases hother : other = src
    · subst hother
      exact h.allow hT htime
    · have hmiss : l.hit src a (a + T) (.allow now other) = 0 :=
        if_neg fun hhit => hother (beq_iff_eq.mp (Bool.and_eq_true_iff.mp hhit.1).2)
      rw [hmiss]
      exact h.elsewhere htime ((getElem?_allow ..).trans (if_neg hother)) rfl rfl
  | prune now =>
    have hmiss : l.hit src a (a + T) (.prune now) = 0 := if_neg fun hhit => nomatch hhit.1
    rw [hmiss]
    refine h.prune hT htime ?_
    rcases h.since with hzero | hsince
    · exact .inl hzero
    · exact (hc (hsince.trans htime) hlate).imp_left h.fresh

theorem run (hT : 0 ≤ T) (calls : List (LimiterCall K)) (h : Tracks src a T l n t)
    (hkeeps : l.KeepsAll src a (a + T) calls) (htimes : ∀ c ∈ calls, t ≤ c.time)
    (hsorted : calls.Pairwise fun c d => c.time ≤ d.time) :
    ((n + l.passed src a (a + T) calls : ℕ) : K) ≤ l.capacity + l.ratePerSec * T := by
  induction calls generalizing l n t with
  | nil => exact h.bound
  | cons c cs ih =>
    rw [List.pairwise_cons] at hsorted
    rcases le_or_gt c.time (a + T) with hlate | hlate
    · have hnext := ih (h.call hT hkeeps.1 (htimes c List.mem_cons_self) hlate) hkeeps.2 hsorted.1
        hsorted.2
      rwa [call_capacity, call_ratePerSec, Nat.add_assoc] at hnext
    · rw [passed_late (List.forall_mem_cons.mpr
        ⟨hlate, fun d hd => hlate.trans_le (hsorted.1 d hd)⟩)]
      exact h.bound

end Tracks

/-- In a time `T` in which its bucket is kept, a source is let through `c + r * T` times at most. -/
theorem passed_le (rate : K) (capacity : ℕ) (src : IpAddr) (calls : List (LimiterCall K)) (a T : K)
    (hrate : 0 ≤ rate) (hT : 0 ≤ T) (hsorted : calls.Pairwise fun c d => c.time ≤ d.time)
    (hkeeps : (new rate capacity).KeepsAll src a (a + T) calls) :
    ((new rate capacity).passed src a (a + T) calls : K) ≤ capacity + rate * T := by
  have hnew : ∀ t, Tracks src a T (new rate capacity) 0 t := fun _ =>
    .of_fresh hrate Std.ExtTreeMap.getElem?_empty hT
  cases calls with
  | nil => exact (hnew a).bound
  | cons c cs =>
    have hfirst : ∀ d ∈ c :: cs, c.time ≤ d.time :=
      List.forall_mem_cons.mpr ⟨le_rfl, (List.pairwise_cons.mp hsorted).1⟩
    have hrun := (hnew c.time).run hT _ hkeeps hfirst hsorted
    rwa [Nat.zero_add] at hrun

/-- Two calls at once for one source, with a prune between them. -/
theorem passed_le_lab : ((new (1 : ℚ) 1).passed (.v4 0) 0 (0 + 1)
    [.allow 0 (.v4 0), .prune 0, .allow 0 (.v4 0)] : ℚ) ≤ (1 : ℕ) + 1 * 1 := by
  refine passed_le 1 1 (.v4 0) _ 0 1 (by norm_num) (by norm_num) (by simp [LimiterCall.time]) ?_
  refine ⟨trivial, fun _ _ => .inr ?_, trivial, trivial⟩
  decide

/-- After enough other sources the prune gives a source a full bucket again. -/
theorem passed_again {others : List IpAddr} (hnodup : (src :: others).Nodup)
    (hmany : 4096 ≤ others.length) {capacity : ℕ} (hcap : 0 < capacity) (rate now : K) :
    (new rate capacity).passed src now now
      (.allow now src :: (others.map (.allow now) ++ [.prune now, .allow now src])) = 2 := by
  have hfirst : (new rate capacity).hit src now now (.allow now src) = 1 :=
    hit_fresh Std.ExtTreeMap.getElem?_empty hcap le_rfl le_rfl
  have hothers := (List.nodup_cons.mp hnodup).1
  let l := (new rate capacity).flood now (src :: others)
  have hsize : 4096 < l.buckets.size := by
    have hflood := size_flood hnodup now (new rate capacity) fun _ _ => Std.ExtTreeMap.not_mem_empty
    rw [List.length_cons] at hflood
    change 4096 < ((new rate capacity).flood now (src :: others)).buckets.size
    omega
  have hprune : l.prune = { l with buckets := ∅ } := if_pos hsize
  have hsecond : l.prune.hit src now now (.allow now src) = 1 := by
    refine hit_fresh ?_ ?_ le_rfl le_rfl
    · rw [hprune, Std.ExtTreeMap.getElem?_empty]
    · rw [hprune]
      exact (flood_capacity now (new rate capacity) (src :: others)).symm ▸ hcap
  have hmiss : l.hit src now now (.prune now) = 0 := if_neg fun hhit => nomatch hhit.1
  rw [passed, hfirst, passed_flood hothers]
  change 1 + (l.hit src now now (.prune now) + (l.prune.hit src now now (.allow now src) + 0)) = 2
  rw [hmiss, hsecond]

def floodSources : List IpAddr :=
  (List.range' 1 4096).map fun i => .v4 (BitVec.ofNat 32 i)

theorem nodup_floodSources : (IpAddr.v4 0 :: floodSources).Nodup := by
  change ((List.range' 0 4097).map fun i => IpAddr.v4 (BitVec.ofNat 32 i)).Nodup
  refine List.Nodup.map_on ?_ List.nodup_range'
  intro i hi j hj h
  rw [List.mem_range'_1] at hi hj
  have hvalue : BitVec.ofNat 32 i = BitVec.ofNat 32 j := IpAddr.v4.inj h
  have htoNat := congrArg BitVec.toNat hvalue
  rw [BitVec.toNat_ofNat, BitVec.toNat_ofNat] at htoNat
  omega

def floodCalls : List (LimiterCall ℚ) :=
  .allow 0 (.v4 0) :: (floodSources.map (.allow 0) ++ [.prune 0, .allow 0 (.v4 0)])

theorem time_floodCalls : ∀ c ∈ floodCalls, c.time = 0 := by
  intro c hc
  simp only [floodCalls, List.mem_cons, List.mem_append, List.mem_map, List.not_mem_nil,
    or_false] at hc
  obtain rfl | ⟨other, -, rfl⟩ | rfl | rfl := hc
  all_goals rfl

/-- One token, never refilled, is given twice. -/
theorem floodCalls_pass_twice : (floodCalls.Pairwise fun c d => c.time ≤ d.time) ∧
    ¬ ((new (0 : ℚ) 1).passed (.v4 0) 0 (0 + 0) floodCalls : ℚ) ≤ (1 : ℕ) + 0 * 0 := by
  constructor
  · refine List.pairwise_of_forall_mem_list ?_
    intro c hc d hd
    rw [time_floodCalls c hc, time_floodCalls d hd]
  · have htwice := passed_again nodup_floodSources (by simp [floodSources]) Nat.one_pos (0 : ℚ) 0
    rw [add_zero, floodCalls, htwice]
    norm_num

end SourceRateLimiter

end Rill
