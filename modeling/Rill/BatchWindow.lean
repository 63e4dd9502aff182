import Mathlib.Data.Nat.Basic
import Mathlib.Order.Basic
import Mathlib.Tactic.Common

/-!
# Batching windows

Requests are batched: the first one opens a window of a fixed width, and the first event at or
after the end of the window carries out the batch, which raises a counter once. A reset carries out
the batch at once. `Batched` says so of a sequence of events and the values of a counter alone, and
a state that keeps the deadline of the open window is such a counter.
-/

namespace BatchWindow

inductive Event where
  | idle
  | check (now : ℕ)
  | request (now : ℕ)
  | reset
  deriving DecidableEq

def Event.time : Event → Option ℕ
  | .check now => some now
  | .request now => some now
  | _ => none

section Counter
variable (width : ℕ) (events : ℕ → Event) (count : ℕ → ℕ)

/-- The counter does not rise after the event `j` and before the event `k`. -/
def Steady (j k : ℕ) : Prop := ∀ m, j < m → m < k → count (m + 1) = count m

/-- A window that a request opened and that nothing has closed since is over at the event `k`. -/
def Due (k : ℕ) : Prop :=
  ∃ j t now, j < k ∧ events j = .request t ∧ Steady count j k ∧ (events k).time = some now ∧
    t + width ≤ now

/-- The counter rises once for each window, when it is over or at a reset, and every request is
followed by a rise that is not later than the first event after its window. -/
structure Batched (n : ℕ) : Prop where
  by_one : ∀ k < n, count (k + 1) = count k ∨ count (k + 1) = count k + 1
  rises_iff : ∀ k < n, count (k + 1) ≠ count k ↔ events k = .reset ∨ Due width events count k
  followed : ∀ k < n, ∀ j r t u now, j ≤ r → r < k → events j = .request t → events r = .request u →
    Steady count j (r + 1) → (events k).time = some now → t + width ≤ now →
      ∃ m, r < m ∧ m ≤ k ∧ count (m + 1) ≠ count m

variable {width events count}

theorem batched_of_rises_iff {n : ℕ}
    (hone : ∀ k < n, count (k + 1) = count k ∨ count (k + 1) = count k + 1)
    (hrises : ∀ k < n, count (k + 1) ≠ count k ↔ events k = .reset ∨ Due width events count k) :
    Batched width events count n := by
  refine ⟨hone, hrises, ?_⟩
  intro k hk j r t u now hjr hrk hj _ hsteady hnow hover
  by_contra! hflat
  have hopen : Steady count j k := by
    intro m hjm hmk
    rcases Nat.lt_or_ge r m with hrm | hmr
    · exact hflat m hrm hmk.le
    · exact hsteady m hjm (Nat.lt_succ_of_le hmr)
  have hdue : Due width events count k := ⟨j, t, now, by omega, hj, hopen, hnow, hover⟩
  exact (hrises k hk).mpr (Or.inr hdue) (hflat k hrk le_rfl)

end Counter

structure State where
  count : ℕ
  deadline : Option ℕ

namespace State

def check (s : State) (now : ℕ) : State :=
  if s.deadline.any (· ≤ now) then ⟨s.count + 1, none⟩ else s

def step (width : ℕ) (s : State) : Event → State
  | .idle => s
  | .check now => s.check now
  | .request now => { s.check now with deadline := (s.check now).deadline.or (some (now + width)) }
  | .reset => ⟨s.count + 1, none⟩

variable {width : ℕ} {s : State} {e : Event} {now : ℕ}

theorem check_due {d : ℕ} (hd : s.deadline = some d) (h : d ≤ now) :
    s.check now = ⟨s.count + 1, none⟩ := by
  rw [check, if_pos]
  rw [hd, Option.any_some, decide_eq_true h]

theorem check_early {d : ℕ} (hd : s.deadline = some d) (h : now < d) : s.check now = s := by
  rw [check, if_neg]
  rw [hd, Option.any_some, decide_eq_false (Nat.not_le.mpr h)]
  exact Bool.false_ne_true

theorem check_none (hd : s.deadline = none) : s.check now = s := by
  rw [check, if_neg]
  rw [hd, Option.any_none]
  exact Bool.false_ne_true

theorem step_count (width : ℕ) (s : State) (e : Event) :
    (s.step width e).count = s.count ∨ (s.step width e).count = s.count + 1 := by
  have hcheck : ∀ now, (s.check now).count = s.count ∨ (s.check now).count = s.count + 1 := by
    intro now
    rw [check]
    split_ifs
    · exact .inr rfl
    · exact .inl rfl
  cases e with
  | idle => exact .inl rfl
  | check now => exact hcheck now
  | request now => exact hcheck now
  | reset => exact .inr rfl

end State

section Run
variable {width : ℕ} {events : ℕ → Event} {count : ℕ → ℕ} {j k : ℕ}

theorem Steady.succ (h : Steady count j k) (hflat : count (k + 1) = count k) :
    Steady count j (k + 1) := by
  intro m hjm hmk
  rcases Nat.lt_succ_iff_lt_or_eq.mp hmk with hlt | rfl
  · exact h m hjm hlt
  · exact hflat

theorem Steady.of_succ (h : Steady count j (k + 1)) : Steady count j k :=
  fun m hjm hmk => h m hjm (Nat.lt_succ_of_lt hmk)

/-- The deadline is that of the first request since the counter last rose. -/
structure Kept (width : ℕ) (events : ℕ → Event) (count : ℕ → ℕ) (k : ℕ) (deadline : Option ℕ) :
    Prop where
  closed : deadline = none → ∀ j < k, ∀ t, events j = .request t → ¬ Steady count j k
  opened : ∀ d, deadline = some d → ∃ j t, j < k ∧ events j = .request t ∧ d = t + width ∧
    Steady count j k ∧ ∀ i < j, ∀ u, events i = .request u → ¬ Steady count i k

namespace Kept
variable {deadline : Option ℕ}

theorem flat (h : Kept width events count k deadline) (hflat : count (k + 1) = count k)
    (hopen : deadline = none → ∀ t, events k ≠ .request t) :
    Kept width events count (k + 1) deadline where
  closed hnone j hj t ht hsteady := by
    rcases Nat.lt_succ_iff_lt_or_eq.mp hj with hlt | rfl
    · exact h.closed hnone j hlt t ht hsteady.of_succ
    · exact hopen hnone t ht
  opened d hd := by
    obtain ⟨j, t, hj, ht, rfl, hsteady, hfirst⟩ := h.opened d hd
    exact ⟨j, t, by omega, ht, rfl, hsteady.succ hflat,
      fun i hi u hu hlong => hfirst i hi u hu hlong.of_succ⟩

theorem rise (hrise : count (k + 1) ≠ count k) (hevent : ∀ t, events k ≠ .request t) :
    Kept width events count (k + 1) none where
  closed _ j hj t ht hsteady := by
    rcases Nat.lt_succ_iff_lt_or_eq.mp hj with hlt | rfl
    · exact hrise (hsteady k hlt (Nat.lt_succ_self k))
    · exact hevent t ht
  opened _ hd := nomatch hd

theorem request {now : ℕ} (hevent : events k = .request now)
    (hnone : ∀ j < k, ∀ t, events j = .request t → ¬ Steady count j (k + 1)) :
    Kept width events count (k + 1) (some (now + width)) where
  closed hd := nomatch hd
  opened d hd := by
    cases hd
    exact ⟨k, now, Nat.lt_succ_self k, hevent, rfl, fun m hkm hmk => by omega, hnone⟩

end Kept

/-- Times do not decrease. -/
def Sorted (events : ℕ → Event) (n : ℕ) : Prop :=
  ∀ j k, j < k → k < n → ∀ s t, (events j).time = some s → (events k).time = some t → s ≤ t

theorem Kept.due_iff {deadline : Option ℕ} {n now : ℕ} (h : Kept width events count k deadline)
    (hsorted : Sorted events n) (hk : k < n) (hnow : (events k).time = some now) :
    Due width events count k ↔ ∃ d, deadline = some d ∧ d ≤ now := by
  constructor
  · rintro ⟨j, t, now', hjk, ht, hsteady, hnow', hover⟩
    cases hnow.symm.trans hnow'
    cases hd : deadline with
    | none => exact absurd hsteady (h.closed hd j hjk t ht)
    | some d =>
      obtain ⟨i, u, hik, hu, rfl, -, hfirst⟩ := h.opened d hd
      refine ⟨_, rfl, ?_⟩
      -- the window was opened by the request at `i`, which is not later than the one at `j`
      have hij : i ≤ j := by
        by_contra! hlt
        exact hfirst j hlt t ht hsteady
      rcases hij.lt_or_eq with hlt | rfl
      · have hle := hsorted i j hlt (by omega) u t (by rw [hu]; rfl) (by rw [ht]; rfl)
        omega
      · obtain rfl := Event.request.inj (hu.symm.trans ht)
        exact hover
  · rintro ⟨d, hd, hle⟩
    obtain ⟨j, t, hjk, ht, rfl, hsteady, -⟩ := h.opened d hd
    exact ⟨j, t, now, hjk, ht, hsteady, hnow, hle⟩

section States
variable {s : ℕ → State} {n : ℕ}

/-- The counter of the states. -/
def counts (s : ℕ → State) (k : ℕ) : ℕ := (s k).count

theorem State.check_cases (s : State) (now : ℕ) :
    (∃ d, s.deadline = some d ∧ d ≤ now) ∧ s.check now = ⟨s.count + 1, none⟩ ∨
      (¬ ∃ d, s.deadline = some d ∧ d ≤ now) ∧ s.check now = s := by
  cases hd : s.deadline with
  | none => exact .inr ⟨by simp, State.check_none hd⟩
  | some d =>
    rcases Nat.lt_or_ge now d with hlt | hle
    · exact .inr ⟨by simpa using hlt, State.check_early hd hlt⟩
    · exact .inl ⟨⟨d, rfl, hle⟩, State.check_due hd hle⟩

theorem kept_step (hsorted : Sorted events n) (hk : k < n)
    (hstep : s (k + 1) = (s k).step width (events k))
    (h : Kept width events (counts s) k (s k).deadline) :
    Kept width events (counts s) (k + 1) (s (k + 1)).deadline ∧
      (counts s (k + 1) ≠ counts s k ↔ events k = .reset ∨ Due width events (counts s) k) := by
  cases hevent : events k with
  | idle =>
    rw [hevent] at hstep
    have hsame : s (k + 1) = s k := hstep
    have hflat : counts s (k + 1) = counts s k := congrArg State.count hsame
    refine ⟨?_, iff_of_false (not_not.mpr hflat) ?_⟩
    · rw [hsame]
      exact h.flat hflat fun _ t ht => by rw [hevent] at ht; cases ht
    · rintro (hreset | ⟨j, t, now, -, -, -, hnow, -⟩)
      · cases hreset
      · rw [hevent] at hnow
        cases hnow
  | reset =>
    rw [hevent] at hstep
    have hrise : counts s (k + 1) ≠ counts s k := by
      rw [counts, hstep]
      exact Nat.succ_ne_self _
    refine ⟨?_, iff_of_true hrise (.inl rfl)⟩
    rw [hstep]
    exact .rise hrise fun t ht => by rw [hevent] at ht; cases ht
  | check now =>
    rw [hevent] at hstep
    have hdue := h.due_iff hsorted hk (by rw [hevent]; rfl)
    rcases (s k).check_cases now with ⟨hover, hcheck⟩ | ⟨hearly, hcheck⟩
    · have hrise : counts s (k + 1) ≠ counts s k := by
        rw [counts, hstep, State.step, hcheck]
        exact Nat.succ_ne_self _
      refine ⟨?_, iff_of_true hrise (.inr (hdue.mpr hover))⟩
      rw [hstep, State.step, hcheck]
      exact .rise hrise fun t ht => by rw [hevent] at ht; cases ht
    · have hsame : s (k + 1) = s k := hstep.trans hcheck
      have hflat : counts s (k + 1) = counts s k := congrArg State.count hsame
      refine ⟨?_, iff_of_false (not_not.mpr hflat) ?_⟩
      · rw [hsame]
        exact h.flat hflat fun _ t ht => by rw [hevent] at ht; cases ht
      · rintro (hreset | hlate)
        · cases hreset
        · exact hearly (hdue.mp hlate)
  | request now =>
    rw [hevent] at hstep
    have hdue := h.due_iff hsorted hk (by rw [hevent]; rfl)
    rcases (s k).check_cases now with ⟨hover, hcheck⟩ | ⟨hearly, hcheck⟩
    · have hrise : counts s (k + 1) ≠ counts s k := by
        rw [counts, hstep, State.step, hcheck]
        exact Nat.succ_ne_self _
      refine ⟨?_, iff_of_true hrise (.inr (hdue.mpr hover))⟩
      rw [hstep, State.step, hcheck]
      exact .request hevent fun j hj t _ hsteady => hrise (hsteady k hj (Nat.lt_succ_self k))
    · have hflat : counts s (k + 1) = counts s k := by
        rw [counts, hstep, State.step, hcheck]
        rfl
      refine ⟨?_, iff_of_false (not_not.mpr hflat) ?_⟩
      · rw [hstep, State.step, hcheck]
        cases hd : (s k).deadline with
        | none =>
          refine .request hevent fun j hj t ht hsteady => ?_
          exact h.closed hd j hj t ht hsteady.of_succ
        | some d =>
          rw [hd] at h
          exact h.flat hflat fun hnone => nomatch hnone
      · rintro (hreset | hlate)
        · cases hreset
        · exact hearly (hdue.mp hlate)

theorem batched_of_states (hstart : (s 0).deadline = none)
    (hstep : ∀ k < n, s (k + 1) = (s k).step width (events k)) (hsorted : Sorted events n) :
    Batched width events (counts s) n := by
  have hkept : ∀ k ≤ n, Kept width events (counts s) k (s k).deadline := by
    intro k hk
    induction k with
    | zero =>
      exact ⟨fun _ j hj => absurd hj (Nat.not_lt_zero j), fun d hd => nomatch hstart.symm.trans hd⟩
    | succ k ih => exact (kept_step hsorted hk (hstep k hk) (ih (Nat.le_of_succ_le hk))).1
  refine batched_of_rises_iff (fun k hk => ?_) fun k hk => ?_
  · rw [counts, hstep k hk]
    exact State.step_count width (s k) (events k)
  · exact (kept_step hsorted hk (hstep k hk) (hkept k hk.le)).2

end States

end Run

end BatchWindow
