import Mathlib

/-!
# The proleptic Gregorian calendar

Dates are counted by the lengths of the years and months before them. A `Date` has a month and a day
that exist. Later dates and times have larger numbers, so a number determines its date.
-/

namespace Calendar

def IsLeap (y : ℕ) : Prop := 4 ∣ y ∧ (¬ 100 ∣ y ∨ 400 ∣ y)

instance (y : ℕ) : Decidable (IsLeap y) := inferInstanceAs (Decidable (_ ∧ _))

def monthLength (y m : ℕ) : ℕ :=
  if m = 2 then if IsLeap y then 29 else 28
  else if m = 4 ∨ m = 6 ∨ m = 9 ∨ m = 11 then 30
  else 31

def yearLength (y : ℕ) : ℕ := if IsLeap y then 366 else 365

def daysBeforeYear (y : ℕ) : ℕ := ∑ i ∈ Finset.range y, yearLength i

def daysBeforeMonth (y m : ℕ) : ℕ := ∑ i ∈ Finset.Ico 1 m, monthLength y i

structure Date where
  year : ℕ
  month : ℕ
  day : ℕ
  month_pos : 1 ≤ month
  month_le : month ≤ 12
  day_pos : 1 ≤ day
  day_le : day ≤ monthLength year month

structure DateTime extends Date where
  hour : ℕ
  minute : ℕ
  second : ℕ
  hour_lt : hour < 24
  minute_lt : minute < 60
  second_lt : second < 60

def Date.number (d : Date) : ℕ :=
  daysBeforeYear d.year + daysBeforeMonth d.year d.month + (d.day - 1)

def DateTime.seconds (t : DateTime) : ℕ :=
  t.number * 86400 + t.hour * 3600 + t.minute * 60 + t.second

/-- What is compared, the first difference first. -/
def DateTime.fields (t : DateTime) : List ℕ :=
  [t.year, t.month, t.day, t.hour, t.minute, t.second]

theorem daysBeforeYear_succ (y : ℕ) : daysBeforeYear (y + 1) = daysBeforeYear y + yearLength y :=
  Finset.sum_range_succ _ _

theorem daysBeforeMonth_succ (y : ℕ) {m : ℕ} (hm : 1 ≤ m) :
    daysBeforeMonth y (m + 1) = daysBeforeMonth y m + monthLength y m :=
  Finset.sum_Ico_succ_top hm _

theorem daysBeforeYear_mono : Monotone daysBeforeYear :=
  monotone_nat_of_le_succ fun y => by rw [daysBeforeYear_succ]; omega

theorem daysBeforeMonth_mono (y : ℕ) {m n : ℕ} (h : m ≤ n) :
    daysBeforeMonth y m ≤ daysBeforeMonth y n :=
  Finset.sum_le_sum_of_subset (Finset.Ico_subset_Ico_right h)

theorem daysBeforeYear_eq (y : ℕ) :
    daysBeforeYear y + (y + 99) / 100 = 365 * y + (y + 3) / 4 + (y + 399) / 400 := by
  induction y with
  | zero => rfl
  | succ y ih =>
    rw [daysBeforeYear_succ, yearLength]
    split_ifs with hleap
    · obtain ⟨hfour, hcentury⟩ := hleap
      omega
    · rw [IsLeap] at hleap
      omega

theorem monthLength_march (y : ℕ) {k : ℕ} (hk : k < 10) :
    (153 * k + 2) / 5 + monthLength y (k + 3) = (153 * (k + 1) + 2) / 5 := by
  rw [monthLength, if_neg (by omega)]
  interval_cases k <;> rfl

theorem daysBeforeMonth_eq (y : ℕ) :
    daysBeforeMonth y 1 = 0 ∧ daysBeforeMonth y 2 = 31 ∧
      ∀ k ≤ 10, daysBeforeMonth y (k + 3) = 31 + monthLength y 2 + (153 * k + 2) / 5 := by
  refine ⟨rfl, rfl, fun k hk => ?_⟩
  have hstart : daysBeforeMonth y 3 = 31 + monthLength y 2 := rfl
  induction k with
  | zero => exact hstart
  | succ k ih =>
    rw [Nat.add_right_comm, daysBeforeMonth_succ y (by omega), ih (by omega), Nat.add_assoc,
      monthLength_march y (by omega)]

theorem daysBeforeMonth_thirteen (y : ℕ) : daysBeforeMonth y 13 = yearLength y := by
  rw [(daysBeforeMonth_eq y).2.2 10 le_rfl, monthLength, if_pos rfl, yearLength]
  split_ifs <;> rfl

section Eras

theorem isLeap_add_era (y era : ℕ) : IsLeap (y + era * 400) ↔ IsLeap y := by
  rw [IsLeap, IsLeap]
  omega

theorem daysBeforeYear_era {y : ℕ} (hy : y < 400) (era : ℕ) :
    daysBeforeYear (y + era * 400 + 1) + y / 100 = 146097 * era + 365 * y + y / 4 + 366 := by
  have hcount := daysBeforeYear_eq (y + era * 400 + 1)
  omega

theorem daysBeforeYear_march {y : ℕ} (hy : y < 400) (era : ℕ) :
    daysBeforeYear (y + era * 400) + monthLength (y + era * 400) 2 + y / 100 =
      146097 * era + 365 * y + y / 4 + 29 := by
  have hnext := daysBeforeYear_era hy era
  rw [daysBeforeYear_succ, yearLength] at hnext
  rw [monthLength, if_pos rfl]
  split_ifs at hnext ⊢ <;> omega

end Eras

section Order
variable {s t : DateTime}

theorem Date.number_lt_month (d : Date) :
    d.number < daysBeforeYear d.year + daysBeforeMonth d.year (d.month + 1) := by
  have hpos := d.day_pos
  have hle := d.day_le
  rw [Date.number, daysBeforeMonth_succ _ d.month_pos]
  omega

theorem Date.number_lt_year (d : Date) : d.number < daysBeforeYear (d.year + 1) := by
  have hmonth := d.month_le
  have hend := daysBeforeMonth_mono d.year (by omega : d.month + 1 ≤ 13)
  rw [daysBeforeMonth_thirteen] at hend
  have hlt := d.number_lt_month
  rw [daysBeforeYear_succ]
  omega

theorem number_lt_of_year_lt {d e : Date} (h : d.year < e.year) : d.number < e.number := by
  have hlt := d.number_lt_year
  have hmono := daysBeforeYear_mono (Nat.succ_le_of_lt h)
  rw [Nat.succ_eq_add_one] at hmono
  rw [Date.number.eq_def e]
  omega

theorem number_lt_of_month_lt {d e : Date} (hyear : d.year = e.year) (h : d.month < e.month) :
    d.number < e.number := by
  have hlt := d.number_lt_month
  have hmono := daysBeforeMonth_mono d.year (Nat.succ_le_of_lt h)
  rw [Nat.succ_eq_add_one] at hmono
  rw [Date.number.eq_def e, ← hyear]
  omega

theorem number_lt_of_day_lt {d e : Date} (hyear : d.year = e.year) (hmonth : d.month = e.month)
    (h : d.day < e.day) : d.number < e.number := by
  have hpos := d.day_pos
  rw [Date.number, Date.number, hyear, hmonth]
  omega

theorem seconds_lt_of_number_lt (h : s.number < t.number) : s.seconds < t.seconds := by
  have hhour := s.hour_lt
  have hminute := s.minute_lt
  have hsecond := s.second_lt
  rw [DateTime.seconds, DateTime.seconds]
  omega

theorem seconds_lt_of_fields_lt (h : s.fields < t.fields) : s.seconds < t.seconds := by
  have hminute := s.minute_lt
  have hsecond := s.second_lt
  simp only [DateTime.fields, List.cons_lt_cons_iff, List.not_lt_nil, and_false, or_false] at h
  rcases h with hyear | ⟨hyear, hmonth | ⟨hmonth, hday | ⟨hday, htime⟩⟩⟩
  · exact seconds_lt_of_number_lt (number_lt_of_year_lt hyear)
  · exact seconds_lt_of_number_lt (number_lt_of_month_lt hyear hmonth)
  · exact seconds_lt_of_number_lt (number_lt_of_day_lt hyear hmonth hday)
  · have hdate : s.number = t.number := by rw [Date.number, Date.number, hyear, hmonth, hday]
    rw [DateTime.seconds, DateTime.seconds, hdate]
    omega

theorem seconds_eq_of_fields_eq (h : s.fields = t.fields) : s.seconds = t.seconds := by
  simp only [DateTime.fields, List.cons.injEq, and_true] at h
  obtain ⟨hyear, hmonth, hday, hhour, hminute, hsecond⟩ := h
  rw [DateTime.seconds, DateTime.seconds, Date.number, Date.number, hyear, hmonth, hday, hhour,
    hminute, hsecond]

/-- The order of dates and times is the order of instants. -/
theorem fields_lt_iff : s.fields < t.fields ↔ s.seconds < t.seconds := by
  refine ⟨seconds_lt_of_fields_lt, fun h => ?_⟩
  rcases lt_trichotomy s.fields t.fields with hlt | heq | hgt
  · exact hlt
  · exact absurd (seconds_eq_of_fields_eq heq) h.ne
  · exact absurd (seconds_lt_of_fields_lt hgt) h.asymm

theorem fields_eq_iff : s.fields = t.fields ↔ s.seconds = t.seconds := by
  refine ⟨seconds_eq_of_fields_eq, fun h => ?_⟩
  rcases lt_trichotomy s.fields t.fields with hlt | heq | hgt
  · exact absurd h (seconds_lt_of_fields_lt hlt).ne
  · exact heq
  · exact absurd h (seconds_lt_of_fields_lt hgt).ne'

end Order

end Calendar
