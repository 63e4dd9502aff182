import Rill.Calendar
import Rill.PrefixText
import Rill.TsFrames

/-!
# Timestamps of the netmap

`rfc3339` counts the date of an instant from the first of March of the year 0, in eras of 400 years.
The date and the time are those of the Gregorian calendar, and while the year has four digits the
text is their form of fixed width.
-/

namespace Rill
namespace Ts2021
open Calendar

/-- The decimal digits of a number, in a field of `w` characters. -/
def digits : ℕ → ℕ → Text
  | 0, _ => []
  | w + 1, n => digits w (n / 10) ++ [UInt8.ofNat (48 + n % 10)]

/-- The form of RFC 3339, in UTC and to the second. -/
def timestamp (t : DateTime) : Text :=
  digits 4 t.year ++ ascii "-" ++ digits 2 t.month ++ ascii "-" ++ digits 2 t.day ++ ascii "T" ++
    digits 2 t.hour ++ ascii ":" ++ digits 2 t.minute ++ ascii ":" ++ digits 2 t.second ++ ascii "Z"

section Digits

theorem digits_zero (w : ℕ) : digits w 0 = .replicate w 48 := by
  induction w with
  | zero => rfl
  | succ w ih => rw [digits, Nat.zero_div, ih, List.replicate_succ']; rfl

theorem padded_eq_digits (w : ℕ) {n : ℕ} (h : n < 10 ^ (w + 1)) :
    padded (w + 1) n = digits (w + 1) n := by
  induction w generalizing n with
  | zero =>
    rw [padded, Text.ofNat_eq, if_pos (by simpa using h)]
    rfl
  | succ w ih =>
    rw [padded, Text.ofNat_eq, digits]
    split_ifs with hn
    · rw [Nat.div_eq_of_lt hn, digits_zero]
      rfl
    · rw [← ih (by rw [pow_succ] at h; omega), padded, List.length_append, List.length_singleton,
        Nat.add_sub_add_right, List.append_assoc]

end Digits

section Civil

/-- The year of an era and the day of that year, from March on. -/
def yearOfEra (doe : ℕ) : ℕ := (doe - doe / 1460 + doe / 36524 - doe / 146096) / 365

def dayOfYear (doe : ℕ) : ℕ :=
  doe - (365 * yearOfEra doe + yearOfEra doe / 4 - yearOfEra doe / 100)

/-- A day of an era has a century, a cycle of four years, a year of that and a day of that. Only
the last year of a cycle has 366 days, and in the last cycle of a century only that of the last
century. -/
theorem exists_era_split {doe : ℕ} (h : doe < 146097) :
    ∃ c q a d, c ≤ 3 ∧ q ≤ 24 ∧ a ≤ 3 ∧ d ≤ 365 ∧ doe = 36524 * c + 1461 * q + 365 * a + d ∧
      (d = 365 → a = 3 ∧ (q = 24 → c = 3)) := by
  obtain ⟨c, hc⟩ : ∃ c, c = min (doe / 36524) 3 := ⟨_, rfl⟩
  obtain ⟨r, hr⟩ : ∃ r, r = doe - 36524 * c := ⟨_, rfl⟩
  obtain ⟨a, ha⟩ : ∃ a, a = min (r % 1461 / 365) 3 := ⟨_, rfl⟩
  exact ⟨c, r / 1461, a, r % 1461 - 365 * a, by omega, by omega, by omega, by omega, by omega,
    by omega⟩

theorem yearOfEra_split {c q a d : ℕ} (hc : c ≤ 3) (hq : q ≤ 24) (ha : a ≤ 3) (hd : d ≤ 365)
    (hlast : d = 365 → a = 3 ∧ (q = 24 → c = 3)) :
    yearOfEra (36524 * c + 1461 * q + 365 * a + d) = 100 * c + 4 * q + a := by
  have hcycles : (36524 * c + 1461 * q + 365 * a + d) / 1460 =
      25 * c + q + (24 * c + q + 365 * a + d) / 1460 := by
    rw [← Nat.mul_add_div (by decide : 0 < 1460)]
    congr 1
    omega
  have hcenturies : (36524 * c + 1461 * q + 365 * a + d) / 36524 =
      c + (36524 * c + 1461 * q + 365 * a + d) / 146096 := by
    rcases Nat.lt_or_ge (1461 * q + 365 * a + d) 36524 with hlt | hge
    · omega
    · have hend : q = 24 ∧ a = 3 ∧ d = 365 := by omega
      obtain ⟨rfl, rfl, rfl⟩ := hend
      obtain rfl : c = 3 := (hlast rfl).2 rfl
      rfl
  -- a day is carried over on the last day of a cycle, and none on the first day of a year
  have hcarry : (24 * c + q + 365 * a + d) / 1460 ≤ d := by
    rcases Nat.eq_zero_or_pos d with rfl | hpos
    · rw [Nat.div_eq_of_lt (by omega)]
    · have hone := Nat.div_lt_of_lt_mul (by omega : 24 * c + q + 365 * a + d < 1460 * 2)
      exact (Nat.le_of_lt_succ hone).trans hpos
  have hfull : d < 365 + (24 * c + q + 365 * a + d) / 1460 := by
    rcases Nat.lt_or_ge d 365 with hlt | hge
    · omega
    · obtain rfl : d = 365 := by omega
      obtain rfl : a = 3 := (hlast rfl).1
      omega
  rw [yearOfEra, hcycles, hcenturies]
  clear hlast hcycles hcenturies
  generalize (24 * c + q + 365 * a + d) / 1460 = e at hcarry hfull
  generalize (36524 * c + 1461 * q + 365 * a + d) / 146096 = f
  have hsum : 36524 * c + 1461 * q + 365 * a + d - (25 * c + q + e) + (c + f) - f =
      365 * (100 * c + 4 * q + a) + (d - e) := by omega
  rw [hsum, Nat.mul_add_div (by decide), Nat.div_eq_of_lt (by omega), Nat.add_zero]

theorem exists_yearOfEra {doe : ℕ} (h : doe < 146097) :
    yearOfEra doe < 400 ∧ dayOfYear doe ≤ 365 ∧
      doe + yearOfEra doe / 100 = 365 * yearOfEra doe + yearOfEra doe / 4 + dayOfYear doe ∧
      (dayOfYear doe = 365 → IsLeap (yearOfEra doe + 1)) := by
  obtain ⟨c, q, a, d, hc, hq, ha, hd, rfl, hlast⟩ := exists_era_split h
  have hfour : (100 * c + 4 * q + a) / 4 = 25 * c + q := by omega
  have hcentury : (100 * c + 4 * q + a) / 100 = c := by omega
  have hday : dayOfYear (36524 * c + 1461 * q + 365 * a + d) = d := by
    rw [dayOfYear, yearOfEra_split hc hq ha hd hlast, hfour, hcentury]
    omega
  rw [hday, yearOfEra_split hc hq ha hd hlast, hfour, hcentury]
  refine ⟨by omega, hd, by omega, fun hend => ?_⟩
  obtain ⟨rfl, hcycle⟩ := hlast hend
  refine ⟨by omega, ?_⟩
  omega

/-- The month of a day of the year, counted from March, and the day of that month. -/
def monthOfYear (doy : ℕ) : ℕ := (5 * doy + 2) / 153

theorem exists_monthOfYear {doy : ℕ} (h : doy ≤ 365) :
    monthOfYear doy ≤ 11 ∧ (153 * monthOfYear doy + 2) / 5 ≤ doy ∧
      doy < (153 * (monthOfYear doy + 1) + 2) / 5 := by
  rw [monthOfYear]
  omega

/-- The month of the day `z`, counted from the first of March of the year 0. -/
def civilMonth (z : ℕ) : ℕ :=
  let mp := monthOfYear (dayOfYear (z % 146097))
  if mp < 10 then mp + 3 else mp - 9

def civilDay (z : ℕ) : ℕ :=
  let doy := dayOfYear (z % 146097)
  doy - (153 * monthOfYear doy + 2) / 5 + 1

def civilYear (z : ℕ) : ℕ :=
  let y := yearOfEra (z % 146097) + z / 146097 * 400
  if civilMonth z ≤ 2 then y + 1 else y

/-- The first of March is the sixtieth day after the first of January. -/
structure IsDate (z year month day : ℕ) : Prop where
  month_pos : 1 ≤ month
  month_le : month ≤ 12
  day_pos : 1 ≤ day
  day_le : day ≤ monthLength year month
  number : daysBeforeYear year + daysBeforeMonth year month + (day - 1) = z + 60

theorem isDate_civil (z : ℕ) : IsDate z (civilYear z) (civilMonth z) (civilDay z) := by
  obtain ⟨hyoe, hdoy, hdoe, hleap⟩ := exists_yearOfEra (Nat.mod_lt z (by decide : 0 < 146097))
  obtain ⟨hmp, hfrom, huntil⟩ := exists_monthOfYear hdoy
  have hz : z = 146097 * (z / 146097) + z % 146097 := (Nat.div_add_mod z 146097).symm
  rw [civilYear, civilDay, civilMonth]
  generalize z / 146097 = era at hz ⊢
  generalize z % 146097 = doe at hz hyoe hdoy hdoe hleap hmp hfrom huntil ⊢
  generalize dayOfYear doe = doy at *
  generalize monthOfYear doy = mp at *
  generalize yearOfEra doe = yoe at *
  have hyear := daysBeforeYear_era hyoe era
  have hmarch := daysBeforeYear_march hyoe era
  rcases Nat.lt_or_ge mp 10 with hlt | hge
  · -- from March to December
    have hlength := monthLength_march (yoe + era * 400) hlt
    have hbefore := (daysBeforeMonth_eq (yoe + era * 400)).2.2 mp (by omega)
    rw [if_pos hlt, if_neg (by omega)]
    exact ⟨by omega, by omega, by omega, by omega, by omega⟩
  · rw [if_neg (Nat.not_lt.mpr hge), if_pos (by omega)]
    obtain ⟨hjanuary, hfebruary, -⟩ := daysBeforeMonth_eq (yoe + era * 400 + 1)
    have hcase : mp = 10 ∨ mp = 11 := by omega
    rcases hcase with rfl | rfl
    · have hlength : monthLength (yoe + era * 400 + 1) 1 = 31 := rfl
      rw [Nat.add_sub_cancel_left 9 1]
      exact ⟨by omega, by omega, by omega, by omega, by omega⟩
    · rw [Nat.add_sub_cancel_left 9 2]
      refine ⟨by omega, by omega, by omega, ?_, by omega⟩
      rw [monthLength, if_pos rfl]
      split_ifs with h
      · omega
      · have hne : doy ≠ 365 := by
          intro hend
          refine h ?_
          rw [Nat.add_right_comm, isLeap_add_era]
          exact hleap hend
        omega

end Civil

/-- The date and the time that are written. -/
def dateTime (unix : UInt64) : DateTime where
  year := civilYear (unix.toNat / 86400 + 719468)
  month := civilMonth (unix.toNat / 86400 + 719468)
  day := civilDay (unix.toNat / 86400 + 719468)
  month_pos := (isDate_civil _).month_pos
  month_le := (isDate_civil _).month_le
  day_pos := (isDate_civil _).day_pos
  day_le := (isDate_civil _).day_le
  hour := unix.toNat % 86400 / 3600
  minute := unix.toNat % 86400 / 60 % 60
  second := unix.toNat % 86400 % 60
  hour_lt := by omega
  minute_lt := by omega
  second_lt := by omega

def epoch : DateTime where
  year := 1970
  month := 1
  day := 1
  month_pos := by decide
  month_le := by decide
  day_pos := by decide
  day_le := by decide
  hour := 0
  minute := 0
  second := 0
  hour_lt := by decide
  minute_lt := by decide
  second_lt := by decide

theorem number_epoch : epoch.number = 719528 := by
  have hyear := daysBeforeYear_eq 1970
  have hmonth := (daysBeforeMonth_eq 1970).1
  simp only [Date.number, epoch]
  omega

theorem seconds_epoch : epoch.seconds = epoch.number * 86400 := by simp [DateTime.seconds, epoch]

theorem number_dateTime (unix : UInt64) :
    (dateTime unix).number = epoch.number + unix.toNat / 86400 := by
  rw [number_epoch]
  exact (isDate_civil (unix.toNat / 86400 + 719468)).number.trans (by omega)

theorem seconds_dateTime (unix : UInt64) :
    (dateTime unix).seconds = epoch.seconds + unix.toNat := by
  have htime : (dateTime unix).hour * 3600 + (dateTime unix).minute * 60 + (dateTime unix).second =
      unix.toNat % 86400 := by
    change unix.toNat % 86400 / 3600 * 3600 + unix.toNat % 86400 / 60 % 60 * 60 +
      unix.toNat % 86400 % 60 = _
    omega
  rw [DateTime.seconds, Nat.add_assoc, Nat.add_assoc, ← Nat.add_assoc (_ * 3600), htime,
    number_dateTime, seconds_epoch, Nat.add_mul, Nat.add_assoc, Nat.div_add_mod']

theorem rfc3339_eq_timestamp {unix : UInt64} (h : (dateTime unix).year ≤ 9999) :
    rfc3339 unix = timestamp (dateTime unix) := by
  have hmonth := (dateTime unix).month_le
  have hday : (dateTime unix).day < 100 := by
    have hle := (dateTime unix).day_le
    rw [monthLength] at hle
    split_ifs at hle <;> omega
  have hhour := (dateTime unix).hour_lt
  have hminute := (dateTime unix).minute_lt
  have hsecond := (dateTime unix).second_lt
  rw [timestamp, ← padded_eq_digits 3 (by omega), ← padded_eq_digits 1 (by omega),
    ← padded_eq_digits 1 (by omega), ← padded_eq_digits 1 (by omega),
    ← padded_eq_digits 1 (by omega), ← padded_eq_digits 1 (by omega)]
  rfl

/-- The text is the date and time of the instant in the Gregorian calendar. -/
theorem rfc3339_gregorian {unix : UInt64} (h : (dateTime unix).year ≤ 9999) :
    rfc3339 unix = timestamp (dateTime unix) ∧
      (dateTime unix).number = epoch.number + unix.toNat / 86400 ∧
      (dateTime unix).seconds = epoch.seconds + unix.toNat ∧
      (∀ t : DateTime, t.seconds = epoch.seconds + unix.toNat → t.fields = (dateTime unix).fields) ∧
      ∀ later, unix < later → (dateTime unix).fields < (dateTime later).fields := by
  refine ⟨rfc3339_eq_timestamp h, number_dateTime unix, seconds_dateTime unix, fun t ht => ?_,
    fun later hlater => ?_⟩
  · exact fields_eq_iff.mpr (ht.trans (seconds_dateTime unix).symm)
  · rw [fields_lt_iff, seconds_dateTime, seconds_dateTime]
    exact Nat.add_lt_add_left (UInt64.lt_iff_toNat_lt.mp hlater) _

/-- The leap day of the year 2000. -/
theorem rfc3339_leapDay : (dateTime 951782400).fields = [2000, 2, 29, 0, 0, 0] ∧
    rfc3339 951782400 = timestamp (dateTime 951782400) := by
  have hfields : (dateTime 951782400).fields = [2000, 2, 29, 0, 0, 0] := by decide
  have hyear : (dateTime 951782400).year ≤ 9999 := by decide
  exact ⟨hfields, (rfc3339_gregorian hyear).1⟩

end Ts2021

end Rill
