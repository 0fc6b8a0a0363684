import Mathlib.Data.Int.Order.Basic
import Mathlib.Data.Nat.Find
import Mathlib.Order.Monotone.Basic
import Mathlib.Tactic.IntervalCases

/-!
# The proleptic Gregorian calendar

The fields of a second of a clock without leap seconds, counted from the start of 1970.

* `lt_or_eq_of_lt`: units and what is left of them are in the order of time.
* `dayFromYear_yearFromDay`, `daysBefore_monthOf`: the unit a day lies in.
* `fields_lt_of_lt`: the year, month and date of a later day are later.
-/

namespace Common

namespace Calendar

/-- A later moment lies in a later unit, or later in the same one. -/
theorem lt_or_eq_of_lt {ι : Type*} [LinearOrder ι] (start : ι → ℤ) {u v : ι} {a b : ℤ}
    (ha : start u ≤ a) (hb : v < u → b < start u) (hab : a < b) :
    u < v ∨ u = v ∧ a - start u < b - start v := by
  have hle : u ≤ v := not_lt.mp fun h => absurd (hb h) (by omega)
  rcases hle.lt_or_eq with hlt | rfl
  · exact .inl hlt
  · exact .inr ⟨rfl, by omega⟩

/-! ## Years -/

def isLeapYear (y : ℤ) : Bool := y % 4 = 0 ∧ (y % 100 ≠ 0 ∨ y % 400 = 0)

/-- The first day of the year. -/
def dayFromYear (y : ℤ) : ℤ :=
  365 * (y - 1970) + (y - 1969) / 4 - (y - 1901) / 100 + (y - 1601) / 400

/-- The year of a day: the quotient by the mean length is at most one off. -/
def yearFromDay (day : ℤ) : ℤ :=
  let y := day * 400 / 146097 + 1970
  if dayFromYear (y + 1) ≤ day then y + 1 else if dayFromYear y ≤ day then y else y - 1

theorem dayFromYear_succ (y : ℤ) :
    dayFromYear (y + 1) = dayFromYear y + if isLeapYear y then 366 else 365 := by
  unfold dayFromYear isLeapYear
  simp only [decide_eq_true_eq]
  split <;> omega

theorem dayFromYear_mono {a b : ℤ} (h : a ≤ b) : dayFromYear a ≤ dayFromYear b := by
  have hmono : Monotone dayFromYear := by
    refine monotone_int_of_le_succ fun y => ?_
    rw [dayFromYear_succ]
    split <;> omega
  exact hmono h

/-- A day lies in its year. -/
theorem dayFromYear_yearFromDay (day : ℤ) :
    dayFromYear (yearFromDay day) ≤ day ∧ day < dayFromYear (yearFromDay day + 1) := by
  have hbefore : dayFromYear (day * 400 / 146097 + 1970 - 1) ≤ day := by
    unfold dayFromYear
    omega
  have hafter : day < dayFromYear (day * 400 / 146097 + 1970 + 1 + 1) := by
    unfold dayFromYear
    omega
  unfold yearFromDay
  simp only
  split
  · exact ⟨by assumption, hafter⟩
  · split
    · exact ⟨by assumption, by omega⟩
    · exact ⟨hbefore, by rw [sub_add_cancel]; omega⟩

/-- A later day lies in a later year, or is a later day of the same one. -/
theorem yearFromDay_lt {a b : ℤ} (hab : a < b) : yearFromDay a < yearFromDay b ∨
    yearFromDay a = yearFromDay b ∧
      a - dayFromYear (yearFromDay a) < b - dayFromYear (yearFromDay b) := by
  refine lt_or_eq_of_lt dayFromYear (dayFromYear_yearFromDay a).1 (fun h => ?_) hab
  exact (dayFromYear_yearFromDay b).2.trans_le (dayFromYear_mono h)

/-! ## Months -/

/-- The days of a year before its month, counted from 0. -/
def daysBefore (leap : Bool) (month : ℕ) : ℤ :=
  [0, 31, 59, 90, 120, 151, 181, 212, 243, 273, 304, 334, 365].getD month 0 +
    if leap ∧ 2 ≤ month then 1 else 0

/-- The month of a day of the year. -/
def monthOf (leap : Bool) (day : ℤ) : ℕ := Nat.findGreatest (fun m => daysBefore leap m ≤ day) 11

theorem monthOf_le (leap : Bool) (day : ℤ) : monthOf leap day ≤ 11 := Nat.findGreatest_le 11

/-- No month has more than 31 days. -/
theorem daysBefore_succ_le (leap : Bool) {m : ℕ} (h : m ≤ 11) :
    daysBefore leap (m + 1) ≤ daysBefore leap m + 31 := by
  interval_cases m <;> cases leap <;> decide

theorem lt_daysBefore_of_monthOf_lt {leap : Bool} {day : ℤ} {m : ℕ} (h : monthOf leap day < m)
    (hm : m ≤ 11) : day < daysBefore leap m :=
  not_le.mp (Nat.findGreatest_is_greatest h hm)

/-- A day of the year lies in its month. -/
theorem daysBefore_monthOf (leap : Bool) {day : ℤ} (h0 : 0 ≤ day) (h : day < daysBefore leap 12) :
    daysBefore leap (monthOf leap day) ≤ day ∧ day < daysBefore leap (monthOf leap day + 1) := by
  have hzero : daysBefore leap 0 = 0 := by cases leap <;> rfl
  refine ⟨?_, ?_⟩
  · exact Nat.findGreatest_spec (P := fun m => daysBefore leap m ≤ day) (Nat.zero_le 11)
      (hzero ▸ h0)
  · rcases (monthOf_le leap day).lt_or_eq with hlt | heq
    · exact lt_daysBefore_of_monthOf_lt (Nat.lt_succ_self _) hlt
    · rwa [heq]

/-! ## The fields of a second -/

/-- What a calendar and a clock of 24 hours show. Months count from 1. -/
structure Fields where
  year : ℤ
  month : ℕ
  date : ℕ
  hour : ℕ
  minute : ℕ
  second : ℕ
  deriving DecidableEq

/-- The day of the year, from 0. -/
def dayWithinYear (day : ℤ) : ℤ := day - dayFromYear (yearFromDay day)

/-- The month of a day, from 0. -/
def monthFromDay (day : ℤ) : ℕ := monthOf (isLeapYear (yearFromDay day)) (dayWithinYear day)

/-- The day of the month, from 0. -/
def dayWithinMonth (day : ℤ) : ℤ :=
  dayWithinYear day - daysBefore (isLeapYear (yearFromDay day)) (monthFromDay day)

/-- The fields of a second. -/
def ofSecond (s : ℤ) : Fields where
  year := yearFromDay (s / 86400)
  month := monthFromDay (s / 86400) + 1
  date := (dayWithinMonth (s / 86400)).toNat + 1
  hour := (s % 86400 / 3600).toNat
  minute := (s % 3600 / 60).toNat
  second := (s % 60).toNat

theorem dayWithinYear_nonneg (day : ℤ) : 0 ≤ dayWithinYear day :=
  sub_nonneg.mpr (dayFromYear_yearFromDay day).1

theorem dayWithinYear_lt (day : ℤ) :
    dayWithinYear day < daysBefore (isLeapYear (yearFromDay day)) 12 := by
  have hlt := (dayFromYear_yearFromDay day).2
  rw [dayFromYear_succ] at hlt
  have hlength : ∀ leap : Bool, daysBefore leap 12 = if leap then 366 else 365 := by decide
  rw [hlength]
  unfold dayWithinYear
  omega

/-- The months have between 1 and 31 days. -/
theorem dayWithinMonth_bounds (day : ℤ) : 0 ≤ dayWithinMonth day ∧ dayWithinMonth day < 31 := by
  obtain ⟨hle, hlt⟩ := daysBefore_monthOf (isLeapYear (yearFromDay day)) (dayWithinYear_nonneg day)
    (dayWithinYear_lt day)
  have h31 := daysBefore_succ_le (isLeapYear (yearFromDay day))
    (monthOf_le (isLeapYear (yearFromDay day)) (dayWithinYear day))
  unfold dayWithinMonth monthFromDay
  omega

/-- The fields of a later day are later. -/
theorem fields_lt_of_lt {a b : ℤ} (hab : a < b) : yearFromDay a < yearFromDay b ∨
    yearFromDay a = yearFromDay b ∧ (monthFromDay a < monthFromDay b ∨
      monthFromDay a = monthFromDay b ∧ dayWithinMonth a < dayWithinMonth b) := by
  refine (yearFromDay_lt hab).imp_right fun ⟨hyear, hday⟩ => ⟨hyear, ?_⟩
  have hmonth := lt_or_eq_of_lt (daysBefore (isLeapYear (yearFromDay a)))
    (daysBefore_monthOf _ (dayWithinYear_nonneg a) (dayWithinYear_lt a)).1
    (fun h => lt_daysBefore_of_monthOf_lt h (monthOf_le _ _)) hday
  unfold dayWithinMonth monthFromDay
  rw [← hyear]
  exact hmonth

end Calendar

end Common
