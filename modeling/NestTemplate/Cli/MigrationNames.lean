import NestTemplate.Common.Calendar
import NestTemplate.Common.Digits

/-!
# `cli-commands/commands/make-migration/make-migration.service.ts`

The name of a migration starts with the time of its creation, and the migrations
run in the order of their names. The hour is the one of a 12-hour clock, and the
part that says which half of the day it is is dropped.

* `migrationPrefix_eq`: the parts of the prefix.
* `clockNumber_lt_iff`, `year_lt_or_monthDate_lt`: the order of the times and of the dates.
* `migrationPrefix_lt_iff`: which two instants have their prefixes in order.
-/

namespace NestTemplate

open Common Calendar Digits

/-- The types of the parts of a formatted date. -/
inductive PartType where
  | year
  | month
  | day
  | hour
  | minute
  | second
  | dayPeriod
  | literal

structure FormatPart where
  type : PartType
  value : List Char

/-- The hour of a 12-hour clock. -/
def hour12 (hour : ℕ) : ℕ := if hour % 12 = 0 then 12 else hour % 12

/-- The year as it is shown without its era: the year 0 is 1 BC. -/
def shownYear (year : ℤ) : ℕ := (if year ≤ 0 then 1 - year else year).toNat

/-- `formatToParts` of the `Intl.DateTimeFormat` for `'en'` with a numeric year and two digits for
    the other fields. -/
def formatToParts (fields : Fields) : List FormatPart :=
  [⟨.month, twoDigits fields.month⟩, ⟨.literal, "/".toList⟩,
    ⟨.day, twoDigits fields.date⟩, ⟨.literal, "/".toList⟩,
    ⟨.year, Nat.toDigits 10 (shownYear fields.year)⟩, ⟨.literal, ", ".toList⟩,
    ⟨.hour, twoDigits (hour12 fields.hour)⟩, ⟨.literal, ":".toList⟩,
    ⟨.minute, twoDigits fields.minute⟩, ⟨.literal, ":".toList⟩,
    ⟨.second, twoDigits fields.second⟩, ⟨.literal, " ".toList⟩,
    ⟨.dayPeriod, if fields.hour < 12 then "AM".toList else "PM".toList⟩]

/-- The `switch` of the fold; `none` is its default. -/
def PartType.index : PartType → Option ℕ
  | .year => some 0
  | .month => some 1
  | .day => some 2
  | .hour => some 3
  | .minute => some 4
  | .second => some 5
  | .dayPeriod => none
  | .literal => none

/-- The body of the fold. -/
def addPart (dateFormat : List (List Char)) (formatPart : FormatPart) : List (List Char) :=
  match formatPart.type.index with
  | none => dateFormat
  | some index => dateFormat.set index formatPart.value

/-- The second that the instant, in milliseconds, has on the clock of a time zone. -/
def localSecond (offset instant : ℤ) : ℤ := (instant + offset) / 1000

/-- The prefix that `generateStub` computes for an instant. -/
def migrationPrefix (offset instant : ℤ) : List Char :=
  ((formatToParts (ofSecond (localSecond offset instant))).foldl addPart
    (List.replicate 6 [])).flatten

/-! ## Its digits -/

/-- The date as a number. -/
def dateNumber (s : ℤ) : ℕ :=
  (shownYear (ofSecond s).year * 100 + (ofSecond s).month) * 100 + (ofSecond s).date

/-- The time as a number. -/
def clockNumber (s : ℤ) : ℕ :=
  (hour12 (ofSecond s).hour * 100 + (ofSecond s).minute) * 100 + (ofSecond s).second

/-- The digits of the year. -/
def yearDigits (s : ℤ) : ℕ := (Nat.toDigits 10 (shownYear (ofSecond s).year)).length

theorem migrationPrefix_eq (offset instant : ℤ) : migrationPrefix offset instant =
    let fields := ofSecond (localSecond offset instant)
    Nat.toDigits 10 (shownYear fields.year) ++ twoDigits fields.month ++ twoDigits fields.date ++
      twoDigits (hour12 fields.hour) ++ twoDigits fields.minute ++ twoDigits fields.second := by
  unfold migrationPrefix
  simp [formatToParts, addPart, PartType.index]

theorem areDigits_migrationPrefix (offset instant : ℤ) :
    AreDigits (migrationPrefix offset instant) := by
  rw [migrationPrefix_eq]
  refine areDigits_append ?_ (areDigits_twoDigits _)
  refine areDigits_append ?_ (areDigits_twoDigits _)
  refine areDigits_append ?_ (areDigits_twoDigits _)
  refine areDigits_append ?_ (areDigits_twoDigits _)
  exact areDigits_append (areDigits_toDigits _) (areDigits_twoDigits _)

theorem length_migrationPrefix (offset instant : ℤ) :
    (migrationPrefix offset instant).length = yearDigits (localSecond offset instant) + 10 := by
  rw [migrationPrefix_eq]
  simp [yearDigits, twoDigits]

section Bounds

variable (s : ℤ)

theorem ofSecond_month_le : (ofSecond s).month ≤ 12 := by
  have h := monthOf_le (isLeapYear (yearFromDay (s / 86400))) (dayWithinYear (s / 86400))
  unfold ofSecond monthFromDay
  simp only
  omega

theorem ofSecond_date_le : (ofSecond s).date ≤ 31 := by
  have h := dayWithinMonth_bounds (s / 86400)
  unfold ofSecond
  simp only
  omega

theorem hour12_le (hour : ℕ) : hour12 hour ≤ 12 := by
  unfold hour12
  split <;> omega

/-- The time, by the seconds of a 12-hour dial that starts at one. -/
theorem clock_eq : (s - 3600) % 43200 =
    (hour12 (ofSecond s).hour - 1) * 3600 + (ofSecond s).minute * 60 + (ofSecond s).second ∧
    1 ≤ hour12 (ofSecond s).hour ∧ (ofSecond s).minute < 60 ∧ (ofSecond s).second < 60 := by
  unfold hour12 ofSecond
  simp only
  split <;> omega

end Bounds

/-- The prefix as a number. -/
theorem value_migrationPrefix (offset instant : ℤ) : value (migrationPrefix offset instant) =
    dateNumber (localSecond offset instant) * 10 ^ 6 +
      clockNumber (localSecond offset instant) := by
  have hmonth := ofSecond_month_le (localSecond offset instant)
  have hdate := ofSecond_date_le (localSecond offset instant)
  have hhour := hour12_le (ofSecond (localSecond offset instant)).hour
  obtain ⟨-, -, hminute, hsecond⟩ := clock_eq (localSecond offset instant)
  rw [migrationPrefix_eq, value_append_twoDigits _ (by omega), value_append_twoDigits _ (by omega),
    value_append_twoDigits _ (by omega), value_append_twoDigits _ (by omega),
    value_append_twoDigits _ (by omega), value_toDigits]
  unfold dateNumber clockNumber
  ring

/-! ## The order of the dates and of the times -/

/-- How far the dial of a 12-hour clock is from one o'clock. -/
def dial (s : ℤ) : ℤ := (s - 3600) % 43200

theorem clockNumber_lt (s : ℤ) : clockNumber s < 10 ^ 6 := by
  have hhour := hour12_le (ofSecond s).hour
  obtain ⟨-, -, hminute, hsecond⟩ := clock_eq s
  unfold clockNumber
  omega

/-- The times are in the order of the dial. -/
theorem clockNumber_lt_iff (a b : ℤ) : clockNumber a < clockNumber b ↔ dial a < dial b := by
  obtain ⟨ha, ha1, ham, has⟩ := clock_eq a
  obtain ⟨hb, hb1, hbm, hbs⟩ := clock_eq b
  unfold dial clockNumber
  rw [ha, hb]
  omega

theorem dateNumber_eq_of_day_eq {a b : ℤ} (h : a / 86400 = b / 86400) :
    dateNumber a = dateNumber b := by
  unfold dateNumber ofSecond
  rw [h]

/-- The month and the date as a number. -/
def monthDate (s : ℤ) : ℕ := (ofSecond s).month * 100 + (ofSecond s).date

theorem dateNumber_eq (s : ℤ) : dateNumber s = shownYear (ofSecond s).year * 10000 + monthDate s := by
  unfold dateNumber monthDate
  ring

theorem monthDate_lt (s : ℤ) : monthDate s < 10000 := by
  have hmonth := ofSecond_month_le s
  have hdate := ofSecond_date_le s
  unfold monthDate
  omega

/-- On a later day the year is later, or the month and date are. -/
theorem year_lt_or_monthDate_lt {a b : ℤ} (h : a / 86400 < b / 86400) :
    (ofSecond a).year < (ofSecond b).year ∨
      (ofSecond a).year = (ofSecond b).year ∧ monthDate a < monthDate b := by
  have hdate := ofSecond_date_le a
  have ha := (dayWithinMonth_bounds (a / 86400)).1
  refine (fields_lt_of_lt h).imp_right fun ⟨hyear, hlt⟩ => ⟨hyear, ?_⟩
  unfold monthDate ofSecond at *
  simp only at *
  rcases hlt with hmonth | ⟨hmonth, hday⟩
  · omega
  · omega

/-! ## The order of the prefixes -/

/-- The date and the time as one number. -/
def stampNumber (s : ℤ) : ℕ := dateNumber s * 10 ^ 6 + clockNumber s

/-- What is shown behind the year, in ten digits. -/
def behindYear (s : ℤ) : ℕ := monthDate s * 10 ^ 6 + clockNumber s

/-- What is shown of two moments is in the order of time, by the case of their years. The year is
    not padded: of a year with more digits only the leading ones meet the other year, and its
    further digits meet the other moment's month. -/
def ShownInOrder (a b : ℤ) : Prop :=
  if yearDigits a = yearDigits b then
    if 0 < (ofSecond a).year then a / 86400 ≠ b / 86400 ∨ dial a < dial b
    else if (ofSecond b).year ≤ 0 then
      -- years before 1 count down
      (ofSecond a).year = (ofSecond b).year ∧ (a / 86400 ≠ b / 86400 ∨ dial a < dial b)
    else
      1 - (ofSecond a).year < (ofSecond b).year ∨ 1 - (ofSecond a).year = (ofSecond b).year ∧
        (monthDate a < monthDate b ∨ monthDate a = monthDate b ∧ dial a < dial b)
  else if yearDigits a < yearDigits b then
    let leading := shownYear (ofSecond b).year / 10 ^ (yearDigits b - yearDigits a)
    let further := shownYear (ofSecond b).year % 10 ^ (yearDigits b - yearDigits a)
    shownYear (ofSecond a).year < leading ∨ shownYear (ofSecond a).year = leading ∧
      behindYear a * 10 ^ (yearDigits b - yearDigits a) ≤ further * 10 ^ 10 + behindYear b
  else
    let leading := shownYear (ofSecond a).year / 10 ^ (yearDigits a - yearDigits b)
    let further := shownYear (ofSecond a).year % 10 ^ (yearDigits a - yearDigits b)
    leading < shownYear (ofSecond b).year ∨ leading = shownYear (ofSecond b).year ∧
      further * 10 ^ 10 + behindYear a < behindYear b * 10 ^ (yearDigits a - yearDigits b)

theorem stampNumber_lt_iff (a b : ℤ) : stampNumber a < stampNumber b ↔
    dateNumber a < dateNumber b ∨ dateNumber a = dateNumber b ∧ dial a < dial b := by
  have ha := clockNumber_lt a
  have hb := clockNumber_lt b
  rw [← clockNumber_lt_iff]
  unfold stampNumber
  omega

/-- The prefixes are in the order of the decimal fractions they write. -/
theorem migrationPrefix_lt_iff_stampNumber (offset s t : ℤ) :
    migrationPrefix offset s < migrationPrefix offset t ↔
      let a := localSecond offset s
      let b := localSecond offset t
      stampNumber a * 10 ^ yearDigits b < stampNumber b * 10 ^ yearDigits a ∨
        stampNumber a * 10 ^ yearDigits b = stampNumber b * 10 ^ yearDigits a ∧
          yearDigits a < yearDigits b := by
  rw [lt_iff (areDigits_migrationPrefix offset s) (areDigits_migrationPrefix offset t),
    value_migrationPrefix, value_migrationPrefix, length_migrationPrefix, length_migrationPrefix,
    pow_add, pow_add, ← Nat.mul_assoc, ← Nat.mul_assoc, Nat.mul_lt_mul_right (by decide),
    Nat.mul_left_inj (by decide), Nat.add_lt_add_iff_right]
  rfl

section Dates

variable {a b : ℤ} (hday : a / 86400 < b / 86400)

include hday

/-- In years from 1 on, a later day has a greater number. -/
theorem dateNumber_lt_of_pos (hyear : 0 < (ofSecond a).year) : dateNumber a < dateNumber b := by
  have ha := monthDate_lt a
  rw [dateNumber_eq, dateNumber_eq]
  unfold shownYear
  rcases year_lt_or_monthDate_lt hday with hlt | ⟨heq, hlt⟩
  · rw [if_neg (by omega), if_neg (by omega)]
    omega
  · rw [← heq]
    omega

/-- In years before 1, a later day has a greater number in one year, and a smaller one in another. -/
theorem dateNumber_of_nonpos (hyear : (ofSecond b).year ≤ 0) :
    (ofSecond a).year = (ofSecond b).year ∧ dateNumber a < dateNumber b ∨
      (ofSecond a).year ≠ (ofSecond b).year ∧ dateNumber b < dateNumber a := by
  have hb := monthDate_lt b
  rw [dateNumber_eq, dateNumber_eq]
  unfold shownYear
  rcases year_lt_or_monthDate_lt hday with hlt | ⟨heq, hlt⟩
  · rw [if_pos (by omega), if_pos hyear]
    omega
  · rw [heq]
    omega

end Dates

/-- Where two moments are shown with years of equally many digits, their numbers are in order by
    the case of the years. -/
theorem stampNumber_lt_iff_shownInOrder {a b : ℤ} (hlt : a < b)
    (hdigits : yearDigits a = yearDigits b) : stampNumber a < stampNumber b ↔ ShownInOrder a b := by
  have hday : a / 86400 ≤ b / 86400 := by omega
  have hyears : a / 86400 = b / 86400 → (ofSecond a).year = (ofSecond b).year := by
    intro h
    unfold ofSecond
    rw [h]
  rw [stampNumber_lt_iff]
  unfold ShownInOrder
  rw [if_pos hdigits]
  split
  · rename_i hpos
    rcases hday.lt_or_eq with hday | hday
    · exact iff_of_true (.inl (dateNumber_lt_of_pos hday hpos)) (.inl hday.ne)
    · rw [dateNumber_eq_of_day_eq hday, hday]
      simp
  · split
    · rename_i hpos hneg
      rcases hday.lt_or_eq with hday | hday
      · rcases dateNumber_of_nonpos hday hneg with ⟨hyear, hdate⟩ | ⟨hyear, hdate⟩
        · exact iff_of_true (.inl hdate) ⟨hyear, .inl hday.ne⟩
        · exact iff_of_false (by omega) fun h => hyear h.1
      · rw [dateNumber_eq_of_day_eq hday, hyears hday, hday]
        simp
    · rename_i hpos hneg
      have ha := monthDate_lt a
      have hb := monthDate_lt b
      rw [dateNumber_eq, dateNumber_eq]
      unfold shownYear
      rw [if_pos (by omega), if_neg hneg]
      omega

section UnequalYears

theorem behindYear_lt (s : ℤ) : behindYear s < 10 ^ 10 := by
  have hdate := monthDate_lt s
  have hclock := clockNumber_lt s
  unfold behindYear
  omega

theorem stampNumber_eq (s : ℤ) :
    stampNumber s = shownYear (ofSecond s).year * 10 ^ 10 + behindYear s := by
  unfold stampNumber behindYear
  rw [dateNumber_eq]
  ring

/-- Two numbers of a leading and a following part are in order by the leading ones first. -/
theorem mul_add_le_mul_add_iff {m p q x y : ℕ} (hx : x < m) (hy : y < m) :
    p * m + x ≤ q * m + y ↔ p < q ∨ p = q ∧ x ≤ y := by
  rcases Nat.lt_trichotomy p q with hlt | rfl | hlt
  · have hmul : p * m + m ≤ q * m := by
      rw [← Nat.succ_mul]
      exact Nat.mul_le_mul_right m hlt
    exact iff_of_true (by omega) (.inl hlt)
  · omega
  · have hmul : q * m + m ≤ p * m := by
      rw [← Nat.succ_mul]
      exact Nat.mul_le_mul_right m hlt
    exact iff_of_false (by omega) (by omega)

variable {y₁ y₂ r₁ r₂ : ℕ} (h₁ : r₁ < 10 ^ 10) (h₂ : r₂ < 10 ^ 10) (extra : ℕ)

include h₁ h₂

/-- A year `y₁` and one with `extra` more digits, and what is shown behind each. -/
theorem shorter_le_longer_iff :
    (y₁ * 10 ^ 10 + r₁) * 10 ^ extra ≤ y₂ * 10 ^ 10 + r₂ ↔
      y₁ < y₂ / 10 ^ extra ∨ y₁ = y₂ / 10 ^ extra ∧
        r₁ * 10 ^ extra ≤ y₂ % 10 ^ extra * 10 ^ 10 + r₂ := by
  have hpos : 0 < 10 ^ extra := by positivity
  have hfurther : y₂ % 10 ^ extra < 10 ^ extra := Nat.mod_lt _ hpos
  have hshort : r₁ * 10 ^ extra < 10 ^ extra * 10 ^ 10 := by
    rw [Nat.mul_comm (10 ^ extra)]
    exact Nat.mul_lt_mul_of_pos_right h₁ hpos
  have hlong : y₂ % 10 ^ extra * 10 ^ 10 + r₂ < 10 ^ extra * 10 ^ 10 := by omega
  have hleft : (y₁ * 10 ^ 10 + r₁) * 10 ^ extra =
      y₁ * (10 ^ extra * 10 ^ 10) + r₁ * 10 ^ extra := by ring
  have hright : y₂ * 10 ^ 10 + r₂ =
      y₂ / 10 ^ extra * (10 ^ extra * 10 ^ 10) + (y₂ % 10 ^ extra * 10 ^ 10 + r₂) := by
    conv_lhs => rw [← Nat.div_add_mod y₂ (10 ^ extra)]
    ring
  rw [hleft, hright, mul_add_le_mul_add_iff hshort hlong]

/-- The same, the other way round. -/
theorem longer_lt_shorter_iff :
    y₂ * 10 ^ 10 + r₂ < (y₁ * 10 ^ 10 + r₁) * 10 ^ extra ↔
      y₂ / 10 ^ extra < y₁ ∨ y₂ / 10 ^ extra = y₁ ∧
        y₂ % 10 ^ extra * 10 ^ 10 + r₂ < r₁ * 10 ^ extra := by
  rw [← not_le, shorter_le_longer_iff h₁ h₂]
  omega

end UnequalYears

/-- Where the years have different numbers of digits, the fractions are in order by the digits that
    both years have. -/
theorem fraction_lt_iff_shownInOrder {a b : ℤ} (hdigits : yearDigits a ≠ yearDigits b) :
    (stampNumber a * 10 ^ yearDigits b < stampNumber b * 10 ^ yearDigits a ∨
      stampNumber a * 10 ^ yearDigits b = stampNumber b * 10 ^ yearDigits a ∧
        yearDigits a < yearDigits b) ↔ ShownInOrder a b := by
  unfold ShownInOrder
  rw [if_neg hdigits]
  split
  · rename_i hlt
    obtain ⟨extra, hextra⟩ := Nat.exists_eq_add_of_le hlt.le
    rw [and_iff_left hlt, ← Nat.le_iff_lt_or_eq, hextra, Nat.add_sub_cancel_left,
      Nat.pow_add, Nat.mul_comm (10 ^ yearDigits a), ← Nat.mul_assoc,
      Nat.mul_le_mul_right_iff (by positivity), stampNumber_eq, stampNumber_eq]
    exact shorter_le_longer_iff (behindYear_lt a) (behindYear_lt b) extra
  · rename_i hnot
    obtain ⟨extra, hextra⟩ := Nat.exists_eq_add_of_le (not_lt.mp hnot)
    rw [or_iff_left fun h => hnot h.2, hextra, Nat.add_sub_cancel_left, Nat.pow_add,
      Nat.mul_comm (10 ^ yearDigits b), ← Nat.mul_assoc, Nat.mul_lt_mul_right (by positivity),
      stampNumber_eq, stampNumber_eq]
    exact longer_lt_shorter_iff (behindYear_lt b) (behindYear_lt a) extra

/-- Two instants that differ in their displayed second have their prefixes in the order of time if
    and only if what is shown of them is. -/
theorem migrationPrefix_lt_iff (offset : ℤ) {s t : ℤ} (hlt : s < t)
    (hne : localSecond offset s ≠ localSecond offset t) :
    migrationPrefix offset s < migrationPrefix offset t ↔
      ShownInOrder (localSecond offset s) (localSecond offset t) := by
  have hsecond : localSecond offset s < localSecond offset t := by
    unfold localSecond at *
    omega
  rw [migrationPrefix_lt_iff_stampNumber]
  simp only
  by_cases hdigits : yearDigits (localSecond offset s) = yearDigits (localSecond offset t)
  · rw [← stampNumber_lt_iff_shownInOrder hsecond hdigits, hdigits,
      Nat.mul_lt_mul_right (by positivity)]
    exact or_iff_left fun h => lt_irrefl _ h.2
  · exact fraction_lt_iff_shownInOrder hdigits

/-- Nine and eleven o'clock of one day. -/
theorem migrationPrefix_lt_iff_sample :
    migrationPrefix 0 1694768400000 < migrationPrefix 0 1694775600000 ↔
      ShownInOrder (localSecond 0 1694768400000) (localSecond 0 1694775600000) :=
  migrationPrefix_lt_iff 0 (by decide) (by decide)

/-- Eleven and thirteen o'clock of one day: `20230915110000` and `20230915010000`. -/
theorem not_migrationPrefix_lt_afternoon : ¬ ∀ offset s t : ℤ, s < t →
    localSecond offset s ≠ localSecond offset t →
      migrationPrefix offset s < migrationPrefix offset t := by
  intro h
  have hlt := h 0 1694775600000 1694782800000 (by decide) (by decide)
  rw [migrationPrefix_eq, migrationPrefix_eq] at hlt
  exact absurd hlt (by decide)

end NestTemplate
