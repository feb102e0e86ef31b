import PodSizing.Time.Calendar

/-!
# Days and dates

The date of a day is in the calendar, and the day of a date is the one that it was made from.
-/
namespace PodSizing.Time.Date

/-- The parts of a day number. Only the last day of a leap year is the 366th of its year. -/
structure SplitInto (n era : Int) (century four one day : Nat) : Prop where
  century_le : century ≤ 3
  four_le : four ≤ 24
  one_le : one ≤ 3
  day_le : day ≤ 365
  last : day = 365 → one = 3 ∧ (four = 24 → century = 3)
  sum : n + epochOffset =
    146097 * era + (36524 * century + 1461 * four + 365 * one + day : Nat)
  date : ofDayNumber n = ofYearDay (400 * era + (100 * century + 4 * four + one : Nat)) day

theorem exists_split (n : Int) : ∃ era century four one day, SplitInto n era century four one day := by
  refine ⟨_, _, _, _, _, ?_, ?_, ?_, ?_, ?_, ?_, rfl⟩
  all_goals omega

theorem yearStart_parts (era : Int) {century four one : Nat} (hcentury : century ≤ 3)
    (hfour : four ≤ 24) (hone : one ≤ 3) :
    yearStart (400 * era + (100 * century + 4 * four + one : Nat)) =
      146097 * era + (36524 * century + 1461 * four + 365 * one : Nat) := by
  unfold yearStart
  omega

theorem monthStart_le (n : Nat) : monthStart ((5 * n + 2) / 153) ≤ n := by
  unfold monthStart
  omega

theorem dayNumber_ofYearDay (year : Int) {n : Nat} (h : n ≤ 365) :
    (ofYearDay year n).dayNumber = yearStart year + n - epochOffset := by
  have hmonth := monthStart_le n
  unfold ofYearDay dayNumber
  by_cases hlate : (5 * n + 2) / 153 < 10
  · simp only [hlate, if_true]
    rw [if_neg (by omega), Nat.add_sub_cancel]
    omega
  · simp only [hlate, if_false]
    have hsame : (5 * n + 2) / 153 - 9 + 9 = (5 * n + 2) / 153 := by omega
    have hyear : year + 1 - 1 = year := by omega
    rw [if_pos (by omega), hsame, hyear]
    omega

/-- Which days such a year has depends on nothing but the length of its February. -/
theorem exists?_congr {year other : Int} (h : isLeapYear (year + 1) = isLeapYear (other + 1))
    (n : Nat) : (ofYearDay year n).exists? = (ofYearDay other n).exists? := by
  have hfebruary (m : Nat) : monthLength (year + 1) m = monthLength (other + 1) m := by
    simp only [monthLength, h]
  have hothers {m : Nat} (hm : m ≠ 2) : monthLength year m = monthLength other m := by
    simp only [monthLength, hm, if_false]
  unfold ofYearDay exists?
  by_cases hlate : (5 * n + 2) / 153 < 10
  · have hmonth : (5 * n + 2) / 153 + 3 ≠ 2 := by omega
    simp only [hlate, if_true, hothers hmonth]
  · simp only [hlate, if_false, hfebruary]

theorem exists?_commonYear : ∀ n < 365, (ofYearDay 0 n).exists? = true := by decide +kernel

theorem exists?_leapYear : ∀ n < 366, (ofYearDay 3 n).exists? = true := by decide +kernel

theorem exists?_ofYearDay (year : Int) {n : Nat} (h : n ≤ 365)
    (hlast : n = 365 → isLeapYear (year + 1) = true) : (ofYearDay year n).exists? = true := by
  cases hleap : isLeapYear (year + 1) with
  | true =>
    have hsame : isLeapYear (year + 1) = isLeapYear (3 + 1) := hleap
    rw [exists?_congr hsame]
    exact exists?_leapYear n (by omega)
  | false =>
    have hne : n ≠ 365 := fun heq => by simp [hlast heq] at hleap
    have hsame : isLeapYear (year + 1) = isLeapYear (0 + 1) := hleap
    rw [exists?_congr hsame]
    exact exists?_commonYear n (by omega)

theorem dayNumber_ofDayNumber (n : Int) : (ofDayNumber n).dayNumber = n := by
  obtain ⟨era, century, four, one, day, h⟩ := exists_split n
  rw [h.date, dayNumber_ofYearDay _ h.day_le, yearStart_parts era h.century_le h.four_le h.one_le]
  have hsum := h.sum
  omega

theorem exists?_ofDayNumber (n : Int) : (ofDayNumber n).exists? = true := by
  obtain ⟨era, century, four, one, day, h⟩ := exists_split n
  rw [h.date]
  apply exists?_ofYearDay _ h.day_le
  intro hend
  obtain ⟨hone, hcentury⟩ := h.last hend
  have hfour := h.four_le
  have hle := h.century_le
  simp only [isLeapYear, Bool.and_eq_true, Bool.or_eq_true, beq_iff_eq, bne_iff_ne]
  omega

theorem lt_of_exists? {d : Date} (h : d.exists? = true) : d.month < 100 ∧ d.day < 100 := by
  have hlength : monthLength d.year d.month ≤ 31 := by
    unfold monthLength
    split
    · split <;> decide
    · split <;> decide
  simp only [exists?, Bool.and_eq_true, decide_eq_true_eq] at h
  omega

end PodSizing.Time.Date
