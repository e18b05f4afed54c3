import Mathlib.Data.Int.Notation
import Mathlib.Tactic.Common

/-!
# The Gregorian calendar

Days counted from 1 March of the year 0, and the year, month and day they fall on.  Years begin
in March here, so that the leap day is the last day of its year: a day is a number of whole
400-year cycles, centuries, 4-year cycles and years, and a day of the year.

* `days y m d` : the day with this date; months and days may run over.
* `civil n` : the date of day `n`.
* `days_civil` : `days` undoes `civil`.
-/

namespace Edps

namespace Calendar

/-- A date. -/
structure Civil where
  year : ℤ
  month : ℤ
  day : ℤ
  deriving DecidableEq, Repr

/-- The day of the year on which month `mp` (`0` is March) begins. -/
def monthStart (mp : ℤ) : ℤ := (153 * mp + 2) / 5

/-- The day with the date `y`-`m`-`d`, for months `1` to `12`. -/
def days (y m d : ℤ) : ℤ :=
  let y' := if m ≤ 2 then y - 1 else y
  let mp := if m ≤ 2 then m + 9 else m - 3
  365 * y' + y' / 4 - y' / 100 + y' / 400 + monthStart mp + (d - 1)

/-- Day `n` as a 400-year cycle, a century and a 4-year cycle in it, a year in these and a day
of that year. -/
structure Split where
  cycle : ℤ
  century : ℤ
  quad : ℤ
  year : ℤ
  day : ℤ

def split (n : ℤ) : Split :=
  let cycle := n / 146097
  let inCycle := n % 146097
  let century := min 3 (inCycle / 36524)
  let inCentury := inCycle - 36524 * century
  let quad := inCentury / 1461
  let inQuad := inCentury % 1461
  let year := min 3 (inQuad / 365)
  ⟨cycle, century, quad, year, inQuad - 365 * year⟩

/-- The date of day `n`. -/
def civil (n : ℤ) : Civil :=
  let s := split n
  let y := 400 * s.cycle + 100 * s.century + 4 * s.quad + s.year
  let mp := (5 * s.day + 2) / 153
  ⟨if mp < 10 then y else y + 1, if mp < 10 then mp + 3 else mp - 9, s.day - monthStart mp + 1⟩

/-- The parts of a day are in range, and make up the day. -/
theorem split_spec (n : ℤ) :
    (0 ≤ (split n).century ∧ (split n).century ≤ 3) ∧ (0 ≤ (split n).quad ∧ (split n).quad ≤ 24) ∧
      (0 ≤ (split n).year ∧ (split n).year ≤ 3) ∧ (0 ≤ (split n).day ∧ (split n).day ≤ 365) ∧
      n = 146097 * (split n).cycle + 36524 * (split n).century + 1461 * (split n).quad +
        365 * (split n).year + (split n).day := by
  simp only [split]
  omega

/-- The leap days before a year are those of its parts. -/
theorem leapDays (c j q l : ℤ) (hj : 0 ≤ j ∧ j ≤ 3) (hq : 0 ≤ q ∧ q ≤ 24) (hl : 0 ≤ l ∧ l ≤ 3) :
    let y := 400 * c + 100 * j + 4 * q + l
    y / 4 - y / 100 + y / 400 = 97 * c + 24 * j + q := by
  intro y
  omega

theorem month_le (n : ℤ) :
    0 ≤ (5 * (split n).day + 2) / 153 ∧ (5 * (split n).day + 2) / 153 ≤ 11 := by
  obtain ⟨-, -, -, hd, -⟩ := split_spec n
  omega

/-- **The calendar read back.** -/
theorem days_civil (n : ℤ) : days (civil n).year (civil n).month (civil n).day = n := by
  obtain ⟨hc, hq, hy, hd, hn⟩ := split_spec n
  have hm := month_le n
  have hleap := leapDays (split n).cycle _ _ _ hc hq hy
  simp only at hleap
  simp only [days, civil]
  by_cases hmp : (5 * (split n).day + 2) / 153 < 10
  · have h₁ : ¬ (5 * (split n).day + 2) / 153 + 3 ≤ 2 := by omega
    simp only [if_pos hmp, if_neg h₁, Int.add_sub_cancel]
    omega
  · have h₁ : (5 * (split n).day + 2) / 153 - 9 ≤ 2 := by omega
    simp only [if_neg hmp, if_pos h₁, Int.sub_add_cancel, Int.add_sub_cancel]
    omega

theorem civil_month (n : ℤ) : 1 ≤ (civil n).month ∧ (civil n).month ≤ 12 := by
  have hm := month_le n
  simp only [civil]
  split_ifs <;> omega

theorem civil_day (n : ℤ) : 1 ≤ (civil n).day ∧ (civil n).day ≤ 31 := by
  obtain ⟨-, -, -, hd, -⟩ := split_spec n
  simp only [civil, monthStart]
  omega

/-- A leap day, and the day after a February of 28 days. -/
example : civil (days 2000 2 29) = ⟨2000, 2, 29⟩ ∧ civil (days 1900 2 28 + 1) = ⟨1900, 3, 1⟩ := by
  decide

end Calendar

end Edps
