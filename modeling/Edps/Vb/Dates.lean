import Edps.Lib.Calendar
import Edps.Vb.Basic

/-!
# Visual Basic: dates

A `Date` of whole seconds is the number of seconds since midnight of 30 December 1899.  The
separators that `Format` writes come from the locale.

* `format` : a date as `MM/dd/YYYY hh:nn:ss`.
* `dateSerial`, `dateAdd` : the functions that build a date from numbers.
-/

namespace Edps

namespace Vb

/-- The day of date `0`. -/
def epoch : ℤ := Calendar.days 1899 12 30

def dayOf (date : ℤ) : ℤ := date / 86400

def timeOf (date : ℤ) : ℤ := date % 86400

def civilOf (date : ℤ) : Calendar.Civil := Calendar.civil (dayOf date + epoch)

/-- The dates a `Date` can hold. -/
def checkDate (date : ℤ) : Except VbError ℤ :=
  if 100 ≤ (civilOf date).year ∧ (civilOf date).year ≤ 9999 then .ok date
  else .error .invalidCall

/-- `DateSerial(y, m, d)`: years below 100 are years of this or the last century. -/
def dateSerial (y m d : ℤ) : Except VbError ℤ :=
  let y := if 0 ≤ y ∧ y ≤ 29 then y + 2000 else if 30 ≤ y ∧ y ≤ 99 then y + 1900 else y
  checkDate (86400 * (Calendar.days (y + (m - 1) / 12) ((m - 1) % 12 + 1) d - epoch))

/-- `DateAdd`, for a unit of this many seconds. -/
def dateAdd (unit n date : ℤ) : Except VbError ℤ := checkDate (date + unit * n)

/-- The separators of dates and times. -/
structure Separators where
  date : UInt16
  time : UInt16
  deriving DecidableEq, Repr

/-- The last `k` digits of a number. -/
def digitText (k : ℕ) (n : ℤ) : VbString := ofCodes (Decimal.codes (Decimal.padded k n.toNat))

/-- `Format(date, "MM/dd/YYYY hh:nn:ss")` -/
def format (sep : Separators) (date : ℤ) : VbString :=
  let c := civilOf date
  let t := timeOf date
  digitText 2 c.month ++ [sep.date] ++ digitText 2 c.day ++ [sep.date] ++ digitText 4 c.year ++
    [32] ++ digitText 2 (t / 3600) ++ [sep.time] ++ digitText 2 (t / 60 % 60) ++ [sep.time] ++
    digitText 2 (t % 60)

/-! ### Reading back -/

/-- `Mid` at the position of a part cuts out that part. -/
theorem mid_eq {s a b c : VbString} {start len : ℤ} (hs : s = a ++ (b ++ c))
    (hstart : start = a.length + 1) (hlen : len = b.length) : mid s start len = .ok b := by
  subst hs hstart hlen
  rw [mid, if_neg (by omega)]
  simp

@[simp] theorem length_digitText (k : ℕ) (n : ℤ) : (digitText k n).length = k := by
  simp [digitText]

/-- Digits read as a number. -/
theorem parseInt_digitText {k : ℕ} {n : ℤ} (hk : 0 < k) (h₀ : 0 ≤ n) (h : n < 10 ^ k) :
    Decimal.parseInt ((digitText k n).map UInt16.toNat) = some n := by
  have hlt : n.toNat < 10 ^ k := by
    have : ((n.toNat : ℕ) : ℤ) < ((10 ^ k : ℕ) : ℤ) := by push_cast; omega
    exact_mod_cast this
  have hascii : ∀ c ∈ Decimal.codes (Decimal.padded k n.toNat), c < 128 := by
    intro c hc
    have := Decimal.isDigit_of_mem_codes (fun _ => Decimal.lt_of_mem_padded) hc
    simp only [Decimal.isDigit, Bool.and_eq_true, decide_eq_true_eq] at this
    omega
  rw [digitText, toNat_ofCodes hascii, Decimal.parseInt_eq_parseNat fun _ =>
    Decimal.isDigit_of_mem_codes fun _ => Decimal.lt_of_mem_padded,
    Decimal.parseNat_padded hk hlt, Option.map_some, Int.toNat_of_nonneg h₀]

theorem cInt_digitText (numeric : NumericText) {k : ℕ} {n : ℤ} (hk : 0 < k) (h₀ : 0 ≤ n)
    (h : n < 10 ^ k) (hmax : n ≤ 32767) : cInt numeric (digitText k n) = .ok n := by
  have hrange : -32768 ≤ n ∧ n ≤ 32767 := by omega
  simp [cInt, textToWhole, parseInt_digitText hk h₀ h, toInteger, hrange, bind, Except.bind]

/-- Every second of a day that a `Date` can hold is one that it can hold. -/
theorem checkDate_of_day {date date' : ℤ} (hday : dayOf date' = dayOf date)
    (h : 100 ≤ (civilOf date).year ∧ (civilOf date).year ≤ 9999) :
    checkDate date' = .ok date' := by
  have hciv : civilOf date' = civilOf date := by rw [civilOf, civilOf, hday]
  rw [checkDate, hciv, if_pos h]

/-- `DateSerial` gives back the day of a date. -/
theorem dateSerial_civilOf {date : ℤ} (h : 100 ≤ (civilOf date).year)
    (h' : (civilOf date).year ≤ 9999) :
    dateSerial (civilOf date).year (civilOf date).month (civilOf date).day =
      .ok (86400 * dayOf date) := by
  have hm : 1 ≤ (civilOf date).month ∧ (civilOf date).month ≤ 12 := Calendar.civil_month _
  have hmonth : ((civilOf date).month - 1) % 12 + 1 = (civilOf date).month := by omega
  have hyear : (civilOf date).year + ((civilOf date).month - 1) / 12 = (civilOf date).year := by
    omega
  have hdays : Calendar.days (civilOf date).year (civilOf date).month (civilOf date).day =
      dayOf date + epoch := Calendar.days_civil _
  simp only [dateSerial]
  rw [if_neg (by omega), if_neg (by omega), hmonth, hyear, hdays, Int.add_sub_cancel]
  exact checkDate_of_day (by unfold dayOf; omega) ⟨h, h'⟩

end Vb

end Edps
