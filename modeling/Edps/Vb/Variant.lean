import Edps.Vb.Dates

/-!
# Visual Basic: the locale, floating-point numbers and Variants

What the run time takes from the machine it runs on is a `Runtime`: the ANSI code page behind
`Chr` and `Asc`, the separators of dates, the texts that are no plain whole numbers, and the
floating-point numbers with their texts.
-/

namespace Edps

namespace Vb

/-- What the run time takes from its machine. -/
structure Runtime where
  /-- The character of a code, for `Chr`. -/
  chr : Fin 256 → UInt16
  /-- The code of a character, for `Asc`. -/
  asc : UInt16 → ℤ
  asc_chr : ∀ k, asc (chr k) = k.val
  /-- The first 128 characters are ASCII. -/
  chr_ascii : ∀ k : Fin 256, k.val < 128 → chr k = UInt16.ofNat k.val
  separators : Separators
  numeric : NumericText
  /-- `Double` -/
  Double : Type
  /-- `Single` -/
  Single : Type
  /-- `CDbl` of a text -/
  cDbl : VbString → Except VbError Double
  /-- `x + y` -/
  add : Double → Double → Double
  /-- `x - y` -/
  sub : Double → Double → Double
  /-- A whole number as `Double`. -/
  ofInt : ℤ → Double
  /-- A `Single` as `Double`. -/
  ofSingle : Single → Double
  /-- `x + 1` of a `Single` -/
  succSingle : Single → Single
  /-- `x > y` -/
  gt : Double → Double → Bool
  /-- A `Double` rounded to a whole number. -/
  round : Double → ℤ
  /-- `Trim(Str(x))` -/
  doubleText : Double → VbString
  /-- `Trim(Str(x))` of a `Single` -/
  singleText : Single → VbString
  /-- A whole number of at most 15 digits is exact, and so are sums and texts of such. -/
  cDbl_cStr : ∀ n : ℤ, n.natAbs < 10 ^ 15 → cDbl (cStr n) = .ok (ofInt n)
  add_ofInt : ∀ m n : ℤ, m.natAbs < 10 ^ 15 → n.natAbs < 10 ^ 15 →
    add (ofInt m) (ofInt n) = ofInt (m + n)
  sub_ofInt : ∀ m n : ℤ, m.natAbs < 10 ^ 15 → n.natAbs < 10 ^ 15 →
    sub (ofInt m) (ofInt n) = ofInt (m - n)
  doubleText_ofInt : ∀ n : ℤ, n.natAbs < 10 ^ 15 → doubleText (ofInt n) = cStr n
  /-- `CStr(x)`, in the notation of the locale. -/
  doubleCStr : Double → VbString
  /-- `CStr(x)` of a `Single` -/
  singleCStr : Single → VbString
  /-- `IsNumeric` of a text -/
  isNumeric : VbString → Bool
  /-- A whole number is numeric. -/
  isNumeric_whole : ∀ s n, Decimal.parseInt (s.map UInt16.toNat) = some n → isNumeric s = true

variable {R : Runtime}

/-- `Chr(n)` -/
def chr (R : Runtime) (n : ℤ) : Except VbError VbString :=
  if h : 0 ≤ n ∧ n < 256 then .ok [R.chr ⟨n.toNat, by omega⟩] else .error .invalidCall

/-- `Asc(s)`: the code of the first character. -/
def asc (R : Runtime) : VbString → Except VbError ℤ
  | [] => .error .invalidCall
  | c :: _ => .ok (R.asc c)

/-- The Variants of the modelled code. -/
inductive Variant (R : Runtime) where
  /-- `vbString` -/
  | str (s : VbString)
  /-- `vbInteger`, `vbLong` -/
  | int (n : ℤ)
  /-- `vbDouble` -/
  | dbl (x : R.Double)
  /-- `vbSingle` -/
  | sgl (x : R.Single)

/-- `AlwayString` of the record class. -/
def alwayString : Variant R → VbString
  | .str s => s
  | .int n => trim (str n)
  | .dbl x => R.doubleText x
  | .sgl x => R.singleText x

/-- A Variant where a `String` is wanted. -/
def toText : Variant R → VbString
  | .str s => s
  | .int n => cStr n
  | .dbl x => R.doubleCStr x
  | .sgl x => R.singleCStr x

/-- `CDbl` -/
def toDouble : Variant R → Except VbError R.Double
  | .str s => R.cDbl s
  | .int n => .ok (R.ofInt n)
  | .dbl x => .ok x
  | .sgl x => .ok (R.ofSingle x)

/-- A Variant as a whole number. -/
def toWhole : Variant R → Except VbError ℤ
  | .str s => textToWhole R.numeric s
  | .int n => .ok n
  | .dbl x => .ok (R.round x)
  | .sgl x => .ok (R.round (R.ofSingle x))

/-- `CInt` -/
def cIntOf (v : Variant R) : Except VbError ℤ := toWhole v >>= toInteger

/-- `CLng` -/
def cLngOf (v : Variant R) : Except VbError ℤ := toWhole v >>= toLong

/-- `v + 1`: a text counts as a `Double`. -/
def succ : Variant R → Except VbError (Variant R)
  | .str s => do return .dbl (R.add (← R.cDbl s) (R.ofInt 1))
  | .int n => .ok (.int (n + 1))
  | .dbl x => .ok (.dbl (R.add x (R.ofInt 1)))
  | .sgl x => .ok (.sgl (R.succSingle x))

@[simp] theorem alwayString_str (s : VbString) : alwayString (.str s : Variant R) = s := rfl

@[simp] theorem alwayString_int (n : ℤ) : alwayString (.int n : Variant R) = cStr n := trim_str n

theorem asc_chr_cons {n : ℕ} (h : n < 256) (s : VbString) :
    asc R (R.chr ⟨n, h⟩ :: s) = .ok n := by
  rw [asc, R.asc_chr]

/-- The code of an ASCII character. -/
theorem asc_ascii {n : ℕ} (h : n < 128) (s : VbString) : asc R (UInt16.ofNat n :: s) = .ok n := by
  rw [← R.chr_ascii ⟨n, by omega⟩ h, asc_chr_cons]

/-- A machine with the Latin-1 code page and the usual separators, whose floating-point numbers
are the whole ones. -/
def plainRuntime : Runtime where
  chr k := UInt16.ofNat k.val
  asc c := c.toNat
  asc_chr k := by
    have := k.isLt
    simp only [UInt16.toNat_ofNat']
    omega
  chr_ascii _ _ := rfl
  separators := ⟨47, 58⟩
  numeric _ := .error .typeMismatch
  Double := ℤ
  Single := ℤ
  cDbl := textToWhole fun _ => .error .typeMismatch
  add := (· + ·)
  sub := (· - ·)
  ofInt n := n
  ofSingle x := x
  succSingle x := x + 1
  round x := x
  gt x y := decide (x > y)
  doubleText := cStr
  cDbl_cStr n _ := textToWhole_cStr _ n
  add_ofInt _ _ _ _ := rfl
  sub_ofInt _ _ _ _ := rfl
  doubleText_ofInt _ _ := rfl
  singleText := cStr
  doubleCStr := cStr
  singleCStr := cStr
  isNumeric s := (Decimal.parseInt (s.map UInt16.toNat)).isSome
  isNumeric_whole s n h := by simp [h]

end Vb

end Edps
