import Edps.Lib.Decimal

/-!
# Visual Basic: strings and whole numbers

The part of the Visual Basic run time the modelled modules use: strings of UTF-16 units, the
functions that cut and search them, and the conversions between texts and whole numbers with
their range errors.
-/

namespace Edps

namespace Vb

/-- A string: its UTF-16 units. -/
abbrev VbString := List UInt16

/-- A string literal. -/
def vb (s : String) : VbString := s.toList.map fun c => c.toNat.toUInt16

/-- A text of ASCII codes. -/
def ofCodes (cs : List ℕ) : VbString := cs.map UInt16.ofNat

/-- The run-time errors. -/
inductive VbError where
  /-- 5, invalid procedure call or argument -/
  | invalidCall
  /-- 6, overflow -/
  | overflow
  /-- 9, subscript out of range -/
  | subscriptOutOfRange
  /-- 13, type mismatch -/
  | typeMismatch
  /-- 91, object variable not set -/
  | objectNotSet
  /-- an error of a called object -/
  | automation
  deriving DecidableEq, Repr

/-! ### Cutting and searching -/

def left (s : VbString) (n : ℤ) : Except VbError VbString :=
  if n < 0 then .error .invalidCall else .ok (s.take n.toNat)

def right (s : VbString) (n : ℤ) : Except VbError VbString :=
  if n < 0 then .error .invalidCall else .ok (s.drop (s.length - n.toNat))

/-- `Mid(s, start, len)`, with positions from 1. -/
def mid (s : VbString) (start len : ℤ) : Except VbError VbString :=
  if start < 1 ∨ len < 0 then .error .invalidCall
  else .ok ((s.drop (start.toNat - 1)).take len.toNat)

theorem mid_ok {s t : VbString} {start len : ℤ} (h : mid s start len = .ok t) :
    1 ≤ start ∧ 0 ≤ len ∧ (s.drop (start.toNat - 1)).take len.toNat = t := by
  unfold mid at h
  split_ifs at h with hbad
  exact ⟨by omega, by omega, Except.ok.inj h⟩

def isBlank (c : UInt16) : Bool := c = 32

def trim (s : VbString) : VbString := ((s.dropWhile isBlank).reverse.dropWhile isBlank).reverse

/-- The first position of `t` at or after the beginning of `s`, counted from `pos`, or `0`. -/
def inStrFrom (t : VbString) : VbString → ℕ → ℕ
  | [], _ => 0
  | c :: s, pos => if t <+: c :: s then pos else inStrFrom t s (pos + 1)

def inStr (s t : VbString) : ℕ := inStrFrom t s 1

/-- `InStr(start, s, t)` -/
def inStrAt (start : ℤ) (s t : VbString) : ℕ :=
  inStrFrom t (s.drop (start.toNat - 1)) start.toNat

theorem inStrFrom_of_not_mem {c : UInt16} {s : VbString} (h : c ∉ s) (pos : ℕ) :
    inStrFrom [c] s pos = 0 := by
  induction s generalizing pos with
  | nil => rfl
  | cons d s ih =>
    obtain ⟨hd, hs⟩ := List.ne_and_not_mem_of_not_mem_cons h
    rw [inStrFrom, if_neg (by simpa using hd), ih hs]

/-! ### Whole numbers -/

/-- `Str(n)`: a blank stands where a negative number has its sign. -/
def str (n : ℤ) : VbString :=
  if n < 0 then ofCodes (Decimal.intText n) else 32 :: ofCodes (Decimal.intText n)

/-- `CStr(n)` -/
def cStr (n : ℤ) : VbString := ofCodes (Decimal.intText n)

/-- An `Integer`. -/
def toInteger (n : ℤ) : Except VbError ℤ :=
  if -32768 ≤ n ∧ n ≤ 32767 then .ok n else .error .overflow

theorem toInteger_ok {n m : ℤ} (h : toInteger n = .ok m) : m = n := by
  unfold toInteger at h
  split_ifs at h
  cases h
  rfl

/-- A conversion in a sequence of steps. -/
theorem bind_eq_ok {α β : Type} {x : Except VbError α} {f : α → Except VbError β} {b : β} :
    (x >>= f) = .ok b ↔ ∃ a, x = .ok a ∧ f a = .ok b := by
  cases x with
  | error e => exact iff_of_false (fun h => by cases h) fun ⟨_, h, _⟩ => by cases h
  | ok a => exact ⟨fun h => ⟨a, rfl, h⟩, fun ⟨_, h, hf⟩ => by cases h; exact hf⟩

theorem toOption_eq_some {α : Type} {x : Except VbError α} {a : α} :
    x.toOption = some a ↔ x = .ok a := by
  cases x <;> simp [Except.toOption]

/-- A `Long`. -/
def toLong (n : ℤ) : Except VbError ℤ :=
  if -2147483648 ≤ n ∧ n ≤ 2147483647 then .ok n else .error .overflow

/-- The texts that are no plain whole numbers (blanks, fractions, exponents, other notations) are
read by the locale: the number rounded to a whole one, or an error. -/
abbrev NumericText := VbString → Except VbError ℤ

/-- A text as a whole number. -/
def textToWhole (numeric : NumericText) (s : VbString) : Except VbError ℤ :=
  match Decimal.parseInt (s.map UInt16.toNat) with
  | some n => .ok n
  | none => numeric s

def cInt (numeric : NumericText) (s : VbString) : Except VbError ℤ :=
  textToWhole numeric s >>= toInteger

/-- What `CInt` gives is an `Integer`. -/
theorem toInteger_of_cInt {numeric : NumericText} {s : VbString} {i : ℤ}
    (h : cInt numeric s = .ok i) : toInteger i = .ok i := by
  obtain ⟨n, -, hi⟩ := bind_eq_ok.1 h
  obtain rfl := toInteger_ok hi
  exact hi

def cLng (numeric : NumericText) (s : VbString) : Except VbError ℤ :=
  textToWhole numeric s >>= toLong

@[simp] theorem length_ofCodes (s : List ℕ) : (ofCodes s).length = s.length := by
  simp [ofCodes]

theorem toNat_ofCodes {s : List ℕ} (h : ∀ c ∈ s, c < 128) : (ofCodes s).map UInt16.toNat = s := by
  induction s with
  | nil => rfl
  | cons c s ih =>
    have hc := h c List.mem_cons_self
    have hmod : (UInt16.ofNat c).toNat = c := by
      rw [UInt16.toNat_ofNat']
      omega
    simp only [ofCodes, List.map_cons, hmod]
    rw [← ofCodes, ih fun d hd => h d (List.mem_cons_of_mem _ hd)]

theorem length_cStr_le {n : ℤ} {k : ℕ} (hk : 0 < k) (h : n.natAbs < 10 ^ k) :
    (cStr n).length ≤ k + 1 := by
  rw [cStr, length_ofCodes]
  exact Decimal.length_intText_le hk h

/-- A `Long` has at most eleven characters. -/
theorem length_cStr_long {n : ℤ} (h : -2147483648 ≤ n ∧ n ≤ 2147483647) :
    (cStr n).length ≤ 11 := length_cStr_le (k := 10) (by decide) (by omega)

theorem length_cStr_lt {n : ℤ} (h : -2147483648 ≤ n ∧ n ≤ 2147483647) :
    (cStr n).length < 1000 := (length_cStr_long h).trans_lt (by decide)

theorem textToWhole_cStr (numeric : NumericText) (n : ℤ) :
    textToWhole numeric (cStr n) = .ok n := by
  rw [textToWhole, cStr, toNat_ofCodes fun _ => Decimal.code_lt_of_mem_intText,
    Decimal.parseInt_intText]

theorem cInt_cStr (numeric : NumericText) {n : ℤ} (h : -32768 ≤ n ∧ n ≤ 32767) :
    cInt numeric (cStr n) = .ok n := by
  simp [cInt, textToWhole_cStr, toInteger, h, bind, Except.bind]

theorem cLng_cStr (numeric : NumericText) {n : ℤ}
    (h : -2147483648 ≤ n ∧ n ≤ 2147483647) : cLng numeric (cStr n) = .ok n := by
  simp [cLng, textToWhole_cStr, toLong, h, bind, Except.bind]

/-- Nothing is cut off a text without blanks at its ends. -/
theorem trim_eq_self {s : VbString} (h : ∀ c ∈ s, c ≠ 32) : trim s = s := by
  have hdrop : ∀ t : VbString, (∀ c ∈ t, c ≠ 32) → t.dropWhile isBlank = t := by
    intro t ht
    cases t with
    | nil => rfl
    | cons c t => simp [isBlank, ht c List.mem_cons_self]
  rw [trim, hdrop s h, hdrop s.reverse (by simpa using h), List.reverse_reverse]

/-- Blanks at the ends are all that is cut off. -/
theorem mem_trim {s : VbString} {c : UInt16} (hc : c ≠ 32) : c ∈ trim s ↔ c ∈ s := by
  have hdrop (t : VbString) : c ∈ t.dropWhile isBlank ↔ c ∈ t := by
    have hsplit := List.takeWhile_append_dropWhile (p := isBlank) (l := t)
    have hblank : c ∉ t.takeWhile isBlank := fun h => by
      have hc' := List.all_eq_true.1 List.all_takeWhile c h
      exact hc (by simpa [isBlank] using hc')
    rw [← List.mem_append.trans (or_iff_right hblank), hsplit]
  rw [trim, List.mem_reverse, hdrop, List.mem_reverse, hdrop]

theorem code_of_mem_cStr {n : ℤ} {c : UInt16} (h : c ∈ cStr n) :
    c.toNat = 45 ∨ Decimal.isDigit c.toNat := by
  obtain ⟨d, hd, rfl⟩ := List.mem_map.1 h
  have hlt := Decimal.code_lt_of_mem_intText hd
  have hmod : (UInt16.ofNat d).toNat = d := by
    rw [UInt16.toNat_ofNat']
    omega
  rw [hmod]
  exact Decimal.code_of_mem_intText hd

theorem ne_blank_of_mem_cStr {n : ℤ} {c : UInt16} (h : c ∈ cStr n) : c ≠ 32 := by
  rintro rfl
  rcases code_of_mem_cStr h with h | h <;> exact absurd h (by decide)

/-- `Trim(Str(n))` is `CStr(n)`. -/
theorem trim_str (n : ℤ) : trim (str n) = cStr n := by
  unfold str
  split_ifs
  · exact trim_eq_self fun _ => ne_blank_of_mem_cStr
  · have hblank :
        trim (32 :: ofCodes (Decimal.intText n)) = trim (ofCodes (Decimal.intText n)) := by
      simp [trim, isBlank]
    rw [hblank]
    exact trim_eq_self fun _ => ne_blank_of_mem_cStr

end Vb

end Edps
