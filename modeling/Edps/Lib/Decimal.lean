import Mathlib.Tactic.Ring
import Mathlib.Data.Int.Notation
import Mathlib.Data.List.Basic
import Mathlib.Data.List.Induction

/-!
# Decimal texts

Numbers as texts of ASCII codes, the way program runtimes print and read them.

* `digits n`, `padded k n` : the digits of `n`, as many as needed or exactly `k`.
* `value` : the number a list of digits stands for.
* `natText`, `intText`, `parseNat`, `parseInt` : the texts, and what reads them back.
* `Numeral`, `SignedNumeral` : the texts people write, with leading zeros and signs.
-/

namespace Edps

namespace Decimal

/-- The digits of `n` before `acc`; `fuel` bounds their number. -/
def digitsAux : ℕ → ℕ → List ℕ → List ℕ
  | 0, _, acc => acc
  | fuel + 1, n, acc => if n < 10 then n :: acc else digitsAux fuel (n / 10) (n % 10 :: acc)

/-- The digits of `n`, the most significant first. -/
def digits (n : ℕ) : List ℕ := digitsAux (n + 1) n []

/-- The last `k` digits of `n`, with leading zeros. -/
def padded : ℕ → ℕ → List ℕ
  | 0, _ => []
  | k + 1, n => padded k (n / 10) ++ [n % 10]

/-- The number written with these digits. -/
def value (ds : List ℕ) : ℕ := ds.foldl (fun v d => 10 * v + d) 0

/-! ### Digits -/

theorem digitsAux_append (fuel n : ℕ) (acc : List ℕ) :
    digitsAux fuel n acc = digitsAux fuel n [] ++ acc := by
  induction fuel generalizing n acc with
  | zero => rfl
  | succ fuel ih =>
    simp only [digitsAux]
    split_ifs
    · rfl
    · rw [ih, ih (n / 10) [n % 10], List.append_assoc]
      rfl

theorem digitsAux_fuel {fuel fuel' n : ℕ} (h : n < fuel) (h' : n < fuel') (acc : List ℕ) :
    digitsAux fuel n acc = digitsAux fuel' n acc := by
  induction fuel generalizing fuel' n acc with
  | zero => omega
  | succ fuel ih =>
    cases fuel' with
    | zero => omega
    | succ fuel' =>
      simp only [digitsAux]
      split_ifs with hn
      · rfl
      · exact ih (by omega) (by omega) _

/-- The last digit comes off the end. -/
theorem digits_eq (n : ℕ) :
    digits n = (if n < 10 then [] else digits (n / 10)) ++ [n % 10] := by
  rw [digits, digitsAux]
  split_ifs with h
  · simp [Nat.mod_eq_of_lt h]
  · rw [digitsAux_append, digits, digitsAux_fuel (by omega : n / 10 < n) (Nat.lt_succ_self _)]

theorem value_append_singleton (ds : List ℕ) (d : ℕ) : value (ds ++ [d]) = 10 * value ds + d := by
  simp [value]

theorem value_lt {ds : List ℕ} (h : ∀ d ∈ ds, d < 10) : value ds < 10 ^ ds.length := by
  induction ds using List.reverseRecOn with
  | nil => simp [value]
  | append_singleton ds d ih =>
    have hds := ih fun e he => h e (List.mem_append_left _ he)
    have hd := h d (by simp)
    rw [value_append_singleton, List.length_append, List.length_singleton, pow_succ]
    omega

@[simp] theorem value_digits (n : ℕ) : value (digits n) = n := by
  induction n using Nat.strongRecOn with
  | ind n ih =>
    rw [digits_eq, value_append_singleton]
    split_ifs with h
    · simp only [value, List.foldl_nil]; omega
    · rw [ih (n / 10) (by omega)]; omega

theorem lt_of_mem_digits {n d : ℕ} (h : d ∈ digits n) : d < 10 := by
  induction n using Nat.strongRecOn with
  | ind n ih =>
    rw [digits_eq, List.mem_append, List.mem_singleton] at h
    rcases h with h | rfl
    · split_ifs at h with hn
      · cases h
      · exact ih (n / 10) (by omega) h
    · omega

theorem digits_ne_nil (n : ℕ) : digits n ≠ [] := by
  rw [digits_eq]; simp

theorem length_digits_le {n k : ℕ} (hk : 0 < k) (h : n < 10 ^ k) : (digits n).length ≤ k := by
  induction k generalizing n with
  | zero => omega
  | succ k ih =>
    rw [digits_eq, List.length_append, List.length_singleton]
    split_ifs with hn
    · simp
    · have hk' : 0 < k := by
        rcases k with _ | k
        · omega
        · omega
      have := ih hk' (n := n / 10) (by rw [pow_succ] at h; omega)
      omega

theorem lt_length_digits {n k : ℕ} (h : 10 ^ k ≤ n) : k < (digits n).length := by
  induction k generalizing n with
  | zero => exact List.length_pos_iff.2 (digits_ne_nil n)
  | succ k ih =>
    have hpos : 0 < 10 ^ k := Nat.pow_pos (by decide)
    have hdiv : 10 ^ k ≤ n / 10 := by
      rw [Nat.le_div_iff_mul_le (by decide)]
      rwa [pow_succ] at h
    have hlen := ih hdiv
    rw [digits_eq, if_neg (by rw [pow_succ] at h; omega), List.length_append,
      List.length_singleton]
    omega

@[simp] theorem length_padded (k n : ℕ) : (padded k n).length = k := by
  induction k generalizing n with
  | zero => rfl
  | succ k ih => simp [padded, ih]

theorem value_padded {k n : ℕ} (h : n < 10 ^ k) : value (padded k n) = n := by
  induction k generalizing n with
  | zero => simp at h; simp [padded, value, h]
  | succ k ih =>
    rw [padded, value_append_singleton, ih (by rw [pow_succ] at h; omega)]
    omega

theorem lt_of_mem_padded {k n d : ℕ} (h : d ∈ padded k n) : d < 10 := by
  induction k generalizing n with
  | zero => cases h
  | succ k ih =>
    rw [padded, List.mem_append, List.mem_singleton] at h
    rcases h with h | rfl
    · exact ih h
    · omega

/-! ### Texts -/

/-- Digits as ASCII codes. -/
def codes (ds : List ℕ) : List ℕ := ds.map (48 + ·)

/-- A natural number as text. -/
def natText (n : ℕ) : List ℕ := codes (digits n)

/-- An integer as text, with a minus sign before a negative one. -/
def intText (n : ℤ) : List ℕ := if n < 0 then 45 :: natText n.natAbs else natText n.natAbs

def isDigit (c : ℕ) : Bool := 48 ≤ c && c ≤ 57

/-- A text of digits read as a number. -/
def parseNat (s : List ℕ) : Option ℕ :=
  if s ≠ [] ∧ s.all isDigit then some (value (s.map (· - 48))) else none

/-- A text of digits with an optional minus sign read as a number. -/
def parseInt : List ℕ → Option ℤ
  | 45 :: s => (parseNat s).map fun n : ℕ => -(n : ℤ)
  | s => (parseNat s).map fun n : ℕ => (n : ℤ)

@[simp] theorem length_codes (ds : List ℕ) : (codes ds).length = ds.length := by simp [codes]

theorem isDigit_of_mem_codes {ds : List ℕ} (h : ∀ d ∈ ds, d < 10) {c : ℕ} (hc : c ∈ codes ds) :
    isDigit c := by
  obtain ⟨d, hd, rfl⟩ := List.mem_map.1 hc
  have := h d hd
  simp only [isDigit, Bool.and_eq_true, decide_eq_true_eq]
  omega

theorem parseNat_codes {ds : List ℕ} (hne : ds ≠ []) (h : ∀ d ∈ ds, d < 10) :
    parseNat (codes ds) = some (value ds) := by
  have hall : (codes ds).all isDigit = true :=
    List.all_eq_true.2 fun c hc => isDigit_of_mem_codes h hc
  have hmap : (codes ds).map (· - 48) = ds := by
    rw [codes, List.map_map]
    exact List.map_id'' (fun d => by simp) ds
  rw [parseNat, if_pos ⟨by simpa [codes] using hne, hall⟩, hmap]

@[simp] theorem parseNat_natText (n : ℕ) : parseNat (natText n) = some n := by
  rw [natText, parseNat_codes (digits_ne_nil n) fun _ => lt_of_mem_digits, value_digits]

theorem parseNat_padded {k n : ℕ} (hk : 0 < k) (h : n < 10 ^ k) :
    parseNat (codes (padded k n)) = some n := by
  have hne : padded k n ≠ [] := fun he => by
    have := congrArg List.length he
    simp at this
    omega
  rw [parseNat_codes hne fun _ => lt_of_mem_padded, value_padded h]

theorem isDigit_of_mem_natText {n c : ℕ} (h : c ∈ natText n) : isDigit c :=
  isDigit_of_mem_codes (fun _ => lt_of_mem_digits) h

/-- A text that begins with a digit has no sign. -/
theorem parseInt_eq_parseNat {s : List ℕ} (h : ∀ c ∈ s, isDigit c) :
    parseInt s = (parseNat s).map fun n : ℕ => (n : ℤ) := by
  cases s with
  | nil => rfl
  | cons c s =>
    have hc : c ≠ 45 := by
      rintro rfl
      exact absurd (h 45 List.mem_cons_self) (by decide)
    unfold parseInt
    split
    · rename_i heq; exact absurd (List.cons.inj heq).1 hc
    · rfl

@[simp] theorem parseInt_intText (n : ℤ) : parseInt (intText n) = some n := by
  unfold intText
  split_ifs with hn
  · have hneg : -(n.natAbs : ℤ) = n := by omega
    simp only [parseInt, parseNat_natText, Option.map_some, hneg]
  · have hpos : (n.natAbs : ℤ) = n := by omega
    rw [parseInt_eq_parseNat fun _ => isDigit_of_mem_natText, parseNat_natText, Option.map_some,
      hpos]

/-- The codes of a number are a minus sign and digits. -/
theorem code_of_mem_intText {n : ℤ} {c : ℕ} (h : c ∈ intText n) : c = 45 ∨ isDigit c := by
  unfold intText at h
  split_ifs at h
  · rcases List.mem_cons.1 h with rfl | h
    · exact .inl rfl
    · exact .inr (isDigit_of_mem_natText h)
  · exact .inr (isDigit_of_mem_natText h)

theorem code_lt_of_mem_intText {n : ℤ} {c : ℕ} (h : c ∈ intText n) : c < 128 := by
  rcases code_of_mem_intText h with rfl | h
  · omega
  · simp only [isDigit, Bool.and_eq_true, decide_eq_true_eq] at h
    omega

theorem length_intText_le {n : ℤ} {k : ℕ} (hk : 0 < k) (h : n.natAbs < 10 ^ k) :
    (intText n).length ≤ k + 1 := by
  have := length_digits_le hk h
  unfold intText natText
  split_ifs <;> simp <;> omega

/-! ### Numerals -/

/-- A text of digits. -/
structure Numeral where
  digits : List ℕ
  ne_nil : digits ≠ []
  lt_ten : ∀ d ∈ digits, d < 10

def Numeral.value (n : Numeral) : ℕ := Decimal.value n.digits

def Numeral.text (n : Numeral) : List ℕ := codes n.digits

/-- What may stand in front of digits. -/
inductive Sign where
  | none
  | plus
  | minus
  deriving DecidableEq, Repr

def Sign.text : Sign → List ℕ
  | none => []
  | plus => [43]
  | minus => [45]

/-- Digits with or without a sign. -/
structure SignedNumeral where
  sign : Sign
  numeral : Numeral

def SignedNumeral.value (n : SignedNumeral) : ℤ :=
  if n.sign = .minus then -n.numeral.value else n.numeral.value

def SignedNumeral.text (n : SignedNumeral) : List ℕ := n.sign.text ++ n.numeral.text

theorem SignedNumeral.ne_zero_of_mem {n : SignedNumeral} {c : ℕ} (h : c ∈ n.text) :
    c ≠ 0 ∧ c < 128 := by
  rcases List.mem_append.1 h with h | h
  · cases hs : n.sign <;> simp_all [Sign.text]
  · have hdigit := isDigit_of_mem_codes n.numeral.lt_ten h
    simp only [isDigit, Bool.and_eq_true, decide_eq_true_eq] at hdigit
    omega

end Decimal

end Edps
