import Mathlib.Data.Int.Notation
import Mathlib.Tactic.Ring

/-!
# Big-endian words

Integers as words of a fixed number of bytes, the most significant first, negative ones in two's
complement.

* `bigEndian k v` : the word of `k` bytes for `v`.
* `fromBigEndian` : the number a word stands for without a sign.
* `fromBigEndian_bigEndian` : it is the integer up to a multiple of `256 ^ k`.
-/

namespace Edps

/-- The last byte of an integer. -/
def lowByte (v : ℤ) : UInt8 := UInt8.ofNat (v % 256).toNat

/-- The word of `k` bytes for an integer. -/
def bigEndian : ℕ → ℤ → List UInt8
  | 0, _ => []
  | k + 1, v => bigEndian k (v / 256) ++ [lowByte v]

/-- The number of a word without a sign. -/
def fromBigEndian (bytes : List UInt8) : ℕ := bytes.foldl (fun n b => 256 * n + b.toNat) 0

@[simp] theorem length_bigEndian (k : ℕ) (v : ℤ) : (bigEndian k v).length = k := by
  induction k generalizing v with
  | zero => rfl
  | succ k ih => rw [bigEndian, List.length_append, ih, List.length_singleton]

theorem fromBigEndian_append_singleton (bytes : List UInt8) (b : UInt8) :
    fromBigEndian (bytes ++ [b]) = 256 * fromBigEndian bytes + b.toNat := by
  rw [fromBigEndian, List.foldl_append, ← fromBigEndian, List.foldl_cons, List.foldl_nil]

theorem toNat_lowByte (v : ℤ) : ((lowByte v).toNat : ℤ) = v % 256 := by
  rw [lowByte, UInt8.toNat_ofNat']
  omega

theorem fromBigEndian_bigEndian (k : ℕ) (v : ℤ) :
    (fromBigEndian (bigEndian k v) : ℤ) = v % 256 ^ k := by
  induction k generalizing v with
  | zero =>
    rw [pow_zero, Int.emod_one]
    rfl
  | succ k ih =>
    rw [bigEndian, fromBigEndian_append_singleton]
    push_cast
    rw [ih, toNat_lowByte, pow_succ']
    rw [Int.emod_def (v / 256), Int.emod_def v 256, Int.emod_def v,
      Int.ediv_ediv_of_nonneg (by decide)]
    ring

end Edps
