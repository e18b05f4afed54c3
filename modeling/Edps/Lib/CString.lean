import Mathlib.Data.List.Basic

/-!
# C strings in memory

A pointer to a C string is a pointer into memory: behind the terminator the memory goes on, with
bytes nobody has promised anything about.

* `CString` : a text, its terminator and what stands behind.
* `CString.byte` : the byte at an offset, wherever it is.
* `bytes_of_le`, `bytes_terminator` : bytes read as far as the text goes, or with the terminator.
-/

namespace Edps

/-- A C string where it stands in memory. -/
structure CString where
  text : List UInt8
  noNul : ∀ c ∈ text, c ≠ 0
  /-- The memory behind the terminator, by its offset from the pointer. -/
  beyond : ℕ → UInt8

namespace CString

variable (s : CString)

/-- The byte at an offset from the pointer. -/
def byte (i : ℕ) : UInt8 := (s.text ++ [0]).getD i (s.beyond i)

/-- `n` bytes from an offset on. -/
def bytes (i n : ℕ) : List UInt8 := (List.range n).map fun k => s.byte (i + k)

@[simp] theorem length_bytes (i n : ℕ) : (s.bytes i n).length = n := by simp [bytes]

variable {s}

/-- The text and its terminator, read in place. -/
theorem bytes_eq {i n : ℕ} (h : i + n ≤ s.text.length + 1) :
    s.bytes i n = ((s.text ++ [0]).drop i).take n := by
  have hlen : (s.text ++ [0]).length = s.text.length + 1 := by simp
  refine List.ext_getElem (by rw [length_bytes, List.length_take, List.length_drop]; omega) ?_
  intro k hk _
  rw [length_bytes] at hk
  have hget : (s.text ++ [0])[i + k]? = some (s.text ++ [0])[i + k] :=
    List.getElem?_eq_getElem (by omega)
  simp [bytes, byte, List.getD, hget]

theorem bytes_of_le {i n : ℕ} (h : i + n ≤ s.text.length) :
    s.bytes i n = (s.text.drop i).take n := by
  rw [bytes_eq (by omega), List.drop_append_of_le_length (by omega),
    List.take_append_of_le_length (by rw [List.length_drop]; omega)]

/-- The terminator is read behind the text. -/
theorem bytes_terminator {i n : ℕ} (h : i + n = s.text.length + 1) (hi : i ≤ s.text.length) :
    s.bytes i n = s.text.drop i ++ [0] := by
  rw [bytes_eq (Nat.le_of_eq h), List.drop_append_of_le_length hi, List.take_of_length_le]
  simp
  omega

theorem byte_of_drop {i : ℕ} {c : UInt8} {rest : List UInt8} (h : s.text.drop i = c :: rest) :
    s.byte i = c := by
  have hi : i < s.text.length := by
    by_contra hle
    rw [List.drop_of_length_le (by omega)] at h
    cases h
  have hbytes : s.bytes i 1 = [s.byte i] := rfl
  have htake : s.bytes i 1 = (c :: rest).take 1 := by rw [bytes_of_le (by omega), h]
  rw [hbytes] at htake
  exact (List.cons.inj htake).1

/-- The terminator. -/
theorem byte_of_drop_nil {i : ℕ} (hi : i ≤ s.text.length) (h : s.text.drop i = []) :
    s.byte i = 0 := by
  have hlen : i = s.text.length := Nat.le_antisymm hi (List.drop_eq_nil_iff.1 h)
  have hbytes : s.bytes i 1 = [s.byte i] := rfl
  have hzero : s.bytes i 1 = s.text.drop i ++ [0] := bytes_terminator (by omega) hi
  rw [hbytes, h] at hzero
  exact (List.cons.inj hzero).1

end CString

end Edps
