import Mathlib.Data.Int.Notation
import Mathlib.Data.List.Nodup
import Mathlib.Data.List.Perm.Basic
import Mathlib.Logic.Function.Basic
import Mathlib.Tactic.SplitIfs

/-!
# Cells of an array

Memory from the start of an array on, as a function: the array ends somewhere, and what is read
behind its end is there all the same.  A list lives in the first `n` cells.

* `toList a n` : the first `n` cells.
* `toList_write` : the cell behind them written.
* `closeGap`, `toList_closeGap` : the cells behind a place moved down by one, from the lowest on,
  take that place out of the list.
* `count_eraseIdx`, `not_mem_eraseIdx` : what was there is in the list once less.
-/

namespace Edps

namespace Cells

variable {α : Type*} {a b : ℕ → α} {i n : ℕ}

/-- The first `n` cells. -/
def toList (a : ℕ → α) (n : ℕ) : List α := (List.range n).map a

/-- As many cells moved down by one, from `i` on. -/
def closeGap (a : ℕ → α) : ℕ → ℕ → ℕ → α
  | 0, _ => a
  | rounds + 1, i => closeGap (Function.update a i (a (i + 1))) rounds (i + 1)

@[simp] theorem length_toList (a : ℕ → α) (n : ℕ) : (toList a n).length = n := by
  simp [toList]

theorem getElem?_toList (a : ℕ → α) (n i : ℕ) :
    (toList a n)[i]? = if i < n then some (a i) else none := by
  rw [toList, List.getElem?_map]
  split_ifs with h
  · rw [List.getElem?_range h, Option.map_some]
  · rw [List.getElem?_eq_none (by simpa using h), Option.map_none]

/-- Only the first `n` cells are looked at. -/
theorem toList_congr (h : ∀ i < n, a i = b i) : toList a n = toList b n :=
  List.map_congr_left fun i hi => h i (List.mem_range.1 hi)

theorem toList_write (a : ℕ → α) (n : ℕ) (x : α) :
    toList (Function.update a n x) (n + 1) = toList a n ++ [x] := by
  have hsame : toList (Function.update a n x) n = toList a n :=
    toList_congr fun i hi => Function.update_of_ne (Nat.ne_of_lt hi) x a
  rw [toList, List.range_succ, List.map_append, List.map_singleton, Function.update_self, ← toList,
    hsame]

theorem closeGap_apply (a : ℕ → α) (rounds i j : ℕ) :
    closeGap a rounds i j = if i ≤ j ∧ j < i + rounds then a (j + 1) else a j := by
  induction rounds generalizing a i with
  | zero => rw [closeGap, if_neg (by omega)]
  | succ rounds ih =>
    rw [closeGap, ih]
    rcases Nat.lt_trichotomy j i with hj | rfl | hj
    · rw [if_neg (by omega), if_neg (by omega), Function.update_of_ne (by omega)]
    · rw [if_neg (by omega), if_pos (by omega), Function.update_self]
    · -- the cells above have not been written yet
      rw [Function.update_of_ne (by omega), Function.update_of_ne (by omega)]
      exact if_congr (by omega) rfl rfl

/-- **The gap closed.** -/
theorem toList_closeGap (a : ℕ → α) (h : i < n) :
    toList (closeGap a (n - i) i) (n - 1) = (toList a n).eraseIdx i := by
  refine List.ext_getElem? fun j => ?_
  rw [getElem?_toList, List.getElem?_eraseIdx, getElem?_toList, getElem?_toList, closeGap_apply]
  split_ifs <;> first | rfl | omega

/-- What is taken out of a list is in it once less. -/
theorem count_eraseIdx [DecidableEq α] {xs : List α} {n : ℕ} {a : α} (h : xs[n]? = some a) (b : α) :
    ((xs.eraseIdx n).count b : ℤ) = xs.count b - if a = b then 1 else 0 := by
  obtain ⟨hlt, heq⟩ := List.getElem?_eq_some_iff.1 h
  have hcount := (List.getElem_cons_eraseIdx_perm hlt).count_eq b
  rw [heq, List.count_cons] at hcount
  simp only [beq_iff_eq] at hcount
  split_ifs at hcount ⊢ <;> omega

theorem not_mem_eraseIdx {xs : List α} {n : ℕ} {a : α} (hxs : xs.Nodup) (h : xs[n]? = some a) :
    a ∉ xs.eraseIdx n := by
  obtain ⟨hlt, heq⟩ := List.getElem?_eq_some_iff.1 h
  have hcons := (List.getElem_cons_eraseIdx_perm hlt).nodup_iff.2 hxs
  rw [heq] at hcons
  exact (List.nodup_cons.1 hcons).1

end Cells

end Edps
