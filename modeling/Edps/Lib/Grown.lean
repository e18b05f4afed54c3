import Mathlib.Data.List.Induction
import Mathlib.Order.Bounds.Basic
import Mathlib.Order.MinMax
import Mathlib.Tactic.SplitIfs

/-!
# Arrays grown on demand

An array whose elements are stored by their index, in any order: an index beyond the upper bound
makes room first, and the places in between stay blank.

* `putAt` : one store.
* `getD_foldl_putAt` : after stores one after the other, every place holds what was stored there
  last.
* `length_foldl_putAt` : the array reaches to the greatest index.
* `isLeast_foldl_min`, `isGreatest_foldl_max` : the least and the greatest of the indices, kept
  along the way.
-/

namespace Edps

namespace Grown

variable {α : Type*} (blank : α)

/-- A store, behind as many blank places as it needs. -/
def putAt (xs : List α) (i : ℕ) (x : α) : List α :=
  (xs ++ List.replicate (i + 1 - xs.length) blank).set i x

@[simp] theorem length_putAt (xs : List α) (i : ℕ) (x : α) :
    (putAt blank xs i x).length = max xs.length (i + 1) := by
  simp only [putAt, List.length_set, List.length_append, List.length_replicate]
  omega

/-- The other places stay as they are, blank beyond the upper bound. -/
theorem getD_putAt (xs : List α) (i j : ℕ) (x : α) :
    (putAt blank xs i x).getD j blank = if j = i then x else xs.getD j blank := by
  have hlen : (xs ++ List.replicate (i + 1 - xs.length) blank).length = max xs.length (i + 1) := by
    simp only [List.length_append, List.length_replicate]
    omega
  rw [putAt, List.getD_eq_getElem?_getD, List.getElem?_set, hlen]
  by_cases hj : j = i
  · rw [if_pos hj.symm, if_pos (by omega), if_pos hj]
    rfl
  · rw [if_neg (Ne.symm hj), if_neg hj, List.getD_eq_getElem?_getD]
    by_cases hold : j < xs.length
    · rw [List.getElem?_append_left hold]
    · rw [List.getElem?_append_right (by omega), List.getElem?_eq_none (l := xs) (by omega),
        List.getElem?_replicate]
      split_ifs <;> rfl

/-- Stores one after the other. -/
def putAll (xs : List α) (entries : List (ℕ × α)) : List α :=
  entries.foldl (fun xs e => putAt blank xs e.1 e.2) xs

/-- What was stored last at an index. -/
def lastAt (entries : List (ℕ × α)) (j : ℕ) : Option α :=
  ((entries.filter fun e => e.1 = j).getLast?).map Prod.snd

theorem lastAt_append_singleton (entries : List (ℕ × α)) (e : ℕ × α) (j : ℕ) :
    lastAt (entries ++ [e]) j = if j = e.1 then some e.2 else lastAt entries j := by
  rw [lastAt, List.filter_append]
  split_ifs with he
  · simp [he]
  · simp [Ne.symm he, lastAt]

/-- **Every place holds what was stored there last.** -/
theorem getD_putAll (xs : List α) (entries : List (ℕ × α)) (j : ℕ) :
    (putAll blank xs entries).getD j blank = (lastAt entries j).getD (xs.getD j blank) := by
  induction entries using List.reverseRecOn with
  | nil => rfl
  | append_singleton entries e ih =>
    have hput : putAll blank xs (entries ++ [e]) =
        putAt blank (putAll blank xs entries) e.1 e.2 := by
      rw [putAll, List.foldl_append, ← putAll]
      rfl
    rw [hput, getD_putAt, ih, lastAt_append_singleton]
    split_ifs <;> rfl

theorem length_putAll (xs : List α) (entries : List (ℕ × α)) :
    (putAll blank xs entries).length =
      (entries.map fun e => e.1 + 1).foldl max xs.length := by
  induction entries generalizing xs with
  | nil => rfl
  | cons e entries ih =>
    rw [putAll, List.foldl_cons, ← putAll, ih, length_putAt, List.map_cons, List.foldl_cons]

end Grown

/-! ### Bounds kept along the way -/

variable {α : Type*} [LinearOrder α]

theorem isLeast_foldl_min (a : α) (xs : List α) :
    IsLeast {x | x = a ∨ x ∈ xs} (xs.foldl min a) := by
  induction xs generalizing a with
  | nil => simp
  | cons b xs ih =>
    obtain ⟨hmem, hle⟩ := ih (min a b)
    refine ⟨?_, ?_⟩
    · rcases hmem with h | h
      · rw [List.foldl_cons, h]
        rcases min_choice a b with h | h <;> simp [h]
      · exact .inr (List.mem_cons_of_mem _ h)
    · have hmin : (b :: xs).foldl min a ≤ min a b := hle (.inl rfl)
      rintro x (rfl | hx)
      · exact hmin.trans (min_le_left _ _)
      · rcases List.mem_cons.1 hx with rfl | hx
        · exact hmin.trans (min_le_right _ _)
        · exact hle (.inr hx)

theorem isGreatest_foldl_max (a : α) (xs : List α) :
    IsGreatest {x | x = a ∨ x ∈ xs} (xs.foldl max a) :=
  isLeast_foldl_min (α := αᵒᵈ) a xs

/-- A start beyond all elements does not count. -/
theorem isLeast_foldl_min_of_lt {a : α} {xs : List α} (hne : xs ≠ []) (h : ∀ x ∈ xs, x < a) :
    IsLeast {x | x ∈ xs} (xs.foldl min a) := by
  obtain ⟨hmem, hle⟩ := isLeast_foldl_min a xs
  refine ⟨hmem.resolve_left fun heq => ?_, fun x hx => hle (.inr hx)⟩
  obtain ⟨x, hx⟩ := List.exists_mem_of_ne_nil xs hne
  have hlow := hle (.inr hx)
  rw [heq] at hlow
  exact absurd hlow (not_le_of_gt (h x hx))

theorem isGreatest_foldl_max_of_lt {a : α} {xs : List α} (hne : xs ≠ []) (h : ∀ x ∈ xs, a < x) :
    IsGreatest {x | x ∈ xs} (xs.foldl max a) :=
  isLeast_foldl_min_of_lt (α := αᵒᵈ) hne h

end Edps
