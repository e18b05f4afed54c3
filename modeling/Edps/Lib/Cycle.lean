import Mathlib.Data.Int.Notation
import Mathlib.Tactic.Ring
import Mathlib.Tactic.SplitIfs

/-!
# Counters that start again

A counter between two bounds that goes on by one and starts again behind the upper bound.

* `next lo hi v` : one step.
* `position lo hi v n` : where it stands after `n` steps, by the remainder.
* `next_position` : each step is one position further.
* `exists_position` : every place between the bounds is reached.
* `position_inj` : none comes back before all others have been passed.
-/

namespace Edps

namespace Cycle

variable {lo hi v : ℤ}

def next (lo hi v : ℤ) : ℤ := if hi < v + 1 then lo else v + 1

/-- The place after `n` steps from `v` on. -/
def position (lo hi v : ℤ) (n : ℕ) : ℤ := lo + (v - lo + n) % (hi - lo + 1)

theorem position_mem (h : lo ≤ hi) (v : ℤ) (n : ℕ) :
    lo ≤ position lo hi v n ∧ position lo hi v n ≤ hi := by
  have hnonneg := Int.emod_nonneg (v - lo + n) (b := hi - lo + 1) (by omega)
  have hlt := Int.emod_lt_of_pos (v - lo + n) (b := hi - lo + 1) (by omega)
  unfold position
  omega

theorem position_zero (h₀ : lo ≤ v) (h₁ : v ≤ hi) : position lo hi v 0 = v := by
  rw [position, Nat.cast_zero, add_zero, Int.emod_eq_of_lt (by omega) (by omega)]
  omega

/-- The remainder of a successor. -/
theorem emod_succ {b : ℤ} (hb : 0 < b) (a : ℤ) :
    (a + 1) % b = if b ≤ a % b + 1 then 0 else a % b + 1 := by
  have hnonneg := Int.emod_nonneg a (b := b) (by omega)
  have hlt := Int.emod_lt_of_pos a hb
  rw [← Int.emod_add_emod]
  split_ifs with hend
  · have heq : a % b + 1 = b := by omega
    rw [heq, Int.emod_self]
  · exact Int.emod_eq_of_lt (by omega) (by omega)

/-- **One step is one position further.** -/
theorem next_position (h : lo ≤ hi) (v : ℤ) (n : ℕ) :
    next lo hi (position lo hi v n) = position lo hi v (n + 1) := by
  have hsucc := emod_succ (b := hi - lo + 1) (by omega) (v - lo + n)
  have hcast : v - lo + ((n + 1 : ℕ) : ℤ) = v - lo + n + 1 := by
    push_cast
    ring
  unfold next position
  rw [hcast, hsucc]
  split_ifs <;> omega

/-- **Every place is reached.** -/
theorem exists_position {w : ℤ} (h₀ : lo ≤ w) (h₁ : w ≤ hi) (v : ℤ) :
    ∃ n, position lo hi v n = w := by
  have hb : (0 : ℤ) < hi - lo + 1 := by omega
  refine ⟨((w - v) % (hi - lo + 1)).toNat, ?_⟩
  have hnat : (((w - v) % (hi - lo + 1)).toNat : ℤ) = (w - v) % (hi - lo + 1) :=
    Int.toNat_of_nonneg (Int.emod_nonneg _ (by omega))
  have hsum : v - lo + (w - v) = w - lo := by ring
  rw [position, hnat, Int.add_emod_emod, hsum, Int.emod_eq_of_lt (by omega) (by omega)]
  omega

/-- **No place comes back within a round.** -/
theorem position_inj {n m : ℕ} (hle : n ≤ m) (hlt : (m : ℤ) < n + (hi - lo + 1))
    (heq : position lo hi v n = position lo hi v m) : n = m := by
  have hmod : (v - lo + m) % (hi - lo + 1) = (v - lo + n) % (hi - lo + 1) := by
    unfold position at heq
    omega
  have hzero := Int.emod_eq_emod_iff_emod_sub_eq_zero.1 hmod
  have hdiff : v - lo + m - (v - lo + n) = (m : ℤ) - n := by ring
  rw [hdiff, Int.emod_eq_of_lt (by omega) (by omega)] at hzero
  omega

end Cycle

end Edps
