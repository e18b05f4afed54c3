import Mathlib.Data.List.Basic
import Mathlib.Tactic.SplitIfs

/-!
# Blocks of memory

A block is the list of its cells.  A write at a place replaces as many cells as it has and fails
when they do not all lie in the block.  Writes into a block of known layout are computed without
indices: the layout is an append of parts, and a write replaces the front of a part.

* `writeAt` : the write.
* `writeAt_append` : the part behind the place, longer than what is written.
* `writeAt_replace` : a part of just that length.
-/

namespace Edps

variable {α : Type}

/-- The cells `xs` written at a place of a block. -/
def writeAt (block : List α) (place : ℕ) (xs : List α) : Option (List α) :=
  if place + xs.length ≤ block.length then
    some (block.take place ++ xs ++ block.drop (place + xs.length))
  else none

/-- A write stays in the block and leaves its length. -/
theorem writeAt_some {block block' xs : List α} {place : ℕ}
    (h : writeAt block place xs = some block') :
    block'.length = block.length ∧ place + xs.length ≤ block.length := by
  unfold writeAt at h
  split_ifs at h with hroom
  cases h
  refine ⟨?_, hroom⟩
  simp only [List.length_append, List.length_take, List.length_drop]
  omega

theorem writeAt_append (pre : List α) {free xs : List α} (h : xs.length ≤ free.length) :
    writeAt (pre ++ free) pre.length xs = some (pre ++ (xs ++ free.drop xs.length)) := by
  have hroom : pre.length + xs.length ≤ (pre ++ free).length := by
    rw [List.length_append]
    omega
  rw [writeAt, if_pos hroom, List.take_left, ← List.drop_drop, List.drop_left, List.append_assoc]

theorem writeAt_replace {block pre old xs post : List α} {place : ℕ}
    (hlayout : block = pre ++ (old ++ post)) (hplace : place = pre.length)
    (hlen : old.length = xs.length) :
    writeAt block place xs = some (pre ++ (xs ++ post)) := by
  rw [hlayout, hplace, writeAt_append pre (by rw [List.length_append]; omega),
    List.drop_left' hlen]

end Edps
