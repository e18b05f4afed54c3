import Edps.Lib.Runs
import Mathlib.Data.List.Flatten
import Mathlib.Data.List.Perm.Basic

/-!
# Accounts of runs

A machine holds items: every step may take items in and give items off, and what its state holds
is an account of them.  When each step is balanced, so is a run.

* `Machine.Balanced` : held and taken in is, up to the order, given off and still held.
* `Machine.ledger` : the same over a run.
-/

namespace Edps

open scoped List

namespace Machine

variable {S I O α : Type*} (M : Machine S I O) (held : S → List α) (takes gives : O → List α)

/-- A step gives off or still holds what was held and what it takes in. -/
def Balanced (s : S) (i : I) : Prop :=
  (held s ++ takes (M.next s i).2).Perm (gives (M.next s i).2 ++ held (M.next s i).1)

variable {M held takes gives}

/-- **The account of a run.** -/
theorem ledger {s : S} {is : List I} (h : M.EachStep (M.Balanced held takes gives) s is) :
    (held s ++ (M.outs s is).flatMap takes).Perm
      ((M.outs s is).flatMap gives ++ held (M.after s is)) := by
  induction is generalizing s with
  | nil => simp
  | cons i is ih =>
    obtain ⟨hi, his⟩ := h
    simp only [outs_cons, after_cons, List.flatMap_cons]
    calc held s ++ (takes (M.next s i).2 ++ (M.outs (M.next s i).1 is).flatMap takes)
        = (held s ++ takes (M.next s i).2) ++ (M.outs (M.next s i).1 is).flatMap takes :=
          (List.append_assoc ..).symm
      _ ~ (gives (M.next s i).2 ++ held (M.next s i).1) ++
            (M.outs (M.next s i).1 is).flatMap takes := hi.append_right _
      _ = gives (M.next s i).2 ++
            (held (M.next s i).1 ++ (M.outs (M.next s i).1 is).flatMap takes) :=
          List.append_assoc ..
      _ ~ gives (M.next s i).2 ++ ((M.outs (M.next s i).1 is).flatMap gives ++
            held (M.after (M.next s i).1 is)) := (ih his).append_left _
      _ = (gives (M.next s i).2 ++ (M.outs (M.next s i).1 is).flatMap gives) ++
            held (M.after (M.next s i).1 is) := (List.append_assoc ..).symm

end Machine

end Edps
