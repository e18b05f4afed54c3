import Edps.Lib.Runs

/-!
# Machines in lockstep

Two machines that are driven by the same inputs, the one as it is built and the other as it is
meant.

* `Machine.pair M N` : both, a step of each for an input.
* `eachStep_pair_fst` : what is said of one of them.
* `outs_eq_of_eachStep` : if they put out the same in each step, they put out the same.
-/

namespace Edps

namespace Machine

variable {S T I O : Type*} {P : Type*} {M : Machine S I O} {N : Machine T I P}

/-- Both machines. -/
def pair (M : Machine S I O) (N : Machine T I P) : Machine (S × T) I (O × P) :=
  ⟨fun s i => (((M.next s.1 i).1, (N.next s.2 i).1), ((M.next s.1 i).2, (N.next s.2 i).2))⟩

theorem after_pair (s : S) (t : T) (is : List I) :
    (M.pair N).after (s, t) is = (M.after s is, N.after t is) := by
  induction is generalizing s t with
  | nil => rfl
  | cons i is ih => exact ih _ _

theorem eachStep_pair_fst {Q : S → I → Prop} {s : S} {t : T} {is : List I} :
    (M.pair N).EachStep (fun st i => Q st.1 i) (s, t) is ↔ M.EachStep Q s is := by
  induction is generalizing s t with
  | nil => exact Iff.rfl
  | cons i is ih => exact and_congr_right fun _ => ih

/-- The same output in each step. -/
theorem outs_eq_of_eachStep {N : Machine T I O} {s : S} {t : T} {is : List I}
    (h : (M.pair N).EachStep (fun st i => (M.next st.1 i).2 = (N.next st.2 i).2) (s, t) is) :
    M.outs s is = N.outs t is := by
  induction is generalizing s t with
  | nil => rfl
  | cons i is ih =>
    obtain ⟨hi, his⟩ := h
    rw [outs_cons, outs_cons, ih his]
    exact congrArg (· :: _) hi

/-- Behind a run the steps of another run begin. -/
theorem eachStep_append {Q : S → I → Prop} {s : S} {is js : List I} :
    M.EachStep Q s (is ++ js) ↔ M.EachStep Q s is ∧ M.EachStep Q (M.after s is) js := by
  induction is generalizing s with
  | nil => exact (and_iff_right trivial).symm
  | cons i is ih =>
    rw [List.cons_append, eachStep_cons, eachStep_cons, ih, and_assoc]
    exact Iff.rfl

end Machine

end Edps
