import Mathlib.Data.List.Basic

/-!
# Runs of deterministic machines

A component that is driven from outside (a library called by its clients, a loop fed with the
answers of its environment) is a *machine*: in a state it takes an input, moves to the next
state and puts out what it did.  Everything a client can observe over a finite history is a
statement about the *steps* of a run.

* `Machine.after s is` : the state after the inputs `is`.
* `Machine.outs s is` : everything put out on the way, in order.
* `Machine.EachStep P s is` : every step of the run satisfies `P`, which may look at the state
  before the step and at the input.

The induction over a run is packaged once: `Machine.after_invariant` carries an invariant to
the last state, `Machine.eachStep_of_invariant` turns a fact about one step into one about
every step, and `Machine.eachStep_iff_of_invariant` compares two step conditions that agree
as long as the invariant has been kept.
-/

namespace Edps

/-- A deterministic machine with states `S`, inputs `I` and outputs `O`. -/
structure Machine (S I O : Type*) where
  /-- The state after one input, and what is put out. -/
  next : S → I → S × O

namespace Machine

variable {S I O : Type*} (M : Machine S I O)

/-- The state after the inputs `is`. -/
def after (s : S) (is : List I) : S := is.foldl (fun s i => (M.next s i).1) s

/-- The outputs of the steps taken on the inputs `is`. -/
def outs : S → List I → List O
  | _, [] => []
  | s, i :: is => (M.next s i).2 :: outs (M.next s i).1 is

/-- Every step of the run on `is` satisfies `P`. -/
def EachStep (P : S → I → Prop) : S → List I → Prop
  | _, [] => True
  | s, i :: is => P s i ∧ EachStep P (M.next s i).1 is

instance decidableEachStep (P : S → I → Prop) [∀ s i, Decidable (P s i)] :
    ∀ s is, Decidable (M.EachStep P s is)
  | _, [] => .isTrue trivial
  | s, i :: is =>
    have := decidableEachStep P (M.next s i).1 is
    inferInstanceAs (Decidable (P s i ∧ M.EachStep P (M.next s i).1 is))

variable {M}

@[simp] theorem after_nil (s : S) : M.after s [] = s := rfl

@[simp] theorem after_cons (s : S) (i : I) (is : List I) :
    M.after s (i :: is) = M.after (M.next s i).1 is := rfl

@[simp] theorem outs_nil (s : S) : M.outs s [] = [] := rfl

@[simp] theorem outs_cons (s : S) (i : I) (is : List I) :
    M.outs s (i :: is) = (M.next s i).2 :: M.outs (M.next s i).1 is := rfl

@[simp] theorem eachStep_nil (P : S → I → Prop) (s : S) : M.EachStep P s [] := trivial

@[simp] theorem eachStep_cons (P : S → I → Prop) (s : S) (i : I) (is : List I) :
    M.EachStep P s (i :: is) ↔ P s i ∧ M.EachStep P (M.next s i).1 is := Iff.rfl

theorem after_append (s : S) (is js : List I) :
    M.after s (is ++ js) = M.after (M.after s is) js := List.foldl_append

theorem outs_append (s : S) (is js : List I) :
    M.outs s (is ++ js) = M.outs s is ++ M.outs (M.after s is) js := by
  induction is generalizing s with
  | nil => rfl
  | cons i is ih => simp only [List.cons_append, outs_cons, after_cons, ih]

/-- What is put out is what the steps put out. -/
theorem forall_mem_outs {R : O → Prop} {s : S} {is : List I} :
    (∀ o ∈ M.outs s is, R o) ↔ M.EachStep (fun s i => R (M.next s i).2) s is := by
  induction is generalizing s with
  | nil => simp
  | cons i is ih => simp only [outs_cons, List.forall_mem_cons, eachStep_cons, ih]

/-- Every step, wherever the run is cut. -/
theorem eachStep_iff_forall_split {P : S → I → Prop} {s : S} {is : List I} :
    M.EachStep P s is ↔ ∀ pre i post, is = pre ++ i :: post → P (M.after s pre) i := by
  induction is generalizing s with
  | nil => simp
  | cons i is ih =>
    rw [eachStep_cons, ih]
    constructor
    · rintro ⟨h₀, h⟩ pre j post he
      cases pre with
      | nil => cases he; exact h₀
      | cons k pre =>
        obtain ⟨rfl, rfl⟩ := List.cons.inj he
        exact h pre j post rfl
    · intro h
      refine ⟨h [] i is rfl, fun pre j post he => h (i :: pre) j post (by rw [he]; rfl)⟩

/-- A condition on the inputs alone. -/
theorem eachStep_of_forall {P : I → Prop} {s : S} {is : List I} (h : ∀ i ∈ is, P i) :
    M.EachStep (fun _ i => P i) s is := by
  induction is generalizing s with
  | nil => trivial
  | cons i is ih =>
    obtain ⟨hi, his⟩ := List.forall_mem_cons.1 h
    exact ⟨hi, ih his⟩

theorem eachStep_mono {P Q : S → I → Prop} (hPQ : ∀ s i, P s i → Q s i) {s : S} {is : List I}
    (h : M.EachStep P s is) : M.EachStep Q s is := by
  induction is generalizing s with
  | nil => trivial
  | cons i is ih => exact ⟨hPQ s i h.1, ih h.2⟩

theorem eachStep_congr {P Q : S → I → Prop} (hPQ : ∀ s i, P s i ↔ Q s i) {s : S} {is : List I} :
    M.EachStep P s is ↔ M.EachStep Q s is :=
  ⟨eachStep_mono fun s i => (hPQ s i).1, eachStep_mono fun s i => (hPQ s i).2⟩

theorem eachStep_and {P Q : S → I → Prop} {s : S} {is : List I} :
    M.EachStep (fun s i => P s i ∧ Q s i) s is ↔ M.EachStep P s is ∧ M.EachStep Q s is := by
  induction is generalizing s with
  | nil => simp
  | cons i is ih => simp only [eachStep_cons, ih, and_and_and_comm]

/-- **Invariants of runs.**  A predicate that holds at the start and is kept by every step
that meets `P` holds at the end of a run whose steps all meet `P`. -/
theorem after_invariant {P : S → I → Prop} {Inv : S → Prop}
    (hstep : ∀ s i, Inv s → P s i → Inv (M.next s i).1) {s : S} {is : List I} (hs : Inv s)
    (hP : M.EachStep P s is) : Inv (M.after s is) := by
  induction is generalizing s with
  | nil => exact hs
  | cons i is ih => exact ih (hstep s i hs hP.1) hP.2

/-- **The rule of variants.**  A machine has ended after more inputs than the variant of its state
says, if each step ends the run or makes the variant less. -/
theorem after_ended {Inv Ended : S → Prop} {μ : S → ℕ}
    (hends : ∀ s i, Ended s → Ended (M.next s i).1)
    (hstep : ∀ s i, Inv s → Ended (M.next s i).1 ∨ Inv (M.next s i).1 ∧ μ (M.next s i).1 < μ s)
    {s : S} {is : List I} (hs : Inv s) (hlong : μ s < is.length) : Ended (M.after s is) := by
  induction is generalizing s with
  | nil => exact absurd hlong (Nat.not_lt_zero _)
  | cons i is ih =>
    rw [after_cons]
    rcases hstep s i hs with hended | ⟨hinv, hless⟩
    · exact after_invariant (P := fun _ _ => True) (fun s i h _ => hends s i h) hended
        (eachStep_of_forall fun _ _ => trivial)
    · rw [List.length_cons] at hlong
      exact ih hinv (by omega)

/-- **From one step to every step.** -/
theorem eachStep_of_invariant {P Q : S → I → Prop} {Inv : S → Prop}
    (hstep : ∀ s i, Inv s → P s i → Inv (M.next s i).1)
    (hQ : ∀ s i, Inv s → P s i → Q s i) {s : S} {is : List I} (hs : Inv s)
    (hP : M.EachStep P s is) : M.EachStep Q s is := by
  induction is generalizing s with
  | nil => trivial
  | cons i is ih => exact ⟨hQ s i hs hP.1, ih (hstep s i hs hP.1) hP.2⟩

/-- **Two step conditions that agree under an invariant** agree on runs, when the steps that
meet them keep the invariant. -/
theorem eachStep_iff_of_invariant {P Q : S → I → Prop} {Inv : S → Prop}
    (hstep : ∀ s i, Inv s → P s i → Inv (M.next s i).1)
    (hPQ : ∀ s i, Inv s → (P s i ↔ Q s i)) {s : S} {is : List I} (hs : Inv s) :
    M.EachStep P s is ↔ M.EachStep Q s is := by
  induction is generalizing s with
  | nil => exact Iff.rfl
  | cons i is ih =>
    simp only [eachStep_cons, hPQ s i hs]
    refine and_congr_right fun hq => ih (hstep s i hs ((hPQ s i hs).2 hq))

end Machine

end Edps
