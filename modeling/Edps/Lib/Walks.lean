import Edps.Lib.Runs

/-!
# Programs step by step

A program is a partial function from configurations to the next ones; it stops where there is none.

* `walk next n c` : where the program stands `n` steps behind `c`.
* `Kept.walk` : an annotation that is kept by each step is true wherever the program stands.
* `Kept.stopped` : a program with a variant has stopped after as many steps.
* `Kept.never_stops` : a program that keeps within configurations it does not stop in.
* `Follows.after` : a machine that does what the program does, step by step.
* `Machine.ofProgram next` : a program with inputs.
* `Machine.simulates` : a machine whose outputs are the inputs of another one.
-/

namespace Edps

variable {C S I O : Type*} {next : C → Option C}

/-- The configuration after `n` steps; a program that has stopped stays where it is. -/
def walk (next : C → Option C) : ℕ → C → C
  | 0, c => c
  | n + 1, c => walk next n ((next c).getD c)

@[simp] theorem walk_zero (c : C) : walk next 0 c = c := rfl

theorem walk_succ (n : ℕ) (c : C) : walk next (n + 1) c = walk next n ((next c).getD c) := rfl

theorem walk_of_none {c : C} (h : next c = none) (n : ℕ) : walk next n c = c := by
  induction n with
  | zero => rfl
  | succ n ih => rw [walk_succ, h, Option.getD_none, ih]

theorem walk_add (m n : ℕ) (c : C) : walk next (m + n) c = walk next n (walk next m c) := by
  induction m generalizing c with
  | zero => rw [Nat.zero_add, walk_zero]
  | succ m ih => rw [Nat.succ_add, walk_succ, walk_succ, ih]

/-- Behind the end there is nothing more. -/
theorem walk_of_stopped {m n : ℕ} {c : C} (h : next (walk next m c) = none) (hle : m ≤ n) :
    walk next n c = walk next m c := by
  obtain ⟨k, rfl⟩ := Nat.exists_eq_add_of_le hle
  rw [walk_add, walk_of_none h]

/-- An annotation that each step keeps. -/
def Kept (next : C → Option C) (A : C → Prop) : Prop := ∀ c c', A c → next c = some c' → A c'

namespace Kept

variable {A : C → Prop}

theorem getD (h : Kept next A) {c : C} (hc : A c) : A ((next c).getD c) := by
  cases hnext : next c with
  | none => exact hc
  | some c' => exact h c c' hc hnext

/-- **The rule of annotations.** -/
theorem walk (h : Kept next A) {c : C} (hc : A c) (n : ℕ) : A (walk next n c) := by
  induction n generalizing c with
  | zero => exact hc
  | succ n ih => exact ih (h.getD hc)

/-- **The rule of variants**: the program has stopped after as many steps as the variant of its
first configuration says. -/
theorem stopped (h : Kept next A) {μ : C → ℕ}
    (hμ : ∀ c c', A c → next c = some c' → μ c' < μ c) {c : C} (hc : A c) {n : ℕ} (hn : μ c ≤ n) :
    next (Edps.walk next n c) = none := by
  induction n generalizing c with
  | zero =>
    cases hnext : next c with
    | none => exact hnext
    | some c' =>
      have := hμ c c' hc hnext
      omega
  | succ n ih =>
    rw [walk_succ]
    cases hnext : next c with
    | none => rw [Option.getD_none, walk_of_none hnext, hnext]
    | some c' =>
      have hlt := hμ c c' hc hnext
      exact ih (h c c' hc hnext) (by rw [Option.getD_some]; omega)

/-- **The rule of closed sets**: a program that keeps within configurations it does not stop in
never stops. -/
theorem never_stops (h : Kept next A) (hnext : ∀ c, A c → (next c).isSome) {c : C} (hc : A c)
    (n : ℕ) : (next (Edps.walk next n c)).isSome := hnext _ (h.walk hc n)

end Kept

/-- On inputs that meet `P` the machine does what the program does; where the program has stopped,
nothing that `Rel` sees. -/
def Follows (M : Machine S I O) (P : I → Prop) (next : C → Option C) (Rel : S → C → Prop) : Prop :=
  ∀ s c i, Rel s c → P i → Rel (M.next s i).1 ((next c).getD c)

/-- **Step by step.** -/
theorem Follows.after {M : Machine S I O} {P : I → Prop} {Rel : S → C → Prop}
    (h : Follows M P next Rel) {s : S} {c : C} (hs : Rel s c) {is : List I} (his : ∀ i ∈ is, P i) :
    Rel (M.after s is) (walk next is.length c) := by
  induction is generalizing s c with
  | nil => exact hs
  | cons i is ih =>
    obtain ⟨hi, hrest⟩ := List.forall_mem_cons.1 his
    exact ih (h s c i hs hi) hrest

/-! ### Programs with inputs -/

namespace Machine

variable {T J P : Type*}

/-- **The rule of answers**: if each step of a machine is one of another machine on what `read`
makes of its output, so is a run. -/
theorem simulates {M : Machine S I O} {N : Machine T J P} {Q : S → I → Prop} {read : I → O → J}
    {Rel : S → T → Prop}
    (h : ∀ s t i, Rel s t → Q s i → Rel (M.next s i).1 (N.next t (read i (M.next s i).2)).1)
    {s : S} {t : T} (hs : Rel s t) {is : List I} (his : M.EachStep Q s is) :
    Rel (M.after s is) (N.after t (List.zipWith read is (M.outs s is))) := by
  induction is generalizing s t with
  | nil => exact hs
  | cons i is ih => exact ih (h s t i hs his.1) his.2

end Machine

end Edps
