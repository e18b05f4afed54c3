import Mathlib.Data.List.Basic

/-!
# Heaps of objects

The objects `new` has made, in order: an address is a place in the list, and a deleted object
leaves its place empty, so that no address comes back.  Reading at an address gives nothing when
there is no object any more, which is where a program goes wrong.

* `get`, `store`, `new`, `delete` : the operations.
* `total f h`, `live P h` : a number added up over the objects, and how many of them satisfy `P`;
  one lemma for each operation.
-/

namespace Edps

/-- The objects made so far, `none` where one was deleted. -/
abbrev Heap (α : Type) := List (Option α)

namespace Heap

variable {α : Type}

/-- The object at an address. -/
def get (h : Heap α) (p : ℕ) : Option α := h[p]?.join

/-- An object overwritten. -/
def store (h : Heap α) (p : ℕ) (a : α) : Heap α := h.set p (some a)

/-- A new object, at the address `h.length`. -/
def new (h : Heap α) (a : α) : Heap α := h ++ [some a]

/-- An object deleted. -/
def delete (h : Heap α) (p : ℕ) : Heap α := h.set p none

/-- The number of objects with a property. -/
def live (P : α → Bool) (h : Heap α) : ℕ := h.countP fun x => x.any P

/-- A number added up over the objects. -/
def total (f : α → ℕ) (h : Heap α) : ℕ := h.foldr (fun x n => x.elim 0 f + n) 0

variable {h : Heap α} {p q : ℕ} {a b : α}

theorem get_eq_some : h.get p = some a ↔ h[p]? = some (some a) := by
  rw [get, Option.join_eq_some_iff]

theorem lt_of_get (hp : h.get p = some a) : p < h.length := by
  obtain ⟨hlt, -⟩ := List.getElem?_eq_some_iff.1 (get_eq_some.1 hp)
  exact hlt

theorem get_store_self (hp : h.get p = some b) : (h.store p a).get p = some a := by
  rw [get_eq_some, store, List.getElem?_set_self (lt_of_get hp)]

theorem get_store_ne (hne : q ≠ p) : (h.store p a).get q = h.get q := by
  rw [get, get, store, List.getElem?_set_ne hne.symm]

theorem get_delete_self : (h.delete p).get p = none := by
  rw [get, delete]
  by_cases hp : p < h.length
  · rw [List.getElem?_set_self hp]
    rfl
  · rw [List.getElem?_eq_none (by simpa using hp)]
    rfl

theorem get_delete_ne (hne : q ≠ p) : (h.delete p).get q = h.get q := by
  rw [get, get, delete, List.getElem?_set_ne hne.symm]

theorem get_new_self : (h.new a).get h.length = some a := by
  rw [get_eq_some, new, List.getElem?_concat_length]

/-- The other objects are where they were. -/
theorem get_new_ne (hne : p ≠ h.length) : (h.new a).get p = h.get p := by
  rw [get, get, new]
  by_cases hp : p < h.length
  · rw [List.getElem?_append_left hp]
  · rw [List.getElem?_eq_none (by simp; omega), List.getElem?_eq_none (by omega)]

theorem get_append_none (h : Heap α) (p : ℕ) : get (h ++ [none]) p = h.get p := by
  rw [get, get]
  rcases Nat.lt_trichotomy p h.length with hp | hp | hp
  · rw [List.getElem?_append_left hp]
  · rw [hp, List.getElem?_concat_length, List.getElem?_eq_none (Nat.le_refl _)]
    rfl
  · rw [List.getElem?_eq_none (by simp; omega), List.getElem?_eq_none (by omega)]

theorem store_get (hp : h.get p = some a) : h.store p a = h := by
  obtain ⟨hlt, heq⟩ := List.getElem?_eq_some_iff.1 (get_eq_some.1 hp)
  rw [store, ← heq, List.set_getElem_self]

theorem store_store : (h.store p a).store p b = h.store p b := by
  rw [store, store, store, List.set_set]

theorem store_new : (h.new a).store h.length b = h.new b := by
  rw [store, new, new, List.set_append_right _ _ (Nat.le_refl _), Nat.sub_self]
  rfl

theorem delete_store : (h.store p a).delete p = h.delete p := by
  rw [store, delete, delete, List.set_set]

theorem delete_new : (h.new a).delete h.length = h ++ [none] := by
  rw [delete, new, List.set_append_right _ _ (Nat.le_refl _), Nat.sub_self]
  rfl

/-! ### Adding up over the objects -/

section Total

variable {f : α → ℕ}

/-- What is added up at one place. -/
theorem total_set_add {x y : Option α} (hp : h[p]? = some x) :
    total f (h.set p y) + x.elim 0 f = h.total f + y.elim 0 f := by
  unfold total
  induction h generalizing p with
  | nil => simp at hp
  | cons z h ih =>
    cases p with
    | zero =>
      obtain rfl : z = x := by simpa using hp
      simp only [List.set_cons_zero, List.foldr_cons]
      omega
    | succ p =>
      have hrest := ih (p := p) (by simpa using hp)
      simp only [List.set_cons_succ, List.foldr_cons]
      omega

theorem total_store (hp : h.get p = some b) : (h.store p a).total f + f b = h.total f + f a :=
  total_set_add (get_eq_some.1 hp)

theorem total_delete (hp : h.get p = some b) : (h.delete p).total f + f b = h.total f :=
  total_set_add (y := none) (get_eq_some.1 hp)

theorem total_new : (h.new a).total f = h.total f + f a := by
  unfold total new
  induction h with
  | nil => exact Nat.add_comm (f a) 0
  | cons x h ih => rw [List.cons_append, List.foldr_cons, ih, List.foldr_cons, Nat.add_assoc]

end Total

/-! ### Counting objects -/

variable {P : α → Bool}

theorem live_eq_total : h.live P = h.total fun a => (P a).toNat := by
  rw [live, total, List.countP_eq_length_filter]
  induction h with
  | nil => rfl
  | cons x h ih =>
    rw [List.foldr_cons, ← ih]
    cases x with
    | none => simp
    | some a => cases hP : P a <;> simp [hP, Nat.add_comm]

theorem live_store (hp : h.get p = some b) :
    (h.store p a).live P + (P b).toNat = h.live P + (P a).toNat := by
  simpa only [live_eq_total] using total_store hp

theorem live_delete (hp : h.get p = some b) : (h.delete p).live P + (P b).toNat = h.live P := by
  simpa only [live_eq_total] using total_delete hp

theorem live_new : (h.new a).live P = h.live P + (P a).toNat := by
  simpa only [live_eq_total] using total_new

theorem live_append_none : live P (h ++ [none]) = h.live P := by
  simp [live]

theorem live_eq_zero : h.live P = 0 ↔ ∀ p a, h.get p = some a → P a = false := by
  rw [live, List.countP_eq_zero]
  constructor
  · intro hnone p a hp
    have hmem := List.mem_of_getElem? (get_eq_some.1 hp)
    simpa using hnone _ hmem
  · rintro hnone (_ | a) hmem
    · simp
    · obtain ⟨p, hp⟩ := List.getElem?_of_mem hmem
      simpa using hnone p a (get_eq_some.2 hp)

end Heap

end Edps
