import Mathlib.Data.List.Forall2
import Mathlib.Data.List.Nodup

/-!
# Lists of records with distinct keys

A table kept as a list is changed by key: one record is found and updated, a batch of answers is
handed out to the records they belong to.

* `Keyed.update` : the record with a key changed.
* `Keyed.assign` : every record takes the answer with its key, if there is one.
* `Keyed.find?_update`, `Keyed.findIdx?_filter_eq_none` : looking up.
* `Keyed.modify_findIdx?` : changing the first record with a key changes the record with that key.
* `Keyed.foldl_update` : answers handed out one by one are assigned.
* `Keyed.merge_eq_assign` : so are answers handed out in a single pass, when they come in the
  order of the records.
-/

namespace Edps

namespace Keyed

variable {α β κ : Type*} [DecidableEq κ] {key : α → κ} {keyB : β → κ} {upd : α → β → α}

/-- The records with the key `k` changed. -/
def update (key : α → κ) (k : κ) (f : α → α) (xs : List α) : List α :=
  xs.map fun x => if key x = k then f x else x

/-- Every record takes the first answer with its key, if there is one. -/
def assign (key : α → κ) (keyB : β → κ) (upd : α → β → α) (bs : List β) (xs : List α) : List α :=
  xs.map fun x => (bs.find? fun b => keyB b = key x).elim x (upd x)

/-- A single pass over the records: the next answer goes to the next record with its key, and
the pass ends with the answers. -/
def merge (key : α → κ) (keyB : β → κ) (upd : α → β → α) : List α → List β → List α
  | [], _ => []
  | x :: xs, [] => x :: xs
  | x :: xs, b :: bs =>
    if key x = keyB b then upd x b :: merge key keyB upd xs bs
    else x :: merge key keyB upd xs (b :: bs)

/-! ### Related lists -/

theorem exists_of_forall₂ {T : α → β → Prop} {xs : List α} {ys : List β}
    (h : List.Forall₂ T xs ys) {x : α} (hx : x ∈ xs) : ∃ y ∈ ys, T x y := by
  induction h with
  | nil => cases hx
  | cons hxy _ ih =>
    rcases List.mem_cons.1 hx with rfl | hx
    · exact ⟨_, List.mem_cons_self, hxy⟩
    · obtain ⟨y, hy, hT⟩ := ih hx
      exact ⟨y, List.mem_cons_of_mem _ hy, hT⟩

theorem forall₂_iff_map_eq {γ δ : Type*} {c : α → δ} {d : γ → δ} {xs : List α} {ys : List γ} :
    List.Forall₂ (fun x y => c x = d y) xs ys ↔ xs.map c = ys.map d := by
  rw [← List.forall₂_eq_eq_eq, List.forall₂_map_left_iff, List.forall₂_map_right_iff]

theorem forall₂_and {S T : α → β → Prop} {xs : List α} {ys : List β} (hS : List.Forall₂ S xs ys)
    (hT : List.Forall₂ T xs ys) : List.Forall₂ (fun x y => S x y ∧ T x y) xs ys := by
  induction hS with
  | nil => exact .nil
  | cons hxy _ ih =>
    cases hT with
    | cons hxy' hT => exact .cons ⟨hxy, hxy'⟩ (ih hT)

theorem map_eq_of_forall₂ {T : α → α → Prop} {c : α → β} (hT : ∀ x y, T x y → c x = c y)
    {xs ys : List α} (h : List.Forall₂ T xs ys) : xs.map c = ys.map c := by
  induction h with
  | nil => rfl
  | cons hxy _ ih => rw [List.map_cons, List.map_cons, ih, hT _ _ hxy]

/-! ### Looking up -/

theorem findIdx?_congr {p q : α → Bool} {xs : List α} (h : ∀ x ∈ xs, p x = q x) :
    xs.findIdx? p = xs.findIdx? q := by
  induction xs with
  | nil => rfl
  | cons x xs ih =>
    obtain ⟨hx, hxs⟩ := List.forall_mem_cons.1 h
    rw [List.findIdx?_cons, List.findIdx?_cons, hx, ih hxs]

/-- The record with the key of a record of the list. -/
theorem find?_key {xs : List α} (hnd : (xs.map key).Nodup) {x : α} (hx : x ∈ xs) :
    xs.find? (fun y => key y = key x) = some x := by
  cases hfind : xs.find? fun y => key y = key x with
  | none =>
    rw [List.find?_eq_none] at hfind
    exact absurd (decide_eq_true rfl) (hfind x hx)
  | some y =>
    have hkey : key y = key x := by simpa using List.find?_some hfind
    rw [List.inj_on_of_nodup_map hnd (List.mem_of_find?_eq_some hfind) hx hkey]

/-- A record is among the selected ones if it is selected. -/
theorem findIdx?_filter_eq_none {xs : List α} (hnd : (xs.map key).Nodup) {x : α} (hx : x ∈ xs)
    (p : α → Bool) : (xs.filter p).findIdx? (fun y => key y = key x) = none ↔ p x = false := by
  rw [List.findIdx?_eq_none_iff]
  constructor
  · intro h
    by_contra hp
    have hmem : x ∈ xs.filter p := List.mem_filter.2 ⟨hx, by simpa using hp⟩
    simpa using h x hmem
  · intro hp y hy
    obtain ⟨hy, hpy⟩ := List.mem_filter.1 hy
    rw [decide_eq_false_iff_not]
    intro hkey
    rw [List.inj_on_of_nodup_map hnd hy hx hkey, hp] at hpy
    cases hpy

/-! ### One record -/

theorem update_cons (k : κ) (f : α → α) (x : α) (xs : List α) :
    update key k f (x :: xs) = (if key x = k then f x else x) :: update key k f xs := rfl

theorem update_of_notMem {k : κ} {f : α → α} {xs : List α} (h : k ∉ xs.map key) :
    update key k f xs = xs := by
  refine (List.map_congr_left fun x hx => ?_).trans (List.map_id _)
  have hne : key x ≠ k := fun he => h (he ▸ List.mem_map_of_mem hx)
  simp [hne]

/-- What a change leaves alone. -/
theorem map_update {c : α → β} {k : κ} {f : α → α} (h : ∀ x, c (f x) = c x) (xs : List α) :
    (update key k f xs).map c = xs.map c := by
  rw [update, List.map_map]
  refine List.map_congr_left fun x _ => ?_
  rw [Function.comp_apply]
  split_ifs
  · exact h x
  · rfl

/-- The record with a key is the last one. -/
theorem update_concat {k : κ} {f : α → α} {x : α} {xs : List α} (h : k ∉ xs.map key)
    (hx : key x = k) : update key k f (xs ++ [x]) = xs ++ [f x] := by
  have hold : xs.map (fun y => if key y = k then f y else y) = xs := update_of_notMem h
  rw [update, List.map_append, hold, List.map_singleton, if_pos hx]

/-- Looking up a record after one was changed. -/
theorem find?_update {k k' : κ} {f : α → α} (hf : ∀ x, key (f x) = k) (xs : List α) :
    (update key k f xs).find? (fun x => key x = k') =
      if k' = k then (xs.find? fun x => key x = k).map f else xs.find? fun x => key x = k' := by
  induction xs with
  | nil => simp [update]
  | cons x xs ih =>
    rw [update_cons, List.find?_cons, List.find?_cons, List.find?_cons, ih]
    by_cases hx : key x = k
    · by_cases hk : k' = k
      · simp [hx, hk, hf]
      · simp [hx, hk, hf, Ne.symm hk]
    · by_cases hk : k' = k
      · simp [hx, hk]
      · simp [hx, hk]

/-- A change at a position is one of the record with the key found there. -/
theorem modify_eq_update {f : α → α} {x : α} {xs : List α} {i : ℕ} (hnd : (xs.map key).Nodup)
    (h : xs[i]? = some x) : xs.modify i f = update key (key x) f xs := by
  induction xs generalizing i with
  | nil => simp at h
  | cons y xs ih =>
    rw [List.map_cons, List.nodup_cons] at hnd
    cases i with
    | zero =>
      obtain rfl : y = x := by simpa using h
      rw [update_cons, if_pos rfl, update_of_notMem hnd.1]
      rfl
    | succ i =>
      have hx : xs[i]? = some x := by simpa using h
      have hne : key y ≠ key x := fun he =>
        hnd.1 (he ▸ List.mem_map_of_mem (List.mem_of_getElem? hx))
      rw [update_cons, if_neg hne, ← ih hnd.2 hx]
      rfl

/-- **The first record with a key** is the record with that key. -/
theorem modify_findIdx? {k : κ} {f : α → α} {xs : List α} (hnd : (xs.map key).Nodup) :
    (xs.findIdx? fun x => key x = k).elim xs (fun i => xs.modify i f) = update key k f xs := by
  cases hfind : xs.findIdx? fun x => key x = k with
  | none =>
    rw [List.findIdx?_eq_none_iff] at hfind
    have hnot : k ∉ xs.map key := by
      intro hmem
      obtain ⟨x, hx, hk⟩ := List.mem_map.1 hmem
      simpa [hk] using hfind x hx
    exact (update_of_notMem hnot).symm
  | some i =>
    obtain ⟨hi, hk, -⟩ := List.findIdx?_eq_some_iff_getElem.1 hfind
    have hk : key xs[i] = k := of_decide_eq_true hk
    exact hk ▸ modify_eq_update hnd (List.getElem?_eq_getElem hi)

/-- A change at a position seen through a projection. -/
theorem map_modify {c : α → β} {f : α → α} (f' : β → β) (h : ∀ x, c (f x) = f' (c x))
    (xs : List α) (i : ℕ) : (xs.modify i f).map c = (xs.map c).modify i f' := by
  induction xs generalizing i with
  | nil => simp
  | cons x xs ih => cases i <;> simp [h, ih]

/-- A change that a projection does not see. -/
theorem map_modify_of_eq {c : α → β} {f : α → α} (h : ∀ x, c (f x) = c x) (xs : List α) (i : ℕ) :
    (xs.modify i f).map c = xs.map c := by
  induction xs generalizing i with
  | nil => simp
  | cons x xs ih => cases i <;> simp [h, ih]

/-! ### Batches -/

theorem assign_nil (xs : List α) : assign key keyB upd [] xs = xs := by
  simp [assign]

/-- A record that no answer is for keeps what it has. -/
theorem assign_cons_of_notMem {b : β} {bs : List β} {xs : List α} (h : keyB b ∉ xs.map key) :
    assign key keyB upd (b :: bs) xs = assign key keyB upd bs xs := by
  refine List.map_congr_left fun x hx => ?_
  have hne : keyB b ≠ key x := fun he => h (he ▸ List.mem_map_of_mem hx)
  simp [hne]

/-- **Answers handed out one by one.** -/
theorem foldl_update (hupd : ∀ x b, key (upd x b) = key x) {bs : List β}
    (hnd : (bs.map keyB).Nodup) (xs : List α) :
    bs.foldl (fun xs b => update key (keyB b) (fun x => upd x b) xs) xs =
      assign key keyB upd bs xs := by
  induction bs generalizing xs with
  | nil => exact (assign_nil xs).symm
  | cons b bs ih =>
    rw [List.map_cons, List.nodup_cons] at hnd
    rw [List.foldl_cons, ih hnd.2, update, assign, assign, List.map_map]
    refine List.map_congr_left fun x _ => ?_
    simp only [Function.comp_apply]
    by_cases hx : key x = keyB b
    · have hnone : bs.find? (fun c => keyB c = keyB b) = none := by
        rw [List.find?_eq_none]
        intro c hc he
        exact hnd.1 ((of_decide_eq_true he) ▸ List.mem_map_of_mem hc)
      simp [hx, hupd, hnone]
    · simp [hx, Ne.symm hx]

/-- **Answers handed out in a single pass.**  Answers that come in the order of the records
reach the records with their keys. -/
theorem merge_eq_assign {xs : List α} {bs : List β} (hnd : (xs.map key).Nodup)
    (hsub : (bs.map keyB).Sublist (xs.map key)) :
    merge key keyB upd xs bs = assign key keyB upd bs xs := by
  induction xs generalizing bs with
  | nil => rfl
  | cons x xs ih =>
    cases bs with
    | nil => rw [assign_nil, merge]
    | cons b bs =>
      rw [List.map_cons, List.nodup_cons] at hnd
      rw [List.map_cons, List.map_cons] at hsub
      rw [merge]
      split_ifs with hx
      · -- the record of the answer: no later answer is for it
        rw [← hx, List.cons_sublist_cons] at hsub
        have hnot : keyB b ∉ xs.map key := hx ▸ hnd.1
        rw [ih hnd.2 hsub, ← assign_cons_of_notMem hnot]
        simp [assign, List.find?_cons, hx]
      · -- another record: no answer is for it
        have hsub : ((b :: bs).map keyB).Sublist (xs.map key) := by
          rw [List.map_cons]
          exact (List.sublist_cons_iff.1 hsub).resolve_right fun ⟨r, hr, _⟩ =>
            hx (List.cons.inj hr).1.symm
        have hnone : (b :: bs).find? (fun c => keyB c = key x) = none := by
          rw [List.find?_eq_none]
          intro c hc he
          have hmem : keyB c ∈ (b :: bs).map keyB := List.mem_map_of_mem hc
          exact hnd.1 ((of_decide_eq_true he) ▸ hsub.subset hmem)
        rw [ih hnd.2 hsub, assign, assign, List.map_cons, hnone]
        rfl

/-- Answers given by position, to records in a list. -/
theorem find?_map_range (keyB : β → κ) {xs : List α} {answer : ℕ → β}
    (h : ∀ n x, xs[n]? = some x → keyB (answer n) = key x) (k : κ) :
    ((List.range xs.length).map answer).find? (fun b => keyB b = k) =
      (xs.findIdx? fun x => key x = k).map answer := by
  have hkey {n : ℕ} (hn : n < xs.length) : keyB (answer n) = key xs[n] :=
    h n _ (List.getElem?_eq_getElem hn)
  cases hfind : xs.findIdx? fun x => key x = k with
  | none =>
    rw [List.findIdx?_eq_none_iff] at hfind
    rw [Option.map_none, List.find?_eq_none]
    intro b hb
    obtain ⟨n, hn, rfl⟩ := List.mem_map.1 hb
    have hn := List.mem_range.1 hn
    simpa [hkey hn] using hfind _ (List.getElem_mem hn)
  | some i =>
    obtain ⟨hi, hik, hbefore⟩ := List.findIdx?_eq_some_iff_getElem.1 hfind
    have hrange : (List.range xs.length).find? (fun n => keyB (answer n) = k) = some i := by
      rw [List.find?_range_eq_some]
      refine ⟨by simpa [hkey hi] using hik, List.mem_range.2 hi, fun j hj => ?_⟩
      simpa [hkey (Nat.lt_trans hj hi)] using hbefore j hj
    rw [List.find?_map, Option.map_some]
    exact congrArg (Option.map answer) hrange

/-- Answers to all records, in their order. -/
theorem merge_eq_zipWith {xs : List α} {bs : List β} (h : bs.map keyB = xs.map key) :
    merge key keyB upd xs bs = List.zipWith upd xs bs := by
  induction xs generalizing bs with
  | nil => rfl
  | cons x xs ih =>
    cases bs with
    | nil => cases h
    | cons b bs =>
      rw [List.map_cons, List.map_cons] at h
      obtain ⟨hx, hrest⟩ := List.cons.inj h
      rw [merge, if_pos hx.symm, ih hrest, List.zipWith_cons_cons]

/-- **One answer** goes to the first record with its key. -/
theorem merge_one {xs : List α} {b : β} {i : ℕ} {x : α} (hi : xs[i]? = some x)
    (hx : key x = keyB b) (hfirst : ∀ y ∈ xs.take i, key y ≠ keyB b) :
    merge key keyB upd xs [b] = xs.modify i fun y => upd y b := by
  induction xs generalizing i with
  | nil => simp at hi
  | cons y xs ih =>
    cases i with
    | zero =>
      obtain rfl : y = x := by simpa using hi
      rw [merge, if_pos hx, List.modify_zero_cons]
      cases xs <;> rfl
    | succ i =>
      rw [List.take_succ_cons, List.forall_mem_cons] at hfirst
      rw [merge, if_neg hfirst.1, List.modify_succ_cons, ih (by simpa using hi) hfirst.2]

/-- One record changed so that it is selected, among records that are not. -/
theorem filter_modify {p : α → Bool} {f : α → α} {xs : List α} {i : ℕ} {x : α}
    (hnone : ∀ y ∈ xs, p y = false) (hi : xs[i]? = some x) :
    (xs.modify i f).filter p = if p (f x) then [f x] else [] := by
  induction xs generalizing i with
  | nil => simp at hi
  | cons y xs ih =>
    obtain ⟨hy, hxs⟩ := List.forall_mem_cons.1 hnone
    cases i with
    | zero =>
      obtain rfl : y = x := by simpa using hi
      have hrest : xs.filter p = [] := List.filter_eq_nil_iff.2 fun z hz => by simp [hxs z hz]
      rw [List.modify_zero_cons, List.filter_cons, hrest]
    | succ i =>
      rw [List.modify_succ_cons, List.filter_cons, hy, if_neg Bool.false_ne_true,
        ih hxs (by simpa using hi)]

/-- What holds of all records still does when one is changed into a record it holds of. -/
theorem forall_mem_modify {P : α → Prop} {f : α → α} {xs : List α} {i : ℕ} {x : α}
    (h : ∀ y ∈ xs, P y) (hi : xs[i]? = some x) (hx : P (f x)) : ∀ y ∈ xs.modify i f, P y := by
  induction xs generalizing i with
  | nil => simp at hi
  | cons y xs ih =>
    obtain ⟨hy, hxs⟩ := List.forall_mem_cons.1 h
    cases i with
    | zero =>
      obtain rfl : y = x := by simpa using hi
      rw [List.modify_zero_cons, List.forall_mem_cons]
      exact ⟨hx, hxs⟩
    | succ i =>
      rw [List.modify_succ_cons, List.forall_mem_cons]
      exact ⟨hy, ih hxs (by simpa using hi)⟩

/-- What an answer may do to a record, a single pass does to the list. -/
theorem forall₂_merge {T : α → α → Prop} (hrefl : ∀ x, T x x) (hupd : ∀ x b, T (upd x b) x)
    (xs : List α) (bs : List β) : List.Forall₂ T (merge key keyB upd xs bs) xs := by
  induction xs generalizing bs with
  | nil => simp [merge]
  | cons x xs ih =>
    cases bs with
    | nil => exact List.forall₂_same.2 fun y _ => hrefl y
    | cons b bs =>
      rw [merge]
      split_ifs
      · exact .cons (hupd x b) (ih bs)
      · exact .cons (hrefl x) (ih (b :: bs))

end Keyed

end Edps
