import Edps.Lib.Runs
import Mathlib.Data.List.Infix
import Mathlib.Data.List.Nodup

/-!
# Queues served from the front

A queue that a machine keeps in its state: a step either takes the front or only adds at the back.
Some queues refuse an item that is waiting already.

* `Fifo.pushNew` : adding an item unless it is waiting.
* `Fifo.FrontServed` : the step condition of a machine with such a queue.
* `Fifo.waits_or_served` : an item that is waiting is waiting still, or has been served.
* `Fifo.served_of_mem` : it has been served when the front was taken as often as the queue is
  long.
-/

namespace Edps

namespace Fifo

/-! ### Items that wait once -/

section PushNew

variable {α : Type*} [DecidableEq α]

/-- An item is added at the back unless it is waiting. -/
def pushNew (q : List α) (a : α) : List α := if a ∈ q then q else q ++ [a]

/-- What is added by `pushNew`. -/
def added (q : List α) (a : α) : List α := if a ∈ q then [] else [a]

theorem pushNew_eq (q : List α) (a : α) : pushNew q a = q ++ added q a := by
  unfold pushNew added
  split_ifs
  · exact (List.append_nil q).symm
  · rfl

theorem mem_pushNew {q : List α} {a b : α} : b ∈ pushNew q a ↔ b ∈ q ∨ b = a := by
  unfold pushNew
  split_ifs with h
  · exact ⟨.inl, fun hb => hb.elim id fun hb => hb ▸ h⟩
  · simp

theorem nodup_pushNew {q : List α} (hq : q.Nodup) (a : α) : (pushNew q a).Nodup := by
  unfold pushNew
  split_ifs with h
  · exact hq
  · refine List.nodup_append.2 ⟨hq, List.nodup_singleton a, ?_⟩
    intro b hb c hc he
    rw [List.mem_singleton.1 hc] at he
    exact h (he ▸ hb)

/-- Several items added, one after the other. -/
theorem mem_foldl_pushNew {q as : List α} {b : α} :
    b ∈ as.foldl pushNew q ↔ b ∈ q ∨ b ∈ as := by
  induction as generalizing q with
  | nil => simp
  | cons a as ih => rw [List.foldl_cons, ih, mem_pushNew, List.mem_cons, or_assoc]

theorem nodup_foldl_pushNew {q : List α} (hq : q.Nodup) (as : List α) :
    (as.foldl pushNew q).Nodup := by
  induction as generalizing q with
  | nil => exact hq
  | cons a as ih => exact ih (nodup_pushNew hq a)

theorem prefix_foldl_pushNew (q as : List α) : q <+: as.foldl pushNew q := by
  induction as generalizing q with
  | nil => exact List.prefix_rfl
  | cons a as ih =>
    have hfirst : q <+: pushNew q a := by
      rw [pushNew_eq]
      exact List.prefix_append q _
    exact hfirst.trans (ih _)

theorem count_foldl_pushNew_le [BEq α] [LawfulBEq α] (q as : List α) (b : α) :
    (as.foldl pushNew q).count b ≤ q.count b + as.count b := by
  induction as generalizing q with
  | nil => simp
  | cons a as ih =>
    have hfirst : (pushNew q a).count b ≤ q.count b + [a].count b := by
      rw [pushNew_eq, List.count_append]
      unfold added
      split_ifs
      · simp
      · exact le_rfl
    have hsplit : (a :: as).count b = [a].count b + as.count b := by
      rw [← List.singleton_append, List.count_append]
    have hrest := ih (pushNew q a)
    rw [List.foldl_cons, hsplit]
    omega

end PushNew

/-! ### Serving the front -/

section Serving

variable {S I O α : Type*}

/-- Under an invariant, a step that takes serves the front, and no step changes the order of the
items behind it. -/
structure FrontServed (M : Machine S I O) (Inv : S → Prop) (ok : S → I → Prop)
    (queue : S → List α) (takes : I → Bool) (served : O → Option α) : Prop where
  keeps : ∀ s i, Inv s → ok s i → Inv (M.next s i).1
  adds : ∀ s i, Inv s → ok s i → takes i = false → queue s <+: queue (M.next s i).1
  front : ∀ s i, Inv s → ok s i → takes i = true → ∀ a q, queue s = a :: q →
    served (M.next s i).2 = some a ∧ q <+: queue (M.next s i).1

variable {M : Machine S I O} {Inv : S → Prop} {ok : S → I → Prop} {queue : S → List α}
  {takes : I → Bool} {served : O → Option α}

/-- **An item moves to the front**: after a run, an item with `front` before it has been served, or
it is waiting with as many less before it as the front was taken. -/
theorem served_or_closer (h : FrontServed M Inv ok queue takes served) {s : S} {is : List I}
    (hs : Inv s) (hok : M.EachStep ok s is) {front back : List α} {a : α}
    (hq : queue s = front ++ a :: back) :
    (∃ o ∈ M.outs s is, served o = some a) ∨
      ∃ front' back', queue (M.after s is) = front' ++ a :: back' ∧
        front'.length + is.countP takes = front.length := by
  induction is generalizing s front back with
  | nil => exact .inr ⟨front, back, hq, rfl⟩
  | cons i is ih =>
    have hs' := h.keeps s i hs hok.1
    cases ht : takes i with
    | false =>
      -- only added at the back
      obtain ⟨more, hmore⟩ := h.adds s i hs hok.1 ht
      have hq' : queue (M.next s i).1 = front ++ a :: (back ++ more) := by
        rw [← hmore, hq, List.append_assoc, List.cons_append]
      rcases ih hs' hok.2 hq' with ⟨o, ho, hserved⟩ | ⟨front', back', hafter, hlen⟩
      · exact .inl ⟨o, List.mem_cons_of_mem _ ho, hserved⟩
      · refine .inr ⟨front', back', hafter, ?_⟩
        rw [List.countP_cons_of_neg (by simp [ht])]
        exact hlen
    | true =>
      cases front with
      | nil =>
        obtain ⟨hserved, -⟩ := h.front s i hs hok.1 ht a back hq
        exact .inl ⟨_, List.mem_cons_self, hserved⟩
      | cons b front =>
        obtain ⟨-, more, hmore⟩ := h.front s i hs hok.1 ht b (front ++ a :: back) hq
        have hq' : queue (M.next s i).1 = front ++ a :: (back ++ more) := by
          rw [← hmore, List.append_assoc, List.cons_append]
        rcases ih hs' hok.2 hq' with ⟨o, ho, hserved⟩ | ⟨front', back', hafter, hlen⟩
        · exact .inl ⟨o, List.mem_cons_of_mem _ ho, hserved⟩
        · refine .inr ⟨front', back', hafter, ?_⟩
          rw [List.countP_cons_of_pos ht, List.length_cons, ← hlen]
          rfl

/-- **Nothing leaves the queue unserved.** -/
theorem waits_or_served (h : FrontServed M Inv ok queue takes served) {s : S} {is : List I}
    (hs : Inv s) (hok : M.EachStep ok s is) {a : α} (ha : a ∈ queue s) :
    a ∈ queue (M.after s is) ∨ ∃ o ∈ M.outs s is, served o = some a := by
  obtain ⟨front, back, hq⟩ := List.append_of_mem ha
  rcases served_or_closer h hs hok hq with hserved | ⟨front', back', hafter, -⟩
  · exact .inr hserved
  · exact .inl (hafter ▸ List.mem_append_right _ List.mem_cons_self)

/-- **An item is served in time**: when the front is taken as often as the queue is long. -/
theorem served_of_mem (h : FrontServed M Inv ok queue takes served) {s : S} {is : List I}
    (hs : Inv s) (hok : M.EachStep ok s is) {a : α} (ha : a ∈ queue s)
    (hlen : (queue s).length ≤ is.countP takes) : ∃ o ∈ M.outs s is, served o = some a := by
  obtain ⟨front, back, hq⟩ := List.append_of_mem ha
  rcases served_or_closer h hs hok hq with hserved | ⟨front', back', -, hcount⟩
  · exact hserved
  · rw [hq, List.length_append, List.length_cons] at hlen
    omega

end Serving

end Fifo

end Edps
