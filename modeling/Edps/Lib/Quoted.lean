import Mathlib.Algebra.GroupWithZero.Nat
import Mathlib.Data.List.Count
import Mathlib.Tactic.Common

/-!
# Quoted literals

A text with literals between quotes, written piece by piece and read by going from one quote to the
next.

* `literals q` : what stands between the quotes `q` of a text; none when a quote is left open.
* `Segment` : a piece of a text that is meant to be plain, or to be a literal.
* `literals_flatMap_iff` : the literals read are those that were meant exactly when no piece holds
  a quote.
-/

namespace Edps

namespace Quoted

variable {α : Type*} [DecidableEq α] {q : α}

/-- The literals of a text, from a place outside them (`none`) or behind the beginning `acc` of
one. -/
def literalsFrom (q : α) : Option (List α) → List α → Option (List (List α))
  | none, [] => some []
  | some _, [] => none
  | none, c :: text => literalsFrom q (if c = q then some [] else none) text
  | some acc, c :: text =>
    if c = q then (literalsFrom q none text).map (acc :: ·)
    else literalsFrom q (some (acc ++ [c])) text

def literals (q : α) (text : List α) : Option (List (List α)) := literalsFrom q none text

@[simp] theorem literals_nil : literals q [] = some [] := rfl

/-- Text without a quote is passed over. -/
theorem literals_plain {text rest : List α} (h : q ∉ text) :
    literals q (text ++ rest) = literals q rest := by
  induction text with
  | nil => rfl
  | cons c text ih =>
    rw [List.mem_cons, not_or] at h
    have hstep : literals q (c :: text ++ rest) =
      literalsFrom q (if c = q then some [] else none) (text ++ rest) := rfl
    rw [hstep, if_neg (Ne.symm h.1)]
    exact ih h.2

/-- Behind the opening quote the content is collected up to the closing one. -/
theorem literalsFrom_content {acc content rest : List α} (h : q ∉ content) :
    literalsFrom q (some acc) (content ++ q :: rest) =
      (literals q rest).map ((acc ++ content) :: ·) := by
  induction content generalizing acc with
  | nil => rw [List.nil_append, List.append_nil, literalsFrom, if_pos rfl, literals]
  | cons c content ih =>
    rw [List.mem_cons, not_or] at h
    rw [List.cons_append, literalsFrom, if_neg (Ne.symm h.1), ih h.2, List.append_assoc,
      List.singleton_append]

/-- A literal is read whole. -/
theorem literals_quoted {content rest : List α} (h : q ∉ content) :
    literals q (q :: content ++ q :: rest) = (literals q rest).map (content :: ·) := by
  have hopen : literals q (q :: content ++ q :: rest) =
      literalsFrom q (if q = q then some [] else none) (content ++ q :: rest) := rfl
  rw [hopen, if_pos rfl, literalsFrom_content h, List.nil_append]

/-- Each literal takes two quotes. -/
theorem count_of_literalsFrom {state : Option (List α)} {text : List α} {ls : List (List α)}
    (h : literalsFrom q state text = some ls) :
    text.count q + state.toList.length = 2 * ls.length := by
  induction text generalizing state ls with
  | nil =>
    cases state with
    | none =>
      cases h
      rfl
    | some acc => cases h
  | cons c text ih =>
    cases state with
    | none =>
      rw [literalsFrom] at h
      by_cases hc : c = q
      · rw [if_pos hc] at h
        have hcount := ih h
        rw [hc, List.count_cons_self]
        simpa using hcount
      · rw [if_neg hc] at h
        rw [List.count_cons_of_ne hc]
        exact ih h
    | some acc =>
      rw [literalsFrom] at h
      by_cases hc : c = q
      · rw [if_pos hc] at h
        obtain ⟨ls', hls, rfl⟩ := Option.map_eq_some_iff.1 h
        have hcount := ih hls
        rw [hc, List.count_cons_self]
        simp only [Option.toList_none, List.length_nil, Option.toList_some, List.length_cons]
          at hcount ⊢
        omega
      · rw [if_neg hc] at h
        rw [List.count_cons_of_ne hc]
        simpa using ih h

theorem count_of_literals {text : List α} {ls : List (List α)} (h : literals q text = some ls) :
    text.count q = 2 * ls.length := by
  simpa using count_of_literalsFrom h

/-! ### Texts written piece by piece -/

/-- A piece of a text. -/
inductive Segment (α : Type*) where
  | plain (text : List α)
  | quoted (content : List α)
  deriving DecidableEq, Repr

namespace Segment

/-- What is written between the quotes, or without any. -/
def body : Segment α → List α
  | plain text => text
  | quoted content => content

/-- The piece as it is written. -/
def text (q : α) : Segment α → List α
  | plain text => text
  | quoted content => q :: content ++ [q]

/-- The literal that is meant. -/
def literal? : Segment α → Option (List α)
  | plain _ => none
  | quoted content => some content

end Segment

variable {segments : List (Segment α)}

/-- The quotes of the literals meant, and those that the pieces hold. -/
theorem count_flatMap_text (q : α) (segments : List (Segment α)) :
    (segments.flatMap (Segment.text q)).count q =
      2 * (segments.filterMap Segment.literal?).length +
        (segments.map fun s => s.body.count q).sum := by
  induction segments with
  | nil => rfl
  | cons s segments ih =>
    rw [List.flatMap_cons, List.count_append, ih, List.map_cons, List.sum_cons]
    cases s with
    | plain t =>
      rw [List.filterMap_cons_none rfl]
      simp only [Segment.text, Segment.body]
      omega
    | quoted content =>
      have hmeant : (Segment.quoted content).literal? = some content := rfl
      rw [List.filterMap_cons_some hmeant]
      simp only [Segment.text, Segment.body, List.count_append, List.count_cons_self,
        List.count_nil, List.length_cons]
      omega

theorem literals_flatMap (h : ∀ s ∈ segments, q ∉ s.body) :
    literals q (segments.flatMap (Segment.text q)) =
      some (segments.filterMap Segment.literal?) := by
  induction segments with
  | nil => rfl
  | cons s segments ih =>
    rw [List.forall_mem_cons] at h
    rw [List.flatMap_cons]
    cases s with
    | plain t =>
      have hbody : q ∉ t := h.1
      rw [Segment.text, literals_plain hbody, ih h.2, List.filterMap_cons_none rfl]
    | quoted content =>
      have hbody : q ∉ content := h.1
      have hmeant : (Segment.quoted content).literal? = some content := rfl
      rw [Segment.text, List.append_assoc, List.singleton_append, literals_quoted hbody, ih h.2,
        List.filterMap_cons_some hmeant]
      rfl

/-- **The literals read are those meant** exactly when no piece holds a quote. -/
theorem literals_flatMap_iff (q : α) (segments : List (Segment α)) :
    literals q (segments.flatMap (Segment.text q)) =
        some (segments.filterMap Segment.literal?) ↔ ∀ s ∈ segments, q ∉ s.body := by
  refine ⟨fun h => ?_, literals_flatMap⟩
  have hcount := count_of_literals h
  rw [count_flatMap_text] at hcount
  have hsum : (segments.map fun s => s.body.count q).sum = 0 := by omega
  intro s hs
  have hzero := List.sum_eq_zero_iff_forall_eq_nat.1 hsum _ (List.mem_map_of_mem hs)
  exact List.count_eq_zero.1 hzero

end Quoted

end Edps
