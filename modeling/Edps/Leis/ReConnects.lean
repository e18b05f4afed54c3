import Edps.Leis.Queue

/-!
# Reconnecting before a statement

`SQLExecute` opens a broken connection again before it executes a statement.  Its loop counts the
attempts and gives up behind the attempt that exceeds `iRepQty`, before its condition is tested:
the last attempt is made, but not looked at.

* `DB.acts` : the attempts and the statement, as the engine sees them.
* `sqlExecute_executes` : the result tells whether the statement has been executed.
* `usesReConnects_iff` : a reconnect that succeeds is used exactly when it is not the last one.
-/

namespace Edps

namespace Leis

open Vb

/-- What a call of `SQLExecute` asks of the engine. -/
inductive EngineAct where
  /-- `ReConnect`, and whether it opens the connection. -/
  | reConnect (opened : Bool)
  /-- `cmdSQL.Execute` -/
  | execute
  deriving DecidableEq, Repr

/-- The attempts of the loop, when `left` of them are looked at and `iI` have been made. -/
def Engine.attempts (e : Engine) : ℕ → ℕ → List EngineAct
  | 0, iI => [.reConnect (e.opens iI)]
  | left + 1, iI =>
    if e.opens iI then [.reConnect true] else .reConnect false :: e.attempts left (iI + 1)

/-- The acts of a call of `SQLExecute`, in their order. -/
def DB.acts (db : DB) (iRepQty : ℤ) (e : Engine) : List EngineAct :=
  if db.bConnPermission then
    if db.bConnStatus then [.execute]
    else e.attempts iRepQty.toNat 0 ++
      if (e.reConnect iRepQty.toNat 0).2 then [.execute] else []
  else []

/-! ### The attempts -/

theorem execute_notMem_attempts (e : Engine) (left iI : ℕ) :
    EngineAct.execute ∉ e.attempts left iI := by
  induction left generalizing iI with
  | zero => simp [Engine.attempts]
  | succ left ih =>
    rw [Engine.attempts]
    split_ifs
    · simp
    · simpa using ih (iI + 1)

/-- The loop leaves the connection open when one of its attempts succeeds. -/
theorem opened_mem_attempts (e : Engine) (left iI : ℕ) :
    EngineAct.reConnect true ∈ e.attempts left iI ↔ (e.reConnect left iI).1 = true := by
  induction left generalizing iI with
  | zero =>
    rw [Engine.attempts, Engine.reConnect, List.mem_singleton, EngineAct.reConnect.injEq, eq_comm]
  | succ left ih =>
    rw [Engine.attempts, Engine.reConnect]
    split_ifs
    · simp
    · simpa using ih (iI + 1)

/-- **The last attempt** is the one that may open the connection without being looked at. -/
theorem reConnect_opened (e : Engine) (left iI : ℕ) :
    (e.reConnect left iI).1 = true ↔
      (e.reConnect left iI).2 = true ∨ e.opens (iI + left) = true := by
  induction left generalizing iI with
  | zero => simp [Engine.reConnect]
  | succ left ih =>
    rw [Engine.reConnect]
    split_ifs
    · simp
    · rw [ih, Nat.add_right_comm, Nat.add_assoc]

/-! ### The statement -/

variable {db : DB} {iRepQty : ℤ} {e : Engine} {strCmdText : VbString}

/-- What the engine makes of the statement. -/
def Engine.result (e : Engine) (strCmdText : VbString) : SqlResult :=
  match e.execute with
  | .ok () => .done
  | .error description => sError description strCmdText

/-- The acts from a connection that is broken but permitted. -/
theorem acts_broken (iRepQty : ℤ) (e : Engine) :
    DB.acts ⟨true, false⟩ iRepQty e = e.attempts iRepQty.toNat 0 ++
      if (e.reConnect iRepQty.toNat 0).2 then [.execute] else [] := rfl

theorem execute_mem_acts_broken :
    EngineAct.execute ∈ DB.acts ⟨true, false⟩ iRepQty e ↔
      (e.reConnect iRepQty.toNat 0).2 = true := by
  rw [acts_broken, List.mem_append, or_iff_right (execute_notMem_attempts _ _ _)]
  split_ifs with h
  · exact iff_of_true (List.mem_singleton_self _) h
  · exact iff_of_false (by simp) h

theorem reConnect_mem_acts_broken {opened : Bool} :
    EngineAct.reConnect opened ∈ DB.acts ⟨true, false⟩ iRepQty e ↔
      EngineAct.reConnect opened ∈ e.attempts iRepQty.toNat 0 := by
  rw [acts_broken, List.mem_append]
  split_ifs <;> simp

/-- **The result tells whether the statement has been executed.** -/
theorem sqlExecute_executes (db : DB) (iRepQty : ℤ) (e : Engine) (strCmdText : VbString) :
    (db.sqlExecute iRepQty e strCmdText).1 =
      if .execute ∈ db.acts iRepQty e then e.result strCmdText
      else if db.bConnPermission then
        if iRepQty < 32767 then .broken else sError (vb "Overflow") strCmdText
      else .prohibited := by
  unfold DB.sqlExecute
  obtain ⟨bConnPermission, bConnStatus⟩ := db
  cases bConnPermission with
  | false => rfl
  | true =>
    cases bConnStatus with
    | true =>
      have hmem : EngineAct.execute ∈ DB.acts ⟨true, true⟩ iRepQty e := List.mem_singleton_self _
      rw [if_pos hmem, Engine.result]
      cases e.execute <;> rfl
    | false =>
      by_cases hin : (e.reConnect iRepQty.toNat 0).2 = true
      · rw [if_pos (execute_mem_acts_broken.2 hin), Engine.result]
        simp only [if_true, hin, Bool.false_eq_true, if_false]
        cases e.execute <;> rfl
      · rw [if_neg fun h => hin (execute_mem_acts_broken.1 h)]
        simp only [if_true, hin, Bool.false_eq_true, if_false]

/-! ### Reconnects that succeed -/

/-- The answer that the connection is broken is given only when every attempt has failed, and the
statement is executed when one has succeeded. -/
structure DB.UsesReConnects (db : DB) (iRepQty : ℤ) (e : Engine) (strCmdText : VbString) :
    Prop where
  broken : (db.sqlExecute iRepQty e strCmdText).1 = .broken →
    ∀ opened, EngineAct.reConnect opened ∈ db.acts iRepQty e → opened = false
  used : EngineAct.reConnect true ∈ db.acts iRepQty e → EngineAct.execute ∈ db.acts iRepQty e

/-- **When a reconnect that succeeds is used**: one of the attempts that are looked at succeeds, or
the last one fails too. -/
theorem usesReConnects_iff (iRepQty : ℤ) (e : Engine) (strCmdText : VbString) :
    DB.UsesReConnects ⟨true, false⟩ iRepQty e strCmdText ↔
      (∃ n < iRepQty.toNat, e.opens n = true) ∨ e.opens iRepQty.toNat = false := by
  have hloop : (e.reConnect iRepQty.toNat 0).2 = true ↔ ∃ n < iRepQty.toNat, e.opens n = true := by
    simpa using reConnect_connected e iRepQty.toNat 0
  have hopened := reConnect_opened e iRepQty.toNat 0
  rw [Nat.zero_add] at hopened
  rw [← hloop]
  constructor
  · intro h
    by_contra hno
    rw [not_or, Bool.not_eq_false] at hno
    have hmem := (opened_mem_attempts e _ 0).2 (hopened.2 (.inr hno.2))
    exact hno.1 (execute_mem_acts_broken.1 (h.used (reConnect_mem_acts_broken.2 hmem)))
  · intro h
    have hused : EngineAct.reConnect true ∈ DB.acts ⟨true, false⟩ iRepQty e →
        EngineAct.execute ∈ DB.acts ⟨true, false⟩ iRepQty e := by
      intro hmem
      rw [reConnect_mem_acts_broken, opened_mem_attempts, hopened] at hmem
      rw [execute_mem_acts_broken]
      rcases hmem with hin | hlast
      · exact hin
      · exact h.resolve_right (by simp [hlast])
    refine ⟨fun hbroken opened hmem => ?_, hused⟩
    cases opened with
    | false => rfl
    | true =>
      rw [sqlExecute_executes, if_pos (hused hmem), Engine.result] at hbroken
      split at hbroken <;> cases hbroken

/-- No repeats: the only attempt succeeds, and the connection is said to be broken. -/
theorem not_usesReConnects_first :
    ¬ DB.UsesReConnects ⟨true, false⟩ 0 ⟨fun _ => true, .ok ()⟩ (vb "SELECT 1") := by
  intro h
  exact absurd (h.broken rfl true (by decide)) (by decide)

end Leis

end Edps
