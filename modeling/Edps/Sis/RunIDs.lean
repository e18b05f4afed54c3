import Edps.Lib.Cycle
import Edps.Lib.Runs
import Edps.Vb.Basic
import Mathlib.Data.List.Nodup

/-!
# Ids of runs

Every run of a formula is stamped with an id: a million for each calculator, and in it a counter
that starts at a number given by the time and goes round.

* `runID` : one id, a `Long`.
* `runIDs_outs` : the ids of a calculator are the places of a cycle.
* `runIDs_distinct` : ids fit into a `Long`, stay in the million of their calculator, and none
  comes back within a round.
-/

namespace Edps

namespace Sis

open Vb

/-- What a calculator numbers its runs with. -/
structure RunIDs where
  lCalculatorID : ℤ
  lRunCount : ℤ
  deriving DecidableEq, Repr

/-- `Class_Initialize`, at a time of which `Format` gives the four digits `mmss`. -/
def classInitialize (mmss : ℕ) : Except VbError RunIDs := do
  let lRunCount ← toLong (mmss * 100)
  return ⟨0, lRunCount⟩

/-- `CalculatorID` -/
def RunIDs.letCalculatorID (s : RunIDs) (vNewValue : ℤ) : RunIDs :=
  { s with lCalculatorID := vNewValue }

/-- `RunID`.  The product and the sum are `Long`s. -/
def runID (s : RunIDs) : RunIDs × Except VbError ℤ :=
  let lRunCount := if s.lRunCount < 999999 then s.lRunCount + 1 else 0
  ({ s with lRunCount }, do
    let base ← toLong (s.lCalculatorID * 1000000)
    toLong (base + lRunCount))

/-- A calculator, driven by its runs. -/
def runIDs : Machine RunIDs Unit (Except VbError ℤ) := ⟨fun s _ => runID s⟩

/-- The ids of a calculator that fit into a `Long`, and a count of at most six digits. -/
structure RunIDs.Counting (s : RunIDs) : Prop where
  id_nonneg : 0 ≤ s.lCalculatorID
  id_le : s.lCalculatorID ≤ 2146
  count_nonneg : 0 ≤ s.lRunCount
  count_le : s.lRunCount ≤ 999999

/-- A calculator starts with a count of at most six digits. -/
theorem counting_classInitialize {mmss : ℕ} (htime : mmss ≤ 9999) {id : ℤ} (h₀ : 0 ≤ id)
    (h₁ : id ≤ 2146) :
    ∃ s, classInitialize mmss = .ok s ∧ (s.letCalculatorID id).Counting := by
  refine ⟨⟨0, mmss * 100⟩, ?_, h₀, h₁, ?_, ?_⟩
  · rw [classInitialize, toLong, if_pos (by omega)]
    rfl
  · show (0 : ℤ) ≤ mmss * 100
    omega
  · show (mmss : ℤ) * 100 ≤ 999999
    omega

/-- An id of the calculator `c`. -/
def idAt (c v : ℤ) (n : ℕ) : ℤ := c * 1000000 + Cycle.position 0 999999 v n

section

variable {c v : ℤ}

theorem idAt_mem (c v : ℤ) (n : ℕ) :
    c * 1000000 ≤ idAt c v n ∧ idAt c v n ≤ c * 1000000 + 999999 := by
  have hmem : 0 ≤ Cycle.position 0 999999 v n ∧ Cycle.position 0 999999 v n ≤ 999999 :=
    Cycle.position_mem (by omega) v n
  unfold idAt
  omega

/-- One run, when the counter has gone `n` places. -/
theorem runID_position (h₀ : 0 ≤ c) (h₁ : c ≤ 2146) (v : ℤ) (n : ℕ) :
    runID ⟨c, Cycle.position 0 999999 v n⟩ =
      (⟨c, Cycle.position 0 999999 v (n + 1)⟩, .ok (idAt c v (n + 1))) := by
  have hmem := idAt_mem c v (n + 1)
  have hnext : (if Cycle.position 0 999999 v n < 999999 then Cycle.position 0 999999 v n + 1
      else 0) = Cycle.position 0 999999 v (n + 1) := by
    rw [← Cycle.next_position (by omega), Cycle.next]
    split_ifs <;> omega
  have hbase : toLong (c * 1000000) = .ok (c * 1000000) := if_pos (by omega)
  have hid : toLong (idAt c v (n + 1)) = .ok (idAt c v (n + 1)) := if_pos (by omega)
  unfold runID
  simp only [hnext, hbase]
  exact congrArg (Prod.mk _) hid

/-- **The ids of a calculator.** -/
theorem runIDs_outs {s : RunIDs} (h : s.Counting) (calls : List Unit) :
    runIDs.outs s calls = (List.range' 1 calls.length).map fun n =>
      .ok (idAt s.lCalculatorID s.lRunCount n) := by
  have hrun (n : ℕ) : runIDs.outs ⟨s.lCalculatorID, Cycle.position 0 999999 s.lRunCount n⟩ calls =
      (List.range' (n + 1) calls.length).map fun n =>
        .ok (idAt s.lCalculatorID s.lRunCount n) := by
    induction calls generalizing n with
    | nil => rfl
    | cons call calls ih =>
      have hstep := runID_position h.id_nonneg h.id_le s.lRunCount n
      have hfst := congrArg Prod.fst hstep
      have hsnd := congrArg Prod.snd hstep
      rw [Machine.outs_cons, List.length_cons, List.range'_succ, List.map_cons, ← ih (n + 1)]
      exact congrArg₂ List.cons hsnd (congrArg (runIDs.outs · calls) hfst)
  have hstart := Cycle.position_zero h.count_nonneg h.count_le
  have hzero := hrun 0
  rwa [hstart] at hzero

theorem mem_runIDs_outs {s : RunIDs} (h : s.Counting) {calls : List Unit}
    {o : Except VbError ℤ} (ho : o ∈ runIDs.outs s calls) :
    ∃ n, o = .ok (idAt s.lCalculatorID s.lRunCount n) := by
  rw [runIDs_outs h, List.mem_map] at ho
  obtain ⟨n, -, rfl⟩ := ho
  exact ⟨n, rfl⟩

/-- Ids of one round. -/
theorem nodup_idAt (c v : ℤ) {start n : ℕ} (hn : n ≤ 1000000) :
    ((List.range' start n).map fun k => (.ok (idAt c v k) : Except VbError ℤ)).Nodup := by
  refine List.Nodup.map_on (fun i hi j hj heq => ?_) List.nodup_range'
  rw [List.mem_range'_1] at hi hj
  have hpos : Cycle.position 0 999999 v i = Cycle.position 0 999999 v j := by
    have hid := Except.ok.inj heq
    unfold idAt at hid
    omega
  rcases Nat.le_total i j with hle | hle
  · exact Cycle.position_inj hle (by omega) hpos
  · exact (Cycle.position_inj hle (by omega) hpos.symm).symm

end

/-- **Ids of runs.**  No id overflows, every id lies in the million of its calculator, a million
ids in a row are distinct, and calculators with different ids share none. -/
theorem runIDs_distinct {s t : RunIDs} (hs : s.Counting) (ht : t.Counting)
    (calls calls' : List Unit) :
    (∀ o ∈ runIDs.outs s calls, ∃ id, o = .ok id ∧
      s.lCalculatorID * 1000000 ≤ id ∧ id ≤ s.lCalculatorID * 1000000 + 999999) ∧
    (∀ k, (((runIDs.outs s calls).drop k).take 1000000).Nodup) ∧
    (s.lCalculatorID ≠ t.lCalculatorID →
      ∀ o ∈ runIDs.outs s calls, o ∉ runIDs.outs t calls') := by
  refine ⟨fun o ho => ?_, fun k => ?_, fun hne o ho ho' => ?_⟩
  · obtain ⟨n, rfl⟩ := mem_runIDs_outs hs ho
    exact ⟨_, rfl, idAt_mem _ _ n⟩
  · rw [runIDs_outs hs, ← List.map_drop, ← List.map_take, List.drop_range']
    rcases Nat.le_total (calls.length - k) 1000000 with hlen | hlen
    · rw [List.take_range'_of_length_le hlen]
      exact nodup_idAt _ _ hlen
    · rw [List.take_range'_of_length_ge hlen]
      exact nodup_idAt _ _ (Nat.le_refl _)
  · obtain ⟨n, rfl⟩ := mem_runIDs_outs hs ho
    obtain ⟨m, heq⟩ := mem_runIDs_outs ht ho'
    have hn := idAt_mem s.lCalculatorID s.lRunCount n
    have hm := idAt_mem t.lCalculatorID t.lRunCount m
    rw [Except.ok.inj heq] at hn
    omega

/-- The boundary of the counter, and of the ids. -/
theorem runIDs_distinct_last :
    (∀ o ∈ runIDs.outs ⟨2146, 999998⟩ [(), (), ()], ∃ id, o = .ok id ∧
      2146 * 1000000 ≤ id ∧ id ≤ 2146 * 1000000 + 999999) ∧
    (∀ k, (((runIDs.outs ⟨2146, 999998⟩ [(), (), ()]).drop k).take 1000000).Nodup) ∧
    ((2146 : ℤ) ≠ 2145 →
      ∀ o ∈ runIDs.outs ⟨2146, 999998⟩ [(), (), ()], o ∉ runIDs.outs ⟨2145, 0⟩ [()]) :=
  runIDs_distinct (s := ⟨2146, 999998⟩) (t := ⟨2145, 0⟩)
    ⟨by decide, by decide, by decide, by decide⟩ ⟨by decide, by decide, by decide, by decide⟩
    [(), (), ()] [()]

end Sis

end Edps
