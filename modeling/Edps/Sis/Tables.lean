import Edps.Lib.Grown
import Edps.Sis.Calculator

/-!
# Formula tables

`AddFormula` keeps the operations in two levels of arrays: the formulas by their id, and in each
formula its lines by theirs, with the least and the greatest line id next to them.  The database
hands the rows over in ascending order of the formula ids; the lines come in any order.

* `formulaOf` : the formula that the rows of an id make up.
* `load_formulaOf` : the array after loading holds just these.
* `holdsRows_load` : objects, bounds, lines and gaps after loading, and what becomes of a gap
  when the formula is calculated.
-/

namespace Edps

namespace Sis

open Vb Grown

/-! ### What the tables should hold -/

/-- The rows of a formula. -/
def rowsOf (rows : List Row) (i : ℕ) : List Row := rows.filter fun r => r.formulaID = i

/-- The last row given for a line. -/
def lastRow (rows : List Row) (i l : ℕ) : Option Row :=
  (rows.filter fun r => r.formulaID = i ∧ r.lineID = l).getLast?

/-- The line ids of a formula. -/
def lineIDs (rows : List Row) (i : ℕ) : Set ℤ := {l | ∃ r ∈ rows, r.formulaID = i ∧ r.lineID = l}

variable {R : Runtime}

/-- The step leaves everything but the record objects as it is and goes on to the next line. -/
structure RunState.Skips (conv : Convert R) (env : LineEnv) (s : RunState R) : Prop where
  store : (s.step conv env).state.store = s.state.store
  rows : (s.step conv env).state.rows = s.state.rows
  oResult : (s.step conv env).state.oResult = s.state.oResult
  next : (s.step conv env).state.iCurrent = s.state.iCurrent + 1
  ended : (s.step conv env).ended = false

/-- The array holds the rows: a formula for each id, with the least and the greatest of its lines;
in each line the last row given for it, and blank lines in the gaps, which are skipped. -/
structure HoldsRows (rows : List Row) (vFormulas : Formulas) : Prop where
  has : ∀ i, vFormulas.Has i ↔ ∃ r ∈ rows, r.formulaID = i
  first : ∀ i f, vFormulas[i]? = some (some f) → IsLeast (lineIDs rows i) f.lineMin
  last : ∀ i f, vFormulas[i]? = some (some f) → IsGreatest (lineIDs rows i) f.lineMax
  line : ∀ i f, vFormulas[i]? = some (some f) → ∀ l r, lastRow rows i l = some r →
    f.line? l = some r.line
  gap : ∀ i f, vFormulas[i]? = some (some f) → ∀ l : ℤ, f.lineMin ≤ l → l ≤ f.lineMax →
    l ∉ lineIDs rows i → f.line? l = some .blank
  skips : ∀ i f, vFormulas[i]? = some (some f) → ∀ l : ℤ, f.lineMin ≤ l → l ≤ f.lineMax →
    l ∉ lineIDs rows i → ∀ (R : Runtime) (conv : Convert R) (env : LineEnv) (s : RunState R),
      s.formula = f → s.state.iCurrent = l → s.ended = false → s.Skips conv env

/-- Operations as they are read from the database, with ids in the range of the loops. -/
structure OperationRows where
  rows : List Row
  ascending : (rows.map Row.formulaID).Pairwise (· ≤ ·)
  positive : ∀ r ∈ rows, 1 ≤ r.formulaID
  lineID_le : ∀ r ∈ rows, r.lineID ≤ 32766

/-! ### One formula -/

/-- The lines of rows, by their ids. -/
def entries (rs : List Row) : List (ℕ × TFormula) := rs.map fun r => (r.lineID, r.line)

theorem lineMin_foldl (f : CFormula) (rs : List Row) :
    (rs.foldl .createLine f).lineMin = (rs.map fun r => (r.lineID : ℤ)).foldl min f.lineMin := by
  induction rs generalizing f with
  | nil => rfl
  | cons r rs ih =>
    rw [List.foldl_cons, ih]
    rfl

theorem lineMax_foldl (f : CFormula) (rs : List Row) :
    (rs.foldl .createLine f).lineMax = (rs.map fun r => (r.lineID : ℤ)).foldl max f.lineMax := by
  induction rs generalizing f with
  | nil => rfl
  | cons r rs ih =>
    rw [List.foldl_cons, ih]
    rfl

theorem lines_foldl (f : CFormula) (rs : List Row) :
    (rs.foldl .createLine f).lines = putAll .blank f.lines (entries rs) := by
  induction rs generalizing f with
  | nil => rfl
  | cons r rs ih =>
    rw [List.foldl_cons, ih]
    rfl

/-- The formula that the rows of an id make up. -/
def formulaOf (rows : List Row) (i : ℕ) : Option CFormula :=
  if rowsOf rows i = [] then none else some ((rowsOf rows i).foldl .createLine (.new i))

theorem formulaOf_append_singleton (rows : List Row) (r : Row) (i : ℕ) :
    formulaOf (rows ++ [r]) i = if i = r.formulaID then
      some (((formulaOf rows i).getD (.new i)).createLine r) else formulaOf rows i := by
  have hrows : rowsOf (rows ++ [r]) i =
      if i = r.formulaID then rowsOf rows i ++ [r] else rowsOf rows i := by
    rw [rowsOf, List.filter_append]
    split_ifs with hi
    · simp [hi, rowsOf]
    · simp [Ne.symm hi, rowsOf]
  rw [formulaOf, hrows]
  split_ifs with hi hnil hnil
  · simp at hnil
  · rw [List.foldl_append, formulaOf]
    split_ifs with hold
    · rw [hold]
      rfl
    · rfl
  · rw [formulaOf, if_pos hnil]
  · rw [formulaOf, if_neg hnil]

/-! ### Loading -/

/-- The array holds the formulas of the rows so far, up to the last of them. -/
structure Filled (done : List Row) (vFormulas : Formulas) : Prop where
  length : vFormulas.length = (done.map Row.formulaID).getLastD 0 + 1
  at? : ∀ i, vFormulas.at? i = formulaOf done i

theorem formulaOf_isSome {rows : List Row} {i : ℕ} :
    (formulaOf rows i).isSome ↔ ∃ r ∈ rows, r.formulaID = i := by
  rw [formulaOf]
  split_ifs with hnil
  · rw [rowsOf, List.filter_eq_nil_iff] at hnil
    simpa using hnil
  · obtain ⟨r, hr⟩ := List.exists_mem_of_ne_nil _ hnil
    rw [rowsOf, List.mem_filter] at hr
    exact iff_of_true rfl ⟨r, hr.1, by simpa using hr.2⟩

theorem filled_addFormula {done : List Row} {vFormulas : Formulas} {r : Row}
    (h : Filled done vFormulas) (hlast : (done.map Row.formulaID).getLastD 0 ≤ r.formulaID)
    (hpos : 1 ≤ r.formulaID) :
    ∃ v, addFormula vFormulas r = .ok v ∧ Filled (done ++ [r]) v := by
  have hhas : ∀ i ∈ done.map Row.formulaID, vFormulas.Has i := by
    intro i hi
    rw [has_iff, h.at?, formulaOf_isSome]
    exact List.mem_map.1 hi
  obtain ⟨v, hv, hlen, hat⟩ := addFormula_spec (le_or_has_of_last h.length hhas hlast hpos)
  refine ⟨v, hv, ?_, fun i => ?_⟩
  · rw [hlen, h.length, List.map_append, List.map_singleton, List.getLastD_concat]
    omega
  · rw [hat, h.at?, formulaOf_append_singleton]

theorem filled_foldlM {done rows : List Row} {vFormulas : Formulas} (h : Filled done vFormulas)
    (hlast : ∀ r ∈ rows, (done.map Row.formulaID).getLastD 0 ≤ r.formulaID)
    (hasc : (rows.map Row.formulaID).Pairwise (· ≤ ·)) (hpos : ∀ r ∈ rows, 1 ≤ r.formulaID) :
    ∃ v, rows.foldlM addFormula vFormulas = .ok v ∧ Filled (done ++ rows) v := by
  induction rows generalizing done vFormulas with
  | nil => exact ⟨vFormulas, rfl, by rwa [List.append_nil]⟩
  | cons r rows ih =>
    rw [List.forall_mem_cons] at hlast hpos
    rw [List.map_cons, List.pairwise_cons] at hasc
    obtain ⟨v, hv, hfilled⟩ := filled_addFormula h hlast.1 hpos.1
    obtain ⟨w, hw, hdone⟩ := ih hfilled
      (fun q hq => by simpa using hasc.1 _ (List.mem_map_of_mem hq)) hasc.2 hpos.2
    refine ⟨w, ?_, by rwa [List.append_assoc] at hdone⟩
    rw [List.foldlM_cons, hv]
    exact hw

/-- **Loading.**  The array holds just the formulas that the rows make up. -/
theorem load_formulaOf (ops : OperationRows) :
    ∃ v, load ops.rows = .ok v ∧ ∀ i, v.at? i = formulaOf ops.rows i := by
  have hempty : Filled [] [none] := ⟨rfl, fun i => by cases i <;> rfl⟩
  obtain ⟨v, hv, hfilled⟩ := filled_foldlM hempty (by simp) ops.ascending ops.positive
  exact ⟨v, hv, hfilled.at?⟩

/-! ### The formulas loaded -/

section Loaded

variable {rows : List Row} {i : ℕ} {f : CFormula}

theorem formulaOf_eq_some (h : formulaOf rows i = some f) :
    rowsOf rows i ≠ [] ∧ (rowsOf rows i).foldl .createLine (.new i) = f := by
  rw [formulaOf] at h
  split_ifs at h with hnil
  exact ⟨hnil, Option.some.inj h⟩

theorem mem_lineIDs {l : ℤ} :
    l ∈ lineIDs rows i ↔ l ∈ (rowsOf rows i).map fun r => (r.lineID : ℤ) := by
  simp [lineIDs, rowsOf, and_assoc]

theorem isLeast_lineMin (h : formulaOf rows i = some f) (hle : ∀ r ∈ rows, r.lineID ≤ 32766) :
    IsLeast (lineIDs rows i) f.lineMin := by
  obtain ⟨hne, rfl⟩ := formulaOf_eq_some h
  rw [lineMin_foldl, Set.ext fun l => mem_lineIDs]
  refine isLeast_foldl_min_of_lt (by simpa using hne) fun l hl => ?_
  obtain ⟨r, hr, rfl⟩ := List.mem_map.1 hl
  have hbound := hle r (List.mem_of_mem_filter hr)
  simp only [CFormula.new]
  omega

theorem isGreatest_lineMax (h : formulaOf rows i = some f) :
    IsGreatest (lineIDs rows i) f.lineMax := by
  obtain ⟨hne, rfl⟩ := formulaOf_eq_some h
  rw [lineMax_foldl, Set.ext fun l => mem_lineIDs]
  refine isGreatest_foldl_max_of_lt (by simpa using hne) fun l hl => ?_
  obtain ⟨r, hr, rfl⟩ := List.mem_map.1 hl
  simp only [CFormula.new]
  omega

/-- The last row for a line is what was stored last in its place. -/
theorem lastAt_entries (rows : List Row) (i l : ℕ) :
    lastAt (entries (rowsOf rows i)) l = (lastRow rows i l).map Row.line := by
  have hfilter : (entries (rowsOf rows i)).filter (fun e => e.1 = l) =
      entries (rows.filter fun r => r.formulaID = i ∧ r.lineID = l) := by
    rw [entries, List.filter_map, rowsOf, List.filter_filter, entries]
    congr 1
    refine List.filter_congr fun r _ => ?_
    simp [Bool.and_comm]
  rw [lastAt, hfilter, entries, List.getLast?_map, Option.map_map, lastRow]
  rfl

/-- **The lines**: the last rows given, and blanks between them. -/
theorem line?_eq (h : formulaOf rows i = some f) {l : ℕ} (hl : (l : ℤ) ≤ f.lineMax) :
    f.line? l = some (((lastRow rows i l).map Row.line).getD .blank) := by
  obtain ⟨r, hr, hmax⟩ := List.mem_map.1 (mem_lineIDs.1 (isGreatest_lineMax h).1)
  obtain ⟨-, rfl⟩ := formulaOf_eq_some h
  have hlines := lines_foldl (.new i) (rowsOf rows i)
  have hlen : l < ((rowsOf rows i).foldl CFormula.createLine (.new i)).lines.length := by
    have hroom : r.lineID + 1 ∈ (entries (rowsOf rows i)).map fun e => e.1 + 1 := by
      rw [entries, List.map_map]
      exact List.mem_map_of_mem (f := fun r : Row => r.lineID + 1) hr
    have hle := (isGreatest_foldl_max (CFormula.new i).lines.length _).2 (.inr hroom)
    rw [hlines, length_putAll]
    omega
  have hput := getD_putAll .blank (CFormula.new i).lines (entries (rowsOf rows i)) l
  have hnew : (CFormula.new i).lines.getD l .blank = .blank := by cases l <;> rfl
  rw [← hlines, lastAt_entries, hnew, List.getD_eq_getElem?_getD,
    List.getElem?_eq_getElem hlen, Option.getD_some] at hput
  rw [CFormula.line?, if_neg (by omega), Int.toNat_natCast, List.getElem?_eq_getElem hlen, hput]

theorem lastRow_eq_none {l : ℕ} (h : (l : ℤ) ∉ lineIDs rows i) : lastRow rows i l = none := by
  rw [lastRow, List.getLast?_eq_none_iff, List.filter_eq_nil_iff]
  intro r hr hrow
  rw [decide_eq_true_eq] at hrow
  exact h ⟨r, hr, hrow.1, by rw [hrow.2]⟩

theorem lineID_mem_of_lastRow {l : ℕ} {r : Row} (h : lastRow rows i l = some r) :
    (l : ℤ) ∈ lineIDs rows i := by
  by_contra hno
  rw [lastRow_eq_none hno] at h
  cases h

end Loaded

/-! ### Gaps -/

/-- A record object stamped with the id of the run. -/
def CalcState.stamp (s : CalcState R) (v : OpVar) (runID : ℤ) : CalcState R :=
  s.setOp v { s.op v with someID := .int runID }

/-- A blank line only stamps the record objects. -/
theorem calculateLine_blank (conv : Convert R) (env : LineEnv) (dtDate runID : ℤ)
    (s : CalcState R) : calculateLine conv env dtDate .blank runID s =
      .ok () (((s.stamp .vOp1 runID).stamp .vOp2 runID).stamp .vOp3 runID) := by
  have hconst : ([] : VbString) ∉ [vb "CONST"] := by decide
  have hline : ([] : VbString) ∉ [vb "CONST", vb "LINE"] := by decide
  have hparam : ([] : VbString) ≠ vb "PARAM" := by decide
  have hcode : FunctionCode.ofText [] = .unknown := by decide
  have hload (v : OpVar) {types : List VbString} (h : ([] : VbString) ∉ types) :
      loadOperand v types [] [] = (pure () : CalcM R Unit) := by
    rw [loadOperand, if_neg h, if_neg hparam]
  simp only [calculateLine, loadOperands, TFormula.blank, hload _ hconst, hload _ hline, hcode,
    pure_bind, exec]
  rfl

theorem skips_blank {s : RunState R} (hended : s.ended = false)
    (hlast : s.state.iCurrent ≤ s.formula.lineMax) (hint : s.formula.lineMax ≤ 32766)
    (hfirst : 0 ≤ s.state.iCurrent)
    (hblank : s.formula.line? s.state.iCurrent = some .blank) (conv : Convert R)
    (env : LineEnv) : s.Skips conv env := by
  set c := ((s.state.stamp .vOp1 s.runID).stamp .vOp2 s.runID).stamp .vOp3 s.runID with hc
  have hcalc := calculateLine_blank conv env s.dtDate s.runID s.state
  rw [← hc] at hcalc
  have hcurrent : c.iCurrent = s.state.iCurrent := rfl
  have hnext : s.next? = some .blank := by
    rw [RunState.next?, hended, if_neg (by simpa using hlast), hblank]
  have hcount : toInteger (c.iCurrent + 1) = .ok (c.iCurrent + 1) := by
    rw [toInteger, if_pos ⟨by omega, by omega⟩]
  have hstep : s.step conv env = { s with state := { c with iCurrent := c.iCurrent + 1 } } := by
    simp only [RunState.step, hnext, hcalc, hcount]
  exact ⟨by rw [hstep]; rfl, by rw [hstep]; rfl, by rw [hstep]; rfl, by rw [hstep, ← hcurrent],
    by rw [hstep, hended]⟩

/-- **Formula tables.**  After `AddFormula` has been called for each row, the array holds just the
rows. -/
theorem holdsRows_load (ops : OperationRows) :
    ∃ v, load ops.rows = .ok v ∧ HoldsRows ops.rows v := by
  obtain ⟨v, hv, hat⟩ := load_formulaOf ops
  have hsome {i : ℕ} {f : CFormula} (hf : v[i]? = some (some f)) :
      formulaOf ops.rows i = some f := by
    rw [← hat, at?_eq_some, hf]
  have hgap {i : ℕ} {f : CFormula} (hf : v[i]? = some (some f)) {l : ℤ} (hfirst : f.lineMin ≤ l)
      (hlast : l ≤ f.lineMax) (hno : l ∉ lineIDs ops.rows i) : 0 ≤ l ∧ f.line? l = some .blank := by
    obtain ⟨r, -, -, hr⟩ := (isLeast_lineMin (hsome hf) ops.lineID_le).1
    obtain ⟨n, rfl⟩ := Int.eq_ofNat_of_zero_le (a := l) (by omega)
    rw [line?_eq (hsome hf) hlast, lastRow_eq_none hno]
    exact ⟨by omega, rfl⟩
  exact ⟨v, hv,
    { has := fun i => by rw [has_iff, hat, formulaOf_isSome]
      first := fun i f hf => isLeast_lineMin (hsome hf) ops.lineID_le
      last := fun i f hf => isGreatest_lineMax (hsome hf)
      line := fun i f hf l r hr => by
        have hmem := lineID_mem_of_lastRow hr
        rw [line?_eq (hsome hf) ((isGreatest_lineMax (hsome hf)).2 hmem), hr]
        rfl
      gap := fun i f hf l hfirst hlast hno => (hgap hf hfirst hlast hno).2
      skips := fun i f hf l hfirst hlast hno R conv env s hs hl hended => by
        obtain ⟨hnonneg, hblank⟩ := hgap hf hfirst hlast hno
        subst hs hl
        obtain ⟨r, hr, -, hmax⟩ := (isGreatest_lineMax (hsome hf)).1
        have hle := ops.lineID_le r hr
        exact skips_blank hended hlast (by omega) hnonneg hblank conv env }⟩

/-- A line that saves a parameter. -/
def exampleSave (id line : ℕ) (par : String) : Row :=
  ⟨id, line, vb "SAVE", vb par, vb "PARAM", [], [], [], [], []⟩

/-- Formulas 2 and 4: lines 1 and 3 of the first, the third given twice, and line 2 of the other. -/
def exampleTables : OperationRows where
  rows := [exampleSave 2 3 "7", exampleSave 2 1 "8", exampleSave 2 3 "9", exampleSave 4 2 "7"]
  ascending := by decide
  positive := by decide
  lineID_le := by decide

/-- The tables of the example: no formulas 0, 1 and 3, and blank lines in front of the first line
and in the gap. -/
theorem holdsRows_load_example :
    ∃ v, load exampleTables.rows = .ok v ∧ HoldsRows exampleTables.rows v ∧
      v.map (Option.map CFormula.lines) =
        [none, none, some [.blank, (exampleSave 2 1 "8").line, .blank, (exampleSave 2 3 "9").line],
          none, some [.blank, .blank, (exampleSave 4 2 "7").line]] := by
  obtain ⟨v, hv, hholds⟩ := holdsRows_load exampleTables
  have htables : (load exampleTables.rows).toOption.map (List.map (Option.map CFormula.lines)) =
      some [none, none,
        some [.blank, (exampleSave 2 1 "8").line, .blank, (exampleSave 2 3 "9").line], none,
        some [.blank, .blank, (exampleSave 4 2 "7").line]] := by
    decide +kernel
  rw [hv] at htables
  exact ⟨v, hv, hholds, Option.some.inj htables⟩

end Sis

end Edps
