import Edps.Leis.Queue
import Edps.Lib.Quoted

/-!
# Values in statements

The statements of `LEISer` are put together from texts and values.  `WriteQueue` quotes its values
itself and takes the apostrophes out before; the statements of `WriteSISInfo` go through
`AlwayString1`, which puts a text between apostrophes as it is.

* `insertFormulaText`, `insertOperationText`, `insertPhysParText`, `updatePhysParText` : the
  statements around the literals of a row.
* `Statement` : the statements with the values they are built from.
* `Statement.unbroken_iff` : the literals of a statement are its values exactly when no value holds
  an apostrophe.
-/

namespace Edps

namespace Leis

open Vb Sis Quoted

/-! ### The statements of a row -/

/-- The `INSERT` of `WriteFormulas`, around its literals. -/
def insertFormulaText (l : FormulaCols VbString) : VbString :=
  vb "INSERT INTO tblFormula (Formula_ID, TimeLoop, Description) VALUES (" ++
    l.formulaId ++ vb ", " ++ l.timeLoop ++ vb ", " ++ l.description ++ vb ")"

/-- The `INSERT` of `WriteOperations`. -/
def insertOperationText (l : OperationCols VbString) : VbString :=
  vb "INSERT INTO tblOperation (Formula_ID, Operation_ID, Function, " ++
    vb "Oper1, Type1, Oper2, Type2, Oper3, Type3, Description) VALUES (" ++
    l.formulaId ++ vb ", " ++ l.operationId ++ vb ", " ++ l.function ++ vb ", " ++
    l.oper1 ++ vb ", " ++ l.type1 ++ vb ", " ++ l.oper2 ++ vb ", " ++ l.type2 ++ vb ", " ++
    l.oper3 ++ vb ", " ++ l.type3 ++ vb ", " ++ l.description ++ vb ")"

/-- The `INSERT` of `WriteParameters`. -/
def insertPhysParText (id : VbString) (l : PhysParCols VbString) : VbString :=
  vb "INSERT INTO tblPhysPar (PhysPar_ID, Type, PhysType, DataSetName, " ++
    vb "AddrStr1, AddrStr2, AddrStr3, AddrStr4, AddrStr5, AddrStr6) VALUES (" ++
    id ++ vb ", " ++ l.type ++ vb ", " ++ l.physType ++ vb ", " ++ l.dataSetName ++ vb ", " ++
    l.addrStr1 ++ vb ", " ++ l.addrStr2 ++ vb ", " ++ l.addrStr3 ++ vb ", " ++
    l.addrStr4 ++ vb ", " ++ l.addrStr5 ++ vb ", " ++ l.addrStr6 ++ vb ")"

/-- The `UPDATE` of `WriteParameters`. -/
def updatePhysParText (id : VbString) (l : PhysParCols VbString) : VbString :=
  vb "UPDATE tblPhysPar SET " ++ vb "Type = " ++ l.type ++ vb ", " ++
    vb "PhysType = " ++ l.physType ++ vb ", " ++ vb "DataSetName = " ++ l.dataSetName ++ vb ", " ++
    vb "AddrStr1 = " ++ l.addrStr1 ++ vb ", " ++ vb "AddrStr2 = " ++ l.addrStr2 ++ vb ", " ++
    vb "AddrStr3 = " ++ l.addrStr3 ++ vb ", " ++ vb "AddrStr4 = " ++ l.addrStr4 ++ vb ", " ++
    vb "AddrStr5 = " ++ l.addrStr5 ++ vb ", " ++ vb "AddrStr6 = " ++ l.addrStr6 ++
    vb " WHERE tblPhysPar.PhysPar_ID = " ++ id

/-- The statements, by what they are built from. -/
inductive Statement where
  /-- `WriteQueue` -/
  | queue (row : HistRow)
  /-- `WriteFormulas`, for one row -/
  | formula (f : Formula)
  /-- `WriteOperations`, for one row -/
  | operation (o : Operation)
  /-- `WriteParameters`, for one row; `present` when `CheckPres` finds its id -/
  | physPar (present : Bool) (id : Cell) (cols : PhysParCols Cell)

/-- The text that is handed to `SQLExecute`. -/
def Statement.text (set : Settings) : Statement → Except VbError VbString
  | .queue row => (alwayString row.actValue).map (set.insertText row)
  | .formula f => .ok (insertFormulaText (f.map alwayString1))
  | .operation o => .ok (insertOperationText (o.map alwayString1))
  | .physPar present id cols =>
    .ok (if present then updatePhysParText (alwayString1 id) (cols.map alwayString1)
      else insertPhysParText (alwayString1 id) (cols.map alwayString1))

/-! ### What they should hold -/

def FormulaCols.toList {α : Type} (c : FormulaCols α) : List α :=
  [c.formulaId, c.timeLoop, c.description]

def OperationCols.toList {α : Type} (c : OperationCols α) : List α :=
  [c.formulaId, c.operationId, c.function, c.oper1, c.type1, c.oper2, c.type2, c.oper3, c.type3,
    c.description]

def PhysParCols.toList {α : Type} (c : PhysParCols α) : List α :=
  [c.type, c.physType, c.dataSetName, c.addrStr1, c.addrStr2, c.addrStr3, c.addrStr4, c.addrStr5,
    c.addrStr6]

/-- A string value, trimmed. -/
def Cell.string? : Cell → Option VbString
  | .str s => some (trim s)
  | _ => none

/-- The string values of a statement, in its order. -/
def Statement.strings (set : Settings) : Statement → List VbString
  | .queue row =>
    [set.dateText row.procTime, trim (row.actValue.filter (· ≠ 39)), trim (str row.runID)] ++
      if row.evenTime = noEvenTime then [] else [set.dateText row.evenTime]
  | .formula f => f.toList.filterMap Cell.string?
  | .operation o => o.toList.filterMap Cell.string?
  | .physPar present id cols =>
    (if present then cols.toList ++ [id] else id :: cols.toList).filterMap Cell.string?

/-- The literals of the statement, from one apostrophe to the next, are its string values. -/
def Statement.Unbroken (set : Settings) (s : Statement) : Prop :=
  ∀ text, s.text set = .ok text → literals 39 text = some (s.strings set)

/-- A value without apostrophes, as far as it is printed. -/
def Cell.Clean : Cell → Prop
  | .str s => 39 ∉ s
  | .shown text => 39 ∉ text
  | _ => True

/-- No apostrophe in the values; for `WriteQueue`, in the dates as the locale prints them. -/
def Statement.Clean (set : Settings) : Statement → Prop
  | .queue row => Overflows row ∨
    39 ∉ set.dateText row.procTime ∧ (row.evenTime = noEvenTime ∨ 39 ∉ set.dateText row.evenTime)
  | .formula f => ∀ c ∈ f.toList, c.Clean
  | .operation o => ∀ c ∈ o.toList, c.Clean
  | .physPar _ id cols => id.Clean ∧ ∀ c ∈ cols.toList, c.Clean

/-! ### Cells -/

/-- A cell as a piece of a statement. -/
def Cell.segment : Cell → Segment UInt16
  | .str s => .quoted (trim s)
  | c => .plain (alwayString1 c)

theorem text_segment (c : Cell) : c.segment.text 39 = alwayString1 c := by
  cases c <;> rfl

theorem literal?_segment (c : Cell) : c.segment.literal? = c.string? := by
  cases c <;> rfl

theorem apostrophe_notMem_cStr (n : ℤ) : 39 ∉ cStr n := by
  intro h
  rcases code_of_mem_cStr h with h | h <;> exact absurd h (by decide)

theorem clean_iff (c : Cell) : 39 ∉ c.segment.body ↔ c.Clean := by
  cases c with
  | str s => exact not_congr (mem_trim (by decide))
  | int n =>
    have hbody : (Cell.int n).segment.body = cStr n := trim_str n
    rw [hbody]
    exact iff_of_true (apostrophe_notMem_cStr n) trivial
  | bool b => exact iff_of_true (by cases b <;> decide) trivial
  | null => exact iff_of_true (by decide) trivial
  | shown text => exact Iff.rfl
  | other => exact iff_of_true (by decide) trivial

/-! ### Statements -/

/-- The pieces of a statement that goes through `AlwayString1`: a text in front of every value, and
one behind the last. -/
def cellSegments (tail : VbString) : List (VbString × Cell) → List (Segment UInt16)
  | [] => [.plain tail]
  | (t, c) :: parts => .plain t :: c.segment :: cellSegments tail parts

theorem text_cellSegments (tail : VbString) (parts : List (VbString × Cell)) :
    (cellSegments tail parts).flatMap (Segment.text 39) =
      (parts.flatMap fun p => p.1 ++ alwayString1 p.2) ++ tail := by
  induction parts with
  | nil => simp [cellSegments, Segment.text]
  | cons p parts ih =>
    rw [cellSegments, List.flatMap_cons, List.flatMap_cons, ih, text_segment, List.flatMap_cons]
    simp only [Segment.text, List.append_assoc]

theorem literals_cellSegments (tail : VbString) (parts : List (VbString × Cell)) :
    (cellSegments tail parts).filterMap Segment.literal? =
      (parts.map Prod.snd).filterMap Cell.string? := by
  induction parts with
  | nil => rfl
  | cons p parts ih =>
    rw [cellSegments, List.filterMap_cons_none rfl, List.filterMap_cons, literal?_segment, ih,
      List.map_cons, List.filterMap_cons]

theorem clean_cellSegments {tail : VbString} {parts : List (VbString × Cell)}
    (htail : 39 ∉ tail) (hplain : ∀ p ∈ parts, 39 ∉ p.1) :
    (∀ s ∈ cellSegments tail parts, 39 ∉ s.body) ↔ ∀ v ∈ parts.map Prod.snd, v.Clean := by
  induction parts with
  | nil => simpa [cellSegments, Segment.body] using htail
  | cons p parts ih =>
    rw [List.forall_mem_cons] at hplain
    rw [cellSegments, List.forall_mem_cons, List.forall_mem_cons, clean_iff, ih hplain.2,
      List.map_cons, List.forall_mem_cons]
    exact and_iff_right hplain.1

theorem literals_cells_iff {parts : List (VbString × Cell)} {tail : VbString}
    (htail : 39 ∉ tail) (hplain : ∀ p ∈ parts, 39 ∉ p.1) :
    literals 39 ((parts.flatMap fun p => p.1 ++ alwayString1 p.2) ++ tail) =
        some ((parts.map Prod.snd).filterMap Cell.string?) ↔
      ∀ v ∈ parts.map Prod.snd, v.Clean := by
  rw [← text_cellSegments, ← literals_cellSegments tail, literals_flatMap_iff,
    clean_cellSegments htail hplain]

/-- An `INSERT`: its values stand behind `head`, with commas between them. -/
theorem literals_insert_iff {head : VbString} (hhead : 39 ∉ head) (v : Cell) (vs : List Cell) :
    literals 39 (head ++ alwayString1 v ++ (vs.flatMap fun c => vb ", " ++ alwayString1 c) ++
        vb ")") = some ((v :: vs).filterMap Cell.string?) ↔ ∀ c ∈ v :: vs, c.Clean := by
  have hcomma : 39 ∉ vb ", " := by decide
  have hplain : ∀ p ∈ (head, v) :: vs.map (vb ", ", ·), 39 ∉ p.1 := by
    rw [List.forall_mem_cons]
    refine ⟨hhead, fun p hp => ?_⟩
    obtain ⟨c, -, rfl⟩ := List.mem_map.1 hp
    exact hcomma
  have htail : 39 ∉ vb ")" := by decide
  have hparts := literals_cells_iff htail hplain
  have hsnd : ((head, v) :: vs.map (vb ", ", ·)).map Prod.snd = v :: vs := by simp
  rw [hsnd, List.flatMap_cons, List.flatMap_map] at hparts
  exact hparts

theorem formula_unbroken_iff (f : Formula) :
    literals 39 (insertFormulaText (f.map alwayString1)) = some (f.toList.filterMap Cell.string?) ↔
      ∀ c ∈ f.toList, c.Clean := by
  have hhead : 39 ∉ vb "INSERT INTO tblFormula (Formula_ID, TimeLoop, Description) VALUES (" := by
    decide +kernel
  rw [FormulaCols.toList, ← literals_insert_iff hhead]
  unfold insertFormulaText FormulaCols.map
  simp only [List.flatMap_cons, List.flatMap_nil, List.append_assoc, List.nil_append]

theorem operation_unbroken_iff (o : Operation) :
    literals 39 (insertOperationText (o.map alwayString1)) =
        some (o.toList.filterMap Cell.string?) ↔ ∀ c ∈ o.toList, c.Clean := by
  have hhead : 39 ∉ vb "INSERT INTO tblOperation (Formula_ID, Operation_ID, Function, " ++
      vb "Oper1, Type1, Oper2, Type2, Oper3, Type3, Description) VALUES (" := by decide +kernel
  rw [OperationCols.toList, ← literals_insert_iff hhead]
  unfold insertOperationText OperationCols.map
  simp only [List.flatMap_cons, List.flatMap_nil, List.append_assoc, List.nil_append]

theorem insertPhysPar_unbroken_iff (id : Cell) (cols : PhysParCols Cell) :
    literals 39 (insertPhysParText (alwayString1 id) (cols.map alwayString1)) =
        some ((id :: cols.toList).filterMap Cell.string?) ↔ ∀ c ∈ id :: cols.toList, c.Clean := by
  have hhead : 39 ∉ vb "INSERT INTO tblPhysPar (PhysPar_ID, Type, PhysType, DataSetName, " ++
      vb "AddrStr1, AddrStr2, AddrStr3, AddrStr4, AddrStr5, AddrStr6) VALUES (" := by
    decide +kernel
  rw [PhysParCols.toList, ← literals_insert_iff hhead]
  unfold insertPhysParText PhysParCols.map
  simp only [List.flatMap_cons, List.flatMap_nil, List.append_assoc, List.nil_append]

theorem updatePhysPar_unbroken_iff (id : Cell) (cols : PhysParCols Cell) :
    literals 39 (updatePhysParText (alwayString1 id) (cols.map alwayString1)) =
        some ((cols.toList ++ [id]).filterMap Cell.string?) ↔
      ∀ c ∈ cols.toList ++ [id], c.Clean := by
  have hplain : ∀ p ∈ [(vb "UPDATE tblPhysPar SET " ++ vb "Type = ", cols.type),
      (vb ", " ++ vb "PhysType = ", cols.physType),
      (vb ", " ++ vb "DataSetName = ", cols.dataSetName),
      (vb ", " ++ vb "AddrStr1 = ", cols.addrStr1), (vb ", " ++ vb "AddrStr2 = ", cols.addrStr2),
      (vb ", " ++ vb "AddrStr3 = ", cols.addrStr3), (vb ", " ++ vb "AddrStr4 = ", cols.addrStr4),
      (vb ", " ++ vb "AddrStr5 = ", cols.addrStr5), (vb ", " ++ vb "AddrStr6 = ", cols.addrStr6),
      (vb " WHERE tblPhysPar.PhysPar_ID = ", id)], 39 ∉ p.1 := by
    simp only [List.forall_mem_cons, List.not_mem_nil, false_implies, implies_true, and_true]
    decide +kernel
  have htail : (39 : UInt16) ∉ [] := List.not_mem_nil
  have hparts := literals_cells_iff htail hplain
  simp only [List.flatMap_cons, List.flatMap_nil, List.append_assoc, List.append_nil] at hparts
  unfold updatePhysParText PhysParCols.map
  simp only [List.append_assoc]
  exact hparts

/-- The pieces of the statement of `WriteQueue`. -/
def queueSegments (set : Settings) (row : HistRow) (sActValue : VbString) :
    List (Segment UInt16) :=
  if row.evenTime = noEvenTime then
    [.plain (vb "INSERT INTO tblHistData (PhysPar_ID, ProcTime, ActValue, RunID) VALUES (" ++
        cStr row.paramID ++ vb ", "), .quoted (set.dateText row.procTime), .plain (vb ", "),
      .quoted sActValue, .plain (vb ", "), .quoted (cStr row.runID), .plain (vb ")")]
  else
    [.plain
        (vb "INSERT INTO tblHistData (PhysPar_ID, ProcTime, ActValue, RunID, EvenTime) VALUES (" ++
          cStr row.paramID ++ vb ", "), .quoted (set.dateText row.procTime), .plain (vb ", "),
      .quoted sActValue, .plain (vb ", "), .quoted (cStr row.runID), .plain (vb ", "),
      .quoted (set.dateText row.evenTime), .plain (vb ")")]

theorem text_queueSegments (set : Settings) (row : HistRow) (sActValue : VbString) :
    (queueSegments set row sActValue).flatMap (Segment.text 39) = set.insertText row sActValue := by
  have hopen : vb ", '" = vb ", " ++ [39] := by decide
  have hbetween : vb "', '" = 39 :: (vb ", " ++ [39]) := by decide
  have hclose : vb "')" = 39 :: vb ")" := by decide
  unfold queueSegments Settings.insertText
  rw [hopen, hbetween, hclose, trim_str, trim_str]
  split_ifs <;> simp only [List.flatMap_cons, List.flatMap_nil, Segment.text, List.append_assoc,
    List.cons_append, List.nil_append, List.append_nil]

theorem apostrophe_notMem_alwayString {vParam s : VbString} (h : Leis.alwayString vParam = .ok s) :
    s = trim (vParam.filter (· ≠ 39)) ∧ 39 ∉ s := by
  unfold Leis.alwayString at h
  split_ifs at h
  obtain rfl := Except.ok.inj h
  refine ⟨rfl, fun hmem => ?_⟩
  rw [mem_trim (by decide), List.mem_filter] at hmem
  simpa using hmem.2

/-- **The statement of `WriteQueue`**: only the dates, as the locale prints them, can break it. -/
theorem queue_unbroken_iff (set : Settings) (row : HistRow) {sActValue : VbString}
    (h : Leis.alwayString row.actValue = .ok sActValue) :
    literals 39 (set.insertText row sActValue) = some ((Statement.queue row).strings set) ↔
      39 ∉ set.dateText row.procTime ∧
        (row.evenTime = noEvenTime ∨ 39 ∉ set.dateText row.evenTime) := by
  obtain ⟨hvalue, hclean⟩ := apostrophe_notMem_alwayString h
  have hmeant : (Statement.queue row).strings set =
      (queueSegments set row sActValue).filterMap Segment.literal? := by
    rw [Statement.strings, ← hvalue, trim_str, queueSegments]
    split_ifs <;> rfl
  have hcomma : 39 ∉ vb ", " := by decide
  have hend : 39 ∉ vb ")" := by decide
  have hhead : 39 ∉
      vb "INSERT INTO tblHistData (PhysPar_ID, ProcTime, ActValue, RunID) VALUES (" := by
    decide +kernel
  have hhead' : 39 ∉
      vb "INSERT INTO tblHistData (PhysPar_ID, ProcTime, ActValue, RunID, EvenTime) VALUES (" := by
    decide +kernel
  rw [← text_queueSegments, hmeant, literals_flatMap_iff, queueSegments]
  split_ifs with heven
  · simp [Segment.body, hcomma, hend, hhead, hclean, apostrophe_notMem_cStr, heven]
  · simp [Segment.body, hcomma, hend, hhead', hclean, apostrophe_notMem_cStr, heven]

/-- A statement that is built. -/
theorem unbroken_of_ok {set : Settings} {s : Statement} {text : VbString}
    (h : s.text set = .ok text) : s.Unbroken set ↔ literals 39 text = some (s.strings set) := by
  unfold Statement.Unbroken
  rw [h]
  simp only [Except.ok.injEq, forall_eq']

theorem alwayString_error {vParam : VbString} {err : VbError}
    (h : Leis.alwayString vParam = .error err) : 39 ∈ vParam ∧ 32767 ≤ vParam.length := by
  unfold Leis.alwayString at h
  split_ifs at h with hover
  exact hover

/-- **When no value can break out of its literal.** -/
theorem Statement.unbroken_iff (set : Settings) (s : Statement) : s.Unbroken set ↔ s.Clean set := by
  cases s with
  | queue row =>
    have hclean : (Statement.queue row).Clean set ↔ Overflows row ∨
        39 ∉ set.dateText row.procTime ∧
          (row.evenTime = noEvenTime ∨ 39 ∉ set.dateText row.evenTime) := Iff.rfl
    have htext : (Statement.queue row).text set =
        (Leis.alwayString row.actValue).map (set.insertText row) := rfl
    rw [hclean]
    cases hvalue : Leis.alwayString row.actValue with
    | error err =>
      -- no statement is built
      refine iff_of_true (fun text h => ?_) (.inl (alwayString_error hvalue))
      rw [htext, hvalue] at h
      cases h
    | ok sActValue =>
      have hno : ¬ Overflows row := fun hover => by
        rw [Overflows] at hover
        rw [Leis.alwayString, if_pos hover] at hvalue
        cases hvalue
      rw [hvalue] at htext
      rw [or_iff_right hno, unbroken_of_ok htext, queue_unbroken_iff set row hvalue]
  | formula f => exact (unbroken_of_ok rfl).trans (formula_unbroken_iff f)
  | operation o => exact (unbroken_of_ok rfl).trans (operation_unbroken_iff o)
  | physPar present id cols =>
    have hclean : (Statement.physPar present id cols).Clean set ↔
        id.Clean ∧ ∀ c ∈ cols.toList, c.Clean := Iff.rfl
    rw [hclean, unbroken_of_ok rfl]
    cases present with
    | false => exact (insertPhysPar_unbroken_iff id cols).trans List.forall_mem_cons
    | true =>
      refine (updatePhysPar_unbroken_iff id cols).trans ?_
      rw [List.forall_mem_append, List.forall_mem_singleton, and_comm]

/-- A formula whose description holds an apostrophe. -/
def examplePump : Statement := .formula ⟨.int 1, .int 60, .str (vb "Pump's speed")⟩

theorem not_unbroken_examplePump : ¬ examplePump.Unbroken ⟨3, 58, fun _ => vb "Jan"⟩ := by
  intro h
  exact absurd (h _ rfl) (by decide +kernel)

end Leis

end Edps
