import Edps.Leis.SisInfo
import Edps.Sis.Record

/-!
# Queueing a history value

`LEISer.WriteQueue` runs an `INSERT INTO tblHistData` with `DB.SQLExecute`.  That function refuses
while the connection permission is off, and opens a closed connection again before it executes
the statement.  Failures come back as texts; nothing is raised and nothing is kept for later.

* `DB.letConnPermission`, `DB.sqlExecute`, `writeQueue` : the connection and the two calls.
* `sqlExecute_done` : exactly when a statement is executed.
* `writeQueue_cases` : a row and the empty text, or no row and a text.
-/

namespace Edps

namespace Leis

open Vb Sis

/-- The settings of LEIS, and what `Format` takes from the locale. -/
structure Settings where
  /-- `TryRepeats` -/
  iRepQty : ℤ
  /-- The time separator. -/
  time : UInt16
  /-- `mmm`, the abbreviated name of a month. -/
  month : ℤ → VbString

/-! ### The connection -/

/-- The state of the connection. -/
structure DB where
  bConnPermission : Bool
  bConnStatus : Bool
  deriving DecidableEq, Repr

/-- `ConnPermission` Let; `pending` when an open connection stays busy until the attempt is given
up, or cannot be closed. -/
def DB.letConnPermission (db : DB) (vData pending : Bool) : DB :=
  if vData then { db with bConnPermission := true }
  else if db.bConnStatus then
    if pending then db else ⟨false, false⟩
  else { db with bConnPermission := false }

/-- What the database engine does in a call of `SQLExecute`. -/
structure Engine where
  /-- Whether the `n`-th `Conn.Open` succeeds. -/
  opens : ℕ → Bool
  /-- `cmdSQL.Execute`, or the description of its error. -/
  execute : Except VbString Unit

/-- `Do Until bConnStatus`: the status after the loop, and whether the loop was left by its
condition.  The attempt after `left` others is not looked at. -/
def Engine.reConnect (e : Engine) : ℕ → ℕ → Bool × Bool
  | 0, iI => (e.opens iI, false)
  | left + 1, iI => if e.opens iI then (true, true) else e.reConnect left (iI + 1)

/-- `SError` -/
def sError (description strCmdText : VbString) : SqlResult :=
  .error (description ++ vb " *** Query: " ++ strCmdText)

/-- `SQLExecute`.  The counter of the attempts is an `Integer`. -/
def DB.sqlExecute (db : DB) (iRepQty : ℤ) (e : Engine) (strCmdText : VbString) : SqlResult × DB :=
  if db.bConnPermission then
    let (bConnStatus, connected) :=
      if db.bConnStatus then (true, true) else e.reConnect iRepQty.toNat 0
    let db := { db with bConnStatus }
    if connected then
      match e.execute with
      | .ok () => (.done, db)
      | .error description => (sError description strCmdText, db)
    else (if iRepQty < 32767 then .broken else sError (vb "Overflow") strCmdText, db)
  else (.prohibited, db)

/-! ### WriteQueue -/

/-- `AlwayString` of a text: without apostrophes and outer blanks.  The loop that takes the
apostrophes out counts in an `Integer`. -/
def alwayString (vParam : VbString) : Except VbError VbString :=
  if 39 ∈ vParam ∧ 32767 ≤ vParam.length then .error .overflow
  else .ok (trim (vParam.filter (· ≠ 39)))

/-- `AlwayString` of a date: `dd-mmm-yyyy hh:nn:ss`. -/
def Settings.dateText (set : Settings) (date : ℤ) : VbString :=
  let c := civilOf date
  let t := timeOf date
  digitText 2 c.day ++ vb "-" ++ set.month c.month ++ vb "-" ++ digitText 4 c.year ++ vb " " ++
    digitText 2 (t / 3600) ++ [set.time] ++ digitText 2 (t / 60 % 60) ++ [set.time] ++
    digitText 2 (t % 60)

/-- `#2/18/68#`, the default of `dEvenTime`. -/
def noEvenTime : ℤ := 2150150400

/-- The statement, with the text `sActValue` as it is quoted. -/
def Settings.insertText (set : Settings) (row : HistRow) (sActValue : VbString) : VbString :=
  if row.evenTime = noEvenTime then
    vb "INSERT INTO tblHistData (PhysPar_ID, ProcTime, ActValue, RunID) VALUES (" ++
      trim (str row.paramID) ++ vb ", '" ++ set.dateText row.procTime ++ vb "', '" ++
      sActValue ++ vb "', '" ++ trim (str row.runID) ++ vb "')"
  else
    vb "INSERT INTO tblHistData (PhysPar_ID, ProcTime, ActValue, RunID, EvenTime) VALUES (" ++
      trim (str row.paramID) ++ vb ", '" ++ set.dateText row.procTime ++ vb "', '" ++
      sActValue ++ vb "', '" ++ trim (str row.runID) ++ vb "', '" ++
      set.dateText row.evenTime ++ vb "')"

/-- A row of `tblHistData`, as it is inserted. -/
structure HistData where
  physParID : ℤ
  procTime : ℤ
  actValue : VbString
  runID : ℤ
  evenTime : Option ℤ
  deriving DecidableEq, Repr

/-- The row that the statement for a call inserts. -/
def histData (row : HistRow) : HistData :=
  ⟨row.paramID, row.procTime, trim (row.actValue.filter (· ≠ 39)), row.runID,
    if row.evenTime = noEvenTime then none else some row.evenTime⟩

/-- What a `WriteQueue` call returns and does. -/
structure Queued where
  ret : VbString
  /-- The rows inserted. -/
  rows : List HistData
  db : DB
  deriving DecidableEq, Repr

/-- `LEISer.WriteQueue` -/
def writeQueue (set : Settings) (e : Engine) (row : HistRow) (db : DB) :
    Except VbError Queued := do
  let sActValue ← alwayString row.actValue
  let (vTV, db) := db.sqlExecute set.iRepQty e (set.insertText row sActValue)
  return ⟨vTV.text.getD [], if vTV = .done then [histData row] else [], db⟩

/-! ### When a row is inserted -/

/-- The permission is on, the connection is open or can be opened in time, and the engine executes
the statement. -/
structure DB.Available (db : DB) (iRepQty : ℤ) (e : Engine) : Prop where
  permission : db.bConnPermission = true
  connection : db.bConnStatus = true ∨ ∃ n < iRepQty.toNat, e.opens n = true
  execute : e.execute = .ok ()

/-- The text of a value cannot be quoted. -/
def Overflows (row : HistRow) : Prop := 39 ∈ row.actValue ∧ 32767 ≤ row.actValue.length

/-- **The loop of `SQLExecute`** is left by its condition when one of the attempts that are looked
at succeeds. -/
theorem reConnect_connected (e : Engine) (left iI : ℕ) :
    (e.reConnect left iI).2 = true ↔ ∃ n < left, e.opens (iI + n) = true := by
  induction left generalizing iI with
  | zero => simp [Engine.reConnect]
  | succ left ih =>
    rw [Engine.reConnect]
    by_cases hopen : e.opens iI = true
    · rw [if_pos hopen]
      exact iff_of_true rfl ⟨0, Nat.succ_pos _, hopen⟩
    · rw [if_neg hopen, ih]
      constructor
      · rintro ⟨n, hn, hsome⟩
        exact ⟨n + 1, Nat.succ_lt_succ hn, by rwa [Nat.add_right_comm] at hsome⟩
      · rintro ⟨_ | n, hn, hsome⟩
        · exact absurd hsome hopen
        · exact ⟨n, Nat.lt_of_succ_lt_succ hn, by rwa [Nat.add_right_comm]⟩

/-- **When a statement is executed.** -/
theorem sqlExecute_done {db : DB} {iRepQty : ℤ} {e : Engine} {strCmdText : VbString} :
    (db.sqlExecute iRepQty e strCmdText).1 = .done ↔ db.Available iRepQty e := by
  unfold DB.sqlExecute
  by_cases hperm : db.bConnPermission = true
  · rw [if_pos hperm]
    set loop : Bool × Bool :=
      if db.bConnStatus then (true, true) else e.reConnect iRepQty.toNat 0 with hloop
    have hconn : loop.2 = true ↔
        db.bConnStatus = true ∨ ∃ n < iRepQty.toNat, e.opens n = true := by
      rw [hloop]
      split_ifs with hstatus
      · exact iff_of_true rfl (.inl hstatus)
      · rw [reConnect_connected, or_iff_right hstatus]
        simp only [Nat.zero_add]
    by_cases hin : loop.2 = true
    · simp only [if_pos hin]
      cases hexec : e.execute with
      | ok u => exact iff_of_true rfl ⟨hperm, hconn.1 hin, hexec⟩
      | error d =>
        refine iff_of_false (fun h => by cases h) fun h => ?_
        rw [h.execute] at hexec
        cases hexec
    · simp only [if_neg hin]
      refine iff_of_false (fun h => ?_) fun h => hin (hconn.2 h.connection)
      split_ifs at h
      cases h
  · rw [if_neg hperm]
    exact iff_of_false (fun h => by cases h) fun h => hperm h.permission

/-- Every failure has a text. -/
theorem text_eq_nil (r : SqlResult) : r.text.getD [] = [] ↔ r = .done := by
  cases r with
  | done => exact iff_of_true rfl rfl
  | prohibited => exact iff_of_false (by decide +kernel) (by simp)
  | broken => exact iff_of_false (by decide +kernel) (by simp)
  | error description =>
    refine iff_of_false (fun h => ?_) (by simp)
    have hlen := congrArg List.length h
    simp [SqlResult.text, vb] at hlen

/-- **A row and the empty text, or no row and a text.** -/
theorem writeQueue_cases {set : Settings} {e : Engine} {row : HistRow} {db : DB} {q : Queued}
    (h : writeQueue set e row db = .ok q) :
    (db.Available set.iRepQty e ∧ q.ret = [] ∧ q.rows = [histData row]) ∨
      (¬ db.Available set.iRepQty e ∧ q.ret ≠ [] ∧ q.rows = []) := by
  unfold writeQueue at h
  cases htext : alwayString row.actValue with
  | error err =>
    rw [htext] at h
    cases h
  | ok sActValue =>
    rw [htext] at h
    obtain rfl := Except.ok.inj h
    by_cases hdone : (db.sqlExecute set.iRepQty e (set.insertText row sActValue)).1 = .done
    · exact .inl ⟨sqlExecute_done.1 hdone, (text_eq_nil _).2 hdone, if_pos hdone⟩
    · exact .inr ⟨fun h => hdone (sqlExecute_done.2 h), fun h => hdone ((text_eq_nil _).1 h),
        if_neg hdone⟩

/-- The call raises an error only for a text that cannot be quoted. -/
theorem writeQueue_error (set : Settings) (e : Engine) (row : HistRow) (db : DB) :
    (∃ err, writeQueue set e row db = .error err) ↔ Overflows row := by
  unfold writeQueue alwayString Overflows
  by_cases h : 39 ∈ row.actValue ∧ 32767 ≤ row.actValue.length
  · rw [if_pos h]
    exact iff_of_true ⟨_, rfl⟩ h
  · rw [if_neg h]
    exact iff_of_false (fun ⟨_, h⟩ => by cases h) h

/-- The default of `dEvenTime`. -/
example : dateSerial 1968 2 18 = .ok noEvenTime := by decide

end Leis

end Edps
