import Edps.Leis.Database
import Edps.Leis.Queue
import Edps.Lib.Keyed
import Edps.Lib.Ledger

/-!
# The history table between its writers and its readers

`tblHistData` keeps the history values until they have been taken over: `WriteQueue` adds a row,
`ReadQueue` offers the rows that are not marked yet to the master or to a slave, `MasterSQLDone`
and `SlaveSQLDone` set the two marks of a row, and `KillMasterSent` deletes what the master has
taken over.  `Maintenance` is `KillMasterSent` followed by `MantainDatabase`.  The server has one
thread, so the calls of all clients come one after the other, in any order.

* `LocalRow`, `Outbox` : the local database, with the connection to it and its files.
* `leis` : the machine of calls.
* `hist_ledger` : the values accepted are those in the table and those deleted.
* `life`, `row_life` : what becomes of a row is decided by the statements on it alone.
* `row_offered` : a row that is not marked is offered until it is marked.

The condition on a run is what the database engine is asked for: keys that are not in use, the rows
of a `SELECT`, and a `FileCopy` that leaves `sDataBase` as it was (`leavesRows_of_fileCopy`).
-/

namespace Edps

namespace Leis

open Vb Sis

/-! ### The local database -/

/-- A row of `tblHistData`, with its key and its marks. -/
structure HistRecord where
  histID : ℤ
  data : HistData
  masterDone : Bool
  slaveDone : Bool
  deriving DecidableEq, Repr

/-- A row of the local database. -/
inductive LocalRow where
  /-- `tblHistData` -/
  | hist (r : HistRecord)
  /-- `tblPhysPar` -/
  | physPar (row : PhysPar)
  /-- `tblFormula` -/
  | formula (row : Formula)
  /-- `tblOperation` -/
  | operation (row : Operation)
  deriving DecidableEq, Repr

namespace LocalRow

def hist? : LocalRow → Option HistRecord
  | hist r => some r
  | _ => none

def physPar? : LocalRow → Option PhysPar
  | physPar row => some row
  | _ => none

def formula? : LocalRow → Option Formula
  | formula row => some row
  | _ => none

def operation? : LocalRow → Option Operation
  | operation row => some row
  | _ => none

/-- An `UPDATE` of the rows of `tblHistData`. -/
def update (f : HistRecord → HistRecord) : LocalRow → LocalRow
  | hist r => hist (f r)
  | row => row

/-- The `WHERE` of a `DELETE` from `tblHistData`. -/
def deletes (p : HistRecord → Bool) : LocalRow → Bool
  | hist r => p r
  | _ => false

end LocalRow

/-- The rows of `tblHistData`. -/
def histsOf (rows : List LocalRow) : List HistRecord := rows.filterMap LocalRow.hist?

/-- The configuration tables. -/
def tablesOf (rows : List LocalRow) : Tables :=
  ⟨rows.filterMap LocalRow.physPar?, rows.filterMap LocalRow.formula?,
    rows.filterMap LocalRow.operation?⟩

/-- The local database with other configuration tables. -/
def withTables (rows : List LocalRow) (t : Tables) : List LocalRow :=
  (histsOf rows).map .hist ++ (t.physPars.map .physPar ++
    (t.formulas.map .formula ++ t.operations.map .operation))

/-- The connection and the files. -/
structure Outbox where
  db : DB
  files : Files LocalRow

/-- A row of the `SELECT` of `ReadQueue`. -/
structure QueueRow where
  record : HistRecord
  dataSetName : Cell
  deriving DecidableEq, Repr

namespace Outbox

def rows (s : Outbox) : List LocalRow := s.files.dataBase.getD []

def hists (s : Outbox) : List HistRecord := histsOf s.rows

def physPars (s : Outbox) : List PhysPar := (tablesOf s.rows).physPars

/-- The rows that `MasterDone = False` or `SlaveDone = False` selects, joined with their
parameters. -/
def queue (s : Outbox) (master : Bool) : List QueueRow :=
  s.hists.flatMap fun r => s.physPars.filterMap fun p =>
    if r.data.physParID = p.physParId ∧ (if master then r.masterDone else r.slaveDone) = false then
      some ⟨r, p.cols.dataSetName⟩
    else none

end Outbox

/-! ### Statements -/

/-- A statement that changes `tblHistData`. -/
inductive HistStatement where
  | insert (r : HistRecord)
  | masterDone (histID : ℤ)
  | slaveDone (histID : ℤ)
  | killMasterSent
  deriving DecidableEq, Repr

/-- What the statement makes of the rows of the database. -/
def HistStatement.execute (rows : List LocalRow) : HistStatement → List LocalRow
  | insert r => rows ++ [.hist r]
  | masterDone id =>
    rows.map (.update fun r => if r.histID = id then { r with masterDone := true } else r)
  | slaveDone id =>
    rows.map (.update fun r => if r.histID = id then { r with slaveDone := true } else r)
  | killMasterSent => rows.filter fun row => !row.deletes HistRecord.masterDone

/-- The rows of `tblHistData` that the statement deletes. -/
def HistStatement.deleted (rows : List LocalRow) : HistStatement → List HistRecord
  | killMasterSent => (histsOf rows).filter HistRecord.masterDone
  | _ => []

/-! ### The calls -/

/-- A call of a client, with what the engine and the file operations do in it. -/
inductive LeisCall where
  /-- `WriteQueue`; the key is the engine's. -/
  | writeQueue (e : Engine) (row : HistRow) (histID : ℤ)
  | masterSQLDone (e : Engine) (vHistID : ℤ)
  | slaveSQLDone (e : Engine) (vHistID : ℤ)
  | killMasterSent (e : Engine)
  /-- `MantainDatabase`; `pending` when the connection cannot be closed. -/
  | mantainDatabase (pending : Bool) (o : MaintenanceOutcome LocalRow)
  /-- `ReadQueue`; `master` is `UCase(sSQL) = "MASTER"`, and the rows come in the order of the
  engine. -/
  | readQueue (e : Engine) (master : Bool) (found : List QueueRow)
  | writeSISInfo (jet : Jet) (i : SisInfo)
  | denyConnection (pending : Bool)
  | allowConnection
  /-- `Conn_Disconnect` -/
  | disconnect

/-- What comes back from a call. -/
inductive Answer where
  | raised (err : VbError)
  | text (t : VbString)
  /-- The array of `GetRows`, or `Empty`. -/
  | rows (r : Option (List QueueRow))
  | written (b : Bool)
  /-- Nothing comes back from a `Sub`. -/
  | sub
  deriving DecidableEq, Repr

/-- A call that has been served: its answer, the statement on `tblHistData` that was executed
for it, and the rows this deleted. -/
structure Served where
  call : LeisCall
  answer : Answer
  executed : Option HistStatement
  deleted : List HistRecord

namespace Outbox

/-- `Conn.Open` needs the file. -/
def engine (s : Outbox) (e : Engine) : Engine :=
  ⟨fun n => e.opens n && s.files.dataBase.isSome, e.execute⟩

/-- `SQLExecute` of a statement on `tblHistData`: its result, the statement if it is executed, and
the rows that deletes. -/
def sqlExecute (s : Outbox) (set : Settings) (e : Engine) (strCMD : VbString) (q : HistStatement) :
    (SqlResult × Option HistStatement × List HistRecord) × Outbox :=
  let (vTV, db) := s.db.sqlExecute set.iRepQty (s.engine e) strCMD
  if vTV = .done then
    ((vTV, some q, q.deleted s.rows),
      ⟨db, { s.files with dataBase := s.files.dataBase.map q.execute }⟩)
  else ((vTV, none, []), { s with db })

/-- `IIf(VarType(vTV) <> vbString, "", vTV)` of a statement. -/
def change (s : Outbox) (set : Settings) (e : Engine) (strCMD : VbString) (q : HistStatement)
    (call : LeisCall) : Outbox × Served :=
  let ((vTV, executed, deleted), s) := s.sqlExecute set e strCMD q
  (s, ⟨call, .text (vTV.text.getD []), executed, deleted⟩)

/-- `LEISer.WriteQueue` -/
def writeQueue (s : Outbox) (set : Settings) (e : Engine) (row : HistRow) (histID : ℤ) :
    Outbox × Served :=
  let call := .writeQueue e row histID
  match alwayString row.actValue with
  | .error err => (s, ⟨call, .raised err, none, []⟩)
  | .ok sActValue => s.change set e (set.insertText row sActValue)
      (.insert ⟨histID, histData row, false, false⟩) call

/-- `LEISer.MasterSQLDone` -/
def masterSQLDone (s : Outbox) (set : Settings) (e : Engine) (vHistID : ℤ) : Outbox × Served :=
  s.change set e (vb "UPDATE tblHistData SET tblHistData.MasterDone = True " ++
    vb "WHERE tblHistData.Hist_ID = " ++ trim (str vHistID)) (.masterDone vHistID)
    (.masterSQLDone e vHistID)

/-- `LEISer.SlaveSQLDone` -/
def slaveSQLDone (s : Outbox) (set : Settings) (e : Engine) (vHistID : ℤ) : Outbox × Served :=
  s.change set e (vb "UPDATE tblHistData SET tblHistData.SlaveDone = True " ++
    vb "WHERE tblHistData.Hist_ID = " ++ trim (str vHistID)) (.slaveDone vHistID)
    (.slaveSQLDone e vHistID)

/-- `LEISer.KillMasterSent` -/
def killMasterSent (s : Outbox) (set : Settings) (e : Engine) : Outbox × Served :=
  s.change set e
    (vb "DELETE tblHistData.* FROM tblHistData WHERE tblHistData.MasterDone = True")
    .killMasterSent (.killMasterSent e)

/-- `DB.MantainDatabase`: it denies the connection, works on the files unless that failed, and
allows the connection. -/
def mantainDatabase (s : Outbox) (pending : Bool) (o : MaintenanceOutcome LocalRow) : Outbox :=
  let db := s.db.letConnPermission false pending
  ⟨db.letConnPermission true false,
    (Leis.mantainDatabase s.files { o with denied := !db.bConnPermission }).getLastD s.files⟩

/-- The statement of `ReadQueue`. -/
def selectText (iQueLength : ℤ) (master : Bool) : VbString :=
  vb "SELECT TOP " ++ trim (str iQueLength) ++ vb " A1.Hist_ID, A1.PhysPar_ID, " ++
    vb "A1.ProcTime, A1.ActValue, " ++
    vb "A1.RunID, A1.EvenTime, A1.MasterDone, A1.SlaveDone, A2.DataSetName " ++
    vb "FROM tblHistData as A1, tblPhysPar as A2 WHERE " ++
    vb "A1.PhysPar_ID = A2.PhysPar_ID AND " ++
    (if master then vb "MasterDone = False" else vb "SlaveDone = False")

/-- `LEISer.ReadQueue`: an error, also that of `GetRows` when there is no row, leaves `Empty`. -/
def readQueue (s : Outbox) (set : Settings) (iQueLength : ℤ) (e : Engine) (master : Bool)
    (found : List QueueRow) : Outbox × Served :=
  let (vTV, db) := s.db.sqlExecute set.iRepQty (s.engine e) (selectText iQueLength master)
  let top := found.take iQueLength.toNat
  ({ s with db }, ⟨.readQueue e master found,
    .rows (if vTV = .done ∧ top ≠ [] then some top else none), none, []⟩)

/-- `LEISer.WriteSISInfo`: `BeginTrans` fails on a closed connection. -/
def writeSISInfo (s : Outbox) (jet : Jet) (i : SisInfo) : Outbox × Served :=
  let call := .writeSISInfo jet i
  if s.db.bConnStatus then
    let (b, t) := Leis.writeSISInfo jet (tablesOf s.rows) i
    ({ s with files := { s.files with dataBase := s.files.dataBase.map (withTables · t) } },
      ⟨call, .written b, none, []⟩)
  else (s, ⟨call, .written false, none, []⟩)

/-- One call. -/
def next (set : Settings) (iQueLength : ℤ) (s : Outbox) : LeisCall → Outbox × Served
  | .writeQueue e row histID => s.writeQueue set e row histID
  | .masterSQLDone e vHistID => s.masterSQLDone set e vHistID
  | .slaveSQLDone e vHistID => s.slaveSQLDone set e vHistID
  | .killMasterSent e => s.killMasterSent set e
  | .mantainDatabase pending o =>
    (s.mantainDatabase pending o, ⟨.mantainDatabase pending o, .sub, none, []⟩)
  | .readQueue e master found => s.readQueue set iQueLength e master found
  | .writeSISInfo jet i => s.writeSISInfo jet i
  | .denyConnection pending =>
    ({ s with db := s.db.letConnPermission false pending },
      ⟨.denyConnection pending, .sub, none, []⟩)
  | .allowConnection =>
    ({ s with db := s.db.letConnPermission true false }, ⟨.allowConnection, .sub, none, []⟩)
  | .disconnect =>
    ({ s with db := { s.db with bConnStatus := false } }, ⟨.disconnect, .sub, none, []⟩)

end Outbox

/-- LEIS, serving one call after the other. -/
def leis (set : Settings) (iQueLength : ℤ) : Machine Outbox LeisCall Served :=
  ⟨Outbox.next set iQueLength⟩

/-! ### What the engine is asked for -/

/-- A call in which the engine gives a new row a key that is not in use and finds the rows of a
`SELECT`, and in which `MantainDatabase` leaves the rows of `sDataBase`. -/
def Ordinary (s : Outbox) : LeisCall → Prop
  | .writeQueue _ _ histID => histID ∉ s.hists.map HistRecord.histID
  | .readQueue _ master found => found.Perm (s.queue master)
  | .mantainDatabase pending o =>
    (s.mantainDatabase pending o).files.dataBase = s.files.dataBase
  | _ => True

/-- The keys are distinct, and an open connection is one to a file that is there. -/
structure Outbox.Sound (s : Outbox) : Prop where
  keys : (s.hists.map HistRecord.histID).Nodup
  file : s.db.bConnStatus = true → s.files.dataBase.isSome

/-- The values that were accepted, as the client sees it: the answer is the empty text. -/
def Served.accepted (o : Served) : List HistData :=
  match o.call, o.answer with
  | .writeQueue _ row _, .text [] => [histData row]
  | _, _ => []

/-! ### The rows after a statement -/

/-- What the statement makes of the rows of `tblHistData`. -/
def HistStatement.apply (rs : List HistRecord) : HistStatement → List HistRecord
  | insert r => rs ++ [r]
  | masterDone id => Keyed.update HistRecord.histID id (fun r => { r with masterDone := true }) rs
  | slaveDone id => Keyed.update HistRecord.histID id (fun r => { r with slaveDone := true }) rs
  | killMasterSent => rs.filter fun r => !r.masterDone

/-- The values that the statement inserts. -/
def HistStatement.inserted : HistStatement → List HistData
  | insert r => [r.data]
  | _ => []

@[simp] theorem histsOf_append (rows rows' : List LocalRow) :
    histsOf (rows ++ rows') = histsOf rows ++ histsOf rows' := List.filterMap_append

theorem histsOf_update (f : HistRecord → HistRecord) (rows : List LocalRow) :
    histsOf (rows.map (.update f)) = (histsOf rows).map f := by
  induction rows with
  | nil => rfl
  | cons row rows ih =>
    cases row with
    | hist r =>
      show f r :: histsOf (rows.map (.update f)) = f r :: (histsOf rows).map f
      rw [ih]
    | physPar p => exact ih
    | formula f => exact ih
    | operation o => exact ih

theorem histsOf_deletes (p : HistRecord → Bool) (rows : List LocalRow) :
    histsOf (rows.filter fun row => !row.deletes p) = (histsOf rows).filter fun r => !p r := by
  induction rows with
  | nil => rfl
  | cons row rows ih =>
    cases row with
    | hist r =>
      cases hp : p r with
      | true => simpa [histsOf, LocalRow.deletes, LocalRow.hist?, hp] using ih
      | false => simpa [histsOf, LocalRow.deletes, LocalRow.hist?, hp] using ih
    | physPar p => exact ih
    | formula f => exact ih
    | operation o => exact ih

/-- **A statement on the database** is one on `tblHistData`. -/
theorem histsOf_execute (q : HistStatement) (rows : List LocalRow) :
    histsOf (q.execute rows) = q.apply (histsOf rows) := by
  cases q with
  | insert r => exact histsOf_append ..
  | masterDone id => exact histsOf_update ..
  | slaveDone id => exact histsOf_update ..
  | killMasterSent => exact histsOf_deletes ..

theorem physPars_execute (q : HistStatement) (rows : List LocalRow) :
    (tablesOf (q.execute rows)).physPars = (tablesOf rows).physPars := by
  have hupdate (f : HistRecord → HistRecord) :
      (rows.map (.update f)).filterMap LocalRow.physPar? = rows.filterMap LocalRow.physPar? := by
    rw [List.filterMap_map]
    refine List.filterMap_congr ?_
    intro row _
    cases row <;> rfl
  cases q with
  | insert r =>
    show (rows ++ [LocalRow.hist r]).filterMap LocalRow.physPar? = _
    rw [List.filterMap_append]
    exact List.append_nil _
  | masterDone id => exact hupdate _
  | slaveDone id => exact hupdate _
  | killMasterSent =>
    show (rows.filter _).filterMap LocalRow.physPar? = rows.filterMap LocalRow.physPar?
    rw [List.filterMap_filter]
    refine List.filterMap_congr ?_
    intro row _
    cases row with
    | hist r => exact ite_self _
    | physPar p => rfl
    | formula f => rfl
    | operation o => rfl

theorem histsOf_withTables (rows : List LocalRow) (t : Tables) :
    histsOf (withTables rows t) = histsOf rows := by
  have hhists (rs : List HistRecord) : histsOf (rs.map .hist) = rs := by
    simp [histsOf, List.filterMap_map, Function.comp_def, LocalRow.hist?]
  simp [withTables, hhists]
  simp [histsOf, List.filterMap_map, Function.comp_def, LocalRow.hist?]

theorem physPars_withTables (rows : List LocalRow) (t : Tables) :
    (tablesOf (withTables rows t)).physPars = t.physPars := by
  simp [tablesOf, withTables, List.filterMap_append, List.filterMap_map, Function.comp_def,
    LocalRow.physPar?]

/-! ### One call -/

/-- What one call does to the table, and what it keeps. -/
structure Served.Done (s s' : Outbox) (o : Served) : Prop where
  hists : s'.hists = o.executed.elim s.hists (HistStatement.apply s.hists)
  deleted : o.deleted = o.executed.elim [] (HistStatement.deleted s.rows)
  accepted : o.accepted = o.executed.elim [] HistStatement.inserted
  /-- A new row has a key of its own and no marks. -/
  fresh : ∀ r, o.executed = some (.insert r) →
    r.histID ∉ s.hists.map HistRecord.histID ∧ r.masterDone = false ∧ r.slaveDone = false
  /-- A parameter that is known stays known. -/
  known : ∀ id ∈ s.physPars.map PhysPar.physParId, id ∈ s'.physPars.map PhysPar.physParId
  sound : s'.Sound

section Step

variable {set : Settings} {iQueLength : ℤ} {s : Outbox}

/-- The statement keeps the keys distinct. -/
theorem nodup_apply {q : HistStatement} {rs : List HistRecord}
    (hnd : (rs.map HistRecord.histID).Nodup)
    (hfresh : ∀ r, q = .insert r → r.histID ∉ rs.map HistRecord.histID) :
    ((q.apply rs).map HistRecord.histID).Nodup := by
  cases q with
  | insert r =>
    rw [HistStatement.apply, List.map_append, List.nodup_append]
    refine ⟨hnd, List.nodup_singleton _, ?_⟩
    intro id hid id' hid' he
    obtain rfl := List.mem_singleton.1 hid'
    exact hfresh r rfl (he ▸ hid)
  | masterDone id =>
    rw [HistStatement.apply, Keyed.map_update]
    · exact hnd
    · exact fun r => rfl
  | slaveDone id =>
    rw [HistStatement.apply, Keyed.map_update]
    · exact hnd
    · exact fun r => rfl
  | killMasterSent => exact hnd.sublist (List.filter_sublist.map _)

/-- The loop leaves the connection open only when an attempt opened it. -/
theorem opens_of_reConnect {e : Engine} {left iI : ℕ} (h : (e.reConnect left iI).1 = true) :
    ∃ n, e.opens n = true := by
  induction left generalizing iI with
  | zero => exact ⟨iI, h⟩
  | succ left ih =>
    rw [Engine.reConnect] at h
    by_cases hopen : e.opens iI = true
    · exact ⟨iI, hopen⟩
    · rw [if_neg hopen] at h
      exact ih h

/-- A statement finds the connection open, or an attempt opens it. -/
theorem open_of_sqlExecute {db : DB} {iRepQty : ℤ} {e : Engine} {strCMD : VbString}
    (h : (db.sqlExecute iRepQty e strCMD).2.bConnStatus = true) :
    db.bConnStatus = true ∨ ∃ n, e.opens n = true := by
  by_cases hstatus : db.bConnStatus = true
  · exact .inl hstatus
  · unfold DB.sqlExecute at h
    by_cases hperm : db.bConnPermission = true
    · rw [if_pos hperm] at h
      simp only [if_neg hstatus] at h
      have hopen : (e.reConnect iRepQty.toNat 0).1 = true := by
        split at h
        · split at h <;> exact h
        · exact h
      exact .inr (opens_of_reConnect hopen)
    · rw [if_neg hperm] at h
      exact absurd h hstatus

variable (set) in
/-- An executed statement, and a connection that is left open, need the file. -/
theorem file_of_sqlExecute (hs : s.Sound) (e : Engine) (strCMD : VbString) :
    ((s.db.sqlExecute set.iRepQty (s.engine e) strCMD).1 = .done →
      s.files.dataBase.isSome) ∧
    ((s.db.sqlExecute set.iRepQty (s.engine e) strCMD).2.bConnStatus = true →
      s.files.dataBase.isSome) := by
  have hopens (n : ℕ) (h : (s.engine e).opens n = true) : s.files.dataBase.isSome :=
    (Bool.and_eq_true _ _ ▸ h).2
  constructor
  · intro h
    rcases (sqlExecute_done.1 h).connection with hopen | ⟨n, -, hn⟩
    · exact hs.file hopen
    · exact hopens n hn
  · intro h
    rcases open_of_sqlExecute h with hopen | ⟨n, hn⟩
    · exact hs.file hopen
    · exact hopens n hn

/-- A statement that may be executed. -/
theorem done_change (hs : s.Sound) {e : Engine} {strCMD : VbString} {q : HistStatement}
    {call : LeisCall}
    (hfresh : ∀ r, q = .insert r →
      r.histID ∉ s.hists.map HistRecord.histID ∧ r.masterDone = false ∧ r.slaveDone = false)
    (hin : ∀ t executed deleted, Served.accepted ⟨call, .text t, executed, deleted⟩ =
      if t = [] then q.inserted else []) :
    (s.change set e strCMD q call).2.Done s (s.change set e strCMD q call).1 := by
  have hfile := file_of_sqlExecute set hs e strCMD
  unfold Outbox.change Outbox.sqlExecute
  by_cases hdone : (s.db.sqlExecute set.iRepQty (s.engine e) strCMD).1 = .done
  · simp only [if_pos hdone]
    obtain ⟨rows, hrows⟩ := Option.isSome_iff_exists.1 (hfile.1 hdone)
    have hs' : s.rows = rows := by rw [Outbox.rows, hrows, Option.getD_some]
    have hhists (db : DB) :
        (Outbox.mk db { s.files with dataBase := s.files.dataBase.map q.execute }).hists =
          q.apply s.hists := by
      rw [Outbox.hists, Outbox.hists, Outbox.rows, hs', hrows]
      exact histsOf_execute q rows
    refine ⟨hhists _, rfl, ?_, fun r hr => hfresh r (Option.some.inj hr), ?_, ?_, ?_⟩
    · rw [hin, hdone]
      exact if_pos rfl
    · intro id hid
      rw [Outbox.physPars, Outbox.rows, hs'] at *
      rw [hrows, Option.map_some, Option.getD_some, physPars_execute]
      exact hid
    · rw [hhists]
      exact nodup_apply hs.keys fun r hr => (hfresh r hr).1
    · intro _
      simp only [hrows, Option.map_some, Option.isSome_some]
  · simp only [if_neg hdone]
    refine ⟨rfl, rfl, ?_, ?_, fun id hid => hid, hs.keys, hfile.2⟩
    · rw [hin, if_neg fun h => hdone ((text_eq_nil _).1 h)]
      rfl
    · intro r hr
      cases hr

/-- A call that leaves the table alone. -/
theorem done_same {s' : Outbox} {call : LeisCall} {answer : Answer}
    (hhists : s'.hists = s.hists)
    (hknown : ∀ id ∈ s.physPars.map PhysPar.physParId, id ∈ s'.physPars.map PhysPar.physParId)
    (hs : s.Sound) (hfile : s'.db.bConnStatus = true → s'.files.dataBase.isSome)
    (hin : Served.accepted ⟨call, answer, none, []⟩ = []) :
    (Served.mk call answer none []).Done s s' := by
  refine ⟨hhists, rfl, hin, ?_, hknown, ?_, hfile⟩
  · intro r hr
    cases hr
  · rw [hhists]
    exact hs.keys

/-- The parameters that are known stay known. -/
theorem known_writeSISInfo (jet : Jet) (db : Tables) (i : SisInfo) :
    ∀ id ∈ db.physPars.map PhysPar.physParId,
      id ∈ (Leis.writeSISInfo jet db i).2.physPars.map PhysPar.physParId := by
  have hrow (snapshot : Option (List PhysPar)) (p : PhysPar × SqlResult) (t : List PhysPar) :
      ∀ id ∈ t.map PhysPar.physParId,
        id ∈ (writeParameter jet snapshot p t).map PhysPar.physParId := by
    intro id hid
    unfold writeParameter
    split_ifs
    · have hsame : (updatePhysPar (jet.storePhysPar p.1) t).map PhysPar.physParId =
          t.map PhysPar.physParId := by
        rw [updatePhysPar, List.map_map]
        refine List.map_congr_left ?_
        intro row _
        rw [Function.comp_apply]
        split_ifs with h
        · exact h.symm
        · rfl
      rwa [hsame]
    · rw [List.map_append]
      exact List.mem_append_left _ hid
    · exact hid
  have hrows (snapshot : Option (List PhysPar)) (ps : List (PhysPar × SqlResult))
      (t : List PhysPar) : ∀ id ∈ t.map PhysPar.physParId,
        id ∈ (writeParameterRows jet snapshot ps t).2.map PhysPar.physParId := by
    induction ps generalizing t with
    | nil => exact fun id hid => hid
    | cons p ps ih =>
      intro id hid
      rw [writeParameterRows]
      split_ifs
      · exact hrow snapshot p t id hid
      · exact ih _ id (hrow snapshot p t id hid)
  intro id hid
  unfold Leis.writeSISInfo
  dsimp only
  split_ifs
  · exact hid
  · exact hid
  · exact hid
  · show id ∈ (writeParameters jet db.physPars i.select i.parameters).2.map PhysPar.physParId
    unfold writeParameters forRows
    split_ifs
    · exact hid
    · exact hrows _ _ _ id hid

/-- Denying or allowing the connection does not open it. -/
theorem file_letConnPermission (hs : s.Sound) {vData pending : Bool} :
    (s.db.letConnPermission vData pending).bConnStatus = true → s.files.dataBase.isSome := by
  intro h
  unfold DB.letConnPermission at h
  by_cases hopen : s.db.bConnStatus = true
  · exact hs.file hopen
  · rw [if_neg hopen] at h
    split_ifs at h <;> exact absurd h hopen

variable (set iQueLength) in
/-- **One call.** -/
theorem done_next (hs : s.Sound) {c : LeisCall} (hc : Ordinary s c) :
    (s.next set iQueLength c).2.Done s (s.next set iQueLength c).1 := by
  cases c with
  | writeQueue e row histID =>
    show (s.writeQueue set e row histID).2.Done s (s.writeQueue set e row histID).1
    unfold Outbox.writeQueue
    cases alwayString row.actValue with
    | error err => exact done_same rfl (fun id hid => hid) hs hs.file rfl
    | ok sActValue =>
      refine done_change hs ?_ ?_
      · intro r hr
        cases hr
        exact ⟨hc, rfl, rfl⟩
      · intro t executed deleted
        cases t with
        | nil => rfl
        | cons a t => rfl
  | masterSQLDone e vHistID =>
    exact done_change hs (fun r hr => by cases hr) fun t executed deleted => (ite_self _).symm
  | slaveSQLDone e vHistID =>
    exact done_change hs (fun r hr => by cases hr) fun t executed deleted => (ite_self _).symm
  | killMasterSent e =>
    exact done_change hs (fun r hr => by cases hr) fun t executed deleted => (ite_self _).symm
  | mantainDatabase pending o =>
    have hdata : (s.mantainDatabase pending o).files.dataBase = s.files.dataBase := hc
    have hrows : (s.mantainDatabase pending o).rows = s.rows := by
      rw [Outbox.rows, hdata, Outbox.rows]
    refine done_same ?_ ?_ hs ?_ rfl
    · show histsOf (s.mantainDatabase pending o).rows = histsOf s.rows
      rw [hrows]
    · intro id hid
      show id ∈ (tablesOf (s.mantainDatabase pending o).rows).physPars.map PhysPar.physParId
      rwa [hrows]
    · intro h
      show (s.mantainDatabase pending o).files.dataBase.isSome
      rw [hdata]
      exact file_letConnPermission hs h
  | readQueue e master found =>
    refine done_same rfl (fun id hid => hid) hs ?_ rfl
    exact (file_of_sqlExecute set hs _ _).2
  | writeSISInfo jet i =>
    show (s.writeSISInfo jet i).2.Done s (s.writeSISInfo jet i).1
    unfold Outbox.writeSISInfo
    by_cases hopen : s.db.bConnStatus = true
    · simp only [if_pos hopen]
      obtain ⟨rows, hrows⟩ := Option.isSome_iff_exists.1 (hs.file hopen)
      have hs' : s.rows = rows := by rw [Outbox.rows, hrows, Option.getD_some]
      refine done_same ?_ ?_ hs ?_ rfl
      · rw [Outbox.hists, Outbox.hists, Outbox.rows, hs', hrows]
        exact histsOf_withTables ..
      · intro id hid
        have hknown := known_writeSISInfo jet (tablesOf s.rows) i id hid
        rw [Outbox.physPars, Outbox.rows, hrows]
        simpa only [Option.map_some, Option.getD_some, physPars_withTables] using hknown
      · intro _
        simp only [hrows, Option.map_some, Option.isSome_some]
    · rw [if_neg hopen]
      exact done_same rfl (fun id hid => hid) hs hs.file rfl
  | denyConnection pending =>
    exact done_same rfl (fun id hid => hid) hs (file_letConnPermission hs) rfl
  | allowConnection =>
    exact done_same rfl (fun id hid => hid) hs (file_letConnPermission hs) rfl
  | disconnect =>
    exact done_same rfl (fun id hid => hid) hs (fun h => absurd h Bool.false_ne_true) rfl

end Step

/-- **Maintenance leaves the rows** when its `FileCopy` writes the whole copy. -/
theorem leavesRows_of_fileCopy {s : Outbox} {pending : Bool} {o : MaintenanceOutcome LocalRow}
    (h : o.fileCopy = .ok ()) : Ordinary s (.mantainDatabase pending o) := by
  have hlast (f : Files LocalRow) (o : MaintenanceOutcome LocalRow) (h : o.fileCopy = .ok ()) :
      ((Leis.mantainDatabase f o).getLastD f).dataBase = f.dataBase := by
    have hdrop : (dropOldBak f o).dataBase = f.dataBase := by
      unfold dropOldBak
      split_ifs <;> rfl
    unfold Leis.mantainDatabase
    split_ifs with hden
    · rw [← hdrop]
      generalize dropOldBak f o = f₁
      cases hcompact : compactDatabase f₁ o with
      | error g => simpa [untilError, hcompact] using (compactDatabase_error hcompact).1
      | ok g =>
        obtain ⟨-, hdata, hbak⟩ := compactDatabase_ok hcompact
        cases hkill : o.killDataBase with
        | false => simpa [untilError, hcompact, Leis.killDataBase, hkill] using hdata
        | true =>
          -- the compacted copy comes back
          cases hend : o.killBak <;>
            simp [untilError, hcompact, Leis.killDataBase, hkill, fileCopy, h, killBak, hend,
              hbak]
    · rfl
  exact hlast s.files _ h

/-- `WriteQueue` on the table is the call of `LEISer.WriteQueue`. -/
theorem writeQueue_eq {s : Outbox} {set : Settings} {e : Engine} {row : HistRow} {histID : ℤ}
    {q : Queued} (h : Leis.writeQueue set (s.engine e) row s.db = .ok q) :
    (s.writeQueue set e row histID).1.db = q.db ∧
      (s.writeQueue set e row histID).2.answer = .text q.ret ∧
      (s.writeQueue set e row histID).2.executed.elim [] HistStatement.inserted = q.rows := by
  unfold Leis.writeQueue at h
  unfold Outbox.writeQueue
  cases htext : alwayString row.actValue with
  | error err =>
    rw [htext] at h
    cases h
  | ok sActValue =>
    rw [htext] at h
    set r := s.db.sqlExecute set.iRepQty (s.engine e) (set.insertText row sActValue) with hr
    have hq : q = ⟨r.1.text.getD [], if r.1 = .done then [histData row] else [], r.2⟩ :=
      (Except.ok.inj h).symm
    simp only [Outbox.change, Outbox.sqlExecute, ← hr, hq]
    by_cases hdone : r.1 = .done
    · simp [hdone, HistStatement.inserted]
    · simp [hdone]

/-! ### The account of the table -/

/-- A statement deletes what it does not leave of the old and the new values. -/
theorem apply_perm (q : HistStatement) (rows : List LocalRow) :
    ((histsOf rows).map HistRecord.data ++ q.inserted).Perm
      ((q.deleted rows).map HistRecord.data ++ (q.apply (histsOf rows)).map HistRecord.data) := by
  cases q with
  | insert r =>
    have hadd : (HistStatement.apply (histsOf rows) (.insert r)).map HistRecord.data =
        (histsOf rows).map HistRecord.data ++ [r.data] := List.map_append
    rw [hadd]
    exact .refl _
  | masterDone id =>
    have hsame : (HistStatement.apply (histsOf rows) (.masterDone id)).map HistRecord.data =
        (histsOf rows).map HistRecord.data :=
      Keyed.map_update (f := fun r : HistRecord => { r with masterDone := true }) (fun _ => rfl) _
    rw [hsame]
    exact .of_eq (List.append_nil _)
  | slaveDone id =>
    have hsame : (HistStatement.apply (histsOf rows) (.slaveDone id)).map HistRecord.data =
        (histsOf rows).map HistRecord.data :=
      Keyed.map_update (f := fun r : HistRecord => { r with slaveDone := true }) (fun _ => rfl) _
    rw [hsame]
    exact .of_eq (List.append_nil _)
  | killMasterSent =>
    show ((histsOf rows).map HistRecord.data ++ []).Perm
      (((histsOf rows).filter HistRecord.masterDone).map HistRecord.data ++
        ((histsOf rows).filter fun r : HistRecord => !r.masterDone).map HistRecord.data)
    rw [List.append_nil, ← List.map_append]
    exact (List.filter_append_perm _ _).symm.map _

section Runs

variable {set : Settings} {iQueLength : ℤ} {s : Outbox} {calls : List LeisCall}

/-- The keys stay distinct, and the connection one to a file. -/
theorem sound_after (hs : s.Sound) (hc : (leis set iQueLength).EachStep Ordinary s calls) :
    ((leis set iQueLength).after s calls).Sound := by
  have hkeep (s : Outbox) (c : LeisCall) (hs : s.Sound) (hc : Ordinary s c) :
      ((leis set iQueLength).next s c).1.Sound := (done_next set iQueLength hs hc).sound
  exact Machine.after_invariant hkeep hs hc

/-- **Nothing is lost on the way through the table.**  In a run, the values of the `WriteQueue`
calls that were answered with the empty text, together with those in the table before, are those
in the table after it together with those that `KillMasterSent` deleted; and it deletes only rows
that the master has taken over. -/
theorem hist_ledger (hs : s.Sound) (hc : (leis set iQueLength).EachStep Ordinary s calls) :
    (s.hists.map HistRecord.data ++
        ((leis set iQueLength).outs s calls).flatMap Served.accepted).Perm
      (((leis set iQueLength).outs s calls).flatMap (fun o => o.deleted.map HistRecord.data) ++
        ((leis set iQueLength).after s calls).hists.map HistRecord.data) ∧
    ∀ o ∈ (leis set iQueLength).outs s calls, ∀ r ∈ o.deleted, r.masterDone = true := by
  have hbalanced (s : Outbox) (c : LeisCall) (hs : s.Sound) (hc : Ordinary s c) :
      (leis set iQueLength).Balanced (fun s => s.hists.map HistRecord.data) Served.accepted
        (fun o => o.deleted.map HistRecord.data) s c := by
    have hdone := done_next set iQueLength hs hc
    show (_ ++ (s.next set iQueLength c).2.accepted).Perm
      ((s.next set iQueLength c).2.deleted.map _ ++ (s.next set iQueLength c).1.hists.map _)
    rw [hdone.accepted, hdone.deleted, hdone.hists]
    cases (s.next set iQueLength c).2.executed with
    | none => exact .of_eq (List.append_nil _)
    | some q => exact apply_perm q s.rows
  have hdeleted (s : Outbox) (c : LeisCall) (hs : s.Sound) (hc : Ordinary s c) :
      ∀ r ∈ ((leis set iQueLength).next s c).2.deleted, r.masterDone = true := by
    have hdone := done_next set iQueLength hs hc
    intro r hr
    have hr' : r ∈ (s.next set iQueLength c).2.deleted := hr
    rw [hdone.deleted] at hr'
    cases hq : (s.next set iQueLength c).2.executed with
    | none => simp [hq] at hr'
    | some q =>
      rw [hq] at hr'
      cases q with
      | insert r => cases hr'
      | masterDone id => cases hr'
      | slaveDone id => cases hr'
      | killMasterSent => exact (List.mem_filter.1 hr').2
  have hkeep (s : Outbox) (c : LeisCall) (hs : s.Sound) (hc : Ordinary s c) :
      ((leis set iQueLength).next s c).1.Sound := (done_next set iQueLength hs hc).sound
  refine ⟨Machine.ledger (Machine.eachStep_of_invariant hkeep hbalanced hs hc), ?_⟩
  exact Machine.forall_mem_outs.2 (Machine.eachStep_of_invariant hkeep hdeleted hs hc)

end Runs

/-! ### The life of a row -/

/-- The marks of a row. -/
structure Marks where
  masterDone : Bool
  slaveDone : Bool
  deriving DecidableEq, Repr

def HistRecord.marks (r : HistRecord) : Marks := ⟨r.masterDone, r.slaveDone⟩

/-- The row with other marks. -/
def HistRecord.marked (r : HistRecord) (m : Marks) : HistRecord :=
  ⟨r.histID, r.data, m.masterDone, m.slaveDone⟩

/-- Whether the row is not offered any more. -/
def Marks.done (m : Marks) (master : Bool) : Bool := if master then m.masterDone else m.slaveDone

/-- What happens to one row. -/
inductive RowEvent where
  | masterDone
  | slaveDone
  | killMasterSent
  deriving DecidableEq, Repr

/-- The marks after an event, unless the row is deleted. -/
def RowEvent.apply (m : Marks) : RowEvent → Option Marks
  | masterDone => some { m with masterDone := true }
  | slaveDone => some { m with slaveDone := true }
  | killMasterSent => if m.masterDone then none else some m

/-- **The life of a row**: the marks after the events, unless the row is deleted. -/
def life : Marks → List RowEvent → Option Marks
  | m, [] => some m
  | m, e :: es => (e.apply m).bind fun m => life m es

/-- What a statement is for the row with this key. -/
def HistStatement.on (histID : ℤ) : HistStatement → Option RowEvent
  | insert _ => none
  | masterDone id => if id = histID then some .masterDone else none
  | slaveDone id => if id = histID then some .slaveDone else none
  | killMasterSent => some .killMasterSent

def Served.on (histID : ℤ) (o : Served) : Option RowEvent :=
  o.executed.bind (HistStatement.on histID)

/-- A statement does to a row what its event says. -/
theorem mem_apply {q : HistStatement} {rs : List HistRecord} {r : HistRecord} (hr : r ∈ rs) :
    ∀ m, (q.on r.histID).elim (some r.marks) (RowEvent.apply r.marks) = some m →
      r.marked m ∈ q.apply rs := by
  intro m hm
  have hupdate (id : ℤ) (f : HistRecord → HistRecord)
      (h : r.marked m = if r.histID = id then f r else r) :
      r.marked m ∈ Keyed.update HistRecord.histID id f rs := by
    rw [h]
    exact List.mem_map_of_mem (f := fun r => if r.histID = id then f r else r) hr
  cases q with
  | insert r' =>
    obtain rfl := Option.some.inj hm
    exact List.mem_append_left _ hr
  | masterDone id =>
    refine hupdate id _ ?_
    by_cases hid : id = r.histID
    · rw [HistStatement.on, if_pos hid] at hm
      obtain rfl := Option.some.inj hm
      rw [if_pos hid.symm]
      rfl
    · rw [HistStatement.on, if_neg hid] at hm
      obtain rfl := Option.some.inj hm
      rw [if_neg fun h => hid h.symm]
      rfl
  | slaveDone id =>
    refine hupdate id _ ?_
    by_cases hid : id = r.histID
    · rw [HistStatement.on, if_pos hid] at hm
      obtain rfl := Option.some.inj hm
      rw [if_pos hid.symm]
      rfl
    · rw [HistStatement.on, if_neg hid] at hm
      obtain rfl := Option.some.inj hm
      rw [if_neg fun h => hid h.symm]
      rfl
  | killMasterSent =>
    have hkill : (if r.masterDone then none else some r.marks) = some m := hm
    split_ifs at hkill with hmaster
    obtain rfl := Option.some.inj hkill
    have hnot : (!r.masterDone) = true := by simpa using hmaster
    exact List.mem_filter.2 ⟨hr, hnot⟩

/-- A row whose life ends is deleted, having been marked by the master. -/
theorem mem_deleted {q : HistStatement} {rows : List LocalRow} {r : HistRecord}
    (hr : r ∈ histsOf rows)
    (hend : (q.on r.histID).elim (some r.marks) (RowEvent.apply r.marks) = none) :
    r ∈ q.deleted rows ∧ r.masterDone = true := by
  cases q with
  | insert r' => cases hend
  | masterDone id =>
    rw [HistStatement.on] at hend
    split_ifs at hend <;> cases hend
  | slaveDone id =>
    rw [HistStatement.on] at hend
    split_ifs at hend <;> cases hend
  | killMasterSent =>
    have hkill : (if r.masterDone then none else some r.marks) = none := hend
    split_ifs at hkill with hmaster
    exact ⟨List.mem_filter.2 ⟨hr, hmaster⟩, hmaster⟩

section Life

variable {set : Settings} {iQueLength : ℤ} {s : Outbox} {calls : List LeisCall}

/-- One event, then the others. -/
theorem life_filterMap_cons (m : Marks) (histID : ℤ) (o : Served) (os : List Served) :
    life m ((o :: os).filterMap (Served.on histID)) =
      ((o.on histID).elim (some m) (RowEvent.apply m)).bind fun m =>
        life m (os.filterMap (Served.on histID)) := by
  rw [List.filterMap_cons]
  cases o.on histID with
  | none => rfl
  | some e => rfl

variable (set iQueLength) in
/-- One call: the row is marked as its event says, or deleted if that ends its life. -/
theorem life_next (hs : s.Sound) {c : LeisCall} (hc : Ordinary s c) {r : HistRecord}
    (hr : r ∈ s.hists) :
    (((s.next set iQueLength c).2.on r.histID).elim (some r.marks) (RowEvent.apply r.marks) =
      none → r ∈ (s.next set iQueLength c).2.deleted ∧ r.masterDone = true) ∧
    ∀ m, ((s.next set iQueLength c).2.on r.histID).elim (some r.marks)
      (RowEvent.apply r.marks) = some m → r.marked m ∈ (s.next set iQueLength c).1.hists := by
  have hdone := done_next set iQueLength hs hc
  rw [hdone.deleted, hdone.hists, Served.on]
  cases (s.next set iQueLength c).2.executed with
  | none =>
    refine ⟨fun h => absurd h (Option.some_ne_none _), ?_⟩
    intro m hm
    obtain rfl := Option.some.inj hm
    exact hr
  | some q => exact ⟨mem_deleted hr, mem_apply hr⟩

/-- A row whose life has not ended is in the table, with its marks. -/
theorem marked_mem_after (hs : s.Sound) (hc : (leis set iQueLength).EachStep Ordinary s calls)
    {r : HistRecord} (hr : r ∈ s.hists) {m : Marks}
    (hlife : life r.marks (((leis set iQueLength).outs s calls).filterMap
      (Served.on r.histID)) = some m) :
    r.marked m ∈ ((leis set iQueLength).after s calls).hists := by
  induction calls generalizing s r with
  | nil =>
    obtain rfl := Option.some.inj hlife
    exact hr
  | cons c calls ih =>
    rw [Machine.outs_cons, life_filterMap_cons] at hlife
    obtain ⟨m₁, hm₁, hrest⟩ := Option.bind_eq_some_iff.1 hlife
    have hmem := (life_next set iQueLength hs hc.1 hr).2 m₁ hm₁
    exact ih (r := r.marked m₁) (done_next set iQueLength hs hc.1).sound hc.2 hmem hrest

/-- A row whose life has ended was deleted, having been marked by the master. -/
theorem deleted_of_life (hs : s.Sound) (hc : (leis set iQueLength).EachStep Ordinary s calls)
    {r : HistRecord} (hr : r ∈ s.hists)
    (hlife : life r.marks (((leis set iQueLength).outs s calls).filterMap
      (Served.on r.histID)) = none) :
    ∃ o ∈ (leis set iQueLength).outs s calls, ∃ m : Marks, m.masterDone = true ∧
      r.marked m ∈ o.deleted := by
  induction calls generalizing s r with
  | nil => exact absurd hlife (Option.some_ne_none _)
  | cons c calls ih =>
    rw [Machine.outs_cons, life_filterMap_cons] at hlife
    rw [Machine.outs_cons]
    have hstep := life_next set iQueLength hs hc.1 hr
    cases hm : ((s.next set iQueLength c).2.on r.histID).elim (some r.marks)
        (RowEvent.apply r.marks) with
    | none => exact ⟨_, List.mem_cons_self, r.marks, (hstep.1 hm).2, (hstep.1 hm).1⟩
    | some m₁ =>
      have hrest : life m₁ (((leis set iQueLength).outs (s.next set iQueLength c).1
          calls).filterMap (Served.on r.histID)) = none := by
        have hbind := hlife
        rw [show ((leis set iQueLength).next s c).2 = (s.next set iQueLength c).2 from rfl,
          hm] at hbind
        exact hbind
      obtain ⟨o, ho, hdel⟩ := ih (r := r.marked m₁) (done_next set iQueLength hs hc.1).sound hc.2
        (hstep.2 m₁ hm) hrest
      exact ⟨o, List.mem_cons_of_mem _ ho, hdel⟩

/-- **The life of a row** is that of its marks: over a run, whatever the other calls are, the row
stays in the table with its value and the marks that the statements on its key leave, or has been
deleted after the master marked it. -/
theorem row_life (hs : s.Sound) (hc : (leis set iQueLength).EachStep Ordinary s calls)
    {r : HistRecord} (hr : r ∈ s.hists) :
    (∀ m, life r.marks (((leis set iQueLength).outs s calls).filterMap (Served.on r.histID)) =
      some m → r.marked m ∈ ((leis set iQueLength).after s calls).hists) ∧
    (life r.marks (((leis set iQueLength).outs s calls).filterMap (Served.on r.histID)) = none →
      ∃ o ∈ (leis set iQueLength).outs s calls, ∃ m : Marks, m.masterDone = true ∧
        r.marked m ∈ o.deleted) :=
  ⟨fun _ hlife => marked_mem_after hs hc hr hlife, deleted_of_life hs hc hr⟩

/-- A parameter that is known stays known over a run. -/
theorem known_after (hs : s.Sound) (hc : (leis set iQueLength).EachStep Ordinary s calls) {id : ℤ}
    (hknown : id ∈ s.physPars.map PhysPar.physParId) :
    id ∈ ((leis set iQueLength).after s calls).physPars.map PhysPar.physParId := by
  have hkeep (s : Outbox) (c : LeisCall)
      (h : s.Sound ∧ id ∈ s.physPars.map PhysPar.physParId) (hc : Ordinary s c) :
      ((leis set iQueLength).next s c).1.Sound ∧
        id ∈ ((leis set iQueLength).next s c).1.physPars.map PhysPar.physParId := by
    have hdone := done_next set iQueLength h.1 hc
    exact ⟨hdone.sound, hdone.known id h.2⟩
  exact (Machine.after_invariant hkeep ⟨hs, hknown⟩ hc).2

/-- What `ReadQueue` selects. -/
theorem mem_queue {master : Bool} {q : QueueRow} :
    q ∈ s.queue master ↔ q.record ∈ s.hists ∧ q.record.marks.done master = false ∧
      ∃ p ∈ s.physPars, q.record.data.physParID = p.physParId ∧
        q.dataSetName = p.cols.dataSetName := by
  unfold Outbox.queue
  simp only [List.mem_flatMap, List.mem_filterMap, Option.ite_none_right_eq_some]
  constructor
  · rintro ⟨r, hr, p, hp, ⟨hid, hdone⟩, hq⟩
    obtain rfl := Option.some.inj hq
    exact ⟨hr, hdone, p, hp, hid, rfl⟩
  · rintro ⟨hr, hdone, p, hp, hid, hname⟩
    refine ⟨q.record, hr, p, hp, ⟨hid, hdone⟩, ?_⟩
    rw [← hname]

/-- The rows that an answered `ReadQueue` returns. -/
theorem rows_readQueue {e : Engine} {master : Bool} {found rows : List QueueRow}
    (h : (s.readQueue set iQueLength e master found).2.answer = .rows (some rows)) :
    rows = found.take iQueLength.toNat := by
  have hrows : (if (s.db.sqlExecute set.iRepQty (s.engine e)
        (Outbox.selectText iQueLength master)).1 = .done ∧ found.take iQueLength.toNat ≠ [] then
      some (found.take iQueLength.toNat) else none) = some rows := Answer.rows.inj h
  split_ifs at hrows
  exact (Option.some.inj hrows).symm

/-- **A row is offered until it is marked.**  In every run, a row that is in the table with its
parameter is returned by each `ReadQueue` that is not full exactly as long as the statements on its
key have not marked it for that reader; a full `ReadQueue` returns none that is marked. -/
theorem row_offered (hs : s.Sound) (hc : (leis set iQueLength).EachStep Ordinary s calls)
    {r : HistRecord} (hr : r ∈ s.hists)
    (hknown : r.data.physParID ∈ s.physPars.map PhysPar.physParId) {m : Marks}
    (hlife : life r.marks (((leis set iQueLength).outs s calls).filterMap
      (Served.on r.histID)) = some m)
    {e : Engine} {master : Bool} {found rows : List QueueRow}
    (hfound : found.Perm (((leis set iQueLength).after s calls).queue master))
    (hread : (((leis set iQueLength).after s calls).readQueue set iQueLength e master
      found).2.answer = .rows (some rows)) :
    (∀ q ∈ rows, q.record.histID = r.histID → q.record = r.marked m ∧ m.done master = false) ∧
    ((rows.length : ℤ) < iQueLength → m.done master = false →
      ∃ q ∈ rows, q.record = r.marked m) := by
  have hmem := marked_mem_after hs hc hr hlife
  have hkeys := (sound_after hs hc).keys
  have hrows := rows_readQueue hread
  constructor
  · intro q hq hkey
    rw [hrows] at hq
    obtain ⟨hrec, hdone, -⟩ := mem_queue.1 (hfound.mem_iff.1 (List.mem_of_mem_take hq))
    have hsame : q.record = r.marked m := List.inj_on_of_nodup_map hkeys hrec hmem hkey
    rw [hsame] at hdone
    exact ⟨hsame, hdone⟩
  · intro hlen hdone
    -- fewer rows than asked for are all the rows
    have hall : rows = found := by
      rw [hrows]
      refine List.take_of_length_le ?_
      rw [hrows, List.length_take] at hlen
      omega
    obtain ⟨p, hp, hid⟩ := List.mem_map.1 (known_after hs hc hknown)
    refine ⟨⟨r.marked m, p.cols.dataSetName⟩, ?_, rfl⟩
    rw [hall]
    exact hfound.mem_iff.2 (mem_queue.2 ⟨hmem, hdone, p, hp, hid.symm, rfl⟩)

end Life

/-! ### A run -/

/-- An engine that executes every statement. -/
def readyEngine : Engine := ⟨fun _ => true, .ok ()⟩

/-- The settings of the example. -/
def plainSettings : Settings := ⟨2, 58, fun _ => []⟩

/-- The history value of the example. -/
def exampleRow : HistRow := ⟨7, 0, vb "42", 1, noEvenTime⟩

/-- The row of the example, as it is inserted. -/
def exampleRecord : HistRecord := ⟨5, histData exampleRow, false, false⟩

/-- A table with one row, and its parameter. -/
def exampleOutbox : Outbox :=
  ⟨⟨true, false⟩, ⟨some [.hist exampleRecord,
    .physPar ⟨7, ⟨.null, .null, .str (vb "LINE1"), .null, .null, .null, .null, .null, .null⟩⟩],
    none⟩⟩

/-- A value comes in and the old one is taken over by a slave; the database is maintained. -/
def exampleCalls : List LeisCall :=
  [.writeQueue readyEngine exampleRow 6, .slaveSQLDone readyEngine 5,
    .killMasterSent readyEngine,
    .mantainDatabase false ⟨true, true, .ok (), true, .ok (), true⟩,
    .masterSQLDone readyEngine 6]

theorem sound_exampleOutbox : exampleOutbox.Sound :=
  ⟨by decide, fun h => absurd h (by decide)⟩

theorem ordinary_exampleCalls :
    (leis plainSettings 10).EachStep Ordinary exampleOutbox exampleCalls := by
  refine ⟨?_, trivial, trivial, leavesRows_of_fileCopy rfl, trivial, trivial⟩
  show (6 : ℤ) ∉ [5]
  decide

/-- `hist_ledger` in the run of the example. -/
theorem hist_ledger_exampleCalls :
    (exampleOutbox.hists.map HistRecord.data ++
        ((leis plainSettings 10).outs exampleOutbox exampleCalls).flatMap Served.accepted).Perm
      (((leis plainSettings 10).outs exampleOutbox exampleCalls).flatMap
          (fun o => o.deleted.map HistRecord.data) ++
        ((leis plainSettings 10).after exampleOutbox exampleCalls).hists.map HistRecord.data) ∧
    ((leis plainSettings 10).outs exampleOutbox exampleCalls).flatMap Served.accepted =
      [histData exampleRow] :=
  ⟨(hist_ledger sound_exampleOutbox ordinary_exampleCalls).1, rfl⟩

/-- `row_life` of the old row of the example. -/
theorem row_life_exampleRecord :
    exampleRecord.marked ⟨false, true⟩ ∈
      ((leis plainSettings 10).after exampleOutbox exampleCalls).hists :=
  (row_life sound_exampleOutbox ordinary_exampleCalls (r := exampleRecord)
    (by decide)).1 ⟨false, true⟩ rfl

/-- `row_offered` for the old row of the example: the master reads it at the end. -/
theorem row_offered_exampleRecord :
    ∃ q ∈ ((leis plainSettings 10).after exampleOutbox exampleCalls).queue true,
      q.record = exampleRecord.marked ⟨false, true⟩ := by
  have hread : (((leis plainSettings 10).after exampleOutbox exampleCalls).readQueue plainSettings
      10 readyEngine true (((leis plainSettings 10).after exampleOutbox exampleCalls).queue
        true)).2.answer =
      .rows (some (((leis plainSettings 10).after exampleOutbox exampleCalls).queue true)) := rfl
  exact (row_offered sound_exampleOutbox ordinary_exampleCalls (r := exampleRecord) (by decide)
    (by decide) (m := ⟨false, true⟩) rfl (.refl _) hread).2 (by decide) rfl

end Leis

end Edps
