import Edps.Vb.Basic
import Mathlib.Data.List.Count
import Mathlib.Data.List.Nodup
import Mathlib.Data.List.Perm.Basic
import Mathlib.Tactic.Common

/-!
# Replacing the configuration

`LEISer.WriteSISInfo` replaces the configuration tables inside one transaction: parameters are
updated or inserted row by row, formulas and operations are deleted and inserted again.  Every
statement goes through `DB.SQLExecute`, whose result is a recordset or one of three texts.

* `isError_iff` : only a text that begins with `Error:` counts as a failure.
* `writeSISInfo` : the answer and the three tables, for every pattern of outcomes.
* `truthful_iff` : exactly when the answer `True` means that the tables hold what was given (and
  `False` that nothing changed).

The results of the two `DELETE`s and of the `SELECT` behind the update-or-insert choice are not
looked at, and the two texts of a prohibited or broken connection count as successes, so a
transaction that was not carried out in full can be committed and reported as done.
-/

namespace Edps

namespace Leis

open Vb

/-! ### Rows and statements -/

/-- An element of an array of `GetRows`. -/
inductive Cell where
  /-- `vbString` -/
  | str (s : VbString)
  /-- `vbInteger`, `vbLong` -/
  | int (n : ℤ)
  /-- `vbBoolean` -/
  | bool (b : Bool)
  /-- `vbNull` -/
  | null
  /-- The types that are printed without quotes (`vbSingle`, `vbDouble`, `vbDecimal`, `vbDate`,
  `vbCurrency`), with the text printed. -/
  | shown (text : VbString)
  /-- Any other type. -/
  | other
  deriving DecidableEq, Repr

/-- `AlwayString1`: the literal written into a statement. -/
def alwayString1 : Cell → VbString
  | .str s => vb "'" ++ trim s ++ vb "'"
  | .int n => trim (str n)
  | .bool b => if b then vb "True" else vb "False"
  | .null => vb "Null"
  | .shown text => text
  | .other => []

/-- The columns of `tblPhysPar` other than `PhysPar_ID`. -/
structure PhysParCols (α : Type) where
  type : α
  physType : α
  dataSetName : α
  addrStr1 : α
  addrStr2 : α
  addrStr3 : α
  addrStr4 : α
  addrStr5 : α
  addrStr6 : α
  deriving DecidableEq, Repr

/-- The columns of `tblFormula`. -/
structure FormulaCols (α : Type) where
  formulaId : α
  timeLoop : α
  description : α
  deriving DecidableEq, Repr

/-- The columns of `tblOperation`. -/
structure OperationCols (α : Type) where
  formulaId : α
  operationId : α
  function : α
  oper1 : α
  type1 : α
  oper2 : α
  type2 : α
  oper3 : α
  type3 : α
  description : α
  deriving DecidableEq, Repr

def PhysParCols.map {α β : Type} (f : α → β) (c : PhysParCols α) : PhysParCols β :=
  ⟨f c.type, f c.physType, f c.dataSetName, f c.addrStr1, f c.addrStr2, f c.addrStr3,
    f c.addrStr4, f c.addrStr5, f c.addrStr6⟩

def FormulaCols.map {α β : Type} (f : α → β) (c : FormulaCols α) : FormulaCols β :=
  ⟨f c.formulaId, f c.timeLoop, f c.description⟩

def OperationCols.map {α β : Type} (f : α → β) (c : OperationCols α) : OperationCols β :=
  ⟨f c.formulaId, f c.operationId, f c.function, f c.oper1, f c.type1, f c.oper2, f c.type2,
    f c.oper3, f c.type3, f c.description⟩

/-- A row of `tblPhysPar`. -/
structure PhysPar where
  physParId : ℤ
  cols : PhysParCols Cell
  deriving DecidableEq, Repr

abbrev Formula := FormulaCols Cell

abbrev Operation := OperationCols Cell

/-- The three configuration tables. -/
structure Tables where
  physPars : List PhysPar
  formulas : List Formula
  operations : List Operation
  deriving DecidableEq, Repr

/-- The database engine: what it stores for the literals of a statement. -/
structure Jet where
  physPar : PhysParCols VbString → PhysParCols Cell
  formula : FormulaCols VbString → Formula
  operation : OperationCols VbString → Operation

namespace Jet

variable (jet : Jet)

def storePhysPar (p : PhysPar) : PhysPar := ⟨p.physParId, jet.physPar (p.cols.map alwayString1)⟩

def storeFormula (f : Formula) : Formula := jet.formula (f.map alwayString1)

def storeOperation (o : Operation) : Operation := jet.operation (o.map alwayString1)

end Jet

/-- What comes back from `SQLExecute`. -/
inductive SqlResult where
  /-- The recordset of an executed statement. -/
  | done
  /-- The connection permission is off. -/
  | prohibited
  /-- The connection cannot be opened. -/
  | broken
  /-- The statement failed, with the description and the text of the query. -/
  | error (description : VbString)
  deriving DecidableEq, Repr

/-- The text of a result that is a string. -/
def SqlResult.text : SqlResult → Option VbString
  | .done => none
  | .prohibited => some (vb "Connection temporarily prohibited !!!")
  | .broken => some (vb "Connection is broken!")
  | .error description => some (vb "Error: " ++ description)

/-- `VarType(vTa) = vbString` and `Left(vTa, 6) = "Error:"` -/
def SqlResult.isError (r : SqlResult) : Bool :=
  match r.text with
  | some t => t.take 6 = vb "Error:"
  | none => false

@[simp] theorem isError_done : SqlResult.done.isError = false := rfl

/-- Only the third failure text is one for the callers of `SQLExecute`. -/
theorem isError_iff (r : SqlResult) : r.isError = true ↔ ∃ d, r = .error d := by
  cases r with
  | done => simp
  | prohibited =>
    have hno : SqlResult.prohibited.isError = false := by decide
    simp [hno]
  | broken =>
    have hno : SqlResult.broken.isError = false := by decide
    simp [hno]
  | error d =>
    have htake : (vb "Error: " ++ d).take 6 = vb "Error:" := rfl
    simp [SqlResult.isError, SqlResult.text, htake]

/-! ### The three loops -/

/-- A `For` loop over `n` rows from `0` with an `Integer` counter: with more than 32768 rows its
bound overflows before the first row, with 32768 its counter after the last. -/
def forRows {α : Type} (n : ℕ) (t : α) (loop : α → Bool × α) : Bool × α :=
  if 32768 < n then (false, t) else ((loop t).1 && n ≠ 32768, (loop t).2)

/-- The rows inserted one by one, until a statement reports an error. -/
def insertRows {ρ : Type} (store : ρ → ρ) : List (ρ × SqlResult) → List ρ → Bool × List ρ
  | [], t => (true, t)
  | (row, r) :: rows, t =>
    let t' := if r = .done then t ++ [store row] else t
    if r.isError then (false, t') else insertRows store rows t'

/-- `DELETE * FROM` a table, whose result is not looked at, and the rows inserted. -/
def rewriteTable {ρ : Type} (store : ρ → ρ) (t : List ρ) (delete : SqlResult)
    (rows : List (ρ × SqlResult)) : Bool × List ρ :=
  forRows rows.length (if delete = .done then [] else t) (insertRows store rows)

def writeFormulas (jet : Jet) := rewriteTable jet.storeFormula

def writeOperations (jet : Jet) := rewriteTable jet.storeOperation

/-- `CheckPres`: an array of more than 32768 rows overflows its `Integer` counter, which counts
as not present. -/
def checkPres (rows : List PhysPar) (id : ℤ) : Bool :=
  rows.length ≤ 32768 && rows.any fun row => row.physParId = id

/-- `ReadParameters`: `Empty` when the statement or `GetRows` (on no rows) fails. -/
def readParameters (t : List PhysPar) (select : SqlResult) : Option (List PhysPar) :=
  if select = .done ∧ t ≠ [] then some t else none

/-- `Not bEmpty And CheckPres(vTa, iJ, id)` -/
def present (snapshot : Option (List PhysPar)) (id : ℤ) : Bool :=
  snapshot.any fun rows => checkPres rows id

/-- `UPDATE tblPhysPar SET ... WHERE PhysPar_ID = id` -/
def updatePhysPar (row : PhysPar) (t : List PhysPar) : List PhysPar :=
  t.map fun old => if old.physParId = row.physParId then row else old

/-- The statement of one parameter row, if it is executed. -/
def writeParameter (jet : Jet) (snapshot : Option (List PhysPar)) (p : PhysPar × SqlResult)
    (t : List PhysPar) : List PhysPar :=
  if p.2 = .done then
    if present snapshot p.1.physParId then updatePhysPar (jet.storePhysPar p.1) t
    else t ++ [jet.storePhysPar p.1]
  else t

/-- The parameter rows one by one, until a statement reports an error. -/
def writeParameterRows (jet : Jet) (snapshot : Option (List PhysPar)) :
    List (PhysPar × SqlResult) → List PhysPar → Bool × List PhysPar
  | [], t => (true, t)
  | p :: ps, t =>
    let t' := writeParameter jet snapshot p t
    if p.2.isError then (false, t') else writeParameterRows jet snapshot ps t'

def writeParameters (jet : Jet) (t : List PhysPar) (select : SqlResult)
    (ps : List (PhysPar × SqlResult)) : Bool × List PhysPar :=
  forRows ps.length t (writeParameterRows jet (readParameters t select) ps)

/-- The arguments of one call, every row with the outcome of its statement, and the outcomes of
the other statements. -/
structure SisInfo where
  parameters : List (PhysPar × SqlResult)
  formulas : List (Formula × SqlResult)
  operations : List (Operation × SqlResult)
  /-- the `SELECT` of `ReadParameters` -/
  select : SqlResult
  deleteFormulas : SqlResult
  deleteOperations : SqlResult
  /-- The parameter ids are distinct. -/
  distinct : (parameters.map fun p => p.1.physParId).Nodup

/-- `WriteSISInfo`: the first part that fails rolls the tables back. -/
def writeSISInfo (jet : Jet) (db : Tables) (i : SisInfo) : Bool × Tables :=
  let ps := writeParameters jet db.physPars i.select i.parameters
  if ps.1 = false then (false, db) else
  let fs := writeFormulas jet db.formulas i.deleteFormulas i.formulas
  if fs.1 = false then (false, db) else
  let os := writeOperations jet db.operations i.deleteOperations i.operations
  if os.1 = false then (false, db) else
  (true, ⟨ps.2, fs.2, os.2⟩)

/-! ### What the answer promises -/

/-- The tables hold what was given: exactly the given formulas and operations, the given
parameter rows, the old rows of the other ids, and no parameter id twice. -/
structure Replaced (old new : Tables) (i : SisInfo) : Prop where
  formulas : new.formulas.Perm (i.formulas.map Prod.fst)
  operations : new.operations.Perm (i.operations.map Prod.fst)
  noIdTwice : (new.physPars.map PhysPar.physParId).Nodup
  given : ∀ p ∈ i.parameters, p.1 ∈ new.physPars
  others : ∀ row : PhysPar, row.physParId ∉ i.parameters.map (fun p => p.1.physParId) →
    (row ∈ new.physPars ↔ row ∈ old.physPars)

/-- `True` is returned only when the tables have been replaced, `False` only when they are
unchanged. -/
def Truthful (jet : Jet) (db : Tables) (i : SisInfo) : Prop :=
  ((writeSISInfo jet db i).1 = true → Replaced db (writeSISInfo jet db i).2 i) ∧
    ((writeSISInfo jet db i).1 = false → (writeSISInfo jet db i).2 = db)

/-! ### When it keeps the promise -/

/-- A loop over these rows ends with `True`. -/
def Passes {ρ : Type} (rows : List (ρ × SqlResult)) : Prop :=
  rows.length < 32768 ∧ ∀ x ∈ rows, x.2.isError = false

/-- The outcomes of a table that is deleted and inserted again lead to exactly the given rows:
when the `DELETE` is executed, so is every `INSERT`, and the rows are stored as given; when it is
not, the rows left from before and those inserted happen to be the given ones. -/
def Rewritten {ρ : Type} (store : ρ → ρ) (t : List ρ) (delete : SqlResult)
    (rows : List (ρ × SqlResult)) : Prop :=
  if delete = .done then
    (∀ x ∈ rows, x.2 = .done) ∧ (rows.map fun x => store x.1).Perm (rows.map Prod.fst)
  else
    (t ++ (rows.filter fun x => x.2 = .done).map fun x => store x.1).Perm (rows.map Prod.fst)

/-- The outcome of a parameter row leads to the given row: its statement is executed, stores the
row as given and does not insert an id that is there (the snapshot was read, and is not too
long); or it is not executed and the given row is there already. -/
def Written (jet : Jet) (t : List PhysPar) (select : SqlResult) (p : PhysPar × SqlResult) :
    Prop :=
  if p.2 = .done then
    jet.storePhysPar p.1 = p.1 ∧
      (p.1.physParId ∈ t.map PhysPar.physParId → select = .done ∧ t.length ≤ 32768)
  else p.1 ∈ t

/-- The condition on the previous tables, the arguments and the outcomes: some row is reported
as failed, or nothing was lost. -/
def NothingLost (jet : Jet) (db : Tables) (i : SisInfo) : Prop :=
  Passes i.parameters ∧ Passes i.formulas ∧ Passes i.operations →
    (db.physPars.map PhysPar.physParId).Nodup ∧
    (∀ p ∈ i.parameters, Written jet db.physPars i.select p) ∧
    Rewritten jet.storeFormula db.formulas i.deleteFormulas i.formulas ∧
    Rewritten jet.storeOperation db.operations i.deleteOperations i.operations

/-! ### Loops -/

theorem forRows_fst {α : Type} {n : ℕ} {t : α} {loop : α → Bool × α} :
    (forRows n t loop).1 = true ↔ n < 32768 ∧ (loop t).1 = true := by
  unfold forRows
  split_ifs with h
  · simp only [false_iff]; omega
  · simp only [Bool.and_eq_true, decide_eq_true_eq]
    constructor
    · rintro ⟨hl, hn⟩; exact ⟨by omega, hl⟩
    · rintro ⟨hn, hl⟩; exact ⟨hl, by omega⟩

theorem forRows_snd {α : Type} {n : ℕ} {t : α} {loop : α → Bool × α} (h : n < 32768) :
    (forRows n t loop).2 = (loop t).2 := by
  rw [forRows, if_neg (by omega)]

section Insert

variable {ρ : Type} (store : ρ → ρ)

theorem insertRows_fst (rows : List (ρ × SqlResult)) (t : List ρ) :
    (insertRows store rows t).1 = true ↔ ∀ x ∈ rows, x.2.isError = false := by
  induction rows generalizing t with
  | nil => simp [insertRows]
  | cons x rows ih =>
    obtain ⟨row, r⟩ := x
    simp only [insertRows, List.forall_mem_cons]
    cases hr : r.isError with
    | true => simp
    | false => simpa using ih _

/-- The rows of the executed statements are added. -/
theorem insertRows_snd {rows : List (ρ × SqlResult)} (t : List ρ)
    (h : ∀ x ∈ rows, x.2.isError = false) :
    (insertRows store rows t).2 =
      t ++ (rows.filter fun x => x.2 = .done).map fun x => store x.1 := by
  induction rows generalizing t with
  | nil => simp [insertRows]
  | cons x rows ih =>
    obtain ⟨row, r⟩ := x
    obtain ⟨hr, hrows⟩ := List.forall_mem_cons.1 h
    simp only at hr
    simp only [insertRows, hr, Bool.false_eq_true, if_false, ih _ hrows]
    by_cases hd : r = .done <;> simp [hd]

/-- All rows passed the filter when as many came out as went in. -/
theorem all_done_of_length {rows : List (ρ × SqlResult)}
    (h : (rows.filter fun x => x.2 = .done).length = rows.length) : ∀ x ∈ rows, x.2 = .done := by
  have := List.filter_sublist.eq_of_length h
  intro x hx
  rw [← this] at hx
  simpa using (List.mem_filter.1 hx).2

theorem rewriteTable_fst (t : List ρ) (delete : SqlResult) (rows : List (ρ × SqlResult)) :
    (rewriteTable store t delete rows).1 = true ↔ Passes rows := by
  rw [rewriteTable, forRows_fst, insertRows_fst, Passes]

/-- The table after `DELETE` and the inserts, compared with the given rows. -/
theorem rewriteTable_perm_iff {t : List ρ} {delete : SqlResult} {rows : List (ρ × SqlResult)}
    (h : Passes rows) :
    (rewriteTable store t delete rows).2.Perm (rows.map Prod.fst) ↔
      Rewritten store t delete rows := by
  rw [rewriteTable, forRows_snd h.1, insertRows_snd store _ h.2, Rewritten]
  split_ifs with hd
  · rw [List.nil_append]
    have hfull (hall : ∀ x ∈ rows, x.2 = .done) :
        rows.filter (fun x => x.2 = .done) = rows :=
      List.filter_eq_self.2 fun x hx => by simpa using hall x hx
    constructor
    · intro hp
      -- as many rows as given, so none was left out
      have hlen := hp.length_eq
      simp only [List.length_map] at hlen
      have hall := all_done_of_length hlen
      exact ⟨hall, by rwa [hfull hall] at hp⟩
    · rintro ⟨hall, hp⟩
      rwa [hfull hall]
  · exact Iff.rfl

end Insert

/-! ### Parameter rows -/

/-- The rows with this id. -/
def rowsOf (id : ℤ) (t : List PhysPar) : List PhysPar := t.filter fun row => row.physParId = id

/-- What the statement of a parameter row makes of the rows with its id. -/
def rowsAfter (jet : Jet) (snapshot : Option (List PhysPar)) (p : PhysPar × SqlResult)
    (rows : List PhysPar) : List PhysPar :=
  if p.2 = .done then
    if present snapshot p.1.physParId then rows.map fun _ => jet.storePhysPar p.1
    else rows ++ [jet.storePhysPar p.1]
  else rows

theorem mem_rowsOf {id : ℤ} {t : List PhysPar} {row : PhysPar} :
    row ∈ rowsOf id t ↔ row ∈ t ∧ row.physParId = id := by
  simp [rowsOf]

theorem nodup_ids_iff {t : List PhysPar} :
    (t.map PhysPar.physParId).Nodup ↔ ∀ id, (rowsOf id t).length ≤ 1 := by
  rw [List.nodup_iff_count_le_one]
  refine forall_congr' fun id => ?_
  rw [List.count, List.countP_map, List.countP_eq_length_filter, rowsOf]
  simp only [Function.comp_def, beq_eq_decide]

theorem rowsOf_updatePhysPar (row : PhysPar) (id : ℤ) (t : List PhysPar) :
    rowsOf id (updatePhysPar row t) =
      if id = row.physParId then (rowsOf id t).map fun _ => row else rowsOf id t := by
  induction t with
  | nil => simp [updatePhysPar, rowsOf]
  | cons old t ih =>
    simp only [updatePhysPar, rowsOf, List.map_cons, List.filter_cons] at ih ⊢
    by_cases hid : id = row.physParId
    · subst hid
      by_cases hold : old.physParId = row.physParId <;> simp_all
    · by_cases hold : old.physParId = row.physParId
      · have hne : ¬ row.physParId = id := fun h => hid h.symm
        simp_all
      · simp_all

/-- One statement changes the rows of its own id only. -/
theorem rowsOf_writeParameter (jet : Jet) (snapshot : Option (List PhysPar))
    (p : PhysPar × SqlResult) (id : ℤ) (t : List PhysPar) :
    rowsOf id (writeParameter jet snapshot p t) =
      if id = p.1.physParId then rowsAfter jet snapshot p (rowsOf id t) else rowsOf id t := by
  have hid : (jet.storePhysPar p.1).physParId = p.1.physParId := rfl
  unfold writeParameter rowsAfter
  -- an update, an insert or nothing, for this id or for another one
  split_ifs with hd hp h h
  · rw [rowsOf_updatePhysPar, hid, if_pos h]
  · rw [rowsOf_updatePhysPar, hid, if_neg h]
  · simp [rowsOf, hid, h]
  · have hne : ¬ p.1.physParId = id := fun he => h he.symm
    simp [rowsOf, hid, hne]
  · rfl
  · rfl

theorem writeParameterRows_fst (jet : Jet) (snapshot : Option (List PhysPar))
    (ps : List (PhysPar × SqlResult)) (t : List PhysPar) :
    (writeParameterRows jet snapshot ps t).1 = true ↔ ∀ p ∈ ps, p.2.isError = false := by
  induction ps generalizing t with
  | nil => simp [writeParameterRows]
  | cons p ps ih =>
    simp only [writeParameterRows, List.forall_mem_cons]
    cases hr : p.2.isError with
    | true => simp
    | false => simpa using ih _

section Run

variable {jet : Jet} {snapshot : Option (List PhysPar)} {ps : List (PhysPar × SqlResult)}
  (hok : ∀ p ∈ ps, p.2.isError = false)

include hok

/-- The loop leaves the rows of ids that are not given. -/
theorem rowsOf_not_given {id : ℤ} (hid : id ∉ ps.map fun p => p.1.physParId) (t : List PhysPar) :
    rowsOf id (writeParameterRows jet snapshot ps t).2 = rowsOf id t := by
  induction ps generalizing t with
  | nil => rfl
  | cons p ps ih =>
    obtain ⟨hp, hps⟩ := List.forall_mem_cons.1 hok
    simp only [List.map_cons, List.mem_cons, not_or] at hid
    simp only [writeParameterRows, hp, Bool.false_eq_true, if_false]
    rw [ih hps hid.2, rowsOf_writeParameter, if_neg hid.1]

/-- The loop makes of the rows of a given id what its own statement makes of them. -/
theorem rowsOf_given (hnd : (ps.map fun p => p.1.physParId).Nodup) {p : PhysPar × SqlResult}
    (hmem : p ∈ ps) (t : List PhysPar) :
    rowsOf p.1.physParId (writeParameterRows jet snapshot ps t).2 =
      rowsAfter jet snapshot p (rowsOf p.1.physParId t) := by
  induction ps generalizing t with
  | nil => cases hmem
  | cons q ps ih =>
    obtain ⟨hq, hps⟩ := List.forall_mem_cons.1 hok
    simp only [List.map_cons, List.nodup_cons] at hnd
    simp only [writeParameterRows, hq, Bool.false_eq_true, if_false]
    rcases List.mem_cons.1 hmem with rfl | hmem
    · -- its own statement; the later ones are for other ids
      rw [rowsOf_not_given hps hnd.1, rowsOf_writeParameter, if_pos rfl]
    · have hne : ¬ p.1.physParId = q.1.physParId := fun he =>
        hnd.1 (he ▸ List.mem_map_of_mem hmem)
      rw [ih hps hnd.2 hmem, rowsOf_writeParameter, if_neg hne]

end Run

theorem present_iff {t : List PhysPar} {select : SqlResult} {id : ℤ} :
    present (readParameters t select) id = true ↔
      (select = .done ∧ t.length ≤ 32768) ∧ id ∈ t.map PhysPar.physParId := by
  unfold present readParameters
  split_ifs with h
  · simp [checkPres, h.1]
  · rw [not_and_or, not_not] at h
    rcases h with h | rfl
    · simp [h]
    · simp

theorem rowsOf_eq_nil {id : ℤ} {t : List PhysPar} :
    rowsOf id t = [] ↔ id ∉ t.map PhysPar.physParId := by
  simp [rowsOf]

/-- A statement leaves its own row as the only one with its id exactly when it is `Written` and
there was no other one before. -/
theorem rowsAfter_iff {jet : Jet} {t : List PhysPar} {select : SqlResult}
    {p : PhysPar × SqlResult} :
    ((rowsAfter jet (readParameters t select) p (rowsOf p.1.physParId t)).length ≤ 1 ∧
        p.1 ∈ rowsAfter jet (readParameters t select) p (rowsOf p.1.physParId t)) ↔
      (rowsOf p.1.physParId t).length ≤ 1 ∧ Written jet t select p := by
  unfold rowsAfter Written
  split_ifs with hd hp
  · -- an update keeps the number of rows
    obtain ⟨hsel, hid⟩ := present_iff.1 hp
    have hne : rowsOf p.1.physParId t ≠ [] := fun h => rowsOf_eq_nil.1 h hid
    have hmem : p.1 ∈ (rowsOf p.1.physParId t).map (fun _ => jet.storePhysPar p.1) ↔
        jet.storePhysPar p.1 = p.1 := by
      obtain ⟨row, hrow⟩ := List.exists_mem_of_ne_nil _ hne
      constructor
      · intro h
        obtain ⟨_, _, h⟩ := List.mem_map.1 h
        exact h
      · intro h
        exact List.mem_map.2 ⟨row, hrow, h⟩
    rw [List.length_map, hmem]
    exact ⟨fun ⟨hl, hs⟩ => ⟨hl, hs, fun _ => hsel⟩, fun ⟨hl, hs, _⟩ => ⟨hl, hs⟩⟩
  · constructor
    · rintro ⟨hl, hm⟩
      simp only [List.length_append, List.length_singleton] at hl
      have hnil : rowsOf p.1.physParId t = [] := List.length_eq_zero_iff.1 (by omega)
      simp only [hnil, List.nil_append, List.mem_singleton] at hm
      exact ⟨by omega, hm.symm, fun hid => absurd hid (rowsOf_eq_nil.1 hnil)⟩
    · rintro ⟨-, hs, hsel⟩
      have hnil : rowsOf p.1.physParId t = [] :=
        rowsOf_eq_nil.2 fun hid => hp (present_iff.2 ⟨hsel hid, hid⟩)
      rw [hnil, hs]
      simp
  · -- not executed: the row has to be there already
    rw [mem_rowsOf]
    simp

section WriteParameters

variable {jet : Jet} {t : List PhysPar} {select : SqlResult} {ps : List (PhysPar × SqlResult)}

theorem writeParameters_fst :
    (writeParameters jet t select ps).1 = true ↔ Passes ps := by
  rw [writeParameters, forRows_fst, writeParameterRows_fst, Passes]

/-- **The parameter table.**  After a loop that ends with `True`, no id is there twice and every
given row is there exactly when no id was there twice before and every row is `Written`. -/
theorem writeParameters_iff (hps : Passes ps)
    (hnd : (ps.map fun p => p.1.physParId).Nodup) :
    (((writeParameters jet t select ps).2.map PhysPar.physParId).Nodup ∧
        ∀ p ∈ ps, p.1 ∈ (writeParameters jet t select ps).2) ↔
      (t.map PhysPar.physParId).Nodup ∧ ∀ p ∈ ps, Written jet t select p := by
  have hgiven : ∀ p ∈ ps, rowsOf p.1.physParId (writeParameters jet t select ps).2 =
      rowsAfter jet (readParameters t select) p (rowsOf p.1.physParId t) := by
    intro p hp
    rw [writeParameters, forRows_snd hps.1, rowsOf_given hps.2 hnd hp]
  have hother : ∀ id ∉ ps.map (fun p => p.1.physParId),
      rowsOf id (writeParameters jet t select ps).2 = rowsOf id t := by
    intro id hid
    rw [writeParameters, forRows_snd hps.1, rowsOf_not_given hps.2 hid]
  set new := (writeParameters jet t select ps).2
  have hmem : ∀ p ∈ ps, (p.1 ∈ new ↔
      p.1 ∈ rowsAfter jet (readParameters t select) p (rowsOf p.1.physParId t)) := by
    intro p hp
    rw [← hgiven p hp, mem_rowsOf]
    simp
  -- id by id: the given ids by their own statements, the others unchanged
  rw [nodup_ids_iff, nodup_ids_iff]
  constructor
  · rintro ⟨hlen, hin⟩
    have hboth : ∀ p ∈ ps, (rowsOf p.1.physParId t).length ≤ 1 ∧ Written jet t select p := by
      intro p hp
      have := hlen p.1.physParId
      rw [hgiven p hp] at this
      exact rowsAfter_iff.1 ⟨this, (hmem p hp).1 (hin p hp)⟩
    refine ⟨fun id => ?_, fun p hp => (hboth p hp).2⟩
    by_cases hid : id ∈ ps.map fun p => p.1.physParId
    · obtain ⟨p, hp, rfl⟩ := List.mem_map.1 hid
      exact (hboth p hp).1
    · rw [← hother id hid]
      exact hlen id
  · rintro ⟨hlen, hw⟩
    have hboth := fun p hp => rowsAfter_iff.2 ⟨hlen p.1.physParId, hw p hp⟩
    refine ⟨fun id => ?_, fun p hp => (hmem p hp).2 (hboth p hp).2⟩
    by_cases hid : id ∈ ps.map fun p => p.1.physParId
    · obtain ⟨p, hp, rfl⟩ := List.mem_map.1 hid
      rw [hgiven p hp]
      exact (hboth p hp).1
    · rw [hother id hid]
      exact hlen id

/-- The rows of other ids stay. -/
theorem mem_writeParameters_other (hps : Passes ps) {row : PhysPar}
    (hid : row.physParId ∉ ps.map fun p => p.1.physParId) :
    row ∈ (writeParameters jet t select ps).2 ↔ row ∈ t := by
  have hrows : rowsOf row.physParId
      (writeParameterRows jet (readParameters t select) ps t).2 = rowsOf row.physParId t :=
    rowsOf_not_given hps.2 hid t
  have hmem := congrArg (row ∈ ·) hrows
  simpa [mem_rowsOf, writeParameters, forRows_snd hps.1] using hmem

end WriteParameters

/-! ### The transaction -/

/-- The answer is `True` when all three loops end with `True`. -/
theorem writeSISInfo_fst (jet : Jet) (db : Tables) (i : SisInfo) :
    (writeSISInfo jet db i).1 = true ↔
      Passes i.parameters ∧ Passes i.formulas ∧ Passes i.operations := by
  have hp : (writeParameters jet db.physPars i.select i.parameters).1 = true ↔
      Passes i.parameters := writeParameters_fst
  have hf : (writeFormulas jet db.formulas i.deleteFormulas i.formulas).1 = true ↔
      Passes i.formulas := rewriteTable_fst _ _ _ _
  have ho : (writeOperations jet db.operations i.deleteOperations i.operations).1 = true ↔
      Passes i.operations := rewriteTable_fst _ _ _ _
  rw [← hp, ← hf, ← ho]
  simp only [writeSISInfo]
  split_ifs <;> simp_all

theorem writeSISInfo_snd {jet : Jet} {db : Tables} {i : SisInfo}
    (h : (writeSISInfo jet db i).1 = true) :
    (writeSISInfo jet db i).2 =
      ⟨(writeParameters jet db.physPars i.select i.parameters).2,
        (writeFormulas jet db.formulas i.deleteFormulas i.formulas).2,
        (writeOperations jet db.operations i.deleteOperations i.operations).2⟩ := by
  simp only [writeSISInfo] at h ⊢
  split_ifs at h ⊢
  rfl

/-- A failure reported by any part rolls everything back. -/
theorem writeSISInfo_false {jet : Jet} {db : Tables} {i : SisInfo}
    (h : (writeSISInfo jet db i).1 = false) : (writeSISInfo jet db i).2 = db := by
  simp only [writeSISInfo] at h ⊢
  split_ifs at h ⊢ <;> rfl

/-- **All or nothing, and truthfully reported**: exactly when nothing is lost on the way, that
is when some row is reported as failed, or every statement that matters was executed. -/
theorem truthful_iff (jet : Jet) (db : Tables) (i : SisInfo) :
    Truthful jet db i ↔ NothingLost jet db i := by
  have hfalse : (writeSISInfo jet db i).1 = false → (writeSISInfo jet db i).2 = db :=
    writeSISInfo_false
  rw [Truthful, and_iff_left hfalse, NothingLost, ← writeSISInfo_fst jet db i]
  refine imp_congr_right fun htrue => ?_
  obtain ⟨hp, hf, ho⟩ := (writeSISInfo_fst jet db i).1 htrue
  rw [writeSISInfo_snd htrue, ← and_assoc, ← writeParameters_iff hp i.distinct,
    ← rewriteTable_perm_iff jet.storeFormula hf, ← rewriteTable_perm_iff jet.storeOperation ho]
  constructor
  · rintro ⟨hform, hoper, hnd, hgiven, -⟩
    exact ⟨⟨hnd, hgiven⟩, hform, hoper⟩
  · rintro ⟨⟨hnd, hgiven⟩, hform, hoper⟩
    exact ⟨hform, hoper, hnd, hgiven, fun _ hid => mem_writeParameters_other hp hid⟩

/-- An engine that reads the literals of whole numbers and of texts. -/
def plainJet : Jet :=
  let read (literal : VbString) : Cell :=
    match Decimal.parseInt (literal.map UInt16.toNat) with
    | some n => .int n
    | none => .str ((literal.drop 1).take (literal.length - 2))
  ⟨PhysParCols.map read, FormulaCols.map read, OperationCols.map read⟩

/-- The arguments of a call with one parameter, formula 2 and its one line; `DELETE * FROM
tblFormula` fails. -/
def exampleInfo : SisInfo where
  parameters := [(⟨7, ⟨.str (vb "R"), .str (vb "INT"), .str (vb "DS1"), .str (vb "DB1"),
    .str (vb "W0"), .str (vb "001A"), .null, .null, .null⟩⟩, .done)]
  formulas := [(⟨.int 2, .str (vb "10s"), .str (vb "Level")⟩, .done)]
  operations := [(⟨.int 2, .int 1, .str (vb "SET"), .str (vb "1"), .str (vb "CONST"), .null, .null,
    .str (vb "7"), .str (vb "PARAM"), .str []⟩, .done)]
  select := .done
  deleteFormulas := .error (vb "could not lock table")
  deleteOperations := .done
  distinct := by decide

/-- Formula 1 is replaced by formula 2, but its `DELETE` fails: the answer is `True` and both are
there. -/
theorem not_truthful_delete_failed :
    ¬ Truthful plainJet ⟨[], [⟨.int 1, .str (vb "10s"), .str []⟩], []⟩ exampleInfo := by
  intro h
  exact absurd (h.1 (by decide)).formulas.length_eq (by decide)

end Leis

end Edps
