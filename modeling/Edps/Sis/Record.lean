import Edps.Sis.FDPTR
import Edps.Sis.SchedPTR

/-!
# Record objects of the calculator

A calculator works on three `cFDPTR` objects for the operands of a line and on one for groups of
parameters.  They are private copies: `GetData` loads one from the shared store of `ds.dll`,
`ShareData` writes it back.  Assigning `Value` also queues a history row with LEIS when the
record has a data set name.

The procedures run in `CalcM`: an error keeps what was changed before it.
-/

namespace Edps

namespace Sis

open Vb

/-- One `WriteQueue` call, with its arguments as LEIS gets them. -/
structure HistRow where
  paramID : ℤ
  procTime : ℤ
  actValue : VbString
  runID : ℤ
  evenTime : ℤ
  deriving DecidableEq, Repr

/-- `Results`, an element of a multi-read result. -/
structure Results where
  sParID : VbString
  sValue : VbString
  deriving DecidableEq, Repr

/-- The record objects of a calculator. -/
inductive OpVar where
  | vOp1
  | vOp2
  | vOp3
  /-- `MFDPTR` -/
  | mfdptr
  deriving DecidableEq, Repr

/-- The state a line works on. -/
structure CalcState (R : Runtime) where
  /-- The record objects. -/
  op : OpVar → Datum R
  /-- The shared strings of `ds.dll`. -/
  store : ℤ → VbString
  /-- The `WriteQueue` calls so far. -/
  rows : List HistRow
  /-- `oResult` -/
  oResult : List Results
  iCurrent : ℤ

/-- What the environment answers while a line is executed. -/
structure LineEnv where
  /-- `Now()` -/
  now : ℤ
  /-- The return code and the text of the SAPI call. -/
  sapiCode : ℤ
  sapiText : VbString
  /-- The error a LEIS call raises, if any. -/
  leis : Option VbError
  /-- The error the SAPI call raises, if any. -/
  sapi : Option VbError
  deriving Repr

/-- Conversions of hexadecimal texts, from `convert.dll`. -/
structure Convert (R : Runtime) where
  hStr2Long : VbString → ℤ
  hStr2LLng : VbString → ℤ
  hStr2Float : VbString → R.Single
  hStr2Str : VbString → VbString

abbrev CalcM (R : Runtime) := EStateM VbError (CalcState R)

variable {R : Runtime}

namespace CalcState

/-- The state with another record in one of the objects. -/
def setOp (s : CalcState R) (v : OpVar) (d : Datum R) : CalcState R :=
  { s with op := Function.update s.op v d }

/-- The state with another string in the store. -/
def setStore (s : CalcState R) (i : ℤ) (t : VbString) : CalcState R :=
  { s with store := Function.update s.store i t }

@[simp] theorem setOp_op_self (s : CalcState R) (v : OpVar) (d : Datum R) :
    (s.setOp v d).op v = d := Function.update_self ..

@[simp] theorem setOp_op_ne (s : CalcState R) {v w : OpVar} (h : w ≠ v) (d : Datum R) :
    (s.setOp v d).op w = s.op w := Function.update_of_ne h ..

@[simp] theorem setOp_setOp (s : CalcState R) (v : OpVar) (d e : Datum R) :
    (s.setOp v d).setOp v e = s.setOp v e := by
  simp [setOp]

@[simp] theorem setOp_store (s : CalcState R) (v : OpVar) (d : Datum R) :
    (s.setOp v d).store = s.store := rfl

@[simp] theorem setOp_rows (s : CalcState R) (v : OpVar) (d : Datum R) :
    (s.setOp v d).rows = s.rows := rfl

@[simp] theorem setOp_iCurrent (s : CalcState R) (v : OpVar) (d : Datum R) :
    (s.setOp v d).iCurrent = s.iCurrent := rfl

@[simp] theorem setStore_store (s : CalcState R) (i : ℤ) (t : VbString) :
    (s.setStore i t).store = Function.update s.store i t := rfl

@[simp] theorem setStore_op (s : CalcState R) (i : ℤ) (t : VbString) :
    (s.setStore i t).op = s.op := rfl

@[simp] theorem setStore_rows (s : CalcState R) (i : ℤ) (t : VbString) :
    (s.setStore i t).rows = s.rows := rfl

end CalcState

/-- A computation that does not look at the state. -/
def liftE {α : Type} (x : Except VbError α) : CalcM R α := fun s =>
  match x with
  | .ok a => .ok a s
  | .error e => .error e s

/-- The record in an object. -/
def getOp (v : OpVar) : CalcM R (Datum R) := fun s => .ok (s.op v) s

/-- The record in an object changed. -/
def modifyOp (v : OpVar) (f : Datum R → Datum R) : CalcM R Unit := fun s =>
  .ok () (s.setOp v (f (s.op v)))

/-! ### The shared store -/

/-- `GetData`: an error leaves the fields assigned before it. -/
def getData (v : OpVar) (idx : ℤ) : CalcM R Unit := fun s =>
  match letPoolString (s.store idx) (s.op v) with
  | (d, none) => .ok () (s.setOp v d)
  | (d, some e) => .error e (s.setOp v d)

/-- `ShareData` -/
def shareData (v : OpVar) (idx : ℤ) : CalcM R Unit := fun s =>
  match poolString (s.op v) with
  | .ok t => .ok () (s.setStore idx t)
  | .error e => .error e s

/-! ### Value -/

/-- An event date where LEIS wants a `Date`. -/
def toDate : Option ℤ → Except VbError ℤ
  | some d => .ok d
  | none => .error .typeMismatch

/-- `LDB.WriteQueue` -/
def writeQueue (env : LineEnv) (row : HistRow) : CalcM R Unit := fun s =>
  let s := { s with rows := s.rows ++ [row] }
  match env.leis with
  | none => .ok () s
  | some e => .error e s

/-- `GetPartValue`: the next part of a group value, `"0"` behind its end. -/
def getPartValue (sPool : VbString) (pos : ℤ) : Except VbError (VbString × ℤ) := do
  if (← mid sPool pos 3) = [] then
    return (vb "0", pos)
  readFramed R.numeric sPool pos

/-- The loop of `Value` Let over the pairs of a group value. -/
def queueGroup (env : LineEnv) (value : VbString) (runID procTime evenTime : ℤ) :
    ℕ → ℤ → CalcM R Unit
  | 0, _ => return
  | fuel + 1, pos => do
    let (idText, pos) ← liftE (getPartValue (R := R) value pos)
    let nId ← liftE (cInt R.numeric idText)
    if nId = 0 then
      return
    let (sValue, pos) ← liftE (getPartValue (R := R) value pos)
    writeQueue env ⟨nId, procTime, sValue, runID, evenTime⟩
    queueGroup env value runID procTime evenTime fuel pos

/-- `IsAuto2LEIS` -/
def Datum.isAuto2LEIS (d : Datum R) : Bool := 3 < d.dataSetName.length

/-- The row queued for a record that is no group. -/
def Datum.histRow (d : Datum R) : Except VbError HistRow := do
  let paramID ← cIntOf d.paramID
  let procTime ← toDate d.date2
  let runID ← cLngOf d.someID
  let evenTime ← toDate d.date1
  return ⟨paramID, procTime, toText d.value, runID, evenTime⟩

/-- `Value` Let.  Every pair of a group takes at least three characters, so the length of the
value bounds the loop. -/
def letValue (env : LineEnv) (v : OpVar) (vNewValue : Variant R) : CalcM R Unit := do
  modifyOp v fun d => { d with value := vNewValue }
  let d ← getOp v
  if d.isAuto2LEIS then
    if d.linkType = vb "SGR" then
      let vMeId ← liftE (cLngOf d.someID)
      let vDate1 ← liftE (toDate d.date1)
      let vDate2 ← liftE (toDate d.date2)
      let value := toText d.value
      queueGroup env value vMeId vDate2 vDate1 (value.length + 1) 1
    else
      writeQueue env (← liftE d.histRow)

/-- `CValue` Let: a constant. -/
def letCValue (v : OpVar) (vNewValue : VbString) : CalcM R Unit :=
  modifyOp v fun d =>
    { d with
      action := -1, addr1 := [], addr2 := [], addr3 := [], addr4 := [], addr5 := [], addr6 := []
      dataSetName := [], dataType := vb "string", date1 := none, date2 := none, linkType := []
      paramID := .str [], tag := .int (-1), value := .str vNewValue }

/-- `ShareValue`, also `sValue` Let: the value without a history row. -/
def shareValue (v : OpVar) (vNewValue : Variant R) : CalcM R Unit :=
  modifyOp v fun d => { d with value := vNewValue }

/-! ### Hexadecimal texts -/

/-- `Left(DataType, 7) = "string*"` -/
def isStringType (dataType : VbString) : Bool := dataType.take 7 = vb "string*"

/-- `HexLen` -/
def hexLen (d : Datum R) : Except VbError ℤ :=
  if d.dataType = vb "float" then .ok 8
  else if d.dataType = vb "long" then .ok 8
  else if d.dataType = vb "integer" then .ok 4
  else if isStringType d.dataType then do
    let n ← cLng R.numeric (d.dataType.drop 7)
    toLong (n * 2)
  else .ok 0

/-- The value `Hex` Let assigns, `none` for the types without one. -/
def hexValue (conv : Convert R) (dataType hex : VbString) : Option (Variant R) :=
  if dataType = vb "long" then some (.int (conv.hStr2Long hex))
  else if dataType = vb "integer" then some (.int (conv.hStr2LLng hex))
  else if dataType = vb "float" then some (.sgl (conv.hStr2Float hex))
  else if isStringType dataType then some (.str (conv.hStr2Str hex))
  else none

/-- `Hex` Let -/
def letHex (conv : Convert R) (env : LineEnv) (v : OpVar) (hex : VbString) : CalcM R Unit := do
  let d ← getOp v
  match hexValue conv d.dataType hex with
  | some value => letValue env v value
  | none => return

end Sis

end Edps
