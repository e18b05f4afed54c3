import Edps.Lib.Frames
import Edps.Lib.Runs
import Edps.Sis.Declares
import Edps.Sis.Formula

/-!
# The formula interpreter

`Calculate` runs the lines of a formula: it loads the three operands into the record objects,
stamps them with the id of the run and executes the function code.  `IF` and `GOTO` move
`iCurrent`; an error ends the run.

* `localRWFDatum` : one PLC operation, with its own error handler.
* `exec` : the function codes.
* `calculateLine` : one line.
* `calculator` : a run as a machine, one line a step.
-/

namespace Edps

namespace Sis

open Vb

/-- The function codes. -/
inductive FunctionCode where
  /-- `"FOR"` -/
  | forLoop
  /-- `"+"` -/
  | plus
  /-- `"-"` -/
  | minus
  /-- `"&"` -/
  | concat
  | inc
  | instr
  | left
  | right
  /-- `"IF"` -/
  | ifEqual
  | ifnot
  /-- `"IF>"` -/
  | ifgt
  /-- `"IF<="` -/
  | ifle
  | goto
  | set
  | share
  | mread
  | smread
  | read
  | sread
  | write
  | lhstr2val
  | save
  /-- anything else -/
  | unknown
  deriving DecidableEq, Repr

/-- The `Select Case` of `Calculate`. -/
def FunctionCode.ofText (t : VbString) : FunctionCode :=
  if t = vb "FOR" then .forLoop
  else if t = vb "+" then .plus
  else if t = vb "-" then .minus
  else if t = vb "&" then .concat
  else if t = vb "INC" then .inc
  else if t = vb "INSTR" then .instr
  else if t = vb "LEFT" then .left
  else if t = vb "RIGHT" then .right
  else if t = vb "IF" then .ifEqual
  else if t = vb "IFNOT" then .ifnot
  else if t = vb "IF>" then .ifgt
  else if t = vb "IF<=" then .ifle
  else if t = vb "GOTO" then .goto
  else if t = vb "SET" then .set
  else if t = vb "SHARE" then .share
  else if t = vb "MREAD" then .mread
  else if t = vb "SMREAD" then .smread
  else if t = vb "READ" then .read
  else if t = vb "SREAD" then .sread
  else if t = vb "WRITE" then .write
  else if t = vb "LHSTR2VAL" then .lhstr2val
  else if t = vb "SAVE" then .save
  else .unknown

variable {R : Runtime}

def FDRead : ℤ := 0

def FDWrite : ℤ := 1

/-! ### PLC operations -/

/-- A log line with the record in it. -/
def logRecord (v : OpVar) : CalcM R Unit := do
  let d ← getOp v
  let _ ← liftE (poolString d)

def setDate1 (v : OpVar) (date : ℤ) : CalcM R Unit :=
  modifyOp v fun d => { d with date1 := some date }

def setDate2 (v : OpVar) (date : ℤ) : CalcM R Unit :=
  modifyOp v fun d => { d with date2 := some date }

/-- A call of the SAPI library, whose answer is in `env`. -/
def callSapi (env : LineEnv) : CalcM R Unit := liftE (env.sapi.elim (.ok ()) .error)

/-- `LocalRWFDatum` without its error handler. -/
def rwFDatum (env : LineEnv) (v : OpVar) : CalcM R Bool := do
  let d ← getOp v
  -- the text of the reply ends at its first zero character
  let sStr := env.sapiText.takeWhile (· ≠ 0)
  if d.linkType = vb "SGR" then
    if d.action = FDRead then
      callSapi env
      if env.sapiCode < 0 then
        shareValue v (.str [])
        logRecord v
        setDate2 v env.now
        return false
      else
        shareValue v (.str sStr)
        setDate2 v env.now
        return true
    else if d.action = FDWrite then
      callSapi env
      setDate2 v env.now
      if env.sapiCode ≠ 0 then
        logRecord v
        return false
      else
        return true
    else
      return false
  -- one parameter; only here does a failed write leave its error text in the value
  else if d.linkType = vb "SAP" then
    if d.action = FDRead then
      callSapi env
      if env.sapiCode < 0 then
        shareValue v (.str [])
        logRecord v
        setDate2 v env.now
        return false
      else
        shareValue v (.str sStr)
        setDate2 v env.now
        return true
    else if d.action = FDWrite then
      callSapi env
      setDate2 v env.now
      if env.sapiCode ≠ 0 then
        letValue env v
          (.str (vb "FdIs_ErRoR: SAPI_write return code " ++ str env.sapiCode ++ vb "!"))
        logRecord v
        return false
      else
        return true
    else
      return false
  else
    return false

/-- `LocalRWFDatum`: an error is logged, with the record in the log line, and counts as
`False`. -/
def localRWFDatum (env : LineEnv) (v : OpVar) : CalcM R Bool :=
  tryCatch (rwFDatum env v) fun _ => do
    logRecord v
    return false

/-- A PLC operation that must succeed: `Err.Raise 0` otherwise. -/
def mustRW (env : LineEnv) (v : OpVar) : CalcM R Unit := do
  if ! (← localRWFDatum env v) then
    throw .invalidCall

/-! ### The function codes -/

/-- `vOp.ShareData vOp.Tag` -/
def share (v : OpVar) : CalcM R Unit := do
  let d ← getOp v
  shareData v (← liftE (cIntOf d.tag))

/-- The end of `+`, `-`, `&` and `INC`: value, date, publication. -/
def valueThenDate (env : LineEnv) (dtDate : ℤ) (value : Variant R) : CalcM R Unit := do
  letValue env .vOp3 value
  -- the row of the value is queued by now, with the date of before
  setDate1 .vOp3 dtDate
  share .vOp3

/-- `iCurrent = CLng(vOp.Value) - 1` -/
def jump (v : OpVar) : CalcM R Unit := do
  let d ← getOp v
  let n ← liftE (cLngOf d.value)
  let iCurrent ← liftE (toInteger (n - 1))
  modify fun s => { s with iCurrent }

variable (conv : Convert R) (env : LineEnv) (dtDate : ℤ)

/-- The body of the `Select Case`. -/
def exec : FunctionCode → CalcM R Unit
  | .forLoop => do
    letValue env .vOp3 (← liftE (succ (← getOp .vOp3).value))
    let v3 ← liftE (toDouble (← getOp .vOp3).value)
    let v2 ← liftE (toDouble (← getOp .vOp2).value)
    -- past the upper bound the counter starts again
    if R.gt v3 v2 then
      letValue env .vOp3 (← getOp .vOp1).value
    share .vOp3
  | .plus => do
    let v1 ← liftE (toDouble (← getOp .vOp1).value)
    let v2 ← liftE (toDouble (← getOp .vOp2).value)
    valueThenDate env dtDate (.str (R.doubleText (R.add v1 v2)))
  | .minus => do
    let v1 ← liftE (toDouble (← getOp .vOp1).value)
    let v2 ← liftE (toDouble (← getOp .vOp2).value)
    valueThenDate env dtDate (.str (R.doubleText (R.sub v1 v2)))
  | .concat => do
    let v1 ← getOp .vOp1
    let v2 ← getOp .vOp2
    valueThenDate env dtDate (.str (toText v1.value ++ toText v2.value))
  | .inc => do
    let v3 ← getOp .vOp3
    valueThenDate env dtDate (← liftE (succ v3.value))
  | .instr => do
    let v1 ← getOp .vOp1
    let v2 ← getOp .vOp2
    -- neither here nor in `LEFT` and `RIGHT` is the record shared
    letValue env .vOp3 (.str (trim (str (inStr (toText v1.value) (toText v2.value)))))
  | .left => do
    let v1 ← getOp .vOp1
    let n ← liftE (cLngOf (← getOp .vOp2).value)
    letValue env .vOp3 (.str (← liftE (left (toText v1.value) n)))
  | .right => do
    let v1 ← getOp .vOp1
    let n ← liftE (cLngOf (← getOp .vOp2).value)
    letValue env .vOp3 (.str (← liftE (right (toText v1.value) n)))
  | .ifEqual => do
    if trim (toText (← getOp .vOp1).value) = trim (toText (← getOp .vOp2).value) then
      jump .vOp3
  | .ifnot => do
    if trim (toText (← getOp .vOp1).value) ≠ trim (toText (← getOp .vOp2).value) then
      jump .vOp3
  | .ifgt => do
    let v1 ← liftE (toDouble (← getOp .vOp1).value)
    let v2 ← liftE (toDouble (← getOp .vOp2).value)
    if R.gt v1 v2 then
      jump .vOp3
  | .ifle => do
    let v1 ← liftE (toDouble (← getOp .vOp1).value)
    let v2 ← liftE (toDouble (← getOp .vOp2).value)
    if ! R.gt v1 v2 then
      jump .vOp3
  | .goto => jump .vOp1
  | .set => do
    setDate1 .vOp3 dtDate
    letValue env .vOp3 (← getOp .vOp1).value
    share .vOp3
  | .share => do
    setDate1 .vOp3 dtDate
    shareValue .vOp3 (← getOp .vOp1).value
    share .vOp3
  | .mread => do
    modifyOp .vOp1 fun d => { d with action := FDRead }
    let addr1 ← combineToRead (← getOp .vOp1).addr6
    modifyOp .vOp1 fun d => { d with addr1 }
    mustRW env .vOp1
    setDate1 .vOp1 dtDate
    letValue env .vOp1 (← getOp .vOp1).value
    share .vOp1
  | .smread => do
    modifyOp .vOp1 fun d => { d with action := FDRead }
    let addr1 ← combineToRead (← getOp .vOp1).addr6
    modifyOp .vOp1 fun d => { d with addr1 }
    mustRW env .vOp1
    spreadResuts (toText (← getOp .vOp1).value)
    setDate1 .vOp1 dtDate
    share .vOp1
  | .read => do
    modifyOp .vOp1 fun d => { d with action := FDRead }
    mustRW env .vOp1
    setDate1 .vOp1 dtDate
    letValue env .vOp1 (← getOp .vOp1).value
    share .vOp1
  | .sread => do
    modifyOp .vOp1 fun d => { d with action := FDRead }
    mustRW env .vOp1
    setDate1 .vOp1 dtDate
    share .vOp1
  | .write => do
    setDate1 .vOp3 dtDate
    modifyOp .vOp3 fun d => { d with action := FDWrite }
    mustRW env .vOp3
    share .vOp3
  | .lhstr2val => do
    let v1 ← getOp .vOp1
    let start ← liftE (cIntOf (← getOp .vOp2).value)
    let len ← liftE (hexLen (← getOp .vOp3))
    -- `Hex` assigns the value, for the types it converts
    letHex conv env .vOp3 (← liftE (mid (toText v1.value) start len))
    setDate1 .vOp3 dtDate
    modifyOp .vOp3 fun d => { d with date2 := v1.date2 }
    letValue env .vOp3 (← getOp .vOp3).value
    share .vOp3
  | .save => do
    letValue env .vOp3 (← getOp .vOp3).value
  | .unknown => return

/-! ### Lines and runs -/

/-- An operand loaded: a constant, the record of a parameter, or what is there. -/
def loadOperand (v : OpVar) (constTypes : List VbString) (type operand : VbString) :
    CalcM R Unit := do
  if type ∈ constTypes then
    letCValue v operand
  else if type = vb "PARAM" then
    getData v (← liftE (cInt R.numeric operand))

/-- The three operands of a line loaded and stamped with the run. -/
def loadOperands (line : TFormula) (runID : ℤ) : CalcM R Unit := do
  loadOperand .vOp1 [vb "CONST"] line.type1 line.operand1
  loadOperand .vOp2 [vb "CONST"] line.type2 line.operand2
  loadOperand .vOp3 [vb "CONST", vb "LINE"] line.type3 line.operand3
  modifyOp .vOp1 fun d => { d with someID := .int runID }
  modifyOp .vOp2 fun d => { d with someID := .int runID }
  modifyOp .vOp3 fun d => { d with someID := .int runID }

/-- One line. -/
def calculateLine (line : TFormula) (runID : ℤ) : CalcM R Unit := do
  loadOperands line runID
  exec conv env dtDate (.ofText line.functionCode)

/-- The element of the lines array `Current` points to. -/
def CFormula.line? (f : CFormula) (current : ℤ) : Option TFormula :=
  if current < 0 then none else f.lines[current.toNat]?

/-- A run of a formula between two lines. -/
structure RunState (R : Runtime) where
  state : CalcState R
  formula : CFormula
  dtDate : ℤ
  runID : ℤ
  /-- The loop has been left. -/
  ended : Bool

/-- `For iCurrent = First To Last`: the bounds must be `Integer`s. -/
def RunState.start (state : CalcState R) (formula : CFormula) (dtDate runID : ℤ) : RunState R :=
  match toInteger formula.lineMin, toInteger formula.lineMax with
  | .ok first, .ok _ => ⟨{ state with iCurrent := first }, formula, dtDate, runID, false⟩
  | _, _ => ⟨state, formula, dtDate, runID, true⟩

/-- The line that is executed next, if any. -/
def RunState.next? (s : RunState R) : Option TFormula :=
  if s.ended ∨ s.formula.lineMax < s.state.iCurrent then none
  else s.formula.line? s.state.iCurrent

/-- One step of the loop.  An error, also the one of a missing line or of an `iCurrent` that
cannot be counted further, ends the run. -/
def RunState.step (s : RunState R) (env : LineEnv) : RunState R :=
  match s.next? with
  | none => { s with ended := true }
  | some line =>
    match calculateLine conv env s.dtDate line s.runID s.state with
    | .ok _ c =>
      match toInteger (c.iCurrent + 1) with
      | .ok i => { s with state := { c with iCurrent := i } }
      | .error _ => { s with state := c, ended := true }
    | .error _ c => { s with state := c, ended := true }

/-- The runs of the calculator, one line a step; `Calculate` puts nothing out but what it does to
its state. -/
def calculator : Machine (RunState R) LineEnv Unit := ⟨fun s env => (s.step conv env, ())⟩

theorem mem_of_line? {f : CFormula} {current : ℤ} {line : TFormula}
    (h : f.line? current = some line) : line ∈ f.lines := by
  unfold CFormula.line? at h
  split_ifs at h
  exact List.mem_of_getElem? h

/-! ### Reading executions -/

variable {conv env dtDate}

theorem step_formula (s : RunState R) : (s.step conv env).formula = s.formula := by
  unfold RunState.step
  cases s.next? with
  | none => rfl
  | some line =>
    dsimp only
    cases calculateLine conv env s.dtDate line s.runID s.state with
    | error e c => rfl
    | ok u c =>
      dsimp only
      cases toInteger (c.iCurrent + 1) <;> rfl

theorem bind_ok {α β : Type} {x : CalcM R α} {f : α → CalcM R β} {s s' : CalcState R} {b : β} :
    (x >>= f) s = .ok b s' ↔ ∃ a s₁, x s = .ok a s₁ ∧ f a s₁ = .ok b s' := by
  -- the monad's bind is that of `EStateM`
  show EStateM.bind x f s = _ ↔ _
  unfold EStateM.bind
  cases x s with
  | ok a s₁ => simp
  | error e s₁ => simp

theorem getOp_bind {β : Type} (v : OpVar) (f : Datum R → CalcM R β) (s : CalcState R) :
    (getOp v >>= f) s = f (s.op v) s := rfl

theorem modifyOp_bind {β : Type} (v : OpVar) (g : Datum R → Datum R) (f : Unit → CalcM R β)
    (s : CalcState R) : (modifyOp v g >>= f) s = f () (s.setOp v (g (s.op v))) := rfl

theorem pure_ok {α : Type} {a b : α} {s s' : CalcState R} :
    (pure a : CalcM R α) s = .ok b s' ↔ a = b ∧ s = s' := by
  show EStateM.Result.ok a s = _ ↔ _
  simp

theorem modifyOp_ok {v : OpVar} {f : Datum R → Datum R} {u : Unit} {s s' : CalcState R} :
    modifyOp v f s = .ok u s' ↔ s.setOp v (f (s.op v)) = s' := by
  simp [modifyOp]

theorem liftE_ok {α : Type} {x : Except VbError α} {a : α} {s s' : CalcState R} :
    liftE x s = .ok a s' ↔ x = .ok a ∧ s = s' := by
  cases x <;> simp [liftE]

/-- A conversion in a sequence of steps. -/
theorem exists_liftE_ok {α : Type} {x : Except VbError α} {s : CalcState R}
    {P : α → CalcState R → Prop} :
    (∃ a s₁, liftE x s = .ok a s₁ ∧ P a s₁) ↔ ∃ a, x = .ok a ∧ P a s := by
  simp only [liftE_ok, and_assoc, exists_and_left, exists_eq_left']

/-- A conversion that succeeds, in a sequence of steps. -/
theorem liftE_bind {α β : Type} {x : Except VbError α} {a : α} (h : x = .ok a)
    (f : α → CalcM R β) : (liftE x >>= f) = f a := by
  subst h
  rfl

theorem writeQueue_ok {row : HistRow} {u : Unit} {s s' : CalcState R} :
    writeQueue env row s = .ok u s' ↔
      env.leis = none ∧ { s with rows := s.rows ++ [row] } = s' := by
  unfold writeQueue
  cases env.leis <;> simp

theorem callSapi_ok {u : Unit} {s s' : CalcState R} :
    callSapi env s = .ok u s' ↔ env.sapi = none ∧ s = s' := by
  rw [callSapi, liftE_ok]
  cases env.sapi <;> simp

/-- `ShareData` of a record at its tag. -/
theorem share_ok {v : OpVar} {u : Unit} {s s' : CalcState R} :
    share v s = .ok u s' ↔ ∃ i t, cIntOf (s.op v).tag = .ok i ∧ poolString (s.op v) = .ok t ∧
      s.setStore i t = s' := by
  simp only [share, getOp_bind, bind_ok, exists_liftE_ok]
  constructor
  · rintro ⟨i, hi, h⟩
    unfold shareData at h
    cases ht : poolString (s.op v) with
    | ok t =>
      rw [ht] at h
      simp only [EStateM.Result.ok.injEq, true_and] at h
      exact ⟨i, t, hi, rfl, h⟩
    | error e => rw [ht] at h; cases h
  · rintro ⟨i, t, hi, ht, rfl⟩
    refine ⟨i, hi, ?_⟩
    simp only [shareData, ht]

/-- Conversions that keep the text. -/
def plainConvert : Convert plainRuntime where
  hStr2Long _ := 0
  hStr2LLng _ := 0
  hStr2Float _ := (0 : ℤ)
  hStr2Str s := s

/-- A calculator whose store holds the same record everywhere. -/
def exampleState : CalcState plainRuntime where
  op _ := exampleDatum
  store _ := (poolString exampleDatum).toOption.getD []
  rows := []
  oResult := []
  iCurrent := 1

theorem text_exampleState (i : ℤ) : poolString exampleDatum = .ok (exampleState.store i) := by
  rw [exampleState, poolString_eq encodable_exampleDatum]
  rfl

theorem short_exampleState (i : ℤ) : (exampleState.store i).length < 32767 := by
  show ((poolString exampleDatum).toOption.getD []).length < 32767
  decide +kernel

end Sis

end Edps
