import Edps.Sis.Groups

/-!
# Failed operations on the PLC

`LocalRWFDatum` answers `False` when the PLC operation of a line has failed, or when an error was
raised on the way; the line then ends with an error of its own.  Nothing of it should be left:
neither a row in the history nor a record in the shared store.

* `localRWFDatum_rows` : the one branch that queues a row for a failed operation.
* `exec_fails` : a line whose operation has failed ends before it writes to the store.
-/

namespace Edps

namespace Sis

open Vb

variable {R : Runtime} {conv : Convert R} {env : LineEnv} {dtDate : ℤ}

/-! ### What the steps of a line keep -/

/-- The parts of the state that stand outside the record objects. -/
def CalcState.shared (s : CalcState R) : (ℤ → VbString) × List HistRow := (s.store, s.rows)

theorem keeps_liftE {α β : Type} {part : CalcState R → β} (x : Except VbError α) :
    Keeps part (liftE (R := R) x) := by
  intro s
  cases x <;> rfl

theorem keeps_getOp {β : Type} {part : CalcState R → β} (v : OpVar) :
    Keeps part (getOp (R := R) v) := fun _ => rfl

theorem keeps_modifyOp (v : OpVar) (f : Datum R → Datum R) :
    Keeps CalcState.shared (modifyOp v f) := fun _ => rfl

theorem keeps_getData {β : Type} {part : CalcState R → β} {v : OpVar}
    (hset : ∀ s d, part (s.setOp v d) = part s) (i : ℤ) :
    Keeps part (getData (R := R) v i) := by
  intro s
  unfold endState getData
  rcases letPoolString (s.store i) (s.op v) with ⟨d, _ | e⟩
  · exact hset s d
  · exact hset s d

theorem keeps_logRecord (v : OpVar) : Keeps CalcState.shared (logRecord (R := R) v) :=
  (keeps_getOp v).bind fun _ => (keeps_liftE _).bind fun _ => .pure _

theorem keeps_loadOperand (v : OpVar) (types : List VbString) (type operand : VbString) :
    Keeps CalcState.shared (loadOperand (R := R) v types type operand) :=
  .ite (keeps_modifyOp v _)
    (.ite ((keeps_liftE _).bind fun i => keeps_getData (fun _ _ => rfl) i) (.pure _))

theorem keeps_loadOperands (line : TFormula) (runID : ℤ) :
    Keeps CalcState.shared (loadOperands (R := R) line runID) :=
  (keeps_loadOperand _ _ _ _).bind fun _ => (keeps_loadOperand _ _ _ _).bind fun _ =>
    (keeps_loadOperand _ _ _ _).bind fun _ => (keeps_modifyOp _ _).bind fun _ =>
      (keeps_modifyOp _ _).bind fun _ => keeps_modifyOp _ _

section Group

/-! The request of a group loads its members into `MFDPTR` and makes a place for each. -/

variable {β : Type} {part : CalcState R → β}

theorem keeps_addMember (hset : ∀ s d, part (s.setOp .mfdptr d) = part s)
    (oSource : List ToRead) (sParID : VbString) :
    Keeps part (addMember (R := R) oSource sParID) :=
  .ite (((keeps_liftE _).bind fun i => (keeps_getData hset i).bind fun _ =>
    (keeps_getOp .mfdptr).bind fun _ => .pure _).bind fun _ => .pure _) (.pure _)

theorem keeps_scanGroup (hset : ∀ s d, part (s.setOp .mfdptr d) = part s) (sSource : VbString)
    (fuel : ℕ) (iCurr : ℤ) (oSource : List ToRead) :
    Keeps part (scanGroup (R := R) sSource fuel iCurr oSource) := by
  induction fuel generalizing iCurr oSource with
  | zero => exact .pure _
  | succ fuel ih =>
    refine (keeps_liftE _).bind fun iLast => .ite ?_ (.pure _)
    exact (keeps_liftE _).bind fun _ => (keeps_liftE _).bind fun _ =>
      (keeps_addMember hset _ _).bind fun _ => ih _ _

theorem keeps_combineToRead (hset : ∀ s d, part (s.setOp .mfdptr d) = part s)
    (hres : ∀ s rs, part { s with oResult := rs } = part s) (sSource : VbString) :
    Keeps part (combineToRead (R := R) sSource) := by
  have hdim (n : ℕ) : Keeps part (reDimResult (R := R) n) := by
    intro s
    unfold endState reDimResult
    split_ifs
    · rfl
    · exact hres s _
  have hparse : Keeps part (parseGroup (R := R) sSource) :=
    (keeps_scanGroup hset _ _ _ _).bind fun _ => (keeps_liftE _).bind fun _ =>
      (keeps_addMember hset _ _).bind fun _ => (hdim _).bind fun _ => .pure _
  exact hparse.bind fun _ => .ite (.pure _) (.pure _)

end Group

/-! ### The operation -/

/-- A failed write of a single parameter whose error text is queued as a value: the record has a
data set name, and a row can be made of it. -/
structure QueuesError (env : LineEnv) (d : Datum R) : Prop where
  link : d.linkType = vb "SAP"
  action : d.action = FDWrite
  called : env.sapi = none
  failed : env.sapiCode ≠ 0
  auto : d.isAuto2LEIS = true
  row : ∃ row, ({ d with date2 := some env.now } : Datum R).histRow = .ok row

/-- **An assignment of `Value`** to a record that is no group queues its row, if it has one. -/
theorem letValue_shared (env : LineEnv) {v : OpVar} {s : CalcState R}
    (hlink : (s.op v).linkType ≠ vb "SGR") (x : Variant R) :
    (endState (letValue env v x) s).shared =
      (s.store, s.rows ++ if (s.op v).isAuto2LEIS then
        ({ s.op v with value := x } : Datum R).histRow.toOption.toList else []) := by
  set d : Datum R := { s.op v with value := x } with hd
  have hset : modifyOp v (fun d => { d with value := x }) s = .ok () (s.setOp v d) := rfl
  have hget : getOp v (s.setOp v d) = .ok d (s.setOp v d) := by
    rw [getOp, CalcState.setOp_op_self]
  have hauto : d.isAuto2LEIS = (s.op v).isAuto2LEIS := rfl
  rw [letValue, endState_bind_of_ok hset, endState_bind_of_ok hget, hauto]
  split_ifs with h
  · cases hrow : d.histRow with
    | error e =>
      show (s.store, s.rows) = (s.store, s.rows ++ [])
      rw [List.append_nil]
    | ok row =>
      show (endState (writeQueue env row) (s.setOp v d)).shared = (s.store, s.rows ++ [row])
      unfold endState writeQueue
      cases env.leis <;> rfl
  · show (s.store, s.rows) = (s.store, s.rows ++ [])
    rw [List.append_nil]

/-- The branches of `LocalRWFDatum` that do not assign `Value`. -/
theorem keeps_rwFDatum {v : OpVar} {s : CalcState R}
    (h : ¬ ((s.op v).linkType = vb "SAP" ∧ (s.op v).action = FDWrite ∧ env.sapi = none ∧
      env.sapiCode ≠ 0)) :
    (endState (rwFDatum env v) s).shared = s.shared := by
  have hget : getOp v s = .ok (s.op v) s := rfl
  have hset (f : Datum R → Datum R) : Keeps CalcState.shared (modifyOp v f) := keeps_modifyOp v f
  have hlog : Keeps CalcState.shared (logRecord (R := R) v) := keeps_logRecord v
  have hcall : Keeps CalcState.shared (callSapi (R := R) env) := keeps_liftE _
  have hread (t : VbString) : Keeps CalcState.shared (do
      callSapi (R := R) env; shareValue v (.str t); setDate2 v env.now; return true) :=
    hcall.bind fun _ => (hset _).bind fun _ => (hset _).bind fun _ => .pure _
  have hreadFails : Keeps CalcState.shared (do
      callSapi (R := R) env; shareValue v (.str []); logRecord v; setDate2 v env.now
      return false) :=
    hcall.bind fun _ => (hset _).bind fun _ => hlog.bind fun _ => (hset _).bind fun _ => .pure _
  have hwrite : Keeps CalcState.shared (do
      callSapi (R := R) env; setDate2 v env.now; return true) :=
    hcall.bind fun _ => (hset _).bind fun _ => .pure _
  have hwriteFails : Keeps CalcState.shared (do
      callSapi (R := R) env; setDate2 v env.now; logRecord v; return false) :=
    hcall.bind fun _ => (hset _).bind fun _ => hlog.bind fun _ => .pure _
  rw [rwFDatum, endState_bind_of_ok hget]
  split_ifs with hsgr hr hneg hw hcode hsap hr hneg hw hcode
  · exact hreadFails s
  · exact hread _ s
  · exact hwriteFails s
  · exact hwrite s
  · rfl
  · exact hreadFails s
  · exact hread _ s
  · -- only a call that has raised an error gets here
    cases hraised : env.sapi with
    | none => exact absurd ⟨hsap, hw, hraised, hcode⟩ h
    | some e =>
      have herror : callSapi env s = .error e s := by rw [callSapi, hraised]; rfl
      rw [endState_bind_of_error herror]
  · exact hwrite s
  · rfl
  · rfl

theorem toList_eq_nil {x : Except VbError HistRow} :
    x.toOption.toList = [] ↔ ∀ row, x ≠ .ok row := by
  cases x <;> simp [Except.toOption]

/-- Whether a row can be made of a record does not depend on its value. -/
theorem histRow_value (d : Datum R) (x : Variant R) :
    (∀ row, ({ d with value := x } : Datum R).histRow ≠ .ok row) ↔ ∀ row, d.histRow ≠ .ok row := by
  unfold Datum.histRow
  cases cIntOf d.paramID <;> cases toDate d.date2 <;> cases cLngOf d.someID <;>
    cases toDate d.date1 <;> simp [bind, Except.bind, pure, Except.pure]

/-- **The rows an operation queues**: the error text of a failed write, and nothing else. -/
theorem localRWFDatum_shared (env : LineEnv) (v : OpVar) (s : CalcState R) :
    ∃ rows, (endState (localRWFDatum env v) s).shared = (s.store, s.rows ++ rows) ∧
      (rows = [] ↔ ¬ QueuesError env (s.op v)) := by
  have hhandle : ∀ e : VbError, Keeps CalcState.shared (do logRecord (R := R) v; return false) :=
    fun _ => (keeps_logRecord v).bind fun _ => .pure _
  have htry : (endState (localRWFDatum env v) s).shared =
      (endState (rwFDatum env v) s).shared := Keeps.endState_tryCatch hhandle s
  rw [htry]
  by_cases hfailed : (s.op v).linkType = vb "SAP" ∧ (s.op v).action = FDWrite ∧ env.sapi = none ∧
      env.sapiCode ≠ 0
  · obtain ⟨hlink, hact, hcalled, hcode⟩ := hfailed
    have hsgr : (s.op v).linkType ≠ vb "SGR" := by rw [hlink]; decide
    have hread : ¬ (s.op v).action = FDRead := by rw [hact]; decide
    set d : Datum R := { s.op v with date2 := some env.now } with hd
    -- the call returns, the record is dated and its value assigned
    have hget : getOp v s = .ok (s.op v) s := rfl
    have hcall : callSapi env s = .ok () s := callSapi_ok.2 ⟨hcalled, rfl⟩
    have hdate : setDate2 v env.now s = .ok () (s.setOp v d) := rfl
    have hop : (s.setOp v d).op v = d := CalcState.setOp_op_self ..
    have hdlink : ((s.setOp v d).op v).linkType ≠ vb "SGR" := by rw [hop]; exact hsgr
    have hlet := letValue_shared env hdlink
      (.str (vb "FdIs_ErRoR: SAPI_write return code " ++ str env.sapiCode ++ vb "!"))
    have hend : (endState (rwFDatum env v) s).shared = (endState (letValue env v
        (.str (vb "FdIs_ErRoR: SAPI_write return code " ++ str env.sapiCode ++ vb "!")))
          (s.setOp v d)).shared := by
      rw [rwFDatum, endState_bind_of_ok hget, if_neg hsgr, if_pos hlink, if_neg hread,
        if_pos hact, endState_bind_of_ok hcall, endState_bind_of_ok hdate, if_pos hcode]
      exact Keeps.endState_bind (fun _ => (keeps_logRecord v).bind fun _ => .pure _) _
    rw [hend, hlet, hop]
    refine ⟨_, rfl, ?_⟩
    have hauto : d.isAuto2LEIS = (s.op v).isAuto2LEIS := rfl
    rw [hauto]
    split_ifs with hq
    · rw [toList_eq_nil, histRow_value]
      exact ⟨fun hnone hqueues => hqueues.row.elim fun row hrow => hnone row hrow,
        fun hkept row hrow => hkept ⟨hlink, hact, hcalled, hcode, hq, row, hrow⟩⟩
    · exact iff_of_true rfl fun hqueues => hq hqueues.auto
  · refine ⟨[], by rw [keeps_rwFDatum hfailed, List.append_nil]; rfl, fun _ hq => ?_, fun _ => rfl⟩
    exact hfailed ⟨hq.link, hq.action, hq.called, hq.failed⟩

/-! ### The line -/

/-- The record an operation is done on. -/
def FunctionCode.rwOperand : FunctionCode → Option OpVar
  | .mread | .smread | .read | .sread => some .vOp1
  | .write => some .vOp3
  | _ => none

/-- What a line does before its operation. -/
def beforeRW (dtDate : ℤ) : FunctionCode → CalcM R Unit
  | .mread | .smread => do
    modifyOp .vOp1 fun d => { d with action := FDRead }
    let addr1 ← combineToRead (← getOp .vOp1).addr6
    modifyOp .vOp1 fun d => { d with addr1 }
  | .read | .sread => modifyOp .vOp1 fun d => { d with action := FDRead }
  | .write => do
    setDate1 .vOp3 dtDate
    modifyOp .vOp3 fun d => { d with action := FDWrite }
  | _ => return

/-- A line, executed from `s₀` on, calls `LocalRWFDatum` for the record in `v` in state `s`. -/
structure Calls (dtDate : ℤ) (line : TFormula) (runID : ℤ) (v : OpVar) (s₀ s : CalcState R) :
    Prop where
  operand : (FunctionCode.ofText line.functionCode).rwOperand = some v
  reached : (loadOperands line runID >>= fun _ => beforeRW dtDate (.ofText line.functionCode)) s₀ =
    .ok () s

theorem keeps_beforeRW (dtDate : ℤ) (code : FunctionCode) :
    Keeps CalcState.shared (beforeRW (R := R) dtDate code) := by
  cases code with
  | mread | smread =>
    exact (keeps_modifyOp .vOp1 _).bind fun _ => (keeps_getOp .vOp1).bind fun _ =>
      (keeps_combineToRead (fun _ _ => rfl) (fun _ _ => rfl) _).bind fun _ => keeps_modifyOp .vOp1 _
  | read | sread => exact fun _ => rfl
  | write => exact (keeps_modifyOp .vOp3 _).bind fun _ => keeps_modifyOp .vOp3 _
  | _ => exact .pure _

theorem mustRW_error {v : OpVar} {s s' : CalcState R}
    (h : localRWFDatum env v s = .ok false s') : mustRW env v s = .error .invalidCall s' := by
  rw [mustRW, bind_of_ok h]
  rfl

/-- **A function code whose operation has failed** ends there, with an error. -/
theorem exec_fails {code : FunctionCode} {v : OpVar} {s₁ s s' : CalcState R}
    (hv : code.rwOperand = some v) (hbefore : beforeRW dtDate code s₁ = .ok () s)
    (h : localRWFDatum env v s = .ok false s') :
    exec conv env dtDate code s₁ = .error .invalidCall s' := by
  have hfail := mustRW_error h
  cases code with
  | mread | smread =>
    cases hv
    simp only [beforeRW, modifyOp_bind, getOp_bind, bind_ok, modifyOp_ok] at hbefore
    obtain ⟨addr1, s₂, hcombine, rfl⟩ := hbefore
    rw [exec, modifyOp_bind, getOp_bind, bind_of_ok hcombine, modifyOp_bind]
    exact bind_of_error hfail _
  | read | sread =>
    cases hv
    rw [beforeRW, modifyOp_ok] at hbefore
    subst hbefore
    rw [exec, modifyOp_bind]
    exact bind_of_error hfail _
  | write =>
    cases hv
    simp only [beforeRW, setDate1, modifyOp_bind, modifyOp_ok] at hbefore
    subst hbefore
    rw [exec, setDate1, modifyOp_bind, modifyOp_bind]
    exact bind_of_error hfail _
  | _ => cases hv

/-- **A failed operation leaves no trace in the data**, unless it is a write whose error text is
queued: no row has been queued, and the line that called it leaves the store as it was. -/
theorem failed_rw_iff {v : OpVar} {s s' : CalcState R} (h : localRWFDatum env v s = .ok false s') :
    (s'.rows = s.rows ∧
      ∀ (conv : Convert R) (dtDate : ℤ) (line : TFormula) (runID : ℤ) (s₀ : CalcState R),
        Calls dtDate line runID v s₀ s →
          (endState (calculateLine conv env dtDate line runID) s₀).store = s₀.store) ↔
      ¬ QueuesError env (s.op v) := by
  obtain ⟨rows, hshared, hrows⟩ := localRWFDatum_shared env v s
  rw [endState_of_ok h] at hshared
  have hstore : s'.store = s.store := congrArg Prod.fst hshared
  have hqueued : s'.rows = s.rows ++ rows := congrArg Prod.snd hshared
  rw [and_iff_left, hqueued, List.append_right_eq_self, hrows]
  intro conv dtDate line runID s₀ hcalls
  obtain ⟨_, s₁, hload, hbefore⟩ := bind_ok.1 hcalls.reached
  have hline : calculateLine conv env dtDate line runID s₀ = .error .invalidCall s' := by
    rw [calculateLine, bind_of_ok hload]
    exact exec_fails hcalls.operand hbefore h
  -- loading and preparing keep the store
  have hkept₁ := congrArg Prod.fst ((keeps_loadOperands line runID).of_ok hload)
  have hkept₂ := congrArg Prod.fst ((keeps_beforeRW dtDate _).of_ok hbefore)
  rw [endState_of_error hline, hstore]
  exact hkept₂.trans hkept₁

/-- A line `READ` or `WRITE` on parameter 17. -/
def operationLine (functionCode : String) : TFormula :=
  ⟨1, vb functionCode, vb "17", vb "PARAM", 17, [], vb "CONST", 0, vb "17", vb "PARAM", 17, []⟩

/-- The PLC does not answer. -/
def noAnswer : LineEnv := ⟨3313440000, -200, [], none, none⟩

/-- A `READ` that gets no answer leaves no trace. -/
theorem failed_read_leaves_no_trace : ∃ s s',
    Calls 3313440000 (operationLine "READ") 1 .vOp1 exampleState s ∧
      localRWFDatum noAnswer .vOp1 s = .ok false s' ∧ s'.rows = s.rows ∧
      (endState (calculateLine plainConvert noAnswer 3313440000 (operationLine "READ") 1)
        exampleState).store = exampleState.store := by
  obtain ⟨s, hcalls⟩ : ∃ s, Calls 3313440000 (operationLine "READ") 1 .vOp1 exampleState s :=
    ⟨_, rfl, rfl⟩
  obtain ⟨s', hfail⟩ : ∃ s', localRWFDatum noAnswer .vOp1 s = .ok false s' := by
    cases hcalls.reached
    exact ⟨_, rfl⟩
  have hread : ¬ QueuesError noAnswer (s.op .vOp1) := by
    intro hq
    have hact := hq.action
    cases hcalls.reached
    exact absurd hact (by decide)
  obtain ⟨hrows, hstore⟩ := (failed_rw_iff hfail).2 hread
  exact ⟨s, s', hcalls, hfail, hrows, hstore _ _ _ _ _ hcalls⟩

/-- A `WRITE` that gets none is recorded as a value of the parameter. -/
theorem failed_write_leaves_row : ∃ s s',
    Calls 3313440000 (operationLine "WRITE") 1 .vOp3 exampleState s ∧
      localRWFDatum noAnswer .vOp3 s = .ok false s' ∧ s.rows = [] ∧
      s'.rows = [⟨17, 3313440000, vb "FdIs_ErRoR: SAPI_write return code -200!", 1,
        3313440000⟩] := by
  refine ⟨_, _, ⟨rfl, rfl⟩, rfl, rfl, ?_⟩
  decide +kernel

end Sis

end Edps
