import Edps.Sis.Calculator

/-!
# History rows of formula runs

A line that stamps its destination with the time of the run is meant to leave one row in the
history: the value it stored, at that time.  The row is queued by the assignment of `Value`, so
it carries the `Date1` the record has at that moment.

* `letValue_ok` : what an assignment of `Value` does to a record that is no group.
* `stamped_iff` : one line, function code by function code.
* `leavesRow_run_iff` : the lines of a run leave their rows exactly when none of `+`, `-`, `&` and
  `INC` meets a destination dated otherwise, and `LHSTR2VAL` none with a hexadecimal type.

`SET` and `READ` assign `Date1` before `Value`; `+`, `-`, `&` and `INC` after it; `LHSTR2VAL`
assigns `Value` twice, through `Hex` and again after the dates.
-/

namespace Edps

namespace Sis

open Vb

variable {R : Runtime} {conv : Convert R} {env : LineEnv} {dtDate : ℤ}

/-- The object with the destination record of a line. -/
def FunctionCode.dest : FunctionCode → OpVar
  | .read => .vOp1
  | _ => .vOp3

/-- The function codes with a history row of the run's time. -/
def FunctionCode.stamps : FunctionCode → Bool
  | .plus | .minus | .concat | .inc | .set | .read | .lhstr2val => true
  | _ => false

/-- A record whose values are queued one by one. -/
def Datum.Queued (d : Datum R) : Prop := 3 < d.dataSetName.length ∧ d.linkType ≠ vb "SGR"

/-- Between two states, exactly one row was queued, at the time of the run, with the value that
the destination record has in the store. -/
def Stamped (dtDate : ℤ) (v : OpVar) (s s' : CalcState R) : Prop :=
  ∃ row, s'.rows = s.rows ++ [row] ∧ row.evenTime = dtDate ∧
    row.actValue = toText (s'.op v).value ∧
    ∃ i, cIntOf (s'.op v).tag = .ok i ∧ poolString (s'.op v) = .ok (s'.store i)

/-- The destination record, as it was loaded, lets the function code queue its row in order. -/
def InOrder (dtDate : ℤ) (code : FunctionCode) (d : Datum R) : Prop :=
  match code with
  | .plus | .minus | .concat | .inc => d.date1 = some dtDate
  | .lhstr2val => d.dataType ∉ [vb "long", vb "integer", vb "float"] ∧ ¬ isStringType d.dataType
  | _ => True

/-! ### Assignments of Value -/

/-- **An assignment of `Value`** to a record that is no group: the value, and a row when the
record has a data set name. -/
theorem letValue_ok {v : OpVar} {x : Variant R} {u : Unit} {s s' : CalcState R}
    (hq : (s.op v).Queued) :
    letValue env v x s = .ok u s' ↔
      ∃ row, ({ s.op v with value := x } : Datum R).histRow = .ok row ∧ env.leis = none ∧
        { s.setOp v { s.op v with value := x } with rows := s.rows ++ [row] } = s' := by
  -- a queued record gets a row, and it is no group
  have hauto : ({ s.op v with value := x } : Datum R).isAuto2LEIS = true := by
    simpa [Datum.isAuto2LEIS] using hq.1
  simp only [letValue, modifyOp_bind, getOp_bind, CalcState.setOp_op_self, hauto, if_true,
    if_neg hq.2, bind_ok, exists_liftE_ok, writeQueue_ok, CalcState.setOp_rows]

theorem toDate_ok {date : Option ℤ} {t : ℤ} (h : toDate date = .ok t) : date = some t := by
  cases date with
  | none => cases h
  | some d => exact congrArg some (Except.ok.inj h)

/-- What is in a queued row. -/
theorem histRow_ok {d : Datum R} {row : HistRow} (h : d.histRow = .ok row) :
    d.date1 = some row.evenTime ∧ row.actValue = toText d.value := by
  obtain ⟨paramID, -, h⟩ := bind_eq_ok.1 h
  obtain ⟨procTime, -, h⟩ := bind_eq_ok.1 h
  obtain ⟨runID, -, h⟩ := bind_eq_ok.1 h
  obtain ⟨evenTime, hdate, h⟩ := bind_eq_ok.1 h
  obtain rfl := Except.ok.inj h
  exact ⟨toDate_ok hdate, rfl⟩

/-- A published record is in the store under its tag. -/
theorem share_stored {v : OpVar} {u : Unit} {s s' : CalcState R} (h : share v s = .ok u s') :
    s'.op = s.op ∧ s'.rows = s.rows ∧
      ∃ i, cIntOf (s'.op v).tag = .ok i ∧ poolString (s'.op v) = .ok (s'.store i) := by
  obtain ⟨i, t, hi, ht, rfl⟩ := share_ok.1 h
  exact ⟨rfl, rfl, i, hi, by simpa using ht⟩

/-! ### One line -/

theorem Stamped.of_rows {v : OpVar} {s₀ s₁ s' : CalcState R} (hrows : s₁.rows = s₀.rows)
    (h : Stamped dtDate v s₁ s') : Stamped dtDate v s₀ s' := by
  rwa [Stamped, ← hrows]

/-- A value assigned to a record of this date, and published, leaves its row. -/
theorem stamped_of_dated {v : OpVar} {x : Variant R} {u u' : Unit} {s s₁ s' : CalcState R}
    (hq : (s.op v).Queued) (hdate : (s.op v).date1 = some dtDate)
    (hlet : letValue env v x s = .ok u s₁) (hshare : share v s₁ = .ok u' s') :
    Stamped dtDate v s s' := by
  obtain ⟨row, hrow, -, rfl⟩ := (letValue_ok hq).1 hlet
  obtain ⟨hop, hrows, hstore⟩ := share_stored hshare
  obtain ⟨htime, hact⟩ := histRow_ok hrow
  refine ⟨row, hrows, ?_, ?_, hstore⟩
  · rw [hdate] at htime
    exact (Option.some.inj htime).symm
  · rw [hact, hop]
    simp [CalcState.setOp]

/-- A value assigned before the date carries the date the record had. -/
theorem stamped_valueThenDate {x : Variant R} {u : Unit} {s s' : CalcState R}
    (hq : (s.op .vOp3).Queued) (h : valueThenDate env dtDate x s = .ok u s') :
    Stamped dtDate .vOp3 s s' ↔ (s.op .vOp3).date1 = some dtDate := by
  simp only [valueThenDate, setDate1, bind_ok, modifyOp_bind] at h
  obtain ⟨_, _, hlet, hshare⟩ := h
  obtain ⟨row, hrow, -, rfl⟩ := (letValue_ok hq).1 hlet
  obtain ⟨hop, hrows, hstore⟩ := share_stored hshare
  obtain ⟨htime, hact⟩ := histRow_ok hrow
  simp only [CalcState.setOp] at hrows
  have htime : (s.op .vOp3).date1 = some row.evenTime := htime
  rw [htime, Option.some.injEq]
  constructor
  · rintro ⟨row', hrow', htime', -⟩
    rw [hrows] at hrow'
    -- the only new row is the one that was queued with the old date
    have : row = row' := by simpa using hrow'
    rw [this, htime']
  · intro heq
    refine ⟨row, hrows, heq, ?_, hstore⟩
    rw [hact, hop]
    simp [CalcState.setOp]

theorem hexValue_eq_none {dataType hex : VbString} :
    hexValue conv dataType hex = none ↔
      dataType ∉ [vb "long", vb "integer", vb "float"] ∧ ¬ isStringType dataType := by
  unfold hexValue
  split_ifs <;> simp_all

/-- `LHSTR2VAL` assigns `Value` once more than it should for the types with a hexadecimal
form. -/
theorem stamped_lhstr2val {u : Unit} {s s' : CalcState R} (hq : (s.op .vOp3).Queued)
    (h : exec conv env dtDate .lhstr2val s = .ok u s') :
    Stamped dtDate .vOp3 s s' ↔ InOrder dtDate .lhstr2val (s.op .vOp3) := by
  simp only [exec, letHex, setDate1, getOp_bind, modifyOp_bind, bind_ok, exists_liftE_ok] at h
  obtain ⟨start, -, len, -, hex, -, _, s₁, hhex, _, s₂, hlet, hshare⟩ := h
  cases hv : hexValue conv (s.op .vOp3).dataType hex with
  | none =>
    rw [hv] at hhex
    -- `Hex` assigns nothing: the one row comes after the date
    obtain ⟨-, rfl⟩ := pure_ok.1 hhex
    have hst : Stamped dtDate .vOp3 _ s' :=
      stamped_of_dated (by simpa [Datum.Queued] using hq) (by simp) hlet hshare
    exact ⟨fun _ => hexValue_eq_none.1 hv, fun _ => hst.of_rows rfl⟩
  | some value =>
    rw [hv] at hhex
    -- `Hex` assigns the value: with the second assignment there are two rows
    obtain ⟨row₁, -, -, rfl⟩ := (letValue_ok hq).1 hhex
    obtain ⟨row₂, -, -, rfl⟩ :=
      (letValue_ok (by simpa [Datum.Queued, CalcState.setOp] using hq)).1 hlet
    obtain ⟨-, hrows, -⟩ := share_stored hshare
    have hno : ¬ InOrder dtDate .lhstr2val (s.op .vOp3) := by
      intro h
      have hnone : hexValue conv (s.op .vOp3).dataType hex = none := hexValue_eq_none.2 h
      rw [hv] at hnone
      cases hnone
    refine ⟨?_, fun h => absurd h hno⟩
    rintro ⟨row, hrow, -⟩
    rw [hrows] at hrow
    simp [CalcState.setOp] at hrow

/-! ### READ -/

theorem mustRW_ok {v : OpVar} {u : Unit} {s s' : CalcState R} :
    mustRW env v s = .ok u s' ↔ localRWFDatum env v s = .ok true s' := by
  simp only [mustRW, bind_ok]
  constructor
  · rintro ⟨b, s₁, hb, h⟩
    cases b with
    | false => cases h
    | true =>
      obtain ⟨-, rfl⟩ := pure_ok.1 h
      exact hb
  · intro h
    exact ⟨true, s', h, rfl⟩

/-- The error handler never turns a failure into a success. -/
theorem localRWFDatum_true {v : OpVar} {s s' : CalcState R}
    (h : localRWFDatum env v s = .ok true s') : rwFDatum env v s = .ok true s' := by
  change EStateM.tryCatch (rwFDatum env v) _ s = _ at h
  unfold EStateM.tryCatch at h
  cases hrw : rwFDatum env v s with
  | ok b s₁ => simpa [hrw] using h
  | error e s₁ =>
    simp only [hrw] at h
    -- the handler logs the record and answers `False`
    obtain ⟨_, _, -, h⟩ := bind_ok.1 h
    cases (pure_ok.1 h).1

/-- A successful read of a record that is no group puts the text into it, without a row. -/
theorem rwFDatum_read {v : OpVar} {s s' : CalcState R} (hlink : (s.op v).linkType ≠ vb "SGR")
    (hact : (s.op v).action = FDRead) (h : rwFDatum env v s = .ok true s') :
    s' = s.setOp v { s.op v with
      value := .str (env.sapiText.takeWhile (· ≠ 0)), date2 := some env.now } := by
  simp only [rwFDatum, getOp_bind, if_neg hlink] at h
  split_ifs at h with hsap hneg
  · -- a failed read answers `False`
    simp only [bind_ok] at h
    obtain ⟨_, _, -, _, _, -, _, _, -, _, _, -, h⟩ := h
    cases (pure_ok.1 h).1
  · rw [bind_ok] at h
    obtain ⟨_, _, hsapi, h⟩ := h
    obtain ⟨-, rfl⟩ := callSapi_ok.1 hsapi
    simp only [shareValue, setDate2, modifyOp_bind] at h
    obtain ⟨-, rfl⟩ := pure_ok.1 h
    simp
  · cases (pure_ok.1 h).1

theorem stamped_read {u : Unit} {s s' : CalcState R} (hq : (s.op .vOp1).Queued)
    (h : exec conv env dtDate .read s = .ok u s') : Stamped dtDate .vOp1 s s' := by
  simp only [exec, setDate1, getOp_bind, modifyOp_bind, bind_ok, mustRW_ok] at h
  obtain ⟨_, s₁, hrw, _, s₂, hlet, hshare⟩ := h
  have hs₁ := rwFDatum_read (by simpa using hq.2) (by simp) (localRWFDatum_true hrw)
  subst hs₁
  have hst : Stamped dtDate .vOp1 _ s' :=
    stamped_of_dated (by simpa [Datum.Queued] using hq) (by simp) hlet hshare
  exact hst.of_rows rfl

theorem stamped_set {u : Unit} {s s' : CalcState R} (hq : (s.op .vOp3).Queued)
    (h : exec conv env dtDate .set s = .ok u s') : Stamped dtDate .vOp3 s s' := by
  simp only [exec, setDate1, getOp_bind, modifyOp_bind, bind_ok] at h
  obtain ⟨_, s₂, hlet, hshare⟩ := h
  have hst : Stamped dtDate .vOp3 _ s' :=
    stamped_of_dated (by simpa [Datum.Queued] using hq) (by simp) hlet hshare
  exact hst.of_rows rfl

/-- **One line.**  A function code that stamps its destination leaves its row exactly when the
destination was loaded `InOrder` for it. -/
theorem stamped_iff {code : FunctionCode} (hcode : code.stamps = true) {u : Unit}
    {s s' : CalcState R} (hq : (s.op code.dest).Queued)
    (h : exec conv env dtDate code s = .ok u s') :
    Stamped dtDate code.dest s s' ↔ InOrder dtDate code (s.op code.dest) := by
  cases code with
  | plus =>
    simp only [exec, getOp_bind, bind_ok, exists_liftE_ok] at h
    obtain ⟨x1, -, x2, -, h⟩ := h
    exact stamped_valueThenDate hq h
  | minus =>
    simp only [exec, getOp_bind, bind_ok, exists_liftE_ok] at h
    obtain ⟨x1, -, x2, -, h⟩ := h
    exact stamped_valueThenDate hq h
  | concat =>
    simp only [exec, getOp_bind] at h
    exact stamped_valueThenDate hq h
  | inc =>
    simp only [exec, getOp_bind, bind_ok, exists_liftE_ok] at h
    obtain ⟨x, -, h⟩ := h
    exact stamped_valueThenDate hq h
  | set => exact ⟨fun _ => trivial, fun _ => stamped_set hq h⟩
  | read => exact ⟨fun _ => trivial, fun _ => stamped_read hq h⟩
  | lhstr2val => exact stamped_lhstr2val hq h
  | _ => cases hcode

/-! ### Runs -/

theorem loadOperand_rows {v : OpVar} {constTypes : List VbString} {type operand : VbString}
    {u : Unit} {s s' : CalcState R} (h : loadOperand v constTypes type operand s = .ok u s') :
    s'.rows = s.rows := by
  unfold loadOperand at h
  split_ifs at h
  · rw [letCValue, modifyOp_ok] at h
    rw [← h]
    rfl
  · simp only [bind_ok, exists_liftE_ok, getData] at h
    obtain ⟨i, -, h⟩ := h
    split at h
    · cases h
      rfl
    · cases h
  · rw [(pure_ok.1 h).2]

/-- Loading operands queues nothing. -/
theorem loadOperands_rows {line : TFormula} {runID : ℤ} {u : Unit} {s s' : CalcState R}
    (h : loadOperands line runID s = .ok u s') : s'.rows = s.rows := by
  simp only [loadOperands, bind_ok, modifyOp_bind, modifyOp_ok] at h
  obtain ⟨_, s₁, h₁, _, s₂, h₂, _, s₃, h₃, rfl⟩ := h
  simp only [CalcState.setOp_rows, loadOperand_rows h₃, loadOperand_rows h₂, loadOperand_rows h₁]

/-- The next line of a run has this function code, stamps a queued destination, loads its
operands to the state `s₀` and is executed without error, to `s'`. -/
structure Completes (conv : Convert R) (s : RunState R) (env : LineEnv) (code : FunctionCode)
    (s₀ s' : CalcState R) : Prop where
  line : ∃ line, s.next? = some line ∧ code = .ofText line.functionCode ∧
    loadOperands line s.runID s.state = .ok () s₀ ∧
    calculateLine conv env s.dtDate line s.runID s.state = .ok () s'
  stamps : code.stamps = true
  queued : (s₀.op code.dest).Queued

theorem Completes.executed {s : RunState R} {code : FunctionCode} {s₀ s' : CalcState R}
    (h : Completes conv s env code s₀ s') : exec conv env s.dtDate code s₀ = .ok () s' := by
  obtain ⟨line, -, rfl, hload, hline⟩ := h.line
  obtain ⟨_, s₁, hload', hexec⟩ := bind_ok.1 hline
  rw [hload] at hload'
  cases hload'
  exact hexec

/-- The next line of a run, when it completes, leaves its history row. -/
def LeavesRow (conv : Convert R) (s : RunState R) (env : LineEnv) : Prop :=
  ∀ code s₀ s', Completes conv s env code s₀ s' → Stamped s.dtDate code.dest s.state s'

/-- The next line of a run, when it completes, met a destination in order. -/
def MeetsInOrder (conv : Convert R) (s : RunState R) (env : LineEnv) : Prop :=
  ∀ code s₀ s', Completes conv s env code s₀ s' → InOrder s.dtDate code (s₀.op code.dest)

/-- **One history row for every produced value, at the time of the run**: the lines of a run
leave their rows exactly when each of them meets its destination in order. -/
theorem leavesRow_run_iff (s : RunState R) (envs : List LineEnv) :
    (calculator conv).EachStep (LeavesRow conv) s envs ↔
      (calculator conv).EachStep (MeetsInOrder conv) s envs := by
  refine Machine.eachStep_congr fun s env => ?_
  refine forall_congr' fun code => forall_congr' fun s₀ => forall_congr' fun s' => ?_
  refine imp_congr_right fun h => ?_
  obtain ⟨line, -, -, hload, -⟩ := h.line
  rw [Stamped, ← loadOperands_rows hload]
  exact stamped_iff h.stamps h.queued h.executed

/-- The line `&` of two constants into parameter 17. -/
def exampleLine : TFormula :=
  ⟨1, vb "&", vb "a", vb "CONST", 0, vb "b", vb "CONST", 0, vb "17", vb "PARAM", 17, []⟩

def exampleRun : RunState plainRuntime :=
  .start exampleState ⟨1, 1, 1, 0, [.blank, exampleLine]⟩ 3313440000 1

/-- Parameter 17 gets a value in a run of 29 December 2004, and the row says 27 December 2004, the
date the record had before. -/
theorem not_leavesRow_concat :
    ¬ (calculator plainConvert).EachStep (LeavesRow plainConvert) exampleRun
      [⟨3313440000, 0, [], none, none⟩] := by
  intro h
  obtain ⟨s₀, hload, hname, hlink⟩ : ∃ s₀, loadOperands exampleLine 1 exampleRun.state = .ok () s₀ ∧
      (s₀.op .vOp3).dataSetName = vb "cFDPTR12" ∧ (s₀.op .vOp3).linkType = vb "SAP" :=
    ⟨_, rfl, rfl, rfl⟩
  obtain ⟨s', hline, hrows⟩ : ∃ s',
      calculateLine plainConvert ⟨3313440000, 0, [], none, none⟩ 3313440000 exampleLine 1
        exampleRun.state = .ok () s' ∧
      s'.rows = [⟨17, 3313353599, vb "ab", 1, 3313267200⟩] := ⟨_, rfl, rfl⟩
  have hq : (s₀.op .vOp3).Queued := by
    rw [Datum.Queued, hname, hlink]
    decide
  obtain ⟨row, hrow, htime, -⟩ :=
    h.1 .concat s₀ s' ⟨⟨exampleLine, rfl, by decide, hload, hline⟩, rfl, hq⟩
  rw [hrows, show exampleRun.state.rows = [] from rfl, List.nil_append] at hrow
  have heq : ⟨17, 3313353599, vb "ab", 1, 3313267200⟩ = row := by simpa using hrow
  rw [← heq] at htime
  exact absurd htime (by decide)

end Sis

end Edps
