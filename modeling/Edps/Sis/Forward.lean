import Edps.Sis.Configured
import Edps.Sis.Programs
import Edps.Sis.Readings

/-!
# Formulas that jump forward

Only `GOTO` and the conditions move the loop variable of `Calculate`; every other function code,
whatever it reads, writes or queues, leaves it alone.  So a formula whose jumps all go to constant
lines behind them comes to its end, also when operations fail and errors are raised.

* `exec_iCurrent` : where the loop variable is behind a function code.
* `TFormula.Forward` : a line that jumps forward, if it jumps.
* `forward_ends` : a run of such lines is over within one step more than there are lines.
-/

namespace Edps

namespace Sis

open Vb

variable {R : Runtime} {conv : Convert R} {env : LineEnv} {dtDate : ℤ}

/-! ### What leaves the loop variable alone -/

theorem keepsCurrent_modifyOp (v : OpVar) (f : Datum R → Datum R) :
    Keeps CalcState.iCurrent (modifyOp v f) := fun _ => rfl

theorem keepsCurrent_writeQueue (row : HistRow) :
    Keeps CalcState.iCurrent (writeQueue (R := R) env row) := by
  intro s
  unfold endState writeQueue
  cases env.leis <;> rfl

theorem keepsCurrent_queueGroup (value : VbString) (runID procTime evenTime : ℤ) (fuel : ℕ)
    (pos : ℤ) :
    Keeps CalcState.iCurrent (queueGroup (R := R) env value runID procTime evenTime fuel pos) := by
  induction fuel generalizing pos with
  | zero => exact .pure _
  | succ fuel ih =>
    refine (keeps_liftE _).bind fun _ => (keeps_liftE _).bind fun _ => .ite (.pure _) ?_
    exact (keeps_liftE _).bind fun _ => (keepsCurrent_writeQueue _).bind fun _ => ih _

theorem keepsCurrent_letValue (v : OpVar) (x : Variant R) :
    Keeps CalcState.iCurrent (letValue env v x) := by
  refine (keepsCurrent_modifyOp v _).bind fun _ => (keeps_getOp v).bind fun _ => ?_
  refine .ite (.ite ?_ ?_) (.pure _)
  · exact (keeps_liftE _).bind fun _ => (keeps_liftE _).bind fun _ => (keeps_liftE _).bind fun _ =>
      keepsCurrent_queueGroup _ _ _ _ _ _
  · exact (keeps_liftE _).bind fun _ => keepsCurrent_writeQueue _

theorem keepsCurrent_letHex (v : OpVar) (hex : VbString) :
    Keeps CalcState.iCurrent (letHex conv env v hex) := by
  refine (keeps_getOp v).bind fun d => ?_
  cases hexValue conv d.dataType hex with
  | none => exact .pure _
  | some value => exact keepsCurrent_letValue v value

theorem keepsCurrent_share (v : OpVar) : Keeps CalcState.iCurrent (share (R := R) v) := by
  refine (keeps_getOp v).bind fun _ => (keeps_liftE _).bind fun i s => ?_
  unfold endState shareData
  cases poolString (s.op v) <;> rfl

theorem keepsCurrent_logRecord (v : OpVar) :
    Keeps CalcState.iCurrent (logRecord (R := R) v) :=
  (keeps_getOp v).bind fun _ => (keeps_liftE _).bind fun _ => .pure _

theorem keepsCurrent_rwFDatum (v : OpVar) :
    Keeps CalcState.iCurrent (rwFDatum (R := R) env v) := by
  have hset (f : Datum R → Datum R) : Keeps CalcState.iCurrent (modifyOp v f) :=
    keepsCurrent_modifyOp v f
  have hcall : Keeps CalcState.iCurrent (callSapi (R := R) env) := keeps_liftE _
  have hread : Keeps CalcState.iCurrent (do
      callSapi (R := R) env
      if env.sapiCode < 0 then
        shareValue v (.str [])
        logRecord v
        setDate2 v env.now
        return false
      else
        shareValue v (.str (env.sapiText.takeWhile (· ≠ 0)))
        setDate2 v env.now
        return true) :=
    hcall.bind fun _ => .ite
      ((hset _).bind fun _ => (keepsCurrent_logRecord v).bind fun _ => (hset _).bind fun _ =>
        .pure _)
      ((hset _).bind fun _ => (hset _).bind fun _ => .pure _)
  have hfails : Keeps CalcState.iCurrent (do logRecord (R := R) v; return false) :=
    (keepsCurrent_logRecord v).bind fun _ => .pure _
  refine (keeps_getOp v).bind fun d => .ite ?_ (.ite ?_ (.pure _))
  · refine .ite hread (.ite ?_ (.pure _))
    exact hcall.bind fun _ => (hset _).bind fun _ => .ite hfails (.pure _)
  · refine .ite hread (.ite ?_ (.pure _))
    exact hcall.bind fun _ => (hset _).bind fun _ =>
      .ite ((keepsCurrent_letValue v _).bind fun _ => hfails) (.pure _)

theorem keepsCurrent_mustRW (v : OpVar) : Keeps CalcState.iCurrent (mustRW (R := R) env v) := by
  have hhandle (_ : VbError) : Keeps CalcState.iCurrent (do logRecord (R := R) v; return false) :=
    (keepsCurrent_logRecord v).bind fun _ => .pure _
  have htry : Keeps CalcState.iCurrent (localRWFDatum (R := R) env v) := fun s => by
    rw [localRWFDatum, Keeps.endState_tryCatch hhandle, keepsCurrent_rwFDatum v s]
  exact htry.bind fun _ => .ite (fun _ => rfl) (.pure _)

theorem keepsCurrent_combineToRead (sSource : VbString) :
    Keeps CalcState.iCurrent (combineToRead (R := R) sSource) :=
  keeps_combineToRead (fun _ _ => rfl) (fun _ _ => rfl) sSource

theorem keepsCurrent_spreadResuts (sRes : VbString) :
    Keeps CalcState.iCurrent (spreadResuts (R := R) sRes) :=
  fun s => congrArg Prod.snd (keeps_spreadResuts sRes s)

theorem keepsCurrent_loadOperand (v : OpVar) (types : List VbString) (type operand : VbString) :
    Keeps CalcState.iCurrent (loadOperand (R := R) v types type operand) :=
  .ite (keepsCurrent_modifyOp v _)
    (.ite ((keeps_liftE _).bind fun i => keeps_getData (fun _ _ => rfl) i) (.pure _))

/-! ### What moves it -/

/-- The operand a function code may jump to. -/
def FunctionCode.target : FunctionCode → Option OpVar
  | .goto => some .vOp1
  | .ifEqual | .ifnot | .ifgt | .ifle => some .vOp3
  | _ => none

/-- The function codes that do not jump. -/
theorem keepsCurrent_exec {code : FunctionCode} (h : code.target = none) :
    Keeps CalcState.iCurrent (exec conv env dtDate code) := by
  have hset (v : OpVar) (f : Datum R → Datum R) : Keeps CalcState.iCurrent (modifyOp v f) :=
    keepsCurrent_modifyOp v f
  have hthen (x : Variant R) : Keeps CalcState.iCurrent (valueThenDate env dtDate x) :=
    (keepsCurrent_letValue _ _).bind fun _ => (hset _ _).bind fun _ => keepsCurrent_share _
  cases code with
  | goto | ifEqual | ifnot | ifgt | ifle => cases h
  | forLoop =>
    refine (keeps_getOp _).bind fun _ => (keeps_liftE _).bind fun _ =>
      (keepsCurrent_letValue _ _).bind fun _ => (keeps_getOp _).bind fun _ =>
      (keeps_liftE _).bind fun _ => (keeps_getOp _).bind fun _ => (keeps_liftE _).bind fun _ => ?_
    exact .ite ((keeps_getOp _).bind fun _ => (keepsCurrent_letValue _ _).bind fun _ =>
      keepsCurrent_share _) (keepsCurrent_share _)
  | plus | minus =>
    exact (keeps_getOp _).bind fun _ => (keeps_liftE _).bind fun _ => (keeps_getOp _).bind fun _ =>
      (keeps_liftE _).bind fun _ => hthen _
  | concat => exact (keeps_getOp _).bind fun _ => (keeps_getOp _).bind fun _ => hthen _
  | inc => exact (keeps_getOp _).bind fun _ => (keeps_liftE _).bind fun _ => hthen _
  | instr =>
    exact (keeps_getOp _).bind fun _ => (keeps_getOp _).bind fun _ => keepsCurrent_letValue _ _
  | left | right =>
    exact (keeps_getOp _).bind fun _ => (keeps_getOp _).bind fun _ => (keeps_liftE _).bind fun _ =>
      (keeps_liftE _).bind fun _ => keepsCurrent_letValue _ _
  | set =>
    exact (hset _ _).bind fun _ => (keeps_getOp _).bind fun _ =>
      (keepsCurrent_letValue _ _).bind fun _ => keepsCurrent_share _
  | share =>
    exact (hset _ _).bind fun _ => (keeps_getOp _).bind fun _ => (hset _ _).bind fun _ =>
      keepsCurrent_share _
  | mread =>
    exact (hset _ _).bind fun _ => (keeps_getOp _).bind fun _ =>
      (keepsCurrent_combineToRead _).bind fun _ => (hset _ _).bind fun _ =>
      (keepsCurrent_mustRW _).bind fun _ => (hset _ _).bind fun _ => (keeps_getOp _).bind fun _ =>
      (keepsCurrent_letValue _ _).bind fun _ => keepsCurrent_share _
  | smread =>
    exact (hset _ _).bind fun _ => (keeps_getOp _).bind fun _ =>
      (keepsCurrent_combineToRead _).bind fun _ => (hset _ _).bind fun _ =>
      (keepsCurrent_mustRW _).bind fun _ => (keeps_getOp _).bind fun _ =>
      (keepsCurrent_spreadResuts _).bind fun _ => (hset _ _).bind fun _ => keepsCurrent_share _
  | read =>
    exact (hset _ _).bind fun _ => (keepsCurrent_mustRW _).bind fun _ => (hset _ _).bind fun _ =>
      (keeps_getOp _).bind fun _ => (keepsCurrent_letValue _ _).bind fun _ => keepsCurrent_share _
  | sread =>
    exact (hset _ _).bind fun _ => (keepsCurrent_mustRW _).bind fun _ => (hset _ _).bind fun _ =>
      keepsCurrent_share _
  | write =>
    exact (hset _ _).bind fun _ => (hset _ _).bind fun _ => (keepsCurrent_mustRW _).bind fun _ =>
      keepsCurrent_share _
  | lhstr2val =>
    exact (keeps_getOp _).bind fun _ => (keeps_getOp _).bind fun _ => (keeps_liftE _).bind fun _ =>
      (keeps_getOp _).bind fun _ => (keeps_liftE _).bind fun _ => (keeps_liftE _).bind fun _ =>
      (keepsCurrent_letHex _ _).bind fun _ => (hset _ _).bind fun _ => (hset _ _).bind fun _ =>
      (keeps_getOp _).bind fun _ => (keepsCurrent_letValue _ _).bind fun _ => keepsCurrent_share _
  | save => exact (keeps_getOp _).bind fun _ => keepsCurrent_letValue _ _
  | unknown => exact .pure _

theorem jump_ok {v : OpVar} {u : Unit} {s s' : CalcState R} (h : jump v s = .ok u s') :
    ∃ n, cLngOf (s.op v).value = .ok n ∧ s'.iCurrent = n - 1 := by
  simp only [jump, getOp_bind, bind_ok, exists_liftE_ok] at h
  obtain ⟨n, hn, i, hi, h⟩ := h
  obtain rfl := toInteger_ok hi
  cases h
  exact ⟨n, hn, rfl⟩

/-- **The loop variable** behind a function code: where it was, or before the line that is jumped
to. -/
theorem exec_iCurrent {code : FunctionCode} {u : Unit} {s s' : CalcState R}
    (h : exec conv env dtDate code s = .ok u s') :
    s'.iCurrent = s.iCurrent ∨
      ∃ v n, code.target = some v ∧ cLngOf (s.op v).value = .ok n ∧ s'.iCurrent = n - 1 := by
  have hif {cond : Prop} [Decidable cond]
      (hjump : (if cond then jump (R := R) .vOp3 else pure ()) s = .ok u s') :
      s'.iCurrent = s.iCurrent ∨
        ∃ n, cLngOf (s.op .vOp3).value = .ok n ∧ s'.iCurrent = n - 1 := by
    split_ifs at hjump
    · exact .inr (jump_ok hjump)
    · cases hjump
      exact .inl rfl
  cases htarget : code.target with
  | none => exact .inl ((keepsCurrent_exec htarget).of_ok h)
  | some v =>
    suffices hmoved : s'.iCurrent = s.iCurrent ∨
        ∃ n, cLngOf (s.op v).value = .ok n ∧ s'.iCurrent = n - 1 from
      hmoved.imp_right fun ⟨n, hn, hcur⟩ => ⟨v, n, rfl, hn, hcur⟩
    cases code with
    | goto =>
      cases htarget
      exact .inr (jump_ok h)
    | ifEqual | ifnot =>
      cases htarget
      exact hif h
    | ifgt | ifle =>
      cases htarget
      simp only [exec, getOp_bind, bind_ok, exists_liftE_ok] at h
      obtain ⟨v1, -, v2, -, h⟩ := h
      exact hif h
    | _ => cases htarget

/-! ### Lines -/

/-- The line with number `l` jumps to constant lines behind it, if it jumps. -/
structure TFormula.Forward (R : Runtime) (l : ℤ) (line : TFormula) : Prop where
  goto : FunctionCode.ofText line.functionCode = .goto → line.type1 = vb "CONST" ∧
    ∀ n, cLng R.numeric line.operand1 = .ok n → l < n
  conditional : FunctionCode.ofText line.functionCode ∈
      [FunctionCode.ifEqual, .ifnot, .ifgt, .ifle] →
    line.type3 ∈ [vb "CONST", vb "LINE"] ∧ ∀ n, cLng R.numeric line.operand3 = .ok n → l < n

theorem loadOperand_const {v : OpVar} {types : List VbString} {type operand : VbString} {u : Unit}
    {s s' : CalcState R} (htype : type ∈ types)
    (h : loadOperand v types type operand s = .ok u s') : (s'.op v).value = .str operand := by
  rw [loadOperand, if_pos htype, letCValue, modifyOp_ok] at h
  rw [← h, CalcState.setOp_op_self]

/-- The operands a line may jump to, when they are constants. -/
theorem loadOperands_const {line : TFormula} {runID : ℤ} {u : Unit} {s s' : CalcState R}
    (h : loadOperands line runID s = .ok u s') :
    s'.iCurrent = s.iCurrent ∧
      (line.type1 = vb "CONST" → (s'.op .vOp1).value = .str line.operand1) ∧
      (line.type3 ∈ [vb "CONST", vb "LINE"] → (s'.op .vOp3).value = .str line.operand3) := by
  obtain ⟨_, s₁, h₁, _, s₂, h₂, _, s₃, h₃, rfl⟩ : ∃ u₁ s₁,
      loadOperand .vOp1 [vb "CONST"] line.type1 line.operand1 s = .ok u₁ s₁ ∧ ∃ u₂ s₂,
      loadOperand .vOp2 [vb "CONST"] line.type2 line.operand2 s₁ = .ok u₂ s₂ ∧ ∃ u₃ s₃,
      loadOperand .vOp3 [vb "CONST", vb "LINE"] line.type3 line.operand3 s₂ = .ok u₃ s₃ ∧
      ((s₃.setOp .vOp1 { s₃.op .vOp1 with someID := .int runID }).setOp .vOp2
        { s₃.op .vOp2 with someID := .int runID }).setOp .vOp3
        { s₃.op .vOp3 with someID := .int runID } = s' := by
    simpa [loadOperands, bind_ok, modifyOp_bind, modifyOp_ok] using h
  have hop1 : s₃.op .vOp1 = s₁.op .vOp1 :=
    ((keeps_op_loadOperand (by decide) _ _ _).of_ok h₃).trans
      ((keeps_op_loadOperand (by decide) _ _ _).of_ok h₂)
  refine ⟨?_, fun htype => ?_, fun htype => ?_⟩
  · show s₃.iCurrent = s.iCurrent
    rw [(keepsCurrent_loadOperand _ _ _ _).of_ok h₃, (keepsCurrent_loadOperand _ _ _ _).of_ok h₂,
      (keepsCurrent_loadOperand _ _ _ _).of_ok h₁]
  · have hvalue := loadOperand_const (by simp [htype]) h₁
    simpa [hop1] using hvalue
  · simpa using loadOperand_const htype h₃

/-- **A forward line** leaves the loop variable at its own line or behind it. -/
theorem TFormula.Forward.calculateLine {line : TFormula} {runID : ℤ} {u : Unit}
    {s s' : CalcState R} (hforward : line.Forward R s.iCurrent)
    (h : Sis.calculateLine conv env dtDate line runID s = .ok u s') :
    s.iCurrent ≤ s'.iCurrent := by
  obtain ⟨_, s₁, hload, hexec⟩ := bind_ok.1 h
  obtain ⟨hcur, hop1, hop3⟩ := loadOperands_const hload
  rcases exec_iCurrent hexec with hstays | ⟨v, n, htarget, hn, hjump⟩
  · rw [hstays, hcur]
  · suffices hless : s.iCurrent < n by omega
    cases hcode : FunctionCode.ofText line.functionCode with
    | goto =>
      rw [hcode] at htarget
      cases htarget
      obtain ⟨htype, hbehind⟩ := hforward.goto hcode
      rw [hop1 htype] at hn
      exact hbehind n hn
    | ifEqual | ifnot | ifgt | ifle =>
      rw [hcode] at htarget
      cases htarget
      obtain ⟨htype, hbehind⟩ := hforward.conditional (by simp [hcode])
      rw [hop3 htype] at hn
      exact hbehind n hn
    | _ =>
      rw [hcode] at htarget
      cases htarget

/-! ### Runs -/

/-- The number of lines that are left. -/
def RunState.linesLeft (s : RunState R) : ℕ := (s.formula.lineMax + 1 - s.state.iCurrent).toNat

variable (conv) in
/-- **One step** ends the run, or leaves less lines. -/
theorem linesLeft_step (s : RunState R) (env : LineEnv)
    (hforward : ∀ l line, s.formula.line? l = some line → line.Forward R l) :
    (s.step conv env).ended = true ∨ (s.step conv env).linesLeft < s.linesLeft := by
  have hstepped := s.stepped conv env
  revert hstepped
  generalize s.step conv env = s'
  rintro (⟨hnone⟩ | ⟨hnext, hcalc⟩ | ⟨hnext, hcalc, hint⟩ | ⟨hnext, hcalc⟩)
  · exact .inl rfl
  · exact .inl rfl
  · exact .inl rfl
  · obtain ⟨-, hwithin, hline⟩ := RunState.of_next?_some hnext
    have hle := (hforward _ _ hline).calculateLine hcalc
    refine .inr ?_
    simp only [RunState.linesLeft]
    omega

variable (conv) in
/-- A run that has ended stays where it is. -/
theorem ended_step {s : RunState R} (h : s.ended = true) (env : LineEnv) :
    (s.step conv env).ended = true := by
  have hnone : s.next? = none := by rw [RunState.next?, if_pos (.inl h)]
  simp only [RunState.step, hnone]

variable (conv) in
/-- **A formula that jumps forward only is done** after as many steps as it has lines, and one:
whatever state the calculator is in, and whatever the PLCs and LEIS answer. -/
theorem forward_ends {f : CFormula} (hforward : ∀ l line, f.line? l = some line → line.Forward R l)
    (state : CalcState R) (dtDate runID : ℤ) {envs : List LineEnv}
    (hlong : (f.lineMax + 1 - f.lineMin).toNat < envs.length) :
    ((calculator conv).after (.start state f dtDate runID) envs).ended = true := by
  have hends (s : RunState R) (env : LineEnv) (h : s.ended = true) :
      ((calculator conv).next s env).1.ended = true := ended_step conv h env
  have hstep (s : RunState R) (env : LineEnv) (hs : s.formula = f) :
      ((calculator conv).next s env).1.ended = true ∨
        ((calculator conv).next s env).1.formula = f ∧
          ((calculator conv).next s env).1.linesLeft < s.linesLeft := by
    subst hs
    exact (linesLeft_step conv s env hforward).imp_right fun hless => ⟨step_formula s, hless⟩
  unfold RunState.start
  split
  case h_1 first last hfirst hlast =>
    obtain rfl := toInteger_ok hfirst
    exact Machine.after_ended hends hstep rfl hlong
  case h_2 =>
    -- the bounds of the loop are no `Integer`s
    exact Machine.after_invariant (fun s env h _ => hends s env h) rfl
      (Machine.eachStep_of_forall fun _ _ => trivial)

/-- `forward_ends` for a formula that sets parameter 17, when each call of LEIS or the SAPI library
raises an error. -/
theorem forward_ends_setLine :
    ((calculator plainConvert).after (.start exampleState (oneLine setLine) 3313440000 1)
      (List.replicate 2 ⟨3313440000, -1, [], some .invalidCall, some .overflow⟩)).ended = true := by
  refine forward_ends plainConvert (fun l line hline => ?_) exampleState 3313440000 1 (by decide)
  have hmem := mem_of_line? hline
  simp only [oneLine, List.mem_cons, List.not_mem_nil, or_false] at hmem
  rcases hmem with rfl | rfl
  · exact ⟨fun h => absurd h (by decide), fun h => absurd h (by decide)⟩
  · exact ⟨fun h => absurd h (by decide), fun h => absurd h (by decide)⟩

end Sis

end Edps
