import Edps.Lib.Cycle
import Edps.Sis.History
import Edps.Sis.Operands
import Edps.Sis.Published

/-!
# The counter of `FOR`

`FOR` adds one to the value of its third operand and starts again at the first operand when the
second is passed.  The counter lives as a text in the pool string of the record: each execution
reads it, adds to it as a `Double` and writes the whole record back.

* `lineOnStore` : executions of one line, by what they do to the shared store.
* `exec_for`, `ForLine.exec` : one `FOR` on loaded operands.
* `cycled_iff` : the counter goes round exactly when the record stays short enough to be read
  with each of its values.
-/

namespace Edps

namespace Sis

open Vb

variable {R : Runtime} {conv : Convert R} {env : LineEnv} {dtDate : ℤ}

/-! ### Executions of a line -/

/-- What a calculator brings to an execution: its record objects, the answers of the environment,
the time and the id of the run.  The store of the state is not looked at. -/
structure Execution (R : Runtime) where
  state : CalcState R
  env : LineEnv
  dtDate : ℤ
  runID : ℤ
  isLong : IsLong runID

/-- The executions of a line on the shared store, with the errors that end them. -/
def lineOnStore (conv : Convert R) (line : TFormula) :
    Machine (ℤ → VbString) (Execution R) (Option VbError) where
  next store x :=
    match calculateLine conv x.env x.dtDate line x.runID { x.state with store } with
    | .ok _ s => (s.store, none)
    | .error e s => (s.store, some e)

/-- LEIS raises no error, if the record queues its values. -/
def Execution.Answered (d : Datum R) (x : Execution R) : Prop :=
  d.isAuto2LEIS = true → x.env.leis = none

/-! ### A counter -/

variable (R) in
/-- An operand has this text, whatever is stored at `i`. -/
def Unchanging (store : ℤ → VbString) (i : ℤ) (type operand v : VbString) : Prop :=
  ∀ t, OperandValue R (Function.update store i t) type operand v

/-- The record with another number for its value. -/
def Datum.withCount (d : Datum R) (n : ℤ) : Datum R := { d with value := .str (cStr n) }

/-- A `FOR` line from `lo` to `hi` into the record `d` at `i`, which stands at `v`.  The record is
stored as `AddParameter` does it, with `i` for its tag and its parameter id. -/
structure ForLine (line : TFormula) (i lo hi v : ℤ) (d : Datum R) (store : ℤ → VbString) :
    Prop where
  code : line.functionCode = vb "FOR"
  operand1 : Unchanging R store i line.type1 line.operand1 (cStr lo)
  operand2 : Unchanging R store i line.type2 line.operand2 (cStr hi)
  type3 : line.type3 = vb "PARAM"
  operand3 : cInt R.numeric line.operand3 = .ok i
  stored : Stored store i d
  paramID : d.paramID = .int i
  linkType : d.linkType ≠ vb "SGR"
  value : d.value = .str (cStr v)
  lower : lo ≤ v
  upper : v ≤ hi
  digits : lo.natAbs < 10 ^ 15 ∧ hi.natAbs < 10 ^ 15

/-- After the executions `xs` the record at `i` is read with its number moved on as many places,
and with everything else as it was. -/
def Cycled (conv : Convert R) (line : TFormula) (i lo hi v : ℤ) (d : Datum R)
    (store : ℤ → VbString) (xs : List (Execution R)) : Prop :=
  ∀ e : Datum R, letPoolString ((lineOnStore conv line).after store xs i) e =
    ({ d.withCount (Cycle.position lo hi v xs.length) with someID := e.someID }, none)

/-- `Double`s that are whole numbers of at most 15 digits, and the next one, are compared as
numbers. -/
def OrdersWhole (R : Runtime) : Prop :=
  ∀ m n : ℤ, m.natAbs ≤ 10 ^ 15 → n.natAbs ≤ 10 ^ 15 →
    R.gt (R.ofInt m) (R.ofInt n) = decide (n < m)

/-! ### Loading -/

theorem loadOperand_total {v : OpVar} {type operand t : VbString} {s : CalcState R}
    (hv : OperandValue R s.store type operand t) :
    ∃ d, loadOperand v [vb "CONST"] type operand s = .ok () (s.setOp v d) := by
  unfold loadOperand
  rcases hv with ⟨rfl, rfl⟩ | ⟨rfl, i, hi, d, hd, -⟩
  · exact ⟨_, by rw [if_pos (by simp)]; rfl⟩
  · refine ⟨{ d with someID := (s.op v).someID }, ?_⟩
    rw [if_neg (by decide), if_pos rfl, liftE_bind hi, getData, hd.load]

/-- A line on operands that are there loads them. -/
theorem loadOperands_total {line : TFormula} {runID : ℤ} {v1 v2 v3 : VbString} {i : ℤ}
    {d : Datum R} {s : CalcState R} (hops : Operands s.store line v1 v2 v3 i d) :
    ∃ s', loadOperands line runID s = .ok () s' := by
  obtain ⟨d₁, h₁⟩ := loadOperand_total (v := .vOp1) hops.operand1
  obtain ⟨d₂, h₂⟩ := loadOperand_total (v := .vOp2) (s := s.setOp .vOp1 d₁) hops.operand2
  have hne : vb "PARAM" ∉ [vb "CONST", vb "LINE"] := by decide
  have h₃ : loadOperand .vOp3 [vb "CONST", vb "LINE"] line.type3 line.operand3
      ((s.setOp .vOp1 d₁).setOp .vOp2 d₂) = .ok () (((s.setOp .vOp1 d₁).setOp .vOp2 d₂).setOp .vOp3
        { d with someID := (((s.setOp .vOp1 d₁).setOp .vOp2 d₂).op .vOp3).someID }) := by
    rw [loadOperand, hops.type3, if_neg hne, if_pos rfl, liftE_bind hops.operand3, getData,
      CalcState.setOp_store, CalcState.setOp_store, hops.stored.load]
  exact ⟨_, bind_ok.2 ⟨_, _, h₁, bind_ok.2 ⟨_, _, h₂, bind_ok.2 ⟨_, _, h₃, rfl⟩⟩⟩⟩

/-! ### One execution -/

/-- The destination with a value and the id of a run. -/
def Datum.inRun (d : Datum R) (x : Variant R) (runID : ℤ) : Datum R :=
  { d with value := x, someID := .int runID }

/-- The row of a record that is as `AddParameter` stores it. -/
theorem histRow_total {d : Datum R} {i runID : ℤ} (hd : d.Encodable) (hp : d.paramID = .int i)
    (hi : toInteger i = .ok i) (hlong : IsLong runID) (x : Variant R) :
    ∃ row, (d.inRun x runID).histRow = .ok row := by
  obtain ⟨t₁, h₁, -⟩ := hd.date1
  obtain ⟨t₂, h₂, -⟩ := hd.date2
  have hparam : cIntOf d.paramID = .ok i := by rw [hp]; exact hi
  have hrun : cLngOf (.int runID : Variant R) = .ok runID :=
    cLngOf_someID (d := d.inRun x runID) hlong rfl
  refine ⟨⟨i, t₂, toText x, runID, t₁⟩, ?_⟩
  simp only [Datum.histRow, Datum.inRun, hparam, hrun, h₁, h₂, toDate, bind, Except.bind]
  rfl

/-- An assignment of `Value` that LEIS takes. -/
theorem letValue_total {v : OpVar} {s : CalcState R} (hlink : (s.op v).linkType ≠ vb "SGR")
    (hleis : (s.op v).isAuto2LEIS = true → env.leis = none) {x : Variant R}
    (hrow : ∃ row, ({ s.op v with value := x } : Datum R).histRow = .ok row) :
    ∃ s', letValue env v x s = .ok () s' := by
  by_cases hauto : (s.op v).isAuto2LEIS = true
  · obtain ⟨row, hrow⟩ := hrow
    have hq : (s.op v).Queued := ⟨by simpa [Datum.isAuto2LEIS] using hauto, hlink⟩
    exact ⟨_, (letValue_ok hq).2 ⟨row, hrow, hleis hauto, rfl⟩⟩
  · refine ⟨s.setOp v { s.op v with value := x }, ?_⟩
    have hno : ({ s.op v with value := x } : Datum R).isAuto2LEIS ≠ true := hauto
    simp only [letValue, modifyOp_bind, getOp_bind, CalcState.setOp_op_self, if_neg hno]
    rfl

theorem Datum.Encodable.withCount {d : Datum R} (h : d.Encodable) {n : ℤ}
    (hn : n.natAbs < 10 ^ 15) : (d.withCount n).Encodable :=
  h.setValue ((length_cStr_le (by decide) hn).trans (by decide))

/-- Of the value only the text is in the pool string, and nothing of the run. -/
theorem poolString_inRun {d : Datum R} {y : Variant R} {n : ℤ} (hy : alwayString y = cStr n)
    (runID : ℤ) : poolString (d.inRun y runID) = poolString (d.withCount n) := by
  simp only [poolString, poolParts, Datum.inRun, Datum.withCount, hy, alwayString_str]

/-- `FOR` behind its first assignment. -/
theorem exec_for {s s₁ : CalcState R} {x : Variant R} {v3 v2 : R.Double}
    (hsucc : succ (s.op .vOp3).value = .ok x) (hlet : letValue env .vOp3 x s = .ok () s₁)
    (hv3 : toDouble (s₁.op .vOp3).value = .ok v3) (hv2 : toDouble (s₁.op .vOp2).value = .ok v2) :
    exec conv env dtDate .forLoop s =
      if R.gt v3 v2 = true then (letValue env .vOp3 (s₁.op .vOp1).value >>= fun _ => share .vOp3) s₁
      else share .vOp3 s₁ := by
  simp only [exec, getOp_bind]
  rw [liftE_bind hsucc, bind_of_ok hlet, getOp_bind, liftE_bind hv3, getOp_bind, liftE_bind hv2]
  split_ifs <;> rfl

section Line

variable {line : TFormula} {i lo hi v : ℤ} {d : Datum R} {store : ℤ → VbString}

/-- An assignment to the destination of the line. -/
theorem ForLine.letValue (hfor : ForLine line i lo hi v d store) {runID : ℤ}
    (hlong : IsLong runID) (hleis : d.isAuto2LEIS = true → env.leis = none) {s : CalcState R}
    {y : Variant R} (h3 : s.op .vOp3 = d.inRun y runID) (x : Variant R) :
    ∃ s', Sis.letValue env .vOp3 x s = .ok () s' ∧
      s'.op = (s.setOp .vOp3 (d.inRun x runID)).op ∧ s'.store = s.store := by
  have hassign : { s.op .vOp3 with value := x } = d.inRun x runID := by
    rw [h3]
    rfl
  have hrow : ∃ row, ({ s.op .vOp3 with value := x } : Datum R).histRow = .ok row := by
    rw [hassign]
    exact histRow_total hfor.stored.encodable hfor.paramID (toInteger_of_cInt hfor.operand3)
      hlong x
  have hlink : (s.op .vOp3).linkType ≠ vb "SGR" := by
    rw [h3]
    exact hfor.linkType
  have hauto : (s.op .vOp3).isAuto2LEIS = true → env.leis = none := by
    rw [h3]
    exact hleis
  obtain ⟨s', hlet⟩ := letValue_total hlink hauto hrow
  obtain ⟨hop, hstore⟩ := letValue_frame hlet
  rw [hassign] at hop
  exact ⟨s', hlet, hop, hstore⟩

/-- The destination shared with a number for its value. -/
theorem ForLine.share (hfor : ForLine line i lo hi v d store) {s : CalcState R} {y : Variant R}
    {runID n : ℤ} (h3 : s.op .vOp3 = d.inRun y runID) (hy : alwayString y = cStr n)
    (hn : n.natAbs < 10 ^ 15) :
    ∃ t, Sis.share .vOp3 s = .ok () (s.setStore i t) ∧ poolString (d.withCount n) = .ok t := by
  have hpool := poolString_eq (hfor.stored.encodable.withCount hn)
  refine ⟨_, share_ok.2 ⟨i, _, ?_, ?_, rfl⟩, hpool⟩
  · rw [h3, Datum.inRun, hfor.stored.tag]
    exact toInteger_of_cInt hfor.operand3
  · rw [h3, poolString_inRun hy]
    exact hpool

/-- **One `FOR`.**  The loaded number is stored one place further. -/
theorem ForLine.exec (hfor : ForLine line i lo hi v d store) (conv : Convert R) (dtDate : ℤ)
    (horders : OrdersWhole R) {runID : ℤ} (hlong : IsLong runID)
    (hleis : d.isAuto2LEIS = true → env.leis = none) {s : CalcState R} {w : ℤ} (hlow : lo ≤ w)
    (hhigh : w ≤ hi) (h1 : (s.op .vOp1).value = .str (cStr lo))
    (h2 : (s.op .vOp2).value = .str (cStr hi))
    (h3 : s.op .vOp3 = d.inRun (.str (cStr w)) runID) :
    ∃ t s', Sis.exec conv env dtDate .forLoop s = .ok () s' ∧
      poolString (d.withCount (Cycle.next lo hi w)) = .ok t ∧
      s'.store = Function.update s.store i t := by
  obtain ⟨hlo, hhi⟩ := hfor.digits
  have hw : w.natAbs < 10 ^ 15 := by omega
  have hnext : R.add (R.ofInt w) (R.ofInt 1) = R.ofInt (w + 1) := R.add_ofInt w 1 hw (by decide)
  have hgt : R.gt (R.ofInt (w + 1)) (R.ofInt hi) = decide (hi < w + 1) :=
    horders (w + 1) hi (by omega) (by omega)
  -- the number and one
  obtain ⟨s₁, hlet₁, hop₁, hstore₁⟩ := hfor.letValue hlong hleis h3 (.dbl (R.ofInt (w + 1)))
  have hsucc : succ (s.op .vOp3).value = .ok (.dbl (R.ofInt (w + 1))) := by
    rw [h3, ← hnext]
    simp only [Datum.inRun, succ, R.cDbl_cStr w hw, bind, Except.bind]
    rfl
  have h3₁ : s₁.op .vOp3 = d.inRun (.dbl (R.ofInt (w + 1))) runID := by
    rw [hop₁, CalcState.setOp_op_self]
  have hv3 : toDouble (s₁.op .vOp3).value = .ok (R.ofInt (w + 1)) := by
    rw [h3₁]
    rfl
  have hv2 : toDouble (s₁.op .vOp2).value = .ok (R.ofInt hi) := by
    rw [hop₁, CalcState.setOp_op_ne _ (by decide), h2]
    exact R.cDbl_cStr hi hhi
  rw [exec_for hsucc hlet₁ hv3 hv2, hgt]
  by_cases hwrap : hi < w + 1
  · -- past the upper bound the text of the first operand is assigned
    have hop1 : (s₁.op .vOp1).value = .str (cStr lo) := by
      rw [hop₁, CalcState.setOp_op_ne _ (by decide), h1]
    obtain ⟨s₂, hlet₂, hop₂, hstore₂⟩ := hfor.letValue hlong hleis h3₁ (.str (cStr lo))
    have h3₂ : s₂.op .vOp3 = d.inRun (.str (cStr lo)) runID := by
      rw [hop₂, CalcState.setOp_op_self]
    obtain ⟨t, hshare, ht⟩ := hfor.share h3₂ rfl hlo
    rw [Cycle.next, if_pos hwrap]
    refine ⟨t, s₂.setStore i t, ?_, ht, by rw [CalcState.setStore_store, hstore₂, hstore₁]⟩
    rw [if_pos (decide_eq_true hwrap), hop1, bind_of_ok hlet₂]
    exact hshare
  · have hdigits : (w + 1).natAbs < 10 ^ 15 := by omega
    obtain ⟨t, hshare, ht⟩ := hfor.share h3₁ (R.doubleText_ofInt _ hdigits) hdigits
    rw [Cycle.next, if_neg hwrap]
    refine ⟨t, s₁.setStore i t, ?_, ht, by rw [CalcState.setStore_store, hstore₁]⟩
    rw [if_neg (by simpa using hwrap)]
    exact hshare

/-! ### Runs -/

/-- The store with the record at `i` as it is with the number `w`. -/
def CountAt (store : ℤ → VbString) (i : ℤ) (d : Datum R) (w : ℤ) (store' : ℤ → VbString) :
    Prop :=
  ∃ t, store' = Function.update store i t ∧ Stored store' i (d.withCount w)

theorem Stored.withCount {store : ℤ → VbString} {i : ℤ} {d : Datum R} (h : Stored store i d) {n : ℤ}
    (hn : n.natAbs < 10 ^ 15) {t : VbString} (ht : poolString (d.withCount n) = .ok t)
    (hshort : t.length < 32767) : Stored (Function.update store i t) i (d.withCount n) where
  encodable := h.encodable.withCount hn
  tag := h.tag
  text := by rw [Function.update_self]; exact ht
  short := by rw [Function.update_self]; exact hshort

/-- The record fits with a number exactly when its pool string with that number can be read. -/
theorem ForLine.fits_iff (hfor : ForLine line i lo hi v d store) {n : ℤ} (hn : n.natAbs < 10 ^ 15)
    {t : VbString} (ht : poolString (d.withCount n) = .ok t) :
    Fits store i (cStr v) (cStr n) ↔ t.length < 32767 := by
  have hold := length_poolString hfor.stored.encodable hfor.value hfor.stored.text
  have hnew := length_poolString (hfor.stored.encodable.withCount hn) rfl ht
  -- the value is not in the frame
  have hframe : (d.withCount n).frameLen = d.frameLen := rfl
  unfold Fits
  omega

/-- **One execution** from a record that can be read. -/
theorem ForLine.next (hfor : ForLine line i lo hi v d store) (conv : Convert R)
    (horders : OrdersWhole R) {x : Execution R} (hx : x.Answered d) {w : ℤ} (hlow : lo ≤ w)
    (hhigh : w ≤ hi) {store' : ℤ → VbString} (hat : CountAt store i d w store') :
    ∃ t, poolString (d.withCount (Cycle.next lo hi w)) = .ok t ∧
      ((lineOnStore conv line).next store' x).1 = Function.update store i t := by
  obtain ⟨t, rfl, hstored⟩ := hat
  set s : CalcState R := { x.state with store := Function.update store i t } with hs
  have hops : Operands s.store line (cStr lo) (cStr hi) (cStr w) i (d.withCount w) :=
    { operand1 := hfor.operand1 t
      operand2 := hfor.operand2 t
      type3 := hfor.type3
      operand3 := hfor.operand3
      stored := hstored
      value := rfl }
  obtain ⟨s₀, hload⟩ : ∃ s₀, loadOperands line x.runID s = .ok () s₀ := loadOperands_total hops
  obtain ⟨hstore, h1, h2, h3⟩ := loadOperands_ok hops hload
  obtain ⟨t', s', hexec, ht', hs'⟩ :=
    hfor.exec conv x.dtDate horders x.isLong hx hlow hhigh h1 h2 h3
  have hline : calculateLine conv x.env x.dtDate line x.runID s = .ok () s' := by
    rw [calculateLine, bind_of_ok hload, hfor.code]
    exact hexec
  refine ⟨t', ht', ?_⟩
  simp only [lineOnStore, ← hs, hline]
  rw [hs', hstore, Function.update_idem]

/-- The numbers the record stands at have at most 15 digits. -/
theorem ForLine.natAbs_position (hfor : ForLine line i lo hi v d store) (n : ℕ) :
    (Cycle.position lo hi v n).natAbs < 10 ^ 15 := by
  obtain ⟨hlow, hhigh⟩ := Cycle.position_mem (hfor.lower.trans hfor.upper) v n
  obtain ⟨hlo, hhi⟩ := hfor.digits
  omega

/-- The record as it is stored in the beginning. -/
theorem ForLine.countAt_start (hfor : ForLine line i lo hi v d store) :
    CountAt store i d (Cycle.position lo hi v 0) store := by
  refine ⟨store i, (Function.update_eq_self i store).symm, ?_⟩
  have hself : d.withCount v = d := by rw [Datum.withCount, ← hfor.value]
  rw [Cycle.position_zero hfor.lower hfor.upper, hself]
  exact hfor.stored

/-- **A run** over numbers the record fits with. -/
theorem ForLine.countAt_after (hfor : ForLine line i lo hi v d store) (conv : Convert R)
    (horders : OrdersWhole R) {xs : List (Execution R)} (hx : ∀ x ∈ xs, x.Answered d)
    (hfits : ∀ n ≤ xs.length, Fits store i (cStr v) (cStr (Cycle.position lo hi v n))) :
    CountAt store i d (Cycle.position lo hi v xs.length)
      ((lineOnStore conv line).after store xs) := by
  induction xs using List.reverseRecOn with
  | nil => exact hfor.countAt_start
  | append_singleton xs x ih =>
    rw [List.length_append, List.length_singleton] at hfits ⊢
    have hat := ih (fun y hy => hx y (by simp [hy])) fun n hn => hfits n (by omega)
    have hle := hfor.lower.trans hfor.upper
    obtain ⟨hlow, hhigh⟩ := Cycle.position_mem hle v xs.length
    obtain ⟨t, ht, hnext⟩ := hfor.next conv horders (hx x (by simp)) hlow hhigh hat
    rw [Cycle.next_position hle] at ht
    rw [Machine.after_append]
    have hdigits := hfor.natAbs_position (xs.length + 1)
    refine ⟨t, hnext, ?_⟩
    rw [Machine.after_cons, Machine.after_nil, hnext]
    exact hfor.stored.withCount hdigits ht ((hfor.fits_iff hdigits ht).1 (hfits _ le_rfl))

end Line

/-- An execution with nothing against it. -/
def Execution.plain (d : Datum R) : Execution R where
  state := ⟨fun _ => d, fun _ => [], [], [], 0⟩
  env := ⟨0, 0, [], none, none⟩
  dtDate := 0
  runID := 0
  isLong := ⟨by decide, by decide⟩

theorem Execution.answered_plain (d : Datum R) : (Execution.plain d).Answered d := fun _ => rfl

section Line

variable {line : TFormula} {i lo hi v : ℤ} {d : Datum R} {store : ℤ → VbString}

/-- A record that is read after an execution fits with its number. -/
theorem ForLine.fits_of_read (hfor : ForLine line i lo hi v d store) (horders : OrdersWhole R)
    {x : Execution R} (hx : x.Answered d) {n : ℕ} {store' : ℤ → VbString}
    (hat : CountAt store i d (Cycle.position lo hi v n) store') {e e' : Datum R}
    (hread : letPoolString (((lineOnStore conv line).next store' x).1 i) e = (e', none)) :
    Fits store i (cStr v) (cStr (Cycle.position lo hi v (n + 1))) := by
  have hle := hfor.lower.trans hfor.upper
  obtain ⟨hlow, hhigh⟩ := Cycle.position_mem hle v n
  obtain ⟨t, ht, hnext⟩ := hfor.next conv horders hx hlow hhigh hat
  rw [Cycle.next_position hle] at ht
  rw [hnext, Function.update_self] at hread
  have hdigits := hfor.natAbs_position (n + 1)
  rw [hfor.fits_iff hdigits ht]
  by_contra hlong
  -- a pool string that is too long is read by no one
  obtain ⟨e'', he''⟩ :=
    letPoolString_too_long (hfor.stored.encodable.withCount hdigits) ht (by omega) e
  rw [hread] at he''
  cases he''

/-- A record that is read after each run fits with the numbers it has gone through. -/
theorem ForLine.fits_of_cycled (hfor : ForLine line i lo hi v d store) (horders : OrdersWhole R)
    (h : ∀ xs, (∀ x ∈ xs, Execution.Answered d x) → Cycled conv line i lo hi v d store xs) (n : ℕ) :
    ∀ k ≤ n, Fits store i (cStr v) (cStr (Cycle.position lo hi v k)) := by
  induction n with
  | zero =>
    intro k hk
    obtain rfl := Nat.le_zero.1 hk
    rw [Cycle.position_zero hfor.lower hfor.upper, Fits]
    exact Nat.add_lt_add_right hfor.stored.short _
  | succ n ih =>
    intro k hk
    rcases Nat.le_succ_iff.1 hk with hk | rfl
    · exact ih k hk
    -- the executions before the last one are in order
    set x := Execution.plain d
    have hplain : x.Answered d := Execution.answered_plain d
    have hx : ∀ y ∈ List.replicate n x, y.Answered d := fun y hy => by
      rwa [List.eq_of_mem_replicate hy]
    have hat := hfor.countAt_after conv horders hx (by simpa using ih)
    rw [List.length_replicate] at hat
    have hall : ∀ y ∈ List.replicate n x ++ [x], y.Answered d :=
      List.forall_mem_append.2 ⟨hx, List.forall_mem_singleton.2 hplain⟩
    have hread := h _ hall d
    rw [Machine.after_append] at hread
    exact hfor.fits_of_read horders hplain hat hread

end Line

/-- **The counter goes round.**  Whatever the executions of a `FOR` line bring with them, the
record is read with its number moved on one place for each of them exactly when its pool string
stays shorter than 32767 characters with each number between the bounds. -/
theorem cycled_iff (horders : OrdersWhole R) {line : TFormula} {i lo hi v : ℤ} {d : Datum R}
    {store : ℤ → VbString} (hfor : ForLine line i lo hi v d store) :
    (∀ xs, (∀ x ∈ xs, Execution.Answered d x) → Cycled conv line i lo hi v d store xs) ↔
      ∀ w, lo ≤ w → w ≤ hi → Fits store i (cStr v) (cStr w) := by
  constructor
  · intro h w hlow hhigh
    obtain ⟨n, rfl⟩ := Cycle.exists_position hlow hhigh v
    exact hfor.fits_of_cycled horders h n n le_rfl
  · intro hfits xs hx e
    obtain ⟨t, -, hstored⟩ := hfor.countAt_after conv horders hx fun n _ =>
      have hmem := Cycle.position_mem (hfor.lower.trans hfor.upper) v n
      hfits _ hmem.1 hmem.2
    exact hstored.load e

/-- A `FOR` line into parameter 17. -/
def forLine (lo hi : ℤ) : TFormula :=
  ⟨1, vb "FOR", cStr lo, vb "CONST", 0, cStr hi, vb "CONST", 0, vb "17", vb "PARAM", 17, []⟩

/-- A store that holds the same record everywhere. -/
def storeOf (d : Datum plainRuntime) : ℤ → VbString := fun _ => (poolString d).toOption.getD []

theorem storeOf_eq {d : Datum plainRuntime} (h : d.Encodable) (i : ℤ) :
    poolString d = .ok (storeOf d i) := by
  rw [storeOf, poolString_eq h]
  rfl

theorem forLine_exampleDatum : ForLine (forLine 1 3) 17 1 3 2 (exampleDatum.withCount 2)
    (storeOf (exampleDatum.withCount 2)) where
  code := rfl
  operand1 _ := .inl ⟨rfl, rfl⟩
  operand2 _ := .inl ⟨rfl, rfl⟩
  type3 := rfl
  operand3 := by decide
  stored :=
    { encodable := encodable_exampleDatum.withCount (by decide)
      tag := rfl
      text := storeOf_eq (encodable_exampleDatum.withCount (by decide)) 17
      short := by decide +kernel }
  paramID := rfl
  linkType := by decide
  value := rfl
  lower := by decide
  upper := by decide
  digits := by decide

theorem ordersWhole_plainRuntime : OrdersWhole plainRuntime := fun _ _ _ _ => rfl

/-- `cycled_iff` for four executions of `FOR` from 1 to 3 with parameter 17 at 2: it stands at 3. -/
theorem cycled_forLine : Cycled plainConvert (forLine 1 3) 17 1 3 2 (exampleDatum.withCount 2)
    (storeOf (exampleDatum.withCount 2))
    (List.replicate 4 (.plain (exampleDatum.withCount 2))) := by
  refine (cycled_iff ordersWhole_plainRuntime forLine_exampleDatum).2 ?_ _ ?_
  · intro w hlow hhigh
    unfold Fits
    obtain rfl | rfl | rfl : w = 1 ∨ w = 2 ∨ w = 3 := by omega
    all_goals decide +kernel
  · intro x hx
    rw [List.eq_of_mem_replicate hx]
    exact Execution.answered_plain _

/-- The same record with so much in two of its address fields that it can just be read with a
number of one digit. -/
def longDatum : Datum plainRuntime :=
  { exampleDatum.withCount 9 with
    addr1 := List.replicate 19000 65, addr5 := List.replicate 13650 65 }

theorem encodable_longDatum : longDatum.Encodable where
  action := by decide
  texts := by
    have hbase := (encodable_exampleDatum.withCount (n := 9) (by decide)).texts
    simp only [List.forall_mem_cons] at hbase ⊢
    obtain ⟨-, h2, h3, h4, -, h6, h7, h8, h9, hnil⟩ := hbase
    refine ⟨?_, h2, h3, h4, ?_, h6, h7, h8, h9, hnil⟩
    all_goals
      rw [longDatum, List.length_replicate]
      decide
  date1 := encodable_exampleDatum.date1
  date2 := encodable_exampleDatum.date2
  paramID := encodable_exampleDatum.paramID
  tag := encodable_exampleDatum.tag
  value := ⟨cStr 9, rfl, by decide⟩

theorem partLen_replicate {n : ℕ} (h : 10 ≤ n) (c : UInt16) :
    partLen (List.replicate n c) = 3 + n := by
  rw [partLen, List.length_replicate, if_neg (by omega)]

theorem length_longDatum : (storeOf longDatum 17).length = 32766 := by
  have hlen := length_poolString encodable_longDatum rfl (storeOf_eq encodable_longDatum 17)
  have hbase : exampleDatum.frameLen = 108 + partLen exampleDatum.addr1 +
      partLen exampleDatum.addr5 := by decide +kernel
  have haddr1 : partLen longDatum.addr1 = 3 + 19000 := partLen_replicate (by decide) 65
  have haddr5 : partLen longDatum.addr5 = 3 + 13650 := partLen_replicate (by decide) 65
  -- the other fields are those of the example
  have hframe : longDatum.frameLen + partLen exampleDatum.addr1 + partLen exampleDatum.addr5 =
      exampleDatum.frameLen + partLen longDatum.addr1 + partLen longDatum.addr5 := by
    simp only [Datum.frameLen, longDatum, Datum.withCount, List.map_cons, List.map_nil,
      List.sum_cons, List.sum_nil]
    ring
  have hvalue : partLen (cStr 9) = 2 := by decide
  omega

theorem forLine_longDatum : ForLine (forLine 0 10) 17 0 10 9 longDatum (storeOf longDatum) where
  code := rfl
  operand1 _ := .inl ⟨rfl, rfl⟩
  operand2 _ := .inl ⟨rfl, rfl⟩
  type3 := rfl
  operand3 := by decide
  stored :=
    { encodable := encodable_longDatum
      tag := rfl
      text := storeOf_eq encodable_longDatum 17
      short := by rw [length_longDatum]; decide }
  paramID := rfl
  linkType := by decide
  value := rfl
  lower := by decide
  upper := by decide
  digits := by decide

/-- An execution that LEIS answers with an error. -/
def refusedExecution : Execution plainRuntime :=
  { Execution.plain exampleDatum with env := ⟨0, 0, [], some .automation, none⟩ }

/-- With a second digit the long record can not be read again, and with an error of LEIS the other
one keeps its number. -/
theorem not_cycled_forLine :
    (ForLine (forLine 0 10) 17 0 10 9 longDatum (storeOf longDatum) ∧
      ¬ Cycled plainConvert (forLine 0 10) 17 0 10 9 longDatum (storeOf longDatum)
        [.plain longDatum]) ∧
    ForLine (forLine 1 3) 17 1 3 2 (exampleDatum.withCount 2)
      (storeOf (exampleDatum.withCount 2)) ∧
    ¬ Cycled plainConvert (forLine 1 3) 17 1 3 2 (exampleDatum.withCount 2)
      (storeOf (exampleDatum.withCount 2)) [refusedExecution] := by
  refine ⟨⟨forLine_longDatum, fun h => ?_⟩, forLine_exampleDatum, fun h => ?_⟩
  · have hread := h longDatum
    rw [Machine.after_cons, Machine.after_nil] at hread
    have hfits := forLine_longDatum.fits_of_read ordersWhole_plainRuntime
      (Execution.answered_plain longDatum) forLine_longDatum.countAt_start hread
    -- the number 10 is one character longer
    rw [Fits, length_longDatum] at hfits
    exact absurd hfits (by decide)
  · have hstore : (lineOnStore plainConvert (forLine 1 3)).after
        (storeOf (exampleDatum.withCount 2)) [refusedExecution] 17 =
          storeOf (exampleDatum.withCount 2) 17 := by rfl
    have hread := h exampleDatum
    rw [hstore, forLine_exampleDatum.stored.load] at hread
    have hvalue : (Variant.str (cStr 2) : Variant plainRuntime) = .str (cStr 3) :=
      congrArg (fun p => p.1.value) hread
    exact absurd (Variant.str.inj hvalue) (by decide)

end Sis

end Edps
