import Edps.Lib.Walks
import Edps.Sis.Counter

/-!
# Formulas as programs

A formula is meant as a program on the values of parameters: a line computes a text from texts, or
jumps.  What the calculator has instead of values are pool strings, record objects loaded from
them, errors raised on the way, and a loop variable that a jump sets one too low.

* `FunctionCode.effect`, `CFormula.next` : the program that is meant.
* `Represents` : pool strings with these values.
* `calculateLine_performs` : a line does to the pool strings what it does to the values.
* `calculator_follows` : so does a run, line by line, to the end.

Annotations and variants of the program then say where a run stands and when it has ended.
-/

namespace Edps

namespace Sis

open Vb

variable {R : Runtime}

/-! ### The program -/

/-- The function codes that work on values alone. -/
def FunctionCode.computes : FunctionCode → Bool
  | .mread | .smread | .read | .sread | .write | .lhstr2val => false
  | _ => true

/-- The function codes that write to their third operand. -/
def FunctionCode.writes : FunctionCode → Bool
  | .forLoop | .plus | .minus | .concat | .inc | .set | .share => true
  | _ => false

/-- What a line does. -/
inductive Effect where
  /-- An error is raised. -/
  | stop
  /-- On to the next line. -/
  | skip
  /-- On to the line with this number. -/
  | jump (target : VbString)
  /-- A result for the third operand. -/
  | write (result : VbString)
  deriving DecidableEq, Repr

/-- A result, if it can be computed. -/
def Effect.ofResult : Except VbError VbString → Effect
  | .ok r => .write r
  | .error _ => .stop

/-- A result that is not written back. -/
def Effect.unseen : Except VbError VbString → Effect
  | .ok _ => .skip
  | .error _ => .stop

/-- A jump if the condition holds of two numbers. -/
def Effect.compare (R : Runtime) (cond : R.Double → R.Double → Bool) (v1 v2 v3 : VbString) :
    Effect :=
  match R.cDbl v1, R.cDbl v2 with
  | .ok x1, .ok x2 => if cond x1 x2 then .jump v3 else .skip
  | _, _ => .stop

variable (R) in
/-- The effect of a function code on the texts of its operands. -/
def FunctionCode.effect (v1 v2 v3 : VbString) (code : FunctionCode) : Effect :=
  match code with
  | .plus | .minus | .concat | .inc | .set | .share => .ofResult (code.result R v1 v2 v3)
  | .instr | .left | .right => .unseen (code.result R v1 v2 v3)
  | .ifEqual => if trim v1 = trim v2 then .jump v3 else .skip
  | .ifnot => if trim v1 ≠ trim v2 then .jump v3 else .skip
  | .ifgt => .compare R R.gt v1 v2 v3
  | .ifle => .compare R (fun x1 x2 => ! R.gt x1 x2) v1 v2 v3
  | .goto => .jump v1
  | .forLoop =>
    match R.cDbl v3, R.cDbl v2 with
    | .ok x3, .ok x2 =>
      if R.gt (R.add x3 (R.ofInt 1)) x2 then .write v1
      else .write (R.doubleText (R.add x3 (R.ofInt 1)))
    | _, _ => .stop
  | .save | .unknown => .skip
  | .mread | .smread | .read | .sread | .write | .lhstr2val => .stop

/-- Where a program stands: the number of the line that is next, and the values of the parameters
that can be read. -/
structure Standing where
  line : ℤ
  value : ℤ → Option VbString

variable (R) in
/-- The text of an operand: an error if it is a parameter without a value, and no text if the type
is none that is loaded. -/
def operandText (value : ℤ → Option VbString) (types : List VbString) (type operand : VbString) :
    Option (Option VbString) :=
  if types.contains type then some (some operand)
  else if type = vb "PARAM" then
    ((cInt R.numeric operand).toOption.bind value).map some
  else some none

variable (R) in
/-- A jump: the loop variable is an `Integer`, also one below the target. -/
def Standing.jump (c : Standing) (target : VbString) : Option Standing :=
  (cLng R.numeric target).toOption.bind fun n =>
    (toInteger (n - 1)).toOption.map fun _ => { c with line := n }

/-- A result: it has to be short enough for a header, and with the rest of its record for the
positions in a pool string. -/
def Standing.write (room : ℤ → ℕ) (c : Standing) (i : ℤ) (result : VbString) : Option Standing :=
  if result.length ≤ maxPartLen then
    some ⟨c.line + 1,
      Function.update c.value i (if partLen result < room i then some result else none)⟩
  else none

variable (R) in
/-- An effect, with the number of the third operand. -/
def Effect.apply (room : ℤ → ℕ) (operand3 : VbString) (c : Standing) : Effect → Option Standing
  | .stop => none
  | .skip => some { c with line := c.line + 1 }
  | .jump target => c.jump R target
  | .write result => (cInt R.numeric operand3).toOption.bind fun i => c.write room i result

variable (R) in
/-- A line of the program. -/
def TFormula.perform (room : ℤ → ℕ) (line : TFormula) (c : Standing) : Option Standing := do
  let v1 ← operandText R c.value [vb "CONST"] line.type1 line.operand1
  let v2 ← operandText R c.value [vb "CONST"] line.type2 line.operand2
  let v3 ← operandText R c.value [vb "CONST", vb "LINE"] line.type3 line.operand3
  ((FunctionCode.ofText line.functionCode).effect R (v1.getD []) (v2.getD []) (v3.getD [])).apply R
    room line.operand3 c

variable (R) in
/-- The program: behind the last line, at a line that is not there and at an error it stops. -/
def CFormula.next (room : ℤ → ℕ) (f : CFormula) (c : Standing) : Option Standing :=
  if f.lineMax < c.line then none
  else (f.line? c.line).bind fun line => line.perform R room c

/-! ### Lines and records it is about -/

/-- A line of computations: it loads what it uses, from parameters that are known, and writes to
parameters only. -/
structure TFormula.Computing (R : Runtime) (known : Set ℤ) (line : TFormula) : Prop where
  own : line.OwnOperands
  computes : (FunctionCode.ofText line.functionCode).computes = true
  writes : (FunctionCode.ofText line.functionCode).writes = true → line.type3 = vb "PARAM"
  known1 : line.type1 = vb "PARAM" → ∀ i, cInt R.numeric line.operand1 = .ok i → i ∈ known
  known2 : line.type2 = vb "PARAM" → ∀ i, cInt R.numeric line.operand2 = .ok i → i ∈ known
  known3 : line.type3 = vb "PARAM" → ∀ i, cInt R.numeric line.operand3 = .ok i → i ∈ known

/-- A record of a single parameter as it was added, with `room` for its value. -/
structure Datum.Plain (room : ℤ → ℕ) (i : ℤ) (d : Datum R) : Prop where
  paramID : d.paramID = .int i
  linkType : d.linkType ≠ vb "SGR"
  room : d.frameLen + room i = 32767

/-- The pool strings of the known parameters hold these values. -/
structure Represents (R : Runtime) (room : ℤ → ℕ) (known : Set ℤ) (store : ℤ → VbString)
    (value : ℤ → Option VbString) : Prop where
  readable : ∀ i ∈ known, ∀ t, value i = some t →
    ∃ d : Datum R, Stored store i d ∧ d.value = .str t ∧ d.Plain room i
  unreadable : ∀ i ∈ known, value i = none → ∀ e : Datum R, ∃ e' err,
    letPoolString (store i) e = (e', some err)

/-! ### Loading -/

section Loading

variable {room : ℤ → ℕ} {known : Set ℤ} {value : ℤ → Option VbString} {v : OpVar}
  {types : List VbString} {type operand : VbString} {runID : ℤ}

/-- A record whose values can be assigned: none of them fails to make a row. -/
structure Datum.Settable (d : Datum R) : Prop where
  linkType : d.linkType ≠ vb "SGR"
  row : d.isAuto2LEIS = true → ∀ x, ∃ row, ({ d with value := x } : Datum R).histRow = .ok row
  dated : d.isAuto2LEIS = true → ∀ x t, FourDigitYear t →
    ∃ row, ({ d with value := x, date1 := some t } : Datum R).histRow = .ok row

/-- The record at `i` in a record object, in a run. -/
structure Datum.Copies (room : ℤ → ℕ) (store : ℤ → VbString) (i : ℤ) (d : Datum R) : Prop where
  stored : ∃ d₀ : Datum R, Stored store i d₀ ∧ d₀.Plain room i ∧ d = { d₀ with someID := d.someID }

/-- What a record object holds when the operand has been loaded into it. -/
structure Datum.Holds (room : ℤ → ℕ) (store : ℤ → VbString) (value : ℤ → Option VbString)
    (types : List VbString) (type operand : VbString) (d : Datum R) : Prop where
  text : ∀ t, operandText R value types type operand = some (some t) → d.value = .str t
  const : type ∈ types → d.dataSetName = [] ∧ d.linkType = []
  place : type ∉ types → type = vb "PARAM" →
    ∃ i, cInt R.numeric operand = .ok i ∧ d.Copies room store i

section

variable {value : ℤ → Option VbString} {types : List VbString} {type operand : VbString}

theorem operandText_const (h : type ∈ types) :
    operandText R value types type operand = some (some operand) :=
  if_pos (List.contains_iff_mem.2 h)

theorem operandText_param (h : type ∉ types) (hparam : type = vb "PARAM") :
    operandText R value types type operand =
      ((cInt R.numeric operand).toOption.bind value).map some := by
  rw [operandText, if_neg (mt List.contains_iff_mem.1 h), if_pos hparam]

theorem operandText_other (h : type ∉ types) (hparam : type ≠ vb "PARAM") :
    operandText R value types type operand = some none := by
  rw [operandText, if_neg (mt List.contains_iff_mem.1 h), if_neg hparam]

end

theorem setOp_op_eq (s : CalcState R) (v : OpVar) : s.setOp v (s.op v) = s := by
  rw [CalcState.setOp, Function.update_eq_self]

/-- An operand that can be loaded. -/
theorem loadOperand_some {s : CalcState R} (hrep : Represents R room known s.store value)
    (hknown : type = vb "PARAM" → ∀ i, cInt R.numeric operand = .ok i → i ∈ known)
    {t : Option VbString} (ht : operandText R value types type operand = some t) :
    ∃ d, loadOperand v types type operand s = .ok () (s.setOp v d) ∧
      d.Holds room s.store value types type operand := by
  unfold loadOperand
  split_ifs with hconst hparam
  · refine ⟨_, rfl, ?_, fun _ => ⟨rfl, rfl⟩, fun h => absurd hconst h⟩
    intro t' ht'
    rw [operandText_const hconst] at ht'
    cases ht'
    rfl
  · rw [operandText_param hconst hparam] at ht
    obtain ⟨t₀, hvalue, -⟩ := Option.map_eq_some_iff.1 ht
    obtain ⟨i, hi, hvalue⟩ := Option.bind_eq_some_iff.1 hvalue
    have hi' : cInt R.numeric operand = .ok i := toOption_eq_some.1 hi
    obtain ⟨d, hd, hval, hplain⟩ := hrep.readable i (hknown hparam i hi') t₀ hvalue
    refine ⟨{ d with someID := (s.op v).someID }, ?_, ?_, fun h => absurd h hconst,
      fun _ _ => ⟨i, hi', d, hd, hplain, rfl⟩⟩
    · rw [liftE_bind hi', getData, hd.load]
    · intro t' ht'
      rw [operandText_param hconst hparam, hi, Option.bind_some, hvalue] at ht'
      cases ht'
      exact hval
  · refine ⟨s.op v, by rw [setOp_op_eq]; rfl, fun t' ht' => ?_, fun h => absurd h hconst,
      fun _ h => absurd h hparam⟩
    rw [operandText_other hconst hparam] at ht'
    cases ht'

/-- An operand that cannot. -/
theorem loadOperand_none {s : CalcState R} (hrep : Represents R room known s.store value)
    (hknown : type = vb "PARAM" → ∀ i, cInt R.numeric operand = .ok i → i ∈ known)
    (ht : operandText R value types type operand = none) :
    ∃ e s', loadOperand v types type operand s = .error e s' ∧ s'.store = s.store := by
  unfold loadOperand
  split_ifs with hconst hparam
  · rw [operandText_const hconst] at ht
    cases ht
  · rw [operandText_param hconst hparam, Option.map_eq_none_iff] at ht
    cases hi : cInt R.numeric operand with
    | error e => exact ⟨e, s, rfl, rfl⟩
    | ok i =>
      rw [hi] at ht
      obtain ⟨e', err, hread⟩ := hrep.unreadable i (hknown hparam i hi) ht (s.op v)
      refine ⟨err, s.setOp v e', ?_, rfl⟩
      rw [liftE_bind rfl, getData, hread]
  · rw [operandText_other hconst hparam] at ht
    cases ht

theorem Datum.Holds.stamp {store : ℤ → VbString} {d : Datum R}
    (h : d.Holds room store value types type operand) (x : Variant R) :
    ({ d with someID := x } : Datum R).Holds room store value types type operand where
  text := h.text
  const := h.const
  place hconst hparam := by
    obtain ⟨i, hi, d₀, hd₀, hplain, hcopy⟩ := h.place hconst hparam
    exact ⟨i, hi, d₀, hd₀, hplain, by rw [hcopy]⟩

/-- The state when the operands of a line have been loaded. -/
structure Ready (room : ℤ → ℕ) (line : TFormula) (runID : ℤ) (value : ℤ → Option VbString)
    (s₀ s : CalcState R) : Prop where
  store : s.store = s₀.store
  iCurrent : s.iCurrent = s₀.iCurrent
  op1 : (s.op .vOp1).Holds room s₀.store value [vb "CONST"] line.type1 line.operand1
  op2 : (s.op .vOp2).Holds room s₀.store value [vb "CONST"] line.type2 line.operand2
  op3 : (s.op .vOp3).Holds room s₀.store value [vb "CONST", vb "LINE"] line.type3 line.operand3
  someID : (s.op .vOp3).someID = .int runID

variable {line : TFormula}

/-- **The operands of a line that can be loaded.** -/
theorem loadOperands_some {s : CalcState R} (hline : line.Computing R known)
    (hrep : Represents R room known s.store value) {t1 t2 t3 : Option VbString}
    (h1 : operandText R value [vb "CONST"] line.type1 line.operand1 = some t1)
    (h2 : operandText R value [vb "CONST"] line.type2 line.operand2 = some t2)
    (h3 : operandText R value [vb "CONST", vb "LINE"] line.type3 line.operand3 = some t3)
    (runID : ℤ) :
    ∃ s', loadOperands line runID s = .ok () s' ∧ Ready room line runID value s s' := by
  obtain ⟨d₁, hd₁, hold₁⟩ := loadOperand_some (v := .vOp1) hrep hline.known1 h1
  obtain ⟨d₂, hd₂, hold₂⟩ :=
    loadOperand_some (v := .vOp2) (s := s.setOp .vOp1 d₁) hrep hline.known2 h2
  obtain ⟨d₃, hd₃, hold₃⟩ :=
    loadOperand_some (v := .vOp3) (s := (s.setOp .vOp1 d₁).setOp .vOp2 d₂) hrep hline.known3 h3
  refine ⟨_, bind_ok.2 ⟨_, _, hd₁, bind_ok.2 ⟨_, _, hd₂, bind_ok.2 ⟨_, _, hd₃, rfl⟩⟩⟩, ?_⟩
  exact
    { store := rfl
      iCurrent := rfl
      op1 := by simpa using hold₁.stamp (.int runID)
      op2 := by simpa using hold₂.stamp (.int runID)
      op3 := by simpa using hold₃.stamp (.int runID)
      someID := by simp }

/-- **The operands of a line that cannot.** -/
theorem loadOperands_none {s : CalcState R} (hline : line.Computing R known)
    (hrep : Represents R room known s.store value)
    (h : operandText R value [vb "CONST"] line.type1 line.operand1 = none ∨
      operandText R value [vb "CONST"] line.type2 line.operand2 = none ∨
      operandText R value [vb "CONST", vb "LINE"] line.type3 line.operand3 = none) (runID : ℤ) :
    ∃ e s', loadOperands line runID s = .error e s' ∧ s'.store = s.store := by
  cases h1 : operandText R value [vb "CONST"] line.type1 line.operand1 with
  | none =>
    obtain ⟨e, s', hload, hstore⟩ := loadOperand_none (v := .vOp1) hrep hline.known1 h1
    exact ⟨e, s', bind_of_error hload _, hstore⟩
  | some t1 =>
    obtain ⟨d₁, hd₁, -⟩ := loadOperand_some (v := .vOp1) hrep hline.known1 h1
    cases h2 : operandText R value [vb "CONST"] line.type2 line.operand2 with
    | none =>
      obtain ⟨e, s', hload, hstore⟩ :=
        loadOperand_none (v := .vOp2) (s := s.setOp .vOp1 d₁) hrep hline.known2 h2
      exact ⟨e, s', by rw [loadOperands, bind_of_ok hd₁, bind_of_error hload], hstore⟩
    | some t2 =>
      obtain ⟨d₂, hd₂, -⟩ :=
        loadOperand_some (v := .vOp2) (s := s.setOp .vOp1 d₁) hrep hline.known2 h2
      have h3 := (h.resolve_left (by simp [h1])).resolve_left (by simp [h2])
      obtain ⟨e, s', hload, hstore⟩ := loadOperand_none (v := .vOp3)
        (s := (s.setOp .vOp1 d₁).setOp .vOp2 d₂) hrep hline.known3 h3
      exact ⟨e, s', by rw [loadOperands, bind_of_ok hd₁, bind_of_ok hd₂, bind_of_error hload],
        hstore⟩

end Loading

/-! ### Performing -/

/-- The result of a line is the one of the program: both go on, to the same line and with the same
values, and the pool strings of other records are as before, or both stop, and all of them are. -/
inductive Performs (room : ℤ → ℕ) (known : Set ℤ) (store : ℤ → VbString) :
    EStateM.Result VbError (CalcState R) Unit → Option Standing → Prop
  | stop {e : VbError} {s : CalcState R} (hstore : s.store = store) :
    Performs room known store (.error e s) none
  | go {s : CalcState R} {c : Standing} (hline : s.iCurrent + 1 = c.line)
    (hrep : Represents R room known s.store c.value) (hframe : ∀ j ∉ known, s.store j = store j) :
    Performs room known store (.ok () s) (some c)

section Performing

variable {conv : Convert R} {env : LineEnv} {dtDate : ℤ} {room : ℤ → ℕ} {known : Set ℤ}

/-- A record written with another value and another date. -/
theorem Represents.write {store : ℤ → VbString} {value : ℤ → Option VbString}
    (hrep : Represents R room known store value) {i : ℤ} {d₀ : Datum R}
    (hd₀ : Stored store i d₀) (hplain : d₀.Plain room i) {r text : VbString} {date : ℤ}
    (hdate : FourDigitYear date) {d : Datum R}
    (hd : d = { d₀ with value := .str r, date1 := d.date1 })
    (hdate1 : d.date1 = d₀.date1 ∨ d.date1 = some date) (htext : poolString d = .ok text) :
    Represents R room known (Function.update store i text)
      (Function.update value i (if partLen r < room i then some r else none)) := by
  have henc : d.Encodable := by
    have hr : r.length ≤ maxPartLen := by
      obtain ⟨ts, hparts, -⟩ := bind_eq_ok.1 htext
      exact length_le_of_mapM_getPoolStr hparts r (by rw [hd]; simp [poolParts])
    have hset := hd₀.encodable.setValue hr
    rw [hd]
    refine { hset with date1 := ?_ }
    rcases hdate1 with h | h
    · rw [h]
      exact hset.date1
    · exact ⟨date, h, hdate⟩
  have hval : d.value = .str r := by rw [hd]
  have hlen := length_poolString henc hval htext
  have hframe : d.frameLen = d₀.frameLen := by rw [hd]; rfl
  have hroom := hplain.room
  constructor
  · intro j hj t ht
    by_cases hji : j = i
    · subst hji
      rw [Function.update_self] at ht
      split_ifs at ht with hfits
      cases ht
      refine ⟨d, ⟨henc, by rw [hd]; exact hd₀.tag, by rw [Function.update_self]; exact htext, ?_⟩,
        hval, ?_⟩
      · rw [Function.update_self]
        omega
      · rw [hd]
        exact ⟨hplain.paramID, hplain.linkType, hplain.room⟩
    · rw [Function.update_of_ne hji] at ht
      obtain ⟨d', hd', hval', hplain'⟩ := hrep.readable j hj t ht
      refine ⟨d', ⟨hd'.encodable, hd'.tag, ?_, ?_⟩, hval', hplain'⟩
      · rw [Function.update_of_ne hji]
        exact hd'.text
      · rw [Function.update_of_ne hji]
        exact hd'.short
  · intro j hj hnone e
    by_cases hji : j = i
    · subst hji
      rw [Function.update_self] at hnone ⊢
      split_ifs at hnone with hfits
      obtain ⟨e', he'⟩ := letPoolString_too_long henc htext (by omega) e
      exact ⟨e', _, he'⟩
    · rw [Function.update_of_ne hji] at hnone ⊢
      exact hrep.unreadable j hj hnone e

/-- **A result shared.** -/
theorem performs_share {s : CalcState R} {c : Standing} (hc : s.iCurrent = c.line)
    (hrep : Represents R room known s.store c.value) {i : ℤ} (hknown : i ∈ known)
    (hi : toInteger i = .ok i) {d₀ : Datum R} (hd₀ : Stored s.store i d₀) (hplain : d₀.Plain room i)
    (hdate : FourDigitYear dtDate) {x : Variant R} (date1 : Option ℤ)
    (hop : s.op .vOp3 =
      { d₀ with value := x, date1 := date1, someID := (s.op .vOp3).someID })
    (hdate1 : date1 = d₀.date1 ∨ date1 = some dtDate) :
    Performs room known s.store (share .vOp3 s) (c.write room i (alwayString x)) := by
  set d : Datum R := { d₀ with value := .str (alwayString x), date1 := date1 } with hd
  have hpool : poolString (s.op .vOp3) = poolString d := by
    rw [hop]
    rfl
  have htag : cIntOf (s.op .vOp3).tag = .ok i := by
    rw [hop]
    show cIntOf d₀.tag = _
    rw [hd₀.tag]
    exact hi
  cases htext : poolString d with
  | ok text =>
    have hr : (alwayString x).length ≤ maxPartLen := by
      obtain ⟨ts, hparts, -⟩ := bind_eq_ok.1 htext
      exact length_le_of_mapM_getPoolStr hparts _ (by rw [hd]; simp [poolParts])
    rw [share_ok.2 ⟨i, text, htag, hpool.trans htext, rfl⟩, Standing.write, if_pos hr]
    refine .go (congrArg (· + 1) hc) (hrep.write hd₀ hplain hdate hd hdate1 htext) ?_
    intro j hj
    have hji : j ≠ i := fun heq => hj (heq ▸ hknown)
    exact Function.update_of_ne hji ..
  | error e =>
    have hlong : ¬ (alwayString x).length ≤ maxPartLen := by
      intro hr
      have henc : d.Encodable := by
        have hset := hd₀.encodable.setValue hr
        refine { hset with date1 := ?_ }
        rcases hdate1 with h | h
        · rw [hd, h]
          exact hset.date1
        · exact ⟨dtDate, h, hdate⟩
      rw [poolString_eq henc] at htext
      cases htext
    rw [Standing.write, if_neg hlong]
    have hshare : share .vOp3 s = .error e s := by
      rw [share, getOp_bind, liftE_bind htag, shareData, hpool, htext]
    rw [hshare]
    exact .stop rfl

/-- An assignment to a record whose values can be assigned. -/
theorem letValue_settable {v : OpVar} {s : CalcState R} (hset : (s.op v).Settable)
    (hleis : env.leis = none) (x : Variant R) :
    ∃ s', letValue env v x s = .ok () s' ∧ s'.op = (s.setOp v { s.op v with value := x }).op ∧
      s'.store = s.store ∧ s'.iCurrent = s.iCurrent := by
  by_cases hauto : (s.op v).isAuto2LEIS = true
  · obtain ⟨row, hrow⟩ := hset.row hauto x
    have hq : (s.op v).Queued := ⟨by simpa [Datum.isAuto2LEIS] using hauto, hset.linkType⟩
    exact ⟨_, (letValue_ok hq).2 ⟨row, hrow, hleis, rfl⟩, rfl, rfl, rfl⟩
  · refine ⟨s.setOp v { s.op v with value := x }, ?_, rfl, rfl, rfl⟩
    have hno : ({ s.op v with value := x } : Datum R).isAuto2LEIS ≠ true := hauto
    simp only [letValue, modifyOp_bind, getOp_bind, CalcState.setOp_op_self, if_neg hno]
    rfl

/-- The record objects a function code works on, with the texts of the operands. -/
structure Objects (room : ℤ → ℕ) (known : Set ℤ) (code : FunctionCode)
    (operand3 v1 v2 v3 : VbString) (s : CalcState R) : Prop where
  val1 : .vOp1 ∈ code.uses → (s.op .vOp1).value = .str v1
  val2 : .vOp2 ∈ code.uses → (s.op .vOp2).value = .str v2
  val3 : .vOp3 ∈ code.uses → (s.op .vOp3).value = .str v3
  settable : .vOp3 ∈ code.uses → (s.op .vOp3).Settable
  dest : code.writes = true → ∃ i ∈ known, cInt R.numeric operand3 = .ok i ∧
    (s.op .vOp3).Copies room s.store i

variable {s : CalcState R} {c : Standing} {code : FunctionCode} {operand3 v1 v2 v3 : VbString}

theorem apply_write {i : ℤ} (hi : cInt R.numeric operand3 = .ok i) (r : VbString) :
    (Effect.write r).apply R room operand3 c = c.write room i r := by
  show (cInt R.numeric operand3).toOption.bind _ = _
  rw [hi]
  rfl

/-- **The end of `+`, `-`, `&` and `INC`.** -/
theorem performs_valueThenDate (hobj : Objects room known code operand3 v1 v2 v3 s)
    (huses : .vOp3 ∈ code.uses) (hwrites : code.writes = true) (hc : s.iCurrent = c.line)
    (hrep : Represents R room known s.store c.value) (hleis : env.leis = none)
    (hnow : FourDigitYear dtDate) (x : Variant R) :
    Performs room known s.store (valueThenDate env dtDate x s)
      ((Effect.write (alwayString x)).apply R room operand3 c) := by
  obtain ⟨i, hknown, hi, d₀, hd₀, hplain, hcopy⟩ := hobj.dest hwrites
  obtain ⟨s₁, hlet, hop, hstore, hcur⟩ := letValue_settable (hobj.settable huses) hleis x
  rw [apply_write hi, valueThenDate, bind_of_ok hlet, setDate1, modifyOp_bind]
  have hshare := performs_share (s := s₁.setOp .vOp3 { s₁.op .vOp3 with date1 := some dtDate })
    (c := c) (by simpa [hcur] using hc) (by simpa [hstore] using hrep) hknown (toInteger_of_cInt hi)
    (by simpa [hstore] using hd₀) hplain hnow (x := x) (some dtDate) ?_ (.inr rfl)
  · simpa [hstore] using hshare
  · rw [CalcState.setOp_op_self, hop, CalcState.setOp_op_self, hcopy]

/-- The first two operands as numbers. -/
theorem performs_numbers (h1 : (s.op .vOp1).value = .str v1) (h2 : (s.op .vOp2).value = .str v2)
    {f : R.Double → R.Double → CalcM R Unit} {c' : Option Standing}
    (hok : ∀ x1 x2, R.cDbl v1 = .ok x1 → R.cDbl v2 = .ok x2 →
      Performs room known s.store (f x1 x2 s) c')
    (herr1 : ∀ e, R.cDbl v1 = .error e → c' = none)
    (herr2 : ∀ x1 e, R.cDbl v1 = .ok x1 → R.cDbl v2 = .error e → c' = none) :
    Performs room known s.store
      ((do
        let x1 ← liftE (toDouble (← getOp .vOp1).value)
        let x2 ← liftE (toDouble (← getOp .vOp2).value)
        f x1 x2) s) c' := by
  rw [getOp_bind, h1]
  show Performs room known s.store ((liftE (R.cDbl v1) >>= _) s) c'
  cases hx1 : R.cDbl v1 with
  | error e =>
    rw [herr1 e hx1]
    exact .stop rfl
  | ok x1 =>
    rw [liftE_bind rfl, getOp_bind, h2]
    show Performs room known s.store ((liftE (R.cDbl v2) >>= _) s) c'
    cases hx2 : R.cDbl v2 with
    | error e =>
      rw [herr2 x1 e hx1 hx2]
      exact .stop rfl
    | ok x2 =>
      rw [liftE_bind rfl]
      exact hok x1 x2 hx1 hx2

/-- **A jump.** -/
theorem performs_jump {v : OpVar} {target : VbString} (hv : (s.op v).value = .str target)
    (hrep : Represents R room known s.store c.value) :
    Performs room known s.store (jump v s) (c.jump R target) := by
  rw [jump, getOp_bind, hv, Standing.jump]
  show Performs room known s.store ((liftE (cLng R.numeric target) >>= _) s) _
  cases hn : cLng R.numeric target with
  | error e => exact .stop rfl
  | ok n =>
    rw [liftE_bind rfl]
    show Performs room known s.store _ ((toInteger (n - 1)).toOption.map _)
    cases hm : toInteger (n - 1) with
    | error e => exact .stop rfl
    | ok m =>
      have hm' := toInteger_ok hm
      refine .go ?_ hrep fun _ _ => rfl
      show m + 1 = n
      omega

/-- An assignment to the third operand that nobody sees. -/
theorem performs_letValue (hset : (s.op .vOp3).Settable) (hc : s.iCurrent = c.line)
    (hrep : Represents R room known s.store c.value) (hleis : env.leis = none) (x : Variant R) :
    Performs room known s.store (letValue env .vOp3 x s)
      (Effect.skip.apply R room operand3 c) := by
  obtain ⟨s₁, hlet, -, hstore, hcur⟩ := letValue_settable hset hleis x
  rw [hlet]
  refine .go ?_ (hstore ▸ hrep) fun j _ => congrFun hstore j
  show s₁.iCurrent + 1 = c.line + 1
  rw [hcur, hc]

/-- A jump taken or not. -/
theorem performs_if {v : OpVar} {target : VbString} {cond : Prop} [Decidable cond]
    (hv : (s.op v).value = .str target) (hc : s.iCurrent = c.line)
    (hrep : Represents R room known s.store c.value) :
    Performs room known s.store ((if cond then jump v else pure ()) s)
      ((if cond then Effect.jump target else .skip).apply R room operand3 c) := by
  split_ifs
  · exact performs_jump hv hrep
  · exact .go (congrArg (· + 1) hc) hrep fun _ _ => rfl

/-- `FOR`. -/
theorem performs_for (hobj : Objects room known .forLoop operand3 v1 v2 v3 s)
    (hc : s.iCurrent = c.line)
    (hrep : Represents R room known s.store c.value) (hleis : env.leis = none)
    (hnow : FourDigitYear dtDate) :
    Performs room known s.store (exec conv env dtDate .forLoop s)
      ((FunctionCode.forLoop.effect R v1 v2 v3).apply R room operand3 c) := by
  have h3 := hobj.val3 (by decide)
  obtain ⟨i, hknown, hi, d₀, hd₀, hplain, hcopy⟩ := hobj.dest rfl
  rw [FunctionCode.effect]
  cases hx3 : R.cDbl v3 with
  | error e =>
    have hsucc : succ (s.op .vOp3).value = .error e := by
      rw [h3, succ, hx3]
      rfl
    rw [exec, getOp_bind, hsucc]
    exact .stop rfl
  | ok x3 =>
    have hsucc : succ (s.op .vOp3).value = .ok (.dbl (R.add x3 (R.ofInt 1))) := by
      rw [h3, succ, hx3]
      rfl
    obtain ⟨s₁, hlet, hop, hstore, hcur⟩ :=
      letValue_settable (hobj.settable (by decide)) hleis (.dbl (R.add x3 (R.ofInt 1)))
    have hop3 : s₁.op .vOp3 = { s.op .vOp3 with value := .dbl (R.add x3 (R.ofInt 1)) } := by
      rw [hop, CalcState.setOp_op_self]
    have hv2 : (s₁.op .vOp2).value = .str v2 := by
      rw [hop, CalcState.setOp_op_ne _ (by decide)]
      exact hobj.val2 (by decide)
    have hv3 : toDouble (s₁.op .vOp3).value = .ok (R.add x3 (R.ofInt 1)) := by
      rw [hop3]
      rfl
    cases hx2 : R.cDbl v2 with
    | error e =>
      rw [exec, getOp_bind, liftE_bind hsucc, bind_of_ok hlet, getOp_bind, liftE_bind hv3,
        getOp_bind, hv2, toDouble, hx2]
      exact .stop hstore
    | ok x2 =>
      rw [exec_for hsucc hlet hv3 (by rw [hv2]; exact hx2)]
      dsimp only
      split_ifs with hgt
      · have hset₁ : (s₁.op .vOp3).Settable := by
          rw [hop3]
          obtain ⟨hlink, hrow, hdated⟩ := hobj.settable (by decide)
          exact ⟨hlink, hrow, hdated⟩
        obtain ⟨s₂, hlet₂, hop₂, hstore₂, hcur₂⟩ := letValue_settable hset₁ hleis (.str v1)
        have hv1 : (s₁.op .vOp1).value = .str v1 := by
          rw [hop, CalcState.setOp_op_ne _ (by decide)]
          exact hobj.val1 (by decide)
        rw [hv1, bind_of_ok hlet₂, apply_write hi]
        have hshare := performs_share (s := s₂) (c := c) (by rw [hcur₂, hcur, hc])
          (by rw [hstore₂, hstore]; exact hrep) hknown (toInteger_of_cInt hi)
          (by rw [hstore₂, hstore]; exact hd₀) hplain hnow (x := .str v1) d₀.date1 ?_
          (.inl rfl)
        · simpa [hstore₂, hstore] using hshare
        · rw [hop₂, CalcState.setOp_op_self, hop3, hcopy]
      · rw [apply_write hi]
        have hshare := performs_share (s := s₁) (c := c) (by rw [hcur, hc])
          (by rw [hstore]; exact hrep) hknown (toInteger_of_cInt hi) (by rw [hstore]; exact hd₀)
          hplain hnow (x := .dbl (R.add x3 (R.ofInt 1))) d₀.date1 ?_ (.inl rfl)
        · rw [hstore] at hshare
          exact hshare
        · rw [hop3, hcopy]

/-- `IF>` and `IF<=`. -/
theorem performs_compare {cond : R.Double → R.Double → Bool}
    (h1 : (s.op .vOp1).value = .str v1) (h2 : (s.op .vOp2).value = .str v2)
    (h3 : (s.op .vOp3).value = .str v3) (hc : s.iCurrent = c.line)
    (hrep : Represents R room known s.store c.value) :
    Performs room known s.store
      ((do
        let x1 ← liftE (toDouble (← getOp .vOp1).value)
        let x2 ← liftE (toDouble (← getOp .vOp2).value)
        if cond x1 x2 then jump .vOp3) s)
      ((Effect.compare R cond v1 v2 v3).apply R room operand3 c) := by
  refine performs_numbers h1 h2 ?_ ?_ ?_
  · intro x1 x2 hx1 hx2
    rw [Effect.compare, hx1, hx2]
    exact performs_if h3 hc hrep
  · intro e he
    rw [Effect.compare, he]
    rfl
  · intro x1 e hx1 he
    rw [Effect.compare, hx1, he]
    rfl

/-- `LEFT` and `RIGHT`. -/
theorem performs_cut {cut : VbString → ℤ → Except VbError VbString}
    (h1 : (s.op .vOp1).value = .str v1) (h2 : (s.op .vOp2).value = .str v2)
    (hset : (s.op .vOp3).Settable) (hc : s.iCurrent = c.line)
    (hrep : Represents R room known s.store c.value) (hleis : env.leis = none) :
    Performs room known s.store
      ((do
        let v1 ← getOp .vOp1
        let n ← liftE (cLngOf (← getOp .vOp2).value)
        letValue env .vOp3 (.str (← liftE (cut (toText v1.value) n)))) s)
      ((Effect.unseen (do cut v1 (← cLng R.numeric v2))).apply R room operand3 c) := by
  rw [getOp_bind, getOp_bind, h2]
  show Performs room known s.store ((liftE (cLng R.numeric v2) >>= _) s) _
  cases hn : cLng R.numeric v2 with
  | error err => exact .stop rfl
  | ok n =>
    rw [liftE_bind rfl, h1]
    show Performs room known s.store ((liftE (cut v1 n) >>= _) s)
      ((Effect.unseen (cut v1 n)).apply R room operand3 c)
    cases hr : cut v1 n with
    | error err => exact .stop rfl
    | ok r =>
      rw [liftE_bind rfl]
      exact performs_letValue hset hc hrep hleis _

/-- The end of `SET` and `SHARE`. -/
theorem performs_dated (hobj : Objects room known code operand3 v1 v2 v3 s)
    (hwrites : code.writes = true) (hc : s.iCurrent = c.line)
    (hrep : Represents R room known s.store c.value) (hnow : FourDigitYear dtDate)
    {s₁ : CalcState R} (y : Variant R)
    (hop : s₁.op .vOp3 = { s.op .vOp3 with value := y, date1 := some dtDate })
    (hstore : s₁.store = s.store) (hcur : s₁.iCurrent = s.iCurrent) :
    Performs room known s.store (Sis.share .vOp3 s₁)
      ((Effect.write (alwayString y)).apply R room operand3 c) := by
  obtain ⟨i, hknown, hi, d₀, hd₀, hplain, hcopy⟩ := hobj.dest hwrites
  rw [apply_write hi, ← hstore]
  refine performs_share (by rw [hcur, hc]) (by rw [hstore]; exact hrep) hknown
    (toInteger_of_cInt hi) (by rw [hstore]; exact hd₀) hplain hnow (some dtDate) ?_ (.inr rfl)
  rw [hop, hcopy]

/-- **A function code does what the program does.** -/
theorem exec_performs (hcomp : code.computes = true)
    (hobj : Objects room known code operand3 v1 v2 v3 s)
    (hc : s.iCurrent = c.line) (hrep : Represents R room known s.store c.value)
    (hleis : env.leis = none) (hnow : FourDigitYear dtDate) :
    Performs room known s.store (exec conv env dtDate code s)
      ((code.effect R v1 v2 v3).apply R room operand3 c) := by
  have hpub (x : Variant R) (huses : .vOp3 ∈ code.uses) (hwrites : code.writes = true) :
      Performs room known s.store (valueThenDate env dtDate x s)
        ((Effect.write (alwayString x)).apply R room operand3 c) :=
    performs_valueThenDate hobj huses hwrites hc hrep hleis hnow x
  have hlet (x : Variant R) (huses : .vOp3 ∈ code.uses) :
      Performs room known s.store (letValue env .vOp3 x s)
        (Effect.skip.apply R room operand3 c) :=
    performs_letValue (hobj.settable huses) hc hrep hleis x
  cases code with
  | forLoop => exact performs_for hobj hc hrep hleis hnow
  | plus =>
    refine performs_numbers (hobj.val1 (by decide)) (hobj.val2 (by decide))
      (fun x1 x2 h1 h2 => ?_) (fun e he => ?_) fun x1 e h1 he => ?_
    · rw [FunctionCode.effect, FunctionCode.result, h1, h2]
      exact hpub (.str (R.doubleText (R.add x1 x2))) (by decide) rfl
    · rw [FunctionCode.effect, FunctionCode.result, he]
      rfl
    · rw [FunctionCode.effect, FunctionCode.result, h1, he]
      rfl
  | minus =>
    refine performs_numbers (hobj.val1 (by decide)) (hobj.val2 (by decide))
      (fun x1 x2 h1 h2 => ?_) (fun e he => ?_) fun x1 e h1 he => ?_
    · rw [FunctionCode.effect, FunctionCode.result, h1, h2]
      exact hpub (.str (R.doubleText (R.sub x1 x2))) (by decide) rfl
    · rw [FunctionCode.effect, FunctionCode.result, he]
      rfl
    · rw [FunctionCode.effect, FunctionCode.result, h1, he]
      rfl
  | concat =>
    rw [exec, getOp_bind, getOp_bind, hobj.val1 (by decide), hobj.val2 (by decide)]
    exact hpub (.str (v1 ++ v2)) (by decide) rfl
  | inc =>
    rw [exec, getOp_bind, hobj.val3 (by decide), FunctionCode.effect, FunctionCode.result, succ]
    cases hx : R.cDbl v3 with
    | error e => exact .stop rfl
    | ok x => exact hpub (.dbl (R.add x (R.ofInt 1))) (by decide) rfl
  | instr => exact hlet _ (by decide)
  | left =>
    exact performs_cut (hobj.val1 (by decide)) (hobj.val2 (by decide))
      (hobj.settable (by decide)) hc hrep hleis
  | right =>
    exact performs_cut (hobj.val1 (by decide)) (hobj.val2 (by decide))
      (hobj.settable (by decide)) hc hrep hleis
  | ifEqual =>
    rw [exec, getOp_bind, getOp_bind, hobj.val1 (by decide), hobj.val2 (by decide)]
    exact performs_if (hobj.val3 (by decide)) hc hrep
  | ifnot =>
    rw [exec, getOp_bind, getOp_bind, hobj.val1 (by decide), hobj.val2 (by decide)]
    exact performs_if (hobj.val3 (by decide)) hc hrep
  | ifgt =>
    exact performs_compare (hobj.val1 (by decide)) (hobj.val2 (by decide))
      (hobj.val3 (by decide)) hc hrep
  | ifle =>
    exact performs_compare (hobj.val1 (by decide)) (hobj.val2 (by decide))
      (hobj.val3 (by decide)) hc hrep
  | goto => exact performs_jump (hobj.val1 (by decide)) hrep
  | set =>
    obtain ⟨hlink, -, hdated⟩ := hobj.settable (by decide)
    set s₀ := s.setOp .vOp3 { s.op .vOp3 with date1 := some dtDate } with hs₀
    have hop₀ : s₀.op .vOp3 = { s.op .vOp3 with date1 := some dtDate } := CalcState.setOp_op_self ..
    have hset : (s₀.op .vOp3).Settable := by
      rw [hop₀]
      exact ⟨hlink, fun hauto x => hdated hauto x dtDate hnow, hdated⟩
    obtain ⟨s₁, hlet₁, hop, hstore, hcur⟩ := letValue_settable hset hleis (.str v1)
    have hval : (s₀.op .vOp1).value = .str v1 := by
      rw [hs₀, CalcState.setOp_op_ne _ (by decide)]
      exact hobj.val1 (by decide)
    rw [exec, setDate1, modifyOp_bind, ← hs₀, getOp_bind, hval, bind_of_ok hlet₁]
    refine performs_dated hobj rfl hc hrep hnow (.str v1) ?_ hstore hcur
    rw [hop, CalcState.setOp_op_self, hop₀]
  | share =>
    set s₀ := s.setOp .vOp3 { s.op .vOp3 with date1 := some dtDate } with hs₀
    have hval : (s₀.op .vOp1).value = .str v1 := by
      rw [hs₀, CalcState.setOp_op_ne _ (by decide)]
      exact hobj.val1 (by decide)
    rw [exec, setDate1, modifyOp_bind, ← hs₀, getOp_bind, hval, shareValue, modifyOp_bind]
    refine performs_dated hobj rfl hc hrep hnow (.str v1) ?_ rfl rfl
    rw [CalcState.setOp_op_self, hs₀, CalcState.setOp_op_self]
  | save =>
    rw [exec, getOp_bind]
    exact hlet _ (by decide)
  | unknown => exact .go (congrArg (· + 1) hc) hrep fun _ _ => rfl
  | mread | smread | read | sread | write | lhstr2val => cases hcomp

theorem Datum.Copies.settable {store : ℤ → VbString} {i : ℤ} {d : Datum R}
    (h : d.Copies room store i) (hi : toInteger i = .ok i) {runID : ℤ} (hid : d.someID = .int runID)
    (hlong : IsLong runID) : d.Settable := by
  obtain ⟨d₀, hd₀, hplain, hcopy⟩ := h
  rw [hid] at hcopy
  rw [hcopy]
  refine ⟨hplain.linkType, ?_, ?_⟩
  · intro _ x
    exact histRow_total hd₀.encodable hplain.paramID hi hlong x
  · intro _ x t ht
    have henc : ({ d₀ with date1 := some t } : Datum R).Encodable :=
      { hd₀.encodable with date1 := ⟨t, rfl, ht⟩ }
    exact histRow_total henc hplain.paramID hi hlong x

/-- An operand that has been loaded has a text. -/
theorem text_of_loads {value : ℤ → Option VbString} {types : List VbString}
    {type operand : VbString} {t : Option VbString} {d : Datum R}
    (ht : operandText R value types type operand = some t)
    (hholds : d.Holds room s.store value types type operand)
    (hloads : type ∈ types ∨ type = vb "PARAM") : d.value = .str (t.getD []) := by
  obtain ⟨t', rfl⟩ : ∃ t', t = some t' := by
    by_cases hconst : type ∈ types
    · rw [operandText_const hconst] at ht
      exact ⟨operand, (Option.some.inj ht).symm⟩
    · rw [operandText_param hconst (hloads.resolve_left hconst)] at ht
      obtain ⟨t', -, ht'⟩ := Option.map_eq_some_iff.1 ht
      exact ⟨t', ht'.symm⟩
  exact hholds.text t' ht

theorem mem_pair_iff {t : VbString} (a b : VbString) :
    t ∈ [a, b] ∨ t = vb "PARAM" ↔ t = a ∨ t = b ∨ t = vb "PARAM" := by
  simp [or_assoc]

/-- **The loaded operands are what the function code works on.** -/
theorem Ready.objects {line : TFormula} {runID : ℤ} {s₀ : CalcState R}
    (hready : Ready room line runID c.value s₀ s) (hline : line.Computing R known)
    (hlong : IsLong runID) {t1 t2 t3 : Option VbString}
    (h1 : operandText R c.value [vb "CONST"] line.type1 line.operand1 = some t1)
    (h2 : operandText R c.value [vb "CONST"] line.type2 line.operand2 = some t2)
    (h3 : operandText R c.value [vb "CONST", vb "LINE"] line.type3 line.operand3 = some t3) :
    Objects room known (.ofText line.functionCode) line.operand3 (t1.getD []) (t2.getD [])
      (t3.getD []) s := by
  have hop1 := hready.op1
  have hop2 := hready.op2
  have hop3 := hready.op3
  rw [← hready.store] at hop1 hop2 hop3
  have hloads3 (huse : .vOp3 ∈ (FunctionCode.ofText line.functionCode).uses) :
      line.type3 ∈ [vb "CONST", vb "LINE"] ∨ line.type3 = vb "PARAM" := by
    have hloads : line.Loads .vOp3 := hline.own _ huse
    exact (mem_pair_iff _ _).2 hloads
  have hnotconst : vb "PARAM" ∉ [vb "CONST", vb "LINE"] := by decide
  refine ⟨?_, ?_, ?_, ?_, ?_⟩
  · intro huse
    have hloads : line.Loads .vOp1 := hline.own _ huse
    exact text_of_loads h1 hop1 (hloads.imp_left fun h => by simp [h])
  · intro huse
    have hloads : line.Loads .vOp2 := hline.own _ huse
    exact text_of_loads h2 hop2 (hloads.imp_left fun h => by simp [h])
  · intro huse
    exact text_of_loads h3 hop3 (hloads3 huse)
  · intro huse
    by_cases hconst : line.type3 ∈ [vb "CONST", vb "LINE"]
    · obtain ⟨hname, hlink⟩ := hop3.const hconst
      have hauto : (s.op .vOp3).isAuto2LEIS ≠ true := by
        rw [Datum.isAuto2LEIS, hname]
        decide
      exact ⟨by rw [hlink]; decide, fun h => absurd h hauto, fun h => absurd h hauto⟩
    · obtain ⟨i, hi, hcopy⟩ := hop3.place hconst ((hloads3 huse).resolve_left hconst)
      exact hcopy.settable (toInteger_of_cInt hi) hready.someID hlong
  · intro hwrites
    have htype := hline.writes hwrites
    obtain ⟨i, hi, hcopy⟩ := hop3.place (by rw [htype]; exact hnotconst) htype
    exact ⟨i, hline.known3 htype i hi, hi, hcopy⟩

variable (conv) in
/-- **A line does what the program does.** -/
theorem calculateLine_performs {line : TFormula} (hline : line.Computing R known) {runID : ℤ}
    (hlong : IsLong runID) (hc : s.iCurrent = c.line)
    (hrep : Represents R room known s.store c.value) (hleis : env.leis = none)
    (hnow : FourDigitYear dtDate) :
    Performs room known s.store (calculateLine conv env dtDate line runID s)
      (line.perform R room c) := by
  by_cases hload : operandText R c.value [vb "CONST"] line.type1 line.operand1 = none ∨
      operandText R c.value [vb "CONST"] line.type2 line.operand2 = none ∨
      operandText R c.value [vb "CONST", vb "LINE"] line.type3 line.operand3 = none
  · obtain ⟨e, s', herr, hstore⟩ := loadOperands_none hline hrep hload runID
    have hstop : line.perform R room c = none := by
      unfold TFormula.perform
      rcases hload with h | h | h <;> simp [h]
    rw [calculateLine, bind_of_error herr, hstop]
    exact .stop hstore
  · push Not at hload
    obtain ⟨h1, h2, h3⟩ := hload
    obtain ⟨t1, h1⟩ := Option.ne_none_iff_exists'.1 h1
    obtain ⟨t2, h2⟩ := Option.ne_none_iff_exists'.1 h2
    obtain ⟨t3, h3⟩ := Option.ne_none_iff_exists'.1 h3
    obtain ⟨s', hok, hready⟩ := loadOperands_some hline hrep h1 h2 h3 runID
    have hperform : line.perform R room c = ((FunctionCode.ofText line.functionCode).effect R
        (t1.getD []) (t2.getD []) (t3.getD [])).apply R room line.operand3 c := by
      unfold TFormula.perform
      rw [h1, h2, h3]
      rfl
    rw [calculateLine, bind_of_ok hok, hperform, ← hready.store]
    exact exec_performs hline.computes (hready.objects hline hlong h1 h2 h3)
      (hready.iCurrent.trans hc) (hready.store ▸ hrep) hleis hnow

end Performing

/-! ### Runs -/

section Runs

variable {conv : Convert R} {room : ℤ → ℕ} {known : Set ℤ}

/-- A formula of lines that compute. -/
def CFormula.Computing (R : Runtime) (known : Set ℤ) (f : CFormula) : Prop :=
  ∀ line ∈ f.lines, line.Computing R known

/-- A run stands where the program does: it has the same line before it, unless it has ended, as the
program has then. -/
structure RunState.StandsAt (room : ℤ → ℕ) (known : Set ℤ) (s : RunState R) (c : Standing) :
    Prop where
  computing : s.formula.Computing R known
  last : s.formula.lineMax ≤ 32767
  date : FourDigitYear s.dtDate
  isLong : IsLong s.runID
  values : Represents R room known s.state.store c.value
  line : s.ended = false → s.state.iCurrent = c.line
  ended : s.ended = true → s.formula.next R room c = none

/-- What a step of a run can do. -/
inductive RunState.Stepped (conv : Convert R) (env : LineEnv) (s : RunState R) : RunState R → Prop
  /-- There is no line before the run. -/
  | over (hnone : s.next? = none) : Stepped conv env s { s with ended := true }
  /-- The line has ended with an error. -/
  | failed {line : TFormula} {e : VbError} {state : CalcState R} (hnext : s.next? = some line)
    (hcalc : calculateLine conv env s.dtDate line s.runID s.state = .error e state) :
    Stepped conv env s { s with state, ended := true }
  /-- The loop variable cannot be counted further. -/
  | overflowed {line : TFormula} {e : VbError} {state : CalcState R} (hnext : s.next? = some line)
    (hcalc : calculateLine conv env s.dtDate line s.runID s.state = .ok () state)
    (hint : toInteger (state.iCurrent + 1) = .error e) :
    Stepped conv env s { s with state, ended := true }
  | moved {line : TFormula} {state : CalcState R} (hnext : s.next? = some line)
    (hcalc : calculateLine conv env s.dtDate line s.runID s.state = .ok () state) :
    Stepped conv env s { s with state := { state with iCurrent := state.iCurrent + 1 } }

variable (conv) in
theorem RunState.stepped (s : RunState R) (env : LineEnv) :
    s.Stepped conv env (s.step conv env) := by
  rw [RunState.step]
  cases hnext : s.next? with
  | none => exact .over hnext
  | some line =>
    dsimp only
    cases hcalc : calculateLine conv env s.dtDate line s.runID s.state with
    | error e state => exact .failed hnext hcalc
    | ok u state =>
      dsimp only
      cases hint : toInteger (state.iCurrent + 1) with
      | error e => exact .overflowed hnext hcalc hint
      | ok i =>
        obtain rfl := toInteger_ok hint
        exact .moved hnext hcalc

/-- The line before a run. -/
theorem RunState.of_next?_some {s : RunState R} {line : TFormula} (h : s.next? = some line) :
    s.ended = false ∧ ¬ s.formula.lineMax < s.state.iCurrent ∧
      s.formula.line? s.state.iCurrent = some line := by
  unfold RunState.next? at h
  split_ifs at h with hover
  obtain ⟨hended, hbehind⟩ := not_or.1 hover
  exact ⟨Bool.eq_false_iff.2 hended, hbehind, h⟩

theorem RunState.of_next?_none {s : RunState R} (h : s.next? = none) (hended : s.ended = false) :
    s.formula.lineMax < s.state.iCurrent ∨ s.formula.line? s.state.iCurrent = none := by
  unfold RunState.next? at h
  split_ifs at h with hover
  · exact .inl (hover.resolve_left (by simp [hended]))
  · exact .inr h

/-- Lines have numbers from 0 on. -/
theorem nonneg_of_line? {f : CFormula} {current : ℤ} {line : TFormula}
    (h : f.line? current = some line) : 0 ≤ current := by
  unfold CFormula.line? at h
  split_ifs at h with hneg
  omega

/-- A run that has ended where the program stops. -/
theorem RunState.StandsAt.stopped {s : RunState R} {c c' : Standing} (h : s.StandsAt room known c)
    {state : CalcState R} (hvalues : Represents R room known state.store c'.value)
    (hstop : s.formula.next R room c' = none) :
    ({ s with state, ended := true } : RunState R).StandsAt room known c' where
  computing := h.computing
  last := h.last
  date := h.date
  isLong := h.isLong
  values := hvalues
  line he := by cases he
  ended _ := hstop

theorem Standing.line_write {c c' : Standing} {i : ℤ} {r : VbString}
    (h : c.write room i r = some c') : c'.line = c.line + 1 := by
  by_cases hlen : r.length ≤ maxPartLen
  · rw [Standing.write, if_pos hlen, Option.some.injEq] at h
    rw [← h]
  · rw [Standing.write, if_neg hlen] at h
    cases h

/-- Where a program goes, the loop variable has not been too low for an `Integer`. -/
theorem perform_line {line : TFormula} {c c' : Standing} (hc : 0 ≤ c.line)
    (h : line.perform R room c = some c') : -32768 < c'.line := by
  obtain ⟨v1, -, h⟩ := Option.bind_eq_some_iff.1 h
  obtain ⟨v2, -, h⟩ := Option.bind_eq_some_iff.1 h
  obtain ⟨v3, -, h⟩ := Option.bind_eq_some_iff.1 h
  cases heff : (FunctionCode.ofText line.functionCode).effect R (v1.getD []) (v2.getD [])
      (v3.getD []) with
  | stop =>
    rw [heff] at h
    cases h
  | skip =>
    rw [heff] at h
    cases h
    show -32768 < c.line + 1
    omega
  | jump target =>
    rw [heff] at h
    obtain ⟨n, -, h⟩ := Option.bind_eq_some_iff.1 h
    obtain ⟨m, hm, h⟩ := Option.map_eq_some_iff.1 h
    have hm := toOption_eq_some.1 hm
    rw [← h]
    show -32768 < n
    unfold toInteger at hm
    split_ifs at hm
    omega
  | write r =>
    rw [heff] at h
    obtain ⟨i, -, h⟩ := Option.bind_eq_some_iff.1 h
    have hline := Standing.line_write h
    omega

/-- Where a run has no line before it the program stops. -/
theorem RunState.StandsAt.next_none {s : RunState R} {c : Standing} (h : s.StandsAt room known c)
    (hnone : s.next? = none) : s.formula.next R room c = none := by
  cases hend : s.ended with
  | true => exact h.ended hend
  | false =>
    have hover := RunState.of_next?_none hnone hend
    rw [h.line hend] at hover
    rw [CFormula.next]
    rcases hover with hbehind | hline
    · rw [if_pos hbehind]
    · rw [hline]
      split_ifs <;> rfl

/-- Where a run has a line before it the program performs this line. -/
theorem RunState.StandsAt.next_some {s : RunState R} {c : Standing} (h : s.StandsAt room known c)
    {line : TFormula} (hnext : s.next? = some line) :
    s.state.iCurrent = c.line ∧ s.formula.line? c.line = some line ∧
      s.formula.next R room c = line.perform R room c := by
  obtain ⟨hend, hbehind, hline⟩ := RunState.of_next?_some hnext
  rw [h.line hend] at hbehind hline
  exact ⟨h.line hend, hline, by rw [CFormula.next, if_neg hbehind, hline, Option.bind_some]⟩

/-- **One step of a run is one step of the program.** -/
theorem RunState.StandsAt.step {s : RunState R} {c : Standing} (h : s.StandsAt room known c)
    {env : LineEnv} (hleis : env.leis = none) :
    (s.step conv env).StandsAt room known ((s.formula.next R room c).getD c) := by
  have hperforms {line : TFormula} (hnext : s.next? = some line) :
      Performs room known s.state.store (calculateLine conv env s.dtDate line s.runID s.state)
        (s.formula.next R room c) := by
    obtain ⟨hc, hline, hprog⟩ := h.next_some hnext
    rw [hprog]
    exact calculateLine_performs conv (h.computing line (mem_of_line? hline)) h.isLong hc h.values
      hleis h.date
  have hstepped := RunState.stepped conv s env
  revert hstepped
  generalize s.step conv env = s'
  rintro (⟨hnone⟩ | ⟨hnext, hcalc⟩ | ⟨hnext, hcalc, hint⟩ | ⟨hnext, hcalc⟩)
  · have hstop := h.next_none hnone
    rw [hstop]
    exact h.stopped h.values hstop
  · have hperf := hperforms hnext
    rw [hcalc] at hperf
    cases hprog : s.formula.next R room c with
    | some c' =>
      rw [hprog] at hperf
      cases hperf
    | none =>
      rw [hprog] at hperf
      obtain ⟨hstore⟩ := hperf
      exact h.stopped (hstore.symm ▸ h.values) hprog
  · have hperf := hperforms hnext
    obtain ⟨-, hline, hprog⟩ := h.next_some hnext
    rw [hcalc] at hperf
    cases hprog' : s.formula.next R room c with
    | none =>
      rw [hprog'] at hperf
      cases hperf
    | some c' =>
      rw [hprog'] at hperf
      obtain ⟨⟩ | ⟨hcur, hrep, -⟩ := hperf
      -- there are not so many lines
      refine h.stopped hrep ?_
      have hlow := perform_line (nonneg_of_line? hline) (hprog ▸ hprog')
      have hlast := h.last
      unfold toInteger at hint
      split_ifs at hint with hrange
      show s.formula.next R room c' = none
      rw [CFormula.next, if_pos (by omega)]
  · have hperf := hperforms hnext
    rw [hcalc] at hperf
    cases hprog : s.formula.next R room c with
    | none =>
      rw [hprog] at hperf
      cases hperf
    | some c' =>
      rw [hprog] at hperf
      obtain ⟨⟩ | ⟨hcur, hrep, -⟩ := hperf
      have hend : s.ended = false := (RunState.of_next?_some hnext).1
      exact ⟨h.computing, h.last, h.date, h.isLong, hrep, fun _ => hcur, fun he => by simp_all⟩

/-- A run has ended when it has taken a step where the program stops. -/
theorem RunState.StandsAt.step_ended {s : RunState R} {c : Standing} (h : s.StandsAt room known c)
    {env : LineEnv} (hleis : env.leis = none) (hstop : s.formula.next R room c = none) :
    (s.step conv env).ended = true := by
  have hstepped := RunState.stepped conv s env
  revert hstepped
  generalize s.step conv env = s'
  rintro (⟨hnone⟩ | ⟨hnext, hcalc⟩ | ⟨hnext, hcalc, hint⟩ | ⟨hnext, hcalc⟩)
  · rfl
  · rfl
  · rfl
  · obtain ⟨hc, hline, hprog⟩ := h.next_some hnext
    have hperf := calculateLine_performs conv (h.computing _ (mem_of_line? hline)) h.isLong hc
      h.values hleis h.date
    rw [hcalc, ← hprog, hstop] at hperf
    cases hperf

/-- The beginning of a run of a formula whose line numbers are `Integer`s. -/
theorem start_standsAt {f : CFormula} (hf : f.Computing R known)
    (hmin : -32768 ≤ f.lineMin ∧ f.lineMin ≤ 32767) (hmax : -32768 ≤ f.lineMax ∧ f.lineMax ≤ 32767)
    {dtDate runID : ℤ} (hnow : FourDigitYear dtDate) (hlong : IsLong runID) {state : CalcState R}
    {value : ℤ → Option VbString} (hvalues : Represents R room known state.store value) :
    (RunState.start state f dtDate runID).StandsAt room known ⟨f.lineMin, value⟩ ∧
      (RunState.start state f dtDate runID).formula = f := by
  have hstart : RunState.start state f dtDate runID =
      ⟨{ state with iCurrent := f.lineMin }, f, dtDate, runID, false⟩ := by
    unfold RunState.start toInteger
    rw [if_pos hmin, if_pos hmax]
  rw [hstart]
  exact ⟨⟨hf, hmax.2, hnow, hlong, hvalues, fun _ => rfl, fun he => by cases he⟩, rfl⟩

/-- The calculator follows the program. -/
theorem calculator_follows (f : CFormula) :
    Follows (calculator conv) (fun env => env.leis = none) (f.next R room) fun s c =>
      s.StandsAt room known c ∧ s.formula = f := by
  rintro s c env ⟨hs, rfl⟩ hleis
  exact ⟨hs.step hleis, step_formula s⟩

/-- A run that begins on pool strings with these values. -/
structure Begins (room : ℤ → ℕ) (known : Set ℤ) (state : CalcState R) (f : CFormula)
    (dtDate runID : ℤ) (value : ℤ → Option VbString) : Prop where
  computing : f.Computing R known
  lineMin : -32768 ≤ f.lineMin ∧ f.lineMin ≤ 32767
  lineMax : -32768 ≤ f.lineMax ∧ f.lineMax ≤ 32767
  date : FourDigitYear dtDate
  isLong : IsLong runID
  values : Represents R room known state.store value

variable {state : CalcState R} {f : CFormula} {dtDate runID : ℤ} {value : ℤ → Option VbString}
  {envs : List LineEnv}

variable (conv) in
/-- After any number of steps the run stands where the program does. -/
theorem standsAt_after (h : Begins room known state f dtDate runID value)
    (hleis : ∀ env ∈ envs, env.leis = none) :
    ((calculator conv).after (.start state f dtDate runID) envs).StandsAt room known
      (walk (f.next R room) envs.length ⟨f.lineMin, value⟩) :=
  ((calculator_follows f).after
    (start_standsAt h.computing h.lineMin h.lineMax h.date h.isLong h.values) hleis).1

theorem formula_after (s : RunState R) (envs : List LineEnv) :
    ((calculator conv).after s envs).formula = s.formula := by
  induction envs generalizing s with
  | nil => rfl
  | cons env envs ih => exact (ih _).trans (step_formula s)

/-- A run that has gone on longer than the program has ended. -/
theorem ended_of_stopped (h : Begins room known state f dtDate runID value)
    (hleis : ∀ env ∈ envs, env.leis = none) {n : ℕ} (hn : n < envs.length)
    (hstop : f.next R room (walk (f.next R room) n ⟨f.lineMin, value⟩) = none) :
    ((calculator conv).after (.start state f dtDate runID) envs).ended = true := by
  induction envs using List.reverseRecOn with
  | nil => cases hn
  | append_singleton envs env =>
    rw [List.length_append, List.length_singleton] at hn
    obtain ⟨hbefore, hlast⟩ := List.forall_mem_append.1 hleis
    have hstands := standsAt_after conv h hbefore
    rw [walk_of_stopped hstop (by omega)] at hstands
    rw [Machine.after_append]
    refine hstands.step_ended (hlast env (by simp)) ?_
    have hformula := (start_standsAt h.computing h.lineMin h.lineMax h.date h.isLong h.values).2
    rw [formula_after, hformula]
    exact hstop

variable (conv) in
/-- **The calculator runs the program that is meant**: after any number of steps it stands at the
line where the program does, with its values in the pool strings; it has ended only where the
program stops, and it has ended when it has gone on for longer than the program. -/
theorem run_performs (h : Begins room known state f dtDate runID value)
    (hleis : ∀ env ∈ envs, env.leis = none) :
    ((calculator conv).after (.start state f dtDate runID) envs).StandsAt room known
        (walk (f.next R room) envs.length ⟨f.lineMin, value⟩) ∧
      ∀ n < envs.length, f.next R room (walk (f.next R room) n ⟨f.lineMin, value⟩) = none →
        ((calculator conv).after (.start state f dtDate runID) envs).ended = true :=
  ⟨standsAt_after conv h hleis, fun _ hn hstop => ended_of_stopped h hleis hn hstop⟩

/-- **A formula that keeps to lines it does not stop at is never done.** -/
theorem never_ends (h : Begins room known state f dtDate runID value) {A : Standing → Prop}
    (hA : Kept (f.next R room) A) (hfirst : A ⟨f.lineMin, value⟩)
    (hgoes : ∀ c, A c → (f.next R room c).isSome) (hleis : ∀ env ∈ envs, env.leis = none) :
    ((calculator conv).after (.start state f dtDate runID) envs).ended = false := by
  have hstands := standsAt_after conv h hleis
  have hformula := (start_standsAt h.computing h.lineMin h.lineMax h.date h.isLong h.values).2
  have hsome := hA.never_stops hgoes hfirst envs.length
  cases hend : ((calculator conv).after (.start state f dtDate runID) envs).ended with
  | false => rfl
  | true =>
    have hstop := hstands.ended hend
    rw [formula_after, hformula] at hstop
    rw [hstop] at hsome
    cases hsome

end Runs

/-! ### A formula -/

/-- A formula that counts parameter 17 from 0 up to 3. -/
def countFormula : CFormula :=
  ⟨1, 1, 3, 0, [TFormula.blank,
    ⟨1, vb "SET", vb "0", vb "CONST", 0, [], [], 0, vb "17", vb "PARAM", 17, []⟩,
    ⟨2, vb "INC", [], [], 0, [], [], 0, vb "17", vb "PARAM", 17, []⟩,
    ⟨3, vb "IFNOT", vb "17", vb "PARAM", 17, vb "3", vb "CONST", 0, vb "2", vb "LINE", 0, []⟩]⟩

def exampleRoom : ℤ → ℕ := fun _ => 32767 - exampleDatum.frameLen

def exampleValue : ℤ → Option VbString := fun _ => some (vb "-0.5")

theorem represents_exampleState :
    Represents plainRuntime exampleRoom {17} exampleState.store exampleValue where
  readable i hi t ht := by
    obtain rfl : i = 17 := hi
    cases ht
    exact ⟨exampleDatum, stored_exampleState, rfl, rfl, by decide, by decide +kernel⟩
  unreadable i _ hnone := by cases hnone

theorem known_seventeen {operand : VbString} (h : operand = vb "17") :
    ∀ i, cInt plainRuntime.numeric operand = .ok i → i ∈ ({17} : Set ℤ) := by
  rintro i hi
  have hnum : cInt plainRuntime.numeric (vb "17") = .ok 17 := by decide
  rw [h, hnum] at hi
  cases hi
  rfl

theorem computing_countFormula : countFormula.Computing plainRuntime {17} := by
  intro line hline
  have hparam : vb "CONST" ≠ vb "PARAM" := by decide
  have hempty : ([] : VbString) ≠ vb "PARAM" := by decide
  have hLine : vb "LINE" ≠ vb "PARAM" := by decide
  simp only [countFormula, List.mem_cons, List.not_mem_nil, or_false] at hline
  rcases hline with rfl | rfl | rfl | rfl
  · exact ⟨by decide, by decide, by decide, fun h => absurd h hempty, fun h => absurd h hempty,
      fun h => absurd h hempty⟩
  · exact ⟨by decide, by decide, fun _ => rfl, fun h => absurd h hparam, fun h => absurd h hempty,
      fun _ => known_seventeen rfl⟩
  · exact ⟨by decide, by decide, fun _ => rfl, fun h => absurd h hempty, fun h => absurd h hempty,
      fun _ => known_seventeen rfl⟩
  · exact ⟨by decide, by decide, by decide, fun _ => known_seventeen rfl, fun h => absurd h hparam,
      fun h => absurd h hLine⟩

theorem begins_countFormula :
    Begins exampleRoom {17} exampleState countFormula 3313440000 1 exampleValue where
  computing := computing_countFormula
  lineMin := by decide
  lineMax := by decide
  date := by unfold FourDigitYear; decide
  isLong := by unfold IsLong; decide
  values := represents_exampleState

/-- After eight steps the count is done. -/
theorem run_performs_countFormula :
    ((calculator plainConvert).after (.start exampleState countFormula 3313440000 1)
      (List.replicate 8 ⟨3313440000, 0, [], none, none⟩)).StandsAt exampleRoom {17}
      (walk (countFormula.next plainRuntime exampleRoom) 8 ⟨1, exampleValue⟩) ∧
    (walk (countFormula.next plainRuntime exampleRoom) 8 ⟨1, exampleValue⟩).value 17 =
      some (vb "3") ∧
    ((calculator plainConvert).after (.start exampleState countFormula 3313440000 1)
      (List.replicate 8 ⟨3313440000, 0, [], none, none⟩)).ended = true := by
  have hleis : ∀ env ∈ List.replicate 8 (⟨3313440000, 0, [], none, none⟩ : LineEnv),
      env.leis = none := fun env henv => by rw [List.eq_of_mem_replicate henv]
  obtain ⟨hstands, hended⟩ := run_performs plainConvert begins_countFormula hleis
  exact ⟨hstands, by decide +kernel, hended 7 (by decide) (by decide +kernel)⟩

/-- A formula of one line. -/
def oneLine (line : TFormula) : CFormula := ⟨1, 1, 1, 0, [.blank, line]⟩

theorem begins_oneLine {line : TFormula} (hline : line.Computing plainRuntime {17}) :
    Begins exampleRoom {17} exampleState (oneLine line) 3313440000 1 exampleValue where
  computing l hl := by
    simp only [oneLine, List.mem_cons, List.not_mem_nil, or_false] at hl
    rcases hl with rfl | rfl
    · exact computing_countFormula _ (by simp [countFormula])
    · exact hline
  lineMin := begins_countFormula.lineMin
  lineMax := ⟨by show (-32768 : ℤ) ≤ 1; decide, by show (1 : ℤ) ≤ 32767; decide⟩
  date := begins_countFormula.date
  isLong := begins_countFormula.isLong
  values := represents_exampleState

/-- A line that jumps to itself. -/
def gotoLine : TFormula := ⟨1, vb "GOTO", vb "1", vb "CONST", 0, [], [], 0, [], [], 0, []⟩

/-- `never_ends` for a formula that jumps to itself. -/
theorem never_ends_gotoLine :
    ((calculator plainConvert).after (.start exampleState (oneLine gotoLine) 3313440000 1)
      (List.replicate 1000 ⟨3313440000, 0, [], none, none⟩)).ended = false := by
  have hparam : vb "CONST" ≠ vb "PARAM" := by decide
  have hempty : ([] : VbString) ≠ vb "PARAM" := by decide
  have hcomputing : gotoLine.Computing plainRuntime {17} :=
    ⟨by decide, by decide, by decide, fun h => absurd h hparam, fun h => absurd h hempty,
      fun h => absurd h hempty⟩
  have hnext (value : ℤ → Option VbString) :
      (oneLine gotoLine).next plainRuntime exampleRoom ⟨1, value⟩ = some ⟨1, value⟩ := rfl
  refine never_ends (A := fun c => ∃ value, c = ⟨1, value⟩) (begins_oneLine hcomputing) ?_ ⟨_, rfl⟩
    ?_ (fun env henv => by rw [List.eq_of_mem_replicate henv])
  · rintro c c' ⟨value, rfl⟩ h
    rw [hnext] at h
    cases h
    exact ⟨value, rfl⟩
  · rintro c ⟨value, rfl⟩
    rw [hnext]
    rfl

end Sis

end Edps
