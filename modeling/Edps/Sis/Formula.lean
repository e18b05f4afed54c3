import Edps.Vb.Basic

/-!
# Formulas and their loading

A `cFormula` holds the lines of one formula, in an array indexed by line id; the calculator holds
its formulas in an array indexed by formula id.  Both arrays have holes: blank lines, and
elements that are `Nothing`.

* `addFormula`, `load` : the array after `AddFormula` calls.
* `load_spec` : rows in ascending order put a formula exactly at the ids that occur.
* `startProcessing_iff` : `StartProcessing` runs through exactly when formula 1 is there and no
  two neighbouring ids are missing below the last one.
-/

namespace Edps

namespace Sis

open Vb

/-- One line of a formula; the element of a line that was never created is blank. -/
structure TFormula where
  lineID : ℕ
  functionCode : VbString
  operand1 : VbString
  type1 : VbString
  line1 : ℤ
  operand2 : VbString
  type2 : VbString
  line2 : ℤ
  operand3 : VbString
  type3 : VbString
  line3 : ℤ
  descr : VbString
  deriving DecidableEq, Repr

def TFormula.blank : TFormula := ⟨0, [], [], [], 0, [], [], 0, [], [], 0, []⟩

/-- `cFormula` -/
structure CFormula where
  formulaID : ℤ
  lineMin : ℤ
  lineMax : ℤ
  /-- `Current` -/
  lineCnt : ℤ
  lines : List TFormula
  deriving DecidableEq, Repr

/-- A new object with this id. -/
def CFormula.new (formulaID : ℤ) : CFormula := ⟨formulaID, 2147483647, -2147483647, 0, [.blank]⟩

/-- A row of the operations, the arguments of `AddFormula`. -/
structure Row where
  formulaID : ℕ
  lineID : ℕ
  functionCode : VbString
  operand1 : VbString
  type1 : VbString
  operand2 : VbString
  type2 : VbString
  operand3 : VbString
  type3 : VbString
  descr : VbString
  deriving DecidableEq, Repr

def Row.line (r : Row) : TFormula :=
  ⟨r.lineID, r.functionCode, r.operand1, r.type1, 0, r.operand2, r.type2, 0, r.operand3, r.type3,
    0, r.descr⟩

/-- `CreateLine` -/
def CFormula.createLine (f : CFormula) (r : Row) : CFormula :=
  { f with
    lineMax := max f.lineMax r.lineID
    lineMin := min f.lineMin r.lineID
    lines := (f.lines ++ List.replicate (r.lineID + 1 - f.lines.length) TFormula.blank).set
      r.lineID r.line }

/-- The elements of `vFormulas`, from `0` to its upper bound. -/
abbrev Formulas := List (Option CFormula)

/-- `ReDim Preserve vFormulas(0 To id)` with a new formula in the last place, when `id` is beyond
the upper bound. -/
def growFormulas (vFormulas : Formulas) (id : ℕ) : Formulas :=
  if vFormulas.length ≤ id then
    vFormulas ++ List.replicate (id - vFormulas.length) none ++ [some (.new id)]
  else vFormulas

/-- `AddFormula` -/
def addFormula (vFormulas : Formulas) (r : Row) : Except VbError Formulas :=
  let grown := growFormulas vFormulas r.formulaID
  match grown[r.formulaID]? with
  | some (some f) => .ok (grown.set r.formulaID (some (f.createLine r)))
  | some none => .error .objectNotSet
  | none => .error .subscriptOutOfRange

/-- The calculator's array after these `AddFormula` calls. -/
def load (rows : List Row) : Except VbError Formulas := rows.foldlM addFormula [none]

/-! ### StartProcessing -/

variable (numeric : NumericText)

/-- The record number of a `PARAM` operand. -/
def crossRefOperand (type operand : VbString) (line : ℤ) : Except VbError ℤ :=
  if type = vb "PARAM" then cInt numeric operand else .ok line

/-- The cross reference of one line. -/
def crossRefLine (l : TFormula) : Except VbError TFormula := do
  let line1 ← crossRefOperand numeric l.type1 l.operand1 l.line1
  let line2 ← crossRefOperand numeric l.type2 l.operand2 l.line2
  let line3 ← crossRefOperand numeric l.type3 l.operand3 l.line3
  return { l with line1, line2, line3 }

/-- The lines from `MinLine` to `MaxLine` of one formula. -/
def crossRef (f : CFormula) : Except VbError CFormula := do
  let first := f.lineMin.toNat
  let count := (f.lineMax + 1 - f.lineMin).toNat
  let lines ← ((f.lines.drop first).take count).mapM (crossRefLine numeric)
  return { f with
    lineCnt := f.lineMax
    lines := f.lines.take first ++ lines ++ (f.lines.drop first).drop count }

/-- The loop over the formulas from `1` on, which steps over one element that is `Nothing` behind
each formula. -/
def startLoop : Formulas → Except VbError Formulas
  | [] => .ok []
  | none :: _ => .error .objectNotSet
  | some f :: none :: rest => do
    let f ← crossRef numeric f
    return some f :: none :: (← startLoop rest)
  | some f :: rest => do
    let f ← crossRef numeric f
    return some f :: (← startLoop rest)

/-- `StartProcessing`, up to enabling the timer. -/
def startProcessing (vFormulas : Formulas) : Except VbError Formulas := do
  return vFormulas.take 1 ++ (← startLoop numeric (vFormulas.drop 1))

/-! ### Loading -/

variable {numeric}

/-- `PARAM` operands are numbers of records. -/
structure TFormula.ParamsNumeric (numeric : NumericText) (l : TFormula) : Prop where
  operand1 : l.type1 = vb "PARAM" → ∃ n, cInt numeric l.operand1 = .ok n
  operand2 : l.type2 = vb "PARAM" → ∃ n, cInt numeric l.operand2 = .ok n
  operand3 : l.type3 = vb "PARAM" → ∃ n, cInt numeric l.operand3 = .ok n

/-- Formula `i` is in the array. -/
def Formulas.Has (vFormulas : Formulas) (i : ℕ) : Prop := ∃ f, vFormulas[i]? = some (some f)

/-- The array holds a formula exactly at these ids, up to the last of them, each with its own id
and lines whose `PARAM` operands are numbers. -/
structure Loaded (numeric : NumericText) (ids : List ℕ) (vFormulas : Formulas) : Prop where
  length : vFormulas.length = ids.getLastD 0 + 1
  has : ∀ i, vFormulas.Has i ↔ i ∈ ids
  own : ∀ (i : ℕ) (f : CFormula), vFormulas[i]? = some (some f) →
    f.formulaID = i ∧ ∀ l ∈ f.lines, l.ParamsNumeric numeric

theorem paramsNumeric_blank : TFormula.blank.ParamsNumeric numeric :=
  have hblank : ([] : VbString) ≠ vb "PARAM" := by decide
  ⟨fun h => absurd h hblank, fun h => absurd h hblank, fun h => absurd h hblank⟩

theorem paramsNumeric_createLine {f : CFormula} {r : Row}
    (hf : ∀ l ∈ f.lines, l.ParamsNumeric numeric) (hr : r.line.ParamsNumeric numeric) :
    ∀ l ∈ (f.createLine r).lines, l.ParamsNumeric numeric := by
  intro l hl
  rcases List.mem_or_eq_of_mem_set hl with h | rfl
  · rcases List.mem_append.1 h with h | h
    · -- a line from before
      exact hf l h
    · rw [List.eq_of_mem_replicate h]
      exact paramsNumeric_blank
  · exact hr

/-- An id beyond the upper bound makes room and gets a new formula; the others stay. -/
theorem getElem?_growFormulas {vFormulas : Formulas} {id : ℕ} (h : vFormulas.length ≤ id)
    (i : ℕ) (f : CFormula) :
    (growFormulas vFormulas id)[i]? = some (some f) ↔
      vFormulas[i]? = some (some f) ∨ (i = id ∧ f = .new id) := by
  have hlen : (vFormulas ++ List.replicate (id - vFormulas.length) none).length = id := by
    simp only [List.length_append, List.length_replicate]
    omega
  rw [growFormulas, if_pos h]
  -- below the new element are the old ones and the holes
  by_cases hid : i < id
  · rw [List.getElem?_append_left (by omega)]
    by_cases hi : i < vFormulas.length
    · rw [List.getElem?_append_left hi]
      simp only [show i ≠ id by omega, false_and, or_false]
    · have hv : vFormulas[i]? = none := List.getElem?_eq_none (by omega)
      rw [List.getElem?_append_right (by omega), hv, List.getElem?_replicate]
      split_ifs <;> simp <;> omega
  · have hv : vFormulas[i]? = none := List.getElem?_eq_none (by omega)
    rw [List.getElem?_append_right (by omega), hlen, hv]
    by_cases hi : i = id
    · simp [hi, eq_comm]
    · rw [List.getElem?_eq_none (by simp; omega)]
      simp [hi]

/-- The formula at an index, if there is one. -/
def Formulas.at? (vFormulas : Formulas) (i : ℕ) : Option CFormula := vFormulas[i]?.join

theorem at?_eq_some {vFormulas : Formulas} {i : ℕ} {f : CFormula} :
    vFormulas.at? i = some f ↔ vFormulas[i]? = some (some f) := Option.join_eq_some_iff

theorem has_iff {vFormulas : Formulas} {i : ℕ} :
    vFormulas.Has i ↔ (vFormulas.at? i).isSome := by
  simp only [Formulas.Has, Option.isSome_iff_exists, at?_eq_some]

theorem length_growFormulas (vFormulas : Formulas) (id : ℕ) :
    (growFormulas vFormulas id).length = max vFormulas.length (id + 1) := by
  rw [growFormulas]
  split_ifs with hle
  · simp only [List.length_append, List.length_replicate, List.length_singleton]
    omega
  · omega

theorem at?_growFormulas (vFormulas : Formulas) (id i : ℕ) :
    (growFormulas vFormulas id).at? i =
      if vFormulas.length ≤ id ∧ i = id then some (.new id) else vFormulas.at? i := by
  by_cases hle : vFormulas.length ≤ id
  · ext f
    rw [at?_eq_some, getElem?_growFormulas hle]
    by_cases hi : i = id
    · simp [hle, hi, eq_comm]
    · simp [hi, at?_eq_some]
  · rw [growFormulas, if_neg hle, if_neg fun h => hle h.1]

/-- **One row**: its line is created in the formula with its id, which is new beyond the upper
bound; the other formulas stay. -/
theorem addFormula_spec {vFormulas : Formulas} {r : Row}
    (h : vFormulas.length ≤ r.formulaID ∨ vFormulas.Has r.formulaID) :
    ∃ v, addFormula vFormulas r = .ok v ∧ v.length = max vFormulas.length (r.formulaID + 1) ∧
      ∀ i, v.at? i = if i = r.formulaID then
        some (((vFormulas.at? i).getD (.new i)).createLine r) else vFormulas.at? i := by
  set grown := growFormulas vFormulas r.formulaID with hgrown
  set f := (vFormulas.at? r.formulaID).getD (.new r.formulaID) with hf
  have hlen : grown.length = max vFormulas.length (r.formulaID + 1) := length_growFormulas _ _
  have hat : grown[r.formulaID]? = some (some f) := by
    rw [← at?_eq_some, hgrown, at?_growFormulas, hf]
    rcases h with hle | hhas
    · have hv : vFormulas[r.formulaID]? = none := List.getElem?_eq_none hle
      have hnone : vFormulas.at? r.formulaID = none := by rw [Formulas.at?, hv, Option.join_none]
      rw [if_pos ⟨hle, rfl⟩, hnone, Option.getD_none]
    · obtain ⟨g, hg⟩ := hhas
      have hlt : r.formulaID < vFormulas.length := (List.getElem?_eq_some_iff.1 hg).1
      rw [if_neg (by omega), at?_eq_some.2 hg, Option.getD_some]
  refine ⟨grown.set r.formulaID (some (f.createLine r)), ?_, ?_, fun i => ?_⟩
  · simp only [addFormula, ← hgrown, hat]
  · rw [List.length_set, hlen]
  · rw [Formulas.at?, List.getElem?_set]
    by_cases hi : i = r.formulaID
    · rw [if_pos hi.symm, if_pos (by omega), if_pos hi, hi]
      rfl
    · rw [if_neg (Ne.symm hi), if_neg hi, ← Formulas.at?, hgrown, at?_growFormulas,
        if_neg fun h => hi h.2]

/-- The row's id is beyond the upper bound or the last one. -/
theorem le_or_has_of_last {ids : List ℕ} {vFormulas : Formulas} {id : ℕ}
    (hlen : vFormulas.length = ids.getLastD 0 + 1) (hhas : ∀ i ∈ ids, vFormulas.Has i)
    (hlast : ids.getLastD 0 ≤ id) (hpos : 1 ≤ id) : vFormulas.length ≤ id ∨ vFormulas.Has id := by
  rcases Nat.lt_or_eq_of_le hlast with hlt | heq
  · exact .inl (by omega)
  · have hne : ids ≠ [] := by
      rintro rfl
      simp at heq
      omega
    rw [List.getLastD_eq_getLast?, List.getLast?_eq_some_getLast hne, Option.getD_some] at heq
    exact .inr (hhas _ (heq ▸ List.getLast_mem hne))

/-- One row keeps the array in order, when its id is not below the last one. -/
theorem loaded_addFormula {ids : List ℕ} {vFormulas : Formulas} {r : Row}
    (h : Loaded numeric ids vFormulas) (hlast : ids.getLastD 0 ≤ r.formulaID)
    (hpos : 1 ≤ r.formulaID) (hr : r.line.ParamsNumeric numeric) :
    ∃ v, addFormula vFormulas r = .ok v ∧ Loaded numeric (ids ++ [r.formulaID]) v := by
  have hroom := le_or_has_of_last h.length (fun i hi => (h.has i).2 hi) hlast hpos
  obtain ⟨v, hv, hlen, hat⟩ := addFormula_spec hroom
  refine ⟨v, hv, ?_, fun i => ?_, fun i g hg => ?_⟩
  · rw [hlen, h.length]
    simp only [List.getLastD_concat]
    omega
  · rw [has_iff, hat, List.mem_append, List.mem_singleton, ← h.has, has_iff]
    split_ifs with hi
    · simp [hi]
    · simp [hi]
  · rw [← at?_eq_some, hat] at hg
    split_ifs at hg with hi
    · cases hg
      cases hold : vFormulas.at? i with
      | none =>
        refine ⟨rfl, paramsNumeric_createLine (fun l hl => ?_) hr⟩
        rw [List.mem_singleton.1 hl]
        exact paramsNumeric_blank
      | some f =>
        obtain ⟨hown, hlines⟩ := h.own i f (at?_eq_some.1 hold)
        exact ⟨hown, paramsNumeric_createLine hlines hr⟩
    · exact h.own i g (at?_eq_some.1 hg)

theorem loaded_foldlM {ids : List ℕ} {vFormulas : Formulas} {rows : List Row}
    (h : Loaded numeric ids vFormulas) (hlast : ∀ r ∈ rows, ids.getLastD 0 ≤ r.formulaID)
    (hasc : (rows.map Row.formulaID).Pairwise (· ≤ ·)) (hpos : ∀ r ∈ rows, 1 ≤ r.formulaID)
    (hnum : ∀ r ∈ rows, r.line.ParamsNumeric numeric) :
    ∃ v, rows.foldlM addFormula vFormulas = .ok v ∧
      Loaded numeric (ids ++ rows.map Row.formulaID) v := by
  induction rows generalizing ids vFormulas with
  | nil => exact ⟨vFormulas, rfl, by simpa using h⟩
  | cons r rows ih =>
    simp only [List.forall_mem_cons] at hlast hpos hnum
    rw [List.map_cons, List.pairwise_cons] at hasc
    obtain ⟨v, hv, hload⟩ := loaded_addFormula h hlast.1 hpos.1 hnum.1
    obtain ⟨w, hw, hdone⟩ := ih hload
      (fun q hq => by simpa using hasc.1 _ (List.mem_map_of_mem hq)) hasc.2 hpos.2 hnum.2
    refine ⟨w, ?_, by simpa using hdone⟩
    rw [List.foldlM_cons, hv]
    exact hw

/-- Operations as they are read from the database: in ascending order of formula ids, which are
at least 1, with numbers as `PARAM` operands. -/
structure Operations (numeric : NumericText) where
  rows : List Row
  nonempty : rows ≠ []
  ascending : (rows.map Row.formulaID).Pairwise (· ≤ ·)
  positive : ∀ r ∈ rows, 1 ≤ r.formulaID
  paramsNumeric : ∀ r ∈ rows, r.line.ParamsNumeric numeric

def Operations.ids (ops : Operations numeric) : List ℕ := ops.rows.map Row.formulaID

/-- **Loading.**  The array holds a formula exactly at the ids that occur. -/
theorem load_spec (ops : Operations numeric) :
    ∃ v, load ops.rows = .ok v ∧ Loaded numeric ops.ids v := by
  have hempty : Loaded numeric [] [none] := by
    have hnone : ∀ (i : ℕ) (f : CFormula), ([none] : Formulas)[i]? ≠ some (some f) := by
      intro i f
      cases i <;> simp
    exact ⟨rfl, fun i => by simp [Formulas.Has, hnone], fun i f h => absurd h (hnone i f)⟩
  exact loaded_foldlM hempty (by simp) ops.ascending ops.positive ops.paramsNumeric

/-! ### Starting -/

theorem crossRefOperand_ok {type operand : VbString} {line : ℤ}
    (h : type = vb "PARAM" → ∃ n, cInt numeric operand = .ok n) :
    ∃ n, crossRefOperand numeric type operand line = .ok n := by
  unfold crossRefOperand
  split_ifs with ht
  · exact h ht
  · exact ⟨line, rfl⟩

theorem crossRefLine_ok {l : TFormula} (h : l.ParamsNumeric numeric) :
    ∃ l', crossRefLine numeric l = .ok l' := by
  obtain ⟨n₁, h₁⟩ : ∃ n, crossRefOperand numeric l.type1 l.operand1 l.line1 = .ok n :=
    crossRefOperand_ok h.operand1
  obtain ⟨n₂, h₂⟩ : ∃ n, crossRefOperand numeric l.type2 l.operand2 l.line2 = .ok n :=
    crossRefOperand_ok h.operand2
  obtain ⟨n₃, h₃⟩ : ∃ n, crossRefOperand numeric l.type3 l.operand3 l.line3 = .ok n :=
    crossRefOperand_ok h.operand3
  exact ⟨_, by rw [crossRefLine, h₁, h₂, h₃]; rfl⟩

theorem mapM_crossRefLine_ok {ls : List TFormula} (h : ∀ l ∈ ls, l.ParamsNumeric numeric) :
    ∃ ls', ls.mapM (crossRefLine numeric) = .ok ls' := by
  induction ls with
  | nil => exact ⟨[], rfl⟩
  | cons l ls ih =>
    obtain ⟨hl, hls⟩ := List.forall_mem_cons.1 h
    obtain ⟨l', hl'⟩ := crossRefLine_ok hl
    obtain ⟨ls', hls'⟩ := ih hls
    exact ⟨l' :: ls', by rw [List.mapM_cons, hl', hls']; rfl⟩

theorem crossRef_ok {f : CFormula} (h : ∀ l ∈ f.lines, l.ParamsNumeric numeric) :
    ∃ f', crossRef numeric f = .ok f' := by
  have hloop : ∀ l ∈ (f.lines.drop f.lineMin.toNat).take (f.lineMax + 1 - f.lineMin).toNat,
      l.ParamsNumeric numeric :=
    fun l hl => h l (List.mem_of_mem_drop (List.mem_of_mem_take hl))
  obtain ⟨ls', hls'⟩ := mapM_crossRefLine_ok hloop
  simp only [crossRef, hls', bind, Except.bind, pure, Except.pure]
  exact ⟨_, rfl⟩

theorem crossRef_formulaID {f f' : CFormula} (h : crossRef numeric f = .ok f') :
    f'.formulaID = f.formulaID := by
  obtain ⟨lines, -, heq⟩ := bind_eq_ok.1 h
  rw [← Except.ok.inj heq]

@[simp] theorem has_cons_zero {o : Option CFormula} {v : Formulas} :
    Formulas.Has (o :: v) 0 ↔ o.isSome := by
  simp [Formulas.Has, Option.isSome_iff_exists]

@[simp] theorem has_cons_succ {o : Option CFormula} {v : Formulas} {i : ℕ} :
    Formulas.Has (o :: v) (i + 1) ↔ Formulas.Has v i := by
  simp [Formulas.Has]

theorem bind_some_ok {v : Formulas} {f f' : CFormula} (os : Formulas → Formulas)
    (hf : crossRef numeric f = .ok f') :
    (∃ v', (do let f ← crossRef numeric f; return some f :: os (← startLoop numeric v)) =
      (.ok v' : Except VbError Formulas)) ↔ ∃ v', startLoop numeric v = .ok v' := by
  simp only [hf, bind, Except.bind]
  cases startLoop numeric v with
  | error e => simp
  | ok w => simp [pure, Except.pure]

/-- The loop runs through exactly when it begins at a formula and no two neighbours are
missing. -/
theorem startLoop_iff {v : Formulas}
    (h : ∀ f, some f ∈ v → ∀ l ∈ f.lines, l.ParamsNumeric numeric) :
    (∃ v', startLoop numeric v = .ok v') ↔
      (v ≠ [] → v.Has 0) ∧ ∀ i, i + 1 < v.length → v.Has i ∨ v.Has (i + 1) := by
  induction v using startLoop.induct with
  | case1 => simp [startLoop]
  | case2 rest => simp [startLoop]
  | case3 f rest ih =>
    -- a formula and a hole: the loop goes on behind the hole
    obtain ⟨f', hf'⟩ := crossRef_ok (h f List.mem_cons_self)
    have ih := ih fun g hg => h g (List.mem_cons_of_mem _ (List.mem_cons_of_mem _ hg))
    rw [startLoop, bind_some_ok (fun v => none :: v) hf', ih]
    constructor
    · rintro ⟨h₀, hs⟩
      refine ⟨fun _ => by simp, fun i hi => ?_⟩
      rcases i with _ | _ | i
      · simp
      · simp only [List.length_cons] at hi
        exact .inr (by simpa using h₀ (List.ne_nil_of_length_pos (by omega)))
      · simp only [List.length_cons] at hi
        simpa using hs i (by omega)
    · rintro ⟨-, hs⟩
      refine ⟨fun hne => ?_, fun i hi => ?_⟩
      · simpa using hs 1 (by simpa using List.length_pos_of_ne_nil hne)
      · simpa using hs (i + 2) (by simp only [List.length_cons]; omega)
  | case4 f rest hrest ih =>
    -- a formula, and behind it another one or the end
    obtain ⟨f', hf'⟩ := crossRef_ok (h f List.mem_cons_self)
    have ih := ih fun g hg => h g (List.mem_cons_of_mem _ hg)
    rw [startLoop, bind_some_ok (fun v => v) hf', ih]
    · have h₀ : rest ≠ [] → Formulas.Has rest 0 := by
        intro hne
        rcases rest with _ | ⟨_ | g, rest⟩
        · exact absurd rfl hne
        · exact absurd rfl (hrest rest)
        · simp
      constructor
      · rintro ⟨-, hs⟩
        refine ⟨fun _ => by simp, fun i hi => ?_⟩
        rcases i with _ | i
        · simp
        · simpa using hs i (by simpa using hi)
      · rintro ⟨-, hs⟩
        exact ⟨h₀, fun i hi => by simpa using hs (i + 1) (by simpa using hi)⟩
    · exact hrest

/-- A formula that is started, and the rest of the loop. -/
theorem started_ok {f : CFormula} {rest v : Formulas} {os : Formulas → Formulas}
    (h : (do let f ← crossRef numeric f; return some f :: os (← startLoop numeric rest)) =
      (.ok v : Except VbError Formulas)) :
    ∃ f' w, crossRef numeric f = .ok f' ∧ startLoop numeric rest = .ok w ∧
      some f' :: os w = v := by
  obtain ⟨f', hf, h⟩ := bind_eq_ok.1 h
  obtain ⟨w, hr, heq⟩ := bind_eq_ok.1 h
  exact ⟨f', w, hf, hr, Except.ok.inj heq⟩

/-- The started array holds formulas at the same places, with the same ids. -/
theorem startLoop_ids {v v' : Formulas} (h : startLoop numeric v = .ok v') :
    v'.map (Option.map CFormula.formulaID) = v.map (Option.map CFormula.formulaID) := by
  induction v using startLoop.induct generalizing v' with
  | case1 => cases h; rfl
  | case2 rest => cases h
  | case3 f rest ih =>
    rw [startLoop] at h
    obtain ⟨f', w, hf, hr, rfl⟩ := started_ok h
    simp [ih hr, crossRef_formulaID hf]
  | case4 f rest hrest ih =>
    rw [startLoop] at h
    · obtain ⟨f', w, hf, hr, rfl⟩ := started_ok h
      simp [ih hr, crossRef_formulaID hf]
    · exact hrest

theorem startProcessing_ids {v v' : Formulas} (h : startProcessing numeric v = .ok v') :
    v'.map (Option.map CFormula.formulaID) = v.map (Option.map CFormula.formulaID) := by
  obtain ⟨w, hs, heq⟩ := bind_eq_ok.1 h
  rw [← Except.ok.inj heq, List.map_append, startLoop_ids hs, ← List.map_append,
    List.take_append_drop]

/-- Formula 1 is loaded, and of two neighbouring ids below the last one is loaded. -/
def NarrowGaps (ids : List ℕ) : Prop :=
  1 ∈ ids ∧ ∀ i, 1 ≤ i → (∃ j ∈ ids, i < j) → i ∈ ids ∨ i + 1 ∈ ids

theorem Operations.ids_ne_nil (ops : Operations numeric) : ops.ids ≠ [] := by
  simpa [Operations.ids] using ops.nonempty

theorem Operations.last_mem (ops : Operations numeric) : ops.ids.getLastD 0 ∈ ops.ids := by
  rw [List.getLastD_eq_getLast?, List.getLast?_eq_some_getLast ops.ids_ne_nil]
  exact List.getLast_mem ops.ids_ne_nil

theorem Operations.le_last (ops : Operations numeric) {i : ℕ} (h : i ∈ ops.ids) :
    i ≤ ops.ids.getLastD 0 := by
  rw [List.getLastD_eq_getLast?, List.getLast?_eq_some_getLast ops.ids_ne_nil]
  have hsplit := List.dropLast_append_getLast ops.ids_ne_nil
  have hasc := ops.ascending
  change ops.ids.Pairwise (· ≤ ·) at hasc
  rw [← hsplit, List.pairwise_append] at hasc
  rw [← hsplit, List.mem_append, List.mem_singleton] at h
  rcases h with h | rfl
  · exact hasc.2.2 i h _ (List.mem_singleton_self _)
  · exact le_rfl

theorem Operations.one_le (ops : Operations numeric) {i : ℕ} (h : i ∈ ops.ids) : 1 ≤ i := by
  obtain ⟨r, hr, rfl⟩ := List.mem_map.1 h
  exact ops.positive r hr

/-- **Starting.**  `StartProcessing` runs through exactly when the gaps are narrow. -/
theorem startProcessing_iff {ops : Operations numeric} {v : Formulas}
    (h : Loaded numeric ops.ids v) :
    (∃ v', startProcessing numeric v = .ok v') ↔ NarrowGaps ops.ids := by
  have hloop : (∃ v', startProcessing numeric v = .ok v') ↔
      ∃ v', startLoop numeric (v.drop 1) = .ok v' := by
    simp only [startProcessing, bind, Except.bind]
    cases startLoop numeric (v.drop 1) with
    | error e => simp
    | ok w => simp [pure, Except.pure]
  -- the loop begins at element 1, so its indices are the ids less one
  have hhas : ∀ i, Formulas.Has (v.drop 1) i ↔ i + 1 ∈ ops.ids := by
    intro i
    rw [← h.has, Formulas.Has, Formulas.Has, List.getElem?_drop, add_comm]
  have hlen : (v.drop 1).length = ops.ids.getLastD 0 := by
    rw [List.length_drop, h.length]
    omega
  have hlast := ops.one_le ops.last_mem
  rw [hloop, startLoop_iff]
  · simp only [hhas, hlen]
    constructor
    · rintro ⟨h₁, hs⟩
      refine ⟨h₁ (List.ne_nil_of_length_pos (by omega)), fun i hi ⟨j, hj, hij⟩ => ?_⟩
      have := ops.le_last hj
      have hi' : i - 1 + 1 = i := by omega
      simpa [hi'] using hs (i - 1) (by omega)
    · rintro ⟨h₁, hs⟩
      exact ⟨fun _ => h₁, fun i hi => hs (i + 1) (by omega) ⟨_, ops.last_mem, hi⟩⟩
  · intro f hf l hl
    obtain ⟨i, hi⟩ := List.mem_iff_getElem?.1 (List.mem_of_mem_drop hf)
    exact (h.own i f hi).2 l hl

/-- The places and ids of a loaded array. -/
theorem Loaded.ids_eq {ids : List ℕ} {v : Formulas} (h : Loaded numeric ids v) (i : ℕ) :
    (v.map (Option.map CFormula.formulaID))[i]? =
      if i ≤ ids.getLastD 0 then some (if i ∈ ids then some (i : ℤ) else none) else none := by
  rw [List.getElem?_map]
  have hlen := h.length
  split_ifs with hi hmem
  · obtain ⟨f, hf⟩ := (h.has i).2 hmem
    simp [hf, (h.own i f hf).1]
  · -- within the array, and not an id: a hole
    have hlt : i < v.length := by omega
    have hnone : v[i]? = some none := by
      cases hv : v[i]? with
      | none => rw [List.getElem?_eq_none_iff] at hv; omega
      | some o =>
        cases o with
        | none => rfl
        | some f => exact absurd ((h.has i).1 ⟨f, hv⟩) hmem
    simp [hnone]
  · rw [List.getElem?_eq_none (by omega)]
    rfl

end Sis

end Edps
