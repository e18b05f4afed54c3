import Edps.Sis.Formula
import Edps.Sis.SchedPTR

/-!
# Dispatch of due formulas

The timer of a calculator takes a schedule entry from the `ToCalculate` queue, searches the
formula with the entry's id and calculates it under a mutex that `StopProcessing` waits for.
The event procedure has no error handler of its own; the one of `Calculate` reads the formula
again to write its log line.

* `calculate` : an error leaves `Calculate` only when the formula is not there.
* `timer` : one timer event, with what escapes from it and what becomes of the mutex.
* `search_spec` : the search stops at the first hole.
* `dispatch_iff` : which loaded formulas start, and which entries are dispatched properly.
-/

namespace Edps

namespace Sis

open Vb

def QUEUEEMPTY : VbString := vb "Queue empty!"

/-- `WAIT_OBJECT_0`: the mutex is acquired. -/
def WAIT_OBJECT_0 : ℤ := 0

/-- `WAIT_ABANDONED`: the mutex is acquired from a thread that ended without releasing it. -/
def WAIT_ABANDONED : ℤ := 0x80

/-- The search of the timer event, from element `lL1` on: the index of the formula with this id,
or the one behind the upper bound. -/
def search (id : ℤ) : Formulas → ℕ → Except VbError ℕ
  | [], lL1 => .ok lL1
  | none :: _, _ => .error .objectNotSet
  | some f :: rest, lL1 => if f.formulaID = id then .ok lL1 else search id rest (lL1 + 1)

/-- `Calculate lLinNum`, for lines that end with `lines f`: the formula it runs, and the error
that leaves it.  The handler logs an error with the id of the formula, so it fails again when
there is none. -/
def calculate (lines : CFormula → Except VbError Unit) (vFormulas : Formulas) (lLinNum : ℕ) :
    Option CFormula × Option VbError :=
  match vFormulas[lLinNum]? with
  | some (some f) =>
    match lines f with
    | .ok _ => (some f, none)
    | .error _ => (some f, none)
  | some none => (none, some .objectNotSet)
  | none => (none, some .subscriptOutOfRange)

/-- What a timer event does. -/
structure TimerEvent where
  /-- The formula that is calculated. -/
  calculated : Option CFormula
  /-- The error that escapes from the event procedure. -/
  escaped : Option VbError
  /-- The mutex has been acquired. -/
  acquired : Bool
  /-- `ReleaseMutex` has been called. -/
  released : Bool
  /-- The timer is still enabled. -/
  enabled : Bool

/-- `tmrScheduler_Timer`, for what `qm_pop` and `WaitForSingleObject` return. -/
def timer (numeric : NumericText) (lines : CFormula → Except VbError Unit)
    (vFormulas : Formulas) (popped : VbString) (wait : ℤ) : TimerEvent :=
  if popped = QUEUEEMPTY then ⟨none, none, false, false, true⟩
  else
    match SchedDatum.ofPoolString numeric popped with
    | .error e => ⟨none, some e, false, false, true⟩
    | .ok entry =>
      match search entry.formulaID (vFormulas.drop 1) 1 with
      | .error e => ⟨none, some e, false, false, true⟩
      | .ok lL1 =>
        if wait = WAIT_OBJECT_0 then
          match calculate lines vFormulas lL1 with
          | (f, none) => ⟨f, none, true, true, true⟩
          | (f, some e) => ⟨f, some e, true, false, true⟩
        else ⟨none, none, wait = WAIT_ABANDONED, false, false⟩

/-! ### What a timer event promises -/

/-- The entry for formula `id` is dispatched properly: no error escapes, an acquired mutex is
released, and under the mutex the loaded formula with this id is calculated, or none if there
is none. -/
structure Dispatched (vFormulas : Formulas) (id wait : ℤ) (e : TimerEvent) : Prop where
  escaped : e.escaped = none
  released : e.acquired = true → e.released = true
  calculated : wait = WAIT_OBJECT_0 →
    ∀ f, e.calculated = some f ↔ some f ∈ vFormulas ∧ f.formulaID = id

/-- The formulas below `id` are all loaded when it is loaded itself; otherwise the mutex is not
acquired and all up to the last one are loaded.  The mutex is not abandoned. -/
def Dispatchable (ids : List ℕ) (id wait : ℤ) : Prop :=
  wait ≠ WAIT_ABANDONED ∧
    ((∃ p ∈ ids, (p : ℤ) = id ∧ ∀ q, 1 ≤ q → q < p → q ∈ ids) ∨
      ((∀ p ∈ ids, (p : ℤ) ≠ id) ∧ wait ≠ WAIT_OBJECT_0 ∧
        ∀ q, 1 ≤ q → q ≤ ids.getLastD 0 → q ∈ ids))

/-! ### The search -/

/-- The array from element `k` on, with formulas at these ids. -/
def Shape (ids : List ℕ) (k : ℕ) (w : Formulas) : Prop :=
  ∀ i, (w.map (Option.map CFormula.formulaID))[i]? =
    if k + i ≤ ids.getLastD 0 then some (if k + i ∈ ids then some ((k + i : ℕ) : ℤ) else none)
    else none

theorem Shape.tail {ids : List ℕ} {k : ℕ} {o : Option CFormula} {w : Formulas}
    (h : Shape ids k (o :: w)) : Shape ids (k + 1) w := by
  intro i
  have := h (i + 1)
  rwa [List.map_cons, List.getElem?_cons_succ, show k + (i + 1) = k + 1 + i by omega] at this

theorem Shape.head {ids : List ℕ} {k : ℕ} {o : Option CFormula} {w : Formulas}
    (h : Shape ids k (o :: w)) :
    k ≤ ids.getLastD 0 ∧ o.map CFormula.formulaID = if k ∈ ids then some (k : ℤ) else none := by
  have := h 0
  rw [List.map_cons, List.getElem?_cons_zero, add_zero] at this
  split_ifs at this with h₁ h₂
  · exact ⟨h₁, by rw [if_pos h₂]; exact Option.some.inj this⟩
  · exact ⟨h₁, by rw [if_neg h₂]; exact Option.some.inj this⟩

/-- **The search**: it finds the formula, or gets to the end of an array without holes, or stops
at a hole before the formula. -/
theorem search_spec {ids : List ℕ} {id : ℤ} {k : ℕ} {w : Formulas} (h : Shape ids k w)
    (hk : k ≤ ids.getLastD 0 + 1) :
    (∃ p, search id w k = .ok p ∧ k ≤ p ∧ p ∈ ids ∧ (p : ℤ) = id ∧
        ∀ q, k ≤ q → q < p → q ∈ ids) ∨
      (search id w k = .ok (ids.getLastD 0 + 1) ∧
        ∀ q, k ≤ q → q ≤ ids.getLastD 0 → q ∈ ids ∧ (q : ℤ) ≠ id) ∨
      ∃ e q, search id w k = .error e ∧ k ≤ q ∧ q ≤ ids.getLastD 0 ∧ q ∉ ids ∧
        ∀ r, k ≤ r → r < q → (r : ℤ) ≠ id := by
  induction w generalizing k with
  | nil =>
    -- behind the last element
    have hend : k = ids.getLastD 0 + 1 := by
      by_contra hne
      have h₀ := h 0
      rw [if_pos (by omega)] at h₀
      cases h₀
    exact .inr (.inl ⟨by rw [search, hend], fun q h₁ h₂ => by omega⟩)
  | cons o w ih =>
    obtain ⟨hle, ho⟩ := h.head
    cases o with
    | none =>
      -- a hole: its `FormulaID` cannot be looked at
      have hmem : k ∉ ids := by
        intro hmem
        rw [if_pos hmem] at ho
        cases ho
      exact .inr (.inr ⟨.objectNotSet, k, rfl, le_rfl, hle, hmem, fun r h₁ h₂ => by omega⟩)
    | some f =>
      have hmem : k ∈ ids := by
        by_contra hmem
        rw [if_neg hmem] at ho
        cases ho
      have hf : f.formulaID = k := by simpa [hmem] using ho
      by_cases hid : f.formulaID = id
      · exact .inl ⟨k, by simp [search, hid], le_rfl, hmem, by rw [← hf, hid],
          fun q h₁ h₂ => by omega⟩
      · -- another formula: the three ends of the rest, with this one before them
        have hstep : search id (some f :: w) k = search id w (k + 1) := by simp [search, hid]
        have hne : (k : ℤ) ≠ id := by rw [← hf]; exact hid
        rw [hstep]
        rcases ih h.tail (by omega) with ⟨p, hp, hkp, hpmem, hpid, hall⟩ | ⟨hp, hall⟩ |
          ⟨e, q, he, hkq, hq, hqmem, hall⟩
        · refine .inl ⟨p, hp, by omega, hpmem, hpid, fun q h₁ h₂ => ?_⟩
          rcases Nat.lt_or_eq_of_le h₁ with h₁ | rfl
          · exact hall q h₁ h₂
          · exact hmem
        · refine .inr (.inl ⟨hp, fun q h₁ h₂ => ?_⟩)
          rcases Nat.lt_or_eq_of_le h₁ with h₁ | rfl
          · exact hall q h₁ h₂
          · exact ⟨hmem, hne⟩
        · refine .inr (.inr ⟨e, q, he, by omega, hq, hqmem, fun r h₁ h₂ => ?_⟩)
          rcases Nat.lt_or_eq_of_le h₁ with h₁ | rfl
          · exact hall r h₁ h₂
          · exact hne

/-! ### One event -/

section Event

variable {numeric : NumericText} {lines : CFormula → Except VbError Unit}
  {ops : Operations numeric} {v : Formulas}

theorem Shape.drop_one {ids : List ℕ} (h : Shape ids 0 v) : Shape ids 1 (v.drop 1) := by
  intro i
  rw [List.map_drop, List.getElem?_drop, h, Nat.zero_add]

theorem Loaded.shape {ids : List ℕ} (h : Loaded numeric ids v) : Shape ids 0 v := by
  intro i
  rw [h.ids_eq, Nat.zero_add]

/-- Where the array has a formula, and which. -/
theorem Shape.getElem? {ids : List ℕ} (h : Shape ids 0 v) {i : ℕ} {f : CFormula}
    (hf : v[i]? = some (some f)) : i ∈ ids ∧ f.formulaID = i := by
  have := h i
  rw [List.getElem?_map, hf, Nat.zero_add] at this
  simp only [Option.map_some] at this
  split_ifs at this with h₁ h₂
  · exact ⟨h₂, by simpa using this⟩
  · exact absurd this (by simp)

/-- The formula with a loaded id. -/
theorem Shape.exists_formula (h : Shape ops.ids 0 v) {p : ℕ} (hp : p ∈ ops.ids) :
    ∃ f, v[p]? = some (some f) ∧ ∀ g, (some g ∈ v ∧ g.formulaID = p) ↔ f = g := by
  have hv := h p
  rw [Nat.zero_add, if_pos (ops.le_last hp), if_pos hp, List.getElem?_map, Option.map_eq_some_iff]
    at hv
  obtain ⟨o, ho, hid⟩ := hv
  obtain ⟨f, rfl, hid⟩ := Option.map_eq_some_iff.1 hid
  refine ⟨f, ho, fun g => ⟨fun ⟨hg, hgid⟩ => ?_, ?_⟩⟩
  · obtain ⟨j, hj⟩ := List.mem_iff_getElem?.1 hg
    have hjp : j = p := by
      have := (h.getElem? hj).2
      omega
    rw [hjp, ho] at hj
    simpa using hj
  · rintro rfl
    exact ⟨List.mem_of_getElem? ho, by simpa using hid⟩

theorem poolString_ne_queueEmpty (entry : SchedDatum) : entry.poolString ≠ QUEUEEMPTY := by
  intro h
  have htake := congrArg (List.take 1) h
  simp only [SchedDatum.poolString, List.append_assoc] at htake
  exact absurd htake (by simp [SCHEDCLSNAME, QUEUEEMPTY, vb])

/-- **One event.**  The entry of a queue is dispatched properly exactly when it is
`Dispatchable`. -/
theorem dispatched_iff {entry : SchedDatum} {wait : ℤ} (h : Shape ops.ids 0 v)
    (hf : -2147483648 ≤ entry.formulaID ∧ entry.formulaID ≤ 2147483647)
    (hl : -2147483648 ≤ entry.lineID ∧ entry.lineID ≤ 2147483647) :
    Dispatched v entry.formulaID wait (timer numeric lines v entry.poolString wait) ↔
      Dispatchable ops.ids entry.formulaID wait := by
  rw [timer, if_neg (poolString_ne_queueEmpty entry), sched_roundTrip numeric hf hl]
  simp only
  rcases @search_spec ops.ids entry.formulaID _ _ h.drop_one (by omega) with
    ⟨p, hp, -, hmem, hid, hall⟩ | ⟨hp, hall⟩ | ⟨e, q, he, hq₁, hq, hqmem, hall⟩
  · -- found
    obtain ⟨f, hvf, huniq⟩ := h.exists_formula hmem
    have hcalc : calculate lines v p = (some f, none) := by
      simp only [calculate, hvf]
      cases lines f <;> rfl
    have hdisp : Dispatchable ops.ids entry.formulaID wait ↔ wait ≠ WAIT_ABANDONED :=
      ⟨And.left, fun hw => ⟨hw, .inl ⟨p, hmem, hid, hall⟩⟩⟩
    rw [hp, hdisp]
    simp only [hcalc]
    split_ifs with hw
    · -- the mutex was acquired: the formula runs, and the mutex is released
      subst hw
      refine ⟨fun _ => by decide, fun _ => ⟨rfl, fun _ => rfl, fun _ g => ?_⟩⟩
      rw [← hid, huniq]
      simp
    · constructor
      · rintro ⟨-, hrel, -⟩ rfl
        exact absurd (hrel (by simp)) (by simp)
      · intro hw'
        exact ⟨rfl, fun ha => absurd (by simpa using ha) hw', fun h₀ => absurd h₀ hw⟩
  · -- no such formula, and no hole
    have hnone : ∀ p ∈ ops.ids, (p : ℤ) ≠ entry.formulaID :=
      fun p hp => (hall p (ops.one_le hp) (ops.le_last hp)).2
    have hout : v[ops.ids.getLastD 0 + 1]? = none := by
      have := h (ops.ids.getLastD 0 + 1)
      rw [if_neg (by omega), List.getElem?_map] at this
      simpa using this
    have hcalc :
        calculate lines v (ops.ids.getLastD 0 + 1) = (none, some .subscriptOutOfRange) := by
      rw [calculate, hout]
    have hdisp : Dispatchable ops.ids entry.formulaID wait ↔
        wait ≠ WAIT_ABANDONED ∧ wait ≠ WAIT_OBJECT_0 := by
      have hfull : ∀ q, 1 ≤ q → q ≤ ops.ids.getLastD 0 → q ∈ ops.ids :=
        fun q h₁ h₂ => (hall q h₁ h₂).1
      refine and_congr_right fun _ => ⟨?_, fun hw => .inr ⟨hnone, hw, hfull⟩⟩
      rintro (⟨p, hp, hid, -⟩ | ⟨-, hw, -⟩)
      · exact absurd hid (hnone p hp)
      · exact hw
    rw [hp, hdisp]
    simp only [hcalc]
    split_ifs with hw
    · exact ⟨fun hd => absurd hd.escaped (by simp), fun hd => absurd hw hd.2⟩
    · constructor
      · rintro ⟨-, hrel, -⟩
        refine ⟨?_, hw⟩
        rintro rfl
        exact absurd (hrel (by simp)) (by simp)
      · rintro ⟨hw', -⟩
        exact ⟨rfl, fun ha => absurd (by simpa using ha) hw', fun h₀ => absurd h₀ hw⟩
  · -- a hole before it
    rw [he]
    constructor
    · intro hd
      exact absurd hd.escaped (by simp)
    · rintro ⟨-, ⟨p, hp, hid, hbelow⟩ | ⟨-, -, hfull⟩⟩
      · exfalso
        rcases lt_trichotomy q p with hlt | rfl | hlt
        · exact hqmem (hbelow q hq₁ hlt)
        · exact hqmem hp
        · exact hall p (ops.one_le hp) hlt hid
      · exact absurd (hfull q hq₁ hq) hqmem

end Event

/-! ### Loading, starting, dispatching -/

/-- **Dispatch by formula id.**  Operations in ascending order load; `StartProcessing` runs
through exactly when their gaps are narrow; and once it has, an entry of the queue is dispatched
properly exactly when it is `Dispatchable`. -/
theorem dispatch_iff {numeric : NumericText} (lines : CFormula → Except VbError Unit)
    (ops : Operations numeric) {entry : SchedDatum}
    (hf : -2147483648 ≤ entry.formulaID ∧ entry.formulaID ≤ 2147483647)
    (hl : -2147483648 ≤ entry.lineID ∧ entry.lineID ≤ 2147483647) (wait : ℤ) :
    ∃ v, load ops.rows = .ok v ∧
      ((∃ v', startProcessing numeric v = .ok v') ↔ NarrowGaps ops.ids) ∧
      ∀ v', startProcessing numeric v = .ok v' →
        (Dispatched v' entry.formulaID wait (timer numeric lines v' entry.poolString wait) ↔
          Dispatchable ops.ids entry.formulaID wait) := by
  obtain ⟨v, hv, hload⟩ := load_spec ops
  refine ⟨v, hv, startProcessing_iff hload, fun v' hv' => dispatched_iff ?_ hf hl⟩
  intro i
  rw [startProcessing_ids hv']
  exact hload.shape i

/-- A row with one line that sets nothing. -/
def exampleRow (id : ℕ) : Row := ⟨id, 1, vb "SAVE", [], [], [], [], [], [], []⟩

/-- No text but a plain whole number is one. -/
def onlyWhole : NumericText := fun _ => .error .typeMismatch

/-- Formulas 1 and 4 do not start; formulas 1 and 3 do, but the entry of formula 3 raises an
error; and beside formula 1 alone the entry of formula 2, which has no operations, raises an
error under the mutex. -/
theorem not_dispatched_gaps :
    (∃ v, load [exampleRow 1, exampleRow 4] = .ok v ∧
      startProcessing onlyWhole v = .error .objectNotSet) ∧
    (∃ v v', load [exampleRow 1, exampleRow 3] = .ok v ∧ startProcessing onlyWhole v = .ok v' ∧
      (timer onlyWhole (fun _ => .ok ()) v' (SchedDatum.mk 3 0).poolString 0).escaped =
        some .objectNotSet) ∧
    ∃ v v', load [exampleRow 1] = .ok v ∧ startProcessing onlyWhole v = .ok v' ∧
      ¬ Dispatched v' 2 0 (timer onlyWhole (fun _ => .ok ()) v' (SchedDatum.mk 2 0).poolString 0) :=
  ⟨⟨_, rfl, rfl⟩, ⟨_, _, rfl, rfl, rfl⟩, ⟨_, _, rfl, rfl, fun h => absurd h.escaped (by decide)⟩⟩

def exampleOperations : Operations onlyWhole where
  rows := [exampleRow 1, exampleRow 2]
  nonempty := by decide
  ascending := by decide
  positive := by decide
  paramsNumeric := by
    have hrow : ∀ id, (exampleRow id).line.ParamsNumeric onlyWhole := by
      intro id
      have hno : ([] : VbString) ≠ vb "PARAM" := by decide
      exact ⟨fun h => absurd h hno, fun h => absurd h hno, fun h => absurd h hno⟩
    simp [hrow]

/-- `dispatch_iff` for the entry of formula 2 under the mutex. -/
theorem dispatch_iff_exampleOperations :
    ∃ v, load exampleOperations.rows = .ok v ∧
      ((∃ v', startProcessing onlyWhole v = .ok v') ↔ NarrowGaps exampleOperations.ids) ∧
      ∀ v', startProcessing onlyWhole v = .ok v' →
        (Dispatched v' 2 0
            (timer onlyWhole (fun _ => .ok ()) v' (SchedDatum.mk 2 0).poolString 0) ↔
          Dispatchable exampleOperations.ids 2 0) :=
  @dispatch_iff onlyWhole (fun _ => .ok ()) exampleOperations ⟨2, 0⟩ (by decide) (by decide) 0

end Sis

end Edps
