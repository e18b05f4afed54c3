import Edps.Lib.TwoRuns
import Edps.Sis.Calculator

/-!
# The operands of a line

The record objects of the operands outlive lines and runs.  A line loads an operand when its type
text is one that is known for that operand: `CONST` and `PARAM` for the first two, `LINE` as well
for the third, which the jumps take their target from.  With any other type text the object keeps
what is in it, although `GOTO` takes its target from the first operand.

* `Alike` : what two runs have in common at a line, if the line loads the operands `own`.
* `respects_exec` : a function code depends only on the operands it uses.
* `runs_alike` : two runs of a formula from the same store, whatever was calculated before, execute
  the same lines and leave the same store, when every executed line loads what it uses.
-/

namespace Edps

namespace Sis

open Vb Fields

variable {R : Runtime}

/-! ### What two runs have in common -/

/-- The id of a run, a `Long`. -/
def IsLong (n : ℤ) : Prop := -2147483648 ≤ n ∧ n ≤ 2147483647

theorem isLong_of_toLong {n m : ℤ} (h : toLong n = .ok m) : IsLong m := by
  unfold toLong at h
  split_ifs at h with hlong
  cases h
  exact hlong

/-- Records that differ at most in the run they are stamped with. -/
def SameRecord (d e : Datum R) : Prop :=
  ∃ m n, IsLong m ∧ IsLong n ∧ d.someID = .int m ∧ e = { d with someID := .int n }

/-- The same store and the same line, the same records in the objects `own`, and the same members
when a group has been loaded. -/
structure Alike (own : List OpVar) (grouped : Prop) (c c' : CalcState R) : Prop where
  store : c.store = c'.store
  iCurrent : c.iCurrent = c'.iCurrent
  op : ∀ v ∈ own, SameRecord (c.op v) (c'.op v)
  oResult : grouped → c.oResult = c'.oResult

/-- A computation that ends alike from two such states. -/
def Own (own : List OpVar) (grouped : Prop) {α : Type} (x y : CalcM R α) : Prop :=
  Respects (Alike own grouped) (· = ·) x y

variable {own : List OpVar} {grouped : Prop}

theorem poolString_same {d e : Datum R} (h : SameRecord d e) : poolString d = poolString e := by
  obtain ⟨m, n, -, -, -, rfl⟩ := h
  rfl

/-! ### The steps -/

theorem own_liftE {α : Type} (x : Except VbError α) :
    Own own grouped (liftE (R := R) x) (liftE x) := by
  intro s t h
  cases x with
  | ok a => exact .inl ⟨a, a, s, t, rfl, rfl, rfl, h⟩
  | error e => exact .inr ⟨e, e, s, t, rfl, rfl, h⟩

theorem own_pure {α : Type} (a : α) : Own own grouped (pure a : CalcM R α) (pure a) :=
  Respects.pure rfl

theorem Own.bind {α β : Type} {x y : CalcM R α} {f g : α → CalcM R β} (h : Own own grouped x y)
    (hf : ∀ a, Own own grouped (f a) (g a)) : Own own grouped (x >>= f) (y >>= g) :=
  Respects.bind h fun a _ hab => hab ▸ hf a

/-- The record in an object of its own. -/
theorem own_getOp {v : OpVar} (hv : v ∈ own) {β : Type} {f g : Datum R → CalcM R β}
    (hf : ∀ d e, SameRecord d e → Own own grouped (f d) (g e)) :
    Own own grouped (getOp v >>= f) (getOp v >>= g) := by
  intro s t h
  exact hf _ _ (h.op v hv) s t h

/-- What a computation takes from a record does not depend on the run. -/
theorem own_record {α : Type} {v : OpVar} (hv : v ∈ own) {f : Datum R → CalcM R α}
    (hstamp : ∀ d x, f { d with someID := x } = f d) (hf : ∀ d, Own own grouped (f d) (f d)) :
    Own own grouped (getOp v >>= f) (getOp v >>= f) := by
  refine own_getOp hv fun d e ⟨_, _, _, _, _, he⟩ => ?_
  have hsame : f e = f d := by rw [he]; exact hstamp d _
  rw [hsame]
  exact hf d

/-- A change of a record that does not touch the id of the run. -/
theorem own_modifyOp (v : OpVar) {f g : Datum R → Datum R}
    (hf : ∀ d e, SameRecord d e → SameRecord (f d) (g e)) :
    Own own grouped (modifyOp v f) (modifyOp v g) := by
  intro s t h
  refine .inl ⟨(), (), _, _, rfl, rfl, rfl, h.store, h.iCurrent, fun w hw => ?_, h.oResult⟩
  by_cases hwv : w = v
  · subst hwv
    simpa using hf _ _ (h.op w hw)
  · simpa [hwv] using h.op w hw

/-- The same value into the record of an object. -/
theorem own_setField (v : OpVar) (f : Datum R → Datum R)
    (hf : ∀ d x, f { d with someID := x } = { f d with someID := x })
    (hid : ∀ d, (f d).someID = d.someID) : Own own grouped (modifyOp v f) (modifyOp v f) := by
  refine own_modifyOp v fun d e ⟨m, n, hm, hn, hd, he⟩ => ?_
  exact ⟨m, n, hm, hn, by rw [hid, hd], by rw [he, hf]⟩

theorem own_setDate1 (v : OpVar) (date : ℤ) :
    Own own grouped (setDate1 (R := R) v date) (setDate1 v date) :=
  own_setField v _ (fun _ _ => rfl) fun _ => rfl

theorem own_setDate2 (v : OpVar) (date : ℤ) :
    Own own grouped (setDate2 (R := R) v date) (setDate2 v date) :=
  own_setField v _ (fun _ _ => rfl) fun _ => rfl

theorem own_setAction (v : OpVar) (action : ℤ) :
    Own own grouped (R := R) (modifyOp v fun d => { d with action })
      (modifyOp v fun d => { d with action }) :=
  own_setField v _ (fun _ _ => rfl) fun _ => rfl

theorem own_setAddr1 (v : OpVar) (addr1 : VbString) :
    Own own grouped (R := R) (modifyOp v fun d => { d with addr1 })
      (modifyOp v fun d => { d with addr1 }) :=
  own_setField v _ (fun _ _ => rfl) fun _ => rfl

theorem own_shareValue (v : OpVar) (x : Variant R) :
    Own own grouped (shareValue v x) (shareValue v x) :=
  own_setField v _ (fun _ _ => rfl) fun _ => rfl

theorem own_writeQueue (env : LineEnv) (row row' : HistRow) :
    Own own grouped (writeQueue (R := R) env row) (writeQueue env row') := by
  intro s t h
  have halike : Alike own grouped { s with rows := s.rows ++ [row] }
      { t with rows := t.rows ++ [row'] } := ⟨h.store, h.iCurrent, h.op, h.oResult⟩
  unfold writeQueue
  cases env.leis with
  | none => exact .inl ⟨(), (), _, _, rfl, rfl, rfl, halike⟩
  | some e => exact .inr ⟨e, e, _, _, rfl, rfl, halike⟩

/-- The rows of a group differ in the run at most. -/
theorem own_queueGroup (env : LineEnv) (value : VbString) (runID runID' procTime evenTime : ℤ)
    (fuel : ℕ) (pos : ℤ) :
    Own own grouped (queueGroup (R := R) env value runID procTime evenTime fuel pos)
      (queueGroup env value runID' procTime evenTime fuel pos) := by
  induction fuel generalizing pos with
  | zero => exact own_pure _
  | succ fuel ih =>
    refine (own_liftE _).bind fun _ => (own_liftE _).bind fun nId => ?_
    refine Respects.ite (own_pure _) ?_
    exact (own_liftE _).bind fun _ => (own_writeQueue env _ _).bind fun _ => ih _

theorem cLngOf_someID {d : Datum R} {m : ℤ} (hm : IsLong m) (h : d.someID = .int m) :
    cLngOf d.someID = .ok m := by
  rw [h]
  show toLong m = _
  rw [toLong]
  exact if_pos hm

/-- Two conversions that succeed or fail together. -/
theorem respects_liftE {α β : Type} {x : Except VbError α} {y : Except VbError β}
    (h : (∃ a b, x = .ok a ∧ y = .ok b) ∨ ∃ e e', x = .error e ∧ y = .error e') :
    Respects (Alike (R := R) own grouped) (fun _ _ => True) (liftE x) (liftE y) := by
  intro s t hst
  rcases h with ⟨a, b, rfl, rfl⟩ | ⟨e, e', rfl, rfl⟩
  · exact .inl ⟨a, b, s, t, rfl, rfl, trivial, hst⟩
  · exact .inr ⟨e, e', s, t, rfl, rfl, hst⟩

/-- The row of a record differs in the run at most. -/
theorem own_histRow (env : LineEnv) {d e : Datum R} (h : SameRecord d e) :
    Own own grouped (liftE (R := R) d.histRow >>= writeQueue env)
      (liftE e.histRow >>= writeQueue env) := by
  obtain ⟨m, n, hm, hn, hd, rfl⟩ := h
  refine Respects.bind (respects_liftE ?_) fun _ _ _ => own_writeQueue env _ _
  unfold Datum.histRow
  rw [cLngOf_someID hm hd, cLngOf_someID (d := { d with someID := .int n }) hn rfl]
  cases cIntOf d.paramID <;> cases toDate d.date2 <;> cases toDate d.date1 <;>
    first | exact .inl ⟨_, _, rfl, rfl⟩ | exact .inr ⟨_, _, rfl, rfl⟩

theorem own_letValue (env : LineEnv) {v : OpVar} (hv : v ∈ own) (x : Variant R) :
    Own own grouped (letValue env v x) (letValue env v x) := by
  refine (own_shareValue v x).bind fun _ => own_getOp hv fun d e h => ?_
  have hrow : Own own grouped (liftE (R := R) d.histRow >>= writeQueue env)
      (liftE e.histRow >>= writeQueue env) := own_histRow env h
  obtain ⟨m, n, hm, hn, hd, rfl⟩ := h
  refine Respects.ite (Respects.ite ?_ hrow) (own_pure _)
  -- a group: the rows of its members
  rw [cLngOf_someID hm hd, cLngOf_someID (d := { d with someID := .int n }) hn rfl]
  exact (own_liftE _).bind fun _ => (own_liftE _).bind fun _ => own_queueGroup env _ _ _ _ _ _ _

theorem own_logRecord {v : OpVar} (hv : v ∈ own) :
    Own own grouped (logRecord (R := R) v) (logRecord v) := by
  refine own_getOp hv fun d e h => ?_
  rw [poolString_same h]
  exact (own_liftE _).bind fun _ => own_pure _

theorem own_shareData {v : OpVar} (hv : v ∈ own) (idx : ℤ) :
    Own own grouped (shareData (R := R) v idx) (shareData v idx) := by
  intro s t h
  unfold shareData
  rw [← poolString_same (h.op v hv)]
  cases poolString (s.op v) with
  | error e => exact .inr ⟨e, e, s, t, rfl, rfl, h⟩
  | ok text =>
    refine .inl ⟨(), (), _, _, rfl, rfl, rfl, ?_, h.iCurrent, h.op, h.oResult⟩
    simp [h.store]

theorem own_share {v : OpVar} (hv : v ∈ own) : Own own grouped (share (R := R) v) (share v) := by
  refine own_getOp hv fun d e ⟨m, n, _, _, _, he⟩ => ?_
  subst he
  exact (own_liftE _).bind fun idx => own_shareData hv idx

theorem own_jump {v : OpVar} (hv : v ∈ own) : Own own grouped (jump (R := R) v) (jump v) := by
  refine own_getOp hv fun d e ⟨m, n, _, _, _, he⟩ => ?_
  subst he
  refine (own_liftE _).bind fun _ => (own_liftE _).bind fun iCurrent s t h => ?_
  exact .inl ⟨(), (), _, _, rfl, rfl, rfl, h.store, rfl, h.op, h.oResult⟩

theorem own_valueThenDate (env : LineEnv) (dtDate : ℤ) (h3 : .vOp3 ∈ own) (x : Variant R) :
    Own own grouped (valueThenDate env dtDate x) (valueThenDate env dtDate x) :=
  (own_letValue env h3 x).bind fun _ => (own_setDate1 _ _).bind fun _ => own_share h3

/-! ### PLC operations -/

theorem own_rwFDatum (env : LineEnv) {v : OpVar} (hv : v ∈ own) :
    Own own grouped (rwFDatum (R := R) env v) (rwFDatum env v) := by
  have hcall : Own own grouped (callSapi (R := R) env) (callSapi env) := own_liftE _
  have hdate : Own own grouped (setDate2 (R := R) v env.now) (setDate2 v env.now) :=
    own_setDate2 _ _
  have hlog : Own own grouped (logRecord (R := R) v) (logRecord v) := own_logRecord hv
  refine own_getOp hv fun d e ⟨m, n, _, _, _, he⟩ => ?_
  subst he
  -- a read of a group or of one parameter, then a write
  have hread : Own own grouped (R := R)
      (do
        callSapi env
        if env.sapiCode < 0 then
          shareValue v (.str [])
          logRecord v
          setDate2 v env.now
          return false
        else
          shareValue v (.str (env.sapiText.takeWhile (· ≠ 0)))
          setDate2 v env.now
          return true) _ :=
    hcall.bind fun _ => Respects.ite
      ((own_shareValue _ _).bind fun _ => hlog.bind fun _ => hdate.bind fun _ => own_pure _)
      ((own_shareValue _ _).bind fun _ => hdate.bind fun _ => own_pure _)
  refine Respects.ite (Respects.ite hread (Respects.ite ?_ (own_pure _)))
    (Respects.ite (Respects.ite hread (Respects.ite ?_ (own_pure _))) (own_pure _))
  · exact hcall.bind fun _ => hdate.bind fun _ => Respects.ite (hlog.bind fun _ => own_pure _)
      (own_pure _)
  · exact hcall.bind fun _ => hdate.bind fun _ => Respects.ite
      ((own_letValue env hv _).bind fun _ => hlog.bind fun _ => own_pure _) (own_pure _)

theorem own_mustRW (env : LineEnv) {v : OpVar} (hv : v ∈ own) :
    Own own grouped (mustRW (R := R) env v) (mustRW env v) := by
  have hlocal : Own own grouped (localRWFDatum (R := R) env v) (localRWFDatum env v) :=
    Respects.tryCatch (own_rwFDatum env hv) fun _ _ =>
      (own_logRecord hv).bind fun _ => own_pure _
  exact hlocal.bind fun _ => Respects.ite (Respects.throw _ _) (own_pure _)

/-! ### Records from the store -/

/-- A record read without error, with the run of the old one. -/
theorem letPoolString_congr {s : VbString} {d d' e : Datum R} (h : letPoolString s d = (d', none))
    (hid : e.someID = d.someID) : letPoolString s e = (d', none) := by
  obtain ⟨htake, hall⟩ := letPoolString_eq_ok.1 h
  refine letPoolString_eq_ok.2 ⟨htake, ?_⟩
  simpa only [poolSetters, readAll_cons_eq, readAll_nil_eq, bind_eq_ok, pure, Except.pure,
    Except.ok.injEq, exists_eq_left', exists_exists_and_eq_and, hid] using hall

/-- A record stamped with another run. -/
def Datum.stamp (x : Variant R) (d : Datum R) : Datum R := { d with someID := x }

/-- No assignment reads or changes the run. -/
theorem poolSetters_stamp (x : Variant R) : ∀ set ∈ poolSetters, ∀ t (d : Datum R),
    set t (d.stamp x) = (set t d).map (Datum.stamp x) := by
  have hbind {α : Type} (y : Except VbError α) (f : α → Datum R → Datum R) (d : Datum R)
      (hf : ∀ a, f a (d.stamp x) = (f a d).stamp x) :
      (do return f (← y) (d.stamp x)) = (do return f (← y) d : Except VbError (Datum R)).map
        (Datum.stamp x) := by
    cases y with
    | error e => rfl
    | ok a => exact congrArg Except.ok (hf a)
  simp only [poolSetters, List.forall_mem_cons, List.not_mem_nil, false_implies, implies_true,
    and_true]
  exact ⟨fun t d => hbind _ (fun n d => { d with action := n }) d fun _ => rfl,
    fun _ _ => rfl, fun _ _ => rfl, fun _ _ => rfl, fun _ _ => rfl, fun _ _ => rfl,
    fun _ _ => rfl, fun _ _ => rfl, fun _ _ => rfl,
    fun t d => hbind _ (fun n d => { d with date1 := some n }) d fun _ => rfl,
    fun t d => hbind _ (fun n d => { d with date2 := some n }) d fun _ => rfl,
    fun _ _ => rfl,
    fun t d => hbind _ (fun n d => { d with paramID := .int n }) d fun _ => rfl,
    fun t d => hbind _ (fun n d => { d with tag := .int n }) d fun _ => rfl,
    fun _ _ => rfl⟩

/-- What a record is read from decides whether that succeeds, and what is read. -/
theorem letPoolString_stamp {s : VbString} (d e : Datum R) :
    (∃ d' x, letPoolString s d = (d', none) ∧ letPoolString s e = (d'.stamp x, none)) ∨
      ∃ d' e' err err',
        letPoolString s d = (d', some err) ∧ letPoolString s e = (e', some err') := by
  have hstamp (x : Variant R) : letPoolString s (d.stamp x) =
      ((letPoolString s d).1.stamp x, (letPoolString s d).2) := by
    unfold letPoolString
    split_ifs
    · simp only [readAll_map (poolSetters_stamp x)]
    · rfl
  rcases hd : letPoolString s d with ⟨d', _ | err⟩
  · rw [hd] at hstamp
    exact .inl ⟨d', e.someID, rfl, letPoolString_congr (hstamp e.someID) rfl⟩
  · rcases he : letPoolString s e with ⟨e', _ | err'⟩
    · -- then the other reading would have succeeded as well
      have := letPoolString_congr (e := d.stamp e.someID) he rfl
      rw [hstamp, hd] at this
      cases this
    · exact .inr ⟨d', e', err, err', rfl, rfl⟩

/-- `GetData` from the same store. -/
theorem getData_cases (v : OpVar) (idx : ℤ) {s t : CalcState R} (hstore : s.store = t.store) :
    (∃ d x, getData v idx s = .ok () (s.setOp v d) ∧
        getData v idx t = .ok () (t.setOp v (d.stamp x))) ∨
      ∃ d e err err', getData v idx s = .error err (s.setOp v d) ∧
        getData v idx t = .error err' (t.setOp v e) := by
  unfold getData
  rw [← hstore]
  rcases letPoolString_stamp (s := s.store idx) (s.op v) (t.op v) with
    ⟨d', x, hd, he⟩ | ⟨d', e', err, err', hd, he⟩
  · simp only [hd, he]
    exact .inl ⟨d', x, rfl, rfl⟩
  · simp only [hd, he]
    exact .inr ⟨d', e', err, err', rfl, rfl⟩

/-- Another object does not matter. -/
theorem Alike.setOp {s t : CalcState R} (h : Alike own grouped s t) {v : OpVar} (hv : v ∉ own)
    (d e : Datum R) : Alike own grouped (s.setOp v d) (t.setOp v e) where
  store := h.store
  iCurrent := h.iCurrent
  op w hw := by
    have hne : w ≠ v := fun hwv => hv (hwv ▸ hw)
    simpa [hne] using h.op w hw
  oResult := h.oResult

theorem Alike.ungroup {s t : CalcState R} (h : Alike own True s t) : Alike own grouped s t :=
  ⟨h.store, h.iCurrent, h.op, fun _ => h.oResult trivial⟩

/-! ### Groups -/

section Group

variable (hm : OpVar.mfdptr ∉ own)

include hm

theorem own_toRead (sParID : VbString) :
    Own own grouped (toRead (R := R) sParID) (toRead sParID) := by
  refine (own_liftE _).bind fun idx s t h => ?_
  rcases getData_cases .mfdptr idx h.store with ⟨d, x, hs, ht⟩ | ⟨d, e, err, err', hs, ht⟩
  · rw [bind_of_ok hs, bind_of_ok ht]
    refine .inl ⟨_, _, s.setOp .mfdptr d, t.setOp .mfdptr (d.stamp x), rfl, rfl, ?_, h.setOp hm _ _⟩
    simp [Datum.stamp]
  · rw [bind_of_error hs, bind_of_error ht]
    exact .inr ⟨err, err', _, _, rfl, rfl, h.setOp hm _ _⟩

theorem own_addMember (oSource : List ToRead) (sParID : VbString) :
    Own own grouped (addMember (R := R) oSource sParID) (addMember oSource sParID) :=
  Respects.ite ((own_toRead hm _).bind fun _ => own_pure _) (own_pure _)

theorem own_scanGroup (sSource : VbString) (fuel : ℕ) (iCurr : ℤ) (oSource : List ToRead) :
    Own own grouped (scanGroup (R := R) sSource fuel iCurr oSource)
      (scanGroup sSource fuel iCurr oSource) := by
  induction fuel generalizing iCurr oSource with
  | zero => exact own_pure _
  | succ fuel ih =>
    refine (own_liftE _).bind fun iLast => Respects.ite ?_ (own_pure _)
    exact (own_liftE _).bind fun _ => (own_liftE _).bind fun _ =>
      (own_addMember hm _ _).bind fun _ => ih _ _

/-- `ParseGroup` gives the same members and makes the same places for them. -/
theorem parseGroup_cases (sSource : VbString) {s t : CalcState R} (h : Alike own grouped s t) :
    (∃ oSource s' t', parseGroup sSource s = .ok oSource s' ∧
        parseGroup sSource t = .ok oSource t' ∧ Alike own True s' t') ∨
      ∃ e e' s' t', parseGroup sSource s = .error e s' ∧ parseGroup sSource t = .error e' t' ∧
        Alike own grouped s' t' := by
  let members : CalcM R (List ToRead) := do
    let scanned ← scanGroup sSource (sSource.length + 1) 1 []
    let segment ← liftE (right sSource (sSource.length - scanned.1 + 1))
    addMember scanned.2 (trim segment)
  have hmembers : Own own grouped members members :=
    (own_scanGroup hm _ _ _ _).bind fun _ => (own_liftE _).bind fun _ => own_addMember hm _ _
  have hparse : parseGroup (R := R) sSource = members >>= fun oSource => do
      reDimResult oSource.length
      return oSource := by
    simp [parseGroup, members]
  rw [hparse]
  rcases hmembers s t h with ⟨oSource, _, s', t', hs, ht, rfl, h'⟩ | ⟨e, e', s', t', hs, ht, h'⟩
  · rw [bind_of_ok hs, bind_of_ok ht]
    -- the places of the members
    by_cases hempty : oSource.length = 0
    · have hdim (u : CalcState R) :
          reDimResult oSource.length u = .error .subscriptOutOfRange u := by
        rw [reDimResult, if_pos hempty]
      rw [bind_of_error (hdim s'), bind_of_error (hdim t')]
      exact .inr ⟨_, _, s', t', rfl, rfl, h'⟩
    · have hdim (u : CalcState R) : reDimResult oSource.length u =
          .ok () { u with oResult := List.replicate oSource.length ⟨[], []⟩ } := by
        rw [reDimResult, if_neg hempty]
      rw [bind_of_ok (hdim s'), bind_of_ok (hdim t')]
      exact .inl ⟨oSource, _, _, rfl, rfl, h'.store, h'.iCurrent, h'.op, fun _ => rfl⟩
  · rw [bind_of_error hs, bind_of_error ht]
    exact .inr ⟨e, e', s', t', rfl, rfl, h'⟩

/-- `CombineToRead` gives the same request, and the places for the reply. -/
theorem combineToRead_cases (sSource : VbString) {s t : CalcState R} (h : Alike own grouped s t) :
    (∃ request s' t', combineToRead sSource s = .ok request s' ∧
        combineToRead sSource t = .ok request t' ∧ Alike own True s' t') ∨
      ∃ e e' s' t', combineToRead sSource s = .error e s' ∧
        combineToRead sSource t = .error e' t' ∧ Alike own grouped s' t' := by
  unfold combineToRead
  rcases parseGroup_cases hm sSource h with
    ⟨oSource, s', t', hs, ht, h'⟩ | ⟨e, e', s', t', hs, ht, h'⟩
  · rw [bind_of_ok hs, bind_of_ok ht]
    by_cases hone : (oSource.length - 1 : ℤ) ≤ 0
    · simp only [if_pos hone]
      exact .inl ⟨_, s', t', rfl, rfl, h'⟩
    · simp only [if_neg hone]
      exact .inl ⟨_, s', t', rfl, rfl, h'⟩
  · rw [bind_of_error hs, bind_of_error ht]
    exact .inr ⟨e, e', s', t', rfl, rfl, h'⟩

theorem own_combineToRead (sSource : VbString) :
    Own own grouped (combineToRead (R := R) sSource) (combineToRead sSource) := by
  intro s t h
  rcases combineToRead_cases hm sSource h with ⟨request, s', t', hs, ht, h'⟩ | herror
  · exact .inl ⟨request, request, s', t', hs, ht, rfl, h'.ungroup⟩
  · exact .inr herror

theorem own_putDataByID (sID sRes : VbString) :
    Own own grouped (putDataByID (R := R) .mfdptr sID sRes) (putDataByID .mfdptr sID sRes) := by
  refine (own_liftE _).bind fun idx s t h => ?_
  rcases getData_cases .mfdptr idx h.store with ⟨d, x, hs, ht⟩ | ⟨d, e, err, err', hs, ht⟩
  · rw [bind_of_ok hs, bind_of_ok ht, modifyOp_bind, modifyOp_bind]
    -- the two records have the same pool string
    have hrec : ({ d.stamp x with value := .str sRes } : Datum R) =
        ({ d with value := .str sRes } : Datum R).stamp x := rfl
    simp only [CalcState.setOp_op_self, CalcState.setOp_setOp, hrec]
    generalize ({ d with value := .str sRes } : Datum R) = r
    have hpool : poolString (r.stamp x) = poolString r := rfl
    have halike := h.setOp hm r (r.stamp x)
    cases cInt R.numeric sID with
    | error e => exact .inr ⟨e, e, _, _, rfl, rfl, halike⟩
    | ok idx =>
      show (∃ a b s' t', shareData .mfdptr idx (s.setOp .mfdptr r) = .ok a s' ∧
        shareData .mfdptr idx (t.setOp .mfdptr (r.stamp x)) = .ok b t' ∧ _) ∨
          ∃ e e' s' t', shareData .mfdptr idx (s.setOp .mfdptr r) = .error e s' ∧
            shareData .mfdptr idx (t.setOp .mfdptr (r.stamp x)) = .error e' t' ∧ _
      unfold shareData
      simp only [CalcState.setOp_op_self, hpool]
      cases poolString r with
      | error e => exact .inr ⟨e, e, _, _, rfl, rfl, halike⟩
      | ok text =>
        refine .inl ⟨(), (), _, _, rfl, rfl, trivial, ?_, halike.iCurrent, halike.op,
          halike.oResult⟩
        simp [h.store]
  · rw [bind_of_error hs, bind_of_error ht]
    exact .inr ⟨err, err', _, _, rfl, rfl, h.setOp hm _ _⟩

/-- The values of a reply to the members, which are the same. -/
theorem own_spreadResuts (sRes : VbString) :
    Own own True (spreadResuts (R := R) sRes) (spreadResuts sRes) := by
  refine Respects.ite (fun s t h => ?_) (own_pure _)
  rw [bind_get, bind_get, h.oResult trivial]
  refine (own_liftE _).bind (fun oResult => ?_) s t h
  have hset : Own own True (R := R) (modify fun s => { s with oResult })
      (modify fun s => { s with oResult }) :=
    fun s t h => .inl ⟨(), (), _, _, rfl, rfl, rfl, h.store, h.iCurrent, h.op, fun _ => rfl⟩
  refine hset.bind fun _ =>
    Respects.bind (Respects.forIn_unit fun r _ => ?_) fun _ _ _ => own_pure _
  exact Respects.bind (own_putDataByID hm _ _) fun _ _ _ => Respects.pure ⟨rfl, rfl⟩

end Group

/-! ### The function codes -/

/-- The operands a function code uses. -/
def FunctionCode.uses : FunctionCode → List OpVar
  | .forLoop | .plus | .minus | .concat | .instr | .left | .right | .lhstr2val =>
    [.vOp1, .vOp2, .vOp3]
  | .ifEqual | .ifnot | .ifgt | .ifle => [.vOp1, .vOp2, .vOp3]
  | .set | .share => [.vOp1, .vOp3]
  | .goto | .mread | .smread | .read | .sread => [.vOp1]
  | .inc | .write | .save => [.vOp3]
  | .unknown => []

variable (conv : Convert R) (env : LineEnv) (dtDate : ℤ)

theorem own_letHex {v : OpVar} (hv : v ∈ own) (hex : VbString) :
    Own own grouped (letHex conv env v hex) (letHex conv env v hex) := by
  refine own_getOp hv fun d e ⟨m, n, _, _, _, he⟩ => ?_
  subst he
  dsimp only
  cases hexValue conv d.dataType hex with
  | none => exact own_pure _
  | some value => exact own_letValue env hv value

/-- The values of the first two operands as numbers. -/
theorem own_numbers {α : Type} (h1 : .vOp1 ∈ own) (h2 : .vOp2 ∈ own)
    {f : R.Double → R.Double → CalcM R α} (hf : ∀ v1 v2, Own own grouped (f v1 v2) (f v1 v2)) :
    Own own grouped
      (do
        let v1 ← liftE (toDouble (← getOp .vOp1).value)
        let v2 ← liftE (toDouble (← getOp .vOp2).value)
        f v1 v2)
      (do
        let v1 ← liftE (toDouble (← getOp .vOp1).value)
        let v2 ← liftE (toDouble (← getOp .vOp2).value)
        f v1 v2) :=
  own_record h1 (fun _ _ => rfl) fun _ => (own_liftE _).bind fun v1 =>
    own_record h2 (fun _ _ => rfl) fun _ => (own_liftE _).bind fun v2 => hf v1 v2

/-- **A function code depends only on the operands it uses.** -/
theorem own_exec {code : FunctionCode} (huses : ∀ v ∈ code.uses, v ∈ own) (hm : .mfdptr ∉ own) :
    Own own False (exec conv env dtDate code) (exec conv env dtDate code) := by
  cases code with
  | forLoop =>
    have h1 := huses .vOp1 (by decide)
    have h2 := huses .vOp2 (by decide)
    have h3 := huses .vOp3 (by decide)
    rw [exec]
    refine own_record h3 (fun _ _ => rfl) fun _ => (own_liftE _).bind fun x => ?_
    refine (own_letValue env h3 _).bind fun _ => own_record h3 (fun _ _ => rfl) fun _ => ?_
    refine (own_liftE _).bind fun v3 => own_record h2 (fun _ _ => rfl) fun _ => ?_
    refine (own_liftE _).bind fun v2 => Respects.ite ?_ (own_share h3)
    exact own_record h1 (fun _ _ => rfl) fun _ => (own_letValue env h3 _).bind fun _ =>
      own_share h3
  | plus =>
    have h3 := huses .vOp3 (by decide)
    exact own_numbers (huses .vOp1 (by decide)) (huses .vOp2 (by decide)) fun _ _ =>
      own_valueThenDate env _ h3 _
  | minus =>
    have h3 := huses .vOp3 (by decide)
    exact own_numbers (huses .vOp1 (by decide)) (huses .vOp2 (by decide)) fun _ _ =>
      own_valueThenDate env _ h3 _
  | concat =>
    have h3 := huses .vOp3 (by decide)
    exact own_record (huses .vOp1 (by decide)) (fun _ _ => rfl) fun _ =>
      own_record (huses .vOp2 (by decide)) (fun _ _ => rfl) fun _ =>
        own_valueThenDate env _ h3 _
  | inc =>
    have h3 := huses .vOp3 (by decide)
    exact own_record h3 (fun _ _ => rfl) fun _ => (own_liftE _).bind fun _ =>
      own_valueThenDate env _ h3 _
  | instr =>
    have h3 := huses .vOp3 (by decide)
    exact own_record (huses .vOp1 (by decide)) (fun _ _ => rfl) fun _ =>
      own_record (huses .vOp2 (by decide)) (fun _ _ => rfl) fun _ => own_letValue env h3 _
  | left =>
    have h3 := huses .vOp3 (by decide)
    exact own_record (huses .vOp1 (by decide)) (fun _ _ => rfl) fun _ =>
      own_record (huses .vOp2 (by decide)) (fun _ _ => rfl) fun _ =>
        (own_liftE _).bind fun _ => (own_liftE _).bind fun _ => own_letValue env h3 _
  | right =>
    have h3 := huses .vOp3 (by decide)
    exact own_record (huses .vOp1 (by decide)) (fun _ _ => rfl) fun _ =>
      own_record (huses .vOp2 (by decide)) (fun _ _ => rfl) fun _ =>
        (own_liftE _).bind fun _ => (own_liftE _).bind fun _ => own_letValue env h3 _
  | ifEqual =>
    have h3 := huses .vOp3 (by decide)
    exact own_record (huses .vOp1 (by decide)) (fun _ _ => rfl) fun _ =>
      own_record (huses .vOp2 (by decide)) (fun _ _ => rfl) fun _ =>
        Respects.ite (own_jump h3) (own_pure _)
  | ifnot =>
    have h3 := huses .vOp3 (by decide)
    exact own_record (huses .vOp1 (by decide)) (fun _ _ => rfl) fun _ =>
      own_record (huses .vOp2 (by decide)) (fun _ _ => rfl) fun _ =>
        Respects.ite (own_jump h3) (own_pure _)
  | ifgt =>
    exact own_numbers (huses .vOp1 (by decide)) (huses .vOp2 (by decide)) fun _ _ =>
      Respects.ite (own_jump (huses .vOp3 (by decide))) (own_pure _)
  | ifle =>
    exact own_numbers (huses .vOp1 (by decide)) (huses .vOp2 (by decide)) fun _ _ =>
      Respects.ite (own_jump (huses .vOp3 (by decide))) (own_pure _)
  | goto => exact own_jump (huses .vOp1 (by decide))
  | set =>
    have h3 := huses .vOp3 (by decide)
    exact (own_setDate1 _ _).bind fun _ =>
      own_record (huses .vOp1 (by decide)) (fun _ _ => rfl) fun _ =>
        (own_letValue env h3 _).bind fun _ => own_share h3
  | share =>
    have h3 := huses .vOp3 (by decide)
    exact (own_setDate1 _ _).bind fun _ =>
      own_record (huses .vOp1 (by decide)) (fun _ _ => rfl) fun _ =>
        (own_shareValue _ _).bind fun _ => own_share h3
  | mread =>
    have h1 := huses .vOp1 (by decide)
    rw [exec]
    refine (own_setAction _ _).bind fun _ => own_record h1 (fun _ _ => rfl) fun _ => ?_
    refine (own_combineToRead hm _).bind fun _ => (own_setAddr1 _ _).bind fun _ => ?_
    refine (own_mustRW env h1).bind fun _ => (own_setDate1 _ _).bind fun _ => ?_
    exact own_record h1 (fun _ _ => rfl) fun _ => (own_letValue env h1 _).bind fun _ => own_share h1
  | smread =>
    have h1 := huses .vOp1 (by decide)
    rw [exec]
    refine (own_setAction _ _).bind fun _ => own_record h1 (fun _ _ => rfl) fun d s t h => ?_
    -- the places for the reply are those of this line's group
    rcases combineToRead_cases hm d.addr6 h with
      ⟨addr1, s', t', hs, ht, h'⟩ | ⟨e, e', s', t', hs, ht, h'⟩
    · rw [bind_of_ok hs, bind_of_ok ht]
      have hrest : Own own True (R := R)
          (do
            modifyOp .vOp1 fun d => { d with addr1 }
            mustRW env .vOp1
            spreadResuts (toText (← getOp .vOp1).value)
            setDate1 .vOp1 dtDate
            share .vOp1) _ :=
        (own_setAddr1 _ _).bind fun _ => (own_mustRW env h1).bind fun _ =>
          own_record h1 (fun _ _ => rfl) fun _ => (own_spreadResuts hm _).bind fun _ =>
            (own_setDate1 _ _).bind fun _ => own_share h1
      rcases hrest s' t' h' with ⟨_, _, _, _, hs, ht, heq, h''⟩ | ⟨_, _, _, _, hs, ht, h''⟩
      · exact .inl ⟨_, _, _, _, hs, ht, heq, h''.ungroup⟩
      · exact .inr ⟨_, _, _, _, hs, ht, h''.ungroup⟩
    · rw [bind_of_error hs, bind_of_error ht]
      exact .inr ⟨e, e', s', t', rfl, rfl, h'⟩
  | read =>
    have h1 := huses .vOp1 (by decide)
    rw [exec]
    refine (own_setAction _ _).bind fun _ => (own_mustRW env h1).bind fun _ => ?_
    refine (own_setDate1 _ _).bind fun _ => own_record h1 (fun _ _ => rfl) fun _ => ?_
    exact (own_letValue env h1 _).bind fun _ => own_share h1
  | sread =>
    have h1 := huses .vOp1 (by decide)
    exact (own_setAction _ _).bind fun _ => (own_mustRW env h1).bind fun _ =>
      (own_setDate1 _ _).bind fun _ => own_share h1
  | write =>
    have h3 := huses .vOp3 (by decide)
    exact (own_setDate1 _ _).bind fun _ => (own_setAction _ _).bind fun _ =>
      (own_mustRW env h3).bind fun _ => own_share h3
  | lhstr2val =>
    have h3 := huses .vOp3 (by decide)
    rw [exec]
    refine own_record (huses .vOp1 (by decide)) (fun _ _ => rfl) fun d => ?_
    refine own_record (huses .vOp2 (by decide)) (fun _ _ => rfl) fun _ => ?_
    refine (own_liftE _).bind fun start => own_record h3 (fun _ _ => rfl) fun _ => ?_
    refine (own_liftE _).bind fun len => (own_liftE _).bind fun hex => ?_
    refine (own_letHex conv env h3 hex).bind fun _ => (own_setDate1 _ _).bind fun _ => ?_
    have hdate2 : Own own False (R := R) (modifyOp .vOp3 fun e => { e with date2 := d.date2 }) _ :=
      own_setField _ _ (fun _ _ => rfl) fun _ => rfl
    refine hdate2.bind fun _ => own_record h3 (fun _ _ => rfl) fun _ => ?_
    exact (own_letValue env h3 _).bind fun _ => own_share h3
  | save =>
    have h3 := huses .vOp3 (by decide)
    exact own_record h3 (fun _ _ => rfl) fun _ => own_letValue env h3 _
  | unknown => exact own_pure _

/-! ### Lines -/

/-- The type texts a line is loaded for. -/
def TFormula.Loads (line : TFormula) : OpVar → Prop
  | .vOp1 => line.type1 = vb "CONST" ∨ line.type1 = vb "PARAM"
  | .vOp2 => line.type2 = vb "CONST" ∨ line.type2 = vb "PARAM"
  | .vOp3 => line.type3 = vb "CONST" ∨ line.type3 = vb "LINE" ∨ line.type3 = vb "PARAM"
  | .mfdptr => False

instance (line : TFormula) (v : OpVar) : Decidable (line.Loads v) := by
  cases v <;> unfold TFormula.Loads <;> infer_instance

/-- The operands the function code uses have a type text the line is loaded for. -/
def TFormula.OwnOperands (line : TFormula) : Prop :=
  ∀ v ∈ (FunctionCode.ofText line.functionCode).uses, line.Loads v

instance (line : TFormula) : Decidable line.OwnOperands :=
  inferInstanceAs (Decidable (∀ v ∈ (FunctionCode.ofText line.functionCode).uses, line.Loads v))

/-- The same store and the same line, and the same data in the objects that have been loaded. -/
structure Fresh (loaded : OpVar → Prop) (c c' : CalcState R) : Prop where
  store : c.store = c'.store
  iCurrent : c.iCurrent = c'.iCurrent
  op : ∀ v, loaded v → ∃ x, c'.op v = (c.op v).stamp x

/-- What a line starts from and leaves. -/
abbrev SameStore : CalcState R → CalcState R → Prop := Fresh fun _ => False

theorem Fresh.mono {loaded loaded' : OpVar → Prop} {s t : CalcState R} (h : Fresh loaded s t)
    (hsub : ∀ v, loaded' v → loaded v) : Fresh loaded' s t :=
  ⟨h.store, h.iCurrent, fun v hv => h.op v (hsub v hv)⟩

/-- One object loaded on both sides. -/
theorem Fresh.setOp {loaded : OpVar → Prop} {s t : CalcState R} (h : Fresh loaded s t) (v : OpVar)
    (d : Datum R) (x : Variant R) :
    Fresh (fun w => w = v ∨ loaded w) (s.setOp v d) (t.setOp v (d.stamp x)) where
  store := h.store
  iCurrent := h.iCurrent
  op w hw := by
    by_cases hwv : w = v
    · subst hwv
      exact ⟨x, by simp⟩
    · obtain ⟨y, hy⟩ := h.op w (hw.resolve_left hwv)
      exact ⟨y, by simp [hwv, hy]⟩

/-- One operand: it is fresh afterwards if its type text is known. -/
theorem loadOperand_cases (v : OpVar) (types : List VbString) (type operand : VbString)
    {loaded : OpVar → Prop} {s t : CalcState R} (h : Fresh loaded s t) :
    (∃ s' t', loadOperand v types type operand s = .ok () s' ∧
        loadOperand v types type operand t = .ok () t' ∧
        Fresh (fun w => (w = v ∧ (type ∈ types ∨ type = vb "PARAM")) ∨ loaded w) s' t') ∨
      ∃ e e' s' t', loadOperand v types type operand s = .error e s' ∧
        loadOperand v types type operand t = .error e' t' ∧ SameStore s' t' := by
  unfold loadOperand
  split_ifs with hconst hparam
  · -- a constant leaves nothing of the old record but its run
    refine .inl ⟨_, _, rfl, rfl, ?_⟩
    have hset := h.setOp v { s.op v with
      action := -1, addr1 := [], addr2 := [], addr3 := [], addr4 := [], addr5 := [], addr6 := []
      dataSetName := [], dataType := vb "string", date1 := none, date2 := none, linkType := []
      paramID := .str [], tag := .int (-1), value := .str operand } (t.op v).someID
    exact hset.mono fun w hw => hw.imp_left And.left
  · cases hidx : cInt R.numeric operand with
    | error e => exact .inr ⟨e, e, s, t, rfl, rfl, h.mono fun _ => False.elim⟩
    | ok idx =>
      rcases getData_cases v idx h.store with ⟨d, x, hs, ht⟩ | ⟨d, e, err, err', hs, ht⟩
      · exact .inl ⟨_, _, hs, ht, (h.setOp v d x).mono fun w hw => hw.imp_left And.left⟩
      · exact .inr ⟨err, err', _, _, hs, ht, h.store, h.iCurrent, fun _ => False.elim⟩
  · refine .inl ⟨s, t, rfl, rfl, h.mono fun w hw => ?_⟩
    rcases hw with ⟨-, hknown⟩ | hw
    · exact absurd hknown (not_or.2 ⟨hconst, hparam⟩)
    · exact hw

/-- **The operands of a line.**  Those with a known type text are its own. -/
theorem loadOperands_cases (line : TFormula) {runID runID' : ℤ} (hid : IsLong runID)
    (hid' : IsLong runID') {s t : CalcState R} (h : SameStore s t) :
    (∃ s' t', loadOperands line runID s = .ok () s' ∧ loadOperands line runID' t = .ok () t' ∧
        Alike ([.vOp1, .vOp2, .vOp3].filter fun v => line.Loads v) False s' t') ∨
      ∃ e e' s' t', loadOperands line runID s = .error e s' ∧
        loadOperands line runID' t = .error e' t' ∧ SameStore s' t' := by
  unfold loadOperands
  rcases loadOperand_cases .vOp1 [vb "CONST"] line.type1 line.operand1 h with
    ⟨s₁, t₁, hs, ht, h₁⟩ | ⟨e, e', s₁, t₁, hs, ht, h₁⟩
  swap
  · rw [bind_of_error hs, bind_of_error ht]
    exact .inr ⟨e, e', s₁, t₁, rfl, rfl, h₁⟩
  rw [bind_of_ok hs, bind_of_ok ht]
  rcases loadOperand_cases .vOp2 [vb "CONST"] line.type2 line.operand2 h₁ with
    ⟨s₂, t₂, hs, ht, h₂⟩ | ⟨e, e', s₂, t₂, hs, ht, h₂⟩
  swap
  · rw [bind_of_error hs, bind_of_error ht]
    exact .inr ⟨e, e', s₂, t₂, rfl, rfl, h₂⟩
  rw [bind_of_ok hs, bind_of_ok ht]
  rcases loadOperand_cases .vOp3 [vb "CONST", vb "LINE"] line.type3 line.operand3 h₂ with
    ⟨s₃, t₃, hs, ht, h₃⟩ | ⟨e, e', s₃, t₃, hs, ht, h₃⟩
  swap
  · rw [bind_of_error hs, bind_of_error ht]
    exact .inr ⟨e, e', s₃, t₃, rfl, rfl, h₃⟩
  rw [bind_of_ok hs, bind_of_ok ht]
  -- the stamps
  refine .inl ⟨_, _, rfl, rfl, h₃.store, h₃.iCurrent, fun v hv => ?_, False.elim⟩
  obtain ⟨hmem, hloads⟩ := List.mem_filter.1 hv
  have hload : line.Loads v := of_decide_eq_true hloads
  have hfresh : ∃ x, t₃.op v = (s₃.op v).stamp x := by
    refine h₃.op v ?_
    cases v with
    | vOp1 => exact .inr (.inr (.inl ⟨rfl, by simpa [TFormula.Loads] using hload⟩))
    | vOp2 => exact .inr (.inl ⟨rfl, by simpa [TFormula.Loads] using hload⟩)
    | vOp3 => exact .inl ⟨rfl, by simpa [TFormula.Loads, or_assoc] using hload⟩
    | mfdptr => exact hload.elim
  obtain ⟨x, hx⟩ := hfresh
  have hstamp : SameRecord ((s₃.op v).stamp (.int runID)) ((t₃.op v).stamp (.int runID')) :=
    ⟨runID, runID', hid, hid', rfl, by rw [hx]; rfl⟩
  simp only [List.mem_cons, List.not_mem_nil, or_false] at hmem
  rcases hmem with rfl | rfl | rfl <;> simpa [Datum.stamp] using hstamp

/-- **A line that loads what it uses.** -/
theorem respects_calculateLine {line : TFormula} (hown : line.OwnOperands) {runID runID' : ℤ}
    (hid : IsLong runID) (hid' : IsLong runID') :
    Respects SameStore (· = ·) (calculateLine conv env dtDate line runID)
      (calculateLine conv env dtDate line runID') := by
  intro s t h
  have hsame {own : List OpVar} {s t : CalcState R} (h : Alike own False s t) : SameStore s t :=
    ⟨h.store, h.iCurrent, fun _ => False.elim⟩
  unfold calculateLine
  rcases loadOperands_cases line hid hid' h with ⟨s', t', hs, ht, h'⟩ | ⟨e, e', s', t', hs, ht, h'⟩
  · rw [bind_of_ok hs, bind_of_ok ht]
    have huses : ∀ v ∈ (FunctionCode.ofText line.functionCode).uses,
        v ∈ [OpVar.vOp1, .vOp2, .vOp3].filter fun v => line.Loads v := by
      intro v hv
      have hload := hown v hv
      refine List.mem_filter.2 ⟨?_, decide_eq_true hload⟩
      cases v with
      | mfdptr => exact hload.elim
      | _ => decide
    have hm : OpVar.mfdptr ∉ [OpVar.vOp1, .vOp2, .vOp3].filter fun v => line.Loads v :=
      fun hmem => of_decide_eq_true (List.mem_filter.1 hmem).2
    rcases own_exec conv env dtDate huses hm s' t' h' with
      ⟨_, _, _, _, hs, ht, heq, h''⟩ | ⟨_, _, _, _, hs, ht, h''⟩
    · exact .inl ⟨_, _, _, _, hs, ht, heq, hsame h''⟩
    · exact .inr ⟨_, _, _, _, hs, ht, hsame h''⟩
  · rw [bind_of_error hs, bind_of_error ht]
    exact .inr ⟨e, e', s', t', rfl, rfl, h'⟩

/-! ### Runs -/

/-- The lines a run executes, by their positions. -/
def executed : RunState R → List LineEnv → List ℤ
  | _, [] => []
  | s, env :: envs =>
    (s.next?.map fun _ => s.state.iCurrent).toList ++ executed (s.step conv env) envs

/-- A run of a formula and what the environment answered. -/
structure PastRun where
  formula : CFormula
  dtDate : ℤ
  runID : ℤ
  envs : List LineEnv

/-- The state of the calculator after a run. -/
def afterRun (c : CalcState R) (run : PastRun) : CalcState R :=
  ((calculator conv).after (.start c run.formula run.dtDate run.runID) run.envs).state

/-- A run begun from this store by a calculator that has done these runs before. -/
def beginRun (c : CalcState R) (past : List PastRun) (store : ℤ → VbString) (formula : CFormula)
    (dtDate runID : ℤ) : RunState R :=
  .start { past.foldl (afterRun conv) c with store } formula dtDate runID

/-- The line that is executed next loads what it uses. -/
def RunState.NextOwn (s : RunState R) : Prop := ∀ line ∈ s.next?, line.OwnOperands

instance (s : RunState R) : Decidable s.NextOwn :=
  inferInstanceAs (Decidable (∀ line ∈ s.next?, line.OwnOperands))

/-- Two runs of a formula with the same store, at the same line unless they have ended. -/
structure RunAlike (s t : RunState R) : Prop where
  store : s.state.store = t.state.store
  iCurrent : s.ended = false → s.state.iCurrent = t.state.iCurrent
  formula : s.formula = t.formula
  dtDate : s.dtDate = t.dtDate
  runID : IsLong s.runID
  runID' : IsLong t.runID
  ended : s.ended = t.ended

theorem RunState.running_of_next? {s : RunState R} {line : TFormula} (h : s.next? = some line) :
    s.ended = false := by
  by_contra hended
  rw [RunState.next?, if_pos (.inl (by simpa using hended))] at h
  cases h

theorem RunAlike.next? {s t : RunState R} (h : RunAlike s t) : s.next? = t.next? := by
  cases hended : s.ended with
  | true =>
    have hended' : t.ended = true := h.ended ▸ hended
    rw [RunState.next?, RunState.next?, if_pos (.inl hended), if_pos (.inl hended')]
  | false => rw [RunState.next?, RunState.next?, h.ended, h.formula, h.iCurrent hended]

/-- One line on both sides. -/
theorem RunAlike.step {s t : RunState R} (h : RunAlike s t) (hown : s.NextOwn) :
    RunAlike (s.step conv env) (t.step conv env) := by
  unfold RunState.step
  rw [← h.next?]
  cases hnext : s.next? with
  | none => exact ⟨h.store, Bool.noConfusion, h.formula, h.dtDate, h.runID, h.runID', rfl⟩
  | some line =>
    have hline := respects_calculateLine conv env s.dtDate (hown line hnext) h.runID h.runID'
    have hsame : SameStore s.state t.state :=
      ⟨h.store, h.iCurrent (RunState.running_of_next? hnext), fun _ => False.elim⟩
    rw [← h.dtDate]
    rcases hline _ _ hsame with ⟨_, _, s', t', hs, ht, -, h'⟩ | ⟨_, _, s', t', hs, ht, h'⟩
    · simp only [hs, ht, ← h'.iCurrent]
      cases toInteger (s'.iCurrent + 1) with
      | ok i => exact ⟨h'.store, fun _ => rfl, h.formula, rfl, h.runID, h.runID', h.ended⟩
      | error e => exact ⟨h'.store, Bool.noConfusion, h.formula, rfl, h.runID, h.runID', rfl⟩
    · simp only [hs, ht]
      exact ⟨h'.store, Bool.noConfusion, h.formula, rfl, h.runID, h.runID', rfl⟩

theorem RunAlike.run {s t : RunState R} (h : RunAlike s t) {envs : List LineEnv}
    (hown : (calculator conv).EachStep (fun s _ => s.NextOwn) s envs) :
    executed conv s envs = executed conv t envs ∧
      RunAlike ((calculator conv).after s envs) ((calculator conv).after t envs) := by
  induction envs generalizing s t with
  | nil => exact ⟨rfl, h⟩
  | cons env envs ih =>
    obtain ⟨hexec, hafter⟩ := ih (h.step conv env hown.1) hown.2
    refine ⟨?_, hafter⟩
    rw [executed, executed, ← hexec, ← h.next?]
    cases hnext : s.next? with
    | none => rfl
    | some line => rw [h.iCurrent (RunState.running_of_next? hnext)]

/-- Runs of a formula from the same store, whatever is in the objects. -/
theorem runAlike_start (c c' : CalcState R) (store : ℤ → VbString) (formula : CFormula)
    (dtDate : ℤ) {runID runID' : ℤ} (hid : IsLong runID) (hid' : IsLong runID') :
    RunAlike (.start { c with store } formula dtDate runID)
      (.start { c' with store } formula dtDate runID') := by
  unfold RunState.start
  cases toInteger formula.lineMin with
  | error e => exact ⟨rfl, Bool.noConfusion, rfl, rfl, hid, hid', rfl⟩
  | ok first =>
    cases toInteger formula.lineMax with
    | error e => exact ⟨rfl, Bool.noConfusion, rfl, rfl, hid, hid', rfl⟩
    | ok last => exact ⟨rfl, fun _ => rfl, rfl, rfl, hid, hid', rfl⟩

/-- **Formula lines depend only on their own operands.**  Whatever a calculator has calculated
before, the same formula from the same store with the same answers and clock executes the same
lines and leaves the same store, as long as each executed line loads the operands it uses. -/
theorem runs_alike (c : CalcState R) (past past' : List PastRun) (store : ℤ → VbString)
    (formula : CFormula) (dtDate : ℤ) {runID runID' : ℤ} (hid : IsLong runID)
    (hid' : IsLong runID') {envs : List LineEnv}
    (hown : (calculator conv).EachStep (fun s _ => s.NextOwn)
      (beginRun conv c past store formula dtDate runID) envs) :
    executed conv (beginRun conv c past store formula dtDate runID) envs =
        executed conv (beginRun conv c past' store formula dtDate runID') envs ∧
      ((calculator conv).after (beginRun conv c past store formula dtDate runID) envs).state.store =
        ((calculator conv).after (beginRun conv c past' store formula dtDate runID')
          envs).state.store := by
  have hstart := runAlike_start (past.foldl (afterRun conv) c) (past'.foldl (afterRun conv) c)
    store formula dtDate hid hid'
  obtain ⟨hexec, hafter⟩ := hstart.run conv hown
  exact ⟨hexec, hafter.store⟩

/-- A line that puts a number into the first operand and does nothing with it. -/
def loadLine (operand : VbString) : TFormula :=
  { TFormula.blank with lineID := 1, operand1 := operand, type1 := vb "CONST" }

/-- A run that leaves a number in the first operand. -/
def loadRun (operand : VbString) : PastRun :=
  ⟨⟨2, 1, 1, 1, [.blank, loadLine operand]⟩, 3313267200, 1, [⟨3313267200, 0, [], none, none⟩]⟩

/-- A formula whose first line jumps to line 3, by a number or by the name of a line. -/
def jumpFormula (type : VbString) : CFormula :=
  ⟨3, 1, 3, 1, [.blank, { TFormula.blank with
    lineID := 1, functionCode := vb "GOTO", operand1 := vb "3", type1 := type }, .blank, .blank]⟩

/-- Three lines without answers. -/
def threeLines : List LineEnv := List.replicate 3 ⟨3313267200, 0, [], none, none⟩

theorem runs_alike_const :
    executed plainConvert (beginRun plainConvert exampleState [] exampleState.store
        (jumpFormula (vb "CONST")) 3313267200 5) threeLines =
      executed plainConvert (beginRun plainConvert exampleState [loadRun (vb "2")]
        exampleState.store (jumpFormula (vb "CONST")) 3313267200 6) threeLines :=
  (runs_alike plainConvert exampleState [] [loadRun (vb "2")] exampleState.store
    (jumpFormula (vb "CONST")) 3313267200 ⟨by decide, by decide⟩ ⟨by decide, by decide⟩
    (by decide +kernel)).1

/-- A jump by the name of a line goes where an earlier run happened to leave the operand. -/
theorem gotoLine_depends_on_past :
    executed plainConvert (beginRun plainConvert exampleState [loadRun (vb "2")]
        exampleState.store (jumpFormula (vb "LINE")) 3313267200 5) threeLines ≠
      executed plainConvert (beginRun plainConvert exampleState [loadRun (vb "3")]
        exampleState.store (jumpFormula (vb "LINE")) 3313267200 5) threeLines := by
  decide +kernel

end Sis

end Edps
