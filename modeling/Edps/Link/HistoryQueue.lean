import Edps.Leis.Queue
import Edps.Lib.Heap
import Edps.Lib.Runs
import Edps.Sis.Replies

/-!
# History values on their way to LEIS

An assignment of `Value` to a record with a data set name queues its values with LEIS, one
`WriteQueue` call after the other.  LEIS serves the calls of all assignments one at a time; between
any two of them it may be told to deny or allow the connection or to maintain the database, and
the connection may break.

* `Assignment.next`, `letValue_eq` : an assignment up to its next call; run to its end it is
  `Value` Let.
* `queue` : assignments and LEIS, in any order of steps.
* `accounted_iff` : no value is lost in a run, and no text of a failure is left unseen, exactly when
  LEIS is available at every call, and the loop over a group value is left at the end of the value.

A text that comes back is assigned to `sRetStr` or to nothing, and the second attempt it was meant
for is commented out; so a value whose call is refused is gone (`not_accounted_denied`).
-/

namespace Edps

namespace Link

open Vb Sis Leis

variable {R : Runtime}

/-! ### Assignments -/

/-- An assignment of `Value` that has not returned. -/
inductive Assignment where
  /-- before the call for a record that is no group -/
  | plain (row : HistRow)
  /-- at `nPos` in the loop over a group value -/
  | group (value : VbString) (runID procTime evenTime nPos : ℤ)
  deriving DecidableEq, Repr

/-- `Value` Let, where `Datum.Value` has been set. -/
def assign (d : Datum R) : Except VbError (Option Assignment) := do
  if d.isAuto2LEIS then
    if d.linkType = vb "SGR" then
      let vMeId ← cLngOf d.someID
      let vDate1 ← toDate d.date1
      let vDate2 ← toDate d.date2
      return some (.group (toText d.value) vMeId vDate2 vDate1 1)
    else
      return some (.plain (← d.histRow))
  else
    return none

/-- Up to the next `WriteQueue` call: the call, and the assignment behind it unless that is its
end; none when the loop is left. -/
def Assignment.next (R : Runtime) :
    Assignment → Except VbError (Option (HistRow × Option Assignment))
  | .plain row => return some (row, none)
  | .group value runID procTime evenTime nPos => do
    let (idText, nPos) ← getPartValue (R := R) value nPos
    let nId ← cInt R.numeric idText
    if nId = 0 then
      return none
    let (sValue, nPos) ← getPartValue (R := R) value nPos
    return some (⟨nId, procTime, sValue, runID, evenTime⟩,
      some (.group value runID procTime evenTime nPos))

/-- An assignment run to its end. -/
def Assignment.run (env : LineEnv) : ℕ → Assignment → CalcM R Unit
  | 0, _ => return
  | fuel + 1, a => do
    let call ← liftE (a.next R)
    call.elim (pure ()) fun c => do
      Sis.writeQueue env c.1
      c.2.elim (pure ()) (run env fuel)

/-- The calls of a group are those of its loop. -/
theorem run_group (env : LineEnv) (value : VbString) (runID procTime evenTime : ℤ) (fuel : ℕ)
    (nPos : ℤ) : Assignment.run (R := R) env fuel (.group value runID procTime evenTime nPos) =
      queueGroup env value runID procTime evenTime fuel nPos := by
  induction fuel generalizing nPos with
  | zero => rfl
  | succ fuel ih =>
    rw [Assignment.run, queueGroup, Assignment.next]
    cases getPartValue (R := R) value nPos with
    | error e => rfl
    | ok part =>
      obtain ⟨idText, pos₁⟩ := part
      show (liftE (cInt R.numeric idText >>= _) >>= _) = (liftE (cInt R.numeric idText) >>= _)
      cases cInt R.numeric idText with
      | error e => rfl
      | ok nId =>
        by_cases hzero : nId = 0
        · subst hzero
          rfl
        · show (liftE (if nId = 0 then _ else getPartValue (R := R) value pos₁ >>= _) >>= _) =
            if nId = 0 then _ else liftE (getPartValue (R := R) value pos₁) >>= _
          rw [if_neg hzero, if_neg hzero]
          cases getPartValue (R := R) value pos₁ with
          | error e => rfl
          | ok part => exact bind_congr fun _ => ih part.2

/-- **An assignment run to its end is `Value` Let.** -/
theorem letValue_eq (env : LineEnv) (v : OpVar) (vNewValue : Variant R) :
    letValue env v vNewValue = (do
      modifyOp v fun d => { d with value := vNewValue }
      let d ← getOp v
      let a ← liftE (assign d)
      a.elim (pure ()) (Assignment.run env ((toText d.value).length + 1))) := by
  unfold letValue
  refine bind_congr fun _ => bind_congr fun d => ?_
  unfold assign
  by_cases hauto : d.isAuto2LEIS = true
  · rw [if_pos hauto, if_pos hauto]
    by_cases hgroup : d.linkType = vb "SGR"
    · rw [if_pos hgroup, if_pos hgroup]
      cases cLngOf d.someID with
      | error e => rfl
      | ok vMeId =>
        cases toDate d.date1 with
        | error e => rfl
        | ok vDate1 =>
          cases toDate d.date2 with
          | error e => rfl
          | ok vDate2 => exact (run_group ..).symm
    · rw [if_neg hgroup, if_neg hgroup]
      cases d.histRow with
      | error e => rfl
      | ok row => exact (bind_pure (Sis.writeQueue env row)).symm
  · rw [if_neg hauto, if_neg hauto]
    rfl

/-! ### Steps -/

/-- The pair at a place of a group value, and the place behind it. -/
def readPair (R : Runtime) (value : VbString) (nPos : ℤ) :
    Except VbError ((ℤ × VbString) × ℤ) := do
  let (idText, nPos) ← getPartValue (R := R) value nPos
  let nId ← cInt R.numeric idText
  let (sValue, nPos) ← getPartValue (R := R) value nPos
  return ((nId, sValue), nPos)

/-- The pairs of a group value from a place on, as far as they can be read. -/
def pairsFrom (R : Runtime) (value : VbString) : ℕ → ℤ → List (ℤ × VbString)
  | 0, _ => []
  | fuel + 1, nPos =>
    if value.length < nPos then []
    else
      match readPair R value nPos with
      | .error _ => []
      | .ok (p, nPos) => p :: pairsFrom R value fuel nPos

/-- The rows an assignment has still to queue. -/
def Assignment.rest (R : Runtime) : Assignment → List HistData
  | .plain row => [histData row]
  | .group value runID procTime evenTime nPos =>
    (pairsFrom R value (value.length + 1) nPos).map fun p =>
      histData ⟨p.1, procTime, p.2, runID, evenTime⟩

/-- Assignments and LEIS.  The last two are for the account only. -/
structure QueueState where
  db : DB
  assignments : Heap Assignment
  /-- What has been inserted into `tblHistData`. -/
  inserted : List HistData
  /-- What has been assigned. -/
  assigned : List HistData
  /-- What an error has been raised for. -/
  reported : List HistData

/-- LEIS is there. -/
def QueueState.init (db : DB) : QueueState := ⟨db, [], [], [], []⟩

/-- What can happen. -/
inductive Step (R : Runtime) where
  /-- `Value` Let of a record, up to its first call. -/
  | assign (d : Datum R)
  /-- The next call of an assignment; it may not come through. -/
  | call (n : ℕ) (raised : Option VbError) (e : Engine)
  /-- `DenyConnection` -/
  | denyConnection (pending : Bool)
  /-- `AllowConnection` -/
  | allowConnection
  /-- `Maintenance`: `KillMasterSent`, and `MantainDatabase` up to the compaction. -/
  | maintenance (e : Engine) (pending : Bool)
  /-- `MantainDatabase` from `MExit` on. -/
  | mExit
  /-- Another statement. -/
  | sqlExecute (e : Engine) (strCmdText : VbString)
  /-- `Conn_Disconnect` -/
  | disconnect

namespace QueueState

/-- `Value` Let goes on, or returns. -/
def goOn (s : QueueState) (n : ℕ) : Option Assignment → QueueState
  | some a => { s with assignments := s.assignments.store n a }
  | none => { s with assignments := s.assignments.delete n }

/-- `Value` Let is left by an error. -/
def raise (R : Runtime) (s : QueueState) (n : ℕ) (a : Assignment) : QueueState :=
  { s.goOn n none with reported := s.reported ++ a.rest R }

/-- The next call of an assignment, and the text that comes back, which is not looked at. -/
def call (R : Runtime) (set : Settings) (s : QueueState) (n : ℕ) (raised : Option VbError)
    (e : Engine) : QueueState × Option VbString :=
  match s.assignments.get n with
  | none => (s, none)
  | some a =>
    match a.next R with
    | .error _ => (s.raise R n a, none)
    | .ok none => (s.goOn n none, none)
    | .ok (some (row, a')) =>
      match raised.elim (Leis.writeQueue set e row s.db) .error with
      | .error _ => (s.raise R n a, none)
      | .ok q => ({ s.goOn n a' with db := q.db, inserted := s.inserted ++ q.rows }, some q.ret)

/-- `KillMasterSent` -/
def killMasterSent : VbString :=
  vb "DELETE tblHistData.* FROM tblHistData WHERE tblHistData.MasterDone = True"

/-- One step. -/
def next (set : Settings) (s : QueueState) : Step R → QueueState × Option VbString
  | .assign d =>
    match assign d with
    | .ok (some a) => ({ s with
        assignments := s.assignments.new a, assigned := s.assigned ++ a.rest R }, none)
    | _ => (s, none)
  | .call n raised e => s.call R set n raised e
  | .denyConnection pending => ({ s with db := s.db.letConnPermission false pending }, none)
  | .allowConnection => ({ s with db := s.db.letConnPermission true false }, none)
  | .maintenance e pending =>
    let db := (s.db.sqlExecute set.iRepQty e killMasterSent).2
    ({ s with db := db.letConnPermission false pending }, none)
  | .mExit => ({ s with db := s.db.letConnPermission true false }, none)
  | .sqlExecute e strCmdText =>
    ({ s with db := (s.db.sqlExecute set.iRepQty e strCmdText).2 }, none)
  | .disconnect => ({ s with db := { s.db with bConnStatus := false } }, none)

end QueueState

/-- Assignments and LEIS, in any order of steps; put out is the text of a call. -/
def queue (R : Runtime) (set : Settings) : Machine QueueState (Step R) (Option VbString) :=
  ⟨QueueState.next set⟩

/-! ### What a run should keep -/

/-- Every row that was assigned has been inserted, an error has been raised for it, or its
assignment has not returned. -/
def Accounted (R : Runtime) (s : QueueState) : Prop :=
  ∀ row, s.assigned.count row = s.inserted.count row + s.reported.count row +
    s.assignments.total fun a => (a.rest R).count row

/-- A step loses no value, and no text of a failure. -/
structure Kept (set : Settings) (s : QueueState) (i : Step R) : Prop where
  accounted : Accounted R ((queue R set).next s i).1
  answered : ∀ ret, ((queue R set).next s i).2 = some ret → ret = []

/-- A loop that is left has read the whole value, and LEIS is available to a call. -/
structure CarefulCall (R : Runtime) (set : Settings) (s : QueueState) (n : ℕ)
    (raised : Option VbError) (e : Engine) : Prop where
  complete : ∀ a, s.assignments.get n = some a → a.next R = .ok none → a.rest R = []
  available : ∀ a row a', s.assignments.get n = some a → a.next R = .ok (some (row, a')) →
    raised = none → ¬ Overflows row → s.db.Available set.iRepQty e

/-- The condition on a step. -/
def Step.Careful (set : Settings) (s : QueueState) : Step R → Prop
  | .call n raised e => CarefulCall R set s n raised e
  | _ => True

/-! ### The pairs of a group value -/

theorem readPair_ok {value : VbString} {nPos nPos' : ℤ} {p : ℤ × VbString} :
    readPair R value nPos = .ok (p, nPos') ↔
      ∃ idText pos₁, getPartValue (R := R) value nPos = .ok (idText, pos₁) ∧
        cInt R.numeric idText = .ok p.1 ∧ getPartValue (R := R) value pos₁ = .ok (p.2, nPos') := by
  unfold readPair
  constructor
  · intro h
    obtain ⟨⟨idText, pos₁⟩, hid, h⟩ := bind_eq_ok.1 h
    obtain ⟨nId, hnum, h⟩ := bind_eq_ok.1 h
    obtain ⟨⟨sValue, pos₂⟩, hvalue, heq⟩ := bind_eq_ok.1 h
    obtain ⟨rfl, rfl⟩ := Prod.mk.inj (Except.ok.inj heq)
    exact ⟨idText, pos₁, hid, hnum, hvalue⟩
  · rintro ⟨idText, pos₁, hid, hnum, hvalue⟩
    exact bind_eq_ok.2 ⟨_, hid, bind_eq_ok.2 ⟨_, hnum, bind_eq_ok.2 ⟨_, hvalue, rfl⟩⟩⟩

/-- A pair takes three characters at least. -/
theorem readPair_le {value : VbString} {nPos nPos' : ℤ} {p : ℤ × VbString}
    (hin : ¬ value.length < nPos) (h : readPair R value nPos = .ok (p, nPos')) :
    nPos + 3 ≤ nPos' := by
  obtain ⟨idText, pos₁, hid, -, hvalue⟩ := readPair_ok.1 h
  have hfirst := (getPartValue_le hid).2
  have hsecond := (getPartValue_le hvalue).2
  omega

/-- The length of the value is fuel enough. -/
theorem pairsFrom_succ {value : VbString} {fuel : ℕ} {nPos : ℤ} (h : value.length < fuel + nPos) :
    pairsFrom R value (fuel + 1) nPos = pairsFrom R value fuel nPos := by
  induction fuel generalizing nPos with
  | zero => exact if_pos (by simpa using h)
  | succ fuel ih =>
    rw [pairsFrom, pairsFrom]
    by_cases hend : value.length < nPos
    · rw [if_pos hend, if_pos hend]
    · rw [if_neg hend, if_neg hend]
      cases hpair : readPair R value nPos with
      | error e => rfl
      | ok r =>
        have hle := readPair_le hend hpair
        exact congrArg (r.1 :: ·) (ih (by push_cast at h; omega))

/-- **What a call leaves to be queued.** -/
theorem rest_of_next {a : Assignment} {row : HistRow} {a' : Option Assignment}
    (h : a.next R = .ok (some (row, a'))) :
    a.rest R = histData row :: a'.elim [] (Assignment.rest R) := by
  cases a with
  | plain row₀ =>
    obtain ⟨rfl, rfl⟩ := Prod.mk.inj (Option.some.inj (Except.ok.inj h))
    rfl
  | group value runID procTime evenTime nPos =>
    rw [Assignment.next, bind_eq_ok] at h
    obtain ⟨⟨idText, pos₁⟩, hid, h⟩ := h
    rw [bind_eq_ok] at h
    obtain ⟨nId, hnum, h⟩ := h
    by_cases hzero : nId = 0
    · rw [if_pos hzero] at h
      cases h
    rw [if_neg hzero, bind_eq_ok] at h
    obtain ⟨⟨sValue, pos₂⟩, hvalue, h⟩ := h
    obtain ⟨rfl, rfl⟩ := Prod.mk.inj (Option.some.inj (Except.ok.inj h))
    -- behind the end of the value there would be a zero
    have hin : ¬ value.length < nPos := by
      intro hend
      rw [getPartValue_end hend] at hid
      obtain ⟨rfl, rfl⟩ := Prod.mk.inj (Except.ok.inj hid)
      rw [cInt_zero] at hnum
      exact hzero (Except.ok.inj hnum).symm
    have hpair : readPair R value nPos = .ok ((nId, sValue), pos₂) :=
      readPair_ok.2 ⟨idText, pos₁, hid, hnum, hvalue⟩
    have hpos := (getPartValue_le hid).1
    have hle := readPair_le hin hpair
    have hfuel : pairsFrom R value value.length pos₂ =
        pairsFrom R value (value.length + 1) pos₂ := (pairsFrom_succ (by omega)).symm
    rw [Assignment.rest, pairsFrom, if_neg hin, hpair]
    simp only [hfuel, List.map_cons]
    rfl

/-! ### One step -/

section Step

variable {set : Settings} {s : QueueState} {n : ℕ} {a : Assignment}

theorem total_goOn (hget : s.assignments.get n = some a) (a' : Option Assignment)
    (f : Assignment → ℕ) :
    (s.goOn n a').assignments.total f + f a = s.assignments.total f + a'.elim 0 f := by
  cases a' with
  | none => exact Heap.total_delete hget
  | some a' => exact Heap.total_store hget

/-- An error is raised for everything that is still to be queued. -/
theorem Accounted.raise (h : Accounted R s) (hget : s.assignments.get n = some a) :
    Accounted R (s.raise R n a) := by
  intro row
  have hrow := h row
  have htotal := total_goOn hget none fun a => (a.rest R).count row
  simp only [Option.elim_none] at htotal
  show s.assigned.count row = s.inserted.count row + (s.reported ++ a.rest R).count row +
    (s.goOn n none).assignments.total fun a => (a.rest R).count row
  rw [List.count_append]
  omega

/-- A loop may be left when nothing is left to be queued. -/
theorem Accounted.leave_iff (h : Accounted R s) (hget : s.assignments.get n = some a) :
    Accounted R (s.goOn n none) ↔ a.rest R = [] := by
  have hrow (row : HistData) : s.assigned.count row = s.inserted.count row +
      s.reported.count row + ((s.goOn n none).assignments.total fun a => (a.rest R).count row) +
        (a.rest R).count row := by
    have htotal := total_goOn hget none fun a => (a.rest R).count row
    simp only [Option.elim_none] at htotal
    rw [h row]
    omega
  constructor
  · intro hleft
    refine List.eq_nil_iff_forall_not_mem.2 fun row hmem => ?_
    have hpos := List.count_pos_iff.2 hmem
    have hsame : s.assigned.count row = s.inserted.count row + s.reported.count row +
        (s.goOn n none).assignments.total fun a => (a.rest R).count row := hleft row
    rw [hrow row] at hsame
    omega
  · intro hnil row
    have hcount := hrow row
    rw [hnil, List.count_nil, Nat.add_zero] at hcount
    exact hcount

/-- A row is inserted. -/
theorem Accounted.insert (h : Accounted R s) (hget : s.assignments.get n = some a)
    {row : HistData} {a' : Option Assignment}
    (hrest : a.rest R = row :: a'.elim [] (Assignment.rest R)) (db : DB) :
    Accounted R { s.goOn n a' with db, inserted := s.inserted ++ [row] } := by
  intro r
  have hrow := h r
  have htotal := total_goOn hget a' fun a => (a.rest R).count r
  have hcount : (a.rest R).count r =
      [row].count r + a'.elim 0 fun a => (a.rest R).count r := by
    rw [hrest, ← List.singleton_append, List.count_append]
    cases a' <;> rfl
  have hsame : (s.goOn n a').assigned = s.assigned ∧ (s.goOn n a').reported = s.reported := by
    cases a' <;> exact ⟨rfl, rfl⟩
  simp only [hsame.1, hsame.2, List.count_append]
  omega

/-- A call that LEIS serves: the text that comes back is not looked at. -/
theorem Accounted.served (h : Accounted R s) (hget : s.assignments.get n = some a)
    {row : HistRow} {a' : Option Assignment} (hnext : a.next R = .ok (some (row, a')))
    {e : Engine} {q : Queued} (hq : Leis.writeQueue set e row s.db = .ok q) :
    Kept set s (.call (R := R) n none e) ↔ s.db.Available set.iRepQty e := by
  have hstep : (queue R set).next s (.call n none e) =
      ({ s.goOn n a' with db := q.db, inserted := s.inserted ++ q.rows }, some q.ret) := by
    show s.call R set n none e = _
    simp only [QueueState.call, hget, hnext, Option.elim_none, hq]
  rcases writeQueue_cases hq with ⟨havailable, hret, hrows⟩ | ⟨hnot, hret, -⟩
  · refine iff_of_true ⟨?_, fun ret heq => ?_⟩ havailable
    · rw [hstep, hrows]
      exact h.insert hget (rest_of_next hnext) q.db
    · rw [hstep] at heq
      rw [← Option.some.inj heq, hret]
  · -- the text is lost, and the row with it
    refine iff_of_false (fun hkept => hret (hkept.answered q.ret ?_)) hnot
    rw [hstep]

/-- The condition on a call of an assignment that has not returned. -/
theorem carefulCall_iff {raised : Option VbError} {e : Engine}
    (hget : s.assignments.get n = some a) : CarefulCall R set s n raised e ↔
      (a.next R = .ok none → a.rest R = []) ∧ ∀ row a', a.next R = .ok (some (row, a')) →
        raised = none → ¬ Overflows row → s.db.Available set.iRepQty e := by
  constructor
  · intro h
    exact ⟨h.complete a hget, fun row a' => h.available a row a' hget⟩
  · rintro ⟨hcomplete, havailable⟩
    refine ⟨fun b hb => ?_, fun b row a' hb => ?_⟩
    · rw [hget] at hb
      rwa [← Option.some.inj hb]
    · rw [hget] at hb
      rw [← Option.some.inj hb]
      exact havailable row a'

/-- **A call** keeps the account exactly when the condition on it is met. -/
theorem Accounted.call (h : Accounted R s) (n : ℕ) (raised : Option VbError) (e : Engine) :
    Kept set s (.call (R := R) n raised e) ↔ CarefulCall R set s n raised e := by
  -- a step without a text
  have hsilent {s' : QueueState} (hstep : (queue R set).next s (.call n raised e) = (s', none)) :
      Kept set s (.call (R := R) n raised e) ↔ Accounted R s' := by
    constructor
    · intro hkept
      have haccounted := hkept.accounted
      rwa [hstep] at haccounted
    · intro haccounted
      refine ⟨by rwa [hstep], fun ret hret => ?_⟩
      rw [hstep] at hret
      cases hret
  cases hget : s.assignments.get n with
  | none =>
    have hstep : s.call R set n raised e = (s, none) := by rw [QueueState.call, hget]
    refine (hsilent hstep).trans (iff_of_true h ⟨fun a ha => ?_, fun a row a' ha => ?_⟩)
    · rw [hget] at ha
      cases ha
    · rw [hget] at ha
      cases ha
  | some a =>
    rw [carefulCall_iff hget]
    cases hnext : a.next R with
    | error err =>
      -- the value cannot be read on
      have hstep : s.call R set n raised e = (s.raise R n a, none) := by
        simp only [QueueState.call, hget, hnext]
      exact (hsilent hstep).trans (iff_of_true (h.raise hget)
        ⟨fun hnone => (by cases hnone), fun row a' hsome => (by cases hsome)⟩)
    | ok next =>
      cases next with
      | none =>
        have hstep : s.call R set n raised e = (s.goOn n none, none) := by
          simp only [QueueState.call, hget, hnext]
        refine (hsilent hstep).trans ((h.leave_iff hget).trans ⟨fun hnil =>
          ⟨fun _ => hnil, fun row a' hsome => (by cases hsome)⟩, fun hc => hc.1 rfl⟩)
      | some next =>
        obtain ⟨row, a'⟩ := next
        cases hcalled : raised.elim (Leis.writeQueue set e row s.db) .error with
        | error err =>
          -- the call raises an error
          have hstep : s.call R set n raised e = (s.raise R n a, none) := by
            simp only [QueueState.call, hget, hnext, hcalled]
          refine (hsilent hstep).trans (iff_of_true (h.raise hget)
            ⟨fun hnone => (by cases hnone), fun row' b hsome hraised hfits => ?_⟩)
          cases hsome
          subst hraised
          exact absurd ((writeQueue_error set e row s.db).1 ⟨err, hcalled⟩) hfits
        | ok q =>
          cases raised with
          | some err => cases hcalled
          | none =>
            refine (h.served hget hnext hcalled).trans ⟨fun havailable => ⟨fun hnone => (by
              cases hnone), fun _ _ _ _ _ => havailable⟩, fun hc => hc.2 row a' rfl rfl ?_⟩
            intro hlong
            obtain ⟨err, herr⟩ := (writeQueue_error set e row s.db).2 hlong
            rw [herr] at hcalled
            cases hcalled

end Step

/-! ### Runs -/

/-- A step keeps the account exactly when the condition on it is met. -/
theorem Accounted.step {set : Settings} (s : QueueState) (i : Step R) (h : Accounted R s) :
    Kept set s i ↔ i.Careful set s := by
  have hsame {s' : QueueState} (hstep : (queue R set).next s i = (s', none))
      (haccounted : Accounted R s') : Kept set s i :=
    ⟨by rwa [hstep], fun ret hret => by rw [hstep] at hret; cases hret⟩
  cases i with
  | call n raised e => exact h.call n raised e
  | assign d =>
    refine iff_of_true ?_ trivial
    cases hassign : assign d with
    | error err => exact hsame (by simp only [queue, QueueState.next, hassign]) h
    | ok a =>
      cases a with
      | none => exact hsame (by simp only [queue, QueueState.next, hassign]) h
      | some a =>
        refine hsame (by simp only [queue, QueueState.next, hassign]; rfl) fun row => ?_
        simp only [List.count_append, Heap.total_new, h row]
        omega
  | denyConnection pending => exact iff_of_true (hsame rfl h) trivial
  | allowConnection => exact iff_of_true (hsame rfl h) trivial
  | maintenance e pending => exact iff_of_true (hsame rfl h) trivial
  | mExit => exact iff_of_true (hsame rfl h) trivial
  | sqlExecute e strCmdText => exact iff_of_true (hsame rfl h) trivial
  | disconnect => exact iff_of_true (hsame rfl h) trivial

theorem accounted_init (db : DB) : Accounted R (.init db) := fun _ => rfl

/-- **No value is lost** in a run of assignments and LEIS, and no text of a failure is left unseen,
exactly when LEIS is available at every call that comes through, and every loop over a group value
is left at the end of the value. -/
theorem accounted_iff (R : Runtime) (set : Settings) (db : DB) (steps : List (Step R)) :
    (queue R set).EachStep (Kept set) (.init db) steps ↔
      (queue R set).EachStep (fun s i => i.Careful set s) (.init db) steps :=
  Machine.eachStep_iff_of_invariant (fun _ _ _ hkept => hkept.accounted) Accounted.step
    (accounted_init db)

def exampleSettings : Settings := ⟨3, 58, fun _ => vb "Dec"⟩

/-- Nothing fails in the engine. -/
def exampleEngine : Engine := ⟨fun _ => true, .ok ()⟩

/-- A group with the values 7 and 8. -/
def exampleGroup : Datum plainRuntime :=
  { exampleDatum with linkType := vb "SGR", value := .str (vb "002170017002180018") }

/-- The connection is denied before the call for a record, or between the two calls for a group;
the value of the record, and the second of the group, are lost. -/
theorem not_accounted_denied :
    (¬ (queue plainRuntime exampleSettings).EachStep (Kept exampleSettings) (.init ⟨true, true⟩)
      [.assign exampleDatum, .denyConnection false, .call 0 none exampleEngine]) ∧
    ¬ (queue plainRuntime exampleSettings).EachStep (Kept exampleSettings) (.init ⟨true, true⟩)
      [.assign exampleGroup, .call 0 none exampleEngine, .denyConnection false,
        .call 0 none exampleEngine] := by
  constructor
  · rintro ⟨-, -, ⟨haccounted, -⟩, -⟩
    have hrow := haccounted ⟨17, 3313353599, vb "-0.5", 0, some 3313267200⟩
    revert hrow
    decide +kernel
  · rintro ⟨-, -, -, ⟨haccounted, -⟩, -⟩
    have hrow := haccounted ⟨18, 3313353599, vb "8", 0, some 3313267200⟩
    revert hrow
    decide +kernel

end Link

end Edps
