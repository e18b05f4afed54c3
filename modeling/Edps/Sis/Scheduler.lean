import Edps.Lib.Runs
import Edps.Sis.SchedPTR
import Mathlib.Data.Nat.Cast.Basic

/-!
# The scheduler

`cScheduler` holds one `cSchedPTR` record for each formula with a schedule.  Every timer event
counts the records down and puts the formulas that are due into the `ToCalculate` queue.  The
first event puts the formulas of the start-up (`TimeLoop` -1) there and then waits in a `DoEvents`
loop until the queue is empty, and while it waits other events can run from beginning to end.

* `scheduler` : the events as a machine, with what each of them pushes.
* `countdown_at` : what one pass does to a record after `n` passes.
* `scheduling_counts` : how often, and when, each entry is pushed.
-/

namespace Edps

namespace Sis

open Vb

/-- `cSchedPTR`: the encoded data and the counters. -/
structure CSchedPTR where
  datum : SchedDatum
  timeLoop : ℤ
  left2Run : ℤ
  deriving DecidableEq, Repr

/-- The arguments of `AddSchedule`; a formula id is a `Long`. -/
structure ScheduleArgs where
  formulaID : ℤ
  timeLoop : ℤ
  isLong : -2147483648 ≤ formulaID ∧ formulaID ≤ 2147483647

/-- An id for examples. -/
theorem isLong_one : -2147483648 ≤ (1 : ℤ) ∧ (1 : ℤ) ≤ 2147483647 := by decide

/-- `TimeLoop` Let -/
def CSchedPTR.setTimeLoop (e : CSchedPTR) (vNewValue : ℤ) : CSchedPTR :=
  { e with timeLoop := vNewValue, left2Run := vNewValue }

/-- `AddSchedule` -/
def addSchedule (vSchedule : List CSchedPTR) (args : ScheduleArgs) : List CSchedPTR :=
  vSchedule ++ [⟨⟨args.formulaID, 0⟩, args.timeLoop, args.timeLoop⟩]

/-- A push to the `ToCalculate` queue, by `qm_push` or `qm_pushex`, with the index of the record
it is for. -/
structure Push where
  lCnt : ℕ
  sStr : VbString
  deriving DecidableEq, Repr

/-- The body of the first loop: the start-up formulas. -/
def autoexec (e : CSchedPTR) : CSchedPTR × Option VbString :=
  if e.timeLoop = -1 then
    let e := e.setTimeLoop 0
    (e, some e.datum.poolString)
  else (e, none)

/-- The body of the second loop: one pass of the countdown. -/
def countdown (e : CSchedPTR) : CSchedPTR × Option VbString :=
  if 0 < e.timeLoop then
    if 0 < e.left2Run then
      let e := { e with left2Run := e.left2Run - 1 }
      if e.left2Run = 0 then
        let e := { e with left2Run := e.timeLoop }
        (e, some e.datum.poolString)
      else (e, none)
    else (e, none)
  else (e, none)

/-- A loop over the records from index `lCnt` on. -/
def sweep (body : CSchedPTR → CSchedPTR × Option VbString) :
    ℕ → List CSchedPTR → List CSchedPTR × List Push
  | _, [] => ([], [])
  | lCnt, e :: es =>
    let (e', sStr) := body e
    let (es', pushes) := sweep body (lCnt + 1) es
    (e' :: es', (sStr.map (Push.mk lCnt)).toList ++ pushes)

/-- The state between two moments at which an event can be delivered. -/
structure SchedulerState where
  bFirstRun : Bool
  /-- The records from index 1 on. -/
  vSchedule : List CSchedPTR
  /-- The first event waits in its `DoEvents` loop. -/
  waiting : Bool

/-- What happens to the scheduler. -/
inductive TimerInput where
  /-- A timer event is delivered. -/
  | timer
  /-- The waiting event finds the queue empty. -/
  | queueEmpty
  deriving DecidableEq, Repr

/-- What a step is a part of. -/
inductive Phase where
  /-- Nothing. -/
  | idle
  /-- The first event up to its waiting loop. -/
  | autoexec
  /-- The countdown pass an event ends with. -/
  | pass
  deriving DecidableEq, Repr

/-- One step of the scheduler as its queue sees it. -/
structure SchedulerStep where
  phase : Phase
  pushed : List Push

/-- The countdown pass at the end of `tmrScheduler_Timer`. -/
def SchedulerState.pass (s : SchedulerState) (waiting : Bool) : SchedulerState × SchedulerStep :=
  let (vSchedule, pushed) := sweep countdown 1 s.vSchedule
  ({ s with vSchedule, waiting }, ⟨.pass, pushed⟩)

/-- `tmrScheduler_Timer`, cut where the first event waits. -/
def SchedulerState.step (s : SchedulerState) : TimerInput → SchedulerState × SchedulerStep
  | .timer =>
    if s.bFirstRun then
      let (vSchedule, pushed) := sweep autoexec 1 s.vSchedule
      (⟨false, vSchedule, true⟩, ⟨.autoexec, pushed⟩)
    else s.pass s.waiting
  | .queueEmpty => if s.waiting then s.pass false else (s, ⟨.idle, []⟩)

/-- The scheduler. -/
def scheduler : Machine SchedulerState TimerInput SchedulerStep := ⟨SchedulerState.step⟩

/-- The scheduler before its first event. -/
def SchedulerState.start (entries : List ScheduleArgs) : SchedulerState :=
  ⟨true, entries.foldl addSchedule [], false⟩

/-! ### Counting -/

/-- How often the record at `lCnt` is pushed in a step. -/
def SchedulerStep.pushes (lCnt : ℕ) (o : SchedulerStep) : ℕ :=
  o.pushed.countP fun p => p.lCnt = lCnt

/-- How often the record at `lCnt` has been pushed. -/
def pushCount (lCnt : ℕ) (outs : List SchedulerStep) : ℕ :=
  (outs.map (SchedulerStep.pushes lCnt)).sum

/-- The countdown passes; each of them completes an event. -/
def passes (outs : List SchedulerStep) : List SchedulerStep := outs.filter fun o => o.phase = .pass

/-! ### One loop over the records -/

theorem sweep_fst (body : CSchedPTR → CSchedPTR × Option VbString) (k : ℕ) (es : List CSchedPTR) :
    (sweep body k es).1 = es.map fun e => (body e).1 := by
  induction es generalizing k with
  | nil => rfl
  | cons e es ih => rw [sweep, List.map_cons, ← ih (k + 1)]

theorem le_of_mem_sweep {body : CSchedPTR → CSchedPTR × Option VbString} {k : ℕ}
    {es : List CSchedPTR} {p : Push} (h : p ∈ (sweep body k es).2) : k ≤ p.lCnt := by
  induction es generalizing k with
  | nil => cases h
  | cons e es ih =>
    rw [sweep, List.mem_append, Option.mem_toList, Option.map_eq_some_iff] at h
    rcases h with ⟨t, -, rfl⟩ | h
    · exact le_rfl
    · exact (ih h).trans' (Nat.le_succ k)

/-- A loop pushes a record at most once: if its body does. -/
theorem countP_sweep (body : CSchedPTR → CSchedPTR × Option VbString) {es : List CSchedPTR}
    {i : ℕ} {e : CSchedPTR} (h : es[i]? = some e) (k : ℕ) :
    ((sweep body k es).2.countP fun p => p.lCnt = k + i) = if (body e).2.isSome then 1 else 0 := by
  induction es generalizing i k with
  | nil => cases h
  | cons e₀ es ih =>
    rw [sweep, List.countP_append]
    cases i with
    | zero =>
      rw [List.getElem?_cons_zero, Option.some.injEq] at h
      subst h
      have hrest : ((sweep body (k + 1) es).2.countP fun p => p.lCnt = k + 0) = 0 := by
        refine List.countP_eq_zero.2 fun p hp => ?_
        have := le_of_mem_sweep hp
        simp
        omega
      rw [hrest]
      cases (body e₀).2 <;> simp
    | succ i =>
      rw [List.getElem?_cons_succ] at h
      have hfirst :
          (((body e₀).2.map (Push.mk k)).toList.countP fun p => p.lCnt = k + (i + 1)) = 0 := by
        cases (body e₀).2 <;> simp
      rw [hfirst, zero_add, ← ih h (k + 1), show k + (i + 1) = k + 1 + i by omega]

theorem exists_of_mem_sweep {body : CSchedPTR → CSchedPTR × Option VbString} {k : ℕ}
    {es : List CSchedPTR} {p : Push} (h : p ∈ (sweep body k es).2) :
    ∃ i e, es[i]? = some e ∧ p.lCnt = k + i ∧ (body e).2 = some p.sStr := by
  induction es generalizing k with
  | nil => cases h
  | cons e es ih =>
    rw [sweep, List.mem_append, Option.mem_toList, Option.map_eq_some_iff] at h
    rcases h with ⟨t, ht, rfl⟩ | h
    · exact ⟨0, e, rfl, rfl, ht⟩
    · obtain ⟨i, e', he', hp, ht⟩ := ih h
      exact ⟨i + 1, e', he', by omega, ht⟩

/-! ### One record -/

/-- The record of an entry after `n` passes, the first event having begun or not. -/
def ScheduleArgs.at (e : ScheduleArgs) (begun : Bool) (n : ℕ) : CSchedPTR :=
  if 0 < e.timeLoop then ⟨⟨e.formulaID, 0⟩, e.timeLoop, e.timeLoop - n % e.timeLoop⟩
  else if e.timeLoop = -1 ∧ begun then ⟨⟨e.formulaID, 0⟩, 0, 0⟩
  else ⟨⟨e.formulaID, 0⟩, e.timeLoop, e.timeLoop⟩

/-- The pool string of an entry. -/
def ScheduleArgs.poolString (e : ScheduleArgs) : VbString :=
  (⟨e.formulaID, 0⟩ : SchedDatum).poolString

/-- An entry that is due in pass `n`, counted from 1. -/
def ScheduleArgs.Due (e : ScheduleArgs) (n : ℕ) : Prop := 0 < e.timeLoop ∧ e.timeLoop ∣ n

instance (e : ScheduleArgs) (n : ℕ) : Decidable (e.Due n) :=
  inferInstanceAs (Decidable (0 < e.timeLoop ∧ e.timeLoop ∣ n))

theorem ScheduleArgs.at_of_pos (e : ScheduleArgs) (h : 0 < e.timeLoop) (begun : Bool) (n : ℕ) :
    e.at begun n = ⟨⟨e.formulaID, 0⟩, e.timeLoop, e.timeLoop - n % e.timeLoop⟩ := if_pos h

/-- Quotient and remainder after one more pass. -/
theorem succ_ediv_emod {T : ℤ} (hT : 0 < T) (n : ℕ) :
    if T ∣ (n + 1 : ℕ) then n % T = T - 1 ∧ (n + 1 : ℕ) % T = 0 ∧ (n + 1 : ℕ) / T = n / T + 1
    else n % T < T - 1 ∧ (n + 1 : ℕ) % T = n % T + 1 ∧ (n + 1 : ℕ) / T = n / T := by
  have hlt := Int.emod_lt_of_pos n hT
  have hnonneg := Int.emod_nonneg (n : ℤ) hT.ne'
  have hn : (n : ℤ) % T + T * (n / T) = n := Int.emod_add_mul_ediv n T
  by_cases hlast : n % T = T - 1
  · obtain ⟨hdiv, hmod⟩ := (Int.ediv_emod_unique (a := (n + 1 : ℕ)) (r := 0) (q := n / T + 1)
      hT).2 ⟨by push_cast; rw [mul_add]; omega, le_rfl, hT⟩
    rw [if_pos (Int.dvd_of_emod_eq_zero hmod)]
    exact ⟨hlast, hmod, hdiv⟩
  · obtain ⟨hdiv, hmod⟩ := (Int.ediv_emod_unique (a := (n + 1 : ℕ)) (r := n % T + 1)
      (q := n / T) hT).2 ⟨by push_cast; omega, by omega, by omega⟩
    rw [if_neg fun h => by have := Int.emod_eq_zero_of_dvd h; omega]
    exact ⟨by omega, hmod, hdiv⟩

/-- **The start-up loop**: an entry with `TimeLoop` -1 is pushed and switched off. -/
theorem autoexec_at (e : ScheduleArgs) :
    autoexec (e.at false 0) =
      (e.at true 0, if e.timeLoop = -1 then some e.poolString else none) := by
  by_cases hpos : 0 < e.timeLoop
  · have hne : e.timeLoop ≠ -1 := by omega
    simp [autoexec, ScheduleArgs.at, hpos, hne]
  · by_cases hone : e.timeLoop = -1
    · simp [autoexec, ScheduleArgs.at, CSchedPTR.setTimeLoop, ScheduleArgs.poolString, hone]
    · simp [autoexec, ScheduleArgs.at, hpos, hone]

/-- **One pass**: an entry with a positive `TimeLoop` is pushed in every pass that is a multiple of
it. -/
theorem countdown_at (e : ScheduleArgs) (n : ℕ) :
    countdown (e.at true n) =
      (e.at true (n + 1), if e.Due (n + 1) then some e.poolString else none) := by
  by_cases hpos : 0 < e.timeLoop
  · have hstep := succ_ediv_emod hpos n
    have hlt := Int.emod_lt_of_pos n hpos
    have hdue : e.Due (n + 1) ↔ e.timeLoop ∣ (n + 1 : ℕ) := and_iff_right hpos
    simp only [countdown, e.at_of_pos hpos, hdue]
    rw [if_pos hpos, if_pos (by omega)]
    by_cases hdvd : e.timeLoop ∣ (n + 1 : ℕ)
    · -- the counter starts again
      rw [if_pos hdvd] at hstep
      rw [if_pos (by omega), if_pos hdvd, hstep.2.1, sub_zero]
      rfl
    · rw [if_neg hdvd] at hstep
      rw [if_neg (by omega), if_neg hdvd, hstep.2.1, sub_sub]
  · have hdue : ¬ e.Due (n + 1) := fun h => hpos h.1
    by_cases hone : e.timeLoop = -1
    · simp [countdown, ScheduleArgs.at, hone, hdue]
    · simp [countdown, ScheduleArgs.at, hpos, hone, hdue]

/-! ### Runs -/

/-- The scheduler after `n` passes, its records in step with the entries. -/
structure InStep (entries : List ScheduleArgs) (n : ℕ) (s : SchedulerState) : Prop where
  records : s.vSchedule = entries.map fun e => e.at (!s.bFirstRun) n
  first : s.bFirstRun = true → n = 0 ∧ s.waiting = false

theorem inStep_start (entries : List ScheduleArgs) :
    InStep entries 0 (SchedulerState.start entries) where
  records := by
    have hfold : ∀ es : List CSchedPTR, entries.foldl addSchedule es =
        es ++ entries.map fun e => e.at false 0 := by
      induction entries with
      | nil => simp
      | cons e entries ih =>
        intro es
        have hat : e.at false 0 = ⟨⟨e.formulaID, 0⟩, e.timeLoop, e.timeLoop⟩ := by
          simp [ScheduleArgs.at]
        rw [List.foldl_cons, ih, addSchedule, List.map_cons, hat, List.append_assoc]
        rfl
    simp [SchedulerState.start, hfold]
  first _ := ⟨rfl, rfl⟩

/-- What a step pushes for an entry, after `n` passes. -/
def pushesDue (e : ScheduleArgs) (n : ℕ) : Phase → ℕ
  | .idle => 0
  | .autoexec => if e.timeLoop = -1 then 1 else 0
  | .pass => if e.Due (n + 1) then 1 else 0

/-- The passes completed by a step. -/
def Phase.completed : Phase → ℕ
  | .pass => 1
  | _ => 0

/-- A loop over records that are in step with the entries. -/
theorem sweep_entries {body : CSchedPTR → CSchedPTR × Option VbString}
    {before behind : ScheduleArgs → CSchedPTR} {c : ScheduleArgs → Prop} [DecidablePred c]
    (hbody : ∀ e, body (before e) = (behind e, if c e then some e.poolString else none))
    (entries : List ScheduleArgs) :
    (sweep body 1 (entries.map before)).1 = entries.map behind ∧
      (∀ k e, entries[k]? = some e →
        ((sweep body 1 (entries.map before)).2.countP fun p => p.lCnt = k + 1) =
          if c e then 1 else 0) ∧
      ∀ p ∈ (sweep body 1 (entries.map before)).2, ∃ k e, entries[k]? = some e ∧
        p.lCnt = k + 1 ∧ p.sStr = e.poolString := by
  refine ⟨?_, fun k e he => ?_, fun p hp => ?_⟩
  · rw [sweep_fst, List.map_map]
    exact List.map_congr_left fun e _ => by rw [Function.comp_apply, hbody]
  · have hrecord : (entries.map before)[k]? = some (before e) := by rw [List.getElem?_map, he]; rfl
    have hcount := countP_sweep body hrecord 1
    rw [add_comm 1 k, hbody] at hcount
    rw [hcount]
    by_cases hc : c e <;> simp [hc]
  · obtain ⟨k, r, hr, hk, hpushed⟩ := exists_of_mem_sweep hp
    rw [List.getElem?_map, Option.map_eq_some_iff] at hr
    obtain ⟨e, he, rfl⟩ := hr
    refine ⟨k, e, he, by omega, ?_⟩
    rw [hbody] at hpushed
    split_ifs at hpushed
    exact (Option.some.inj hpushed).symm

/-- A step that runs one of the loops. -/
structure Looped (entries : List ScheduleArgs) (n : ℕ) (s' : SchedulerState) (o : SchedulerStep) :
    Prop where
  inStep : InStep entries (n + o.phase.completed) s'
  pushes : ∀ k e, entries[k]? = some e → o.pushes (k + 1) = pushesDue e n o.phase
  pushed : ∀ p ∈ o.pushed, ∃ k e, entries[k]? = some e ∧ p.lCnt = k + 1 ∧ p.sStr = e.poolString

/-- A countdown pass. -/
theorem looped_pass {entries : List ScheduleArgs} {n : ℕ} {s : SchedulerState}
    (h : InStep entries n s) (hrun : s.bFirstRun = false) (waiting : Bool) :
    Looped entries n (s.pass waiting).1 (s.pass waiting).2 := by
  have hrecords : s.vSchedule = entries.map fun e => e.at true n := by rw [h.records, hrun]; rfl
  obtain ⟨hstate, hcount, hmem⟩ := sweep_entries (fun e => countdown_at e n) entries
  rw [← hrecords] at hstate hcount hmem
  exact
    { inStep :=
        { records := by
            simp only [SchedulerState.pass, hstate, hrun]
            rfl
          first := fun hfirst => by
            simp [SchedulerState.pass, hrun] at hfirst }
      pushes := hcount
      pushed := hmem }

/-- **One step**: the records stay in step with the entries, each entry is pushed as it is due, and
what is pushed is the pool string of an entry. -/
theorem step_looped {entries : List ScheduleArgs} {n : ℕ} {s : SchedulerState}
    (h : InStep entries n s) (i : TimerInput) :
    Looped entries n (scheduler.next s i).1 (scheduler.next s i).2 := by
  cases i with
  | timer =>
    cases hrun : s.bFirstRun with
    | true =>
      -- the first event, up to its waiting loop
      obtain ⟨rfl, -⟩ := h.first hrun
      have hrecords : s.vSchedule = entries.map fun e => e.at false 0 := by
        rw [h.records, hrun]
        rfl
      obtain ⟨hstate, hcount, hmem⟩ := sweep_entries autoexec_at entries
      rw [← hrecords] at hstate hcount hmem
      have hnext : scheduler.next s .timer =
          (⟨false, (sweep autoexec 1 s.vSchedule).1, true⟩,
            ⟨.autoexec, (sweep autoexec 1 s.vSchedule).2⟩) := by
        simp [scheduler, SchedulerState.step, hrun]
      rw [hnext]
      exact
        { inStep := ⟨hstate, fun hfirst => by cases hfirst⟩
          pushes := hcount
          pushed := hmem }
    | false =>
      have hnext : scheduler.next s .timer = s.pass s.waiting := by
        simp [scheduler, SchedulerState.step, hrun]
      rw [hnext]
      exact looped_pass h hrun _
  | queueEmpty =>
    cases hwait : s.waiting with
    | true =>
      have hrun : s.bFirstRun = false := by
        by_contra hrun
        have := (h.first (by simpa using hrun)).2
        rw [hwait] at this
        cases this
      have hnext : scheduler.next s .queueEmpty = s.pass false := by
        simp [scheduler, SchedulerState.step, hwait]
      rw [hnext]
      exact looped_pass h hrun _
    | false =>
      have hnext : scheduler.next s .queueEmpty = (s, ⟨.idle, []⟩) := by
        simp [scheduler, SchedulerState.step, hwait]
      rw [hnext]
      exact
        { inStep := h
          pushes := fun _ _ _ => rfl
          pushed := fun p hp => by cases hp }

/-- Every step of a run pushes what is due. -/
theorem looped_of_mem_outs {entries : List ScheduleArgs} {n : ℕ} {s : SchedulerState}
    (h : InStep entries n s) (is : List TimerInput) :
    ∀ o ∈ scheduler.outs s is, ∃ n s', Looped entries n s' o := by
  induction is generalizing n s with
  | nil => simp
  | cons i is ih =>
    have hstep := step_looped h i
    rw [Machine.outs_cons, List.forall_mem_cons]
    exact ⟨⟨n, _, hstep⟩, ih hstep.inStep⟩

theorem pushCount_cons (lCnt : ℕ) (o : SchedulerStep) (outs : List SchedulerStep) :
    pushCount lCnt (o :: outs) = o.pushes lCnt + pushCount lCnt outs := by
  rw [pushCount, List.map_cons, List.sum_cons, pushCount]

theorem pushCount_eq_zero {lCnt : ℕ} {outs : List SchedulerStep}
    (h : ∀ o ∈ outs, o.pushes lCnt = 0) : pushCount lCnt outs = 0 := by
  induction outs with
  | nil => rfl
  | cons o outs ih =>
    obtain ⟨ho, houts⟩ := List.forall_mem_cons.1 h
    rw [pushCount_cons, ho, ih houts]

/-- A step that completes no event. -/
theorem passes_cons_of_ne {o : SchedulerStep} (h : o.phase ≠ .pass) (outs : List SchedulerStep) :
    passes (o :: outs) = passes outs := by
  rw [passes, List.filter_cons_of_neg (by simpa using h), passes]

theorem passes_cons_pass {o : SchedulerStep} (h : o.phase = .pass) (outs : List SchedulerStep) :
    passes (o :: outs) = o :: passes outs := by
  rw [passes, List.filter_cons_of_pos (by simpa using h), passes]

/-- **A periodic entry over a run**: from `n` passes on it is pushed once for every multiple of its
`TimeLoop` the passes go through, in that pass. -/
theorem periodic_run {entries : List ScheduleArgs} {k : ℕ} {e : ScheduleArgs}
    (he : entries[k]? = some e) (hpos : 0 < e.timeLoop) {n : ℕ} {s : SchedulerState}
    (h : InStep entries n s) (is : List TimerInput) :
    (pushCount (k + 1) (scheduler.outs s is) : ℤ) + n / e.timeLoop =
        (n + (passes (scheduler.outs s is)).length : ℕ) / e.timeLoop ∧
      ∀ m o, (passes (scheduler.outs s is))[m]? = some o →
        o.pushes (k + 1) = if e.Due (n + m + 1) then 1 else 0 := by
  induction is generalizing n s with
  | nil => simp [pushCount, passes]
  | cons i is ih =>
    obtain ⟨hstep, hpushes, -⟩ := step_looped h i
    obtain ⟨hcount, hpass⟩ := ih hstep
    rw [Machine.outs_cons, pushCount_cons]
    have hdue := hpushes k e he
    by_cases hphase : (scheduler.next s i).2.phase = .pass
    · rw [hphase] at hcount hpass hdue
      rw [passes_cons_pass hphase, List.length_cons, hdue]
      have hpass' : ∀ m o, (passes (scheduler.outs (scheduler.next s i).1 is))[m]? = some o →
          o.pushes (k + 1) = if e.Due (n + 1 + m + 1) then 1 else 0 := hpass
      simp only [pushesDue, Phase.completed] at hcount ⊢
      constructor
      · have hdvd : e.Due (n + 1) ↔ e.timeLoop ∣ (n + 1 : ℕ) := and_iff_right hpos
        simp only [hdvd]
        rw [show n + ((passes (scheduler.outs (scheduler.next s i).1 is)).length + 1) =
          n + 1 + (passes (scheduler.outs (scheduler.next s i).1 is)).length by omega, ← hcount]
        have hdiv := succ_ediv_emod hpos n
        split_ifs at hdiv ⊢ <;> omega
      · intro m o ho
        cases m with
        | zero =>
          rw [List.getElem?_cons_zero, Option.some.injEq] at ho
          rw [← ho, hdue, add_zero]
          rfl
        | succ m =>
          rw [hpass' m o ho]
          simp only [add_right_comm n 1 m, add_assoc n m 1]
    · -- no event is completed, and a periodic entry is not pushed
      have hnone : pushesDue e n (scheduler.next s i).2.phase = 0 := by
        cases hp : (scheduler.next s i).2.phase with
        | idle => rfl
        | autoexec => exact if_neg (by omega)
        | pass => exact absurd hp hphase
      have hzero : (scheduler.next s i).2.phase.completed = 0 := by
        cases hp : (scheduler.next s i).2.phase with
        | pass => exact absurd hp hphase
        | _ => rfl
      rw [hzero, add_zero] at hcount hpass
      rw [passes_cons_of_ne hphase, hdue, hnone, zero_add]
      exact ⟨hcount, hpass⟩

/-- The start-up part runs once, in the first event. -/
theorem countP_autoexec (s : SchedulerState) (is : List TimerInput) :
    (scheduler.outs s is).countP (fun o => o.phase = .autoexec) =
      if s.bFirstRun ∧ TimerInput.timer ∈ is then 1 else 0 := by
  induction is generalizing s with
  | nil => simp
  | cons i is ih =>
    rw [Machine.outs_cons, List.countP_cons, ih]
    cases i with
    | timer =>
      cases hrun : s.bFirstRun <;>
        simp [scheduler, SchedulerState.step, SchedulerState.pass, hrun]
    | queueEmpty =>
      cases hwait : s.waiting <;>
        simp [scheduler, SchedulerState.step, SchedulerState.pass, hwait]

/-- An entry of the start-up is pushed with the start-up part. -/
theorem pushCount_autoexec {lCnt : ℕ} {outs : List SchedulerStep}
    (h : ∀ o ∈ outs, o.pushes lCnt = if o.phase = .autoexec then 1 else 0) :
    pushCount lCnt outs = outs.countP fun o => o.phase = .autoexec := by
  induction outs with
  | nil => rfl
  | cons o outs ih =>
    obtain ⟨ho, houts⟩ := List.forall_mem_cons.1 h
    rw [pushCount_cons, List.countP_cons, ho, ih houts, add_comm]
    simp

/-- **Scheduling counts.**  In every run an entry with `TimeLoop` `T > 0` is pushed once for every
`T` completed events, in the passes that are multiples of `T`; one with `TimeLoop` -1 once, in
the first event before it waits; the others never; and the calculator reads the formula id of
the entry from what is pushed. -/
theorem scheduling_counts (numeric : NumericText) (entries : List ScheduleArgs)
    (is : List TimerInput) :
    let outs := scheduler.outs (.start entries) is
    (∀ k e, entries[k]? = some e →
      (0 < e.timeLoop →
        (pushCount (k + 1) outs : ℤ) = (passes outs).length / e.timeLoop ∧
          ∀ m o, (passes outs)[m]? = some o →
            o.pushes (k + 1) = if e.timeLoop ∣ ((m + 1 : ℕ) : ℤ) then 1 else 0) ∧
      (e.timeLoop = -1 →
        pushCount (k + 1) outs = (if .timer ∈ is then 1 else 0) ∧
          ∀ o ∈ outs, o.pushes (k + 1) ≠ 0 → o.phase = .autoexec) ∧
      (e.timeLoop = 0 ∨ e.timeLoop < -1 → pushCount (k + 1) outs = 0)) ∧
    ∀ o ∈ outs, ∀ p ∈ o.pushed, ∃ k e, entries[k]? = some e ∧ p.lCnt = k + 1 ∧
      SchedDatum.ofPoolString numeric p.sStr = .ok ⟨e.formulaID, 0⟩ := by
  have hstart := inStep_start entries
  have hmem := looped_of_mem_outs hstart is
  refine ⟨fun k e he => ⟨fun hpos => ?_, fun hone => ?_, fun hnever => ?_⟩, fun o ho p hp => ?_⟩
  · obtain ⟨hcount, hpass⟩ := periodic_run he hpos hstart is
    refine ⟨by simpa using hcount, fun m o ho => ?_⟩
    simp only [hpass m o ho, zero_add, ScheduleArgs.Due, hpos, true_and]
  · have hphase : ∀ o ∈ scheduler.outs (.start entries) is,
        o.pushes (k + 1) = if o.phase = .autoexec then 1 else 0 := by
      intro o ho
      obtain ⟨n, s', -, hpushes, -⟩ := hmem o ho
      rw [hpushes k e he]
      have hdue : ¬ e.Due (n + 1) := fun hdue => by
        have := hdue.1
        omega
      cases hp : o.phase <;> simp [pushesDue, hone, hdue]
    refine ⟨?_, fun o ho hne => ?_⟩
    · rw [pushCount_autoexec hphase, countP_autoexec]
      simp [SchedulerState.start]
    · by_contra hp
      rw [hphase o ho, if_neg hp] at hne
      exact hne rfl
  · refine pushCount_eq_zero fun o ho => ?_
    obtain ⟨n, s', -, hpushes, -⟩ := hmem o ho
    rw [hpushes k e he]
    have hne : e.timeLoop ≠ -1 := by omega
    have hdue : ¬ e.Due (n + 1) := fun hdue => by
      have := hdue.1
      omega
    cases hp : o.phase <;> simp [pushesDue, hne, hdue]
  · obtain ⟨n, s', -, -, hpushed⟩ := hmem o ho
    obtain ⟨k, e, he, hk, htext⟩ := hpushed p hp
    exact ⟨k, e, he, hk, by rw [htext]; exact sched_roundTrip numeric e.isLong (by simp)⟩

/-- A formula every two passes, one at the start and one never. -/
def exampleEntries : List ScheduleArgs :=
  [⟨7, 2, by decide⟩, ⟨8, -1, by decide⟩, ⟨9, 0, by decide⟩]

/-- The first event waits while two others run, and two more follow. -/
def exampleTimes : List TimerInput := [.timer, .timer, .timer, .queueEmpty, .timer, .timer]

theorem scheduling_counts_example :
    (pushCount 1 (scheduler.outs (.start exampleEntries) exampleTimes) : ℤ) = 5 / 2 ∧
      pushCount 2 (scheduler.outs (.start exampleEntries) exampleTimes) = 1 ∧
      pushCount 3 (scheduler.outs (.start exampleEntries) exampleTimes) = 0 := by
  obtain ⟨hcounts, -⟩ := scheduling_counts (fun _ => .error .typeMismatch) exampleEntries
    exampleTimes
  obtain ⟨hperiodic, -, -⟩ := hcounts 0 _ rfl
  obtain ⟨-, hstart, -⟩ := hcounts 1 _ rfl
  obtain ⟨-, -, hnever⟩ := hcounts 2 _ rfl
  exact ⟨(hperiodic (by decide)).1, (hstart rfl).1, hnever (.inl rfl)⟩

end Sis

end Edps
