import Edps.Lib.Ledger
import Edps.Qm.Queues
import Edps.Sis.Dispatch
import Edps.Sis.Scheduler
import Mathlib.Data.List.Perm.Subperm

/-!
# From the schedule to the calculator

The scheduler puts due formulas into the `ToCalculate` queue of `qm.dll`, and the calculator that
was started takes them out, each by a timer of its own and on its own thread.  Between two events
of one there may be any number of the other, and either may be stopped; `StopProcessing` of the
scheduler empties the queue.

* `processing` : the scheduler, the queue and the calculator, in any order of events.
* `queue_bounded` : no formula waits twice, so the queue is never longer than the schedule.
* `due_calculated` : a formula that is due is calculated within as many events of the calculator
  as the schedule has entries.
* `autoexec_first` : the first event does not get past its loop before the start-up formulas have
  been calculated.
* `processing_account` : what was queued is calculated, waits, was drained, or is the one entry
  that a calculator loses when it does not get its mutex.
* `calculations_le` : a formula is calculated at most once for each time it is due.
-/

namespace Edps

namespace Sis

open Vb Qm

/-! ### The queue -/

/-- The scheduler pushes with `qm_push` at the start-up, and with `qm_pushex` in a countdown. -/
def Phase.push : Phase → List VbString → VbString → List VbString
  | .autoexec => Qm.push
  | _ => Qm.pushex

/-! ### Events -/

/-- The scheduler, the queue, and the calculator that was started. -/
structure Processing where
  scheduler : SchedulerState
  /-- The timer of the scheduler is enabled. -/
  scheduling : Bool
  toCalculate : List VbString
  /-- The timer of the calculator is enabled. -/
  calculating : Bool

/-- What happens next. -/
inductive ProcessingAct where
  /-- An event of the scheduler, or the next turn of its waiting loop. -/
  | scheduler (i : TimerInput)
  /-- An event of the calculator, for what the lines do and `WaitForSingleObject` returns. -/
  | calculator (lines : CFormula → Except VbError Unit) (wait : ℤ)
  /-- `cCalculator.StopProcessing` -/
  | stopCalculator
  /-- `cScheduler.StopProcessing` -/
  | stopScheduler

/-- An act, as the queue sees it. -/
structure Processed where
  scheduled : Option SchedulerStep
  /-- What was added to the queue. -/
  queued : List VbString
  popped : Option VbString
  event : Option TimerEvent
  /-- What `StopProcessing` took out. -/
  drained : List VbString

def Processed.nothing : Processed := ⟨none, [], none, none, []⟩

namespace Processing

/-- A step of the scheduler, and its pushes. -/
def schedule (s : Processing) (i : TimerInput) : Processing × Processed :=
  let (scheduler, o) := Sis.scheduler.next s.scheduler i
  let q := (o.pushed.map Push.sStr).foldl o.phase.push s.toCalculate
  ({ s with scheduler, toCalculate := q }, ⟨some o, q.drop s.toCalculate.length, none, none, []⟩)

/-- `tmrScheduler_Timer` of the calculator. -/
def calculate (numeric : NumericText) (vFormulas : Formulas) (s : Processing)
    (lines : CFormula → Except VbError Unit) (wait : ℤ) : Processing × Processed :=
  let (sStr, q) := pop s.toCalculate
  let e := timer numeric lines vFormulas sStr wait
  ({ s with toCalculate := q, calculating := e.enabled },
    ⟨none, [], s.toCalculate.head?, some e, []⟩)

/-- One act. -/
def next (numeric : NumericText) (vFormulas : Formulas) (s : Processing) :
    ProcessingAct → Processing × Processed
  | .scheduler .timer => if s.scheduling then s.schedule .timer else (s, .nothing)
  | .scheduler .queueEmpty =>
    -- `While qm_length(ToCalculate) > 0`
    if s.toCalculate = [] then s.schedule .queueEmpty else (s, .nothing)
  | .calculator lines wait =>
    if s.calculating then s.calculate numeric vFormulas lines wait else (s, .nothing)
  | .stopCalculator => ({ s with calculating := false }, .nothing)
  | .stopScheduler =>
    (⟨{ s.scheduler with vSchedule := [] }, false, [], s.calculating⟩,
      ⟨none, [], none, none, s.toCalculate⟩)

/-- Both timers have been started. -/
def start (entries : List ScheduleArgs) : Processing := ⟨.start entries, true, [], true⟩

end Processing

/-- The scheduler, the queue and the calculator, in any order of acts. -/
def processing (numeric : NumericText) (vFormulas : Formulas) :
    Machine Processing ProcessingAct Processed := ⟨Processing.next numeric vFormulas⟩

theorem processing_next (numeric : NumericText) (vFormulas : Formulas) (s : Processing)
    (a : ProcessingAct) :
    (processing numeric vFormulas).next s a = s.next numeric vFormulas a := rfl

/-! ### What is pushed -/

/-- The texts that a loop over the records pushes. -/
theorem sweep_texts (body : CSchedPTR → CSchedPTR × Option VbString) (k : ℕ)
    (es : List CSchedPTR) :
    (sweep body k es).2.map Push.sStr = es.filterMap fun e => (body e).2 := by
  induction es generalizing k with
  | nil => rfl
  | cons e es ih =>
    rw [sweep, List.map_append, ih, List.filterMap_cons]
    cases (body e).2 <;> rfl

/-- The schedule has one entry for a formula. -/
def OneEach (entries : List ScheduleArgs) : Prop := (entries.map ScheduleArgs.formulaID).Nodup

theorem poolString_injective {e e' : ScheduleArgs} (h : e.poolString = e'.poolString) :
    e.formulaID = e'.formulaID := by
  have hread (e : ScheduleArgs) : SchedDatum.ofPoolString (fun _ => .error .typeMismatch)
      e.poolString = .ok ⟨e.formulaID, 0⟩ := sched_roundTrip _ e.isLong (by simp)
  have hsame := hread e
  rw [h, hread e'] at hsame
  exact (congrArg SchedDatum.formulaID (Except.ok.inj hsame)).symm

/-- Distinct formulas have distinct texts. -/
theorem nodup_poolStrings {entries : List ScheduleArgs} (h : OneEach entries) :
    (entries.map ScheduleArgs.poolString).Nodup := by
  refine List.Nodup.map_on ?_ h.of_map
  intro e he e' he' heq
  exact List.inj_on_of_nodup_map h he he' (poolString_injective heq)

/-- What a loop over records in step with the entries pushes: each text once, of an entry. -/
theorem texts_sublist {body : CSchedPTR → CSchedPTR × Option VbString}
    {before behind : ScheduleArgs → CSchedPTR} {c : ScheduleArgs → Prop} [DecidablePred c]
    (hbody : ∀ e, body (before e) = (behind e, if c e then some e.poolString else none))
    (entries : List ScheduleArgs) :
    ((sweep body 1 (entries.map before)).2.map Push.sStr).Sublist
      (entries.map ScheduleArgs.poolString) := by
  rw [sweep_texts, List.filterMap_map]
  induction entries with
  | nil => exact .slnil
  | cons e entries ih =>
    rw [List.filterMap_cons, Function.comp_apply, hbody, List.map_cons]
    by_cases hc : c e
    · simp only [if_pos hc]
      exact ih.cons_cons _
    · simp only [if_neg hc]
      exact ih.cons _

/-! ### Pushing -/

/-- Several pushes only add at the back. -/
theorem prefix_foldl_push (phase : Phase) (q texts : List VbString) :
    q <+: texts.foldl phase.push q := by
  have hpush (texts : List VbString) : q <+: texts.foldl push q := by
    induction texts using List.reverseRecOn with
    | nil => exact List.prefix_rfl
    | append_singleton texts t ih =>
      rw [List.foldl_concat]
      exact ih.trans (List.prefix_append _ _)
  cases phase with
  | autoexec => exact hpush texts
  | idle => exact Fifo.prefix_foldl_pushNew q texts
  | pass => exact Fifo.prefix_foldl_pushNew q texts

theorem mem_foldl_push {phase : Phase} {q texts : List VbString} {t : VbString} :
    t ∈ texts.foldl phase.push q ↔ t ∈ q ∨ t ∈ texts := by
  cases phase with
  | autoexec =>
    show t ∈ texts.foldl push q ↔ _
    rw [foldl_push, List.mem_append]
  | idle => exact Fifo.mem_foldl_pushNew
  | pass => exact Fifo.mem_foldl_pushNew

/-! ### The invariant -/

/-- The scheduler is in step with the entries until it is stopped, and the queue holds texts of
entries, each once. -/
structure Processing.Sound (entries : List ScheduleArgs) (s : Processing) : Prop where
  running : s.scheduling = true → ∃ n, InStep entries n s.scheduler
  stopped : s.scheduling = false → s.scheduler.vSchedule = []
  first : s.scheduler.bFirstRun = true → s.toCalculate = []
  nodup : s.toCalculate.Nodup
  entry : ∀ t ∈ s.toCalculate, ∃ e ∈ entries, t = e.poolString

section Step

variable {numeric : NumericText} {vFormulas : Formulas} {entries : List ScheduleArgs}
  {s : Processing}

theorem sound_start (entries : List ScheduleArgs) : (Processing.start entries).Sound entries where
  running _ := ⟨0, inStep_start entries⟩
  stopped h := by cases h
  first _ := rfl
  nodup := List.nodup_nil
  entry t ht := by cases ht

/-- The start-up formulas are pushed by the first event, each once. -/
theorem nodup_texts (h : OneEach entries) {n : ℕ} (hstep : InStep entries n s.scheduler)
    (i : TimerInput) (hauto : (scheduler.next s.scheduler i).2.phase = .autoexec) :
    s.scheduler.bFirstRun = true ∧
      ((scheduler.next s.scheduler i).2.pushed.map Push.sStr).Nodup := by
  cases i with
  | timer =>
    by_cases hrun : s.scheduler.bFirstRun = true
    · obtain ⟨rfl, -⟩ := hstep.first hrun
      have hrecords : s.scheduler.vSchedule = entries.map fun e => e.at false 0 := by
        rw [hstep.records, hrun]
        rfl
      have hpushed : (scheduler.next s.scheduler .timer).2.pushed =
          (sweep autoexec 1 (entries.map fun e => e.at false 0)).2 := by
        simp [scheduler, SchedulerState.step, hrun, hrecords]
      rw [hpushed]
      exact ⟨hrun, (nodup_poolStrings h).sublist (texts_sublist autoexec_at entries)⟩
    · simp [scheduler, SchedulerState.step, SchedulerState.pass, hrun] at hauto
  | queueEmpty =>
    by_cases hwait : s.scheduler.waiting = true
    · simp [scheduler, SchedulerState.step, SchedulerState.pass, hwait] at hauto
    · simp [scheduler, SchedulerState.step, hwait] at hauto

/-- The waiting loop of a scheduler that has been stopped pushes nothing. -/
theorem queueEmpty_stopped {sch : SchedulerState} (h : sch.vSchedule = []) :
    (scheduler.next sch .queueEmpty).1.vSchedule = [] ∧
      (scheduler.next sch .queueEmpty).1.bFirstRun = sch.bFirstRun ∧
      (scheduler.next sch .queueEmpty).2.pushed = [] := by
  by_cases hwait : sch.waiting = true
  · simp [scheduler, SchedulerState.step, SchedulerState.pass, hwait, h, sweep]
  · simp [scheduler, SchedulerState.step, hwait, h]

/-- After a step the start-up is over, unless nothing happened. -/
theorem bFirstRun_next (sch : SchedulerState) (i : TimerInput)
    (h : (scheduler.next sch i).1.bFirstRun = true) : i = .queueEmpty ∧ sch.bFirstRun = true := by
  cases i with
  | timer =>
    by_cases hrun : sch.bFirstRun = true
    · simp [scheduler, SchedulerState.step, hrun] at h
    · simp [scheduler, SchedulerState.step, SchedulerState.pass, hrun] at h
  | queueEmpty =>
    by_cases hwait : sch.waiting = true
    · exact ⟨rfl, by simpa [scheduler, SchedulerState.step, SchedulerState.pass, hwait] using h⟩
    · exact ⟨rfl, by simpa [scheduler, SchedulerState.step, hwait] using h⟩

/-- **A step of the scheduler** keeps the queue one of distinct entries. -/
theorem sound_schedule (h : OneEach entries) (hs : s.Sound entries)
    (hrun : s.scheduling = true) (i : TimerInput) : (s.schedule i).1.Sound entries := by
  obtain ⟨n, hstep⟩ := hs.running hrun
  have hlooped := step_looped hstep i
  refine ⟨fun _ => ⟨_, hlooped.inStep⟩, ?_, ?_, ?_, ?_⟩
  · intro hno
    exact absurd (hrun.symm.trans hno) (by decide)
  · intro hfirst
    -- before the first event the waiting loop does nothing
    obtain ⟨rfl, hbefore⟩ := bFirstRun_next _ _ hfirst
    have hidle : (scheduler.next s.scheduler .queueEmpty).2.pushed = [] := by
      simp [scheduler, SchedulerState.step, (hstep.first hbefore).2]
    show ((scheduler.next s.scheduler .queueEmpty).2.pushed.map Push.sStr).foldl _ _ = []
    rw [hidle]
    exact hs.first hbefore
  · show (((scheduler.next s.scheduler i).2.pushed.map Push.sStr).foldl
      (scheduler.next s.scheduler i).2.phase.push s.toCalculate).Nodup
    cases hphase : (scheduler.next s.scheduler i).2.phase with
    | autoexec =>
      obtain ⟨hfirst, hnodup⟩ := nodup_texts h hstep i hphase
      show (List.foldl push _ _).Nodup
      rw [foldl_push, hs.first hfirst]
      exact hnodup
    | idle => exact Fifo.nodup_foldl_pushNew hs.nodup _
    | pass => exact Fifo.nodup_foldl_pushNew hs.nodup _
  · intro t ht
    rcases mem_foldl_push.1 ht with ht | ht
    · exact hs.entry t ht
    · obtain ⟨p, hp, rfl⟩ := List.mem_map.1 ht
      obtain ⟨k, e, he, -, htext⟩ := hlooped.pushed p hp
      exact ⟨e, List.mem_of_getElem? he, htext⟩

/-- **One act** keeps the queue one of distinct entries. -/
theorem sound_next (h : OneEach entries) (hs : s.Sound entries) (a : ProcessingAct) :
    (s.next numeric vFormulas a).1.Sound entries := by
  cases a with
  | scheduler i =>
    cases i with
    | timer =>
      by_cases hrun : s.scheduling = true
      · rw [Processing.next, if_pos hrun]
        exact sound_schedule h hs hrun .timer
      · rw [Processing.next, if_neg hrun]
        exact hs
    | queueEmpty =>
      by_cases hempty : s.toCalculate = []
      · rw [Processing.next, if_pos hempty]
        by_cases hrun : s.scheduling = true
        · exact sound_schedule h hs hrun .queueEmpty
        · obtain ⟨hsched, hfirst, hpushed⟩ :=
            queueEmpty_stopped (hs.stopped (by simpa using hrun))
          have hqueue : (s.schedule .queueEmpty).1.toCalculate = s.toCalculate := by
            show ((scheduler.next s.scheduler .queueEmpty).2.pushed.map Push.sStr).foldl _ _ = _
            rw [hpushed]
            rfl
          refine ⟨fun hno => absurd hno hrun, fun _ => hsched, ?_, ?_, ?_⟩
          · intro _
            rw [hqueue, hempty]
          · rw [hqueue]
            exact hs.nodup
          · rw [hqueue]
            exact hs.entry
      · rw [Processing.next, if_neg hempty]
        exact hs
  | calculator lines wait =>
    by_cases hcalc : s.calculating = true
    · rw [Processing.next, if_pos hcalc]
      have hqueue : (s.calculate numeric vFormulas lines wait).1.toCalculate =
          s.toCalculate.tail := pop_snd _
      refine ⟨hs.running, hs.stopped, ?_, ?_, ?_⟩
      · intro hfirst
        rw [hqueue, hs.first hfirst]
        rfl
      · rw [hqueue]
        exact hs.nodup.sublist (List.tail_sublist _)
      · intro t ht
        rw [hqueue] at ht
        exact hs.entry t (List.mem_of_mem_tail ht)
    · rw [Processing.next, if_neg hcalc]
      exact hs
  | stopCalculator => exact ⟨hs.running, hs.stopped, hs.first, hs.nodup, hs.entry⟩
  | stopScheduler =>
    refine ⟨fun h => absurd h Bool.false_ne_true, fun _ => rfl, fun _ => rfl, List.nodup_nil, ?_⟩
    intro t ht
    cases ht

/-- A queue of distinct entries is not longer than the schedule. -/
theorem Processing.Sound.length_le (hs : s.Sound entries) :
    s.toCalculate.length ≤ entries.length := by
  have hsub : s.toCalculate ⊆ entries.map ScheduleArgs.poolString := by
    intro t ht
    obtain ⟨e, he, rfl⟩ := hs.entry t ht
    exact List.mem_map_of_mem he
  have hle := (List.subperm_of_subset hs.nodup hsub).length_le
  rwa [List.length_map] at hle

end Step

section Runs

variable {numeric : NumericText} {vFormulas : Formulas} {entries : List ScheduleArgs}

theorem sound_after (h : OneEach entries) {s : Processing} (hs : s.Sound entries)
    (acts : List ProcessingAct) : ((processing numeric vFormulas).after s acts).Sound entries := by
  have hkeep (s : Processing) (a : ProcessingAct) (hs : s.Sound entries) (_ : True) :
      ((processing numeric vFormulas).next s a).1.Sound entries := sound_next h hs a
  exact Machine.after_invariant hkeep hs (Machine.eachStep_of_forall fun _ _ => trivial)

/-- **No formula waits twice.**  In every run from the start, whatever the order of the events and
whenever either side is stopped, the texts in the queue are distinct and those of entries; so the
queue is never longer than the schedule. -/
theorem queue_bounded (h : OneEach entries) (acts : List ProcessingAct) :
    ((processing numeric vFormulas).after (.start entries) acts).toCalculate.Nodup ∧
      (∀ t ∈ ((processing numeric vFormulas).after (.start entries) acts).toCalculate,
        ∃ e ∈ entries, t = e.poolString) ∧
      ((processing numeric vFormulas).after (.start entries) acts).toCalculate.length ≤
        entries.length := by
  have hs : ((processing numeric vFormulas).after (.start entries) acts).Sound entries :=
    sound_after h (sound_start entries) acts
  exact ⟨hs.nodup, hs.entry, hs.length_le⟩

/-! ### What is due is calculated -/

/-- Nothing is stopped, and the calculator gets its mutex. -/
def ProcessingAct.Undisturbed : ProcessingAct → Prop
  | .scheduler _ => True
  | .calculator _ wait => wait = WAIT_OBJECT_0
  | .stopCalculator => False
  | .stopScheduler => False

def ProcessingAct.isCalculator : ProcessingAct → Bool
  | .calculator _ _ => true
  | _ => false

/-- A calculator that gets its mutex stays enabled. -/
theorem enabled_timer (lines : CFormula → Except VbError Unit) (sStr : VbString) :
    (timer numeric lines vFormulas sStr WAIT_OBJECT_0).enabled = true := by
  unfold timer
  split
  · rfl
  · split
    · rfl
    · split
      · rfl
      · rw [if_pos rfl]
        split <;> rfl

/-- The queue between the scheduler and the calculator is served from the front. -/
theorem frontServed (numeric : NumericText) (vFormulas : Formulas) :
    Fifo.FrontServed (processing numeric vFormulas)
      (fun s => s.scheduling = true ∧ s.calculating = true)
      (fun _ a => a.Undisturbed) Processing.toCalculate ProcessingAct.isCalculator
      Processed.popped where
  keeps s a hs ha := by
    cases a with
    | scheduler i =>
      cases i with
      | timer =>
        show (s.next numeric vFormulas (.scheduler .timer)).1.scheduling = true ∧
          (s.next numeric vFormulas (.scheduler .timer)).1.calculating = true
        rw [Processing.next, if_pos hs.1]
        exact hs
      | queueEmpty =>
        show (s.next numeric vFormulas (.scheduler .queueEmpty)).1.scheduling = true ∧
          (s.next numeric vFormulas (.scheduler .queueEmpty)).1.calculating = true
        rw [Processing.next]
        split_ifs <;> exact hs
    | calculator lines wait =>
      obtain rfl : wait = WAIT_OBJECT_0 := ha
      show (s.next numeric vFormulas (.calculator lines WAIT_OBJECT_0)).1.scheduling = true ∧
        (s.next numeric vFormulas (.calculator lines WAIT_OBJECT_0)).1.calculating = true
      rw [Processing.next, if_pos hs.2]
      exact ⟨hs.1, enabled_timer lines _⟩
    | stopCalculator => cases ha
    | stopScheduler => cases ha
  adds s a hs ha ht := by
    cases a with
    | scheduler i =>
      cases i with
      | timer =>
        show s.toCalculate <+: (s.next numeric vFormulas (.scheduler .timer)).1.toCalculate
        rw [Processing.next, if_pos hs.1]
        exact prefix_foldl_push _ _ _
      | queueEmpty =>
        show s.toCalculate <+: (s.next numeric vFormulas (.scheduler .queueEmpty)).1.toCalculate
        rw [Processing.next]
        split_ifs
        · exact prefix_foldl_push _ _ _
        · exact List.prefix_rfl
    | calculator lines wait => cases ht
    | stopCalculator => cases ha
    | stopScheduler => cases ha
  front s a hs ha ht t q hq := by
    cases a with
    | calculator lines wait =>
      show (s.next numeric vFormulas (.calculator lines wait)).2.popped = some t ∧
        q <+: (s.next numeric vFormulas (.calculator lines wait)).1.toCalculate
      rw [Processing.next, if_pos hs.2]
      refine ⟨by simp [Processing.calculate, hq], ?_⟩
      show q <+: (pop s.toCalculate).2
      rw [hq]
      exact List.prefix_rfl
    | scheduler i => cases ht
    | stopCalculator => cases ha
    | stopScheduler => cases ha

/-- An event in which the formula with this id is calculated, and that ends well. -/
def Processed.Calculates (vFormulas : Formulas) (id : ℤ) (o : Processed) : Prop :=
  ∃ e f, o.event = some e ∧ e.calculated = some f ∧ some f ∈ vFormulas ∧ f.formulaID = id ∧
    e.escaped = none ∧ e.released = true

/-- What a calculator takes out is what its event is about. -/
theorem event_of_popped {s : Processing} {a : ProcessingAct} {t : VbString}
    (ht : (s.next numeric vFormulas a).2.popped = some t) :
    ∃ lines wait, a = .calculator lines wait ∧ s.calculating = true ∧
      s.toCalculate.head? = some t ∧
      (s.next numeric vFormulas a).2.event = some (timer numeric lines vFormulas t wait) := by
  cases a with
  | scheduler i =>
    cases i with
    | timer =>
      rw [Processing.next] at ht
      split_ifs at ht <;> cases ht
    | queueEmpty =>
      rw [Processing.next] at ht
      split_ifs at ht <;> cases ht
  | calculator lines wait =>
    rw [Processing.next] at ht ⊢
    split_ifs at ht ⊢ with hcalc
    · have hhead : s.toCalculate.head? = some t := ht
      refine ⟨lines, wait, rfl, hcalc, hhead, ?_⟩
      obtain ⟨q, hq⟩ : ∃ q, s.toCalculate = t :: q := by
        cases hqueue : s.toCalculate with
        | nil => simp [hqueue] at hhead
        | cons t' q =>
          rw [hqueue] at hhead
          exact ⟨q, by rw [Option.some.inj hhead]⟩
      simp only [Processing.calculate, hq, pop_cons]
    · cases ht
  | stopCalculator => cases ht
  | stopScheduler => cases ht

variable {ops : Operations numeric}

/-- **The event of an entry**, when the formulas up to its own are loaded: with the mutex the
formula is calculated, without it the calculator is disabled. -/
theorem timer_entry (h : Shape ops.ids 0 vFormulas) {e : ScheduleArgs}
    (he : Dispatchable ops.ids e.formulaID WAIT_OBJECT_0) :
    ∃ f, some f ∈ vFormulas ∧ f.formulaID = e.formulaID ∧ ∀ lines wait,
      timer numeric lines vFormulas e.poolString wait =
        if wait = WAIT_OBJECT_0 then ⟨some f, none, true, true, true⟩
        else ⟨none, none, wait = WAIT_ABANDONED, false, false⟩ := by
  obtain ⟨-, ⟨p, hp, hid, hbelow⟩ | ⟨-, hno, -⟩⟩ := he
  · have hsearch : search e.formulaID (vFormulas.drop 1) 1 = .ok p := by
      rcases @search_spec ops.ids e.formulaID _ _ h.drop_one (by omega) with
        ⟨p', hp', -, -, hid', -⟩ | ⟨-, hall⟩ | ⟨err, q, -, hq₁, hq, hqmem, hall⟩
      · rw [hp']
        congr 1
        omega
      · exact absurd hid (hall p (ops.one_le hp) (ops.le_last hp)).2
      · -- a hole can neither be below the formula nor behind it
        rcases lt_trichotomy q p with hlt | rfl | hlt
        · exact absurd (hbelow q hq₁ hlt) hqmem
        · exact absurd hp hqmem
        · exact absurd hid (hall p (ops.one_le hp) hlt)
    obtain ⟨f, hf, huniq⟩ := h.exists_formula hp
    obtain ⟨hmem, hfid⟩ := (huniq f).2 rfl
    refine ⟨f, hmem, hfid.trans hid, ?_⟩
    intro lines wait
    have hread : SchedDatum.ofPoolString numeric e.poolString = .ok ⟨e.formulaID, 0⟩ :=
      sched_roundTrip numeric e.isLong (by simp)
    have hcalc : calculate lines vFormulas p = (some f, none) := by
      simp only [calculate, hf]
      cases lines f <;> rfl
    have hne : e.poolString ≠ QUEUEEMPTY := poolString_ne_queueEmpty ⟨e.formulaID, 0⟩
    simp only [timer, if_neg hne, hread, hsearch, hcalc]
  · exact absurd rfl hno

/-- With the mutex the formula of the entry is calculated. -/
theorem calculates_timer (h : Shape ops.ids 0 vFormulas) {e : ScheduleArgs}
    (he : Dispatchable ops.ids e.formulaID WAIT_OBJECT_0)
    {lines : CFormula → Except VbError Unit} {o : Processed}
    (ho : o.event = some (timer numeric lines vFormulas e.poolString WAIT_OBJECT_0)) :
    o.Calculates vFormulas e.formulaID := by
  obtain ⟨f, hmem, hid, htimer⟩ := timer_entry h he
  rw [htimer, if_pos rfl] at ho
  exact ⟨_, f, ho, rfl, hmem, hid, rfl, rfl⟩

/-- The formulas of a calculator that was started. -/
theorem shape_of_start {v : Formulas} (hload : load ops.rows = .ok v)
    (hstart : startProcessing numeric v = .ok vFormulas) : Shape ops.ids 0 vFormulas := by
  obtain ⟨v', hv', hloaded⟩ := load_spec ops
  obtain rfl : v = v' := Except.ok.inj (hload.symm.trans hv')
  intro i
  rw [startProcessing_ids hstart]
  exact hloaded.shape i

/-- What a calculator took out in a run without disturbance, it calculated. -/
theorem calculates_of_popped (h : Shape ops.ids 0 vFormulas) {e : ScheduleArgs}
    (he : Dispatchable ops.ids e.formulaID WAIT_OBJECT_0) {s : Processing}
    {acts : List ProcessingAct} (hacts : ∀ a ∈ acts, a.Undisturbed)
    (hpopped : ∃ o ∈ (processing numeric vFormulas).outs s acts, o.popped = some e.poolString) :
    ∃ o ∈ (processing numeric vFormulas).outs s acts, o.Calculates vFormulas e.formulaID := by
  obtain ⟨o, ho, ht⟩ := hpopped
  have hevents : ∀ o ∈ (processing numeric vFormulas).outs s acts,
      o.popped = some e.poolString → o.Calculates vFormulas e.formulaID := by
    refine Machine.forall_mem_outs.2 ?_
    refine Machine.eachStep_mono ?_ (Machine.eachStep_of_forall hacts)
    intro s a ha hpop
    obtain ⟨lines, wait, rfl, -, -, hevent⟩ := event_of_popped hpop
    obtain rfl : wait = WAIT_OBJECT_0 := ha
    exact calculates_timer h he hevent
  exact ⟨o, ho, hevents o ho ht⟩

/-- An entry that a step of the scheduler pushes is in the queue after it. -/
theorem mem_of_pushes {s : Processing} {n : ℕ} (hstep : InStep entries n s.scheduler)
    {i : TimerInput} {k : ℕ} {e : ScheduleArgs} (he : entries[k]? = some e)
    (hpushes : (scheduler.next s.scheduler i).2.pushes (k + 1) ≠ 0) :
    e.poolString ∈ (s.schedule i).1.toCalculate := by
  obtain ⟨p, hp, hk⟩ := List.countP_pos_iff.1 (Nat.pos_of_ne_zero hpushes)
  obtain ⟨k', e', he', hk', htext⟩ := (step_looped hstep i).pushed p hp
  have hsame : k' = k := by
    have hk := of_decide_eq_true hk
    omega
  subst hsame
  obtain rfl : e' = e := Option.some.inj (he'.symm.trans he)
  refine mem_foldl_push.2 (.inr ?_)
  rw [← htext]
  exact List.mem_map_of_mem hp

/-- **What is due is calculated.**  When a step of the scheduler pushes an entry, also while its
formula is waiting already, the formula is calculated before the calculator has had more events
than the schedule has entries; whatever the scheduler does in the meantime. -/
theorem due_calculated (hone : OneEach entries) {v : Formulas} (hload : load ops.rows = .ok v)
    (hstart : startProcessing numeric v = .ok vFormulas)
    (hdisp : ∀ e ∈ entries, Dispatchable ops.ids e.formulaID WAIT_OBJECT_0)
    {acts acts' : List ProcessingAct} {i : TimerInput} (hacts : ∀ a ∈ acts, a.Undisturbed)
    (hacts' : ∀ a ∈ acts', a.Undisturbed) {k : ℕ} {e : ScheduleArgs}
    (he : entries[k]? = some e) {s : Processing}
    (hs : s = (processing numeric vFormulas).after (.start entries) acts) {o : SchedulerStep}
    (ho : ((processing numeric vFormulas).next s (.scheduler i)).2.scheduled = some o)
    (hdue : o.pushes (k + 1) ≠ 0)
    (hmany : entries.length ≤ acts'.countP ProcessingAct.isCalculator) :
    ∃ o ∈ (processing numeric vFormulas).outs
        ((processing numeric vFormulas).next s (.scheduler i)).1 acts',
      o.Calculates vFormulas e.formulaID := by
  have hserved := frontServed numeric vFormulas
  have hsound : s.Sound entries := hs ▸ sound_after hone (sound_start entries) acts
  have henabled : s.scheduling = true ∧ s.calculating = true := by
    rw [hs]
    exact Machine.after_invariant hserved.keeps ⟨rfl, rfl⟩ (Machine.eachStep_of_forall hacts)
  obtain ⟨n, hstep⟩ := hsound.running henabled.1
  -- the step is one of the scheduler, not a turn of a loop that goes on waiting
  obtain ⟨hnext, hsched⟩ : (processing numeric vFormulas).next s (.scheduler i) = s.schedule i ∧
      (scheduler.next s.scheduler i).2 = o := by
    cases i with
    | timer =>
      have hnext : (processing numeric vFormulas).next s (.scheduler .timer) =
          s.schedule .timer := if_pos henabled.1
      rw [hnext] at ho
      exact ⟨hnext, Option.some.inj ho⟩
    | queueEmpty =>
      by_cases hempty : s.toCalculate = []
      · have hnext : (processing numeric vFormulas).next s (.scheduler .queueEmpty) =
            s.schedule .queueEmpty := if_pos hempty
        rw [hnext] at ho
        exact ⟨hnext, Option.some.inj ho⟩
      · have hnext : (processing numeric vFormulas).next s (.scheduler .queueEmpty) =
            (s, .nothing) := if_neg hempty
        rw [hnext] at ho
        cases ho
  rw [hnext]
  have hmem : e.poolString ∈ (s.schedule i).1.toCalculate :=
    mem_of_pushes hstep he (hsched ▸ hdue)
  have hlen := (sound_schedule hone hsound henabled.1 i).length_le
  refine calculates_of_popped (shape_of_start hload hstart)
    (hdisp e (List.mem_of_getElem? he)) hacts' ?_
  exact Fifo.served_of_mem (s := (s.schedule i).1) hserved henabled
    (Machine.eachStep_of_forall hacts')
    hmem (hlen.trans hmany)

/-- The first event pushes the start-up formulas, and waits. -/
theorem autoexec_pushed {s : Processing} (hs : s.Sound entries) (hsched : s.scheduling = true)
    (hrun : s.scheduler.bFirstRun = true) {a : ProcessingAct} (ha : a.Undisturbed)
    (hrun' : (s.next numeric vFormulas a).1.scheduler.bFirstRun = false) {k : ℕ}
    {e : ScheduleArgs} (he : entries[k]? = some e) (hloop : e.timeLoop = -1) :
    e.poolString ∈ (s.next numeric vFormulas a).1.toCalculate ∧
      (s.next numeric vFormulas a).1.scheduler.waiting = true := by
  obtain ⟨n, hstep⟩ := hs.running hsched
  cases a with
  | scheduler i =>
    cases i with
    | timer =>
      have hphase : (scheduler.next s.scheduler .timer).2.phase = .autoexec := by
        simp [scheduler, SchedulerState.step, hrun]
      have hpushes : (scheduler.next s.scheduler .timer).2.pushes (k + 1) = 1 := by
        rw [(step_looped hstep .timer).pushes k e he, hphase, pushesDue, if_pos hloop]
      have hnext : s.next numeric vFormulas (.scheduler .timer) = s.schedule .timer :=
        if_pos hsched
      rw [hnext]
      refine ⟨mem_of_pushes hstep he (by rw [hpushes]; exact one_ne_zero), ?_⟩
      simp [Processing.schedule, scheduler, SchedulerState.step, hrun]
    | queueEmpty =>
      -- its loop has not begun
      have hidle : (scheduler.next s.scheduler .queueEmpty).1 = s.scheduler := by
        simp [scheduler, SchedulerState.step, (hstep.first hrun).2]
      rw [Processing.next] at hrun'
      split_ifs at hrun' with hempty
      · have hsame : (s.schedule .queueEmpty).1.scheduler = s.scheduler := hidle
        rw [hsame, hrun] at hrun'
        cases hrun'
      · exact absurd (hrun.symm.trans hrun') (by decide)
  | calculator lines wait =>
    rw [Processing.next] at hrun'
    split_ifs at hrun' with hcalc
    · have hsame : (s.calculate numeric vFormulas lines wait).1.scheduler = s.scheduler := rfl
      rw [hsame, hrun] at hrun'
      cases hrun'
    · exact absurd (hrun.symm.trans hrun') (by decide)
  | stopCalculator => cases ha
  | stopScheduler => cases ha

/-- While a text is in the queue the first event goes on waiting. -/
theorem waiting_next {s : Processing} (hrun : s.scheduler.bFirstRun = false) {t : VbString}
    (ht : t ∈ s.toCalculate) (hwait : s.scheduler.waiting = true) (a : ProcessingAct) :
    (s.next numeric vFormulas a).1.scheduler.waiting = true := by
  cases a with
  | scheduler i =>
    cases i with
    | timer =>
      rw [Processing.next]
      split_ifs
      · simp [Processing.schedule, scheduler, SchedulerState.step, SchedulerState.pass, hrun,
          hwait]
      · exact hwait
    | queueEmpty =>
      have hne : s.toCalculate ≠ [] := List.ne_nil_of_mem ht
      rw [Processing.next, if_neg hne]
      exact hwait
  | calculator lines wait =>
    rw [Processing.next]
    split_ifs
    · exact hwait
    · exact hwait
  | stopCalculator => exact hwait
  | stopScheduler => exact hwait

/-- A start-up formula, until it is taken out: it is pushed by the first event, waits, and lets
the first event wait. -/
theorem autoexec_popped {k : ℕ} {e : ScheduleArgs} (hone : OneEach entries)
    (he : entries[k]? = some e) (hloop : e.timeLoop = -1) {acts : List ProcessingAct}
    (hacts : ∀ a ∈ acts, a.Undisturbed)
    (hfirst : ((processing numeric vFormulas).after (.start entries)
      acts).scheduler.bFirstRun = false) :
    (e.poolString ∈ ((processing numeric vFormulas).after (.start entries) acts).toCalculate ∧
      ((processing numeric vFormulas).after (.start entries) acts).scheduler.waiting = true) ∨
    ∃ o ∈ (processing numeric vFormulas).outs (.start entries) acts,
      o.popped = some e.poolString := by
  have hserved := frontServed numeric vFormulas
  induction acts using List.reverseRecOn with
  | nil => cases hfirst
  | append_singleton acts a ih =>
    obtain ⟨hbefore, ha⟩ := List.forall_mem_append.1 hacts
    have ha := List.forall_mem_singleton.1 ha
    have hsound : ((processing numeric vFormulas).after (.start entries) acts).Sound entries :=
      sound_after hone (sound_start entries) acts
    have henabled : ((processing numeric vFormulas).after (.start entries) acts).scheduling =
          true ∧ ((processing numeric vFormulas).after (.start entries) acts).calculating = true :=
      Machine.after_invariant hserved.keeps ⟨rfl, rfl⟩ (Machine.eachStep_of_forall hbefore)
    rw [Machine.after_append] at hfirst ⊢
    rw [Machine.outs_append]
    generalize hs : (processing numeric vFormulas).after (.start entries) acts = s at *
    cases hrun : s.scheduler.bFirstRun with
    | true =>
      exact .inl (autoexec_pushed hsound henabled.1 hrun ha hfirst he hloop)
    | false =>
      rcases ih hbefore hrun with ⟨hmem, hwait⟩ | ⟨o, ho, hpop⟩
      · have hlast : (processing numeric vFormulas).EachStep (fun _ a => a.Undisturbed) s [a] :=
          ⟨ha, trivial⟩
        rcases Fifo.waits_or_served hserved henabled hlast hmem with hmem' | ⟨o, ho, hpop⟩
        · exact .inl ⟨hmem', waiting_next hrun hmem hwait a⟩
        · exact .inr ⟨o, List.mem_append_right _ ho, hpop⟩
      · exact .inr ⟨o, List.mem_append_left _ ho, hpop⟩

/-- **The start-up comes first.**  In every run without disturbance, once the first event has got
past its loop every start-up formula has been calculated. -/
theorem autoexec_first (hone : OneEach entries) {v : Formulas} (hload : load ops.rows = .ok v)
    (hstart : startProcessing numeric v = .ok vFormulas)
    (hdisp : ∀ e ∈ entries, Dispatchable ops.ids e.formulaID WAIT_OBJECT_0)
    {acts : List ProcessingAct} (hacts : ∀ a ∈ acts, a.Undisturbed)
    (hfirst : ((processing numeric vFormulas).after (.start entries)
      acts).scheduler.bFirstRun = false)
    (hpast : ((processing numeric vFormulas).after (.start entries)
      acts).scheduler.waiting = false) {e : ScheduleArgs} (he : e ∈ entries)
    (hloop : e.timeLoop = -1) :
    ∃ o ∈ (processing numeric vFormulas).outs (.start entries) acts,
      o.Calculates vFormulas e.formulaID := by
  obtain ⟨k, hk⟩ := List.mem_iff_getElem?.1 he
  rcases autoexec_popped hone hk hloop hacts hfirst with ⟨-, hwait⟩ | hpopped
  · exact absurd (hwait.symm.trans hpast) (by decide)
  · exact calculates_of_popped (shape_of_start hload hstart) (hdisp e he) hacts hpopped

/-! ### The account of the queue -/

/-- The text whose formula is calculated in an act. -/
def Processed.calculatedText (o : Processed) : Option VbString :=
  o.event.bind fun e => e.calculated.map fun f => (SchedDatum.mk f.formulaID 0).poolString

/-- The text that was taken out and whose formula is not calculated. -/
def Processed.lost (o : Processed) : Option VbString :=
  if o.calculatedText.isSome then none else o.popped

/-- What leaves the queue in an act. -/
def Processed.leaves (o : Processed) : List VbString :=
  o.calculatedText.toList ++ (o.lost.toList ++ o.drained)

/-- A step of the scheduler only adds to the queue. -/
theorem schedule_queued (s : Processing) (i : TimerInput) :
    s.toCalculate ++ (s.schedule i).2.queued = (s.schedule i).1.toCalculate := by
  obtain ⟨more, hmore⟩ := prefix_foldl_push (scheduler.next s.scheduler i).2.phase s.toCalculate
    ((scheduler.next s.scheduler i).2.pushed.map Push.sStr)
  have hqueue : (s.schedule i).1.toCalculate = s.toCalculate ++ more := hmore.symm
  have hqueued : (s.schedule i).2.queued =
      (s.schedule i).1.toCalculate.drop s.toCalculate.length := rfl
  rw [hqueued, hqueue, List.drop_left]

theorem timer_empty (lines : CFormula → Except VbError Unit) (wait : ℤ) :
    timer numeric lines vFormulas EMPTY wait = ⟨none, none, false, false, true⟩ :=
  if_pos rfl

/-- An event of the calculator: the front is calculated, or lost and the calculator disabled. -/
theorem calculate_cases (h : Shape ops.ids 0 vFormulas)
    (hdisp : ∀ e ∈ entries, Dispatchable ops.ids e.formulaID WAIT_OBJECT_0) {s : Processing}
    (hs : s.Sound entries) (lines : CFormula → Except VbError Unit) (wait : ℤ) :
    (s.toCalculate = (s.calculate numeric vFormulas lines wait).2.leaves ++
        (s.calculate numeric vFormulas lines wait).1.toCalculate) ∧
      ((s.calculate numeric vFormulas lines wait).2.lost.isSome = true →
        (s.calculate numeric vFormulas lines wait).1.calculating = false) := by
  cases hq : s.toCalculate with
  | nil =>
    have hevent : (s.calculate numeric vFormulas lines wait).2 =
        ⟨none, [], none, some ⟨none, none, false, false, true⟩, []⟩ := by
      simp [Processing.calculate, hq, timer_empty]
    have hqueue : (s.calculate numeric vFormulas lines wait).1.toCalculate = [] := by
      simp [Processing.calculate, hq]
    rw [hevent, hqueue]
    exact ⟨rfl, fun hlost => by cases hlost⟩
  | cons t q =>
    obtain ⟨e, he, rfl⟩ := hs.entry t (hq ▸ List.mem_cons_self)
    obtain ⟨f, -, hid, htimer⟩ := timer_entry h (hdisp e he)
    have hqueue : (s.calculate numeric vFormulas lines wait).1.toCalculate = q := by
      simp [Processing.calculate, hq]
    have hevent : (s.calculate numeric vFormulas lines wait).2 =
        ⟨none, [], some e.poolString, some (timer numeric lines vFormulas e.poolString wait), []⟩
        := by
      simp [Processing.calculate, hq]
    rw [hqueue]
    by_cases hwait : wait = WAIT_OBJECT_0
    · have htext : (s.calculate numeric vFormulas lines wait).2.calculatedText =
          some e.poolString := by
        rw [hevent, htimer, if_pos hwait, Processed.calculatedText]
        simp only [Option.bind_some, Option.map_some, hid]
        rfl
      have hlost : (s.calculate numeric vFormulas lines wait).2.lost = none := by
        rw [Processed.lost, htext]
        rfl
      refine ⟨?_, fun h => by rw [hlost] at h; cases h⟩
      rw [Processed.leaves, htext, hlost, hevent]
      rfl
    · have htext : (s.calculate numeric vFormulas lines wait).2.calculatedText = none := by
        rw [hevent, htimer, if_neg hwait]
        rfl
      refine ⟨?_, ?_⟩
      · rw [Processed.leaves, Processed.lost, htext, hevent]
        rfl
      · intro _
        show (timer numeric lines vFormulas (pop s.toCalculate).1 wait).enabled = false
        rw [hq, pop_cons, htimer, if_neg hwait]

/-- **One act balances.** -/
theorem balanced_next (h : Shape ops.ids 0 vFormulas)
    (hdisp : ∀ e ∈ entries, Dispatchable ops.ids e.formulaID WAIT_OBJECT_0) {s : Processing}
    (hs : s.Sound entries) (a : ProcessingAct) :
    (processing numeric vFormulas).Balanced Processing.toCalculate Processed.queued
      Processed.leaves s a := by
  have hnothing : (s.toCalculate ++ Processed.nothing.queued).Perm
      (Processed.nothing.leaves ++ s.toCalculate) := .of_eq (List.append_nil _)
  have hschedule (i : TimerInput) : (s.toCalculate ++ (s.schedule i).2.queued).Perm
      ((s.schedule i).2.leaves ++ (s.schedule i).1.toCalculate) :=
    .of_eq (schedule_queued s i)
  show (s.toCalculate ++ (s.next numeric vFormulas a).2.queued).Perm
    ((s.next numeric vFormulas a).2.leaves ++ (s.next numeric vFormulas a).1.toCalculate)
  cases a with
  | scheduler i =>
    cases i with
    | timer =>
      rw [Processing.next]
      split_ifs
      · exact hschedule .timer
      · exact hnothing
    | queueEmpty =>
      rw [Processing.next]
      split_ifs
      · exact hschedule .queueEmpty
      · exact hnothing
  | calculator lines wait =>
    rw [Processing.next]
    split_ifs
    · refine .of_eq (Eq.trans ?_ (calculate_cases h hdisp hs lines wait).1)
      exact List.append_nil _
    · exact hnothing
  | stopCalculator => exact hnothing
  | stopScheduler => exact .of_eq rfl

/-- A calculator that has been disabled stays so. -/
theorem calculating_next {s : Processing} (hs : s.calculating = false) (a : ProcessingAct) :
    (s.next numeric vFormulas a).1.calculating = false ∧
      (s.next numeric vFormulas a).2.lost = none := by
  cases a with
  | scheduler i =>
    cases i with
    | timer =>
      rw [Processing.next]
      split_ifs <;> exact ⟨hs, rfl⟩
    | queueEmpty =>
      rw [Processing.next]
      split_ifs <;> exact ⟨hs, rfl⟩
  | calculator lines wait =>
    rw [Processing.next, if_neg (by rw [hs]; decide)]
    exact ⟨hs, rfl⟩
  | stopCalculator => exact ⟨rfl, rfl⟩
  | stopScheduler => exact ⟨hs, rfl⟩

/-- An entry is lost only by a calculator that is disabled over it. -/
theorem lost_next (h : Shape ops.ids 0 vFormulas)
    (hdisp : ∀ e ∈ entries, Dispatchable ops.ids e.formulaID WAIT_OBJECT_0) {s : Processing}
    (hs : s.Sound entries) {a : ProcessingAct}
    (hlost : (s.next numeric vFormulas a).2.lost.isSome = true) :
    s.calculating = true ∧ (s.next numeric vFormulas a).1.calculating = false := by
  have hcalc : s.calculating = true := by
    by_contra hno
    rw [(calculating_next (by simpa using hno) a).2] at hlost
    cases hlost
  refine ⟨hcalc, ?_⟩
  cases a with
  | scheduler i =>
    cases i with
    | timer =>
      rw [Processing.next] at hlost
      split_ifs at hlost <;> cases hlost
    | queueEmpty =>
      rw [Processing.next] at hlost
      split_ifs at hlost <;> cases hlost
  | calculator lines wait =>
    rw [Processing.next, if_pos hcalc] at hlost ⊢
    exact (calculate_cases h hdisp hs lines wait).2 hlost
  | stopCalculator => cases hlost
  | stopScheduler => cases hlost

/-- **At most one entry is lost.** -/
theorem length_lost_le (hone : OneEach entries) (h : Shape ops.ids 0 vFormulas)
    (hdisp : ∀ e ∈ entries, Dispatchable ops.ids e.formulaID WAIT_OBJECT_0) {s : Processing}
    (hs : s.Sound entries) (acts : List ProcessingAct) :
    (((processing numeric vFormulas).outs s acts).filterMap Processed.lost).length ≤
      if s.calculating then 1 else 0 := by
  induction acts generalizing s with
  | nil => simp
  | cons a acts ih =>
    have hnext := ih (s := (s.next numeric vFormulas a).1) (sound_next hone hs a)
    rw [Machine.outs_cons, List.filterMap_cons, processing_next]
    cases hlost : (s.next numeric vFormulas a).2.lost with
    | none =>
      refine hnext.trans ?_
      cases hcalc : s.calculating with
      | true =>
        rw [if_pos rfl]
        split_ifs
        · exact le_rfl
        · exact Nat.zero_le _
      | false => rw [(calculating_next hcalc a).1]
    | some t =>
      have hsome : (s.next numeric vFormulas a).2.lost.isSome = true :=
        Option.isSome_iff_exists.2 ⟨t, hlost⟩
      obtain ⟨hcalc, hoff⟩ := lost_next h hdisp hs hsome
      rw [hoff, if_neg Bool.false_ne_true] at hnext
      rw [hcalc, if_pos rfl, List.length_cons]
      exact Nat.succ_le_succ hnext

/-- What was added to the queue leaves it or is in it. -/
theorem queued_perm (hone : OneEach entries) (h : Shape ops.ids 0 vFormulas)
    (hdisp : ∀ e ∈ entries, Dispatchable ops.ids e.formulaID WAIT_OBJECT_0)
    (acts : List ProcessingAct) :
    (((processing numeric vFormulas).outs (.start entries) acts).flatMap Processed.queued).Perm
      (((processing numeric vFormulas).outs (.start entries) acts).filterMap
          Processed.calculatedText ++
        (((processing numeric vFormulas).outs (.start entries) acts).filterMap Processed.lost ++
          (((processing numeric vFormulas).outs (.start entries) acts).flatMap
              Processed.drained ++
            ((processing numeric vFormulas).after (.start entries) acts).toCalculate))) := by
  generalize hos : (processing numeric vFormulas).outs (.start entries) acts = os
  have hkeep (s : Processing) (a : ProcessingAct) (hs : s.Sound entries) (_ : True) :
      ((processing numeric vFormulas).next s a).1.Sound entries := sound_next hone hs a
  have hbalanced (s : Processing) (a : ProcessingAct) (hs : s.Sound entries) (_ : True) :
      (processing numeric vFormulas).Balanced Processing.toCalculate Processed.queued
        Processed.leaves s a := balanced_next h hdisp hs a
  have hall : (processing numeric vFormulas).EachStep (fun _ _ => True) (.start entries) acts :=
    Machine.eachStep_of_forall fun _ _ => trivial
  have hledger := Machine.ledger
    (Machine.eachStep_of_invariant hkeep hbalanced (sound_start entries) hall)
  have hleaves : (os.flatMap Processed.leaves).Perm (os.filterMap Processed.calculatedText ++
      (os.filterMap Processed.lost ++ os.flatMap Processed.drained)) := by
    rw [List.filterMap_eq_flatMap_toList, List.filterMap_eq_flatMap_toList]
    refine (List.flatMap_append_perm os _ _).symm.trans ?_
    exact (List.flatMap_append_perm os _ _).symm.append_left _
  rw [hos] at hledger
  have hqueued := hledger.trans (hleaves.append_right _)
  rw [List.append_assoc, List.append_assoc] at hqueued
  exact hqueued

/-- **The account of the queue.**  In every run from the start, whatever the order of the events,
whatever `WaitForSingleObject` returns and whenever either side is stopped: each text that was
added to the queue has been calculated once, waits, was drained, or is lost; and at most one is
lost. -/
theorem processing_account (hone : OneEach entries) {v : Formulas}
    (hload : load ops.rows = .ok v) (hstart : startProcessing numeric v = .ok vFormulas)
    (hdisp : ∀ e ∈ entries, Dispatchable ops.ids e.formulaID WAIT_OBJECT_0)
    (acts : List ProcessingAct) :
    let os := (processing numeric vFormulas).outs (.start entries) acts
    (os.flatMap Processed.queued).Perm (os.filterMap Processed.calculatedText ++
        (os.filterMap Processed.lost ++ (os.flatMap Processed.drained ++
          ((processing numeric vFormulas).after (.start entries) acts).toCalculate))) ∧
      (os.filterMap Processed.lost).length ≤ 1 :=
  ⟨queued_perm hone (shape_of_start hload hstart) hdisp acts,
    length_lost_le hone (shape_of_start hload hstart) hdisp (sound_start entries) acts⟩

/-! ### How often a formula is calculated -/

/-- How often an entry has been due after `n` passes, the first event having begun or not. -/
def ScheduleArgs.dueTimes (e : ScheduleArgs) (begun : Bool) (n : ℕ) : ℤ :=
  if 0 < e.timeLoop then n / e.timeLoop else if e.timeLoop = -1 ∧ begun then 1 else 0

/-- A completed event of the scheduler. -/
def Processed.isPass (o : Processed) : Bool := o.scheduled.any fun o => o.phase = .pass

theorem dueTimes_mono (e : ScheduleArgs) (begun : Bool) {n m : ℕ} (h : n ≤ m) :
    e.dueTimes begun n ≤ e.dueTimes begun m := by
  unfold ScheduleArgs.dueTimes
  split_ifs with hpos
  · exact Int.ediv_le_ediv hpos (by exact_mod_cast h)
  · exact le_rfl
  · exact le_rfl

/-- The start-up part is the first event's. -/
theorem bFirstRun_autoexec (sch : SchedulerState) (i : TimerInput) :
    if (scheduler.next sch i).2.phase = .autoexec then
      sch.bFirstRun = true ∧ (scheduler.next sch i).1.bFirstRun = false
    else (scheduler.next sch i).1.bFirstRun = sch.bFirstRun := by
  cases i with
  | timer =>
    by_cases hrun : sch.bFirstRun = true
    · simp [scheduler, SchedulerState.step, hrun]
    · simp [scheduler, SchedulerState.step, SchedulerState.pass, hrun]
  | queueEmpty =>
    by_cases hwait : sch.waiting = true
    · simp [scheduler, SchedulerState.step, SchedulerState.pass, hwait]
    · simp [scheduler, SchedulerState.step, hwait]

/-- **A step of the scheduler** pushes an entry as often as it has become due. -/
theorem pushes_dueTimes {sch : SchedulerState} {n : ℕ} (hstep : InStep entries n sch)
    (i : TimerInput) {k : ℕ} {e : ScheduleArgs} (he : entries[k]? = some e) :
    ((scheduler.next sch i).2.pushes (k + 1) : ℤ) + e.dueTimes (!sch.bFirstRun) n =
      e.dueTimes (!(scheduler.next sch i).1.bFirstRun)
        (n + (scheduler.next sch i).2.phase.completed) := by
  rw [(step_looped hstep i).pushes k e he]
  have hfirst := bFirstRun_autoexec sch i
  by_cases hpos : 0 < e.timeLoop
  · have hone : e.timeLoop ≠ -1 := by omega
    have hdiv := succ_ediv_emod hpos n
    cases hphase : (scheduler.next sch i).2.phase with
    | idle => simp [pushesDue, Phase.completed, ScheduleArgs.dueTimes, hpos]
    | autoexec => simp [pushesDue, Phase.completed, ScheduleArgs.dueTimes, hpos, hone]
    | pass =>
      have hdue : e.Due (n + 1) ↔ e.timeLoop ∣ (n + 1 : ℕ) := and_iff_right hpos
      simp only [pushesDue, Phase.completed, ScheduleArgs.dueTimes, if_pos hpos, hdue]
      split_ifs at hdiv ⊢ <;> omega
  · have hdue (n : ℕ) : ¬ e.Due n := fun h => hpos h.1
    cases hphase : (scheduler.next sch i).2.phase with
    | idle =>
      rw [hphase, if_neg (by decide)] at hfirst
      simp [pushesDue, ScheduleArgs.dueTimes, hpos, hfirst]
    | autoexec =>
      rw [hphase, if_pos rfl] at hfirst
      by_cases hone : e.timeLoop = -1
      · simp [pushesDue, ScheduleArgs.dueTimes, hone, hfirst.1, hfirst.2]
      · simp [pushesDue, ScheduleArgs.dueTimes, hpos, hone]
    | pass =>
      rw [hphase, if_neg (by decide)] at hfirst
      simp [pushesDue, ScheduleArgs.dueTimes, hpos, hfirst, hdue]

/-- Pushing adds a text at most as often as it is pushed. -/
theorem count_foldl_push_le (phase : Phase) (q texts : List VbString) (t : VbString) :
    (texts.foldl phase.push q).count t ≤ q.count t + texts.count t := by
  cases phase with
  | autoexec =>
    show (texts.foldl push q).count t ≤ _
    rw [foldl_push, List.count_append]
  | idle => exact Fifo.count_foldl_pushNew_le q texts t
  | pass => exact Fifo.count_foldl_pushNew_le q texts t

/-- A step of the scheduler adds an entry to the queue at most as often as it is pushed. -/
theorem count_queued_le (hone : OneEach entries) {s : Processing} {n : ℕ}
    (hstep : InStep entries n s.scheduler) (i : TimerInput) {k : ℕ} {e : ScheduleArgs}
    (he : entries[k]? = some e) :
    (s.schedule i).2.queued.count e.poolString ≤
      (scheduler.next s.scheduler i).2.pushes (k + 1) := by
  have htexts : ((scheduler.next s.scheduler i).2.pushed.map Push.sStr).count e.poolString ≤
      (scheduler.next s.scheduler i).2.pushes (k + 1) := by
    rw [List.count, List.countP_map, SchedulerStep.pushes]
    refine List.countP_mono_left ?_
    intro p hp htext
    obtain ⟨k', e', he', hk', htext'⟩ := (step_looped hstep i).pushed p hp
    have heq : e'.poolString = e.poolString := by
      rw [← htext']
      exact eq_of_beq htext
    -- one entry for a formula, so it is this one
    have hid := poolString_injective heq
    have hk : k' = k := by
      have hkey (j : ℕ) (e : ScheduleArgs) (he : entries[j]? = some e) :
          (entries.map ScheduleArgs.formulaID)[j]? = some e.formulaID := by
        rw [List.getElem?_map, he]
        rfl
      have hlt : k' < (entries.map ScheduleArgs.formulaID).length := by
        obtain ⟨hlt, -⟩ := List.getElem?_eq_some_iff.1 (hkey k' e' he')
        exact hlt
      refine (List.getElem?_inj hlt hone).1 ?_
      rw [hkey k' e' he', hkey k e he, hid]
    rw [hk] at hk'
    exact decide_eq_true hk'
  have hle := count_foldl_push_le (scheduler.next s.scheduler i).2.phase s.toCalculate
    ((scheduler.next s.scheduler i).2.pushed.map Push.sStr) e.poolString
  have hqueue : (s.toCalculate ++ (s.schedule i).2.queued).count e.poolString =
      (s.schedule i).1.toCalculate.count e.poolString := by rw [schedule_queued]
  have hfold : (s.schedule i).1.toCalculate =
      ((scheduler.next s.scheduler i).2.pushed.map Push.sStr).foldl
        (scheduler.next s.scheduler i).2.phase.push s.toCalculate := rfl
  rw [List.count_append, hfold] at hqueue
  omega

/-- An act adds an entry to the queue at most as often as it becomes due; `n` are the passes
completed before it. -/
def Processed.AddsDue (entries : List ScheduleArgs) (e : ScheduleArgs) (n : ℕ) (s s' : Processing)
    (o : Processed) : Prop :=
  ∃ n', (s'.scheduling = true → InStep entries n' s'.scheduler) ∧
    (o.queued.count e.poolString : ℤ) + e.dueTimes (!s.scheduler.bFirstRun) n ≤
      e.dueTimes (!s'.scheduler.bFirstRun) n' ∧
    n' ≤ n + if o.isPass then 1 else 0

/-- An act that adds nothing. -/
theorem addsDue_of_queued {s s' : Processing} {o : Processed} {n : ℕ} (e : ScheduleArgs)
    (hstep : s'.scheduling = true → InStep entries n s'.scheduler) (ho : o.queued = [])
    (hfirst : s'.scheduler.bFirstRun = s.scheduler.bFirstRun) : o.AddsDue entries e n s s' := by
  refine ⟨n, hstep, ?_, Nat.le_add_right _ _⟩
  rw [ho, hfirst]
  simp

/-- A step of the scheduler. -/
theorem addsDue_schedule (hone : OneEach entries) {s : Processing} {n : ℕ}
    (hstep : InStep entries n s.scheduler) (i : TimerInput) {k : ℕ} {e : ScheduleArgs}
    (he : entries[k]? = some e) : (s.schedule i).2.AddsDue entries e n s (s.schedule i).1 := by
  refine ⟨_, fun _ => (step_looped hstep i).inStep, ?_, ?_⟩
  · have hle : ((s.schedule i).2.queued.count e.poolString : ℤ) ≤
        ((scheduler.next s.scheduler i).2.pushes (k + 1) : ℤ) := by
      exact_mod_cast count_queued_le hone hstep i he
    have hdue := pushes_dueTimes hstep i he
    have hsame : (s.schedule i).1.scheduler = (scheduler.next s.scheduler i).1 := rfl
    rw [hsame, ← hdue]
    omega
  · have hpass : (s.schedule i).2.isPass =
        decide ((scheduler.next s.scheduler i).2.phase = .pass) := rfl
    rw [hpass]
    cases (scheduler.next s.scheduler i).2.phase <;> simp [Phase.completed]

/-- **One act.** -/
theorem addsDue_next (hone : OneEach entries) {s : Processing} (hs : s.Sound entries) {n : ℕ}
    (hstep : s.scheduling = true → InStep entries n s.scheduler) (a : ProcessingAct) {k : ℕ}
    {e : ScheduleArgs} (he : entries[k]? = some e) :
    (s.next numeric vFormulas a).2.AddsDue entries e n s (s.next numeric vFormulas a).1 := by
  cases a with
  | scheduler i =>
    cases i with
    | timer =>
      rw [Processing.next]
      split_ifs with hrun
      · exact addsDue_schedule hone (hstep hrun) .timer he
      · exact addsDue_of_queued e hstep rfl rfl
    | queueEmpty =>
      rw [Processing.next]
      split_ifs with hempty
      · by_cases hrun : s.scheduling = true
        · exact addsDue_schedule hone (hstep hrun) .queueEmpty he
        · -- the loop of a scheduler that has been stopped
          obtain ⟨-, hfirst, hpushed⟩ := queueEmpty_stopped (hs.stopped (by simpa using hrun))
          refine addsDue_of_queued e (fun h => absurd h hrun) ?_ hfirst
          have hqueue : (s.schedule .queueEmpty).1.toCalculate = s.toCalculate := by
            show ((scheduler.next s.scheduler .queueEmpty).2.pushed.map Push.sStr).foldl _ _ = _
            rw [hpushed]
            rfl
          have happend := schedule_queued s .queueEmpty
          rw [hqueue] at happend
          exact List.append_cancel_left (happend.trans (List.append_nil _).symm)
      · exact addsDue_of_queued e hstep rfl rfl
  | calculator lines wait =>
    rw [Processing.next]
    split_ifs
    · exact addsDue_of_queued e hstep rfl rfl
    · exact addsDue_of_queued e hstep rfl rfl
  | stopCalculator => exact addsDue_of_queued e hstep rfl rfl
  | stopScheduler => exact addsDue_of_queued e (fun h => absurd h Bool.false_ne_true) rfl rfl

/-- **A run** adds an entry to the queue at most as often as it becomes due. -/
theorem queued_run (hone : OneEach entries) {k : ℕ} {e : ScheduleArgs}
    (he : entries[k]? = some e) (acts : List ProcessingAct) {s : Processing}
    (hs : s.Sound entries) {n : ℕ}
    (hstep : s.scheduling = true → InStep entries n s.scheduler) :
    ((((processing numeric vFormulas).outs s acts).flatMap Processed.queued).count
        e.poolString : ℤ) + e.dueTimes (!s.scheduler.bFirstRun) n ≤
      e.dueTimes (!((processing numeric vFormulas).after s acts).scheduler.bFirstRun)
        (n + ((processing numeric vFormulas).outs s acts).countP Processed.isPass) := by
  induction acts generalizing s n with
  | nil => simp
  | cons a acts ih =>
    have hnext : (s.next numeric vFormulas a).2.AddsDue entries e n s
        (s.next numeric vFormulas a).1 := addsDue_next hone hs hstep a he
    obtain ⟨n', hstep', hdue, hn'⟩ := hnext
    have hrest := ih (s := (s.next numeric vFormulas a).1) (sound_next hone hs a) hstep'
    rw [Machine.outs_cons, Machine.after_cons, List.flatMap_cons, List.count_append,
      List.countP_cons, processing_next]
    generalize (s.next numeric vFormulas a).1 = s' at *
    generalize (s.next numeric vFormulas a).2 = o at *
    generalize hpasses : ((processing numeric vFormulas).outs s' acts).countP
      Processed.isPass = m at *
    have hmono := dueTimes_mono e
      (!((processing numeric vFormulas).after s' acts).scheduler.bFirstRun)
      (show n' + m ≤ n + (m + if o.isPass then 1 else 0) by omega)
    push_cast
    omega

/-- **No formula is calculated too often.**  In every run from the start, whatever the order of the
events and whenever either side is stopped, the formula of an entry with `TimeLoop` `T > 0` is
calculated at most once for every `T` completed events of the scheduler, one of the start-up at
most once, and the others never. -/
theorem calculations_le (hone : OneEach entries) {v : Formulas} (hload : load ops.rows = .ok v)
    (hstart : startProcessing numeric v = .ok vFormulas)
    (hdisp : ∀ e ∈ entries, Dispatchable ops.ids e.formulaID WAIT_OBJECT_0)
    (acts : List ProcessingAct) {e : ScheduleArgs} (he : e ∈ entries) :
    ((((processing numeric vFormulas).outs (.start entries) acts).filterMap
        Processed.calculatedText).count e.poolString : ℤ) ≤
      e.dueTimes (!((processing numeric vFormulas).after (.start entries)
          acts).scheduler.bFirstRun)
        (((processing numeric vFormulas).outs (.start entries) acts).countP
          Processed.isPass) := by
  obtain ⟨k, hk⟩ := List.mem_iff_getElem?.1 he
  have hperm := (queued_perm hone (shape_of_start hload hstart) hdisp acts).count_eq e.poolString
  rw [List.count_append] at hperm
  have hrun : ((((processing numeric vFormulas).outs (.start entries) acts).flatMap
        Processed.queued).count e.poolString : ℤ) +
          e.dueTimes (!(Processing.start entries).scheduler.bFirstRun) 0 ≤
      e.dueTimes (!((processing numeric vFormulas).after (.start entries)
          acts).scheduler.bFirstRun)
        (0 + ((processing numeric vFormulas).outs (.start entries) acts).countP
          Processed.isPass) :=
    queued_run hone hk acts (sound_start entries) fun _ => inStep_start entries
  have hzero : e.dueTimes (!(Processing.start entries).scheduler.bFirstRun) 0 = 0 := by
    simp [ScheduleArgs.dueTimes, Processing.start, SchedulerState.start]
  rw [hzero, hperm, Nat.zero_add] at hrun
  push_cast at hrun
  omega

end Runs

/-! ### An example -/

/-- A formula every two passes, and one of the start-up. -/
def exampleSchedule : List ScheduleArgs := [⟨1, 2, isLong_one⟩, ⟨2, -1, by decide⟩]

/-- An event of the calculator that gets its mutex. -/
def exampleEvent : ProcessingAct := .calculator (fun _ => .ok ()) WAIT_OBJECT_0

/-- The first event of the scheduler with its loop, and the first pass. -/
def exampleActs : List ProcessingAct := [.scheduler .timer, exampleEvent, .scheduler .queueEmpty]

theorem oneEach_exampleSchedule : OneEach exampleSchedule := by
  unfold OneEach
  decide

theorem dispatchable_exampleSchedule :
    ∀ e ∈ exampleSchedule, Dispatchable exampleOperations.ids e.formulaID WAIT_OBJECT_0 := by
  intro e he
  rcases List.mem_pair.1 he with rfl | rfl
  · exact ⟨by decide, .inl ⟨1, by decide, rfl, fun q h₁ h₂ => absurd h₂ (by omega)⟩⟩
  · refine ⟨by decide, .inl ⟨2, by decide, rfl, fun q h₁ h₂ => ?_⟩⟩
    obtain rfl : q = 1 := by omega
    decide

theorem undisturbed_exampleActs : ∀ a ∈ exampleActs, a.Undisturbed := by
  simp [exampleActs, exampleEvent, ProcessingAct.Undisturbed]

/-- `queue_bounded` while the start-up formula waits. -/
theorem queue_bounded_exampleSchedule :
    ((processing onlyWhole []).after (.start exampleSchedule)
      [.scheduler .timer, .stopCalculator, .scheduler .timer]).toCalculate.length ≤ 2 :=
  (queue_bounded oneEach_exampleSchedule [.scheduler .timer, .stopCalculator,
    .scheduler .timer]).2.2

/-- The formulas of the example, as they are loaded and started. -/
def exampleFormulas : Formulas :=
  ((load exampleOperations.rows).toOption.bind fun v =>
    (startProcessing onlyWhole v).toOption).getD []

theorem started_exampleFormulas :
    ∃ v, load exampleOperations.rows = .ok v ∧ startProcessing onlyWhole v = .ok exampleFormulas :=
  ⟨_, rfl, rfl⟩

/-- `due_calculated` for formula 1 in the second pass. -/
theorem due_calculated_exampleSchedule :
    ∃ o ∈ (processing onlyWhole exampleFormulas).outs
        ((processing onlyWhole exampleFormulas).next
          ((processing onlyWhole exampleFormulas).after (.start exampleSchedule) exampleActs)
          (.scheduler .timer)).1 [exampleEvent, .scheduler .timer, exampleEvent],
      o.Calculates exampleFormulas 1 := by
  obtain ⟨v, hload, hstart⟩ := started_exampleFormulas
  exact due_calculated oneEach_exampleSchedule hload hstart dispatchable_exampleSchedule
    undisturbed_exampleActs (by simp [exampleEvent, ProcessingAct.Undisturbed])
    (k := 0) rfl rfl rfl (by decide) (by decide)

/-- `autoexec_first` for formula 2. -/
theorem autoexec_first_exampleSchedule :
    ∃ o ∈ (processing onlyWhole exampleFormulas).outs (.start exampleSchedule) exampleActs,
      o.Calculates exampleFormulas 2 := by
  obtain ⟨v, hload, hstart⟩ := started_exampleFormulas
  exact autoexec_first oneEach_exampleSchedule hload hstart dispatchable_exampleSchedule
    undisturbed_exampleActs rfl rfl (e := ⟨2, -1, by decide⟩)
    (List.mem_of_getElem? (i := 1) rfl) rfl

/-- `processing_account` when the calculator times out. -/
theorem processing_account_exampleSchedule :
    (((processing onlyWhole exampleFormulas).outs (.start exampleSchedule)
      [.scheduler .timer, .calculator (fun _ => .ok ()) 258]).filterMap
        Processed.lost).length ≤ 1 := by
  obtain ⟨v, hload, hstart⟩ := started_exampleFormulas
  exact (processing_account oneEach_exampleSchedule hload hstart dispatchable_exampleSchedule
    [.scheduler .timer, .calculator (fun _ => .ok ()) 258]).2

/-- `calculations_le` for formula 2. -/
theorem calculations_le_exampleSchedule :
    ((((processing onlyWhole exampleFormulas).outs (.start exampleSchedule)
      exampleActs).filterMap Processed.calculatedText).count
        (SchedDatum.mk 2 0).poolString : ℤ) ≤ 1 := by
  obtain ⟨v, hload, hstart⟩ := started_exampleFormulas
  exact calculations_le oneEach_exampleSchedule hload hstart dispatchable_exampleSchedule
    exampleActs (e := ⟨2, -1, by decide⟩) (List.mem_of_getElem? (i := 1) rfl)

end Sis

end Edps
