import Edps.Lib.Heap
import Edps.Lib.Runs
import Edps.OpcS7.Win32
import Mathlib.Data.List.Nodup

/-!
# Timers

A timer object runs one timer of the process's timer queue while it is enabled and has an interval.
Both properties restart it: `RestartTimer` is told what they were before, deletes the old timer and
creates a new one.

* `restartTimer`, `putEnabled`, `putInterval`, `finalRelease` : the object.
* `edpsTimers` : all objects of a process, on one queue, driven by their clients and by the queue.
* `Exact` : every object has one live timer if it is enabled and none otherwise, and knows it.
* `timers_exact_iff` : this is so after every call, exactly when no deletion fails.
-/

namespace Edps

namespace EdpsUtils

open OpcS7 (HRESULT S_OK toLong)

abbrev HANDLE := ℕ

def E_FAIL : HRESULT := -2147467259

/-- A timer of the queue: its callback goes to the object `lpParameter`. -/
structure QueueTimer where
  hTimer : HANDLE
  lpParameter : ℕ
  period : ℤ
  deriving DecidableEq, Repr

/-- The timer queue hands out handles that no live timer has. -/
structure TimerQueue where
  newTimer : List QueueTimer → HANDLE
  fresh : ∀ live, newTimer live ∉ live.map QueueTimer.hTimer

/-- What the queue answers in one call: whether it can create a timer, and whether it deletes the
timer that it is told to. -/
structure Answers where
  created : Bool
  deleted : Bool
  deriving DecidableEq, Repr

/-- `CEdpsTimer` -/
structure CEdpsTimer where
  bEnabled : Bool
  lInterval : ℤ
  lHeatCount : ℤ
  hTimer : Option HANDLE
  deriving DecidableEq, Repr

namespace CEdpsTimer

/-- The constructor. -/
def new : CEdpsTimer := ⟨false, -1, 0, none⟩

/-- `Enabled` -/
def enabled (x : CEdpsTimer) : Bool := x.bEnabled && 0 < x.lInterval

/-- `WaitOrTimerCallback`, without the event. -/
def hit (x : CEdpsTimer) : CEdpsTimer := { x with lHeatCount := toLong (x.lHeatCount + 1) }

end CEdpsTimer

/-- `DeleteTimerQueueTimer` -/
def deleteTimer (a : Answers) (hTimer : Option HANDLE) (live : List QueueTimer) :
    List QueueTimer :=
  if a.deleted then live.filter fun t => some t.hTimer ≠ hTimer else live

section

variable (queue : TimerQueue) (a : Answers) (p : ℕ)

/-- The old timer is deleted, whatever the queue answers. -/
def stop (s : CEdpsTimer × List QueueTimer) : CEdpsTimer × List QueueTimer :=
  ({ s.1 with hTimer := none }, deleteTimer a s.1.hTimer s.2)

/-- `CreateTimerQueueTimer` for the object `p`. -/
def start (s : CEdpsTimer × List QueueTimer) : (CEdpsTimer × List QueueTimer) × Bool :=
  if a.created then
    (({ s.1 with lHeatCount := 0, hTimer := some (queue.newTimer s.2) },
      s.2 ++ [⟨queue.newTimer s.2, p, s.1.lInterval⟩]), true)
  else (({ s.1 with lHeatCount := 0 }, s.2), false)

/-- `RestartTimer` -/
def restartTimer (bBeforeEnabled : Bool) (lBeforeInt : ℤ) (s : CEdpsTimer × List QueueTimer) :
    (CEdpsTimer × List QueueTimer) × Bool :=
  let s :=
    if bBeforeEnabled && (!s.1.enabled || lBeforeInt != s.1.lInterval) then stop a s else s
  if !bBeforeEnabled && s.1.enabled || s.1.enabled && lBeforeInt != s.1.lInterval then
    start queue a p s
  else (s, true)

/-- The object `x` becomes `x'`, and its timer is restarted. -/
def change (x x' : CEdpsTimer) (live : List QueueTimer) :
    (CEdpsTimer × List QueueTimer) × HRESULT :=
  let (s, bRes) := restartTimer queue a p x.enabled x.lInterval (x', live)
  (s, if bRes then S_OK else E_FAIL)

/-- `m_bEnabled` as `put_Enabled` sets it. -/
def CEdpsTimer.setEnabled (x : CEdpsTimer) (newVal : ℤ) : CEdpsTimer :=
  { x with bEnabled := newVal ≠ 0 }

/-- `m_lInterval` as `put_Interval` sets it. -/
def CEdpsTimer.setInterval (x : CEdpsTimer) (newVal : ℤ) : CEdpsTimer :=
  { x with lInterval := if newVal < 10 then 10 else newVal }

/-- `put_Enabled` -/
def putEnabled (newVal : ℤ) (x : CEdpsTimer) (live : List QueueTimer) :
    (CEdpsTimer × List QueueTimer) × HRESULT :=
  change queue a p x (x.setEnabled newVal) live

/-- `put_Interval` -/
def putInterval (newVal : ℤ) (x : CEdpsTimer) (live : List QueueTimer) :
    (CEdpsTimer × List QueueTimer) × HRESULT :=
  change queue a p x (x.setInterval newVal) live

/-- `FinalRelease`, behind which the object is destroyed. -/
def finalRelease (x : CEdpsTimer) (live : List QueueTimer) : List QueueTimer :=
  if x.hTimer.isSome then deleteTimer a x.hTimer live else live

end

/-! ### A process -/

/-- The timer objects of a process, and the live timers of the queue. -/
structure Timers where
  objects : Heap CEdpsTimer
  live : List QueueTimer
  deriving DecidableEq, Repr

def Timers.init : Timers := ⟨[], []⟩

inductive TimerCall where
  /-- An object is made. -/
  | create
  | putEnabled (p : ℕ) (newVal : ℤ)
  | putInterval (p : ℕ) (newVal : ℤ)
  /-- A live timer is due. -/
  | fired (hTimer : HANDLE)
  | finalRelease (p : ℕ)
  deriving DecidableEq, Repr

/-- A call on the object at an address; `none` where there is no object. -/
def Timers.call (w : Timers) (p : ℕ)
    (f : CEdpsTimer → List QueueTimer → (CEdpsTimer × List QueueTimer) × HRESULT) :
    Timers × Option HRESULT :=
  match w.objects.get p with
  | none => (w, none)
  | some x =>
    let (s, hr) := f x w.live
    (⟨w.objects.store p s.1, s.2⟩, some hr)

/-- One call, with what the queue answers to it. -/
def Timers.step (queue : TimerQueue) (w : Timers) (a : Answers) :
    TimerCall → Timers × Option HRESULT
  | .create => ({ w with objects := w.objects.new .new }, some S_OK)
  | .putEnabled p newVal => w.call p (putEnabled queue a p newVal)
  | .putInterval p newVal => w.call p (putInterval queue a p newVal)
  | .fired hTimer =>
    match w.live.find? fun t => t.hTimer = hTimer with
    | none => (w, some S_OK)
    | some t => w.call t.lpParameter fun x live => ((x.hit, live), S_OK)
  | .finalRelease p =>
    match w.objects.get p with
    | none => (w, none)
    | some x => (⟨w.objects.delete p, finalRelease a x w.live⟩, some S_OK)

def edpsTimers (queue : TimerQueue) : Machine Timers (TimerCall × Answers) (Option HRESULT) :=
  ⟨fun w c => w.step queue c.2 c.1⟩

/-! ### One timer for each object -/

/-- The live timers of an object. -/
def timersOf (p : ℕ) (live : List QueueTimer) : List QueueTimer :=
  live.filter fun t => t.lpParameter = p

/-- The object at `p` has one timer, with its interval, if it is enabled, and none otherwise. -/
def Keeps (live : List QueueTimer) (p : ℕ) (x : CEdpsTimer) : Prop :=
  if x.enabled then
    ∃ hTimer, x.hTimer = some hTimer ∧ timersOf p live = [⟨hTimer, p, x.lInterval⟩]
  else x.hTimer = none ∧ timersOf p live = []

/-- Every object has the timer that it reports, and where there is no object there is no timer. -/
structure Exact (w : Timers) : Prop where
  objects : ∀ p x, w.objects.get p = some x → Keeps w.live p x
  released : ∀ p, w.objects.get p = none → timersOf p w.live = []

/-- A change of an object deletes its timer. -/
def Deletes (x x' : CEdpsTimer) : Prop :=
  x.enabled ∧ (¬ x'.enabled ∨ x.lInterval ≠ x'.lInterval)

/-- A call deletes a timer. -/
def TimerCall.Deletes (w : Timers) : TimerCall → Prop
  | .create => False
  | .putEnabled p newVal => ∃ x ∈ w.objects.get p, EdpsUtils.Deletes x (x.setEnabled newVal)
  | .putInterval p newVal => ∃ x ∈ w.objects.get p, EdpsUtils.Deletes x (x.setInterval newVal)
  | .fired _ => False
  | .finalRelease p => ∃ x ∈ w.objects.get p, x.hTimer.isSome

/-! ### Deleting and creating -/

section

variable {queue : TimerQueue} {a : Answers} {p q : ℕ} {x x' : CEdpsTimer}
  {live : List QueueTimer}

theorem keeps_enabled (h : x.enabled = true) : Keeps live p x ↔
    ∃ hTimer, x.hTimer = some hTimer ∧ timersOf p live = [⟨hTimer, p, x.lInterval⟩] := by
  rw [Keeps, if_pos h]

theorem keeps_disabled (h : x.enabled = false) :
    Keeps live p x ↔ x.hTimer = none ∧ timersOf p live = [] := by
  rw [Keeps, if_neg (by rw [h]; exact Bool.false_ne_true)]

/-- Only the timers of the object matter. -/
theorem keeps_congr {live' : List QueueTimer} (h : timersOf p live' = timersOf p live) :
    Keeps live' p x ↔ Keeps live p x := by
  rw [Keeps, Keeps, h]

theorem timersOf_append (p : ℕ) (live live' : List QueueTimer) :
    timersOf p (live ++ live') = timersOf p live ++ timersOf p live' := List.filter_append ..

/-- The timers of an object behind a deletion. -/
theorem timersOf_delete (h : a.deleted = true) (p : ℕ) (hTimer : Option HANDLE) :
    timersOf p (deleteTimer a hTimer live) =
      (timersOf p live).filter fun t => some t.hTimer ≠ hTimer := by
  rw [deleteTimer, if_pos h, timersOf, timersOf, List.filter_filter, List.filter_filter]
  exact List.filter_congr fun t _ => Bool.and_comm ..

theorem delete_sublist (a : Answers) (hTimer : Option HANDLE) (live : List QueueTimer) :
    (deleteTimer a hTimer live).Sublist live := by
  unfold deleteTimer
  split_ifs
  · exact List.filter_sublist
  · exact List.Sublist.refl _

theorem nodup_delete (hnodup : (live.map QueueTimer.hTimer).Nodup) (hTimer : Option HANDLE) :
    ((deleteTimer a hTimer live).map QueueTimer.hTimer).Nodup :=
  hnodup.sublist ((delete_sublist a hTimer live).map _)

/-- The object's only timer is gone exactly when the deletion succeeds. -/
theorem timersOf_delete_self {hTimer : HANDLE} {period : ℤ}
    (honly : timersOf p live = [⟨hTimer, p, period⟩]) :
    timersOf p (deleteTimer a (some hTimer) live) = [] ↔ a.deleted = true := by
  cases h : a.deleted with
  | true =>
    rw [timersOf_delete h, honly]
    simp
  | false =>
    rw [deleteTimer, if_neg (by rw [h]; exact Bool.false_ne_true), honly]
    simp

/-- A deletion leaves the timers of other objects alone, since handles are unique. -/
theorem timersOf_delete_ne (hnodup : (live.map QueueTimer.hTimer).Nodup) (hne : q ≠ p)
    {hTimer : HANDLE} {period : ℤ} (honly : timersOf p live = [⟨hTimer, p, period⟩]) :
    timersOf q (deleteTimer a (some hTimer) live) = timersOf q live := by
  cases h : a.deleted with
  | false => rw [deleteTimer, if_neg (by rw [h]; exact Bool.false_ne_true)]
  | true =>
    rw [timersOf_delete h, List.filter_eq_self]
    intro t ht
    obtain ⟨hlive, howner⟩ := List.mem_filter.1 ht
    have hmem : (⟨hTimer, p, period⟩ : QueueTimer) ∈ timersOf p live := by
      rw [honly]
      exact List.mem_singleton_self _
    have hsame (heq : t.hTimer = hTimer) : t = ⟨hTimer, p, period⟩ :=
      List.inj_on_of_nodup_map hnodup hlive (List.mem_of_mem_filter hmem) heq
    refine decide_eq_true fun heq => hne ?_
    rw [hsame (Option.some.inj heq)] at howner
    exact (of_decide_eq_true howner).symm

/-- What a created timer does to the live ones. -/
theorem start_live (h : a.created = true) (s : CEdpsTimer × List QueueTimer) :
    start queue a p s = (({ s.1 with lHeatCount := 0, hTimer := some (queue.newTimer s.2) },
      s.2 ++ [⟨queue.newTimer s.2, p, s.1.lInterval⟩]), true) := if_pos h

theorem nodup_start (hnodup : (live.map QueueTimer.hTimer).Nodup) :
    ((start queue a p (x, live)).1.2.map QueueTimer.hTimer).Nodup := by
  unfold start
  split_ifs
  · rw [List.map_append, List.nodup_append]
    refine ⟨hnodup, List.nodup_singleton _, fun h hmem h' hmem' heq => queue.fresh live ?_⟩
    rw [heq, List.mem_singleton.1 hmem'] at hmem
    exact hmem
  · exact hnodup

theorem timersOf_start_ne (hne : q ≠ p) :
    timersOf q (start queue a p (x, live)).1.2 = timersOf q live := by
  unfold start
  split_ifs
  · rw [timersOf_append]
    simp [timersOf, hne.symm]
  · rfl

/-- An enabled object has one timer behind a creation exactly when it had none before. -/
theorem keeps_start (hen : x.enabled = true) (hok : (start queue a p (x, live)).2 = true) :
    Keeps (start queue a p (x, live)).1.2 p (start queue a p (x, live)).1.1 ↔
      timersOf p live = [] := by
  have hcreated : a.created = true := by
    unfold start at hok
    split_ifs at hok with h
    exact h
  have hnew : timersOf p [⟨queue.newTimer live, p, x.lInterval⟩] =
      [⟨queue.newTimer live, p, x.lInterval⟩] := by
    simp [timersOf]
  rw [start_live hcreated]
  refine (keeps_enabled (x := { x with lHeatCount := 0, hTimer := some (queue.newTimer live) })
    hen).trans ⟨?_, ?_⟩
  · rintro ⟨hTimer, -, honly⟩
    have hlen := congrArg List.length honly
    rw [timersOf_append, hnew, List.length_append] at hlen
    exact List.eq_nil_of_length_eq_zero (by simpa using hlen)
  · intro hnil
    refine ⟨_, rfl, ?_⟩
    rw [timersOf_append, hnew, hnil]
    rfl

end

/-! ### Restarting -/

/-- What a restart does to the live timers, when the object was `x` and has become `x'`. -/
structure Restarted (a : Answers) (p : ℕ) (x x' : CEdpsTimer) (live : List QueueTimer)
    (r : (CEdpsTimer × List QueueTimer) × Bool) : Prop where
  keeps : r.2 = true → (Keeps r.1.2 p r.1.1 ↔ (Deletes x x' → a.deleted = true))
  others : ∀ q ≠ p, timersOf q r.1.2 = timersOf q live
  nodup : (r.1.2.map QueueTimer.hTimer).Nodup

section

variable {queue : TimerQueue} {a : Answers} {p : ℕ} {x x' : CEdpsTimer} {live : List QueueTimer}

/-- A creation behind `live'`, where the object has its old timer only if it could not be
deleted. -/
theorem restarted_start {live' : List QueueTimer} {hTimer : Option HANDLE}
    (hen : x'.enabled = true) (hnil : timersOf p live' = [] ↔ (Deletes x x' → a.deleted = true))
    (hothers : ∀ q ≠ p, timersOf q live' = timersOf q live)
    (hnodup : (live'.map QueueTimer.hTimer).Nodup) :
    Restarted a p x x' live (start queue a p ({ x' with hTimer }, live')) where
  keeps hok := (keeps_start (x := { x' with hTimer }) hen hok).trans hnil
  others q hne := (timersOf_start_ne hne).trans (hothers q hne)
  nodup := nodup_start hnodup

/-- **`RestartTimer`** deletes what it has to delete and creates what it has to create. -/
theorem restarted (hkeeps : Keeps live p x) (hnodup : (live.map QueueTimer.hTimer).Nodup)
    (hhandle : x'.hTimer = x.hTimer) :
    Restarted a p x x' live (restartTimer queue a p x.enabled x.lInterval (x', live)) := by
  cases hb : x.enabled with
  | false =>
    obtain ⟨hnull, hnil⟩ := (keeps_disabled hb).1 hkeeps
    have hnot : Deletes x x' → a.deleted = true := fun h => by simp [Deletes, hb] at h
    cases hb' : x'.enabled with
    | false =>
      have hr : restartTimer queue a p false x.lInterval (x', live) = ((x', live), true) := by
        simp [restartTimer, hb']
      rw [hr]
      exact ⟨fun _ => iff_of_true ((keeps_disabled hb').2 ⟨hhandle.trans hnull, hnil⟩) hnot,
        fun _ _ => rfl, hnodup⟩
    | true =>
      have hr : restartTimer queue a p false x.lInterval (x', live) =
          start queue a p (x', live) := by
        simp [restartTimer, hb']
      rw [hr]
      exact restarted_start hb' (iff_of_true hnil hnot) (fun _ _ => rfl) hnodup
  | true =>
    obtain ⟨hTimer, hsome, honly⟩ := (keeps_enabled hb).1 hkeeps
    have hstop : stop a (x', live) = ({ x' with hTimer := none }, deleteTimer a hTimer live) := by
      rw [stop, hhandle, hsome]
    have hself := timersOf_delete_self (a := a) honly
    have hothers (q : ℕ) (hne : q ≠ p) := timersOf_delete_ne (a := a) hnodup hne honly
    cases hb' : x'.enabled with
    | false =>
      have hr : restartTimer queue a p true x.lInterval (x', live) =
          (stop a (x', live), true) := by
        have hoff : (stop a (x', live)).1.enabled = false := hb'
        simp [restartTimer, hb', hoff]
      have hdel : Deletes x x' := ⟨hb, .inl (by rw [hb']; exact Bool.false_ne_true)⟩
      rw [hr, hstop]
      refine ⟨fun _ => ?_, hothers, nodup_delete hnodup _⟩
      rw [forall_prop_of_true hdel, ← hself]
      refine (keeps_disabled (x := { x' with hTimer := none }) hb').trans ?_
      exact and_iff_right rfl
    | true =>
      by_cases hi : x.lInterval = x'.lInterval
      · have hr : restartTimer queue a p true x.lInterval (x', live) = ((x', live), true) := by
          simp [restartTimer, hb', hi]
        have hnot : ¬ Deletes x x' := fun h => h.2.elim (fun hoff => hoff hb') fun hne => hne hi
        rw [hr]
        refine ⟨fun _ => iff_of_true ?_ fun h => absurd h hnot, fun _ _ => rfl, hnodup⟩
        exact (keeps_enabled hb').2 ⟨hTimer, hhandle.trans hsome, hi ▸ honly⟩
      · have hr : restartTimer queue a p true x.lInterval (x', live) =
            start queue a p (stop a (x', live)) := by
          have hon : (stop a (x', live)).1.enabled = true := hb'
          have hint : (stop a (x', live)).1.lInterval = x'.lInterval := rfl
          simp [restartTimer, hi, hon, hint]
        have hdel : Deletes x x' := ⟨hb, .inr hi⟩
        rw [hr, hstop]
        refine restarted_start hb' ?_ hothers (nodup_delete hnodup _)
        rw [forall_prop_of_true hdel, hself]

end

/-! ### Calls -/

section

variable {queue : TimerQueue} {a : Answers} {w : Timers} {p : ℕ}

/-- An object changes, and the timers of the others stay. -/
theorem exact_store (hw : Exact w) {x x' : CEdpsTimer} {live : List QueueTimer}
    (hp : w.objects.get p = some x) (hothers : ∀ q ≠ p, timersOf q live = timersOf q w.live) :
    Exact ⟨w.objects.store p x', live⟩ ↔ Keeps live p x' := by
  constructor
  · intro h
    exact h.objects p x' (Heap.get_store_self hp)
  · intro hkeeps
    refine ⟨fun q y hq => ?_, fun q hq => ?_⟩
    · by_cases hne : q = p
      · subst hne
        rw [Heap.get_store_self hp, Option.some.injEq] at hq
        exact hq ▸ hkeeps
      · rw [Heap.get_store_ne hne] at hq
        exact (keeps_congr (hothers q hne)).2 (hw.objects q y hq)
    · have hne : q ≠ p := by
        rintro rfl
        rw [Heap.get_store_self hp] at hq
        cases hq
      rw [Heap.get_store_ne hne] at hq
      rw [hothers q hne, hw.released q hq]

/-- An object is destroyed, and the timers of the others stay. -/
theorem exact_delete (hw : Exact w) {live : List QueueTimer}
    (hothers : ∀ q ≠ p, timersOf q live = timersOf q w.live) :
    Exact ⟨w.objects.delete p, live⟩ ↔ timersOf p live = [] := by
  constructor
  · intro h
    exact h.released p Heap.get_delete_self
  · intro hnil
    refine ⟨fun q y hq => ?_, fun q hq => ?_⟩
    · have hne : q ≠ p := by
        rintro rfl
        rw [Heap.get_delete_self] at hq
        cases hq
      rw [Heap.get_delete_ne hne] at hq
      exact (keeps_congr (hothers q hne)).2 (hw.objects q y hq)
    · by_cases hne : q = p
      · rw [hne, hnil]
      · rw [Heap.get_delete_ne hne] at hq
        rw [hothers q hne, hw.released q hq]

theorem exact_new (hw : Exact w) : Exact { w with objects := w.objects.new .new } := by
  refine ⟨fun q y hq => ?_, fun q hq => ?_⟩
  · by_cases hne : q = w.objects.length
    · subst hne
      rw [Heap.get_new_self, Option.some.injEq] at hq
      have hnone : w.objects.get w.objects.length = none := by simp [Heap.get]
      exact hq ▸ (keeps_disabled rfl).2 ⟨rfl, hw.released _ hnone⟩
    · rw [Heap.get_new_ne hne] at hq
      exact hw.objects q y hq
  · have hne : q ≠ w.objects.length := by
      rintro rfl
      rw [Heap.get_new_self] at hq
      cases hq
    rw [Heap.get_new_ne hne] at hq
    exact hw.released q hq

/-- The handles of the live timers are distinct. -/
def Timers.Distinct (w : Timers) : Prop := (w.live.map QueueTimer.hTimer).Nodup

/-- A step keeps the handles distinct and, unless a timer could not be created, every object has
the timer that it reports exactly when no deletion failed. -/
structure StepsExactly (del : Prop) (a : Answers) (r : Timers × Option HRESULT) : Prop where
  exact_iff : r.2 ≠ some E_FAIL → (Exact r.1 ↔ (del → a.deleted = true))
  distinct : r.1.Distinct

theorem stepsExactly_of_exact {del : Prop} {r : Timers × Option HRESULT} (hr : Exact r.1)
    (hdistinct : r.1.Distinct) (hdel : ¬ del) : StepsExactly del a r :=
  ⟨fun _ => iff_of_true hr fun h => absurd h hdel, hdistinct⟩

/-- A call that goes through no object does nothing. -/
theorem call_none (h : w.objects.get p = none)
    (f : CEdpsTimer → List QueueTimer → (CEdpsTimer × List QueueTimer) × HRESULT) :
    w.call p f = (w, none) := by
  rw [Timers.call, h]

theorem call_some {x : CEdpsTimer} (h : w.objects.get p = some x)
    (f : CEdpsTimer → List QueueTimer → (CEdpsTimer × List QueueTimer) × HRESULT) :
    w.call p f = (⟨w.objects.store p (f x w.live).1.1, (f x w.live).1.2⟩,
      some (f x w.live).2) := by
  rw [Timers.call, h]

/-- **`put_Enabled` and `put_Interval`.** -/
theorem call_change (hw : Exact w) (hdistinct : w.Distinct) (set : CEdpsTimer → CEdpsTimer)
    (hset : ∀ x, (set x).hTimer = x.hTimer) :
    StepsExactly (∃ x ∈ w.objects.get p, Deletes x (set x)) a
      (w.call p fun x live => change queue a p x (set x) live) := by
  cases hp : w.objects.get p with
  | none =>
    rw [call_none hp]
    exact stepsExactly_of_exact hw hdistinct fun ⟨x, hx, _⟩ => by cases hx
  | some x =>
    have hr : Restarted a p x (set x) w.live
        (restartTimer queue a p x.enabled x.lInterval (set x, w.live)) :=
      restarted (hw.objects p x hp) hdistinct (hset x)
    have hdel : (∃ y ∈ some x, Deletes y (set y)) ↔ Deletes x (set x) := by simp
    rw [call_some hp, hdel]
    refine ⟨fun hok => ?_, hr.nodup⟩
    refine (exact_store hw hp hr.others).trans (hr.keeps ?_)
    by_contra hfail
    exact hok (congrArg some (if_neg hfail))

/-- **One step.** -/
theorem step_exactly (hw : Exact w) (hdistinct : w.Distinct) (c : TimerCall) :
    StepsExactly (c.Deletes w) a (w.step queue a c) := by
  cases c with
  | create => exact stepsExactly_of_exact (exact_new hw) hdistinct id
  | putEnabled p newVal => exact call_change hw hdistinct (·.setEnabled newVal) fun _ => rfl
  | putInterval p newVal => exact call_change hw hdistinct (·.setInterval newVal) fun _ => rfl
  | fired hTimer =>
    rw [Timers.step]
    cases w.live.find? fun t => t.hTimer = hTimer with
    | none => exact stepsExactly_of_exact hw hdistinct id
    | some t =>
      cases hp : w.objects.get t.lpParameter with
      | none =>
        simp only [call_none hp]
        exact stepsExactly_of_exact hw hdistinct id
      | some x =>
        simp only [call_some hp]
        refine stepsExactly_of_exact ((exact_store hw hp fun _ _ => rfl).2 ?_) hdistinct id
        -- the count of hits is not looked at
        exact hw.objects _ x hp
  | finalRelease p =>
    rw [Timers.step]
    cases hp : w.objects.get p with
    | none => exact stepsExactly_of_exact hw hdistinct fun ⟨x, hx, _⟩ => by rw [hp] at hx; cases hx
    | some x =>
      have hdel : TimerCall.Deletes w (.finalRelease p) ↔ x.hTimer.isSome := by
        simp [TimerCall.Deletes, hp]
      have hkeeps := hw.objects p x hp
      rw [hdel]
      cases hb : x.enabled with
      | false =>
        obtain ⟨hnull, hnil⟩ := (keeps_disabled hb).1 hkeeps
        have hlive : finalRelease a x w.live = w.live := by
          rw [finalRelease, hnull]
          rfl
        simp only [hlive]
        refine stepsExactly_of_exact ((exact_delete hw fun _ _ => rfl).2 hnil) hdistinct ?_
        rw [hnull]
        exact Bool.false_ne_true
      | true =>
        obtain ⟨hTimer, hsome, honly⟩ := (keeps_enabled hb).1 hkeeps
        have hlive : finalRelease a x w.live = deleteTimer a (some hTimer) w.live := by
          rw [finalRelease, hsome]
          rfl
        simp only [hlive]
        refine ⟨fun _ => ?_, nodup_delete hdistinct _⟩
        rw [exact_delete hw fun q hne => timersOf_delete_ne hdistinct hne honly,
          timersOf_delete_self honly, hsome]
        exact ⟨fun h _ => h, fun h => h rfl⟩

end

/-! ### Runs -/

theorem exact_init : Exact .init := ⟨fun p x hp => by simp [Timers.init, Heap.get] at hp,
  fun _ _ => rfl⟩

section

variable {queue : TimerQueue} {a : Answers} {p : ℕ} {w : Timers}

/-- **As long as no deletion fails**, every object has the timer that it reports. -/
theorem eachStep_exact_iff (calls : List (TimerCall × Answers))
    (hok : ∀ hr ∈ (edpsTimers queue).outs .init calls, hr ≠ some E_FAIL) :
    (edpsTimers queue).EachStep (fun w c => Exact ((edpsTimers queue).next w c).1) .init calls ↔
      (edpsTimers queue).EachStep (fun w c => c.1.Deletes w → c.2.deleted = true) .init calls := by
  have hcreated := Machine.forall_mem_outs.1 hok
  have hboth : (edpsTimers queue).EachStep (fun w c =>
        ((edpsTimers queue).next w c).2 ≠ some E_FAIL ∧ Exact ((edpsTimers queue).next w c).1)
        .init calls ↔
      (edpsTimers queue).EachStep (fun w c =>
        ((edpsTimers queue).next w c).2 ≠ some E_FAIL ∧ (c.1.Deletes w → c.2.deleted = true))
        .init calls := by
    have hnext (w : Timers) (c : TimerCall × Answers) (hw : Exact w ∧ w.Distinct)
        (hstep : ((edpsTimers queue).next w c).2 ≠ some E_FAIL ∧
          Exact ((edpsTimers queue).next w c).1) :
        Exact ((edpsTimers queue).next w c).1 ∧ ((edpsTimers queue).next w c).1.Distinct :=
      ⟨hstep.2, (step_exactly hw.1 hw.2 c.1).distinct⟩
    exact Machine.eachStep_iff_of_invariant hnext
      (fun w c hw => and_congr_right (step_exactly hw.1 hw.2 c.1).exact_iff)
      ⟨exact_init, List.nodup_nil⟩
  rw [Machine.eachStep_and, Machine.eachStep_and] at hboth
  constructor
  · exact fun h => (hboth.1 ⟨hcreated, h⟩).2
  · exact fun h => (hboth.2 ⟨hcreated, h⟩).2

/-- The object at `p` was made, and has an interval if it is there still. -/
def HasInterval (p : ℕ) (w : Timers) : Prop :=
  p < w.objects.length ∧ ∀ x, w.objects.get p = some x → 10 ≤ x.lInterval

theorem ten_le_setInterval (x : CEdpsTimer) (newVal : ℤ) :
    10 ≤ (x.setInterval newVal).lInterval := by
  unfold CEdpsTimer.setInterval
  dsimp only
  split_ifs <;> omega

theorem change_lInterval (x x' : CEdpsTimer) (live : List QueueTimer) :
    (change queue a p x x' live).1.1.lInterval = x'.lInterval := by
  have hstart (s : CEdpsTimer × List QueueTimer) :
      (start queue a p s).1.1.lInterval = s.1.lInterval := by
    unfold start
    split_ifs <;> rfl
  have hstop (s : CEdpsTimer × List QueueTimer) : (stop a s).1.lInterval = s.1.lInterval := rfl
  simp only [change, restartTimer]
  split_ifs <;> simp only [hstart, hstop]

theorem call_hasInterval {q : ℕ} {f : CEdpsTimer → List QueueTimer →
    (CEdpsTimer × List QueueTimer) × HRESULT} (hw : HasInterval p w)
    (hf : ∀ x, 10 ≤ x.lInterval → 10 ≤ (f x w.live).1.1.lInterval) :
    HasInterval p (w.call q f).1 := by
  cases hq : w.objects.get q with
  | none => rwa [call_none hq]
  | some y =>
    rw [call_some hq]
    refine ⟨by simpa [Heap.store] using hw.1, fun x hx => ?_⟩
    by_cases hne : p = q
    · subst hne
      rw [Heap.get_store_self hq, Option.some.injEq] at hx
      exact hx ▸ hf y (hw.2 y hq)
    · rw [Heap.get_store_ne hne] at hx
      exact hw.2 x hx

theorem step_hasInterval (c : TimerCall) (hw : HasInterval p w) :
    HasInterval p (w.step queue a c).1 := by
  cases c with
  | create =>
    refine ⟨by simpa [Timers.step, Heap.new] using Nat.lt_succ_of_lt hw.1, fun x hx => ?_⟩
    exact hw.2 x ((Heap.get_new_ne (Nat.ne_of_lt hw.1)).symm.trans hx)
  | putEnabled q newVal =>
    exact call_hasInterval hw fun x hx => by rwa [putEnabled, change_lInterval]
  | putInterval q newVal =>
    refine call_hasInterval hw fun x _ => ?_
    rw [putInterval, change_lInterval]
    exact ten_le_setInterval x newVal
  | fired hTimer =>
    rw [Timers.step]
    cases w.live.find? fun t => t.hTimer = hTimer with
    | none => exact hw
    | some t => exact call_hasInterval hw fun x hx => hx
  | finalRelease q =>
    rw [Timers.step]
    cases hq : w.objects.get q with
    | none => exact hw
    | some y =>
      refine ⟨by simpa [Heap.delete] using hw.1, fun x hx => ?_⟩
      by_cases hne : p = q
      · subst hne
        rw [Heap.get_delete_self] at hx
        cases hx
      · rw [Heap.get_delete_ne hne] at hx
        exact hw.2 x hx

/-- `put_Interval` of an object that is there. -/
theorem putInterval_hasInterval (newVal : ℤ) (hp : (w.objects.get p).isSome) :
    HasInterval p (w.step queue a (.putInterval p newVal)).1 := by
  obtain ⟨y, hy⟩ := Option.isSome_iff_exists.1 hp
  rw [Timers.step, call_some hy]
  refine ⟨by simpa [Heap.store] using Heap.lt_of_get hy, fun x hx => ?_⟩
  rw [Heap.get_store_self hy, Option.some.injEq] at hx
  rw [← hx, putInterval, change_lInterval]
  exact ten_le_setInterval y newVal

/-- **Timers.**  In a run in which every timer could be created, every object has exactly the timer
that it reports after each call, and none once it is released, exactly when no deletion fails; and
an interval is at least 10 from the first `put_Interval` on. -/
theorem timers_exact_iff (queue : TimerQueue) (calls : List (TimerCall × Answers))
    (hok : ∀ hr ∈ (edpsTimers queue).outs .init calls, hr ≠ some E_FAIL) :
    ((edpsTimers queue).EachStep (fun w c => Exact ((edpsTimers queue).next w c).1) .init calls ↔
      (edpsTimers queue).EachStep (fun w c => c.1.Deletes w → c.2.deleted = true) .init calls) ∧
    ∀ pre p newVal a post, calls = pre ++ (.putInterval p newVal, a) :: post →
      (((edpsTimers queue).after .init pre).objects.get p).isSome →
      ∀ x, ((edpsTimers queue).after .init calls).objects.get p = some x → 10 ≤ x.lInterval := by
  refine ⟨eachStep_exact_iff calls hok, fun pre p newVal a post hcalls hp x hx => ?_⟩
  set w := (edpsTimers queue).after .init pre with hw
  have hset : HasInterval p (w.step queue a (.putInterval p newVal)).1 :=
    putInterval_hasInterval newVal hp
  have hkept (w : Timers) (c : TimerCall × Answers) (hw : HasInterval p w) (_ : True) :
      HasInterval p ((edpsTimers queue).next w c).1 := step_hasInterval c.1 hw
  have hrun := Machine.after_invariant hkept hset
    (Machine.eachStep_of_forall fun c (_ : c ∈ post) => trivial)
  rw [hcalls, Machine.after_append, Machine.after_cons] at hx
  exact hrun.2 x hx

end

/-- A queue that counts its handles. -/
def countingQueue : TimerQueue where
  newTimer live := (live.map QueueTimer.hTimer).foldr max 0 + 1
  fresh live hmem := by
    have hle : ∀ (hs : List HANDLE), ∀ h ∈ hs, h ≤ hs.foldr max 0 := by
      intro hs
      induction hs with
      | nil => simp
      | cons k hs ih =>
        rintro h (_ | ⟨_, hmem⟩)
        · exact Nat.le_max_left ..
        · exact Nat.le_trans (ih h hmem) (Nat.le_max_right ..)
    exact absurd (hle _ _ hmem) (Nat.not_succ_le_self _)

/-- An object is made, started with an interval of 100 and then of 200, stopped and released. -/
def stopped : List (TimerCall × Answers) :=
  [(.create, ⟨true, true⟩), (.putEnabled 0 (-1), ⟨true, true⟩), (.putInterval 0 100, ⟨true, true⟩),
    (.putInterval 0 200, ⟨true, true⟩), (.putEnabled 0 0, ⟨true, true⟩),
    (.finalRelease 0, ⟨true, true⟩)]

theorem timers_exact_iff_stopped :
    ((edpsTimers countingQueue).EachStep
        (fun w c => Exact ((edpsTimers countingQueue).next w c).1) .init stopped ↔
      (edpsTimers countingQueue).EachStep (fun w c => c.1.Deletes w → c.2.deleted = true) .init
        stopped) ∧
    ∀ pre p newVal a post, stopped = pre ++ (.putInterval p newVal, a) :: post →
      (((edpsTimers countingQueue).after .init pre).objects.get p).isSome →
      ∀ x, ((edpsTimers countingQueue).after .init stopped).objects.get p = some x →
        10 ≤ x.lInterval :=
  timers_exact_iff countingQueue stopped (by decide)

/-- An object is made and started with an interval of 100; it is stopped, and the queue does not
delete its timer. -/
def failedStop : List (TimerCall × Answers) :=
  [(.create, ⟨true, true⟩), (.putInterval 0 100, ⟨true, true⟩), (.putEnabled 0 (-1), ⟨true, true⟩),
    (.putEnabled 0 0, ⟨true, false⟩)]

/-- **A timer that outlives `put_Enabled`.**  Every call returns `S_OK`, and the timer is live
although its object is not enabled and has no handle of it. -/
theorem timer_left_behind :
    (edpsTimers countingQueue).outs .init failedStop =
      [some S_OK, some S_OK, some S_OK, some S_OK] ∧
    (edpsTimers countingQueue).after .init failedStop =
      ⟨[some ⟨false, 100, 0, none⟩], [⟨1, 0, 100⟩]⟩ ∧
    ¬ (edpsTimers countingQueue).EachStep
        (fun w c => Exact ((edpsTimers countingQueue).next w c).1) .init failedStop := by
  refine ⟨by decide, by decide, fun h => ?_⟩
  obtain ⟨-, hnil⟩ := h.2.2.2.1.objects 0 ⟨false, 100, 0, none⟩ rfl
  exact absurd hnil (by decide)

end EdpsUtils

end Edps
