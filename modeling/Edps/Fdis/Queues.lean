import Edps.Fdis.Reader
import Edps.Qm.Queues

/-!
# Asynchronous requests of the data server

A client leaves a request in a queue, a timer of the `cAFDR` object takes one request at a time
from its own queue and puts the answer into the result queue, and `GetResult` of the `cFDI` object
takes answers from there.  The queues are those of `qm.dll`, shared by all objects and addressed
by number.  Both classes have a `DoItNow`; the one of `cFDI` pushes to queue 5, which is the result
queue.

* `Server.next` : the events of clients and timer.
* `Served` : every request is answered once, in the order of submission, by one timer event.
* `served_of_careful` : that is so in every run without `cFDI.DoItNow` in which nobody submits the
  text that stands for an empty queue.
-/

namespace Edps

namespace Fdis

open Vb Qm

variable {R : Runtime}

def sQUEUEMPTY : VbString := vb "Queue empty!"

def RESULTQUEUE : ℤ := 5

/-- The queue of a `cAFDR` object. -/
def MyQueueNum : ℤ := 0

/-- `Queue` of the class `cFDI`. -/
def fdiQueue : ℤ := 5

/-- The queues and the record of the `cAFDR` object. -/
structure Server (R : Runtime) where
  queues : Queues
  record : Datum R

def Server.new : Server R := ⟨fun _ => [], Datum.new⟩

/-- What clients do and the timer, with what the layers below answer during the timer event. -/
inductive Event (R : Runtime) where
  /-- `cFDI.DoItNow` -/
  | fdiDoItNow (vFDPTR : VbString)
  /-- `cAFDR.DoItNow` -/
  | afdrDoItNow (vFDPTR : VbString)
  | timer (E : Answers R)
  | getResult

/-- `tAFDR_Timer` -/
def Server.timer (server : Server R) (E : Answers R) : Server R :=
  let (sReq, queues) := qmPop server.queues MyQueueNum
  if sReq ≠ sQUEUEMPTY then
    let (answer, record) := rwFDatum E sReq server.record
    ⟨qmPush queues RESULTQUEUE answer, record⟩
  else ⟨queues, server.record⟩

/-- The server after an event, and what `GetResult` returned. -/
def Server.next (server : Server R) : Event R → Server R × Option VbString
  | .fdiDoItNow vFDPTR => (⟨qmPush server.queues fdiQueue vFDPTR, server.record⟩, none)
  | .afdrDoItNow vFDPTR => (⟨qmPush server.queues MyQueueNum vFDPTR, server.record⟩, none)
  | .timer E => (server.timer E, none)
  | .getResult =>
    let (result, queues) := qmPop server.queues RESULTQUEUE
    (⟨queues, server.record⟩, some result)

def fdis : Machine (Server R) (Event R) (Option VbString) := ⟨Server.next⟩

/-! ### What a run does -/

/-- The server after a run. -/
def reached (events : List (Event R)) : Server R := fdis.after Server.new events

/-- The requests submitted through either class. -/
def submitted (events : List (Event R)) : List VbString :=
  events.filterMap fun
    | .fdiDoItNow vFDPTR => some vFDPTR
    | .afdrDoItNow vFDPTR => some vFDPTR
    | _ => none

/-- The answers of the layers below to each timer event. -/
def timerEvents (events : List (Event R)) : List (Answers R) :=
  events.filterMap fun
    | .timer E => some E
    | _ => none

/-- The texts `GetResult` returned, other than that for an empty queue. -/
def returned (events : List (Event R)) : List VbString :=
  (fdis.outs Server.new events).filterMap fun o => o.filter (· ≠ sQUEUEMPTY)

/-- **Every request is answered once.**  The `served` requests, each with the timer event that
took it, come first among the submitted ones and the others are still in the request queue; what
has been returned and what waits are the answers of the object to the served requests, in order. -/
structure Served (events : List (Event R)) (served : List (VbString × Answers R)) : Prop where
  requests : submitted events = served.map Prod.fst ++ (reached events).queues MyQueueNum
  results : returned events ++ (reached events).queues RESULTQUEUE = afdr.outs Datum.new served
  timers : (served.map Prod.snd).Sublist (timerEvents events)
  record : (reached events).record = afdr.after Datum.new served

/-- When the request queue is empty every submitted request has its result. -/
theorem Served.drained {events : List (Event R)} {served : List (VbString × Answers R)}
    (h : Served events served) (hempty : (reached events).queues MyQueueNum = []) :
    served.map Prod.fst = submitted events := by
  rw [h.requests, hempty, List.append_nil]

/-- The events without a submission to the result queue and without a request that looks like an
empty queue. -/
def Event.Careful : Event R → Prop
  | .fdiDoItNow _ => False
  | .afdrDoItNow vFDPTR => vFDPTR ≠ sQUEUEMPTY
  | .timer _ => True
  | .getResult => True

/-! ### One event more -/

theorem empty_eq : EMPTY = sQUEUEMPTY := rfl

theorem poolString_ne_empty (d : Datum R) : poolString d ≠ sQUEUEMPTY := by
  intro heq
  have htake : (poolString d).take SCLSNAME.length = SCLSNAME := by simp [poolString]
  rw [heq] at htake
  exact absurd htake (by decide +kernel)

/-- No answer looks like an empty queue. -/
theorem ne_empty_of_mem_outs {served : List (VbString × Answers R)} {d : Datum R} {s : VbString}
    (h : s ∈ afdr.outs d served) : s ≠ sQUEUEMPTY := by
  induction served generalizing d with
  | nil => cases h
  | cons request served ih =>
    rcases List.mem_cons.1 h with rfl | h
    · exact poolString_ne_empty _
    · exact ih h

theorem reached_snoc (events : List (Event R)) (e : Event R) :
    reached (events ++ [e]) = ((reached events).next e).1 := by
  rw [reached, Machine.after_append]
  rfl

theorem returned_snoc (events : List (Event R)) (e : Event R) :
    returned (events ++ [e]) =
      returned events ++ (((reached events).next e).2.filter (· ≠ sQUEUEMPTY)).toList := by
  rw [returned, Machine.outs_append, List.filterMap_append]
  congr 1

section Snoc

variable {events : List (Event R)} {served : List (VbString × Answers R)}

/-- A submission through `cAFDR`. -/
theorem Served.afdrDoItNow (h : Served events served) (vFDPTR : VbString) :
    Served (events ++ [.afdrDoItNow vFDPTR]) served where
  requests := by
    have hsub :
        submitted (events ++ [Event.afdrDoItNow vFDPTR]) = submitted events ++ [vFDPTR] := by
      simp [submitted]
    rw [hsub, h.requests, reached_snoc]
    simp [Server.next]
  results := by
    have hne : RESULTQUEUE ≠ MyQueueNum := by decide
    rw [returned_snoc, reached_snoc, ← h.results]
    simp [Server.next, hne]
  timers := by simpa [timerEvents] using h.timers
  record := by rw [reached_snoc]; exact h.record

/-- A call of `GetResult`. -/
theorem Served.getResult (h : Served events served) :
    Served (events ++ [.getResult]) served := by
  have hne : MyQueueNum ≠ RESULTQUEUE := by decide
  have hsub : submitted (events ++ [Event.getResult]) = submitted events := by simp [submitted]
  have htim : timerEvents (events ++ [Event.getResult]) = timerEvents events := by
    simp [timerEvents]
  cases hwait : (reached events).queues RESULTQUEUE with
  | nil =>
    have hnext : (reached events).next .getResult = (reached events, some sQUEUEMPTY) := by
      simp only [Server.next, qmPop_of_nil hwait, empty_eq]
    refine ⟨?_, ?_, ?_, ?_⟩
    · rw [hsub, reached_snoc, hnext]; exact h.requests
    · rw [returned_snoc, reached_snoc, hnext, ← h.results]; simp
    · rw [htim]; exact h.timers
    · rw [reached_snoc, hnext]; exact h.record
  | cons result rest =>
    have hnext : (reached events).next .getResult =
        (⟨Function.update (reached events).queues RESULTQUEUE rest, (reached events).record⟩,
          some result) := by
      simp only [Server.next, qmPop_of_cons hwait]
    -- what waited is an answer, so it is returned
    have hanswer : result ≠ sQUEUEMPTY := by
      have hmem : result ∈ afdr.outs Datum.new served := by
        rw [← h.results, hwait]
        simp
      exact ne_empty_of_mem_outs hmem
    refine ⟨?_, ?_, ?_, ?_⟩
    · rw [hsub, reached_snoc, hnext, h.requests]; simp [hne]
    · rw [returned_snoc, reached_snoc, hnext, ← h.results, hwait]
      simp [Option.filter, hanswer]
    · rw [htim]; exact h.timers
    · rw [reached_snoc, hnext]; exact h.record

/-- A timer event takes the oldest request, if there is one. -/
theorem Served.timer (h : Served events served)
    (hreq : ∀ s ∈ (reached events).queues MyQueueNum, s ≠ sQUEUEMPTY) (E : Answers R) :
    ∃ served', Served (events ++ [.timer E]) served' := by
  have hne : RESULTQUEUE ≠ MyQueueNum := by decide
  have hsub : submitted (events ++ [Event.timer E]) = submitted events := by simp [submitted]
  have htim : timerEvents (events ++ [Event.timer E]) = timerEvents events ++ [E] := by
    simp [timerEvents]
  cases hqueue : (reached events).queues MyQueueNum with
  | nil =>
    have hnext : (reached events).next (.timer E) = (reached events, none) := by
      simp [Server.next, Server.timer, qmPop_of_nil hqueue, empty_eq]
    refine ⟨served, ?_, ?_, ?_, ?_⟩
    · rw [hsub, reached_snoc, hnext]; exact h.requests
    · rw [returned_snoc, reached_snoc, hnext, ← h.results]; simp
    · rw [htim]; exact h.timers.trans (List.sublist_append_left _ _)
    · rw [reached_snoc, hnext]; exact h.record
  | cons sReq rest =>
    obtain ⟨hs, -⟩ := List.forall_mem_cons.1 (hqueue ▸ hreq)
    obtain ⟨queues, hqueues⟩ : ∃ queues, queues =
        Function.update (reached events).queues MyQueueNum rest := ⟨_, rfl⟩
    have hnext : (reached events).next (.timer E) =
        (⟨qmPush queues RESULTQUEUE (rwFDatum E sReq (reached events).record).1,
          (rwFDatum E sReq (reached events).record).2⟩, none) := by
      simp [Server.next, Server.timer, qmPop_of_cons hqueue, hs, hqueues]
    refine ⟨served ++ [(sReq, E)], ?_, ?_, ?_, ?_⟩
    · rw [hsub, reached_snoc, hnext, h.requests, hqueue]
      simp [hqueues, hne.symm]
    · rw [returned_snoc, reached_snoc, hnext, Machine.outs_append, ← h.results, ← h.record]
      simp [hqueues, hne, afdr]
    · rw [htim, List.map_append]
      exact h.timers.append (List.Sublist.refl _)
    · rw [reached_snoc, hnext, Machine.after_append, ← h.record]
      rfl

end Snoc

/-! ### Runs -/

/-- **Every request is answered once**, in the order of submission, in every run of careful
events. -/
theorem served_of_careful {events : List (Event R)} (h : ∀ e ∈ events, e.Careful) :
    ∃ served, Served events served := by
  induction events using List.reverseRecOn with
  | nil => exact ⟨[], rfl, rfl, List.Sublist.refl _, rfl⟩
  | append_singleton events e ih =>
    have hevents : ∀ e ∈ events, e.Careful := fun e he => h e (List.mem_append_left _ he)
    obtain ⟨served, hserved⟩ := ih hevents
    have he : e.Careful := h e (by simp)
    cases e with
    | fdiDoItNow vFDPTR => exact he.elim
    | afdrDoItNow vFDPTR => exact ⟨served, hserved.afdrDoItNow vFDPTR⟩
    | timer E =>
      refine hserved.timer (fun s hs => ?_) E
      -- what waits in the request queue was submitted
      have hmem : s ∈ submitted events := hserved.requests ▸ List.mem_append_right _ hs
      obtain ⟨e, hmem, he⟩ := List.mem_filterMap.1 hmem
      have hcareful := hevents e hmem
      cases e with
      | fdiDoItNow vFDPTR => exact hcareful.elim
      | afdrDoItNow vFDPTR => cases he; exact hcareful
      | timer E => cases he
      | getResult => cases he
    | getResult => exact ⟨served, hserved.getResult⟩

theorem served_of_careful_read :
    ∃ served, Served [.afdrDoItNow (poolString exampleRequest), .timer (replying (vb "21.5")),
      .getResult] served :=
  served_of_careful (by
    have hne := poolString_ne_empty exampleRequest
    simp [Event.Careful, hne])

/-- A request submitted through `cFDI` comes back as its own result. -/
theorem request_returned_unanswered :
    ¬ ∃ served : List (VbString × Answers plainRuntime),
      Served [.fdiDoItNow (poolString exampleRequest), .getResult] served := by
  rintro ⟨served, h⟩
  have hserved : served = [] := by
    have := h.timers
    simpa [timerEvents] using this
  have hresults := h.results
  subst hserved
  revert hresults
  decide +kernel

end Fdis

end Edps
