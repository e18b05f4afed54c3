import Edps.Lib.Fifo
import Edps.Vb.Basic

/-!
# The queues of `qm.dll`

Server and calculators share the queues of `qm.dll`, which keeps texts first in, first out under
the numbers of the queues.  It is in the repository as a binary; what is here is what its callers
declare and rely on.

* `push`, `pushex`, `pop` : the operations on one queue.
* `qmPush`, `qmPop` : the same with the number of the queue, as its clients call them.
-/

namespace Edps

namespace Qm

open Vb

/-- What a pop of an empty queue returns. -/
def EMPTY : VbString := vb "Queue empty!"

/-! ### One queue -/

/-- `qm_push`: behind the texts that wait. -/
def push (q : List VbString) (sStr : VbString) : List VbString := q ++ [sStr]

/-- `qm_pushex`: behind the texts that wait, unless an equal one is among them. -/
def pushex (q : List VbString) (sStr : VbString) : List VbString := Fifo.pushNew q sStr

/-- `qm_pop`: the text in front. -/
def pop : List VbString → VbString × List VbString
  | [] => (EMPTY, [])
  | sStr :: q => (sStr, q)

@[simp] theorem pop_nil : pop [] = (EMPTY, []) := rfl

@[simp] theorem pop_cons (sStr : VbString) (q : List VbString) : pop (sStr :: q) = (sStr, q) := rfl

/-- The queue after its front has been taken. -/
theorem pop_snd (q : List VbString) : (pop q).2 = q.tail := by
  cases q <;> rfl

theorem foldl_push (q texts : List VbString) : texts.foldl push q = q ++ texts := by
  induction texts generalizing q with
  | nil => exact (List.append_nil q).symm
  | cons t texts ih =>
    rw [List.foldl_cons, ih, push, List.append_assoc]
    rfl

/-! ### The queues by their numbers -/

/-- The queues by their numbers. -/
abbrev Queues := ℤ → List VbString

def qmPush (queues : Queues) (iQNum : ℤ) (sStr : VbString) : Queues :=
  Function.update queues iQNum (push (queues iQNum) sStr)

/-- The front of a queue, or the text for an empty one. -/
def qmPop (queues : Queues) (iQNum : ℤ) : VbString × Queues :=
  let (sStr, q) := pop (queues iQNum)
  (sStr, Function.update queues iQNum q)

variable {queues : Queues} {iQNum : ℤ}

@[simp] theorem qmPush_self (sStr : VbString) :
    qmPush queues iQNum sStr iQNum = queues iQNum ++ [sStr] := by
  rw [qmPush, Function.update_self, push]

@[simp] theorem qmPush_of_ne {n : ℤ} (h : n ≠ iQNum) (sStr : VbString) :
    qmPush queues iQNum sStr n = queues n :=
  Function.update_of_ne h _ _

/-- An empty queue stays as it is. -/
theorem qmPop_of_nil (h : queues iQNum = []) : qmPop queues iQNum = (EMPTY, queues) := by
  have hsame : Function.update queues iQNum [] = queues := by rw [← h, Function.update_eq_self]
  simp [qmPop, h, hsame]

theorem qmPop_of_cons {sStr : VbString} {q : List VbString} (h : queues iQNum = sStr :: q) :
    qmPop queues iQNum = (sStr, Function.update queues iQNum q) := by
  simp [qmPop, h]

end Qm

end Edps
