import Edps.Vb.Dates

/-!
# Schedule entries and their pool strings

The scheduler puts a formula that is due into the `ToCalculate` queue as the pool string of its
`cSchedPTR` record: the class name, and the formula id and line id each behind the three digits
of its length.

* `sched_roundTrip` : the calculator reads the ids that were written.
-/

namespace Edps

namespace Sis

open Vb

/-- The encoded data of a schedule record. -/
structure SchedDatum where
  formulaID : ℤ
  lineID : ℤ
  deriving DecidableEq, Repr

def SCHEDCLSNAME : VbString := vb "cSchedPTR"

/-- `Format(n, String(LENTHLEN, "0"))`: at least three digits. -/
def formatLen (n : ℕ) : VbString := if n < 1000 then digitText 3 n else cStr n

/-- A text behind its length. -/
def framed (s : VbString) : VbString := formatLen s.length ++ s

/-- The text at `pos` behind its length, and the position after it. -/
def readFramed (numeric : NumericText) (s : VbString) (pos : ℤ) :
    Except VbError (VbString × ℤ) := do
  let iLen ← cInt numeric (← mid s pos 3)
  let pos ← toInteger (pos + 3)
  let text ← mid s pos iLen
  return (text, ← toInteger (iLen + pos))

/-- `PoolString` Get -/
def SchedDatum.poolString (d : SchedDatum) : VbString :=
  SCHEDCLSNAME ++ framed (trim (str d.formulaID)) ++ framed (trim (str d.lineID))

/-- `PoolString` Let -/
def SchedDatum.ofPoolString (numeric : NumericText) (s : VbString) :
    Except VbError SchedDatum := do
  if s.take SCHEDCLSNAME.length = SCHEDCLSNAME then
    let (formula, pos) ← readFramed numeric s (1 + SCHEDCLSNAME.length)
    let formulaID ← cLng numeric formula
    let (line, _) ← readFramed numeric s pos
    return ⟨formulaID, ← cLng numeric line⟩
  else .error .invalidCall

theorem length_framed {s : VbString} (h : s.length < 1000) : (framed s).length = 3 + s.length := by
  simp [framed, formatLen, h]

/-- A framed text read back from its place, as long as the position after it is an `Integer`. -/
theorem readFramed_append (numeric : NumericText) {pre s post : VbString} {pos : ℤ}
    (h : s.length < 1000) (hpos : pos = pre.length + 1)
    (hend : pos + 3 + s.length ≤ 32767) :
    readFramed numeric (pre ++ (framed s ++ post)) pos = .ok (s, pos + 3 + s.length) := by
  have hint {n : ℤ} (h₀ : 0 ≤ n) (h₁ : n ≤ 32767) : toInteger n = .ok n := by
    rw [toInteger, if_pos (by omega)]
  have hframed : framed s = digitText 3 s.length ++ s := by rw [framed, formatLen, if_pos h]
  have hlen : mid (pre ++ (framed s ++ post)) pos 3 = .ok (digitText 3 s.length) :=
    mid_eq (a := pre) (c := s ++ post) (by simp [hframed]) hpos (by simp)
  have hnum : cInt numeric (digitText 3 s.length) = .ok (s.length : ℤ) :=
    cInt_digitText numeric (by omega) (by omega) (by omega) (by omega)
  have htext : mid (pre ++ (framed s ++ post)) (pos + 3) s.length = .ok s :=
    mid_eq (a := pre ++ digitText 3 s.length) (c := post) (by simp [hframed])
      (by simp [hpos]; omega) rfl
  simp only [readFramed, hlen, hnum, bind, Except.bind]
  rw [hint (by omega) (by omega)]
  simp only [htext]
  rw [hint (by omega) (by omega)]
  simp only [pure, Except.pure]
  congr 2
  omega

/-- **Round trip of a schedule entry.** -/
theorem sched_roundTrip (numeric : NumericText) {d : SchedDatum}
    (hf : -2147483648 ≤ d.formulaID ∧ d.formulaID ≤ 2147483647)
    (hl : -2147483648 ≤ d.lineID ∧ d.lineID ≤ 2147483647) :
    SchedDatum.ofPoolString numeric d.poolString = .ok d := by
  have hf' := length_cStr_long hf
  have hl' := length_cStr_long hl
  have hname : SCHEDCLSNAME.length = 9 := rfl
  have hpool : d.poolString =
      SCHEDCLSNAME ++ (framed (cStr d.formulaID) ++ framed (cStr d.lineID)) := by
    simp only [SchedDatum.poolString, trim_str, List.append_assoc]
  have hfirst : readFramed numeric
      (SCHEDCLSNAME ++ (framed (cStr d.formulaID) ++ framed (cStr d.lineID)))
      (1 + SCHEDCLSNAME.length) = .ok (cStr d.formulaID, _) :=
    readFramed_append numeric (by omega) (by omega) (by omega)
  have hsecond : readFramed numeric
      ((SCHEDCLSNAME ++ framed (cStr d.formulaID)) ++ (framed (cStr d.lineID) ++ []))
      (1 + SCHEDCLSNAME.length + 3 + (cStr d.formulaID).length) = .ok (cStr d.lineID, _) :=
    readFramed_append numeric (by omega)
      (by rw [List.length_append, length_framed (by omega)]; omega) (by omega)
  simp only [List.append_nil, List.append_assoc] at hsecond
  rw [SchedDatum.ofPoolString, hpool, if_pos (by simp)]
  simp only [hfirst, hsecond, cLng_cStr numeric hf, cLng_cStr numeric hl, bind, Except.bind]
  rfl

end Sis

end Edps
