import Edps.Sis.Record

/-!
# Groups of parameters

A group record lists the ids of its members, separated by semicolons.  `CombineToRead` turns the
list into the request of a multi-read, with the addresses of the members from the shared store;
`SpreadResuts` writes the values of the reply back to the members.
-/

namespace Edps

namespace Sis

open Vb

/-- `ToRead`, one member of a group. -/
structure ToRead where
  sCP : VbString
  sConn : VbString
  sVarName : VbString
  sType : VbString
  sParID : VbString
  deriving DecidableEq, Repr

/-- `ToWrite`, a value for a member. -/
structure ToWrite where
  sCP : VbString
  sConn : VbString
  sVarName : VbString
  sType : VbString
  sValue : VbString
  sLen : VbString
  deriving DecidableEq, Repr

/-- The fields of a member, each behind its length. -/
def ToWrite.framed (m : ToWrite) : VbString :=
  Sis.framed m.sCP ++ Sis.framed m.sConn ++ Sis.framed m.sVarName ++ Sis.framed m.sType ++
    Sis.framed m.sValue ++ Sis.framed m.sLen

variable {R : Runtime}

/-- The segments `ParseGroup` takes for members. -/
def isMember (sParID : VbString) : Bool := sParID ≠ [] && sParID ≠ vb ";"

/-- A member with its address, loaded into `MFDPTR`. -/
def toRead (sParID : VbString) : CalcM R ToRead := do
  getData .mfdptr (← liftE (cInt R.numeric sParID))
  let d ← getOp .mfdptr
  return ⟨d.addr1, d.addr2, d.addr3, d.addr4, sParID⟩

/-- A segment with what is done for it: a member is appended, loaded first. -/
def addMember (oSource : List ToRead) (sParID : VbString) : CalcM R (List ToRead) := do
  if isMember sParID then
    return oSource ++ [← toRead sParID]
  else
    return oSource

/-- The loop of `ParseGroup`: a segment for each semicolon, and the position behind the last.  The
positions are `Integer`s. -/
def scanGroup (sSource : VbString) :
    ℕ → ℤ → List ToRead → CalcM R (ℤ × List ToRead)
  | 0, iCurr, oSource => return (iCurr, oSource)
  | fuel + 1, iCurr, oSource => do
    let iLast ← liftE (toInteger (inStrAt iCurr sSource (vb ";")))
    if 0 < iLast then
      let segment ← liftE (mid sSource iCurr (iLast - iCurr))
      let iCurr ← liftE (toInteger (iLast + 1))
      let oSource ← addMember oSource (trim segment)
      scanGroup sSource fuel iCurr oSource
    else
      return (iCurr, oSource)

/-- `ReDim oResult(0 To n - 1)`: an array without elements is an error. -/
def reDimResult (n : ℕ) : CalcM R Unit := fun s =>
  if n = 0 then .error .subscriptOutOfRange s
  else .ok () { s with oResult := List.replicate n ⟨[], []⟩ }

/-- `ParseGroup`: the members, and `oResult` with a place for each.  The source returns the upper
bound of the members. -/
def parseGroup (sSource : VbString) : CalcM R (List ToRead) := do
  let (iCurr, oSource) ← scanGroup sSource (sSource.length + 1) 1 []
  -- the segment behind the last semicolon
  let segment ← liftE (right sSource (sSource.length - iCurr + 1))
  let oSource ← addMember oSource (trim segment)
  reDimResult oSource.length
  return oSource

/-- `CombineToRead`: empty for a single member, whose upper bound is 0. -/
def combineToRead (sSource : VbString) : CalcM R VbString := do
  let oSource ← parseGroup sSource
  let iJ : ℤ := oSource.length - 1
  if iJ ≤ 0 then
    return []
  return (oSource.map fun m =>
    framed m.sCP ++ framed m.sConn ++ framed m.sVarName ++ framed m.sType ++
      framed m.sParID).flatten

/-- `ParseResult`: as many results as there are places. -/
def parseResult (sResult : VbString) : List Results → ℤ → Except VbError (List Results)
  | [], _ => .ok []
  | _ :: places, pos => do
    let (sParID, pos) ← readFramed R.numeric sResult pos
    let (sValue, pos) ← readFramed R.numeric sResult pos
    return ⟨sParID, sValue⟩ :: (← parseResult sResult places pos)

/-- `CombineToWrite`, of an array with a lower bound.  The index is an `Integer`, and is counted
once more behind the last member. -/
def combineToWrite (lBound : ℤ) (oSour : List ToWrite) : Except VbError VbString := do
  if oSour = [] then
    throw .subscriptOutOfRange
  let _ ← toInteger lBound
  let _ ← toInteger (lBound + oSour.length)
  return oSour.flatMap ToWrite.framed

/-- `PutDataByID` -/
def putDataByID (v : OpVar) (sID sRes : VbString) : CalcM R Unit := do
  getData v (← liftE (cInt R.numeric sID))
  modifyOp v fun d => { d with value := .str sRes }
  shareData v (← liftE (cInt R.numeric sID))

/-- `SpreadResuts` -/
def spreadResuts (sRes : VbString) : CalcM R Unit := do
  if R.isNumeric (sRes.take 3) then
    let s ← get
    let oResult ← liftE (parseResult (R := R) sRes s.oResult 1)
    modify fun s => { s with oResult }
    for r in oResult do
      putDataByID .mfdptr r.sParID r.sValue

end Sis

end Edps
