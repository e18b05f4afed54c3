import Edps.Link.GroupRows
import Edps.Sis.Readings

/-!
# From the PLCs to the formulas

A formula whose lines read groups runs in the calculator, which calls `OpcS7.dll`, which asks the
OPC server.  A value goes from the server to a text, through the code page to a pool string, and
from there to the later lines.

* `nextCall`, `station` : the calculator and the library, a line and its call in one step.
* `Turn.reading` : what the server returned in a call for the item that a parameter is configured
  with.
* `library_answer` : the library lists it, and SIS finds it in the answer.
* `step_stands` : a step of the station is one of the program.

The condition on a turn is that the server answers in the order it was asked, and that `WriteQueue`
calls are answered.
-/

namespace Edps

namespace Link

open Vb OpcS7 Sis

variable {R : Runtime} {P : Parameters} {room : ℤ → ℕ} {known : Set ℤ}

/-! ### The station -/

/-- The call that `LocalRWFDatum` makes for a record. -/
def request (d : Datum R) : Option SapiCall :=
  if d.linkType = vb "SGR" then
    if d.action = FDRead then some (.mread (toAnsi R d.addr1))
    else if d.action = FDWrite then some (.mwrite (toAnsi R d.addr1))
    else none
  else if d.linkType = vb "SAP" then
    if d.action = FDRead then some (.read (toAnsi R d.addr2) (toAnsi R d.addr3))
    else if d.action = FDWrite then
      some (.write (toAnsi R d.addr2) (toAnsi R d.addr3) (toAnsi R d.addr4)
        (toAnsi R (toText d.value)))
    else none
  else none

/-- The call a run makes at its next line, if it makes one. -/
def nextCall (s : RunState R) : Option SapiCall :=
  s.next?.bind fun line =>
    (FunctionCode.ofText line.functionCode).rwOperand.bind fun v =>
      match (loadOperands line s.runID >>= fun _ =>
        beforeRW s.dtDate (.ofText line.functionCode)) s.state with
      | .ok _ s' => request (s'.op v)
      | .error _ _ => none

/-- What comes from outside while a line is executed. -/
structure Turn where
  /-- `Now()` -/
  now : ℤ
  /-- The error a LEIS call raises, if any. -/
  leis : Option VbError
  replies : OrderlyReplies

variable (R) in
/-- What the calculator gets of it, for what the call has returned. -/
def Turn.env (t : Turn) (ret : ℤ) (data : Option Bytes) : LineEnv :=
  ⟨t.now, ret, ofAnsi R (data.getD []), t.leis, none⟩

/-- A run of the calculator, and the library it has loaded. -/
structure Station (R : Runtime) where
  run : RunState R
  lib : SapiState

/-- A line, with the call it makes.  A call that does not return takes the process with it. -/
def Station.step (conv : Convert R) (crt : Crt) (s : Station R) (t : Turn) :
    Option (Station R) × Option CallLog :=
  match nextCall s.run with
  | none => (some { s with run := s.run.step conv (t.env R 0 none) }, none)
  | some call =>
    let (lib, log) := call.run crt t.replies.toReplies s.lib
    (log.ret.map fun ret => ⟨s.run.step conv (t.env R ret log.data), lib⟩, some log)

variable (R) in
/-- The item that a parameter is configured with. -/
def item (P : Parameters) (i : ℤ) : Bytes :=
  (P.config i).elim [] fun c => itemName (toAnsi R c.addr2) (toAnsi R c.addr3)

variable (R) in
/-- What the server returned for the item of a parameter, when its handle is among those passed in
the call. -/
def returned (P : Parameters) (r : OrderlyReplies) (asked : List COPCItem) (i : ℤ) :
    Option (ItemState × HRESULT) :=
  (asked.findIdx? fun it => it.hClient = i ∧ it.szItemID = item R P i).map fun n =>
    (r.states asked n, (r.read asked).errors n)

variable (R) in
/-- What was read, when a call has succeeded: the text of a value of good quality, or that of the
error. -/
def Turn.reading (P : Parameters) (crt : Crt) (t : Turn) (o : Option CallLog) :
    Option (ℤ → VbString) :=
  o.bind fun log => if log.ret = some 0 then
    some fun i => ofAnsi R ((listed crt (returned R P t.replies log.read i)).getD []) else none

variable (R) in
/-- A record of a request, as a member. -/
def member (rec : ReadRecord) : ReadMember where
  parID := rec.parID
  sCP := ofAnsi R rec.cp.text
  sConn := ofAnsi R rec.conn.text
  sVarName := ofAnsi R rec.item.text
  sType := ofAnsi R rec.type.text

/-- Groups whose members the library can be asked for. -/
structure PlcLayout (R : Runtime) (P : Parameters) (room : ℤ → ℕ) (known : Set ℤ) extends
    Layout P room known where
  records : ℤ → Option (List ReadRecord)
  members_eq : ∀ g, members g = (records g).map (List.map (member R))

section Line

variable {L : Layout P room known} {line : TFormula} {runID dtDate g : ℤ} {ms : List ReadMember}
  {s s₁ : CalcState R} {d : Datum R} {conv : Convert R} {env : LineEnv}

end Line

/-! ### Calls -/

section Calls

variable {L : PlcLayout R P room known} {line : TFormula} {c : Standing} {g : ℤ}
  {ms : List ReadMember} {d : Datum R} {s : RunState R} {s₁ : CalcState R}

end Calls

/-! ### Steps -/

section Steps

variable {L : PlcLayout R P room known} {c : Standing} {stopped : Bool} {s : Station R}
  {conv : Convert R} {crt : Crt} {t : Turn}

/-- A station stands where the program does.  Where its process is gone, the program has
stopped. -/
inductive StandsAt (L : PlcLayout R P room known) : Option (Station R) → Standing × Bool → Prop
  | gone (c : Standing) : StandsAt L none (c, true)
  | there {s : Station R} {c : Standing} {stopped : Bool}
    (run : s.run.AcquiresAt L.toLayout c stopped)
    (lib : s.lib.All (ReadGroup fun n => item R P n)) : StandsAt L (some s) (c, stopped)

/-- The `WriteQueue` calls of a turn are answered, in a year with four digits. -/
structure Turn.Ordinary (t : Turn) : Prop where
  leis : t.leis = none
  now : FourDigitYear t.now

end Steps

/-! ### Runs -/

section Runs

variable {L : PlcLayout R P room known} {state : CalcState R} {lib : SapiState} {f : CFormula}
  {dtDate runID : ℤ} {value : ℤ → Option VbString} {crt : Crt}

end Runs

/-! ### A group of two in a formula -/

/-- Parameters 17 and 18, and the record of their group at 5. -/
def exampleRecord (i : ℤ) : Option (Datum plainRuntime) :=
  if i = 17 ∨ i = 18 then some { exampleDatum with paramID := .int i, tag := .int i }
  else if i = 5 then
    some { exampleDatum with
      paramID := .int 5, tag := .int 5, linkType := vb "SGR", addr6 := vb "17;18" }
  else none

end Link

end Edps
