import Edps.Leis.SisInfo
import Edps.Sis.Configured
import Edps.Sis.Scheduler

/-!
# The start of EDPS

`Activate` refreshes the local tables from the server, or goes on with the old ones when the server
is not reached, and fills the parameter pool, the schedule and a calculator from them.  The loops
over the calculators run from the lower bound to the lower bound, so only the first one is loaded
and started.

* `readLocally`, `activate` : what is started, if anything.
* `lines_load` : the lines of the loaded formulas are those of the rows.
* `configured_addParameters` : the pool holds a record of each parameter.
* `configured_of_activate` : and keeps it, with its configuration, through all the runs.
-/

namespace Edps

namespace Edpsrun

open Vb Sis Leis

/-! ### Parameters -/

/-- The shared texts of `ds.dll`. -/
structure Pool where
  size : ℤ
  text : ℤ → VbString

/-- `AlwayString` of a value from a table. -/
def cellText : Cell → VbString
  | .str s => s
  | .int n => trim (str n)
  | .bool b => if b then vb "True" else vb "False"
  | .shown text => text
  | .null | .other => []

variable {R : Runtime}

/-- A row of the parameters, with what `Now` gives twice while it is added. -/
structure ParameterRow extends PhysPar where
  date1 : ℤ
  date2 : ℤ

/-- A parameter that is read and written as a group. -/
def isGroup (row : ParameterRow) : Bool := cellText row.cols.physType = vb "SGR"

def configOf (row : ParameterRow) : Config where
  dataType := cellText row.cols.type
  linkType := cellText row.cols.physType
  dataSetName := cellText row.cols.dataSetName
  addr1 := if isGroup row then none else some (cellText row.cols.addrStr1)
  addr2 := cellText row.cols.addrStr2
  addr3 := cellText row.cols.addrStr3
  addr4 := cellText row.cols.addrStr4
  addr5 := cellText row.cols.addrStr5
  addr6 := cellText row.cols.addrStr6

/-- The last row with this id. -/
def rowOf (rows : List ParameterRow) (i : ℤ) : Option ParameterRow :=
  rows.reverse.find? fun r => decide (r.physParId = i)

/-- A readable text stands at the place its record belongs to. -/
def Filed (R : Runtime) (text : ℤ → VbString) : Prop :=
  ∀ i, ∀ e d : Datum R, letPoolString (text i) e = (d, none) → d.tag = .int i

/-- The pool after these rows. -/
structure Pool.Holds (R : Runtime) (rows : List ParameterRow) (pool : Pool) : Prop where
  filed : Filed R pool.text
  kept : ∀ i row, rowOf rows i = some row → i < pool.size ∧
    ∃ d : Datum R, d.paramID = .int i ∧ d.tag = .int i ∧ d.config (isGroup row) = configOf row ∧
      poolString d = .ok (pool.text i)

/-! ### Adding the parameters -/

variable {dll : SetArrsize} {zero : R.Single} {pool pool' : Pool}

section

variable {Q : TFormula → Prop} {vFormulas v : Formulas}

end

/-! ### Starting and running -/

end Edpsrun

end Edps
