import Edps.Lib.Runs
import Edps.Fdis.FDPTR

/-!
# The data server's reader

`RW_FDatum` of the `cAFDR` class answers one request: the text is read into the object's record,
the record is sent to the layer its `LinkType` names (DDE, the PLC through `OpcS7.dll`, the
database), what comes back goes into `Value` and `Date2`, and the record's pool string is the
answer.  There is one record for all requests, and an error in any step jumps to the encoding of
whatever the record holds.

* `rwFDatum` : the answer and the record afterwards.
* `answered_whole_iff` : the client reads back its own record with the whole reply exactly when
  the reply is shorter than 1000 characters.
* `answers_independent_iff` : the answer to a request does not depend on the requests before it
  exactly when `PoolString` accepts the request.
-/

namespace Edps

namespace Fdis

open Vb

variable {R : Runtime}

def FDRead : ℤ := 0

def FDWrite : ℤ := 1

/-- What `RetrieveData` returns: the text of an error, or an array, of which the first element is
taken. -/
inductive Retrieved (R : Runtime) where
  | text (s : VbString)
  | rows (first : Except VbError (Value R))

/-- The answers of the layers below to what they can be asked, and the clock. -/
structure Answers (R : Runtime) where
  /-- A DDE request for a topic and an item. -/
  linkRequest : VbString → VbString → Except VbError VbString
  /-- A DDE poke of a text. -/
  linkPoke : VbString → VbString → VbString → Except VbError Unit
  /-- `SAPI_MRead`: the return code and the text. -/
  sapiMRead : VbString → Except VbError (ℤ × VbString)
  sapiMWrite : VbString → Except VbError ℤ
  sapiRead : VbString → VbString → VbString → VbString → Except VbError (ℤ × VbString)
  sapiWrite : VbString → VbString → VbString → VbString → VbString → Except VbError ℤ
  /-- `RetrieveData` and `InsertData` of a query with its parameters. -/
  retrieveData : VbString → List VbString → Except VbError (Retrieved R)
  insertData : VbString → List VbString → Except VbError (Value R)
  now : ℤ

/-- A text up to its first `Chr(0)`. -/
def cutAtNul (sStr : VbString) : VbString :=
  let lPos := inStr sStr [0]
  if lPos > 0 then sStr.take (lPos - 1) else sStr

/-- What a read function of `OpcS7.dll` returned goes into the record. -/
def Datum.setReply (d : Datum R) (function : VbString) (now : ℤ) (lRetCode : ℤ)
    (sStr : VbString) : Datum R :=
  let sStr := cutAtNul sStr
  let value :=
    if lRetCode < 0 then
      vb "FdIs_ErRoR: " ++ function ++ vb " return code:" ++ str lRetCode ++ vb "! " ++ sStr
    else sStr
  { d with value := .plain (.str value), date2 := now }

/-- What a write function returned; `0` leaves the value. -/
def Datum.setWritten (d : Datum R) (function : VbString) (now : ℤ) (lRetCode : ℤ) : Datum R :=
  let value :=
    if lRetCode ≠ 0 then
      .plain (.str (vb "FdIs_ErRoR: " ++ function ++ vb " return code " ++ str lRetCode ++ vb "!"))
    else d.value
  { d with value, date2 := now }

section Links

variable (E : Answers R) (d : Datum R)

/-- `Case "DDE"` -/
def linkDDE : Except VbError (Datum R) :=
  if d.action = FDRead then do
    let text ← E.linkRequest d.addr1 d.addr2
    return { d with value := .plain (.str text), date2 := E.now }
  else if d.action = FDWrite then do
    E.linkPoke d.addr1 d.addr2 (alwayString d.value)
    return { d with date2 := E.now }
  else .ok d

/-- `Case "SGR"` -/
def linkSGR : Except VbError (Datum R) :=
  if d.action = FDRead then do
    let (lRetCode, sStr) ← E.sapiMRead d.addr1
    return d.setReply (vb "SAPI_MRead") E.now lRetCode sStr
  else if d.action = FDWrite then do
    return d.setWritten (vb "SAPI_MWrite") E.now (← E.sapiMWrite d.addr1)
  else .ok d

/-- `Case "SAP"` -/
def linkSAP : Except VbError (Datum R) :=
  if d.action = FDRead then do
    let (lRetCode, sStr) ← E.sapiRead d.addr1 d.addr2 d.addr3 d.addr4
    return d.setReply (vb "SAPI_read") E.now lRetCode sStr
  else if d.action = FDWrite then do
    let lRetCode ← E.sapiWrite d.addr1 d.addr2 d.addr3 d.addr4 (alwayString d.value)
    return d.setWritten (vb "SAPI_write") E.now lRetCode
  else .ok d

/-- `Case "DBI"` -/
def linkDBI : Except VbError (Datum R) :=
  let vPar := [d.addr2, d.addr3, d.addr4, d.addr5, d.addr6]
  if d.action = FDRead then do
    let value ← match ← E.retrieveData d.addr1 vPar with
      | .rows first => first
      | .text s => .ok (.plain (.str (vb "FdIs_ErRoR: " ++ s)))
    return { d with value, date2 := E.now }
  else if d.action = FDWrite then do
    return { d with value := ← E.insertData d.addr1 vPar, date2 := E.now }
  else .ok d

/-- `Select Case FDPTR.LinkType`.  A branch that raises an error has not changed the record. -/
def selectLink : Except VbError (Datum R) :=
  if d.linkType = vb "DDE" then linkDDE E d
  else if d.linkType = vb "SGR" then linkSGR E d
  else if d.linkType = vb "SAP" then linkSAP E d
  else if d.linkType = vb "DBI" then linkDBI E d
  else .ok d

end Links

/-- `RW_FDatum`: the answer, and the record afterwards. -/
def rwFDatum (E : Answers R) (sRequest : VbString) (d : Datum R) : VbString × Datum R :=
  let record :=
    match letPoolString sRequest d with
    | (d, some _) => d
    | (d, none) =>
      match selectLink E d with
      | .ok d' => d'
      | .error _ => d
  (poolString record, record)

/-- The object over its requests. -/
def afdr : Machine (Datum R) (VbString × Answers R) VbString where
  next d request :=
    let (answer, d) := rwFDatum request.2 request.1 d
    (d, answer)

/-! ### The whole reply -/

theorem cutAtNul_eq_self {s : VbString} (h : (0 : UInt16) ∉ s) : cutAtNul s = s := by
  simp [cutAtNul, inStr, inStrFrom_of_not_mem h]

/-- The answer of the PLC to a read of the record `d`. -/
def Answers.Reply (E : Answers R) (d : Datum R) (lRetCode : ℤ) (reply : VbString) : Prop :=
  d.linkType = vb "SGR" ∧ E.sapiMRead d.addr1 = .ok (lRetCode, reply) ∨
    d.linkType = vb "SAP" ∧
      E.sapiRead d.addr1 d.addr2 d.addr3 d.addr4 = .ok (lRetCode, reply)

/-- A reply without error is the record's value. -/
theorem selectLink_reply {E : Answers R} {d : Datum R} (hread : d.action = FDRead)
    {lRetCode : ℤ} {reply : VbString} (hreply : E.Reply d lRetCode reply) (hcode : 0 ≤ lRetCode)
    (hnul : (0 : UInt16) ∉ reply) :
    selectLink E d = .ok { d with value := .plain (.str reply), date2 := E.now } := by
  have hne₁ : vb "SGR" ≠ vb "DDE" := by decide +kernel
  have hne₂ : vb "SAP" ≠ vb "DDE" := by decide +kernel
  have hne₃ : vb "SAP" ≠ vb "SGR" := by decide +kernel
  have hset (function : VbString) : d.setReply function E.now lRetCode reply =
      { d with value := .plain (.str reply), date2 := E.now } := by
    have hneg : ¬ lRetCode < 0 := by omega
    simp [Datum.setReply, cutAtNul_eq_self hnul, hneg]
  obtain ⟨hlink, hans⟩ | ⟨hlink, hans⟩ := hreply
  · have hselect : selectLink E d = linkSGR E d := by
      rw [selectLink, hlink, if_neg hne₁, if_pos rfl]
    rw [hselect, linkSGR, if_pos hread, hans]
    exact congrArg Except.ok (hset _)
  · have hselect : selectLink E d = linkSAP E d := by
      rw [selectLink, hlink, if_neg hne₂, if_neg hne₃, if_pos rfl]
    rw [hselect, linkSAP, if_pos hread, hans]
    exact congrArg Except.ok (hset _)

/-- **The client reads the whole reply** exactly when it is shorter than 1000 characters: the
answer to the pool string of a record, read into any record, is the client's record with the reply
as its value and some second date. -/
theorem answered_whole_iff {d : Datum R} (hd : d.Encodable) {request : VbString}
    (hrequest : d.value = .plain (.str request)) (hlen : request.length < 1000)
    (hread : d.action = FDRead) {E : Answers R} (hnow : Sis.FourDigitYear E.now) {lRetCode : ℤ}
    {reply : VbString} (hreply : E.Reply d lRetCode reply) (hcode : 0 ≤ lRetCode)
    (hnul : (0 : UInt16) ∉ reply) (server client : Datum R) :
    (∃ date2, letPoolString (rwFDatum E (poolString d) server).1 client =
      ({ d with value := .plain (.str reply), date2 := date2 }, none)) ↔ reply.length < 1000 := by
  set answer : Datum R := { d with value := .plain (.str reply), date2 := E.now } with hanswer
  have hrw : (rwFDatum E (poolString d) server).1 = poolString answer := by
    simp only [rwFDatum, letPoolString_poolString hd hrequest hlen server,
      selectLink_reply hread hreply hcode hnul, hanswer]
  have henc : answer.Encodable := ⟨hd.action, hd.texts, hd.date1, hnow, hd.paramID, hd.tag⟩
  rw [hrw]
  constructor
  · rintro ⟨date2, hdecode⟩
    by_contra hlong
    exact letPoolString_long_value henc rfl (by omega) hdecode rfl
  · intro hshort
    exact ⟨E.now, letPoolString_poolString henc rfl hshort client⟩

/-- A read request for an item behind the SAPI. -/
def exampleRequest : Datum plainRuntime where
  paramID := .plain (.int 17)
  dataType := vb "float"
  linkType := vb "SAP"
  dataSetName := vb "cFDPTR12"
  addr1 := vb "S7_L2"
  addr2 := vb "CONN1"
  addr3 := vb "DB10,REAL4,1"
  addr4 := vb "FLOAT"
  addr5 := []
  addr6 := vb "123"
  date1 := 3313267200
  date2 := 3313353599
  value := .plain (.str [])
  tag := .plain (.int 17)
  action := 0

/-- A PLC that gives this reply to every read, and takes every write. -/
def replying (reply : VbString) : Answers plainRuntime where
  linkRequest _ _ := .error .automation
  linkPoke _ _ _ := .error .automation
  sapiMRead _ := .ok (0, reply)
  sapiMWrite _ := .ok 0
  sapiRead _ _ _ _ := .ok (0, reply)
  sapiWrite _ _ _ _ _ := .ok 0
  retrieveData _ _ := .error .automation
  insertData _ _ := .error .automation
  now := 3313353600

theorem encodable_exampleRequest : exampleRequest.Encodable := by
  have hyear₁ : Sis.FourDigitYear 3313267200 := by unfold Sis.FourDigitYear; decide
  have hyear₂ : Sis.FourDigitYear 3313353599 := by unfold Sis.FourDigitYear; decide
  exact ⟨by decide, by decide, hyear₁, hyear₂, ⟨17, rfl, by decide⟩, ⟨17, rfl, by decide⟩⟩

theorem fourDigitYear_replying (reply : VbString) : Sis.FourDigitYear (replying reply).now := by
  show Sis.FourDigitYear 3313353600
  unfold Sis.FourDigitYear
  decide

theorem answered_whole_short :
    (∃ date2, letPoolString (rwFDatum (replying (vb "21.5")) (poolString exampleRequest)
      Datum.new).1 Datum.new =
        ({ exampleRequest with value := .plain (.str (vb "21.5")), date2 := date2 }, none)) ↔
      (vb "21.5").length < 1000 :=
  answered_whole_iff encodable_exampleRequest rfl (by decide) rfl
    (fourDigitYear_replying _) (.inr ⟨rfl, rfl⟩) (le_refl 0) (by decide +kernel) _ _

/-- Of a reply of 1000 characters the client reads the last digit of its length and 99
characters. -/
theorem reply_of_1000_cut :
    ¬ ∃ date2, letPoolString (rwFDatum (replying (List.replicate 1000 65))
      (poolString exampleRequest) Datum.new).1 Datum.new =
        ({ exampleRequest with value := .plain (.str (List.replicate 1000 65)), date2 := date2 },
          none) := by
  rintro ⟨date2, h⟩
  have hcut : alwayString (letPoolString (rwFDatum (replying (List.replicate 1000 65))
      (poolString exampleRequest) Datum.new).1 (Datum.new : Datum plainRuntime)).1.value =
        48 :: List.replicate 99 65 := by
    decide +kernel
  rw [h] at hcut
  have hlen := congrArg List.length hcut
  simp only [alwayString, alwayString_str, List.length_replicate, List.length_cons] at hlen
  omega

/-! ### Requests before -/

/-- `PoolString` Let accepts the text of a request. -/
def accepts (R : Runtime) (sRequest : VbString) : Bool :=
  (letPoolString sRequest (Datum.new : Datum R)).2.isNone

/-- The answer to an accepted request, from any record. -/
theorem rwFDatum_of_accepts {sRequest : VbString} (h : accepts R sRequest) (E : Answers R)
    (d d' : Datum R) : (rwFDatum E sRequest d).1 = (rwFDatum E sRequest d').1 := by
  obtain ⟨r, hr⟩ : ∃ r : Datum R, ∀ e, letPoolString sRequest e = (r, none) :=
    ⟨_, letPoolString_congr (Prod.ext rfl (Option.isNone_iff_eq_none.1 h))⟩
  simp only [rwFDatum, hr]

/-- A record in which only the `Value` is not empty. -/
def valueOnly (v : VbString) : Datum R :=
  ⟨.plain (.int 0), [], [], [], [], [], [], [], [], [], 3313267200, 3313267200, .plain (.str v),
    .plain (.int 0), 0⟩

theorem encodable_valueOnly (v : VbString) : (valueOnly v : Datum R).Encodable := by
  have hyear : Sis.FourDigitYear 3313267200 := by unfold Sis.FourDigitYear; decide
  exact ⟨by simp [valueOnly], by simp [valueOnly], hyear, hyear, ⟨0, rfl, by decide⟩,
    ⟨0, rfl, by decide⟩⟩

/-- Records that differ in the value have different pool strings. -/
theorem framed_eq_of_poolString_eq {d : Datum R} {v w : VbString}
    (h : poolString (d.withValue (.plain (.str v))) = poolString (d.withValue (.plain (.str w)))) :
    Sis.framed v = Sis.framed w := by
  have hpool (u : VbString) : poolString (d.withValue (.plain (.str u))) =
      SCLSNAME ++ ((leadingParts d).flatMap Sis.framed ++ Sis.framed u) := by
    have hlead : leadingParts (d.withValue (.plain (.str u))) = leadingParts d := rfl
    have hvalue : alwayString (d.withValue (.plain (.str u))).value = u := rfl
    rw [poolString, hlead, hvalue, List.flatMap_append, List.flatMap_singleton]
  rw [hpool, hpool] at h
  exact List.append_cancel_left (List.append_cancel_left h)

/-- The request for it leaves it in the object. -/
theorem after_valueOnly (E : Answers R) {v : VbString} (hv : v.length < 1000) (d : Datum R) :
    afdr.after d [(poolString (valueOnly v : Datum R), E)] = valueOnly v := by
  have hlink {t : VbString} (ht : t ≠ []) : (valueOnly v : Datum R).linkType ≠ t := ht.symm
  have hselect : selectLink E (valueOnly v) = .ok (valueOnly v) := by
    rw [selectLink, if_neg (hlink (by decide +kernel)), if_neg (hlink (by decide +kernel)),
      if_neg (hlink (by decide +kernel)), if_neg (hlink (by decide +kernel))]
  simp only [Machine.after_cons, Machine.after_nil, afdr, rwFDatum,
    letPoolString_poolString (encodable_valueOnly v) rfl hv d, hselect]

/-- **The answer to a request does not depend on the requests before it** exactly when
`PoolString` accepts the request. -/
theorem answers_independent_iff (sRequest : VbString) (E : Answers R) :
    (∀ history history' : List (VbString × Answers R),
      (rwFDatum E sRequest (afdr.after Datum.new history)).1 =
        (rwFDatum E sRequest (afdr.after Datum.new history')).1) ↔ accepts R sRequest = true := by
  refine ⟨fun h => ?_, fun h history history' => rwFDatum_of_accepts h E _ _⟩
  by_contra hrejected
  have hfail : ∀ d : Datum R, (letPoolString sRequest d).2 ≠ none := by
    intro d hnone
    have hread : letPoolString sRequest d = ((letPoolString sRequest d).1, none) :=
      Prod.ext rfl hnone
    exact hrejected (Option.isNone_iff_eq_none.2
      (congrArg Prod.snd (letPoolString_congr hread Datum.new)))
  have hanswer (d : Datum R) :
      (rwFDatum E sRequest d).1 = poolString (letPoolString sRequest d).1 := by
    rcases hread : letPoolString sRequest d with ⟨r, _ | e⟩
    · exact absurd (congrArg Prod.snd hread) (hfail d)
    · simp only [rwFDatum, hread]
  -- two earlier requests whose records differ in the value alone
  have hsame := h [(poolString (valueOnly [] : Datum R), E)]
    [(poolString (valueOnly [49] : Datum R), E)]
  have hleft (v : VbString) : letPoolString sRequest (valueOnly v : Datum R) = _ :=
    letPoolString_failed (.plain (.str v)) (hfail (valueOnly []))
  rw [after_valueOnly E (by decide), after_valueOnly E (by decide), hanswer, hanswer, hleft [],
    hleft [49]] at hsame
  have hframed := congrArg List.length (framed_eq_of_poolString_eq hsame)
  rw [Sis.length_framed (by decide), Sis.length_framed (by decide)] at hframed
  exact absurd hframed (by decide)

/-- A text that ends behind the class name is answered with the record of the request before. -/
theorem answers_not_independent :
    ¬ ∀ history history' : List (VbString × Answers plainRuntime),
      (rwFDatum (replying []) (vb "cFDPTR") (afdr.after Datum.new history)).1 =
        (rwFDatum (replying []) (vb "cFDPTR") (afdr.after Datum.new history')).1 := by
  intro h
  have hsame := h [(poolString exampleRequest, replying (vb "21.5"))] []
  revert hsame
  decide +kernel

end Fdis

end Edps
