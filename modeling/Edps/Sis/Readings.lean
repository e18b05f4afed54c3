import Edps.Sis.Configured
import Edps.Sis.Programs
import Edps.Sis.Replies

/-!
# Programs that read groups

An `SMREAD` line makes a request of the addresses of the members of a group, has it answered, and
writes the values of the answer to the records of the members.  In the program it is a line that
gives new values to the members, all of them at once, or stops.

* `Layout` : the groups, with their members and the addresses these are configured with.
* `TFormula.acquire`, `CFormula.acquireNext` : the program with readings.
* `Serves` : pool strings with these values, this configuration and these groups.
* `groupLine_asks` : the request of an `SMREAD` line names every member with its own address.
* `Asked.takes` : what an answer does to the pool strings.
* `computing_acquires` : a line of computations does what it does in the program.
-/

namespace Edps

namespace Sis

open Vb

/-! ### The program -/

/-- A member of a group: the number of a parameter, and its address. -/
structure ReadMember where
  parID : ℤ
  sCP : VbString
  sConn : VbString
  sVarName : VbString
  sType : VbString
  deriving DecidableEq, Repr

/-- The member in a request. -/
def ReadMember.toRead (m : ReadMember) : ToRead :=
  ⟨m.sCP, m.sConn, m.sVarName, m.sType, cStr m.parID⟩

/-- A parameter is configured with the address of the member. -/
structure ReadMember.Configured (P : Parameters) (m : ReadMember) : Prop where
  single : P.group m.parID = false
  address : ∃ c, P.config m.parID = some c ∧ c.addr1 = some m.sCP ∧ c.addr2 = m.sConn ∧
    c.addr3 = m.sVarName ∧ c.addr4 = m.sType

/-- The groups that are read: they have two members at least, which are known parameters, each in
a place of its own with room for a text of 63 characters. -/
structure Layout (P : Parameters) (room : ℤ → ℕ) (known : Set ℤ) where
  members : ℤ → Option (List ReadMember)
  isGroup : ∀ g ms, members g = some ms → P.group g = true ∧ g ∉ known
  two : ∀ g ms, members g = some ms → 2 ≤ ms.length
  distinct : ∀ g ms, members g = some ms → (ms.map ReadMember.parID).Nodup
  configured : ∀ g ms, members g = some ms → ∀ m ∈ ms, m.Configured P
  short : ∀ g ms, members g = some ms → ∀ m ∈ ms, m.toRead.ShortAddress
  place : ∀ g ms, members g = some ms → ∀ m ∈ ms, m.parID ∈ known ∧ 66 < room m.parID

variable {R : Runtime} {P : Parameters} {room : ℤ → ℕ} {known : Set ℤ}

/-- New values for members. -/
def Standing.take (c : Standing) (ms : List ReadMember) (texts : ℤ → VbString) : Standing :=
  ⟨c.line + 1, fun i => if i ∈ ms.map ReadMember.parID then some (texts i) else c.value i⟩

theorem Standing.take_of_mem {c : Standing} {ms : List ReadMember} {texts : ℤ → VbString} {i : ℤ}
    (h : i ∈ ms.map ReadMember.parID) : (c.take ms texts).value i = some (texts i) := if_pos h

theorem Standing.take_of_notMem {c : Standing} {ms : List ReadMember} {texts : ℤ → VbString} {i : ℤ}
    (h : i ∉ ms.map ReadMember.parID) : (c.take ms texts).value i = c.value i := if_neg h

variable (R) in
/-- A line of a program with readings: an `SMREAD` line takes what was read, if it comes to that
and something was. -/
def TFormula.acquire (L : Layout P room known) (reading : Option (ℤ → VbString)) (line : TFormula)
    (c : Standing) : Option Standing :=
  if FunctionCode.ofText line.functionCode = .smread then do
    let g ← (cInt R.numeric line.operand1).toOption
    let _ ← operandText R c.value [vb "CONST"] line.type2 line.operand2
    let _ ← operandText R c.value [vb "CONST", vb "LINE"] line.type3 line.operand3
    let ms ← L.members g
    if ∀ m ∈ ms, (c.value m.parID).isSome then
      reading.map (c.take ms)
    else none
  else line.perform R room c

variable (R) in
/-- The program, for what is read at this line. -/
def CFormula.acquireNext (L : Layout P room known) (f : CFormula) (reading : Option (ℤ → VbString))
    (c : Standing) : Option Standing :=
  if f.lineMax < c.line then none
  else (f.line? c.line).bind fun line => line.acquire R L reading c

/-! ### Lines and records it is about -/

/-- A line that reads a group. -/
structure TFormula.Reads (R : Runtime) (L : Layout P room known) (line : TFormula) : Prop where
  code : FunctionCode.ofText line.functionCode = .smread
  type1 : line.type1 = vb "PARAM"
  group : ∀ g, cInt R.numeric line.operand1 = .ok g → (L.members g).isSome
  known2 : line.type2 = vb "PARAM" → ∀ i, cInt R.numeric line.operand2 = .ok i → i ∈ known
  known3 : line.type3 = vb "PARAM" → ∀ i, cInt R.numeric line.operand3 = .ok i → i ∈ known

/-- A line of computations, or one that reads a group. -/
def TFormula.Acquiring (R : Runtime) (L : Layout P room known) (line : TFormula) : Prop :=
  line.Computing R known ∨ line.Reads R L

/-- The record of a group: it lists its members, and a request of them and an answer with short
texts are short enough for its pool string. -/
structure Datum.Groups (ms : List ReadMember) (d : Datum R) : Prop where
  linkType : d.linkType = vb "SGR"
  members : memberIds d.addr6 = ms.map fun m => cStr m.parID
  within : SemicolonsWithin d.addr6
  request : (readRequest (ms.map ReadMember.toRead)).length ≤ maxPartLen
  answer : 74 * ms.length ≤ maxPartLen
  room : ({ d with action := FDRead, addr1 := readRequest (ms.map ReadMember.toRead) } :
    Datum R).frameLen + 3 + 74 * ms.length < 32767

/-- The store holds these values, the configuration and the records of the groups. -/
structure Serves (R : Runtime) (L : Layout P room known) (store : ℤ → VbString)
    (value : ℤ → Option VbString) : Prop where
  values : Represents R room known store value
  configured : P.Configured R store
  groups : ∀ g ms, L.members g = some ms → ∃ d : Datum R, Stored store g d ∧ d.Groups ms

theorem Stored.congr {store store' : ℤ → VbString} {i : ℤ} {d : Datum R} (h : Stored store i d)
    (hsame : store' i = store i) : Stored store' i d where
  encodable := h.encodable
  tag := h.tag
  text := by rw [hsame, h.text]
  short := by rw [hsame]; exact h.short

/-! ### Asking -/

section Asking

variable {L : Layout P room known} {line : TFormula} {runID dtDate g : ℤ} {ms : List ReadMember}
  {value : ℤ → Option VbString} {s : CalcState R} {d : Datum R}

/-- An `SMREAD` line of a group with the record `d`, executed in `s` where all members can be read,
makes its call in `s₁`. -/
structure Asked (L : Layout P room known) (c : Standing) (dtDate : ℤ) (line : TFormula) (runID : ℤ)
    (g : ℤ) (ms : List ReadMember) (d : Datum R) (s s₁ : CalcState R) : Prop where
  number : toInteger g = .ok g
  members : L.members g = some ms
  stored : Stored s.store g d
  groups : d.Groups ms
  readable : ∀ m ∈ ms, (c.value m.parID).isSome
  calls : Calls dtDate line runID .vOp1 s s₁
  store : s₁.store = s.store
  iCurrent : s₁.iCurrent = s.iCurrent
  op : s₁.op .vOp1 = { d with
    someID := .int runID
    action := FDRead
    addr1 := readRequest (ms.map ReadMember.toRead) }
  places : s₁.oResult.length = ms.length

end Asking

/-! ### Taking what was read -/

section Taking

variable {L : Layout P room known} {line : TFormula} {runID dtDate g : ℤ} {ms : List ReadMember}
  {value : ℤ → Option VbString} {s s₁ : CalcState R} {d : Datum R} {conv : Convert R}
  {env : LineEnv} {texts : ℤ → VbString}

/-- An `SMREAD` line up to its call, and from it on. -/
theorem exec_smread : exec conv env dtDate .smread = (do
    beforeRW dtDate .smread
    mustRW env .vOp1
    spreadResuts (toText (← getOp .vOp1).value)
    setDate1 .vOp1 dtDate
    share .vOp1 : CalcM R Unit) := by
  simp only [exec, beforeRW, bind_assoc]

theorem TFormula.Reads.calculateLine_eq (hline : line.Reads R L) :
    calculateLine conv env dtDate line runID = (do
      loadOperands line runID >>= fun _ => beforeRW dtDate .smread
      mustRW env .vOp1
      spreadResuts (toText (← getOp .vOp1).value)
      setDate1 .vOp1 dtDate
      share .vOp1 : CalcM R Unit) := by
  rw [calculateLine, hline.code, exec_smread, bind_assoc]

/-- An `SMREAD` line from its call on. -/
theorem Asked.calculateLine_eq {c : Standing} (h : Asked L c dtDate line runID g ms d s s₁)
    (hline : line.Reads R L) :
    calculateLine conv env dtDate line runID s = (do
      mustRW env .vOp1
      spreadResuts (toText (← getOp .vOp1).value)
      setDate1 .vOp1 dtDate
      share .vOp1 : CalcM R Unit) s₁ := by
  have hreached := h.calls.reached
  rw [hline.code] at hreached
  rw [hline.calculateLine_eq, bind_of_ok hreached]

/-- The pairs of an answer. -/
def pairs (ms : List ReadMember) (texts : ℤ → VbString) : List (ℤ × VbString) :=
  ms.map fun m => (m.parID, texts m.parID)

theorem length_cStr_le_five {n : ℤ} (h : 0 ≤ n ∧ n ≤ 32767) : (cStr n).length ≤ 5 := by
  have := Decimal.length_digits_le (n := n.natAbs) (k := 5) (by omega) (by omega)
  rw [cStr, length_ofCodes, Decimal.intText, if_neg (by omega), Decimal.natText,
    Decimal.length_codes]
  exact this

/-- An answer with short texts. -/
theorem length_answer_le {ps : List (ℤ × VbString)}
    (h : ∀ p ∈ ps, (0 ≤ p.1 ∧ p.1 ≤ 32767) ∧ p.2.length < 64) :
    (resultText ps).length ≤ 74 * ps.length := by
  induction ps with
  | nil => rfl
  | cons p ps ih =>
    obtain ⟨⟨hid, htext⟩, hrest⟩ := List.forall_mem_cons.1 h
    have hlen := length_cStr_le_five hid
    have hle := ih hrest
    rw [resultText_cons]
    simp only [List.length_append, length_behindLength, List.length_cons]
    omega

/-- Spreading an answer touches neither the group record nor the loop variable. -/
theorem keeps_spreadResuts (sRes : VbString) :
    Keeps (fun s : CalcState R => (s.op .vOp1, s.iCurrent)) (spreadResuts sRes) := by
  have hset (s : CalcState R) (d : Datum R) :
      ((s.setOp .mfdptr d).op .vOp1, (s.setOp .mfdptr d).iCurrent) = (s.op .vOp1, s.iCurrent) := by
    rw [CalcState.setOp_op_ne _ (by decide)]
    rfl
  have hput (sID sRes : VbString) : Keeps (fun s : CalcState R => (s.op .vOp1, s.iCurrent))
      (putDataByID .mfdptr sID sRes) := by
    refine (keeps_liftE _).bind fun i => (keeps_getData hset i).bind ?_
    intro _
    refine Keeps.bind (fun s => hset s _) fun _ => (keeps_liftE _).bind ?_
    intro i s
    unfold endState shareData
    cases poolString (s.op .mfdptr) <;> rfl
  refine .ite ?_ (.pure _)
  refine Keeps.bind (fun _ => rfl) fun s => (keeps_liftE _).bind ?_
  intro oResult
  refine Keeps.bind (fun _ => rfl) fun _ => Keeps.bind ?_ fun _ => .pure _
  exact .forIn fun r _ => (hput _ _).bind fun _ => .pure _

/-- A single parameter takes a short text. -/
theorem takes_of_plain {store : ℤ → VbString} {i : ℤ} (hd : Stored store i d)
    (hplain : d.Plain room i) (hroom : 66 < room i) (hi : 0 ≤ i ∧ i ≤ 32767) {t : VbString}
    (ht : t.length < 64) : Takes store (i, t) d where
  holds := ⟨hd.encodable, hd.text, hd.short⟩
  pair := ⟨⟨by show -32768 ≤ i; omega, hi.2⟩, by show t.length < 1000; omega⟩
  fits u hu := by
    have henc : (d.withValue t).Encodable := encodable_withValue hd.encodable (by omega)
    have hlen := length_poolString henc rfl hu
    have hframe : (d.withValue t).frameLen = d.frameLen := rfl
    have hpart : partLen t ≤ 66 := by
      unfold partLen
      split_ifs <;> omega
    have hplace := hplain.room
    omega

/-- **The members take what was read.** -/
theorem spreadResuts_members (hs : Serves R L s.store value) (hms : L.members g = some ms)
    (hall : ∀ m ∈ ms, (value m.parID).isSome) (htexts : ∀ m ∈ ms, (texts m.parID).length < 64)
    (hplaces : s.oResult.length = ms.length) (hshort : 74 * ms.length < 32767) :
    ∃ s', spreadResuts (resultText (pairs ms texts)) s = .ok () s' ∧
      s'.op .vOp1 = s.op .vOp1 ∧ s'.iCurrent = s.iCurrent ∧
      (∀ m ∈ ms, ∃ d : Datum R, Stored s'.store m.parID d ∧ d.value = .str (texts m.parID) ∧
        d.Plain room m.parID) ∧
      ∀ j ∉ ms.map ReadMember.parID, s'.store j = s.store j := by
  have hnumber : ∀ m ∈ ms, 0 ≤ m.parID ∧ m.parID ≤ 32767 := by
    intro m hm
    obtain ⟨-, c, hc, -⟩ := L.configured g ms hms m hm
    exact P.isNumber _ _ hc
  have hrecord (i : ℤ) : ∃ d : Datum R, i ∈ ms.map ReadMember.parID →
      Stored s.store i d ∧ d.Plain room i := by
    by_cases hi : i ∈ ms.map ReadMember.parID
    · obtain ⟨m, hm, rfl⟩ := List.mem_map.1 hi
      obtain ⟨t, ht⟩ := Option.isSome_iff_exists.1 (hall m hm)
      obtain ⟨d, hd, -, hplain⟩ := hs.values.readable m.parID (L.place g ms hms m hm).1 t ht
      exact ⟨d, fun _ => ⟨hd, hplain⟩⟩
    · exact ⟨s.op .vOp1, fun h => absurd h hi⟩
  choose record hrecord using hrecord
  have hids : (pairs ms texts).map Prod.fst = ms.map ReadMember.parID := by
    rw [pairs, List.map_map]
    rfl
  have htakes : ∀ p ∈ pairs ms texts, Takes s.store p (record p.1) := by
    intro p hp
    obtain ⟨m, hm, rfl⟩ := List.mem_map.1 hp
    obtain ⟨hd, hplain⟩ := hrecord m.parID (List.mem_map_of_mem hm)
    exact takes_of_plain hd hplain (L.place g ms hms m hm).2 (hnumber m hm) (htexts m hm)
  have hsize : s.oResult.length = (pairs ms texts).length := by
    rw [hplaces, pairs, List.length_map]
  have hlen : (resultText (pairs ms texts)).length < 32767 := by
    have hle : (resultText (pairs ms texts)).length ≤ 74 * (pairs ms texts).length := by
      refine length_answer_le ?_
      intro p hp
      obtain ⟨m, hm, rfl⟩ := List.mem_map.1 hp
      exact ⟨hnumber m hm, htexts m hm⟩
    rw [← hsize, hplaces] at hle
    omega
  have hparse : parseResult (R := R) ([] ++ resultText (pairs ms texts)) s.oResult 1 = _ :=
    parseResult_ok hsize (fun p hp => (htakes p hp).pair) (by simp) (by simpa using hlen)
  rw [List.nil_append] at hparse
  have hnum : R.isNumeric ((resultText (pairs ms texts)).take 3) = true := by
    have htwo := L.two g ms hms
    obtain ⟨m, ms', rfl⟩ := List.exists_cons_of_length_pos (by omega : 0 < ms.length)
    rw [pairs, List.map_cons, resultText_cons]
    have hid := hnumber m List.mem_cons_self
    exact isNumeric_behindLength (length_cStr_lt ⟨by omega, by omega⟩) _
  obtain ⟨s', hloop, hheld, hframe⟩ := putAll_ok record
    { s with oResult := (pairs ms texts).map toResults } (hids ▸ L.distinct g ms hms) htakes
  have hspread := spreadResuts_ok hnum hparse hloop
  have hkept := (keeps_spreadResuts _).of_ok hspread
  rw [Prod.mk.injEq] at hkept
  refine ⟨s', hspread, hkept.1, hkept.2, ?_, fun j hj => hframe j (hids ▸ hj)⟩
  intro m hm
  obtain ⟨hd, hplain⟩ := hrecord m.parID (List.mem_map_of_mem hm)
  have hholds := hheld (m.parID, texts m.parID) (List.mem_map_of_mem hm)
  exact ⟨_, ⟨hholds.encodable, hd.tag, hholds.text, hholds.short⟩, rfl, hplain.paramID,
    hplain.linkType, hplain.room⟩

/-- The values when members have taken theirs. -/
theorem Represents.take {store store' : ℤ → VbString} {c : Standing}
    (hrep : Represents R room known store c.value)
    (hmembers : ∀ m ∈ ms, ∃ d : Datum R, Stored store' m.parID d ∧
      d.value = .str (texts m.parID) ∧ d.Plain room m.parID)
    (hframe : ∀ j ∈ known, j ∉ ms.map ReadMember.parID → store' j = store j) :
    Represents R room known store' (c.take ms texts).value := by
  constructor
  · intro i hi t ht
    by_cases hmem : i ∈ ms.map ReadMember.parID
    · obtain ⟨m, hm, rfl⟩ := List.mem_map.1 hmem
      rw [Standing.take_of_mem hmem, Option.some.injEq] at ht
      obtain ⟨d, hd, hval, hplain⟩ := hmembers m hm
      exact ⟨d, hd, by rw [hval, ht], hplain⟩
    · rw [Standing.take_of_notMem hmem] at ht
      obtain ⟨d, hd, hval, hplain⟩ := hrep.readable i hi t ht
      exact ⟨d, hd.congr (hframe i hi hmem), hval, hplain⟩
  · intro i hi hnone e
    by_cases hmem : i ∈ ms.map ReadMember.parID
    · rw [Standing.take_of_mem hmem] at hnone
      cases hnone
    · rw [Standing.take_of_notMem hmem] at hnone
      rw [hframe i hi hmem]
      exact hrep.unreadable i hi hnone e

/-- The record of a group with an answer. -/
def Datum.answered (d : Datum R) (ms : List ReadMember) (text : VbString) (runID now dtDate : ℤ) :
    Datum R :=
  { d with
    someID := .int runID
    action := FDRead
    addr1 := readRequest (ms.map ReadMember.toRead)
    value := .str text
    date1 := some dtDate
    date2 := some now }

theorem Datum.Groups.answered (hd : d.Groups ms) (text : VbString) (runID now dtDate : ℤ) :
    (d.answered ms text runID now dtDate).Groups ms where
  linkType := hd.linkType
  members := hd.members
  within := hd.within
  request := hd.request
  answer := hd.answer
  room := hd.room

theorem encodable_answered (henc : d.Encodable) (hd : d.Groups ms) {text : VbString}
    (htext : text.length ≤ 74 * ms.length) {now : ℤ} (hnow : FourDigitYear now)
    (hdate : FourDigitYear dtDate) : (d.answered ms text runID now dtDate).Encodable where
  action := by
    show -2147483648 ≤ FDRead ∧ FDRead ≤ 2147483647
    decide
  texts := by
    obtain ⟨-, hrest⟩ := List.forall_mem_cons.1 henc.texts
    exact List.forall_mem_cons.2 ⟨hd.request, hrest⟩
  date1 := ⟨dtDate, rfl, hdate⟩
  date2 := ⟨now, rfl, hnow⟩
  paramID := henc.paramID
  tag := henc.tag
  value := ⟨text, rfl, htext.trans hd.answer⟩

/-- The record of a group with an answer, written back. -/
theorem stored_answered {store : ℤ → VbString} (hstored : Stored store g d) (hd : d.Groups ms)
    {text t : VbString} (htext : text.length ≤ 74 * ms.length) {now : ℤ} (hnow : FourDigitYear now)
    (hdate : FourDigitYear dtDate)
    (ht : poolString (d.answered ms text runID now dtDate) = .ok t) (store' : ℤ → VbString) :
    Stored (Function.update store' g t) g (d.answered ms text runID now dtDate) where
  encodable := encodable_answered hstored.encodable hd htext hnow hdate
  tag := hstored.tag
  text := by rw [Function.update_self, ht]
  short := by
    have henc : (d.answered ms text runID now dtDate).Encodable :=
      encodable_answered hstored.encodable hd htext hnow hdate
    have hlen := length_poolString henc rfl ht
    have hframe : (d.answered ms text runID now dtDate).frameLen = ({ d with
        action := FDRead
        addr1 := readRequest (ms.map ReadMember.toRead) } : Datum R).frameLen := rfl
    have hroom := hd.room
    have hpart : partLen text ≤ 3 + 74 * ms.length := by
      unfold partLen
      split_ifs <;> omega
    rw [Function.update_self]
    omega

/-- **An answer that is taken**: the members have their texts, the group has its answer, and other
records are as before. -/
theorem Asked.takes {c : Standing} (h : Asked L c dtDate line runID g ms d s s₁)
    (hline : line.Reads R L) (hs : Serves R L s.store c.value)
    (htexts : ∀ m ∈ ms, (texts m.parID).length < 64) {now : ℤ} (hnow : FourDigitYear now)
    (hdate : FourDigitYear dtDate)
    (hmust : mustRW env .vOp1 s₁ = .ok () (s₁.setOp .vOp1 { s₁.op .vOp1 with
      value := .str (resultText (pairs ms texts)), date2 := some now })) :
    ∃ s', calculateLine conv env dtDate line runID s = .ok () s' ∧ s'.iCurrent = s.iCurrent ∧
      Represents R room known s'.store (c.take ms texts).value ∧
      (∃ d' : Datum R, Stored s'.store g d' ∧ d'.Groups ms) ∧
      ∀ j ∉ known, j ≠ g → s'.store j = s.store j := by
  set text := resultText (pairs ms texts) with htext
  set s₂ := s₁.setOp .vOp1 { s₁.op .vOp1 with value := .str text, date2 := some now } with hs₂
  have hanswer := h.groups.answer
  have hshort : 74 * ms.length < 32767 := by
    unfold maxPartLen at hanswer
    omega
  have hlen : text.length ≤ 74 * ms.length := by
    have hle : text.length ≤ 74 * (pairs ms texts).length := by
      refine length_answer_le ?_
      intro p hp
      obtain ⟨m, hm, rfl⟩ := List.mem_map.1 hp
      obtain ⟨-, c, hc, -⟩ := L.configured g ms h.members m hm
      exact ⟨P.isNumber _ _ hc, htexts m hm⟩
    rwa [pairs, List.length_map] at hle
  have hserves : Serves R L s₂.store c.value := by
    rw [hs₂, CalcState.setOp_store, h.store]
    exact hs
  obtain ⟨s₃, hspread, hop, hcur, hmembers, hframe⟩ :=
    spreadResuts_members hserves h.members h.readable htexts h.places hshort
  have hop₃ : s₃.op .vOp1 = { s₁.op .vOp1 with value := .str text, date2 := some now } := by
    rw [hop, hs₂, CalcState.setOp_op_self]
  set s₄ := s₃.setOp .vOp1 { s₃.op .vOp1 with date1 := some dtDate } with hs₄
  have hop₄ : s₄.op .vOp1 = d.answered ms text runID now dtDate := by
    rw [hs₄, CalcState.setOp_op_self, hop₃, h.op]
    rfl
  obtain ⟨t, ht⟩ : ∃ t, poolString (d.answered ms text runID now dtDate) = .ok t :=
    ⟨_, poolString_eq (encodable_answered h.stored.encodable h.groups hlen hnow hdate)⟩
  have htag : cIntOf (s₄.op .vOp1).tag = .ok g := by
    rw [hop₄]
    show cIntOf d.tag = .ok g
    rw [h.stored.tag]
    exact h.number
  have hshare : share .vOp1 s₄ = .ok () (s₄.setStore g t) :=
    share_ok.2 ⟨g, t, htag, by rw [hop₄, ht], rfl⟩
  have hother (j : ℤ) (hj : j ≠ g) : (s₄.setStore g t).store j = s₃.store j :=
    Function.update_of_ne hj _ _
  have hapart (m : ReadMember) (hm : m ∈ ms) : m.parID ≠ g := by
    rintro rfl
    exact (L.isGroup _ ms h.members).2 (L.place _ ms h.members m hm).1
  refine ⟨s₄.setStore g t, ?_, hcur.trans h.iCurrent, hs.values.take ?_ ?_,
    ⟨_, stored_answered h.stored h.groups hlen hnow hdate ht _, h.groups.answered ..⟩, ?_⟩
  · have hvalue : (s₂.op .vOp1).value = .str text := by rw [hs₂, CalcState.setOp_op_self]
    rw [h.calculateLine_eq hline, bind_of_ok hmust, getOp_bind, hvalue]
    show (spreadResuts text >>= _) s₂ = _
    rw [bind_of_ok hspread, setDate1, modifyOp_bind, ← hs₄, hshare]
  · intro m hm
    obtain ⟨d', hd', hval, hplain⟩ := hmembers m hm
    exact ⟨d', hd'.congr (hother m.parID (hapart m hm)), hval, hplain⟩
  · intro j hj hmem
    have hne : j ≠ g := by
      rintro rfl
      exact (L.isGroup _ ms h.members).2 hj
    rw [hother j hne, hframe j hmem, hs₂, CalcState.setOp_store, h.store]
  · intro j hj hne
    have hmem : j ∉ ms.map ReadMember.parID := by
      intro hmem
      obtain ⟨m, hm, rfl⟩ := List.mem_map.1 hmem
      exact hj (L.place g ms h.members m hm).1
    rw [hother j hne, hframe j hmem, hs₂, CalcState.setOp_store, h.store]

end Taking

/-! ### Lines -/

section Lines

variable {L : Layout P room known} {line : TFormula} {runID dtDate : ℤ} {c : Standing}
  {s : CalcState R} {conv : Convert R} {env : LineEnv}

/-- The result of a line is the one of the program: both go on, to the same line, with the same
values, the configuration and the groups; or both stop, and the pool strings are as before. -/
inductive Acquires (L : Layout P room known) (store : ℤ → VbString) :
    EStateM.Result VbError (CalcState R) Unit → Option Standing → Prop
  | stop {e : VbError} {s : CalcState R} (hstore : s.store = store) :
    Acquires L store (.error e s) none
  | go {s : CalcState R} {c : Standing} (hline : s.iCurrent + 1 = c.line)
    (hserves : Serves R L s.store c.value) : Acquires L store (.ok () s) (some c)

/-- A line of either kind loads what it uses, and asks groups only. -/
theorem TFormula.Acquiring.careful (h : line.Acquiring R L) :
    line.OwnOperands ∧ line.AsksGroup R P := by
  rcases h with hline | hline
  · refine ⟨hline.own, ?_⟩
    intro hreq
    have hcomp := hline.computes
    cases hcode : FunctionCode.ofText line.functionCode <;> rw [hcode] at hreq hcomp <;> simp_all
      [FunctionCode.requests, FunctionCode.computes]
  · refine ⟨?_, ?_⟩
    · intro v hv
      rw [hline.code] at hv
      obtain rfl : v = .vOp1 := by simpa [FunctionCode.uses] using hv
      exact .inr hline.type1
    · intro _ _ g hg _
      obtain ⟨ms, hms⟩ := Option.isSome_iff_exists.1 (hline.group g hg)
      exact (L.isGroup g ms hms).1

/-- A line of either kind keeps the configuration. -/
theorem TFormula.Acquiring.configured (h : line.Acquiring R L) (hs : P.Configured R s.store)
    {u : Unit} {s' : CalcState R} (hok : calculateLine conv env dtDate line runID s = .ok u s') :
    P.Configured R s'.store := by
  obtain ⟨hown, hasks⟩ := h.careful
  rw [← endState_of_ok hok]
  exact configured_calculateLine hown hasks runID hs

/-- Where a line goes on, the loop variable has not been too low for an `Integer`. -/
theorem acquire_line {reading : Option (ℤ → VbString)} {c' : Standing} (hc : 0 ≤ c.line)
    (h : line.acquire R L reading c = some c') : -32768 < c'.line := by
  unfold TFormula.acquire at h
  split_ifs at h with hcode
  · obtain ⟨g, -, h⟩ := Option.bind_eq_some_iff.1 h
    obtain ⟨t2, -, h⟩ := Option.bind_eq_some_iff.1 h
    obtain ⟨t3, -, h⟩ := Option.bind_eq_some_iff.1 h
    obtain ⟨ms, -, h⟩ := Option.bind_eq_some_iff.1 h
    split_ifs at h
    obtain ⟨texts, -, rfl⟩ := Option.map_eq_some_iff.1 h
    show -32768 < c.line + 1
    omega
  · exact perform_line hc h

end Lines

/-! ### Steps of a run -/

section Steps

variable {L : Layout P room known} {c : Standing} {stopped : Bool} {s : RunState R}
  {conv : Convert R} {env : LineEnv} {line : TFormula} {reading : Option (ℤ → VbString)}

/-- A run stands where a program with readings does, or has ended where that has stopped; or it has
ended behind the last line, which the program is still before. -/
structure RunState.AcquiresAt (L : Layout P room known) (s : RunState R) (c : Standing)
    (stopped : Bool) : Prop where
  acquiring : ∀ line ∈ s.formula.lines, line.Acquiring R L
  last : s.formula.lineMax ≤ 32767
  date : FourDigitYear s.dtDate
  isLong : IsLong s.runID
  serves : Serves R L s.state.store c.value
  line : s.ended = false → s.state.iCurrent = c.line
  ended : stopped = true → s.ended = true
  passed : s.ended = true → stopped = true ∨ s.formula.lineMax < c.line

/-- A run without a line before it has ended at the next step, where the program stops. -/
theorem RunState.AcquiresAt.next_none (h : s.AcquiresAt L c stopped) (hnone : s.next? = none) :
    (s.step conv env).AcquiresAt L c true ∧
      (stopped = false → s.formula.acquireNext R L reading c = none) := by
  have hstep : s.step conv env = { s with ended := true } := by rw [RunState.step, hnone]
  rw [hstep]
  have hended : RunState.AcquiresAt L { s with ended := true } c true :=
    { h with
      line := Bool.noConfusion
      ended := fun _ => rfl
      passed := fun _ => .inl rfl }
  refine ⟨hended, ?_⟩
  intro hrun
  rw [CFormula.acquireNext]
  cases hend : s.ended with
  | true =>
    have hbehind := (h.passed hend).resolve_left (by simp [hrun])
    rw [if_pos hbehind]
  | false =>
    have hover := RunState.of_next?_none hnone hend
    rw [h.line hend] at hover
    rcases hover with hbehind | hline
    · rw [if_pos hbehind]
    · rw [hline]
      split_ifs <;> rfl

/-- A run with a line before it. -/
theorem RunState.AcquiresAt.next_some (h : s.AcquiresAt L c stopped)
    (hnext : s.next? = some line) :
    stopped = false ∧ line.Acquiring R L ∧ s.state.iCurrent = c.line ∧ 0 ≤ c.line ∧
      ∀ reading, s.formula.acquireNext R L reading c = line.acquire R L reading c := by
  obtain ⟨hend, hbehind, hline⟩ := RunState.of_next?_some hnext
  have hcur := h.line hend
  rw [hcur] at hbehind hline
  refine ⟨Bool.eq_false_iff.2 ?_, h.acquiring line (mem_of_line? hline), hcur,
    nonneg_of_line? hline, ?_⟩
  · intro hstop
    rw [h.ended hstop] at hend
    cases hend
  · intro reading
    rw [CFormula.acquireNext, if_neg hbehind, hline, Option.bind_some]

/-- **A step of a run** whose line does what it does in the program. -/
theorem RunState.AcquiresAt.step (h : s.AcquiresAt L c stopped) (hnext : s.next? = some line)
    (hacq : Acquires L s.state.store (calculateLine conv env s.dtDate line s.runID s.state)
      (line.acquire R L reading c)) :
    (s.step conv env).AcquiresAt L ((line.acquire R L reading c).getD c)
      (line.acquire R L reading c).isNone := by
  obtain ⟨-, -, -, hnonneg, -⟩ := h.next_some hnext
  have hend := (RunState.of_next?_some hnext).1
  have hstepped := RunState.stepped conv s env
  revert hstepped
  generalize s.step conv env = s'
  rintro (⟨hnone⟩ | ⟨hnext', hcalc⟩ | ⟨hnext', hcalc, hint⟩ | ⟨hnext', hcalc⟩)
  · rw [hnone] at hnext
    cases hnext
  · obtain rfl := Option.some.inj (hnext.symm.trans hnext')
    rw [hcalc] at hacq
    generalize line.acquire R L reading c = o at hacq ⊢
    obtain ⟨hstore⟩ := hacq
    exact ⟨h.acquiring, h.last, h.date, h.isLong, hstore.symm ▸ h.serves, nofun,
      fun _ => rfl, fun _ => .inl rfl⟩
  · obtain rfl := Option.some.inj (hnext.symm.trans hnext')
    have hlow (c' : Standing) (hc' : line.acquire R L reading c = some c') : -32768 < c'.line :=
      acquire_line hnonneg hc'
    rw [hcalc] at hacq
    generalize line.acquire R L reading c = o at hacq hlow ⊢
    obtain ⟨⟩ | ⟨hcur, hserves⟩ := hacq
    -- there are not so many lines
    refine ⟨h.acquiring, h.last, h.date, h.isLong, hserves, nofun,
      nofun, fun _ => .inr ?_⟩
    have hlow := hlow _ rfl
    have hlast := h.last
    unfold toInteger at hint
    split_ifs at hint with hrange
    rw [Option.getD_some]
    show s.formula.lineMax < _
    omega
  · obtain rfl := Option.some.inj (hnext.symm.trans hnext')
    rw [hcalc] at hacq
    generalize line.acquire R L reading c = o at hacq ⊢
    obtain ⟨⟩ | ⟨hcur, hserves⟩ := hacq
    exact ⟨h.acquiring, h.last, h.date, h.isLong, hserves, fun _ => hcur,
      nofun, fun he => absurd (hend.symm.trans he) (by decide)⟩

end Steps

end Sis

end Edps
