import Edps.Link.ReadResults
import Edps.OpcS7.Freshness
import Edps.Sis.Failures
import Edps.Sis.History

/-!
# History rows of a multiple read

An `MREAD` line asks for the members of a group.  `SAPI_MRead` succeeds when one of them was read,
and lists an error text for the others; the loop of `Value` Let queues a row for every member that
is listed.

* `GroupLine` : a line with the multiple reads before it, and the answer of the server.
* `OnlyRead` : the rows hold only values that were read.
* `onlyRead_iff` : they do exactly when the members the loop comes to were all read, or none was.
-/

namespace Edps

namespace Link

open Vb OpcS7 Sis

variable {R : Runtime}

/-! ### The line in SIS -/

section Line

variable {conv : Convert R} {env : LineEnv} {dtDate : ℤ}

/-- A group read that succeeds puts the text of the reply into the record. -/
theorem localRWFDatum_group {v : OpVar} {s : CalcState R} (hlink : (s.op v).linkType = vb "SGR")
    (hact : (s.op v).action = FDRead) (hcalled : env.sapi = none) (hcode : ¬ env.sapiCode < 0) :
    localRWFDatum env v s = .ok true (s.setOp v { s.op v with
      value := .str (env.sapiText.takeWhile (· ≠ 0)), date2 := some env.now }) := by
  have hcall : callSapi env s = .ok () s := callSapi_ok.2 ⟨hcalled, rfl⟩
  have hrw : rwFDatum env v s = .ok true (s.setOp v { s.op v with
      value := .str (env.sapiText.takeWhile (· ≠ 0)), date2 := some env.now }) := by
    rw [rwFDatum, getOp_bind, if_pos hlink, if_pos hact, bind_of_ok hcall, if_neg hcode]
    simp only [shareValue, setDate2, modifyOp_bind, CalcState.setOp_op_self, CalcState.setOp_setOp]
    rfl
  show EStateM.tryCatch (rwFDatum env v) _ s = _
  unfold EStateM.tryCatch
  rw [hrw]

/-- A group read that has failed is never taken for one that has succeeded. -/
theorem localRWFDatum_group_fails {v : OpVar} {s s' : CalcState R}
    (hlink : (s.op v).linkType = vb "SGR") (hact : (s.op v).action = FDRead)
    (hcode : env.sapiCode < 0) : localRWFDatum env v s ≠ .ok true s' := by
  intro h
  have hrw := localRWFDatum_true h
  rw [rwFDatum, getOp_bind, if_pos hlink, if_pos hact, bind_ok] at hrw
  obtain ⟨_, _, -, hrw⟩ := hrw
  rw [if_pos hcode] at hrw
  simp only [bind_ok] at hrw
  obtain ⟨_, _, -, _, _, -, _, _, -, hrw⟩ := hrw
  cases (pure_ok.1 hrw).1

/-- What an `MREAD` line does from its operation on. -/
theorem exec_mread {s₁ s : CalcState R} (hbefore : beforeRW dtDate .mread s₁ = .ok () s) :
    exec conv env dtDate .mread s₁ = (do
      mustRW env .vOp1
      setDate1 .vOp1 dtDate
      letValue env .vOp1 (← getOp .vOp1).value
      share .vOp1 : CalcM R Unit) s := by
  simp only [beforeRW, modifyOp_bind, getOp_bind, bind_ok, modifyOp_ok] at hbefore
  obtain ⟨addr1, s₂, hcombine, rfl⟩ := hbefore
  rw [exec, modifyOp_bind, getOp_bind, bind_of_ok hcombine, modifyOp_bind]

/-- The record keeps what it was set to while its request is put together. -/
theorem action_beforeRW {s₁ s : CalcState R} (h : beforeRW dtDate .mread s₁ = .ok () s) :
    (s.op .vOp1).action = FDRead ∧ (s.op .vOp1).someID = (s₁.op .vOp1).someID := by
  simp only [beforeRW, modifyOp_bind, getOp_bind, bind_ok, modifyOp_ok] at h
  obtain ⟨addr1, s₂, hcombine, rfl⟩ := h
  have hkept (t : VbString) : Keeps (fun s : CalcState R => s.op .vOp1) (combineToRead t) :=
    keeps_combineToRead (fun s d => s.setOp_op_ne (by decide) d) (fun _ _ => rfl) t
  have hop := (hkept _).of_ok hcombine
  simp only [CalcState.setOp_op_self] at hop ⊢
  rw [hop]
  exact ⟨rfl, rfl⟩

/-- The operands of a line carry the id of the run. -/
theorem someID_loadOperands {line : TFormula} {runID : ℤ} {s₀ s : CalcState R}
    (h : loadOperands line runID s₀ = .ok () s) : (s.op .vOp1).someID = .int runID := by
  simp only [loadOperands, bind_ok, modifyOp_bind, modifyOp_ok] at h
  obtain ⟨_, s₁, -, _, s₂, -, _, s₃, -, rfl⟩ := h
  rw [CalcState.setOp_op_ne _ (by decide), CalcState.setOp_op_ne _ (by decide),
    CalcState.setOp_op_self]

theorem keeps_share (v : OpVar) : Keeps CalcState.rows (share (R := R) v) := by
  refine (keeps_getOp v).bind fun d => (keeps_liftE _).bind fun i => ?_
  intro s
  unfold endState shareData
  cases poolString (s.op v) <;> rfl

/-- **The rows of an `MREAD` line** are those of the loop of `Value` Let over the text of the
reply; a read that has failed leaves none. -/
theorem rows_mread {line : TFormula} {runID : ℤ} {s₀ s : CalcState R}
    (hline : FunctionCode.ofText line.functionCode = .mread)
    (hcalls : Calls dtDate line runID .vOp1 s₀ s) (hgroup : (s.op .vOp1).linkType = vb "SGR")
    (hauto : (s.op .vOp1).isAuto2LEIS = true)
    (hrun : -2147483648 ≤ runID ∧ runID ≤ 2147483647) (hcalled : env.sapi = none)
    {text : VbString} (htext : env.sapiText.takeWhile (· ≠ 0) = text) :
    ∃ s₁ : CalcState R, s₁.rows = s₀.rows ∧
      (endState (calculateLine conv env dtDate line runID) s₀).rows =
        if env.sapiCode < 0 then s₀.rows
        else (endState (queueGroup env text runID env.now dtDate (text.length + 1) 1) s₁).rows := by
  obtain ⟨_, s', hload, hbefore⟩ := bind_ok.1 hcalls.reached
  rw [hline] at hbefore
  have hrows : s.rows = s₀.rows :=
    (congrArg Prod.snd ((keeps_beforeRW dtDate _).of_ok hbefore)).trans
      (congrArg Prod.snd ((keeps_loadOperands line runID).of_ok hload))
  obtain ⟨hact, hsome⟩ := action_beforeRW hbefore
  rw [someID_loadOperands hload] at hsome
  rw [calculateLine, endState_bind_of_ok hload, hline]
  have hend : endState (exec conv env dtDate .mread) s' = endState (do
      mustRW env .vOp1
      setDate1 .vOp1 dtDate
      letValue env .vOp1 (← getOp .vOp1).value
      share .vOp1 : CalcM R Unit) s := endState_congr (exec_mread hbefore)
  rw [hend]
  by_cases hcode : env.sapiCode < 0
  · -- the line ends with the operation
    refine ⟨s, hrows, ?_⟩
    rw [if_pos hcode, ← hrows]
    have hkept : (endState (localRWFDatum env .vOp1) s).rows = s.rows := by
      have hhandle : ∀ e : VbError, Keeps CalcState.shared (do
          logRecord (R := R) .vOp1; return false) :=
        fun _ => (keeps_logRecord .vOp1).bind fun _ => .pure _
      have hread : ¬ ((s.op .vOp1).linkType = vb "SAP" ∧ (s.op .vOp1).action = FDWrite ∧
          env.sapi = none ∧ env.sapiCode ≠ 0) := by
        rw [hgroup]
        exact fun h => absurd h.1 (by decide)
      exact congrArg Prod.snd ((Keeps.endState_tryCatch hhandle s).trans (keeps_rwFDatum hread))
    cases hrw : localRWFDatum env .vOp1 s with
    | error e s₁ =>
      have hmust : mustRW env .vOp1 s = .error e s₁ := by rw [mustRW, bind_of_error hrw]
      rw [endState_bind_of_error hmust, ← hkept, endState_of_error hrw]
    | ok b s₁ =>
      cases b with
      | true => exact absurd hrw (localRWFDatum_group_fails hgroup hact hcode)
      | false => rw [endState_bind_of_error (mustRW_error hrw), ← hkept, endState_of_ok hrw]
  · have hrw : localRWFDatum env .vOp1 s = _ :=
      localRWFDatum_group hgroup hact hcalled hcode
    rw [htext] at hrw
    set d₁ : Datum R := { s.op .vOp1 with value := .str text, date2 := some env.now } with hd₁
    set s₁ := s.setOp .vOp1 { d₁ with date1 := some dtDate } with hs₁
    have hop : s₁.op .vOp1 = { d₁ with date1 := some dtDate } := CalcState.setOp_op_self ..
    have hdate : setDate1 .vOp1 dtDate (s.setOp .vOp1 d₁) = .ok () s₁ := by
      rw [setDate1, modifyOp_ok, CalcState.setOp_op_self, CalcState.setOp_setOp]
    have hget : getOp .vOp1 s₁ = .ok { d₁ with date1 := some dtDate } s₁ := by rw [getOp, hop]
    have hdrains : Drains (s₁.op .vOp1) runID env.now dtDate := by
      rw [hop]
      refine ⟨hauto, hgroup, ?_, rfl, rfl⟩
      show cLngOf (s.op .vOp1).someID = _
      rw [hsome]
      exact if_pos hrun
    refine ⟨s₁.setOp .vOp1 { s₁.op .vOp1 with value := .str text }, hrows, ?_⟩
    have hmust : mustRW env .vOp1 s = .ok () (s.setOp .vOp1 d₁) := mustRW_ok.2 hrw
    rw [if_neg hcode, endState_bind_of_ok hmust, endState_bind_of_ok hdate,
      endState_bind_of_ok hget]
    exact (Keeps.endState_bind (fun _ => keeps_share .vOp1) s₁).trans
      (congrArg CalcState.rows (endState_congr (letValue_group hdrains text)))

end Line

/-! ### The answer -/

/-- `_gcvt` makes a C string that fits the buffer of its caller. -/
structure ShortTexts (crt : Crt) : Prop where
  float : ∀ w, (crt.gcvtFloat w).length < 64 ∧ ∀ c ∈ crt.gcvtFloat w, c ≠ 0
  double : ∀ w w', (crt.gcvtDouble w w').length < 64 ∧ ∀ c ∈ crt.gcvtDouble w w', c ≠ 0

variable {crt : Crt}

/-- The text of a value is a C string. -/
theorem variantText_short (hcrt : ShortTexts crt) {var : OpcS7.Variant} {r : Bytes × Bool}
    (h : variantText crt 64 var = some r) : r.1.length < 64 ∧ ∀ c ∈ r.1, c ≠ 0 := by
  have hltoa (n : ℤ) : (ltoa n).length < 64 ∧ ∀ c ∈ ltoa n, c ≠ 0 :=
    ⟨length_ltoa_lt n, fun _ => noNul_ltoa⟩
  unfold variantText at h
  split_ifs at h with hbool htrue hr4 hr8 hint huint harray
  · cases h
    decide +kernel
  · cases h
    decide +kernel
  · cases h
    exact hcrt.float _
  · cases h
    exact hcrt.double _ _
  · generalize var.lVal = n at h
    cases h
    exact hltoa n
  · generalize var.ulVal = n at h
    cases h
    exact hltoa n
  · cases hparray : var.parray with
    | none =>
      rw [hparray] at h
      cases h
      simp
    | some a =>
      simp only [hparray] at h
      split_ifs at h with hshort
      cases h
      -- the copy of an array ends at its first zero
      refine ⟨(List.takeWhile_sublist _).length_le.trans_lt hshort.1, fun c hc => ?_⟩
      simpa using List.mem_takeWhile_imp hc
  · cases h
    decide +kernel

/-- What is listed for a result is a C string. -/
theorem listed_short (hcrt : ShortTexts crt) {x : Option (ItemState × HRESULT)} {t : Bytes}
    (h : listed crt x = some t) : t.length < 64 ∧ ∀ c ∈ t, c ≠ 0 := by
  have herror : (ascii "Error Read").length < 64 ∧ ∀ c ∈ ascii "Error Read", c ≠ 0 := by
    decide +kernel
  cases x with
  | none =>
    cases h
    exact herror
  | some st =>
    simp only [listed] at h
    split_ifs at h
    · obtain ⟨r, hr, rfl⟩ := Option.map_eq_some_iff.1 h
      exact variantText_short hcrt hr
    · cases h
      exact herror

/-- The texts of an answer, one for each record. -/
theorem flatten_listed {x : ReadRecord → Option (ItemState × HRESULT)} {rs : List ReadRecord}
    {texts : List Bytes} (h : List.Forall₂ (fun rec t => listed crt (x rec) = some t) rs texts) :
    (List.zipWith (fun rec t => OpcS7.framed (ltoa rec.parID) ++ OpcS7.framed t) rs texts).flatten =
      answerText (rs.map fun rec => (rec.parID, (listed crt (x rec)).getD [])) := by
  induction h with
  | nil => rfl
  | cons ht _ ih =>
    rw [List.zipWith_cons_cons, List.flatten_cons, ih, List.map_cons, ht]
    rfl

theorem noNul_answerText {pairs : List (ℕ × Bytes)} (h : ∀ p ∈ pairs, ∀ c ∈ p.2, c ≠ 0) :
    ∀ c ∈ answerText pairs, c ≠ 0 := by
  intro c hc
  obtain ⟨p, hp, hc⟩ := List.mem_flatMap.1 hc
  rcases List.mem_append.1 hc with hc | hc
  · exact noNul_framed (fun _ => noNul_ltoa) c hc
  · exact noNul_framed (h p hp) c hc

/-! ### Rows -/

/-- The log of a multiple read behind others. -/
def readLog (crt : Crt) (calls : List (List ReadRecord × OrderlyReplies))
    (members : List ReadRecord) (replies : OrderlyReplies) : CallLog :=
  ((mreads crt).next ((mreads crt).after .init calls) (members, replies)).2

/-- SIS gets the answer of the call. -/
structure Answers (R : Runtime) (log : CallLog) (env : LineEnv) : Prop where
  called : env.sapi = none
  code : log.ret = some env.sapiCode
  text : ∀ data, log.data = some data → env.sapiText = ofAnsi R data

/-- An `MREAD` line on a group record whose values are queued.  It is executed from `s₀`, and calls
`LocalRWFDatum` in `s`, behind other multiple reads; a parameter always names the same item. -/
structure GroupLine (R : Runtime) (crt : Crt) where
  calls : List (List ReadRecord × OrderlyReplies)
  members : List ReadRecord
  replies : OrderlyReplies
  item : ℕ → Bytes
  named : ∀ c ∈ calls ++ [(members, replies)], ∀ rec ∈ c.1, rec.itemId = item rec.parID
  conv : Convert R
  env : LineEnv
  dtDate : ℤ
  line : TFormula
  runID : ℤ
  s₀ : CalcState R
  s : CalcState R
  mread : FunctionCode.ofText line.functionCode = .mread
  reached : Calls dtDate line runID .vOp1 s₀ s
  group : (s.op .vOp1).linkType = vb "SGR"
  auto : (s.op .vOp1).isAuto2LEIS = true
  long : -2147483648 ≤ runID ∧ runID ≤ 2147483647
  asks : toAnsi R (s.op .vOp1).addr1 = members.flatMap ReadRecord.encode
  answers : Answers R (readLog crt calls members replies) env

namespace GroupLine

variable (l : GroupLine R crt)

/-- What the server returned for a member in the call of the line. -/
def returned (rec : ReadRecord) : Option (ItemState × HRESULT) :=
  fetched l.replies (readLog crt l.calls l.members l.replies).read rec

/-- The server returned a value of good quality for a member, and `t` is its text. -/
def HasValue (rec : ReadRecord) (t : Bytes) : Prop :=
  ∃ st hr, l.returned rec = some (st, hr) ∧ succeeded hr = true ∧ st.wQuality &&& 0xC0 = 0xC0 ∧
    variantText crt 64 st.vDataValue = some (t, true)

/-- A member with the text that is listed for it. -/
def pair (rec : ReadRecord) : ℤ × VbString :=
  toPair R (rec.parID, (listed crt (l.returned rec)).getD [])

/-- The members the loop of `Value` Let comes to. -/
def queued : List ReadRecord := drained l.env.leis l.pair 1 l.members

/-- The rows hold only values that were read in this call: every row is that of a member that has
its value, and a member whose item has failed has none. -/
structure OnlyRead (rows : List HistRow) : Prop where
  values : ∀ row ∈ rows, ∃ rec ∈ l.members, row.paramID = rec.parID ∧
    ∃ t, l.HasValue rec t ∧ row.actValue = ofAnsi R t
  failed : ∀ rec ∈ l.members, (¬ ∃ t, l.HasValue rec t) → ∀ row ∈ rows, row.paramID ≠ rec.parID

variable {l}

theorem rendered_eq_some_iff {rec : ReadRecord} {t : Bytes} :
    rendered crt (l.returned rec) = some (t, true) ↔ l.HasValue rec t := by
  unfold HasValue
  cases hret : l.returned rec with
  | none => simp [rendered]
  | some x =>
    obtain ⟨st, hr⟩ := x
    simp only [rendered, Option.some.injEq, Prod.mk.injEq]
    constructor
    · intro h
      split_ifs at h with hgood
      · exact ⟨st, hr, ⟨rfl, rfl⟩, hgood.1, hgood.2, h⟩
      · cases h
    · rintro ⟨_, _, ⟨rfl, rfl⟩, hhr, hq, h⟩
      rw [if_pos ⟨hhr, hq⟩, h]

/-- A value that was read is listed. -/
theorem HasValue.pair_eq {rec : ReadRecord} {t : Bytes} (h : l.HasValue rec t) :
    l.pair rec = (↑rec.parID, ofAnsi R t) := by
  have hlisted : listed crt (l.returned rec) = some t := by
    rw [← map_rendered, rendered_eq_some_iff.2 h]
    rfl
  rw [pair, hlisted]
  rfl

/-- Members with the same id are the same item. -/
theorem returned_congr {rec rec' : ReadRecord} (h : rec ∈ l.members) (h' : rec' ∈ l.members)
    (hid : rec.parID = rec'.parID) : l.returned rec = l.returned rec' := by
  have hlast : (l.members, l.replies) ∈ l.calls ++ [(l.members, l.replies)] := by simp
  have hitem : rec.itemId = rec'.itemId := by
    rw [l.named _ hlast rec h, l.named _ hlast rec' h', hid]
  rw [returned, returned, fetched, fetched, hid, hitem]

/-- The row of a member. -/
def row (l : GroupLine R crt) (rec : ReadRecord) : HistRow :=
  ⟨(l.pair rec).1, l.env.now, (l.pair rec).2, l.runID, l.dtDate⟩

/-- **The answer of the line's call**: it fails when no member has a value, and lists the members
with their texts otherwise. -/
theorem answer_eq (hcrt : ShortTexts crt) (l : GroupLine R crt) :
    (l.env.sapiCode < 0 ↔ ∀ rec ∈ l.members, ¬ ∃ t, l.HasValue rec t) ∧
      (¬ l.env.sapiCode < 0 →
        l.env.sapiText.takeWhile (· ≠ 0) = resultText (l.members.map l.pair) ∧
          ∀ rec ∈ l.members, 0 < (l.pair rec).1 ∧ (cStr (l.pair rec).1).length < 1000 ∧
            (l.pair rec).2.length < 1000) := by
  have hbefore : ∀ c ∈ l.calls, ∀ rec ∈ c.1, rec.itemId = l.item rec.parID := fun c hc =>
    l.named c (List.mem_append_left _ hc)
  have hlast : ∀ rec ∈ l.members, rec.itemId = l.item rec.parID :=
    l.named (l.members, l.replies) (by simp)
  obtain ⟨hfresh, hcounted⟩ :
      Fresh crt l.members l.replies (readLog crt l.calls l.members l.replies) ∧
        Counted crt l.members l.replies (readLog crt l.calls l.members l.replies) :=
    (mreads_step (mreads_groups hbefore) hlast l.replies).1
  obtain ⟨hle, hzero⟩ := hcounted _ l.answers.code
  have hvalue : l.env.sapiCode = 0 ↔ ∃ rec ∈ l.members, ∃ t, l.HasValue rec t :=
    hzero.trans (exists_congr fun rec => and_congr_right fun _ =>
      exists_congr fun t => rendered_eq_some_iff)
  have hcode : l.env.sapiCode < 0 ↔ ¬ l.env.sapiCode = 0 := by omega
  refine ⟨?_, fun hneg => ?_⟩
  · rw [hcode, hvalue]
    exact ⟨fun h rec hrec ht => h ⟨rec, hrec, ht⟩, fun h ⟨rec, hrec, ht⟩ => h rec hrec ht⟩
  have hret : (readLog crt l.calls l.members l.replies).ret = some 0 := by
    rw [l.answers.code]
    congr 1
    omega
  obtain ⟨texts, htexts, hdata⟩ : ∃ texts, List.Forall₂ (fun rec t =>
      listed crt (l.returned rec) = some t) l.members texts ∧ _ := hfresh.texts hret
  have hlisted : ∀ rec ∈ l.members, ∃ t, listed crt (l.returned rec) = some t := by
    intro rec hrec
    obtain ⟨n, hn, rfl⟩ := List.getElem_of_mem hrec
    exact ⟨_, htexts.get hn (htexts.length_eq ▸ hn)⟩
  have hshort : ∀ rec ∈ l.members, ((listed crt (l.returned rec)).getD []).length < 64 ∧
      ∀ c ∈ (listed crt (l.returned rec)).getD [], c ≠ 0 := by
    intro rec hrec
    obtain ⟨t, ht⟩ := hlisted rec hrec
    rw [ht]
    exact listed_short hcrt ht
  constructor
  · have hids : ∀ p ∈ l.members.map fun rec =>
        (rec.parID, (listed crt (l.returned rec)).getD []), p.1 < 2147483648 := by
      intro p hp
      obtain ⟨rec, -, rfl⟩ := List.mem_map.1 hp
      exact rec.long
    have hnonul : ∀ p ∈ l.members.map fun rec =>
        (rec.parID, (listed crt (l.returned rec)).getD []), ∀ c ∈ p.2, c ≠ 0 := by
      intro p hp
      obtain ⟨rec, hrec, rfl⟩ := List.mem_map.1 hp
      exact (hshort rec hrec).2
    rw [l.answers.text _ hdata, flatten_listed htexts, List.takeWhile_eq_self_iff.2]
    · rw [ofAnsi_answerText hids, List.map_map]
      rfl
    · intro c hc
      simpa using noNul_ofAnsi (noNul_answerText hnonul) c hc
  · intro rec hrec
    have hlong : rec.parID < 2147483648 := rec.long
    refine ⟨Int.natCast_pos.2 rec.positive, ?_, ?_⟩
    · show (cStr (rec.parID : ℤ)).length < 1000
      rw [← ofAnsi_ltoa (R := R) hlong, length_ofAnsi]
      exact (length_ltoa_lt _).trans (by decide)
    · show (ofAnsi R _).length < 1000
      rw [length_ofAnsi]
      exact (hshort rec hrec).1.trans (by decide)

/-- **The rows of the line**: one for every member the loop comes to, unless the call fails. -/
theorem rows_eq (hcrt : ShortTexts crt) (l : GroupLine R crt) :
    (endState (calculateLine l.conv l.env l.dtDate l.line l.runID) l.s₀).rows =
      l.s₀.rows ++ if l.env.sapiCode < 0 then [] else l.queued.map l.row := by
  obtain ⟨-, htext⟩ := answer_eq hcrt l
  obtain ⟨s₁, hs₁, hrows⟩ : ∃ s₁ : CalcState R, _ ∧
      (endState (calculateLine l.conv l.env l.dtDate l.line l.runID) l.s₀).rows = _ :=
    rows_mread l.mread l.reached l.group l.auto l.long l.answers.called rfl
  rw [hrows]
  split_ifs with hcode
  · exact (List.append_nil _).symm
  · obtain ⟨htext, hpairs⟩ := htext hcode
    rw [htext]
    have hfuel : l.members.length < (resultText (l.members.map l.pair)).length + 1 := by
      have := length_le_resultText (l.members.map l.pair)
      rw [List.length_map] at this
      omega
    have hloop := queueGroup_rows (R := R) l.env l.pair hfuel hpairs
      (by rfl : (1 : ℤ) = ([] : VbString).length + 1) l.runID l.env.now l.dtDate s₁
    rw [List.nil_append, hs₁] at hloop
    exact hloop

/-- **When the rows hold only values that were read.** -/
theorem onlyRead_iff (hcrt : ShortTexts crt) (l : GroupLine R crt) :
    ∃ rows, (endState (calculateLine l.conv l.env l.dtDate l.line l.runID) l.s₀).rows =
        l.s₀.rows ++ rows ∧
      (l.OnlyRead rows ↔ (∀ rec ∈ l.queued, ∃ t, l.HasValue rec t) ∨
        ∀ rec ∈ l.members, ¬ ∃ t, l.HasValue rec t) := by
  obtain ⟨hnone, -⟩ := answer_eq hcrt l
  refine ⟨_, rows_eq hcrt l, ?_⟩
  split_ifs with hcode
  · -- no row at all
    refine iff_of_true ⟨?_, ?_⟩ (.inr (hnone.1 hcode))
    · simp
    · simp
  · rw [or_iff_left (mt hnone.2 hcode)]
    constructor
    · intro h rec hrec
      by_contra hno
      exact h.failed rec (mem_of_mem_drained hrec) hno (l.row rec) (List.mem_map_of_mem hrec) rfl
    · intro h
      refine ⟨fun row hrow => ?_, fun rec hrec hno row hrow hid => ?_⟩
      · obtain ⟨rec, hrec, rfl⟩ := List.mem_map.1 hrow
        obtain ⟨t, ht⟩ := h rec hrec
        exact ⟨rec, mem_of_mem_drained hrec, rfl, t, ht, congrArg Prod.snd ht.pair_eq⟩
      · obtain ⟨rec', hrec', rfl⟩ := List.mem_map.1 hrow
        -- the row is that of a member that is the same item
        have hsame : l.returned rec' = l.returned rec :=
          returned_congr (mem_of_mem_drained hrec') hrec (Int.natCast_inj.1 hid)
        obtain ⟨t, ht⟩ := h rec' hrec'
        refine hno ⟨t, rendered_eq_some_iff.1 ?_⟩
        rw [← hsame]
        exact rendered_eq_some_iff.2 ht

end GroupLine

/-! ### A group of two -/

/-- The record every parameter but the group has in the store, asked for. -/
def exampleRequest (parID : ℕ) (h : 0 < parID ∧ parID < 2147483648) : ReadRecord where
  cp := exampleField "S7_L2" (by decide +kernel)
  conn := exampleField "CONN1" (by decide +kernel)
  item := exampleField "DB10,REAL4,1" (by decide +kernel)
  type := exampleField "FLOAT" (by decide +kernel)
  parID
  positive := h.1
  long := h.2

/-- A group record at 5. -/
def exampleGroups (ids : String) : CalcState plainRuntime :=
  { exampleState with
    store := Function.update exampleState.store 5
      ((poolString { exampleDatum with linkType := vb "SGR", addr6 := vb ids }).toOption.getD []) }

/-- `MREAD` of the group. -/
def mreadLine : TFormula :=
  ⟨1, vb "MREAD", vb "5", vb "PARAM", 5, [], vb "CONST", 0, [], vb "CONST", 0, []⟩

/-- Where the line calls `LocalRWFDatum`. -/
def exampleCall (ids : String) : CalcState plainRuntime :=
  endState (loadOperands mreadLine 1 >>= fun _ => beforeRW 3313440000 .mread) (exampleGroups ids)

/-- What a line of the example must be like. -/
structure Ready (ids : String) (members : List ReadRecord) : Prop where
  returns : (match (loadOperands mreadLine 1 >>= fun _ => beforeRW 3313440000 .mread)
    (exampleGroups ids) with
    | .ok _ _ => true
    | .error _ _ => false) = true
  group : ((exampleCall ids).op .vOp1).linkType = vb "SGR"
  auto : ((exampleCall ids).op .vOp1).isAuto2LEIS = true
  asks : toAnsi plainRuntime ((exampleCall ids).op .vOp1).addr1 =
    members.flatMap ReadRecord.encode
  code : (readLog exampleCrt [] members (orderlyReplies 7)).ret = some 0
  item : ∀ rec ∈ members, rec.itemId = itemName (ascii "CONN1") (ascii "DB10,REAL4,1")

/-- The line, with the first reply of a server that rejects the second item of a registration. -/
def exampleGroupLine {ids : String} {members : List ReadRecord} (h : Ready ids members) :
    GroupLine plainRuntime exampleCrt where
  calls := []
  members
  replies := orderlyReplies 7
  item := fun _ => itemName (ascii "CONN1") (ascii "DB10,REAL4,1")
  named := by simpa using h.item
  conv := plainConvert
  env := ⟨3313440000, 0, ofAnsi plainRuntime
    ((readLog exampleCrt [] members (orderlyReplies 7)).data.getD []), none, none⟩
  dtDate := 3313440000
  line := mreadLine
  runID := 1
  s₀ := exampleGroups ids
  s := exampleCall ids
  mread := by decide
  reached := by
    refine ⟨rfl, ?_⟩
    have hok := h.returns
    show (loadOperands mreadLine 1 >>= fun _ => beforeRW 3313440000 .mread)
      (exampleGroups ids) = .ok () (endState _ _)
    unfold endState
    split at hok
    · next hrun => rw [hrun]
    · cases hok
  group := h.group
  auto := h.auto
  long := by decide
  asks := h.asks
  answers := ⟨rfl, h.code, fun data hdata => by rw [hdata]; rfl⟩

theorem shortTexts_exampleCrt : ShortTexts exampleCrt :=
  ⟨fun _ => by simp [exampleCrt], fun _ _ => by simp [exampleCrt]⟩

theorem ready_same : Ready "17;17"
    [exampleRequest 17 (by decide), exampleRequest 17 (by decide)] :=
  ⟨by decide +kernel, by decide +kernel, by decide +kernel, by decide +kernel, by decide +kernel,
    by decide +kernel⟩

theorem ready_rejected : Ready "17;18"
    [exampleRequest 17 (by decide), exampleRequest 18 (by decide)] :=
  ⟨by decide +kernel, by decide +kernel, by decide +kernel, by decide +kernel, by decide +kernel,
    by decide +kernel⟩

/-- A group whose item was read: its rows hold what was read. -/
theorem onlyRead_same :
    ∃ rows, (endState (calculateLine plainConvert (exampleGroupLine ready_same).env 3313440000
        mreadLine 1) (exampleGroups "17;17")).rows = rows ∧
      (exampleGroupLine ready_same).OnlyRead rows := by
  obtain ⟨rows, hrows, hiff⟩ :=
    GroupLine.onlyRead_iff shortTexts_exampleCrt (exampleGroupLine ready_same)
  refine ⟨rows, hrows, hiff.2 (.inl fun rec hrec => ?_)⟩
  have hmem : rec = exampleRequest 17 (by decide) := by
    simpa [exampleGroupLine] using mem_of_mem_drained hrec
  subst hmem
  exact ⟨ascii "7", GroupLine.rendered_eq_some_iff.1 (by decide +kernel)⟩

/-- A group with a rejected item: the text of the error is queued as a value. -/
theorem not_onlyRead_rejected :
    (endState (calculateLine plainConvert (exampleGroupLine ready_rejected).env 3313440000
        mreadLine 1) (exampleGroups "17;18")).rows =
        [⟨17, 3313440000, vb "7", 1, 3313440000⟩,
          ⟨18, 3313440000, vb "Error Read", 1, 3313440000⟩] ∧
      ¬ (exampleGroupLine ready_rejected).OnlyRead
        (endState (calculateLine plainConvert (exampleGroupLine ready_rejected).env 3313440000
          mreadLine 1) (exampleGroups "17;18")).rows := by
  have hrows : (endState (calculateLine plainConvert (exampleGroupLine ready_rejected).env
      3313440000 mreadLine 1) (exampleGroups "17;18")).rows =
        [⟨17, 3313440000, vb "7", 1, 3313440000⟩,
          ⟨18, 3313440000, vb "Error Read", 1, 3313440000⟩] := by
    decide +kernel
  refine ⟨hrows, fun h => ?_⟩
  rw [hrows] at h
  have hrendered : rendered exampleCrt ((exampleGroupLine ready_rejected).returned
      (exampleRequest 18 (by decide))) = some (ascii "Error Read", false) := by
    decide +kernel
  refine h.failed (exampleRequest 18 (by decide)) (by simp [exampleGroupLine]) ?_
    ⟨18, 3313440000, vb "Error Read", 1, 3313440000⟩ (by simp) rfl
  rintro ⟨t, ht⟩
  rw [← GroupLine.rendered_eq_some_iff, hrendered] at ht
  cases ht

end Link

end Edps
