import Edps.Link.Ansi
import Edps.OpcS7.ResultBuffer
import Edps.Sis.Replies

/-!
# The answer of a multiple read in SIS

`GetMReadResult` makes the text of a multiple read.  Two decoders of SIS read it: `ParseResult`,
which fills a place for each pair, and the loop of `Value` Let for group records, which queues a
history row for each pair until the text ends.

* `MultiRead` : parameters with the texts of their values.
* `answer_recovered_iff` : both decoders recover the pairs exactly when every array has fewer than
  64 elements, the size of the buffer its text is made in.
-/

namespace Edps

namespace Link

open Vb OpcS7 Sis

/-- The item of a parameter. -/
def itemOf (items : List COPCItem) (p : CEdpsParam) : Option COPCItem :=
  items.find? fun it => it.hClient = p.dwParID

/-- The text of a pair is what the value of the item is rendered as, with whatever room that
takes. -/
def Renders (crt : Crt) (items : List COPCItem) (p : CEdpsParam) (pair : ℕ × Bytes) : Prop :=
  p.dwParID = pair.1 ∧
    ∃ size good, getValueVariant crt size (itemOf items p) = some (pair.2, good)

/-- The value of the item counts as good. -/
def Good (crt : Crt) (items : List COPCItem) (p : CEdpsParam) : Prop :=
  ∃ size text, getValueVariant crt size (itemOf items p) = some (text, true)

/-- The answer: every pair with the lengths of its texts. -/
def answerText (pairs : List (ℕ × Bytes)) : Bytes :=
  pairs.flatMap fun p => OpcS7.framed (ltoa p.1) ++ OpcS7.framed p.2

/-- The parameters of a multiple read, one of them good at least, with the pairs they are to be
answered with. -/
structure MultiRead (crt : Crt) where
  items : List COPCItem
  params : List CEdpsParam
  pairs : List (ℕ × Bytes)
  rendered : List.Forall₂ (Renders crt items) params pairs
  ids : ∀ pair ∈ pairs, 0 < pair.1 ∧ pair.1 ≤ 32767
  texts : ∀ pair ∈ pairs, pair.2.length < 1000
  good : ∃ p ∈ params, Good crt items p
  short : (answerText pairs).length < 32767

/-- A pair as SIS reads it. -/
def toPair (R : Runtime) (p : ℕ × Bytes) : ℤ × VbString := (p.1, ofAnsi R p.2)

/-- A group record whose values are queued: its run, the time of the reading and of the event. -/
structure Drains {R : Runtime} (d : Datum R) (runID procTime evenTime : ℤ) : Prop where
  auto : d.isAuto2LEIS = true
  group : d.linkType = vb "SGR"
  run : cLngOf d.someID = .ok runID
  date1 : d.date1 = some evenTime
  date2 : d.date2 = some procTime

/-- Both decoders recover the pairs from a text. -/
structure Recovered (R : Runtime) (text : VbString) (pairs : List (ℤ × VbString)) : Prop where
  /-- `ParseResult` with a place for each pair. -/
  parsed : ∀ places : List Results, places.length = pairs.length →
    parseResult (R := R) text places 1 = .ok (pairs.map toResults)
  /-- `Value` Let of a group record: one `WriteQueue` call for each pair. -/
  drained : ∀ (env : LineEnv) (v : OpVar) (s : CalcState R) (runID procTime evenTime : ℤ),
    env.leis = none → Drains (s.op v) runID procTime evenTime →
    letValue env v (.str text) s = .ok () { s.setOp v { s.op v with value := .str text } with
      rows := s.rows ++ pairs.map fun p => ⟨p.1, procTime, p.2, runID, evenTime⟩ }

variable {R : Runtime} {crt : Crt}

/-! ### In SIS -/

theorem ofAnsi_ltoa {n : ℕ} (h : n < 2147483648) : ofAnsi R (ltoa n) = cStr n := by
  rw [ltoa, toLong_eq (by omega) (by omega), ofAnsi_ofCodes fun _ => Decimal.code_lt_of_mem_intText]
  rfl

/-- The answer is the reply SIS expects. -/
theorem ofAnsi_answerText {pairs : List (ℕ × Bytes)} (h : ∀ p ∈ pairs, p.1 < 2147483648) :
    ofAnsi R (answerText pairs) = resultText (pairs.map (toPair R)) := by
  induction pairs with
  | nil => rfl
  | cons p pairs ih =>
    obtain ⟨hp, hrest⟩ := List.forall_mem_cons.1 h
    rw [List.map_cons, resultText_cons, ← ih hrest]
    simp only [answerText, List.flatMap_cons, ofAnsi_append, ofAnsi_framed, ofAnsi_ltoa hp,
      List.append_assoc]
    rfl

theorem length_le_resultText (pairs : List (ℤ × VbString)) :
    pairs.length ≤ (resultText pairs).length := by
  induction pairs with
  | nil => rfl
  | cons p pairs ih =>
    simp only [resultText_cons, List.length_append, length_behindLength, List.length_cons]
    omega

/-- `Value` Let of a group record runs the loop over the value. -/
theorem letValue_group {env : LineEnv} {v : OpVar} {s : CalcState R}
    {runID procTime evenTime : ℤ} (h : Drains (s.op v) runID procTime evenTime) (text : VbString) :
    letValue env v (.str text) s =
      queueGroup env text runID procTime evenTime (text.length + 1) 1
        (s.setOp v { s.op v with value := .str text }) := by
  have hauto : ({ s.op v with value := .str text } : Datum R).isAuto2LEIS = true := h.auto
  have hrun : cLngOf (R := R) (s.op v).someID = .ok runID := h.run
  have hdate1 : toDate (s.op v).date1 = .ok evenTime := by rw [h.date1]; rfl
  have hdate2 : toDate (s.op v).date2 = .ok procTime := by rw [h.date2]; rfl
  simp only [letValue, modifyOp_bind, getOp_bind, CalcState.setOp_op_self]
  rw [if_pos hauto, if_pos h.group, liftE_bind hrun, liftE_bind hdate1, liftE_bind hdate2]
  rfl

/-- **Both decoders recover a short reply.** -/
theorem recovered {pairs : List (ℤ × VbString)} (hpairs : ∀ p ∈ pairs, ShortPair p ∧ p.1 ≠ 0)
    (hlen : (resultText pairs).length < 32767) : Recovered R (resultText pairs) pairs where
  parsed places hsize := by
    have h : parseResult (R := R) ([] ++ resultText pairs) places 1 = _ :=
      parseResult_ok hsize (fun p hp => (hpairs p hp).1) rfl (by simpa)
    rwa [List.nil_append] at h
  drained env v s runID procTime evenTime hleis hd := by
    have hfuel : pairs.length < (resultText pairs).length + 1 :=
      Nat.lt_succ_of_le (length_le_resultText pairs)
    have h := queueGroup_ok hleis hfuel hpairs (by rfl : (1 : ℤ) = ([] : VbString).length + 1)
      (by simpa using hlen) runID procTime evenTime
      (s.setOp v { s.op v with value := .str (resultText pairs) })
    rw [List.nil_append] at h
    rw [letValue_group hd, h]
    rfl

/-! ### The answer -/

/-- Every array of a value has fewer elements than the buffer of its text has characters. -/
def ShortArrays (items : List COPCItem) (params : List CEdpsParam) : Prop :=
  ∀ p ∈ params, ∀ a ∈ copiedArray (itemOf items p), a.elements.length < 64

/-- The answer of parameters that render as the pairs. -/
theorem getMReadResult_short {items : List COPCItem} {params : List CEdpsParam}
    {pairs : List (ℕ × Bytes)} (h : List.Forall₂ (Renders crt items) params pairs)
    (hshort : ShortArrays items params) :
    ∃ n, getMReadResult crt items params = some (answerText pairs, n) ∧
      ((∃ p ∈ params, Good crt items p) → n ≠ 0) := by
  induction h with
  | nil => exact ⟨0, rfl, by simp⟩
  | @cons p pair params pairs hp _ ih =>
    obtain ⟨hid, size, good, hvalue⟩ := hp
    obtain ⟨hp, hrest⟩ := List.forall_mem_cons.1 hshort
    obtain ⟨n, hn, hgood⟩ := ih hrest
    have hvalue' : getValueVariant crt 64 (itemOf items p) = some (pair.2, good) := by
      rw [getValueVariant_eq hvalue 64, if_pos hp]
    refine ⟨(if good then 1 else 0) + n, ?_, fun hsome => ?_⟩
    · rw [getMReadResult_cons hvalue', hn, hid]
      simp only [Option.map_some, answerText, List.flatMap_cons]
    · obtain ⟨q, hq, size', text, hgoodq⟩ := hsome
      rcases List.mem_cons.1 hq with rfl | hq
      · rw [getValueVariant_eq hgoodq 64, if_pos hp] at hvalue'
        obtain ⟨-, rfl⟩ := Prod.mk.inj (Option.some.inj hvalue')
        simp
      · have := hgood ⟨q, hq, size', text, hgoodq⟩
        omega

theorem getMReadResult_long {items : List COPCItem} {params : List CEdpsParam}
    {pairs : List (ℕ × Bytes)} (h : List.Forall₂ (Renders crt items) params pairs)
    (hlong : ¬ ShortArrays items params) : getMReadResult crt items params = none := by
  induction h with
  | nil => exact absurd (by simp [ShortArrays]) hlong
  | @cons p pair params pairs hp _ ih =>
    obtain ⟨-, size, good, hvalue⟩ := hp
    have hvalue' : getValueVariant crt 64 (itemOf items p) = _ := getValueVariant_eq hvalue 64
    by_cases hp : ∀ a ∈ copiedArray (itemOf items p), a.elements.length < 64
    · rw [if_pos hp] at hvalue'
      rw [getMReadResult_cons hvalue',
        ih fun hrest => hlong (List.forall_mem_cons.2 ⟨hp, hrest⟩), Option.map_none]
    · rw [if_neg hp] at hvalue'
      rw [getMReadResult, ← itemOf, hvalue']
      rfl

/-- **When SIS recovers the answer of a multiple read.** -/
theorem answer_recovered_iff (R : Runtime) (malloc : ℕ → UInt8) (m : MultiRead crt) :
    (∃ n, mreadResult crt malloc m.items m.params = some (some (answerText m.pairs), n) ∧
        Recovered R (ofAnsi R (answerText m.pairs)) (m.pairs.map (toPair R))) ↔
      ShortArrays m.items m.params := by
  have hpairs : ∀ p ∈ m.pairs.map (toPair R), ShortPair p ∧ p.1 ≠ 0 := by
    intro p hp
    obtain ⟨q, hq, rfl⟩ := List.mem_map.1 hp
    obtain ⟨hpos, hmax⟩ := m.ids q hq
    have htext := m.texts q hq
    refine ⟨⟨⟨?_, ?_⟩, by simpa [toPair] using htext⟩, ?_⟩ <;> simp only [toPair] <;> omega
  have htext : ofAnsi R (answerText m.pairs) = resultText (m.pairs.map (toPair R)) :=
    ofAnsi_answerText fun p hp => Nat.lt_of_le_of_lt (m.ids p hp).2 (by decide)
  have hlen : (resultText (m.pairs.map (toPair R))).length < 32767 := by
    rw [← htext, length_ofAnsi]
    exact m.short
  by_cases hshort : ShortArrays m.items m.params
  · obtain ⟨n, hn, hgood⟩ := getMReadResult_short m.rendered hshort
    have hresult : mreadResult crt malloc m.items m.params =
        some (some (answerText m.pairs), n) := by
      rw [mreadResult_eq, hn, Option.map_some, if_pos (hgood m.good)]
    exact iff_of_true ⟨n, hresult, htext ▸ recovered hpairs hlen⟩ hshort
  · have hnone : mreadResult crt malloc m.items m.params = none := by
      rw [mreadResult_eq, getMReadResult_long m.rendered hshort, Option.map_none]
    refine iff_of_false ?_ hshort
    rintro ⟨n, hresult, -⟩
    rw [hnone] at hresult
    cases hresult

/-- Parameter 17 with an array of `n` characters `A`. -/
def exampleArray (n : ℕ) : COPCItem where
  szItemID := ascii "S7:[C]DB1,CHAR8,64"
  hClient := 17
  hServer := 1
  wQuality := 0xC0
  vDataValue := ⟨VT_ARRAY + VT_UI1, 0, 0, some ⟨0, List.replicate n 65⟩⟩
  hrOperation := S_OK
  status := ⟨false, false, false, false⟩

theorem getValueVariant_exampleArray {size n : ℕ} (h : n < size) :
    getValueVariant exampleCrt size (some (exampleArray n)) = some (List.replicate n 65, true) := by
  have hquality : (exampleArray n).quality = true := by simp [COPCItem.quality, exampleArray]
  have htext : cstr (List.replicate n 65) = List.replicate n 65 :=
    cstr_of_noNul fun c hc => by rw [List.eq_of_mem_replicate hc]; decide
  rw [getValueVariant, hquality, if_pos rfl, variantText_array (.inl rfl)]
  simp [exampleArray, h, htext]

/-- The read of the array. -/
def exampleMultiRead (n : ℕ) (h : n < 1000) : MultiRead exampleCrt where
  items := [exampleArray n]
  params := [⟨17, ascii "S7:[C]DB1,CHAR8,64", .empty⟩]
  pairs := [(17, List.replicate n 65)]
  rendered := .cons ⟨rfl, n + 1, true, getValueVariant_exampleArray (Nat.lt_succ_self n)⟩ .nil
  ids := by simp
  texts := by simpa using h
  good := ⟨_, List.mem_singleton_self _, n + 1, _,
    getValueVariant_exampleArray (Nat.lt_succ_self n)⟩
  short := by
    have hid : (ltoa ((17 : ℕ) : ℤ)).length = 2 := by decide +kernel
    simp only [answerText, List.flatMap_singleton, List.length_append, OpcS7.length_framed, hid,
      List.length_replicate]
    omega

/-- With an array of 64 characters there is no answer: the terminator is written behind the buffer
of the value. -/
theorem not_answer_recovered_64 :
    ¬ ∃ n, mreadResult exampleCrt (fun _ => 0) (exampleMultiRead 64 (by decide)).items
        (exampleMultiRead 64 (by decide)).params =
          some (some (answerText (exampleMultiRead 64 (by decide)).pairs), n) ∧
      Recovered plainRuntime
        (ofAnsi plainRuntime (answerText (exampleMultiRead 64 (by decide)).pairs))
        ((exampleMultiRead 64 (by decide)).pairs.map (toPair plainRuntime)) := by
  rintro ⟨n, hresult, -⟩
  have hlong : ¬ ShortArrays (exampleMultiRead 64 (by decide)).items
      (exampleMultiRead 64 (by decide)).params := by
    intro hshort
    have hlt := hshort _ (List.mem_singleton_self _) ⟨0, List.replicate 64 65⟩ rfl
    exact absurd hlt (by simp)
  rw [mreadResult_eq, getMReadResult_long (exampleMultiRead 64 (by decide)).rendered hlong]
    at hresult
  cases hresult

end Link

end Edps
