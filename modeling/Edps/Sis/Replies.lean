import Edps.Sis.Groups
import Edps.Sis.Published

/-!
# Replies of the server

The reply to a group request is a text of pairs, the id and the value of each member behind its
length in three digits.  `SMREAD` reads it with `ParseResult`, which fills a place for each pair,
and `SpreadResuts` writes the values to the records of the members.

* `parseResult_ok` : the pairs of a reply in the places.
* `queueGroup_rows` : the rows the loop of `Value` Let queues from a reply.
* `spreadResuts_spreads` : every member has its value, and nothing else has changed; a reply that
  cannot be read changes nothing.
-/

namespace Edps

namespace Sis

open Vb

variable {R : Runtime}

/-! ### Reading a reply -/

/-- A reply: the ids and the values. -/
def resultText (pairs : List (ℤ × VbString)) : VbString :=
  pairs.flatMap fun p => behindLength (cStr p.1) ++ behindLength p.2

/-- The pair as a slot of `oResult`. -/
def toResults (p : ℤ × VbString) : Results := ⟨cStr p.1, p.2⟩

theorem resultText_cons (p : ℤ × VbString) (pairs : List (ℤ × VbString)) :
    resultText (p :: pairs) =
      behindLength (cStr p.1) ++ (behindLength p.2 ++ resultText pairs) := by
  simp only [resultText, List.flatMap_cons, List.append_assoc]

/-- The pairs of a reply whose lengths three digits can tell. -/
def ShortPair (p : ℤ × VbString) : Prop := (-32768 ≤ p.1 ∧ p.1 ≤ 32767) ∧ p.2.length < 1000

theorem ShortPair.length_lt {p : ℤ × VbString} (h : ShortPair p) : (cStr p.1).length < 1000 := by
  obtain ⟨hid, -⟩ := h
  exact length_cStr_lt ⟨by omega, by omega⟩

/-- A pair read back from its place in a text. -/
theorem readFramed_pair (numeric : NumericText) {pre : VbString} (post : VbString)
    {p : ℤ × VbString} {pos : ℤ} (h : ShortPair p) (hpos : pos = pre.length + 1)
    (hend : pos + 6 + (cStr p.1).length + p.2.length ≤ 32767) :
    readFramed numeric (pre ++ (behindLength (cStr p.1) ++ (behindLength p.2 ++ post))) pos =
        .ok (cStr p.1, pos + 3 + (cStr p.1).length) ∧
      readFramed numeric (pre ++ (behindLength (cStr p.1) ++ (behindLength p.2 ++ post)))
          (pos + 3 + (cStr p.1).length) =
        .ok (p.2, pos + 3 + (cStr p.1).length + 3 + p.2.length) := by
  have hid := h.length_lt
  rw [← framed_eq hid, ← framed_eq h.2]
  constructor
  · exact readFramed_append numeric hid hpos (by omega)
  · rw [← List.append_assoc]
    refine readFramed_append numeric h.2 ?_ (by omega)
    rw [List.length_append, length_framed hid, hpos]
    push_cast
    ring

/-- **`ParseResult`**: the pairs of a reply in the places. -/
theorem parseResult_ok {pairs : List (ℤ × VbString)} {places : List Results} {pre : VbString}
    {pos : ℤ} (hsize : places.length = pairs.length) (hpairs : ∀ p ∈ pairs, ShortPair p)
    (hpos : pos = pre.length + 1) (hend : pre.length + (resultText pairs).length < 32767) :
    parseResult (R := R) (pre ++ resultText pairs) places pos = .ok (pairs.map toResults) := by
  induction pairs generalizing places pre pos with
  | nil =>
    obtain rfl : places = [] := by simpa using hsize
    rfl
  | cons p pairs ih =>
    cases places with
    | nil => cases hsize
    | cons r places =>
      obtain ⟨hp, hrest⟩ := List.forall_mem_cons.1 hpairs
      rw [resultText_cons] at hend ⊢
      simp only [List.length_append, length_behindLength] at hend
      obtain ⟨hid, hvalue⟩ := readFramed_pair R.numeric (resultText pairs) hp hpos (by omega)
      simp only [parseResult, hid, hvalue, bind, Except.bind]
      -- the pairs behind this one
      have happ : pre ++ (behindLength (cStr p.1) ++ (behindLength p.2 ++ resultText pairs)) =
          (pre ++ (behindLength (cStr p.1) ++ behindLength p.2)) ++ resultText pairs := by
        simp only [List.append_assoc]
      rw [happ, ih (by simpa using hsize) hrest ?_ ?_]
      · rfl
      · rw [hpos]
        simp only [List.length_append, length_behindLength]
        push_cast
        ring
      · simp only [List.length_append, length_behindLength]
        omega

/-! ### Queueing the values -/

/-- A part of a group value read back from its place. -/
theorem getPartValue_append {pre s post : VbString} {pos : ℤ} (h : s.length < 1000)
    (hpos : pos = pre.length + 1) (hend : pos + 3 + s.length ≤ 32767) :
    getPartValue (R := R) (pre ++ (behindLength s ++ post)) pos = .ok (s, pos + 3 + s.length) := by
  have hlen : mid (pre ++ (behindLength s ++ post)) pos 3 = .ok (digitText 3 s.length) :=
    mid_eq (a := pre) (c := s ++ post) (by simp [behindLength]) hpos (by simp)
  have hne : digitText 3 s.length ≠ [] := by
    intro h
    have := congrArg List.length h
    simp at this
  rw [getPartValue, hlen]
  show (if digitText 3 (s.length : ℤ) = [] then .ok (vb "0", pos) else _) = _
  rw [if_neg hne, ← framed_eq h]
  exact readFramed_append R.numeric h hpos hend

theorem cInt_zero (numeric : NumericText) : cInt numeric (vb "0") = .ok 0 := by
  rw [cInt]
  rfl

/-- Behind the end of a group value there is a zero. -/
theorem getPartValue_end {s : VbString} {pos : ℤ} (hpos : s.length < pos) :
    getPartValue (R := R) s pos = .ok (vb "0", pos) := by
  have hlen : mid s pos 3 = .ok [] := by
    have hdrop : s.drop (pos.toNat - 1) = [] := List.drop_eq_nil_of_le (by omega)
    rw [mid, if_neg (by omega), hdrop, List.take_nil]
  rw [getPartValue, hlen]
  rfl

theorem readFramed_le {numeric : NumericText} {s t : VbString} {pos pos' : ℤ}
    (h : readFramed numeric s pos = .ok (t, pos')) : pos + 3 ≤ pos' := by
  simp only [readFramed, bind_eq_ok] at h
  obtain ⟨len, -, iLen, -, pos₁, hpos₁, text, htext, pos₂, hpos₂, heq⟩ := h
  obtain ⟨-, hlen, -⟩ := mid_ok htext
  have hend : pos₂ = pos' := (Prod.mk.inj (Except.ok.inj heq)).2
  have hafter := toInteger_ok hpos₁
  have hbehind := toInteger_ok hpos₂
  omega

/-- A part takes three characters at least, unless there is none. -/
theorem getPartValue_le {s t : VbString} {pos pos' : ℤ}
    (h : getPartValue (R := R) s pos = .ok (t, pos')) :
    1 ≤ pos ∧ ((s.length < pos ∧ pos' = pos) ∨ pos + 3 ≤ pos') := by
  rw [getPartValue, bind_eq_ok] at h
  obtain ⟨len, hlen, h⟩ := h
  obtain ⟨hpos, -, htake⟩ := mid_ok hlen
  refine ⟨hpos, ?_⟩
  by_cases hnil : len = []
  · left
    rw [if_pos hnil] at h
    have hend : pos = pos' := (Prod.mk.inj (Except.ok.inj h)).2
    have hlength := congrArg List.length (htake.trans hnil)
    simp only [List.length_take, List.length_drop, List.length_nil] at hlength
    exact ⟨by omega, hend.symm⟩
  · right
    rw [if_neg hnil] at h
    exact readFramed_le h

section Loop

variable {env : LineEnv} {value : VbString} {runID procTime evenTime pos pos₁ pos₂ nId : ℤ}
  {idText sValue : VbString} (fuel : ℕ)

/-- A zero ends the loop. -/
theorem queueGroup_zero (hpart : getPartValue (R := R) value pos = .ok (idText, pos₁))
    (hid : cInt R.numeric idText = .ok 0) :
    queueGroup (R := R) env value runID procTime evenTime (fuel + 1) pos = pure () := by
  rw [queueGroup, liftE_bind hpart]
  show (liftE (cInt R.numeric idText) >>= _) = _
  rw [liftE_bind hid, if_pos rfl]

/-- A pair is queued. -/
theorem queueGroup_pair (hpart : getPartValue (R := R) value pos = .ok (idText, pos₁))
    (hid : cInt R.numeric idText = .ok nId) (hne : nId ≠ 0)
    (hpart' : getPartValue (R := R) value pos₁ = .ok (sValue, pos₂)) :
    queueGroup (R := R) env value runID procTime evenTime (fuel + 1) pos = (do
      writeQueue env ⟨nId, procTime, sValue, runID, evenTime⟩
      queueGroup env value runID procTime evenTime fuel pos₂) := by
  rw [queueGroup, liftE_bind hpart]
  show (liftE (cInt R.numeric idText) >>= _) = _
  rw [liftE_bind hid, if_neg hne, liftE_bind hpart']

end Loop

/-- The first pair of a reply is queued, when it ends within what an `Integer` can count. -/
theorem queueGroup_cons (env : LineEnv) {p : ℤ × VbString} (pairs : List (ℤ × VbString))
    {pre : VbString} {pos : ℤ} (fuel : ℕ) (hp : ShortPair p) (hne : p.1 ≠ 0)
    (hpos : pos = pre.length + 1) (hend : pos + 6 + (cStr p.1).length + p.2.length ≤ 32767)
    (runID procTime evenTime : ℤ) :
    queueGroup (R := R) env (pre ++ resultText (p :: pairs)) runID procTime evenTime (fuel + 1)
        pos = (do
      writeQueue env ⟨p.1, procTime, p.2, runID, evenTime⟩
      queueGroup env ((pre ++ (behindLength (cStr p.1) ++ behindLength p.2)) ++ resultText pairs)
        runID procTime evenTime fuel (pos + 6 + (cStr p.1).length + p.2.length)) := by
  have hlen := hp.length_lt
  obtain ⟨hid, hvalue⟩ := hp
  have hnum : cInt R.numeric (cStr p.1) = .ok p.1 := cInt_cStr R.numeric hid
  have hpart₁ : getPartValue (R := R)
      (pre ++ (behindLength (cStr p.1) ++ (behindLength p.2 ++ resultText pairs))) pos =
        .ok (cStr p.1, pos + 3 + (cStr p.1).length) :=
    getPartValue_append hlen hpos (by omega)
  -- the place of the value
  have hpos₁ : pos + 3 + (cStr p.1).length =
      ((pre ++ behindLength (cStr p.1)).length : ℤ) + 1 := by
    simp only [List.length_append, length_behindLength, hpos]
    omega
  have hpart₂ : getPartValue (R := R)
      (pre ++ (behindLength (cStr p.1) ++ (behindLength p.2 ++ resultText pairs)))
        (pos + 3 + (cStr p.1).length) =
        .ok (p.2, pos + 3 + (cStr p.1).length + 3 + p.2.length) := by
    rw [← List.append_assoc]
    exact getPartValue_append hvalue hpos₁ (by omega)
  have happ : pre ++ (behindLength (cStr p.1) ++ (behindLength p.2 ++ resultText pairs)) =
      (pre ++ (behindLength (cStr p.1) ++ behindLength p.2)) ++ resultText pairs := by
    simp only [List.append_assoc]
  have hnext : pos + 3 + (cStr p.1).length + 3 + p.2.length =
      pos + 6 + (cStr p.1).length + p.2.length := by
    ring
  rw [resultText_cons, queueGroup_pair fuel hpart₁ hnum hne hpart₂, happ, hnext]

/-- The place behind the first pair. -/
theorem length_behind_pair (pre : VbString) (p : ℤ × VbString) {pos : ℤ}
    (hpos : pos = pre.length + 1) :
    pos + 6 + (cStr p.1).length + p.2.length =
      ((pre ++ (behindLength (cStr p.1) ++ behindLength p.2)).length : ℤ) + 1 := by
  simp only [List.length_append, length_behindLength, hpos]
  omega

/-- **The loop of `Value` Let** over a reply: it ends behind the last pair, with one `WriteQueue`
call for each. -/
theorem queueGroup_ok {env : LineEnv} (hleis : env.leis = none) {pairs : List (ℤ × VbString)}
    {pre : VbString} {pos : ℤ} {fuel : ℕ} (hfuel : pairs.length < fuel)
    (hpairs : ∀ p ∈ pairs, ShortPair p ∧ p.1 ≠ 0) (hpos : pos = pre.length + 1)
    (hend : pre.length + (resultText pairs).length < 32767) (runID procTime evenTime : ℤ)
    (s : CalcState R) :
    queueGroup env (pre ++ resultText pairs) runID procTime evenTime fuel pos s =
      .ok () { s with rows := s.rows ++ pairs.map fun p =>
        ⟨p.1, procTime, p.2, runID, evenTime⟩ } := by
  induction pairs generalizing fuel pre pos s with
  | nil =>
    obtain ⟨fuel, rfl⟩ : ∃ n, fuel = n + 1 := ⟨fuel - 1, by simp at hfuel; omega⟩
    have hstop : getPartValue (R := R) (pre ++ resultText []) pos = .ok (vb "0", pos) :=
      getPartValue_end (by simp only [resultText, List.flatMap_nil, List.append_nil]; omega)
    rw [queueGroup_zero fuel hstop (cInt_zero _)]
    simp [pure_ok]
  | cons p pairs ih =>
    obtain ⟨fuel, rfl⟩ : ∃ n, fuel = n + 1 := ⟨fuel - 1, by simp at hfuel; omega⟩
    obtain ⟨⟨hp, hne⟩, hrest⟩ := List.forall_mem_cons.1 hpairs
    have hlen : (resultText (p :: pairs)).length =
        6 + (cStr p.1).length + p.2.length + (resultText pairs).length := by
      simp only [resultText_cons, List.length_append, length_behindLength]
      omega
    rw [queueGroup_cons env pairs fuel hp hne hpos (by omega), bind_ok]
    refine ⟨(), _, writeQueue_ok.2 ⟨hleis, rfl⟩, ?_⟩
    rw [ih (by simpa using hfuel) hrest (length_behind_pair pre p hpos)]
    · simp
    · have hbehind := length_behind_pair pre p hpos
      omega

theorem toInteger_overflow {n : ℤ} (h : 32767 < n) : toInteger n = .error .overflow := by
  rw [toInteger, if_neg (by omega)]

/-- A part that reaches behind what an `Integer` can count. -/
theorem getPartValue_overflow {pre s post : VbString} {pos : ℤ} (h : s.length < 1000)
    (hpos : pos = pre.length + 1) (hend : 32767 < pos + 3 + s.length) :
    getPartValue (R := R) (pre ++ (behindLength s ++ post)) pos = .error .overflow := by
  have hlen : mid (pre ++ (behindLength s ++ post)) pos 3 = .ok (digitText 3 s.length) :=
    mid_eq (a := pre) (c := s ++ post) (by simp [behindLength]) hpos (by simp)
  have hne : digitText 3 s.length ≠ [] := by
    intro h
    have := congrArg List.length h
    simp at this
  have hnum : cInt R.numeric (digitText 3 s.length) = .ok (s.length : ℤ) :=
    cInt_digitText R.numeric (by omega) (by omega) (by omega) (by omega)
  have hframed : readFramed R.numeric (pre ++ (behindLength s ++ post)) pos =
      .error .overflow := by
    simp only [readFramed, hlen, hnum, bind, Except.bind]
    by_cases hfar : 32767 < pos + 3
    · rw [toInteger_overflow hfar]
    · have htext : mid (pre ++ (behindLength s ++ post)) (pos + 3) s.length = .ok s :=
        mid_eq (a := pre ++ digitText 3 s.length) (c := post) (by simp [behindLength])
          (by simp [hpos]; omega) rfl
      have hint : toInteger (pos + 3) = .ok (pos + 3) := by rw [toInteger, if_pos (by omega)]
      simp only [hint, htext]
      rw [toInteger_overflow (by omega)]
  rw [getPartValue, hlen]
  show (if digitText 3 (s.length : ℤ) = [] then .ok (vb "0", pos) else _) = _
  rw [if_neg hne]
  exact hframed

/-- The members whose values the loop of `Value` Let queues: those within what an `Integer` can
count, as long as their ids are `Integer`s and LEIS raises no error. -/
def drained {α : Type} (leis : Option VbError) (pair : α → ℤ × VbString) : ℤ → List α → List α
  | _, [] => []
  | pos, m :: ms =>
    let next := pos + 6 + (cStr (pair m).1).length + (pair m).2.length
    if (pair m).1 ≤ 32767 ∧ next ≤ 32767 then
      m :: if leis = none then drained leis pair next ms else []
    else []

theorem mem_of_mem_drained {α : Type} {leis : Option VbError} {pair : α → ℤ × VbString} {pos : ℤ}
    {ms : List α} {m : α} (h : m ∈ drained leis pair pos ms) : m ∈ ms := by
  induction ms generalizing pos with
  | nil => exact h
  | cons m' ms ih =>
    rw [drained] at h
    split_ifs at h with hwithin hleis
    · rcases List.mem_cons.1 h with rfl | h
      · exact List.mem_cons_self
      · exact List.mem_cons_of_mem _ (ih h)
    · rw [List.mem_singleton.1 h]
      exact List.mem_cons_self
    · cases h

/-- **The rows of the loop**, whether it ends or an error does. -/
theorem queueGroup_rows {α : Type} (env : LineEnv) (pair : α → ℤ × VbString) {ms : List α}
    {pre : VbString} {pos : ℤ} {fuel : ℕ} (hfuel : ms.length < fuel)
    (hpairs : ∀ m ∈ ms, 0 < (pair m).1 ∧ (cStr (pair m).1).length < 1000 ∧
      (pair m).2.length < 1000)
    (hpos : pos = pre.length + 1) (runID procTime evenTime : ℤ) (s : CalcState R) :
    (endState (queueGroup env (pre ++ resultText (ms.map pair)) runID procTime evenTime fuel pos)
        s).rows =
      s.rows ++ (drained env.leis pair pos ms).map fun m =>
        ⟨(pair m).1, procTime, (pair m).2, runID, evenTime⟩ := by
  have herror {β : Type} {x : Except VbError β} {e : VbError} (h : x = .error e)
      (f : β → CalcM R Unit) (s : CalcState R) :
      (endState (liftE x >>= f) s).rows = s.rows ++ [] := by
    have hraise : liftE x s = .error e s := by rw [h]; rfl
    rw [endState_bind_of_error hraise, List.append_nil]
  induction ms generalizing fuel pre pos s with
  | nil =>
    obtain ⟨fuel, rfl⟩ : ∃ n, fuel = n + 1 := ⟨fuel - 1, by simp at hfuel; omega⟩
    have hstop : getPartValue (R := R) (pre ++ resultText []) pos = .ok (vb "0", pos) :=
      getPartValue_end (by simp only [resultText, List.flatMap_nil, List.append_nil]; omega)
    rw [List.map_nil, queueGroup_zero fuel hstop (cInt_zero _)]
    exact (List.append_nil _).symm
  | cons m ms ih =>
    obtain ⟨fuel, rfl⟩ : ∃ n, fuel = n + 1 := ⟨fuel - 1, by simp at hfuel; omega⟩
    obtain ⟨⟨hid, hidLen, hvalue⟩, hrest⟩ := List.forall_mem_cons.1 hpairs
    rw [List.map_cons, resultText_cons, drained]
    set p := pair m with hp
    -- the id
    by_cases hend₁ : pos + 3 + (cStr p.1).length ≤ 32767
    swap
    · rw [if_neg (by omega), queueGroup]
      exact herror (getPartValue_overflow hidLen hpos (by omega)) _ _
    have hpart : getPartValue (R := R)
        (pre ++ (behindLength (cStr p.1) ++ (behindLength p.2 ++ resultText (ms.map pair)))) pos =
          .ok (cStr p.1, pos + 3 + (cStr p.1).length) := getPartValue_append hidLen hpos hend₁
    by_cases hint : p.1 ≤ 32767
    swap
    · have hnum : cInt R.numeric (cStr p.1) = .error .overflow := by
        rw [cInt, textToWhole_cStr]
        exact toInteger_overflow (by omega)
      rw [if_neg (fun h => hint h.1), queueGroup, liftE_bind hpart]
      exact herror hnum _ _
    -- the value
    by_cases hend₂ : pos + 6 + (cStr p.1).length + p.2.length ≤ 32767
    swap
    · have hnum : cInt R.numeric (cStr p.1) = .ok p.1 := cInt_cStr R.numeric ⟨by omega, hint⟩
      have hpos₁ : pos + 3 + (cStr p.1).length =
          ((pre ++ behindLength (cStr p.1)).length : ℤ) + 1 := by
        simp only [List.length_append, length_behindLength, hpos]
        omega
      rw [if_neg (fun h => hend₂ h.2), queueGroup, liftE_bind hpart]
      show (endState (liftE (cInt R.numeric (cStr p.1)) >>= _) s).rows = _
      rw [liftE_bind hnum, if_neg hid.ne', ← List.append_assoc]
      exact herror (getPartValue_overflow hvalue hpos₁ (by omega)) _ _
    rw [if_pos ⟨hint, hend₂⟩, ← resultText_cons,
      queueGroup_cons env _ fuel ⟨⟨by omega, hint⟩, hvalue⟩ hid.ne' hpos hend₂]
    set row : HistRow := ⟨p.1, procTime, p.2, runID, evenTime⟩ with hrow
    cases hleis : env.leis with
    | some e =>
      have hqueue : writeQueue env row s = .error e { s with rows := s.rows ++ [row] } := by
        rw [writeQueue, hleis]
      rw [endState_bind_of_error hqueue]
      rfl
    | none =>
      have hqueue : writeQueue env row s = .ok () { s with rows := s.rows ++ [row] } := by
        rw [writeQueue, hleis]
      rw [endState_bind_of_ok hqueue,
        ih (by simpa using hfuel) hrest (length_behind_pair pre p hpos), hleis, if_pos rfl,
        List.map_cons, List.append_assoc]
      rfl

/-! ### Spreading the values -/

/-- The store holds the record at `i` as its pool string, short enough to be read. -/
structure Holds (store : ℤ → VbString) (i : ℤ) (d : Datum R) : Prop where
  encodable : d.Encodable
  text : poolString d = .ok (store i)
  short : (store i).length < 32767

/-- The record with another value. -/
def Datum.withValue (d : Datum R) (t : VbString) : Datum R := { d with value := .str t }

/-- The store holds a record that can take the value, and the lengths stay within what the codec
can count. -/
structure Takes (store : ℤ → VbString) (p : ℤ × VbString) (d : Datum R) : Prop where
  holds : Holds store p.1 d
  pair : ShortPair p
  fits : ∀ t, poolString (d.withValue p.2) = .ok t → t.length < 32767

theorem Holds.loads {store : ℤ → VbString} {i : ℤ} {d : Datum R} (h : Holds store i d) :
    Loads (store i) d :=
  letPoolString_poolString h.encodable h.text h.short

theorem encodable_withValue {d : Datum R} (h : d.Encodable) {t : VbString} (ht : t.length < 1000) :
    (d.withValue t).Encodable :=
  h.setValue (by unfold maxPartLen; omega)

/-- The fourteen fields before the value stay, as texts. -/
theorem poolParts_withValue (d : Datum R) (t : VbString) :
    (poolParts (d.withValue t)).take 14 = (poolParts d).take 14 := rfl

/-- A record depends on the store only at its own place. -/
theorem Holds.congr {store store' : ℤ → VbString} {i : ℤ} {d : Datum R} (h : Holds store i d)
    (hstore : store' i = store i) : Holds store' i d :=
  { encodable := h.encodable
    text := by rw [hstore]; exact h.text
    short := by rw [hstore]; exact h.short }

theorem Takes.congr {store store' : ℤ → VbString} {p : ℤ × VbString} {d : Datum R}
    (h : Takes store p d) (hstore : store' p.1 = store p.1) : Takes store' p d :=
  { holds := h.holds.congr hstore
    pair := h.pair
    fits := h.fits }

/-- **`PutDataByID`**: the record has the value, the other records stay. -/
theorem putDataByID_ok {p : ℤ × VbString} {d : Datum R} {s : CalcState R} (v : OpVar)
    (h : Takes s.store p d) :
    ∃ s', putDataByID v (cStr p.1) p.2 s = .ok () s' ∧
      Holds s'.store p.1 (d.withValue p.2) ∧ ∀ j ≠ p.1, s'.store j = s.store j := by
  have hid : cInt R.numeric (cStr p.1) = .ok p.1 := cInt_cStr R.numeric h.pair.1
  have henc := encodable_withValue h.holds.encodable h.pair.2
  set t := SCLSNAME ++ encoded R (poolParts (d.withValue p.2)) with ht
  have htext : poolString (d.withValue p.2) = .ok t := poolString_eq henc
  -- the record is loaded, changed and written back
  set d' : Datum R := { d with someID := (s.op v).someID } with hd'
  set s₁ := s.setOp v d' with hs₁
  set s₂ := s₁.setOp v (d'.withValue p.2) with hs₂
  have hload : getData v p.1 s = .ok () s₁ := by rw [getData, h.holds.loads]
  have hshare : shareData v p.1 s₂ = .ok () (s₂.setStore p.1 t) := by
    have htext' : poolString (s₂.op v) = .ok t := by
      rw [hs₂, CalcState.setOp_op_self]
      exact htext
    rw [shareData, htext']
  refine ⟨s₂.setStore p.1 t, ?_, ⟨henc, ?_, ?_⟩, fun j hj => ?_⟩
  · rw [putDataByID, liftE_bind hid, bind_ok]
    refine ⟨(), s₁, hload, ?_⟩
    have hop : s₁.op v = d' := CalcState.setOp_op_self ..
    rw [modifyOp_bind, liftE_bind hid, hop]
    exact hshare
  · rw [CalcState.setStore_store, Function.update_self, htext]
  · rw [CalcState.setStore_store, Function.update_self]
    exact h.fits t htext
  · rw [CalcState.setStore_store, Function.update_of_ne hj]
    rfl

/-- The loop of `SpreadResuts`: distinct members, one after the other. -/
theorem putAll_ok (record : ℤ → Datum R) {pairs : List (ℤ × VbString)} (s : CalcState R)
    (hids : (pairs.map Prod.fst).Nodup) (hpairs : ∀ p ∈ pairs, Takes s.store p (record p.1)) :
    ∃ s', (forIn (pairs.map toResults) PUnit.unit fun r _ => do
        putDataByID .mfdptr r.sParID r.sValue
        pure (ForInStep.yield PUnit.unit) : CalcM R PUnit) s = .ok PUnit.unit s' ∧
      (∀ p ∈ pairs, Holds s'.store p.1 ((record p.1).withValue p.2)) ∧
      ∀ j ∉ pairs.map Prod.fst, s'.store j = s.store j := by
  induction pairs generalizing s with
  | nil => exact ⟨s, rfl, by simp, fun _ _ => rfl⟩
  | cons p pairs ih =>
    obtain ⟨hfresh, hids⟩ := List.nodup_cons.1 hids
    obtain ⟨hp, hrest⟩ := List.forall_mem_cons.1 hpairs
    obtain ⟨s₁, hput, hheld, hframe⟩ := putDataByID_ok .mfdptr hp
    -- the members behind this one are other records
    have hrest₁ : ∀ q ∈ pairs, Takes s₁.store q (record q.1) := fun q hq =>
      (hrest q hq).congr (hframe _ fun h => hfresh (h ▸ List.mem_map_of_mem hq))
    obtain ⟨s', hloop, hheld', hframe'⟩ := ih s₁ hids hrest₁
    refine ⟨s', ?_, List.forall_mem_cons.2 ⟨?_, hheld'⟩, fun j hj => ?_⟩
    · rw [List.map_cons, List.forIn_cons, bind_assoc, bind_ok]
      exact ⟨(), s₁, hput, hloop⟩
    · exact hheld.congr (hframe' _ hfresh)
    · rw [List.map_cons, List.mem_cons, not_or] at hj
      rw [hframe' j hj.2, hframe j hj.1]

theorem isNumeric_behindLength {s : VbString} (h : s.length < 1000) (post : VbString) :
    R.isNumeric ((behindLength s ++ post).take 3) = true := by
  have htake : (behindLength s ++ post).take 3 = digitText 3 s.length := by
    rw [behindLength, List.append_assoc]
    exact List.take_left' (by simp)
  rw [htake]
  exact R.isNumeric_whole _ _ (parseInt_digitText (by decide) (by omega) (by omega))

/-- A reply that begins with a number is read before anything is written. -/
theorem spreadResuts_ok {sRes : VbString} (h : R.isNumeric (sRes.take 3) = true)
    {s s' : CalcState R} {rs : List Results}
    (hparse : parseResult (R := R) sRes s.oResult 1 = .ok rs)
    (hloop : (forIn rs PUnit.unit fun r _ => do
      putDataByID .mfdptr r.sParID r.sValue
      pure (ForInStep.yield PUnit.unit) : CalcM R PUnit) { s with oResult := rs } =
        .ok PUnit.unit s') : spreadResuts sRes s = .ok () s' := by
  rw [spreadResuts, if_pos h]
  show (liftE (parseResult sRes s.oResult 1) >>= _) s = _
  rw [liftE_bind hparse, bind_ok]
  refine ⟨(), { s with oResult := rs }, rfl, ?_⟩
  rw [bind_ok]
  exact ⟨_, s', hloop, rfl⟩

/-- **`SMREAD` spreads the values and touches nothing else.**  After `SpreadResuts` of a reply with
distinct members each of them has its value and the other fourteen fields it had, as texts, and
all other records are what they were; and a reply that `ParseResult` cannot read changes no record
at all. -/
theorem spreadResuts_spreads (s : CalcState R) :
    (∀ (record : ℤ → Datum R) (pairs : List (ℤ × VbString)), s.oResult.length = pairs.length →
      (pairs.map Prod.fst).Nodup → (∀ p ∈ pairs, Takes s.store p (record p.1)) →
      (resultText pairs).length < 32767 →
      ∃ s', spreadResuts (resultText pairs) s = .ok () s' ∧
        (∀ p ∈ pairs, ∃ d : Datum R, Holds s'.store p.1 d ∧ d.value = .str p.2 ∧
          (poolParts d).take 14 = (poolParts (record p.1)).take 14) ∧
        ∀ j ∉ pairs.map Prod.fst, s'.store j = s.store j) ∧
    ∀ sRes e, parseResult (R := R) sRes s.oResult 1 = .error e →
      (endState (spreadResuts sRes) s).store = s.store := by
  constructor
  · intro record pairs hsize hids hpairs hlen
    have hparse : parseResult (R := R) ([] ++ resultText pairs) s.oResult 1 = _ :=
      parseResult_ok hsize (fun p hp => (hpairs p hp).pair) (by simp) (by simpa using hlen)
    rw [List.nil_append] at hparse
    by_cases hnum : R.isNumeric ((resultText pairs).take 3) = true
    · obtain ⟨s', hloop, hheld, hframe⟩ :=
        putAll_ok record { s with oResult := pairs.map toResults } hids hpairs
      exact ⟨s', spreadResuts_ok hnum hparse hloop, fun p hp =>
        ⟨_, hheld p hp, rfl, poolParts_withValue ..⟩, hframe⟩
    · -- only a reply without pairs begins with no number
      cases pairs with
      | nil => exact ⟨s, by rw [spreadResuts, if_neg hnum]; rfl, by simp, fun _ _ => rfl⟩
      | cons p pairs =>
        rw [resultText_cons] at hnum
        exact absurd
          (isNumeric_behindLength (hpairs p List.mem_cons_self).pair.length_lt _) hnum
  · intro sRes e he
    have hends : ∃ r, spreadResuts sRes s = r ∧ (r = .error e s ∨ r = .ok () s) := by
      by_cases hnum : R.isNumeric (sRes.take 3) = true
      · refine ⟨.error e s, ?_, .inl rfl⟩
        rw [spreadResuts, if_pos hnum]
        show (liftE (parseResult sRes s.oResult 1) >>= _) s = _
        rw [he]
        rfl
      · exact ⟨.ok () s, by rw [spreadResuts, if_neg hnum]; rfl, .inr rfl⟩
    obtain ⟨r, hr, rfl | rfl⟩ := hends <;> rw [endState, hr]

/-- The calculator with places for the results of a group of two. -/
def exampleGroupState : CalcState plainRuntime :=
  { exampleState with oResult := List.replicate 2 ⟨[], []⟩ }

theorem takes_exampleState {i : ℤ} {t : VbString} (hi : -32768 ≤ i ∧ i ≤ 32767)
    (ht : t.length < 1000)
    (hfits : (poolString (exampleDatum.withValue t)).toOption.all (fun u => u.length < 32767)) :
    Takes exampleGroupState.store (i, t) exampleDatum where
  holds := ⟨encodable_exampleDatum, stored_exampleState.text, stored_exampleState.short⟩
  pair := ⟨hi, ht⟩
  fits u hu := by
    rw [hu] at hfits
    simpa [Except.toOption] using hfits

/-- The reply `0021700150021800212` gives parameter 17 the value 5 and parameter 18 the value 12,
and the reply `0021700` cannot be read. -/
theorem spreadResuts_two :
    (∃ s', spreadResuts (vb "0021700150021800212") exampleGroupState = .ok () s' ∧
      (∃ d : Datum plainRuntime, Holds s'.store 17 d ∧ d.value = .str (vb "5")) ∧
      (∃ d : Datum plainRuntime, Holds s'.store 18 d ∧ d.value = .str (vb "12")) ∧
      s'.store 19 = exampleGroupState.store 19) ∧
    (endState (spreadResuts (vb "0021700")) exampleGroupState).store =
      exampleGroupState.store := by
  obtain ⟨hspread, herror⟩ := spreadResuts_spreads exampleGroupState
  have hreply : resultText [(17, vb "5"), (18, vb "12")] = vb "0021700150021800212" := by
    decide +kernel
  constructor
  · obtain ⟨s', hs', hheld, hframe⟩ := hspread (fun _ => exampleDatum)
      [(17, vb "5"), (18, vb "12")] rfl (by decide)
      (by
        simp only [List.forall_mem_cons, List.not_mem_nil, false_implies, implies_true, and_true]
        exact ⟨takes_exampleState (by decide) (by decide) (by decide +kernel),
          takes_exampleState (by decide) (by decide) (by decide +kernel)⟩)
      (by decide +kernel)
    rw [hreply] at hs'
    obtain ⟨d, hd, hval, -⟩ := hheld (17, vb "5") (by simp)
    obtain ⟨d', hd', hval', -⟩ := hheld (18, vb "12") (by simp)
    exact ⟨s', hs', ⟨d, hd, hval⟩, ⟨d', hd', hval'⟩, hframe 19 (by decide)⟩
  · exact herror (vb "0021700") .typeMismatch rfl

end Sis

end Edps
