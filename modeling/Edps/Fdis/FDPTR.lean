import Edps.Lib.Fields
import Edps.Sis.FDPTR
import Edps.Sis.SchedPTR

/-!
# The records of the data server and their pool strings

The `cFDPTR` class of the data server has the fifteen fields of the SIS class without `SomeID`.
Its pool string puts each field behind `Format(Len, "000")`: three digits up to a length of 999,
more from 1000 on.  The reader always takes three.

* `poolString`, `letPoolString` : `PoolString` written and read.
* `letPoolString_poolString` : a record whose texts are shorter than 1000 characters is read back.
* `letPoolString_long_value` : a longer `Value` is not.
* `letPoolString_congr` : what a text that is accepted leaves in a record comes from that text.
* `letPoolString_failed` : a text that is not accepted leaves the old `Value`.
-/

namespace Edps

namespace Fdis

open Vb Fields
open Sis (framed formatLen readFramed readFramed_append length_framed str2Date str2Date_format
  FourDigitYear length_format)

/-- The Variants of a record: what the strings of a request, the PLC and the database put there. -/
inductive Value (R : Runtime) where
  /-- `Empty`, `Null` and objects -/
  | empty
  /-- strings and plain numbers -/
  | plain (v : Variant R)
  /-- `vbDecimal`, by its text -/
  | decimal (text : VbString)
  /-- `vbCurrency`, by its text -/
  | currency (text : VbString)
  /-- `vbDate` -/
  | date (d : ℤ)
  /-- `vbBoolean` -/
  | bool (b : Bool)

/-- `THFDIS`, the data of a record. -/
structure Datum (R : Runtime) where
  paramID : Value R
  dataType : VbString
  linkType : VbString
  dataSetName : VbString
  addr1 : VbString
  addr2 : VbString
  addr3 : VbString
  addr4 : VbString
  addr5 : VbString
  addr6 : VbString
  date1 : ℤ
  date2 : ℤ
  value : Value R
  tag : Value R
  action : ℤ

variable {R : Runtime}

/-- A new record.  As texts its fields are empty, as numbers and dates they are `0`. -/
def Datum.new : Datum R :=
  ⟨.empty, [], [], [], [], [], [], [], [], [], 0, 0, .empty, .empty, 0⟩

def Datum.withValue (v : Value R) (d : Datum R) : Datum R := { d with value := v }

def SCLSNAME : VbString := vb "cFDPTR"

/-! ### Writing -/

/-- `AlwayString` -/
def alwayString : Value R → VbString
  | .empty => []
  | .plain v => Vb.alwayString v
  | .decimal t => t
  | .currency t => vb "$" ++ t
  | .date d => format R.separators d
  | .bool b => if b then vb "True" else vb "False"

/-- The texts of the fields before `Value`. -/
def leadingParts (d : Datum R) : List VbString :=
  [trim (str d.action), d.addr1, d.addr2, d.addr3, d.addr4, d.addr5, d.addr6, d.dataSetName,
    d.dataType, format R.separators d.date1, format R.separators d.date2, d.linkType,
    alwayString d.paramID, alwayString d.tag]

/-- `PoolString` Get.  `GetPoolStr` puts a text behind its length. -/
def poolString (d : Datum R) : VbString :=
  SCLSNAME ++ (leadingParts d ++ [alwayString d.value]).flatMap framed

/-! ### Reading -/

/-- The assignments of `PoolString` Let before that of `Value`. -/
def leadingSetters : List (VbString → Datum R → Except VbError (Datum R)) :=
  [fun t d => (cLng R.numeric t).map fun n => { d with action := n },
    fun t d => .ok { d with addr1 := t },
    fun t d => .ok { d with addr2 := t },
    fun t d => .ok { d with addr3 := t },
    fun t d => .ok { d with addr4 := t },
    fun t d => .ok { d with addr5 := t },
    fun t d => .ok { d with addr6 := t },
    fun t d => .ok { d with dataSetName := t },
    fun t d => .ok { d with dataType := t },
    fun t d => (str2Date R t).map fun n => { d with date1 := n },
    fun t d => (str2Date R t).map fun n => { d with date2 := n },
    fun t d => .ok { d with linkType := t },
    fun t d => (cLng R.numeric t).map fun n => { d with paramID := .plain (.int n) },
    fun t d => (cLng R.numeric t).map fun n => { d with tag := .plain (.int n) }]

/-- The assignment of `Value`. -/
def setValue (t : VbString) (d : Datum R) : Except VbError (Datum R) :=
  .ok (d.withValue (.plain (.str t)))

/-- `PoolString` Let: the record afterwards and the error raised, if any.  `GetPartPoolStr` reads
the text behind a length of three characters.  Every error is raised again as error 0. -/
def letPoolString (s : VbString) (d : Datum R) : Datum R × Option VbError :=
  if s.take SCLSNAME.length = SCLSNAME then
    let read := readFramed R.numeric s
    let (d, err) := readAll read (leadingSetters ++ [setValue]) (1 + SCLSNAME.length) d
    (d, err.map fun _ => .invalidCall)
  else (d, some .invalidCall)

/-- A text that is accepted begins with the class name and has its fifteen fields. -/
theorem letPoolString_eq_ok {s : VbString} {d d' : Datum R} :
    letPoolString s d = (d', none) ↔ s.take SCLSNAME.length = SCLSNAME ∧
      readAll (readFramed R.numeric s) (leadingSetters ++ [setValue]) (1 + SCLSNAME.length) d =
        (d', none) := by
  unfold letPoolString
  split_ifs with h
  · simp only [h, true_and, Prod.ext_iff, Option.map_eq_none_iff]
  · simp [h]

/-! ### What is read back -/

/-- The records whose pool string is meant to be read back: 32-bit numbers, texts below 1000
characters, dates of years with four digits. -/
structure Datum.Encodable (d : Datum R) : Prop where
  action : -2147483648 ≤ d.action ∧ d.action ≤ 2147483647
  texts : ∀ t ∈ [d.addr1, d.addr2, d.addr3, d.addr4, d.addr5, d.addr6, d.dataSetName, d.dataType,
    d.linkType], t.length < 1000
  date1 : FourDigitYear d.date1
  date2 : FourDigitYear d.date2
  paramID : ∃ n, d.paramID = .plain (.int n) ∧ -2147483648 ≤ n ∧ n ≤ 2147483647
  tag : ∃ n, d.tag = .plain (.int n) ∧ -2147483648 ≤ n ∧ n ≤ 2147483647

theorem length_leadingParts {d : Datum R} (h : d.Encodable) :
    ∀ t ∈ leadingParts d, t.length < 1000 := by
  obtain ⟨hact, htexts, -, -, ⟨p, hp, hpr⟩, ⟨g, hg, hgr⟩⟩ := h
  have hdate (t : ℤ) : (format R.separators t).length < 1000 := by
    rw [length_format]; decide
  simp only [List.forall_mem_cons, List.not_mem_nil, false_implies, implies_true, and_true]
    at htexts
  obtain ⟨a1, a2, a3, a4, a5, a6, a7, a8, a9⟩ := htexts
  simp only [leadingParts, List.forall_mem_cons, List.not_mem_nil, false_implies, implies_true,
    and_true, hp, hg, alwayString, alwayString_int, trim_str]
  exact ⟨length_cStr_lt hact, a1, a2, a3, a4, a5, a6, a7, a8, hdate _, hdate _, a9,
    length_cStr_lt hpr, length_cStr_lt hgr⟩

/-- The texts of a record assigned to another one: the fields before `Value`. -/
theorem assignAll_leadingParts {d : Datum R} (h : d.Encodable) (e : Datum R) :
    assignAll leadingSetters (leadingParts d) e = .ok { d with value := e.value } := by
  obtain ⟨hact, -, h₁, h₂, ⟨p, hp, hpr⟩, ⟨g, hg, hgr⟩⟩ := h
  have hd₁ := str2Date_format (R := R) h₁
  have hd₂ := str2Date_format (R := R) h₂
  simp only [leadingSetters, leadingParts, assignAll, trim_str, cLng_cStr R.numeric hact, hd₁, hd₂,
    hp, hg, alwayString, alwayString_int, cLng_cStr R.numeric hpr, cLng_cStr R.numeric hgr, bind,
    Except.bind, Except.map]

theorem length_flatMap_framed_le {parts : List VbString} (h : ∀ t ∈ parts, t.length < 1000) :
    (parts.flatMap framed).length ≤ 1002 * parts.length := by
  induction parts with
  | nil => simp
  | cons t parts ih =>
    obtain ⟨ht, hts⟩ := List.forall_mem_cons.1 h
    have := ih hts
    rw [List.flatMap_cons, List.length_append, length_framed ht, List.length_cons]
    omega

/-- Short fields stand where they were written. -/
theorem reads_framed {parts : List VbString} {pre post : VbString} {pos : ℤ}
    (hparts : ∀ t ∈ parts, t.length < 1000) (hpos : pos = pre.length + 1)
    (hend : pos + (parts.flatMap framed).length ≤ 32767) :
    Reads (readFramed R.numeric (pre ++ (parts.flatMap framed ++ post))) pos parts
      (pos + (parts.flatMap framed).length) := by
  induction parts generalizing pre pos with
  | nil => simp [Reads]
  | cons t parts ih =>
    obtain ⟨ht, hts⟩ := List.forall_mem_cons.1 hparts
    rw [List.flatMap_cons, List.length_append, length_framed ht] at hend ⊢
    refine ⟨pos + 3 + t.length, ?_, ?_⟩
    · rw [List.append_assoc]
      exact readFramed_append R.numeric ht hpos (by push_cast at hend; omega)
    · have hnext : pos + 3 + t.length = (pre ++ framed t).length + 1 := by
        rw [List.length_append, length_framed ht, hpos]
        push_cast
        ring
      have hrest := ih hts hnext (by push_cast at hend; omega)
      have hstop : pos + ((3 + t.length + (parts.flatMap framed).length : ℕ) : ℤ) =
          pos + 3 + t.length + (parts.flatMap framed).length := by
        push_cast
        ring
      rw [hstop]
      simpa only [List.append_assoc] using hrest

/-- The fields of a pool string before `Value`, read into a record. -/
theorem readAll_poolString {d : Datum R} (h : d.Encodable)
    (rest : List (VbString → Datum R → Except VbError (Datum R))) (e : Datum R) :
    readAll (readFramed R.numeric (poolString d)) (leadingSetters ++ rest) (1 + SCLSNAME.length) e =
      readAll (readFramed R.numeric (poolString d)) rest
        (1 + SCLSNAME.length + ((leadingParts d).flatMap framed).length)
        { d with value := e.value } := by
  have hlen := length_flatMap_framed_le (length_leadingParts h)
  have hname : SCLSNAME.length = 6 := rfl
  have hparts : (leadingParts d).length = 14 := rfl
  have hpool : poolString d =
      SCLSNAME ++ ((leadingParts d).flatMap framed ++ framed (alwayString d.value)) := by
    simp [poolString]
  rw [hpool]
  exact readAll_append rfl (reads_framed (length_leadingParts h) (by rw [add_comm])
    (by omega)) (assignAll_leadingParts h e)

/-- **A record read back.** -/
theorem letPoolString_poolString {d : Datum R} (h : d.Encodable) {v : VbString}
    (hv : d.value = .plain (.str v)) (hlen : v.length < 1000) (e : Datum R) :
    letPoolString (poolString d) e = (d, none) := by
  have hlead := length_flatMap_framed_le (length_leadingParts h)
  have hname : SCLSNAME.length = 6 := rfl
  have hparts : (leadingParts d).length = 14 := rfl
  have hread : readFramed R.numeric (poolString d)
      (1 + SCLSNAME.length + ((leadingParts d).flatMap framed).length) =
      .ok (v, 1 + SCLSNAME.length + ((leadingParts d).flatMap framed).length + 3 + v.length) := by
    have hpool : poolString d =
        (SCLSNAME ++ (leadingParts d).flatMap framed) ++ (framed v ++ []) := by
      simp [poolString, hv, alwayString]
    rw [hpool]
    refine readFramed_append R.numeric hlen ?_ (by omega)
    rw [List.length_append]
    push_cast
    ring
  have hall := readAll_poolString h [setValue] e
  simp only [readAll, hread, setValue, ← hv] at hall
  exact letPoolString_eq_ok.2 ⟨by simp [poolString], hall⟩

/-- The first three digits of a number with more. -/
theorem cInt_take_cStr (numeric : NumericText) {n : ℕ} (h : 1000 ≤ n) :
    ∃ k : ℕ, cInt numeric ((cStr n).take 3) = .ok k ∧ k < 1000 := by
  have hlen : 3 < (Decimal.digits n).length := Decimal.lt_length_digits (by omega)
  have hdigits : ∀ d ∈ (Decimal.digits n).take 3, d < 10 :=
    fun d hd => Decimal.lt_of_mem_digits (List.mem_of_mem_take hd)
  have hcodes : ∀ c ∈ Decimal.codes ((Decimal.digits n).take 3), Decimal.isDigit c :=
    fun c hc => Decimal.isDigit_of_mem_codes hdigits hc
  have hne : (Decimal.digits n).take 3 ≠ [] := fun he => by
    have := congrArg List.length he
    rw [List.length_take, List.length_nil] at this
    omega
  have htake : (cStr n).take 3 = ofCodes (Decimal.codes ((Decimal.digits n).take 3)) := by
    have hnat : ¬ ((n : ℤ) < 0) := by omega
    simp only [cStr, Decimal.intText, if_neg hnat, Int.natAbs_natCast, Decimal.natText, ofCodes,
      Decimal.codes, List.map_take]
  have hlt := Decimal.value_lt hdigits
  rw [List.length_take, min_eq_left (by omega)] at hlt
  have hascii : ∀ c ∈ Decimal.codes ((Decimal.digits n).take 3), c < 128 := by
    intro c hc
    have := hcodes c hc
    simp only [Decimal.isDigit, Bool.and_eq_true, decide_eq_true_eq] at this
    omega
  refine ⟨Decimal.value ((Decimal.digits n).take 3), ?_, by omega⟩
  rw [htake, cInt, textToWhole, toNat_ofCodes hascii, Decimal.parseInt_eq_parseNat hcodes,
    Decimal.parseNat_codes hne hdigits]
  simp only [Option.map_some, bind, Except.bind, toInteger]
  rw [if_pos (by omega)]

/-- A text of 1000 characters or more is not read whole. -/
theorem readFramed_long {numeric : NumericText} {pre s post t : VbString} {pos stop : ℤ}
    (h : 1000 ≤ s.length) (hpos : pos = pre.length + 1)
    (hread : readFramed numeric (pre ++ (framed s ++ post)) pos = .ok (t, stop)) :
    t.length < 1000 := by
  obtain ⟨k, hk, hlt⟩ := cInt_take_cStr numeric h
  have hhead : mid (pre ++ (framed s ++ post)) pos 3 = .ok ((cStr s.length).take 3) := by
    have hframed : framed s = cStr s.length ++ s := by
      rw [framed, formatLen, if_neg (by omega)]
    have hlen : 3 < (cStr s.length).length := by
      have hnat : ¬ ((s.length : ℤ) < 0) := by omega
      have := Decimal.lt_length_digits (n := s.length) (k := 3) (by omega)
      simpa only [cStr, Decimal.intText, if_neg hnat, Int.natAbs_natCast, Decimal.natText,
        length_ofCodes, Decimal.length_codes] using this
    refine mid_eq (a := pre) (c := (cStr s.length).drop 3 ++ (s ++ post)) ?_ hpos ?_
    · rw [hframed, ← List.append_assoc ((cStr s.length).take 3), List.take_append_drop,
        List.append_assoc]
    · rw [List.length_take, min_eq_left (by omega)]
      rfl
  obtain ⟨m, hm, hread⟩ := bind_eq_ok.1 hread
  obtain ⟨iLen, hiLen, hread⟩ := bind_eq_ok.1 hread
  obtain ⟨pos', -, hread⟩ := bind_eq_ok.1 hread
  obtain ⟨text, htext, hread⟩ := bind_eq_ok.1 hread
  obtain ⟨stop', -, hread⟩ := bind_eq_ok.1 hread
  cases hread
  cases hhead.symm.trans hm
  cases hk.symm.trans hiLen
  obtain ⟨-, -, hcut⟩ := mid_ok htext
  rw [← hcut, List.length_take]
  omega

/-- **A long `Value` is not read back.** -/
theorem letPoolString_long_value {d : Datum R} (h : d.Encodable) {v : VbString}
    (hv : d.value = .plain (.str v)) (hlen : 1000 ≤ v.length) {e d' : Datum R}
    (hread : letPoolString (poolString d) e = (d', none)) : d'.value ≠ .plain (.str v) := by
  have hall := (letPoolString_eq_ok.1 hread).2
  rw [readAll_poolString h [setValue] e] at hall
  obtain ⟨t, stop, ht, d₁, hd₁, hend⟩ := readAll_cons_eq.1 hall
  cases hd₁
  cases readAll_nil_eq.1 hend
  have hpool : poolString d =
      (SCLSNAME ++ (leadingParts d).flatMap framed) ++ (framed v ++ []) := by
    simp [poolString, hv, alwayString]
  rw [hpool] at ht
  have hshort := readFramed_long hlen (by rw [List.length_append]; push_cast; ring) ht
  intro heq
  injection heq with heq
  injection heq with heq
  rw [heq] at hshort
  omega

/-! ### What is left from before -/

theorem map_eq_ok {E α β : Type} {x : Except E α} {f : α → β} {b : β} :
    x.map f = .ok b ↔ ∃ a, x = .ok a ∧ f a = b := by
  cases x <;> simp [Except.map]

/-- **What an accepted text leaves in a record** comes from that text alone. -/
theorem letPoolString_congr {s : VbString} {d d' : Datum R}
    (h : letPoolString s d = (d', none)) (e : Datum R) : letPoolString s e = (d', none) := by
  rw [letPoolString_eq_ok] at h ⊢
  -- every field is assigned, so nothing of the old record is in the new one
  simpa only [leadingSetters, setValue, Datum.withValue, List.cons_append, List.nil_append,
    readAll_cons_eq, readAll_nil_eq, map_eq_ok, Except.ok.injEq, exists_eq_left',
    exists_exists_and_eq_and] using h

/-- The assignments before that of `Value` neither read nor change it. -/
theorem leadingSetters_commute (v : Value R) :
    ∀ set ∈ leadingSetters, ∀ t (d : Datum R),
      set t (d.withValue v) = (set t d).map (Datum.withValue v) := by
  have hmap {α : Type} (x : Except VbError α) (f : α → Datum R → Datum R) (d : Datum R)
      (hf : ∀ a, f a (d.withValue v) = (f a d).withValue v) :
      x.map (fun a => f a (d.withValue v)) =
        (x.map fun a => f a d).map (Datum.withValue v) := by
    cases x with
    | error e => rfl
    | ok a => exact congrArg Except.ok (hf a)
  simp only [leadingSetters, List.forall_mem_cons, List.not_mem_nil, false_implies, implies_true,
    and_true]
  exact ⟨fun t d => hmap _ (fun n d => { d with action := n }) d fun _ => rfl,
    fun _ _ => rfl, fun _ _ => rfl, fun _ _ => rfl, fun _ _ => rfl, fun _ _ => rfl,
    fun _ _ => rfl, fun _ _ => rfl, fun _ _ => rfl,
    fun t d => hmap _ (fun n d => { d with date1 := n }) d fun _ => rfl,
    fun t d => hmap _ (fun n d => { d with date2 := n }) d fun _ => rfl,
    fun _ _ => rfl,
    fun t d => hmap _ (fun n d => { d with paramID := .plain (.int n) }) d fun _ => rfl,
    fun t d => hmap _ (fun n d => { d with tag := .plain (.int n) }) d fun _ => rfl⟩

theorem setValue_ok (t : VbString) (d : Datum R) : ∃ d', setValue t d = .ok d' := ⟨_, rfl⟩

/-- **A text that is not accepted leaves the old `Value`**, whatever it has assigned before. -/
theorem letPoolString_failed {s : VbString} {d : Datum R} (v : Value R)
    (h : (letPoolString s d).2 ≠ none) :
    letPoolString s (d.withValue v) =
      ((letPoolString s d).1.withValue v, (letPoolString s d).2) := by
  unfold letPoolString at h ⊢
  split_ifs at h ⊢ with hprefix
  · simp only [readAll_failed (leadingSetters_commute v) setValue_ok (by simpa using h)]
  · rfl

end Fdis

end Edps
