import Edps.Lib.Fields
import Edps.Vb.Variant

/-!
# Parameter records and their pool strings

A `cFDPTR` record travels between the components as a *pool string*: the class name and fifteen
fields, each behind a header with its length.  A length below 10 is one digit, a longer one is a
character for its hundreds (from `Chr(65)` on) and two digits.  There are no separators, so a
reader that loses one character loses the rest.

* `poolString`, `letPoolString` : `PoolString` written and read.
* `str2Date_format` : a date read back from its text.
* `getPartPoolStr_append` : a field read back from its place in a text.
* `pool_roundTrip` : a record assigned from the pool string of another becomes that record.
-/

namespace Edps

namespace Sis

open Vb Fields

/-- `THFDIS`, the data of a record.  `Date1` and `Date2` are dates, or the empty text that
`CValue` puts there. -/
structure Datum (R : Runtime) where
  paramID : Variant R
  dataType : VbString
  linkType : VbString
  dataSetName : VbString
  addr1 : VbString
  addr2 : VbString
  addr3 : VbString
  addr4 : VbString
  addr5 : VbString
  addr6 : VbString
  date1 : Option ℤ
  date2 : Option ℤ
  value : Variant R
  tag : Variant R
  action : ℤ
  someID : Variant R

variable (R : Runtime)

def SCLSNAME : VbString := vb "cFDPTR"

/-! ### Writing -/

/-- `GetPoolStr`: a text behind the header with its length. -/
def getPoolStr (s : VbString) : Except VbError VbString := do
  let nLen ← toInteger s.length
  if nLen < 10 then
    return cStr nLen ++ s
  let hundreds ← chr R (65 + nLen / 100)
  return hundreds ++ digitText 2 (nLen % 100) ++ s

/-- `Format(Date, SDATEFORMAT)` -/
def formatDate : Option ℤ → VbString
  | some d => format R.separators d
  | none => []

variable {R}

/-- The texts of the fifteen encoded fields. -/
def poolParts (d : Datum R) : List VbString :=
  [trim (str d.action), d.addr1, d.addr2, d.addr3, d.addr4, d.addr5, d.addr6, d.dataSetName,
    d.dataType, formatDate R d.date1, formatDate R d.date2, d.linkType, alwayString d.paramID,
    alwayString d.tag, alwayString d.value]

/-- `PoolString` Get -/
def poolString (d : Datum R) : Except VbError VbString := do
  let parts ← (poolParts d).mapM (getPoolStr R)
  return SCLSNAME ++ parts.flatten

/-! ### Reading -/

variable (R) in
/-- `GetPartPoolStr`: the field at `pos`, and the position after it.  Positions and lengths are
`Integer`s. -/
def getPartPoolStr (sPool : VbString) (pos : ℤ) : Except VbError (VbString × ℤ) := do
  let code ← asc R (← mid sPool pos 1)
  if code < 65 then
    let pos ← toInteger (pos + 1)
    let part ← mid sPool pos (code - 48)
    return (part, ← toInteger (pos + (code - 48)))
  else
    let iLen ← toInteger ((code - 65) * 100 + (← cInt R.numeric (← mid sPool (pos + 1) 2)))
    let pos ← toInteger (pos + 3)
    let part ← mid sPool pos iLen
    return (part, ← toInteger (pos + iLen))

variable (R) in
/-- `Str2Date` -/
def str2Date (strDate : VbString) : Except VbError ℤ := do
  let number (start len : ℤ) : Except VbError ℤ := do cInt R.numeric (← mid strDate start len)
  let dtLocal ← dateSerial (← number 7 4) (← number 1 2) (← number 4 2)
  let iD1 ← number 12 2
  let iD2 ← number 15 2
  let iD3 ← number 18 2
  let dtLocal ← dateAdd 3600 iD1 dtLocal
  let dtLocal ← dateAdd 60 iD2 dtLocal
  dateAdd 1 iD3 dtLocal

/-- The assignments of `PoolString` Let, each to its field of the record. -/
def poolSetters : List (VbString → Datum R → Except VbError (Datum R)) :=
  [fun t d => do return { d with action := ← cLng R.numeric t },
    fun t d => .ok { d with addr1 := t },
    fun t d => .ok { d with addr2 := t },
    fun t d => .ok { d with addr3 := t },
    fun t d => .ok { d with addr4 := t },
    fun t d => .ok { d with addr5 := t },
    fun t d => .ok { d with addr6 := t },
    fun t d => .ok { d with dataSetName := t },
    fun t d => .ok { d with dataType := t },
    fun t d => do return { d with date1 := some (← str2Date R t) },
    fun t d => do return { d with date2 := some (← str2Date R t) },
    fun t d => .ok { d with linkType := t },
    fun t d => do return { d with paramID := .int (← cLng R.numeric t) },
    fun t d => do return { d with tag := .int (← cLng R.numeric t) },
    fun t d => .ok { d with value := .str t }]

/-- `PoolString` Let: the record afterwards and the error raised, if any.  Every error is raised
again as error 0, which raises error 5. -/
def letPoolString (s : VbString) (d : Datum R) : Datum R × Option VbError :=
  if s.take SCLSNAME.length = SCLSNAME then
    let (d, err) := readAll (getPartPoolStr R s) poolSetters (1 + SCLSNAME.length) d
    (d, err.map fun _ => .invalidCall)
  else (d, some .invalidCall)

/-- A text that is accepted begins with the class name and has its fifteen fields. -/
theorem letPoolString_eq_ok {s : VbString} {d d' : Datum R} :
    letPoolString s d = (d', none) ↔ s.take SCLSNAME.length = SCLSNAME ∧
      readAll (getPartPoolStr R s) poolSetters (1 + SCLSNAME.length) d = (d', none) := by
  unfold letPoolString
  split_ifs with h
  · simp only [h, true_and, Prod.ext_iff, Option.map_eq_none_iff]
  · simp [h]

theorem letPoolString_err {s : VbString} {d d' : Datum R} {err : VbError}
    (h : letPoolString s d = (d', some err)) : err = .invalidCall := by
  unfold letPoolString at h
  split_ifs at h
  · obtain ⟨e, -, rfl⟩ := Option.map_eq_some_iff.1 (congrArg Prod.snd h)
    rfl
  · cases h
    rfl

/-! ### Dates -/

theorem mid_format (sep : Separators) (date : ℤ) :
    let s := format sep date
    mid s 1 2 = .ok (digitText 2 (civilOf date).month) ∧
      mid s 4 2 = .ok (digitText 2 (civilOf date).day) ∧
      mid s 7 4 = .ok (digitText 4 (civilOf date).year) ∧
      mid s 12 2 = .ok (digitText 2 (timeOf date / 3600)) ∧
      mid s 15 2 = .ok (digitText 2 (timeOf date / 60 % 60)) ∧
      mid s 18 2 = .ok (digitText 2 (timeOf date % 60)) := by
  intro s
  set m := digitText 2 (civilOf date).month with hm
  set d := digitText 2 (civilOf date).day with hd
  set y := digitText 4 (civilOf date).year with hy
  set h := digitText 2 (timeOf date / 3600) with hh
  set n := digitText 2 (timeOf date / 60 % 60) with hn
  set c := digitText 2 (timeOf date % 60) with hc
  have hs : s = m ++ [sep.date] ++ d ++ [sep.date] ++ y ++ [32] ++ h ++ [sep.time] ++ n ++
    [sep.time] ++ c := rfl
  have hlen : m.length = 2 ∧ d.length = 2 ∧ y.length = 4 ∧ h.length = 2 ∧ n.length = 2 ∧
      c.length = 2 := by simp [hm, hd, hy, hh, hn, hc]
  obtain ⟨hlm, hld, hly, hlh, hln, hlc⟩ := hlen
  have hdate : (m ++ [sep.date] ++ d ++ [sep.date] ++ y ++ [32]).length = 11 := by
    simp [hlm, hld, hly]
  -- each field with what stands before it
  refine ⟨mid_eq (a := []) (by rw [hs]; simp; rfl) (by simp) (by simp [hlm]),
    mid_eq (a := m ++ [sep.date]) (by rw [hs]; simp; rfl) (by simp [hlm]) (by simp [hld]),
    mid_eq (a := m ++ [sep.date] ++ d ++ [sep.date]) (by rw [hs]; simp; rfl)
      (by simp [hlm, hld]) (by simp [hly]),
    mid_eq (a := m ++ [sep.date] ++ d ++ [sep.date] ++ y ++ [32]) (by rw [hs]; simp; rfl)
      (by rw [hdate]; rfl) (by simp [hlh]),
    mid_eq (a := m ++ [sep.date] ++ d ++ [sep.date] ++ y ++ [32] ++ h ++ [sep.time])
      (by rw [hs]; simp; rfl) (by simp [hlm, hld, hly, hlh]) (by simp [hln]),
    mid_eq (a := m ++ [sep.date] ++ d ++ [sep.date] ++ y ++ [32] ++ h ++ [sep.time] ++ n ++
      [sep.time]) (c := []) (by rw [hs]; simp) (by simp [hlm, hld, hly, hlh, hln]) (by simp [hlc])⟩

/-- The years whose dates are written with four digits. -/
def FourDigitYear (date : ℤ) : Prop := 1000 ≤ (civilOf date).year ∧ (civilOf date).year ≤ 9999

/-- **A date read back.** -/
theorem str2Date_format {date : ℤ} (h : FourDigitYear date) :
    str2Date R (format R.separators date) = .ok date := by
  obtain ⟨hm, hd, hy, hh, hn, hs⟩ := mid_format R.separators date
  have hmonth : 1 ≤ (civilOf date).month ∧ (civilOf date).month ≤ 12 := Calendar.civil_month _
  have hday : 1 ≤ (civilOf date).day ∧ (civilOf date).day ≤ 31 := Calendar.civil_day _
  obtain ⟨hlow, hhigh⟩ := h
  have ht : 0 ≤ timeOf date ∧ timeOf date < 86400 := by unfold timeOf; omega
  have hyear : 100 ≤ (civilOf date).year := by omega
  have hserial := dateSerial_civilOf hyear hhigh
  have hadd {d' : ℤ} (hd' : dayOf d' = dayOf date) : checkDate d' = .ok d' :=
    checkDate_of_day hd' ⟨hyear, hhigh⟩
  have hnum {k : ℕ} {n : ℤ} (hk : 0 < k) (h₀ : 0 ≤ n) (h : n < 10 ^ k) (hmax : n ≤ 32767) :
      cInt R.numeric (digitText k n) = .ok n := cInt_digitText R.numeric hk h₀ h hmax
  simp only [str2Date, hm, hd, hy, hh, hn, hs, bind, Except.bind]
  rw [hnum (n := (civilOf date).year) (by omega) (by omega) (by omega) (by omega),
    hnum (n := (civilOf date).month) (by omega) (by omega) (by omega) (by omega),
    hnum (n := (civilOf date).day) (by omega) (by omega) (by omega) (by omega),
    hnum (n := timeOf date / 3600) (by omega) (by omega) (by omega) (by omega),
    hnum (n := timeOf date / 60 % 60) (by omega) (by omega) (by omega) (by omega),
    hnum (n := timeOf date % 60) (by omega) (by omega) (by omega) (by omega)]
  -- the hours and the minutes stay within the day
  simp only [hserial, dateAdd]
  rw [hadd (by unfold dayOf; unfold timeOf at ht ⊢; omega)]
  simp only
  rw [hadd (by unfold dayOf; unfold timeOf at ht ⊢; omega)]
  simp only
  have hsum : 86400 * dayOf date + 3600 * (timeOf date / 3600) + 60 * (timeOf date / 60 % 60) +
      1 * (timeOf date % 60) = date := by
    unfold dayOf timeOf
    omega
  rw [hsum, hadd rfl]

/-! ### One field -/

/-- The lengths a header can express, and a `Integer` position can count over. -/
def maxPartLen : ℕ := 19099

theorem cStr_digit {n : ℕ} (h : n < 10) : cStr n = [UInt16.ofNat (48 + n)] := by
  revert n
  decide

/-- The header of a part of length `n`. -/
def header (R : Runtime) (n : ℕ) : VbString :=
  if n < 10 then cStr n
  else R.chr ⟨(65 + n / 100) % 256, Nat.mod_lt _ (by decide)⟩ :: digitText 2 (n % 100)

theorem getPoolStr_eq {s : VbString} (h : s.length ≤ maxPartLen) :
    getPoolStr R s = .ok (header R s.length ++ s) := by
  unfold maxPartLen at h
  have hint : toInteger (s.length : ℤ) = .ok (s.length : ℤ) := by
    rw [toInteger, if_pos (by omega)]
  simp only [getPoolStr, hint, header, bind, Except.bind]
  split_ifs with h₁ h₂ h₂
  · rfl
  · omega
  · omega
  · have hrange : 0 ≤ 65 + (s.length : ℤ) / 100 ∧ 65 + (s.length : ℤ) / 100 < 256 := by omega
    have hcode : (65 + (s.length : ℤ) / 100).toNat = (65 + s.length / 100) % 256 := by omega
    simp only [chr, dif_pos hrange, hcode]
    rfl

/-- A text behind a header is at most as long as a header can count. -/
theorem length_le_of_getPoolStr {s t : VbString} (h : getPoolStr R s = .ok t) :
    s.length ≤ maxPartLen := by
  unfold maxPartLen
  by_contra hlong
  cases hn : toInteger (s.length : ℤ) with
  | error e => simp [getPoolStr, hn, bind, Except.bind] at h
  | ok n =>
    obtain rfl := toInteger_ok hn
    -- the hundreds would need a code beyond 255
    have hchr : chr R (65 + (s.length : ℤ) / 100) = .error .invalidCall := by
      rw [chr, dif_neg (by omega)]
    simp only [getPoolStr, hn, bind, Except.bind] at h
    rw [if_neg (by omega)] at h
    simp [hchr] at h

theorem length_header (n : ℕ) : (header R n).length = if n < 10 then 1 else 3 := by
  unfold header
  split_ifs with h
  · rw [cStr_digit h, List.length_singleton]
  · simp

/-- The field at its place in a text: read whole, if the positions stay `Integer`s. -/
theorem getPartPoolStr_eq {pre s : VbString} (post : VbString) {pos : ℤ}
    (h : s.length ≤ maxPartLen) (hpos : pos = pre.length + 1) :
    getPartPoolStr R (pre ++ (header R s.length ++ s ++ post)) pos = (do
      let pos ← toInteger (pos + (header R s.length).length)
      return (s, ← toInteger (pos + s.length))) := by
  unfold maxPartLen at h
  rw [length_header]
  unfold header
  split_ifs with hn
  · -- one digit
    rw [cStr_digit hn]
    set c := UInt16.ofNat (48 + s.length) with hc
    have hcode : asc R [c] = .ok ((48 + s.length : ℕ) : ℤ) := asc_ascii (by omega) []
    have hfirst : mid (pre ++ ([c] ++ s ++ post)) pos 1 = .ok [c] :=
      mid_eq (a := pre) (c := s ++ post) (by simp) hpos rfl
    have hpart : mid (pre ++ ([c] ++ s ++ post)) (pos + 1) s.length = .ok s :=
      mid_eq (a := pre ++ [c]) (c := post) (by simp) (by simp [hpos]) rfl
    have hlen : ((48 + s.length : ℕ) : ℤ) - 48 = s.length := by omega
    simp only [getPartPoolStr, hfirst, hcode, hlen, bind, Except.bind]
    rw [if_pos (by omega), Nat.cast_one]
    cases hnext : toInteger (pos + 1) with
    | error e => rfl
    | ok pos' =>
      obtain rfl := toInteger_ok hnext
      simp only [hpart]
  · -- a character for the hundreds and two digits
    set k : Fin 256 := ⟨(65 + s.length / 100) % 256, Nat.mod_lt _ (by decide)⟩ with hk
    have hkval : ((k.val : ℕ) : ℤ) = 65 + (s.length : ℤ) / 100 := by simp only [hk]; omega
    set c := R.chr k with hc
    set ds := digitText 2 (s.length % 100) with hds
    have hdslen : ds.length = 2 := by simp [hds]
    have hcode : asc R [c] = .ok ((k.val : ℕ) : ℤ) := by rw [asc, hc, R.asc_chr]
    have hfirst : mid (pre ++ (c :: ds ++ s ++ post)) pos 1 = .ok [c] :=
      mid_eq (a := pre) (c := ds ++ s ++ post) (by simp) hpos rfl
    have hdigits : mid (pre ++ (c :: ds ++ s ++ post)) (pos + 1) 2 = .ok ds :=
      mid_eq (a := pre ++ [c]) (c := s ++ post) (by simp) (by simp [hpos]) (by simp [hdslen])
    have hnum : cInt R.numeric ds = .ok ((s.length : ℤ) % 100) := by
      have := cInt_digitText R.numeric (k := 2) (n := (s.length : ℤ) % 100) (by omega) (by omega)
        (by omega) (by omega)
      rwa [hds]
    have hiLen : (((k.val : ℕ) : ℤ) - 65) * 100 + (s.length : ℤ) % 100 = s.length := by omega
    have hint : toInteger (s.length : ℤ) = .ok (s.length : ℤ) := by
      rw [toInteger, if_pos (by omega)]
    have hpart : mid (pre ++ (c :: ds ++ s ++ post)) (pos + 3) s.length = .ok s :=
      mid_eq (a := pre ++ (c :: ds)) (c := post) (by simp) (by simp [hpos, hdslen]; omega) rfl
    simp only [getPartPoolStr, hfirst, hcode, hdigits, hnum, hiLen, hint, bind, Except.bind]
    rw [if_neg (by omega), Nat.cast_ofNat]
    cases hnext : toInteger (pos + 3) with
    | error e => rfl
    | ok pos' =>
      obtain rfl := toInteger_ok hnext
      simp only [hpart]

/-- **One field read back**: from its place in a text, as long as the position after it is an
`Integer`. -/
theorem getPartPoolStr_append {pre s : VbString} (post : VbString) {pos : ℤ}
    (h : s.length ≤ maxPartLen) (hpos : pos = pre.length + 1)
    (hend : pos + (header R s.length).length + s.length ≤ 32767) :
    getPartPoolStr R (pre ++ (header R s.length ++ s ++ post)) pos =
      .ok (s, pos + (header R s.length).length + s.length) := by
  have hint {n : ℤ} (h₀ : 0 ≤ n) (h₁ : n ≤ 32767) : toInteger n = .ok n := by
    rw [toInteger, if_pos (by omega)]
  rw [getPartPoolStr_eq post h hpos]
  simp only [hint (n := pos + (header R s.length).length) (by omega) (by omega),
    hint (n := pos + (header R s.length).length + s.length) (by omega) hend, bind, Except.bind]
  rfl

/-- A field that ends behind the last `Integer` position is an error. -/
theorem getPartPoolStr_overflow {pre s : VbString} (post : VbString) {pos : ℤ}
    (h : s.length ≤ maxPartLen) (hpos : pos = pre.length + 1)
    (hend : 32767 < pos + (header R s.length).length + s.length) :
    ∃ e, getPartPoolStr R (pre ++ (header R s.length ++ s ++ post)) pos = .error e := by
  rw [getPartPoolStr_eq post h hpos]
  cases hnext : toInteger (pos + (header R s.length).length) with
  | error e => exact ⟨e, rfl⟩
  | ok pos' =>
    have hover : toInteger (pos' + s.length) = .error .overflow := by
      rw [toInteger_ok hnext, toInteger, if_neg (by omega)]
    simp only [hover, bind, Except.bind]
    exact ⟨_, rfl⟩

/-! ### All fields -/

/-- The parts one after the other, each behind its header. -/
def encoded (R : Runtime) (parts : List VbString) : VbString :=
  (parts.map fun t => header R t.length ++ t).flatten

theorem mapM_getPoolStr {parts : List VbString} (h : ∀ t ∈ parts, t.length ≤ maxPartLen) :
    parts.mapM (getPoolStr R) = .ok (parts.map fun t => header R t.length ++ t) := by
  induction parts with
  | nil => rfl
  | cons t parts ih =>
    obtain ⟨ht, hparts⟩ := List.forall_mem_cons.1 h
    rw [List.mapM_cons, getPoolStr_eq ht, ih hparts]
    rfl

theorem length_le_of_mapM_getPoolStr {parts ts : List VbString}
    (h : parts.mapM (getPoolStr R) = .ok ts) : ∀ t ∈ parts, t.length ≤ maxPartLen := by
  induction parts generalizing ts with
  | nil => simp
  | cons t parts ih =>
    rw [List.mapM_cons] at h
    cases ht : getPoolStr R t with
    | error e => simp [ht, bind, Except.bind] at h
    | ok a =>
      cases hparts : parts.mapM (getPoolStr R) with
      | error e => simp [ht, hparts, bind, Except.bind] at h
      | ok as => exact List.forall_mem_cons.2 ⟨length_le_of_getPoolStr ht, ih hparts⟩

/-- Fields that end within the `Integer` positions stand where they were written. -/
theorem reads_encoded {parts : List VbString} {pre : VbString} {pos : ℤ}
    (hparts : ∀ t ∈ parts, t.length ≤ maxPartLen) (hpos : pos = pre.length + 1)
    (hend : pos + (encoded R parts).length ≤ 32767) :
    Reads (getPartPoolStr R (pre ++ encoded R parts)) pos parts
      (pos + (encoded R parts).length) := by
  induction parts generalizing pre pos with
  | nil => simp [Reads, encoded]
  | cons t parts ih =>
    obtain ⟨ht, hts⟩ := List.forall_mem_cons.1 hparts
    have henc : encoded R (t :: parts) = header R t.length ++ t ++ encoded R parts := rfl
    have happ : pre ++ (header R t.length ++ t ++ encoded R parts) =
        (pre ++ (header R t.length ++ t)) ++ encoded R parts := by
      simp only [List.append_assoc]
    rw [henc, List.length_append, List.length_append] at hend ⊢
    push_cast at hend
    refine ⟨_, getPartPoolStr_append (R := R) (encoded R parts) ht hpos (by omega), ?_⟩
    -- the fields read so far join what stands before the rest
    have hnext : pos + (header R t.length).length + t.length =
        (pre ++ (header R t.length ++ t)).length + 1 := by
      rw [hpos, List.length_append, List.length_append]
      push_cast
      ring
    have hrest := ih hts hnext (by omega)
    have hstop :
        pos + (((header R t.length).length + t.length + (encoded R parts).length : ℕ) : ℤ) =
          pos + (header R t.length).length + t.length + (encoded R parts).length := by
      push_cast
      ring
    rw [happ, hstop]
    exact hrest

/-- As many fields as were written are those, and they end within the `Integer` positions. -/
theorem eq_of_reads_encoded {parts ts : List VbString} {pre : VbString} {pos stop : ℤ}
    (hparts : ∀ t ∈ parts, t.length ≤ maxPartLen) (hpos : pos = pre.length + 1)
    (hint : pos ≤ 32767) (hlen : ts.length = parts.length)
    (h : Reads (getPartPoolStr R (pre ++ encoded R parts)) pos ts stop) :
    ts = parts ∧ pos + (encoded R parts).length ≤ 32767 := by
  induction parts generalizing pre pos ts with
  | nil => exact ⟨List.length_eq_zero_iff.1 hlen, by simpa [encoded] using hint⟩
  | cons t parts ih =>
    obtain ⟨ht, hts⟩ := List.forall_mem_cons.1 hparts
    have henc : encoded R (t :: parts) = header R t.length ++ t ++ encoded R parts := rfl
    have happ : pre ++ (header R t.length ++ t ++ encoded R parts) =
        (pre ++ (header R t.length ++ t)) ++ encoded R parts := by
      simp only [List.append_assoc]
    cases ts with
    | nil => cases hlen
    | cons t' ts =>
      obtain ⟨pos', hread, hreads⟩ := h
      by_cases hend : pos + (header R t.length).length + t.length ≤ 32767
      · rw [henc, getPartPoolStr_append (encoded R parts) ht hpos hend, Except.ok.injEq,
          Prod.mk.injEq] at hread
        obtain ⟨rfl, rfl⟩ := hread
        rw [henc, happ] at hreads
        have hnext : pos + (header R t.length).length + t.length =
            (pre ++ (header R t.length ++ t)).length + 1 := by
          rw [hpos, List.length_append, List.length_append]
          push_cast
          ring
        obtain ⟨rfl, hstop⟩ := ih hts hnext hend (by simpa using hlen) hreads
        refine ⟨rfl, ?_⟩
        rw [henc, List.length_append, List.length_append]
        push_cast
        omega
      · -- this is the field that ends too late
        obtain ⟨e, he⟩ := getPartPoolStr_overflow (R := R) (encoded R parts) ht hpos (by omega)
        rw [henc, he] at hread
        cases hread

/-- The records whose pool string is meant to be read back: 32-bit numbers, texts that a header
can count, dates of years with four digits. -/
structure Datum.Encodable (d : Datum R) : Prop where
  action : -2147483648 ≤ d.action ∧ d.action ≤ 2147483647
  texts : ∀ t ∈ [d.addr1, d.addr2, d.addr3, d.addr4, d.addr5, d.addr6, d.dataSetName, d.dataType,
    d.linkType], t.length ≤ maxPartLen
  date1 : ∃ t, d.date1 = some t ∧ FourDigitYear t
  date2 : ∃ t, d.date2 = some t ∧ FourDigitYear t
  paramID : ∃ n, d.paramID = .int n ∧ -2147483648 ≤ n ∧ n ≤ 2147483647
  tag : ∃ n, d.tag = .int n ∧ -2147483648 ≤ n ∧ n ≤ 2147483647
  value : ∃ s : VbString, d.value = .str s ∧ s.length ≤ maxPartLen

theorem Datum.Encodable.setValue {d : Datum R} (h : d.Encodable) {t : VbString}
    (ht : t.length ≤ maxPartLen) : ({ d with value := .str t } : Datum R).Encodable where
  action := h.action
  texts := h.texts
  date1 := h.date1
  date2 := h.date2
  paramID := h.paramID
  tag := h.tag
  value := ⟨t, rfl, ht⟩

theorem length_format (sep : Separators) (date : ℤ) : (format sep date).length = 19 := by
  simp [format]

theorem length_poolParts {d : Datum R} (h : d.Encodable) :
    ∀ t ∈ poolParts d, t.length ≤ maxPartLen := by
  obtain ⟨hact, htexts, ⟨t₁, h₁, -⟩, ⟨t₂, h₂, -⟩, ⟨p, hp, hpr⟩, ⟨g, hg, hgr⟩, ⟨v, hv, hvl⟩⟩ := h
  have hlong {n : ℤ} (hn : -2147483648 ≤ n ∧ n ≤ 2147483647) : (cStr n).length ≤ maxPartLen :=
    (length_cStr_long hn).trans (by decide)
  have hdate (t : ℤ) : (format R.separators t).length ≤ maxPartLen := by
    rw [length_format]; decide
  simp only [List.forall_mem_cons, List.not_mem_nil, false_implies, implies_true, and_true]
    at htexts
  obtain ⟨a1, a2, a3, a4, a5, a6, a7, a8, a9⟩ := htexts
  simp only [poolParts, List.forall_mem_cons, List.not_mem_nil, false_implies, implies_true,
    and_true, h₁, h₂, hp, hg, hv, formatDate, alwayString_int, alwayString_str, trim_str]
  exact ⟨hlong hact, a1, a2, a3, a4, a5, a6, a7, a8, hdate _, hdate _, a9, hlong hpr, hlong hgr,
    hvl⟩

/-- The texts of a record assigned to another one. -/
theorem assignAll_poolParts {d : Datum R} (h : d.Encodable) (e : Datum R) :
    assignAll poolSetters (poolParts d) e = .ok { d with someID := e.someID } := by
  obtain ⟨hact, -, ⟨t₁, h₁, hy₁⟩, ⟨t₂, h₂, hy₂⟩, ⟨p, hp, hpr⟩, ⟨g, hg, hgr⟩, ⟨v, hv, -⟩⟩ := h
  have hd₁ := str2Date_format (R := R) hy₁
  have hd₂ := str2Date_format (R := R) hy₂
  simp only [poolSetters, poolParts, assignAll, trim_str, cLng_cStr R.numeric hact, h₁, h₂,
    formatDate, hd₁, hd₂, hp, hg, hv, alwayString_int, alwayString_str, cLng_cStr R.numeric hpr,
    cLng_cStr R.numeric hgr, bind, Except.bind, pure, Except.pure]

/-- The pool string of a record. -/
theorem poolString_eq {d : Datum R} (h : d.Encodable) :
    poolString d = .ok (SCLSNAME ++ encoded R (poolParts d)) := by
  rw [poolString, mapM_getPoolStr (length_poolParts h)]
  rfl

/-- A record assigned from the pool string of another one. -/
theorem letPoolString_poolString {d : Datum R} (h : d.Encodable) {s : VbString}
    (hs : poolString d = .ok s) (hlen : s.length < 32767) (e : Datum R) :
    letPoolString s e = ({ d with someID := e.someID }, none) := by
  rw [poolString_eq h, Except.ok.injEq] at hs
  subst hs
  rw [List.length_append] at hlen
  refine letPoolString_eq_ok.2 ⟨by simp, readAll_eq_iff.2
    ⟨poolParts d, _, rfl, reads_encoded (length_poolParts h) (by rw [add_comm]) ?_,
      assignAll_poolParts h e⟩⟩
  omega

/-- **Round trip of the pool string.**  A record has one, and when it is shorter than 32767
characters, any other record assigned from it raises no error and becomes that record, except
for its `SomeID`. -/
theorem pool_roundTrip {d : Datum R} (h : d.Encodable) :
    ∃ s, poolString d = .ok s ∧ (s.length < 32767 →
      ∀ e : Datum R, letPoolString s e = ({ d with someID := e.someID }, none)) := by
  have hs := poolString_eq h
  exact ⟨_, hs, letPoolString_poolString h hs⟩

/-- **A pool string too long to be read.**  The positions in it are `Integer`s. -/
theorem letPoolString_too_long {d : Datum R} (h : d.Encodable) {s : VbString}
    (hs : poolString d = .ok s) (hlen : 32767 ≤ s.length) (e : Datum R) :
    ∃ e', letPoolString s e = (e', some .invalidCall) := by
  rw [poolString_eq h, Except.ok.injEq] at hs
  subst hs
  rw [List.length_append] at hlen
  rcases hread : letPoolString (SCLSNAME ++ encoded R (poolParts d)) e with ⟨e', _ | err⟩
  · obtain ⟨ts, stop, htslen, hreads, -⟩ := readAll_eq_iff.1 (letPoolString_eq_ok.1 hread).2
    have hstop := (eq_of_reads_encoded (length_poolParts h) (by rw [add_comm]) (by decide) htslen
      hreads).2
    omega
  · exact ⟨e', by rw [letPoolString_err hread]⟩

/-- A record with a text of each kind: digits, the class name, an item address. -/
def exampleDatum : Datum plainRuntime where
  paramID := .int 17
  dataType := vb "float"
  linkType := vb "SAP"
  dataSetName := vb "cFDPTR12"
  addr1 := vb "S7_L2"
  addr2 := vb "CONN1"
  addr3 := vb "DB10,REAL4,1"
  addr4 := vb "FLOAT"
  addr5 := []
  addr6 := vb "123"
  date1 := some 3313267200
  date2 := some 3313353599
  value := .str (vb "-0.5")
  tag := .int 17
  action := 0
  someID := .int 0

theorem encodable_exampleDatum : exampleDatum.Encodable where
  action := by decide
  texts := by decide
  date1 := ⟨_, rfl, by unfold FourDigitYear; decide⟩
  date2 := ⟨_, rfl, by unfold FourDigitYear; decide⟩
  paramID := ⟨17, rfl, by decide⟩
  tag := ⟨17, rfl, by decide⟩
  value := ⟨_, rfl, by decide⟩

theorem pool_roundTrip_exampleDatum :
    ∃ s, poolString exampleDatum = .ok s ∧ s.length < 32767 ∧
      ∀ e, letPoolString s e = ({ exampleDatum with someID := e.someID }, none) := by
  obtain ⟨s, hs, h⟩ := pool_roundTrip encodable_exampleDatum
  have hlen : (poolString exampleDatum).toOption.all (fun t => t.length < 32767) = true := by
    decide +kernel
  rw [hs] at hlen
  have hlt : s.length < 32767 := by simpa [Except.toOption] using hlen
  exact ⟨s, hs, hlt, h hlt⟩

end Sis

end Edps
