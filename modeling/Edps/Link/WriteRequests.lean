import Edps.Link.Ansi
import Edps.OpcS7.Buffer

/-!
# Write requests from SIS to OpcS7

`CombineToWrite` makes the text of a multiple write and `ParseRequest` reads it, with the values
typed.  The text passes from Visual Basic to C through the ANSI code page.

* `TypedWrite` : a member of a multiple write, with a value of its type.
* `WriteValue.Typed` : what the VARIANT of the parameter must hold.
* `parse_combineToWrite_iff` : the request is parsed as it was meant exactly when the array has
  `Integer` bounds, and for every `STRING*k` an array of `k` bytes can be made and `k` bytes lie
  inside the buffer of the request.
-/

namespace Edps

namespace Link

open Vb OpcS7 Sis

variable {R : Runtime}

/-! ### Typed values -/

/-- `iVal` -/
def iVal (v : OpcS7.Variant) : ℤ := v.low.toUInt16.toInt16.toInt

/-- `bVal` -/
def bVal (v : OpcS7.Variant) : ℕ := v.low.toUInt8.toNat

theorem low_ofLong (vt : VarType) (n : ℤ) : (ofLong vt n).low.toNat = (n % 2 ^ 32).toNat := by
  have hlt : (n % 2 ^ 32).toNat < 2 ^ 32 := by omega
  exact UInt32.toNat_ofNat_of_lt' hlt

theorem lVal_ofLong (vt : VarType) {n : ℤ} (h : -2147483648 ≤ n ∧ n < 2147483648) :
    (ofLong vt n).lVal = n := by
  have hbits : (ofLong vt n).lVal = ((ofLong vt n).low.toNat : ℤ).bmod (2 ^ 32) :=
    BitVec.toInt_eq_toNat_bmod _
  rw [hbits, low_ofLong, Int.bmod_def]
  omega

/-- The lower half of a number is the number, if it fits. -/
theorem iVal_ofLong (vt : VarType) {n : ℤ} (h : -32768 ≤ n ∧ n < 32768) :
    iVal (ofLong vt n) = n := by
  have hbits : iVal (ofLong vt n) = ((ofLong vt n).low.toUInt16.toNat : ℤ).bmod (2 ^ 16) :=
    BitVec.toInt_eq_toNat_bmod _
  rw [hbits, UInt32.toNat_toUInt16, low_ofLong, Int.bmod_def]
  omega

theorem bVal_ofLong (vt : VarType) {n : ℕ} (h : n < 256) : bVal (ofLong vt n) = n := by
  rw [bVal, UInt32.toNat_toUInt8, low_ofLong]
  omega

/-- The characters of a number are no zeros. -/
theorem noNul_ofCodes {cs : List ℕ} (h : ∀ c ∈ cs, c = 45 ∨ Decimal.isDigit c = true) :
    ∀ c ∈ OpcS7.ofCodes cs, c ≠ 0 := by
  intro c hc
  obtain ⟨k, hk, rfl⟩ := List.mem_map.1 hc
  have hrange : 0 < k ∧ k < 256 := by
    rcases h k hk with rfl | hdigit
    · decide
    · simp only [Decimal.isDigit, Bool.and_eq_true, decide_eq_true_eq] at hdigit
      omega
  intro hzero
  have htoNat := congrArg UInt8.toNat hzero
  rw [UInt8.toNat_ofNat', Nat.mod_eq_of_lt (by omega)] at htoNat
  exact hrange.1.ne' htoNat

theorem noNul_intText (n : ℤ) : ∀ c ∈ OpcS7.ofCodes (Decimal.intText n), c ≠ 0 :=
  noNul_ofCodes fun _ => Decimal.code_of_mem_intText

theorem short_intText (n : ℤ) (h : n.natAbs < 10000000000) :
    (OpcS7.ofCodes (Decimal.intText n)).length < 1000 := by
  have := Decimal.length_intText_le (by decide : 0 < 10) h
  rw [OpcS7.ofCodes, List.length_map]
  omega

/-- A number fits a field. -/
def numberField (n : ℤ) (h : n.natAbs < 10000000000) : Field where
  text := OpcS7.ofCodes (Decimal.intText n)
  noNul := noNul_intText n
  short := short_intText n h

/-- `STRING*k` -/
def stringField (k : ℕ) (h : (Decimal.natText k).length < 993) : Field where
  text := ascii "STRING*" ++ OpcS7.ofCodes (Decimal.natText k)
  noNul := by
    simp only [List.forall_mem_append]
    exact ⟨by decide +kernel, noNul_ofCodes fun _ hc => .inr (Decimal.isDigit_of_mem_natText hc)⟩
  short := by
    have hname : (ascii "STRING*").length = 7 := by decide +kernel
    rw [List.length_append, hname, OpcS7.ofCodes, List.length_map]
    omega

theorem take_stringField (k : ℕ) (h : (Decimal.natText k).length < 993) :
    (stringField k h).text.take 7 = ascii "STRING*" := by
  have hname : (ascii "STRING*").length = 7 := by decide +kernel
  rw [stringField, ← hname, List.take_left]

theorem cElements_stringField (k : ℕ) (h : (Decimal.natText k).length < 993) :
    cElements (stringField k h).text = k % 4294967296 := by
  have hname : (ascii "STRING*").length = 7 := by decide +kernel
  rw [cElements, stringField, ← hname, List.drop_left, atol_natText, toULong, OpcS7.toLong,
    Int.bmod_def]
  omega

/-- A value for a member, by the type of the member. -/
inductive WriteValue where
  | bit (b : Bool)
  | long (n : ℤ) (range : -2147483648 ≤ n ∧ n < 2147483648)
  | integer (n : ℤ) (range : -32768 ≤ n ∧ n < 32768)
  | byte (n : ℕ) (range : n < 256)
  | char (n : ℕ) (range : n < 256)
  | string (k : ℕ) (pos : 0 < k) (short : (Decimal.natText k).length < 993) (value : Field)

/-- The text of the type. -/
def WriteValue.type : WriteValue → Field
  | .bit _ => ⟨ascii "BIT", by decide +kernel, by decide +kernel⟩
  | .long _ _ => ⟨ascii "LONG", by decide +kernel, by decide +kernel⟩
  | .integer _ _ => ⟨ascii "INTEGER", by decide +kernel, by decide +kernel⟩
  | .byte _ _ => ⟨ascii "BYTE", by decide +kernel, by decide +kernel⟩
  | .char _ _ => ⟨ascii "CHAR", by decide +kernel, by decide +kernel⟩
  | .string k _ short _ => stringField k short

/-- The text of the value. -/
def WriteValue.text : WriteValue → Field
  | .bit b => numberField (if b then 1 else 0) (by cases b <;> decide)
  | .long n range => numberField n (by omega)
  | .integer n range => numberField n (by omega)
  | .byte n range => numberField n (by omega)
  | .char n range => numberField n (by omega)
  | .string _ _ _ value => value

/-- What the VARIANT of a value holds: its type, and the number in the member of that type, or
the `k` bytes of a string. -/
def WriteValue.Typed : WriteValue → OpcS7.Variant → Prop
  | .bit b, var => var.vt = VT_BOOL ∧ (var.boolVal ≠ 0 ↔ b = true)
  | .long n _, var => var.vt = VT_I4 ∧ var.lVal = n
  | .integer n _, var => var.vt = VT_I2 ∧ iVal var = n
  | .byte n _, var => var.vt = VT_UI1 ∧ bVal var = n
  | .char n _, var => var.vt = VT_UI1 ∧ bVal var = n
  | .string k _ _ value, var => var.vt = VT_ARRAY + VT_UI1 ∧ ∃ a, var.parray = some a ∧
      a.elements = value.text.take k ++ List.replicate (k - value.text.length) 0

/-- The length of a string is a `ULONG`, and an array of it can be made. -/
def WriteValue.Created (crt : Crt) : WriteValue → Prop
  | .string k _ _ _ => k < 4294967296 ∧ crt.safeArrayCreate k = true
  | _ => True

/-! ### Typing -/

theorem typedValue_bit (crt : Crt) (b : Bool) :
    (typedValue crt (ascii "BIT") (OpcS7.ofCodes (Decimal.intText (if b then 1 else 0)))).1 =
      ofLong VT_BOOL (if b then 1 else 0) := by
  rw [typedValue, if_pos rfl, atol_intText]
  cases b <;> rfl

theorem typedValue_long (crt : Crt) (szData : Bytes) :
    (typedValue crt (ascii "LONG") szData).1 = ofLong VT_I4 (atol szData) := by
  rw [typedValue, if_neg (by decide +kernel), if_neg (by decide +kernel), if_pos rfl]

theorem typedValue_integer (crt : Crt) (szData : Bytes) :
    (typedValue crt (ascii "INTEGER") szData).1 = ofLong VT_I2 (atol szData) := by
  rw [typedValue, if_neg (by decide +kernel), if_neg (by decide +kernel),
    if_neg (by decide +kernel), if_pos rfl]

theorem typedValue_byte (crt : Crt) {szType : Bytes}
    (h : szType = ascii "BYTE" ∨ szType = ascii "CHAR") (szData : Bytes) :
    (typedValue crt szType szData).1 = ofLong VT_UI1 (atol szData) := by
  have hne : szType ≠ ascii "BIT" ∧ szType ≠ ascii "FLOAT" ∧ szType ≠ ascii "LONG" ∧
      szType ≠ ascii "INTEGER" := by
    rcases h with rfl | rfl <;> decide +kernel
  rw [typedValue, if_neg hne.1, if_neg hne.2.1, if_neg hne.2.2.1, if_neg hne.2.2.2, if_pos h]

@[simp] theorem length_firstBytes (k : ℕ) (s : Bytes) : (firstBytes k s).length = k := by
  simp [firstBytes]

theorem firstBytes_eq (k : ℕ) (s : Bytes) :
    firstBytes k s = s.take k ++ List.replicate (k - s.length) 0 := by
  refine List.ext_getElem (by simp [firstBytes]; omega) fun i hi _ => ?_
  have hik : i < k := by simpa [firstBytes] using hi
  simp only [firstBytes, List.getElem_map, List.getElem_range, List.getElem_append,
    List.length_take, List.getElem_take, List.getElem_replicate]
  split_ifs with h
  · have hi : i < s.length := by omega
    simp [List.getD, hi]
  · have hi : s.length ≤ i := by omega
    simp [List.getD, hi]

/-- **The typed values** are those meant, as long as the arrays of the strings can be made. -/
theorem typed_iff (crt : Crt) (v : WriteValue) :
    v.Typed (typedValue crt v.type.text v.text.text).1 ↔ v.Created crt := by
  cases v with
  | bit b =>
    refine iff_of_true ?_ trivial
    show WriteValue.Typed (.bit b) (typedValue crt (ascii "BIT")
      (OpcS7.ofCodes (Decimal.intText (if b then 1 else 0)))).1
    rw [typedValue_bit]
    cases b <;> exact ⟨rfl, by decide⟩
  | long n range =>
    refine iff_of_true ?_ trivial
    show WriteValue.Typed (.long n range) (typedValue crt (ascii "LONG")
      (OpcS7.ofCodes (Decimal.intText n))).1
    rw [typedValue_long, atol_intText, toLong_eq range.1 range.2]
    exact ⟨rfl, lVal_ofLong _ range⟩
  | integer n range =>
    refine iff_of_true ?_ trivial
    show WriteValue.Typed (.integer n range) (typedValue crt (ascii "INTEGER")
      (OpcS7.ofCodes (Decimal.intText n))).1
    rw [typedValue_integer, atol_intText, toLong_eq (by omega) (by omega)]
    exact ⟨rfl, iVal_ofLong _ range⟩
  | byte n range =>
    refine iff_of_true ?_ trivial
    show WriteValue.Typed (.byte n range) (typedValue crt (ascii "BYTE")
      (OpcS7.ofCodes (Decimal.intText n))).1
    rw [typedValue_byte crt (.inl rfl), atol_intText, toLong_eq (by omega) (by omega)]
    exact ⟨rfl, bVal_ofLong _ range⟩
  | char n range =>
    refine iff_of_true ?_ trivial
    show WriteValue.Typed (.char n range) (typedValue crt (ascii "CHAR")
      (OpcS7.ofCodes (Decimal.intText n))).1
    rw [typedValue_byte crt (.inr rfl), atol_intText, toLong_eq (by omega) (by omega)]
    exact ⟨rfl, bVal_ofLong _ range⟩
  | string k pos short value =>
    show WriteValue.Typed (.string k pos short value)
      (typedValue crt (stringField k short).text value.text).1 ↔
        k < 4294967296 ∧ crt.safeArrayCreate k = true
    rw [typedValue_string (take_stringField k short), cElements_stringField]
    constructor
    · intro htyped
      by_cases hcreate : crt.safeArrayCreate (k % 4294967296) = true
      · rw [if_pos hcreate] at htyped
        obtain ⟨-, a, ha, helements⟩ := htyped
        cases ha
        rw [← firstBytes_eq] at helements
        have hlen : k % 4294967296 = k := by simpa using congrArg List.length helements
        exact ⟨by omega, hlen ▸ hcreate⟩
      · rw [if_neg hcreate] at htyped
        obtain ⟨hvt, -⟩ := htyped
        have hne : OpcS7.Variant.empty.vt ≠ VT_ARRAY + VT_UI1 := by decide
        exact absurd hvt hne
    · rintro ⟨hk, hcreate⟩
      rw [Nat.mod_eq_of_lt hk, if_pos hcreate]
      exact ⟨rfl, _, rfl, by rw [firstBytes_eq]⟩

/-! ### The request -/

/-- A member of a multiple write. -/
structure TypedWrite where
  cp : Field
  conn : Field
  item : Field
  value : WriteValue
  length : Field

/-- The member as the library sees it. -/
def TypedWrite.record (w : TypedWrite) : WriteRecord :=
  ⟨w.cp, w.conn, w.item, w.value.type, w.value.text, w.length⟩

/-- The member in the array of `CombineToWrite`. -/
def TypedWrite.toWrite (R : Runtime) (w : TypedWrite) : ToWrite :=
  ⟨ofAnsi R w.cp.text, ofAnsi R w.conn.text, ofAnsi R w.item.text, ofAnsi R w.value.type.text,
    ofAnsi R w.value.text.text, ofAnsi R w.length.text⟩

theorem combineToWrite_ok {lBound : ℤ} {oSour : List ToWrite} (hne : oSour ≠ [])
    {text : VbString} :
    combineToWrite lBound oSour = .ok text ↔
      (-32768 ≤ lBound ∧ lBound + oSour.length ≤ 32767) ∧
        oSour.flatMap ToWrite.framed = text := by
  have hpos : 0 < oSour.length := List.length_pos_iff.2 hne
  rw [combineToWrite, if_neg hne]
  by_cases hlow : -32768 ≤ lBound ∧ lBound ≤ 32767
  · by_cases hhigh : -32768 ≤ lBound + oSour.length ∧ lBound + oSour.length ≤ 32767
    · rw [toInteger, if_pos hlow, toInteger, if_pos hhigh]
      constructor
      · intro h
        cases h
        exact ⟨⟨hlow.1, hhigh.2⟩, rfl⟩
      · rintro ⟨-, rfl⟩
        rfl
    · rw [toInteger, if_pos hlow, toInteger, if_neg hhigh]
      constructor
      · intro h
        cases h
      · rintro ⟨⟨h₁, h₂⟩, -⟩
        exact absurd ⟨by omega, h₂⟩ hhigh
  · rw [toInteger, if_neg hlow]
    constructor
    · intro h
      cases h
    · rintro ⟨⟨h₁, h₂⟩, -⟩
      exact absurd ⟨h₁, by omega⟩ hlow

/-- The request passed to the library. -/
theorem toAnsi_request (ws : List TypedWrite) :
    toAnsi R ((ws.map (TypedWrite.toWrite R)).flatMap ToWrite.framed) =
      (ws.map TypedWrite.record).flatMap WriteRecord.encode := by
  induction ws with
  | nil => rfl
  | cons w ws ih =>
    simp only [List.map_cons, List.flatMap_cons, toAnsi_append, ih]
    simp only [TypedWrite.toWrite, ToWrite.framed, toAnsi_append, toAnsi_framed w.cp.short,
      toAnsi_framed w.conn.short, toAnsi_framed w.item.short, toAnsi_framed w.value.type.short,
      toAnsi_framed w.value.text.short, toAnsi_framed w.length.short]
    rfl

/-- What the list holds of the members: the numbers from 1 on, the item ids and the typed
values. -/
def Holds (params : List CEdpsParam) (ws : List TypedWrite) : Prop :=
  params.map CEdpsParam.dwParID = List.range' 1 ws.length ∧
    List.Forall₂ (fun p w => p.szItemId = itemName w.conn.text w.item.text ∧ w.value.Typed p.val)
      params ws

/-- A member fits the buffer: an array of the `k` bytes of a `STRING*k` can be made, and from the
place of the text on they lie in the buffer. -/
def TypedWrite.Fits (crt : Crt) (place size : ℕ) (w : TypedWrite) : Prop :=
  ∀ k pos short value, w.value = .string k pos short value →
    (k < 4294967296 ∧ crt.safeArrayCreate k = true) ∧
      place + (addressText w.conn w.item w.value.type).length + k ≤ size

theorem take_ne {name : Bytes}
    (h : name ∈ [ascii "BIT", ascii "LONG", ascii "INTEGER", ascii "BYTE", ascii "CHAR"]) :
    name.take 7 ≠ ascii "STRING*" := by
  revert name
  decide +kernel

variable {crt : Crt}

/-- A member that is no string reads no array. -/
theorem TypedWrite.fits_plain {place size : ℕ} {w : TypedWrite}
    (hvalue : ∀ k pos short value, w.value ≠ .string k pos short value)
    (htype : w.value.type.text.take 7 ≠ ascii "STRING*") (hcreated : w.value.Created crt) :
    w.Fits crt place size ↔ w.value.Created crt ∧ w.record.Fits crt place size :=
  iff_of_true (fun k pos short value h => absurd h (hvalue k pos short value))
    ⟨hcreated, fun h => absurd h htype⟩

theorem TypedWrite.fits_iff {place size : ℕ} {w : TypedWrite} :
    w.Fits crt place size ↔ w.value.Created crt ∧ w.record.Fits crt place size := by
  obtain ⟨cp, conn, item, value, len⟩ := w
  cases value with
  | string k pos short value =>
    have hrecord : (TypedWrite.mk cp conn item (.string k pos short value) len).record.Fits crt
        place size ↔ (crt.safeArrayCreate (k % 4294967296) = true →
          place + (addressText conn item (stringField k short)).length + k % 4294967296 ≤
            size) := by
      rw [← cElements_stringField k short]
      exact forall_prop_of_true (take_stringField k short)
    rw [hrecord]
    constructor
    · intro h
      obtain ⟨hcreated, hroom⟩ := h k pos short value rfl
      refine ⟨hcreated, fun _ => ?_⟩
      rwa [Nat.mod_eq_of_lt hcreated.1]
    · rintro ⟨hcreated, hroom⟩ _ _ _ _ ⟨⟩
      rw [Nat.mod_eq_of_lt hcreated.1] at hroom
      exact ⟨hcreated, hroom hcreated.2⟩
  | bit b => exact fits_plain (by simp) (take_ne (by simp [WriteValue.type])) trivial
  | long n range => exact fits_plain (by simp) (take_ne (by simp [WriteValue.type])) trivial
  | integer n range => exact fits_plain (by simp) (take_ne (by simp [WriteValue.type])) trivial
  | byte n range => exact fits_plain (by simp) (take_ne (by simp [WriteValue.type])) trivial
  | char n range => exact fits_plain (by simp) (take_ne (by simp [WriteValue.type])) trivial

theorem allFit_iff {place size : ℕ} {ws : List TypedWrite} :
    AllFit (fun w => w.record.kept) (TypedWrite.Fits crt) size place ws ↔
      (∀ w ∈ ws, w.value.Created crt) ∧
        AllFit WriteRecord.kept (WriteRecord.Fits crt) size place (ws.map TypedWrite.record) := by
  induction ws generalizing place with
  | nil => simp [AllFit]
  | cons w ws ih =>
    simp only [AllFit, TypedWrite.fits_iff, ih, List.map_cons, List.forall_mem_cons]
    tauto

/-- The parameters of a request that is parsed hold what was meant, as long as the arrays of the
strings can be made. -/
theorem holds_iff (crt : Crt) (ws : List TypedWrite) :
    Holds (((ws.map TypedWrite.record).zipIdx 1).map fun r => r.1.param crt r.2) ws ↔
      ∀ w ∈ ws, w.value.Created crt := by
  have hids : (((ws.map TypedWrite.record).zipIdx 1).map fun r => r.1.param crt r.2).map
      CEdpsParam.dwParID = List.range' 1 ws.length := by
    have hsnd := List.zipIdx_map_snd 1 (ws.map TypedWrite.record)
    rw [List.length_map] at hsnd
    rw [← hsnd, List.map_map]
    rfl
  have hall : ∀ n, List.Forall₂
      (fun p w => p.szItemId = itemName w.conn.text w.item.text ∧ w.value.Typed p.val)
      (((ws.map TypedWrite.record).zipIdx n).map fun r => r.1.param crt r.2) ws ↔
        ∀ w ∈ ws, w.value.Created crt := by
    clear hids
    induction ws with
    | nil => simp
    | cons w ws ih =>
      intro n
      have hw : w.value.Typed (w.record.typed crt) ↔ w.value.Created crt := typed_iff crt w.value
      simp only [List.map_cons, List.zipIdx_cons, List.forall₂_cons, ih, List.forall_mem_cons,
        ← hw]
      exact and_congr_left fun _ => and_iff_right rfl
  exact ⟨fun h => (hall 1).1 h.2, fun h => ⟨hids, (hall 1).2 h⟩⟩

/-- **When the library parses the request SIS builds.** -/
theorem parse_combineToWrite_iff (R : Runtime) (crt : Crt) (malloc : ℕ → UInt8) (lBound : ℤ)
    {ws : List TypedWrite} (hne : ws ≠ []) :
    (∃ text s params, combineToWrite lBound (ws.map (TypedWrite.toWrite R)) = .ok text ∧
        parseBuffer crt malloc (toAnsi R text) false = .ok ws.length s ∧
        s.list? = some params ∧ Holds params ws) ↔
      (-32768 ≤ lBound ∧ lBound + ws.length ≤ 32767) ∧
        AllFit (fun w => w.record.kept) (TypedWrite.Fits crt)
          (((ws.map TypedWrite.record).flatMap WriteRecord.encode).length + 1) 0 ws := by
  have hpos (r : WriteRecord) : 0 < r.encode.length := by
    simp [WriteRecord.encode]
  have hmap : ws.map (TypedWrite.toWrite R) ≠ [] := by simpa using hne
  simp only [combineToWrite_ok hmap, List.length_map, allFit_iff]
  have hparses : Parses crt false WriteRecord.encode WriteRecord.kept (WriteRecord.param crt)
    (WriteRecord.Fits crt) := parses_write
  by_cases hfit : AllFit WriteRecord.kept (WriteRecord.Fits crt)
      (((ws.map TypedWrite.record).flatMap WriteRecord.encode).length + 1) 0
      (ws.map TypedWrite.record)
  · obtain ⟨s, hs, -, hlist⟩ := hparses.buffer_ok hpos noNul_encode_write malloc hfit
    constructor
    · rintro ⟨_, s', params, ⟨hbounds, rfl⟩, hparse, hparams, hholds⟩
      rw [toAnsi_request, hs] at hparse
      obtain ⟨-, rfl⟩ := EStateM.Result.ok.inj hparse
      rw [hlist] at hparams
      cases hparams
      exact ⟨hbounds, (holds_iff crt ws).1 hholds, hfit⟩
    · rintro ⟨hbounds, hcounted, -⟩
      exact ⟨_, s, _, ⟨hbounds, rfl⟩, by rw [toAnsi_request, hs, List.length_map], hlist,
        (holds_iff crt ws).2 hcounted⟩
  · obtain ⟨s, hs⟩ := hparses.buffer_outside hpos noNul_encode_write malloc hfit
    constructor
    · rintro ⟨_, s', params, ⟨-, rfl⟩, hparse, -⟩
      rw [toAnsi_request, hs] at hparse
      cases hparse
    · rintro ⟨-, -, h⟩
      exact absurd h hfit

/-- A member with a value, at the address of the examples. -/
def exampleWrite (value : WriteValue) (length : Field) : TypedWrite :=
  ⟨exampleCP, exampleConn, exampleField "DB1" (by decide +kernel), value, length⟩

/-- `AB` in a string of `k` characters. -/
def exampleString (k : ℕ) (pos : 0 < k) (short : (Decimal.natText k).length < 993) : TypedWrite :=
  exampleWrite (.string k pos short (exampleField "AB" (by decide +kernel)))
    (exampleField "2" (by decide +kernel))

theorem integer_range : -32768 ≤ (-5 : ℤ) ∧ (-5 : ℤ) ≤ 32767 := by decide

theorem one_fits : (∀ c ∈ ascii "1", c ≠ 0) ∧ (ascii "1").length < 1000 := by decide +kernel

/-- A bit, a negative number and a short string are parsed as they were meant. -/
theorem parse_combineToWrite_three :
    ∃ text s params,
      combineToWrite 0 ([exampleWrite (.bit true) (exampleField "1" one_fits),
          exampleWrite (.integer (-5) integer_range) (exampleField "2" (by decide +kernel)),
          exampleString 4 (by decide) (by decide)].map (TypedWrite.toWrite plainRuntime)) =
        .ok text ∧
      parseBuffer exampleCrt (fun _ => 0) (toAnsi plainRuntime text) false = .ok 3 s ∧
      s.list? = some params ∧
      Holds params [exampleWrite (.bit true) (exampleField "1" one_fits),
        exampleWrite (.integer (-5) integer_range) (exampleField "2" (by decide +kernel)),
        exampleString 4 (by decide) (by decide)] := by
  refine (parse_combineToWrite_iff plainRuntime exampleCrt (fun _ => 0) 0 (by simp)).2
    ⟨by decide, ?_, ?_, ?_, trivial⟩
  · rintro k pos short value ⟨⟩
  · rintro k pos short value ⟨⟩
  · rintro k pos short value ⟨⟩
    decide +kernel

/-- `AB` in a string of 20 characters: the buffer of the request has 36 bytes, and the elements
are read from place 20 on. -/
theorem not_parse_combineToWrite_long :
    ¬ ∃ text s params,
      combineToWrite 0 ([exampleString 20 (by decide) (by decide)].map
          (TypedWrite.toWrite plainRuntime)) = .ok text ∧
        parseBuffer exampleCrt (fun _ => 0) (toAnsi plainRuntime text) false = .ok 1 s ∧
        s.list? = some params ∧ Holds params [exampleString 20 (by decide) (by decide)] := by
  rintro ⟨text, s, params, htext, hparse, -⟩
  obtain ⟨-, rfl⟩ := (combineToWrite_ok (by simp)).1 htext
  have hparses : Parses exampleCrt false WriteRecord.encode WriteRecord.kept
    (WriteRecord.param exampleCrt) (WriteRecord.Fits exampleCrt) := parses_write
  have hfit : ¬ AllFit WriteRecord.kept (WriteRecord.Fits exampleCrt)
      ((([exampleString 20 (by decide) (by decide)].map TypedWrite.record).flatMap
        WriteRecord.encode).length + 1) 0
      ([exampleString 20 (by decide) (by decide)].map TypedWrite.record) := by
    rintro ⟨hroom, -⟩
    exact absurd (hroom (by decide +kernel) (by decide +kernel)) (by decide +kernel)
  obtain ⟨s', hs'⟩ := hparses.buffer_outside (fun r => by simp [WriteRecord.encode])
    noNul_encode_write (fun _ => 0) hfit
  rw [toAnsi_request, hs'] at hparse
  cases hparse

end Link

end Edps
