import Edps.OpcS7.Items
import Mathlib.Data.List.Induction
import Mathlib.Data.List.TakeWhile
import Mathlib.Tactic.IntervalCases

/-!
# Requests and their parameters

A request is a text of fields, each behind its length in three digits.  `ParseRequest` makes a
list of parameters from it, `GetListName` a name for their group, and `GetMReadResult` the text
that answers it.

* `parseRequest` : the request read.
* `getListName` : the name of the group, with a hash of the item ids.
* `variantText`, `getValueVariant`, `getMReadResult` : the answer.
* `parseRequest_read`, `parseRequest_write` : a well-formed request is read as the records it was
  made of.
* `count_getListName` : the name of a group tells how many parameters it is for.
-/

namespace Edps

namespace OpcS7

/-- `CEdpsParam` -/
structure CEdpsParam where
  dwParID : ℕ
  szItemId : Bytes
  val : Variant
  deriving DecidableEq, Repr

/-- What the server is told about the item of a parameter. -/
def CEdpsParam.toDef (p : CEdpsParam) : ItemDef := ⟨p.szItemId, p.dwParID⟩

/-- `S7:[conn]item` -/
def itemName (conn item : Bytes) : Bytes := ascii "S7:[" ++ conn ++ ascii "]" ++ item

/-! ### Typed values -/

/-- The first `n` bytes of a text, with zeros behind its end. -/
def firstBytes (n : ℕ) (szData : Bytes) : Bytes := (List.range n).map fun i => szData.getD i 0

/-- The number behind `STRING*`. -/
def cElements (szType : Bytes) : ℕ := toULong (atol (szType.drop 7))

/-- The value `AddItem` makes of a text, and its answer.  Without the array that it asks for the
value is empty. -/
def typedValue (crt : Crt) (szType szData : Bytes) : Variant × Bool :=
  if szType = ascii "BIT" then (ofLong VT_BOOL (atol szData), true)
  else if szType = ascii "FLOAT" then (⟨VT_R4, crt.atof szData, 0, none⟩, true)
  else if szType = ascii "LONG" then (ofLong VT_I4 (atol szData), true)
  else if szType = ascii "INTEGER" then (ofLong VT_I2 (atol szData), true)
  else if szType = ascii "BYTE" ∨ szType = ascii "CHAR" then (ofLong VT_UI1 (atol szData), true)
  else if szType.take 7 = ascii "STRING*" then
    if crt.safeArrayCreate (cElements szType) then
      (⟨VT_ARRAY + VT_UI1, 0, 0, some ⟨0, firstBytes (cElements szType) szData⟩⟩, true)
    else (.empty, false)
  else (.empty, false)

/-! ### Requests -/

/-- How the parsing of a request ends: where no field stands, or behind the memory of the request,
which a field has left. -/
inductive ParseEnd where
  | stop
  | overrun
  deriving DecidableEq, Repr

/-- `GetNextValue`: a field, and the memory behind it.  The field has the length it announces,
wherever the terminator of the request is. -/
def getNextValue : Bytes → Except ParseEnd (Bytes × Bytes)
  | [] => .error .overrun
  | c₀ :: c₁ :: c₂ :: rest =>
    if isDigit c₀ && isDigit c₁ && isDigit c₂ then
      let nLen := (c₀.toNat - 48) * 100 + (c₁.toNat - 48) * 10 + (c₂.toNat - 48)
      if nLen ≤ rest.length then .ok (rest.take nLen, rest.drop nLen) else .error .overrun
    else .error .stop
  | _ => .error .stop

variable (crt : Crt)

/-- One round of the loop of `ParseRequest`. -/
def parseRecord (bReadRequest : Bool) (dwCount : ℕ) (szRequest : Bytes) :
    Except ParseEnd (CEdpsParam × Bytes) := do
  -- the connection point is not used
  let (_, szRequest) ← getNextValue szRequest
  let (conn, szRequest) ← getNextValue szRequest
  let (item, szRequest) ← getNextValue szRequest
  let (szType, szRequest) ← getNextValue szRequest
  if bReadRequest then
    let (id, szRequest) ← getNextValue szRequest
    let lParID := atol (cstr id)
    if lParID ≤ 0 then
      throw .stop
    return (⟨lParID.toNat, cstr (itemName conn item), .empty⟩, szRequest)
  else
    let (szValue, szRequest) ← getNextValue szRequest
    -- the length of the value is not used
    let (_, szRequest) ← getNextValue szRequest
    return (⟨dwCount + 1, cstr (itemName conn item),
      (typedValue crt (cstr szType) (cstr szValue)).1⟩, szRequest)

/-- The loop of `ParseRequest`. -/
def parseRecords (bReadRequest : Bool) :
    ℕ → Bytes → List CEdpsParam → Except ParseEnd (List CEdpsParam)
  | 0, _, params => .ok params
  | fuel + 1, szRequest, params =>
    match parseRecord crt bReadRequest params.length szRequest with
    | .ok (p, szRequest) => parseRecords bReadRequest fuel szRequest (params ++ [p])
    | .error .stop => .ok params
    | .error .overrun => .error .overrun

/-- `ParseRequest` of a `BSTR`.  A record takes at least fifteen characters, so the length of the
text bounds the loop. -/
def parseRequest (szRequest : Bytes) (bReadRequest : Bool) : Except ParseEnd (List CEdpsParam) :=
  parseRecords crt bReadRequest szRequest.length (bstr szRequest) []

/-! ### The name of the group -/

/-- A `char`, which has a sign, in a `DWORD`. -/
def signExtend (c : UInt8) : UInt32 := c.toInt8.toInt32.toUInt32

/-- Rotation by one bit. -/
def rotate (dwHash : UInt32) : UInt32 :=
  let dzBit : UInt32 := if dwHash &&& 0x80000000 = 0 then 0 else 1
  dwHash <<< 1 ||| dzBit

/-- `AddHash` -/
def addHash (dwHash : UInt32) (szStr : Bytes) : UInt32 :=
  szStr.foldl (fun h c => rotate h ^^^ signExtend c) dwHash ||| UInt32.ofNat szStr.length

/-- `GetListName` -/
def getListName (params : List CEdpsParam) : Bytes :=
  if params = [] then []
  else (params.flatMap fun p => ltoa p.dwParID ++ ascii ",") ++
    ltoa (params.foldl (fun h p => addHash h p.szItemId) 0).toNat

/-! ### The answer -/

/-- The `switch` of `GetValueVariant` with a buffer of `size` characters: the text, and whether it
counts as good.  `none` where it reads outside the array or writes outside the buffer. -/
def variantText (size : ℕ) (var : Variant) : Option (Bytes × Bool) :=
  if var.vt = VT_BOOL then some (if var.boolVal ≠ 0 then ascii "1" else ascii "0", true)
  else if var.vt = VT_R4 then some (crt.gcvtFloat var.low, true)
  else if var.vt = VT_R8 then some (crt.gcvtDouble var.low var.high, true)
  else if var.vt = VT_I2 ∨ var.vt = VT_I4 ∨ var.vt = VT_INT then some (ltoa var.lVal, true)
  else if var.vt = VT_UI2 ∨ var.vt = VT_UI4 ∨ var.vt = VT_UINT then some (ltoa var.ulVal, true)
  else if var.vt = VT_ARRAY + VT_UI1 ∨ var.vt = VT_ARRAY + VT_I1 then
    match var.parray with
    | none => some ([], true)
    | some a =>
      if a.elements.length < size ∧ (a.lLbound = 0 ∨ a.elements = []) then
        some (cstr a.elements, true)
      else none
  else some (ascii "Error Type", false)

/-- `GetValueVariant` -/
def getValueVariant (size : ℕ) (pItem : Option COPCItem) : Option (Bytes × Bool) :=
  match pItem with
  | some it => if it.quality then variantText crt size it.vDataValue else
    some (ascii "Error Read", false)
  | none => some (ascii "Error Read", false)

/-- The last three digits of a length. -/
def lengthText (n : ℕ) : Bytes := ofCodes (Decimal.codes (Decimal.padded 3 n))

/-- A text behind its length. -/
def framed (s : Bytes) : Bytes := lengthText s.length ++ s

/-- `GetMReadResult`: the text and the number of good values. -/
def getMReadResult (items : List COPCItem) : List CEdpsParam → Option (Bytes × ℕ)
  | [] => some ([], 0)
  | p :: params => do
    let (data, good) ← getValueVariant crt 64 (items.find? fun it => it.hClient = p.dwParID)
    let (rest, dwOk) ← getMReadResult items params
    return (framed (ltoa p.dwParID) ++ framed data ++ rest, (if good then 1 else 0) + dwOk)

/-- An answer lists its parameters in order, each with what its item renders. -/
theorem getMReadResult_texts {items : List COPCItem} {params : List CEdpsParam} {text : Bytes}
    {dwOk : ℕ} (h : getMReadResult crt items params = some (text, dwOk)) :
    ∃ texts : List Bytes,
      List.Forall₂ (fun p t => ∃ good,
        getValueVariant crt 64 (items.find? fun it => it.hClient = p.dwParID) = some (t, good))
        params texts ∧
      text =
        (List.zipWith (fun p t => framed (ltoa p.dwParID) ++ framed t) params texts).flatten := by
  induction params generalizing text dwOk with
  | nil =>
    cases h
    exact ⟨[], .nil, rfl⟩
  | cons p params ih =>
    simp only [getMReadResult, Option.bind_eq_bind, Option.bind_eq_some_iff] at h
    obtain ⟨⟨data, good⟩, hdata, ⟨rest, dwRest⟩, hrest, heq⟩ := h
    cases heq
    obtain ⟨texts, hall, rfl⟩ := ih hrest
    exact ⟨data :: texts, .cons ⟨good, hdata⟩ hall, rfl⟩

/-- The count says whether a value was good. -/
theorem getMReadResult_count {items : List COPCItem} {params : List CEdpsParam} {text : Bytes}
    {dwOk : ℕ} (h : getMReadResult crt items params = some (text, dwOk)) :
    dwOk ≠ 0 ↔ ∃ p ∈ params, ∃ t,
      getValueVariant crt 64 (items.find? fun it => it.hClient = p.dwParID) = some (t, true) := by
  induction params generalizing text dwOk with
  | nil =>
    cases h
    simp
  | cons p params ih =>
    simp only [getMReadResult, Option.bind_eq_bind, Option.bind_eq_some_iff] at h
    obtain ⟨⟨data, good⟩, hdata, ⟨rest, dwRest⟩, hrest, heq⟩ := h
    cases heq
    have hrest' := ih hrest
    simp only [List.exists_mem_cons_iff, ← hrest', hdata]
    cases good <;> simp

/-! ### Well-formed requests -/

/-- A text that fits a field. -/
structure Field where
  text : Bytes
  noNul : ∀ c ∈ text, c ≠ 0
  short : text.length < 1000

/-- A text of a program as a field. -/
def exampleField (s : String) (h : (∀ c ∈ ascii s, c ≠ 0) ∧ (ascii s).length < 1000) : Field :=
  ⟨ascii s, h.1, h.2⟩

/-- A run time that compares texts, and that the examples do not ask for numbers. -/
def exampleCrt : Crt := ⟨fun _ => 0, fun _ => [], fun _ _ => [], fun s t => s = t,
  fun cElements => cElements < 2 ^ 30⟩

def exampleCP : Field := exampleField "A" (by decide +kernel)

def exampleConn : Field := exampleField "C" (by decide +kernel)

def exampleType : Field := exampleField "INTEGER" (by decide +kernel)

/-- A record of a read request. -/
structure ReadRecord where
  cp : Field
  conn : Field
  item : Field
  type : Field
  parID : ℕ
  positive : 0 < parID
  long : parID < 2 ^ 31

/-- A record of a write request. -/
structure WriteRecord where
  cp : Field
  conn : Field
  item : Field
  type : Field
  value : Field
  length : Field

/-- The item id a record names. -/
def ReadRecord.itemId (r : ReadRecord) : Bytes := itemName r.conn.text r.item.text

/-- The item id a record names. -/
def WriteRecord.itemId (r : WriteRecord) : Bytes := itemName r.conn.text r.item.text

/-- The value typed from a record. -/
def WriteRecord.typed (r : WriteRecord) : Variant := (typedValue crt r.type.text r.value.text).1

def ReadRecord.encode (r : ReadRecord) : Bytes :=
  framed r.cp.text ++ framed r.conn.text ++ framed r.item.text ++ framed r.type.text ++
    framed (ltoa r.parID)

def WriteRecord.encode (r : WriteRecord) : Bytes :=
  framed r.cp.text ++ framed r.conn.text ++ framed r.item.text ++ framed r.type.text ++
    framed r.value.text ++ framed r.length.text

/-- The parameter of a read record. -/
def ReadRecord.param (r : ReadRecord) : CEdpsParam := ⟨r.parID, r.itemId, .empty⟩

/-- The parameter of the `n`-th write record. -/
def WriteRecord.param (n : ℕ) (r : WriteRecord) : CEdpsParam := ⟨n, r.itemId, r.typed crt⟩

/-- The parameters of a write request, numbered from 1. -/
def writeParams (rs : List WriteRecord) : List CEdpsParam :=
  rs.zipIdx.map fun r => r.1.param crt (r.2 + 1)

@[simp] theorem length_framed (s : Bytes) : (framed s).length = 3 + s.length := by
  simp [framed, lengthText, ofCodes]

theorem toNat_digitCode {d : ℕ} (hd : d < 10) : (UInt8.ofNat (48 + d)).toNat = 48 + d := by
  rw [UInt8.toNat_ofNat']
  omega

theorem isDigit_digitCode {d : ℕ} (hd : d < 10) : isDigit (UInt8.ofNat (48 + d)) = true := by
  simp only [isDigit, UInt8.le_iff_toNat_le, toNat_digitCode hd, decide_eq_true_eq]
  constructor
  · exact Nat.le_add_right 48 d
  · show 48 + d ≤ 57
    omega

/-- **A field read back.** -/
theorem getNextValue_framed {s : Bytes} (h : s.length < 1000) (rest : Bytes) :
    getNextValue (framed s ++ rest) = .ok (s, rest) := by
  set n := s.length with hn
  have htext : lengthText n = [UInt8.ofNat (48 + n / 10 / 10 % 10),
      UInt8.ofNat (48 + n / 10 % 10), UInt8.ofNat (48 + n % 10)] := rfl
  have hlen : (48 + n / 10 / 10 % 10 - 48) * 100 + (48 + n / 10 % 10 - 48) * 10 +
      (48 + n % 10 - 48) = n := by omega
  rw [framed, ← hn, htext]
  simp only [List.cons_append, List.nil_append, getNextValue,
    isDigit_digitCode (Nat.mod_lt _ (by decide : 0 < 10)),
    toNat_digitCode (Nat.mod_lt _ (by decide : 0 < 10)), hlen, Bool.and_self, if_true]
  rw [if_pos (by rw [List.length_append]; omega), hn, List.take_left, List.drop_left]

/-! ### Numbers -/

theorem toLong_eq {n : ℤ} (h₀ : -2147483648 ≤ n) (h₁ : n < 2147483648) : toLong n = n := by
  unfold toLong
  rw [Int.bmod_def]
  norm_num
  omega

theorem ofCodes_codes_append (ds es : List ℕ) :
    ofCodes (Decimal.codes (ds ++ es)) =
      ofCodes (Decimal.codes ds) ++ ofCodes (Decimal.codes es) := by
  simp [ofCodes, Decimal.codes]

/-- Digits accumulate to their value, which wraps. -/
theorem atolDigits_codes {ds : List ℕ} (hd : ∀ d ∈ ds, d < 10) :
    atolDigits (ofCodes (Decimal.codes ds)) = toLong (Decimal.value ds) := by
  have hall {es : List ℕ} (he : ∀ d ∈ es, d < 10) :
      (ofCodes (Decimal.codes es)).takeWhile isDigit = ofCodes (Decimal.codes es) := by
    refine List.takeWhile_eq_self_iff.2 fun c hc => ?_
    simp only [ofCodes, Decimal.codes, List.map_map, List.mem_map] at hc
    obtain ⟨d, hd, rfl⟩ := hc
    exact isDigit_digitCode (he d hd)
  induction ds using List.reverseRec with
  | nil => rfl
  | append_singleton ds d ih =>
    have hds : ∀ e ∈ ds, e < 10 := fun e he => hd e (List.mem_append_left _ he)
    have hd10 : d < 10 := hd d (by simp)
    have ih := ih hds
    rw [atolDigits, hall hds] at ih
    rw [atolDigits, hall hd, ofCodes_codes_append, List.foldl_append, ih,
      Decimal.value_append_singleton]
    have hcode : ofCodes (Decimal.codes [d]) = [UInt8.ofNat (48 + d)] := rfl
    rw [hcode, List.foldl_cons, List.foldl_nil, toNat_digitCode hd10]
    have hdigit : ((48 + d : ℕ) : ℤ) - 48 = d := by omega
    rw [hdigit, toLong, toLong, toLong, Int.add_comm, ← Int.add_bmod_bmod, Int.mul_bmod_bmod,
      Int.add_bmod_bmod, Int.add_comm, Nat.cast_add, Nat.cast_mul]
    rfl

/-- A text that begins with a digit has no sign. -/
theorem atol_digitCode {d : ℕ} (hd : d < 10) (cs : Bytes) :
    atol (UInt8.ofNat (48 + d) :: cs) = atolDigits (UInt8.ofNat (48 + d) :: cs) := by
  interval_cases d <;> rfl

theorem atolDigits_natText (n : ℕ) : atolDigits (ofCodes (Decimal.natText n)) = toLong n := by
  rw [Decimal.natText, atolDigits_codes fun _ => Decimal.lt_of_mem_digits, Decimal.value_digits]

theorem atol_natText (n : ℕ) : atol (ofCodes (Decimal.natText n)) = toLong n := by
  obtain ⟨d, ds, hds⟩ := List.exists_cons_of_ne_nil (Decimal.digits_ne_nil n)
  have hd : d < 10 := Decimal.lt_of_mem_digits (n := n) (by rw [hds]; simp)
  have hcons : ofCodes (Decimal.natText n) =
      UInt8.ofNat (48 + d) :: ofCodes (Decimal.codes ds) := by
    rw [Decimal.natText, hds]
    rfl
  rw [hcons, atol_digitCode hd, ← hcons, atolDigits_natText]

/-- **A number read back**, as far as 32 bits hold it. -/
theorem atol_intText (n : ℤ) : atol (ofCodes (Decimal.intText n)) = toLong n := by
  unfold Decimal.intText
  split_ifs with hneg
  · have habs : (n.natAbs : ℤ) = -n := by omega
    have hminus : ofCodes (45 :: Decimal.natText n.natAbs) =
        45 :: ofCodes (Decimal.natText n.natAbs) := rfl
    have hatol : atol (45 :: ofCodes (Decimal.natText n.natAbs)) =
        toLong (-atolDigits (ofCodes (Decimal.natText n.natAbs))) := rfl
    rw [hminus, hatol, atolDigits_natText, habs, toLong, toLong, toLong, ← Int.zero_sub,
      Int.sub_bmod_bmod, Int.zero_sub, Int.neg_neg]
  · rw [atol_natText]
    congr 1
    omega

theorem atol_numeral (n : Decimal.Numeral) : atol (ofCodes n.text) = toLong n.value := by
  obtain ⟨d, ds, hds⟩ := List.exists_cons_of_ne_nil n.ne_nil
  have hd : d < 10 := n.lt_ten d (by rw [hds]; simp)
  have hcons : ofCodes n.text = UInt8.ofNat (48 + d) :: ofCodes (Decimal.codes ds) := by
    rw [Decimal.Numeral.text, hds]
    rfl
  rw [hcons, atol_digitCode hd, ← hcons]
  exact atolDigits_codes n.lt_ten

/-- A number with or without a sign. -/
theorem atol_signed (n : Decimal.SignedNumeral) : atol (ofCodes n.text) = toLong n.value := by
  have hdigits : atolDigits (ofCodes n.numeral.text) = toLong n.numeral.value :=
    atolDigits_codes n.numeral.lt_ten
  obtain ⟨sign, numeral⟩ := n
  cases sign with
  | none => exact atol_numeral numeral
  | plus => exact hdigits
  | minus =>
    have hatol : atol (ofCodes (Decimal.SignedNumeral.text ⟨.minus, numeral⟩)) =
        toLong (-atolDigits (ofCodes numeral.text)) := rfl
    rw [hatol, hdigits, toLong, toLong, ← Int.zero_sub, Int.sub_bmod_bmod, Int.zero_sub]
    rfl

theorem atol_ltoa {n : ℕ} (h : n < 2 ^ 31) : atol (ltoa n) = n := by
  have hlong : toLong n = n := toLong_eq (by omega) (by omega)
  rw [ltoa, atol_intText, hlong, hlong]

theorem ofCodes_intText_injective {a b : ℤ}
    (h : ofCodes (Decimal.intText a) = ofCodes (Decimal.intText b)) : a = b := by
  have hback (n : ℤ) : (ofCodes (Decimal.intText n)).map UInt8.toNat = Decimal.intText n := by
    rw [ofCodes, List.map_map]
    refine (List.map_congr_left fun c hc => ?_).trans (List.map_id _)
    have := Decimal.code_lt_of_mem_intText hc
    rw [Function.comp_apply, UInt8.toNat_ofNat', id_eq]
    omega
  have hparse := congrArg Decimal.parseInt ((hback a).symm.trans ((congrArg _ h).trans (hback b)))
  rwa [Decimal.parseInt_intText, Decimal.parseInt_intText, Option.some.injEq] at hparse

/-- A `long` has at most eleven characters. -/
theorem length_ltoa_lt (n : ℤ) : (ltoa n).length < 64 := by
  have hlong : (toLong n).natAbs < 10 ^ 10 := by
    rw [toLong, Int.bmod_def]
    omega
  have hlen := Decimal.length_intText_le (n := toLong n) (k := 10) (by decide) hlong
  rw [ltoa, ofCodes, List.length_map]
  exact Nat.lt_of_le_of_lt hlen (by decide)

/-! ### Characters -/

theorem code_of_mem_ltoa {n : ℤ} {c : UInt8} (h : c ∈ ltoa n) : c = 45 ∨ isDigit c = true := by
  obtain ⟨k, hk, rfl⟩ := List.mem_map.1 h
  rcases Decimal.code_of_mem_intText hk with rfl | hdigit
  · exact .inl rfl
  · right
    simp only [Decimal.isDigit, Bool.and_eq_true, decide_eq_true_eq] at hdigit
    obtain ⟨d, rfl⟩ := Nat.exists_eq_add_of_le hdigit.1
    exact isDigit_digitCode (by omega)

theorem isDigit_of_mem_lengthText {n : ℕ} {c : UInt8} (h : c ∈ lengthText n) :
    isDigit c = true := by
  obtain ⟨k, hk, rfl⟩ := List.mem_map.1 h
  obtain ⟨d, hd, rfl⟩ := List.mem_map.1 hk
  exact isDigit_digitCode (Decimal.lt_of_mem_padded hd)

theorem noNul_ltoa {n : ℤ} {c : UInt8} (h : c ∈ ltoa n) : c ≠ 0 := by
  rintro rfl
  exact absurd (code_of_mem_ltoa h) (by decide)

theorem noNul_framed {s : Bytes} (h : ∀ c ∈ s, c ≠ 0) : ∀ c ∈ framed s, c ≠ 0 := by
  intro c hc
  rcases List.mem_append.1 hc with hc | hc
  · rintro rfl
    exact absurd (isDigit_of_mem_lengthText hc) (by decide)
  · exact h c hc

theorem cstr_of_noNul {s : Bytes} (h : ∀ c ∈ s, c ≠ 0) : cstr s = s := by
  refine List.takeWhile_eq_self_iff.2 fun c hc => ?_
  simpa using h c hc

theorem cstr_append_zero {s : Bytes} (h : ∀ c ∈ s, c ≠ 0) (post : Bytes) :
    cstr (s ++ 0 :: post) = s := by
  rw [cstr, List.takeWhile_append_of_pos (by simpa using h)]
  simp

theorem noNul_encode_read (r : ReadRecord) : ∀ c ∈ r.encode, c ≠ 0 := by
  unfold ReadRecord.encode
  simp only [List.forall_mem_append]
  exact ⟨⟨⟨⟨noNul_framed r.cp.noNul, noNul_framed r.conn.noNul⟩, noNul_framed r.item.noNul⟩,
    noNul_framed r.type.noNul⟩, noNul_framed fun _ => noNul_ltoa⟩

theorem noNul_encode_write (r : WriteRecord) : ∀ c ∈ r.encode, c ≠ 0 := by
  unfold WriteRecord.encode
  simp only [List.forall_mem_append]
  exact ⟨⟨⟨⟨⟨noNul_framed r.cp.noNul, noNul_framed r.conn.noNul⟩, noNul_framed r.item.noNul⟩,
    noNul_framed r.type.noNul⟩, noNul_framed r.value.noNul⟩, noNul_framed r.length.noNul⟩

/-- An item id is a C string. -/
theorem noNul_itemName (conn item : Field) : ∀ c ∈ itemName conn.text item.text, c ≠ 0 := by
  simp only [itemName, List.forall_mem_append]
  exact ⟨⟨⟨by decide +kernel, conn.noNul⟩, by decide +kernel⟩, item.noNul⟩

theorem cstr_itemName (conn item : Field) :
    cstr (itemName conn.text item.text) = itemName conn.text item.text :=
  cstr_of_noNul (noNul_itemName conn item)

/-- A request made of records is a C string. -/
theorem cstr_flatMap {ρ : Type} {encode : ρ → Bytes} (h : ∀ r, ∀ c ∈ encode r, c ≠ 0)
    (rs : List ρ) : cstr (rs.flatMap encode) = rs.flatMap encode := by
  refine cstr_of_noNul fun c hc => ?_
  obtain ⟨r, -, hc⟩ := List.mem_flatMap.1 hc
  exact h r c hc

/-- The commas of the name of a group count its parameters. -/
theorem count_getListName {params : List CEdpsParam} (h : params ≠ []) :
    (getListName params).count 44 = params.length := by
  have hltoa (n : ℤ) : (ltoa n).count 44 = 0 := by
    refine List.count_eq_zero.2 fun hc => ?_
    exact absurd (code_of_mem_ltoa hc) (by decide)
  have hcomma : (ascii ",").count 44 = 1 := by decide
  rw [getListName, if_neg h, List.count_append, hltoa, Nat.add_zero, List.count_flatMap]
  have hone : (List.count 44 ∘ fun p : CEdpsParam => ltoa p.dwParID ++ ascii ",") = fun _ => 1 := by
    funext p
    rw [Function.comp_apply, List.count_append, hltoa, hcomma]
  rw [hone]
  simp

/-! ### Parsing -/

theorem bind_getNextValue {β : Type} {s : Bytes} (h : s.length < 1000) (rest : Bytes)
    (f : Bytes × Bytes → Except ParseEnd β) :
    (getNextValue (framed s ++ rest) >>= f) = f (s, rest) := by
  rw [getNextValue_framed h]
  rfl

theorem parseRecord_read (r : ReadRecord) (dwCount : ℕ) (rest : Bytes) :
    parseRecord crt true dwCount (r.encode ++ rest) = .ok (r.param, rest) := by
  have hpos : ¬ (r.parID : ℤ) ≤ 0 := by
    have := r.positive
    omega
  simp only [parseRecord, ReadRecord.encode, List.append_assoc]
  rw [bind_getNextValue r.cp.short, bind_getNextValue r.conn.short, bind_getNextValue r.item.short,
    bind_getNextValue r.type.short, if_pos trivial,
    bind_getNextValue ((length_ltoa_lt _).trans (by decide)), cstr_of_noNul fun _ => noNul_ltoa,
    atol_ltoa r.long, if_neg hpos, Int.toNat_natCast, cstr_itemName]
  rfl

theorem parseRecord_write (r : WriteRecord) (dwCount : ℕ) (rest : Bytes) :
    parseRecord crt false dwCount (r.encode ++ rest) = .ok (r.param crt (dwCount + 1), rest) := by
  simp only [parseRecord, WriteRecord.encode, List.append_assoc]
  rw [bind_getNextValue r.cp.short, bind_getNextValue r.conn.short, bind_getNextValue r.item.short,
    bind_getNextValue r.type.short, if_neg Bool.false_ne_true, bind_getNextValue r.value.short,
    bind_getNextValue r.length.short, cstr_itemName, cstr_of_noNul r.type.noNul,
    cstr_of_noNul r.value.noNul]
  rfl

/-- No field stands at the terminator. -/
theorem parseRecord_terminator (bReadRequest : Bool) (dwCount : ℕ) :
    parseRecord crt bReadRequest dwCount [0, 0] = .error .stop := rfl

/-- The loop of `ParseRequest` over the records it can read. -/
theorem parseRecords_flatMap {ρ : Type} {bReadRequest : Bool} {encode : ρ → Bytes}
    {param : ℕ → ρ → CEdpsParam}
    (h : ∀ r dwCount rest, parseRecord crt bReadRequest dwCount (encode r ++ rest) =
      .ok (param dwCount r, rest)) {rs : List ρ} {fuel : ℕ} (hfuel : rs.length ≤ fuel)
    (params : List CEdpsParam) :
    parseRecords crt bReadRequest fuel (bstr (rs.flatMap encode)) params =
      .ok (params ++ (rs.zipIdx params.length).map fun r => param r.2 r.1) := by
  induction rs generalizing fuel params with
  | nil =>
    cases fuel with
    | zero => simp [parseRecords]
    | succ fuel => simp [parseRecords, bstr, parseRecord_terminator]
  | cons r rs ih =>
    cases fuel with
    | zero => simp at hfuel
    | succ fuel =>
      rw [List.flatMap_cons, bstr_append, parseRecords, h]
      simp only
      rw [ih (by simpa using hfuel)]
      simp [List.zipIdx_cons]

/-- A text of records is at least as long as their number. -/
theorem length_le_flatMap {ρ : Type} {encode : ρ → Bytes} (h : ∀ r, 0 < (encode r).length)
    (rs : List ρ) : rs.length ≤ (rs.flatMap encode).length := by
  induction rs with
  | nil => simp
  | cons r rs ih =>
    have := h r
    rw [List.flatMap_cons, List.length_append, List.length_cons]
    omega

/-- **A well-formed read request** is read as its records. -/
theorem parseRequest_read (rs : List ReadRecord) :
    parseRequest crt (rs.flatMap ReadRecord.encode) true = .ok (rs.map ReadRecord.param) := by
  have hpos (r : ReadRecord) : 0 < r.encode.length := by
    simp [ReadRecord.encode]
  rw [parseRequest, parseRecords_flatMap crt (parseRecord_read crt) (length_le_flatMap hpos rs)]
  have hfst : (rs.zipIdx.map fun r => r.1.param) = rs.map ReadRecord.param := by
    have hmap := congrArg (List.map ReadRecord.param) (List.zipIdx_map_fst 0 rs)
    rwa [List.map_map] at hmap
  simp [hfst]

/-- **A well-formed write request** is read as its records, numbered from 1. -/
theorem parseRequest_write (rs : List WriteRecord) :
    parseRequest crt (rs.flatMap WriteRecord.encode) false = .ok (writeParams crt rs) := by
  have hpos (r : WriteRecord) : 0 < r.encode.length := by
    simp [WriteRecord.encode]
  rw [parseRequest,
    parseRecords_flatMap crt (parseRecord_write crt) (length_le_flatMap hpos rs)]
  simp [writeParams]

end OpcS7

end Edps
