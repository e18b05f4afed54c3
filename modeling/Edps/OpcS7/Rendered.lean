import Edps.OpcS7.Sapi
import Edps.OpcS7.ResultBuffer

/-!
# What values are rendered as

`GetValueVariant` prints every integer through the first four bytes of the `VARIANT`, with the
conversion of a signed 32-bit number, whatever the type owns of them and whether it has a sign.
Arrays of characters it copies element by element into a buffer of the caller, whose size it is
not told: 80 characters in `ReadValue`, 64 in `GetMReadResult`.

* `IntType.denoted` : the number a `VARIANT` of an integer type stands for.
* `IntItem.rendered_iff` : it is the number printed exactly when the four bytes, read as a signed
  number, are that number.
* `arrayText` : the copying of an array in a buffer.
* `CharArray.delivered_iff` : the array is rendered inside the buffer of the caller exactly when
  it is shorter than the buffer and begins at index 0.
-/

namespace Edps

namespace OpcS7

/-! ### Integers -/

/-- The integer types `GetValueVariant` knows. -/
inductive IntType where
  | i2
  | i4
  | int
  | ui2
  | ui4
  | uint
  deriving DecidableEq, Repr

def IntType.vt : IntType → VarType
  | .i2 => VT_I2
  | .i4 => VT_I4
  | .int => VT_INT
  | .ui2 => VT_UI2
  | .ui4 => VT_UI4
  | .uint => VT_UINT

/-- The number that the bits of a value stand for: the low half alone for the types of 16 bits, in
two's complement for the signed types. -/
def IntType.denoted : IntType → UInt32 → ℤ
  | .i2, low => ((low.toNat % 65536 : ℕ) : ℤ).bmod 65536
  | .i4, low => (low.toNat : ℤ).bmod 4294967296
  | .int, low => (low.toNat : ℤ).bmod 4294967296
  | .ui2, low => (low.toNat % 65536 : ℕ)
  | .ui4, low => low.toNat
  | .uint, low => low.toNat

/-- All four bytes, read as a signed number, are the number of the type: the upper half repeats
the sign of the lower, is zero, or has no uppermost bit. -/
def IntType.Clean : IntType → UInt32 → Prop
  | .i2, low => low.toNat < 32768 ∨ 4294934528 ≤ low.toNat
  | .i4, _ => True
  | .int, _ => True
  | .ui2, low => low.toNat < 65536
  | .ui4, low => low.toNat < 2147483648
  | .uint, low => low.toNat < 2147483648

/-- The four bytes as a signed number. -/
theorem lVal_eq (v : Variant) : v.lVal = (v.low.toNat : ℤ).bmod 4294967296 :=
  BitVec.toInt_eq_toNat_bmod v.low.toBitVec

/-- What is printed of an integer. -/
theorem variantText_integer (crt : Crt) (size : ℕ) {v : Variant} {t : IntType} (h : v.vt = t.vt) :
    variantText crt size v =
      some (ofCodes (Decimal.intText ((v.low.toNat : ℤ).bmod 4294967296)), true) := by
  have hltoa : ltoa v.lVal = ofCodes (Decimal.intText ((v.low.toNat : ℤ).bmod 4294967296)) := by
    rw [ltoa, lVal_eq]
    exact congrArg (fun n => ofCodes (Decimal.intText n)) Int.bmod_bmod
  have hultoa : ltoa v.ulVal = ofCodes (Decimal.intText ((v.low.toNat : ℤ).bmod 4294967296)) := rfl
  cases t <;> simp [variantText, h, IntType.vt, VT_BOOL, VT_R4, VT_R8, VT_I2, VT_I4, VT_INT,
    VT_UI2, VT_UI4, VT_UINT, hltoa, hultoa]

section Bits

variable {n : ℕ} (h : n < 4294967296)

include h

theorem bmod_eq_low_signed :
    (n : ℤ).bmod 4294967296 = ((n % 65536 : ℕ) : ℤ).bmod 65536 ↔ n < 32768 ∨ 4294934528 ≤ n := by
  rw [Int.bmod_def, Int.bmod_def]
  split_ifs <;> omega

theorem bmod_eq_low : (n : ℤ).bmod 4294967296 = ((n % 65536 : ℕ) : ℤ) ↔ n < 65536 := by
  rw [Int.bmod_def]
  split_ifs <;> omega

theorem bmod_eq_self : (n : ℤ).bmod 4294967296 = n ↔ n < 2147483648 := by
  rw [Int.bmod_def]
  split_ifs <;> omega

end Bits

theorem IntType.clean_iff (t : IntType) (low : UInt32) :
    (low.toNat : ℤ).bmod 4294967296 = t.denoted low ↔ t.Clean low := by
  have hlt : low.toNat < 4294967296 := low.toNat_lt
  cases t with
  | i2 => exact bmod_eq_low_signed hlt
  | i4 => exact iff_of_true rfl trivial
  | int => exact iff_of_true rfl trivial
  | ui2 => exact bmod_eq_low hlt
  | ui4 => exact bmod_eq_self hlt
  | uint => exact bmod_eq_self hlt

/-- A good item with a value of an integer type. -/
structure IntItem where
  item : COPCItem
  type : IntType
  quality : item.quality = true
  vt : item.vDataValue.vt = type.vt

/-- **When an integer is rendered as what it is.** -/
theorem IntItem.rendered_iff (crt : Crt) (size : ℕ) (x : IntItem) :
    getValueVariant crt size (some x.item) =
        some (ofCodes (Decimal.intText (x.type.denoted x.item.vDataValue.low)), true) ↔
      x.type.Clean x.item.vDataValue.low := by
  rw [getValueVariant]
  simp only [x.quality, if_true]
  rw [variantText_integer crt size x.vt, ← x.type.clean_iff, Option.some.injEq, Prod.mk.injEq,
    and_iff_left rfl]
  exact ⟨ofCodes_intText_injective, fun h => by rw [h]⟩

/-- A good item with the 16-bit value -1, and nothing in the upper half. -/
def exampleInt : IntItem where
  item :=
    { szItemID := ascii "S7:[C]DB1,INT0"
      hClient := 17
      hServer := 1
      wQuality := 0xC0
      vDataValue := ⟨VT_I2, 0xFFFF, 0, none⟩
      hrOperation := S_OK
      status := ⟨false, false, false, false⟩ }
  type := .i2
  quality := by decide
  vt := rfl

/-- The value -1 is rendered as 65535. -/
theorem not_rendered_exampleInt :
    ¬ ∀ (crt : Crt) (size : ℕ) (x : IntItem),
      getValueVariant crt size (some x.item) =
        some (ofCodes (Decimal.intText (x.type.denoted x.item.vDataValue.low)), true) := by
  intro h
  have hnot : getValueVariant exampleCrt 80 (some exampleInt.item) ≠
      some (ofCodes (Decimal.intText (exampleInt.type.denoted exampleInt.item.vDataValue.low)),
        true) := by decide +kernel
  exact hnot (h exampleCrt 80 exampleInt)

/-! ### Arrays of characters -/

/-- `pChar[i]`, where the array has such an element. -/
def SafeArray.element (a : SafeArray) (i : ℤ) : Option UInt8 :=
  if 0 ≤ i then a.elements[i.toNat]? else none

/-- The first rounds of the loop that copies the elements: `none` for an access outside the array
or the buffer. -/
def copyElements (a : SafeArray) (szBuffer : Bytes) : ℕ → Option Bytes
  | 0 => some szBuffer
  | i + 1 => do
    let szBuffer ← copyElements a szBuffer i
    let c ← a.element (a.lLbound + i)
    writeAt szBuffer i [c]

/-- The text of an array, made in a buffer. -/
def arrayText (a : SafeArray) (szBuffer : Bytes) : Option Bytes := do
  let szBuffer ← copyElements a szBuffer a.elements.length
  let szBuffer ← writeAt szBuffer a.elements.length [0]
  return cstr szBuffer

section Copy

variable {a : SafeArray} {szBuffer : Bytes}

/-- What has been copied stands in front of the rest of the buffer. -/
theorem copyElements_ok (hlow : a.lLbound = 0) {n : ℕ} (hn : n ≤ a.elements.length)
    (hroom : n ≤ szBuffer.length) :
    copyElements a szBuffer n = some (a.elements.take n ++ szBuffer.drop n) := by
  induction n with
  | zero => rfl
  | succ n ih =>
    have hget : a.element (a.lLbound + n) = some a.elements[n] := by
      rw [SafeArray.element, hlow, Int.zero_add, if_pos (by omega), Int.toNat_natCast,
        List.getElem?_eq_getElem (by omega)]
    have hlen : (a.elements.take n).length = n := by
      rw [List.length_take]
      omega
    have hroom : [a.elements[n]].length ≤ (szBuffer.drop n).length := by
      rw [List.length_drop, List.length_singleton]
      omega
    have hwrite := writeAt_append (a.elements.take n) hroom
    rw [hlen] at hwrite
    rw [copyElements, ih (by omega) (by omega)]
    simp only [Option.bind_eq_bind, Option.bind_some, hget, hwrite]
    rw [List.length_singleton, List.drop_drop, ← List.append_assoc, List.take_append_getElem]

/-- Copying stays in the buffer and in the array. -/
theorem copyElements_inside {n : ℕ} {b : Bytes} (h : copyElements a szBuffer n = some b) :
    b.length = szBuffer.length ∧ n ≤ szBuffer.length ∧
      ∀ i < n, ∃ c, a.element (a.lLbound + i) = some c := by
  induction n generalizing b with
  | zero =>
    cases h
    exact ⟨rfl, Nat.zero_le _, by simp⟩
  | succ n ih =>
    simp only [copyElements, Option.bind_eq_bind, Option.bind_eq_some_iff] at h
    obtain ⟨b₀, hb₀, c, hc, hwrite⟩ := h
    obtain ⟨hlen, hroom, helements⟩ := ih hb₀
    obtain ⟨hlen', hroom'⟩ := writeAt_some hwrite
    rw [List.length_singleton] at hroom'
    refine ⟨hlen'.trans hlen, by omega, fun i hi => ?_⟩
    rcases Nat.lt_succ_iff_lt_or_eq.1 hi with hi | rfl
    · exact helements i hi
    · exact ⟨c, hc⟩

theorem SafeArray.element_some {i : ℤ} {c : UInt8} (h : a.element i = some c) :
    0 ≤ i ∧ i < a.elements.length := by
  unfold SafeArray.element at h
  split_ifs at h with hi
  obtain ⟨hlt, -⟩ := List.getElem?_eq_some_iff.1 h
  omega

/-- All elements are found only if they are counted from index 0. -/
theorem lLbound_of_copied {b : Bytes} (h : copyElements a szBuffer a.elements.length = some b) :
    a.lLbound = 0 ∨ a.elements = [] := by
  refine or_iff_not_imp_right.2 fun hne => ?_
  have hpos := List.length_pos_iff.2 hne
  obtain ⟨-, -, helements⟩ := copyElements_inside h
  obtain ⟨c, hc⟩ := helements 0 hpos
  obtain ⟨d, hd⟩ := helements (a.elements.length - 1) (by omega)
  have hfirst := (SafeArray.element_some hc).1
  have hlast := (SafeArray.element_some hd).2
  omega

theorem cstr_append_terminator (s post : Bytes) : cstr (s ++ 0 :: post) = cstr s := by
  induction s with
  | nil => rfl
  | cons c s ih =>
    simp only [cstr, List.cons_append, List.takeWhile_cons] at ih ⊢
    rw [ih]

/-- **An array in a buffer.** -/
theorem arrayText_eq (a : SafeArray) (szBuffer : Bytes) :
    arrayText a szBuffer =
      if a.elements.length < szBuffer.length ∧ (a.lLbound = 0 ∨ a.elements = []) then
        some (cstr a.elements)
      else none := by
  split_ifs with h
  · obtain ⟨hroom, hlow⟩ := h
    have hcopy : copyElements a szBuffer a.elements.length =
        some (a.elements ++ szBuffer.drop a.elements.length) := by
      rcases hlow with hlow | hnil
      · rw [copyElements_ok hlow le_rfl hroom.le, List.take_length]
      · rw [hnil]
        rfl
    rw [arrayText, hcopy, Option.bind_eq_bind, Option.bind_some,
      writeAt_append _ (by rw [List.length_drop, List.length_singleton]; omega)]
    exact congrArg some (cstr_append_terminator _ _)
  · by_contra hne
    obtain ⟨text, htext⟩ := Option.ne_none_iff_exists'.1 hne
    simp only [arrayText, Option.bind_eq_bind, Option.bind_eq_some_iff] at htext
    obtain ⟨b, hb, b', hb', -⟩ := htext
    have hroom := (writeAt_some hb').2
    rw [(copyElements_inside hb).1, List.length_singleton] at hroom
    exact h ⟨by omega, lLbound_of_copied hb⟩

end Copy

/-- The two callers of `GetValueVariant`. -/
inductive Caller where
  | readValue
  | getMReadResult
  deriving DecidableEq, Repr

/-- The size of the buffer a caller passes. -/
def Caller.size : Caller → ℕ
  | .readValue => 80
  | .getMReadResult => 64

/-- A good item with an array of characters. -/
structure CharArray where
  item : COPCItem
  array : SafeArray
  quality : item.quality = true
  vt : item.vDataValue.vt = VT_ARRAY + VT_UI1 ∨ item.vDataValue.vt = VT_ARRAY + VT_I1
  parray : item.vDataValue.parray = some array

/-- The text of an array is the one made in place in the buffer of the caller. -/
theorem CharArray.getValueVariant_eq (crt : Crt) (malloc : ℕ → UInt8) (x : CharArray)
    (size : ℕ) :
    getValueVariant crt size (some x.item) =
      (arrayText x.array (freshBytes malloc size)).map fun text => (text, true) := by
  rw [getValueVariant]
  simp only [x.quality, if_true]
  rw [variantText_array x.vt, x.parray, arrayText_eq, length_freshBytes]
  dsimp only
  split_ifs <;> rfl

/-- What a caller makes of the text: `ReadValue` returns it, `GetMReadResult` appends it to its
answer behind the id of the parameter, with the lengths of both. -/
def Caller.Delivers (crt : Crt) (malloc : ℕ → UInt8) (it : COPCItem) (text : Bytes) :
    Caller → Prop
  | .readValue => getValueVariant crt 80 (some it) = some (text, true)
  | .getMReadResult => ∀ (items : List COPCItem) (p : CEdpsParam) (b : ResultBuffer)
      (front : Bytes) (dwOk : ℕ), items.find? (fun it => it.hClient = p.dwParID) = some it →
      b.Filled front → ∃ b', mreadPairs crt malloc items [p] b dwOk = some (b', dwOk + 1) ∧
        b'.Filled (front ++ (framed (ltoa p.dwParID) ++ framed text))

theorem Caller.delivers_of_text (crt : Crt) (malloc : ℕ → UInt8) {it : COPCItem} {text : Bytes}
    {c : Caller} (h : getValueVariant crt c.size (some it) = some (text, true)) :
    c.Delivers crt malloc it text := by
  cases c with
  | readValue => exact h
  | getMReadResult =>
    intro items p b front dwOk hfind hfilled
    obtain ⟨b', happend, hfilled'⟩ := hfilled.append malloc (ltoa p.dwParID) text
    refine ⟨b', ?_, hfilled'⟩
    rw [mreadPairs_cons (hfind.symm ▸ h) happend]
    rfl

/-- **When an array of characters is delivered.** -/
theorem CharArray.delivered_iff (crt : Crt) (malloc : ℕ → UInt8) (x : CharArray) (c : Caller) :
    (∃ text, arrayText x.array (freshBytes malloc c.size) = some text ∧
        text = cstr x.array.elements ∧ c.Delivers crt malloc x.item text) ↔
      x.array.elements.length < c.size ∧ (x.array.lLbound = 0 ∨ x.array.elements = []) := by
  have htext := x.getValueVariant_eq crt malloc c.size
  rw [arrayText_eq, length_freshBytes] at htext ⊢
  split_ifs at htext ⊢ with h
  · exact iff_of_true ⟨_, rfl, rfl, Caller.delivers_of_text crt malloc htext⟩ h
  · refine iff_of_false ?_ h
    rintro ⟨text, hnone, -⟩
    cases hnone

/-- An item with an array of `n` characters `A`, as a configured `STRING*n` is answered. -/
def exampleChars (n : ℕ) : CharArray where
  item :=
    { szItemID := ascii "S7:[C]DB1,CHAR8,64"
      hClient := 17
      hServer := 1
      wQuality := 0xC0
      vDataValue := ⟨VT_ARRAY + VT_UI1, 0, 0, some ⟨0, List.replicate n 65⟩⟩
      hrOperation := S_OK
      status := ⟨false, false, false, false⟩ }
  array := ⟨0, List.replicate n 65⟩
  quality := by simp [COPCItem.quality]
  vt := .inl rfl
  parray := rfl

/-- With 64 characters the terminator is written behind the buffer of a multiple read. -/
theorem not_delivered_64 :
    ¬ ∀ (crt : Crt) (malloc : ℕ → UInt8) (x : CharArray) (c : Caller),
      ∃ text, arrayText x.array (freshBytes malloc c.size) = some text ∧
        text = cstr x.array.elements ∧ c.Delivers crt malloc x.item text := by
  intro h
  obtain ⟨text, htext, -⟩ := h exampleCrt (fun _ => 0) (exampleChars 64) .getMReadResult
  have hroom : ¬ (List.replicate 64 (65 : UInt8)).length < 64 := by simp
  rw [arrayText_eq, length_freshBytes, if_neg fun h => hroom h.1] at htext
  cases htext

end OpcS7

end Edps
