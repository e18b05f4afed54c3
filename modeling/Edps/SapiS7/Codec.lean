import Edps.SapiS7.Data

/-!
# What SAPI-S7 writes and reads back

Integers are sent as big-endian words.  `Convert2Lng` reads all four bytes of a `LONG` back;
`Convert2Int` sets the upper half of the union to zero, so an `INTEGER` loses its sign.  A
`STRING*n` is sent from where its text stands, `n` bytes of it, into a field of 256 bytes.

* `writeData_integer`, `readData_integer` : the words of integers, written and read.
* `IntegerText.roundTrip_iff` : integers come back exactly when they are a `LONG` or not negative,
  and no request is built behind a late confirmation or from a name that is too long.
* `StringType.conveyed_iff` : a string is refused or sent as its text, padded with zeros, exactly
  when the declared length takes in at most the terminator of the text and fits the field.
-/

namespace Edps

namespace SapiS7

open OpcS7

/-! ### Integers -/

inductive IntegerType where
  | integer
  | long
  deriving DecidableEq, Repr

def IntegerType.name : IntegerType → Bytes
  | .integer => ascii "INTEGER"
  | .long => ascii "LONG"

/-- The bytes of a word. -/
def IntegerType.size : IntegerType → ℕ
  | .integer => 2
  | .long => 4

/-- The bound of the numbers. -/
def IntegerType.bound : IntegerType → ℤ
  | .integer => 32768
  | .long => 2147483648

/-- A number in the range of its type, as a text. -/
structure IntegerText where
  type : IntegerType
  numeral : Decimal.SignedNumeral
  lower : -type.bound ≤ numeral.value
  upper : numeral.value < type.bound

def IntegerText.value (t : IntegerText) : ℤ := t.numeral.value

/-- The text in memory. -/
def IntegerText.inMemory (t : IntegerText) (beyond : ℕ → UInt8) : CString where
  text := ofCodes t.numeral.text
  noNul := by
    intro c hc
    obtain ⟨k, hk, rfl⟩ := List.mem_map.1 hc
    have hcode := Decimal.SignedNumeral.ne_zero_of_mem hk
    rw [ne_eq, ← UInt8.toNat_inj, UInt8.toNat_ofNat', UInt8.toNat_zero]
    omega
  beyond := beyond

/-- The word of the number, in two's complement. -/
def IntegerText.word (t : IntegerText) : List UInt8 := bigEndian t.type.size t.value

theorem IntegerText.toLong_value (t : IntegerText) : toLong t.value = t.value := by
  have hlower := t.lower
  have hupper := t.upper
  refine toLong_eq ?_ ?_ <;> unfold IntegerText.value <;> cases h : t.type <;>
    simp only [h, IntegerType.bound] at hlower hupper <;> omega

theorem convertLng_eq (v : ℤ) : convertLng v = bigEndian 4 v := rfl

theorem convertInt_eq (v : ℤ) : convertInt v = bigEndian 2 v := rfl

/-- The bytes of a variable, read in place. -/
theorem range_map_inMemory {n : ℕ} {bytes : List UInt8} (h : bytes.length = n)
    (behind : ℕ → UInt8) : (List.range n).map (inMemory bytes behind) = bytes := by
  subst h
  refine List.ext_getElem (by simp) fun i hi hi' => ?_
  simp [inMemory, List.getD, hi']

/-- The call of `Write` for a number. -/
def IntegerText.call (t : IntegerText) (stack : ℕ → UInt8) (szItemName : Bytes) : WriteCall :=
  ⟨szItemName, SapiS7.inMemory t.word stack, t.type.size⟩

/-- **A number is handed to `Write` as its word.** -/
theorem writeData_integer (crt : Crt) (stack beyond : ℕ → UInt8) (szItemName : Bytes)
    (t : IntegerText) :
    writeData crt stack szItemName t.type.name (t.inMemory beyond) =
      .ok (t.call stack szItemName) := by
  have hatol : atol (t.inMemory beyond).text = t.value :=
    (atol_signed t.numeral).trans t.toLong_value
  have hne : ascii "INTEGER" ≠ ascii "BIT" ∧ ascii "INTEGER" ≠ ascii "FLOAT" ∧
      ascii "INTEGER" ≠ ascii "LONG" ∧ ascii "LONG" ≠ ascii "BIT" ∧
      ascii "LONG" ≠ ascii "FLOAT" := by decide +kernel
  cases h : t.type with
  | integer =>
    simp only [writeData, IntegerType.name, hne.1, hne.2.1, hne.2.2.1, if_false, if_true, hatol,
      convertInt_eq, IntegerText.call, IntegerText.word, h, IntegerType.size]
    rfl
  | long =>
    simp only [writeData, IntegerType.name, hne.2.2.2.1, hne.2.2.2.2, if_false, if_true, hatol,
      convertLng_eq, IntegerText.call, IntegerText.word, h, IntegerType.size]
    rfl

theorem dw_long (v : ℤ) :
    ((⟨lowByte v, lowByte (v / 256), lowByte (v / 256 / 256), lowByte (v / 256 / 256 / 256)⟩ :
      ConvHeap).dw : ℤ) = v % 4294967296 := by
  have hword := fromBigEndian_bigEndian 4 v
  norm_num [bigEndian, fromBigEndian] at hword
  simp only [ConvHeap.dw]
  push_cast
  rw [← hword]
  ring

/-- `Convert2Lng` undoes `ConvertLng`. -/
theorem convert2Lng_word (v : ℤ) (stack : ℕ → UInt8) :
    convert2Lng (inMemory (bigEndian 4 v) stack) = toLong v := by
  have h₀ : inMemory (bigEndian 4 v) stack 0 = lowByte (v / 256 / 256 / 256) := rfl
  have h₁ : inMemory (bigEndian 4 v) stack 1 = lowByte (v / 256 / 256) := rfl
  have h₂ : inMemory (bigEndian 4 v) stack 2 = lowByte (v / 256) := rfl
  have h₃ : inMemory (bigEndian 4 v) stack 3 = lowByte v := rfl
  rw [convert2Lng, h₀, h₁, h₂, h₃, ConvHeap.l, dw_long]
  exact Int.emod_bmod v 4294967296

/-- `Convert2Int` leaves the sign out. -/
theorem convert2Int_word (v : ℤ) (stack : ℕ → UInt8) :
    convert2Int (inMemory (bigEndian 2 v) stack) = v % 65536 := by
  have hdw : ((⟨lowByte v, lowByte (v / 256), 0, 0⟩ : ConvHeap).dw : ℤ) = v % 65536 := by
    have hword := fromBigEndian_bigEndian 2 v
    norm_num [bigEndian, fromBigEndian] at hword
    simp only [ConvHeap.dw]
    push_cast
    rw [← hword]
    norm_num
    ring
  have h₀ : inMemory (bigEndian 2 v) stack 0 = lowByte (v / 256) := rfl
  have h₁ : inMemory (bigEndian 2 v) stack 1 = lowByte v := rfl
  rw [convert2Int, h₀, h₁, ConvHeap.l, hdw, toLong_eq (by omega) (by omega)]

/-- The number that is read back from its word. -/
def IntegerText.readBack (t : IntegerText) : ℤ :=
  match t.type with
  | .integer => t.value % 65536
  | .long => t.value

/-- **A word read**, whatever stands behind it. -/
theorem readData_integer (gcvt : UInt32 → Bytes) (stack : ℕ → UInt8) (t : IntegerText) :
    readData gcvt t.type.name (fun _ => (t.type.size, SapiS7.inMemory t.word stack)) =
      ((t.type.size : ℤ), some (ofCodes (Decimal.intText t.readBack))) := by
  have hlong := t.toLong_value
  have hne : ascii "INTEGER" ≠ ascii "BIT" ∧ ascii "INTEGER" ≠ ascii "FLOAT" ∧
      ascii "INTEGER" ≠ ascii "LONG" ∧ ascii "LONG" ≠ ascii "BIT" ∧
      ascii "LONG" ≠ ascii "FLOAT" := by decide +kernel
  cases h : t.type with
  | integer =>
    have hnum : toLong (t.value % 65536) = t.value % 65536 := toLong_eq (by omega) (by omega)
    simp only [readData, IntegerType.name, hne.1, hne.2.1, hne.2.2.1, if_false, if_true,
      IntegerText.word, h, IntegerType.size, convert2Int_word, ltoa, hnum, IntegerText.readBack]
    rfl
  | long =>
    simp only [readData, IntegerType.name, hne.2.2.2.1, hne.2.2.2.2, if_false, if_true,
      IntegerText.word, h, IntegerType.size, convert2Lng_word, ltoa, hlong, IntegerText.readBack]
    rfl

theorem IntegerText.readBack_iff (t : IntegerText) :
    t.readBack = t.value ↔ t.type = .long ∨ 0 ≤ t.value := by
  have hlower := t.lower
  have hupper := t.upper
  unfold IntegerText.readBack IntegerText.value
  cases h : t.type with
  | integer =>
    simp only [h, IntegerType.bound] at hlower hupper
    simp only [reduceCtorEq, false_or]
    omega
  | long => simp

/-- The number goes out as its word in every request of a run, and is read back from the word as
its canonical text. -/
structure IntegerText.RoundTrip (t : IntegerText) (crt : Crt) (gcvt : UInt32 → Bytes)
    (stack beyond : ℕ → UInt8) (szItemName : Bytes) (rs : List S7Reply) : Prop where
  sent : ∃ c, writeData crt stack szItemName t.type.name (t.inMemory beyond) = .ok c ∧
    c.Sends (fun varLength value => varLength = t.type.size ∧ value = t.word) rs
  read : readData gcvt t.type.name (fun _ => (t.type.size, SapiS7.inMemory t.word stack)) =
    ((t.type.size : ℤ), some (ofCodes (Decimal.intText t.value)))

/-- The requests of a run are built from a name that fits, with the caller's length. -/
def WriteCall.Unspoiled (c : WriteCall) (rs : List S7Reply) : Prop :=
  c.loop.machine.EachStep
    (fun s r => Builds s r → c.szMemory.length ≤ 33 ∧ s.nBufLen = c.nBufLen) (entry c.nBufLen) rs

/-- The word of the number goes out whenever the caller's length is still there. -/
theorem IntegerText.sends_word_iff (t : IntegerText) (stack : ℕ → UInt8) (szItemName : Bytes)
    (rs : List S7Reply) :
    (t.call stack szItemName).Sends
        (fun varLength value => varLength = t.type.size ∧ value = t.word) rs ↔
      (t.call stack szItemName).Unspoiled rs := by
  have hsize : t.type.size ≤ 256 := by cases t.type <;> decide
  have hmemory : (List.range t.type.size).map (t.call stack szItemName).pDataBuf = t.word :=
    range_map_inMemory (length_bigEndian _ _) stack
  have hlength : (t.call stack szItemName).nBufLen = t.type.size := rfl
  rw [WriteCall.sends_iff, WriteCall.Unspoiled]
  refine Machine.eachStep_congr (fun s r => imp_congr_right fun _ => ?_)
  rw [hlength]
  constructor
  · rintro ⟨hname, hnonneg, -, hsent, -⟩
    exact ⟨hname, by omega⟩
  · rintro ⟨hname, hlen⟩
    have hnat : s.nBufLen.toNat = t.type.size := by omega
    refine ⟨hname, by omega, by omega, hnat, ?_⟩
    rw [hnat, hmemory]

/-- **When an integer makes the round trip.** -/
theorem IntegerText.roundTrip_iff (t : IntegerText) (crt : Crt) (gcvt : UInt32 → Bytes)
    (stack beyond : ℕ → UInt8) (szItemName : Bytes) (rs : List S7Reply) :
    t.RoundTrip crt gcvt stack beyond szItemName rs ↔
      (t.type = .long ∨ 0 ≤ t.value) ∧ (t.call stack szItemName).Unspoiled rs := by
  have hwrite := writeData_integer crt stack beyond szItemName t
  have hread := readData_integer gcvt stack t
  rw [← t.readBack_iff, ← t.sends_word_iff]
  constructor
  · rintro ⟨⟨c, hc, hsends⟩, hback⟩
    rw [hwrite, Except.ok.injEq] at hc
    rw [hread, Prod.mk.injEq, Option.some.injEq] at hback
    subst hc
    exact ⟨ofCodes_intText_injective hback.2, hsends⟩
  · rintro ⟨hback, hsends⟩
    refine ⟨⟨_, hwrite, hsends⟩, ?_⟩
    rw [hread, hback]

/-- `-1` -/
def exampleInteger : IntegerText where
  type := .integer
  numeral := ⟨.minus, [1], by decide, by decide⟩
  lower := by decide
  upper := by decide

/-- A request that is confirmed at once: the replies up to the late one, in time and to a write. -/
def writtenAtOnce : List S7Reply :=
  (lateThenInTime.take 3).map fun r =>
    { r with
      message := if r.message = S7_READ_CNF then S7_WRITE_CNF else r.message, finish := r.start }

/-- It comes back as `65535`. -/
theorem not_roundTrip_exampleInteger :
    ¬ exampleInteger.RoundTrip exampleCrt (fun _ => []) (fun _ => 0) (fun _ => 0) exampleSymbol
      writtenAtOnce := by
  intro h
  have hread := h.read
  rw [readData_integer, Prod.mk.injEq, Option.some.injEq] at hread
  exact absurd (ofCodes_intText_injective hread.2) (by decide)

/-! ### Strings -/

/-- `STRING*n` -/
structure StringType where
  numeral : Decimal.Numeral
  pos : 1 ≤ numeral.value

def StringType.name (t : StringType) : Bytes := ascii "STRING*" ++ ofCodes t.numeral.text

/-- The declared length. -/
def StringType.size (t : StringType) : ℕ := t.numeral.value

/-- A text cut off or filled up with zeros. -/
def padded (n : ℕ) (text : Bytes) : Bytes := text.take n ++ List.replicate (n - text.length) 0

/-- The write is refused, or every request of the run carries the padded text, read from the data
no further than its terminator. -/
def StringType.Conveyed (t : StringType) (crt : Crt) (stack : ℕ → UInt8) (szItemName : Bytes)
    (szData : CString) (rs : List S7Reply) : Prop :=
  (∃ code, writeData crt stack szItemName t.name szData = .error code) ∨
    ∃ c, writeData crt stack szItemName t.name szData = .ok c ∧
      c.Sends (fun varLength value => varLength = t.size ∧ value = padded t.size szData.text ∧
        varLength ≤ szData.text.length + 1) rs

/-- The call of `Write` for a string. -/
def StringType.call (t : StringType) (szItemName : Bytes) (szData : CString) : WriteCall :=
  ⟨szItemName, szData.byte, toLong t.size⟩

/-- Its length is the declared one as `atoi` reads it. -/
theorem StringType.nBufLen_call (t : StringType) (szItemName : Bytes) (szData : CString) :
    (t.call szItemName szData).nBufLen = toLong t.size := by
  simp only [StringType.call]

/-- **A string is refused or handed to `Write` where it stands**, with its declared length. -/
theorem writeData_string (crt : Crt) (stack : ℕ → UInt8) (szItemName : Bytes) (t : StringType)
    (szData : CString) :
    writeData crt stack szItemName t.name szData =
      if 0 < toLong t.size then .ok (t.call szItemName szData) else .error (-5) := by
  have hprefix : t.name.take 7 = ascii "STRING*" := rfl
  have hdrop : t.name.drop 7 = ofCodes t.numeral.text := rfl
  have hne {s : String} (hs : (ascii s).take 7 ≠ ascii "STRING*") : t.name ≠ ascii s :=
    fun h => hs (h ▸ hprefix)
  have hatol : atol (ofCodes t.numeral.text) = toLong t.size := atol_numeral t.numeral
  unfold writeData
  rw [if_neg (hne (by decide +kernel)), if_neg (hne (by decide +kernel)),
    if_neg (hne (by decide +kernel)), if_neg (hne (by decide +kernel)), if_pos hprefix, hdrop,
    hatol]
  rfl

/-- The text with its terminator, as far as it is read. -/
theorem bytes_eq_padded {szData : CString} {n : ℕ} (h : n ≤ szData.text.length + 1) :
    (List.range n).map szData.byte = padded n szData.text := by
  have hbytes : (List.range n).map szData.byte = szData.bytes 0 n := by simp [CString.bytes]
  rw [hbytes, CString.bytes_eq (by omega), List.drop_zero, padded, List.take_append]
  congr 1
  obtain hle | heq := Nat.lt_or_eq_of_le h
  · rw [Nat.sub_eq_zero_of_le (by omega)]
    rfl
  · rw [heq, Nat.add_sub_cancel_left]
    rfl

/-- The padded text goes out whenever the length is the declared one and takes in no more than the
terminator. -/
theorem WriteCall.sends_padded_iff (c : WriteCall) {szData : CString}
    (hdata : c.pDataBuf = szData.byte) (n : ℕ) (rs : List S7Reply) :
    c.Sends (fun varLength value =>
        varLength = n ∧ value = padded n szData.text ∧ varLength ≤ szData.text.length + 1) rs ↔
      c.loop.machine.EachStep (fun s r => Builds s r →
        c.szMemory.length ≤ 33 ∧ s.nBufLen = n ∧ n ≤ 256 ∧ n ≤ szData.text.length + 1)
        (entry c.nBufLen) rs := by
  rw [WriteCall.sends_iff, hdata]
  refine Machine.eachStep_congr (fun s r => imp_congr_right fun _ => ?_)
  constructor
  · rintro ⟨hname, hnonneg, hroom, hsize, -, hlen⟩
    exact ⟨hname, by omega, by omega, by omega⟩
  · rintro ⟨hname, hlen, hroom, hlength⟩
    have hnat : s.nBufLen.toNat = n := by omega
    rw [hnat]
    exact ⟨hname, by omega, by omega, rfl, bytes_eq_padded hlength, hlength⟩

/-- **When a string is sent as it should be.** -/
theorem StringType.conveyed_iff (t : StringType) (crt : Crt) (stack : ℕ → UInt8)
    (szItemName : Bytes) (szData : CString) (rs : List S7Reply) :
    t.Conveyed crt stack szItemName szData rs ↔
      toLong t.size ≤ 0 ∨
        (t.call szItemName szData).loop.machine.EachStep (fun s r => Builds s r →
          szItemName.length ≤ 33 ∧ s.nBufLen = t.size ∧ t.size ≤ 256 ∧
            t.size ≤ szData.text.length + 1) (entry (toLong t.size)) rs := by
  have hwrite := writeData_string crt stack szItemName t szData
  by_cases hpos : 0 < toLong t.size
  · rw [if_pos hpos] at hwrite
    rw [Conveyed, hwrite, or_iff_right (by simp), or_iff_right (Int.not_le.2 hpos)]
    simp only [Except.ok.injEq, exists_eq_left']
    rw [← t.nBufLen_call szItemName szData]
    exact (t.call szItemName szData).sends_padded_iff rfl t.size rs
  · rw [if_neg hpos] at hwrite
    exact iff_of_true (.inl ⟨-5, hwrite⟩) (.inl (Int.not_lt.1 hpos))

/-- `STRING*5` -/
def exampleString : StringType where
  numeral := ⟨[5], by decide, by decide⟩
  pos := by decide

/-- `D`, with other letters behind it. -/
def exampleData : CString := ⟨[0x44], by decide +kernel, fun _ => 0x5a⟩

/-- The three bytes behind the terminator go out too. -/
theorem not_conveyed_exampleString :
    ¬ exampleString.Conveyed exampleCrt (fun _ => 0) exampleSymbol exampleData writtenAtOnce := by
  have hsize : toLong exampleString.size = 5 := toLong_eq (n := 5) (by decide) (by decide)
  have hwrite : writeData exampleCrt (fun _ => 0) exampleSymbol exampleString.name exampleData =
      .ok (exampleString.call exampleSymbol exampleData) := by
    rw [writeData_string, if_pos (by rw [hsize]; decide)]
  rintro (⟨code, h⟩ | ⟨c, h, hsends⟩)
  · rw [hwrite] at h
    cases h
  · rw [hwrite, Except.ok.injEq] at h
    subst h
    rw [WriteCall.sends_padded_iff _ rfl, StringType.nBufLen_call, hsize] at hsends
    have hlength := (hsends.2.1 ⟨rfl, rfl⟩).2.2.2
    exact absurd hlength (by decide)

end SapiS7

end Edps
