import Edps.Lib.Decimal

/-!
# Windows: C strings, result codes, VARIANTs

The part of Windows and of the C run time that the OPC client uses.  Texts are byte strings; a
`VARIANT` is its type tag and the bits of its value, since the client reads the union through
whatever member its own table of types names.

What is taken from the machine, the formatting and reading of floating-point numbers, the comparison
of wide strings and the room for arrays, is a `Crt`.
-/

namespace Edps

namespace OpcS7

/-- The bytes of a string, without a terminator. -/
abbrev Bytes := List UInt8

/-- A string literal. -/
def ascii (s : String) : Bytes := s.toList.map fun c => c.toNat.toUInt8

/-- A text of ASCII codes. -/
def ofCodes (cs : List ℕ) : Bytes := cs.map UInt8.ofNat

/-- What a C function sees of a buffer: the bytes before the first zero. -/
def cstr (b : Bytes) : Bytes := b.takeWhile (· ≠ 0)

/-- The memory of a `BSTR`: its bytes, and a terminator of two. -/
def bstr (s : Bytes) : Bytes := s ++ [0, 0]

theorem bstr_append (s t : Bytes) : bstr (s ++ t) = s ++ bstr t := List.append_assoc s t [0, 0]

@[simp] theorem length_bstr (s : Bytes) : (bstr s).length = s.length + 2 := List.length_append

/-- Memory as it comes from the heap. -/
def freshBytes (malloc : ℕ → UInt8) (n : ℕ) : Bytes := (List.range n).map malloc

@[simp] theorem length_freshBytes (malloc : ℕ → UInt8) (n : ℕ) :
    (freshBytes malloc n).length = n := by
  simp [freshBytes]

/-! ### Result codes -/

/-- `HRESULT` -/
abbrev HRESULT := ℤ

def S_OK : HRESULT := 0

def S_FALSE : HRESULT := 1

def E_NOTIMPL : HRESULT := -2147467263

def succeeded (hr : HRESULT) : Bool := 0 ≤ hr

def failed (hr : HRESULT) : Bool := hr < 0

/-! ### Numbers and texts -/

/-- A whole number in the 32 bits of a `long`. -/
def toLong (n : ℤ) : ℤ := n.bmod (2 ^ 32)

/-- A whole number in the 32 bits of a `ULONG`. -/
def toULong (n : ℤ) : ℕ := (n % 2 ^ 32).toNat

/-- `_ltoa(n, buffer, 10)` -/
def ltoa (n : ℤ) : Bytes := ofCodes (Decimal.intText (toLong n))

def isSpace (c : UInt8) : Bool := c = 32 ∨ 9 ≤ c ∧ c ≤ 13

def isDigit (c : UInt8) : Bool := 48 ≤ c ∧ c ≤ 57

/-- The number of the leading digits, accumulated. -/
def atolDigits (s : Bytes) : ℤ :=
  (s.takeWhile isDigit).foldl (fun total c => toLong (10 * total + (c.toNat - 48))) 0

/-- `atol(s)`, also `atoi(s)`: blanks, a sign, digits; overflow wraps. -/
def atol (s : Bytes) : ℤ :=
  match s.dropWhile isSpace with
  | 45 :: rest => toLong (-atolDigits rest)
  | 43 :: rest => atolDigits rest
  | rest => atolDigits rest

/-! ### VARIANTs -/

/-- `SAFEARRAY` of bytes with one dimension. -/
structure SafeArray where
  lLbound : ℤ
  elements : Bytes
  deriving DecidableEq, Repr

/-- `VARTYPE` -/
abbrev VarType := ℕ

def VT_EMPTY : VarType := 0

def VT_I2 : VarType := 2

def VT_I4 : VarType := 3

def VT_R4 : VarType := 4

def VT_R8 : VarType := 5

def VT_BOOL : VarType := 11

def VT_I1 : VarType := 16

def VT_UI1 : VarType := 17

def VT_UI2 : VarType := 18

def VT_UI4 : VarType := 19

def VT_INT : VarType := 22

def VT_UINT : VarType := 23

def VT_ARRAY : VarType := 0x2000

/-- `VARIANT` -/
structure Variant where
  vt : VarType
  /-- The first four bytes of the value: `lVal`, `ulVal`, `fltVal`, and in its lower half
  `boolVal`. -/
  low : UInt32
  /-- The next four bytes, of `dblVal`. -/
  high : UInt32
  /-- `parray` -/
  parray : Option SafeArray
  deriving DecidableEq, Repr

/-- `VariantInit`, also `VariantClear` -/
def Variant.empty : Variant := ⟨VT_EMPTY, 0, 0, none⟩

/-- `lVal` -/
def Variant.lVal (v : Variant) : ℤ := v.low.toInt32.toInt

/-- `ulVal`, passed to a function of a `long`. -/
def Variant.ulVal (v : Variant) : ℤ := v.low.toNat

/-- `boolVal` -/
def Variant.boolVal (v : Variant) : UInt16 := v.low.toUInt16

/-- A number in the first four bytes. -/
def ofLong (vt : VarType) (n : ℤ) : Variant := ⟨vt, UInt32.ofInt n, 0, none⟩

/-- What the C run time and Windows compute on the machine they run on. -/
structure Crt where
  /-- `(float) atof(s)`, the bits of the `float`. -/
  atof : Bytes → UInt32
  /-- `_gcvt((double) x, 8, buffer)` of the bits of a `float`. -/
  gcvtFloat : UInt32 → Bytes
  /-- `_gcvt(x, 12, buffer)` of the two halves of a `double`. -/
  gcvtDouble : UInt32 → UInt32 → Bytes
  /-- `lstrcmpW(s, t) == 0`, on the wide forms of two texts. -/
  lstrcmpW : Bytes → Bytes → Bool
  /-- Whether `SafeArrayCreate` makes an array of so many bytes. -/
  safeArrayCreate : ℕ → Bool

end OpcS7

end Edps
