import Edps.Lib.Blocks
import Edps.OpcS7.Params

/-!
# The buffer of an answer

`GetMReadResult` writes the pairs of an answer into a buffer that starts with twenty bytes for
each parameter and grows when the next pair does not fit.  The text of a value is made in a
buffer of its own, of 64 characters.

* `mreadResult` : the answer written in its buffer.
* `mreadResult_eq` : it is the text of `getMReadResult`, and no write leaves the buffer.
* `getValueVariant_eq` : the buffer of a value holds it exactly when the array it comes from has
  fewer than 64 elements.
-/

namespace Edps

namespace OpcS7

variable (crt : Crt)

/-- `szResult` with `nBufPos`.  The length of the buffer is `nBufLen`. -/
structure ResultBuffer where
  szResult : Bytes
  nBufPos : ℕ
  deriving DecidableEq, Repr

/-- A pair of the answer, with the `realloc` before it. -/
def ResultBuffer.append (malloc : ℕ → UInt8) (b : ResultBuffer) (szId pszData : Bytes) :
    Option ResultBuffer := do
  let nLen := szId.length
  let nLenD := pszData.length
  let szResult :=
    if b.szResult.length - b.nBufPos < nLen + nLenD + 7 then
      b.szResult ++ freshBytes malloc (nLen + nLenD + 100)
    else b.szResult
  let pPosId := b.nBufPos
  let pPosDt := b.nBufPos + nLen + 3
  let nBufPos := b.nBufPos + (nLen + nLenD + 6)
  let szResult ← writeAt szResult nBufPos [0]
  let szResult ← writeAt szResult (pPosId + 3) szId
  let szResult ← writeAt szResult pPosId (lengthText nLen)
  let szResult ← writeAt szResult (pPosDt + 3) pszData
  let szResult ← writeAt szResult pPosDt (lengthText nLenD)
  return ⟨szResult, nBufPos⟩

/-- The loop of `GetMReadResult`. -/
def mreadPairs (malloc : ℕ → UInt8) (items : List COPCItem) :
    List CEdpsParam → ResultBuffer → ℕ → Option (ResultBuffer × ℕ)
  | [], b, dwOk => some (b, dwOk)
  | p :: params, b, dwOk => do
    let (pszData, good) ←
      getValueVariant crt 64 (items.find? fun it => it.hClient = p.dwParID)
    let b ← b.append malloc (ltoa p.dwParID) pszData
    mreadPairs malloc items params b (dwOk + if good then 1 else 0)

/-- `GetMReadResult` in its buffer: the text, `NULL` when no value is good, and the number of good
values. -/
def mreadResult (malloc : ℕ → UInt8) (items : List COPCItem) (params : List CEdpsParam) :
    Option (Option Bytes × ℕ) := do
  let (b, dwOk) ←
    mreadPairs crt malloc items params ⟨freshBytes malloc (params.length * 20), 0⟩ 0
  return (if dwOk ≠ 0 then some (b.szResult.take b.nBufPos) else none, dwOk)

/-! ### A pair -/

/-- A buffer filled with a text. -/
structure ResultBuffer.Filled (b : ResultBuffer) (text : Bytes) : Prop where
  layout : ∃ free, b.szResult = text ++ free
  pos : b.nBufPos = text.length

theorem ResultBuffer.Filled.take {b : ResultBuffer} {text : Bytes} (h : b.Filled text) :
    b.szResult.take b.nBufPos = text := by
  obtain ⟨free, hfree⟩ := h.layout
  rw [hfree, h.pos, List.take_left]

theorem length_lengthText (n : ℕ) : (lengthText n).length = 3 := by simp [lengthText, ofCodes]

/-- A list cut behind its first `n` elements. -/
theorem exists_cut (free : Bytes) (n : ℕ) (h : n ≤ free.length) :
    ∃ front rest, free = front ++ rest ∧ front.length = n ∧ rest.length = free.length - n :=
  ⟨free.take n, free.drop n, (List.take_append_drop n free).symm, by simpa using h,
    List.length_drop⟩

/-- **A pair is appended**, and no write leaves the buffer. -/
theorem ResultBuffer.Filled.append {b : ResultBuffer} {text : Bytes} (h : b.Filled text)
    (malloc : ℕ → UInt8) (szId pszData : Bytes) :
    ∃ b', b.append malloc szId pszData = some b' ∧
      b'.Filled (text ++ (framed szId ++ framed pszData)) := by
  obtain ⟨free, hfree, hroom⟩ : ∃ free,
      (if b.szResult.length - b.nBufPos < szId.length + pszData.length + 7 then
          b.szResult ++ freshBytes malloc (szId.length + pszData.length + 100)
        else b.szResult) = text ++ free ∧ szId.length + pszData.length + 7 ≤ free.length := by
    obtain ⟨free, hfree⟩ := h.layout
    rw [hfree, h.pos]
    split_ifs with hshort
    · refine ⟨free ++ freshBytes malloc (szId.length + pszData.length + 100),
        List.append_assoc .., ?_⟩
      rw [List.length_append, length_freshBytes]
      omega
    · refine ⟨free, rfl, ?_⟩
      rw [List.length_append] at hshort
      omega
  -- the places of the two lengths, the two texts and the terminator
  obtain ⟨h₁, free₁, rfl, hh₁, hfree₁⟩ := exists_cut free 3 (by omega)
  obtain ⟨t₁, free₂, rfl, ht₁, hfree₂⟩ := exists_cut free₁ szId.length (by omega)
  obtain ⟨h₂, free₃, rfl, hh₂, hfree₃⟩ := exists_cut free₂ 3 (by omega)
  obtain ⟨t₂, free₄, rfl, ht₂, hfree₄⟩ := exists_cut free₃ pszData.length (by omega)
  obtain ⟨z, rest, rfl, hz, -⟩ := exists_cut free₄ 1 (by omega)
  clear hfree₁ hfree₂ hfree₃ hfree₄ hroom
  have hlen₁ := length_lengthText szId.length
  have hlen₂ := length_lengthText pszData.length
  have hend : writeAt (text ++ (h₁ ++ (t₁ ++ (h₂ ++ (t₂ ++ (z ++ rest))))))
      (b.nBufPos + (szId.length + pszData.length + 6)) [0] =
        some (text ++ h₁ ++ t₁ ++ h₂ ++ t₂ ++ ([0] ++ rest)) := by
    refine writeAt_replace (by simp only [List.append_assoc]) ?_ hz
    simp only [List.length_append, h.pos, hh₁, ht₁, hh₂, ht₂]
    omega
  have hid : writeAt (text ++ h₁ ++ t₁ ++ h₂ ++ t₂ ++ ([0] ++ rest)) (b.nBufPos + 3) szId =
      some (text ++ h₁ ++ (szId ++ (h₂ ++ t₂ ++ ([0] ++ rest)))) := by
    refine writeAt_replace (by simp only [List.append_assoc]) ?_ ht₁
    simp only [List.length_append, h.pos, hh₁]
  have hidLen : writeAt (text ++ h₁ ++ (szId ++ (h₂ ++ t₂ ++ ([0] ++ rest)))) b.nBufPos
      (lengthText szId.length) =
        some (text ++ (lengthText szId.length ++ (szId ++ (h₂ ++ t₂ ++ ([0] ++ rest))))) :=
    writeAt_replace (by simp only [List.append_assoc]) h.pos (hh₁.trans hlen₁.symm)
  have hdata : writeAt (text ++ (lengthText szId.length ++ (szId ++ (h₂ ++ t₂ ++ ([0] ++ rest)))))
      (b.nBufPos + szId.length + 3 + 3) pszData =
        some (text ++ lengthText szId.length ++ szId ++ h₂ ++ (pszData ++ ([0] ++ rest))) := by
    refine writeAt_replace (by simp only [List.append_assoc]) ?_ ht₂
    simp only [List.length_append, h.pos, hlen₁, hh₂]
    omega
  have hdataLen : writeAt (text ++ lengthText szId.length ++ szId ++ h₂ ++
      (pszData ++ ([0] ++ rest))) (b.nBufPos + szId.length + 3) (lengthText pszData.length) =
        some (text ++ lengthText szId.length ++ szId ++
          (lengthText pszData.length ++ (pszData ++ ([0] ++ rest)))) := by
    refine writeAt_replace (by simp only [List.append_assoc]) ?_ (hh₂.trans hlen₂.symm)
    simp only [List.length_append, h.pos, hlen₁]
    omega
  refine ⟨⟨text ++ lengthText szId.length ++ szId ++
    (lengthText pszData.length ++ (pszData ++ ([0] ++ rest))),
    b.nBufPos + (szId.length + pszData.length + 6)⟩, ?_, ⟨[0] ++ rest, ?_⟩, ?_⟩
  · simp only [ResultBuffer.append, hfree, hend, hid, hidLen, hdata, hdataLen, Option.bind_eq_bind,
      Option.bind_some]
    rfl
  · simp only [framed, List.append_assoc]
  · simp only [List.length_append, length_framed, h.pos]
    omega

/-! ### The answer -/

variable {crt}

theorem mreadPairs_cons {malloc : ℕ → UInt8} {items : List COPCItem} {p : CEdpsParam}
    {params : List CEdpsParam} {b b₁ : ResultBuffer} {dwOk : ℕ} {data : Bytes} {good : Bool}
    (hvalue : getValueVariant crt 64 (items.find? fun it => it.hClient = p.dwParID) =
      some (data, good)) (happend : b.append malloc (ltoa p.dwParID) data = some b₁) :
    mreadPairs crt malloc items (p :: params) b dwOk =
      mreadPairs crt malloc items params b₁ (dwOk + if good then 1 else 0) := by
  rw [mreadPairs, hvalue, Option.bind_eq_bind, Option.bind_some]
  show (b.append malloc (ltoa p.dwParID) data >>= fun b =>
    mreadPairs crt malloc items params b (dwOk + if good then 1 else 0)) = _
  rw [happend, Option.bind_eq_bind, Option.bind_some]

theorem getMReadResult_cons {items : List COPCItem} {p : CEdpsParam}
    {params : List CEdpsParam} {data : Bytes} {good : Bool}
    (hvalue : getValueVariant crt 64 (items.find? fun it => it.hClient = p.dwParID) =
      some (data, good)) :
    getMReadResult crt items (p :: params) = (getMReadResult crt items params).map fun r =>
      (framed (ltoa p.dwParID) ++ framed data ++ r.1, (if good then 1 else 0) + r.2) := by
  rw [getMReadResult, hvalue, Option.bind_eq_bind, Option.bind_some]
  cases getMReadResult crt items params with
  | none => rfl
  | some r => rfl

/-- The pairs are appended one after the other, as far as their values are rendered. -/
theorem mreadPairs_eq (malloc : ℕ → UInt8) (items : List COPCItem) (params : List CEdpsParam)
    {b : ResultBuffer} {text : Bytes} (h : b.Filled text) (dwOk : ℕ) :
    (getMReadResult crt items params = none ∧ mreadPairs crt malloc items params b dwOk = none) ∨
      ∃ rest n b', getMReadResult crt items params = some (rest, n) ∧
        mreadPairs crt malloc items params b dwOk = some (b', dwOk + n) ∧
        b'.Filled (text ++ rest) := by
  induction params generalizing b text dwOk with
  | nil => exact .inr ⟨[], 0, b, rfl, rfl, by rwa [List.append_nil]⟩
  | cons p params ih =>
    cases hvalue : getValueVariant crt 64 (items.find? fun it => it.hClient = p.dwParID) with
    | none => exact .inl ⟨by rw [getMReadResult, hvalue]; rfl, by rw [mreadPairs, hvalue]; rfl⟩
    | some value =>
      obtain ⟨data, good⟩ := value
      obtain ⟨b₁, happend, hfilled⟩ := h.append malloc (ltoa p.dwParID) data
      rw [getMReadResult_cons hvalue, mreadPairs_cons hvalue happend]
      rcases ih hfilled (dwOk + if good then 1 else 0) with
        ⟨hnone, hpairs⟩ | ⟨rest, n, b', hrest, hpairs, hfilled'⟩
      · exact .inl ⟨by rw [hnone, Option.map_none], hpairs⟩
      · refine .inr ⟨_, _, b', by rw [hrest, Option.map_some], ?_, ?_⟩
        · rw [hpairs, Nat.add_assoc]
        · rwa [List.append_assoc] at hfilled'

/-- **The answer in its buffer** is the text of the pairs, whatever the memory held before; no
write leaves the buffer. -/
theorem mreadResult_eq (malloc : ℕ → UInt8) (items : List COPCItem) (params : List CEdpsParam) :
    mreadResult crt malloc items params = (getMReadResult crt items params).map fun r =>
      (if r.2 ≠ 0 then some r.1 else none, r.2) := by
  have hstart : (⟨freshBytes malloc (params.length * 20), 0⟩ : ResultBuffer).Filled [] :=
    ⟨⟨_, rfl⟩, rfl⟩
  rcases mreadPairs_eq malloc items params hstart 0 with
    ⟨hnone, hpairs⟩ | ⟨rest, n, b, hrest, hpairs, hfilled⟩
  · rw [mreadResult, hpairs, hnone]
    rfl
  · rw [mreadResult, hpairs, hrest, Nat.zero_add]
    have htake := hfilled.take
    rw [List.nil_append] at htake
    simp [htake]

/-! ### The buffer of a value -/

/-- The array `GetValueVariant` copies, element by element. -/
def copiedArray : Option COPCItem → Option SafeArray
  | some it =>
    if it.quality ∧
        (it.vDataValue.vt = VT_ARRAY + VT_UI1 ∨ it.vDataValue.vt = VT_ARRAY + VT_I1) then
      it.vDataValue.parray
    else none
  | none => none

/-- The text of an array. -/
theorem variantText_array {var : Variant}
    (h : var.vt = VT_ARRAY + VT_UI1 ∨ var.vt = VT_ARRAY + VT_I1) (size : ℕ) :
    variantText crt size var = match var.parray with
      | none => some ([], true)
      | some a =>
        if a.elements.length < size ∧ (a.lLbound = 0 ∨ a.elements = []) then
          some (cstr a.elements, true)
        else none := by
  have hne : ∀ vt ∈ [VT_BOOL, VT_R4, VT_R8, VT_I2, VT_I4, VT_INT, VT_UI2, VT_UI4, VT_UINT],
      var.vt ≠ vt := by
    rcases h with h | h <;> rw [h] <;> decide
  simp only [List.forall_mem_cons] at hne
  obtain ⟨h₁, h₂, h₃, h₄, h₅, h₆, h₇, h₈, h₉, -⟩ := hne
  cases hparray : var.parray <;>
    simp only [variantText, h₁, h₂, h₃, h₄, h₅, h₆, h₇, h₈, h₉, h, hparray, or_self, if_true,
      if_false]

/-- The other texts need no more room in one buffer than in another. -/
theorem variantText_scalar {var : Variant}
    (h : ¬ (var.vt = VT_ARRAY + VT_UI1 ∨ var.vt = VT_ARRAY + VT_I1)) (size size' : ℕ) :
    variantText crt size var = variantText crt size' var := by
  simp only [variantText, if_neg h]

/-- **A value that is rendered in some buffer** is rendered in a buffer of another size exactly
when its array has fewer elements. -/
theorem getValueVariant_eq {size : ℕ} {pItem : Option COPCItem} {r : Bytes × Bool}
    (h : getValueVariant crt size pItem = some r) (size' : ℕ) :
    getValueVariant crt size' pItem =
      if ∀ a ∈ copiedArray pItem, a.elements.length < size' then some r else none := by
  cases pItem with
  | none =>
    rw [if_pos (by simp [copiedArray])]
    exact h
  | some it =>
    by_cases hq : it.quality = true
    · simp only [getValueVariant, hq, if_true] at h ⊢
      by_cases harr : it.vDataValue.vt = VT_ARRAY + VT_UI1 ∨ it.vDataValue.vt = VT_ARRAY + VT_I1
      · have hcopied : copiedArray (some it) = it.vDataValue.parray := by
          rw [copiedArray, if_pos ⟨hq, harr⟩]
        rw [variantText_array harr] at h ⊢
        rw [hcopied]
        cases hparray : it.vDataValue.parray with
        | none =>
          rw [hparray] at h
          simpa using h
        | some a =>
          rw [hparray] at h
          simp only [Option.mem_def, Option.some.injEq, forall_eq'] at h ⊢
          split_ifs at h with hroom
          rw [← h]
          simp only [hroom.2, and_true]
      · have hcopied : copiedArray (some it) = none := by
          rw [copiedArray, if_neg fun h => harr h.2]
        rw [hcopied, if_pos (by simp), variantText_scalar harr size' size]
        exact h
    · have hcopied : copiedArray (some it) = none := by
        rw [copiedArray, if_neg fun h => hq h.1]
      rw [hcopied, if_pos (by simp)]
      simp only [getValueVariant, hq] at h ⊢
      exact h

end OpcS7

end Edps
