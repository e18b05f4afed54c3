import Edps.Lib.Blocks
import Edps.OpcS7.Params
import Mathlib.Algebra.Order.BigOperators.Group.List

/-!
# The buffer of a group name

`GetListName` allocates ten characters for each parameter and writes the name there: the ids, a
comma behind each, and the hash of the item ids as a signed number.  Nothing checks the room.

* `listName` : the name written in its buffer; `none` where a write leaves it.
* `szGroupName` : what the calls get of it.
* `listName_eq` : what stands in the buffer is the name of the group, as far as there is room.
* `listName_isSome_iff` : the name fits exactly when the digits of the ids and the characters of
  the hash are fewer than nine for each parameter.
* `listName_of_many` : with ids of up to eight digits, the names of twelve and more parameters fit.
-/

namespace Edps

namespace OpcS7

/-- The variables of `GetListName`.  `szPtr` is an offset into `szName`. -/
structure NameBuffer where
  dwHash : UInt32
  szName : Bytes
  szPtr : ℕ
  deriving DecidableEq, Repr

/-- One round of the loop: the id of a parameter and a comma. -/
def NameBuffer.addParam (b : NameBuffer) (p : CEdpsParam) : Option NameBuffer := do
  let szName ← writeAt b.szName b.szPtr (ltoa p.dwParID ++ [0])
  -- `while(*szPtr) szPtr++`
  let szPtr := b.szPtr + (cstr (szName.drop b.szPtr)).length
  let szName ← writeAt szName szPtr (ascii ",")
  return ⟨addHash b.dwHash p.szItemId, szName, szPtr + 1⟩

/-- `GetListName` in the buffer it allocates. -/
def listName (malloc : ℕ → UInt8) (params : List CEdpsParam) : Option Bytes :=
  if params = [] then writeAt (freshBytes malloc 1) 0 [0]
  else do
    let b ← params.foldlM NameBuffer.addParam ⟨0, freshBytes malloc (params.length * 10), 0⟩
    writeAt b.szName b.szPtr (ltoa b.dwHash.toNat ++ [0])

/-- The name the calls find their group by: what `GetListName` returns, as a C string.  `none` where
it writes behind its buffer, and what the call does after that is undefined. -/
def szGroupName (params : List CEdpsParam) : Option Bytes :=
  (listName (fun _ => 0) params).map cstr

/-- The part of a name in front of the hash. -/
def idsText (params : List CEdpsParam) : Bytes :=
  params.flatMap fun p => ltoa p.dwParID ++ ascii ","

/-- The hash of the item ids. -/
def listHash (params : List CEdpsParam) : UInt32 :=
  params.foldl (fun h p => addHash h p.szItemId) 0

/-- A buffer filled with a text. -/
structure NameBuffer.Filled (b : NameBuffer) (text : Bytes) : Prop where
  layout : ∃ free, b.szName = text ++ free
  ptr : b.szPtr = text.length

/-! ### One round -/

/-- A text for which there is no room. -/
theorem NameBuffer.Filled.write_none {b : NameBuffer} {text xs : Bytes} (h : b.Filled text)
    (hroom : b.szName.length ≤ text.length + xs.length) :
    writeAt b.szName b.szPtr (xs ++ [0]) = none := by
  refine if_neg ?_
  rw [h.ptr, List.length_append, List.length_singleton]
  omega

theorem NameBuffer.Filled.addParam_none {b : NameBuffer} {text : Bytes} (h : b.Filled text)
    {p : CEdpsParam} (hroom : b.szName.length ≤ text.length + (ltoa p.dwParID).length) :
    b.addParam p = none := by
  rw [NameBuffer.addParam, Option.bind_eq_bind, h.write_none hroom, Option.bind_none]

/-- The id is written, and a comma on its terminator. -/
theorem NameBuffer.Filled.addParam_some {b : NameBuffer} {text : Bytes} (h : b.Filled text)
    {p : CEdpsParam} (hroom : text.length + (ltoa p.dwParID).length < b.szName.length) :
    ∃ b', b.addParam p = some b' ∧ b'.Filled (text ++ (ltoa p.dwParID ++ ascii ",")) ∧
      b'.szName.length = b.szName.length ∧ b'.dwHash = addHash b.dwHash p.szItemId := by
  obtain ⟨free, hfree⟩ := h.layout
  set id := ltoa p.dwParID with hid
  have hlen : (id ++ [0]).length ≤ free.length := by
    rw [hfree, List.length_append] at hroom
    rw [List.length_append, List.length_singleton]
    omega
  set rest := free.drop (id ++ [0]).length with hrest
  have hwrite : writeAt b.szName b.szPtr (id ++ [0]) = some (text ++ (id ++ 0 :: rest)) := by
    rw [hfree, h.ptr, writeAt_append text hlen, List.append_assoc, List.singleton_append]
  have hend : cstr ((text ++ (id ++ 0 :: rest)).drop b.szPtr) = id := by
    rw [h.ptr, List.drop_left, cstr_append_zero fun _ => noNul_ltoa]
  have hcomma : writeAt (text ++ (id ++ 0 :: rest)) (b.szPtr + id.length) (ascii ",") =
      some (text ++ id ++ (ascii "," ++ rest)) := by
    have hlayout : text ++ (id ++ 0 :: rest) = (text ++ id) ++ ([0] ++ rest) := by simp
    refine writeAt_replace hlayout ?_ (by decide +kernel)
    rw [h.ptr, List.length_append]
  refine ⟨⟨addHash b.dwHash p.szItemId, text ++ id ++ (ascii "," ++ rest),
    b.szPtr + id.length + 1⟩, ?_, ⟨⟨rest, by simp only [List.append_assoc]⟩, ?_⟩, ?_, rfl⟩
  · rw [NameBuffer.addParam, ← hid, hwrite]
    simp only [Option.bind_eq_bind, Option.bind_some, hend, hcomma]
    rfl
  · have hone : (ascii ",").length = 1 := by decide +kernel
    simp only [List.length_append, h.ptr, hone]
    omega
  · have hone : (ascii ",").length = 1 := by decide +kernel
    simp only [hfree, hrest, List.length_append, hone, List.length_singleton,
      List.length_drop] at hlen ⊢
    omega

/-! ### The loop -/

/-- The ids as far as there is room for them. -/
theorem NameBuffer.Filled.addParams {b : NameBuffer} {text : Bytes} (h : b.Filled text)
    (params : List CEdpsParam) :
    (b.szName.length < (text ++ idsText params).length ∧
        params.foldlM NameBuffer.addParam b = none) ∨
      ∃ b', params.foldlM NameBuffer.addParam b = some b' ∧ b'.Filled (text ++ idsText params) ∧
        b'.szName.length = b.szName.length ∧
        b'.dwHash = params.foldl (fun h p => addHash h p.szItemId) b.dwHash := by
  induction params generalizing b text with
  | nil => exact .inr ⟨b, rfl, by rwa [idsText, List.flatMap_nil, List.append_nil], rfl, rfl⟩
  | cons p params ih =>
    have hone : (ascii ",").length = 1 := by decide +kernel
    have hcons : text ++ idsText (p :: params) =
        text ++ (ltoa p.dwParID ++ ascii ",") ++ idsText params := by
      simp only [idsText, List.flatMap_cons, List.append_assoc]
    rw [hcons, List.foldlM_cons]
    by_cases hroom : text.length + (ltoa p.dwParID).length < b.szName.length
    · obtain ⟨b₁, hb₁, hfilled, hlen, hhash⟩ := h.addParam_some hroom
      rw [hb₁, Option.bind_eq_bind, Option.bind_some, ← hlen, List.foldl_cons, ← hhash]
      exact ih hfilled
    · left
      rw [h.addParam_none (by omega)]
      refine ⟨?_, rfl⟩
      simp only [List.length_append, hone]
      omega

/-- The name of a group is its ids and its hash. -/
theorem getListName_eq {params : List CEdpsParam} (h : params ≠ []) :
    getListName params = idsText params ++ ltoa (listHash params).toNat := if_neg h

theorem noNul_getListName {params : List CEdpsParam} (h : params ≠ []) :
    ∀ c ∈ getListName params, c ≠ 0 := by
  intro c hc
  rw [getListName_eq h, List.mem_append, idsText, List.mem_flatMap] at hc
  rcases hc with ⟨p, -, hc⟩ | hc
  · rcases List.mem_append.1 hc with hc | hc
    · exact noNul_ltoa hc
    · rintro rfl
      exact absurd hc (by decide +kernel)
  · exact noNul_ltoa hc

/-- **What the buffer of a name holds**: the name, if there is room for it and its terminator. -/
theorem listName_eq (malloc : ℕ → UInt8) {params : List CEdpsParam} (h : params ≠ []) :
    (listName malloc params).map cstr =
      if (getListName params).length < 10 * params.length then some (getListName params)
      else none := by
  have hstart : (⟨0, freshBytes malloc (params.length * 10), 0⟩ : NameBuffer).Filled [] :=
    ⟨⟨_, rfl⟩, rfl⟩
  have hnoNul := noNul_getListName h
  set hash := ltoa (listHash params).toNat with hhash
  rw [getListName_eq h, ← hhash] at hnoNul ⊢
  rw [listName, if_neg h]
  rcases hstart.addParams params with ⟨hlen, hnone⟩ | ⟨b, hb, hfilled, hlen, hbhash⟩
  · rw [List.nil_append, length_freshBytes] at hlen
    rw [hnone, if_neg (by rw [List.length_append]; omega)]
    rfl
  · rw [length_freshBytes] at hlen
    have hb' : b.dwHash = listHash params := hbhash
    obtain ⟨free, hfree⟩ := hfilled.layout
    rw [List.nil_append] at hfree
    have hptr : b.szPtr = (idsText params).length := hfilled.ptr
    rw [hb, Option.bind_eq_bind, Option.bind_some, hb', ← hhash]
    split_ifs with hroom
    · rw [hfree, List.length_append] at hlen
      rw [List.length_append] at hroom
      rw [hfree, hptr, writeAt_append _ (by rw [List.length_append, List.length_singleton]; omega),
        Option.map_some, List.append_assoc, ← List.append_assoc, List.singleton_append]
      exact congrArg some (cstr_append_zero hnoNul _)
    · rw [List.length_append] at hroom
      rw [List.nil_append] at hfilled
      rw [hfilled.write_none (by omega), Option.map_none]

/-- What the memory held before does not show in the name. -/
theorem szGroupName_malloc (malloc : ℕ → UInt8) (params : List CEdpsParam) :
    (listName malloc params).map cstr = szGroupName params := by
  by_cases h : params = []
  · subst h
    rfl
  · rw [szGroupName, listName_eq malloc h, listName_eq _ h]

theorem szGroupName_eq {params : List CEdpsParam} (h : params ≠ []) :
    szGroupName params =
      if (getListName params).length < 10 * params.length then some (getListName params)
      else none :=
  listName_eq _ h

theorem eq_getListName {params : List CEdpsParam} {szName : Bytes}
    (h : szGroupName params = some szName) : szName = getListName params := by
  by_cases hne : params = []
  · subst hne
    cases h
    rfl
  · rw [szGroupName_eq hne] at h
    split_ifs at h
    cases h
    rfl

/-! ### The room a name takes -/

/-- The characters of a signed number. -/
def signedWidth (n : ℤ) : ℕ := (if n < 0 then 1 else 0) + (Decimal.digits n.natAbs).length

theorem length_ltoa (n : ℤ) : (ltoa n).length = signedWidth (toLong n) := by
  rw [ltoa, ofCodes, List.length_map, Decimal.intText, signedWidth, Decimal.natText]
  split_ifs <;> simp [Nat.add_comm]

theorem length_ltoa_id {n : ℕ} (h : n < 2147483648) :
    (ltoa n).length = (Decimal.digits n).length := by
  rw [length_ltoa, toLong_eq (by omega) (by omega), signedWidth, if_neg (by omega), Nat.zero_add,
    Int.natAbs_natCast]

theorem length_idsText {params : List CEdpsParam} (h : ∀ p ∈ params, p.dwParID < 2147483648) :
    (idsText params).length =
      (params.map fun p => (Decimal.digits p.dwParID).length).sum + params.length := by
  have hone : (ascii ",").length = 1 := by decide +kernel
  induction params with
  | nil => rfl
  | cons p params ih =>
    obtain ⟨hp, hrest⟩ := List.forall_mem_cons.1 h
    rw [idsText, List.flatMap_cons, List.length_append, ← idsText, ih hrest, List.length_append,
      length_ltoa_id hp, hone, List.map_cons, List.sum_cons, List.length_cons]
    omega

/-- **When the name of a group fits its buffer.** -/
theorem listName_isSome_iff (malloc : ℕ → UInt8) {params : List CEdpsParam} (h : params ≠ [])
    (hids : ∀ p ∈ params, 0 < p.dwParID ∧ p.dwParID ≤ 2147483647) :
    (listName malloc params).isSome ↔
      (params.map fun p => (Decimal.digits p.dwParID).length).sum +
        signedWidth (toLong (listHash params).toNat) < 9 * params.length := by
  have hlen : (getListName params).length =
      (params.map fun p => (Decimal.digits p.dwParID).length).sum + params.length +
        signedWidth (toLong (listHash params).toNat) := by
    rw [getListName_eq h, List.length_append, length_ltoa,
      length_idsText fun p hp => Nat.lt_succ_of_le (hids p hp).2]
  have hsome : ((listName malloc params).map cstr).isSome = (listName malloc params).isSome :=
    Option.isSome_map
  rw [← hsome, listName_eq malloc h, hlen]
  split_ifs with hroom
  · exact iff_of_true rfl (by omega)
  · exact iff_of_false Bool.false_ne_true (by omega)

/-- One parameter, with the name of an item as the clients write it. -/
def exampleParam : CEdpsParam := ⟨1, ascii "S7:[CPU1]DB10,REAL20", .empty⟩

/-- An id of one digit, its comma, a hash of eight digits and the terminator do not fit ten
characters. -/
theorem listName_exampleParam :
    ¬ ∀ (malloc : ℕ → UInt8) (params : List CEdpsParam), params ≠ [] →
      (∀ p ∈ params, 0 < p.dwParID ∧ p.dwParID ≤ 2147483647) →
      (listName malloc params).isSome := by
  intro h
  have hnone : listName (fun _ => 0) [exampleParam] = none := by decide +kernel
  have hsome := h (fun _ => 0) [exampleParam] (by simp) (by decide)
  rw [hnone] at hsome
  cases hsome

/-- A parameter without an item id, whose hash is zero. -/
theorem listName_isSome_nameless :
    (listName (fun _ => 0) [⟨1, [], .empty⟩]).isSome :=
  (listName_isSome_iff (fun _ => 0) (by simp) (by simp)).2 (by decide +kernel)

/-- **Many parameters.**  The room that short ids leave is enough for the hash. -/
theorem listName_of_many (malloc : ℕ → UInt8) {params : List CEdpsParam}
    (h : 12 ≤ params.length) (hids : ∀ p ∈ params, p.dwParID < 100000000) :
    (listName malloc params).isSome := by
  have hne : params ≠ [] := by
    rintro rfl
    simp at h
  have hids' : (idsText params).length ≤ 9 * params.length := by
    rw [length_idsText fun p hp => (hids p hp).trans (by decide)]
    have hsum := List.sum_le_card_nsmul (params.map fun p => (Decimal.digits p.dwParID).length) 8
      (by
        intro n hn
        obtain ⟨p, hp, rfl⟩ := List.mem_map.1 hn
        exact Decimal.length_digits_le (by decide) (hids p hp))
    rw [List.length_map, Nat.nsmul_eq_mul] at hsum
    omega
  have hhash : (ltoa (listHash params).toNat).length ≤ 11 := by
    have hlong : (toLong (listHash params).toNat).natAbs < 10 ^ 10 := by
      rw [toLong, Int.bmod_def]
      omega
    rw [ltoa, ofCodes, List.length_map]
    exact Decimal.length_intText_le (by decide) hlong
  have hsome : ((listName malloc params).map cstr).isSome = (listName malloc params).isSome :=
    Option.isSome_map
  rw [← hsome, listName_eq malloc hne, getListName_eq hne, List.length_append, if_pos (by omega)]
  rfl

end OpcS7

end Edps
