import Edps.OpcS7.Registered

/-!
# Reads that fail as a whole

When `IOPCSyncIO::Read` fails it returns no states.  `SetReadValue` looks into the states to find
the items they belong to, before it looks at the code of the failure, so a failed read ends in the
exception handler of the call and none of its items is updated.

* `FailingReplies` : a server whose reads fail.
* `Absorbed` : a failed read that is put down in its items.
* `readItems_failed` : what is left of a read that fails.
* `absorbed_iff` : a failed read is absorbed only where none was made.
* `asked_again` : the items of a failed read are asked for by the next single read.
-/

namespace Edps

namespace OpcS7

/-- A server whose reads fail: no read gives states back. -/
structure FailingReplies extends Replies where
  read_fails : ∀ its, failed (read its).hr = true
  read_states : ∀ its, (read its).states = none

/-- An item after a failed read with the code `hr`. -/
structure COPCItem.ReadFailed (it : COPCItem) (hr : HRESULT) : Prop where
  unread : it.status.forRead = false
  quality : it.wQuality = 0
  code : it.hrOperation = hr

/-- `ReadItems` absorbs the failure of its read: it comes to an end, puts the failure down in the
items that were asked for, and lets the multiple read it belongs to return -5. -/
structure Absorbed (g : COPCGroup) (r : Replies) : Prop where
  completes : (g.readItems r).2.2 ≠ none
  items : List.Forall₂ (fun it' it => if chosen2Read false it
      then it'.ReadFailed (r.read (g.items.filter (chosen2Read false))).hr else it' = it)
    (g.readItems r).1.items g.items
  call : g.items.filter (chosen2Read false) ≠ [] → ∀ crt params g₀ n,
    findOrAddItemsToGroup r params true g₀ = (g, n) → n ≠ -2 →
      (mreadCall crt r params g₀).2.ret = some (-5)

/-! ### What is left -/

/-- **A read that fails** ends in an exception and leaves the group as it was, with its items still
chosen. -/
theorem readItems_failed (g : COPCGroup) (r : FailingReplies)
    (hasked : g.items.filter (chosen2Read false) ≠ []) :
    g.readItems r.toReplies = (g, g.items.filter (chosen2Read false), none) := by
  unfold COPCGroup.readItems
  rw [getItems2Read_false]
  simp only [if_neg hasked, r.read_states]

/-- Without an item that is chosen nothing is read. -/
theorem readItems_none (g : COPCGroup) (r : Replies)
    (hasked : g.items.filter (chosen2Read false) = []) :
    g.readItems r = (g, [], some S_FALSE) := by
  unfold COPCGroup.readItems
  rw [getItems2Read_false]
  simp only [if_pos hasked]

/-- A multiple read that fails returns the code of an exception. -/
theorem mreadCall_failed (crt : Crt) (r : FailingReplies) {params : List CEdpsParam}
    {g g₁ : COPCGroup} {n : ℤ} (h : findOrAddItemsToGroup r.toReplies params true g = (g₁, n))
    (hn : n ≠ -2) (hasked : g₁.items.filter (chosen2Read false) ≠ []) :
    mreadCall crt r.toReplies params g = (g₁, ⟨some (-10), none,
      g₁.items.filter (chosen2Read false), [], g₁.registered⟩) := by
  rw [mreadCall, h]
  simp only [if_neg hn, readItems_failed g₁ r hasked]

/-- **A failed read is absorbed** only where there was none to make. -/
theorem absorbed_iff (g : COPCGroup) (r : FailingReplies) :
    Absorbed g r.toReplies ↔ ∀ it ∈ g.items, chosen2Read false it = false := by
  have hnone : g.items.filter (chosen2Read false) = [] ↔
      ∀ it ∈ g.items, chosen2Read false it = false := by
    simp [List.filter_eq_nil_iff]
  rw [← hnone]
  constructor
  · intro h
    by_contra hasked
    exact h.completes (by rw [readItems_failed g r hasked])
  · intro hasked
    refine ⟨?_, ?_, fun h => absurd hasked h⟩
    · rw [readItems_none g r.toReplies hasked]
      exact Option.some_ne_none _
    · rw [readItems_none g r.toReplies hasked]
      refine List.forall₂_same.2 fun it hit => ?_
      rw [if_neg (by simp [hnone.1 hasked it hit])]

/-! ### The next read -/

/-- **The items of a failed read** are asked for by the next single read of the group, whatever
item it is for. -/
theorem asked_again {crt : Crt} {r : Replies} {bsConn bsItem : Bytes} {g : COPCGroup} {p : ℕ}
    (h : findOrAddSingle crt r (itemName (cstr bsConn) (cstr bsItem)) g = (g, .ok p))
    {it : COPCItem} (hit : it ∈ g.items) (hchosen : chosen2Read false it = true) :
    ∃ it' ∈ (readCall crt r bsConn bsItem g).2.read, it'.registration = it.registration := by
  obtain ⟨g₂, rfl, -, ret, data, hlog⟩ := readCall_ok h
  rw [hlog]
  obtain ⟨i, hi⟩ := List.mem_iff_getElem?.1 hit
  have hread : chosen2Read false it.itemForRead = true := by
    simp only [chosen2Read, Bool.and_eq_true] at hchosen ⊢
    exact ⟨hchosen.1, rfl⟩
  have hafter : (g.modifyItem COPCItem.itemForRead p).items[i]? =
      some (if p = i then it.itemForRead else it) := by
    simp only [COPCGroup.modifyItem, List.getElem?_modify, hi]
    rfl
  refine ⟨_, List.mem_filter.2 ⟨List.mem_of_getElem? hafter, ?_⟩, ?_⟩
  · split_ifs
    · exact hread
    · exact hchosen
  · split_ifs <;> rfl

/-- A server that registers every item and fails every read. -/
def failingReplies : FailingReplies where
  toReplies := { exampleReplies S_OK with read := fun _ => ⟨-2147467259, none, fun _ => S_OK⟩ }
  read_fails _ := rfl
  read_states _ := rfl

/-- A group with a word that is about to be read. -/
def wordToRead : COPCGroup :=
  ⟨rdGroupName, [⟨ascii "S7:[C]DB1,W0", 1, 1, 0, .empty, S_OK, ⟨false, true, false, false⟩⟩],
    [⟨ascii "S7:[C]DB1,W0", 1, 1⟩]⟩

/-- The read of a word fails; the read of another one then asks for both. -/
theorem not_absorbed_word :
    ¬ Absorbed wordToRead failingReplies.toReplies ∧
      ((sapi exampleCrt).outs .init
          [(.read (ascii "C") (ascii "DB1,W0"), failingReplies.toReplies),
            (.read (ascii "C") (ascii "DB1,W2"), exampleReplies S_OK)]).map
          (fun log => (log.ret, log.read.map COPCItem.szItemID)) =
        [(some (-10), [ascii "S7:[C]DB1,W0"]),
          (some 0, [ascii "S7:[C]DB1,W0", ascii "S7:[C]DB1,W2"])] := by
  refine ⟨fun h => h.completes ?_, by decide +kernel⟩
  rw [readItems_failed wordToRead failingReplies (by decide)]

end OpcS7

end Edps
