import Edps.Lib.Cells
import Edps.Lib.Lockstep
import Mathlib.Data.Int.Notation
import Mathlib.Data.List.Perm.Basic

/-!
# The array of a list of objects

`CCObjectList` keeps pointers to objects in an array that it makes larger when it is full, and
closes the gap when an object is removed.  Sizes, counts and the cursor are `UINT`s, the objects
count their references in a `LONG`.  The groups of the client and the items of a group are in such
lists.

* `World.add`, `World.remove`, `World.first`, `World.next`, `World.index` : the list, with every
  access to its array.
* `Sequence` : what a list is meant to be.
* `Fits` : no call makes a number or the array too small.
* `objectList_iff` : a list is in step with its sequence, inside its array, exactly as long as every
  call fits.
-/

namespace Edps

namespace OpcS7

namespace ObjectList

/-- `CCObjectList`.  Objects are their addresses; the array is memory from its start on, of which
`nMaxCount` cells have been allocated, however many these are. -/
structure CCObjectList where
  ppOArray : ℕ → ℕ
  nCount : UInt32
  nPtr : UInt32
  nMaxCount : UInt32
  nAddSize : UInt32

/-- A list, the reference counts of all objects and those that have deleted themselves; and the
accesses to the array so far, each with the size the array had. -/
structure World extends CCObjectList where
  nRefCount : ℕ → Int32
  deleted : List ℕ
  accesses : List (ℕ × ℕ)

/-- What a call returns. -/
inductive Reply where
  | done
  | removed (b : Bool)
  | object (p : Option ℕ)
  deriving DecidableEq, Repr

/-- The constructor, which gets an array with anything in it. -/
def World.new (fresh : ℕ → ℕ) (nRefCount : ℕ → Int32) (nInitSize nAddSize : UInt32) : World where
  ppOArray := fresh
  nCount := 0
  nPtr := 0
  nMaxCount := if nInitSize < 1 then 1 else nInitSize
  nAddSize := if nAddSize < 1 then 1 else nAddSize
  nRefCount
  deleted := []
  accesses := []

namespace World

/-- `AddRef` -/
def addRef (p : ℕ) (w : World) : World :=
  { w with nRefCount := Function.update w.nRefCount p (w.nRefCount p + 1) }

/-- `Release` -/
def release (p : ℕ) (w : World) : World :=
  let ret := w.nRefCount p - 1
  { w with
    nRefCount := Function.update w.nRefCount p ret
    deleted := if ret = 0 then p :: w.deleted else w.deleted }

/-- An access to the array. -/
def access (n : ℕ) (w : World) : World :=
  { w with accesses := w.accesses ++ [(n, w.nMaxCount.toNat)] }

def write (n p : ℕ) (w : World) : World :=
  { w.access n with ppOArray := Function.update w.ppOArray n p }

/-- An entry of the array with a reference to it. -/
def refEntry (n : ℕ) (w : World) : World × Reply :=
  ((w.access n).addRef (w.ppOArray n), .object (some (w.ppOArray n)))

/-- A larger array, and the entries copied into it by `memcpy`. -/
def grow (fresh : ℕ → ℕ) (w : World) : World :=
  let nMaxCount := w.nMaxCount + w.nAddSize
  { w with
    nMaxCount
    ppOArray := fun i => if i < w.nCount.toNat then w.ppOArray i else fresh i
    accesses := w.accesses ++ (List.range w.nCount.toNat).flatMap fun i =>
      [(i, w.nMaxCount.toNat), (i, nMaxCount.toNat)] }

/-- The array of `Add`: a larger one, if it is full. -/
def room (fresh : ℕ → ℕ) (w : World) : World :=
  if w.nCount = w.nMaxCount then w.grow fresh else w

/-- `Add` -/
def add (fresh : ℕ → ℕ) (pObj : ℕ) (w : World) : World × Reply :=
  let w := w.room fresh
  (({ w with nCount := w.nCount + 1 }.write w.nCount.toNat pObj).addRef pObj, .done)

/-- The loop of `Remove`, with the rounds that are left: the entry behind `n` comes to `n`. -/
def shift : ℕ → ℕ → World → World
  | 0, _, w => w
  | rounds + 1, n, w => shift rounds (n + 1) ((w.access (n + 1)).write n (w.ppOArray (n + 1)))

/-- `Remove` -/
def remove (nPosition : UInt32) (w : World) : World × Reply :=
  if nPosition < w.nCount then
    let w := (w.access nPosition.toNat).release (w.ppOArray nPosition.toNat)
    let w := w.shift (w.nCount.toNat - nPosition.toNat) nPosition.toNat
    ({ w with nCount := w.nCount - 1 }, .removed true)
  else (w, .removed false)

/-- `First` -/
def first (w : World) : World × Reply :=
  let w := { w with nPtr := 0 }
  if w.nCount ≠ 0 then w.refEntry 0 else (w, .object none)

/-- `Next` -/
def next (w : World) : World × Reply :=
  let w := { w with nPtr := w.nPtr + 1 }
  if w.nPtr < w.nCount then w.refEntry w.nPtr.toNat else (w, .object none)

/-- `operator[]` -/
def index (nPos : UInt32) (w : World) : World × Reply :=
  if nPos < w.nCount then w.refEntry nPos.toNat else (w, .object none)

end World

inductive Call where
  | add (pObj : ℕ)
  | remove (nPosition : UInt32)
  | first
  | next
  | index (nPos : UInt32)
  deriving DecidableEq, Repr

/-- A list, driven by its clients. -/
def objectList (fresh : ℕ → ℕ) : Machine World Call Reply where
  next w
    | .add pObj => w.add fresh pObj
    | .remove nPosition => w.remove nPosition
    | .first => w.first
    | .next => w.next
    | .index nPos => w.index nPos

/-! ### The sequence -/

/-- What a list is meant to be: objects in order, a place in it, and how many references to each
object were handed out. -/
structure Sequence where
  contents : List ℕ
  place : ℕ
  held : ℕ → ℕ

namespace Sequence

def empty : Sequence := ⟨[], 0, fun _ => 0⟩

/-- An object handed out, or none. -/
def hand (o : Option ℕ) (s : Sequence) : Sequence × Reply :=
  ({ s with held := fun p => s.held p + if o = some p then 1 else 0 }, .object o)

def step (s : Sequence) : Call → Sequence × Reply
  | .add pObj => ({ s with contents := s.contents ++ [pObj] }, .done)
  | .remove nPosition =>
    if nPosition.toNat < s.contents.length then
      ({ s with contents := s.contents.eraseIdx nPosition.toNat }, .removed true)
    else (s, .removed false)
  | .first => { s with place := 0 }.hand s.contents[0]?
  | .next => { s with place := s.place + 1 }.hand s.contents[s.place + 1]?
  | .index nPos => s.hand s.contents[nPos.toNat]?

end Sequence

def sequence : Machine Sequence Call Reply := ⟨Sequence.step⟩

/-! ### In step -/

/-- The list is the sequence, and every object has one reference for each time it is in the list,
beside those that were handed out and the `base` that others have. -/
structure Shows (base : ℕ → Int32) (w : World) (s : Sequence) : Prop where
  contents : Cells.toList w.ppOArray w.nCount.toNat = s.contents
  place : w.nPtr.toNat = s.place
  counts : ∀ p, (w.nRefCount p).toInt = (base p).toInt + s.held p + s.contents.count p

/-- Every access was inside the array. -/
def World.InArray (w : World) : Prop := ∀ a ∈ w.accesses, a.1 < a.2

/-- After a call the list is in step with its sequence, has returned what the sequence returns, and
has stayed inside its array. -/
structure InStep (fresh : ℕ → ℕ) (base : ℕ → Int32) (st : World × Sequence) (c : Call) : Prop where
  shows : Shows base ((objectList fresh).next st.1 c).1 (sequence.next st.2 c).1
  reply : ((objectList fresh).next st.1 c).2 = (sequence.next st.2 c).2
  inArray : ((objectList fresh).next st.1 c).1.InArray

/-- The object that a call takes a reference to. -/
def World.taken (w : World) : Call → Option ℕ
  | .add pObj => some pObj
  | .remove _ => none
  | .first => if w.nCount ≠ 0 then some (w.ppOArray 0) else none
  | .next => if w.nPtr + 1 < w.nCount then some (w.ppOArray (w.nPtr + 1).toNat) else none
  | .index nPos => if nPos < w.nCount then some (w.ppOArray nPos.toNat) else none

/-- What a call does to the array and to the cursor: a full array can be made larger, an object is
removed only where there is a cell behind the last one, and the cursor can go on. -/
def World.HasRoom (w : World) : Call → Prop
  | .add _ => w.nCount = w.nMaxCount → w.nMaxCount.toNat + w.nAddSize.toNat < 4294967296
  | .remove nPosition => nPosition < w.nCount → w.nCount < w.nMaxCount
  | .first => True
  | .next => w.nPtr.toNat + 1 < 4294967296
  | .index _ => True

/-- A call keeps all numbers in their types, and the list in its array. -/
structure World.Fits (w : World) (c : Call) : Prop where
  hasRoom : w.HasRoom c
  counts : ∀ p ∈ w.taken c, w.nRefCount p ≠ 2147483647

instance decidableHasRoom (w : World) : ∀ c, Decidable (w.HasRoom c)
  | .add _ => inferInstanceAs (Decidable (_ → _))
  | .remove _ => inferInstanceAs (Decidable (_ → _))
  | .first => .isTrue trivial
  | .next => inferInstanceAs (Decidable (_ < _))
  | .index _ => .isTrue trivial

instance decidableFits (w : World) (c : Call) : Decidable (w.Fits c) :=
  decidable_of_iff (w.HasRoom c ∧ ∀ p ∈ w.taken c, w.nRefCount p ≠ 2147483647)
    ⟨fun h => ⟨h.1, h.2⟩, fun h => ⟨h.hasRoom, h.counts⟩⟩

/-! ### Numbers in their types -/

section

variable {a b : UInt32} {x : Int32}

theorem toNat_add_fits (h : a.toNat + b.toNat < 4294967296) :
    (a + b).toNat = a.toNat + b.toNat := by
  rw [UInt32.toNat_add]
  exact Nat.mod_eq_of_lt h

/-- A sum that does not fit is less than its first part. -/
theorem toNat_add_wraps (h : 4294967296 ≤ a.toNat + b.toNat) : (a + b).toNat < a.toNat := by
  have hb := b.toNat_lt
  rw [UInt32.toNat_add]
  omega

theorem toNat_add_one (h : a.toNat + 1 < 4294967296) : (a + 1).toNat = a.toNat + 1 :=
  toNat_add_fits (b := 1) h

theorem toNat_sub_one (h : 0 < a.toNat) : (a - 1).toNat = a.toNat - 1 :=
  UInt32.toNat_sub_of_le a 1 (UInt32.le_iff_toNat_le.2 h)

/-- One more reference is counted, unless the count is the largest `LONG`. -/
theorem toInt_add_one_iff : (x + 1).toInt = x.toInt + 1 ↔ x ≠ 2147483647 := by
  constructor
  · rintro h rfl
    exact absurd h (by decide)
  · intro hne
    have hmax : x.toInt ≠ 2147483647 := fun h => hne (Int32.toInt_inj.1 h)
    have hlt := x.toInt_lt
    have hle := x.le_toInt
    rw [Int32.toInt_add]
    exact Int.bmod_eq_of_le (show _ ≤ x.toInt + 1 by omega) (show x.toInt + 1 < _ by omega)

theorem toInt_sub_one (h : -2147483648 < x.toInt) : (x - 1).toInt = x.toInt - 1 := by
  have hlt := x.toInt_lt
  rw [Int32.toInt_sub]
  exact Int.bmod_eq_of_le (show _ ≤ x.toInt - 1 by omega) (show x.toInt - 1 < _ by omega)

end

/-! ### References -/

namespace World

section

variable {w : World} {p : ℕ} {n : ℕ → ℤ}

theorem addRef_nRefCount (p : ℕ) (w : World) :
    (w.addRef p).nRefCount = Function.update w.nRefCount p (w.nRefCount p + 1) := rfl

theorem release_nRefCount (p : ℕ) (w : World) :
    (w.release p).nRefCount = Function.update w.nRefCount p (w.nRefCount p - 1) := rfl

theorem addRef_counts_iff (h : ∀ q, (w.nRefCount q).toInt = n q) :
    (∀ q, ((w.addRef p).nRefCount q).toInt = n q + if p = q then 1 else 0) ↔
      w.nRefCount p ≠ 2147483647 := by
  rw [← toInt_add_one_iff, h]
  constructor
  · intro hall
    have hp := hall p
    rwa [addRef_nRefCount, Function.update_self, if_pos rfl] at hp
  · intro hp q
    by_cases hq : p = q
    · subst hq
      rw [addRef_nRefCount, Function.update_self, if_pos rfl, hp]
    · rw [addRef_nRefCount, Function.update_of_ne (Ne.symm hq), if_neg hq, Int.add_zero, h]

theorem release_counts (h : ∀ q, (w.nRefCount q).toInt = n q) (hp : -2147483648 < n p) (q : ℕ) :
    ((w.release p).nRefCount q).toInt = n q - if p = q then 1 else 0 := by
  by_cases hq : p = q
  · subst hq
    rw [release_nRefCount, Function.update_self, if_pos rfl, toInt_sub_one (by rw [h]; exact hp), h]
  · rw [release_nRefCount, Function.update_of_ne (Ne.symm hq), if_neg hq, Int.sub_zero, h]

end

/-! ### Accesses -/

section

variable {w : World} {k n p : ℕ}

theorem inArray_access : (w.access n).InArray ↔ w.InArray ∧ n < w.nMaxCount.toNat := by
  simp only [InArray, access, List.forall_mem_append, List.forall_mem_singleton]

theorem inArray_write : (w.write n p).InArray ↔ w.InArray ∧ n < w.nMaxCount.toNat := inArray_access

theorem inArray_shift :
    (w.shift k n).InArray ↔ w.InArray ∧ (k = 0 ∨ n + k < w.nMaxCount.toNat) := by
  induction k generalizing w n with
  | zero => simp [shift]
  | succ k ih =>
    have hmax : ((w.access (n + 1)).write n (w.ppOArray (n + 1))).nMaxCount = w.nMaxCount := rfl
    rw [shift, ih, inArray_write, inArray_access, hmax]
    show ((w.InArray ∧ n + 1 < w.nMaxCount.toNat) ∧ n < w.nMaxCount.toNat) ∧ _ ↔ _
    constructor
    · rintro ⟨⟨⟨hw, hread⟩, -⟩, hk⟩
      exact ⟨hw, .inr (by omega)⟩
    · rintro ⟨hw, hk⟩
      exact ⟨⟨⟨hw, by omega⟩, by omega⟩, by omega⟩

/-- The loop of `Remove` closes the gap and changes nothing else. -/
theorem shift_eq : w.shift k n =
    { w with
      ppOArray := Cells.closeGap w.ppOArray k n
      accesses := (w.shift k n).accesses } := by
  induction k generalizing w n with
  | zero => rfl
  | succ k ih =>
    rw [shift, ih]
    rfl

/-- `memcpy` stays in both arrays exactly when the new one is not the smaller. -/
theorem inArray_grow (fresh : ℕ → ℕ) (h : w.nCount = w.nMaxCount) : (w.grow fresh).InArray ↔
    w.InArray ∧ (w.nMaxCount.toNat ≤ (w.nMaxCount + w.nAddSize).toNat) := by
  have hcopied : (∀ a ∈ (List.range w.nCount.toNat).flatMap fun i =>
      [(i, w.nMaxCount.toNat), (i, (w.nMaxCount + w.nAddSize).toNat)], a.1 < a.2) ↔
      w.nMaxCount.toNat ≤ (w.nMaxCount + w.nAddSize).toNat := by
    rw [h]
    constructor
    · intro hall
      by_contra hlt
      -- the cell of the new size has been copied, too
      have hmem := hall ((w.nMaxCount + w.nAddSize).toNat, (w.nMaxCount + w.nAddSize).toNat)
        (List.mem_flatMap.2 ⟨_, List.mem_range.2 (Nat.lt_of_not_le hlt), by simp⟩)
      exact absurd hmem (Nat.lt_irrefl _)
    · intro hle a ha
      obtain ⟨i, hi, ha⟩ := List.mem_flatMap.1 ha
      rw [List.mem_range] at hi
      rcases List.mem_pair.1 ha with rfl | rfl
      · exact hi
      · exact Nat.lt_of_lt_of_le hi hle
  rw [← hcopied]
  exact List.forall_mem_append

end

end World

/-! ### Calls -/

/-- There are no more objects than cells, and the array can grow. -/
structure World.Sized (w : World) : Prop where
  count_le : w.nCount.toNat ≤ w.nMaxCount.toNat
  max_pos : 0 < w.nMaxCount.toNat
  size_pos : 0 < w.nAddSize.toNat

/-- A list between two calls. -/
structure Sound (base : ℕ → Int32) (w : World) (s : Sequence) : Prop extends w.Sized where
  shows : Shows base w s
  inArray : w.InArray

section

variable {fresh : ℕ → ℕ} {base : ℕ → Int32} {w : World} {s : Sequence} {p : ℕ}

theorem Shows.length (h : Shows base w s) : s.contents.length = w.nCount.toNat := by
  rw [← h.contents, Cells.length_toList]

theorem Shows.getElem? (h : Shows base w s) (n : ℕ) :
    s.contents[n]? = if n < w.nCount.toNat then some (w.ppOArray n) else none := by
  rw [← h.contents, Cells.getElem?_toList]

/-- The entry at `n`, if there is one, is handed out. -/
theorem hand_iff (h : Shows base w s) (hin : w.InArray)
    (hle : w.nCount.toNat ≤ w.nMaxCount.toNat) {n : ℕ} {r : World × Reply}
    (hr : r = if n < w.nCount.toNat then w.refEntry n else (w, .object none)) :
    (Shows base r.1 (s.hand s.contents[n]?).1 ∧ r.2 = (s.hand s.contents[n]?).2 ∧ r.1.InArray) ↔
      (n < w.nCount.toNat → w.nRefCount (w.ppOArray n) ≠ 2147483647) := by
  rw [hr, h.getElem? n]
  by_cases hn : n < w.nCount.toNat
  · rw [if_pos hn, if_pos hn, forall_prop_of_true hn, ← World.addRef_counts_iff h.counts]
    have hin' : (w.refEntry n).1.InArray := World.inArray_access.2 ⟨hin, Nat.lt_of_lt_of_le hn hle⟩
    have hheld (q : ℕ) : (base q).toInt +
        ((s.hand (some (w.ppOArray n))).1.held q : ℤ) + s.contents.count q =
          (base q).toInt + s.held q + s.contents.count q + if w.ppOArray n = q then 1 else 0 := by
      simp only [Sequence.hand, Option.some.injEq]
      split_ifs <;> push_cast <;> omega
    constructor
    · rintro ⟨hshows, -, -⟩ q
      rw [← hheld]
      exact hshows.counts q
    · intro hcounts
      exact ⟨⟨h.contents, h.place, fun q => (hcounts q).trans (hheld q).symm⟩, rfl, hin'⟩
  · rw [if_neg hn, if_neg hn]
    refine iff_of_true ⟨⟨h.contents, h.place, fun q => ?_⟩, rfl, hin⟩ fun hlt => absurd hlt hn
    simpa [Sequence.hand] using h.counts q

/-- A call that takes a reference to the entry at `n`, if there is one. -/
theorem fits_iff {c : Call} {n : ℕ} (hroom : w.HasRoom c)
    (ht : w.taken c = if n < w.nCount.toNat then some (w.ppOArray n) else none) :
    w.Fits c ↔ (n < w.nCount.toNat → w.nRefCount (w.ppOArray n) ≠ 2147483647) := by
  constructor
  · intro hfits hn
    exact hfits.counts _ (by rw [ht, if_pos hn]; rfl)
  · intro hcounts
    refine ⟨hroom, fun p hp => ?_⟩
    rw [ht] at hp
    split_ifs at hp with hn
    · cases hp
      exact hcounts hn
    · cases hp

/-- `First` and `Next`, when the cursor has been moved, and `operator[]`. -/
theorem inStep_hand_iff {c : Call} {w' : World} {s' : Sequence} (h : Shows base w' s')
    (hin : w'.InArray) (hle : w'.nCount.toNat ≤ w'.nMaxCount.toNat) {n : ℕ}
    (hw : (objectList fresh).next w c =
      if n < w'.nCount.toNat then w'.refEntry n else (w', .object none))
    (hs : sequence.next s c = s'.hand s'.contents[n]?) :
    InStep fresh base (w, s) c ↔
      (n < w'.nCount.toNat → w'.nRefCount (w'.ppOArray n) ≠ 2147483647) := by
  rw [← hand_iff h hin hle hw, ← hs]
  exact ⟨fun ⟨hshows, hreply, harray⟩ => ⟨hshows, hreply, harray⟩,
    fun ⟨hshows, hreply, harray⟩ => ⟨hshows, hreply, harray⟩⟩

/-- **`First`** -/
theorem inStep_first_iff (h : Sound base w s) :
    InStep fresh base (w, s) .first ↔ w.Fits .first := by
  have hzero : w.nCount ≠ 0 ↔ 0 < w.nCount.toNat := by
    rw [Nat.pos_iff_ne_zero, ne_eq, ne_eq, ← UInt32.toNat_inj]
    rfl
  have hw : (objectList fresh).next w .first = if 0 < w.nCount.toNat then
      { w with nPtr := 0 }.refEntry 0 else ({ w with nPtr := 0 }, .object none) :=
    if_congr hzero rfl rfl
  have hshows : Shows base { w with nPtr := 0 } { s with place := 0 } :=
    ⟨h.shows.contents, rfl, h.shows.counts⟩
  rw [inStep_hand_iff hshows h.inArray h.count_le hw rfl,
    fits_iff (c := .first) trivial (if_congr hzero rfl rfl)]

/-- **`Next`** -/
theorem inStep_next_iff (h : Sound base w s) :
    InStep fresh base (w, s) .next ↔ w.Fits .next := by
  have hw : (objectList fresh).next w .next = if (w.nPtr + 1).toNat < w.nCount.toNat then
      { w with nPtr := w.nPtr + 1 }.refEntry (w.nPtr + 1).toNat
      else ({ w with nPtr := w.nPtr + 1 }, .object none) :=
    if_congr UInt32.lt_iff_toNat_lt rfl rfl
  have hptr : ((objectList fresh).next w .next).1.nPtr = w.nPtr + 1 := by
    rw [hw]
    split_ifs <;> rfl
  by_cases hroom : w.nPtr.toNat + 1 < 4294967296
  · have hplace := toNat_add_one hroom
    have hshows : Shows base { w with nPtr := w.nPtr + 1 } { s with place := s.place + 1 } :=
      ⟨h.shows.contents, hplace.trans (congrArg Nat.succ h.shows.place), h.shows.counts⟩
    have hs : sequence.next s .next = { s with place := s.place + 1 }.hand
        ({ s with place := s.place + 1 } : Sequence).contents[(w.nPtr + 1).toNat]? := by
      rw [hplace, h.shows.place]
      rfl
    rw [inStep_hand_iff hshows h.inArray h.count_le hw hs,
      fits_iff (c := .next) hroom (if_congr UInt32.lt_iff_toNat_lt rfl rfl)]
  · -- the cursor starts again
    refine iff_of_false (fun hstep => hroom ?_) fun hfits => hroom hfits.hasRoom
    have hplace : (w.nPtr + 1).toNat = w.nPtr.toNat + 1 := by
      rw [← hptr, hstep.shows.place, h.shows.place]
      rfl
    rw [← hplace]
    exact UInt32.toNat_lt _

/-- **`operator[]`** -/
theorem inStep_index_iff (h : Sound base w s) (nPos : UInt32) :
    InStep fresh base (w, s) (.index nPos) ↔ w.Fits (.index nPos) := by
  have hw : (objectList fresh).next w (.index nPos) = if nPos.toNat < w.nCount.toNat then
      w.refEntry nPos.toNat else (w, .object none) := if_congr UInt32.lt_iff_toNat_lt rfl rfl
  rw [inStep_hand_iff h.shows h.inArray h.count_le hw rfl,
    fits_iff (c := .index nPos) trivial (if_congr UInt32.lt_iff_toNat_lt rfl rfl)]

/-- The array of `Add` has a cell for the object and the same list in it. -/
structure HasCell (w w₁ : World) : Prop where
  contents : Cells.toList w₁.ppOArray w.nCount.toNat = Cells.toList w.ppOArray w.nCount.toNat
  nCount : w₁.nCount = w.nCount
  nPtr : w₁.nPtr = w.nPtr
  nRefCount : w₁.nRefCount = w.nRefCount
  nAddSize : w₁.nAddSize = w.nAddSize
  inArray : w₁.InArray
  count_lt : w.nCount.toNat < w₁.nMaxCount.toNat

theorem room_hasCell (h : Sound base w s) (hroom : w.HasRoom (.add p)) :
    HasCell w (w.room fresh) := by
  unfold World.room
  split_ifs with hfull
  · have hmax := toNat_add_fits (hroom hfull)
    have hgrown : w.nMaxCount.toNat ≤ (w.nMaxCount + w.nAddSize).toNat := by omega
    refine ⟨Cells.toList_congr fun i hi => if_pos hi, rfl, rfl, rfl, rfl,
      (World.inArray_grow fresh hfull).2 ⟨h.inArray, hgrown⟩, ?_⟩
    have hsize := h.size_pos
    show w.nCount.toNat < (w.nMaxCount + w.nAddSize).toNat
    rw [hfull]
    omega
  · have hne : w.nCount.toNat ≠ w.nMaxCount.toNat := fun heq => hfull (UInt32.toNat_inj.1 heq)
    exact ⟨rfl, rfl, rfl, rfl, rfl, h.inArray, Nat.lt_of_le_of_ne h.count_le hne⟩

/-- **`Add`** -/
theorem inStep_add_iff (h : Sound base w s) (pObj : ℕ) :
    InStep fresh base (w, s) (.add pObj) ↔ w.Fits (.add pObj) := by
  by_cases hroom : w.HasRoom (.add pObj)
  · have hcell : HasCell w (w.room fresh) := room_hasCell h hroom
    set w₁ := w.room fresh with hw₁
    set w₂ : World := { w₁ with nCount := w₁.nCount + 1 }.write w₁.nCount.toNat pObj with hw₂
    have hin : w₂.InArray := by
      refine World.inArray_write.2 ⟨hcell.inArray, ?_⟩
      show w₁.nCount.toNat < w₁.nMaxCount.toNat
      rw [hcell.nCount]
      exact hcell.count_lt
    have hcount : w₂.nCount.toNat = w.nCount.toNat + 1 := by
      have hmax := w₁.nMaxCount.toNat_lt
      have hlt := hcell.count_lt
      show (w₁.nCount + 1).toNat = _
      rw [hcell.nCount]
      exact toNat_add_one (by omega)
    have hcontents : Cells.toList w₂.ppOArray w₂.nCount.toNat = s.contents ++ [pObj] := by
      show Cells.toList (Function.update w₁.ppOArray w₁.nCount.toNat pObj) w₂.nCount.toNat = _
      rw [hcount, hcell.nCount, Cells.toList_write, hcell.contents, h.shows.contents]
    have hcounts (q : ℕ) : (w₂.nRefCount q).toInt =
        (base q).toInt + s.held q + s.contents.count q := by
      rw [← h.shows.counts]
      exact congrArg (fun n : ℕ → Int32 => (n q).toInt) hcell.nRefCount
    have hmore (q : ℕ) : (base q).toInt + s.held q + ((s.contents ++ [pObj]).count q : ℤ) =
        (base q).toInt + s.held q + s.contents.count q + if pObj = q then 1 else 0 := by
      rw [List.count_append, List.count_singleton]
      simp only [beq_iff_eq]
      split_ifs <;> push_cast <;> omega
    have hrefs : (∀ p ∈ w.taken (.add pObj), w.nRefCount p ≠ 2147483647) ↔
        w₂.nRefCount pObj ≠ 2147483647 := by
      have hsame : w₂.nRefCount = w.nRefCount := hcell.nRefCount
      rw [hsame]
      exact ⟨fun hall => hall pObj rfl, fun hp p hmem => by cases hmem; exact hp⟩
    have hplace : w₂.nPtr.toNat = s.place := by
      rw [← h.shows.place]
      exact congrArg UInt32.toNat hcell.nPtr
    constructor
    · intro hstep
      refine ⟨hroom, hrefs.2 ((World.addRef_counts_iff hcounts).1 fun q => ?_)⟩
      rw [← hmore]
      exact hstep.shows.counts q
    · intro hfits
      have hall := (World.addRef_counts_iff hcounts).2 (hrefs.1 hfits.counts)
      exact ⟨⟨hcontents, hplace, fun q => (hall q).trans (hmore q).symm⟩, rfl, hin⟩
  · -- the new array is smaller than the old one
    refine iff_of_false (fun hstep => hroom fun hfull => ?_) fun hfits => hroom hfits.hasRoom
    have hin := hstep.inArray
    have hgrown : (w.grow fresh).InArray := by
      have hw₁ : w.room fresh = w.grow fresh := if_pos hfull
      rw [← hw₁]
      exact (World.inArray_write (p := pObj).1 hin).1
    have hle := ((World.inArray_grow fresh hfull).1 hgrown).2
    by_contra hwraps
    have hlt := toNat_add_wraps (Nat.le_of_not_lt hwraps)
    omega

/-- **`Remove`** -/
theorem inStep_remove_iff (h : Sound base w s) (nPosition : UInt32) :
    InStep fresh base (w, s) (.remove nPosition) ↔ w.Fits (.remove nPosition) := by
  have hfits : w.Fits (.remove nPosition) ↔ w.HasRoom (.remove nPosition) :=
    ⟨fun hfits => hfits.hasRoom, fun hroom => ⟨hroom, fun p hp => by cases hp⟩⟩
  have hlen := h.shows.length
  rw [hfits]
  by_cases hpos : nPosition < w.nCount
  · have hlt := UInt32.lt_iff_toNat_lt.1 hpos
    set n := nPosition.toNat with hn
    set p := w.ppOArray n with hp
    set w₁ := (w.access n).release p with hw₁
    have hnext : (objectList fresh).next w (.remove nPosition) =
        ({ w₁.shift (w₁.nCount.toNat - n) n with
          nCount := (w₁.shift (w₁.nCount.toNat - n) n).nCount - 1 }, .removed true) :=
      if_pos hpos
    have hs : sequence.next s (.remove nPosition) =
        ({ s with contents := s.contents.eraseIdx n }, .removed true) :=
      if_pos (by rw [hlen]; exact hlt)
    have hshift : w₁.shift (w₁.nCount.toNat - n) n = { w₁ with
        ppOArray := Cells.closeGap w.ppOArray (w.nCount.toNat - n) n
        accesses := (w₁.shift (w₁.nCount.toNat - n) n).accesses } := World.shift_eq
    have hin : ((objectList fresh).next w (.remove nPosition)).1.InArray ↔
        w.nCount < w.nMaxCount := by
      rw [hnext]
      show (w₁.shift (w₁.nCount.toNat - n) n).InArray ↔ _
      have hcount : w₁.nCount = w.nCount := rfl
      have hmax : w₁.nMaxCount = w.nMaxCount := rfl
      have hread : w₁.InArray :=
        World.inArray_access.2 ⟨h.inArray, Nat.lt_of_lt_of_le hlt h.count_le⟩
      rw [World.inArray_shift, and_iff_right hread, hcount, hmax, UInt32.lt_iff_toNat_lt]
      omega
    constructor
    · intro hstep _
      exact hin.1 hstep.inArray
    · intro hroom
      refine ⟨?_, ?_, hin.2 (hroom hpos)⟩
      · have hsub : (w.nCount - 1).toNat = w.nCount.toNat - 1 := toNat_sub_one (by omega)
        have hget : s.contents[n]? = some p := by
          rw [h.shows.getElem?, if_pos hlt]
        have hmem : 0 < s.contents.count p := List.count_pos_iff.2 (List.mem_of_getElem? hget)
        have hbase := (base p).le_toInt
        have hcounts := World.release_counts (p := p) (w := w.access n) h.shows.counts (by omega)
        rw [hnext, hs, hshift]
        refine ⟨?_, h.shows.place, fun q => ?_⟩
        · show Cells.toList (Cells.closeGap w.ppOArray (w.nCount.toNat - n) n)
            (w.nCount - 1).toNat = s.contents.eraseIdx n
          rw [hsub, Cells.toList_closeGap _ hlt, h.shows.contents]
        · refine (hcounts q).trans ?_
          have hless := Cells.count_eraseIdx hget q
          show _ = (base q).toInt + s.held q + ((s.contents.eraseIdx n).count q : ℤ)
          omega
      · rw [hnext, hs]
  · have hnext : (objectList fresh).next w (.remove nPosition) = (w, .removed false) := if_neg hpos
    have hs : sequence.next s (.remove nPosition) = (s, .removed false) :=
      if_neg (by rw [hlen, ← UInt32.lt_iff_toNat_lt]; exact hpos)
    refine iff_of_true ⟨?_, ?_, ?_⟩ fun hlt => absurd hlt hpos
    · rw [hnext, hs]
      exact h.shows
    · rw [hnext, hs]
    · rw [hnext]
      exact h.inArray

/-- **One call.** -/
theorem inStep_iff (h : Sound base w s) (c : Call) :
    InStep fresh base (w, s) c ↔ w.Fits c := by
  cases c with
  | add pObj => exact inStep_add_iff h pObj
  | remove nPosition => exact inStep_remove_iff h nPosition
  | first => exact inStep_first_iff h
  | next => exact inStep_next_iff h
  | index nPos => exact inStep_index_iff h nPos

/-- A call that fits leaves no more objects than there are cells. -/
theorem sized_next (h : Sound base w s) {c : Call} (hfits : w.Fits c) :
    ((objectList fresh).next w c).1.Sized := by
  have hsame : w.Sized := h.toSized
  cases c with
  | add pObj =>
    have hcell : HasCell w (w.room fresh) := room_hasCell h hfits.hasRoom
    have hlt := hcell.count_lt
    have hmax := (w.room fresh).nMaxCount.toNat_lt
    have hcount : ((w.room fresh).nCount + 1).toNat = w.nCount.toNat + 1 := by
      rw [hcell.nCount]
      exact toNat_add_one (by omega)
    refine ⟨?_, Nat.lt_of_le_of_lt (Nat.zero_le _) hlt, ?_⟩
    · show ((w.room fresh).nCount + 1).toNat ≤ (w.room fresh).nMaxCount.toNat
      omega
    · show 0 < (w.room fresh).nAddSize.toNat
      rw [hcell.nAddSize]
      exact h.size_pos
  | remove nPosition =>
    simp only [objectList, World.remove]
    split_ifs with hpos
    · have hlt := UInt32.lt_iff_toNat_lt.1 hpos
      have hsub : (w.nCount - 1).toNat = w.nCount.toNat - 1 := toNat_sub_one (by omega)
      have hle := h.count_le
      rw [World.shift_eq]
      refine ⟨?_, h.max_pos, h.size_pos⟩
      show (w.nCount - 1).toNat ≤ w.nMaxCount.toNat
      omega
    · exact hsame
  | first =>
    simp only [objectList, World.first]
    split_ifs <;> exact ⟨h.count_le, h.max_pos, h.size_pos⟩
  | next =>
    simp only [objectList, World.next]
    split_ifs <;> exact ⟨h.count_le, h.max_pos, h.size_pos⟩
  | index nPos =>
    simp only [objectList, World.index]
    split_ifs <;> exact ⟨h.count_le, h.max_pos, h.size_pos⟩

/-- A call that fits leaves the list sound. -/
theorem sound_next (h : Sound base w s) {c : Call} (hfits : w.Fits c) :
    Sound base ((objectList fresh).next w c).1 (sequence.next s c).1 := by
  have hstep : InStep fresh base (w, s) c := (inStep_iff h c).2 hfits
  exact ⟨sized_next h hfits, hstep.shows, hstep.inArray⟩

end

/-! ### Runs -/

/-- A list and its sequence, driven together. -/
def Together (base : ℕ → Int32) (st : World × Sequence) : Prop := Sound base st.1 st.2

theorem together_next {fresh : ℕ → ℕ} {base : ℕ → Int32} (st : World × Sequence) (c : Call)
    (h : Together base st) (hfits : st.1.Fits c) :
    Together base (((objectList fresh).pair sequence).next st c).1 := sound_next h hfits

theorem sound_new (fresh : ℕ → ℕ) (base : ℕ → Int32) (nInitSize nAddSize : UInt32) :
    Sound base (.new fresh base nInitSize nAddSize) .empty := by
  have hpos (n : UInt32) : 0 < (if n < 1 then 1 else n).toNat := by
    split_ifs with hn
    · decide
    · rw [UInt32.lt_iff_toNat_lt] at hn
      exact Nat.le_of_not_lt hn
  refine ⟨⟨Nat.zero_le _, hpos nInitSize, hpos nAddSize⟩, ⟨rfl, rfl, fun p => ?_⟩, fun a ha => ?_⟩
  · simp [World.new, Sequence.empty]
  · cases ha

/-- What `First` and as many calls of `Next` return: the objects in order, and none behind them. -/
theorem sequence_enumerates (s : Sequence) (k : ℕ) :
    sequence.outs s (.first :: List.replicate k .next) =
      (List.range (k + 1)).map fun n => .object s.contents[n]? := by
  have hrest (contents : List ℕ) (n : ℕ) (held : ℕ → ℕ) :
      sequence.outs ⟨contents, n, held⟩ (List.replicate k .next) =
        (List.range' (n + 1) k).map fun n => .object contents[n]? := by
    induction k generalizing n held with
    | zero => rfl
    | succ k ih =>
      rw [List.replicate_succ, List.range'_succ, List.map_cons, ← ih (n + 1)]
      rfl
  rw [Machine.outs_cons, List.range_eq_range', List.range'_succ, List.map_cons]
  exact congrArg₂ List.cons rfl (hrest s.contents 0 _)

section

variable {fresh : ℕ → ℕ} {base : ℕ → Int32} {w : World} {s : Sequence} {calls : List Call}

/-- **Runs.** -/
theorem eachStep_inStep_iff (h : Sound base w s) :
    ((objectList fresh).pair sequence).EachStep (InStep fresh base) (w, s) calls ↔
      (objectList fresh).EachStep World.Fits w calls := by
  have hstart : Together base (w, s) := h
  have hsteps : ((objectList fresh).pair sequence).EachStep (fun st c => st.1.Fits c) (w, s) calls ↔
      ((objectList fresh).pair sequence).EachStep (InStep fresh base) (w, s) calls :=
    Machine.eachStep_iff_of_invariant together_next (fun st c hst => (inStep_iff hst c).symm) hstart
  exact hsteps.symm.trans Machine.eachStep_pair_fst

/-- A run of fitting calls leaves the list sound. -/
theorem sound_after (h : Sound base w s) (hfits : (objectList fresh).EachStep World.Fits w calls) :
    Sound base ((objectList fresh).after w calls) (sequence.after s calls) := by
  have hstart : Together base (w, s) := h
  have hpair : Together base (((objectList fresh).pair sequence).after (w, s) calls) :=
    Machine.after_invariant together_next hstart (Machine.eachStep_pair_fst.2 hfits)
  rwa [Machine.after_pair] at hpair

/-- **The list is its sequence, inside its array**, exactly as long as every call fits; and in such
a run `First` and the calls of `Next` behind it go through the list in order. -/
theorem objectList_iff (fresh : ℕ → ℕ) (base : ℕ → Int32) (nInitSize nAddSize : UInt32)
    (calls : List Call) :
    (((objectList fresh).pair sequence).EachStep (InStep fresh base)
        (.new fresh base nInitSize nAddSize, .empty) calls ↔
      (objectList fresh).EachStep World.Fits (.new fresh base nInitSize nAddSize) calls) ∧
    ∀ pre k, calls = pre ++ .first :: List.replicate k .next →
      (objectList fresh).EachStep World.Fits (.new fresh base nInitSize nAddSize) calls →
      let w := (objectList fresh).after (.new fresh base nInitSize nAddSize) pre
      (objectList fresh).outs w (.first :: List.replicate k .next) =
        (List.range (k + 1)).map fun n => .object (Cells.toList w.ppOArray w.nCount.toNat)[n]? := by
  have hnew := sound_new fresh base nInitSize nAddSize
  refine ⟨eachStep_inStep_iff hnew, fun pre k hcalls hfits => ?_⟩
  rw [hcalls, Machine.eachStep_append] at hfits
  have hpre := sound_after hnew hfits.1
  have hsteps := (eachStep_inStep_iff hpre).2 hfits.2
  have houts := Machine.outs_eq_of_eachStep (Machine.eachStep_mono (fun _ _ h => h.reply) hsteps)
  dsimp only
  rw [houts, sequence_enumerates, hpre.shows.contents]

end

/-- An array that grows, and an object that is in the list twice. -/
theorem objectList_iff_twice :
    let w := (objectList fun _ => 0).after (.new (fun _ => 0) (fun _ => 0) 2 5)
      [.add 7, .add 8, .add 7, .remove 1]
    (objectList fun _ => 0).outs w [.first, .next, .next] =
      (List.range 3).map fun n => .object (Cells.toList w.ppOArray w.nCount.toNat)[n]? :=
  (objectList_iff (fun _ => 0) (fun _ => 0) 2 5
    [.add 7, .add 8, .add 7, .remove 1, .first, .next, .next]).2
    [.add 7, .add 8, .add 7, .remove 1] 2 rfl (by decide +kernel)

/-- **An object removed from a full list.**  The array has one cell; the loop of `Remove` reads the
second. -/
theorem remove_reads_behind :
    ((objectList fun _ => 0).after (.new (fun _ => 0) (fun _ => 0) 1 1)
      [.add 7, .remove 0]).accesses = [(0, 1), (0, 1), (1, 1), (0, 1)] ∧
    ¬ ((objectList fun _ => 0).pair sequence).EachStep (InStep (fun _ => 0) fun _ => 0)
      (.new (fun _ => 0) (fun _ => 0) 1 1, .empty) [.add 7, .remove 0] := by
  refine ⟨by decide +kernel, fun h => ?_⟩
  have hread := h.2.1.inArray (1, 1) (by decide +kernel)
  exact absurd hread (by decide)

end ObjectList

end OpcS7

end Edps
