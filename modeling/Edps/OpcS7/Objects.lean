import Edps.Lib.Frames
import Edps.Lib.Heap
import Edps.OpcS7.Sapi

/-!
# Groups as objects

The groups of the client are objects that count their references and delete themselves with the
last one.  `m_pGroupList` holds one reference to each of its groups; the search for a name takes
one to every group it looks at and drops it again, unless the name is found.

* `Objects.addRef`, `Objects.release` : the counts.
* `Objects.first`, `Objects.next`, `Objects.add` : the list, with its array.
* `Objects.getGroupByName`, `Objects.addGroup`, `Objects.getOPCGroup` : the group of a call.
* `Shows` : what the objects stand for, the list of groups that `sapi` works on.
* `Objects.getGroupByName_finds`, `Objects.addGroup_cases` : the group that comes back has two
  references, and all others have one.
-/

namespace Edps

namespace OpcS7

/-- Why a call does not return: by a structured exception, or because it goes through a pointer to
no object. -/
inductive Fault where
  | raised
  | wild
  deriving DecidableEq, Repr

/-- A group, with its `m_nRefCount`. -/
structure GroupObject where
  nRefCount : ℤ
  group : COPCGroup
  deriving DecidableEq, Repr

/-- `CCObjectList`.  An entry of the array that was never written is `none`. -/
structure CCObjectList where
  ppOArray : List (Option ℕ)
  nCount : ℕ
  nPtr : ℕ
  nAddSize : ℕ
  deriving DecidableEq, Repr

/-- The client between two calls: `g_bMainServer`, `m_pGroupList` and the groups on the heap. -/
structure Objects where
  connected : Bool
  groupList : Option CCObjectList
  heap : Heap GroupObject
  deriving DecidableEq, Repr

abbrev ObjectsM := EStateM Fault Objects

/-- What the server answers, also to the constructor of a group, and whether the destructor of a
group that was not built to its end returns. -/
structure ComReplies extends Replies where
  constructed : HRESULT
  destroyed : Bool

/-- The constructor of a list. -/
def CCObjectList.new (nInitSize nAddSize : ℕ) : CCObjectList :=
  ⟨List.replicate (max nInitSize 1) none, 0, 0, max nAddSize 1⟩

/-- The array made larger when it is full. -/
def CCObjectList.grown (l : CCObjectList) : CCObjectList :=
  if l.nCount = l.ppOArray.length then
    { l with ppOArray := l.ppOArray ++ List.replicate l.nAddSize none }
  else l

namespace Objects

/-! ### Counts -/

/-- The object at an address. -/
def object (p : ℕ) : ObjectsM GroupObject := fun w =>
  match w.heap.get p with
  | some x => .ok x w
  | none => .error .wild w

def setObject (p : ℕ) (x : GroupObject) : ObjectsM Unit :=
  modify fun w => { w with heap := w.heap.store p x }

/-- `AddRef` -/
def addRef (p : ℕ) : ObjectsM Unit := do
  let x ← object p
  setObject p { x with nRefCount := x.nRefCount + 1 }

/-- `Release` -/
def release (p : ℕ) : ObjectsM Unit := do
  let x ← object p
  if x.nRefCount - 1 = 0 then
    modify fun w => { w with heap := w.heap.delete p }
  else
    setObject p { x with nRefCount := x.nRefCount - 1 }

/-! ### The list -/

/-- `m_pGroupList` -/
def list : ObjectsM CCObjectList := fun w =>
  match w.groupList with
  | some l => .ok l w
  | none => .error .wild w

def setList (l : CCObjectList) : ObjectsM Unit :=
  modify fun w => { w with groupList := some l }

/-- A reference to an entry of the array. -/
def refEntry (l : CCObjectList) (n : ℕ) : ObjectsM (Option ℕ) :=
  match l.ppOArray[n]? with
  | some (some p) => do
    addRef p
    return some p
  | _ => throw .wild

/-- `First` -/
def first : ObjectsM (Option ℕ) := do
  let l ← list
  setList { l with nPtr := 0 }
  if l.nCount ≠ 0 then refEntry l 0
  else return none

/-- `Next` -/
def next : ObjectsM (Option ℕ) := do
  let l ← list
  setList { l with nPtr := l.nPtr + 1 }
  if l.nPtr + 1 < l.nCount then refEntry l (l.nPtr + 1)
  else return none

/-- `Add` -/
def add (p : ℕ) : ObjectsM Unit := do
  let l := (← list).grown
  if l.nCount < l.ppOArray.length then
    setList { l with ppOArray := l.ppOArray.set l.nCount (some p), nCount := l.nCount + 1 }
    addRef p
  else throw .wild

/-! ### Groups -/

/-- The loop of `GetGroupByName`, with the group it has come to.  Every round goes one entry
further, so there are at most `m_nCount`. -/
def searchGroup (pszName : Bytes) : ℕ → Option ℕ → ObjectsM (Option ℕ)
  | _, none => return none
  | 0, some _ => throw .wild
  | rounds + 1, some p => do
    let x ← object p
    if x.group.name = pszName then return some p
    else
      release p
      searchGroup pszName rounds (← next)

/-- `GetGroupByName` -/
def getGroupByName (pszName : Bytes) : ObjectsM (Option ℕ) := do
  match (← get).groupList with
  | none => return none
  | some l => searchGroup pszName l.nCount (← first)

/-- The list is made with its first group. -/
def makeList : ObjectsM Unit := do
  if (← get).groupList = none then
    setList (.new 10 5)

/-- `AddGroup`.  The server names the group as it is told to. -/
def addGroup (r : ComReplies) (pszName : Bytes) : ObjectsM (Option ℕ) := do
  makeList
  if failed r.addGroup then return none
  else
    let p := (← get).heap.length
    modify fun w => { w with heap := w.heap.new ⟨0, ⟨pszName, [], []⟩⟩ }
    addRef p
    if failed r.constructed then
      release p
      -- the destructor releases members that the constructor has not set
      if !r.destroyed then
        throw .raised
      return none
    else
      add p
      return some p

/-- `GetOPCGroup` -/
def getOPCGroup (r : ComReplies) (szName : Bytes) : ObjectsM (Option ℕ) := do
  modify fun w => { w with connected := w.connected || r.connect }
  if !(← get).connected then return none
  else
    match ← getGroupByName szName with
    | some p => return some p
    | none => addGroup r szName

end Objects

/-- The client after the library was loaded. -/
def Objects.init : Objects := ⟨false, none, []⟩

/-! ### What the objects stand for -/

/-- The objects at `ps` are the groups of the list, one reference each, and there are no others. -/
structure Shows (w : Objects) (s : SapiState) (ps : List ℕ) : Prop where
  connected : w.connected = s.connected
  list : ∀ l ∈ w.groupList, l.nCount = ps.length ∧ l.ppOArray.take ps.length = ps.map some ∧
    0 < l.nAddSize
  noList : w.groupList = none → ps = []
  distinct : ps.Nodup
  groups : ps.map w.heap.get = s.groups.map fun g => some ⟨1, g⟩
  live : ∀ p x, w.heap.get p = some x → p ∈ ps
  names : (s.groups.map COPCGroup.name).Nodup

theorem shows_init : Shows .init .init [] where
  connected := rfl
  list l hl := by cases hl
  noList _ := rfl
  distinct := List.nodup_nil
  groups := rfl
  live p x hp := by simp [Objects.init, Heap.get] at hp
  names := List.nodup_nil

namespace Objects

section

variable {w : Objects} {p : ℕ} {x : GroupObject}

theorem object_eq (h : w.heap.get p = some x) : object p w = .ok x w := by
  rw [object, h]

theorem addRef_eq (h : w.heap.get p = some x) : addRef p w =
    .ok () { w with heap := w.heap.store p { x with nRefCount := x.nRefCount + 1 } } := by
  rw [addRef, bind_of_ok (object_eq h)]
  rfl

/-- A reference that is not the last. -/
theorem release_eq (h : w.heap.get p = some x) (hne : x.nRefCount - 1 ≠ 0) : release p w =
    .ok () { w with heap := w.heap.store p { x with nRefCount := x.nRefCount - 1 } } := by
  rw [release, bind_of_ok (object_eq h), if_neg hne]
  rfl

/-- The last reference. -/
theorem release_last (h : w.heap.get p = some x) (hlast : x.nRefCount - 1 = 0) :
    release p w = .ok () { w with heap := w.heap.delete p } := by
  rw [release, bind_of_ok (object_eq h), if_pos hlast]
  rfl

/-- The objects with one reference more to a group. -/
def hold (w : Objects) (p : ℕ) (g : COPCGroup) : Objects :=
  { w with heap := w.heap.store p ⟨2, g⟩ }

/-- The objects with the list at an entry. -/
def cursor (w : Objects) (n : ℕ) : Objects :=
  { w with groupList := w.groupList.map fun l => { l with nPtr := n } }

/-- The second reference dropped, after the group may have changed. -/
theorem release_changed {g g' : COPCGroup} (h : w.heap.get p = some ⟨1, g⟩) :
    release p (w.hold p g') = .ok () { w with heap := w.heap.store p ⟨1, g'⟩ } := by
  have hself : (w.hold p g').heap.get p = some ⟨2, g'⟩ := Heap.get_store_self h
  have hne : (2 : ℤ) - 1 ≠ 0 := by decide
  rw [release_eq hself hne]
  exact congrArg (fun heap => EStateM.Result.ok () { w with heap }) Heap.store_store

/-- A reference taken and dropped. -/
theorem release_hold {g : COPCGroup} (h : w.heap.get p = some ⟨1, g⟩) :
    release p (w.hold p g) = .ok () w := by
  rw [release_changed h, Heap.store_get h]

/-- What a call does to its group. -/
theorem setObject_hold (w : Objects) (p : ℕ) (g g' : COPCGroup) :
    setObject p ⟨2, g'⟩ (w.hold p g) = .ok () (w.hold p g') := by
  have hstore : (w.heap.store p ⟨2, g⟩).store p ⟨2, g'⟩ = w.heap.store p ⟨2, g'⟩ :=
    Heap.store_store
  exact congrArg (fun heap => EStateM.Result.ok () { w with heap }) hstore

end

end Objects

section

variable {w : Objects} {s : SapiState} {ps : List ℕ}

/-- An entry of the list. -/
theorem Shows.get (h : Shows w s ps) {n p : ℕ} (hp : ps[n]? = some p) :
    ∃ g, s.groups[n]? = some g ∧ w.heap.get p = some ⟨1, g⟩ := by
  have hget := congrArg (fun xs => xs[n]?) h.groups
  simp only [List.getElem?_map, hp, Option.map_some] at hget
  obtain ⟨g, hg, heq⟩ := Option.map_eq_some_iff.1 hget.symm
  exact ⟨g, hg, heq.symm⟩

theorem Shows.length (h : Shows w s ps) : ps.length = s.groups.length := by
  have hlen := congrArg List.length h.groups
  rwa [List.length_map, List.length_map] at hlen

theorem Shows.cursor (h : Shows w s ps) (n : ℕ) : Shows (w.cursor n) s ps where
  connected := h.connected
  list l hl := by
    obtain ⟨l₀, hl₀, rfl⟩ := Option.map_eq_some_iff.1 hl
    exact h.list l₀ hl₀
  noList hl := h.noList (Option.map_eq_none_iff.1 hl)
  distinct := h.distinct
  groups := h.groups
  live := h.live
  names := h.names

end

namespace Objects

section

variable {w : Objects} {s : SapiState} {ps : List ℕ} {l : CCObjectList}

theorem list_eq (hl : w.groupList = some l) : list w = .ok l w := by
  rw [list, hl]

theorem setList_cursor (hl : w.groupList = some l) (n : ℕ) :
    setList { l with nPtr := n } w = .ok () (w.cursor n) := by
  rw [cursor, hl]
  rfl

/-- A reference to an entry of the list. -/
theorem refEntry_eq (h : Shows w s ps) (hl : w.groupList = some l) {n p : ℕ} {g : COPCGroup}
    (hp : ps[n]? = some p) (hg : w.heap.get p = some ⟨1, g⟩) :
    refEntry l n w = .ok (some p) (w.hold p g) := by
  obtain ⟨-, harray, -⟩ := h.list l hl
  have hentry : l.ppOArray[n]? = some (some p) := by
    have hget := congrArg (fun xs => xs[n]?) harray
    have hlt := (List.getElem?_eq_some_iff.1 hp).1
    simpa only [List.getElem?_take_of_lt hlt, List.getElem?_map, hp, Option.map_some] using hget
  rw [refEntry, hentry]
  simp only
  rw [bind_of_ok (addRef_eq hg)]
  rfl

/-- `First` and `Next` come to the entry `n`, or to the end of the list. -/
theorem refEntry_or_end (h : Shows w s ps) (hl : w.groupList = some l) (n : ℕ) :
    (∃ p g, ps[n]? = some p ∧ s.groups[n]? = some g ∧ w.heap.get p = some ⟨1, g⟩ ∧
        n < l.nCount ∧ refEntry l n (w.cursor n) = .ok (some p) ((w.cursor n).hold p g)) ∨
      (¬ n < l.nCount ∧ s.groups.length ≤ n) := by
  obtain ⟨hcount, -, -⟩ := h.list l hl
  by_cases hn : n < ps.length
  · have hp : ps[n]? = some ps[n] := List.getElem?_eq_getElem hn
    obtain ⟨g, hg, hget⟩ := h.get hp
    have hl' : (w.cursor n).groupList = some { l with nPtr := n } := by rw [cursor, hl]; rfl
    exact .inl ⟨_, g, hp, hg, hget, hcount ▸ hn, refEntry_eq (h.cursor n) hl' hp hget⟩
  · exact .inr ⟨by rwa [hcount], by rw [← h.length]; omega⟩

theorem first_eq (hl : w.groupList = some l) : first w =
    if 0 < l.nCount then refEntry l 0 (w.cursor 0) else .ok none (w.cursor 0) := by
  rw [first, bind_of_ok (list_eq hl), bind_of_ok (setList_cursor hl 0)]
  by_cases hzero : l.nCount = 0
  · rw [if_neg (not_not.2 hzero), if_neg (by omega)]
    rfl
  · rw [if_pos hzero, if_pos (Nat.pos_of_ne_zero hzero)]

theorem next_eq (hl : w.groupList = some l) (n : ℕ) : next (w.cursor n) =
    if n + 1 < l.nCount then refEntry l (n + 1) (w.cursor (n + 1))
    else .ok none (w.cursor (n + 1)) := by
  have hl' : (w.cursor n).groupList = some { l with nPtr := n } := by rw [cursor, hl]; rfl
  have hset : (w.cursor n).cursor (n + 1) = w.cursor (n + 1) := by
    rw [cursor, cursor, cursor, hl]
    rfl
  rw [next, bind_of_ok (list_eq hl'), bind_of_ok (setList_cursor hl' (n + 1)), hset]
  split_ifs <;> rfl

/-- What a search that has come to the entry `n` finds: a group of the name, which it holds, or
none. -/
def Finds (w : Objects) (s : SapiState) (szName : Bytes) (n : ℕ)
    (res : EStateM.Result Fault Objects (Option ℕ)) : Prop :=
  (∃ p g m, w.heap.get p = some ⟨1, g⟩ ∧ s.groups[m]? = some g ∧ g.name = szName ∧
      res = .ok (some p) ((w.cursor m).hold p g)) ∨
    (∀ m g, n ≤ m → s.groups[m]? = some g → g.name ≠ szName) ∧ ∃ m, res = .ok none (w.cursor m)

/-- **The loop of `GetGroupByName`** drops every reference but the last. -/
theorem searchGroup_finds (h : Shows w s ps) (hl : w.groupList = some l) (szName : Bytes)
    {rounds n p : ℕ} {g : COPCGroup} (hrounds : s.groups.length ≤ n + rounds)
    (hg : s.groups[n]? = some g) (hget : w.heap.get p = some ⟨1, g⟩) :
    Finds w s szName n (searchGroup szName rounds (some p) ((w.cursor n).hold p g)) := by
  induction rounds generalizing n p g with
  | zero =>
    have hlt := (List.getElem?_eq_some_iff.1 hg).1
    omega
  | succ rounds ih =>
    have hself : ((w.cursor n).hold p g).heap.get p = some ⟨2, g⟩ := Heap.get_store_self hget
    rw [searchGroup, bind_of_ok (object_eq hself)]
    by_cases hname : g.name = szName
    · rw [if_pos hname]
      exact .inl ⟨p, g, n, hget, hg, hname, rfl⟩
    · rw [if_neg hname, bind_of_ok (release_hold (w := w.cursor n) hget)]
      -- what is found behind this group
      have hmore {res : EStateM.Result Fault Objects (Option ℕ)}
          (hres : Finds w s szName (n + 1) res) : Finds w s szName n res := by
        refine hres.imp_right fun ⟨hno, hend⟩ => ⟨fun m g' hm hg' => ?_, hend⟩
        rcases Nat.eq_or_lt_of_le hm with rfl | hm
        · rw [hg, Option.some.injEq] at hg'
          rwa [← hg']
        · exact hno m g' hm hg'
      rcases refEntry_or_end h hl (n + 1) with ⟨q, g', -, hg', hget', hlt, href⟩ | ⟨hend, hlen⟩
      · have hnext : next (w.cursor n) = .ok (some q) ((w.cursor (n + 1)).hold q g') := by
          rw [next_eq hl, if_pos hlt, href]
        rw [bind_of_ok hnext]
        exact hmore (ih (by omega) hg' hget')
      · have hnext : next (w.cursor n) = .ok none (w.cursor (n + 1)) := by
          rw [next_eq hl, if_neg hend]
        rw [bind_of_ok hnext]
        refine hmore (.inr ⟨fun m g' hm hg' => ?_, n + 1, by cases rounds <;> rfl⟩)
        have hlt := (List.getElem?_eq_some_iff.1 hg').1
        omega

/-- **`GetGroupByName`** -/
theorem getGroupByName_finds (h : Shows w s ps) (szName : Bytes) :
    (∃ w₁ p g, Shows w₁ s ps ∧ w₁.heap.get p = some ⟨1, g⟩ ∧ s.group? szName = some g ∧
        getGroupByName szName w = .ok (some p) (w₁.hold p g)) ∨
      (∃ w₁, Shows w₁ s ps ∧ s.group? szName = none ∧
        getGroupByName szName w = .ok none w₁) := by
  rw [getGroupByName, bind_get]
  cases hl : w.groupList with
  | none =>
    refine .inr ⟨w, h, ?_, rfl⟩
    have hnil : s.groups = [] := by
      have hlen := h.length
      rw [h.noList hl] at hlen
      exact List.eq_nil_of_length_eq_zero hlen.symm
    rw [SapiState.group?, hnil]
    rfl
  | some l =>
    have hfinds : Finds w s szName 0 ((first >>= searchGroup szName l.nCount) w) := by
      rcases refEntry_or_end h hl 0 with ⟨p, g, -, hg, hget, hlt, href⟩ | ⟨hend, hlen⟩
      · have hfirst : first w = .ok (some p) ((w.cursor 0).hold p g) := by
          rw [first_eq hl, if_pos hlt, href]
        rw [bind_of_ok hfirst]
        refine searchGroup_finds h hl szName ?_ hg hget
        rw [(h.list l hl).1, h.length, Nat.zero_add]
      · have hfirst : first w = .ok none (w.cursor 0) := by
          rw [first_eq hl, if_neg hend]
        rw [bind_of_ok hfirst]
        refine .inr ⟨fun m g _ hg => ?_, 0, by cases l.nCount <;> rfl⟩
        have hlt := (List.getElem?_eq_some_iff.1 hg).1
        omega
    rcases hfinds with ⟨p, g, m, hget, hg, hname, heq⟩ | ⟨hno, m, heq⟩
    · refine .inl ⟨w.cursor m, p, g, h.cursor m, hget, ?_, heq⟩
      have hmem := List.mem_of_getElem? hg
      rw [SapiState.group?, ← hname]
      exact Keyed.find?_key h.names hmem
    · refine .inr ⟨w.cursor m, h.cursor m, ?_, heq⟩
      rw [SapiState.group?, List.find?_eq_none]
      intro g hmem hname
      obtain ⟨k, hk⟩ := List.getElem?_of_mem hmem
      exact hno k g (Nat.zero_le k) hk (of_decide_eq_true hname)

end

end Objects

/-! ### Groups that are added -/

/-- The list with one entry more. -/
def CCObjectList.added (l : CCObjectList) (p : ℕ) : CCObjectList :=
  { l.grown with
    ppOArray := l.grown.ppOArray.set l.grown.nCount (some p), nCount := l.grown.nCount + 1 }

/-- Room for one more. -/
structure CCObjectList.Room (l : CCObjectList) (ps : List ℕ) : Prop where
  count : l.nCount = ps.length
  taken : l.ppOArray.take ps.length = ps.map some
  room : ps.length < l.ppOArray.length
  addSize : 0 < l.nAddSize

namespace CCObjectList

variable {l : CCObjectList} {ps : List ℕ}

theorem room_grown (hcount : l.nCount = ps.length)
    (htaken : l.ppOArray.take ps.length = ps.map some) (hsize : 0 < l.nAddSize) :
    l.grown.Room ps := by
  have hlen : ps.length ≤ l.ppOArray.length := by
    have heq := congrArg List.length htaken
    rw [List.length_take, List.length_map] at heq
    omega
  unfold grown
  split_ifs with hfull
  · refine ⟨hcount, ?_, ?_, hsize⟩
    · rw [List.take_append_of_le_length hlen, htaken]
    · rw [List.length_append, List.length_replicate]
      omega
  · exact ⟨hcount, htaken, by omega, hsize⟩

/-- What is in the array, with one entry more. -/
theorem Room.take_set (h : l.Room ps) (p : ℕ) :
    (l.ppOArray.set l.nCount (some p)).take (ps ++ [p]).length = (ps ++ [p]).map some := by
  rw [List.length_append, List.length_singleton, List.map_append, h.count, List.take_add_one,
    List.take_set_of_le (Nat.le_refl _), h.taken, List.getElem?_set_self h.room]
  rfl

end CCObjectList

section

variable {w : Objects} {s : SapiState} {ps : List ℕ} {l : CCObjectList}

theorem Shows.grown (h : Shows w s ps) (hl : w.groupList = some l) : l.grown.Room ps := by
  obtain ⟨hcount, htaken, hsize⟩ := h.list l hl
  exact CCObjectList.room_grown hcount htaken hsize

/-- A group joins the list, at the next address. -/
theorem Shows.append (h : Shows w s ps) (hroom : l.Room ps) {g : COPCGroup}
    (hname : s.group? g.name = none) :
    Shows { w with
        groupList := some { l with
          ppOArray := l.ppOArray.set l.nCount (some w.heap.length), nCount := l.nCount + 1 }
        heap := w.heap.new ⟨1, g⟩ }
      { s with groups := s.groups ++ [g] } (ps ++ [w.heap.length]) := by
  have hne : ∀ p ∈ ps, p ≠ w.heap.length := by
    intro p hp
    obtain ⟨n, hn⟩ := List.getElem?_of_mem hp
    obtain ⟨g', -, hget⟩ := h.get hn
    exact Nat.ne_of_lt (Heap.lt_of_get hget)
  refine ⟨h.connected, ?_, ?_, ?_, ?_, fun p x hp => ?_, ?_⟩
  · rintro - ⟨rfl⟩
    refine ⟨?_, hroom.take_set _, hroom.addSize⟩
    rw [List.length_append, List.length_singleton, hroom.count]
  · intro hnone
    cases hnone
  · exact List.nodup_append.2 ⟨h.distinct, by simp, fun p hp q hq => by
      rw [List.mem_singleton.1 hq]; exact hne p hp⟩
  · rw [List.map_append, List.map_append, ← h.groups]
    refine congrArg₂ (· ++ ·) (List.map_congr_left fun p hp => ?_) ?_
    · exact Heap.get_new_ne (hne p hp)
    · rw [List.map_singleton, List.map_singleton, Heap.get_new_self]
  · by_cases hnew : p = w.heap.length
    · exact List.mem_append_right _ (by rw [hnew]; exact List.mem_singleton_self _)
    · exact List.mem_append_left _ (h.live p x ((Heap.get_new_ne hnew).symm.trans hp))
  · rw [List.map_append, List.nodup_append]
    refine ⟨h.names, by simp, ?_⟩
    intro a ha b hb hab
    obtain ⟨g', hg', rfl⟩ := List.mem_map.1 ha
    rw [SapiState.group?, List.find?_eq_none] at hname
    exact hname g' hg' (by rw [hab, List.mem_singleton.1 hb]; exact decide_eq_true rfl)

end

namespace Objects

section

variable {w : Objects} {s : SapiState} {ps : List ℕ} {l : CCObjectList}

/-- `Add`, where the list has room. -/
theorem add_ok {p : ℕ} {x : GroupObject} (hl : w.groupList = some l)
    (hlt : l.grown.nCount < l.grown.ppOArray.length) (hx : w.heap.get p = some x) :
    add p w = .ok () { w with
      groupList := some (l.added p)
      heap := w.heap.store p { x with nRefCount := x.nRefCount + 1 } } := by
  have hset : setList (l.added p) w = .ok () { w with groupList := some (l.added p) } := rfl
  rw [add, bind_of_ok (list_eq hl)]
  simp only [if_pos hlt]
  rw [← CCObjectList.added, bind_of_ok hset]
  exact addRef_eq (w := { w with groupList := some (l.added p) }) hx

/-- `Add` of the object that was made last, which has one reference. -/
theorem add_eq (h : Shows w s ps) (hl : w.groupList = some l) (g : COPCGroup) :
    ∃ l', add w.heap.length { w with heap := w.heap.new ⟨1, g⟩ } = .ok ()
        (hold { w with groupList := some l', heap := w.heap.new ⟨1, g⟩ } w.heap.length g) ∧
      (s.group? g.name = none → Shows { w with groupList := some l', heap := w.heap.new ⟨1, g⟩ }
        { s with groups := s.groups ++ [g] } (ps ++ [w.heap.length])) := by
  have hroom := h.grown hl
  have hlt : l.grown.nCount < l.grown.ppOArray.length := hroom.count ▸ hroom.room
  exact ⟨l.added w.heap.length,
    add_ok (w := { w with heap := w.heap.new ⟨1, g⟩ }) hl hlt Heap.get_new_self, h.append hroom⟩

/-- The objects with a list of groups, made if there is none. -/
def listMade (w : Objects) : Objects :=
  { w with groupList := some (w.groupList.getD (.new 10 5)) }

theorem makeList_ok (w : Objects) : makeList w = .ok () (listMade w) := by
  rw [makeList, bind_get, listMade]
  cases hl : w.groupList with
  | none => rfl
  | some l =>
    rw [if_neg (Option.some_ne_none l), Option.getD_some, ← hl]
    rfl

theorem makeList_eq (h : Shows w s ps) :
    ∃ l w₀, makeList w = .ok () w₀ ∧ w₀.groupList = some l ∧ w₀.heap = w.heap ∧
      Shows w₀ s ps := by
  refine ⟨_, _, makeList_ok w, rfl, rfl, h.connected, ?_, ?_, h.distinct, h.groups, h.live,
    h.names⟩
  · rintro - ⟨rfl⟩
    cases hl : w.groupList with
    | none =>
      rw [h.noList hl]
      exact ⟨rfl, rfl, by decide⟩
    | some l => exact h.list l hl
  · intro hnone
    cases hnone

/-- **`AddGroup`**: a group with two references, its own name and nothing in it; no group, and no
object left; or an exception. -/
theorem addGroup_cases (h : Shows w s ps) (r : ComReplies) {szName : Bytes}
    (hname : s.group? szName = none) :
    (∃ w₁ p, Shows w₁ { s with groups := s.groups ++ [⟨szName, [], []⟩] } (ps ++ [p]) ∧
        w₁.heap.get p = some ⟨1, ⟨szName, [], []⟩⟩ ∧
        failed r.addGroup = false ∧ failed r.constructed = false ∧
        addGroup r szName w = .ok (some p) (w₁.hold p ⟨szName, [], []⟩)) ∨
      (∃ w₁, Shows w₁ s ps ∧ (failed r.addGroup = true ∨ failed r.constructed = true) ∧
        addGroup r szName w = .ok none w₁) ∨
      (r.destroyed = false ∧ ∃ w₁, addGroup r szName w = .error .raised w₁) := by
  obtain ⟨l, w₀, hmake, hl, -, h₀⟩ := makeList_eq h
  set g : COPCGroup := ⟨szName, [], []⟩ with hg
  rw [addGroup, bind_of_ok hmake]
  by_cases hadd : failed r.addGroup = true
  · exact .inr (.inl ⟨w₀, h₀, .inl hadd, by rw [if_pos hadd]; rfl⟩)
  · rw [if_neg hadd, bind_get]
    set w₁ : Objects := { w₀ with heap := w₀.heap.new ⟨0, g⟩ } with hw₁
    set w₂ : Objects := { w₀ with heap := w₀.heap.new ⟨1, g⟩ } with hw₂
    have hnew : (modify fun w => { w with heap := w.heap.new ⟨0, g⟩ } : ObjectsM Unit) w₀ =
      .ok () w₁ := rfl
    have href : addRef w₀.heap.length w₁ = .ok () w₂ := by
      rw [addRef_eq Heap.get_new_self]
      exact congrArg (fun heap => EStateM.Result.ok () { w₀ with heap }) Heap.store_new
    rw [bind_of_ok hnew, bind_of_ok href]
    by_cases hbuilt : failed r.constructed = true
    · -- the object is deleted with its only reference
      have hself : w₂.heap.get w₀.heap.length = some ⟨1, g⟩ := Heap.get_new_self
      have hlast : (1 : ℤ) - 1 = 0 := by decide
      rw [if_pos hbuilt, bind_of_ok (release_last hself hlast), hw₂, Heap.delete_new]
      cases hdestroyed : r.destroyed with
      | false => exact .inr (.inr ⟨rfl, _, rfl⟩)
      | true =>
        refine .inr (.inl ⟨{ w₀ with heap := w₀.heap ++ [none] }, ⟨h₀.connected, h₀.list,
          h₀.noList, h₀.distinct, ?_, ?_, h₀.names⟩, .inr hbuilt, rfl⟩)
        · rw [← h₀.groups]
          exact List.map_congr_left fun p _ => Heap.get_append_none _ p
        · intro p x hp
          exact h₀.live p x ((Heap.get_append_none _ p).symm.trans hp)
    · obtain ⟨l', hadded, hshows⟩ := add_eq h₀ hl g
      rw [if_neg hbuilt, bind_of_ok hadded]
      exact .inl ⟨_, w₀.heap.length, hshows hname, Heap.get_new_self, by simpa using hadd,
        by simpa using hbuilt, rfl⟩

end

end Objects

end OpcS7

end Edps
