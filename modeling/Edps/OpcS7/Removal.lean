import Edps.OpcS7.Interfaces

/-!
# Groups that are removed

`RemoveGroup` finds a group by its name, takes its interfaces from it and asks the server to remove
it.  Only when the server does so the group leaves the list; when it does not, the group stays there
without its interfaces.

* `Listed` : the groups of a list, which may be there more than once.
* `getGroupByNameAt_cases` : the first group of a name, and its position.
* `removed_of_accepted` : a group that the server has removed leaves the list with its reference.
* `removeGroup_iff` : a group that the server keeps stays usable exactly if it had no interfaces.
-/

namespace Edps

namespace OpcS7

/-! ### Lists of groups -/

/-- The list of groups is `ps`, and each of them has a reference for every time it is there. -/
structure Listed (w : Objects) (ps : List ℕ) : Prop where
  list : ∀ l ∈ w.groupList, l.nCount = ps.length ∧ l.ppOArray.take ps.length = ps.map some ∧
    0 < l.nAddSize
  noList : w.groupList = none → ps = []
  live : ∀ p ∈ ps, ∃ x, w.heap.get p = some x ∧ (ps.count p : ℤ) ≤ x.nRefCount

/-- No group before the position `n` has the name. -/
def Before (w : Objects) (ps : List ℕ) (szName : Bytes) (n : ℕ) : Prop :=
  ∀ j < n, ∀ q ∈ ps[j]?, ∀ y ∈ w.heap.get q, y.group.name ≠ szName

/-- The first group of a name: `p` at the position `k`. -/
structure FirstNamed (w : Objects) (ps : List ℕ) (szName : Bytes) (k p : ℕ) (x : GroupObject) :
    Prop where
  entry : ps[k]? = some p
  object : w.heap.get p = some x
  name : x.group.name = szName
  before : Before w ps szName k

section

variable {w : Objects} {ps : List ℕ} {szName : Bytes} {k p : ℕ} {x : GroupObject}

theorem FirstNamed.unique (h : FirstNamed w ps szName k p x) {k' p' : ℕ}
    {x' : GroupObject} (h' : FirstNamed w ps szName k' p' x') : k' = k ∧ p' = p ∧ x' = x := by
  have hk : k' = k := by
    rcases Nat.lt_trichotomy k' k with hlt | heq | hlt
    · exact absurd h'.name (h.before k' hlt p' h'.entry x' h'.object)
    · exact heq
    · exact absurd h.name (h'.before k hlt p h.entry x h.object)
  have hp : p' = p := by
    have hentry := h'.entry
    rw [hk, h.entry, Option.some.injEq] at hentry
    exact hentry.symm
  have hx := h'.object
  rw [hp, h.object, Option.some.injEq] at hx
  exact ⟨hk, hp, hx.symm⟩

theorem FirstNamed.not_before (h : FirstNamed w ps szName k p x) :
    ¬ Before w ps szName ps.length := fun hbefore =>
  hbefore k (List.getElem?_eq_some_iff.1 h.entry).1 p h.entry x h.object h.name

end

namespace Objects

/-- The objects with one reference more to one of them. -/
def more (w : Objects) (p : ℕ) (x : GroupObject) : Objects :=
  { w with heap := w.heap.store p { x with nRefCount := x.nRefCount + 1 } }

/-- The objects with one reference less to one of them, which is not its last. -/
def fewer (w : Objects) (p : ℕ) (x : GroupObject) : Objects :=
  { w with heap := w.heap.store p { x with nRefCount := x.nRefCount - 1 } }

section

variable {w : Objects} {ps : List ℕ} {l : CCObjectList} {n p : ℕ} {x : GroupObject}
  {szName : Bytes}

theorem get_more (h : w.heap.get p = some x) :
    (w.more p x).heap.get p = some { x with nRefCount := x.nRefCount + 1 } :=
  Heap.get_store_self h

/-- A reference taken and dropped. -/
theorem release_more (h : w.heap.get p = some x) (hpos : 1 ≤ x.nRefCount) :
    release p (w.more p x) = .ok () w := by
  have hne : x.nRefCount + 1 - 1 ≠ 0 := by omega
  rw [release_eq (get_more h) hne, more]
  have hcount : x.nRefCount + 1 - 1 = x.nRefCount := by omega
  simp only [hcount, Heap.store_store, Heap.store_get h]

theorem listed_cursor (h : Listed w ps) (n : ℕ) : Listed (w.cursor n) ps where
  list l hl := by
    obtain ⟨l₀, hl₀, rfl⟩ := Option.map_eq_some_iff.1 hl
    exact h.list l₀ hl₀
  noList hl := h.noList (Option.map_eq_none_iff.1 hl)
  live := h.live

theorem groupList_cursor (hl : w.groupList = some l) (n : ℕ) :
    (w.cursor n).groupList = some { l with nPtr := n } := by
  rw [cursor, hl]
  rfl

theorem listed_pos (h : Listed w ps) (hp : ps[n]? = some p) (hx : w.heap.get p = some x) :
    1 ≤ x.nRefCount := by
  have hmem := List.mem_of_getElem? hp
  obtain ⟨y, hy, hle⟩ := h.live p hmem
  have hcount := List.count_pos_iff.2 hmem
  rw [hx, Option.some.injEq] at hy
  subst hy
  omega

/-- The array at a position of the list. -/
theorem listed_entry (h : Listed w ps) (hl : w.groupList = some l) (hp : ps[n]? = some p) :
    l.ppOArray[n]? = some (some p) := by
  obtain ⟨-, harray, -⟩ := h.list l hl
  have hget := congrArg (fun xs => xs[n]?) harray
  have hlt := (List.getElem?_eq_some_iff.1 hp).1
  simpa only [List.getElem?_take_of_lt hlt, List.getElem?_map, hp, Option.map_some] using hget

theorem refEntry_more (h : Listed w ps) (hl : w.groupList = some l) (hp : ps[n]? = some p)
    (hx : w.heap.get p = some x) : refEntry l n w = .ok (some p) (w.more p x) := by
  rw [refEntry, listed_entry h hl hp]
  simp only
  rw [bind_of_ok (addRef_eq hx)]
  rfl

end

end Objects

namespace Client

open Objects

/-! ### The search -/

section

variable {w : Objects} {ps : List ℕ} {l : CCObjectList} {szName : Bytes}

/-- What a search comes to: the first group of the name, with a reference to it, or none. -/
def SearchEnds (w : Objects) (ps : List ℕ) (szName : Bytes)
    (res : EStateM.Result Fault Objects (Option ℕ × ℕ)) : Prop :=
  (∃ k p x, FirstNamed w ps szName k p x ∧ res = .ok (some p, k) ((w.cursor k).more p x)) ∨
    Before w ps szName ps.length ∧ ∃ m k, res = .ok (none, m) (w.cursor k)

/-- `First` and `Next` come to the position `n`, or to the end of the list. -/
theorem refEntry_or_none (h : Listed w ps) (hl : w.groupList = some l) (n : ℕ) :
    (∃ p x, ps[n]? = some p ∧ w.heap.get p = some x ∧ n < l.nCount ∧
        refEntry { l with nPtr := n } n (w.cursor n) = .ok (some p) ((w.cursor n).more p x)) ∨
      (¬ n < l.nCount ∧ ps.length ≤ n) := by
  obtain ⟨hcount, -, -⟩ := h.list l hl
  by_cases hn : n < ps.length
  · have hp : ps[n]? = some ps[n] := List.getElem?_eq_getElem hn
    obtain ⟨x, hx, -⟩ := h.live _ (List.getElem_mem hn)
    exact .inl ⟨_, x, hp, hx, hcount ▸ hn,
      refEntry_more (listed_cursor h n) (groupList_cursor hl n) hp hx⟩
  · exact .inr ⟨by rwa [hcount], Nat.le_of_not_lt hn⟩

/-- **The loop of `GetGroupByName`**, with positions. -/
theorem searchGroupAt_ends (h : Listed w ps) (hl : w.groupList = some l) {rounds n p : ℕ}
    {x : GroupObject} (hrounds : ps.length ≤ n + rounds) (hp : ps[n]? = some p)
    (hx : w.heap.get p = some x) (hbefore : Before w ps szName n) :
    SearchEnds w ps szName
      (searchGroupAt szName rounds n (some p) ((w.cursor n).more p x)) := by
  induction rounds generalizing n p x with
  | zero =>
    have hlt := (List.getElem?_eq_some_iff.1 hp).1
    omega
  | succ rounds ih =>
    have hself : ((w.cursor n).more p x).heap.get p =
        some { x with nRefCount := x.nRefCount + 1 } := get_more (w := w.cursor n) hx
    rw [searchGroupAt, bind_of_ok (object_eq hself)]
    by_cases hname : x.group.name = szName
    · rw [if_pos hname]
      exact .inl ⟨n, p, x, ⟨hp, hx, hname, hbefore⟩, rfl⟩
    · rw [if_neg hname, bind_of_ok (release_more (w := w.cursor n) hx (listed_pos h hp hx))]
      have hnext : Before w ps szName (n + 1) := by
        intro j hj q hq y hy
        rcases Nat.eq_or_lt_of_le (Nat.le_of_lt_succ hj) with rfl | hj
        · rw [hp, Option.mem_some_iff] at hq
          subst hq
          rw [hx, Option.mem_some_iff] at hy
          rwa [← hy]
        · exact hbefore j hj q hq y hy
      rcases refEntry_or_none h hl (n + 1) with ⟨q, y, hq, hy, hlt, href⟩ | ⟨hend, hlen⟩
      · have hto : Objects.next (w.cursor n) = .ok (some q) ((w.cursor (n + 1)).more q y) := by
          rw [next_eq hl, if_pos hlt]
          exact href
        rw [bind_of_ok hto]
        exact ih (by omega) hq hy hnext
      · have hto : Objects.next (w.cursor n) = .ok none (w.cursor (n + 1)) := by
          rw [next_eq hl, if_neg hend]
        rw [bind_of_ok hto]
        refine .inr ⟨fun j hj => hnext j (by omega), n + 1, n + 1, by cases rounds <;> rfl⟩

/-- **`GetGroupByName`**, with the position. -/
theorem getGroupByNameAt_cases (h : Listed w ps) (szName : Bytes) :
    SearchEnds w ps szName (getGroupByNameAt szName w) := by
  rw [getGroupByNameAt, bind_get]
  cases hl : w.groupList with
  | none =>
    have hcursor : w.cursor 0 = w := by rw [cursor, hl, Option.map_none, ← hl]
    refine .inr ⟨?_, 0, 0, by rw [hcursor]; rfl⟩
    rw [h.noList hl]
    intro j hj
    cases hj
  | some l =>
    have hzero : Before w ps szName 0 := fun j hj => by cases hj
    rcases refEntry_or_none h hl 0 with ⟨p, x, hp, hx, hlt, href⟩ | ⟨hend, hlen⟩
    · have hfirst : Objects.first w = .ok (some p) ((w.cursor 0).more p x) := by
        rw [first_eq hl, if_pos hlt]
        exact href
      simp only
      rw [bind_of_ok hfirst]
      refine searchGroupAt_ends h hl ?_ hp hx hzero
      rw [(h.list l hl).1, Nat.zero_add]
    · have hfirst : Objects.first w = .ok none (w.cursor 0) := by
        rw [first_eq hl, if_neg hend]
      simp only
      rw [bind_of_ok hfirst]
      exact .inr ⟨fun j hj => hzero j (by omega), 0, 0, by cases l.nCount <;> rfl⟩

end

/-! ### Interfaces taken from a group -/

/-- A group that was built to its end. -/
structure Built (m : Members) : Prop where
  set : ∀ f, m.pointer f ≠ none
  items : ∃ a, m.pointer .pItems = some (some a)

/-- A group without interfaces. -/
structure Detached (m : Members) : Prop where
  unGroup : m.pointer .pUnGroup = some none
  items : m.pointer .pIItems = some none
  sync : m.pointer .pISync = some none

/-- Pointers of a group have become NULL, and nothing else of its members has changed. -/
structure Nulled (c c' : Client) (p : ℕ) (fs : List GroupPointer) : Prop where
  objects : c'.objects = c.objects
  others : ∀ q ≠ p, c'.members q = c.members q
  hServer : (c'.members p).hServer = (c.members p).hServer
  pointer : ∀ g, (c'.members p).pointer g =
    if g ∈ fs then some none else (c.members p).pointer g

section

variable {c c' c'' : Client} {p : ℕ} {fs gs : List GroupPointer} {f : GroupPointer}

theorem Nulled.trans (h : Nulled c c' p fs) (h' : Nulled c' c'' p gs) :
    Nulled c c'' p (fs ++ gs) where
  objects := h'.objects.trans h.objects
  others q hq := (h'.others q hq).trans (h.others q hq)
  hServer := h'.hServer.trans h.hServer
  pointer g := by
    rw [h'.pointer, h.pointer]
    simp only [List.mem_append]
    split_ifs <;> first | rfl | simp_all

/-- A group that was built stays so. -/
theorem Nulled.built (h : Nulled c c' p fs) (hitems : .pItems ∉ fs) (hb : Built (c.members p)) :
    Built (c'.members p) where
  set g := by
    rw [h.pointer]
    split_ifs
    · exact Option.some_ne_none _
    · exact hb.set g
  items := by
    obtain ⟨a, ha⟩ := hb.items
    exact ⟨a, by rw [h.pointer, if_neg hitems, ha]⟩

theorem dropIfSet_nulls (hset : (c.members p).pointer f ≠ none) :
    ∃ c', dropIfSet p f c = .ok () c' ∧ Nulled c c' p [f] := by
  obtain ⟨v, hv⟩ := Option.ne_none_iff_exists'.1 hset
  cases v with
  | none =>
    refine ⟨c, dropIfSet_null hv, rfl, fun _ _ => rfl, rfl, fun g => ?_⟩
    by_cases hg : g = f
    · rw [hg, hv, if_pos (List.mem_singleton_self f)]
    · rw [if_neg (by simpa using hg)]
  | some a =>
    refine ⟨_, dropIfSet_eq hv, rfl, fun q hq => members_setMembers_ne hq _ _, ?_, fun g => ?_⟩
    · rw [giveBack, setPointer, members_setMembers_self]
    · rw [pointer_giveBack]
      simp only [List.mem_singleton]

/-- **`Detouch`** -/
theorem detouch_nulls (hb : Built (c.members p)) :
    ∃ c', detouch p c = .ok () c' ∧ Nulled c c' p [.pUnGroup, .pIItems, .pISync] := by
  obtain ⟨c₁, hdrop₁, h₁⟩ := dropIfSet_nulls (hb.set .pUnGroup)
  obtain ⟨c₂, hdrop₂, h₂⟩ := dropIfSet_nulls ((h₁.built (by decide) hb).set .pIItems)
  have h₁₂ := h₁.trans h₂
  obtain ⟨c₃, hdrop₃, h₃⟩ := dropIfSet_nulls ((h₁₂.built (by decide) hb).set .pISync)
  exact ⟨c₃, by rw [detouch, bind_of_ok hdrop₁, bind_of_ok hdrop₂, hdrop₃], h₁₂.trans h₃⟩

theorem Nulled.detached (h : Nulled c c' p [.pUnGroup, .pIItems, .pISync]) :
    Detached (c'.members p) where
  unGroup := (h.pointer _).trans (if_pos (by decide))
  items := (h.pointer _).trans (if_pos (by decide))
  sync := (h.pointer _).trans (if_pos (by decide))

/-- A group without interfaces has none to give back. -/
theorem detouch_detached (h : Detached (c.members p)) : detouch p c = .ok () c := by
  rw [detouch, bind_of_ok (dropIfSet_null h.unGroup), bind_of_ok (dropIfSet_null h.items),
    dropIfSet_null h.sync]

/-- The destructor of a group that was built. -/
theorem destroy_built (hb : Built (c.members p)) :
    ∃ c', destroy p c = .ok () c' ∧ c'.objects = c.objects ∧ Built (c'.members p) ∧
      ∀ q ≠ p, c'.members q = c.members q := by
  obtain ⟨c₁, hdetouch, hnulls⟩ := detouch_nulls hb
  have hb₁ := hnulls.built (by decide) hb
  obtain ⟨a, ha⟩ := hb₁.items
  obtain ⟨v, hv⟩ := Option.ne_none_iff_exists'.1 (hb₁.set .pszName)
  refine ⟨c₁.setPointer p .pszName none, ?_, hnulls.objects, ⟨fun g => ?_, a, ?_⟩, fun q hq => ?_⟩
  · rw [destroy, bind_of_ok hdetouch, bind_of_ok (deref_eq ha), bind_of_ok (readMember_eq hv)]
    rfl
  · rw [pointer_setPointer]
    split_ifs
    · exact Option.some_ne_none _
    · exact hb₁.set g
  · rw [pointer_setPointer, if_neg (by decide), ha]
  · exact (members_setMembers_ne hq _ _).trans (hnulls.others q hq)

/-- A reference to a group that is not the last. -/
theorem releaseGroup_more {x : GroupObject} {w' : Objects} (hx : c.objects.heap.get p = some x)
    (hne : x.nRefCount - 1 ≠ 0) (hrelease : Objects.release p c.objects = .ok () w') :
    releaseGroup p c = .ok () { c with objects := w' } := by
  rw [releaseGroup, bind_of_ok (onObjects_ok (Objects.object_eq hx)), if_neg hne]
  exact onObjects_ok hrelease

/-- A reference to a group has been dropped, and the group with its last one. -/
structure Dropped (c c' : Client) (p : ℕ) (x : GroupObject) : Prop where
  groupList : c'.objects.groupList = c.objects.groupList
  object : c'.objects.heap.get p =
    if x.nRefCount = 1 then none else some { x with nRefCount := x.nRefCount - 1 }
  others : ∀ q ≠ p, c'.objects.heap.get q = c.objects.heap.get q ∧ c'.members q = c.members q
  built : Built (c'.members p)
  kept : x.nRefCount ≠ 1 → c'.members p = c.members p

/-- **A reference to a group that was built.** -/
theorem releaseGroup_drops {x : GroupObject} (hx : c.objects.heap.get p = some x)
    (hb : Built (c.members p)) : ∃ c', releaseGroup p c = .ok () c' ∧ Dropped c c' p x := by
  by_cases hlast : x.nRefCount - 1 = 0
  · obtain ⟨c₁, hdestroy, hobj, hb₁, hothers⟩ := destroy_built hb
    have hrelease : Objects.release p c₁.objects =
        .ok () { c.objects with heap := c.objects.heap.delete p } := by
      rw [hobj]
      exact release_last hx hlast
    refine ⟨{ c₁ with objects := { c.objects with heap := c.objects.heap.delete p } }, ?_, rfl, ?_,
      fun q hq => ⟨Heap.get_delete_ne hq, hothers q hq⟩, hb₁, fun hmany => by omega⟩
    · rw [releaseGroup, bind_of_ok (onObjects_ok (Objects.object_eq hx)), if_pos hlast,
        bind_of_ok hdestroy]
      exact onObjects_ok hrelease
    · rw [if_pos (by omega)]
      exact Heap.get_delete_self
  · refine ⟨_, releaseGroup_more hx hlast (release_eq hx hlast), rfl, ?_,
      fun q hq => ⟨Heap.get_store_ne hq, rfl⟩, hb, fun _ => rfl⟩
    rw [if_neg (by omega)]
    exact Heap.get_store_self hx

end

/-! ### The list behind a removal -/

section

variable {w : Objects} {ps : List ℕ} {l : CCObjectList} {k p : ℕ} {x : GroupObject}

/-- The array of the list without the entry at `k`. -/
theorem take_removed (behind : Option ℕ) (hcount : l.nCount = ps.length)
    (harray : l.ppOArray.take ps.length = ps.map some) (hk : k < ps.length) :
    (l.removed behind k).ppOArray.take (ps.eraseIdx k).length = (ps.eraseIdx k).map some := by
  have hlen : ps.length ≤ l.ppOArray.length := by
    have heq := congrArg List.length harray
    rw [List.length_take, List.length_map] at heq
    omega
  set a : ℕ → Option ℕ := fun n => l.ppOArray[n]?.getD behind with ha
  have hcells : Cells.toList a ps.length = ps.map some := by
    refine List.ext_getElem? fun n => ?_
    rw [Cells.getElem?_toList, ← harray]
    split_ifs with hn
    · rw [List.getElem?_take_of_lt hn, ha]
      simp only [List.getElem?_eq_getElem (Nat.lt_of_lt_of_le hn hlen), Option.getD_some]
    · rw [List.getElem?_eq_none]
      simp
      omega
  have htake (n : ℕ) (b : ℕ → Option ℕ) (hn : n ≤ l.ppOArray.length) :
      (Cells.toList b l.ppOArray.length).take n = Cells.toList b n := by
    refine List.ext_getElem? fun m => ?_
    rw [List.getElem?_take, Cells.getElem?_toList, Cells.getElem?_toList]
    split_ifs <;> first | rfl | omega
  have hmap : (ps.eraseIdx k).map some = (ps.map some).eraseIdx k := by
    rw [List.eraseIdx_eq_take_drop_succ, List.eraseIdx_eq_take_drop_succ, List.map_append,
      List.map_take, List.map_drop]
  rw [List.length_eraseIdx_of_lt hk, hmap, ← hcells, ← Cells.toList_closeGap a hk]
  show (Cells.toList (Cells.closeGap a (l.nCount - k) k) l.ppOArray.length).take (ps.length - 1) = _
  rw [htake _ _ (by omega), hcount]

end

/-! ### `RemoveGroup` -/

/-- Nothing has changed but the cursor of the list. -/
def Unchanged (c c' : Client) : Prop := ∃ n, c' = { c with objects := c.objects.cursor n }

/-- The entry at `k`, the group `p`, has left the list with its reference. -/
structure Removed (c c' : Client) (ps : List ℕ) (k p : ℕ) (x : GroupObject) : Prop where
  list : Listed c'.objects (ps.eraseIdx k)
  object : c'.objects.heap.get p =
    if x.nRefCount = 1 then none else some { x with nRefCount := x.nRefCount - 1 }
  others : ∀ q ≠ p, c'.objects.heap.get q = c.objects.heap.get q ∧ c'.members q = c.members q

/-- Two results that differ by the cursor of the list. -/
def SameOutcome {α : Type} : EStateM.Result Fault Client α → EStateM.Result Fault Client α → Prop
  | .ok a c, .ok a' c' => a = a' ∧ Unchanged c c'
  | .error e c, .error e' c' => e = e' ∧ Unchanged c c'
  | _, _ => False

/-- When `RemoveGroup` returns false, everything is as it was, and so are the calls of all groups;
when it returns true, the first group of the name has left the list, if there was one. -/
def LeavesUsable (c : Client) (ps : List ℕ) (szName : Bytes) :
    EStateM.Result Fault Client Bool → Prop
  | .ok false c' => Unchanged c c' ∧
      ∀ r call q, SameOutcome (groupCall r call q c) (groupCall r call q c')
  | .ok true c' => (Before c.objects ps szName ps.length → Unchanged c c') ∧
      ∀ k p x, FirstNamed c.objects ps szName k p x → Removed c c' ps k p x
  | .error _ _ => False

section

variable {c : Client} {ps : List ℕ} {szName : Bytes} {k p : ℕ} {x : GroupObject}
  {server : ℕ → Bool → HRESULT} {behind : Option ℕ}

/-- The list when the entry at `k` has lost its reference. -/
theorem listed_removed {w w' : Objects} {l : CCObjectList} (h : Listed w ps)
    (hl : w.groupList = some l) (hp : ps[k]? = some p) (hx : w.heap.get p = some x)
    (hlist : w'.groupList = some ({ l with nPtr := k }.removed behind k))
    (hself : w'.heap.get p =
      if x.nRefCount = 1 then none else some { x with nRefCount := x.nRefCount - 1 })
    (hothers : ∀ q ≠ p, w'.heap.get q = w.heap.get q) : Listed w' (ps.eraseIdx k) := by
  obtain ⟨hcount, harray, hsize⟩ := h.list l hl
  obtain ⟨hk, hpk⟩ := List.getElem?_eq_some_iff.1 hp
  refine ⟨fun l' hl' => ?_, fun hnone => ?_, fun q hq => ?_⟩
  · rw [hlist, Option.mem_some_iff] at hl'
    subst hl'
    have htake : (({ l with nPtr := k } : CCObjectList).removed behind k).ppOArray.take
        (ps.eraseIdx k).length = (ps.eraseIdx k).map some := take_removed behind hcount harray hk
    refine ⟨?_, htake, hsize⟩
    rw [List.length_eraseIdx_of_lt hk, ← hcount]
    rfl
  · rw [hlist] at hnone
    cases hnone
  · have hmem := List.mem_of_mem_eraseIdx hq
    obtain ⟨y, hy, hle⟩ := h.live q hmem
    have hcounts := Cells.count_eraseIdx hp q
    by_cases hqp : q = p
    · subst hqp
      rw [hx, Option.some.injEq] at hy
      subst hy
      rw [if_pos rfl] at hcounts
      have hpos := List.count_pos_iff.2 hq
      refine ⟨_, hself.trans (if_neg (by omega)), ?_⟩
      show ((ps.eraseIdx k).count q : ℤ) ≤ x.nRefCount - 1
      omega
    · rw [if_neg (Ne.symm hqp)] at hcounts
      exact ⟨y, (hothers q hqp).trans hy, by omega⟩

/-- **`Remove`** of the entry at `k`. -/
theorem remove_removed (behind : Option ℕ) (h : Listed c.objects ps) (hp : ps[k]? = some p)
    (hx : c.objects.heap.get p = some x) (hb : Built (c.members p)) :
    ∃ c', remove behind k { c with objects := c.objects.cursor k } = .ok true c' ∧
      Removed c c' ps k p x ∧ Built (c'.members p) := by
  obtain ⟨hk, -⟩ := List.getElem?_eq_some_iff.1 hp
  cases hl : c.objects.groupList with
  | none =>
    rw [h.noList hl] at hk
    cases hk
  | some l =>
    obtain ⟨hcount, -, -⟩ := h.list l hl
    set l' : CCObjectList := { l with nPtr := k } with hl'
    have hentry : l'.ppOArray[k]? = some (some p) := listed_entry (l := l) h hl hp
    have hlt : k < l'.nCount := hcount ▸ hk
    obtain ⟨c₂, hrelease, hdrop⟩ :=
      releaseGroup_drops (c := { c with objects := c.objects.cursor k }) hx hb
    have hset : onObjects (Objects.setList (l'.removed behind k)) c₂ = .ok ()
      { c₂ with objects := { c₂.objects with groupList := some (l'.removed behind k) } } := rfl
    rw [remove, bind_of_ok (onObjects_ok (list_eq (groupList_cursor hl k))), if_pos hlt, hentry]
    simp only
    rw [bind_of_ok hrelease, bind_of_ok hset]
    have hothers (q : ℕ) (hq : q ≠ p) : c₂.objects.heap.get q = c.objects.heap.get q :=
      (hdrop.others q hq).1
    exact ⟨_, rfl, ⟨listed_removed h hl hp hx rfl hdrop.object hothers, hdrop.object,
      hdrop.others⟩, hdrop.built⟩

/-- **Calls of a group** do not look at the cursor. -/
theorem Unchanged.groupCall {c' : Client} (h : Unchanged c c') (r : Replies) (call : GroupCall)
    (q : ℕ) : SameOutcome (groupCall r call q c) (groupCall r call q c') := by
  obtain ⟨n, rfl⟩ := h
  set c' : Client := { c with objects := c.objects.cursor n } with hc'
  cases hget : c.objects.heap.get q with
  | none =>
    have hget' : c'.objects.heap.get q = none := hget
    rw [groupCall_noObject hget, groupCall_noObject hget']
    exact ⟨rfl, n, rfl⟩
  | some y =>
    have hget' : c'.objects.heap.get q = some y := hget
    by_cases hset : ∀ f ∈ call.through y.group, ∃ a, (c.members q).pointer f = some (some a)
    · have hset' : ∀ f ∈ call.through y.group, ∃ a, (c'.members q).pointer f = some (some a) := hset
      rw [groupCall_returns hget hset, groupCall_returns hget' hset']
      exact ⟨rfl, n, rfl⟩
    · have hset' : ¬ ∀ f ∈ call.through y.group, ∃ a, (c'.members q).pointer f = some (some a) :=
        hset
      rw [groupCall_wild hget hset, groupCall_wild hget' hset']
      exact ⟨rfl, n, rfl⟩

/-- **`RemoveGroup` of a group that is there.**  It has lost its interfaces when the server is
asked. -/
theorem removeGroup_asks (server : ℕ → Bool → HRESULT) (behind : Option ℕ)
    (h : Listed c.objects ps) (hb : Built (c.members p))
    (hfirst : FirstNamed c.objects ps szName k p x) :
    ∃ c₂, Nulled { c with objects := c.objects.cursor k } c₂ p [.pUnGroup, .pIItems, .pISync] ∧
      (Detached (c.members p) → c₂ = { c with objects := c.objects.cursor k }) ∧
      removeGroup server behind szName c =
        if failed (removeAnswer server (c.members p).hServer) then .ok false c₂
        else (remove behind k >>= fun _ => pure true) c₂ := by
  have hpos := listed_pos h hfirst.entry hfirst.object
  set c₁ : Client := { c with objects := (c.objects.cursor k).more p x } with hc₁
  have hsearch : onObjects (getGroupByNameAt szName) c = .ok (some p, k) c₁ := by
    rcases getGroupByNameAt_cases h szName with ⟨k', p', x', hfirst', heq⟩ | ⟨hbefore, -⟩
    · obtain ⟨rfl, rfl, rfl⟩ := hfirst.unique hfirst'
      exact onObjects_ok heq
    · exact absurd hbefore hfirst.not_before
  obtain ⟨c₂, hdetouch, hnulls⟩ := detouch_nulls (c := c₁) hb
  have hx₂ : c₂.objects.heap.get p = some { x with nRefCount := x.nRefCount + 1 } := by
    rw [hnulls.objects]
    exact get_more (w := c.objects.cursor k) hfirst.object
  have hrel : Objects.release p c₂.objects = .ok () (c.objects.cursor k) := by
    rw [hnulls.objects]
    exact release_more (w := c.objects.cursor k) hfirst.object hpos
  have hne : x.nRefCount + 1 - 1 ≠ 0 := by omega
  have hserver : (c₂.members p).hServer = (c.members p).hServer := hnulls.hServer
  refine ⟨{ c₂ with objects := c.objects.cursor k },
    ⟨rfl, hnulls.others, hnulls.hServer, hnulls.pointer⟩, fun hdetached => ?_, ?_⟩
  · have hnothing := detouch_detached (c := c₁) hdetached
    rw [hdetouch] at hnothing
    cases hnothing
    rfl
  · rw [removeGroup, bind_of_ok hsearch]
    simp only
    rw [bind_of_ok hdetouch, bind_get, hserver, bind_of_ok (releaseGroup_more hx₂ hne hrel)]
    split_ifs <;> rfl

/-- The server keeps the group. -/
theorem removeGroup_kept (behind : Option ℕ) (h : Listed c.objects ps) (hb : Built (c.members p))
    (hfirst : FirstNamed c.objects ps szName k p x)
    (hfail : failed (removeAnswer server (c.members p).hServer) = true) :
    ∃ c', removeGroup server behind szName c = .ok false c' ∧
      Nulled { c with objects := c.objects.cursor k } c' p [.pUnGroup, .pIItems, .pISync] ∧
      (Unchanged c c' ↔ Detached (c.members p)) := by
  obtain ⟨c', hnulls, hsame, heq⟩ := removeGroup_asks server behind h hb hfirst
  refine ⟨c', by rw [heq, if_pos hfail], hnulls, ?_⟩
  constructor
  · -- the members are those of the group without its interfaces
    rintro ⟨n, rfl⟩
    exact hnulls.detached
  · intro hdetached
    rw [hsame hdetached]
    exact ⟨k, rfl⟩

/-- The server has removed the group. -/
theorem removeGroup_taken (behind : Option ℕ) (h : Listed c.objects ps) (hb : Built (c.members p))
    (hfirst : FirstNamed c.objects ps szName k p x)
    (hok : failed (removeAnswer server (c.members p).hServer) = false) :
    ∃ c', removeGroup server behind szName c = .ok true c' ∧ Removed c c' ps k p x ∧
      Built (c'.members p) := by
  obtain ⟨c₂, hnulls, -, heq⟩ := removeGroup_asks server behind h hb hfirst
  have hobjects : c₂.objects = c.objects.cursor k := hnulls.objects
  obtain ⟨c', hremove, hremoved, hb'⟩ := remove_removed (c := { c₂ with objects := c.objects })
    behind h hfirst.entry hfirst.object (hnulls.built (by decide) hb)
  have hremove' : remove behind k c₂ = .ok true c' := by
    rw [← hremove]
    exact congrArg (fun w => remove behind k { c₂ with objects := w }) hobjects
  refine ⟨c', ?_, ⟨hremoved.list, hremoved.object, fun q hq => ?_⟩, hb'⟩
  · rw [heq, if_neg (by rw [hok]; exact Bool.false_ne_true), bind_of_ok hremove']
    rfl
  · obtain ⟨hheap, hmembers⟩ := hremoved.others q hq
    exact ⟨hheap, hmembers.trans (hnulls.others q hq)⟩

/-- **`RemoveGroup`** leaves a group that the server keeps as it was exactly when that group had no
interfaces to lose. -/
theorem removeGroup_iff (h : Listed c.objects ps) (hb : ∀ p ∈ ps, Built (c.members p)) :
    LeavesUsable c ps szName (removeGroup server behind szName c) ↔
      ∀ k p x, FirstNamed c.objects ps szName k p x →
        failed (removeAnswer server (c.members p).hServer) = true → Detached (c.members p) := by
  rcases getGroupByNameAt_cases h szName with ⟨k, p, x, hfirst, -⟩ | ⟨hbefore, m, k, hnone⟩
  · have hcond : (∀ k p x, FirstNamed c.objects ps szName k p x →
        failed (removeAnswer server (c.members p).hServer) = true → Detached (c.members p)) ↔
        (failed (removeAnswer server (c.members p).hServer) = true →
          Detached (c.members p)) := by
      refine ⟨fun hall => hall k p x hfirst, fun hp k' p' x' hfirst' => ?_⟩
      obtain ⟨-, rfl, -⟩ := hfirst.unique hfirst'
      exact hp
    have hbp := hb p (List.mem_of_getElem? hfirst.entry)
    rw [hcond]
    cases hans : failed (removeAnswer server (c.members p).hServer) with
    | true =>
      obtain ⟨c', heq, -, hiff⟩ := removeGroup_kept behind h hbp hfirst hans
      rw [heq, forall_prop_of_true rfl, ← hiff]
      exact ⟨fun hleaves => hleaves.1, fun hsame => ⟨hsame, hsame.groupCall⟩⟩
    | false =>
      obtain ⟨c', heq, hremoved, -⟩ := removeGroup_taken behind h hbp hfirst hans
      rw [heq]
      refine iff_of_true ⟨fun hbefore => absurd hbefore hfirst.not_before, ?_⟩ fun hfail => ?_
      · intro k' p' x' hfirst'
        obtain ⟨rfl, rfl, rfl⟩ := hfirst.unique hfirst'
        exact hremoved
      · cases hfail
  · rw [removeGroup, bind_of_ok (onObjects_ok hnone)]
    refine iff_of_true ⟨fun _ => ⟨k, rfl⟩, ?_⟩ ?_
    · exact fun k p x hfirst => absurd hbefore hfirst.not_before
    · exact fun k p x hfirst => absurd hbefore hfirst.not_before

end

/-- A client with one group, which has an item that the server does not know yet. -/
def oneGroup : Client where
  objects := ⟨true, some ⟨[some 0], 1, 0, 5⟩, [some ⟨1, ⟨[82, 68], addItem [] [65] 1 0, []⟩⟩]⟩
  members _ := ⟨7, fun _ => some (some 1)⟩
  acquired := []
  released := []

theorem listed_oneGroup : Listed oneGroup.objects [0] where
  list l hl := by
    cases hl
    exact ⟨rfl, rfl, by decide⟩
  noList hnone := by cases hnone
  live p hp := by
    rw [List.mem_singleton.1 hp]
    exact ⟨_, rfl, by decide⟩

theorem built_oneGroup (p : ℕ) : Built (oneGroup.members p) :=
  ⟨fun _ => Option.some_ne_none _, 1, rfl⟩

theorem removeGroup_iff_accepted :
    LeavesUsable oneGroup [0] [82, 68] (removeGroup (fun _ _ => S_OK) none [82, 68] oneGroup) ↔
      ∀ k p x, FirstNamed oneGroup.objects [0] [82, 68] k p x →
        failed (removeAnswer (fun _ _ => S_OK) (oneGroup.members p).hServer) = true →
          Detached (oneGroup.members p) :=
  removeGroup_iff listed_oneGroup fun p _ => built_oneGroup p

/-- **A group that lost its interfaces.**  The server does not remove it, and the next `AddItems` of
its item goes through NULL. -/
theorem removeGroup_detaches :
    (∃ c', removeGroup (fun _ _ => E_NOTIMPL) none [82, 68] oneGroup = .ok false c' ∧
      (c'.members 0).pointer .pIItems = some none ∧
      (∀ r, ∃ hr c'', groupCall r .addItems 0 oneGroup = .ok hr c'') ∧
      ∀ r, ∃ c'', groupCall r .addItems 0 c' = .error .wild c'') ∧
    ¬ LeavesUsable oneGroup [0] [82, 68]
      (removeGroup (fun _ _ => E_NOTIMPL) none [82, 68] oneGroup) := by
  refine ⟨⟨_, rfl, rfl, fun r => ⟨_, _, rfl⟩, fun r => ⟨_, rfl⟩⟩, fun h => ?_⟩
  obtain ⟨n, hsame⟩ := h.1
  have hpointer := congrArg (fun c : Client => (c.members 0).pointer .pIItems) hsame
  cases hpointer

end Client

end OpcS7

end Edps
