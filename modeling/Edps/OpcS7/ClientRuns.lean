import Edps.Lib.Runs
import Edps.OpcS7.HalfBuilt
import Edps.OpcS7.Removal
import Mathlib.Data.List.Count

/-!
# Runs of the client

Groups are added, searched for, called, released and removed, in any order.  Callers drop only
references that they have got.

* `construct_granted` : a group whose object has all interfaces gets all its pointers.
* `addGroup_objects` : what `AddGroup` does to the objects does not depend on the interfaces, unless
  one is refused.
* `ClientCall.keeps` : a call that returns leaves a list of groups that were built.
* `clients_usable`, `clients_return` : so does every run, and calls of the groups in the list return
  as long as the server removes what it is told to.
-/

namespace Edps

namespace OpcS7

namespace Client

open Objects

/-! ### Groups that are built -/

/-- A group with all its pointers. -/
def Complete (m : Members) : Prop := ∀ f, ∃ a, m.pointer f = some (some a)

theorem Complete.built {m : Members} (h : Complete m) : Built m where
  set f := by
    obtain ⟨a, ha⟩ := h f
    rw [ha]
    exact Option.some_ne_none _
  items := h .pItems

/-- The client with the state of a group uploaded. -/
def uploaded (c : Client) (r : GroupReplies) (p : ℕ) (x : GroupObject) (name : Bytes) : Client :=
  let c := { c with objects := { c.objects with
    heap := c.objects.heap.store p { x with group := { x.group with name } } } }
  let c := c.setPointer p .pszName (some (r.allocated .pszName))
  c.setMembers p { c.members p with hServer := r.hServer }

section

variable {c : Client} {p : ℕ} {r : GroupReplies} {x : GroupObject} {name : Bytes}

theorem uploadStatus_eq (hname : r.szName = some name) (hx : c.objects.heap.get p = some x) :
    uploadStatus r p c = .ok r.getState (c.uploaded r p x name) := by
  rw [uploadStatus, hname]
  simp only
  rw [bind_of_ok (onObjects_ok (object_eq hx))]
  rfl

@[simp] theorem pointer_uploaded (g : GroupPointer) :
    ((c.uploaded r p x name).members p).pointer g =
      if g = .pszName then some (some (r.allocated .pszName)) else (c.members p).pointer g := by
  rw [uploaded, members_setMembers_self]
  exact pointer_setPointer ..

/-- The constructor has got all interfaces. -/
structure Asked (c c' : Client) (p : ℕ) : Prop where
  objects : c'.objects = c.objects
  pointers : ∀ f, f ≠ .pszName → f ≠ .pItems → ∃ a, (c'.members p).pointer f = some (some a)
  others : ∀ q ≠ p, c'.members q = c.members q

theorem construct_asks (h : ∀ iid, failed (r.query iid) = false) :
    ∃ c', Asked c c' p ∧ construct r p c = (do
      let hr ← uploadStatus r p
      releaseInterface (r.interface .iOPCGroupStateMgt)
      setMember p .pItems (some (r.allocated .pItems))
      return if succeeded hr then hr else S_OK : ClientM HRESULT) c' := by
  set c₁ := (c.setPointer p .pszName none).granted p .pUnGroup (r.interface .iUnknown) with hc₁
  set c₂ := c₁.granted p .pIItems (r.interface .iOPCItemMgt) with hc₂
  set c₃ := c₂.granted p .pISync (r.interface .iOPCSync) with hc₃
  refine ⟨{ c₃ with acquired := c₃.acquired ++ [r.interface .iOPCGroupStateMgt] },
    ⟨rfl, fun f hname hitems => ?_, fun q hq => ?_⟩, ?_⟩
  · show ∃ a, (c₃.members p).pointer f = some (some a)
    cases f with
    | pszName => exact absurd rfl hname
    | pItems => exact absurd rfl hitems
    | pUnGroup | pIItems | pISync => simp [hc₃, hc₂, hc₁]
  · calc c₃.members q = c₂.members q := members_granted_ne hq ..
      _ = c₁.members q := members_granted_ne hq ..
      _ = (c.setPointer p .pszName none).members q := members_granted_ne hq ..
      _ = c.members q := members_setPointer_ne hq ..
  · rw [construct]
    simp only [h, Bool.false_eq_true, if_false]
    rw [bind_of_ok setMember_eq, queryMember_granted (h _), ← hc₁, queryMember_granted (h _),
      ← hc₂, queryMember_granted (h _), ← hc₃, bind_of_ok (queryInterface_granted (h _))]

/-- **The end of the constructor.** -/
theorem construct_granted (h : ∀ iid, failed (r.query iid) = false) (hname : r.szName = some name)
    (hx : c.objects.heap.get p = some x) :
    ∃ hr c', construct r p c = .ok hr c' ∧ failed hr = false ∧
      c'.objects = { c.objects with
        heap := c.objects.heap.store p { x with group := { x.group with name } } } ∧
      Complete (c'.members p) ∧ ∀ q ≠ p, c'.members q = c.members q := by
  obtain ⟨c₁, hasked, hconstruct⟩ := construct_asks (c := c) (p := p) h
  have hx₁ : c₁.objects.heap.get p = some x := by rw [hasked.objects, hx]
  set c₂ := c₁.uploaded r p x name with hc₂
  set c₃ : Client :=
    { c₂ with released := c₂.released ++ [r.interface .iOPCGroupStateMgt] } with hc₃
  have hreleased : releaseInterface (r.interface .iOPCGroupStateMgt) c₂ = .ok () c₃ := rfl
  refine ⟨if succeeded r.getState then r.getState else S_OK,
    c₃.setPointer p .pItems (some (r.allocated .pItems)), ?_, ?_, ?_, fun f => ?_, fun q hq => ?_⟩
  · rw [hconstruct, bind_of_ok (uploadStatus_eq hname hx₁), ← hc₂, bind_of_ok hreleased,
      bind_of_ok setMember_eq]
    rfl
  · unfold succeeded failed
    split_ifs with hle
    · simpa using hle
    · rfl
  · rw [← hasked.objects]
    rfl
  · rw [pointer_setPointer]
    by_cases hitems : f = .pItems
    · exact ⟨_, if_pos hitems⟩
    · rw [if_neg hitems]
      show ∃ a, (c₂.members p).pointer f = some (some a)
      rw [hc₂, pointer_uploaded]
      split_ifs with hpsz
      · exact ⟨_, rfl⟩
      · exact hasked.pointers f hpsz hitems
  · calc (c₃.setPointer p .pItems _).members q = c₂.members q := members_setPointer_ne hq ..
      _ = c₁.members q := (members_setMembers_ne hq _ _).trans (members_setPointer_ne hq _ _ _)
      _ = c.members q := hasked.others q hq

/-- A state without a name. -/
theorem construct_unnamed (h : ∀ iid, failed (r.query iid) = false) (hunnamed : r.szName = none) :
    ∃ c', construct r p c = .error .wild c' := by
  obtain ⟨c₁, -, hconstruct⟩ := construct_asks (c := c) (p := p) h
  have hwild : uploadStatus r p c₁ = .error .wild c₁ := by
    rw [uploadStatus, hunnamed]
    rfl
  exact ⟨c₁, by rw [hconstruct, bind_of_error hwild]⟩

/-! ### `AddGroup` -/

/-- What comes of a group that the server adds, names and gives all interfaces. -/
structure Grants (r : GroupReplies) (name : Bytes) : Prop where
  added : failed r.addGroup = false
  granted : ∀ iid, failed (r.query iid) = false
  named : r.szName = some name

/-- **A group that is built** is put into the list. -/
theorem addGroup_granted {server : Bytes → GroupReplies} {pszName : Bytes}
    (h : Grants (server pszName) name) (hp : p = c.objects.heap.length) :
    ∃ c', addGroup server pszName c = (onObjects (add p) >>= fun _ => pure (some p)) c' ∧
      c'.objects = { c.objects.listMade with
        heap := c.objects.heap.new ⟨1, ⟨name, [], []⟩⟩ } ∧
      Complete (c'.members p) ∧ ∀ q ≠ p, c'.members q = c.members q := by
  set pIUnk := (server pszName).pIUnk with hpIUnk
  have hx : (c.begun pIUnk).objects.heap.get p = some ⟨0, ⟨[], [], []⟩⟩ := hp ▸ get_begun c pIUnk
  obtain ⟨hr, c₂, hbuilt, hok, hobj, hcomplete, hothers⟩ :=
    construct_granted h.granted h.named hx
  have hx₂ : c₂.objects.heap.get p = some ⟨0, ⟨name, [], []⟩⟩ := by
    rw [hobj]
    exact Heap.get_store_self hx
  set w : Objects := { c₂.objects with
    heap := c₂.objects.heap.store p ⟨0 + 1, ⟨name, [], []⟩⟩ } with hw
  have hrelease : releaseInterface pIUnk { c₂ with objects := w } =
      .ok () { c₂ with objects := w, released := c₂.released ++ [pIUnk] } := rfl
  have hheap : w = { c.objects.listMade with
      heap := c.objects.heap.new ⟨1, ⟨name, [], []⟩⟩ } := by
    have hstore : ((c.objects.heap.new ⟨0, ⟨[], [], []⟩⟩).store p ⟨0, ⟨name, [], []⟩⟩).store p
        ⟨0 + 1, ⟨name, [], []⟩⟩ = c.objects.heap.new ⟨1, ⟨name, [], []⟩⟩ := by
      rw [Heap.store_store, hp]
      exact Heap.store_new
    rw [hw, hobj]
    exact congrArg (fun heap => { c.objects.listMade with heap }) hstore
  refine ⟨{ c₂ with objects := w, released := c₂.released ++ [pIUnk] }, ?_, hheap, hcomplete,
    fun q hq => ?_⟩
  · rw [addGroup_begins h.added, ← hp, bind_of_ok hbuilt, bind_of_ok (onObjects_ok (addRef_eq hx₂)),
      bind_of_ok hrelease, if_neg (by rw [hok]; exact Bool.false_ne_true)]
  · exact (hothers q hq).trans (Function.update_of_ne (hp ▸ hq) _ _)

/-- A group whose state has no name. -/
theorem addGroup_unnamed {server : Bytes → GroupReplies} {pszName : Bytes}
    (hadded : failed (server pszName).addGroup = false)
    (hgranted : ∀ iid, failed ((server pszName).query iid) = false)
    (hunnamed : (server pszName).szName = none) (c : Client) :
    ∃ c', addGroup server pszName c = .error .wild c' := by
  obtain ⟨c', hwild⟩ := construct_unnamed (c := c.begun (server pszName).pIUnk)
    (p := c.objects.heap.length) hgranted hunnamed
  exact ⟨c', by rw [addGroup_begins hadded, bind_of_error hwild]⟩

/-- What a result means for the objects. -/
def outcome {α : Type} : EStateM.Result Fault Client α → EStateM.Result Fault Objects α
  | .ok a c => .ok a c.objects
  | .error e c => .error e c.objects

theorem outcome_onObjects {α β : Type} (x : ObjectsM α) (b : β) (c : Client) :
    outcome ((onObjects x >>= fun _ => pure b) c) = (x >>= fun _ => pure b) c.objects := by
  cases hx : x c.objects with
  | ok a w =>
    rw [bind_of_ok hx, bind_of_ok (onObjects_ok hx)]
    rfl
  | error e w =>
    have hfault : onObjects x c = .error e { c with objects := w } := by rw [onObjects, hx]
    rw [bind_of_error hx, bind_of_error hfault]
    rfl

/-- **`AddGroup`** does to the objects what it does there, unless an interface is refused. -/
theorem addGroup_objects {server : Bytes → GroupReplies} {pszName : Bytes} {r : ComReplies}
    (hadd : r.addGroup = (server pszName).addGroup) (hconstructed : failed r.constructed = false)
    (hgranted : ∀ iid, failed ((server pszName).query iid) = false)
    (hnamed : (server pszName).szName = some pszName) (c : Client) :
    outcome (addGroup server pszName c) = Objects.addGroup r pszName c.objects := by
  rw [Objects.addGroup, bind_of_ok (makeList_ok _), hadd]
  cases hfail : failed (server pszName).addGroup with
  | true =>
    rw [addGroup, bind_of_ok (onObjects_ok (makeList_ok _)), if_pos hfail]
    rfl
  | false =>
    obtain ⟨c', heq, hobj, -⟩ := addGroup_granted (c := c) ⟨hfail, hgranted, hnamed⟩ rfl
    have hnew : (modify fun w => { w with heap := w.heap.new ⟨0, ⟨pszName, [], []⟩⟩ } :
        ObjectsM Unit) c.objects.listMade = .ok () { c.objects.listMade with
          heap := c.objects.heap.new ⟨0, ⟨pszName, [], []⟩⟩ } := rfl
    have href : addRef c.objects.heap.length { c.objects.listMade with
        heap := c.objects.heap.new ⟨0, ⟨pszName, [], []⟩⟩ } = .ok () c'.objects := by
      rw [addRef_eq Heap.get_new_self, hobj]
      exact congrArg (fun heap => EStateM.Result.ok () { c.objects.listMade with heap })
        Heap.store_new
    rw [heq, outcome_onObjects]
    simp only [Bool.false_eq_true, if_false, hconstructed]
    rw [bind_get, bind_of_ok hnew]
    show _ = (addRef c.objects.heap.length >>= _) _
    rw [bind_of_ok href]
    rfl

end

/-! ### What keeps a list usable -/

/-- The groups of the list, each of them there once, and all groups on the heap were built. -/
structure Usable (c : Client) (ps : List ℕ) : Prop where
  listed : Listed c.objects ps
  distinct : ps.Nodup
  built : ∀ p x, c.objects.heap.get p = some x → Built (c.members p)

/-- The entries of the list of groups. -/
def entries (w : Objects) : List (Option ℕ) :=
  w.groupList.elim [] fun l => l.ppOArray.take l.nCount

/-- A group has a reference that is none of the list's. -/
def Spare (w : Objects) (p : ℕ) : Prop :=
  ∃ x, w.heap.get p = some x ∧ ((entries w).count (some p) : ℤ) < x.nRefCount

section

variable {c c' : Client} {ps : List ℕ} {p k : ℕ} {x y : GroupObject} {szName : Bytes}

theorem entries_eq (h : Listed c.objects ps) : entries c.objects = ps.map some := by
  unfold entries
  cases hl : c.objects.groupList with
  | none =>
    rw [h.noList hl]
    rfl
  | some l =>
    obtain ⟨hcount, htaken, -⟩ := h.list l hl
    rw [← htaken, ← hcount]
    rfl

theorem Usable.cursor (h : Usable c ps) (n : ℕ) :
    Usable { c with objects := c.objects.cursor n } ps :=
  ⟨listed_cursor h.listed n, h.distinct, h.built⟩

/-- A group that changes, and loses no reference. -/
theorem Usable.store (h : Usable c ps) (hx : c.objects.heap.get p = some x)
    (hle : x.nRefCount ≤ y.nRefCount) :
    Usable { c with objects := { c.objects with heap := c.objects.heap.store p y } } ps := by
  refine ⟨⟨h.listed.list, h.listed.noList, fun q hq => ?_⟩, h.distinct, fun q z hz => ?_⟩
  · obtain ⟨z, hz, hcount⟩ := h.listed.live q hq
    by_cases hqp : q = p
    · subst hqp
      rw [hx, Option.some.injEq] at hz
      subst hz
      exact ⟨y, Heap.get_store_self hx, Int.le_trans hcount hle⟩
    · exact ⟨z, (Heap.get_store_ne hqp).trans hz, hcount⟩
  · by_cases hqp : q = p
    · subst hqp
      exact h.built q x hx
    · exact h.built q z ((Heap.get_store_ne hqp).symm.trans hz)

/-- A reference that is none of the list's. -/
theorem Usable.dropped (h : Usable c ps) (hx : c.objects.heap.get p = some x)
    (hspare : (ps.count p : ℤ) < x.nRefCount) (hdrop : Dropped c c' p x) : Usable c' ps := by
  refine ⟨⟨?_, ?_, fun q hq => ?_⟩, h.distinct, fun q z hz => ?_⟩
  · rw [hdrop.groupList]
    exact h.listed.list
  · rw [hdrop.groupList]
    exact h.listed.noList
  · by_cases hqp : q = p
    · subst hqp
      have hpos := List.count_pos_iff.2 hq
      refine ⟨_, hdrop.object.trans (if_neg (by omega)), ?_⟩
      show (ps.count q : ℤ) ≤ x.nRefCount - 1
      omega
    · obtain ⟨z, hz, hcount⟩ := h.listed.live q hq
      exact ⟨z, (hdrop.others q hqp).1.trans hz, hcount⟩
  · by_cases hqp : q = p
    · exact hqp ▸ hdrop.built
    · rw [(hdrop.others q hqp).2]
      exact h.built q z ((hdrop.others q hqp).1.symm.trans hz)

/-- A group that has left the list. -/
theorem Usable.removed (h : Usable c ps) (hremoved : Removed c c' ps k p x)
    (hb : Built (c'.members p)) : Usable c' (ps.eraseIdx k) := by
  refine ⟨hremoved.list, h.distinct.eraseIdx k, fun q z hz => ?_⟩
  by_cases hqp : q = p
  · exact hqp ▸ hb
  · rw [(hremoved.others q hqp).2]
    exact h.built q z ((hremoved.others q hqp).1.symm.trans hz)

/-- A group that has lost its interfaces. -/
theorem Usable.nulled {fs : List GroupPointer} (h : Usable c ps) (hnulls : Nulled c c' p fs)
    (hitems : .pItems ∉ fs) : Usable c' ps := by
  refine ⟨by rw [hnulls.objects]; exact h.listed, h.distinct, fun q z hz => ?_⟩
  rw [hnulls.objects] at hz
  by_cases hqp : q = p
  · subst hqp
    exact hnulls.built hitems (h.built q z hz)
  · rw [hnulls.others q hqp]
    exact h.built q z hz

theorem listed_listMade {w : Objects} (h : Listed w ps) : Listed w.listMade ps where
  list l hl := by
    cases hl
    cases hl : w.groupList with
    | none =>
      rw [h.noList hl]
      exact ⟨rfl, rfl, by decide⟩
    | some l => exact h.list l hl
  noList hnone := by cases hnone
  live := h.live

/-- **A group that joins the list.** -/
theorem Usable.added {server : Bytes → GroupReplies} {name : Bytes}
    (h : Usable c ps) (hgrants : Grants (server szName) name) (hp : p = c.objects.heap.length) :
    ∃ c', addGroup server szName c = .ok (some p) c' ∧ Usable c' (ps ++ [p]) ∧
      Complete (c'.members p) ∧ ∀ q ≠ p, c'.members q = c.members q := by
  obtain ⟨c₁, heq, hobj, hcomplete, hothers⟩ := addGroup_granted (c := c) hgrants hp
  set l : CCObjectList := c.objects.groupList.getD (.new 10 5) with hl
  have hlist : c₁.objects.groupList = some l := by rw [hobj]; rfl
  have hroom : l.grown.Room ps := by
    obtain ⟨hcount, htaken, hsize⟩ := (listed_listMade h.listed).list l rfl
    exact CCObjectList.room_grown hcount htaken hsize
  have hx : c₁.objects.heap.get p = some ⟨1, ⟨name, [], []⟩⟩ := by
    rw [hobj, hp]
    exact Heap.get_new_self
  have hadd := add_ok hlist (hroom.count ▸ hroom.room) hx
  set c' : Client := { c₁ with objects := { c₁.objects with
    groupList := some (l.added p)
    heap := c₁.objects.heap.store p ⟨1 + 1, ⟨name, [], []⟩⟩ } } with hc'
  have hself : c'.objects.heap.get p = some ⟨1 + 1, ⟨name, [], []⟩⟩ := Heap.get_store_self hx
  have hsame (q : ℕ) (hq : q ≠ p) : c'.objects.heap.get q = c.objects.heap.get q := by
    rw [← Heap.get_new_ne (h := c.objects.heap) (hp ▸ hq)]
    refine (Heap.get_store_ne hq).trans ?_
    rw [hobj]
  have hnew : p ∉ ps := fun hmem => by
    obtain ⟨z, hz, -⟩ := h.listed.live p hmem
    exact Nat.lt_irrefl _ (hp ▸ Heap.lt_of_get hz)
  refine ⟨c', ?_, ⟨⟨?_, fun hnone => ?_, fun q hq => ?_⟩, ?_, fun q z hz => ?_⟩, hcomplete, hothers⟩
  · rw [heq, bind_of_ok (onObjects_ok hadd)]
    rfl
  · rintro - ⟨rfl⟩
    refine ⟨?_, hroom.take_set p, hroom.addSize⟩
    rw [List.length_append, List.length_singleton, ← hroom.count]
    rfl
  · cases hnone
  · by_cases hqp : q = p
    · subst hqp
      refine ⟨_, hself, ?_⟩
      rw [List.count_append, List.count_eq_zero_of_not_mem hnew, List.count_singleton_self]
      exact (by decide : ((0 + 1 : ℕ) : ℤ) ≤ 1 + 1)
    · have hq' : q ∈ ps := by simpa [hqp] using hq
      obtain ⟨z, hz, hcount⟩ := h.listed.live q hq'
      refine ⟨z, (hsame q hqp).trans hz, ?_⟩
      rwa [List.count_append, List.count_singleton, if_neg (by simpa using Ne.symm hqp)]
  · exact List.nodup_append.2 ⟨h.distinct, List.nodup_singleton p, fun q hq q' hq' => by
      rw [List.mem_singleton.1 hq']
      exact fun heq => hnew (heq ▸ hq)⟩
  · by_cases hqp : q = p
    · exact hqp ▸ hcomplete.built
    · have hmembers : c'.members q = c.members q := hothers q hqp
      rw [hmembers]
      exact h.built q z ((hsame q hqp).symm.trans hz)

/-- **`AddGroup`** that returns. -/
theorem Usable.addGroup {server : Bytes → GroupReplies} {o : Option ℕ} (h : Usable c ps)
    (heq : addGroup server szName c = .ok o c') :
    (Usable c' ps ∧ c'.members = c.members) ∨
      ∃ p, Usable c' (ps ++ [p]) ∧ Complete (c'.members p) ∧
        ∀ q ≠ p, c'.members q = c.members q := by
  cases hadded : failed (server szName).addGroup with
  | true =>
    rw [Client.addGroup, bind_of_ok (onObjects_ok (makeList_ok _)), if_pos hadded] at heq
    cases heq
    exact .inl ⟨⟨listed_listMade h.listed, h.distinct, h.built⟩, rfl⟩
  | false =>
    by_cases hrefused : ∃ iid, failed ((server szName).query iid) = true
    · obtain ⟨c'', hwild⟩ := addGroup_wild ⟨hadded, hrefused⟩ c
      rw [hwild] at heq
      cases heq
    · have hgranted (iid : IID) : failed ((server szName).query iid) = false := by
        simpa using not_exists.1 hrefused iid
      cases hnamed : (server szName).szName with
      | none =>
        obtain ⟨c'', hwild⟩ := addGroup_unnamed hadded hgranted hnamed c
        rw [hwild] at heq
        cases heq
      | some name =>
        have hgrants : Grants (server szName) name := ⟨hadded, hgranted, hnamed⟩
        obtain ⟨c'', hok, hadds⟩ := h.added hgrants rfl
        rw [hok] at heq
        cases heq
        exact .inr ⟨_, hadds⟩

end

/-! ### `GetGroupByName` -/

theorem searchGroup_eq (pszName : Bytes) (rounds n : ℕ) (o : Option ℕ) :
    searchGroup pszName rounds o = Prod.fst <$> searchGroupAt pszName rounds n o := by
  induction rounds generalizing n o with
  | zero => cases o <;> rfl
  | succ rounds ih =>
    cases o with
    | none => rfl
    | some p =>
      rw [searchGroup, searchGroupAt, map_bind]
      refine bind_congr fun x => ?_
      split_ifs
      · rfl
      · rw [map_bind]
        refine bind_congr fun _ => ?_
        rw [map_bind]
        exact bind_congr fun o => ih (n + 1) o

/-- The search is the one with the position. -/
theorem getGroupByName_eq (pszName : Bytes) :
    getGroupByName pszName = Prod.fst <$> getGroupByNameAt pszName := by
  rw [getGroupByName, getGroupByNameAt, map_bind]
  refine bind_congr fun w => ?_
  cases w.groupList with
  | none => rfl
  | some l =>
    simp only [map_bind]
    exact bind_congr fun o => searchGroup_eq pszName l.nCount 0 o

/-! ### Calls of a group -/

section

variable {c c' : Client} {p : ℕ} {r : Replies} {call : GroupCall}

/-- A call that returns has only changed its group. -/
theorem groupCall_ok {o : Option HRESULT} (h : groupCall r call p c = .ok o c') :
    ∃ x, c.objects.heap.get p = some x ∧ c' = { c with objects := { c.objects with
      heap := c.objects.heap.store p { x with group := (call.run r x.group).1 } } } := by
  cases hx : c.objects.heap.get p with
  | none =>
    rw [groupCall_noObject hx] at h
    cases h
  | some x =>
    refine ⟨x, rfl, ?_⟩
    by_cases hset : ∀ f ∈ call.through x.group, ∃ a, (c.members p).pointer f = some (some a)
    · rw [groupCall_returns hx hset] at h
      cases h
      rfl
    · rw [groupCall_wild hx hset] at h
      cases h

end

/-! ### Runs -/

/-- What is called on the client, with the answers it gets. -/
inductive ClientCall where
  | getGroupByName (pszName : Bytes)
  | addGroup (server : Bytes → GroupReplies) (pszName : Bytes)
  | removeGroup (server : ℕ → Bool → HRESULT) (behind : Option ℕ) (pszName : Bytes)
  | releaseGroup (p : ℕ)
  | groupCall (r : Replies) (call : GroupCall) (p : ℕ)

/-- The client behind a call, if it returns. -/
def returned {α : Type} : EStateM.Result Fault Client α → Option Client
  | .ok _ c => some c
  | .error _ _ => none

namespace ClientCall

def next (c : Client) : ClientCall → Option Client
  | .getGroupByName pszName => returned (onObjects (Objects.getGroupByName pszName) c)
  | .addGroup server pszName => returned (Client.addGroup server pszName c)
  | .removeGroup server behind pszName => returned (Client.removeGroup server behind pszName c)
  | .releaseGroup p => returned (Client.releaseGroup p c)
  | .groupCall r call p => returned (Client.groupCall r call p c)

/-- A caller drops only what it has got. -/
def Allowed (s : Option Client) : ClientCall → Prop
  | .releaseGroup p => ∀ c ∈ s, Spare c.objects p
  | _ => True

/-- The server removes what it is told to. -/
def Removes : ClientCall → Prop
  | .removeGroup server _ _ => ∀ hServer, failed (removeAnswer server hServer) = false
  | _ => True

end ClientCall

/-- The client, driven by calls; `none` once a call has not returned. -/
def clients : Machine (Option Client) ClientCall Unit :=
  ⟨fun s call => (s.bind fun c => call.next c, ())⟩

section

variable {c c' : Client} {ps ps' : List ℕ} {p k : ℕ} {x : GroupObject} {szName : Bytes}

theorem returned_eq_some {α : Type} {res : EStateM.Result Fault Client α} :
    returned res = some c ↔ ∃ a, res = .ok a c := by
  cases res with
  | ok a c₁ =>
    constructor
    · rintro ⟨⟩
      exact ⟨a, rfl⟩
    · rintro ⟨_, ⟨⟩⟩
      rfl
  | error e c₁ =>
    constructor
    · rintro ⟨⟩
    · rintro ⟨_, ⟨⟩⟩

/-- The groups of the list that were there have their members, and all others have all their
pointers. -/
def KeepsMembers (c c' : Client) (ps ps' : List ℕ) : Prop :=
  ∀ q ∈ ps', q ∈ ps ∧ c'.members q = c.members q ∨ Complete (c'.members q)

theorem keepsMembers_of_eq (h : c'.members = c.members) : KeepsMembers c c' ps ps :=
  fun q hq => .inl ⟨hq, by rw [h]⟩

/-- `GetGroupByName` -/
theorem Usable.search (h : Usable c ps) {o : Option ℕ}
    (heq : onObjects (Objects.getGroupByName szName) c = .ok o c') :
    Usable c' ps ∧ c'.members = c.members := by
  rw [getGroupByName_eq] at heq
  rcases getGroupByNameAt_cases h.listed szName with ⟨k, p, x, hfirst, hat⟩ | ⟨-, m, k, hat⟩
  · have hsearch : (Prod.fst <$> getGroupByNameAt szName) c.objects =
        .ok (some p) ((c.objects.cursor k).more p x) := by
      rw [map_eq_pure_bind, bind_of_ok hat]
      rfl
    rw [onObjects_ok hsearch] at heq
    cases heq
    exact ⟨(h.cursor k).store (y := { x with nRefCount := x.nRefCount + 1 }) hfirst.object
      (by show x.nRefCount ≤ x.nRefCount + 1; omega), rfl⟩
  · have hsearch : (Prod.fst <$> getGroupByNameAt szName) c.objects =
        .ok none (c.objects.cursor k) := by
      rw [map_eq_pure_bind, bind_of_ok hat]
      rfl
    rw [onObjects_ok hsearch] at heq
    cases heq
    exact ⟨h.cursor k, rfl⟩

/-- `Release` of a group. -/
theorem Usable.release (h : Usable c ps) (hspare : Spare c.objects p)
    (heq : releaseGroup p c = .ok () c') : Usable c' ps ∧ KeepsMembers c c' ps ps := by
  obtain ⟨x, hx, hcount⟩ := hspare
  rw [entries_eq h.listed, List.count_map_of_injective _ _ (Option.some_injective ℕ)] at hcount
  obtain ⟨c'', hok, hdrop⟩ := releaseGroup_drops hx (h.built p x hx)
  rw [hok] at heq
  cases heq
  refine ⟨h.dropped hx hcount hdrop, fun q hq => .inl ⟨hq, ?_⟩⟩
  by_cases hqp : q = p
  · subst hqp
    have hpos := List.count_pos_iff.2 hq
    exact hdrop.kept (by omega)
  · exact (hdrop.others q hqp).2

/-- `RemoveGroup` -/
theorem Usable.removeGroup {server : ℕ → Bool → HRESULT} {behind : Option ℕ} {b : Bool}
    (h : Usable c ps) (heq : removeGroup server behind szName c = .ok b c') :
    ∃ ps', Usable c' ps' ∧
      ((∀ hServer, failed (removeAnswer server hServer) = false) → KeepsMembers c c' ps ps') := by
  rcases getGroupByNameAt_cases h.listed szName with ⟨k, p, x, hfirst, -⟩ | ⟨-, m, k, hat⟩
  · have hb := h.built p x hfirst.object
    cases hans : failed (removeAnswer server (c.members p).hServer) with
    | true =>
      obtain ⟨c'', hkept, hnulls, -⟩ := removeGroup_kept behind h.listed hb hfirst hans
      rw [hkept] at heq
      cases heq
      exact ⟨ps, (h.cursor k).nulled hnulls (by decide), fun hall => by simp [hall] at hans⟩
    | false =>
      obtain ⟨c'', htaken, hremoved, hb'⟩ := removeGroup_taken behind h.listed hb hfirst hans
      rw [htaken] at heq
      cases heq
      refine ⟨_, h.removed hremoved hb', fun _ q hq => .inl ⟨List.mem_of_mem_eraseIdx hq, ?_⟩⟩
      have hqp : q ≠ p := fun heq => Cells.not_mem_eraseIdx h.distinct hfirst.entry (heq ▸ hq)
      exact (hremoved.others q hqp).2
  · rw [Client.removeGroup, bind_of_ok (onObjects_ok hat)] at heq
    cases heq
    exact ⟨ps, h.cursor k, fun _ => keepsMembers_of_eq rfl⟩

/-- **A call that returns** leaves a list of groups that were built. -/
theorem ClientCall.keeps {call : ClientCall} (h : Usable c ps) (hallowed : call.Allowed (some c))
    (hnext : call.next c = some c') :
    ∃ ps', Usable c' ps' ∧ (call.Removes → KeepsMembers c c' ps ps') := by
  cases call with
  | getGroupByName szName =>
    obtain ⟨o, heq⟩ := returned_eq_some.1 hnext
    obtain ⟨hc', hmembers⟩ := h.search heq
    exact ⟨ps, hc', fun _ => keepsMembers_of_eq hmembers⟩
  | addGroup server szName =>
    obtain ⟨o, heq⟩ := returned_eq_some.1 hnext
    rcases h.addGroup heq with ⟨hc', hmembers⟩ | ⟨p, hc', hcomplete, hothers⟩
    · exact ⟨ps, hc', fun _ => keepsMembers_of_eq hmembers⟩
    · refine ⟨_, hc', fun _ q hq => ?_⟩
      by_cases hqp : q = p
      · exact .inr (hqp ▸ hcomplete)
      · exact .inl ⟨by simpa [hqp] using hq, hothers q hqp⟩
  | removeGroup server behind szName =>
    obtain ⟨b, heq⟩ := returned_eq_some.1 hnext
    exact h.removeGroup heq
  | releaseGroup p =>
    obtain ⟨u, heq⟩ := returned_eq_some.1 hnext
    obtain ⟨hc', hkeeps⟩ := h.release (hallowed c rfl) heq
    exact ⟨ps, hc', fun _ => hkeeps⟩
  | groupCall r call p =>
    obtain ⟨o, heq⟩ := returned_eq_some.1 hnext
    obtain ⟨x, hx, rfl⟩ := groupCall_ok heq
    exact ⟨ps, h.store hx (Int.le_refl _), fun _ => keepsMembers_of_eq rfl⟩

theorem usable_noGroups : Usable noGroups [] where
  listed := ⟨fun l hl => (by cases hl), fun _ => rfl, fun p hp => (by cases hp)⟩
  distinct := List.nodup_nil
  built p x hx := by simp [noGroups, Heap.get] at hx

/-- A list of groups that were built, unless a call has not returned. -/
def UsableSome (s : Option Client) : Prop := ∀ c ∈ s, ∃ ps, Usable c ps

/-- The same, and the groups in the list have all their pointers. -/
def CompleteSome (s : Option Client) : Prop :=
  ∀ c ∈ s, ∃ ps, Usable c ps ∧ ∀ p ∈ ps, Complete (c.members p)

/-- **Runs of the client.**  As long as callers drop only references of their own, every group in
the list has a reference for it, and every group on the heap was built. -/
theorem clients_usable {calls : List ClientCall}
    (h : clients.EachStep ClientCall.Allowed (some noGroups) calls) :
    UsableSome (clients.after (some noGroups) calls) := by
  have hstart : UsableSome (some noGroups) := by
    rintro c ⟨⟩
    exact ⟨[], usable_noGroups⟩
  refine Machine.after_invariant (fun s call hs hallowed c' hc' => ?_) hstart h
  obtain ⟨c, rfl, hnext⟩ := Option.bind_eq_some_iff.1 hc'
  obtain ⟨ps, hps⟩ := hs c rfl
  obtain ⟨ps', hps', -⟩ := call.keeps hps hallowed hnext
  exact ⟨ps', hps'⟩

theorem clients_complete {calls : List ClientCall}
    (h : clients.EachStep (fun s call => call.Allowed s ∧ call.Removes) (some noGroups) calls) :
    CompleteSome (clients.after (some noGroups) calls) := by
  have hstart : CompleteSome (some noGroups) := by
    rintro c ⟨⟩
    exact ⟨[], usable_noGroups, fun p hp => by cases hp⟩
  refine Machine.after_invariant (fun s call hs hcall c' hc' => ?_) hstart h
  obtain ⟨c, rfl, hnext⟩ := Option.bind_eq_some_iff.1 hc'
  obtain ⟨ps, hps, hcomplete⟩ := hs c rfl
  obtain ⟨ps', hps', hkeeps⟩ := call.keeps hps hcall.1 hnext
  refine ⟨ps', hps', fun q hq => ?_⟩
  rcases hkeeps hcall.2 q hq with ⟨hmem, hsame⟩ | hq
  · rw [hsame]
    exact hcomplete q hmem
  · exact hq

/-- **Calls of the groups in the list return**, as long as the server removes what it is told to. -/
theorem clients_return {calls : List ClientCall}
    (h : clients.EachStep (fun s call => call.Allowed s ∧ call.Removes) (some noGroups) calls) :
    ∀ c ∈ clients.after (some noGroups) calls, ∃ ps, Usable c ps ∧
      ∀ p ∈ ps, ∀ r call, ∃ o c', groupCall r call p c = .ok o c' := by
  intro c hc
  obtain ⟨ps, hps, hcomplete⟩ := clients_complete h c hc
  refine ⟨ps, hps, fun p hp r call => ?_⟩
  obtain ⟨x, hx, -⟩ := hps.listed.live p hp
  exact ⟨_, _, groupCall_returns hx fun f _ => hcomplete p hp f⟩

end

end Client

end OpcS7

end Edps
