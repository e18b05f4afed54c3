import Edps.OpcS7.Interfaces

/-!
# Groups that are not built to the end

The constructor of a group gives back what it has got when an interface is refused, and returns with
the list of items not made.  `AddGroup` then drops the only reference, and the destructor goes
through the pointer to that list.

* `construct_refused` : every exit of the constructor gives back what was got, each interface once.
* `destroy_unset` : the destructor of such a group reads a member that was never set.
* `addGroup_never_clean` : whatever the list, and whichever interface is refused.
-/

namespace Edps

namespace OpcS7

namespace Client

/-- What a constructor that returns early has done: it has given back all it has got, once, and has
not set the list of items. -/
structure Refused (c c' : Client) (p : ℕ) : Prop where
  objects : c'.objects = c.objects
  balanced : ∃ got, c'.acquired = c.acquired ++ got ∧ c'.released = c.released ++ got
  unset : (c'.members p).pointer .pItems = none

section

variable {c : Client} {p : ℕ} {r : GroupReplies}

/-- **The exits of the constructor.** -/
theorem construct_refused (hraw : (c.members p).pointer .pItems = none) {iid : IID}
    (hrefused : failed (r.query iid) = true) :
    ∃ hr c', construct r p c = .ok hr c' ∧ failed hr = true ∧ Refused c c' p := by
  rw [construct, bind_of_ok setMember_eq]
  cases hun : failed (r.query .iUnknown) with
  | true =>
    rw [queryMember_refused hun]
    exact ⟨_, _, rfl, hun, rfl, ⟨[], by simp, by simp⟩, by simpa using hraw⟩
  | false =>
    rw [queryMember_granted hun]
    set c₁ := (c.setPointer p .pszName none).granted p .pUnGroup (r.interface .iUnknown) with hc₁
    show ∃ hr c', (queryInterface r .iOPCItemMgt >>= _) c₁ = .ok hr c' ∧ _
    cases hitems : failed (r.query .iOPCItemMgt) with
    | true =>
      rw [queryMember_refused hitems]
      simp only [if_true]
      rw [bind_of_ok (dropInterface_eq (a := r.interface .iUnknown) (by simp [hc₁]))]
      exact ⟨_, _, rfl, hitems, rfl, ⟨[r.interface .iUnknown], by simp [hc₁], by simp [hc₁]⟩,
        by simpa [hc₁] using hraw⟩
    | false =>
      rw [queryMember_granted hitems]
      set c₂ := c₁.granted p .pIItems (r.interface .iOPCItemMgt) with hc₂
      show ∃ hr c', (queryInterface r .iOPCSync >>= _) c₂ = .ok hr c' ∧ _
      cases hsync : failed (r.query .iOPCSync) with
      | true =>
        rw [queryMember_refused hsync]
        simp only [if_true]
        rw [bind_of_ok (dropInterface_eq (a := r.interface .iUnknown) (by simp [hc₂, hc₁])),
          bind_of_ok (dropInterface_eq (a := r.interface .iOPCItemMgt) (by simp [hc₂, hc₁]))]
        exact ⟨_, _, rfl, hsync, rfl, ⟨[r.interface .iUnknown, r.interface .iOPCItemMgt],
          by simp [hc₂, hc₁], by simp [hc₂, hc₁]⟩, by simpa [hc₂, hc₁] using hraw⟩
      | false =>
        rw [queryMember_granted hsync]
        set c₃ := c₂.granted p .pISync (r.interface .iOPCSync) with hc₃
        show ∃ hr c', (queryInterface r .iOPCGroupStateMgt >>= _) c₃ = .ok hr c' ∧ _
        have hstate : failed (r.query .iOPCGroupStateMgt) = true := by
          cases iid with
          | iUnknown => rw [hun] at hrefused; cases hrefused
          | iOPCItemMgt => rw [hitems] at hrefused; cases hrefused
          | iOPCSync => rw [hsync] at hrefused; cases hrefused
          | iOPCGroupStateMgt => exact hrefused
        rw [bind_of_ok (queryInterface_refused hstate), if_pos hstate,
          bind_of_ok (dropInterface_eq (a := r.interface .iUnknown) (by simp [hc₃, hc₂, hc₁])),
          bind_of_ok (dropInterface_eq (a := r.interface .iOPCItemMgt) (by simp [hc₃, hc₂, hc₁])),
          bind_of_ok (dropInterface_eq (a := r.interface .iOPCSync) (by simp [hc₃, hc₂, hc₁]))]
        exact ⟨_, _, rfl, hstate, rfl, ⟨[r.interface .iUnknown, r.interface .iOPCItemMgt,
          r.interface .iOPCSync], by simp [hc₃, hc₂, hc₁], by simp [hc₃, hc₂, hc₁]⟩,
          by simpa [hc₃, hc₂, hc₁] using hraw⟩

/-- What does not set the list of items, if it comes to its end. -/
def KeepsUnset (p : ℕ) (x : ClientM Unit) : Prop :=
  ∀ c, (c.members p).pointer .pItems = none →
    (∃ c', x c = .ok () c' ∧ (c'.members p).pointer .pItems = none) ∨
      ∃ c', x c = .error .wild c'

theorem keepsUnset_bind {x : ClientM Unit} {y : Unit → ClientM Unit} (hx : KeepsUnset p x)
    (hy : KeepsUnset p (y ())) : KeepsUnset p (x >>= y) := by
  intro c hc
  rcases hx c hc with ⟨c', hok, hc'⟩ | ⟨c', hwild⟩
  · rw [bind_of_ok hok]
    exact hy c' hc'
  · exact .inr ⟨c', bind_of_error hwild _⟩

theorem keepsUnset_dropIfSet {f : GroupPointer} (hf : f ≠ .pItems) :
    KeepsUnset p (dropIfSet p f) := by
  intro c hc
  cases hset : (c.members p).pointer f with
  | none => exact .inr ⟨c, dropIfSet_unset hset⟩
  | some v =>
    cases v with
    | none => exact .inl ⟨c, dropIfSet_null hset, hc⟩
    | some a =>
      refine .inl ⟨_, dropIfSet_eq hset, ?_⟩
      rw [pointer_giveBack, if_neg hf.symm, hc]

theorem keepsUnset_detouch : KeepsUnset p (detouch p) :=
  keepsUnset_bind (keepsUnset_dropIfSet (by decide))
    (keepsUnset_bind (keepsUnset_dropIfSet (by decide)) (keepsUnset_dropIfSet (by decide)))

/-- **The destructor needs the list of items.** -/
theorem destroy_unset (h : (c.members p).pointer .pItems = none) :
    ∃ c', destroy p c = .error .wild c' := by
  rw [destroy]
  rcases keepsUnset_detouch c h with ⟨c', hok, hunset⟩ | ⟨c', hwild⟩
  · rw [bind_of_ok hok, bind_of_error (deref_unset hunset)]
    exact ⟨c', rfl⟩
  · exact ⟨c', bind_of_error hwild _⟩

/-! ### `AddGroup` -/

/-- The server adds the group, and the group object refuses an interface. -/
structure Refuses (r : GroupReplies) : Prop where
  added : failed r.addGroup = false
  refused : ∃ iid, failed (r.query iid) = true

/-- `AddGroup` returns no group and leaves the list as it is, every interface that was got has been
given back once, and no member was used that was not set. -/
def DiscardedCleanly (c : Client) : EStateM.Result Fault Client (Option ℕ) → Prop
  | .ok p c' => p = none ∧ c'.objects.groupList = c.objects.groupList ∧
      ∃ got back, c'.acquired = c.acquired ++ got ∧ c'.released = c.released ++ back ∧
        List.Perm got back
  | .error _ _ => False

/-- The client when the constructor of a new group is called. -/
def begun (c : Client) (pIUnk : ℕ) : Client :=
  { c with
    objects := { c.objects.listMade with heap := c.objects.heap.new ⟨0, ⟨[], [], []⟩⟩ }
    members := Function.update c.members c.objects.heap.length ⟨0, fun _ => none⟩
    acquired := c.acquired ++ [pIUnk] }

theorem get_begun (c : Client) (pIUnk : ℕ) :
    (c.begun pIUnk).objects.heap.get c.objects.heap.length = some ⟨0, ⟨[], [], []⟩⟩ :=
  Heap.get_new_self

/-- `AddGroup` of a group that the server adds. -/
theorem addGroup_begins {server : Bytes → GroupReplies} {pszName : Bytes}
    (hadded : failed (server pszName).addGroup = false) (c : Client) :
    addGroup server pszName c = (do
      let hrLast ← construct (server pszName) c.objects.heap.length
      onObjects (Objects.addRef c.objects.heap.length)
      releaseInterface (server pszName).pIUnk
      if failed hrLast then
        releaseGroup c.objects.heap.length
        return none
      else
        onObjects (Objects.add c.objects.heap.length)
        return some c.objects.heap.length : ClientM (Option ℕ))
          (c.begun (server pszName).pIUnk) := by
  set c₁ : Client := { c with
    objects := c.objects.listMade
    acquired := c.acquired ++ [(server pszName).pIUnk] } with hc₁
  have hunk : (modify fun c => { c with acquired := c.acquired ++ [(server pszName).pIUnk] } :
      ClientM Unit) { c with objects := c.objects.listMade } = .ok () c₁ := rfl
  have hnew : newGroup c₁ = .ok c.objects.heap.length (c.begun (server pszName).pIUnk) := rfl
  rw [addGroup, bind_of_ok (onObjects_ok (Objects.makeList_ok _)),
    if_neg (by rw [hadded]; exact Bool.false_ne_true), bind_of_ok hunk, bind_of_ok hnew]

/-- The last reference to a group without a list of items. -/
theorem releaseGroup_unset {x : GroupObject} (hget : c.objects.heap.get p = some x)
    (hlast : x.nRefCount - 1 = 0) (hunset : (c.members p).pointer .pItems = none) :
    ∃ c', releaseGroup p c = .error .wild c' := by
  obtain ⟨c', hwild⟩ := destroy_unset hunset
  rw [releaseGroup, bind_of_ok (onObjects_ok (Objects.object_eq hget)), if_pos hlast]
  exact ⟨c', bind_of_error hwild _⟩

/-- **`AddGroup` goes wild** when an interface is refused. -/
theorem addGroup_wild {server : Bytes → GroupReplies} {pszName : Bytes}
    (h : Refuses (server pszName)) (c : Client) :
    ∃ c', addGroup server pszName c = .error .wild c' := by
  obtain ⟨iid, hrefused⟩ := h.refused
  set p := c.objects.heap.length with hp
  set pIUnk := (server pszName).pIUnk with hpIUnk
  have hraw : ((c.begun pIUnk).members p).pointer .pItems = none := by
    simp [begun, hp]
  obtain ⟨hr, c₂, hbuilt, hfail, hc₂⟩ := construct_refused hraw hrefused
  have hget : c₂.objects.heap.get p = some ⟨0, ⟨[], [], []⟩⟩ := by
    rw [hc₂.objects]
    exact get_begun c pIUnk
  set c₃ : Client := { c₂ with
    objects := { c₂.objects with heap := c₂.objects.heap.store p ⟨0 + 1, ⟨[], [], []⟩⟩ }
    released := c₂.released ++ [pIUnk] } with hc₃
  have hget₃ : c₃.objects.heap.get p = some ⟨0 + 1, ⟨[], [], []⟩⟩ := Heap.get_store_self hget
  obtain ⟨c', hwild⟩ := releaseGroup_unset hget₃ (by decide) hc₂.unset
  have hrelease : releaseInterface pIUnk { c₂ with
      objects := { c₂.objects with heap := c₂.objects.heap.store p ⟨0 + 1, ⟨[], [], []⟩⟩ } } =
      .ok () c₃ := rfl
  refine ⟨c', ?_⟩
  rw [addGroup_begins h.added, bind_of_ok hbuilt,
    bind_of_ok (onObjects_ok (Objects.addRef_eq hget)), bind_of_ok hrelease, if_pos hfail]
  exact bind_of_error hwild _

/-- **A group that is not built is never discarded cleanly**, whatever the list is and whichever
interface is refused. -/
theorem addGroup_never_clean {server : Bytes → GroupReplies} {pszName : Bytes}
    (h : Refuses (server pszName)) (c : Client) :
    ¬ DiscardedCleanly c (addGroup server pszName c) := by
  obtain ⟨c', hwild⟩ := addGroup_wild h c
  rw [hwild]
  exact id

end

/-- A client without groups. -/
def noGroups : Client := ⟨⟨true, none, []⟩, fun _ => ⟨0, fun _ => none⟩, [], []⟩

/-- A server whose groups refuse one interface. -/
def refusing (iid : IID) : GroupReplies where
  addGroup := S_OK
  pIUnk := 1
  query i := if i = iid then E_NOTIMPL else S_OK
  interface
    | .iUnknown => 2
    | .iOPCItemMgt => 3
    | .iOPCSync => 4
    | .iOPCGroupStateMgt => 5
  getState := S_OK
  szName := some []
  hServer := 7
  allocated _ := 9

theorem addGroup_never_clean_sync :
    ¬ DiscardedCleanly noGroups (addGroup (fun _ => refusing .iOPCSync) (ascii "RD") noGroups) :=
  addGroup_never_clean ⟨by decide, .iOPCSync, by decide⟩ noGroups

/-- **A group without `IOPCGroupStateMgt`.**  All four interfaces that were got have been given back
when the destructor goes through the pointer to the list of items. -/
theorem addGroup_without_state :
    (∃ c', addGroup (fun _ => refusing .iOPCGroupStateMgt) (ascii "RD") noGroups =
        .error .wild c' ∧ c'.acquired = [1, 2, 3, 4] ∧ c'.released = [2, 3, 4, 1]) ∧
      ¬ DiscardedCleanly noGroups
        (addGroup (fun _ => refusing .iOPCGroupStateMgt) (ascii "RD") noGroups) :=
  ⟨⟨_, rfl, rfl, rfl⟩, id⟩

end Client

end OpcS7

end Edps
