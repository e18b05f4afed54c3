import Edps.OpcS7.Registered

/-!
# What a single write sends

All single writes work on one group, whose items stay from call to call.  A write chooses its item
with a flag, and the result of the write takes the flag away from the first item of the list that
has the server handle of the write.  A rejected item has the handle 0 there, so a server that gives
this handle to a later item keeps that item chosen for good.

* `SendsOwn` : a call sends one value, its own, to its own item, or none.
* `Careful` : the handle 0 is not given to an item that stands behind a rejected one.
* `Ready` : the invariant of the group: no valid item is chosen, and none has the handle of an
  item before it.
* `sendsOwn_of_careful` : the runs in which every call sends its own value.
-/

namespace Edps

namespace OpcS7

/-- The arguments of `SAPI_Write` that are used. -/
structure SingleWrite where
  bsConn : Bytes
  bsItem : Bytes
  bsType : Bytes
  bsData : Bytes
  deriving DecidableEq, Repr

/-- A server that accepts and rejects items one by one, and never fails as a whole. -/
structure IndividualReplies extends Replies where
  addItemsHr_ok : succeeded addItemsHr = true

/-- The item id of a call. -/
def SingleWrite.itemId (c : SingleWrite) : Bytes := itemName (cstr c.bsConn) (cstr c.bsItem)

variable (crt : Crt)

/-- The value of a call. -/
def SingleWrite.typed (c : SingleWrite) : Variant :=
  (typedValue crt (cstr c.bsType) (cstr c.bsData)).1

/-- The call on its group. -/
def SingleWrite.onGroup (c : SingleWrite) (r : IndividualReplies) (g : COPCGroup) :
    COPCGroup × CallLog :=
  writeCall crt r.toReplies c.bsConn c.bsItem c.bsType c.bsData g

/-- The client under single writes. -/
def singleWrites : Machine SapiState (SingleWrite × IndividualReplies) CallLog :=
  ⟨fun s c =>
    (SapiCall.write c.1.bsConn c.1.bsItem c.1.bsType c.1.bsData).run crt c.2.toReplies s⟩

/-- The server has given every handle to one item only. -/
def DistinctHandles (s : SapiState) (c : SingleWrite × IndividualReplies) : Prop :=
  ∀ g ∈ ((singleWrites crt).next s c).1.groups, (g.registered.map Registration.hServer).Nodup

/-- The item has the id, or one that compares equal to it. -/
def Named (szItemID : Bytes) (it : COPCItem) : Prop :=
  it.szItemID = szItemID ∨ crt.lstrcmpW it.szItemID szItemID = true

/-- What a call sends, if anything, is its value, to the registered handle of its item. -/
def SendsOwn (c : SingleWrite) (log : CallLog) : Prop :=
  match log.write with
  | [] => True
  | [it] => it.registration ∈ log.registered ∧ Named crt c.itemId it ∧
      it.vDataValue = c.typed crt
  | _ => False

/-- The handle 0 is not given to an item when another one of the group was rejected. -/
def Careful (s : SapiState) (c : SingleWrite × IndividualReplies) : Prop :=
  ∀ g ∈ s.group? wrGroupName, getItemById crt g.items c.1.itemId = none →
    succeeded (c.2.addItems [⟨c.1.itemId, g.items.length + 1⟩] 0).hr = true →
    (c.2.addItems [⟨c.1.itemId, g.items.length + 1⟩] 0).hServer = 0 →
    ∀ it ∈ g.items, it.valid = true

/-! ### The group -/

/-- What neither a choice nor a result of a write changes. -/
def COPCItem.fixed (it : COPCItem) : ℕ × Bool × Bool :=
  (it.hServer, it.status.new, it.status.invalid)

/-- Every item was registered or rejected; a rejected one has the handle 0, and a valid one none
that an item before it has. -/
structure Placed (items : List COPCItem) : Prop where
  old : ∀ it ∈ items, it.status.new = false
  zero : ∀ it ∈ items, it.valid = false → it.hServer = 0
  places : items.Pairwise fun a b => b.valid = true → a.hServer ≠ b.hServer

/-- The group of the single writes, between two calls. -/
structure Ready (g : COPCGroup) : Prop where
  inv : GroupInv g
  placed : Placed g.items
  idle : ∀ it ∈ g.items, it.valid = true → it.status.forWrite = false

theorem ready_empty (szName : Bytes) : Ready ⟨szName, [], []⟩ :=
  ⟨groupInv_empty szName, ⟨fun _ h => (by cases h), fun _ h => (by cases h), .nil⟩,
    fun _ h => (by cases h)⟩

theorem Placed.congr {items items' : List COPCItem} (h : Placed items)
    (heq : items'.map COPCItem.fixed = items.map COPCItem.fixed) : Placed items' := by
  have hall {P : ℕ × Bool × Bool → Prop} (hP : ∀ it ∈ items, P it.fixed) :
      ∀ it ∈ items', P it.fixed := by
    intro it' hit'
    obtain ⟨it, hit, hsame⟩ := Keyed.exists_of_forall₂ (Keyed.forall₂_iff_map_eq.2 heq) hit'
    rw [hsame]
    exact hP it hit
  have hpairs := h.places
  refine ⟨hall (P := fun t => t.2.1 = false) h.old,
    hall (P := fun t => (!t.2.2) = false → t.1 = 0) h.zero, ?_⟩
  have hR (its : List COPCItem) :
      (its.Pairwise fun a b => b.valid = true → a.hServer ≠ b.hServer) ↔
        (its.map COPCItem.fixed).Pairwise fun t u => (!u.2.2) = true → t.1 ≠ u.1 := by
    rw [List.pairwise_map]
    rfl
  rw [hR] at hpairs ⊢
  rwa [heq]

theorem COPCItem.forWrite_takeResult {it : COPCItem} (h : it.status.forWrite = false)
    (res : ItemResult) : (it.takeResult res).status.forWrite = false := by
  unfold COPCItem.takeResult
  split_ifs
  · exact h
  · rfl

/-- A new item with its result stands behind the others. -/
theorem Ready.placed_concat {g : COPCGroup} (hg : Ready g) {it : COPCItem} {res : ItemResult}
    (hvalid : it.valid = true)
    (hdistinct : succeeded res.hr = true → ∀ reg ∈ g.registered, reg.hServer ≠ res.hServer)
    (hcareful : succeeded res.hr = true → res.hServer = 0 → ∀ it ∈ g.items, it.valid = true) :
    Placed (g.items ++ [it.takeResult res]) := by
  have hall {P : COPCItem → Prop} (hP : ∀ x ∈ g.items, P x) (hnew : P (it.takeResult res)) :
      ∀ x ∈ g.items ++ [it.takeResult res], P x :=
    List.forall_mem_append.2 ⟨hP, List.forall_mem_singleton.2 hnew⟩
  unfold COPCItem.takeResult at hall ⊢
  by_cases hok : succeeded res.hr = true
  · simp only [if_pos hok] at hall ⊢
    refine ⟨hall hg.placed.old rfl, hall hg.placed.zero fun hinv => ?_, ?_⟩
    · have hvalid' : it.valid = false := hinv
      rw [hvalid] at hvalid'
      cases hvalid'
    · refine List.pairwise_append.2 ⟨hg.placed.places, List.pairwise_singleton _ _, ?_⟩
      intro a ha b hb _
      rw [List.mem_singleton.1 hb]
      -- a valid item has a registered handle, an invalid one the handle 0
      by_cases hav : a.valid = true
      · have hav : a.status.invalid = false := by simpa [COPCItem.valid] using hav
        exact hdistinct hok _ (hg.inv.ok.settled a ha (hg.placed.old a ha) hav)
      · rw [hg.placed.zero a ha (by simpa using hav)]
        intro hzero
        exact hav (hcareful hok hzero.symm a ha)
  · simp only [if_neg hok] at hall ⊢
    refine ⟨hall hg.placed.old rfl, hall hg.placed.zero fun _ => rfl, ?_⟩
    refine List.pairwise_append.2 ⟨hg.placed.places, List.pairwise_singleton _ _, ?_⟩
    intro a ha b hb hv
    rw [List.mem_singleton.1 hb] at hv
    cases hv

/-! ### Registration -/

/-- **A new item** registered in a group without new items: the items afterwards, but for the
codes of operations, and the registrations. -/
theorem Ready.addItems_newItem {g : COPCGroup} (hg : Ready g) (hcomma : 44 ∉ g.name)
    (r : IndividualReplies) (szItemID : Bytes) {g₁ : COPCGroup}
    (hg₁ : ((g.newItem r.toReplies szItemID (g.items.length + 1)).addItems r.toReplies).1 = g₁) :
    ∃ it : COPCItem, it.toDef = ⟨szItemID, g.items.length + 1⟩ ∧ it.valid = true ∧
      it.status.forWrite = false ∧
      g₁.items.map COPCItem.core = (g.items ++
        [it.takeResult (r.addItems [⟨szItemID, g.items.length + 1⟩] 0)]).map COPCItem.core ∧
      g₁.registered = g.registered ++ accepted
        [(⟨szItemID, g.items.length + 1⟩, r.addItems [⟨szItemID, g.items.length + 1⟩] 0)] := by
  set k := g.items.length + 1 with hk
  set it := COPCItem.init szItemID k (r.uninit g.items.length) with hit
  have hinv := hg.inv.newItem hcomma r.toReplies szItemID
  have hnd := hinv.ok.nodup
  have hitems : (g.newItem r.toReplies szItemID k).items = g.items ++ [it] := rfl
  -- the only new item is the last one
  have hnone : g.items.filter (fun it => it.status.new) = [] :=
    List.filter_eq_nil_iff.2 fun x hx => by simp [hg.placed.old x hx]
  have hdefs : getNewItems (g.newItem r.toReplies szItemID k).items = [⟨szItemID, k⟩] := by
    rw [getNewItems, hitems, List.filter_append, hnone]
    rfl
  refine ⟨it, rfl, rfl, rfl, ?_⟩
  rcases addItems_cases _ r.toReplies hnd with ⟨-, hr⟩ | ⟨-, -, -, hreg, hcore⟩
  · rcases hr with ⟨-, hfail⟩ | ⟨-, hold⟩
    · have hok := r.addItemsHr_ok
      simp only [failed, succeeded, decide_eq_true_eq] at hfail hok
      exact absurd hfail (not_lt.2 hok)
    · have hnew := hold it (by rw [hitems]; simp)
      cases hnew
  · have holds : ∀ x ∈ g.items, x.answered (results r.toReplies [⟨szItemID, k⟩]) = x := by
      intro x hx
      have hmem : x ∈ (g.newItem r.toReplies szItemID k).items := by
        rw [hitems]
        exact List.mem_append_left _ hx
      rw [← hdefs]
      exact answered_of_not_new r.toReplies hnd hmem (hg.placed.old x hx)
    rw [hg₁, hdefs] at hreg hcore
    refine ⟨?_, hreg⟩
    rw [hcore, hitems, List.map_append, List.map_append]
    congr 1
    · exact List.map_congr_left fun x hx => by rw [holds x hx]
    · simp [COPCItem.answered, results, it, COPCItem.init]

/-- What the server has to do for a new item: a handle that is not taken, and not 0 behind a
rejected item. -/
structure FreshHandle (g : COPCGroup) (res : ItemResult) : Prop where
  distinct : succeeded res.hr = true → ∀ reg ∈ g.registered, reg.hServer ≠ res.hServer
  careful : succeeded res.hr = true → res.hServer = 0 → ∀ it ∈ g.items, it.valid = true

/-- **Registration** of a new item keeps the group ready. -/
theorem Ready.register {g : COPCGroup} (hg : Ready g) (hcomma : 44 ∉ g.name)
    (r : IndividualReplies) (szItemID : Bytes)
    (hfresh : FreshHandle g (r.addItems [⟨szItemID, g.items.length + 1⟩] 0)) {g₁ : COPCGroup}
    (hg₁ : ((g.newItem r.toReplies szItemID (g.items.length + 1)).addItems r.toReplies).1 = g₁) :
    Ready g₁ ∧ ∃ it, g₁.items[g.items.length]? = some it ∧ it.szItemID = szItemID := by
  obtain ⟨it, hdef, hvalid, hidle, hcore, -⟩ := hg.addItems_newItem hcomma r szItemID hg₁
  set res := r.addItems [⟨szItemID, g.items.length + 1⟩] 0 with hres
  have hinv := hg.inv.newItem hcomma r.toReplies szItemID
  have hplaced := hg.placed_concat hvalid hfresh.distinct hfresh.careful
  have hmap {γ : Type} (c : COPCItem → γ) (hc : ∀ it, c it.core = c it) :
      g₁.items.map c = (g.items ++ [it.takeResult res]).map c := by
    have h := congrArg (List.map c) hcore
    rw [List.map_map, List.map_map] at h
    simpa only [Function.comp_def, hc] using h
  refine ⟨⟨?_, hplaced.congr (hmap COPCItem.fixed fun _ => rfl), ?_⟩, ?_⟩
  · rw [← hg₁]
    exact hinv.keep (hinv.ok.addItems r.toReplies).1 (name_addItems _ _)
      (hClient_addItems _ _ hinv.ok.nodup)
  · intro it' hit' hv
    obtain ⟨x, hx, hsame⟩ := Keyed.exists_of_forall₂
      (Keyed.forall₂_iff_map_eq.2 (hmap COPCItem.status fun _ => rfl)) hit'
    rw [COPCItem.valid, hsame] at hv
    rw [hsame]
    rcases List.mem_append.1 hx with hx | hx
    · exact hg.idle x hx hv
    · rw [List.mem_singleton.1 hx]
      exact COPCItem.forWrite_takeResult hidle res
  · have hids := hmap COPCItem.szItemID fun _ => rfl
    have hlast : (g₁.items.map COPCItem.szItemID)[g.items.length]? =
        some (it.takeResult res).szItemID := by
      rw [hids]
      simp
    rw [List.getElem?_map, Option.map_eq_some_iff] at hlast
    obtain ⟨x, hx, hid⟩ := hlast
    refine ⟨x, hx, hid.trans ?_⟩
    have hid' := congrArg ItemDef.szItemID hdef
    unfold COPCItem.takeResult
    split_ifs <;> exact hid'

variable {crt}

/-- **The search of a write** keeps the group ready, and the position it ends with is that of an
item with the id. -/
theorem Ready.findOrAddSingle {g : COPCGroup} (hg : Ready g) (hcomma : 44 ∉ g.name)
    (r : IndividualReplies) (szItemID : Bytes)
    (hfresh : getItemById crt g.items szItemID = none →
      FreshHandle g (r.addItems [⟨szItemID, g.items.length + 1⟩] 0)) :
    ∃ g₁ res, OpcS7.findOrAddSingle crt r.toReplies szItemID g = (g₁, res) ∧ Ready g₁ ∧
      ∀ p, res = .ok p → ∃ it, g₁.items[p]? = some it ∧ Named crt szItemID it := by
  unfold OpcS7.findOrAddSingle
  cases hfind : getItemById crt g.items szItemID with
  | some p =>
    obtain ⟨hlt, hname, -⟩ := List.findIdx?_eq_some_iff_getElem.1 hfind
    have hit : g.items[p]? = some g.items[p] := List.getElem?_eq_getElem hlt
    simp only [hit, Option.any_some]
    by_cases hvalid : g.items[p].valid = true
    · rw [if_pos hvalid]
      refine ⟨g, _, rfl, hg, fun q hq => ⟨g.items[p], ?_, .inr hname⟩⟩
      rw [← Except.ok.inj hq]
      exact hit
    · -- a rejected item: there is nothing to register
      have hdefs : getNewItems g.items = [] := by
        rw [getNewItems, List.filter_eq_nil_iff.2 fun x hx => by simp [hg.placed.old x hx]]
        rfl
      have hadd : g.addItems r.toReplies = (g, S_FALSE) := by
        rw [COPCGroup.addItems]
        simp only [if_pos hdefs]
      rw [if_neg hvalid, hadd]
      exact ⟨g, .error (-1), rfl, hg, fun q hq => by cases hq⟩
  | none =>
    simp only
    generalize hadd : (g.newItem r.toReplies szItemID (g.items.length + 1)).addItems r.toReplies =
      res
    obtain ⟨g₁, hr⟩ := res
    obtain ⟨hready, it, hit, hid⟩ :=
      hg.register hcomma r szItemID (hfresh hfind) (congrArg Prod.fst hadd)
    simp only
    split_ifs
    · exact ⟨g₁, _, rfl, hready, fun q hq => by cases hq⟩
    · refine ⟨g₁, _, rfl, hready, fun q hq => ⟨it, ?_, .inl hid⟩⟩
      rw [← Except.ok.inj hq]
      exact hit

/-! ### The write -/

/-- A change of one item that leaves it placed and, if it is valid, not chosen. -/
theorem Ready.modify {g : COPCGroup} (hg : Ready g) {p : ℕ} {it : COPCItem}
    (hit : g.items[p]? = some it) {f : COPCItem → COPCItem} (hf : ∀ x, (f x).fixed = x.fixed)
    (hclear : it.valid = true → (f it).status.forWrite = false) :
    Placed (g.items.modify p f) ∧
      ∀ x ∈ g.items.modify p f, x.valid = true → x.status.forWrite = false := by
  refine ⟨hg.placed.congr (Keyed.map_modify_of_eq hf _ _),
    Keyed.forall_mem_modify hg.idle hit fun hv => hclear ?_⟩
  have hinvalid : (f it).status.invalid = it.status.invalid :=
    congrArg (fun t => t.2.2) (hf it)
  rwa [COPCItem.valid, hinvalid] at hv

/-- **What is written** is the item that was chosen, if it is valid; its result takes the choice
back. -/
theorem Ready.writeItems {g : COPCGroup} (hg : Ready g) {p : ℕ} {it : COPCItem}
    (hit : g.items[p]? = some it) (v : Variant) (r : Replies) {g₂ : COPCGroup}
    (hg₂ : g₂ = g.modifyItem (COPCItem.itemForWrite v) p) :
    g₂.items.filter chosen2Write = (if it.valid then [it.itemForWrite v] else []) ∧
      Placed (g₂.writeItems r).1.items ∧
      ∀ it ∈ (g₂.writeItems r).1.items, it.valid = true → it.status.forWrite = false := by
  have hitems : g₂.items = g.items.modify p (COPCItem.itemForWrite v) := by
    rw [hg₂]
    rfl
  have hfixed (x : COPCItem) : (x.itemForWrite v).fixed = x.fixed := rfl
  have hidle : ∀ x ∈ g.items, chosen2Write x = false := by
    intro x hx
    rw [chosen2Write, Bool.and_eq_false_imp]
    exact hg.idle x hx
  have hasked : g₂.items.filter chosen2Write =
      if it.valid then [it.itemForWrite v] else [] := by
    have hchosen : chosen2Write (it.itemForWrite v) = it.valid := Bool.and_true _
    rw [hitems, Keyed.filter_modify hidle hit, hchosen]
  refine ⟨hasked, ?_⟩
  unfold COPCGroup.writeItems getItems2Write
  simp only [hasked]
  by_cases hvalid : it.valid = true
  · simp only [if_pos hvalid, List.cons_ne_nil, if_false, List.zipIdx_cons, List.zipIdx_nil,
      List.map_cons, List.map_nil]
    set reply := r.write [it.itemForWrite v] with hreply
    -- no item before it has its handle, so its result reaches it
    have hit₂ : g₂.items[p]? = some (it.itemForWrite v) := by
      rw [hitems, List.getElem?_modify_eq, hit]
      rfl
    have hfirst : ∀ x ∈ g₂.items.take p, x.hServer ≠ (it.itemForWrite v).hServer := by
      have hplaced : Placed g₂.items :=
        hitems ▸ hg.placed.congr (Keyed.map_modify_of_eq hfixed _ _)
      have hdrop : it.itemForWrite v ∈ g₂.items.drop p :=
        List.mem_of_getElem? (i := 0) (by rw [List.getElem?_drop]; exact hit₂)
      exact fun x hx => hplaced.places.rel_of_mem_take_of_mem_drop hx hdrop hvalid
    have hkey : (it.itemForWrite v).hServer = ((it.itemForWrite v).hServer, reply.errors 0).1 := rfl
    have hmerge : setWriteResult reply.hr g₂.items
        [((it.itemForWrite v).hServer, reply.errors 0)] =
          g.items.modify p fun x => (x.itemForWrite v).takeWritten reply.hr
            ((it.itemForWrite v).hServer, reply.errors 0) := by
      rw [setWriteResult, Keyed.merge_one hit₂ hkey hfirst, hitems, List.modify_modify_eq]
      rfl
    rw [hmerge]
    exact hg.modify hit (fun x => hfixed x) fun _ => rfl
  · simp only [if_neg hvalid, if_true, hitems]
    exact hg.modify hit hfixed fun hv => absurd hv hvalid

/-! ### One call -/

/-- A write registers what its search registers. -/
theorem registered_onGroup (c : SingleWrite) (r : IndividualReplies) (g : COPCGroup) :
    (c.onGroup crt r g).1.registered =
      (findOrAddSingle crt r.toReplies c.itemId g).1.registered := by
  rcases writeCall_cases crt r.toReplies c.bsConn c.bsItem c.bsType c.bsData g with
    heq | ⟨g₁, p, g₂, ret, hfind, -, rfl, heq⟩
  · rw [SingleWrite.onGroup, heq]
    rfl
  · rw [SingleWrite.onGroup, heq, SingleWrite.itemId, hfind]
    exact (writeItems_frame _ _).2.1

/-- A server whose handles stay distinct gives a new item one that is not taken. -/
theorem Ready.fresh {g : COPCGroup} (hg : Ready g) (hcomma : 44 ∉ g.name) (c : SingleWrite)
    (r : IndividualReplies)
    (hdistinct : ((c.onGroup crt r g).1.registered.map Registration.hServer).Nodup)
    (hfind : getItemById crt g.items c.itemId = none)
    (hcareful : succeeded (r.addItems [⟨c.itemId, g.items.length + 1⟩] 0).hr = true →
      (r.addItems [⟨c.itemId, g.items.length + 1⟩] 0).hServer = 0 →
      ∀ it ∈ g.items, it.valid = true) :
    FreshHandle g (r.addItems [⟨c.itemId, g.items.length + 1⟩] 0) := by
  obtain ⟨-, -, -, -, -, hreg⟩ := hg.addItems_newItem hcomma r c.itemId rfl
  refine ⟨fun hok reg hmem hsame => ?_, hcareful⟩
  have hfst : (OpcS7.findOrAddSingle crt r.toReplies c.itemId g).1 =
      ((g.newItem r.toReplies c.itemId (g.items.length + 1)).addItems r.toReplies).1 := by
    unfold OpcS7.findOrAddSingle
    rw [hfind]
    simp only
    split_ifs <;> rfl
  rw [registered_onGroup, hfst, hreg, List.map_append, List.nodup_append] at hdistinct
  refine hdistinct.2.2 _ (List.mem_map_of_mem hmem) _ ?_ hsame
  simp [accepted, hok]

/-- **One write** on a ready group sends its own value or nothing, and the group stays ready. -/
theorem Ready.onGroup {g : COPCGroup} (hg : Ready g) (hcomma : 44 ∉ g.name) (c : SingleWrite)
    (r : IndividualReplies)
    (hfresh : getItemById crt g.items c.itemId = none →
      FreshHandle g (r.addItems [⟨c.itemId, g.items.length + 1⟩] 0)) :
    (c.onGroup crt r g).1.name = g.name ∧ Ready (c.onGroup crt r g).1 ∧
      SendsOwn crt c (c.onGroup crt r g).2 := by
  have hwell := writeCall_goesWell hg.inv hcomma crt r.toReplies c.bsConn c.bsItem c.bsType c.bsData
  -- no item is new, so none is found new
  have hclear : SingleClear crt c.itemId g := by
    intro it hit
    obtain ⟨p, -, hp⟩ := Option.bind_eq_some_iff.1 hit
    exact hg.placed.old it (List.mem_of_getElem? hp)
  refine ⟨hwell.name, ?_⟩
  have hinv := hwell.inv fun _ => hclear
  obtain ⟨g₁, res, hfind, hready, hpos⟩ := hg.findOrAddSingle hcomma r c.itemId hfresh
  rcases writeCall_cases crt r.toReplies c.bsConn c.bsItem c.bsType c.bsData g with
    heq | ⟨g₁', p, g₂, ret, hok, -, hg₂, heq⟩
  · rw [SingleWrite.onGroup, heq]
    exact ⟨(congrArg Prod.fst hfind).symm ▸ hready, trivial⟩
  · obtain ⟨rfl, rfl⟩ : g₁ = g₁' ∧ res = .ok p := Prod.mk.inj (hfind.symm.trans hok)
    obtain ⟨it, hit, hnamed⟩ := hpos p rfl
    obtain ⟨hasked, hplaced, hidle⟩ := hready.writeItems hit (c.typed crt) r.toReplies hg₂
    rw [heq] at hinv
    rw [SingleWrite.onGroup, heq]
    refine ⟨⟨hinv, hplaced, hidle⟩, ?_⟩
    rw [SendsOwn, hasked]
    by_cases hvalid : it.valid = true
    · rw [if_pos hvalid]
      refine ⟨?_, hnamed, rfl⟩
      have hmem := List.mem_of_getElem? hit
      exact hready.inv.ok.settled it hmem (hready.placed.old it hmem)
        (by simpa [COPCItem.valid] using hvalid)
    · rw [if_neg hvalid]
      trivial

/-! ### Runs -/

/-- The groups of a client that only writes single items. -/
def ReadyGroup (g : COPCGroup) : Prop := g.name = wrGroupName ∧ Ready g

theorem comma_notMem_wrGroupName : 44 ∉ wrGroupName := by
  decide

theorem singleWrites_step (s : SapiState) (c : SingleWrite × IndividualReplies)
    (hs : s.All ReadyGroup) (hdistinct : DistinctHandles crt s c) (hcareful : Careful crt s c) :
    ((singleWrites crt).next s c).1.All ReadyGroup ∧
      SendsOwn crt c.1 ((singleWrites crt).next s c).2 := by
  have hnext : (singleWrites crt).next s c =
      getOPCGroup c.2.toReplies wrGroupName (-1) (c.1.onGroup crt c.2) s := rfl
  rw [DistinctHandles, hnext] at hdistinct
  rw [hnext]
  -- the write on a ready group of the client, or on a new one
  have hone {g : COPCGroup} (hg : ReadyGroup g)
      (hmem : (c.1.onGroup crt c.2 g).1 ∈
        (getOPCGroup c.2.toReplies wrGroupName (-1) (c.1.onGroup crt c.2) s).1.groups)
      (hcareful : getItemById crt g.items c.1.itemId = none →
        succeeded (c.2.addItems [⟨c.1.itemId, g.items.length + 1⟩] 0).hr = true →
        (c.2.addItems [⟨c.1.itemId, g.items.length + 1⟩] 0).hServer = 0 →
        ∀ it ∈ g.items, it.valid = true) :
      ReadyGroup (c.1.onGroup crt c.2 g).1 ∧ SendsOwn crt c.1 (c.1.onGroup crt c.2 g).2 := by
    have hcomma : 44 ∉ g.name := hg.1 ▸ comma_notMem_wrGroupName
    obtain ⟨hname, hready, hsends⟩ := hg.2.onGroup hcomma c.1 c.2 fun hfind =>
      hg.2.fresh hcomma c.1 c.2 (hdistinct _ hmem) hfind (hcareful hfind)
    exact ⟨⟨hname.trans hg.1, hready⟩, hsends⟩
  have hempty : ReadyGroup ⟨wrGroupName, [], []⟩ := ⟨rfl, ready_empty wrGroupName⟩
  rcases getOPCGroup_cases (r := c.2.toReplies) hs wrGroupName (-1) (c.1.onGroup crt c.2) with
    ⟨hg, hgroups, hlog⟩ | ⟨g, hg, hgroups, hlog⟩ | ⟨hg, hgroups, -, hlog⟩
  · rw [hlog]
    refine ⟨⟨hgroups ▸ hs.names, fun hne => ?_, hgroups ▸ hs.groups⟩, trivial⟩
    exact connected_getOPCGroup (hs.connected (hgroups ▸ hne)) ..
  · obtain ⟨hmem, hname⟩ := SapiState.group?_mem hg
    have hin : (c.1.onGroup crt c.2 g).1 ∈
        Keyed.update COPCGroup.name wrGroupName (fun _ => (c.1.onGroup crt c.2 g).1) s.groups :=
      List.mem_map.2 ⟨g, hmem, if_pos hname⟩
    obtain ⟨hready, hsends⟩ := hone (hs.groups g hmem) (hgroups ▸ hin) (hcareful g hg)
    rw [hlog]
    refine ⟨hs.getOPCGroup (fun g' hg' => ?_) fun hnone => ?_, hsends⟩
    · obtain rfl : g = g' := Option.some.inj (hg.symm.trans hg')
      exact ⟨hready.1, hready⟩
    · rw [hg] at hnone
      cases hnone
  · have hin : (c.1.onGroup crt c.2 ⟨wrGroupName, [], []⟩).1 ∈
        s.groups ++ [(c.1.onGroup crt c.2 ⟨wrGroupName, [], []⟩).1] := by simp
    obtain ⟨hready, hsends⟩ := hone hempty (hgroups ▸ hin) fun _ _ _ it hit => by cases hit
    rw [hlog]
    refine ⟨hs.getOPCGroup (fun g hg' => ?_) fun _ => ⟨hready.1, hready⟩, hsends⟩
    rw [hg] at hg'
    cases hg'

/-- **A single write sends its own value.**  In a run of single writes against a server that gives
every handle to one item only, and the handle 0 to none behind a rejected one, no call sends the
value of another one. -/
theorem sendsOwn_of_careful (crt : Crt) (calls : List (SingleWrite × IndividualReplies))
    (hdistinct : (singleWrites crt).EachStep (DistinctHandles crt) .init calls)
    (hcareful : (singleWrites crt).EachStep (Careful crt) .init calls) :
    (singleWrites crt).EachStep
      (fun s c => SendsOwn crt c.1 ((singleWrites crt).next s c).2) .init calls := by
  have hboth := Machine.eachStep_and.2 ⟨hdistinct, hcareful⟩
  refine Machine.eachStep_of_invariant ?_ ?_ (SapiState.all_init ReadyGroup) hboth
  · exact fun s c hs h => (singleWrites_step s c hs h.1 h.2).1
  · exact fun s c hs h => (singleWrites_step s c hs h.1 h.2).2

instance (c : SingleWrite) : (log : CallLog) → Decidable (SendsOwn crt c log)
  | ⟨_, _, _, [], _⟩ => .isTrue trivial
  | ⟨_, _, _, [it], registered⟩ => inferInstanceAs (Decidable (it.registration ∈ registered ∧
      (it.szItemID = c.itemId ∨ crt.lstrcmpW it.szItemID c.itemId = true) ∧
      it.vDataValue = c.typed crt))
  | ⟨_, _, _, _ :: _ :: _, _⟩ => .isFalse id

instance (s : SapiState) (c : SingleWrite × IndividualReplies) :
    Decidable (DistinctHandles crt s c) :=
  inferInstanceAs (Decidable (∀ g ∈ ((singleWrites crt).next s c).1.groups,
    (g.registered.map Registration.hServer).Nodup))

instance (s : SapiState) (c : SingleWrite × IndividualReplies) : Decidable (Careful crt s c) :=
  inferInstanceAs (Decidable (∀ g ∈ s.group? wrGroupName,
    getItemById crt g.items c.1.itemId = none →
      succeeded (c.2.addItems [⟨c.1.itemId, g.items.length + 1⟩] 0).hr = true →
      (c.2.addItems [⟨c.1.itemId, g.items.length + 1⟩] 0).hServer = 0 →
      ∀ it ∈ g.items, it.valid = true))

/-- A write of a word of `DB1`. -/
def writeWord (item data : String) : SingleWrite :=
  ⟨ascii "C", ascii item, ascii "INTEGER", ascii data⟩

/-- A server that rejects the item under the client handle 1, and gives the others their client
handles less `n`. -/
def rejectingReplies (n : ℕ) : IndividualReplies where
  toReplies := { exampleReplies S_OK with
    addItems := fun defs k => (defs[k]?).elim ⟨E_NOTIMPL, 0⟩ fun d =>
      if d.hClient = 1 then ⟨E_NOTIMPL, 0⟩ else ⟨S_OK, d.hClient - n⟩ }
  addItemsHr_ok := rfl

/-- Three words, of which the first is rejected. -/
def threeWrites (n : ℕ) : List (SingleWrite × IndividualReplies) :=
  [(writeWord "DB1,W0" "5", rejectingReplies n), (writeWord "DB1,W2" "6", rejectingReplies n),
    (writeWord "DB1,W4" "7", rejectingReplies n)]

theorem sendsOwn_of_careful_rejected :
    ((singleWrites exampleCrt).outs .init (threeWrites 0)).map (fun log => log.write.length) =
        [0, 1, 1] ∧
      (singleWrites exampleCrt).EachStep
        (fun s c => SendsOwn exampleCrt c.1 ((singleWrites exampleCrt).next s c).2) .init
        (threeWrites 0) :=
  ⟨by decide +kernel, sendsOwn_of_careful exampleCrt (threeWrites 0) (by decide +kernel)
    (by decide +kernel)⟩

/-- The second word gets the handle 0; its result is taken by the rejected word, and the third
call sends both values. -/
theorem not_sendsOwn_handle_zero :
    (singleWrites exampleCrt).EachStep (DistinctHandles exampleCrt) .init (threeWrites 2) ∧
      ((singleWrites exampleCrt).outs .init (threeWrites 2)).map (fun log =>
        log.write.map fun it => (it.hServer, it.vDataValue)) =
        [[], [(0, ofLong VT_I2 6)], [(0, ofLong VT_I2 6), (1, ofLong VT_I2 7)]] ∧
      ¬ (singleWrites exampleCrt).EachStep
        (fun s c => SendsOwn exampleCrt c.1 ((singleWrites exampleCrt).next s c).2) .init
        (threeWrites 2) := by
  refine ⟨?_, ?_, ?_⟩ <;> decide +kernel

end OpcS7

end Edps
