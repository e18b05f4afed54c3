import Edps.OpcS7.Params

/-!
# OPC groups

A group of the client stands for a group object of the server: its items are registered there
with `AddItems` and read and written through `IOPCSyncIO`.  What the server answers is a
`Replies`; what it has registered so far is kept beside the items, to say later which handles are
really its own.

* `COPCGroup.addItems`, `readItems`, `writeItems` : the calls of the server.
* `findOrAddItemsToGroup`, `findOrAddSingle` : the items of a request.
-/

namespace Edps

namespace OpcS7

/-- An item the server has registered: the result of `AddItems` for it was a success. -/
structure Registration where
  szItemID : Bytes
  hClient : ℕ
  hServer : ℕ
  deriving DecidableEq, Repr

/-- What an item takes for its registration. -/
def COPCItem.registration (it : COPCItem) : Registration := ⟨it.szItemID, it.hClient, it.hServer⟩

/-- `COPCGroup`, with what the server has registered in its group object. -/
structure COPCGroup where
  name : Bytes
  items : List COPCItem
  registered : List Registration
  deriving DecidableEq, Repr

/-- What `IOPCSyncIO::Read` gives back: no states, a null pointer, or one for each handle. -/
structure ReadReply where
  hr : HRESULT
  states : Option (ℕ → ItemState)
  errors : ℕ → HRESULT

/-- What `IOPCSyncIO::Write` gives back. -/
structure WriteReply where
  hr : HRESULT
  errors : ℕ → HRESULT

/-- What the server answers during a call, and what fresh memory holds. -/
structure Replies where
  /-- The connection is made, if it is not there. -/
  connect : Bool
  addGroup : HRESULT
  /-- The memory at `m_hServer` of the item at a position. -/
  uninit : ℕ → ℕ
  addItemsHr : HRESULT
  addItems : List ItemDef → ℕ → ItemResult
  read : List COPCItem → ReadReply
  write : List COPCItem → WriteReply

/-- The definitions with their results. -/
def results (r : Replies) (defs : List ItemDef) : List (ItemDef × ItemResult) :=
  defs.zipIdx.map fun d => (d.1, r.addItems defs d.2)

/-- The registrations that succeeded. -/
def accepted (res : List (ItemDef × ItemResult)) : List Registration :=
  (res.filter fun p => succeeded p.2.hr).map fun p => ⟨p.1.szItemID, p.1.hClient, p.2.hServer⟩

namespace COPCGroup

/-- `NewItem` -/
def newItem (g : COPCGroup) (r : Replies) (szItemID : Bytes) (hClient : ℕ) : COPCGroup :=
  { g with items := addItem g.items szItemID hClient (r.uninit g.items.length) }

/-- `AddItems` -/
def addItems (g : COPCGroup) (r : Replies) : COPCGroup × HRESULT :=
  let defs := getNewItems g.items
  if defs = [] then (g, S_FALSE)
  else if succeeded r.addItemsHr then
    ({ g with
        items := setNewItemsRes g.items 0 (results r defs)
        registered := g.registered ++ accepted (results r defs) }, r.addItemsHr)
  else (g, r.addItemsHr)

/-- `ReadItems`, of the chosen items: the group, the items whose handles were passed, and the
result.  Without states the client reads through a null pointer, which is no result. -/
def readItems (g : COPCGroup) (r : Replies) : COPCGroup × List COPCItem × Option HRESULT :=
  let (items, asked) := getItems2Read false g.items
  if asked = [] then ({ g with items }, [], some S_FALSE)
  else
    let reply := r.read asked
    match reply.states with
    | none => ({ g with items }, asked, none)
    | some states =>
      let sts := (List.range asked.length).map fun n => (states n, reply.errors n)
      ({ g with items := setReadValue reply.hr items sts }, asked, some reply.hr)

/-- `WriteItems`: the group, the items whose handles and values were passed, and the result. -/
def writeItems (g : COPCGroup) (r : Replies) : COPCGroup × List COPCItem × HRESULT :=
  let asked := getItems2Write g.items
  if asked = [] then (g, [], S_FALSE)
  else
    let reply := r.write asked
    let res := asked.zipIdx.map fun it => (it.1.hServer, reply.errors it.2)
    ({ g with items := setWriteResult reply.hr g.items res }, asked, reply.hr)

/-- A change of the item at a position. -/
def modifyItem (g : COPCGroup) (f : COPCItem → COPCItem) (p : ℕ) : COPCGroup :=
  { g with items := g.items.modify p f }

/-- `InitReading` of the item a client handle points to. -/
def initReading (g : COPCGroup) (hClient : ℕ) : COPCGroup :=
  (getItem g.items hClient).elim g (g.modifyItem COPCItem.itemForRead)

/-- `InitWriting` of the item a client handle points to. -/
def initWriting (g : COPCGroup) (hClient : ℕ) (v : Variant) : COPCGroup :=
  (getItem g.items hClient).elim g (g.modifyItem (COPCItem.itemForWrite v))

end COPCGroup

/-! ### The items of a request -/

/-- The first loop of `FindOrAddItemsToGroup`: the items that are missing are appended. -/
def addMissing (r : Replies) (g : COPCGroup) (params : List CEdpsParam) : COPCGroup :=
  params.foldl (fun g p =>
    match getItem g.items p.dwParID with
    | some _ => g
    | none => g.newItem r p.szItemId p.dwParID) g

/-- The last loop of `FindOrAddItemsToGroup`: the items are chosen.  Their pointers were fetched
by client handle after the last item had been appended. -/
def initItems (bSet2Read : Bool) (g : COPCGroup) (params : List CEdpsParam) : COPCGroup :=
  params.foldl (fun g p =>
    if bSet2Read then g.initReading p.dwParID else g.initWriting p.dwParID p.val) g

/-- `FindOrAddItemsToGroup` -/
def findOrAddItemsToGroup (r : Replies) (params : List CEdpsParam) (bSet2Read : Bool)
    (g : COPCGroup) : COPCGroup × ℤ :=
  let g₁ := addMissing r g params
  let dwAdd := g₁.items.length - g.items.length
  if dwAdd = 0 then (initItems bSet2Read g₁ params, 0)
  else
    let (g₂, hr) := g₁.addItems r
    if failed hr then (g₂, -2)
    else (initItems bSet2Read g₂ params, if hr = S_FALSE then -1 else dwAdd)

/-- The search of `SingleItem`: the item with the id, registered when it is not there or not
valid.  The position of the item, or -1. -/
def findOrAddSingle (crt : Crt) (r : Replies) (szItemID : Bytes) (g : COPCGroup) :
    COPCGroup × Except ℤ ℕ :=
  match getItemById crt g.items szItemID with
  | some p =>
    if (g.items[p]?).any COPCItem.valid then (g, .ok p)
    else
      let (g, hr) := g.addItems r
      if failed hr ∨ hr = S_FALSE then (g, .error (-1)) else (g, .ok p)
  | none =>
    let p := g.items.length
    let (g, hr) := (g.newItem r szItemID (p + 1)).addItems r
    if failed hr ∨ hr = S_FALSE then (g, .error (-1)) else (g, .ok p)

/-! ### Registration -/

theorem COPCItem.registration_of_core {it it' : COPCItem} (h : it'.core = it.core) :
    it'.registration = it.registration := by
  have hreg := congrArg COPCItem.registration h
  exact hreg

theorem results_fst (r : Replies) (defs : List ItemDef) : (results r defs).map Prod.fst = defs := by
  have hmap := List.zipIdx_map_fst 0 defs
  rw [results, List.map_map]
  exact hmap

theorem nodup_results (r : Replies) {items : List COPCItem}
    (hnd : (items.map COPCItem.hClient).Nodup) :
    ((results r (getNewItems items)).map fun p => p.1.hClient).Nodup := by
  have hkeys : ((results r (getNewItems items)).map fun p => p.1.hClient) =
      (items.filter fun it => it.status.new).map COPCItem.hClient := by
    have hfst := congrArg (List.map ItemDef.hClient) (results_fst r (getNewItems items))
    rw [List.map_map, getNewItems, List.map_map] at hfst
    exact hfst
  rw [hkeys]
  exact hnd.sublist (List.Sublist.map _ List.filter_sublist)

/-- A definition handed to the server is that of a new item. -/
theorem mem_getNewItems {items : List COPCItem} {d : ItemDef} :
    d ∈ getNewItems items ↔ ∃ it ∈ items, it.status.new = true ∧ it.toDef = d := by
  simp [getNewItems, and_assoc]

theorem mem_results {r : Replies} {defs : List ItemDef} {p : ItemDef × ItemResult}
    (h : p ∈ results r defs) : p.1 ∈ defs := by
  rw [← results_fst r defs]
  exact List.mem_map_of_mem h

/-- Nothing is answered for an item that is not new. -/
theorem answered_of_not_new (r : Replies) {items : List COPCItem}
    (hnd : (items.map COPCItem.hClient).Nodup) {it : COPCItem} (hit : it ∈ items)
    (hnew : it.status.new = false) : it.answered (results r (getNewItems items)) = it := by
  have hnone : (results r (getNewItems items)).find? (fun p => p.1.hClient = it.hClient) =
      none := by
    rw [List.find?_eq_none]
    intro p hp he
    obtain ⟨it', hit', hnew', hdef⟩ := mem_getNewItems.1 (mem_results hp)
    have hkey : it'.hClient = it.hClient := by
      have := of_decide_eq_true he
      rwa [← hdef] at this
    have heq := List.inj_on_of_nodup_map hnd hit' hit hkey
    rw [heq, hnew] at hnew'
    cases hnew'
  rw [COPCItem.answered, hnone]
  rfl

/-- A new item gets the result of its definition. -/
theorem answered_of_new (r : Replies) {items : List COPCItem}
    (hnd : (items.map COPCItem.hClient).Nodup) {it : COPCItem} (hit : it ∈ items)
    (hnew : it.status.new = true) :
    ∃ res, (it.toDef, res) ∈ results r (getNewItems items) ∧
      it.answered (results r (getNewItems items)) = it.takeResult res := by
  have hdef : it.toDef ∈ (results r (getNewItems items)).map Prod.fst := by
    rw [results_fst]
    exact mem_getNewItems.2 ⟨it, hit, hnew, rfl⟩
  obtain ⟨q, hq, hqdef⟩ := List.mem_map.1 hdef
  cases hfind : (results r (getNewItems items)).find? fun p => p.1.hClient = it.hClient with
  | none =>
    rw [List.find?_eq_none] at hfind
    exact absurd (by rw [hqdef]; simp [COPCItem.toDef]) (hfind q hq)
  | some p =>
    have hp := List.mem_of_find?_eq_some hfind
    have hkey : p.1.hClient = it.hClient := by simpa using List.find?_some hfind
    -- the first result with this client handle is that of the item
    obtain ⟨it', hit', hnew', hdef'⟩ := mem_getNewItems.1 (mem_results hp)
    have heq : it' = it := by
      refine List.inj_on_of_nodup_map hnd hit' hit ?_
      rw [← hkey, ← hdef']
      rfl
    rw [heq] at hdef'
    refine ⟨p.2, by rw [hdef']; exact hp, ?_⟩
    rw [COPCItem.answered, hfind]
    rfl

/-- **What `AddItems` does**: nothing, when the server fails or no item is new, or the results
are put into the new items. -/
theorem addItems_cases (g : COPCGroup) (r : Replies) (hnd : (g.items.map COPCItem.hClient).Nodup) :
    (g.addItems r).1 = g ∧
        ((g.addItems r).2 = r.addItemsHr ∧ failed r.addItemsHr = true ∨
          (g.addItems r).2 = S_FALSE ∧ ∀ it ∈ g.items, it.status.new = false) ∨
      (g.addItems r).2 = r.addItemsHr ∧ failed r.addItemsHr = false ∧
        (g.addItems r).1.name = g.name ∧
        (g.addItems r).1.registered =
          g.registered ++ accepted (results r (getNewItems g.items)) ∧
        (g.addItems r).1.items.map COPCItem.core =
          g.items.map fun it => (it.answered (results r (getNewItems g.items))).core := by
  unfold COPCGroup.addItems
  simp only
  split_ifs with hdefs hhr
  · refine .inl ⟨rfl, .inr ⟨rfl, fun it hit => ?_⟩⟩
    by_contra hnew
    have hmem : it.toDef ∈ getNewItems g.items :=
      mem_getNewItems.2 ⟨it, hit, by simpa using hnew, rfl⟩
    rw [hdefs] at hmem
    cases hmem
  · refine .inr ⟨rfl, ?_, rfl, rfl, core_setNewItemsRes hnd (nodup_results r hnd) 0⟩
    simpa [failed, succeeded] using hhr
  · refine .inl ⟨rfl, .inl ⟨rfl, ?_⟩⟩
    simpa [failed, succeeded] using hhr

theorem name_addItems (g : COPCGroup) (r : Replies) : (g.addItems r).1.name = g.name := by
  unfold COPCGroup.addItems
  simp only
  split_ifs <;> rfl

theorem toDef_answered (res : List (ItemDef × ItemResult)) (it : COPCItem) :
    (it.answered res).toDef = it.toDef := by
  unfold COPCItem.answered
  cases res.find? fun p => p.1.hClient = it.hClient with
  | none => rfl
  | some p =>
    simp only [Option.elim_some, COPCItem.takeResult]
    split_ifs <;> rfl

theorem hClient_answered (res : List (ItemDef × ItemResult)) (it : COPCItem) :
    (it.answered res).hClient = it.hClient := by
  have hdef := congrArg ItemDef.hClient (toDef_answered res it)
  exact hdef

/-- Lists with the same client handles have the same length. -/
theorem length_of_hClient {items items' : List COPCItem}
    (h : items'.map COPCItem.hClient = items.map COPCItem.hClient) :
    items'.length = items.length := by
  have hlen := congrArg List.length h
  rwa [List.length_map, List.length_map] at hlen

/-- `AddItems` changes no client handle. -/
theorem hClient_addItems (g : COPCGroup) (r : Replies)
    (hnd : (g.items.map COPCItem.hClient).Nodup) :
    (g.addItems r).1.items.map COPCItem.hClient = g.items.map COPCItem.hClient := by
  rcases addItems_cases g r hnd with ⟨hsame, -⟩ | ⟨-, -, -, -, hcore⟩
  · rw [hsame]
  · have hmap := congrArg (List.map COPCItem.hClient) hcore
    rw [List.map_map, List.map_map] at hmap
    exact hmap.trans (List.map_congr_left fun it _ => hClient_answered _ it)

/-! ### Missing items -/

theorem getItem_eq_none {items : List COPCItem} {hClient : ℕ} :
    getItem items hClient = none ↔ hClient ∉ items.map COPCItem.hClient := by
  simp [getItem, List.findIdx?_eq_none_iff]

/-- What appending a missing item keeps, the first loop keeps. -/
theorem addMissing_induction {I : COPCGroup → Prop} {r : Replies} {params : List CEdpsParam}
    (h : ∀ g, ∀ p ∈ params, I g → p.dwParID ∉ g.items.map COPCItem.hClient →
      I (g.newItem r p.szItemId p.dwParID)) {g : COPCGroup} (hg : I g) :
    I (addMissing r g params) := by
  induction params generalizing g with
  | nil => exact hg
  | cons p params ih =>
    have hrest : ∀ g, ∀ q ∈ params, I g → q.dwParID ∉ g.items.map COPCItem.hClient →
        I (g.newItem r q.szItemId q.dwParID) := fun g q hq => h g q (List.mem_cons_of_mem _ hq)
    rw [addMissing, List.foldl_cons]
    refine ih hrest ?_
    cases hitem : getItem g.items p.dwParID with
    | some _ => exact hg
    | none => exact h g p List.mem_cons_self hg (getItem_eq_none.1 hitem)

/-- Only items are appended. -/
theorem addMissing_frame (r : Replies) (g : COPCGroup) (params : List CEdpsParam) :
    (addMissing r g params).name = g.name ∧ (addMissing r g params).registered = g.registered ∧
      g.items <+: (addMissing r g params).items := by
  refine addMissing_induction (I := fun g' => g'.name = g.name ∧ g'.registered = g.registered ∧
    g.items <+: g'.items) ?_ ⟨rfl, rfl, List.prefix_rfl⟩
  rintro g' p - ⟨hname, hreg, hpre⟩ -
  exact ⟨hname, hreg, hpre.trans (List.prefix_append _ _)⟩

theorem nodup_newItem {g : COPCGroup} (hnd : (g.items.map COPCItem.hClient).Nodup) (r : Replies)
    (szItemID : Bytes) {hClient : ℕ} (h : hClient ∉ g.items.map COPCItem.hClient) :
    ((g.newItem r szItemID hClient).items.map COPCItem.hClient).Nodup := by
  have hkeys : (g.newItem r szItemID hClient).items.map COPCItem.hClient =
      g.items.map COPCItem.hClient ++ [hClient] := List.map_append
  rw [hkeys]
  exact List.concat_eq_append ▸ hnd.concat h

theorem nodup_addMissing {g : COPCGroup} (hnd : (g.items.map COPCItem.hClient).Nodup)
    (r : Replies) (params : List CEdpsParam) :
    ((addMissing r g params).items.map COPCItem.hClient).Nodup :=
  addMissing_induction (I := fun g => (g.items.map COPCItem.hClient).Nodup)
    (fun _ p _ hnd h => nodup_newItem hnd r p.szItemId h) hnd

/-- Every parameter has its item afterwards. -/
theorem mem_addMissing (r : Replies) (g : COPCGroup) {params : List CEdpsParam} {p : CEdpsParam}
    (hp : p ∈ params) : p.dwParID ∈ (addMissing r g params).items.map COPCItem.hClient := by
  induction params generalizing g with
  | nil => cases hp
  | cons q params ih =>
    rw [addMissing, List.foldl_cons]
    rcases List.mem_cons.1 hp with rfl | hp
    · -- it is there after its own turn, and nothing takes it away
      refine ((addMissing_frame r _ params).2.2.map COPCItem.hClient).subset ?_
      cases hitem : getItem g.items p.dwParID with
      | some _ =>
        by_contra hnot
        rw [getItem_eq_none.2 hnot] at hitem
        cases hitem
      | none => simp [COPCGroup.newItem, addItem, COPCItem.init]
    · exact ih _ hp

/-- Without a missing item nothing is appended. -/
theorem addMissing_of_forall_mem (r : Replies) {g : COPCGroup} {params : List CEdpsParam}
    (h : ∀ p ∈ params, p.dwParID ∈ g.items.map COPCItem.hClient) : addMissing r g params = g := by
  induction params with
  | nil => rfl
  | cons p params ih =>
    obtain ⟨hp, hparams⟩ := List.forall_mem_cons.1 h
    rw [addMissing, List.foldl_cons]
    cases hitem : getItem g.items p.dwParID with
    | some _ => exact ih hparams
    | none => exact absurd hp (getItem_eq_none.1 hitem)

/-- What the server is told about the items of parameters that have none yet. -/
theorem toDef_addMissing (r : Replies) {g : COPCGroup} {params : List CEdpsParam}
    (hnd : (params.map CEdpsParam.dwParID).Nodup)
    (hfresh : ∀ p ∈ params, p.dwParID ∉ g.items.map COPCItem.hClient) :
    (addMissing r g params).items.map COPCItem.toDef =
      g.items.map COPCItem.toDef ++ params.map CEdpsParam.toDef := by
  induction params generalizing g with
  | nil => simp [addMissing]
  | cons p params ih =>
    rw [List.map_cons, List.nodup_cons] at hnd
    obtain ⟨hp, hparams⟩ := List.forall_mem_cons.1 hfresh
    have hkeys : (g.newItem r p.szItemId p.dwParID).items.map COPCItem.hClient =
        g.items.map COPCItem.hClient ++ [p.dwParID] := List.map_append
    -- the numbers of a request are distinct, so the others stay fresh
    have hfresh' : ∀ q ∈ params,
        q.dwParID ∉ (g.newItem r p.szItemId p.dwParID).items.map COPCItem.hClient := by
      intro q hq hmem
      rw [hkeys] at hmem
      rcases List.mem_append.1 hmem with hmem | hmem
      · exact hparams q hq hmem
      · exact hnd.1 (List.mem_singleton.1 hmem ▸ List.mem_map_of_mem hq)
    rw [addMissing, List.foldl_cons, getItem_eq_none.2 hp]
    simp only
    rw [← addMissing, ih hnd.2 hfresh', List.map_cons, List.append_cons]
    exact congrArg (· ++ _) List.map_append

/-- Nothing was appended exactly when every parameter had its item. -/
theorem addMissing_length (r : Replies) (g : COPCGroup) (params : List CEdpsParam) :
    (addMissing r g params).items.length - g.items.length = 0 ↔
      ∀ p ∈ params, p.dwParID ∈ g.items.map COPCItem.hClient := by
  constructor
  · intro hlen p hp
    have hpre := (addMissing_frame r g params).2.2
    have heq : g.items = (addMissing r g params).items :=
      hpre.eq_of_length_le (by omega)
    rw [heq]
    exact mem_addMissing r g hp
  · intro h
    rw [addMissing_of_forall_mem r h]
    omega

/-! ### Chosen items -/

/-- What the last loop does to an item. -/
def mark (bSet2Read : Bool) (params : List CEdpsParam) (it : COPCItem) : COPCItem :=
  params.foldl (fun it p =>
    if it.hClient = p.dwParID then
      if bSet2Read then it.itemForRead else it.itemForWrite p.val
    else it) it

theorem mark_frame (bSet2Read : Bool) (params : List CEdpsParam) (it : COPCItem) :
    (mark bSet2Read params it).registration = it.registration ∧
      (mark bSet2Read params it).status.new = it.status.new ∧
      (mark bSet2Read params it).status.invalid = it.status.invalid := by
  induction params generalizing it with
  | nil => exact ⟨rfl, rfl, rfl⟩
  | cons p params ih =>
    rw [mark, List.foldl_cons, ← mark]
    obtain ⟨h₁, h₂, h₃⟩ := ih (if it.hClient = p.dwParID then
      if bSet2Read then it.itemForRead else it.itemForWrite p.val else it)
    rw [h₁, h₂, h₃]
    split_ifs <;> exact ⟨rfl, rfl, rfl⟩

theorem hClient_mark (bSet2Read : Bool) (params : List CEdpsParam) (it : COPCItem) :
    (mark bSet2Read params it).hClient = it.hClient :=
  congrArg Registration.hClient (mark_frame bSet2Read params it).1

theorem hClient_map_mark (bSet2Read : Bool) (params : List CEdpsParam) (items : List COPCItem) :
    (items.map (mark bSet2Read params)).map COPCItem.hClient = items.map COPCItem.hClient := by
  rw [List.map_map]
  exact List.map_congr_left fun it _ => hClient_mark bSet2Read params it

/-- An item no parameter names is left alone. -/
theorem mark_of_notMem {bSet2Read : Bool} {params : List CEdpsParam} {it : COPCItem}
    (h : it.hClient ∉ params.map CEdpsParam.dwParID) : mark bSet2Read params it = it := by
  induction params generalizing it with
  | nil => rfl
  | cons p params ih =>
    simp only [List.map_cons, List.mem_cons, not_or] at h
    rw [mark, List.foldl_cons, if_neg h.1]
    exact ih h.2

/-- The bit that says that an item is chosen, for a read or for a write. -/
def COPCItem.flag (bRead : Bool) (it : COPCItem) : Bool :=
  if bRead then it.status.forRead else it.status.forWrite

/-- The items that are named are chosen, and the others stay as they are. -/
theorem flag_mark (bSet2Read : Bool) (params : List CEdpsParam) (it : COPCItem) :
    (mark bSet2Read params it).flag bSet2Read =
      (it.flag bSet2Read || decide (it.hClient ∈ params.map CEdpsParam.dwParID)) := by
  induction params generalizing it with
  | nil => simp [mark]
  | cons p params ih =>
    rw [mark, List.foldl_cons, ← mark, ih]
    by_cases h : it.hClient = p.dwParID
    · cases bSet2Read <;> simp [h, COPCItem.flag, COPCItem.itemForRead, COPCItem.itemForWrite]
    · simp [h]

/-- The last loop chooses item by item. -/
theorem initItems_eq (bSet2Read : Bool) {g : COPCGroup} (params : List CEdpsParam)
    (hnd : (g.items.map COPCItem.hClient).Nodup) :
    initItems bSet2Read g params = { g with items := g.items.map (mark bSet2Read params) } := by
  induction params generalizing g with
  | nil =>
    have hid : g.items.map (mark bSet2Read []) = g.items := List.map_id _
    rw [hid]
    rfl
  | cons p params ih =>
    have hmodify (f : COPCItem → COPCItem) : (getItem g.items p.dwParID).elim g (g.modifyItem f) =
        { g with items := Keyed.update COPCItem.hClient p.dwParID f g.items } := by
      rw [← Keyed.modify_findIdx? hnd, ← getItem]
      cases getItem g.items p.dwParID <;> rfl
    -- one parameter changes the only item with its client handle
    have hstep : (if bSet2Read then g.initReading p.dwParID else g.initWriting p.dwParID p.val) =
        { g with items := g.items.map (mark bSet2Read [p]) } := by
      cases bSet2Read with
      | true => exact hmodify COPCItem.itemForRead
      | false => exact hmodify (COPCItem.itemForWrite p.val)
    have hnd' : ((g.items.map (mark bSet2Read [p])).map COPCItem.hClient).Nodup :=
      hClient_map_mark bSet2Read [p] g.items ▸ hnd
    rw [initItems, List.foldl_cons, hstep, ← initItems, ih hnd', List.map_map]
    rfl

/-- The item at a position chosen, as the item of a request. -/
theorem modifyItem_eq (bSet2Read : Bool) {g : COPCGroup} {n : ℕ} {it : COPCItem} (szItemId : Bytes)
    (v : Variant) (hnd : (g.items.map COPCItem.hClient).Nodup) (h : g.items[n]? = some it) :
    g.modifyItem (if bSet2Read then COPCItem.itemForRead else COPCItem.itemForWrite v) n =
      { g with items := g.items.map (mark bSet2Read [⟨it.hClient, szItemId, v⟩]) } := by
  rw [COPCGroup.modifyItem, Keyed.modify_eq_update hnd h]
  cases bSet2Read <;> rfl

/-- **The items of a request.**  When all are there they are chosen; when some are missing these
are appended and registered, and unless that fails all are chosen. -/
theorem findOrAdd_cases {g : COPCGroup} (hnd : (g.items.map COPCItem.hClient).Nodup) (r : Replies)
    (params : List CEdpsParam) (bSet2Read : Bool) :
    ((∀ p ∈ params, p.dwParID ∈ g.items.map COPCItem.hClient) ∧
        findOrAddItemsToGroup r params bSet2Read g =
          ({ g with items := g.items.map (mark bSet2Read params) }, 0)) ∨
      (¬ (∀ p ∈ params, p.dwParID ∈ g.items.map COPCItem.hClient) ∧
        ∃ g₁ hr, (addMissing r g params).addItems r = (g₁, hr) ∧
          (failed hr = true ∧ findOrAddItemsToGroup r params bSet2Read g = (g₁, -2) ∨
            failed hr = false ∧ ∃ n : ℤ, n ≠ -2 ∧ findOrAddItemsToGroup r params bSet2Read g =
              ({ g₁ with items := g₁.items.map (mark bSet2Read params) }, n))) := by
  by_cases hall : ∀ p ∈ params, p.dwParID ∈ g.items.map COPCItem.hClient
  · refine .inl ⟨hall, ?_⟩
    have hlen := (addMissing_length r g params).2 hall
    rw [findOrAddItemsToGroup]
    simp only [if_pos hlen]
    rw [addMissing_of_forall_mem r hall, initItems_eq bSet2Read params hnd]
  · refine .inr ⟨hall, ((addMissing r g params).addItems r).1,
      ((addMissing r g params).addItems r).2, rfl, ?_⟩
    have hlen := mt (addMissing_length r g params).1 hall
    have hnd' := nodup_addMissing hnd r params
    have hkeys := hClient_addItems (addMissing r g params) r hnd'
    rw [findOrAddItemsToGroup]
    simp only [if_neg hlen]
    by_cases hfail : failed ((addMissing r g params).addItems r).2 = true
    · exact .inl ⟨hfail, if_pos hfail⟩
    · rw [if_neg hfail, initItems_eq bSet2Read params (hkeys ▸ hnd')]
      refine .inr ⟨by simpa using hfail, _, ?_, rfl⟩
      split_ifs <;> omega

/-! ### Reading and writing -/

/-- Choosing the chosen items changes nothing. -/
theorem getItems2Read_false (items : List COPCItem) :
    getItems2Read false items = (items, items.filter (chosen2Read false)) := by
  have hid : (items.map fun it => if chosen2Read false it then it.itemForRead else it) = items := by
    refine (List.map_congr_left fun it _ => ?_).trans (List.map_id _)
    split_ifs with h
    · have hread : it.status.forRead = true := by
        simp only [chosen2Read, Bool.false_or, Bool.and_eq_true] at h
        exact h.2
      -- a chosen item has the bit already
      obtain ⟨_, _, _, _, _, _, ⟨_, forRead, _, _⟩⟩ := it
      cases hread
      rfl
    · rfl
  rw [getItems2Read, hid]

/-- What `ReadItems` changes: some items take what was read. -/
theorem readItems_frame (g : COPCGroup) (r : Replies) :
    (g.readItems r).1.name = g.name ∧ (g.readItems r).1.registered = g.registered ∧
      (g.readItems r).2.1 = g.items.filter (chosen2Read false) ∧
      List.Forall₂ (fun it' it => it' = it ∨ ∃ hr st, it' = COPCItem.takeState hr it st)
        (g.readItems r).1.items g.items := by
  have hrefl : List.Forall₂ (fun it' it => it' = it ∨ ∃ hr st, it' = COPCItem.takeState hr it st)
      g.items g.items := List.forall₂_same.2 fun it _ => .inl rfl
  unfold COPCGroup.readItems
  rw [getItems2Read_false]
  simp only
  split_ifs with hasked
  · exact ⟨rfl, rfl, hasked.symm, hrefl⟩
  · cases (r.read (g.items.filter (chosen2Read false))).states with
    | none => exact ⟨rfl, rfl, rfl, hrefl⟩
    | some states =>
      exact ⟨rfl, rfl, rfl, Keyed.forall₂_merge (fun it => .inl rfl)
        (fun it st => .inr ⟨_, st, rfl⟩) _ _⟩

/-- What `WriteItems` changes: some items take the result of the write. -/
theorem writeItems_frame (g : COPCGroup) (r : Replies) :
    (g.writeItems r).1.name = g.name ∧ (g.writeItems r).1.registered = g.registered ∧
      (g.writeItems r).2.1 = g.items.filter chosen2Write ∧
      List.Forall₂ (fun it' it => it' = it ∨ ∃ hr res, it' = COPCItem.takeWritten hr it res)
        (g.writeItems r).1.items g.items := by
  have hrefl : List.Forall₂
      (fun it' it => it' = it ∨ ∃ hr res, it' = COPCItem.takeWritten hr it res)
      g.items g.items := List.forall₂_same.2 fun it _ => .inl rfl
  unfold COPCGroup.writeItems getItems2Write
  simp only
  split_ifs with hasked
  · exact ⟨rfl, rfl, hasked.symm, hrefl⟩
  · exact ⟨rfl, rfl, rfl, Keyed.forall₂_merge (fun it => .inl rfl)
      (fun it res => .inr ⟨_, res, rfl⟩) _ _⟩

theorem hClient_readItems (g : COPCGroup) (r : Replies) :
    (g.readItems r).1.items.map COPCItem.hClient = g.items.map COPCItem.hClient := by
  refine Keyed.map_eq_of_forall₂ ?_ (readItems_frame g r).2.2.2
  rintro it' it (rfl | ⟨hr, st, rfl⟩)
  · rfl
  · unfold COPCItem.takeState
    simp only
    split_ifs <;> rfl

theorem hClient_writeItems (g : COPCGroup) (r : Replies) :
    (g.writeItems r).1.items.map COPCItem.hClient = g.items.map COPCItem.hClient := by
  refine Keyed.map_eq_of_forall₂ ?_ (writeItems_frame g r).2.2.2
  rintro it' it (rfl | ⟨hr, res, rfl⟩) <;> rfl

end OpcS7

end Edps
