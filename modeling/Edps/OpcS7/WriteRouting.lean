import Edps.OpcS7.Registered

/-!
# Where a multiple write goes

The group of a multiple write is found by its name, the numbers of the parameters and a hash of
their item ids, and the items of the group by these numbers.  Two requests whose hashes agree
share a group, and then the second writes to the items of the first.

* `Routed` : a write goes, in the order of the records, to the items they name.
* `NameFits` : the name of the group fits its buffer.
* `Compatible` : two requests whose groups have one name list the same items.
* `WriteGroup` : the invariant of the groups of multiple writes.
* `routed_iff` : the writes of a run are routed exactly when its requests are named and
  compatible.
-/

namespace Edps

namespace OpcS7

/-- A server that accepts every group and every item and writes every value. -/
structure AcceptingReplies extends Replies where
  connect_ok : connect = true
  addGroup_ok : succeeded addGroup = true
  addItemsHr_ok : succeeded addItemsHr = true
  addItems_ok : ∀ defs n, succeeded (addItems defs n).hr = true
  write_ok : ∀ its, succeeded (write its).hr = true ∧ ∀ n, succeeded ((write its).errors n) = true

variable (crt : Crt)

/-- The client under multiple writes of well-formed requests. -/
def mwrites : Machine SapiState (List WriteRecord × AcceptingReplies) CallLog :=
  ⟨fun s c => (SapiCall.mwrite (c.1.flatMap WriteRecord.encode)).run crt c.2.toReplies s⟩

/-- The call writes record by record: to the handle registered for the item id of the record, the
value typed from the record. -/
def Routed (rs : List WriteRecord) (log : CallLog) : Prop :=
  List.Forall₂ (fun it r => it.registration ∈ log.registered ∧
    it.szItemID = r.itemId ∧ it.vDataValue = r.typed crt) log.write rs

/-- When the groups of two requests have one name, the requests list the same items. -/
def Compatible (rs rs' : List WriteRecord) : Prop :=
  getListName (writeParams crt rs) = getListName (writeParams crt rs') →
    rs.map WriteRecord.itemId = rs'.map WriteRecord.itemId

/-- The group under the name of the request, when there is one, holds the items of the request. -/
def SameAddresses (rs : List WriteRecord) (s : SapiState) : Prop :=
  ∀ g ∈ s.group? (getListName (writeParams crt rs)),
    g.items.map COPCItem.szItemID = rs.map WriteRecord.itemId

/-- The name of the group of a request, when it has records, fits the buffer of the name. -/
def NameFits (rs : List WriteRecord) : Prop := (szGroupName (writeParams crt rs)).isSome

/-- A group of multiple writes, between two calls. -/
structure WriteGroup (g : COPCGroup) : Prop where
  inv : GroupInv g
  commas : g.name.count 44 = g.items.length
  keys : g.items.map COPCItem.hClient = List.range' 1 g.items.length
  idle : ∀ it ∈ g.items, it.status.new = false ∧ it.status.invalid = false ∧
    it.status.forWrite = false

/-! ### The parameters -/

variable {crt}

theorem length_writeParams (rs : List WriteRecord) : (writeParams crt rs).length = rs.length := by
  simp [writeParams]

theorem dwParID_writeParams (rs : List WriteRecord) :
    (writeParams crt rs).map CEdpsParam.dwParID = List.range' 1 rs.length := by
  have hsnd : rs.zipIdx.map Prod.snd = List.range' 0 rs.length := List.zipIdx_map_snd 0 rs
  have hsucc : (List.range' 0 rs.length).map (fun n => 1 + n) = List.range' 1 rs.length :=
    List.map_add_range' 0 rs.length 1
  rw [← hsucc, ← hsnd, writeParams, List.map_map, List.map_map]
  refine List.map_congr_left fun r _ => ?_
  simp [WriteRecord.param, Nat.add_comm]

theorem szItemId_writeParams (rs : List WriteRecord) :
    (writeParams crt rs).map CEdpsParam.szItemId = rs.map WriteRecord.itemId := by
  have hfst := congrArg (List.map WriteRecord.itemId) (List.zipIdx_map_fst 0 rs)
  rw [writeParams, List.map_map]
  rwa [List.map_map] at hfst

theorem getElem_writeParams {rs : List WriteRecord} {n : ℕ} (h : n < rs.length) :
    rs[n].param crt (n + 1) ∈ writeParams crt rs := by
  refine List.mem_map.2 ⟨(rs[n], n), ?_, rfl⟩
  exact List.mem_zipIdx_iff_getElem?.2 (by simp [h])

/-! ### A write to the group -/

/-- The value an item takes: that of the only parameter that names it. -/
theorem vDataValue_mark {params : List CEdpsParam} (hnd : (params.map CEdpsParam.dwParID).Nodup)
    {p : CEdpsParam} (hp : p ∈ params) {it : COPCItem} (h : it.hClient = p.dwParID) :
    (mark false params it).vDataValue = p.val := by
  induction params generalizing it with
  | nil => cases hp
  | cons q params ih =>
    rw [List.map_cons, List.nodup_cons] at hnd
    rw [mark, List.foldl_cons, ← mark]
    rcases List.mem_cons.1 hp with rfl | hp
    · -- its own parameter; no later one names the item
      rw [if_pos h, if_neg Bool.false_ne_true]
      have hrest : (it.itemForWrite p.val).hClient ∉ params.map CEdpsParam.dwParID := by
        intro hmem
        exact hnd.1 (h ▸ hmem)
      rw [mark_of_notMem hrest]
      rfl
    · have hne : it.hClient ≠ q.dwParID := by
        intro he
        exact hnd.1 (he ▸ h ▸ List.mem_map_of_mem hp)
      rw [if_neg hne]
      exact ih hnd.2 hp h

/-- The values of a group whose items are those of the request by number. -/
theorem WriteGroup.values {g : COPCGroup} (hg : WriteGroup g) {rs : List WriteRecord}
    (hlen : g.items.length = rs.length) :
    (g.items.map (mark false (writeParams crt rs))).map COPCItem.vDataValue =
      rs.map fun r => r.typed crt := by
  have hnd : ((writeParams crt rs).map CEdpsParam.dwParID).Nodup := by
    rw [dwParID_writeParams]
    exact List.nodup_range'
  refine List.ext_getElem (by simpa using hlen) fun n hn hn' => ?_
  simp only [List.length_map] at hn hn'
  have hkey : (g.items[n]).hClient = n + 1 := by
    have h : (g.items.map COPCItem.hClient)[n]? = (List.range' 1 g.items.length)[n]? := by
      rw [hg.keys]
    simpa [hn, Nat.add_comm] using h
  rw [List.getElem_map, List.getElem_map, List.getElem_map]
  exact vDataValue_mark hnd (getElem_writeParams hn') hkey

/-- Every item of the group is named by the request, valid, and hence written. -/
theorem WriteGroup.chosen {g : COPCGroup} (hg : WriteGroup g) {rs : List WriteRecord}
    (hlen : g.items.length = rs.length) :
    (g.items.map (mark false (writeParams crt rs))).filter chosen2Write =
      g.items.map (mark false (writeParams crt rs)) := by
  refine List.filter_eq_self.2 fun it hit => ?_
  obtain ⟨it, hin, rfl⟩ := List.mem_map.1 hit
  have hmem : it.hClient ∈ (writeParams crt rs).map CEdpsParam.dwParID := by
    rw [dwParID_writeParams, ← hlen, ← hg.keys]
    exact List.mem_map_of_mem hin
  have hflag := flag_mark false (writeParams crt rs) it
  obtain ⟨-, -, hinv⟩ := mark_frame false (writeParams crt rs) it
  simp only [hmem, decide_true, Bool.or_true] at hflag
  rw [← chosen_write, OpcS7.chosen, hflag, COPCItem.valid, hinv, (hg.idle it hin).2.1]
  rfl

theorem szItemID_map_mark (params : List CEdpsParam) (items : List COPCItem) :
    (items.map (mark false params)).map COPCItem.szItemID = items.map COPCItem.szItemID := by
  rw [List.map_map]
  refine List.map_congr_left fun it _ => ?_
  exact congrArg Registration.szItemID (mark_frame false params it).1

/-- When all items are written, the results reach all of them. -/
theorem writeItems_all {g : COPCGroup} (hall : g.items.filter chosen2Write = g.items)
    (r : Replies) :
    ∀ it' ∈ (g.writeItems r).1.items, ∃ it ∈ g.items, ∃ hr res,
      it' = COPCItem.takeWritten hr it res := by
  unfold COPCGroup.writeItems getItems2Write
  rw [hall]
  simp only
  split_ifs with hnil
  · rw [hnil]
    intro it' hit'
    cases hit'
  · set res := g.items.zipIdx.map fun it => (it.1.hServer, (r.write g.items).errors it.2) with hres
    -- the results come in the order of the items
    have hkeys : res.map Prod.fst = g.items.map COPCItem.hServer := by
      have hfst := congrArg (List.map COPCItem.hServer) (List.zipIdx_map_fst 0 g.items)
      rw [List.map_map] at hfst
      rw [hres, List.map_map]
      exact hfst
    rw [setWriteResult, Keyed.merge_eq_zipWith hkeys]
    intro it' hit'
    obtain ⟨i, hi, rfl⟩ := List.mem_iff_getElem.1 hit'
    rw [List.length_zipWith] at hi
    rw [List.getElem_zipWith]
    exact ⟨_, List.getElem_mem (hi.trans_le (Nat.min_le_left _ _)), _, _, rfl⟩

/-- A write of all items of the group is routed when these are the items of the request. -/
theorem WriteGroup.routed {g : COPCGroup} (hg : WriteGroup g) {rs : List WriteRecord}
    (hlen : g.items.length = rs.length) {log : CallLog} (hregistered : log.Registered)
    (hwrite : log.write = g.items.map (mark false (writeParams crt rs))) :
    Routed crt rs log ↔ g.items.map COPCItem.szItemID = rs.map WriteRecord.itemId := by
  have hmem : ∀ it ∈ g.items.map (mark false (writeParams crt rs)),
      it.registration ∈ log.registered := by
    intro it hit
    exact hregistered it (List.mem_append_right _ (hwrite ▸ hit))
  rw [Routed, hwrite, ← szItemID_map_mark (writeParams crt rs), List.forall₂_and_left]
  constructor
  · intro h
    exact Keyed.forall₂_iff_map_eq.1 (h.2.imp fun _ _ h => h.1)
  · intro h
    exact ⟨hmem, Keyed.forall₂_and (Keyed.forall₂_iff_map_eq.2 h)
      (Keyed.forall₂_iff_map_eq.2 (hg.values hlen))⟩

/-- **A write to the group**: what is written, and the group afterwards. -/
theorem WriteGroup.write {g₁ : COPCGroup} (hg₁ : WriteGroup g₁) {rs : List WriteRecord}
    (hlen : g₁.items.length = rs.length) {r : Replies} {g : COPCGroup} {n : ℤ} (hn : n ≠ -2)
    (hfind : findOrAddItemsToGroup r (writeParams crt rs) false g =
      ({ g₁ with items := g₁.items.map (mark false (writeParams crt rs)) }, n)) :
    WriteGroup (mwriteCall r (writeParams crt rs) g).1 ∧
      (mwriteCall r (writeParams crt rs) g).1.name = g₁.name ∧
      (mwriteCall r (writeParams crt rs) g).1.items.map COPCItem.szItemID =
        g₁.items.map COPCItem.szItemID ∧
      (Routed crt rs (mwriteCall r (writeParams crt rs) g).2 ↔
        g₁.items.map COPCItem.szItemID = rs.map WriteRecord.itemId) := by
  set ps := writeParams crt rs with hps
  set g₂ : COPCGroup := { g₁ with items := g₁.items.map (mark false ps) } with hg₂
  obtain ⟨hgroup, ret, hlog⟩ := mwriteCall_ok hfind hn
  have hno : NoNew ps g₁ := fun it hit _ => (hg₁.idle it hit).1
  have hwell : GoesWell True g₁ (mwriteCall r ps g) :=
    .write hg₁.inv rfl (iff_of_true trivial hno) r hgroup hlog
  have hasked : g₂.items.filter chosen2Write = g₂.items := hg₁.chosen hlen
  have hkeys : (mwriteCall r ps g).1.items.map COPCItem.hClient =
      g₁.items.map COPCItem.hClient := by
    rw [hgroup, hClient_writeItems]
    exact hClient_map_mark false ps g₁.items
  have hlength := length_of_hClient hkeys
  refine ⟨⟨hwell.inv trivial, ?_, ?_, ?_⟩, hwell.name, ?_, ?_⟩
  · rw [hwell.name, hlength, hg₁.commas]
  · rw [hkeys, hlength, hg₁.keys]
  · rw [hgroup]
    intro it' hit'
    obtain ⟨it₂, hit₂, hr, res, rfl⟩ := writeItems_all hasked r it' hit'
    obtain ⟨it, hit, rfl⟩ := List.mem_map.1 hit₂
    obtain ⟨-, hnew, hinv⟩ := mark_frame false ps it
    exact ⟨hnew.trans (hg₁.idle it hit).1, hinv.trans (hg₁.idle it hit).2.1, rfl⟩
  · rw [hgroup, ← szItemID_map_mark ps g₁.items]
    refine Keyed.map_eq_of_forall₂ ?_ (writeItems_frame g₂ r).2.2.2
    rintro it' it (rfl | ⟨hr, res, rfl⟩) <;> rfl
  · refine hg₁.routed hlen (hwell.registered.2 trivial) ?_
    rw [hlog]
    exact hasked

/-! ### The group of a request -/

theorem writeParams_ne_nil (crt : Crt) {rs : List WriteRecord} (hne : rs ≠ []) :
    writeParams crt rs ≠ [] := by
  rw [← List.length_pos_iff, length_writeParams]
  exact List.length_pos_iff.2 hne

/-- **A group that is found** has as many items as the request, and all under its numbers. -/
theorem WriteGroup.find {g : COPCGroup} (hg : WriteGroup g) {rs : List WriteRecord} (hne : rs ≠ [])
    (hname : g.name = getListName (writeParams crt rs)) (r : Replies) :
    g.items.length = rs.length ∧ findOrAddItemsToGroup r (writeParams crt rs) false g =
      ({ g with items := g.items.map (mark false (writeParams crt rs)) }, 0) := by
  have hlen : g.items.length = rs.length := by
    rw [← hg.commas, hname, count_getListName (writeParams_ne_nil crt hne), length_writeParams]
  refine ⟨hlen, ?_⟩
  -- the commas of the name count the items, whatever its hash
  have hall : ∀ p ∈ writeParams crt rs, p.dwParID ∈ g.items.map COPCItem.hClient := by
    intro p hp
    have hids : (writeParams crt rs).map CEdpsParam.dwParID = List.range' 1 rs.length :=
      dwParID_writeParams rs
    rw [hg.keys, hlen, ← hids]
    exact List.mem_map_of_mem hp
  rcases findOrAdd_cases hg.inv.ok.nodup r (writeParams crt rs) false with ⟨-, heq⟩ | ⟨hnot, -⟩
  · exact heq
  · exact absurd hall hnot

/-- The registration of new items by an accepting server. -/
theorem addItems_accepted {g : COPCGroup} (hg : GroupOK g) (hne : g.items ≠ [])
    (hfresh : ∀ it ∈ g.items, it.status = ⟨true, false, false, false⟩) (r : AcceptingReplies) :
    failed (g.addItems r.toReplies).2 = false ∧
      (g.addItems r.toReplies).1.items.map COPCItem.toDef = g.items.map COPCItem.toDef ∧
      ∀ it ∈ (g.addItems r.toReplies).1.items, it.status = ⟨false, false, false, false⟩ := by
  have hhr : failed r.addItemsHr = false := by
    have h := r.addItemsHr_ok
    simpa [failed, succeeded] using h
  rcases addItems_cases g r.toReplies hg.nodup with ⟨-, ⟨-, hfail⟩ | ⟨-, hold⟩⟩ |
    ⟨hres, -, -, -, hcore⟩
  · rw [hhr] at hfail
    cases hfail
  · -- the items are new, so there is something to register
    obtain ⟨it, items, hit⟩ := List.exists_cons_of_ne_nil hne
    have hmem : it ∈ g.items := hit ▸ List.mem_cons_self
    have hnew := hold it hmem
    rw [hfresh it hmem] at hnew
    cases hnew
  · have hitems := Keyed.forall₂_iff_map_eq.2 hcore
    refine ⟨hres ▸ hhr, Keyed.forall₂_iff_map_eq.1 (hitems.imp fun it' it h => ?_),
      fun it' hit' => ?_⟩
    · have hdef := congrArg COPCItem.toDef h
      exact hdef.trans (toDef_answered _ it)
    · obtain ⟨it, hit, h⟩ := Keyed.exists_of_forall₂ hitems hit'
      have hstatus := hfresh it hit
      obtain ⟨res, hmem, hans⟩ := answered_of_new r.toReplies hg.nodup hit (by rw [hstatus])
      have hok : succeeded res.hr = true := by
        obtain ⟨d, -, hd⟩ := List.mem_map.1 hmem
        obtain rfl : r.addItems (getNewItems g.items) d.2 = res := (Prod.mk.inj hd).2
        exact r.addItems_ok _ _
      rw [COPCItem.status_of_core h, hans, COPCItem.takeResult, if_pos hok]
      simp only
      rw [hstatus]

/-- Items that were just appended. -/
theorem status_addMissing (r : Replies) (szName : Bytes) (params : List CEdpsParam) :
    ∀ it ∈ (addMissing r ⟨szName, [], []⟩ params).items,
      it.status = ⟨true, false, false, false⟩ := by
  refine addMissing_induction (I := fun g => ∀ it ∈ g.items,
    it.status = ⟨true, false, false, false⟩) ?_ fun it hit => by cases hit
  intro g p _ hI _ it hit
  rcases List.mem_append.1 hit with hit | hit
  · exact hI it hit
  · rw [List.mem_singleton.1 hit]
    rfl

/-- A group with the registered items of a request. -/
theorem WriteGroup.of_toDef {g : COPCGroup} (hok : GroupOK g) {rs : List WriteRecord}
    (hne : rs ≠ []) (hname : g.name = getListName (writeParams crt rs))
    (hdefs : g.items.map COPCItem.toDef = (writeParams crt rs).map CEdpsParam.toDef)
    (hidle : ∀ it ∈ g.items, it.status = ⟨false, false, false, false⟩) :
    WriteGroup g ∧ g.items.map COPCItem.szItemID = rs.map WriteRecord.itemId := by
  have hps_ne : writeParams crt rs ≠ [] := writeParams_ne_nil crt hne
  have hids : g.items.map COPCItem.szItemID = rs.map WriteRecord.itemId := by
    have h := congrArg (List.map ItemDef.szItemID) hdefs
    rw [List.map_map, List.map_map] at h
    exact h.trans (szItemId_writeParams rs)
  have hkeys : g.items.map COPCItem.hClient = List.range' 1 rs.length := by
    have h := congrArg (List.map ItemDef.hClient) hdefs
    rw [List.map_map, List.map_map] at h
    exact h.trans (dwParID_writeParams rs)
  have hlen : g.items.length = rs.length := by
    have h := congrArg List.length hids
    rwa [List.length_map, List.length_map] at h
  have hcount : g.name.count 44 = g.items.length := by
    rw [hname, count_getListName hps_ne, length_writeParams, hlen]
  refine ⟨⟨⟨hok, fun hno => ?_⟩, hcount, hlen ▸ hkeys, fun it hit => ?_⟩, hids⟩
  · exact absurd (hname ▸ comma_mem_getListName hps_ne) hno
  · rw [hidle it hit]
    exact ⟨rfl, rfl, rfl⟩

/-- **A group that is created** gets the items of the request. -/
theorem WriteGroup.create (crt : Crt) {rs : List WriteRecord} (hne : rs ≠ [])
    (r : AcceptingReplies) :
    ∃ g₁ n, n ≠ -2 ∧ findOrAddItemsToGroup r.toReplies (writeParams crt rs) false
        ⟨getListName (writeParams crt rs), [], []⟩ =
          ({ g₁ with items := g₁.items.map (mark false (writeParams crt rs)) }, n) ∧
      WriteGroup g₁ ∧ g₁.name = getListName (writeParams crt rs) ∧
      g₁.items.map COPCItem.szItemID = rs.map WriteRecord.itemId := by
  set ps := writeParams crt rs with hps
  set g : COPCGroup := ⟨getListName ps, [], []⟩ with hg
  obtain ⟨p, hp⟩ := List.exists_mem_of_ne_nil ps (writeParams_ne_nil crt hne)
  have hempty := groupInv_empty (getListName ps)
  have hok : GroupOK (addMissing r.toReplies g ps) := hempty.ok.addMissing r.toReplies ps
  have hdefs : (addMissing r.toReplies g ps).items.map COPCItem.toDef =
      ps.map CEdpsParam.toDef := by
    refine toDef_addMissing r.toReplies ?_ fun p _ hmem => by cases hmem
    rw [dwParID_writeParams]
    exact List.nodup_range'
  have hne_items : (addMissing r.toReplies g ps).items ≠ [] := by
    have hmem := mem_addMissing r.toReplies g hp
    intro hnil
    rw [hnil] at hmem
    cases hmem
  obtain ⟨hhr, hdefs₁, hidle⟩ :=
    addItems_accepted hok hne_items (status_addMissing r.toReplies (getListName ps) ps) r
  rcases findOrAdd_cases hempty.ok.nodup r.toReplies ps false with
    ⟨hall, -⟩ | ⟨-, g₁, hr, hadd, ⟨hfail, -⟩ | ⟨-, n, hn, heq⟩⟩
  · cases hall p hp
  · rw [hadd, hfail] at hhr
    cases hhr
  · have hname : g₁.name = getListName ps := by
      have h := name_addItems (addMissing r.toReplies g ps) r.toReplies
      rw [hadd] at h
      exact h.trans (addMissing_frame r.toReplies g ps).1
    have hok₁ := (hok.addItems r.toReplies).1
    rw [hadd] at hdefs₁ hidle hok₁
    obtain ⟨hgroup, hids⟩ := WriteGroup.of_toDef hok₁ hne hname (hdefs₁.trans hdefs) hidle
    exact ⟨g₁, n, hn, heq, hgroup, hname, hids⟩

/-! ### Runs -/

/-- A request without records does nothing. -/
theorem mwrites_nil (s : SapiState) (r : AcceptingReplies) :
    (mwrites crt).next s ([], r) = (s, .done (-1)) := rfl

/-- Such a request finds no group, and is compatible with every other. -/
theorem sameAddresses_nil (crt : Crt) {s : SapiState} (hs : s.All WriteGroup) :
    SameAddresses crt [] s ∧ ∀ rs, Compatible crt [] rs := by
  constructor
  · -- the name without commas is the name of no group
    intro g hg
    obtain ⟨hmem, hname⟩ := SapiState.group?_mem hg
    have hitems : g.items = [] := by
      rw [← List.length_eq_zero_iff, ← (hs.groups g hmem).commas, hname]
      rfl
    rw [hitems]
    rfl
  · intro rs hname
    by_cases hne : rs = []
    · rw [hne]
    · have hcomma := comma_mem_getListName (writeParams_ne_nil crt hne)
      rw [← hname] at hcomma
      cases hcomma

/-- The name of a request, if it has one. -/
theorem NameFits.szGroupName {rs : List WriteRecord} (h : NameFits crt rs) :
    szGroupName (writeParams crt rs) = some (getListName (writeParams crt rs)) := by
  obtain ⟨szName, hname⟩ := Option.isSome_iff_exists.1 h
  rw [hname, eq_getListName hname]

/-- A request with records works on its group. -/
theorem mwrites_next {rs : List WriteRecord} (hne : rs ≠ []) (hnamed : NameFits crt rs)
    (s : SapiState) (r : AcceptingReplies) : (mwrites crt).next s (rs, r) =
      getOPCGroup r.toReplies (getListName (writeParams crt rs)) (-2)
        (mwriteCall r.toReplies (writeParams crt rs)) s := by
  simp only [mwrites, SapiCall.run, multiCall, parseRequest_write,
    if_neg (writeParams_ne_nil crt hne), hnamed.szGroupName]

/-- A request whose group has no name is not written. -/
theorem mwrites_undefined {rs : List WriteRecord} (hne : rs ≠ []) (hnamed : ¬ NameFits crt rs)
    (s : SapiState) (r : AcceptingReplies) : (mwrites crt).next s (rs, r) = (s, .undefined) := by
  have hnone : szGroupName (writeParams crt rs) = none := Option.not_isSome_iff_eq_none.1 hnamed
  simp only [mwrites, SapiCall.run, multiCall, parseRequest_write,
    if_neg (writeParams_ne_nil crt hne), hnone]

/-- **The group of a call**, found or created. -/
theorem mwriteCall_step {s : SapiState} (hs : s.All WriteGroup) {rs : List WriteRecord}
    (hne : rs ≠ []) (r : AcceptingReplies) {g : COPCGroup}
    (hg : g = (s.group? (getListName (writeParams crt rs))).getD
      ⟨getListName (writeParams crt rs), [], []⟩) {res : COPCGroup × CallLog}
    (hres : res = mwriteCall r.toReplies (writeParams crt rs) g) :
    WriteGroup res.1 ∧ res.1.name = getListName (writeParams crt rs) ∧
      (Routed crt rs res.2 ↔ SameAddresses crt rs s) ∧
      (SameAddresses crt rs s → res.1.items.map COPCItem.szItemID = rs.map WriteRecord.itemId) := by
  subst hres
  unfold SameAddresses
  cases hfound : s.group? (getListName (writeParams crt rs)) with
  | some g₀ =>
    -- a group from before: the items it has are the ones written
    obtain rfl : g = g₀ := by rw [hg, hfound, Option.getD_some]
    obtain ⟨hmem, hname⟩ := SapiState.group?_mem hfound
    have hgroup := hs.groups g hmem
    obtain ⟨hlen, hfind⟩ := hgroup.find hne hname r.toReplies
    obtain ⟨hwrite, hname', hids, hiff⟩ := hgroup.write hlen (by decide) hfind
    refine ⟨hwrite, hname'.trans hname, ?_, ?_⟩
    · rw [hiff]
      simp
    · intro hsame
      rw [hids]
      exact hsame g rfl
  | none =>
    obtain rfl : g = ⟨getListName (writeParams crt rs), [], []⟩ := by
      rw [hg, hfound, Option.getD_none]
    obtain ⟨g₁, n, hn, hfind, hgroup, hname, haddr⟩ := WriteGroup.create crt hne r
    have hlen : g₁.items.length = rs.length := by
      rw [← List.length_map (f := COPCItem.szItemID), haddr, List.length_map]
    obtain ⟨hwrite, hname', hids, hiff⟩ := hgroup.write hlen hn hfind
    exact ⟨hwrite, hname'.trans hname, iff_of_true (hiff.2 haddr) (by simp),
      fun _ => hids.trans haddr⟩

/-- **One call.**  Whatever group it finds, the groups stay in order; its write is routed exactly
when its group has a name and is the right one, and then a later request finds the right group
exactly when it did before and is compatible. -/
theorem mwrites_step {s : SapiState} (hs : s.All WriteGroup) (rs : List WriteRecord)
    (r : AcceptingReplies) :
    (Routed crt rs ((mwrites crt).next s (rs, r)).2 ↔ NameFits crt rs ∧ SameAddresses crt rs s) ∧
      ((mwrites crt).next s (rs, r)).1.All WriteGroup ∧
      (NameFits crt rs → SameAddresses crt rs s →
        ∀ rs', SameAddresses crt rs' ((mwrites crt).next s (rs, r)).1 ↔
          SameAddresses crt rs' s ∧ Compatible crt rs rs') := by
  by_cases hne : rs = []
  · subst hne
    rw [mwrites_nil]
    obtain ⟨hsame, hcompatible⟩ := sameAddresses_nil crt hs
    refine ⟨iff_of_true .nil ⟨rfl, hsame⟩, hs, fun _ _ rs' => ?_⟩
    exact (and_iff_left (hcompatible rs')).symm
  by_cases hnamed : NameFits crt rs
  · rw [mwrites_next hne hnamed]
    set name := getListName (writeParams crt rs) with hn
    set g := (s.group? name).getD ⟨name, [], []⟩ with hg
    obtain ⟨hgroup, hname, hiff, haddr⟩ := mwriteCall_step hs hne r hg rfl
    have hadd : failed r.addGroup = false := by
      have h := r.addGroup_ok
      simpa [failed, succeeded] using h
    refine ⟨?_, ?_, fun _ hsame rs' => ?_⟩
    · rw [getOPCGroup_log r.connect_ok hadd, and_iff_right hnamed]
      exact hiff
    · refine hs.getOPCGroup (fun g₀ hg₀ => ?_) fun hnone => ?_
      · have he : g = g₀ := by rw [hg, hg₀, Option.getD_some]
        exact he ▸ ⟨hname, hgroup⟩
      · have he : g = ⟨name, [], []⟩ := by rw [hg, hnone, Option.getD_none]
        exact he ▸ ⟨hname, hgroup⟩
    · have haddr := haddr hsame
      rw [SameAddresses, group?_getOPCGroup r.connect_ok hadd name (-2) hname, Compatible, ← hn]
      by_cases hk : getListName (writeParams crt rs') = name
      · rw [if_pos hk, hk]
        constructor
        · intro h
          have hids : rs.map WriteRecord.itemId = rs'.map WriteRecord.itemId :=
            haddr.symm.trans (h _ rfl)
          refine ⟨fun g' hg' => ?_, fun _ => hids⟩
          rw [hk] at hg'
          exact (hsame g' hg').trans hids
        · rintro ⟨-, h⟩ g' hg'
          cases hg'
          exact haddr.trans (h rfl)
      · -- the call changes the group of its own name only
        rw [if_neg hk]
        exact (and_iff_left fun h => absurd h.symm hk).symm
  · rw [mwrites_undefined hne hnamed]
    refine ⟨iff_of_false (fun hrouted => ?_) (fun h => hnamed h.1), hs, fun h => absurd h hnamed⟩
    -- its records are not written
    have hlen : ([] : List COPCItem).length = rs.length := List.Forall₂.length_eq hrouted
    exact hne (List.length_eq_zero_iff.1 hlen.symm)

/-- A run from groups in order: every request has a name and finds the right group there, and the
requests are compatible with each other. -/
theorem routed_from {s : SapiState} (hs : s.All WriteGroup)
    (calls : List (List WriteRecord × AcceptingReplies)) :
    (mwrites crt).EachStep (fun s c => Routed crt c.1 ((mwrites crt).next s c).2) s calls ↔
      (∀ c ∈ calls, NameFits crt c.1 ∧ SameAddresses crt c.1 s) ∧
        calls.Pairwise fun c c' => Compatible crt c.1 c'.1 := by
  induction calls generalizing s with
  | nil => simp
  | cons c calls ih =>
    obtain ⟨hiff, hnext, hlater⟩ := mwrites_step hs c.1 c.2
    rw [Machine.eachStep_cons, hiff, ih hnext, List.forall_mem_cons, List.pairwise_cons]
    constructor
    · rintro ⟨⟨hnamed, hsame⟩, hall, hpairs⟩
      have hboth := fun c' hc' => (hlater hnamed hsame c'.1).1 (hall c' hc').2
      exact ⟨⟨⟨hnamed, hsame⟩, fun c' hc' => ⟨(hall c' hc').1, (hboth c' hc').1⟩⟩,
        fun c' hc' => (hboth c' hc').2, hpairs⟩
    · rintro ⟨⟨⟨hnamed, hsame⟩, hall⟩, hcompatible, hpairs⟩
      exact ⟨⟨hnamed, hsame⟩, fun c' hc' => ⟨(hall c' hc').1,
        (hlater hnamed hsame c'.1).2 ⟨(hall c' hc').2, hcompatible c' hc'⟩⟩, hpairs⟩

/-- **Routing.**  In a run of multiple writes, every write goes to the items its request names
exactly when the name of every group fits its buffer and any two requests whose groups have one
name list the same items. -/
theorem routed_iff (crt : Crt) (calls : List (List WriteRecord × AcceptingReplies)) :
    (mwrites crt).EachStep (fun s c => Routed crt c.1 ((mwrites crt).next s c).2) .init calls ↔
      (∀ c ∈ calls, NameFits crt c.1) ∧ calls.Pairwise fun c c' => Compatible crt c.1 c'.1 := by
  rw [routed_from (SapiState.all_init WriteGroup)]
  refine and_congr_left fun _ => forall₂_congr fun c _ => and_iff_left fun g hg => ?_
  cases hg

/-- A write of 5 to a word of `DB10`. -/
def exampleWrite (item : String)
    (h : (∀ c ∈ ascii item, c ≠ 0) ∧ (ascii item).length < 1000) : WriteRecord where
  cp := exampleCP
  conn := exampleConn
  item := exampleField item h
  type := exampleType
  value := exampleField "5" (by decide +kernel)
  length := exampleField "1" (by decide +kernel)

/-- A server that accepts everything. -/
def acceptingReplies : AcceptingReplies where
  toReplies := exampleReplies S_OK
  connect_ok := rfl
  addGroup_ok := rfl
  addItemsHr_ok := rfl
  addItems_ok _ _ := rfl
  write_ok _ := ⟨rfl, fun _ => rfl⟩

/-- After a write to `DB10,W0`, a write to `DB10,W1` finds its group and goes to `DB10,W0`. -/
theorem not_routed_of_same_name :
    ¬ (mwrites exampleCrt).EachStep
      (fun s c => Routed exampleCrt c.1 ((mwrites exampleCrt).next s c).2) .init
      [([exampleWrite "DB10,W0" (by decide +kernel)], acceptingReplies),
        ([exampleWrite "DB10,W1" (by decide +kernel)], acceptingReplies)] := by
  intro h
  have hids := Keyed.forall₂_iff_map_eq.1 (h.2.1.imp fun _ _ h => h.2.1)
  exact absurd hids (by decide +kernel)

end OpcS7

end Edps
