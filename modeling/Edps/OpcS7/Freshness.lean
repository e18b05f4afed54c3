import Edps.OpcS7.Registered

/-!
# A multiple read lists what it has read

Between two multiple reads the items of a group keep the values of the last one.  A read asks for
the valid items it names, and the results are merged into the list in one pass, on the assumption
that the server keeps their order.

* `ReadGroup` : the invariant of the groups of multiple reads.
* `Fresh` : every text an answer lists is what the server returned in this call for the item.
* `readItems_eq` : the single pass gives every item the state with its client handle.
* `mreads_fresh` : the answers of a run are fresh.
-/

namespace Edps

namespace OpcS7

/-- A server that does not fail as a whole, and that returns the states in the order of the
handles, each with the client handle of its item. -/
structure OrderlyReplies extends Replies where
  addItemsHr_ok : failed addItemsHr = false
  read_ok : ∀ its, failed (read its).hr = false
  states : List COPCItem → ℕ → ItemState
  read_states : ∀ its, (read its).states = some (states its)
  states_hClient : ∀ its n it, its[n]? = some it → (states its n).hClient = it.hClient

variable (crt : Crt)

/-- The client under multiple reads of well-formed requests. -/
def mreads : Machine SapiState (List ReadRecord × OrderlyReplies) CallLog :=
  ⟨fun s c => (SapiCall.mread (c.1.flatMap ReadRecord.encode)).run crt c.2.toReplies s⟩

/-- What the server returns for the item of a record, when its handle is among those passed. -/
def fetched (r : OrderlyReplies) (asked : List COPCItem) (rec : ReadRecord) :
    Option (ItemState × HRESULT) :=
  (asked.findIdx? fun it => it.hClient = rec.parID ∧ it.szItemID = rec.itemId).map fun n =>
    (r.states asked n, (r.read asked).errors n)

/-- The text for a result: the rendering of a value that was read with good quality. -/
def listed : Option (ItemState × HRESULT) → Option Bytes
  | some (st, hr) =>
    if succeeded hr ∧ st.wQuality &&& 0xC0 = 0xC0 then
      (variantText crt 64 st.vDataValue).map Prod.fst
    else some (ascii "Error Read")
  | none => some (ascii "Error Read")

/-- The text for a result, and whether it counts as a value. -/
def rendered : Option (ItemState × HRESULT) → Option (Bytes × Bool)
  | some (st, hr) =>
    if succeeded hr ∧ st.wQuality &&& 0xC0 = 0xC0 then variantText crt 64 st.vDataValue
    else some (ascii "Error Read", false)
  | none => some (ascii "Error Read", false)

/-- The handles passed are registered for their items, and a call that succeeds lists for every
record, in order, what the server returned for its item in this call. -/
structure Fresh (rs : List ReadRecord) (r : OrderlyReplies) (log : CallLog) : Prop where
  registered : log.Registered
  texts : log.ret = some 0 → ∃ texts : List Bytes,
    List.Forall₂ (fun rec t => listed crt (fetched r log.read rec) = some t) rs texts ∧
    log.data = some
      (List.zipWith (fun rec t => framed (ltoa rec.parID) ++ framed t) rs texts).flatten

/-- A call that returns says whether the value of some record was good. -/
def Counted (rs : List ReadRecord) (r : OrderlyReplies) (log : CallLog) : Prop :=
  ∀ ret, log.ret = some ret → ret ≤ 0 ∧
    (ret = 0 ↔ ∃ rec ∈ rs, ∃ t, rendered crt (fetched r log.read rec) = some (t, true))

/-- An item of the groups of multiple reads, between two calls, when `itemOf` pairs the client
handles with item ids. -/
structure ReadItem (itemOf : ℕ → Bytes) (it : COPCItem) : Prop where
  named : it.szItemID = itemOf it.hClient
  unread : it.status.invalid = false → it.status.forRead = false
  bad : it.status.new = true ∨ it.status.invalid = true → it.wQuality = 0

/-- A group of multiple reads, between two calls. -/
structure ReadGroup (itemOf : ℕ → Bytes) (g : COPCGroup) : Prop where
  inv : GroupInv g
  comma : 44 ∈ g.name
  old : ∀ it ∈ g.items, it.status.new = false
  items : ∀ it ∈ g.items, ReadItem itemOf it

variable {crt} {itemOf : ℕ → Bytes}

/-! ### Rendering -/

/-- An item without a quality. -/
theorem getValueVariant_bad {it : COPCItem} (h : it.wQuality = 0) :
    getValueVariant crt 64 (some it) = some (ascii "Error Read", false) := by
  have hquality : it.quality = false := by
    simp [COPCItem.quality, h]
  simp [getValueVariant, hquality]

/-- What is listed is what is rendered. -/
theorem map_rendered (x : Option (ItemState × HRESULT)) :
    (rendered crt x).map Prod.fst = listed crt x := by
  cases x with
  | none => rfl
  | some st =>
    simp only [rendered, listed]
    split_ifs
    · rfl
    · rfl

/-- An item that was just read renders what was read. -/
theorem getValueVariant_takeState {hMasterRes : HRESULT} (hok : failed hMasterRes = false)
    (it : COPCItem) (st : ItemState × HRESULT) :
    getValueVariant crt 64 (some (it.takeState hMasterRes st)) = rendered crt (some st) := by
  by_cases hhr : succeeded st.2 = true
  · have htake : (it.takeState hMasterRes st).wQuality = st.1.wQuality ∧
        (it.takeState hMasterRes st).vDataValue = st.1.vDataValue := by
      simp [COPCItem.takeState, hok, hhr]
    by_cases hq : st.1.wQuality &&& 0xC0 = 0xC0
    · simp [getValueVariant, COPCItem.quality, rendered, htake, hhr, hq]
    · simp [getValueVariant, COPCItem.quality, rendered, htake, hhr, hq]
  · have htake : (it.takeState hMasterRes st).wQuality = 0 := by
      simp [COPCItem.takeState, hok, hhr]
    rw [getValueVariant_bad htake]
    simp [rendered, hhr]

/-! ### The group of a request -/

theorem ReadItem.of_core {it it' : COPCItem} (h : ReadItem itemOf it) (hcore : it'.core = it.core) :
    ReadItem itemOf it' := by
  obtain ⟨hr, rfl⟩ := COPCItem.exists_of_core hcore
  exact ⟨h.named, h.unread, h.bad⟩

/-- A new item that is registered or rejected. -/
theorem ReadItem.takeResult {it : COPCItem} (h : ReadItem itemOf it) (hnew : it.status.new = true)
    (res : ItemResult) : ReadItem itemOf (it.takeResult res) := by
  have hquality : it.wQuality = 0 := h.bad (.inl hnew)
  unfold COPCItem.takeResult
  split_ifs
  · exact ⟨h.named, h.unread, fun _ => hquality⟩
  · exact ⟨h.named, fun hinv => (by cases hinv), fun _ => hquality⟩

theorem readGroup_empty (itemOf : ℕ → Bytes) {szName : Bytes} (h : 44 ∈ szName) :
    ReadGroup itemOf ⟨szName, [], []⟩ := by
  refine ⟨groupInv_empty szName, h, ?_, ?_⟩
  · intro it hit
    cases hit
  · intro it hit
    cases hit

/-- The items of a request whose items are appended. -/
theorem ReadGroup.addMissing {g : COPCGroup} (hg : ReadGroup itemOf g) (r : Replies)
    {params : List CEdpsParam} (hparams : ∀ p ∈ params, p.szItemId = itemOf p.dwParID) :
    GroupOK (OpcS7.addMissing r g params) ∧
      ∀ it ∈ (OpcS7.addMissing r g params).items, ReadItem itemOf it := by
  refine addMissing_induction (I := fun g => GroupOK g ∧ ∀ it ∈ g.items, ReadItem itemOf it) ?_
    ⟨hg.inv.ok, hg.items⟩
  rintro g' p hp ⟨hok, hitems⟩ hfresh
  refine ⟨hok.newItem r p.szItemId hfresh, fun it hit => ?_⟩
  rcases List.mem_append.1 hit with hit | hit
  · exact hitems it hit
  · rw [List.mem_singleton.1 hit]
    exact ⟨hparams p hp, fun _ => rfl, fun _ => rfl⟩

/-- **The items of a request** are all in the group, registered or rejected, and chosen. -/
theorem ReadGroup.request {g : COPCGroup} (hg : ReadGroup itemOf g) (r : OrderlyReplies)
    {params : List CEdpsParam} (hparams : ∀ p ∈ params, p.szItemId = itemOf p.dwParID) :
    ∃ g₁ n, n ≠ -2 ∧ findOrAddItemsToGroup r.toReplies params true g =
        ({ g₁ with items := g₁.items.map (mark true params) }, n) ∧
      ReadGroup itemOf g₁ ∧ g₁.name = g.name ∧
      ∀ p ∈ params, p.dwParID ∈ g₁.items.map COPCItem.hClient := by
  rcases findOrAdd_cases hg.inv.ok.nodup r.toReplies params true with
    ⟨hall, heq⟩ | ⟨-, g₁, hr, hadd, h⟩
  · exact ⟨g, 0, by decide, heq, hg, rfl, hall⟩
  · set g' := OpcS7.addMissing r.toReplies g params with hg'
    obtain ⟨hok, hitems⟩ := hg.addMissing r.toReplies hparams
    obtain ⟨hok₁, hold⟩ := hok.addItems r.toReplies
    have hname := (name_addItems g' r.toReplies).trans (addMissing_frame r.toReplies g params).1
    have hkeys := hClient_addItems g' r.toReplies hok.nodup
    have hcases := addItems_cases g' r.toReplies hok.nodup
    rw [hadd] at hok₁ hold hname hkeys hcases
    simp only at hok₁ hold hname hkeys hcases
    -- the server does not fail, so `AddItems` does not
    have hhr : failed hr = false := by
      rcases hcases with ⟨-, ⟨rfl, -⟩ | ⟨rfl, -⟩⟩ | ⟨rfl, -⟩
      · exact r.addItemsHr_ok
      · rfl
      · exact r.addItemsHr_ok
    have hitems₁ : ∀ it ∈ g₁.items, ReadItem itemOf it := by
      rcases hcases with ⟨rfl, -⟩ | ⟨-, -, -, -, hcore⟩
      · exact hitems
      · intro it' hit'
        obtain ⟨it, hit, hcore⟩ := Keyed.exists_of_forall₂ (Keyed.forall₂_iff_map_eq.2 hcore) hit'
        refine ReadItem.of_core ?_ hcore
        by_cases hnew : it.status.new = true
        · obtain ⟨res, -, hans⟩ := answered_of_new r.toReplies hok.nodup hit hnew
          rw [hans]
          exact (hitems it hit).takeResult hnew res
        · rw [answered_of_not_new r.toReplies hok.nodup hit (by simpa using hnew)]
          exact hitems it hit
    rcases h with ⟨hfail, -⟩ | ⟨-, n, hn, heq⟩
    · rw [hhr] at hfail
      cases hfail
    · have hcomma : 44 ∈ g₁.name := hname ▸ hg.comma
      refine ⟨g₁, n, hn, heq,
        ⟨⟨hok₁, fun hno => absurd hcomma hno⟩, hcomma, hold hhr, hitems₁⟩, hname, fun p hp => ?_⟩
      rw [hkeys]
      exact mem_addMissing r.toReplies g hp

/-! ### The read -/

/-- What the server returns for a client handle. -/
def answerTo (r : OrderlyReplies) (asked : List COPCItem) (hClient : ℕ) :
    Option (ItemState × HRESULT) :=
  (asked.findIdx? fun it => it.hClient = hClient).map fun n =>
    (r.states asked n, (r.read asked).errors n)

/-- An item after the read. -/
def COPCItem.reread (r : OrderlyReplies) (asked : List COPCItem) (it : COPCItem) : COPCItem :=
  (answerTo r asked it.hClient).elim it (it.takeState (r.read asked).hr)

/-- **The single pass.**  Every item takes the state that was returned for its handle. -/
theorem readItems_eq {g : COPCGroup} (hnd : (g.items.map COPCItem.hClient).Nodup)
    (r : OrderlyReplies) {asked : List COPCItem}
    (hasked : asked = g.items.filter (chosen2Read false)) :
    (g.readItems r.toReplies).1.items = g.items.map (COPCItem.reread r asked) := by
  unfold COPCGroup.readItems
  rw [getItems2Read_false, ← hasked]
  simp only
  split_ifs with hnil
  · rw [hnil]
    exact (List.map_id _).symm
  · rw [r.read_states]
    simp only
    have hstates (n : ℕ) (it : COPCItem) (hit : asked[n]? = some it) :
        (r.states asked n, (r.read asked).errors n).1.hClient = it.hClient :=
      r.states_hClient asked n it hit
    -- the states come in the order of the items
    have hkeys : ((List.range asked.length).map fun n =>
        (r.states asked n, (r.read asked).errors n)).map (fun st => st.1.hClient) =
          asked.map COPCItem.hClient := by
      refine List.ext_getElem (by simp) fun n hn hn' => ?_
      simp only [List.length_map] at hn'
      simpa using hstates n _ (List.getElem?_eq_getElem hn')
    have hsub : (asked.map COPCItem.hClient).Sublist (g.items.map COPCItem.hClient) := by
      rw [hasked]
      exact List.filter_sublist.map _
    rw [setReadValue, Keyed.merge_eq_assign hnd (hkeys ▸ hsub), Keyed.assign]
    refine List.map_congr_left fun it _ => ?_
    rw [Keyed.find?_map_range (fun st : ItemState × HRESULT => st.1.hClient) hstates]
    rfl

/-- A read keeps what an item is registered as, and whether it is. -/
theorem reread_frame (r : OrderlyReplies) (asked : List COPCItem) (it : COPCItem) :
    (it.reread r asked).registration = it.registration ∧
      (it.reread r asked).status.new = it.status.new ∧
      (it.reread r asked).status.invalid = it.status.invalid := by
  unfold COPCItem.reread
  cases answerTo r asked it.hClient with
  | none => exact ⟨rfl, rfl, rfl⟩
  | some st =>
    have hfollows := it.follows_takeState (r.read asked).hr st
    exact ⟨hfollows.registration, hfollows.new, hfollows.invalid⟩

/-- Choosing for a read changes one bit. -/
theorem wQuality_mark (params : List CEdpsParam) (it : COPCItem) :
    (mark true params it).wQuality = it.wQuality := by
  induction params generalizing it with
  | nil => rfl
  | cons p params ih =>
    rw [mark, List.foldl_cons, ← mark, ih]
    split_ifs <;> rfl

/-- An item is asked for when it is valid and named. -/
theorem chosen_mark {it : COPCItem} (h : ReadItem itemOf it) (params : List CEdpsParam) :
    chosen2Read false (mark true params it) =
      (it.valid && decide (it.hClient ∈ params.map CEdpsParam.dwParID)) := by
  obtain ⟨-, -, hinv⟩ := mark_frame true params it
  rw [← chosen_read, chosen, flag_mark, COPCItem.valid, COPCItem.valid, hinv]
  cases hi : it.status.invalid with
  | true => rfl
  | false =>
    have hread : it.flag true = false := h.unread hi
    rw [hread]
    rfl

/-- An item after the read is an item between two calls. -/
theorem ReadItem.reread {it : COPCItem} (h : ReadItem itemOf it) (hold : it.status.new = false)
    (params : List CEdpsParam) {r : OrderlyReplies} {asked : List COPCItem}
    (hasked : answerTo r asked (mark true params it).hClient = none ↔
      chosen2Read false (mark true params it) = false) :
    ReadItem itemOf ((mark true params it).reread r asked) := by
  obtain ⟨hreg, hnew, hinv⟩ := mark_frame true params it
  obtain ⟨hreg', hnew', hinv'⟩ := reread_frame r asked (mark true params it)
  have hnamed : ((mark true params it).reread r asked).szItemID =
      itemOf ((mark true params it).reread r asked).hClient := by
    have hid := congrArg Registration.szItemID (hreg'.trans hreg)
    have hclient := congrArg Registration.hClient (hreg'.trans hreg)
    exact hid.trans (h.named.trans (congrArg itemOf hclient.symm))
  rw [chosen_mark h] at hasked
  cases hans : answerTo r asked (mark true params it).hClient with
  | some st =>
    -- an item that was asked for is valid, and its bit is reset
    have hvalid : it.status.invalid = false := by
      rw [hans] at hasked
      by_contra hi
      exact absurd (hasked.2 (by simp [COPCItem.valid, hi])) (by simp)
    refine ⟨hnamed, fun _ => ?_, fun hbad => ?_⟩
    · rw [COPCItem.reread, hans, Option.elim_some, COPCItem.takeState]
      simp only
      split_ifs <;> rfl
    · rw [hnew', hnew, hold, hinv', hinv, hvalid] at hbad
      simp at hbad
  | none =>
    -- an item that was not asked for is as it was chosen
    have hsame : (mark true params it).reread r asked = mark true params it := by
      rw [COPCItem.reread, hans, Option.elim_none]
    rw [hsame] at hnamed ⊢
    have hno := hasked.1 hans
    refine ⟨hnamed, fun hi => ?_, fun hbad => ?_⟩
    · rw [hinv] at hi
      have hmem : it.hClient ∉ params.map CEdpsParam.dwParID := by
        simpa [COPCItem.valid, hi] using hno
      rw [mark_of_notMem hmem]
      exact h.unread hi
    · rw [hnew, hinv] at hbad
      rw [wQuality_mark]
      exact h.bad hbad

/-- **What a named item renders** after the read is what the server returned for it. -/
theorem getValueVariant_reread {it : COPCItem} (h : ReadItem itemOf it) {params : List CEdpsParam}
    (hmem : it.hClient ∈ params.map CEdpsParam.dwParID) {r : OrderlyReplies}
    {asked : List COPCItem} (hasked : answerTo r asked (mark true params it).hClient = none ↔
      chosen2Read false (mark true params it) = false) :
    getValueVariant crt 64 (some ((mark true params it).reread r asked)) =
      rendered crt (answerTo r asked it.hClient) := by
  have hkey : (mark true params it).hClient = it.hClient := hClient_mark true params it
  rw [chosen_mark h, hkey] at hasked
  rw [COPCItem.reread, hkey]
  cases hans : answerTo r asked it.hClient with
  | some st => exact getValueVariant_takeState (r.read_ok asked) _ st
  | none =>
    -- a named item that was not asked for is not valid
    have hinv : it.status.invalid = true := by
      have hno := hasked.1 hans
      simpa [COPCItem.valid, hmem] using hno
    have hquality : (mark true params it).wQuality = 0 := by
      rw [wQuality_mark]
      exact h.bad (.inr hinv)
    rw [Option.elim_none, getValueVariant_bad hquality]
    rfl

/-- The names of the items that are asked for do not matter. -/
theorem fetched_eq (r : OrderlyReplies) {asked : List COPCItem} {rec : ReadRecord}
    (hrec : rec.itemId = itemOf rec.parID) (h : ∀ it ∈ asked, it.szItemID = itemOf it.hClient) :
    fetched r asked rec = answerTo r asked rec.parID := by
  unfold fetched answerTo
  refine congrArg (Option.map _) (Keyed.findIdx?_congr fun it hit => ?_)
  rw [hrec, h it hit, decide_eq_decide]
  exact and_iff_left_of_imp fun hkey => hkey ▸ rfl

/-- The items that are asked for in a group. -/
def askedItems (params : List CEdpsParam) (g : COPCGroup) : List COPCItem :=
  (g.items.map (mark true params)).filter (chosen2Read false)

/-- They go by the names of their handles. -/
theorem ReadGroup.named {g : COPCGroup} (hg : ReadGroup itemOf g) (params : List CEdpsParam) :
    ∀ it ∈ askedItems params g, it.szItemID = itemOf it.hClient := by
  intro it' hit'
  obtain ⟨it, hit, rfl⟩ := List.mem_map.1 (List.mem_filter.1 hit').1
  have hreg := (mark_frame true params it).1
  have hid := congrArg Registration.szItemID hreg
  have hclient := congrArg Registration.hClient hreg
  exact hid.trans ((hg.items it hit).named.trans (congrArg itemOf hclient.symm))

/-- An item is answered when it is asked for. -/
theorem ReadGroup.answered_iff {g : COPCGroup} (hg : ReadGroup itemOf g) (params : List CEdpsParam)
    (r : OrderlyReplies) {it : COPCItem} (hit : it ∈ g.items) :
    answerTo r (askedItems params g) (mark true params it).hClient = none ↔
      chosen2Read false (mark true params it) = false := by
  have hnd : ((g.items.map (mark true params)).map COPCItem.hClient).Nodup := by
    rw [hClient_map_mark]
    exact hg.inv.ok.nodup
  rw [answerTo, Option.map_eq_none_iff]
  exact Keyed.findIdx?_filter_eq_none hnd (List.mem_map_of_mem hit) (chosen2Read false)

/-- The items of a group after a read. -/
theorem ReadGroup.items_readItems {g : COPCGroup} (hg : ReadGroup itemOf g)
    (params : List CEdpsParam) (r : OrderlyReplies) :
    (({ g with items := g.items.map (mark true params) } :
      COPCGroup).readItems r.toReplies).1.items =
      g.items.map fun it => (mark true params it).reread r (askedItems params g) := by
  have hnd : ((g.items.map (mark true params)).map COPCItem.hClient).Nodup := by
    rw [hClient_map_mark]
    exact hg.inv.ok.nodup
  rw [readItems_eq hnd r rfl, List.map_map]
  rfl

/-- **What the group renders for a record** after a read is what the server returned for it. -/
theorem ReadGroup.rendered_eq (crt : Crt) {g : COPCGroup} (hg : ReadGroup itemOf g)
    {params : List CEdpsParam} {rec : ReadRecord} (hrec : rec.itemId = itemOf rec.parID)
    (hnamed : rec.parID ∈ params.map CEdpsParam.dwParID)
    (hthere : rec.parID ∈ g.items.map COPCItem.hClient) (r : OrderlyReplies) :
    getValueVariant crt 64 ((({ g with items := g.items.map (mark true params) } :
      COPCGroup).readItems r.toReplies).1.items.find? fun it => it.hClient = rec.parID) =
        rendered crt (fetched r (askedItems params g) rec) := by
  set asked := askedItems params g with hasked
  obtain ⟨it, hit, hkey⟩ := List.mem_map.1 hthere
  have hkey' : ((mark true params it).reread r asked).hClient = rec.parID := by
    have hreg := (reread_frame r asked (mark true params it)).1.trans (mark_frame true params it).1
    exact (congrArg Registration.hClient hreg).trans hkey
  have hnd : ((({ g with items := g.items.map (mark true params) } :
      COPCGroup).readItems r.toReplies).1.items.map COPCItem.hClient).Nodup := by
    rw [hClient_readItems, hClient_map_mark]
    exact hg.inv.ok.nodup
  rw [hg.items_readItems params r, ← hasked] at hnd ⊢
  have hfound := Keyed.find?_key hnd (List.mem_map_of_mem hit)
  rw [hkey'] at hfound
  rw [hfound, fetched_eq r hrec (hg.named params), ← hkey]
  exact getValueVariant_reread (hg.items it hit) (hkey ▸ hnamed) (hg.answered_iff params r hit)

/-- The server answers a read. -/
theorem readItems_answered (g : COPCGroup) (r : OrderlyReplies) :
    ∃ hr, (g.readItems r.toReplies).2.2 = some hr ∧ failed hr = false := by
  unfold COPCGroup.readItems
  simp only
  split_ifs
  · exact ⟨S_FALSE, rfl, rfl⟩
  · rw [r.read_states]
    exact ⟨_, rfl, r.read_ok _⟩

/-- **A read of the group**: the items afterwards, and what the answer lists. -/
theorem ReadGroup.read (crt : Crt) {g : COPCGroup} (hg : ReadGroup itemOf g) {rs : List ReadRecord}
    (hrs : ∀ rec ∈ rs, rec.itemId = itemOf rec.parID) (r : OrderlyReplies) :
    ReadGroup itemOf (mreadCall crt r.toReplies (rs.map ReadRecord.param) g).1 ∧
      (mreadCall crt r.toReplies (rs.map ReadRecord.param) g).1.name = g.name ∧
      Fresh crt rs r (mreadCall crt r.toReplies (rs.map ReadRecord.param) g).2 ∧
      Counted crt rs r (mreadCall crt r.toReplies (rs.map ReadRecord.param) g).2 := by
  set ps := rs.map ReadRecord.param with hps
  have hparams : ∀ p ∈ ps, p.szItemId = itemOf p.dwParID := by
    intro p hp
    obtain ⟨rec, hrec, rfl⟩ := List.mem_map.1 hp
    exact hrs rec hrec
  obtain ⟨g₁, n, hn, hfind, hg₁, hname, hall⟩ := hg.request r hparams
  obtain ⟨hgroup, ret, data, hlog⟩ := mreadCall_ok crt hfind hn
  have hwell : GoesWell True g₁ (mreadCall crt r.toReplies ps g) :=
    .read hg₁.inv rfl (iff_of_true trivial fun it hit _ => hg₁.old it hit) r.toReplies hgroup hlog
  have hitems := hg₁.items_readItems ps r
  -- what the group renders for a record
  have hrendered : ∀ rec ∈ rs, getValueVariant crt 64 ((({ g₁ with
      items := g₁.items.map (mark true ps) } : COPCGroup).readItems r.toReplies).1.items.find?
        fun it => it.hClient = rec.parID) = rendered crt (fetched r (askedItems ps g₁) rec) := by
    intro rec hrec
    have hnamed : rec.parID ∈ ps.map CEdpsParam.dwParID := by
      rw [hps, List.map_map]
      exact List.mem_map_of_mem hrec
    exact hg₁.rendered_eq crt (hrs rec hrec) hnamed (hall _ (List.mem_map_of_mem hrec)) r
  refine ⟨⟨hwell.inv trivial, ?_, ?_, ?_⟩, hwell.name.trans hname,
    ⟨hwell.registered.2 trivial, ?_⟩, ?_⟩
  · rw [hwell.name, hname]
    exact hg.comma
  · rw [hgroup, hitems]
    intro it' hit'
    obtain ⟨it, hit, rfl⟩ := List.mem_map.1 hit'
    rw [(reread_frame r _ _).2.1, (mark_frame true ps it).2.1]
    exact hg₁.old it hit
  · rw [hgroup, hitems]
    intro it' hit'
    obtain ⟨it, hit, rfl⟩ := List.mem_map.1 hit'
    exact (hg₁.items it hit).reread (hg₁.old it hit) ps (hg₁.answered_iff ps r hit)
  · -- the answer lists what the group renders
    intro hret
    obtain ⟨text, dwRead, hres, hdata⟩ := mreadCall_data hfind hn hret
    obtain ⟨texts, htexts, rfl⟩ := getMReadResult_texts crt hres
    rw [hps, List.forall₂_map_left_iff] at htexts
    rw [hps, List.zipWith_map_left] at hdata
    refine ⟨texts, ?_, hdata⟩
    have hin := (List.forall₂_and_left (p := (· ∈ rs)) rs texts).2 ⟨fun _ h => h, htexts⟩
    refine hin.imp ?_
    rintro rec t ⟨hrec, good, htext⟩
    have htext : rendered crt (fetched r (askedItems ps g₁) rec) = some (t, good) :=
      (hrendered rec hrec).symm.trans htext
    rw [hlog]
    exact (map_rendered _).symm.trans (congrArg (Option.map Prod.fst) htext)
  · -- the return value tells whether one of the values is good
    intro code hcode
    obtain ⟨hr, hhr, hok⟩ := readItems_answered
      ({ g₁ with items := g₁.items.map (mark true ps) } : COPCGroup) r
    rw [mreadCall_ret hfind hn hhr hok, Option.map_eq_some_iff] at hcode
    obtain ⟨⟨text, dwRead⟩, hres, rfl⟩ := hcode
    have hcount := getMReadResult_count crt hres
    have hgood : dwRead ≠ 0 ↔
        ∃ rec ∈ rs, ∃ t, rendered crt (fetched r (askedItems ps g₁) rec) = some (t, true) := by
      rw [hcount, hps]
      constructor
      · rintro ⟨p, hp, t, ht⟩
        obtain ⟨rec, hrec, rfl⟩ := List.mem_map.1 hp
        exact ⟨rec, hrec, t, (hrendered rec hrec).symm.trans ht⟩
      · rintro ⟨rec, hrec, t, ht⟩
        exact ⟨_, List.mem_map_of_mem hrec, t, (hrendered rec hrec).trans ht⟩
    rw [hlog]
    refine ⟨by split_ifs <;> decide, Iff.trans ?_ hgood⟩
    by_cases hread : dwRead = 0 <;> simp [hread]

/-! ### Runs -/

theorem fresh_done (rs : List ReadRecord) (r : OrderlyReplies) {ret : ℤ} (h : ret ≠ 0) :
    Fresh crt rs r (.done ret) := by
  refine ⟨fun it hit => ?_, fun hret => ?_⟩
  · cases hit
  · exact absurd (Option.some.inj hret) h

theorem counted_done (rs : List ReadRecord) (r : OrderlyReplies) {ret : ℤ} (h : ret < 0) :
    Counted crt rs r (.done ret) := by
  intro ret' hret
  obtain rfl : ret = ret' := Option.some.inj hret
  refine ⟨h.le, iff_of_false h.ne ?_⟩
  rintro ⟨rec, -, t, ht⟩
  cases ht

theorem fresh_undefined (rs : List ReadRecord) (r : OrderlyReplies) :
    Fresh crt rs r .undefined := by
  refine ⟨fun it hit => ?_, fun hret => ?_⟩
  · cases hit
  · cases hret

theorem counted_undefined (rs : List ReadRecord) (r : OrderlyReplies) :
    Counted crt rs r .undefined := by
  intro ret hret
  cases hret

/-- A request without records does nothing. -/
theorem mreads_nil (s : SapiState) (r : OrderlyReplies) :
    (mreads crt).next s ([], r) = (s, .done (-1)) := rfl

/-- A request with records works on its group. -/
theorem mreads_next {rs : List ReadRecord} (hne : rs ≠ []) {szName : Bytes}
    (hname : szGroupName (rs.map ReadRecord.param) = some szName) (s : SapiState)
    (r : OrderlyReplies) :
    (mreads crt).next s (rs, r) =
      getOPCGroup r.toReplies szName (-2)
        (mreadCall crt r.toReplies (rs.map ReadRecord.param)) s := by
  have hne' : rs.map ReadRecord.param ≠ [] := by simpa using hne
  simp only [mreads, SapiCall.run, multiCall, parseRequest_read, if_neg hne', hname]

/-- The group of a request has no name. -/
theorem mreads_undefined {rs : List ReadRecord} (hne : rs ≠ [])
    (hname : szGroupName (rs.map ReadRecord.param) = none) (s : SapiState) (r : OrderlyReplies) :
    (mreads crt).next s (rs, r) = (s, .undefined) := by
  have hne' : rs.map ReadRecord.param ≠ [] := by simpa using hne
  simp only [mreads, SapiCall.run, multiCall, parseRequest_read, if_neg hne', hname]

/-- **One call.** -/
theorem mreads_step {s : SapiState} (hs : s.All (ReadGroup itemOf)) {rs : List ReadRecord}
    (hrs : ∀ rec ∈ rs, rec.itemId = itemOf rec.parID) (r : OrderlyReplies) :
    (Fresh crt rs r ((mreads crt).next s (rs, r)).2 ∧
        Counted crt rs r ((mreads crt).next s (rs, r)).2) ∧
      ((mreads crt).next s (rs, r)).1.All (ReadGroup itemOf) := by
  by_cases hne : rs = []
  · subst hne
    rw [mreads_nil]
    exact ⟨⟨fresh_done [] r (by decide), counted_done [] r (by decide)⟩, hs⟩
  · cases hn : szGroupName (rs.map ReadRecord.param) with
    | none =>
      rw [mreads_undefined hne hn]
      exact ⟨⟨fresh_undefined rs r, counted_undefined rs r⟩, hs⟩
    | some name =>
      rw [mreads_next hne hn]
      have hcomma : 44 ∈ name := eq_getListName hn ▸ comma_mem_getListName (by simpa using hne)
      have hempty := (readGroup_empty itemOf hcomma).read crt hrs r
      have hfound {g : COPCGroup} (hg : s.group? name = some g) :=
        (hs.groups g (SapiState.group?_mem hg).1).read crt hrs r
      constructor
      · rcases getOPCGroup_cases hs name (-2) (mreadCall crt r.toReplies (rs.map ReadRecord.param))
          with ⟨-, -, hlog⟩ | ⟨g, hg, -, hlog⟩ | ⟨-, -, -, hlog⟩
        · rw [hlog]
          exact ⟨fresh_done rs r (by decide), counted_done rs r (by decide)⟩
        · rw [hlog]
          exact (hfound hg).2.2
        · rw [hlog]
          exact hempty.2.2
      · refine hs.getOPCGroup (fun g hg => ?_) fun _ => ⟨hempty.2.1, hempty.1⟩
        exact ⟨(hfound hg).2.1.trans (SapiState.group?_mem hg).2, (hfound hg).1⟩

theorem mreads_next_groups (s : SapiState) (c : List ReadRecord × OrderlyReplies)
    (hs : s.All (ReadGroup itemOf)) (hc : ∀ rec ∈ c.1, rec.itemId = itemOf rec.parID) :
    ((mreads crt).next s c).1.All (ReadGroup itemOf) := (mreads_step hs hc c.2).2

/-- **The groups between two calls**, in a run that pairs every client handle with one item id. -/
theorem mreads_groups {calls : List (List ReadRecord × OrderlyReplies)}
    (h : ∀ c ∈ calls, ∀ rec ∈ c.1, rec.itemId = itemOf rec.parID) :
    ((mreads crt).after .init calls).All (ReadGroup itemOf) :=
  Machine.after_invariant mreads_next_groups (SapiState.all_init _) (Machine.eachStep_of_forall h)

/-- **Freshness.**  In a run of multiple reads that pair every client handle with one item id,
every answer lists, in the order of its request, what the server returned in the same call. -/
theorem mreads_fresh (crt : Crt) {itemOf : ℕ → Bytes}
    {calls : List (List ReadRecord × OrderlyReplies)}
    (h : ∀ c ∈ calls, ∀ rec ∈ c.1, rec.itemId = itemOf rec.parID) :
    (mreads crt).EachStep (fun s c => Fresh crt c.1 c.2 ((mreads crt).next s c).2) .init calls := by
  have hfresh (s : SapiState) (c : List ReadRecord × OrderlyReplies)
      (hs : s.All (ReadGroup itemOf)) (hc : ∀ rec ∈ c.1, rec.itemId = itemOf rec.parID) :
      Fresh crt c.1 c.2 ((mreads crt).next s c).2 := (mreads_step hs hc c.2).1.1
  exact Machine.eachStep_of_invariant mreads_next_groups hfresh (SapiState.all_init _)
    (Machine.eachStep_of_forall h)

/-- The read of a word of `DB1`. -/
def exampleRead (parID : ℕ) (hid : 0 < parID ∧ parID < 2 ^ 31) (item : String)
    (h : (∀ c ∈ ascii item, c ≠ 0) ∧ (ascii item).length < 1000) : ReadRecord where
  cp := exampleCP
  conn := exampleConn
  item := exampleField item h
  type := exampleType
  parID
  positive := hid.1
  long := hid.2

/-- A server that rejects the second item of a registration and reads `n` everywhere. -/
def orderlyReplies (n : ℤ) : OrderlyReplies where
  connect := true
  addGroup := S_OK
  uninit _ := 0xCDCDCDCD
  addItemsHr := S_FALSE
  addItems _ k := ⟨if k = 1 then -1073479673 else S_OK, k + 1⟩
  read its := ⟨S_OK, some fun k => ⟨(its[k]?).elim 0 COPCItem.hClient, 0xC0, ofLong VT_I4 n⟩,
    fun _ => S_OK⟩
  write _ := ⟨S_OK, fun _ => S_OK⟩
  addItemsHr_ok := rfl
  read_ok _ := rfl
  states its k := ⟨(its[k]?).elim 0 COPCItem.hClient, 0xC0, ofLong VT_I4 n⟩
  read_states _ := rfl
  states_hClient _ _ _ h := by rw [h]; rfl

/-- A request that names its first word twice, before and after one that is rejected. -/
def exampleReads : List ReadRecord :=
  [exampleRead 1 (by decide) "DB1,W0" (by decide +kernel),
    exampleRead 2 (by decide) "DB1,W9" (by decide +kernel),
    exampleRead 1 (by decide) "DB1,W0" (by decide +kernel)]

/-- The items of the request. -/
def exampleItem (n : ℕ) : Bytes :=
  itemName (ascii "C") (if n = 1 then ascii "DB1,W0" else ascii "DB1,W9")

/-- `mreads_fresh` for a request made twice: what changed between the calls is listed. -/
theorem mreads_fresh_twice :
    ((mreads exampleCrt).outs .init
      [(exampleReads, orderlyReplies 7), (exampleReads, orderlyReplies 8)]).map CallLog.data =
        [some (ascii "00110017" ++ ascii "0012010Error Read" ++ ascii "00110017"),
          some (ascii "00110018" ++ ascii "0012010Error Read" ++ ascii "00110018")] ∧
      (mreads exampleCrt).EachStep
        (fun s c => Fresh exampleCrt c.1 c.2 ((mreads exampleCrt).next s c).2) .init
        [(exampleReads, orderlyReplies 7), (exampleReads, orderlyReplies 8)] := by
  have h : ∀ rec ∈ exampleReads, rec.itemId = exampleItem rec.parID := by decide +kernel
  have hcalls : ∀ c ∈ [(exampleReads, orderlyReplies 7), (exampleReads, orderlyReplies 8)],
      ∀ rec ∈ c.1, rec.itemId = exampleItem rec.parID := by
    simp only [List.forall_mem_cons]
    exact ⟨h, h, fun _ hc => by cases hc⟩
  exact ⟨by decide +kernel, mreads_fresh exampleCrt hcalls⟩

end OpcS7

end Edps
