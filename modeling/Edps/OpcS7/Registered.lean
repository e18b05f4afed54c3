import Edps.OpcS7.Sapi

/-!
# Only registered handles reach the server

An item has a server handle of its own only after the server accepted it.  When `AddItems` fails
as a whole, its items stay in the list of their group as new ones, whose handle is what the memory
held; a later call that finds them does not register them again.

* `GroupOK` : the invariant of a group whose new items were never chosen.
* `CallLog.Registered` : every handle a call passes is one the server gave for that item.
* `SapiCall.MeetsNoNew` : a call does not find an item new that it takes to be registered.
* `registered_iff` : the handles of a run are registered exactly when no call finds such an item.
-/

namespace Edps

namespace OpcS7

/-- Every item whose handle a call passes to `Read` or `Write` is registered with this handle. -/
def CallLog.Registered (log : CallLog) : Prop :=
  ∀ it ∈ log.read ++ log.write, it.registration ∈ log.registered

/-- A group between two calls, as long as no new item was chosen. -/
structure GroupOK (g : COPCGroup) : Prop where
  nodup : (g.items.map COPCItem.hClient).Nodup
  known : ∀ reg ∈ g.registered, reg.hClient ∈ g.items.map COPCItem.hClient
  settled : ∀ it ∈ g.items, it.status.new = false → it.status.invalid = false →
    it.registration ∈ g.registered
  valid : ∀ it ∈ g.items, it.status.new = true → it.status.invalid = false
  unread : ∀ it ∈ g.items, it.status.new = true → it.status.forRead = false
  unwritten : ∀ it ∈ g.items, it.status.new = true → it.status.forWrite = false
  unregistered : ∀ it ∈ g.items, it.status.new = true → ∀ reg ∈ g.registered,
    reg.hClient ≠ it.hClient

/-! ### What keeps a group in order -/

/-- An item after a step that neither registers it nor, if it is new, chooses it. -/
structure COPCItem.Follows (it' it : COPCItem) : Prop where
  registration : it'.registration = it.registration
  new : it'.status.new = it.status.new
  invalid : it'.status.invalid = it.status.invalid
  unread : it.status.new = true → it.status.forRead = false → it'.status.forRead = false
  unwritten : it.status.new = true → it.status.forWrite = false → it'.status.forWrite = false

theorem COPCItem.Follows.refl (it : COPCItem) : it.Follows it :=
  ⟨rfl, rfl, rfl, fun _ h => h, fun _ h => h⟩

theorem COPCItem.Follows.hClient {it' it : COPCItem} (h : it'.Follows it) :
    it'.hClient = it.hClient := congrArg Registration.hClient h.registration

/-- **Frame.**  Steps that items follow keep a group in order. -/
theorem GroupOK.follow {g g' : COPCGroup} (hg : GroupOK g) (hreg : g'.registered = g.registered)
    (h : List.Forall₂ COPCItem.Follows g'.items g.items) : GroupOK g' := by
  have hkeys : g'.items.map COPCItem.hClient = g.items.map COPCItem.hClient :=
    Keyed.map_eq_of_forall₂ (fun _ _ hf => hf.hClient) h
  have hmem {it' : COPCItem} (hit' : it' ∈ g'.items) : ∃ it ∈ g.items, it'.Follows it :=
    Keyed.exists_of_forall₂ h hit'
  refine ⟨hkeys ▸ hg.nodup, hreg ▸ hkeys ▸ hg.known, ?_, ?_, ?_, ?_, ?_⟩
  · intro it' hit' hnew hinv
    obtain ⟨it, hit, hf⟩ := hmem hit'
    rw [hf.registration, hreg]
    exact hg.settled it hit (hf.new ▸ hnew) (hf.invalid ▸ hinv)
  · intro it' hit' hnew
    obtain ⟨it, hit, hf⟩ := hmem hit'
    rw [hf.invalid]
    exact hg.valid it hit (hf.new ▸ hnew)
  · intro it' hit' hnew
    obtain ⟨it, hit, hf⟩ := hmem hit'
    rw [hf.new] at hnew
    exact hf.unread hnew (hg.unread it hit hnew)
  · intro it' hit' hnew
    obtain ⟨it, hit, hf⟩ := hmem hit'
    rw [hf.new] at hnew
    exact hf.unwritten hnew (hg.unwritten it hit hnew)
  · intro it' hit' hnew reg hmem'
    obtain ⟨it, hit, hf⟩ := hmem hit'
    rw [hf.hClient]
    exact hg.unregistered it hit (hf.new ▸ hnew) reg (hreg ▸ hmem')

/-- A new item joins. -/
theorem GroupOK.newItem {g : COPCGroup} (hg : GroupOK g) (r : Replies) (szItemID : Bytes)
    {hClient : ℕ} (h : hClient ∉ g.items.map COPCItem.hClient) :
    GroupOK (g.newItem r szItemID hClient) := by
  set it := COPCItem.init szItemID hClient (r.uninit g.items.length) with hit
  have hitems : (g.newItem r szItemID hClient).items = g.items ++ [it] := rfl
  -- what holds of the old items and of the new one
  have hall {P : COPCItem → Prop} (hP : ∀ x ∈ g.items, P x) (hit : P it) :
      ∀ x ∈ (g.newItem r szItemID hClient).items, P x := by
    rw [hitems]
    exact List.forall_mem_append.2 ⟨hP, List.forall_mem_singleton.2 hit⟩
  refine ⟨?_, ?_, hall hg.settled ?_, hall hg.valid ?_, hall hg.unread ?_, hall hg.unwritten ?_,
    hall hg.unregistered ?_⟩
  · exact nodup_newItem hg.nodup r szItemID h
  · intro reg hreg
    rw [hitems, List.map_append]
    exact List.mem_append_left _ (hg.known reg hreg)
  · intro hnew
    cases hnew
  · exact fun _ => rfl
  · exact fun _ => rfl
  · exact fun _ => rfl
  · intro _ reg hreg heq
    have heq : reg.hClient = hClient := heq
    exact h (heq ▸ hg.known reg hreg)

theorem GroupOK.addMissing {g : COPCGroup} (hg : GroupOK g) (r : Replies)
    (params : List CEdpsParam) : GroupOK (OpcS7.addMissing r g params) :=
  addMissing_induction (fun _ p _ hok hp => hok.newItem r p.szItemId hp) hg

/-- A registration that succeeded is one of a new item. -/
theorem mem_accepted {r : Replies} {items : List COPCItem} {reg : Registration}
    (h : reg ∈ accepted (results r (getNewItems items))) :
    ∃ it ∈ items, it.status.new = true ∧ reg.hClient = it.hClient := by
  obtain ⟨p, hp, rfl⟩ := List.mem_map.1 h
  obtain ⟨it, hit, hnew, hdef⟩ := mem_getNewItems.1 (mem_results (List.mem_filter.1 hp).1)
  exact ⟨it, hit, hnew, by rw [← hdef]; rfl⟩

/-- **Registration.**  Whatever the server answers, the group stays in order; when it does not
fail as a whole, no item is new afterwards. -/
theorem GroupOK.addItems {g : COPCGroup} (hg : GroupOK g) (r : Replies) :
    GroupOK (g.addItems r).1 ∧
      (failed (g.addItems r).2 = false → ∀ it ∈ (g.addItems r).1.items, it.status.new = false) := by
  have hkeys := hClient_addItems g r hg.nodup
  rcases addItems_cases g r hg.nodup with ⟨hsame, hr⟩ | ⟨-, -, -, hreg, hcore⟩
  · rw [hsame]
    refine ⟨hg, fun hok => ?_⟩
    rcases hr with ⟨hres, hr⟩ | ⟨-, hr⟩
    · rw [← hres, hok] at hr
      cases hr
    · exact hr
  · set res := results r (getNewItems g.items) with hres
    have hmem {it' : COPCItem} (hit' : it' ∈ (g.addItems r).1.items) :
        ∃ it ∈ g.items, it'.core = (it.answered res).core := by
      have := List.mem_map_of_mem (f := COPCItem.core) hit'
      rw [hcore] at this
      obtain ⟨it, hit, heq⟩ := List.mem_map.1 this
      exact ⟨it, hit, heq.symm⟩
    -- an item afterwards: not new, and registered if it is valid
    have hafter : ∀ it' ∈ (g.addItems r).1.items, it'.status.new = false ∧
        (it'.status.invalid = false → it'.registration ∈ (g.addItems r).1.registered) := by
      intro it' hit'
      obtain ⟨it, hit, heq⟩ := hmem hit'
      rw [COPCItem.status_of_core heq, COPCItem.registration_of_core heq, hreg]
      -- a new item takes its result; any other one is as before
      by_cases hnew : it.status.new = true
      · obtain ⟨p, hp, hans⟩ := answered_of_new r hg.nodup hit hnew
        rw [hans, COPCItem.takeResult]
        split_ifs with hok
        · refine ⟨rfl, fun _ => List.mem_append_right _ ?_⟩
          exact List.mem_map.2 ⟨(it.toDef, p), List.mem_filter.2 ⟨hp, hok⟩, rfl⟩
        · exact ⟨rfl, fun hinv => by cases hinv⟩
      · have hnew : it.status.new = false := by simpa using hnew
        rw [answered_of_not_new r hg.nodup hit hnew]
        exact ⟨hnew, fun hinv => List.mem_append_left _ (hg.settled it hit hnew hinv)⟩
    have hno {P : COPCItem → Prop} :
        ∀ it' ∈ (g.addItems r).1.items, it'.status.new = true → P it' := by
      intro it' hit' hnew
      rw [(hafter it' hit').1] at hnew
      cases hnew
    refine ⟨⟨hkeys ▸ hg.nodup, ?_, fun it' hit' _ => (hafter it' hit').2, hno, hno, hno, hno⟩,
      fun _ it' hit' => (hafter it' hit').1⟩
    intro reg hmem
    rw [hreg] at hmem
    rw [hkeys]
    rcases List.mem_append.1 hmem with hmem | hmem
    · exact hg.known reg hmem
    · obtain ⟨it, hit, -, heq⟩ := mem_accepted hmem
      rw [heq]
      exact List.mem_map_of_mem hit

/-! ### Chosen items -/

theorem COPCItem.follows_takeState (hMasterRes : HRESULT) (it : COPCItem)
    (st : ItemState × HRESULT) : (it.takeState hMasterRes st).Follows it := by
  unfold COPCItem.takeState
  simp only
  split_ifs <;> exact ⟨rfl, rfl, rfl, fun _ _ => rfl, fun _ h => h⟩

theorem COPCItem.follows_takeWritten (hMasterRes : HRESULT) (it : COPCItem) (res : ℕ × HRESULT) :
    (it.takeWritten hMasterRes res).Follows it :=
  ⟨rfl, rfl, rfl, fun _ h => h, fun _ _ => rfl⟩

theorem GroupOK.readItems {g : COPCGroup} (hg : GroupOK g) (r : Replies) :
    GroupOK (g.readItems r).1 := by
  obtain ⟨-, hreg, -, hitems⟩ := readItems_frame g r
  refine hg.follow hreg (hitems.imp ?_)
  rintro it' it (rfl | ⟨hr, st, rfl⟩)
  · exact .refl _
  · exact it.follows_takeState hr st

theorem GroupOK.writeItems {g : COPCGroup} (hg : GroupOK g) (r : Replies) :
    GroupOK (g.writeItems r).1 := by
  obtain ⟨-, hreg, -, hitems⟩ := writeItems_frame g r
  refine hg.follow hreg (hitems.imp ?_)
  rintro it' it (rfl | ⟨hr, res, rfl⟩)
  · exact .refl _
  · exact it.follows_takeWritten hr res

/-- The items of a request are not new. -/
def NoNew (params : List CEdpsParam) (g : COPCGroup) : Prop :=
  ∀ it ∈ g.items, it.hClient ∈ params.map CEdpsParam.dwParID → it.status.new = false

/-- Choosing items that are not new keeps a group in order. -/
theorem GroupOK.mark {g : COPCGroup} (hg : GroupOK g) {params : List CEdpsParam}
    (h : NoNew params g) (bSet2Read : Bool) :
    GroupOK { g with items := g.items.map (OpcS7.mark bSet2Read params) } := by
  refine hg.follow rfl ?_
  simp only
  rw [List.forall₂_map_left_iff, List.forall₂_same]
  intro it hit
  obtain ⟨hreg, hnew, hinv⟩ := mark_frame bSet2Read params it
  -- a new item is not named
  have hsame (hn : it.status.new = true) : OpcS7.mark bSet2Read params it = it := by
    refine mark_of_notMem fun hmem => ?_
    rw [h it hit hmem] at hn
    cases hn
  refine ⟨hreg, hnew, hinv, fun hn hread => ?_, fun hn hwrite => ?_⟩
  · rw [hsame hn]
    exact hread
  · rw [hsame hn]
    exact hwrite

/-- Valid and chosen: what `GetItems2Read` and `GetItems2Write` look at. -/
def chosen (bRead : Bool) (it : COPCItem) : Bool := it.valid && it.flag bRead

theorem chosen_read : chosen true = chosen2Read false := by
  funext it
  simp [chosen, chosen2Read, COPCItem.flag]

theorem chosen_write : chosen false = chosen2Write := rfl

/-- **The items that are asked for** are registered exactly when no new item was chosen. -/
theorem GroupOK.asked_iff {g : COPCGroup} (hg : GroupOK g) (bRead : Bool)
    (params : List CEdpsParam) :
    (∀ it ∈ (g.items.map (OpcS7.mark bRead params)).filter (chosen bRead),
      it.registration ∈ g.registered) ↔ NoNew params g := by
  constructor
  · intro h it hit hmem
    by_contra hnew
    have hnew : it.status.new = true := by simpa using hnew
    obtain ⟨hreg, -, hinv⟩ := mark_frame bRead params it
    -- a new item is valid, so it is asked for as soon as it is named
    have hchosen : chosen bRead (OpcS7.mark bRead params it) = true := by
      rw [chosen, COPCItem.valid, hinv, hg.valid it hit hnew, flag_mark]
      simp [hmem]
    have hin := h _ (List.mem_filter.2 ⟨List.mem_map_of_mem hit, hchosen⟩)
    rw [hreg] at hin
    exact hg.unregistered it hit hnew _ hin rfl
  · intro h it hit
    obtain ⟨hit, hchosen⟩ := List.mem_filter.1 hit
    have hok := hg.mark h bRead
    simp only [chosen, COPCItem.valid, Bool.and_eq_true, Bool.not_eq_true'] at hchosen
    refine hok.settled it hit ?_ hchosen.1
    -- a new item is not chosen
    by_contra hnew
    have hnew : it.status.new = true := by simpa using hnew
    have hflag : it.flag bRead = false := by
      cases bRead with
      | true => exact hok.unread it hit hnew
      | false => exact hok.unwritten it hit hnew
    rw [hflag] at hchosen
    cases hchosen.2

/-! ### One request on its group -/

/-- A group between two calls.  The groups of the single calls, whose names have no comma, count
the client handles up. -/
structure GroupInv (g : COPCGroup) : Prop where
  ok : GroupOK g
  counted : 44 ∉ g.name → ∀ k ∈ g.items.map COPCItem.hClient, k ≤ g.items.length

theorem groupInv_empty (szName : Bytes) : GroupInv ⟨szName, [], []⟩ := by
  have hno {P : COPCItem → Prop} : ∀ it ∈ ([] : List COPCItem), P it := fun _ h => by cases h
  refine ⟨⟨List.nodup_nil, fun reg h => ?_, hno, hno, hno, hno, hno⟩, fun _ k hk => ?_⟩
  · cases h
  · cases hk

/-- Steps that keep the name and the client handles. -/
theorem GroupInv.keep {g g' : COPCGroup} (hg : GroupInv g) (hok : GroupOK g')
    (hname : g'.name = g.name)
    (hkeys : g'.items.map COPCItem.hClient = g.items.map COPCItem.hClient) : GroupInv g' := by
  refine ⟨hok, fun hcomma k hk => ?_⟩
  rw [length_of_hClient hkeys]
  exact hg.counted (hname ▸ hcomma) k (hkeys ▸ hk)

/-- The item of a single call, as it is before the call, is not new. -/
def SingleClear (crt : Crt) (szItemID : Bytes) (g : COPCGroup) : Prop :=
  ∀ it ∈ (getItemById crt g.items szItemID).bind fun p => g.items[p]?, it.status.new = false

/-- The end of the search, when items are registered. -/
theorem GroupInv.register {g : COPCGroup} (hg : GroupInv g) (r : Replies) {p : ℕ}
    (hp : p < g.items.length) :
    ∃ res : Except ℤ ℕ,
      (if failed (g.addItems r).2 = true ∨ (g.addItems r).2 = S_FALSE
        then ((g.addItems r).1, Except.error (-1)) else ((g.addItems r).1, Except.ok p)) =
          ((g.addItems r).1, res) ∧
      GroupInv (g.addItems r).1 ∧
      ((∃ e, res = .error e) ∨
        ∃ it, res = .ok p ∧ (g.addItems r).1.items[p]? = some it ∧ it.status.new = false) := by
  obtain ⟨hok, hdone⟩ := hg.ok.addItems r
  have hkeys := hClient_addItems g r hg.ok.nodup
  have hlen := length_of_hClient hkeys
  have hinv := hg.keep hok (name_addItems g r) hkeys
  by_cases hfail : failed (g.addItems r).2 = true ∨ (g.addItems r).2 = S_FALSE
  · exact ⟨_, if_pos hfail, hinv, .inl ⟨-1, rfl⟩⟩
  · refine ⟨_, if_neg hfail, hinv,
      .inr ⟨_, rfl, List.getElem?_eq_getElem (hlen ▸ hp), ?_⟩⟩
    rw [not_or] at hfail
    exact hdone (by simpa using hfail.1) _ (List.getElem_mem _)

/-- A new item under the number of items. -/
theorem GroupInv.newItem {g : COPCGroup} (hg : GroupInv g) (hcomma : 44 ∉ g.name) (r : Replies)
    (szItemID : Bytes) : GroupInv (g.newItem r szItemID (g.items.length + 1)) := by
  -- the client handles are counted up, so the next one is free
  have hfresh : g.items.length + 1 ∉ g.items.map COPCItem.hClient := by
    intro hmem
    have := hg.counted hcomma _ hmem
    omega
  refine ⟨hg.ok.newItem r szItemID hfresh, fun _ k hk => ?_⟩
  have hkeys : (g.newItem r szItemID (g.items.length + 1)).items.map COPCItem.hClient =
      g.items.map COPCItem.hClient ++ [g.items.length + 1] := List.map_append
  have hlen : (g.newItem r szItemID (g.items.length + 1)).items.length = g.items.length + 1 := by
    simp [COPCGroup.newItem, addItem]
  rw [hkeys] at hk
  rw [hlen]
  rcases List.mem_append.1 hk with hk | hk
  · exact (hg.counted hcomma k hk).trans (Nat.le_succ _)
  · exact (List.mem_singleton.1 hk).le

/-- **The search of a single call.**  It ends without an item, and then did not find a new one,
or with an item that is new only if it was before the call. -/
theorem GroupInv.findOrAddSingle {g : COPCGroup} (hg : GroupInv g) (hcomma : 44 ∉ g.name)
    (crt : Crt) (r : Replies) (szItemID : Bytes) :
    ∃ g₁ res, OpcS7.findOrAddSingle crt r szItemID g = (g₁, res) ∧ GroupInv g₁ ∧
      g₁.name = g.name ∧
      ((∃ e, res = .error e ∧ SingleClear crt szItemID g) ∨
        ∃ p it, res = .ok p ∧ g₁.items[p]? = some it ∧
          (SingleClear crt szItemID g ↔ it.status.new = false)) := by
  -- the end of the search on a group `g'`, when no new item was found
  have hregister {g' : COPCGroup} (hg' : GroupInv g') (hname : g'.name = g.name) {p : ℕ}
      (hp : p < g'.items.length) (hclear : SingleClear crt szItemID g) :
      ∃ g₁ res, (if failed (g'.addItems r).2 = true ∨ (g'.addItems r).2 = S_FALSE
          then ((g'.addItems r).1, Except.error (-1)) else ((g'.addItems r).1, Except.ok p)) =
            (g₁, res) ∧ GroupInv g₁ ∧ g₁.name = g.name ∧
        ((∃ e, res = .error e ∧ SingleClear crt szItemID g) ∨
          ∃ p it, res = .ok p ∧ g₁.items[p]? = some it ∧
            (SingleClear crt szItemID g ↔ it.status.new = false)) := by
    obtain ⟨res, heq, hinv, hres⟩ := hg'.register r hp
    refine ⟨_, res, heq, hinv, (name_addItems g' r).trans hname, ?_⟩
    rcases hres with ⟨e, he⟩ | ⟨it, hok, hit, hnew⟩
    · exact .inl ⟨e, he, hclear⟩
    · exact .inr ⟨p, it, hok, hit, iff_of_true hclear hnew⟩
  unfold OpcS7.findOrAddSingle
  cases hfind : getItemById crt g.items szItemID with
  | some p =>
    obtain ⟨hlt, -⟩ := List.findIdx?_eq_some_iff_getElem.1 hfind
    have hit : g.items[p]? = some g.items[p] := List.getElem?_eq_getElem hlt
    have hclear : SingleClear crt szItemID g ↔ g.items[p].status.new = false := by
      simp [SingleClear, hfind, hit]
    simp only [hit, Option.any_some]
    by_cases hvalid : g.items[p].valid = true
    · rw [if_pos hvalid]
      exact ⟨g, _, rfl, hg, rfl, .inr ⟨p, _, rfl, hit, hclear⟩⟩
    · -- an item that is not valid is not new
      have hnew : g.items[p].status.new = false := by
        by_contra hnew
        have hinv := hg.ok.valid _ (List.getElem_mem hlt) (by simpa using hnew)
        simp [COPCItem.valid, hinv] at hvalid
      rw [if_neg hvalid]
      exact hregister hg rfl hlt (hclear.2 hnew)
  | none =>
    have hclear : SingleClear crt szItemID g := by
      simp [SingleClear, hfind]
    refine hregister (hg.newItem hcomma r szItemID) rfl ?_ hclear
    simp [COPCGroup.newItem, addItem]

/-- What a call does to its group, when `clear` says that it does not find a new item. -/
structure GoesWell (clear : Prop) (g : COPCGroup) (res : COPCGroup × CallLog) : Prop where
  name : res.1.name = g.name
  registered : res.2.Registered ↔ clear
  inv : clear → GroupInv res.1

/-- A call that passes no handle. -/
theorem GoesWell.done {clear : Prop} (hclear : clear) {g g₁ : COPCGroup} (hg₁ : GroupInv g₁)
    (hname : g₁.name = g.name) (ret : ℤ) : GoesWell clear g (g₁, .done ret) := by
  refine ⟨hname, iff_of_true ?_ hclear, fun _ => hg₁⟩
  intro it hit
  cases hit

/-- **The items of a request** passed to the server. -/
theorem GoesWell.ask {clear : Prop} {g g₁ : COPCGroup} (hg₁ : GroupInv g₁)
    (hname : g₁.name = g.name) {params : List CEdpsParam} (hclear : clear ↔ NoNew params g₁)
    (bRead : Bool)
    {res : COPCGroup × CallLog} (hname₁ : res.1.name = g₁.name)
    (hkeys : res.1.items.map COPCItem.hClient =
      (g₁.items.map (mark bRead params)).map COPCItem.hClient)
    (hok : GroupOK { g₁ with items := g₁.items.map (mark bRead params) } → GroupOK res.1)
    (hasked : res.2.read ++ res.2.write = (g₁.items.map (mark bRead params)).filter (chosen bRead))
    (hreg : res.2.registered = g₁.registered) : GoesWell clear g res := by
  refine ⟨hname₁.trans hname, ?_, fun h => ?_⟩
  · rw [hclear, ← hg₁.ok.asked_iff bRead params, CallLog.Registered, hasked, hreg]
  · exact hg₁.keep (hok (hg₁.ok.mark (hclear.1 h) bRead)) hname₁
      (hkeys.trans (hClient_map_mark bRead params g₁.items))

/-- A call that ends with the read of a request. -/
theorem GoesWell.read {clear : Prop} {g g₁ : COPCGroup} (hg₁ : GroupInv g₁)
    (hname : g₁.name = g.name) {params : List CEdpsParam} (hclear : clear ↔ NoNew params g₁)
    (r : Replies) {res : COPCGroup × CallLog}
    (hgroup : res.1 = (({ g₁ with items := g₁.items.map (mark true params) } :
      COPCGroup).readItems r).1)
    {ret : Option ℤ} {data : Option Bytes}
    (hlog : res.2 = ⟨ret, data, (g₁.items.map (mark true params)).filter (chosen2Read false), [],
      g₁.registered⟩) : GoesWell clear g res := by
  refine .ask hg₁ hname hclear true ?_ ?_ (fun hok => ?_) ?_ ?_
  · rw [hgroup]
    exact (readItems_frame _ r).1
  · rw [hgroup]
    exact hClient_readItems _ r
  · rw [hgroup]
    exact hok.readItems r
  · rw [hlog, chosen_read]
    exact List.append_nil _
  · rw [hlog]

/-- A call that ends with the write of a request. -/
theorem GoesWell.write {clear : Prop} {g g₁ : COPCGroup} (hg₁ : GroupInv g₁)
    (hname : g₁.name = g.name) {params : List CEdpsParam} (hclear : clear ↔ NoNew params g₁)
    (r : Replies) {res : COPCGroup × CallLog}
    (hgroup : res.1 = (({ g₁ with items := g₁.items.map (mark false params) } :
      COPCGroup).writeItems r).1)
    {ret : Option ℤ} (hlog : res.2 = ⟨ret, none, [],
      (g₁.items.map (mark false params)).filter chosen2Write, g₁.registered⟩) :
    GoesWell clear g res := by
  refine .ask hg₁ hname hclear false ?_ ?_ (fun hok => ?_) ?_ ?_
  · rw [hgroup]
    exact (writeItems_frame _ r).1
  · rw [hgroup]
    exact hClient_writeItems _ r
  · rw [hgroup]
    exact hok.writeItems r
  · rw [hlog, chosen_write]
    exact List.nil_append _
  · rw [hlog]

/-- An item found at a position, as the only item of a request. -/
theorem noNew_single {g : COPCGroup} (hnd : (g.items.map COPCItem.hClient).Nodup) {p : ℕ}
    {it : COPCItem} (hit : g.items[p]? = some it) (szItemId : Bytes) (v : Variant) :
    NoNew [⟨it.hClient, szItemId, v⟩] g ↔ it.status.new = false := by
  have hmem := List.mem_of_getElem? hit
  constructor
  · intro h
    exact h it hmem (by simp)
  · intro hnew it' hit' hkey
    have hkey : it'.hClient = it.hClient := by simpa using hkey
    rw [List.inj_on_of_nodup_map hnd hit' hmem hkey]
    exact hnew

theorem readCall_goesWell {g : COPCGroup} (hg : GroupInv g) (hcomma : 44 ∉ g.name) (crt : Crt)
    (r : Replies) (bsConn bsItem : Bytes) :
    GoesWell (SingleClear crt (itemName (cstr bsConn) (cstr bsItem)) g) g
      (readCall crt r bsConn bsItem g) := by
  obtain ⟨g₁, res, hfind, hg₁, hname, hres⟩ :=
    hg.findOrAddSingle hcomma crt r (itemName (cstr bsConn) (cstr bsItem))
  rcases hres with ⟨e, rfl, hclear⟩ | ⟨p, it, rfl, hit, hclear⟩
  · rw [readCall_error hfind]
    exact .done hclear hg₁ hname _
  · obtain ⟨g₂, rfl, hgroup, ret, data, hlog⟩ := readCall_ok hfind
    have hmark := modifyItem_eq true [] .empty hg₁.ok.nodup hit
    rw [if_pos rfl] at hmark
    rw [hmark] at hgroup hlog
    have hclear' := hclear.trans (noNew_single hg₁.ok.nodup hit [] .empty).symm
    exact .read hg₁ hname hclear' r hgroup hlog

theorem writeCall_goesWell {g : COPCGroup} (hg : GroupInv g) (hcomma : 44 ∉ g.name) (crt : Crt)
    (r : Replies) (bsConn bsItem bsType bsData : Bytes) :
    GoesWell ((typedValue crt (cstr bsType) (cstr bsData)).2 = true →
      SingleClear crt (itemName (cstr bsConn) (cstr bsItem)) g) g
      (writeCall crt r bsConn bsItem bsType bsData g) := by
  obtain ⟨g₁, res, hfind, hg₁, hname, hres⟩ :=
    hg.findOrAddSingle hcomma crt r (itemName (cstr bsConn) (cstr bsItem))
  rcases hres with ⟨e, rfl, hclear⟩ | ⟨p, it, rfl, hit, hclear⟩
  · rw [writeCall_error hfind]
    exact .done (fun _ => hclear) hg₁ hname _
  · by_cases htyped : (typedValue crt (cstr bsType) (cstr bsData)).2 = true
    · obtain ⟨g₂, rfl, hgroup, ret, hlog⟩ := writeCall_ok hfind htyped
      set v := (typedValue crt (cstr bsType) (cstr bsData)).1 with hv
      have hmark := modifyItem_eq false [] v hg₁.ok.nodup hit
      rw [if_neg Bool.false_ne_true] at hmark
      rw [hmark] at hgroup hlog
      refine .write hg₁ hname ?_ r hgroup hlog
      rw [noNew_single hg₁.ok.nodup hit, ← hclear]
      exact ⟨fun h => h htyped, fun h _ => h⟩
    · rw [writeCall_untyped hfind (by simpa using htyped)]
      exact .done (fun h => absurd h htyped) hg₁ hname _

/-- When all items of a multiple call are in its group before the call, they are not new. -/
def MultiClear (params : List CEdpsParam) (g : COPCGroup) : Prop :=
  (∀ p ∈ params, p.dwParID ∈ g.items.map COPCItem.hClient) → NoNew params g

/-- **The items of a multiple call.**  The call fails without finding a new item, or the items
that are chosen are new only if they were before the call. -/
theorem GroupInv.findOrAddItems {g : COPCGroup} (hg : GroupInv g) (hcomma : 44 ∈ g.name)
    (r : Replies) (params : List CEdpsParam) (bSet2Read : Bool) :
    ∃ g₁ n, GroupInv g₁ ∧ g₁.name = g.name ∧
      (findOrAddItemsToGroup r params bSet2Read g = (g₁, -2) ∧ MultiClear params g ∨
        n ≠ -2 ∧ findOrAddItemsToGroup r params bSet2Read g =
          ({ g₁ with items := g₁.items.map (OpcS7.mark bSet2Read params) }, n) ∧
          (MultiClear params g ↔ NoNew params g₁)) := by
  rcases findOrAdd_cases hg.ok.nodup r params bSet2Read with ⟨hall, heq⟩ | ⟨hnot, g₁, hr, hadd, h⟩
  · exact ⟨g, 0, hg, rfl, .inr ⟨by decide, heq, fun h => h hall, fun h _ => h⟩⟩
  · -- some item was missing: the new items are registered with it
    have hclear : MultiClear params g := fun hall => absurd hall hnot
    obtain ⟨hok, hdone⟩ := (hg.ok.addMissing r params).addItems r
    have hname : g₁.name = g.name := by
      have h₁ := name_addItems (addMissing r g params) r
      rw [hadd] at h₁
      exact h₁.trans (addMissing_frame r g params).1
    rw [hadd] at hok hdone
    have hg₁ : GroupInv g₁ := ⟨hok, fun hno => absurd (hname ▸ hcomma) hno⟩
    rcases h with ⟨-, heq⟩ | ⟨hr, n, hn, heq⟩
    · exact ⟨g₁, 0, hg₁, hname, .inl ⟨heq, hclear⟩⟩
    · refine ⟨g₁, n, hg₁, hname, .inr ⟨hn, heq, iff_of_true hclear ?_⟩⟩
      intro it hit _
      exact hdone hr it hit

theorem mreadCall_goesWell {g : COPCGroup} (hg : GroupInv g) (hcomma : 44 ∈ g.name) (crt : Crt)
    (r : Replies) (params : List CEdpsParam) :
    GoesWell (MultiClear params g) g (mreadCall crt r params g) := by
  obtain ⟨g₁, n, hg₁, hname, ⟨heq, hclear⟩ | ⟨hn, heq, hclear⟩⟩ :=
    hg.findOrAddItems hcomma r params true
  · rw [mreadCall_error heq]
    exact .done hclear hg₁ hname _
  · obtain ⟨hgroup, ret, data, hlog⟩ := mreadCall_ok crt heq hn
    exact .read hg₁ hname hclear r hgroup hlog

theorem mwriteCall_goesWell {g : COPCGroup} (hg : GroupInv g) (hcomma : 44 ∈ g.name)
    (r : Replies) (params : List CEdpsParam) :
    GoesWell (MultiClear params g) g (mwriteCall r params g) := by
  obtain ⟨g₁, n, hg₁, hname, ⟨heq, hclear⟩ | ⟨hn, heq, hclear⟩⟩ :=
    hg.findOrAddItems hcomma r params false
  · rw [mwriteCall_error heq]
    exact .done hclear hg₁ hname _
  · obtain ⟨hgroup, ret, hlog⟩ := mwriteCall_ok heq hn
    exact .write hg₁ hname hclear r hgroup hlog

/-! ### Runs -/

/-- The call does not find an item new that an earlier registration has left behind. -/
def SapiCall.MeetsNoNew (crt : Crt) (s : SapiState) : SapiCall → Prop
  | .read bsConn bsItem =>
    ∀ g ∈ s.group? rdGroupName, SingleClear crt (itemName (cstr bsConn) (cstr bsItem)) g
  | .write bsConn bsItem bsType bsData =>
    ∀ g ∈ s.group? wrGroupName, (typedValue crt (cstr bsType) (cstr bsData)).2 = true →
      SingleClear crt (itemName (cstr bsConn) (cstr bsItem)) g
  | .mread bsParStr => ∀ params, parseRequest crt bsParStr true = .ok params →
    ∀ szName ∈ szGroupName params, ∀ g ∈ s.group? szName, MultiClear params g
  | .mwrite bsParStr => ∀ params, parseRequest crt bsParStr false = .ok params →
    ∀ szName ∈ szGroupName params, ∀ g ∈ s.group? szName, MultiClear params g

/-- The name of the group of a multiple call has a comma. -/
theorem comma_mem_getListName {params : List CEdpsParam} (h : params ≠ []) :
    44 ∈ getListName params := by
  rw [← List.count_pos_iff, count_getListName h]
  exact List.length_pos_iff.2 h

/-- **One call on the groups.** -/
theorem getOPCGroup_goesWell {s : SapiState} (hs : s.All GroupInv) (r : Replies) {szName : Bytes}
    (noGroup : ℤ) {body : COPCGroup → COPCGroup × CallLog} {clear : COPCGroup → Prop}
    (hbody : ∀ g, GroupInv g → g.name = szName → GoesWell (clear g) g (body g))
    (hempty : clear ⟨szName, [], []⟩) :
    ((getOPCGroup r szName noGroup body s).2.Registered ↔ ∀ g ∈ s.group? szName, clear g) ∧
      ((∀ g ∈ s.group? szName, clear g) →
        (getOPCGroup r szName noGroup body s).1.All GroupInv) := by
  have hfound {g : COPCGroup} (hg : s.group? szName = some g) :
      g.name = szName ∧ GoesWell (clear g) g (body g) := by
    obtain ⟨hmem, hname⟩ := SapiState.group?_mem hg
    exact ⟨hname, hbody g (hs.groups g hmem) hname⟩
  have hnew := hbody _ (groupInv_empty szName) rfl
  constructor
  · rcases getOPCGroup_cases hs szName noGroup body with
      ⟨hg, -, hlog⟩ | ⟨g, hg, -, hlog⟩ | ⟨hg, -, -, hlog⟩
    · rw [hlog, hg]
      -- no group, no handle
      refine iff_of_true ?_ (by simp)
      intro it hit
      cases hit
    · rw [hlog, hg, (hfound hg).2.registered]
      simp
    · rw [hlog, hg, hnew.registered]
      simp [hempty]
  · intro hclear
    refine hs.getOPCGroup (fun g hg => ?_) fun _ => ⟨hnew.name, hnew.inv hempty⟩
    obtain ⟨hname, hwell⟩ := hfound hg
    exact ⟨hwell.name.trans hname, hwell.inv (hclear g hg)⟩

theorem multiCall_goesWell {s : SapiState} (hs : s.All GroupInv) (crt : Crt) (r : Replies)
    (bReadRequest : Bool) (bsParStr : Bytes)
    {body : List CEdpsParam → COPCGroup → COPCGroup × CallLog}
    (hbody : ∀ params g, GroupInv g → 44 ∈ g.name →
      GoesWell (MultiClear params g) g (body params g)) :
    ((multiCall crt r bReadRequest bsParStr body s).2.Registered ↔
        ∀ params, parseRequest crt bsParStr bReadRequest = .ok params →
          ∀ szName ∈ szGroupName params, ∀ g ∈ s.group? szName, MultiClear params g) ∧
      ((∀ params, parseRequest crt bsParStr bReadRequest = .ok params →
          ∀ szName ∈ szGroupName params, ∀ g ∈ s.group? szName, MultiClear params g) →
        (multiCall crt r bReadRequest bsParStr body s).1.All GroupInv) := by
  unfold multiCall
  cases hparse : parseRequest crt bsParStr bReadRequest with
  | error e =>
    refine ⟨iff_of_true ?_ (by simp), fun _ => hs⟩
    intro it hit
    cases hit
  | ok params =>
    have hone {P : List CEdpsParam → Prop} :
        (∀ params', (Except.ok params : Except ParseEnd _) = .ok params' → P params') ↔ P params :=
      ⟨fun h => h params rfl, fun h params' he => Except.ok.inj he ▸ h⟩
    rw [hone]
    by_cases hnil : params = []
    · -- a request without records names no item
      have hclear (g : COPCGroup) : MultiClear params g := by
        intro _ it _ hmem
        rw [hnil] at hmem
        cases hmem
      simp only [if_pos hnil]
      refine ⟨iff_of_true ?_ fun _ _ g _ => hclear g, fun _ => hs⟩
      intro it hit
      cases hit
    · simp only [if_neg hnil]
      cases hname : szGroupName params with
      | none =>
        refine ⟨iff_of_true ?_ (by simp), fun _ => hs⟩
        intro it hit
        cases hit
      | some szName =>
        have hcomma : 44 ∈ szName := eq_getListName hname ▸ comma_mem_getListName hnil
        simp only [Option.mem_some_iff, forall_eq']
        refine getOPCGroup_goesWell hs r (-2) (fun g hg hg' => ?_) ?_
        · exact hbody params g hg (hg' ▸ hcomma)
        · intro _ it hit
          cases hit

/-- **One call.**  Its handles are registered exactly when it does not find a new item, and then
the groups stay in order. -/
theorem SapiCall.run_goesWell {s : SapiState} (hs : s.All GroupInv) (crt : Crt) (call : SapiCall)
    (r : Replies) :
    ((call.run crt r s).2.Registered ↔ call.MeetsNoNew crt s) ∧
      (call.MeetsNoNew crt s → (call.run crt r s).1.All GroupInv) := by
  cases call with
  | read bsConn bsItem =>
    refine getOPCGroup_goesWell hs r (-1) (fun g hg hname => ?_) ?_
    · exact readCall_goesWell hg (hname ▸ by decide) crt r bsConn bsItem
    · intro it hit
      cases hit
  | write bsConn bsItem bsType bsData =>
    refine getOPCGroup_goesWell hs r (-1) (fun g hg hname => ?_) ?_
    · exact writeCall_goesWell hg (hname ▸ by decide) crt r bsConn bsItem bsType bsData
    · intro _ it hit
      cases hit
  | mread bsParStr =>
    exact multiCall_goesWell hs crt r true bsParStr fun params g hg hcomma =>
      mreadCall_goesWell hg hcomma crt r params
  | mwrite bsParStr =>
    exact multiCall_goesWell hs crt r false bsParStr fun params g hg hcomma =>
      mwriteCall_goesWell hg hcomma r params

/-- **Registered handles.**  In a run of calls, every handle passed to the server is one it gave
for that item exactly when no call finds an item that is still new. -/
theorem registered_iff (crt : Crt) (calls : List (SapiCall × Replies)) :
    (sapi crt).EachStep (fun s c => ((sapi crt).next s c).2.Registered) .init calls ↔
      (sapi crt).EachStep (fun s c => c.1.MeetsNoNew crt s) .init calls := by
  have hstep (s : SapiState) (c : SapiCall × Replies) (hs : s.All GroupInv)
      (hreg : ((sapi crt).next s c).2.Registered) : ((sapi crt).next s c).1.All GroupInv := by
    obtain ⟨hiff, hkeep⟩ := c.1.run_goesWell hs crt c.2
    exact hkeep (hiff.1 hreg)
  have hiff (s : SapiState) (c : SapiCall × Replies) (hs : s.All GroupInv) :
      ((sapi crt).next s c).2.Registered ↔ c.1.MeetsNoNew crt s :=
    (c.1.run_goesWell hs crt c.2).1
  exact Machine.eachStep_iff_of_invariant hstep hiff (SapiState.all_init GroupInv)

instance (log : CallLog) : Decidable log.Registered :=
  inferInstanceAs (Decidable (∀ it ∈ log.read ++ log.write, it.registration ∈ log.registered))

/-- A server that registers items with `addItemsHr` and answers every read. -/
def exampleReplies (addItemsHr : HRESULT) : Replies where
  connect := true
  addGroup := S_OK
  uninit _ := 0xCDCDCDCD
  addItemsHr
  addItems _ n := ⟨S_OK, n + 1⟩
  read its := ⟨S_OK, some fun n => ⟨(its[n]?).elim 0 COPCItem.hClient, 0xC0, ofLong VT_I4 7⟩,
    fun _ => S_OK⟩
  write _ := ⟨S_OK, fun _ => S_OK⟩

/-- The registration fails as a whole; the next read of the same item passes a handle that nobody
has given. -/
theorem not_registered_after_failure :
    ¬ (sapi exampleCrt).EachStep (fun s c => ((sapi exampleCrt).next s c).2.Registered) .init
      [(.read (ascii "C") (ascii "DB1,W0"), exampleReplies (-2147467259)),
        (.read (ascii "C") (ascii "DB1,W0"), exampleReplies S_OK)] := by
  decide +kernel

end OpcS7

end Edps
