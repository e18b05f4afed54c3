import Edps.Lib.Runs
import Edps.OpcS7.Objects

/-!
# References to groups

Every call gets one reference to its group and drops it on all its ways out: three of the entry
points in a `__finally` block, `SAPI_MWrite` before each of its returns.

* `SapiCall.onObjects` : the calls on the objects.
* `Balanced` : every group in `m_pGroupList` has one reference and a name of its own.
* `objects_shows` : the calls on the objects do what `sapi` does on the groups they stand for.
* `references_balance` : the counts are balanced after every call that returns.
-/

namespace Edps

namespace OpcS7

namespace Objects

/-! ### Calls -/

/-- A call on its group, which is released in a `__finally` block.  The count of the group when the
call gets it is returned too. -/
def inGroup (r : ComReplies) (szName : Bytes) (noGroup : ℤ)
    (body : COPCGroup → COPCGroup × CallLog) : ObjectsM (CallLog × Option ℤ) := do
  match ← getOPCGroup r szName with
  | none => return (.done noGroup, none)
  | some p =>
    let x ← object p
    let (g, log) := body x.group
    setObject p { x with group := g }
    release p
    if log.ret = none then throw .raised
    else return (log, some x.nRefCount)

variable (crt : Crt) (r : ComReplies)

/-- `SAPI_Read` -/
def sapiRead (bsConn bsItem : Bytes) : ObjectsM (CallLog × Option ℤ) :=
  inGroup r rdGroupName (-1) (readCall crt r.toReplies bsConn bsItem)

/-- `SAPI_Write` -/
def sapiWrite (bsConn bsItem bsType bsData : Bytes) : ObjectsM (CallLog × Option ℤ) :=
  inGroup r wrGroupName (-1) (writeCall crt r.toReplies bsConn bsItem bsType bsData)

/-- A multiple call on the group of its request. -/
def inRequest (bReadRequest : Bool) (bsParStr : Bytes)
    (body : List CEdpsParam → COPCGroup → COPCGroup × CallLog) : ObjectsM (CallLog × Option ℤ) :=
  match parseRequest crt bsParStr bReadRequest with
  | .error _ => throw .raised
  | .ok params =>
    if params = [] then return (.done (-1), none)
    else
      match szGroupName params with
      | none => throw .raised
      | some szName => inGroup r szName (-2) (body params)

/-- `SAPI_MRead` -/
def sapiMRead (bsParStr : Bytes) : ObjectsM (CallLog × Option ℤ) :=
  inRequest crt r true bsParStr (mreadCall crt r.toReplies)

/-- `SAPI_MWrite`, which has no `__finally` block. -/
def sapiMWrite (bsParStr : Bytes) : ObjectsM (CallLog × Option ℤ) := do
  match parseRequest crt bsParStr false with
  | .error _ => throw .raised
  | .ok params =>
    if params = [] then return (.done (-1), none)
    else
      match szGroupName params with
      | none => throw .raised
      | some szName =>
        match ← getOPCGroup r szName with
        | none => return (.done (-2), none)
        | some p =>
          let x ← object p
          let (g, nRes) := findOrAddItemsToGroup r.toReplies params false x.group
          setObject p { x with group := g }
          if nRes = -2 then
            release p
            return (.done (-4), some x.nRefCount)
          else
            let (g', asked, hr) := g.writeItems r.toReplies
            setObject p { x with group := g' }
            release p
            let ret := if hr = S_FALSE then -6 else if failed hr then -5 else 0
            return (⟨some ret, none, [], asked, g'.registered⟩, some x.nRefCount)

end Objects

/-- One call. -/
def SapiCall.onObjects (crt : Crt) (r : ComReplies) : SapiCall → ObjectsM (CallLog × Option ℤ)
  | .read bsConn bsItem => Objects.sapiRead crt r bsConn bsItem
  | .write bsConn bsItem bsType bsData => Objects.sapiWrite crt r bsConn bsItem bsType bsData
  | .mread bsParStr => Objects.sapiMRead crt r bsParStr
  | .mwrite bsParStr => Objects.sapiMWrite crt r bsParStr

/-- The client, driven by its calls and the answers of the server; `none` once a call has not
returned. -/
def objects (crt : Crt) : Machine (Option Objects) (SapiCall × ComReplies) Unit :=
  ⟨fun s c => (s.bind fun w =>
    match c.1.onObjects crt c.2 w with
    | .ok _ w' => some w'
    | .error _ _ => none, ())⟩

/-- The groups in `m_pGroupList`. -/
def Objects.listed (w : Objects) : List (Option GroupObject) :=
  w.groupList.elim [] fun l => (l.ppOArray.take l.nCount).map fun p => p.bind w.heap.get

/-- Every group in the list has one reference, and no two have one name. -/
def Balanced (w : Objects) : Prop :=
  ∃ groups : List COPCGroup, w.listed = groups.map (fun g => some ⟨1, g⟩) ∧
    (groups.map COPCGroup.name).Nodup

/-- A call goes through no pointer to nothing; when it returns, the counts are balanced, and the
group it got had two references. -/
def KeepsBalance (crt : Crt) (s : Option Objects) (c : SapiCall × ComReplies) : Prop :=
  ∀ w ∈ s, match c.1.onObjects crt c.2 w with
    | .ok (_, held) w' => Balanced w' ∧ ∀ n ∈ held, n = 2
    | .error e _ => e = .raised

theorem Shows.balanced {w : Objects} {s : SapiState} {ps : List ℕ} (h : Shows w s ps) :
    Balanced w := by
  refine ⟨s.groups, ?_, h.names⟩
  rw [← h.groups, Objects.listed]
  cases hlist : w.groupList with
  | none => rw [h.noList hlist]; rfl
  | some l =>
    obtain ⟨hcount, harray, -⟩ := h.list l hlist
    rw [Option.elim_some, hcount, harray, List.map_map]
    rfl

/-! ### What `sapi` makes of a call -/

/-- What `sapi` is told: a group whose constructor fails is not there either. -/
def ComReplies.asReplies (r : ComReplies) : Replies :=
  { r.toReplies with addGroup := if failed r.addGroup then r.addGroup else r.constructed }

theorem ComReplies.failed_addGroup (r : ComReplies) :
    failed r.asReplies.addGroup = (failed r.addGroup || failed r.constructed) := by
  rw [ComReplies.asReplies]
  by_cases h : failed r.addGroup = true
  · rw [if_pos h, h, Bool.true_or]
  · rw [if_neg h, Bool.eq_false_iff.2 h, Bool.false_or]

/-- What a call on the objects comes to, beside what `sapi` makes of it. -/
def Simulates (r : ComReplies) (out : SapiState × CallLog) :
    EStateM.Result Fault Objects (CallLog × Option ℤ) → Prop
  | .ok (log, held) w => (∃ ps, Shows w out.1 ps) ∧ log = out.2 ∧ ∀ n ∈ held, n = 2
  | .error e _ => e = .raised ∧ (out.2.ret = none ∨ r.destroyed = false)

section

variable {w : Objects} {s : SapiState} {ps : List ℕ}

/-- A group is changed, and keeps its name. -/
theorem Shows.update (h : Shows w s ps) {p : ℕ} {g g' : COPCGroup}
    (hp : w.heap.get p = some ⟨1, g⟩) (hname : g'.name = g.name) :
    Shows { w with heap := w.heap.store p ⟨1, g'⟩ }
      { s with groups := Keyed.update COPCGroup.name g.name (fun _ => g') s.groups } ps := by
  have hself : (w.heap.store p ⟨1, g'⟩).get p = some ⟨1, g'⟩ := Heap.get_store_self hp
  refine ⟨h.connected, h.list, h.noList, h.distinct, ?_, fun q x hq => ?_, ?_⟩
  · rw [Keyed.update, List.map_map]
    refine List.ext_getElem? fun n => ?_
    rw [List.getElem?_map, List.getElem?_map]
    cases hn : ps[n]? with
    | none =>
      have hlen := h.length
      rw [List.getElem?_eq_none_iff] at hn
      rw [List.getElem?_eq_none (by omega)]
      rfl
    | some q =>
      obtain ⟨gq, hgq, hget⟩ := h.get hn
      rw [hgq, Option.map_some, Option.map_some, Function.comp_apply]
      by_cases hqp : q = p
      · rw [hqp, hp, Option.some.injEq] at hget
        cases hget
        rw [hqp, hself, if_pos rfl]
      · -- the name is that of one group only
        obtain ⟨m, hm⟩ := List.getElem?_of_mem (h.live p _ hp)
        obtain ⟨gm, hgm, hget'⟩ := h.get hm
        rw [hp, Option.some.injEq] at hget'
        cases hget'
        have hne : gq.name ≠ g.name := by
          intro heq
          have hlt : n < (s.groups.map COPCGroup.name).length := by
            rw [List.length_map]
            exact (List.getElem?_eq_some_iff.1 hgq).1
          have hsame : n = m := (List.getElem?_inj hlt h.names).1 (by
            rw [List.getElem?_map, List.getElem?_map, hgq, hgm, Option.map_some, Option.map_some,
              heq])
          rw [hsame, hm, Option.some.injEq] at hn
          exact hqp hn.symm
        rw [if_neg hne, Heap.get_store_ne hqp, hget]
  · by_cases hqp : q = p
    · exact hqp ▸ h.live p _ hp
    · exact h.live q x ((Heap.get_store_ne hqp).symm.trans hq)
  · rw [Keyed.update, List.map_map]
    refine (List.map_congr_left fun x _ => ?_) ▸ h.names
    simp only [Function.comp_apply]
    split_ifs with hx
    · rw [hname, hx]
    · rfl

/-- **`GetOPCGroup`**, and what `sapi` does with the group. -/
theorem getOPCGroup_cases_objects (h : Shows w s ps) (r : ComReplies) (szName : Bytes) :
    (∃ w₁ p g s₁ ps₁, Shows w₁ s₁ ps₁ ∧ w₁.heap.get p = some ⟨1, g⟩ ∧
        Objects.getOPCGroup r szName w = .ok (some p) (w₁.hold p g) ∧
        ∀ noGroup body, OpcS7.getOPCGroup r.asReplies szName noGroup body s =
          ({ s₁ with groups := Keyed.update COPCGroup.name g.name (fun _ => (body g).1) s₁.groups },
            (body g).2)) ∨
      (∃ w₁ s₁, Shows w₁ s₁ ps ∧ Objects.getOPCGroup r szName w = .ok none w₁ ∧
        ∀ noGroup body, OpcS7.getOPCGroup r.asReplies szName noGroup body s =
          (s₁, .done noGroup)) ∨
      (r.destroyed = false ∧ ∃ w₁, Objects.getOPCGroup r szName w = .error .raised w₁) := by
  set w₀ : Objects := { w with connected := w.connected || r.connect } with hw₀
  set s₀ : SapiState := { s with connected := s.connected || r.connect } with hs₀
  have h₀ : Shows w₀ s₀ ps := ⟨congrArg (· || r.connect) h.connected, h.list, h.noList,
    h.distinct, h.groups, h.live, h.names⟩
  have hset : (modify fun w => { w with connected := w.connected || r.connect } : ObjectsM Unit) w =
      .ok () w₀ := rfl
  rw [Objects.getOPCGroup, bind_of_ok hset, bind_get, h₀.connected]
  simp only [OpcS7.getOPCGroup]
  have hconnect : r.asReplies.connect = r.connect := rfl
  rw [hconnect]
  cases hconn : s.connected || r.connect with
  | false =>
    have hsame : s₀ = s := by
      rw [hs₀, hconn, ← (Bool.or_eq_false_iff.1 hconn).1]
    refine .inr (.inl ⟨w₀, s₀, h₀, ?_, fun noGroup body => ?_⟩)
    · rw [hs₀]
      simp only [hconn]
      rfl
    · rw [hsame]
      rfl
  | true =>
    have hs₀conn : s₀.connected = true := hconn
    simp only [hs₀conn, Bool.not_true, Bool.false_eq_true, if_false]
    rcases Objects.getGroupByName_finds h₀ szName with
      ⟨w₁, p, g, h₁, hget, hg, heq⟩ | ⟨w₁, h₁, hg, heq⟩
    · refine .inl ⟨w₁, p, g, s₀, ps, h₁, hget, ?_, fun noGroup body => ?_⟩
      · rw [bind_of_ok heq]
        rfl
      · rw [SapiState.group?] at hg
        rw [hg, (SapiState.group?_mem hg).2]
        simp only [hs₀, hconn]
    · rw [bind_of_ok heq]
      have hfind := hg
      rw [SapiState.group?] at hfind
      rcases Objects.addGroup_cases h₁ r hg with
        ⟨w₂, p, h₂, hget, hadd, hbuilt, hadded⟩ | ⟨w₂, h₂, hfail, hadded⟩ | ⟨hraise, w₂, hadded⟩
      · refine .inl ⟨w₂, p, _, _, _, h₂, hget, hadded, fun noGroup body => ?_⟩
        have hok : failed r.asReplies.addGroup = false := by
          rw [r.failed_addGroup, hadd, hbuilt]
          rfl
        have hnot : szName ∉ s.groups.map COPCGroup.name := by
          intro hmem
          obtain ⟨g, hg, hname⟩ := List.mem_map.1 hmem
          exact List.find?_eq_none.1 hfind g hg (decide_eq_true hname)
        have hupdate : Keyed.update COPCGroup.name szName (fun _ => (body ⟨szName, [], []⟩).1)
            (s.groups ++ [⟨szName, [], []⟩]) = s.groups ++ [(body ⟨szName, [], []⟩).1] :=
          Keyed.update_concat hnot rfl
        rw [hfind]
        simp only [hok, Bool.false_eq_true, if_false, hs₀, hupdate, hconn]
      · refine .inr (.inl ⟨w₂, s₀, h₂, hadded, fun noGroup body => ?_⟩)
        have hfailed : failed r.asReplies.addGroup = true := by
          rw [r.failed_addGroup, Bool.or_eq_true]
          exact hfail
        rw [hfind]
        simp only [hfailed, if_true, hs₀, hconn]
      · exact .inr (.inr ⟨hraise, w₂, hadded⟩)

/-- **A call on its group.** -/
theorem inGroup_simulates (h : Shows w s ps) (r : ComReplies) (szName : Bytes) (noGroup : ℤ)
    {body : COPCGroup → COPCGroup × CallLog} (hbody : ∀ g, (body g).1.name = g.name) :
    Simulates r (getOPCGroup r.asReplies szName noGroup body s)
      (Objects.inGroup r szName noGroup body w) := by
  rw [Objects.inGroup]
  rcases getOPCGroup_cases_objects h r szName with
    ⟨w₁, p, g, s₁, ps₁, h₁, hget, hgot, hout⟩ | ⟨w₁, s₁, h₁, hgot, hout⟩ | ⟨hraise, w₁, hgot⟩
  · have hself : (w₁.hold p g).heap.get p = some ⟨2, g⟩ := Heap.get_store_self hget
    have hname := hbody g
    rw [bind_of_ok hgot, hout]
    simp only
    rw [bind_of_ok (Objects.object_eq hself)]
    simp only
    rw [bind_of_ok (Objects.setObject_hold w₁ p g _), bind_of_ok (Objects.release_changed hget)]
    split_ifs with hret
    · exact ⟨rfl, .inl hret⟩
    · refine ⟨⟨_, h₁.update hget hname⟩, rfl, ?_⟩
      rintro n ⟨rfl⟩
      rfl
  · rw [bind_of_ok hgot, hout]
    exact ⟨⟨_, h₁⟩, rfl, fun n hn => by cases hn⟩
  · rw [bind_of_error hgot]
    exact ⟨rfl, .inr hraise⟩

end

/-! ### The names of the groups -/

theorem name_findOrAddSingle (crt : Crt) (r : Replies) (szItemID : Bytes) (g : COPCGroup) :
    (findOrAddSingle crt r szItemID g).1.name = g.name := by
  unfold findOrAddSingle
  split
  · split_ifs
    · rfl
    · simp only
      split_ifs <;> exact name_addItems g r
  · simp only
    split_ifs <;> exact name_addItems (g.newItem r szItemID (g.items.length + 1)) r

theorem name_initItems (bSet2Read : Bool) (g : COPCGroup) (params : List CEdpsParam) :
    (initItems bSet2Read g params).name = g.name := by
  induction params generalizing g with
  | nil => rfl
  | cons p params ih =>
    have hone (f : COPCItem → COPCItem) :
        ((getItem g.items p.dwParID).elim g (g.modifyItem f)).name = g.name := by
      cases getItem g.items p.dwParID <;> rfl
    rw [initItems, List.foldl_cons, ← initItems, ih]
    cases bSet2Read with
    | true => exact hone _
    | false => exact hone _

theorem name_findOrAddItems (r : Replies) (params : List CEdpsParam) (bSet2Read : Bool)
    (g : COPCGroup) : (findOrAddItemsToGroup r params bSet2Read g).1.name = g.name := by
  have hmissing := (addMissing_frame r g params).1
  unfold findOrAddItemsToGroup
  simp only
  split_ifs
  · rw [name_initItems, hmissing]
  · rw [name_addItems, hmissing]
  · rw [name_initItems, name_addItems, hmissing]
  · rw [name_initItems, name_addItems, hmissing]

theorem name_readCall (crt : Crt) (r : Replies) (bsConn bsItem : Bytes) (g : COPCGroup) :
    (readCall crt r bsConn bsItem g).1.name = g.name := by
  have hname := name_findOrAddSingle crt r (itemName (cstr bsConn) (cstr bsItem)) g
  cases hfind : findOrAddSingle crt r (itemName (cstr bsConn) (cstr bsItem)) g with
  | mk g₁ res =>
    rw [hfind] at hname
    cases res with
    | error e => rwa [readCall_error hfind]
    | ok p =>
      obtain ⟨g₂, rfl, hgroup, -⟩ := readCall_ok hfind
      rw [hgroup, (readItems_frame _ r).1]
      exact hname

theorem name_writeCall (crt : Crt) (r : Replies) (bsConn bsItem bsType bsData : Bytes)
    (g : COPCGroup) : (writeCall crt r bsConn bsItem bsType bsData g).1.name = g.name := by
  have hname := name_findOrAddSingle crt r (itemName (cstr bsConn) (cstr bsItem)) g
  rcases writeCall_cases crt r bsConn bsItem bsType bsData g with
    heq | ⟨g₁, p, g₂, ret, hfind, -, rfl, heq⟩
  · rw [heq]
    exact hname
  · rw [heq, (writeItems_frame _ r).1]
    rw [hfind] at hname
    exact hname

theorem name_mreadCall (crt : Crt) (r : Replies) (params : List CEdpsParam) (g : COPCGroup) :
    (mreadCall crt r params g).1.name = g.name := by
  have hname := name_findOrAddItems r params true g
  cases hfind : findOrAddItemsToGroup r params true g with
  | mk g₁ n =>
    rw [hfind] at hname
    by_cases hn : n = -2
    · rw [mreadCall_error (hn ▸ hfind)]
      exact hname
    · rw [(mreadCall_ok crt hfind hn).1, (readItems_frame g₁ r).1]
      exact hname

theorem name_mwriteCall (r : Replies) (params : List CEdpsParam) (g : COPCGroup) :
    (mwriteCall r params g).1.name = g.name := by
  have hname := name_findOrAddItems r params false g
  cases hfind : findOrAddItemsToGroup r params false g with
  | mk g₁ n =>
    rw [hfind] at hname
    by_cases hn : n = -2
    · rw [mwriteCall_error (hn ▸ hfind)]
      exact hname
    · rw [(mwriteCall_ok hfind hn).1, (writeItems_frame g₁ r).1]
      exact hname

/-- **`SAPI_MWrite`** drops its reference on each of its ways out, as the others do in their
`__finally` blocks. -/
theorem sapiMWrite_eq (crt : Crt) (r : ComReplies) (bsParStr : Bytes) :
    Objects.sapiMWrite crt r bsParStr =
      Objects.inRequest crt r false bsParStr (mwriteCall r.toReplies) := by
  have htwice (p : ℕ) (x y : GroupObject) (k : Unit → ObjectsM (CallLog × Option ℤ)) :
      (Objects.setObject p x >>= fun _ => Objects.setObject p y >>= k) =
        Objects.setObject p y >>= k := by
    funext w
    have hstore : (w.heap.store p x).store p y = w.heap.store p y := Heap.store_store
    exact congrArg (fun heap => k () { w with heap }) hstore
  rw [Objects.sapiMWrite, Objects.inRequest]
  cases parseRequest crt bsParStr false with
  | error e => rfl
  | ok params =>
    simp only
    split_ifs with hnil
    · rfl
    · cases szGroupName params with
      | none => rfl
      | some szName =>
        simp only [Objects.inGroup]
        refine congrArg (Objects.getOPCGroup r szName >>= ·) (funext fun p => ?_)
        cases p with
        | none => rfl
        | some p =>
          refine congrArg (Objects.object p >>= ·) (funext fun x => ?_)
          rw [mwriteCall]
          cases findOrAddItemsToGroup r.toReplies params false x.group with
          | mk g nRes =>
            by_cases hres : nRes = -2
            · simp only [if_pos hres]
              rfl
            · simp only [if_neg hres]
              rw [htwice]
              rfl

/-! ### Runs -/

/-- A multiple call. -/
theorem inRequest_simulates {w : Objects} {s : SapiState} {ps : List ℕ} (h : Shows w s ps)
    (crt : Crt) (r : ComReplies) (bReadRequest : Bool) (bsParStr : Bytes)
    {body : List CEdpsParam → COPCGroup → COPCGroup × CallLog}
    (hbody : ∀ params g, (body params g).1.name = g.name) :
    Simulates r (multiCall crt r.asReplies bReadRequest bsParStr body s)
      (Objects.inRequest crt r bReadRequest bsParStr body w) := by
  rw [multiCall, Objects.inRequest]
  cases parseRequest crt bsParStr bReadRequest with
  | error e => exact ⟨rfl, .inl rfl⟩
  | ok params =>
    simp only
    split_ifs with hnil
    · exact ⟨⟨ps, h⟩, rfl, fun n hn => by cases hn⟩
    · cases szGroupName params with
      | none => exact ⟨rfl, .inl rfl⟩
      | some szName => exact inGroup_simulates h r szName _ (hbody params)

/-- **One call** on the objects is one of `sapi` on the groups they stand for. -/
theorem SapiCall.simulates {w : Objects} {s : SapiState} {ps : List ℕ} (h : Shows w s ps)
    (crt : Crt) (call : SapiCall) (r : ComReplies) :
    Simulates r (call.run crt r.asReplies s) (call.onObjects crt r w) := by
  cases call with
  | read bsConn bsItem => exact inGroup_simulates h r _ _ (name_readCall crt _ bsConn bsItem)
  | write bsConn bsItem bsType bsData =>
    exact inGroup_simulates h r _ _ (name_writeCall crt _ bsConn bsItem bsType bsData)
  | mread bsParStr => exact inRequest_simulates h crt r true bsParStr (name_mreadCall crt _)
  | mwrite bsParStr =>
    have hsim := inRequest_simulates h crt r false bsParStr (name_mwriteCall r.toReplies)
    rw [← sapiMWrite_eq] at hsim
    exact hsim

theorem after_none (crt : Crt) (calls : List (SapiCall × ComReplies)) :
    (objects crt).after none calls = none := by
  induction calls with
  | nil => rfl
  | cons c calls ih => exact ih

/-- **The objects refine the list of groups**: as long as every call returns, they show what `sapi`
has after the same calls. -/
theorem objects_shows {crt : Crt} {s : SapiState} {w w' : Objects} {ps : List ℕ}
    (h : Shows w s ps) {calls : List (SapiCall × ComReplies)}
    (hw : (objects crt).after (some w) calls = some w') :
    ∃ ps', Shows w' ((sapi crt).after s (calls.map fun c => (c.1, c.2.asReplies))) ps' := by
  induction calls generalizing w s ps with
  | nil =>
    cases hw
    exact ⟨ps, h⟩
  | cons c calls ih =>
    have hsim := SapiCall.simulates h crt c.1 c.2
    have hnext : (objects crt).next (some w) c = ((match c.1.onObjects crt c.2 w with
      | .ok _ w₁ => some w₁
      | .error _ _ => none), ()) := rfl
    rw [Machine.after_cons, hnext] at hw
    cases hcall : c.1.onObjects crt c.2 w with
    | ok out w₁ =>
      rw [hcall] at hsim hw
      obtain ⟨⟨ps₁, h₁⟩, -, -⟩ := hsim
      exact ih h₁ hw
    | error e w₁ =>
      rw [hcall, after_none] at hw
      cases hw

/-- The objects, as long as no call has ended in an exception, show a client. -/
def ShowsSome (o : Option Objects) : Prop := ∀ w ∈ o, ∃ s ps, Shows w s ps

/-- **Reference counts balance.**  In every run, each call that returns leaves every group of the
list with one reference and a name of its own, and the group it worked on had two. -/
theorem references_balance (crt : Crt) (calls : List (SapiCall × ComReplies)) :
    (objects crt).EachStep (KeepsBalance crt) (some .init) calls := by
  have hstep (o : Option Objects) (c : SapiCall × ComReplies)
      (ho : ShowsSome o) : KeepsBalance crt o c ∧ ShowsSome ((objects crt).next o c).1 := by
    cases o with
    | none => exact ⟨fun w hw => (by cases hw), fun w hw => (by cases hw)⟩
    | some w =>
      obtain ⟨s, ps, h⟩ := ho w rfl
      have hsim := SapiCall.simulates h crt c.1 c.2
      have hnext : ((objects crt).next (some w) c).1 = match c.1.onObjects crt c.2 w with
        | .ok _ w₁ => some w₁
        | .error _ _ => none := rfl
      rw [hnext]
      cases hcall : c.1.onObjects crt c.2 w with
      | ok out w₁ =>
        rw [hcall] at hsim
        obtain ⟨⟨ps₁, h₁⟩, -, hheld⟩ := hsim
        refine ⟨fun w' hw' => ?_, fun w' hw' => ?_⟩
        · cases hw'
          rw [hcall]
          exact ⟨h₁.balanced, hheld⟩
        · cases hw'
          exact ⟨_, ps₁, h₁⟩
      | error e w₁ =>
        rw [hcall] at hsim
        refine ⟨fun w' hw' => ?_, fun w' hw' => (by cases hw')⟩
        cases hw'
        rw [hcall]
        exact hsim.1
  have hinit : ShowsSome (some .init) := by
    rintro - ⟨rfl⟩
    exact ⟨_, _, shows_init⟩
  exact Machine.eachStep_of_invariant (fun o c ho _ => (hstep o c ho).2)
    (fun o c ho _ => (hstep o c ho).1) hinit
    (Machine.eachStep_of_forall (P := fun _ => True) fun _ _ => trivial)

end OpcS7

end Edps
