import Edps.Lib.Runs
import Edps.OpcS7.Group
import Edps.OpcS7.GroupNames

/-!
# The SAPI calls

`SAPI_Read` and `SAPI_Write` work on one item of a fixed group, `SAPI_MRead` and `SAPI_MWrite` on
a group named after their request.  The groups stay for the later calls.

* `getOPCGroup` : the group of a call, connected and added when it is not there.
* `readCall`, `writeCall`, `mreadCall`, `mwriteCall` : the calls on their group.
* `sapi` : the client as a machine, one call a step.
-/

namespace Edps

namespace OpcS7

/-- The client between two calls: `g_bMainServer` and `m_pGroupList`. -/
structure SapiState where
  connected : Bool
  groups : List COPCGroup
  deriving DecidableEq, Repr

/-- What a call did: what it returned (`none` where its behaviour is undefined), the data it gave
back, the items whose handles it passed to `Read` and to `Write`, and what the server had
registered in the group at that time. -/
structure CallLog where
  ret : Option ℤ
  data : Option Bytes
  read : List COPCItem
  write : List COPCItem
  registered : List Registration
  deriving DecidableEq, Repr

/-- A call that came to no `Read` or `Write`. -/
def CallLog.done (ret : ℤ) : CallLog := ⟨some ret, none, [], [], []⟩

/-- A call whose behaviour is undefined before it comes to a `Read` or `Write`. -/
def CallLog.undefined : CallLog := ⟨none, none, [], [], []⟩

/-- The calls, with the arguments that are used. -/
inductive SapiCall where
  | read (bsConn bsItem : Bytes)
  | write (bsConn bsItem bsType bsData : Bytes)
  | mread (bsParStr : Bytes)
  | mwrite (bsParStr : Bytes)
  deriving DecidableEq, Repr

def rdGroupName : Bytes := ascii "EDPS.ReadGp"

def wrGroupName : Bytes := ascii "EDPS.WriteGp"

variable (crt : Crt) (r : Replies)

/-! ### The calls on their group -/

/-- `SAPI_Read` -/
def readCall (bsConn bsItem : Bytes) (g : COPCGroup) : COPCGroup × CallLog :=
  match findOrAddSingle crt r (itemName (cstr bsConn) (cstr bsItem)) g with
  | (g, .error _) => (g, .done (-4))
  | (g, .ok p) =>
    let (g, asked, hr) := (g.modifyItem COPCItem.itemForRead p).readItems r
    let log (ret : Option ℤ) (data : Option Bytes) : CallLog := ⟨ret, data, asked, [], g.registered⟩
    match hr with
    | none => (g, log (some (-10)) none)
    | some hr =>
      if failed hr then (g, log (some (-5)) none)
      else
        match getValueVariant crt 80 g.items[p]? with
        | none => (g, log none none)
        | some (text, good) =>
          (g, if good then log (some 0) (some text) else log (some (-5)) none)

/-- `SAPI_Write` -/
def writeCall (bsConn bsItem bsType bsData : Bytes) (g : COPCGroup) : COPCGroup × CallLog :=
  match findOrAddSingle crt r (itemName (cstr bsConn) (cstr bsItem)) g with
  | (g, .error _) => (g, .done (-4))
  | (g, .ok p) =>
    let (val, typed) := typedValue crt (cstr bsType) (cstr bsData)
    if !typed then (g, .done (-4))
    else
      let (g, asked, hr) := (g.modifyItem (COPCItem.itemForWrite val) p).writeItems r
      (g, ⟨some (if failed hr ∨ hr = S_FALSE then -6 else 0), none, [], asked, g.registered⟩)

/-- `SAPI_MRead` of a parsed request. -/
def mreadCall (params : List CEdpsParam) (g : COPCGroup) : COPCGroup × CallLog :=
  let (g, nRes) := findOrAddItemsToGroup r params true g
  if nRes = -2 then (g, .done (-4))
  else
    let (g, asked, hr) := g.readItems r
    let log (ret : Option ℤ) (data : Option Bytes) : CallLog := ⟨ret, data, asked, [], g.registered⟩
    match hr with
    | none => (g, log (some (-10)) none)
    | some hr =>
      if failed hr then (g, log (some (-5)) none)
      else
        match getMReadResult crt g.items params with
        | none => (g, log none none)
        | some (text, dwRead) =>
          (g, if dwRead = 0 then log (some (-6)) none else log (some 0) (some text))

/-- `SAPI_MWrite` of a parsed request. -/
def mwriteCall (params : List CEdpsParam) (g : COPCGroup) : COPCGroup × CallLog :=
  let (g, nRes) := findOrAddItemsToGroup r params false g
  if nRes = -2 then (g, .done (-4))
  else
    let (g, asked, hr) := g.writeItems r
    let ret := if hr = S_FALSE then -6 else if failed hr then -5 else 0
    (g, ⟨some ret, none, [], asked, g.registered⟩)

/-! ### Groups -/

/-- `GetOPCGroup` around what a call does on its group.  Without a group the call returns
`noGroup`. -/
def getOPCGroup (szName : Bytes) (noGroup : ℤ) (body : COPCGroup → COPCGroup × CallLog)
    (s : SapiState) : SapiState × CallLog :=
  let connected := s.connected || r.connect
  if !connected then (s, .done noGroup)
  else
    match s.groups.find? fun g => g.name = szName with
    | some g =>
      let (g', log) := body g
      (⟨connected, Keyed.update COPCGroup.name szName (fun _ => g') s.groups⟩, log)
    | none =>
      if failed r.addGroup then (⟨connected, s.groups⟩, .done noGroup)
      else
        let (g, log) := body ⟨szName, [], []⟩
        (⟨connected, s.groups ++ [g]⟩, log)

/-- A multiple call, once its request is parsed and its group named. -/
def multiCall (bReadRequest : Bool) (bsParStr : Bytes)
    (body : List CEdpsParam → COPCGroup → COPCGroup × CallLog) (s : SapiState) :
    SapiState × CallLog :=
  match parseRequest crt bsParStr bReadRequest with
  | .error _ => (s, .undefined)
  | .ok params =>
    if params = [] then (s, .done (-1))
    else
      match szGroupName params with
      | none => (s, .undefined)
      | some szName => getOPCGroup r szName (-2) (body params) s

/-- One call. -/
def SapiCall.run (call : SapiCall) (s : SapiState) : SapiState × CallLog :=
  match call with
  | .read bsConn bsItem => getOPCGroup r rdGroupName (-1) (readCall crt r bsConn bsItem) s
  | .write bsConn bsItem bsType bsData =>
    getOPCGroup r wrGroupName (-1) (writeCall crt r bsConn bsItem bsType bsData) s
  | .mread bsParStr => multiCall crt r true bsParStr (mreadCall crt r) s
  | .mwrite bsParStr => multiCall crt r false bsParStr (mwriteCall r) s

/-- The client, driven by its calls and the answers of the server. -/
def sapi : Machine SapiState (SapiCall × Replies) CallLog := ⟨fun s c => c.1.run crt c.2 s⟩

/-- The client after the library was loaded. -/
def SapiState.init : SapiState := ⟨false, []⟩

/-! ### What the calls do on their group -/

variable {crt r}

theorem readCall_error {bsConn bsItem : Bytes} {g g₁ : COPCGroup} {e : ℤ}
    (h : findOrAddSingle crt r (itemName (cstr bsConn) (cstr bsItem)) g = (g₁, .error e)) :
    readCall crt r bsConn bsItem g = (g₁, .done (-4)) := by
  rw [readCall, h]

/-- A read whose item is there reads the chosen items. -/
theorem readCall_ok {bsConn bsItem : Bytes} {g g₁ : COPCGroup} {p : ℕ}
    (h : findOrAddSingle crt r (itemName (cstr bsConn) (cstr bsItem)) g = (g₁, .ok p)) :
    ∃ g₂, g₂ = g₁.modifyItem COPCItem.itemForRead p ∧
      (readCall crt r bsConn bsItem g).1 = (g₂.readItems r).1 ∧
      ∃ ret data, (readCall crt r bsConn bsItem g).2 =
        ⟨ret, data, g₂.items.filter (chosen2Read false), [], g₁.registered⟩ := by
  set g₂ := g₁.modifyItem COPCItem.itemForRead p with hg₂
  obtain ⟨-, hreg, hasked, -⟩ := readItems_frame g₂ r
  refine ⟨g₂, rfl, ?_⟩
  suffices hlog : (readCall crt r bsConn bsItem g).1 = (g₂.readItems r).1 ∧
      ∃ ret data, (readCall crt r bsConn bsItem g).2 =
        ⟨ret, data, (g₂.readItems r).2.1, [], (g₂.readItems r).1.registered⟩ by
    rwa [hasked, hreg] at hlog
  rw [readCall, h]
  simp only [← hg₂]
  split
  · exact ⟨rfl, _, _, rfl⟩
  · split_ifs
    · exact ⟨rfl, _, _, rfl⟩
    · split
      · exact ⟨rfl, _, _, rfl⟩
      · split_ifs <;> exact ⟨rfl, _, _, rfl⟩

theorem writeCall_error {bsConn bsItem bsType bsData : Bytes} {g g₁ : COPCGroup} {e : ℤ}
    (h : findOrAddSingle crt r (itemName (cstr bsConn) (cstr bsItem)) g = (g₁, .error e)) :
    writeCall crt r bsConn bsItem bsType bsData g = (g₁, .done (-4)) := by
  rw [writeCall, h]

/-- A write of a value that cannot be typed does nothing more. -/
theorem writeCall_untyped {bsConn bsItem bsType bsData : Bytes} {g g₁ : COPCGroup} {p : ℕ}
    (h : findOrAddSingle crt r (itemName (cstr bsConn) (cstr bsItem)) g = (g₁, .ok p))
    (htyped : (typedValue crt (cstr bsType) (cstr bsData)).2 = false) :
    writeCall crt r bsConn bsItem bsType bsData g = (g₁, .done (-4)) := by
  simp [writeCall, h, htyped]

/-- A write whose item is there writes the chosen items. -/
theorem writeCall_ok {bsConn bsItem bsType bsData : Bytes} {g g₁ : COPCGroup} {p : ℕ}
    (h : findOrAddSingle crt r (itemName (cstr bsConn) (cstr bsItem)) g = (g₁, .ok p))
    (htyped : (typedValue crt (cstr bsType) (cstr bsData)).2 = true) :
    ∃ g₂, g₂ = g₁.modifyItem
        (COPCItem.itemForWrite (typedValue crt (cstr bsType) (cstr bsData)).1) p ∧
      (writeCall crt r bsConn bsItem bsType bsData g).1 = (g₂.writeItems r).1 ∧
      ∃ ret, (writeCall crt r bsConn bsItem bsType bsData g).2 =
        ⟨ret, none, [], g₂.items.filter chosen2Write, g₁.registered⟩ := by
  set g₂ := g₁.modifyItem
    (COPCItem.itemForWrite (typedValue crt (cstr bsType) (cstr bsData)).1) p with hg₂
  obtain ⟨-, hreg, hasked, -⟩ := writeItems_frame g₂ r
  refine ⟨g₂, rfl, ?_⟩
  suffices hlog : (writeCall crt r bsConn bsItem bsType bsData g).1 = (g₂.writeItems r).1 ∧
      ∃ ret, (writeCall crt r bsConn bsItem bsType bsData g).2 =
        ⟨ret, none, [], (g₂.writeItems r).2.1, (g₂.writeItems r).1.registered⟩ by
    rwa [hasked, hreg] at hlog
  rw [writeCall, h]
  simp only [htyped, Bool.not_true, Bool.false_eq_true, if_false, ← hg₂]
  exact ⟨trivial, _, rfl⟩

/-- **What a single write does**: only the search, or the write of the chosen items after it. -/
theorem writeCall_cases (crt : Crt) (r : Replies) (bsConn bsItem bsType bsData : Bytes)
    (g : COPCGroup) :
    writeCall crt r bsConn bsItem bsType bsData g =
        ((findOrAddSingle crt r (itemName (cstr bsConn) (cstr bsItem)) g).1, .done (-4)) ∨
      ∃ g₁ p g₂ ret, findOrAddSingle crt r (itemName (cstr bsConn) (cstr bsItem)) g = (g₁, .ok p) ∧
        (typedValue crt (cstr bsType) (cstr bsData)).2 = true ∧
        g₂ = g₁.modifyItem
          (COPCItem.itemForWrite (typedValue crt (cstr bsType) (cstr bsData)).1) p ∧
        writeCall crt r bsConn bsItem bsType bsData g =
          ((g₂.writeItems r).1, ⟨ret, none, [], g₂.items.filter chosen2Write, g₁.registered⟩) := by
  rcases hfind : findOrAddSingle crt r (itemName (cstr bsConn) (cstr bsItem)) g with ⟨g₁, e | p⟩
  · exact .inl (writeCall_error hfind)
  · cases htyped : (typedValue crt (cstr bsType) (cstr bsData)).2 with
    | false => exact .inl (writeCall_untyped hfind htyped)
    | true =>
      obtain ⟨g₂, hg₂, hgroup, ret, hlog⟩ := writeCall_ok hfind htyped
      exact .inr ⟨g₁, p, g₂, ret, rfl, rfl, hg₂, Prod.ext hgroup hlog⟩

theorem mreadCall_error {params : List CEdpsParam} {g g₁ : COPCGroup}
    (h : findOrAddItemsToGroup r params true g = (g₁, -2)) :
    mreadCall crt r params g = (g₁, .done (-4)) := by
  rw [mreadCall, h]
  rfl

/-- A multiple read reads the chosen items. -/
theorem mreadCall_ok (crt : Crt) {params : List CEdpsParam} {g g₁ : COPCGroup} {n : ℤ}
    (h : findOrAddItemsToGroup r params true g = (g₁, n)) (hn : n ≠ -2) :
    (mreadCall crt r params g).1 = (g₁.readItems r).1 ∧
      ∃ ret data, (mreadCall crt r params g).2 =
        ⟨ret, data, g₁.items.filter (chosen2Read false), [], g₁.registered⟩ := by
  obtain ⟨-, hreg, hasked, -⟩ := readItems_frame g₁ r
  suffices hlog : (mreadCall crt r params g).1 = (g₁.readItems r).1 ∧
      ∃ ret data, (mreadCall crt r params g).2 =
        ⟨ret, data, (g₁.readItems r).2.1, [], (g₁.readItems r).1.registered⟩ by
    rwa [hasked, hreg] at hlog
  rw [mreadCall, h]
  simp only [if_neg hn]
  split
  · exact ⟨rfl, _, _, rfl⟩
  · split_ifs
    · exact ⟨rfl, _, _, rfl⟩
    · split
      · exact ⟨rfl, _, _, rfl⟩
      · split_ifs <;> exact ⟨rfl, _, _, rfl⟩

/-- What a multiple read of a server that answers returns. -/
theorem mreadCall_ret {params : List CEdpsParam} {g g₁ : COPCGroup} {n : ℤ}
    (h : findOrAddItemsToGroup r params true g = (g₁, n)) (hn : n ≠ -2) {hr : HRESULT}
    (hhr : (g₁.readItems r).2.2 = some hr) (hok : failed hr = false) :
    (mreadCall crt r params g).2.ret =
      (getMReadResult crt (g₁.readItems r).1.items params).map fun res =>
        if res.2 = 0 then -6 else 0 := by
  rw [mreadCall, h]
  simp only [if_neg hn, hhr, hok]
  cases hres : getMReadResult crt (g₁.readItems r).1.items params with
  | none => rfl
  | some res =>
    obtain ⟨text, dwRead⟩ := res
    by_cases hread : dwRead = 0 <;> simp [hread]

/-- What a multiple read returns with its data. -/
theorem mreadCall_data {params : List CEdpsParam} {g g₁ : COPCGroup} {n : ℤ}
    (h : findOrAddItemsToGroup r params true g = (g₁, n)) (hn : n ≠ -2)
    (hret : (mreadCall crt r params g).2.ret = some 0) :
    ∃ text dwRead, getMReadResult crt (g₁.readItems r).1.items params = some (text, dwRead) ∧
      (mreadCall crt r params g).2.data = some text := by
  rw [mreadCall, h] at hret ⊢
  simp only [if_neg hn] at hret ⊢
  cases hhr : (g₁.readItems r).2.2 with
  | none =>
    simp only [hhr] at hret
    exact absurd hret (by decide)
  | some hr =>
    by_cases hfail : failed hr = true
    · simp only [hhr, if_pos hfail] at hret
      exact absurd hret (by decide)
    · simp only [hhr, if_neg hfail] at hret ⊢
      -- only the end of the call returns 0
      cases hres : getMReadResult crt (g₁.readItems r).1.items params with
      | none =>
        simp only [hres] at hret
        cases hret
      | some res =>
        obtain ⟨text, dwRead⟩ := res
        by_cases hread : dwRead = 0
        · simp only [hres, if_pos hread] at hret
          exact absurd hret (by decide)
        · simp only [if_neg hread]
          exact ⟨text, dwRead, rfl, rfl⟩

theorem mwriteCall_error {params : List CEdpsParam} {g g₁ : COPCGroup}
    (h : findOrAddItemsToGroup r params false g = (g₁, -2)) :
    mwriteCall r params g = (g₁, .done (-4)) := by
  rw [mwriteCall, h]
  rfl

/-- A multiple write writes the chosen items. -/
theorem mwriteCall_ok {params : List CEdpsParam} {g g₁ : COPCGroup} {n : ℤ}
    (h : findOrAddItemsToGroup r params false g = (g₁, n)) (hn : n ≠ -2) :
    (mwriteCall r params g).1 = (g₁.writeItems r).1 ∧
      ∃ ret, (mwriteCall r params g).2 =
        ⟨ret, none, [], g₁.items.filter chosen2Write, g₁.registered⟩ := by
  obtain ⟨-, hreg, hasked, -⟩ := writeItems_frame g₁ r
  suffices hlog : (mwriteCall r params g).1 = (g₁.writeItems r).1 ∧
      ∃ ret, (mwriteCall r params g).2 =
        ⟨ret, none, [], (g₁.writeItems r).2.1, (g₁.writeItems r).1.registered⟩ by
    rwa [hasked, hreg] at hlog
  rw [mwriteCall, h]
  simp only [if_neg hn]
  exact ⟨trivial, _, rfl⟩

/-! ### Rules for the groups -/

/-- Every group of the client satisfies `I`; their names are distinct, and there are none before
the connection. -/
structure SapiState.All (I : COPCGroup → Prop) (s : SapiState) : Prop where
  names : (s.groups.map COPCGroup.name).Nodup
  connected : s.groups ≠ [] → s.connected = true
  groups : ∀ g ∈ s.groups, I g

theorem SapiState.all_init (I : COPCGroup → Prop) : SapiState.init.All I :=
  ⟨List.nodup_nil, fun h => absurd rfl h, fun _ h => by cases h⟩

/-- The group of a call, before it. -/
def SapiState.group? (s : SapiState) (szName : Bytes) : Option COPCGroup :=
  s.groups.find? fun g => g.name = szName

theorem SapiState.group?_mem {s : SapiState} {szName : Bytes} {g : COPCGroup}
    (h : s.group? szName = some g) : g ∈ s.groups ∧ g.name = szName :=
  ⟨List.mem_of_find?_eq_some h, by simpa using List.find?_some h⟩

/-- **The group of a call**: none, one that is there, or a new one. -/
theorem getOPCGroup_cases {I : COPCGroup → Prop} {s : SapiState} (hs : s.All I) (szName : Bytes)
    (noGroup : ℤ) (body : COPCGroup → COPCGroup × CallLog) :
    (s.group? szName = none ∧ (getOPCGroup r szName noGroup body s).1.groups = s.groups ∧
        (getOPCGroup r szName noGroup body s).2 = .done noGroup) ∨
      (∃ g, s.group? szName = some g ∧
        (getOPCGroup r szName noGroup body s).1.groups =
          Keyed.update COPCGroup.name szName (fun _ => (body g).1) s.groups ∧
        (getOPCGroup r szName noGroup body s).2 = (body g).2) ∨
      (s.group? szName = none ∧
        (getOPCGroup r szName noGroup body s).1.groups = s.groups ++ [(body ⟨szName, [], []⟩).1] ∧
        (getOPCGroup r szName noGroup body s).1.connected = true ∧
        (getOPCGroup r szName noGroup body s).2 = (body ⟨szName, [], []⟩).2) := by
  unfold getOPCGroup
  simp only
  by_cases hconn : (!(s.connected || r.connect)) = true
  · simp only [if_pos hconn]
    refine .inl ⟨?_, trivial, trivial⟩
    -- a group is only there after a connection
    have hgroups : s.groups = [] := by
      by_contra hne
      rw [hs.connected hne] at hconn
      simp at hconn
    rw [SapiState.group?, hgroups]
    rfl
  · simp only [if_neg hconn]
    cases hg : s.group? szName with
    | some g =>
      rw [SapiState.group?] at hg
      rw [hg]
      exact .inr (.inl ⟨g, rfl, rfl, rfl⟩)
    | none =>
      rw [SapiState.group?] at hg
      rw [hg]
      by_cases hadd : failed r.addGroup = true
      · simp only [if_pos hadd]
        exact .inl ⟨trivial, trivial, trivial⟩
      · simp only [if_neg hadd]
        have hconn : (s.connected || r.connect) = true := by
          cases h : s.connected || r.connect with
          | true => rfl
          | false => exact absurd (by rw [h]; rfl) hconn
        exact .inr (.inr ⟨trivial, trivial, hconn, trivial⟩)

/-- What a call does whose group is there or is added. -/
theorem getOPCGroup_log {s : SapiState} (hconn : r.connect = true)
    (hadd : failed r.addGroup = false) (szName : Bytes) (noGroup : ℤ)
    (body : COPCGroup → COPCGroup × CallLog) :
    (getOPCGroup r szName noGroup body s).2 =
      (body ((s.group? szName).getD ⟨szName, [], []⟩)).2 := by
  unfold getOPCGroup
  simp only [hconn, Bool.or_true, Bool.not_true, Bool.false_eq_true, if_false]
  unfold SapiState.group?
  cases s.groups.find? fun g => g.name = szName with
  | some g => rfl
  | none => simp [hadd]

/-- The groups after a call whose group is there or is added. -/
theorem group?_getOPCGroup {s : SapiState} (hconn : r.connect = true)
    (hadd : failed r.addGroup = false) (szName : Bytes) (noGroup : ℤ)
    {body : COPCGroup → COPCGroup × CallLog}
    (hname : (body ((s.group? szName).getD ⟨szName, [], []⟩)).1.name = szName) (szName' : Bytes) :
    (getOPCGroup r szName noGroup body s).1.group? szName' =
      if szName' = szName then some (body ((s.group? szName).getD ⟨szName, [], []⟩)).1
      else s.group? szName' := by
  unfold getOPCGroup
  simp only [hconn, Bool.or_true, Bool.not_true, Bool.false_eq_true, if_false]
  unfold SapiState.group? at hname ⊢
  cases hg : s.groups.find? fun g => g.name = szName with
  | some g =>
    rw [hg] at hname
    simp only [Option.getD_some] at hname ⊢
    rw [Keyed.find?_update (fun _ => hname), hg]
    rfl
  | none =>
    rw [hg] at hname
    simp only [hadd, Bool.false_eq_true, if_false, Option.getD_none] at hname ⊢
    rw [List.find?_append]
    by_cases hk : szName' = szName
    · subst hk
      simp [hg, hname]
    · simp [hname, Ne.symm hk, hk]

theorem connected_getOPCGroup {s : SapiState} (h : s.connected = true) (szName : Bytes)
    (noGroup : ℤ) (body : COPCGroup → COPCGroup × CallLog) :
    (getOPCGroup r szName noGroup body s).1.connected = true := by
  unfold getOPCGroup
  simp only [h, Bool.true_or, Bool.not_true, Bool.false_eq_true, if_false]
  split
  · rfl
  · split_ifs <;> rfl

/-- **A call keeps what its body keeps.** -/
theorem SapiState.All.getOPCGroup {I : COPCGroup → Prop} {s : SapiState} (hs : s.All I)
    {szName : Bytes} {noGroup : ℤ} {body : COPCGroup → COPCGroup × CallLog}
    (hfound : ∀ g, s.group? szName = some g → (body g).1.name = szName ∧ I (body g).1)
    (hnew : s.group? szName = none →
      (body ⟨szName, [], []⟩).1.name = szName ∧ I (body ⟨szName, [], []⟩).1) :
    (OpcS7.getOPCGroup r szName noGroup body s).1.All I := by
  have hconn : s.groups ≠ [] → (OpcS7.getOPCGroup r szName noGroup body s).1.connected = true :=
    fun hne => connected_getOPCGroup (hs.connected hne) ..
  rcases getOPCGroup_cases hs szName noGroup body with
    ⟨-, hgroups, -⟩ | ⟨g, hg, hgroups, -⟩ | ⟨hg, hgroups, hconn', -⟩
  · exact ⟨hgroups ▸ hs.names, fun hne => hconn (hgroups ▸ hne), hgroups ▸ hs.groups⟩
  · obtain ⟨hname, hI⟩ := hfound g hg
    refine ⟨?_, fun _ => hconn (List.ne_nil_of_mem (SapiState.group?_mem hg).1), ?_⟩
    · -- the group keeps its name, so the names stay distinct
      rw [hgroups, Keyed.update, List.map_map]
      refine (List.map_congr_left fun g' _ => ?_) ▸ hs.names
      simp only [Function.comp_apply]
      split_ifs with h
      · rw [hname, h]
      · rfl
    · rw [hgroups, Keyed.update]
      intro g' hg'
      obtain ⟨g₀, hg₀, rfl⟩ := List.mem_map.1 hg'
      split_ifs
      · exact hI
      · exact hs.groups g₀ hg₀
  · obtain ⟨hname, hI⟩ := hnew hg
    refine ⟨?_, fun _ => hconn', ?_⟩
    · rw [hgroups, List.map_append, List.nodup_append]
      refine ⟨hs.names, by simp, ?_⟩
      intro a ha b hb hab
      obtain ⟨g', hg', rfl⟩ := List.mem_map.1 ha
      have hb : b = szName := by simpa [hname] using hb
      rw [SapiState.group?, List.find?_eq_none] at hg
      exact hg g' hg' (by simp [hab, hb])
    · rw [hgroups]
      intro g' hg'
      rcases List.mem_append.1 hg' with hg' | hg'
      · exact hs.groups g' hg'
      · rw [List.mem_singleton.1 hg']
        exact hI

end OpcS7

end Edps
