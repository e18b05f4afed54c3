import Edps.OpcS7.Items

/-!
# The results of a registration, item by item

`SetNewItemsRes` gets one result for each definition that `GetNewItems` made, in the order of the
new items.  The fields of a result go to the item that has the client handle of the definition;
the code of the operation goes to the item at the position of the result in the array.

* `FullItem` : an item with all the fields of a registration.
* `FullItem.setNewItemsRes` : the results taken over; `toCOPCItem_setNewItemsRes` says that the
  shorter model of an item sees the same.
* `getElem?_setNewItemsRes` : what every item is afterwards.
* `ownResults_iff` : the results that reach their own items.
* `forall_ownResults_iff` : all results do when the new items stand first, and only then.
-/

namespace Edps

namespace OpcS7

/-- `COPCItem`, with the fields of its definition and of its result that the calls do not read. -/
structure FullItem extends COPCItem where
  szAccessPath : Option Bytes
  bActive : Bool
  vtRequestedDataType : VarType
  vtCanonicalDataType : VarType
  dwAccessRights : ℕ
  ftTimeStamp : ℕ
  deriving DecidableEq, Repr

/-- `OPCITEMDEF` -/
structure OPCITEMDEF extends ItemDef where
  szAccessPath : Option Bytes
  bActive : Bool
  vtRequestedDataType : VarType
  deriving DecidableEq, Repr

/-- `OPCITEMRESULT`, without the blob, which is given back to the server's memory. -/
structure OPCITEMRESULT where
  hServer : ℕ
  vtCanonicalDataType : VarType
  dwAccessRights : ℕ
  deriving DecidableEq, Repr

namespace FullItem

def new (it : FullItem) : Bool := it.status.new

/-- What the server is told about the item. -/
def toDef (it : FullItem) : OPCITEMDEF :=
  ⟨it.toCOPCItem.toDef, it.szAccessPath, it.bActive, it.vtRequestedDataType⟩

/-- The code of an operation put into the item. -/
def withCode (it : FullItem) (hr : HRESULT) : FullItem := { it with hrOperation := hr }

/-- A result of the registration put into the item, but for its code. -/
def takeResult (it : FullItem) (res : OPCITEMRESULT) (hr : HRESULT) : FullItem :=
  let item := it.toCOPCItem.takeResult ⟨hr, res.hServer⟩
  if succeeded hr then
    { it with
      toCOPCItem := item
      vtCanonicalDataType := res.vtCanonicalDataType
      dwAccessRights := res.dwAccessRights }
  else { it with toCOPCItem := item, vtCanonicalDataType := VT_EMPTY, dwAccessRights := 0 }

/-- `GetNewItems` -/
def getNewItems (items : List FullItem) : List OPCITEMDEF := (items.filter new).map toDef

variable (pItemRes : ℕ → OPCITEMRESULT) (phr : ℕ → HRESULT)

/-- One round of the loop of `SetNewItemsRes`, for a definition and its index. -/
def setNewItemRes (items : List FullItem) (d : OPCITEMDEF × ℕ) : List FullItem :=
  match items.findIdx? fun it => it.hClient = d.1.hClient with
  | none => items
  | some p =>
    (items.modify d.2 fun it => it.withCode (phr d.2)).modify p
      fun it => it.takeResult (pItemRes d.2) (phr d.2)

/-- `SetNewItemsRes`, for the definitions `GetNewItems` made. -/
def setNewItemsRes (items : List FullItem) : List FullItem :=
  (getNewItems items).zipIdx.foldl (setNewItemRes pItemRes phr) items

/-- The index of the definition of an item that is new: the number of new items before it. -/
def newIndex (items : List FullItem) (i : ℕ) : ℕ := ((items.take i).filter new).length

/-- What an item is to be, when its own result is `res` with the code `hr`. -/
def OwnResult (it it' : FullItem) (res : OPCITEMRESULT) (hr : HRESULT) : Prop :=
  if it.new then
    it'.hrOperation = hr ∧
      if succeeded hr then
        it'.hServer = res.hServer ∧ it'.vtCanonicalDataType = res.vtCanonicalDataType ∧
          it'.dwAccessRights = res.dwAccessRights ∧ it'.new = false
      else it'.valid = false
  else it' = it

/-- Every result reaches its own item, and nothing else is changed. -/
def OwnResults (items : List FullItem) : Prop :=
  ∀ (i : ℕ) (it : FullItem), items[i]? = some it →
    ∃ it', (setNewItemsRes pItemRes phr items)[i]? = some it' ∧
      it.OwnResult it' (pItemRes (newIndex items i)) (phr (newIndex items i))

/-- The code that `SetNewItemsRes` leaves in the item at a position. -/
def codeLeft (items : List FullItem) (i : ℕ) (it : FullItem) : HRESULT :=
  if i < (getNewItems items).length then phr i else it.hrOperation

/-- The code that the item at a position is to have. -/
def codeDue (items : List FullItem) (i : ℕ) (it : FullItem) : HRESULT :=
  if it.new then phr (newIndex items i) else it.hrOperation

/-! ### One result -/

variable {pItemRes phr}

/-- The item without the code of its last operation. -/
def rest (it : FullItem) : FullItem := it.withCode 0

theorem hClient_takeResult (it : FullItem) (res : OPCITEMRESULT) (hr : HRESULT) :
    (it.takeResult res hr).hClient = it.hClient := by
  unfold takeResult
  split_ifs <;> exact OpcS7.hClient_takeResult _ _

theorem rest_takeResult (it : FullItem) (res : OPCITEMRESULT) (hr : HRESULT) :
    (it.takeResult res hr).rest = it.rest.takeResult res hr := by
  unfold takeResult COPCItem.takeResult
  by_cases hok : succeeded hr = true
  · simp only [if_pos hok]
    rfl
  · simp only [if_neg hok]
    rfl

theorem hrOperation_takeResult (it : FullItem) (res : OPCITEMRESULT) (hr : HRESULT) :
    (it.takeResult res hr).hrOperation = it.hrOperation := by
  unfold takeResult COPCItem.takeResult
  by_cases hok : succeeded hr = true
  · simp only [if_pos hok]
  · simp only [if_neg hok]
    rfl

/-- One result, but for its code, reaches the item it is for. -/
theorem rest_setNewItemRes {items : List FullItem}
    (hnd : (items.map fun it => it.hClient).Nodup) (d : OPCITEMDEF × ℕ) :
    (setNewItemRes pItemRes phr items d).map rest =
      Keyed.update (fun it : FullItem => it.hClient) d.1.hClient
        (fun it => it.takeResult (pItemRes d.2) (phr d.2)) (items.map rest) := by
  have hnd' : ((items.map rest).map fun it => it.hClient).Nodup := by
    rwa [List.map_map]
  rw [← Keyed.modify_findIdx? hnd', List.findIdx?_map, setNewItemRes]
  have hkey : (fun it : FullItem => decide (it.hClient = d.1.hClient)) ∘ rest =
      fun it => decide (it.hClient = d.1.hClient) := rfl
  rw [hkey]
  cases items.findIdx? fun it => it.hClient = d.1.hClient with
  | none => rfl
  | some p =>
    have hcode (it : FullItem) : (it.withCode (phr d.2)).rest = it.rest := rfl
    simp only [Option.elim_some]
    rw [Keyed.map_modify (fun it => it.takeResult (pItemRes d.2) (phr d.2)) fun it =>
      rest_takeResult it _ _, Keyed.map_modify_of_eq hcode]

/-- The code of a result reaches the item at its position. -/
theorem hrOperation_setNewItemRes {items : List FullItem} {d : OPCITEMDEF × ℕ}
    (hmem : d.1.hClient ∈ items.map fun it => it.hClient) :
    (setNewItemRes pItemRes phr items d).map (fun it => it.hrOperation) =
      (items.map fun it => it.hrOperation).modify d.2 fun _ => phr d.2 := by
  rw [setNewItemRes]
  cases hfind : items.findIdx? fun it => it.hClient = d.1.hClient with
  | none =>
    obtain ⟨it, hit, hkey⟩ := List.mem_map.1 hmem
    rw [List.findIdx?_eq_none_iff] at hfind
    exact absurd hkey (by simpa using hfind it hit)
  | some p =>
    have htake (it : FullItem) :
        (it.takeResult (pItemRes d.2) (phr d.2)).hrOperation = it.hrOperation :=
      hrOperation_takeResult it _ _
    simp only
    rw [Keyed.map_modify_of_eq htake]
    exact Keyed.map_modify (c := fun it : FullItem => it.hrOperation) (fun _ => phr d.2)
      (fun _ => rfl) _ _

theorem hClient_setNewItemRes (items : List FullItem) (d : OPCITEMDEF × ℕ) :
    (setNewItemRes pItemRes phr items d).map (fun it => it.hClient) =
      items.map fun it => it.hClient := by
  rw [setNewItemRes]
  cases items.findIdx? fun it => it.hClient = d.1.hClient with
  | none => rfl
  | some p =>
    have htake (it : FullItem) :
        (it.takeResult (pItemRes d.2) (phr d.2)).hClient = it.hClient := hClient_takeResult it _ _
    have hcode (it : FullItem) : (it.withCode (phr d.2)).hClient = it.hClient := rfl
    simp only
    rw [Keyed.map_modify_of_eq htake, Keyed.map_modify_of_eq hcode]

/-! ### All results -/

/-- The definitions from the `m`-th on: all but the codes. -/
theorem rest_foldl {items : List FullItem} (hnd : (items.map fun it => it.hClient).Nodup)
    (ds : List (OPCITEMDEF × ℕ)) :
    (ds.foldl (setNewItemRes pItemRes phr) items).map rest =
      ds.foldl (fun its d => Keyed.update (fun it : FullItem => it.hClient) d.1.hClient
        (fun it => it.takeResult (pItemRes d.2) (phr d.2)) its) (items.map rest) := by
  induction ds generalizing items with
  | nil => rfl
  | cons d ds ih =>
    rw [List.foldl_cons, ih (hClient_setNewItemRes items d ▸ hnd), rest_setNewItemRes hnd,
      List.foldl_cons]

/-- The definitions from the `m`-th on: the codes. -/
theorem hrOperation_foldl {items : List FullItem} {defs : List OPCITEMDEF} {m : ℕ}
    (hmem : ∀ d ∈ defs, d.hClient ∈ items.map fun it => it.hClient) (i : ℕ) :
    (((defs.zipIdx m).foldl (setNewItemRes pItemRes phr) items).map fun it => it.hrOperation)[i]? =
      (items.map fun it => it.hrOperation)[i]?.map fun hr =>
        if m ≤ i ∧ i < m + defs.length then phr i else hr := by
  induction defs generalizing items m with
  | nil =>
    have hno : ¬ (m ≤ i ∧ i < m + ([] : List OPCITEMDEF).length) := by simp
    simp only [if_neg hno]
    exact Option.map_id'.symm
  | cons d defs ih =>
    obtain ⟨hd, hdefs⟩ := List.forall_mem_cons.1 hmem
    have hmem' : ∀ d' ∈ defs, d'.hClient ∈
        (setNewItemRes pItemRes phr items (d, m)).map fun it => it.hClient := by
      rwa [hClient_setNewItemRes]
    have hcodes := @hrOperation_setNewItemRes pItemRes phr items (d, m) hd
    rw [List.zipIdx_cons, List.foldl_cons, ih hmem', hcodes, List.getElem?_modify,
      Option.map_eq_map, Option.map_map, List.length_cons]
    refine congrArg (Option.map · _) (funext fun hr => ?_)
    simp only [Function.comp_apply]
    by_cases hm : m = i
    · subst hm
      simp
    · split_ifs <;> first | rfl | omega

/-! ### What every item is afterwards -/

theorem hClient_getNewItems (items : List FullItem) :
    (getNewItems items).map (fun d => d.hClient) = (items.filter new).map fun it => it.hClient := by
  rw [getNewItems, List.map_map]
  rfl

/-- The definition of a new item stands at its index. -/
theorem getElem?_getNewItems {items : List FullItem} {i : ℕ} {it : FullItem}
    (hit : items[i]? = some it) (hnew : it.new = true) :
    (getNewItems items)[newIndex items i]? = some it.toDef := by
  induction items generalizing i with
  | nil => simp at hit
  | cons x items ih =>
    cases i with
    | zero =>
      obtain rfl : x = it := by simpa using hit
      simp [getNewItems, newIndex, hnew]
    | succ i =>
      have h := ih (by simpa using hit)
      by_cases hx : x.new = true
      · simpa [getNewItems, newIndex, hx] using h
      · simpa [getNewItems, newIndex, hx] using h

/-- An item that is not new has no definition. -/
theorem notMem_getNewItems {items : List FullItem} (hnd : (items.map fun it => it.hClient).Nodup)
    {it : FullItem} (hit : it ∈ items) (hnew : it.new = false) :
    it.hClient ∉ (getNewItems items).map fun d => d.hClient := by
  rw [hClient_getNewItems]
  intro hmem
  obtain ⟨it', hit', hkey⟩ := List.mem_map.1 hmem
  obtain ⟨hit', hnew'⟩ := List.mem_filter.1 hit'
  rw [List.inj_on_of_nodup_map hnd hit' hit hkey, hnew] at hnew'
  cases hnew'

/-- The definitions have distinct client handles. -/
theorem nodup_getNewItems {items : List FullItem} (hnd : (items.map fun it => it.hClient).Nodup) :
    ((getNewItems items).zipIdx.map fun d => d.1.hClient).Nodup := by
  have hfst : ((getNewItems items).zipIdx.map fun d => d.1.hClient) =
      (getNewItems items).map fun d => d.hClient := by
    have h := congrArg (List.map fun d : OPCITEMDEF => d.hClient)
      (List.zipIdx_map_fst 0 (getNewItems items))
    rwa [List.map_map] at h
  rw [hfst, hClient_getNewItems]
  exact hnd.sublist (List.filter_sublist.map _)

/-- The definition found by the client handle of an item is its own. -/
theorem find?_getNewItems {items : List FullItem} (hnd : (items.map fun it => it.hClient).Nodup)
    {i : ℕ} {it : FullItem} (hit : items[i]? = some it) :
    (getNewItems items).zipIdx.find? (fun d => d.1.hClient = it.hClient) =
      if it.new then some (it.toDef, newIndex items i) else none := by
  by_cases hnew : it.new = true
  · have hmem : (it.toDef, newIndex items i) ∈ (getNewItems items).zipIdx :=
      List.mem_zipIdx_iff_getElem?.2 (getElem?_getNewItems hit hnew)
    rw [if_pos hnew]
    exact Keyed.find?_key (nodup_getNewItems hnd) hmem
  · rw [if_neg hnew, List.find?_eq_none]
    intro d hd hkey
    have hd := List.mem_of_getElem? (List.mem_zipIdx_iff_getElem?.1 hd)
    have hmem := List.mem_map_of_mem (f := fun d : OPCITEMDEF => d.hClient) hd
    have hkey : d.1.hClient = it.hClient := of_decide_eq_true hkey
    exact notMem_getNewItems hnd (List.mem_of_getElem? hit) (by simpa using hnew) (hkey ▸ hmem)

/-- An item after `SetNewItemsRes`, but for its code. -/
theorem rest_setNewItemsRes {items : List FullItem}
    (hnd : (items.map fun it => it.hClient).Nodup) {i : ℕ} {it : FullItem}
    (hit : items[i]? = some it) :
    ((setNewItemsRes pItemRes phr items)[i]?).map rest = some
      (if it.new then it.takeResult (pItemRes (newIndex items i)) (phr (newIndex items i))
        else it).rest := by
  have hfind := find?_getNewItems hnd hit
  have hkey : it.rest.hClient = it.hClient := rfl
  rw [← List.getElem?_map, setNewItemsRes, rest_foldl hnd,
    Keyed.foldl_update (fun it d => hClient_takeResult it _ _) (nodup_getNewItems hnd),
    Keyed.assign, List.getElem?_map, List.getElem?_map, hit, Option.map_some, Option.map_some,
    hkey, hfind]
  by_cases hnew : it.new = true
  · rw [if_pos hnew, if_pos hnew, rest_takeResult]
    rfl
  · rw [if_neg hnew, if_neg hnew]
    rfl

/-- The code of an item after `SetNewItemsRes`. -/
theorem hrOperation_setNewItemsRes {items : List FullItem} {i : ℕ} {it : FullItem}
    (hit : items[i]? = some it) :
    ((setNewItemsRes pItemRes phr items)[i]?).map (fun it => it.hrOperation) =
      some (codeLeft phr items i it) := by
  have hdefs : ∀ d ∈ getNewItems items, d.hClient ∈ items.map fun it => it.hClient := by
    intro d hd
    have h := List.mem_map_of_mem (f := fun d : OPCITEMDEF => d.hClient) hd
    rw [hClient_getNewItems] at h
    exact (List.filter_sublist.map _).subset h
  rw [← List.getElem?_map, setNewItemsRes, hrOperation_foldl hdefs, List.getElem?_map, hit]
  simp [codeLeft]

/-- **An item after `SetNewItemsRes`.**  A new item has taken its own result, but for the code;
the code is the one at the position of the item. -/
theorem getElem?_setNewItemsRes {items : List FullItem}
    (hnd : (items.map fun it => it.hClient).Nodup) {i : ℕ} {it : FullItem}
    (hit : items[i]? = some it) :
    (setNewItemsRes pItemRes phr items)[i]? = some
      ((if it.new then it.takeResult (pItemRes (newIndex items i)) (phr (newIndex items i))
        else it).withCode (codeLeft phr items i it)) := by
  have hcode := @hrOperation_setNewItemsRes pItemRes phr items i it hit
  obtain ⟨it', hit', hrest⟩ :=
    Option.map_eq_some_iff.1 (@rest_setNewItemsRes pItemRes phr items hnd i it hit)
  rw [hit', Option.map_some, Option.some.injEq] at hcode
  -- an item is what it is but for its code, and its code
  have hsplit : it' = it'.rest.withCode it'.hrOperation := rfl
  rw [hit', hsplit, hrest, hcode]
  rfl

/-! ### The codes -/

/-- The number of new items at the beginning of a list. -/
def leading (items : List FullItem) : ℕ := (items.takeWhile new).length

/-- In the leading part positions and indices are the same. -/
theorem newIndex_of_lt_leading {items : List FullItem} {i : ℕ} (h : i < leading items)
    {it : FullItem} (hit : items[i]? = some it) : it.new = true ∧ newIndex items i = i := by
  induction items generalizing i with
  | nil => simp at hit
  | cons x items ih =>
    by_cases hx : x.new = true
    · cases i with
      | zero =>
        obtain rfl : x = it := by simpa using hit
        exact ⟨hx, rfl⟩
      | succ i =>
        have hlt : i < leading items := by simpa [leading, hx] using h
        obtain ⟨hnew, hindex⟩ := ih hlt (by simpa using hit)
        refine ⟨hnew, ?_⟩
        simpa [newIndex, hx] using hindex
    · simp [leading, hx] at h

/-- The codes of the leading new items are their own. -/
theorem codeLeft_of_lt_leading (phr : ℕ → HRESULT) {items : List FullItem} {i : ℕ}
    (h : i < leading items) {it : FullItem} (hit : items[i]? = some it) :
    codeLeft phr items i it = codeDue phr items i it := by
  obtain ⟨hnew, hindex⟩ := newIndex_of_lt_leading h hit
  have hdef := getElem?_getNewItems hit hnew
  rw [hindex] at hdef
  obtain ⟨hlt, -⟩ := List.getElem?_eq_some_iff.1 hdef
  rw [codeLeft, codeDue, if_pos hlt, if_pos hnew, hindex]

/-- An item gets its own result exactly when its code is its own. -/
theorem ownResult_iff (it : FullItem) (res : OPCITEMRESULT) (hr code : HRESULT) :
    it.OwnResult ((if it.new then it.takeResult res hr else it).withCode code) res hr ↔
      code = if it.new then hr else it.hrOperation := by
  unfold OwnResult
  by_cases hnew : it.new = true
  · simp only [if_pos hnew]
    refine and_iff_left ?_
    unfold takeResult COPCItem.takeResult
    by_cases hok : succeeded hr = true
    · simp only [if_pos hok]
      exact ⟨rfl, rfl, rfl, rfl⟩
    · simp only [if_neg hok]
      rfl
  · simp only [if_neg hnew]
    constructor
    · intro h
      exact congrArg (fun it : FullItem => it.hrOperation) h
    · rintro rfl
      rfl

/-- The results reach their own items when all codes are the due ones. -/
theorem ownResults_iff_codes (pItemRes : ℕ → OPCITEMRESULT) (phr : ℕ → HRESULT)
    {items : List FullItem} (hnd : (items.map fun it => it.hClient).Nodup) :
    OwnResults pItemRes phr items ↔ ∀ i it, items[i]? = some it →
      codeLeft phr items i it = codeDue phr items i it := by
  refine forall₃_congr fun i it hit => ?_
  rw [getElem?_setNewItemsRes hnd hit, codeDue, ← ownResult_iff]
  exact ⟨fun ⟨it', hsome, h⟩ => Option.some.inj hsome ▸ h, fun h => ⟨_, rfl, h⟩⟩

/-- **The results reach their own items** exactly when, behind the new items at the beginning of
the list, every code that the loop leaves at a position is the one due there. -/
theorem ownResults_iff (pItemRes : ℕ → OPCITEMRESULT) (phr : ℕ → HRESULT) {items : List FullItem}
    (hnd : (items.map fun it => it.hClient).Nodup) :
    OwnResults pItemRes phr items ↔ ∀ i it, leading items ≤ i → items[i]? = some it →
      codeLeft phr items i it = codeDue phr items i it := by
  rw [ownResults_iff_codes pItemRes phr hnd]
  refine ⟨fun h i it _ hit => h i it hit, fun h i it hit => ?_⟩
  rcases lt_or_ge i (leading items) with hlt | hge
  · exact codeLeft_of_lt_leading phr hlt hit
  · exact h i it hge hit

/-- The new items of a list are the leading ones and those behind. -/
theorem length_getNewItems (items : List FullItem) :
    (getNewItems items).length =
      leading items + ((items.drop (leading items)).filter new).length := by
  induction items with
  | nil => rfl
  | cons x items ih =>
    by_cases hx : x.new = true
    · simp only [getNewItems, leading, List.length_map, List.filter_cons, List.takeWhile_cons, hx,
        if_true, List.length_cons, List.drop_succ_cons] at ih ⊢
      omega
    · simp [getNewItems, leading, hx]

/-- Behind the leading new items stands one that is not new. -/
theorem getElem?_leading {items : List FullItem} (h : items.drop (leading items) ≠ []) :
    ∃ it, items[leading items]? = some it ∧ it.new = false := by
  induction items with
  | nil => exact absurd rfl h
  | cons x items ih =>
    by_cases hx : x.new = true
    · simpa [leading, hx] using ih (by simpa [leading, hx] using h)
    · exact ⟨x, by simp [leading, hx], by simpa using hx⟩

/-- **All results reach their own items** when every new item stands before all others, and only
then. -/
theorem forall_ownResults_iff {items : List FullItem}
    (hnd : (items.map fun it => it.hClient).Nodup) :
    (∀ pItemRes phr, OwnResults pItemRes phr items) ↔
      ∀ it ∈ items.drop (leading items), it.new = false := by
  have hlen := length_getNewItems items
  constructor
  · intro h it hit
    by_contra hnew
    have hpos : 0 < ((items.drop (leading items)).filter new).length :=
      List.length_pos_of_mem (List.mem_filter.2 ⟨hit, by simpa using hnew⟩)
    -- the first item that is not new takes the code at its position
    obtain ⟨x, hx, hold⟩ := getElem?_leading (List.ne_nil_of_mem hit)
    have hcode := (ownResults_iff_codes (fun _ => ⟨0, VT_EMPTY, 0⟩) (fun _ => x.hrOperation + 1)
      hnd).1 (h _ _) _ x hx
    rw [codeLeft, codeDue, if_pos (by omega), if_neg (by simp [hold])] at hcode
    exact absurd hcode (Int.ne_of_gt (Int.lt_succ _))
  · intro h pItemRes phr
    have hnone : (items.drop (leading items)).filter new = [] :=
      List.filter_eq_nil_iff.2 fun it hit => by simp [h it hit]
    rw [hnone, List.length_nil] at hlen
    refine (ownResults_iff_codes pItemRes phr hnd).2 fun i it hit => ?_
    rcases lt_or_ge i (leading items) with hi | hi
    · exact codeLeft_of_lt_leading phr hi hit
    · have hmem : it ∈ items.drop (leading items) := by
        refine List.mem_of_getElem? (i := i - leading items) ?_
        rw [List.getElem?_drop, Nat.add_sub_cancel' hi]
        exact hit
      rw [codeLeft, codeDue, if_neg (by omega), if_neg (by simp [h it hmem])]

/-! ### The shorter model -/

/-- `GetNewItems` of the shorter model. -/
theorem toItemDef_getNewItems (items : List FullItem) :
    (getNewItems items).map (fun d => d.toItemDef) =
      OpcS7.getNewItems (items.map fun it => it.toCOPCItem) := by
  rw [getNewItems, OpcS7.getNewItems, List.filter_map, List.map_map, List.map_map]
  rfl

theorem toCOPCItem_takeResult (it : FullItem) (res : OPCITEMRESULT) (hr : HRESULT) :
    (it.takeResult res hr).toCOPCItem = it.toCOPCItem.takeResult ⟨hr, res.hServer⟩ := by
  unfold takeResult
  simp only
  split_ifs <;> rfl

theorem toCOPCItem_setNewItemRes (pItemRes : ℕ → OPCITEMRESULT) (phr : ℕ → HRESULT)
    (items : List FullItem) (d : OPCITEMDEF × ℕ) :
    (setNewItemRes pItemRes phr items d).map (fun it => it.toCOPCItem) =
      OpcS7.setNewItemRes (items.map fun it => it.toCOPCItem) d.2
        (d.1.toItemDef, ⟨phr d.2, (pItemRes d.2).hServer⟩) := by
  unfold setNewItemRes OpcS7.setNewItemRes getItem
  rw [List.findIdx?_map]
  have hkey : (fun it : COPCItem => decide (it.hClient = d.1.hClient)) ∘
      (fun it : FullItem => it.toCOPCItem) = fun it => decide (it.hClient = d.1.hClient) := rfl
  simp only [hkey]
  cases items.findIdx? fun it => it.hClient = d.1.hClient with
  | none => rfl
  | some p =>
    simp only
    rw [Keyed.map_modify (fun it : COPCItem => it.takeResult ⟨phr d.2, (pItemRes d.2).hServer⟩)
      fun it => toCOPCItem_takeResult it _ _]
    rw [Keyed.map_modify (fun it : COPCItem => { it with hrOperation := phr d.2 }) fun _ => rfl]

/-- `SetNewItemsRes` of the shorter model. -/
theorem toCOPCItem_setNewItemsRes (pItemRes : ℕ → OPCITEMRESULT) (phr : ℕ → HRESULT)
    (items : List FullItem) :
    (setNewItemsRes pItemRes phr items).map (fun it => it.toCOPCItem) =
      OpcS7.setNewItemsRes (items.map fun it => it.toCOPCItem) 0
        ((getNewItems items).zipIdx.map fun d =>
          (d.1.toItemDef, ⟨phr d.2, (pItemRes d.2).hServer⟩)) := by
  have hfrom (defs : List OPCITEMDEF) (m : ℕ) (items : List FullItem) :
      ((defs.zipIdx m).foldl (setNewItemRes pItemRes phr) items).map (fun it => it.toCOPCItem) =
        OpcS7.setNewItemsRes (items.map fun it => it.toCOPCItem) m
          ((defs.zipIdx m).map fun d =>
            (d.1.toItemDef, ⟨phr d.2, (pItemRes d.2).hServer⟩)) := by
    induction defs generalizing m items with
    | nil => rfl
    | cons d defs ih =>
      rw [List.zipIdx_cons, List.foldl_cons, ih, toCOPCItem_setNewItemRes]
      rfl
  exact hfrom _ 0 items

/-! ### An earlier item -/

/-- An item that was registered, and one that was added after it. -/
def laterItem : List FullItem :=
  [⟨⟨ascii "S7:[C]DB1,W0", 1, 7, 0, .empty, S_OK, ⟨false, false, false, false⟩⟩, none, true,
      VT_EMPTY, VT_I2, 3, 0⟩,
    ⟨.init (ascii "S7:[C]DB1,W2") 2 0xCDCDCDCD, none, true, VT_EMPTY, VT_EMPTY, 0, 0⟩]

theorem ownResults_iff_reverse :
    OwnResults (fun _ => ⟨9, VT_I2, 3⟩) (fun _ => S_OK) laterItem.reverse := by
  refine (ownResults_iff _ _ (by decide)).2 fun i it hi hit => ?_
  -- only the registered item stands behind the new one
  obtain rfl : i = 1 := by
    have hlt : i < 2 := (List.getElem?_eq_some_iff.1 hit).1
    have hge : 1 ≤ i := hi
    omega
  cases hit
  decide +kernel

/-- The rejection of the second item is left as the code of the first one. -/
theorem not_ownResults_later :
    ¬ OwnResults (fun _ => ⟨0, VT_EMPTY, 0⟩) (fun _ => E_NOTIMPL) laterItem := by
  intro h
  obtain ⟨it', hit', hown⟩ := h 0 _ rfl
  have hcode : ((setNewItemsRes (fun _ => ⟨0, VT_EMPTY, 0⟩) (fun _ => E_NOTIMPL) laterItem)[0]?).map
      (fun it => it.hrOperation) = some E_NOTIMPL := by
    decide +kernel
  rw [hit', hown] at hcode
  revert hcode
  decide +kernel

end FullItem

end OpcS7

end Edps
