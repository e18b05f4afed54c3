import Edps.Lib.Keyed
import Edps.OpcS7.Win32

/-!
# Items of an OPC group

The client keeps a list of the items of a group.  An item is *new* until the server has accepted
it, *invalid* when the server has rejected it, and *chosen* for the next read or write.  Results
come back as arrays: those of `AddItems` are put into the items by client handle, those of `Read`
and `Write` in a single pass over the list.

* `getNewItems`, `setNewItemsRes` : registration.
* `getItems2Read`, `setReadValue` : reading.
* `getItems2Write`, `setWriteResult` : writing.
-/

namespace Edps

namespace OpcS7

/-- The bits of `m_dwItemStatus`. -/
structure ItemStatus where
  /-- 1 -/
  new : Bool
  /-- 2 -/
  forRead : Bool
  /-- 4 -/
  forWrite : Bool
  /-- 8 -/
  invalid : Bool
  deriving DecidableEq, Repr

/-- `COPCItem` -/
structure COPCItem where
  szItemID : Bytes
  hClient : ℕ
  hServer : ℕ
  wQuality : ℕ
  vDataValue : Variant
  hrOperation : HRESULT
  status : ItemStatus
  deriving DecidableEq, Repr

/-- `OPCITEMDEF`: what is registered. -/
structure ItemDef where
  szItemID : Bytes
  hClient : ℕ
  deriving DecidableEq, Repr

/-- `OPCITEMRESULT` and its result code. -/
structure ItemResult where
  hr : HRESULT
  hServer : ℕ
  deriving DecidableEq, Repr

/-- `OPCITEMSTATE` -/
structure ItemState where
  hClient : ℕ
  wQuality : ℕ
  vDataValue : Variant
  deriving DecidableEq, Repr

namespace COPCItem

/-- `Init` and `ItemNew`.  The server handle keeps what the memory held. -/
def init (szItemID : Bytes) (hClient uninit : ℕ) : COPCItem :=
  ⟨szItemID, hClient, uninit, 0, .empty, E_NOTIMPL, ⟨true, false, false, false⟩⟩

/-- `Valid` -/
def valid (it : COPCItem) : Bool := !it.status.invalid

def itemForRead (it : COPCItem) : COPCItem := { it with status.forRead := true }

def itemForWrite (v : Variant) (it : COPCItem) : COPCItem :=
  { it with vDataValue := v, status.forWrite := true }

def setInvalid (it : COPCItem) : COPCItem := { it with status := ⟨false, false, false, true⟩ }

/-- `Quality`: all bits of `OPC_QUALITY_MASK`. -/
def quality (it : COPCItem) : Bool := it.wQuality &&& 0xC0 = 0xC0

/-- What the server is told about the item. -/
def toDef (it : COPCItem) : ItemDef := ⟨it.szItemID, it.hClient⟩

/-- The result of the registration taken over. -/
def takeResult (it : COPCItem) (res : ItemResult) : COPCItem :=
  if succeeded res.hr then { it with hServer := res.hServer, status.new := false }
  else { it.setInvalid with hServer := 0 }

/-- The state that was read taken over. -/
def takeState (hMasterRes : HRESULT) (it : COPCItem) (st : ItemState × HRESULT) : COPCItem :=
  let hr := if failed hMasterRes then hMasterRes else st.2
  let it := { it with hrOperation := hr, status.forRead := false }
  if succeeded hr then { it with wQuality := st.1.wQuality, vDataValue := st.1.vDataValue }
  else { it with wQuality := 0, vDataValue := .empty }

/-- The result of a write taken over. -/
def takeWritten (hMasterRes : HRESULT) (it : COPCItem) (res : ℕ × HRESULT) : COPCItem :=
  { it with
    hrOperation := if failed hMasterRes then hMasterRes else res.2
    status.forWrite := false }

end COPCItem

/-! ### The list -/

/-- `AddItem`: the position of a new item is the number of items before. -/
def addItem (items : List COPCItem) (szItemID : Bytes) (hClient uninit : ℕ) : List COPCItem :=
  items ++ [.init szItemID hClient uninit]

/-- `GetItem` by client handle, a position. -/
def getItem (items : List COPCItem) (hClient : ℕ) : Option ℕ :=
  items.findIdx? fun it => it.hClient = hClient

/-- `GetItem` by item id. -/
def getItemById (crt : Crt) (items : List COPCItem) (szItemID : Bytes) : Option ℕ :=
  items.findIdx? fun it => crt.lstrcmpW it.szItemID szItemID

/-- `GetNewItems` -/
def getNewItems (items : List COPCItem) : List ItemDef :=
  (items.filter fun it => it.status.new).map COPCItem.toDef

/-- One round of the loop of `SetNewItemsRes`.  The result code goes to the item at the position
of the result, the rest to the item it is for. -/
def setNewItemRes (items : List COPCItem) (n : ℕ) (res : ItemDef × ItemResult) : List COPCItem :=
  match getItem items res.1.hClient with
  | none => items
  | some p =>
    (items.modify n fun it => { it with hrOperation := res.2.hr }).modify p
      fun it => it.takeResult res.2

/-- `SetNewItemsRes`, from the `n`-th result on. -/
def setNewItemsRes (items : List COPCItem) (n : ℕ) : List (ItemDef × ItemResult) → List COPCItem
  | [] => items
  | res :: rest => setNewItemsRes (setNewItemRes items n res) (n + 1) rest

/-- `Valid() && (bAll || ForRead())` -/
def chosen2Read (bAll : Bool) (it : COPCItem) : Bool := it.valid && (bAll || it.status.forRead)

/-- `GetItems2Read`: the list afterwards and the items whose handles are passed. -/
def getItems2Read (bAll : Bool) (items : List COPCItem) : List COPCItem × List COPCItem :=
  (items.map fun it => if chosen2Read bAll it then it.itemForRead else it,
    items.filter (chosen2Read bAll))

/-- `SetReadValue` -/
def setReadValue (hMasterRes : HRESULT) (items : List COPCItem) (sts : List (ItemState × HRESULT)) :
    List COPCItem :=
  Keyed.merge COPCItem.hClient (fun st => st.1.hClient) (COPCItem.takeState hMasterRes) items sts

/-- `Valid() && ForWrite()` -/
def chosen2Write (it : COPCItem) : Bool := it.valid && it.status.forWrite

/-- `GetItems2Write`: the items whose handles and values are passed. -/
def getItems2Write (items : List COPCItem) : List COPCItem := items.filter chosen2Write

/-- `SetWriteResult`: the handles passed and their results. -/
def setWriteResult (hMasterRes : HRESULT) (items : List COPCItem) (res : List (ℕ × HRESULT)) :
    List COPCItem :=
  Keyed.merge COPCItem.hServer Prod.fst (COPCItem.takeWritten hMasterRes) items res

/-! ### Registration results -/

/-- The item without the code of its last operation. -/
def COPCItem.core (it : COPCItem) : COPCItem := { it with hrOperation := 0 }

theorem COPCItem.exists_of_core {it it' : COPCItem} (h : it'.core = it.core) :
    ∃ hr, it' = { it with hrOperation := hr } := by
  refine ⟨it'.hrOperation, ?_⟩
  have hback := congrArg (fun x => { x with hrOperation := it'.hrOperation }) h
  exact hback

theorem COPCItem.status_of_core {it it' : COPCItem} (h : it'.core = it.core) :
    it'.status = it.status := by
  have hstatus := congrArg COPCItem.status h
  exact hstatus

/-- The item with its result among those of `AddItems`, if there is one. -/
def COPCItem.answered (res : List (ItemDef × ItemResult)) (it : COPCItem) : COPCItem :=
  (res.find? fun p => p.1.hClient = it.hClient).elim it fun p => it.takeResult p.2

theorem hClient_takeResult (it : COPCItem) (res : ItemResult) :
    (it.takeResult res).hClient = it.hClient := by
  unfold COPCItem.takeResult
  split_ifs <;> rfl

theorem core_takeResult (it : COPCItem) (res : ItemResult) :
    (it.takeResult res).core = it.core.takeResult res := by
  unfold COPCItem.takeResult
  split_ifs <;> rfl

/-- One result, but for the codes of operations, reaches the item it is for. -/
theorem core_setNewItemRes {items : List COPCItem} (hnd : (items.map COPCItem.hClient).Nodup)
    (n : ℕ) (res : ItemDef × ItemResult) :
    (setNewItemRes items n res).map COPCItem.core =
      Keyed.update COPCItem.hClient res.1.hClient (fun it => it.takeResult res.2)
        (items.map COPCItem.core) := by
  have hnd' : ((items.map COPCItem.core).map COPCItem.hClient).Nodup := by
    rwa [List.map_map]
  have hfind : (items.map COPCItem.core).findIdx? (fun it => it.hClient = res.1.hClient) =
      getItem items res.1.hClient := by
    rw [List.findIdx?_map]
    rfl
  rw [← Keyed.modify_findIdx? hnd', hfind, setNewItemRes]
  cases getItem items res.1.hClient with
  | none => rfl
  | some p =>
    have hcode (it : COPCItem) : ({ it with hrOperation := res.2.hr } : COPCItem).core = it.core :=
      rfl
    simp only [Option.elim_some]
    rw [Keyed.map_modify (fun it => it.takeResult res.2) fun it => core_takeResult it res.2,
      Keyed.map_modify_of_eq hcode]

theorem hClient_setNewItemRes (items : List COPCItem) (n : ℕ) (res : ItemDef × ItemResult) :
    (setNewItemRes items n res).map COPCItem.hClient = items.map COPCItem.hClient := by
  unfold setNewItemRes
  cases getItem items res.1.hClient with
  | none => rfl
  | some p =>
    have hcode (it : COPCItem) :
        ({ it with hrOperation := res.2.hr } : COPCItem).hClient = it.hClient := rfl
    have htake (it : COPCItem) : (it.takeResult res.2).hClient = it.hClient :=
      hClient_takeResult it res.2
    simp only
    rw [Keyed.map_modify_of_eq htake, Keyed.map_modify_of_eq hcode]

/-- **The results of a registration** reach the items they are for. -/
theorem core_setNewItemsRes {items : List COPCItem} (hnd : (items.map COPCItem.hClient).Nodup)
    {res : List (ItemDef × ItemResult)} (hres : (res.map fun p => p.1.hClient).Nodup) (n : ℕ) :
    (setNewItemsRes items n res).map COPCItem.core =
      items.map fun it => (it.answered res).core := by
  have hfold : (setNewItemsRes items n res).map COPCItem.core =
      res.foldl (fun its p => Keyed.update COPCItem.hClient p.1.hClient
        (fun it => it.takeResult p.2) its) (items.map COPCItem.core) := by
    clear hres
    induction res generalizing items n with
    | nil => rfl
    | cons p res ih =>
      rw [setNewItemsRes, ih (by rwa [hClient_setNewItemRes]), core_setNewItemRes hnd,
        List.foldl_cons]
  rw [hfold, Keyed.foldl_update (fun it p => hClient_takeResult it p.2) hres, Keyed.assign,
    List.map_map]
  refine List.map_congr_left fun it _ => ?_
  simp only [Function.comp_apply, COPCItem.answered]
  have hkey : it.core.hClient = it.hClient := rfl
  rw [hkey]
  cases res.find? fun p => p.1.hClient = it.hClient with
  | none => rfl
  | some p => exact (core_takeResult it p.2).symm

end OpcS7

end Edps
