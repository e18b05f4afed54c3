import Edps.Lib.Cells
import Edps.OpcS7.Objects
import Mathlib.Data.List.Perm.Basic

/-!
# The interfaces of a group

A group holds pointers to interfaces of its object in the server.  The constructor asks for them one
after the other and gives back what it has when one is refused; the destructor gives back what is
left and the list of items.  A member that was never set holds anything: who reads it goes wild.

* `construct`, `detouch`, `destroy` : the constructor, `Detouch` and the destructor.
* `addGroup`, `removeGroup` : the groups of `COpcServer`.
* `groupCall` : `AddItems`, `ReadItems` and `WriteItems`, through their interfaces.
-/

namespace Edps

namespace OpcS7

/-- The pointers of a `COPCGroup`. -/
inductive GroupPointer where
  | pszName
  | pUnGroup
  | pIItems
  /-- `m_pISyncIO` -/
  | pISync
  | pItems
  deriving DecidableEq, Repr

/-- A pointer: `none` as long as it was not set, `some none` for NULL. -/
abbrev Member := Option (Option ℕ)

/-- The server's handle of a group and its pointers. -/
structure Members where
  hServer : ℕ
  pointer : GroupPointer → Member

/-- The client with the members of its groups, by address, and the interface pointers that it has
got and given back. -/
structure Client where
  objects : Objects
  members : ℕ → Members
  acquired : List ℕ
  released : List ℕ

abbrev ClientM := EStateM Fault Client

/-- The interfaces of a group object in the server. -/
inductive IID where
  | iUnknown
  | iOPCItemMgt
  /-- `IID_IOPCSyncIO` -/
  | iOPCSync
  | iOPCGroupStateMgt
  deriving DecidableEq, Repr

/-- What `AddGroup` is answered: by the server, by the new group object, and by `new`. -/
structure GroupReplies where
  addGroup : HRESULT
  pIUnk : ℕ
  query : IID → HRESULT
  interface : IID → ℕ
  getState : HRESULT
  /-- The name in the state, if it was put there. -/
  szName : Option Bytes
  hServer : ℕ
  /-- The addresses of the name and of the list of items. -/
  allocated : GroupPointer → ℕ

/-- `OPC_S_INUSE` -/
def OPC_S_INUSE : HRESULT := 0x0004000F

namespace Client

variable {α : Type}

/-- What only concerns the objects. -/
def onObjects (x : ObjectsM α) : ClientM α := fun c =>
  match x c.objects with
  | .ok a w => .ok a { c with objects := w }
  | .error e w => .error e { c with objects := w }

/-! ### Pointers -/

def readMember (p : ℕ) (f : GroupPointer) : ClientM (Option ℕ) := fun c =>
  match (c.members p).pointer f with
  | some v => .ok v c
  | none => .error .wild c

def setMembers (c : Client) (p : ℕ) (m : Members) : Client :=
  { c with members := Function.update c.members p m }

def setPointer (c : Client) (p : ℕ) (f : GroupPointer) (v : Option ℕ) : Client :=
  c.setMembers p { c.members p with pointer := Function.update (c.members p).pointer f (some v) }

def setMember (p : ℕ) (f : GroupPointer) (v : Option ℕ) : ClientM Unit :=
  modify fun c => c.setPointer p f v

/-- A call through a pointer. -/
def deref (p : ℕ) (f : GroupPointer) : ClientM ℕ := do
  match ← readMember p f with
  | some a => return a
  | none => throw .wild

def releaseInterface (a : ℕ) : ClientM Unit :=
  modify fun c => { c with released := c.released ++ [a] }

/-- An interface given back and its pointer set to NULL. -/
def dropInterface (p : ℕ) (f : GroupPointer) : ClientM Unit := do
  releaseInterface (← deref p f)
  setMember p f none

/-- The same, if the pointer is not NULL. -/
def dropIfSet (p : ℕ) (f : GroupPointer) : ClientM Unit := do
  match ← readMember p f with
  | some a => do
    releaseInterface a
    setMember p f none
  | none => return ()

/-! ### A group -/

/-- `Detouch` -/
def detouch (p : ℕ) : ClientM Unit := do
  dropIfSet p .pUnGroup
  dropIfSet p .pIItems
  dropIfSet p .pISync

/-- The destructor.  The list of items goes with it. -/
def destroy (p : ℕ) : ClientM Unit := do
  detouch p
  let _ ← deref p .pItems
  let _ ← readMember p .pszName
  setMember p .pszName none

/-- `Release`, with the destructor behind the last reference. -/
def releaseGroup (p : ℕ) : ClientM Unit := do
  let x ← onObjects (Objects.object p)
  if x.nRefCount - 1 = 0 then
    destroy p
  onObjects (Objects.release p)

/-- `QueryInterface`, which gives NULL where it fails. -/
def queryInterface (r : GroupReplies) (iid : IID) : ClientM (Option ℕ) := do
  if failed (r.query iid) then return none
  else
    modify fun c => { c with acquired := c.acquired ++ [r.interface iid] }
    return some (r.interface iid)

/-- `UploadStatus`.  The length of the name is taken whether the server has given one or not. -/
def uploadStatus (r : GroupReplies) (p : ℕ) : ClientM HRESULT := do
  match r.szName with
  | none => throw .wild
  | some name => do
    let x ← onObjects (Objects.object p)
    onObjects (Objects.setObject p { x with group := { x.group with name } })
    setMember p .pszName (some (r.allocated .pszName))
    modify fun c => c.setMembers p { c.members p with hServer := r.hServer }
    return r.getState

/-- The constructor, and its `m_hrLast`. -/
def construct (r : GroupReplies) (p : ℕ) : ClientM HRESULT := do
  setMember p .pszName none
  setMember p .pUnGroup (← queryInterface r .iUnknown)
  if failed (r.query .iUnknown) then
    return r.query .iUnknown
  else
    setMember p .pIItems (← queryInterface r .iOPCItemMgt)
    if failed (r.query .iOPCItemMgt) then
      dropInterface p .pUnGroup
      return r.query .iOPCItemMgt
    else
      setMember p .pISync (← queryInterface r .iOPCSync)
      if failed (r.query .iOPCSync) then
        dropInterface p .pUnGroup
        dropInterface p .pIItems
        return r.query .iOPCSync
      else
        let _ ← queryInterface r .iOPCGroupStateMgt
        if failed (r.query .iOPCGroupStateMgt) then
          dropInterface p .pUnGroup
          dropInterface p .pIItems
          dropInterface p .pISync
          return r.query .iOPCGroupStateMgt
        else
          let hr ← uploadStatus r p
          releaseInterface (r.interface .iOPCGroupStateMgt)
          setMember p .pItems (some (r.allocated .pItems))
          return if succeeded hr then hr else S_OK

/-- A new group on the heap, of which no member is set. -/
def newGroup : ClientM ℕ := do
  let p := (← get).objects.heap.length
  modify fun c => { c with
    objects := { c.objects with heap := c.objects.heap.new ⟨0, ⟨[], [], []⟩⟩ }
    members := Function.update c.members p ⟨0, fun _ => none⟩ }
  return p

/-- `AddGroup` of a client that is connected. -/
def addGroup (server : Bytes → GroupReplies) (pszName : Bytes) : ClientM (Option ℕ) := do
  let r := server pszName
  onObjects Objects.makeList
  if failed r.addGroup then return none
  else
    modify fun c => { c with acquired := c.acquired ++ [r.pIUnk] }
    let p ← newGroup
    let hrLast ← construct r p
    onObjects (Objects.addRef p)
    releaseInterface r.pIUnk
    if failed hrLast then
      releaseGroup p
      return none
    else
      onObjects (Objects.add p)
      return some p

/-! ### Searching and removing -/

/-- The loop of `GetGroupByName`, with the position it has come to. -/
def searchGroupAt (pszName : Bytes) : ℕ → ℕ → Option ℕ → ObjectsM (Option ℕ × ℕ)
  | _, nPos, none => return (none, nPos)
  | 0, _, some _ => throw .wild
  | rounds + 1, nPos, some p => do
    let x ← Objects.object p
    if x.group.name = pszName then return (some p, nPos)
    else
      Objects.release p
      searchGroupAt pszName rounds (nPos + 1) (← Objects.next)

/-- `GetGroupByName` with `pnPos` -/
def getGroupByNameAt (pszName : Bytes) : ObjectsM (Option ℕ × ℕ) := do
  match (← get).groupList with
  | none => return (none, 0)
  | some l => searchGroupAt pszName l.nCount 0 (← Objects.first)

end Client

/-- The list without the entry at a position.  The loop goes one entry too far; in a full array that
is the memory behind it. -/
def CCObjectList.removed (behind : Option ℕ) (l : CCObjectList) (nPosition : ℕ) : CCObjectList :=
  { l with
    ppOArray := Cells.toList
      (Cells.closeGap (fun n => l.ppOArray[n]?.getD behind) (l.nCount - nPosition) nPosition)
      l.ppOArray.length
    nCount := l.nCount - 1 }

namespace Client

/-- `CCObjectList::Remove` on the list of groups. -/
def remove (behind : Option ℕ) (nPosition : ℕ) : ClientM Bool := do
  let l ← onObjects Objects.list
  if nPosition < l.nCount then
    match l.ppOArray[nPosition]? with
    | some (some p) => do
      releaseGroup p
      onObjects (Objects.setList (l.removed behind nPosition))
      return true
    | _ => throw .wild
  else return false

/-- The last answer of the server to the calls of `RemoveGroup`, the second of which has the force
flag. -/
def removeAnswer (server : ℕ → Bool → HRESULT) (hServer : ℕ) : HRESULT :=
  if server hServer false = OPC_S_INUSE then server hServer true else server hServer false

/-- `RemoveGroup` -/
def removeGroup (server : ℕ → Bool → HRESULT) (behind : Option ℕ) (pszName : Bytes) :
    ClientM Bool := do
  match ← onObjects (getGroupByNameAt pszName) with
  | (none, _) => return true
  | (some p, nPos) => do
    detouch p
    let hrLast := removeAnswer server ((← get).members p).hServer
    releaseGroup p
    if failed hrLast then return false
    else
      let _ ← remove behind nPos
      return true

end Client

/-! ### Calls of a group -/

inductive GroupCall where
  | addItems
  | readItems
  | writeItems
  deriving DecidableEq, Repr

/-- The interface that a call goes through, if it has items for the server. -/
def GroupCall.through (g : COPCGroup) : GroupCall → Option GroupPointer
  | .addItems => if getNewItems g.items = [] then none else some .pIItems
  | .readItems => if (getItems2Read false g.items).2 = [] then none else some .pISync
  | .writeItems => if getItems2Write g.items = [] then none else some .pISync

/-- The group behind a call, and its result. -/
def GroupCall.run (r : Replies) (g : COPCGroup) : GroupCall → COPCGroup × Option HRESULT
  | .addItems => ((g.addItems r).1, some (g.addItems r).2)
  | .readItems => ((g.readItems r).1, (g.readItems r).2.2)
  | .writeItems => ((g.writeItems r).1, some (g.writeItems r).2.2)

/-- A call on the group at an address. -/
def Client.groupCall (r : Replies) (call : GroupCall) (p : ℕ) : ClientM (Option HRESULT) := do
  let x ← onObjects (Objects.object p)
  match call.through x.group with
  | some f => let _ ← deref p f
  | none => pure ()
  let (g, hr) := call.run r x.group
  onObjects (Objects.setObject p { x with group := g })
  return hr

/-! ### Steps -/

namespace Client

section

variable {c : Client} {p q : ℕ} {f g : GroupPointer} {v : Option ℕ} {a : ℕ}

@[simp] theorem members_setMembers_self (c : Client) (p : ℕ) (m : Members) :
    (c.setMembers p m).members p = m := Function.update_self ..

theorem members_setMembers_ne (h : q ≠ p) (c : Client) (m : Members) :
    (c.setMembers p m).members q = c.members q := Function.update_of_ne h ..

@[simp] theorem pointer_setPointer (c : Client) (p : ℕ) (f g : GroupPointer) (v : Option ℕ) :
    ((c.setPointer p f v).members p).pointer g =
      if g = f then some v else (c.members p).pointer g := by
  rw [setPointer, members_setMembers_self]
  split_ifs with h
  · subst h
    exact Function.update_self ..
  · exact Function.update_of_ne h ..

@[simp] theorem acquired_setPointer (c : Client) (p : ℕ) (f : GroupPointer) (v : Option ℕ) :
    (c.setPointer p f v).acquired = c.acquired := rfl

@[simp] theorem released_setPointer (c : Client) (p : ℕ) (f : GroupPointer) (v : Option ℕ) :
    (c.setPointer p f v).released = c.released := rfl

theorem setMember_eq : setMember p f v c = .ok () (c.setPointer p f v) := rfl

/-- An interface that is refused. -/
theorem queryInterface_refused {r : GroupReplies} {iid : IID} (h : failed (r.query iid) = true) :
    queryInterface r iid c = .ok none c := by
  rw [queryInterface, if_pos h]
  rfl

theorem queryInterface_granted {r : GroupReplies} {iid : IID} (h : failed (r.query iid) = false) :
    queryInterface r iid c =
      .ok (some (r.interface iid)) { c with acquired := c.acquired ++ [r.interface iid] } := by
  rw [queryInterface, if_neg (by rw [h]; exact Bool.false_ne_true)]
  rfl

theorem onObjects_ok {α : Type} {x : ObjectsM α} {b : α} {w : Objects}
    (h : x c.objects = .ok b w) : onObjects x c = .ok b { c with objects := w } := by
  rw [onObjects, h]

theorem readMember_eq (h : (c.members p).pointer f = some v) : readMember p f c = .ok v c := by
  rw [readMember, h]

/-- A member that was not set. -/
theorem readMember_unset (h : (c.members p).pointer f = none) :
    readMember p f c = .error .wild c := by
  rw [readMember, h]

theorem deref_eq (h : (c.members p).pointer f = some (some a)) : deref p f c = .ok a c := by
  rw [deref, bind_of_ok (readMember_eq h)]
  rfl

theorem deref_unset (h : (c.members p).pointer f = none) : deref p f c = .error .wild c := by
  rw [deref, bind_of_error (readMember_unset h)]

/-- A call through NULL. -/
theorem deref_null (h : (c.members p).pointer f = some none) : deref p f c = .error .wild c := by
  rw [deref, bind_of_ok (readMember_eq h)]
  rfl

/-- An interface got, and a pointer to it. -/
def granted (c : Client) (p : ℕ) (f : GroupPointer) (a : ℕ) : Client :=
  { c with acquired := c.acquired ++ [a] }.setPointer p f (some a)

/-- An interface given back, and its pointer set to NULL. -/
def giveBack (c : Client) (p : ℕ) (f : GroupPointer) (a : ℕ) : Client :=
  { c with released := c.released ++ [a] }.setPointer p f none

@[simp] theorem pointer_granted (c : Client) (p : ℕ) (f g : GroupPointer) (a : ℕ) :
    ((c.granted p f a).members p).pointer g =
      if g = f then some (some a) else (c.members p).pointer g := pointer_setPointer ..

@[simp] theorem pointer_giveBack (c : Client) (p : ℕ) (f g : GroupPointer) (a : ℕ) :
    ((c.giveBack p f a).members p).pointer g =
      if g = f then some none else (c.members p).pointer g := pointer_setPointer ..

@[simp] theorem acquired_granted (c : Client) (p : ℕ) (f : GroupPointer) (a : ℕ) :
    (c.granted p f a).acquired = c.acquired ++ [a] := rfl

@[simp] theorem acquired_giveBack (c : Client) (p : ℕ) (f : GroupPointer) (a : ℕ) :
    (c.giveBack p f a).acquired = c.acquired := rfl

@[simp] theorem released_granted (c : Client) (p : ℕ) (f : GroupPointer) (a : ℕ) :
    (c.granted p f a).released = c.released := rfl

@[simp] theorem released_giveBack (c : Client) (p : ℕ) (f : GroupPointer) (a : ℕ) :
    (c.giveBack p f a).released = c.released ++ [a] := rfl

theorem members_setPointer_ne (h : q ≠ p) (c : Client) (f : GroupPointer) (v : Option ℕ) :
    (c.setPointer p f v).members q = c.members q := members_setMembers_ne h ..

theorem members_granted_ne (h : q ≠ p) (c : Client) (f : GroupPointer) (a : ℕ) :
    (c.granted p f a).members q = c.members q := members_setPointer_ne h ..

/-- An interface asked for and put into its pointer. -/
theorem queryMember_granted {α : Type} {r : GroupReplies} {iid : IID}
    (h : failed (r.query iid) = false) (f : GroupPointer) (k : Unit → ClientM α) :
    (queryInterface r iid >>= fun v => setMember p f v >>= k) c =
      k () (c.granted p f (r.interface iid)) := by
  rw [bind_of_ok (queryInterface_granted h), bind_of_ok setMember_eq]
  rfl

theorem queryMember_refused {α : Type} {r : GroupReplies} {iid : IID}
    (h : failed (r.query iid) = true) (f : GroupPointer) (k : Unit → ClientM α) :
    (queryInterface r iid >>= fun v => setMember p f v >>= k) c = k () (c.setPointer p f none) := by
  rw [bind_of_ok (queryInterface_refused h), bind_of_ok setMember_eq]

theorem dropInterface_eq (h : (c.members p).pointer f = some (some a)) :
    dropInterface p f c = .ok () (c.giveBack p f a) := by
  rw [dropInterface, bind_of_ok (deref_eq h)]
  rfl

theorem dropIfSet_eq (h : (c.members p).pointer f = some (some a)) :
    dropIfSet p f c = .ok () (c.giveBack p f a) := by
  rw [dropIfSet, bind_of_ok (readMember_eq h)]
  rfl

theorem dropIfSet_null (h : (c.members p).pointer f = some none) : dropIfSet p f c = .ok () c := by
  rw [dropIfSet, bind_of_ok (readMember_eq h)]
  rfl

theorem dropIfSet_unset (h : (c.members p).pointer f = none) :
    dropIfSet p f c = .error .wild c := by
  rw [dropIfSet, bind_of_error (readMember_unset h)]

/-- A call whose interface is there, if it needs one. -/
theorem groupCall_returns {x : GroupObject} {r : Replies} {call : GroupCall}
    (hx : c.objects.heap.get p = some x)
    (hset : ∀ f ∈ call.through x.group, ∃ a, (c.members p).pointer f = some (some a)) :
    groupCall r call p c = .ok (call.run r x.group).2 { c with objects := { c.objects with
      heap := c.objects.heap.store p { x with group := (call.run r x.group).1 } } } := by
  rw [groupCall, bind_of_ok (onObjects_ok (Objects.object_eq hx))]
  cases hthrough : call.through x.group with
  | none => rfl
  | some f =>
    obtain ⟨a, ha⟩ := hset f hthrough
    simp only
    rw [bind_of_ok (deref_eq ha)]
    rfl

/-- A call that needs an interface which is not there. -/
theorem groupCall_wild {x : GroupObject} {r : Replies} {call : GroupCall}
    (hx : c.objects.heap.get p = some x)
    (hset : ¬ ∀ f ∈ call.through x.group, ∃ a, (c.members p).pointer f = some (some a)) :
    groupCall r call p c = .error .wild c := by
  simp only [not_forall, not_exists, Option.mem_def] at hset
  obtain ⟨f, hthrough, hno⟩ := hset
  have hwild : deref p f c = .error .wild c := by
    cases hf : (c.members p).pointer f with
    | none => exact deref_unset hf
    | some v =>
      cases v with
      | none => exact deref_null hf
      | some a => exact absurd hf (hno a)
  rw [groupCall, bind_of_ok (onObjects_ok (Objects.object_eq hx)), hthrough]
  simp only
  rw [bind_of_error hwild]

theorem groupCall_noObject {r : Replies} {call : GroupCall} (hx : c.objects.heap.get p = none) :
    groupCall r call p c = .error .wild c := by
  have hobject : onObjects (Objects.object p) c = .error .wild c := by
    rw [onObjects, Objects.object, hx]
  rw [groupCall, bind_of_error hobject]

end

end Client

end OpcS7

end Edps
