import Edps.OpcS7.ClientRuns
import Edps.OpcS7.References

/-!
# The server object

`COpcServer` holds interfaces of its server, the list of groups, and a sink that the server tells
of its shutdown.  `Disconnect` takes their interfaces from the groups, drops the groups and gives
back what is its own.

* `Client.removeGroups` : `RemoveGroups`, with the destructor of the list.
* `COpcServer.connect`, `COpcServer.disconnect` : the operations.
* `COpcServer.Unconnected`, `COpcServer.Connected` : the states between two operations.
* `connect_cases`, `disconnect_settles` : what they come to, with an account of the interfaces.
-/

namespace Edps

namespace OpcS7

/-! ### The groups of a server -/

namespace Client

/-- The loop of `RemoveGroups`, with the group it has come to. -/
def detouchGroups : ℕ → Option ℕ → ClientM Unit
  | _, none => return ()
  | 0, some _ => throw .wild
  | rounds + 1, some p => do
    detouch p
    releaseGroup p
    detouchGroups rounds (← onObjects Objects.next)

/-- The destructor of a list, on the entries that it counts. -/
def releaseEntries : List (Option ℕ) → ClientM Unit
  | [] => return ()
  | none :: _ => throw .wild
  | some p :: entries => do
    releaseGroup p
    releaseEntries entries

/-- `RemoveGroups`.  The answers of the server are not looked at. -/
def removeGroups : ClientM Unit := do
  match (← get).objects.groupList with
  | none => return ()
  | some l => do
    detouchGroups l.nCount (← onObjects Objects.first)
    releaseEntries (l.ppOArray.take l.nCount)
    modify fun c => { c with objects := { c.objects with groupList := none } }

/-- What a call does on its group, which is released behind it. -/
def onGroup (body : COPCGroup → COPCGroup × CallLog) (p : ℕ) : ClientM CallLog := do
  let x ← onObjects (Objects.object p)
  let (g, log) := body x.group
  onObjects (Objects.setObject p { x with group := g })
  releaseGroup p
  return log

end Client

/-! ### The server object -/

/-- The interfaces that a `COpcServer` holds. -/
inductive ServerPointer where
  | pIOpcCommon
  | pIOpcServer
  | pConnShutdown
  deriving DecidableEq, Repr

/-- The sink, whose parent is the server object, with the references that the server keeps to it
from `Advise` to `Unadvise`. -/
structure COpcShutdownAdviseSink where
  cRef : ℤ
  kept : ℕ
  deriving DecidableEq, Repr

/-- `COpcServer`, with its groups and with the sinks that it has made. -/
structure COpcServer where
  client : Client
  pointer : ServerPointer → Option ℕ
  pObjShutdown : Option ℕ
  dwAdviseCookie : BitVec 32
  sinks : Heap COpcShutdownAdviseSink

abbrev ServerM := EStateM Fault COpcServer

/-- The interfaces that are asked for. -/
inductive ServerIID where
  | iOPCCommon
  | iOPCServer
  | iConnectionPointContainer
  deriving DecidableEq, Repr

/-- What `Connect` is answered: by the registry, by `CoCreateInstanceEx` as a whole and for each
interface, and by the connection point. -/
structure ConnectReplies where
  clsid : HRESULT
  create : HRESULT
  hr : ServerIID → HRESULT
  pItf : ServerIID → ℕ
  findConnectionPoint : HRESULT
  pConnShutdown : ℕ
  advise : HRESULT
  cookie : BitVec 32
  /-- The references that the server keeps after `Advise`. -/
  kept : ℕ

def E_NOINTERFACE : HRESULT := -2147467262

/-- The interfaces that `Connect` cannot do without are there. -/
def ConnectReplies.whole (r : ConnectReplies) : Bool :=
  !failed r.create && !failed (r.hr .iOPCCommon) && !failed (r.hr .iOPCServer)

/-- `Connect` comes to a connection. -/
def ConnectReplies.connects (r : ConnectReplies) : Bool := !failed r.clsid && r.whole

/-- An interface, if it is there. -/
def ConnectReplies.itf (r : ConnectReplies) (iid : ServerIID) : Option ℕ :=
  if failed (r.hr iid) then none else some (r.pItf iid)

namespace COpcServer

variable {α : Type}

/-- The constructor. -/
def new : COpcServer := ⟨Client.noGroups, fun _ => none, none, -1, []⟩

/-- What only concerns the groups. -/
def onClient (x : ClientM α) : ServerM α := fun s =>
  match x s.client with
  | .ok a c => .ok a { s with client := c }
  | .error e c => .error e { s with client := c }

def acquire (a : ℕ) : ServerM Unit :=
  modify fun s => { s with client := { s.client with acquired := s.client.acquired ++ [a] } }

def giveBack (a : ℕ) : ServerM Unit := onClient (Client.releaseInterface a)

def setPointer (f : ServerPointer) (v : Option ℕ) : ServerM Unit :=
  modify fun s => { s with pointer := Function.update s.pointer f v }

/-- An interface given back and its pointer set to NULL, if it is not NULL. -/
def drop (f : ServerPointer) : ServerM Unit := do
  match (← get).pointer f with
  | some a => do
    giveBack a
    setPointer f none
  | none => return ()

/-! ### The sink -/

def sink (p : ℕ) : ServerM COpcShutdownAdviseSink := fun s =>
  match s.sinks.get p with
  | some x => .ok x s
  | none => .error .wild s

def setSink (p : ℕ) (x : COpcShutdownAdviseSink) : ServerM Unit :=
  modify fun s => { s with sinks := s.sinks.store p x }

/-- `Release` of a sink.  Its destructor sets the pointer of its parent to NULL. -/
def releaseSink (p : ℕ) : ServerM Unit := do
  let x ← sink p
  if x.cRef - 1 = 0 then
    modify fun s => { s with sinks := s.sinks.delete p, pObjShutdown := none }
  else
    setSink p { x with cRef := x.cRef - 1 }

/-- A sink is made and `Advise` called with it.  Besides the reference of the server object there is
one for the interface that is passed. -/
def advise (r : ConnectReplies) : ServerM Unit := do
  let p := (← get).sinks.length
  modify fun s => { s with sinks := s.sinks.new ⟨2, 0⟩, pObjShutdown := some p }
  if failed r.advise then
    releaseSink p
    releaseSink p
    drop .pConnShutdown
  else
    setSink p ⟨2 + r.kept, r.kept⟩
    modify fun s => { s with dwAdviseCookie := r.cookie }
    releaseSink p

/-- `Unadvise`: the server drops its references. -/
def unadvise (p : ℕ) : ServerM Unit := do
  let x ← sink p
  setSink p ⟨x.cRef - x.kept, 0⟩

/-! ### Connecting and disconnecting -/

/-- The sink is taken back, unless its cookie is the one of a server object without a sink. -/
def dropSink : ServerM Unit := do
  match (← get).pObjShutdown with
  | some p =>
    if (← get).dwAdviseCookie ≠ -1 then
      unadvise p
      releaseSink p
  | none => return ()

/-- `Disconnect` -/
def disconnect : ServerM Bool := do
  match (← get).pointer .pIOpcServer with
  | none => return false
  | some _ => do
    match (← get).pointer .pConnShutdown with
    | some a => do
      dropSink
      giveBack a
    | none => pure ()
    onClient Client.removeGroups
    drop .pIOpcServer
    drop .pIOpcCommon
    setPointer .pConnShutdown none
    return true

/-- An interface that is there, into its pointer. -/
def storeInterface (r : ConnectReplies) (iid : ServerIID) (f : ServerPointer) : ServerM Unit := do
  match r.itf iid with
  | some a => do
    acquire a
    setPointer f (some a)
  | none => return ()

/-- The sink for the shutdown of the server, if it has connection points. -/
def attachSink (r : ConnectReplies) : ServerM Unit := do
  match r.itf .iConnectionPointContainer with
  | some a => do
    if failed r.findConnectionPoint then pure ()
    else
      acquire r.pConnShutdown
      setPointer .pConnShutdown (some r.pConnShutdown)
      advise r
    giveBack a
  | none => return ()

/-- `Connect` by name.  `CoCreateInstanceEx` gives no interface where it fails, except that it may
just have found none. -/
def connect (r : ConnectReplies) : ServerM Bool := do
  if failed r.clsid then return false
  else
    let _ ← disconnect
    if failed r.create ∧ r.create ≠ E_NOINTERFACE then return false
    else
      storeInterface r .iOPCCommon .pIOpcCommon
      storeInterface r .iOPCServer .pIOpcServer
      (r.itf .iConnectionPointContainer).forM acquire
      if r.whole then
        attachSink r
        return true
      else
        drop .pIOpcCommon
        drop .pIOpcServer
        (r.itf .iConnectionPointContainer).forM giveBack
        return false

/-- `AddGroup` -/
def addGroup (server : Bytes → GroupReplies) (szName : Bytes) : ServerM (Option ℕ) := do
  match (← get).pointer .pIOpcServer with
  | none => return none
  | some _ => onClient (Client.addGroup server szName)

end COpcServer

/-! ### Interfaces of groups -/

/-- The interfaces that a group holds. -/
def Members.interfaces (m : Members) : List ℕ :=
  [GroupPointer.pUnGroup, .pIItems, .pISync].filterMap fun f => (m.pointer f).join

namespace Client

open Objects

/-- The interfaces that groups hold. -/
def interfaces (c : Client) (ps : List ℕ) : List ℕ := ps.flatMap fun p => (c.members p).interfaces

section

variable {c c' : Client} {p : ℕ} {ps : List ℕ} {f : GroupPointer} {v : Option ℕ}

theorem interfaces_congr (h : ∀ p ∈ ps, c'.members p = c.members p) :
    c'.interfaces ps = c.interfaces ps := by
  unfold interfaces
  rw [List.flatMap_def, List.flatMap_def]
  exact congrArg List.flatten (List.map_congr_left fun p hp => by rw [h p hp])

/-- What a group holds when its pointers are known. -/
theorem interfaces_eq {m : Members} {u i s : Option ℕ} (hu : m.pointer .pUnGroup = some u)
    (hi : m.pointer .pIItems = some i) (hs : m.pointer .pISync = some s) :
    m.interfaces = u.toList ++ (i.toList ++ s.toList) := by
  simp only [Members.interfaces, List.filterMap_cons, hu, hi, hs, Option.join_some,
    List.filterMap_nil]
  cases u <;> cases i <;> cases s <;> rfl

/-- An interface given back is one that the pointer held. -/
theorem dropIfSet_gives (hset : (c.members p).pointer f = some v) :
    ∃ c', dropIfSet p f c = .ok () c' ∧ Nulled c c' p [f] ∧ c'.acquired = c.acquired ∧
      c'.released = c.released ++ v.toList := by
  obtain ⟨c', hdrop, hnulls⟩ := dropIfSet_nulls (hset ▸ Option.some_ne_none v)
  refine ⟨c', hdrop, hnulls, ?_⟩
  cases v with
  | none =>
    rw [dropIfSet_null hset] at hdrop
    cases hdrop
    exact ⟨rfl, (List.append_nil _).symm⟩
  | some a =>
    rw [dropIfSet_eq hset] at hdrop
    cases hdrop
    exact ⟨rfl, rfl⟩

/-- **`Detouch`** gives back what the group holds. -/
theorem detouch_gives (hb : Built (c.members p)) :
    ∃ c', detouch p c = .ok () c' ∧ Nulled c c' p [.pUnGroup, .pIItems, .pISync] ∧
      c'.acquired = c.acquired ∧ c'.released = c.released ++ (c.members p).interfaces := by
  obtain ⟨u, hu⟩ := Option.ne_none_iff_exists'.1 (hb.set .pUnGroup)
  obtain ⟨i, hi⟩ := Option.ne_none_iff_exists'.1 (hb.set .pIItems)
  obtain ⟨s, hs⟩ := Option.ne_none_iff_exists'.1 (hb.set .pISync)
  obtain ⟨c₁, hdrop₁, hnulls₁, hacq₁, hrel₁⟩ := dropIfSet_gives hu
  have hi₁ : (c₁.members p).pointer .pIItems = some i := (hnulls₁.pointer _).trans hi
  have hs₁ : (c₁.members p).pointer .pISync = some s := (hnulls₁.pointer _).trans hs
  obtain ⟨c₂, hdrop₂, hnulls₂, hacq₂, hrel₂⟩ := dropIfSet_gives hi₁
  have hs₂ : (c₂.members p).pointer .pISync = some s := (hnulls₂.pointer _).trans hs₁
  obtain ⟨c₃, hdrop₃, hnulls₃, hacq₃, hrel₃⟩ := dropIfSet_gives hs₂
  refine ⟨c₃, ?_, (hnulls₁.trans hnulls₂).trans hnulls₃, ?_, ?_⟩
  · rw [detouch, bind_of_ok hdrop₁, bind_of_ok hdrop₂, hdrop₃]
  · rw [hacq₃, hacq₂, hacq₁]
  · rw [hrel₃, hrel₂, hrel₁, interfaces_eq hu hi hs, List.append_assoc, List.append_assoc]

/-- The last reference to a group without interfaces. -/
theorem releaseGroup_last {g : COPCGroup} (hx : c.objects.heap.get p = some ⟨1, g⟩)
    (hb : Built (c.members p)) (hd : Detached (c.members p)) :
    releaseGroup p c = .ok () { c.setPointer p .pszName none with
      objects := { c.objects with heap := c.objects.heap.delete p } } := by
  obtain ⟨a, ha⟩ := hb.items
  obtain ⟨v, hv⟩ := Option.ne_none_iff_exists'.1 (hb.set .pszName)
  have hdestroy : destroy p c = .ok () (c.setPointer p .pszName none) := by
    rw [destroy, bind_of_ok (detouch_detached hd), bind_of_ok (deref_eq ha),
      bind_of_ok (readMember_eq hv)]
    rfl
  have hlast : (1 : ℤ) - 1 = 0 := by decide
  rw [releaseGroup, bind_of_ok (onObjects_ok (object_eq hx)), if_pos hlast, bind_of_ok hdestroy]
  exact onObjects_ok (c := c.setPointer p .pszName none) (release_last hx hlast)

/-- **The destructor of a list** whose groups are detached and have no other references. -/
theorem releaseEntries_deletes (hdistinct : ps.Nodup)
    (hlast : ∀ p ∈ ps, ∃ g, c.objects.heap.get p = some ⟨1, g⟩)
    (hb : ∀ p ∈ ps, Built (c.members p)) (hd : ∀ p ∈ ps, Detached (c.members p)) :
    ∃ c', releaseEntries (ps.map some) c = .ok () c' ∧ c'.acquired = c.acquired ∧
      c'.released = c.released ∧ (∀ p ∈ ps, c'.objects.heap.get p = none) ∧
      ∀ q ∉ ps, c'.objects.heap.get q = c.objects.heap.get q := by
  induction ps generalizing c with
  | nil => exact ⟨c, rfl, rfl, rfl, fun p hp => absurd hp List.not_mem_nil, fun _ _ => rfl⟩
  | cons p ps ih =>
    obtain ⟨hnew, hdistinct⟩ := List.nodup_cons.1 hdistinct
    obtain ⟨g, hx⟩ := hlast p List.mem_cons_self
    set c₁ : Client := { c.setPointer p .pszName none with
      objects := { c.objects with heap := c.objects.heap.delete p } } with hc₁
    have hrelease : releaseGroup p c = .ok () c₁ :=
      releaseGroup_last hx (hb p List.mem_cons_self) (hd p List.mem_cons_self)
    have hget (q : ℕ) (hq : q ≠ p) : c₁.objects.heap.get q = c.objects.heap.get q :=
      Heap.get_delete_ne hq
    have hne (q : ℕ) (hq : q ∈ ps) : q ≠ p := fun heq => hnew (heq ▸ hq)
    have hmembers (q : ℕ) (hq : q ∈ ps) : c₁.members q = c.members q :=
      members_setPointer_ne (hne q hq) c _ _
    obtain ⟨c', hrest, hacq, hrel, hgone, hothers⟩ := ih (c := c₁) hdistinct
      (fun q hq => by
        rw [hget q (hne q hq)]
        exact hlast q (List.mem_cons_of_mem p hq))
      (fun q hq => by
        rw [hmembers q hq]
        exact hb q (List.mem_cons_of_mem p hq))
      (fun q hq => by
        rw [hmembers q hq]
        exact hd q (List.mem_cons_of_mem p hq))
    refine ⟨c', ?_, hacq, hrel, ?_, ?_⟩
    · rw [List.map_cons, releaseEntries, bind_of_ok hrelease, hrest]
    · intro q hq
      rcases List.mem_cons.1 hq with rfl | hq
      · rw [hothers q hnew]
        exact Heap.get_delete_self
      · exact hgone q hq
    · intro q hq
      rw [List.mem_cons, not_or] at hq
      rw [hothers q hq.2, hget q hq.1]

/-- What a loop over the groups from `n` on comes to. -/
structure Detouched (w : Objects) (ps : List ℕ) (c c' : Client) : Prop where
  objects : ∃ n, c'.objects = w.cursor n
  acquired : c'.acquired = c.acquired
  released : c'.released = c.released ++ c.interfaces ps
  groups : ∀ p ∈ ps, Built (c'.members p) ∧ Detached (c'.members p)
  others : ∀ q ∉ ps, c'.members q = c.members q

variable {w : Objects} {state : SapiState} {l : CCObjectList}

/-- **The loop of `RemoveGroups`.** -/
theorem detouchGroups_ends (h : Shows w state ps) (hl : w.groupList = some l) {rounds n : ℕ}
    {g : COPCGroup} (hrounds : ps.length ≤ n + rounds) (hp : ps[n]? = some p)
    (hget : w.heap.get p = some ⟨1, g⟩) (hc : c.objects = (w.cursor n).hold p g)
    (hb : ∀ q ∈ ps.drop n, Built (c.members q)) :
    ∃ c', detouchGroups rounds (some p) c = .ok () c' ∧ Detouched w (ps.drop n) c c' := by
  induction rounds generalizing n p g c with
  | zero =>
    have hlt := (List.getElem?_eq_some_iff.1 hp).1
    omega
  | succ rounds ih =>
    obtain ⟨hlt, hat⟩ := List.getElem?_eq_some_iff.1 hp
    have hdrop : ps.drop n = p :: ps.drop (n + 1) := by rw [List.drop_eq_getElem_cons hlt, hat]
    have hdistinct : (ps.drop n).Nodup := h.distinct.sublist (List.drop_sublist n ps)
    rw [hdrop] at hb hdistinct ⊢
    obtain ⟨hnew, -⟩ := List.nodup_cons.1 hdistinct
    obtain ⟨c₁, hdetouch, hnulls, hacq, hrel⟩ := detouch_gives (hb p List.mem_cons_self)
    -- the reference of the loop is dropped
    have hget₁ : c₁.objects.heap.get p = some ⟨2, g⟩ := by
      rw [hnulls.objects, hc]
      exact Heap.get_store_self hget
    have hdropped : Objects.release p c₁.objects = .ok () (w.cursor n) := by
      rw [hnulls.objects, hc]
      exact release_hold hget
    set c₂ : Client := { c₁ with objects := w.cursor n } with hc₂
    have hrelease : releaseGroup p c₁ = .ok () c₂ :=
      releaseGroup_more hget₁ (by show (2 : ℤ) - 1 ≠ 0; decide) hdropped
    have hmembers (q : ℕ) (hq : q ∈ ps.drop (n + 1)) : c₂.members q = c.members q :=
      hnulls.others q fun heq => hnew (heq ▸ hq)
    have hinterfaces : c.interfaces (p :: ps.drop (n + 1)) =
        (c.members p).interfaces ++ c₂.interfaces (ps.drop (n + 1)) := by
      rw [interfaces_congr hmembers]
      rfl
    have hbuilt : Built (c₂.members p) :=
      hnulls.built (by decide) (hb p List.mem_cons_self)
    have hend {c' : Client} (hrest : Detouched w (ps.drop (n + 1)) c₂ c') :
        Detouched w (p :: ps.drop (n + 1)) c c' :=
      { objects := hrest.objects
        acquired := hrest.acquired.trans hacq
        released := by
          rw [hrest.released, hinterfaces, ← List.append_assoc]
          exact congrArg (· ++ _) hrel
        groups := by
          intro q hq
          rcases List.mem_cons.1 hq with rfl | hq
          · rw [hrest.others q hnew]
            exact ⟨hbuilt, hnulls.detached⟩
          · exact hrest.groups q hq
        others := by
          intro q hq
          rw [List.mem_cons, not_or] at hq
          rw [hrest.others q hq.2]
          exact hnulls.others q hq.1 }
    rw [detouchGroups, bind_of_ok hdetouch, bind_of_ok hrelease]
    rcases refEntry_or_end h hl (n + 1) with ⟨q, g', hq, -, hget', hless, href⟩ | ⟨hnot, hlen⟩
    · have hnext : Objects.next c₂.objects = .ok (some q) ((w.cursor (n + 1)).hold q g') := by
        rw [next_eq hl, if_pos hless, href]
      obtain ⟨c', hrest, hall⟩ := ih (c := { c₂ with objects := (w.cursor (n + 1)).hold q g' })
        (by omega) hq hget' rfl fun q hq => by
          rw [hmembers q hq]
          exact hb q (List.mem_cons_of_mem p hq)
      exact ⟨c', by rw [bind_of_ok (onObjects_ok hnext), hrest], hend ⟨hall.objects, hall.acquired,
        hall.released, hall.groups, hall.others⟩⟩
    · have hnext : Objects.next c₂.objects = .ok none (w.cursor (n + 1)) := by
        rw [next_eq hl, if_neg hnot]
      have hnil : ps.drop (n + 1) = [] := List.drop_eq_nil_of_le (by rw [h.length]; exact hlen)
      refine ⟨{ c₂ with objects := w.cursor (n + 1) }, ?_, hend ⟨⟨n + 1, rfl⟩, rfl, ?_, ?_,
        fun _ _ => rfl⟩⟩
      · rw [bind_of_ok (onObjects_ok hnext)]
        cases rounds <;> rfl
      · rw [hnil]
        exact (List.append_nil _).symm
      · rw [hnil]
        exact fun p hp => absurd hp List.not_mem_nil

/-- **`RemoveGroups`** gives back what the groups hold, and leaves no group. -/
theorem removeGroups_gives (h : Shows c.objects state ps) (hb : ∀ p ∈ ps, Built (c.members p)) :
    ∃ c', removeGroups c = .ok () c' ∧ c'.acquired = c.acquired ∧
      c'.released = c.released ++ c.interfaces ps ∧ c'.objects.groupList = none ∧
      ∀ p, c'.objects.heap.get p = none := by
  rw [removeGroups, bind_get]
  cases hl : c.objects.groupList with
  | none =>
    have hnil : ps = [] := h.noList hl
    refine ⟨c, rfl, rfl, ?_, hl, ?_⟩
    · rw [hnil]
      exact (List.append_nil _).symm
    · intro p
      refine Option.eq_none_iff_forall_ne_some.2 ?_
      intro x hx
      have hmem := h.live p x hx
      rw [hnil] at hmem
      cases hmem
  | some l =>
    obtain ⟨hcount, harray, -⟩ := h.list l hl
    have hloop : ∃ c₁, (onObjects Objects.first >>= detouchGroups l.nCount) c = .ok () c₁ ∧
        Detouched c.objects ps c c₁ := by
      rcases refEntry_or_end h hl 0 with ⟨p, g, hp, -, hget, hless, href⟩ | ⟨hnot, hlen⟩
      · have hfirst : Objects.first c.objects =
            .ok (some p) ((c.objects.cursor 0).hold p g) := by
          rw [first_eq hl, if_pos hless, href]
        have hrounds : ps.length ≤ 0 + l.nCount := by omega
        obtain ⟨c₁, hloop, hall⟩ := detouchGroups_ends
          (c := { c with objects := (c.objects.cursor 0).hold p g }) h hl hrounds hp hget rfl
          fun q hq => hb q (List.mem_of_mem_drop hq)
        exact ⟨c₁, by rw [bind_of_ok (onObjects_ok hfirst), hloop], hall.objects, hall.acquired,
          hall.released, hall.groups, hall.others⟩
      · have hfirst : Objects.first c.objects = .ok none (c.objects.cursor 0) := by
          rw [first_eq hl, if_neg hnot]
        have hnil : ps = [] := by
          refine List.eq_nil_of_length_eq_zero ?_
          rw [h.length]
          omega
        refine ⟨{ c with objects := c.objects.cursor 0 }, ?_, ⟨0, rfl⟩, rfl, ?_, ?_, fun _ _ => rfl⟩
        · rw [bind_of_ok (onObjects_ok hfirst)]
          cases l.nCount <;> rfl
        · rw [hnil]
          exact (List.append_nil _).symm
        · rw [hnil]
          exact fun p hp => absurd hp List.not_mem_nil
    obtain ⟨c₁, hloop, hall⟩ := hloop
    obtain ⟨n, hobj⟩ := hall.objects
    have hlast : ∀ p ∈ ps, ∃ g, c₁.objects.heap.get p = some ⟨1, g⟩ := by
      intro p hp
      obtain ⟨k, hk⟩ := List.getElem?_of_mem hp
      obtain ⟨g, -, hget⟩ := h.get hk
      exact ⟨g, by rw [hobj]; exact hget⟩
    obtain ⟨c₂, hentries, hacq, hrel, hgone, hothers⟩ := releaseEntries_deletes h.distinct hlast
      (fun p hp => (hall.groups p hp).1) fun p hp => (hall.groups p hp).2
    refine ⟨{ c₂ with objects := { c₂.objects with groupList := none } }, ?_,
      hacq.trans hall.acquired, hrel.trans hall.released, rfl, ?_⟩
    · simp only
      rw [← bind_assoc, bind_of_ok hloop, hcount, harray, bind_of_ok hentries]
      rfl
    · intro p
      show c₂.objects.heap.get p = none
      by_cases hp : p ∈ ps
      · exact hgone p hp
      · rw [hothers p hp, hobj]
        refine Option.eq_none_iff_forall_ne_some.2 ?_
        intro x hx
        exact hp (h.live p x hx)

/-! ### `AddGroup` -/

theorem onObjects_frame {α : Type} {x : ObjectsM α} {a : α} (heq : onObjects x c = .ok a c') :
    c'.members = c.members ∧ c'.acquired = c.acquired ∧ c'.released = c.released := by
  rw [onObjects] at heq
  cases hx : x c.objects with
  | ok b w =>
    rw [hx] at heq
    cases heq
    exact ⟨rfl, rfl, rfl⟩
  | error e w =>
    rw [hx] at heq
    cases heq

/-- What the constructor has got when it returns, and what it has given back. -/
theorem construct_account {r : GroupReplies} {hr : HRESULT}
    (h : ∀ iid, failed (r.query iid) = false) (heq : construct r p c = .ok hr c') :
    c'.acquired = c.acquired ++ [r.interface .iUnknown, r.interface .iOPCItemMgt,
        r.interface .iOPCSync, r.interface .iOPCGroupStateMgt] ∧
      c'.released = c.released ++ [r.interface .iOPCGroupStateMgt] ∧
      (c'.members p).interfaces =
        [r.interface .iUnknown, r.interface .iOPCItemMgt, r.interface .iOPCSync] := by
  set c₁ := (c.setPointer p .pszName none).granted p .pUnGroup (r.interface .iUnknown) with hc₁
  set c₂ := c₁.granted p .pIItems (r.interface .iOPCItemMgt) with hc₂
  set c₃ := c₂.granted p .pISync (r.interface .iOPCSync) with hc₃
  set c₄ : Client :=
    { c₃ with acquired := c₃.acquired ++ [r.interface .iOPCGroupStateMgt] } with hc₄
  rw [construct] at heq
  simp only [h, Bool.false_eq_true, if_false] at heq
  rw [bind_of_ok setMember_eq, queryMember_granted (h _), ← hc₁, queryMember_granted (h _),
    ← hc₂, queryMember_granted (h _), ← hc₃, bind_of_ok (queryInterface_granted (h _)),
    ← hc₄] at heq
  cases hname : r.szName with
  | none =>
    rw [uploadStatus, hname] at heq
    cases heq
  | some name =>
    cases hx : c₄.objects.heap.get p with
    | none =>
      have hwild : onObjects (Objects.object p) c₄ = .error .wild c₄ := by
        rw [onObjects, Objects.object, hx]
      rw [uploadStatus, hname] at heq
      simp only at heq
      rw [bind_of_error (bind_of_error hwild _)] at heq
      cases heq
    | some x =>
      rw [bind_of_ok (uploadStatus_eq hname hx)] at heq
      cases heq
      have hpointer (f : GroupPointer) (hitems : f ≠ .pItems) (hpsz : f ≠ .pszName) :
          ((Client.setPointer { c₄.uploaded r p x name with
              released := (c₄.uploaded r p x name).released ++ [r.interface .iOPCGroupStateMgt] }
            p .pItems (some (r.allocated .pItems))).members p).pointer f =
          (c₃.members p).pointer f := by
        rw [pointer_setPointer, if_neg hitems]
        show ((c₄.uploaded r p x name).members p).pointer f = _
        rw [pointer_uploaded, if_neg hpsz]
      refine ⟨?_, rfl, interfaces_eq (u := some (r.interface .iUnknown))
        (i := some (r.interface .iOPCItemMgt)) (s := some (r.interface .iOPCSync)) ?_ ?_ ?_⟩
      · show c.acquired ++ [_] ++ [_] ++ [_] ++ [_] = _
        simp only [List.append_assoc, List.cons_append, List.nil_append]
      · exact (hpointer .pUnGroup (by decide) (by decide)).trans (by simp [hc₃, hc₂, hc₁])
      · exact (hpointer .pIItems (by decide) (by decide)).trans (by simp [hc₃, hc₂])
      · exact (hpointer .pISync (by decide) (by decide)).trans (by simp [hc₃])

/-- **`AddGroup` of a group that is built**: the new group holds three interfaces, and two were only
used. -/
theorem addGroup_account {server : Bytes → GroupReplies} {szName name : Bytes} {o : Option ℕ}
    (hgrants : Grants (server szName) name) (heq : addGroup server szName c = .ok o c')
    (hp : p = c.objects.heap.length) :
    ∃ pIUnk pIState,
      c'.acquired = c.acquired ++ [pIUnk] ++ ((c'.members p).interfaces ++ [pIState]) ∧
      c'.released = c.released ++ [pIState] ++ [pIUnk] := by
  set r := server szName with hr
  rw [addGroup_begins hgrants.added, ← hp, ← hr] at heq
  cases hbuilt : construct r p (c.begun r.pIUnk) with
  | error e c₁ =>
    rw [bind_of_error hbuilt] at heq
    cases heq
  | ok hrLast c₁ =>
    obtain ⟨hacq, hrel, hint⟩ := construct_account hgrants.granted hbuilt
    obtain ⟨_, _, hbuilt', hok, -⟩ := construct_granted hgrants.granted hgrants.named
      (hp ▸ get_begun c r.pIUnk)
    rw [hbuilt] at hbuilt'
    cases hbuilt'
    rw [bind_of_ok hbuilt] at heq
    cases href : onObjects (Objects.addRef p) c₁ with
    | error e c₂ =>
      rw [bind_of_error href] at heq
      cases heq
    | ok u c₂ =>
      obtain ⟨hmembers₂, hacq₂, hrel₂⟩ := onObjects_frame href
      set c₃ : Client := { c₂ with released := c₂.released ++ [r.pIUnk] } with hc₃
      have hrelease : releaseInterface r.pIUnk c₂ = .ok () c₃ := rfl
      rw [bind_of_ok href, bind_of_ok hrelease,
        if_neg (by rw [hok]; exact Bool.false_ne_true)] at heq
      cases hadd : onObjects (Objects.add p) c₃ with
      | error e c₄ =>
        rw [bind_of_error hadd] at heq
        cases heq
      | ok u c₄ =>
        obtain ⟨hmembers₄, hacq₄, hrel₄⟩ := onObjects_frame hadd
        rw [bind_of_ok hadd] at heq
        cases heq
        refine ⟨r.pIUnk, r.interface .iOPCGroupStateMgt, ?_, ?_⟩
        · have hsame : c'.members p = c₁.members p := by
            rw [hmembers₄]
            exact congrFun hmembers₂ p
          rw [hsame, hint, hacq₄]
          show c₂.acquired = _
          rw [hacq₂, hacq]
          rfl
        · rw [hrel₄]
          show c₂.released ++ [r.pIUnk] = _
          rw [hrel₂, hrel]
          rfl

end

end Client

/-! ### Between two operations -/

namespace COpcServer

/-- The interfaces that a server object holds itself. -/
def own (s : COpcServer) : List ℕ :=
  (s.pointer .pIOpcCommon).toList ++
    ((s.pointer .pIOpcServer).toList ++ (s.pointer .pConnShutdown).toList)

/-- A server object that is disconnected: everything that it got was given back, and no group is
left.  A sink is left where its cookie was taken for none. -/
structure Disconnected (s : COpcServer) : Prop where
  pointers : ∀ f, s.pointer f = none
  account : s.client.acquired.Perm s.client.released
  groups : ∀ p, s.client.objects.heap.get p = none
  sinks : s.dwAdviseCookie ≠ -1 → ∀ p, s.sinks.get p = none

/-- A server object that was never connected. -/
structure Unconnected (s : COpcServer) : Prop where
  pointers : ∀ f, s.pointer f = none
  account : s.client.acquired.Perm s.client.released
  connected : s.client.objects.connected = true
  groupList : s.client.objects.groupList = none
  groups : ∀ p, s.client.objects.heap.get p = none
  sink : s.pObjShutdown = none
  sinks : ∀ p, s.sinks.get p = none

/-- A connected server object, with its groups. -/
structure Connected (s : COpcServer) (groups : List COPCGroup) (ps : List ℕ) : Prop where
  server : ∃ a, s.pointer .pIOpcServer = some a
  shows : Shows s.client.objects ⟨true, groups⟩ ps
  complete : ∀ p ∈ ps, Client.Complete (s.client.members p)
  account : s.client.acquired.Perm (s.client.released ++ (s.client.interfaces ps ++ s.own))
  sink : ∀ p, s.pObjShutdown = some p → (∃ a, s.pointer .pConnShutdown = some a) ∧
    ∃ kept : ℕ, s.sinks.get p = some ⟨1 + kept, kept⟩
  sinks : ∀ p x, s.sinks.get p = some x → s.pObjShutdown = some p

theorem unconnected_new : Unconnected new where
  pointers _ := rfl
  account := List.Perm.refl _
  connected := rfl
  groupList := rfl
  groups _ := rfl
  sink := rfl
  sinks _ := rfl

theorem Unconnected.disconnected {s : COpcServer} (h : Unconnected s) : Disconnected s :=
  ⟨h.pointers, h.account, h.groups, fun _ => h.sinks⟩

section

variable {s s' : COpcServer} {α : Type} {f : ServerPointer} {v : Option ℕ} {p : ℕ}
  {r : ConnectReplies} {groups : List COPCGroup} {ps : List ℕ}

theorem onClient_ok {x : ClientM α} {a : α} {c : Client} (h : x s.client = .ok a c) :
    onClient x s = .ok a { s with client := c } := by
  rw [onClient, h]

/-- A server object with an interface that it has got. -/
def gotten (s : COpcServer) (v : Option ℕ) : COpcServer :=
  { s with client := { s.client with acquired := s.client.acquired ++ v.toList } }

/-- A server object without an interface that it has given back. -/
def given (s : COpcServer) (v : Option ℕ) : COpcServer :=
  { s with client := { s.client with released := s.client.released ++ v.toList } }

/-- A server object with a pointer. -/
def pointing (s : COpcServer) (f : ServerPointer) (v : Option ℕ) : COpcServer :=
  { s with pointer := Function.update s.pointer f v }

theorem gotten_none : s.gotten none = s := by
  rw [gotten, Option.toList_none, List.append_nil]

theorem given_none : s.given none = s := by
  rw [given, Option.toList_none, List.append_nil]

theorem pointing_self (h : s.pointer f = v) : s.pointing f v = s := by
  rw [pointing, ← h, Function.update_eq_self]

@[simp] theorem gotten_pointer : (s.gotten v).pointer = s.pointer := rfl

@[simp] theorem given_pointer : (s.given v).pointer = s.pointer := rfl

theorem pointer_pointing_self : (s.pointing f v).pointer f = v := by
  simp only [pointing, Function.update_self]

theorem pointer_pointing_ne {g : ServerPointer} (h : g ≠ f) :
    (s.pointing f v).pointer g = s.pointer g := by
  simp only [pointing, Function.update_of_ne h]

theorem forM_acquire : v.forM acquire s = .ok () (s.gotten v) := by
  cases v with
  | none => rw [gotten_none]; rfl
  | some a => rfl

theorem forM_giveBack : v.forM giveBack s = .ok () (s.given v) := by
  cases v with
  | none => rw [given_none]; rfl
  | some a => rfl

theorem drop_eq : drop f s = .ok () ((s.given (s.pointer f)).pointing f none) := by
  rw [drop, bind_get]
  cases hf : s.pointer f with
  | none =>
    rw [given_none, pointing_self hf]
    rfl
  | some a => rfl

theorem storeInterface_eq {iid : ServerIID} (h : s.pointer f = none) :
    storeInterface r iid f s = .ok () ((s.gotten (r.itf iid)).pointing f (r.itf iid)) := by
  rw [storeInterface]
  cases r.itf iid with
  | none =>
    rw [gotten_none, pointing_self h]
    rfl
  | some a => rfl

/-! ### The sink -/

theorem sink_eq {x : COpcShutdownAdviseSink} (h : s.sinks.get p = some x) :
    sink p s = .ok x s := by
  rw [sink, h]

theorem releaseSink_more {x : COpcShutdownAdviseSink} (h : s.sinks.get p = some x)
    (hne : x.cRef - 1 ≠ 0) : releaseSink p s =
      .ok () { s with sinks := s.sinks.store p { x with cRef := x.cRef - 1 } } := by
  rw [releaseSink, bind_of_ok (sink_eq h), if_neg hne]
  rfl

theorem releaseSink_last {x : COpcShutdownAdviseSink} (h : s.sinks.get p = some x)
    (hlast : x.cRef - 1 = 0) : releaseSink p s =
      .ok () { s with sinks := s.sinks.delete p, pObjShutdown := none } := by
  rw [releaseSink, bind_of_ok (sink_eq h), if_pos hlast]
  rfl

/-- What `Advise` comes to: a sink with a reference of the server object, or none. -/
theorem advise_cases (hsinks : ∀ p, s.sinks.get p = none) :
    ∃ s', advise r s = .ok () s' ∧
      (∀ p, s'.pObjShutdown = some p → s'.pointer = s.pointer ∧ s'.client = s.client ∧
        ∃ kept : ℕ, s'.sinks.get p = some ⟨1 + kept, kept⟩) ∧
      (s'.pObjShutdown = none → s'.client = (s.given (s.pointer .pConnShutdown)).client ∧
        s'.pointer = Function.update s.pointer .pConnShutdown none) ∧
      ∀ p x, s'.sinks.get p = some x → s'.pObjShutdown = some p := by
  set p := s.sinks.length with hp
  set s₁ : COpcServer := { s with sinks := s.sinks.new ⟨2, 0⟩, pObjShutdown := some p } with hs₁
  have hget : s₁.sinks.get p = some ⟨2, 0⟩ := Heap.get_new_self
  have hothers (q : ℕ) (hq : q ≠ p) : s₁.sinks.get q = none :=
    (Heap.get_new_ne hq).trans (hsinks q)
  have hnew : (modify fun s => { s with sinks := s.sinks.new ⟨2, 0⟩, pObjShutdown := some p } :
      ServerM Unit) s = .ok () s₁ := rfl
  rw [advise, bind_get, ← hp, bind_of_ok hnew]
  by_cases hfail : failed r.advise = true
  · rw [if_pos hfail]
    set s₂ : COpcServer := { s₁ with sinks := s₁.sinks.store p ⟨2 - 1, 0⟩ } with hs₂
    have hget₂ : s₂.sinks.get p = some ⟨2 - 1, 0⟩ := Heap.get_store_self hget
    set s₃ : COpcServer := { s₂ with sinks := s₂.sinks.delete p, pObjShutdown := none } with hs₃
    have hgone (q : ℕ) : s₃.sinks.get q = none := by
      by_cases hq : q = p
      · rw [hq]
        exact Heap.get_delete_self
      · exact (Heap.get_delete_ne hq).trans ((Heap.get_store_ne hq).trans (hothers q hq))
    refine ⟨(s₃.given (s₃.pointer .pConnShutdown)).pointing .pConnShutdown none, ?_, ?_, ?_, ?_⟩
    · rw [bind_of_ok (releaseSink_more hget (by decide)),
        bind_of_ok (releaseSink_last hget₂ (by decide)), drop_eq]
    · intro q hq
      cases hq
    · exact fun _ => ⟨rfl, rfl⟩
    · intro q x hx
      have hx : s₃.sinks.get q = some x := hx
      rw [hgone q] at hx
      cases hx
  · rw [if_neg hfail]
    set s₂ : COpcServer := { s₁ with
      sinks := s₁.sinks.store p ⟨2 + r.kept, r.kept⟩, dwAdviseCookie := r.cookie } with hs₂
    have hget₂ : s₂.sinks.get p = some ⟨2 + r.kept, r.kept⟩ := Heap.get_store_self hget
    have hset : (setSink p ⟨2 + r.kept, r.kept⟩ >>= fun _ =>
        (modify fun s => { s with dwAdviseCookie := r.cookie } : ServerM Unit)) s₁ =
          .ok () s₂ := rfl
    have hmany : (2 + r.kept : ℤ) - 1 ≠ 0 := by omega
    refine ⟨{ s₂ with sinks := s₂.sinks.store p ⟨2 + r.kept - 1, r.kept⟩ }, ?_, ?_, ?_, ?_⟩
    · rw [← bind_assoc, bind_of_ok hset]
      exact releaseSink_more hget₂ hmany
    · rintro q ⟨rfl⟩
      refine ⟨rfl, rfl, r.kept, (Heap.get_store_self hget₂).trans ?_⟩
      have hcount : (2 + r.kept : ℤ) - 1 = 1 + r.kept := by omega
      rw [hcount]
    · intro hnone
      cases hnone
    · intro q x hx
      by_cases hq : q = p
      · rw [hq]
      · have hdead : s₁.sinks.get q = some x :=
          ((Heap.get_store_ne hq).trans (Heap.get_store_ne hq)).symm.trans hx
        rw [hothers q hq] at hdead
        cases hdead

/-- The sink is gone, unless its cookie was taken for none. -/
theorem dropSink_ok
    (hsink : ∀ p, s.pObjShutdown = some p → ∃ kept : ℕ, s.sinks.get p = some ⟨1 + kept, kept⟩)
    (hsinks : ∀ p x, s.sinks.get p = some x → s.pObjShutdown = some p) :
    ∃ s', dropSink s = .ok () s' ∧ s'.client = s.client ∧ s'.pointer = s.pointer ∧
      s'.dwAdviseCookie = s.dwAdviseCookie ∧
      (s.dwAdviseCookie ≠ -1 → ∀ p, s'.sinks.get p = none) := by
  rw [dropSink, bind_get]
  cases hp : s.pObjShutdown with
  | none =>
    refine ⟨s, rfl, rfl, rfl, rfl, ?_⟩
    intro _ p
    refine Option.eq_none_iff_forall_ne_some.2 ?_
    intro x hx
    rw [hsinks p x hx] at hp
    cases hp
  | some p =>
    simp only
    rw [bind_get]
    by_cases hcookie : s.dwAdviseCookie ≠ -1
    · obtain ⟨kept, hget⟩ := hsink p hp
      rw [if_pos hcookie]
      have hone : (1 + kept : ℤ) - kept = 1 := by omega
      set s₁ : COpcServer := { s with sinks := s.sinks.store p ⟨1, 0⟩ } with hs₁
      have hunadvise : unadvise p s = .ok () s₁ := by
        rw [unadvise, bind_of_ok (sink_eq hget), hone]
        rfl
      have hget₁ : s₁.sinks.get p = some ⟨1, 0⟩ := Heap.get_store_self hget
      refine ⟨{ s₁ with sinks := s₁.sinks.delete p, pObjShutdown := none }, ?_, rfl, rfl, rfl, ?_⟩
      · rw [bind_of_ok hunadvise]
        exact releaseSink_last hget₁ (by decide)
      · intro _ q
        by_cases hq : q = p
        · rw [hq]
          exact Heap.get_delete_self
        · refine Option.eq_none_iff_forall_ne_some.2 ?_
          intro x hx
          have hx : s.sinks.get q = some x :=
            ((Heap.get_delete_ne hq).trans (Heap.get_store_ne hq)).symm.trans hx
          rw [hsinks q x hx, Option.some.injEq] at hp
          exact hq hp
    · rw [if_neg hcookie]
      exact ⟨s, rfl, rfl, rfl, rfl, fun hne => absurd hne hcookie⟩

/-! ### Connecting and disconnecting -/

theorem disconnect_none (h : s.pointer .pIOpcServer = none) : disconnect s = .ok false s := by
  rw [disconnect, bind_get, h]
  rfl

/-- **`Disconnect`** gives back everything, and leaves no group. -/
theorem disconnect_settles (h : Connected s groups ps) :
    ∃ s', disconnect s = .ok true s' ∧ Disconnected s' := by
  obtain ⟨a, ha⟩ := h.server
  -- the sink and the connection point
  have hbegin : ∃ s₁, (∀ {β : Type} (rest : ServerM β),
      (match s.pointer .pConnShutdown with
        | some a => do dropSink; giveBack a; rest
        | none => rest) s = rest s₁) ∧
      s₁.client = (s.given (s.pointer .pConnShutdown)).client ∧ s₁.pointer = s.pointer ∧
      (s₁.dwAdviseCookie ≠ -1 → ∀ p, s₁.sinks.get p = none) := by
    cases hconn : s.pointer .pConnShutdown with
    | none =>
      refine ⟨s, fun rest => rfl, by rw [given_none], rfl, fun _ p => ?_⟩
      refine Option.eq_none_iff_forall_ne_some.2 ?_
      intro x hx
      obtain ⟨⟨b, hb⟩, -⟩ := h.sink p (h.sinks p x hx)
      rw [hconn] at hb
      cases hb
    | some b =>
      obtain ⟨s₀, hdrop, hclient, hpointer, hcookie, hgone⟩ :=
        dropSink_ok (fun p hp => (h.sink p hp).2) h.sinks
      refine ⟨s₀.given (some b), ?_, ?_, hpointer, ?_⟩
      · intro β rest
        have hgive : giveBack b s₀ = .ok () (s₀.given (some b)) := rfl
        simp only
        rw [bind_of_ok hdrop, bind_of_ok hgive]
      · rw [given, given, hclient]
      · show s₀.dwAdviseCookie ≠ -1 → ∀ p, s₀.sinks.get p = none
        rw [hcookie]
        exact hgone
  obtain ⟨s₁, hbegin, hclient, hpointer, hgone⟩ := hbegin
  have hobj : s₁.client.objects = s.client.objects := by rw [hclient]; rfl
  have hmembers : s₁.client.members = s.client.members := by rw [hclient]; rfl
  obtain ⟨c, hremove, hacq, hrel, hlist, hdead⟩ := Client.removeGroups_gives
    (c := s₁.client) (hobj ▸ h.shows) fun p hp => by
      rw [hmembers]
      exact (h.complete p hp).built
  set s₂ : COpcServer := { s₁ with client := c } with hs₂
  set s₃ := (s₂.given (s₂.pointer .pIOpcServer)).pointing .pIOpcServer none with hs₃
  set s₄ := (s₃.given (s₃.pointer .pIOpcCommon)).pointing .pIOpcCommon none with hs₄
  have hset : setPointer .pConnShutdown none s₄ = .ok () (s₄.pointing .pConnShutdown none) := rfl
  refine ⟨s₄.pointing .pConnShutdown none, ?_, ?_, ?_, hdead, hgone⟩
  · rw [disconnect, bind_get, ha]
    simp only
    rw [bind_get]
    refine (hbegin _).trans ?_
    rw [bind_of_ok (onClient_ok hremove), ← hs₂, bind_of_ok drop_eq, ← hs₃, bind_of_ok drop_eq,
      ← hs₄, bind_of_ok hset]
    rfl
  · intro f
    cases f with
    | pIOpcCommon => rfl
    | pIOpcServer => rfl
    | pConnShutdown => rfl
  · have hreleased : (s₄.pointing .pConnShutdown none).client.released = s.client.released ++
        (s.pointer .pConnShutdown).toList ++ s.client.interfaces ps ++
          (s.pointer .pIOpcServer).toList ++ (s.pointer .pIOpcCommon).toList := by
      show c.released ++ (s₁.pointer .pIOpcServer).toList ++ (s₁.pointer .pIOpcCommon).toList = _
      rw [hrel, Client.interfaces_congr fun p _ => congrFun hmembers p, hclient, hpointer]
      rfl
    have hacquired : (s₄.pointing .pConnShutdown none).client.acquired = s.client.acquired := by
      show c.acquired = _
      rw [hacq, hclient]
      rfl
    rw [hreleased, hacquired, List.perm_iff_count]
    intro x
    have hcount := h.account.count_eq x
    simp only [own, List.count_append] at hcount ⊢
    omega

/-- A server object with its two interfaces, and a sink if the server has connection points. -/
theorem attachSink_connects (hclient : s.client.objects.connected = true)
    (hlist : s.client.objects.groupList = none) (hgroups : ∀ p, s.client.objects.heap.get p = none)
    (hserver : ∃ a, s.pointer .pIOpcServer = some a) (hconn : s.pointer .pConnShutdown = none)
    (hsink : s.pObjShutdown = none) (hsinks : ∀ p, s.sinks.get p = none)
    (haccount : s.client.acquired.Perm
      (s.client.released ++ (s.own ++ (r.itf .iConnectionPointContainer).toList))) :
    ∃ s', attachSink r s = .ok () s' ∧ Connected s' [] [] := by
  have hshows : Shows s.client.objects ⟨true, []⟩ [] :=
    { connected := hclient
      list := fun l hl => by rw [hlist] at hl; cases hl
      noList := fun _ => rfl
      distinct := List.nodup_nil
      groups := rfl
      live := fun p x hx => by rw [hgroups p] at hx; cases hx
      names := List.nodup_nil }
  obtain ⟨a, ha⟩ := hserver
  have hown : s.own = (s.pointer .pIOpcCommon).toList ++ ([a] ++ []) := by
    rw [own, ha, hconn]
    rfl
  rw [hown] at haccount
  rw [attachSink]
  cases hitf : r.itf .iConnectionPointContainer with
  | none =>
    rw [hitf] at haccount
    refine ⟨s, rfl, ?_⟩
    exact
      { server := ⟨a, ha⟩
        shows := hshows
        complete := fun p hp => absurd hp List.not_mem_nil
        account := by
          rw [hown]
          simpa [Client.interfaces] using haccount
        sink := fun p hp => by rw [hsink] at hp; cases hp
        sinks := fun p x hx => by rw [hsinks p] at hx; cases hx }
  | some b =>
    rw [hitf] at haccount
    by_cases hfind : failed r.findConnectionPoint = true
    · refine ⟨s.given (some b), by simp only [if_pos hfind]; rfl, ?_⟩
      exact
        { server := ⟨a, ha⟩
          shows := hshows
          complete := fun p hp => absurd hp List.not_mem_nil
          account := by
            have hsame : (s.given (some b)).own = s.own := rfl
            rw [hsame, hown, List.perm_iff_count]
            intro x
            have hcount := haccount.count_eq x
            simp only [given, Client.interfaces, List.flatMap_nil, List.count_append,
              List.count_nil, Option.toList_some] at hcount ⊢
            omega
          sink := by
            intro p hp
            have hp : s.pObjShutdown = some p := hp
            rw [hsink] at hp
            cases hp
          sinks := by
            intro p x hx
            have hx : s.sinks.get p = some x := hx
            rw [hsinks p] at hx
            cases hx }
    · set s₁ := (s.gotten (some r.pConnShutdown)).pointing .pConnShutdown (some r.pConnShutdown)
        with hs₁
      obtain ⟨s₂, hadvise, hkept, hfailed, hsinks₂⟩ := advise_cases (s := s₁) (r := r) hsinks
      refine ⟨s₂.given (some b), ?_, ?_⟩
      · have hacquire : acquire r.pConnShutdown s = .ok () (s.gotten (some r.pConnShutdown)) := rfl
        have hset : setPointer .pConnShutdown (some r.pConnShutdown)
            (s.gotten (some r.pConnShutdown)) = .ok () s₁ := rfl
        simp only [if_neg hfind]
        rw [bind_of_ok hacquire, bind_of_ok hset, bind_of_ok hadvise]
        rfl
      · have hrest (f : ServerPointer) (hf : f ≠ .pConnShutdown) :
            s₁.pointer f = s.pointer f := pointer_pointing_ne hf
        have hself : s₁.pointer .pConnShutdown = some r.pConnShutdown := pointer_pointing_self
        -- the connection point is given back, or held
        have hends : s₂.client.objects = s.client.objects ∧
            s₂.client.acquired = s.client.acquired ++ [r.pConnShutdown] ∧
            s₂.client.released ++ (s₂.pointer .pConnShutdown).toList =
              s.client.released ++ [r.pConnShutdown] ∧
            ∀ f ≠ ServerPointer.pConnShutdown, s₂.pointer f = s.pointer f := by
          cases hobj : s₂.pObjShutdown with
          | none =>
            obtain ⟨hclient₂, hpointer₂⟩ := hfailed hobj
            rw [hself] at hclient₂
            refine ⟨by rw [hclient₂]; rfl, by rw [hclient₂]; rfl, ?_, fun f hf => ?_⟩
            · rw [hclient₂, hpointer₂, Function.update_self]
              exact List.append_nil _
            · rw [hpointer₂, Function.update_of_ne hf, hrest f hf]
          | some p =>
            obtain ⟨hpointer₂, hclient₂, -⟩ := hkept p hobj
            refine ⟨by rw [hclient₂]; rfl, by rw [hclient₂]; rfl, ?_, fun f hf => ?_⟩
            · rw [hclient₂, hpointer₂, hself]
              rfl
            · rw [hpointer₂, hrest f hf]
        obtain ⟨hobjects, hacq, hrel, hpointer⟩ := hends
        have hcommon := hpointer .pIOpcCommon (by decide)
        have hserver := hpointer .pIOpcServer (by decide)
        exact
          { server := ⟨a, hserver.trans ha⟩
            shows := by
              show Shows s₂.client.objects ⟨true, []⟩ []
              rw [hobjects]
              exact hshows
            complete := fun p hp => absurd hp List.not_mem_nil
            account := by
              have hsame : (s₂.given (some b)).own = (s.pointer .pIOpcCommon).toList ++
                  ([a] ++ (s₂.pointer .pConnShutdown).toList) := by
                show (s₂.pointer .pIOpcCommon).toList ++ ((s₂.pointer .pIOpcServer).toList ++ _) = _
                rw [hcommon, hserver, ha]
                rfl
              rw [hsame, List.perm_iff_count]
              intro x
              have hcount := haccount.count_eq x
              have hpoint := congrArg (List.count x) hrel
              simp only [given, Client.interfaces, List.flatMap_nil, hacq, List.count_append,
                List.count_nil, Option.toList_some] at hcount hpoint ⊢
              omega
            sink := by
              intro p hp
              obtain ⟨hpointer₂, -, hkept⟩ := hkept p hp
              exact ⟨⟨r.pConnShutdown, (congrFun hpointer₂ _).trans hself⟩, hkept⟩
            sinks := hsinks₂ }

/-- The server object when the interfaces that are there have been stored. -/
def stored (s : COpcServer) (r : ConnectReplies) : COpcServer :=
  (((s.gotten (r.itf .iOPCCommon)).pointing .pIOpcCommon (r.itf .iOPCCommon)).gotten
    (r.itf .iOPCServer)).pointing .pIOpcServer (r.itf .iOPCServer)

/-- **`Connect`** of a server object that was never connected. -/
theorem connect_cases (h : Unconnected s) :
    ∃ s', connect r s = .ok r.connects s' ∧
      (r.connects = true → Connected s' [] []) ∧ (r.connects = false → Unconnected s') := by
  rw [connect]
  by_cases hclsid : failed r.clsid = true
  · have hnot : r.connects = false := by rw [ConnectReplies.connects, hclsid]; rfl
    rw [if_pos hclsid, hnot]
    exact ⟨s, rfl, fun hne => absurd hne Bool.false_ne_true, fun _ => h⟩
  have hwhole : r.connects = r.whole := by
    rw [ConnectReplies.connects, eq_false_of_ne_true hclsid]
    rfl
  rw [if_neg hclsid, bind_of_ok (disconnect_none (h.pointers _)), hwhole]
  by_cases hcreate : failed r.create = true ∧ r.create ≠ E_NOINTERFACE
  · have hnot : r.whole = false := by rw [ConnectReplies.whole, hcreate.1]; rfl
    rw [if_pos hcreate, hnot]
    exact ⟨s, rfl, fun hne => absurd hne Bool.false_ne_true, fun _ => h⟩
  have hcommon : storeInterface r .iOPCCommon .pIOpcCommon s =
      .ok () ((s.gotten (r.itf .iOPCCommon)).pointing .pIOpcCommon (r.itf .iOPCCommon)) :=
    storeInterface_eq (h.pointers _)
  have hserver : storeInterface r .iOPCServer .pIOpcServer
      ((s.gotten (r.itf .iOPCCommon)).pointing .pIOpcCommon (r.itf .iOPCCommon)) =
        .ok () (s.stored r) :=
    storeInterface_eq ((pointer_pointing_ne (by decide)).trans (h.pointers _))
  have hptr : (s.stored r).pointer .pIOpcCommon = r.itf .iOPCCommon ∧
      (s.stored r).pointer .pIOpcServer = r.itf .iOPCServer ∧
      (s.stored r).pointer .pConnShutdown = none := by
    refine ⟨?_, pointer_pointing_self, ?_⟩
    · rw [stored, pointer_pointing_ne (by decide), gotten_pointer, pointer_pointing_self]
    · rw [stored, pointer_pointing_ne (by decide), gotten_pointer,
        pointer_pointing_ne (by decide), gotten_pointer, h.pointers]
  rw [if_neg hcreate, bind_of_ok hcommon, bind_of_ok hserver, bind_of_ok forM_acquire]
  by_cases hr : r.whole = true
  · rw [if_pos hr, hr]
    have hthere : r.itf .iOPCServer = some (r.pItf .iOPCServer) := by
      simp only [ConnectReplies.whole, Bool.and_eq_true, Bool.not_eq_true'] at hr
      rw [ConnectReplies.itf, hr.2, if_neg Bool.false_ne_true]
    obtain ⟨s', hattach, hs'⟩ := attachSink_connects
      (s := (s.stored r).gotten (r.itf .iConnectionPointContainer)) (r := r) h.connected
      h.groupList h.groups ⟨_, hptr.2.1.trans hthere⟩ hptr.2.2 h.sink h.sinks (by
        have hown : ((s.stored r).gotten (r.itf .iConnectionPointContainer)).own =
            (r.itf .iOPCCommon).toList ++ (r.itf .iOPCServer).toList := by
          rw [own, gotten_pointer, hptr.1, hptr.2.1, hptr.2.2, Option.toList_none, List.append_nil]
        rw [hown, List.perm_iff_count]
        intro x
        have hcount := h.account.count_eq x
        simp only [stored, gotten, pointing, List.count_append] at hcount ⊢
        omega)
    rw [bind_of_ok hattach]
    exact ⟨s', rfl, fun _ => hs', fun hne => absurd hne Bool.false_ne_true.symm⟩
  · rw [if_neg hr, eq_false_of_ne_true hr]
    set s₁ := (s.stored r).gotten (r.itf .iConnectionPointContainer) with hs₁
    set s₂ := (s₁.given (s₁.pointer .pIOpcCommon)).pointing .pIOpcCommon none with hs₂
    set s₃ := (s₂.given (s₂.pointer .pIOpcServer)).pointing .pIOpcServer none with hs₃
    set s₄ := s₃.given (r.itf .iConnectionPointContainer) with hs₄
    have hcommon₁ : s₁.pointer .pIOpcCommon = r.itf .iOPCCommon := hptr.1
    have hserver₂ : s₂.pointer .pIOpcServer = r.itf .iOPCServer := by
      rw [hs₂, pointer_pointing_ne (by decide), given_pointer]
      exact hptr.2.1
    rw [bind_of_ok drop_eq, ← hs₂, bind_of_ok drop_eq, ← hs₃, bind_of_ok forM_giveBack, ← hs₄]
    refine ⟨s₄, rfl, fun hne => absurd hne Bool.false_ne_true, ?_⟩
    intro _
    exact
      { pointers := by
          intro f
          cases f with
          | pIOpcCommon => rfl
          | pIOpcServer => rfl
          | pConnShutdown => exact hptr.2.2
        account := by
          have hreleased : s₄.client.released = s.client.released ++ (r.itf .iOPCCommon).toList ++
              (r.itf .iOPCServer).toList ++ (r.itf .iConnectionPointContainer).toList := by
            rw [← hcommon₁, ← hserver₂]
            rfl
          rw [hreleased, List.perm_iff_count]
          intro x
          have hcount := h.account.count_eq x
          have hacquired : s₄.client.acquired = s.client.acquired ++ (r.itf .iOPCCommon).toList ++
              (r.itf .iOPCServer).toList ++ (r.itf .iConnectionPointContainer).toList := rfl
          simp only [hacquired, List.count_append]
          omega
        connected := h.connected
        groupList := h.groupList
        groups := h.groups
        sink := h.sink
        sinks := h.sinks }

end

end COpcServer

end OpcS7

end Edps
