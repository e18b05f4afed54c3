import Edps.OpcS7.Registered
import Edps.OpcS7.Server

/-!
# The library from its loading to its shutdown

`DllMain` makes two server objects, one for the local server and one for the emergency server.
The first call connects; `SAPI_Shut` disconnects and deletes what is connected.

* `connectToServer`, `Library.getOPCGroup`, `sapiShut` : the functions of the library.
* `Library.Running`, `Library.Over` : the states before `SAPI_Shut` and behind it.
* `library_refines` : until then the calls are those of `sapi`.
* `library_accounts` : every interface that was got is held, or was given back.
* `library_shut` : behind `SAPI_Shut` nothing is held, and no call does anything.
-/

namespace Edps

namespace OpcS7

/-- The two server objects. -/
inductive ServerVar where
  | main
  | snd
  deriving DecidableEq, Repr

/-- The globals of the library, and the server objects that have been deleted, as they were. -/
structure Library where
  bInitOK : Bool
  /-- `g_bMainServer` and `g_bSndServer` -/
  bServer : ServerVar → Bool
  /-- `g_pOpcServer` and `g_pSndOpcServer` -/
  pServer : ServerVar → Option COpcServer
  deleted : List COpcServer

abbrev LibraryM := EStateM Fault Library

/-- What a call is answered: when it connects, when it adds a group, and on its group. -/
structure LibraryReplies where
  items : Replies
  servers : ServerVar → ConnectReplies
  group : GroupReplies

/-- What `sapi` is told. -/
def LibraryReplies.asReplies (r : LibraryReplies) : Replies :=
  { r.items with connect := (r.servers .main).connects, addGroup := r.group.addGroup }

/-- The server names the group as it is told to. -/
def LibraryReplies.server (r : LibraryReplies) (szName : Bytes) : GroupReplies :=
  { r.group with szName := some szName }

/-- `GetGroupByName` -/
def COpcServer.search (szName : Bytes) : ServerM (Option ℕ) :=
  onClient (Client.onObjects (Objects.getGroupByName szName))

namespace Library

variable {α : Type}

/-- The library after `DllMain`. -/
def init : Library := ⟨true, fun _ => false, fun _ => some .new, []⟩

def setServer (s : Library) (v : ServerVar) (o : Option COpcServer) : Library :=
  { s with pServer := Function.update s.pServer v o }

/-- A method of a server object. -/
def onServer (v : ServerVar) (x : ServerM α) : LibraryM α := fun s =>
  match s.pServer v with
  | none => .error .wild s
  | some o =>
    match x o with
    | .ok a o' => .ok a (s.setServer v (some o'))
    | .error e o' => .error e (s.setServer v (some o'))

/-- `Connect` of a server object, with its flag. -/
def connectServer (r : LibraryReplies) (v : ServerVar) : LibraryM Unit := do
  let b ← onServer v (COpcServer.connect (r.servers v))
  modify fun s => { s with bServer := Function.update s.bServer v b }

/-- `ConnectToServer`.  `EmergencyServerNode` is a setting. -/
def connectToServer (emergencyServerNode : Bytes) (r : LibraryReplies) : LibraryM Unit := do
  if !(← get).bServer .main then
    connectServer r .main
  let s ← get
  if !s.bServer .snd && !s.bInitOK && cstr emergencyServerNode ≠ [] then
    connectServer r .snd

variable (emergencyServerNode : Bytes) (crt : Crt) (r : LibraryReplies)

/-- The connection of the main server, made if it is not there. -/
def connectMain : LibraryM Unit := do
  if !(← get).bServer .main then
    connectToServer emergencyServerNode r

/-- `GetOPCGroup` of the main server. -/
def getOPCGroup (szName : Bytes) : LibraryM (Option ℕ) := do
  if !(← get).bInitOK then return none
  else
    connectMain emergencyServerNode r
    if !(← get).bServer .main then return none
    else
      match ← onServer .main (COpcServer.search szName) with
      | some p => return some p
      | none => onServer .main (COpcServer.addGroup r.server szName)

/-- A call on its group, which is released behind it.  `SAPI_MWrite` releases it before each of its
returns. -/
def inGroup (szName : Bytes) (noGroup : ℤ) (body : COPCGroup → COPCGroup × CallLog) :
    LibraryM CallLog := do
  match ← getOPCGroup emergencyServerNode r szName with
  | none => return .done noGroup
  | some p =>
    let log ← onServer .main (COpcServer.onClient (Client.onGroup body p))
    if log.ret = none then throw .raised
    else return log

/-- A multiple call on the group of its request. -/
def inRequest (bReadRequest : Bool) (bsParStr : Bytes)
    (body : List CEdpsParam → COPCGroup → COPCGroup × CallLog) : LibraryM CallLog :=
  match parseRequest crt bsParStr bReadRequest with
  | .error _ => throw .raised
  | .ok params =>
    if params = [] then return .done (-1)
    else
      match szGroupName params with
      | none => throw .raised
      | some szName => inGroup emergencyServerNode r szName (-2) (body params)

/-- `Disconnect` and `delete` of a server object that is connected.  The destructor disconnects. -/
def shutServer (v : ServerVar) : LibraryM Unit := do
  if (← get).bServer v then
    let _ ← onServer v COpcServer.disconnect
    let _ ← onServer v COpcServer.disconnect
    modify fun s =>
      { s with
        pServer := Function.update s.pServer v none
        bServer := Function.update s.bServer v false
        deleted := s.deleted ++ (s.pServer v).toList }

/-- `SAPI_Shut` -/
def sapiShut : LibraryM ℤ := do
  shutServer .main
  shutServer .snd
  modify fun s => { s with bInitOK := false }
  return 0

end Library

/-- One call. -/
def SapiCall.inLibrary (emergencyServerNode : Bytes) (crt : Crt) (r : LibraryReplies) :
    SapiCall → LibraryM CallLog
  | .read bsConn bsItem =>
    Library.inGroup emergencyServerNode r rdGroupName (-1) (readCall crt r.items bsConn bsItem)
  | .write bsConn bsItem bsType bsData =>
    Library.inGroup emergencyServerNode r wrGroupName (-1)
      (writeCall crt r.items bsConn bsItem bsType bsData)
  | .mread bsParStr =>
    Library.inRequest emergencyServerNode crt r true bsParStr (mreadCall crt r.items)
  | .mwrite bsParStr =>
    Library.inRequest emergencyServerNode crt r false bsParStr (mwriteCall r.items)

/-- What the clients do. -/
inductive LibraryCall where
  | sapi (call : SapiCall) (r : LibraryReplies)
  /-- `SAPI_Shut`, also when the library is unloaded. -/
  | shut

/-- What comes of a call: the library behind it, if it returns, and what it did. -/
def LibraryCall.run (emergencyServerNode : Bytes) (crt : Crt) (s : Library) :
    LibraryCall → Option (Library × CallLog)
  | .sapi call r =>
    match call.inLibrary emergencyServerNode crt r s with
    | .ok log s' => some (s', log)
    | .error _ _ => none
  | .shut =>
    match Library.sapiShut s with
    | .ok ret s' => some (s', .done ret)
    | .error _ _ => none

/-- The library, driven by its clients; `none` once a call has not returned. -/
def library (emergencyServerNode : Bytes) (crt : Crt) :
    Machine (Option Library) LibraryCall (Option CallLog) :=
  ⟨fun s call =>
    let out := s.bind fun s => call.run emergencyServerNode crt s
    (out.map Prod.fst, out.map Prod.snd)⟩

/-! ### A group that is added -/

namespace Client

section

variable {c c' : Client} {p : ℕ} {o : Option ℕ} {szName name : Bytes}
  {server : Bytes → GroupReplies}

/-- A group that is built has all its pointers, and those of the others stay. -/
theorem addGroup_members (hgrants : Grants (server szName) name) (hp : p = c.objects.heap.length)
    (heq : addGroup server szName c = .ok o c') :
    o = some p ∧ Complete (c'.members p) ∧ ∀ q ≠ p, c'.members q = c.members q := by
  obtain ⟨c₁, hadds, -, hcomplete, hothers⟩ := addGroup_granted (c := c) hgrants hp
  rw [hadds] at heq
  cases hadd : onObjects (Objects.add p) c₁ with
  | error e c₂ =>
    rw [bind_of_error hadd] at heq
    cases heq
  | ok u c₂ =>
    obtain ⟨hmembers, -, -⟩ := onObjects_frame hadd
    rw [bind_of_ok hadd] at heq
    cases heq
    exact ⟨rfl, hmembers ▸ hcomplete, fun q hq => by rw [hmembers, hothers q hq]⟩

theorem interfaces_append (c : Client) (ps ps' : List ℕ) :
    c.interfaces (ps ++ ps') = c.interfaces ps ++ c.interfaces ps' := List.flatMap_append

theorem outcome_ok {α : Type} {res : EStateM.Result Fault Client α} {a : α} {w : Objects}
    (h : outcome res = .ok a w) : ∃ c, res = .ok a c ∧ c.objects = w := by
  cases res with
  | ok b c =>
    cases h
    exact ⟨c, rfl, rfl⟩
  | error e c => cases h

end

end Client

/-! ### A connected server object -/

namespace COpcServer

section

variable {s s' : COpcServer} {groups groups' : List COPCGroup} {ps : List ℕ} {p : ℕ}
  {g : COPCGroup} {szName : Bytes} {r : LibraryReplies}

/-- A server object with other groups. -/
def withObjects (s : COpcServer) (w : Objects) : COpcServer :=
  { s with client := { s.client with objects := w } }

theorem Connected.withObjects {w : Objects} (h : Connected s groups ps)
    (hw : Shows w ⟨true, groups'⟩ ps) : Connected (s.withObjects w) groups' ps where
  server := h.server
  shows := hw
  complete := h.complete
  account := h.account
  sink := h.sink
  sinks := h.sinks

/-- A group that is found is held. -/
theorem Connected.search (h : Connected s groups ps) (szName : Bytes) :
    (∃ w p g, Shows w ⟨true, groups⟩ ps ∧ w.heap.get p = some ⟨1, g⟩ ∧
        SapiState.group? ⟨true, groups⟩ szName = some g ∧
        COpcServer.search szName s = .ok (some p) (s.withObjects (w.hold p g))) ∨
      (∃ w, Shows w ⟨true, groups⟩ ps ∧ SapiState.group? ⟨true, groups⟩ szName = none ∧
        COpcServer.search szName s = .ok none (s.withObjects w)) := by
  rcases Objects.getGroupByName_finds h.shows szName with
    ⟨w, p, g, hw, hget, hg, heq⟩ | ⟨w, hw, hg, heq⟩
  · exact .inl ⟨w, p, g, hw, hget, hg, onClient_ok (Client.onObjects_ok heq)⟩
  · exact .inr ⟨w, hw, hg, onClient_ok (Client.onObjects_ok heq)⟩

/-- A call on a group that is held. -/
theorem Connected.onGroup {w : Objects} {body : COPCGroup → COPCGroup × CallLog}
    (h : Connected s groups ps) (hw : Shows w ⟨true, groups⟩ ps)
    (hget : w.heap.get p = some ⟨1, g⟩) (hname : (body g).1.name = g.name) :
    ∃ s', onClient (Client.onGroup body p) (s.withObjects (w.hold p g)) = .ok (body g).2 s' ∧
      Connected s' (Keyed.update COPCGroup.name g.name (fun _ => (body g).1) groups) ps := by
  have hself : (w.hold p g).heap.get p = some ⟨2, g⟩ := Heap.get_store_self hget
  have hchanged : (w.hold p (body g).1).heap.get p = some ⟨2, (body g).1⟩ :=
    Heap.get_store_self hget
  set w' : Objects := { w with heap := w.heap.store p ⟨1, (body g).1⟩ } with hw'
  have hset : Client.onObjects (Objects.setObject p ⟨2, (body g).1⟩)
      (s.withObjects (w.hold p g)).client =
        .ok () (s.withObjects (w.hold p (body g).1)).client :=
    Client.onObjects_ok (Objects.setObject_hold w p g _)
  have hrelease : Client.releaseGroup p (s.withObjects (w.hold p (body g).1)).client =
      .ok () (s.withObjects w').client :=
    Client.releaseGroup_more hchanged (by show (2 : ℤ) - 1 ≠ 0; decide)
      (Objects.release_changed hget)
  refine ⟨s.withObjects w', onClient_ok ?_, h.withObjects (hw.update hget hname)⟩
  rw [Client.onGroup, bind_of_ok (Client.onObjects_ok (Objects.object_eq hself))]
  simp only
  rw [bind_of_ok hset, bind_of_ok hrelease]
  rfl

/-- **A group that is not there**: the server does not add it, it is added and held, or it refuses
an interface and the call does not return. -/
theorem Connected.addGroup (h : Connected s groups ps)
    (hnew : SapiState.group? ⟨true, groups⟩ szName = none) (r : LibraryReplies) :
    (failed r.group.addGroup = true ∧
        ∃ s', COpcServer.addGroup r.server szName s = .ok none s' ∧ Connected s' groups ps) ∨
      (failed r.group.addGroup = false ∧ ∃ (s₁ : COpcServer) (w : Objects) (p : ℕ),
        COpcServer.addGroup r.server szName s = .ok (some p)
          (s₁.withObjects (w.hold p ⟨szName, [], []⟩)) ∧
        Connected (s₁.withObjects w) (groups ++ [⟨szName, [], []⟩]) (ps ++ [p]) ∧
        w.heap.get p = some ⟨1, ⟨szName, [], []⟩⟩) ∨
      (Client.Refuses r.group ∧ ∃ s', COpcServer.addGroup r.server szName s = .error .wild s') := by
  obtain ⟨a, ha⟩ := h.server
  have hadds : COpcServer.addGroup r.server szName s =
      onClient (Client.addGroup r.server szName) s := by
    rw [COpcServer.addGroup, bind_get, ha]
  rw [hadds]
  set rc : ComReplies := { r.items with
    addGroup := r.group.addGroup, constructed := S_OK, destroyed := true } with hrc
  cases hadd : failed r.group.addGroup with
  | true =>
    obtain ⟨w, hw, hlist⟩ : ∃ w, Shows w ⟨true, groups⟩ ps ∧
        Objects.makeList s.client.objects = .ok () w := by
      obtain ⟨l, w, hmake, -, -, hw⟩ := Objects.makeList_eq h.shows
      exact ⟨w, hw, hmake⟩
    refine .inl ⟨rfl, s.withObjects w, onClient_ok ?_, h.withObjects hw⟩
    rw [Client.addGroup, bind_of_ok (Client.onObjects_ok hlist)]
    exact congrFun (if_pos hadd) _
  | false =>
    by_cases hrefused : ∃ iid, failed (r.group.query iid) = true
    · obtain ⟨c, hwild⟩ : ∃ c, Client.addGroup r.server szName s.client = .error .wild c :=
        Client.addGroup_wild ⟨hadd, hrefused⟩ s.client
      exact .inr (.inr ⟨⟨hadd, hrefused⟩, _, by rw [onClient, hwild]⟩)
    · have hgranted (iid : IID) : failed (r.group.query iid) = false := by
        simpa using not_exists.1 hrefused iid
      have hgrants : Client.Grants (r.server szName) szName := ⟨hadd, hgranted, rfl⟩
      have hobjects : Client.outcome (Client.addGroup r.server szName s.client) =
          Objects.addGroup rc szName s.client.objects :=
        Client.addGroup_objects rfl rfl hgranted rfl s.client
      rcases Objects.addGroup_cases h.shows rc hnew with
        ⟨w, p, hw, hget, -, -, hadded⟩ | ⟨w, -, hfail | hfail, -⟩ | ⟨hraise, -⟩
      · rw [hadded] at hobjects
        obtain ⟨c, hc, hcw⟩ := Client.outcome_ok hobjects
        obtain ⟨hp, hcomplete, hothers⟩ := Client.addGroup_members hgrants rfl hc
        rw [Option.some.injEq] at hp
        rw [← hp] at hcomplete hothers
        obtain ⟨pIUnk, pIState, hacq, hrel⟩ := Client.addGroup_account hgrants hc hp
        have hin : p ∉ ps := fun hmem =>
          (List.nodup_append.1 hw.distinct).2.2 p hmem p (List.mem_singleton_self p) rfl
        refine .inr (.inl ⟨rfl, { s with client := c }, w, p, ?_, ?_, hget⟩)
        · have hsame : ({ s with client := c } : COpcServer).withObjects
              (w.hold p ⟨szName, [], []⟩) = { s with client := c } := by
            rw [COpcServer.withObjects, ← hcw]
          rw [hsame]
          exact onClient_ok hc
        · exact
            { server := ⟨a, ha⟩
              shows := hw
              complete := by
                intro q hq
                by_cases hqp : q = p
                · exact hqp ▸ hcomplete
                · show Client.Complete (c.members q)
                  rw [hothers q hqp]
                  exact h.complete q (by simpa [hqp] using hq)
              account := by
                have hold : c.interfaces ps = s.client.interfaces ps :=
                  Client.interfaces_congr fun q hq => hothers q fun heq => hin (heq ▸ hq)
                have hone : c.interfaces [p] = (c.members p).interfaces := List.append_nil _
                show c.acquired.Perm (c.released ++ (c.interfaces (ps ++ [p]) ++ s.own))
                rw [Client.interfaces_append, hold, hone, hacq, hrel, List.perm_iff_count]
                intro x
                have hcount := h.account.count_eq x
                simp only [List.count_append] at hcount ⊢
                omega
              sink := h.sink
              sinks := h.sinks }
      · rw [hrc, hadd] at hfail
        cases hfail
      · cases hfail
      · cases hraise

end

end COpcServer

/-! ### Before `SAPI_Shut` -/

namespace Library

/-- The library before `SAPI_Shut`: the main server is connected when `sapi` is, with its groups,
and the emergency server never was. -/
structure Running (s : Library) (state : SapiState) : Prop where
  initialized : s.bInitOK = true
  flag : s.bServer .main = state.connected
  connected : state.connected = true →
    ∃ o ps, s.pServer .main = some o ∧ COpcServer.Connected o state.groups ps
  unconnected : state.connected = false →
    state.groups = [] ∧ ∃ o, s.pServer .main = some o ∧ COpcServer.Unconnected o
  emergency : s.bServer .snd = false ∧ s.pServer .snd = some .new
  deleted : s.deleted = []

theorem running_init : Running init .init where
  initialized := rfl
  flag := rfl
  connected h := by cases h
  unconnected _ := ⟨rfl, _, rfl, COpcServer.unconnected_new⟩
  emergency := ⟨rfl, rfl⟩
  deleted := rfl

/-- What a call comes to, beside what `sapi` makes of it: when it does not return, what it is to do
is undefined, or the server refuses an interface of a new group. -/
def FollowsSapi (r : LibraryReplies) (out : SapiState × CallLog) :
    EStateM.Result Fault Library CallLog → Prop
  | .ok log s => Running s out.1 ∧ log = out.2
  | .error _ _ => out.2.ret = none ∨ Client.Refuses r.group

section

variable {s s' : Library} {state : SapiState} {v w : ServerVar} {o o' : COpcServer} {α : Type}
  {x : ServerM α} {a : α} {e : Fault} {emergencyServerNode szName : Bytes} {crt : Crt}
  {r : LibraryReplies}

theorem onServer_ok (hv : s.pServer v = some o) (hx : x o = .ok a o') :
    onServer v x s = .ok a (s.setServer v (some o')) := by
  rw [onServer, hv]
  simp only [hx]

theorem onServer_error (hv : s.pServer v = some o) (hx : x o = .error e o') :
    onServer v x s = .error e (s.setServer v (some o')) := by
  rw [onServer, hv]
  simp only [hx]

theorem setServer_self : (s.setServer v (some o)).pServer v = some o := by
  simp only [setServer, Function.update_self]

theorem setServer_ne (h : w ≠ v) : (s.setServer v (some o)).pServer w = s.pServer w := by
  simp only [setServer, Function.update_of_ne h]

theorem setServer_setServer : (s.setServer v (some o)).setServer v (some o') =
    s.setServer v (some o') := by
  simp only [setServer, Function.update_idem]

/-- The main server with other groups. -/
theorem Running.setMain {groups : List COPCGroup} {ps : List ℕ} (h : Running s state)
    (hstate : state.connected = true) (ho : COpcServer.Connected o groups ps) :
    Running (s.setServer .main (some o)) ⟨true, groups⟩ where
  initialized := h.initialized
  flag := h.flag.trans hstate
  connected _ := ⟨o, ps, setServer_self, ho⟩
  unconnected hne := by cases hne
  emergency := ⟨h.emergency.1, (setServer_ne (by decide)).trans h.emergency.2⟩
  deleted := h.deleted

/-- **`ConnectToServer`** connects the main server, and it alone. -/
theorem connectMain_running (h : Running s state) (emergencyServerNode : Bytes)
    (r : LibraryReplies) :
    ∃ s', connectMain emergencyServerNode r s = .ok () s' ∧
      Running s' ⟨state.connected || (r.servers .main).connects, state.groups⟩ := by
  rw [connectMain, bind_get, h.flag]
  cases hconn : state.connected with
  | true =>
    refine ⟨s, rfl, ?_⟩
    have hsame : (⟨true || (r.servers .main).connects, state.groups⟩ : SapiState) = state := by
      rw [Bool.true_or, ← hconn]
    rw [hsame]
    exact h
  | false =>
    obtain ⟨hnil, o, hmain, hun⟩ := h.unconnected hconn
    obtain ⟨o', hconnect, hyes, hno⟩ := COpcServer.connect_cases (r := r.servers .main) hun
    set b := (r.servers .main).connects with hb
    set s₁ : Library := { s.setServer .main (some o') with
      bServer := Function.update s.bServer .main b } with hs₁
    have hstep : connectServer r .main s = .ok () s₁ := by
      rw [connectServer, bind_of_ok (onServer_ok hmain hconnect)]
      rfl
    have hflag : s.bServer .main = false := h.flag.trans hconn
    have hsnd : s₁.bServer .snd = false := h.emergency.1
    have hinit : s₁.bInitOK = true := h.initialized
    refine ⟨s₁, ?_, ?_⟩
    · simp only [Bool.not_false, if_true]
      rw [connectToServer, bind_get, hflag]
      simp only [Bool.not_false, if_true]
      rw [bind_of_ok hstep, bind_get, hinit, hsnd]
      rfl
    · have hmain₁ : s₁.pServer .main = some o' := by
        simp only [hs₁, setServer, Function.update_self]
      rw [Bool.false_or, hnil]
      exact
        { initialized := h.initialized
          flag := by simp only [hs₁, Function.update_self]
          connected := fun hone => ⟨o', [], hmain₁, hyes hone⟩
          unconnected := fun hzero => ⟨rfl, o', hmain₁, hno hzero⟩
          emergency := ⟨h.emergency.1, h.emergency.2⟩
          deleted := h.deleted }

/-- A call whose group is there, and held. -/
theorem inGroup_held {groups : List COPCGroup} {ps : List ℕ} {p : ℕ} {g : COPCGroup}
    {w : Objects} {body : COPCGroup → COPCGroup × CallLog} (noGroup : ℤ)
    (h : Running s' state) (hstate : state.connected = true)
    (ho : COpcServer.Connected (o.withObjects w) groups ps) (hget : w.heap.get p = some ⟨1, g⟩)
    (hbody : (body g).1.name = g.name)
    (hgot : getOPCGroup emergencyServerNode r szName s =
      .ok (some p) (s'.setServer .main (some (o.withObjects (w.hold p g))))) :
    FollowsSapi r
      (⟨true, Keyed.update COPCGroup.name g.name (fun _ => (body g).1) groups⟩, (body g).2)
      (inGroup emergencyServerNode r szName noGroup body s) := by
  obtain ⟨o', hheld, ho'⟩ := ho.onGroup ho.shows hget hbody
  have hgroup : COpcServer.onClient (Client.onGroup body p) (o.withObjects (w.hold p g)) =
      .ok (body g).2 o' := hheld
  rw [inGroup, bind_of_ok hgot]
  simp only
  rw [bind_of_ok (onServer_ok setServer_self hgroup), setServer_setServer]
  split_ifs with hret
  · exact .inl hret
  · exact ⟨h.setMain hstate ho', rfl⟩

/-- **A call on its group.** -/
theorem inGroup_follows (h : Running s state) (emergencyServerNode szName : Bytes) (noGroup : ℤ)
    (r : LibraryReplies) {body : COPCGroup → COPCGroup × CallLog}
    (hbody : ∀ g, (body g).1.name = g.name) :
    FollowsSapi r (OpcS7.getOPCGroup r.asReplies szName noGroup body state)
      (inGroup emergencyServerNode r szName noGroup body s) := by
  obtain ⟨s₁, hconnect, h₁⟩ := connectMain_running h emergencyServerNode r
  have hbegin : getOPCGroup emergencyServerNode r szName s =
      (do
        if !(← get).bServer .main then return none
        else
          match ← onServer .main (COpcServer.search szName) with
          | some p => return some p
          | none => onServer .main (COpcServer.addGroup r.server szName) :
        LibraryM (Option ℕ)) s₁ := by
    rw [getOPCGroup, bind_get, h.initialized]
    simp only [Bool.not_true, Bool.false_eq_true, if_false]
    rw [bind_of_ok hconnect]
  rw [bind_get, h₁.flag] at hbegin
  rw [OpcS7.getOPCGroup]
  have hasked : r.asReplies.connect = (r.servers .main).connects := rfl
  rw [hasked]
  cases hconn : state.connected || (r.servers .main).connects with
  | false =>
    have hsame : (⟨false, state.groups⟩ : SapiState) = state := by
      rw [← (Bool.or_eq_false_iff.1 hconn).1]
    rw [hconn] at hbegin h₁
    rw [hsame] at h₁
    have hnone : getOPCGroup emergencyServerNode r szName s = .ok none s₁ := hbegin
    rw [inGroup, bind_of_ok hnone]
    exact ⟨h₁, rfl⟩
  | true =>
    rw [hconn] at hbegin h₁
    obtain ⟨o, ps, hmain, ho⟩ := h₁.connected rfl
    simp only [Bool.not_true, Bool.false_eq_true, if_false] at hbegin ⊢
    rcases ho.search szName with ⟨w, p, g, hw, hget, hg, hsearch⟩ | ⟨w, hw, hg, hsearch⟩
    · have hgot : getOPCGroup emergencyServerNode r szName s =
          .ok (some p) (s₁.setServer .main (some (o.withObjects (w.hold p g)))) := by
        rw [hbegin, bind_of_ok (onServer_ok hmain hsearch)]
        rfl
      have hfollows := inGroup_held noGroup h₁ rfl (ho.withObjects hw) hget (hbody g) hgot
      rw [(SapiState.group?_mem hg).2] at hfollows
      rw [SapiState.group?] at hg
      rw [hg]
      exact hfollows
    · set s₂ := s₁.setServer .main (some (o.withObjects w)) with hs₂
      have hadd : getOPCGroup emergencyServerNode r szName s =
          onServer .main (COpcServer.addGroup r.server szName) s₂ := by
        rw [hbegin, bind_of_ok (onServer_ok hmain hsearch)]
      have hfind := hg
      rw [SapiState.group?] at hfind
      rw [hfind]
      have hanswer : r.asReplies.addGroup = r.group.addGroup := rfl
      rw [hanswer]
      rcases (ho.withObjects hw).addGroup hg r with
        ⟨hfail, o', hadded, ho'⟩ | ⟨hok, o', w', p, hadded, ho', hget⟩ | ⟨hrefuses, o', hadded⟩
      · have hnone : getOPCGroup emergencyServerNode r szName s =
            .ok none (s₁.setServer .main (some o')) := by
          rw [hadd, onServer_ok setServer_self hadded, setServer_setServer]
        rw [inGroup, bind_of_ok hnone]
        simp only [hfail, if_true]
        exact ⟨h₁.setMain rfl ho', rfl⟩
      · have hgot : getOPCGroup emergencyServerNode r szName s = .ok (some p)
            (s₁.setServer .main (some (o'.withObjects (w'.hold p ⟨szName, [], []⟩)))) := by
          rw [hadd, onServer_ok setServer_self hadded, setServer_setServer]
        have hfollows := inGroup_held noGroup h₁ rfl ho' hget (hbody _) hgot
        have hnot : szName ∉ state.groups.map COPCGroup.name := by
          intro hmem
          obtain ⟨g, hg, hname⟩ := List.mem_map.1 hmem
          exact List.find?_eq_none.1 hfind g hg (decide_eq_true hname)
        rw [Keyed.update_concat hnot rfl] at hfollows
        simp only [hok, Bool.false_eq_true, if_false]
        exact hfollows
      · rw [inGroup, bind_of_error (hadd.trans (onServer_error setServer_self hadded))]
        exact .inr hrefuses

theorem inRequest_follows (h : Running s state) (emergencyServerNode : Bytes) (crt : Crt)
    (r : LibraryReplies) (bReadRequest : Bool) (bsParStr : Bytes)
    {body : List CEdpsParam → COPCGroup → COPCGroup × CallLog}
    (hbody : ∀ params g, (body params g).1.name = g.name) :
    FollowsSapi r (multiCall crt r.asReplies bReadRequest bsParStr body state)
      (inRequest emergencyServerNode crt r bReadRequest bsParStr body s) := by
  rw [multiCall, inRequest]
  cases parseRequest crt bsParStr bReadRequest with
  | error e => exact .inl rfl
  | ok params =>
    simp only
    split_ifs with hnil
    · exact ⟨h, rfl⟩
    · cases szGroupName params with
      | none => exact .inl rfl
      | some szName => exact inGroup_follows h _ _ _ r (hbody params)

end

end Library

open Library

/-- **One call** of the library is one of `sapi`. -/
theorem SapiCall.follows {s : Library} {state : SapiState} (h : Running s state)
    (emergencyServerNode : Bytes) (crt : Crt) (call : SapiCall) (r : LibraryReplies) :
    FollowsSapi r (call.run crt r.asReplies state)
      (call.inLibrary emergencyServerNode crt r s) := by
  cases call with
  | read bsConn bsItem => exact inGroup_follows h _ _ _ r (name_readCall crt _ bsConn bsItem)
  | write bsConn bsItem bsType bsData =>
    exact inGroup_follows h _ _ _ r (name_writeCall crt _ bsConn bsItem bsType bsData)
  | mread bsParStr => exact inRequest_follows h _ crt r true bsParStr (name_mreadCall crt _)
  | mwrite bsParStr => exact inRequest_follows h _ crt r false bsParStr (name_mwriteCall _)

section

variable {emergencyServerNode : Bytes} {crt : Crt} {s s' : Library} {state : SapiState}
  {calls : List LibraryCall}

/-- The calls before `SAPI_Shut`, with what `sapi` is told. -/
def told (calls : List (SapiCall × LibraryReplies)) : List (SapiCall × Replies) :=
  calls.map fun c => (c.1, c.2.asReplies)

def sapiCalls (calls : List (SapiCall × LibraryReplies)) : List LibraryCall :=
  calls.map fun c => .sapi c.1 c.2

theorem sapi_next (call : SapiCall) (r : Replies) :
    (sapi crt).next state (call, r) = call.run crt r state := rfl

theorem library_none (emergencyServerNode : Bytes) (crt : Crt) (calls : List LibraryCall) :
    (library emergencyServerNode crt).after none calls = none := by
  induction calls with
  | nil => rfl
  | cons call calls ih => exact ih

/-- A step that returns. -/
theorem library_next {call : LibraryCall} {log : CallLog}
    (h : call.run emergencyServerNode crt s = some (s', log)) :
    (library emergencyServerNode crt).next (some s) call = (some s', some log) := by
  show (((some s).bind fun s => call.run emergencyServerNode crt s).map Prod.fst, _) = _
  rw [Option.bind_some, h]
  rfl

/-- A step that does not. -/
theorem library_stops {call : LibraryCall} (h : call.run emergencyServerNode crt s = none) :
    (library emergencyServerNode crt).next (some s) call = (none, none) := by
  show (((some s).bind fun s => call.run emergencyServerNode crt s).map Prod.fst, _) = _
  rw [Option.bind_some, h]
  rfl

theorem refines_of_running {calls : List (SapiCall × LibraryReplies)} (h : Running s state) :
    (∀ s' ∈ (library emergencyServerNode crt).after (some s) (sapiCalls calls),
        Running s' ((sapi crt).after state (told calls)) ∧
          (library emergencyServerNode crt).outs (some s) (sapiCalls calls) =
            ((sapi crt).outs state (told calls)).map some) ∧
      ((∀ c ∈ calls, ¬ Client.Refuses c.2.group) →
        (∀ log ∈ (sapi crt).outs state (told calls), log.ret ≠ none) →
          (library emergencyServerNode crt).after (some s) (sapiCalls calls) ≠ none) := by
  induction calls generalizing s state with
  | nil =>
    refine ⟨?_, fun _ _ => Option.some_ne_none s⟩
    intro s' hs'
    cases hs'
    exact ⟨h, rfl⟩
  | cons c calls ih =>
    have hfollows := c.1.follows h emergencyServerNode crt c.2
    rw [sapiCalls, told, List.map_cons, List.map_cons, Machine.after_cons, Machine.after_cons,
      Machine.outs_cons, Machine.outs_cons, ← sapiCalls, ← told, sapi_next]
    cases hcall : c.1.inLibrary emergencyServerNode crt c.2 s with
    | ok log s₁ =>
      rw [hcall] at hfollows
      obtain ⟨h₁, rfl⟩ := hfollows
      have hrun : (LibraryCall.sapi c.1 c.2).run emergencyServerNode crt s =
          some (s₁, (c.1.run crt c.2.asReplies state).2) := by
        rw [LibraryCall.run, hcall]
      rw [library_next hrun]
      obtain ⟨hshows, hreturns⟩ := ih h₁
      refine ⟨?_, ?_⟩
      · intro s' hs'
        obtain ⟨h', houts⟩ := hshows s' hs'
        exact ⟨h', congrArg _ houts⟩
      · intro hgrants hdefined
        exact hreturns (fun c' hc' => hgrants c' (List.mem_cons_of_mem c hc'))
          fun log hlog => hdefined log (List.mem_cons_of_mem _ hlog)
    | error e s₁ =>
      rw [hcall] at hfollows
      have hrun : (LibraryCall.sapi c.1 c.2).run emergencyServerNode crt s = none := by
        rw [LibraryCall.run, hcall]
      rw [library_stops hrun]
      refine ⟨?_, ?_⟩
      · intro s' hs'
        rw [library_none] at hs'
        cases hs'
      · intro hgrants hdefined
        rcases hfollows with hret | hrefuses
        · exact absurd hret (hdefined _ List.mem_cons_self)
        · exact absurd hrefuses (hgrants c List.mem_cons_self)

/-- A server that gives every interface, is told of its sink, and reads 7 everywhere. -/
def exampleServer : LibraryReplies where
  items := exampleReplies S_OK
  servers _ :=
    { clsid := S_OK
      create := S_OK
      hr := fun _ => S_OK
      pItf := fun iid => if iid = .iOPCServer then 1 else 2
      findConnectionPoint := S_OK
      pConnShutdown := 3
      advise := S_OK
      cookie := 1
      kept := 1 }
  group :=
    { addGroup := S_OK
      pIUnk := 4
      query := fun _ => S_OK
      interface := fun _ => 5
      getState := S_OK
      szName := none
      hServer := 6
      allocated := fun _ => 7 }

/-- One item, read twice. -/
def exampleSapiCalls : List (SapiCall × LibraryReplies) :=
  [(.read (ascii "C") (ascii "DB1,W0"), exampleServer),
    (.read (ascii "C") (ascii "DB1,W0"), exampleServer)]

theorem exampleServer_grants : ¬ Client.Refuses exampleServer.group := by
  rintro ⟨-, iid, hrefused⟩
  cases hrefused

theorem exampleSapiCalls_grant : ∀ c ∈ exampleSapiCalls, ¬ Client.Refuses c.2.group := by
  intro c hc
  simp only [exampleSapiCalls, List.mem_cons, List.not_mem_nil, or_false] at hc
  rcases hc with rfl | rfl <;> exact exampleServer_grants

theorem exampleSapiCalls_defined :
    ∀ log ∈ (sapi exampleCrt).outs .init (told exampleSapiCalls), log.ret ≠ none := by
  decide +kernel

theorem exampleSapiCalls_return :
    ∃ s, (library [] exampleCrt).after (some init) (sapiCalls exampleSapiCalls) = some s :=
  Option.ne_none_iff_exists'.1
    ((refines_of_running running_init).2 exampleSapiCalls_grant exampleSapiCalls_defined)

/-- **The library refines `sapi`.**  Before `SAPI_Shut`, as long as every call returns, the library
has the groups of `sapi` and returns what it returns.  Every call does return, unless what it is to
do is undefined or the server refuses an interface of a group that it has added. -/
theorem library_refines (emergencyServerNode : Bytes) (crt : Crt)
    (calls : List (SapiCall × LibraryReplies)) :
    (∀ s ∈ (library emergencyServerNode crt).after (some init) (sapiCalls calls),
        Running s ((sapi crt).after .init (told calls)) ∧
          (library emergencyServerNode crt).outs (some init) (sapiCalls calls) =
            ((sapi crt).outs .init (told calls)).map some) ∧
      ((∀ c ∈ calls, ¬ Client.Refuses c.2.group) →
        (∀ log ∈ (sapi crt).outs .init (told calls), log.ret ≠ none) →
          (library emergencyServerNode crt).after (some init) (sapiCalls calls) ≠ none) :=
  refines_of_running running_init

theorem library_refines_exampleCalls :
    ((sapi exampleCrt).outs .init (told exampleSapiCalls)).map CallLog.data =
        [some (ascii "7"), some (ascii "7")] ∧
      ∃ s, (library [] exampleCrt).after (some init) (sapiCalls exampleSapiCalls) = some s ∧
        Running s ((sapi exampleCrt).after .init (told exampleSapiCalls)) ∧
        (library [] exampleCrt).outs (some init) (sapiCalls exampleSapiCalls) =
          ((sapi exampleCrt).outs .init (told exampleSapiCalls)).map some := by
  obtain ⟨hshows, hreturns⟩ := library_refines [] exampleCrt exampleSapiCalls
  obtain ⟨s, hs⟩ := Option.ne_none_iff_exists'.1
    (hreturns exampleSapiCalls_grant exampleSapiCalls_defined)
  exact ⟨by decide +kernel, s, hs, hshows s hs⟩

end

/-! ### `SAPI_Shut` -/

namespace Library

/-- The library behind `SAPI_Shut`: what was connected has been deleted, and the other server
objects never were. -/
structure Over (s : Library) : Prop where
  initialized : s.bInitOK = false
  flags : ∀ v, s.bServer v = false
  servers : ∀ v o, s.pServer v = some o → COpcServer.Unconnected o
  emergency : s.pServer .snd = some .new
  deleted : ∀ o ∈ s.deleted, COpcServer.Disconnected o

section

variable {s s' : Library} {state : SapiState} {v : ServerVar} {o : COpcServer}
  {emergencyServerNode : Bytes} {crt : Crt}

theorem shutServer_idle (h : s.bServer v = false) : shutServer v s = .ok () s := by
  rw [shutServer, bind_get, h]
  rfl

/-- A connected server object goes, with all that it holds. -/
theorem shutServer_connected {groups : List COPCGroup} {ps : List ℕ} (hv : s.bServer v = true)
    (hs : s.pServer v = some o) (ho : COpcServer.Connected o groups ps) :
    ∃ o', COpcServer.Disconnected o' ∧ shutServer v s =
      .ok () { s with
        pServer := Function.update s.pServer v none
        bServer := Function.update s.bServer v false
        deleted := s.deleted ++ [o'] } := by
  obtain ⟨o', hdisconnect, ho'⟩ := COpcServer.disconnect_settles ho
  refine ⟨o', ho', ?_⟩
  have hagain : onServer v COpcServer.disconnect (s.setServer v (some o')) =
      .ok false (s.setServer v (some o')) := by
    rw [onServer_ok setServer_self (COpcServer.disconnect_none (ho'.pointers _)),
      setServer_setServer]
  rw [shutServer, bind_get, hv, if_pos rfl, bind_of_ok (onServer_ok hs hdisconnect),
    bind_of_ok hagain]
  show EStateM.Result.ok () _ = _
  simp only [setServer, Function.update_idem, Function.update_self, Option.toList_some]

/-- **`SAPI_Shut`** deletes the main server object if it is connected. -/
theorem sapiShut_running (h : Running s state) : ∃ s', sapiShut s = .ok 0 s' ∧ Over s' := by
  have hmain : ∃ s₁, shutServer .main s = .ok () s₁ ∧ s₁.bServer .main = false ∧
      (∀ o, s₁.pServer .main = some o → COpcServer.Unconnected o) ∧
      s₁.bServer .snd = false ∧ s₁.pServer .snd = some .new ∧
      ∀ o ∈ s₁.deleted, COpcServer.Disconnected o := by
    cases hconn : state.connected with
    | false =>
      have hflag : s.bServer .main = false := h.flag.trans hconn
      obtain ⟨-, o, ho, hun⟩ := h.unconnected hconn
      refine ⟨s, shutServer_idle hflag, hflag, ?_, h.emergency.1, h.emergency.2, ?_⟩
      · intro o' ho'
        rw [ho, Option.some.injEq] at ho'
        exact ho' ▸ hun
      · intro o' ho'
        rw [h.deleted] at ho'
        cases ho'
    | true =>
      obtain ⟨o, ps, ho, hconnected⟩ := h.connected hconn
      obtain ⟨o', hdisconnected, hshut⟩ :=
        shutServer_connected (h.flag.trans hconn) ho hconnected
      refine ⟨_, hshut, ?_, ?_, ?_, ?_, ?_⟩
      · simp only [Function.update_self]
      · intro o'' ho''
        simp only [Function.update_self] at ho''
        cases ho''
      · exact h.emergency.1
      · exact h.emergency.2
      · intro o'' ho''
        rw [h.deleted, List.nil_append, List.mem_singleton] at ho''
        exact ho'' ▸ hdisconnected
  obtain ⟨s₁, hshut, hflag, hmain, hflag', hsnd, hdeleted⟩ := hmain
  refine ⟨{ s₁ with bInitOK := false }, ?_, rfl, ?_, ?_, hsnd, hdeleted⟩
  · rw [sapiShut, bind_of_ok hshut, bind_of_ok (shutServer_idle hflag')]
    rfl
  · intro v
    cases v with
    | main => exact hflag
    | snd => exact hflag'
  · intro v o ho
    cases v with
    | main => exact hmain o ho
    | snd =>
      have hnew : some COpcServer.new = some o := hsnd.symm.trans ho
      cases hnew
      exact COpcServer.unconnected_new

theorem sapiShut_over (h : Over s) : sapiShut s = .ok 0 s := by
  rw [sapiShut, bind_of_ok (shutServer_idle (h.flags .main)),
    bind_of_ok (shutServer_idle (h.flags .snd))]
  show EStateM.Result.ok (0 : ℤ) { s with bInitOK := false } = _
  rw [← h.initialized]

/-! ### Behind `SAPI_Shut` -/

/-- A call that does nothing, or does not return. -/
def Idle (s : Library) : EStateM.Result Fault Library CallLog → Prop
  | .ok log s' => s' = s ∧ (log = .done (-1) ∨ log = .done (-2))
  | .error _ _ => True

theorem inGroup_over (h : Over s) (r : LibraryReplies) (szName : Bytes) (noGroup : ℤ)
    (body : COPCGroup → COPCGroup × CallLog) :
    inGroup emergencyServerNode r szName noGroup body s = .ok (.done noGroup) s := by
  have hnone : getOPCGroup emergencyServerNode r szName s = .ok none s := by
    rw [getOPCGroup, bind_get, h.initialized]
    rfl
  rw [inGroup, bind_of_ok hnone]
  rfl

theorem inRequest_over (h : Over s) (r : LibraryReplies) (bReadRequest : Bool) (bsParStr : Bytes)
    (body : List CEdpsParam → COPCGroup → COPCGroup × CallLog) :
    Idle s (inRequest emergencyServerNode crt r bReadRequest bsParStr body s) := by
  rw [inRequest]
  cases parseRequest crt bsParStr bReadRequest with
  | error e => trivial
  | ok params =>
    simp only
    split_ifs with hnil
    · exact ⟨rfl, .inl rfl⟩
    · cases szGroupName params with
      | none => trivial
      | some szName =>
        simp only
        rw [inGroup_over h]
        exact ⟨rfl, .inr rfl⟩

end

end Library

/-- **A call behind `SAPI_Shut`.** -/
theorem SapiCall.over {s : Library} (h : Over s) (emergencyServerNode : Bytes) (crt : Crt)
    (call : SapiCall) (r : LibraryReplies) :
    Idle s (call.inLibrary emergencyServerNode crt r s) := by
  cases call with
  | read bsConn bsItem =>
    rw [inLibrary, inGroup_over h]
    exact ⟨rfl, .inl rfl⟩
  | write bsConn bsItem bsType bsData =>
    rw [inLibrary, inGroup_over h]
    exact ⟨rfl, .inl rfl⟩
  | mread bsParStr => exact inRequest_over h r true bsParStr _
  | mwrite bsParStr => exact inRequest_over h r false bsParStr _

/-! ### Runs -/

section

variable {emergencyServerNode : Bytes} {crt : Crt} {s s' : Library}

/-- Before `SAPI_Shut` or behind it. -/
def Known (s : Library) : Prop := (∃ state, Running s state) ∨ Over s

/-- What a call leaves, if it returns. -/
theorem run_known {call : LibraryCall} {log : CallLog} (h : Known s)
    (hrun : call.run emergencyServerNode crt s = some (s', log)) : Known s' := by
  cases call with
  | sapi call r =>
    rcases h with ⟨state, h⟩ | h
    · have hfollows := call.follows h emergencyServerNode crt r
      cases hcall : call.inLibrary emergencyServerNode crt r s with
      | ok log' s₁ =>
        rw [LibraryCall.run, hcall] at hrun
        cases hrun
        rw [hcall] at hfollows
        exact .inl ⟨_, hfollows.1⟩
      | error e s₁ =>
        rw [LibraryCall.run, hcall] at hrun
        cases hrun
    · have hidle := call.over h emergencyServerNode crt r
      cases hcall : call.inLibrary emergencyServerNode crt r s with
      | ok log' s₁ =>
        rw [LibraryCall.run, hcall] at hrun
        cases hrun
        rw [hcall] at hidle
        exact .inr (hidle.1 ▸ h)
      | error e s₁ =>
        rw [LibraryCall.run, hcall] at hrun
        cases hrun
  | shut =>
    rcases h with ⟨state, h⟩ | h
    · obtain ⟨s₁, hshut, hover⟩ := sapiShut_running h
      rw [LibraryCall.run, hshut] at hrun
      cases hrun
      exact .inr hover
    · rw [LibraryCall.run, sapiShut_over h] at hrun
      cases hrun
      exact .inr h

def KnownSome (o : Option Library) : Prop := ∀ s ∈ o, Known s

theorem library_known (emergencyServerNode : Bytes) (crt : Crt) (calls : List LibraryCall) :
    KnownSome ((library emergencyServerNode crt).after (some init) calls) := by
  have hstart : KnownSome (some init) := by
    intro s hs
    cases hs
    exact .inl ⟨_, running_init⟩
  refine Machine.after_invariant (P := fun _ _ => True) ?_ hstart
    (Machine.eachStep_of_forall fun _ _ => trivial)
  intro o call ho _ s' hs'
  cases o with
  | none => cases hs'
  | some s =>
    cases hrun : call.run emergencyServerNode crt s with
    | none =>
      rw [library_stops hrun] at hs'
      cases hs'
    | some out =>
      obtain ⟨s₁, log⟩ := out
      rw [library_next hrun] at hs'
      cases hs'
      exact run_known (ho s rfl) hrun

/-- Behind `SAPI_Shut` a run that goes on stands still. -/
theorem later_idle (h : Over s) (later : List LibraryCall) :
    ∀ s' ∈ (library emergencyServerNode crt).after (some s) later, s' = s ∧
      ∀ out ∈ (library emergencyServerNode crt).outs (some s) later,
        ∃ ret, (ret = 0 ∨ ret = -1 ∨ ret = -2) ∧ out = some (.done ret) := by
  induction later with
  | nil =>
    intro s' hs'
    cases hs'
    exact ⟨rfl, fun out hout => absurd hout List.not_mem_nil⟩
  | cons call later ih =>
    have hstep : ∀ log, call.run emergencyServerNode crt s = some (s, log) →
        (∃ ret, (ret = 0 ∨ ret = -1 ∨ ret = -2) ∧ log = .done ret) →
        ∀ s' ∈ (library emergencyServerNode crt).after (some s) (call :: later), s' = s ∧
          ∀ out ∈ (library emergencyServerNode crt).outs (some s) (call :: later),
            ∃ ret, (ret = 0 ∨ ret = -1 ∨ ret = -2) ∧ out = some (.done ret) := by
      rintro log hrun ⟨ret, hret, rfl⟩ s' hs'
      rw [Machine.after_cons, library_next hrun] at hs'
      obtain ⟨hsame, houts⟩ := ih s' hs'
      refine ⟨hsame, ?_⟩
      intro out hout
      rw [Machine.outs_cons, library_next hrun] at hout
      rcases List.mem_cons.1 hout with rfl | hout
      · exact ⟨ret, hret, rfl⟩
      · exact houts out hout
    cases call with
    | shut =>
      exact hstep (.done 0) (by rw [LibraryCall.run, sapiShut_over h]) ⟨0, .inl rfl, rfl⟩
    | sapi call r =>
      have hidle := call.over h emergencyServerNode crt r
      cases hcall : call.inLibrary emergencyServerNode crt r s with
      | ok log s₁ =>
        rw [hcall] at hidle
        obtain ⟨rfl, hlog⟩ := hidle
        refine hstep log (by rw [LibraryCall.run, hcall]) ?_
        rcases hlog with rfl | rfl
        · exact ⟨-1, .inr (.inl rfl), rfl⟩
        · exact ⟨-2, .inr (.inr rfl), rfl⟩
      | error e s₁ =>
        intro s' hs'
        have hrun : (LibraryCall.sapi call r).run emergencyServerNode crt s = none := by
          rw [LibraryCall.run, hcall]
        rw [Machine.after_cons, library_stops hrun, library_none] at hs'
        cases hs'

/-- **`SAPI_Shut`**, after any calls that have returned: it returns, every server object has given
back all it had got, and as long as later calls return they change nothing, and none of them does
anything. -/
theorem library_shut (emergencyServerNode : Bytes) (crt : Crt) (calls : List LibraryCall) :
    ∀ s ∈ (library emergencyServerNode crt).after (some init) calls,
      ∃ s₁, (library emergencyServerNode crt).after (some init) (calls ++ [.shut]) = some s₁ ∧
        (∀ v o, s₁.pServer v = some o → COpcServer.Disconnected o) ∧
        (∀ o ∈ s₁.deleted, COpcServer.Disconnected o) ∧
        ∀ later, ∀ s₂ ∈ (library emergencyServerNode crt).after (some s₁) later, s₂ = s₁ ∧
          ∀ out ∈ (library emergencyServerNode crt).outs (some s₁) later,
            ∃ ret, (ret = 0 ∨ ret = -1 ∨ ret = -2) ∧ out = some (.done ret) := by
  intro s hs
  obtain ⟨s₁, hshut, hover⟩ : ∃ s₁, sapiShut s = .ok 0 s₁ ∧ Over s₁ := by
    rcases library_known emergencyServerNode crt calls s hs with ⟨state, h⟩ | h
    · exact sapiShut_running h
    · exact ⟨s, sapiShut_over h, h⟩
  have hrun : LibraryCall.shut.run emergencyServerNode crt s = some (s₁, .done 0) := by
    rw [LibraryCall.run, hshut]
  refine ⟨s₁, ?_, fun v o ho => (hover.servers v o ho).disconnected, hover.deleted, ?_⟩
  · rw [Machine.after_append, Option.mem_def.1 hs, Machine.after_cons, library_next hrun]
    rfl
  · exact fun later => later_idle hover later

theorem library_shut_exampleCalls :
    ∃ s₁, (library [] exampleCrt).after (some init) (sapiCalls exampleSapiCalls ++ [.shut]) =
        some s₁ ∧
      (∀ v o, s₁.pServer v = some o → COpcServer.Disconnected o) ∧
      ∀ o ∈ s₁.deleted, COpcServer.Disconnected o := by
  obtain ⟨s, hs⟩ := exampleSapiCalls_return
  obtain ⟨s₁, hshut, hservers, hdeleted, -⟩ :=
    library_shut [] exampleCrt (sapiCalls exampleSapiCalls) s hs
  exact ⟨s₁, hshut, hservers, hdeleted⟩

end

end OpcS7

end Edps
