import Edps.Lib.Heap
import Edps.SapiS7.Connection

/-!
# Connections and sessions of SAPI-S7

`SAPI_read` and `SAPI_write` look for the connection they need in `Con` and make it if it is not
there; a new connection joins the session of its CP in `Sess`, or makes one.  A session counts its
connections and is deleted with the last of them.  When the data transfer fails, and in
`SAPI_Shut`, all connections are deleted.

The destructor of a connection drops its reference when the member `SessStatus` is zero, and that
member is set only by a constructor that has made a session.

* `CConnection.new`, `CConnection.delete`, `shut`, `access` : the operations.
* `Consistent`, `Kept` : names, sessions and reference counts agree, and nothing is left after
  `SAPI_Shut`.
* `Call.Careful` : every connection a call deletes has the `SessStatus` of its constructor path, and
  no descriptor of `s7_init` is `BAD_DESC`.
* `Inv.shut` : when `SAPI_Shut` leaves nothing.
-/

namespace Edps

namespace SapiS7

def BAD_DESC : UInt32 := 0xFFFFFFFF

def ConnQty : ℕ := 100

def SessQty : ℕ := 16

/-- A name, which fits `szConName` and `CPSessionName`. -/
structure Name where
  text : List UInt8
  noNul : ∀ c ∈ text, c ≠ 0
  short : text.length < 128
  deriving DecidableEq, Repr

/-- A session. -/
structure CPSession where
  ordNum : ℕ
  status : ℤ
  refCount : ℤ
  /-- `m_dwDecsCP` -/
  dwDecsCP : UInt32
  cpSessionName : Name
  deriving DecidableEq, Repr

/-- A connection, without what only its requests use. -/
structure CConnection where
  status : ℤ
  sessStatus : ℤ
  /-- `Session`, `none` where it was never set. -/
  session : Option ℕ
  szConName : Name
  deriving DecidableEq, Repr

/-- What a call meets: the memory of a new connection and the answers of the S7 library. -/
structure S7Answers where
  /-- `SessStatus` in the memory from `new` -/
  memory : ℤ
  /-- the return code of `s7_get_vfd`, and the number it leaves in `wNumb` -/
  vfdRet : ℤ
  wNumb : UInt16
  /-- `s7_last_iec_err_no()` -/
  iecErrNo : ℤ
  /-- the return code of `s7_init`, and the descriptor -/
  initRet : ℤ
  dwDecsCP : UInt32
  /-- the return code of `s7_get_cref` -/
  crefRet : ℤ
  /-- what `ReadData` or `WriteData` returns -/
  lRet : ℤ
  deriving DecidableEq, Repr

/-- `Con`, `Sess` and the sessions on the heap, with the descriptors that `s7_init` has opened and
`s7_shut` has closed. -/
structure Registry where
  /-- `Con[0..ActConnQty)` -/
  con : List CConnection
  /-- `Sess[0..ActSessQty)`, addresses -/
  sess : List ℕ
  heap : Heap CPSession
  opened : List UInt32
  closed : List UInt32
  deriving DecidableEq, Repr

/-! ### Sessions -/

/-- The constructor of a session, and the descriptors it has opened.  `OrdNum` is set later. -/
def CPSession.new (a : S7Answers) (pszCP : Name) : CPSession × List UInt32 :=
  if a.vfdRet ≠ S7_OK ∨ a.wNumb = 0 then (⟨0, a.iecErrNo + 1000, 0, BAD_DESC, pszCP⟩, [])
  else if a.initRet ≠ S7_OK then (⟨0, -1, 0, BAD_DESC, pszCP⟩, [])
  else (⟨0, 0, 0, a.dwDecsCP, pszCP⟩, [a.dwDecsCP])

/-- The destructor: the descriptors closed so far, and that of the session. -/
def CPSession.close (x : CPSession) (closed : List UInt32) : List UInt32 :=
  if x.dwDecsCP ≠ BAD_DESC then closed ++ [x.dwDecsCP] else closed

/-- `delete` of a session; `none` when there is none at the address. -/
def Registry.deleteSession (s : Registry) (p : ℕ) : Option Registry := do
  let x ← s.heap.get p
  return { s with heap := s.heap.delete p, closed := x.close s.closed }

/-- The rest of `Sess` moved up from `num`, which moves nothing when `num` is behind the end. -/
def removeSess (sess : List ℕ) (num : ℕ) : List ℕ :=
  if num < sess.length then sess.eraseIdx num else sess.dropLast

/-- The session of a CP in `Sess`. -/
def findSess (heap : Heap CPSession) (pszCP : Name) : List ℕ → Option (Option ℕ)
  | [] => some none
  | p :: sess => do
    let x ← heap.get p
    if x.cpSessionName = pszCP then return some p
    else findSess heap pszCP sess

/-! ### Connections -/

/-- The end of the constructor, with the session at `p`. -/
def attach (a : S7Answers) (p : ℕ) (sessStatus : ℤ) (conName : Name) (s : Registry) :
    Option (CConnection × Registry) := do
  let x ← s.heap.get p
  return (⟨if a.crefRet ≠ S7_OK then -300 else 0, sessStatus, some p, conName⟩,
    { s with heap := s.heap.store p { x with refCount := x.refCount + 1 } })

/-- The constructor of a connection. -/
def CConnection.new (a : S7Answers) (pszCP conName : Name) (s : Registry) :
    Option (CConnection × Registry) := do
  match ← findSess s.heap pszCP s.sess with
  -- `SessStatus` stays as it was in memory
  | some p => attach a p a.memory conName s
  | none =>
    if s.sess.length = SessQty then return (⟨-100, a.memory, none, conName⟩, s)
    else
      let (x, opened) := CPSession.new a pszCP
      let p := s.heap.length
      let s := { s with heap := s.heap.new x, opened := s.opened ++ opened }
      if x.status ≠ 0 then
        return (⟨-200, x.status, none, conName⟩, ← s.deleteSession p)
      else
        attach a p x.status conName { s with
          heap := s.heap.store p { x with ordNum := s.sess.length }
          sess := s.sess ++ [p] }

/-- The destructor; `none` when it goes through a pointer that was never set or is dangling. -/
def CConnection.delete (c : CConnection) (s : Registry) : Option Registry :=
  if c.sessStatus = 0 then do
    let p ← c.session
    let x ← s.heap.get p
    let x := { x with refCount := x.refCount - 1 }
    let s := { s with heap := s.heap.store p x }
    if x.refCount = 0 then
      let s ← s.deleteSession p
      return { s with sess := removeSess s.sess x.ordNum }
    else return s
  else return s

/-! ### Calls -/

/-- Whether the connection is in `Con`. -/
def findCon (heap : Heap CPSession) (bsCP bsConn : Name) : List CConnection → Option Bool
  | [] => some false
  | c :: con =>
    if c.szConName = bsConn then do
      let p ← c.session
      let x ← heap.get p
      if x.cpSessionName = bsCP then return true
      else findCon heap bsCP bsConn con
    else findCon heap bsCP bsConn con

/-- `SAPI_Shut` -/
def shut (s : Registry) : Option Registry := do
  let s ← s.con.foldlM (fun s c => c.delete s) s
  return { s with con := [] }

/-- What a call returns, and whether it has shut down. -/
structure Returned where
  ret : ℤ
  shut : Bool
  deriving DecidableEq, Repr

/-- The data transfer over the connection, and its end. -/
def transfer (a : S7Answers) (s : Registry) : Option (Registry × Returned) := do
  if a.lRet < 0 then return (← shut s, ⟨a.lRet, true⟩)
  else return (s, ⟨a.lRet, false⟩)

/-- A connection that was just made: a bad one is deleted. -/
def useNew (a : S7Answers) (c : CConnection) (s : Registry) : Option (Registry × Returned) := do
  if c.status ≠ 0 then return (← c.delete s, ⟨c.status, false⟩)
  else transfer a { s with con := s.con ++ [c] }

/-- `SAPI_read` and `SAPI_write`, which differ in the data transfer alone. -/
def access (a : S7Answers) (bsCP bsConn : Name) (s : Registry) :
    Option (Registry × Returned) := do
  if ← findCon s.heap bsCP bsConn s.con then transfer a s
  else if s.con.length = ConnQty then return (s, ⟨-99, false⟩)
  else
    let (c, s) ← CConnection.new a bsCP bsConn s
    useNew a c s

/-- The calls of the library. -/
inductive Call where
  /-- `SAPI_read` -/
  | read (bsCP bsConn : Name) (a : S7Answers)
  /-- `SAPI_write` -/
  | write (bsCP bsConn : Name) (a : S7Answers)
  /-- `SAPI_Shut` -/
  | shut
  deriving DecidableEq, Repr

/-- A call. -/
def Call.run : Call → Registry → Option (Registry × Returned)
  | .read bsCP bsConn a, s => access a bsCP bsConn s
  | .write bsCP bsConn a, s => access a bsCP bsConn s
  | .shut, s => do return (← SapiS7.shut s, ⟨0, true⟩)

/-- The library, one call a step; `none` once its behaviour is undefined. -/
def registry : Machine (Option Registry) Call (Option Returned) :=
  ⟨fun s c => ((s >>= c.run).map Prod.fst, (s >>= c.run).map Prod.snd)⟩

/-- The library as it is loaded. -/
def Registry.init : Registry := ⟨[], [], [], [], []⟩

/-! ### What a run should keep -/

/-- The connections that are attached to a session. -/
def CConnection.attachedTo (p : ℕ) (c : CConnection) : Bool := c.session = some p

/-- The name of the CP of a session. -/
def cpName (heap : Heap CPSession) (p : ℕ) : Option Name :=
  (heap.get p).map CPSession.cpSessionName

/-- The names a connection goes by: that of its CP and its own. -/
def CConnection.names (heap : Heap CPSession) (c : CConnection) : Option Name × Name :=
  (c.session >>= cpName heap, c.szConName)

/-- The names of the connections are distinct, `Sess` has distinct live sessions of distinct CPs,
and every session counts its connections. -/
structure Consistent (s : Registry) : Prop where
  names : (s.con.map (CConnection.names s.heap)).Nodup
  sessions : s.sess.Nodup
  live : ∀ p ∈ s.sess, (s.heap.get p).isSome
  cpNames : (s.sess.map (cpName s.heap)).Nodup
  refCount : ∀ p ∈ s.sess, ∀ x, s.heap.get p = some x →
    x.refCount = s.con.countP (CConnection.attachedTo p)

/-- Nothing is left, and every descriptor was closed as often as it was opened. -/
structure ShutDown (s : Registry) : Prop where
  con : s.con = []
  sess : s.sess = []
  closed : ∀ d, s.closed.count d = s.opened.count d

/-- A call leaves the registry consistent, and shut down where it has called `SAPI_Shut`. -/
def Good (r : Option (Registry × Returned)) : Prop :=
  ∃ s' ret, r = some (s', ret) ∧ Consistent s' ∧ (ret.shut = true → ShutDown s')

/-- A call on the registry, if its behaviour is still defined. -/
def Kept (s : Option Registry) (c : Call) : Prop := Good (s >>= c.run)

/-! ### When it does -/

/-- The connections can be deleted, and no descriptor is taken for a bad one. -/
structure Clean (s : Registry) : Prop where
  sessStatus : ∀ c ∈ s.con, c.sessStatus = 0
  opened : BAD_DESC ∉ s.opened

/-- The connection is in `Con`. -/
def Registry.HasCon (s : Registry) (bsCP bsConn : Name) : Prop :=
  (some bsCP, bsConn) ∈ s.con.map (CConnection.names s.heap)

/-- There is a session of the CP. -/
def Registry.HasSession (s : Registry) (pszCP : Name) : Prop :=
  some pszCP ∈ s.sess.map (cpName s.heap)

/-- The call makes a connection. -/
def Registry.Makes (s : Registry) (bsCP bsConn : Name) : Prop :=
  ¬ s.HasCon bsCP bsConn ∧ s.con.length ≠ ConnQty

/-- `s7_init` opens a descriptor, if it is called. -/
def S7Answers.Opens (a : S7Answers) : Prop :=
  a.vfdRet = S7_OK ∧ a.wNumb ≠ 0 ∧ a.initRet = S7_OK

/-- `s7_get_vfd` fails, and the error number makes it look well. -/
def S7Answers.Masked (a : S7Answers) : Prop :=
  (a.vfdRet ≠ S7_OK ∨ a.wNumb = 0) ∧ a.iecErrNo + 1000 = 0

/-- The connections a call deletes have the `SessStatus` of their constructor path. -/
structure CarefulAccess (s : Registry) (bsCP bsConn : Name) (a : S7Answers) : Prop where
  found : s.HasCon bsCP bsConn → a.lRet < 0 → Clean s
  /-- A connection that joins a session. -/
  joined : s.Makes bsCP bsConn → s.HasSession bsCP →
    (a.crefRet ≠ S7_OK → a.memory = 0) ∧
      (a.crefRet = S7_OK → a.lRet < 0 → a.memory = 0 ∧ Clean s)
  /-- A connection for which there can be no session. -/
  refused : s.Makes bsCP bsConn → ¬ s.HasSession bsCP → s.sess.length = SessQty → a.memory ≠ 0
  /-- A connection with a session of its own. -/
  created : s.Makes bsCP bsConn → ¬ s.HasSession bsCP → s.sess.length ≠ SessQty →
    a.crefRet = S7_OK → a.lRet < 0 →
      (a.Opens → a.dwDecsCP ≠ BAD_DESC) ∧ (a.Opens ∨ a.Masked → Clean s)

/-- The condition on a call. -/
def Call.Careful : Call → Registry → Prop
  | .read bsCP bsConn a, s => CarefulAccess s bsCP bsConn a
  | .write bsCP bsConn a, s => CarefulAccess s bsCP bsConn a
  | .shut, s => Clean s

/-! ### Descriptors -/

/-- Every descriptor that was opened has been closed, or belongs to a session; what is taken for a
bad one never is. -/
structure Descriptors (heap : Heap CPSession) (opened closed : List UInt32) : Prop where
  opened : ∀ d ≠ BAD_DESC,
    opened.count d = closed.count d + heap.live fun x => decide (x.dwDecsCP = d)
  bad : BAD_DESC ∉ closed

theorem deleteSession_eq {s : Registry} {p : ℕ} {x : CPSession} (hp : s.heap.get p = some x) :
    s.deleteSession p =
      some { s with heap := s.heap.delete p, closed := x.close s.closed } := by
  rw [Registry.deleteSession, hp]
  rfl

section Descriptors

variable {heap : Heap CPSession} {opened closed : List UInt32} {p : ℕ} {x y : CPSession}

/-- A session with other counts. -/
theorem Descriptors.store (h : Descriptors heap opened closed) (hp : heap.get p = some x)
    (hdesc : y.dwDecsCP = x.dwDecsCP) : Descriptors (heap.store p y) opened closed where
  opened d hd := by
    have hlive := Heap.live_store (a := y) (P := fun x => decide (x.dwDecsCP = d)) hp
    rw [hdesc] at hlive
    rw [h.opened d hd]
    omega
  bad := h.bad

theorem count_close (x : CPSession) (closed : List UInt32) {d : UInt32} (hd : d ≠ BAD_DESC) :
    (x.close closed).count d = closed.count d + (decide (x.dwDecsCP = d)).toNat := by
  unfold CPSession.close
  by_cases hx : x.dwDecsCP = d
  · have hne : x.dwDecsCP ≠ BAD_DESC := hx ▸ hd
    rw [if_pos hne, List.count_append, hx, List.count_singleton_self]
    simp
  · split_ifs <;> simp [hx]

theorem bad_not_mem_close (h : BAD_DESC ∉ closed) :
    BAD_DESC ∉ x.close closed := by
  unfold CPSession.close
  split_ifs with hx
  · rw [List.mem_append, List.mem_singleton, not_or]
    exact ⟨h, fun heq => hx heq.symm⟩
  · exact h

/-- A session that is deleted. -/
theorem Descriptors.delete (h : Descriptors heap opened closed) (hp : heap.get p = some x) :
    Descriptors (heap.delete p) opened (x.close closed) where
  opened d hd := by
    have hlive := Heap.live_delete (P := fun x => decide (x.dwDecsCP = d)) hp
    rw [h.opened d hd, count_close x closed hd]
    omega
  bad := bad_not_mem_close h.bad

/-- A session that is made, with what it has opened. -/
theorem Descriptors.new (h : Descriptors heap opened closed) {new : List UInt32}
    (hnew : (new = [] ∧ x.dwDecsCP = BAD_DESC) ∨ new = [x.dwDecsCP]) :
    Descriptors (heap.new x) (opened ++ new) closed where
  opened d hd := by
    rw [List.count_append, Heap.live_new, h.opened d hd]
    rcases hnew with ⟨rfl, hbad⟩ | rfl
    · simp [hbad, Ne.symm hd]
    · by_cases hx : x.dwDecsCP = d
      · simp [hx]
        omega
      · simp [hx]
  bad := h.bad

end Descriptors

/-- **What the constructor of a session leaves**: a good session with its descriptor, or one
without any, which looks good when the error number is masked. -/
theorem sessionNew_cases (a : S7Answers) (pszCP : Name) :
    (a.Opens ∧ CPSession.new a pszCP = (⟨0, 0, 0, a.dwDecsCP, pszCP⟩, [a.dwDecsCP])) ∨
      ¬ a.Opens ∧ ∃ status, (status = 0 ↔ a.Masked) ∧
        CPSession.new a pszCP = (⟨0, status, 0, BAD_DESC, pszCP⟩, []) := by
  unfold CPSession.new S7Answers.Opens S7Answers.Masked
  by_cases hvfd : a.vfdRet ≠ S7_OK ∨ a.wNumb = 0
  · refine .inr ⟨?_, _, ?_, if_pos hvfd⟩
    · rintro ⟨hret, hnumb, -⟩
      exact hvfd.elim (fun h => h hret) fun h => hnumb h
    · exact (and_iff_right hvfd).symm
  · rw [if_neg hvfd]
    obtain ⟨hret, hnumb⟩ := not_or.1 hvfd
    by_cases hinit : a.initRet = S7_OK
    · exact .inl ⟨⟨not_not.1 hret, hnumb, hinit⟩, if_neg (not_not.2 hinit)⟩
    · refine .inr ⟨fun h => hinit h.2.2, -1, ?_, if_pos hinit⟩
      exact iff_of_false (by decide) fun h => hvfd h.1

/-! ### Shutting down -/

theorem length_removeSess {sess : List ℕ} (h : sess ≠ []) (num : ℕ) :
    (removeSess sess num).length + 1 = sess.length := by
  have hpos := List.length_pos_of_ne_nil h
  unfold removeSess
  split_ifs with hnum
  · rw [List.length_eraseIdx_of_lt hnum]
    omega
  · rw [List.length_dropLast]
    omega

theorem removeSess_append (sess : List ℕ) (p : ℕ) :
    removeSess (sess ++ [p]) sess.length = sess := by
  rw [removeSess, if_pos (by simp), List.eraseIdx_append_of_length_le (Nat.le_refl _)]
  simp

/-- **What deleting a connection does**: nothing but to the session it is attached to, and nothing
at all when `SessStatus` is not zero. -/
theorem delete_cases {c : CConnection} {s : Registry} {p : ℕ} {x : CPSession}
    (hc : c.session = some p) (hp : s.heap.get p = some x) :
    (c.sessStatus ≠ 0 ∧ c.delete s = some s) ∨
      (c.sessStatus = 0 ∧ x.refCount ≠ 1 ∧ c.delete s =
        some { s with heap := s.heap.store p { x with refCount := x.refCount - 1 } }) ∨
      (c.sessStatus = 0 ∧ x.refCount = 1 ∧ c.delete s = some { s with
        heap := s.heap.delete p, closed := x.close s.closed
        sess := removeSess s.sess x.ordNum }) := by
  unfold CConnection.delete
  by_cases hstatus : c.sessStatus = 0
  · right
    simp only [if_pos hstatus, hc, hp, Option.bind_eq_bind, Option.bind_some]
    by_cases hone : x.refCount = 1
    · right
      refine ⟨hstatus, hone, ?_⟩
      rw [if_pos (by omega), deleteSession_eq (Heap.get_store_self hp)]
      simp only [Option.bind_some, Heap.delete_store]
      rfl
    · left
      refine ⟨hstatus, hone, ?_⟩
      rw [if_neg (by omega)]
      rfl
  · left
    exact ⟨hstatus, if_neg hstatus⟩

/-- A session with one reference less, which is none when it was the last. -/
def CPSession.dropped (x : CPSession) : Option CPSession :=
  if x.refCount = 1 then none else some { x with refCount := x.refCount - 1 }

/-- A reference to the session at `p` has been dropped. -/
structure Drops (s s₁ : Registry) (p : ℕ) (x : CPSession) : Prop where
  get : ∀ q, s₁.heap.get q = if q = p then x.dropped else s.heap.get q
  opened : s₁.opened = s.opened
  size : s.sess.length = s.heap.live (fun _ => true) →
    s₁.sess.length = s₁.heap.live fun _ => true
  descriptors : Descriptors s.heap s.opened s.closed → Descriptors s₁.heap s₁.opened s₁.closed

/-- Deleting a connection drops its reference, or nothing. -/
theorem delete_drops {c : CConnection} {s : Registry} {p : ℕ} {x : CPSession}
    (hc : c.session = some p) (hp : s.heap.get p = some x) :
    (c.sessStatus ≠ 0 ∧ c.delete s = some s) ∨
      (c.sessStatus = 0 ∧ ∃ s₁, c.delete s = some s₁ ∧ Drops s s₁ p x) := by
  rcases delete_cases hc hp with hkept | ⟨hstatus, hone, heq⟩ | ⟨hstatus, hone, heq⟩
  · exact .inl hkept
  · refine .inr ⟨hstatus, _, heq, ⟨fun q => ?_, rfl, fun hsize => ?_, fun h => h.store hp rfl⟩⟩
    · rw [CPSession.dropped, if_neg hone]
      split_ifs with hq
      · rw [hq]
        exact Heap.get_store_self hp
      · exact Heap.get_store_ne hq
    · have hlive := Heap.live_store (a := { x with refCount := x.refCount - 1 })
        (P := fun _ => true) hp
      simp only at hlive ⊢
      omega
  · refine .inr ⟨hstatus, _, heq, ⟨fun q => ?_, rfl, fun hsize => ?_, fun h => h.delete hp⟩⟩
    · rw [CPSession.dropped, if_pos hone]
      split_ifs with hq
      · rw [hq]
        exact Heap.get_delete_self
      · exact Heap.get_delete_ne hq
    · have hlive := Heap.live_delete (P := fun _ => true) hp
      have hne : s.sess ≠ [] := by
        rintro hnil
        rw [hnil] at hsize
        simp only [List.length_nil, Bool.toNat_true] at hsize hlive
        omega
      have hlength := length_removeSess hne x.ordNum
      simp only [Bool.toNat_true] at hlive ⊢
      omega

/-- The registry while the connections `cs` are still to be deleted: they are attached to
sessions, which count them, and perhaps more. -/
structure Closing (s : Registry) (cs : List CConnection) : Prop where
  attached : ∀ c ∈ cs, ∃ p x, c.session = some p ∧ s.heap.get p = some x
  refs : ∀ p x, s.heap.get p = some x →
    (cs.countP (CConnection.attachedTo p) : ℤ) ≤ x.refCount ∧ 0 < x.refCount
  size : s.sess.length = s.heap.live fun _ => true
  descriptors : Descriptors s.heap s.opened s.closed

/-- The sessions count the connections exactly. -/
def Exact (s : Registry) (cs : List CConnection) : Prop :=
  ∀ p x, s.heap.get p = some x → x.refCount = cs.countP (CConnection.attachedTo p)

theorem countP_attachedTo_cons {c : CConnection} {p : ℕ} (hc : c.session = some p) (q : ℕ)
    (cs : List CConnection) : (c :: cs).countP (CConnection.attachedTo q) =
      cs.countP (CConnection.attachedTo q) + if q = p then 1 else 0 := by
  rw [List.countP_cons]
  by_cases hq : q = p
  · simp [CConnection.attachedTo, hc, hq]
  · simp [CConnection.attachedTo, hc, hq, Ne.symm hq]

/-- Dropping a reference leaves the counts as exact as they were. -/
theorem Drops.exact_iff {s s₁ : Registry} {c : CConnection} {cs : List CConnection} {p : ℕ}
    {x : CPSession} (hdrops : Drops s s₁ p x) (hc : c.session = some p)
    (hp : s.heap.get p = some x)
    (hlast : x.refCount = 1 → cs.countP (CConnection.attachedTo p) = 0) :
    Exact s₁ cs ↔ Exact s (c :: cs) := by
  have hcount := countP_attachedTo_cons hc
  constructor
  · intro hexact q y hq
    rw [hcount]
    by_cases hqp : q = p
    · rw [hqp, hp, Option.some.injEq] at hq
      rw [hqp, ← hq, if_pos rfl]
      by_cases hone : x.refCount = 1
      · rw [hlast hone, hone]
        rfl
      · have hcounted := hexact p _
          (by rw [hdrops.get, if_pos rfl, CPSession.dropped, if_neg hone])
        simp only at hcounted
        push_cast
        omega
    · rw [if_neg hqp, Nat.add_zero]
      exact hexact q y (by rw [hdrops.get, if_neg hqp, hq])
  · intro hexact q y hq
    rw [hdrops.get, CPSession.dropped] at hq
    split_ifs at hq with hqp hone
    · cases hq
      have hcounted := hexact p x hp
      rw [hcount, if_pos rfl] at hcounted
      push_cast at hcounted
      rw [hqp]
      simp only
      omega
    · have hcounted := hexact q y hq
      rwa [hcount, if_neg hqp, Nat.add_zero] at hcounted

/-- **One connection.**  The counts stay exact when its reference is dropped. -/
theorem Closing.delete {s : Registry} {c : CConnection} {cs : List CConnection}
    (h : Closing s (c :: cs)) :
    ∃ s₁, c.delete s = some s₁ ∧ Closing s₁ cs ∧ s₁.opened = s.opened ∧
      (Exact s₁ cs ↔ Exact s (c :: cs) ∧ c.sessStatus = 0) := by
  obtain ⟨⟨p, x, hc, hp⟩, hattached⟩ := List.forall_mem_cons.1 h.attached
  have hcount := countP_attachedTo_cons hc
  obtain ⟨hle, hpos⟩ := h.refs p x hp
  rw [hcount, if_pos rfl] at hle
  push_cast at hle
  rcases delete_drops hc hp with ⟨hstatus, heq⟩ | ⟨hstatus, s₁, heq, hdrops⟩
  · -- the reference stays
    refine ⟨s, heq, ⟨hattached, fun q y hq => ?_, h.size, h.descriptors⟩, rfl,
      iff_of_false (fun hexact => ?_) fun h => hstatus h.2⟩
    · obtain ⟨hle, hpos⟩ := h.refs q y hq
      rw [hcount] at hle
      exact ⟨by push_cast at hle; split_ifs at hle <;> omega, hpos⟩
    · rw [hexact p x hp] at hle
      omega
  · -- a session that is deleted counts no other connection
    have hlast : x.refCount = 1 → cs.countP (CConnection.attachedTo p) = 0 := by
      intro hone
      omega
    refine ⟨s₁, heq, ⟨fun c' hc' => ?_, fun q y hq => ?_, hdrops.size h.size,
      hdrops.descriptors h.descriptors⟩, hdrops.opened, ?_⟩
    · obtain ⟨q, y, hq, hy⟩ := hattached c' hc'
      by_cases hqp : q = p
      · subst hqp
        have hone : x.refCount ≠ 1 := fun hone =>
          List.countP_eq_zero.1 (hlast hone) c' hc' (by simp [CConnection.attachedTo, hq])
        exact ⟨q, _, hq, by rw [hdrops.get, if_pos rfl, CPSession.dropped, if_neg hone]⟩
      · exact ⟨q, y, hq, by rw [hdrops.get, if_neg hqp, hy]⟩
    · rw [hdrops.get, CPSession.dropped] at hq
      split_ifs at hq with hqp hone
      · cases hq
        rw [hqp]
        exact ⟨by simp only; omega, by simp only; omega⟩
      · have hrefs := h.refs q y hq
        rwa [hcount, if_neg hqp, Nat.add_zero] at hrefs
    · rw [and_iff_left hstatus]
      exact hdrops.exact_iff hc hp hlast

/-- **The loop of `SAPI_Shut`.** -/
theorem Closing.foldlM {cs : List CConnection} {s : Registry} (h : Closing s cs) :
    ∃ s₁, cs.foldlM (fun s c => c.delete s) s = some s₁ ∧ Closing s₁ [] ∧ s₁.opened = s.opened ∧
      (Exact s₁ [] ↔ Exact s cs ∧ ∀ c ∈ cs, c.sessStatus = 0) := by
  induction cs generalizing s with
  | nil => exact ⟨s, rfl, h, rfl, by simp⟩
  | cons c cs ih =>
    obtain ⟨s₁, hdelete, hclosing, hopened, hexact⟩ := h.delete
    obtain ⟨s₂, hloop, hclosed, hopened', hexact'⟩ := ih hclosing
    refine ⟨s₂, ?_, hclosed, hopened'.trans hopened, ?_⟩
    · rw [List.foldlM_cons, hdelete]
      exact hloop
    · rw [hexact', hexact, List.forall_mem_cons, and_assoc]

/-- Connections and sessions agree. -/
structure Agrees (s : Registry) : Prop where
  attached : ∀ c ∈ s.con, ∃ p ∈ s.sess, c.session = some p
  names : (s.con.map (CConnection.names s.heap)).Nodup
  sessions : s.sess.Nodup
  live : ∀ p, p ∈ s.sess ↔ ∃ x, s.heap.get p = some x
  cpNames : (s.sess.map (cpName s.heap)).Nodup
  refCount : ∀ p x, s.heap.get p = some x →
    x.refCount = s.con.countP (CConnection.attachedTo p)
  size : s.sess.length = s.heap.live fun _ => true
  descriptors : Descriptors s.heap s.opened s.closed

/-- The registry between two calls, as long as nothing has gone wrong. -/
structure Inv (s : Registry) : Prop extends Agrees s where
  used : ∀ p x, s.heap.get p = some x → 0 < x.refCount

theorem Inv.consistent {s : Registry} (h : Inv s) : Consistent s where
  names := h.names
  sessions := h.sessions
  live p hp := Option.isSome_iff_exists.2 ((h.live p).1 hp)
  cpNames := h.cpNames
  refCount p _ x hx := h.refCount p x hx

theorem Inv.closing {s : Registry} (h : Inv s) : Closing s s.con where
  attached c hc := by
    obtain ⟨p, hp, hcp⟩ := h.attached c hc
    obtain ⟨x, hx⟩ := (h.live p).1 hp
    exact ⟨p, x, hcp, hx⟩
  refs p x hx := ⟨Int.le_of_eq (h.refCount p x hx).symm, h.used p x hx⟩
  size := h.size
  descriptors := h.descriptors

/-- Nothing is left, but perhaps descriptors. -/
theorem inv_of_empty {s : Registry} (hcon : s.con = []) (hsess : s.sess = [])
    (hnone : ∀ p x, s.heap.get p ≠ some x) (hdesc : Descriptors s.heap s.opened s.closed) :
    Inv s where
  attached := by simp [hcon]
  names := by simp [hcon]
  sessions := by simp [hsess]
  live p := by simp [hsess, hnone]
  cpNames := by simp [hsess]
  refCount p x hx := absurd hx (hnone p x)
  used p x hx := absurd hx (hnone p x)
  size := by
    rw [hsess, Heap.live_eq_zero.2 fun p x hx => absurd hx (hnone p x)]
    rfl
  descriptors := hdesc

theorem inv_init : Inv .init :=
  inv_of_empty rfl rfl (fun p x => by simp [Registry.init, Heap.get])
    ⟨fun d _ => rfl, by simp [Registry.init]⟩

/-- **`SAPI_Shut`** leaves nothing exactly when the registry is clean. -/
theorem Inv.shut {s : Registry} (h : Inv s) :
    ∃ s₁, shut s = some s₁ ∧ (ShutDown s₁ ↔ Clean s) ∧ (Clean s → Inv s₁) := by
  obtain ⟨s₁, hloop, hclosed, hopened, hexact⟩ := h.closing.foldlM
  have hstart : Exact s s.con := h.refCount
  -- a session that is left counts a connection that is gone
  have hnone : (∀ p x, s₁.heap.get p ≠ some x) ↔ ∀ c ∈ s.con, c.sessStatus = 0 := by
    rw [← (hexact.trans (and_iff_right hstart))]
    constructor
    · intro hnone p x hx
      exact absurd hx (hnone p x)
    · intro hzero p x hx
      have hpos := (hclosed.refs p x hx).2
      rw [hzero p x hx] at hpos
      exact absurd hpos (by simp)
  have hsess : s₁.sess = [] ↔ ∀ p x, s₁.heap.get p ≠ some x := by
    rw [← List.length_eq_zero_iff, hclosed.size, Heap.live_eq_zero]
    simp
  have hclean : ShutDown { s₁ with con := [] } ↔ Clean s := by
    constructor
    · rintro ⟨-, hempty, hcount⟩
      refine ⟨hnone.1 (hsess.1 hempty), fun hbad => ?_⟩
      rw [← hopened] at hbad
      have hcount' := hcount BAD_DESC
      rw [List.count_eq_zero_of_not_mem hclosed.descriptors.bad] at hcount'
      exact absurd (List.count_pos_iff.2 hbad) (by simp only at hcount'; omega)
    · rintro ⟨hstatus, hbad⟩
      refine ⟨rfl, hsess.2 (hnone.2 hstatus), fun d => ?_⟩
      by_cases hd : d = BAD_DESC
      · subst hd
        rw [← hopened] at hbad
        rw [List.count_eq_zero_of_not_mem hclosed.descriptors.bad,
          List.count_eq_zero_of_not_mem hbad]
      · have hlive := Heap.live_eq_zero (P := fun x : CPSession => decide (x.dwDecsCP = d)).2
          fun p x hx => absurd hx (hnone.2 hstatus p x)
        rw [hclosed.descriptors.opened d hd, hlive, Nat.add_zero]
  refine ⟨{ s₁ with con := [] }, by rw [SapiS7.shut, hloop]; rfl, hclean, fun hc => ?_⟩
  have hgone := hnone.2 hc.sessStatus
  exact inv_of_empty rfl (hsess.2 hgone) hgone ⟨hclosed.descriptors.opened, hclosed.descriptors.bad⟩

end SapiS7

end Edps
