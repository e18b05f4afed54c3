import Edps.SapiS7.Registry

/-!
# Runs of the registry

A run of calls keeps connections, sessions and reference counts in agreement as long as the
connections it deletes have the `SessStatus` of their constructor paths.  A connection that joins a
session has what was in memory in that place, so there are other runs (`not_kept_sharedSession`).

* `findSess_eq`, `findCon_eq` : what the two searches find.
* `Inv.join`, `Inv.create`, `Inv.refuse`, `Inv.discard` : the ways through the constructor, each
  with the condition under which all goes well.
* `kept_iff` : the runs that keep everything.
-/

namespace Edps

namespace SapiS7

/-! ### Looking for sessions and connections -/

/-- The session of a CP is found. -/
theorem findSess_eq {heap : Heap CPSession} {sess : List ℕ} (pszCP : Name)
    (hlive : ∀ p ∈ sess, ∃ x, heap.get p = some x) :
    (findSess heap pszCP sess = some none ∧
        some pszCP ∉ sess.map (cpName heap)) ∨
      ∃ p ∈ sess, findSess heap pszCP sess = some (some p) ∧ cpName heap p = some pszCP := by
  induction sess with
  | nil => exact .inl ⟨rfl, by simp⟩
  | cons p sess ih =>
    obtain ⟨⟨x, hx⟩, hrest⟩ := List.forall_mem_cons.1 hlive
    rw [findSess, hx, Option.bind_eq_bind, Option.bind_some]
    by_cases hname : x.cpSessionName = pszCP
    · rw [if_pos hname]
      exact .inr ⟨p, List.mem_cons_self, rfl, by rw [cpName, hx, Option.map_some, hname]⟩
    · rw [if_neg hname]
      rcases ih hrest with ⟨hfind, hno⟩ | ⟨q, hq, hfind, hcp⟩
      · refine .inl ⟨hfind, ?_⟩
        rw [List.map_cons, List.mem_cons, not_or, cpName, hx, Option.map_some, Option.some.injEq]
        exact ⟨fun heq => hname heq.symm, hno⟩
      · exact .inr ⟨q, List.mem_cons_of_mem _ hq, hfind, hcp⟩

/-- A connection is found by its names. -/
theorem findCon_eq {heap : Heap CPSession} {con : List CConnection} (bsCP bsConn : Name)
    (hlive : ∀ c ∈ con, ∃ p x, c.session = some p ∧ heap.get p = some x) :
    findCon heap bsCP bsConn con =
      some (decide ((some bsCP, bsConn) ∈ con.map (CConnection.names heap))) := by
  induction con with
  | nil => simp [findCon]
  | cons c con ih =>
    obtain ⟨⟨p, x, hc, hx⟩, hrest⟩ := List.forall_mem_cons.1 hlive
    have hnames : c.names heap = (some x.cpSessionName, c.szConName) := by
      simp [CConnection.names, cpName, hc, hx]
    rw [findCon, ih hrest, hc, List.map_cons, hnames]
    simp only [Option.bind_eq_bind, Option.bind_some, hx, List.mem_cons, Prod.mk.injEq,
      Option.some.injEq]
    by_cases hconn : c.szConName = bsConn
    · by_cases hcp : x.cpSessionName = bsCP
      · simp [hconn, hcp]
      · simp [hconn, hcp, Ne.symm hcp]
    · simp [hconn, Ne.symm hconn]

/-! ### New connections -/

/-- The names depend on the sessions by theirs only. -/
theorem names_congr {heap heap' : Heap CPSession} (h : cpName heap = cpName heap') :
    CConnection.names heap = CConnection.names heap' := by
  funext c
  rw [CConnection.names, CConnection.names, h]

theorem cpName_store {heap : Heap CPSession} {p : ℕ} {x y : CPSession}
    (hp : heap.get p = some x) (hname : y.cpSessionName = x.cpSessionName) :
    cpName (heap.store p y) = cpName heap := by
  funext q
  by_cases hq : q = p
  · rw [cpName, cpName, hq, Heap.get_store_self hp, hp, Option.map_some, Option.map_some, hname]
  · rw [cpName, cpName, Heap.get_store_ne hq]

/-- **A connection is attached** to the session of its CP. -/
theorem Agrees.attach {s : Registry} (h : Agrees s) {p : ℕ} {x : CPSession} {bsCP bsConn : Name}
    (hp : s.heap.get p = some x) (hcp : x.cpSessionName = bsCP) (hnew : ¬ s.HasCon bsCP bsConn)
    (hused : ∀ q y, q ≠ p → s.heap.get q = some y → 0 < y.refCount) (status sessStatus : ℤ) :
    Inv { s with
      heap := s.heap.store p { x with refCount := x.refCount + 1 }
      con := s.con ++ [⟨status, sessStatus, some p, bsConn⟩] } := by
  set y : CPSession := { x with refCount := x.refCount + 1 } with hy
  set c : CConnection := ⟨status, sessStatus, some p, bsConn⟩ with hc
  have hself : (s.heap.store p y).get p = some y := Heap.get_store_self hp
  have hother {q : ℕ} (hq : q ≠ p) : (s.heap.store p y).get q = s.heap.get q :=
    Heap.get_store_ne hq
  have hname : cpName (s.heap.store p y) = cpName s.heap := cpName_store hp rfl
  have hnames : CConnection.names (s.heap.store p y) = CConnection.names s.heap :=
    names_congr hname
  have hcnames : c.names s.heap = (some bsCP, bsConn) := by
    simp [CConnection.names, cpName, hc, hp, hcp]
  have hcount (q : ℕ) : (s.con ++ [c]).countP (CConnection.attachedTo q) =
      s.con.countP (CConnection.attachedTo q) + if q = p then 1 else 0 := by
    rw [List.countP_append, countP_attachedTo_cons (c := c) rfl]
    simp
  have hpos : 0 ≤ x.refCount := by
    rw [h.refCount p x hp]
    exact Int.natCast_nonneg _
  refine ⟨⟨fun c' hc' => ?_, ?_, h.sessions, fun q => ?_, ?_, fun q z hq => ?_, ?_,
    h.descriptors.store hp rfl⟩, fun q z hq => ?_⟩
  · rcases List.mem_append.1 hc' with hc' | hc'
    · exact h.attached c' hc'
    · rw [List.mem_singleton.1 hc']
      exact ⟨p, (h.live p).2 ⟨x, hp⟩, rfl⟩
  · simp only [hnames]
    rw [List.map_append, List.map_singleton, hcnames]
    refine List.nodup_append.2 ⟨h.names, by simp, fun a ha b hb => ?_⟩
    rw [List.mem_singleton.1 hb]
    rintro rfl
    exact hnew ha
  · rw [h.live q]
    by_cases hq : q = p
    · simp [hq, hself, hp]
    · simp [hother hq]
  · simp only [hname]
    exact h.cpNames
  · rw [hcount]
    by_cases hqp : q = p
    · rw [hqp, hself, Option.some.injEq] at hq
      rw [← hq, if_pos hqp, hqp]
      push_cast
      rw [← h.refCount p x hp]
    · rw [if_neg hqp]
      exact h.refCount q z ((hother hqp).symm.trans hq)
  · have hlive := Heap.live_store (a := y) (P := fun _ => true) hp
    rw [h.size]
    simpa using hlive.symm
  · by_cases hqp : q = p
    · rw [hqp, hself, Option.some.injEq] at hq
      rw [← hq]
      simp only [hy]
      omega
    · exact hused q z hqp ((hother hqp).symm.trans hq)

/-- The sessions there are have other addresses than the next. -/
theorem Agrees.ne_length {s : Registry} (h : Agrees s) {p : ℕ} (hp : p ∈ s.sess) :
    p ≠ s.heap.length := by
  obtain ⟨y, hy⟩ := (h.live p).1 hp
  exact Nat.ne_of_lt (Heap.lt_of_get hy)

theorem Agrees.names_new {s : Registry} (h : Agrees s) {x : CPSession} :
    s.con.map (CConnection.names (s.heap.new x)) = s.con.map (CConnection.names s.heap) := by
  refine List.map_congr_left fun c hc => ?_
  obtain ⟨p, hp, hcp⟩ := h.attached c hc
  simp only [CConnection.names, hcp, cpName, Option.bind_eq_bind, Option.bind_some,
    Heap.get_new_ne (h.ne_length hp)]

/-- The registry with a session more. -/
def Registry.withSession (s : Registry) (x : CPSession) (new : List UInt32) : Registry :=
  { s with
    heap := s.heap.new x
    sess := s.sess ++ [s.heap.length]
    opened := s.opened ++ new }

/-- **A session is made** for a CP that has none. -/
theorem Inv.newSession {s : Registry} (h : Inv s) {x : CPSession} {new : List UInt32}
    (hzero : x.refCount = 0) (hcp : ¬ s.HasSession x.cpSessionName)
    (hnew : (new = [] ∧ x.dwDecsCP = BAD_DESC) ∨ new = [x.dwDecsCP]) :
    Agrees (s.withSession x new) := by
  have hself : (s.heap.new x).get s.heap.length = some x := Heap.get_new_self
  have hother {q : ℕ} (hq : q ≠ s.heap.length) : (s.heap.new x).get q = s.heap.get q :=
    Heap.get_new_ne hq
  have hlt {p : ℕ} (hp : p ∈ s.sess) : p ≠ s.heap.length := h.ne_length hp
  have hname : s.sess.map (cpName (s.heap.new x)) = s.sess.map (cpName s.heap) :=
    List.map_congr_left fun p hp => by rw [cpName, cpName, hother (hlt hp)]
  unfold Registry.withSession
  refine ⟨fun c hc => ?_, ?_, ?_, fun q => ?_, ?_, fun q y hq => ?_, ?_, h.descriptors.new hnew⟩
  · obtain ⟨p, hp, hcp⟩ := h.attached c hc
    exact ⟨p, List.mem_append_left _ hp, hcp⟩
  · simp only [h.names_new]
    exact h.names
  · exact List.nodup_append.2 ⟨h.sessions, by simp, fun a ha b hb => by
      rw [List.mem_singleton.1 hb]; exact hlt ha⟩
  · rw [List.mem_append, List.mem_singleton, h.live q]
    by_cases hq : q = s.heap.length
    · simp [hq, hself]
    · simp [hq, hother hq]
  · rw [List.map_append, hname, List.map_singleton]
    refine List.nodup_append.2 ⟨h.cpNames, by simp, fun a ha b hb => ?_⟩
    rw [List.mem_singleton.1 hb, cpName, hself]
    rintro rfl
    exact hcp ha
  · by_cases hqp : q = s.heap.length
    · rw [hqp, hself, Option.some.injEq] at hq
      rw [← hq, hzero, hqp, List.countP_eq_zero.2]
      · rfl
      · intro c hc
        obtain ⟨p, hp, hcp⟩ := h.attached c hc
        simpa [CConnection.attachedTo, hcp] using hlt hp
    · exact h.refCount q y ((hother hqp).symm.trans hq)
  · rw [List.length_append, h.size, Heap.live_new]
    rfl

/-- A session that was made and deleted leaves no more than its address. -/
theorem Inv.deleted {s : Registry} (h : Inv s) {opened closed : List UInt32}
    (hdesc : Descriptors (s.heap ++ [none]) opened closed) :
    Inv { s with heap := s.heap ++ [none], opened, closed } := by
  have hget : Heap.get (s.heap ++ [none]) = s.heap.get := funext (Heap.get_append_none s.heap)
  have hname : cpName (s.heap ++ [none]) = cpName s.heap := by
    funext p
    rw [cpName, cpName, hget]
  have hnames : CConnection.names (s.heap ++ [none]) = CConnection.names s.heap :=
    names_congr hname
  refine ⟨⟨h.attached, ?_, h.sessions, ?_, ?_, ?_, ?_, hdesc⟩, ?_⟩
  · simp only [hnames]
    exact h.names
  · simp only [hget]
    exact h.live
  · simp only [hname]
    exact h.cpNames
  · simp only [hget]
    exact h.refCount
  · rw [Heap.live_append_none]
    exact h.size
  · simp only [hget]
    exact h.used

/-! ### Calls -/

/-- What a call leaves is good exactly when the condition is met, and then the run can go on. -/
structure Decides (r : Option (Registry × Returned)) (P : Prop) : Prop where
  good : Good r ↔ P
  inv : P → ∃ s' ret, r = some (s', ret) ∧ Inv s'

theorem Decides.congr {r : Option (Registry × Returned)} {P Q : Prop} (h : Decides r P)
    (hPQ : P ↔ Q) : Decides r Q := ⟨h.good.trans hPQ, fun hq => h.inv (hPQ.2 hq)⟩

theorem Inv.returns {s : Registry} (h : Inv s) (n : ℤ) : Decides (some (s, ⟨n, false⟩)) True :=
  ⟨iff_of_true ⟨s, _, rfl, h.consistent, fun hshut => by cases hshut⟩ trivial,
    fun _ => ⟨s, _, rfl, h⟩⟩

theorem decides_none : Decides none False :=
  ⟨iff_of_false (fun ⟨_, _, h, _⟩ => by cases h) id, False.elim⟩

/-- A registry that has been shut down is consistent. -/
theorem ShutDown.consistent {s : Registry} (h : ShutDown s) : Consistent s where
  names := by simp [h.con]
  sessions := by simp [h.sess]
  live := by simp [h.sess]
  cpNames := by simp [h.sess]
  refCount := by simp [h.sess]

theorem Inv.decides_shut {s : Registry} (h : Inv s) (n : ℤ) :
    Decides ((SapiS7.shut s).map fun s' => (s', ⟨n, true⟩)) (Clean s) := by
  obtain ⟨s₁, hshut, hclean, hinv⟩ := h.shut
  rw [hshut, Option.map_some]
  refine ⟨?_, fun hc => ⟨s₁, _, rfl, hinv hc⟩⟩
  rw [← hclean]
  constructor
  · rintro ⟨s', ret, heq, -, hdown⟩
    cases heq
    exact hdown rfl
  · intro hdown
    exact ⟨s₁, _, rfl, hdown.consistent, fun _ => hdown⟩

theorem Inv.transfer {s : Registry} (h : Inv s) (a : S7Answers) :
    Decides (SapiS7.transfer a s) (a.lRet < 0 → Clean s) := by
  unfold SapiS7.transfer
  by_cases hret : a.lRet < 0
  · rw [if_pos hret, forall_prop_of_true hret]
    have hdecides := h.decides_shut a.lRet
    cases hshut : SapiS7.shut s with
    | none => rwa [hshut] at hdecides
    | some s' => rwa [hshut] at hdecides
  · rw [if_neg hret]
    exact (h.returns a.lRet).congr (iff_of_true trivial fun hneg => absurd hneg hret)

theorem attach_eq (a : S7Answers) {p : ℕ} {x : CPSession} {s : Registry}
    (hp : s.heap.get p = some x) (sessStatus : ℤ) (conName : Name) :
    attach a p sessStatus conName s =
      some (⟨if a.crefRet ≠ S7_OK then -300 else 0, sessStatus, some p, conName⟩,
        { s with heap := s.heap.store p { x with refCount := x.refCount + 1 } }) := by
  rw [attach, hp]
  rfl

/-- A registry with one connection more. -/
theorem clean_append (s : Registry) (c : CConnection) (sess : List ℕ) (heap : Heap CPSession)
    (new closed : List UInt32) :
    Clean ⟨s.con ++ [c], sess, heap, s.opened ++ new, closed⟩ ↔
      Clean s ∧ c.sessStatus = 0 ∧ BAD_DESC ∉ new := by
  constructor
  · rintro ⟨hstatus, hopened⟩
    simp only [List.forall_mem_append, List.forall_mem_singleton] at hstatus
    simp only [List.mem_append, not_or] at hopened
    exact ⟨⟨hstatus.1, hopened.1⟩, hstatus.2, hopened.2⟩
  · rintro ⟨⟨hstatus, hopened⟩, hc, hnew⟩
    refine ⟨?_, ?_⟩
    · simp only [List.forall_mem_append, List.forall_mem_singleton]
      exact ⟨hstatus, hc⟩
    · simp only [List.mem_append, not_or]
      exact ⟨hopened, hnew⟩

section New

variable {s : Registry} {x : CPSession} {bsCP bsConn : Name}

/-- **A connection joins a session.** -/
theorem Inv.join (h : Inv s) (a : S7Answers) {p : ℕ} (hp : s.heap.get p = some x)
    (hcp : x.cpSessionName = bsCP) (hnew : ¬ s.HasCon bsCP bsConn) :
    Decides (attach a p a.memory bsConn s >>= fun r => useNew a r.1 r.2)
      ((a.crefRet ≠ S7_OK → a.memory = 0) ∧
        (a.crefRet = S7_OK → a.lRet < 0 → a.memory = 0 ∧ Clean s)) := by
  rw [attach_eq a hp, Option.bind_eq_bind, Option.bind_some]
  set y : CPSession := { x with refCount := x.refCount + 1 } with hy
  by_cases hcref : a.crefRet = S7_OK
  · -- the connection is there, and is used
    rw [if_neg (by simpa using hcref), useNew, if_neg (by simp)]
    have hinv := h.toAgrees.attach hp hcp hnew (fun q z _ hq => h.used q z hq) 0 a.memory
    refine (hinv.transfer a).congr ?_
    have hclean := clean_append s ⟨0, a.memory, some p, bsConn⟩ s.sess (s.heap.store p y) []
      s.closed
    rw [List.append_nil] at hclean
    rw [hclean]
    simp [hcref, and_comm]
  · -- the connection is deleted
    rw [if_pos (by simpa using hcref), useNew, if_pos (by simp)]
    rw [and_iff_left fun hok => absurd hok hcref, forall_prop_of_true hcref]
    set c : CConnection := ⟨-300, a.memory, some p, bsConn⟩ with hc
    have hself : (s.heap.store p y).get p = some y := Heap.get_store_self hp
    have hused := h.used p x hp
    rcases delete_cases (c := c) (s := { s with heap := s.heap.store p y }) (p := p) rfl hself with
      ⟨hmemory, heq⟩ | ⟨hmemory, hone, heq⟩ | ⟨hmemory, hone, heq⟩
    · -- its reference stays, and is counted
      rw [heq]
      refine ⟨iff_of_false ?_ hmemory, fun hzero => absurd hzero hmemory⟩
      rintro ⟨s', ret, hret, hcons, -⟩
      cases hret
      have hcount := hcons.refCount p ((h.live p).2 ⟨x, hp⟩) y hself
      have hcount' := h.refCount p x hp
      simp only [hy] at hcount
      omega
    · -- everything is as before
      have hx : ({ y with refCount := y.refCount - 1 } : CPSession) = x := by
        simp only [hy, Int.add_sub_cancel]
      simp only [hx, Heap.store_store, Heap.store_get hp] at heq
      rw [heq]
      exact (h.returns (-300)).congr (iff_of_true trivial hmemory)
    · simp only [hy] at hone
      omega

/-- **A connection with a session of its own.** -/
theorem Inv.create (h : Inv s) (a : S7Answers) {new : List UInt32} (hzero : x.refCount = 0)
    (hord : x.ordNum = s.sess.length) (hcp : x.cpSessionName = bsCP)
    (hnone : ¬ s.HasSession bsCP) (hcon : ¬ s.HasCon bsCP bsConn)
    (hnew : (new = [] ∧ x.dwDecsCP = BAD_DESC) ∨ new = [x.dwDecsCP]) :
    Decides (attach a s.heap.length 0 bsConn (s.withSession x new) >>= fun r => useNew a r.1 r.2)
      (a.crefRet = S7_OK → a.lRet < 0 → BAD_DESC ∉ new ∧ Clean s) := by
  have hself : (s.withSession x new).heap.get s.heap.length = some x := Heap.get_new_self
  have hagrees := h.newSession hzero (hcp ▸ hnone) hnew
  rw [attach_eq a hself, Option.bind_eq_bind, Option.bind_some]
  set y : CPSession := { x with refCount := x.refCount + 1 } with hy
  by_cases hcref : a.crefRet = S7_OK
  · rw [if_neg (by simpa using hcref), useNew, if_neg (by simp)]
    have hcon' : ¬ (s.withSession x new).HasCon bsCP bsConn := by
      show ¬ (some bsCP, bsConn) ∈ s.con.map (CConnection.names (s.heap.new x))
      rw [h.names_new]
      exact hcon
    have hinv := hagrees.attach hself hcp hcon' (fun q z hq hz =>
      h.used q z ((Heap.get_new_ne hq).symm.trans hz)) 0 0
    refine (hinv.transfer a).congr ?_
    have hclean := clean_append s ⟨0, 0, some s.heap.length, bsConn⟩ (s.sess ++ [s.heap.length])
      ((s.heap.new x).store s.heap.length y) new s.closed
    refine (imp_congr_right fun _ => hclean).trans ?_
    simp [hcref, and_comm]
  · rw [if_pos (by simpa using hcref), useNew, if_pos (by simp)]
    set c : CConnection := ⟨-300, 0, some s.heap.length, bsConn⟩ with hc
    set s₁ : Registry := { s.withSession x new with
      heap := (s.withSession x new).heap.store s.heap.length y } with hs₁
    have hself' : s₁.heap.get s.heap.length = some y := Heap.get_store_self hself
    rcases delete_cases (c := c) (s := s₁) rfl hself' with
      ⟨hstatus, -⟩ | ⟨-, hone, -⟩ | ⟨-, -, heq⟩
    · exact absurd rfl hstatus
    · exact absurd (by simp [hy, hzero]) hone
    · -- the session is deleted with it
      have hdesc := ((h.descriptors.new hnew).store hself (y := y) rfl).delete
        (Heap.get_store_self hself)
      have hsess : removeSess (s.sess ++ [s.heap.length]) y.ordNum = s.sess := by
        simp only [hy, hord]
        exact removeSess_append _ _
      have hheap : ((s.heap.new x).store s.heap.length y).delete s.heap.length =
          s.heap ++ [none] := by
        rw [Heap.delete_store, Heap.delete_new]
      have hdelete : c.delete s₁ =
          some ⟨s.con, s.sess, s.heap ++ [none], s.opened ++ new, y.close s.closed⟩ := by
        rw [heq]
        simp only [hs₁, Registry.withSession, hsess, hheap]
      rw [hheap] at hdesc
      simp only [hdelete, Option.bind_eq_bind, Option.bind_some]
      exact ((h.deleted hdesc).returns (-300)).congr
        (iff_of_true trivial fun hok => absurd hok hcref)

/-- **A connection for which there can be no session** is deleted, and its destructor must not look
for one. -/
theorem Inv.refuse (h : Inv s) (a : S7Answers) :
    Decides (useNew a ⟨-100, a.memory, none, bsConn⟩ s) (a.memory ≠ 0) := by
  rw [useNew, if_pos (by simp), CConnection.delete]
  by_cases hmemory : a.memory = 0
  · rw [if_pos hmemory]
    exact decides_none.congr (iff_of_false id fun hne => hne hmemory)
  · rw [if_neg hmemory]
    exact (h.returns (-100)).congr (iff_of_true trivial hmemory)

/-- **A connection whose session is bad** is deleted after it. -/
theorem Inv.discard (h : Inv s) (a : S7Answers) {status : ℤ} (hstatus : status ≠ 0)
    (hbad : x.dwDecsCP = BAD_DESC) :
    Decides ((Registry.deleteSession
        { s with heap := s.heap.new x, opened := s.opened ++ [] } s.heap.length).map
      (fun s₁ => ((⟨-200, status, none, bsConn⟩ : CConnection), s₁)) >>= fun r =>
      useNew a r.1 r.2) True := by
  rw [deleteSession_eq Heap.get_new_self, Option.map_some, Option.bind_eq_bind, Option.bind_some,
    useNew, if_pos (by simp), CConnection.delete, if_neg hstatus]
  have hdesc := (h.descriptors.new (.inl ⟨rfl, hbad⟩)).delete Heap.get_new_self
  simp only [Heap.delete_new] at hdesc ⊢
  exact (h.deleted hdesc).returns (-200)

/-- The constructor, where there is a session of the CP. -/
theorem connectionNew_found (a : S7Answers) {p : ℕ}
    (hfind : findSess s.heap bsCP s.sess = some (some p)) :
    CConnection.new a bsCP bsConn s = attach a p a.memory bsConn s := by
  rw [CConnection.new, hfind]
  rfl

section Missing

variable {a : S7Answers} {new : List UInt32} (hfind : findSess s.heap bsCP s.sess = some none)

include hfind

/-- The constructor, where there can be no session of the CP. -/
theorem connectionNew_full (hfull : s.sess.length = SessQty) :
    CConnection.new a bsCP bsConn s = some (⟨-100, a.memory, none, bsConn⟩, s) := by
  rw [CConnection.new, hfind]
  exact if_pos hfull

/-- The constructor, where the session that is made for it is bad. -/
theorem connectionNew_bad (hroom : s.sess.length ≠ SessQty)
    (hx : CPSession.new a bsCP = (x, new)) (hstatus : x.status ≠ 0) :
    CConnection.new a bsCP bsConn s = (Registry.deleteSession
        { s with heap := s.heap.new x, opened := s.opened ++ new } s.heap.length).map
      fun s₁ => (⟨-200, x.status, none, bsConn⟩, s₁) := by
  rw [CConnection.new, hfind, hx]
  simp only [Option.bind_eq_bind, Option.bind_some, if_neg hroom, if_pos hstatus]
  rw [Option.map_eq_bind]
  rfl

/-- The constructor, where a session is made for it. -/
theorem connectionNew_good (hroom : s.sess.length ≠ SessQty)
    (hx : CPSession.new a bsCP = (x, new)) (hstatus : x.status = 0) :
    CConnection.new a bsCP bsConn s = attach a s.heap.length 0 bsConn
      (s.withSession { x with ordNum := s.sess.length } new) := by
  rw [CConnection.new, hfind, hx]
  simp only [Option.bind_eq_bind, Option.bind_some, if_neg hroom, if_neg (not_not.2 hstatus)]
  rw [hstatus, Heap.store_new]
  rfl

end Missing

/-- **A connection that is made.** -/
theorem Inv.made (h : Inv s) (a : S7Answers) (hmakes : s.Makes bsCP bsConn) :
    Decides (CConnection.new a bsCP bsConn s >>= fun r => useNew a r.1 r.2)
      (CarefulAccess s bsCP bsConn a) := by
  have hlive : ∀ p ∈ s.sess, ∃ x, s.heap.get p = some x := fun p hp => (h.live p).1 hp
  rcases findSess_eq bsCP hlive with ⟨hfind, hnone⟩ | ⟨p, hp, hfind, hname⟩
  · -- there is no session of the CP
    have hsession : ¬ s.HasSession bsCP := hnone
    by_cases hfull : s.sess.length = SessQty
    · rw [connectionNew_full hfind hfull]
      exact (h.refuse a).congr ⟨fun hmemory => ⟨fun hcon => absurd hcon hmakes.1,
        fun _ hyes => absurd hyes hsession, fun _ _ _ => hmemory,
        fun _ _ hroom => absurd hfull hroom⟩, fun hc => hc.refused hmakes hsession hfull⟩
    · have hcareful : (a.crefRet = S7_OK → a.lRet < 0 →
          (a.Opens → a.dwDecsCP ≠ BAD_DESC) ∧ (a.Opens ∨ a.Masked → Clean s)) ↔
            CarefulAccess s bsCP bsConn a :=
        ⟨fun hc => ⟨fun hcon => absurd hcon hmakes.1, fun _ hyes => absurd hyes hsession,
          fun _ _ h => absurd h hfull, fun _ _ _ => hc⟩, fun hc => hc.created hmakes hsession hfull⟩
      rcases sessionNew_cases a bsCP with ⟨hopens, hx⟩ | ⟨hopens, status, hmasked, hx⟩
      · rw [connectionNew_good hfind hfull hx rfl]
        refine ((h.create a rfl rfl rfl hsession hmakes.1 (.inr rfl)).congr ?_).congr hcareful
        simp [hopens, eq_comm]
      · by_cases hstatus : status = 0
        · rw [connectionNew_good hfind hfull hx hstatus]
          refine ((h.create a rfl rfl rfl hsession hmakes.1 (.inl ⟨rfl, rfl⟩)).congr ?_).congr
            hcareful
          simp [hopens, hmasked.1 hstatus]
        · rw [connectionNew_bad hfind hfull hx hstatus]
          have hnot : ¬ a.Masked := fun h => hstatus (hmasked.2 h)
          refine ((h.discard a hstatus rfl).congr ?_).congr hcareful
          simp [hopens, hnot]
  · -- the connection joins it
    rw [connectionNew_found a hfind]
    have hsession : s.HasSession bsCP := List.mem_map.2 ⟨p, hp, hname⟩
    obtain ⟨y, hy⟩ := hlive p hp
    have hcp : y.cpSessionName = bsCP := by
      rwa [cpName, hy, Option.map_some, Option.some.injEq] at hname
    exact (h.join a hy hcp hmakes.1).congr ⟨fun hc => ⟨fun hcon => absurd hcon hmakes.1,
      fun _ _ => hc, fun _ hno => absurd hsession hno, fun _ hno => absurd hsession hno⟩,
      fun hc => hc.joined hmakes hsession⟩

/-- **`SAPI_read` and `SAPI_write`.** -/
theorem Inv.access (h : Inv s) (a : S7Answers) :
    Decides (SapiS7.access a bsCP bsConn s) (CarefulAccess s bsCP bsConn a) := by
  unfold SapiS7.access
  rw [findCon_eq bsCP bsConn h.closing.attached, Option.bind_eq_bind, Option.bind_some]
  by_cases hcon : s.HasCon bsCP bsConn
  · -- the connection is there
    have hno (hmakes : s.Makes bsCP bsConn) : False := hmakes.1 hcon
    have hmem : (some bsCP, bsConn) ∈ s.con.map (CConnection.names s.heap) := hcon
    rw [if_pos (decide_eq_true hmem)]
    exact (h.transfer a).congr ⟨fun hret => ⟨fun _ => hret, fun hmakes => (hno hmakes).elim,
      fun hmakes => (hno hmakes).elim, fun hmakes => (hno hmakes).elim⟩, fun hc => hc.found hcon⟩
  · rw [if_neg (by simpa [Registry.HasCon] using hcon)]
    by_cases hfull : s.con.length = ConnQty
    · have hno (hmakes : s.Makes bsCP bsConn) : False := hmakes.2 hfull
      rw [if_pos hfull]
      exact (h.returns (-99)).congr (iff_of_true trivial ⟨fun h => absurd h hcon,
        fun hmakes => (hno hmakes).elim, fun hmakes => (hno hmakes).elim,
        fun hmakes => (hno hmakes).elim⟩)
    · rw [if_neg hfull]
      exact h.made a ⟨hcon, hfull⟩

end New

/-! ### Runs -/

/-- **A call** keeps the registry exactly when the condition on it is met. -/
theorem Inv.run {s : Registry} (h : Inv s) (c : Call) : Decides (c.run s) (c.Careful s) := by
  cases c with
  | read bsCP bsConn a => exact h.access a
  | write bsCP bsConn a => exact h.access a
  | shut =>
    show Decides (SapiS7.shut s >>= fun s' => some (s', ⟨0, true⟩)) (Clean s)
    have hdecides := h.decides_shut 0
    rwa [Option.map_eq_bind] at hdecides

/-- The behaviour of the library is defined, and nothing has gone wrong. -/
def Sound (s : Option Registry) : Prop := ∃ s₀, s = some s₀ ∧ Inv s₀

/-- The condition on a call. -/
def Careful (s : Option Registry) (c : Call) : Prop := ∃ s₀, s = some s₀ ∧ c.Careful s₀

theorem kept_iff_careful (s : Option Registry) (c : Call) (h : Sound s) :
    Kept s c ↔ Careful s c := by
  obtain ⟨s, rfl, hinv⟩ := h
  refine (hinv.run c).good.trans ⟨fun hc => ⟨s, rfl, hc⟩, ?_⟩
  rintro ⟨s₀, hs, hc⟩
  rwa [Option.some.inj hs]

theorem Sound.next (s : Option Registry) (c : Call) (h : Sound s) (hkept : Kept s c) :
    Sound (registry.next s c).1 := by
  obtain ⟨s, rfl, hinv⟩ := h
  obtain ⟨s', ret, hrun, hinv'⟩ := (hinv.run c).inv ((hinv.run c).good.1 hkept)
  refine ⟨s', ?_, hinv'⟩
  show (c.run s).map Prod.fst = some s'
  rw [hrun, Option.map_some]

/-- **Connections, sessions and references agree** after every call, and nothing is left after
every `SAPI_Shut`, in the runs whose calls all meet the condition, and in no others. -/
theorem kept_iff (calls : List Call) :
    registry.EachStep Kept (some .init) calls ↔ registry.EachStep Careful (some .init) calls :=
  Machine.eachStep_iff_of_invariant Sound.next kept_iff_careful ⟨.init, rfl, inv_init⟩

/-- Two connections of one CP, where the memory of the second was not zero. -/
def sharedSession : List Call :=
  let cp : Name := ⟨[67, 80], by decide +kernel, by decide +kernel⟩
  [.read cp ⟨[67, 49], by decide +kernel, by decide +kernel⟩ ⟨0, 0, 1, 0, 0, 5, 0, 0⟩,
    .read cp ⟨[67, 50], by decide +kernel, by decide +kernel⟩ ⟨1, 0, 1, 0, 0, 5, 0, 0⟩, .shut]

/-- The session is left, with a reference of a connection that is gone. -/
theorem not_kept_sharedSession : ¬ registry.EachStep Kept (some .init) sharedSession := by
  rintro ⟨-, -, ⟨s, ret, heq, -, hdown⟩, -⟩
  have hrun : (registry.after (some .init) (sharedSession.take 2) >>= Call.run .shut).map
      (fun r => (r.1.sess, r.2.shut)) = some ([0], true) := by decide +kernel
  change (registry.after (some .init) (sharedSession.take 2) >>= Call.run .shut) = _ at heq
  rw [heq] at hrun
  have hlast : some (s.sess, ret.shut) = some ([0], true) := hrun
  obtain ⟨hsess, hshut⟩ := Prod.mk.inj (Option.some.inj hlast)
  rw [(hdown hshut).sess] at hsess
  cases hsess

end SapiS7

end Edps
