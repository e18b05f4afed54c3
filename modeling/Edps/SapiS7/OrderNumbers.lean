import Edps.SapiS7.Sessions
import Mathlib.Data.List.Nodup
import Mathlib.Data.List.Perm.Basic

/-!
# Order numbers of sessions

A session keeps its place in `Sess`, which the constructor of its first connection gives it.  The
destructor of its last connection takes the session out of that place and moves the rest of `Sess`
up, but tells none of the sessions it has moved.

* `Act` : connections made and deleted one at a time, in any order.
* `Ordered` : `Sess` has every session there is once, in the place it keeps.
* `Act.FromEnd` : a session that is deleted is the last of `Sess`.
* `Opened.destroy` : the places are right after a destructor exactly when this is so.
-/

namespace Edps

namespace SapiS7

/-- Connections are made and deleted.  In the registry, `con` is now the connections there are,
whoever has made them. -/
inductive Act where
  /-- `new CConnection(pszCP, conName)` -/
  | construct (pszCP conName : Name) (a : S7Answers)
  /-- `delete` of a connection -/
  | destroy (i : ℕ)
  deriving DecidableEq, Repr

/-- What is done. -/
def Act.run : Act → Registry → Option Registry
  | .construct pszCP conName a, s => do
    let (c, s) ← CConnection.new a pszCP conName s
    return { s with con := s.con ++ [c] }
  | .destroy i, s => do
    let c ← s.con[i]?
    let s ← c.delete s
    return { s with con := s.con.eraseIdx i }

/-- Connections made and deleted; `none` once the behaviour is undefined. -/
def objects : Machine (Option Registry) Act Unit := ⟨fun s e => (s >>= e.run, ())⟩

/-- The connection that is made has a session and `SessStatus` zero; the one that is deleted is
there. -/
def Act.Succeeds : Act → Registry → Prop
  | .construct pszCP conName a, s =>
    ∃ r ∈ CConnection.new a pszCP conName s, r.1.sessStatus = 0 ∧ r.1.session.isSome
  | .destroy i, s => i < s.con.length

instance (e : Act) (s : Registry) : Decidable (e.Succeeds s) := by
  cases e <;> unfold Act.Succeeds <;> infer_instance

/-- Only connections that were opened are made. -/
def Succeeds (s : Option Registry) (e : Act) : Prop := ∃ s₀ ∈ s, e.Succeeds s₀

instance (s : Option Registry) (e : Act) : Decidable (Succeeds s e) := by
  unfold Succeeds
  infer_instance

/-- `Sess` has every session there is once, and nothing else, and every session is in the place
it keeps. -/
structure Ordered (s : Registry) : Prop where
  sessions : s.sess.Nodup
  live : ∀ p, p ∈ s.sess ↔ ∃ x, s.heap.get p = some x
  ordNum : ∀ i p x, s.sess[i]? = some p → s.heap.get p = some x → x.ordNum = i

/-- A destructor takes what it has deleted out of `Sess`, and nothing else. -/
def Act.OwnSlot : Act → Registry → Registry → Prop
  | .construct .., _, _ => True
  | .destroy _, s, s' => s'.sess = s.sess.filter fun p => (s'.heap.get p).isSome

/-- The behaviour is defined, a destructor removes the slot of its own session, and the sessions
are in their places afterwards. -/
def InPlace (s : Option Registry) (e : Act) : Prop :=
  ∃ s₀ ∈ s, ∃ s₁ ∈ e.run s₀, e.OwnSlot s₀ s₁ ∧ Ordered s₁

/-- A session that is deleted is the last of `Sess`. -/
def Act.FromEnd : Act → Registry → Prop
  | .construct .., _ => True
  | .destroy i, s => ∀ c ∈ s.con[i]?, ∀ p ∈ c.session, ∀ x ∈ s.heap.get p,
    x.refCount = 1 → s.sess.getLast? = some p

instance (e : Act) (s : Registry) : Decidable (e.FromEnd s) := by
  cases e <;> unfold Act.FromEnd <;> infer_instance

/-- Sessions are deleted from the end of `Sess` only. -/
def FromEnd (s : Option Registry) (e : Act) : Prop := ∃ s₀ ∈ s, e.FromEnd s₀

instance (s : Option Registry) (e : Act) : Decidable (FromEnd s e) := by
  unfold FromEnd
  infer_instance

/-! ### Steps -/

/-- The registry as long as the sessions are in their places: the connections are open, and the
sessions count them. -/
structure Opened (s : Registry) : Prop extends Ordered s where
  con : ∀ c ∈ s.con, c.sessStatus = 0 ∧ ∃ p ∈ s.sess, c.session = some p
  refCount : ∀ p x, s.heap.get p = some x → x.refCount = s.con.countP (CConnection.attachedTo p)

theorem opened_init : Opened .init where
  sessions := List.nodup_nil
  live p := by simp [Registry.init, Heap.get]
  ordNum i p x hi := by simp [Registry.init] at hi
  con := by simp [Registry.init]
  refCount p x hp := by simp [Registry.init, Heap.get] at hp

section

variable {s : Registry} {p : ℕ} {x : CPSession}

/-- A session is made, at the end of `Sess`. -/
theorem Opened.withSession (h : Opened s) (hzero : x.refCount = 0)
    (hord : x.ordNum = s.sess.length) (new : List UInt32) : Opened (s.withSession x new) := by
  have hself : (s.heap.new x).get s.heap.length = some x := Heap.get_new_self
  have hlt {q : ℕ} (hq : q ∈ s.sess) : q ≠ s.heap.length := by
    obtain ⟨y, hy⟩ := (h.live q).1 hq
    exact Nat.ne_of_lt (Heap.lt_of_get hy)
  unfold Registry.withSession
  refine ⟨⟨?_, fun q => ?_, fun i q y hi hq => ?_⟩, fun c hc => ?_, fun q y hq => ?_⟩
  · exact List.nodup_append.2 ⟨h.sessions, by simp, fun a ha b hb => by
      rw [List.mem_singleton.1 hb]; exact hlt ha⟩
  · rw [List.mem_append, List.mem_singleton, h.live q]
    by_cases hq : q = s.heap.length
    · simp [hq, hself]
    · simp [hq, Heap.get_new_ne hq]
  · rcases Nat.lt_or_ge i s.sess.length with hlen | hlen
    · simp only [List.getElem?_append_left hlen] at hi
      have hne := hlt (List.mem_of_getElem? hi)
      exact h.ordNum i q y hi ((Heap.get_new_ne hne).symm.trans hq)
    · simp only [List.getElem?_append_right hlen, List.getElem?_singleton] at hi
      split_ifs at hi with hzero
      cases hi
      rw [hself, Option.some.injEq] at hq
      rw [← hq, hord]
      omega
  · obtain ⟨hstatus, q, hq, hcq⟩ := h.con c hc
    exact ⟨hstatus, q, List.mem_append_left _ hq, hcq⟩
  · by_cases hqp : q = s.heap.length
    · rw [hqp, hself, Option.some.injEq] at hq
      rw [← hq, hzero, hqp, List.countP_eq_zero.2]
      · rfl
      · intro c hc
        obtain ⟨-, r, hr, hcr⟩ := h.con c hc
        simpa [CConnection.attachedTo, hcr] using hlt hr
    · exact h.refCount q y ((Heap.get_new_ne hqp).symm.trans hq)

/-- A reference more or less leaves the sessions in their places. -/
theorem Ordered.store (h : Ordered s) (hp : s.heap.get p = some x) (n : ℤ)
    (con : List CConnection) :
    Ordered { s with heap := s.heap.store p { x with refCount := n }, con } := by
  have hself : (s.heap.store p { x with refCount := n }).get p =
      some { x with refCount := n } := Heap.get_store_self hp
  refine ⟨h.sessions, fun q => ?_, fun i q y hi hq => ?_⟩
  · rw [h.live q]
    by_cases hq : q = p
    · simp [hq, hself, hp]
    · simp [Heap.get_store_ne hq]
  · by_cases hqp : q = p
    · simp only [hqp, hself, Option.some.injEq] at hq
      rw [← hq]
      exact h.ordNum i p x (hqp ▸ hi) hp
    · exact h.ordNum i q y hi ((Heap.get_store_ne hqp).symm.trans hq)

/-- A connection is attached to a session. -/
theorem Opened.attach (h : Opened s) (hp : s.heap.get p = some x) (status : ℤ) (conName : Name) :
    Opened { s with
      heap := s.heap.store p { x with refCount := x.refCount + 1 }
      con := s.con ++ [⟨status, 0, some p, conName⟩] } := by
  refine ⟨h.toOrdered.store hp _ _, fun c hc => ?_, fun q y hq => ?_⟩
  · rcases List.mem_append.1 hc with hc | hc
    · exact h.con c hc
    · rw [List.mem_singleton.1 hc]
      exact ⟨rfl, p, (h.live p).2 ⟨x, hp⟩, rfl⟩
  · rw [List.countP_append, countP_attachedTo_cons (p := p) rfl]
    by_cases hqp : q = p
    · simp only [hqp, Heap.get_store_self hp, Option.some.injEq] at hq
      rw [← hq, hqp, if_pos rfl]
      push_cast
      rw [h.refCount p x hp]
      simp
    · rw [if_neg hqp]
      exact h.refCount q y ((Heap.get_store_ne hqp).symm.trans hq)

/-- **A constructor** leaves the sessions in their places. -/
theorem Opened.construct (h : Opened s) {pszCP conName : Name} {a : S7Answers}
    (hopen : (Act.construct pszCP conName a).Succeeds s) :
    ∃ s₁, (Act.construct pszCP conName a).run s = some s₁ ∧ Opened s₁ := by
  obtain ⟨⟨c, s₁⟩, hnew, hstatus, hsession⟩ := hopen
  rw [Option.mem_def] at hnew
  refine ⟨{ s₁ with con := s₁.con ++ [c] }, by rw [Act.run, hnew]; rfl, ?_⟩
  rcases findSess_eq pszCP fun p hp => (h.live p).1 hp with ⟨hfind, -⟩ | ⟨p, hp, hfind, -⟩
  · by_cases hfull : s.sess.length = SessQty
    · rw [connectionNew_full hfind hfull] at hnew
      cases hnew
      cases hsession
    · obtain ⟨x, new, hx⟩ : ∃ x new, CPSession.new a pszCP = (x, new) := ⟨_, _, rfl⟩
      by_cases hbad : x.status = 0
      · -- a session of its own
        have hzero : x.refCount = 0 := by
          rcases sessionNew_cases a pszCP with ⟨-, heq⟩ | ⟨-, _, -, heq⟩
          all_goals
            rw [heq] at hx
            cases hx
            rfl
        have hsess := h.withSession (x := { x with ordNum := s.sess.length }) hzero rfl new
        rw [connectionNew_good hfind hfull hx hbad, attach_eq a Heap.get_new_self] at hnew
        cases hnew
        exact hsess.attach Heap.get_new_self _ conName
      · rw [connectionNew_bad hfind hfull hx hbad, deleteSession_eq Heap.get_new_self] at hnew
        cases hnew
        cases hsession
  · -- the session is there
    obtain ⟨x, hx⟩ := (h.live p).1 hp
    rw [connectionNew_found a hfind, attach_eq a hx] at hnew
    cases hnew
    simp only at hstatus
    rw [hstatus]
    exact h.attach hx _ conName

/-- The connections without one of them. -/
theorem countP_eraseIdx {con : List CConnection} {i : ℕ} {c : CConnection} (hc : con[i]? = some c)
    (hp : c.session = some p) (q : ℕ) : con.countP (CConnection.attachedTo q) =
      (con.eraseIdx i).countP (CConnection.attachedTo q) + if q = p then 1 else 0 := by
  obtain ⟨hlt, rfl⟩ := List.getElem?_eq_some_iff.1 hc
  rw [← countP_attachedTo_cons hp q, (List.getElem_cons_eraseIdx_perm hlt).countP_eq]

/-- `Sess` after its entry `k` was taken out. -/
theorem removeSess_eq {sess : List ℕ} (hnodup : sess.Nodup) {k : ℕ} (hk : sess[k]? = some p) :
    removeSess sess k = sess.eraseIdx k ∧ removeSess sess k = sess.filter (· != p) := by
  obtain ⟨hlt, rfl⟩ := List.getElem?_eq_some_iff.1 hk
  rw [removeSess, if_pos hlt, ← hnodup.erase_getElem _ hlt, hnodup.erase_eq_filter]
  exact ⟨rfl, rfl⟩

/-- **The entries of an array keep their places** when one is taken out, if it was the last. -/
theorem eraseIdx_places_iff {sess : List ℕ} {k : ℕ} (hnodup : sess.Nodup)
    (hk : sess[k]? = some p) {P : ℕ → ℕ → Prop}
    (huniq : ∀ q ∈ sess, ∀ i j, P q i → P q j → i = j)
    (hplace : ∀ i q, sess[i]? = some q → P q i) :
    (∀ i q, (sess.eraseIdx k)[i]? = some q → P q i) ↔ sess.getLast? = some p := by
  obtain ⟨hlt, -⟩ := List.getElem?_eq_some_iff.1 hk
  rw [List.getLast?_eq_getElem?]
  constructor
  · intro hall
    -- the entry behind it would be one place too far
    have hlast : ¬ k + 1 < sess.length := by
      intro hnext
      have hget : sess[k + 1]? = some sess[k + 1] := List.getElem?_eq_getElem hnext
      have hmoved := hall k sess[k + 1] (by
        rw [List.getElem?_eraseIdx_of_ge (Nat.le_refl k), hget])
      have hsame := huniq _ (List.getElem_mem hnext) k (k + 1) hmoved (hplace _ _ hget)
      omega
    rwa [show sess.length - 1 = k by omega]
  · intro hlast i q hi
    have hsame : sess.length - 1 = k :=
      (List.getElem?_inj (by omega) hnodup).1 (hlast.trans hk.symm)
    have hik : i < k := by
      have hlen := (List.getElem?_eq_some_iff.1 hi).1
      rw [List.length_eraseIdx_of_lt hlt] at hlen
      omega
    rw [List.getElem?_eraseIdx_of_lt hik] at hi
    exact hplace i q hi

/-- A connection is deleted that is not the last one of its session. -/
theorem Opened.detach (h : Opened s) {i : ℕ} {c : CConnection} (hc : s.con[i]? = some c)
    (hp : c.session = some p) (hx : s.heap.get p = some x) :
    Opened { s with
      heap := s.heap.store p { x with refCount := x.refCount - 1 }
      con := s.con.eraseIdx i } := by
  have hcount := countP_eraseIdx hc hp
  refine ⟨h.toOrdered.store hx _ _, fun c' hc' => ?_, fun q y hq => ?_⟩
  · exact h.con c' (List.mem_of_mem_eraseIdx hc')
  · by_cases hqp : q = p
    · simp only [hqp, Heap.get_store_self hx, Option.some.injEq] at hq
      have hrefs := h.refCount p x hx
      rw [hcount, if_pos rfl] at hrefs
      rw [← hq, hqp]
      push_cast at hrefs
      simp only
      omega
    · have hrefs := h.refCount q y ((Heap.get_store_ne hqp).symm.trans hq)
      rwa [hcount, if_neg hqp] at hrefs

/-- The registry without the connection `i` and its session `x` at `p`. -/
def Registry.without (s : Registry) (p : ℕ) (x : CPSession) (i : ℕ) : Registry :=
  { s with
    heap := s.heap.delete p
    closed := x.close s.closed
    sess := removeSess s.sess x.ordNum
    con := s.con.eraseIdx i }

/-- A session is taken out of the slot it stands in. -/
theorem Opened.removeSess_eq (h : Opened s) (hx : s.heap.get p = some x) :
    ∃ k, s.sess[k]? = some p ∧ removeSess s.sess x.ordNum = s.sess.eraseIdx k ∧
      removeSess s.sess x.ordNum = s.sess.filter (· != p) := by
  obtain ⟨k, hk⟩ := List.getElem?_of_mem ((h.live p).2 ⟨x, hx⟩)
  obtain ⟨herase, hfilter⟩ := SapiS7.removeSess_eq h.sessions hk
  rw [h.ordNum k p x hk hx]
  exact ⟨k, hk, herase, hfilter⟩

theorem get_without (s : Registry) (p : ℕ) (x : CPSession) (i q : ℕ) :
    (s.without p x i).heap.get q = if q = p then none else s.heap.get q := by
  split_ifs with hq
  · rw [hq]
    exact Heap.get_delete_self
  · exact Heap.get_delete_ne hq

/-- The sessions of the array are those that are left. -/
theorem Opened.mem_without (h : Opened s) (hx : s.heap.get p = some x) (i q : ℕ) :
    q ∈ (s.without p x i).sess ↔ ∃ y, (s.without p x i).heap.get q = some y := by
  obtain ⟨-, -, -, hfilter⟩ := h.removeSess_eq hx
  have hsess : (s.without p x i).sess = s.sess.filter (· != p) := hfilter
  rw [hsess, get_without, List.mem_filter, h.live q]
  by_cases hq : q = p <;> simp [hq]

/-- What is left stands in its places exactly when the session was the last. -/
theorem Opened.ordered_without (h : Opened s) (hx : s.heap.get p = some x) (i : ℕ) :
    Ordered (s.without p x i) ↔ s.sess.getLast? = some p := by
  obtain ⟨k, hk, herase, -⟩ := h.removeSess_eq hx
  have hsess : (s.without p x i).sess = s.sess.eraseIdx k := herase
  have hmem := h.mem_without hx i
  have hget {q j : ℕ} (hj : (s.sess.eraseIdx k)[j]? = some q) :
      (s.without p x i).heap.get q = s.heap.get q := by
    obtain ⟨y, hy⟩ := (hmem q).1 (hsess ▸ List.mem_of_getElem? hj)
    rw [get_without] at hy ⊢
    split_ifs at hy ⊢
    rfl
  refine Iff.trans ?_ (eraseIdx_places_iff h.sessions hk (P := fun q j =>
    ∀ y, s.heap.get q = some y → y.ordNum = j) (fun q hq a b ha hb => ?_)
    fun j q hj y hy => h.ordNum j q y hj hy)
  · constructor
    · intro hordered j q hj y hy
      exact hordered.ordNum j q y (hsess ▸ hj) ((hget hj).trans hy)
    · intro hplaces
      refine ⟨hsess ▸ h.sessions.eraseIdx k, hmem, fun j q y hj hq => ?_⟩
      rw [hsess] at hj
      exact hplaces j q hj y ((hget hj).symm.trans hq)
  · obtain ⟨y, hy⟩ := (h.live q).1 hq
    rw [← ha y hy, ← hb y hy]

/-- The last connection of a session is deleted with the session. -/
theorem Opened.without (h : Opened s) {i : ℕ} {c : CConnection} (hc : s.con[i]? = some c)
    (hp : c.session = some p) (hx : s.heap.get p = some x) (hone : x.refCount = 1)
    (hordered : Ordered (s.without p x i)) : Opened (s.without p x i) := by
  have hcount := countP_eraseIdx hc hp
  -- no other connection has the session
  have hlast : (s.con.eraseIdx i).countP (CConnection.attachedTo p) = 0 := by
    have hrefs := h.refCount p x hx
    rw [hcount, if_pos rfl, hone] at hrefs
    omega
  refine ⟨hordered, fun c' hc' => ?_, fun q y hq => ?_⟩
  · obtain ⟨hstatus, q, hq, hcq⟩ := h.con c' (List.mem_of_mem_eraseIdx hc')
    have hqp : q ≠ p := by
      rintro rfl
      exact List.countP_eq_zero.1 hlast c' hc' (by simp [CConnection.attachedTo, hcq])
    obtain ⟨y, hy⟩ := (h.live q).1 hq
    refine ⟨hstatus, q, (h.mem_without hx i q).2 ⟨y, ?_⟩, hcq⟩
    rw [get_without, if_neg hqp, hy]
  · rw [get_without] at hq
    split_ifs at hq with hqp
    have hrefs := h.refCount q y hq
    rwa [hcount, if_neg hqp] at hrefs

/-- **A destructor** removes the slot of its session, and leaves the others in their places exactly
when it was the last. -/
theorem Opened.destroy (h : Opened s) {i : ℕ} (hi : (Act.destroy i).Succeeds s) :
    ∃ s₁, (Act.destroy i).run s = some s₁ ∧ (Act.destroy i).OwnSlot s s₁ ∧
      (Ordered s₁ ↔ (Act.destroy i).FromEnd s) ∧ (Ordered s₁ → Opened s₁) := by
  have hc : s.con[i]? = some (s.con.get ⟨i, hi⟩) := List.getElem?_eq_getElem hi
  set c := s.con.get ⟨i, hi⟩ with hcdef
  obtain ⟨hstatus, p, hmem, hp⟩ := h.con c (List.mem_of_getElem? hc)
  obtain ⟨x, hx⟩ := (h.live p).1 hmem
  have hfrom : (Act.destroy i).FromEnd s ↔ (x.refCount = 1 → s.sess.getLast? = some p) := by
    simp only [Act.FromEnd, hc, hp, hx, Option.mem_def, Option.some.injEq, forall_eq']
  rcases delete_cases hp hx with ⟨hne, -⟩ | ⟨-, hone, heq⟩ | ⟨-, hone, heq⟩
  · exact absurd hstatus hne
  · -- the session has other connections
    have hopened := h.detach hc hp hx
    refine ⟨_, by rw [Act.run, hc, Option.bind_eq_bind, Option.bind_some, heq]; rfl, ?_,
      iff_of_true hopened.toOrdered (hfrom.2 fun h => absurd h hone), fun _ => hopened⟩
    refine (List.filter_eq_self.2 fun q hq => ?_).symm
    obtain ⟨y, hy⟩ := (hopened.live q).1 hq
    rw [hy]
    rfl
  · -- the session is deleted with its last connection
    refine ⟨s.without p x i, by rw [Act.run, hc, Option.bind_eq_bind, Option.bind_some, heq]; rfl,
      ?_, ?_, h.without hc hp hx hone⟩
    · obtain ⟨-, -, -, hfilter⟩ := h.removeSess_eq hx
      refine hfilter.trans (List.filter_congr fun q hq => ?_)
      obtain ⟨y, hy⟩ := (h.live q).1 hq
      rw [get_without]
      by_cases hqp : q = p <;> simp [hqp, hy]
    · rw [hfrom, forall_prop_of_true hone]
      exact h.ordered_without hx i

end

/-! ### Runs -/

/-- The behaviour is defined, and the sessions are in their places. -/
def Sorted (s : Option Registry) : Prop := ∃ s₀ ∈ s, Opened s₀

/-- **One step.** -/
theorem Sorted.step {s : Option Registry} (h : Sorted s) {e : Act} (he : Succeeds s e) :
    (InPlace s e ↔ FromEnd s e) ∧ (InPlace s e → Sorted (objects.next s e).1) := by
  obtain ⟨s, rfl, hs⟩ := h
  have hiff (P : Registry → Prop) : (∃ s₀ ∈ some s, P s₀) ↔ P s := by simp
  rw [Succeeds, hiff] at he
  have hnext : (objects.next (some s) e).1 = e.run s := rfl
  rw [InPlace, FromEnd, hiff, hiff, hnext]
  cases e with
  | construct pszCP conName a =>
    obtain ⟨s₁, hrun, hopened⟩ := hs.construct he
    rw [hrun]
    exact ⟨iff_of_true ⟨s₁, rfl, trivial, hopened.toOrdered⟩ trivial, fun _ => ⟨s₁, rfl, hopened⟩⟩
  | destroy i =>
    obtain ⟨s₁, hrun, hown, hfrom, hopened⟩ := hs.destroy he
    rw [hrun]
    refine ⟨⟨?_, fun hend => ⟨s₁, rfl, hown, hfrom.2 hend⟩⟩, ?_⟩
    · rintro ⟨s₂, hs₂, -, hordered⟩
      cases hs₂
      exact hfrom.1 hordered
    · rintro ⟨s₂, hs₂, -, hordered⟩
      cases hs₂
      exact ⟨s₁, rfl, hopened hordered⟩

/-- **Order numbers follow the array** in the runs that delete sessions from its end only, and in no
others. -/
theorem inPlace_iff_fromEnd (acts : List Act) (h : objects.EachStep Succeeds (some .init) acts) :
    objects.EachStep InPlace (some .init) acts ↔ objects.EachStep FromEnd (some .init) acts := by
  have hsorted : Sorted (some .init) := ⟨_, rfl, opened_init⟩
  have hboth : objects.EachStep (fun s e => Succeeds s e ∧ InPlace s e) (some .init) acts ↔
      objects.EachStep (fun s e => Succeeds s e ∧ FromEnd s e) (some .init) acts :=
    Machine.eachStep_iff_of_invariant (fun s e hs he => (hs.step he.1).2 he.2)
      (fun s e hs => and_congr_right fun he => (hs.step he).1) hsorted
  rwa [Machine.eachStep_and, Machine.eachStep_and, and_iff_right h, and_iff_right h] at hboth

/-- Sessions of three CPs, one connection each. -/
def threeSessions : List Act :=
  let conName : Name := ⟨[67], by decide +kernel, by decide +kernel⟩
  [.construct ⟨[65], by decide +kernel, by decide +kernel⟩ conName ⟨1, 0, 1, 0, 0, 5, 0, 0⟩,
    .construct ⟨[66], by decide +kernel, by decide +kernel⟩ conName ⟨1, 0, 1, 0, 0, 6, 0, 0⟩,
    .construct ⟨[67], by decide +kernel, by decide +kernel⟩ conName ⟨1, 0, 1, 0, 0, 7, 0, 0⟩]

/-- They go in the order opposite to that in which they came. -/
theorem inPlace_iff_fromEnd_three :
    objects.EachStep InPlace (some .init)
      (threeSessions ++ [.destroy 2, .destroy 1, .destroy 0]) :=
  (inPlace_iff_fromEnd _ (by decide +kernel)).2 (by decide +kernel)

theorem InPlace.next {s : Option Registry} {e : Act} (h : InPlace s e) :
    ∃ s₁, (objects.next s e).1 = some s₁ ∧ Ordered s₁ := by
  obtain ⟨s₀, rfl, s₁, hs₁, -, hordered⟩ := h
  exact ⟨s₁, hs₁, hordered⟩

/-- When the first session goes, the second moves to its place and still keeps its own; when the
second goes too, the third is taken out of `Sess`, and the second stays there, deleted. -/
theorem not_inPlace_firstGone :
    objects.EachStep Succeeds (some .init) (threeSessions ++ [.destroy 0, .destroy 0]) ∧
      ¬ objects.EachStep InPlace (some .init) (threeSessions ++ [.destroy 0, .destroy 0]) ∧
      (objects.after (some .init) (threeSessions ++ [.destroy 0, .destroy 0])).map
        (fun s => (s.sess, s.heap.get 1)) = some ([1], none) := by
  refine ⟨by decide +kernel, ?_, by decide +kernel⟩
  rintro ⟨-, -, -, hgone, -⟩
  obtain ⟨s₁, hs₁, hordered⟩ := hgone.next
  have hrun : (objects.after (some .init) (threeSessions ++ [.destroy 0])).map
      (fun s => (s.sess[0]?, (s.heap.get 1).map CPSession.ordNum)) = some (some 1, some 1) := by
    decide +kernel
  change objects.after (some .init) (threeSessions ++ [.destroy 0]) = some s₁ at hs₁
  rw [hs₁, Option.map_some, Option.some.injEq, Prod.mk.injEq] at hrun
  obtain ⟨hplace, hord⟩ := hrun
  obtain ⟨x, hx, hone⟩ := Option.map_eq_some_iff.1 hord
  have hzero := hordered.ordNum 0 1 x hplace hx
  omega

end SapiS7

end Edps
