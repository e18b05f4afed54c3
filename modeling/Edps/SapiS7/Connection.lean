import Edps.Lib.Runs
import Mathlib.Data.Int.Notation
import Mathlib.Tactic.Common

/-!
# The request loops of a SAPI-S7 connection

`CConnection::Read` and `CConnection::Write` send one request over a connection and wait for its
confirmation.  Both are the same loop: initiate, poll `s7_receive`, answer `S7_INITIATE_CNF` with
the request, fetch the confirmation, and start again (at most three times) when ten seconds have
passed.  The loop is a `RequestLoop`; `read` and `write` are its two copies, which differ in the
confirmation they wait for, in the request they build and in what they make of `nBufLen`.

The environment (messages, return codes, clock) is a list of `S7Reply`s, one for every pass.

* `settles_iff` : a confirmation fetched with `S7_OK` ends the call successfully exactly when
  none is fetched in a pass that ends ten seconds or more after the start of its attempt.
* `initiates_le` : `s7_initiate_req` is called at most three times, whatever happens.
* `keepsCallerData_of` : what `Read` and `Write` promise about the caller's `nBufLen`, and when.

A late confirmation is the flaw: the timeout test follows the message switch of the same pass, so
the loop starts again with what the confirmation left in `nBufLen`.
-/

namespace Edps

namespace SapiS7

def S7_OK : ℤ := 0

def S7_NO_MSG : ℤ := 0

def S7_INITIATE_CNF : ℤ := 0x0101

def S7_READ_CNF : ℤ := 0x0301

def S7_WRITE_CNF : ℤ := 0x0302

def S7_MAX_NAMLEN : ℕ := 32

def S7_MAX_BUFLEN : ℕ := 256

/-- The calls into the S7 library, with the arguments the loop chooses and, for a fetched
confirmation, the return code. -/
inductive S7Call where
  /-- `s7_initiate_req` -/
  | initiateReq
  /-- `s7_get_initiate_cnf` -/
  | getInitiateCnf
  /-- `s7_read_req` with `rp.var_name` -/
  | readReq (varName : List UInt8)
  /-- `s7_write_req` with `wp.var_name`, `wp.var_length` and the bytes copied to `wp.value` -/
  | writeReq (varName : List UInt8) (varLength : ℕ) (value : List UInt8)
  /-- `s7_get_read_cnf` with the capacity `len` -/
  | getReadCnf (len : ℕ) (ret : ℤ)
  /-- `s7_get_write_cnf` -/
  | getWriteCnf (ret : ℤ)
  /-- `s7_abort` -/
  | abort
  deriving DecidableEq, Repr

/-- The answers of the environment in one pass of the loop. -/
structure S7Reply where
  /-- `time(&start)` at `StartPoint` -/
  start : ℤ
  /-- the return code of `s7_initiate_req` -/
  initiateRet : ℤ
  /-- the message of `s7_receive` -/
  message : ℤ
  /-- the return code of `s7_get_read_cnf` or `s7_get_write_cnf` -/
  cnfRet : ℤ
  /-- the length `s7_get_read_cnf` leaves in `len`, an `ord16` -/
  cnfLen : Fin 65536
  /-- `time(&finish)` after the message switch -/
  finish : ℤ
  deriving DecidableEq, Repr

/-- Where the loop is. -/
inductive Phase where
  /-- at `StartPoint` -/
  | startPoint
  /-- in the `do` loop -/
  | loop
  /-- returned with this value -/
  | returned (ret : ℤ)
  /-- `strcpy` or `memcpy` has written past its field -/
  | overrun
  deriving DecidableEq, Repr

/-- The local variables of the loop. -/
structure LoopState where
  /-- `nBufLen`: first the caller's length, in the end the result. -/
  nBufLen : ℤ
  /-- `iAtt` -/
  iAtt : ℕ
  /-- `start` -/
  start : ℤ
  phase : Phase
  deriving DecidableEq, Repr

/-- A confirmation fetched with `S7_OK`. -/
def S7Call.confirmed : S7Call → Bool
  | .getReadCnf _ ret => ret = S7_OK
  | .getWriteCnf ret => ret = S7_OK
  | _ => false

@[simp] theorem confirmed_initiateReq : S7Call.initiateReq.confirmed = false := rfl

@[simp] theorem confirmed_getInitiateCnf : S7Call.getInitiateCnf.confirmed = false := rfl

@[simp] theorem confirmed_abort : S7Call.abort.confirmed = false := rfl

/-- What the two copies of the loop differ in. -/
structure RequestLoop where
  /-- The confirmation that ends the loop. -/
  cnf : ℤ
  /-- The request sent on `S7_INITIATE_CNF`, built from `nBufLen`; `none` when building it
  writes past a field of the parameter block. -/
  request : ℤ → Option S7Call
  /-- The call that fetches the confirmation, and `nBufLen` after it. -/
  confirm : ℤ → S7Reply → S7Call × ℤ
  cnf_ne : cnf ≠ S7_NO_MSG ∧ cnf ≠ S7_INITIATE_CNF
  /-- A request is neither an initiation nor a confirmation. -/
  request_kind : ∀ n c, request n = some c → c ≠ .initiateReq ∧ c.confirmed = false
  confirm_kind : ∀ n r, (confirm n r).1 ≠ .initiateReq
  /-- The confirmation is fetched with the return code of the reply, and `S7_OK` leaves a
  length. -/
  confirm_ok : ∀ n r, ((confirm n r).1.confirmed = true ↔ r.cnfRet = S7_OK) ∧
    (r.cnfRet = S7_OK → 0 ≤ (confirm n r).2)

namespace RequestLoop

variable (L : RequestLoop)

/-- The end of a pass: the timeout test, then the loop condition. -/
def endOfPass (s : LoopState) (r : S7Reply) (calls : List S7Call) : LoopState × List S7Call :=
  if 10 ≤ r.finish - s.start then ({ s with phase := .startPoint }, calls ++ [.abort])
  -- the loop condition: a confirmation ends the loop
  else if r.message = L.cnf then ({ s with phase := .returned s.nBufLen }, calls)
  else (s, calls)

/-- One pass: from `StartPoint` to the loop, or once through the loop. -/
def step (s : LoopState) (r : S7Reply) : LoopState × List S7Call :=
  match s.phase with
  | .startPoint =>
    let s' := { s with iAtt := s.iAtt + 1 }
    if 3 ≤ s.iAtt then ({ s' with phase := .returned (-3) }, [])
    else if r.initiateRet = S7_OK then
      ({ s' with start := r.start, phase := .loop }, [.initiateReq])
    else ({ s' with start := r.start, phase := .returned (-1) }, [.initiateReq])
  | .loop =>
    if r.message = S7_NO_MSG then L.endOfPass s r []
    else if r.message = S7_INITIATE_CNF then
      match L.request s.nBufLen with
      | some req => L.endOfPass s r [.getInitiateCnf, req]
      | none => ({ s with phase := .overrun }, [.getInitiateCnf])
    else if r.message = L.cnf then
      let (call, n) := L.confirm s.nBufLen r
      L.endOfPass { s with nBufLen := n } r [call, .abort]
    else ({ s with phase := .returned (-2) }, [])
  | .returned _ => (s, [])
  | .overrun => (s, [])

/-- The loop as a machine driven by its environment. -/
def machine : Machine LoopState S7Reply (List S7Call) := ⟨L.step⟩

end RequestLoop

/-- A call with the caller's length `nBufLen`, before its first attempt. -/
def entry (nBufLen : ℤ) : LoopState := ⟨nBufLen, 0, 0, .startPoint⟩

/-- `CConnection::Read`: `ord16 len = nBufLen` is the capacity, and the length received is the
result. -/
def read (szMemory : List UInt8) : RequestLoop where
  cnf := S7_READ_CNF
  request _ := if szMemory.length ≤ S7_MAX_NAMLEN + 1 then some (.readReq szMemory) else none
  confirm n r :=
    (.getReadCnf (n % 65536).toNat r.cnfRet, if r.cnfRet = S7_OK then (r.cnfLen.val : ℤ) else -4)
  cnf_ne := by decide
  request_kind n c h := by
    split at h <;> cases h
    exact ⟨by simp, rfl⟩
  confirm_kind n r := by simp
  confirm_ok n r := ⟨by simp [S7Call.confirmed], fun h => by simp [h]⟩

/-- `CConnection::Write`: `nBufLen` bytes of `pDataBuf` are copied to `wp.value`, and `0` is the
result. -/
def write (szMemory : List UInt8) (pDataBuf : ℕ → UInt8) : RequestLoop where
  cnf := S7_WRITE_CNF
  request n :=
    if szMemory.length ≤ S7_MAX_NAMLEN + 1 ∧ 0 ≤ n ∧ n ≤ S7_MAX_BUFLEN then
      some (.writeReq szMemory n.toNat ((List.range n.toNat).map pDataBuf))
    else none
  confirm _ r := (.getWriteCnf r.cnfRet, if r.cnfRet = S7_OK then 0 else -4)
  cnf_ne := by decide
  request_kind n c h := by
    split at h <;> cases h
    exact ⟨by simp, rfl⟩
  confirm_kind n r := by simp
  confirm_ok n r := ⟨by simp [S7Call.confirmed], fun h => by simp [h]⟩

/-! ### What a call promises -/

/-- Part (a) for one call: `Read` offers the caller's length as capacity, `Write` sends exactly
the caller's bytes. -/
def S7Call.KeepsCaller (nBufLen : ℤ) (pDataBuf : ℕ → UInt8) : S7Call → Prop
  | .getReadCnf len _ => (len : ℤ) = nBufLen
  | .writeReq _ varLength value =>
      (varLength : ℤ) = nBufLen ∧ value = (List.range nBufLen.toNat).map pDataBuf
  | _ => True

namespace RequestLoop

variable (L : RequestLoop)

/-- Part (a): no call of the run departs from the caller's data, or has undefined behaviour. -/
def KeepsCallerData (nBufLen : ℤ) (pDataBuf : ℕ → UInt8) (rs : List S7Reply) : Prop :=
  (L.machine.after (entry nBufLen) rs).phase ≠ .overrun ∧
    ∀ calls ∈ L.machine.outs (entry nBufLen) rs, ∀ c ∈ calls, c.KeepsCaller nBufLen pDataBuf

/-- Part (b): after a pass that fetches a confirmation with `S7_OK` the call has returned
success, and nothing more is sent. -/
def Settles (nBufLen : ℤ) (rs : List S7Reply) : Prop :=
  ∀ pre r post, rs = pre ++ r :: post →
    (L.step (L.machine.after (entry nBufLen) pre) r).2.any S7Call.confirmed →
    ∃ v, 0 ≤ v ∧ (L.machine.after (entry nBufLen) rs).phase = .returned v ∧
      ∀ calls ∈ L.machine.outs (L.machine.after (entry nBufLen) (pre ++ [r])) post, calls = []

/-- The number of `s7_initiate_req`s of a run. -/
def initiates (nBufLen : ℤ) (rs : List S7Reply) : ℕ :=
  (L.machine.outs (entry nBufLen) rs).flatten.count .initiateReq

/-- The confirmation of this pass is fetched late: ten seconds or more after the start. -/
def Late (s : LoopState) (r : S7Reply) : Prop :=
  s.phase = .loop ∧ r.message = L.cnf ∧ 10 ≤ r.finish - s.start

end RequestLoop

/-! ### One pass -/

namespace RequestLoop

variable {L : RequestLoop}

theorem step_returned {s : LoopState} {v : ℤ} (h : s.phase = .returned v) (r : S7Reply) :
    L.step s r = (s, []) := by simp [step, h]

/-- A pass that fetches the confirmation. -/
theorem step_cnf {s : LoopState} {r : S7Reply} (hs : s.phase = .loop) (hr : r.message = L.cnf) :
    L.step s r = L.endOfPass { s with nBufLen := (L.confirm s.nBufLen r).2 } r
      [(L.confirm s.nBufLen r).1, .abort] := by
  simp only [step, hs, hr, L.cnf_ne.1, L.cnf_ne.2, if_false, if_true]

theorem mem_endOfPass {s : LoopState} {r : S7Reply} {calls : List S7Call} {c : S7Call}
    (h : c ∈ (L.endOfPass s r calls).2) : c ∈ calls ∨ c = .abort := by
  unfold endOfPass at h
  split_ifs at h <;> simp_all

theorem any_confirmed_endOfPass (s : LoopState) (r : S7Reply) (calls : List S7Call) :
    (L.endOfPass s r calls).2.any S7Call.confirmed = calls.any S7Call.confirmed := by
  unfold endOfPass
  split_ifs <;> simp

/-- Initiations are sent from `StartPoint` only. -/
theorem initiateReq_not_mem_loop {s : LoopState} (hs : s.phase = .loop) (r : S7Reply) :
    S7Call.initiateReq ∉ (L.step s r).2 := by
  intro h
  simp only [step, hs] at h
  split_ifs at h with h₀ h₁ h₂
  · rcases mem_endOfPass h with h | h <;> cases h
  · cases hq : L.request s.nBufLen with
    | none => simp [hq] at h
    | some req =>
      rw [hq] at h
      rcases mem_endOfPass h with h | h
      · simp only [List.mem_cons, List.not_mem_nil, or_false] at h
        rcases h with h | h
        · cases h
        · exact (L.request_kind _ _ hq).1 h.symm
      · cases h
  · rcases mem_endOfPass h with h | h
    · simp only [List.mem_cons, List.not_mem_nil, or_false] at h
      rcases h with h | h
      · exact L.confirm_kind _ _ h.symm
      · cases h
    · cases h
  · cases h

/-- The passes that fetch a confirmation with `S7_OK`. -/
theorem any_confirmed_step (s : LoopState) (r : S7Reply) :
    (L.step s r).2.any S7Call.confirmed = true ↔
      s.phase = .loop ∧ r.message = L.cnf ∧ r.cnfRet = S7_OK := by
  cases hs : s.phase with
  | startPoint => simp only [step, hs]; split_ifs <;> simp
  | returned v => simp [step, hs]
  | overrun => simp [step, hs]
  | loop =>
    by_cases hc : r.message = L.cnf
    · rw [step_cnf hs hc, any_confirmed_endOfPass]
      simp [(L.confirm_ok s.nBufLen r).1, hc]
    · -- without its message no confirmation is fetched
      have hno : (L.step s r).2.any S7Call.confirmed = false := by
        simp only [step, hs, hc, if_false]
        split_ifs
        · rw [any_confirmed_endOfPass]; rfl
        · cases hq : L.request s.nBufLen with
          | none => rfl
          | some req =>
            simp only [any_confirmed_endOfPass]
            simp [(L.request_kind _ _ hq).2]
        · rfl
      simp [hno, hc]

/-! ### Runs -/

theorem after_returned {s : LoopState} {v : ℤ} (h : s.phase = .returned v) (rs : List S7Reply) :
    L.machine.after s rs = s ∧ ∀ calls ∈ L.machine.outs s rs, calls = [] := by
  induction rs with
  | nil => simp
  | cons r rs ih =>
    have hn : L.machine.next s r = (s, []) := step_returned h r
    simp only [Machine.after_cons, Machine.outs_cons, hn, List.mem_cons, forall_eq_or_imp,
      true_and]
    exact ih

/-- **Initiations.**  From any state, at most `3 - iAtt` more `s7_initiate_req`s are sent. -/
theorem count_initiateReq_le (s : LoopState) (rs : List S7Reply) :
    (L.machine.outs s rs).flatten.count .initiateReq ≤ 3 - s.iAtt := by
  induction rs generalizing s with
  | nil => simp
  | cons r rs ih =>
    simp only [Machine.outs_cons, List.flatten_cons, List.count_append]
    have hrest := ih (L.step s r).1
    show List.count _ (L.step s r).2 + (L.machine.outs (L.step s r).1 rs).flatten.count _ ≤ _
    cases hs : s.phase with
    | startPoint =>
      -- the pass counts `iAtt` up, and sends one at most
      simp only [step, hs] at hrest ⊢
      split_ifs at hrest ⊢ <;> simp at hrest ⊢ <;> omega
    | returned v => simpa [step, hs] using ih s
    | overrun => simpa [step, hs] using ih s
    | loop =>
      rw [List.count_eq_zero_of_not_mem (initiateReq_not_mem_loop hs r)]
      -- none is sent in the loop, and `iAtt` stays
      have hatt : (L.step s r).1.iAtt = s.iAtt := by
        have hend : ∀ s' calls, (L.endOfPass s' r calls).1.iAtt = s'.iAtt := by
          intro s' calls; unfold endOfPass; split_ifs <;> rfl
        simp only [step, hs]
        split_ifs
        · exact hend _ _
        · cases L.request s.nBufLen with
          | none => rfl
          | some req => exact hend _ _
        · exact hend _ _
        · rfl
      omega

/-- Part (c): `s7_initiate_req` is called at most three times. -/
theorem initiates_le (nBufLen : ℤ) (rs : List S7Reply) : L.initiates nBufLen rs ≤ 3 :=
  count_initiateReq_le (entry nBufLen) rs

/-- **When a fetched confirmation ends the call**: exactly when none is fetched late with
`S7_OK`. -/
theorem settles_iff (nBufLen : ℤ) (rs : List S7Reply) :
    L.Settles nBufLen rs ↔
      L.machine.EachStep (fun s r => L.Late s r → r.cnfRet ≠ S7_OK) (entry nBufLen) rs := by
  rw [Machine.eachStep_iff_forall_split]
  constructor
  · -- a late one leaves the loop at `StartPoint`, which sends or fails but never succeeds
    rintro h pre r post rfl ⟨hloop, hcnf, hlate⟩ hok
    obtain ⟨v, hv, hret, hquiet⟩ :=
      h pre r post rfl ((any_confirmed_step _ _).2 ⟨hloop, hcnf, hok⟩)
    set s := L.machine.after (entry nBufLen) pre with hs
    have hstart : (L.machine.after (entry nBufLen) (pre ++ [r])).phase = .startPoint := by
      rw [Machine.after_append, ← hs]
      show (L.step s r).1.phase = _
      rw [step_cnf hloop hcnf, endOfPass, if_pos (by simpa using hlate)]
    rw [show pre ++ r :: post = (pre ++ [r]) ++ post by simp, Machine.after_append] at hret
    set s' := L.machine.after (entry nBufLen) (pre ++ [r])
    cases post with
    | nil => rw [Machine.after_nil, hstart] at hret; cases hret
    | cons j post =>
      have hsilent : (L.step s' j).2 = [] := hquiet _ List.mem_cons_self
      simp only [step, hstart] at hsilent
      split_ifs at hsilent with hatt
      rw [Machine.after_cons] at hret
      have hj : (L.machine.next s' j).1.phase = .returned (-3) := by
        show (L.step s' j).1.phase = _
        simp [step, hstart, hatt]
      rw [(after_returned hj post).1, hj] at hret
      cases hret
      omega
  · rintro h pre r post rfl hconf
    obtain ⟨hloop, hcnf, hok⟩ := (any_confirmed_step _ _).1 hconf
    have hin : ¬ 10 ≤ r.finish - (L.machine.after (entry nBufLen) pre).start :=
      fun hl => h pre r post rfl ⟨hloop, hcnf, hl⟩ hok
    set s := L.machine.after (entry nBufLen) pre with hs
    have hret : (L.machine.after (entry nBufLen) (pre ++ [r])).phase =
        .returned (L.confirm s.nBufLen r).2 := by
      rw [Machine.after_append, ← hs]
      show (L.step s r).1.phase = _
      rw [step_cnf hloop hcnf, endOfPass, if_neg (by simpa using hin), if_pos hcnf]
    obtain ⟨hafter, hquiet⟩ := after_returned hret post
    refine ⟨_, (L.confirm_ok s.nBufLen r).2 hok, ?_, hquiet⟩
    rw [show pre ++ r :: post = (pre ++ [r]) ++ post by simp, Machine.after_append, hafter, hret]

/-- The caller's length is still in `nBufLen` wherever another attempt can follow. -/
def Kept (nBufLen : ℤ) (s : LoopState) : Prop :=
  s.phase ≠ .overrun ∧ (s.phase = .startPoint ∨ s.phase = .loop → s.nBufLen = nBufLen)

theorem kept_endOfPass {nBufLen : ℤ} {s : LoopState} (hs : s.phase = .loop)
    (hn : s.nBufLen = nBufLen) (r : S7Reply) (calls : List S7Call) :
    Kept nBufLen (L.endOfPass s r calls).1 := by
  unfold endOfPass
  split_ifs
  · exact ⟨by simp, fun _ => hn⟩
  · exact ⟨by simp, by simp⟩
  · exact ⟨by simp [hs], fun _ => hn⟩

theorem keepsCaller_endOfPass {nBufLen : ℤ} {pDataBuf : ℕ → UInt8} {calls : List S7Call}
    (hc : ∀ c ∈ calls, c.KeepsCaller nBufLen pDataBuf) (s : LoopState) (r : S7Reply) :
    ∀ c ∈ (L.endOfPass s r calls).2, c.KeepsCaller nBufLen pDataBuf := by
  intro c hmem
  rcases mem_endOfPass hmem with h | rfl
  · exact hc c h
  · trivial

section KeepsCaller

variable {nBufLen : ℤ} {pDataBuf : ℕ → UInt8}
  (hreq : ∃ c, L.request nBufLen = some c ∧ c.KeepsCaller nBufLen pDataBuf)
  (hcnf : ∀ r, (L.confirm nBufLen r).1.KeepsCaller nBufLen pDataBuf)

include hreq hcnf

/-- A pass that handles no confirmation late keeps the caller's length and sends its data. -/
theorem kept_step {s : LoopState} {r : S7Reply} (hs : Kept nBufLen s) (hl : ¬ L.Late s r) :
    Kept nBufLen (L.step s r).1 ∧
      ∀ c ∈ (L.step s r).2, c.KeepsCaller nBufLen pDataBuf := by
  obtain ⟨hover, hn⟩ := hs
  cases hp : s.phase with
  | returned v =>
    rw [step_returned hp]
    exact ⟨⟨hover, hn⟩, by simp⟩
  | overrun => exact absurd hp hover
  | startPoint =>
    have hn := hn (.inl hp)
    simp only [step, hp]
    split_ifs
    · exact ⟨⟨by simp, by simp⟩, by simp⟩
    · exact ⟨⟨by simp, fun _ => hn⟩, by simp [S7Call.KeepsCaller]⟩
    · exact ⟨⟨by simp, by simp⟩, by simp [S7Call.KeepsCaller]⟩
  | loop =>
    have hn := hn (.inr hp)
    by_cases hc : r.message = L.cnf
    · -- in time, so the pass returns: what is in `nBufLen` now is the result
      have hin : ¬ 10 ≤ r.finish - s.start := fun h => hl ⟨hp, hc, h⟩
      rw [step_cnf hp hc]
      refine ⟨?_, keepsCaller_endOfPass ?_ _ _⟩
      · rw [endOfPass, if_neg (by simpa using hin), if_pos hc]
        exact ⟨by simp, by simp⟩
      · simp only [List.forall_mem_cons, hn]
        exact ⟨hcnf r, trivial, by simp⟩
    · -- nothing assigns `nBufLen`, and the request is built from it
      obtain ⟨req, hq, hk⟩ := hreq
      simp only [step, hp, hc, if_false, hn, hq]
      split_ifs
      · exact ⟨kept_endOfPass hp hn r [], keepsCaller_endOfPass (by simp) s r⟩
      · refine ⟨kept_endOfPass hp hn r _, keepsCaller_endOfPass ?_ s r⟩
        simp only [List.forall_mem_cons]
        exact ⟨trivial, hk, by simp⟩
      · exact ⟨⟨by simp, by simp⟩, by simp⟩

/-- **The caller's data across retries.**  When no confirmation is handled late, every call of
the run keeps to the caller's length and bytes, if the loop's own request and confirmation for
that length do. -/
theorem keepsCallerData_of {rs : List S7Reply}
    (h : L.machine.EachStep (fun s r => ¬ L.Late s r) (entry nBufLen) rs) :
    L.KeepsCallerData nBufLen pDataBuf rs := by
  have hentry : Kept nBufLen (entry nBufLen) := ⟨by simp [entry], fun _ => rfl⟩
  have hkeep : ∀ s r, Kept nBufLen s → ¬ L.Late s r → Kept nBufLen (L.machine.next s r).1 :=
    fun s r hs hl => (kept_step hreq hcnf hs hl).1
  refine ⟨(Machine.after_invariant hkeep hentry h).1, Machine.forall_mem_outs.2 ?_⟩
  exact Machine.eachStep_of_invariant hkeep
    (fun s r hs hl => (kept_step hreq hcnf hs hl).2) hentry h

end KeepsCaller

end RequestLoop

/-! ### The two copies -/

/-- What a call keeps over a whole run: (a) the caller's data, (b) a confirmation settles it,
(c) at most three initiations. -/
structure KeepsPromises (L : RequestLoop) (nBufLen : ℤ) (pDataBuf : ℕ → UInt8)
    (rs : List S7Reply) : Prop where
  callerData : L.KeepsCallerData nBufLen pDataBuf rs
  settles : L.Settles nBufLen rs
  initiates : L.initiates nBufLen rs ≤ 3

variable {szMemory : List UInt8} {nBufLen : ℤ} {pDataBuf : ℕ → UInt8}

theorem read_request (hname : szMemory.length ≤ S7_MAX_NAMLEN + 1) :
    ∃ c, (read szMemory).request nBufLen = some c ∧ c.KeepsCaller nBufLen pDataBuf :=
  ⟨.readReq szMemory, by simp [read, hname], trivial⟩

theorem read_confirm (h₀ : 0 ≤ nBufLen) (h₁ : nBufLen < 65536) (r : S7Reply) :
    ((read szMemory).confirm nBufLen r).1.KeepsCaller nBufLen pDataBuf := by
  show ((nBufLen % 65536).toNat : ℤ) = nBufLen
  omega

theorem write_request (hname : szMemory.length ≤ S7_MAX_NAMLEN + 1) (h₀ : 0 ≤ nBufLen)
    (h₁ : nBufLen ≤ S7_MAX_BUFLEN) :
    ∃ c, (write szMemory pDataBuf).request nBufLen = some c ∧
      c.KeepsCaller nBufLen pDataBuf := by
  refine ⟨.writeReq szMemory nBufLen.toNat ((List.range nBufLen.toNat).map pDataBuf), ?_, ?_⟩
  · simp [write, hname, h₀, h₁]
  · exact ⟨by omega, rfl⟩

theorem keepsPromises_of {L : RequestLoop}
    (hreq : ∃ c, L.request nBufLen = some c ∧ c.KeepsCaller nBufLen pDataBuf)
    (hcnf : ∀ r, (L.confirm nBufLen r).1.KeepsCaller nBufLen pDataBuf) {rs : List S7Reply}
    (h : L.machine.EachStep (fun s r => ¬ L.Late s r) (entry nBufLen) rs) :
    KeepsPromises L nBufLen pDataBuf rs where
  callerData := RequestLoop.keepsCallerData_of hreq hcnf h
  settles := (RequestLoop.settles_iff _ _).2
    (Machine.eachStep_mono (fun _ _ hl hlate => absurd hlate hl) h)
  initiates := RequestLoop.initiates_le _ _

/-- **Requests across retries.**  For a symbol that fits its field and a length that fits the
confirmation (`Read`) or the parameter block (`Write`), a run in which no confirmation is handled
ten seconds or more after the start of its attempt keeps all the promises. -/
theorem keeps_promises (hname : szMemory.length ≤ S7_MAX_NAMLEN + 1) (h₀ : 0 ≤ nBufLen)
    (rs : List S7Reply) :
    (nBufLen < 65536 →
      (read szMemory).machine.EachStep (fun s r => ¬ (read szMemory).Late s r) (entry nBufLen) rs →
      KeepsPromises (read szMemory) nBufLen pDataBuf rs) ∧
    (nBufLen ≤ S7_MAX_BUFLEN →
      (write szMemory pDataBuf).machine.EachStep
        (fun s r => ¬ (write szMemory pDataBuf).Late s r) (entry nBufLen) rs →
      KeepsPromises (write szMemory pDataBuf) nBufLen pDataBuf rs) :=
  ⟨fun h₁ h => keepsPromises_of (read_request hname) (read_confirm h₀ h₁) h,
    fun h₁ h => keepsPromises_of (write_request hname h₀ h₁) (fun _ => trivial) h⟩

/-- The caller of `read_late_confirmation`: a symbol of two letters, and no data to send. -/
def exampleSymbol : List UInt8 := [0x4d, 0x57]

/-- A first attempt whose confirmation comes ten seconds after its start and leaves two bytes,
and a second one in time. -/
def lateThenInTime : List S7Reply :=
  [⟨0, S7_OK, 0, 0, 0, 0⟩, ⟨0, 0, S7_INITIATE_CNF, 0, 0, 1⟩, ⟨0, 0, S7_READ_CNF, S7_OK, 2, 10⟩,
    ⟨11, S7_OK, 0, 0, 0, 0⟩, ⟨0, 0, S7_INITIATE_CNF, 0, 0, 12⟩,
    ⟨0, 0, S7_READ_CNF, S7_OK, 2, 13⟩]

/-- `Read` of four bytes: the late confirmation succeeds, the request is initiated again, and the
second attempt offers a capacity of two. -/
theorem read_late_confirmation :
    ¬ (read exampleSymbol).KeepsCallerData 4 (fun _ => 0) lateThenInTime ∧
      ¬ (read exampleSymbol).Settles 4 lateThenInTime := by
  constructor
  · rintro ⟨-, h⟩
    have h6 := h [.getReadCnf 2 S7_OK, .abort] (by decide) (.getReadCnf 2 S7_OK) (by decide)
    change ((2 : ℕ) : ℤ) = 4 at h6
    exact absurd h6 (by decide)
  · intro h
    obtain ⟨v, -, -, hquiet⟩ :=
      h (lateThenInTime.take 2) ⟨0, 0, S7_READ_CNF, S7_OK, 2, 10⟩ (lateThenInTime.drop 3) rfl
        (by decide)
    exact absurd (hquiet [.initiateReq] (by decide)) (by decide)

/-- `keeps_promises` where the confirmation comes in time. -/
theorem keeps_promises_in_time :
    KeepsPromises (read exampleSymbol) 4 (fun _ => 0) (lateThenInTime.drop 3) ∧
      KeepsPromises (write exampleSymbol (fun _ => 0)) 4 (fun _ => 0)
        [⟨0, S7_OK, 0, 0, 0, 0⟩, ⟨0, 0, S7_INITIATE_CNF, 0, 0, 1⟩,
          ⟨0, 0, S7_WRITE_CNF, S7_OK, 0, 9⟩] :=
  ⟨(keeps_promises (by decide) (by decide) _).1 (by decide)
      (by simp only [RequestLoop.Late]; decide),
    (keeps_promises (by decide) (by decide) _).2 (by decide)
      (by simp only [RequestLoop.Late]; decide)⟩

end SapiS7

end Edps
