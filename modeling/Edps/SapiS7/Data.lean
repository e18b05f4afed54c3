import Edps.Lib.BigEndian
import Edps.Lib.CString
import Edps.OpcS7.Params
import Edps.SapiS7.Connection

/-!
# The data of SAPI-S7 requests

`ReadData` and `WriteData` turn texts into the bytes of a PLC and back.  Numbers go through the
union `ConvHeap`, whose bytes are swapped by hand; a `STRING*n` is sent from where its text stands.

* `convertLng`, `convert2Lng`, `convertInt`, `convert2Int` : the swaps.
* `readData`, `writeData` : the functions, up to the requests of `Read` and `Write`.
* `WriteCall.sends_iff` : what a run of `Write` sends, settled by the passes that build a request.
-/

namespace Edps

namespace SapiS7

open OpcS7

/-! ### Words -/

/-- The union `ConvHeap`, by its bytes. -/
structure ConvHeap where
  s0 : UInt8
  s1 : UInt8
  s2 : UInt8
  s3 : UInt8
  deriving DecidableEq, Repr

/-- The bits of a `long`, an `int` or a `DWORD`. -/
def ConvHeap.ofLong (n : ℤ) : ConvHeap :=
  ⟨lowByte n, lowByte (n / 256), lowByte (n / 256 / 256), lowByte (n / 256 / 256 / 256)⟩

/-- `dw` -/
def ConvHeap.dw (ss : ConvHeap) : ℕ :=
  ss.s0.toNat + 256 * (ss.s1.toNat + 256 * (ss.s2.toNat + 256 * ss.s3.toNat))

/-- `l`, also `i` -/
def ConvHeap.l (ss : ConvHeap) : ℤ := toLong ss.dw

/-- The bytes of `dw` in memory. -/
def ConvHeap.dwBytes (ss : ConvHeap) : List UInt8 := [ss.s0, ss.s1, ss.s2, ss.s3]

/-- The bytes of `sw` in memory. -/
def ConvHeap.swBytes (ss : ConvHeap) : List UInt8 := [ss.s0, ss.s1]

/-- All four bytes the other way round. -/
def ConvHeap.swapped (ss : ConvHeap) : ConvHeap :=
  let pData := ss.s0
  let ss := { ss with s0 := ss.s3 }
  let ss := { ss with s3 := pData }
  let pData := ss.s1
  let ss := { ss with s1 := ss.s2 }
  { ss with s2 := pData }

/-- `Convert2Flt`, the bits of the `float` -/
def convert2Flt (pData : ℕ → UInt8) : UInt32 :=
  UInt32.ofNat (⟨pData 3, pData 2, pData 1, pData 0⟩ : ConvHeap).dw

/-- `ConvertFlt`, by the bits of the `float` -/
def convertFlt (data : UInt32) : List UInt8 := (ConvHeap.ofLong data.toNat).swapped.dwBytes

/-- `Convert2Lng` -/
def convert2Lng (pData : ℕ → UInt8) : ℤ := (⟨pData 3, pData 2, pData 1, pData 0⟩ : ConvHeap).l

/-- `ConvertLng` -/
def convertLng (data : ℤ) : List UInt8 := (ConvHeap.ofLong data).swapped.dwBytes

/-- `Convert2Int` -/
def convert2Int (pData : ℕ → UInt8) : ℤ := (⟨pData 1, pData 0, 0, 0⟩ : ConvHeap).l

/-- `ConvertInt` -/
def convertInt (data : ℤ) : List UInt8 :=
  let ss := ConvHeap.ofLong data
  let pData := ss.s0
  let ss := { ss with s0 := ss.s1 }
  let ss := { ss with s1 := pData }
  let ss := { ss with s2 := 0, s3 := 0 }
  ss.swBytes

/-! ### Reading -/

/-- A variable in memory, and what stands behind it. -/
def inMemory (bytes : List UInt8) (behind : ℕ → UInt8) : ℕ → UInt8 :=
  fun i => bytes.getD i (behind i)

/-- `ReadData`, with `Read` by the length it is asked for: what it returns, and the buffer it
leaves.  The text is `none` where it says that something went wrong.  `gcvt` is `_gcvt(x, 12, _)` of
the bits of a `float`. -/
def readData (gcvt : UInt32 → Bytes) (szType : Bytes) (read : ℤ → ℤ × (ℕ → UInt8)) :
    ℤ × Option Bytes :=
  let result (nBufLen : ℤ) (text : (ℕ → UInt8) → Bytes) : ℤ × Option Bytes :=
    let (res, pDataBuf) := read nBufLen
    if res < 0 then (res, none) else (res, some (text pDataBuf))
  if szType = ascii "BIT" then result 1 fun bData => ltoa (bData 0 &&& 1).toNat
  else if szType = ascii "FLOAT" then result 4 fun dwData => gcvt (convert2Flt dwData)
  else if szType = ascii "LONG" then result 4 fun dwData => ltoa (convert2Lng dwData)
  else if szType = ascii "INTEGER" then result 2 fun wData => ltoa (convert2Int wData)
  else if szType.take 7 = ascii "STRING*" then
    let num := atol (szType.drop 7)
    if 0 < num then result num fun bsData => (List.range num.toNat).map bsData
    else (-1, none)
  else (-1, none)

/-! ### Writing -/

/-- The arguments of a call of `Write`. -/
structure WriteCall where
  szMemory : Bytes
  pDataBuf : ℕ → UInt8
  nBufLen : ℤ

/-- `WriteData`, as far as its call of `Write`; the refusals are negative results.  `stack` is what
stands behind its local variables. -/
def writeData (crt : Crt) (stack : ℕ → UInt8) (szItemName szType : Bytes) (szData : CString) :
    Except ℤ WriteCall :=
  if szType = ascii "BIT" then
    .ok ⟨szItemName, inMemory [lowByte (atol szData.text)] stack, 1⟩
  else if szType = ascii "FLOAT" then
    .ok ⟨szItemName, inMemory (convertFlt (crt.atof szData.text)) stack, 4⟩
  else if szType = ascii "LONG" then
    .ok ⟨szItemName, inMemory (convertLng (atol szData.text)) stack, 4⟩
  else if szType = ascii "INTEGER" then
    .ok ⟨szItemName, inMemory (convertInt (atol szData.text)) stack, 2⟩
  else if szType.take 7 = ascii "STRING*" then
    let num := atol (szType.drop 7)
    if 0 < num then .ok ⟨szItemName, szData.byte, num⟩
    else .error (-5)
  else .error (-6)

/-! ### What a run sends -/

/-- A write request has just that length and value. -/
def S7Call.Carries (sent : ℕ → List UInt8 → Prop) : S7Call → Prop
  | .writeReq _ varLength value => sent varLength value
  | _ => True

/-- The pass that builds the request. -/
def Builds (s : LoopState) (r : S7Reply) : Prop := s.phase = .loop ∧ r.message = S7_INITIATE_CNF

namespace RequestLoop

variable {L : RequestLoop} {sent : ℕ → List UInt8 → Prop}

/-- A pass stays within the parameter block, and what it sends is as it should be. -/
def Careful (L : RequestLoop) (sent : ℕ → List UInt8 → Prop) (s : LoopState) (r : S7Reply) : Prop :=
  (L.step s r).1.phase ≠ .overrun ∧ ∀ c ∈ (L.step s r).2, c.Carries sent

theorem phase_endOfPass {s : LoopState} (hs : s.phase ≠ .overrun) (r : S7Reply)
    (calls : List S7Call) : (L.endOfPass s r calls).1.phase ≠ .overrun := by
  unfold endOfPass
  split_ifs
  · simp
  · simp
  · exact hs

theorem carries_endOfPass {calls : List S7Call} (hc : ∀ c ∈ calls, c.Carries sent)
    (s : LoopState) (r : S7Reply) : ∀ c ∈ (L.endOfPass s r calls).2, c.Carries sent := by
  intro c hmem
  rcases mem_endOfPass hmem with h | rfl
  · exact hc c h
  · trivial

section Request

variable {s : LoopState} {r : S7Reply} (h : Builds s r)

include h

theorem step_request_some {req : S7Call} (hreq : L.request s.nBufLen = some req) :
    L.step s r = L.endOfPass s r [.getInitiateCnf, req] := by
  have hno : S7_INITIATE_CNF ≠ S7_NO_MSG := by decide
  simp only [step, h.1, h.2, hno, if_false, if_true, hreq]

theorem step_request_none (hreq : L.request s.nBufLen = none) :
    L.step s r = ({ s with phase := .overrun }, [.getInitiateCnf]) := by
  have hno : S7_INITIATE_CNF ≠ S7_NO_MSG := by decide
  simp only [step, h.1, h.2, hno, if_false, if_true, hreq]

end Request

/-- Only the pass that builds the request can go wrong. -/
theorem careful_iff (hcnf : ∀ n r, (L.confirm n r).1.Carries sent) {s : LoopState}
    (hs : s.phase ≠ .overrun) (r : S7Reply) :
    L.Careful sent s r ↔
      (Builds s r → ∃ req, L.request s.nBufLen = some req ∧ req.Carries sent) := by
  cases hp : s.phase with
  | overrun => exact absurd hp hs
  | returned v =>
    refine iff_of_true ?_ fun h => absurd (hp.symm.trans h.1) (by simp)
    rw [Careful, step_returned hp]
    exact ⟨hs, by simp⟩
  | startPoint =>
    refine iff_of_true ?_ fun h => absurd (hp.symm.trans h.1) (by simp)
    simp only [Careful, step, hp]
    split_ifs <;> simp [S7Call.Carries]
  | loop =>
    by_cases hinit : r.message = S7_INITIATE_CNF
    · have hbuilds : Builds s r := ⟨hp, hinit⟩
      rw [imp_iff_right hbuilds]
      cases hreq : L.request s.nBufLen with
      | none =>
        rw [Careful, step_request_none hbuilds hreq]
        simp
      | some req =>
        rw [Careful, step_request_some hbuilds hreq]
        simp only [Option.some.injEq, exists_eq_left']
        constructor
        · rintro ⟨-, hcalls⟩
          refine hcalls req ?_
          unfold endOfPass
          split_ifs <;> simp
        · intro hsent
          exact ⟨phase_endOfPass hs r _, carries_endOfPass (by simpa [S7Call.Carries]) s r⟩
    · refine iff_of_true ?_ fun h => absurd h.2 hinit
      simp only [Careful, step, hp, hinit, if_false]
      split_ifs
      · exact ⟨phase_endOfPass hs r _, carries_endOfPass (by simp) s r⟩
      · refine ⟨phase_endOfPass (by simp) r _, carries_endOfPass ?_ _ r⟩
        simp only [List.forall_mem_cons]
        exact ⟨hcnf _ _, trivial, by simp⟩
      · exact ⟨by simp, by simp⟩

/-- Behind an overrun nothing is defined any more. -/
theorem after_overrun {s : LoopState} (h : s.phase = .overrun) (rs : List S7Reply) :
    L.machine.after s rs = s := by
  induction rs with
  | nil => rfl
  | cons r rs ih =>
    have hnext : L.machine.next s r = (s, []) := by
      show L.step s r = (s, [])
      simp [step, h]
    rw [Machine.after_cons, hnext]
    exact ih

/-- **What a run sends**, pass by pass. -/
theorem run_iff_careful {s : LoopState} (hs : s.phase ≠ .overrun) (rs : List S7Reply) :
    ((L.machine.after s rs).phase ≠ .overrun ∧
        ∀ calls ∈ L.machine.outs s rs, ∀ c ∈ calls, c.Carries sent) ↔
      L.machine.EachStep (L.Careful sent) s rs := by
  induction rs generalizing s with
  | nil => simpa using hs
  | cons r rs ih =>
    have hnext : L.machine.next s r = L.step s r := rfl
    rw [Machine.after_cons, Machine.outs_cons, List.forall_mem_cons, Machine.eachStep_cons, hnext]
    by_cases hover : (L.step s r).1.phase = .overrun
    · refine iff_of_false ?_ fun h => h.1.1 hover
      rintro ⟨hend, -⟩
      rw [after_overrun hover] at hend
      exact hend hover
    · rw [← ih hover]
      constructor
      · rintro ⟨hend, hcalls, hrest⟩
        exact ⟨⟨hover, hcalls⟩, hend, hrest⟩
      · rintro ⟨⟨-, hcalls⟩, hend, hrest⟩
        exact ⟨hend, hcalls, hrest⟩

end RequestLoop

namespace WriteCall

variable (c : WriteCall)

/-- The loop of the call. -/
def loop : RequestLoop := write c.szMemory c.pDataBuf

/-- A run of the call stays within the parameter block, and its requests are as they should be. -/
def Sends (sent : ℕ → List UInt8 → Prop) (rs : List S7Reply) : Prop :=
  (c.loop.machine.after (entry c.nBufLen) rs).phase ≠ .overrun ∧
    ∀ calls ∈ c.loop.machine.outs (entry c.nBufLen) rs, ∀ call ∈ calls, call.Carries sent

/-- **What a run of `Write` sends** is settled by the passes that build a request. -/
theorem sends_iff (sent : ℕ → List UInt8 → Prop) (rs : List S7Reply) :
    c.Sends sent rs ↔ c.loop.machine.EachStep (fun s r => Builds s r →
      c.szMemory.length ≤ 33 ∧ 0 ≤ s.nBufLen ∧ s.nBufLen ≤ 256 ∧
        sent s.nBufLen.toNat ((List.range s.nBufLen.toNat).map c.pDataBuf))
      (entry c.nBufLen) rs := by
  have hs : (entry c.nBufLen).phase ≠ .overrun := by simp [entry]
  refine (RequestLoop.run_iff_careful hs rs).trans ?_
  have hstep (s) (r) (_ : s.phase ≠ .overrun)
      (h : c.loop.Careful sent s r) : (c.loop.machine.next s r).1.phase ≠ .overrun := h.1
  refine Machine.eachStep_iff_of_invariant hstep (fun s r hs => ?_) hs
  rw [@RequestLoop.careful_iff c.loop sent (fun _ _ => trivial) s hs r]
  refine imp_congr_right fun _ => ?_
  have hreq : c.loop.request s.nBufLen =
      if c.szMemory.length ≤ 33 ∧ 0 ≤ s.nBufLen ∧ s.nBufLen ≤ 256 then
        some (.writeReq c.szMemory s.nBufLen.toNat
          ((List.range s.nBufLen.toNat).map c.pDataBuf))
      else none := rfl
  rw [hreq]
  split_ifs with hroom
  · simp only [Option.some.injEq, exists_eq_left']
    exact ⟨fun h => ⟨hroom.1, hroom.2.1, hroom.2.2, h⟩, fun h => h.2.2.2⟩
  · exact iff_of_false (by simp) fun h => hroom ⟨h.1, h.2.1, h.2.2.1⟩

end WriteCall

end SapiS7

end Edps
