import Edps.OpcS7.Accesses

/-!
# The bounds of a request

When `ParseRequest` stays within the request and its buffer.  The buffer itself is large enough:
what a record leaves in it is shorter than the record.  All that can go wrong is a field that is
announced longer than the rest of the request; from there on the parsing is lost.

* `safeFrom_field` : one field of a record, and what follows it.
* `safe_iff_whole`, `inBounds_iff` : the parsing stays within its bounds exactly when the fields
  are whole.
* `inBounds_of_records` : requests made of records are parsed within their bounds.
-/

namespace Edps

namespace OpcS7

variable {request : CString} {s : Scan}

/-! ### The loop -/

section Loop

variable (request) (crt : Crt) (bReadRequest : Bool)

/-- From a state on the loop ends, inside. -/
def Safe (s : Scan) : Prop :=
  ∃ fuel s', scanRounds request crt bReadRequest fuel s = some s' ∧
    s'.Inside request.text.length

/-- From the rest of a round on the loop ends, inside. -/
def SafeFrom (x : ScanM Unit) (s : Scan) : Prop :=
  match x s with
  | .ok _ s' => Safe request crt bReadRequest s'
  | .error _ s' => s'.Inside request.text.length

variable {request crt bReadRequest}

theorem safe_iff :
    Safe request crt bReadRequest s ↔
      SafeFrom request crt bReadRequest (scanRound request crt bReadRequest) s := by
  unfold Safe SafeFrom
  constructor
  · rintro ⟨fuel, s', hs', hin⟩
    cases fuel with
    | zero => cases hs'
    | succ fuel =>
      rw [scanRounds] at hs'
      cases hround : scanRound request crt bReadRequest s with
      | ok a t =>
        rw [hround] at hs'
        exact ⟨fuel, s', hs', hin⟩
      | error e t =>
        rw [hround] at hs'
        cases hs'
        exact hin
  · intro h
    cases hround : scanRound request crt bReadRequest s with
    | ok a t =>
      rw [hround] at h
      obtain ⟨fuel, s', hs', hin⟩ := h
      exact ⟨fuel + 1, s', by rw [scanRounds, hround]; exact hs', hin⟩
    | error e t =>
      rw [hround] at h
      exact ⟨1, t, by rw [scanRounds, hround], h⟩

theorem safeFrom_of_ok {x : ScanM ℕ} {n : ℕ} {s' : Scan} (h : x s = .ok n s')
    (f : ℕ → ScanM Unit) :
    SafeFrom request crt bReadRequest (x >>= f) s ↔ SafeFrom request crt bReadRequest (f n) s' := by
  rw [SafeFrom, bind_of_ok h, SafeFrom]

/-- What is lost stays lost, as long as the loop runs. -/
theorem not_safe_of_lost (h : s.Lost request.text.length) : ¬ Safe request crt bReadRequest s := by
  rintro ⟨fuel, s', hs', hin⟩
  induction fuel generalizing s with
  | zero => cases hs'
  | succ fuel ih =>
    have hout := @lost_scanRound request _ crt bReadRequest s h
    rw [scanRounds] at hs'
    cases hround : scanRound request crt bReadRequest s with
    | ok a t =>
      rw [hround] at hs'
      rw [endState_of_ok hround] at hout
      exact ih (.of_not_inside hout) hs'
    | error e t =>
      rw [hround] at hs'
      rw [endState_of_error hround] at hout
      cases hs'
      exact hout hin

theorem not_safeFrom_of_ensures {P : Scan → Prop} {x : ScanM Unit}
    (hx : Ensures P (fun s => ¬ s.Inside request.text.length) x) (h : P s) :
    ¬ SafeFrom request crt bReadRequest x s := by
  have hout := hx s h
  unfold SafeFrom
  cases hxs : x s with
  | ok a t =>
    rw [endState_of_ok hxs] at hout
    exact not_safe_of_lost (.of_not_inside hout)
  | error e t =>
    rw [endState_of_error hxs] at hout
    exact hout

/-- Before a field: inside, and `szPtr` at most `e` places ahead of the request. -/
structure Scan.Ready (s : Scan) (L e : ℕ) : Prop where
  inside : s.Inside L
  request : s.szRequest ≤ L
  ptr : s.szPtr ≤ s.szRequest + e

/-- **One field of a record**, other than an id: what follows it is reached exactly when it is
whole. -/
theorem safeFrom_field {b : Bool} {f : ℕ → ScanM Unit} {k e : ℕ}
    (hk : ¬ (bReadRequest = true ∧ k = 4)) (he : e ≤ 3) (hs : s.Ready request.text.length e)
    (hlost : ∀ n s', s'.Lost request.text.length → ¬ SafeFrom request crt bReadRequest (f n) s')
    (hnext : ∀ n, s.szRequest + 3 + n ≤ request.text.length →
      (s.behind request b n).Inside request.text.length →
      (SafeFrom request crt bReadRequest (f (3 + n)) (s.behind request b n) ↔
        Whole bReadRequest (if k = 5 then 0 else k + 1)
          (request.text.drop (s.szRequest + 3 + n)))) :
    SafeFrom request crt bReadRequest (field request b >>= f) s ↔
      Whole bReadRequest k (request.text.drop s.szRequest) := by
  cases h : announced (request.text.drop s.szRequest) with
  | none =>
    obtain ⟨l, hl, hle⟩ := field_error hs.request h b
    rw [SafeFrom, bind_of_error hl]
    exact iff_of_true (hs.inside.read hle) (whole_of_none h)
  | some c =>
    obtain ⟨n, rest⟩ := c
    obtain ⟨hlen, hrest⟩ := announced_some h
    rw [List.length_drop] at hlen
    rw [List.drop_drop] at hrest
    subst hrest
    rw [safeFrom_of_ok (field_ok hs.request h b), whole_iff_of_some h, if_neg hk]
    by_cases hn : n ≤ (request.text.drop (s.szRequest + 3)).length
    · have hptr := hs.ptr
      have hin : (s.behind request b n).Inside request.text.length :=
        (inside_behind (by omega) b).2 ⟨hs.inside, fun _ => ⟨by omega, by omega⟩⟩
      rw [hnext n (by omega) hin, List.drop_drop]
      exact (and_iff_right hn).symm
    · refine iff_of_false (hlost _ _ fun _ => ?_) fun h => hn h.1
      rw [szRequest_behind]
      omega

/-! ### A record -/

section Record

variable {p : ℕ}
  (hloop : ∀ s : Scan, s.Ready request.text.length 0 → p < s.szRequest →
    (Safe request crt bReadRequest s ↔
      Whole bReadRequest 0 (request.text.drop s.szRequest)))

include hloop

theorem safeFrom_scanLength (hbRead : bReadRequest = false) (pszItemId pszType pszValue : ℕ)
    (hs : s.Ready request.text.length 0) (hp : p ≤ s.szRequest) :
    SafeFrom request crt bReadRequest (scanLength request crt pszItemId pszType pszValue) s ↔
      Whole bReadRequest 5 (request.text.drop s.szRequest) := by
  refine safeFrom_field (by simp [hbRead]) (by omega) hs (fun n s' hs' => ?_) fun n hn hin => ?_
  · exact not_safe_of_lost (s := s'.add _) hs'
  · have hptr := hs.ptr
    exact hloop ((s.behind request false n).add _) ⟨hin, hn, by simp; omega⟩ (by simp; omega)

theorem safeFrom_scanValue (hbRead : bReadRequest = false) (pszItemId pszType : ℕ)
    (hs : s.Ready request.text.length 0) (hp : p ≤ s.szRequest) :
    SafeFrom request crt bReadRequest (scanValue request crt pszItemId pszType) s ↔
      Whole bReadRequest 4 (request.text.drop s.szRequest) := by
  refine safeFrom_field (by simp [hbRead]) (by omega) hs (fun n s' hs' => ?_) fun n hn hin => ?_
  · exact not_safeFrom_of_ensures (skip_lost (lost_scanLength _ _ _)) hs'
  · have hptr := hs.ptr
    exact safeFrom_scanLength hloop hbRead pszItemId pszType s.szPtr
      (s := { s.behind request true n with szPtr := s.szPtr + (3 + n - 2) })
      ⟨hin, hn, by simp; omega⟩ (by simp; omega)

omit hloop in
/-- A field as it stands in the buffer behind it. -/
theorem text_behind (n : ℕ) :
    (s.behind request true n).text s.szPtr (3 + n - 2) =
      cstr (request.bytes (s.szRequest + 3) n ++ [0]) := by
  have hlen : (request.bytes (s.szRequest + 3) n ++ [0]).length = 3 + n - 2 := by
    simp
    omega
  rw [Scan.text]
  congr 1
  refine List.ext_getElem (by simpa using hlen.symm) fun i hi hi' => ?_
  simp only [List.getElem_map, List.getElem_range, Scan.behind, if_true, written]
  rw [if_pos (Nat.le_add_right _ _), Nat.add_sub_cancel_left, List.getD,
    List.getElem?_eq_getElem hi', Option.getD_some]

omit hloop in
theorem text_behind_of_le {n : ℕ} (h : s.szRequest + 3 + n ≤ request.text.length) :
    (s.behind request true n).text s.szPtr (3 + n - 2) =
      (request.text.drop (s.szRequest + 3)).take n := by
  rw [text_behind, CString.bytes_of_le h]
  exact cstr_append_zero (fun c hc =>
    request.noNul c (List.mem_of_mem_drop (List.mem_of_mem_take hc))) []

omit hloop in
/-- A field that takes in the terminator ends before it. -/
theorem text_behind_terminator {n : ℕ} (h : s.szRequest + 3 + n = request.text.length + 1)
    (hs : s.szRequest + 3 ≤ request.text.length) :
    (s.behind request true n).text s.szPtr (3 + n - 2) = request.text.drop (s.szRequest + 3) := by
  rw [text_behind, CString.bytes_terminator h hs, List.append_assoc]
  exact cstr_append_zero (fun c hc => request.noNul c (List.mem_of_mem_drop hc)) [0]

omit hloop in
/-- An id that is not positive ends the loop. -/
theorem safeFrom_takeId {n : ℕ} {id : Bytes} (pszItemId : ℕ)
    (hid : (s.behind request true n).text s.szPtr (3 + n - 2) = id) :
    SafeFrom request crt bReadRequest (takeId pszItemId (3 + n)) (s.behind request true n) ↔
      if 0 < atol id then
        Safe request crt bReadRequest
          ((s.behind request true n).add ⟨(atol id).toNat, pszItemId, .empty⟩)
      else (s.behind request true n).Inside request.text.length := by
  rw [SafeFrom, takeId, bind_get, szPtr_behind, hid]
  split_ifs with hle hpos hpos
  · omega
  · rfl
  · rfl
  · omega

theorem safeFrom_scanId (hbRead : bReadRequest = true) (pszItemId : ℕ)
    (hs : s.Ready request.text.length 0) (hp : p ≤ s.szRequest) :
    SafeFrom request crt bReadRequest (scanId request pszItemId) s ↔
      Whole bReadRequest 4 (request.text.drop s.szRequest) := by
  have hptr := hs.ptr
  cases h : announced (request.text.drop s.szRequest) with
  | none =>
    obtain ⟨l, hl, hle⟩ := field_error hs.request h true
    rw [SafeFrom, scanId, bind_of_error hl]
    exact iff_of_true (hs.inside.read hle) (whole_of_none h)
  | some c =>
    obtain ⟨n, rest⟩ := c
    obtain ⟨hlen, hrest⟩ := announced_some h
    rw [List.length_drop] at hlen
    rw [List.drop_drop] at hrest
    rw [scanId, safeFrom_of_ok (field_ok hs.request h true), whole_iff_of_some h,
      if_pos ⟨hbRead, rfl⟩]
    have hin := @inside_behind request s n request.text.length (by omega) true
    rcases Nat.lt_trichotomy n (rest.length + 1) with hn | hn | hn
    · rw [safeFrom_takeId pszItemId (text_behind_of_le (by omega)), hrest]
      split_ifs with hpos
      · have hin : (s.behind request true n).Inside request.text.length :=
          hin.2 ⟨hs.inside, fun _ => by omega⟩
        rw [hloop ((s.behind request true n).add _) ⟨hin, by simp; omega, by simp; omega⟩
          (by simp; omega)]
        simp only [szRequest_add, szRequest_behind, ← hrest, List.drop_drop]
        exact (and_iff_right (by rw [hrest]; omega)).symm
      · exact iff_of_true (hin.2 ⟨hs.inside, fun _ => by omega⟩) hn.le
    · -- the id takes in the terminator
      rw [safeFrom_takeId pszItemId (text_behind_terminator (by omega) (by omega)), hrest,
        List.take_of_length_le (by omega)]
      split_ifs with hpos
      · exact iff_of_false
          (not_safe_of_lost (s := (s.behind request true n).add _) fun _ => by simp; omega)
          fun h => by omega
      · exact iff_of_true (hin.2 ⟨hs.inside, fun _ => by omega⟩) hn.le
    · have hout : ¬ (s.behind request true n).Inside request.text.length := fun h => by
        have := ((hin.1 h).2 rfl).1
        omega
      refine iff_of_false ?_ ?_
      · exact not_safeFrom_of_ensures (preserves_takeId _ _) hout
      · split_ifs
        · exact fun h => by omega
        · omega

theorem safeFrom_scanType (pszItemId : ℕ)
    (hs : s.Ready request.text.length 0) (hp : p ≤ s.szRequest) :
    SafeFrom request crt bReadRequest (scanType request crt bReadRequest pszItemId) s ↔
      Whole bReadRequest 3 (request.text.drop s.szRequest) := by
  refine safeFrom_field (by omega) (by omega) hs (fun n s' hs' => ?_) fun n hn hin => ?_
  · refine not_safeFrom_of_ensures (skip_lost ?_) hs'
    cases bReadRequest with
    | true => exact lost_scanId _
    | false => exact lost_scanValue _ _
  · have hptr := hs.ptr
    have hready : ({ s.behind request true n with
        szPtr := s.szPtr + (3 + n - 2) } : Scan).Ready request.text.length 0 :=
      ⟨hin, hn, by simp; omega⟩
    cases bReadRequest with
    | true => exact safeFrom_scanId hloop rfl pszItemId hready (by simp; omega)
    | false => exact safeFrom_scanValue hloop rfl pszItemId s.szPtr hready (by simp; omega)

theorem safeFrom_scanItem (pszItemId : ℕ)
    (hs : s.Ready request.text.length 0) (hp : p ≤ s.szRequest) :
    SafeFrom request crt bReadRequest (scanItem request crt bReadRequest pszItemId) s ↔
      Whole bReadRequest 2 (request.text.drop s.szRequest) := by
  refine safeFrom_field (by omega) (by omega) hs (fun n s' hs' => ?_) fun n hn hin => ?_
  · exact not_safeFrom_of_ensures (skip_lost (lost_scanType _)) hs'
  · have hptr := hs.ptr
    exact safeFrom_scanType hloop pszItemId
      (s := { s.behind request true n with szPtr := s.szPtr + (3 + n - 2) })
      ⟨hin, hn, by simp; omega⟩ (by simp; omega)

theorem safeFrom_scanConn (pszItemId : ℕ)
    (hs : s.Ready request.text.length 1) (hp : p ≤ s.szRequest) :
    SafeFrom request crt bReadRequest (scanConn request crt bReadRequest pszItemId) s ↔
      Whole bReadRequest 1 (request.text.drop s.szRequest) := by
  have hlen : (ascii "]").length = 1 := by decide +kernel
  refine safeFrom_field (by omega) (by omega) hs (fun n s' hs' => ?_) fun n hn hin => ?_
  · exact not_safeFrom_of_ensures (skip_lost (put_lost (skip_lost (lost_scanItem _)))) hs'
  · have hptr := hs.ptr
    set t : Scan := { s.behind request true n with szPtr := s.szPtr + (3 + n - 3) } with ht
    have ht' : t.Inside request.text.length := hin
    have hput : (t.write (ascii "]")).Inside request.text.length :=
      ht'.write (by simp only [ht, hlen]; omega)
    exact safeFrom_scanItem hloop pszItemId
      (s := { t.write (ascii "]") with szPtr := s.szPtr + (3 + n - 3) + 1 })
      ⟨hput, hn, by simp [Scan.write, ht]; omega⟩ (by simp [Scan.write, ht]; omega)

/-- A round of the loop, if the rounds behind it are known. -/
theorem safe_round (hs : s.Ready request.text.length 0) (hp : p = s.szRequest) :
    Safe request crt bReadRequest s ↔
      Whole bReadRequest 0 (request.text.drop s.szRequest) := by
  have hlen : (ascii "S7:[").length = 4 := by decide +kernel
  rw [safe_iff]
  refine safeFrom_field (by omega) (by omega) hs (fun n s' hs' => ?_) fun n hn hin => ?_
  · exact not_safeFrom_of_ensures (.get_bind fun _ => put_lost (skip_lost (lost_scanConn _))) hs'
  · have hptr := hs.ptr
    set t : Scan := s.behind request false n with ht
    have hput : (t.write (ascii "S7:[")).Inside request.text.length :=
      hin.write (by simp only [ht, szPtr_behind, hlen]; omega)
    exact safeFrom_scanConn hloop s.szPtr
      (s := { t.write (ascii "S7:[") with szPtr := s.szPtr + 4 })
      ⟨hput, hn, by simp [Scan.write, ht]; omega⟩ (by simp [Scan.write, ht]; omega)

end Record

/-- **The loop from any state before a record.** -/
theorem safe_iff_whole (hs : s.Ready request.text.length 0) :
    Safe request crt bReadRequest s ↔
      Whole bReadRequest 0 (request.text.drop s.szRequest) := by
  induction hm : request.text.length - s.szRequest using Nat.strongRecOn generalizing s with
  | ind m ih =>
    refine safe_round (fun s' hs' hlt => ?_) hs rfl
    have := hs'.request
    exact ih _ (by omega) hs' rfl

end Loop

/-- **When a request is parsed within its bounds**: exactly when its fields are whole. -/
theorem inBounds_iff (request : CString) (crt : Crt) (bReadRequest : Bool) (malloc : ℕ → UInt8) :
    InBounds request crt bReadRequest malloc ↔ Whole bReadRequest 0 request.text := by
  have hs : (⟨0, 0, malloc, [], [], []⟩ : Scan).Ready request.text.length 0 :=
    ⟨⟨by simp, by simp⟩, Nat.zero_le _, le_rfl⟩
  exact safe_iff_whole hs

/-- A request that ends behind the length of its first field. -/
def cutRequest : CString := ⟨ascii "001", by decide +kernel, fun _ => 0⟩

/-- The field behind the missing one is looked for behind the terminator. -/
theorem not_inBounds_cutRequest :
    ¬ ∀ (request : CString) (crt : Crt) (bReadRequest : Bool) (malloc : ℕ → UInt8),
      InBounds request crt bReadRequest malloc := by
  intro h
  have hs : (⟨0, 0, fun _ => 0, [], [], []⟩ : Scan).Ready cutRequest.text.length 0 :=
    ⟨⟨by simp, by simp⟩, Nat.zero_le _, le_rfl⟩
  have hwhole := (safe_iff_whole hs).1 (h cutRequest exampleCrt true fun _ => 0)
  have hannounced : announced (cutRequest.text.drop 0) = some (1, []) := by decide +kernel
  rw [whole_iff_of_some hannounced] at hwhole
  simp at hwhole

/-! ### Requests made of records -/

/-- A field that is read is announced with its length. -/
theorem announced_of_getNextValue {text value rest : Bytes}
    (h : getNextValue text = .ok (value, rest)) :
    announced text = some (value.length, value ++ rest) := by
  unfold getNextValue at h
  split at h
  · cases h
  · dsimp only at h
    split_ifs at h with hdigits hlen
    obtain ⟨rfl, rfl⟩ := Prod.mk.inj (Except.ok.inj h)
    rw [announced, if_pos hdigits, List.take_append_drop, List.length_take, Nat.min_eq_left hlen]
  · cases h

section Records

variable {bReadRequest : Bool} {k : ℕ} {rest : Bytes}

/-- A whole field before a whole text. -/
theorem whole_framed {value : Bytes} (hk : ¬ (bReadRequest = true ∧ k = 4))
    (hlen : value.length < 1000) :
    Whole bReadRequest k (framed value ++ rest) ↔
      Whole bReadRequest (if k = 5 then 0 else k + 1) rest := by
  rw [whole_iff_of_some (announced_of_getNextValue (getNextValue_framed hlen rest)), if_neg hk,
    List.drop_left]
  exact and_iff_right (by simp)

theorem whole_read (rs : List ReadRecord) : Whole true 0 (rs.flatMap ReadRecord.encode) := by
  induction rs with
  | nil => exact whole_of_none rfl
  | cons r rs ih =>
    have hid : (ltoa r.parID).length < 1000 := (length_ltoa_lt _).trans (by decide)
    have hpos : 0 < atol (ltoa r.parID) := by
      rw [atol_ltoa r.long]
      exact_mod_cast r.positive
    rw [List.flatMap_cons, ReadRecord.encode]
    simp only [List.append_assoc]
    rw [whole_framed (by simp) r.cp.short, whole_framed (by simp) r.conn.short,
      whole_framed (by simp) r.item.short, whole_framed (by simp) r.type.short,
      whole_iff_of_some (announced_of_getNextValue (getNextValue_framed hid _)),
      if_pos (by simp), List.take_left, if_pos hpos, List.drop_left]
    exact ⟨by simp, ih⟩

theorem whole_write (rs : List WriteRecord) : Whole false 0 (rs.flatMap WriteRecord.encode) := by
  induction rs with
  | nil => exact whole_of_none rfl
  | cons r rs ih =>
    rw [List.flatMap_cons, WriteRecord.encode]
    simp only [List.append_assoc]
    rw [whole_framed (by simp) r.cp.short, whole_framed (by simp) r.conn.short,
      whole_framed (by simp) r.item.short, whole_framed (by simp) r.type.short,
      whole_framed (by simp) r.value.short, whole_framed (by simp) r.length.short]
    exact ih

/-- **Requests made of records are parsed within their bounds.** -/
theorem inBounds_of_records {request : CString} (crt : Crt) (malloc : ℕ → UInt8) :
    (∀ rs : List ReadRecord, request.text = rs.flatMap ReadRecord.encode →
      InBounds request crt true malloc) ∧
    ∀ rs : List WriteRecord, request.text = rs.flatMap WriteRecord.encode →
      InBounds request crt false malloc := by
  have hs : (⟨0, 0, malloc, [], [], []⟩ : Scan).Ready request.text.length 0 :=
    ⟨⟨by simp, by simp⟩, Nat.zero_le _, le_rfl⟩
  refine ⟨fun rs hrs => (safe_iff_whole hs).2 ?_, fun rs hrs => (safe_iff_whole hs).2 ?_⟩
  · show Whole true 0 request.text
    exact hrs ▸ whole_read rs
  · show Whole false 0 request.text
    exact hrs ▸ whole_write rs

end Records

end OpcS7

end Edps
