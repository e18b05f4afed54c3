import Edps.Lib.CString
import Edps.OpcS7.Buffer

/-!
# What the parsing of a request touches

`ParseRequest` trusts the lengths in a request: `GetNextValue` copies as many bytes as a field
announces, wherever the terminator of the request is.  Here the request stands in memory, and the
places that the parsing reads of it and writes in `m_pStringBuffer` are recorded.

* `scanRounds` : the loop of `ParseRequest` over a request in memory.
* `InBounds` : the parsing ends, and it has stayed within the request and the buffer.
* `Whole` : every field that the loop comes to ends before the terminator.
* `field_ok`, `inside_behind` : what one field touches.
* `field_lost` : behind the terminator no field is read without leaving the request.
-/

namespace Edps

namespace OpcS7

/-- What `ParseRequest` works on.  The pointers are offsets into the request and the buffer. -/
structure Scan where
  szRequest : ℕ
  szPtr : ℕ
  stringBuffer : ℕ → UInt8
  params : List BufferParam
  /-- The places of the request that have been read. -/
  reads : List ℕ
  /-- The places of the buffer that have been written. -/
  writes : List ℕ

/-- The parsing; its error is the `break` that ends the loop. -/
abbrev ScanM := EStateM Unit Scan

/-- Within a request of `nLen` characters and its terminator, and within the buffer allocated for
it. -/
def Scan.Inside (nLen : ℕ) (s : Scan) : Prop :=
  (∀ i ∈ s.reads, i ≤ nLen) ∧ ∀ i ∈ s.writes, i ≤ nLen

/-- `n` places from a place on. -/
def places (p n : ℕ) : List ℕ := (List.range n).map (p + ·)

/-- The C string at a place of the buffer, in the next `n` bytes. -/
def Scan.text (s : Scan) (p n : ℕ) : Bytes :=
  cstr ((List.range n).map fun i => s.stringBuffer (p + i))

/-- The buffer with some bytes written at a place. -/
def written (stringBuffer : ℕ → UInt8) (p : ℕ) (bytes : Bytes) : ℕ → UInt8 :=
  fun i => if p ≤ i then bytes.getD (i - p) (stringBuffer i) else stringBuffer i

/-- More places of the request read. -/
def Scan.read (s : Scan) (is : List ℕ) : Scan := { s with reads := s.reads ++ is }

/-- Bytes written at `szPtr`. -/
def Scan.write (s : Scan) (bytes : Bytes) : Scan :=
  { s with
    stringBuffer := written s.stringBuffer s.szPtr bytes
    writes := s.writes ++ places s.szPtr bytes.length }

/-- One more parameter in the list. -/
def Scan.add (s : Scan) (p : BufferParam) : Scan := { s with params := s.params ++ [p] }

/-! ### Steps -/

def put (bytes : Bytes) : ScanM Unit := modify fun s => s.write bytes

/-- `szPtr += n` -/
def skip (n : ℕ) : ScanM Unit := modify fun s => { s with szPtr := s.szPtr + n }

/-- `AddItem` of the list. -/
def scanParam (dwParID pszItemId : ℕ) (val : Variant) : ScanM Unit :=
  modify fun s => s.add ⟨dwParID, pszItemId, val⟩

variable (request : CString)

/-- `Point[i]` -/
def point (i : ℕ) : ScanM UInt8 := fun s =>
  .ok (request.byte (s.szRequest + i)) (s.read [s.szRequest + i])

/-- A digit of the length; where there is none the loop ends. -/
def pointDigit (i : ℕ) : ScanM ℕ := do
  let c ← point request i
  if isDigit c then return c.toNat - 48 else throw ()

/-- `nLen` -/
def fieldLength : ScanM ℕ := do
  let d₀ ← pointDigit request 0
  let d₁ ← pointDigit request 1
  let d₂ ← pointDigit request 2
  return d₀ * 100 + d₁ * 10 + d₂

/-- The loop that copies a field to `szPtr`, and the terminator behind it. -/
def copyField (nLen : ℕ) : ScanM Unit := do
  let s ← get
  set (s.read (places (s.szRequest + 3) nLen))
  put (request.bytes (s.szRequest + 3) nLen ++ [0])

/-- `GetNextValue`, with the step over the field. -/
def field (toBuffer : Bool) : ScanM ℕ := do
  let nLen ← fieldLength request
  if toBuffer then
    copyField request nLen
  modify fun s => { s with szRequest := s.szRequest + 3 + nLen }
  return 3 + nLen

/-! ### The record of a request, from each of its fields on -/

/-- The id of a read record, once it has been copied to `szPtr`. -/
def takeId (pszItemId lPassed : ℕ) : ScanM Unit := do
  let s ← get
  let lParID := atol (s.text s.szPtr (lPassed - 2))
  if lParID ≤ 0 then
    throw ()
  scanParam lParID.toNat pszItemId .empty

def scanId (pszItemId : ℕ) : ScanM Unit := do
  let lPassed ← field request true
  takeId pszItemId lPassed

variable (crt : Crt)

/-- The length of a value, which is not used. -/
def scanLength (pszItemId pszType pszValue : ℕ) : ScanM Unit := do
  let _ ← field request false
  let s ← get
  let szType := s.text pszType (pszValue - pszType)
  let szValue := s.text pszValue (s.szPtr - pszValue)
  scanParam (s.params.length + 1) pszItemId (typedValue crt szType szValue).1

/-- The value of a write record. -/
def scanValue (pszItemId pszType : ℕ) : ScanM Unit := do
  let pszValue := (← get).szPtr
  let lPassed ← field request true
  skip (lPassed - 2)
  scanLength request crt pszItemId pszType pszValue

variable (bReadRequest : Bool)

def scanType (pszItemId : ℕ) : ScanM Unit := do
  let pszType := (← get).szPtr
  let lPassed ← field request true
  skip (lPassed - 2)
  if bReadRequest then
    scanId request pszItemId
  else
    scanValue request crt pszItemId pszType

def scanItem (pszItemId : ℕ) : ScanM Unit := do
  let lPassed ← field request true
  skip (lPassed - 2)
  scanType request crt bReadRequest pszItemId

def scanConn (pszItemId : ℕ) : ScanM Unit := do
  let lPassed ← field request true
  skip (lPassed - 3)
  put (ascii "]")
  skip 1
  scanItem request crt bReadRequest pszItemId

/-- One round of the loop of `ParseRequest`. -/
def scanRound : ScanM Unit := do
  -- the connection point is not used
  let _ ← field request false
  let pszItemId := (← get).szPtr
  put (ascii "S7:[")
  skip 4
  scanConn request crt bReadRequest pszItemId

/-- The loop of `ParseRequest`, until it is left by a `break`; `none` while it still runs. -/
def scanRounds : ℕ → Scan → Option Scan
  | 0, _ => none
  | fuel + 1, s =>
    match scanRound request crt bReadRequest s with
    | .ok _ s => scanRounds fuel s
    | .error _ s => some s

/-- **The parsing of a request ends**, and it has read the request up to its terminator only and
written the buffer, whose contents `malloc` leaves open, up to its last byte only. -/
def InBounds (malloc : ℕ → UInt8) : Prop :=
  ∃ fuel s, scanRounds request crt bReadRequest fuel ⟨0, 0, malloc, [], [], []⟩ = some s ∧
    s.Inside request.text.length

/-! ### Whole fields -/

/-- The length that a text announces, and the text behind it. -/
def announced : Bytes → Option (ℕ × Bytes)
  | c₀ :: c₁ :: c₂ :: rest =>
    if isDigit c₀ && isDigit c₁ && isDigit c₂ then
      some ((c₀.toNat - 48) * 100 + (c₁.toNat - 48) * 10 + (c₂.toNat - 48), rest)
    else none
  | _ => none

theorem announced_some {text rest : Bytes} {nLen : ℕ} (h : announced text = some (nLen, rest)) :
    text.length = rest.length + 3 ∧ text.drop 3 = rest := by
  unfold announced at h
  split at h
  · split_ifs at h
    cases h
    exact ⟨rfl, rfl⟩
  · cases h

/-- **Every field that the loop comes to is whole**: the rest of the request has as many
characters as it announces.  `k` fields of a record stand before the text.  A read record ends the
loop with an id that is not positive, and that id may take in the terminator. -/
def Whole (bReadRequest : Bool) (k : ℕ) (text : Bytes) : Prop :=
  match h : announced text with
  | none => True
  | some (nLen, rest) =>
    have := announced_some h
    if bReadRequest ∧ k = 4 then
      if 0 < atol (rest.take nLen) then
        nLen ≤ rest.length ∧ Whole bReadRequest 0 (rest.drop nLen)
      else nLen ≤ rest.length + 1
    else nLen ≤ rest.length ∧ Whole bReadRequest (if k = 5 then 0 else k + 1) (rest.drop nLen)
termination_by text.length
decreasing_by all_goals simp only [List.length_drop]; omega

section Whole

variable {bReadRequest : Bool} {k nLen : ℕ} {text rest : Bytes}

theorem whole_of_none (h : announced text = none) : Whole bReadRequest k text := by
  rw [Whole]
  split
  · trivial
  · rename_i heq
    rw [h] at heq
    cases heq

theorem whole_iff_of_some (h : announced text = some (nLen, rest)) :
    Whole bReadRequest k text ↔
      if bReadRequest ∧ k = 4 then
        if 0 < atol (rest.take nLen) then
          nLen ≤ rest.length ∧ Whole bReadRequest 0 (rest.drop nLen)
        else nLen ≤ rest.length + 1
      else nLen ≤ rest.length ∧
        Whole bReadRequest (if k = 5 then 0 else k + 1) (rest.drop nLen) := by
  rw [Whole]
  split
  · rename_i heq
    rw [h] at heq
    cases heq
  · rename_i heq
    rw [h] at heq
    cases heq
    rfl

end Whole

/-! ### A field in memory -/

variable {request : CString} {s : Scan} {nLen : ℕ}

/-- A digit is not the terminator, and it stands before it. -/
theorem lt_length_of_digit {i : ℕ} (hi : i ≤ request.text.length)
    (h : isDigit (request.byte i) = true) : i < request.text.length := by
  refine lt_of_le_of_ne hi fun heq => ?_
  rw [request.byte_of_drop_nil hi (by rw [heq, List.drop_length])] at h
  exact absurd h (by decide)

/-- The length of a field as it stands in memory. -/
theorem announced_drop {p : ℕ} (hp : p ≤ request.text.length) :
    announced (request.text.drop p) =
      if isDigit (request.byte p) && isDigit (request.byte (p + 1)) &&
          isDigit (request.byte (p + 2)) then
        some (((request.byte p).toNat - 48) * 100 + ((request.byte (p + 1)).toNat - 48) * 10 +
          ((request.byte (p + 2)).toNat - 48), request.text.drop (p + 3))
      else none := by
  have hdrop : ∀ k, request.text.drop (p + k) = (request.text.drop p).drop k := fun k => by
    rw [List.drop_drop]
  have hzero : isDigit 0 = false := by decide
  have hlen : (request.text.drop p).length = request.text.length - p := List.length_drop
  rcases htext : request.text.drop p with _ | ⟨c₀, _ | ⟨c₁, _ | ⟨c₂, rest⟩⟩⟩
  · simp [announced, request.byte_of_drop_nil hp htext, hzero]
  · have h₁ : request.byte (p + 1) = 0 :=
      request.byte_of_drop_nil (by rw [htext, List.length_singleton] at hlen; omega)
        (by rw [hdrop, htext]; rfl)
    simp [announced, h₁, hzero]
  · have h₂ : request.byte (p + 2) = 0 :=
      request.byte_of_drop_nil
        (by rw [htext, List.length_cons, List.length_singleton] at hlen; omega)
        (by rw [hdrop, htext]; rfl)
    simp [announced, h₂, hzero]
  · have h₀ : request.byte p = c₀ := CString.byte_of_drop htext
    have h₁ : request.byte (p + 1) = c₁ :=
      @CString.byte_of_drop _ _ _ (c₂ :: rest) (by rw [hdrop, htext]; rfl)
    have h₂ : request.byte (p + 2) = c₂ :=
      @CString.byte_of_drop _ _ _ rest (by rw [hdrop, htext]; rfl)
    have h₃ : request.text.drop (p + 3) = rest := by rw [hdrop, htext]; rfl
    rw [h₀, h₁, h₂, h₃]
    rfl

section PointDigit

variable {i p : ℕ} (hp : s.szRequest + i = p)

include hp

theorem point_eq : point request i s = .ok (request.byte p) (s.read [p]) := by
  subst hp
  rfl

theorem pointDigit_ok (h : isDigit (request.byte p) = true) :
    pointDigit request i s = .ok ((request.byte p).toNat - 48) (s.read [p]) := by
  rw [pointDigit, bind_of_ok (point_eq hp), if_pos h]
  rfl

theorem pointDigit_error (h : isDigit (request.byte p) = false) :
    pointDigit request i s = .error () (s.read [p]) := by
  rw [pointDigit, bind_of_ok (point_eq hp), if_neg (by rw [h]; exact Bool.false_ne_true)]
  rfl

end PointDigit

@[simp] theorem szRequest_add (p : BufferParam) : (s.add p).szRequest = s.szRequest := rfl

@[simp] theorem szPtr_add (p : BufferParam) : (s.add p).szPtr = s.szPtr := rfl

@[simp] theorem szRequest_read (l : List ℕ) : (s.read l).szRequest = s.szRequest := rfl

@[simp] theorem szPtr_read (l : List ℕ) : (s.read l).szPtr = s.szPtr := rfl

theorem read_read (l l' : List ℕ) : (s.read l).read l' = s.read (l ++ l') := by
  simp [Scan.read]

theorem fieldLength_ok {n : ℕ} {rest : Bytes} (hs : s.szRequest ≤ request.text.length)
    (h : announced (request.text.drop s.szRequest) = some (n, rest)) :
    fieldLength request s = .ok n (s.read (places s.szRequest 3)) := by
  rw [announced_drop hs] at h
  split_ifs at h with hdigits
  cases h
  simp only [Bool.and_eq_true] at hdigits
  obtain ⟨⟨h₀, h₁⟩, h₂⟩ := hdigits
  rw [fieldLength, bind_of_ok (pointDigit_ok (Nat.add_zero _) h₀),
    bind_of_ok (@pointDigit_ok _ (s.read _) 1 _ rfl h₁),
    bind_of_ok (@pointDigit_ok _ ((s.read _).read _) 2 _ rfl h₂), read_read, read_read]
  rfl

/-- Where no field stands, the request is read as far as its terminator. -/
theorem fieldLength_error (hs : s.szRequest ≤ request.text.length)
    (h : announced (request.text.drop s.szRequest) = none) :
    ∃ l, fieldLength request s = .error () (s.read l) ∧ ∀ i ∈ l, i ≤ request.text.length := by
  rw [announced_drop hs] at h
  split_ifs at h with hdigits
  cases h₀ : isDigit (request.byte s.szRequest) with
  | false =>
    refine ⟨[s.szRequest], ?_, by simpa using hs⟩
    rw [fieldLength, bind_of_error (pointDigit_error (Nat.add_zero _) h₀)]
  | true =>
    have hlt₀ := lt_length_of_digit hs h₀
    cases h₁ : isDigit (request.byte (s.szRequest + 1)) with
    | false =>
      refine ⟨[s.szRequest, s.szRequest + 1], ?_, by simp; omega⟩
      rw [fieldLength, bind_of_ok (pointDigit_ok (Nat.add_zero _) h₀),
        bind_of_error (@pointDigit_error _ (s.read _) 1 _ rfl h₁), read_read]
      rfl
    | true =>
      have hlt₁ := lt_length_of_digit hlt₀ h₁
      have h₂ : isDigit (request.byte (s.szRequest + 2)) = false := by
        simpa [h₀, h₁] using hdigits
      refine ⟨[s.szRequest, s.szRequest + 1, s.szRequest + 2], ?_, by simp; omega⟩
      rw [fieldLength, bind_of_ok (pointDigit_ok (Nat.add_zero _) h₀),
        bind_of_ok (@pointDigit_ok _ (s.read _) 1 _ rfl h₁),
        bind_of_error (@pointDigit_error _ ((s.read _).read _) 2 _ rfl h₂), read_read, read_read]
      rfl

/-- The state behind a field of `nLen` bytes. -/
def Scan.behind (s : Scan) (request : CString) (toBuffer : Bool) (nLen : ℕ) : Scan :=
  let text := request.bytes (s.szRequest + 3) nLen ++ [0]
  { s with
    szRequest := s.szRequest + 3 + nLen
    stringBuffer := if toBuffer then written s.stringBuffer s.szPtr text else s.stringBuffer
    reads := s.reads ++ places s.szRequest 3 ++
      if toBuffer then places (s.szRequest + 3) nLen else []
    writes := s.writes ++ if toBuffer then places s.szPtr (nLen + 1) else [] }

@[simp] theorem szRequest_behind (b : Bool) (n : ℕ) :
    (s.behind request b n).szRequest = s.szRequest + 3 + n := rfl

@[simp] theorem szPtr_behind (b : Bool) (n : ℕ) : (s.behind request b n).szPtr = s.szPtr := rfl

/-- **A field in memory**: the parsing goes behind it, however long it is announced. -/
theorem field_ok {rest : Bytes} (hs : s.szRequest ≤ request.text.length)
    (h : announced (request.text.drop s.szRequest) = some (nLen, rest)) (b : Bool) :
    field request b s = .ok (3 + nLen) (s.behind request b nLen) := by
  rw [field, bind_of_ok (fieldLength_ok hs h)]
  have hlen : (request.bytes (s.szRequest + 3) nLen ++ [0]).length = nLen + 1 := by simp
  cases b with
  | false => simp [Scan.behind, Scan.read]; rfl
  | true =>
    have hcopy : copyField request nLen (s.read (places s.szRequest 3)) =
        .ok () { s.behind request true nLen with szRequest := s.szRequest } := by
      simp only [Scan.behind, if_true, ← hlen]
      rfl
    simp only [if_true]
    rw [bind_of_ok hcopy]
    rfl

theorem field_error (hs : s.szRequest ≤ request.text.length)
    (h : announced (request.text.drop s.szRequest) = none) (b : Bool) :
    ∃ l, field request b s = .error () (s.read l) ∧ ∀ i ∈ l, i ≤ request.text.length := by
  obtain ⟨l, hl, hle⟩ := fieldLength_error hs h
  exact ⟨l, by rw [field, bind_of_error hl], hle⟩

/-! ### What is lost -/

theorem mem_places {p n i : ℕ} : i ∈ places p n ↔ p ≤ i ∧ i < p + n := by
  simp only [places, List.mem_map, List.mem_range]
  constructor
  · rintro ⟨k, hk, rfl⟩
    omega
  · rintro ⟨hp, hn⟩
    exact ⟨i - p, by omega, by omega⟩

theorem Scan.Inside.read {L : ℕ} (h : s.Inside L) {l : List ℕ} (hl : ∀ i ∈ l, i ≤ L) :
    (s.read l).Inside L := by
  refine ⟨fun i hi => ?_, h.2⟩
  rcases List.mem_append.1 hi with hi | hi
  · exact h.1 i hi
  · exact hl i hi

theorem Scan.Inside.write {L : ℕ} (h : s.Inside L) {bytes : Bytes}
    (hroom : s.szPtr + bytes.length ≤ L + 1) : (s.write bytes).Inside L := by
  refine ⟨h.1, fun i hi => ?_⟩
  rcases List.mem_append.1 hi with hi | hi
  · exact h.2 i hi
  · have := (mem_places.1 hi).2
    omega

/-- What a field takes to stay inside. -/
theorem inside_behind {L : ℕ} (hs : s.szRequest + 3 ≤ L) (b : Bool) :
    (s.behind request b nLen).Inside L ↔
      s.Inside L ∧ (b = true → s.szRequest + 3 + nLen ≤ L + 1 ∧ s.szPtr + nLen ≤ L) := by
  cases b with
  | false =>
    simp only [Scan.Inside, Scan.behind, Bool.false_eq_true, if_false, List.append_nil,
      List.forall_mem_append, mem_places, false_implies, and_true]
    refine and_congr_left fun _ => and_iff_left_of_imp fun _ i hi => ?_
    omega
  | true =>
    simp only [Scan.Inside, Scan.behind, if_true, List.forall_mem_append, mem_places, true_implies]
    constructor
    · rintro ⟨⟨⟨hreads, -⟩, hcopy⟩, hwrites, hput⟩
      refine ⟨⟨hreads, hwrites⟩, ?_, hput _ (by omega)⟩
      by_contra hgt
      have := hcopy (L + 1) (by omega)
      omega
    · rintro ⟨⟨hreads, hwrites⟩, hcopy, hput⟩
      refine ⟨⟨⟨hreads, fun i hi => ?_⟩, fun i hi => ?_⟩, hwrites, fun i hi => ?_⟩ <;> omega

/-- Outside the request or the buffer, or behind the terminator, where the next field is read. -/
def Scan.Lost (L : ℕ) (s : Scan) : Prop := s.Inside L → L < s.szRequest

section Lost

variable {L : ℕ}

/-- An access that has been made stays made. -/
theorem not_inside_of_append {s s' : Scan} {r w : List ℕ} (hr : s'.reads = s.reads ++ r)
    (hw : s'.writes = s.writes ++ w) (h : ¬ s.Inside L) : ¬ s'.Inside L := by
  rintro ⟨hreads, hwrites⟩
  rw [hr, List.forall_mem_append] at hreads
  rw [hw, List.forall_mem_append] at hwrites
  exact h ⟨hreads.1, hwrites.1⟩

theorem preserves_put (bytes : Bytes) : Preserves (fun s => ¬ s.Inside L) (put bytes) :=
  .modify fun s h => not_inside_of_append (s := s) (List.append_nil _).symm rfl h

theorem preserves_skip (n : ℕ) : Preserves (fun s => ¬ s.Inside L) (skip n) := .modify fun _ h => h

theorem preserves_scanParam (dwParID pszItemId : ℕ) (val : Variant) :
    Preserves (fun s => ¬ s.Inside L) (scanParam dwParID pszItemId val) := .modify fun _ h => h

theorem preserves_point (i : ℕ) : Preserves (fun s => ¬ s.Inside L) (point request i) :=
  fun s h => not_inside_of_append (s := s) rfl (List.append_nil _).symm h

theorem preserves_pointDigit (i : ℕ) : Preserves (fun s => ¬ s.Inside L) (pointDigit request i) :=
  .bind (preserves_point i) fun _ => .ite (.pure _) (.throw _)

theorem preserves_copyField (n : ℕ) :
    Preserves (fun s => ¬ s.Inside L) (copyField request n) :=
  fun s h => not_inside_of_append (s := s) rfl rfl h

/-- What `GetNextValue` does behind the length. -/
theorem preserves_fieldRest (b : Bool) (n : ℕ) :
    Preserves (fun s => ¬ s.Inside L) (do
      if b then
        copyField request n
      modify fun s => { s with szRequest := s.szRequest + 3 + n }
      return 3 + n : ScanM ℕ) := by
  have hstep : Preserves (fun s => ¬ s.Inside L) (do
      modify fun s => { s with szRequest := s.szRequest + 3 + n }
      return 3 + n : ScanM ℕ) := .bind (.modify fun _ h => h) fun _ => .pure _
  cases b with
  | false => exact hstep
  | true => exact .bind (preserves_copyField n) fun _ => hstep

theorem preserves_field (b : Bool) : Preserves (fun s => ¬ s.Inside L) (field request b) :=
  .bind (.bind (preserves_pointDigit 0) fun _ => .bind (preserves_pointDigit 1) fun _ =>
    .bind (preserves_pointDigit 2) fun _ => .pure _) fun n => preserves_fieldRest b n

/-- Behind the terminator no field is read without leaving the request. -/
theorem field_behind (b : Bool) :
    Ensures (fun s => L < s.szRequest) (fun s => ¬ s.Inside L) (field request b) := by
  have hpoint : Ensures (fun s => L < s.szRequest) (fun s => ¬ s.Inside L) (point request 0) := by
    intro s hs hinside
    have := hinside.1 s.szRequest (List.mem_append_right _ (List.mem_singleton_self _))
    omega
  have hdigit : Ensures (fun s => L < s.szRequest) (fun s => ¬ s.Inside L)
      (pointDigit request 0) := hpoint.bind fun _ => .ite (.pure _) (.throw _)
  exact (hdigit.bind fun _ => .bind (preserves_pointDigit 1) fun _ =>
    .bind (preserves_pointDigit 2) fun _ => .pure _).bind fun n => preserves_fieldRest b n

theorem field_lost (b : Bool) :
    Ensures (Scan.Lost L) (fun s => ¬ s.Inside L) (field request b) := by
  intro s hs
  by_cases hin : s.Inside L
  · exact field_behind b s (hs hin)
  · exact preserves_field b s hin

theorem Scan.Lost.of_not_inside (h : ¬ s.Inside L) : s.Lost L := fun hin => absurd hin h

theorem put_lost {bytes : Bytes} {f : Unit → ScanM Unit}
    (h : Ensures (Scan.Lost L) (fun s => ¬ s.Inside L) (f ())) :
    Ensures (Scan.Lost L) (fun s => ¬ s.Inside L) (put bytes >>= f) :=
  .modify_bind (fun s h hin => h (by_contra fun hout => preserves_put bytes s hout hin)) h

theorem skip_lost {n : ℕ} {f : Unit → ScanM Unit}
    (h : Ensures (Scan.Lost L) (fun s => ¬ s.Inside L) (f ())) :
    Ensures (Scan.Lost L) (fun s => ¬ s.Inside L) (skip n >>= f) :=
  .modify_bind (fun _ h => h) h

variable {crt : Crt} {bReadRequest : Bool}

theorem preserves_of_lost {x : ScanM Unit}
    (h : Ensures (Scan.Lost L) (fun s => ¬ s.Inside L) x) : Preserves (fun s => ¬ s.Inside L) x :=
  fun s hs => h s (.of_not_inside hs)

theorem preserves_takeId (pszItemId lPassed : ℕ) :
    Preserves (fun s => ¬ s.Inside L) (takeId pszItemId lPassed) :=
  .bind .get fun _ => .ite (.throw _) (preserves_scanParam _ _ _)

theorem lost_scanId (pszItemId : ℕ) :
    Ensures (Scan.Lost L) (fun s => ¬ s.Inside L) (scanId request pszItemId) :=
  (field_lost true).bind fun _ => preserves_takeId _ _

theorem lost_scanLength (pszItemId pszType pszValue : ℕ) :
    Ensures (Scan.Lost L) (fun s => ¬ s.Inside L)
      (scanLength request crt pszItemId pszType pszValue) :=
  (field_lost false).bind fun _ => .bind .get fun _ => preserves_scanParam _ _ _

theorem lost_scanValue (pszItemId pszType : ℕ) :
    Ensures (Scan.Lost L) (fun s => ¬ s.Inside L) (scanValue request crt pszItemId pszType) :=
  .get_bind fun _ => (field_lost true).bind fun _ => .bind (preserves_skip _) fun _ =>
    preserves_of_lost (lost_scanLength _ _ _)

theorem lost_scanType (pszItemId : ℕ) :
    Ensures (Scan.Lost L) (fun s => ¬ s.Inside L)
      (scanType request crt bReadRequest pszItemId) :=
  .get_bind fun _ => (field_lost true).bind fun _ => .bind (preserves_skip _) fun _ =>
    .ite (preserves_of_lost (lost_scanId _)) (preserves_of_lost (lost_scanValue _ _))

theorem lost_scanItem (pszItemId : ℕ) :
    Ensures (Scan.Lost L) (fun s => ¬ s.Inside L)
      (scanItem request crt bReadRequest pszItemId) :=
  (field_lost true).bind fun _ => .bind (preserves_skip _) fun _ =>
    preserves_of_lost (lost_scanType _)

theorem lost_scanConn (pszItemId : ℕ) :
    Ensures (Scan.Lost L) (fun s => ¬ s.Inside L)
      (scanConn request crt bReadRequest pszItemId) :=
  (field_lost true).bind fun _ => .bind (preserves_skip _) fun _ =>
    .bind (preserves_put _) fun _ => .bind (preserves_skip _) fun _ =>
      preserves_of_lost (lost_scanItem _)

theorem lost_scanRound :
    Ensures (Scan.Lost L) (fun s => ¬ s.Inside L) (scanRound request crt bReadRequest) :=
  (field_lost false).bind fun _ => .bind .get fun _ => .bind (preserves_put _) fun _ =>
    .bind (preserves_skip _) fun _ => preserves_of_lost (lost_scanConn _)

end Lost

end OpcS7

end Edps
