import Edps.Lib.Blocks
import Edps.Lib.Frames
import Edps.OpcS7.Params

/-!
# The buffer of a request

`ParseRequest` copies the fields of a request into one buffer, as long as the request and its
terminator, and assembles the item ids there: the parameters of the list only point into it.  The
type and the value of a record stand behind its item id; the id of a read record is put where the
next record begins, and is overwritten by it.

* `parseBuffer` : the request parsed in place, in a buffer with any contents.
* `ParseState.at` : the buffer between two steps, filled up to `szPtr` and free behind it.
* `parseBuffer_read` : a read request of records is parsed as its records, and no write leaves the
  buffer.
* `parseRound_write` : the same for a record of a write request, as long as the elements of its
  array lie in the buffer.
-/

namespace Edps

namespace OpcS7

/-- `CEdpsParam`, with its item id in the buffer. -/
structure BufferParam where
  dwParID : ℕ
  pszItemId : ℕ
  val : Variant
  deriving DecidableEq, Repr

/-- What `ParseRequest` works on.  Pointers into `m_pStringBuffer` are offsets. -/
structure ParseState where
  szRequest : Bytes
  stringBuffer : Bytes
  szPtr : ℕ
  params : List BufferParam
  deriving DecidableEq, Repr

/-- How a step of the parsing fails: as the parsing of a text does, or by an access outside the
buffer. -/
inductive BufferEnd where
  | stop
  | overrun
  | outside
  deriving DecidableEq, Repr

abbrev ParseM := EStateM BufferEnd ParseState

/-- The C string at a place of the buffer. -/
def ParseState.text? (s : ParseState) (p : ℕ) : Option Bytes :=
  if 0 ∈ s.stringBuffer.drop p then some (cstr (s.stringBuffer.drop p)) else none

/-- The list as a later reader finds it. -/
def ParseState.list? (s : ParseState) : Option (List CEdpsParam) :=
  s.params.mapM fun p => do return ⟨p.dwParID, ← s.text? p.pszItemId, p.val⟩

/-! ### Steps -/

/-- Bytes written at `szPtr`. -/
def write (bytes : Bytes) : ParseM Unit := fun s =>
  match writeAt s.stringBuffer s.szPtr bytes with
  | some stringBuffer => .ok () { s with stringBuffer }
  | none => .error .outside s

/-- `szPtr += n` -/
def advance (n : ℕ) : ParseM Unit := modify fun s => { s with szPtr := s.szPtr + n }

/-- A text read from the buffer. -/
def textAt (p : ℕ) : ParseM Bytes := fun s =>
  match s.text? p with
  | some text => .ok text s
  | none => .error .outside s

/-- The first `n` elements of an array read from the buffer, zeros from the first zero on. -/
def elementsAt (p n : ℕ) : ParseM Bytes := fun s =>
  if p + n ≤ s.stringBuffer.length then
    .ok (firstBytes n (cstr (s.stringBuffer.drop p))) s
  else .error .outside s

/-- `GetNextValue`, with the step over the field: the value is copied to `szPtr` unless `Buff` is
`NULL`. -/
def nextValue (toBuffer : Bool) : ParseM ℕ := do
  let s ← get
  match getNextValue s.szRequest with
  | .error .stop => throw .stop
  | .error .overrun => throw .overrun
  | .ok (text, rest) =>
    if toBuffer then
      write (text ++ [0])
    modify fun s => { s with szRequest := rest }
    return 3 + text.length

/-- `AddItem` of the list. -/
def addParam (dwParID pszItemId : ℕ) (val : Variant) : ParseM Unit :=
  modify fun s => { s with params := s.params ++ [⟨dwParID, pszItemId, val⟩] }

variable (crt : Crt)

/-- The value of the typed `AddItem`.  The elements of an array are all read from the buffer, those
behind the end of the text too. -/
def typedAt (pszType pszData : ℕ) : ParseM Variant := do
  let szType ← textAt pszType
  if szType.take 7 = ascii "STRING*" ∧ crt.safeArrayCreate (cElements szType) = true then
    return ⟨VT_ARRAY + VT_UI1, 0, 0, some ⟨0, ← elementsAt pszData (cElements szType)⟩⟩
  else
    return (typedValue crt szType (← textAt pszData)).1

/-- What the records of both requests begin with: the item id and the type, with the places where
they stand. -/
def parseAddress : ParseM (ℕ × ℕ) := do
  -- the connection point is not used
  let _ ← nextValue false
  let pszItemId := (← get).szPtr
  write (ascii "S7:[")
  advance 4
  let lPassed ← nextValue true
  advance (lPassed - 3)
  write (ascii "]")
  advance 1
  let lPassed ← nextValue true
  advance (lPassed - 2)
  let pszType := (← get).szPtr
  let lPassed ← nextValue true
  advance (lPassed - 2)
  return (pszItemId, pszType)

/-- One round of the loop of `ParseRequest`. -/
def parseRound (bReadRequest : Bool) : ParseM Unit := do
  let (pszItemId, pszType) ← parseAddress
  let s ← get
  if bReadRequest then
    let _ ← nextValue true
    let lParID := atol (← textAt s.szPtr)
    if lParID ≤ 0 then
      throw .stop
    addParam lParID.toNat pszItemId .empty
  else
    let pszValue := s.szPtr
    let lPassed ← nextValue true
    advance (lPassed - 2)
    -- the length of the value is not used
    let _ ← nextValue false
    addParam (s.params.length + 1) pszItemId (← typedAt crt pszType pszValue)

/-- The loop of `ParseRequest`.  The `szPtr` declared at its end is a variable of its own, and
nothing reads it. -/
def parseRounds (bReadRequest : Bool) : ℕ → ParseM ℕ
  | 0 => do return (← get).params.length
  | fuel + 1 => fun s =>
    match parseRound crt bReadRequest s with
    | .ok _ s => parseRounds bReadRequest fuel s
    | .error .stop s => .ok s.params.length s
    | .error e s => .error e s

/-- `ParseRequest` of a `BSTR`, in a buffer whose contents `malloc` leaves open. -/
def parseBuffer (malloc : ℕ → UInt8) (szRequest : Bytes) (bReadRequest : Bool) :
    EStateM.Result BufferEnd ParseState ℕ :=
  parseRounds crt bReadRequest szRequest.length
    ⟨bstr szRequest, freshBytes malloc ((cstr szRequest).length + 1), 0, []⟩

/-! ### Steps in a filled buffer -/

/-- The state of the parsing with `done` behind `szPtr` and `free` before it. -/
def ParseState.at (done free rest : Bytes) (params : List BufferParam) : ParseState :=
  ⟨rest, done ++ free, done.length, params⟩

variable {done free rest : Bytes} {params : List BufferParam}

@[simp] theorem szPtr_at : (ParseState.at done free rest params).szPtr = done.length := rfl

theorem write_at {bytes : Bytes} (h : bytes.length ≤ free.length) :
    write bytes (.at done free rest params) =
      .ok () (.at done (bytes ++ free.drop bytes.length) rest params) := by
  simp only [write, ParseState.at, writeAt_append done h]

theorem advance_at (bytes : Bytes) :
    advance bytes.length (.at done (bytes ++ free) rest params) =
      .ok () (.at (done ++ bytes) free rest params) := by
  simp only [advance, ParseState.at, ← List.append_assoc, List.length_append]
  rfl

/-- A text of the program, written and kept. -/
theorem write_advance_at {β : Type} {bytes : Bytes} {n : ℕ} (hn : bytes.length = n)
    (hroom : n ≤ free.length) (f : Unit → ParseM β) :
    (write bytes >>= fun _ => advance n >>= f) (.at done free rest params) =
      f () (.at (done ++ bytes) (free.drop n) rest params) := by
  subst hn
  rw [bind_of_ok (write_at hroom), bind_of_ok (advance_at bytes)]

/-- A copied text kept without its terminator. -/
theorem advance_text (s : Bytes) :
    advance (3 + s.length - 3) (.at done (s ++ free) rest params) =
      .ok () (.at (done ++ s) free rest params) := by
  rw [Nat.add_sub_cancel_left, advance_at]

/-- A copied text kept with its terminator. -/
theorem advance_string (s : Bytes) :
    advance (3 + s.length - 2) (.at done (s ++ 0 :: free) rest params) =
      .ok () (.at (done ++ (s ++ [0])) free rest params) := by
  have hlen : 3 + s.length - 2 = (s ++ [0]).length := by
    rw [List.length_append, List.length_singleton]
    omega
  rw [hlen, ← advance_at, List.append_assoc, List.singleton_append]

/-- **A field copied into the buffer.** -/
theorem nextValue_at {s : Bytes} (h : s.length < 1000) (hroom : s.length + 1 ≤ free.length) :
    nextValue true (.at done free (framed s ++ rest) params) =
      .ok (3 + s.length) (.at done (s ++ 0 :: free.drop (s.length + 1)) rest params) := by
  have hwrite : write (s ++ [0]) (.at done free (framed s ++ rest) params) =
      .ok () (.at done (s ++ [0] ++ free.drop (s ++ [0]).length) (framed s ++ rest) params) :=
    write_at (by simpa using hroom)
  have hnext : getNextValue (ParseState.at done free (framed s ++ rest) params).szRequest =
      .ok (s, rest) := getNextValue_framed h rest
  rw [nextValue, bind_get, hnext]
  simp only [if_true]
  rw [bind_of_ok hwrite]
  simp [ParseState.at]
  rfl

/-- A field passed over. -/
theorem nextValue_skip {s : Bytes} (h : s.length < 1000) :
    nextValue false (.at done free (framed s ++ rest) params) =
      .ok (3 + s.length) (.at done free rest params) := by
  have hnext : getNextValue (ParseState.at done free (framed s ++ rest) params).szRequest =
      .ok (s, rest) := getNextValue_framed h rest
  rw [nextValue, bind_get, hnext]
  rfl

/-- A text of the buffer that ends in it. -/
theorem text?_at {pre s post : Bytes} (hs : ∀ c ∈ s, c ≠ 0)
    (h : done ++ free = pre ++ (s ++ 0 :: post)) :
    (ParseState.at done free rest params).text? pre.length = some s := by
  have hdrop : (done ++ free).drop pre.length = s ++ 0 :: post := by rw [h, List.drop_left]
  rw [ParseState.text?, ParseState.at, hdrop, if_pos (by simp), cstr_append_zero hs]

theorem textAt_at {pre s post : Bytes} (hs : ∀ c ∈ s, c ≠ 0)
    (h : done ++ free = pre ++ (s ++ 0 :: post)) :
    textAt pre.length (.at done free rest params) = .ok s (.at done free rest params) := by
  rw [textAt, text?_at hs h]

/-! ### A record -/

/-- What the address of a record leaves in the buffer. -/
def addressText (conn item szType : Field) : Bytes :=
  itemName conn.text item.text ++ 0 :: (szType.text ++ [0])

theorem length_itemName (conn item : Bytes) :
    (itemName conn item).length = 5 + conn.length + item.length := by
  simp [itemName, ascii]
  omega

/-- **The address of a record**, assembled where `szPtr` stands. -/
theorem parseAddress_at {cp conn item szType : Field}
    (hroom : (addressText conn item szType).length ≤ free.length) :
    parseAddress (.at done free (framed cp.text ++ (framed conn.text ++ (framed item.text ++
        (framed szType.text ++ rest)))) params) =
      .ok (done.length, done.length + (itemName conn.text item.text).length + 1)
        (.at (done ++ addressText conn item szType)
          (free.drop (addressText conn item szType).length) rest params) := by
  have hlen : (addressText conn item szType).length =
      7 + conn.text.length + item.text.length + szType.text.length := by
    rw [addressText, List.length_append, length_itemName, List.length_cons, List.length_append,
      List.length_singleton]
    omega
  have hhead : (ascii "S7:[").length = 4 := by decide +kernel
  have htail : (ascii "]").length = 1 := by decide +kernel
  rw [parseAddress, bind_of_ok (nextValue_skip cp.short), bind_get,
    write_advance_at hhead (by omega),
    bind_of_ok (nextValue_at conn.short (by simp only [List.length_drop]; omega)),
    bind_of_ok (advance_text _), write_advance_at htail (by simp),
    bind_of_ok (nextValue_at item.short (by simp; omega)),
    bind_of_ok (advance_string _), bind_get,
    bind_of_ok (nextValue_at szType.short (by simp; omega)),
    bind_of_ok (advance_string _)]
  have hdone : done ++ ascii "S7:[" ++ conn.text ++ ascii "]" ++ (item.text ++ [0]) ++
      (szType.text ++ [0]) = done ++ addressText conn item szType := by
    simp only [addressText, itemName, List.append_assoc, List.singleton_append]
  have hfree : (((0 :: (free.drop 4).drop (conn.text.length + 1)).drop 1).drop
      (item.text.length + 1)).drop (szType.text.length + 1) =
        free.drop (addressText conn item szType).length := by
    simp only [List.drop_succ_cons, List.drop_drop, hlen]
    congr 1
    omega
  have hptr : (done ++ ascii "S7:[" ++ conn.text ++ ascii "]" ++ (item.text ++ [0])).length =
      done.length + (itemName conn.text item.text).length + 1 := by
    simp only [List.length_append, length_itemName, hhead, htail, List.length_singleton]
    omega
  rw [hdone, hfree]
  simp only [ParseState.at, hptr]
  rfl

/-- What the list holds of a parameter whose item id stands in the filled part of the buffer. -/
structure Stored (done : Bytes) (p : BufferParam) (q : CEdpsParam) : Prop where
  dwParID : p.dwParID = q.dwParID
  val : p.val = q.val
  noNul : ∀ c ∈ q.szItemId, c ≠ 0
  itemId : ∃ pre post, done = pre ++ (q.szItemId ++ 0 :: post) ∧ p.pszItemId = pre.length

theorem Stored.append {p : BufferParam} {q : CEdpsParam} (h : Stored done p q) (bytes : Bytes) :
    Stored (done ++ bytes) p q := by
  obtain ⟨pre, post, rfl, hp⟩ := h.itemId
  refine ⟨h.dwParID, h.val, h.noNul, pre, post ++ bytes, ?_, hp⟩
  simp only [List.append_assoc, List.cons_append]

/-- Parameters whose item ids stand in the filled part are read as they were put. -/
theorem list?_at {qs : List CEdpsParam} (h : List.Forall₂ (Stored done) params qs) :
    (ParseState.at done free rest params).list? = some qs := by
  have hmap : ∀ {ps : List BufferParam} {qs : List CEdpsParam}, List.Forall₂ (Stored done) ps qs →
      (ps.mapM fun p => do
        return (⟨p.dwParID, ← (ParseState.at done free rest params).text? p.pszItemId, p.val⟩ :
          CEdpsParam)) = some qs := by
    intro ps qs h
    induction h with
    | nil => rfl
    | @cons p q ps qs hp _ ih =>
      obtain ⟨pre, post, hdone, hptr⟩ := hp.itemId
      have htext : (ParseState.at done free rest params).text? p.pszItemId = some q.szItemId := by
        have hbuf : done ++ free = pre ++ (q.szItemId ++ 0 :: (post ++ free)) := by
          rw [hdone, List.append_assoc, List.append_assoc, List.cons_append]
        rw [hptr, text?_at hp.noNul hbuf]
      rw [List.mapM_cons, ih, htext, hp.dwParID, hp.val]
      rfl
  exact hmap h

/-- **What a round does with a record** of a request: if the record fits, what it leaves in the
buffer and in the list; if not, an access outside the buffer.  The request has a terminator of two
bytes where its buffer has one. -/
structure Parses (bReadRequest : Bool) {ρ : Type} (encode kept : ρ → Bytes)
    (param : ℕ → ρ → CEdpsParam) (fits : ℕ → ℕ → ρ → Prop) : Prop where
  ok : ∀ {r : ρ} {done free rest : Bytes} {params : List BufferParam},
    (encode r ++ rest).length < free.length + 2 → fits done.length (done ++ free).length r →
    ∃ free' p, parseRound crt bReadRequest (.at done free (encode r ++ rest) params) =
        .ok () (.at (done ++ kept r) free' rest (params ++ [p])) ∧
      (done ++ kept r ++ free').length = (done ++ free).length ∧ rest.length < free'.length + 2 ∧
      Stored (done ++ kept r) p (param (params.length + 1) r)
  outside : ∀ {r : ρ} {done free rest : Bytes} {params : List BufferParam},
    (encode r ++ rest).length < free.length + 2 → ¬ fits done.length (done ++ free).length r →
    ∃ s, parseRound crt bReadRequest (.at done free (encode r ++ rest) params) = .error .outside s

/-- All records fit a buffer of `size` bytes, from a place on. -/
def AllFit {ρ : Type} (kept : ρ → Bytes) (fits : ℕ → ℕ → ρ → Prop) (size : ℕ) :
    ℕ → List ρ → Prop
  | _, [] => True
  | place, r :: rs => fits place size r ∧ AllFit kept fits size (place + (kept r).length) rs

variable {crt}

section Records

variable {bReadRequest : Bool} {ρ : Type} {encode kept : ρ → Bytes} {param : ℕ → ρ → CEdpsParam}
  {fits : ℕ → ℕ → ρ → Prop}

theorem parseRounds_of_ok {fuel : ℕ} {s s' : ParseState}
    (h : parseRound crt bReadRequest s = .ok () s') :
    parseRounds crt bReadRequest (fuel + 1) s = parseRounds crt bReadRequest fuel s' := by
  simp only [parseRounds, h]

theorem parseRounds_of_outside {fuel : ℕ} {s s' : ParseState}
    (h : parseRound crt bReadRequest s = .error .outside s') :
    parseRounds crt bReadRequest (fuel + 1) s = .error .outside s' := by
  simp only [parseRounds, h]

/-- The parsing stops where the text ends. -/
theorem parseRounds_nil (fuel : ℕ) :
    parseRounds crt bReadRequest fuel (.at done free (bstr []) params) =
      .ok params.length (.at done free (bstr []) params) := by
  cases fuel with
  | zero => rfl
  | succ fuel => rfl

/-- **The loop over records that fit.** -/
theorem Parses.rounds_ok (h : Parses crt bReadRequest encode kept param fits) {rs : List ρ}
    {fuel : ℕ} (hfuel : rs.length ≤ fuel) {qs : List CEdpsParam}
    (hroom : (bstr (rs.flatMap encode)).length < free.length + 2)
    (hfit : AllFit kept fits (done ++ free).length done.length rs)
    (hstored : List.Forall₂ (Stored done) params qs) :
    ∃ s, parseRounds crt bReadRequest fuel (.at done free (bstr (rs.flatMap encode)) params) =
        .ok (params.length + rs.length) s ∧
      s.stringBuffer.length = (done ++ free).length ∧
      s.list? = some (qs ++ (rs.zipIdx (params.length + 1)).map fun r => param r.2 r.1) := by
  induction rs generalizing fuel done free params qs with
  | nil => exact ⟨_, parseRounds_nil fuel, rfl, by simpa using list?_at hstored⟩
  | cons r rs ih =>
    cases fuel with
    | zero => simp at hfuel
    | succ fuel =>
      rw [List.flatMap_cons, bstr_append] at hroom ⊢
      obtain ⟨free', p, hround, hsize, hroom', hp⟩ := h.ok hroom hfit.1
      have hall : List.Forall₂ (Stored (done ++ kept r)) (params ++ [p])
          (qs ++ [param (params.length + 1) r]) :=
        List.rel_append (hstored.imp fun _ _ hs => hs.append _) (.cons hp .nil)
      have hfit' :
          AllFit kept fits (done ++ kept r ++ free').length (done ++ kept r).length rs := by
        rw [hsize, @List.length_append _ done (kept r)]
        exact hfit.2
      obtain ⟨s, hs, hlen, hlist⟩ := ih (by simpa using hfuel) hroom' hfit' hall
      refine ⟨s, ?_, hlen.trans hsize, ?_⟩
      · rw [parseRounds_of_ok hround, hs, List.length_append, List.length_singleton,
          List.length_cons, Nat.add_assoc, Nat.add_comm 1]
      · rw [hlist]
        simp [List.zipIdx_cons]

/-- The loop over records one of which does not fit. -/
theorem Parses.rounds_outside (h : Parses crt bReadRequest encode kept param fits) {rs : List ρ}
    {fuel : ℕ} (hfuel : rs.length ≤ fuel)
    (hroom : (bstr (rs.flatMap encode)).length < free.length + 2)
    (hfit : ¬ AllFit kept fits (done ++ free).length done.length rs) :
    ∃ s, parseRounds crt bReadRequest fuel (.at done free (bstr (rs.flatMap encode)) params) =
      .error .outside s := by
  induction rs generalizing fuel done free params with
  | nil => exact absurd trivial hfit
  | cons r rs ih =>
    cases fuel with
    | zero => simp at hfuel
    | succ fuel =>
      rw [List.flatMap_cons, bstr_append] at hroom ⊢
      by_cases hr : fits done.length (done ++ free).length r
      · obtain ⟨free', p, hround, hsize, hroom', -⟩ := h.ok hroom hr
        rw [parseRounds_of_ok hround]
        refine ih (by simpa using hfuel) hroom' fun hall => hfit ⟨hr, ?_⟩
        rwa [hsize, @List.length_append _ done (kept r)] at hall
      · obtain ⟨s, hround⟩ := h.outside hroom hr
        exact ⟨s, parseRounds_of_outside hround⟩

/-- The parsing begins in an empty buffer. -/
theorem parseBuffer_eq (malloc : ℕ → UInt8) {szRequest : Bytes} (h : cstr szRequest = szRequest) :
    parseBuffer crt malloc szRequest bReadRequest =
      parseRounds crt bReadRequest szRequest.length
        (.at [] (freshBytes malloc (szRequest.length + 1)) (bstr szRequest) []) := by
  rw [parseBuffer, h]
  rfl

/-- A request whose records fit the buffer. -/
theorem Parses.buffer_ok (h : Parses crt bReadRequest encode kept param fits)
    (hpos : ∀ r, 0 < (encode r).length) (hnoNul : ∀ r, ∀ c ∈ encode r, c ≠ 0)
    (malloc : ℕ → UInt8) {rs : List ρ}
    (hfit : AllFit kept fits ((rs.flatMap encode).length + 1) 0 rs) :
    ∃ s, parseBuffer crt malloc (rs.flatMap encode) bReadRequest = .ok rs.length s ∧
      s.stringBuffer.length = (rs.flatMap encode).length + 1 ∧
      s.list? = some ((rs.zipIdx 1).map fun r => param r.2 r.1) := by
  set free := freshBytes malloc ((rs.flatMap encode).length + 1) with hfree
  have hlen : free.length = (rs.flatMap encode).length + 1 := length_freshBytes ..
  have hroom : (bstr (rs.flatMap encode)).length < free.length + 2 := by
    rw [length_bstr, hlen]
    omega
  have hfit : AllFit kept fits (([] : Bytes) ++ free).length ([] : Bytes).length rs := by
    rwa [List.nil_append, hlen]
  obtain ⟨s, hs, hsize, hlist⟩ := h.rounds_ok (length_le_flatMap hpos rs) hroom hfit .nil
  rw [List.length_nil, Nat.zero_add] at hs
  exact ⟨s, (parseBuffer_eq malloc (cstr_flatMap hnoNul rs)).trans hs, hsize.trans hlen, hlist⟩

/-- A request one of whose records does not fit the buffer. -/
theorem Parses.buffer_outside (h : Parses crt bReadRequest encode kept param fits)
    (hpos : ∀ r, 0 < (encode r).length) (hnoNul : ∀ r, ∀ c ∈ encode r, c ≠ 0)
    (malloc : ℕ → UInt8) {rs : List ρ}
    (hfit : ¬ AllFit kept fits ((rs.flatMap encode).length + 1) 0 rs) :
    ∃ s, parseBuffer crt malloc (rs.flatMap encode) bReadRequest = .error .outside s := by
  set free := freshBytes malloc ((rs.flatMap encode).length + 1) with hfree
  have hlen : free.length = (rs.flatMap encode).length + 1 := length_freshBytes ..
  have hroom : (bstr (rs.flatMap encode)).length < free.length + 2 := by
    rw [length_bstr, hlen]
    omega
  have hfit : ¬ AllFit kept fits (([] : Bytes) ++ free).length ([] : Bytes).length rs := by
    rwa [List.nil_append, hlen]
  rw [parseBuffer_eq malloc (cstr_flatMap hnoNul rs)]
  exact h.rounds_outside (length_le_flatMap hpos rs) hroom hfit

end Records

/-! ### Read requests -/

/-- What a read record leaves in the buffer. -/
def ReadRecord.kept (r : ReadRecord) : Bytes := addressText r.conn r.item r.type

theorem length_addressText (conn item szType : Field) :
    (addressText conn item szType).length =
      7 + conn.text.length + item.text.length + szType.text.length := by
  rw [addressText, List.length_append, length_itemName, List.length_cons, List.length_append,
    List.length_singleton]
  omega

theorem stored_address {conn item szType : Field} {p : BufferParam} (hp : p.pszItemId = done.length)
    (bytes : Bytes) :
    Stored (done ++ addressText conn item szType ++ bytes) p
      ⟨p.dwParID, itemName conn.text item.text, p.val⟩ := by
  refine ⟨rfl, rfl, ?_, done, szType.text ++ [0] ++ bytes, ?_, hp⟩
  · exact noNul_itemName conn item
  · simp only [addressText, List.append_assoc, List.cons_append]

theorem parses_read :
    Parses crt true ReadRecord.encode ReadRecord.kept (fun _ => ReadRecord.param)
      fun _ _ _ => True where
  outside _ h := absurd trivial h
  ok := by
    intro r done free rest params hroom _
    obtain ⟨id, hltoa⟩ : ∃ id, id = ltoa r.parID := ⟨_, rfl⟩
    have hid : id.length < 1000 := hltoa ▸ (length_ltoa_lt _).trans (by decide)
    have hnoNul : ∀ c ∈ id, c ≠ 0 := hltoa ▸ fun _ => noNul_ltoa
    have hatol : atol id = r.parID := hltoa ▸ atol_ltoa r.long
    have hpos : ¬ (r.parID : ℤ) ≤ 0 := by
      have := r.positive
      omega
    have hlen : r.kept.length = 7 + r.conn.text.length + r.item.text.length +
        r.type.text.length := length_addressText r.conn r.item r.type
    -- a record is longer than what it leaves and the text of its id
    have hmore : r.kept.length + id.length + 6 + rest.length < free.length := by
      simp only [ReadRecord.encode, List.length_append, length_framed, ← hltoa] at hroom
      omega
    obtain ⟨free₁, hfree₁⟩ : ∃ free₁, free₁ = free.drop r.kept.length := ⟨_, rfl⟩
    have hfree₁len : free₁.length = free.length - r.kept.length := hfree₁ ▸ List.length_drop
    have haddress : parseAddress (.at done free (r.encode ++ rest) params) =
        .ok (done.length, done.length + r.itemId.length + 1)
          (.at (done ++ r.kept) free₁ (framed id ++ rest) params) := by
      simp only [ReadRecord.encode, List.append_assoc, hltoa, hfree₁]
      exact parseAddress_at (by rw [← ReadRecord.kept]; omega)
    have htext : textAt (done ++ r.kept).length (.at (done ++ r.kept)
        (id ++ 0 :: free₁.drop (id.length + 1)) rest params) = .ok id _ := textAt_at hnoNul rfl
    refine ⟨id ++ 0 :: free₁.drop (id.length + 1), ⟨r.parID, done.length, .empty⟩, ?_, ?_, ?_, ?_⟩
    · rw [parseRound, bind_of_ok haddress]
      simp only [if_true]
      rw [bind_get, bind_of_ok (nextValue_at hid (by omega)), szPtr_at, bind_of_ok htext, hatol,
        if_neg hpos, Int.toNat_natCast]
      rfl
    · simp only [List.length_append, List.length_cons, List.length_drop, hfree₁len]
      omega
    · simp only [List.length_append, List.length_cons, List.length_drop, hfree₁len]
      omega
    · have hstored : Stored (done ++ addressText r.conn r.item r.type ++ [])
          ⟨r.parID, done.length, .empty⟩ r.param := stored_address rfl []
      rwa [List.append_nil] at hstored

/-- **A read request is parsed as its records**, whatever the buffer holds before: the item ids
still stand in it when the parsing ends, and nothing is written outside. -/
theorem parseBuffer_read (malloc : ℕ → UInt8) (rs : List ReadRecord) :
    ∃ s, parseBuffer crt malloc (rs.flatMap ReadRecord.encode) true = .ok rs.length s ∧
      s.stringBuffer.length = (rs.flatMap ReadRecord.encode).length + 1 ∧
      s.list? = some (rs.map ReadRecord.param) := by
  have hpos (r : ReadRecord) : 0 < r.encode.length := by
    simp [ReadRecord.encode]
  have hall : ∀ size place, AllFit ReadRecord.kept (fun _ _ _ => True) size place rs := by
    intro size
    induction rs with
    | nil => exact fun _ => trivial
    | cons r rs ih => exact fun place => ⟨trivial, ih _⟩
  have hfst : (rs.zipIdx 1).map (fun r => r.1.param) = rs.map ReadRecord.param := by
    have hmap := congrArg (List.map ReadRecord.param) (List.zipIdx_map_fst 1 rs)
    rwa [List.map_map] at hmap
  obtain ⟨s, hs, hlen, hlist⟩ := parses_read.buffer_ok hpos noNul_encode_read malloc (hall _ _)
  exact ⟨s, hs, hlen, hfst ▸ hlist⟩

/-! ### Write requests -/

/-- What a write record leaves in the buffer. -/
def WriteRecord.kept (r : WriteRecord) : Bytes :=
  addressText r.conn r.item r.type ++ (r.value.text ++ [0])

/-- The elements of an array are read from the buffer: those of a record that begins at a place
of a buffer of `size` bytes lie in it. -/
def WriteRecord.Fits (crt : Crt) (place size : ℕ) (r : WriteRecord) : Prop :=
  r.type.text.take 7 = ascii "STRING*" → crt.safeArrayCreate (cElements r.type.text) = true →
    place + (addressText r.conn r.item r.type).length + cElements r.type.text ≤ size

theorem typedValue_string {szType : Bytes} (h : szType.take 7 = ascii "STRING*")
    (szData : Bytes) :
    (typedValue crt szType szData).1 =
      if crt.safeArrayCreate (cElements szType) = true then
        ⟨VT_ARRAY + VT_UI1, 0, 0, some ⟨0, firstBytes (cElements szType) szData⟩⟩
      else .empty := by
  have hne : ∀ name, name.take 7 ≠ ascii "STRING*" → szType ≠ name := by
    rintro name hname rfl
    exact hname h
  simp only [typedValue, hne (ascii "BIT") (by decide +kernel),
    hne (ascii "FLOAT") (by decide +kernel), hne (ascii "LONG") (by decide +kernel),
    hne (ascii "INTEGER") (by decide +kernel), hne (ascii "BYTE") (by decide +kernel),
    hne (ascii "CHAR") (by decide +kernel), h, or_self, if_true, if_false]
  split_ifs <;> rfl

section TypedAt

variable (r : WriteRecord)

theorem textAt_type :
    textAt (done.length + r.itemId.length + 1) (.at (done ++ r.kept) free rest params) =
      .ok r.type.text (.at (done ++ r.kept) free rest params) := by
  have hplace : done.length + r.itemId.length + 1 = (done ++ (r.itemId ++ [0])).length := by
    simp [Nat.add_assoc]
  have hbuf : done ++ r.kept ++ free =
      done ++ (r.itemId ++ [0]) ++ (r.type.text ++ 0 :: (r.value.text ++ 0 :: free)) := by
    simp only [WriteRecord.kept, addressText, WriteRecord.itemId, List.append_assoc,
      List.cons_append, List.nil_append]
  rw [hplace, textAt_at r.type.noNul hbuf]

/-- The value stands behind the address. -/
theorem drop_value :
    (done ++ r.kept ++ free).drop (done ++ addressText r.conn r.item r.type).length =
      r.value.text ++ 0 :: free := by
  simp only [WriteRecord.kept, ← List.append_assoc]
  rw [List.append_assoc, List.append_assoc, List.drop_left]
  rfl

/-- The value of a record that fits. -/
theorem typedAt_ok (hfit : r.Fits crt done.length (done ++ r.kept ++ free).length) :
    typedAt crt (done.length + r.itemId.length + 1)
        (done ++ addressText r.conn r.item r.type).length (.at (done ++ r.kept) free rest params) =
      .ok (r.typed crt) (.at (done ++ r.kept) free rest params) := by
  rw [typedAt, bind_of_ok (textAt_type r)]
  split_ifs with hstring
  · obtain ⟨hname, hcreate⟩ := hstring
    have hroom := hfit hname hcreate
    rw [← List.length_append] at hroom
    have helements : elementsAt (done ++ addressText r.conn r.item r.type).length
        (cElements r.type.text) (.at (done ++ r.kept) free rest params) =
          .ok (firstBytes (cElements r.type.text) r.value.text)
            (.at (done ++ r.kept) free rest params) := by
      rw [elementsAt, ParseState.at, if_pos hroom, drop_value,
        cstr_append_zero r.value.noNul]
    rw [bind_of_ok helements, WriteRecord.typed, typedValue_string hname, if_pos hcreate]
    rfl
  · have hbuf : done ++ r.kept ++ free =
        done ++ addressText r.conn r.item r.type ++ (r.value.text ++ 0 :: free) := by
      simp only [WriteRecord.kept, List.append_assoc, List.cons_append, List.nil_append]
    rw [bind_of_ok (textAt_at r.value.noNul hbuf)]
    rfl

/-- The elements of a record that does not fit. -/
theorem typedAt_outside (hfit : ¬ r.Fits crt done.length (done ++ r.kept ++ free).length) :
    typedAt crt (done.length + r.itemId.length + 1)
        (done ++ addressText r.conn r.item r.type).length (.at (done ++ r.kept) free rest params) =
      .error .outside (.at (done ++ r.kept) free rest params) := by
  simp only [WriteRecord.Fits, not_forall] at hfit
  obtain ⟨hname, hcreate, hroom⟩ := hfit
  rw [← List.length_append] at hroom
  have helements : elementsAt (done ++ addressText r.conn r.item r.type).length
      (cElements r.type.text) (.at (done ++ r.kept) free rest params) =
        .error .outside (.at (done ++ r.kept) free rest params) := by
    rw [elementsAt, ParseState.at, if_neg hroom]
  rw [typedAt, bind_of_ok (textAt_type r), if_pos ⟨hname, hcreate⟩, bind_of_error helements]

end TypedAt

theorem length_kept (r : WriteRecord) :
    r.kept.length = (addressText r.conn r.item r.type).length + r.value.text.length + 1 := by
  rw [WriteRecord.kept, List.length_append, List.length_append, List.length_singleton,
    Nat.add_assoc]

/-- A round with a write record, up to its value. -/
theorem parseRound_write (crt : Crt) (done : Bytes) (params : List BufferParam) {r : WriteRecord}
    (hroom : (r.encode ++ rest).length < free.length + 2) :
    ∃ free', (done ++ r.kept ++ free').length = (done ++ free).length ∧
      rest.length < free'.length + 2 ∧
      parseRound crt false (.at done free (r.encode ++ rest) params) =
        (typedAt crt (done.length + r.itemId.length + 1)
          (done ++ addressText r.conn r.item r.type).length >>= addParam (params.length + 1)
            done.length) (.at (done ++ r.kept) free' rest params) := by
  have hlen := length_kept r
  have haddr := length_addressText r.conn r.item r.type
  have hmore : r.kept.length + 8 + rest.length < free.length := by
    simp only [WriteRecord.encode, List.length_append, length_framed] at hroom
    omega
  obtain ⟨free₁, hfree₁⟩ :
      ∃ free₁, free₁ = free.drop (addressText r.conn r.item r.type).length := ⟨_, rfl⟩
  have hfree₁len : free₁.length = free.length - (addressText r.conn r.item r.type).length :=
    hfree₁ ▸ List.length_drop
  have haddress : parseAddress (.at done free (r.encode ++ rest) params) =
      .ok (done.length, done.length + r.itemId.length + 1)
        (.at (done ++ addressText r.conn r.item r.type) free₁
          (framed r.value.text ++ (framed r.length.text ++ rest)) params) := by
    simp only [WriteRecord.encode, List.append_assoc, hfree₁]
    exact parseAddress_at (by omega)
  refine ⟨free₁.drop (r.value.text.length + 1), ?_, ?_, ?_⟩
  · simp only [List.length_append, List.length_drop, hfree₁len]
    omega
  · simp only [List.length_drop, hfree₁len]
    omega
  · rw [parseRound, bind_of_ok haddress]
    simp only [Bool.false_eq_true, if_false]
    rw [bind_get, bind_of_ok (nextValue_at r.value.short (by omega)),
      bind_of_ok (advance_string _), bind_of_ok (nextValue_skip r.length.short), List.append_assoc]
    rfl

theorem parses_write :
    Parses crt false WriteRecord.encode WriteRecord.kept (WriteRecord.param crt)
      (WriteRecord.Fits crt) where
  ok := by
    intro r done free rest params hroom hfit
    obtain ⟨free', hsize, hrest, hround⟩ := parseRound_write crt done params hroom
    rw [← hsize] at hfit
    refine ⟨free', ⟨params.length + 1, done.length, r.typed crt⟩, ?_, hsize, hrest, ?_⟩
    · rw [hround, bind_of_ok (typedAt_ok r hfit)]
      rfl
    · rw [WriteRecord.kept, ← List.append_assoc]
      exact stored_address rfl _
  outside := by
    intro r done free rest params hroom hfit
    obtain ⟨free', hsize, -, hround⟩ := parseRound_write crt done params hroom
    rw [← hsize] at hfit
    exact ⟨_, by rw [hround, bind_of_error (typedAt_outside r hfit)]⟩

end OpcS7

end Edps
