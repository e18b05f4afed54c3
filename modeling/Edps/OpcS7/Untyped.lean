import Edps.OpcS7.WriteRouting

/-!
# Values that cannot be typed

`AddItem` makes a value of the type and the text of a record and says whether it could.  It has
appended the parameter by then, with an empty value.  A single write gives up when `AddItem` says
no; `ParseRequest` does not look at the answer, so a multiple write goes on with the empty value.

* `parseWriteRequest` : the parameters of a write request with the answers of `AddItem`;
  `parseRequest_eq` says that `ParseRequest` finds these parameters.
* `Unsent` : no value is written for a record that could not be typed.
* `write_all` : a new group on an accepting server is written whole.
* `unsent_iff` : the requests for which no such value is written.
-/

namespace Edps

namespace OpcS7

/-- A write, single or multiple. -/
inductive WriteCall where
  | single (bsConn bsItem bsType bsData : Bytes)
  | multi (bsParStr : Bytes)
  deriving DecidableEq, Repr

/-- The call of the interface. -/
def WriteCall.toCall : WriteCall → SapiCall
  | .single bsConn bsItem bsType bsData => .write bsConn bsItem bsType bsData
  | .multi bsParStr => .mwrite bsParStr

variable (crt : Crt)

/-! ### The answers of `AddItem` -/

/-- One round of the loop of `ParseRequest` for a write: the parameter, what `AddItem` answered,
and the text behind the record. -/
def parseWriteRecord (dwCount : ℕ) (szRequest : Bytes) :
    Except ParseEnd ((CEdpsParam × Bool) × Bytes) := do
  let (_, szRequest) ← getNextValue szRequest
  let (conn, szRequest) ← getNextValue szRequest
  let (item, szRequest) ← getNextValue szRequest
  let (szType, szRequest) ← getNextValue szRequest
  let (szValue, szRequest) ← getNextValue szRequest
  let (_, szRequest) ← getNextValue szRequest
  let (val, answer) := typedValue crt (cstr szType) (cstr szValue)
  return ((⟨dwCount + 1, cstr (itemName conn item), val⟩, answer), szRequest)

/-- The loop of `ParseRequest` for a write. -/
def parseWriteRecords :
    ℕ → Bytes → List (CEdpsParam × Bool) → Except ParseEnd (List (CEdpsParam × Bool))
  | 0, _, params => .ok params
  | fuel + 1, szRequest, params =>
    match parseWriteRecord crt params.length szRequest with
    | .ok (p, szRequest) => parseWriteRecords fuel szRequest (params ++ [p])
    | .error .stop => .ok params
    | .error .overrun => .error .overrun

/-- `ParseRequest` for a write. -/
def parseWriteRequest (szRequest : Bytes) : Except ParseEnd (List (CEdpsParam × Bool)) :=
  parseWriteRecords crt szRequest.length (bstr szRequest) []

theorem parseRecord_eq (dwCount : ℕ) (szRequest : Bytes) :
    parseRecord crt false dwCount szRequest =
      (fun p => (p.1.1, p.2)) <$> parseWriteRecord crt dwCount szRequest := by
  simp only [parseRecord, parseWriteRecord, map_bind, map_pure, Bool.false_eq_true, if_false]

theorem parseRecords_eq (fuel : ℕ) (szRequest : Bytes) (params : List (CEdpsParam × Bool)) :
    parseRecords crt false fuel szRequest (params.map Prod.fst) =
      (parseWriteRecords crt fuel szRequest params).map (List.map Prod.fst) := by
  induction fuel generalizing szRequest params with
  | zero => rfl
  | succ fuel ih =>
    rw [parseRecords, parseWriteRecords, parseRecord_eq, List.length_map]
    cases parseWriteRecord crt params.length szRequest with
    | ok p =>
      have hrest := ih p.2 (params ++ [p.1])
      rw [List.map_append] at hrest
      exact hrest
    | error e => cases e <;> rfl

/-- `ParseRequest` finds the parameters, and does not look at the answers. -/
theorem parseRequest_eq (szRequest : Bytes) :
    parseRequest crt szRequest false = (parseWriteRequest crt szRequest).map (List.map Prod.fst) :=
  parseRecords_eq crt szRequest.length (bstr szRequest) []

variable {crt}

/-- The parameters of a write request are numbered. -/
theorem dwParID_parseWriteRecords {fuel : ℕ} {szRequest : Bytes}
    {params records : List (CEdpsParam × Bool)}
    (hparams : (params.map fun p => p.1.dwParID) = List.range' 1 params.length)
    (h : parseWriteRecords crt fuel szRequest params = .ok records) :
    (records.map fun p => p.1.dwParID) = List.range' 1 records.length := by
  induction fuel generalizing szRequest params with
  | zero =>
    cases h
    exact hparams
  | succ fuel ih =>
    rw [parseWriteRecords] at h
    cases hrecord : parseWriteRecord crt params.length szRequest with
    | ok p =>
      rw [hrecord] at h
      refine ih ?_ h
      have hnumber : (fun p => p.1.1.dwParID) <$> parseWriteRecord crt params.length szRequest =
          (fun _ => params.length + 1) <$> parseWriteRecord crt params.length szRequest := by
        simp only [parseWriteRecord, map_bind, map_pure]
      rw [hrecord] at hnumber
      have hid : p.1.1.dwParID = params.length + 1 := Except.ok.inj hnumber
      rw [List.map_append, hparams, List.length_append, List.length_singleton, List.range'_concat]
      simp [hid, Nat.add_comm]
    | error e =>
      rw [hrecord] at h
      cases e with
      | stop =>
        cases h
        exact hparams
      | overrun => cases h

/-! ### A new group -/

/-- **A new group** on an accepting server is written whole, with the values of the request. -/
theorem write_all (r : AcceptingReplies) (szName : Bytes) {params : List CEdpsParam}
    (hnd : (params.map CEdpsParam.dwParID).Nodup) {p : CEdpsParam} (hp : p ∈ params) :
    ∃ it ∈ (mwriteCall r.toReplies params ⟨szName, [], []⟩).2.write,
      it.hClient = p.dwParID ∧ it.vDataValue = p.val := by
  set g₀ := addMissing r.toReplies ⟨szName, [], []⟩ params with hg₀
  have hok : GroupOK g₀ := (groupInv_empty szName).ok.addMissing r.toReplies params
  have hthere : p.dwParID ∈ g₀.items.map COPCItem.hClient := mem_addMissing r.toReplies _ hp
  have hne : g₀.items ≠ [] := by
    intro hnil
    rw [hnil] at hthere
    cases hthere
  obtain ⟨hhr, hdefs, hstatus⟩ := addItems_accepted hok hne (status_addMissing _ szName params) r
  rcases findOrAdd_cases (groupInv_empty szName).ok.nodup r.toReplies params false with
    ⟨hall, -⟩ | ⟨-, g₁, hr, hadd, h⟩
  · cases hall p hp
  · rw [← hg₀] at hadd
    rw [hadd] at hhr hdefs hstatus
    rcases h with ⟨hfail, -⟩ | ⟨-, n, hn, hfind⟩
    · rw [hhr] at hfail
      cases hfail
    · obtain ⟨-, ret, hlog⟩ := mwriteCall_ok hfind hn
      have hkeys : g₁.items.map COPCItem.hClient = g₀.items.map COPCItem.hClient := by
        have h := congrArg (List.map ItemDef.hClient) hdefs
        rwa [List.map_map, List.map_map] at h
      rw [← hkeys] at hthere
      obtain ⟨it, hit, hkey⟩ := List.mem_map.1 hthere
      rw [hlog]
      refine ⟨mark false params it, List.mem_filter.2 ⟨List.mem_map_of_mem hit, ?_⟩,
        (hClient_mark false params it).trans hkey, vDataValue_mark hnd hp hkey⟩
      -- the item is valid, and the request names it
      obtain ⟨-, -, hinv⟩ := mark_frame false params it
      have hflag := flag_mark false params it
      have hmem : it.hClient ∈ params.map CEdpsParam.dwParID := hkey ▸ List.mem_map_of_mem hp
      simp only [hmem, decide_true, Bool.or_true] at hflag
      rw [← chosen_write, chosen, hflag, COPCItem.valid, hinv, hstatus it hit]
      rfl

/-! ### Writes -/

variable (crt)

/-- Whatever the client has done before and the server answers, no value is written for a record
whose value could not be typed. -/
def WriteCall.Unsent (c : WriteCall) : Prop :=
  match c with
  | .single _ _ bsType bsData => (typedValue crt (cstr bsType) (cstr bsData)).2 = false →
    ∀ s r, ((sapi crt).next s (c.toCall, r)).2.write = []
  | .multi bsParStr => ∀ records, parseWriteRequest crt bsParStr = .ok records →
    ∀ p ∈ records, p.2 = false →
      ∀ s r, ∀ it ∈ ((sapi crt).next s (c.toCall, r)).2.write, it.hClient ≠ p.1.dwParID

/-- All values of a multiple write that comes to its group can be typed. -/
def WriteCall.Typed : WriteCall → Prop
  | .single .. => True
  | .multi bsParStr => ∀ records, parseWriteRequest crt bsParStr = .ok records →
    (szGroupName (records.map Prod.fst)).isSome → ∀ p ∈ records, p.2 = true

variable {crt}

theorem write_writeCall_untyped {bsType bsData : Bytes}
    (htyped : (typedValue crt (cstr bsType) (cstr bsData)).2 = false) (r : Replies)
    (bsConn bsItem : Bytes) (g : COPCGroup) :
    (writeCall crt r bsConn bsItem bsType bsData g).2.write = [] := by
  rcases writeCall_cases crt r bsConn bsItem bsType bsData g with
    heq | ⟨g₁, p, g₂, ret, -, hok, -⟩
  · rw [heq]
    rfl
  · rw [htyped] at hok
    cases hok

/-- A single write of a value that cannot be typed writes nothing. -/
theorem unsent_single (bsConn bsItem bsType bsData : Bytes) :
    (WriteCall.single bsConn bsItem bsType bsData).Unsent crt := by
  intro htyped s r
  have hbody := write_writeCall_untyped htyped r bsConn bsItem
  have hnext : (sapi crt).next s (.write bsConn bsItem bsType bsData, r) =
      getOPCGroup r wrGroupName (-1) (writeCall crt r bsConn bsItem bsType bsData) s := rfl
  rw [WriteCall.toCall, hnext, getOPCGroup]
  simp only
  split_ifs
  · rfl
  · split
    · exact hbody _
    · rfl
  · split <;> exact hbody _

/-- **A multiple write of new items** on an accepting server writes the values of all records,
whatever `AddItem` answered. -/
theorem multi_sends {bsParStr : Bytes} {records : List (CEdpsParam × Bool)}
    (hparse : parseWriteRequest crt bsParStr = .ok records)
    (hnamed : (szGroupName (records.map Prod.fst)).isSome) {p : CEdpsParam × Bool}
    (hp : p ∈ records) (r : AcceptingReplies) :
    ∃ it ∈ ((sapi crt).next .init (.mwrite bsParStr, r.toReplies)).2.write,
      it.hClient = p.1.dwParID ∧ it.vDataValue = p.1.val := by
  set params := records.map Prod.fst with hparams
  obtain ⟨szName, hname⟩ := Option.isSome_iff_exists.1 hnamed
  have hmem : p.1 ∈ params := List.mem_map_of_mem hp
  have hrequest : parseRequest crt bsParStr false = .ok params := by
    rw [parseRequest_eq, hparse]
    rfl
  have hnd : (params.map CEdpsParam.dwParID).Nodup := by
    have hids : (records.map fun p => p.1.dwParID) = List.range' 1 records.length :=
      dwParID_parseWriteRecords List.map_nil hparse
    have hmap : params.map CEdpsParam.dwParID = records.map fun p => p.1.dwParID := List.map_map
    rw [hmap, hids]
    exact List.nodup_range'
  have hadd : failed r.addGroup = false := by
    have h := r.addGroup_ok
    simpa [failed, succeeded] using h
  have hnext : (sapi crt).next .init (.mwrite bsParStr, r.toReplies) =
      multiCall crt r.toReplies false bsParStr (mwriteCall r.toReplies) .init := rfl
  rw [hnext, multiCall, hrequest]
  simp only [if_neg (List.ne_nil_of_mem hmem), hname]
  rw [getOPCGroup_log r.connect_ok hadd]
  exact write_all r szName hnd hmem

/-- A request whose group has no name writes nothing. -/
theorem multi_unnamed {bsParStr : Bytes} {records : List (CEdpsParam × Bool)}
    (hparse : parseWriteRequest crt bsParStr = .ok records)
    (hnamed : ¬ (szGroupName (records.map Prod.fst)).isSome) (s : SapiState) (r : Replies) :
    ((sapi crt).next s (.mwrite bsParStr, r)).2.write = [] := by
  have hnone : szGroupName (records.map Prod.fst) = none := Option.not_isSome_iff_eq_none.1 hnamed
  have hrequest : parseRequest crt bsParStr false = .ok (records.map Prod.fst) := by
    rw [parseRequest_eq, hparse]
    rfl
  have hnext : (sapi crt).next s (.mwrite bsParStr, r) =
      multiCall crt r false bsParStr (mwriteCall r) s := rfl
  rw [hnext, multiCall, hrequest]
  simp only [hnone]
  split_ifs <;> rfl

/-- **A value that cannot be typed** is never written by a single write; a multiple write does not
write one exactly when it has none, or does not come to its group. -/
theorem unsent_iff (crt : Crt) (c : WriteCall) : c.Unsent crt ↔ c.Typed crt := by
  cases c with
  | single bsConn bsItem bsType bsData =>
    exact iff_of_true (unsent_single bsConn bsItem bsType bsData) trivial
  | multi bsParStr =>
    refine forall₂_congr fun records hparse => ?_
    by_cases hnamed : (szGroupName (records.map Prod.fst)).isSome
    · rw [forall_prop_of_true hnamed]
      refine forall₂_congr fun p hp => ?_
      constructor
      · intro h
        by_contra hanswer
        obtain ⟨it, hit, hkey, -⟩ := multi_sends hparse hnamed hp acceptingReplies
        exact h (by simpa using hanswer) .init acceptingReplies.toReplies it hit hkey
      · intro hanswer hno
        rw [hanswer] at hno
        cases hno
    · refine iff_of_true (fun p _ _ s r it hit => ?_) fun h => absurd h hnamed
      rw [WriteCall.toCall, multi_unnamed hparse hnamed] at hit
      cases hit

/-- A multiple write of one word, whose type is misspelled. -/
def misspelled : Bytes := ascii "001A001C006DB1,W0003INT00150011"

/-- The empty value is written to the word. -/
theorem not_unsent_misspelled :
    ¬ (WriteCall.multi misspelled).Unsent exampleCrt ∧
      ((sapi exampleCrt).next .init (.mwrite misspelled, acceptingReplies.toReplies)).2.write.map
        (fun it => (it.szItemID, it.vDataValue)) = [(ascii "S7:[C]DB1,W0", .empty)] := by
  refine ⟨fun h => ?_, by decide +kernel⟩
  have hparse : parseWriteRequest exampleCrt misspelled =
      .ok [(⟨1, ascii "S7:[C]DB1,W0", .empty⟩, false)] := by
    decide +kernel
  have hkeys : ((sapi exampleCrt).next .init
      (.mwrite misspelled, acceptingReplies.toReplies)).2.write.map COPCItem.hClient = [1] := by
    decide +kernel
  have hone : 1 ∈ ((sapi exampleCrt).next .init
      (.mwrite misspelled, acceptingReplies.toReplies)).2.write.map COPCItem.hClient := by
    rw [hkeys]
    exact List.mem_singleton.2 rfl
  obtain ⟨it, hit, hkey⟩ := List.mem_map.1 hone
  exact h _ hparse _ (List.mem_singleton.2 rfl) rfl .init acceptingReplies.toReplies it hit hkey

end OpcS7

end Edps
