import Edps.Sis.Calculator
import Mathlib.Data.List.Forall2

/-!
# Requests and replies of groups

A group request must name every member with its address, and the reply of the server must reach
every member and no other record.

* `parseGroup_eq` : `ParseGroup` loads the members one after the other, as long as the semicolons
  stand at `Integer` positions.
-/

namespace Edps

namespace Sis

open Vb

variable {R : Runtime}

/-! ### Searching for semicolons -/

theorem inStrFrom_append {c : UInt16} {a : VbString} (h : c ∉ a) (b : VbString) (pos : ℕ) :
    inStrFrom [c] (a ++ c :: b) pos = pos + a.length := by
  induction a generalizing pos with
  | nil => rw [List.nil_append, inStrFrom, if_pos (by simp), List.length_nil, Nat.add_zero]
  | cons d a ih =>
    obtain ⟨hd, ha⟩ := List.ne_and_not_mem_of_not_mem_cons h
    rw [List.cons_append, inStrFrom, if_neg (by simpa using hd), ih ha, List.length_cons]
    omega

/-- The semicolons of a text stand where their positions, and the ones behind them, are
`Integer`s. -/
def SemicolonsWithin (sSource : VbString) : Prop :=
  ∀ k : ℕ, sSource[k]? = some 59 → k < 32766

/-! ### ParseGroup -/

/-- The text between two positions. -/
theorem mid_segment (pre a b : VbString) :
    mid (pre ++ (a ++ b)) (pre.length + 1) a.length = .ok a :=
  mid_eq rfl rfl rfl

/-- The segment behind the last semicolon. -/
def lastSegment (s : VbString) : VbString := (s.splitOn 59).getLastD []

theorem splitOn_semicolon {a : VbString} (h : (59 : UInt16) ∉ a) (b : VbString) :
    (a ++ 59 :: b).splitOn 59 = a :: b.splitOn 59 :=
  List.splitOn_append_cons_self_of_not_mem h b

/-- From semicolon to semicolon. -/
theorem semicolon_induction {P : VbString → Prop} (last : ∀ s, (59 : UInt16) ∉ s → P s)
    (segment : ∀ a b, (59 : UInt16) ∉ a → P b → P (a ++ 59 :: b)) (s : VbString) : P s := by
  induction hn : s.length using Nat.strong_induction_on generalizing s with
  | _ n ih =>
    by_cases hmem : (59 : UInt16) ∈ s
    · obtain ⟨a, b, rfl, ha⟩ := List.eq_append_cons_of_mem hmem
      refine segment a b ha (ih b.length ?_ b rfl)
      rw [← hn]
      simp
      omega
    · exact last s hmem

theorem semicolon_not_mem {s seg : VbString} (hseg : seg ∈ s.splitOn 59) :
    (59 : UInt16) ∉ seg := by
  induction s using semicolon_induction with
  | last s h =>
    rw [List.splitOn_eq_singleton h, List.mem_singleton] at hseg
    rwa [hseg]
  | segment a b h ih =>
    rw [splitOn_semicolon h] at hseg
    rcases List.mem_cons.1 hseg with rfl | hseg
    · exact h
    · exact ih hseg

theorem lastSegment_append {a : VbString} (h : (59 : UInt16) ∉ a) (b : VbString) :
    lastSegment (a ++ 59 :: b) = lastSegment b := by
  obtain ⟨seg, segs, hb⟩ := List.exists_cons_of_ne_nil (List.splitOn_ne_nil 59 b)
  simp only [lastSegment, splitOn_semicolon h, hb, List.getLastD_cons]

theorem dropLast_splitOn_append {a : VbString} (h : (59 : UInt16) ∉ a) (b : VbString) :
    ((a ++ 59 :: b).splitOn 59).dropLast = a :: (b.splitOn 59).dropLast := by
  rw [splitOn_semicolon h, List.dropLast_cons_of_ne_nil (List.splitOn_ne_nil 59 b)]

/-- The search finds the first semicolon from `iCurr` on. -/
theorem inStrAt_semicolon {pre a : VbString} (h : (59 : UInt16) ∉ a) (b : VbString) {iCurr : ℤ}
    (hpos : iCurr = pre.length + 1) :
    (inStrAt iCurr (pre ++ (a ++ 59 :: b)) (vb ";") : ℤ) = pre.length + a.length + 1 := by
  have hvb : vb ";" = [59] := by decide
  rw [inStrAt, show iCurr.toNat - 1 = pre.length by omega, List.drop_left, hvb,
    inStrFrom_append h]
  omega

/-- **The loop of `ParseGroup`**: every segment but the last is looked at. -/
theorem scanGroup_eq {pre rest : VbString} {fuel : ℕ} {oSource : List ToRead} {iCurr : ℤ}
    (hpos : iCurr = pre.length + 1) (hfuel : rest.length < fuel)
    (hwithin : ∀ k : ℕ, rest[k]? = some 59 → pre.length + k < 32766) :
    scanGroup (R := R) (pre ++ rest) fuel iCurr oSource = (do
      let oSource ← ((rest.splitOn 59).dropLast.map trim).foldlM addMember oSource
      return ((pre ++ rest).length - (lastSegment rest).length + 1, oSource)) := by
  induction fuel generalizing pre rest oSource iCurr with
  | zero => omega
  | succ fuel ih =>
    by_cases hmem : (59 : UInt16) ∈ rest
    · obtain ⟨a, b, rfl, ha⟩ := List.eq_append_cons_of_mem hmem
      have hsemi : pre.length + a.length < 32766 := hwithin a.length (by simp)
      have hiLast : toInteger (inStrAt iCurr (pre ++ (a ++ 59 :: b)) (vb ";")) =
          .ok (pre.length + a.length + 1 : ℤ) := by
        rw [inStrAt_semicolon ha b hpos, toInteger, if_pos (by omega)]
      have hmid : mid (pre ++ (a ++ 59 :: b)) iCurr (pre.length + a.length + 1 - iCurr) =
          .ok a := by
        rw [hpos, show (pre.length + a.length + 1 - (pre.length + 1) : ℤ) = a.length by omega]
        exact mid_segment pre a _
      have hnext : toInteger (pre.length + a.length + 1 + 1 : ℤ) =
          .ok (pre.length + a.length + 1 + 1 : ℤ) := by
        rw [toInteger, if_pos (by omega)]
      rw [scanGroup, liftE_bind hiLast, if_pos (by omega), liftE_bind hmid, liftE_bind hnext,
        dropLast_splitOn_append ha, lastSegment_append ha, List.map_cons, List.foldlM_cons,
        bind_assoc]
      -- the segments of the rest, behind this semicolon
      refine bind_congr fun oSource' => ?_
      have happ : pre ++ (a ++ 59 :: b) = (pre ++ (a ++ [59])) ++ b := by simp
      rw [happ]
      refine ih (by simp; omega) (by simp at hfuel; omega) fun k hk => ?_
      have hk' := hwithin (a.length + (k + 1)) (by
        rw [List.getElem?_append_right (by omega), Nat.add_sub_cancel_left]
        simpa using hk)
      simp
      omega
    · have hiLast : toInteger (inStrAt iCurr (pre ++ rest) (vb ";")) = .ok 0 := by
        rw [inStrAt, show iCurr.toNat - 1 = pre.length by omega, List.drop_left,
          show vb ";" = [59] by decide, inStrFrom_of_not_mem hmem]
        rfl
      rw [scanGroup, liftE_bind hiLast, if_neg (by omega), lastSegment,
        List.splitOn_eq_singleton hmem]
      simp [hpos]

/-- A semicolon too far behind is an error. -/
theorem scanGroup_overflow {pre rest : VbString} {fuel : ℕ} {oSource : List ToRead} {iCurr : ℤ}
    (hpos : iCurr = pre.length + 1) (hfuel : rest.length < fuel)
    (hover : ∃ k : ℕ, rest[k]? = some 59 ∧ 32766 ≤ pre.length + k) (s s' : CalcState R)
    (r : ℤ × List ToRead) : scanGroup (pre ++ rest) fuel iCurr oSource s ≠ .ok r s' := by
  induction fuel generalizing pre rest oSource iCurr s with
  | zero => omega
  | succ fuel ih =>
    obtain ⟨k, hk, hfar⟩ := hover
    obtain ⟨a, b, rfl, ha⟩ := List.eq_append_cons_of_mem (List.mem_of_getElem? hk)
    simp only [scanGroup, inStrAt_semicolon ha b hpos, bind_ok, exists_liftE_ok, ne_eq, not_exists,
      not_and]
    intro iLast hiLast h
    obtain rfl := toInteger_ok hiLast
    rw [if_pos (by omega)] at h
    simp only [bind_ok, exists_liftE_ok] at h
    obtain ⟨_, -, iCurr', hnext, oSource', s₁, -, h⟩ := h
    obtain rfl := toInteger_ok hnext
    -- the semicolon too far behind is a later one
    rw [toInteger] at hnext
    split_ifs at hnext with hint
    have happ : pre ++ (a ++ 59 :: b) = (pre ++ (a ++ [59])) ++ b := by simp
    rw [happ] at h
    refine ih (by simp; omega) (by simp at hfuel; omega) ⟨k - (a.length + 1), ?_, ?_⟩ s₁ h
    · rw [List.getElem?_append_right (by omega)] at hk
      obtain ⟨j, hj⟩ : ∃ j, k - a.length = j + 1 := ⟨k - a.length - 1, by omega⟩
      rw [hj, List.getElem?_cons_succ] at hk
      rwa [show k - (a.length + 1) = j by omega]
    · simp
      omega

theorem lastSegment_suffix (s : VbString) : lastSegment s <:+ s := by
  induction s using semicolon_induction with
  | last s h =>
    rw [lastSegment, List.splitOn_eq_singleton h]
    exact List.suffix_rfl
  | segment a b h ih =>
    rw [lastSegment_append h]
    exact (ih.trans (List.suffix_cons 59 b)).trans (List.suffix_append a _)

theorem right_lastSegment (s : VbString) :
    right s (s.length - (s.length - (lastSegment s).length + 1 : ℤ) + 1) =
      .ok (lastSegment s) := by
  obtain ⟨t, ht⟩ := lastSegment_suffix s
  generalize lastSegment s = last at ht ⊢
  subst ht
  have hlen : ((t ++ last).length : ℤ) - ((t ++ last).length - last.length + 1) + 1 =
      last.length := by omega
  rw [hlen, right, if_neg (by omega), Int.toNat_natCast, List.length_append, Nat.add_sub_cancel,
    List.drop_left]

/-- **`ParseGroup` segment by segment.** -/
theorem parseGroup_eq {sSource : VbString} (hwithin : SemicolonsWithin sSource) :
    parseGroup (R := R) sSource = (do
      let oSource ← ((sSource.splitOn 59).map trim).foldlM addMember []
      reDimResult oSource.length
      return oSource) := by
  have hsplit : (sSource.splitOn 59).map trim =
      (sSource.splitOn 59).dropLast.map trim ++ [trim (lastSegment sSource)] := by
    have hlast := List.dropLast_append_getLast (List.splitOn_ne_nil 59 sSource)
    rw [← List.map_singleton, ← List.map_append, lastSegment, List.getLastD_eq_getLast?,
      List.getLast?_eq_some_getLast (List.splitOn_ne_nil 59 sSource), Option.getD_some, hlast]
  have hscan : scanGroup (R := R) ([] ++ sSource) (sSource.length + 1) 1 [] = _ :=
    scanGroup_eq (by simp) (by omega) (by simpa [SemicolonsWithin] using hwithin)
  rw [List.nil_append] at hscan
  rw [parseGroup, hscan, hsplit, List.foldlM_append, bind_assoc, bind_assoc]
  refine bind_congr fun oSource => ?_
  rw [pure_bind]
  simp only
  rw [liftE_bind (right_lastSegment sSource), List.foldlM_cons, bind_assoc]
  rfl

/-! ### The members of a group -/

/-- The ids of the members: the segments without the blanks around them, if something is left. -/
def memberIds (sSource : VbString) : List VbString :=
  ((sSource.splitOn 59).map trim).filter (· ≠ [])

/-- The text is a pool string, which any object reads as this record. -/
def Loads (t : VbString) (d : Datum R) : Prop :=
  ∀ e : Datum R, letPoolString t e = ({ d with someID := e.someID }, none)

variable (R) in
/-- The id of a record in the store, with the address of the record. -/
def Addressed (store : ℤ → VbString) (sParID : VbString) (m : ToRead) : Prop :=
  ∃ i, ∃ d : Datum R, cInt R.numeric sParID = .ok i ∧ Loads (store i) d ∧
    m = ⟨d.addr1, d.addr2, d.addr3, d.addr4, sParID⟩

theorem trim_subset (s : VbString) : trim s ⊆ s := by
  intro c hc
  rw [trim, List.mem_reverse] at hc
  have hc' := List.dropWhile_subset _ hc
  rw [List.mem_reverse] at hc'
  exact List.dropWhile_subset _ hc'

/-- A segment is never a lone semicolon. -/
theorem filter_isMember (sSource : VbString) :
    ((sSource.splitOn 59).map trim).filter isMember = memberIds sSource := by
  refine List.filter_congr fun t ht => ?_
  obtain ⟨seg, hseg, rfl⟩ := List.mem_map.1 ht
  have hne : trim seg ≠ vb ";" := by
    intro h
    have hmem : (59 : UInt16) ∈ trim seg := by
      rw [h]
      decide
    exact semicolon_not_mem hseg (trim_subset seg hmem)
  simp [isMember, hne]

theorem toRead_ok {sParID : VbString} {m : ToRead} {s : CalcState R}
    (h : Addressed R s.store sParID m) :
    ∃ s', toRead sParID s = .ok m s' ∧ s'.store = s.store := by
  obtain ⟨i, d, hi, hload, rfl⟩ := h
  refine ⟨s.setOp .mfdptr { d with someID := (s.op .mfdptr).someID }, ?_, rfl⟩
  rw [toRead, liftE_bind hi, bind_ok]
  refine ⟨(), _, by rw [getData, hload], ?_⟩
  rw [getOp_bind, CalcState.setOp_op_self]
  rfl

/-- The members of a group loaded one after the other. -/
theorem foldlM_addMember (oSource : List ToRead) {segs : List VbString} {ms : List ToRead}
    {s : CalcState R} (h : List.Forall₂ (Addressed R s.store) (segs.filter isMember) ms) :
    ∃ s', segs.foldlM addMember oSource s = .ok (oSource ++ ms) s' ∧ s'.store = s.store := by
  induction segs generalizing oSource ms s with
  | nil =>
    cases h
    exact ⟨s, by simp [pure_ok], rfl⟩
  | cons seg segs ih =>
    rw [List.foldlM_cons]
    by_cases hseg : isMember seg = true
    · rw [List.filter_cons_of_pos hseg] at h
      cases h with
      | cons hm hms =>
        obtain ⟨s₁, hread, hs₁⟩ := toRead_ok hm
        obtain ⟨s', hrest, hs'⟩ := ih (oSource ++ [_]) (by rwa [hs₁])
        refine ⟨s', ?_, hs'.trans hs₁⟩
        rw [bind_ok]
        refine ⟨_, s₁, ?_, by rwa [List.append_assoc] at hrest⟩
        rw [addMember, if_pos hseg, bind_ok]
        exact ⟨_, s₁, hread, rfl⟩
    · rw [List.filter_cons_of_neg hseg] at h
      obtain ⟨s', hrest, hs'⟩ := ih oSource h
      refine ⟨s', ?_, hs'⟩
      rw [bind_ok]
      exact ⟨_, s, by rw [addMember, if_neg hseg]; rfl, hrest⟩

/-! ### CombineToRead -/

/-- A text behind its length in three digits. -/
def behindLength (s : VbString) : VbString := digitText 3 s.length ++ s

/-- What the server is to be asked: the address and the id of every member. -/
def readRequest (ms : List ToRead) : VbString :=
  ms.flatMap fun m =>
    behindLength m.sCP ++ behindLength m.sConn ++ behindLength m.sVarName ++
      behindLength m.sType ++ behindLength m.sParID

/-- The fields of the address have at most 999 characters. -/
def ToRead.ShortAddress (m : ToRead) : Prop :=
  m.sCP.length < 1000 ∧ m.sConn.length < 1000 ∧ m.sVarName.length < 1000 ∧ m.sType.length < 1000

/-- The text `CombineToRead` makes of the members. -/
def combined (ms : List ToRead) : VbString :=
  (ms.map fun m =>
    framed m.sCP ++ framed m.sConn ++ framed m.sVarName ++ framed m.sType ++
      framed m.sParID).flatten

theorem framed_eq {s : VbString} (h : s.length < 1000) : framed s = behindLength s := by
  rw [framed, formatLen, if_pos h, behindLength]

@[simp] theorem length_behindLength (s : VbString) : (behindLength s).length = 3 + s.length := by
  simp [behindLength]

/-- A longer text has a longer header. -/
theorem lt_length_framed {s : VbString} (h : 1000 ≤ s.length) :
    3 + s.length < (framed s).length := by
  have hdigits : 3 < (Decimal.digits s.length).length := Decimal.lt_length_digits h
  rw [framed, formatLen, if_neg (by omega), List.length_append, cStr, length_ofCodes,
    Decimal.intText, if_neg (by omega), Int.natAbs_natCast, Decimal.natText, Decimal.length_codes]
  omega

theorem le_length_framed (s : VbString) : 3 + s.length ≤ (framed s).length := by
  rcases Nat.lt_or_ge s.length 1000 with h | h
  · rw [length_framed h]
  · exact (lt_length_framed h).le

/-- The request of members with short addresses is the one they make if their ids are short
too. -/
theorem combined_eq_iff {ms : List ToRead} (h : ∀ m ∈ ms, m.ShortAddress) :
    combined ms = readRequest ms ↔ ∀ m ∈ ms, m.sParID.length < 1000 := by
  constructor
  · intro heq m hm
    -- with a longer id the text of its member is longer, and none is shorter
    have hle : ∀ ms : List ToRead, (readRequest ms).length ≤ (combined ms).length := by
      intro ms
      induction ms with
      | nil => rfl
      | cons m ms ih =>
        have h₁ := le_length_framed m.sCP
        have h₂ := le_length_framed m.sConn
        have h₃ := le_length_framed m.sVarName
        have h₄ := le_length_framed m.sType
        have h₅ := le_length_framed m.sParID
        simp only [readRequest, combined] at ih
        simp only [readRequest, combined, List.flatMap_cons, List.map_cons, List.flatten_cons,
          List.length_append, length_behindLength]
        omega
    by_contra hlong
    obtain ⟨pre, post, rfl⟩ := List.append_of_mem hm
    have h₁ := le_length_framed m.sCP
    have h₂ := le_length_framed m.sConn
    have h₃ := le_length_framed m.sVarName
    have h₄ := le_length_framed m.sType
    have h₅ := lt_length_framed (Nat.le_of_not_lt hlong)
    have hpre := hle pre
    have hpost := hle post
    have hlen := congrArg List.length heq
    simp only [readRequest, combined] at hpre hpost
    simp only [readRequest, combined, List.flatMap_append, List.flatMap_cons, List.map_append,
      List.map_cons, List.flatten_append, List.flatten_cons, List.length_append,
      length_behindLength] at hlen
    omega
  · intro hid
    rw [combined, readRequest, List.flatMap_def]
    congr 1
    refine List.map_congr_left fun m hm => ?_
    obtain ⟨h₁, h₂, h₃, h₄⟩ := h m hm
    rw [framed_eq h₁, framed_eq h₂, framed_eq h₃, framed_eq h₄, framed_eq (hid m hm)]

/-- **`ParseGroup` of a group with members.** -/
theorem parseGroup_ok {sSource : VbString} {ms : List ToRead} {s : CalcState R}
    (h : List.Forall₂ (Addressed R s.store) (memberIds sSource) ms)
    (hwithin : SemicolonsWithin sSource) (hne : ms ≠ []) :
    ∃ s', parseGroup sSource s = .ok ms s' ∧ s'.store = s.store ∧
      s'.oResult.length = ms.length := by
  rw [← filter_isMember] at h
  obtain ⟨s₁, hfold, hs₁⟩ := foldlM_addMember [] h
  refine ⟨{ s₁ with oResult := List.replicate ms.length ⟨[], []⟩ }, ?_, hs₁, by simp⟩
  rw [parseGroup_eq hwithin, bind_ok]
  refine ⟨ms, s₁, hfold, ?_⟩
  rw [bind_ok]
  exact ⟨(), _, by rw [reDimResult, if_neg (by simpa using hne)], rfl⟩

/-- A group without members has no place for results. -/
theorem parseGroup_empty {sSource : VbString} (h : memberIds sSource = [])
    (hwithin : SemicolonsWithin sSource) (s s' : CalcState R) (ms : List ToRead) :
    parseGroup sSource s ≠ .ok ms s' := by
  have hnone : List.Forall₂ (Addressed R s.store)
      (((sSource.splitOn 59).map trim).filter isMember) [] := by
    rw [filter_isMember, h]
    exact .nil
  obtain ⟨s₁, hfold, -⟩ := foldlM_addMember [] hnone
  rw [parseGroup_eq hwithin]
  simp only [bind_ok, hfold, ne_eq, EStateM.Result.ok.injEq, not_exists, not_and]
  rintro _ _ ⟨rfl, rfl⟩ _ _ hdim
  cases hdim

theorem parseGroup_overflow {sSource : VbString} (hover : ¬ SemicolonsWithin sSource)
    (s s' : CalcState R) (ms : List ToRead) : parseGroup sSource s ≠ .ok ms s' := by
  simp only [SemicolonsWithin, not_forall, not_lt] at hover
  obtain ⟨k, hk, hfar⟩ := hover
  intro h
  rw [parseGroup, bind_ok] at h
  obtain ⟨r, s₁, hscan, -⟩ := h
  have hover' : ∃ k : ℕ, sSource[k]? = some 59 ∧ 32766 ≤ ([] : VbString).length + k :=
    ⟨k, hk, by simpa using hfar⟩
  exact scanGroup_overflow (by simp) (by omega) hover' s s₁ r hscan

/-- **When a group request names every member**: the group has at least two, its semicolons stand
at `Integer` positions and the ids are no longer than three digits can tell. -/
theorem combineToRead_names_iff {sSource : VbString} {ms : List ToRead} {s : CalcState R}
    (h : List.Forall₂ (Addressed R s.store) (memberIds sSource) ms)
    (haddr : ∀ m ∈ ms, m.ShortAddress) :
    (∃ s', combineToRead sSource s = .ok (readRequest ms) s' ∧
        s'.oResult.length = ms.length) ↔
      2 ≤ ms.length ∧ SemicolonsWithin sSource ∧ ∀ m ∈ ms, m.sParID.length < 1000 := by
  by_cases hwithin : SemicolonsWithin sSource
  · rcases eq_or_ne ms [] with rfl | hne
    · -- no member
      have hids : memberIds sSource = [] := by simpa using h.length_eq
      simp only [combineToRead, bind_ok]
      constructor
      · rintro ⟨_, ⟨ms, s₁, hparse, -⟩, -⟩
        exact absurd hparse (parseGroup_empty hids hwithin s s₁ ms)
      · rintro ⟨hlen, -⟩
        simp at hlen
    · obtain ⟨s', hparse, -, hsize⟩ := parseGroup_ok h hwithin hne
      have hcombine : combineToRead sSource s =
          .ok (if 2 ≤ ms.length then combined ms else []) s' := by
        rw [combineToRead, bind_ok]
        refine ⟨ms, s', hparse, ?_⟩
        split_ifs with h₁ h₂ h₂
        · omega
        · rfl
        · rfl
        · omega
      rw [hcombine]
      by_cases htwo : 2 ≤ ms.length
      · simp only [if_pos htwo, EStateM.Result.ok.injEq, combined_eq_iff haddr]
        exact ⟨fun ⟨_, ⟨hids, rfl⟩, _⟩ => ⟨htwo, hwithin, hids⟩,
          fun ⟨_, _, hids⟩ => ⟨s', ⟨hids, rfl⟩, hsize⟩⟩
      · -- one member: the empty text
        obtain ⟨m, ms, rfl⟩ := List.exists_cons_of_ne_nil hne
        have hrequest : ([] : VbString) ≠ readRequest (m :: ms) := by
          intro heq
          have hlen := congrArg List.length heq
          simp only [readRequest, List.flatMap_cons, List.length_append, length_behindLength,
            List.length_nil] at hlen
          omega
        rw [if_neg htwo]
        refine iff_of_false ?_ fun hcond => htwo hcond.1
        rintro ⟨_, heq, -⟩
        exact hrequest (EStateM.Result.ok.inj heq).1
  · -- a semicolon too far behind
    simp only [combineToRead, bind_ok]
    constructor
    · rintro ⟨_, ⟨ms, s₁, hparse, -⟩, -⟩
      exact absurd hparse (parseGroup_overflow hwithin s s₁ ms)
    · rintro ⟨-, hw, -⟩
      exact absurd hw hwithin

/-- The member every id of the example store names. -/
def exampleMember (sParID : VbString) : ToRead :=
  ⟨vb "S7_L2", vb "CONN1", vb "DB10,REAL4,1", vb "FLOAT", sParID⟩

theorem loads_exampleState (i : ℤ) : Loads (exampleState.store i) exampleDatum :=
  letPoolString_poolString encodable_exampleDatum (text_exampleState i) (short_exampleState i)

theorem addressed_exampleState {sParID : VbString} {i : ℤ}
    (h : cInt plainRuntime.numeric sParID = .ok i) :
    Addressed plainRuntime exampleState.store sParID (exampleMember sParID) :=
  ⟨i, exampleDatum, h, loads_exampleState i, rfl⟩

theorem shortAddress_exampleMember (sParID : VbString) :
    (exampleMember sParID).ShortAddress :=
  ⟨(by decide : (vb "S7_L2").length < 1000), (by decide : (vb "CONN1").length < 1000),
    (by decide : (vb "DB10,REAL4,1").length < 1000), (by decide : (vb "FLOAT").length < 1000)⟩

/-- A group of two, with a blank segment and blanks around an id. -/
theorem combineToRead_names_two :
    ∃ s', combineToRead (vb "17; ; 18 ;") exampleState =
      .ok (readRequest [exampleMember (vb "17"), exampleMember (vb "18")]) s' ∧
        s'.oResult.length = 2 := by
  have hids : memberIds (vb "17; ; 18 ;") = [vb "17", vb "18"] := by decide +kernel
  have hms : List.Forall₂ (Addressed plainRuntime exampleState.store)
      (memberIds (vb "17; ; 18 ;")) [exampleMember (vb "17"), exampleMember (vb "18")] := by
    rw [hids]
    exact .cons (addressed_exampleState (i := 17) rfl)
      (.cons (addressed_exampleState (i := 18) rfl) .nil)
  have haddr : ∀ m ∈ [exampleMember (vb "17"), exampleMember (vb "18")], m.ShortAddress := by
    simp [shortAddress_exampleMember]
  refine (combineToRead_names_iff hms haddr).2 ⟨le_rfl, ?_, by decide +kernel⟩
  intro k hk
  have hlt := (List.getElem?_eq_some_iff.1 hk).1
  have hlen : (vb "17; ; 18 ;").length = 10 := by decide +kernel
  omega

/-- A group with one member asks for nothing. -/
theorem not_combineToRead_names_one :
    List.Forall₂ (Addressed plainRuntime exampleState.store) (memberIds (vb "17"))
        [exampleMember (vb "17")] ∧
      (exampleMember (vb "17")).ShortAddress ∧
      ¬ ∃ s', combineToRead (vb "17") exampleState =
          .ok (readRequest [exampleMember (vb "17")]) s' ∧ s'.oResult.length = 1 := by
  have hids : memberIds (vb "17") = [vb "17"] := by decide +kernel
  refine ⟨?_, shortAddress_exampleMember _, ?_⟩
  · rw [hids]
    exact .cons (addressed_exampleState (i := 17) rfl) .nil
  · obtain ⟨s₁, hempty⟩ : ∃ s₁, combineToRead (vb "17") exampleState = .ok [] s₁ := ⟨_, rfl⟩
    rintro ⟨s', hnamed, -⟩
    rw [hempty] at hnamed
    have htext : readRequest [exampleMember (vb "17")] = [] :=
      (EStateM.Result.ok.inj hnamed).1.symm
    exact absurd htext (by decide +kernel)

end Sis

end Edps
