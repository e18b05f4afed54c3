import Edps.Lib.Runs

/-!
# Maintenance of the local database

`DB.MantainDatabase` compacts the local Jet database in place: it deletes an old
`sDataBase.bak`, compacts `sDataBase` into a new one, deletes `sDataBase`, copies the compacted
file back and deletes the `.bak`.  Every file operation can fail; the deletion of the old `.bak`
runs under `On Error Resume Next`, the others leave for `MExit`.

* `mantainDatabase` : the two files after every file operation of one call.
* `localDatabase` : the machine of maintenance calls with inserts between them.
* `survives_iff` : in a run, a complete copy of the data exists at every moment exactly when no
  call deletes the `.bak` (and no insert is made) while `sDataBase` itself is incomplete.

The condition is not checked by the code: after a call whose `FileCopy` failed the only complete
copy is the `.bak`, which the next call deletes first (`not_survives_copy_failed`).
-/

namespace Edps

namespace Leis

variable {Row : Type}

/-- The files `sDataBase` and `sDataBase.bak`: the rows a file holds, `none` when it is absent. -/
structure Files (Row : Type) where
  /-- `sDataBase` -/
  dataBase : Option (List Row)
  /-- `sDataBase.bak` -/
  bak : Option (List Row)
  deriving DecidableEq, Repr

/-- What the file operations of one call do.  An operation that writes a file and fails can
leave anything in it, also nothing. -/
structure MaintenanceOutcome (Row : Type) where
  /-- `ConnPermission = False` closed the connection. -/
  denied : Bool
  /-- `Kill (sDataBase + ".bak")` before the compaction. -/
  killOldBak : Bool
  /-- `CompactDatabase` writes the whole target, or fails with this in its place. -/
  compact : Except (Option (List Row)) Unit
  /-- `Kill(sDataBase)` -/
  killDataBase : Bool
  /-- `FileCopy(sDataBase + ".bak", sDataBase)` writes the whole target, or fails with this in
  its place. -/
  fileCopy : Except (Option (List Row)) Unit
  /-- `Kill(sDataBase + ".bak")` at the end. -/
  killBak : Bool
  deriving Repr

/-! ### The file operations -/

/-- `If Dir(sDataBase + ".bak") <> "" Then Kill (sDataBase + ".bak")`, failures ignored. -/
def dropOldBak (f : Files Row) (o : MaintenanceOutcome Row) : Files Row :=
  if o.killOldBak then { f with bak := none } else f

/-- `je.CompactDatabase sSour, sDest`: needs the source and refuses an existing target. -/
def compactDatabase (f : Files Row) (o : MaintenanceOutcome Row) :
    Except (Files Row) (Files Row) :=
  match f.bak, f.dataBase, o.compact with
  | some _, _, _ => .error f
  | none, some rows, .ok () => .ok { f with bak := some rows }
  | none, some _, .error left => .error { f with bak := left }
  | none, none, _ => .error f

/-- `Kill(sDataBase)` -/
def killDataBase (f : Files Row) (o : MaintenanceOutcome Row) : Except (Files Row) (Files Row) :=
  if o.killDataBase then .ok { f with dataBase := none } else .error f

/-- `FileCopy(sDataBase + ".bak", sDataBase)` -/
def fileCopy (f : Files Row) (o : MaintenanceOutcome Row) : Except (Files Row) (Files Row) :=
  match o.fileCopy with
  | .ok () => .ok { f with dataBase := f.bak }
  | .error left => .error { f with dataBase := left }

/-- `Kill(sDataBase + ".bak")` -/
def killBak (f : Files Row) (o : MaintenanceOutcome Row) : Except (Files Row) (Files Row) :=
  if o.killBak then .ok { f with bak := none } else .error f

/-- The files after each operation of a sequence that stops at the first failure
(`On Error GoTo JRO_Error`). -/
def untilError (f : Files Row) :
    List (Files Row → Except (Files Row) (Files Row)) → List (Files Row)
  | [] => []
  | op :: ops =>
    match op f with
    | .error f' => [f']
    | .ok f' => f' :: untilError f' ops

/-- `DB.MantainDatabase`: the files at the start and after every file operation. -/
def mantainDatabase (f : Files Row) (o : MaintenanceOutcome Row) : List (Files Row) :=
  if o.denied then
    let f₁ := dropOldBak f o
    f :: f₁ :: untilError f₁
      [(compactDatabase · o), (killDataBase · o), (fileCopy · o), (killBak · o)]
  else [f]

/-! ### The machine of calls -/

/-- The files, and the data the database is meant to hold: the rows it held at the start and
every row inserted since. -/
structure LocalState (Row : Type) where
  files : Files Row
  data : List Row
  deriving DecidableEq, Repr

/-- What happens to the local database from outside. -/
inductive LocalAct (Row : Type) where
  /-- An `INSERT` through the open connection. -/
  | insert (row : Row)
  /-- A call of `MantainDatabase` whose file operations go as `o` says. -/
  | maintain (o : MaintenanceOutcome Row)

/-- The files at every moment of a step, the first being those before it. -/
def moments (s : LocalState Row) : LocalAct Row → List (Files Row)
  | .insert row => [{ s.files with dataBase := s.files.dataBase.map (· ++ [row]) }]
  | .maintain o => mantainDatabase s.files o

/-- The data after a step: an insert reaches the database only when the file is there. -/
def dataAfter (s : LocalState Row) : LocalAct Row → List Row
  | .insert row => if s.files.dataBase.isSome then s.data ++ [row] else s.data
  | .maintain _ => s.data

/-- The local database under inserts and maintenance calls; put out are the files at every
moment of the step. -/
def localDatabase : Machine (LocalState Row) (LocalAct Row) (List (Files Row)) where
  next s a := (⟨(moments s a).getLastD s.files, dataAfter s a⟩, moments s a)

/-- One of the two files holds all of `data`. -/
def Files.Complete (f : Files Row) (data : List Row) : Prop :=
  f.dataBase = some data ∨ f.bak = some data

instance [DecidableEq Row] (f : Files Row) (data : List Row) : Decidable (f.Complete data) :=
  inferInstanceAs (Decidable (_ ∨ _))

/-- At every moment of the step a complete copy of the data exists. -/
def Survives (s : LocalState Row) (a : LocalAct Row) : Prop :=
  ∀ f ∈ moments s a, f.Complete (dataAfter s a)

instance [DecidableEq Row] (s : LocalState Row) (a : LocalAct Row) : Decidable (Survives s a) :=
  inferInstanceAs (Decidable (∀ f ∈ moments s a, f.Complete (dataAfter s a)))

/-- The condition under which a step keeps a complete copy: a call that gets to deleting the
old `.bak` finds `sDataBase` complete, and so does an insert that finds `sDataBase`. -/
def KeepsCopy (s : LocalState Row) : LocalAct Row → Prop
  | .insert _ => s.files.dataBase.isSome → s.files.dataBase = some s.data
  | .maintain o => o.denied → o.killOldBak → s.files.dataBase = some s.data

/-! ### One step -/

/-- What holds after every operation of a sequence, operation by operation. -/
theorem forall_untilError_cons {Q : Files Row → Prop} {f : Files Row}
    {op : Files Row → Except (Files Row) (Files Row)}
    {ops : List (Files Row → Except (Files Row) (Files Row))} :
    (∀ g ∈ untilError f (op :: ops), Q g) ↔
      (∀ g, op f = .error g → Q g) ∧
        ∀ g, op f = .ok g → Q g ∧ ∀ g' ∈ untilError g ops, Q g' := by
  rw [untilError]
  cases op f with
  | error g => simp
  | ok g => simp

theorem forall_untilError_nil {Q : Files Row → Prop} {f : Files Row} :
    ∀ g ∈ untilError f [], Q g := by simp [untilError]

theorem compactDatabase_error {f g : Files Row} {o : MaintenanceOutcome Row}
    (h : compactDatabase f o = .error g) :
    g.dataBase = f.dataBase ∧ (f.bak.isSome → g.bak = f.bak) := by
  unfold compactDatabase at h
  split at h <;> cases h <;> simp_all

theorem compactDatabase_ok {f g : Files Row} {o : MaintenanceOutcome Row}
    (h : compactDatabase f o = .ok g) :
    f.bak = none ∧ g.dataBase = f.dataBase ∧ g.bak = f.dataBase := by
  unfold compactDatabase at h
  split at h <;> cases h
  rename_i hb hd _
  exact ⟨hb, rfl, hd.symm⟩

theorem fileCopy_bak {f g : Files Row} {o : MaintenanceOutcome Row}
    (h : fileCopy f o = .ok g ∨ fileCopy f o = .error g) : g.bak = f.bak := by
  unfold fileCopy at h
  split at h <;> rcases h with h | h <;> cases h <;> rfl

theorem fileCopy_ok {f g : Files Row} {o : MaintenanceOutcome Row}
    (h : fileCopy f o = .ok g) : g.dataBase = f.bak := by
  unfold fileCopy at h
  split at h <;> cases h
  rfl

/-- A call that finds `sDataBase` complete keeps a complete copy all the way. -/
theorem complete_mantain {f : Files Row} {o : MaintenanceOutcome Row} {data : List Row}
    (h : f.dataBase = some data) : ∀ g ∈ mantainDatabase f o, g.Complete data := by
  have hd : (dropOldBak f o).dataBase = some data := by
    unfold dropOldBak; split <;> exact h
  have htail : ∀ g ∈ untilError (dropOldBak f o)
      [(compactDatabase · o), (killDataBase · o), (fileCopy · o), (killBak · o)],
      g.Complete data := by
    refine forall_untilError_cons.2 ⟨fun g hg => ?_, fun g hg => ?_⟩
    · exact .inl ((compactDatabase_error hg).1.trans hd)
    -- from here to the last operation it is the `.bak` that is complete
    have hbak : g.bak = some data := (compactDatabase_ok hg).2.2.trans hd
    refine ⟨.inr hbak, forall_untilError_cons.2 ⟨fun g' hg' => ?_, fun g' hg' => ?_⟩⟩
    · unfold killDataBase at hg'
      split at hg' <;> cases hg'
      exact .inr hbak
    have hbak' : g'.bak = some data := by
      unfold killDataBase at hg'
      split at hg' <;> cases hg'
      exact hbak
    refine ⟨.inr hbak', forall_untilError_cons.2 ⟨fun k hk => ?_, fun k hk => ?_⟩⟩
    · exact .inr ((fileCopy_bak (.inr hk)).trans hbak')
    have hdk : k.dataBase = some data := (fileCopy_ok hk).trans hbak'
    refine ⟨.inl hdk, forall_untilError_cons.2 ⟨fun l hl => ?_, fun l hl => ?_⟩⟩
    · unfold killBak at hl
      split at hl <;> cases hl
      exact .inl hdk
    · unfold killBak at hl
      split at hl <;> cases hl
      exact ⟨.inl hdk, forall_untilError_nil⟩
  intro g hg
  unfold mantainDatabase at hg
  split at hg
  · rcases List.mem_cons.1 hg with rfl | hg
    · exact .inl h
    rcases List.mem_cons.1 hg with rfl | hg
    · exact .inl hd
    · exact htail g hg
  · obtain rfl := List.mem_singleton.1 hg
    exact .inl h

/-- A call that does not get the old `.bak` deleted leaves a complete `.bak` alone: the
compaction refuses to overwrite it. -/
theorem complete_mantain_bak {f : Files Row} {o : MaintenanceOutcome Row} {data : List Row}
    (h : f.bak = some data) (hkill : o.denied → ¬ o.killOldBak) :
    ∀ g ∈ mantainDatabase f o, g.Complete data := by
  intro g hg
  unfold mantainDatabase at hg
  split at hg
  · rename_i hden
    have hdrop : dropOldBak f o = f := if_neg (hkill hden)
    rw [hdrop] at hg
    rcases List.mem_cons.1 hg with rfl | hg
    · exact .inr h
    rcases List.mem_cons.1 hg with rfl | hg
    · exact .inr h
    · refine forall_untilError_cons (Q := fun g => g.Complete data).2
        ⟨fun k hk => ?_, fun k hk => ?_⟩ g hg
      · exact .inr (((compactDatabase_error hk).2 (by simp [h])).trans h)
      · exact absurd (compactDatabase_ok hk).1 (by simp [h])
  · obtain rfl := List.mem_singleton.1 hg
    exact .inr h

/-- **One step.**  With a complete copy at hand, a step keeps one at every moment exactly when
it meets `KeepsCopy`. -/
theorem keepsCopy_iff_survives {s : LocalState Row} (hs : s.files.Complete s.data)
    (a : LocalAct Row) : KeepsCopy s a ↔ Survives s a := by
  cases a with
  | insert row =>
    simp only [KeepsCopy, Survives, moments, dataAfter, List.mem_singleton, forall_eq,
      Files.Complete]
    cases hd : s.files.dataBase with
    | none =>
      have hb : s.files.bak = some s.data := by
        rcases hs with h | h
        · rw [hd] at h; cases h
        · exact h
      simp [hb]
    | some rows =>
      -- the `.bak` has not got the new row, so `sDataBase` has to be the complete file
      have hb : s.files.bak = some (s.data ++ [row]) → rows = s.data := by
        intro hb
        rcases hs with h | h
        · exact Option.some.inj (hd ▸ h)
        · rw [h] at hb
          have := congrArg List.length (Option.some.inj hb)
          simp at this
      simp only [Option.isSome_some, true_implies, if_true, Option.some.injEq, Option.map_some]
      constructor
      · rintro rfl; exact .inl rfl
      · rintro (h | h)
        · exact List.append_cancel_right h
        · exact hb h
  | maintain o =>
    constructor
    · intro h
      by_cases hk : o.denied = true ∧ o.killOldBak = true
      · exact complete_mantain (h hk.1 hk.2)
      · rcases hs with hd | hb
        · exact complete_mantain hd
        · exact complete_mantain_bak hb fun h₁ h₂ => hk ⟨h₁, h₂⟩
    · intro h hden hkill
      have hm : dropOldBak s.files o ∈ moments s (.maintain o) := by
        simp [moments, mantainDatabase, hden]
      have := h _ hm
      simpa [dropOldBak, hkill, Files.Complete, dataAfter] using this

theorem getLastD_mem_of_ne_nil {α : Type} {l : List α} {a : α} (h : l ≠ []) :
    l.getLastD a ∈ l := by
  rw [List.getLastD_eq_getLast?, List.getLast?_eq_some_getLast h]
  exact List.getLast_mem h

theorem moments_ne_nil (s : LocalState Row) (a : LocalAct Row) : moments s a ≠ [] := by
  cases a with
  | insert row => simp [moments]
  | maintain o => simp only [moments, mantainDatabase]; split <;> simp

/-- A step that keeps a complete copy at every moment ends with one. -/
theorem complete_next {s : LocalState Row} {a : LocalAct Row} (h : Survives s a) :
    (localDatabase.next s a).1.files.Complete (localDatabase.next s a).1.data :=
  h _ (getLastD_mem_of_ne_nil (moments_ne_nil s a))

/-! ### Runs -/

/-- The local database with all its data in `sDataBase`, whatever the `.bak` holds. -/
def fullDatabase (data : List Row) (bak : Option (List Row)) : LocalState Row :=
  ⟨⟨some data, bak⟩, data⟩

/-- **When the local database survives maintenance.**  In a run that starts with the data in
`sDataBase`, one of the two files holds a complete copy at every moment exactly when every
step meets `KeepsCopy`: no call deletes the old `.bak`, and no insert is made, while
`sDataBase` is incomplete. -/
theorem survives_iff (data : List Row) (bak : Option (List Row)) (acts : List (LocalAct Row)) :
    localDatabase.EachStep Survives (fullDatabase data bak) acts ↔
      localDatabase.EachStep KeepsCopy (fullDatabase data bak) acts := by
  have hstep (s : LocalState Row) (a : LocalAct Row) (hs : s.files.Complete s.data)
      (h : KeepsCopy s a) : (localDatabase.next s a).1.files.Complete
        (localDatabase.next s a).1.data :=
    complete_next ((keepsCopy_iff_survives hs a).1 h)
  have hiff (s : LocalState Row) (a : LocalAct Row) (hs : s.files.Complete s.data) :
      KeepsCopy s a ↔ Survives s a := keepsCopy_iff_survives hs a
  exact (localDatabase.eachStep_iff_of_invariant hstep hiff (.inl rfl)).symm

/-- A call whose `FileCopy` fails after the database was deleted, and the next call: nothing is
left. -/
theorem not_survives_copy_failed :
    ¬ localDatabase.EachStep Survives (fullDatabase [1, 2, 3] none)
      [.maintain ⟨true, true, .ok (), true, .error none, true⟩,
       .maintain ⟨true, true, .ok (), true, .ok (), true⟩] := by
  decide

end Leis

end Edps
