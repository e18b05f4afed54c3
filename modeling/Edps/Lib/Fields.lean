import Mathlib.Data.List.Basic

/-!
# Records read field by field

A reader that fills a record from a text takes its fields one after the other: it reads the piece
at the current position, assigns it to the record and goes on behind it.  An error stops the
reader where it is, and the record keeps what has been assigned before.

* `readAll` : the reader, for any way to read one piece.
* `Reads` : the pieces that stand one after the other from a position on.
* `readAll_eq_iff` : a reading without error is one of pieces that stand there and can be assigned.
* `readAll_append` : pieces that can be read and assigned are, and what stands behind them is next.
* `readAll_map` : a change of the record that the assignments do not see passes through a reading.
* `readAll_failed` : a change of the record that the assignments do not see is still there after a
  reading that failed.
-/

namespace Edps

namespace Fields

variable {T P D E : Type*}

/-- The assignments one after the other, each of the piece at its position.  An error leaves what
was assigned before it. -/
def readAll (read : P → Except E (T × P)) : List (T → D → Except E D) → P → D → D × Option E
  | [], _, d => (d, none)
  | set :: sets, pos, d =>
    match read pos with
    | .error e => (d, some e)
    | .ok (t, pos') =>
      match set t d with
      | .error e => (d, some e)
      | .ok d' => readAll read sets pos' d'

/-- The texts `ts` stand one after the other between two positions. -/
def Reads (read : P → Except E (T × P)) : P → List T → P → Prop
  | pos, [], stop => pos = stop
  | pos, t :: ts, stop => ∃ pos', read pos = .ok (t, pos') ∧ Reads read pos' ts stop

/-- Texts assigned to a record. -/
def assignAll : List (T → D → Except E D) → List T → D → Except E D
  | set :: sets, t :: ts, d => set t d >>= assignAll sets ts
  | _, _, d => .ok d

variable {read : P → Except E (T × P)}

theorem readAll_nil_eq {pos : P} {d d' : D} : readAll read [] pos d = (d', none) ↔ d = d' := by
  simp [readAll]

/-- A reading without error, one assignment at a time. -/
theorem readAll_cons_eq {set : T → D → Except E D} {sets : List (T → D → Except E D)} {pos : P}
    {d d' : D} : readAll read (set :: sets) pos d = (d', none) ↔
      ∃ t pos', read pos = .ok (t, pos') ∧
        ∃ d₁, set t d = .ok d₁ ∧ readAll read sets pos' d₁ = (d', none) := by
  rw [readAll]
  cases hread : read pos with
  | error e => simp
  | ok r =>
    obtain ⟨t, pos'⟩ := r
    cases hset : set t d with
    | error e => simp [hset]
    | ok d₁ => simp [hset]

/-- **A reading without error.** -/
theorem readAll_eq_iff {sets : List (T → D → Except E D)} {pos : P} {d d' : D} :
    readAll read sets pos d = (d', none) ↔ ∃ ts stop, ts.length = sets.length ∧
      Reads read pos ts stop ∧ assignAll sets ts d = .ok d' := by
  induction sets generalizing pos d with
  | nil =>
    rw [readAll_nil_eq]
    constructor
    · rintro rfl
      exact ⟨[], pos, rfl, rfl, rfl⟩
    · rintro ⟨ts, stop, -, -, hset⟩
      exact Except.ok.inj hset
  | cons set sets ih =>
    rw [readAll_cons_eq]
    constructor
    · rintro ⟨t, pos', hread, d₁, hset, hrest⟩
      obtain ⟨ts, stop, hlen, hreads, hsets⟩ := ih.1 hrest
      refine ⟨t :: ts, stop, congrArg (· + 1) hlen, ⟨pos', hread, hreads⟩, ?_⟩
      rw [assignAll, hset]
      exact hsets
    · rintro ⟨ts, stop, hlen, hreads, hset⟩
      cases ts with
      | nil => cases hlen
      | cons t ts =>
        obtain ⟨pos', hread, hreads⟩ := hreads
        cases hd : set t d with
        | error e => rw [assignAll, hd] at hset; cases hset
        | ok d₁ =>
          rw [assignAll, hd] at hset
          exact ⟨t, pos', hread, d₁, hd, ih.2 ⟨ts, stop, by simpa using hlen, hreads, hset⟩⟩

/-- What is left of a reading without error behind its first pieces. -/
theorem readAll_of_append {sets rest : List (T → D → Except E D)} {pos : P} {d d' : D}
    (h : readAll read (sets ++ rest) pos d = (d', none)) :
    ∃ pos₁ d₁, readAll read rest pos₁ d₁ = (d', none) := by
  induction sets generalizing pos d with
  | nil => exact ⟨pos, d, h⟩
  | cons set sets ih =>
    obtain ⟨_, pos₁, -, d₁, -, hrest⟩ := readAll_cons_eq.1 h
    exact ih hrest

/-- Pieces that can be read and assigned, and what is read behind them. -/
theorem readAll_append {sets rest : List (T → D → Except E D)} {ts : List T} {pos stop : P}
    {d d₁ : D} (hlen : sets.length = ts.length) (hreads : Reads read pos ts stop)
    (hset : assignAll sets ts d = .ok d₁) :
    readAll read (sets ++ rest) pos d = readAll read rest stop d₁ := by
  induction sets generalizing ts pos d with
  | nil =>
    cases ts with
    | nil =>
      cases hset
      cases hreads
      rfl
    | cons t ts => cases hlen
  | cons set sets ih =>
    cases ts with
    | nil => cases hlen
    | cons t ts =>
      obtain ⟨pos', hread, hreads⟩ := hreads
      cases hd : set t d with
      | error e => rw [assignAll, hd] at hset; cases hset
      | ok d₂ =>
        rw [assignAll, hd] at hset
        simp only [List.cons_append, readAll, hread, hd]
        exact ih (by simpa using hlen) hreads hset

/-- A change that no assignment sees passes through a reading. -/
theorem readAll_map {f : D → D} {sets : List (T → D → Except E D)}
    (hf : ∀ set ∈ sets, ∀ t d, set t (f d) = (set t d).map f) (pos : P) (d : D) :
    readAll read sets pos (f d) =
      (f (readAll read sets pos d).1, (readAll read sets pos d).2) := by
  induction sets generalizing pos d with
  | nil => rfl
  | cons set sets ih =>
    obtain ⟨hset, hsets⟩ := List.forall_mem_cons.1 hf
    simp only [readAll]
    cases read pos with
    | error e => rfl
    | ok r =>
      simp only [hset]
      cases set r.1 d with
      | error e => rfl
      | ok d₁ => exact ih hsets r.2 d₁

/-- A change that only the last assignment sees is still there after a reading that failed. -/
theorem readAll_failed {f : D → D} {sets : List (T → D → Except E D)}
    {last : T → D → Except E D}
    (hf : ∀ set ∈ sets, ∀ t d, set t (f d) = (set t d).map f)
    (hlast : ∀ t d, ∃ d', last t d = .ok d') {pos : P} {d : D}
    (hfail : (readAll read (sets ++ [last]) pos d).2 ≠ none) :
    readAll read (sets ++ [last]) pos (f d) =
      (f (readAll read (sets ++ [last]) pos d).1, (readAll read (sets ++ [last]) pos d).2) := by
  induction sets generalizing pos d with
  | nil =>
    simp only [List.nil_append, readAll] at hfail ⊢
    cases hread : read pos with
    | error e => rfl
    | ok r =>
      -- the last piece could be read, so nothing failed
      obtain ⟨t, pos'⟩ := r
      obtain ⟨d', hd'⟩ := hlast t d
      simp [hread, hd'] at hfail
  | cons set sets ih =>
    obtain ⟨hset, hsets⟩ := List.forall_mem_cons.1 hf
    simp only [List.cons_append, readAll] at hfail ⊢
    cases hread : read pos with
    | error e => rfl
    | ok r =>
      obtain ⟨t, pos'⟩ := r
      simp only [hset, hread] at hfail ⊢
      cases hd : set t d with
      | error e => rfl
      | ok d₁ =>
        simp only [hd] at hfail
        exact ih hsets hfail

end Fields

end Edps
