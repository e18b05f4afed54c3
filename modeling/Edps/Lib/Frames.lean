import Mathlib.Data.List.Basic

/-!
# Frames of computations with state and errors

A computation that works on a state and may raise an error (`EStateM`) keeps a *part* of the state
when that part is the same behind it as before, whether it has returned or raised.  What is kept
by every step is kept by the whole: the rules below follow the monad.

* `endState x s` : the state `x` ends in.
* `Keeps part x` : `x` leaves `part` as it is.
* `Ensures P Q x`, `Preserves P x` : what is true behind `x`, if something is true before it.
-/

namespace Edps

variable {ε σ α β γ : Type}

/-- The state a computation ends in, with or without an error. -/
def endState (x : EStateM ε σ α) (s : σ) : σ :=
  match x s with
  | .ok _ s' => s'
  | .error _ s' => s'

/-- A part of the state that a computation leaves as it is. -/
def Keeps (part : σ → γ) (x : EStateM ε σ α) : Prop := ∀ s, part (endState x s) = part s

theorem endState_of_ok {x : EStateM ε σ α} {a : α} {s s' : σ} (h : x s = .ok a s') :
    endState x s = s' := by
  rw [endState, h]

theorem endState_of_error {x : EStateM ε σ α} {e : ε} {s s' : σ} (h : x s = .error e s') :
    endState x s = s' := by
  rw [endState, h]

theorem endState_congr {x : EStateM ε σ α} {y : EStateM ε σ α} {s s' : σ}
    (h : x s = y s') : endState x s = endState y s' := by
  rw [endState, h, endState]

theorem bind_of_ok {x : EStateM ε σ α} {a : α} {s s' : σ} (h : x s = .ok a s')
    (f : α → EStateM ε σ β) : (x >>= f) s = f a s' := by
  show EStateM.bind x f s = _
  rw [EStateM.bind, h]

theorem bind_of_error {x : EStateM ε σ α} {e : ε} {s s' : σ} (h : x s = .error e s')
    (f : α → EStateM ε σ β) : (x >>= f) s = .error e s' := by
  show EStateM.bind x f s = _
  rw [EStateM.bind, h]

theorem bind_get (f : σ → EStateM ε σ β) (s : σ) : (get >>= f) s = f s s := rfl

/-- A sequence ends where its second part does, if the first part returns. -/
theorem endState_bind_of_ok {x : EStateM ε σ α} {a : α} {s s' : σ} (h : x s = .ok a s')
    (f : α → EStateM ε σ β) : endState (x >>= f) s = endState (f a) s' := by
  unfold endState
  rw [bind_of_ok h]

theorem endState_bind_of_error {x : EStateM ε σ α} {e : ε} {s s' : σ} (h : x s = .error e s')
    (f : α → EStateM ε σ β) : endState (x >>= f) s = s' := endState_of_error (bind_of_error h f)

namespace Keeps

variable {part : σ → γ}

theorem of_ok {x : EStateM ε σ α} (h : Keeps part x) {a : α} {s s' : σ} (hx : x s = .ok a s') :
    part s' = part s := by
  rw [← endState_of_ok hx, h s]

theorem pure (a : α) : Keeps part (pure a : EStateM ε σ α) := fun _ => rfl

/-- What comes behind a computation, if it keeps the part. -/
theorem endState_bind {x : EStateM ε σ α} {f : α → EStateM ε σ β} (hf : ∀ a, Keeps part (f a))
    (s : σ) : part (endState (x >>= f) s) = part (endState x s) := by
  cases h : x s with
  | ok a s' => rw [endState_bind_of_ok h, hf a s', endState_of_ok h]
  | error e s' => rw [endState_bind_of_error h, endState_of_error h]

theorem endState_tryCatch {x : EStateM ε σ α} {handle : ε → EStateM ε σ α}
    (hh : ∀ e, Keeps part (handle e)) (s : σ) :
    part (endState (MonadExcept.tryCatch x handle) s) = part (endState x s) := by
  show part (match EStateM.tryCatch x handle s with
    | .ok _ s' => s'
    | .error _ s' => s') = _
  unfold EStateM.tryCatch
  cases h : x s with
  | ok a s' => rw [endState_of_ok h]
  | error e s' =>
    rw [endState_of_error h]
    exact hh e s'

theorem bind {x : EStateM ε σ α} {f : α → EStateM ε σ β} (hx : Keeps part x)
    (hf : ∀ a, Keeps part (f a)) : Keeps part (x >>= f) := fun s => by
  rw [endState_bind hf, hx s]

theorem ite {c : Prop} [Decidable c] {x y : EStateM ε σ α} (hx : Keeps part x)
    (hy : Keeps part y) : Keeps part (if c then x else y) := by
  split_ifs
  · exact hx
  · exact hy

/-- A loop over a list. -/
theorem forIn {δ : Type} {l : List δ} {b : β} {f : δ → β → EStateM ε σ (ForInStep β)}
    (h : ∀ c b, Keeps part (f c b)) : Keeps part (ForIn.forIn l b f) := by
  induction l generalizing b with
  | nil => exact pure b
  | cons c l ih =>
    rw [List.forIn_cons]
    refine (h c b).bind fun r => ?_
    cases r with
    | done b => exact pure b
    | yield b => exact ih

end Keeps

/-- Where `P` is true before a computation, `Q` is true behind it, whether it returns or raises. -/
def Ensures (P Q : σ → Prop) (x : EStateM ε σ α) : Prop := ∀ s, P s → Q (endState x s)

/-- A property of the state that a computation does not lose. -/
def Preserves (P : σ → Prop) (x : EStateM ε σ α) : Prop := Ensures P P x

/-- What the first part of a sequence brings about, and the second does not lose. -/
theorem Ensures.bind {P Q : σ → Prop} {x : EStateM ε σ α} {f : α → EStateM ε σ β}
    (hx : Ensures P Q x) (hf : ∀ a, Preserves Q (f a)) : Ensures P Q (x >>= f) := by
  intro s hs
  have hxs := hx s hs
  cases h : x s with
  | ok a s' =>
    rw [endState_of_ok h] at hxs
    rw [endState_bind_of_ok h]
    exact hf a s' hxs
  | error e s' =>
    rw [endState_of_error h] at hxs
    rwa [endState_bind_of_error h]

/-- A part of a sequence that only looks at the state. -/
theorem Ensures.get_bind {P Q : σ → Prop} {f : σ → EStateM ε σ α} (h : ∀ a, Ensures P Q (f a)) :
    Ensures P Q (get >>= f) := fun s hs => h s s hs

/-- A part of a sequence that changes the state and always returns. -/
theorem Ensures.modify_bind {P P' Q : σ → Prop} {g : σ → σ} {f : PUnit → EStateM ε σ α}
    (hg : ∀ s, P s → P' (g s)) (hf : Ensures P' Q (f ⟨⟩)) : Ensures P Q (modify g >>= f) :=
  fun s hs => hf (g s) (hg s hs)

namespace Preserves

variable {P : σ → Prop}

theorem pure (a : α) : Preserves P (pure a : EStateM ε σ α) := fun _ h => h

theorem get : Preserves P (get : EStateM ε σ σ) := fun _ h => h

theorem throw (e : ε) : Preserves P (throw e : EStateM ε σ α) := fun _ h => h

theorem modify {f : σ → σ} (h : ∀ s, P s → P (f s)) :
    Preserves P (modify f : EStateM ε σ PUnit) := h

theorem bind {x : EStateM ε σ α} {f : α → EStateM ε σ β} (hx : Preserves P x)
    (hf : ∀ a, Preserves P (f a)) : Preserves P (x >>= f) := Ensures.bind hx hf

theorem ite {c : Prop} [Decidable c] {x y : EStateM ε σ α} (hx : Preserves P x)
    (hy : Preserves P y) : Preserves P (if c then x else y) := by
  split_ifs
  · exact hx
  · exact hy

theorem tryCatch {x : EStateM ε σ α} {handle : ε → EStateM ε σ α} (hx : Preserves P x)
    (hh : ∀ e, Preserves P (handle e)) : Preserves P (MonadExcept.tryCatch x handle) := by
  intro s hs
  have hxs := hx s hs
  show P (endState (EStateM.tryCatch x handle) s)
  unfold endState EStateM.tryCatch at *
  cases h : x s with
  | ok a s' => rwa [h] at hxs
  | error e s' =>
    rw [h] at hxs
    exact hh e s' hxs

/-- A loop over a list. -/
theorem forIn {l : List γ} {b : β} {f : γ → β → EStateM ε σ (ForInStep β)}
    (h : ∀ c b, Preserves P (f c b)) : Preserves P (ForIn.forIn l b f) := by
  induction l generalizing b with
  | nil => exact pure b
  | cons c l ih =>
    rw [List.forIn_cons]
    refine (h c b).bind fun r => ?_
    cases r with
    | done b => exact pure b
    | yield b => exact ih

end Preserves

end Edps
