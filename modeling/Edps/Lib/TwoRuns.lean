import Edps.Lib.Frames

/-!
# Two runs of computations with state and errors

What a computation does not look at cannot make a difference.  To show this two runs are compared:
they begin in states related by `I`, which says what they have in common, and `Respects I V x y`
says that then both return, with values related by `V`, or both raise an error, and that `I` still
holds.  The rules below follow the monad, so that what remains are facts about the steps.
-/

namespace Edps

variable {ε σ α β γ δ : Type}

/-- Two computations that begin in related states end alike, in related states. -/
def Respects (I : σ → σ → Prop) (V : α → β → Prop) (x : EStateM ε σ α) (y : EStateM ε σ β) :
    Prop :=
  ∀ s t, I s t →
    (∃ a b s' t', x s = .ok a s' ∧ y t = .ok b t' ∧ V a b ∧ I s' t') ∨
      ∃ e e' s' t', x s = .error e s' ∧ y t = .error e' t' ∧ I s' t'

namespace Respects

variable {I : σ → σ → Prop} {V : α → β → Prop} {W : γ → δ → Prop}

theorem pure {a : α} {b : β} (h : V a b) :
    Respects (ε := ε) I V (pure a : EStateM ε σ α) (pure b) :=
  fun s t hI => .inl ⟨a, b, s, t, rfl, rfl, h, hI⟩

theorem throw (e e' : ε) : Respects I V (throw e : EStateM ε σ α) (throw e' : EStateM ε σ β) :=
  fun s t hI => .inr ⟨e, e', s, t, rfl, rfl, hI⟩

theorem bind {x : EStateM ε σ α} {y : EStateM ε σ β} {f : α → EStateM ε σ γ}
    {g : β → EStateM ε σ δ} (h : Respects I V x y)
    (hf : ∀ a b, V a b → Respects I W (f a) (g b)) : Respects I W (x >>= f) (y >>= g) := by
  intro s t hI
  rcases h s t hI with ⟨a, b, s', t', hx, hy, hab, hI'⟩ | ⟨e, e', s', t', hx, hy, hI'⟩
  · rw [bind_of_ok hx, bind_of_ok hy]
    exact hf a b hab s' t' hI'
  · rw [bind_of_error hx, bind_of_error hy]
    exact .inr ⟨e, e', s', t', rfl, rfl, hI'⟩

/-- The same test on both sides. -/
theorem ite {c : Prop} [Decidable c] {x x' : EStateM ε σ α} {y y' : EStateM ε σ β}
    (h : Respects I V x y) (h' : Respects I V x' y') :
    Respects I V (if c then x else x') (if c then y else y') := by
  split_ifs
  · exact h
  · exact h'

theorem tryCatch {x : EStateM ε σ α} {y : EStateM ε σ β} {f : ε → EStateM ε σ α}
    {g : ε → EStateM ε σ β} (h : Respects I V x y)
    (hf : ∀ e e', Respects I V (f e) (g e')) :
    Respects I V (MonadExcept.tryCatch x f) (MonadExcept.tryCatch y g) := by
  intro s t hI
  show (∃ a b s' t', EStateM.tryCatch x f s = .ok a s' ∧ EStateM.tryCatch y g t = .ok b t' ∧
    V a b ∧ I s' t') ∨ ∃ e e' s' t', EStateM.tryCatch x f s = .error e s' ∧
      EStateM.tryCatch y g t = .error e' t' ∧ I s' t'
  unfold EStateM.tryCatch
  rcases h s t hI with ⟨a, b, s', t', hx, hy, hab, hI'⟩ | ⟨e, e', s', t', hx, hy, hI'⟩
  · simp only [hx, hy]
    exact .inl ⟨a, b, s', t', rfl, rfl, hab, hI'⟩
  · simp only [hx, hy]
    exact hf e e' s' t' hI'

/-- A loop over a list. -/
theorem forIn_unit {l : List γ} {f : γ → PUnit → EStateM ε σ (ForInStep PUnit)}
    (h : ∀ c ∈ l, Respects I (fun r r' => r = r' ∧ r = .yield ⟨⟩) (f c ⟨⟩) (f c ⟨⟩)) :
    Respects I (fun _ _ => True) (forIn l PUnit.unit f) (forIn l PUnit.unit f) := by
  induction l with
  | nil => exact pure trivial
  | cons c l ih =>
    obtain ⟨hc, hl⟩ := List.forall_mem_cons.1 h
    rw [List.forIn_cons]
    refine hc.bind fun r r' hr => ?_
    obtain ⟨rfl, rfl⟩ := hr
    exact ih hl

end Respects

end Edps
