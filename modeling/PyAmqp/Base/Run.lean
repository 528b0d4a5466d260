/-!
Runs of a machine: what every step of a run preserves holds at its end, and `Along`
says that every step of a run meets a condition on the state before it.
-/

namespace Run

variable {σ ι : Type}

def Along (step : σ → ι → σ) (cond : σ → ι → Prop) : σ → List ι → Prop
  | _, [] => True
  | s, x :: xs => cond s x ∧ Along step cond (step s x) xs

instance instDecidableAlong {step : σ → ι → σ} {cond : σ → ι → Prop}
    [hcond : ∀ s x, Decidable (cond s x)] :
    (s : σ) → (xs : List ι) → Decidable (Along step cond s xs)
  | _, [] => .isTrue trivial
  | s, x :: xs => @instDecidableAnd _ _ (hcond s x) (instDecidableAlong (step s x) xs)

theorem invariant {step : σ → ι → σ} {cond : σ → ι → Prop} {I : σ → Prop}
    (hstep : ∀ s x, I s → cond s x → I (step s x)) {s : σ} {xs : List ι} (h : I s)
    (halong : Along step cond s xs) : I (xs.foldl step s) := by
  induction xs generalizing s with
  | nil => exact h
  | cons x xs ih => exact ih (hstep s x h halong.1) halong.2

/-- What an invariant and the condition imply of a step holds along the run. -/
theorem Along.of_invariant {step : σ → ι → σ} {cond cond' : σ → ι → Prop} {I : σ → Prop}
    (hstep : ∀ s x, I s → cond s x → I (step s x)) (hcond : ∀ s x, I s → cond s x → cond' s x)
    {s : σ} {xs : List ι} (h : I s) (halong : Along step cond s xs) : Along step cond' s xs := by
  induction xs generalizing s with
  | nil => trivial
  | cons x xs ih => exact ⟨hcond s x h halong.1, ih (hstep s x h halong.1) halong.2⟩

theorem Along.and {step : σ → ι → σ} {cond cond' : σ → ι → Prop} {s : σ} {xs : List ι}
    (h : Along step cond s xs) (h' : Along step cond' s xs) :
    Along step (fun s x => cond s x ∧ cond' s x) s xs := by
  induction xs generalizing s with
  | nil => trivial
  | cons x xs ih => exact ⟨⟨h.1, h'.1⟩, ih h.2 h'.2⟩

/-- A run goes on under the condition where it has been kept so far. -/
theorem Along.drop {step : σ → ι → σ} {cond : σ → ι → Prop} {s : σ} {xs ys : List ι}
    (h : Along step cond s (xs ++ ys)) : Along step cond (xs.foldl step s) ys := by
  induction xs generalizing s with
  | nil => exact h
  | cons x xs ih => exact ih h.2

/-- Where every step keeps a property exactly under a condition, a run has it exactly if
each of its steps meets the condition. -/
theorem foldl_iff_along {step : σ → ι → σ} {cond cond' : σ → ι → Prop} {I Q : σ → Prop}
    (hstep : ∀ s x, I s → cond s x → I (step s x))
    (hiff : ∀ s x, I s → cond s x → (Q (step s x) ↔ Q s ∧ cond' s x)) {s : σ} {xs : List ι}
    (h : I s) (halong : Along step cond s xs) :
    Q (xs.foldl step s) ↔ Q s ∧ Along step cond' s xs := by
  induction xs generalizing s with
  | nil => simp [Along]
  | cons x xs ih =>
      rw [List.foldl_cons, ih (hstep s x h halong.1) halong.2, hiff s x h halong.1, and_assoc]
      rfl

theorem Along.mono {step : σ → ι → σ} {cond cond' : σ → ι → Prop} {s : σ} {xs : List ι}
    (h : ∀ s, ∀ x ∈ xs, cond s x → cond' s x) (halong : Along step cond s xs) :
    Along step cond' s xs := by
  induction xs generalizing s with
  | nil => trivial
  | cons x xs ih =>
      exact ⟨h s x (by simp) halong.1, ih (fun s y hy => h s y (by simp [hy])) halong.2⟩

end Run
