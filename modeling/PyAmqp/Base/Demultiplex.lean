import Mathlib.Logic.Function.Basic

/-!
One machine for each key, fed from one sequence of inputs. What the machine of a key
puts out depends on that key's inputs alone, however the inputs are interleaved.
-/

namespace Demultiplex

variable {ι ο σ κ : Type}

/-- The inputs with what the machine puts out for each. -/
def run (step : σ → ι → ο × σ) : σ → List ι → List (ι × ο) × σ
  | s, [] => ([], s)
  | s, x :: xs =>
      let (out, s') := step s x
      let (outs, last) := run step s' xs
      ((x, out) :: outs, last)

theorem run_cons {step : σ → ι → ο × σ} {s s' last : σ} {x : ι} {xs : List ι} {out : ο}
    {outs : List (ι × ο)} (h : step s x = (out, s')) (hrest : run step s' xs = (outs, last)) :
    run step s (x :: xs) = ((x, out) :: outs, last) := by
  simp only [run, h, hrest]

theorem run_append (step : σ → ι → ο × σ) (s : σ) (xs ys : List ι) :
    run step s (xs ++ ys) =
      let (outs, mid) := run step s xs
      let (outs', last) := run step mid ys
      (outs ++ outs', last) := by
  induction xs generalizing s with
  | nil => rfl
  | cons x xs ih => simp only [List.cons_append, run, ih]

theorem run_length (step : σ → ι → ο × σ) (s : σ) (xs : List ι) :
    (run step s xs).1.length = xs.length := by
  induction xs generalizing s with
  | nil => rfl
  | cons x xs ih => simp only [run, List.length_cons, ih]

/-- What comes after some inputs does not change what they put out. -/
theorem run_take (step : σ → ι → ο × σ) (s : σ) (xs : List ι) (n : Nat) :
    (run step s (xs.take n)).1 = (run step s xs).1.take n := by
  have hwhole := run_append step s (xs.take n) (xs.drop n)
  rw [List.take_append_drop] at hwhole
  have hlength := run_length step s (xs.take n)
  by_cases hn : n ≤ xs.length
  · rw [List.length_take_of_le hn] at hlength
    simp only [hwhole]
    exact (List.take_left' hlength).symm
  · have hall := run_length step s xs
    rw [List.take_of_length_le (by omega), List.take_of_length_le (by omega)]

/-- Sequences of inputs that each bring the machine back to where it was. -/
theorem run_flatMap {step : σ → ι → ο × σ} {s : σ} {β : Type} {enc : β → List ι}
    {trace : β → List (ι × ο)} {items : List β}
    (h : ∀ item ∈ items, run step s (enc item) = (trace item, s)) :
    run step s (items.flatMap enc) = (items.flatMap trace, s) := by
  induction items with
  | nil => rfl
  | cons item items ih =>
      have hrest := ih fun other hother => h other (by simp [hother])
      simp only [List.flatMap_cons, run_append, h item (by simp), hrest]

/-- Machines that step alike from related states put out the same. -/
theorem run_related {σ' : Type} {step : σ → ι → ο × σ} {step' : σ' → ι → ο × σ'}
    (R : σ → σ' → Prop)
    (hstep : ∀ s s' x, R s s' →
      (step s x).1 = (step' s' x).1 ∧ R (step s x).2 (step' s' x).2)
    {s : σ} {s' : σ'} (h : R s s') (xs : List ι) :
    (run step s xs).1 = (run step' s' xs).1 ∧ R (run step s xs).2 (run step' s' xs).2 := by
  induction xs generalizing s s' with
  | nil => exact ⟨rfl, h⟩
  | cons x xs ih =>
      obtain ⟨hout, hnext⟩ := hstep s s' x h
      obtain ⟨houts, hlast⟩ := ih hnext
      exact ⟨by simp only [run, hout, houts], hlast⟩

theorem run_mem {step : σ → ι → ο × σ} {s : σ} {xs : List ι} {entry : ι × ο}
    (h : entry ∈ (run step s xs).1) : ∃ s', entry.2 = (step s' entry.1).1 := by
  induction xs generalizing s with
  | nil => simp [run] at h
  | cons x xs ih =>
      simp only [run, List.mem_cons] at h
      rcases h with rfl | h
      · exact ⟨s, rfl⟩
      · exact ih h

/-- Inputs that leave the machine as it is may be left out. -/
theorem run_skip {step : σ → ι → ο × σ} {p : ι → Bool}
    (hskip : ∀ s x, p x = false → (step s x).2 = s) (s : σ) (xs : List ι) :
    ((run step s xs).1.filter fun entry => p entry.1, (run step s xs).2) =
      run step s (xs.filter p) := by
  induction xs generalizing s with
  | nil => rfl
  | cons x xs ih =>
      have hrest := ih (step s x).2
      cases hp : p x with
      | false =>
          rw [hskip s x hp] at hrest
          simp only [run, List.filter_cons, hp, hskip s x hp]
          exact hrest
      | true => simp only [run, List.filter_cons, hp, if_true, ← hrest]

variable [DecidableEq κ]

/-- An input goes to the machine of its key. -/
def stepAt (step : σ → ι → ο × σ) (key : ι → κ) (states : κ → σ) (x : ι) : ο × (κ → σ) :=
  let (out, s') := step (states (key x)) x
  (out, Function.update states (key x) s')

/-- Inputs of one key only step its machine. -/
theorem run_alone (step : σ → ι → ο × σ) (key : ι → κ) (states : κ → σ) {xs : List ι} {k : κ}
    (h : ∀ x ∈ xs, key x = k) :
    run (stepAt step key) states xs =
      ((run step (states k) xs).1, Function.update states k (run step (states k) xs).2) := by
  induction xs generalizing states with
  | nil => simp [run]
  | cons x xs ih =>
      have hx := h x (by simp)
      have hrest := ih (Function.update states k (step (states k) x).2)
        fun y hy => h y (by simp [hy])
      simp only [Function.update_self, Function.update_idem] at hrest
      simp only [run, stepAt, hx, hrest]

/-- The inputs of one key see what they would see alone. -/
theorem run_filter (step : σ → ι → ο × σ) (key : ι → κ) (states : κ → σ) (xs : List ι)
    (k : κ) :
    let (outs, last) := run (stepAt step key) states xs
    (outs.filter fun entry => key entry.1 = k, last k) =
      run step (states k) (xs.filter fun x => key x = k) := by
  induction xs generalizing states with
  | nil => rfl
  | cons x xs ih =>
      have hrest := ih (Function.update states (key x) (step (states (key x)) x).2)
      simp only [run, stepAt]
      by_cases hkey : key x = k
      · subst hkey
        simp only [Function.update_self] at hrest
        simp only [decide_true, List.filter_cons_of_pos, run, ← hrest]
      · rw [Function.update_of_ne (Ne.symm hkey)] at hrest
        simp only [hkey, decide_false, Bool.false_eq_true, not_false_eq_true,
          List.filter_cons_of_neg, ← hrest]

end Demultiplex
