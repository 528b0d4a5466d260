import Mathlib.Data.List.Forall2
import PyAmqp.Base.Effect

/-!
Two models of a method: one that computes what becomes of the calls it makes, and one that is
told. `Simulates` says that the second, told the right things, ends as the first does; its
rules follow the shape of the program.
-/

namespace Effect

variable {σ τ ε α β γ δ : Type}

/-- From states related by `P`, some `c` makes `n` return or raise what `m` does, and leave a
state related by `Q` to that of `m`. -/
def Simulates (P : σ → τ → Prop) (m : Effect σ ε α) (n : γ → Effect τ ε α)
    (Q : σ → τ → Prop) : Prop :=
  ∀ s t, P s t → ∃ c, (n c t).1 = (m s).1 ∧ Q (m s).2 (n c t).2

namespace Simulates

variable {P Q R : σ → τ → Prop} {m : Effect σ ε α} {n : γ → Effect τ ε α}

theorem of_choice {n' : δ → Effect τ ε α} (h : Simulates P m n Q) (f : γ → δ)
    (hf : ∀ c, n c = n' (f c)) : Simulates P m n' Q := by
  intro s t hst
  obtain ⟨c, hend⟩ := h s t hst
  rw [hf c] at hend
  exact ⟨f c, hend⟩

theorem weaken {P' Q' : σ → τ → Prop} (h : Simulates P' m n Q') (hpre : ∀ s t, P s t → P' s t)
    (hpost : ∀ s t, Q' s t → Q s t) : Simulates P m n Q := by
  intro s t hst
  obtain ⟨c, hresult, hend⟩ := h s t (hpre s t hst)
  exact ⟨c, hresult, hpost _ _ hend⟩

theorem pure [Inhabited γ] (a : α) (h : ∀ s t, P s t → Q s t) :
    Simulates P (Pure.pure a : Effect σ ε α) (fun _ : γ => Pure.pure a) Q :=
  fun s t hst => ⟨default, rfl, h s t hst⟩

theorem raise [Inhabited γ] (e : ε) (h : ∀ s t, P s t → Q s t) :
    Simulates P (Effect.raise e : Effect σ ε α) (fun _ : γ => Effect.raise e) Q :=
  fun s t hst => ⟨default, rfl, h s t hst⟩

theorem modify [Inhabited γ] {f : σ → σ} {g : τ → τ} (h : ∀ s t, P s t → Q (f s) (g t)) :
    Simulates P (Effect.modify f : Effect σ ε Unit) (fun _ : γ => Effect.modify g) Q :=
  fun s t hst => ⟨default, rfl, h s t hst⟩

/-- Where `m` leaves what is seen as it was, it is enough to be told how it ends. -/
theorem answered (h : ∀ t, Triple (fun s => P s t) m (fun _ s => Q s t) (fun _ s => Q s t)) :
    Simulates P m Effect.liftExcept Q :=
  fun s t hst => ⟨(m s).1, rfl, (h t).state (I := fun s => Q s t) hst⟩

/-- What `m` does, `f` does, unless it raises. -/
theorem done {m : Effect σ ε Unit} {f : τ → τ}
    (h : ∀ t, Triple (fun s => P s t) m (fun _ s => Q s (f t)) (fun _ s => Q s t)) :
    Simulates P m (fun r => do
      Effect.liftExcept r
      Effect.modify f) Q := by
  intro s t hst
  have hrun := h t s hst
  cases hm : m s with
  | mk r s' =>
      rw [hm] at hrun
      cases r with
      | ok a => exact ⟨.ok a, rfl, hrun⟩
      | error e => exact ⟨.error e, rfl, hrun⟩

theorem bind [Inhabited δ] {k : α → Effect σ ε β} {l : δ → α → Effect τ ε β}
    (hm : Simulates P m n Q) (hk : ∀ a, Simulates Q (k a) (fun d => l d a) R)
    (herror : ∀ s t, Q s t → R s t) :
    Simulates P (m >>= k) (fun c : γ × δ => n c.1 >>= l c.2) R := by
  intro s t hst
  obtain ⟨c, hresult, hend⟩ := hm s t hst
  rcases hrun : m s with ⟨r, s'⟩
  rcases hrun' : n c t with ⟨r', t'⟩
  rw [hrun, hrun'] at hresult hend
  obtain rfl : r' = r := hresult
  cases r' with
  | ok a =>
      obtain ⟨d, hends⟩ := hk a s' t' hend
      refine ⟨(c, d), ?_⟩
      dsimp only
      rw [bind_ok k hrun, bind_ok (l d) hrun']
      exact hends
  | error e =>
      refine ⟨(c, default), ?_⟩
      dsimp only
      rw [bind_error k hrun, bind_error (l default) hrun']
      exact ⟨rfl, herror s' t' hend⟩

theorem tryCatch [Inhabited δ] {handler : ε → Effect σ ε α} {handler' : δ → ε → Effect τ ε α}
    (hm : Simulates P m n Q) (hhandler : ∀ e, Simulates Q (handler e) (fun d => handler' d e) R)
    (hok : ∀ s t, Q s t → R s t) :
    Simulates P (Effect.tryCatch m handler)
      (fun c : γ × δ => Effect.tryCatch (n c.1) (handler' c.2)) R := by
  intro s t hst
  obtain ⟨c, hresult, hend⟩ := hm s t hst
  unfold Effect.tryCatch
  rcases hrun : m s with ⟨r, s'⟩
  rcases hrun' : n c t with ⟨r', t'⟩
  rw [hrun, hrun'] at hresult hend
  obtain rfl : r' = r := hresult
  cases r' with
  | ok a =>
      refine ⟨(c, default), ?_⟩
      simp only [hrun']
      exact ⟨trivial, hok s' t' hend⟩
  | error e =>
      obtain ⟨d, hends⟩ := hhandler e s' t' hend
      refine ⟨(c, d), ?_⟩
      simp only [hrun']
      exact hends

/-- A test of the state, on which the two agree. -/
theorem branch {p : σ → Prop} {q : τ → Prop} [DecidablePred p] [DecidablePred q]
    {m' : Effect σ ε α} {n' : γ → Effect τ ε α} (hpq : ∀ s t, P s t → (p s ↔ q t))
    (hpos : Simulates (fun s t => P s t ∧ q t) m n Q)
    (hneg : Simulates (fun s t => P s t ∧ ¬ q t) m' n' Q) :
    Simulates P (Effect.get >>= fun s => if p s then m else m')
      (fun c => Effect.get >>= fun t => if q t then n c else n' c) Q := by
  intro s t hst
  simp only [bind_run, get_run]
  by_cases hq : q t
  · rw [if_pos ((hpq s t hst).mpr hq)]
    simp only [if_pos hq]
    exact hpos s t ⟨hst, hq⟩
  · rw [if_neg fun hp => hq ((hpq s t hst).mp hp)]
    simp only [if_neg hq]
    exact hneg s t ⟨hst, hq⟩

end Simulates

end Effect

namespace Run

/-- Where every step of a machine is matched by one of another, so is every run. -/
theorem exists_matching {σ τ ι κ : Type} {step : σ → ι → σ} {step' : τ → κ → τ}
    {R : σ → τ → Prop} {L : ι → κ → Prop}
    (hstep : ∀ s t x, R s t → ∃ y, L x y ∧ R (step s x) (step' t y)) {s : σ} {t : τ} (h : R s t)
    (xs : List ι) : ∃ ys, List.Forall₂ L xs ys ∧ R (xs.foldl step s) (ys.foldl step' t) := by
  induction xs generalizing s t with
  | nil => exact ⟨[], .nil, h⟩
  | cons x xs ih =>
      obtain ⟨y, hxy, hnext⟩ := hstep s t x h
      obtain ⟨ys, hmatch, hend⟩ := ih hnext
      exact ⟨y :: ys, .cons hxy hmatch, hend⟩

end Run
