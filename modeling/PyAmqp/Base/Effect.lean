/-!
Methods of an object: a computation that returns a value or raises, and keeps the
object's state either way. `Triple` is a partial-correctness judgement with one
postcondition for a return and one for an exception; its rules follow the shape of
the program.
-/

def Effect (σ ε α : Type) := σ → Except ε α × σ

namespace Effect

variable {σ ε α β : Type}

protected def pure (a : α) : Effect σ ε α := fun s => (.ok a, s)

protected def bind (m : Effect σ ε α) (k : α → Effect σ ε β) : Effect σ ε β := fun s =>
  match m s with
  | (.ok a, s') => k a s'
  | (.error e, s') => (.error e, s')

instance : Monad (Effect σ ε) where
  pure := Effect.pure
  bind := Effect.bind

instance : LawfulMonad (Effect σ ε) := LawfulMonad.mk' _
  (by
    intro α m
    funext s
    simp only [Functor.map, Effect.bind, Function.comp, Effect.pure, id]
    rcases m s with ⟨r, s'⟩
    cases r <;> rfl)
  (by intro α β a k; rfl)
  (by
    intro α β γ m k l
    funext s
    simp only [Bind.bind, Effect.bind]
    rcases m s with ⟨r, s'⟩
    cases r <;> rfl)

def get : Effect σ ε σ := fun s => (.ok s, s)

def modify (f : σ → σ) : Effect σ ε Unit := fun s => (.ok (), f s)

def raise (e : ε) : Effect σ ε α := fun s => (.error e, s)

def liftExcept (r : Except ε α) : Effect σ ε α := fun s => (r, s)

@[simp] theorem liftExcept_ok (a : α) : (liftExcept (.ok a) : Effect σ ε α) = pure a := (rfl)

theorem liftExcept_error_bind (e : ε) (k : α → Effect σ ε β) :
    (liftExcept (.error e) >>= k) = (liftExcept (.error e) : Effect σ ε β) := (rfl)

/-- `try: m` with `except e: handler(e)`. -/
def tryCatch (m : Effect σ ε α) (handler : ε → Effect σ ε α) : Effect σ ε α := fun s =>
  match m s with
  | (.ok a, s') => (.ok a, s')
  | (.error e, s') => handler e s'

/-- `for x in xs: body(x)` -/
def forEach (body : β → Effect σ ε Unit) : List β → Effect σ ε Unit
  | [] => pure ()
  | x :: xs => do
      body x
      forEach body xs

section Run

variable {s s' : σ}

theorem bind_ok {m : Effect σ ε α} {a : α} (k : α → Effect σ ε β) (h : m s = (.ok a, s')) :
    (m >>= k) s = k a s' := by
  simp only [bind, Effect.bind, h]

theorem bind_error {m : Effect σ ε α} {e : ε} (k : α → Effect σ ε β)
    (h : m s = (.error e, s')) : (m >>= k) s = (.error e, s') := by
  simp only [bind, Effect.bind, h]

/-- A sequence returns only through both of its parts. -/
theorem bind_eq_ok {m : Effect σ ε α} {k : α → Effect σ ε β} {b : β}
    (h : (m >>= k) s = (.ok b, s')) :
    ∃ a mid, m s = (.ok a, mid) ∧ k a mid = (.ok b, s') := by
  simp only [bind, Effect.bind] at h
  cases hm : m s with
  | mk r mid =>
      rw [hm] at h
      cases r with
      | ok a => exact ⟨a, mid, rfl, h⟩
      | error e => simp at h

@[simp] theorem pure_run (a : α) : (pure a : Effect σ ε α) s = (.ok a, s) := (rfl)

@[simp] theorem get_run : (get : Effect σ ε σ) s = (.ok s, s) := (rfl)

@[simp] theorem modify_run (f : σ → σ) : (modify f : Effect σ ε Unit) s = (.ok (), f s) := (rfl)

@[simp] theorem raise_run (e : ε) : (raise e : Effect σ ε α) s = (.error e, s) := (rfl)

@[simp] theorem liftExcept_run (r : Except ε α) : (liftExcept r : Effect σ ε α) s = (r, s) := (rfl)

/-- A handler that raises another exception. -/
theorem tryCatch_raise (m : Effect σ ε α) (f : ε → ε) :
    tryCatch m (fun e => raise (f e)) s =
      match m s with
      | (.ok a, s') => (.ok a, s')
      | (.error e, s') => (.error (f e), s') := by
  unfold tryCatch
  rcases m s with ⟨_ | _, s'⟩
  · rfl
  · rfl

@[simp] theorem bind_run (m : Effect σ ε α) (k : α → Effect σ ε β) :
    (m >>= k) s =
      match m s with
      | (.ok a, s') => k a s'
      | (.error e, s') => (.error e, s') := (rfl)

@[simp] theorem map_run (f : α → β) (m : Effect σ ε α) :
    (f <$> m) s =
      match m s with
      | (.ok a, s') => (.ok (f a), s')
      | (.error e, s') => (.error e, s') := (rfl)

end Run

/-- From a state in `P`, a return satisfies `Q` and an exception `E`. -/
def Triple (P : σ → Prop) (m : Effect σ ε α) (Q : α → σ → Prop) (E : ε → σ → Prop) : Prop :=
  ∀ s, P s →
    match m s with
    | (.ok a, s') => Q a s'
    | (.error e, s') => E e s'

namespace Triple

variable {P : σ → Prop} {Q : α → σ → Prop} {R : β → σ → Prop} {E : ε → σ → Prop}

theorem pure (a : α) (h : ∀ s, P s → Q a s) : Triple P (Pure.pure a) Q E := h

theorem bind {m : Effect σ ε α} {k : α → Effect σ ε β} (hm : Triple P m Q E)
    (hk : ∀ a, Triple (Q a) (k a) R E) : Triple P (m >>= k) R E := by
  intro s hs
  have h := hm s hs
  simp only [bind_run]
  cases hrun : m s with
  | mk r mid =>
      rw [hrun] at h
      cases r with
      | ok a => exact hk a mid h
      | error e => exact h

/-- A sequence whose first part returns a known value. -/
theorem bind_value {m : Effect σ ε α} {k : α → Effect σ ε β} {a : α} {Q : σ → Prop}
    (hm : Triple P m (fun a' s => a' = a ∧ Q s) E) (hk : Triple Q (k a) R E) :
    Triple P (m >>= k) R E := by
  refine bind hm fun a' => ?_
  rintro s ⟨rfl, hs⟩
  exact hk s hs

theorem get {Q : σ → σ → Prop} (h : ∀ s, P s → Q s s) : Triple P Effect.get Q E := h

theorem modify {f : σ → σ} {Q : Unit → σ → Prop} (h : ∀ s, P s → Q () (f s)) :
    Triple P (Effect.modify f) Q E := h

theorem raise {e : ε} (h : ∀ s, P s → E e s) :
    Triple P (Effect.raise e : Effect σ ε α) Q E := h

theorem liftExcept {r : Except ε α} (hok : ∀ a, r = .ok a → ∀ s, P s → Q a s)
    (herror : ∀ e, r = .error e → ∀ s, P s → E e s) :
    Triple P (Effect.liftExcept r) Q E := by
  intro s hs
  cases r with
  | ok a => exact hok a rfl s hs
  | error e => exact herror e rfl s hs

/-- A computation that looks at the state, whatever it is. -/
theorem get_bind {k : σ → Effect σ ε α} (h : ∀ t, Triple P (k t) Q E) :
    Triple P (Effect.get >>= k) Q E :=
  bind (get (Q := fun _ => P) fun _ hs => hs) h

theorem liftExcept_keeps (r : Except ε α) :
    Triple P (Effect.liftExcept r) (fun _ => P) (fun _ => P) :=
  liftExcept (fun _ _ _ hs => hs) fun _ _ _ hs => hs

theorem tryCatch {m : Effect σ ε α} {handler : ε → Effect σ ε α} {F : ε → σ → Prop}
    (hm : Triple P m Q F) (hhandler : ∀ e, Triple (F e) (handler e) Q E) :
    Triple P (Effect.tryCatch m handler) Q E := by
  intro s hs
  have h := hm s hs
  simp only [Effect.tryCatch]
  cases hrun : m s with
  | mk r mid =>
      rw [hrun] at h
      cases r with
      | ok a => exact h
      | error e => exact hhandler e mid h

theorem weaken {P' : σ → Prop} {Q' : α → σ → Prop} {E' : ε → σ → Prop} {m : Effect σ ε α}
    (h : Triple P' m Q' E') (hpre : ∀ s, P s → P' s) (hpost : ∀ a s, Q' a s → Q a s)
    (herror : ∀ e s, E' e s → E e s) : Triple P m Q E := by
  intro s hs
  have hrun := h s (hpre s hs)
  cases hcase : m s with
  | mk r s' =>
      rw [hcase] at hrun
      cases r with
      | ok a => exact hpost a s' hrun
      | error e => exact herror e s' hrun

theorem weaken_error {E' : ε → σ → Prop} {m : Effect σ ε α} (h : Triple P m Q E')
    (herror : ∀ e s, E' e s → E e s) : Triple P m Q E :=
  h.weaken (fun _ hs => hs) (fun _ _ hs => hs) herror

/-- The state in which `m` ends, either way. -/
theorem state {m : Effect σ ε α} {I : σ → Prop} (h : Triple P m (fun _ => I) (fun _ => I))
    {s : σ} (hs : P s) : I (m s).2 := by
  have hrun := h s hs
  cases hcase : m s with
  | mk r s' =>
      rw [hcase] at hrun
      cases r with
      | ok _ => exact hrun
      | error _ => exact hrun

/-- An invariant of the body is one of the loop. -/
theorem forEach {body : β → Effect σ ε Unit} {xs : List β} {I : σ → Prop}
    (h : ∀ x ∈ xs, Triple I (body x) (fun _ => I) E) :
    Triple I (Effect.forEach body xs) (fun _ => I) E := by
  induction xs with
  | nil => exact Triple.pure () fun s hs => hs
  | cons x xs ih =>
      exact (h x (by simp)).bind fun _ => ih fun y hy => h y (by simp [hy])

end Triple

/-- Whatever comes of `m`, it leaves `view` of the state as it was. -/
def Keeps {τ : Type} (view : σ → τ) (m : Effect σ ε α) : Prop := ∀ s, view (m s).2 = view s

namespace Keeps

variable {τ : Type} {view : σ → τ}

theorem pure (a : α) : Keeps view (Pure.pure a : Effect σ ε α) := fun _ => rfl

theorem get : Keeps view (Effect.get : Effect σ ε σ) := fun _ => rfl

theorem raise (e : ε) : Keeps view (Effect.raise e : Effect σ ε α) := fun _ => rfl

theorem liftExcept (r : Except ε α) : Keeps view (Effect.liftExcept r) := fun _ => rfl

theorem modify {f : σ → σ} (h : ∀ s, view (f s) = view s) :
    Keeps view (Effect.modify f : Effect σ ε Unit) := h

theorem bind {m : Effect σ ε α} {k : α → Effect σ ε β} (hm : Keeps view m)
    (hk : ∀ a, Keeps view (k a)) : Keeps view (m >>= k) := by
  intro s
  have h := hm s
  simp only [bind_run]
  cases hrun : m s with
  | mk r mid =>
      rw [hrun] at h
      cases r with
      | ok a => exact (hk a mid).trans h
      | error e => exact h

theorem forEach {body : β → Effect σ ε Unit} {xs : List β}
    (h : ∀ x ∈ xs, Keeps view (body x)) : Keeps view (Effect.forEach body xs) := by
  induction xs with
  | nil => exact pure ()
  | cons x xs ih => exact (h x (by simp)).bind fun _ => ih fun y hy => h y (by simp [hy])

end Keeps

end Effect
