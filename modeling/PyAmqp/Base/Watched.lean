import PyAmqp.Base.Effect

/-!
Effects that note what they do. What was noted before an exception stays noted, and without
its notes a watched effect is an effect. `Triple` says of a run what all its notes are like and
how it ends, `Emits` that it makes a given note.
-/

def Watched (ν σ ε α : Type) := σ → List ν × (Except ε α × σ)

namespace Watched

variable {ν σ ε α β : Type}

protected def pure (a : α) : Watched ν σ ε α := fun s => ([], .ok a, s)

protected def bind (m : Watched ν σ ε α) (k : α → Watched ν σ ε β) : Watched ν σ ε β := fun s =>
  match m s with
  | (notes, .ok a, s') =>
      let (more, out) := k a s'
      (notes ++ more, out)
  | (notes, .error e, s') => (notes, .error e, s')

instance : Monad (Watched ν σ ε) where
  pure := Watched.pure
  bind := Watched.bind

/-- An effect that notes nothing. -/
def lift (m : Effect σ ε α) : Watched ν σ ε α := fun s => ([], m s)

/-- `m`, behind a note. -/
def note (x : ν) (m : Watched ν σ ε α) : Watched ν σ ε α := fun s =>
  let (notes, out) := m s
  (x :: notes, out)

/-- `try: m` with `except e: handler(e)`. -/
def tryCatch (m : Watched ν σ ε α) (handler : ε → Watched ν σ ε α) : Watched ν σ ε α := fun s =>
  match m s with
  | (notes, .ok a, s') => (notes, .ok a, s')
  | (notes, .error e, s') =>
      let (more, out) := handler e s'
      (notes ++ more, out)

@[simp] theorem lift_pure_bind (a : α) (k : α → Watched ν σ ε β) :
    (lift (Pure.pure a) >>= k) = k a := (rfl)

/-- The effect without its notes. -/
def erase (m : Watched ν σ ε α) : Effect σ ε α := fun s => (m s).2

section Erase

theorem erase_pure (a : α) : erase (Pure.pure a : Watched ν σ ε α) = Pure.pure a := rfl

theorem erase_lift (m : Effect σ ε α) : erase (lift m : Watched ν σ ε α) = m := rfl

theorem erase_bind (m : Watched ν σ ε α) (k : α → Watched ν σ ε β) :
    erase (m >>= k) = erase m >>= fun a => erase (k a) := by
  funext s
  simp only [erase, Bind.bind, Watched.bind, Effect.bind]
  rcases m s with ⟨notes, a | e, s'⟩
  · rfl
  · rfl

theorem erase_tryCatch (m : Watched ν σ ε α) (handler : ε → Watched ν σ ε α) :
    erase (tryCatch m handler) = Effect.tryCatch (erase m) fun e => erase (handler e) := by
  funext s
  simp only [erase, tryCatch, Effect.tryCatch]
  rcases m s with ⟨notes, a | e, s'⟩
  · rfl
  · rfl

end Erase

/-- From a state in `P`, all notes satisfy `N`, a return satisfies `Q` and an exception `E`. -/
def Triple (N : ν → Prop) (P : σ → Prop) (m : Watched ν σ ε α) (Q : α → σ → Prop)
    (E : ε → σ → Prop) : Prop :=
  ∀ s, P s → (∀ x ∈ (m s).1, N x) ∧
    match (m s).2 with
    | (.ok a, s') => Q a s'
    | (.error e, s') => E e s'

namespace Triple

variable {N : ν → Prop} {P : σ → Prop} {Q : α → σ → Prop} {R : β → σ → Prop} {E F : ε → σ → Prop}

/-- What is noted and how it ends are seen to one by one. -/
theorem of_erase {m : Watched ν σ ε α} (hnotes : ∀ s, P s → ∀ x ∈ (m s).1, N x)
    (hend : Effect.Triple P (erase m) Q E) : Triple N P m Q E :=
  fun s hs => ⟨hnotes s hs, hend s hs⟩

theorem lift {m : Effect σ ε α} (h : Effect.Triple P m Q E) :
    Triple N P (Watched.lift m) Q E :=
  fun s hs => ⟨fun _ hx => absurd hx List.not_mem_nil, h s hs⟩

theorem pure (a : α) (h : ∀ s, P s → Q a s) : Triple N P (Pure.pure a) Q E :=
  fun s hs => ⟨fun _ hx => absurd hx List.not_mem_nil, h s hs⟩

theorem bind {m : Watched ν σ ε α} {k : α → Watched ν σ ε β} (hm : Triple N P m Q E)
    (hk : ∀ a, Triple N (Q a) (k a) R E) : Triple N P (m >>= k) R E := by
  intro s hs
  have h := hm s hs
  simp only [Bind.bind, Watched.bind]
  rcases hrun : m s with ⟨notes, e | a, s'⟩
  · rwa [hrun] at h
  · rw [hrun] at h
    obtain ⟨hnotes, hmid⟩ := h
    obtain ⟨hmore, hend⟩ := hk a s' hmid
    exact ⟨fun x hx => (List.mem_append.mp hx).elim (hnotes x) (hmore x), hend⟩

theorem tryCatch {m : Watched ν σ ε α} {handler : ε → Watched ν σ ε α} (hm : Triple N P m Q F)
    (hhandler : ∀ e, Triple N (F e) (handler e) Q E) :
    Triple N P (Watched.tryCatch m handler) Q E := by
  intro s hs
  have h := hm s hs
  simp only [Watched.tryCatch]
  rcases hrun : m s with ⟨notes, e | a, s'⟩
  · rw [hrun] at h
    obtain ⟨hnotes, hmid⟩ := h
    obtain ⟨hmore, hend⟩ := hhandler e s' hmid
    exact ⟨fun x hx => (List.mem_append.mp hx).elim (hnotes x) (hmore x), hend⟩
  · rwa [hrun] at h

theorem weaken {P' : σ → Prop} {Q' : α → σ → Prop} {m : Watched ν σ ε α}
    (h : Triple N P' m Q' F) (hpre : ∀ s, P s → P' s) (hpost : ∀ a s, Q' a s → Q a s)
    (herror : ∀ e s, F e s → E e s) : Triple N P m Q E := by
  intro s hs
  obtain ⟨hnotes, hend⟩ := h s (hpre s hs)
  refine ⟨hnotes, ?_⟩
  rcases hrun : (m s).2 with ⟨e | a, s'⟩
  · rw [hrun] at hend
    exact herror e s' hend
  · rw [hrun] at hend
    exact hpost a s' hend

theorem weaken_error {m : Watched ν σ ε α} (h : Triple N P m Q F)
    (herror : ∀ e s, F e s → E e s) : Triple N P m Q E :=
  h.weaken (fun _ hs => hs) (fun _ _ hs => hs) herror

end Triple

/-- From a state in `P`, `x` is noted. -/
def Emits (x : ν) (P : σ → Prop) (m : Watched ν σ ε α) : Prop := ∀ s, P s → x ∈ (m s).1

namespace Emits

variable {x : ν} {P : σ → Prop} {m : Watched ν σ ε α} {k : α → Watched ν σ ε β}

theorem first (h : Emits x P m) : Emits x P (m >>= k) := by
  intro s hs
  have hx := h s hs
  simp only [Bind.bind, Watched.bind]
  rcases hrun : m s with ⟨notes, e | a, s'⟩
  · rwa [hrun] at hx
  · rw [hrun] at hx
    exact List.mem_append_left _ hx

/-- What comes behind `m` is reached where `m` cannot but return. -/
theorem behind {Q : α → σ → Prop} (hm : Effect.Triple P (erase m) Q fun _ _ => False)
    (hk : ∀ a, Emits x (Q a) (k a)) : Emits x P (m >>= k) := by
  intro s hs
  have h := hm s hs
  simp only [erase] at h
  simp only [Bind.bind, Watched.bind]
  rcases hrun : m s with ⟨notes, e | a, s'⟩
  · rw [hrun] at h
    exact h.elim
  · rw [hrun] at h
    exact List.mem_append_right _ (hk a s' h)

theorem tryCatch {handler : ε → Watched ν σ ε α} (h : Emits x P m) :
    Emits x P (Watched.tryCatch m handler) := by
  intro s hs
  have hx := h s hs
  simp only [Watched.tryCatch]
  rcases hrun : m s with ⟨notes, e | a, s'⟩
  · rw [hrun] at hx
    exact List.mem_append_left _ hx
  · rwa [hrun] at hx

end Emits

end Watched
