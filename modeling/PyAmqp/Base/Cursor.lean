import Mathlib.Data.List.Basic

/-!
Decoders over a fixed buffer. A cursor takes the offset it starts at and returns
a value with the offset after it, or an error. `Reads` says that a cursor reads
one encoding wherever it stands in a buffer; its rules follow the cursor's own
structure, so a format is proved by walking its decoder.
-/

def Cursor (σ ε α : Type) := List σ → Nat → Except ε (α × Nat)

namespace Cursor

variable {σ ε α β : Type}

protected def pure (a : α) : Cursor σ ε α := fun _ offset => .ok (a, offset)

protected def bind (r : Cursor σ ε α) (k : α → Cursor σ ε β) : Cursor σ ε β :=
  fun buf offset =>
    match r buf offset with
    | .ok (a, next) => k a buf next
    | .error e => .error e

instance : Monad (Cursor σ ε) where
  pure := Cursor.pure
  bind := Cursor.bind

instance : LawfulMonad (Cursor σ ε) := LawfulMonad.mk' _
  (by
    intro α r
    funext buf offset
    simp only [Functor.map, Cursor.bind, Function.comp, Cursor.pure, id]
    cases r buf offset <;> rfl)
  (by intro α β a k; rfl)
  (by
    intro α β γ r k l
    funext buf offset
    simp only [Bind.bind, Cursor.bind]
    cases r buf offset <;> rfl)

def fail (e : ε) : Cursor σ ε α := fun _ _ => .error e

def liftExcept (r : Except ε α) : Cursor σ ε α := fun _ offset =>
  match r with
  | .ok a => .ok (a, offset)
  | .error e => .error e

/-- The element at the offset; `e` past the end of the buffer. -/
def index (e : ε) : Cursor σ ε σ := fun buf offset =>
  match buf[offset]? with
  | some x => .ok (x, offset + 1)
  | none => .error e

/-- The next `n` elements; `e` when the buffer holds fewer. -/
def exactly (e : ε) (n : Nat) : Cursor σ ε (List σ) := fun buf offset =>
  if offset + n ≤ buf.length then .ok ((buf.drop offset).take n, offset + n) else .error e

/-- A slice of `n` elements. It is cut short at the end of the buffer, and the
offset advances by `n` all the same. -/
def slice (n : Nat) : Cursor σ ε (List σ) := fun buf offset =>
  .ok ((buf.drop offset).take n, offset + n)

/-- `while offset < limit: acc = body(acc)`, for at most `fuel` tests. -/
def whileBelow (stuck : ε) (limit : Nat) (body : α → Cursor σ ε α) :
    Nat → α → Cursor σ ε α
  | 0, _ => fail stuck
  | fuel + 1, acc => fun buf offset =>
      if offset < limit then
        Cursor.bind (body acc) (whileBelow stuck limit body fuel) buf offset
      else .ok (acc, offset)

/-- The loop over the next `length` elements. Every round that does not fail
advances, so the buffer's length bounds the rounds. -/
def within (stuck : ε) (length : Nat) (body : α → Cursor σ ε α) (init : α) :
    Cursor σ ε α := fun buf offset =>
  whileBelow stuck (offset + length) body (buf.length + 1) init buf offset

/-- `r` reads the encoding `enc` as `a`, whatever stands before and after it. -/
def Reads (r : Cursor σ ε α) (enc : List σ) (a : α) : Prop :=
  ∀ before after,
    r (before ++ enc ++ after) before.length = .ok (a, before.length + enc.length)

namespace Reads

theorem pure (a : α) : Reads (Pure.pure a : Cursor σ ε α) [] a := by
  intro before after
  simp [Pure.pure, Cursor.pure]

theorem bind {r : Cursor σ ε α} {k : α → Cursor σ ε β} {first second : List σ}
    {a : α} {b : β} (hr : Reads r first a) (hk : Reads (k a) second b) :
    Reads (r >>= k) (first ++ second) b := by
  intro before after
  have h1 := hr before (second ++ after)
  have h2 := hk (before ++ first) after
  simp only [List.append_assoc, List.length_append] at h1 h2
  simp only [Bind.bind, Cursor.bind, List.append_assoc, List.length_append, h1, h2,
    Nat.add_assoc]

/-- A decoder that ends in a pure step reads the same octets. -/
theorem bind_pure {r : Cursor σ ε α} {enc : List σ} {a : α} (f : α → β)
    (hr : Reads r enc a) : Reads (r >>= fun x => Pure.pure (f x)) enc (f a) := by
  intro before after
  have h := hr before after
  simp only [Bind.bind, Cursor.bind, h]
  rfl

theorem liftExcept {r : Except ε α} {a : α} (h : r = .ok a) :
    Reads (Cursor.liftExcept r : Cursor σ ε α) [] a := by
  intro before after
  simp [Cursor.liftExcept, h]

theorem index (e : ε) (x : σ) : Reads (Cursor.index e) [x] x := by
  intro before after
  simp [Cursor.index]

theorem exactly (e : ε) {n : Nat} {enc : List σ} (hlength : enc.length = n) :
    Reads (Cursor.exactly e n) enc enc := by
  intro before after
  subst hlength
  simp [Cursor.exactly]

theorem slice {n : Nat} {enc : List σ} (hlength : enc.length = n) :
    Reads (Cursor.slice n : Cursor σ ε (List σ)) enc enc := by
  intro before after
  subst hlength
  simp [Cursor.slice]

private theorem whileBelow_reads (stuck : ε) (body : α → Cursor σ ε α) (enc : β → List σ)
    (step : α → β → α) (xs : List β) (hne : ∀ x ∈ xs, enc x ≠ [])
    (hbody : ∀ x ∈ xs, ∀ acc, Reads (body acc) (enc x) (step acc x))
    (fuel : Nat) (hfuel : xs.length < fuel) (acc : α) (before after : List σ) :
    whileBelow stuck (before.length + (xs.flatMap enc).length) body fuel acc
        (before ++ xs.flatMap enc ++ after) before.length =
      .ok (xs.foldl step acc, before.length + (xs.flatMap enc).length) := by
  induction xs generalizing fuel acc before with
  | nil =>
      obtain ⟨fuel, rfl⟩ := Nat.exists_eq_succ_of_ne_zero (by omega : fuel ≠ 0)
      simp [whileBelow]
  | cons x xs ih =>
      simp only [List.length_cons] at hfuel
      obtain ⟨fuel, rfl⟩ := Nat.exists_eq_succ_of_ne_zero (by omega : fuel ≠ 0)
      have hpos : 0 < (enc x).length := List.length_pos_iff.mpr (hne x (by simp))
      have hx := hbody x (by simp) acc before (xs.flatMap enc ++ after)
      have hrest := ih (fun y hy => hne y (by simp [hy])) (fun y hy => hbody y (by simp [hy]))
        fuel (by omega) (step acc x) (before ++ enc x)
      simp only [List.append_assoc, List.length_append, Nat.add_assoc] at hx hrest
      simp only [whileBelow, List.flatMap_cons, List.append_assoc, List.length_append,
        Cursor.bind, hx, hrest, List.foldl_cons]
      rw [if_pos (by omega)]

/-- A loop over exactly the octets of `xs` folds over `xs`, when its body reads
each element. An element takes at least one octet. -/
theorem within (stuck : ε) {body : α → Cursor σ ε α} (enc : β → List σ)
    (step : α → β → α) {xs : List β} {length : Nat} (init : α)
    (hne : ∀ x ∈ xs, enc x ≠ [])
    (hbody : ∀ x ∈ xs, ∀ acc, Reads (body acc) (enc x) (step acc x))
    (hlength : (xs.flatMap enc).length = length) :
    Reads (Cursor.within stuck length body init) (xs.flatMap enc) (xs.foldl step init) := by
  intro before after
  have hcount : xs.length ≤ (xs.flatMap enc).length := by
    clear hbody hlength
    induction xs with
    | nil => simp
    | cons x xs ih =>
        have hpos : 0 < (enc x).length := List.length_pos_iff.mpr (hne x (by simp))
        have htail := ih (fun y hy => hne y (by simp [hy]))
        simp only [List.length_cons, List.flatMap_cons, List.length_append]
        omega
  rw [← hlength]
  exact whileBelow_reads stuck body enc step xs hne hbody _
    (by simp only [List.length_append]; omega) init before after

end Reads

/-- A cursor that goes on after another has returned starts where that one stopped. -/
theorem bind_eq_ok {r : Cursor σ ε α} {k : α → Cursor σ ε β} {buf : List σ} {offset next : Nat}
    {b : β} (h : (r >>= k) buf offset = .ok (b, next)) :
    ∃ a mid, r buf offset = .ok (a, mid) ∧ k a buf mid = .ok (b, next) := by
  simp only [Bind.bind, Cursor.bind] at h
  split at h
  next a mid hrun => exact ⟨a, mid, hrun, h⟩
  next => simp at h

/-- Where `r` returns at all, it stops behind the encoding `enc`. -/
def Spans (r : Cursor σ ε α) (enc : List σ) : Prop :=
  ∀ before after a next, r (before ++ enc ++ after) before.length = .ok (a, next) →
    next = before.length + enc.length

/-- A check of what has been read moves the cursor no further. -/
theorem Reads.spans {r : Cursor σ ε α} {enc : List σ} {a : α} (hr : Reads r enc a)
    (f : α → Except ε β) : Spans (r >>= fun a => Cursor.liftExcept (f a)) enc := by
  intro before after b next h
  obtain ⟨a', mid, hrun, hcheck⟩ := bind_eq_ok h
  obtain ⟨-, rfl⟩ := Prod.mk.inj (Except.ok.inj ((hr before after).symm.trans hrun))
  unfold Cursor.liftExcept at hcheck
  split at hcheck
  next => exact (Prod.mk.inj (Except.ok.inj hcheck)).2.symm
  next => simp at hcheck

theorem Spans.bind_pure {r : Cursor σ ε α} {enc : List σ} (hr : Spans r enc) (f : α → β) :
    Spans (r >>= fun a => Pure.pure (f a)) enc := by
  intro before after b next h
  obtain ⟨a, mid, hrun, hpure⟩ := bind_eq_ok h
  obtain rfl := hr before after a mid hrun
  exact (Prod.mk.inj (Except.ok.inj hpure)).2.symm

/-- Whatever `r` raises is in `E`. -/
def Raises (E : ε → Prop) (r : Cursor σ ε α) : Prop :=
  ∀ buf offset e, r buf offset = .error e → E e

namespace Raises

variable {E : ε → Prop}

theorem pure (a : α) : Raises E (Pure.pure a : Cursor σ ε α) := by
  intro buf offset e h
  simp [Pure.pure, Cursor.pure] at h

theorem bind {r : Cursor σ ε α} {k : α → Cursor σ ε β} (hr : Raises E r)
    (hk : ∀ a, Raises E (k a)) : Raises E (r >>= k) := by
  intro buf offset e h
  simp only [Bind.bind, Cursor.bind] at h
  split at h
  next a next hrun => exact hk a buf next e h
  next e' hrun =>
    obtain rfl := Except.error.inj h
    exact hr buf offset e' hrun

theorem fail {e : ε} (he : E e) : Raises E (Cursor.fail e : Cursor σ ε α) := by
  intro buf offset e' h
  obtain rfl := Except.error.inj h
  exact he

theorem liftExcept {r : Except ε α} (hr : ∀ e, r = .error e → E e) :
    Raises E (Cursor.liftExcept r : Cursor σ ε α) := by
  intro buf offset e h
  unfold Cursor.liftExcept at h
  split at h
  next => simp at h
  next e' =>
    obtain rfl := Except.error.inj h
    exact hr e' rfl

theorem index {e : ε} (he : E e) : Raises E (Cursor.index e : Cursor σ ε σ) := by
  intro buf offset e' h
  unfold Cursor.index at h
  split at h
  next => simp at h
  next =>
    obtain rfl := Except.error.inj h
    exact he

theorem exactly {e : ε} (he : E e) (n : Nat) :
    Raises E (Cursor.exactly e n : Cursor σ ε (List σ)) := by
  intro buf offset e' h
  unfold Cursor.exactly at h
  split at h
  next => simp at h
  next =>
    obtain rfl := Except.error.inj h
    exact he

theorem slice (n : Nat) : Raises E (Cursor.slice n : Cursor σ ε (List σ)) := by
  intro buf offset e h
  simp [Cursor.slice] at h

theorem within {stuck : ε} (hstuck : E stuck) {body : α → Cursor σ ε α}
    (hbody : ∀ acc, Raises E (body acc)) (length : Nat) (init : α) :
    Raises E (Cursor.within stuck length body init) := by
  have hloop : ∀ limit fuel acc, Raises E (Cursor.whileBelow stuck limit body fuel acc) := by
    intro limit fuel
    induction fuel with
    | zero => exact fun acc => fail hstuck
    | succ fuel ih =>
        intro acc buf offset e h
        simp only [whileBelow] at h
        split at h
        · exact bind (hbody acc) ih buf offset e h
        · simp at h
  intro buf offset e h
  exact hloop _ _ _ buf offset e h

end Raises

/-- Whatever `r` returns is in `P`. -/
def Returns (P : α → Prop) (r : Cursor σ ε α) : Prop :=
  ∀ buf offset a next, r buf offset = .ok (a, next) → P a

namespace Returns

variable {P : α → Prop}

theorem pure {a : α} (h : P a) : Returns P (Pure.pure a : Cursor σ ε α) := by
  intro buf offset a' next hrun
  simp only [Pure.pure, Cursor.pure, Except.ok.injEq, Prod.mk.injEq] at hrun
  exact hrun.1 ▸ h

theorem bind {Q : β → Prop} {r : Cursor σ ε α} {k : α → Cursor σ ε β} (hr : Returns P r)
    (hk : ∀ a, P a → Returns Q (k a)) : Returns Q (r >>= k) := by
  intro buf offset b next h
  simp only [Bind.bind, Cursor.bind] at h
  split at h
  next a mid hrun => exact hk a (hr buf offset a mid hrun) buf mid b next h
  next => simp at h

/-- A decoder that ends in a pure step. -/
theorem map {Q : β → Prop} {r : Cursor σ ε α} (f : α → β) (hr : Returns P r)
    (hf : ∀ a, P a → Q (f a)) : Returns Q (r >>= fun a => Pure.pure (f a)) :=
  bind hr fun a ha => pure (hf a ha)

theorem fail (e : ε) : Returns P (Cursor.fail e : Cursor σ ε α) := by
  intro buf offset a next h
  simp [Cursor.fail] at h

theorem liftExcept {r : Except ε α} (hr : ∀ a, r = .ok a → P a) :
    Returns P (Cursor.liftExcept r : Cursor σ ε α) := by
  intro buf offset a next h
  unfold Cursor.liftExcept at h
  split at h
  next a' =>
    simp only [Except.ok.injEq, Prod.mk.injEq] at h
    exact hr a (by rw [h.1])
  next => simp at h

theorem anything (r : Cursor σ ε α) : Returns (fun _ => True) r := fun _ _ _ _ _ => trivial

theorem exactly (e : ε) (n : Nat) :
    Returns (fun octets => octets.length = n) (Cursor.exactly e n : Cursor σ ε (List σ)) := by
  intro buf offset octets next h
  unfold Cursor.exactly at h
  split at h
  next hfits =>
    simp only [Except.ok.injEq, Prod.mk.injEq] at h
    rw [← h.1, List.length_take, List.length_drop]
    omega
  next => simp at h

theorem slice (n : Nat) :
    Returns (fun octets => octets.length ≤ n) (Cursor.slice n : Cursor σ ε (List σ)) := by
  intro buf offset octets next h
  simp only [Cursor.slice, Except.ok.injEq, Prod.mk.injEq] at h
  rw [← h.1]
  exact List.length_take_le ..

/-- What a round of the loop keeps, the loop returns. -/
theorem within {stuck : ε} {body : α → Cursor σ ε α}
    (hbody : ∀ acc, P acc → Returns P (body acc)) (length : Nat) {init : α} (hinit : P init) :
    Returns P (Cursor.within stuck length body init) := by
  have hloop : ∀ limit fuel acc, P acc →
      Returns P (Cursor.whileBelow stuck limit body fuel acc) := by
    intro limit fuel
    induction fuel with
    | zero => exact fun acc _ => fail stuck
    | succ fuel ih =>
        intro acc hacc buf offset a next h
        simp only [whileBelow] at h
        split at h
        · exact bind (hbody acc hacc) ih buf offset a next h
        · simp only [Except.ok.injEq, Prod.mk.injEq] at h
          exact h.1 ▸ hacc
  intro buf offset a next h
  exact hloop _ _ _ hinit buf offset a next h

end Returns

end Cursor
