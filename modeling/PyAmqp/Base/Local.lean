import PyAmqp.Base.Traced

/-!
Decoders that look at nothing but what they read. Where a local cursor returns at a place
inside the buffer, the elements it went over are an encoding of what it returned: they read
the same wherever they stand. `Extends` orders cursors that may get stuck for want of fuel:
more fuel changes no other outcome.
-/

namespace Cursor

variable {σ ε α β : Type}

/-- The elements from `offset` up to `next`. -/
def between (buf : List σ) (offset next : Nat) : List σ := (buf.drop offset).take (next - offset)

theorem between_length {buf : List σ} {offset next : Nat} (h : next ≤ buf.length) :
    (between buf offset next).length = next - offset := by
  simp only [between, List.length_take, List.length_drop]
  omega

theorem between_self (buf : List σ) (offset : Nat) : between buf offset offset = [] := by
  simp [between]

theorem between_append {buf : List σ} {offset mid next : Nat} (h1 : offset ≤ mid) (h2 : mid ≤ next) :
    between buf offset mid ++ between buf mid next = between buf offset next := by
  have hmid : mid = offset + (mid - offset) := by omega
  have hnext : next - offset = (mid - offset) + (next - mid) := by omega
  unfold between
  rw [hnext, List.take_add, List.drop_drop, ← hmid]

/-- What `r` went over, inside the buffer, it reads anywhere. -/
def Local (r : Cursor σ ε α) : Prop :=
  ∀ buf offset a next, r buf offset = .ok (a, next) → next ≤ buf.length →
    Reads r (between buf offset next) a

namespace Local

theorem pure (a : α) : Local (Pure.pure a : Cursor σ ε α) := by
  intro buf offset a' next h _
  obtain ⟨rfl, rfl⟩ := Prod.mk.inj (Except.ok.inj h)
  rw [between_self]
  exact .pure _

theorem bind {r : Cursor σ ε α} {k : α → Cursor σ ε β} (hr : Local r) (hadvances : Advances r)
    (hk : ∀ a, Local (k a)) (hkadvances : ∀ a, Advances (k a)) : Local (r >>= k) := by
  intro buf offset b next h hinside
  obtain ⟨a, mid, hrun, hrest⟩ := bind_eq_ok h
  have hmid := hadvances buf offset a mid hrun
  have hnext := hkadvances a buf mid b next hrest
  rw [← between_append hmid hnext]
  apply Reads.bind
  · exact hr buf offset a mid hrun (hnext.trans hinside)
  · exact hk a buf mid b next hrest hinside

/-- A decoder that ends in a pure step. -/
theorem map {r : Cursor σ ε α} (hr : Local r) (f : α → β) :
    Local (r >>= fun a => Pure.pure (f a)) := by
  intro buf offset b next h hinside
  obtain ⟨a, mid, hrun, hpure⟩ := bind_eq_ok h
  obtain ⟨rfl, rfl⟩ := Prod.mk.inj (Except.ok.inj hpure)
  exact Reads.bind_pure f (hr buf offset a mid hrun hinside)

theorem fail (e : ε) : Local (Cursor.fail e : Cursor σ ε α) := by
  intro buf offset a next h
  simp [Cursor.fail] at h

theorem liftExcept (r : Except ε α) : Local (Cursor.liftExcept r : Cursor σ ε α) := by
  intro buf offset a next h _
  unfold Cursor.liftExcept at h
  split at h
  next a' =>
    obtain ⟨rfl, rfl⟩ := Prod.mk.inj (Except.ok.inj h)
    rw [between_self]
    exact .liftExcept rfl
  next => simp at h

theorem index (e : ε) : Local (Cursor.index e : Cursor σ ε σ) := by
  intro buf offset x next h _
  unfold Cursor.index at h
  split at h
  next x' hget =>
    obtain ⟨rfl, rfl⟩ := Prod.mk.inj (Except.ok.inj h)
    obtain ⟨hlt, rfl⟩ := List.getElem?_eq_some_iff.mp hget
    have hone : between buf offset (offset + 1) = [buf[offset]] := by
      rw [between, Nat.add_sub_cancel_left, List.drop_eq_getElem_cons hlt, List.take_succ_cons,
        List.take_zero]
    rw [hone]
    exact .index e _
  next => simp at h

theorem exactly (e : ε) (n : Nat) : Local (Cursor.exactly e n : Cursor σ ε (List σ)) := by
  intro buf offset xs next h hinside
  unfold Cursor.exactly at h
  split at h
  next =>
    obtain ⟨rfl, rfl⟩ := Prod.mk.inj (Except.ok.inj h)
    have heq : between buf offset (offset + n) = (buf.drop offset).take n := by
      rw [between, Nat.add_sub_cancel_left]
    rw [heq]
    apply Reads.exactly
    rw [← heq, between_length hinside, Nat.add_sub_cancel_left]
  next => simp at h

/-- A slice that was cut short went past the end of the buffer. -/
theorem slice (n : Nat) : Local (Cursor.slice n : Cursor σ ε (List σ)) := by
  intro buf offset xs next h hinside
  obtain ⟨rfl, rfl⟩ := Prod.mk.inj (Except.ok.inj h)
  have heq : between buf offset (offset + n) = (buf.drop offset).take n := by
    rw [between, Nat.add_sub_cancel_left]
  rw [heq]
  apply Reads.slice
  rw [← heq, between_length hinside, Nat.add_sub_cancel_left]

/-- The loop tests its offset against a limit that moves with the encoding, and the rounds
that consume end before the fuel of any buffer that holds it. -/
private theorem whileBelow (stuck : ε) {body : α → Cursor σ ε α} (hbody : ∀ acc, Local (body acc))
    (hconsumes : ∀ acc, Consumes (body acc)) {buf : List σ} {limit next : Nat} {result : α}
    (hinside : next ≤ buf.length) (fuel : Nat) (acc : α) (offset : Nat)
    (h : Cursor.whileBelow stuck limit body fuel acc buf offset = .ok (result, next)) :
    offset ≤ next ∧ ∀ (fuel' limit' : Nat) (before after : List σ),
      next - offset < fuel' → limit' + offset = before.length + limit →
      Cursor.whileBelow stuck limit' body fuel' acc (before ++ between buf offset next ++ after)
        before.length = .ok (result, before.length + (between buf offset next).length) := by
  induction fuel generalizing acc offset with
  | zero => simp [Cursor.whileBelow, Cursor.fail] at h
  | succ fuel ih =>
      simp only [Cursor.whileBelow] at h
      split at h
      next hbelow =>
        obtain ⟨acc', mid, hrun, hrest⟩ := bind_eq_ok h
        obtain ⟨hmid, hreads⟩ := ih acc' mid hrest
        have hlt := (hconsumes acc buf offset acc' mid hrun).1
        have hround := hbody acc buf offset acc' mid hrun (hmid.trans hinside)
        refine ⟨hlt.le.trans hmid, fun fuel' limit' before after hfuel hlimit => ?_⟩
        obtain ⟨fuel', rfl⟩ := Nat.exists_eq_succ_of_ne_zero (Nat.ne_zero_of_lt hfuel)
        have hfirst := hround before (between buf mid next ++ after)
        have hlen : (between buf offset mid).length = mid - offset :=
          between_length (hmid.trans hinside)
        have hlater := hreads fuel' limit' (before ++ between buf offset mid) after (by omega)
          (by rw [List.length_append]; omega)
        simp only [List.append_assoc, List.length_append] at hfirst hlater
        rw [← between_append hlt.le hmid]
        simp only [Cursor.whileBelow, List.append_assoc, List.length_append, Cursor.bind, hfirst,
          hlater, Nat.add_assoc]
        rw [if_pos (by omega)]
      next hreached =>
        obtain ⟨rfl, rfl⟩ := Prod.mk.inj (Except.ok.inj h)
        refine ⟨le_refl _, fun fuel' limit' before after hfuel hlimit => ?_⟩
        obtain ⟨fuel', rfl⟩ := Nat.exists_eq_succ_of_ne_zero (Nat.ne_zero_of_lt hfuel)
        simp only [Cursor.whileBelow, between_self, List.length_nil, Nat.add_zero]
        rw [if_neg (by omega)]

theorem within {stuck : ε} {body : α → Cursor σ ε α} (hbody : ∀ acc, Local (body acc))
    (hconsumes : ∀ acc, Consumes (body acc)) (length : Nat) (init : α) :
    Local (Cursor.within stuck length body init) := by
  intro buf offset a next h hinside before after
  obtain ⟨-, hreads⟩ := whileBelow stuck hbody hconsumes hinside _ init offset h
  apply hreads
  · simp only [List.length_append, between_length hinside]
    omega
  · omega

end Local

/-- Two encodings that a cursor reads, one of them the beginning of the other, are the same. -/
theorem Reads.prefix_eq {r : Cursor σ ε α} {enc enc' : List σ} {a a' : α} (h : Reads r enc a)
    (h' : Reads r enc' a') (hstarts : enc <+: enc') : enc' = enc ∧ a' = a := by
  obtain ⟨rest, rfl⟩ := hstarts
  have hboth := (h [] rest).symm.trans (by simpa using h' [] [])
  obtain ⟨rfl, hlength⟩ := Prod.mk.inj (Except.ok.inj hboth)
  have hrest : rest = [] := by
    apply List.eq_nil_of_length_eq_zero
    simp only [List.length_nil] at hlength
    omega
  exact ⟨by rw [hrest, List.append_nil], rfl⟩

/-- What `r` accepts are encodings that need nothing around them to tell what they are. -/
structure SelfDelimiting (r : Cursor σ ε α) : Prop where
  /-- The elements that `r` went over, inside some buffer, it reads anywhere. -/
  anywhere : ∀ buf offset a next, r buf offset = .ok (a, next) → next ≤ buf.length →
    Reads r (between buf offset next) a
  /-- No encoding is the beginning of another. -/
  prefixFree : ∀ enc enc' a a', r enc 0 = .ok (a, enc.length) → r enc' 0 = .ok (a', enc'.length) →
    enc <+: enc' → enc' = enc ∧ a' = a

theorem between_whole (enc : List σ) : between enc 0 enc.length = enc := by simp [between]

theorem Local.selfDelimiting {r : Cursor σ ε α} (h : Local r) : SelfDelimiting r where
  anywhere := h
  prefixFree := by
    intro enc enc' a a' hrun hrun' hstarts
    have hreads := h enc 0 a enc.length hrun (le_refl _)
    have hreads' := h enc' 0 a' enc'.length hrun' (le_refl _)
    rw [between_whole] at hreads hreads'
    exact hreads.prefix_eq hreads' hstarts

/-- `r'` does what `r` does wherever `r` does not get stuck. -/
def Extends (stuck : ε) (r' r : Cursor σ ε α) : Prop :=
  ∀ buf offset, r buf offset ≠ .error stuck → r' buf offset = r buf offset

namespace Extends

variable {stuck : ε}

theorem refl (r : Cursor σ ε α) : Extends stuck r r := fun _ _ _ => rfl

theorem trans {r r' r'' : Cursor σ ε α} (h' : Extends stuck r'' r') (h : Extends stuck r' r) :
    Extends stuck r'' r := by
  intro buf offset hrun
  have heq := h buf offset hrun
  exact (h' buf offset (heq ▸ hrun)).trans heq

theorem bind {r r' : Cursor σ ε α} {k k' : α → Cursor σ ε β} (hr : Extends stuck r' r)
    (hk : ∀ a, Extends stuck (k' a) (k a)) : Extends stuck (r' >>= k') (r >>= k) := by
  intro buf offset hrun
  simp only [Bind.bind, Cursor.bind] at hrun ⊢
  cases hfirst : r buf offset with
  | error e =>
      have hne : r buf offset ≠ .error stuck := by
        intro heq
        apply hrun
        rw [heq]
      rw [hr buf offset hne, hfirst]
  | ok out =>
      rw [hfirst] at hrun
      rw [hr buf offset (by simp [hfirst]), hfirst]
      exact hk out.1 buf out.2 hrun

theorem within {body body' : α → Cursor σ ε α} (hbody : ∀ acc, Extends stuck (body' acc) (body acc))
    (length : Nat) (init : α) :
    Extends stuck (Cursor.within stuck length body' init) (Cursor.within stuck length body init) := by
  have hloop : ∀ limit fuel acc, Extends stuck (Cursor.whileBelow stuck limit body' fuel acc)
      (Cursor.whileBelow stuck limit body fuel acc) := by
    intro limit fuel
    induction fuel with
    | zero => exact fun acc => .refl _
    | succ fuel ih =>
        intro acc buf offset hrun
        simp only [whileBelow] at hrun ⊢
        split
        next hbelow =>
          rw [if_pos hbelow] at hrun
          exact bind (hbody acc) ih buf offset hrun
        next => rfl
  exact fun buf offset => hloop _ _ _ buf offset

end Extends

end Cursor
