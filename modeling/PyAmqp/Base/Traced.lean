import Mathlib.Algebra.Order.Ring.Nat
import PyAmqp.Base.Cursor

/-!
How far a cursor gets, and what it does on the way. `Consumes` bounds a loop by the elements
that stand in the buffer, whatever limit the loop has. A traced cursor notes events; what it
noted before an error stays noted, and without its notes it is a cursor.
-/

namespace Cursor

variable {σ ε α β : Type}

/-- `r` does not step back. -/
def Advances (r : Cursor σ ε α) : Prop :=
  ∀ buf offset a next, r buf offset = .ok (a, next) → offset ≤ next

/-- Where `r` returns, it has read an element that stands in the buffer. -/
def Consumes (r : Cursor σ ε α) : Prop :=
  ∀ buf offset a next, r buf offset = .ok (a, next) → offset < next ∧ offset < buf.length

/-- Where `r` returns it is `n` elements further. -/
def Moves (n : Nat) (r : Cursor σ ε α) : Prop :=
  ∀ buf offset a next, r buf offset = .ok (a, next) → next = offset + n

/-- With at most `n` elements before the end of the buffer `r` does not get stuck. -/
def Unstuck (stuck : ε) (n : Nat) (r : Cursor σ ε α) : Prop :=
  ∀ buf offset, buf.length ≤ offset + n → r buf offset ≠ .error stuck

namespace Advances

theorem pure (a : α) : Advances (Pure.pure a : Cursor σ ε α) := by
  intro buf offset a' next h
  exact (Prod.mk.inj (Except.ok.inj h)).2.le

theorem bind {r : Cursor σ ε α} {k : α → Cursor σ ε β} (hr : Advances r)
    (hk : ∀ a, Advances (k a)) : Advances (r >>= k) := by
  intro buf offset b next h
  obtain ⟨a, mid, hrun, hrest⟩ := bind_eq_ok h
  exact (hr buf offset a mid hrun).trans (hk a buf mid b next hrest)

theorem fail (e : ε) : Advances (Cursor.fail e : Cursor σ ε α) := by
  intro buf offset a next h
  simp [Cursor.fail] at h

theorem liftExcept (r : Except ε α) : Advances (Cursor.liftExcept r : Cursor σ ε α) := by
  intro buf offset a next h
  unfold Cursor.liftExcept at h
  split at h
  next => exact (Prod.mk.inj (Except.ok.inj h)).2.le
  next => simp at h

theorem index (e : ε) : Advances (Cursor.index e : Cursor σ ε σ) := by
  intro buf offset x next h
  unfold Cursor.index at h
  split at h
  next => exact (Nat.le_succ offset).trans_eq (Prod.mk.inj (Except.ok.inj h)).2
  next => simp at h

theorem exactly (e : ε) (n : Nat) : Advances (Cursor.exactly e n : Cursor σ ε (List σ)) := by
  intro buf offset xs next h
  unfold Cursor.exactly at h
  split at h
  next => exact (Nat.le_add_right offset n).trans_eq (Prod.mk.inj (Except.ok.inj h)).2
  next => simp at h

theorem slice (n : Nat) : Advances (Cursor.slice n : Cursor σ ε (List σ)) := by
  intro buf offset xs next h
  exact (Nat.le_add_right offset n).trans_eq (Prod.mk.inj (Except.ok.inj h)).2

theorem within {stuck : ε} {body : α → Cursor σ ε α} (hbody : ∀ acc, Advances (body acc))
    (length : Nat) (init : α) : Advances (Cursor.within stuck length body init) := by
  have hloop : ∀ limit fuel acc, Advances (Cursor.whileBelow stuck limit body fuel acc) := by
    intro limit fuel
    induction fuel with
    | zero => exact fun acc => fail stuck
    | succ fuel ih =>
        intro acc buf offset a next h
        simp only [whileBelow] at h
        split at h
        · exact bind (hbody acc) ih buf offset a next h
        · exact (Prod.mk.inj (Except.ok.inj h)).2.le
  intro buf offset a next h
  exact hloop _ _ _ buf offset a next h

end Advances

namespace Consumes

theorem advances {r : Cursor σ ε α} (h : Consumes r) : Advances r :=
  fun buf offset a next hrun => (h buf offset a next hrun).1.le

/-- The first of two cursors consumes. -/
theorem bind {r : Cursor σ ε α} {k : α → Cursor σ ε β} (hr : Consumes r)
    (hk : ∀ a, Advances (k a)) : Consumes (r >>= k) := by
  intro buf offset b next h
  obtain ⟨a, mid, hrun, hrest⟩ := bind_eq_ok h
  obtain ⟨hlt, hstands⟩ := hr buf offset a mid hrun
  exact ⟨hlt.trans_le (hk a buf mid b next hrest), hstands⟩

theorem fail (e : ε) : Consumes (Cursor.fail e : Cursor σ ε α) := by
  intro buf offset a next h
  simp [Cursor.fail] at h

theorem index (e : ε) : Consumes (Cursor.index e : Cursor σ ε σ) := by
  intro buf offset x next h
  unfold Cursor.index at h
  split at h
  next hget =>
    obtain ⟨hstands, -⟩ := List.getElem?_eq_some_iff.mp hget
    exact ⟨(Nat.lt_succ_self offset).trans_eq (Prod.mk.inj (Except.ok.inj h)).2, hstands⟩
  next => simp at h

theorem exactly (e : ε) {n : Nat} (hn : 0 < n) :
    Consumes (Cursor.exactly e n : Cursor σ ε (List σ)) := by
  intro buf offset xs next h
  unfold Cursor.exactly at h
  split at h
  next hfits =>
    have hnext := (Prod.mk.inj (Except.ok.inj h)).2
    omega
  next => simp at h

end Consumes

namespace Moves

theorem pure (a : α) : Moves 0 (Pure.pure a : Cursor σ ε α) := by
  intro buf offset a' next h
  exact (Prod.mk.inj (Except.ok.inj h)).2.symm

theorem bind {m n : Nat} {r : Cursor σ ε α} {k : α → Cursor σ ε β} (hr : Moves m r)
    (hk : ∀ a, Moves n (k a)) : Moves (m + n) (r >>= k) := by
  intro buf offset b next h
  obtain ⟨a, mid, hrun, hrest⟩ := bind_eq_ok h
  rw [hk a buf mid b next hrest, hr buf offset a mid hrun, Nat.add_assoc]

/-- What does not move may follow. -/
theorem check {n : Nat} {r : Cursor σ ε α} {k : α → Cursor σ ε β} (hr : Moves n r)
    (hk : ∀ a, Moves 0 (k a)) : Moves n (r >>= k) := bind hr hk

theorem fail (e : ε) (n : Nat) : Moves n (Cursor.fail e : Cursor σ ε α) := by
  intro buf offset a next h
  simp [Cursor.fail] at h

theorem liftExcept (r : Except ε α) : Moves 0 (Cursor.liftExcept r : Cursor σ ε α) := by
  intro buf offset a next h
  unfold Cursor.liftExcept at h
  split at h
  next => exact (Prod.mk.inj (Except.ok.inj h)).2.symm
  next => simp at h

theorem exactly (e : ε) (n : Nat) : Moves n (Cursor.exactly e n : Cursor σ ε (List σ)) := by
  intro buf offset xs next h
  unfold Cursor.exactly at h
  split at h
  next => exact (Prod.mk.inj (Except.ok.inj h)).2.symm
  next => simp at h

theorem slice (n : Nat) : Moves n (Cursor.slice n : Cursor σ ε (List σ)) := by
  intro buf offset xs next h
  exact (Prod.mk.inj (Except.ok.inj h)).2.symm

end Moves

namespace Unstuck

variable {stuck : ε} {n : Nat}

theorem of_raises {r : Cursor σ ε α} (h : r.Raises (· ≠ stuck)) : Unstuck stuck n r :=
  fun buf offset _ hrun => h buf offset stuck hrun rfl

theorem bind {r : Cursor σ ε α} {k : α → Cursor σ ε β} (hr : Unstuck stuck n r)
    (hadvances : Advances r) (hk : ∀ a, Unstuck stuck n (k a)) : Unstuck stuck n (r >>= k) := by
  intro buf offset hfuel h
  simp only [Bind.bind, Cursor.bind] at h
  split at h
  next a mid hrun =>
    have hle := hadvances buf offset a mid hrun
    exact hk a buf mid (by omega) h
  next e hrun => exact hr buf offset hfuel (hrun.trans (congrArg _ (Except.error.inj h)))

/-- What comes after a cursor that consumes has an element less before it. -/
theorem bind_consumes {r : Cursor σ ε α} {k : α → Cursor σ ε β} (hr : Unstuck stuck n r)
    (hconsumes : Consumes r) (hk : ∀ m, m + 1 = n → ∀ a, Unstuck stuck m (k a)) :
    Unstuck stuck n (r >>= k) := by
  intro buf offset hfuel h
  simp only [Bind.bind, Cursor.bind] at h
  split at h
  next a mid hrun =>
    obtain ⟨hlt, hstands⟩ := hconsumes buf offset a mid hrun
    exact hk (n - 1) (by omega) a buf mid (by omega) h
  next e hrun => exact hr buf offset hfuel (hrun.trans (congrArg _ (Except.error.inj h)))

/-- Rounds that consume end before the fuel does. -/
theorem within {body : α → Cursor σ ε α} (hbody : ∀ acc, Unstuck stuck n (body acc))
    (hconsumes : ∀ acc, Consumes (body acc)) (length : Nat) (init : α) :
    Unstuck stuck n (Cursor.within stuck length body init) := by
  have hloop : ∀ limit fuel acc buf offset, 0 < fuel → buf.length < offset + fuel →
      buf.length ≤ offset + n →
      Cursor.whileBelow stuck limit body fuel acc buf offset ≠ .error stuck := by
    intro limit fuel
    induction fuel with
    | zero => exact fun acc buf offset hpos => absurd hpos (Nat.lt_irrefl 0)
    | succ fuel ih =>
        intro acc buf offset _ hrounds hfuel h
        simp only [whileBelow] at h
        split at h
        · simp only [Cursor.bind] at h
          split at h
          next acc' mid hrun =>
            obtain ⟨hlt, hstands⟩ := hconsumes acc buf offset acc' mid hrun
            exact ih acc' buf mid (by omega) (by omega) (by omega) h
          next e hrun => exact hbody acc buf offset hfuel (hrun.trans (congrArg _ (Except.error.inj h)))
        · simp at h
  intro buf offset hfuel
  exact hloop _ _ _ buf offset (by omega) (by omega) hfuel

end Unstuck

end Cursor

/-- A cursor that notes events of type `ν`. -/
def Traced (ν σ ε α : Type) := List σ → Nat → List ν × Except ε (α × Nat)

namespace Traced

variable {ν σ ε α β : Type}

protected def pure (a : α) : Traced ν σ ε α := fun _ offset => ([], .ok (a, offset))

protected def bind (r : Traced ν σ ε α) (k : α → Traced ν σ ε β) : Traced ν σ ε β :=
  fun buf offset =>
    match r buf offset with
    | (events, .ok (a, next)) =>
        let (more, out) := k a buf next
        (events ++ more, out)
    | (events, .error e) => (events, .error e)

instance : Monad (Traced ν σ ε) where
  pure := Traced.pure
  bind := Traced.bind

/-- A cursor that notes nothing. -/
def lift (r : Cursor σ ε α) : Traced ν σ ε α := fun buf offset => ([], r buf offset)

/-- `r`, with what is noted before it, and what is noted once it has returned. -/
def noting (enter : Nat → List ν) (leave : Nat → α → Nat → List ν) (r : Traced ν σ ε α) :
    Traced ν σ ε α := fun buf offset =>
  match r buf offset with
  | (events, .ok (a, next)) => (enter offset ++ events ++ leave offset a next, .ok (a, next))
  | (events, .error e) => (enter offset ++ events, .error e)

def whileBelow (stuck : ε) (limit : Nat) (body : α → Traced ν σ ε α) :
    Nat → α → Traced ν σ ε α
  | 0, _ => lift (Cursor.fail stuck)
  | fuel + 1, acc => fun buf offset =>
      if offset < limit then
        Traced.bind (body acc) (whileBelow stuck limit body fuel) buf offset
      else ([], .ok (acc, offset))

def within (stuck : ε) (length : Nat) (body : α → Traced ν σ ε α) (init : α) :
    Traced ν σ ε α := fun buf offset =>
  whileBelow stuck (offset + length) body (buf.length + 1) init buf offset

/-- The cursor without its notes. -/
def erase (r : Traced ν σ ε α) : Cursor σ ε α := fun buf offset => (r buf offset).2

theorem erase_pure (a : α) : erase (Pure.pure a : Traced ν σ ε α) = Pure.pure a := rfl

theorem erase_bind (r : Traced ν σ ε α) (k : α → Traced ν σ ε β) :
    erase (r >>= k) = erase r >>= fun a => erase (k a) := by
  funext buf offset
  simp only [erase, Bind.bind, Traced.bind, Cursor.bind]
  rcases r buf offset with ⟨events, e | ⟨a, next⟩⟩
  · rfl
  · rfl

theorem erase_lift (r : Cursor σ ε α) : erase (lift r : Traced ν σ ε α) = r := rfl

theorem erase_noting (enter : Nat → List ν) (leave : Nat → α → Nat → List ν)
    (r : Traced ν σ ε α) : erase (noting enter leave r) = erase r := by
  funext buf offset
  simp only [erase, noting]
  rcases r buf offset with ⟨events, e | ⟨a, next⟩⟩
  · rfl
  · rfl

theorem erase_within (stuck : ε) (length : Nat) (body : α → Traced ν σ ε α) (init : α) :
    erase (within stuck length body init) =
      Cursor.within stuck length (fun acc => erase (body acc)) init := by
  have hloop : ∀ limit fuel acc, erase (whileBelow stuck limit body fuel acc) =
      Cursor.whileBelow stuck limit (fun acc => erase (body acc)) fuel acc := by
    intro limit fuel
    induction fuel with
    | zero => exact fun acc => rfl
    | succ fuel ih =>
        intro acc
        funext buf offset
        have hround := congrFun (congrFun
          (erase_bind (body acc) (whileBelow stuck limit body fuel)) buf) offset
        simp only [ih] at hround
        simp only [erase, whileBelow, Cursor.whileBelow]
        split
        · exact hround
        · rfl
  funext buf offset
  exact congrFun (congrFun (hloop _ _ init) buf) offset

/-! Runs that return -/

theorem bind_eq_ok {r : Traced ν σ ε α} {k : α → Traced ν σ ε β} {buf : List σ}
    {offset next : Nat} {events : List ν} {b : β}
    (h : (r >>= k) buf offset = (events, .ok (b, next))) :
    ∃ a mid first second, r buf offset = (first, .ok (a, mid)) ∧
      k a buf mid = (second, .ok (b, next)) ∧ events = first ++ second := by
  simp only [Bind.bind, Traced.bind] at h
  split at h
  next first a mid hrun =>
    obtain ⟨hevents, hout⟩ := Prod.mk.inj h
    exact ⟨a, mid, first, _, hrun, Prod.ext rfl hout, hevents.symm⟩
  next => simp at h

theorem noting_eq_ok {enter : Nat → List ν} {leave : Nat → α → Nat → List ν}
    {r : Traced ν σ ε α} {buf : List σ} {offset next : Nat} {events : List ν} {a : α}
    (h : noting enter leave r buf offset = (events, .ok (a, next))) :
    ∃ inner, r buf offset = (inner, .ok (a, next)) ∧
      events = enter offset ++ inner ++ leave offset a next := by
  simp only [noting] at h
  split at h
  next inner a' next' hrun =>
    obtain ⟨hevents, hout⟩ := Prod.mk.inj h
    obtain ⟨rfl, rfl⟩ := Prod.mk.inj (Except.ok.inj hout)
    exact ⟨inner, hrun, hevents.symm⟩
  next => simp at h

/-! What the events of every run are like -/

/-- `Q` holds of no events, and of events one behind the other. -/
structure Gathers (Q : List ν → Prop) : Prop where
  nil : Q []
  append {xs ys : List ν} : Q xs → Q ys → Q (xs ++ ys)

theorem Gathers.all (P : ν → Prop) : Gathers fun events => ∀ event ∈ events, P event where
  nil := fun _ hevent => absurd hevent List.not_mem_nil
  append := fun hxs hys event hevent =>
    (List.mem_append.mp hevent).elim (hxs event) (hys event)

/-- `Q` holds of the events of every run over `buf`. -/
def Notes (buf : List σ) (Q : List ν → Prop) (r : Traced ν σ ε α) : Prop :=
  ∀ offset, Q (r buf offset).1

namespace Notes

variable {buf : List σ} {Q : List ν → Prop}

theorem lift (hQ : Gathers Q) (r : Cursor σ ε α) : Notes buf Q (Traced.lift r) :=
  fun _ => hQ.nil

theorem bind (hQ : Gathers Q) {r : Traced ν σ ε α} {k : α → Traced ν σ ε β}
    (hr : Notes buf Q r) (hk : ∀ a, Notes buf Q (k a)) : Notes buf Q (r >>= k) := by
  intro offset
  have hfirst := hr offset
  simp only [Bind.bind, Traced.bind]
  rcases hrun : r buf offset with ⟨events, e | ⟨a, next⟩⟩
  · simpa only [hrun] using hfirst
  · rw [hrun] at hfirst
    exact hQ.append hfirst (hk a next)

/-- A cursor that goes on without notes. -/
theorem bind_pure (hQ : Gathers Q) {r : Traced ν σ ε α} (hr : Notes buf Q r) (f : α → β) :
    Notes buf Q (r >>= fun a => Pure.pure (f a)) :=
  bind hQ hr fun _ _ => hQ.nil

/-- Notes before `r` and when it has returned, where it starts. -/
theorem noting_at (hQ : Gathers Q) {r : Traced ν σ ε α} {enter : Nat → List ν}
    {leave : Nat → α → Nat → List ν} {offset : Nat} (hr : Q (r buf offset).1)
    (henter : Q (enter offset))
    (hleave : ∀ a next, erase r buf offset = .ok (a, next) → Q (leave offset a next)) :
    Q (Traced.noting enter leave r buf offset).1 := by
  simp only [Traced.noting, erase] at hleave ⊢
  rcases hrun : r buf offset with ⟨events, e | ⟨a, next⟩⟩
  · rw [hrun] at hr
    exact hQ.append henter hr
  · rw [hrun] at hr hleave
    exact hQ.append (hQ.append henter hr) (hleave a next rfl)

theorem noting (hQ : Gathers Q) {r : Traced ν σ ε α} {enter : Nat → List ν}
    {leave : Nat → α → Nat → List ν} (hr : Notes buf Q r) (henter : ∀ offset, Q (enter offset))
    (hleave : ∀ offset a next, erase r buf offset = .ok (a, next) → Q (leave offset a next)) :
    Notes buf Q (Traced.noting enter leave r) :=
  fun offset => noting_at hQ (hr offset) (henter offset) (hleave offset)

theorem within (hQ : Gathers Q) {stuck : ε} {body : α → Traced ν σ ε α}
    (hbody : ∀ acc, Notes buf Q (body acc)) (length : Nat) (init : α) :
    Notes buf Q (Traced.within stuck length body init) := by
  have hloop : ∀ limit fuel acc, Notes buf Q (whileBelow stuck limit body fuel acc) := by
    intro limit fuel
    induction fuel with
    | zero => exact fun acc => lift hQ _
    | succ fuel ih =>
        intro acc offset
        simp only [whileBelow]
        split
        · exact bind hQ (hbody acc) ih offset
        · exact hQ.nil
  exact fun offset => hloop _ _ _ offset

end Notes

/-! How many events a run has -/

/-- Events that `p` counts take an element of the buffer each, but for one before an error. -/
def Spends (p : ν → Bool) (r : Traced ν σ ε α) : Prop :=
  ∀ buf offset,
    (∀ events a next, r buf offset = (events, .ok (a, next)) →
      offset ≤ next ∧ events.countP p + (buf.length - next) ≤ buf.length - offset) ∧
    ∀ events e, r buf offset = (events, .error e) → events.countP p ≤ buf.length - offset + 1

namespace Spends

variable {p : ν → Bool}

theorem lift {r : Cursor σ ε α} (hr : r.Advances) : Spends p (Traced.lift r) := by
  refine fun buf offset => ⟨fun events a next h => ?_, fun events e h => ?_⟩
  · obtain ⟨rfl, hout⟩ := Prod.mk.inj h
    have hle := hr buf offset a next hout
    simp only [List.countP_nil]
    omega
  · obtain ⟨rfl, -⟩ := Prod.mk.inj h
    exact Nat.zero_le _

theorem bind {r : Traced ν σ ε α} {k : α → Traced ν σ ε β} (hr : Spends p r)
    (hk : ∀ a, Spends p (k a)) : Spends p (r >>= k) := by
  refine fun buf offset => ⟨fun events b next h => ?_, fun events e h => ?_⟩
  · obtain ⟨a, mid, first, second, hrun, hrest, rfl⟩ := bind_eq_ok h
    obtain ⟨hle, hcount⟩ := (hr buf offset).1 _ _ _ hrun
    obtain ⟨hle', hcount'⟩ := (hk a buf mid).1 _ _ _ hrest
    rw [List.countP_append]
    omega
  · simp only [Bind.bind, Traced.bind] at h
    split at h
    next first a mid hrun =>
      obtain ⟨rfl, hout⟩ := Prod.mk.inj h
      have hcount := ((hr buf offset).1 _ _ _ hrun).2
      have hcount' := (hk a buf mid).2 (k a buf mid).1 e (Prod.ext rfl hout)
      rw [List.countP_append]
      exact (Nat.add_le_add_left hcount' _).trans (by omega)
    next first e' hrun =>
      obtain ⟨rfl, -⟩ := Prod.mk.inj h
      exact (hr buf offset).2 _ _ hrun

theorem bind_pure {r : Traced ν σ ε α} (hr : Spends p r) (f : α → β) :
    Spends p (r >>= fun a => Pure.pure (f a)) :=
  bind hr fun a => lift (Cursor.Advances.pure (f a))

/-- Notes that `p` does not count. -/
theorem leaving {r : Traced ν σ ε α} (hr : Spends p r) {leave : Nat → α → Nat → List ν}
    (hleave : ∀ offset a next, (leave offset a next).countP p = 0) :
    Spends p (noting (fun _ => []) leave r) := by
  refine fun buf offset => ⟨fun events a next h => ?_, fun events e h => ?_⟩
  · obtain ⟨inner, hrun, rfl⟩ := noting_eq_ok h
    simpa [List.countP_append, hleave] using (hr buf offset).1 _ _ _ hrun
  · simp only [noting] at h
    split at h
    next => simp at h
    next inner e' hrun =>
      obtain ⟨rfl, -⟩ := Prod.mk.inj h
      exact (hr buf offset).2 _ _ hrun

/-- A note before an element that is read. -/
theorem entering {e : ε} {k : σ → Traced ν σ ε α} (hk : ∀ x, Spends p (k x))
    {enter : Nat → List ν} {leave : Nat → α → Nat → List ν}
    (henter : ∀ offset, (enter offset).countP p ≤ 1)
    (hleave : ∀ offset a next, (leave offset a next).countP p = 0) :
    Spends p (noting enter leave (Traced.lift (Cursor.index e) >>= k)) := by
  refine fun buf offset => ⟨fun events a next h => ?_, fun events e' h => ?_⟩
  · obtain ⟨inner, hrun, rfl⟩ := noting_eq_ok h
    obtain ⟨x, mid, first, second, hindex, hrest, rfl⟩ := bind_eq_ok hrun
    obtain ⟨rfl, hout⟩ := Prod.mk.inj hindex
    obtain ⟨hlt, hstands⟩ := Cursor.Consumes.index e buf offset x mid hout
    obtain ⟨hle, hcount⟩ := (hk x buf mid).1 _ _ _ hrest
    have hone := henter offset
    simp only [List.countP_append, List.countP_nil, hleave]
    omega
  · have hone := henter offset
    simp only [noting] at h
    split at h
    next => simp at h
    next inner raised hrun =>
      obtain ⟨rfl, -⟩ := Prod.mk.inj h
      have hinner : inner.countP p ≤ buf.length - offset := by
        simp only [Bind.bind, Traced.bind] at hrun
        split at hrun
        next first x mid hindex =>
          obtain ⟨rfl, hout⟩ := Prod.mk.inj hrun
          obtain ⟨rfl, hread⟩ := Prod.mk.inj hindex
          obtain ⟨hlt, hstands⟩ := Cursor.Consumes.index e buf offset x mid hread
          have hcount := (hk x buf mid).2 (k x buf mid).1 raised (Prod.ext rfl hout)
          rw [List.nil_append]
          exact hcount.trans (by omega)
        next first raised' hindex =>
          obtain ⟨rfl, -⟩ := Prod.mk.inj hrun
          obtain ⟨rfl, -⟩ := Prod.mk.inj hindex
          exact Nat.zero_le _
      rw [List.countP_append]
      omega

theorem within {stuck : ε} {body : α → Traced ν σ ε α} (hbody : ∀ acc, Spends p (body acc))
    (length : Nat) (init : α) : Spends p (Traced.within stuck length body init) := by
  have hloop : ∀ limit fuel acc, Spends p (whileBelow stuck limit body fuel acc) := by
    intro limit fuel
    induction fuel with
    | zero => exact fun acc => lift (.fail stuck)
    | succ fuel ih =>
        intro acc buf offset
        simp only [whileBelow]
        split
        · exact bind (hbody acc) ih buf offset
        · exact lift (.pure acc) buf offset
  exact fun buf offset => hloop _ _ _ buf offset

/-- At most one event stays without an element of its own. -/
theorem count_le {r : Traced ν σ ε α} (hr : Spends p r) (buf : List σ) (offset : Nat) :
    (r buf offset).1.countP p ≤ buf.length - offset + 1 := by
  rcases hrun : r buf offset with ⟨events, e | ⟨a, next⟩⟩
  · exact (hr buf offset).2 _ _ hrun
  · have hcount := ((hr buf offset).1 _ _ _ hrun).2
    dsimp only
    omega

end Spends

end Traced
