import PyAmqp.Serialization.BitAlignment
import PyAmqp.Serialization.Trace

/-!
Where fields end. A slice is cut short at the end of the buffer, and the loop over a table or
an array ends at the first entry that ends at or past its limit. So the decoder accepts octets
whose fields reach past the end of what they stand in, and no others that are ill-delimited.
-/

namespace PyAmqp

/-- How the end of a field is found. -/
inductive Layout where
  /-- Octets of a fixed number. -/
  | fixed (width : Nat)
  /-- Octets behind their length of `width` octets. -/
  | sized (width : Nat)
  /-- Entries of a table or elements of an array, behind the octets they take. -/
  | container (keyed : Bool)

/-- The layout behind a type code of `_read_item`. -/
def itemLayout (code : Char) : Option Layout :=
  match code with
  | 'V' => some (.fixed 0)
  | 'b' | 'B' | 't' => some (.fixed 1)
  | 'U' | 'u' => some (.fixed 2)
  | 'I' | 'i' | 'f' => some (.fixed 4)
  | 'D' => some (.fixed 5)
  | 'L' | 'l' | 'd' | 'T' => some (.fixed 8)
  | 's' => some (.sized 1)
  | 'S' | 'x' => some (.sized 4)
  | 'F' => some (.container true)
  | 'A' => some (.container false)
  | _ => none

/-- The layout for a letter of a format, with so many bits left of the current octet. -/
def letterLayout (left : Nat) (p : Char) : Option Layout :=
  match p with
  | 'b' => some (.fixed (if left = 0 then 1 else 0))
  | 'o' => some (.fixed 1)
  | 'B' => some (.fixed 2)
  | 'l' | 'f' => some (.fixed 4)
  | 'L' | 'T' => some (.fixed 8)
  | 's' => some (.sized 1)
  | 'S' | 'x' => some (.sized 4)
  | 'F' => some (.container true)
  | 'A' => some (.container false)
  | _ => none

/-- The octets at the offset are the big-endian number `n`. -/
def Declares (buf : Octets) (offset width n : Nat) : Prop :=
  offset + width ≤ buf.length ∧ BigEndian.decode ((buf.drop offset).take width) = n

/-- A value with its type code, what stands behind the code, and the rounds over a table
(with keys) or an array. -/
inductive Part where
  | item
  | field (layout : Layout)
  | round (keyed : Bool)
  | rounds (keyed : Bool)

/-- From the first offset to the second stands the part, and neither it nor a field in it
reaches past the end of what it stands in: `limit` is the end of the innermost table or array
around it. -/
inductive Inside (buf : Octets) : Part → (limit offset stop : Nat) → Prop
  | item {limit offset stop : Nat} {octet : UInt8} {layout : Layout} :
      buf[offset]? = some octet → itemLayout (Char.ofNat octet.toNat) = some layout →
      Inside buf (.field layout) limit (offset + 1) stop → Inside buf .item limit offset stop
  | fixed {width limit offset : Nat} :
      offset + width ≤ limit → Inside buf (.field (.fixed width)) limit offset (offset + width)
  | sized {width limit offset n : Nat} :
      Declares buf offset width n → offset + width + n ≤ limit →
      Inside buf (.field (.sized width)) limit offset (offset + width + n)
  | container {keyed : Bool} {limit offset n : Nat} :
      Declares buf offset 4 n → offset + 4 + n ≤ limit →
      Inside buf (.rounds keyed) (offset + 4 + n) (offset + 4) (offset + 4 + n) →
      Inside buf (.field (.container keyed)) limit offset (offset + 4 + n)
  | element {limit offset stop : Nat} :
      Inside buf .item limit offset stop → Inside buf (.round false) limit offset stop
  | entry {limit offset stop n : Nat} :
      Declares buf offset 1 n → offset + 1 + n ≤ limit →
      Inside buf .item limit (offset + 1 + n) stop → Inside buf (.round true) limit offset stop
  | done {keyed : Bool} {limit : Nat} : Inside buf (.rounds keyed) limit limit limit
  | more {keyed : Bool} {limit offset mid : Nat} :
      offset < limit → Inside buf (.round keyed) limit offset mid →
      Inside buf (.rounds keyed) limit mid limit → Inside buf (.rounds keyed) limit offset limit

/-- The fields of a format stand inside the buffer one behind the other. -/
def FieldsInside (buf : Octets) : List Char → (left offset stop : Nat) → Prop
  | [], _, offset, stop => stop = offset ∧ offset ≤ buf.length
  | p :: format, left, offset, stop =>
      ∃ layout mid, letterLayout left p = some layout ∧
        Inside buf (.field layout) buf.length offset mid ∧
        FieldsInside buf format (leftOver left [p]) mid stop

/-- A slice has its declared length, and a loop ends at its limit. -/
def Mark.Delimited (buf : Octets) : Mark → Prop
  | .slice offset length => offset + length ≤ buf.length
  | .ended limit offset => offset = limit
  | _ => True

/-- The marks of a run over well-delimited octets. -/
def AllDelimited (buf : Octets) (marks : List Mark) : Prop :=
  ∀ mark ∈ marks, mark.Delimited buf

theorem allDelimited_append {buf : Octets} {marks marks' : List Mark} :
    AllDelimited buf (marks ++ marks') ↔ AllDelimited buf marks ∧ AllDelimited buf marks' :=
  List.forall_mem_append

/-- Where `r` returns, it has read the part: inside the limit if the trace is well delimited and
its end is inside, and with a well-delimited trace if the part is. -/
def Follows {α : Type} (part : Part) (r : Tracer α) : Prop :=
  ∀ buf offset marks a next, r buf offset = (marks, .ok (a, next)) →
    offset ≤ next ∧
    (∀ limit, AllDelimited buf marks → next ≤ limit → Inside buf part limit offset next) ∧
    ∀ limit stop, limit ≤ buf.length → Inside buf part limit offset stop →
      stop = next ∧ AllDelimited buf marks

/-- Where `r` returns it notes nothing and is `width` octets further. -/
def Steps {α : Type} (width : Nat) (r : Tracer α) : Prop :=
  ∀ buf offset marks a next, r buf offset = (marks, .ok (a, next)) →
    next = offset + width ∧ marks = []

section Fields

open Traced

variable {α β : Type} {buf : Octets} {offset next width width' n : Nat}

theorem unpackFrom_eq_ok (h : unpackFrom width buf offset = .ok (n, next)) :
    Declares buf offset width n ∧ next = offset + width := by
  obtain ⟨octets, mid, hrun, hpure⟩ := Cursor.bind_eq_ok h
  obtain ⟨rfl, rfl⟩ := Prod.mk.inj (Except.ok.inj hpure)
  unfold Cursor.exactly at hrun
  split at hrun
  next hfits =>
    obtain ⟨rfl, rfl⟩ := Prod.mk.inj (Except.ok.inj hrun)
    exact ⟨⟨hfits, rfl⟩, rfl⟩
  next => simp at hrun

theorem Steps.pure (a : α) : Steps 0 (Pure.pure a : Tracer α) := by
  intro buf offset marks a' next h
  obtain ⟨hmarks, hout⟩ := Prod.mk.inj h
  exact ⟨(Prod.mk.inj (Except.ok.inj hout)).2.symm, hmarks.symm⟩

theorem Steps.lift {r : Reader α} (h : Cursor.Moves width r) :
    Steps width (Traced.lift r : Tracer α) := by
  intro buf offset marks a next hrun
  obtain ⟨hmarks, hout⟩ := Prod.mk.inj hrun
  exact ⟨h buf offset a next hout, hmarks.symm⟩

theorem Follows.fixed {r : Tracer α} (h : Steps width r) : Follows (.field (.fixed width)) r := by
  intro buf offset marks a next hrun
  obtain ⟨rfl, rfl⟩ := h buf offset marks a next hrun
  refine ⟨Nat.le_add_right .., fun limit _ hle => .fixed hle, fun limit stop _ hinside => ?_⟩
  cases hinside
  exact ⟨rfl, fun mark hmark => absurd hmark List.not_mem_nil⟩

/-- What notes nothing and does not move may follow. -/
theorem Follows.bind {part : Part} {r : Tracer α} {k : α → Tracer β} (hr : Follows part r)
    (hk : ∀ a, Steps 0 (k a)) : Follows part (r >>= k) := by
  intro buf offset marks b next h
  obtain ⟨a, mid, first, second, hrun, hrest, rfl⟩ := Traced.bind_eq_ok h
  obtain ⟨rfl, rfl⟩ := hk a buf mid second b next hrest
  rw [List.append_nil]
  exact hr buf offset first a _ hrun

theorem Follows.map {part : Part} {r : Tracer α} (hr : Follows part r) (f : α → β) :
    Follows part (r >>= fun a => Pure.pure (f a)) :=
  hr.bind fun a => .pure (f a)

theorem tracedSized_follows (width : Nat) :
    Follows (.field (.sized width)) (tracedSized width) := by
  intro buf offset marks octets next h
  obtain ⟨n, mid, first, second, hsize, hslice, rfl⟩ := Traced.bind_eq_ok h
  obtain ⟨rfl, hunpack⟩ := Prod.mk.inj hsize
  obtain ⟨hdeclares, rfl⟩ := unpackFrom_eq_ok hunpack
  obtain ⟨inner, hrun, rfl⟩ := Traced.noting_eq_ok hslice
  obtain ⟨rfl, hout⟩ := Prod.mk.inj hrun
  obtain ⟨-, rfl⟩ := Prod.mk.inj (Except.ok.inj hout)
  refine ⟨by omega, fun limit _ hle => .sized hdeclares hle, fun limit stop hlimit hinside => ?_⟩
  cases hinside with
  | sized hdeclares' hle =>
      obtain rfl := hdeclares.2.symm.trans hdeclares'.2
      refine ⟨rfl, fun mark hmark => ?_⟩
      obtain rfl := List.mem_singleton.mp hmark
      exact hle.trans hlimit

theorem tracedText_follows (width : Nat) :
    Follows (.field (.sized width)) (tracedText width) :=
  (tracedSized_follows width).bind fun octets => .lift (.liftExcept (bytesToStr octets))

/-- The rounds over a table or an array. -/
theorem whileBelow_follows {keyed : Bool} {body : α → Tracer α}
    (hbody : ∀ acc, Follows (.round keyed) (body acc)) (limit fuel : Nat) (acc : α)
    (buf : Octets) (offset : Nat) (marks : List Mark) (a : α) (next : Nat)
    (h : whileBelow .outOfFuel limit (fun acc => noting (fun _ => [])
      (fun offset _ next => [Mark.round offset next]) (body acc)) fuel acc buf offset =
        (marks, .ok (a, next))) :
    offset ≤ next ∧
      (AllDelimited buf marks → next = limit → Inside buf (.rounds keyed) limit offset limit) ∧
      (limit ≤ buf.length → Inside buf (.rounds keyed) limit offset limit →
        next = limit ∧ AllDelimited buf marks) := by
  induction fuel generalizing acc offset marks with
  | zero => simp [whileBelow, Traced.lift, Cursor.fail] at h
  | succ fuel ih =>
      simp only [whileBelow] at h
      split at h
      next hbelow =>
        obtain ⟨acc', mid, first, second, hround, hrest, rfl⟩ := Traced.bind_eq_ok h
        obtain ⟨inner, hrun, rfl⟩ := Traced.noting_eq_ok hround
        obtain ⟨hfirst, hinside, hclean⟩ := hbody acc buf offset inner acc' mid hrun
        obtain ⟨hsecond, hinside', hclean'⟩ := ih acc' mid second hrest
        have hmarks : AllDelimited buf ([] ++ inner ++ [Mark.round offset mid] ++ second) ↔
            AllDelimited buf inner ∧ AllDelimited buf second := by
          simp [AllDelimited, Mark.Delimited, or_imp, forall_and]
        rw [hmarks]
        refine ⟨hfirst.trans hsecond, ?_, fun hlimit hrounds => ?_⟩
        · rintro ⟨hinner, hlast⟩ hlimit
          exact .more hbelow (hinside limit hinner (hlimit ▸ hsecond)) (hinside' hlast hlimit)
        · cases hrounds with
          | done => exact absurd hbelow (Nat.lt_irrefl _)
          | more _ hround' hrounds' =>
              obtain ⟨rfl, hinner⟩ := hclean limit _ hlimit hround'
              obtain ⟨hend, hlast⟩ := hclean' hlimit hrounds'
              exact ⟨hend, hinner, hlast⟩
      next hbelow =>
        obtain ⟨rfl, hout⟩ := Prod.mk.inj h
        obtain ⟨-, rfl⟩ := Prod.mk.inj (Except.ok.inj hout)
        refine ⟨Nat.le_refl _, fun _ hlimit => hlimit ▸ .done, fun _ hrounds => ?_⟩
        cases hrounds with
        | done => exact ⟨rfl, fun mark hmark => absurd hmark List.not_mem_nil⟩
        | more hlt => exact absurd hlt hbelow

theorem tracedLoop_follows {keyed : Bool} {body : α → Tracer α}
    (hbody : ∀ acc, Follows (.round keyed) (body acc)) (init : α) :
    Follows (.field (.container keyed)) (tracedLoop body init) := by
  intro buf offset marks a next h
  obtain ⟨n, mid, first, second, hsize, hloop, rfl⟩ := Traced.bind_eq_ok h
  obtain ⟨rfl, hunpack⟩ := Prod.mk.inj hsize
  obtain ⟨hdeclares, rfl⟩ := unpackFrom_eq_ok hunpack
  obtain ⟨inner, hrun, rfl⟩ := Traced.noting_eq_ok hloop
  obtain ⟨hle, hinside, hclean⟩ :=
    whileBelow_follows hbody _ _ init buf (offset + 4) inner a next hrun
  have hmarks : AllDelimited buf ([] ++ ([] ++ inner ++ [Mark.ended (offset + 4 + n) next])) ↔
      AllDelimited buf inner ∧ next = offset + 4 + n := by
    simp [AllDelimited, Mark.Delimited, or_imp, forall_and]
  rw [hmarks]
  refine ⟨by omega, ?_, fun limit stop hlimit hstands => ?_⟩
  · rintro limit ⟨hinner, rfl⟩ hend
    exact .container hdeclares hend (hinside hinner rfl)
  · cases hstands with
    | container hdeclares' hend hrounds =>
        obtain rfl := hdeclares.2.symm.trans hdeclares'.2
        obtain ⟨hnext, hinner⟩ := hclean (hend.trans hlimit) hrounds
        exact ⟨hnext.symm, hinner, hnext⟩

variable {item : Tracer Value}

theorem tracedEntry_follows (hitem : Follows .item item) (table : List (PyStr × Value)) :
    Follows (.round true) (tracedEntry item table) := by
  intro buf offset marks a next h
  obtain ⟨key, mid, first, rest, hkey, hrest, rfl⟩ := Traced.bind_eq_ok h
  obtain ⟨value, last, second, third, hvalue, hpure, rfl⟩ := Traced.bind_eq_ok hrest
  obtain ⟨rfl, hout⟩ := Prod.mk.inj hpure
  obtain ⟨-, rfl⟩ := Prod.mk.inj (Except.ok.inj hout)
  obtain ⟨hfirst, hkeyIn, hkeyClean⟩ := tracedText_follows 1 buf offset first key mid hkey
  obtain ⟨hsecond, hvalueIn, hvalueClean⟩ := hitem buf mid second value last hvalue
  rw [List.append_nil, allDelimited_append]
  refine ⟨hfirst.trans hsecond, fun limit hmarks hend => ?_, fun limit stop hlimit hstands => ?_⟩
  · cases hkeyIn limit hmarks.1 (hsecond.trans hend) with
    | sized hdeclares hle => exact .entry hdeclares hle (hvalueIn limit hmarks.2 hend)
  · cases hstands with
    | entry hdeclares hle hstands' =>
        obtain ⟨rfl, hclean⟩ := hkeyClean limit _ hlimit (.sized hdeclares hle)
        obtain ⟨rfl, hclean'⟩ := hvalueClean limit stop hlimit hstands'
        exact ⟨rfl, hclean, hclean'⟩

theorem tracedElement_follows (hitem : Follows .item item) (values : List Value) :
    Follows (.round false) (tracedElement item values) := by
  intro buf offset marks a next h
  obtain ⟨hle, hinside, hclean⟩ := (hitem.map fun value => values ++ [value]) buf offset marks
    a next h
  refine ⟨hle, fun limit hmarks hend => .element (hinside limit hmarks hend), ?_⟩
  intro limit stop hlimit hstands
  cases hstands with
  | element hstands' => exact hclean limit stop hlimit hstands'

theorem tracedTable_follows (hitem : Follows .item item) :
    Follows (.field (.container true)) (tracedTable item) :=
  tracedLoop_follows (tracedEntry_follows hitem) []

theorem tracedArray_follows (hitem : Follows .item item) :
    Follows (.field (.container false)) (tracedArray item) :=
  tracedLoop_follows (tracedElement_follows hitem) []

theorem unpackFrom_moves (width : Nat) : Cursor.Moves width (unpackFrom width) :=
  (Cursor.Moves.exactly _ width).check fun _ => .pure _

theorem unpackSigned_moves (width : Nat) : Cursor.Moves width (unpackSigned width) :=
  (Cursor.Moves.exactly _ width).check fun _ => .pure _

/-- Each type code has a layout, or the field raises. -/
theorem tracedField_follows (hitem : Follows .item item) (ftype : Char) :
    (∃ layout, itemLayout ftype = some layout ∧
      Follows (.field layout) (tracedField item ftype)) ∨
      ∀ buf offset, ∃ e, tracedField item ftype buf offset = ([], .error e) := by
  have hunsigned : ∀ {width : Nat} (f : Nat → Value), Follows (.field (.fixed width))
      (Traced.lift (unpackFrom width >>= fun n => pure (f n)) : Tracer Value) :=
    fun f => .fixed (.lift ((unpackFrom_moves _).check fun _ => .pure _))
  have hsigned : ∀ {width : Nat} (f : Int → Value), Follows (.field (.fixed width))
      (Traced.lift (unpackSigned width >>= fun n => pure (f n)) : Tracer Value) :=
    fun f => .fixed (.lift ((unpackSigned_moves _).check fun _ => .pure _))
  unfold tracedField
  split
  case h_1 => exact Or.inl ⟨_, rfl, (tracedSized_follows 4).map _⟩
  case h_2 => exact Or.inl ⟨_, rfl, (tracedText_follows 1).map _⟩
  case h_3 => exact Or.inl ⟨_, rfl, (tracedSized_follows 4).map _⟩
  case h_4 => exact Or.inl ⟨_, rfl, (tracedTable_follows hitem).map _⟩
  case h_5 => exact Or.inl ⟨_, rfl, (tracedArray_follows hitem).map _⟩
  case h_6 hS hs hx hF hA =>
    unfold readField
    split
    case h_1 => exact absurd rfl hS
    case h_2 => exact absurd rfl hs
    case h_3 => exact absurd rfl hx
    case h_15 => exact absurd rfl hF
    case h_16 => exact absurd rfl hA
    case h_4 | h_7 | h_9 | h_11 | h_12 | h_13 | h_17 => exact Or.inl ⟨_, rfl, hunsigned _⟩
    case h_5 | h_6 | h_8 | h_10 => exact Or.inl ⟨_, rfl, hsigned _⟩
    case h_14 =>
      exact Or.inl ⟨_, rfl, .fixed (.lift ((unpackFrom_moves 1).bind fun _ =>
        (unpackSigned_moves 4).check fun _ => .pure _))⟩
    case h_18 =>
      exact Or.inl ⟨_, rfl, .fixed (.lift ((unpackFrom_moves 8).check fun _ =>
        (Cursor.Moves.liftExcept _).check fun _ => .pure _))⟩
    case h_19 => exact Or.inl ⟨_, rfl, .fixed (.lift (.pure _))⟩
    case h_20 => exact Or.inr fun buf offset => ⟨_, rfl⟩

/-- One value, at any depth. -/
theorem tracedItemWithin_follows (depth : Nat) : Follows .item (tracedItemWithin depth) := by
  induction depth with
  | zero =>
      intro buf offset marks value next h
      simp [tracedItemWithin, Traced.lift, Cursor.fail] at h
  | succ depth ih =>
      intro buf offset marks value next h
      obtain ⟨inner, hrun, rfl⟩ := Traced.noting_eq_ok h
      obtain ⟨octet, mid, first, second, hindex, hfield, rfl⟩ := Traced.bind_eq_ok hrun
      obtain ⟨rfl, hout⟩ := Prod.mk.inj hindex
      have hoctet : buf[offset]? = some octet ∧ mid = offset + 1 := by
        unfold Cursor.index at hout
        split at hout
        next hget =>
          obtain ⟨rfl, rfl⟩ := Prod.mk.inj (Except.ok.inj hout)
          exact ⟨hget, rfl⟩
        next => simp at hout
      obtain ⟨hget, rfl⟩ := hoctet
      obtain ⟨layout, hlayout, hfollows⟩ | hraises :=
        tracedField_follows ih (Char.ofNat octet.toNat)
      · obtain ⟨hle, hinside, hclean⟩ := hfollows buf _ second value next hfield
        have hmarks : AllDelimited buf
            ([Mark.call offset] ++ ([] ++ second) ++ [Mark.item offset value next]) ↔
            AllDelimited buf second := by
          simp [AllDelimited, Mark.Delimited, or_imp, forall_and]
        rw [hmarks]
        refine ⟨by omega, fun limit hsecond hend => ?_, fun limit stop hlimit hstands => ?_⟩
        · exact .item hget hlayout (hinside limit hsecond hend)
        · cases hstands with
          | item hget' hlayout' hstands' =>
              obtain rfl := Option.some.inj (hget.symm.trans hget')
              obtain rfl := Option.some.inj (hlayout.symm.trans hlayout')
              exact hclean limit stop hlimit hstands'
      · obtain ⟨e, herror⟩ := hraises buf (offset + 1)
        simp [herror] at hfield

theorem tracedItem_follows : Follows .item tracedItem := fun buf offset marks value next h =>
  tracedItemWithin_follows (buf.length + 1) buf offset marks value next h

/-- Each letter has a layout, or the field raises. -/
theorem tracedStep_follows (p : Char) (b : Bits) :
    (∃ layout, letterLayout b.bitcount p = some layout ∧
      Follows (.field layout) (tracedStep p b)) ∨
      ∀ buf offset, ∃ e, tracedStep p b buf offset = ([], .error e) := by
  have hunsigned : ∀ {width : Nat} (f : Nat → Value × Bits), Follows (.field (.fixed width))
      (Traced.lift (unpackFrom width >>= fun n => pure (f n)) : Tracer (Value × Bits)) :=
    fun f => .fixed (.lift ((unpackFrom_moves _).check fun _ => .pure _))
  unfold tracedStep
  split
  case h_1 => exact Or.inl ⟨_, rfl, (tracedText_follows 1).map _⟩
  case h_2 => exact Or.inl ⟨_, rfl, (tracedText_follows 4).map _⟩
  case h_3 => exact Or.inl ⟨_, rfl, (tracedSized_follows 4).map _⟩
  case h_4 => exact Or.inl ⟨_, rfl, (tracedTable_follows tracedItem_follows).map _⟩
  case h_5 => exact Or.inl ⟨_, rfl, (tracedArray_follows tracedItem_follows).map _⟩
  case h_6 hs hS hx hF hA =>
    unfold loadsStep
    split
    case h_1 =>
      refine Or.inl ⟨_, rfl, .fixed (.lift ?_)⟩
      by_cases hleft : b.bitcount = 0
      · rw [if_pos hleft, if_pos hleft]
        exact (Cursor.Moves.slice 1).check fun _ => (Cursor.Moves.liftExcept _).check fun _ =>
          .pure _
      · rw [if_neg hleft, if_neg hleft]
        exact .pure _
    case h_2 | h_3 | h_4 | h_5 | h_6 => exact Or.inl ⟨_, rfl, hunsigned _⟩
    case h_7 => exact absurd rfl hs
    case h_8 => exact absurd rfl hS
    case h_9 => exact absurd rfl hx
    case h_10 => exact absurd rfl hF
    case h_11 => exact absurd rfl hA
    case h_12 =>
      exact Or.inl ⟨_, rfl, .fixed (.lift ((unpackFrom_moves 8).check fun _ =>
        (Cursor.Moves.liftExcept _).check fun _ => .pure _))⟩
    case h_13 => exact Or.inr fun buf offset => ⟨_, rfl⟩

/-- The fields of a format, with the bits that are left. -/
theorem tracedFields_follows (format : List Char) (b : Bits) {marks : List Mark}
    {values : List Value} (h : tracedFields format b buf offset = (marks, .ok (values, next))) :
    offset ≤ next ∧
      (AllDelimited buf marks → next ≤ buf.length →
        FieldsInside buf format b.bitcount offset next) ∧
      ∀ stop, FieldsInside buf format b.bitcount offset stop →
        next ≤ buf.length ∧ AllDelimited buf marks := by
  induction format generalizing b offset marks values with
  | nil =>
      obtain ⟨rfl, hout⟩ := Prod.mk.inj h
      obtain ⟨-, rfl⟩ := Prod.mk.inj (Except.ok.inj hout)
      refine ⟨Nat.le_refl _, fun _ hend => ⟨rfl, hend⟩, fun stop hstands => ?_⟩
      exact ⟨hstands.2, fun mark hmark => absurd hmark List.not_mem_nil⟩
  | cons p format ih =>
      obtain ⟨⟨value, b'⟩, mid, first, rest, hstep, hrest, rfl⟩ := Traced.bind_eq_ok h
      obtain ⟨values', last, second, third, hfields, hpure, rfl⟩ := Traced.bind_eq_ok hrest
      obtain ⟨rfl, hout⟩ := Prod.mk.inj hpure
      obtain ⟨-, rfl⟩ := Prod.mk.inj (Except.ok.inj hout)
      have hcount : b'.bitcount = leftOver b.bitcount [p] := by
        refine loadsStep_bitcount p b buf offset (value, b') mid ?_
        rw [← erase_step]
        exact congrArg Prod.snd hstep
      obtain ⟨hsecond, hinside', hclean'⟩ := ih b' hfields
      rw [hcount] at hinside' hclean'
      rw [List.append_nil, allDelimited_append]
      obtain ⟨layout, hlayout, hfollows⟩ | hraises := tracedStep_follows p b
      · obtain ⟨hfirst, hinside, hclean⟩ := hfollows buf offset first _ mid hstep
        refine ⟨hfirst.trans hsecond, fun hmarks hend => ?_, fun stop hstands => ?_⟩
        · exact ⟨layout, mid, hlayout, hinside _ hmarks.1 (hsecond.trans hend),
            hinside' hmarks.2 hend⟩
        · obtain ⟨layout', mid', hlayout', hstands', hrest'⟩ := hstands
          obtain rfl := Option.some.inj (hlayout.symm.trans hlayout')
          obtain ⟨rfl, hmarks⟩ := hclean _ _ (Nat.le_refl _) hstands'
          obtain ⟨hend, hmarks'⟩ := hclean' stop hrest'
          exact ⟨hend, hmarks, hmarks'⟩
      · obtain ⟨e, herror⟩ := hraises buf offset
        simp [herror] at hstep

end Fields

/-- What is accepted is well delimited if and only if no field of it reaches past the end of
the table or array it stands in, or of the buffer. -/
theorem loads_delimited_iff {format : List Char} {buf : Octets} {offset stop : Nat}
    {values : List Value} (h : loads format buf offset = .ok (values, stop)) :
    (stop ≤ buf.length ∧ AllDelimited buf (tracedLoads format buf offset).1) ↔
      ∃ last, FieldsInside buf format 0 offset last := by
  have hrun : tracedLoads format buf offset =
      ((tracedLoads format buf offset).1, .ok (values, stop)) := by
    rw [← erase_loads] at h
    exact Prod.ext rfl h
  obtain ⟨-, hinside, hclean⟩ := tracedFields_follows format {} hrun
  constructor
  · exact fun hmarks => ⟨stop, hinside hmarks.2 hmarks.1⟩
  · exact fun ⟨last, hstands⟩ => hclean last hstands

/-- A short string with the octet it declares. -/
theorem loads_delimited_text :
    (2 ≤ [1, 97].length ∧ AllDelimited [1, 97] (tracedLoads ['s'] [1, 97] 0).1) ↔
      ∃ last, FieldsInside [1, 97] ['s'] 0 0 last :=
  @loads_delimited_iff ['s'] [1, 97] 0 2 [.str [97]] rfl

/-- A short string of five octets, of which one stands in the buffer; and a table of two octets
whose only value is read from the octets behind it. -/
theorem shortened_swallowed :
    loads ['s'] [5, 97] 0 = .ok ([.str [97]], 6) ∧
      ¬ (6 ≤ [5, 97].length ∧ AllDelimited [5, 97] (tracedLoads ['s'] [5, 97] 0).1) ∧
      loads ['F', 'o'] [0, 0, 0, 2, 1, 107, 85, 1, 2, 9] 0 =
        .ok ([.dict [([107], .int 258)], .int 9], 10) ∧
      ¬ AllDelimited [0, 0, 0, 2, 1, 107, 85, 1, 2, 9]
        (tracedLoads ['F', 'o'] [0, 0, 0, 2, 1, 107, 85, 1, 2, 9] 0).1 := by
  refine ⟨rfl, fun h => absurd h.1 (by decide), rfl, fun h => ?_⟩
  have hmarks : (tracedLoads ['F', 'o'] [0, 0, 0, 2, 1, 107, 85, 1, 2, 9] 0).1 =
      [.slice 5 1, .call 6, .item 6 (.int 258) 9, .round 4 9, .ended 6 9] := rfl
  have hended : 9 = 6 := h (.ended 6 9) (by simp [hmarks])
  exact absurd hended (by decide)

end PyAmqp
