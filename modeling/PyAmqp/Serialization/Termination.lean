import PyAmqp.Serialization.Trace

/-!
The decoder ends on every input. Each call of `_read_item` takes an octet that stands in the
buffer, so the octets left bound the calls and the rounds of every loop, whatever limits the
loops have.
-/

namespace PyAmqp

open Cursor

section Readers

theorem unpackFrom_consumes {width : Nat} (h : 0 < width) : Consumes (unpackFrom width) :=
  (Consumes.exactly _ h).bind fun _ => .pure _

theorem unpackFrom_advances (width : Nat) : Advances (unpackFrom width) :=
  (Advances.exactly _ width).bind fun _ => .pure _

theorem unpackSigned_advances (width : Nat) : Advances (unpackSigned width) :=
  (Advances.exactly _ width).bind fun _ => .pure _

theorem readSized_consumes {width : Nat} (h : 0 < width) : Consumes (readSized width) :=
  (unpackFrom_consumes h).bind fun size => .slice size

theorem readText_consumes {width : Nat} (h : 0 < width) : Consumes (readText width) :=
  (readSized_consumes h).bind fun octets => .liftExcept (bytesToStr octets)

variable {item : Reader Value}

theorem readEntry_consumes (hitem : Advances item) (table : List (PyStr × Value)) :
    Consumes (readEntry item table) :=
  (readText_consumes (by decide)).bind fun _ => hitem.bind fun _ => .pure _

theorem readElement_consumes (hitem : Consumes item) (values : List Value) :
    Consumes (readElement item values) :=
  hitem.bind fun _ => .pure _

theorem readTable_advances (hitem : Advances item) : Advances (readTable item) :=
  (unpackFrom_advances 4).bind fun size =>
    .within (fun table => (readEntry_consumes hitem table).advances) size _

theorem readArray_advances (hitem : Consumes item) : Advances (readArray item) :=
  (unpackFrom_advances 4).bind fun size =>
    .within (fun values => (readElement_consumes hitem values).advances) size _

/-- One field, whatever its type code. -/
theorem readField_advances (hitem : Consumes item) (ftype : Char) :
    Advances (readField item ftype) := by
  unfold readField
  split
  case h_1 | h_3 => exact (readSized_consumes (by decide)).advances.bind fun _ => .pure _
  case h_2 => exact (readText_consumes (by decide)).advances.bind fun _ => .pure _
  case h_4 | h_7 | h_9 | h_11 | h_12 | h_13 | h_17 =>
    exact (unpackFrom_advances _).bind fun _ => .pure _
  case h_5 | h_6 | h_8 | h_10 => exact (unpackSigned_advances _).bind fun _ => .pure _
  case h_14 =>
    exact (unpackFrom_advances _).bind fun _ => (unpackSigned_advances _).bind fun _ => .pure _
  case h_15 => exact (readTable_advances hitem.advances).bind fun _ => .pure _
  case h_16 => exact (readArray_advances hitem).bind fun _ => .pure _
  case h_18 =>
    exact (unpackFrom_advances _).bind fun _ => (Advances.liftExcept _).bind fun _ => .pure _
  case h_19 => exact .pure _
  case h_20 => exact .fail _

theorem readItemWithin_consumes (depth : Nat) : Consumes (readItemWithin depth) := by
  induction depth with
  | zero => exact .fail _
  | succ depth ih => exact (Consumes.index _).bind fun octet => readField_advances ih _

theorem readItem_consumes : Consumes readItem := fun buf offset value next h =>
  readItemWithin_consumes (buf.length + 1) buf offset value next h

theorem loadsStep_advances (p : Char) (b : Bits) : Advances (loadsStep p b) := by
  unfold loadsStep
  split
  case h_1 =>
    split
    · exact (Advances.slice 1).bind fun _ => (Advances.liftExcept _).bind fun _ => .pure _
    · exact .pure _
  case h_2 | h_3 | h_4 | h_5 | h_6 => exact (unpackFrom_advances _).bind fun _ => .pure _
  case h_7 | h_8 => exact (readText_consumes (by decide)).advances.bind fun _ => .pure _
  case h_9 => exact (readSized_consumes (by decide)).advances.bind fun _ => .pure _
  case h_10 => exact (readTable_advances readItem_consumes.advances).bind fun _ => .pure _
  case h_11 => exact (readArray_advances readItem_consumes).bind fun _ => .pure _
  case h_12 =>
    exact (unpackFrom_advances _).bind fun _ => (Advances.liftExcept _).bind fun _ => .pure _
  case h_13 => exact .fail _

theorem loadsLoop_advances (format : List Char) (b : Bits) : Advances (loadsLoop format b) := by
  induction format generalizing b with
  | nil => exact .pure _
  | cons p format ih =>
      exact (loadsStep_advances p b).bind fun out => (ih out.2).bind fun _ => .pure _

end Readers

/-! Fuel -/

/-- `r` does not run out of fuel, if it gets `n` for the octets left. -/
abbrev Fuelled {α : Type} (n : Nat) (r : Reader α) : Prop := Unstuck .outOfFuel n r

section Fuel

variable {n : Nat}

theorem unpackFrom_fuelled (width : Nat) : Fuelled n (unpackFrom width) :=
  .of_raises (.bind (.exactly (by decide) _) fun _ => .pure _)

theorem unpackSigned_fuelled (width : Nat) : Fuelled n (unpackSigned width) :=
  .of_raises (.bind (.exactly (by decide) _) fun _ => .pure _)

theorem readSized_fuelled (width : Nat) : Fuelled n (readSized width) :=
  (unpackFrom_fuelled width).bind (unpackFrom_advances width) fun size => .of_raises (.slice size)

theorem readText_fuelled (width : Nat) : Fuelled n (readText width) := by
  have hsized : Advances (readSized width) :=
    (unpackFrom_advances width).bind fun size => .slice size
  refine (readSized_fuelled width).bind hsized fun octets => .of_raises (.liftExcept ?_)
  intro e he
  unfold bytesToStr at he
  split at he
  · simp at he
  · obtain rfl := Except.error.inj he
    decide

theorem fromtimestamp_fuelled (seconds : Nat) :
    Fuelled n (Cursor.liftExcept (DateTime.fromtimestamp seconds)) := by
  refine .of_raises (.liftExcept fun e he => ?_)
  unfold DateTime.fromtimestamp at he
  split_ifs at he
  all_goals
    obtain rfl := Except.error.inj he
    decide

variable {item : Reader Value}

/-- A field that ends in a pure step. -/
theorem Fuelled.map {α β : Type} {r : Reader α} (hr : Fuelled n r) (hadvances : Advances r)
    (f : α → β) : Fuelled n (r >>= fun a => pure (f a)) :=
  hr.bind hadvances fun a => .of_raises (.pure (f a))

theorem readTable_fuelled (hitem : Fuelled n item) (hconsumes : Consumes item) :
    Fuelled n (readTable item) := by
  refine (unpackFrom_fuelled 4).bind (unpackFrom_advances 4) fun size =>
    .within (fun table => ?_) (fun table => readEntry_consumes hconsumes.advances table) size _
  exact (readText_fuelled 1).bind (readText_consumes (by decide)).advances fun key =>
    hitem.map hconsumes.advances _

theorem readArray_fuelled (hitem : Fuelled n item) (hconsumes : Consumes item) :
    Fuelled n (readArray item) :=
  (unpackFrom_fuelled 4).bind (unpackFrom_advances 4) fun size =>
    .within (fun _ => hitem.map hconsumes.advances _)
      (fun values => readElement_consumes hconsumes values) size _

theorem readField_fuelled (hitem : Fuelled n item) (hconsumes : Consumes item) (ftype : Char) :
    Fuelled n (readField item ftype) := by
  unfold readField
  split
  case h_1 | h_3 =>
    exact (readSized_fuelled _).map (readSized_consumes (by decide)).advances _
  case h_2 => exact (readText_fuelled _).map (readText_consumes (by decide)).advances _
  case h_4 | h_7 | h_9 | h_11 | h_12 | h_13 | h_17 =>
    exact (unpackFrom_fuelled _).map (unpackFrom_advances _) _
  case h_5 | h_6 | h_8 | h_10 => exact (unpackSigned_fuelled _).map (unpackSigned_advances _) _
  case h_14 =>
    exact (unpackFrom_fuelled _).bind (unpackFrom_advances _) fun _ =>
      (unpackSigned_fuelled _).map (unpackSigned_advances _) _
  case h_15 =>
    exact (readTable_fuelled hitem hconsumes).map (readTable_advances hconsumes.advances) _
  case h_16 => exact (readArray_fuelled hitem hconsumes).map (readArray_advances hconsumes) _
  case h_18 =>
    exact (unpackFrom_fuelled _).bind (unpackFrom_advances _) fun seconds =>
      (fromtimestamp_fuelled seconds).map (.liftExcept _) _
  case h_19 => exact .of_raises (.pure _)
  case h_20 => exact .of_raises (.fail (by simp))

/-- A level of nesting takes the octet of its type code. -/
theorem readItemWithin_fuelled (depth : Nat) : Fuelled depth (readItemWithin (depth + 1)) := by
  have hindex : ∀ n, Fuelled n (Cursor.index PyError.indexError : Reader UInt8) :=
    fun n => .of_raises (.index (by decide))
  induction depth with
  | zero => exact (hindex 0).bind_consumes (.index _) fun m hm => absurd hm (Nat.succ_ne_zero m)
  | succ depth ih =>
      refine (hindex _).bind_consumes (.index _) fun m hm octet => ?_
      obtain rfl := Nat.succ.inj hm
      exact readField_fuelled ih (readItemWithin_consumes _) _

theorem readItem_fuelled : Fuelled n readItem := fun buf offset _ h =>
  readItemWithin_fuelled buf.length buf offset (Nat.le_add_left _ _) h

theorem loadsStep_fuelled (p : Char) (b : Bits) : Fuelled n (loadsStep p b) := by
  unfold loadsStep
  split
  case h_1 =>
    have hord : ∀ octets, Fuelled n (Cursor.liftExcept (ord octets)) := by
      refine fun octets => .of_raises (.liftExcept fun e he => ?_)
      unfold ord at he
      split at he
      · simp at he
      · obtain rfl := Except.error.inj he
        decide
    split
    · exact Unstuck.bind (.of_raises (.slice 1)) (.slice 1) fun octets =>
        (hord octets).map (.liftExcept _) _
    · exact .of_raises (.pure _)
  case h_2 | h_3 | h_4 | h_5 | h_6 => exact (unpackFrom_fuelled _).map (unpackFrom_advances _) _
  case h_7 | h_8 => exact (readText_fuelled _).map (readText_consumes (by decide)).advances _
  case h_9 => exact (readSized_fuelled _).map (readSized_consumes (by decide)).advances _
  case h_10 =>
    exact (readTable_fuelled readItem_fuelled readItem_consumes).map
      (readTable_advances readItem_consumes.advances) _
  case h_11 =>
    exact (readArray_fuelled readItem_fuelled readItem_consumes).map
      (readArray_advances readItem_consumes) _
  case h_12 =>
    exact (unpackFrom_fuelled _).bind (unpackFrom_advances _) fun seconds =>
      (fromtimestamp_fuelled seconds).map (.liftExcept _) _
  case h_13 => exact .of_raises (.fail (by simp))

theorem loadsLoop_fuelled (format : List Char) (b : Bits) : Fuelled n (loadsLoop format b) := by
  induction format generalizing b with
  | nil => exact .of_raises (.pure _)
  | cons p format ih =>
      refine (loadsStep_fuelled p b).bind (loadsStep_advances p b) fun out => ?_
      exact (ih out.2).map (loadsLoop_advances format out.2) _

end Fuel

/-! The trace -/

def Mark.isCall : Mark → Bool
  | .call _ => true
  | _ => false

/-- What returns, and every round, ends behind its start. -/
def Mark.Forward : Mark → Prop
  | .item offset _ next => offset < next
  | .round offset next => offset < next
  | _ => True

section Trace

open Traced

theorem tracedSized_spends (width : Nat) : Spends Mark.isCall (tracedSized width) :=
  (Spends.lift (unpackFrom_advances width)).bind fun size =>
    (Spends.lift (.slice size)).leaving fun _ _ _ => rfl

theorem tracedText_spends (width : Nat) : Spends Mark.isCall (tracedText width) :=
  (tracedSized_spends width).bind fun octets => .lift (.liftExcept (bytesToStr octets))

theorem tracedLoop_spends {α : Type} {body : α → Tracer α}
    (hbody : ∀ acc, Spends Mark.isCall (body acc)) (init : α) :
    Spends Mark.isCall (tracedLoop body init) :=
  (Spends.lift (unpackFrom_advances 4)).bind fun size =>
    (Spends.within (fun acc => (hbody acc).leaving fun _ _ _ => rfl) size init).leaving
      fun _ _ _ => rfl

variable {item : Tracer Value}

theorem tracedTable_spends (hitem : Spends Mark.isCall item) :
    Spends Mark.isCall (tracedTable item) :=
  tracedLoop_spends (fun _ => (tracedText_spends 1).bind fun _ => hitem.bind_pure _) []

theorem tracedArray_spends (hitem : Spends Mark.isCall item) :
    Spends Mark.isCall (tracedArray item) :=
  tracedLoop_spends (fun _ => hitem.bind_pure _) []

theorem tracedField_spends (hitem : Spends Mark.isCall item) (ftype : Char) :
    Spends Mark.isCall (tracedField item ftype) := by
  unfold tracedField
  split
  case h_1 | h_3 => exact (tracedSized_spends 4).bind_pure _
  case h_2 => exact (tracedText_spends 1).bind_pure _
  case h_4 => exact (tracedTable_spends hitem).bind_pure _
  case h_5 => exact (tracedArray_spends hitem).bind_pure _
  case h_6 => exact .lift (readField_advances (.fail _) _)

/-- A call takes the octet of its type code. -/
theorem tracedItemWithin_spends (depth : Nat) :
    Spends Mark.isCall (tracedItemWithin depth) := by
  induction depth with
  | zero => exact .lift (.fail _)
  | succ depth ih =>
      exact .entering (fun octet => tracedField_spends ih _) (fun _ => Nat.le_refl 1)
        fun _ _ _ => rfl

theorem tracedItem_spends : Spends Mark.isCall tracedItem := fun buf offset =>
  tracedItemWithin_spends (buf.length + 1) buf offset

theorem tracedStep_spends (p : Char) (b : Bits) : Spends Mark.isCall (tracedStep p b) := by
  unfold tracedStep
  split
  case h_1 | h_2 => exact (tracedText_spends _).bind_pure _
  case h_3 => exact (tracedSized_spends 4).bind_pure _
  case h_4 => exact (tracedTable_spends tracedItem_spends).bind_pure _
  case h_5 => exact (tracedArray_spends tracedItem_spends).bind_pure _
  case h_6 => exact .lift (loadsStep_advances _ _)

theorem tracedLoads_spends (format : List Char) : Spends Mark.isCall (tracedLoads format) := by
  have hfields : ∀ b, Spends Mark.isCall (tracedFields format b) := by
    induction format with
    | nil => exact fun b => .lift (.pure _)
    | cons p format ih =>
        exact fun b => (tracedStep_spends p b).bind fun out => (ih out.2).bind_pure _
  exact hfields {}

/-- `Q` holds of the marks that slices and loops make, and of marks one behind the other. -/
structure Quiet (Q : List Mark → Prop) : Prop extends Gathers Q where
  slice (offset length : Nat) : Q [.slice offset length]
  round {offset next : Nat} : offset < next → Q [.round offset next]
  ended (limit offset : Nat) : Q [.ended limit offset]

variable {buf : Octets} {Q : List Mark → Prop}

theorem tracedSized_notes (hQ : Quiet Q) (width : Nat) : Notes buf Q (tracedSized width) :=
  .bind hQ.toGathers (.lift hQ.toGathers _) fun size =>
    .noting hQ.toGathers (.lift hQ.toGathers _) (fun _ => hQ.nil) fun offset _ _ _ =>
      hQ.slice offset size

theorem tracedText_notes (hQ : Quiet Q) (width : Nat) : Notes buf Q (tracedText width) :=
  .bind hQ.toGathers (tracedSized_notes hQ width) fun _ => .lift hQ.toGathers _

theorem tracedLoop_notes (hQ : Quiet Q) {α : Type} {body : α → Tracer α}
    (hbody : ∀ acc, Notes buf Q (body acc)) (hconsumes : ∀ acc, Consumes (erase (body acc)))
    (init : α) : Notes buf Q (tracedLoop body init) := by
  refine .bind hQ.toGathers (.lift hQ.toGathers _) fun size => ?_
  refine .noting hQ.toGathers (.within hQ.toGathers (fun acc => ?_) size init)
    (fun _ => hQ.nil) fun _ _ _ _ => hQ.ended _ _
  refine .noting hQ.toGathers (hbody acc) (fun _ => hQ.nil) fun offset a next h => ?_
  exact hQ.round (hconsumes acc buf offset a next h).1

theorem tracedTable_notes (hQ : Quiet Q) (hitem : Notes buf Q item)
    (hconsumes : Consumes (erase item)) : Notes buf Q (tracedTable item) := by
  refine tracedLoop_notes hQ (fun table => ?_) (fun table => ?_) []
  · exact .bind hQ.toGathers (tracedText_notes hQ 1) fun key => .bind_pure hQ.toGathers hitem _
  · rw [erase_entry]
    exact readEntry_consumes hconsumes.advances table

theorem tracedArray_notes (hQ : Quiet Q) (hitem : Notes buf Q item)
    (hconsumes : Consumes (erase item)) : Notes buf Q (tracedArray item) := by
  refine tracedLoop_notes hQ (fun values => ?_) (fun values => ?_) []
  · exact .bind_pure hQ.toGathers hitem _
  · have helement := readElement_consumes hconsumes values
    rwa [← erase_element] at helement

theorem tracedField_notes (hQ : Quiet Q) (hitem : Notes buf Q item)
    (hconsumes : Consumes (erase item)) (ftype : Char) :
    Notes buf Q (tracedField item ftype) := by
  unfold tracedField
  split
  case h_1 | h_3 => exact .bind_pure hQ.toGathers (tracedSized_notes hQ 4) _
  case h_2 => exact .bind_pure hQ.toGathers (tracedText_notes hQ 1) _
  case h_4 => exact .bind_pure hQ.toGathers (tracedTable_notes hQ hitem hconsumes) _
  case h_5 => exact .bind_pure hQ.toGathers (tracedArray_notes hQ hitem hconsumes) _
  case h_6 => exact .lift hQ.toGathers _

/-- A value behind its type code. -/
theorem tracedBehindCode_notes (hQ : Quiet Q) {depth : Nat}
    (hitem : Notes buf Q (tracedItemWithin depth)) :
    Notes buf Q (lift (Cursor.index .indexError) >>= fun octet =>
      tracedField (tracedItemWithin depth) (Char.ofNat octet.toNat)) := by
  refine .bind hQ.toGathers (.lift hQ.toGathers _) fun octet => tracedField_notes hQ hitem ?_ _
  rw [erase_itemWithin]
  exact readItemWithin_consumes depth

/-- What the calls of `_read_item` note, `loads` notes. -/
theorem tracedLoads_notes (hQ : Quiet Q)
    (hitem : ∀ depth, Notes buf Q (tracedItemWithin depth)) (format : List Char) :
    Notes buf Q (tracedLoads format) := by
  have hread : Notes buf Q tracedItem := fun offset => hitem (buf.length + 1) offset
  have hconsumes : Consumes (erase tracedItem) := by
    rw [erase_item]
    exact readItem_consumes
  have hstep : ∀ p b, Notes buf Q (tracedStep p b) := by
    intro p b
    unfold tracedStep
    split
    case h_1 | h_2 => exact .bind_pure hQ.toGathers (tracedText_notes hQ _) _
    case h_3 => exact .bind_pure hQ.toGathers (tracedSized_notes hQ 4) _
    case h_4 => exact .bind_pure hQ.toGathers (tracedTable_notes hQ hread hconsumes) _
    case h_5 => exact .bind_pure hQ.toGathers (tracedArray_notes hQ hread hconsumes) _
    case h_6 => exact .lift hQ.toGathers _
  have hfields : ∀ b, Notes buf Q (tracedFields format b) := by
    induction format with
    | nil => exact fun b => .lift hQ.toGathers _
    | cons p format ih =>
        exact fun b => .bind hQ.toGathers (hstep p b) fun out =>
          .bind_pure hQ.toGathers (ih out.2) _
  exact hfields {}

theorem forward_quiet : Quiet fun marks => ∀ mark ∈ marks, mark.Forward where
  toGathers := .all Mark.Forward
  slice offset length := by simp [Mark.Forward]
  round h := by simpa [Mark.Forward] using h
  ended limit offset := by simp [Mark.Forward]

theorem tracedItemWithin_forward (depth : Nat) :
    Notes buf (fun marks => ∀ mark ∈ marks, mark.Forward) (tracedItemWithin depth) := by
  induction depth with
  | zero => exact .lift forward_quiet.toGathers _
  | succ depth ih =>
      refine .noting forward_quiet.toGathers (tracedBehindCode_notes forward_quiet ih)
        (by simp [Mark.Forward]) fun offset value next h => ?_
      have hconsumes := readItemWithin_consumes (depth + 1)
      rw [← erase_itemWithin, tracedItemWithin, erase_noting] at hconsumes
      simpa [Mark.Forward] using (hconsumes buf offset value next h).1

end Trace

/-- What a run of the decoder with its trace has to be like. -/
structure Terminates {α : Type} (r : Reader α) (t : Tracer α) (buf : Octets) (offset : Nat) :
    Prop where
  /-- The trace is one of this run. -/
  traced : (t buf offset).2 = r buf offset
  /-- The run ends: it returns, or raises what the source raises. -/
  ends : r buf offset ≠ .error .outOfFuel
  /-- A call that returns stands behind its offset then, and so does a round that ends. -/
  forward : ∀ mark ∈ (t buf offset).1, mark.Forward
  calls : (t buf offset).1.countP Mark.isCall ≤ buf.length - offset + 1

/-- `loads` and `_read_item` end on every input. -/
theorem decoder_terminates (buf : Octets) (offset : Nat) :
    (∀ format, Terminates (loads format) (tracedLoads format) buf offset) ∧
      Terminates readItem tracedItem buf offset := by
  refine ⟨fun format => ⟨?_, ?_, ?_, ?_⟩, ⟨?_, ?_, ?_, ?_⟩⟩
  · exact congrFun (congrFun (erase_loads format) buf) offset
  · exact loadsLoop_fuelled format {} buf offset (Nat.le_add_left _ _)
  · exact tracedLoads_notes forward_quiet tracedItemWithin_forward format offset
  · exact (tracedLoads_spends format).count_le buf offset
  · exact congrFun (congrFun erase_item buf) offset
  · exact readItem_fuelled buf offset (Nat.le_add_left _ _)
  · exact tracedItemWithin_forward (buf.length + 1) offset
  · exact tracedItem_spends.count_le buf offset

end PyAmqp
