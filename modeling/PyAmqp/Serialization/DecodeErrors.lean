import PyAmqp.Serialization.Loads

/-!
What a decoder can raise. The readers of `amqp/serialization.py` raise errors of their
own, so no octets make `loads` raise what a caller, a callback or a socket raises.
-/

namespace PyAmqp

/-- The exceptions of `struct`, of text and of dates, and the library's syntax errors.
For a year past 9999 the C library is asked, which has an `OSError` of its own. -/
def PyError.isDecoding : PyError → Bool
  | structError | indexError | typeError | valueError | unicodeDecodeError | overflowError
  | osError none | outOfFuel | amqp _ => true
  | _ => false

/-- The reader raises no other exception. -/
def DecodeErrors {α : Type} (r : Reader α) : Prop := r.Raises fun e => e.isDecoding = true

section Readers

open Cursor

theorem unpackFrom_errors (width : Nat) : DecodeErrors (unpackFrom width) :=
  .bind (.exactly (by rfl) _) fun _ => .pure _

theorem unpackSigned_errors (width : Nat) : DecodeErrors (unpackSigned width) :=
  .bind (.exactly (by rfl) _) fun _ => .pure _

theorem readSized_errors (width : Nat) : DecodeErrors (readSized width) :=
  .bind (unpackFrom_errors width) fun _ => .slice _

theorem readText_errors (width : Nat) : DecodeErrors (readText width) := by
  refine .bind (readSized_errors width) fun octets => .liftExcept fun e he => ?_
  unfold bytesToStr at he
  split at he
  · simp at he
  · obtain rfl := Except.error.inj he
    rfl

theorem fromtimestamp_errors (seconds : Nat) :
    DecodeErrors (liftExcept (DateTime.fromtimestamp seconds)) := by
  refine .liftExcept fun e he => ?_
  unfold DateTime.fromtimestamp at he
  split_ifs at he
  all_goals
    obtain rfl := Except.error.inj he
    rfl

theorem readTable_errors {item : Reader Value} (hitem : DecodeErrors item) :
    DecodeErrors (readTable item) := by
  refine .bind (unpackFrom_errors 4) fun size => .within (by rfl) (fun table => ?_) size _
  exact .bind (readText_errors 1) fun key => .bind hitem fun value => .pure _

theorem readArray_errors {item : Reader Value} (hitem : DecodeErrors item) :
    DecodeErrors (readArray item) := by
  refine .bind (unpackFrom_errors 4) fun size => .within (by rfl) (fun values => ?_) size _
  exact .bind hitem fun value => .pure _

/-- One field, whatever its type code. -/
theorem readField_errors {item : Reader Value} (hitem : DecodeErrors item) (ftype : Char) :
    DecodeErrors (readField item ftype) := by
  unfold readField
  split
  case h_1 | h_3 => exact .bind (readSized_errors _) fun _ => .pure _
  case h_2 => exact .bind (readText_errors _) fun _ => .pure _
  case h_4 | h_7 | h_9 | h_11 | h_12 | h_13 | h_17 =>
    exact .bind (unpackFrom_errors _) fun _ => .pure _
  case h_5 | h_6 | h_8 | h_10 => exact .bind (unpackSigned_errors _) fun _ => .pure _
  case h_14 =>
    exact .bind (unpackFrom_errors _) fun _ => .bind (unpackSigned_errors _) fun _ => .pure _
  case h_15 => exact .bind (readTable_errors hitem) fun _ => .pure _
  case h_16 => exact .bind (readArray_errors hitem) fun _ => .pure _
  case h_18 =>
    exact .bind (unpackFrom_errors _) fun _ => .bind (fromtimestamp_errors _) fun _ => .pure _
  case h_19 => exact .pure _
  case h_20 => exact .fail rfl

theorem readItemWithin_errors (depth : Nat) : DecodeErrors (readItemWithin depth) := by
  induction depth with
  | zero => exact .fail rfl
  | succ depth ih => exact .bind (.index (by rfl)) fun octet => readField_errors ih _

theorem readItem_errors : DecodeErrors readItem := fun buf offset e h =>
  readItemWithin_errors (buf.length + 1) buf offset e h

theorem loadsStep_errors (p : Char) (b : Bits) : DecodeErrors (loadsStep p b) := by
  unfold loadsStep
  split
  case h_1 =>
    have hord : ∀ octets, DecodeErrors (liftExcept (ord octets)) := by
      refine fun octets => .liftExcept fun e he => ?_
      unfold ord at he
      split at he
      · simp at he
      · obtain rfl := Except.error.inj he
        rfl
    split_ifs
    · exact .bind (.slice 1) fun octets => .bind (hord octets) fun bits => .pure _
    · exact .pure _
  case h_2 | h_3 | h_4 | h_5 | h_6 => exact .bind (unpackFrom_errors _) fun _ => .pure _
  case h_7 | h_8 => exact .bind (readText_errors _) fun _ => .pure _
  case h_9 => exact .bind (readSized_errors _) fun _ => .pure _
  case h_10 => exact .bind (readTable_errors readItem_errors) fun _ => .pure _
  case h_11 => exact .bind (readArray_errors readItem_errors) fun _ => .pure _
  case h_12 =>
    exact .bind (unpackFrom_errors _) fun _ => .bind (fromtimestamp_errors _) fun _ => .pure _
  case h_13 => exact .fail rfl

/-- Whatever the format and the octets, `loads` raises decoding errors only. -/
theorem loads_errors (format : List Char) : DecodeErrors (loads format) := by
  have hloop : ∀ b, DecodeErrors (loadsLoop format b) := by
    induction format with
    | nil => exact fun b => .pure _
    | cons p format ih =>
        intro b
        exact .bind (loadsStep_errors p b) fun _ => .bind (ih _) fun _ => .pure _
  exact hloop {}

end Readers

end PyAmqp
