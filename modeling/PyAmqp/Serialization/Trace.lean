import PyAmqp.Base.Traced
import PyAmqp.Serialization.Loads

/-!
The decoder of `amqp/serialization.py` with a trace of its calls, slices and loops. Without
the trace it is the decoder.
-/

namespace PyAmqp

inductive Mark where
  /-- A call of `_read_item`. -/
  | call (offset : Nat)
  /-- A call of `_read_item` that returns. -/
  | item (offset : Nat) (value : Value) (next : Nat)
  /-- `buf[offset:offset + length]` -/
  | slice (offset length : Nat)
  /-- A round of the loop over a table or an array, unless it raises. -/
  | round (offset next : Nat)
  /-- The end of the loop. -/
  | ended (limit offset : Nat)

abbrev Tracer (α : Type) := Traced Mark UInt8 PyError α

open Traced

def tracedSized (width : Nat) : Tracer Octets := do
  let size ← lift (unpackFrom width)
  noting (fun _ => []) (fun offset _ _ => [.slice offset size]) (lift (Cursor.slice size))

def tracedText (width : Nat) : Tracer PyStr := do
  let octets ← tracedSized width
  lift (Cursor.liftExcept (bytesToStr octets))

def tracedEntry (item : Tracer Value) (table : List (PyStr × Value)) :
    Tracer (List (PyStr × Value)) := do
  let key ← tracedText 1
  let value ← item
  return Assoc.set table key value

def tracedElement (item : Tracer Value) (values : List Value) : Tracer (List Value) := do
  let value ← item
  return values ++ [value]

/-- The loop over a table or an array. -/
def tracedLoop {α : Type} (body : α → Tracer α) (init : α) : Tracer α := do
  let size ← lift (unpackFrom 4)
  noting (fun _ => []) (fun offset _ next => [.ended (offset + size) next])
    (within .outOfFuel size
      (fun acc => noting (fun _ => []) (fun offset _ next => [.round offset next]) (body acc))
      init)

def tracedTable (item : Tracer Value) : Tracer (List (PyStr × Value)) :=
  tracedLoop (tracedEntry item) []

def tracedArray (item : Tracer Value) : Tracer (List Value) :=
  tracedLoop (tracedElement item) []

/-- The fields with slices, loops and calls; the others have nothing to note. -/
def tracedField (item : Tracer Value) : Char → Tracer Value
  | 'S' => do return strOrBytes (← tracedSized 4)
  | 's' => do return .str (← tracedText 1)
  | 'x' => do return .bytes (← tracedSized 4)
  | 'F' => do return .dict (← tracedTable item)
  | 'A' => do return .list (← tracedArray item)
  | ftype => lift (readField (Cursor.fail .outOfFuel) ftype)

def tracedItemWithin : Nat → Tracer Value
  | 0 => lift (Cursor.fail .outOfFuel)
  | depth + 1 =>
      noting (fun offset => [.call offset]) (fun offset value next => [.item offset value next])
        (do
          let octet ← lift (Cursor.index .indexError)
          tracedField (tracedItemWithin depth) (Char.ofNat octet.toNat))

/-- `_read_item` with its trace. -/
def tracedItem : Tracer Value := fun buf offset => tracedItemWithin (buf.length + 1) buf offset

def tracedStep (p : Char) (b : Bits) : Tracer (Value × Bits) :=
  match p with
  | 's' => do return (.str (← tracedText 1), {})
  | 'S' => do return (.str (← tracedText 4), {})
  | 'x' => do return (.bytes (← tracedSized 4), b)
  | 'F' => do return (.dict (← tracedTable tracedItem), {})
  | 'A' => do return (.list (← tracedArray tracedItem), {})
  | p => lift (loadsStep p b)

def tracedFields : List Char → Bits → Tracer (List Value)
  | [], _ => return []
  | p :: format, b => do
      let (value, b) ← tracedStep p b
      let values ← tracedFields format b
      return value :: values

/-- `loads` with its trace. -/
def tracedLoads (format : List Char) : Tracer (List Value) := tracedFields format {}

/-! Without the trace -/

section Erase

theorem erase_sized (width : Nat) : erase (tracedSized width) = readSized width := by
  simp only [tracedSized, readSized, erase_bind, erase_noting, erase_lift]

theorem erase_text (width : Nat) : erase (tracedText width) = readText width := by
  simp only [tracedText, readText, erase_bind, erase_sized, erase_lift]

variable {item : Tracer Value}

theorem erase_entry (table : List (PyStr × Value)) :
    erase (tracedEntry item table) = readEntry (erase item) table := by
  simp only [tracedEntry, readEntry, erase_bind, erase_text, erase_pure]

theorem erase_element (values : List Value) :
    erase (tracedElement item values) = readElement (erase item) values := by
  simp only [tracedElement, readElement, erase_bind, erase_pure]

theorem erase_loop {α : Type} (body : α → Tracer α) (init : α) :
    erase (tracedLoop body init) = (do
      let size ← unpackFrom 4
      Cursor.within .outOfFuel size (fun acc => erase (body acc)) init) := by
  simp only [tracedLoop, erase_bind, erase_lift, erase_noting, erase_within]

theorem erase_table : erase (tracedTable item) = readTable (erase item) := by
  simp only [tracedTable, erase_loop, erase_entry, readTable]

theorem erase_array : erase (tracedArray item) = readArray (erase item) := by
  simp only [tracedArray, erase_loop, erase_element, readArray]

/-- A field that is no table and no array has no nested values. -/
theorem readField_flat {ftype : Char} (hF : ftype ≠ 'F') (hA : ftype ≠ 'A')
    (item1 item2 : Reader Value) : readField item1 ftype = readField item2 ftype := by
  unfold readField
  split
  case h_15 => exact absurd rfl hF
  case h_16 => exact absurd rfl hA
  all_goals rfl

theorem erase_field (ftype : Char) :
    erase (tracedField item ftype) = readField (erase item) ftype := by
  unfold tracedField
  split
  case h_1 => simp only [erase_bind, erase_sized, erase_pure, readField]
  case h_2 => simp only [erase_bind, erase_text, erase_pure, readField]
  case h_3 => simp only [erase_bind, erase_sized, erase_pure, readField]
  case h_4 => simp only [erase_bind, erase_table, erase_pure, readField]
  case h_5 => simp only [erase_bind, erase_array, erase_pure, readField]
  case h_6 hF hA => exact readField_flat hF hA _ _

theorem erase_itemWithin (depth : Nat) :
    erase (tracedItemWithin depth) = readItemWithin depth := by
  induction depth with
  | zero => rfl
  | succ depth ih =>
      simp only [tracedItemWithin, erase_noting, erase_bind, erase_lift, erase_field, ih,
        readItemWithin]

theorem erase_item : erase tracedItem = readItem := by
  funext buf offset
  have hdepth : ∀ depth, (tracedItemWithin depth buf offset).2 = readItemWithin depth buf offset :=
    fun depth => congrFun (congrFun (erase_itemWithin depth) buf) offset
  exact hdepth (buf.length + 1)

theorem erase_step (p : Char) (b : Bits) : erase (tracedStep p b) = loadsStep p b := by
  unfold tracedStep
  split
  case h_1 | h_2 => simp only [erase_bind, erase_text, erase_pure, loadsStep]
  case h_3 => simp only [erase_bind, erase_sized, erase_pure, loadsStep]
  case h_4 => simp only [erase_bind, erase_table, erase_item, erase_pure, loadsStep]
  case h_5 => simp only [erase_bind, erase_array, erase_item, erase_pure, loadsStep]
  case h_6 => rfl

theorem erase_fields (format : List Char) (b : Bits) :
    erase (tracedFields format b) = loadsLoop format b := by
  induction format generalizing b with
  | nil => rfl
  | cons p format ih =>
      simp only [tracedFields, loadsLoop, erase_bind, erase_step, ih, erase_pure]

/-- The trace leaves what `loads` returns or raises as it is. -/
theorem erase_loads (format : List Char) : erase (tracedLoads format) = loads format :=
  erase_fields format {}

end Erase

end PyAmqp
