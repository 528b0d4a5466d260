import PyAmqp.Base.Local
import PyAmqp.Serialization.Termination
import PyAmqp.Serialization.Content

/-!
The decoder looks at nothing but the octets it goes over. What `loads` accepts inside one
buffer it accepts inside every other, with the same values: no octet before or behind an
encoding, and no length of a buffer, changes what it stands for.
-/

namespace PyAmqp

open Cursor

section Readers

theorem unpackFrom_local (width : Nat) : Local (unpackFrom width) := (Local.exactly _ width).map _

theorem unpackSigned_local (width : Nat) : Local (unpackSigned width) :=
  (Local.exactly _ width).map _

theorem readSized_local (width : Nat) : Local (readSized width) :=
  (unpackFrom_local width).bind (unpackFrom_advances width) Local.slice Advances.slice

theorem readSized_advances (width : Nat) : Advances (readSized width) :=
  (unpackFrom_advances width).bind Advances.slice

theorem readText_local (width : Nat) : Local (readText width) := by
  apply (readSized_local width).bind (readSized_advances width)
  · exact fun octets => .liftExcept _
  · exact fun octets => .liftExcept _

theorem timestamp_local :
    Local (do
      let seconds ← unpackFrom 8
      let t ← Cursor.liftExcept (DateTime.fromtimestamp seconds)
      return Value.datetime t) := by
  apply (unpackFrom_local 8).bind (unpackFrom_advances 8)
  · exact fun seconds => (Local.liftExcept _).map _
  · exact fun seconds => (Advances.liftExcept _).bind fun _ => .pure _

variable {item : Reader Value}

theorem readEntry_local (hitem : Local item) (hconsumes : Consumes item)
    (table : List (PyStr × Value)) : Local (readEntry item table) := by
  apply (readText_local 1).bind (readText_consumes (by decide)).advances
  · exact fun key => hitem.map _
  · exact fun key => hconsumes.advances.bind fun _ => .pure _

theorem readTable_local (hitem : Local item) (hconsumes : Consumes item) :
    Local (readTable item) := by
  apply (unpackFrom_local 4).bind (unpackFrom_advances 4)
  · intro size
    apply Local.within
    · exact readEntry_local hitem hconsumes
    · exact readEntry_consumes hconsumes.advances
  · exact fun size => .within (fun table => (readEntry_consumes hconsumes.advances table).advances) size _

theorem readArray_local (hitem : Local item) (hconsumes : Consumes item) :
    Local (readArray item) := by
  apply (unpackFrom_local 4).bind (unpackFrom_advances 4)
  · intro size
    apply Local.within
    · exact fun values => hitem.map _
    · exact readElement_consumes hconsumes
  · exact fun size => .within (fun values => (readElement_consumes hconsumes values).advances) size _

/-- One field, whatever its type code. -/
theorem readField_local (hitem : Local item) (hconsumes : Consumes item) (ftype : Char) :
    Local (readField item ftype) := by
  unfold readField
  split
  case h_1 | h_3 => exact (readSized_local _).map _
  case h_2 => exact (readText_local _).map _
  case h_4 | h_7 | h_9 | h_11 | h_12 | h_13 | h_17 => exact (unpackFrom_local _).map _
  case h_5 | h_6 | h_8 | h_10 => exact (unpackSigned_local _).map _
  case h_14 =>
    apply (unpackFrom_local 1).bind (unpackFrom_advances 1)
    · exact fun places => (unpackSigned_local 4).map _
    · exact fun places => (unpackSigned_advances 4).bind fun _ => .pure _
  case h_15 => exact (readTable_local hitem hconsumes).map _
  case h_16 => exact (readArray_local hitem hconsumes).map _
  case h_18 => exact timestamp_local
  case h_19 => exact .pure _
  case h_20 => exact .fail _

theorem readItemWithin_local (depth : Nat) : Local (readItemWithin depth) := by
  induction depth with
  | zero => exact .fail _
  | succ depth ih =>
      apply (Local.index _).bind (Advances.index _)
      · exact fun octet => readField_local ih (readItemWithin_consumes depth) _
      · exact fun octet => readField_advances (readItemWithin_consumes depth) _

end Readers

/-! Depth -/

section Depth

variable {item item' : Reader Value}

theorem readTable_extends (h : Extends .outOfFuel item' item) :
    Extends .outOfFuel (readTable item') (readTable item) := by
  apply Extends.bind (.refl _)
  intro size
  apply Extends.within
  exact fun table => .bind (.refl _) fun key => .bind h fun _ => .refl _

theorem readArray_extends (h : Extends .outOfFuel item' item) :
    Extends .outOfFuel (readArray item') (readArray item) := by
  apply Extends.bind (.refl _)
  intro size
  apply Extends.within
  exact fun values => .bind h fun _ => .refl _

theorem readField_extends (h : Extends .outOfFuel item' item) (ftype : Char) :
    Extends .outOfFuel (readField item' ftype) (readField item ftype) := by
  by_cases htable : ftype = 'F'
  · subst htable
    exact .bind (readTable_extends h) fun _ => .refl _
  by_cases harray : ftype = 'A'
  · subst harray
    exact .bind (readArray_extends h) fun _ => .refl _
  have hsame : readField item' ftype = readField item ftype := by
    unfold readField
    split
    case h_15 => exact absurd rfl htable
    case h_16 => exact absurd rfl harray
    all_goals rfl
  rw [hsame]
  exact .refl _

/-- A level more changes nothing for what the levels before read. -/
theorem readItemWithin_succ (depth : Nat) :
    Extends .outOfFuel (readItemWithin (depth + 1)) (readItemWithin depth) := by
  induction depth with
  | zero => exact fun buf offset h => absurd rfl h
  | succ depth ih => exact .bind (.refl _) fun octet => readField_extends ih _

theorem readItemWithin_extends {depth depth' : Nat} (h : depth ≤ depth') :
    Extends .outOfFuel (readItemWithin depth') (readItemWithin depth) := by
  induction h with
  | refl => exact .refl _
  | step _ ih => exact (readItemWithin_succ _).trans ih

/-- At every depth that reads a value at all, it is the value `_read_item` reads. -/
theorem readItem_of_within {depth : Nat} {buf : Octets} {offset next : Nat} {value : Value}
    (h : readItemWithin depth buf offset = .ok (value, next)) :
    readItem buf offset = .ok (value, next) := by
  unfold readItem
  rcases Nat.le_total depth (buf.length + 1) with hle | hle
  · rw [readItemWithin_extends hle buf offset (by simp [h]), h]
  · have hfuelled : readItemWithin (buf.length + 1) buf offset ≠ .error .outOfFuel :=
      readItem_fuelled buf offset (Nat.le_add_left _ _)
    rw [← readItemWithin_extends hle buf offset hfuelled, h]

theorem readItem_local : Local readItem := by
  intro buf offset value next h hinside before after
  exact readItem_of_within (readItemWithin_local _ buf offset value next h hinside before after)

end Depth

section Formats

theorem loadsStep_local (p : Char) (b : Bits) : Local (loadsStep p b) := by
  unfold loadsStep
  split
  case h_1 =>
    split
    · apply (Local.slice 1).bind (.slice 1)
      · intro octets
        apply (Local.liftExcept _).bind (.liftExcept _)
        · exact fun bits => (Local.pure _).map _
        · exact fun bits => (Advances.pure _).bind fun _ => .pure _
      · exact fun octets => (Advances.liftExcept _).bind fun _ => .pure _
    · exact (Local.pure b).map _
  case h_2 | h_3 | h_4 | h_5 | h_6 => exact (unpackFrom_local _).map _
  case h_7 | h_8 => exact (readText_local _).map _
  case h_9 => exact (readSized_local _).map _
  case h_10 => exact (readTable_local readItem_local readItem_consumes).map _
  case h_11 => exact (readArray_local readItem_local readItem_consumes).map _
  case h_12 =>
    apply (unpackFrom_local 8).bind (unpackFrom_advances 8)
    · exact fun seconds => (Local.liftExcept _).map _
    · exact fun seconds => (Advances.liftExcept _).bind fun _ => .pure _
  case h_13 => exact .fail _

theorem loadsLoop_local (format : List Char) (b : Bits) : Local (loadsLoop format b) := by
  induction format generalizing b with
  | nil => exact .pure _
  | cons p format ih =>
      apply (loadsStep_local p b).bind (loadsStep_advances p b)
      · exact fun out => (ih out.2).map _
      · exact fun out => (loadsLoop_advances format out.2).bind fun _ => .pure _

theorem readHeaders_advances : Advances readHeaders := by
  apply (loadsLoop_advances ['F'] {}).bind
  intro values
  split
  · exact .pure _
  · exact .fail _

theorem readHeaders_local : Local readHeaders := by
  apply (loadsLoop_local ['F'] {}).bind (loadsLoop_advances ['F'] {})
  · intro values
    split
    · exact .pure _
    · exact .fail _
  · intro values
    split
    · exact .pure _
    · exact .fail _

/-- The readers of a property block. -/
theorem basicRows_local (row : Nat × String × Reader Value) (hrow : row ∈ basicRows) :
    Local row.2.2 ∧ Advances row.2.2 := by
  have hshortstr : Local readShortstr ∧ Advances readShortstr :=
    ⟨(readText_local 1).map _, (readText_consumes (by decide)).advances.bind fun _ => .pure _⟩
  have hoctet : Local readOctet ∧ Advances readOctet :=
    ⟨(unpackFrom_local 1).map _, (unpackFrom_advances 1).bind fun _ => .pure _⟩
  have hlonglong : Local readLonglong ∧ Advances readLonglong :=
    ⟨(unpackFrom_local 8).map _, (unpackFrom_advances 8).bind fun _ => .pure _⟩
  have hheaders : Local readHeaders ∧ Advances readHeaders :=
    ⟨readHeaders_local, readHeaders_advances⟩
  simp only [basicRows, List.mem_cons, List.not_mem_nil, or_false] at hrow
  rcases hrow with rfl | rfl | rfl | rfl | rfl | rfl | rfl | rfl | rfl | rfl | rfl | rfl | rfl | rfl
  all_goals first | exact hshortstr | exact hheaders | exact hoctet | exact hlonglong

theorem decodeRows_local (flags : Nat) {rows : List (Nat × String × Reader Value)}
    (hrows : ∀ row ∈ rows, Local row.2.2 ∧ Advances row.2.2) (properties : Properties) :
    Local (decodeRows flags rows properties) ∧ Advances (decodeRows flags rows properties) := by
  induction rows generalizing properties with
  | nil => exact ⟨.pure _, .pure _⟩
  | cons row rows ih =>
      obtain ⟨hread, hadvances⟩ := hrows row List.mem_cons_self
      have hrest := ih fun row hrow => hrows row (List.mem_cons_of_mem _ hrow)
      rw [decodeRows]
      split
      · constructor
        · apply hread.bind hadvances
          · exact fun val => (hrest _).1
          · exact fun val => (hrest _).2
        · exact hadvances.bind fun val => (hrest _).2
      · exact hrest properties

theorem decodePropertiesBasic_local : Local decodePropertiesBasic := by
  apply (unpackFrom_local 2).bind (unpackFrom_advances 2)
  · exact fun flags => (decodeRows_local flags basicRows_local []).1
  · exact fun flags => (decodeRows_local flags basicRows_local []).2

end Formats

/-- Values with their type codes, the fields of every format and the property blocks of
contents are self-delimiting: what stands around them does not change what they stand for. -/
theorem encodings_selfDelimiting :
    SelfDelimiting readItem ∧ (∀ format, SelfDelimiting (loads format)) ∧
      SelfDelimiting decodePropertiesBasic := by
  refine ⟨readItem_local.selfDelimiting, fun format => ?_, decodePropertiesBasic_local.selfDelimiting⟩
  exact (loadsLoop_local format {}).selfDelimiting

end PyAmqp
