import PyAmqp.Serialization.Value
import PyAmqp.Base.Cursor
import PyAmqp.Base.Assoc

/-!
The decoder of `amqp/serialization.py`. Every `unpack_from` or slice with the
`offset +=` after it is one cursor step, so `loads format buf offset` returns the
values with the offset after them.
-/

namespace PyAmqp

abbrev Reader (α : Type) := Cursor UInt8 PyError α

/-- `unpack_from('>B')`, `'>H'`, `'>I'` and `'>Q'`, by width. -/
def unpackFrom (width : Nat) : Reader Nat := do
  return BigEndian.decode (← Cursor.exactly .structError width)

/-- `unpack_from('>b')`, `'>h'`, `'>i'` and `'>q'`, by width. -/
def unpackSigned (width : Nat) : Reader Int := do
  return BigEndian.decodeInt (← Cursor.exactly .structError width)

/-- `bytes_to_str` -/
def bytesToStr (octets : Octets) : Except PyError PyStr :=
  match Utf8.decode octets with
  | some text => .ok text
  | none => .error .unicodeDecodeError

/-- A long string: text where the octets are UTF-8, the octets themselves where not. -/
def strOrBytes (octets : Octets) : Value :=
  match Utf8.decode octets with
  | some text => .str text
  | none => .bytes octets

/-- Octets behind a length of `width` octets, cut short at the end of the buffer. -/
def readSized (width : Nat) : Reader Octets := do
  let size ← unpackFrom width
  Cursor.slice size

def readText (width : Nat) : Reader PyStr := do
  let octets ← readSized width
  Cursor.liftExcept (bytesToStr octets)

/-- One round of the loop over a table: `val[key], offset = ...`. -/
def readEntry (item : Reader Value) (table : List (PyStr × Value)) :
    Reader (List (PyStr × Value)) := do
  let key ← readText 1
  let value ← item
  return Assoc.set table key value

/-- One round of the loop over an array. -/
def readElement (item : Reader Value) (values : List Value) : Reader (List Value) := do
  let value ← item
  return values ++ [value]

/-- A table: its size in octets, and the entries up to that limit. -/
def readTable (item : Reader Value) : Reader (List (PyStr × Value)) := do
  let size ← unpackFrom 4
  Cursor.within .outOfFuel size (readEntry item) []

/-- An array: its size in octets, and the elements up to that limit. -/
def readArray (item : Reader Value) : Reader (List Value) := do
  let size ← unpackFrom 4
  Cursor.within .outOfFuel size (readElement item) []

/-- `_read_item` after the type code; `item` reads the nested values. -/
def readField (item : Reader Value) : Char → Reader Value
  | 'S' => do return strOrBytes (← readSized 4)
  | 's' => do return .str (← readText 1)
  | 'x' => do return .bytes (← readSized 4)
  | 'b' => do return .int (← unpackFrom 1)
  | 'B' => do return .int (← unpackSigned 1)
  | 'U' => do return .int (← unpackSigned 2)
  | 'u' => do return .int (← unpackFrom 2)
  | 'I' => do return .int (← unpackSigned 4)
  | 'i' => do return .int (← unpackFrom 4)
  | 'L' => do return .int (← unpackSigned 8)
  | 'l' => do return .int (← unpackFrom 8)
  | 'f' => do return .float (Ieee754.widen (UInt32.ofNat (← unpackFrom 4)))
  | 'd' => do return .float (UInt64.ofNat (← unpackFrom 8))
  | 'D' => do
      let places ← unpackFrom 1
      let n ← unpackSigned 4
      return .decimal (Decimal.divPow10 n places)
  | 'F' => do return .dict (← readTable item)
  | 'A' => do return .list (← readArray item)
  | 't' => do return .bool ((← unpackFrom 1) ≠ 0)
  | 'T' => do
      let seconds ← unpackFrom 8
      let t ← Cursor.liftExcept (DateTime.fromtimestamp seconds)
      return .datetime t
  | 'V' => return .none
  | ftype =>
      Cursor.fail (.amqp { cls := .frameSyntaxError, replyText := .unknownValueInTable ftype })

/-- `_read_item`, nested at most `depth` times. -/
def readItemWithin : Nat → Reader Value
  | 0 => Cursor.fail .outOfFuel
  | depth + 1 => do
      let octet ← Cursor.index .indexError
      readField (readItemWithin depth) (Char.ofNat octet.toNat)

/-- `_read_item`: a value nested deeper than the buffer is long cannot be read. -/
def readItem : Reader Value := fun buf offset => readItemWithin (buf.length + 1) buf offset

/-- The locals `bitcount` and `bits` of `loads`. -/
structure Bits where
  bitcount : Nat := 0
  bits : Nat := 0

/-- `ord(octets)` -/
def ord : Octets → Except PyError Nat
  | [octet] => .ok octet.toNat
  | _ => .error .typeError

/-- One round of `loads`. A byte array leaves the bits as they are; every other field
but a bit drops what is left of the current octet. -/
def loadsStep (p : Char) (b : Bits) : Reader (Value × Bits) :=
  match p with
  | 'b' => do
      let b ← if b.bitcount = 0 then do
          let octets ← Cursor.slice 1
          let bits ← Cursor.liftExcept (ord octets)
          pure { bitcount := 8, bits }
        else pure b
      return (.bool (b.bits &&& 1 = 1), { bitcount := b.bitcount - 1, bits := b.bits >>> 1 })
  | 'o' => do return (.int (← unpackFrom 1), {})
  | 'B' => do return (.int (← unpackFrom 2), {})
  | 'l' => do return (.int (← unpackFrom 4), {})
  | 'L' => do return (.int (← unpackFrom 8), {})
  | 'f' => do return (.float (Ieee754.widen (UInt32.ofNat (← unpackFrom 4))), {})
  | 's' => do return (.str (← readText 1), {})
  | 'S' => do return (.str (← readText 4), {})
  | 'x' => do return (.bytes (← readSized 4), b)
  | 'F' => do return (.dict (← readTable readItem), {})
  | 'A' => do return (.list (← readArray readItem), {})
  | 'T' => do
      let seconds ← unpackFrom 8
      let t ← Cursor.liftExcept (DateTime.fromtimestamp seconds)
      return (.datetime t, {})
  | p => Cursor.fail (.amqp { cls := .frameSyntaxError, replyText := .illegalTableType p })

def loadsLoop : List Char → Bits → Reader (List Value)
  | [], _ => return []
  | p :: format, b => do
      let (value, b) ← loadsStep p b
      let values ← loadsLoop format b
      return value :: values

/-- `loads` -/
def loads (format : List Char) : Reader (List Value) := loadsLoop format {}

end PyAmqp
