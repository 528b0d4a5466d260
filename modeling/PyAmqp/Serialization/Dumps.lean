import Mathlib.Data.List.Induction
import PyAmqp.Serialization.Value

/-!
The encoder of `amqp/serialization.py`: `dumps` with the writers it calls. A
writer returns the octets it writes; what it wrote before an exception is dropped
with the buffer it wrote to.
-/

namespace PyAmqp

/-- `pack('>B')`, `'>H'`, `'>I'` and `'>Q'`, by width. -/
def pack (width : Nat) (n : Int) : Except PyError Octets :=
  if 0 ≤ n ∧ n < 256 ^ width then .ok (BigEndian.encode width n.toNat)
  else .error .structError

/-- `pack('>i')` and `'>q'`, by width. -/
def packSigned (width : Nat) (i : Int) : Except PyError Octets :=
  if -(256 ^ width) ≤ 2 * i ∧ 2 * i < 256 ^ width then .ok (BigEndian.encodeInt width i)
  else .error .structError

/-- `pack('>f')` of a float, or what is raised when it is too large. -/
def packSingle (tooLarge : PyError) (bits : UInt64) : Except PyError Octets :=
  match Ieee754.narrow bits with
  | some single => .ok (BigEndian.encode 4 single.toNat)
  | none => .error tooLarge

/-- `pack('>f')`, which takes what `float` does; for an integer that is too large
`struct.error` is raised. -/
def packFloat : Value → Except PyError Octets
  | .float bits => packSingle .overflowError bits
  | .decimal d =>
      match d.toFloat with
      | some bits => packSingle .overflowError bits
      | none => .error .structError
  | v => do
      let i ← v.index
      match Ieee754.ofRat (decide (i < 0)) i.natAbs with
      | some bits => packSingle .structError bits
      | none => .error .structError

def code (c : Char) : UInt8 := UInt8.ofNat c.toNat

/-- Octets behind a length of `width` octets. -/
def writeSized (width : Nat) (data : Octets) : Except PyError Octets := do
  let size ← pack width data.length
  return size ++ data

def syntaxError (text : ReplyText) : PyError :=
  .amqp { cls := .frameSyntaxError, replyText := text }

/-- `except ValueError: raise FrameSyntaxError(...)`, whose text is formatted there. -/
def orSyntaxError (text : Except PyError ReplyText) : Except PyError Octets → Except PyError Octets
  | .ok octets => .ok octets
  | .error e =>
      if e.isValueError then
        match text with
        | .ok text => .error (syntaxError text)
        | .error e' => .error e'
      else .error e

mutual

/-- `_write_item` -/
def writeItem : Value → Except PyError Octets
  | .str text => do
      let sized ← writeSized 4 (Utf8.encode text)
      return code 'S' :: sized
  | .bytes octets => do
      let sized ← writeSized 4 octets
      return code 'S' :: sized
  | .bool b => .ok [code 't', if b then 1 else 0]
  | .float bits => .ok (code 'd' :: BigEndian.encode 8 bits.toNat)
  | .int i =>
      if i > 2147483647 ∨ i < -2147483647 then do
        let word ← packSigned 8 i
        return code 'L' :: word
      else do
        let word ← packSigned 4 i
        return code 'I' :: word
  | .decimal d =>
      let (sign, digits, exponent) := d.asTuple
      let n : Nat := digits.foldl (fun v digit => v * 10 + digit) 0
      match exponent with
      | none => .error .typeError
      | some exponent => do
          let places ← pack 1 (-exponent)
          let word ← packSigned 4 (Decimal.signed sign n)
          return code 'D' :: (places ++ word)
  | .datetime t => do
      let seconds ← t.timegm
      let word ← pack 8 seconds
      return code 'T' :: word
  | .dict entries => do
      let data ← writeEntries entries
      let sized ← writeSized 4 data
      return code 'F' :: sized
  | .list items => do
      let data ← writeElements items
      let sized ← writeSized 4 data
      return code 'A' :: sized
  | .tuple items => do
      let data ← writeElements items
      let sized ← writeSized 4 data
      return code 'A' :: sized
  | .none => .ok [code 'V']
  | .other _ _ => .error .valueError

/-- The loop of `_write_table`. -/
def writeEntries : List (PyStr × Value) → Except PyError Octets
  | [] => .ok []
  | (key, value) :: rest => do
      let key := Utf8.encode key
      let sizedKey ← writeSized 1 key
      let item ← orSyntaxError (.illegalTableTypeWithKey value.typeName key <$> value.repr)
        (writeItem value)
      let data ← writeEntries rest
      return sizedKey ++ item ++ data

/-- The loop of `_write_array`. -/
def writeElements : List Value → Except PyError Octets
  | [] => .ok []
  | value :: rest => do
      let item ← orSyntaxError (.illegalTableTypeWithValue value.typeName <$> value.repr)
        (writeItem value)
      let data ← writeElements rest
      return item ++ data

end

/-- `_write_table`: `d.items()` is there for a `dict` only. -/
def writeTable : Value → Except PyError Octets
  | .dict entries => do
      let data ← writeEntries entries
      writeSized 4 data
  | _ => .error .attributeError

/-- `_write_array` -/
def writeArray (v : Value) : Except PyError Octets := do
  let items ← v.iterate
  let data ← writeElements items
  writeSized 4 data

/-- The locals of `dumps`: the bits not yet written, and the output. -/
structure Dumper where
  bitcount : Nat := 0
  bits : List UInt8 := []
  out : Octets := []

/-- `bits[-1] |= x` -/
def orLast (bits : List UInt8) (x : UInt8) : List UInt8 :=
  match bits.getLast? with
  | some last => bits.dropLast ++ [last ||| x]
  | none => []

theorem orLast_append (bits : List UInt8) (x y : UInt8) :
    orLast (bits ++ [x]) y = bits ++ [x ||| y] := by
  simp [orLast]

theorem orLast_orLast (bits : List UInt8) (x y : UInt8) :
    orLast (orLast bits x) y = orLast bits (x ||| y) := by
  induction bits using List.reverseRecOn with
  | nil => rfl
  | append_singleton bits last => simp only [orLast_append, UInt8.or_assoc]

theorem orLast_zero (bits : List UInt8) (shift : Nat) :
    orLast bits (UInt8.ofNat (0 <<< shift)) = bits := by
  have hzero : UInt8.ofNat (0 <<< shift) = 0 := by simp
  rw [hzero]
  induction bits using List.reverseRecOn with
  | nil => rfl
  | append_singleton bits last => simp only [orLast_append, UInt8.or_zero]

theorem orLast_ne_nil {bits : List UInt8} (h : bits ≠ []) (x : UInt8) :
    orLast bits x ≠ [] := by
  induction bits using List.reverseRecOn with
  | nil => exact absurd rfl h
  | append_singleton bits last => simp [orLast_append]

namespace Dumper

def write (d : Dumper) (octets : Octets) : Dumper := { d with out := d.out ++ octets }

/-- `_flushbits` -/
def flushbits (d : Dumper) : Dumper :=
  { bitcount := 0, bits := [], out := d.out ++ d.bits }

end Dumper

/-- A string field: empty text stands in for a false value. -/
def writeText (width : Nat) (val : Value) : Except PyError Octets := do
  let val := (val.orElse (.str [])).strToBytes
  let length ← val.len
  let size ← pack width length
  let octets ← val.octets
  return size ++ octets

/-- The octets of a field other than a bit. -/
def dumpsField (p : Char) (val : Value) : Except PyError Octets :=
  match p with
  | 'o' => do pack 1 (← val.index)
  | 'B' => do pack 2 (← val.toInt)
  | 'l' => do pack 4 (← val.index)
  | 'L' => do pack 8 (← val.index)
  | 'f' => packFloat val
  | 's' => writeText 1 val
  | 'S' | 'x' => writeText 4 val
  | 'F' => writeTable (val.orElse (.dict []))
  | 'A' => writeArray (val.orElse (.list []))
  | 'T' =>
      match val with
      | .datetime t => do pack 8 (← t.timegm)
      | _ => .error .attributeError
  | _ => .ok []

/-- One round of `dumps`. The timestamp field does not flush the bits before it, and
a letter `dumps` does not know writes nothing. -/
def dumpsStep (p : Char) (val : Value) (d : Dumper) : Except PyError Dumper :=
  match p with
  | 'b' =>
      let bit := if val.truthy then 1 else 0
      let shift := d.bitcount % 8
      let bits := if shift = 0 then d.bits ++ [0] else d.bits
      .ok { d with
        bitcount := d.bitcount + 1, bits := orLast bits (UInt8.ofNat (bit <<< shift)) }
  | 'T' => do return d.write (← dumpsField 'T' val)
  | p =>
      if p ∈ ['o', 'B', 'l', 'L', 'f', 's', 'S', 'x', 'F', 'A'] then do
        return d.flushbits.write (← dumpsField p val)
      else .ok d

def dumpsLoop : List Char → List Value → Dumper → Except PyError Dumper
  | _, [], d => .ok d
  | [], _ :: _, _ => .error .indexError
  | p :: format, val :: values, d => do
      let d ← dumpsStep p val d
      dumpsLoop format values d

/-- `dumps` -/
def dumps (format : List Char) (values : List Value) : Except PyError Octets := do
  let d ← dumpsLoop format values {}
  return d.flushbits.out

end PyAmqp
