import PyAmqp.Serialization.Dumps
import PyAmqp.Serialization.Loads
import PyAmqp.Base.Effect

/-!
`GenericContent` of `amqp/serialization.py` and the `Message` of
`amqp/basic_message.py`: a content's properties with their flag words, and the body
a received content is put together from.
-/

namespace PyAmqp

/-- The dictionary of a content's properties. -/
abbrev Properties := List (String × Value)

/-- `Message.PROPERTIES` -/
def basicProperties : List (String × String) :=
  [("content_type", "s"),
    ("content_encoding", "s"),
    ("application_headers", "F"),
    ("delivery_mode", "o"),
    ("priority", "o"),
    ("correlation_id", "s"),
    ("reply_to", "s"),
    ("expiration", "s"),
    ("message_id", "s"),
    ("timestamp", "L"),
    ("type", "s"),
    ("user_id", "s"),
    ("app_id", "s"),
    ("cluster_id", "s")]

/-! Writing properties -/

/-- The locals of `_serialize_properties`. -/
structure PropertyWriter where
  shift : Int := 15
  flagBits : Nat := 0
  flags : List Nat := []
  sformat : List Char := []
  svalues : List Value := []

/-- A property that is set: a new flag word where the last one is full, and the bit. A
shift by a negative count raises. -/
def PropertyWriter.set (w : PropertyWriter) (proptype : String) (val : Value) :
    Except PyError PropertyWriter :=
  let w := if w.shift = 0 then
      { w with flags := w.flags ++ [w.flagBits], flagBits := 0, shift := 15 }
    else w
  if w.shift < 0 then .error .valueError
  else
    let w := { w with flagBits := w.flagBits ||| 1 <<< w.shift.toNat }
    if proptype ≠ "bit" then
      .ok { w with sformat := w.sformat ++ proptype.toList, svalues := w.svalues ++ [val] }
    else .ok w

/-- Where there is room in the word, a property that is set gets its bit in it. -/
theorem PropertyWriter.set_pos {w : PropertyWriter} (proptype : String) (val : Value)
    (hw : 0 < w.shift) :
    w.set proptype val = .ok { w with
      flagBits := w.flagBits ||| 2 ^ w.shift.toNat
      sformat := w.sformat ++ if proptype = "bit" then [] else proptype.toList
      svalues := w.svalues ++ if proptype = "bit" then [] else [val] } := by
  have hzero : ¬ w.shift = 0 := by omega
  have hneg : ¬ w.shift < 0 := by omega
  by_cases hbit : proptype = "bit"
  · simp [PropertyWriter.set, hzero, hneg, hbit, Nat.one_shiftLeft]
  · simp [PropertyWriter.set, hzero, hneg, hbit, Nat.one_shiftLeft]

/-- In a word that is full it begins the next one. -/
theorem PropertyWriter.set_zero {w : PropertyWriter} (proptype : String) (val : Value)
    (hw : w.shift = 0) :
    w.set proptype val =
      { w with flags := w.flags ++ [w.flagBits], flagBits := 0, shift := 15 }.set proptype val := by
  simp [PropertyWriter.set, hw]

theorem PropertyWriter.set_neg {w : PropertyWriter} (proptype : String) (val : Value)
    (hw : w.shift < 0) : w.set proptype val = .error .valueError := by
  have hzero : ¬ w.shift = 0 := by omega
  simp [PropertyWriter.set, hzero, hw]

/-- `props.get(key, None)`, where an entry that is `None` counts as absent. -/
def Properties.present (props : Properties) (key : String) : Option Value :=
  match Assoc.get? props key with
  | some .none => none
  | found => found

/-- The loop of `_serialize_properties`. -/
def serializeLoop (props : Properties) :
    List (String × String) → PropertyWriter → Except PyError PropertyWriter
  | [], w => .ok w
  | (key, proptype) :: rest, w => do
      let w ← match props.present key with
        | some val => w.set proptype val
        | none => pure w
      serializeLoop props rest { w with shift := w.shift - 1 }

def packFlags : List Nat → Except PyError Octets
  | [] => .ok []
  | flagBits :: rest => do
      let word ← pack 2 flagBits
      let words ← packFlags rest
      return word ++ words

/-- `_serialize_properties`, for the class's own `PROPERTIES`. -/
def serializeProperties (properties : List (String × String)) (props : Properties) :
    Except PyError Octets := do
  let w ← serializeLoop props properties {}
  let words ← packFlags (w.flags ++ [w.flagBits])
  let values ← dumps w.sformat w.svalues
  return words ++ values

/-! Reading properties -/

def readShortstr : Reader Value := do return .str (← readText 1)

/-- `_f, offset = loads('F', buf, offset)` and `value, = _f` -/
def readHeaders : Reader Value := do
  match ← loads ['F'] with
  | [table] => return table
  | _ => Cursor.fail .valueError

def readOctet : Reader Value := do return .int (← unpackFrom 1)

def readLonglong : Reader Value := do return .int (← unpackFrom 8)

/-- The `if flags & mask` branches of `decode_properties_basic`. -/
def basicRows : List (Nat × String × Reader Value) :=
  [(0x8000, "content_type", readShortstr),
    (0x4000, "content_encoding", readShortstr),
    (0x2000, "application_headers", readHeaders),
    (0x1000, "delivery_mode", readOctet),
    (0x0800, "priority", readOctet),
    (0x0400, "correlation_id", readShortstr),
    (0x0200, "reply_to", readShortstr),
    (0x0100, "expiration", readShortstr),
    (0x0080, "message_id", readShortstr),
    (0x0040, "timestamp", readLonglong),
    (0x0020, "type", readShortstr),
    (0x0010, "user_id", readShortstr),
    (0x0008, "app_id", readShortstr),
    (0x0004, "cluster_id", readShortstr)]

def decodeRows (flags : Nat) :
    List (Nat × String × Reader Value) → Properties → Reader Properties
  | [], properties => return properties
  | (mask, key, read) :: rest, properties =>
      if flags &&& mask ≠ 0 then do
        let val ← read
        decodeRows flags rest (Assoc.set properties key val)
      else decodeRows flags rest properties

def decodePropertiesBasic : Reader Properties := do
  let flags ← unpackFrom 2
  decodeRows flags basicRows []

/-! Messages -/

/-- Text or octets, as callers pass them. -/
inductive Text where
  | str (text : PyStr)
  | bytes (octets : Octets)

/-- `str_to_bytes` -/
def Text.toBytes : Text → Octets
  | .str text => Utf8.encode text
  | .bytes octets => octets

/-- A `Message`: one to publish, or one being put together from its frames. -/
structure Message where
  frameMethod : Option MethodSig := none
  frameArgs : Option Octets := none
  properties : Properties := []
  body : Text := .str []
  pendingChunks : List Octets := []
  bodyReceived : Nat := 0
  bodySize : Nat := 0
  ready : Bool := false

/-- `unpack_from('>HxxQ')` -/
def unpackHeader : Reader (Nat × Nat) := do
  let classId ← unpackFrom 2
  let _ ← Cursor.exactly .structError 2
  let bodySize ← unpackFrom 8
  return (classId, bodySize)

/-- `_load_properties`; `PROPERTY_CLASSES` knows the class of `Basic` only. -/
def loadProperties (classId : Nat) (buf : Octets) (offset : Nat) :
    Effect Message PyError Nat :=
  if classId = Spec.Basic.classId then do
    let (props, offset) ← Effect.liftExcept (decodePropertiesBasic buf offset)
    Effect.modify fun msg => { msg with properties := props }
    return offset
  else Effect.raise .keyError

/-- `inbound_header`. The body size stays set when the properties cannot be read. -/
def inboundHeader (buf : Octets) (offset : Nat) : Effect Message PyError Nat := do
  let ((classId, bodySize), _) ← Effect.liftExcept (unpackHeader buf offset)
  Effect.modify fun msg => { msg with bodySize }
  let offset := offset + 12
  let _ ← loadProperties classId buf offset
  Effect.modify fun msg => if msg.bodySize = 0 then { msg with ready := true } else msg
  return offset

/-- `inbound_body` -/
def inboundBody (buf : Octets) (msg : Message) : Message :=
  let msg := { msg with bodyReceived := msg.bodyReceived + buf.length }
  if msg.bodyReceived ≥ msg.bodySize then
    if msg.pendingChunks ≠ [] then
      { msg with
        body := .bytes (msg.pendingChunks ++ [buf]).flatten, pendingChunks := [], ready := true }
    else { msg with body := .bytes buf, ready := true }
  else { msg with pendingChunks := msg.pendingChunks ++ [buf] }

end PyAmqp
