import PyAmqp.Serialization.Content
import PyAmqp.Framing.Frame

/-!
`frame_writer` of `amqp/method_framing.py`. The writer keeps everything it handed to
`transport.write`; whether a write raises may depend on all of it. How text is
encoded is up to the codec its encoding names.
-/

namespace PyAmqp

/-- The outcome of `transport.write`, by what it has been handed so far. -/
abbrev TransportWrite := List Octets → Except PyError Unit

/-- `text.encode(encoding)` -/
abbrev Codec := Value → PyStr → Except PyError Octets

/-- `FRAME_OVERHEAD` -/
def frameOverhead : Nat := 40

/-- The connection's `frame_max` and `bytes_sent`, the writer's output buffer, and what
was handed to the transport. -/
structure Writer where
  frameMax : Nat
  buf : Octets
  bytesSent : Nat := 0
  handed : List Octets := []

namespace Writer

/-- `connection.frame_max - 8` -/
def chunkSize (w : Writer) : Int := w.frameMax - 8

/-- A new writer: `bytearray` raises for a negative size. -/
def new (frameMax : Nat) : Except PyError Writer :=
  if frameMax < 8 then .error .valueError
  else .ok { frameMax, buf := List.replicate (frameMax - 8) 0 }

/-- `self.frame_max = frame_max or self.frame_max` of `_on_tune`. -/
def onTune (frameMax : Nat) (w : Writer) : Writer :=
  { w with frameMax := if frameMax = 0 then w.frameMax else frameMax }

end Writer

/-- `transport.write(s)` -/
def transportWrite (transport : TransportWrite) (s : Octets) : Effect Writer PyError Unit :=
  fun w => (transport (w.handed ++ [s]), { w with handed := w.handed ++ [s] })

/-- The encoded body and the properties as they are then. Text without an encoding gets
`utf-8`, which becomes one of the content's properties. -/
def encodeBody (codec : Codec) (content : Message) : Except PyError (Octets × Properties) :=
  match content.body with
  | .bytes body => .ok (body, content.properties)
  | .str text => do
      let (encoding, properties) :=
        Assoc.setdefault content.properties "content_encoding" (.str (PyStr.ofString "utf-8"))
      let body ← codec encoding text
      return (body, properties)

/-- The payload of the first frame: a method's signature with its arguments. -/
def methodPayload (frameType : Nat) (methodSig : Option MethodSig) (args : Option Octets) :
    Except PyError Octets :=
  if frameType = 1 then
    match methodSig, args with
    | some sig, some args => do
        let classId ← pack 2 sig.1
        let methodId ← pack 2 sig.2
        return classId ++ methodId ++ args
    | _, _ => .error .typeError
  else .ok []

/-- The payload of a content header. -/
def headerPayload (methodSig : Option MethodSig) (bodyLen : Nat) (properties : Octets) :
    Except PyError Octets :=
  match methodSig with
  | some sig => do
      let classId ← pack 2 sig.1
      let weight ← pack 2 0
      let bodySize ← pack 8 bodyLen
      return classId ++ weight ++ bodySize ++ properties
  | none => .error .typeError

/-- `range(0, stop, step)` -/
def range (stop : Nat) (step : Int) : Except PyError (List Nat) :=
  if step = 0 then .error .valueError
  else if step < 0 then .ok []
  else .ok ((List.range ((stop + step.toNat - 1) / step.toNat)).map fun i => i * step.toNat)

/-- A frame of its own, written as soon as it is packed. -/
def writePacked (transport : TransportWrite) (frameType channel : Nat) (payload : Octets) :
    Effect Writer PyError Unit := do
  let frame ← Effect.liftExcept (packFrame frameType channel payload)
  transportWrite transport frame

/-- The slow path: a write for every frame. -/
def writeSlow (transport : TransportWrite) (frameType channel : Nat)
    (methodSig : Option MethodSig) (args : Option Octets) (properties body : Octets)
    (chunkSize : Int) : Effect Writer PyError Unit := do
  let frame ← Effect.liftExcept (methodPayload frameType methodSig args)
  writePacked transport frameType channel frame
  if body ≠ [] then do
    let frame ← Effect.liftExcept (headerPayload methodSig body.length properties)
    writePacked transport 2 channel frame
    let offsets ← Effect.liftExcept (range body.length chunkSize)
    Effect.forEach (fun i =>
      writePacked transport 3 channel ((body.drop i).take chunkSize.toNat)) offsets
  else pure ()

/-- `pack_into`, with the `offset += 8 + framelen` after it. -/
def packInto (offset frameType channel : Nat) (payload : Octets) :
    Effect Writer PyError Nat := do
  let frame ← Effect.liftExcept (packFrame frameType channel payload)
  let w ← Effect.get
  if offset + frame.length ≤ w.buf.length then do
    Effect.modify fun w => { w with
      buf := w.buf.take offset ++ frame ++ w.buf.drop (offset + frame.length) }
    return offset + (8 + payload.length)
  else Effect.raise .structError

/-- The fast path: all frames packed into the buffer, and a single write. -/
def writeFast (transport : TransportWrite) (frameType channel : Nat)
    (methodSig : Option MethodSig) (args : Option Octets)
    (content : Option (Octets × Octets)) (chunkSize : Int) : Effect Writer PyError Unit := do
  Effect.modify fun w =>
    if chunkSize > w.buf.length then { w with buf := List.replicate chunkSize.toNat 0 } else w
  let frame ← Effect.liftExcept (methodPayload frameType methodSig args)
  let offset ← packInto 0 frameType channel frame
  let offset ← match content with
    | some (properties, body) => do
        let frame ← Effect.liftExcept (headerPayload methodSig body.length properties)
        let offset ← packInto offset 2 channel frame
        if body.length > 0 then packInto offset 3 channel body else pure offset
    | none => pure offset
  let w ← Effect.get
  transportWrite transport (w.buf.take offset)

/-- `write_frame` -/
def writeFrame (transport : TransportWrite) (codec : Codec) (frameType channel : Nat)
    (methodSig : Option MethodSig) (args : Option Text) (content : Option Message) :
    Effect Writer PyError Unit := do
  let w ← Effect.get
  let args := args.map Text.toBytes
  match content with
  | some content => do
      let (body, props) ← Effect.liftExcept (encodeBody codec content)
      let properties ← Effect.liftExcept (serializeProperties basicProperties props)
      let argsLen ← Effect.liftExcept
        (match args with
          | some args => .ok args.length
          | none => .error .typeError)
      if argsLen + properties.length + body.length + frameOverhead > w.chunkSize then
        writeSlow transport frameType channel methodSig args properties body w.chunkSize
      else
        writeFast transport frameType channel methodSig args (some (properties, body))
          w.chunkSize
  | none => writeFast transport frameType channel methodSig args none w.chunkSize
  Effect.modify fun w => { w with bytesSent := w.bytesSent + 1 }

/-- The arguments of a call of `write_frame`. -/
structure WriteCall where
  frameType : Nat
  channel : Nat
  methodSig : Option MethodSig
  args : Option Text
  content : Option Message

def WriteCall.run (transport : TransportWrite) (codec : Codec) (call : WriteCall) :
    Effect Writer PyError Unit :=
  writeFrame transport codec call.frameType call.channel call.methodSig call.args call.content

end PyAmqp
