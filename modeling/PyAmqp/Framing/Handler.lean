import PyAmqp.Serialization.Content
import PyAmqp.Framing.Frame
import Mathlib.Logic.Function.Basic

/-!
`frame_handler` of `amqp/method_framing.py`: frames become methods and contents. The
two dictionaries of the closure are functions of the channel; a `defaultdict` reads
as its default where nothing was stored.
-/

namespace PyAmqp

/-- `_CONTENT_METHODS` -/
def contentMethods : List MethodSig :=
  [Spec.Basic.return, Spec.Basic.deliver, Spec.Basic.getOk]

/-- `unpack_from('>HH')` -/
def unpackMethodSig : Reader MethodSig := do
  let classId ← unpackFrom 2
  let methodId ← unpackFrom 2
  return (classId, methodId)

/-- The arguments the callback is called with. -/
structure Call where
  channel : Nat
  methodSig : Option MethodSig
  args : Option Octets
  content : Option Message

/-- The variables of the closure, with the connection's `bytes_recv` and the calls the
callback has had. -/
structure Handler where
  bytesRecv : Nat := 0
  expectedTypes : Nat → Nat := fun _ => 1
  partialMessages : Nat → Option Message := fun _ => none
  calls : List Call := []

namespace Handler

/-- `expected_types[channel] = frame_type` -/
def expect (channel frameType : Nat) (h : Handler) : Handler :=
  { h with expectedTypes := Function.update h.expectedTypes channel frameType }

/-- `partial_messages[channel] = msg`; `none` for `partial_messages.pop(channel, None)`. -/
def store (channel : Nat) (msg : Option Message) (h : Handler) : Handler :=
  { h with partialMessages := Function.update h.partialMessages channel msg }

/-- `partial_messages[channel]`, changed in place by `m`. -/
def onPartial {α : Type} (channel : Nat) (m : Effect Message PyError α) :
    Effect Handler PyError (α × Message) := fun h =>
  match h.partialMessages channel with
  | none => (.error .keyError, h)
  | some msg =>
      let (r, msg) := m msg
      (r.map fun a => (a, msg), h.store channel (some msg))

section Partial

variable {α : Type} {channel : Nat} {m : Effect Message PyError α} {h : Handler}

theorem onPartial_none (hheld : h.partialMessages channel = none) :
    onPartial channel m h = (.error .keyError, h) := by
  simp only [onPartial, hheld]

theorem onPartial_some {msg msg' : Message} {r : Except PyError α}
    (hheld : h.partialMessages channel = some msg) (hrun : m msg = (r, msg')) :
    onPartial channel m h = (r.map fun a => (a, msg'), h.store channel (some msg')) := by
  simp only [onPartial, hheld, hrun]

end Partial

end Handler

/-- A callback that only notes its calls. -/
def record (call : Call) : Effect Handler PyError Unit :=
  Effect.modify fun h => { h with calls := h.calls ++ [call] }

/-- The content of a channel is complete. -/
def finish (callback : Call → Effect Handler PyError Unit) (channel : Nat) (msg : Message) :
    Effect Handler PyError Bool := do
  Effect.modify (Handler.expect channel 1)
  Effect.modify (Handler.store channel none)
  callback { channel, methodSig := msg.frameMethod, args := msg.frameArgs, content := some msg }
  return true

def unexpectedFrame (frameType expected : Nat) : PyError :=
  .amqp { cls := .unexpectedFrame, replyText := .receivedFrame frameType expected }

/-- `on_frame` -/
def onFrame (callback : Call → Effect Handler PyError Unit) (frame : Frame) :
    Effect Handler PyError Bool := do
  Effect.modify fun h => { h with bytesRecv := h.bytesRecv + 1 }
  let h ← Effect.get
  let expected := h.expectedTypes frame.channel
  if frame.frameType ≠ expected ∧ frame.frameType ≠ 8 then
    Effect.raise (unexpectedFrame frame.frameType expected)
  else if frame.frameType = 1 then do
    let (sig, _) ← Effect.liftExcept (unpackMethodSig frame.payload 0)
    if sig ∈ contentMethods then do
      Effect.modify (Handler.store frame.channel
        (some { frameMethod := some sig, frameArgs := some frame.payload }))
      Effect.modify (Handler.expect frame.channel 2)
      return false
    else do
      callback
        { channel := frame.channel, methodSig := some sig, args := some frame.payload,
          content := none }
      return true
  else if frame.frameType = 2 then do
    let (_, msg) ← Handler.onPartial frame.channel (inboundHeader frame.payload 0)
    if msg.ready then finish callback frame.channel msg
    else do
      Effect.modify (Handler.expect frame.channel 3)
      return false
  else if frame.frameType = 3 then do
    let (_, msg) ← Handler.onPartial frame.channel
      (Effect.modify (inboundBody frame.payload))
    if msg.ready then finish callback frame.channel msg else return false
  else if frame.frameType = 8 then return false
  else return true

/-- What came of a frame: the value returned or raised, and the calls made. -/
structure Outcome where
  returned : Except PyError Bool
  calls : List Call

/-- One frame, with a callback that notes its calls. -/
def onFrameStep (h : Handler) (frame : Frame) : Outcome × Handler :=
  let (returned, h') := onFrame record frame h
  ({ returned, calls := h'.calls.drop h.calls.length }, h')

end PyAmqp
