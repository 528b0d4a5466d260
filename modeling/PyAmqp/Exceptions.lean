import PyAmqp.Spec
import PyAmqp.Base.Utf8

/-!
The exceptions the library raises or lets through. An `AMQPError` keeps its class,
reply text, method signature and reply code; Python's own errors keep what the
library's handlers look at, an `errno` or whether the text says "timed out".
-/

namespace PyAmqp

abbrev PyStr := List Utf8.CodePoint

def PyStr.ofString (s : String) : PyStr := s.toList.map fun c => Utf8.point c.toNat

/-- The classes of `amqp/exceptions.py`. -/
inductive ErrorClass where
  | connectionError
  | channelError
  | recoverableChannelError
  | irrecoverableChannelError
  | recoverableConnectionError
  | irrecoverableConnectionError
  | consumerCancelled
  | contentTooLarge
  | noConsumers
  | connectionForced
  | invalidPath
  | accessRefused
  | notFound
  | resourceLocked
  | preconditionFailed
  | frameError
  | frameSyntaxError
  | invalidCommand
  | channelNotOpen
  | unexpectedFrame
  | resourceError
  | notAllowed
  | amqpNotImplementedError
  | internalError
  deriving DecidableEq, Repr

/-- The class attribute `code`. -/
def ErrorClass.code : ErrorClass → Nat
  | .contentTooLarge => 311
  | .noConsumers => 313
  | .connectionForced => 320
  | .invalidPath => 402
  | .accessRefused => 403
  | .notFound => 404
  | .resourceLocked => 405
  | .preconditionFailed => 406
  | .frameError => 501
  | .frameSyntaxError => 502
  | .invalidCommand => 503
  | .channelNotOpen => 504
  | .unexpectedFrame => 505
  | .resourceError => 506
  | .notAllowed => 530
  | .amqpNotImplementedError => 540
  | .internalError => 541
  | _ => 0

/-- Reply texts, by what their format strings are filled with. -/
inductive ReplyText where
  /-- A fixed text of the library. -/
  | fixed (text : String)
  /-- A text received from the server. -/
  | received (text : PyStr)
  /-- `Unknown value in table: {!r} ({!r})` -/
  | unknownValueInTable (ftype : Char)
  /-- `Table type {0!r} not handled by amqp.` -/
  | illegalTableType (p : Char)
  /-- `Table type {0!r} for key {1!r} not handled by amqp. [value: {2!r}]` -/
  | illegalTableTypeWithKey (type : String) (key : List UInt8) (value : PyStr)
  /-- `Table type {0!r} not handled by amqp. [value: {1!r}]` -/
  | illegalTableTypeWithValue (type : String) (value : PyStr)
  /-- `Received frame {} while expecting type: {}` -/
  | receivedFrame (frameType expected : Nat)
  /-- `Received frame_end {frame_end:#04x} while expecting 0xce` -/
  | receivedFrameEnd (frameEnd : Nat)
  /-- `Unknown AMQP method {method_sig!r}` -/
  | unknownMethod (sig : MethodSig)
  /-- `No free channel ids, current={}, channel_max={}` -/
  | noFreeChannelIds (current channelMax : Nat)
  /-- `Channel {channel_id!r} already open` -/
  | channelAlreadyOpen (channelId : Nat)
  /-- `Couldn't find appropriate auth mechanism (can offer: {}; available: {})` -/
  | noAuthMechanism (offered available : List (List UInt8))
  deriving DecidableEq, Repr

structure AMQPError where
  cls : ErrorClass
  replyText : ReplyText
  methodSig : Option MethodSig := none
  replyCode : Nat := cls.code
  deriving DecidableEq, Repr

/-- What a `raise` carries. `application n` is an exception of the user's own. The last
two are no Python exceptions: `outOfFuel` marks a bound of the model that is never
reached, and `blocked` a call that waits for good. -/
inductive PyError where
  | socketTimeout
  | osError (errno : Option Nat)
  | sslError (errno : Option Nat) (timedOut : Bool)
  | structError
  | indexError
  | keyError
  | lookupError
  | typeError
  | attributeError
  | valueError
  | unicodeDecodeError
  | unicodeEncodeError
  | overflowError
  | stopIteration
  | messageNacked
  | amqp (error : AMQPError)
  | application (n : Nat)
  | outOfFuel
  | blocked
  deriving DecidableEq, Repr

/-- `exc.errno`, where the exception has one. -/
def PyError.errno? : PyError → Option Nat
  | osError errno => errno
  | sslError errno _ => errno
  | _ => none

/-- `isinstance(exc, OSError)`: socket errors, timeouts and SSL errors are. -/
def PyError.isOSError : PyError → Bool
  | socketTimeout | osError _ | sslError _ _ => true
  | _ => false

/-- `isinstance(exc, SSLError) and 'timed out' in str(exc)` -/
def PyError.isSslTimeout : PyError → Bool
  | sslError _ timedOut => timedOut
  | _ => false

section Results

variable {α β : Type} {e : PyError}

@[simp] theorem ok_bind (a : α) (k : α → Except PyError β) : (Except.ok a >>= k) = k a := by
  simp only [bind, Except.bind]

@[simp] theorem error_bind (k : α → Except PyError β) :
    ((Except.error e : Except PyError α) >>= k) = .error e := by
  simp only [bind, Except.bind]

@[simp] theorem map_ok (f : α → β) (a : α) :
    f <$> (Except.ok a : Except PyError α) = .ok (f a) := by
  simp only [Functor.map, Except.map]

/-- A sequence returns only through both of its parts. -/
theorem bind_eq_ok {m : Except PyError α} {k : α → Except PyError β} {b : β}
    (h : (m >>= k) = .ok b) : ∃ a, m = .ok a ∧ k a = .ok b := by
  cases m with
  | ok a => exact ⟨a, rfl, by rwa [ok_bind] at h⟩
  | error e => simp at h

end Results

/-- `isinstance(exc, ValueError)` -/
def PyError.isValueError : PyError → Bool
  | .valueError | .unicodeDecodeError | .unicodeEncodeError => true
  | _ => false

def recoverableConnectionError (text : String) : PyError :=
  .amqp { cls := .recoverableConnectionError, replyText := .fixed text }

def errorMap : List (Nat × ErrorClass) :=
  [(311, .contentTooLarge), (313, .noConsumers), (320, .connectionForced),
    (402, .invalidPath), (403, .accessRefused), (404, .notFound), (405, .resourceLocked),
    (406, .preconditionFailed), (501, .frameError), (502, .frameSyntaxError),
    (503, .invalidCommand), (504, .channelNotOpen), (505, .unexpectedFrame),
    (506, .resourceError), (530, .notAllowed), (540, .amqpNotImplementedError),
    (541, .internalError)]

def errorForCode (code : Nat) (text : PyStr) (method : MethodSig) (default : ErrorClass) :
    AMQPError :=
  let cls := (errorMap.lookup code).getD default
  { cls, replyText := .received text, methodSig := some method,
    replyCode := if code = 0 then cls.code else code }

end PyAmqp
