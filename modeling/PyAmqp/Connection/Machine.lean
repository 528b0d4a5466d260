import PyAmqp.Channel.Machine
import PyAmqp.Connection.Registry
import PyAmqp.Connection.Link

/-!
A connection with its channels as a machine. One drain loop reads the frames of all
channels, and methods that arrive run listeners, which may call the connection and its
channels again: one stack has the activations of all of them. Code of the user is
whatever calls, returns and raises while it is on top.
-/

namespace PyAmqp

namespace Connection

/-! Methods -/

/-- `Connection._METHODS`; all of them have listeners. -/
def methods : List AmqpMethod :=
  [{ methodSig := Spec.Connection.start, args := "ooFSS" },
    { methodSig := Spec.Connection.openOk },
    { methodSig := Spec.Connection.secure, args := "s" },
    { methodSig := Spec.Connection.tune, args := "BlB" },
    { methodSig := Spec.Connection.close, args := "BsBB" },
    { methodSig := Spec.Connection.blocked },
    { methodSig := Spec.Connection.unblocked },
    { methodSig := Spec.Connection.closeOk }]

/-- `self._METHODS[method_sig]` of the connection or of a channel. -/
def lookup (o : Nat) (sig : MethodSig) : Except PyError AmqpMethod :=
  if o = 0 then
    match methods.find? fun method => method.methodSig = sig with
    | some method => .ok method
    | none => .error (unknownMethod sig)
  else findMethod sig

/-- `_ALLOWED_METHODS_WHEN_CLOSING` -/
def allowedWhenClosing (o : Nat) : List MethodSig :=
  if o = 0 then [Spec.Connection.close, Spec.Connection.closeOk] else allowedMethodsWhenClosing

/-- The method has a listener. -/
def Listened (o : Nat) (sig : MethodSig) : Prop :=
  if o = 0 then sig ∈ methods.map AmqpMethod.methodSig else sig ∈ listeners

instance (o : Nat) (sig : MethodSig) : Decidable (Listened o sig) :=
  inferInstanceAs (Decidable (if o = 0 then sig ∈ methods.map AmqpMethod.methodSig
    else sig ∈ listeners))

/-- A SASL mechanism: its name, if it has one, and what `start` answers; `none` is
`NotImplemented`. -/
structure Mechanism where
  mechanism : Option Octets
  start : Except PyError (Option Octets)

/-- The outcomes of the frame writer and of closing a transport that has a socket, call by
call, the platform's error numbers, and what the connection was made with: its SASL mechanisms
and its `channel_max`. -/
structure Config where
  write : Nat → Except PyError Unit
  closing : Nat → Except PyError Unit := fun _ => .ok ()
  platform : Platform
  authentication : List Mechanism
  channelMax : Nat := 65535

/-- `octets.split(separator)` -/
def split (separator : UInt8) : Octets → List Octets
  | [] => [[]]
  | octet :: rest =>
      if octet = separator then [] :: split separator rest
      else match split separator rest with
        | [] => [[octet]]
        | piece :: pieces => (octet :: piece) :: pieces

/-- The loop over `self.authentication`; the response that `start` gives, of the first
mechanism that is offered and gives one. -/
def authenticate (offered : List Octets) : List Mechanism → Except PyError (Option Octets)
  | [] => .ok none
  | authentication :: rest =>
      match authentication.mechanism with
      | some mechanism =>
          if mechanism ∈ offered then do
            match ← authentication.start with
            | some response => return some response
            | none => authenticate offered rest
          else authenticate offered rest
      | none => authenticate offered rest

/-- A connection that writes everything and knows one mechanism, `A`. -/
def plainConfig : Config where
  write _ := .ok ()
  platform := { eagain := 11, eintr := 4, enoent := 2, ewouldblock := 11, nt := false }
  authentication := [{ mechanism := some [65], start := .ok (some []) }]

/-! The stack -/

/-- What a call of `wait` is part of: `Connection.close` of a transport, `Channel.open`,
`Channel.close`, the reopening after a `Channel.Close` with these arguments, or another
wait for some methods. -/
inductive Task where
  | closeConnection (transport : Nat)
  | «open»
  | closeChannel
  | revive (args : List Arg)
  | call (methods : List MethodSig) (callback : Option (Reply → Except PyError Unit))

namespace Task

def methods : Task → List MethodSig
  | closeConnection _ => [Spec.Connection.closeOk]
  | «open» | revive _ => [Spec.Channel.openOk]
  | closeChannel => [Spec.Channel.closeOk]
  | call methods _ => methods

def callback : Task → Option (Reply → Except PyError Unit)
  | call _ callback => callback
  | _ => none

/-- The object closes, or the connection does. -/
def closes : Task → Bool
  | closeConnection _ | closeChannel => true
  | _ => false

def isCloseConnection : Task → Bool
  | closeConnection _ => true
  | _ => false

def isCloseChannel : Task → Bool
  | closeChannel => true
  | _ => false

end Task

/-- The locals of a call of `wait` of the object `owner`. -/
structure Waiting (P : Promises Reply) where
  owner : Nat
  task : Task
  prev : List (Option Nat)
  promise : P.Promise

/-- `user` is code of the user, `connecting` the loop of `connect`, `dispatch` a
listener's `dispatch_method` with the promise to call after it, `wait` a call of `wait`. -/
inductive Activation where
  | user
  | connecting
  | dispatch (oneShot : Option (Nat × Reply))
  | wait (id : Nat)

namespace Activation

def isUser : Activation → Bool
  | user => true
  | _ => false

/-- It is reading from the connection while it runs. -/
def reads : Activation → Bool
  | dispatch _ => false
  | _ => true

end Activation

/-- The flags `is_closing`, the promises and the stack. -/
structure Calls (P : Promises Reply) where
  isClosing : Nat → Bool := fun _ => false
  pending : Nat → MethodSig → Option Nat := fun _ _ => none
  waits : Nat → Waiting P :=
    fun _ => { owner := 0, task := .open, prev := [], promise := P.make none }
  begun : Nat := 0
  stack : List Activation := [.user]

/-- A call that has ended, with what it left: a `connect` that returned, or the `close` of
a transport, however it ended. -/
inductive Entry where
  | connected (link : Link)
  | closed (transport : Nat) (registry : Registry) (link : Link)

namespace Calls

variable {P : Promises Reply}

def push (act : Activation) (k : Calls P) : Calls P := { k with stack := act :: k.stack }

def pop (k : Calls P) : Calls P := { k with stack := k.stack.tail }

def setClosing (o : Nat) (closing : Bool) (k : Calls P) : Calls P :=
  { k with isClosing := Function.update k.isClosing o closing }

/-- `self._pending.pop(method_sig)` -/
def take (o : Nat) (sig : MethodSig) (k : Calls P) : Calls P :=
  { k with pending := Function.update k.pending o (Function.update (k.pending o) sig none) }

/-- The start of `wait`. -/
def beginWait (o : Nat) (task : Task) (k : Calls P) : Calls P :=
  let (prev, pending) := ChannelCore.register k.begun task.methods (k.pending o)
  { k with
    pending := Function.update k.pending o pending
    waits := Function.update k.waits k.begun
      { owner := o, task, prev, promise := P.make task.callback }
    begun := k.begun + 1
    stack := .wait k.begun :: k.stack }

/-- The `finally` of `wait`, which ends. -/
def leaveWait (id : Nat) (k : Calls P) : Calls P :=
  let waiting := k.waits id
  { k with
    pending := Function.update k.pending waiting.owner
      (ChannelCore.restore (waiting.task.methods.zip waiting.prev) (k.pending waiting.owner))
    stack := k.stack.tail }

/-- A promise is called. -/
def call (id : Nat) (reply : Reply) (k : Calls P) : Except PyError Unit × Calls P :=
  let waiting := k.waits id
  let (outcome, promise) := P.call reply waiting.promise
  (outcome, { k with waits := Function.update k.waits id { waiting with promise } })

end Calls

end Connection

open Connection in
structure Connection (P : Promises Reply) extends Connection.Registry, Connection.Link,
    Connection.Calls P where
  isOpen : Nat → Bool := fun _ => false
  control : Control := .running
  writes : Nat := 0
  closes : Nat := 0
  log : List Connection.Entry := []

namespace Connection

variable {P : Promises Reply}

def goOn (control : Control) (s : Connection P) : Connection P := { s with control }

def push (act : Activation) (s : Connection P) : Connection P :=
  { s with toCalls := s.toCalls.push act }

def note (entry : Entry) (s : Connection P) : Connection P := { s with log := s.log ++ [entry] }

/-- An outcome as the control the code on top goes on with. -/
def finish (outcome : Except PyError Unit) (s : Connection P) : Connection P :=
  match outcome with
  | .ok () => goOn .returning s
  | .error e => goOn (.raising e) s

/-! Sending -/

def connectionClosed : PyError := recoverableConnectionError "connection already closed"

/-- `send_method` of an object, up to its `wait`. -/
def sendMethod (cfg : Config) (o : Nat) (sig : MethodSig) :
    Effect (Connection P) PyError Unit := fun s =>
  if s.attached o then
    match cfg.write s.writes with
    | .ok () =>
        (.ok (), { s with
          writes := s.writes + 1
          toLink := s.onWire s.frameWriter fun wire =>
            { wire with closeSent := wire.closeSent || sig = Spec.Connection.close } })
    | .error e =>
        (.error (if e = .stopIteration then connectionClosed else e), { s with
          writes := s.writes + 1
          toLink :=
            if drops cfg.platform e then
              s.onWire s.frameWriter fun wire => { wire with connected := false }
            else s.toLink })
  else (.error connectionClosed, s)

/-- `wait` enters its loop, which first looks at the promise. -/
def wait (o : Nat) (task : Task) (s : Connection P) : Connection P :=
  { s with toCalls := s.toCalls.beginWait o task, control := .returning }

/-- `send_method` with `wait`. -/
def sendAndWait (cfg : Config) (o : Nat) (sig : MethodSig) (task : Task) (s : Connection P) :
    Connection P :=
  match sendMethod cfg o sig s with
  | (.ok (), s) => wait o task s
  | (.error e, s) => goOn (.raising e) s

/-- A method is sent, and nothing is waited for. -/
def sendOnly (cfg : Config) (o : Nat) (sig : MethodSig) (s : Connection P) : Connection P :=
  let (outcome, s) := sendMethod cfg o sig s
  finish outcome s

/-! Teardown -/

/-- `Channel.collect` -/
def collectChannel (o : Nat) (s : Connection P) : Connection P :=
  { s with
    toRegistry := s.toRegistry.collectChannel o
    isOpen := Function.update s.isOpen o false }

/-- What `Connection.collect` does once the transport is closed. -/
def collected (s : Connection P) : Connection P :=
  { s with
    toRegistry := s.toRegistry.collect
    toLink := s.toLink.collect
    isOpen := fun o => s.isOpen o && o ∉ s.others }

/-- `self._transport.close()`, which has nothing to close without a socket. -/
def closeTransport (cfg : Config) : Effect (Connection P) PyError Unit := fun s =>
  if s.holdsSocket then (cfg.closing s.closes, { s with closes := s.closes + 1 })
  else (.ok (), s)

/-- `Connection.collect` -/
def collect (cfg : Config) : Effect (Connection P) PyError Unit := do
  closeTransport cfg
  Effect.modify collected

/-- An exception is raised by a `try` with `except (OSError, SSLError): self.collect()`. -/
def collectOn (cfg : Config) (e : PyError) (s : Connection P) : Connection P :=
  if e.isOSError then
    match collect cfg s with
    | (.ok (), s) => goOn (.raising e) s
    | (.error e', s) => goOn (.raising e') s
  else goOn (.raising e) s

/-- `collect`, called by code of the user. -/
def userCollect (cfg : Config) (s : Connection P) : Connection P :=
  match collect cfg s with
  | (.ok (), s) => s
  | (.error e, s) => goOn (.raising e) s

/-! connect -/

/-- `connect`, with what setting up a transport does, up to its loop. -/
def connect (cfg : Config) (setup : Setup) (s : Connection P) : Connection P :=
  if s.connected then note (.connected s.toLink) s
  else
    match s.toLink.setup setup with
    | (.ok (), link) => goOn .returning (push .connecting { s with toLink := link })
    | (.error e, link) => collectOn cfg e { s with toLink := link }

/-- The loop of `connect` looks at `_handshake_complete`. A connection that connected
because its transport was read goes on to read it. -/
def loopConnect (s : Connection P) : Connection P :=
  if s.handshakeComplete then
    let s := note (.connected s.toLink) { s with toCalls := s.toCalls.pop }
    if s.transport = none ∧ s.stack.head?.any Activation.isUser = false then
      goOn (.raising .attributeError) s
    else goOn .running s
  else goOn .running s

/-- An exception leaves `connect`. -/
def leaveConnect (cfg : Config) (e : PyError) (s : Connection P) : Connection P :=
  collectOn cfg e { s with toCalls := s.toCalls.pop }

/-! Connection.close -/

/-- The `finally` of `Connection.close`, and what the connection then is. -/
def leaveClose (transport : Nat) (s : Connection P) : Connection P :=
  note (.closed transport s.toRegistry s.toLink) { s with toCalls := s.toCalls.setClosing 0 false }

/-- `Connection.close` -/
def startClose (cfg : Config) (s : Connection P) : Connection P :=
  match s.transport with
  | none => s
  | some t =>
      match sendMethod cfg 0 Spec.Connection.close
          { s with toCalls := s.toCalls.setClosing 0 true } with
      | (.ok (), s) => wait 0 (.closeConnection t) s
      | (.error e, s) => leaveClose t (collectOn cfg e s)

/-! Channels -/

/-- `Channel.open` -/
def openChannel (cfg : Config) (o : Nat) (s : Connection P) : Connection P :=
  if s.isOpen o then s else sendAndWait cfg o Spec.Channel.open .open s

/-- `Connection.channel` -/
def channel (cfg : Config) (id : Option Nat) (s : Connection P) : Connection P :=
  match s.channels with
  | none => goOn (.raising (recoverableConnectionError "Connection already closed.")) s
  | some channels =>
      match id.bind (Assoc.get? channels) with
      | some _ => s
      | none =>
          match Registry.construct id s.toRegistry with
          | (.ok o, registry) => openChannel cfg o { s with toRegistry := registry }
          | (.error e, registry) => goOn (.raising e) { s with toRegistry := registry }

/-- The `finally` of `Channel.close`. -/
def leaveCloseChannel (o : Nat) (s : Connection P) : Connection P :=
  { s with toRegistry := s.detach o, toCalls := s.toCalls.setClosing o false }

/-- `Channel.close` -/
def startCloseChannel (cfg : Config) (o : Nat) (s : Connection P) : Connection P :=
  if s.attached o = false ∨ s.channels = none ∨ s.isOpen o = false then leaveCloseChannel o s
  else
    match sendMethod cfg o Spec.Channel.close
        { s with toCalls := s.toCalls.setClosing o true } with
    | (.ok (), s) => wait o .closeChannel s
    | (.error e, s) => goOn (.raising e) (leaveCloseChannel o s)

/-! Listeners of the connection -/

/-- `_on_start`, up to its `send_method`. -/
def chooseMechanism (cfg : Config) : List Arg → Except PyError Unit
  | [_, _, .value (.dict serverProperties), .value (.str mechanisms), .value (.str _)] => do
      match Assoc.get? serverProperties (PyStr.ofString "capabilities") with
      | some (.dict _) | none => .ok ()
      | some capabilities => if capabilities.truthy then .error .attributeError else .ok ()
      let offered := split 0x20 (Utf8.encode mechanisms)
      match ← authenticate offered cfg.authentication with
      | some _ => return ()
      | none => .error (.amqp {
          cls := .connectionError
          replyText := .noAuthMechanism (cfg.authentication.filterMap Mechanism.mechanism)
            offered })
  | _ => .error .typeError

def onStart (cfg : Config) (args : List Arg) (s : Connection P) : Connection P :=
  match chooseMechanism cfg args with
  | .ok () => sendOnly cfg 0 Spec.Connection.startOk s
  | .error e => goOn (.raising e) s

/-- What `_on_tune` takes from the server; a `channel_max` of zero is no limit. -/
def tune (args : List Arg) (s : Connection P) : Connection P :=
  match args with
  | .value (.int channelMax) :: _ =>
      { s with channelMax := if channelMax.toNat = 0 then s.channelMax else channelMax.toNat }
  | _ => s

/-- `_on_tune` and `_on_tune_sent` -/
def onTune (cfg : Config) (args : List Arg) (s : Connection P) : Connection P :=
  match sendMethod cfg 0 Spec.Connection.tuneOk (tune args s) with
  | (.ok (), s) => sendOnly cfg 0 Spec.Connection.open s
  | (.error e, s) => goOn (.raising e) s

/-- `error_for_code(reply_code, reply_text, (class_id, method_id), ConnectionError)` -/
def closeError : List Arg → PyError
  | [.value (.int code), .value (.str text), .value (.int classId), .value (.int methodId)] =>
      .amqp (errorForCode code.toNat text (classId.toNat, methodId.toNat) .connectionError)
  | _ => .typeError

/-- `_on_close` -/
def onClose (cfg : Config) (args : List Arg) (s : Connection P) : Connection P :=
  match sendMethod cfg 0 Spec.Connection.closeOk s with
  | (.ok (), s) =>
      match collect cfg s with
      | (.ok (), s) => goOn (.raising (closeError args)) s
      | (.error e, s) => goOn (.raising e) s
  | (.error e, s) => goOn (.raising e) s

/-- `_on_close_ok`; what it raises leaves its `dispatch_method` at once. -/
def onCloseOk (cfg : Config) (s : Connection P) : Connection P :=
  match collect cfg s with
  | (.ok (), s) => goOn .returning s
  | (.error e, s) => goOn (.raising e) { s with toCalls := s.toCalls.pop }

/-- The listener of a method of the connection. The callbacks for `on_open`, `on_blocked`
and `on_unblocked` are code of the user. -/
def listen (cfg : Config) (sig : MethodSig) (args : List Arg) (s : Connection P) :
    Connection P :=
  if sig = Spec.Connection.start then onStart cfg args s
  else if sig = Spec.Connection.openOk then
    goOn .running (push .user { s with handshakeComplete := true })
  else if sig = Spec.Connection.tune then onTune cfg args s
  else if sig = Spec.Connection.close then onClose cfg args s
  else if sig = Spec.Connection.closeOk then onCloseOk cfg s
  else if sig = Spec.Connection.secure then goOn .returning s
  else goOn .running (push .user s)

/-! Listeners of a channel -/

/-- `Channel._on_close`; the error is raised when the channel has been reopened. -/
def onChannelClose (cfg : Config) (o : Nat) (args : List Arg) (s : Connection P) :
    Connection P :=
  match sendMethod cfg o Spec.Channel.closeOk s with
  | (.error e, s) => goOn (.raising e) s
  | (.ok (), s) =>
      if ¬ s.isClosing 0 ∧ ¬ s.isClosing o then
        sendAndWait cfg o Spec.Channel.open (.revive args)
          { s with isOpen := Function.update s.isOpen o false }
      else goOn .returning s

/-- The listener of a method of a channel, if it has one. -/
def listenChannel (cfg : Config) (o : Nat) (sig : MethodSig) (args : List Arg)
    (s : Connection P) : Connection P :=
  if sig = Spec.Channel.close then onChannelClose cfg o args s
  else if sig = Spec.Channel.closeOk then goOn .returning (collectChannel o s)
  else if sig = Spec.Channel.flow then sendOnly cfg o Spec.Channel.flowOk s
  else if sig = Spec.Channel.openOk then
    goOn .running (push .user { s with isOpen := Function.update s.isOpen o true })
  else if sig = Spec.Basic.cancelOk then goOn .returning s
  else if sig ∈ listeners then goOn .running (push .user s)
  else goOn .returning s

/-! Dispatch -/

/-- `dispatch_method` of an object, up to the promise it calls when the listener has
returned. -/
def dispatchMethod (cfg : Config) (o : Nat) (m : Inbound) (s : Connection P) : Connection P :=
  if s.isClosing o ∧ m.methodSig ∉ allowedWhenClosing o then goOn .returning s
  else
    match lookup o m.methodSig with
    | .error e => goOn (.raising e) s
    | .ok method =>
        let oneShot := s.pending o m.methodSig
        let s := { s with toCalls := s.toCalls.take o m.methodSig }
        if oneShot = none ∧ ¬ Listened o m.methodSig then goOn .returning s
        else
          match m.args id method with
          | .error e => goOn (.raising e) s
          | .ok args =>
              let s := push (.dispatch (oneShot.map fun id => (id, (m.methodSig, args)))) s
              if o = 0 then listen cfg m.methodSig args s
              else listenChannel cfg o m.methodSig args s

/-- `on_inbound_method` -/
def onInboundMethod (cfg : Config) (channel : Nat) (m : Inbound) (s : Connection P) :
    Connection P :=
  match s.channels with
  | none => goOn (.raising (recoverableConnectionError "Connection already closed")) s
  | some channels =>
      match Assoc.get? channels channel with
      | some o => dispatchMethod cfg o m s
      | none => goOn (.raising .keyError) s

/-! Steps -/

/-- What follows on a `wait` that has ended. -/
def afterWait (cfg : Config) (waiting : Waiting P) (result : Except PyError Unit) (s : Connection P) :
    Connection P :=
  match waiting.task, result with
  | .closeConnection t, .ok () => goOn .returning (leaveClose t s)
  | .closeConnection t, .error e => leaveClose t (collectOn cfg e s)
  | .closeChannel, result => finish result (leaveCloseChannel waiting.owner s)
  | .revive args, .ok () => goOn (.raising (Channel.closeError args)) s
  | _, result => finish result s

def leaveWait (cfg : Config) (id : Nat) (result : Except PyError Unit) (s : Connection P) :
    Connection P :=
  afterWait cfg (s.waits id) result { s with toCalls := s.toCalls.leaveWait id }

/-- The activation on top goes on. -/
def go (cfg : Config) (s : Connection P) : Connection P :=
  match s.stack, s.control with
  | .user :: _, _ => goOn .running s
  | .connecting :: _, .returning => loopConnect s
  | .connecting :: _, .raising e => leaveConnect cfg e s
  | .dispatch none :: _, .returning => goOn .returning { s with toCalls := s.toCalls.pop }
  | .dispatch (some (id, reply)) :: _, .returning =>
      let (outcome, calls) := s.toCalls.pop.call id reply
      finish outcome { s with toCalls := calls }
  | .dispatch _ :: _, .raising e => goOn (.raising e) { s with toCalls := s.toCalls.pop }
  | .wait id :: _, .returning =>
      if P.ready (s.waits id).promise then leaveWait cfg id (.ok ()) s
      else if s.attached (s.waits id).owner then goOn .running s
      else goOn (.raising connectionClosed) s
  | .wait id :: _, .raising e => leaveWait cfg id (.error e) s
  | _, _ => s

/-- Code of the user is on top. -/
def Idle (s : Connection P) : Prop :=
  s.control = .running ∧ s.stack.head?.any Activation.isUser = true

/-- The activation on top reads from the connection. -/
def Drains (s : Connection P) : Prop :=
  s.control = .running ∧ s.stack.head?.any Activation.reads = true

/-- `connect` may be called: by code of the user, or because there is no transport to
read from. -/
def MayConnect (s : Connection P) : Prop :=
  s.Idle ∨ s.Drains ∧ s.transport = none

/-- A frame can be read: `on_inbound_frame` has been set. -/
def MayRead (s : Connection P) : Prop :=
  s.Drains ∧ s.transport ≠ none ∧ s.frameWriter ≠ none

/-- Code of the user may call an object that is there. -/
def MayCall (s : Connection P) (o : Nat) : Prop :=
  s.Idle ∧ s.frameWriter ≠ none ∧ o < s.created

instance (s : Connection P) : Decidable s.Idle := inferInstanceAs (Decidable (_ ∧ _))
instance (s : Connection P) : Decidable s.Drains := inferInstanceAs (Decidable (_ ∧ _))
instance (s : Connection P) : Decidable s.MayConnect := inferInstanceAs (Decidable (_ ∨ _ ∧ _))
instance (s : Connection P) : Decidable s.MayRead := inferInstanceAs (Decidable (_ ∧ _ ∧ _))
instance (s : Connection P) (o : Nat) : Decidable (s.MayCall o) :=
  inferInstanceAs (Decidable (_ ∧ _ ∧ _))

/-- `go` lets the connection go on. While code of the user is on top it may call the
connection or a channel object, return or raise. While the connection is read, a method
may arrive on a channel, or the read may raise; without a transport it connects. -/
inductive Event where
  | go
  | connect (setup : Setup)
  | close
  | collect
  | channel (id : Option Nat)
  | «open» (o : Nat)
  | closeChannel (o : Nat)
  | collectChannel (o : Nat)
  | send (o : Nat) (sig : MethodSig)
  | call (o : Nat) (sig : MethodSig) (methods : List MethodSig)
      (callback : Option (Reply → Except PyError Unit))
  | return
  | raise (e : PyError)
  | deliver (channel : Nat) (m : Inbound)
  | fail (e : PyError)

/-- The read of a method: an `OpenOk` of the connection is noted on the transport. -/
def receive (channel : Nat) (m : Inbound) (s : Connection P) : Connection P :=
  if channel = 0 ∧ m.methodSig = Spec.Connection.openOk then
    { s with toLink := s.onWire s.transport fun wire => { wire with openOk := true } }
  else s

/-- A read that raises. -/
def failRead (cfg : Config) (e : PyError) (s : Connection P) : Connection P :=
  goOn (.raising e) { s with
    toLink :=
      if drops cfg.platform e then
        s.onWire s.transport fun wire => { wire with connected := false }
      else s.toLink }

def step (cfg : Config) (s : Connection P) : Event → Connection P
  | .go => go cfg s
  | .connect setup => if s.MayConnect then connect cfg setup s else s
  | .close => if s.MayCall 0 then startClose cfg s else s
  | .collect => if s.Idle then userCollect cfg s else s
  | .channel id => if s.MayCall 0 then channel cfg id s else s
  | .open o => if s.MayCall o ∧ o ≠ 0 then openChannel cfg o s else s
  | .closeChannel o => if s.MayCall o ∧ o ≠ 0 then startCloseChannel cfg o s else s
  | .collectChannel o => if s.Idle ∧ o < s.created ∧ o ≠ 0 then collectChannel o s else s
  | .send o sig =>
      if s.MayCall o ∧ sig ≠ Spec.Connection.close then sendOnly cfg o sig s else s
  | .call o sig methods callback =>
      if s.MayCall o ∧ sig ≠ Spec.Connection.close then
        sendAndWait cfg o sig (.call methods callback) s
      else s
  | .return =>
      if s.Idle ∧ s.stack.tail ≠ [] then goOn .returning { s with toCalls := s.toCalls.pop } else s
  | .raise e =>
      if s.Idle ∧ s.stack.tail ≠ [] then goOn (.raising e) { s with toCalls := s.toCalls.pop }
      else s
  | .deliver channel m =>
      if s.MayRead then onInboundMethod cfg channel m (receive channel m s) else s
  | .fail e => if s.MayRead then failRead cfg e s else s

/-- A new connection; a `channel_max` of zero is the default. -/
def init (cfg : Config) : Connection P :=
  { channelMax := if cfg.channelMax = 0 then 65535 else cfg.channelMax }

def run (cfg : Config) (events : List Event) : Connection P := events.foldl (step cfg) (init cfg)

/-! A handshake -/

/-- A server's `Start` that offers the mechanism `A`. -/
def start : Inbound :=
  { methodSig := Spec.Connection.start
    payload := [0, 10, 0, 10, 0, 9, 0, 0, 0, 0, 0, 0, 0, 1, 65, 0, 0, 0, 0] }

/-- A server's `Tune`, without limits. -/
def tuned : Inbound :=
  { methodSig := Spec.Connection.tune, payload := [0, 10, 0, 30, 0, 0, 0, 0, 0, 0, 0, 0] }

def openOk : Inbound := { methodSig := Spec.Connection.openOk, payload := [0, 10, 0, 41] }

/-- `connect` on a new connection, up to its return. -/
def handshake : List Event :=
  [.connect .up, .go, .deliver 0 start, .go, .go, .deliver 0 tuned, .go, .go,
    .deliver 0 openOk, .return, .go, .go]

end Connection

end PyAmqp
