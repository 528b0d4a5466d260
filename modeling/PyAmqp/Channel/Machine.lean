import PyAmqp.Channel.Methods
import PyAmqp.Base.Run
import Mathlib.Logic.Function.Basic

/-!
A channel as a machine. `wait` drains events until its promise is ready; a method that
arrives may run listeners, these may call the channel again, and so activations pile
up on a stack. Code of the user, and of other channels, is whatever calls, returns and
raises while it is on top. The broker is kept beside the channel: what it was asked,
what it was sent to confirm, and what it has answered.
-/

namespace PyAmqp

/-- What the channel uses of `vine.promise`: a promise may be made of a function, it is
called with arguments, and it keeps them, or raises what its function raises. -/
structure Promises (α : Type) where
  Promise : Type
  make : Option (α → Except PyError Unit) → Promise
  call : α → Promise → Except PyError Unit × Promise
  func : Promise → Option (α → Except PyError Unit)
  ready : Promise → Bool
  value : Promise → Option α
  func_make : ∀ f, func (make f) = f
  ready_make : ∀ f, ready (make f) = false
  func_call : ∀ a p, func (call a p).2 = func p
  call_plain : ∀ a p, func p = none →
    (call a p).1 = .ok () ∧ ready (call a p).2 = true ∧ value (call a p).2 = some a
  call_returns : ∀ a p f, func p = some f → f a = .ok () →
    (call a p).1 = .ok () ∧ ready (call a p).2 = true
  call_raises : ∀ a p f e, func p = some f → f a = .error e →
    (call a p).1 = .error e ∧ ready (call a p).2 = ready p

/-- A promise with just these. -/
structure PlainPromise (α : Type) where
  func : Option (α → Except PyError Unit)
  ready : Bool := false
  value : Option α := none

def PlainPromise.call {α : Type} (a : α) (p : PlainPromise α) :
    Except PyError Unit × PlainPromise α :=
  match p.func with
  | none => (.ok (), { p with ready := true, value := some a })
  | some f =>
      match f a with
      | .ok () => (.ok (), { p with ready := true })
      | .error e => (.error e, p)

def plainPromises (α : Type) : Promises α where
  Promise := PlainPromise α
  make func := { func }
  call := PlainPromise.call
  func := PlainPromise.func
  ready := PlainPromise.ready
  value := PlainPromise.value
  func_make _ := rfl
  ready_make _ := rfl
  func_call a p := by
    unfold PlainPromise.call
    split
    · rfl
    · split <;> rfl
  call_plain a p h := by simp [PlainPromise.call, h]
  call_returns a p f h hf := by simp [PlainPromise.call, h, hf]
  call_raises a p f e h hf := by simp [PlainPromise.call, h, hf]

/-- What a promise is called with: the method and its arguments. -/
abbrev Reply := MethodSig × List Arg

/-- The frame writer's outcomes, call by call; what `auto_decode` does; and whether
`basic_publish` drains events first, as the capability `connection.blocked` has it. -/
structure Config where
  write : Nat → Except PyError Unit
  write_error : ∀ n e, write n = .error e → e ≠ .messageNacked
  decode : Message → Message
  drainsFirst : Bool

/-- A connection that writes everything and decodes nothing. -/
def plainConfig : Config where
  write _ := .ok ()
  write_error _ _ h := by simp at h
  decode msg := msg
  drainsFirst := false

/-! The stack -/

/-- What a call of `wait` is part of, with the request it waits for: a call of the user,
the reopening after a `Channel.Close` with these arguments, or the `confirm_select` or
the wait for the confirm of `basic_publish_confirm`. -/
inductive Task where
  | call (id : Nat) (c : SyncCall)
  | revive (id : Nat) (args : List Arg)
  | select (id : Nat)
  | confirm (number : Nat)

namespace Task

/-- The request whose reply is awaited. -/
def request? : Task → Option (Nat × SyncCall)
  | call id c => some (id, c)
  | revive id _ => some (id, .open)
  | select id => some (id, .confirmSelect)
  | confirm _ => none

/-- `confirm_handler` -/
def confirmHandler (reply : Reply) : Except PyError Unit :=
  if reply.1 = Spec.Basic.nack then .error .messageNacked else .ok ()

def handler : Task → Option (Reply → Except PyError Unit)
  | confirm _ => some confirmHandler
  | _ => none

def methods : Task → List MethodSig
  | call _ c => c.replies
  | revive _ _ => SyncCall.open.replies
  | select _ => SyncCall.confirmSelect.replies
  | confirm _ => [Spec.Basic.ack, Spec.Basic.nack]

end Task

/-- The locals of a call of `wait`. -/
structure Waiting (P : Promises Reply) where
  task : Task
  prev : List (Option Nat)
  promise : P.Promise

/-- `user` is code outside this channel, `dispatch` a listener's `dispatch_method` with
the promise to call after it, `wait` a call of `wait`, `publish` a `basic_publish` of
`basic_publish_confirm` before it sends, `draining` events first or not. -/
inductive Activation where
  | user
  | dispatch (oneShot : Option (Nat × Reply))
  | wait (id : Nat)
  | publish (draining : Bool)

namespace Activation

def isUser : Activation → Bool
  | user => true
  | _ => false

/-- A call of the channel is in progress. -/
def isCall : Activation → Bool
  | wait _ | publish _ => true
  | _ => false

/-- It is reading from the connection while it runs. -/
def reads : Activation → Bool
  | user | wait _ | publish true => true
  | _ => false

end Activation

inductive Control where
  | running
  | returning
  | raising (e : PyError)
  deriving DecidableEq, Repr

/-! The broker -/

/-- `outstanding` are the requests without a reply, `opened` the messages published
before the last `Channel.Open`; the broker numbers those after it. -/
structure Broker where
  outstanding : List (Nat × SyncCall) := []
  requests : Nat := 0
  replies : Nat → Option Inbound := fun _ => none
  opened : Nat := 0
  published : Nat := 0
  answers : Nat → Option Bool := fun _ => none
  selectOk : Bool := false

namespace Broker

def ask (c : SyncCall) (b : Broker) : Broker :=
  { b with
    outstanding := b.outstanding ++ [(b.requests, c)]
    requests := b.requests + 1
    opened := if c = .open then b.published else b.opened
    selectOk := if c = .open then false else b.selectOk }

/-- A reply answers the oldest request. -/
def reply (m : Inbound) (b : Broker) : Broker :=
  match b.outstanding with
  | (id, c) :: rest =>
      if m.methodSig ∈ c.replies then
        { b with
          outstanding := rest
          replies := Function.update b.replies id (some m) }
      else b
  | [] => b

/-- The messages a confirm covers. -/
def Covers (b : Broker) (n : Nat) (multiple : Bool) (k : Nat) : Prop :=
  b.opened < k ∧ k ≤ b.published ∧ (k = b.opened + n ∨ multiple = true ∧ k ≤ b.opened + n)

instance (b : Broker) (n : Nat) (multiple : Bool) (k : Nat) : Decidable (b.Covers n multiple k) :=
  inferInstanceAs (Decidable (_ ∧ _ ∧ _))

/-- The answers with one more, for the messages it covers that had none. -/
def answer (b : Broker) (ack : Bool) (n : Nat) (multiple : Bool) (k : Nat) : Option Bool :=
  if b.answers k = none ∧ b.Covers n multiple k then some ack else b.answers k

/-- The delivery tag and the `multiple` flag of a confirm. -/
def confirmation (decode : Message → Message) (m : Inbound) : Option (Nat × Bool) :=
  if m.methodSig = Spec.Basic.ack ∨ m.methodSig = Spec.Basic.nack then
    match m.parse decode with
    | .ok [.value (.int n), .value (.bool multiple)] => some (n.toNat, multiple)
    | _ => none
  else none

/-- What the broker has answered with a method that arrives. -/
def receive (decode : Message → Message) (m : Inbound) (b : Broker) : Broker :=
  { b.reply m with
    outstanding := if m.methodSig = Spec.Channel.close then [] else (b.reply m).outstanding
    selectOk := b.selectOk || m.methodSig = Spec.Confirm.selectOk
    answers := match confirmation decode m with
      | some (n, multiple) => b.answer (m.methodSig = Spec.Basic.ack) n multiple
      | none => b.answers }

end Broker

/-! The channel -/

/-- What a call returned. -/
inductive Returned where
  | tuple (args : List Arg)
  | first (arg : Arg)
  | none

/-- `args if returns_tuple else (args and args[0])` -/
def Returned.of (returnsTuple : Bool) (args : List Arg) : Returned :=
  if returnsTuple then tuple args
  else match args with
    | [] => tuple []
    | arg :: _ => first arg

/-- What `wait` returns when its promise is ready. -/
def Waiting.returned {P : Promises Reply} (c : SyncCall) (waiting : Waiting P) : Returned :=
  match P.value waiting.promise with
  | some reply => .of c.returnsTuple reply.2
  | none => .none

/-- A call that has ended: its result, and for a publish the message it published. -/
inductive Entry where
  | call (id : Nat) (c : SyncCall) (result : Except PyError Returned)
  | publish (number : Option Nat) (result : Except PyError Unit)

/-- What calls, listeners and replies change: the flag of `basic_publish_confirm`, the
promises, the stack, the broker and the calls that have ended. -/
structure ChannelCore (P : Promises Reply) where
  confirmSelected : Bool := false
  pending : MethodSig → Option Nat := fun _ => none
  waits : Nat → Waiting P :=
    fun _ => { task := .confirm 0, prev := [], promise := P.make none }
  created : Nat := 0
  stack : List Activation := [.user]
  broker : Broker := {}
  log : List Entry := []

/-- `attached` says that `self.connection` is set, `listed` that the connection's
`channels` has the channel; `sent` are the methods that were written. -/
structure Channel (P : Promises Reply) extends ChannelCore P where
  isOpen : Bool := false
  isClosing : Bool := false
  attached : Bool := true
  listed : Bool := true
  connectionClosing : Bool := false
  control : Control := .running
  writes : Nat := 0
  sent : List MethodSig := []

/-! `_pending` -/

namespace ChannelCore

variable {P : Promises Reply}

/-- `prev_p.append(pending.get(m))` and `pending[m] = p`, method by method. -/
def register (id : Nat) :
    List MethodSig → (MethodSig → Option Nat) → List (Option Nat) × (MethodSig → Option Nat)
  | [], pending => ([], pending)
  | m :: methods, pending =>
      let (prev, pending') := register id methods (Function.update pending m (some id))
      (pending m :: prev, pending')

/-- The `finally` of `wait`: every method gets its previous promise back, or none. -/
def restore : List (MethodSig × Option Nat) → (MethodSig → Option Nat) → MethodSig → Option Nat
  | [], pending => pending
  | (m, prev) :: rest, pending => restore rest (Function.update pending m prev)

/-- The start of `wait`. -/
def beginWait (task : Task) (k : ChannelCore P) : ChannelCore P :=
  let (prev, pending) := register k.created task.methods k.pending
  { k with
    pending
    waits := Function.update k.waits k.created
      { task, prev, promise := P.make task.handler }
    created := k.created + 1
    stack := .wait k.created :: k.stack }

end ChannelCore

namespace Channel

variable {P : Promises Reply}

def push (act : Activation) (s : Channel P) : Channel P := { s with stack := act :: s.stack }

def goOn (control : Control) (s : Channel P) : Channel P := { s with control }

def note (entry : Entry) (s : Channel P) : Channel P := { s with log := s.log ++ [entry] }

def connectionClosed : PyError := recoverableConnectionError "connection already closed"

/-- `send_method`, up to its `wait`. -/
def sendMethod (cfg : Config) (sig : MethodSig) : Effect (Channel P) PyError Unit := fun s =>
  if s.attached then
    match cfg.write s.writes with
    | .ok () => (.ok (), { s with writes := s.writes + 1, sent := s.sent ++ [sig] })
    | .error e =>
        (.error (if e = .stopIteration then connectionClosed else e),
          { s with writes := s.writes + 1 })
  else (.error connectionClosed, s)

/-- `wait` enters its loop, which first looks at the promise. -/
def wait (task : Task) (s : Channel P) : Channel P :=
  { s with toChannelCore := s.toChannelCore.beginWait task, control := .returning }

/-- A method that waits for a reply is sent. -/
def request (cfg : Config) (c : SyncCall) : Effect (Channel P) PyError Nat := do
  sendMethod cfg c.method
  let s ← Effect.get
  Effect.modify fun s => { s with broker := s.broker.ask c }
  return s.broker.requests

/-- `send_method` with `wait`, as the end of an activation. -/
def requestAndWait (cfg : Config) (c : SyncCall) (task : Nat → Task) (s : Channel P) : Channel P :=
  match request cfg c s with
  | (.ok id, s) => wait (task id) s
  | (.error e, s) => goOn (.raising e) s

/-- `basic_publish` up to the drain, or up to `send_method`. -/
def startPublish (cfg : Config) (s : Channel P) : Channel P :=
  if s.attached then goOn .running (push (.publish cfg.drainsFirst) s)
  else
    let e := recoverableConnectionError "basic_publish: connection closed"
    goOn (.raising e) (note (.publish none (.error e)) s)

/-- `RecoverableChannelError('basic_publish: timed out')` -/
def publishTimedOut : PyError :=
  .amqp { cls := .recoverableChannelError, replyText := .fixed "basic_publish: timed out" }

/-- `send_method` of `basic_publish`, after a drain that may have closed the channel. -/
def publishContent (cfg : Config) : Effect (Channel P) PyError Unit := fun s =>
  if s.attached then
    match sendMethod cfg Spec.Basic.publish s with
    | (.ok (), s) => (.ok (), s)
    | (.error e, s) => (.error (if e = .socketTimeout then publishTimedOut else e), s)
  else (.error .attributeError, s)

/-- `basic_publish` sends, and the wait for the confirm. -/
def sendPublish (cfg : Config) (s : Channel P) : Channel P :=
  match publishContent cfg s with
  | (.ok (), s) =>
      let number := s.broker.published + 1
      wait (.confirm number) { s with broker := { s.broker with published := number } }
  | (.error e, s) => goOn (.raising e) (note (.publish none (.error e)) s)

/-- `collect`. Only a channel that has its connection leaves the connection's list. -/
def collect (s : Channel P) : Channel P :=
  { s with
    isOpen := false
    listed := s.listed && !s.attached
    attached := false }

/-! Listeners -/

/-- `error_for_code(reply_code, reply_text, (class_id, method_id), ChannelError)` -/
def closeError : List Arg → PyError
  | [.value (.int code), .value (.str text), .value (.int classId), .value (.int methodId)] =>
      .amqp (errorForCode code.toNat text (classId.toNat, methodId.toNat) .channelError)
  | _ => .typeError

/-- `_on_close`; the error is raised when the channel has been reopened. -/
def onClose (cfg : Config) (args : List Arg) (s : Channel P) : Channel P :=
  match sendMethod cfg Spec.Channel.closeOk s with
  | (.error e, s) => goOn (.raising e) s
  | (.ok (), s) =>
      if ¬ s.connectionClosing ∧ ¬ s.isClosing then
        requestAndWait cfg .open (fun id => .revive id args) { s with isOpen := false }
      else goOn .returning s

/-- `_on_flow`, of which only `flow_ok` is seen. -/
def onFlow (cfg : Config) (s : Channel P) : Channel P :=
  match sendMethod cfg Spec.Channel.flowOk s with
  | (.ok (), s) => goOn .returning s
  | (.error e, s) => goOn (.raising e) s

/-- The listener of a method, if it has one. The other listeners run code of the user. -/
def listen (cfg : Config) (sig : MethodSig) (args : List Arg) (s : Channel P) : Channel P :=
  if sig = Spec.Channel.close then onClose cfg args s
  else if sig = Spec.Channel.closeOk then goOn .returning (collect s)
  else if sig = Spec.Channel.flow then onFlow cfg s
  else if sig = Spec.Channel.openOk then goOn .running (push .user { s with isOpen := true })
  else if sig = Spec.Basic.cancelOk then goOn .returning s
  else if sig ∈ listeners then goOn .running (push .user s)
  else goOn .returning s

/-- `dispatch_method`, up to the promise it calls when the listener has returned. -/
def dispatchMethod (cfg : Config) (m : Inbound) (s : Channel P) : Channel P :=
  if s.isClosing ∧ m.methodSig ∉ allowedMethodsWhenClosing then goOn .returning s
  else
    match findMethod m.methodSig with
    | .error e => goOn (.raising e) s
    | .ok method =>
        let oneShot := s.pending m.methodSig
        let s := { s with pending := Function.update s.pending m.methodSig none }
        if oneShot = none ∧ m.methodSig ∉ listeners then goOn .returning s
        else
          match m.args cfg.decode method with
          | .error e => goOn (.raising e) s
          | .ok args =>
              listen cfg m.methodSig args
                (push (.dispatch (oneShot.map fun id => (id, (m.methodSig, args)))) s)

/-- `on_inbound_method` -/
def onInboundMethod (cfg : Config) (m : Inbound) (s : Channel P) : Channel P :=
  if s.listed then dispatchMethod cfg m s else goOn (.raising .keyError) s

/-- `one_shot(method_sig, *args)` -/
def fulfil (oneShot : Option (Nat × Reply)) (s : Channel P) : Channel P :=
  match oneShot with
  | none => goOn .returning s
  | some (id, reply) =>
      let waiting := s.waits id
      let (outcome, promise) := P.call reply waiting.promise
      let s := { s with waits := Function.update s.waits id { waiting with promise } }
      match outcome with
      | .ok () => goOn .returning s
      | .error e => goOn (.raising e) s

/-! Steps -/

/-- The `finally` of `close`; the other calls have none. -/
def leaveCall (c : SyncCall) (s : Channel P) : Channel P :=
  { s with
    isClosing := if c = .close then false else s.isClosing
    attached := if c = .close then false else s.attached }

/-- What follows on a `wait` that has ended. -/
def finish (cfg : Config) (waiting : Waiting P) (result : Except PyError Unit) (s : Channel P) :
    Channel P :=
  match waiting.task, result with
  | .call id c, .ok () =>
      goOn .returning (note (.call id c (.ok (waiting.returned c))) (leaveCall c s))
  | .call id c, .error e => goOn (.raising e) (note (.call id c (.error e)) (leaveCall c s))
  | .revive _ args, .ok () => goOn (.raising (closeError args)) s
  | .revive _ _, .error e => goOn (.raising e) s
  | .select _, .ok () => startPublish cfg s
  | .select _, .error e => goOn (.raising e) (note (.publish none (.error e)) s)
  | .confirm number, .ok () => goOn .returning (note (.publish (some number) (.ok ())) s)
  | .confirm number, .error e =>
      goOn (.raising e) (note (.publish (some number) (.error e)) s)

/-- `wait` ends: its `finally`, and what follows. -/
def leaveWait (cfg : Config) (id : Nat) (result : Except PyError Unit) (s : Channel P) :
    Channel P :=
  let waiting := s.waits id
  finish cfg waiting result
    { s with
      pending := ChannelCore.restore (waiting.task.methods.zip waiting.prev) s.pending }

/-- The activation on top goes on. -/
def go (cfg : Config) (s : Channel P) : Channel P :=
  match s.stack, s.control with
  | .user :: _, _ => goOn .running s
  | .dispatch oneShot :: rest, .returning => fulfil oneShot { s with stack := rest }
  | .dispatch _ :: rest, .raising e => goOn (.raising e) { s with stack := rest }
  | .wait id :: rest, .returning =>
      if P.ready (s.waits id).promise then leaveWait cfg id (.ok ()) { s with stack := rest }
      else if s.attached then goOn .running s
      else goOn (.raising connectionClosed) s
  | .wait id :: rest, .raising e => leaveWait cfg id (.error e) { s with stack := rest }
  | .publish true :: rest, .returning => goOn .running { s with stack := .publish false :: rest }
  | .publish true :: rest, .raising e =>
      if e = .socketTimeout then goOn .running { s with stack := .publish false :: rest }
      else goOn (.raising e) (note (.publish none (.error e)) { s with stack := rest })
  | .publish false :: rest, .running => sendPublish cfg { s with stack := rest }
  | _, _ => s

/-- The activation on top reads from the connection. -/
def Drains (s : Channel P) : Prop :=
  s.control = .running ∧ s.stack.head?.any Activation.reads = true

instance (s : Channel P) : Decidable s.Drains := inferInstanceAs (Decidable (_ ∧ _))

/-- Code of the user is on top. -/
def Idle (s : Channel P) : Prop :=
  s.control = .running ∧ s.stack.head?.any Activation.isUser = true

instance (s : Channel P) : Decidable s.Idle := inferInstanceAs (Decidable (_ ∧ _))

end Channel

/-- `go` lets the channel go on. While code of the user is on top it may call the
channel, return or raise. While the connection is read, a method may arrive, for this
channel or another, or the read may raise. -/
inductive Event where
  | go
  | call (c : SyncCall)
  | publishConfirm
  | return
  | raise (e : PyError)
  | deliver (m : Inbound)
  | foreign
  | fail (e : PyError)
  | connectionCloses (closing : Bool)
  | collect

namespace Channel

variable {P : Promises Reply}

/-- The start of a call that waits. `close` gives the connection up when it cannot be
sent, `open` and `close` do nothing to a channel that is open or not, and
`basic_cancel` none to one that is closed. -/
def startCall (cfg : Config) (c : SyncCall) (s : Channel P) : Channel P :=
  match c with
  | .open => if s.isOpen then s else requestAndWait cfg .open (.call · .open) s
  | .basicCancel =>
      if s.attached then requestAndWait cfg .basicCancel (.call · .basicCancel) s else s
  | .close =>
      if s.attached = false ∨ s.isOpen = false then leaveCall .close s
      else
        match request cfg .close { s with isClosing := true } with
        | (.ok id, s) => wait (.call id .close) s
        | (.error e, s) => goOn (.raising e) (leaveCall .close s)
  | c => requestAndWait cfg c (.call · c) s

/-- `basic_publish_confirm`, up to its first wait or drain. -/
def startPublishConfirm (cfg : Config) (s : Channel P) : Channel P :=
  if s.confirmSelected then startPublish cfg s
  else
    match request cfg .confirmSelect { s with confirmSelected := true } with
    | (.ok id, s) => wait (.select id) s
    | (.error e, s) => goOn (.raising e) (note (.publish none (.error e)) s)

def step (cfg : Config) (s : Channel P) : Event → Channel P
  | .go => go cfg s
  | .call c => if s.Idle then startCall cfg c s else s
  | .publishConfirm => if s.Idle then startPublishConfirm cfg s else s
  | .return =>
      if s.Idle ∧ s.stack.tail ≠ [] then goOn .returning { s with stack := s.stack.tail } else s
  | .raise e =>
      if s.Idle ∧ s.stack.tail ≠ [] then goOn (.raising e) { s with stack := s.stack.tail } else s
  | .deliver m =>
      if s.Drains then
        onInboundMethod cfg m { s with broker := s.broker.receive cfg.decode m }
      else s
  | .foreign => if s.Drains then goOn .running (push .user (push (.dispatch none) s)) else s
  | .fail e => if s.Drains then goOn (.raising e) s else s
  | .connectionCloses closing => { s with connectionClosing := closing }
  | .collect => collect s

def run (cfg : Config) (events : List Event) : Channel P := events.foldl (step cfg) {}

/-- A channel is opened. -/
def openEvents : List Event :=
  [.call .open, .go,
    .deliver { methodSig := Spec.Channel.openOk, payload := [0, 20, 0, 11, 0, 0, 0, 0] },
    .return, .go, .go, .go]

/-- `basic_publish_confirm` asks for confirms, has its `Confirm.SelectOk` and publishes. -/
def selectEvents : List Event :=
  [.publishConfirm, .go,
    .deliver { methodSig := Spec.Confirm.selectOk, payload := [0, 85, 0, 11] },
    .go, .go, .go, .go]

end Channel

end PyAmqp
