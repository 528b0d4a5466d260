import PyAmqp.Channel.Registered

/-!
`wait` and `dispatch_method` of `amqp/abstract_channel.py`, for any subclass. A `wait` may
be called on any methods, from code of any kind: of the user, of a listener, or of the
function of a promise. What such code does between two calls of the channel is free, and
so are the events that a drain brings.
-/

namespace PyAmqp

/-- What a subclass sets: `_METHODS` and `_ALLOWED_METHODS_WHEN_CLOSING`. -/
structure ChannelClass where
  methods : List AmqpMethod
  allowedWhenClosing : List MethodSig

/-- `Channel` -/
def channelClass : ChannelClass where
  methods := channelMethods
  allowedWhenClosing := allowedMethodsWhenClosing

namespace ChannelClass

/-- `self._METHODS[method_sig]` -/
def findMethod (cls : ChannelClass) (sig : MethodSig) : Except PyError AmqpMethod :=
  match cls.methods.find? fun method => method.methodSig = sig with
  | some method => .ok method
  | none => .error (unknownMethod sig)

end ChannelClass

namespace AbstractChannel

/-- A promise without a function keeps what it is called with. One with a function calls
it, and `keeps` is what it keeps when that has returned. -/
structure Promise where
  function : Bool := false
  keeps : Option Reply := none
  ready : Bool := false
  value : Option Reply := none

/-- The `callback` of a `wait`. A promise is given by its number. -/
inductive Callback where
  | none
  | function (keeps : Option Reply)
  | promise (id : Nat)

structure WaitCall where
  methods : List MethodSig
  callback : Callback := .none
  returnsTuple : Bool := false

/-- The locals of a `wait`. No step reads `entered`, which is `_pending` at the call. -/
structure Wait extends WaitCall where
  promise : Nat
  prev : List (Option Nat)
  entered : MethodSig → Option Nat

/-- `args if returns_tuple else (args and args[0])`, or `None` without a value. -/
def Wait.returned (wait : Wait) (p : Promise) : Returned :=
  match p.value with
  | some reply => .of wait.returnsTuple reply.2
  | none => .none

/-- `user` is code outside the class, `callback` the function of a promise. -/
inductive Activation where
  | user
  | dispatch (oneShot : Option (Nat × Reply))
  | callback (promise : Nat)
  | wait (wait : Wait)

/-- A `wait` that has ended, with `_pending` after its `finally`. -/
structure Ended where
  wait : Wait
  left : MethodSig → Option Nat
  result : Except PyError Returned

end AbstractChannel

/-- `attached` says that `self.connection` is set; `callbacks` are the methods that have
a listener. -/
structure AbstractChannel where
  pending : MethodSig → Option Nat
  promises : Nat → AbstractChannel.Promise := fun _ => {}
  created : Nat := 0
  callbacks : List MethodSig := []
  isClosing : Bool := false
  attached : Bool := true
  stack : List AbstractChannel.Activation := [.user]
  control : Control := .running
  ended : List AbstractChannel.Ended := []

namespace AbstractChannel

def push (act : Activation) (s : AbstractChannel) : AbstractChannel :=
  { s with stack := act :: s.stack }

def goOn (control : Control) (s : AbstractChannel) : AbstractChannel := { s with control }

def setPromise (id : Nat) (p : Promise) (s : AbstractChannel) : AbstractChannel :=
  { s with promises := Function.update s.promises id p }

/-- `ensure_promise(callback)` -/
def ensurePromise (callback : Callback) (s : AbstractChannel) : Nat × AbstractChannel :=
  match callback with
  | .none => (s.created, setPromise s.created {} { s with created := s.created + 1 })
  | .function keeps =>
      (s.created, setPromise s.created { function := true, keeps } { s with created := s.created + 1 })
  | .promise id => (id, s)

/-- The start of `wait`, up to its loop. -/
def beginWait (call : WaitCall) (s : AbstractChannel) : AbstractChannel :=
  let (promise, s) := ensurePromise call.callback s
  let (prev, pending) := ChannelCore.register promise call.methods s.pending
  goOn .returning (push (.wait { call with promise, prev, entered := s.pending }) { s with pending })

/-- The end of `wait`, with its `finally`. -/
def leaveWait (wait : Wait) (outcome : Except PyError Unit) (s : AbstractChannel) :
    AbstractChannel :=
  let pending := ChannelCore.restore (wait.methods.zip wait.prev) s.pending
  let result := outcome.map fun _ => wait.returned (s.promises wait.promise)
  goOn (match outcome with | .ok _ => .returning | .error e => .raising e)
    { s with pending, ended := s.ended ++ [⟨wait, pending, result⟩] }

/-- `dispatch_method`, up to its listener. -/
def dispatchMethod (cls : ChannelClass) (decode : Message → Message) (m : Inbound)
    (s : AbstractChannel) : AbstractChannel :=
  if s.isClosing ∧ m.methodSig ∉ cls.allowedWhenClosing then goOn .returning s
  else
    match cls.findMethod m.methodSig with
    | .error e => goOn (.raising e) s
    | .ok method =>
        let oneShot := s.pending m.methodSig
        let s := { s with pending := Function.update s.pending m.methodSig none }
        if oneShot = none ∧ m.methodSig ∉ s.callbacks then goOn .returning s
        else
          match m.args decode method with
          | .error e => goOn (.raising e) s
          | .ok args =>
              let s := push (.dispatch (oneShot.map fun id => (id, (m.methodSig, args)))) s
              if m.methodSig ∈ s.callbacks then goOn .running (push .user s)
              else goOn .returning s

/-- `one_shot(method_sig, *args)`, up to the function of the promise if it has one. -/
def fulfil (oneShot : Option (Nat × Reply)) (s : AbstractChannel) : AbstractChannel :=
  match oneShot with
  | none => goOn .returning s
  | some (id, reply) =>
      if (s.promises id).function then goOn .running (push .user (push (.callback id) s))
      else goOn .returning (setPromise id { ready := true, value := some reply } s)

/-- The activation on top goes on. -/
def go (s : AbstractChannel) : AbstractChannel :=
  match s.stack, s.control with
  | .user :: _, _ => goOn .running s
  | .dispatch oneShot :: rest, .returning => fulfil oneShot { s with stack := rest }
  | .dispatch _ :: rest, .raising e => goOn (.raising e) { s with stack := rest }
  | .callback id :: rest, .returning =>
      let p := s.promises id
      goOn .returning (setPromise id { p with ready := true, value := p.keeps } { s with stack := rest })
  | .callback _ :: rest, .raising e => goOn (.raising e) { s with stack := rest }
  | .wait wait :: rest, .returning =>
      if (s.promises wait.promise).ready then leaveWait wait (.ok ()) { s with stack := rest }
      else if s.attached then goOn .running s
      else leaveWait wait (.error Channel.connectionClosed) { s with stack := rest }
  | .wait wait :: rest, .raising e => leaveWait wait (.error e) { s with stack := rest }
  | _, _ => s

def Activation.isUser : Activation → Bool
  | user => true
  | _ => false

def Activation.reads : Activation → Bool
  | user | wait _ => true
  | _ => false

/-- Code outside the class is on top. -/
def Idle (s : AbstractChannel) : Prop :=
  s.control = .running ∧ s.stack.head?.any Activation.isUser = true

/-- The activation on top reads from the connection. -/
def Drains (s : AbstractChannel) : Prop :=
  s.control = .running ∧ s.stack.head?.any Activation.reads = true

instance (s : AbstractChannel) : Decidable s.Idle := inferInstanceAs (Decidable (_ ∧ _))

instance (s : AbstractChannel) : Decidable s.Drains := inferInstanceAs (Decidable (_ ∧ _))

/-- `assign` and `settle` are other code at work on the attributes and on a promise; a
drain may bring a method, run other code, return or raise. -/
inductive Event where
  | go
  | wait (call : WaitCall)
  | return
  | raise (e : PyError)
  | assign (callbacks : List MethodSig) (isClosing attached : Bool)
  | settle (id : Nat) (p : Promise)
  | deliver (m : Inbound)
  | foreign
  | quiet
  | fail (e : PyError)

def step (cls : ChannelClass) (decode : Message → Message) (s : AbstractChannel) :
    Event → AbstractChannel
  | .go => go s
  | .wait call => if s.Idle then beginWait call s else s
  | .return =>
      if s.Idle ∧ s.stack.tail ≠ [] then goOn .returning { s with stack := s.stack.tail } else s
  | .raise e =>
      if s.Idle ∧ s.stack.tail ≠ [] then goOn (.raising e) { s with stack := s.stack.tail } else s
  | .assign callbacks isClosing attached => { s with callbacks, isClosing, attached }
  | .settle id p => setPromise id p s
  | .deliver m => if s.Drains then dispatchMethod cls decode m s else s
  | .foreign => if s.Drains then goOn .running (push .user s) else s
  | .quiet => if s.Drains then goOn .returning s else s
  | .fail e => if s.Drains then goOn (.raising e) s else s

/-- A run of a channel that begins with `first` in `_pending`. -/
def run (cls : ChannelClass) (decode : Message → Message) (first : MethodSig → Option Nat)
    (events : List Event) : AbstractChannel :=
  events.foldl (step cls decode) { pending := first }

end AbstractChannel

end PyAmqp
