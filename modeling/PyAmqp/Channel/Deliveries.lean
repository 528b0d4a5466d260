import PyAmqp.Channel.Consumers

/-!
What becomes of a `Basic.Deliver`. The dictionary `callbacks` has a callable or `None` for
each tag. `_on_basic_deliver` calls the one, and rejects the message where there is no
entry; `None` it calls as well.
-/

namespace PyAmqp

/-- `msg.delivery_info` -/
structure DeliveryInfo where
  consumerTag : PyStr
  deliveryTag : Int
  redelivered : Bool
  exchange : PyStr
  routingKey : PyStr
  deriving DecidableEq

/-- A call of a callable with a message. The callables have numbers. -/
structure Called where
  function : Nat
  info : DeliveryInfo
  msg : Message

/-- A change of `callbacks`: a `basic_consume` that has gone through with its `callback`, a
tag that is removed, or the whole dictionary cleared. -/
inductive Change where
  | registered (tag : PyStr) (callback : Option Nat)
  | removed (tag : PyStr)
  | cleared

/-- The callback that a tag was registered with, after the changes of a run, the last of
which comes first; a tag may be registered with none. -/
def registration (tag : PyStr) : List Change → Option (Option Nat)
  | [] => none
  | .registered other callback :: rest =>
      if other = tag then some callback else registration tag rest
  | .removed other :: rest => if other = tag then none else registration tag rest
  | .cleared :: _ => none

/-- `functions` are the values of `callbacks`, whose keys are those of `Consumers`;
`passed` has the `callback` of each `basic_consume` by the request it sent. `calls`,
`rejects` and `history` are what happened so far. -/
structure Deliveries (P : Promises Reply) extends Consumers P where
  functions : PyStr → Option Nat := fun _ => none
  passed : Nat → Option Nat := fun _ => none
  calls : List Called := []
  rejects : List (Int × Bool) := []
  history : List Change := []

/-- A `basic_consume` with its `callback`, or what else happens. -/
inductive DeliveryEvent where
  | consume (c : Consume) (callback : Option Nat) (nowait : Bool)
  | cancel (tag : PyStr) (nowait : Bool)
  | channel (event : Event)

namespace Deliveries

open Channel

variable {P : Promises Reply}

/-- The arguments of a `Basic.Deliver` with its message, if it has them. -/
def deliveryOf (cfg : Config) (m : Inbound) : Option (DeliveryInfo × Message) :=
  match m.parse cfg.decode with
  | .ok [.value (.str consumerTag), .value (.int deliveryTag), .value (.bool redelivered),
      .value (.str exchange), .value (.str routingKey), .content (some msg)] =>
      some (⟨consumerTag, deliveryTag, redelivered, exchange, routingKey⟩, msg)
  | _ => none

/-- `self.callbacks[tag] = callback` -/
def setCallback (tag : PyStr) (callback : Option Nat) (s : Deliveries P) : Deliveries P :=
  { s with
    functions := Function.update s.functions tag callback
    history := .registered tag callback :: s.history }

/-- `basic_reject` -/
def basicReject (cfg : Config) (deliveryTag : Int) (requeue : Bool) (s : Deliveries P) :
    Except PyError Unit × Deliveries P :=
  match sendMethod cfg Spec.Basic.reject s.toChannel with
  | (.ok (), channel) =>
      (.ok (), { s with toChannel := channel, rejects := s.rejects ++ [(deliveryTag, requeue)] })
  | (.error e, channel) => (.error e, { s with toChannel := channel })

/-- The listener that runs on top returns, or raises. -/
def leaveListener (outcome : Except PyError Unit) (s : Deliveries P) : Deliveries P :=
  { s with
    toChannel :=
      goOn (match outcome with | .ok _ => .returning | .error e => .raising e)
        { s.toChannel with stack := s.stack.tail } }

/-- `_on_basic_deliver`, which runs on top, up to the callable. -/
def onBasicDeliver (cfg : Config) (info : DeliveryInfo) (msg : Message) (s : Deliveries P) :
    Deliveries P :=
  if info.consumerTag ∈ s.callbacks then
    match s.functions info.consumerTag with
    | some function => { s with calls := s.calls ++ [⟨function, info, msg⟩] }
    | none => leaveListener (.error .typeError) s
  else
    let (outcome, s) := basicReject cfg info.deliveryTag true s
    leaveListener outcome s

/-- The listener of a `Basic.Deliver`; without a content `msg.channel` cannot be set. -/
def listenDeliver (cfg : Config) (m : Inbound) (s : Deliveries P) : Deliveries P :=
  match deliveryOf cfg m with
  | some (info, msg) => onBasicDeliver cfg info msg s
  | none => leaveListener (.error .attributeError) s

/-- The entries of `callbacks` that a method takes away. -/
def removals (cfg : Config) (m : Inbound) (s : Deliveries P) : List Change :=
  match hears cfg m s.toChannel with
  | none => []
  | some args =>
      if m.methodSig = Spec.Channel.closeOk then [.cleared]
      else if m.methodSig = Spec.Basic.cancel ∨ m.methodSig = Spec.Basic.cancelOk then
        match tagArgument args with
        | some tag => [.removed tag]
        | none => []
      else []

/-- A method is read, up to the listener of a `Basic.Deliver`. -/
def readMethod (cfg : Config) (m : Inbound) (s : Deliveries P) : Deliveries P :=
  { s with
    toConsumers := Consumers.stepChannel cfg s.toConsumers (.deliver m)
    history := removals cfg m s ++ s.history }

def deliver (cfg : Config) (m : Inbound) (s : Deliveries P) : Deliveries P :=
  if m.methodSig = Spec.Basic.deliver ∧ (hears cfg m s.toChannel).isSome then
    listenDeliver cfg m (readMethod cfg m s)
  else readMethod cfg m s

/-- `basic_consume`; with `nowait` it goes through if its request is sent and has a tag. -/
def consume (cfg : Config) (generated : Nat → PyStr) (c : Consume) (callback : Option Nat)
    (nowait : Bool) (s : Deliveries P) : Deliveries P :=
  if nowait then
    let s' := { s with toConsumers := Consumers.consumeNowait cfg generated c s.toConsumers }
    if (sendMethod cfg Spec.Basic.consume s.toChannel).1 = .ok () ∧ c.consumerTag ≠ [] then
      setCallback c.consumerTag callback s'
    else s'
  else
    { s with
      toConsumers := Consumers.startConsume cfg generated c s.toConsumers
      passed := Function.update s.passed s.broker.requests callback }

/-- The `callback` of the `basic_consume` that goes on in a step. -/
def passedOn (s : Deliveries P) : Option Nat :=
  match returns s.toChannel with
  | some (id, _) => s.passed id
  | none => none

/-- The activation on top goes on. -/
def goOnChannel (cfg : Config) (s : Deliveries P) : Deliveries P :=
  let s' := { s with toConsumers := Consumers.goOnChannel cfg s.toConsumers }
  match s.consumed with
  | some (_, .ok tag) => setCallback tag s.passedOn s'
  | _ => s'

def step (cfg : Config) (generated : Nat → PyStr) (s : Deliveries P) : DeliveryEvent → Deliveries P
  | .consume c callback nowait => if s.Idle then consume cfg generated c callback nowait s else s
  | .cancel tag nowait =>
      { s with toConsumers := Consumers.step cfg generated s.toConsumers (.cancel tag nowait) }
  | .channel .go => goOnChannel cfg s
  | .channel (.deliver m) => deliver cfg m s
  | .channel .collect =>
      { s with
        toConsumers := Consumers.step cfg generated s.toConsumers (.channel .collect)
        history := .cleared :: s.history }
  | .channel event =>
      { s with toConsumers := Consumers.step cfg generated s.toConsumers (.channel event) }

def run (cfg : Config) (generated : Nat → PyStr) (events : List DeliveryEvent) : Deliveries P :=
  events.foldl (step cfg generated) {}

end Deliveries

end PyAmqp
