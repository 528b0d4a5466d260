import PyAmqp.Channel.Revive
import Mathlib.Data.Finset.Erase
import Mathlib.Data.Finset.Insert

/-!
The consumers of a channel: the dictionaries `callbacks` and `cancel_callbacks`, the set
`no_ack_consumers`, and what changes them. The broker is kept beside the channel with the
consumers it runs: it starts one for each `Basic.Consume`, makes up a tag where it gets
none, and drops it on a `Basic.Cancel` of either side and when the channel is closed.
-/

namespace PyAmqp

/-- The arguments of `basic_consume` that stay with its tag; whether there is an
`on_cancel`. -/
structure Consume where
  consumerTag : PyStr := []
  noAck : Bool := false
  onCancel : Bool := false

/-- What a request asked the broker for: a consumer, which it runs under `tag`, or the
end of one. -/
inductive Asked where
  | consume (tag : PyStr) (c : Consume)
  | cancel (tag : PyStr)

/-- `running` has the tags of the broker's consumers with their `no_ack`, and `registered`
those of the consumers that were registered for their tags and are not cancelled yet. -/
structure Consumers (P : Promises Reply) extends Channel P where
  callbacks : Finset PyStr := ∅
  cancelCallbacks : Finset PyStr := ∅
  noAckConsumers : Finset PyStr := ∅
  asked : Nat → Option Asked := fun _ => none
  started : Nat := 0
  running : PyStr → Option Bool := fun _ => none
  registered : PyStr → Option Bool := fun _ => none

/-- `p[0]` of `basic_consume` -/
def Returned.consumerTag : Returned → Except PyError PyStr
  | .tuple (.value (.str tag) :: _) => .ok tag
  | .tuple [] => .error .indexError
  | _ => .error .typeError

/-- The tag that is the only argument of a method. -/
def tagArgument : List Arg → Option PyStr
  | [.value (.str tag)] => some tag
  | _ => none

namespace Channel

variable {P : Promises Reply}

section Sending

variable {cfg : Config} {sig : MethodSig} {s s' : Channel P} {e : PyError}

theorem sendMethod_ok (h : sendMethod cfg sig s = (.ok (), s')) :
    s.attached = true ∧ cfg.write s.writes = .ok () ∧
      s' = { s with writes := s.writes + 1, sent := s.sent ++ [sig] } := by
  unfold sendMethod at h
  by_cases hattached : s.attached = true
  · rw [if_pos hattached] at h
    cases hwrite : cfg.write s.writes with
    | ok value =>
        rw [hwrite] at h
        exact ⟨hattached, rfl, (Prod.mk.inj h).2.symm⟩
    | error e =>
        rw [hwrite] at h
        cases (Prod.mk.inj h).1
  · rw [if_neg hattached] at h
    cases (Prod.mk.inj h).1

theorem sendMethod_refused (h : sendMethod cfg sig s = (.error e, s')) (hattached : s.attached = true) :
    cfg.write s.writes ≠ .ok () := by
  obtain ⟨_, _, hsend, _⟩ | ⟨_, _, _, _, hrefused⟩ := sendMethod_cases cfg sig s
  · rw [h] at hsend
    cases (Prod.mk.inj hsend).1
  · exact fun hwrite => hrefused ⟨hattached, hwrite⟩

theorem request_refused {c : SyncCall} (h : request cfg c s = (.error e, s'))
    (hattached : s.attached = true) : cfg.write s.writes ≠ .ok () := by
  obtain ⟨_, _, hrequest, _⟩ | ⟨_, _, _, _, hrefused⟩ := request_cases cfg c s
  · rw [h] at hrequest
    cases (Prod.mk.inj hrequest).1
  · exact fun hwrite => hrefused ⟨hattached, hwrite⟩

end Sending

/-- The request of a `basic_consume` whose `wait` is on top and goes on, with what the
`wait` returns. -/
def returns (s : Channel P) : Option (Nat × Returned) :=
  match s.stack, s.control with
  | .wait id :: _, .returning =>
      if P.ready (s.waits id).promise then
        match (s.waits id).task with
        | .call request .basicConsume => some (request, (s.waits id).returned .basicConsume)
        | _ => none
      else none
  | _, _ => none

/-- The request of a `wait` on top that an exception reaches. -/
def raises (s : Channel P) : Option Nat :=
  match s.stack, s.control with
  | .wait id :: _, .raising _ =>
      match (s.waits id).task with
      | .call request _ => some request
      | _ => none
  | _, _ => none

/-- What the listener of a method that arrives gets. -/
def hears (cfg : Config) (m : Inbound) (s : Channel P) : Option (List Arg) :=
  if s.Drains ∧ s.listed = true ∧
      ¬ (s.isClosing = true ∧ m.methodSig ∉ allowedMethodsWhenClosing) then
    (m.parse cfg.decode).toOption
  else none

/-- A listener that hears a method runs on top of the `dispatch_method` that calls it. -/
theorem step_hears {cfg : Config} {m : Inbound} {s : Channel P} {args : List Arg}
    (hlistener : m.methodSig ∈ listeners) (hheard : hears cfg m s = some args) :
    ∃ oneShot, step cfg s (.deliver m) =
      listen cfg m.methodSig args (push (.dispatch oneShot)
        { s with
          broker := s.broker.receive cfg.decode m
          pending := Function.update s.pending m.methodSig none }) := by
  unfold hears at hheard
  split at hheard
  next hread =>
    obtain ⟨hdrains, hlisted, hclosing⟩ := hread
    obtain ⟨method, hmethod, hargs⟩ : ∃ method, findMethod m.methodSig = .ok method ∧
        m.args cfg.decode method = .ok args := by
      cases hparse : m.parse cfg.decode with
      | error e => simp [hparse, Except.toOption] at hheard
      | ok args' =>
          obtain rfl : args' = args := by simpa [hparse, Except.toOption] using hheard
          exact bind_eq_ok hparse
    refine ⟨(s.pending m.methodSig).map fun id => (id, (m.methodSig, args)), ?_⟩
    simp only [step, if_pos hdrains, onInboundMethod, hlisted, if_true, dispatchMethod]
    rw [if_neg hclosing]
    simp only [hmethod, hargs]
    rw [if_neg fun h => h.2 hlistener]
  next => simp at hheard

end Channel

/-- What happens on a channel with consumers: its calls of `basic_consume` and
`basic_cancel`, with or without `nowait`, and all else. -/
inductive ConsumerEvent where
  | consume (c : Consume) (nowait : Bool)
  | cancel (tag : PyStr) (nowait : Bool)
  | channel (event : Event)

/-- A `basic_consume` or `basic_cancel` without its arguments. -/
def Event.isConsumerCall : Event → Bool
  | .call .basicConsume | .call .basicCancel => true
  | _ => false

namespace Consumers

open Channel

variable {P : Promises Reply}

/-! The tables -/

/-- The end of `basic_consume`. -/
def register (tag : PyStr) (c : Consume) (s : Consumers P) : Consumers P :=
  { s with
    callbacks := insert tag s.callbacks
    cancelCallbacks := if c.onCancel then insert tag s.cancelCallbacks else s.cancelCallbacks
    noAckConsumers := if c.noAck then insert tag s.noAckConsumers else s.noAckConsumers
    registered := Function.update s.registered tag (s.running tag) }

/-- `_remove_tag` -/
def removeTag (tag : PyStr) (s : Consumers P) : Consumers P :=
  { s with
    callbacks := s.callbacks.erase tag
    cancelCallbacks := s.cancelCallbacks.erase tag
    registered := Function.update s.registered tag none }

/-- What `collect` clears. -/
def clear (s : Consumers P) : Consumers P :=
  { s with
    callbacks := ∅
    cancelCallbacks := ∅
    noAckConsumers := ∅
    registered := fun _ => none }

/-! The broker -/

/-- The tag of the consumer that a `Basic.Consume` starts. -/
def tagOf (generated : Nat → PyStr) (c : Consume) (s : Consumers P) : PyStr :=
  if c.consumerTag = [] then generated s.started else c.consumerTag

/-- The broker receives a `Basic.Consume`. -/
def starts (generated : Nat → PyStr) (c : Consume) (s : Consumers P) : Consumers P :=
  { s with
    started := s.started + 1
    running := Function.update s.running (s.tagOf generated c) (some c.noAck) }

/-- The broker receives a `Basic.Cancel`. -/
def ends (tag : PyStr) (s : Consumers P) : Consumers P :=
  { s with
    running := Function.update s.running tag none
    registered := Function.update s.registered tag none }

/-- What a method that is read tells of the broker's consumers. -/
def tells (cfg : Config) (m : Inbound) (s : Consumers P) : Consumers P :=
  match m.parse cfg.decode with
  | .error _ => s
  | .ok args =>
      if m.methodSig = Spec.Channel.close ∨ m.methodSig = Spec.Channel.closeOk then
        { s with running := fun _ => none }
      else if m.methodSig = Spec.Basic.cancel then
        match tagArgument args with
        | some tag => { s with running := Function.update s.running tag none }
        | none => s
      else s

/-- It changes nothing of the channel's. -/
theorem exists_tells (cfg : Config) (m : Inbound) (s : Consumers P) :
    ∃ running, s.tells cfg m = { s with running := running } := by
  unfold tells
  split
  · exact ⟨_, rfl⟩
  split
  · exact ⟨_, rfl⟩
  split
  · split <;> exact ⟨_, rfl⟩
  · exact ⟨_, rfl⟩

/-! basic_consume and basic_cancel -/

/-- `basic_consume`, up to its `wait`. -/
def startConsume (cfg : Config) (generated : Nat → PyStr) (c : Consume) (s : Consumers P) :
    Consumers P :=
  match request cfg .basicConsume s.toChannel with
  | (.ok id, channel) =>
      { s.starts generated c with
        toChannel := wait (.call id .basicConsume) channel
        asked := Function.update s.asked id (some (.consume (s.tagOf generated c) c)) }
  | (.error e, channel) => { s with toChannel := goOn (.raising e) channel }

/-- `basic_consume` with `nowait`; the tag is looked at when the request has been sent. -/
def consumeNowait (cfg : Config) (generated : Nat → PyStr) (c : Consume) (s : Consumers P) :
    Consumers P :=
  match sendMethod cfg Spec.Basic.consume s.toChannel with
  | (.ok (), channel) =>
      let s := { s.starts generated c with toChannel := channel }
      if c.consumerTag = [] then { s with toChannel := goOn (.raising .valueError) s.toChannel }
      else s.register c.consumerTag c
  | (.error e, channel) => { s with toChannel := goOn (.raising e) channel }

/-- The discard with which `basic_cancel` starts. -/
def discard (tag : PyStr) (s : Consumers P) : Consumers P :=
  { s with noAckConsumers := s.noAckConsumers.erase tag }

/-- `basic_cancel`, up to its `wait`. -/
def startCancel (cfg : Config) (tag : PyStr) (s : Consumers P) : Consumers P :=
  if s.attached then
    match request cfg .basicCancel s.toChannel with
    | (.ok id, channel) =>
        { (s.discard tag).ends tag with
          toChannel := wait (.call id .basicCancel) channel
          asked := Function.update s.asked id (some (.cancel tag)) }
    | (.error e, channel) => { s.discard tag with toChannel := goOn (.raising e) channel }
  else s

/-- `basic_cancel` with `nowait`. -/
def cancelNowait (cfg : Config) (tag : PyStr) (s : Consumers P) : Consumers P :=
  if s.attached then
    match sendMethod cfg Spec.Basic.cancel s.toChannel with
    | (.ok (), channel) => { (s.discard tag).ends tag with toChannel := channel }
    | (.error e, channel) => { s.discard tag with toChannel := goOn (.raising e) channel }
  else s

/-! Listeners -/

/-- `_on_close_ok`, `_on_close`, `_on_basic_cancel` and `_on_basic_cancel_ok`, up to their
calls. A server's `Channel.Close` ends the consumers of the channel. -/
def listen (cfg : Config) (m : Inbound) (s : Consumers P) : Consumers P :=
  match hears cfg m s.toChannel with
  | none => s
  | some args =>
      if m.methodSig = Spec.Channel.closeOk then s.clear
      else if m.methodSig = Spec.Channel.close then
        if s.isClosing then s else { s with registered := fun _ => none }
      else if m.methodSig = Spec.Basic.cancel ∨ m.methodSig = Spec.Basic.cancelOk then
        match tagArgument args with
        | some tag => s.removeTag tag
        | none => s
      else s

/-! Steps -/

/-- The `basic_consume` that goes on in a step, with what it gets for its tag. -/
def consumed (s : Consumers P) : Option (Consume × Except PyError PyStr) :=
  match returns s.toChannel with
  | some (id, returned) =>
      match s.asked id with
      | some (.consume _ c) => some (c, returned.consumerTag)
      | _ => none
  | none => none

/-- The activation on top goes on; `basic_consume` does when its `wait` has returned. -/
def goOnChannel (cfg : Config) (s : Consumers P) : Consumers P :=
  let channel := go cfg s.toChannel
  match s.consumed with
  | some (c, .ok tag) => { s.register tag c with toChannel := channel }
  | some (_, .error e) => { s with toChannel := goOn (.raising e) channel }
  | none => { s with toChannel := channel }

def stepChannel (cfg : Config) (s : Consumers P) : Event → Consumers P
  | .go => goOnChannel cfg s
  | .deliver m =>
      let tables := if s.Drains then (s.listen cfg m).tells cfg m else s
      { tables with toChannel := Channel.step cfg s.toChannel (.deliver m) }
  | .collect => { s.clear with toChannel := Channel.step cfg s.toChannel .collect }
  | event => { s with toChannel := Channel.step cfg s.toChannel event }

def step (cfg : Config) (generated : Nat → PyStr) (s : Consumers P) : ConsumerEvent → Consumers P
  | .consume c nowait =>
      if s.Idle then
        if nowait then consumeNowait cfg generated c s else startConsume cfg generated c s
      else s
  | .cancel tag nowait =>
      if s.Idle then if nowait then cancelNowait cfg tag s else startCancel cfg tag s else s
  | .channel event => if event.isConsumerCall then s else stepChannel cfg s event

def run (cfg : Config) (generated : Nat → PyStr) (events : List ConsumerEvent) : Consumers P :=
  events.foldl (step cfg generated) {}

/-! A server's methods -/

/-- The tag "t". -/
def someTag : PyStr := [Utf8.point 116]

/-- A method whose argument is the tag "t". -/
def named (sig : MethodSig) : Inbound :=
  { methodSig := sig, payload := [0, UInt8.ofNat sig.1, 0, UInt8.ofNat sig.2, 1, 116] }

/-- The reply to a call that waits, and the end of the call. -/
def replyEvents (m : Inbound) : List ConsumerEvent :=
  [.channel .go, .channel (.deliver m), .channel .go, .channel .go, .channel .go]

/-- A `Basic.Cancel` whose `on_cancel` returns. -/
def cancelEvents : List ConsumerEvent :=
  [.channel (.deliver (named Spec.Basic.cancel)), .channel .return, .channel .go, .channel .go]

end Consumers

end PyAmqp
