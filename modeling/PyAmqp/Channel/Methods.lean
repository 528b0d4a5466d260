import PyAmqp.Serialization.Content
import PyAmqp.Serialization.DecodeErrors

/-!
The methods of a channel: those it receives, with the types of their arguments, and
the calls of `amqp/channel.py` that wait for a reply.
-/

namespace PyAmqp

/-- `spec.method` -/
structure AmqpMethod where
  methodSig : MethodSig
  args : String := ""
  content : Bool := false

/-- `Channel._METHODS` -/
def channelMethods : List AmqpMethod :=
  [{ methodSig := Spec.Channel.close, args := "BsBB" },
    { methodSig := Spec.Channel.closeOk },
    { methodSig := Spec.Channel.flow, args := "b" },
    { methodSig := Spec.Channel.flowOk, args := "b" },
    { methodSig := Spec.Channel.openOk },
    { methodSig := Spec.Exchange.declareOk },
    { methodSig := Spec.Exchange.deleteOk },
    { methodSig := Spec.Exchange.bindOk },
    { methodSig := Spec.Exchange.unbindOk },
    { methodSig := Spec.Queue.bindOk },
    { methodSig := Spec.Queue.unbindOk },
    { methodSig := Spec.Queue.declareOk, args := "sll" },
    { methodSig := Spec.Queue.deleteOk, args := "l" },
    { methodSig := Spec.Queue.purgeOk, args := "l" },
    { methodSig := Spec.Basic.cancel, args := "s" },
    { methodSig := Spec.Basic.cancelOk, args := "s" },
    { methodSig := Spec.Basic.consumeOk, args := "s" },
    { methodSig := Spec.Basic.deliver, args := "sLbss", content := true },
    { methodSig := Spec.Basic.getEmpty, args := "s" },
    { methodSig := Spec.Basic.getOk, args := "Lbssl", content := true },
    { methodSig := Spec.Basic.qosOk },
    { methodSig := Spec.Basic.recoverOk },
    { methodSig := Spec.Basic.return, args := "Bsss", content := true },
    { methodSig := Spec.Tx.commitOk },
    { methodSig := Spec.Tx.rollbackOk },
    { methodSig := Spec.Tx.selectOk },
    { methodSig := Spec.Confirm.selectOk },
    { methodSig := Spec.Basic.ack, args := "Lb" },
    { methodSig := Spec.Basic.nack, args := "Lb" }]

/-- `_ALLOWED_METHODS_WHEN_CLOSING` -/
def allowedMethodsWhenClosing : List MethodSig := [Spec.Channel.close, Spec.Channel.closeOk]

/-- The keys of `_callbacks`. -/
def listeners : List MethodSig :=
  [Spec.Channel.close, Spec.Channel.closeOk, Spec.Channel.flow, Spec.Channel.openOk,
    Spec.Basic.cancel, Spec.Basic.cancelOk, Spec.Basic.deliver, Spec.Basic.return,
    Spec.Basic.ack, Spec.Basic.nack]

/-! Received methods -/

/-- An argument of a listener or of a promise. -/
inductive Arg where
  | value (v : Value)
  | content (msg : Option Message)

/-- A method as `on_inbound_method` gets it. -/
structure Inbound where
  methodSig : MethodSig
  payload : Octets
  content : Option Message := none

/-- The arguments `dispatch_method` loads; `decode` is what `auto_decode` makes of a
content. -/
def Inbound.args (decode : Message → Message) (m : Inbound) (method : AmqpMethod) :
    Except PyError (List Arg) := do
  let args ←
    if method.args = "" then pure []
    else do
      let (args, _) ← loads method.args.toList m.payload 4
      pure (args.map Arg.value)
  if method.content then return args ++ [.content (m.content.map decode)] else return args

def unknownMethod (sig : MethodSig) : PyError :=
  .amqp { cls := .amqpNotImplementedError, replyText := .unknownMethod sig }

/-- `self._METHODS[method_sig]` -/
def findMethod (sig : MethodSig) : Except PyError AmqpMethod :=
  match channelMethods.find? fun method => method.methodSig = sig with
  | some method => .ok method
  | none => .error (unknownMethod sig)

/-- The arguments of a method the channel knows. -/
def Inbound.parse (decode : Message → Message) (m : Inbound) : Except PyError (List Arg) := do
  m.args decode (← findMethod m.methodSig)

/-- Arguments that cannot be loaded raise a decoding error. -/
theorem Inbound.args_errors {decode : Message → Message} {m : Inbound} {method : AmqpMethod}
    {e : PyError} (h : m.args decode method = .error e) : e.isDecoding = true := by
  unfold Inbound.args at h
  by_cases hargs : method.args = ""
  · cases hcontent : method.content <;> simp [hargs, hcontent] at h <;> cases h
  · cases hloads : loads method.args.toList m.payload 4 with
    | error e' =>
        simp only [if_neg hargs, hloads, error_bind] at h
        obtain rfl := Except.error.inj h
        exact loads_errors _ _ _ _ hloads
    | ok loaded =>
        cases hcontent : method.content <;> simp [hargs, hloads, hcontent] at h

/-- A method that cannot be read raises a decoding error. -/
theorem Inbound.parse_errors {decode : Message → Message} {m : Inbound} {e : PyError}
    (h : m.parse decode = .error e) : e.isDecoding = true := by
  unfold Inbound.parse at h
  cases hfind : findMethod m.methodSig with
  | error e' =>
      rw [hfind, error_bind] at h
      unfold findMethod at hfind
      split at hfind
      · simp at hfind
      · obtain rfl := Except.error.inj hfind
        obtain rfl := Except.error.inj h
        rfl
  | ok method =>
      rw [hfind, ok_bind] at h
      exact Inbound.args_errors h

/-! Calls that wait for their reply -/

inductive SyncCall where
  | flow
  | open
  | close
  | exchangeDeclare
  | exchangeDelete
  | exchangeBind
  | exchangeUnbind
  | queueBind
  | queueUnbind
  | queueDeclare
  | queueDelete
  | queuePurge
  | basicCancel
  | basicConsume
  | basicGet
  | basicQos
  | txCommit
  | txRollback
  | txSelect
  | confirmSelect
  deriving DecidableEq, Repr

namespace SyncCall

def all : List SyncCall :=
  [flow, .open, close, exchangeDeclare, exchangeDelete, exchangeBind, exchangeUnbind, queueBind,
    queueUnbind, queueDeclare, queueDelete, queuePurge, basicCancel, basicConsume, basicGet,
    basicQos, txCommit, txRollback, txSelect, confirmSelect]

theorem mem_all (c : SyncCall) : c ∈ all := by
  cases c <;> decide

/-- The method a call sends. -/
def method : SyncCall → MethodSig
  | flow => Spec.Channel.flow
  | «open» => Spec.Channel.open
  | close => Spec.Channel.close
  | exchangeDeclare => Spec.Exchange.declare
  | exchangeDelete => Spec.Exchange.delete
  | exchangeBind => Spec.Exchange.bind
  | exchangeUnbind => Spec.Exchange.unbind
  | queueBind => Spec.Queue.bind
  | queueUnbind => Spec.Queue.unbind
  | queueDeclare => Spec.Queue.declare
  | queueDelete => Spec.Queue.delete
  | queuePurge => Spec.Queue.purge
  | basicCancel => Spec.Basic.cancel
  | basicConsume => Spec.Basic.consume
  | basicGet => Spec.Basic.get
  | basicQos => Spec.Basic.qos
  | txCommit => Spec.Tx.commit
  | txRollback => Spec.Tx.rollback
  | txSelect => Spec.Tx.select
  | confirmSelect => Spec.Confirm.select

/-- The methods a call waits for. -/
def replies : SyncCall → List MethodSig
  | flow => [Spec.Channel.flowOk]
  | «open» => [Spec.Channel.openOk]
  | close => [Spec.Channel.closeOk]
  | exchangeDeclare => [Spec.Exchange.declareOk]
  | exchangeDelete => [Spec.Exchange.deleteOk]
  | exchangeBind => [Spec.Exchange.bindOk]
  | exchangeUnbind => [Spec.Exchange.unbindOk]
  | queueBind => [Spec.Queue.bindOk]
  | queueUnbind => [Spec.Queue.unbindOk]
  | queueDeclare => [Spec.Queue.declareOk]
  | queueDelete => [Spec.Queue.deleteOk]
  | queuePurge => [Spec.Queue.purgeOk]
  | basicCancel => [Spec.Basic.cancelOk]
  | basicConsume => [Spec.Basic.consumeOk]
  | basicGet => [Spec.Basic.getOk, Spec.Basic.getEmpty]
  | basicQos => [Spec.Basic.qosOk]
  | txCommit => [Spec.Tx.commitOk]
  | txRollback => [Spec.Tx.rollbackOk]
  | txSelect => [Spec.Tx.selectOk]
  | confirmSelect => [Spec.Confirm.selectOk]

/-- `returns_tuple` -/
def returnsTuple : SyncCall → Bool
  | queueDeclare | basicConsume | basicGet => true
  | _ => false

theorem replies_nodup (c : SyncCall) : c.replies.Nodup := by
  cases c <;> decide

/-- Publisher confirms are no replies, and neither is a server's close. -/
theorem notMem_replies (c : SyncCall) :
    Spec.Basic.ack ∉ c.replies ∧ Spec.Basic.nack ∉ c.replies ∧ Spec.Channel.close ∉ c.replies := by
  cases c <;> decide

end SyncCall

/-- The method answers some call. -/
def IsReply (sig : MethodSig) : Prop := ∃ c : SyncCall, sig ∈ c.replies

instance (sig : MethodSig) : Decidable (IsReply sig) :=
  decidable_of_iff (∃ c ∈ SyncCall.all, sig ∈ c.replies) (by simp [IsReply, SyncCall.mem_all])

end PyAmqp
