import PyAmqp.Channel.Methods

/-!
The requests of `amqp/channel.py`: what each operation of a channel passes to `send_method`.
An operation takes the parameters of its method, with the source's defaults; a truth value is
whatever object the caller passes.
-/

namespace PyAmqp

/-- What `send_method` is called with, but for a content. A request without a format has no
arguments, and `wait` is empty for one that does not wait. -/
structure Request where
  sig : MethodSig
  format : String := ""
  args : List Value := []
  wait : List MethodSig := []
  returnsTuple : Bool := false

/-- `None if nowait else reply` -/
def waitUnless (nowait : Value) (reply : MethodSig) : List MethodSig :=
  if nowait.truthy then [] else [reply]

/-! Parameters -/

namespace Request

/-- `''` -/
def empty : Value := .str []

structure Close where
  replyCode : Value := .int 0
  replyText : Value := empty
  methodSig : Value × Value := (.int 0, .int 0)

structure ExchangeDeclare where
  exchange : Value
  type : Value
  passive : Value := .bool false
  durable : Value := .bool false
  autoDelete : Value := .bool true
  nowait : Value := .bool false
  arguments : Value := .none

structure ExchangeDelete where
  exchange : Value
  ifUnused : Value := .bool false
  nowait : Value := .bool false

/-- The parameters of `exchange_bind` and `exchange_unbind`. -/
structure ExchangeBind where
  destination : Value
  source : Value := empty
  routingKey : Value := empty
  nowait : Value := .bool false
  arguments : Value := .none

structure QueueBind where
  queue : Value
  exchange : Value := empty
  routingKey : Value := empty
  nowait : Value := .bool false
  arguments : Value := .none

structure QueueUnbind where
  queue : Value
  exchange : Value
  routingKey : Value := empty
  nowait : Value := .bool false
  arguments : Value := .none

structure QueueDeclare where
  queue : Value := empty
  passive : Value := .bool false
  durable : Value := .bool false
  exclusive : Value := .bool false
  autoDelete : Value := .bool true
  nowait : Value := .bool false
  arguments : Value := .none

structure QueueDelete where
  queue : Value := empty
  ifUnused : Value := .bool false
  ifEmpty : Value := .bool false
  nowait : Value := .bool false

structure QueuePurge where
  queue : Value := empty
  nowait : Value := .bool false

structure BasicAck where
  deliveryTag : Value
  multiple : Value := .bool false

structure BasicCancel where
  consumerTag : Value
  nowait : Value := .bool false

structure BasicConsume where
  queue : Value := empty
  consumerTag : Value := empty
  noLocal : Value := .bool false
  noAck : Value := .bool false
  exclusive : Value := .bool false
  nowait : Value := .bool false
  arguments : Value := .none

structure BasicGet where
  queue : Value := empty
  noAck : Value := .bool false

structure BasicPublish where
  exchange : Value := empty
  routingKey : Value := empty
  mandatory : Value := .bool false
  immediate : Value := .bool false

structure BasicQos where
  prefetchSize : Value
  prefetchCount : Value
  aGlobal : Value

structure BasicReject where
  deliveryTag : Value
  requeue : Value

/-! Requests -/

def flow (active : Value) : Request where
  sig := Spec.Channel.flow
  format := "b"
  args := [active]
  wait := [Spec.Channel.flowOk]

/-- `_x_flow_ok` -/
def flowOk (active : Value) : Request where
  sig := Spec.Channel.flowOk
  format := "b"
  args := [active]

/-- `open`, of a channel that is not open -/
def «open» : Request where
  sig := Spec.Channel.open
  format := "s"
  args := [empty]
  wait := [Spec.Channel.openOk]

def Close.request (p : Close) : Request where
  sig := Spec.Channel.close
  format := "BsBB"
  args := [p.replyCode, p.replyText, p.methodSig.1, p.methodSig.2]
  wait := [Spec.Channel.closeOk]

/-- The request of `_on_close`. -/
def closeOk : Request where
  sig := Spec.Channel.closeOk

def ExchangeDeclare.request (p : ExchangeDeclare) : Request where
  sig := Spec.Exchange.declare
  format := "BssbbbbbF"
  args := [.int 0, p.exchange, p.type, p.passive, p.durable, p.autoDelete, .bool false, p.nowait,
    p.arguments]
  wait := waitUnless p.nowait Spec.Exchange.declareOk

def ExchangeDelete.request (p : ExchangeDelete) : Request where
  sig := Spec.Exchange.delete
  format := "Bsbb"
  args := [.int 0, p.exchange, p.ifUnused, p.nowait]
  wait := waitUnless p.nowait Spec.Exchange.deleteOk

def exchangeBind (p : ExchangeBind) : Request where
  sig := Spec.Exchange.bind
  format := "BsssbF"
  args := [.int 0, p.destination, p.source, p.routingKey, p.nowait, p.arguments]
  wait := waitUnless p.nowait Spec.Exchange.bindOk

def exchangeUnbind (p : ExchangeBind) : Request where
  sig := Spec.Exchange.unbind
  format := "BsssbF"
  args := [.int 0, p.destination, p.source, p.routingKey, p.nowait, p.arguments]
  wait := waitUnless p.nowait Spec.Exchange.unbindOk

def QueueBind.request (p : QueueBind) : Request where
  sig := Spec.Queue.bind
  format := "BsssbF"
  args := [.int 0, p.queue, p.exchange, p.routingKey, p.nowait, p.arguments]
  wait := waitUnless p.nowait Spec.Queue.bindOk

/-- The one request with a `nowait` that does not send it. -/
def QueueUnbind.request (p : QueueUnbind) : Request where
  sig := Spec.Queue.unbind
  format := "BsssF"
  args := [.int 0, p.queue, p.exchange, p.routingKey, p.arguments]
  wait := waitUnless p.nowait Spec.Queue.unbindOk

def QueueDeclare.request (p : QueueDeclare) : Request where
  sig := Spec.Queue.declare
  format := "BsbbbbbF"
  args := [.int 0, p.queue, p.passive, p.durable, p.exclusive, p.autoDelete, p.nowait, p.arguments]
  wait := waitUnless p.nowait Spec.Queue.declareOk
  returnsTuple := true

def QueueDelete.request (p : QueueDelete) : Request where
  sig := Spec.Queue.delete
  format := "Bsbbb"
  args := [.int 0, p.queue, p.ifUnused, p.ifEmpty, p.nowait]
  wait := waitUnless p.nowait Spec.Queue.deleteOk

def QueuePurge.request (p : QueuePurge) : Request where
  sig := Spec.Queue.purge
  format := "Bsb"
  args := [.int 0, p.queue, p.nowait]
  wait := waitUnless p.nowait Spec.Queue.purgeOk

def BasicAck.request (p : BasicAck) : Request where
  sig := Spec.Basic.ack
  format := "Lb"
  args := [p.deliveryTag, p.multiple]

def BasicCancel.request (p : BasicCancel) : Request where
  sig := Spec.Basic.cancel
  format := "sb"
  args := [p.consumerTag, p.nowait]
  wait := waitUnless p.nowait Spec.Basic.cancelOk

def BasicConsume.request (p : BasicConsume) : Request where
  sig := Spec.Basic.consume
  format := "BssbbbbF"
  args := [.int 0, p.queue, p.consumerTag, p.noLocal, p.noAck, p.exclusive, p.nowait, p.arguments]
  wait := waitUnless p.nowait Spec.Basic.consumeOk
  returnsTuple := true

def BasicGet.request (p : BasicGet) : Request where
  sig := Spec.Basic.get
  format := "Bsb"
  args := [.int 0, p.queue, p.noAck]
  wait := [Spec.Basic.getOk, Spec.Basic.getEmpty]
  returnsTuple := true

/-- The method of a publish; the message is its content. -/
def BasicPublish.request (p : BasicPublish) : Request where
  sig := Spec.Basic.publish
  format := "Bssbb"
  args := [.int 0, p.exchange, p.routingKey, p.mandatory, p.immediate]

def BasicQos.request (p : BasicQos) : Request where
  sig := Spec.Basic.qos
  format := "lBb"
  args := [p.prefetchSize, p.prefetchCount, p.aGlobal]
  wait := [Spec.Basic.qosOk]

def basicRecover (requeue : Value) : Request where
  sig := Spec.Basic.recover
  format := "b"
  args := [requeue]

def basicRecoverAsync (requeue : Value) : Request where
  sig := Spec.Basic.recoverAsync
  format := "b"
  args := [requeue]

def BasicReject.request (p : BasicReject) : Request where
  sig := Spec.Basic.reject
  format := "Lb"
  args := [p.deliveryTag, p.requeue]

def txCommit : Request where
  sig := Spec.Tx.commit
  wait := [Spec.Tx.commitOk]

def txRollback : Request where
  sig := Spec.Tx.rollback
  wait := [Spec.Tx.rollbackOk]

def txSelect : Request where
  sig := Spec.Tx.select
  wait := [Spec.Tx.selectOk]

def confirmSelect (nowait : Value) : Request where
  sig := Spec.Confirm.select
  format := "b"
  args := [nowait]
  wait := waitUnless nowait Spec.Confirm.selectOk

end Request

/-- A request that a channel makes without a content: a call of one of its methods, or an
answer that one of its listeners sends. -/
inductive Operation where
  | flow (active : Value)
  | flowOk (active : Value)
  | open
  | close (p : Request.Close)
  | closeOk
  | exchangeDeclare (p : Request.ExchangeDeclare)
  | exchangeDelete (p : Request.ExchangeDelete)
  | exchangeBind (p : Request.ExchangeBind)
  | exchangeUnbind (p : Request.ExchangeBind)
  | queueBind (p : Request.QueueBind)
  | queueUnbind (p : Request.QueueUnbind)
  | queueDeclare (p : Request.QueueDeclare)
  | queueDelete (p : Request.QueueDelete)
  | queuePurge (p : Request.QueuePurge)
  | basicAck (p : Request.BasicAck)
  | basicCancel (p : Request.BasicCancel)
  | basicConsume (p : Request.BasicConsume)
  | basicGet (p : Request.BasicGet)
  | basicQos (p : Request.BasicQos)
  | basicRecover (requeue : Value)
  | basicRecoverAsync (requeue : Value)
  | basicReject (p : Request.BasicReject)
  | txCommit
  | txRollback
  | txSelect
  | confirmSelect (nowait : Value)

namespace Operation

def request : Operation → Request
  | .flow active => Request.flow active
  | .flowOk active => Request.flowOk active
  | .open => Request.open
  | .close p => p.request
  | .closeOk => Request.closeOk
  | .exchangeDeclare p => p.request
  | .exchangeDelete p => p.request
  | .exchangeBind p => Request.exchangeBind p
  | .exchangeUnbind p => Request.exchangeUnbind p
  | .queueBind p => p.request
  | .queueUnbind p => p.request
  | .queueDeclare p => p.request
  | .queueDelete p => p.request
  | .queuePurge p => p.request
  | .basicAck p => p.request
  | .basicCancel p => p.request
  | .basicConsume p => p.request
  | .basicGet p => p.request
  | .basicQos p => p.request
  | .basicRecover requeue => Request.basicRecover requeue
  | .basicRecoverAsync requeue => Request.basicRecoverAsync requeue
  | .basicReject p => p.request
  | .txCommit => Request.txCommit
  | .txRollback => Request.txRollback
  | .txSelect => Request.txSelect
  | .confirmSelect nowait => Request.confirmSelect nowait

/-- The calls among the operations that may wait for a reply. -/
def syncCall? : Operation → Option SyncCall
  | .flow _ => some .flow
  | .open => some .open
  | .close _ => some .close
  | .exchangeDeclare _ => some .exchangeDeclare
  | .exchangeDelete _ => some .exchangeDelete
  | .exchangeBind _ => some .exchangeBind
  | .exchangeUnbind _ => some .exchangeUnbind
  | .queueBind _ => some .queueBind
  | .queueUnbind _ => some .queueUnbind
  | .queueDeclare _ => some .queueDeclare
  | .queueDelete _ => some .queueDelete
  | .queuePurge _ => some .queuePurge
  | .basicCancel _ => some .basicCancel
  | .basicConsume _ => some .basicConsume
  | .basicGet _ => some .basicGet
  | .basicQos _ => some .basicQos
  | .txCommit => some .txCommit
  | .txRollback => some .txRollback
  | .txSelect => some .txSelect
  | .confirmSelect _ => some .confirmSelect
  | .flowOk _ | .closeOk | .basicAck _ | .basicRecover _ | .basicRecoverAsync _ | .basicReject _ =>
      none

/-- What waits is a call with a reply, and it waits for just its replies. -/
theorem wait_syncCall (op : Operation) :
    (op.request.wait = [] ∨ ∃ c, op.syncCall? = some c ∧ op.request.wait = c.replies) ∧
      ∀ c, op.syncCall? = some c →
        op.request.sig = c.method ∧ op.request.returnsTuple = c.returnsTuple := by
  have hunless : ∀ nowait reply, waitUnless nowait reply = [] ∨ waitUnless nowait reply = [reply] := by
    intro nowait reply
    unfold waitUnless
    split
    · exact .inl rfl
    · exact .inr rfl
  constructor
  · cases op
    case flow | «open» | close | basicGet | basicQos | txCommit | txRollback | txSelect =>
      exact .inr ⟨_, rfl, rfl⟩
    case flowOk | closeOk | basicAck | basicRecover | basicRecoverAsync | basicReject =>
      exact .inl rfl
    all_goals
      apply (hunless _ _).imp_right
      exact fun hwait => ⟨_, rfl, hwait⟩
  · intro c hc
    cases op <;> cases hc <;> exact ⟨rfl, rfl⟩

end Operation

end PyAmqp
