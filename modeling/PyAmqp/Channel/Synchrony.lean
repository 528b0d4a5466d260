import PyAmqp.Channel.Sends
import PyAmqp.Channel.Waits

/-!
Calls and the server's answers. The server answers a request unless its no-wait bit is set, and
the client waits unless its `nowait` argument is true; the two agree for every request but those
of `queue_unbind`, which has no such bit, and of `basic_recover`. So a call of `queue_unbind` that
does not wait leaves an `UnbindOk` behind, and a later one that does wait takes it for its own.
-/

namespace PyAmqp

/-! What the server answers -/

/-- Where a request has its no-wait bit: "If set, the server will not respond to the method". -/
def noWaitPlaces : List (MethodSig × Nat) :=
  [(Spec.Exchange.declare, 7),
    (Spec.Exchange.delete, 3),
    (Spec.Exchange.bind, 4),
    (Spec.Exchange.unbind, 4),
    (Spec.Queue.bind, 4),
    (Spec.Queue.declare, 6),
    (Spec.Queue.delete, 4),
    (Spec.Queue.purge, 2),
    (Spec.Basic.cancel, 1),
    (Spec.Basic.consume, 6),
    (Spec.Confirm.select, 0)]

/-- The methods that answer a request. -/
def answers (sig : MethodSig) : List MethodSig :=
  if sig = Spec.Basic.recover then [Spec.Basic.recoverOk]
  else
    match SyncCall.all.find? fun c => c.method = sig with
    | some c => c.replies
    | none => []

namespace Demand

/-- The no-wait bit, in a request that has one. -/
def nowait (a : Demand) : Bool :=
  match (noWaitPlaces.lookup a.sig).bind fun place => a.args[place]? with
  | some (.bool bit) => bit
  | _ => false

/-- The methods the server answers the request with; with none, it does not answer. -/
def replies (a : Demand) : List MethodSig := if a.nowait then [] else answers a.sig

end Demand

namespace Request

/-- The truth value of the argument that stands there. -/
theorem asked_nowait {r : Request} {place : Nat} {val : Value} (channel : Nat)
    (hplace : noWaitPlaces.lookup r.sig = some place) (hletter : r.format.toList[place]? = some 'b')
    (hval : r.args[place]? = some val) : (r.asked channel).nowait = val.truthy := by
  have hback : (List.zipWith argumentBack r.format.toList r.args)[place]? =
      some (.bool val.truthy) := by
    rw [List.getElem?_zipWith, hletter, hval]
    rfl
  simp only [Demand.nowait, asked, hplace, Option.bind_some, hback]

/-- A request whose `nowait` argument is at the place of its no-wait bit. -/
theorem replies_unless {sig : MethodSig} {format : String} {args : List Value} {place : Nat}
    {nowait : Value} {reply : MethodSig} {returnsTuple : Bool} (channel : Nat)
    (hplace : noWaitPlaces.lookup sig = some place) (hletter : format.toList[place]? = some 'b')
    (hval : args[place]? = some nowait) (hanswers : answers sig = [reply]) :
    (asked channel ⟨sig, format, args, waitUnless nowait reply, returnsTuple⟩).replies =
      waitUnless nowait reply := by
  rw [waitUnless, Demand.replies, asked_nowait channel hplace hletter hval]
  split
  · rfl
  · exact hanswers

/-- A request without a no-wait bit. -/
theorem replies_always {r : Request} (channel : Nat)
    (hplace : noWaitPlaces.lookup r.sig = none) : (r.asked channel).replies = answers r.sig := by
  simp only [Demand.replies, Demand.nowait, asked, hplace, Option.bind_none, if_neg,
    Bool.false_eq_true, not_false_eq_true]

end Request

namespace Operation

/-- The requests that the server answers though the client does not wait. -/
def Overlooked : Operation → Prop
  | .queueUnbind p => p.nowait.truthy = true
  | .basicRecover _ => True
  | _ => False

instance : (op : Operation) → Decidable op.Overlooked
  | .queueUnbind p => inferInstanceAs (Decidable (p.nowait.truthy = true))
  | .basicRecover _ => .isTrue trivial
  | .flow _ | .flowOk _ | .open | .close _ | .closeOk | .exchangeDeclare _ | .exchangeDelete _
  | .exchangeBind _ | .exchangeUnbind _ | .queueBind _ | .queueDeclare _ | .queueDelete _
  | .queuePurge _ | .basicAck _ | .basicCancel _ | .basicConsume _ | .basicGet _ | .basicQos _
  | .basicRecoverAsync _ | .basicReject _ | .txCommit | .txRollback | .txSelect
  | .confirmSelect _ => .isFalse id

/-- The server answers just what the client waits for, unless the request is overlooked. -/
theorem replies_asked {op : Operation} (h : ¬ op.Overlooked) (channel : Nat) :
    (op.request.asked channel).replies = op.request.wait := by
  cases op
  case exchangeDeclare | exchangeDelete | exchangeBind | exchangeUnbind | queueBind | queueDeclare |
      queueDelete | queuePurge | basicCancel | basicConsume | confirmSelect =>
    exact Request.replies_unless channel rfl (by decide) rfl (by decide)
  case queueUnbind p =>
    have hwait : waitUnless p.nowait Spec.Queue.unbindOk = [Spec.Queue.unbindOk] := if_neg h
    exact (Request.replies_always channel rfl).trans hwait.symm
  case basicRecover => exact absurd trivial h
  all_goals exact Request.replies_always channel rfl

/-- What the server answers an overlooked request, the client does not wait for. -/
theorem replies_overlooked {op : Operation} (h : op.Overlooked) (channel : Nat) :
    op.request.wait = [] ∧
      ((op.request.asked channel).replies = [Spec.Queue.unbindOk] ∨
        (op.request.asked channel).replies = [Spec.Basic.recoverOk]) := by
  cases op
  case queueUnbind p => exact ⟨if_pos h, .inl (Request.replies_always channel rfl)⟩
  case basicRecover => exact ⟨rfl, .inr (Request.replies_always channel rfl)⟩
  all_goals exact absurd h id

end Operation

/-! The client between calls and in one -/

namespace AbstractChannel

/-- `dispatch_method` with a method that has come in, and what follows of it: its listener returns,
and the activations go on up to code outside the class, or to a `wait` that reads again. -/
def hear (decode : Message → Message) (m : Inbound) (s : AbstractChannel) : AbstractChannel :=
  [Event.deliver m, .return, .go, .go, .go, .go].foldl (step channelClass decode) s

/-- A call of `wait`, up to its first read. -/
def listen (call : WaitCall) (s : AbstractChannel) : AbstractChannel := go (beginWait call s)

/-- An attached channel that is not closing. -/
structure Open (s : AbstractChannel) : Prop where
  isClosing : s.isClosing = false
  attached : s.attached = true

/-- No call is in progress and nothing is awaited. -/
structure Resting (s : AbstractChannel) : Prop extends Open s where
  stack : s.stack = [.user]
  control : s.control = .running
  pending : s.pending = fun _ => none

/-- The call `wait` of the user reads, and its methods are awaited. -/
structure Awaiting (wait : Wait) (s : AbstractChannel) : Prop extends Open s where
  stack : s.stack = [.wait wait, .user]
  control : s.control = .running
  pending : s.pending = fun m => if m ∈ wait.methods then some wait.promise else none
  promise : s.promises wait.promise = {}
  begun : Begun wait
  entered : wait.entered = fun _ => none
  nodup : wait.methods.Nodup

variable {decode : Message → Message} {s : AbstractChannel} {m : Inbound} {args : List Arg}

/-- A method that is neither awaited nor listened to is dropped; any other has its promise taken
out of the table, and its listener has returned. -/
theorem dispatched (h : m.parse decode = .ok args) (hopen : s.Open) (hdrains : s.Drains) :
    step channelClass decode (step channelClass decode s (.deliver m)) .return =
      goOn .returning { s with
        pending := Function.update s.pending m.methodSig none
        stack := if s.pending m.methodSig = none ∧ m.methodSig ∉ s.callbacks then s.stack
          else .dispatch ((s.pending m.methodSig).map fun id => (id, (m.methodSig, args))) ::
            s.stack } := by
  obtain ⟨method, hmethod, hargs⟩ : ∃ method, channelClass.findMethod m.methodSig = .ok method ∧
      m.args decode method = .ok args := by
    unfold Inbound.parse at h
    cases hfind : findMethod m.methodSig with
    | error e => simp [hfind] at h
    | ok method => exact ⟨method, hfind, by simpa [hfind] using h⟩
  simp only [step, if_pos hdrains, dispatchMethod, hopen.isClosing, Bool.false_eq_true, false_and,
    if_false, hmethod, hargs]
  by_cases hdropped : s.pending m.methodSig = none ∧ m.methodSig ∉ s.callbacks
  · simp [hdropped, Idle, goOn]
  · by_cases hlistener : m.methodSig ∈ s.callbacks
    · simp [hlistener, Idle, goOn, push, Activation.isUser]
    · have hawaited : s.pending m.methodSig ≠ none := fun hnone => hdropped ⟨hnone, hlistener⟩
      simp [hawaited, hlistener, Idle, goOn, push]

theorem hear_eq (h : m.parse decode = .ok args) (hopen : s.Open) (hdrains : s.Drains) :
    hear decode m s = go (go (go (go (goOn .returning { s with
      pending := Function.update s.pending m.methodSig none
      stack := if s.pending m.methodSig = none ∧ m.methodSig ∉ s.callbacks then s.stack
        else .dispatch ((s.pending m.methodSig).map fun id => (id, (m.methodSig, args))) ::
          s.stack })))) := by
  rw [← dispatched h hopen hdrains]
  rfl

/-- Between calls nothing that comes in is awaited. -/
theorem Resting.hear (h : Resting s) (hparse : m.parse decode = .ok args) :
    Resting (hear decode m s) := by
  have hdrains : s.Drains := ⟨h.control, by simp [h.stack, Activation.reads]⟩
  have hnone : Function.update s.pending m.methodSig none = fun _ => none := by
    rw [h.pending]
    exact Function.update_eq_self m.methodSig _
  rw [hear_eq hparse h.toOpen hdrains, hnone, h.stack, h.pending]
  by_cases hlistener : m.methodSig ∈ s.callbacks
  · rw [if_neg (by simp [hlistener])]
    exact ⟨⟨h.isClosing, h.attached⟩, rfl, rfl, rfl⟩
  · rw [if_pos ⟨rfl, hlistener⟩]
    exact ⟨⟨h.isClosing, h.attached⟩, rfl, rfl, rfl⟩

/-- The loop of a `wait` whose promise is not there yet reads again. -/
theorem go_reads {wait : Wait} {rest : List Activation} (hstack : s.stack = .wait wait :: rest)
    (hcontrol : s.control = .returning) (hpromise : s.promises wait.promise = {})
    (hattached : s.attached = true) : go s = goOn .running s := by
  simp only [go, hstack, hcontrol, hpromise, hattached, Bool.false_eq_true, if_false, if_true]

/-- A call reads on past what it does not wait for. -/
theorem Awaiting.hear_other {wait : Wait} (h : Awaiting wait s)
    (hparse : m.parse decode = .ok args) (hother : m.methodSig ∉ wait.methods) :
    Awaiting wait (hear decode m s) := by
  have hdrains : s.Drains := ⟨h.control, by simp [h.stack, Activation.reads]⟩
  have hnone : s.pending m.methodSig = none := by simp [h.pending, hother]
  have hsame : Function.update s.pending m.methodSig none = s.pending := by
    rw [← hnone]
    exact Function.update_eq_self m.methodSig _
  have hreads := @go_reads (goOn .returning { s with stack := [.wait wait, .user] }) wait [.user]
    rfl rfl h.promise h.attached
  have hkept : Awaiting wait (goOn .running { s with stack := [.wait wait, .user] }) :=
    ⟨⟨h.isClosing, h.attached⟩, rfl, rfl, h.pending, h.promise, h.begun, h.entered, h.nodup⟩
  rw [hear_eq hparse h.toOpen hdrains, hsame, h.stack, hnone]
  by_cases hlistener : m.methodSig ∈ s.callbacks
  · rw [if_neg (by simp [hlistener])]
    have hpopped : go (goOn .returning { s with
        stack := .dispatch (Option.map (fun id => (id, (m.methodSig, args))) none) ::
          [.wait wait, .user] }) = goOn .returning { s with stack := [.wait wait, .user] } := rfl
    rw [hpopped, hreads]
    exact hkept
  · rw [if_pos ⟨rfl, hlistener⟩, hreads]
    exact hkept

/-- A call returns with the first method that it waits for. -/
theorem Awaiting.hear_own {wait : Wait} (h : Awaiting wait s)
    (hparse : m.parse decode = .ok args) (hown : m.methodSig ∈ wait.methods) :
    Resting (hear decode m s) := by
  have hdrains : s.Drains := ⟨h.control, by simp [h.stack, Activation.reads]⟩
  have hsome : s.pending m.methodSig = some wait.promise := by simp [h.pending, hown]
  have hrestored : ChannelCore.restore (wait.methods.zip wait.prev)
      (Function.update s.pending m.methodSig none) = fun _ => none := by
    funext m'
    rw [h.begun.restore h.nodup, h.entered]
    split
    next => rfl
    next hm' =>
      have hne : m' ≠ m.methodSig := fun heq => hm' (heq ▸ hown)
      simp [Function.update_of_ne hne, h.pending, hm']
  rw [hear_eq hparse h.toOpen hdrains, h.stack, hsome, if_neg (by simp), Option.map_some]
  simp only [go, goOn, fulfil, h.promise, Bool.false_eq_true, if_false, setPromise,
    Function.update_self, if_true, leaveWait, hrestored]
  exact ⟨⟨h.isClosing, h.attached⟩, rfl, rfl, rfl⟩

/-- A call begins to read for the methods it waits for. -/
theorem Resting.listen (h : Resting s) (call : WaitCall) (hcallback : call.callback = .none)
    (hnodup : call.methods.Nodup) :
    ∃ wait, Awaiting wait (listen call s) ∧ wait.methods = call.methods := by
  refine ⟨.begin call s.created s.pending, ?_, rfl⟩
  have hregistered : (ChannelCore.register s.created call.methods s.pending).2 =
      fun m => if m ∈ call.methods then some s.created else none := by
    funext m
    rw [ChannelCore.register_pending, h.pending]
  simp only [AbstractChannel.listen, beginWait, ensurePromise, hcallback, goOn, push, setPromise, go,
    Function.update_self, Bool.false_eq_true, if_false, h.attached, if_true, h.stack]
  exact ⟨⟨h.isClosing, rfl⟩, rfl, rfl, hregistered, Function.update_self .., rfl, h.pending,
    hnodup⟩

end AbstractChannel

/-! The two ends -/

/-- A channel that one thread uses, the server, and what is in flight between them. Requests are
numbered; `served` have been carried out, `calling` is the one that the call in progress waits
for, and `returned` has the calls that returned, with `served` at that time. -/
structure Dialogue where
  client : AbstractChannel
  sent : Nat := 0
  requests : List Demand := []
  replies : List Inbound := []
  served : Nat := 0
  calling : Option Nat := none
  returned : List (Nat × Nat) := []

namespace Dialogue

/-- `call` is an operation of the user, `serve` has the server carry out the oldest request and
answer it with this method if it has to, `push` is a method that the server sends of its own
accord, and `receive` has the client read the oldest of what was sent to it. -/
inductive Event where
  | call (op : Operation)
  | serve (answer : Inbound)
  | push (m : Inbound)
  | receive

/-- The server sends what the client can read. -/
def Legible (decode : Message → Message) (m : Inbound) : Prop := ∃ args, m.parse decode = .ok args

/-- No call is in progress. -/
def idle (d : Dialogue) : Bool :=
  match d.client.stack with
  | [.user] => true
  | _ => false

/-- A request is sent, and its call waits if it has to. -/
def call (channel : Nat) (op : Operation) (d : Dialogue) : Dialogue :=
  let number := d.sent
  let d := { d with sent := number + 1, requests := d.requests ++ [op.request.asked channel] }
  if op.request.wait = [] then d
  else
    { d with
      calling := some number
      client := d.client.listen
        { methods := op.request.wait, returnsTuple := op.request.returnsTuple } }

/-- The oldest request is carried out, and answered if it has to be. -/
def serve (answer : Inbound) (d : Dialogue) : Dialogue :=
  match d.requests with
  | [] => d
  | asked :: requests =>
      { d with
        requests
        served := d.served + 1
        replies := if asked.replies = [] then d.replies else d.replies ++ [answer] }

/-- The client reads; a call that has what it waits for returns. -/
def receive (decode : Message → Message) (d : Dialogue) : Dialogue :=
  match d.replies with
  | [] => d
  | m :: replies =>
      let d := { d with replies, client := d.client.hear decode m }
      match d.calling with
      | some number =>
          if d.idle then
            { d with calling := none, returned := d.returned ++ [(number, d.served)] }
          else d
      | none => d

def step (decode : Message → Message) (channel : Nat) (d : Dialogue) : Event → Dialogue
  | .call op => if d.idle then d.call channel op else d
  | .serve answer => d.serve answer
  | .push m => { d with replies := d.replies ++ [m] }
  | .receive => d.receive decode

/-- A channel that is open, with nothing in flight. -/
def start : Dialogue := { client := { pending := fun _ => none, callbacks := listeners } }

/-- The answers that are in flight, or will be when the server has carried out what is. -/
def inFlight (d : Dialogue) : List MethodSig :=
  d.replies.map Inbound.methodSig ++ d.requests.flatMap Demand.replies

/-- The server answers with a method for the request, and sends of its own accord what answers no
call; the user neither opens nor closes the channel. -/
def Fair (decode : Message → Message) (d : Dialogue) : Event → Prop
  | .call op => op ≠ .open ∧ ∀ p, op ≠ .close p
  | .serve answer => Legible decode answer ∧
      ∀ asked ∈ d.requests.head?, asked.replies ≠ [] → answer.methodSig ∈ asked.replies
  | .push m => Legible decode m ∧ ¬ IsReply m.methodSig
  | .receive => True

/-- No call of `queue_unbind` waits while an `UnbindOk` for another is in flight. -/
def Unmixed (d : Dialogue) : Event → Prop
  | .call (.queueUnbind p) => p.nowait.truthy = false → Spec.Queue.unbindOk ∉ d.inFlight
  | _ => True

/-- Every call that returned has done so after the server had carried out its request. -/
def Synchronous (d : Dialogue) : Prop := ∀ entry ∈ d.returned, entry.1 < entry.2

/-! The invariant -/

/-- A method that answers no call but `queue_unbind`. -/
def Stray (m : MethodSig) : Prop := ∀ c : SyncCall, m ∈ c.replies → c = .queueUnbind

/-- A request that nothing waits for. -/
def Unawaited (asked : Demand) : Prop :=
  asked.replies = [] ∨ asked.replies = [Spec.Queue.unbindOk] ∨
    asked.replies = [Spec.Basic.recoverOk]

/-- What stands before the answer that a call waits for, or in flight while none does. -/
structure Passed (others : MethodSig → Prop) (replies : List Inbound) (requests : List Demand) :
    Prop where
  replies : ∀ m ∈ replies, Stray m.methodSig ∧ others m.methodSig
  unawaited : ∀ asked ∈ requests, Unawaited asked
  requests : ∀ asked ∈ requests, ∀ m ∈ asked.replies, others m

/-- Where the call in progress stands, and what is in flight before its answer. -/
inductive Phase (d : Dialogue) : Option Nat → Prop
  | resting : d.client.Resting → Passed (fun _ => True) d.replies d.requests → Phase d none
  | asked {number : Nat} {c : SyncCall} {wait : AbstractChannel.Wait} {before : List Demand}
      {asked : Demand} : d.client.Awaiting wait → wait.methods = c.replies → number + 1 = d.sent →
      d.requests = before ++ [asked] → asked.replies = c.replies →
      Passed (· ∉ c.replies) d.replies before → Phase d (some number)
  | answered {number : Nat} {c : SyncCall} {wait : AbstractChannel.Wait}
      {before after : List Inbound} {answer : Inbound} : d.client.Awaiting wait →
      wait.methods = c.replies → number + 1 = d.sent → d.requests = [] →
      d.replies = before ++ answer :: after → answer.methodSig ∈ c.replies →
      Passed (· ∉ c.replies) before [] → Passed (fun _ => True) after [] → Phase d (some number)

structure Ok (decode : Message → Message) (d : Dialogue) : Prop where
  sent : d.sent = d.served + d.requests.length
  legible : ∀ m ∈ d.replies, Legible decode m
  phase : Phase d d.calling
  synchronous : d.Synchronous

section Steps

variable {decode : Message → Message} {channel : Nat} {d : Dialogue}

theorem stray_unbindOk : Stray Spec.Queue.unbindOk := by
  intro c hc
  cases c <;> first | rfl | exact absurd hc (by decide)

theorem stray_recoverOk : Stray Spec.Basic.recoverOk := by
  intro c hc
  cases c <;> exact absurd hc (by decide)

theorem stray_pushed {m : MethodSig} (h : ¬ IsReply m) : Stray m := fun c hc => absurd ⟨c, hc⟩ h

theorem Unawaited.stray {asked : Demand} (h : Unawaited asked) {m : MethodSig}
    (hm : m ∈ asked.replies) : Stray m := by
  rcases h with hnone | hunbind | hrecover
  · simp [hnone] at hm
  · obtain rfl := List.mem_singleton.mp (hunbind ▸ hm)
    exact stray_unbindOk
  · obtain rfl := List.mem_singleton.mp (hrecover ▸ hm)
    exact stray_recoverOk

/-- The request of a call that does not wait. -/
theorem unawaited_asked {op : Operation} (h : op.request.wait = []) (channel : Nat) :
    Unawaited (op.request.asked channel) := by
  by_cases hop : op.Overlooked
  · exact .inr (op.replies_overlooked hop channel).2
  · exact .inl ((op.replies_asked hop channel).trans h)

theorem Passed.mono {others others' : MethodSig → Prop} {replies : List Inbound}
    {requests : List Demand} (h : Passed others replies requests)
    (hothers : ∀ m ∈ replies.map Inbound.methodSig ++ requests.flatMap Demand.replies,
      others m → others' m) : Passed others' replies requests := by
  refine ⟨fun m hm => ⟨(h.replies m hm).1, ?_⟩, h.unawaited, fun asked hasked m hm => ?_⟩
  · apply hothers _ _ (h.replies m hm).2
    exact List.mem_append_left _ (List.mem_map_of_mem hm)
  · apply hothers m _ (h.requests asked hasked m hm)
    exact List.mem_append_right _ (List.mem_flatMap.mpr ⟨asked, hasked, hm⟩)

theorem Passed.push {others : MethodSig → Prop} {replies : List Inbound} {requests : List Demand}
    (h : Passed others replies requests) {m : Inbound} (hm : Stray m.methodSig)
    (hothers : others m.methodSig) : Passed others (replies ++ [m]) requests := by
  refine ⟨fun m' hm' => ?_, h.unawaited, h.requests⟩
  rcases List.mem_append.mp hm' with hold | hnew
  · exact h.replies m' hold
  · obtain rfl := List.mem_singleton.mp hnew
    exact ⟨hm, hothers⟩

/-- The oldest request before the answer is carried out. -/
theorem Passed.serve {others : MethodSig → Prop} {replies : List Inbound} {asked : Demand}
    {requests : List Demand} (h : Passed others replies (asked :: requests)) {answer : Inbound}
    (hanswer : asked.replies ≠ [] → answer.methodSig ∈ asked.replies) :
    Passed others (if asked.replies = [] then replies else replies ++ [answer]) requests := by
  have hrest : Passed others replies requests :=
    ⟨h.replies, fun a ha => h.unawaited a (by simp [ha]), fun a ha => h.requests a (by simp [ha])⟩
  split
  next => exact hrest
  next hne =>
    apply hrest.push
    · exact (h.unawaited asked (by simp)).stray (hanswer hne)
    · exact h.requests asked (by simp) _ (hanswer hne)

theorem Passed.tail {others : MethodSig → Prop} {m : Inbound} {replies : List Inbound}
    {requests : List Demand} (h : Passed others (m :: replies) requests) :
    Passed others replies requests :=
  ⟨fun m' hm' => h.replies m' (by simp [hm']), h.unawaited, h.requests⟩

theorem idle_resting (h : d.client.Resting) : d.idle = true := by
  simp [idle, h.stack]

theorem idle_awaiting {wait : AbstractChannel.Wait} (h : d.client.Awaiting wait) :
    d.idle = false := by
  simp [idle, h.stack]

/-- Between calls a phase is at rest. -/
theorem Phase.resting_of_idle {calling : Option Nat} (h : Phase d calling) (hidle : d.idle = true) :
    calling = none ∧ d.client.Resting ∧ Passed (fun _ => True) d.replies d.requests := by
  cases h with
  | resting hresting hpassed => exact ⟨rfl, hresting, hpassed⟩
  | asked hawaiting => simp [idle_awaiting hawaiting] at hidle
  | answered hawaiting => simp [idle_awaiting hawaiting] at hidle

/-- What a call waits for is not in flight when it is made. -/
theorem passed_call {op : Operation} {c : SyncCall} (hc : op.syncCall? = some c)
    (hwait : op.request.wait = c.replies) (hunmixed : d.Unmixed (.call op))
    (hpassed : Passed (fun _ => True) d.replies d.requests) :
    Passed (· ∉ c.replies) d.replies d.requests := by
  apply hpassed.mono
  intro m hm _ hreply
  have hstray : Stray m := by
    rcases List.mem_append.mp hm with hm | hm
    · obtain ⟨reply, hmem, rfl⟩ := List.mem_map.mp hm
      exact (hpassed.replies reply hmem).1
    · obtain ⟨asked, hasked, hm⟩ := List.mem_flatMap.mp hm
      exact (hpassed.unawaited asked hasked).stray hm
  obtain rfl := hstray c hreply
  obtain rfl : m = Spec.Queue.unbindOk := List.mem_singleton.mp hreply
  cases op <;> simp only [Operation.syncCall?, Option.some.injEq, reduceCtorEq] at hc
  next p =>
    have hnowait : p.nowait.truthy = false := by
      by_contra htrue
      have hnone : waitUnless p.nowait Spec.Queue.unbindOk = [] := if_pos (by simpa using htrue)
      rw [Operation.request, Request.QueueUnbind.request, hnone] at hwait
      cases hwait
    exact hunmixed hnowait hm

theorem Ok.call (h : Ok decode d) {op : Operation} (hidle : d.idle = true)
    (hunmixed : d.Unmixed (.call op)) : Ok decode (d.call channel op) := by
  obtain ⟨hcalling, hresting, hpassed⟩ := h.phase.resting_of_idle hidle
  obtain ⟨hwaits, -⟩ := op.wait_syncCall
  have hsent : d.sent + 1 = d.served + (d.requests ++ [op.request.asked channel]).length := by
    rw [h.sent, List.length_append, List.length_singleton, Nat.add_assoc]
  unfold Dialogue.call
  rcases hwaits with hnone | ⟨c, hc, hwait⟩
  · rw [if_pos hnone]
    refine ⟨hsent, h.legible, ?_, h.synchronous⟩
    simp only [hcalling]
    refine .resting hresting ⟨hpassed.replies, fun asked hasked => ?_, fun _ _ _ _ => trivial⟩
    rcases List.mem_append.mp hasked with hold | hnew
    · exact hpassed.unawaited asked hold
    · obtain rfl := List.mem_singleton.mp hnew
      exact unawaited_asked hnone channel
  · have hne : op.request.wait ≠ [] := by
      rw [hwait]
      cases c <;> simp [SyncCall.replies]
    have hwaited : ¬ op.Overlooked := fun hop => hne (op.replies_overlooked hop channel).1
    obtain ⟨wait, hawaiting, hmethods⟩ := hresting.listen
      { methods := op.request.wait, returnsTuple := op.request.returnsTuple } rfl
      (hwait ▸ c.replies_nodup)
    rw [if_neg hne]
    refine ⟨hsent, h.legible, ?_, h.synchronous⟩
    exact .asked hawaiting (hmethods.trans hwait) rfl rfl
      ((op.replies_asked hwaited channel).trans hwait) (passed_call hc hwait hunmixed hpassed)

theorem Ok.serve (h : Ok decode d) {answer : Inbound} (hfair : d.Fair decode (.serve answer)) :
    Ok decode (d.serve answer) := by
  obtain ⟨hlegible, hanswer⟩ := hfair
  unfold Dialogue.serve
  cases hrequests : d.requests with
  | nil => exact h
  | cons asked requests =>
      rw [hrequests] at hanswer
      have hanswers := hanswer asked rfl
      refine ⟨?_, ?_, ?_, h.synchronous⟩
      · have hsent := h.sent
        rw [hrequests, List.length_cons] at hsent
        simp only
        omega
      · intro m hm
        simp only at hm
        split at hm
        · exact h.legible m hm
        · rcases List.mem_append.mp hm with hold | hnew
          · exact h.legible m hold
          · exact List.mem_singleton.mp hnew ▸ hlegible
      · have hphase := h.phase
        revert hphase
        generalize d.calling = calling
        intro hphase
        cases hphase with
        | resting hresting hpassed =>
            rw [hrequests] at hpassed
            exact .resting hresting (hpassed.serve hanswers)
        | @asked _ c wait before last hawaiting hmethods hnumber hlast hreplies hpassed =>
            rw [hrequests] at hlast
            cases before with
            | nil =>
                obtain ⟨rfl, rfl⟩ := List.cons.inj hlast
                have hne : asked.replies ≠ [] := by
                  rw [hreplies]
                  cases c <;> simp [SyncCall.replies]
                refine .answered hawaiting hmethods hnumber rfl (if_neg hne)
                  (hreplies ▸ hanswers hne) hpassed ⟨by simp, by simp, by simp⟩
            | cons first before =>
                obtain ⟨rfl, rfl⟩ := List.cons.inj hlast
                exact .asked hawaiting hmethods hnumber rfl hreplies (hpassed.serve hanswers)
        | answered _ _ _ hnone => simp [hrequests] at hnone

theorem Ok.push (h : Ok decode d) {m : Inbound} (hfair : d.Fair decode (.push m)) :
    Ok decode { d with replies := d.replies ++ [m] } := by
  obtain ⟨hlegible, hpushed⟩ := hfair
  have hstray := stray_pushed hpushed
  refine ⟨h.sent, ?_, ?_, h.synchronous⟩
  · intro m' hm'
    rcases List.mem_append.mp hm' with hold | hnew
    · exact h.legible m' hold
    · exact List.mem_singleton.mp hnew ▸ hlegible
  · have hphase := h.phase
    revert hphase
    generalize d.calling = calling
    intro hphase
    cases hphase with
    | resting hresting hpassed => exact .resting hresting (hpassed.push hstray trivial)
    | @asked _ c wait before last hawaiting hmethods hnumber hlast hreplies hpassed =>
        exact .asked hawaiting hmethods hnumber hlast hreplies
          (hpassed.push hstray fun hm => hpushed ⟨c, hm⟩)
    | answered hawaiting hmethods hnumber hnone hreplies hanswer hpassed hafter =>
        refine .answered hawaiting hmethods hnumber hnone ?_ hanswer hpassed
          (hafter.push hstray trivial)
        simp only [hreplies, List.append_assoc, List.cons_append]

/-- What comes in between calls, or while a call waits for something else. -/
theorem receive_passes {m : Inbound} {replies : List Inbound} (hreplies : d.replies = m :: replies)
    (h : d.calling = none ∨ ∃ wait, (d.client.hear decode m).Awaiting wait) :
    d.receive decode = { d with replies, client := d.client.hear decode m } := by
  unfold Dialogue.receive
  rw [hreplies]
  rcases h with hcalling | ⟨wait, hawaiting⟩
  · simp only [hcalling]
  · have hidle : { d with replies, client := d.client.hear decode m }.idle = false :=
      idle_awaiting hawaiting
    simp only [hidle, Bool.false_eq_true, if_false]
    split <;> rfl

theorem receive_returns {m : Inbound} {replies : List Inbound} {number : Nat}
    (hreplies : d.replies = m :: replies) (hcalling : d.calling = some number)
    (h : (d.client.hear decode m).Resting) :
    d.receive decode = { d with
      replies
      client := d.client.hear decode m
      calling := none
      returned := d.returned ++ [(number, d.served)] } := by
  have hidle : { d with replies, client := d.client.hear decode m }.idle = true :=
    idle_resting h
  unfold Dialogue.receive
  simp only [hreplies, hcalling]
  exact if_pos hidle

theorem Ok.receive (h : Ok decode d) : Ok decode (d.receive decode) := by
  cases hreplies : d.replies with
  | nil =>
      unfold Dialogue.receive
      rwa [hreplies]
  | cons m replies =>
      obtain ⟨args, hparse⟩ := h.legible m (by simp [hreplies])
      have hlegible : ∀ m' ∈ replies, Legible decode m' := fun m' hm' =>
        h.legible m' (by simp [hreplies, hm'])
      have hphase := h.phase
      cases hcalling : d.calling with
      | none =>
          rw [hcalling] at hphase
          cases hphase with
          | resting hresting hpassed =>
              rw [hreplies] at hpassed
              rw [receive_passes hreplies (.inl hcalling)]
              refine ⟨h.sent, hlegible, ?_, h.synchronous⟩
              simp only [hcalling]
              exact .resting (hresting.hear hparse) hpassed.tail
      | some number =>
          rw [hcalling] at hphase
          cases hphase with
          | @asked _ c wait before last hawaiting hmethods hnumber hlast hlastReplies hpassed =>
              rw [hreplies] at hpassed
              have hother : m.methodSig ∉ wait.methods := by
                rw [hmethods]
                exact (hpassed.replies m (by simp)).2
              have hstill := hawaiting.hear_other hparse hother
              rw [receive_passes hreplies (.inr ⟨wait, hstill⟩)]
              refine ⟨h.sent, hlegible, ?_, h.synchronous⟩
              simp only [hcalling]
              exact .asked hstill hmethods hnumber hlast hlastReplies hpassed.tail
          | @answered _ c wait before after answer hawaiting hmethods hnumber hnone hall hanswer hpassed
              hafter =>
              rw [hreplies] at hall
              cases before with
              | nil =>
                  obtain ⟨rfl, rfl⟩ := List.cons.inj hall
                  have hrests := hawaiting.hear_own hparse (hmethods ▸ hanswer)
                  rw [receive_returns hreplies hcalling hrests]
                  refine ⟨h.sent, hlegible, .resting hrests (hnone ▸ hafter), ?_⟩
                  intro entry hentry
                  rcases List.mem_append.mp hentry with hold | hnew
                  · exact h.synchronous entry hold
                  · obtain rfl := List.mem_singleton.mp hnew
                    have hsent := h.sent
                    rw [hnone, List.length_nil] at hsent
                    simp only
                    omega
              | cons first before =>
                  obtain ⟨rfl, rfl⟩ := List.cons.inj hall
                  have hother : m.methodSig ∉ wait.methods := by
                    rw [hmethods]
                    exact (hpassed.replies m (by simp)).2
                  have hstill := hawaiting.hear_other hparse hother
                  rw [receive_passes hreplies (.inr ⟨wait, hstill⟩)]
                  refine ⟨h.sent, hlegible, ?_, h.synchronous⟩
                  simp only [hcalling]
                  exact .answered hstill hmethods hnumber hnone rfl hanswer hpassed.tail hafter

theorem Ok.step (h : Ok decode d) {event : Event}
    (hevent : d.Fair decode event ∧ d.Unmixed event) : Ok decode (d.step decode channel event) := by
  obtain ⟨hfair, hunmixed⟩ := hevent
  cases event with
  | call op =>
      simp only [Dialogue.step]
      split
      next hidle => exact h.call hidle hunmixed
      next => exact h
  | serve answer => exact h.serve hfair
  | push m => exact h.push hfair
  | receive => exact h.receive

theorem start_ok (decode : Message → Message) : Ok decode start where
  sent := rfl
  legible := by simp [start]
  phase := .resting ⟨⟨rfl, rfl⟩, rfl, rfl, rfl⟩ ⟨by simp [start], by simp [start], by simp [start]⟩
  synchronous := by simp [Synchronous, start]

/-! A call that returns too early -/

/-- A call of `queue_unbind` reads, and the `UnbindOk` of another is in flight before its own. -/
structure Mixed (decode : Message → Message) (number : Nat) (before : List Demand) (d : Dialogue) :
    Prop where
  awaiting : ∃ wait, d.client.Awaiting wait ∧ wait.methods = [Spec.Queue.unbindOk]
  calling : d.calling = some number
  last : ∃ asked, d.requests = before ++ [asked]
  behind : d.served + before.length = number
  legible : ∀ m ∈ d.replies, Legible decode m
  unawaited : ∀ asked ∈ before, Unawaited asked
  flying : Spec.Queue.unbindOk ∈ d.replies.map Inbound.methodSig ++ before.flatMap Demand.replies

/-- The calls that have returned, one of them before the server had its request. -/
def Early (d : Dialogue) : Prop := ∃ entry ∈ d.returned, entry.2 ≤ entry.1

variable (channel) in
/-- The client reads on up to the `UnbindOk`. -/
theorem Mixed.reads {number : Nat} {before : List Demand} (h : Mixed decode number before d)
    (hreplies : Spec.Queue.unbindOk ∈ d.replies.map Inbound.methodSig) :
    ∃ events, Run.Along (step decode channel) (Fair decode) d events ∧
      Early (events.foldl (step decode channel) d) := by
  induction hreplies' : d.replies generalizing d with
  | nil => simp [hreplies'] at hreplies
  | cons m replies ih =>
      obtain ⟨wait, hawaiting, hmethods⟩ := h.awaiting
      obtain ⟨args, hparse⟩ := h.legible m (by simp [hreplies'])
      by_cases hm : m.methodSig = Spec.Queue.unbindOk
      · refine ⟨[.receive], ⟨trivial, trivial⟩, ?_⟩
        have hrests := hawaiting.hear_own hparse (by simp [hmethods, hm])
        rw [List.foldl_cons, List.foldl_nil, step, receive_returns hreplies' h.calling hrests]
        refine ⟨(number, d.served), by simp, ?_⟩
        have hbehind := h.behind
        simp only
        omega
      · have hstill := hawaiting.hear_other hparse (by simp [hmethods, hm])
        have hnext := receive_passes hreplies' (.inr ⟨wait, hstill⟩)
        have hmixed : Mixed decode number before (d.receive decode) := by
          rw [hnext]
          refine ⟨⟨wait, hstill, hmethods⟩, h.calling, h.last, h.behind, ?_, h.unawaited, ?_⟩
          · exact fun m' hm' => h.legible m' (by simp [hreplies', show m' ∈ replies from hm'])
          · have hflying := h.flying
            simpa [hreplies', Ne.symm hm] using hflying
        obtain ⟨events, hfair, hearly⟩ := ih hmixed
          (by rw [hnext]; simpa [hreplies', Ne.symm hm] using hreplies) (by rw [hnext])
        exact ⟨.receive :: events, ⟨trivial, hfair⟩, hearly⟩

/-- A legible answer to a request that nothing waits for. -/
theorem Unawaited.answer {asked : Demand} (h : Unawaited asked) (decode : Message → Message) :
    ∃ answer, Legible decode answer ∧
      (asked.replies ≠ [] → asked.replies = [answer.methodSig]) := by
  rcases h with hnone | hunbind | hrecover
  · exact ⟨⟨Spec.Queue.unbindOk, [], none⟩, ⟨[], rfl⟩, fun hne => absurd hnone hne⟩
  · exact ⟨⟨Spec.Queue.unbindOk, [], none⟩, ⟨[], rfl⟩, fun _ => hunbind⟩
  · exact ⟨⟨Spec.Basic.recoverOk, [], none⟩, ⟨[], rfl⟩, fun _ => hrecover⟩

variable (channel) in
/-- The server goes on up to the request of the other call. -/
theorem Mixed.early {number : Nat} {before : List Demand} (h : Mixed decode number before d) :
    ∃ events, Run.Along (step decode channel) (Fair decode) d events ∧
      Early (events.foldl (step decode channel) d) := by
  by_cases hreplies : Spec.Queue.unbindOk ∈ d.replies.map Inbound.methodSig
  · exact h.reads channel hreplies
  · induction before generalizing d with
    | nil =>
        have hflying := h.flying
        rw [List.flatMap_nil, List.append_nil] at hflying
        exact absurd hflying hreplies
    | cons asked before ih =>
        obtain ⟨last, hlast⟩ := h.last
        obtain ⟨answer, hlegible, hanswer⟩ := (h.unawaited asked (by simp)).answer decode
        have hfair : d.Fair decode (.serve answer) := by
          refine ⟨hlegible, fun asked' hasked' hne => ?_⟩
          rw [hlast] at hasked'
          obtain rfl := Option.some.inj hasked'
          simp [hanswer hne]
        have hserved : d.serve answer = { d with
            requests := before ++ [last]
            served := d.served + 1
            replies := if asked.replies = [] then d.replies else d.replies ++ [answer] } := by
          unfold Dialogue.serve
          rw [hlast]
          rfl
        have hmixed : Mixed decode number before (d.serve answer) := by
          rw [hserved]
          refine ⟨h.awaiting, h.calling, ⟨last, rfl⟩, ?_, ?_, fun a ha => h.unawaited a (by simp [ha]), ?_⟩
          · have hbehind := h.behind
            simp only [List.length_cons] at hbehind ⊢
            omega
          · intro m hm
            simp only at hm
            split at hm
            · exact h.legible m hm
            · rcases List.mem_append.mp hm with hold | hnew
              · exact h.legible m hold
              · exact List.mem_singleton.mp hnew ▸ hlegible
          · have hflying := h.flying
            rw [List.flatMap_cons] at hflying
            simp only
            split
            next hnone => simpa [hnone] using hflying
            next hne => simpa [hanswer hne] using hflying
        by_cases hnow : Spec.Queue.unbindOk ∈ (d.serve answer).replies.map Inbound.methodSig
        · obtain ⟨events, hrest, hearly⟩ := hmixed.reads channel hnow
          exact ⟨.serve answer :: events, ⟨hfair, hrest⟩, hearly⟩
        · obtain ⟨events, hrest, hearly⟩ := ih hmixed hnow
          exact ⟨.serve answer :: events, ⟨hfair, hrest⟩, hearly⟩

variable (channel) in
/-- A call of `queue_unbind` that waits, made while an `UnbindOk` is in flight. -/
theorem Ok.mixed (h : Ok decode d) {p : Request.QueueUnbind} (hnowait : p.nowait.truthy = false)
    (hidle : d.idle = true) (hflying : Spec.Queue.unbindOk ∈ d.inFlight) :
    Mixed decode d.sent d.requests (d.call channel (.queueUnbind p)) := by
  obtain ⟨hcalling, hresting, hpassed⟩ := h.phase.resting_of_idle hidle
  have hwait : (Operation.queueUnbind p).request.wait = [Spec.Queue.unbindOk] := by
    exact if_neg (by simp [hnowait])
  obtain ⟨wait, hawaiting, hmethods⟩ := hresting.listen
    { methods := [Spec.Queue.unbindOk], returnsTuple := false } rfl
    (List.nodup_singleton _)
  unfold Dialogue.call
  rw [hwait, if_neg (List.cons_ne_nil _ _)]
  exact ⟨⟨wait, hawaiting, hmethods⟩, rfl, ⟨_, rfl⟩, h.sent.symm, h.legible, hpassed.unawaited,
    hflying⟩

end Steps

/-- Every call that waits returns only after the server has carried out its request, in any run
in which no call of `queue_unbind` waits while the `UnbindOk` for another is in flight; after such
a run, one that does can return before the server has its request. -/
theorem run_synchronous (decode : Message → Message) (channel : Nat) {events : List Event}
    (hfair : Run.Along (step decode channel) (Fair decode) start events)
    (hunmixed : Run.Along (step decode channel) Unmixed start events) :
    let d := events.foldl (step decode channel) start
    d.Synchronous ∧
      (d.requests = [] → d.replies = [] → d.calling = none) ∧
      ∀ p : Request.QueueUnbind, p.nowait.truthy = false → d.idle = true →
        Spec.Queue.unbindOk ∈ d.inFlight →
        ∃ more, Run.Along (step decode channel) (Fair decode) d (.call (.queueUnbind p) :: more) ∧
          ¬ (more.foldl (step decode channel) (d.call channel (.queueUnbind p))).Synchronous := by
  intro d
  have hok : Ok decode d :=
    Run.invariant (fun _ _ h hevent => h.step hevent) (start_ok decode) (hfair.and hunmixed)
  refine ⟨hok.synchronous, fun hrequests hreplies => ?_, fun p hnowait hidle hflying => ?_⟩
  · have hphase := hok.phase
    revert hphase
    generalize d.calling = calling
    rintro (⟨-, -⟩ | ⟨-, -, -, hlast, -, -⟩ | ⟨-, -, -, -, hall, -, -, -⟩)
    · rfl
    · simp [hrequests] at hlast
    · simp [hreplies] at hall
  · obtain ⟨more, hmore, entry, hentry, hearly⟩ :=
      (hok.mixed channel hnowait hidle hflying).early channel
    have hcalled : d.step decode channel (.call (.queueUnbind p)) =
        d.call channel (.queueUnbind p) := if_pos hidle
    refine ⟨more, ⟨⟨by simp, by simp⟩, hcalled ▸ hmore⟩, fun hsynchronous => ?_⟩
    exact absurd (hsynchronous entry hentry) (by omega)

/-- An unbinding that does not wait, and one that does when the answer to the first has come. -/
theorem run_synchronous_unbind :
    let unbind (nowait : Bool) : Operation := .queueUnbind
      { queue := .str [113], exchange := .str [101], nowait := .bool nowait }
    let answer : Inbound := ⟨Spec.Queue.unbindOk, [], none⟩
    let events : List Event :=
      [.call (unbind true), .serve answer, .receive, .call (unbind false), .serve answer, .receive]
    (events.foldl (step id 1) start).returned = [(1, 2)] ∧
      (events.foldl (step id 1) start).Synchronous := by
  intro unbind answer events
  have hanswered : ∀ nowait, ((unbind nowait).request.asked 1).replies = [Spec.Queue.unbindOk] :=
    fun nowait => Request.replies_always 1 rfl
  have hserve : ∀ d : Dialogue, (∃ nowait, d.requests = [(unbind nowait).request.asked 1]) →
      d.Fair id (.serve answer) := by
    rintro d ⟨nowait, hrequests⟩
    refine ⟨⟨[], rfl⟩, fun asked hasked _ => ?_⟩
    rw [hrequests] at hasked
    obtain rfl := Option.some.inj hasked
    rw [hanswered nowait]
    exact List.mem_singleton.mpr rfl
  refine ⟨by decide, (run_synchronous id 1 ?_ ?_).1⟩
  · exact ⟨⟨by simp [unbind], by simp [unbind]⟩, hserve _ ⟨true, rfl⟩, trivial,
      ⟨by simp [unbind], by simp [unbind]⟩, hserve _ ⟨false, rfl⟩, trivial, trivial⟩
  · refine ⟨?_, trivial, trivial, ?_, trivial, trivial, trivial⟩
    · exact fun hnowait => absurd hnowait (by decide)
    · intro _
      decide

end Dialogue

end PyAmqp
