import PyAmqp.Channel.Kept

/-!
Requests and their replies. The server answers the requests of a channel in the order
in which they were sent, and `_pending` knows the last `wait` for each method only. So
a request is safe while nothing else waits for its reply and no reply of its kind is in
flight; where every request is, a call that returns has the reply to its own request.
-/

namespace PyAmqp

namespace Broker

/-- The broker has answered request `id` with this reply. -/
def Replied (decode : Message → Message) (b : Broker) (id : Nat) (reply : Reply) : Prop :=
  ∃ m, b.replies id = some m ∧ m.parse decode = .ok reply.2 ∧ m.methodSig = reply.1

/-- Nothing waits for a reply to the call, and none is in flight. -/
def Unshared (pending : MethodSig → Option Nat) (b : Broker) (c : SyncCall) : Prop :=
  ∀ m ∈ c.replies, pending m = none ∧ ∀ o ∈ b.outstanding, m ∉ o.2.replies

instance (pending : MethodSig → Option Nat) (b : Broker) (c : SyncCall) :
    Decidable (Unshared pending b c) :=
  inferInstanceAs (Decidable (∀ m ∈ c.replies, _ ∧ ∀ o ∈ b.outstanding, _))

/-- The requests without a reply are apart: no method answers two of them. -/
structure Apart (b : Broker) : Prop where
  unanswered : ∀ o ∈ b.outstanding, o.1 < b.requests ∧ b.replies o.1 = none
  unasked : ∀ id, b.requests ≤ id → b.replies id = none
  pairwise : b.outstanding.Pairwise fun o o' => o.1 ≠ o'.1 ∧ ∀ m ∈ o.2.replies, m ∉ o'.2.replies

section Replies

variable {b : Broker} {decode : Message → Message} {m : Inbound}

theorem Apart.reply (h : Apart b) (m : Inbound) : Apart (b.reply m) := by
  rcases reply_cases m b with heq | ⟨o, rest, hrest, -, heq⟩
  · rwa [heq]
  · obtain ⟨hunanswered, hunasked, hpairwise⟩ := h
    rw [hrest] at hunanswered hpairwise
    obtain ⟨hhead, htail⟩ := List.pairwise_cons.mp hpairwise
    have hlt := (hunanswered o (by simp)).1
    rw [heq]
    refine ⟨fun o' ho' => ?_, fun id hid => ?_, htail⟩
    · obtain ⟨hlt', hnone⟩ := hunanswered o' (by simp [ho'])
      exact ⟨hlt', (Function.update_of_ne (hhead o' ho').1.symm ..).trans hnone⟩
    · have hne : id ≠ o.1 := (hlt.trans_le hid).ne'
      exact (Function.update_of_ne hne ..).trans (hunasked id hid)

theorem Apart.receive (h : Apart b) (decode : Message → Message) (m : Inbound) :
    Apart (b.receive decode m) := by
  obtain ⟨hunanswered, hunasked, hpairwise⟩ := h.reply m
  unfold Broker.receive
  split_ifs
  · exact ⟨by simp, hunasked, .nil⟩
  · exact ⟨hunanswered, hunasked, hpairwise⟩

theorem Apart.ask {c : SyncCall} (h : Apart b)
    (hunshared : ∀ m ∈ c.replies, ∀ o ∈ b.outstanding, m ∉ o.2.replies) : Apart (b.ask c) := by
  obtain ⟨hunanswered, hunasked, hpairwise⟩ := h
  refine ⟨fun o ho => ?_, fun id hid => hunasked id (Nat.le_of_succ_le hid), ?_⟩
  · rcases List.mem_append.mp ho with hold | hnew
    · exact ⟨(hunanswered o hold).1.trans (Nat.lt_succ_self _), (hunanswered o hold).2⟩
    · obtain rfl := List.mem_singleton.mp hnew
      exact ⟨Nat.lt_succ_self _, hunasked _ (Nat.le_refl _)⟩
  · refine List.pairwise_append.mpr ⟨hpairwise, List.pairwise_singleton .., ?_⟩
    intro o ho o' ho'
    obtain rfl := List.mem_singleton.mp ho'
    exact ⟨(hunanswered o ho).1.ne, fun m hm hm' => hunshared m hm' o ho hm⟩

/-- What is answered stays so. -/
theorem Apart.grows (h : Apart b) {id : Nat} {reply : Reply} (hreplied : b.Replied decode id reply) :
    (b.receive decode m).Replied decode id reply := by
  obtain ⟨m', hm', hparse, hsig⟩ := hreplied
  refine ⟨m', ?_, hparse, hsig⟩
  change (b.reply m).replies id = some m'
  rcases reply_cases m b with heq | ⟨o, rest, hrest, -, heq⟩
  · rwa [heq]
  · have hne : id ≠ o.1 := by
      rintro rfl
      simp [(h.unanswered o (by simp [hrest])).2] at hm'
    simp only [heq, Function.update_of_ne hne, hm']

/-- The oldest request is answered by the method that arrives for it. -/
theorem receive_replied {o : Nat × SyncCall} {rest : List (Nat × SyncCall)} {args : List Arg}
    (hrest : b.outstanding = o :: rest) (hmem : m.methodSig ∈ o.2.replies)
    (hparse : m.parse decode = .ok args) :
    (b.receive decode m).Replied decode o.1 (m.methodSig, args) := by
  refine ⟨m, ?_, hparse, rfl⟩
  change (b.reply m).replies o.1 = some m
  unfold reply
  rw [hrest]
  simp [hmem]

/-- A request without a reply had none before. -/
theorem receive_outstanding {o : Nat × SyncCall} (h : o ∈ (b.receive decode m).outstanding) :
    o ∈ b.outstanding := by
  have hreply : o ∈ (b.reply m).outstanding := by
    unfold receive at h
    split_ifs at h
    · simp at h
    · exact h
  rcases reply_cases m b with heq | ⟨o', rest, hrest, -, heq⟩
  · rwa [heq] at hreply
  · rw [heq] at hreply
    simp [hrest, show o ∈ rest from hreply]

end Replies

end Broker

theorem Task.methods_of_request {task : Task} {id : Nat} {c : SyncCall}
    (h : task.request? = some (id, c)) : task.methods = c.replies := by
  cases task <;> simp_all [request?, methods]

theorem Task.handler_of_request {task : Task} {request : Nat × SyncCall}
    (h : task.request? = some request) : task.handler = none := by
  cases task <;> simp_all [request?, handler]

/-- A `wait` for a method that answers a call is no wait for a confirm. -/
theorem Task.request_of_mem {task : Task} {m : MethodSig} {c : SyncCall} (hm : m ∈ task.methods)
    (hreply : m ∈ c.replies) : task.request?.isSome = true := by
  cases task with
  | confirm number =>
      obtain rfl | rfl : m = Spec.Basic.ack ∨ m = Spec.Basic.nack := by simpa [methods] using hm
      · exact absurd hreply c.notMem_replies.1
      · exact absurd hreply c.notMem_replies.2.1
  | _ => rfl

namespace Channel

open ChannelCore

variable {P : Promises Reply}

/-- The server answers the requests of the channel in their order, with one reply each. -/
def Serves (s : Channel P) : Event → Prop
  | .deliver m => s.Drains → IsReply m.methodSig →
      s.broker.outstanding.head?.any (fun o => m.methodSig ∈ o.2.replies) = true
  | _ => True

instance (s : Channel P) : (event : Event) → Decidable (s.Serves event)
  | .deliver _ => inferInstanceAs (Decidable (s.Drains → _ → _))
  | .go | .call _ | .publishConfirm | .return | .raise _ | .foreign | .fail _
    | .connectionCloses _ | .collect => .isTrue trivial

/-- Every request of the channel is sent while nothing else waits for its reply and none
is in flight: those of the user, of `basic_publish_confirm`, and of the reopening. -/
def KeepsReplies (cfg : Config) (s : Channel P) : Event → Prop
  | .call c => s.Idle → s.Sends c → s.broker.Unshared s.pending c
  | .publishConfirm => s.Idle → s.attached = true → s.confirmSelected = false →
      s.broker.Unshared s.pending .confirmSelect
  | .deliver m => s.Drains → m.methodSig = Spec.Channel.close →
      s.isClosing = false ∧ s.connectionClosing = false → s.attached = true →
        (s.broker.receive cfg.decode m).Unshared s.pending .open
  | _ => True

instance (cfg : Config) (s : Channel P) : (event : Event) → Decidable (s.KeepsReplies cfg event)
  | .call _ => inferInstanceAs (Decidable (s.Idle → _ → _))
  | .publishConfirm => inferInstanceAs (Decidable (s.Idle → _ → _ → _))
  | .deliver _ => inferInstanceAs (Decidable (s.Drains → _ → _ ∧ _ → _ → _))
  | .go | .return | .raise _ | .foreign | .fail _ | .connectionCloses _ | .collect =>
      .isTrue trivial

/-- A call that returned has the arguments of the reply to its own request. -/
def OwnReplies (cfg : Config) (k : ChannelCore P) : Prop :=
  ∀ id c result, .call id c (.ok result) ∈ k.log →
    ∃ reply, k.broker.Replied cfg.decode id reply ∧ result = .of c.returnsTuple reply.2

/-! The invariant -/

/-- A `wait` for the reply to a request hides no other `wait`, and its promise has that
reply, or will be called with it. -/
def replyFacts (decode : Message → Message) (b : Broker) : Facts P where
  wait waiting := ∀ id c, waiting.task.request? = some (id, c) →
    (∀ prev ∈ waiting.prev, prev = none) ∧ P.func waiting.promise = none ∧
      (P.ready waiting.promise = true →
        ∃ reply, P.value waiting.promise = some reply ∧ b.Replied decode id reply)
  reply task reply := ∀ id c, task.request? = some (id, c) → b.Replied decode id reply
  called waiting reply hreply hwait id c hrequest := by
    obtain ⟨hprev, hfunc, -⟩ := hwait id c hrequest
    obtain ⟨-, -, hvalue⟩ := P.call_plain reply waiting.promise hfunc
    exact ⟨hprev, by rw [P.func_call, hfunc], fun _ => ⟨reply, hvalue, hreply id c hrequest⟩⟩

/-- A promise that waits for the reply to a request in flight is that of the request. -/
def Own (pending : MethodSig → Option Nat) (waits : Nat → Waiting P) (b : Broker) : Prop :=
  ∀ m id o, pending m = some id → o ∈ b.outstanding → m ∈ o.2.replies →
    (waits id).task.request? = some o

structure RepliesOk (cfg : Config) (k : ChannelCore P) : Prop where
  registered : k.Registered
  apart : k.broker.Apart
  facts : (replyFacts cfg.decode k.broker).Hold k
  own : Own k.pending k.waits k.broker
  log : OwnReplies cfg k

theorem Own.mono {pending pending' : MethodSig → Option Nat} {waits waits' : Nat → Waiting P}
    {b b' : Broker} (h : Own pending waits b)
    (hpending : ∀ m id, pending' m = some id → pending m = some id)
    (htask : ∀ m id, pending m = some id → (waits' id).task = (waits id).task)
    (houtstanding : ∀ o ∈ b'.outstanding, o ∈ b.outstanding) : Own pending' waits' b' := by
  intro m id o hm ho hreply
  rw [htask m id (hpending m id hm)]
  exact h m id o (hpending m id hm) (houtstanding o ho) hreply

/-- The `wait` for a new request. -/
theorem Own.ask {k : ChannelCore P} {b : Broker} {c : SyncCall} {task : Task}
    (h : Own k.pending k.waits b) (hreg : k.Registered) (hunshared : b.Unshared k.pending c)
    (hrequest : task.request? = some (b.requests, c)) :
    Own (k.beginWait task).pending (k.beginWait task).waits (b.ask c) := by
  rw [beginWait_eq]
  intro m id o hm ho hreply
  simp only [register_pending, Task.methods_of_request hrequest] at hm
  have hnew : m ∈ c.replies ↔ o = (b.requests, c) := by
    refine ⟨fun hmem => ?_, fun heq => by simpa [heq] using hreply⟩
    rcases List.mem_append.mp ho with hold | hnew
    · exact absurd hreply ((hunshared m hmem).2 o hold)
    · exact List.mem_singleton.mp hnew
  by_cases hmem : m ∈ c.replies
  · rw [if_pos hmem] at hm
    obtain rfl := Option.some.inj hm
    simp [hrequest, hnew.mp hmem]
  · rw [if_neg hmem] at hm
    have hold : o ∈ b.outstanding :=
      (List.mem_append.mp ho).resolve_right fun h => hmem (hnew.mpr (List.mem_singleton.mp h))
    have hlt := hreg.stack.lt (hreg.live m id hm).1
    simp only [Function.update_of_ne hlt.ne]
    exact h m id o hm hold hreply

/-- The `wait` for a confirm. -/
theorem Own.confirm {k : ChannelCore P} {b : Broker} (number : Nat)
    (h : Own k.pending k.waits b) (hreg : k.Registered) :
    Own (k.beginWait (.confirm number)).pending (k.beginWait (.confirm number)).waits b := by
  rw [beginWait_eq]
  intro m id o hm ho hreply
  simp only [register_pending] at hm
  have hmem : m ∉ (Task.confirm number).methods := fun hmem => by
    simpa [Task.request?] using Task.request_of_mem hmem hreply
  rw [if_neg hmem] at hm
  simp only [Function.update_of_ne (hreg.stack.lt (hreg.live m id hm).1).ne]
  exact h m id o hm ho hreply

section Step

variable {cfg : Config} {s : Channel P} {event : Event} {k : ChannelCore P} {control : Control}

theorem Move.apart (hmove : Move cfg s event k control) (h : s.broker.Apart)
    (hcond : s.KeepsReplies cfg event) : k.broker.Apart := by
  cases hmove with
  | publishes => exact ⟨h.unanswered, h.unasked, h.pairwise⟩
  | asks hidle hsends => exact h.ask fun m hm => (hcond hidle hsends m hm).2
  | selects hidle hunset hattached =>
      exact h.ask fun m hm => (hcond hidle hattached hunset m hm).2
  | @reopens m _ hdrains _ hclose hclosing hattached =>
      exact (h.receive cfg.decode m).ask fun m hm =>
        (hcond hdrains hclose hclosing hattached m hm).2
  | ignores | takes | listens => exact h.receive _ _
  | _ => exact h

theorem Move.replied (hmove : Move cfg s event k control) (h : s.broker.Apart) {id : Nat}
    {reply : Reply} (hreplied : s.broker.Replied cfg.decode id reply) :
    k.broker.Replied cfg.decode id reply := by
  cases hmove with
  | ignores | takes | listens | reopens => exact h.grows hreplied
  | _ => exact hreplied

/-- `wait` hands no promise back that waits for a reply in flight. -/
theorem Own.leave {id : Nat} (h : Own s.pending s.waits s.broker)
    (hfacts : ∀ request, (s.waits id).task.request? = some request →
      ∀ prev ∈ (s.waits id).prev, prev = none) :
    Own (restore ((s.waits id).task.methods.zip (s.waits id).prev) s.pending) s.waits s.broker := by
  intro m other o hm ho hreply
  rcases restore_cases ((s.waits id).task.methods.zip (s.waits id).prev) s.pending m with
    ⟨-, heq⟩ | hmem
  · exact h m other o (heq ▸ hm) ho hreply
  · obtain ⟨hmethod, hprev⟩ := List.of_mem_zip hmem
    obtain ⟨request, hrequest⟩ := Option.isSome_iff_exists.mp (Task.request_of_mem hmethod hreply)
    rw [hfacts request hrequest _ hprev] at hm
    exact absurd hm (by simp)

theorem RepliesOk.own_move (h : RepliesOk cfg s.toChannelCore) (hmove : Move cfg s event k control)
    (hcond : s.KeepsReplies cfg event) : Own k.pending k.waits k.broker := by
  have htake : ∀ (m m' : MethodSig) (id : Nat),
      Function.update s.pending m none m' = some id → s.pending m' = some id := by
    intro m m' id hm
    by_cases heq : m' = m
    · simp [heq] at hm
    · rwa [Function.update_of_ne heq] at hm
  have hreceive : ∀ m, Own (Function.update s.pending m.methodSig none) s.waits
      (s.broker.receive cfg.decode m) := fun m =>
    h.own.mono (htake _) (fun _ _ _ => rfl) fun _ ho => Broker.receive_outstanding ho
  cases hmove with
  | calls => exact h.own.mono (fun _ _ hm => hm) (fun _ _ _ => (update_promise ..).1) fun _ ho => ho
  | @leaves top _ _ _ _ _ _ hstack =>
      exact h.own.leave fun request hrequest =>
        (h.facts.holds top (by simp [hstack]) request.1 request.2 hrequest).1
  | publishes hstack =>
      exact Own.confirm (k := { s.toChannelCore with
        stack := _, broker := { s.broker with published := s.broker.published + 1 } })
        _ h.own (h.registered.publish hstack)
  | asks hidle hsends => exact h.own.ask h.registered (hcond hidle hsends) rfl
  | selects hidle hunset hattached =>
      exact Own.ask (k := { s.toChannelCore with
        confirmSelected := true, broker := s.broker.ask .confirmSelect })
        h.own h.registered (hcond hidle hattached hunset) rfl
  | ignores =>
      exact h.own.mono (fun _ _ hm => hm) (fun _ _ _ => rfl) fun _ ho => Broker.receive_outstanding ho
  | takes | listens => exact hreceive _
  | @reopens m args hdrains _ hclose hclosing hattached =>
      have hunshared : (s.broker.receive cfg.decode m).Unshared
          (Function.update s.pending m.methodSig none) .open := by
        intro m' hm'
        obtain ⟨hnone, hout⟩ := hcond hdrains hclose hclosing hattached m' hm'
        refine ⟨?_, hout⟩
        by_cases heq : m' = m.methodSig
        · simp [heq]
        · rwa [Function.update_of_ne heq]
      exact Own.ask (k := { s.toChannelCore with
        broker := (s.broker.receive cfg.decode m).ask .open
        pending := Function.update s.pending m.methodSig none
        stack := .dispatch (s.oneShot m args) :: s.stack })
        (hreceive m) (h.registered.dispatch _ _) hunshared rfl
  | _ => exact h.own

theorem RepliesOk.facts_move (h : RepliesOk cfg s.toChannelCore)
    (hmove : Move cfg s event k control) (hserves : s.Serves event)
    (hcond : s.KeepsReplies cfg event) : (replyFacts cfg.decode k.broker).Hold k := by
  have hnone : ∀ {c : SyncCall} {b : Broker}, b.Unshared s.pending c →
      ∀ prev ∈ c.replies.map s.pending, prev = none := by
    rintro c b hunshared prev hprev
    obtain ⟨m, hm, rfl⟩ := List.mem_map.mp hprev
    exact (hunshared m hm).1
  refine h.facts.move h.registered hmove ?_ ?_ ?_ ?_
  · intro id hid hwait request c hrequest
    obtain ⟨hprev, hfunc, hready⟩ := hwait request c hrequest
    refine ⟨hprev, hfunc, fun h' => ?_⟩
    obtain ⟨reply, hvalue, hreplied⟩ := hready h'
    exact ⟨reply, hvalue, hmove.replied h.apart hreplied⟩
  · intro id reply hid hreply request c hrequest
    exact hmove.replied h.apart (hreply request c hrequest)
  · intro task hbegins request c hrequest
    refine ⟨?_, ?_, fun hready => by simp [P.ready_make] at hready⟩
    · cases hbegins with
      | confirm => simp [Task.request?] at hrequest
      | call hidle hsends => exact hnone (hcond hidle hsends)
      | select hidle hattached hunset => exact hnone (hcond hidle hattached hunset)
      | revive _ hdrains hclose hclosing hattached =>
          exact hnone (hcond hdrains hclose hclosing hattached)
    · rw [P.func_make, Task.handler_of_request hrequest]
  · intro m args id hdrains hparse hpending hevent hbroker request c hrequest
    subst hevent
    rw [hbroker]
    have hmethod := (h.registered.live _ _ hpending).2
    rw [Task.methods_of_request hrequest] at hmethod
    have hhead := hserves hdrains ⟨c, hmethod⟩
    cases hout : s.broker.outstanding with
    | nil => simp [hout] at hhead
    | cons o rest =>
        have hmem : m.methodSig ∈ o.2.replies := by simpa [hout] using hhead
        have hown := h.own _ _ o hpending (by simp [hout]) hmem
        obtain rfl : o = (request, c) := Option.some.inj (hown.symm.trans hrequest)
        exact Broker.receive_replied hout hmem hparse

theorem RepliesOk.move (h : RepliesOk cfg s.toChannelCore) (hmove : Move cfg s event k control)
    (hserves : s.Serves event) (hcond : s.KeepsReplies cfg event) : RepliesOk cfg k := by
  refine ⟨h.registered.move hmove, hmove.apart h.apart hcond, h.facts_move hmove hserves hcond,
    h.own_move hmove hcond, fun id c result hentry => ?_⟩
  rcases hmove.log hentry with hold | hnew
  · obtain ⟨reply, hreplied, hresult⟩ := h.log id c result hold
    exact ⟨reply, hmove.replied h.apart hreplied, hresult⟩
  · cases hnew with
    | @left top _ _ _ _ _ _ hstack hended hfollows hmem =>
        cases hfollows with
        | @returned request c' htask =>
            cases hended with
            | ready hready =>
                have hwait := h.facts.holds top (by simp [hstack]) request c' (by rw [htask]; rfl)
                obtain ⟨reply, hvalue, hreplied⟩ := hwait.2.2 hready
                simp only [List.mem_singleton, Entry.call.injEq, Except.ok.injEq] at hmem
                obtain ⟨rfl, rfl, rfl⟩ := hmem
                refine ⟨reply, hmove.replied h.apart hreplied, ?_⟩
                rw [Waiting.returned, hvalue]
        | _ => simp at hmem

end Step

theorem RepliesOk.init (cfg : Config) : RepliesOk cfg ({} : ChannelCore P) where
  registered := ⟨by simp, trivial⟩
  apart := ⟨by simp, by simp, .nil⟩
  facts := ⟨by simp, by simp⟩
  own := by intro m id o hm; simp at hm
  log := by intro id c result hentry; simp at hentry

/-- In every run whose requests are all safe, a call that returns has the arguments of
the reply to its own request. -/
theorem run_ownReplies (cfg : Config) (P : Promises Reply) (events : List Event)
    (hserves : Run.Along (step cfg) Serves ({} : Channel P) events)
    (h : Run.Along (step cfg) (KeepsReplies cfg) ({} : Channel P) events) :
    OwnReplies cfg (run cfg events : Channel P).toChannelCore := by
  have hreplies : RepliesOk cfg (events.foldl (step cfg) ({} : Channel P)).toChannelCore :=
    Run.invariant (I := fun s : Channel P => RepliesOk cfg s.toChannelCore)
      (fun s event hok hcond => hok.move (step_move cfg s event) hcond.1 hcond.2)
      (RepliesOk.init cfg) (hserves.and h)
  exact hreplies.log

/-- `Queue.DeclareOk` for a queue with a name of one octet. -/
def queueDeclared (name : UInt8) : Inbound :=
  { methodSig := Spec.Queue.declareOk
    payload := [0, 50, 0, 11, 1, name, 0, 0, 0, 1, 0, 0, 0, 0] }

theorem run_ownReplies_nested :
    OwnReplies plainConfig (run plainConfig (openEvents ++
      [.call .queueDelete, .go, .foreign, .call .queueDeclare, .go,
        .deliver { methodSig := Spec.Queue.deleteOk, payload := [0, 50, 0, 41, 0, 0, 0, 0] },
        .go, .go, .deliver (queueDeclared 97), .go, .go, .go, .return, .go, .go]) :
        Channel (plainPromises Reply)).toChannelCore :=
  run_ownReplies plainConfig (plainPromises Reply) _ (by decide) (by decide)

/-- A `queue_declare` times out, and the next one returns the queue of the first. -/
theorem run_ownReplies_abandoned :
    let events := openEvents ++
      [.call .queueDeclare, .go, .fail .socketTimeout, .go, .go, .call .queueDeclare, .go,
        .deliver (queueDeclared 97), .go, .go, .go]
    Run.Along (step plainConfig) Serves ({} : Channel (plainPromises Reply)) events ∧
      ¬ OwnReplies plainConfig
        (run plainConfig events : Channel (plainPromises Reply)).toChannelCore := by
  refine ⟨by decide, fun h => ?_⟩
  obtain ⟨reply, ⟨m, hm, -⟩, -⟩ := h 2 .queueDeclare _ (.tail _ (.tail _ (.head _)))
  exact Option.some_ne_none m (hm.symm.trans rfl)

end Channel

end PyAmqp
