import PyAmqp.Channel.Consumers
import PyAmqp.Channel.ConfirmMode

/-!
The consumers that a channel knows and those that the broker runs. A consumer without a
callback has a `basic_consume` that waits for it, and a callback without a consumer has a
`basic_cancel` whose `CancelOk` has not been read. So the two are the same whenever no
call is in progress, in every run that leaves no tag behind.
-/

namespace PyAmqp

namespace ChannelCore

variable {P : Promises Reply}

/-- Call `id` of `wait` has no reply yet, and no listener has one for it. -/
def Awaits (k : ChannelCore P) (id : Nat) : Prop :=
  .wait id ∈ k.stack ∧ P.ready (k.waits id).promise = false ∧
    ∀ reply, .dispatch (some (id, reply)) ∉ k.stack

/-- Nothing has a reply for a new `wait`. -/
theorem Registered.awaits_new {k : ChannelCore P} (h : k.Registered) (task : Task) :
    (k.beginWait task).Awaits k.created := by
  refine ⟨by simp, ?_, fun reply hkept => ?_⟩
  · rw [beginWait_eq]
    simpa only [Function.update_self] using P.ready_make _
  · have hmem : .dispatch (some (k.created, reply)) ∈ k.stack := by simpa using hkept
    exact absurd (h.stack.lt (h.stack.kept hmem).1) (lt_irrefl _)

/-- A `basic_consume` waits for the consumer under this tag. -/
def Consuming (asked : Nat → Option Asked) (tag : PyStr) (k : ChannelCore P) : Prop :=
  ∃ id request c, .wait id ∈ k.stack ∧ (k.waits id).task = .call request .basicConsume ∧
    asked request = some (.consume tag c)

/-- A `basic_cancel` for this tag waits for its reply. -/
def Cancelling (asked : Nat → Option Asked) (tag : PyStr) (k : ChannelCore P) : Prop :=
  ∃ id request, k.Awaits id ∧ (k.waits id).task = .call request .basicCancel ∧
    asked request = some (.cancel tag)

/-- A `basic_consume` that waits has asked for a consumer, and its promise has the tag of
that consumer, or will be called with it. -/
def tagFacts (asked : Nat → Option Asked) : Facts P where
  wait waiting := ∀ request, waiting.task = .call request .basicConsume →
    ∃ tag c, asked request = some (.consume tag c) ∧ P.func waiting.promise = none ∧
      (P.ready waiting.promise = true →
        ∃ sig, P.value waiting.promise = some (sig, [.value (.str tag)]))
  reply task reply := ∀ request, task = .call request .basicConsume →
    ∃ tag c, asked request = some (.consume tag c) ∧ reply.2 = [.value (.str tag)]
  called waiting reply hreply hwait request htask := by
    obtain ⟨tag, c, hasked, hfunc, -⟩ := hwait request htask
    obtain ⟨tag', c', hasked', hargs⟩ := hreply request htask
    obtain ⟨rfl, rfl⟩ : tag = tag' ∧ c = c' := by simpa [hasked] using hasked'
    obtain ⟨-, -, hvalue⟩ := P.call_plain reply waiting.promise hfunc
    exact ⟨tag, c, hasked, by rw [P.func_call, hfunc],
      fun _ => ⟨reply.1, by rw [← hargs]; exact hvalue⟩⟩

end ChannelCore

namespace Channel

open ChannelCore

variable {P : Promises Reply} {cfg : Config} {s : Channel P} {event : Event} {k : ChannelCore P}
  {control : Control}

theorem Move.requests_le (hmove : Move cfg s event k control) :
    s.broker.requests ≤ k.broker.requests := by
  have hreceive : ∀ m, (s.broker.receive cfg.decode m).requests = s.broker.requests := by
    intro m
    rcases Broker.reply_cases m s.broker with heq | ⟨o, rest, -, -, heq⟩
    · simp [Broker.receive, heq]
    · simp [Broker.receive, heq]
  cases hmove with
  | ignores | takes | listens => exact (hreceive _).ge
  | asks | selects => exact Nat.le_succ _
  | @reopens m =>
      show _ ≤ (s.broker.receive cfg.decode m).requests + 1
      rw [hreceive]
      exact Nat.le_succ _
  | _ => exact Nat.le_refl _

/-- A listener that is called keeps the promise that waits for its method. -/
private theorem awaits_push {id : Nat} {m : Inbound} (args : List Arg)
    (h : s.toChannelCore.Awaits id) (hpending : s.pending m.methodSig ≠ some id)
    (reply : Reply) : .dispatch (some (id, reply)) ∉ .dispatch (s.oneShot m args) :: s.stack := by
  apply List.not_mem_cons_of_ne_of_not_mem
  · intro heq
    simp only [oneShot, Activation.dispatch.injEq] at heq
    obtain ⟨other, hother, hreply⟩ := Option.map_eq_some_iff.mp heq.symm
    obtain rfl : other = id := (Prod.mk.inj hreply).1
    exact hpending hother
  · exact h.2.2 reply

/-- A `wait` without a reply stays one, unless an exception reaches it or its reply is
read. -/
theorem Move.awaits_stays (hreg : s.toChannelCore.Registered) (hmove : Move cfg s event k control)
    {id : Nat} (h : s.toChannelCore.Awaits id) :
    (k.Awaits id ∧ (k.waits id).task = (s.waits id).task) ∨
      (event = .go ∧ ∃ rest e, s.stack = .wait id :: rest ∧ s.control = .raising e) ∨
      ∃ m args, event = .deliver m ∧ s.Drains ∧ m.parse cfg.decode = .ok args ∧
        s.pending m.methodSig = some id := by
  rcases hmove.wait_stays hreg h.1 with ⟨hmem, htask⟩ | ⟨rfl, rest, result, hstack, hended⟩
  · have hlt := hreg.stack.lt h.1
    obtain ⟨hwait, hready, hkept⟩ := h
    cases hmove with
    | stay | fails | publishRefused | selectRefused | ignores | takes =>
        exact .inl ⟨⟨hmem, hready, hkept⟩, htask⟩
    | foreign | startsPublish => exact .inl ⟨⟨hmem, hready, fun reply => by simpa using hkept reply⟩, htask⟩
    | userReturns hstack | userRaises _ hstack | listenerReturns hstack | listenerRaises hstack
      | publishRaises hstack =>
        rw [hstack] at hkept
        exact .inl ⟨⟨hmem, hready, fun reply h => hkept reply (List.mem_cons_of_mem _ h)⟩, htask⟩
    | drained hstack =>
        rw [hstack] at hkept
        exact .inl ⟨⟨hmem, hready, fun reply h => hkept reply (by simpa using h)⟩, htask⟩
    | @calls called reply rest hstack =>
        rw [hstack] at hkept
        have hother : id ≠ called := by
          rintro rfl
          exact hkept reply (by simp)
        refine .inl ⟨⟨hmem, ?_, fun reply h => hkept reply (List.mem_cons_of_mem _ h)⟩, htask⟩
        simpa only [Function.update_of_ne hother] using hready
    | leaves hstack hended hfollows =>
        rw [hstack] at hkept
        refine .inl ⟨⟨hmem, hready, fun reply h => hkept reply (List.mem_cons_of_mem _ ?_)⟩, htask⟩
        cases hfollows with
        | selected => simpa using h
        | _ => exact h
    | publishes hstack =>
        rw [hstack] at hkept
        refine .inl ⟨⟨hmem, ?_, fun reply h => hkept reply (by simpa using h)⟩, htask⟩
        rw [beginWait_eq]
        simpa only [Function.update_of_ne hlt.ne] using hready
    | asks | selects =>
        refine .inl ⟨⟨hmem, ?_, fun reply h => hkept reply (by simpa using h)⟩, htask⟩
        rw [beginWait_eq]
        simpa only [Function.update_of_ne hlt.ne] using hready
    | @listens m args acts _ hdrains hparse hacts =>
        by_cases hpending : s.pending m.methodSig = some id
        · exact .inr (.inr ⟨m, args, rfl, hdrains, hparse, hpending⟩)
        · refine .inl ⟨⟨hmem, hready, fun reply h => ?_⟩, htask⟩
          have hpush := awaits_push args ⟨hwait, hready, hkept⟩ hpending reply
          obtain rfl | rfl := hacts
          · exact hpush h
          · exact hpush (by simpa using h)
    | @reopens m args hdrains hparse hclose =>
        have hpending : s.pending m.methodSig ≠ some id := by
          intro hpending
          rw [hclose] at hpending
          exact Task.close_notMem_methods _ (hreg.live _ _ hpending).2
        have hpush := awaits_push args ⟨hwait, hready, hkept⟩ hpending
        refine .inl ⟨⟨hmem, ?_, fun reply h => hpush reply (by simpa using h)⟩, htask⟩
        rw [beginWait_eq]
        simpa only [Function.update_of_ne hlt.ne] using hready
  · cases hended with
    | ready hready => exact absurd (hready.symm.trans h.2.1) (by simp)
    | raised hcontrol => exact .inr (.inl ⟨rfl, rest, _, hstack, hcontrol⟩)

end Channel

/-! Tags -/

/-- The tag of a request. -/
def Asked.tag : Asked → PyStr
  | consume tag _ => tag
  | cancel tag => tag

namespace Consumers

open Channel ChannelCore

variable {P : Promises Reply}

/-- The tags of `callbacks` are those of the consumers that the broker runs, and those of
`cancel_callbacks` are among them. -/
def MatchesBroker (s : Consumers P) : Prop :=
  ∀ tag, (tag ∈ s.callbacks ↔ s.running tag ≠ none) ∧
    (tag ∈ s.cancelCallbacks → s.running tag ≠ none)

/-- The tag is in one of the two dictionaries. -/
def Known (s : Consumers P) (tag : PyStr) : Prop :=
  tag ∈ s.callbacks ∨ tag ∈ s.cancelCallbacks

instance (s : Consumers P) (tag : PyStr) : Decidable (s.Known tag) :=
  inferInstanceAs (Decidable (_ ∨ _))

/-- A call that returns has its consumer still running. -/
def Returns (s : Consumers P) : Asked → Prop
  | .consume tag _ => s.running tag ≠ none
  | .cancel _ => True

/-- A call that an exception ends leaves the channel as the broker is. -/
def Abandons (s : Consumers P) : Asked → Prop
  | .consume tag _ => s.running tag = none ∨ tag ∈ s.callbacks
  | .cancel tag => s.running tag ≠ none ∨ ¬ s.Known tag

instance (s : Consumers P) : (asked : Asked) → Decidable (s.Returns asked)
  | .consume _ _ => inferInstanceAs (Decidable (_ ≠ _))
  | .cancel _ => .isTrue trivial

instance (s : Consumers P) : (asked : Asked) → Decidable (s.Abandons asked)
  | .consume _ _ => inferInstanceAs (Decidable (_ ∨ _))
  | .cancel _ => inferInstanceAs (Decidable (_ ∨ _))

/-- The tag in the request of call `id` of `wait`. -/
def tagAsked (s : Consumers P) (id : Nat) : Option PyStr :=
  match (s.waits id).task with
  | .call request _ => (s.asked request).map Asked.tag
  | _ => none

/-- A `basic_consume` with `nowait` names its tag, and a `basic_cancel` with `nowait` has
no callback to remove. A `basic_consume` returns while its consumer runs; one that an
exception ends has started none, and a `basic_cancel` that an exception ends has none to
remove. The server closes the channel while both dictionaries are empty, a reply goes to
the call that asked for it, and a `CancelOk` is read before its tag is used again. -/
def KeepsTags (cfg : Config) (s : Consumers P) : ConsumerEvent → Prop
  | .consume c true =>
      s.Idle → s.attached = true → cfg.write s.writes = .ok () → c.consumerTag ≠ []
  | .cancel tag true =>
      s.Idle → s.attached = true → cfg.write s.writes = .ok () →
        s.running tag = none ∨ ¬ s.Known tag
  | .channel .go =>
      (∀ ended ∈ returns s.toChannel, ∀ asked ∈ s.asked ended.1, s.Returns asked) ∧
        ∀ request ∈ raises s.toChannel, ∀ asked ∈ s.asked request, s.Abandons asked
  | .channel (.deliver m) =>
      ∀ args ∈ hears cfg m s.toChannel,
        (m.methodSig = Spec.Channel.close → s.isClosing = false →
          s.callbacks = ∅ ∧ s.cancelCallbacks = ∅) ∧
        (m.methodSig = Spec.Basic.consumeOk ∨ m.methodSig = Spec.Basic.cancelOk →
          ∀ id ∈ s.pending m.methodSig, s.tagAsked id = tagArgument args) ∧
        (m.methodSig = Spec.Basic.cancelOk → ∀ tag ∈ tagArgument args, s.running tag = none)
  | _ => True

instance (cfg : Config) (s : Consumers P) : (event : ConsumerEvent) →
    Decidable (KeepsTags cfg s event)
  | .consume _ true => inferInstanceAs (Decidable (_ → _ → _ → _))
  | .cancel _ true => inferInstanceAs (Decidable (_ → _ → _ → _ ∨ _))
  | .channel .go =>
      inferInstanceAs (Decidable ((∀ ended ∈ returns s.toChannel, ∀ asked ∈ s.asked ended.1,
        s.Returns asked) ∧ ∀ request ∈ raises s.toChannel, ∀ asked ∈ s.asked request,
          s.Abandons asked))
  | .channel (.deliver m) =>
      inferInstanceAs (Decidable (∀ args ∈ hears cfg m s.toChannel, (_ → _ → _ ∧ _) ∧
        (_ ∨ _ → ∀ id ∈ s.pending m.methodSig, _) ∧ (_ → ∀ tag ∈ tagArgument args, _)))
  | .consume _ false | .cancel _ false | .channel (.call _) | .channel .publishConfirm
    | .channel .return | .channel (.raise _) | .channel .foreign | .channel (.fail _)
    | .channel (.connectionCloses _) | .channel .collect => .isTrue trivial

/-! The invariant -/

/-- `known` and `live` hold until the channel leaves: its own close drops the consumers. -/
structure TagsOk (s : Consumers P) : Prop where
  settled : s.toChannel.Settled
  closing : s.ClosesInCall
  fresh : ∀ request, s.broker.requests ≤ request → s.asked request = none
  facts : ¬ s.Leaving → (tagFacts s.asked).Hold s.toChannelCore
  known : ¬ s.Leaving → ∀ tag, s.running tag ≠ none →
    tag ∈ s.callbacks ∨ s.toChannelCore.Consuming s.asked tag
  live : ¬ s.Leaving → ∀ tag, s.Known tag →
    s.running tag ≠ none ∨ s.toChannelCore.Cancelling s.asked tag

/-- The channel makes a step, and no request is forgotten. -/
structure Moves (cfg : Config) (event : Event) (s s' : Consumers P) : Prop where
  move : ∃ control, Move cfg s.toChannel event s'.toChannelCore control
  settled : s.toChannel.Settled → s'.toChannel.Settled
  closing : s.toChannel.Settled → s.ClosesInCall → s'.ClosesInCall
  leaving : s.Leaving → s'.Leaving
  asked : ∀ request asked, s.asked request = some asked → s'.asked request = some asked

section Moves

variable {cfg : Config} {generated : Nat → PyStr} {event : Event} {s s' : Consumers P}
  {tag : PyStr}

theorem leaving_step (h : s.Leaving) : (Channel.step cfg s.toChannel event).Leaving := by
  have hflags : KeepsFlags s.toChannel (Channel.step cfg s.toChannel event) :=
    step_keepsFlags event
  rcases h with hclosing | hattached
  · exact hflags.elim .inr fun h => .inl (h.2.2 hclosing)
  · exact .inr (hflags.elim id fun h => h.1.trans hattached)

theorem Moves.of_step (control : Control)
    (h : s'.toChannel = { Channel.step cfg s.toChannel event with control })
    (hasked : ∀ request asked, s.asked request = some asked → s'.asked request = some asked) :
    Moves cfg event s s' := by
  refine ⟨⟨(Channel.step cfg s.toChannel event).control, ?_⟩, fun hsettled => ?_,
    fun hsettled hcloses => ?_, fun hleaving => ?_, hasked⟩
  · rw [h]
    exact step_move cfg s.toChannel event
  · have hstep : (Channel.step cfg s.toChannel event).Settled := hsettled.step event
    rw [h]
    exact ⟨hstep.registered, hstep.bottom, hstep.sending, hstep.closing, hstep.listed⟩
  · have hstep : (Channel.step cfg s.toChannel event).ClosesInCall :=
      hcloses.step hsettled.registered event
    rw [h]
    exact hstep
  · rw [h]
    exact leaving_step hleaving

/-- Sending a method is no step of the stack. -/
theorem Moves.of_send (writes : Nat) (sent : List MethodSig) (control : Control)
    (h : s'.toChannel = { s.toChannel with writes, sent, control }) (hasked : s'.asked = s.asked) :
    Moves cfg event s s' := by
  refine ⟨⟨s.control, ?_⟩, fun hsettled => ?_, fun _ hcloses => ?_, fun hleaving => ?_,
    fun _ _ h => hasked ▸ h⟩
  · rw [h]
    exact .stay (.inr rfl)
  · rw [h]
    exact ⟨hsettled.registered, hsettled.bottom, hsettled.sending, hsettled.closing,
      hsettled.listed⟩
  · rw [h]
    exact hcloses
  · rw [h]
    exact hleaving

theorem Moves.consuming (h : Moves cfg event s s') (hok : TagsOk s)
    (hconsuming : s.toChannelCore.Consuming s.asked tag) :
    s'.toChannelCore.Consuming s'.asked tag ∨
      event = .go ∧ ∃ id rest result request c, s.stack = .wait id :: rest ∧
        Ended s.toChannel id result ∧ (s.waits id).task = .call request .basicConsume ∧
          s.asked request = some (.consume tag c) := by
  obtain ⟨id, request, c, hmem, htask, hasked⟩ := hconsuming
  obtain ⟨control, hmove⟩ := h.move
  rcases hmove.wait_stays hok.settled.registered hmem with ⟨hstays, hsame⟩ |
    ⟨rfl, rest, result, hstack, hended⟩
  · exact .inl ⟨id, request, c, hstays, hsame.trans htask, h.asked _ _ hasked⟩
  · exact .inr ⟨rfl, id, rest, result, request, c, hstack, hended, htask, hasked⟩

theorem Moves.cancelling (h : Moves cfg event s s') (hok : TagsOk s)
    (hcancelling : s.toChannelCore.Cancelling s.asked tag) :
    s'.toChannelCore.Cancelling s'.asked tag ∨
      ∃ id request, (s.waits id).task = .call request .basicCancel ∧
        s.asked request = some (.cancel tag) ∧
        ((event = .go ∧ ∃ rest e, s.stack = .wait id :: rest ∧ s.control = .raising e) ∨
          ∃ m args, event = .deliver m ∧ s.Drains ∧ m.parse cfg.decode = .ok args ∧
            s.pending m.methodSig = some id) := by
  obtain ⟨id, request, hawaits, htask, hasked⟩ := hcancelling
  obtain ⟨control, hmove⟩ := h.move
  rcases hmove.awaits_stays hok.settled.registered hawaits with ⟨hstays, hsame⟩ | hlost
  · exact .inl ⟨id, request, hstays, hsame.trans htask, h.asked _ _ hasked⟩
  · exact .inr ⟨id, request, htask, hasked, hlost⟩

theorem Moves.requests_le (h : Moves cfg event s s') : s.broker.requests ≤ s'.broker.requests := by
  obtain ⟨control, hmove⟩ := h.move
  exact hmove.requests_le

theorem tagArgument_eq {args : List Arg} (h : tagArgument args = some tag) :
    args = [.value (.str tag)] := by
  unfold tagArgument at h
  split at h
  · rw [Option.some.inj h]
  · cases h

theorem tagAsked_eq {id request : Nat} {c : SyncCall} {asked : Asked}
    (htask : (s.waits id).task = .call request c) (hasked : s.asked request = some asked) :
    s.tagAsked id = some asked.tag := by
  simp [tagAsked, htask, hasked]

/-- A `ConsumeOk` has the tag that its call asked for. -/
def Answers (cfg : Config) (s : Consumers P) (event : Event) : Prop :=
  ∀ m args id, event = .deliver m → s.Drains → m.parse cfg.decode = .ok args →
    m.methodSig = Spec.Basic.consumeOk → s.pending m.methodSig = some id →
      s.tagAsked id = tagArgument args

theorem Moves.facts (h : Moves cfg event s s') (hok : TagsOk s) (hstay : ¬ s.Leaving)
    (hbegins : event = .call .basicConsume →
      ∃ tag c, s'.asked s.broker.requests = some (.consume tag c))
    (hanswers : Answers cfg s event) : (tagFacts s'.asked).Hold s'.toChannelCore := by
  obtain ⟨control, hmove⟩ := h.move
  have hreg := hok.settled.registered
  have hfacts := hok.facts hstay
  refine hfacts.move hreg hmove ?_ ?_ ?_ ?_
  · intro id hid hwait request htask
    obtain ⟨tag, c, hasked, hpromise⟩ := hwait request htask
    exact ⟨tag, c, h.asked _ _ hasked, hpromise⟩
  · intro id reply hid hreply request htask
    obtain ⟨tag, c, hasked, hargs⟩ := hreply request htask
    exact ⟨tag, c, h.asked _ _ hasked, hargs⟩
  · intro task hbegin request htask
    cases hbegin with
    | call =>
        obtain ⟨rfl, rfl⟩ := Task.call.inj htask
        obtain ⟨tag, c, hasked⟩ := hbegins rfl
        exact ⟨tag, c, hasked, P.func_make _, fun hready => by simp [P.ready_make] at hready⟩
    | _ => cases htask
  · intro m args id hdrains hparse hpending hevent _ request htask
    obtain ⟨hlive, hmethod⟩ := hreg.live _ _ hpending
    have hsig : m.methodSig = Spec.Basic.consumeOk := by
      simpa [htask, Task.methods, SyncCall.replies] using hmethod
    obtain ⟨tag, c, hasked, -⟩ := hfacts.holds id hlive request htask
    have htag := hanswers m args id hevent hdrains hparse hsig hpending
    rw [tagAsked_eq htask hasked] at htag
    exact ⟨tag, c, h.asked _ _ hasked, tagArgument_eq htag.symm⟩

/-- A move of the channel with these tables. -/
theorem TagsOk.moves (hok : TagsOk s) (h : Moves cfg event s s')
    (hfresh : ∀ request, s'.broker.requests ≤ request → s'.asked request = none)
    (hbegins : event = .call .basicConsume →
      ∃ tag c, s'.asked s.broker.requests = some (.consume tag c))
    (hanswers : ¬ s.Leaving → Answers cfg s event)
    (hknown : ¬ s.Leaving → ∀ tag, s'.running tag ≠ none →
      tag ∈ s'.callbacks ∨ s'.toChannelCore.Consuming s'.asked tag)
    (hlive : ¬ s.Leaving → ∀ tag, s'.Known tag →
      s'.running tag ≠ none ∨ s'.toChannelCore.Cancelling s'.asked tag) : TagsOk s' :=
  ⟨h.settled hok.settled, h.closing hok.settled hok.closing, hfresh,
    fun hstay => h.facts hok (fun hleaving => hstay (h.leaving hleaving)) hbegins
      (hanswers fun hleaving => hstay (h.leaving hleaving)),
    fun hstay => hknown fun hleaving => hstay (h.leaving hleaving),
    fun hstay => hlive fun hleaving => hstay (h.leaving hleaving)⟩

theorem TagsOk.fresh_of_moves (hok : TagsOk s) (h : Moves cfg event s s')
    (hasked : s'.asked = s.asked) :
    ∀ request, s'.broker.requests ≤ request → s'.asked request = none := by
  intro request hrequest
  rw [hasked]
  exact hok.fresh request (h.requests_le.trans hrequest)

theorem TagsOk.known_of (hok : TagsOk s) (h : Moves cfg event s s') (hgo : event ≠ .go)
    (hstay : ¬ s.Leaving) (hrunning : s.running tag ≠ none) :
    tag ∈ s.callbacks ∨ s'.toChannelCore.Consuming s'.asked tag := by
  rcases hok.known hstay tag hrunning with hcallback | hconsuming
  · exact .inl hcallback
  · exact .inr ((h.consuming hok hconsuming).resolve_right fun hends => hgo hends.1)

theorem TagsOk.live_of (hok : TagsOk s) (h : Moves cfg event s s') (hgo : event ≠ .go)
    (hdeliver : ∀ m, event ≠ .deliver m) (hstay : ¬ s.Leaving) (hknown : s.Known tag) :
    s.running tag ≠ none ∨ s'.toChannelCore.Cancelling s'.asked tag := by
  rcases hok.live hstay tag hknown with hrunning | hcancelling
  · exact .inl hrunning
  · rcases h.cancelling hok hcancelling with hstays | ⟨_, _, _, _, hends | ⟨m, _, hread, _⟩⟩
    · exact .inr hstays
    · exact absurd hends.1 hgo
    · exact absurd hread (hdeliver m)

theorem Answers.of_ne (hdeliver : ∀ m, event ≠ .deliver m) : Answers cfg s event :=
  fun m _ _ hread => absurd hread (hdeliver m)

/-- A step that neither ends a call nor reads a method, and changes no table. -/
theorem TagsOk.same (hok : TagsOk s) (h : Moves cfg event s s') (hgo : event ≠ .go)
    (hdeliver : ∀ m, event ≠ .deliver m) (hcall : event ≠ .call .basicConsume)
    (hcallbacks : s'.callbacks = s.callbacks) (hcancel : s'.cancelCallbacks = s.cancelCallbacks)
    (hrunning : s'.running = s.running) (hasked : s'.asked = s.asked) : TagsOk s' := by
  apply hok.moves h (hok.fresh_of_moves h hasked) (fun h => absurd h hcall)
    (fun _ => .of_ne hdeliver)
  · intro hstay tag hruns
    rw [hcallbacks]
    exact hok.known_of h hgo hstay (hrunning ▸ hruns)
  · intro hstay tag hknown
    rw [hrunning]
    exact hok.live_of h hgo hdeliver hstay (by simpa only [Known, hcallbacks, hcancel] using hknown)

/-- Only a method is sent, or not even that. -/
theorem TagsOk.sends (hok : TagsOk s) (writes : Nat) (sent : List MethodSig) (control : Control)
    (h : s'.toChannel = { s.toChannel with writes, sent, control })
    (hcallbacks : s'.callbacks = s.callbacks) (hcancel : s'.cancelCallbacks = s.cancelCallbacks)
    (hrunning : s'.running = s.running) (hasked : s'.asked = s.asked) : TagsOk s' := by
  have hmoves : Moves plainConfig (.connectionCloses true) s s' := .of_send writes sent control h hasked
  exact hok.same hmoves (by simp) (by simp) (by simp) hcallbacks hcancel hrunning hasked

/-! Calls -/

theorem sendMethod_sends (cfg : Config) (sig : MethodSig) (s : Channel P) :
    ∃ writes sent, (sendMethod cfg sig s).2 = { s with writes, sent } := by
  obtain ⟨writes, sent, hsend, -⟩ | ⟨e, writes, hsend, -⟩ := sendMethod_cases cfg sig s
  · exact ⟨writes, sent, by rw [hsend]⟩
  · exact ⟨writes, s.sent, by rw [hsend]⟩

/-- A request has the number of the broker's. -/
theorem request_ok {c : SyncCall} {s channel : Channel P} {id : Nat}
    (h : request cfg c s = (.ok id, channel)) :
    id = s.broker.requests ∧
      channel.toChannelCore = { s.toChannelCore with broker := s.broker.ask c } := by
  obtain ⟨writes, sent, hrequest, -⟩ | ⟨e, writes, hrequest, -⟩ := request_cases cfg c s
  · obtain ⟨hid, hchannel⟩ := Prod.mk.inj (h.symm.trans hrequest)
    obtain rfl := Except.ok.inj hid
    subst hchannel
    exact ⟨rfl, rfl⟩
  · cases (Prod.mk.inj (h.symm.trans hrequest)).1

theorem request_refused_sends {c : SyncCall} {s channel : Channel P} {e : PyError}
    (h : request cfg c s = (.error e, channel)) :
    ∃ writes sent, channel = { s with writes, sent } := by
  obtain ⟨writes, sent, hrequest, -⟩ | ⟨e, writes, hrequest, -⟩ := request_cases cfg c s
  · cases (Prod.mk.inj (h.symm.trans hrequest)).1
  · exact ⟨writes, s.sent, (Prod.mk.inj (h.symm.trans hrequest)).2⟩

/-- A new request leaves the others as they are. -/
theorem TagsOk.asks (hok : TagsOk s) (new : Asked) :
    (∀ request asked, s.asked request = some asked →
      Function.update s.asked s.broker.requests (some new) request = some asked) ∧
    ∀ request, s.broker.requests + 1 ≤ request →
      Function.update s.asked s.broker.requests (some new) request = none := by
  refine ⟨fun request asked hasked => ?_, fun request hrequest => ?_⟩
  · rw [Function.update_of_ne]
    · exact hasked
    · rintro rfl
      simp [hok.fresh s.broker.requests le_rfl] at hasked
  · rw [Function.update_of_ne (by omega)]
    exact hok.fresh request (by omega)

theorem TagsOk.startConsume {c : Consume} (hok : TagsOk s) (hidle : s.Idle) :
    TagsOk (startConsume cfg generated c s) := by
  have hstep : Channel.step cfg s.toChannel (.call .basicConsume) =
      requestAndWait cfg .basicConsume (.call · .basicConsume) s.toChannel := by
    simp only [Channel.step, if_pos hidle, startCall]
  unfold Consumers.startConsume
  unfold requestAndWait at hstep
  split
  next id channel hrequest =>
    obtain ⟨rfl, hcore⟩ := request_ok hrequest
    obtain ⟨hasked, hfresh⟩ := hok.asks (.consume (s.tagOf generated c) c)
    rw [hrequest] at hstep
    have hmoves : Moves cfg (.call .basicConsume) s { s.starts generated c with
        toChannel := wait (.call s.broker.requests .basicConsume) channel
        asked := Function.update s.asked s.broker.requests
          (some (.consume (s.tagOf generated c) c)) } :=
      .of_step .returning (by rw [hstep]; rfl) hasked
    apply hok.moves hmoves
    · intro request hle
      apply hfresh
      simpa [wait, hcore, Broker.ask] using hle
    · exact fun _ => ⟨_, _, Function.update_self ..⟩
    · exact fun _ => .of_ne (by simp)
    · intro hstay tag hruns
      by_cases htag : tag = s.tagOf generated c
      · subst htag
        refine .inr ⟨channel.created, s.broker.requests, c, ?_, ?_, Function.update_self ..⟩
        · simp [wait]
        · simp [wait, beginWait_eq]
      · refine hok.known_of hmoves (by simp) hstay ?_
        simpa only [starts, Function.update_of_ne htag] using hruns
    · intro hstay tag hknown
      by_cases htag : tag = s.tagOf generated c
      · left
        simp [starts, htag]
      · simp only [starts, Function.update_of_ne htag]
        exact hok.live_of hmoves (by simp) (by simp) hstay hknown
  next e channel hrequest =>
    obtain ⟨writes, sent, rfl⟩ := request_refused_sends hrequest
    exact hok.sends writes sent (.raising e) rfl rfl rfl rfl rfl

/-- What is known after a registration was known, or is its tag. -/
theorem Known.of_register {c : Consume} {other : PyStr}
    (h : (s.register tag c).Known other) (hother : other ≠ tag) : s.Known other := by
  rcases h with hcallback | hcancel
  · exact .inl (Finset.mem_of_mem_insert_of_ne hcallback hother)
  · right
    simp only [register] at hcancel
    split at hcancel
    · exact Finset.mem_of_mem_insert_of_ne hcancel hother
    · exact hcancel

theorem TagsOk.consumeNowait {c : Consume} (hok : TagsOk s) (hidle : s.Idle)
    (hkeeps : KeepsTags cfg s (.consume c true)) : TagsOk (consumeNowait cfg generated c s) := by
  unfold Consumers.consumeNowait
  have hsends := sendMethod_sends cfg Spec.Basic.consume s.toChannel
  split
  next channel hsend =>
    obtain ⟨hattached, hwrite, -⟩ := sendMethod_ok hsend
    have htag := hkeeps hidle hattached hwrite
    obtain ⟨writes, sent, hchannel⟩ := hsends
    rw [hsend] at hchannel
    simp only [if_neg htag]
    have hmoves : Moves cfg (.connectionCloses true) s
        (register c.consumerTag c { s.starts generated c with toChannel := channel }) :=
      .of_send writes sent s.control hchannel rfl
    have hruns : ∀ tag, tag ≠ c.consumerTag →
        (register c.consumerTag c { s.starts generated c with toChannel := channel }).running tag =
          s.running tag := by
      intro tag hne
      simp [register, starts, tagOf, htag, Function.update_of_ne hne]
    have hstarted : (register c.consumerTag c
        { s.starts generated c with toChannel := channel }).running c.consumerTag ≠ none := by
      simp [register, starts, tagOf, htag]
    apply hok.moves hmoves (hok.fresh_of_moves hmoves rfl) (by simp) (fun _ => .of_ne (by simp))
    · intro hstay tag hrunning
      by_cases hne : tag = c.consumerTag
      · left
        simp [register, hne]
      · rw [hruns tag hne] at hrunning
        rcases hok.known_of hmoves (by simp) hstay hrunning with hcallback | hconsuming
        · exact .inl (Finset.mem_insert_of_mem hcallback)
        · exact .inr hconsuming
    · intro hstay tag hknown
      by_cases hne : tag = c.consumerTag
      · exact .inl (hne ▸ hstarted)
      · rw [hruns tag hne]
        exact hok.live_of hmoves (by simp) (by simp) hstay (hknown.of_register hne)
  next e channel hsend =>
    obtain ⟨writes, sent, hchannel⟩ := hsends
    rw [hsend] at hchannel
    obtain rfl : channel = _ := hchannel
    exact hok.sends writes sent (.raising e) rfl rfl rfl rfl rfl

theorem TagsOk.startCancel (hok : TagsOk s) (hidle : s.Idle) :
    TagsOk (startCancel cfg tag s) := by
  unfold Consumers.startCancel
  split
  next hattached =>
    have hstep : Channel.step cfg s.toChannel (.call .basicCancel) =
        requestAndWait cfg .basicCancel (.call · .basicCancel) s.toChannel := by
      simp only [Channel.step, if_pos hidle, startCall, if_pos hattached]
    unfold requestAndWait at hstep
    split
    next id channel hrequest =>
      obtain ⟨rfl, hcore⟩ := request_ok hrequest
      obtain ⟨hasked, hfresh⟩ := hok.asks (.cancel tag)
      rw [hrequest] at hstep
      have hmoves : Moves cfg (.call .basicCancel) s { (s.discard tag).ends tag with
          toChannel := wait (.call s.broker.requests .basicCancel) channel
          asked := Function.update s.asked s.broker.requests (some (.cancel tag)) } :=
        .of_step .returning (by rw [hstep]; rfl) hasked
      apply hok.moves hmoves
      · intro request hle
        apply hfresh
        simpa [wait, hcore, Broker.ask] using hle
      · simp
      · exact fun _ => .of_ne (by simp)
      · intro hstay other hruns
        by_cases htag : other = tag
        · simp [ends, htag] at hruns
        · refine hok.known_of hmoves (by simp) hstay ?_
          simpa only [ends, discard, Function.update_of_ne htag] using hruns
      · intro hstay other hknown
        by_cases htag : other = tag
        · subst htag
          have hreg : channel.toChannelCore.Registered := by
            rw [hcore]
            exact hok.settled.registered
          refine .inr ⟨channel.created, s.broker.requests, hreg.awaits_new _, ?_,
            Function.update_self ..⟩
          simp [wait, beginWait_eq]
        · simp only [ends, discard, Function.update_of_ne htag]
          exact hok.live_of hmoves (by simp) (by simp) hstay hknown
    next e channel hrequest =>
      obtain ⟨writes, sent, rfl⟩ := request_refused_sends hrequest
      exact hok.sends writes sent (.raising e) rfl rfl rfl rfl rfl
  · exact hok

theorem TagsOk.cancelNowait (hok : TagsOk s) (hidle : s.Idle)
    (hkeeps : KeepsTags cfg s (.cancel tag true)) : TagsOk (cancelNowait cfg tag s) := by
  unfold Consumers.cancelNowait
  have hsends := sendMethod_sends cfg Spec.Basic.cancel s.toChannel
  split
  next hattached =>
    split
    next channel hsend =>
      obtain ⟨-, hwrite, -⟩ := sendMethod_ok hsend
      have htag := hkeeps hidle hattached hwrite
      obtain ⟨writes, sent, hchannel⟩ := hsends
      rw [hsend] at hchannel
      have hmoves : Moves cfg (.connectionCloses true) s
          { (s.discard tag).ends tag with toChannel := channel } :=
        .of_send writes sent s.control hchannel rfl
      apply hok.moves hmoves (hok.fresh_of_moves hmoves rfl) (by simp) (fun _ => .of_ne (by simp))
      · intro hstay other hruns
        by_cases hother : other = tag
        · simp [ends, hother] at hruns
        · refine hok.known_of hmoves (by simp) hstay ?_
          simpa only [ends, discard, Function.update_of_ne hother] using hruns
      · intro hstay other hknown
        have hlive := hok.live_of hmoves (by simp) (by simp) hstay hknown
        by_cases hother : other = tag
        · subst hother
          refine .inr (hlive.resolve_left fun hruns => ?_)
          exact htag.elim hruns fun hunknown => hunknown hknown
        · simpa only [ends, discard, Function.update_of_ne hother] using hlive
    next e channel hsend =>
      obtain ⟨writes, sent, hchannel⟩ := hsends
      rw [hsend] at hchannel
      obtain rfl : channel = _ := hchannel
      exact hok.sends writes sent (.raising e) rfl rfl rfl rfl rfl
  · exact hok

/-! The end of a call -/

theorem returns_cases {s : Channel P} {request : Nat} {returned : Returned}
    (h : returns s = some (request, returned)) :
    ∃ id rest, s.stack = .wait id :: rest ∧ P.ready (s.waits id).promise = true ∧
      (s.waits id).task = .call request .basicConsume ∧
        returned = (s.waits id).returned .basicConsume := by
  unfold returns at h
  split at h
  next id rest hstack _ =>
    split at h
    next hready =>
      split at h
      next htask =>
        obtain ⟨rfl, rfl⟩ := Prod.mk.inj (Option.some.inj h)
        exact ⟨id, rest, hstack, hready, htask, rfl⟩
      · cases h
    · cases h
  · cases h

/-- A `basic_consume` returns the tag that it asked for. -/
theorem TagsOk.consumed (hok : TagsOk s) (hstay : ¬ s.Leaving) {request : Nat}
    {returned : Returned} (h : returns s.toChannel = some (request, returned)) :
    ∃ tag c, s.asked request = some (.consume tag c) ∧ s.consumed = some (c, .ok tag) := by
  obtain ⟨id, rest, hstack, hready, htask, hreturned⟩ := returns_cases h
  obtain ⟨tag, c, hasked, -, hvalue⟩ := (hok.facts hstay).holds id (by simp [hstack]) request htask
  obtain ⟨sig, hvalue⟩ := hvalue hready
  refine ⟨tag, c, hasked, ?_⟩
  have htag : returned.consumerTag = .ok tag := by
    rw [hreturned, Waiting.returned, hvalue]
    rfl
  simp only [Consumers.consumed, h, hasked, htag]

theorem consumed_cases {c : Consume} {result : Except PyError PyStr}
    (h : s.consumed = some (c, result)) :
    ∃ request returned, returns s.toChannel = some (request, returned) := by
  unfold Consumers.consumed at h
  split at h
  next request returned hreturns => exact ⟨request, returned, hreturns⟩
  · cases h

/-- A `basic_consume` goes on waiting, or returns, or is ended while its tag has a
callback or no consumer. -/
theorem TagsOk.known_go (hok : TagsOk s) (h : Moves cfg .go s s')
    (hcore : s'.toChannelCore = (go cfg s.toChannel).toChannelCore) (hasked : s'.asked = s.asked)
    (hkeeps : KeepsTags cfg s (.channel .go)) (hstay : ¬ s.Leaving)
    (hruns : s.running tag ≠ none) :
    tag ∈ s.callbacks ∨ s'.toChannelCore.Consuming s'.asked tag ∨
      ∃ request returned c, returns s.toChannel = some (request, returned) ∧
        s.asked request = some (.consume tag c) := by
  rcases hok.known hstay tag hruns with hcallback | hconsuming
  · exact .inl hcallback
  rcases h.consuming hok hconsuming with hstays |
    ⟨-, id, rest, result, request, c, hstack, hended, htask, hconsume⟩
  · exact .inr (.inl hstays)
  cases hcontrol : s.control with
  | running =>
      have hgo : go cfg s.toChannel = s.toChannel := by
        simp [go, hstack, hcontrol]
      rw [hcore, hasked, hgo]
      exact .inr (.inl hconsuming)
  | returning =>
      cases hended with
      | ready hready =>
          refine .inr (.inr ⟨request, (s.waits id).returned .basicConsume, c, ?_, hconsume⟩)
          simp only [returns, hstack, hcontrol, if_pos hready, htask]
      | raised hraised => cases hcontrol.symm.trans hraised
  | raising e =>
      have hraises : raises s.toChannel = some request := by
        simp only [raises, hstack, hcontrol, htask]
      rcases hkeeps.2 request hraises _ hconsume with hnone | hcallback
      · exact absurd hnone hruns
      · exact .inl hcallback

theorem TagsOk.live_go (hok : TagsOk s) (h : Moves cfg .go s s')
    (hkeeps : KeepsTags cfg s (.channel .go)) (hstay : ¬ s.Leaving) (hknown : s.Known tag) :
    s.running tag ≠ none ∨ s'.toChannelCore.Cancelling s'.asked tag := by
  rcases hok.live hstay tag hknown with hrunning | hcancelling
  · exact .inl hrunning
  rcases h.cancelling hok hcancelling with hstays |
    ⟨id, request, htask, hasked, ⟨-, rest, e, hstack, hcontrol⟩ | ⟨_, _, hread, _⟩⟩
  · exact .inr hstays
  · have hraises : raises s.toChannel = some request := by
      simp only [raises, hstack, hcontrol, htask]
    exact .inl ((hkeeps.2 request hraises _ hasked).resolve_right fun h => h hknown)
  · cases hread

theorem TagsOk.goOnChannel (hok : TagsOk s) (hkeeps : KeepsTags cfg s (.channel .go)) :
    TagsOk (goOnChannel cfg s) := by
  have hmoves : ∀ (control : Control) (s' : Consumers P),
      s'.toChannel = { go cfg s.toChannel with control } → s'.asked = s.asked →
        Moves cfg .go s s' :=
    fun control s' htoChannel hasked => .of_step control htoChannel fun _ _ h => hasked ▸ h
  unfold Consumers.goOnChannel
  simp only
  split
  next c tag hconsumed =>
    have hgo := hmoves (go cfg s.toChannel).control
      { register tag c s with toChannel := go cfg s.toChannel } rfl rfl
    have hreturns : ¬ s.Leaving → ∀ request returned,
        returns s.toChannel = some (request, returned) →
          s.asked request = some (.consume tag c) ∧ s.running tag ≠ none := by
      intro hstay request returned hreturns
      obtain ⟨tag', c', hasked, hsame⟩ := hok.consumed hstay hreturns
      obtain ⟨rfl, htag⟩ := Prod.mk.inj (Option.some.inj (hconsumed.symm.trans hsame))
      obtain rfl := Except.ok.inj htag
      exact ⟨hasked, hkeeps.1 _ hreturns _ hasked⟩
    apply hok.moves hgo (hok.fresh_of_moves hgo rfl) (by simp) (fun _ => .of_ne (by simp))
    · intro hstay other hruns
      rcases hok.known_go hgo rfl rfl hkeeps hstay hruns with hcallback | hstays |
        ⟨request, returned, c', hreturned, hasked⟩
      · exact .inl (Finset.mem_insert_of_mem hcallback)
      · exact .inr hstays
      · obtain ⟨hown, -⟩ := hreturns hstay request returned hreturned
        obtain ⟨rfl, -⟩ : tag = other ∧ c = c' := by simpa [hown] using hasked
        exact .inl (Finset.mem_insert_self ..)
    · intro hstay other hknown
      by_cases hother : other = tag
      · obtain ⟨request, returned, hreturned⟩ := consumed_cases hconsumed
        exact .inl (hother ▸ (hreturns hstay request returned hreturned).2)
      · exact hok.live_go hgo hkeeps hstay (hknown.of_register hother)
  next c e hconsumed =>
    have hgo := hmoves (.raising e) { s with toChannel := goOn (.raising e) (go cfg s.toChannel) }
      rfl rfl
    have hleaving : ¬ ¬ s.Leaving := by
      intro hstay
      obtain ⟨request, returned, hreturned⟩ := consumed_cases hconsumed
      obtain ⟨tag, c', -, hsame⟩ := hok.consumed hstay hreturned
      cases hconsumed.symm.trans hsame
    exact hok.moves hgo (hok.fresh_of_moves hgo rfl) (by simp) (fun _ => .of_ne (by simp))
      (fun hstay => absurd hstay hleaving) fun hstay => absurd hstay hleaving
  next hconsumed =>
    have hgo := hmoves (go cfg s.toChannel).control { s with toChannel := go cfg s.toChannel } rfl rfl
    apply hok.moves hgo (hok.fresh_of_moves hgo rfl) (by simp) (fun _ => .of_ne (by simp))
    · intro hstay tag hruns
      rcases hok.known_go hgo rfl rfl hkeeps hstay hruns with hcallback | hstays |
        ⟨request, returned, c', hreturned, hasked⟩
      · exact .inl hcallback
      · exact .inr hstays
      · obtain ⟨tag', c, -, hconsumed'⟩ := hok.consumed hstay hreturned
        cases hconsumed.symm.trans hconsumed'
    · exact fun hstay tag hknown => hok.live_go hgo hkeeps hstay hknown

/-! Methods that are read -/

/-- A method that is read and parsed is heard, unless the channel is leaving. -/
theorem TagsOk.heard (hok : TagsOk s) (hstay : ¬ s.Leaving) {m : Inbound} {args : List Arg}
    (hdrains : s.Drains) (hparse : m.parse cfg.decode = .ok args) :
    hears cfg m s.toChannel = some args := by
  obtain ⟨hclosing, hattached⟩ := not_or.mp hstay
  have hlisted := hok.settled.listed (by simpa using hattached)
  unfold Channel.hears
  rw [if_pos ⟨hdrains, hlisted, fun h => hclosing h.1⟩, hparse]
  rfl

/-- What a method that is read does to the consumers of the channel and of the broker. -/
inductive Reads (cfg : Config) (m : Inbound) (s s' : Consumers P) : Prop
  | closes (hcallbacks : s'.callbacks = ∅) (hcancel : s'.cancelCallbacks = ∅)
      (hrunning : ∀ tag, s'.running tag = none)
  | cancels {args : List Arg} {tag : PyStr} (hparse : m.parse cfg.decode = .ok args)
      (htag : tagArgument args = some tag) (hcallbacks : s'.callbacks = s.callbacks.erase tag)
      (hcancel : s'.cancelCallbacks = s.cancelCallbacks.erase tag) (hnone : s'.running tag = none)
      (hrunning : ∀ other, other ≠ tag → s'.running other = s.running other)
  | other
      (hnot : m.methodSig = Spec.Basic.cancelOk → ∀ args tag, m.parse cfg.decode = .ok args →
        tagArgument args ≠ some tag)
      (hcallbacks : s'.callbacks = s.callbacks) (hcancel : s'.cancelCallbacks = s.cancelCallbacks)
      (hrunning : s'.running = s.running)

theorem reads_of_heard {m : Inbound} {args : List Arg}
    (hheard : Channel.hears cfg m s.toChannel = some args) (hclosing : s.isClosing = false)
    (hparse : m.parse cfg.decode = .ok args)
    (hkeeps : KeepsTags cfg s (.channel (.deliver m))) :
    Reads cfg m s ((s.listen cfg m).tells cfg m) := by
  obtain ⟨hclose, -, hcancelOk⟩ := hkeeps args hheard
  have hnot : tagArgument args = none → m.methodSig = Spec.Basic.cancelOk → ∀ args tag,
      m.parse cfg.decode = .ok args → tagArgument args ≠ some tag := by
    intro hnone _ args' tag hparse'
    obtain rfl := Except.ok.inj (hparse.symm.trans hparse')
    simp [hnone]
  by_cases hsig : m.methodSig = Spec.Channel.closeOk
  · apply Reads.closes
    · simp [listen, tells, hheard, hparse, hsig, clear]
    · simp [listen, tells, hheard, hparse, hsig, clear]
    · simp [listen, tells, hheard, hparse, hsig, clear]
  by_cases hsig' : m.methodSig = Spec.Channel.close
  · obtain ⟨hcallbacks, hcancel⟩ := hclose hsig' hclosing
    have hlisten : s.listen cfg m = { s with registered := fun _ => none } := by
      simp only [listen, hheard, if_neg hsig, if_pos hsig', hclosing, Bool.false_eq_true, if_false]
    have htells : ∀ tables : Consumers P,
        tables.tells cfg m = { tables with running := fun _ => none } := by
      intro tables
      simp only [tells, hparse, hsig', true_or, if_true]
    rw [hlisten, htells]
    exact .closes hcallbacks hcancel fun _ => rfl
  have htells : ∀ tables : Consumers P, m.methodSig ≠ Spec.Basic.cancel →
      tables.tells cfg m = tables := by
    intro tables hother
    simp only [tells, hparse, hsig, hsig', or_self, if_false, if_neg hother]
  by_cases hcancel : m.methodSig = Spec.Basic.cancel
  · simp only [listen, hheard, if_neg hsig, if_neg hsig', if_pos (Or.inl hcancel)]
    cases htag : tagArgument args with
    | some tag =>
        have hcancelled : ∀ tables : Consumers P, tables.tells cfg m =
            { tables with running := Function.update tables.running tag none } := by
          intro tables
          simp only [tells, hparse, hsig, hsig', or_self, if_false, if_pos hcancel, htag]
        rw [hcancelled]
        exact .cancels hparse htag rfl rfl (Function.update_self ..)
          fun other hother => Function.update_of_ne hother ..
    | none =>
        have hunchanged : ∀ tables : Consumers P, tables.tells cfg m = tables := by
          intro tables
          simp only [tells, hparse, hsig, hsig', or_self, if_false, if_pos hcancel, htag]
        rw [hunchanged]
        exact .other (hnot htag) rfl rfl rfl
  rw [htells _ hcancel]
  by_cases hsigOk : m.methodSig = Spec.Basic.cancelOk
  · simp only [listen, hheard, if_neg hsig, if_neg hsig', if_pos (Or.inr hsigOk)]
    cases htag : tagArgument args with
    | some tag =>
        exact .cancels hparse htag rfl rfl (hcancelOk hsigOk tag htag) fun other _ => rfl
    | none => exact .other (hnot htag) rfl rfl rfl
  · simp only [listen, hheard, if_neg hsig, if_neg hsig', hcancel, hsigOk, or_self, if_false]
    exact .other (fun h => absurd h hsigOk) rfl rfl rfl

theorem TagsOk.reads (hok : TagsOk s) (hstay : ¬ s.Leaving) {m : Inbound} (hdrains : s.Drains)
    (hkeeps : KeepsTags cfg s (.channel (.deliver m))) :
    Reads cfg m s ((s.listen cfg m).tells cfg m) := by
  cases hparse : m.parse cfg.decode with
  | ok args =>
      have hclosing : s.isClosing = false := by simpa using (not_or.mp hstay).1
      exact reads_of_heard (hok.heard hstay hdrains hparse) hclosing hparse hkeeps
  | error e =>
      have hheard : Channel.hears cfg m s.toChannel = none := by
        unfold Channel.hears
        rw [hparse]
        split <;> rfl
      have htables : (s.listen cfg m).tells cfg m = s := by
        simp only [listen, hheard, tells, hparse]
      rw [htables]
      refine .other (fun _ args tag h => ?_) rfl rfl rfl
      cases hparse.symm.trans h

theorem listen_asked {m : Inbound} : (s.listen cfg m).asked = s.asked := by
  unfold listen
  split
  · rfl
  split
  · rfl
  split
  · split <;> rfl
  split
  · split <;> rfl
  · rfl

theorem tells_asked {m : Inbound} : (s.tells cfg m).asked = s.asked := by
  obtain ⟨running, htells⟩ := exists_tells cfg m s
  rw [htells]

/-- A `basic_cancel` waits on, unless its `CancelOk` is read. -/
theorem TagsOk.live_deliver (hok : TagsOk s) {m : Inbound} (h : Moves cfg (.deliver m) s s')
    (hstay : ¬ s.Leaving) (hkeeps : KeepsTags cfg s (.channel (.deliver m)))
    (hknown : s.Known tag) :
    (s.running tag ≠ none ∨ s'.toChannelCore.Cancelling s'.asked tag) ∨
      m.methodSig = Spec.Basic.cancelOk ∧
        ∃ args, m.parse cfg.decode = .ok args ∧ tagArgument args = some tag := by
  rcases hok.live hstay tag hknown with hrunning | hcancelling
  · exact .inl (.inl hrunning)
  rcases h.cancelling hok hcancelling with hstays |
    ⟨id, request, htask, hasked, ⟨hread, _⟩ | ⟨_, args, hread, hdrains, hparse, hpending⟩⟩
  · exact .inl (.inr hstays)
  · cases hread
  · obtain rfl := Event.deliver.inj hread
    have hsig : m.methodSig = Spec.Basic.cancelOk := by
      have hmethod := (hok.settled.registered.live _ _ hpending).2
      simpa [htask, Task.methods, SyncCall.replies] using hmethod
    have htag := (hkeeps args (hok.heard hstay hdrains hparse)).2.1 (.inr hsig) id hpending
    rw [tagAsked_eq htask hasked] at htag
    exact .inr ⟨hsig, args, hparse, htag.symm⟩

theorem TagsOk.deliver (hok : TagsOk s) {m : Inbound}
    (hkeeps : KeepsTags cfg s (.channel (.deliver m))) :
    TagsOk (stepChannel cfg s (.deliver m)) := by
  by_cases hdrains : s.Drains
  · simp only [stepChannel, if_pos hdrains]
    have hasked : ((s.listen cfg m).tells cfg m).asked = s.asked :=
      tells_asked.trans listen_asked
    have hmoves : Moves cfg (.deliver m) s { (s.listen cfg m).tells cfg m with
        toChannel := Channel.step cfg s.toChannel (.deliver m) } :=
      .of_step (Channel.step cfg s.toChannel (.deliver m)).control rfl fun _ _ h => hasked ▸ h
    apply hok.moves hmoves (hok.fresh_of_moves hmoves hasked) (by simp)
    · intro hstay m' args id hread _ hparse hsig hpending
      obtain rfl := Event.deliver.inj hread
      exact (hkeeps args (hok.heard hstay hdrains hparse)).2.1 (.inl hsig) id hpending
    · intro hstay tag hruns
      cases hok.reads hstay hdrains hkeeps with
      | closes _ _ hrunning => exact absurd (hrunning tag) hruns
      | @cancels _ tag' _ _ hcallbacks _ hnone hrunning =>
          have htag : tag ≠ tag' := fun h => hruns (h ▸ hnone)
          refine (hok.known_of hmoves (by simp) hstay (hrunning tag htag ▸ hruns)).imp_left ?_
          intro hcallback
          simpa only [hcallbacks] using Finset.mem_erase_of_ne_of_mem htag hcallback
      | other _ hcallbacks _ hrunning =>
          rw [hcallbacks]
          exact hok.known_of hmoves (by simp) hstay (hrunning ▸ hruns)
    · intro hstay tag hknown
      cases hok.reads hstay hdrains hkeeps with
      | closes hcallbacks hcancel => simp [Known, hcallbacks, hcancel] at hknown
      | @cancels args tag' hparse htag hcallbacks hcancel hnone hrunning =>
          simp only [Known, hcallbacks, hcancel, Finset.mem_erase, ← and_or_left] at hknown
          obtain ⟨hother, hknown⟩ := hknown
          rcases hok.live_deliver hmoves hstay hkeeps hknown with hlive | ⟨-, args', hparse', htag'⟩
          · rw [hrunning tag hother]
            exact hlive
          · obtain rfl := Except.ok.inj (hparse.symm.trans hparse')
            exact absurd (Option.some.inj (htag'.symm.trans htag)) hother
      | other hnot hcallbacks hcancel hrunning =>
          simp only [Known, hcallbacks, hcancel] at hknown
          rcases hok.live_deliver hmoves hstay hkeeps hknown with hlive | ⟨hsig, args, hparse, htag⟩
          · rw [hrunning]
            exact hlive
          · exact absurd htag (hnot hsig args tag hparse)
  · have hstep : stepChannel cfg s (.deliver m) = s := by
      simp only [stepChannel, Channel.step, if_neg hdrains]
    rw [hstep]
    exact hok

theorem TagsOk.step (hok : TagsOk s) (event : ConsumerEvent) (hkeeps : KeepsTags cfg s event) :
    TagsOk (step cfg generated s event) := by
  unfold Consumers.step
  split
  next c nowait =>
    split
    next hidle =>
      cases nowait with
      | true => exact hok.consumeNowait hidle hkeeps
      | false => exact hok.startConsume hidle
    · exact hok
  next tag nowait =>
    split
    next hidle =>
      cases nowait with
      | true => exact hok.cancelNowait hidle hkeeps
      | false => exact hok.startCancel hidle
    · exact hok
  next event =>
    split
    · exact hok
    next hcall =>
      have hmoves : ∀ s' : Consumers P, s'.toChannel = Channel.step cfg s.toChannel event →
          s'.asked = s.asked → Moves cfg event s s' :=
        fun s' htoChannel hasked => .of_step (Channel.step cfg s.toChannel event).control
          htoChannel fun _ _ h => hasked ▸ h
      cases event with
      | go => exact hok.goOnChannel hkeeps
      | deliver m => exact hok.deliver hkeeps
      | collect =>
          have hcollects := hmoves (stepChannel cfg s .collect) rfl rfl
          have hleaves : (stepChannel cfg s .collect).Leaving := .inr rfl
          exact ⟨hcollects.settled hok.settled, hcollects.closing hok.settled hok.closing,
            hok.fresh_of_moves hcollects rfl,
            fun hstay => absurd hleaves hstay, fun hstay => absurd hleaves hstay,
            fun hstay => absurd hleaves hstay⟩
      | _ =>
          refine hok.same (hmoves _ rfl rfl) (by simp) (by simp) ?_ rfl rfl rfl rfl
          rintro heq
          exact hcall (heq ▸ rfl)

theorem TagsOk.init : TagsOk ({} : Consumers P) where
  settled := run_settled plainConfig []
  closing h := by cases h
  fresh _ _ := rfl
  facts _ := ⟨by simp, by simp⟩
  known _ tag hruns := absurd rfl hruns
  live _ tag hknown := by simp [Known] at hknown

/-- Without a call in progress nothing waits. -/
theorem TagsOk.matchesBroker (hok : TagsOk s) (hcall : ¬ s.InCall) (hattached : s.attached = true) :
    MatchesBroker s := by
  have hwait : ∀ id, .wait id ∉ s.stack := fun id hid => hcall ⟨.wait id, hid, rfl⟩
  have hstay : ¬ s.Leaving := by
    rintro (hclosing | hdetached)
    · obtain ⟨id, _, hid, _⟩ := hok.closing hclosing hattached
      exact hwait id hid
    · cases hattached.symm.trans hdetached
  have hconsuming : ∀ tag, ¬ s.toChannelCore.Consuming s.asked tag :=
    fun tag ⟨id, _, _, hid, _⟩ => hwait id hid
  have hcancelling : ∀ tag, ¬ s.toChannelCore.Cancelling s.asked tag :=
    fun tag ⟨id, _, hawaits, _⟩ => hwait id hawaits.1
  intro tag
  refine ⟨⟨fun hcallback => ?_, fun hruns => ?_⟩, fun hcancel => ?_⟩
  · exact (hok.live hstay tag (.inl hcallback)).resolve_right (hcancelling tag)
  · exact (hok.known hstay tag hruns).resolve_right (hconsuming tag)
  · exact (hok.live hstay tag (.inr hcancel)).resolve_right (hcancelling tag)

/-- In a run that leaves no tag behind, whenever no call is in progress on a channel that
has its connection, `callbacks` has the tags of the consumers that the broker runs, and
`cancel_callbacks` some of them. -/
theorem run_matchesBroker (events : List ConsumerEvent)
    (hkeeps : Run.Along (step cfg generated) (KeepsTags cfg) ({} : Consumers P) events)
    (hcall : ¬ (run cfg generated events : Consumers P).InCall)
    (hattached : (run cfg generated events : Consumers P).attached = true) :
    MatchesBroker (run cfg generated events : Consumers P) := by
  have hok : TagsOk (run cfg generated events : Consumers P) :=
    Run.invariant (fun _ event h hkeeps => h.step event hkeeps) TagsOk.init hkeeps
  exact hok.matchesBroker hcall hattached

end Moves

/-- A server's `Channel.Close`, after which the channel is opened again. -/
def closeEvents : List ConsumerEvent :=
  [.channel (.deliver notFound), .channel .go, .channel (.deliver openOk), .channel .return,
    .channel .go, .channel .go, .channel .go, .channel .go]

/-- A consumer that is cancelled, one that the server cancels, and a channel that the
server closes. -/
def tidyEvents : List ConsumerEvent :=
  openEvents.map .channel ++
    [.consume { onCancel := true } false] ++ replyEvents (named Spec.Basic.consumeOk) ++
    [.cancel someTag false] ++ replyEvents (named Spec.Basic.cancelOk) ++
    [.consume { consumerTag := someTag, onCancel := true } true] ++ cancelEvents ++
    closeEvents ++ [.consume { consumerTag := someTag } true]

theorem run_matchesBroker_tidy :
    MatchesBroker (run plainConfig (fun _ => someTag) tidyEvents : Consumers (plainPromises Reply)) ∧
      (run plainConfig (fun _ => someTag) tidyEvents :
        Consumers (plainPromises Reply)).running someTag = some false :=
  ⟨run_matchesBroker tidyEvents (by decide +kernel) (by decide +kernel) (by decide +kernel),
    by decide +kernel⟩

/-- The channel after a consumer has been started, and then these events. -/
def after (events : List ConsumerEvent) : Consumers (plainPromises Reply) :=
  run plainConfig (fun _ => someTag) (openEvents.map .channel ++
    [.consume {} false] ++ replyEvents (named Spec.Basic.consumeOk) ++ events)

/-- No call is in progress on the open channel. -/
def Rests (s : Consumers P) : Prop :=
  s.stack = [.user] ∧ s.control = .running ∧ s.isOpen = true ∧ s.attached = true

/-- A server's `Channel.Close` and a `basic_cancel` with `nowait` leave a callback without
a consumer, and a `basic_consume` with `nowait` and no tag a consumer without a callback. -/
theorem run_matchesBroker_leftover :
    ((after closeEvents).Rests ∧ ¬ MatchesBroker (after closeEvents)) ∧
    ((after [.cancel someTag true]).Rests ∧ ¬ MatchesBroker (after [.cancel someTag true])) ∧
    let unnamed := after ([.cancel someTag false] ++ replyEvents (named Spec.Basic.cancelOk) ++
      [.consume {} true, .channel .go])
    unnamed.Rests ∧ ¬ MatchesBroker unnamed := by
  refine ⟨⟨⟨rfl, rfl, rfl, rfl⟩, fun h => ?_⟩, ⟨⟨rfl, rfl, rfl, rfl⟩, fun h => ?_⟩,
    ⟨rfl, rfl, rfl, rfl⟩, fun h => ?_⟩
  · exact (h someTag).1.mp (by decide +kernel) rfl
  · exact (h someTag).1.mp (by decide +kernel) rfl
  · have hknown := (h someTag).1.mpr (by decide +kernel)
    revert hknown
    decide +kernel

end Consumers

end PyAmqp
