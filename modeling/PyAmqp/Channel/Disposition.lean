import PyAmqp.Channel.Deliveries

/-!
Deliveries are disposed of as `basic_consume` documents, with one exception: a message for a
tag that was registered without a callable is not discarded, but raises a `TypeError`. What
a tag is registered with is read off the history of the channel.
-/

namespace PyAmqp

namespace Deliveries

open Channel

variable {P : Promises Reply}

/-! The dictionary and its history -/

/-- The entry of a tag in `callbacks`. -/
def callback? (tag : PyStr) (s : Deliveries P) : Option (Option Nat) :=
  if tag ∈ s.callbacks then some (s.functions tag) else none

/-- The dictionary is what the history has made of it. -/
def CallbacksOk (s : Deliveries P) : Prop := ∀ tag, registration tag s.history = s.callback? tag

section Steps

variable {cfg : Config} {generated : Nat → PyStr} {s s' : Deliveries P}

theorem CallbacksOk.of_same (h : CallbacksOk s) (hcallbacks : s'.callbacks = s.callbacks)
    (hfunctions : s'.functions = s.functions) (hhistory : s'.history = s.history) :
    CallbacksOk s' := by
  intro tag
  rw [hhistory, h tag]
  simp only [callback?, hcallbacks, hfunctions]

theorem CallbacksOk.setCallback {tag : PyStr} {callback : Option Nat} (h : CallbacksOk s)
    (hcallbacks : s'.callbacks = insert tag s.callbacks) (hfunctions : s'.functions = s.functions)
    (hhistory : s'.history = s.history) : CallbacksOk (setCallback tag callback s') := by
  intro other
  simp only [Deliveries.setCallback, registration, callback?, hcallbacks, hfunctions, hhistory,
    Finset.mem_insert]
  by_cases htag : tag = other
  · subst htag
    simp
  · rw [if_neg htag, h other, Function.update_of_ne (Ne.symm htag)]
    simp only [callback?, Ne.symm htag, false_or]

theorem CallbacksOk.removed {tag : PyStr} (h : CallbacksOk s)
    (hcallbacks : s'.callbacks = s.callbacks.erase tag) (hfunctions : s'.functions = s.functions)
    (hhistory : s'.history = .removed tag :: s.history) : CallbacksOk s' := by
  intro other
  simp only [registration, callback?, hcallbacks, hfunctions, hhistory, Finset.mem_erase]
  by_cases htag : tag = other
  · subst htag
    simp
  · rw [if_neg htag, h other]
    simp only [callback?, Ne.symm htag, ne_eq, not_false_iff, true_and]

theorem CallbacksOk.cleared (hcallbacks : s'.callbacks = ∅)
    (hhistory : ∃ rest, s'.history = .cleared :: rest) : CallbacksOk s' := by
  obtain ⟨rest, hrest⟩ := hhistory
  intro tag
  simp [hrest, registration, callback?, hcallbacks]

/-! Steps -/

theorem startConsume_callbacks (c : Consume) (t : Consumers P) :
    (Consumers.startConsume cfg generated c t).callbacks = t.callbacks := by
  unfold Consumers.startConsume
  split <;> rfl

theorem consumeNowait_callbacks (c : Consume) (t : Consumers P) :
    (Consumers.consumeNowait cfg generated c t).callbacks =
      if (sendMethod cfg Spec.Basic.consume t.toChannel).1 = .ok () ∧ c.consumerTag ≠ [] then
        insert c.consumerTag t.callbacks
      else t.callbacks := by
  unfold Consumers.consumeNowait
  split
  next channel hsend =>
    simp only [hsend, true_and]
    by_cases htag : c.consumerTag = []
    · simp [htag, Consumers.starts]
    · simp [htag, Consumers.starts, Consumers.register]
  next e channel hsend => simp [hsend]

theorem cancel_callbacks (tag : PyStr) (nowait : Bool) (t : Consumers P) :
    (Consumers.step cfg generated t (.cancel tag nowait)).callbacks = t.callbacks := by
  simp only [Consumers.step]
  split_ifs
  · unfold Consumers.cancelNowait
    split
    · split <;> rfl
    · rfl
  · unfold Consumers.startCancel
    split
    · split <;> rfl
    · rfl
  · rfl

theorem tells_callbacks (m : Inbound) (t : Consumers P) :
    (t.tells cfg m).callbacks = t.callbacks := by
  obtain ⟨running, htells⟩ := Consumers.exists_tells cfg m t
  rw [htells]

theorem CallbacksOk.consume (h : CallbacksOk s) (c : Consume) (callback : Option Nat)
    (nowait : Bool) : CallbacksOk (consume cfg generated c callback nowait s) := by
  unfold Deliveries.consume
  split
  next =>
    have hcallbacks := @consumeNowait_callbacks P cfg generated c s.toConsumers
    simp only
    split
    next hgoes =>
      rw [if_pos hgoes] at hcallbacks
      exact h.setCallback hcallbacks rfl rfl
    next hgoes =>
      rw [if_neg hgoes] at hcallbacks
      exact h.of_same hcallbacks rfl rfl
  next => exact h.of_same (startConsume_callbacks c s.toConsumers) rfl rfl

theorem CallbacksOk.goOnChannel (h : CallbacksOk s) : CallbacksOk (goOnChannel cfg s) := by
  unfold Deliveries.goOnChannel
  cases hconsumed : s.consumed with
  | none => exact h.of_same (by simp [Consumers.goOnChannel, hconsumed]) rfl rfl
  | some ended =>
      obtain ⟨c, result⟩ := ended
      cases result with
      | ok tag =>
          exact h.setCallback
            (by simp [Consumers.goOnChannel, hconsumed, Consumers.register]) rfl rfl
      | error e => exact h.of_same (by simp [Consumers.goOnChannel, hconsumed]) rfl rfl

/-- The listener of a `Basic.Deliver` leaves the dictionary as it is. -/
theorem listenDeliver_keeps (m : Inbound) (s : Deliveries P) :
    (listenDeliver cfg m s).callbacks = s.callbacks ∧
      (listenDeliver cfg m s).functions = s.functions ∧
      (listenDeliver cfg m s).history = s.history := by
  unfold listenDeliver
  split
  next info msg _ =>
    unfold onBasicDeliver
    split
    · split <;> exact ⟨rfl, rfl, rfl⟩
    · rcases hsend : sendMethod cfg Spec.Basic.reject s.toChannel with ⟨outcome, channel⟩
      cases outcome <;> simp only [basicReject, hsend] <;> exact ⟨rfl, rfl, rfl⟩
  next => exact ⟨rfl, rfl, rfl⟩

theorem close_ne_cancel : Spec.Channel.close ≠ Spec.Channel.closeOk ∧
    Spec.Channel.close ≠ Spec.Basic.cancel ∧ Spec.Channel.close ≠ Spec.Basic.cancelOk := by
  decide

theorem CallbacksOk.readMethod (h : CallbacksOk s) (m : Inbound) :
    CallbacksOk (readMethod cfg m s) := by
  have hcallbacks : (Consumers.stepChannel cfg s.toConsumers (.deliver m)).callbacks =
      (s.toConsumers.listen cfg m).callbacks := by
    simp only [Consumers.stepChannel]
    split
    next => exact tells_callbacks m _
    next hdrains =>
      have hheard : hears cfg m s.toChannel = none := by
        unfold hears
        rw [if_neg fun hall => hdrains hall.1]
      simp only [Consumers.listen, hheard]
  unfold Consumers.listen at hcallbacks
  cases hheard : hears cfg m s.toChannel with
  | none =>
      simp only [hheard] at hcallbacks
      exact h.of_same hcallbacks rfl (by simp [Deliveries.readMethod, removals, hheard])
  | some args =>
      simp only [hheard] at hcallbacks
      have hremovals : ∀ changes, removals cfg m s = changes →
          (Deliveries.readMethod cfg m s).history = changes ++ s.history := by
        rintro changes rfl
        rfl
      split_ifs at hcallbacks with hcloseOk hclose hclosing hcancel
      · exact .cleared hcallbacks
          ⟨s.history, hremovals [.cleared] (by simp [removals, hheard, hcloseOk])⟩
      · exact h.of_same hcallbacks rfl
          (hremovals [] (by simp [removals, hheard, hclose, close_ne_cancel]))
      · exact h.of_same hcallbacks rfl
          (hremovals [] (by simp [removals, hheard, hclose, close_ne_cancel]))
      · cases htag : tagArgument args with
        | some tag =>
            simp only [htag] at hcallbacks
            exact h.removed hcallbacks rfl
              (hremovals [.removed tag] (by simp [removals, hheard, hcloseOk, hcancel, htag]))
        | none =>
            simp only [htag] at hcallbacks
            exact h.of_same hcallbacks rfl
              (hremovals [] (by simp [removals, hheard, hcloseOk, hcancel, htag]))
      · exact h.of_same hcallbacks rfl
          (hremovals [] (by simp [removals, hheard, hcloseOk, hcancel]))

theorem CallbacksOk.deliver (h : CallbacksOk s) (m : Inbound) :
    CallbacksOk (deliver cfg m s) := by
  unfold Deliveries.deliver
  split
  · obtain ⟨hcallbacks, hfunctions, hhistory⟩ :=
      @listenDeliver_keeps P cfg m (Deliveries.readMethod cfg m s)
    exact (h.readMethod m).of_same hcallbacks hfunctions hhistory
  · exact h.readMethod m

theorem CallbacksOk.step (h : CallbacksOk s) (event : DeliveryEvent) :
    CallbacksOk (step cfg generated s event) := by
  cases event with
  | consume c callback nowait =>
      simp only [Deliveries.step]
      split
      · exact h.consume c callback nowait
      · exact h
  | cancel tag nowait =>
      exact h.of_same (@cancel_callbacks P cfg generated tag nowait s.toConsumers) rfl rfl
  | channel event =>
      cases event with
      | go => exact h.goOnChannel
      | deliver m => exact h.deliver m
      | collect => exact .cleared rfl ⟨s.history, rfl⟩
      | call c =>
          refine h.of_same ?_ rfl rfl
          simp only [Deliveries.step, Consumers.step]
          split <;> rfl
      | _ => exact h.of_same rfl rfl rfl

/-! A delivery -/

/-- A `Basic.Deliver` that a drain reads is dispatched. -/
def Dispatches (m : Inbound) (s : Deliveries P) : Prop :=
  m.methodSig = Spec.Basic.deliver ∧ s.Drains ∧ s.listed = true ∧ s.isClosing = false

instance (m : Inbound) (s : Deliveries P) : Decidable (Dispatches m s) :=
  inferInstanceAs (Decidable (_ ∧ _))

/-- What `basic_consume` says of a message: the callable is called with it once, or it is
discarded, or it is rejected to be queued again; and nothing is raised. -/
def Disposed (cfg : Config) (generated : Nat → PyStr) (s : Deliveries P) : DeliveryEvent → Prop
  | .channel (.deliver m) =>
      Dispatches m s →
        let s' := step cfg generated s (.channel (.deliver m))
        ∃ info msg, deliveryOf cfg m = some (info, msg) ∧ (∀ e, s'.control ≠ .raising e) ∧
          match registration info.consumerTag s.history with
          | some (some function) =>
              s'.calls = s.calls ++ [⟨function, info, msg⟩] ∧ s'.rejects = s.rejects ∧
                s'.sent = s.sent
          | some none => s'.calls = s.calls ∧ s'.rejects = s.rejects ∧ s'.sent = s.sent
          | none =>
              s'.calls = s.calls ∧ s'.rejects = s.rejects ++ [(info.deliveryTag, true)] ∧
                s'.sent = s.sent ++ [Spec.Basic.reject]
  | _ => True

/-- The arguments and the message can be read, the tag is not registered with `None`, and
where it is not registered at all a `Basic.Reject` can be written. -/
def Disposable (cfg : Config) (s : Deliveries P) : DeliveryEvent → Prop
  | .channel (.deliver m) =>
      Dispatches m s →
        ∃ info msg, deliveryOf cfg m = some (info, msg) ∧
          match s.callback? info.consumerTag with
          | some callback => callback ≠ none
          | none => s.attached = true ∧ cfg.write s.writes = .ok ()
  | _ => True

theorem deliveryOf_parse {m : Inbound} {info : DeliveryInfo} {msg : Message}
    (h : deliveryOf cfg m = some (info, msg)) : ∃ args, m.parse cfg.decode = .ok args := by
  unfold deliveryOf at h
  split at h
  next hparse => exact ⟨_, hparse⟩
  next => simp at h

/-- The listener of a delivery runs on top of the `dispatch_method` that calls it. -/
theorem step_deliver {m : Inbound} {channel : Channel P} {args : List Arg}
    (hsig : m.methodSig = Spec.Basic.deliver) (hheard : hears cfg m channel = some args) :
    ∃ oneShot, Channel.step cfg channel (.deliver m) =
      goOn .running (push .user (push (.dispatch oneShot)
        { channel with
          broker := channel.broker.receive cfg.decode m
          pending := Function.update channel.pending m.methodSig none })) := by
  obtain ⟨oneShot, hstep⟩ := step_hears (hsig ▸ by decide) hheard
  exact ⟨oneShot, by rw [hstep, hsig]; rfl⟩

theorem Dispatches.hears {m : Inbound} (h : Dispatches m s) {args : List Arg}
    (hparse : m.parse cfg.decode = .ok args) : hears cfg m s.toChannel = some args := by
  obtain ⟨hsig, hdrains, hlisted, hclosing⟩ := h
  unfold Channel.hears
  rw [if_pos ⟨hdrains, hlisted, fun h => by simp [hclosing] at h⟩, hparse]
  rfl

theorem Dispatches.step {m : Inbound} (h : Dispatches m s) {info : DeliveryInfo} {msg : Message}
    (hdelivery : deliveryOf cfg m = some (info, msg)) :
    step cfg generated s (.channel (.deliver m)) =
      onBasicDeliver cfg info msg (readMethod cfg m s) := by
  obtain ⟨args, hparse⟩ := deliveryOf_parse hdelivery
  simp only [Deliveries.step, deliver, h.1, h.hears hparse, Option.isSome_some, and_self, if_true,
    listenDeliver, hdelivery]

/-- What the listener of a delivery finds is the channel as it was, but for the stack. -/
theorem Dispatches.readMethod {m : Inbound} (h : Dispatches m s) {args : List Arg}
    (hparse : m.parse cfg.decode = .ok args) :
    let t := readMethod cfg m s
    t.control = .running ∧ t.callbacks = s.callbacks ∧ t.sent = s.sent ∧ t.writes = s.writes ∧
      t.attached = s.attached := by
  have hheard := h.hears hparse
  obtain ⟨oneShot, hchannel⟩ := step_deliver h.1 hheard
  have hlisten : s.toConsumers.listen cfg m = s.toConsumers := by
    simp only [Consumers.listen, hheard, h.1]
    rfl
  simp only [Deliveries.readMethod, Consumers.stepChannel, hchannel, if_pos h.2.1, hlisten,
    tells_callbacks]
  exact ⟨rfl, trivial, rfl, rfl, rfl⟩

/-- What becomes of a message, by the entry of its tag. -/
theorem onBasicDeliver_calls {t : Deliveries P} {info : DeliveryInfo} (msg : Message)
    {function : Nat} (hentry : t.callback? info.consumerTag = some (some function)) :
    onBasicDeliver cfg info msg t = { t with calls := t.calls ++ [⟨function, info, msg⟩] } := by
  unfold callback? at hentry
  split at hentry
  next hmem =>
    unfold onBasicDeliver
    rw [if_pos hmem, Option.some.inj hentry]
  next => simp at hentry

theorem onBasicDeliver_none {t : Deliveries P} {info : DeliveryInfo} (msg : Message)
    (hentry : t.callback? info.consumerTag = some none) :
    (onBasicDeliver cfg info msg t).control = .raising .typeError := by
  unfold callback? at hentry
  split at hentry
  next hmem =>
    unfold onBasicDeliver
    rw [if_pos hmem, Option.some.inj hentry]
    rfl
  next => simp at hentry

theorem onBasicDeliver_rejects {t : Deliveries P} {info : DeliveryInfo} (msg : Message)
    (hentry : t.callback? info.consumerTag = none) :
    let t' := onBasicDeliver cfg info msg t
    if t.attached = true ∧ cfg.write t.writes = .ok () then
      t'.control = .returning ∧ t'.calls = t.calls ∧
        t'.rejects = t.rejects ++ [(info.deliveryTag, true)] ∧
        t'.sent = t.sent ++ [Spec.Basic.reject]
    else ∃ e, t'.control = .raising e := by
  have hmem : info.consumerTag ∉ t.callbacks := by
    intro hmem
    simp [callback?, hmem] at hentry
  unfold onBasicDeliver
  rw [if_neg hmem]
  rcases hsend : sendMethod cfg Spec.Basic.reject t.toChannel with ⟨outcome, channel⟩
  cases outcome with
  | ok =>
      obtain ⟨hattached, hwrite, rfl⟩ := sendMethod_ok hsend
      simp only [basicReject, hsend, if_pos (And.intro hattached hwrite)]
      exact ⟨rfl, rfl, rfl, rfl⟩
  | error e =>
      rw [if_neg (fun h => sendMethod_refused hsend h.1 h.2)]
      exact ⟨e, by simp only [basicReject, hsend]; rfl⟩

theorem CallbacksOk.disposed_iff (h : CallbacksOk s) (event : DeliveryEvent) :
    Disposed cfg generated s event ↔ Disposable cfg s event := by
  match event with
  | .channel (.deliver m) => ?_
  | .channel .go | .channel (.call _) | .channel .publishConfirm | .channel .return
    | .channel (.raise _) | .channel .foreign | .channel (.fail _)
    | .channel (.connectionCloses _) | .channel .collect | .consume _ _ _ | .cancel _ _ =>
      exact .rfl
  refine forall_congr' fun hdispatches => ?_
  refine exists_congr fun info => exists_congr fun msg => and_congr_right fun hdelivery => ?_
  obtain ⟨args, hparse⟩ := deliveryOf_parse hdelivery
  obtain ⟨hcontrol, hcallbacks, hsent, hwrites, hattached⟩ := hdispatches.readMethod hparse
  have hentry : (Deliveries.readMethod cfg m s).callback? info.consumerTag =
      s.callback? info.consumerTag := by
    simp only [callback?, hcallbacks]
    rfl
  rw [hdispatches.step hdelivery, h info.consumerTag]
  cases hcallback : s.callback? info.consumerTag with
  | none =>
      rw [hcallback] at hentry
      have hrejects := @onBasicDeliver_rejects P cfg _ info msg hentry
      simp only [hattached, hwrites, hsent] at hrejects
      split at hrejects
      next hwritten =>
        obtain ⟨hreturns, hrejected⟩ := hrejects
        exact iff_of_true ⟨fun e => by simp [hreturns], hrejected⟩ hwritten
      next hwritten =>
        obtain ⟨e, hraises⟩ := hrejects
        exact iff_of_false (fun hdisposed => hdisposed.1 e hraises) hwritten
  | some callback =>
      rw [hcallback] at hentry
      cases callback with
      | some function =>
          rw [onBasicDeliver_calls msg hentry]
          simp only [hcontrol, ne_eq, reduceCtorEq, not_false_iff, implies_true, true_and, iff_true]
          exact ⟨rfl, rfl, hsent⟩
      | none =>
          have hraises := @onBasicDeliver_none P cfg _ info msg hentry
          exact iff_of_false (fun hdisposed => hdisposed.1 _ hraises) fun hne => hne rfl

theorem callbacksOk_first : CallbacksOk ({} : Deliveries P) := by
  intro tag
  simp [registration, callback?]

/-- In a run every delivery is disposed of as documented, if and only if none is for a tag
that was registered with `None`, can be read, and finds the channel able to reject it where
its tag is not registered. -/
theorem run_disposed (cfg : Config) (generated : Nat → PyStr) (events : List DeliveryEvent) :
    Run.Along (step cfg generated) (Disposed cfg generated) ({} : Deliveries P) events ↔
      Run.Along (step cfg generated) (Disposable cfg) ({} : Deliveries P) events := by
  constructor
  · exact Run.Along.of_invariant (fun _ event h _ => h.step event)
      (fun _ event h hdisposed => (h.disposed_iff event).mp hdisposed) callbacksOk_first
  · exact Run.Along.of_invariant (fun _ event h _ => h.step event)
      (fun _ event h hdisposable => (h.disposed_iff event).mpr hdisposable) callbacksOk_first

end Steps

/-- A message for the tag "t". -/
def someDelivery : Inbound :=
  { methodSig := Spec.Basic.deliver
    payload := [0, 60, 0, 60, 1, 116, 0, 0, 0, 0, 0, 0, 0, 1, 0, 0, 0]
    content := some {} }

/-- A consumer is started without a callable, and a message comes for it. -/
theorem run_disposed_none :
    ¬ ∀ events, Run.Along (step plainConfig fun _ => Consumers.someTag)
      (Disposed plainConfig fun _ => Consumers.someTag)
      ({} : Deliveries (plainPromises Reply)) events := by
  intro hclaim
  have hrun := hclaim (openEvents.map .channel ++
    [.consume { consumerTag := Consumers.someTag } none true, .channel (.deliver someDelivery)])
  obtain ⟨-, hdisposed, -⟩ := Run.Along.drop hrun
  have hdispatches : Dispatches someDelivery (step plainConfig (fun _ => Consumers.someTag)
      ((openEvents.map DeliveryEvent.channel).foldl (step plainConfig fun _ => Consumers.someTag)
        ({} : Deliveries (plainPromises Reply)))
      (.consume { consumerTag := Consumers.someTag } none true)) := by
    decide +kernel
  obtain ⟨info, msg, -, hcontrol, -⟩ := hdisposed hdispatches
  exact hcontrol .typeError (by decide +kernel)

end Deliveries

end PyAmqp
