import PyAmqp.Channel.Consumers

/-!
`no_ack_consumers` is changed before the request of a `basic_cancel`, after the reply to a
`basic_consume`, and not at all when the server cancels a consumer or closes the channel.
Where no step finds a stale tag or leaves one, the set has the tags of the `no_ack`
consumers that are registered.
-/

namespace PyAmqp

namespace Consumers

open Channel

variable {P : Promises Reply}

/-- A tag is in `no_ack_consumers` if and only if the consumer that is registered for it,
and not cancelled yet, was started with `no_ack`. -/
def NoAckOk (s : Consumers P) : Prop :=
  ∀ tag, tag ∈ s.noAckConsumers ↔ s.registered tag = some true

/-- A `basic_consume` registers the tag of a consumer that the broker runs with the same
`no_ack`, and without `no_ack` it finds no stale tag; the request of a `basic_cancel` for a
tag in the set is written; and the server cancels no tag in the set, nor closes the channel
while it has one. -/
def KeepsNoAck (cfg : Config) (s : Consumers P) : ConsumerEvent → Prop
  | .consume c true =>
      s.Idle → s.attached = true → cfg.write s.writes = .ok () → c.consumerTag ≠ [] →
        c.noAck = false → c.consumerTag ∉ s.noAckConsumers
  | .cancel tag _ =>
      s.Idle → s.attached = true → cfg.write s.writes = .ok () ∨ tag ∉ s.noAckConsumers
  | .channel .go =>
      ∀ ended ∈ s.consumed, ∀ tag ∈ ended.2.toOption,
        if ended.1.noAck then s.running tag = some true
        else tag ∈ s.noAckConsumers ↔ s.running tag = some true
  | .channel (.deliver m) =>
      ∀ args ∈ hears cfg m s.toChannel,
        (m.methodSig = Spec.Channel.close → s.isClosing = false → s.noAckConsumers = ∅) ∧
        (m.methodSig = Spec.Basic.cancel ∨ m.methodSig = Spec.Basic.cancelOk →
          ∀ tag ∈ tagArgument args, tag ∉ s.noAckConsumers)
  | _ => True

instance (cfg : Config) (s : Consumers P) : (event : ConsumerEvent) →
    Decidable (KeepsNoAck cfg s event)
  | .consume _ true => inferInstanceAs (Decidable (_ → _ → _ → _ → _ → _))
  | .cancel _ _ => inferInstanceAs (Decidable (_ → _ → _ ∨ _))
  | .channel .go =>
      inferInstanceAs (Decidable (∀ ended ∈ s.consumed, ∀ tag ∈ ended.2.toOption, ite _ _ _))
  | .channel (.deliver m) =>
      inferInstanceAs (Decidable (∀ args ∈ hears cfg m s.toChannel, (_ → _ → _) ∧
        (_ ∨ _ → ∀ tag ∈ tagArgument args, _)))
  | .consume _ false | .channel (.call _) | .channel .publishConfirm | .channel .return
    | .channel (.raise _) | .channel .foreign | .channel (.fail _)
    | .channel (.connectionCloses _) | .channel .collect => .isTrue trivial

section Steps

variable {cfg : Config} {generated : Nat → PyStr} {s s' : Consumers P}

theorem NoAckOk.register {tag : PyStr} {c : Consume} (h : NoAckOk s)
    (hkeeps : if c.noAck then s.running tag = some true
      else tag ∈ s.noAckConsumers ↔ s.running tag = some true) :
    NoAckOk (s.register tag c) := by
  intro other
  simp only [Consumers.register]
  by_cases htag : other = tag
  · subst htag
    rw [Function.update_self]
    split
    next hnoAck =>
      rw [if_pos hnoAck] at hkeeps
      simp [hkeeps]
    next hnoAck =>
      rw [if_neg hnoAck] at hkeeps
      exact hkeeps
  · rw [Function.update_of_ne htag, ← h other]
    split
    · simp [htag]
    · rfl

/-- A tag without a registered consumer is not in the set. -/
theorem NoAckOk.erase (h : NoAckOk s) (tag : PyStr)
    (hset : ∀ other, other ≠ tag → (other ∈ s'.noAckConsumers ↔ other ∈ s.noAckConsumers))
    (hregistered : s'.registered = Function.update s.registered tag none)
    (hnot : tag ∉ s'.noAckConsumers) : NoAckOk s' := by
  intro other
  rw [hregistered]
  by_cases htag : other = tag
  · subst htag
    simp [hnot]
  · rw [Function.update_of_ne htag, hset other htag]
    exact h other

theorem NoAckOk.startConsume {c : Consume} (h : NoAckOk s) :
    NoAckOk (startConsume cfg generated c s) := by
  unfold Consumers.startConsume
  split <;> exact h

theorem NoAckOk.consumeNowait {c : Consume} (h : NoAckOk s) (hidle : s.Idle)
    (hkeeps : KeepsNoAck cfg s (.consume c true)) : NoAckOk (consumeNowait cfg generated c s) := by
  unfold Consumers.consumeNowait
  split
  next channel hsend =>
    obtain ⟨hattached, hwrite, -⟩ := sendMethod_ok hsend
    simp only
    split
    · exact h
    next htag =>
      have hstale := hkeeps hidle hattached hwrite htag
      apply NoAckOk.register (s := { s.starts generated c with toChannel := channel }) h
      simp only [starts, tagOf, if_neg htag, Function.update_self]
      by_cases hnoAck : c.noAck = true
      · rw [if_pos hnoAck, hnoAck]
      · rw [if_neg hnoAck]
        simp [hnoAck, hstale]
  · exact h

/-- A `basic_cancel` whose request is written ends the consumer under its tag. -/
theorem NoAckOk.ended {tag : PyStr} (h : NoAckOk s) : NoAckOk ((s.discard tag).ends tag) := by
  apply h.erase tag
  · intro other htag
    simp [ends, discard, htag]
  · rfl
  · simp [ends, discard]

/-- A `basic_cancel` that is not written must find nothing to discard. -/
theorem NoAckOk.discarded {tag : PyStr} (h : NoAckOk s) (hnot : tag ∉ s.noAckConsumers) :
    NoAckOk (s.discard tag) := by
  intro other
  simp only [discard, Finset.erase_eq_of_notMem hnot]
  exact h other

theorem NoAckOk.startCancel {tag : PyStr} (h : NoAckOk s) (hidle : s.Idle)
    (hkeeps : KeepsNoAck cfg s (.cancel tag false)) : NoAckOk (startCancel cfg tag s) := by
  unfold Consumers.startCancel
  split
  next hattached =>
    split
    · exact h.ended
    next hrequest =>
      apply h.discarded
      exact (hkeeps hidle hattached).resolve_left (request_refused hrequest hattached)
  · exact h

theorem NoAckOk.cancelNowait {tag : PyStr} (h : NoAckOk s) (hidle : s.Idle)
    (hkeeps : KeepsNoAck cfg s (.cancel tag true)) : NoAckOk (cancelNowait cfg tag s) := by
  unfold Consumers.cancelNowait
  split
  next hattached =>
    split
    · exact h.ended
    next hsend =>
      apply h.discarded
      exact (hkeeps hidle hattached).resolve_left (sendMethod_refused hsend hattached)
  · exact h

theorem NoAckOk.listen {m : Inbound} (h : NoAckOk s)
    (hkeeps : KeepsNoAck cfg s (.channel (.deliver m))) : NoAckOk (s.listen cfg m) := by
  unfold Consumers.listen
  split
  · exact h
  next args hheard =>
    obtain ⟨hclose, hcancel⟩ := hkeeps args hheard
    split
    · intro tag
      simp [clear]
    split
    next hsig =>
      split
      · exact h
      next hclosing =>
        have hempty := hclose hsig (by simpa using hclosing)
        intro tag
        simp [hempty]
    split
    next hsig =>
      split
      next tag htag =>
        apply h.erase tag
        · intro other _
          rfl
        · rfl
        · exact hcancel hsig tag htag
      · exact h
    · exact h

theorem NoAckOk.tells {m : Inbound} (h : NoAckOk s) : NoAckOk (s.tells cfg m) := by
  obtain ⟨running, htells⟩ := exists_tells cfg m s
  rw [htells]
  exact h

theorem NoAckOk.goOnChannel (h : NoAckOk s) (hkeeps : KeepsNoAck cfg s (.channel .go)) :
    NoAckOk (goOnChannel cfg s) := by
  unfold Consumers.goOnChannel
  simp only
  split
  next c tag hconsumed => exact h.register (hkeeps (c, .ok tag) hconsumed tag rfl)
  · exact h
  · exact h

theorem NoAckOk.step (h : NoAckOk s) (event : ConsumerEvent) (hkeeps : KeepsNoAck cfg s event) :
    NoAckOk (step cfg generated s event) := by
  unfold Consumers.step
  split
  next c nowait =>
    split
    next hidle =>
      cases nowait with
      | true => exact h.consumeNowait hidle hkeeps
      | false => exact h.startConsume
    · exact h
  next tag nowait =>
    split
    next hidle =>
      cases nowait with
      | true => exact h.cancelNowait hidle hkeeps
      | false => exact h.startCancel hidle hkeeps
    · exact h
  next event =>
    split
    · exact h
    cases event with
    | go => exact h.goOnChannel hkeeps
    | deliver m =>
        simp only [stepChannel]
        split
        · exact (h.listen hkeeps).tells
        · exact h
    | collect =>
        intro tag
        simp [stepChannel, clear]
    | _ => exact h

/-- In a run that leaves and finds no stale tag, `no_ack_consumers` has at all times the
tags of the consumers that are registered and were started with `no_ack`. -/
theorem run_noAck (events : List ConsumerEvent)
    (hkeeps : Run.Along (step cfg generated) (KeepsNoAck cfg) ({} : Consumers P) events) :
    NoAckOk (run cfg generated events : Consumers P) := by
  have hstart : NoAckOk ({} : Consumers P) := by
    intro tag
    simp
  exact Run.invariant (fun _ event h hkeeps => h.step event hkeeps) hstart hkeeps

end Steps

/-- A consumer without acknowledgments is cancelled, and its tag used again with them. -/
def reusedEvents : List ConsumerEvent :=
  openEvents.map .channel ++
    [.consume { consumerTag := someTag, noAck := true } false] ++
      replyEvents (named Spec.Basic.consumeOk) ++
    [.cancel someTag false] ++ replyEvents (named Spec.Basic.cancelOk) ++
    [.consume { consumerTag := someTag } true]

theorem run_noAck_reused :
    NoAckOk (run plainConfig (fun _ => someTag) reusedEvents : Consumers (plainPromises Reply)) ∧
      (run plainConfig (fun _ => someTag) reusedEvents :
        Consumers (plainPromises Reply)).registered someTag = some false :=
  ⟨run_noAck reusedEvents (by decide +kernel), by decide +kernel⟩

/-- The server cancels a consumer without acknowledgments, and its tag is used again with
them. -/
def staleEvents : List ConsumerEvent :=
  openEvents.map .channel ++
    [.consume { consumerTag := someTag, noAck := true, onCancel := true } false] ++
      replyEvents (named Spec.Basic.consumeOk) ++
    cancelEvents ++ [.consume { consumerTag := someTag } true]

/-- The new consumer was started without `no_ack`, and no call is in progress, but its
tag is still in the set. -/
theorem run_noAck_stale :
    let s : Consumers (plainPromises Reply) := run plainConfig (fun _ => someTag) staleEvents
    s.stack = [.user] ∧ s.control = .running ∧ s.isOpen = true ∧ someTag ∈ s.callbacks ∧
      someTag ∈ s.noAckConsumers ∧ s.registered someTag = some false ∧ ¬ NoAckOk s := by
  intro s
  have hstale : someTag ∈ s.noAckConsumers := by
    decide +kernel
  have hregistered : s.registered someTag = some false := by
    decide +kernel
  refine ⟨rfl, rfl, rfl, by decide +kernel, hstale, hregistered, fun hok => ?_⟩
  have hnoAck := (hok someTag).mp hstale
  rw [hregistered] at hnoAck
  cases hnoAck

end Consumers

end PyAmqp
