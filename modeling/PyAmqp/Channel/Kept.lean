import PyAmqp.Channel.Registered

/-!
Facts about the promise of every `wait` in progress, and about the reply that every
promise a listener keeps will be called with. A fact holds through a run when every
step keeps it, for each kind of `wait` that a step starts and each method that arrives.
-/

namespace PyAmqp

namespace Broker

/-- A method answers the oldest request, or none. -/
theorem reply_cases (m : Inbound) (b : Broker) :
    b.reply m = b ∨ ∃ o rest, b.outstanding = o :: rest ∧ m.methodSig ∈ o.2.replies ∧
      b.reply m = { b with
        outstanding := rest, replies := Function.update b.replies o.1 (some m) } := by
  unfold reply
  split
  next id c rest hrest =>
    split
    next hmem => exact .inr ⟨(id, c), rest, hrest, hmem, rfl⟩
    next => exact .inl rfl
  next => exact .inl rfl

end Broker

namespace Channel

variable {P : Promises Reply}

/-- The `wait` that a step to `k` may start. -/
inductive Begins (cfg : Config) (s : Channel P) (k : ChannelCore P) : Event → Task → Prop
  | confirm {rest : List Activation} (hstack : s.stack = .publish false :: rest)
      (hcontrol : s.control = .running)
      (hbroker : k.broker = { s.broker with published := s.broker.published + 1 }) :
      Begins cfg s k .go (.confirm (s.broker.published + 1))
  | call {c : SyncCall} (hidle : s.Idle) (hsends : s.Sends c) (hbroker : k.broker = s.broker.ask c) :
      Begins cfg s k (.call c) (.call s.broker.requests c)
  | select (hidle : s.Idle) (hattached : s.attached = true) (hunset : s.confirmSelected = false)
      (hselected : k.confirmSelected = true)
      (hbroker : k.broker = s.broker.ask .confirmSelect) :
      Begins cfg s k .publishConfirm (.select s.broker.requests)
  | revive {m : Inbound} (args : List Arg) (hdrains : s.Drains)
      (hclose : m.methodSig = Spec.Channel.close)
      (hclosing : s.isClosing = false ∧ s.connectionClosing = false)
      (hattached : s.attached = true)
      (hbroker : k.broker = (s.broker.receive cfg.decode m).ask .open) :
      Begins cfg s k (.deliver m) (.revive (s.broker.receive cfg.decode m).requests args)

end Channel

/-- A fact about waits, and one about replies that makes the first true when the reply
is what the promise is called with. -/
structure Facts (P : Promises Reply) where
  wait : Waiting P → Prop
  reply : Task → Reply → Prop
  called : ∀ waiting r, reply waiting.task r → wait waiting →
    wait { waiting with promise := (P.call r waiting.promise).2 }

namespace Facts

open Channel ChannelCore

variable {P : Promises Reply} {F F' : Facts P}

structure HoldIn (F : Facts P) (waits : Nat → Waiting P) (stack : List Activation) : Prop where
  holds : ∀ id, .wait id ∈ stack → F.wait (waits id)
  kept : ∀ id reply, .dispatch (some (id, reply)) ∈ stack → F.reply (waits id).task reply

def Hold (F : Facts P) (k : ChannelCore P) : Prop :=
  F.HoldIn k.waits k.stack

section Stack

variable {waits : Nat → Waiting P} {stack rest : List Activation}

theorem HoldIn.pop {act : Activation} (h : F.HoldIn waits (act :: rest)) :
    F.HoldIn waits rest :=
  ⟨fun id hid => h.holds id (by simp [hid]), fun id reply hid => h.kept id reply (by simp [hid])⟩

theorem HoldIn.push {act : Activation} (h : F.HoldIn waits stack)
    (hwait : ∀ id, act ≠ .wait id)
    (hkept : ∀ id reply, act = .dispatch (some (id, reply)) → F.reply (waits id).task reply) :
    F.HoldIn waits (act :: stack) := by
  refine ⟨fun id hid => ?_, fun id reply hid => ?_⟩
  · exact h.holds id ((List.mem_cons.mp hid).resolve_left fun heq => hwait id heq.symm)
  · rcases List.mem_cons.mp hid with heq | hrest
    · exact hkept id reply heq.symm
    · exact h.kept id reply hrest

theorem HoldIn.push_oneShot {s : Channel P} {m : Inbound} {args : List Arg}
    (h : F.HoldIn s.waits stack)
    (hkept : ∀ id, s.pending m.methodSig = some id →
      F.reply (s.waits id).task (m.methodSig, args)) :
    F.HoldIn s.waits (.dispatch (s.oneShot m args) :: stack) := by
  refine h.push (by simp) fun id reply heq => ?_
  simp only [oneShot, Activation.dispatch.injEq, Option.map_eq_some_iff, Prod.mk.injEq] at heq
  obtain ⟨id, hpending, rfl, rfl⟩ := heq
  exact hkept id hpending

/-- The listener has returned and its promise is called. -/
theorem HoldIn.call {id : Nat} {reply : Reply}
    (h : F.HoldIn waits (.dispatch (some (id, reply)) :: rest)) :
    F.HoldIn
      (Function.update waits id
        { waits id with promise := (P.call reply (waits id).promise).2 }) rest := by
  have hrest := h.pop
  refine ⟨fun other hother => ?_, fun other reply' hother => ?_⟩
  · by_cases heq : other = id
    · subst heq
      rw [Function.update_self]
      exact F.called _ reply (h.kept other reply (by simp)) (hrest.holds other hother)
    · rw [Function.update_of_ne heq]
      exact hrest.holds other hother
  · rw [(update_promise ..).1]
    exact hrest.kept other reply' hother

theorem Hold.beginWait {k : ChannelCore P} {task : Task} (h : F.Hold k) (hreg : k.Registered)
    (hmade : F.wait
      { task, prev := task.methods.map k.pending, promise := P.make task.handler }) :
    F.Hold (k.beginWait task) := by
  have hold : ∀ id, .wait id ∈ k.stack → ∀ waiting : Waiting P,
      Function.update k.waits k.created waiting id = k.waits id := by
    intro id hid waiting
    rw [Function.update_of_ne (hreg.stack.lt hid).ne]
  rw [Hold, beginWait_eq]
  refine ⟨fun id hid => ?_, fun id reply hid => ?_⟩
  · rcases List.mem_cons.mp hid with heq | hrest
    · obtain rfl : id = k.created := by simpa using heq
      simpa only [Function.update_self] using hmade
    · simpa only [hold id hrest] using h.holds id hrest
  · have hrest : Activation.dispatch (some (id, reply)) ∈ k.stack := by simpa using hid
    simpa only [hold id (hreg.stack.kept hrest).1] using h.kept id reply hrest

end Stack

/-- A move takes facts to facts that follow from them, if the waits it starts have the
first and the replies that arrive the second. -/
theorem Hold.move {cfg : Config} {s : Channel P} {event : Event} {k : ChannelCore P}
    {control : Control} (h : F.Hold s.toChannelCore) (hreg : s.toChannelCore.Registered)
    (hmove : Move cfg s event k control)
    (hwaits : ∀ id, .wait id ∈ s.stack → F.wait (s.waits id) → F'.wait (s.waits id))
    (hkept : ∀ id reply, .wait id ∈ s.stack → F.reply (s.waits id).task reply →
      F'.reply (s.waits id).task reply)
    (hmade : ∀ task, s.Begins cfg k event task → F'.wait
      { task, prev := task.methods.map s.pending, promise := P.make task.handler })
    (harrives : ∀ m args id, s.Drains → m.parse cfg.decode = .ok args →
      s.pending m.methodSig = some id → event = .deliver m →
      k.broker = s.broker.receive cfg.decode m → F'.reply (s.waits id).task (m.methodSig, args)) :
    F'.Hold k := by
  have hthen : F'.HoldIn s.waits s.stack :=
    ⟨fun id hid => hwaits id hid (h.holds id hid),
      fun id reply hid => hkept id reply (hreg.stack.kept hid).1 (h.kept id reply hid)⟩
  cases hmove with
  | stay | fails | publishRefused | selectRefused | ignores | takes => exact hthen
  | foreign => exact (hthen.push (by simp) (by simp)).push (by simp) (by simp)
  | startsPublish => exact hthen.push (by simp) (by simp)
  | userReturns hstack | userRaises _ hstack | listenerReturns hstack | listenerRaises hstack
    | publishRaises hstack =>
      rw [hstack] at hthen
      exact hthen.pop
  | drained hstack =>
      rw [hstack] at hthen
      exact hthen.pop.push (by simp) (by simp)
  | calls hstack =>
      rw [hstack] at hthen
      exact hthen.call
  | leaves hstack hended hfollows =>
      rw [hstack] at hthen
      cases hfollows with
      | selected => exact hthen.pop.push (by simp) (by simp)
      | _ => exact hthen.pop
  | @publishes rest hstack hcontrol =>
      have hbegins := hmade _ (.confirm hstack hcontrol rfl)
      rw [hstack] at hthen
      have hrest : F'.Hold { s.toChannelCore with
          stack := rest, broker := { s.broker with published := s.broker.published + 1 } } :=
        hthen.pop
      exact hrest.beginWait (hreg.publish hstack) hbegins
  | @asks c hidle hsends =>
      have hask : F'.Hold { s.toChannelCore with broker := s.broker.ask c } := hthen
      exact hask.beginWait hreg (hmade _ (.call hidle hsends rfl))
  | selects hidle hunset hattached =>
      have hask : F'.Hold { s.toChannelCore with
          confirmSelected := true, broker := s.broker.ask .confirmSelect } := hthen
      exact hask.beginWait hreg (hmade _ (.select hidle hattached hunset rfl rfl))
  | listens hdrains hparse hacts =>
      have hlistens := hthen.push_oneShot fun id hid =>
        harrives _ _ id hdrains hparse hid rfl rfl
      obtain rfl | rfl := hacts
      · exact hlistens
      · exact hlistens.push (by simp) (by simp)
  | @reopens m args hdrains hparse hclose hclosing hattached =>
      have hlistens : F'.Hold { s.toChannelCore with
          broker := (s.broker.receive cfg.decode m).ask .open
          pending := Function.update s.pending m.methodSig none
          stack := .dispatch (s.oneShot m args) :: s.stack } :=
        hthen.push_oneShot fun id hid =>
          absurd (hclose ▸ (hreg.live _ id hid).2) (s.waits id).task.close_notMem_methods
      refine hlistens.beginWait (hreg.dispatch _ _) ?_
      have hprev : (Task.revive (s.broker.receive cfg.decode m).requests args).methods.map
          (Function.update s.pending m.methodSig none) =
            (Task.revive (s.broker.receive cfg.decode m).requests args).methods.map s.pending := by
        rw [hclose]
        rfl
      simp only [hprev]
      exact hmade _ (.revive args hdrains hclose hclosing hattached rfl)

end Facts

namespace Channel

open ChannelCore

variable {P : Promises Reply} {cfg : Config} {s : Channel P} {event : Event} {k : ChannelCore P}
  {control : Control}

theorem beginWait_waits_task (task : Task) {k : ChannelCore P} {id : Nat} (hid : id < k.created) :
    ((k.beginWait task).waits id).task = (k.waits id).task := by
  rw [beginWait_eq]
  simp only [Function.update_of_ne hid.ne]

/-- A `wait` goes on in a step, or it is on top and ends. -/
theorem Move.wait_stays (hreg : s.toChannelCore.Registered) (hmove : Move cfg s event k control)
    {id : Nat} (hid : .wait id ∈ s.stack) :
    (.wait id ∈ k.stack ∧ (k.waits id).task = (s.waits id).task) ∨
      event = .go ∧ ∃ rest result, s.stack = .wait id :: rest ∧ Ended s id result := by
  have hlt := hreg.stack.lt hid
  cases hmove with
  | stay | fails | publishRefused | selectRefused | ignores | takes => exact .inl ⟨hid, rfl⟩
  | foreign | startsPublish => exact .inl ⟨by simp [hid], rfl⟩
  | userReturns hstack | userRaises _ hstack | listenerReturns hstack | listenerRaises hstack
    | publishRaises hstack =>
      rw [hstack] at hid
      exact .inl ⟨by simpa using hid, rfl⟩
  | drained hstack =>
      rw [hstack] at hid
      exact .inl ⟨by simpa using hid, rfl⟩
  | calls hstack =>
      rw [hstack] at hid
      exact .inl ⟨by simpa using hid, (update_promise ..).1⟩
  | @leaves other rest acts result entries log _ hstack hended hfollows =>
      rw [hstack] at hid
      rcases List.mem_cons.mp hid with heq | hrest
      · obtain rfl : id = other := by simpa using heq
        exact .inr ⟨rfl, rest, result, hstack, hended⟩
      · exact .inl ⟨by simp [hrest], rfl⟩
  | publishes hstack =>
      rw [hstack] at hid
      exact .inl ⟨by simpa using Or.inr hid, beginWait_waits_task _ hlt⟩
  | asks | selects => exact .inl ⟨by simp [hid], beginWait_waits_task _ hlt⟩
  | listens => exact .inl ⟨by simp [hid], rfl⟩
  | reopens => exact .inl ⟨by simp [hid], beginWait_waits_task _ hlt⟩

/-- The calls that end in a step: that of a `wait` on top, or a `basic_publish_confirm`
that raises before it has published. -/
inductive Notes (s : Channel P) : Entry → Prop
  | left {id : Nat} {rest acts : List Activation} {result : Except PyError Unit}
      {entries : List Entry} {control : Control} {entry : Entry}
      (hstack : s.stack = .wait id :: rest) (hended : Ended s id result)
      (hfollows : Follows (s.waits id) result acts entries control) (hentry : entry ∈ entries) :
      Notes s entry
  | unpublished {e : PyError}
      (he : e ≠ .messageNacked ∨
        s.control = .raising e ∧ ∃ draining rest, s.stack = .publish draining :: rest) :
      Notes s (.publish none (.error e))

theorem Move.log (hmove : Move cfg s event k control) {entry : Entry} (hentry : entry ∈ k.log) :
    entry ∈ s.log ∨ Notes s entry := by
  cases hmove with
  | leaves hstack hended hfollows hlog =>
      subst hlog
      exact (List.mem_append.mp hentry).imp_right fun h => .left hstack hended hfollows h
  | @publishRaises draining rest e hstack he =>
      refine (List.mem_append.mp hentry).imp_right fun h => ?_
      obtain rfl := List.mem_singleton.mp h
      exact .unpublished (he.symm.imp_right fun h => ⟨h, draining, rest, hstack⟩)
  | selectRefused _ _ _ he | publishRefused _ _ he =>
      refine (List.mem_append.mp hentry).imp_right fun h => ?_
      obtain rfl := List.mem_singleton.mp h
      exact .unpublished (.inl he)
  | _ => exact .inl hentry

end Channel

end PyAmqp
