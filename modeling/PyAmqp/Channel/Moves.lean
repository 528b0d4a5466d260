import PyAmqp.Channel.Machine

/-!
What a step of a channel can do, once for all invariants: each `Move` is one way for
the core to change, with the control the step ends in.
-/

namespace PyAmqp

/-- The control an outcome is. -/
def Control.of : Except PyError Unit → Control
  | .ok () => .returning
  | .error e => .raising e

namespace Channel

open ChannelCore

variable {P : Promises Reply}

/-- The `wait` on top has ended: its promise was ready, or an exception reached it. -/
inductive Ended (s : Channel P) (id : Nat) : Except PyError Unit → Prop
  | ready (hready : P.ready (s.waits id).promise = true) : Ended s id (.ok ())
  | raised {e : PyError} (hcontrol : s.control = .raising e) : Ended s id (.error e)

/-- What follows on the end of a `wait`: an activation that takes its place, the call it
notes as ended, and the control. -/
inductive Follows (waiting : Waiting P) :
    Except PyError Unit → List Activation → List Entry → Control → Prop
  | returned {id : Nat} {c : SyncCall} (htask : waiting.task = .call id c) :
      Follows waiting (.ok ()) [] [.call id c (.ok (waiting.returned c))] .returning
  | raised {id : Nat} {c : SyncCall} {e : PyError} (htask : waiting.task = .call id c) :
      Follows waiting (.error e) [] [.call id c (.error e)] (.raising e)
  | revived {id : Nat} {args : List Arg} (htask : waiting.task = .revive id args) :
      Follows waiting (.ok ()) [] [] (.raising (closeError args))
  | unrevived {id : Nat} {args : List Arg} {e : PyError} (htask : waiting.task = .revive id args) :
      Follows waiting (.error e) [] [] (.raising e)
  | selected {id : Nat} (draining : Bool) (htask : waiting.task = .select id) :
      Follows waiting (.ok ()) [.publish draining] [] .running
  | unpublished {id : Nat} {e : PyError} (htask : waiting.task = .select id)
      (he : e ≠ .messageNacked) :
      Follows waiting (.ok ()) [] [.publish none (.error e)] (.raising e)
  | unselected {id : Nat} {e : PyError} (htask : waiting.task = .select id) :
      Follows waiting (.error e) [] [.publish none (.error e)] (.raising e)
  | confirmed {number : Nat} (htask : waiting.task = .confirm number)
      (result : Except PyError Unit) :
      Follows waiting result [] [.publish (some number) result] (.of result)

/-- The promise of a method, with what it will be called with. -/
def oneShot (m : Inbound) (args : List Arg) (s : Channel P) : Option (Nat × Reply) :=
  (s.pending m.methodSig).map fun id => (id, (m.methodSig, args))

/-- A call sends its request. -/
def Sends (s : Channel P) (c : SyncCall) : Prop :=
  s.attached = true ∧ (c = .open → s.isOpen = false) ∧ (c = .close → s.isOpen = true)

instance (s : Channel P) (c : SyncCall) : Decidable (s.Sends c) :=
  inferInstanceAs (Decidable (_ ∧ (_ → _) ∧ (_ → _)))

inductive Move (cfg : Config) (s : Channel P) : Event → ChannelCore P → Control → Prop
  | stay {event : Event} {control : Control}
      (hcontrol : control ≠ .raising .messageNacked ∨ control = s.control) :
      Move cfg s event s.toChannelCore control
  | fails {e : PyError} (hdrains : s.Drains) :
      Move cfg s (.fail e) s.toChannelCore (.raising e)
  | foreign (hdrains : s.Drains) :
      Move cfg s .foreign { s with stack := .user :: .dispatch none :: s.stack } .running
  | userReturns {rest : List Activation} (hstack : s.stack = .user :: rest)
      (hrest : rest ≠ []) :
      Move cfg s .return { s with stack := rest } .returning
  | userRaises {rest : List Activation} {e : PyError} (hidle : s.Idle)
      (hstack : s.stack = .user :: rest) (hrest : rest ≠ []) :
      Move cfg s (.raise e) { s with stack := rest } (.raising e)
  | listenerReturns {rest : List Activation} (hstack : s.stack = .dispatch none :: rest) :
      Move cfg s .go { s with stack := rest } .returning
  | listenerRaises {oneShot : Option (Nat × Reply)} {rest : List Activation} {e : PyError}
      (hstack : s.stack = .dispatch oneShot :: rest) (hcontrol : s.control = .raising e) :
      Move cfg s .go { s with stack := rest } (.raising e)
  | calls {id : Nat} {reply : Reply} {rest : List Activation}
      (hstack : s.stack = .dispatch (some (id, reply)) :: rest) :
      Move cfg s .go
        { s with
          stack := rest
          waits := Function.update s.waits id
            { s.waits id with promise := (P.call reply (s.waits id).promise).2 } }
        (.of (P.call reply (s.waits id).promise).1)
  | leaves {id : Nat} {rest acts : List Activation} {result : Except PyError Unit}
      {entries log : List Entry} {control : Control} (hstack : s.stack = .wait id :: rest)
      (hended : Ended s id result) (hfollows : Follows (s.waits id) result acts entries control)
      (hlog : log = s.log ++ entries) :
      Move cfg s .go
        { s with
          stack := acts ++ rest
          pending := restore ((s.waits id).task.methods.zip (s.waits id).prev) s.pending
          log }
        control
  | drained {rest : List Activation} (hstack : s.stack = .publish true :: rest) :
      Move cfg s .go { s with stack := .publish false :: rest } .running
  | publishRaises {draining : Bool} {rest : List Activation} {e : PyError}
      (hstack : s.stack = .publish draining :: rest)
      (he : s.control = .raising e ∨ e ≠ .messageNacked) :
      Move cfg s .go { s with stack := rest, log := s.log ++ [.publish none (.error e)] }
        (.raising e)
  | publishes {rest : List Activation} (hstack : s.stack = .publish false :: rest)
      (hcontrol : s.control = .running) :
      Move cfg s .go
        (beginWait (.confirm (s.broker.published + 1)) { s with
          stack := rest, broker := { s.broker with published := s.broker.published + 1 } })
        .returning
  | asks {c : SyncCall} (hidle : s.Idle) (hsends : s.Sends c) :
      Move cfg s (.call c)
        (beginWait (.call s.broker.requests c) { s with broker := s.broker.ask c }) .returning
  | selects (hidle : s.Idle) (hselected : s.confirmSelected = false)
      (hattached : s.attached = true) :
      Move cfg s .publishConfirm
        (beginWait (.select s.broker.requests)
          { s with confirmSelected := true, broker := s.broker.ask .confirmSelect })
        .returning
  | selectRefused {e : PyError} (hidle : s.Idle) (hselected : s.confirmSelected = false)
      (hrefused : ¬ (s.attached = true ∧ cfg.write s.writes = .ok ())) (he : e ≠ .messageNacked) :
      Move cfg s .publishConfirm
        { s with confirmSelected := true, log := s.log ++ [.publish none (.error e)] } (.raising e)
  | startsPublish (draining : Bool) (hidle : s.Idle) (hselected : s.confirmSelected = true) :
      Move cfg s .publishConfirm { s with stack := .publish draining :: s.stack } .running
  | publishRefused {e : PyError} (hidle : s.Idle) (hselected : s.confirmSelected = true)
      (he : e ≠ .messageNacked) :
      Move cfg s .publishConfirm { s with log := s.log ++ [.publish none (.error e)] } (.raising e)
  | ignores {m : Inbound} {control : Control} (hdrains : s.Drains)
      (hcontrol : control ≠ .raising .messageNacked) :
      Move cfg s (.deliver m) { s with broker := s.broker.receive cfg.decode m } control
  | takes {m : Inbound} {control : Control} (hdrains : s.Drains)
      (hcontrol : control = .returning ∨
        ∃ e, m.parse cfg.decode = .error e ∧ control = .raising e) :
      Move cfg s (.deliver m)
        { s with
          broker := s.broker.receive cfg.decode m
          pending := Function.update s.pending m.methodSig none }
        control
  | listens {m : Inbound} {args : List Arg} {acts : List Activation} {control : Control}
      (hdrains : s.Drains) (hparse : m.parse cfg.decode = .ok args)
      (hacts : acts = [] ∨ acts = [.user]) (hcontrol : control ≠ .raising .messageNacked) :
      Move cfg s (.deliver m)
        { s with
          broker := s.broker.receive cfg.decode m
          pending := Function.update s.pending m.methodSig none
          stack := acts ++ .dispatch (s.oneShot m args) :: s.stack }
        control
  | reopens {m : Inbound} {args : List Arg} (hdrains : s.Drains)
      (hparse : m.parse cfg.decode = .ok args) (hclose : m.methodSig = Spec.Channel.close)
      (hclosing : s.isClosing = false ∧ s.connectionClosing = false)
      (hattached : s.attached = true) :
      Move cfg s (.deliver m)
        (beginWait (.revive (s.broker.receive cfg.decode m).requests args) { s with
          broker := (s.broker.receive cfg.decode m).ask .open
          pending := Function.update s.pending m.methodSig none
          stack := .dispatch (s.oneShot m args) :: s.stack })
        .returning

/-! Sending -/

section Sending

variable (cfg : Config)

theorem connectionClosed_ne : connectionClosed ≠ .messageNacked := by
  simp [connectionClosed, recoverableConnectionError]

/-- Sending a method only counts a write and notes the method. -/
theorem sendMethod_cases (sig : MethodSig) (s : Channel P) :
    (∃ writes sent, sendMethod cfg sig s = (.ok (), { s with writes, sent }) ∧
        s.attached = true) ∨
      ∃ e writes, sendMethod cfg sig s = (.error e, { s with writes }) ∧ e ≠ .messageNacked ∧
        ¬ (s.attached = true ∧ cfg.write s.writes = .ok ()) := by
  unfold sendMethod
  by_cases hattached : s.attached = true
  · rw [if_pos hattached]
    cases hwrite : cfg.write s.writes with
    | ok value => exact .inl ⟨_, _, rfl, hattached⟩
    | error e =>
        refine .inr ⟨_, s.writes + 1, rfl, ?_, by simp⟩
        split
        · exact connectionClosed_ne
        · exact cfg.write_error _ _ hwrite
  · rw [if_neg hattached]
    exact .inr ⟨_, s.writes, rfl, connectionClosed_ne, fun h => hattached h.1⟩

theorem publishContent_cases (s : Channel P) :
    (∃ writes sent, publishContent cfg s = (.ok (), { s with writes, sent }) ∧
        s.attached = true) ∨
      ∃ e writes, publishContent cfg s = (.error e, { s with writes }) ∧ e ≠ .messageNacked := by
  unfold publishContent
  by_cases hattached : s.attached = true
  · rw [if_pos hattached]
    obtain ⟨writes, sent, hsend, -⟩ | ⟨e, writes, hsend, he, -⟩ :=
      sendMethod_cases cfg Spec.Basic.publish s
    · exact .inl ⟨writes, sent, by simp only [hsend], hattached⟩
    · refine .inr ⟨if e = .socketTimeout then publishTimedOut else e, writes,
        by simp only [hsend], ?_⟩
      split
      · simp [publishTimedOut]
      · exact he
  · rw [if_neg hattached]
    exact .inr ⟨.attributeError, s.writes, rfl, by simp⟩

/-- A request that is sent is one more for the broker to answer. -/
theorem request_cases (c : SyncCall) (s : Channel P) :
    (∃ writes sent, request cfg c s =
        (.ok s.broker.requests, { s with writes, sent, broker := s.broker.ask c }) ∧
          s.attached = true) ∨
      ∃ e writes, request cfg c s = (.error e, { s with writes }) ∧ e ≠ .messageNacked ∧
        ¬ (s.attached = true ∧ cfg.write s.writes = .ok ()) := by
  unfold request
  obtain ⟨writes, sent, hsend, hattached⟩ | ⟨e, writes, hsend, he⟩ :=
    sendMethod_cases cfg c.method s
  · refine .inl ⟨writes, sent, ?_, hattached⟩
    rw [Effect.bind_ok _ hsend]
    rfl
  · exact .inr ⟨e, writes, by rw [Effect.bind_error _ hsend], he⟩

end Sending

/-! Steps are moves -/

section Steps

variable {cfg : Config} {s : Channel P}

theorem head_isUser (h : s.stack.head?.any Activation.isUser = true) :
    ∃ rest, s.stack = .user :: rest := by
  cases hstack : s.stack with
  | nil => simp [hstack] at h
  | cons act rest =>
      cases act with
      | user => exact ⟨rest, rfl⟩
      | _ => simp [hstack, Activation.isUser] at h

theorem closeError_ne (args : List Arg) : closeError args ≠ .messageNacked := by
  unfold closeError
  split <;> simp

private theorem leaveWait_move {id : Nat} {rest : List Activation} {result : Except PyError Unit}
    (hstack : s.stack = .wait id :: rest) (hended : Ended s id result) :
    Move cfg s .go (leaveWait cfg id result { s with stack := rest }).toChannelCore
      (leaveWait cfg id result { s with stack := rest }).control := by
  unfold leaveWait finish
  simp only
  split
  next htask => exact .leaves hstack hended (.returned htask) rfl
  next htask => exact .leaves hstack hended (.raised htask) rfl
  next htask => exact .leaves hstack hended (.revived htask) (List.append_nil _).symm
  next htask => exact .leaves hstack hended (.unrevived htask) (List.append_nil _).symm
  next htask =>
    unfold startPublish
    split
    · exact .leaves hstack hended (.selected _ htask) (List.append_nil _).symm
    · exact .leaves hstack hended (.unpublished htask (by simp [recoverableConnectionError])) rfl
  next htask => exact .leaves hstack hended (.unselected htask) rfl
  next htask => exact .leaves hstack hended (.confirmed htask (.ok ())) rfl
  next htask => exact .leaves hstack hended (.confirmed htask (.error _)) rfl

private theorem go_move : Move cfg s .go (go cfg s).toChannelCore (go cfg s).control := by
  unfold go
  split
  next => exact .stay (.inl (by simp [goOn]))
  next oneShot rest hstack hcontrol =>
    unfold fulfil
    split
    next => exact .listenerReturns hstack
    next id reply =>
      have hcalls : Move cfg s .go _ (.of (P.call reply (s.waits id).promise).1) := .calls hstack
      simp only
      split
      next houtcome =>
        rw [houtcome] at hcalls
        exact hcalls
      next houtcome =>
        rw [houtcome] at hcalls
        exact hcalls
  next hstack hcontrol => exact .listenerRaises hstack hcontrol
  next hstack hcontrol =>
    split
    next hready => exact leaveWait_move hstack (.ready hready)
    next =>
      split
      · exact .stay (.inl (by simp [goOn]))
      · exact .stay (.inl (by simp [goOn, connectionClosed_ne]))
  next hstack hcontrol => exact leaveWait_move hstack (.raised hcontrol)
  next hstack hcontrol => exact .drained hstack
  next hstack hcontrol =>
    split
    · exact .drained hstack
    · exact .publishRaises hstack (.inl hcontrol)
  next rest hstack hcontrol =>
    unfold sendPublish
    obtain ⟨writes, sent, hrun, -⟩ | ⟨e, writes, hrun, he⟩ :=
      publishContent_cases cfg { s with stack := rest }
    · simp only [hrun]
      exact .publishes hstack hcontrol
    · simp only [hrun]
      exact .publishRaises hstack (.inr he)
  next => exact .stay (.inr rfl)

private theorem startCall_move (c : SyncCall) (hidle : s.Idle) :
    Move cfg s (.call c) (startCall cfg c s).toChannelCore (startCall cfg c s).control := by
  have hask : ∀ c, (c = .open → s.isOpen = false) → (c = .close → s.isOpen = true) →
      Move cfg s (.call c) (requestAndWait cfg c (.call · c) s).toChannelCore
        (requestAndWait cfg c (.call · c) s).control := by
    intro c hopen hclose
    unfold requestAndWait
    obtain ⟨writes, sent, hrun, hattached⟩ | ⟨e, writes, hrun, he, -⟩ := request_cases cfg c s
    · simp only [hrun]
      exact .asks hidle ⟨hattached, hopen, hclose⟩
    · simp only [hrun]
      exact .stay (.inl (by simpa [goOn] using he))
  unfold startCall
  split
  next =>
    split
    · exact .stay (.inr rfl)
    next hopen => exact hask _ (fun _ => by simpa using hopen) (by simp)
  next =>
    split
    · exact hask _ (by simp) (by simp)
    · exact .stay (.inr rfl)
  next =>
    split
    · exact .stay (.inr rfl)
    next hopen =>
      obtain ⟨writes, sent, hrun, hattached⟩ | ⟨e, writes, hrun, he, -⟩ :=
        request_cases cfg .close { s with isClosing := true }
      · simp only [hrun]
        exact .asks hidle ⟨hattached, by simp, fun _ => by simp_all⟩
      · simp only [hrun]
        exact .stay (.inl (by simpa [goOn] using he))
  next hopen _ hclose => exact hask _ (fun h => absurd h hopen) fun h => absurd h hclose

private theorem startPublishConfirm_move (hidle : s.Idle) :
    Move cfg s .publishConfirm (startPublishConfirm cfg s).toChannelCore
      (startPublishConfirm cfg s).control := by
  unfold startPublishConfirm
  split
  next hselected =>
    unfold startPublish
    split
    · exact .startsPublish _ hidle hselected
    · exact .publishRefused hidle hselected (by simp [recoverableConnectionError])
  next hselected =>
    rw [Bool.not_eq_true] at hselected
    obtain ⟨writes, sent, hrun, hattached⟩ | ⟨e, writes, hrun, he, hrefused⟩ :=
      request_cases cfg .confirmSelect { s with confirmSelected := true }
    · simp only [hrun]
      exact .selects hidle hselected hattached
    · simp only [hrun]
      exact .selectRefused hidle hselected hrefused he

/-- The channel when a listener starts. -/
private def heard (cfg : Config) (m : Inbound) (args : List Arg) (s : Channel P) : Channel P :=
  { s with
    broker := s.broker.receive cfg.decode m
    pending := Function.update s.pending m.methodSig none
    stack := .dispatch (s.oneShot m args) :: s.stack }

private theorem onClose_move {m : Inbound} {args : List Arg} (hdrains : s.Drains)
    (hparse : m.parse cfg.decode = .ok args) (hclose : m.methodSig = Spec.Channel.close) :
    Move cfg s (.deliver m) (onClose cfg args (s.heard cfg m args)).toChannelCore
      (onClose cfg args (s.heard cfg m args)).control := by
  have hlistens : ∀ control : Control, control ≠ .raising .messageNacked →
      Move cfg s (.deliver m) (s.heard cfg m args).toChannelCore control :=
    fun control hcontrol => .listens hdrains hparse (.inl rfl) hcontrol
  unfold onClose
  obtain ⟨writes, sent, hrun, hattached⟩ | ⟨e, writes, hrun, he, -⟩ :=
    sendMethod_cases cfg Spec.Channel.closeOk (s.heard cfg m args)
  · simp only [hrun]
    split
    next hclosing =>
      unfold requestAndWait
      obtain ⟨writes', sent', hrun', -⟩ | ⟨e, writes', hrun', he, -⟩ :=
        request_cases cfg .open { s.heard cfg m args with writes, sent, isOpen := false }
      · simp only [hrun']
        exact .reopens hdrains hparse hclose (by simpa [heard, and_comm] using hclosing) hattached
      · simp only [hrun']
        exact hlistens _ (by simpa [goOn] using he)
    next => exact hlistens _ (by simp [goOn])
  · simp only [hrun]
    exact hlistens _ (by simpa [goOn] using he)

private theorem listen_move {m : Inbound} {args : List Arg} (hdrains : s.Drains)
    (hparse : m.parse cfg.decode = .ok args) :
    Move cfg s (.deliver m) (listen cfg m.methodSig args (s.heard cfg m args)).toChannelCore
      (listen cfg m.methodSig args (s.heard cfg m args)).control := by
  have hlistens : ∀ control : Control, control ≠ .raising .messageNacked →
      Move cfg s (.deliver m) (s.heard cfg m args).toChannelCore control :=
    fun control hcontrol => .listens hdrains hparse (.inl rfl) hcontrol
  have huser : Move cfg s (.deliver m) (push .user (s.heard cfg m args)).toChannelCore .running :=
    .listens hdrains hparse (.inr rfl) (by simp)
  unfold listen
  split
  next hclose => exact onClose_move hdrains hparse hclose
  split
  next => exact hlistens _ (by simp [goOn])
  split
  next =>
    unfold onFlow
    obtain ⟨writes, sent, hrun, -⟩ | ⟨e, writes, hrun, he, -⟩ :=
      sendMethod_cases cfg Spec.Channel.flowOk (s.heard cfg m args)
    · simp only [hrun]
      exact hlistens _ (by simp [goOn])
    · simp only [hrun]
      exact hlistens _ (by simpa [goOn] using he)
  split
  next => exact huser
  split
  next => exact hlistens _ (by simp [goOn])
  split
  next => exact huser
  next => exact hlistens _ (by simp [goOn])

private theorem deliver_move (m : Inbound) (hdrains : s.Drains) :
    Move cfg s (.deliver m)
      (onInboundMethod cfg m { s with broker := s.broker.receive cfg.decode m }).toChannelCore
      (onInboundMethod cfg m { s with broker := s.broker.receive cfg.decode m }).control := by
  unfold onInboundMethod dispatchMethod
  split
  · split
    · exact .ignores hdrains (by simp [goOn])
    split
    next e hfind =>
      refine .ignores hdrains ?_
      unfold findMethod at hfind
      split at hfind
      · simp at hfind
      · obtain rfl := Except.error.inj hfind
        simp [goOn, unknownMethod]
    next method hfind =>
      have hparse : m.parse cfg.decode = m.args cfg.decode method := by
        simp [Inbound.parse, hfind]
      simp only
      split
      · exact .takes hdrains (.inl rfl)
      split
      next e herror => exact .takes hdrains (.inr ⟨e, hparse.trans herror, rfl⟩)
      next args hargs => exact listen_move hdrains (hparse.trans hargs)
  · exact .ignores hdrains (by simp [goOn])

/-- Every step is a move. -/
theorem step_move (cfg : Config) (s : Channel P) (event : Event) :
    Move cfg s event (step cfg s event).toChannelCore (step cfg s event).control := by
  cases event with
  | go => exact go_move
  | call c =>
      simp only [step]
      split
      next hidle => exact startCall_move c hidle
      next => exact .stay (.inr rfl)
  | publishConfirm =>
      simp only [step]
      split
      next hidle => exact startPublishConfirm_move hidle
      next => exact .stay (.inr rfl)
  | «return» =>
      simp only [step]
      split
      next hidle =>
        obtain ⟨rest, hstack⟩ := head_isUser hidle.1.2
        simp only [goOn, hstack, List.tail_cons]
        exact .userReturns hstack (by simpa [hstack] using hidle.2)
      next => exact .stay (.inr rfl)
  | raise e =>
      simp only [step]
      split
      next hidle =>
        obtain ⟨rest, hstack⟩ := head_isUser hidle.1.2
        simp only [goOn, hstack, List.tail_cons]
        exact .userRaises hidle.1 hstack (by simpa [hstack] using hidle.2)
      next => exact .stay (.inr rfl)
  | deliver m =>
      simp only [step]
      split
      next hdrains => exact deliver_move m hdrains
      next => exact .stay (.inr rfl)
  | foreign =>
      simp only [step]
      split
      next hdrains => exact .foreign hdrains
      next => exact .stay (.inr rfl)
  | fail e =>
      simp only [step]
      split
      next hdrains => exact .fails hdrains
      next => exact .stay (.inr rfl)
  | connectionCloses closing => exact .stay (.inr rfl)
  | collect => exact .stay (.inr rfl)

end Steps

end Channel

end PyAmqp
