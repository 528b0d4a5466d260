import PyAmqp.Channel.Kept

/-!
A server's `Channel.Close` on an open channel: the channel confirms it, opens again
under its number, and the error of the reply code ends every call that was waiting.
The `OpenOk` runs the user's `on_open` once more.
-/

namespace PyAmqp

/-- What a call that waits notes when `e` ends it. -/
def Task.endedBy (e : PyError) : Task → List Entry
  | .call id c => [.call id c (.error e)]
  | .revive _ _ => []
  | .select _ => [.publish none (.error e)]
  | .confirm number => [.publish (some number) (.error e)]

variable {P : Promises Reply}

def Activation.endedBy (waits : Nat → Waiting P) (e : PyError) : Activation → List Entry
  | .wait id => (waits id).task.endedBy e
  | .publish _ => [.publish none (.error e)]
  | _ => []

/-- Frames for other channels and their handling: code that reads them or was called for
them goes on and returns. -/
def Event.isElsewhere : Event → Bool
  | .go | .foreign | .return => true
  | _ => false

/-- How a stack empties: code of the user that is among the last `depth` activations
lets `e` pass, and other code returns. -/
def unwindEvents (e : PyError) (depth : Nat) : List Activation → List Event
  | [] => []
  | act :: rest =>
      (if act.isUser ∧ rest ≠ [] then
          [.go, if rest.length < depth then .raise e else .return]
        else [.go]) ++ unwindEvents e depth rest

namespace Channel

open ChannelCore

/-! Flags -/

/-- `close` is on its way, or has given the connection up. -/
def Leaving (s : Channel P) : Prop := s.isClosing = true ∨ s.attached = false

/-- A step that keeps the connection keeps the channel listed, and an ongoing `close`
goes on. -/
def KeepsFlags (s s' : Channel P) : Prop :=
  s'.attached = false ∨
    (s'.attached = s.attached ∧ s'.listed = s.listed ∧ (s.isClosing = true → s'.isClosing = true))

/-- The flags are the same, or the connection is given up. -/
def SameFlags (s s' : Channel P) : Prop :=
  s'.attached = false ∨
    (s'.attached = s.attached ∧ s'.listed = s.listed ∧ s'.isClosing = s.isClosing)

section Flags

variable {cfg : Config} {s : Channel P}

theorem SameFlags.refl : SameFlags s s := .inr ⟨rfl, rfl, rfl⟩

theorem SameFlags.keepsFlags {s' : Channel P} (h : SameFlags s s') : KeepsFlags s s' :=
  h.imp_right fun ⟨hattached, hlisted, hclosing⟩ => ⟨hattached, hlisted, hclosing.trans⟩

private theorem leaveCall_sameFlags (c : SyncCall) : SameFlags s (leaveCall c s) := by
  by_cases hclose : c = .close
  · exact .inl (by simp [leaveCall, hclose])
  · exact .inr (by simp [leaveCall, hclose])

private theorem startPublish_sameFlags : SameFlags s (startPublish cfg s) := by
  unfold startPublish
  split <;> exact SameFlags.refl

private theorem finish_sameFlags (waiting : Waiting P) (result : Except PyError Unit) :
    SameFlags s (finish cfg waiting result s) := by
  unfold finish
  split
  · exact leaveCall_sameFlags _
  · exact leaveCall_sameFlags _
  · exact SameFlags.refl
  · exact SameFlags.refl
  · exact startPublish_sameFlags
  · exact SameFlags.refl
  · exact SameFlags.refl
  · exact SameFlags.refl

private theorem go_sameFlags : SameFlags s (go cfg s) := by
  unfold go
  split
  · exact SameFlags.refl
  · unfold fulfil
    split
    · exact SameFlags.refl
    · simp only
      split <;> exact SameFlags.refl
  · exact SameFlags.refl
  · split
    · exact finish_sameFlags ..
    · split <;> exact SameFlags.refl
  · exact finish_sameFlags ..
  · exact SameFlags.refl
  · split <;> exact SameFlags.refl
  next rest _ _ =>
    unfold sendPublish
    obtain ⟨writes, sent, hrun, -⟩ | ⟨e, writes, hrun, -⟩ :=
      publishContent_cases cfg { s with stack := rest }
    · simp only [hrun]
      exact SameFlags.refl
    · simp only [hrun]
      exact SameFlags.refl
  · exact SameFlags.refl

private theorem requestAndWait_sameFlags (c : SyncCall) (task : Nat → Task) :
    SameFlags s (requestAndWait cfg c task s) := by
  unfold requestAndWait
  obtain ⟨writes, sent, hrun, -⟩ | ⟨e, writes, hrun, -⟩ := request_cases cfg c s
  · simp only [hrun]
    exact SameFlags.refl
  · simp only [hrun]
    exact SameFlags.refl

/-- A `close` that is called gives the connection up, or its request is out and it waits. -/
private theorem startClose_cases :
    (startCall cfg .close s).attached = false ∨
      ∃ writes sent, startCall cfg .close s = wait (.call s.broker.requests .close)
        { s with isClosing := true, writes, sent, broker := s.broker.ask .close } := by
  simp only [startCall]
  split
  · exact .inl rfl
  · obtain ⟨writes, sent, hrun, -⟩ | ⟨e, writes, hrun, -⟩ :=
      request_cases cfg .close { s with isClosing := true }
    · simp only [hrun]
      exact .inr ⟨writes, sent, rfl⟩
    · simp only [hrun]
      exact .inl rfl

/-- It leaves the channel closing or without its connection. -/
private theorem startClose_leaving : Leaving (startCall cfg .close s) := by
  rcases @startClose_cases P cfg s with hgone | ⟨writes, sent, hwaits⟩
  · exact .inr hgone
  · rw [hwaits]
    exact .inl rfl

private theorem startCall_sameFlags {c : SyncCall} (hc : c ≠ .close) :
    SameFlags s (startCall cfg c s) := by
  unfold startCall
  split
  · split
    · exact SameFlags.refl
    · exact requestAndWait_sameFlags ..
  · split
    · exact requestAndWait_sameFlags ..
    · exact SameFlags.refl
  · exact absurd rfl hc
  · exact requestAndWait_sameFlags ..

private theorem startClose_keepsFlags : KeepsFlags s (startCall cfg .close s) := by
  apply startClose_cases.imp_right
  rintro ⟨writes, sent, hwaits⟩
  rw [hwaits]
  exact ⟨rfl, rfl, fun _ => rfl⟩

private theorem onClose_sameFlags (args : List Arg) : SameFlags s (onClose cfg args s) := by
  unfold onClose
  obtain ⟨writes, sent, hrun, -⟩ | ⟨e, writes, hrun, -⟩ :=
    sendMethod_cases cfg Spec.Channel.closeOk s
  · simp only [hrun]
    split
    · exact requestAndWait_sameFlags (s := { s with writes := writes, sent := sent, isOpen := false }) ..
    · exact SameFlags.refl
  · simp only [hrun]
    exact SameFlags.refl

private theorem onFlow_sameFlags : SameFlags s (onFlow cfg s) := by
  unfold onFlow
  obtain ⟨writes, sent, hrun, -⟩ | ⟨e, writes, hrun, -⟩ :=
    sendMethod_cases cfg Spec.Channel.flowOk s
  · simp only [hrun]
    exact SameFlags.refl
  · simp only [hrun]
    exact SameFlags.refl

private theorem listen_sameFlags (sig : MethodSig) (args : List Arg) :
    SameFlags s (listen cfg sig args s) := by
  unfold listen
  split
  · exact onClose_sameFlags args
  split
  · exact .inl rfl
  split
  · exact onFlow_sameFlags
  split
  · exact SameFlags.refl
  split
  · exact SameFlags.refl
  split <;> exact SameFlags.refl

private theorem onInboundMethod_sameFlags (m : Inbound) :
    SameFlags s (onInboundMethod cfg m s) := by
  unfold onInboundMethod dispatchMethod
  split
  · split
    · exact SameFlags.refl
    split
    · exact SameFlags.refl
    simp only
    split
    · exact SameFlags.refl
    split
    · exact SameFlags.refl
    · exact listen_sameFlags (s := { s with pending := _, stack := _ }) ..
  · exact SameFlags.refl

/-- Only a call of `close` sets a flag without giving the connection up. -/
theorem step_sameFlags {event : Event} (hevent : event ≠ .call .close) :
    SameFlags s (step cfg s event) := by
  cases event with
  | go => exact go_sameFlags
  | call c =>
      simp only [step]
      split
      · exact startCall_sameFlags fun hc => hevent (hc ▸ rfl)
      · exact SameFlags.refl
  | publishConfirm =>
      simp only [step]
      split
      · unfold startPublishConfirm
        split
        · exact startPublish_sameFlags
        · obtain ⟨writes, sent, hrun, -⟩ | ⟨e, writes, hrun, -⟩ :=
            request_cases cfg .confirmSelect { s with confirmSelected := true }
          · simp only [hrun]
            exact SameFlags.refl
          · simp only [hrun]
            exact SameFlags.refl
      · exact SameFlags.refl
  | deliver m =>
      simp only [step]
      split
      · exact onInboundMethod_sameFlags (s := { s with broker := _ }) m
      · exact SameFlags.refl
  | connectionCloses closing => exact SameFlags.refl
  | collect => exact .inl rfl
  | «return» | raise e | foreign | fail e =>
      simp only [step]
      split <;> exact SameFlags.refl

theorem step_keepsFlags (event : Event) : KeepsFlags s (step cfg s event) := by
  by_cases hevent : event = .call .close
  · subst hevent
    simp only [step]
    split
    · exact startClose_keepsFlags
    · exact SameFlags.refl.keepsFlags
  · exact (step_sameFlags hevent).keepsFlags

end Flags

/-! Reachable states -/

/-- A call of `close` waits only while the channel is leaving. -/
def closing (P : Promises Reply) (leaving : Prop) : Facts P where
  wait waiting := (∃ id, waiting.task = .call id .close) → leaving
  reply _ _ := True
  called _ _ _ h := h

/-- What holds of the channel in every run: code of the user is at the bottom of the
stack, a publish sends only from its top, a close waits only while the channel is
leaving, and the connection knows a channel that has it. -/
structure Settled (s : Channel P) : Prop where
  registered : s.toChannelCore.Registered
  bottom : s.stack.getLast? = some .user
  sending : .publish false ∉ s.stack.tail
  closing : (closing P s.Leaving).Hold s.toChannelCore
  listed : s.attached = true → s.listed = true

section Reachable

variable {cfg : Config} {s : Channel P}

theorem Drains.notMem_publish (h : s.Drains) (hsending : .publish false ∉ s.stack.tail) :
    .publish false ∉ s.stack := by
  have hreads := h.2
  cases hstack : s.stack with
  | nil => simp
  | cons act rest =>
      rw [hstack, List.tail_cons] at hsending
      rw [hstack, List.head?_cons, Option.any_some] at hreads
      refine List.not_mem_cons_of_ne_of_not_mem ?_ hsending
      rintro rfl
      cases hreads

theorem Idle.drains (h : s.Idle) : s.Drains := by
  obtain ⟨rest, hstack⟩ := head_isUser h.2
  exact ⟨h.1, by rw [hstack]; rfl⟩

private theorem getLast_tail {act : Activation} {rest : List Activation}
    (h : (act :: rest).getLast? = some .user) (hne : act ≠ .user ∨ rest ≠ []) :
    rest.getLast? = some .user := by
  cases rest with
  | nil => exact absurd (by simpa using h) (hne.resolve_right (by simp))
  | cons next rest => simpa using h

/-- The stack keeps its bottom, and a publish that sends stays on top. -/
private theorem move_stack {event : Event} {k : ChannelCore P} {control : Control}
    (hmove : Move cfg s event k control) (hbottom : s.stack.getLast? = some .user)
    (hsending : .publish false ∉ s.stack.tail) :
    k.stack.getLast? = some .user ∧ .publish false ∉ k.stack.tail := by
  have hpush : ∀ act : Activation, (act :: s.stack).getLast? = some .user := by
    intro act
    rw [List.getLast?_cons, hbottom]
    rfl
  cases hmove with
  | stay | fails | publishRefused | selectRefused | ignores | takes => exact ⟨hbottom, hsending⟩
  | foreign hdrains =>
      refine ⟨?_, ?_⟩
      · rw [List.getLast?_cons, hpush]
        rfl
      · simpa using hdrains.notMem_publish hsending
  | startsPublish _ hidle => exact ⟨hpush _, hidle.drains.notMem_publish hsending⟩
  | userReturns hstack hrest | userRaises _ hstack hrest =>
      rw [hstack] at hbottom hsending
      exact ⟨getLast_tail hbottom (.inr hrest), fun h => hsending (List.mem_of_mem_tail h)⟩
  | listenerReturns hstack | listenerRaises hstack | publishRaises hstack | calls hstack =>
      rw [hstack] at hbottom hsending
      exact ⟨getLast_tail hbottom (.inl (by simp)), fun h => hsending (List.mem_of_mem_tail h)⟩
  | drained hstack =>
      rw [hstack] at hbottom hsending
      have hrest := getLast_tail hbottom (.inl (by simp))
      refine ⟨?_, hsending⟩
      rw [List.getLast?_cons, hrest]
      rfl
  | leaves hstack hended hfollows =>
      rw [hstack] at hbottom hsending
      have hrest := getLast_tail hbottom (.inl (by simp))
      cases hfollows with
      | selected =>
          refine ⟨?_, hsending⟩
          simp only [List.singleton_append]
          rw [List.getLast?_cons, hrest]
          rfl
      | _ => exact ⟨hrest, fun h => hsending (List.mem_of_mem_tail h)⟩
  | publishes hstack =>
      rw [hstack] at hbottom hsending
      have hrest := getLast_tail hbottom (.inl (by simp))
      refine ⟨?_, hsending⟩
      rw [beginWait_stack, List.getLast?_cons, hrest]
      rfl
  | asks hidle | selects hidle => exact ⟨hpush _, hidle.drains.notMem_publish hsending⟩
  | listens hdrains _ hacts =>
      have hnot := hdrains.notMem_publish hsending
      obtain rfl | rfl := hacts
      · exact ⟨hpush _, hnot⟩
      · refine ⟨?_, by simpa using hnot⟩
        simp only [List.singleton_append]
        rw [List.getLast?_cons, hpush]
        rfl
  | reopens hdrains =>
      refine ⟨?_, ?_⟩
      · rw [beginWait_stack, List.getLast?_cons, hpush]
        rfl
      · rw [beginWait_stack, List.tail_cons]
        simpa using hdrains.notMem_publish hsending

theorem Settled.step (h : s.Settled) (event : Event) : (step cfg s event).Settled := by
  have hmove := step_move cfg s event
  have hflags : KeepsFlags s (Channel.step cfg s event) := step_keepsFlags event
  obtain ⟨hbottom, hsending⟩ := move_stack hmove h.bottom h.sending
  have hleaving : s.Leaving → (Channel.step cfg s event).Leaving := by
    rintro (hclosing | hattached)
    · exact hflags.elim .inr fun h => .inl (h.2.2 hclosing)
    · exact .inr (hflags.elim id fun h => h.1.trans hattached)
  refine ⟨h.registered.move hmove, hbottom, hsending, ?_, fun hattached => ?_⟩
  · refine h.closing.move h.registered hmove (fun _ _ hwait hclose => hleaving (hwait hclose))
      (fun _ _ _ _ => trivial) ?_ (fun _ _ _ _ _ _ _ _ => trivial)
    rintro task hbegins ⟨id, htask⟩
    cases hbegins with
    | call hidle =>
        obtain ⟨-, rfl⟩ := Task.call.inj htask
        simp only [Channel.step, if_pos hidle]
        exact startClose_leaving
    | _ => cases htask
  · obtain hdetached | ⟨hsame, hlisted, -⟩ := hflags
    · rw [hattached] at hdetached
      cases hdetached
    · rw [hlisted]
      exact h.listed (hsame ▸ hattached)

theorem run_settled (cfg : Config) (events : List Event) :
    (run cfg events : Channel P).Settled := by
  have hstart : ({} : Channel P).Settled :=
    ⟨⟨by simp, trivial⟩, rfl, by simp, ⟨by simp, by simp⟩, fun _ => rfl⟩
  exact List.foldlRecOn events (Channel.step cfg) hstart fun _ h event _ => h.step event

/-- A channel that keeps its connection is closing only while a `close` waits. -/
def ClosesInCall (s : Channel P) : Prop :=
  s.isClosing = true → s.attached = true →
    ∃ id n, .wait id ∈ s.stack ∧ (s.waits id).task = .call n .close

private theorem go_close (cfg : Config) {id n : Nat} {rest : List Activation} (hstack : s.stack = .wait id :: rest)
    (htask : (s.waits id).task = .call n .close) :
    (go cfg s).attached = false ∨ .wait id ∈ (go cfg s).stack ∧ (go cfg s).waits = s.waits := by
  have hleaves : ∀ result, (leaveWait cfg id result { s with stack := rest }).attached = false := by
    intro result
    cases result with
    | ok value => simp only [leaveWait, finish, htask, goOn, note, leaveCall, if_true]
    | error e => simp only [leaveWait, finish, htask, goOn, note, leaveCall, if_true]
  cases hcontrol : s.control with
  | running =>
      right
      simp [go, hstack, hcontrol]
  | returning =>
      simp only [go, hstack, hcontrol]
      split
      · exact .inl (hleaves _)
      · right
        split <;> simp [goOn, hstack]
  | raising e =>
      left
      simp only [go, hstack, hcontrol]
      exact hleaves _

/-- A `close` that is called waits, or gives the connection up. -/
private theorem startClose_waits :
    (startCall cfg .close s).attached = false ∨
      ∃ id n, .wait id ∈ (startCall cfg .close s).stack ∧
        ((startCall cfg .close s).waits id).task = .call n .close := by
  apply startClose_cases.imp_right
  rintro ⟨writes, sent, hwaits⟩
  rw [hwaits]
  refine ⟨s.created, s.broker.requests, ?_, ?_⟩
  · simp [wait]
  · simp [wait, beginWait_eq]

theorem ClosesInCall.step (h : s.ClosesInCall) (hreg : s.toChannelCore.Registered) (event : Event) :
    (step cfg s event).ClosesInCall := by
  intro hclosing hattached
  by_cases hevent : event = .call .close
  · subst hevent
    simp only [Channel.step] at hclosing hattached ⊢
    split at hattached
    next hidle =>
      rw [if_pos hidle]
      exact startClose_waits.resolve_left fun h => by simp [hattached] at h
    next hidle =>
      rw [if_neg hidle] at hclosing ⊢
      exact h hclosing hattached
  · have hflags : SameFlags s (Channel.step cfg s event) := step_sameFlags hevent
    rcases hflags with hdetached | ⟨hsame, -, hflag⟩
    · rw [hattached] at hdetached
      cases hdetached
    · obtain ⟨id, n, hid, htask⟩ := h (hflag ▸ hclosing) (hsame ▸ hattached)
      rcases (step_move cfg s event).wait_stays hreg hid with ⟨hstays, hwait⟩ |
        ⟨rfl, rest, result, hstack, hended⟩
      · exact ⟨id, n, hstays, hwait.trans htask⟩
      · rcases go_close cfg hstack htask with hdetached | ⟨hstays, hwaits⟩
        · cases hattached.symm.trans hdetached
        · exact ⟨id, n, hstays, hwaits ▸ htask⟩

end Reachable

/-! The unwinding of the calls -/

section Unwinding

variable (cfg : Config) {t : Channel P} {act : Activation} {rest : List Activation} {e : PyError}

/-- An exception leaves the activation on top, which notes it. -/
private theorem go_raises (hstack : t.stack = act :: rest) (hcontrol : t.control = .raising e)
    (hact : act.isUser = false) (hpublish : act ≠ .publish false) (he : e ≠ .socketTimeout)
    (hclose : ∀ id, act = .wait id → ∀ n, (t.waits id).task ≠ .call n .close) :
    ∃ pending, go cfg t =
      { t with stack := rest, pending, log := t.log ++ act.endedBy t.waits e } := by
  unfold go
  cases act with
  | user => cases hact
  | dispatch oneShot =>
      refine ⟨t.pending, ?_⟩
      simp only [hstack, hcontrol, Activation.endedBy, List.append_nil, goOn]
  | publish draining =>
      cases draining with
      | false => exact absurd rfl hpublish
      | true =>
          refine ⟨t.pending, ?_⟩
          simp only [hstack, hcontrol, if_neg he, Activation.endedBy, goOn, note]
  | wait id =>
      refine ⟨restore ((t.waits id).task.methods.zip (t.waits id).prev) t.pending, ?_⟩
      simp only [hstack, hcontrol, leaveWait, finish, Activation.endedBy]
      cases htask : (t.waits id).task with
      | call n c =>
          have hc : c ≠ .close := fun h => hclose id rfl n (h ▸ htask)
          simp only [Task.endedBy, leaveCall, if_neg hc, goOn, note]
      | revive n args => simp only [Task.endedBy, List.append_nil, goOn]
      | select n => simp only [Task.endedBy, goOn, note]
      | confirm n => simp only [Task.endedBy, goOn, note]

/-- Code of the user that lets the exception pass: it gets it, and raises it again. -/
private theorem user_raises (hstack : t.stack = .user :: rest) (hrest : rest ≠ []) :
    step cfg (step cfg t .go) (.raise e) =
      { t with stack := rest, control := .raising e } := by
  have hgo : step cfg t .go = goOn .running t := by
    simp only [step, go, hstack]
  have hidle : (goOn .running t).Idle := ⟨rfl, by simp [goOn, hstack, Activation.isUser]⟩
  have htail : (goOn .running t).stack.tail ≠ [] := by simpa [goOn, hstack] using hrest
  rw [hgo]
  show (if _ ∧ _ then _ else _) = _
  rw [if_pos ⟨hidle, htail⟩]
  simp only [goOn, hstack, List.tail_cons]

/-- An exception that everyone lets pass ends all calls of the stack and reaches the code
at its bottom. -/
private theorem unwind_raises {depth : Nat} (he : e ≠ .socketTimeout) :
    ∀ (stack : List Activation) (t : Channel P), t.stack = stack → t.control = .raising e →
      stack.getLast? = some .user → .publish false ∉ stack → stack.length ≤ depth →
      (∀ id, .wait id ∈ stack → ∀ n, (t.waits id).task ≠ .call n .close) →
      ∃ pending, (unwindEvents e depth stack).foldl (step cfg) t =
        { t with
          stack := [.user], control := .running, pending
          log := t.log ++ stack.flatMap (Activation.endedBy t.waits e) } := by
  intro stack
  induction stack with
  | nil => intro _ _ _ hbottom; simp at hbottom
  | cons act rest ih =>
      intro t hstack hcontrol hbottom hpublish hdepth hclose
      by_cases hrest : rest = []
      · subst hrest
        obtain rfl : act = .user := by simpa using hbottom
        have hrun : (unwindEvents e depth [.user]).foldl (step cfg) t = goOn .running t := by
          simp [unwindEvents, step, go, hstack]
        refine ⟨t.pending, ?_⟩
        have hnone : [Activation.user].flatMap (Activation.endedBy t.waits e) = [] := rfl
        rw [hrun, hnone, List.append_nil, goOn, ← hstack]
      have hbottom' := getLast_tail hbottom (.inr hrest)
      have hpublish' : .publish false ∉ rest := fun h => hpublish (List.mem_cons_of_mem _ h)
      rw [List.length_cons] at hdepth
      cases hact : act.isUser with
      | true =>
          obtain rfl : act = .user := by
            cases act <;> first | rfl | cases hact
          have hevents : unwindEvents e depth (.user :: rest) =
              .go :: .raise e :: unwindEvents e depth rest := by
            simp [unwindEvents, Activation.isUser, hrest, show rest.length < depth by omega]
          rw [hevents, List.foldl_cons, List.foldl_cons, user_raises cfg hstack hrest]
          obtain ⟨pending, hrun⟩ := ih { t with stack := rest, control := .raising e } rfl rfl
            hbottom' hpublish' (by omega) fun id hid => hclose id (List.mem_cons_of_mem _ hid)
          exact ⟨pending, by rw [hrun]; simp [Activation.endedBy]⟩
      | false =>
          have hevents : unwindEvents e depth (act :: rest) = .go :: unwindEvents e depth rest := by
            simp [unwindEvents, hact]
          obtain ⟨pending, hgo⟩ := go_raises cfg hstack hcontrol hact
            (fun h => hpublish (by simp [h])) he fun id hid => hclose id (by simp [hid])
          rw [hevents, List.foldl_cons, step, hgo]
          obtain ⟨pending', hrun⟩ := ih { t with
              stack := rest, pending, log := t.log ++ act.endedBy t.waits e } rfl hcontrol hbottom' hpublish' (by omega)
            fun id hid => hclose id (List.mem_cons_of_mem _ hid)
          exact ⟨pending', by rw [hrun]; simp⟩

end Unwinding

/-! The reopening -/

section Reopening

variable (cfg : Config) {s b t : Channel P} {id : Nat} {kept : Option Reply}
  {above rest : List Activation}

/-- The channel while it waits for the `OpenOk`. -/
def reopening (m : Inbound) (args : List Arg) (s : Channel P) : Channel P :=
  wait (.revive (s.broker.receive cfg.decode m).requests args)
    { s with
      broker := (s.broker.receive cfg.decode m).ask .open
      pending := Function.update s.pending m.methodSig none
      isOpen := false
      writes := s.writes + 2
      sent := s.sent ++ [Spec.Channel.closeOk, Spec.Channel.open]
      stack := .dispatch (s.oneShot m args) :: s.stack }

private theorem step_close {m : Inbound} {args : List Arg} (hdrains : s.Drains)
    (hclosing : s.isClosing = false ∧ s.connectionClosing = false) (hattached : s.attached = true)
    (hlisted : s.listed = true) (hclose : m.methodSig = Spec.Channel.close)
    (hparse : m.parse cfg.decode = .ok args) (hfirst : cfg.write s.writes = .ok ())
    (hsecond : cfg.write (s.writes + 1) = .ok ()) :
    step cfg s (.deliver m) = reopening cfg m args s := by
  have hfind : findMethod m.methodSig =
      .ok { methodSig := Spec.Channel.close, args := "BsBB" } := by
    rw [hclose]
    rfl
  have hargs : m.args cfg.decode { methodSig := Spec.Channel.close, args := "BsBB" } =
      .ok args := by
    simpa [Inbound.parse, hfind] using hparse
  have hlistener : m.methodSig ∈ listeners := by
    rw [hclose]
    decide
  simp only [step, if_pos hdrains, onInboundMethod, hlisted, if_true, dispatchMethod, hclosing.1,
    Bool.false_eq_true, false_and, if_false, hfind, hlistener, not_true, and_false, hargs]
  simp only [listen, if_pos hclose, onClose, sendMethod, push, hattached, if_true, hfirst,
    hclosing.2, Bool.false_eq_true, not_false_eq_true, and_self, requestAndWait,
    request, Effect.bind_run, hsecond, Effect.get_run, Effect.modify_run, Effect.pure_run,
    SyncCall.method, List.append_assoc]
  simp only [reopening, hattached, hlisted, hclosing.1, hclosing.2]
  rfl

/-- Nothing but handlers has run since `b`: they are on top of its stack. `kept` is the
reply that one of them may have for the promise `id`. -/
structure Handles (b : Channel P) (id : Nat) (kept : Option Reply) (above : List Activation)
    (t : Channel P) : Prop where
  stack : t.stack = above ++ b.stack
  acts : ∀ act ∈ above, act = .user ∨ act = .dispatch none ∨
    ∃ reply, kept = some reply ∧ act = .dispatch (some (id, reply))
  same : { t with stack := b.stack, control := b.control, waits := b.waits } = b
  tasks : ∀ other, (t.waits other).task = (b.waits other).task
  plain : P.func (t.waits id).promise = none
  promise : P.ready (t.waits id).promise = true ∨
    ∀ reply, kept = some reply → .dispatch (some (id, reply)) ∈ above
  unkept : kept = none → P.ready (t.waits id).promise = false
  control : t.control = .returning ∨
    t.control = .running ∧ ((∃ rest, above = .user :: rest) ∨ above = [] ∧ kept = none)

namespace Handles

theorem go_user (h : Handles b id kept (.user :: rest) t) :
    step cfg t .go = goOn .running t ∧ Handles b id kept (.user :: rest) (goOn .running t) := by
  have hgo : step cfg t .go = goOn .running t := by
    simp only [step, go, h.stack, List.cons_append]
  exact ⟨hgo, h.stack, h.acts, h.same, h.tasks, h.plain, h.promise, h.unkept,
    .inr ⟨rfl, .inl ⟨rest, rfl⟩⟩⟩

theorem user_returns (h : Handles b id kept (.user :: rest) t) (hbottom : b.stack ≠ [])
    (hcontrol : t.control = .running) :
    Handles b id kept rest (step cfg t .return) ∧ (step cfg t .return).control = .returning := by
  have hidle : t.Idle := ⟨hcontrol, by simp [h.stack, Activation.isUser]⟩
  have htail : t.stack.tail ≠ [] := by simp [h.stack, hbottom]
  have hstep : step cfg t .return = goOn .returning { t with stack := rest ++ b.stack } := by
    show (if _ ∧ _ then _ else _) = _
    rw [if_pos ⟨hidle, htail⟩, h.stack]
    rfl
  rw [hstep]
  refine ⟨⟨rfl, fun act hact => h.acts act (List.mem_cons_of_mem _ hact), h.same, h.tasks, h.plain,
    h.promise.imp_right fun hkept reply hreply => ?_, h.unkept, .inl rfl⟩, rfl⟩
  simpa using hkept reply hreply

theorem go_dispatch {oneShot : Option (Nat × Reply)}
    (h : Handles b id kept (.dispatch oneShot :: rest) t) :
    Handles b id kept rest (step cfg t .go) ∧ (step cfg t .go).control = .returning := by
  have hcontrol : t.control = .returning := by
    obtain hreturning | ⟨-, ⟨_, huser⟩ | ⟨hnil, -⟩⟩ := h.control
    · exact hreturning
    · cases huser
    · cases hnil
  have hacts := fun act hact => h.acts act (List.mem_cons_of_mem _ hact)
  obtain huser | hnone | ⟨reply, hkept, hsome⟩ := h.acts (.dispatch oneShot) (by simp)
  · cases huser
  · obtain rfl : oneShot = none := by simpa using hnone
    have hgo : step cfg t .go = goOn .returning { t with stack := rest ++ b.stack } := by
      simp only [step, go, h.stack, List.cons_append, hcontrol, fulfil]
    rw [hgo]
    refine ⟨⟨rfl, hacts, h.same, h.tasks, h.plain,
      h.promise.imp_right fun hkept reply hreply => ?_, h.unkept, .inl rfl⟩, rfl⟩
    simpa using hkept reply hreply
  · obtain rfl : oneShot = some (id, reply) := by simpa using hsome
    obtain ⟨hok, hready, -⟩ := P.call_plain reply _ h.plain
    have hgo : step cfg t .go = goOn .returning { t with
        stack := rest ++ b.stack
        waits := Function.update t.waits id
          { t.waits id with promise := (P.call reply (t.waits id).promise).2 } } := by
      simp only [step, go, h.stack, List.cons_append, hcontrol, fulfil, hok]
    rw [hgo]
    refine ⟨⟨rfl, hacts, h.same, fun other => ?_, ?_, .inl ?_, ?_, .inl rfl⟩, rfl⟩
    · exact (update_promise ..).1.trans (h.tasks other)
    · simpa [goOn, P.func_call] using h.plain
    · simpa [goOn] using hready
    · rw [hkept]
      intro hnone
      cases hnone

/-- The handlers on top return. -/
theorem unwind {depth : Nat} (e : PyError) (hdepth : depth ≤ b.stack.length)
    (hbottom : b.stack ≠ []) {reply : Reply} (h : Handles b id (some reply) above t) :
    ∃ t', Handles b id (some reply) [] t' ∧ t'.control = .returning ∧
      (unwindEvents e depth (above ++ b.stack)).foldl (step cfg) t =
        (unwindEvents e depth b.stack).foldl (step cfg) t' := by
  induction above generalizing t with
  | nil =>
      refine ⟨t, h, ?_, rfl⟩
      obtain hreturning | ⟨-, ⟨_, huser⟩ | ⟨-, hnone⟩⟩ := h.control
      · exact hreturning
      · cases huser
      · cases hnone
  | cons act rest ih =>
      obtain huser | ⟨oneShot, hdispatch⟩ : act = .user ∨ ∃ oneShot, act = .dispatch oneShot := by
        obtain huser | hnone | ⟨reply', -, hsome⟩ := h.acts act (by simp)
        · exact .inl huser
        · exact .inr ⟨_, hnone⟩
        · exact .inr ⟨_, hsome⟩
      · subst huser
        have hevents : unwindEvents e depth (.user :: rest ++ b.stack) =
            .go :: .return :: unwindEvents e depth (rest ++ b.stack) := by
          have hlength : ¬ rest.length + b.stack.length < depth := by omega
          simp [unwindEvents, Activation.isUser, hbottom, hlength]
        obtain ⟨hgo, hrunning⟩ := h.go_user cfg
        obtain ⟨hnext, -⟩ := hrunning.user_returns cfg hbottom rfl
        obtain ⟨t', ht', hcontrol, hrun⟩ := ih hnext
        refine ⟨t', ht', hcontrol, ?_⟩
        rw [hevents, List.foldl_cons, List.foldl_cons, hgo, hrun]
      · subst hdispatch
        have hevents : unwindEvents e depth (.dispatch oneShot :: rest ++ b.stack) =
            .go :: unwindEvents e depth (rest ++ b.stack) := by
          simp [unwindEvents, Activation.isUser]
        obtain ⟨hnext, -⟩ := h.go_dispatch cfg
        obtain ⟨t', ht', hcontrol, hrun⟩ := ih hnext
        refine ⟨t', ht', hcontrol, ?_⟩
        rw [hevents, List.foldl_cons, hrun]

theorem attached (h : Handles b id kept above t) : t.attached = b.attached := by
  have hsame := congrArg Channel.attached h.same
  exact hsame

/-- Handlers for other channels' frames come and go. -/
theorem elsewhere {tail : List Activation} {event : Event} (h : Handles b id kept above t)
    (hstack : b.stack = .wait id :: tail) (hattached : b.attached = true)
    (hevent : event.isElsewhere = true) (habove : kept = none ∨ above ≠ []) :
    ∃ above', Handles b id kept above' (step cfg t event) := by
  have hbottom : b.stack ≠ [] := by simp [hstack]
  cases event with
  | go =>
      cases above with
      | nil =>
          have hkept : kept = none := habove.resolve_right fun hne => hne rfl
          have htop : t.stack = .wait id :: tail := by rw [h.stack, List.nil_append, hstack]
          refine ⟨[], ?_⟩
          obtain hreturning | ⟨hrunning, -⟩ := h.control
          · have hgo : step cfg t .go = goOn .running t := by
              simp only [step, go, htop, hreturning, h.unkept hkept, Bool.false_eq_true, if_false,
                h.attached, hattached, if_true]
            rw [hgo]
            exact ⟨h.stack, h.acts, h.same, h.tasks, h.plain, h.promise, h.unkept,
              .inr ⟨rfl, .inr ⟨rfl, hkept⟩⟩⟩
          · have hgo : step cfg t .go = t := by
              simp only [step, go, htop, hrunning]
            rw [hgo]
            exact h
      | cons act rest =>
          obtain huser | hnone | ⟨reply, -, hsome⟩ := h.acts act (by simp)
          · subst huser
            obtain ⟨hgo, hnext⟩ := h.go_user cfg
            exact ⟨_, hgo ▸ hnext⟩
          · subst hnone
            exact ⟨rest, (h.go_dispatch cfg).1⟩
          · subst hsome
            exact ⟨rest, (h.go_dispatch cfg).1⟩
  | foreign =>
      simp only [step]
      split
      next =>
        refine ⟨.user :: .dispatch none :: above, ?_, ?_, h.same, h.tasks, h.plain, ?_, h.unkept,
          .inr ⟨rfl, .inl ⟨_, rfl⟩⟩⟩
        · simp [goOn, push, h.stack]
        · intro act hact
          rcases List.mem_cons.mp hact with rfl | hact
          · exact .inl rfl
          rcases List.mem_cons.mp hact with rfl | hact
          · exact .inr (.inl rfl)
          · exact h.acts act hact
        · exact h.promise.imp_right fun hkept reply hreply => by simp [hkept reply hreply]
      next => exact ⟨above, h⟩
  | «return» =>
      by_cases hidle : t.Idle ∧ t.stack.tail ≠ []
      · cases above with
        | nil =>
            obtain ⟨rest, huser⟩ := head_isUser hidle.1.2
            rw [h.stack, List.nil_append, hstack] at huser
            cases huser
        | cons act rest =>
            obtain ⟨rest', huser⟩ := head_isUser hidle.1.2
            rw [h.stack, List.cons_append] at huser
            obtain ⟨rfl, -⟩ := List.cons.inj huser
            exact ⟨rest, (h.user_returns cfg hbottom hidle.1.1).1⟩
      · refine ⟨above, ?_⟩
        simp only [step, if_neg hidle]
        exact h
  | _ => cases hevent

/-- The `OpenOk` arrives: `on_open` runs, and the promise of the reopening will be called. -/
theorem opens {m : Inbound} (h : Handles b id none above t) (hdrains : t.Drains)
    (hopen : m.methodSig = Spec.Channel.openOk) (hlisted : b.listed = true)
    (hclosing : b.isClosing = false) (hpending : b.pending Spec.Channel.openOk = some id) :
    Handles { b with
        broker := b.broker.receive cfg.decode m
        pending := Function.update b.pending m.methodSig none
        isOpen := true } id (some (m.methodSig, []))
      (.user :: .dispatch (some (id, (m.methodSig, []))) :: above) (step cfg t (.deliver m)) := by
  have hfields : t.listed = true ∧ t.isClosing = false ∧ t.pending = b.pending ∧
      t.broker = b.broker := by
    have hlisted' := congrArg Channel.listed h.same
    have hclosing' := congrArg Channel.isClosing h.same
    have hpending' := congrArg (fun s : Channel P => s.pending) h.same
    have hbroker' := congrArg (fun s : Channel P => s.broker) h.same
    exact ⟨hlisted'.trans hlisted, hclosing'.trans hclosing, hpending', hbroker'⟩
  obtain ⟨htlisted, htclosing, htpending, htbroker⟩ := hfields
  have hfind : findMethod m.methodSig = .ok { methodSig := Spec.Channel.openOk } := by
    rw [hopen]
    rfl
  have hargs : m.args cfg.decode { methodSig := Spec.Channel.openOk } = .ok [] := rfl
  have hlistener : m.methodSig ∈ listeners := by
    rw [hopen]
    decide
  have hkeys : m.methodSig ≠ Spec.Channel.close ∧ m.methodSig ≠ Spec.Channel.closeOk ∧
      m.methodSig ≠ Spec.Channel.flow := by
    rw [hopen]
    decide
  have hid : b.pending m.methodSig = some id := hopen ▸ hpending
  have hstep : step cfg t (.deliver m) = goOn .running { t with
      broker := b.broker.receive cfg.decode m
      pending := Function.update b.pending m.methodSig none
      isOpen := true
      stack := .user :: .dispatch (some (id, (m.methodSig, []))) :: t.stack } := by
    simp only [step, if_pos hdrains, onInboundMethod, htlisted, if_true, dispatchMethod, htclosing,
      Bool.false_eq_true, false_and, if_false, hfind, hlistener, not_true, and_false, hargs,
      htpending, hid, htbroker, Option.map_some]
    simp only [listen, if_neg hkeys.1, if_neg hkeys.2.1, if_neg hkeys.2.2, if_pos hopen, push]
  have hsame := h.same
  rw [hstep]
  refine ⟨?_, ?_, ?_, h.tasks, h.plain, .inr ?_, ?_, .inr ⟨rfl, .inl ⟨_, rfl⟩⟩⟩
  · simp [goOn, h.stack]
  · intro act hact
    rcases List.mem_cons.mp hact with rfl | hact
    · exact .inl rfl
    rcases List.mem_cons.mp hact with rfl | hact
    · exact .inr (.inr ⟨_, rfl, rfl⟩)
    · obtain huser | hnone | ⟨reply, hnone, -⟩ := h.acts act hact
      · exact .inl huser
      · exact .inr (.inl hnone)
      · cases hnone
  · exact congrArg (fun s : Channel P => { s with
      broker := b.broker.receive cfg.decode m
      pending := Function.update b.pending m.methodSig none
      isOpen := true }) hsame
  · rintro reply hreply
    obtain rfl := Option.some.inj hreply
    simp
  · rintro ⟨⟩

/-- The reopening ends: its error leaves the listener of the `Channel.Close`. -/
theorem leaves {n : Nat} {args : List Arg} {reply : Reply} {oneShot : Option (Nat × Reply)}
    (h : Handles b id (some reply) [] t) (hcontrol : t.control = .returning)
    (hstack : b.stack = .wait id :: .dispatch oneShot :: rest)
    (htask : (b.waits id).task = .revive n args) :
    ∃ pending, step cfg (step cfg t .go) .go =
      { t with stack := rest, control := .raising (closeError args), pending } := by
  have hready : P.ready (t.waits id).promise = true :=
    h.promise.resolve_right fun hkept => by simpa using hkept reply rfl
  have htop : t.stack = .wait id :: .dispatch oneShot :: rest := by
    rw [h.stack, List.nil_append, hstack]
  have hrevive := (h.tasks id).trans htask
  have hgo : step cfg t .go = goOn (.raising (closeError args)) { t with
      stack := .dispatch oneShot :: rest
      pending := restore ((t.waits id).task.methods.zip (t.waits id).prev) t.pending } := by
    simp only [step, go, htop, hcontrol, hready, if_true, leaveWait, finish, hrevive]
  refine ⟨restore ((t.waits id).task.methods.zip (t.waits id).prev) t.pending, ?_⟩
  rw [hgo]
  simp only [step, go, goOn]

end Handles

/-- The arguments of a `Channel.Close`. -/
def closeArgs (code : Nat) (text : PyStr) (classId methodId : Nat) : List Arg :=
  [.value (.int code), .value (.str text), .value (.int classId), .value (.int methodId)]

/-- How the channel is after a `Channel.Close` that raised `e`, for one that was as in
`s` before. -/
structure Reopened (s : Channel P) (e : PyError) (ended : Channel P) : Prop where
  sent : ended.sent = s.sent ++ [Spec.Channel.closeOk, Spec.Channel.open]
  isOpen : ended.isOpen = true
  attached : ended.attached = true
  listed : ended.listed = true
  stack : ended.stack = [.user]
  log : ended.log = s.log ++ s.stack.flatMap (Activation.endedBy s.waits e)
  pending : ∀ m, ended.pending m = none

/-- A `Channel.Close`, frames for other channels, the `OpenOk`, and more frames for
other channels. -/
def reopenEvents (close : Inbound) (before : List Event) (openOk : Inbound)
    (after : List Event) : List Event :=
  .deliver close :: before ++ .deliver openOk :: after

/-- The events of a reopening and of the unwinding after it, as the stack then is. -/
def closeEvents (s : Channel P) (e : PyError) (events : List Event) : List Event :=
  events ++ unwindEvents e s.stack.length (events.foldl (step cfg) s).stack

variable {events before after : List Event}

private theorem elsewhere_before (h : Handles b id none above t) (hstack : b.stack = .wait id :: rest)
    (hattached : b.attached = true) (hbefore : ∀ event ∈ before, event.isElsewhere = true) :
    ∃ above', Handles b id none above' (before.foldl (step cfg) t) := by
  induction before generalizing t above with
  | nil => exact ⟨above, h⟩
  | cons event before ih =>
      obtain ⟨above', hnext⟩ := h.elsewhere cfg hstack hattached
        (hbefore event (by simp)) (.inl rfl)
      exact ih hnext fun event hevent => hbefore event (by simp [hevent])

private theorem elsewhere_after {reply : Reply} (h : Handles b id (some reply) above t)
    (hstack : b.stack = .wait id :: rest) (hattached : b.attached = true)
    (hafter : Run.Along (step cfg) (fun t event => event.isElsewhere = true ∧
      b.stack.length < t.stack.length) t after) :
    ∃ above', Handles b id (some reply) above' (after.foldl (step cfg) t) := by
  induction after generalizing t above with
  | nil => exact ⟨above, h⟩
  | cons event after ih =>
      obtain ⟨⟨hevent, hlength⟩, hafter⟩ := hafter
      have hne : above ≠ [] := by
        rintro rfl
        rw [h.stack, List.nil_append] at hlength
        exact lt_irrefl _ hlength
      obtain ⟨above', hnext⟩ := h.elsewhere cfg hstack hattached hevent (.inr hne)
      exact ih hnext hafter

/-- What waits in the stack notes is the same under waits with the same tasks. -/
private theorem endedBy_congr {waits waits' : Nat → Waiting P} {stack : List Activation}
    (e : PyError) (h : ∀ id, .wait id ∈ stack → (waits' id).task = (waits id).task) :
    stack.flatMap (Activation.endedBy waits' e) = stack.flatMap (Activation.endedBy waits e) := by
  refine List.flatMap_congr fun act hact => ?_
  cases act with
  | wait id => simp only [Activation.endedBy, h id hact]
  | _ => rfl

/-- In every reachable state of a channel that has its connection and reads frames: the
server closes the channel and answers the `Channel.Open`, frames for other channels come
in between and while `on_open` runs, no handler and no `on_open` calls the channel or
raises, and code of the user lets the error pass. Then the channel has sent `CloseOk` and
`Open`, is open and listed again, every call that was waiting has raised the error of the
reply code, and nothing is pending. -/
theorem run_reopened {close openOk : Inbound} {code classId methodId : Nat}
    {text : PyStr} (hs : run cfg events = s)
    (hclosing : s.isClosing = false ∧ s.connectionClosing = false) (hattached : s.attached = true)
    (hdrains : s.Drains) (hclose : close.methodSig = Spec.Channel.close)
    (hparse : close.parse cfg.decode = .ok (closeArgs code text classId methodId))
    (hwrites : cfg.write s.writes = .ok () ∧ cfg.write (s.writes + 1) = .ok ())
    (hbefore : ∀ event ∈ before, event.isElsewhere = true)
    (hopenOk : openOk.methodSig = Spec.Channel.openOk)
    (hread : ((Event.deliver close :: before).foldl (step cfg) s).Drains)
    (hafter : Run.Along (step cfg) (fun t event => event.isElsewhere = true ∧
      s.stack.length + 2 < t.stack.length)
      ((reopenEvents close before openOk []).foldl (step cfg) s) after) :
    let e : PyError := .amqp (errorForCode code text (classId, methodId) .channelError)
    Reopened s e ((closeEvents cfg s e (reopenEvents close before openOk after)).foldl
      (step cfg) s) := by
  intro e
  have hsettled : s.Settled := hs ▸ run_settled cfg events
  have hended : ((closeEvents cfg s e (reopenEvents close before openOk after)).foldl
      (step cfg) s).Settled :=
    List.foldlRecOn _ _ hsettled fun _ h event _ => h.step event
  let b : Channel P := reopening cfg close (closeArgs code text classId methodId) s
  have hb : step cfg s (.deliver close) = b :=
    step_close cfg hdrains hclosing hattached (hsettled.listed hattached) hclose hparse hwrites.1
      hwrites.2
  have hstack : b.stack = .wait s.created ::
      .dispatch (s.oneShot close (closeArgs code text classId methodId)) :: s.stack := rfl
  have hwaits : (b.waits s.created).promise = P.make none ∧ (b.waits s.created).task =
      .revive (s.broker.receive cfg.decode close).requests
        (closeArgs code text classId methodId) := by
    simp [b, reopening, wait, beginWait, Task.handler]
  have hpending : b.pending Spec.Channel.openOk = some s.created := by
    simp [b, reopening, wait, beginWait, register_pending, Task.methods, SyncCall.replies]
  -- the frames before the `OpenOk`, the `OpenOk`, and the frames after it
  have hstart : Handles b s.created none [] b := by
    refine ⟨rfl, by simp, rfl, fun _ => rfl, ?_, .inr (by simp), fun _ => ?_, .inl rfl⟩
    · rw [hwaits.1]
      exact P.func_make none
    · rw [hwaits.1]
      exact P.ready_make none
  obtain ⟨above, hhandles⟩ := elsewhere_before cfg hstart hstack hattached hbefore
  rw [List.foldl_cons, hb] at hread
  let o : Channel P := { b with
    broker := b.broker.receive cfg.decode openOk
    pending := Function.update b.pending openOk.methodSig none
    isOpen := true }
  have hopens : Handles o s.created (some (openOk.methodSig, [])) _ _ :=
    hhandles.opens cfg hread hopenOk (hsettled.listed hattached) hclosing.1 hpending
  have hreopen : (reopenEvents close before openOk []).foldl (step cfg) s =
      step cfg (before.foldl (step cfg) b) (.deliver openOk) := by
    simp [reopenEvents, hb]
  rw [hreopen] at hafter
  obtain ⟨above', hlater⟩ := elsewhere_after cfg hopens hstack hattached hafter
  -- everything returns to the reopening, whose error then leaves its listener
  have hdepth : s.stack.length ≤ o.stack.length := by
    rw [show o.stack = _ from hstack, List.length_cons, List.length_cons]
    omega
  obtain ⟨t', ht', hreturning, hunwind⟩ := hlater.unwind cfg e hdepth
    (by rw [show o.stack = _ from hstack]; simp)
  obtain ⟨pending, hleaves⟩ := ht'.leaves cfg hreturning hstack hwaits.2
  have herror : closeError (closeArgs code text classId methodId) = e := by
    simp [closeError, closeArgs, e]
  have hwaiting : ∀ id, .wait id ∈ s.stack → (t'.waits id).task = (s.waits id).task := by
    intro id hid
    refine (ht'.tasks id).trans ?_
    exact beginWait_waits_task (k := { s with broker := _, pending := _, stack := _ }) _
      (hsettled.registered.stack.lt hid)
  obtain ⟨pending', hraises⟩ := unwind_raises cfg (e := e) (by simp [e]) s.stack
    { t' with stack := s.stack, control := .raising e, pending } rfl rfl hsettled.bottom
    (hdrains.notMem_publish hsettled.sending) le_rfl fun id hid n htask =>
      absurd (hsettled.closing.holds id hid ⟨n, (hwaiting id hid).symm.trans htask⟩)
        (by simp [Leaving, hclosing.1, hattached])
  have hrun : (closeEvents cfg s e (reopenEvents close before openOk after)).foldl (step cfg) s =
      { t' with
        stack := [.user], control := .running, pending := pending'
        log := t'.log ++ s.stack.flatMap (Activation.endedBy t'.waits e) } := by
    have hevents : reopenEvents close before openOk after =
        reopenEvents close before openOk [] ++ after := by
      simp [reopenEvents]
    rw [closeEvents, List.foldl_append, hevents, List.foldl_append, hreopen, hlater.stack, hunwind]
    have hexits : unwindEvents e s.stack.length b.stack =
        .go :: .go :: unwindEvents e s.stack.length s.stack := by
      rw [hstack]
      simp [unwindEvents, Activation.isUser]
    exact (congrArg (List.foldl (step cfg) t') hexits).trans (by
      rw [List.foldl_cons, List.foldl_cons, hleaves, herror, hraises])
  have hsame := ht'.same
  refine ⟨?_, ?_, ?_, ?_, by rw [hrun], ?_, fun m => ?_⟩
  · rw [hrun]
    exact (congrArg Channel.sent hsame :)
  · rw [hrun]
    exact (congrArg Channel.isOpen hsame :)
  · rw [hrun]
    exact (congrArg Channel.attached hsame :).trans hattached
  · rw [hrun]
    exact (congrArg Channel.listed hsame :).trans (hsettled.listed hattached)
  · have hlog : t'.log = s.log := (congrArg (fun s : Channel P => s.log) hsame :)
    rw [hrun, endedBy_congr e hwaiting, hlog]
  · cases hm : ((closeEvents cfg s e (reopenEvents close before openOk after)).foldl
        (step cfg) s).pending m with
    | none => rfl
    | some id =>
        have hlive := (hended.registered.live m id hm).1
        rw [hrun] at hlive
        simp at hlive

end Reopening

/-- `queue_declare` waits; the handler of another channel's frame calls `queue_bind`, which
waits too. -/
def nestedEvents : List Event :=
  openEvents ++ [.call .queueDeclare, .go, .foreign, .call .queueBind, .go]

def nested : Channel (plainPromises Reply) := run plainConfig nestedEvents

/-- `Channel.Close` with the code 404, for a `queue_declare`. -/
def notFound : Inbound :=
  { methodSig := Spec.Channel.close, payload := [0, 20, 0, 40, 1, 148, 0, 0, 50, 0, 10] }

/-- The error the calls raise. -/
def notFoundError : PyError := .amqp (errorForCode 404 [] (50, 10) .channelError)

def openOk : Inbound := { methodSig := Spec.Channel.openOk, payload := [0, 20, 0, 11] }

/-- Both calls are ended; a frame for another channel comes before the `OpenOk`, and one
while `on_open` runs. -/
theorem run_reopened_nested :
    Reopened nested notFoundError
      ((closeEvents plainConfig nested notFoundError
        (reopenEvents notFound [.go, .foreign, .return, .go, .go] openOk
          [.foreign, .return, .go])).foldl (step plainConfig) nested) :=
  run_reopened plainConfig (rfl : run plainConfig nestedEvents = nested) (by decide) (by decide)
    (by decide) rfl rfl ⟨rfl, rfl⟩ (by decide) rfl (by decide) (by decide)

/-- The reply to the `queue_declare` of an `on_open`. -/
def declareOk : Inbound :=
  { methodSig := Spec.Queue.declareOk, payload := [0, 50, 0, 11, 0, 0, 0, 0, 0, 0, 0, 0, 0] }

/-- The channel after the same `Channel.Close`, when `on_open` declares a queue. -/
def redeclared : Channel (plainPromises Reply) :=
  (closeEvents plainConfig nested notFoundError
    (reopenEvents notFound [.go] openOk
      [.call .queueDeclare, .go, .deliver declareOk, .go, .go])).foldl (step plainConfig) nested

/-- An `on_open` that calls the channel does so again when the channel is reopened: all
calls have ended, and the channel has sent more than `CloseOk` and `Open`. -/
theorem run_reopened_onOpen :
    (nested.isOpen = true ∧ nested.attached = true ∧ nested.isClosing = false ∧
      nested.connectionClosing = false ∧ nested.Drains) ∧
    redeclared.stack = [.user] ∧
    redeclared.sent = nested.sent ++
      [Spec.Channel.closeOk, Spec.Channel.open, Spec.Queue.declare] ∧
    ¬ Reopened nested notFoundError redeclared := by
  have hsent : redeclared.sent = nested.sent ++
      [Spec.Channel.closeOk, Spec.Channel.open, Spec.Queue.declare] := by
    decide +kernel
  refine ⟨by decide, rfl, hsent, fun h => ?_⟩
  have hlonger := congrArg List.length (hsent.symm.trans h.sent)
  simp at hlonger

end Channel

end PyAmqp
