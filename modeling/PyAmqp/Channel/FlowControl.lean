import PyAmqp.Channel.Consumers

/-!
Flow control. A `Channel.Flow` of the broker sets `active`, and `flow_ok` confirms it. No
publish looks at `active`, so a content may follow on the `flow_ok` that promised to stop;
none does in the runs that turn to sending only while `active` is set.
-/

namespace PyAmqp

/-- What flow control is about, of all that a channel writes. -/
inductive Outgoing where
  | flowOk (active : Bool)
  | content
  deriving DecidableEq

/-- The frame writer's outcomes, with the calls that put octets of theirs on the
connection; those that return do. -/
structure FlowConfig extends Config where
  starts : Nat → Bool
  write_starts : ∀ n, write n = .ok () → starts n = true

/-- `plain` are the calls of `basic_publish` in progress, by the height of their activation
on the stack; the other publishes there are of `basic_publish_confirm`. -/
structure FlowControl (P : Promises Reply) extends Channel P where
  active : Bool := true
  plain : List Nat := []
  written : List Outgoing := []

/-- `basic_publish` is called, or anything else happens. -/
inductive FlowEvent where
  | publish
  | channel (event : Event)

namespace FlowControl

open Channel

variable {P : Promises Reply}

/-- `basic_publish` up to the drain, or up to `send_method`. -/
def startPublish (cfg : FlowConfig) (s : FlowControl P) : FlowControl P :=
  if s.attached then
    { s with
      toChannel := goOn .running (push (.publish cfg.drainsFirst) s.toChannel)
      plain := (s.stack.length + 1) :: s.plain }
  else
    { s with
      toChannel :=
        goOn (.raising (recoverableConnectionError "basic_publish: connection closed"))
          s.toChannel }

/-- A `basic_publish` is on top. -/
def Publishes (s : FlowControl P) : Prop := s.plain.head? = some s.stack.length

instance (s : FlowControl P) : Decidable s.Publishes := inferInstanceAs (Decidable (_ = _))

/-- `basic_publish` returns or raises. -/
def leavePublish (outcome : Except PyError Unit) (channel : Channel P) (s : FlowControl P) :
    FlowControl P :=
  { s with toChannel := goOn (.of outcome) channel, plain := s.plain.tail }

/-- The `basic_publish` on top goes on; `socket.timeout` ends the drain. -/
def goPublish (cfg : FlowConfig) (s : FlowControl P) : FlowControl P :=
  match s.stack, s.control with
  | .publish true :: rest, .returning =>
      { s with toChannel := goOn .running { s.toChannel with stack := .publish false :: rest } }
  | .publish true :: rest, .raising e =>
      if e = .socketTimeout then
        { s with toChannel := goOn .running { s.toChannel with stack := .publish false :: rest } }
      else leavePublish (.error e) { s.toChannel with stack := rest } s
  | .publish false :: rest, .running =>
      let (outcome, channel) := publishContent cfg.toConfig { s.toChannel with stack := rest }
      leavePublish outcome channel s
  | _, _ => s

/-- It turns to sending its content. -/
def sends : Activation → Bool
  | .publish false => true
  | _ => false

/-- The publish on top turns to sending its content, and octets of that get out. -/
def Sends (cfg : FlowConfig) (s : FlowControl P) : Prop :=
  s.stack.head?.any sends = true ∧ s.control = .running ∧ s.attached = true ∧
    cfg.starts s.writes = true

instance (cfg : FlowConfig) (s : FlowControl P) : Decidable (Sends cfg s) :=
  inferInstanceAs (Decidable (_ ∧ _))

/-- The activation on top goes on. -/
def go (cfg : FlowConfig) (s : FlowControl P) : FlowControl P :=
  let s' :=
    if s.Publishes then goPublish cfg s
    else { s with toChannel := Channel.go cfg.toConfig s.toChannel }
  if Sends cfg s then { s' with written := s'.written ++ [.content] } else s'

/-- The argument of a `Channel.Flow` that is dispatched. -/
def flowArgument (cfg : FlowConfig) (m : Inbound) (s : FlowControl P) : Option Bool :=
  if m.methodSig = Spec.Channel.flow then
    match hears cfg.toConfig m s.toChannel with
    | some [.value (.bool active)] => some active
    | _ => none
  else none

/-- A `flow_ok` goes through. -/
def Confirms (cfg : FlowConfig) (s : FlowControl P) : Prop :=
  s.attached = true ∧ cfg.write s.writes = .ok ()

instance (cfg : FlowConfig) (s : FlowControl P) : Decidable (Confirms cfg s) :=
  inferInstanceAs (Decidable (_ ∧ _))

/-- `_on_flow`; `toChannel` is the channel when its `flow_ok` has been sent. -/
def onFlow (cfg : FlowConfig) (active : Bool) (toChannel : Channel P) (s : FlowControl P) :
    FlowControl P :=
  { s with
    toChannel
    active
    written := if Confirms cfg s then s.written ++ [.flowOk active] else s.written }

/-- A method is read. -/
def deliver (cfg : FlowConfig) (m : Inbound) (s : FlowControl P) : FlowControl P :=
  let channel := Channel.step cfg.toConfig s.toChannel (.deliver m)
  match flowArgument cfg m s with
  | some active => onFlow cfg active channel s
  | none => { s with toChannel := channel }

def step (cfg : FlowConfig) (s : FlowControl P) : FlowEvent → FlowControl P
  | .publish => if s.Idle then startPublish cfg s else s
  | .channel .go => go cfg s
  | .channel (.deliver m) => deliver cfg m s
  | .channel event => { s with toChannel := Channel.step cfg.toConfig s.toChannel event }

def run (cfg : FlowConfig) (events : List FlowEvent) : FlowControl P := events.foldl (step cfg) {}

/-! What is written -/

/-- Between a `flow_ok` that stops the flow and the next one that restarts it no content
is written. -/
def Obeyed (written : List Outgoing) : Prop :=
  ∀ before between after,
    written = before ++ .flowOk false :: (between ++ .content :: after) → .flowOk true ∈ between

/-- The last `flow_ok` has stopped the flow. -/
def paused (written : List Outgoing) : Bool :=
  written.foldl (fun stopped item =>
    match item with
    | .flowOk active => !active
    | .content => stopped) false

theorem paused_flowOk (written : List Outgoing) (active : Bool) :
    paused (written ++ [.flowOk active]) = !active := by
  simp [paused]

theorem paused_content (written : List Outgoing) :
    paused (written ++ [.content]) = paused written := by
  simp [paused]

/-- A flow that is stopped stays so until a `flow_ok` restarts it. -/
theorem paused_of_not_mem (before between : List Outgoing) (hbetween : .flowOk true ∉ between) :
    paused (before ++ .flowOk false :: between) = true := by
  induction between using List.reverseRecOn with
  | nil => exact paused_flowOk before false
  | append_singleton between item ih =>
      have hitem : .flowOk true ∉ between := fun h => hbetween (by simp [h])
      rw [← List.cons_append, ← List.append_assoc]
      cases item with
      | content => rw [paused_content, ih hitem]
      | flowOk active =>
          cases active with
          | true => exact absurd (by simp) hbetween
          | false => exact paused_flowOk _ false

/-- A flow that is stopped has been stopped by a `flow_ok` that no later one has undone. -/
theorem exists_stop {written : List Outgoing} (h : paused written = true) :
    ∃ before between, written = before ++ .flowOk false :: between ∧
      .flowOk true ∉ between := by
  induction written using List.reverseRecOn with
  | nil => simp [paused] at h
  | append_singleton written item ih =>
      cases item with
      | content =>
          rw [paused_content] at h
          obtain ⟨before, between, rfl, hbetween⟩ := ih h
          exact ⟨before, between ++ [.content], by simp, by simpa using hbetween⟩
      | flowOk active =>
          rw [paused_flowOk] at h
          obtain rfl : active = false := by simpa using h
          exact ⟨written, [], rfl, by simp⟩

/-- One thing more is written: it is not a content while the flow is stopped. -/
theorem obeyed_append (written : List Outgoing) (item : Outgoing) :
    Obeyed (written ++ [item]) ↔ Obeyed written ∧ (item = .content → paused written = false) := by
  constructor
  · intro hobeyed
    constructor
    · intro before between after hwritten
      exact hobeyed before between (after ++ [item]) (by simp [hwritten])
    · rintro rfl
      by_contra hpaused
      obtain ⟨before, between, rfl, hbetween⟩ := exists_stop (by simpa using hpaused)
      exact hbetween (hobeyed before between [] (by simp))
  · rintro ⟨hobeyed, hitem⟩ before between after hwritten
    obtain rfl | ⟨after, last, rfl⟩ := List.eq_nil_or_concat' after
    · have hlast : written ++ [item] =
          (before ++ .flowOk false :: between) ++ [.content] := by simpa using hwritten
      obtain ⟨rfl, hcontent⟩ := List.append_inj' hlast rfl
      by_contra hbetween
      have hpaused := paused_of_not_mem before between hbetween
      rw [hitem (List.singleton_inj.mp hcontent)] at hpaused
      cases hpaused
    · have hlast : written ++ [item] =
          (before ++ .flowOk false :: (between ++ .content :: after)) ++ [last] := by
        simpa using hwritten
      exact hobeyed before between after (List.append_inj' hlast rfl).1

/-! Runs -/

section Steps

variable {cfg : FlowConfig} {s : FlowControl P}

theorem goPublish_frame (s : FlowControl P) :
    ∃ toChannel plain, goPublish cfg s = { s with toChannel, plain } := by
  unfold goPublish
  split
  · exact ⟨_, s.plain, rfl⟩
  · split <;> exact ⟨_, _, rfl⟩
  · exact ⟨_, _, rfl⟩
  · exact ⟨s.toChannel, s.plain, rfl⟩

theorem go_active (s : FlowControl P) : (go cfg s).active = s.active := by
  obtain ⟨toChannel, plain, hpublish⟩ := @goPublish_frame P cfg s
  unfold FlowControl.go
  rw [hpublish]
  split_ifs <;> rfl

theorem go_written (s : FlowControl P) :
    (go cfg s).written = if Sends cfg s then s.written ++ [.content] else s.written := by
  obtain ⟨toChannel, plain, hpublish⟩ := @goPublish_frame P cfg s
  unfold FlowControl.go
  rw [hpublish]
  split_ifs <;> rfl

/-- Each `Channel.Flow` that is dispatched is confirmed. -/
def Confirmed (cfg : FlowConfig) (s : FlowControl P) : FlowEvent → Prop
  | .channel (.deliver m) => (flowArgument cfg m s).isSome → Confirms cfg s
  | _ => True

/-- A publish turns to sending its content only while `active` is set. -/
def SendsActive (cfg : FlowConfig) (s : FlowControl P) : FlowEvent → Prop
  | .channel .go => Sends cfg s → s.active = true
  | _ => True

instance (cfg : FlowConfig) (s : FlowControl P) :
    (event : FlowEvent) → Decidable (Confirmed cfg s event)
  | .channel (.deliver m) => inferInstanceAs (Decidable ((flowArgument cfg m s).isSome → _))
  | .publish | .channel .go | .channel (.call _) | .channel .publishConfirm | .channel .return
    | .channel (.raise _) | .channel .foreign | .channel (.fail _)
    | .channel (.connectionCloses _) | .channel .collect => .isTrue trivial

instance (cfg : FlowConfig) (s : FlowControl P) :
    (event : FlowEvent) → Decidable (SendsActive cfg s event)
  | .channel .go => inferInstanceAs (Decidable (Sends cfg s → s.active = true))
  | .publish | .channel (.deliver _) | .channel (.call _) | .channel .publishConfirm
    | .channel .return | .channel (.raise _) | .channel .foreign | .channel (.fail _)
    | .channel (.connectionCloses _) | .channel .collect => .isTrue trivial

/-- Where each `Channel.Flow` is confirmed, `active` is what the last `flow_ok` said. -/
def ActiveOk (s : FlowControl P) : Prop := s.active = !paused s.written

theorem activeOk_first : ActiveOk ({} : FlowControl P) := rfl

/-- What a step can do: write a content, confirm a `Channel.Flow`, or neither. -/
theorem step_cases (event : FlowEvent) (s : FlowControl P) :
    (SendsActive cfg s event ∧ (step cfg s event).active = s.active ∧
        (step cfg s event).written = s.written) ∨
      (event = .channel .go ∧ Sends cfg s ∧ (step cfg s event).active = s.active ∧
        (step cfg s event).written = s.written ++ [.content]) ∨
      ∃ m active, event = .channel (.deliver m) ∧ flowArgument cfg m s = some active ∧
        (step cfg s event).active = active ∧
          (step cfg s event).written =
            if Confirms cfg s then s.written ++ [.flowOk active] else s.written := by
  cases event with
  | publish =>
      refine .inl ⟨trivial, ?_⟩
      simp only [step, startPublish]
      split_ifs <;> exact ⟨rfl, rfl⟩
  | channel event =>
      cases event with
      | go =>
          have hwritten := @go_written P cfg s
          by_cases hsends : Sends cfg s
          · rw [if_pos hsends] at hwritten
            exact .inr (.inl ⟨rfl, hsends, go_active s, hwritten⟩)
          · rw [if_neg hsends] at hwritten
            exact .inl ⟨fun h => absurd h hsends, go_active s, hwritten⟩
      | deliver m =>
          simp only [step, deliver]
          cases hflow : flowArgument cfg m s with
          | none => exact .inl ⟨trivial, rfl, rfl⟩
          | some active => exact .inr (.inr ⟨m, active, rfl, hflow, rfl, rfl⟩)
      | _ => exact .inl ⟨trivial, rfl, rfl⟩

theorem ActiveOk.of_step (h : ActiveOk s) (event : FlowEvent)
    (hconfirmed : Confirmed cfg s event) : ActiveOk (step cfg s event) := by
  unfold ActiveOk
  obtain ⟨-, hactive, hwritten⟩ | ⟨-, -, hactive, hwritten⟩ |
    ⟨m, active, rfl, hflow, hactive, hwritten⟩ := @step_cases P cfg event s
  · rw [hactive, hwritten]
    exact h
  · rw [hactive, hwritten, paused_content]
    exact h
  · rw [if_pos (hconfirmed (by simp [hflow]))] at hwritten
    rw [hactive, hwritten, paused_flowOk, Bool.not_not]

/-- A step keeps what is written in order exactly if a content it sends is sent while
`active` is set. -/
theorem ActiveOk.obeyed_iff (h : ActiveOk s) (event : FlowEvent) :
    Obeyed (step cfg s event).written ↔ Obeyed s.written ∧ SendsActive cfg s event := by
  obtain ⟨hsends, -, hwritten⟩ | ⟨rfl, hsends, -, hwritten⟩ |
    ⟨m, active, rfl, -, -, hwritten⟩ := @step_cases P cfg event s
  · rw [hwritten]
    exact (and_iff_left hsends).symm
  · have hactive : SendsActive cfg s (.channel .go) ↔ paused s.written = false := by
      rw [← Bool.not_eq_true', ← show s.active = !paused s.written from h]
      exact ⟨fun hactive => hactive hsends, fun hactive _ => hactive⟩
    rw [hwritten, obeyed_append, hactive]
    simp
  · have hkept : SendsActive cfg s (.channel (.deliver m)) := trivial
    rw [hwritten, and_iff_left hkept]
    split
    · simp [obeyed_append]
    · exact .rfl

end Steps

/-- Flow control is obeyed in a run that confirms each `Channel.Flow`, if and only if every
publish turns to sending its content while `active` is set: none is called in a stopped
flow, and none has its flow stopped in the drain before it. -/
theorem run_obeyed (cfg : FlowConfig) (events : List FlowEvent)
    (hconfirmed : Run.Along (step cfg) (Confirmed cfg) ({} : FlowControl P) events) :
    Obeyed (run cfg events : FlowControl P).written ↔
      Run.Along (step cfg) (SendsActive cfg) ({} : FlowControl P) events := by
  have hfirst : Obeyed ({} : FlowControl P).written := by
    intro before between after hwritten
    simp at hwritten
  refine (@Run.foldl_iff_along _ _ (step cfg) (Confirmed cfg) (SendsActive cfg) ActiveOk
    (fun s : FlowControl P => Obeyed s.written) (fun _ event h => h.of_step event)
    (fun _ event h _ => h.obeyed_iff event) _ _ activeOk_first hconfirmed).trans ?_
  exact and_iff_right hfirst

/-- A connection that writes everything and may be blocked. -/
def blockableConfig : FlowConfig where
  toConfig := { plainConfig with drainsFirst := true }
  starts _ := true
  write_starts _ _ := rfl

def flow (active : Bool) : Inbound :=
  { methodSig := Spec.Channel.flow, payload := [0, 20, 0, 20, if active then 1 else 0] }

/-- The flow is stopped and restarted before a message is published. -/
def restartedEvents : List FlowEvent :=
  openEvents.map .channel ++
    [.channel (.deliver (flow false)), .channel .go, .channel .go,
      .channel (.deliver (flow true)), .channel .go, .channel .go,
      .publish, .channel (.fail .socketTimeout), .channel .go, .channel .go]

theorem run_obeyed_restarted :
    (run blockableConfig restartedEvents : FlowControl (plainPromises Reply)).written =
        [.flowOk false, .flowOk true, .content] ∧
      Obeyed (run blockableConfig restartedEvents : FlowControl (plainPromises Reply)).written :=
  ⟨by decide +kernel, (run_obeyed blockableConfig _ (by decide +kernel)).mpr (by decide +kernel)⟩

/-- The flow is stopped in the drain of a publish. -/
def stoppedEvents : List FlowEvent :=
  openEvents.map .channel ++
    [.publish, .channel (.deliver (flow false)), .channel .go, .channel .go, .channel .go]

/-- A publish sends its content in a flow that has been stopped. -/
theorem run_not_obeyed :
    ¬ ∀ (cfg : FlowConfig) (events : List FlowEvent),
      Obeyed (run cfg events : FlowControl (plainPromises Reply)).written := by
  intro hclaim
  have hobeyed := hclaim blockableConfig stoppedEvents
  have hwritten : (run blockableConfig stoppedEvents :
      FlowControl (plainPromises Reply)).written = [.flowOk false, .content] := by
    decide +kernel
  rw [hwritten] at hobeyed
  exact absurd (hobeyed [] [] [] rfl) (by simp)

end FlowControl

end PyAmqp
