import PyAmqp.Channel.Kept

/-!
Publisher confirms. A confirm carries the number of its message, but the `wait` of
`basic_publish_confirm` takes the next one that arrives. So a message is safe while
every earlier one has its confirm and no other `basic_publish_confirm` is in progress;
where every message is, a call that returns has had its own message acknowledged.
-/

namespace PyAmqp

open Channel

variable {P : Promises Reply}

/-- The `wait` of a `basic_publish_confirm`. -/
def Task.isPublish : Task → Bool
  | select _ | confirm _ => true
  | _ => false

/-- It is part of a `basic_publish_confirm`. -/
def Activation.publishing (waits : Nat → Waiting P) : Activation → Bool
  | wait id => (waits id).task.isPublish
  | publish _ => true
  | _ => false

namespace Broker

/-- Every message since the last `Channel.Open` has its confirm. -/
def Settled (b : Broker) : Prop := ∀ k ≤ b.published, b.opened < k → b.answers k ≠ none

instance (b : Broker) : Decidable b.Settled :=
  inferInstanceAs (Decidable (∀ k ≤ b.published, b.opened < k → _))

/-- Every other message has. -/
def SettledBut (b : Broker) (number : Nat) : Prop :=
  ∀ k ≤ b.published, b.opened < k → k ≠ number → b.answers k ≠ none

/-- The confirm is for a message that was published and has none. -/
def Unanswered (b : Broker) (n : Nat) : Prop :=
  0 < n ∧ b.opened + n ≤ b.published ∧ b.answers (b.opened + n) = none

instance (b : Broker) (n : Nat) : Decidable (b.Unanswered n) :=
  inferInstanceAs (Decidable (_ ∧ _ ∧ _))

variable {b : Broker} {decode : Message → Message} {m : Inbound} {k : Nat}

theorem reply_frame (m : Inbound) (b : Broker) :
    (b.reply m).opened = b.opened ∧ (b.reply m).published = b.published ∧
      (b.reply m).answers = b.answers := by
  rcases reply_cases m b with heq | ⟨o, rest, -, -, heq⟩
  · rw [heq]
    exact ⟨rfl, rfl, rfl⟩
  · rw [heq]
    exact ⟨rfl, rfl, rfl⟩

/-- A confirm is never taken back. -/
theorem receive_answered {ack : Bool} (h : b.answers k = some ack) :
    (b.receive decode m).answers k = some ack := by
  cases hconfirm : confirmation decode m with
  | none => simpa [Broker.receive, hconfirm] using h
  | some confirm => simp [Broker.receive, hconfirm, answer, h]

theorem SettledBut.receive {number : Nat} (h : b.SettledBut number) :
    (b.receive decode m).SettledBut number := by
  obtain ⟨hopened, hpublished, -⟩ := reply_frame m b
  intro k hk hopen hne
  cases hanswer : b.answers k with
  | none =>
      refine absurd hanswer (h k ?_ ?_ hne)
      · exact hpublished ▸ hk
      · exact hopened ▸ hopen
  | some ack => simp [receive_answered hanswer]

theorem SettledBut.ask {number : Nat} (h : b.SettledBut number) (c : SyncCall) :
    (b.ask c).SettledBut number := by
  intro k hk hopen hne
  refine h k hk ?_ hne
  simp only [Broker.ask] at hk hopen
  split_ifs at hopen
  · exact absurd hk (Nat.not_le.mpr hopen)
  · exact hopen

/-- A confirm that arrives is for the one message without a confirm. -/
theorem SettledBut.confirmed {n number : Nat} {multiple : Bool} (h : b.SettledBut number)
    (hn : b.Unanswered n) (hconfirm : confirmation decode m = some (n, multiple)) :
    (b.receive decode m).answers number = some (decide (m.methodSig = Spec.Basic.ack)) := by
  obtain ⟨hpos, hle, hnone⟩ := hn
  have hnumber : b.opened + n = number := by
    by_contra hne
    exact h _ hle (by omega) hne hnone
  subst hnumber
  have hcovers : b.Covers n multiple (b.opened + n) := ⟨by omega, hle, .inl rfl⟩
  simp [Broker.receive, hconfirm, answer, hnone, hcovers]

end Broker

namespace Channel

open ChannelCore

/-- The activations that an exception passes before it reaches code of the user. -/
def exposed (stack : List Activation) : List Activation :=
  stack.takeWhile fun act => !act.isUser

/-- It waits for the confirm of a message that was nacked. -/
def isNacked (k : ChannelCore P) : Activation → Bool
  | .wait id =>
      match (k.waits id).task with
      | .confirm number => k.broker.answers number = some false
      | _ => false
  | _ => false

/-- So does each `basic_publish_confirm` among these. -/
def NackedAll (k : ChannelCore P) (acts : List Activation) : Prop :=
  ∀ act ∈ acts, act.publishing k.waits = true → isNacked k act = true

instance (k : ChannelCore P) (acts : List Activation) : Decidable (NackedAll k acts) :=
  inferInstanceAs (Decidable (∀ act ∈ acts, _ → _))

/-- The broker confirms messages that it was sent and has not confirmed, one or all up
to a number. -/
def Confirms (cfg : Config) (s : Channel P) : Event → Prop
  | .deliver m => s.Drains → m.methodSig = Spec.Basic.ack ∨ m.methodSig = Spec.Basic.nack →
      ∃ confirm ∈ Broker.confirmation cfg.decode m, s.broker.Unanswered confirm.1
  | _ => True

instance (cfg : Config) (s : Channel P) : (event : Event) → Decidable (s.Confirms cfg event)
  | .deliver _ => inferInstanceAs (Decidable (s.Drains → _ ∨ _ → ∃ confirm ∈ _, _))
  | .go | .call _ | .publishConfirm | .return | .raise _ | .foreign | .fail _
    | .connectionCloses _ | .collect => .isTrue trivial

/-- What keeps confirms apart: `basic_publish_confirm` starts when no other is in
progress, a message is sent when every earlier one has its confirm, and no other
`MessageNacked` passes through a `basic_publish_confirm`. -/
def KeepsConfirms (s : Channel P) : Event → Prop
  | .publishConfirm => s.Idle → ∀ act ∈ s.stack, act.publishing s.waits = false
  | .go => s.stack.head?.any (fun act => act matches .publish false) = true →
      s.control = .running → s.broker.Settled
  | .raise e => s.Idle → e = .messageNacked → NackedAll s.toChannelCore (exposed s.stack.tail)
  | .fail e => s.Drains → e = .messageNacked → NackedAll s.toChannelCore (exposed s.stack)
  | _ => True

instance (s : Channel P) : (event : Event) → Decidable (s.KeepsConfirms event)
  | .publishConfirm => inferInstanceAs (Decidable (s.Idle → ∀ act ∈ s.stack, _))
  | .go => inferInstanceAs (Decidable (_ → _ → s.broker.Settled))
  | .raise _ => inferInstanceAs (Decidable (s.Idle → _ → NackedAll _ _))
  | .fail _ => inferInstanceAs (Decidable (s.Drains → _ → NackedAll _ _))
  | .call _ | .return | .deliver _ | .foreign | .connectionCloses _ | .collect => .isTrue trivial

/-- A `basic_publish_confirm` returned only if its message was acknowledged, and raised
`MessageNacked` only if it was nacked. -/
def Confirmed (k : ChannelCore P) : Prop :=
  ∀ number result, .publish number result ∈ k.log →
    (result = .ok () → ∃ n, number = some n ∧ k.broker.answers n = some true) ∧
      (result = .error .messageNacked → ∃ n, number = some n ∧ k.broker.answers n = some false)

/-! The invariant -/

/-- A `wait` for a confirm is for the one message without one, and its promise is ready,
or will be called, as that confirm says. -/
def confirmFacts (b : Broker) : Facts P where
  wait waiting := P.func waiting.promise = waiting.task.handler ∧
    ∀ number, waiting.task = .confirm number → b.SettledBut number ∧
      (P.ready waiting.promise = true → b.answers number = some true)
  reply task reply := ∀ number, task = .confirm number →
    b.answers number = some (decide (reply.1 ≠ Spec.Basic.nack))
  called waiting reply hreply hwait := by
    obtain ⟨hfunc, hwait⟩ := hwait
    refine ⟨by rw [P.func_call, hfunc], fun number htask => ⟨(hwait number htask).1, ?_⟩⟩
    intro hready
    have hfunc : P.func waiting.promise = some Task.confirmHandler := by
      rw [hfunc, htask]
      rfl
    have hanswer := hreply number htask
    by_cases hnack : reply.1 = Spec.Basic.nack
    · have hraises := P.call_raises reply waiting.promise _ .messageNacked hfunc
        (by simp [Task.confirmHandler, hnack])
      exact (hwait number htask).2 (hraises.2 ▸ hready)
    · simpa [hnack] using hanswer

structure ConfirmsOk (k : ChannelCore P) (control : Control) : Prop where
  registered : k.Registered
  facts : (confirmFacts k.broker).Hold k
  solo : k.stack.countP (Activation.publishing k.waits) ≤ 1
  nacked : control = .raising .messageNacked → NackedAll k (exposed k.stack)
  log : Confirmed k

/-- With one `basic_publish_confirm` in progress, its activations are one. -/
theorem solo_eq {waits : Nat → Waiting P} {stack : List Activation} {act act' : Activation}
    (h : stack.countP (Activation.publishing waits) ≤ 1) (hact : act ∈ stack) (hact' : act' ∈ stack)
    (hpublishing : act.publishing waits = true) (hpublishing' : act'.publishing waits = true) :
    act = act' := by
  rw [List.countP_eq_length_filter] at h
  have hmem := List.mem_filter.mpr ⟨hact, hpublishing⟩
  have hmem' := List.mem_filter.mpr ⟨hact', hpublishing'⟩
  match hfilter : stack.filter (Activation.publishing waits), h with
  | [], _ => simp [hfilter] at hmem
  | [one], _ =>
      rw [hfilter, List.mem_singleton] at hmem hmem'
      rw [hmem, hmem']

theorem countP_beginWait {k : ChannelCore P} (h : k.Registered) (task : Task) :
    (k.beginWait task).stack.countP (Activation.publishing (k.beginWait task).waits) =
      k.stack.countP (Activation.publishing k.waits) + if task.isPublish then 1 else 0 := by
  have hold : k.stack.countP (Activation.publishing (k.beginWait task).waits) =
      k.stack.countP (Activation.publishing k.waits) := by
    refine List.countP_congr fun act hact => ?_
    cases act with
    | wait id => simp only [Activation.publishing, beginWait_waits_task task (h.stack.lt hact)]
    | _ => rfl
  have hnew : ((k.beginWait task).waits k.created).task = task := by
    simp [beginWait_eq]
  rw [beginWait_stack, List.countP_cons, hold]
  simp only [Activation.publishing, hnew]

section Step

variable {cfg : Config} {s : Channel P} {event : Event} {k : ChannelCore P} {control : Control}

theorem Move.answered (hmove : Move cfg s event k control) {number : Nat} {ack : Bool}
    (h : s.broker.answers number = some ack) : k.broker.answers number = some ack := by
  cases hmove with
  | ignores | takes | listens | reopens => exact Broker.receive_answered h
  | _ => exact h

theorem ConfirmsOk.settledBut (h : ConfirmsOk s.toChannelCore s.control)
    (hmove : Move cfg s event k control) {id number : Nat} (hid : .wait id ∈ s.stack)
    (htask : (s.waits id).task = .confirm number) (hsettled : s.broker.SettledBut number) :
    k.broker.SettledBut number := by
  cases hmove with
  | publishes hstack =>
      have heq : Activation.wait id = .publish false := solo_eq h.solo hid
        (by simp [hstack]) (by simp [Activation.publishing, htask, Task.isPublish]) rfl
      simp at heq
  | asks | selects => exact hsettled.ask _
  | ignores | takes | listens => exact hsettled.receive
  | reopens => exact hsettled.receive.ask _
  | _ => exact hsettled

theorem ConfirmsOk.solo_move (h : ConfirmsOk s.toChannelCore s.control)
    (hmove : Move cfg s event k control) (hcond : s.KeepsConfirms event) :
    k.stack.countP (Activation.publishing k.waits) ≤ 1 := by
  have hsolo := h.solo
  cases hmove with
  | stay | fails | publishRefused | selectRefused | ignores | takes => exact hsolo
  | foreign => simpa [Activation.publishing] using hsolo
  | startsPublish draining hidle =>
      have hnone := List.countP_eq_zero.mpr fun act hact => by simpa using hcond hidle act hact
      simp only [List.countP_cons, hnone, Activation.publishing, if_true, Nat.le_refl]
  | userReturns hstack | userRaises _ hstack | listenerReturns hstack | listenerRaises hstack
    | publishRaises hstack =>
      rw [hstack, List.countP_cons] at hsolo
      exact le_of_add_le_left hsolo
  | drained hstack =>
      rw [hstack, List.countP_cons] at hsolo
      simpa only [List.countP_cons, Activation.publishing] using hsolo
  | @calls id reply rest hstack =>
      rw [hstack, List.countP_cons] at hsolo
      refine (List.countP_congr fun act _ => ?_).trans_le (le_of_add_le_left hsolo)
      cases act with
      | wait other => simp only [Activation.publishing, (update_promise ..).1]
      | _ => rfl
  | leaves hstack hended hfollows =>
      rw [hstack, List.countP_cons] at hsolo
      cases hfollows with
      | selected draining htask =>
          simpa [List.countP_cons, Activation.publishing, htask, Task.isPublish] using hsolo
      | _ => exact le_of_add_le_left hsolo
  | @publishes rest hstack =>
      rw [hstack, List.countP_cons] at hsolo
      rw [countP_beginWait (h.registered.publish hstack)]
      exact hsolo
  | asks =>
      exact (countP_beginWait (k := { s.toChannelCore with broker := _ }) h.registered _).trans_le
        hsolo
  | selects hidle =>
      have hnone := List.countP_eq_zero.mpr fun act hact => by simpa using hcond hidle act hact
      refine (countP_beginWait (k := { s.toChannelCore with
        confirmSelected := true, broker := s.broker.ask .confirmSelect }) h.registered _).trans_le ?_
      simp [hnone, Task.isPublish]
  | listens _ _ hacts =>
      obtain rfl | rfl := hacts
      · simpa [Activation.publishing] using hsolo
      · simpa [Activation.publishing] using hsolo
  | @reopens m args =>
      refine (countP_beginWait (k := { s.toChannelCore with
        broker := (s.broker.receive cfg.decode m).ask .open
        pending := Function.update s.pending m.methodSig none
        stack := .dispatch (s.oneShot m args) :: s.stack }) (h.registered.dispatch _ _) _).trans_le ?_
      simpa [Activation.publishing, Task.isPublish] using hsolo

theorem ConfirmsOk.facts_move (h : ConfirmsOk s.toChannelCore s.control)
    (hmove : Move cfg s event k control) (hconfirms : s.Confirms cfg event)
    (hcond : s.KeepsConfirms event) : (confirmFacts k.broker).Hold k := by
  refine h.facts.move h.registered hmove ?_ ?_ ?_ ?_
  · rintro id hid ⟨hfunc, hwait⟩
    refine ⟨hfunc, fun number htask => ?_⟩
    obtain ⟨hsettled, hready⟩ := hwait number htask
    exact ⟨h.settledBut hmove hid htask hsettled, fun h' => hmove.answered (hready h')⟩
  · intro id reply hid hreply number htask
    exact hmove.answered (hreply number htask)
  · intro task hbegins
    refine ⟨P.func_make _, fun number htask => ⟨?_, fun hready => by simp [P.ready_make] at hready⟩⟩
    cases hbegins with
    | confirm hstack hcontrol hbroker =>
        obtain rfl := Task.confirm.inj htask
        have hsettled := hcond (by simp [hstack]) hcontrol
        rw [hbroker]
        intro n hn hopen hne
        exact hsettled n (Nat.lt_succ_iff.mp (hn.lt_of_ne hne)) hopen
    | _ => simp at htask
  · intro m args id hdrains hparse hpending hevent hbroker number htask
    subst hevent
    rw [hbroker]
    have hlive := h.registered.live _ _ hpending
    have hmethod : m.methodSig = Spec.Basic.ack ∨ m.methodSig = Spec.Basic.nack := by
      simpa [htask, Task.methods] using hlive.2
    obtain ⟨⟨n, multiple⟩, hconfirm, hn⟩ := hconfirms hdrains hmethod
    have hsettled := ((h.facts.holds id hlive.1).2 number htask).1
    rw [hsettled.confirmed hn hconfirm]
    rcases hmethod with hack | hnack
    · simp [hack, Spec.Basic.ack, Spec.Basic.nack]
    · simp [hnack, Spec.Basic.ack, Spec.Basic.nack]

theorem exposed_cons {act : Activation} (hact : act.isUser = false) (rest : List Activation) :
    exposed (act :: rest) = act :: exposed rest := by
  simp [exposed, hact]

/-- A promise that raises `MessageNacked` is that of the one `basic_publish_confirm` in
progress, whose message was nacked. -/
theorem ConfirmsOk.nacked_call (h : ConfirmsOk s.toChannelCore s.control) {id : Nat}
    {reply : Reply} {rest : List Activation}
    (hstack : s.stack = .dispatch (some (id, reply)) :: rest)
    (hraises : Control.of (P.call reply (s.waits id).promise).1 = .raising .messageNacked) :
    NackedAll { s.toChannelCore with
      stack := rest
      waits := Function.update s.waits id
        { s.waits id with promise := (P.call reply (s.waits id).promise).2 } } (exposed rest) := by
  have hkept := h.facts.kept id reply (by simp [hstack])
  have hkept' : Activation.dispatch (some (id, reply)) ∈ s.stack := by simp [hstack]
  have hid := (h.registered.stack.kept hkept').1
  have hfunc := (h.facts.holds id hid).1
  cases htask : (s.waits id).task with
  | confirm number =>
      have hhandler : P.func (s.waits id).promise = some Task.confirmHandler := by
        rw [hfunc, htask]
        rfl
      have hnack : reply.1 = Spec.Basic.nack := by
        by_contra hack
        have hreturns := P.call_returns reply (s.waits id).promise _ hhandler
          (by simp [Task.confirmHandler, hack])
        simp [hreturns.1, Control.of] at hraises
      have hanswer := hkept number htask
      intro act hact hpublishing
      have hactId : act = .wait id := by
        have hmem : act ∈ s.stack := by
          rw [hstack]
          exact .tail _ (List.takeWhile_subset _ hact)
        refine solo_eq h.solo hmem hid ?_ (by simp [Activation.publishing, htask, Task.isPublish])
        cases act with
        | wait other => simpa only [Activation.publishing, (update_promise ..).1] using hpublishing
        | _ => exact hpublishing
      subst hactId
      simp [isNacked, htask, hanswer, hnack]
  | _ =>
      have hplain := P.call_plain reply (s.waits id).promise (by rw [hfunc, htask]; rfl)
      simp [hplain.1, Control.of] at hraises

theorem ConfirmsOk.nacked_move (h : ConfirmsOk s.toChannelCore s.control)
    (hmove : Move cfg s event k control) (hcond : s.KeepsConfirms event)
    (hcontrol : control = .raising .messageNacked) : NackedAll k (exposed k.stack) := by
  have htail : ∀ {act rest}, s.stack = act :: rest → act.isUser = false →
      s.control = .raising .messageNacked → NackedAll s.toChannelCore (exposed rest) := by
    intro act rest hstack hact hraising
    have hall := h.nacked hraising
    rw [hstack, exposed_cons hact] at hall
    exact fun other hother => hall other (by simp [hother])
  cases hmove with
  | stay hsame => exact h.nacked (hsame.elim (absurd hcontrol) fun heq => heq ▸ hcontrol)
  | fails hdrains => exact hcond hdrains (Control.raising.inj hcontrol)
  | userRaises hidle hstack =>
      have hall := hcond hidle (Control.raising.inj hcontrol)
      rwa [hstack] at hall
  | listenerRaises hstack hraising =>
      exact htail hstack rfl (hraising.trans hcontrol)
  | calls hstack => exact h.nacked_call hstack hcontrol
  | leaves hstack hended hfollows =>
      cases hfollows with
      | raised | unrevived | unselected =>
          cases hended with
          | raised hraising => exact htail hstack rfl (hraising.trans hcontrol)
      | confirmed =>
          cases hended with
          | raised hraising => exact htail hstack rfl (hraising.trans hcontrol)
          | ready => simp [Control.of] at hcontrol
      | revived => exact absurd (Control.raising.inj hcontrol) (closeError_ne _)
      | unpublished _ he => exact absurd (Control.raising.inj hcontrol) he
      | _ => simp at hcontrol
  | publishRaises hstack he =>
      rcases he with hraising | he
      · have hall := h.nacked (hraising.trans hcontrol)
        rw [hstack, exposed_cons rfl] at hall
        exact absurd (hall _ (.head _) rfl) Bool.false_ne_true
      · exact absurd (Control.raising.inj hcontrol) he
  | selectRefused _ _ _ he | publishRefused _ _ he =>
      exact absurd (Control.raising.inj hcontrol) he
  | ignores _ hne | listens _ _ _ hne => exact absurd hcontrol hne
  | takes _ hor =>
      obtain rfl | ⟨e, herror, rfl⟩ := hor
      · simp at hcontrol
      · obtain rfl := Control.raising.inj hcontrol
        exact absurd (Inbound.parse_errors herror) Bool.false_ne_true
  | _ => simp at hcontrol

theorem ConfirmsOk.log_move (h : ConfirmsOk s.toChannelCore s.control)
    (hmove : Move cfg s event k control) : Confirmed k := by
  -- an activation on top that `MessageNacked` reaches
  have htop : ∀ {act rest}, s.stack = act :: rest → act.isUser = false →
      act.publishing s.waits = true → s.control = .raising .messageNacked →
        isNacked s.toChannelCore act = true := by
    intro act rest hstack hact hpublishing hraising
    have hall := h.nacked hraising
    rw [hstack, exposed_cons hact] at hall
    exact hall act (.head _) hpublishing
  intro number result hentry
  rcases hmove.log hentry with hold | hnew
  · obtain ⟨hok, hnack⟩ := h.log number result hold
    refine ⟨fun hresult => ?_, fun hresult => ?_⟩
    · obtain ⟨n, hnumber, hanswer⟩ := hok hresult
      exact ⟨n, hnumber, hmove.answered hanswer⟩
    · obtain ⟨n, hnumber, hanswer⟩ := hnack hresult
      exact ⟨n, hnumber, hmove.answered hanswer⟩
  · cases hnew with
    | unpublished he =>
        refine ⟨by simp, fun hresult => ?_⟩
        obtain rfl := Except.error.inj hresult
        obtain ⟨hraising, draining, rest, hstack⟩ := he.resolve_left (by simp)
        exact absurd (htop hstack rfl rfl hraising) Bool.false_ne_true
    | @left id _ _ _ _ _ _ hstack hended hfollows hmem =>
        cases hfollows with
        | unpublished _ he =>
            obtain ⟨rfl, rfl⟩ : number = none ∧ result = .error _ := by simpa using hmem
            exact ⟨by simp, fun hresult => absurd (Except.error.inj hresult) he⟩
        | unselected htask =>
            obtain ⟨rfl, rfl⟩ : number = none ∧ result = .error _ := by simpa using hmem
            refine ⟨by simp, fun hresult => ?_⟩
            obtain rfl := Except.error.inj hresult
            cases hended with
            | raised hraising =>
                have htop := htop hstack rfl (by simp [Activation.publishing, htask, Task.isPublish])
                  hraising
                simp [isNacked, htask] at htop
        | @confirmed n htask =>
            obtain ⟨rfl, rfl⟩ : number = some n ∧ result = _ := by simpa using hmem
            refine ⟨fun hresult => ⟨n, rfl, ?_⟩, fun hresult => ⟨n, rfl, ?_⟩⟩
            · subst hresult
              cases hended with
              | ready hready =>
                  have hwait := (h.facts.holds id (by simp [hstack])).2 n htask
                  exact hmove.answered (hwait.2 hready)
            · subst hresult
              cases hended with
              | raised hraising =>
                  have htop := htop hstack rfl
                    (by simp [Activation.publishing, htask, Task.isPublish]) hraising
                  exact hmove.answered (by simpa [isNacked, htask] using htop)
        | _ => simp at hmem

theorem ConfirmsOk.move (h : ConfirmsOk s.toChannelCore s.control)
    (hmove : Move cfg s event k control) (hconfirms : s.Confirms cfg event)
    (hcond : s.KeepsConfirms event) : ConfirmsOk k control :=
  ⟨h.registered.move hmove, h.facts_move hmove hconfirms hcond, h.solo_move hmove hcond,
    h.nacked_move hmove hcond, h.log_move hmove⟩

end Step

theorem ConfirmsOk.init : ConfirmsOk ({} : ChannelCore P) .running where
  registered := ⟨by simp, trivial⟩
  facts := ⟨by simp, by simp⟩
  solo := by simp [Activation.publishing]
  nacked := by simp
  log := by intro number result hentry; simp at hentry

/-- In every run whose messages are all safe, a call of `basic_publish_confirm` returns
only if its message was acknowledged, and raises `MessageNacked` only if it was nacked. -/
theorem run_confirmed (cfg : Config) (P : Promises Reply) (events : List Event)
    (hconfirms : Run.Along (step cfg) (Confirms cfg) ({} : Channel P) events)
    (h : Run.Along (step cfg) KeepsConfirms ({} : Channel P) events) :
    Confirmed (run cfg events : Channel P).toChannelCore := by
  let s : Channel P := events.foldl (step cfg) {}
  have hok : ConfirmsOk s.toChannelCore s.control :=
    Run.invariant (I := fun s : Channel P => ConfirmsOk s.toChannelCore s.control)
      (fun s event hok hcond => hok.move (step_move cfg s event) hcond.1 hcond.2)
      ConfirmsOk.init (hconfirms.and h)
  exact hok.log

/-- A confirm for one message. -/
def confirmOf (sig : MethodSig) (number : UInt8) : Event :=
  .deliver
    { methodSig := sig
      payload := [0, 60, 0, UInt8.ofNat sig.2, 0, 0, 0, 0, 0, 0, 0, number, 0] }

/-- A message is acknowledged and the next one nacked. -/
theorem run_confirmed_two :
    Confirmed (run plainConfig (openEvents ++ selectEvents ++
      [confirmOf Spec.Basic.ack 1, .return, .go, .go, .go, .publishConfirm, .go, .go,
        confirmOf Spec.Basic.nack 2, .return, .go, .go, .go]) :
        Channel (plainPromises Reply)).toChannelCore :=
  run_confirmed plainConfig (plainPromises Reply) _ (by decide) (by decide)

/-- The wait for the first confirm times out, and the second call returns with it. -/
theorem run_confirmed_late :
    let events := openEvents ++ selectEvents ++
      [.fail .socketTimeout, .go, .go, .publishConfirm, .go, .go,
        confirmOf Spec.Basic.ack 1, .return, .go, .go, .go]
    Run.Along (step plainConfig) (Confirms plainConfig) ({} : Channel (plainPromises Reply)) events ∧
      ¬ Confirmed (run plainConfig events : Channel (plainPromises Reply)).toChannelCore := by
  refine ⟨by decide, fun h => ?_⟩
  obtain ⟨n, hnumber, hanswer⟩ := (h (some 2) (.ok ()) (.tail _ (.tail _ (.head _)))).1 rfl
  obtain rfl := Option.some.inj hnumber
  exact Option.some_ne_none true (hanswer.symm.trans rfl)

end Channel

end PyAmqp
