import PyAmqp.Channel.Kept

/-!
When `_confirm_selected` is right. `basic_publish_confirm` sets the flag before it asks
for confirms, and the reopening of a channel forgets them without clearing it. Where
neither goes wrong, a channel at rest with the flag set has had its `Confirm.SelectOk`.
-/

namespace PyAmqp

/-- The `wait` of the `confirm_select` of `basic_publish_confirm`. -/
def Task.isSelect : Task → Bool
  | select _ => true
  | _ => false

namespace Broker

/-- Nothing that arrives ends confirm mode. -/
theorem receive_selectOk (decode : Message → Message) (m : Inbound) (b : Broker) :
    (b.receive decode m).selectOk =
      (b.selectOk || decide (m.methodSig = Spec.Confirm.selectOk)) :=
  rfl

theorem ask_selectOk {c : SyncCall} (h : c ≠ .open) (b : Broker) :
    (b.ask c).selectOk = b.selectOk := by
  simp [ask, h]

end Broker

namespace Channel

open ChannelCore

variable {P : Promises Reply}

/-- The `wait` on top, when an exception has reached it. -/
def abandoned (s : Channel P) : Option Nat :=
  match s.stack, s.control with
  | .wait id :: _, .raising _ => some id
  | _, _ => none

/-- What keeps the flag right: no `Channel.Open` is sent while it is set, and no
`confirm_select` that sets it ends by an exception, or cannot be sent, before the
channel has had its `Confirm.SelectOk`. -/
def KeepsMode (cfg : Config) (s : Channel P) : Event → Prop
  | .go => ∀ id ∈ s.abandoned, (s.waits id).task.isSelect = true → s.broker.selectOk = true
  | .publishConfirm => s.Idle → s.confirmSelected = false →
      s.broker.selectOk = true ∨ s.attached = true ∧ cfg.write s.writes = .ok ()
  | .call c => s.Idle → c = .open →
      s.confirmSelected = false ∨ s.isOpen = true ∨ s.attached = false
  | .deliver m => s.Drains → m.methodSig = Spec.Channel.close →
      s.confirmSelected = false ∨ s.isClosing = true ∨ s.connectionClosing = true ∨
        s.attached = false
  | _ => True

instance (cfg : Config) (s : Channel P) : (event : Event) → Decidable (KeepsMode cfg s event)
  | .go => inferInstanceAs (Decidable (∀ id ∈ s.abandoned, _))
  | .publishConfirm => inferInstanceAs (Decidable (s.Idle → _ → _ ∨ _ ∧ _))
  | .call _ => inferInstanceAs (Decidable (s.Idle → _ → _ ∨ _ ∨ _))
  | .deliver _ => inferInstanceAs (Decidable (s.Drains → _ → _ ∨ _ ∨ _ ∨ _))
  | .return | .raise _ | .foreign | .fail _ | .connectionCloses _ | .collect => .isTrue trivial

/-- A call of the channel is in progress. -/
def InCall (s : Channel P) : Prop := ∃ act ∈ s.stack, act.isCall = true

instance (s : Channel P) : Decidable s.InCall := inferInstanceAs (Decidable (∃ _ ∈ s.stack, _))

/-- Whenever the channel is open, no call on it is in progress and the flag is set, the
broker has confirmed since the last `Channel.Open`. -/
def ConfirmMode (s : Channel P) : Prop :=
  s.isOpen = true → ¬ s.InCall → s.confirmSelected = true → s.broker.selectOk = true

instance (s : Channel P) : Decidable s.ConfirmMode := inferInstanceAs (Decidable (_ → _ → _ → _))

/-! The invariant -/

/-- The flag is set while a `confirm_select` waits, and its promise is ready, or will be
called, only after SelectOk. -/
def modeFacts (selected selectOk : Bool) : Facts P where
  wait waiting := waiting.task.isSelect = true →
    selected = true ∧ (P.ready waiting.promise = true → selectOk = true)
  reply task _ := task.isSelect = true → selectOk = true
  called _ _ hreply hwait hselect := ⟨(hwait hselect).1, fun _ => hreply hselect⟩

structure ModeOk (k : ChannelCore P) : Prop where
  registered : k.Registered
  facts : (modeFacts k.confirmSelected k.broker.selectOk).Hold k
  flag : k.confirmSelected = true →
    k.broker.selectOk = true ∨ ∃ id, .wait id ∈ k.stack ∧ (k.waits id).task.isSelect = true

section Step

variable {cfg : Config} {s : Channel P} {event : Event} {k : ChannelCore P} {control : Control}

/-- While the flag is set, no step forgets SelectOk. -/
theorem Move.selectOk (hmove : Move cfg s event k control) (hcond : s.KeepsMode cfg event)
    (hselected : s.confirmSelected = true) (hok : s.broker.selectOk = true) :
    k.broker.selectOk = true := by
  cases hmove with
  | ignores | takes | listens => simp [Broker.receive_selectOk, hok]
  | @asks c hidle hsends =>
      by_cases hc : c = .open
      · subst hc
        have := hcond hidle rfl
        simp_all [Sends]
      · simpa [Broker.ask_selectOk hc] using hok
  | reopens hdrains hparse hclose hclosing hattached =>
      have := hcond hdrains hclose
      simp_all
  | _ => exact hok

/-- A set flag stays set. -/
theorem Move.selected (hmove : Move cfg s event k control) (hselected : s.confirmSelected = true) :
    k.confirmSelected = true := by
  cases hmove with
  | selects | selectRefused => rfl
  | _ => exact hselected

theorem ModeOk.move (h : ModeOk s.toChannelCore) (hmove : Move cfg s event k control)
    (hcond : s.KeepsMode cfg event) : ModeOk k := by
  refine ⟨h.registered.move hmove, h.facts.move h.registered hmove ?_ ?_ ?_ ?_, ?_⟩
  · intro id hid hwait htask
    obtain ⟨hselected, hready⟩ := hwait htask
    exact ⟨hmove.selected hselected, fun h => hmove.selectOk hcond hselected (hready h)⟩
  · intro id reply hid hreply htask
    exact hmove.selectOk hcond (h.facts.holds id hid htask).1 (hreply htask)
  · intro task hbegins htask
    cases hbegins with
    | select _ _ _ hselected => exact ⟨hselected, fun hready => by simp [P.ready_make] at hready⟩
    | _ => exact absurd htask Bool.false_ne_true
  · intro m args id _ _ hpending _ hbroker htask
    have hmethod := (h.registered.live _ _ hpending).2
    have hsig : m.methodSig = Spec.Confirm.selectOk := by
      cases hselect : (s.waits id).task with
      | select => simpa [hselect, Task.methods, SyncCall.replies] using hmethod
      | _ => simp [hselect, Task.isSelect] at htask
    simp [hbroker, Broker.receive_selectOk, hsig]
  · intro hselected
    cases hbefore : s.confirmSelected with
    | true =>
        rcases h.flag hbefore with hok | ⟨id, hid, htask⟩
        · exact .inl (hmove.selectOk hcond hbefore hok)
        · rcases hmove.wait_stays h.registered hid with ⟨hstays, hsame⟩ |
            ⟨rfl, rest, result, hstack, hended⟩
          · exact .inr ⟨id, hstays, by rwa [hsame]⟩
          · refine .inl (hmove.selectOk hcond hbefore ?_)
            cases hended with
            | ready hready => exact (h.facts.holds id hid htask).2 hready
            | raised hraised => exact hcond id (by simp [abandoned, hstack, hraised]) htask
    | false =>
        cases hmove with
        | selects => exact .inr ⟨s.created, by simp, by simp [beginWait_eq, Task.isSelect]⟩
        | selectRefused hidle _ hrefused =>
            exact .inl ((hcond hidle hbefore).resolve_right hrefused)
        | _ => simp_all

end Step

theorem ModeOk.init : ModeOk ({} : ChannelCore P) where
  registered := ⟨by simp, trivial⟩
  facts := ⟨by simp, by simp⟩
  flag := by simp

theorem ModeOk.confirmMode {s : Channel P} (h : ModeOk s.toChannelCore) : s.ConfirmMode := by
  intro _ hcall hselected
  rcases h.flag hselected with hok | ⟨id, hid, -⟩
  · exact hok
  · exact absurd ⟨_, hid, rfl⟩ hcall

/-- In every run whose steps keep the flag right, a channel at rest with the flag set is
in confirm mode. -/
theorem run_confirmMode (cfg : Config) (P : Promises Reply) (events : List Event)
    (h : Run.Along (step cfg) (KeepsMode cfg) ({} : Channel P) events) :
    (run cfg events : Channel P).ConfirmMode := by
  have hmode : ModeOk (events.foldl (step cfg) ({} : Channel P)).toChannelCore :=
    Run.invariant (I := fun s : Channel P => ModeOk s.toChannelCore)
      (fun s event hok hcond => hok.move (step_move cfg s event) hcond) ModeOk.init h
  exact hmode.confirmMode

theorem run_confirmMode_selected :
    let s : Channel (plainPromises Reply) := run plainConfig (openEvents ++ selectEvents ++
      [.deliver
        { methodSig := Spec.Basic.ack, payload := [0, 60, 0, 80, 0, 0, 0, 0, 0, 0, 0, 1, 0] },
        .return, .go, .go, .go])
    s.isOpen = true ∧ ¬ s.InCall ∧ s.confirmSelected = true ∧ s.ConfirmMode :=
  ⟨by decide, by decide, by decide, run_confirmMode plainConfig (plainPromises Reply) _ (by decide)⟩

/-- The server closes the channel while a confirm is awaited: the channel is open again,
and waits for confirms that are no longer sent. -/
theorem run_confirmMode_revived :
    ¬ ConfirmMode (run plainConfig (openEvents ++ selectEvents ++
      [.deliver
        { methodSig := Spec.Channel.close,
          payload := [0, 20, 0, 40, 1, 148, 1, 120, 0, 60, 0, 40] },
        .go,
        .deliver { methodSig := Spec.Channel.openOk, payload := [0, 20, 0, 11, 0, 0, 0, 0] },
        .return, .go, .go, .go, .go, .go]) : Channel (plainPromises Reply)) := by
  decide

end Channel

end PyAmqp
