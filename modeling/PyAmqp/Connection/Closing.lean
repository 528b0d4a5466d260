import PyAmqp.Connection.Promised

/-!
The calls of `close` that wait, of the connection and of its channels. A step starts one,
ends the one on top, or leaves them as they are.
-/

namespace PyAmqp

namespace Connection

variable {P : Promises Reply}

/-- The object that closes in a call of `wait`, and what it closes. -/
def Waiting.closing? (waiting : Waiting P) : Option (Nat × Task) :=
  if waiting.task.closes then some (waiting.owner, waiting.task) else none

def Activation.closing? (waits : Nat → Waiting P) : Activation → Option (Nat × Task)
  | wait id => (waits id).closing?
  | _ => none

namespace Calls

/-- The calls of `close` that wait, the last one first. -/
def closing (k : Calls P) : List (Nat × Task) := k.stack.filterMap (Activation.closing? k.waits)

variable {k : Calls P} {act : Activation} {rest : List Activation} {id : Nat}

theorem pop_closing (hstack : k.stack = act :: rest)
    (hact : act = .user ∨ act = .connecting ∨ ∃ oneShot, act = .dispatch oneShot) :
    k.pop.closing = k.closing := by
  simp only [closing, pop, hstack, List.tail_cons]
  rw [List.filterMap_cons_none]
  obtain rfl | rfl | ⟨oneShot, rfl⟩ := hact <;> rfl

theorem call_closing {reply : Reply} (hstack : k.stack = .dispatch (some (id, reply)) :: rest) :
    (k.pop.call id reply).2.closing = k.closing := by
  rw [← pop_closing hstack (.inr (.inr ⟨_, rfl⟩))]
  refine List.filterMap_congr fun act _ => ?_
  cases act with
  | wait other =>
      by_cases ho : other = id
      · subst ho
        show Waiting.closing? (Function.update k.waits other _ other) = _
        rw [Function.update_self]
        rfl
      · simp [Activation.closing?, call, pop, Function.update_of_ne ho]
  | _ => rfl

theorem leaveWait_closing (hstack : k.stack = .wait id :: rest) :
    k.closing = (k.waits id).closing?.toList ++ (k.leaveWait id).closing := by
  simp only [closing, leaveWait, hstack, List.tail_cons, List.filterMap_cons, Activation.closing?]
  cases (k.waits id).closing? <;> rfl

theorem beginWait_closing (h : ∀ id, .wait id ∈ k.stack → id < k.begun) (o : Nat) (task : Task) :
    (k.beginWait o task).closing = (if task.closes then [(o, task)] else []) ++ k.closing := by
  have hrest : k.stack.filterMap (Activation.closing? (k.beginWait o task).waits) = k.closing := by
    refine List.filterMap_congr fun act hact => ?_
    cases act with
    | wait id =>
        have hid := h id hact
        simp [Activation.closing?, beginWait, Function.update_of_ne hid.ne]
    | _ => rfl
  have hnew : Activation.closing? (k.beginWait o task).waits (.wait k.begun) =
      if task.closes then some (o, task) else none := by
    simp [Activation.closing?, Waiting.closing?, beginWait]
  have hstack : (k.beginWait o task).stack = .wait k.begun :: k.stack := rfl
  rw [closing, hstack, List.filterMap_cons, hnew, hrest]
  split
  next hnone => split at hnone <;> simp_all
  next hsome => split at hsome <;> simp_all

end Calls

section Moves

variable {cfg : Config} {s : Connection P} {event : Event} {r : Registry} {l : Link} {k : Calls P}
  {log : List Entry}

/-- What a step does to the calls of `close` that wait, with the object whose call it
starts or ends. -/
inductive Closes (s : Connection P) (k : Calls P) : Event → Prop
  | keeps {event : Event} (hclosing : k.closing = s.closing) (hflags : k.isClosing = s.isClosing) :
      Closes s k event
  | starts {t : Nat} (htransport : s.transport = some t) (hattached : s.attached 0 = true)
      (hcall : s.MayCall 0) (hclosing : k.closing = (0, .closeConnection t) :: s.closing)
      (hflags : k.isClosing = Function.update s.isClosing 0 true) : Closes s k .close
  | startsChannel {o : Nat} (hcall : s.MayCall o)
      (hclosing : k.closing = (o, .closeChannel) :: s.closing)
      (hflags : k.isClosing = Function.update s.isClosing o true) : Closes s k (.closeChannel o)
  | refused {o : Nat} {event : Event} (hcall : s.MayCall o)
      (hevent : event = .closeChannel o ∨ event = .close ∧ o = 0 ∧ s.transport ≠ none)
      (hclosing : k.closing = s.closing) (hflags : k.isClosing = Function.update s.isClosing o false) :
      Closes s k event
  | ends {o : Nat} {task : Task} (hclosing : s.closing = (o, task) :: k.closing)
      (hflags : k.isClosing = Function.update s.isClosing o false) : Closes s k .go

theorem Move.closing (hreachable : s.Reachable) (hmove : Move cfg s event r l k log) :
    Closes s k event := by
  have hpromised := hreachable.promised
  have hlt := hpromised.stack
  cases hmove with
  | stays | connected | connectFails | collects | collectsChannel | takes | closesDown
    | closesDownChannel | connects | handshakes => exact .keeps rfl rfl
  | connectReturns hstack | connectRaises hstack =>
      exact .keeps (Calls.pop_closing hstack (.inr (.inl rfl))) rfl
  | pops hstack hact => exact .keeps (Calls.pop_closing hstack (hact.imp_right .inr)) rfl
  | calls hstack => exact .keeps (Calls.call_closing hstack) rfl
  | closes htransport hattached hcall =>
      refine .starts htransport hattached hcall ?_ rfl
      exact Calls.beginWait_closing (k := s.toCalls.setClosing 0 true) hlt ..
  | closeRefused htransport hcall =>
      exact .refused hcall (.inr ⟨rfl, rfl, by simp [htransport]⟩) rfl rfl
  | closeReturns hstack htask | closeRaises hstack htask =>
      have howner := hpromised.connection _ (hlt _ (by simp [hstack])) _ htask
      have hleaves := Calls.leaveWait_closing hstack
      rw [Waiting.closing?, htask, howner] at hleaves
      exact .ends hleaves rfl
  | constructs _ _ hk =>
      obtain rfl | ⟨o, -, rfl⟩ := hk
      · exact .keeps rfl rfl
      · exact .keeps (Calls.beginWait_closing hlt ..) rfl
  | asks ho htask =>
      refine .keeps ?_ rfl
      rw [Calls.beginWait_closing hlt, htask]
      rfl
  | detaches ho hcall => exact .refused hcall (.inl rfl) rfl rfl
  | closesChannel ho hcall =>
      refine .startsChannel hcall ?_ rfl
      exact Calls.beginWait_closing (k := s.toCalls.setClosing _ true) hlt ..
  | closeChannelEnds hstack htask =>
      have hleaves := Calls.leaveWait_closing hstack
      rw [Waiting.closing?, htask] at hleaves
      exact .ends hleaves rfl
  | leaves hstack htask =>
      refine .keeps ?_ rfl
      have hleaves := Calls.leaveWait_closing hstack
      rw [Waiting.closing?, htask] at hleaves
      exact hleaves.symm
  | listens _ _ _ hacts =>
      obtain rfl | rfl := hacts
      · exact .keeps rfl rfl
      · exact .keeps rfl rfl
  | revives =>
      refine .keeps ?_ rfl
      refine Calls.beginWait_closing (k := s.toCalls.hears _ _ _) (fun id hid => ?_) ..
      exact hlt id ((List.mem_cons.mp hid).resolve_left (by simp))

end Moves

end Connection

end PyAmqp
