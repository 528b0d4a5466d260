import PyAmqp.Channel.Moves

/-!
What `_pending` holds. Every promise in it, and every promise that a `wait` puts back
or a listener's `dispatch_method` will call, belongs to a call of `wait` further down
the stack that waits for that method. This holds in every run.
-/

namespace PyAmqp

theorem Task.methods_nodup (task : Task) : task.methods.Nodup := by
  cases task with
  | call id c => exact c.replies_nodup
  | revive id args => exact SyncCall.open.replies_nodup
  | select id => exact SyncCall.confirmSelect.replies_nodup
  | confirm number => exact (by decide : [Spec.Basic.ack, Spec.Basic.nack].Nodup)

/-- Nothing waits for a `Channel.Close`. -/
theorem Task.close_notMem_methods (task : Task) : Spec.Channel.close ∉ task.methods := by
  cases task with
  | call id c => exact c.notMem_replies.2.2
  | revive id args => exact SyncCall.open.notMem_replies.2.2
  | select id => exact SyncCall.confirmSelect.notMem_replies.2.2
  | confirm number => exact (by decide : Spec.Channel.close ∉ [Spec.Basic.ack, Spec.Basic.nack])

namespace ChannelCore

variable {P : Promises Reply}

/-! `_pending` -/

theorem register_pending (id : Nat) (methods : List MethodSig)
    (pending : MethodSig → Option Nat) (m : MethodSig) :
    (register id methods pending).2 m = if m ∈ methods then some id else pending m := by
  induction methods generalizing pending with
  | nil => simp [register]
  | cons method methods ih =>
      simp only [register, ih, List.mem_cons]
      by_cases hmem : m ∈ methods
      · simp [hmem]
      · by_cases hm : m = method
        · simp [hm]
        · simp [hmem, hm]

theorem register_prev (id : Nat) {methods : List MethodSig} (h : methods.Nodup)
    (pending : MethodSig → Option Nat) : (register id methods pending).1 = methods.map pending := by
  induction methods generalizing pending with
  | nil => rfl
  | cons method methods ih =>
      rw [List.nodup_cons] at h
      simp only [register, ih h.2, List.map_cons]
      refine congrArg _ (List.map_congr_left fun m hm => ?_)
      rw [Function.update_of_ne]
      rintro rfl
      exact h.1 hm

/-- After `finally`, a method of the `wait` has its previous promise back, and every
other method what it had. -/
theorem restore_cases (entries : List (MethodSig × Option Nat))
    (pending : MethodSig → Option Nat) (m : MethodSig) :
    (m ∉ entries.map Prod.fst ∧ restore entries pending m = pending m) ∨
      (m, restore entries pending m) ∈ entries := by
  induction entries generalizing pending with
  | nil => exact .inl ⟨by simp, rfl⟩
  | cons entry entries ih =>
      obtain ⟨method, prev⟩ := entry
      simp only [restore]
      rcases ih (Function.update pending method prev) with ⟨hnot, heq⟩ | hmem
      · by_cases hm : m = method
        · subst hm
          right
          rw [heq, Function.update_self]
          simp
        · refine .inl ⟨by simpa [hm] using hnot, ?_⟩
          rw [heq, Function.update_of_ne hm]
      · exact .inr (by simp [hmem])

/-! Registered promises -/

/-- What the activations of a stack keep of promises belongs to waits below them. -/
def StackOk (waits : Nat → Waiting P) (created : Nat) : List Activation → Prop
  | [] => True
  | .wait id :: rest =>
      id < created ∧ (waits id).prev.length = (waits id).task.methods.length ∧
        (∀ entry ∈ (waits id).task.methods.zip (waits id).prev, ∀ other, entry.2 = some other →
          .wait other ∈ rest ∧ entry.1 ∈ (waits other).task.methods) ∧
        StackOk waits created rest
  | .dispatch (some (id, reply)) :: rest =>
      (.wait id ∈ rest ∧ reply.1 ∈ (waits id).task.methods) ∧ StackOk waits created rest
  | _ :: rest => StackOk waits created rest

structure RegisteredIn (pending : MethodSig → Option Nat) (waits : Nat → Waiting P)
    (created : Nat) (stack : List Activation) : Prop where
  live : ∀ m id, pending m = some id → .wait id ∈ stack ∧ m ∈ (waits id).task.methods
  stack : StackOk waits created stack

def Registered (k : ChannelCore P) : Prop :=
  RegisteredIn k.pending k.waits k.created k.stack

section Stack

variable {waits waits' : Nat → Waiting P} {created created' id : Nat} {stack rest : List Activation}
  {pending : MethodSig → Option Nat}

/-- A promise that is called leaves every `wait` its task and its methods' promises. -/
theorem update_promise (waits : Nat → Waiting P) (id : Nat) (promise : P.Promise) (other : Nat) :
    (Function.update waits id { waits id with promise } other).task = (waits other).task ∧
      (Function.update waits id { waits id with promise } other).prev = (waits other).prev := by
  by_cases hother : other = id
  · subst hother
    simp
  · simp [Function.update_of_ne hother]

theorem StackOk.tail {act : Activation} (h : StackOk waits created (act :: rest)) :
    StackOk waits created rest := by
  match act, h with
  | .wait _, h => exact h.2.2.2
  | .dispatch (some _), h => exact h.2
  | .dispatch none, h => exact h
  | .user, h => exact h
  | .publish _, h => exact h

theorem StackOk.lt (h : StackOk waits created stack) (hmem : .wait id ∈ stack) :
    id < created := by
  induction stack with
  | nil => simp at hmem
  | cons act rest ih =>
      rcases List.mem_cons.mp hmem with rfl | hrest
      · exact h.1
      · exact ih h.tail hrest

/-- A stack stays as good as it was when waits are created and promises change. -/
theorem StackOk.mono (h : StackOk waits created stack) (hcreated : created ≤ created')
    (hsame : ∀ id < created, (waits' id).task = (waits id).task ∧ (waits' id).prev = (waits id).prev) :
    StackOk waits' created' stack := by
  induction stack with
  | nil => trivial
  | cons act rest ih =>
      match act, h with
      | .wait id, ⟨hid, hlength, hprev, hrest⟩ =>
          obtain ⟨htask, hprevs⟩ := hsame id hid
          refine ⟨hid.trans_le hcreated, by rw [htask, hprevs, hlength], ?_, ih hrest⟩
          rw [htask, hprevs]
          intro entry hentry other hother
          obtain ⟨hmem, hmethod⟩ := hprev entry hentry other hother
          rw [(hsame other (hrest.lt hmem)).1]
          exact ⟨hmem, hmethod⟩
      | .dispatch (some (id, reply)), ⟨⟨hmem, hmethod⟩, hrest⟩ =>
          refine ⟨⟨hmem, ?_⟩, ih hrest⟩
          rwa [(hsame id (hrest.lt hmem)).1]
      | .dispatch none, h => exact ih h
      | .user, h => exact ih h
      | .publish _, h => exact ih h

/-- A listener that keeps a promise runs above the `wait` of that promise. -/
theorem StackOk.kept {reply : Reply} (h : StackOk waits created stack)
    (hmem : .dispatch (some (id, reply)) ∈ stack) :
    .wait id ∈ stack ∧ reply.1 ∈ (waits id).task.methods := by
  induction stack with
  | nil => simp at hmem
  | cons act rest ih =>
      rcases List.mem_cons.mp hmem with rfl | hrest
      · exact ⟨by simp [h.1.1], h.1.2⟩
      · obtain ⟨hwait, hmethod⟩ := ih h.tail hrest
        exact ⟨by simp [hwait], hmethod⟩

/-- An activation that is no `wait` comes or goes. -/
theorem RegisteredIn.push {act : Activation} (h : RegisteredIn pending waits created stack)
    (hok : StackOk waits created (act :: stack)) :
    RegisteredIn pending waits created (act :: stack) :=
  ⟨fun m id hm => ⟨by simp [(h.live m id hm).1], (h.live m id hm).2⟩, hok⟩

theorem RegisteredIn.pop {act : Activation} (h : RegisteredIn pending waits created (act :: rest))
    (hact : ∀ id, act ≠ .wait id) : RegisteredIn pending waits created rest := by
  refine ⟨fun m id hm => ⟨?_, (h.live m id hm).2⟩, h.stack.tail⟩
  exact (List.mem_cons.mp (h.live m id hm).1).resolve_left fun heq => hact id heq.symm

/-- A promise is taken out. -/
theorem RegisteredIn.take (h : RegisteredIn pending waits created stack) (m : MethodSig) :
    RegisteredIn (Function.update pending m none) waits created stack := by
  refine ⟨fun m' id hm => h.live m' id ?_, h.stack⟩
  by_cases hm' : m' = m
  · simp [hm'] at hm
  · rwa [Function.update_of_ne hm'] at hm

theorem beginWait_eq (task : Task) (k : ChannelCore P) :
    k.beginWait task = { k with
      pending := (register k.created task.methods k.pending).2
      waits := Function.update k.waits k.created
        { task, prev := task.methods.map k.pending, promise := P.make task.handler }
      created := k.created + 1
      stack := .wait k.created :: k.stack } := by
  rw [← register_prev k.created task.methods_nodup]
  rfl

@[simp] theorem beginWait_stack (task : Task) (k : ChannelCore P) :
    (k.beginWait task).stack = .wait k.created :: k.stack := (rfl)

@[simp] theorem beginWait_confirmSelected (task : Task) (k : ChannelCore P) :
    (k.beginWait task).confirmSelected = k.confirmSelected := (rfl)

@[simp] theorem beginWait_broker (task : Task) (k : ChannelCore P) :
    (k.beginWait task).broker = k.broker := (rfl)

@[simp] theorem beginWait_log (task : Task) (k : ChannelCore P) :
    (k.beginWait task).log = k.log := (rfl)

theorem Registered.beginWait {k : ChannelCore P} (h : k.Registered) (task : Task) :
    (k.beginWait task).Registered := by
  have hsame : ∀ id < k.created, ∀ waiting : Waiting P,
      (Function.update k.waits k.created waiting id).task = (k.waits id).task ∧
        (Function.update k.waits k.created waiting id).prev = (k.waits id).prev := by
    intro id hid waiting
    rw [Function.update_of_ne (by omega)]
    exact ⟨rfl, rfl⟩
  rw [Registered, beginWait_eq]
  refine ⟨fun m id hm => ?_, ⟨Nat.lt_succ_self _, ?_, ?_, ?_⟩⟩
  · simp only [register_pending] at hm
    by_cases hmem : m ∈ task.methods
    · rw [if_pos hmem] at hm
      obtain rfl := Option.some.inj hm
      simp [hmem]
    · rw [if_neg hmem] at hm
      obtain ⟨hlive, hmethod⟩ := h.live m id hm
      rw [(hsame id (h.stack.lt hlive) _).1]
      exact ⟨by simp [hlive], hmethod⟩
  · simp only [Function.update_self, List.length_map]
  · simp only [Function.update_self, ← List.map_prod_left_eq_zip, List.mem_map]
    rintro entry ⟨m, hm, rfl⟩ other hother
    obtain ⟨hlive, hmethod⟩ := h.live _ _ hother
    rw [(hsame other (h.stack.lt hlive) _).1]
    exact ⟨hlive, hmethod⟩
  · exact h.stack.mono (Nat.le_succ _) fun id hid => hsame id hid _

/-- `wait` ends: its own promise is out of `_pending`. -/
theorem RegisteredIn.leave (h : RegisteredIn pending waits created (.wait id :: rest)) :
    RegisteredIn (restore ((waits id).task.methods.zip (waits id).prev) pending) waits created
      rest := by
  obtain ⟨-, hlength, hprev, hrest⟩ := h.stack
  refine ⟨fun m other hm => ?_, hrest⟩
  rcases restore_cases ((waits id).task.methods.zip (waits id).prev) pending m with
    ⟨hnot, heq⟩ | hmem
  · rw [heq] at hm
    obtain ⟨hlive, hmethod⟩ := h.live m other hm
    refine ⟨(List.mem_cons.mp hlive).resolve_left ?_, hmethod⟩
    rintro heq'
    obtain rfl : other = id := by simpa using heq'
    rw [List.map_fst_zip hlength.ge] at hnot
    exact hnot hmethod
  · exact hprev _ hmem other hm

/-- A method takes its promise out of `_pending`, and its listener keeps it. -/
theorem RegisteredIn.dispatch (h : RegisteredIn pending waits created stack) (m : MethodSig)
    (args : List Arg) :
    RegisteredIn (Function.update pending m none) waits created
      (.dispatch ((pending m).map fun id => (id, (m, args))) :: stack) := by
  refine (h.take m).push ?_
  cases hm : pending m with
  | none => exact h.stack
  | some id => exact ⟨h.live m id hm, h.stack⟩

/-- Calling a promise changes nothing but the promise. -/
theorem RegisteredIn.call (h : RegisteredIn pending waits created stack) (id : Nat)
    (promise : P.Promise) :
    RegisteredIn pending (Function.update waits id { waits id with promise }) created stack := by
  refine ⟨fun m other hm => ?_, h.stack.mono (Nat.le_refl _) fun other _ => update_promise ..⟩
  rw [(update_promise ..).1]
  exact h.live m other hm

end Stack

/-- A message is sent: its `publish` is gone, and nothing waits for its confirm yet. -/
theorem Registered.publish {k : ChannelCore P} {rest : List Activation} {broker : Broker}
    (h : k.Registered) (hstack : k.stack = .publish false :: rest) :
    Registered { k with stack := rest, broker } := by
  unfold Registered at h
  rw [hstack] at h
  exact h.pop (by simp)

/-- Every move keeps the promises registered. -/
theorem Registered.move {cfg : Config} {s : Channel P} {event : Event} {k : ChannelCore P}
    {control : Control} (h : s.toChannelCore.Registered)
    (hmove : Channel.Move cfg s event k control) : k.Registered := by
  have hkeeps := h
  unfold Registered at h
  cases hmove with
  | stay | fails | publishRefused | selectRefused | ignores => exact h
  | foreign => exact RegisteredIn.push (h.push h.stack) h.stack
  | startsPublish => exact h.push h.stack
  | userReturns hstack | userRaises _ hstack | listenerReturns hstack | listenerRaises hstack
    | publishRaises hstack =>
      rw [hstack] at h
      exact h.pop (by simp)
  | drained hstack =>
      rw [hstack] at h
      exact (h.pop (by simp)).push h.stack
  | calls hstack =>
      rw [hstack] at h
      exact (h.pop (by simp)).call _ _
  | leaves hstack hended hfollows =>
      rw [hstack] at h
      cases hfollows with
      | selected => exact h.leave.push h.leave.stack
      | _ => exact h.leave
  | publishes hstack => exact (hkeeps.publish hstack).beginWait _
  | asks => exact Registered.beginWait (k := { s with broker := _ }) h _
  | selects =>
      have hask : Registered { s.toChannelCore with
          confirmSelected := true, broker := s.broker.ask .confirmSelect } := h
      exact hask.beginWait _
  | takes => exact h.take _
  | listens _ _ hacts =>
      obtain rfl | rfl := hacts
      · exact h.dispatch _ _
      · exact (h.dispatch _ _).push (h.dispatch _ _).stack
  | reopens =>
      exact Registered.beginWait (k := { s with broker := _, pending := _, stack := _ })
        (h.dispatch _ _) _

end ChannelCore

end PyAmqp
