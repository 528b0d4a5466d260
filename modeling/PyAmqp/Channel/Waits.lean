import PyAmqp.Channel.AbstractChannel

/-!
What calls of `wait` leave in `_pending`. However they nest, and however they end, each
puts back what its methods had, and takes nothing else but what a dispatch has popped.
-/

namespace PyAmqp

namespace AbstractChannel

variable {cls : ChannelClass} {decode : Message → Message} {s s' : AbstractChannel}

/-- A table that has only lost entries of another one. -/
def Below (pending pending' : MethodSig → Option Nat) : Prop :=
  ∀ m, pending m = pending' m ∨ pending m = none

theorem Below.refl (pending : MethodSig → Option Nat) : Below pending pending := fun _ => .inl rfl

theorem Below.trans {first second third : MethodSig → Option Nat} (h : Below first second)
    (h' : Below second third) : Below first third := by
  intro m
  rcases h m with heq | hnone
  · rw [heq]
    exact h' m
  · exact .inr hnone

theorem Below.take (pending : MethodSig → Option Nat) (m : MethodSig) :
    Below (Function.update pending m none) pending := by
  intro m'
  by_cases hm : m' = m
  · exact .inr (by rw [hm, Function.update_self])
  · exact .inl (Function.update_of_ne hm _ _)

/-! One step -/

/-- A `wait` on `call`, with the promise and the table it begins with. -/
def Wait.begin (call : WaitCall) (promise : Nat) (pending : MethodSig → Option Nat) : Wait :=
  { call with
    promise
    prev := (ChannelCore.register promise call.methods pending).1
    entered := pending }

/-- What a step does to the table, the stack and the waits that have ended. -/
inductive Move (event : Event) (s s' : AbstractChannel) : Prop
  | same : s'.pending = s.pending → s'.stack = s.stack → s'.ended = s.ended → Move event s s'
  | take (m : MethodSig) : s'.pending = Function.update s.pending m none →
      s'.stack = s.stack → s'.ended = s.ended → Move event s s'
  | dispatch (m : MethodSig) (args : List Arg) (listener : List Activation) :
      s'.pending = Function.update s.pending m none → (∀ act ∈ listener, act = .user) →
      s'.stack = listener ++
        .dispatch ((s.pending m).map fun id => (id, (m, args))) :: s.stack →
      s'.ended = s.ended → Move event s s'
  | enter : s'.pending = s.pending → s'.stack = .user :: s.stack → s'.ended = s.ended →
      Move event s s'
  | leave (act : Activation) : s'.pending = s.pending → s.stack = act :: s'.stack →
      (∀ wait, act ≠ .wait wait) → s'.ended = s.ended → Move event s s'
  | fulfil (id : Nat) (reply : Reply) (rest : List Activation) : s'.pending = s.pending →
      s.stack = .dispatch (some (id, reply)) :: rest →
      s'.stack = .user :: .callback id :: rest → s'.ended = s.ended → Move event s s'
  | begin (call : WaitCall) (promise : Nat) : event = .wait call →
      s'.pending = (ChannelCore.register promise call.methods s.pending).2 →
      s'.stack = .wait (.begin call promise s.pending) :: s.stack → s'.ended = s.ended → Move event s s'
  | finish (wait : Wait) (result : Except PyError Returned) :
      s'.pending = ChannelCore.restore (wait.methods.zip wait.prev) s.pending →
      s.stack = .wait wait :: s'.stack → s'.ended = s.ended ++ [⟨wait, s'.pending, result⟩] →
      Move event s s'

theorem beginWait_move (call : WaitCall) (s : AbstractChannel) :
    ∃ promise,
      (beginWait call s).pending = (ChannelCore.register promise call.methods s.pending).2 ∧
      (beginWait call s).stack = .wait (.begin call promise s.pending) :: s.stack ∧
      (beginWait call s).ended = s.ended := by
  cases hcallback : call.callback <;>
    exact ⟨_, by simp only [beginWait, ensurePromise, hcallback]; rfl,
      by simp only [beginWait, ensurePromise, hcallback]; rfl,
      by simp only [beginWait, ensurePromise, hcallback]; rfl⟩

theorem leaveWait_move {event : Event} {wait : Wait} {rest : List Activation} (outcome : Except PyError Unit)
    (hstack : s.stack = .wait wait :: rest) :
    Move event s (leaveWait wait outcome { s with stack := rest }) :=
  .finish wait _ rfl hstack rfl

theorem fulfil_move {event : Event} {oneShot : Option (Nat × Reply)} {rest : List Activation}
    (hstack : s.stack = .dispatch oneShot :: rest) :
    Move event s (fulfil oneShot { s with stack := rest }) := by
  match oneShot, hstack with
  | none, hstack => exact .leave _ rfl hstack (by simp) rfl
  | some (id, reply), hstack =>
      simp only [fulfil]
      split
      · exact .fulfil id reply rest rfl hstack rfl rfl
      · exact .leave _ rfl hstack (by simp) rfl

theorem go_move (event : Event) (s : AbstractChannel) : Move event s (go s) := by
  unfold go
  split
  next => exact .same rfl rfl rfl
  next hstack _ => exact fulfil_move hstack
  next hstack _ => exact .leave _ rfl hstack (by simp) rfl
  next hstack _ => exact .leave _ rfl hstack (by simp) rfl
  next hstack _ => exact .leave _ rfl hstack (by simp) rfl
  next hstack _ =>
    split_ifs
    · exact leaveWait_move _ hstack
    · exact .same rfl rfl rfl
    · exact leaveWait_move _ hstack
  next hstack _ => exact leaveWait_move _ hstack
  next => exact .same rfl rfl rfl

theorem dispatchMethod_move (event : Event) (m : Inbound) (s : AbstractChannel) :
    Move event s (dispatchMethod cls decode m s) := by
  unfold dispatchMethod
  split
  next => exact .same rfl rfl rfl
  next =>
    cases cls.findMethod m.methodSig with
    | error e => exact .same rfl rfl rfl
    | ok method =>
        dsimp only
        split
        next => exact .take m.methodSig rfl rfl rfl
        next =>
          cases m.args decode method with
          | error e => exact .take m.methodSig rfl rfl rfl
          | ok args =>
              dsimp only
              split
              · exact .dispatch m.methodSig args [.user] rfl (by simp) rfl rfl
              · exact .dispatch m.methodSig args [] rfl (by simp) rfl rfl

theorem step_move (s : AbstractChannel) (event : Event) : Move event s (step cls decode s event) := by
  have hleave : s.Idle → ∀ control, Move event s (goOn control { s with stack := s.stack.tail }) := by
    intro hidle control
    obtain ⟨act, rest, hstack⟩ := List.exists_cons_of_ne_nil (l := s.stack)
      (by intro hnil; simp [Idle, hnil] at hidle)
    refine .leave act rfl (by simp [goOn, hstack]) ?_ rfl
    rintro wait rfl
    simp [Idle, hstack, Activation.isUser] at hidle
  cases event with
  | go => exact go_move _ s
  | wait call =>
      simp only [step]
      split
      · obtain ⟨promise, hpending, hstack, hended⟩ := beginWait_move call s
        exact .begin call promise rfl hpending hstack hended
      · exact .same rfl rfl rfl
  | «return» =>
      simp only [step]
      split
      next h => exact hleave h.1 _
      next => exact .same rfl rfl rfl
  | raise e =>
      simp only [step]
      split
      next h => exact hleave h.1 _
      next => exact .same rfl rfl rfl
  | assign callbacks isClosing attached => exact .same rfl rfl rfl
  | settle id p => exact .same rfl rfl rfl
  | deliver m =>
      simp only [step]
      split
      · exact dispatchMethod_move _ m s
      · exact .same rfl rfl rfl
  | foreign =>
      simp only [step]
      split
      · exact .enter rfl rfl rfl
      · exact .same rfl rfl rfl
  | quiet =>
      simp only [step]
      split <;> exact .same rfl rfl rfl
  | fail e =>
      simp only [step]
      split <;> exact .same rfl rfl rfl

/-! `finally` -/

/-- The locals of a `wait` are those it began with. -/
def Begun (wait : Wait) : Prop := wait = .begin wait.toWaitCall wait.promise wait.entered

/-- A `wait` on distinct methods puts back what each of them had. -/
theorem Begun.restore {wait : Wait} (h : Begun wait) (hnodup : wait.methods.Nodup)
    (pending : MethodSig → Option Nat) (m : MethodSig) :
    ChannelCore.restore (wait.methods.zip wait.prev) pending m =
      if m ∈ wait.methods then wait.entered m else pending m := by
  have hprev : wait.prev = wait.methods.map wait.entered := by
    rw [h]
    exact ChannelCore.register_prev wait.promise hnodup wait.entered
  rw [hprev, ← List.map_prod_left_eq_zip]
  rcases ChannelCore.restore_cases (wait.methods.map fun m => (m, wait.entered m)) pending m with
    ⟨hnot, heq⟩ | hmem
  · have hnot' : m ∉ wait.methods := by simpa using hnot
    rw [heq, if_neg hnot']
  · obtain ⟨m', hm', hentry⟩ := List.mem_map.mp hmem
    obtain ⟨rfl, hvalue⟩ := Prod.mk.inj hentry
    rw [if_pos hm', ← hvalue]

/-- What the `finally` leaves, if only the promise of the `wait` came to the table it was
called with. -/
theorem Begun.below {wait : Wait} (h : Begun wait) (hnodup : wait.methods.Nodup)
    {pending : MethodSig → Option Nat}
    (hbelow : Below pending (ChannelCore.register wait.promise wait.methods wait.entered).2) :
    Below (ChannelCore.restore (wait.methods.zip wait.prev) pending) wait.entered := by
  intro m
  rw [h.restore hnodup]
  split
  next => exact .inl rfl
  next hm =>
    rcases hbelow m with heq | hnone
    · rw [heq, ChannelCore.register_pending, if_neg hm]
      exact .inl rfl
    · exact .inr hnone

/-! Nesting -/

def Awaits (stack : List Activation) (id : Nat) : Prop :=
  ∃ wait, .wait wait ∈ stack ∧ wait.promise = id

/-- A promise of a `wait` in progress, or one that was there at first. -/
def Live (first : MethodSig → Option Nat) (stack : List Activation) (id : Nat) : Prop :=
  (∃ m, first m = some id) ∨ Awaits stack id

theorem Live.cons {first : MethodSig → Option Nat} {stack : List Activation} {id : Nat}
    (h : Live first stack id) (act : Activation) : Live first (act :: stack) id := by
  rcases h with hfirst | ⟨wait, hmem, hpromise⟩
  · exact .inl hfirst
  · exact .inr ⟨wait, List.mem_cons_of_mem _ hmem, hpromise⟩

/-- Above a `wait` the table has lost entries of the one it began with, and below it of the
one it was called with. -/
def Nested (first : MethodSig → Option Nat) :
    List Activation → (MethodSig → Option Nat) → Prop
  | [], pending => Below pending first
  | .wait wait :: rest, pending =>
      wait.methods.Nodup ∧
        Below pending (ChannelCore.register wait.promise wait.methods wait.entered).2 ∧
        Nested first rest wait.entered
  | .dispatch (some (id, _)) :: rest, pending => Live first rest id ∧ Nested first rest pending
  | .callback id :: rest, pending => Live first rest id ∧ Nested first rest pending
  | _ :: rest, pending => Nested first rest pending

section Nested

variable {first pending pending' : MethodSig → Option Nat} {rest stack : List Activation}

theorem Nested.mono (h : Nested first stack pending) (hbelow : Below pending' pending) :
    Nested first stack pending' := by
  induction stack with
  | nil => exact hbelow.trans h
  | cons act rest ih =>
      match act, h with
      | .wait wait, ⟨hnodup, hregistered, hrest⟩ => exact ⟨hnodup, hbelow.trans hregistered, hrest⟩
      | .dispatch (some (id, _)), ⟨hlive, hrest⟩ => exact ⟨hlive, ih hrest⟩
      | .dispatch none, h => exact ih h
      | .callback id, ⟨hlive, hrest⟩ => exact ⟨hlive, ih hrest⟩
      | .user, h => exact ih h

theorem Nested.leave {act : Activation} (h : Nested first (act :: rest) pending)
    (hact : ∀ wait, act ≠ .wait wait) : Nested first rest pending := by
  match act, h with
  | .wait wait, _ => exact absurd rfl (hact wait)
  | .dispatch (some _), h => exact h.2
  | .dispatch none, h => exact h
  | .callback _, h => exact h.2
  | .user, h => exact h

/-- A promise in the table is live. -/
theorem Nested.live (h : Nested first stack pending) {m : MethodSig} {id : Nat}
    (hm : pending m = some id) : Live first stack id := by
  induction stack generalizing pending with
  | nil =>
      rcases h m with heq | hnone
      · exact .inl ⟨m, heq ▸ hm⟩
      · simp [hnone] at hm
  | cons act rest ih =>
      match act, h with
      | .wait wait, ⟨_, hregistered, hrest⟩ =>
          rcases hregistered m with heq | hnone
          · rw [heq, ChannelCore.register_pending] at hm
            split at hm
            · exact .inr ⟨wait, List.mem_cons_self, Option.some.inj hm⟩
            · exact (ih hrest hm).cons _
          · simp [hnone] at hm
      | .dispatch (some _), h => exact (ih h.2 hm).cons _
      | .dispatch none, h => exact (ih h hm).cons _
      | .callback _, h => exact (ih h.2 hm).cons _
      | .user, h => exact (ih h hm).cons _

/-- With no `wait` in progress, the table has lost entries of the first one. -/
theorem Nested.below (h : Nested first stack pending) (hnone : ∀ wait, .wait wait ∉ stack) :
    Below pending first := by
  induction stack with
  | nil => exact h
  | cons act rest ih =>
      have hrest : ∀ wait, .wait wait ∉ rest := fun wait hmem =>
        hnone wait (List.mem_cons_of_mem _ hmem)
      exact ih (h.leave fun wait hact => hnone wait (hact ▸ List.mem_cons_self)) hrest

end Nested

/-- A promise that can still be called: it is in the table, or a dispatch has popped it. -/
def Reached (s : AbstractChannel) (id : Nat) : Prop :=
  (∃ m, s.pending m = some id) ∨ (∃ reply, .dispatch (some (id, reply)) ∈ s.stack) ∨
    .callback id ∈ s.stack

theorem Nested.held {first pending : MethodSig → Option Nat} {stack : List Activation}
    (h : Nested first stack pending) {act : Activation} (hmem : act ∈ stack) {id : Nat}
    (hact : act = .callback id ∨ ∃ reply, act = .dispatch (some (id, reply))) :
    Live first stack id := by
  induction stack generalizing pending with
  | nil => simp at hmem
  | cons top rest ih =>
      rcases List.mem_cons.mp hmem with rfl | hrest
      · rcases hact with rfl | ⟨reply, rfl⟩
        · exact h.1.cons _
        · exact h.1.cons _
      · match top, h with
        | .wait _, h => exact (ih h.2.2 hrest).cons _
        | .dispatch (some _), h => exact (ih h.2 hrest).cons _
        | .dispatch none, h => exact (ih h hrest).cons _
        | .callback _, h => exact (ih h.2 hrest).cons _
        | .user, h => exact (ih h hrest).cons _

theorem Nested.reached {first : MethodSig → Option Nat} (h : Nested first s.stack s.pending)
    {id : Nat} (hreached : Reached s id) : Live first s.stack id := by
  rcases hreached with ⟨m, hm⟩ | ⟨reply, hmem⟩ | hmem
  · exact h.live hm
  · exact h.held hmem (.inr ⟨reply, rfl⟩)
  · exact h.held hmem (.inl rfl)

/-! Invariants -/

/-- The methods of a `wait` that has ended had what they had at its call. -/
structure Restores (s : AbstractChannel) : Prop where
  begun : ∀ wait, .wait wait ∈ s.stack → Begun wait
  ended : ∀ x ∈ s.ended, x.wait.methods.Nodup → ∀ m ∈ x.wait.methods, x.left m = x.wait.entered m

theorem Restores.of_stack (h : Restores s) (hstack : ∀ wait, .wait wait ∈ s'.stack →
    .wait wait ∈ s.stack) (hended : s'.ended = s.ended) : Restores s' :=
  ⟨fun wait hmem => h.begun wait (hstack wait hmem), hended ▸ h.ended⟩

theorem Restores.move {event : Event} (h : Restores s) (hmove : Move event s s') :
    Restores s' := by
  cases hmove with
  | same _ hstack hended => exact h.of_stack (by simp [hstack]) hended
  | take m _ hstack hended => exact h.of_stack (by simp [hstack]) hended
  | dispatch m args listener _ huser hstack hended =>
      refine h.of_stack (fun wait hmem => ?_) hended
      rw [hstack, List.mem_append, List.mem_cons] at hmem
      rcases hmem with hmem | hmem | hmem
      · cases huser _ hmem
      · cases hmem
      · exact hmem
  | enter _ hstack hended => exact h.of_stack (by simp [hstack]) hended
  | leave act _ hstack _ hended =>
      exact h.of_stack (fun wait hmem => hstack ▸ List.mem_cons_of_mem _ hmem) hended
  | fulfil id reply rest _ hstack hstack' hended =>
      exact h.of_stack (by simp [hstack, hstack']) hended
  | begin call promise _ _ hstack hended =>
      refine ⟨fun wait hmem => ?_, hended ▸ h.ended⟩
      rw [hstack] at hmem
      rcases List.mem_cons.mp hmem with heq | hrest
      · obtain rfl := Activation.wait.inj heq
        rfl
      · exact h.begun wait hrest
  | finish wait result hpending hstack hended =>
      refine ⟨fun wait' hmem => h.begun wait' (hstack ▸ List.mem_cons_of_mem _ hmem), ?_⟩
      rw [hended]
      intro x hx hnodup m hm
      rcases List.mem_append.mp hx with hx | hx
      · exact h.ended x hx hnodup m hm
      · obtain rfl := List.mem_singleton.mp hx
        have hbegun := h.begun wait (by simp [hstack])
        simp only [hpending, hbegun.restore hnodup, if_pos hm]

/-- Besides, every `wait` has kept to its nesting, where all are on distinct methods. -/
structure Orderly (first : MethodSig → Option Nat) (s : AbstractChannel) : Prop
    extends Restores s where
  nested : Nested first s.stack s.pending
  below : ∀ x ∈ s.ended, Below x.left x.wait.entered

theorem Orderly.move {first : MethodSig → Option Nat} {event : Event} (h : Orderly first s)
    (hdistinct : ∀ call, event = .wait call → call.methods.Nodup) (hmove : Move event s s') :
    Orderly first s' := by
  refine ⟨h.toRestores.move hmove, ?_, ?_⟩
  · have hnested := h.nested
    cases hmove with
    | same hpending hstack => rwa [hpending, hstack]
    | take m hpending hstack =>
        rw [hpending, hstack]
        exact hnested.mono (.take _ m)
    | dispatch m args listener hpending huser hstack =>
        have hpopped : Nested first (.dispatch ((s.pending m).map fun id => (id, (m, args))) ::
            s.stack) s'.pending := by
          rw [hpending]
          cases hm : s.pending m with
          | none => exact hnested.mono (.take _ m)
          | some id => exact ⟨hnested.live hm, hnested.mono (.take _ m)⟩
        rw [hstack]
        clear hstack
        induction listener with
        | nil => exact hpopped
        | cons act listener ih =>
            obtain rfl := huser act (by simp)
            exact ih fun act' hmem => huser act' (by simp [hmem])
    | enter hpending hstack =>
        rw [hpending, hstack]
        exact hnested
    | leave act hpending hstack hact =>
        rw [hstack] at hnested
        rw [hpending]
        exact hnested.leave hact
    | fulfil id reply rest hpending hstack hstack' =>
        rw [hstack] at hnested
        rw [hpending, hstack']
        exact hnested
    | begin call promise hevent hpending hstack =>
        rw [hpending, hstack]
        exact ⟨hdistinct call hevent, .refl _, hnested⟩
    | finish wait result hpending hstack =>
        rw [hstack] at hnested
        rw [hpending]
        exact hnested.2.2.mono ((h.begun wait (by simp [hstack])).below hnested.1 hnested.2.1)
  · have hended := h.below
    cases hmove with
    | finish wait result hpending hstack hlog =>
        have hnested := h.nested
        rw [hstack] at hnested
        rw [hlog]
        intro x hx
        rcases List.mem_append.mp hx with hx | hx
        · exact hended x hx
        · obtain rfl := List.mem_singleton.mp hx
          rw [hpending]
          exact (h.begun wait (by simp [hstack])).below hnested.1 hnested.2.1
    | same _ _ hlog => exact hlog ▸ hended
    | take _ _ _ hlog => exact hlog ▸ hended
    | dispatch _ _ _ _ _ _ hlog => exact hlog ▸ hended
    | enter _ _ hlog => exact hlog ▸ hended
    | leave _ _ _ _ hlog => exact hlog ▸ hended
    | fulfil _ _ _ _ _ _ hlog => exact hlog ▸ hended
    | begin _ _ _ _ _ hlog => exact hlog ▸ hended

theorem Restores.run (h : Restores s) (events : List Event) :
    Restores (events.foldl (step cls decode) s) := by
  induction events generalizing s with
  | nil => exact h
  | cons event events ih => exact ih (h.move (step_move s event))

theorem Orderly.run {first : MethodSig → Option Nat} (h : Orderly first s) {events : List Event}
    (hdistinct : ∀ call, Event.wait call ∈ events → call.methods.Nodup) :
    Orderly first (events.foldl (step cls decode) s) := by
  induction events generalizing s with
  | nil => exact h
  | cons event events ih =>
      refine ih (h.move ?_ (step_move s event)) fun call hcall => hdistinct call (by simp [hcall])
      rintro call rfl
      exact hdistinct call (by simp)

theorem orderly_first (first : MethodSig → Option Nat) : Orderly first { pending := first } :=
  ⟨⟨by simp, by simp⟩, Below.refl first, by simp⟩

/-- However waits nest and end, one on distinct methods leaves every method of it what it
had at the call. If all are on distinct methods, one leaves no entry that was not there at
the call, none is left of those in a run that has no `wait` in progress, and a promise that
can be called is that of a `wait` in progress, or was there at first. -/
theorem wait_restores (cls : ChannelClass) (decode : Message → Message)
    (first : MethodSig → Option Nat) (events : List Event) :
    (∀ x ∈ (run cls decode first events).ended, x.wait.methods.Nodup →
      ∀ m ∈ x.wait.methods, x.left m = x.wait.entered m) ∧
    ((∀ call, Event.wait call ∈ events → call.methods.Nodup) →
      (∀ x ∈ (run cls decode first events).ended, Below x.left x.wait.entered) ∧
      ((∀ wait, .wait wait ∉ (run cls decode first events).stack) →
        Below (run cls decode first events).pending first) ∧
      ∀ id, Reached (run cls decode first events) id →
        Live first (run cls decode first events).stack id) := by
  have hfirst := orderly_first first
  refine ⟨(hfirst.toRestores.run events).ended, fun hdistinct => ?_⟩
  have horderly : Orderly first (run cls decode first events) := hfirst.run hdistinct
  exact ⟨horderly.below, horderly.nested.below, fun id => horderly.nested.reached⟩

/-- Code that runs in the drain of a `wait` waits for the same method, and times out. -/
theorem wait_restores_nested :
    let events : List Event :=
      [.wait { methods := [Spec.Queue.declareOk] }, .go, .foreign,
        .wait { methods := [Spec.Basic.qosOk, Spec.Queue.declareOk] }, .go, .fail .socketTimeout,
        .go, .go, .return, .go, .fail .socketTimeout, .go]
    let s := run channelClass id (fun _ => none) events
    s.ended.length = 2 ∧ Below s.pending fun _ => none := by
  intro events s
  refine ⟨by decide, ?_⟩
  have hrun := (wait_restores channelClass id (fun _ => none) events).2 ?_
  · refine hrun.2.1 ?_
    have hstack : s.stack.all Activation.isUser = true := by decide
    intro wait hmem
    simpa [Activation.isUser] using List.all_eq_true.mp hstack _ hmem
  · simp only [events, List.mem_cons, reduceCtorEq, Event.wait.injEq, List.not_mem_nil, or_false,
      false_or]
    rintro call (rfl | rfl) <;> decide

end AbstractChannel

end PyAmqp
