import PyAmqp.Connection.ChannelIds

/-!
What the promises of `wait` say in every run: a promise in `_pending`, or kept by a
listener, is that of a call of `wait` of the same object for that method; and when the
promise of a `close` is ready, the object that closes no longer has its connection.
-/

namespace PyAmqp

namespace ChannelCore

/-- What `wait` puts back for a method is what was registered, or its own promise where
the method is given twice. -/
theorem register_prev_cases (id : Nat) (methods : List MethodSig)
    (pending : MethodSig → Option Nat) :
    ∀ entry ∈ methods.zip (register id methods pending).1,
      entry.2 = pending entry.1 ∨ entry.2 = some id := by
  induction methods generalizing pending with
  | nil => simp [register]
  | cons method methods ih =>
      intro entry hentry
      rcases List.mem_cons.mp hentry with rfl | hrest
      · exact .inl rfl
      · obtain heq | heq := ih _ entry hrest
        · by_cases hm : entry.1 = method
          · exact .inr (by rw [heq, hm, Function.update_self])
          · exact .inl (by rw [heq, Function.update_of_ne hm])
        · exact .inr heq

end ChannelCore

namespace Connection

variable {P : Promises Reply}

/-! Objects keep losing their connection -/

namespace Registry

/-- Objects are made, and none that is there gets its connection back. -/
structure Later (r r' : Registry) : Prop where
  created : r.created ≤ r'.created
  attached : ∀ o < r.created, r.attached o = false → r'.attached o = false

theorem Later.refl (r : Registry) : r.Later r := ⟨Nat.le_refl _, fun _ _ h => h⟩

theorem Later.trans {r r' r'' : Registry} (h : r.Later r') (h' : r'.Later r'') : r.Later r'' :=
  ⟨h.created.trans h'.created, fun o ho hattached =>
    h'.attached o (ho.trans_le h.created) (h.attached o ho hattached)⟩

theorem update_attached {attached : Nat → Bool} {o o' : Nat} (h : attached o' = false) :
    Function.update attached o false o' = false := by
  by_cases ho : o' = o
  · rw [ho, Function.update_self]
  · rw [Function.update_of_ne ho, h]

theorem collectChannel_attached (r : Registry) (o : Nat) :
    (r.collectChannel o).attached = Function.update r.attached o false ∧
      (r.collectChannel o).created = r.created := by
  unfold collectChannel
  split <;> exact ⟨rfl, rfl⟩

theorem collectChannel_later (r : Registry) (o : Nat) : r.Later (r.collectChannel o) := by
  obtain ⟨hattached, hcreated⟩ := r.collectChannel_attached o
  exact ⟨hcreated.ge, fun o' _ h => by rw [hattached, update_attached h]⟩

theorem collect_later (r : Registry) : r.Later r.collect := by
  have hfold : ∀ (objects : List Nat) (r : Registry),
      r.Later (objects.foldl Registry.collectChannel r) := by
    intro objects
    induction objects with
    | nil => exact .refl
    | cons o objects ih => exact fun r => (r.collectChannel_later o).trans (ih _)
  obtain ⟨hcreated, hattached⟩ := hfold r.others r
  exact ⟨hcreated, fun o ho h => update_attached (hattached o ho h)⟩

theorem collect_attached (r : Registry) : r.collect.attached 0 = false := by
  simp [collect]

theorem Op.later {detaches : Nat → Prop} {r r' : Registry} (h : r.Op detaches r') :
    r.Later r' := by
  cases h with
  | same => exact .refl _
  | tunes channelMax => exact ⟨Nat.le_refl _, fun _ _ h => h⟩
  | issues =>
      refine ⟨Nat.le_succ _, fun o ho h => ?_⟩
      simp only [issue, register, Function.update_of_ne ho.ne, h]
  | collectsChannel => exact r.collectChannel_later _
  | detaches => exact ⟨Nat.le_refl _, fun _ _ h => update_attached h⟩
  | collects => exact r.collect_later

end Registry

/-! Promises -/

structure Promised (r : Registry) (k : Calls P) : Prop where
  owner : ∀ id < k.begun, (k.waits id).owner < r.created
  connection : ∀ id < k.begun, ∀ t, (k.waits id).task = .closeConnection t →
    (k.waits id).owner = 0
  channel : ∀ id < k.begun, (k.waits id).task = .closeChannel → (k.waits id).owner ≠ 0
  pending : ∀ o m id, k.pending o m = some id →
    id < k.begun ∧ (k.waits id).owner = o ∧ m ∈ (k.waits id).task.methods
  prev : ∀ id < k.begun, ∀ entry ∈ (k.waits id).task.methods.zip (k.waits id).prev,
    ∀ other, entry.2 = some other → other < k.begun ∧
      (k.waits other).owner = (k.waits id).owner ∧ entry.1 ∈ (k.waits other).task.methods
  stack : ∀ id, .wait id ∈ k.stack → id < k.begun
  kept : ∀ id reply, .dispatch (some (id, reply)) ∈ k.stack →
    id < k.begun ∧ ((k.waits id).task.closes = true → r.attached (k.waits id).owner = false)
  ready : ∀ id < k.begun, (k.waits id).task.closes = true →
    P.ready (k.waits id).promise = true → r.attached (k.waits id).owner = false

namespace Promised

variable {r r' : Registry} {k : Calls P}

theorem later (h : Promised r k) (hlater : r.Later r') : Promised r' k where
  owner id hid := (h.owner id hid).trans_le hlater.created
  connection := h.connection
  channel := h.channel
  pending := h.pending
  prev := h.prev
  stack := h.stack
  kept id reply hmem := by
    obtain ⟨hid, hclosed⟩ := h.kept id reply hmem
    exact ⟨hid, fun hcloses => hlater.attached _ (h.owner id hid) (hclosed hcloses)⟩
  ready id hid hcloses hready :=
    hlater.attached _ (h.owner id hid) (h.ready id hid hcloses hready)

theorem setClosing (h : Promised r k) (o : Nat) (closing : Bool) :
    Promised r (k.setClosing o closing) :=
  ⟨h.owner, h.connection, h.channel, h.pending, h.prev, h.stack, h.kept, h.ready⟩

theorem pop (h : Promised r k) : Promised r k.pop :=
  ⟨h.owner, h.connection, h.channel, h.pending, h.prev,
    fun id hid => h.stack id (List.mem_of_mem_tail hid),
    fun id reply hmem => h.kept id reply (List.mem_of_mem_tail hmem), h.ready⟩

/-- Code of the user, or `connect`, comes on top. -/
theorem push (h : Promised r k) {act : Activation} (hact : act = .user ∨ act = .connecting) :
    Promised r (k.push act) := by
  refine ⟨h.owner, h.connection, h.channel, h.pending, h.prev, fun id hid => ?_,
    fun id reply hmem => ?_, h.ready⟩
  · refine h.stack id ((List.mem_cons.mp hid).resolve_left ?_)
    rintro rfl
    simp at hact
  · refine h.kept id reply ((List.mem_cons.mp hmem).resolve_left ?_)
    rintro rfl
    simp at hact

theorem take (h : Promised r k) (o : Nat) (sig : MethodSig) : Promised r (k.take o sig) := by
  refine ⟨h.owner, h.connection, h.channel, fun o' m id hm => h.pending o' m id ?_, h.prev,
    h.stack, h.kept, h.ready⟩
  by_cases ho : o' = o
  · subst ho
    by_cases hm' : m = sig
    · simp [Calls.take, hm'] at hm
    · simpa [Calls.take, hm'] using hm
  · simpa [Calls.take, ho] using hm

/-- A listener keeps the promise of the method; if that is a `close`, its object has
lost the connection. -/
theorem hears (h : Promised r k) {o : Nat} {m : Inbound} (args : List Arg)
    (hclosed : ∀ id, (k.waits id).task.closes = true → m.methodSig ∈ (k.waits id).task.methods →
      r.attached o = false) :
    Promised r (k.hears o m args) := by
  have htake := h.take o m.methodSig
  refine ⟨h.owner, h.connection, h.channel, htake.pending, h.prev, fun id hid => ?_,
    fun id reply hmem => ?_, h.ready⟩
  · exact h.stack id (by simpa [Calls.hears, Calls.push, Calls.take] using hid)
  · rcases List.mem_cons.mp hmem with heq | hmem
    · simp only [Activation.dispatch.injEq] at heq
      obtain ⟨id', hpending, hid⟩ := Option.map_eq_some_iff.mp heq.symm
      obtain rfl : id' = id := congrArg Prod.fst hid
      obtain ⟨hlt, howner, hmethod⟩ := h.pending o _ _ hpending
      exact ⟨hlt, fun hcloses => howner ▸ hclosed _ hcloses hmethod⟩
    · exact h.kept id reply hmem

theorem call (h : Promised r k) {id : Nat} {reply : Reply} {rest : List Activation}
    (hstack : k.stack = .dispatch (some (id, reply)) :: rest) :
    Promised r (k.pop.call id reply).2 := by
  obtain ⟨hid, hclosed⟩ := h.kept id reply (by simp [hstack])
  have hsame : ∀ other, ((k.pop.call id reply).2.waits other).owner = (k.waits other).owner ∧
      ((k.pop.call id reply).2.waits other).task = (k.waits other).task ∧
      ((k.pop.call id reply).2.waits other).prev = (k.waits other).prev := by
    intro other
    by_cases ho : other = id
    · subst ho
      simp [Calls.call, Calls.pop]
    · simp [Calls.call, Calls.pop, Function.update_of_ne ho]
  have hpop := h.pop
  refine ⟨?_, ?_, ?_, ?_, ?_, hpop.stack, ?_, ?_⟩
  · exact fun other hlt => (hsame other).1 ▸ h.owner other hlt
  · intro other hlt t htask
    rw [(hsame other).2.1] at htask
    rw [(hsame other).1]
    exact h.connection other hlt t htask
  · intro other hlt htask
    rw [(hsame other).2.1] at htask
    rw [(hsame other).1]
    exact h.channel other hlt htask
  · intro o m other hm
    rw [(hsame other).1, (hsame other).2.1]
    exact h.pending o m other hm
  · intro other hlt entry hentry next hnext
    rw [(hsame other).2.1, (hsame other).2.2] at hentry
    rw [(hsame next).1, (hsame next).2.1, (hsame other).1]
    exact h.prev other hlt entry hentry next hnext
  · intro other reply' hmem
    rw [(hsame other).1, (hsame other).2.1]
    exact hpop.kept other reply' hmem
  · intro other hlt hcloses hready
    rw [(hsame other).2.1] at hcloses
    rw [(hsame other).1]
    by_cases ho : other = id
    · subst ho
      exact hclosed hcloses
    · refine h.ready other hlt hcloses ?_
      simpa [Calls.call, Calls.pop, Function.update_of_ne ho] using hready

theorem beginWait (h : Promised r k) {o : Nat} {task : Task} (ho : o < r.created)
    (hconnection : ∀ t, task = .closeConnection t → o = 0)
    (hchannel : task = .closeChannel → o ≠ 0) : Promised r (k.beginWait o task) := by
  have hnew : (k.beginWait o task).waits k.begun =
      { owner := o, task
        prev := (ChannelCore.register k.begun task.methods (k.pending o)).1
        promise := P.make task.callback } := Function.update_self ..
  have hold : ∀ id < k.begun, (k.beginWait o task).waits id = k.waits id :=
    fun id hid => Function.update_of_ne (Nat.ne_of_lt hid) ..
  have hcases : ∀ id < (k.beginWait o task).begun, id = k.begun ∨ id < k.begun :=
    fun id hid => (Nat.lt_succ_iff_lt_or_eq.mp hid).symm
  refine ⟨fun id hid => ?_, fun id hid => ?_, fun id hid => ?_, fun o' m id hm => ?_,
    fun id hid => ?_, fun id hid => ?_, fun id reply hmem => ?_, fun id hid => ?_⟩
  · obtain rfl | hid := hcases id hid
    · rwa [hnew]
    · rw [hold id hid]
      exact h.owner id hid
  · obtain rfl | hid := hcases id hid
    · rwa [hnew]
    · rw [hold id hid]
      exact h.connection id hid
  · obtain rfl | hid := hcases id hid
    · rwa [hnew]
    · rw [hold id hid]
      exact h.channel id hid
  · have hkeeps : ∀ id, k.pending o' m = some id → id < k.begun + 1 ∧
        ((k.beginWait o task).waits id).owner = o' ∧
        m ∈ ((k.beginWait o task).waits id).task.methods := by
      intro id hm
      obtain ⟨hid, howner, hmethod⟩ := h.pending o' m id hm
      rw [hold id hid]
      exact ⟨hid.trans (Nat.lt_succ_self _), howner, hmethod⟩
    by_cases ho' : o' = o
    · subst ho'
      simp only [Calls.beginWait, Function.update_self, ChannelCore.register_pending] at hm
      split at hm
      next hmem =>
        obtain rfl := Option.some.inj hm
        rw [hnew]
        exact ⟨Nat.lt_succ_self _, rfl, hmem⟩
      next => exact hkeeps id hm
    · simp only [Calls.beginWait, Function.update_of_ne ho'] at hm
      exact hkeeps id hm
  · intro entry hentry other hother
    obtain rfl | hid := hcases id hid
    · rw [hnew] at hentry ⊢
      obtain heq | heq := ChannelCore.register_prev_cases _ _ _ entry hentry
      · obtain ⟨hlt, howner, hmethod⟩ := h.pending o _ _ (heq.symm.trans hother)
        rw [hold other hlt]
        exact ⟨hlt.trans (Nat.lt_succ_self _), howner, hmethod⟩
      · obtain rfl := Option.some.inj (heq.symm.trans hother)
        rw [hnew]
        exact ⟨Nat.lt_succ_self _, rfl, (List.of_mem_zip hentry).1⟩
    · rw [hold id hid] at hentry ⊢
      obtain ⟨hlt, howner, hmethod⟩ := h.prev id hid entry hentry other hother
      rw [hold other hlt]
      exact ⟨hlt.trans (Nat.lt_succ_self _), howner, hmethod⟩
  · rcases List.mem_cons.mp hid with heq | hmem
    · obtain rfl : id = k.begun := by simpa using heq
      exact Nat.lt_succ_self _
    · exact (h.stack id hmem).trans (Nat.lt_succ_self _)
  · obtain ⟨hid, hclosed⟩ := h.kept id reply ((List.mem_cons.mp hmem).resolve_left (by simp))
    rw [hold id hid]
    exact ⟨hid.trans (Nat.lt_succ_self _), hclosed⟩
  · intro hcloses hready
    obtain rfl | hid := hcases id hid
    · rw [hnew] at hready
      simp [P.ready_make] at hready
    · rw [hold id hid] at hcloses hready ⊢
      exact h.ready id hid hcloses hready

theorem leaveWait (h : Promised r k) {id : Nat} (hid : id < k.begun) :
    Promised r (k.leaveWait id) := by
  have hpop := h.pop
  refine ⟨h.owner, h.connection, h.channel, fun o m other hm => ?_, h.prev, hpop.stack,
    hpop.kept, h.ready⟩
  by_cases ho : o = (k.waits id).owner
  · subst ho
    simp only [Calls.leaveWait, Function.update_self] at hm
    obtain ⟨-, heq⟩ | hmem := ChannelCore.restore_cases
      ((k.waits id).task.methods.zip (k.waits id).prev) (k.pending (k.waits id).owner) m
    · exact h.pending _ m other (heq.symm.trans hm)
    · exact h.prev id hid _ hmem other hm
  · simp only [Calls.leaveWait, Function.update_of_ne ho] at hm
    exact h.pending o m other hm

end Promised

/-- A method that no `close` waits for. -/
theorem Task.notMem_of_closes {task : Task} {sig : MethodSig} (hcloses : task.closes = true)
    (hsig : sig ≠ Spec.Connection.closeOk ∧ sig ≠ Spec.Channel.closeOk) :
    sig ∉ task.methods := by
  cases task with
  | closeConnection t => simpa [methods] using hsig.1
  | closeChannel => simpa [methods] using hsig.2
  | _ => simp [closes] at hcloses

theorem routed_lt {s : Connection P} {channel o : Nat} (h : s.routed channel = some o)
    (hallocated : s.toRegistry.Allocated) : o < s.created ∧ (o = 0 → channel = 0) := by
  obtain ⟨channels, hchannels, hget⟩ := Option.bind_eq_some_iff.mp h
  exact hallocated.known channels hchannels _ (Assoc.mem_of_get? hget)

section Moves

variable {cfg : Config} {s : Connection P} {event : Event} {r : Registry} {l : Link} {k : Calls P}
  {log : List Entry}

theorem Promised.move (h : Promised s.toRegistry s.toCalls) (hallocated : s.toRegistry.Allocated)
    (hmove : Move cfg s event r l k log) : Promised r k := by
  have hlater := h.later hmove.op.later
  have hhears : ∀ {o : Nat} {m : Inbound} (args : List Arg),
      m.methodSig ≠ Spec.Connection.closeOk ∧ m.methodSig ≠ Spec.Channel.closeOk →
      Promised r (s.toCalls.hears o m args) := fun args hsig =>
    hlater.hears args fun id hcloses hmethod => absurd hmethod (Task.notMem_of_closes hcloses hsig)
  cases hmove with
  | stays | connected | connectFails | collects | collectsChannel => exact hlater
  | connects => exact h.push (.inr rfl)
  | connectReturns | connectRaises | pops => exact hlater.pop
  | closes =>
      exact (h.setClosing 0 true).beginWait hallocated.created (fun _ _ => rfl) (by simp)
  | closeRefused | detaches => exact hlater.setClosing _ _
  | closeReturns hstack | closeRaises hstack | closeChannelEnds hstack =>
      exact (hlater.leaveWait (h.stack _ (by simp [hstack]))).setClosing _ _
  | constructs hconstruct hl hk =>
      obtain rfl | ⟨o, rfl, rfl⟩ := hk
      · exact hlater
      · refine hlater.beginWait ?_ (by simp) (by simp)
        obtain ⟨id', -, -, hrun⟩ | ⟨e, hrun⟩ := Registry.construct_cases _ s.toRegistry
        · obtain ⟨ho, rfl⟩ := Prod.mk.inj (hconstruct.symm.trans hrun)
          obtain rfl := Except.ok.inj ho
          exact Nat.lt_succ_self _
        · rw [hrun] at hconstruct
          simp at hconstruct
  | asks ho htask =>
      refine h.beginWait ho ?_ ?_
      · rintro t rfl
        simp [Task.closes] at htask
      · rintro rfl
        simp [Task.closes] at htask
  | closesChannel ho hcall =>
      exact (h.setClosing _ true).beginWait hcall.2.2 (by simp) fun _ => ho
  | calls hstack => exact h.call hstack
  | leaves hstack => exact h.leaveWait (h.stack _ (by simp [hstack]))
  | takes => exact h.take _ _
  | listens _ _ hsig hacts =>
      obtain rfl | rfl := hacts
      · exact hhears _ hsig
      · exact (hhears _ hsig).push (.inl rfl)
  | handshakes _ hsig => exact (hhears _ (by rw [hsig]; decide)).push (.inl rfl)
  | closesDown => exact hlater.hears _ fun _ _ _ => s.toRegistry.collect_attached
  | closesDownChannel =>
      refine hlater.hears _ fun _ _ _ => ?_
      rw [(Registry.collectChannel_attached ..).1, Function.update_self]
  | revives hroutes _ hsig =>
      exact (hhears _ (by rw [hsig]; decide)).beginWait (routed_lt hroutes hallocated).1 (by simp) (by simp)

end Moves

/-- What holds of the registry and the promises in every run. -/
structure Reachable (s : Connection P) : Prop where
  allocated : s.toRegistry.Allocated
  promised : Promised s.toRegistry s.toCalls

theorem Reachable.step {s : Connection P} (h : s.Reachable) (cfg : Config) (event : Event) :
    (step cfg s event).Reachable :=
  ⟨h.allocated.op (step_move cfg s event).op, h.promised.move h.allocated (step_move cfg s event)⟩

theorem init_reachable (cfg : Config) : (init cfg : Connection P).Reachable := by
  refine ⟨run_allocated cfg [], ⟨?_, ?_, ?_, ?_, ?_, ?_, ?_, ?_⟩⟩
  all_goals simp [init]

end Connection

end PyAmqp
