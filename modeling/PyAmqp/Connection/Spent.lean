import PyAmqp.Connection.Promised

/-!
A connection that has been collected. Its channels and itself are without a connection for
good: whatever is called and read later, and also when `connect` sets up another transport,
no method is written, waited for or heard. What `connect` sets up then is not torn down by
`close`.
-/

namespace PyAmqp

namespace Connection

variable {P : Promises Reply}

/-! Registered objects -/

namespace Registry

/-- A channel that has its connection is registered; without `channels` there is none. -/
structure Rooted (r : Registry) : Prop where
  collected : r.channels = none → ∀ o, r.attached o = false
  registered : ∀ channels, r.channels = some channels → ∀ o, o ≠ 0 → r.attached o = true →
    ∃ id, r.channelId o = some id ∧ Assoc.get? channels id = some o

theorem attached_of_update {attached : Nat → Bool} {o o' : Nat}
    (h : Function.update attached o false o' = true) : o' ≠ o ∧ attached o' = true := by
  by_cases ho : o' = o
  · simp [ho] at h
  · rw [Function.update_of_ne ho] at h
    exact ⟨ho, h⟩

theorem foldl_collectChannel_attached (objects : List Nat) (r : Registry) {o : Nat}
    (h : (objects.foldl collectChannel r).attached o = true) :
    o ∉ objects ∧ r.attached o = true := by
  induction objects generalizing r with
  | nil => exact ⟨List.not_mem_nil, h⟩
  | cons o' objects ih =>
      obtain ⟨hmem, hattached⟩ := ih _ h
      rw [(r.collectChannel_attached o').1] at hattached
      obtain ⟨hne, hattached⟩ := attached_of_update hattached
      exact ⟨List.not_mem_cons_of_ne_of_not_mem hne hmem, hattached⟩

namespace Rooted

variable {r : Registry}

theorem detach (h : r.Rooted) (o : Nat) : (r.detach o).Rooted where
  collected hnone o' := update_attached (h.collected hnone o')
  registered channels hchannels o' ho' hattached :=
    h.registered channels hchannels o' ho' (attached_of_update hattached).2

theorem issue (h : r.Rooted) (hallocated : r.Allocated) (hsome : r.channels ≠ none) {id : Nat}
    (hunused : id ∉ r.usedChannelIds) (hid : id ≠ 0) : (r.issue id).Rooted := by
  obtain ⟨channels, hchannels⟩ := Option.ne_none_iff_exists'.mp hsome
  have hissued := hallocated.issue_channels hchannels hunused hid
  constructor
  · intro hnone
    rw [hissued] at hnone
    cases hnone
  · intro channels' hchannels' o ho hattached
    rw [hissued, Option.some.injEq] at hchannels'
    subst hchannels'
    have hfresh := hallocated.notMem_keys hchannels hunused hid
    by_cases hnew : o = r.created
    · subst hnew
      refine ⟨id, Function.update_self .., ?_⟩
      rw [← Assoc.set_fresh _ _ _ hfresh, Assoc.get?_set_self]
    · have hold : r.attached o = true := by
        simpa [Registry.issue, register, hnew] using hattached
      obtain ⟨id', hname, hget⟩ := h.registered channels hchannels o ho hold
      refine ⟨id', ?_, ?_⟩
      · simpa [Registry.issue, register, hnew] using hname
      · have hother : id ≠ id' := by
          rintro rfl
          exact hfresh (List.mem_map_of_mem (f := Prod.fst) (Assoc.mem_of_get? hget))
        rw [← Assoc.set_fresh _ _ _ hfresh, Assoc.get?_set_ne _ _ hother, hget]

theorem collectChannel (h : r.Rooted) {o : Nat} (ho : o ≠ 0) : (r.collectChannel o).Rooted := by
  unfold Registry.collectChannel
  cases hid : r.channelId o with
  | none => exact h.detach o
  | some id =>
      cases hattached : r.attached o with
      | false =>
          constructor
          · exact fun hnone o' => update_attached (h.collected hnone o')
          · intro channels hchannels o' ho' hattached'
            obtain ⟨hne, hattached'⟩ := attached_of_update hattached'
            obtain ⟨id', hname, hget⟩ := h.registered channels hchannels o' ho' hattached'
            exact ⟨id', (Function.update_of_ne hne ..).trans hname, hget⟩
      | true =>
          constructor
          · intro hnone o'
            have hnone : r.channels = none := by simpa using hnone
            exact update_attached (h.collected hnone o')
          · intro channels' hchannels' o' ho' hattached'
            obtain ⟨hne, hattached'⟩ := attached_of_update hattached'
            simp only [if_true] at hchannels'
            obtain ⟨channels, hchannels, rfl⟩ := Option.map_eq_some_iff.mp hchannels'
            obtain ⟨id', hname, hget⟩ := h.registered channels hchannels o' ho' hattached'
            obtain ⟨id'', hname'', hget''⟩ := h.registered channels hchannels o ho hattached
            refine ⟨id', (Function.update_of_ne hne ..).trans hname, ?_⟩
            rw [Assoc.get?_erase_ne, hget]
            rintro rfl
            rw [hid, Option.some.injEq] at hname''
            subst hname''
            exact hne (Option.some.inj (hget.symm.trans hget''))

theorem collect (h : r.Rooted) : r.collect.Rooted := by
  constructor
  · intro _ o
    rw [← Bool.not_eq_true]
    intro hattached
    obtain ⟨ho, hattached⟩ := attached_of_update hattached
    obtain ⟨hmem, hattached⟩ := foldl_collectChannel_attached _ _ hattached
    cases hchannels : r.channels with
    | none =>
        rw [h.collected hchannels o] at hattached
        cases hattached
    | some channels =>
        obtain ⟨id, -, hget⟩ := h.registered channels hchannels o ho hattached
        apply hmem
        rw [others, hchannels, List.mem_filter]
        exact ⟨List.mem_map_of_mem (f := Prod.snd) (Assoc.mem_of_get? hget), decide_eq_true ho⟩
  · intro channels hchannels
    cases hchannels

theorem op (h : r.Rooted) (hallocated : r.Allocated) (hsome : r.channels ≠ none)
    {detaches : Nat → Prop} {r' : Registry} (hop : r.Op detaches r') : r'.Rooted := by
  cases hop with
  | same => exact h
  | tunes channelMax => exact ⟨h.collected, h.registered⟩
  | issues hunused hid => exact h.issue hallocated hsome hunused hid
  | collectsChannel ho => exact h.collectChannel ho
  | detaches => exact h.detach _
  | collects => exact h.collect

end Rooted

end Registry

/-! Steps -/

/-- The connection has been collected. -/
structure Spent (s : Connection P) : Prop where
  channels : s.channels = none
  attached : ∀ o, s.attached o = false

/-- What a spent connection never changes: its channel objects and their connections, the
methods written, the waits begun, and whether there has been a handshake. -/
def view (s : Connection P) : Option (List (Nat × Nat)) × (Nat → Bool) × Nat × Nat × Nat × Bool :=
  (s.channels, s.attached, s.created, s.writes, s.begun, s.handshakeComplete)

section Steps

variable {cfg : Config} {s s' : Connection P}

theorem Spent.of_view (h : s.Spent) (hview : s'.view = s.view) : s'.Spent := by
  simp only [view, Prod.mk.injEq] at hview
  obtain ⟨hchannels, hattached, -⟩ := hview
  constructor
  · rw [hchannels, h.channels]
  · intro o
    rw [hattached, h.attached]

theorem Spent.sendMethod (h : s.Spent) (o : Nat) (sig : MethodSig) :
    sendMethod cfg o sig s = (.error connectionClosed, s) := by
  rw [Connection.sendMethod, h.attached o]
  rfl

theorem Spent.sendOnly (h : s.Spent) (o : Nat) (sig : MethodSig) :
    sendOnly cfg o sig s = goOn (.raising connectionClosed) s := by
  rw [Connection.sendOnly, h.sendMethod]
  rfl

theorem Spent.sendAndWait (h : s.Spent) (o : Nat) (sig : MethodSig) (task : Task) :
    sendAndWait cfg o sig task s = goOn (.raising connectionClosed) s := by
  rw [Connection.sendAndWait, h.sendMethod]

theorem Spent.update_attached (h : s.Spent) (o : Nat) :
    Function.update s.attached o false = s.attached := by
  rw [← h.attached o, Function.update_eq_self]

theorem onWire_handshakeComplete (t : Option Nat) (f : Wire → Wire) (l : Link) :
    (l.onWire t f).handshakeComplete = l.handshakeComplete := by
  cases t with
  | none => rfl
  | some t => rfl

theorem Spent.collected_view (h : s.Spent) : (collected s).view = s.view := by
  have hnone : s.toRegistry.others = [] := by
    rw [Registry.others, h.channels]
    rfl
  have hcollect : s.toRegistry.collect = s.toRegistry := by
    unfold Registry.collect
    rw [hnone]
    simp only [List.foldl_nil]
    rw [h.update_attached, ← h.channels]
  simp only [view, collected, hcollect, Link.collect, onWire_handshakeComplete]

theorem Spent.collect_view (h : s.Spent) (cfg : Config) : (collect cfg s).2.view = s.view := by
  obtain ⟨closes, hrun⟩ | ⟨e, closes, hrun, -, -⟩ := collect_cases cfg s
  · rw [hrun]
    exact h.collected_view
  · rw [hrun]
    rfl

theorem Spent.collectOn_view (h : s.Spent) (cfg : Config) (e : PyError) :
    (collectOn cfg e s).view = s.view := by
  have hcollect := h.collect_view cfg
  revert hcollect
  unfold collectOn
  rcases collect cfg s with ⟨e' | _, s'⟩
  · intro hcollect
    split
    · exact hcollect
    · rfl
  · intro hcollect
    split
    · exact hcollect
    · rfl

theorem Spent.userCollect_view (h : s.Spent) (cfg : Config) :
    (userCollect cfg s).view = s.view := by
  have hcollect := h.collect_view cfg
  revert hcollect
  unfold userCollect
  rcases collect cfg s with ⟨e' | _, s'⟩
  · exact id
  · exact id

theorem Spent.collectChannel_view (h : s.Spent) (o : Nat) :
    (collectChannel o s).view = s.view := by
  unfold view collectChannel Registry.collectChannel
  cases s.channelId o with
  | none => simp only [h.update_attached]
  | some id => simp [h.update_attached, h.attached o]

theorem setup_handshakeComplete (setup : Setup) (l : Link) :
    (l.setup setup).2.handshakeComplete = l.handshakeComplete := by
  cases setup with
  | refused e => rfl
  | failed e sock => rfl
  | up => rfl

theorem Spent.connect_view (h : s.Spent) (setup : Setup) :
    (connect cfg setup s).view = s.view := by
  unfold connect
  split
  · rfl
  · have hhandshake := setup_handshakeComplete setup s.toLink
    revert hhandshake
    rcases s.toLink.setup setup with ⟨e | _, link⟩
    · intro (hhandshake : link.handshakeComplete = s.handshakeComplete)
      have hlinked : view { s with toLink := link } = s.view := by
        simp only [view, hhandshake]
      have hspent : Spent { s with toLink := link } := h.of_view hlinked
      exact (hspent.collectOn_view cfg e).trans hlinked
    · intro (hhandshake : link.handshakeComplete = s.handshakeComplete)
      simp only [view, goOn, push, Calls.push, hhandshake]

theorem loopConnect_view (s : Connection P) : (loopConnect s).view = s.view := by
  unfold loopConnect
  split
  · simp only
    split
    · rfl
    · rfl
  · rfl

theorem Spent.leaveConnect_view (h : s.Spent) (e : PyError) :
    (leaveConnect cfg e s).view = s.view := by
  have hpopped : Spent { s with toCalls := s.toCalls.pop } := h.of_view rfl
  exact hpopped.collectOn_view cfg e

theorem Spent.startClose_view (h : s.Spent) : (startClose cfg s).view = s.view := by
  unfold startClose
  split
  · rfl
  · have hclosing : Spent { s with toCalls := s.toCalls.setClosing 0 true } := h.of_view rfl
    rw [hclosing.sendMethod]
    exact hclosing.collectOn_view cfg connectionClosed

theorem Spent.channel_raises (h : s.Spent) (id : Option Nat) :
    channel cfg id s =
      goOn (.raising (recoverableConnectionError "Connection already closed.")) s := by
  rw [channel, h.channels]

theorem Spent.openChannel_view (h : s.Spent) (o : Nat) : (openChannel cfg o s).view = s.view := by
  unfold openChannel
  split
  · rfl
  · rw [h.sendAndWait]
    rfl

theorem Spent.leaveCloseChannel_view (h : s.Spent) (o : Nat) :
    (leaveCloseChannel o s).view = s.view := by
  simp only [view, leaveCloseChannel, Registry.detach, Calls.setClosing, h.update_attached]

theorem Spent.startCloseChannel_view (h : s.Spent) (o : Nat) :
    (startCloseChannel cfg o s).view = s.view := by
  rw [startCloseChannel, if_pos (.inl (h.attached o))]
  exact h.leaveCloseChannel_view o

/-- A method that is read ends the reading. -/
theorem Spent.onInboundMethod (h : s.Spent) (channel : Nat) (m : Inbound) :
    onInboundMethod cfg channel m s =
      goOn (.raising (recoverableConnectionError "Connection already closed")) s := by
  rw [Connection.onInboundMethod, h.channels]

theorem receive_view (channel : Nat) (m : Inbound) (s : Connection P) :
    (receive channel m s).view = s.view := by
  unfold receive
  split
  · simp only [view, onWire_handshakeComplete]
  · rfl

theorem failRead_view (cfg : Config) (e : PyError) (s : Connection P) :
    (failRead cfg e s).view = s.view := by
  unfold failRead
  split
  · simp only [view, goOn, onWire_handshakeComplete]
  · rfl

theorem finish_view (outcome : Except PyError Unit) (s : Connection P) :
    (finish outcome s).view = s.view := by
  cases outcome with
  | ok _ => rfl
  | error e => rfl

theorem Spent.leaveWait_view (h : s.Spent) (id : Nat) (result : Except PyError Unit) :
    (leaveWait cfg id result s).view = s.view := by
  have hleft : Spent { s with toCalls := s.toCalls.leaveWait id } := h.of_view rfl
  unfold leaveWait afterWait
  split
  · rfl
  · exact hleft.collectOn_view cfg _
  · rw [finish_view]
    exact hleft.leaveCloseChannel_view _
  · rfl
  · rw [finish_view]
    rfl

theorem Spent.go_view (h : s.Spent) : (go cfg s).view = s.view := by
  unfold go
  split
  · rfl
  · exact loopConnect_view s
  · exact h.leaveConnect_view _
  · rfl
  · rw [finish_view]
    rfl
  · rfl
  · split
    · exact h.leaveWait_view _ _
    · split
      · rfl
      · rfl
  · exact h.leaveWait_view _ _
  · rfl

/-- A call that is made where it may be. -/
theorem ite_view {may : Prop} [Decidable may] (h : s'.view = s.view) :
    (if may then s' else s).view = s.view := by
  split
  · exact h
  · rfl

theorem Spent.step_view (h : s.Spent) (cfg : Config) (event : Event) :
    (step cfg s event).view = s.view := by
  cases event with
  | go => exact h.go_view
  | connect setup => exact ite_view (h.connect_view setup)
  | close => exact ite_view h.startClose_view
  | collect => exact ite_view (h.userCollect_view cfg)
  | channel id =>
      apply ite_view
      rw [h.channel_raises]
      rfl
  | «open» o => exact ite_view (h.openChannel_view o)
  | closeChannel o => exact ite_view (h.startCloseChannel_view o)
  | collectChannel o => exact ite_view (h.collectChannel_view o)
  | send o sig =>
      apply ite_view
      rw [h.sendOnly]
      rfl
  | call o sig methods callback =>
      apply ite_view
      rw [h.sendAndWait]
      rfl
  | «return» => exact ite_view rfl
  | raise e => exact ite_view rfl
  | deliver channel m =>
      apply ite_view
      rw [(h.of_view (receive_view channel m s)).onInboundMethod]
      exact receive_view channel m s
  | fail e => exact ite_view (failRead_view cfg e s)

/-- Over a whole run, from the collection on. -/
theorem Spent.run_view (h : s.Spent) (cfg : Config) (events : List Event) :
    (events.foldl (step cfg) s).view = s.view := by
  induction events generalizing s with
  | nil => rfl
  | cons event events ih =>
      have hstep := h.step_view cfg event
      exact (ih (h.of_view hstep)).trans hstep

/-! Runs -/

theorem Rooted.step (h : s.toRegistry.Rooted) (hallocated : s.toRegistry.Allocated) (cfg : Config)
    (event : Event) : (step cfg s event).toRegistry.Rooted := by
  cases hchannels : s.channels with
  | none =>
      have hspent : s.Spent := ⟨hchannels, h.collected hchannels⟩
      obtain ⟨hnone, hattached⟩ := hspent.of_view (hspent.step_view cfg event)
      constructor
      · exact fun _ => hattached
      · intro channels hsome
        rw [hnone] at hsome
        cases hsome
  | some channels =>
      apply h.op hallocated _ (step_move cfg s event).op
      rw [hchannels]
      exact Option.some_ne_none channels

theorem run_rooted (cfg : Config) (events : List Event) :
    (run cfg events : Connection P).toRegistry.Rooted := by
  have hstart : (init cfg : Connection P).toRegistry.Rooted := by
    constructor
    · intro hnone
      cases hnone
    · intro channels _ o ho hattached
      exact absurd (of_decide_eq_true hattached) ho
  have hrun := List.foldlRecOn
    (motive := fun s : Connection P => s.toRegistry.Allocated ∧ s.toRegistry.Rooted) events
    (Connection.step cfg) ⟨run_allocated cfg [], hstart⟩ fun s h event _ =>
      ⟨h.1.op (step_move cfg s event).op, Rooted.step h.2 h.1 cfg event⟩
  exact hrun.2

theorem Spent.deliver (h : s.Spent) (hread : s.MayRead) (channel : Nat) (m : Inbound) :
    step cfg s (.deliver channel m) =
      goOn (.raising (recoverableConnectionError "Connection already closed"))
        (receive channel m s) := by
  have hspent : (receive channel m s).Spent := h.of_view (receive_view channel m s)
  exact (if_pos hread).trans (hspent.onInboundMethod channel m)

theorem Spent.close (h : s.Spent) (hcall : s.MayCall 0) {t : Nat} (ht : s.transport = some t) :
    step cfg s .close = goOn (.raising connectionClosed)
      (leaveClose t { s with toCalls := s.toCalls.setClosing 0 true }) := by
  have hclosing : Spent { s with toCalls := s.toCalls.setClosing 0 true } := h.of_view rfl
  have hclose : step cfg s .close = startClose cfg s := if_pos hcall
  rw [hclose, startClose, ht]
  simp only [hclosing.sendMethod]
  rfl

/-- Once a connection has been collected, no run brings it back: its channels stay without a
connection, no method is written and no wait begins, and a method that is read, on
a transport that a later `connect` has set up, raises without a listener. Then `close`
raises, too, and leaves that transport as it is, with its socket. -/
theorem run_spent (cfg : Config) (history events : List Event)
    (h : (run cfg history : Connection P).channels = none) :
    let s : Connection P := run cfg history
    let s' := events.foldl (step cfg) s
    s'.Spent ∧ s'.view = s.view ∧
      (∀ channel m, s'.MayRead →
        let read := step cfg s' (.deliver channel m)
        read.control = .raising (recoverableConnectionError "Connection already closed") ∧
          read.stack = s'.stack) ∧
      ∀ t, s'.MayCall 0 → s'.transport = some t →
        let closed := step cfg s' .close
        closed.control = .raising connectionClosed ∧ closed.toLink = s'.toLink := by
  intro s s'
  have hspent : s.Spent := ⟨h, (run_rooted cfg history).collected h⟩
  have hview : s'.view = s.view := hspent.run_view cfg events
  have hspent' : s'.Spent := hspent.of_view hview
  refine ⟨hspent', hview, fun channel m hread => ?_, fun t hcall ht => ?_⟩
  · rw [hspent'.deliver hread]
    refine ⟨rfl, ?_⟩
    unfold receive
    split
    · rfl
    · rfl
  · rw [hspent'.close hcall ht]
    exact ⟨rfl, rfl⟩

/-- A new connection is collected and then connects. The server's `Start` makes `connect` raise,
and what it has set up stays when `close` is called. -/
theorem run_spent_reconnected :
    let s : Connection (plainPromises Reply) :=
      [.connect .up, .go, .deliver 0 start, .go, .go].foldl (step plainConfig)
        (run plainConfig [.collect])
    s.MayCall 0 ∧ s.Spent ∧ (step plainConfig s .close).transport = some 0 ∧
      ((step plainConfig s .close).wires 0).sock = true := by
  intro s
  obtain ⟨hspent, -, -, hclose⟩ := run_spent (P := plainPromises Reply) plainConfig [.collect]
    [.connect .up, .go, .deliver 0 start, .go, .go] rfl
  have hcall : s.MayCall 0 := by decide
  obtain ⟨-, hlink⟩ := hclose 0 hcall rfl
  refine ⟨hcall, hspent, ?_, ?_⟩
  · rw [hlink]
    rfl
  · rw [hlink]
    rfl

end Steps

end Connection

end PyAmqp
