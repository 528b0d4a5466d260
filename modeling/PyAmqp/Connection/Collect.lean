import PyAmqp.Connection.ChannelIds
import PyAmqp.Transport.Lifetime

/-!
`Connection.collect` with the `collect` of its channels and the `close` of its transport,
statement by statement, and what it leaves behind. It does what the machine of a connection
takes for one operation. A `SSLTransport` whose socket was not wrapped cannot be closed, and
then nothing is collected.
-/

namespace PyAmqp

namespace Connection

/-- What the user has registered with a channel. -/
structure Listeners (κ : Type) where
  callbacks : List (PyStr × κ) := []
  cancelCallbacks : List (PyStr × κ) := []
  events : List (PyStr × List κ) := []
  noAckConsumers : List PyStr := []

/-- A connection with its channels and transports, by the numbers of the objects. -/
structure Assembly (κ : Type) extends Registry where
  isOpen : Nat → Bool
  listeners : Nat → Listeners κ
  transports : Nat → Endpoint
  transport : Option Nat

namespace Assembly

variable {κ : Type}

/-! Collecting a channel -/

/-- `connection.channels.pop(channel_id, None)` -/
def pop (channelId : Option Nat) : Effect (Assembly κ) PyError Unit := fun s =>
  match s.channels with
  | some channels =>
      (.ok (), { s with channels := some (channelId.elim channels (Assoc.erase channels)) })
  | none => (.error .attributeError, s)

/-- `connection._used_channel_ids.remove(channel_id)`, if it is there. -/
def removeUsed (channelId : Option Nat) (s : Assembly κ) : Assembly κ :=
  { s with usedChannelIds := channelId.elim s.usedChannelIds s.usedChannelIds.erase }

def setOpen (o : Nat) (isOpen : Bool) (s : Assembly κ) : Assembly κ :=
  { s with isOpen := Function.update s.isOpen o isOpen }

def forgetId (o : Nat) (s : Assembly κ) : Assembly κ :=
  { s with channelId := Function.update s.channelId o none }

def forgetConnection (o : Nat) (s : Assembly κ) : Assembly κ :=
  { s with attached := Function.update s.attached o false }

/-- `callbacks.clear()` and so on. -/
def clearListeners (o : Nat) (s : Assembly κ) : Assembly κ :=
  { s with listeners := Function.update s.listeners o {} }

/-- `if connection: ...` -/
def leave (attached : Bool) (channelId : Option Nat) : Effect (Assembly κ) PyError Unit :=
  if attached then do
    pop channelId
    Effect.modify (removeUsed channelId)
  else pure ()

/-- `Channel.collect` -/
def collectChannel (o : Nat) : Effect (Assembly κ) PyError Unit := do
  Effect.modify (setOpen o false)
  let s ← Effect.get
  Effect.modify (forgetId o)
  Effect.modify (forgetConnection o)
  leave (s.attached o) (s.channelId o)
  Effect.modify (clearListeners o)

/-! Collecting the connection -/

/-- `if self._transport: self._transport.close()` -/
def closeTransport (cfg : TransportConfig) (closing : CloseCalls) :
    Effect (Assembly κ) PyError Unit := fun s =>
  match s.transport with
  | some t =>
      let (result, endpoint) := Endpoint.close cfg closing (s.transports t)
      (result, { s with transports := Function.update s.transports t endpoint })
  | none => (.ok (), s)

/-- `if self.channels: ...` -/
def collectChannels : Effect (Assembly κ) PyError Unit := do
  let s ← Effect.get
  if s.channels.getD [] ≠ [] then Effect.forEach collectChannel s.others
  else pure ()

/-- `self._transport = self.connection = self.channels = None` -/
def forget (s : Assembly κ) : Assembly κ :=
  { s with
    transport := none
    attached := Function.update s.attached 0 false
    channels := none }

/-- `Connection.collect` -/
def collect (cfg : TransportConfig) (closing : CloseCalls) : Effect (Assembly κ) PyError Unit := do
  closeTransport cfg closing
  collectChannels
  Effect.modify forget

/-! What is left -/

/-- The channel is detached and forgotten, and nothing is registered with it. -/
structure Bare (s : Assembly κ) (o : Nat) : Prop where
  attached : s.attached o = false
  channelId : s.channelId o = none
  isOpen : s.isOpen o = false
  listeners : s.listeners o = {}

/-- `collect` has turned `s` into `s'`. -/
structure Collected (s s' : Assembly κ) : Prop where
  transport : s'.transport = none
  connection : s'.attached 0 = false
  channels : s'.channels = none
  closed : ∀ t, s.transport = some t →
    (s'.transports t).sock = none ∧ (s'.transports t).connected = false
  bare : ∀ o ∈ s.others, s'.Bare o
  freed : ∀ o ∈ s.others, s.attached o = true → ∀ id, s.channelId o = some id →
    id ∉ s'.usedChannelIds

/-- What `Channel.collect` does at once. -/
def collected (s : Assembly κ) (o : Nat) : Assembly κ :=
  { s with
    toRegistry := s.toRegistry.collectChannel o
    isOpen := Function.update s.isOpen o false
    listeners := Function.update s.listeners o {} }

section Channels

variable {s : Assembly κ}

theorem collectChannel_run {o : Nat} (h : s.attached o = true → s.channels ≠ none) :
    collectChannel o s = (.ok (), s.collected o) := by
  have hforget : s.channelId o = none → Function.update s.channelId o none = s.channelId :=
    fun hid => by rw [← hid, Function.update_eq_self]
  cases hattached : s.attached o with
  | false =>
      cases hid : s.channelId o with
      | none =>
          simp [collectChannel, leave, collected, Registry.collectChannel, hattached, hid, setOpen,
            forgetId, forgetConnection, clearListeners, hforget hid]
      | some id =>
          simp [collectChannel, leave, collected, Registry.collectChannel, hattached, hid, setOpen,
            forgetId, forgetConnection, clearListeners]
  | true =>
      obtain ⟨channels, hchannels⟩ := Option.ne_none_iff_exists'.mp (h hattached)
      cases hid : s.channelId o with
      | none =>
          simp [collectChannel, leave, pop, removeUsed, collected, Registry.collectChannel,
            hattached, hid, hchannels, setOpen, forgetId, forgetConnection, clearListeners,
            hforget hid]
      | some id =>
          simp [collectChannel, leave, pop, removeUsed, collected, Registry.collectChannel,
            hattached, hid, hchannels, setOpen, forgetId, forgetConnection, clearListeners]

theorem collected_bare (o : Nat) : (s.collected o).Bare o := by
  have hid : (s.toRegistry.collectChannel o).channelId o = none ∧
      (s.toRegistry.collectChannel o).attached o = false := by
    unfold Registry.collectChannel
    cases hid : s.channelId o with
    | none => simp [hid]
    | some id => simp
  exact ⟨hid.2, hid.1, Function.update_self .., Function.update_self ..⟩

/-- The other channels are not touched. -/
theorem collectChannel_other {r : Registry} {o o' : Nat} (h : o' ≠ o) :
    (r.collectChannel o).attached o' = r.attached o' ∧
      (r.collectChannel o).channelId o' = r.channelId o' := by
  unfold Registry.collectChannel
  cases r.channelId o with
  | none => simp [h]
  | some id => simp [h]

theorem Bare.collected {o : Nat} (h : s.Bare o) (o' : Nat) : (s.collected o').Bare o := by
  by_cases hsame : o = o'
  · subst hsame
    exact collected_bare o
  · obtain ⟨hattached, hid⟩ := @collectChannel_other s.toRegistry o' o hsame
    exact ⟨hattached.trans h.attached, hid.trans h.channelId,
      (Function.update_of_ne hsame ..).trans h.isOpen,
      (Function.update_of_ne hsame ..).trans h.listeners⟩

theorem collectChannel_used (r : Registry) (o : Nat) :
    (r.collectChannel o).usedChannelIds = r.usedChannelIds ∨
      ∃ id, r.channelId o = some id ∧ r.attached o = true ∧
        (r.collectChannel o).usedChannelIds = r.usedChannelIds.erase id := by
  unfold Registry.collectChannel
  cases hid : r.channelId o with
  | none => exact .inl rfl
  | some id =>
      cases hattached : r.attached o with
      | false => exact .inl rfl
      | true => exact .inr ⟨id, rfl, rfl, rfl⟩

/-! The loop over the channels -/

theorem forEach_collectChannel (objects : List Nat) (h : s.channels ≠ none) :
    Effect.forEach collectChannel objects s = (.ok (), objects.foldl collected s) := by
  induction objects generalizing s with
  | nil => rfl
  | cons o objects ih =>
      have hchannels : (s.collected o).channels ≠ none := by
        simp only [collected, Registry.collectChannel]
        cases s.channelId o with
        | none => exact h
        | some id =>
            cases s.attached o with
            | false => exact h
            | true => simpa using h
      have hrun := collectChannel_run (s := s) (o := o) fun _ => h
      simp only [Effect.forEach, Effect.bind_run, hrun]
      exact ih hchannels

theorem foldl_collected_registry (objects : List Nat) :
    (objects.foldl collected s).toRegistry = objects.foldl Registry.collectChannel s.toRegistry := by
  induction objects generalizing s with
  | nil => rfl
  | cons o objects ih => exact ih

theorem foldl_collected_isOpen (objects : List Nat) :
    (objects.foldl collected s).isOpen = fun o => s.isOpen o && o ∉ objects := by
  induction objects generalizing s with
  | nil => simp
  | cons o' objects ih =>
      rw [List.foldl_cons, ih]
      funext o
      by_cases ho : o = o'
      · simp [collected, ho]
      · simp [collected, ho]

theorem foldl_collected_transports (objects : List Nat) :
    (objects.foldl collected s).transports = s.transports := by
  induction objects generalizing s with
  | nil => rfl
  | cons o objects ih => exact ih

theorem foldl_collected_bare {objects : List Nat} {o : Nat} (h : o ∈ objects) :
    (objects.foldl collected s).Bare o := by
  have hkeeps : ∀ (objects : List Nat) (s : Assembly κ), s.Bare o →
      (objects.foldl collected s).Bare o := by
    intro objects
    induction objects with
    | nil => exact fun s h => h
    | cons o' objects ih => exact fun s h => ih _ (h.collected o')
  induction objects generalizing s with
  | nil => cases h
  | cons o' objects ih =>
      rcases List.mem_cons.mp h with rfl | hmem
      · exact hkeeps objects _ (collected_bare o)
      · exact ih hmem

/-- An id stays out of the array. -/
theorem foldl_collected_unused {objects : List Nat} {id : Nat} (h : id ∉ s.usedChannelIds) :
    id ∉ (objects.foldl collected s).usedChannelIds := by
  induction objects generalizing s with
  | nil => exact h
  | cons o objects ih =>
      apply ih
      obtain hsame | ⟨id', -, -, herase⟩ := collectChannel_used s.toRegistry o
      · exact fun hmem => h (hsame ▸ hmem)
      · exact fun hmem => h (List.mem_of_mem_erase (herase ▸ hmem))

/-- The id of a channel that is attached leaves the array, which has it once. -/
theorem foldl_collected_freed {objects : List Nat} {o id : Nat} (ho : o ∈ objects)
    (hnodup : s.usedChannelIds.Nodup) (hattached : s.attached o = true)
    (hid : s.channelId o = some id) : id ∉ (objects.foldl collected s).usedChannelIds := by
  induction objects generalizing s with
  | nil => cases ho
  | cons o' objects ih =>
      by_cases hsame : o = o'
      · subst hsame
        have herase : (s.collected o).usedChannelIds = s.usedChannelIds.erase id := by
          simp [collected, Registry.collectChannel, hid, hattached]
        have hgone : id ∉ (s.collected o).usedChannelIds := by
          rw [herase]
          exact hnodup.not_mem_erase
        rw [List.foldl_cons]
        exact foldl_collected_unused hgone
      · have hother := @collectChannel_other s.toRegistry o' o hsame
        refine ih (List.mem_of_ne_of_mem hsame ho) ?_ (hother.1.trans hattached) (hother.2.trans hid)
        obtain hused | ⟨id', -, -, herase⟩ := collectChannel_used s.toRegistry o'
        · exact hused ▸ hnodup
        · exact herase ▸ hnodup.erase id'

theorem collectChannels_run : collectChannels s = (.ok (), s.others.foldl collected s) := by
  simp only [collectChannels, Effect.bind_run, Effect.get_run]
  by_cases hchannels : s.channels.getD [] = []
  · have hothers : s.others = [] := by simp [Registry.others, hchannels]
    rw [hothers, if_neg (not_not_intro hchannels)]
    rfl
  · rw [if_pos hchannels]
    exact forEach_collectChannel _ fun hnone => hchannels (by simp [hnone])

end Channels

/-! Collecting the connection -/

/-- The array has no id twice. -/
structure Consistent (κ : Type) extends Assembly κ where
  nodup : usedChannelIds.Nodup

/-- A connection is consistent after every run, whatever is registered with its channels and
whatever state its transports are in. -/
def Consistent.ofRun {P : Promises Reply} (cfg : Config) (history : List Event)
    (listeners : Nat → Listeners κ) (transports : Nat → Endpoint) : Consistent κ where
  toRegistry := (run cfg history : Connection P).toRegistry
  isOpen := (run cfg history : Connection P).isOpen
  listeners := listeners
  transports := transports
  transport := (run cfg history : Connection P).transport
  nodup := (run_allocated cfg history).nodup

section Connections

variable {cfg : TransportConfig} {closing : CloseCalls} {s : Assembly κ}

/-- The transport in place has no socket that it did not wrap, if it is a `SSLTransport`. -/
def Wrapped (cfg : TransportConfig) (s : Assembly κ) : Prop :=
  ∀ t, s.transport = some t → (s.transports t).Wrapped cfg

/-- Closing the transport comes first; what it raises is raised, and otherwise the rest is done. -/
theorem collect_eq : collect cfg closing s =
    match closeTransport cfg closing s with
    | (.ok (), s') => (.ok (), forget (s'.others.foldl collected s'))
    | (.error e, s') => (.error e, s') := by
  simp only [collect, Effect.bind_run, collectChannels_run, Effect.modify_run]
  rcases closeTransport cfg closing s with ⟨e | _, s'⟩
  · rfl
  · rfl

theorem closeTransport_run (h : closing.OSErrorsOnly) (hwrapped : s.Wrapped cfg) :
    ∃ transports, closeTransport cfg closing s = (.ok (), { s with transports }) ∧
      ∀ t, s.transport = some t → (transports t).sock = none ∧ (transports t).connected = false := by
  obtain htransport | ⟨t, htransport⟩ := Option.eq_none_or_eq_some s.transport
  · have hnothing : closeTransport cfg closing s = (.ok (), s) := by
      simp [closeTransport, htransport]
    exact ⟨s.transports, hnothing, fun t ht => by simp [htransport] at ht⟩
  · obtain ⟨endpoint, hrun, hsock, hconnected⟩ := Endpoint.close_ends h (hwrapped t htransport)
    refine ⟨Function.update s.transports t endpoint, by simp [closeTransport, htransport, hrun],
      fun t' ht' => ?_⟩
    obtain rfl := Option.some.inj (htransport.symm.trans ht')
    rw [Function.update_self]
    exact ⟨hsock, hconnected⟩

theorem collect_collected (h : closing.OSErrorsOnly) (hwrapped : s.Wrapped cfg)
    (hnodup : s.usedChannelIds.Nodup) :
    ∃ s', collect cfg closing s = (.ok (), s') ∧ Collected s s' := by
  obtain ⟨transports, hclose, hclosed⟩ := closeTransport_run h hwrapped
  rw [collect_eq, hclose]
  refine ⟨_, rfl, rfl, by simp [forget], rfl, ?_, fun o ho => ?_, fun o ho hattached id hid => ?_⟩
  · rw [forget, foldl_collected_transports]
    exact hclosed
  · have hbare := foldl_collected_bare (s := { s with transports }) ho
    refine ⟨?_, hbare.channelId, hbare.isOpen, hbare.listeners⟩
    have hzero : o ≠ 0 := of_decide_eq_true (List.mem_filter.mp ho).2
    exact (Function.update_of_ne hzero ..).trans hbare.attached
  · exact foldl_collected_freed (s := { s with transports }) ho hnodup hattached hid

/-- A socket that was not wrapped is in the way, and nothing has been done. -/
theorem collect_unwrapped (h : ¬ s.Wrapped cfg) :
    collect cfg closing s = (.error .attributeError, s) := by
  obtain ⟨t, htransport, hplain⟩ : ∃ t, s.transport = some t ∧ ¬ (s.transports t).Wrapped cfg := by
    simpa [Wrapped] using h
  have hclose : closeTransport cfg closing s = (.error .attributeError, s) := by
    unfold closeTransport
    split
    next t' ht' =>
      obtain rfl := Option.some.inj (htransport.symm.trans ht')
      simp only [Endpoint.close_unwrapped hplain, Function.update_eq_self]
    next hnone => simp [htransport] at hnone
  rw [collect_eq, hclose]

/-- A connection that is collected stays as it is when it is collected again. -/
theorem Collected.again {s' : Assembly κ} (h : Collected s s') (closing : CloseCalls) :
    collect cfg closing s' = (.ok (), s') := by
  have hforget : s'.forget = s' := by
    obtain ⟨⟨channels, used, channelMax, channelId, attached, created⟩, isOpen, listeners,
      transports, transport⟩ := s'
    obtain rfl : transport = none := h.transport
    obtain rfl : channels = none := h.channels
    have hattached : Function.update attached 0 false = attached := by
      rw [← h.connection]
      exact Function.update_eq_self ..
    simp only [forget, hattached]
  simp [collect, closeTransport, collectChannels, h.transport, h.channels, hforget]

theorem Bare.again {o : Nat} (h : s.Bare o) : collectChannel o s = (.ok (), s) := by
  rw [collectChannel_run fun hattached => by simp [h.attached] at hattached]
  obtain ⟨⟨channels, used, channelMax, channelId, attached, created⟩, isOpen, listeners,
    transports, transport⟩ := s
  obtain ⟨hattached, hid, hopen, hlisteners⟩ := h
  change channelId o = none at hid
  have hsame : Function.update attached o false = attached ∧
      Function.update isOpen o false = isOpen ∧ Function.update listeners o {} = listeners := by
    refine ⟨?_, ?_, ?_⟩
    · rw [← hattached, Function.update_eq_self]
    · rw [← hopen, Function.update_eq_self]
    · rw [← hlisteners, Function.update_eq_self]
  simp only [Assembly.collected, Registry.collectChannel, hid, hsame.1, hsame.2.1, hsame.2.2]

end Connections

/-- `collect` returns and has collected everything. Doing so again, or collecting one of the
channels, changes nothing. -/
def Completes (cfg : TransportConfig) (closing : CloseCalls) (s : Assembly κ) : Prop :=
  ∃ s', collect cfg closing s = (.ok (), s') ∧ Collected s s' ∧
    (∀ closing', collect cfg closing' s' = (.ok (), s')) ∧
    ∀ o ∈ s.others, collectChannel o s' = (.ok (), s')

/-- Where the steps of closing a socket raise nothing but `OSError`s, collecting a connection
is complete, unless its transport is a `SSLTransport` whose socket was not wrapped. -/
theorem collect_complete_iff (cfg : TransportConfig) (closing : CloseCalls) (s : Consistent κ)
    (h : closing.OSErrorsOnly) :
    Completes cfg closing s.toAssembly ↔ s.Wrapped cfg := by
  constructor
  · rintro ⟨s', hrun, -⟩
    by_contra hplain
    rw [collect_unwrapped hplain] at hrun
    cases hrun
  · intro hwrapped
    obtain ⟨s', hrun, hcollected⟩ := collect_collected h hwrapped s.nodup
    exact ⟨s', hrun, hcollected, hcollected.again, fun o ho => (hcollected.bare o ho).again⟩

/-- The connection with an open channel, over a wrapped socket. -/
def opened : Consistent Unit :=
  .ofRun (P := plainPromises Reply) plainConfig openEvents
    (fun _ => { callbacks := [([], ())], noAckConsumers := [[]] })
    fun _ => { Endpoint.init with connected := true, sock := some .ssl, receiving := true }

/-- The unwrapping and the closing of its socket fail. -/
def failing : CloseCalls where
  unwrap := .error (.sslError none false)
  close := .error (.osError none)

theorem failing_osErrorsOnly : failing.OSErrorsOnly := by
  refine ⟨fun e he => ?_, fun e he => ?_, fun e he => ?_⟩
  · obtain rfl : PyError.sslError none false = e := Except.error.inj he
    rfl
  · cases he
  · obtain rfl : PyError.osError none = e := Except.error.inj he
    rfl

theorem collect_complete_iff_opened :
    opened.others = [1] ∧ opened.transport = some 0 ∧
      Completes Endpoint.sslConfig failing opened.toAssembly := by
  have hwrapped : opened.Wrapped Endpoint.sslConfig := fun t _ _ => by
    show (some TransportKind.ssl : Option TransportKind) ≠ some .tcp
    decide
  refine ⟨by decide +kernel, by decide +kernel, ?_⟩
  exact (collect_complete_iff Endpoint.sslConfig failing opened failing_osErrorsOnly).mpr hwrapped

/-- `connect` whose wrapping of the socket has raised a `ValueError`, which it does not catch. -/
def plain : Consistent Unit :=
  .ofRun (P := plainPromises Reply) plainConfig [.connect (.failed .valueError true)] (fun _ => {})
    fun _ => Endpoint.run Endpoint.sslConfig
      [.connect { wrap := .error .valueError, stream := [] }]

/-- Its socket stays open, its transport in place and its channels with it, whatever the steps
of closing a socket do. -/
theorem collect_complete_iff_plain :
    plain.transport = some 0 ∧ (plain.transports 0).sock = some .tcp ∧
      plain.channels = some [(0, 0)] ∧
      ∀ closing, collect Endpoint.sslConfig closing plain.toAssembly =
          (.error .attributeError, plain.toAssembly) ∧
        ¬ Completes Endpoint.sslConfig closing plain.toAssembly := by
  have hplain : ¬ plain.Wrapped Endpoint.sslConfig := fun hwrapped =>
    absurd (by decide +kernel) (hwrapped 0 rfl rfl)
  refine ⟨by decide +kernel, by decide +kernel, by decide +kernel, fun closing => ?_⟩
  have hraises : collect Endpoint.sslConfig closing plain.toAssembly =
      (.error .attributeError, plain.toAssembly) := collect_unwrapped hplain
  refine ⟨hraises, ?_⟩
  rintro ⟨s', hrun, -⟩
  cases hraises.symm.trans hrun

/-! The machine of a connection -/

variable {P : Promises Reply}

/-- The machine has the same channels and transports, of which it knows less. -/
structure Shows (s : Assembly κ) (m : Connection P) : Prop where
  registry : m.toRegistry = s.toRegistry
  isOpen : m.isOpen = s.isOpen
  transport : m.transport = s.transport
  sock : ∀ t, (m.wires t).sock = (s.transports t).sock.isSome
  connected : ∀ t, (m.wires t).connected = (s.transports t).connected

/-- The transport in place is closed, and the others are as they were. -/
def Closes (s : Assembly κ) (transports : Nat → Endpoint) : Prop :=
  ∀ t, if s.transport = some t then (transports t).sock = none ∧ (transports t).connected = false
    else transports t = s.transports t

/-- Closing the transport in place gives up its socket, or raises and keeps one. -/
theorem closeTransport_cases (cfg : TransportConfig) (closing : CloseCalls) (s : Assembly κ) :
    (∃ transports, closeTransport cfg closing s = (.ok (), { s with transports }) ∧
        s.Closes transports) ∨
      ∃ t e transports, closeTransport cfg closing s = (.error e, { s with transports }) ∧
        s.transport = some t ∧ (s.transports t).sock.isSome = true ∧
        ∀ t', (transports t').sock.isSome = (s.transports t').sock.isSome ∧
          (transports t').connected = (s.transports t').connected := by
  obtain htransport | ⟨t, htransport⟩ := Option.eq_none_or_eq_some s.transport
  · have hnothing : closeTransport cfg closing s = (.ok (), s) := by
      simp [closeTransport, htransport]
    exact .inl ⟨s.transports, hnothing, fun t => by simp [htransport]⟩
  · have hrun : closeTransport cfg closing s =
        ((Endpoint.close cfg closing (s.transports t)).1, { s with
          transports :=
            Function.update s.transports t (Endpoint.close cfg closing (s.transports t)).2 }) := by
      simp [closeTransport, htransport]
    have hkeeps := @Endpoint.close_keeps cfg closing (s.transports t) _ rfl
    rw [hrun]
    revert hkeeps
    rcases Endpoint.close cfg closing (s.transports t) with ⟨e | _, endpoint⟩
    · rintro ⟨hsock, hsock', hconnected⟩
      refine .inr ⟨t, e, _, rfl, htransport, hsock, fun t' => ?_⟩
      by_cases ht : t' = t
      · subst ht
        simp only [Function.update_self]
        exact ⟨hsock'.trans hsock.symm, hconnected⟩
      · simp only [Function.update_of_ne ht, and_self]
    · rintro hclosed
      refine .inl ⟨_, rfl, fun t' => ?_⟩
      by_cases ht : t = t'
      · subst ht
        simpa [htransport] using hclosed
      · simp [htransport, ht, Ne.symm ht]

/-- What the machine does at once when the transport is closed. -/
theorem Shows.collected {s : Assembly κ} {m : Connection P} (h : s.Shows m)
    {transports : Nat → Endpoint} (hcloses : s.Closes transports) :
    (forget (s.others.foldl collected { s with transports })).Shows (Connection.collected m) := by
  have hwires : ∀ t, ((Connection.collected m).wires t).sock = (transports t).sock.isSome ∧
      ((Connection.collected m).wires t).connected = (transports t).connected := by
    intro t
    have hclosed := hcloses t
    rw [← h.transport] at hclosed
    obtain hnone | ⟨t', ht'⟩ := Option.eq_none_or_eq_some m.transport
    · have hsame : transports t = s.transports t := by simpa [hnone] using hclosed
      rw [hsame, ← h.sock, ← h.connected]
      simp [Connection.collected, Link.collect, Link.onWire, hnone]
    · by_cases ht : t = t'
      · subst ht
        have hclosed : (transports t).sock = none ∧ (transports t).connected = false := by
          simpa [ht'] using hclosed
        simp [Connection.collected, Link.collect, Link.onWire, ht', hclosed]
      · have hsame : transports t = s.transports t := by simpa [ht', Ne.symm ht] using hclosed
        rw [hsame, ← h.sock, ← h.connected]
        simp [Connection.collected, Link.collect, Link.onWire, ht', ht]
  constructor
  · simp only [forget, Connection.collected, foldl_collected_registry, h.registry, Registry.collect]
  · simp only [forget, Connection.collected, foldl_collected_isOpen, h.isOpen, h.registry]
  · rfl
  · intro t
    simpa only [forget, foldl_collected_transports] using (hwires t).1
  · intro t
    simpa only [forget, foldl_collected_transports] using (hwires t).2

/-- Where closing the transport has the outcome that the machine is given, `collect` has the
same outcome in both, and they go on as the same connection. -/
theorem collect_shows {config : Config} {cfg : TransportConfig} {closing : CloseCalls}
    {s : Assembly κ} {m : Connection P} (h : s.Shows m)
    (hclosing : ∀ t, s.transport = some t → (s.transports t).sock.isSome = true →
      config.closing m.closes = (closeTransport cfg closing s).1) :
    (Connection.collect config m).1 = (collect cfg closing s).1 ∧
      (collect cfg closing s).2.Shows (Connection.collect config m).2 := by
  have hholds : ∀ t, s.transport = some t → m.holdsSocket = (s.transports t).sock.isSome := by
    intro t ht
    simp [Link.holdsSocket, Link.place, h.transport, ht, h.sock]
  rw [collect_eq]
  simp only [Connection.collect, Effect.bind_run, Effect.modify_run, Connection.closeTransport]
  obtain ⟨transports, hrun, hcloses⟩ | ⟨t, e, transports, hrun, ht, hsock, hkeeps⟩ :=
    closeTransport_cases cfg closing s
  · have hend := h.collected hcloses
    rw [hrun]
    cases hheld : m.holdsSocket with
    | false => exact ⟨rfl, hend⟩
    | true =>
        obtain hnone | ⟨t, ht⟩ := Option.eq_none_or_eq_some m.transport
        · simp [Link.holdsSocket, Link.place, hnone] at hheld
        · have ht : s.transport = some t := h.transport.symm.trans ht
          have houtcome : config.closing m.closes = .ok () := by
            rw [hclosing t ht ((hholds t ht).symm.trans hheld), hrun]
          simp only [houtcome]
          exact ⟨rfl, ⟨hend.registry, hend.isOpen, hend.transport, hend.sock, hend.connected⟩⟩
  · rw [if_pos ((hholds t ht).trans hsock), hclosing t ht hsock, hrun]
    refine ⟨rfl, h.registry, h.isOpen, h.transport, fun t' => ?_, fun t' => ?_⟩
    · rw [(hkeeps t').1]
      exact h.sock t'
    · rw [(hkeeps t').2]
      exact h.connected t'

end Assembly

end Connection

end PyAmqp
