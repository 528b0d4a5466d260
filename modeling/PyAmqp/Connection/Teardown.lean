import PyAmqp.Connection.Closing
import PyAmqp.Base.Run

/-!
`Connection.close` runs the listeners of all channels while it waits, but collects the
connection only for an `OSError`, or when `CloseOk` or a server's `Close` is read. When
nothing else reaches it and its transport can be closed, it leaves nothing behind.
-/

namespace PyAmqp

namespace Connection

variable {P : Promises Reply}

/-- The transport is gone, and its socket with it. -/
def Link.TornDown (l : Link) (t : Nat) : Prop :=
  l.transport = none ∧ (l.wires t).sock = false ∧ (l.wires t).connected = false

/-- The connection is collected, and so is the transport that was closed. -/
def Entry.TornDown : Entry → Prop
  | .closed t registry link =>
      registry.attached 0 = false ∧ registry.channels = none ∧ link.TornDown t
  | .connected _ => True

instance (l : Link) (t : Nat) : Decidable (l.TornDown t) :=
  inferInstanceAs (Decidable (_ ∧ _ ∧ _))

instance : (entry : Entry) → Decidable entry.TornDown
  | .closed _ _ _ => inferInstanceAs (Decidable (_ ∧ _ ∧ Link.TornDown _ _))
  | .connected _ => .isTrue trivial

/-- Closing the transport raises nothing. -/
def closesQuietly (cfg : Config) (s : Connection P) : Bool :=
  !s.holdsSocket || (cfg.closing s.closes).isOk

/-- The `Close` is written, or writing it raises an `OSError` and `collect` nothing. -/
def closesDown (cfg : Config) (s : Connection P) : Bool :=
  match cfg.write s.writes with
  | .ok () => true
  | .error e => e.isOSError && s.closesQuietly cfg

def Setup.isRefused : Setup → Bool
  | .refused _ => true
  | _ => false

/-- A `close` is of a connection that was not collected, and its request is written or
raises an `OSError`; what reaches it while it waits is an `OSError` or comes after the
connection has been collected; where an `OSError` has it collect the connection, closing the
transport raises nothing; and no transport is set up while it waits. -/
def TearsDown (cfg : Config) (s : Connection P) : Event → Prop
  | .close =>
      s.MayCall 0 → s.transport ≠ none → s.attached 0 = true ∧ s.closesDown cfg = true
  | .connect setup =>
      s.MayConnect → s.connected = false → setup.isRefused = false →
        ∀ entry ∈ s.closing, entry.2.isCloseConnection = false
  | .go =>
      ∀ raised ∈ s.raisesTo, raised.1.task.isCloseConnection = true →
        raised.2.isOSError = true ∧ s.closesQuietly cfg = true ∨ s.attached 0 = false
  | _ => True

instance (cfg : Config) (s : Connection P) : (event : Event) → Decidable (TearsDown cfg s event)
  | .close => inferInstanceAs (Decidable (_ → _ → _ ∧ _))
  | .connect _ => inferInstanceAs (Decidable (_ → _ → _ → ∀ entry ∈ s.closing, _))
  | .go => inferInstanceAs (Decidable (∀ raised ∈ s.raisesTo, _ → _ ∧ _ ∨ _))
  | .collect | .channel _ | .open _ | .closeChannel _ | .collectChannel _ | .send _ _
    | .call _ _ _ _ | .return | .raise _ | .deliver _ _ | .fail _ => .isTrue trivial

/-! A transport that is closed -/

/-- The transport in place and the sockets stay, and no transport connects. -/
structure Link.Stays (l l' : Link) : Prop where
  transport : l'.transport = l.transport
  sock : ∀ t, (l'.wires t).sock = (l.wires t).sock
  dropped : ∀ t, (l.wires t).connected = false → (l'.wires t).connected = false

theorem Link.Wrote.stays {l l' : Link} (h : l.Wrote l') : l.Stays l' :=
  ⟨h.transport, h.sock, h.dropped⟩

/-- The transport stays in place until the connection is collected. -/
def Holds (r : Registry) (l : Link) (t : Nat) : Prop :=
  (r.attached 0 = true → l.transport = some t) ∧ (r.attached 0 = false → l.TornDown t)

namespace Holds

variable {r r' : Registry} {l l' : Link} {t : Nat}

theorem stays (h : Holds r l t) (hattached : r'.attached 0 = r.attached 0) (hl : l.Stays l') :
    Holds r' l' t := by
  refine ⟨fun h' => ?_, fun h' => ?_⟩
  · rw [hl.transport]
    exact h.1 (hattached ▸ h')
  · obtain ⟨htransport, hsock, hconnected⟩ := h.2 (hattached ▸ h')
    exact ⟨hl.transport.trans htransport, (hl.sock t).trans hsock, hl.dropped t hconnected⟩

theorem collect (h : Holds r l t) : l.collect.TornDown t := by
  cases hattached : r.attached 0 with
  | true =>
      have htransport := h.1 hattached
      simp [Link.TornDown, Link.collect, Link.onWire, htransport]
  | false =>
      obtain ⟨htransport, hsock, hconnected⟩ := h.2 hattached
      simp [Link.TornDown, Link.collect, Link.onWire, htransport, hsock, hconnected]

theorem collectsOn {closing : Except PyError Unit} {e : PyError} (h : Holds r l t)
    (hcollects : CollectsOn closing e r l r' l')
    (he : e.isOSError = true ∧ (!l.holdsSocket || closing.isOk) = true ∨ r.attached 0 = false) :
    r'.attached 0 = false ∧ l'.TornDown t := by
  cases hcollects with
  | kept hnot =>
      have hattached : r.attached 0 = false := by
        refine he.resolve_left ?_
        rintro ⟨hos, hquiet⟩
        obtain hno | ⟨hholds, e', rfl⟩ := hnot
        · simp [hos] at hno
        · simp [hholds, Except.isOk, Except.toBool] at hquiet
      exact ⟨hattached, h.2 hattached⟩
  | collected => exact ⟨r.collect_attached, h.collect⟩

end Holds

/-- A collected connection has no channels, and a `close` of a connection that waits holds
the transport it closes. -/
structure HoldsAll (r : Registry) (l : Link) (k : Calls P) : Prop where
  gone : r.attached 0 = false → r.channels = none
  holds : ∀ o t, (o, .closeConnection t) ∈ k.closing → Holds r l t

section Moves

variable {cfg : Config} {s : Connection P} {event : Event} {r : Registry} {l : Link} {k : Calls P}
  {log : List Entry}

/-- What a step does to the connection itself: it keeps it, collects it, or sets up a
transport. -/
inductive Keeps (s : Connection P) (r : Registry) : Link → Event → Prop
  | keeps {l : Link} {event : Event} (hattached : r.attached 0 = s.attached 0)
      (hchannels : s.channels = none → r.channels = none) (hl : s.toLink.Stays l) :
      Keeps s r l event
  | collects {l : Link} {event : Event} (hr : r = s.toRegistry.collect)
      (hl : s.toLink.Stays l) : Keeps s r l.collect event
  | connects {l : Link} {setup : Setup} (hmay : s.MayConnect) (hconnected : s.connected = false)
      (hsetup : setup.isRefused = false)
      (hr : r = s.toRegistry ∨ r = s.toRegistry.collect) : Keeps s r l (.connect setup)

/-- Losing its connection is a channel's own affair. -/
theorem detach_keeps {o : Nat} (ho : o ≠ 0) (hl : s.toLink.Stays l) :
    Keeps s (s.detach o) l event :=
  .keeps (Function.update_of_ne ho.symm ..) id hl

theorem collectChannel_keeps {o : Nat} (ho : o ≠ 0) (hl : s.toLink.Stays l) :
    Keeps s (s.toRegistry.collectChannel o) l event := by
  refine .keeps ?_ (fun hnone => ?_) hl
  · rw [(s.toRegistry.collectChannel_attached o).1, Function.update_of_ne ho.symm]
  · unfold Registry.collectChannel
    split <;> simp [hnone]

theorem construct_keeps {id : Option Nat} {outcome : Except PyError Nat}
    (hcreated : 0 < s.created) (hconstruct : Registry.construct id s.toRegistry = (outcome, r))
    (hl : s.toLink.Stays l) : Keeps s r l event := by
  obtain ⟨id', -, -, hrun⟩ | ⟨e, hrun⟩ := Registry.construct_cases id s.toRegistry
  all_goals obtain ⟨-, rfl⟩ := Prod.mk.inj (hconstruct.symm.trans hrun)
  · refine .keeps (Function.update_of_ne hcreated.ne ..) (fun hnone => ?_) hl
    simp [Registry.issue, Registry.register, hnone]
  · exact .keeps rfl (fun hnone => hnone) hl

theorem CollectsOn.keeps {closing : Except PyError Unit} {e : PyError} {l' : Link}
    (h : CollectsOn closing e s.toRegistry l r l') (hl : s.toLink.Stays l) :
    Keeps s r l' event := by
  cases h with
  | kept => exact .keeps rfl id hl
  | collected => exact .collects rfl hl

theorem connectFails_keeps {setup : Setup} {e : PyError} {l' : Link} (hmay : s.MayConnect)
    (hconnected : s.connected = false) (hsetup : s.setup setup = (.error e, l))
    (hcollects : CollectsOn (cfg.closing s.closes) e s.toRegistry l r l') :
    Keeps s r l' (.connect setup) := by
  have hr : r = s.toRegistry ∨ r = s.toRegistry.collect := by
    cases hcollects with
    | kept => exact .inl rfl
    | collected => exact .inr rfl
  cases setup with
  | refused e' =>
      obtain ⟨-, rfl⟩ := Prod.mk.inj hsetup
      exact hcollects.keeps ⟨rfl, fun _ => rfl, fun _ h => h⟩
  | failed e' sock => exact .connects hmay hconnected rfl hr
  | up => exact .connects hmay hconnected rfl hr

theorem Move.keeps (hreachable : s.Reachable) (hmove : Move cfg s event r l k log) :
    Keeps s r l event := by
  have hstays : s.toLink.Stays s.toLink := (Link.Wrote.refl _).stays
  cases hmove with
  | stays hl | closes _ _ _ hl | asks _ _ hl | closesChannel _ _ hl | takes hl
    | listens _ hl | revives _ hl => exact .keeps rfl id hl.stays
  | handshakes _ _ hl => exact .keeps rfl id ⟨hl.transport, hl.sock, hl.dropped⟩
  | connected | connectReturns | closeReturns | pops | calls | leaves =>
      exact .keeps rfl id hstays
  | connectFails hmay hconnected hsetup hcollects =>
      exact connectFails_keeps hmay hconnected hsetup hcollects
  | connects hmay hconnected hsetup =>
      refine .connects hmay hconnected ?_ (.inl rfl)
      unfold Setup.isRefused
      split
      · simp [Link.setup] at hsetup
      · rfl
  | connectRaises _ _ hcollects | closeRaises _ _ _ hcollects => exact hcollects.keeps hstays
  | closeRefused _ _ hl _ hcollects => exact hcollects.keeps hl.stays
  | collects => exact .collects rfl hstays
  | constructs hconstruct hl =>
      exact construct_keeps hreachable.allocated.created hconstruct hl.stays
  | detaches ho _ _ hl => exact detach_keeps ho hl.stays
  | @closeChannelEnds id _ hstack htask =>
      have hid : id < s.begun := hreachable.promised.stack id (by simp [hstack])
      exact detach_keeps (hreachable.promised.channel id hid htask) hstays
  | collectsChannel ho => exact collectChannel_keeps ho hstays
  | closesDown _ hl => exact .collects rfl hl.stays
  | closesDownChannel ho _ hl => exact collectChannel_keeps ho hl.stays

/-! Runs -/

/-- A `close` that waits after a step waited before it, or holds the transport in place. -/
theorem Closes.holds (h : HoldsAll s.toRegistry s.toLink s.toCalls) (hcloses : Closes s k event)
    {o t : Nat} (hmem : (o, .closeConnection t) ∈ k.closing) :
    Holds s.toRegistry s.toLink t ∧
      (event ≠ .close → ∃ entry ∈ s.closing, entry.2.isCloseConnection = true) := by
  have hold : (o, .closeConnection t) ∈ s.closing → Holds s.toRegistry s.toLink t ∧
      (event ≠ .close → ∃ entry ∈ s.closing, entry.2.isCloseConnection = true) :=
    fun hmem => ⟨h.holds o t hmem, fun _ => ⟨_, hmem, rfl⟩⟩
  cases hcloses with
  | keeps hclosing | refused _ _ hclosing => exact hold (hclosing ▸ hmem)
  | starts htransport hattached _ hclosing =>
      rw [hclosing] at hmem
      rcases List.mem_cons.mp hmem with heq | hmem
      · simp only [Prod.mk.injEq, Task.closeConnection.injEq] at heq
        obtain ⟨-, rfl⟩ := heq
        exact ⟨⟨fun _ => htransport, fun hnot => by simp [hattached] at hnot⟩, by simp⟩
      · exact hold hmem
  | startsChannel _ hclosing =>
      rw [hclosing] at hmem
      exact hold ((List.mem_cons.mp hmem).resolve_left (by simp))
  | ends hclosing => exact hold (by rw [hclosing]; exact List.mem_cons_of_mem _ hmem)

theorem HoldsAll.move (h : HoldsAll s.toRegistry s.toLink s.toCalls) (hreachable : s.Reachable)
    (htears : TearsDown cfg s event) (hmove : Move cfg s event r l k log) : HoldsAll r l k := by
  have hcloses := hmove.closing hreachable
  cases hmove.keeps hreachable with
  | keeps hattached hchannels hl =>
      refine ⟨fun hgone => hchannels (h.gone (hattached ▸ hgone)), fun o t hmem => ?_⟩
      exact (hcloses.holds h hmem).1.stays hattached hl
  | collects hr hl =>
      subst hr
      refine ⟨fun _ => rfl, fun o t hmem => ?_⟩
      have hholds := (hcloses.holds h hmem).1.stays rfl hl
      exact ⟨fun hnot => by simp [Registry.collect_attached] at hnot, fun _ => hholds.collect⟩
  | @connects _ setup hmay hconnected hsetup hr =>
      refine ⟨fun hgone => ?_, fun o t hmem => ?_⟩
      · obtain rfl | rfl := hr
        · exact h.gone hgone
        · rfl
      · obtain ⟨entry, hentry, hconnection⟩ := (hcloses.holds h hmem).2 (by simp)
        simp [htears hmay hconnected hsetup entry hentry] at hconnection

/-- The transport that a `close` on top closes. -/
theorem HoldsAll.top (h : HoldsAll s.toRegistry s.toLink s.toCalls) {id t : Nat}
    {rest : List Activation} (hstack : s.stack = .wait id :: rest)
    (htask : (s.waits id).task = .closeConnection t) : Holds s.toRegistry s.toLink t := by
  refine h.holds (s.waits id).owner t ?_
  rw [Calls.leaveWait_closing hstack, Waiting.closing?, htask]
  simp [Task.closes]

/-- What a step adds to the log. -/
theorem Move.tornDown_entries (h : HoldsAll s.toRegistry s.toLink s.toCalls)
    (hreachable : s.Reachable) (htears : TearsDown cfg s event)
    (hlog : ∀ entry ∈ s.log, entry.TornDown) (hmove : Move cfg s event r l k log) :
    ∀ entry ∈ log, entry.TornDown := by
  have hgone := (h.move hreachable htears hmove).gone
  have happend : ∀ added : Entry, added.TornDown → ∀ entry ∈ s.log ++ [added], entry.TornDown := by
    intro added hadded entry hentry
    rcases List.mem_append.mp hentry with hmem | hmem
    · exact hlog entry hmem
    · exact List.mem_singleton.mp hmem ▸ hadded
  cases hmove with
  | connected | connectReturns => exact happend _ trivial
  | @closeRefused t l l' e r htransport hcall hl hrefused hcollects =>
      obtain ⟨hattached, hwrite⟩ := htears hcall (by simp [htransport])
      obtain ⟨e', herror, he⟩ := hrefused hattached
      obtain ⟨hos', hquiet⟩ : e'.isOSError = true ∧ s.closesQuietly cfg = true := by
        simpa [Connection.closesDown, herror] using hwrite
      have hos : e.isOSError = true := by
        rw [he, if_neg ?_]
        · exact hos'
        · rintro rfl
          simp [PyError.isOSError] at hos'
      have hholds : Holds s.toRegistry l t :=
        ⟨fun _ => hl.transport.trans htransport, fun hnot => by simp [hattached] at hnot⟩
      have hquiet' : (!l.holdsSocket || (cfg.closing s.closes).isOk) = true := by
        rw [hl.holdsSocket]
        exact hquiet
      obtain ⟨hattached', htorn⟩ := hholds.collectsOn hcollects (.inl ⟨hos, hquiet'⟩)
      exact happend _ ⟨hattached', hgone hattached', htorn⟩
  | @closeReturns id t rest hstack htask hready =>
      have hid : id < s.begun := hreachable.promised.stack id (by simp [hstack])
      have hattached := hreachable.promised.ready id hid (by rw [htask]; rfl) hready
      rw [hreachable.promised.connection id hid t htask] at hattached
      exact happend _ ⟨hattached, hgone hattached, (h.top hstack htask).2 hattached⟩
  | @closeRaises id t rest e r l hstack htask hcontrol hcollects =>
      have he : e.isOSError = true ∧ s.closesQuietly cfg = true ∨ s.attached 0 = false :=
        htears _ (raisesTo_eq hstack hcontrol) (by rw [htask]; rfl)
      obtain ⟨hattached, htorn⟩ := (h.top hstack htask).collectsOn hcollects he
      exact happend _ ⟨hattached, hgone hattached, htorn⟩
  | _ => exact hlog

end Moves

/-- In every run whose steps tear down, a `close` that has returned or raised leaves the
connection collected and the transport it closed without its socket. -/
theorem run_tornDown (cfg : Config) (events : List Event)
    (htears : Run.Along (step cfg) (TearsDown cfg) (init cfg : Connection P) events) :
    ∀ entry ∈ (run cfg events : Connection P).log, entry.TornDown := by
  have hstart : (init cfg : Connection P).Reachable ∧
      HoldsAll (init cfg : Connection P).toRegistry (init cfg : Connection P).toLink
        (init cfg : Connection P).toCalls ∧
      ∀ entry ∈ (init cfg : Connection P).log, entry.TornDown := by
    refine ⟨init_reachable cfg, ⟨?_, ?_⟩, ?_⟩
    · simp [init]
    · simp [init, Calls.closing, Activation.closing?]
    · simp [init]
  have hrun := Run.invariant
    (I := fun s : Connection P => s.Reachable ∧ HoldsAll s.toRegistry s.toLink s.toCalls ∧
      ∀ entry ∈ s.log, entry.TornDown)
    (fun s event h hcond => ⟨h.1.step cfg event, h.2.1.move h.1 hcond (step_move cfg s event),
      (step_move cfg s event).tornDown_entries h.2.1 h.1 hcond h.2.2⟩)
    hstart htears
  exact hrun.2.2

/-- `close` with a message for a consumer and a `Blocked` before its `CloseOk`. -/
def closedEvents : List Event :=
  openEvents ++
    [.close, .go,
      .deliver 2 { methodSig := Spec.Basic.deliver
                   payload := [0, 60, 0, 60, 0, 0, 0, 0, 0, 0, 0, 0, 1, 0, 0, 0] },
      .return, .go, .go,
      .deliver 0 { methodSig := Spec.Connection.blocked, payload := [] }, .go,
      .deliver 0 { methodSig := Spec.Connection.closeOk, payload := [] }, .go, .go, .go]

theorem run_tornDown_closed :
    let s : Connection (plainPromises Reply) := run plainConfig closedEvents
    s.Idle ∧ s.stack.length = 1 ∧ s.log.length = 2 ∧ ∀ entry ∈ s.log, entry.TornDown :=
  ⟨by decide +kernel, by decide +kernel, by decide +kernel,
    run_tornDown plainConfig closedEvents (by decide +kernel)⟩

/-- `ConsumerCancelled('t', spec.Basic.Cancel)` -/
def consumerCancelled : PyError :=
  .amqp { cls := .consumerCancelled
          replyText := .received (PyStr.ofString "t")
          methodSig := some Spec.Basic.cancel }

/-- `close` waits, and the server cancels the consumer `t`. -/
def cancelledEvents : List Event :=
  openEvents ++
    [.close, .go,
      .deliver 2 { methodSig := Spec.Basic.cancel, payload := [0, 60, 0, 30, 1, 116] },
      .raise consumerCancelled, .go, .go, .go]

/-- `close` has raised `ConsumerCancelled`, and no call is in progress: the transport is in
place and connected, `Connection.Close` was sent on it, and the channels are there. -/
theorem run_tornDown_cancelled :
    let s : Connection (plainPromises Reply) := run plainConfig cancelledEvents
    s.Idle ∧ s.stack.length = 1 ∧
      s.place = some { connected := true, sock := true, openOk := true, closeSent := true } ∧
      s.channels = some [(0, 0), (2, 1)] ∧ s.attached 0 = true ∧
      ¬ ∀ entry ∈ s.log, entry.TornDown := by
  decide +kernel

/-- The peer hangs up: `Close` cannot be written, and the SSL socket cannot be unwrapped. -/
def hungUp : Config :=
  { plainConfig with
    write := fun n => if n = 4 then .error (.osError none) else .ok ()
    closing := fun _ => .error .valueError }

example :
    let s : Connection (plainPromises Reply) := run hungUp (openEvents ++ [.close])
    s.control = .raising .valueError ∧ s.holdsSocket = true ∧ s.attached 0 = true := by
  decide +kernel

end Connection

end PyAmqp
