import PyAmqp.Channel.Registered
import PyAmqp.Connection.Machine

/-!
What a step of a connection can do, once for all invariants: each `Move` is one way for
the registry, the link, the calls and the log to change.
-/

namespace PyAmqp

namespace Connection

/-! The link -/

namespace Link

/-- Sending and reading keep the transports in place, and a transport keeps its socket;
no transport connects, and what was received on one stays received. -/
structure Wrote (l l' : Link) : Prop where
  same : l' = { l with wires := l'.wires }
  sock : ∀ t, (l'.wires t).sock = (l.wires t).sock
  openOk : ∀ t, (l.wires t).openOk = true → (l'.wires t).openOk = true
  dropped : ∀ t, (l.wires t).connected = false → (l'.wires t).connected = false

namespace Wrote

variable {l l' l'' : Link}

theorem refl (l : Link) : l.Wrote l := ⟨rfl, fun _ => rfl, fun _ h => h, fun _ h => h⟩

theorem trans (h : l.Wrote l') (h' : l'.Wrote l'') : l.Wrote l'' := by
  refine ⟨?_, fun t => (h'.sock t).trans (h.sock t), fun t ht => h'.openOk t (h.openOk t ht),
    fun t ht => h'.dropped t (h.dropped t ht)⟩
  rw [h'.same, h.same]

theorem transport (h : l.Wrote l') : l'.transport = l.transport := by rw [h.same]

theorem made (h : l.Wrote l') : l'.made = l.made := by rw [h.same]

theorem holdsSocket (h : l.Wrote l') : l'.holdsSocket = l.holdsSocket := by
  unfold Link.holdsSocket Link.place
  rw [h.transport]
  cases l.transport with
  | none => rfl
  | some t => exact h.sock t

theorem handshakeComplete (h : l.Wrote l') : l'.handshakeComplete = l.handshakeComplete := by
  rw [h.same]

end Wrote

theorem onWire_wrote {f : Wire → Wire} (t : Option Nat) (l : Link)
    (hsock : ∀ wire, (f wire).sock = wire.sock)
    (hopenOk : ∀ wire, wire.openOk = true → (f wire).openOk = true)
    (hdropped : ∀ wire, wire.connected = false → (f wire).connected = false) :
    l.Wrote (l.onWire t f) := by
  cases t with
  | none => exact .refl l
  | some t =>
      have hwire : ∀ t', (l.onWire (some t) f).wires t' = l.wires t' ∨
          (l.onWire (some t) f).wires t' = f (l.wires t') := by
        intro t'
        by_cases ht : t' = t
        · subst ht
          exact .inr (Function.update_self ..)
        · exact .inl (Function.update_of_ne ht ..)
      refine ⟨rfl, fun t' => ?_, fun t' h => ?_, fun t' h => ?_⟩
      all_goals obtain heq | heq := hwire t'
      all_goals rw [heq]
      · exact hsock _
      · exact h
      · exact hopenOk _ h
      · exact h
      · exact hdropped _ h

end Link

variable {P : Promises Reply}

namespace Calls

@[simp] theorem setClosing_setClosing (o : Nat) (closing closing' : Bool) (k : Calls P) :
    (k.setClosing o closing).setClosing o closing' = k.setClosing o closing' := by
  simp [setClosing]

/-- A method is taken out of `_pending`, and its listener runs. -/
def hears (o : Nat) (m : Inbound) (args : List Arg) (k : Calls P) : Calls P :=
  (k.take o m.methodSig).push
    (.dispatch ((k.pending o m.methodSig).map fun id => (id, (m.methodSig, args))))

end Calls

/-- What `except (OSError, SSLError): self.collect()` makes of the registry and the link. They
stay as they are where closing the transport raises. -/
inductive CollectsOn (closing : Except PyError Unit) (e : PyError) (r : Registry) (l : Link) :
    Registry → Link → Prop
  | kept (he : e.isOSError = false ∨ l.holdsSocket = true ∧ ∃ e', closing = .error e') :
      CollectsOn closing e r l r l
  | collected (he : e.isOSError = true) : CollectsOn closing e r l r.collect l.collect

/-- The `wait` on top has ended: its promise was ready, or an exception reached it. -/
def Ended (s : Connection P) (id : Nat) : Prop :=
  P.ready (s.waits id).promise = true ∨ ∃ e, s.control = .raising e

/-- The `wait` on top that an exception reaches. -/
def raisesTo (s : Connection P) : Option (Waiting P × PyError) :=
  match s.stack, s.control with
  | .wait id :: _, .raising e => some (s.waits id, e)
  | _, _ => none

theorem raisesTo_eq {s : Connection P} {id : Nat} {rest : List Activation} {e : PyError}
    (hstack : s.stack = .wait id :: rest) (hcontrol : s.control = .raising e) :
    s.raisesTo = some (s.waits id, e) := by
  rw [raisesTo, hstack, hcontrol]

/-- The object that a method on a channel is for. -/
def routed (s : Connection P) (channel : Nat) : Option Nat :=
  s.channels.bind fun channels => Assoc.get? channels channel

/-- `Connection.Close` has not been sent by `close`, and why. -/
def Refused (cfg : Config) (s : Connection P) (o : Nat) (e : PyError) : Prop :=
  s.attached o = true →
    ∃ e', cfg.write s.writes = .error e' ∧ e = if e' = .stopIteration then connectionClosed else e'

inductive Move (cfg : Config) (s : Connection P) :
    Event → Registry → Link → Calls P → List Entry → Prop
  | stays {event : Event} {l : Link} (hl : s.toLink.Wrote l) :
      Move cfg s event s.toRegistry l s.toCalls s.log
  | connected {setup : Setup} (hmay : s.MayConnect) (hconnected : s.connected = true) :
      Move cfg s (.connect setup) s.toRegistry s.toLink s.toCalls (s.log ++ [.connected s.toLink])
  | connectFails {setup : Setup} {e : PyError} {l l' : Link} {r : Registry}
      (hmay : s.MayConnect) (hconnected : s.connected = false)
      (hsetup : s.setup setup = (.error e, l))
      (hcollects : CollectsOn (cfg.closing s.closes) e s.toRegistry l r l') :
      Move cfg s (.connect setup) r l' s.toCalls s.log
  | connects {setup : Setup} {l : Link} (hmay : s.MayConnect) (hconnected : s.connected = false)
      (hsetup : s.setup setup = (.ok (), l)) :
      Move cfg s (.connect setup) s.toRegistry l (s.toCalls.push .connecting) s.log
  | connectReturns {rest : List Activation} (hstack : s.stack = .connecting :: rest)
      (hhandshake : s.handshakeComplete = true) (hcontrol : s.control = .returning) :
      Move cfg s .go s.toRegistry s.toLink s.toCalls.pop (s.log ++ [.connected s.toLink])
  | connectRaises {rest : List Activation} {e : PyError} {r : Registry} {l : Link}
      (hstack : s.stack = .connecting :: rest) (hcontrol : s.control = .raising e)
      (hcollects : CollectsOn (cfg.closing s.closes) e s.toRegistry s.toLink r l) :
      Move cfg s .go r l s.toCalls.pop s.log
  | closes {t : Nat} {l : Link} (htransport : s.transport = some t)
      (hattached : s.attached 0 = true) (hcall : s.MayCall 0) (hl : s.toLink.Wrote l) :
      Move cfg s .close s.toRegistry l
        ((s.toCalls.setClosing 0 true).beginWait 0 (.closeConnection t)) s.log
  | closeRefused {t : Nat} {l l' : Link} {e : PyError} {r : Registry}
      (htransport : s.transport = some t) (hcall : s.MayCall 0) (hl : s.toLink.Wrote l)
      (hrefused : s.Refused cfg 0 e)
      (hcollects : CollectsOn (cfg.closing s.closes) e s.toRegistry l r l') :
      Move cfg s .close r l' (s.toCalls.setClosing 0 false) (s.log ++ [.closed t r l'])
  | closeReturns {id t : Nat} {rest : List Activation} (hstack : s.stack = .wait id :: rest)
      (htask : (s.waits id).task = .closeConnection t)
      (hready : P.ready (s.waits id).promise = true) :
      Move cfg s .go s.toRegistry s.toLink ((s.toCalls.leaveWait id).setClosing 0 false)
        (s.log ++ [.closed t s.toRegistry s.toLink])
  | closeRaises {id t : Nat} {rest : List Activation} {e : PyError} {r : Registry} {l : Link}
      (hstack : s.stack = .wait id :: rest) (htask : (s.waits id).task = .closeConnection t)
      (hcontrol : s.control = .raising e)
      (hcollects : CollectsOn (cfg.closing s.closes) e s.toRegistry s.toLink r l) :
      Move cfg s .go r l ((s.toCalls.leaveWait id).setClosing 0 false) (s.log ++ [.closed t r l])
  | collects :
      Move cfg s .collect s.toRegistry.collect s.toLink.collect s.toCalls s.log
  | constructs {id : Option Nat} {outcome : Except PyError Nat} {r : Registry} {l : Link}
      {k : Calls P} (hconstruct : Registry.construct id s.toRegistry = (outcome, r))
      (hl : s.toLink.Wrote l)
      (hk : k = s.toCalls ∨ ∃ o, outcome = .ok o ∧ k = s.toCalls.beginWait o .open) :
      Move cfg s (.channel id) r l k s.log
  | asks {event : Event} {o : Nat} {task : Task} {l : Link} (ho : o < s.created)
      (htask : task.closes = false) (hl : s.toLink.Wrote l) :
      Move cfg s event s.toRegistry l (s.toCalls.beginWait o task) s.log
  | detaches {o : Nat} {l : Link} (ho : o ≠ 0) (hcall : s.MayCall o)
      (hrefused : s.attached o = true → s.channels ≠ none → s.isOpen o = true →
        ∃ e, cfg.write s.writes = .error e)
      (hl : s.toLink.Wrote l) :
      Move cfg s (.closeChannel o) (s.detach o) l (s.toCalls.setClosing o false) s.log
  | closesChannel {o : Nat} {l : Link} (ho : o ≠ 0) (hcall : s.MayCall o)
      (hl : s.toLink.Wrote l) :
      Move cfg s (.closeChannel o) s.toRegistry l
        ((s.toCalls.setClosing o true).beginWait o .closeChannel) s.log
  | closeChannelEnds {id : Nat} {rest : List Activation} (hstack : s.stack = .wait id :: rest)
      (htask : (s.waits id).task = .closeChannel) (hended : s.Ended id) :
      Move cfg s .go (s.detach (s.waits id).owner) s.toLink
        ((s.toCalls.leaveWait id).setClosing (s.waits id).owner false) s.log
  | collectsChannel {o : Nat} (ho : o ≠ 0) (hcreated : o < s.created) :
      Move cfg s (.collectChannel o) (s.toRegistry.collectChannel o) s.toLink s.toCalls s.log
  | pops {event : Event} {act : Activation} {rest : List Activation}
      (hstack : s.stack = act :: rest) (hact : act = .user ∨ ∃ oneShot, act = .dispatch oneShot) :
      Move cfg s event s.toRegistry s.toLink s.toCalls.pop s.log
  | calls {id : Nat} {reply : Reply} {rest : List Activation}
      (hstack : s.stack = .dispatch (some (id, reply)) :: rest) :
      Move cfg s .go s.toRegistry s.toLink (s.toCalls.pop.call id reply).2 s.log
  | leaves {id : Nat} {rest : List Activation} (hstack : s.stack = .wait id :: rest)
      (htask : (s.waits id).task.closes = false) (hended : s.Ended id) :
      Move cfg s .go s.toRegistry s.toLink (s.toCalls.leaveWait id) s.log
  | takes {channel o : Nat} {m : Inbound} {l : Link} (hl : s.toLink.Wrote l) :
      Move cfg s (.deliver channel m) s.toRegistry l (s.toCalls.take o m.methodSig) s.log
  | listens {channel o channelMax : Nat} {m : Inbound} {args : List Arg} {l : Link}
      {acts : List Activation} (hroutes : s.routed channel = some o) (hl : s.toLink.Wrote l)
      (hsig : m.methodSig ≠ Spec.Connection.closeOk ∧ m.methodSig ≠ Spec.Channel.closeOk)
      (hacts : acts = [] ∨ acts = [.user]) :
      Move cfg s (.deliver channel m) { s.toRegistry with channelMax } l
        { s.toCalls.hears o m args with stack := acts ++ (s.toCalls.hears o m args).stack } s.log
  | handshakes {channel : Nat} {m : Inbound} {args : List Arg} {l : Link}
      (hroutes : s.routed channel = some 0) (hsig : m.methodSig = Spec.Connection.openOk)
      (hl : s.toLink.Wrote l)
      (hopenOk : channel = 0 → ∀ wire, l.place = some wire → wire.openOk = true) :
      Move cfg s (.deliver channel m) s.toRegistry { l with handshakeComplete := true }
        ((s.toCalls.hears 0 m args).push .user) s.log
  | closesDown {channel : Nat} {m : Inbound} {args : List Arg} {l : Link}
      (hroutes : s.routed channel = some 0) (hl : s.toLink.Wrote l) :
      Move cfg s (.deliver channel m) s.toRegistry.collect l.collect (s.toCalls.hears 0 m args)
        s.log
  | closesDownChannel {channel o : Nat} {m : Inbound} {args : List Arg} {l : Link} (ho : o ≠ 0)
      (hroutes : s.routed channel = some o) (hl : s.toLink.Wrote l) :
      Move cfg s (.deliver channel m) (s.toRegistry.collectChannel o) l (s.toCalls.hears o m args)
        s.log
  | revives {channel o : Nat} {m : Inbound} {args : List Arg} {l : Link}
      (hroutes : s.routed channel = some o) (hl : s.toLink.Wrote l)
      (hsig : m.methodSig = Spec.Channel.close) :
      Move cfg s (.deliver channel m) s.toRegistry l
        ((s.toCalls.hears o m args).beginWait o (.revive args)) s.log

/-! Sending -/

section Sending

variable (cfg : Config)

/-- Sending a method counts a write, notes it on the transport, and may drop it. -/
theorem sendMethod_cases (o : Nat) (sig : MethodSig) (s : Connection P) :
    (∃ l writes, sendMethod cfg o sig s = (.ok (), { s with toLink := l, writes }) ∧
        s.toLink.Wrote l ∧ s.attached o = true) ∨
      ∃ e l writes, sendMethod cfg o sig s = (.error e, { s with toLink := l, writes }) ∧
        s.toLink.Wrote l ∧ s.Refused cfg o e := by
  unfold sendMethod
  by_cases hattached : s.attached o = true
  · rw [if_pos hattached]
    cases hwrite : cfg.write s.writes with
    | ok value =>
        refine .inl ⟨_, _, rfl, ?_, hattached⟩
        exact Link.onWire_wrote _ _ (fun _ => rfl) (fun _ h => h) (fun _ h => h)
    | error e =>
        refine .inr ⟨_, _, s.writes + 1, rfl, ?_, fun _ => ⟨e, hwrite, rfl⟩⟩
        split
        · exact Link.onWire_wrote _ _ (fun _ => rfl) (fun _ h => h) (fun _ _ => rfl)
        · exact .refl _
  · rw [if_neg hattached]
    exact .inr ⟨_, s.toLink, s.writes, rfl, .refl _, fun h => absurd h hattached⟩

theorem sendOnly_eq (o : Nat) (sig : MethodSig) (s : Connection P) :
    ∃ l writes control, sendOnly cfg o sig s = { s with toLink := l, writes, control } ∧
      s.toLink.Wrote l := by
  unfold sendOnly finish
  obtain ⟨l, writes, hrun, hl, -⟩ | ⟨e, l, writes, hrun, hl, -⟩ := sendMethod_cases cfg o sig s
  all_goals rw [hrun]
  · exact ⟨l, writes, .returning, rfl, hl⟩
  · exact ⟨l, writes, .raising e, rfl, hl⟩

theorem sendAndWait_cases (o : Nat) (sig : MethodSig) (task : Task) (s : Connection P) :
    ∃ l writes, s.toLink.Wrote l ∧
      (sendAndWait cfg o sig task s = wait o task { s with toLink := l, writes } ∨
        ∃ e, sendAndWait cfg o sig task s = { s with toLink := l, writes, control := .raising e }) := by
  unfold sendAndWait
  obtain ⟨l, writes, hrun, hl, -⟩ | ⟨e, l, writes, hrun, hl, -⟩ := sendMethod_cases cfg o sig s
  all_goals rw [hrun]
  · exact ⟨l, writes, hl, .inl rfl⟩
  · exact ⟨l, writes, hl, .inr ⟨e, rfl⟩⟩

end Sending

/-! Steps are moves -/

section Steps

variable {cfg : Config} {s : Connection P}

/-- The move from `s` to `s'`. -/
def MovesTo (cfg : Config) (s : Connection P) (event : Event) (s' : Connection P) : Prop :=
  Move cfg s event s'.toRegistry s'.toLink s'.toCalls s'.log

/-- The connection is collected, or closing the socket of its transport has raised. -/
theorem collect_cases (cfg : Config) (s : Connection P) :
    (∃ closes, collect cfg s = (.ok (), { collected s with closes })) ∨
      ∃ e closes, collect cfg s = (.error e, { s with closes }) ∧
        s.holdsSocket = true ∧ cfg.closing s.closes = .error e := by
  simp only [collect, Effect.bind_run, Effect.modify_run, closeTransport]
  cases hholds : s.holdsSocket with
  | false => exact .inl ⟨s.closes, rfl⟩
  | true =>
      cases hclosing : cfg.closing s.closes with
      | ok value => exact .inl ⟨s.closes + 1, rfl⟩
      | error e => exact .inr ⟨e, s.closes + 1, rfl, rfl, rfl⟩

theorem collectOn_collects (cfg : Config) (e : PyError) (s : Connection P) :
    ∃ r l isOpen closes e', collectOn cfg e s =
        { s with toRegistry := r, toLink := l, isOpen, closes, control := .raising e' } ∧
      CollectsOn (cfg.closing s.closes) e s.toRegistry s.toLink r l := by
  unfold collectOn
  split
  next he =>
    obtain ⟨closes, hrun⟩ | ⟨e', closes, hrun, hholds, hclosing⟩ := collect_cases cfg s
    · rw [hrun]
      exact ⟨_, _, _, _, _, rfl, .collected he⟩
    · rw [hrun]
      exact ⟨_, _, s.isOpen, _, _, rfl, .kept (.inr ⟨hholds, e', hclosing⟩)⟩
  next he => exact ⟨_, _, s.isOpen, s.closes, _, rfl, .kept (.inl (by simpa using he))⟩

private theorem connect_move (setup : Setup) (hmay : s.MayConnect) :
    MovesTo cfg s (.connect setup) (connect cfg setup s) := by
  unfold connect
  split
  next hconnected => exact .connected hmay hconnected
  next hconnected =>
    have hnot : s.connected = false := by simpa using hconnected
    split
    next l hsetup => exact .connects hmay hnot hsetup
    next e l hsetup =>
      obtain ⟨r, l', isOpen, closes, e', heq, hcollects⟩ :=
        collectOn_collects cfg e { s with toLink := l }
      rw [heq]
      exact .connectFails hmay hnot hsetup hcollects

private theorem startClose_move (hcall : s.MayCall 0) :
    MovesTo cfg s .close (startClose cfg s) := by
  unfold startClose
  split
  next => exact .stays (.refl _)
  next t htransport =>
    obtain ⟨l, writes, hrun, hl, hattached⟩ | ⟨e, l, writes, hrun, hl, hrefused⟩ :=
      sendMethod_cases cfg 0 Spec.Connection.close
        { s with toCalls := s.toCalls.setClosing 0 true }
    · rw [hrun]
      exact .closes htransport hattached hcall hl
    · rw [hrun]
      obtain ⟨r, l', isOpen, closes, e', heq, hcollects⟩ := collectOn_collects cfg e
        { s with toLink := l, toCalls := s.toCalls.setClosing 0 true, writes }
      have hmove : Move cfg s _ _ _ _ _ := .closeRefused htransport hcall hl hrefused hcollects
      simpa [MovesTo, goOn, leaveClose, note, heq] using hmove

private theorem channel_move (id : Option Nat) : MovesTo cfg s (.channel id) (channel cfg id s) := by
  unfold channel
  split
  next => exact .stays (.refl _)
  split
  next => exact .stays (.refl _)
  split
  next o r hconstruct =>
    unfold openChannel
    split
    next => exact .constructs hconstruct (.refl _) (.inl rfl)
    next =>
      obtain ⟨l, writes, hl, hrun | ⟨e, hrun⟩⟩ :=
        sendAndWait_cases cfg o Spec.Channel.open .open { s with toRegistry := r }
      · rw [hrun]
        exact .constructs hconstruct hl (.inr ⟨o, rfl, rfl⟩)
      · rw [hrun]
        exact .constructs hconstruct hl (.inl rfl)
  next e r hconstruct => exact .constructs hconstruct (.refl _) (.inl rfl)

private theorem asks_move {event : Event} {o : Nat} (sig : MethodSig) {task : Task}
    (ho : o < s.created) (htask : task.closes = false) :
    MovesTo cfg s event (sendAndWait cfg o sig task s) := by
  obtain ⟨l, writes, hl, hrun | ⟨e, hrun⟩⟩ := sendAndWait_cases cfg o sig task s
  · rw [hrun]
    exact .asks ho htask hl
  · rw [hrun]
    exact .stays hl

private theorem startCloseChannel_move {o : Nat} (hcall : s.MayCall o) (ho : o ≠ 0) :
    MovesTo cfg s (.closeChannel o) (startCloseChannel cfg o s) := by
  unfold startCloseChannel
  split
  next hearly =>
    refine .detaches ho hcall (fun hattached hchannels hopen => ?_) (.refl _)
    simp [hattached, hchannels, hopen] at hearly
  next =>
    obtain ⟨l, writes, hrun, hl, hattached⟩ | ⟨e, l, writes, hrun, hl, hrefused⟩ :=
      sendMethod_cases cfg o Spec.Channel.close
        { s with toCalls := s.toCalls.setClosing o true }
    · rw [hrun]
      exact .closesChannel ho hcall hl
    · rw [hrun]
      have hwrite : s.attached o = true → ∃ e, cfg.write s.writes = .error e := by
        intro hattached
        obtain ⟨e', hwrite, -⟩ := hrefused hattached
        exact ⟨e', hwrite⟩
      have hmove : Move cfg s _ _ _ _ _ :=
        .detaches ho hcall (fun hattached _ _ => hwrite hattached) hl
      simpa [MovesTo, goOn, leaveCloseChannel] using hmove

private theorem leaveWait_move {id : Nat} {rest : List Activation} {result : Except PyError Unit}
    (hstack : s.stack = .wait id :: rest)
    (hresult : match result with
      | .ok () => P.ready (s.waits id).promise = true
      | .error e => s.control = .raising e) :
    MovesTo cfg s .go (leaveWait cfg id result s) := by
  have hended : s.Ended id := by
    cases result with
    | ok value => exact .inl hresult
    | error e => exact .inr ⟨e, hresult⟩
  unfold leaveWait afterWait finish
  cases htask : (s.waits id).task with
  | closeConnection t =>
      cases result with
      | ok value => exact .closeReturns hstack htask hresult
      | error e =>
          obtain ⟨r, l, isOpen, closes, e', heq, hcollects⟩ :=
            collectOn_collects cfg e { s with toCalls := s.toCalls.leaveWait id }
          simp only [heq]
          exact .closeRaises hstack htask hresult hcollects
  | closeChannel =>
      have hmove : Move cfg s _ _ _ _ _ := .closeChannelEnds hstack htask hended
      cases result <;> exact hmove
  | «open» | revive args | call methods callback =>
      have hmove : Move cfg s _ _ _ _ _ := .leaves hstack (by rw [htask]; rfl) hended
      cases result <;> exact hmove

private theorem go_move : MovesTo cfg s .go (go cfg s) := by
  unfold go
  split
  next => exact .stays (.refl _)
  next hstack hcontrol =>
    unfold loopConnect
    split
    next hhandshake =>
      simp only
      split <;> exact .connectReturns hstack hhandshake hcontrol
    next => exact .stays (.refl _)
  next e hstack hcontrol =>
    unfold leaveConnect
    obtain ⟨r, l, isOpen, closes, e', heq, hcollects⟩ :=
      collectOn_collects cfg e { s with toCalls := s.toCalls.pop }
    rw [heq]
    exact .connectRaises hstack hcontrol hcollects
  next hstack hcontrol => exact .pops hstack (.inr ⟨_, rfl⟩)
  next id reply rest hstack hcontrol =>
    have hmove : Move cfg s .go _ _ _ _ := .calls hstack
    simp only [finish]
    split <;> exact hmove
  next hstack hcontrol => exact .pops hstack (.inr ⟨_, rfl⟩)
  next hstack hcontrol =>
    split
    next hready => exact leaveWait_move hstack hready
    next => split <;> exact .stays (.refl _)
  next hstack hcontrol => exact leaveWait_move hstack hcontrol
  next => exact .stays (.refl _)

/-! Listeners -/

section Listeners

variable {channel o : Nat} {m : Inbound} {args : List Arg} {l : Link} {control : Control}

theorem tune_eq (args : List Arg) (s : Connection P) :
    ∃ channelMax, tune args s = { s with channelMax } := by
  unfold tune
  split
  · exact ⟨_, rfl⟩
  · exact ⟨s.channelMax, rfl⟩

private theorem onTune_move (hroutes : s.routed channel = some 0) (hl : s.toLink.Wrote l)
    (hsig : m.methodSig = Spec.Connection.tune) :
    MovesTo cfg s (.deliver channel m) (onTune cfg args
      { s with toLink := l, toCalls := s.toCalls.hears 0 m args }) := by
  have hmoves : ∀ channelMax l' writes control, l.Wrote l' →
      MovesTo cfg s (.deliver channel m) { s with
        channelMax, toLink := l', toCalls := s.toCalls.hears 0 m args, writes, control } := by
    intro channelMax l' writes control hl'
    exact .listens hroutes (hl.trans hl') (by rw [hsig]; decide) (.inl rfl)
  obtain ⟨channelMax, htune⟩ := tune_eq args
    { s with toLink := l, toCalls := s.toCalls.hears 0 m args }
  unfold onTune
  rw [htune]
  obtain ⟨l', writes, hrun, hl', -⟩ | ⟨e, l', writes, hrun, hl', -⟩ :=
    sendMethod_cases cfg 0 Spec.Connection.tuneOk
      { s with channelMax, toLink := l, toCalls := s.toCalls.hears 0 m args }
  · rw [hrun]
    obtain ⟨l'', writes', control, hsend, hl''⟩ := sendOnly_eq cfg 0 Spec.Connection.open
      { s with channelMax, toLink := l', toCalls := s.toCalls.hears 0 m args, writes }
    simp only [hsend]
    exact hmoves _ _ _ _ (hl'.trans hl'')
  · rw [hrun]
    exact hmoves _ _ _ _ hl'

private theorem onStart_move (hroutes : s.routed channel = some 0) (hl : s.toLink.Wrote l)
    (hsig : m.methodSig = Spec.Connection.start) :
    MovesTo cfg s (.deliver channel m) (onStart cfg args
      { s with toLink := l, toCalls := s.toCalls.hears 0 m args }) := by
  unfold onStart
  split
  next =>
    obtain ⟨l', writes, control, hrun, hl'⟩ := sendOnly_eq cfg 0 Spec.Connection.startOk
      { s with toLink := l, toCalls := s.toCalls.hears 0 m args }
    rw [hrun]
    exact .listens hroutes (hl.trans hl') (by rw [hsig]; decide) (.inl rfl)
  next => exact .listens hroutes hl (by rw [hsig]; decide) (.inl rfl)

private theorem onClose_move (hroutes : s.routed channel = some 0) (hl : s.toLink.Wrote l)
    (hsig : m.methodSig = Spec.Connection.close) :
    MovesTo cfg s (.deliver channel m) (onClose cfg args
      { s with toLink := l, toCalls := s.toCalls.hears 0 m args }) := by
  unfold onClose
  obtain ⟨l', writes, hrun, hl', -⟩ | ⟨e, l', writes, hrun, hl', -⟩ :=
    sendMethod_cases cfg 0 Spec.Connection.closeOk
      { s with toLink := l, toCalls := s.toCalls.hears 0 m args }
  · rw [hrun]
    obtain ⟨closes, hcollect⟩ | ⟨e, closes, hcollect, -, -⟩ := collect_cases cfg
      { s with toLink := l', toCalls := s.toCalls.hears 0 m args, writes }
    all_goals simp only [hcollect]
    · exact .closesDown hroutes (hl.trans hl')
    · exact .listens hroutes (hl.trans hl') (by rw [hsig]; decide) (.inl rfl)
  · rw [hrun]
    exact .listens hroutes (hl.trans hl') (by rw [hsig]; decide) (.inl rfl)

private theorem onCloseOk_move (hroutes : s.routed channel = some 0) (hl : s.toLink.Wrote l) :
    MovesTo cfg s (.deliver channel m) (onCloseOk cfg
      { s with toLink := l, toCalls := s.toCalls.hears 0 m args }) := by
  unfold onCloseOk
  obtain ⟨closes, hcollect⟩ | ⟨e, closes, hcollect, -, -⟩ := collect_cases cfg
    { s with toLink := l, toCalls := s.toCalls.hears 0 m args }
  all_goals simp only [hcollect]
  · exact .closesDown hroutes hl
  · exact Move.takes (o := 0) hl

private theorem listen_move (hroutes : s.routed channel = some 0) (hl : s.toLink.Wrote l)
    (hopenOk : channel = 0 → m.methodSig = Spec.Connection.openOk →
      ∀ wire, l.place = some wire → wire.openOk = true)
    (hsig : m.methodSig ≠ Spec.Channel.closeOk) :
    MovesTo cfg s (.deliver channel m) (listen cfg m.methodSig args
      { s with toLink := l, toCalls := s.toCalls.hears 0 m args }) := by
  unfold listen
  split
  next hstart => exact onStart_move hroutes hl hstart
  split
  next hopen => exact .handshakes hroutes hopen hl fun hchannel => hopenOk hchannel hopen
  split
  next htune => exact onTune_move hroutes hl htune
  split
  next hclose => exact onClose_move hroutes hl hclose
  split
  next => exact onCloseOk_move hroutes hl
  next hcloseOk =>
    split
    · exact .listens hroutes hl ⟨hcloseOk, hsig⟩ (.inl rfl)
    · exact .listens hroutes hl ⟨hcloseOk, hsig⟩ (.inr rfl)

private theorem onChannelClose_move (hroutes : s.routed channel = some o) (hl : s.toLink.Wrote l)
    (hsig : m.methodSig = Spec.Channel.close) :
    MovesTo cfg s (.deliver channel m) (onChannelClose cfg o args
      { s with toLink := l, toCalls := s.toCalls.hears o m args }) := by
  have hlistens : ∀ isOpen l' writes control, s.toLink.Wrote l' →
      MovesTo cfg s (.deliver channel m) { s with
        toLink := l', toCalls := s.toCalls.hears o m args, isOpen, writes, control } := by
    intro isOpen l' writes control hl'
    exact .listens hroutes hl' (by rw [hsig]; decide) (.inl rfl)
  unfold onChannelClose
  obtain ⟨l', writes, hrun, hl', -⟩ | ⟨e, l', writes, hrun, hl', -⟩ :=
    sendMethod_cases cfg o Spec.Channel.closeOk
      { s with toLink := l, toCalls := s.toCalls.hears o m args }
  · rw [hrun]
    simp only
    split
    next =>
      obtain ⟨l'', writes', hl'', hsend | ⟨e, hsend⟩⟩ :=
        sendAndWait_cases cfg o Spec.Channel.open (.revive args)
          { s with
            toLink := l', toCalls := s.toCalls.hears o m args, writes
            isOpen := Function.update s.isOpen o false }
      · rw [hsend]
        exact .revives hroutes ((hl.trans hl').trans hl'') hsig
      · rw [hsend]
        exact hlistens _ _ _ _ ((hl.trans hl').trans hl'')
    next => exact hlistens _ _ _ _ (hl.trans hl')
  · rw [hrun]
    exact hlistens _ _ _ _ (hl.trans hl')

private theorem listenChannel_move (hroutes : s.routed channel = some o) (ho : o ≠ 0)
    (hl : s.toLink.Wrote l) (hsig : m.methodSig ≠ Spec.Connection.closeOk) :
    MovesTo cfg s (.deliver channel m) (listenChannel cfg o m.methodSig args
      { s with toLink := l, toCalls := s.toCalls.hears o m args }) := by
  unfold listenChannel
  split
  next hclose => exact onChannelClose_move hroutes hl hclose
  split
  next => exact .closesDownChannel ho hroutes hl
  next hcloseOk =>
    split
    next =>
      obtain ⟨l', writes, control, hrun, hl'⟩ := sendOnly_eq cfg o Spec.Channel.flowOk
        { s with toLink := l, toCalls := s.toCalls.hears o m args }
      rw [hrun]
      exact .listens hroutes (hl.trans hl') ⟨hsig, hcloseOk⟩ (.inl rfl)
    split
    · exact .listens hroutes hl ⟨hsig, hcloseOk⟩ (.inr rfl)
    split
    · exact .listens hroutes hl ⟨hsig, hcloseOk⟩ (.inl rfl)
    split
    · exact .listens hroutes hl ⟨hsig, hcloseOk⟩ (.inr rfl)
    · exact .listens hroutes hl ⟨hsig, hcloseOk⟩ (.inl rfl)

/-- The connection and its channels each know only their own `CloseOk`. -/
theorem lookup_closeOk {o : Nat} {sig : MethodSig} {method : AmqpMethod}
    (h : lookup o sig = .ok method) :
    (o = 0 → sig ≠ Spec.Channel.closeOk) ∧ (o ≠ 0 → sig ≠ Spec.Connection.closeOk) := by
  constructor
  · rintro rfl rfl
    exact absurd h (by simp [lookup, methods, Spec.Channel.closeOk, Spec.Connection.start,
      Spec.Connection.openOk, Spec.Connection.secure, Spec.Connection.tune, Spec.Connection.close,
      Spec.Connection.blocked, Spec.Connection.unblocked, Spec.Connection.closeOk])
  · rintro ho rfl
    rw [lookup, if_neg ho] at h
    have hnone : findMethod Spec.Connection.closeOk =
        .error (unknownMethod Spec.Connection.closeOk) := rfl
    rw [hnone] at h
    cases h

private theorem dispatchMethod_move (hroutes : s.routed channel = some o) (hl : s.toLink.Wrote l)
    (hopenOk : channel = 0 → m.methodSig = Spec.Connection.openOk →
      ∀ wire, l.place = some wire → wire.openOk = true) :
    MovesTo cfg s (.deliver channel m) (dispatchMethod cfg o m { s with toLink := l }) := by
  unfold dispatchMethod
  split
  next => exact .stays hl
  split
  next => exact .stays hl
  next method hlookup =>
    simp only
    split
    next => exact .takes hl
    split
    next => exact .takes hl
    next args hargs =>
      obtain ⟨hzero, hother⟩ := lookup_closeOk hlookup
      split
      next ho =>
        subst ho
        exact listen_move hroutes hl hopenOk (hzero rfl)
      next ho => exact listenChannel_move hroutes ho hl (hother ho)

/-- A method that is read is noted on the transport in place. -/
theorem receive_eq (channel : Nat) (m : Inbound) (s : Connection P) :
    ∃ l, receive channel m s = { s with toLink := l } ∧ s.toLink.Wrote l ∧
      (channel = 0 → m.methodSig = Spec.Connection.openOk →
        ∀ wire, l.place = some wire → wire.openOk = true) := by
  unfold receive
  split
  next hopenOk =>
    refine ⟨_, rfl, Link.onWire_wrote _ _ (fun _ => rfl) (fun _ _ => rfl) (fun _ h => h), ?_⟩
    intro _ _ wire hwire
    cases htransport : s.transport with
    | none => simp [Link.place, Link.onWire, htransport] at hwire
    | some t =>
        simp [Link.place, Link.onWire, htransport] at hwire
        simp [← hwire]
  next hnot =>
    refine ⟨_, rfl, .refl _, ?_⟩
    intro hchannel hsig
    exact absurd ⟨hchannel, hsig⟩ hnot

private theorem deliver_move (channel : Nat) (m : Inbound) :
    MovesTo cfg s (.deliver channel m) (onInboundMethod cfg channel m (receive channel m s)) := by
  obtain ⟨l, hreceive, hl, hopenOk⟩ := receive_eq channel m s
  rw [hreceive]
  unfold onInboundMethod
  split
  next => exact .stays hl
  next channels hchannels =>
    split
    next o hget =>
      have hroutes : s.routed channel = some o := by rw [routed, hchannels]; exact hget
      exact dispatchMethod_move hroutes hl hopenOk
    next => exact .stays hl

end Listeners

theorem head_isUser (h : s.stack.head?.any Activation.isUser = true) :
    ∃ rest, s.stack = .user :: rest := by
  cases hstack : s.stack with
  | nil => simp [hstack] at h
  | cons act rest =>
      cases act with
      | user => exact ⟨rest, rfl⟩
      | _ => simp [hstack, Activation.isUser] at h

/-- Every step is a move. -/
theorem step_move (cfg : Config) (s : Connection P) (event : Event) :
    MovesTo cfg s event (step cfg s event) := by
  cases event with
  | go => exact go_move
  | connect setup =>
      simp only [step]
      split
      next hmay => exact connect_move setup hmay
      next => exact .stays (.refl _)
  | close =>
      simp only [step]
      split
      next hcall => exact startClose_move hcall
      next => exact .stays (.refl _)
  | collect =>
      simp only [step, userCollect]
      split
      next =>
        obtain ⟨closes, hcollect⟩ | ⟨e, closes, hcollect, -, -⟩ := collect_cases cfg s
        all_goals rw [hcollect]
        · exact .collects
        · exact .stays (.refl _)
      next => exact .stays (.refl _)
  | channel id =>
      simp only [step]
      split
      next => exact channel_move id
      next => exact .stays (.refl _)
  | «open» o =>
      simp only [step]
      split
      next hcall =>
        unfold openChannel
        split
        next => exact .stays (.refl _)
        next => exact asks_move _ hcall.1.2.2 rfl
      next => exact .stays (.refl _)
  | closeChannel o =>
      simp only [step]
      split
      next hcall => exact startCloseChannel_move hcall.1 hcall.2
      next => exact .stays (.refl _)
  | collectChannel o =>
      simp only [step]
      split
      next hcall => exact .collectsChannel hcall.2.2 hcall.2.1
      next => exact .stays (.refl _)
  | send o sig =>
      simp only [step]
      split
      next =>
        obtain ⟨l, writes, control, hrun, hl⟩ := sendOnly_eq cfg o sig s
        rw [hrun]
        exact .stays hl
      next => exact .stays (.refl _)
  | call o sig methods callback =>
      simp only [step]
      split
      next hcall => exact asks_move _ hcall.1.2.2 rfl
      next => exact .stays (.refl _)
  | «return» | raise =>
      simp only [step]
      split
      next hidle =>
        obtain ⟨rest, hstack⟩ := head_isUser hidle.1.2
        exact .pops hstack (.inl rfl)
      next => exact .stays (.refl _)
  | deliver channel m =>
      simp only [step]
      split
      next => exact deliver_move channel m
      next => exact .stays (.refl _)
  | fail e =>
      simp only [step]
      split
      next =>
        refine .stays ?_
        show s.toLink.Wrote (if _ then _ else _)
        split
        · exact Link.onWire_wrote _ _ (fun _ => rfl) (fun _ h => h) (fun _ _ => rfl)
        · exact .refl _
      next => exact .stays (.refl _)

end Steps

end Connection

end PyAmqp
