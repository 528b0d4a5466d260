import PyAmqp.Connection.Promised
import PyAmqp.Base.Run

/-!
`connect` judges by two flags: `connected` of the transport in place, and
`_handshake_complete`, which no disconnect resets. When every `connect` that starts finds
the two to agree, a `connect` that returns has received `OpenOk` on the transport in place.
-/

namespace PyAmqp

namespace Connection

variable {P : Promises Reply}

namespace Activation

def isConnecting : Activation → Bool
  | connecting => true
  | _ => false

end Activation

/-- The handshake, if it is complete, was that of the transport in place; a transport that
failed to connect may take its place while no `connect` waits. -/
def HandshakeOk (l : Link) (k : Calls P) : Prop :=
  l.handshakeComplete = true → ∀ wire, l.place = some wire →
    wire.openOk = true ∨ wire.connected = false ∧ k.stack.any Activation.isConnecting = false

/-- A `connect` returned with the handshake complete, and `OpenOk` received on the
transport in place. -/
def Entry.Connected : Entry → Prop
  | .connected link => link.handshakeComplete = true ∧ link.place.any Wire.openOk = true
  | .closed .. => True

instance : (entry : Entry) → Decidable entry.Connected
  | .connected _ => inferInstanceAs (Decidable (_ ∧ _))
  | .closed .. => .isTrue trivial

/-- Setting up a transport leaves none that is connected, and none that a `connect` that
waits could take for its own. -/
def Setup.fails (k : Calls P) : Setup → Bool
  | .refused _ => true
  | .failed e _ => e.isOSError || !k.stack.any Activation.isConnecting
  | .up => false

/-- The loop of `connect` looks at `_handshake_complete`. -/
def loops (s : Connection P) : Bool :=
  match s.stack, s.control with
  | .connecting :: _, .returning => true
  | _, _ => false

/-- A `connect` that finds the transport connected finds the handshake complete, and one
that sets up a transport finds no handshake complete, or fails; and when its loop ends, a
transport is in place. -/
def ConnectsAnew (s : Connection P) : Event → Prop
  | .connect setup =>
      s.MayConnect →
        (s.connected = true → s.handshakeComplete = true) ∧
        (s.connected = false → s.handshakeComplete = true → setup.fails s.toCalls = true)
  | .go => s.loops = true → s.handshakeComplete = true → s.transport ≠ none
  | _ => True

instance (s : Connection P) : (event : Event) → Decidable (ConnectsAnew s event)
  | .connect _ => inferInstanceAs (Decidable (_ → (_ → _) ∧ (_ → _ → _)))
  | .go => inferInstanceAs (Decidable (_ → _ → _))
  | .close | .collect | .channel _ | .open _ | .closeChannel _ | .collectChannel _ | .send _ _
    | .call _ _ _ _ | .return | .raise _ | .deliver _ _ | .fail _ => .isTrue trivial

namespace Link.Wrote

variable {l l' : Link}

/-- What is in place after a write was in place before it. -/
theorem place (h : l.Wrote l') {wire : Wire} (hplace : l'.place = some wire) :
    ∃ before, l.place = some before ∧ (before.openOk = true → wire.openOk = true) ∧
      (before.connected = false → wire.connected = false) := by
  rw [Link.place, h.transport] at hplace
  obtain ⟨t, ht, rfl⟩ := Option.map_eq_some_iff.mp hplace
  exact ⟨l.wires t, by rw [Link.place, ht, Option.map_some], h.openOk t, h.dropped t⟩

end Link.Wrote

theorem HandshakeOk.wrote {l l' : Link} {k k' : Calls P} (h : HandshakeOk l k) (hl : l.Wrote l')
    (hk : k.stack.any Activation.isConnecting = false →
      k'.stack.any Activation.isConnecting = false) : HandshakeOk l' k' := by
  intro hhandshake wire hplace
  obtain ⟨before, hbefore, hopenOk, hdropped⟩ := hl.place hplace
  rw [hl.handshakeComplete] at hhandshake
  obtain hopen | ⟨hconnected, hstack⟩ := h hhandshake before hbefore
  · exact .inl (hopenOk hopen)
  · exact .inr ⟨hdropped hconnected, hk hstack⟩

theorem HandshakeOk.any {l : Link} {k : Calls P} {t : Nat} (h : HandshakeOk l k)
    (hhandshake : l.handshakeComplete = true) (ht : l.transport = some t)
    (hlive : (l.wires t).connected = true ∨ k.stack.any Activation.isConnecting = true) :
    l.place.any Wire.openOk = true := by
  have hplace : l.place = some (l.wires t) := by rw [Link.place, ht, Option.map_some]
  rw [hplace]
  refine (h hhandshake _ hplace).resolve_right ?_
  rintro ⟨hconnected, hstack⟩
  simp [hconnected, hstack] at hlive

theorem collect_handshakeOk (l : Link) (k : Calls P) : HandshakeOk l.collect k := by
  intro _ wire hplace
  simp [Link.collect, Link.place] at hplace

theorem HandshakeOk.collectsOn {closing : Except PyError Unit} {e : PyError} {r r' : Registry}
    {l l' : Link} {k : Calls P} (h : HandshakeOk l k) (hcollects : CollectsOn closing e r l r' l') :
    HandshakeOk l' k := by
  cases hcollects with
  | kept => exact h
  | collected => exact collect_handshakeOk l k

section Moves

variable {cfg : Config} {s : Connection P} {event : Event} {r : Registry} {l : Link} {k : Calls P}
  {log : List Entry}

/-- A `connect` that fails leaves a transport that is not connected, or none of its own. -/
theorem HandshakeOk.connectFails {setup : Setup} {e : PyError} {l' : Link}
    (h : HandshakeOk s.toLink s.toCalls) (hmay : s.MayConnect)
    (hconnected : s.connected = false) (hsetup : s.setup setup = (.error e, l))
    (hcollects : CollectsOn (cfg.closing s.closes) e s.toRegistry l r l')
    (hanew : ConnectsAnew s (.connect setup)) : HandshakeOk l' s.toCalls := by
  have hcond := (hanew hmay).2 hconnected
  cases setup with
  | refused e' =>
      obtain ⟨-, rfl⟩ := Prod.mk.inj hsetup
      exact h.collectsOn hcollects
  | failed e' sock =>
      obtain ⟨he, rfl⟩ := Prod.mk.inj hsetup
      obtain rfl := Except.error.inj he
      cases hcollects with
      | kept hos =>
          intro hhandshake wire hplace
          have hkeeps : e'.isOSError = false := by
            refine hos.elim id fun hheld => ?_
            have hsock : sock = true ∧ e'.isOSError = false := by simpa using hheld.1
            exact hsock.2
          have hstack : s.stack.any Activation.isConnecting = false := by
            simpa [Setup.fails, hkeeps] using hcond hhandshake
          obtain rfl : { sock := sock && !e'.isOSError } = wire := by
            simpa [Link.setTransport, Link.place] using hplace
          exact .inr ⟨rfl, hstack⟩
      | collected => exact collect_handshakeOk _ _
  | up => simp [Link.setup] at hsetup

theorem HandshakeOk.move (h : HandshakeOk s.toLink s.toCalls) (hreachable : s.Reachable)
    (hanew : ConnectsAnew s event) (hmove : Move cfg s event r l k log) : HandshakeOk l k := by
  have hpop : s.stack.any Activation.isConnecting = false →
      s.toCalls.pop.stack.any Activation.isConnecting = false := by
    intro hstack
    rw [List.any_eq_false] at hstack ⊢
    exact fun act hact => hstack act (List.mem_of_mem_tail hact)
  cases hmove with
  | stays hl | detaches _ _ _ hl | takes hl | closes _ _ _ hl | closesChannel _ _ hl | asks _ _ hl
    | closesDownChannel _ _ hl | revives _ hl => exact h.wrote hl id
  | connected | collectsChannel => exact h
  | connectFails hmay hconnected hsetup hcollects =>
      exact h.connectFails hmay hconnected hsetup hcollects hanew
  | @connects setup _ hmay hconnected hsetup =>
      cases setup with
      | up =>
          obtain ⟨-, rfl⟩ := Prod.mk.inj hsetup
          intro hhandshake
          have hfails := (hanew hmay).2 hconnected hhandshake
          simp [Setup.fails] at hfails
      | _ => simp [Link.setup] at hsetup
  | connectReturns | pops | calls | closeReturns | closeChannelEnds | leaves =>
      exact h.wrote (.refl _) hpop
  | connectRaises _ _ hcollects | closeRaises _ _ _ hcollects =>
      exact (h.wrote (.refl _) hpop).collectsOn hcollects
  | closeRefused _ _ hl _ hcollects => exact (h.wrote hl id).collectsOn hcollects
  | collects | closesDown => exact collect_handshakeOk _ _
  | constructs _ hl hk =>
      obtain rfl | ⟨o, -, rfl⟩ := hk
      · exact h.wrote hl id
      · exact h.wrote hl id
  | listens _ hl _ hacts =>
      obtain rfl | rfl := hacts
      · exact h.wrote hl id
      · exact h.wrote hl id
  | handshakes hroutes _ hl hopenOk =>
      have hchannel := (routed_lt hroutes hreachable.allocated).2 rfl
      exact fun _ wire hplace => .inl (hopenOk hchannel wire hplace)

/-- What a step adds to the log. -/
theorem Move.connected_entries (h : HandshakeOk s.toLink s.toCalls) (hanew : ConnectsAnew s event)
    (hlog : ∀ entry ∈ s.log, entry.Connected) (hmove : Move cfg s event r l k log) :
    ∀ entry ∈ log, entry.Connected := by
  have happend : ∀ added : Entry, added.Connected → ∀ entry ∈ s.log ++ [added], entry.Connected := by
    intro added hadded entry hentry
    rcases List.mem_append.mp hentry with hmem | hmem
    · exact hlog entry hmem
    · exact List.mem_singleton.mp hmem ▸ hadded
  cases hmove with
  | connected hmay hconnected =>
      refine happend _ ?_
      have hhandshake := (hanew hmay).1 hconnected
      obtain ⟨t, ht, hwire⟩ : ∃ t, s.transport = some t ∧ (s.wires t).connected = true := by
        rwa [Link.connected, Option.any_eq_true] at hconnected
      exact ⟨hhandshake, h.any hhandshake ht (.inl hwire)⟩
  | connectReturns hstack hhandshake hcontrol =>
      have hloops : s.loops = true := by rw [loops, hstack, hcontrol]
      have htransport : s.transport ≠ none := hanew hloops hhandshake
      obtain ⟨t, ht⟩ := Option.ne_none_iff_exists'.mp htransport
      refine happend _ ⟨hhandshake, h.any hhandshake ht (.inr ?_)⟩
      simp [hstack, Activation.isConnecting]
  | closeRefused | closeReturns | closeRaises => exact happend _ trivial
  | _ => exact hlog

end Moves

/-- In every run whose steps connect anew, a `connect` that returns normally does so with
the handshake complete, and `OpenOk` received on the transport in place. -/
theorem run_connected (cfg : Config) (events : List Event)
    (hanew : Run.Along (step cfg) ConnectsAnew (init cfg : Connection P) events) :
    ∀ entry ∈ (run cfg events : Connection P).log, entry.Connected := by
  have hstart : (init cfg : Connection P).Reachable ∧
      HandshakeOk (init cfg : Connection P).toLink (init cfg : Connection P).toCalls ∧
      ∀ entry ∈ (init cfg : Connection P).log, entry.Connected := by
    refine ⟨init_reachable cfg, ?_, ?_⟩
    · simp [HandshakeOk, init]
    · simp [init]
  have hrun := Run.invariant
    (I := fun s : Connection P => s.Reachable ∧ HandshakeOk s.toLink s.toCalls ∧
      ∀ entry ∈ s.log, entry.Connected)
    (fun s event h hcond => ⟨h.1.step cfg event, h.2.1.move h.1 hcond (step_move cfg s event),
      (step_move cfg s event).connected_entries h.2.1 hcond h.2.2⟩)
    hstart hanew
  exact hrun.2.2

/-- The first `connect` cannot make its transport; the second does its handshake, and a
third finds it connected. -/
theorem run_connected_refused :
    let s : Connection (plainPromises Reply) :=
      run plainConfig (.connect (.refused .typeError) :: .go :: handshake ++ [.connect .up])
    s.log.length = 2 ∧ ∀ entry ∈ s.log, entry.Connected :=
  ⟨by decide +kernel, run_connected plainConfig _ (by decide +kernel)⟩

/-- A server's `Start` that offers the mechanism `B` only. -/
def startOther : Inbound :=
  { methodSig := Spec.Connection.start
    payload := [0, 10, 0, 10, 0, 9, 0, 0, 0, 0, 0, 0, 0, 1, 66, 0, 0, 0, 0] }

/-- The first `connect` raises, as there is no mechanism for both; the second returns at
once, on the transport of the first. -/
theorem run_connected_noMechanism :
    let s : Connection (plainPromises Reply) :=
      run plainConfig
        [.connect .up, .go, .deliver 0 startOther, .go, .go, .go, .connect .up]
    s.Idle ∧ s.log.length = 1 ∧ s.place = some { connected := true, sock := true } ∧
      ¬ ∀ entry ∈ s.log, entry.Connected := by
  decide +kernel

end Connection

end PyAmqp
