import PyAmqp.Connection.Negotiation
import PyAmqp.Base.Run

/-!
A connection and a server that follow the grammar of `amqp/connection.py`:
`S:START C:START-OK *challenge S:TUNE C:TUNE-OK C:OPEN S:OPEN-OK`. They settle on the same
limits, and a challenge is never answered.
-/

namespace PyAmqp

open Cursor Connection Negotiation

/-! What the server says -/

structure Announcement where
  versionMajor : UInt8
  versionMinor : UInt8
  serverProperties : List (PyStr × Value)
  mechanisms : PyStr
  locales : PyStr
  encodable : (Value.dict serverProperties).Encodable
  mechanismsFit : (Utf8.encode mechanisms).length < 2 ^ 32
  localesFit : (Utf8.encode locales).length < 2 ^ 32

structure Challenge where
  challenge : PyStr
  fits : (Utf8.encode challenge).length ≤ 255

structure Proposal where
  channelMax : UInt16
  frameMax : UInt32
  heartbeat : UInt16

structure Refusal where
  replyCode : UInt16
  replyText : PyStr
  classId : UInt16
  methodId : UInt16
  fits : (Utf8.encode replyText).length ≤ 255

def Proposal.limits (p : Proposal) : Limits where
  channelMax := p.channelMax.toNat
  frameMax := p.frameMax.toNat
  heartbeat := p.heartbeat.toNat

inductive Speech where
  | start (a : Announcement)
  | secure (c : Challenge)
  | tune (p : Proposal)
  | openOk
  | close (r : Refusal)

namespace Speech

def method : Speech → AmqpMethod
  | start _ => { methodSig := Spec.Connection.start, args := "ooFSS" }
  | secure _ => { methodSig := Spec.Connection.secure, args := "s" }
  | tune _ => { methodSig := Spec.Connection.tune, args := "BlB" }
  | openOk => { methodSig := Spec.Connection.openOk }
  | close _ => { methodSig := Spec.Connection.close, args := "BsBB" }

def args : Speech → List Value
  | start a => [.int a.versionMajor.toNat, .int a.versionMinor.toNat, .dict a.serverProperties,
      .str a.mechanisms, .str a.locales]
  | secure c => [.str c.challenge]
  | tune p => [.int p.channelMax.toNat, .int p.frameMax.toNat, .int p.heartbeat.toNat]
  | openOk => []
  | close r =>
      [.int r.replyCode.toNat, .str r.replyText, .int r.classId.toNat, .int r.methodId.toNat]

/-- The method as it is sent. -/
def inbound (speech : Speech) : Inbound where
  methodSig := speech.method.methodSig
  payload := methodOctets speech.method.methodSig
    ((dumps speech.method.args.toList speech.args).toOption.getD [])

theorem args_inRange (speech : Speech) :
    List.Forall₂ InRange speech.method.args.toList speech.args := by
  cases speech with
  | start a =>
      have hformat : (start a).method.args.toList = ['o', 'o', 'F', 'S', 'S'] := by
        change "ooFSS".toList = _
        decide
      rw [hformat]
      exact .cons (.octet a.versionMajor.toNat_lt) (.cons (.octet a.versionMinor.toNat_lt)
        (.cons (.table a.encodable) (.cons (.longstr a.mechanismsFit)
          (.cons (.longstr a.localesFit) .nil))))
  | secure c =>
      have hformat : (secure c).method.args.toList = ['s'] := by
        change "s".toList = _
        decide
      rw [hformat]
      exact .cons (.shortstr c.fits) .nil
  | tune p =>
      have hformat : (tune p).method.args.toList = ['B', 'l', 'B'] := by
        change "BlB".toList = _
        decide
      rw [hformat]
      exact .cons (.short p.channelMax.toNat_lt) (.cons (.long p.frameMax.toNat_lt)
        (.cons (.short p.heartbeat.toNat_lt) .nil))
  | openOk => exact .nil
  | close r =>
      have hformat : (close r).method.args.toList = ['B', 's', 'B', 'B'] := by
        change "BsBB".toList = _
        decide
      rw [hformat]
      exact .cons (.short r.replyCode.toNat_lt) (.cons (.shortstr r.fits)
        (.cons (.short r.classId.toNat_lt) (.cons (.short r.methodId.toNat_lt) .nil)))

theorem lookup_method (speech : Speech) : lookup 0 speech.method.methodSig = .ok speech.method := by
  cases speech <;> rfl

/-- The client reads what the server says as it was meant. -/
theorem inbound_args (speech : Speech) :
    speech.inbound.args id speech.method =
      .ok ((List.zipWith argumentBack speech.method.args.toList speech.args).map Arg.value) := by
  obtain ⟨octets, hdumps, hreads⟩ := dumps_reads speech.args_inRange
  have hcontent : speech.method.content = false := by cases speech <;> rfl
  have hpayload : speech.inbound.payload = methodOctets speech.method.methodSig octets := by
    simp only [inbound, hdumps, Except.toOption, Option.getD_some]
  rw [Inbound.args, hpayload, hcontent]
  split
  next hnone => rw [hnone]; rfl
  next => rw [reads_method hreads]; rfl

theorem dispatch_inbound (o : Options) (speech : Speech) (s : Negotiation) :
    Negotiation.dispatchMethod o speech.inbound s =
      Negotiation.listen o speech.method.methodSig
        ((List.zipWith argumentBack speech.method.args.toList speech.args).map Arg.value) s := by
  have hsig : speech.inbound.methodSig = speech.method.methodSig := rfl
  rw [Negotiation.dispatchMethod, hsig]
  simp only [Effect.bind_run, Effect.liftExcept_run, lookup_method, inbound_args]

end Speech

/-! The server -/

/-- What the server waits for, or that it has the word: it may tell its limits or challenge the
client when it has read a `StartOk`, and open the connection when it has read an `Open`. -/
inductive Stage where
  | fresh
  | started
  | authenticating
  | challenged
  | tuning
  | tuned
  | opening
  | ready
  | closing
  | closed
  | violated
  deriving DecidableEq

structure Server where
  stage : Stage := .fresh
  announced : Option Announcement := none
  greeting : Option Greeting := none
  proposal : Option Proposal := none
  limits : Option Limits := none
  virtualHost : Option PyStr := none
  opened : Bool := false

namespace Server

/-- The server says something, when it is its turn; it closes the connection when it likes. -/
def say (speech : Speech) (server : Server) : Option Server :=
  match speech, server.stage with
  | .start a, .fresh => some { server with stage := .started, announced := some a }
  | .secure _, .authenticating => some { server with stage := .challenged }
  | .tune p, .authenticating => some { server with stage := .tuning, proposal := some p }
  | .openOk, .opening => some { server with stage := .ready, opened := true }
  | .close _, .closing | .close _, .closed | .close _, .violated => none
  | .close _, _ => some { server with stage := .closing }
  | _, _ => none

/-- What the grammar does not allow there. -/
def violate (server : Server) : Server := { server with stage := .violated }

/-- The server reads the method it waits for. -/
def expect {α : Type} (sig : MethodSig) (m : Inbound) (args : Except PyError α)
    (next : α → Server) (server : Server) : Server :=
  if m.methodSig = sig then
    match args with
    | .ok a => next a
    | .error _ => server.violate
  else server.violate

/-- The server reads a method; when it has closed the connection it waits for the `CloseOk`. -/
def hear (m : Inbound) (server : Server) : Server :=
  match server.stage with
  | .started =>
      server.expect Spec.Connection.startOk m m.greeting fun g =>
        { server with stage := .authenticating, greeting := some g }
  | .challenged =>
      server.expect Spec.Connection.secureOk m (.ok ()) fun _ =>
        { server with stage := .authenticating }
  | .tuning =>
      server.expect Spec.Connection.tuneOk m m.limits fun limits =>
        { server with stage := .tuned, limits := some limits }
  | .tuned =>
      server.expect Spec.Connection.open m m.virtualHost fun virtualHost =>
        { server with stage := .opening, virtualHost := some virtualHost }
  | .closing =>
      if m.methodSig = Spec.Connection.closeOk then { server with stage := .closed } else server
  | _ => server.violate

end Server

/-! Both -/

/-- The client, what its `connect` has raised, the server, and what is in flight: what the server
has said and the client not read, and what the client has sent past what the server has read. -/
structure Handshake where
  client : Negotiation
  outcome : Option PyError := none
  server : Server := {}
  toClient : List Speech := []
  heard : Nat := 0

namespace Handshake

inductive Event where
  | say (speech : Speech)
  | read
  | hear

def inFlight (h : Handshake) : List Inbound := h.client.sent.drop h.heard

/-- The loop of `connect` reads a method. -/
def read (o : Options) (h : Handshake) : Handshake :=
  match h.outcome, h.toClient with
  | none, speech :: toClient =>
      match dispatchMethod o speech.inbound h.client with
      | (.ok (), client) => { h with client, toClient }
      | (.error e, client) => { h with client, toClient, outcome := some e }
  | _, _ => h

def step (o : Options) (h : Handshake) : Event → Handshake
  | .say speech =>
      match h.server.say speech with
      | some server => { h with server, toClient := h.toClient ++ [speech] }
      | none => h
  | .read => read o h
  | .hear =>
      match h.inFlight with
      | m :: _ => { h with server := h.server.hear m, heard := h.heard + 1 }
      | [] => h

def run (o : Options) (events : List Event) : Handshake :=
  events.foldl (step o) { client := init o }

end Handshake

/-! What the client makes of each method -/

section Dispatch

variable {o : Options} {s : Negotiation}

theorem dispatch_start (a : Announcement)
    (hdistinct : (Value.dict s.clientProperties).every Value.distinctKeys = true) :
    ∃ r s', Negotiation.dispatchMethod o (Speech.start a).inbound s = (r, s') ∧
      s'.handshakeComplete = s.handshakeComplete ∧ s'.limits = s.limits ∧
      ((∃ e, r = .error e ∧ s'.sent = s.sent) ∨
        ∃ m g, r = .ok () ∧ s'.sent = s.sent ++ [m] ∧ m.methodSig = Spec.Connection.startOk ∧
          m.greeting = .ok g ∧ Greeted o (readBackEntries a.serverProperties) a.mechanisms
            s.clientProperties g) := by
  have hformat : (Speech.start a).method.args.toList = ['o', 'o', 'F', 'S', 'S'] := by
    change "ooFSS".toList = _
    decide
  rw [Speech.dispatch_inbound, hformat]
  exact onStart_cases o (.int a.versionMajor.toNat) (.int a.versionMinor.toNat)
    (readBackEntries a.serverProperties) a.mechanisms a.locales hdistinct

theorem dispatch_secure (c : Challenge) :
    Negotiation.dispatchMethod o (Speech.secure c).inbound s = (.ok (), s) := by
  rw [Speech.dispatch_inbound]
  rfl

theorem dispatch_tune (p : Proposal) :
    ∃ r s', Negotiation.dispatchMethod o (Speech.tune p).inbound s = (r, s') ∧
      s'.handshakeComplete = s.handshakeComplete ∧ s'.limits = settle o s.limits p.limits ∧
      ((∃ e, r = .error e ∧ s'.sent = s.sent) ∨
        ∃ m, m.methodSig = Spec.Connection.tuneOk ∧ m.limits = .ok s'.limits ∧
          ((∃ e, r = .error e ∧ s'.sent = s.sent ++ [m]) ∨
            ∃ m', m'.methodSig = Spec.Connection.open ∧ m'.virtualHost = .ok o.virtualHost ∧
              r = .ok () ∧ s'.sent = s.sent ++ [m] ++ [m'])) := by
  have hformat : (Speech.tune p).method.args.toList = ['B', 'l', 'B'] := by
    change "BlB".toList = _
    decide
  rw [Speech.dispatch_inbound, hformat]
  exact onTune_cases o p.limits s

theorem dispatch_openOk :
    Negotiation.dispatchMethod o Speech.openOk.inbound s =
      (.ok (), { s with handshakeComplete := true }) := by
  rw [Speech.dispatch_inbound]
  rfl

theorem dispatch_close (r : Refusal) :
    ∃ m e, Negotiation.dispatchMethod o (Speech.close r).inbound s =
      (.error e, { s with sent := s.sent ++ [m] }) ∧ m.methodSig = Spec.Connection.closeOk := by
  rw [Speech.dispatch_inbound]
  obtain ⟨m, e, s', hrun, hsig, rfl⟩ := onClose_run
    ((List.zipWith argumentBack (Speech.close r).method.args.toList (Speech.close r).args).map
      Arg.value) s
  exact ⟨m, e, hrun, hsig⟩

/-- What the server says to open a connection the machine of the connection takes as the client
does here. -/
theorem listen_shows {P : Promises Reply} {cfg : Connection.Config} {c : Connection P}
    (hshows : Shows cfg o c s) (hwanted : o.negotiateCapabilities ≠ [])
    (hown : ∀ v, Assoc.get? s.clientProperties capabilities = some v → ∃ cap, v = .dict cap)
    (hdistinct : (Value.dict s.clientProperties).every Value.distinctKeys = true)
    {speech : Speech} (hopens : ∀ r, speech ≠ .close r) {args : List Arg}
    (hargs : speech.inbound.args id speech.method = .ok args) :
    Shows cfg o (Connection.listen cfg speech.method.methodSig args c)
      (Negotiation.dispatchMethod o speech.inbound s).2 := by
  obtain rfl := Except.ok.inj (speech.inbound_args.symm.trans hargs)
  rw [Speech.dispatch_inbound]
  cases speech with
  | start a =>
      have hformat : (Speech.start a).method.args.toList = ['o', 'o', 'F', 'S', 'S'] := by
        change "ooFSS".toList = _
        decide
      rw [hformat]
      obtain ⟨r, s', hrun, hshown, -⟩ := onStart_shows hshows hwanted hown hdistinct
        (.int a.versionMajor.toNat) (.int a.versionMinor.toNat) (readBackEntries a.serverProperties)
        a.mechanisms a.locales
      have hsame := congrArg Prod.snd hrun
      subst hsame
      exact hshown
  | secure _ => exact ⟨hshows.authentication, hshows.channelMax, hshows.handshakeComplete⟩
  | tune p =>
      have hformat : (Speech.tune p).method.args.toList = ['B', 'l', 'B'] := by
        change "BlB".toList = _
        decide
      rw [hformat]
      exact @onTune_shows P cfg o c s hshows p.limits (Int.natCast_nonneg _)
  | openOk => exact ⟨hshows.authentication, hshows.channelMax, rfl⟩
  | close r => exact absurd rfl (hopens r)

end Dispatch

/-! Where a handshake stands -/

namespace Handshake

variable {o : Options} {h : Handshake}

/-- A `StartOk` that answers an announcement. -/
def Answers (o : Options) (a : Announcement) (g : Greeting) : Prop :=
  Greeted o (readBackEntries a.serverProperties) a.mechanisms (init o).clientProperties g

/-- The server has read the `StartOk` that answers its `Start`. -/
def Known (o : Options) (server : Server) : Prop :=
  ∃ a g, server.announced = some a ∧ server.greeting = some g ∧ Answers o a g

/-- The limits that the server's `Tune` leads to. -/
def settled (o : Options) (p : Proposal) : Limits := settle o (init o).limits p.limits

/-- The client reads on, with its own limits, or has raised. -/
structure Untuned (o : Options) (h : Handshake) : Prop where
  incomplete : h.client.handshakeComplete = false
  limits : h.client.limits = (init o).limits

/-- The client has settled its limits. -/
structure Tuned (o : Options) (h : Handshake) (p : Proposal) : Prop where
  known : Known o h.server
  proposal : h.server.proposal = some p
  limits : h.client.limits = settled o p

/-- The two sides agree. -/
structure Agreed (o : Options) (h : Handshake) (p : Proposal) : Prop extends Tuned o h p where
  told : h.server.limits = some h.client.limits
  virtualHost : h.server.virtualHost = some o.virtualHost

/-- What the client sends behind its `TuneOk`: an `Open`, or nothing when it has raised. -/
def Opens (o : Options) (outcome : Option PyError) (rest : List Inbound) : Prop :=
  (rest = [] ∧ ∃ e, outcome = some e) ∨
    ∃ m, rest = [m] ∧ m.methodSig = Spec.Connection.open ∧ m.virtualHost = .ok o.virtualHost ∧
      outcome = none

/-- Where both stand while the server has not closed the connection. -/
inductive Phase (o : Options) (h : Handshake) : Stage → Prop
  | fresh : h.client = init o → h.outcome = none → h.toClient = [] → h.heard = 0 → Phase o h .fresh
  | announced {a : Announcement} : h.server.announced = some a → h.client = init o →
      h.outcome = none → h.toClient = [.start a] → h.heard = 0 → Phase o h .started
  | unfit {e : PyError} : h.client.handshakeComplete = false → h.outcome = some e →
      h.toClient = [] → h.client.sent = [] → h.heard = 0 → Phase o h .started
  | answered {a : Announcement} {m : Inbound} {g : Greeting} : h.server.announced = some a →
      Untuned o h → h.outcome = none → h.toClient = [] → h.client.sent = [m] → h.heard = 0 →
      m.methodSig = Spec.Connection.startOk → m.greeting = .ok g → Answers o a g →
      Phase o h .started
  | authenticating {m : Inbound} : Known o h.server → Untuned o h → h.outcome = none →
      h.toClient = [] → h.client.sent = [m] → h.heard = 1 → Phase o h .authenticating
  | challenged {m : Inbound} : Known o h.server → Untuned o h → h.outcome = none →
      (h.toClient = [] ∨ ∃ c, h.toClient = [.secure c]) → h.client.sent = [m] → h.heard = 1 →
      Phase o h .challenged
  | proposed {p : Proposal} {m : Inbound} : Known o h.server → h.server.proposal = some p →
      Untuned o h → h.outcome = none → h.toClient = [.tune p] → h.client.sent = [m] →
      h.heard = 1 → Phase o h .tuning
  | refused {e : PyError} {m : Inbound} : h.client.handshakeComplete = false →
      h.outcome = some e → h.toClient = [] → h.client.sent = [m] → h.heard = 1 → Phase o h .tuning
  | tuning {p : Proposal} {m m' : Inbound} {rest : List Inbound} : Tuned o h p →
      h.client.handshakeComplete = false → h.toClient = [] → h.client.sent = m :: m' :: rest →
      h.heard = 1 → m'.methodSig = Spec.Connection.tuneOk → m'.limits = .ok h.client.limits →
      Opens o h.outcome rest → Phase o h .tuning
  | tuned {p : Proposal} {m m' : Inbound} {rest : List Inbound} : Tuned o h p →
      h.server.limits = some h.client.limits →
      h.client.handshakeComplete = false → h.toClient = [] → h.client.sent = m :: m' :: rest →
      h.heard = 2 → Opens o h.outcome rest → Phase o h .tuned
  | opening {p : Proposal} : Agreed o h p → h.client.handshakeComplete = false →
      h.outcome = none → h.toClient = [] → h.heard = h.client.sent.length → Phase o h .opening
  | ready {p : Proposal} : Agreed o h p → h.server.opened = true →
      h.client.handshakeComplete = false → h.outcome = none → h.toClient = [.openOk] →
      h.heard = h.client.sent.length → Phase o h .ready
  | complete {p : Proposal} : Agreed o h p → h.server.opened = true →
      h.client.handshakeComplete = true → h.outcome = none → h.toClient = [] →
      h.heard = h.client.sent.length → Phase o h .ready

theorem inFlight_nil (hheard : h.heard = h.client.sent.length) : h.inFlight = [] := by
  rw [inFlight, hheard, List.drop_length]

theorem distinct_init (o : Options) :
    (Value.dict (init o).clientProperties).every Value.distinctKeys = true := by
  have hvalues := o.distinct
  simp only [Value.every, Bool.and_eq_true, everyEntry_iff] at hvalues
  exact distinct_updated (by decide) hvalues.2

/-- The server says something, and the connection goes on. -/
theorem Phase.say (hphase : Phase o h h.server.stage) {speech : Speech} {server : Server}
    (hsay : h.server.say speech = some server) (hopen : server.stage ≠ .closing) :
    Phase o { h with server, toClient := h.toClient ++ [speech] } server.stage := by
  unfold Server.say at hsay
  split at hsay
  next a hstage =>
    obtain rfl := Option.some.inj hsay
    rw [hstage] at hphase
    cases hphase with
    | fresh hclient houtcome htoClient hheard =>
        exact .announced rfl hclient houtcome (by simp [htoClient]) hheard
  next c hstage =>
    obtain rfl := Option.some.inj hsay
    rw [hstage] at hphase
    cases hphase with
    | authenticating hknown huntuned houtcome htoClient hsent hheard =>
        have htold : h.toClient ++ [.secure c] = [.secure c] := by rw [htoClient, List.nil_append]
        exact .challenged hknown ⟨huntuned.incomplete, huntuned.limits⟩ houtcome
          (.inr ⟨c, htold⟩) hsent hheard
  next p hstage =>
    obtain rfl := Option.some.inj hsay
    rw [hstage] at hphase
    cases hphase with
    | authenticating hknown huntuned houtcome htoClient hsent hheard =>
        exact .proposed hknown rfl ⟨huntuned.incomplete, huntuned.limits⟩ houtcome
          (by simp [htoClient]) hsent hheard
  next hstage =>
    obtain rfl := Option.some.inj hsay
    rw [hstage] at hphase
    cases hphase with
    | opening hagreed hincomplete houtcome htoClient hflight =>
        exact .ready ⟨⟨hagreed.known, hagreed.proposal, hagreed.limits⟩, hagreed.told,
          hagreed.virtualHost⟩ rfl hincomplete houtcome (by simp [htoClient]) hflight
  next => cases hsay
  next => cases hsay
  next => cases hsay
  next =>
    obtain rfl := Option.some.inj hsay
    exact absurd rfl hopen
  next => cases hsay

/-- The client reads what the server has said. -/
theorem Phase.read (hphase : Phase o h h.server.stage) :
    Phase o (read o h) (read o h).server.stage := by
  unfold Handshake.read
  split
  next speech toClient houtcome htoClient =>
    generalize hstage : h.server.stage = stage at hphase
    cases hphase with
    | @announced a hannounced hclient _ hqueue hheard =>
        obtain ⟨rfl, rfl⟩ := List.cons.inj (htoClient.symm.trans hqueue)
        obtain ⟨r, s', hrun, hcomplete, hlimits, hsends⟩ := @dispatch_start o h.client a
          (by rw [hclient]; exact distinct_init o)
        rw [hrun]
        rw [hclient] at hcomplete hlimits hsends
        rcases hsends with ⟨e, rfl, hsent⟩ | ⟨m, g, rfl, hsent, hsig, hgreeting, hgreeted⟩
        · simp only [hstage]
          exact .unfit hcomplete rfl rfl hsent hheard
        · simp only [hstage]
          exact .answered hannounced ⟨hcomplete, hlimits⟩ houtcome rfl hsent hheard hsig hgreeting
            hgreeted
    | challenged hknown huntuned _ hqueue hsent hheard =>
        rcases hqueue with hnone | ⟨c, hsecure⟩
        · cases htoClient.symm.trans hnone
        · obtain ⟨rfl, rfl⟩ := List.cons.inj (htoClient.symm.trans hsecure)
          rw [dispatch_secure]
          simp only [hstage]
          exact .challenged hknown ⟨huntuned.incomplete, huntuned.limits⟩ houtcome (.inl rfl)
            hsent hheard
    | @proposed p m hknown hproposal huntuned _ hqueue hsent hheard =>
        obtain ⟨rfl, rfl⟩ := List.cons.inj (htoClient.symm.trans hqueue)
        obtain ⟨r, s', hrun, hcomplete, hlimits, hsends⟩ := @dispatch_tune o h.client p
        rw [hrun]
        rw [huntuned.incomplete] at hcomplete
        rw [huntuned.limits] at hlimits
        rcases hsends with ⟨e, rfl, hnothing⟩ | ⟨m', hsig, htold, hopens⟩
        · simp only [hstage]
          exact .refused hcomplete rfl rfl (hnothing.trans hsent) hheard
        · rcases hopens with ⟨e, rfl, hone⟩ | ⟨m'', hopen, hhost, rfl, hboth⟩
          · have hsends : s'.sent = m :: m' :: [] := by rw [hone, hsent, List.singleton_append]
            simp only [hstage]
            exact .tuning ⟨hknown, hproposal, hlimits⟩ hcomplete rfl hsends hheard hsig htold
              (.inl ⟨rfl, e, rfl⟩)
          · have hsends : s'.sent = m :: m' :: [m''] := by rw [hboth, hsent]; rfl
            simp only [hstage]
            exact .tuning ⟨hknown, hproposal, hlimits⟩ hcomplete rfl hsends hheard hsig htold
              (.inr ⟨m'', rfl, hopen, hhost, houtcome⟩)
    | ready hagreed hopened _ _ hqueue hflight =>
        obtain ⟨rfl, rfl⟩ := List.cons.inj (htoClient.symm.trans hqueue)
        rw [dispatch_openOk]
        simp only [hstage]
        exact .complete ⟨⟨hagreed.known, hagreed.proposal, hagreed.limits⟩, hagreed.told,
          hagreed.virtualHost⟩ hopened rfl houtcome rfl hflight
    | _ => simp_all
  next => exact hphase

/-- The server reads what the client has sent. -/
theorem Phase.hear (hphase : Phase o h h.server.stage) {m : Inbound} {rest : List Inbound}
    (hflight : h.inFlight = m :: rest) :
    Phase o { h with server := h.server.hear m, heard := h.heard + 1 } (h.server.hear m).stage := by
  have hnothing : h.heard ≠ h.client.sent.length := fun hheard => by
    rw [inFlight_nil hheard] at hflight
    cases hflight
  generalize hstage : h.server.stage = stage at hphase
  cases hphase with
  | @answered a m' g hannounced huntuned houtcome hqueue hsent hheard hsig hgreeting hanswers =>
      rw [inFlight, hsent, hheard] at hflight
      obtain ⟨rfl, rfl⟩ := List.cons.inj hflight
      simp only [Server.hear, hstage, Server.expect, if_pos hsig, hgreeting]
      exact .authenticating ⟨a, g, hannounced, rfl, hanswers⟩
        ⟨huntuned.incomplete, huntuned.limits⟩ houtcome hqueue hsent (by rw [hheard])
  | @tuning p m₁ m' rest' htuned hincomplete hqueue hsent hheard hsig htold hopens =>
      rw [inFlight, hsent, hheard] at hflight
      obtain ⟨rfl, rfl⟩ := List.cons.inj hflight
      simp only [Server.hear, hstage, Server.expect, if_pos hsig, htold]
      exact .tuned ⟨htuned.known, htuned.proposal, htuned.limits⟩ rfl hincomplete hqueue hsent
        (by rw [hheard]) hopens
  | @tuned p m₁ m' rest' htuned htold hincomplete hqueue hsent hheard hopens =>
      rw [inFlight, hsent, hheard] at hflight
      rcases hopens with ⟨rfl, -⟩ | ⟨m'', rfl, hsig, hhost, houtcome⟩
      · cases hflight
      · obtain ⟨rfl, rfl⟩ := List.cons.inj hflight
        simp only [Server.hear, hstage, Server.expect, if_pos hsig, hhost]
        exact .opening ⟨⟨htuned.known, htuned.proposal, htuned.limits⟩, htold, rfl⟩ hincomplete
          houtcome hqueue (by rw [hsent, hheard]; rfl)
  | fresh hclient _ _ hheard => exact absurd (hheard.trans (by rw [hclient]; rfl)) hnothing
  | announced _ hclient _ _ hheard => exact absurd (hheard.trans (by rw [hclient]; rfl)) hnothing
  | unfit _ _ _ hsent hheard => exact absurd (hheard.trans (by rw [hsent]; rfl)) hnothing
  | authenticating _ _ _ _ hsent hheard => exact absurd (hheard.trans (by rw [hsent]; rfl)) hnothing
  | challenged _ _ _ _ hsent hheard => exact absurd (hheard.trans (by rw [hsent]; rfl)) hnothing
  | proposed _ _ _ _ _ hsent hheard => exact absurd (hheard.trans (by rw [hsent]; rfl)) hnothing
  | refused _ _ _ hsent hheard => exact absurd (hheard.trans (by rw [hsent]; rfl)) hnothing
  | opening _ _ _ _ hheard => exact absurd hheard hnothing
  | ready _ _ _ _ _ hheard => exact absurd hheard hnothing
  | complete _ _ _ _ _ hheard => exact absurd hheard hnothing

theorem Phase.incomplete {stage : Stage} (hphase : Phase o h stage) (hstage : stage ≠ .ready) :
    h.client.handshakeComplete = false := by
  cases hphase with
  | fresh hclient => rw [hclient]; rfl
  | announced _ hclient => rw [hclient]; rfl
  | unfit hincomplete => exact hincomplete
  | answered _ huntuned => exact huntuned.incomplete
  | authenticating _ huntuned => exact huntuned.incomplete
  | challenged _ huntuned => exact huntuned.incomplete
  | proposed _ _ huntuned => exact huntuned.incomplete
  | refused hincomplete => exact hincomplete
  | tuning _ hincomplete => exact hincomplete
  | tuned _ _ hincomplete => exact hincomplete
  | opening _ hincomplete => exact hincomplete
  | ready => exact absurd rfl hstage
  | complete => exact absurd rfl hstage

theorem Phase.agreed {stage : Stage} (hphase : Phase o h stage)
    (hcomplete : h.client.handshakeComplete = true) :
    stage = .ready ∧ h.server.opened = true ∧ ∃ p, Agreed o h p := by
  have hready : stage = .ready := by
    by_contra hne
    rw [hphase.incomplete hne] at hcomplete
    cases hcomplete
  subst hready
  cases hphase with
  | ready hagreed hopened => exact ⟨rfl, hopened, _, hagreed⟩
  | complete hagreed hopened => exact ⟨rfl, hopened, _, hagreed⟩

/-- No `CloseOk` is in flight before a `Close` has been read. -/
theorem Phase.inFlight {stage : Stage} (hphase : Phase o h stage) :
    ∀ m ∈ h.inFlight, m.methodSig ≠ Spec.Connection.closeOk := by
  have hnone (hheard : h.heard = h.client.sent.length) :
      ∀ m ∈ h.inFlight, m.methodSig ≠ Spec.Connection.closeOk := by
    rw [inFlight_nil hheard]
    simp
  have hopens {rest : List Inbound} (h : Opens o h.outcome rest) :
      ∀ m ∈ rest, m.methodSig ≠ Spec.Connection.closeOk := by
    rcases h with ⟨rfl, -⟩ | ⟨m, rfl, hsig, -⟩
    · simp
    · simp only [List.mem_singleton, forall_eq, hsig]
      decide
  cases hphase with
  | fresh hclient _ _ hheard => exact hnone (by rw [hclient, hheard]; rfl)
  | announced _ hclient _ _ hheard => exact hnone (by rw [hclient, hheard]; rfl)
  | unfit _ _ _ hsent hheard => exact hnone (by rw [hsent, hheard]; rfl)
  | answered _ _ _ _ hsent hheard hsig =>
      rw [Handshake.inFlight, hsent, hheard]
      simp only [List.drop_zero, List.mem_singleton, forall_eq, hsig]
      decide
  | authenticating _ _ _ _ hsent hheard => exact hnone (by rw [hsent, hheard]; rfl)
  | challenged _ _ _ _ hsent hheard => exact hnone (by rw [hsent, hheard]; rfl)
  | proposed _ _ _ _ _ hsent hheard => exact hnone (by rw [hsent, hheard]; rfl)
  | refused _ _ _ hsent hheard => exact hnone (by rw [hsent, hheard]; rfl)
  | tuning _ _ _ hsent hheard hsig _ hrest =>
      rw [Handshake.inFlight, hsent, hheard]
      intro m hm
      rcases List.mem_cons.mp hm with rfl | hbehind
      · rw [hsig]
        decide
      · exact hopens hrest m hbehind
  | tuned _ _ _ _ hsent hheard hrest =>
      rw [Handshake.inFlight, hsent, hheard]
      exact hopens hrest
  | opening _ _ _ _ hheard => exact hnone hheard
  | ready _ _ _ _ _ hheard => exact hnone hheard
  | complete _ _ _ _ _ hheard => exact hnone hheard

theorem Phase.heard {stage : Stage} (hphase : Phase o h stage) :
    h.heard ≤ h.client.sent.length := by
  cases hphase with
  | fresh _ _ _ hheard => simp [hheard]
  | announced _ _ _ _ hheard => simp [hheard]
  | unfit _ _ _ _ hheard => simp [hheard]
  | answered _ _ _ _ _ hheard => simp [hheard]
  | authenticating _ _ _ _ hsent hheard => simp [hsent, hheard]
  | challenged _ _ _ _ hsent hheard => simp [hsent, hheard]
  | proposed _ _ _ _ _ hsent hheard => simp [hsent, hheard]
  | refused _ _ _ hsent hheard => simp [hsent, hheard]
  | tuning _ _ _ hsent hheard => simp [hsent, hheard]
  | tuned _ _ _ _ hsent hheard => simp [hsent, hheard]
  | opening _ _ _ _ hheard => exact hheard.le
  | ready _ _ _ _ _ hheard => exact hheard.le
  | complete _ _ _ _ _ hheard => exact hheard.le

/-! Agreement -/

/-- What a server that opened the connection knows of a client with these limits. -/
structure Settled (o : Options) (own : Limits) (server : Server) (a : Announcement)
    (p : Proposal) (g : Greeting) : Prop where
  opened : server.opened = true
  announced : server.announced = some a
  proposal : server.proposal = some p
  greeting : server.greeting = some g
  virtualHost : server.virtualHost = some o.virtualHost
  limits : server.limits = some own
  channelMax : own.channelMax =
    if p.channelMax = 0 then (init o).limits.channelMax else p.channelMax.toNat
  frameMax : own.frameMax =
    if p.frameMax = 0 then (init o).limits.frameMax else p.frameMax.toNat
  heartbeat : own.heartbeat =
    if o.heartbeat = 0 then 0
    else if p.heartbeat = 0 then max 0 o.heartbeat
    else min p.heartbeat.toNat o.heartbeat
  mechanism : Chosen (split 0x20 (Utf8.encode a.mechanisms)) o.authentication g.mechanism g.response
  capabilities : ∀ key, key ∈ Assoc.keys (capabilitiesOf g.clientProperties) ↔
    key ∈ Assoc.keys (capabilitiesOf (init o).clientProperties) ∨
      key ∈ Assoc.keys o.negotiateCapabilities ∧ Has a.serverProperties key

theorem Agreed.settled {p : Proposal} (hagreed : Agreed o h p) (hopened : h.server.opened = true) :
    ∃ a g, Settled o h.client.limits h.server a p g := by
  obtain ⟨a, g, hannounced, hgreeting, hgreeted⟩ := hagreed.known
  obtain ⟨properties, henabled, hproperties⟩ := hgreeted.properties
  have hchannel : p.limits.channelMax = 0 ↔ p.channelMax = 0 := by
    simp [Proposal.limits, ← UInt16.toNat_inj]
  have hframe : p.limits.frameMax = 0 ↔ p.frameMax = 0 := by
    simp [Proposal.limits, ← UInt32.toNat_inj]
  have hheartbeat : p.limits.heartbeat = 0 ↔ p.heartbeat = 0 := by
    simp [Proposal.limits, ← UInt16.toNat_inj]
  refine ⟨a, g, hopened, hannounced, hagreed.proposal, hgreeting, hagreed.virtualHost, hagreed.told,
    ?_, ?_, ?_, hgreeted.chosen, fun key => ?_⟩
  · simp only [hagreed.limits, Handshake.settled, settle, hchannel]
    rfl
  · simp only [hagreed.limits, Handshake.settled, settle, hframe]
    rfl
  · simp only [hagreed.limits, Handshake.settled, settle, settleHeartbeat, hheartbeat]
    split
    next => rfl
    next hown =>
      simp only [hown, or_false]
      split
      next hnone => rw [hheartbeat.mpr hnone]
      next => rfl
  · rw [hproperties, capabilitiesOf_readBack, keys_readBack, henabled.told, has_readBack]

/-- A client that takes the connection for open and the server have settled on the same. -/
def Concluded (o : Options) (client : Negotiation) (server : Server) : Prop :=
  client.handshakeComplete = true → ∃ a p g, Settled o client.limits server a p g

theorem Phase.concluded {stage : Stage} (hphase : Phase o h stage) :
    Concluded o h.client h.server := by
  intro hcomplete
  obtain ⟨-, hopened, p, hagreed⟩ := hphase.agreed hcomplete
  obtain ⟨a, g, hsettled⟩ := hagreed.settled hopened
  exact ⟨a, p, g, hsettled⟩

theorem Concluded.restage {client : Negotiation} {server : Server}
    (h : Concluded o client server) (stage : Stage) : Concluded o client { server with stage } := by
  intro hcomplete
  obtain ⟨a, p, g, hs⟩ := h hcomplete
  exact ⟨a, p, g, hs.opened, hs.announced, hs.proposal, hs.greeting, hs.virtualHost, hs.limits,
    hs.channelMax, hs.frameMax, hs.heartbeat, hs.mechanism, hs.capabilities⟩

/-! Closing -/

/-- Where both stand. A client does not know that the server has closed the connection until it
reads so: until then it stands with the server as it would with one that had not. -/
inductive Standing (o : Options) (h : Handshake) : Prop
  | going : Phase o h h.server.stage → Standing o h
  | closing {server : Server} {said : List Speech} {r : Refusal} : h.server.stage = .closing →
      h.toClient = said ++ [.close r] → Phase o { h with server, toClient := said } server.stage →
      (server.stage = .ready → h.server = { server with stage := .closing }) → Standing o h
  | left {e : PyError} {before : List Inbound} {m : Inbound} : h.server.stage = .closing →
      h.outcome = some e → h.toClient = [] → h.inFlight = before ++ [m] →
      (∀ m ∈ before, m.methodSig ≠ Spec.Connection.closeOk) →
      m.methodSig = Spec.Connection.closeOk → Concluded o h.client h.server → Standing o h
  | closed {e : PyError} : h.server.stage = .closed → h.outcome = some e → h.toClient = [] →
      h.inFlight = [] → Concluded o h.client h.server → Standing o h

theorem Standing.concluded (hstands : Standing o h) : Concluded o h.client h.server := by
  cases hstands with
  | going hphase => exact hphase.concluded
  | closing _ _ hphase hready =>
      intro hcomplete
      obtain ⟨hopen, -⟩ := hphase.agreed hcomplete
      rw [hready hopen]
      exact hphase.concluded.restage .closing hcomplete
  | left _ _ _ _ _ _ hconcluded => exact hconcluded
  | closed _ _ _ _ hconcluded => exact hconcluded

theorem say_close {server next : Server} {speech : Speech} (hsay : server.say speech = some next)
    (hclosing : next.stage = .closing) :
    ∃ r, speech = .close r ∧ next = { server with stage := .closing } := by
  unfold Server.say at hsay
  split at hsay
  all_goals try cases hsay
  all_goals try cases hclosing
  next r _ _ _ => exact ⟨r, rfl, rfl⟩

theorem say_left {server : Server} (hstage : server.stage = .closing ∨ server.stage = .closed)
    (speech : Speech) : server.say speech = none := by
  rcases hstage with hstage | hstage <;> cases speech <;> simp only [Server.say, hstage]

/-- A server opens the connection by what it says. -/
theorem hear_ne_ready (server : Server) (m : Inbound) : (server.hear m).stage ≠ .ready := by
  unfold Server.hear Server.expect
  split
  case h_5 hstage =>
    split
    · simp
    · simp [hstage]
  case h_6 => simp [Server.violate]
  all_goals
    split
    · split <;> simp [Server.violate]
    · simp [Server.violate]

theorem inFlight_tail {m : Inbound} {rest : List Inbound} (hflight : h.inFlight = m :: rest) :
    h.client.sent.drop (h.heard + 1) = rest := by
  rw [← List.tail_drop]
  exact congrArg List.tail hflight

/-- The client reads what was said to it before, whatever comes behind it. -/
theorem read_behind (server : Server) {speech : Speech} {said behind : List Speech}
    (htoClient : h.toClient = speech :: said ++ behind) :
    read o h =
      { read o { h with server, toClient := speech :: said } with
        server := h.server
        toClient := (read o { h with server, toClient := speech :: said }).toClient ++ behind } := by
  obtain ⟨client, outcome, own, toClient, heard⟩ := h
  simp only at htoClient
  subst htoClient
  cases outcome with
  | some e => rfl
  | none =>
      simp only [read, List.cons_append]
      cases hrun : dispatchMethod o speech.inbound client with
      | mk r client' => cases r <;> rfl

theorem read_server (o : Options) (h : Handshake) : (read o h).server = h.server := by
  unfold read
  split
  next => split <;> rfl
  next => rfl

theorem read_raised {e : PyError} (houtcome : h.outcome = some e) : read o h = h := by
  simp only [read, houtcome]

/-- The client reads that the server has closed the connection. -/
theorem read_close {r : Refusal} (houtcome : h.outcome = none)
    (htoClient : h.toClient = [.close r]) :
    ∃ m e, read o h =
      { h with
        client := { h.client with sent := h.client.sent ++ [m] }
        outcome := some e
        toClient := [] } ∧
      m.methodSig = Spec.Connection.closeOk := by
  obtain ⟨m, e, hrun, hsig⟩ := @dispatch_close o h.client r
  refine ⟨m, e, ?_, hsig⟩
  unfold read
  split
  next speech toClient _ hqueue =>
    obtain ⟨rfl, rfl⟩ := List.cons.inj (hqueue.symm.trans htoClient)
    rw [hrun]
  next hno => exact absurd htoClient (hno _ _ houtcome)

theorem Standing.say (hstands : Standing o h) {speech : Speech} {server : Server}
    (hsay : h.server.say speech = some server) :
    Standing o { h with server, toClient := h.toClient ++ [speech] } := by
  cases hstands with
  | going hphase =>
      by_cases hclosing : server.stage = .closing
      · obtain ⟨r, rfl, rfl⟩ := say_close hsay hclosing
        exact .closing rfl rfl hphase fun _ => rfl
      · exact .going (hphase.say hsay hclosing)
  | closing hstage => cases (say_left (.inl hstage) speech).symm.trans hsay
  | left hstage => cases (say_left (.inl hstage) speech).symm.trans hsay
  | closed hstage => cases (say_left (.inr hstage) speech).symm.trans hsay

theorem Standing.read (hstands : Standing o h) : Standing o (read o h) := by
  cases hstands with
  | going hphase => exact .going hphase.read
  | @closing server said r hstage htoClient hphase hready =>
      cases said with
      | cons speech said =>
          have hnext := hphase.read
          have hserver := read_server o { h with server, toClient := speech :: said }
          rw [read_behind server htoClient]
          generalize Handshake.read o { h with server, toClient := speech :: said } = next
            at hnext hserver
          obtain ⟨client, outcome, own, toClient, heard⟩ := next
          obtain rfl : own = server := hserver
          exact .closing hstage rfl hnext hready
      | nil =>
          cases houtcome : h.outcome with
          | some e =>
              rw [read_raised houtcome]
              exact .closing hstage htoClient hphase hready
          | none =>
              obtain ⟨m, e, hread, hsig⟩ := @read_close o h r houtcome htoClient
              have hconcluded : Concluded o h.client h.server :=
                (Standing.closing hstage htoClient hphase hready).concluded
              have hheard : h.heard ≤ h.client.sent.length := hphase.heard
              have hlast : (h.client.sent ++ [m]).drop h.heard = h.inFlight ++ [m] :=
                List.drop_append_of_le_length hheard
              rw [hread]
              exact .left hstage rfl rfl hlast hphase.inFlight hsig hconcluded
  | left hstage houtcome htoClient hlast hbefore hsig hconcluded =>
      rw [read_raised houtcome]
      exact .left hstage houtcome htoClient hlast hbefore hsig hconcluded
  | closed hstage houtcome htoClient hnothing hconcluded =>
      rw [read_raised houtcome]
      exact .closed hstage houtcome htoClient hnothing hconcluded

theorem Standing.hear (hstands : Standing o h) {m : Inbound} {rest : List Inbound}
    (hflight : h.inFlight = m :: rest) :
    Standing o { h with server := h.server.hear m, heard := h.heard + 1 } := by
  cases hstands with
  | going hphase => exact .going (hphase.hear hflight)
  | @closing server said r hstage htoClient hphase hready =>
      have hsig : m.methodSig ≠ Spec.Connection.closeOk := hphase.inFlight m (by
        change m ∈ h.inFlight
        simp [hflight])
      have hsame : h.server.hear m = h.server := by simp only [Server.hear, hstage, if_neg hsig]
      have hnext := hphase.hear hflight
      rw [hsame]
      exact .closing hstage htoClient hnext fun hready => absurd hready (hear_ne_ready server m)
  | @left e before m' hstage houtcome htoClient hlast hbefore hsig hconcluded =>
      rw [hlast] at hflight
      cases before with
      | nil =>
          obtain ⟨rfl, rfl⟩ := List.cons.inj hflight
          have hclosed : h.server.hear m' = { h.server with stage := .closed } := by
            simp only [Server.hear, hstage, if_pos hsig]
          rw [hclosed]
          exact .closed rfl houtcome htoClient (inFlight_tail hlast) (hconcluded.restage .closed)
      | cons first before =>
          obtain ⟨rfl, rfl⟩ := List.cons.inj hflight
          have hsame : h.server.hear first = h.server := by
            simp only [Server.hear, hstage, if_neg (hbefore first (by simp))]
          rw [hsame]
          have hlater : h.client.sent.drop (h.heard + 1) = before ++ [m'] := inFlight_tail hlast
          exact .left hstage houtcome htoClient hlater
            (fun m hm => hbefore m (List.mem_cons_of_mem _ hm)) hsig hconcluded
  | closed _ _ _ hnothing =>
      rw [hnothing] at hflight
      cases hflight

theorem Standing.step (hstands : Standing o h) (event : Event) : Standing o (step o h event) := by
  cases event with
  | say speech =>
      simp only [Handshake.step]
      cases hsay : h.server.say speech with
      | none => exact hstands
      | some server => exact hstands.say hsay
  | read => exact hstands.read
  | hear =>
      simp only [Handshake.step]
      cases hflight : h.inFlight with
      | nil => exact hstands
      | cons m rest => exact hstands.hear hflight

/-- While the server has not closed the connection both stand as in a `Phase`. -/
theorem Standing.phase (hstands : Standing o h) (hclosing : h.server.stage ≠ .closing)
    (hclosed : h.server.stage ≠ .closed) : Phase o h h.server.stage := by
  cases hstands with
  | going hphase => exact hphase
  | closing hstage => exact absurd hstage hclosing
  | left hstage => exact absurd hstage hclosing
  | closed hstage => exact absurd hstage hclosed

end Handshake

end PyAmqp
