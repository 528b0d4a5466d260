import PyAmqp.Exceptions

/-!
How a `SSLTransport` of `amqp/transport.py` wraps its socket: `_wrap_socket`, `_wrap_context` and
`_wrap_socket_sni`, with what they use of the library `ssl`. A session checks the name of the
peer only where it verifies its certificate.
-/

namespace PyAmqp

namespace Tls

/-! The library -/

/-- `ssl.VerifyMode` -/
inductive VerifyMode where
  | certNone
  | certOptional
  | certRequired
  deriving DecidableEq, Repr

/-- `ssl.Purpose` -/
inductive Purpose where
  | serverAuth
  | clientAuth
  deriving DecidableEq, Repr

/-- `ssl.PROTOCOL_TLS_CLIENT`, `ssl.PROTOCOL_TLS_SERVER`, or one of the older protocols, that
are for both sides. -/
inductive Protocol where
  | tlsClient
  | tlsServer
  | older (number : Nat)
  deriving DecidableEq, Repr

/-- Certificates that are loaded to verify others: from a file, from a directory, given as
data, or those of the system. -/
inductive Trust where
  | file (path : PyStr)
  | directory (path : PyStr)
  | data (certificates : List UInt8)
  | system (purpose : Purpose)
  deriving DecidableEq, Repr

/-- `ssl.SSLContext` -/
structure Context where
  protocol : Protocol
  checkHostname : Bool
  verifyMode : VerifyMode
  trusted : List Trust := []
  certChain : Option (PyStr × Option PyStr) := none
  ciphers : Option PyStr := none
  deriving DecidableEq, Repr

/-- What `wrap_socket` makes of a socket. `handshakes` says that it does the handshake. -/
structure Session where
  context : Context
  serverSide : Bool
  serverHostname : Option PyStr
  handshakes : Bool
  deriving DecidableEq, Repr

namespace Context

/-- `ssl.SSLContext(protocol)` -/
def make (protocol : Protocol) : Context :=
  match protocol with
  | .tlsClient => { protocol, checkHostname := true, verifyMode := .certRequired }
  | _ => { protocol, checkHostname := false, verifyMode := .certNone }

/-- `context.check_hostname = value`, which a context that does not verify takes as a wish to. -/
def setCheckHostname (value : Bool) (context : Context) : Context :=
  { context with
    checkHostname := value
    verifyMode :=
      if value = true ∧ context.verifyMode = .certNone then .certRequired else context.verifyMode }

/-- `context.verify_mode = mode` -/
def setVerifyMode (mode : VerifyMode) (context : Context) : Except PyError Context :=
  if mode = .certNone ∧ context.checkHostname = true then .error .valueError
  else .ok { context with verifyMode := mode }

def trust (trusted : List Trust) (context : Context) : Context :=
  { context with trusted := context.trusted ++ trusted }

/-- `context.wrap_socket` -/
def wrapSocket (serverSide : Bool) (serverHostname : Option PyStr) (handshakes : Bool)
    (context : Context) : Except PyError Session :=
  let named := serverHostname.any fun name => name ≠ []
  if serverSide = true ∧ named = true then .error .valueError
  else if context.checkHostname = true ∧ named = false then .error .valueError
  else .ok { context, serverSide, serverHostname, handshakes }

end Context

/-- `ssl.create_default_context` -/
def createDefaultContext (purpose : Purpose) (cafile capath : Option PyStr)
    (cadata : Option (List UInt8)) : Context :=
  let context : Context :=
    match purpose with
    | .serverAuth => .make .tlsClient
    | .clientAuth => .make .tlsServer
  let given := cafile.toList.map Trust.file ++ capath.toList.map Trust.directory ++
    cadata.toList.map Trust.data
  if given ≠ [] then context.trust given
  else if context.verifyMode ≠ .certNone then context.trust [.system purpose]
  else context

/-! Wrapping -/

/-- `context`: `check_hostname` with the arguments of `ssl.create_default_context`. -/
structure ContextOptions where
  checkHostname : Bool := false
  purpose : Purpose := .serverAuth
  cafile : Option PyStr := none
  capath : Option PyStr := none
  cadata : Option (List UInt8) := none

/-- The dictionary `ssl`, by its keys. An empty `context` is one that is not there. -/
structure Options where
  context : Option ContextOptions := none
  keyfile : Option PyStr := none
  certfile : Option PyStr := none
  serverSide : Bool := false
  certReqs : Option VerifyMode := none
  caCerts : Option PyStr := none
  doHandshakeOnConnect : Option Bool := none
  serverHostname : Option PyStr := none
  ciphers : Option PyStr := none
  sslVersion : Option Protocol := none

/-- `ssl.SSLContext.wrap_socket` takes no such argument. -/
def Options.foreign (opts : Options) : Bool :=
  opts.keyfile.isSome || opts.certfile.isSome || opts.certReqs.isSome || opts.caCerts.isSome ||
    opts.ciphers.isSome || opts.sslVersion.isSome

/-- `_wrap_context` -/
def wrapContext (opts : Options) (ctxOptions : ContextOptions) : Except PyError Session :=
  let ctx := createDefaultContext ctxOptions.purpose ctxOptions.cafile ctxOptions.capath
    ctxOptions.cadata
  let ctx := ctx.setCheckHostname ctxOptions.checkHostname
  if opts.foreign then .error .typeError
  else ctx.wrapSocket opts.serverSide opts.serverHostname (opts.doHandshakeOnConnect.getD true)

/-- `_wrap_socket_sni` -/
def wrapSocketSni (hasSni : Bool) (opts : Options) : Except PyError Session := do
  let sslVersion := opts.sslVersion.getD (if opts.serverSide then .tlsServer else .tlsClient)
  let context := Context.make sslVersion
  let context := { context with
    certChain := opts.certfile.map fun certfile => (certfile, opts.keyfile)
    ciphers := opts.ciphers }
  let context := context.trust (opts.caCerts.toList.map Trust.file)
  let context := context.setCheckHostname (hasSni && opts.serverHostname.isSome)
  let context ← match opts.certReqs with
    | some mode => context.setVerifyMode mode
    | none => pure context
  let context :=
    if opts.caCerts = none ∧ context.verifyMode ≠ .certNone then
      context.trust [.system (if opts.serverSide then .clientAuth else .serverAuth)]
    else context
  context.wrapSocket opts.serverSide opts.serverHostname (opts.doHandshakeOnConnect.getD false)

/-- `_wrap_socket` -/
def wrapSocket (hasSni : Bool) (opts : Options) : Except PyError Session :=
  match opts.context with
  | some ctxOptions => wrapContext opts ctxOptions
  | none => wrapSocketSni hasSni opts

/-! What a session verifies -/

/-- The protocol that these options ask for. -/
def Options.protocol (opts : Options) : Protocol :=
  match opts.context with
  | some ctxOptions => if ctxOptions.purpose = .serverAuth then .tlsClient else .tlsServer
  | none => opts.sslVersion.getD (if opts.serverSide then .tlsServer else .tlsClient)

/-- The certificate has to be for the host that is named, as these options have it. -/
def Options.checksHostname (hasSni : Bool) (opts : Options) : Bool :=
  match opts.context with
  | some ctxOptions => ctxOptions.checkHostname
  | none => hasSni && opts.serverHostname.isSome

/-- How the peer's certificate is looked at, as these options have it. -/
def Options.verifyMode (hasSni : Bool) (opts : Options) : VerifyMode :=
  match opts.context, opts.certReqs with
  | none, some mode => mode
  | _, _ =>
      if opts.protocol = .tlsClient ∨ opts.checksHostname hasSni = true then .certRequired
      else .certNone

/-- The certificates that it is held to. -/
def Options.anchors (hasSni : Bool) (opts : Options) : List Trust :=
  match opts.context with
  | some ctxOptions =>
      let given := ctxOptions.cafile.toList.map Trust.file ++
        ctxOptions.capath.toList.map Trust.directory ++ ctxOptions.cadata.toList.map Trust.data
      if given ≠ [] then given
      else if ctxOptions.purpose = .serverAuth then [.system .serverAuth]
      else []
  | none =>
      match opts.caCerts with
      | some path => [.file path]
      | none =>
          if opts.verifyMode hasSni = .certNone then []
          else [.system (if opts.serverSide then .clientAuth else .serverAuth)]

section Wraps

variable {context : Context} {opts : Options} {session : Session} {hasSni : Bool}

/-- No context checks names without looking at certificates. -/
def Context.Sound (context : Context) : Prop :=
  context.checkHostname = true → context.verifyMode ≠ .certNone

theorem Context.setCheckHostname_sound (value : Bool) (context : Context) :
    (context.setCheckHostname value).Sound := by
  intro hvalue
  simp only [setCheckHostname] at hvalue ⊢
  by_cases hnone : context.verifyMode = .certNone
  · simp [hvalue, hnone]
  · simp [hnone]

theorem Context.setVerifyMode_ok {mode : VerifyMode} {context' : Context}
    (h : context.setVerifyMode mode = .ok context') :
    context' = { context with verifyMode := mode } ∧
      (context.checkHostname = true → mode ≠ .certNone) := by
  unfold setVerifyMode at h
  split at h
  · cases h
  next hallowed =>
    rw [← Except.ok.inj h]
    refine ⟨rfl, fun hcheck hmode => hallowed ⟨hmode, hcheck⟩⟩

theorem Context.wrapSocket_ok {serverSide handshakes : Bool} {serverHostname : Option PyStr}
    (h : context.wrapSocket serverSide serverHostname handshakes = .ok session) :
    session = { context, serverSide, serverHostname, handshakes } ∧
      (context.checkHostname = true → ∃ name, serverHostname = some name ∧ name ≠ []) := by
  unfold wrapSocket at h
  simp only at h
  split at h
  · cases h
  split at h
  · cases h
  next hnamed =>
    refine ⟨(Except.ok.inj h).symm, fun hcheck => ?_⟩
    cases hname : serverHostname with
    | none => exact absurd ⟨hcheck, by rw [hname]; rfl⟩ hnamed
    | some name =>
        refine ⟨name, rfl, fun hempty => hnamed ⟨hcheck, ?_⟩⟩
        rw [hname, hempty]
        rfl

/-- What a session says and asks of its peer, by the options that it was made with. -/
structure Session.Trusts (session : Session) (hasSni : Bool) (opts : Options) : Prop where
  protocol : session.context.protocol = opts.protocol
  serverSide : session.serverSide = opts.serverSide
  serverHostname : session.serverHostname = opts.serverHostname
  certChain : session.context.certChain =
    opts.certfile.map fun certfile => (certfile, opts.keyfile)
  ciphers : session.context.ciphers = opts.ciphers
  verifies : session.context.verifyMode = opts.verifyMode hasSni
  anchored : session.context.trusted = opts.anchors hasSni
  checks : session.context.checkHostname = opts.checksHostname hasSni
  sound : session.context.Sound
  named : session.context.checkHostname = true →
    ∃ name, session.serverHostname = some name ∧ name ≠ []
  handshakes : session.handshakes = opts.doHandshakeOnConnect.getD opts.context.isSome

/-- `ssl.create_default_context`, attribute by attribute. -/
structure Context.Defaults (context : Context) (purpose : Purpose) (given : List Trust) : Prop where
  protocol : context.protocol = if purpose = .serverAuth then .tlsClient else .tlsServer
  verifyMode : context.verifyMode = if purpose = .serverAuth then .certRequired else .certNone
  certChain : context.certChain = none
  ciphers : context.ciphers = none
  trusted : context.trusted =
    if given ≠ [] then given else if purpose = .serverAuth then [.system .serverAuth] else []

theorem createDefaultContext_defaults (purpose : Purpose) (cafile capath : Option PyStr)
    (cadata : Option (List UInt8)) :
    (createDefaultContext purpose cafile capath cadata).Defaults purpose
      (cafile.toList.map Trust.file ++ capath.toList.map Trust.directory ++
        cadata.toList.map Trust.data) := by
  unfold createDefaultContext
  simp only
  generalize cafile.toList.map Trust.file ++ capath.toList.map Trust.directory ++
    cadata.toList.map Trust.data = given
  split
  next hgiven =>
    cases purpose with
    | serverAuth => exact ⟨rfl, rfl, rfl, rfl, (if_pos hgiven).symm⟩
    | clientAuth => exact ⟨rfl, rfl, rfl, rfl, (if_pos hgiven).symm⟩
  next hnone =>
    cases purpose with
    | serverAuth => exact ⟨rfl, rfl, rfl, rfl, (if_neg hnone).symm⟩
    | clientAuth => exact ⟨rfl, rfl, rfl, rfl, (if_neg hnone).symm⟩

theorem wrapContext_trusts {ctxOptions : ContextOptions} (hcontext : opts.context = some ctxOptions)
    (h : wrapContext opts ctxOptions = .ok session) : session.Trusts hasSni opts := by
  unfold wrapContext at h
  simp only at h
  split at h
  · cases h
  next hforeign =>
    simp only [Options.foreign, Bool.or_eq_true, not_or, Option.not_isSome_iff_eq_none] at hforeign
    obtain ⟨⟨⟨⟨⟨-, hcertfile⟩, -⟩, -⟩, hciphers⟩, -⟩ := hforeign
    obtain ⟨rfl, hnamed⟩ := Context.wrapSocket_ok h
    have hdefaults := createDefaultContext_defaults ctxOptions.purpose ctxOptions.cafile
      ctxOptions.capath ctxOptions.cadata
    generalize createDefaultContext ctxOptions.purpose ctxOptions.cafile ctxOptions.capath
      ctxOptions.cadata = made at hdefaults hnamed ⊢
    have hprotocol : made.protocol = opts.protocol := by
      rw [hdefaults.protocol, Options.protocol, hcontext]
    constructor
    case protocol => exact hprotocol
    case serverSide => rfl
    case serverHostname => rfl
    case certChain => exact hdefaults.certChain.trans (by rw [hcertfile]; rfl)
    case ciphers => exact hdefaults.ciphers.trans hciphers.symm
    case verifies =>
      simp only [Options.verifyMode, ← hprotocol, hdefaults.protocol, Options.checksHostname,
        hcontext, Context.setCheckHostname, hdefaults.verifyMode]
      cases ctxOptions.purpose with
      | serverAuth => simp
      | clientAuth => simp
    case anchored =>
      rw [Options.anchors, hcontext]
      exact hdefaults.trusted
    case checks => rw [Options.checksHostname, hcontext]; rfl
    case sound => exact Context.setCheckHostname_sound _ _
    case named => exact hnamed
    case handshakes => rw [hcontext]; rfl

/-- A context verifies by itself if it is for clients only. -/
theorem Context.setCheckHostname_make {protocol : Protocol} (value : Bool)
    (hmode : context.verifyMode = (Context.make protocol).verifyMode) :
    (context.setCheckHostname value).verifyMode =
      if protocol = .tlsClient ∨ value = true then .certRequired else .certNone := by
  simp only [Context.setCheckHostname, hmode]
  cases protocol with
  | tlsClient => simp [Context.make]
  | tlsServer => simp [Context.make]
  | older number => simp [Context.make]

/-- The last statements of `_wrap_socket_sni`, on the context with its mode. -/
theorem wrapSocketSni_ends (hcontext : opts.context = none)
    (hprotocol : context.protocol = opts.protocol)
    (hchain : context.certChain = opts.certfile.map fun certfile => (certfile, opts.keyfile))
    (hciphers : context.ciphers = opts.ciphers)
    (hverifies : context.verifyMode = opts.verifyMode hasSni)
    (hchecks : context.checkHostname = opts.checksHostname hasSni) (hsound : context.Sound)
    (htrusted : context.trusted = opts.caCerts.toList.map Trust.file)
    (h : (if opts.caCerts = none ∧ context.verifyMode ≠ .certNone then
        context.trust [.system (if opts.serverSide then .clientAuth else .serverAuth)]
      else context).wrapSocket opts.serverSide opts.serverHostname
        (opts.doHandshakeOnConnect.getD false) = .ok session) :
    session.Trusts hasSni opts := by
  obtain ⟨rfl, hnamed⟩ := Context.wrapSocket_ok h
  have hhandshakes : opts.doHandshakeOnConnect.getD false =
      opts.doHandshakeOnConnect.getD opts.context.isSome := by
    rw [hcontext]
    rfl
  have hanchors : opts.anchors hasSni =
      if opts.caCerts = none ∧ context.verifyMode ≠ .certNone then
        context.trusted ++ [.system (if opts.serverSide then .clientAuth else .serverAuth)]
      else context.trusted := by
    rw [Options.anchors, hcontext, htrusted, ← hverifies]
    cases opts.caCerts with
    | some path => rfl
    | none =>
        cases context.verifyMode with
        | certNone => rfl
        | certOptional => rfl
        | certRequired => rfl
  split at hnamed
  next hsystem =>
    rw [if_pos hsystem] at hanchors ⊢
    exact ⟨hprotocol, rfl, rfl, hchain, hciphers, hverifies, hanchors.symm, hchecks, hsound, hnamed,
      hhandshakes⟩
  next hsystem =>
    rw [if_neg hsystem] at hanchors ⊢
    exact ⟨hprotocol, rfl, rfl, hchain, hciphers, hverifies, hanchors.symm, hchecks, hsound, hnamed,
      hhandshakes⟩

theorem wrapSocketSni_trusts (hcontext : opts.context = none)
    (h : wrapSocketSni hasSni opts = .ok session) : session.Trusts hasSni opts := by
  unfold wrapSocketSni at h
  simp only at h
  let value := hasSni && opts.serverHostname.isSome
  let protocol := opts.sslVersion.getD (if opts.serverSide then .tlsServer else .tlsClient)
  let made : Context := { Context.make protocol with
    certChain := opts.certfile.map fun certfile => (certfile, opts.keyfile)
    ciphers := opts.ciphers }
  let loaded := made.trust (opts.caCerts.toList.map Trust.file)
  let checked := loaded.setCheckHostname value
  have hmade : (Context.make protocol).protocol = protocol ∧
      (Context.make protocol).trusted = [] := by
    cases protocol with
    | tlsClient => exact ⟨rfl, rfl⟩
    | tlsServer => exact ⟨rfl, rfl⟩
    | older number => exact ⟨rfl, rfl⟩
  have hprotocol : checked.protocol = opts.protocol := by
    rw [Options.protocol, hcontext]
    exact hmade.1
  have htrusted : checked.trusted = opts.caCerts.toList.map Trust.file := by
    change (Context.make protocol).trusted ++ _ = _
    rw [hmade.2, List.nil_append]
  have hchecks : checked.checkHostname = opts.checksHostname hasSni := by
    rw [Options.checksHostname, hcontext]
    rfl
  cases hreqs : opts.certReqs with
  | none =>
      rw [hreqs] at h
      have hmode : checked.verifyMode = opts.verifyMode hasSni := by
        have hvalue := @Context.setCheckHostname_make loaded protocol value rfl
        have hsame : checked.protocol = protocol := hmade.1
        simp only [Options.verifyMode, hcontext, hreqs, ← hprotocol, ← hchecks, hsame]
        exact hvalue
      exact wrapSocketSni_ends hcontext hprotocol rfl rfl hmode hchecks
        (Context.setCheckHostname_sound value loaded) htrusted h
  | some mode =>
      rw [hreqs] at h
      simp only [bind, Except.bind] at h
      split at h
      · cases h
      next context hset =>
        obtain ⟨rfl, hallowed⟩ := Context.setVerifyMode_ok hset
        have hmode : mode = opts.verifyMode hasSni := by
          simp only [Options.verifyMode, hcontext, hreqs]
        exact @wrapSocketSni_ends { checked with verifyMode := mode } opts session hasSni hcontext
          hprotocol rfl rfl hmode hchecks hallowed htrusted h

/-- A socket is wrapped as its options have it. -/
theorem wrapSocket_trusts (h : wrapSocket hasSni opts = .ok session) :
    session.Trusts hasSni opts := by
  unfold wrapSocket at h
  cases hcontext : opts.context with
  | some ctxOptions =>
      rw [hcontext] at h
      exact wrapContext_trusts hcontext h
  | none =>
      rw [hcontext] at h
      exact wrapSocketSni_trusts hcontext h

end Wraps

end Tls

end PyAmqp
