import PyAmqp.Base.Assoc
import PyAmqp.Base.Binary64
import PyAmqp.Base.Run
import PyAmqp.Transport.Tls
import PyAmqp.Transport.Write

/-!
The sockets that a transport of `amqp/transport.py` makes: `connect` with `_connect` and
`_init_socket`, and `close`, call by call of the libraries `socket` and `ssl`. Any of these calls
may raise. A socket is open until it is closed, held by the transport or not.
-/

namespace PyAmqp

/-- The value of a socket option. -/
inductive OptionValue where
  | int (n : Int)
  | bytes (s : Octets)
  deriving DecidableEq, Repr

/-- A socket and what has been done to it: the address it is connected to, `gettimeout()`, the
options of the socket and those of `SOL_TCP`, the session with the timeout of each handshake,
and what was sent. -/
structure Sock (α : Type) where
  address : Option α := none
  timeout : Option ℚ := none
  keepAlive : Bool := false
  options : List (Nat × OptionValue) := []
  sndTimeo : Option (Int × Int) := none
  rcvTimeo : Option (Int × Int) := none
  session : Option Tls.Session := none
  handshakes : List (Option ℚ) := []
  sent : Octets := []
  closed : Bool := false

/-- A transport with all the sockets that it has made, by number. `receiver` is the one whose
`recv` or `read` is `_quick_recv`, `calls` counts the calls of the libraries. -/
structure Sockets (α : Type) where
  made : List (Sock α) := []
  sock : Option Nat := none
  connected : Bool := false
  receiver : Option Nat := none
  calls : Nat := 0

/-- What a transport is made with, and its surroundings: the constants of `socket`, what
`getsockopt` gives, and which call of the libraries raises. -/
structure SocketConfig extends TransportConfig where
  socketSettings : List (Nat × OptionValue) := []
  connectTimeout : Option ℚ := none
  readTimeout : Option ℚ := none
  writeTimeout : Option ℚ := none
  sslopts : Tls.Options := {}
  hasSni : Bool := true
  ebadf : Nat := 9
  knownTcpOpts : List String := []
  constant : String → Option Nat := fun _ => none
  getsockopt : Nat → Int := fun _ => 0
  fails : Nat → Option PyError := fun _ => none

/-- `AMQP_PROTOCOL_HEADER` -/
def amqpProtocolHeader : Octets := [65, 77, 81, 80, 0, 0, 9, 1]

/-- `DEFAULT_SOCKET_SETTINGS` -/
def defaultSocketSettings : List (String × Int) :=
  [("TCP_NODELAY", 1), ("TCP_USER_TIMEOUT", 1000), ("TCP_KEEPIDLE", 60), ("TCP_KEEPINTVL", 10),
    ("TCP_KEEPCNT", 9)]

namespace Sockets

variable {α : Type}

/-! Calls of the libraries -/

/-- A call that does `f`, if it does not raise. -/
def call (cfg : SocketConfig) (f : Sockets α → Sockets α) : Effect (Sockets α) PyError Unit :=
  fun s =>
    let s := { s with calls := s.calls + 1 }
    match cfg.fails s.calls with
    | some e => (.error e, s)
    | none => (.ok (), f s)

def change (i : Nat) (f : Sock α → Sock α) (s : Sockets α) : Sockets α :=
  { s with made := s.made.modify i f }

/-- A call of a method of `self.sock`, which must be open. -/
def onSock (cfg : SocketConfig) (f : Sock α → Sock α) : Effect (Sockets α) PyError Unit := fun s =>
  match s.sock with
  | none => (.error .attributeError, s)
  | some i =>
      if s.made[i]?.any fun sock => sock.closed then (.error (.osError (some cfg.ebadf)), s)
      else call cfg (change i f) s

/-- `self.sock = socket.socket(af, socktype, proto)` -/
def makeSocket (cfg : SocketConfig) : Effect (Sockets α) PyError Unit :=
  call cfg fun s => { s with made := s.made ++ [{}], sock := some s.made.length }

/-- `self.sock.close()`, after which the socket is closed also if it raises. -/
def closeSock (cfg : SocketConfig) : Effect (Sockets α) PyError Unit := fun s =>
  match s.sock with
  | none => (.error .attributeError, s)
  | some i => call cfg id (change i (fun sock => { sock with closed := true }) s)

/-! Connecting -/

/-- The `try` block of `_connect`. No trace is kept of `set_cloexec`, whose
`NotImplementedError` is passed over. -/
def reach (cfg : SocketConfig) (address : α) : Effect (Sockets α) PyError Unit := do
  makeSocket cfg
  onSock cfg id
  onSock cfg fun sock => { sock with timeout := cfg.connectTimeout }
  onSock cfg fun sock => { sock with address := some address }

/-- `if self.sock: self.sock.close()` -/
def closeHeld (cfg : SocketConfig) : Effect (Sockets α) PyError Unit := do
  let s ← Effect.get
  if s.sock.isSome then closeSock cfg else pure ()

/-- The `except` clause of `_connect`, up to its `raise`. -/
def drop (cfg : SocketConfig) : Effect (Sockets α) PyError Unit := do
  closeHeld cfg
  Effect.modify fun s => { s with sock := none }

/-- The loop of `_connect`. -/
def dial (cfg : SocketConfig) : List α → Effect (Sockets α) PyError Unit
  | [] => pure ()
  | address :: rest => Effect.tryCatch (reach cfg address) fun e =>
      if e.isOSError then do
        drop cfg
        if rest = [] then Effect.raise e else dial cfg rest
      else Effect.raise e

/-- The loop of `_get_tcp_socket_defaults`. -/
def getTcpSocketDefaults (cfg : SocketConfig) :
    List String → List (Nat × OptionValue) → Effect (Sockets α) PyError (List (Nat × OptionValue))
  | [], tcpOpts => pure tcpOpts
  | opt :: rest, tcpOpts =>
      let enum :=
        if opt = "TCP_USER_TIMEOUT" then some ((cfg.constant opt).getD 18) else cfg.constant opt
      match enum with
      | none | some 0 => getTcpSocketDefaults cfg rest tcpOpts
      | some enum =>
          match Assoc.get? defaultSocketSettings opt, cfg.constant opt with
          | some value, _ => getTcpSocketDefaults cfg rest (Assoc.set tcpOpts enum (.int value))
          | none, some number => do
              onSock cfg id
              getTcpSocketDefaults cfg rest (Assoc.set tcpOpts enum (.int (cfg.getsockopt number)))
          | none, none => getTcpSocketDefaults cfg rest tcpOpts

/-- `tcp_opts.update(settings)` -/
def update (tcpOpts settings : List (Nat × OptionValue)) : List (Nat × OptionValue) :=
  settings.foldl (fun tcpOpts entry => Assoc.set tcpOpts entry.1 entry.2) tcpOpts

/-- `_set_socket_options` -/
def setSocketOptions (cfg : SocketConfig) : Effect (Sockets α) PyError Unit := do
  let tcpOpts ← getTcpSocketDefaults cfg cfg.knownTcpOpts []
  Effect.forEach
    (fun entry => onSock cfg fun sock =>
      { sock with options := Assoc.set sock.options entry.1 entry.2 })
    (update tcpOpts cfg.socketSettings)

/-- `int(q)` -/
def truncate (q : ℚ) : Int := q.num.tdiv q.den

/-- The seconds and microseconds of an interval, in floats. -/
def secUsec (interval : ℚ) : Int × Int :=
  let sec := truncate interval
  (sec, truncate (Binary64.nearest (Binary64.nearest (interval - sec) * 1000000)))

/-- A round of the last loop of `_init_socket`. -/
def setInterval (cfg : SocketConfig) (interval : Option ℚ)
    (f : Int × Int → Sock α → Sock α) : Effect (Sockets α) PyError Unit :=
  match interval with
  | none => pure ()
  | some interval => onSock cfg (f (secUsec interval))

/-- `self.sock = self._wrap_socket(self.sock, **self.sslopts)` and the handshake, which only
`SSLTransport` does. -/
def wrapSock (cfg : SocketConfig) : Effect (Sockets α) PyError Unit :=
  match cfg.kind with
  | .tcp => pure ()
  | .ssl => do
      let session ← Effect.liftExcept (Tls.wrapSocket cfg.hasSni cfg.sslopts)
      onSock cfg fun sock => { sock with
        session := some session
        handshakes :=
          if session.handshakes then sock.handshakes ++ [sock.timeout] else sock.handshakes }
      onSock cfg fun sock => { sock with timeout := cfg.connectTimeout }
      onSock cfg fun sock => { sock with handshakes := sock.handshakes ++ [sock.timeout] }

/-- `_setup_transport` -/
def setupTransport (cfg : SocketConfig) : Effect (Sockets α) PyError Unit := do
  wrapSock cfg
  Effect.modify fun s => { s with receiver := s.sock }

/-- `self._write(AMQP_PROTOCOL_HEADER)` -/
def writeHeader (cfg : SocketConfig) (sends : List Send) : Effect (Sockets α) PyError Unit :=
  fun s =>
    match s.sock with
    | none => (.error .attributeError, s)
    | some i =>
        let sent := (s.made[i]?.map Sock.sent).getD []
        let (r, out) := Outbound.rawWrite cfg.kind amqpProtocolHeader { sent, sends }
        (r, change i (fun sock => { sock with sent := out.sent }) s)

/-- `_init_socket` -/
def initSocket (cfg : SocketConfig) (sends : List Send) : Effect (Sockets α) PyError Unit := do
  onSock cfg fun sock => { sock with timeout := none }
  onSock cfg fun sock => { sock with keepAlive := true }
  setSocketOptions cfg
  setInterval cfg cfg.writeTimeout fun value sock => { sock with sndTimeo := some value }
  setInterval cfg cfg.readTimeout fun value sock => { sock with rcvTimeo := some value }
  setupTransport cfg
  writeHeader cfg sends

/-- The `try` block of `connect`; `addresses` is what `socket.getaddrinfo` does. -/
def tryConnect (cfg : SocketConfig) (addresses : Except PyError (List α)) (sends : List Send) :
    Effect (Sockets α) PyError Unit := do
  let s ← Effect.get
  if s.connected then pure ()
  else do
    dial cfg (← Effect.liftExcept addresses)
    initSocket cfg sends
    Effect.modify fun s => { s with connected := true }

/-- `if self.sock and not self.connected: self.sock.close(); self.sock = None` -/
def abandon (cfg : SocketConfig) : Effect (Sockets α) PyError Unit := do
  let s ← Effect.get
  if s.sock.isSome ∧ ¬ s.connected then do
    closeSock cfg
    Effect.modify fun s => { s with sock := none }
  else pure ()

/-- The `except` clause of `connect`. -/
def onConnectError (cfg : SocketConfig) (e : PyError) : Effect (Sockets α) PyError Unit :=
  if e.isOSError then do
    abandon cfg
    Effect.raise e
  else Effect.raise e

/-- `connect` -/
def connect (cfg : SocketConfig) (addresses : Except PyError (List α)) (sends : List Send) :
    Effect (Sockets α) PyError Unit :=
  Effect.tryCatch (tryConnect cfg addresses sends) (onConnectError cfg)

/-! Closing -/

/-- `try: m` with `except OSError: pass` -/
def ignoring (m : Effect (Sockets α) PyError Unit) : Effect (Sockets α) PyError Unit :=
  Effect.tryCatch m fun e => if e.isOSError then pure () else Effect.raise e

/-- `self.sock = self.sock.unwrap()`; a socket that is not wrapped has no such method. -/
def unwrap (cfg : SocketConfig) : Effect (Sockets α) PyError Unit := do
  let s ← Effect.get
  if (s.sock.bind fun i => s.made[i]?).any fun sock => sock.session.isSome then
    onSock cfg fun sock => { sock with session := none }
  else Effect.raise .attributeError

/-- `_shutdown_transport` -/
def shutdownTransport (cfg : SocketConfig) : Effect (Sockets α) PyError Unit :=
  match cfg.kind with
  | .tcp => pure ()
  | .ssl => unwrap cfg

/-- The first statement of `close`. -/
def closeSocket (cfg : SocketConfig) : Effect (Sockets α) PyError Unit := do
  let s ← Effect.get
  if s.sock.isSome then do
    ignoring (shutdownTransport cfg)
    ignoring (onSock cfg id)
    ignoring (closeSock cfg)
    Effect.modify fun s => { s with sock := none }
  else pure ()

/-- `close` -/
def close (cfg : SocketConfig) : Effect (Sockets α) PyError Unit := do
  closeSocket cfg
  Effect.modify fun s => { s with connected := false }

/-! Runs -/

/-- A read or a write that fails may leave the transport disconnected, with its socket. -/
inductive Op (α : Type) where
  | connect (addresses : Except PyError (List α)) (sends : List Send)
  | lose
  | close

def step (cfg : SocketConfig) (s : Sockets α) : Op α → Sockets α
  | .connect addresses sends => (connect cfg addresses sends s).2
  | .lose => { s with connected := false }
  | .close => (close cfg s).2

def AllClosed (socks : List (Sock α)) : Prop := ∀ sock ∈ socks, sock.closed = true

/-- Only the socket that is held may be open. -/
structure Tidy (s : Sockets α) : Prop where
  held : ∀ i, s.sock = some i → i < s.made.length
  opened : ∀ i sock, s.made[i]? = some sock → sock.closed = false → s.sock = some i

end Sockets

end PyAmqp
