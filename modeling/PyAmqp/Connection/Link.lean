import PyAmqp.Transport.ReadFrame

/-!
The transports a connection has had, the one in place, and the one its frame writer
writes to. A transport keeps what was received and sent on it: whether the server's
`Connection.OpenOk` was, and a `Connection.Close` of the client.
-/

namespace PyAmqp

namespace Connection

/-- `connected`, whether the socket is held, and what passed over the transport. -/
structure Wire where
  connected : Bool := false
  sock : Bool := false
  openOk : Bool := false
  closeSent : Bool := false
  deriving DecidableEq

/-- What setting up a transport does: `Transport()` raises, `transport.connect()` raises
and keeps its socket or not, or the transport is up. -/
inductive Setup where
  | refused (e : PyError)
  | failed (e : PyError) (sock : Bool)
  | up

structure Link where
  wires : Nat → Wire := fun _ => {}
  made : Nat := 0
  transport : Option Nat := none
  frameWriter : Option Nat := none
  handshakeComplete : Bool := false

namespace Link

/-- `self._transport and self._transport.connected` -/
def connected (l : Link) : Bool := l.transport.any fun t => (l.wires t).connected

/-- The transport in place. -/
def place (l : Link) : Option Wire := l.transport.map l.wires

def onWire (t : Option Nat) (f : Wire → Wire) (l : Link) : Link :=
  match t with
  | some t => { l with wires := Function.update l.wires t (f (l.wires t)) }
  | none => l

/-- The transport in place has a socket. -/
def holdsSocket (l : Link) : Bool := l.place.any Wire.sock

/-- A new transport in place. -/
def setTransport (wire : Wire) (l : Link) : Link :=
  { l with
    wires := Function.update l.wires l.made wire
    made := l.made + 1
    transport := some l.made }

/-- `self.transport = self.Transport(...)` and its `connect`; `frame_writer` is set when
they have returned. An `OSError` closes the socket. -/
def setup : Setup → Link → Except PyError Unit × Link
  | .refused e, l => (.error e, l)
  | .failed e sock, l => (.error e, l.setTransport { sock := sock && !e.isOSError })
  | .up, l =>
      (.ok (), { l.setTransport { connected := true, sock := true } with frameWriter := l.made })

@[simp] theorem setTransport_holdsSocket (wire : Wire) (l : Link) :
    (l.setTransport wire).holdsSocket = wire.sock := by
  simp [holdsSocket, place, setTransport]

/-- What `Connection.collect` does to the transport. -/
def collect (l : Link) : Link :=
  { l.onWire l.transport fun wire => { wire with connected := false, sock := false } with
    transport := none }

end Link

/-- The errors after which a transport is no longer `connected`. -/
def drops (platform : Platform) (e : PyError) : Prop :=
  e.isOSError = true ∧ e ≠ .socketTimeout ∧ ∀ errno ∈ platform.unavail, e.errno? ≠ some errno

instance (platform : Platform) (e : PyError) : Decidable (drops platform e) :=
  inferInstanceAs (Decidable (_ ∧ _ ∧ _))

end Connection

end PyAmqp
