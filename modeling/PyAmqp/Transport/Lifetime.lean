import PyAmqp.Transport.Interrupted
import PyAmqp.Base.Run

/-!
A transport object over its connections: `connect`, `close` and `read_frame` of
`amqp/transport.py`. What the network does to them is part of their arguments. The octets
that `read_frame` takes belong to the connection it reads from, unless a `SSLTransport` was
connected again with octets left in its read buffer.
-/

namespace PyAmqp

namespace Transport

/-! What a call takes -/

/-- The octets that are not used up. -/
def left (t : Transport) : Octets := t.readBuffer ++ t.unread

/-- `content` is left, `buffered` is put aside, and the transport is `up` or not. -/
structure Held (content buffered : Octets) (up : Bool) (t : Transport) : Prop where
  left : t.left = content
  buffered : t.readFrameBuffer = buffered
  connected : t.connected = up

section Takes

variable {cfg : TransportConfig} {content buffered : Octets} {up : Bool}

/-- A call of `recv` moves octets into the read buffer, at most. -/
theorem RecvKeeps.of_left {I : Transport → Prop} (n : Nat) (initial : Bool)
    (h : ∀ t readBuffer unread schedule, I t → readBuffer ++ unread = t.left →
      t.readBuffer.length ≤ readBuffer.length → I { t with readBuffer, unread, schedule }) :
    RecvKeeps cfg n initial I (fun _ => I) := by
  rintro t ht -
  have hrecv := recv_takes (n - t.readBuffer.length) t
  rcases hrun : recv (n - t.readBuffer.length) t with ⟨e | s, t'⟩
  · rw [hrun] at hrecv
    obtain ⟨schedule, rfl⟩ := hrecv
    have hkept : I { t with schedule } := h t _ _ schedule ht rfl (Nat.le_refl _)
    dsimp only
    split
    · split
      · exact hkept
      · exact hkept
    · exact hkept
  · rw [hrun] at hrecv
    obtain ⟨unread, schedule, rfl, hunread⟩ := hrecv
    have htaken : (t.readBuffer ++ s) ++ unread = t.left := by
      rw [List.append_assoc, hunread, left]
    dsimp only
    split
    next hend =>
      rw [hend, List.append_nil] at htaken
      exact h t t.readBuffer unread schedule ht htaken (Nat.le_refl _)
    next => exact h t _ unread schedule ht htaken (by simp)

theorem recv_held (n : Nat) (initial : Bool) :
    RecvKeeps cfg n initial (Held content buffered up) (fun _ => Held content buffered up) :=
  .of_left n initial fun _ _ _ _ ht hleft _ => ⟨hleft.trans ht.left, ht.buffered, ht.connected⟩

/-- A read takes the next `n` octets, or leaves them all. -/
theorem read_takes (n : Nat) (initial : Bool) :
    Effect.Triple (Held content buffered up) (read cfg n initial)
      (fun octets t => octets.length = n ∧
        ∃ rest, octets ++ rest = content ∧ Held rest buffered up t)
      (fun _ => Held content buffered up) := by
  refine (read_keeps (recv_held n initial)).weaken (fun _ ht => ht) ?_ (fun _ _ h => h)
  rintro octets t ⟨hlength, hcontent, hbuffered, hconnected⟩
  refine ⟨hlength, t.left, ?_, rfl, hbuffered, hconnected⟩
  rw [← hcontent]
  simp only [left, List.append_assoc]

theorem buffer_takes (octets : Octets) {E : PyError → Transport → Prop} :
    Effect.Triple (Held content buffered up) (buffer octets)
      (fun _ => Held content (buffered ++ octets) up) E :=
  fun _ ht => ⟨ht.left, congrArg (· ++ octets) ht.buffered, ht.connected⟩

/-- The reading of a frame has ended in an exception: what it took is buffered, where the
exception is an `OSError`, or lost. -/
structure Broken (content : Octets) (up : Bool) (e : PyError) (t : Transport) : Prop where
  buffered : e.isOSError = true → t.readFrameBuffer ++ t.left = content
  lost : ∃ lost, lost ++ t.left = content
  connected : t.connected = up

theorem Held.broken {e : PyError} {t : Transport} (h : Held content buffered up t) :
    Broken (buffered ++ content) up e t :=
  ⟨fun _ => by rw [h.left, h.buffered], ⟨buffered, by rw [h.left]⟩, h.connected⟩

/-- A second part that fails leaves the first one put aside, if by an `OSError`. -/
theorem readInParts_takes (n m : Nat) :
    Effect.Triple (Held content buffered up) (readInParts cfg n m)
      (fun payload t => payload.length = n + m ∧
        ∃ rest, payload ++ rest = content ∧ Held rest buffered up t)
      (Broken (buffered ++ content) up) := by
  refine .bind ((read_takes n false).weaken_error fun _ _ h => h.broken) fun part1 => ?_
  rintro t ⟨rfl, rest, rfl, hheld⟩
  have hread := @read_takes cfg rest buffered up m false
  refine Effect.Triple.bind (.tryCatch hread fun e => ?_) (fun part2 => ?_) t hheld
  · rintro t' hheld'
    by_cases hos : e.isOSError = true
    · simp only [hos, if_true, buffer, Effect.bind_run, Effect.modify_run, Effect.raise_run]
      rw [← List.append_assoc]
      have hbuffered : Held rest (buffered ++ part1) up
          { t' with readFrameBuffer := t'.readFrameBuffer ++ part1 } :=
        ⟨hheld'.left, congrArg (· ++ part1) hheld'.buffered, hheld'.connected⟩
      exact hbuffered.broken
    · simp only [hos]
      exact ⟨fun h => absurd h hos, ⟨buffered ++ part1, by rw [hheld'.left, List.append_assoc]⟩,
        hheld'.connected⟩
  · rintro t' ⟨rfl, rest', rfl, hheld'⟩
    exact ⟨by simp, rest', by rw [List.append_assoc], hheld'⟩

theorem readPayload_takes (size : Nat) :
    Effect.Triple (Held content buffered up) (readPayload cfg size)
      (fun payload t => payload.length = size ∧
        ∃ rest, payload ++ rest = content ∧ Held rest buffered up t)
      (Broken (buffered ++ content) up) := by
  unfold readPayload
  split
  next hhuge =>
    refine (readInParts_takes _ _).weaken (fun _ h => h) ?_ fun _ _ h => h
    rintro payload t ⟨hlength, hpayload⟩
    exact ⟨by omega, hpayload⟩
  next => exact (read_takes size false).weaken_error fun _ _ h => h.broken

/-- The `try` block takes the octets of a frame, up to the value of the last. -/
theorem readFrameParts_takes :
    Effect.Triple (Held content [] up) (readFrameParts cfg)
      (fun parts t => t.connected = up ∧ ∃ frameEnd : UInt8, frameEnd.toNat = parts.2 ∧
        parts.1.header ++ parts.1.payload ++ [frameEnd] ++ t.left = content)
      (Broken content up) := by
  refine .bind ((read_takes 7 true).weaken_error fun _ _ h => h.broken) fun header => ?_
  rintro t ⟨hlength, rest, rfl, hheld⟩
  obtain ⟨frameType, channel, hheader, hencode⟩ := unpackFrameHeader_size hlength
  refine Effect.Triple.bind (buffer_takes header) (fun _ => ?_) t hheld
  rw [hheader]
  simp only [Effect.liftExcept_ok, pure_bind, List.nil_append]
  refine .bind (readPayload_takes _) fun payload => ?_
  rintro t' ⟨hpayload, rest', rfl, hheld'⟩
  refine Effect.Triple.bind (buffer_takes payload) (fun _ => ?_) t' hheld'
  refine .bind ((read_takes 1 false).weaken_error fun e t'' h => ?_) fun octets => ?_
  · rw [← List.append_assoc]
    exact h.broken
  rintro t'' ⟨hone, rest'', rfl, hheld''⟩
  obtain ⟨frameEnd, rfl⟩ := List.length_eq_one_iff.mp hone
  refine ⟨hheld''.connected, frameEnd, rfl, ?_⟩
  simp only [Frame.header, hpayload, hencode, List.append_assoc, hheld''.left]

/-- A call that returns a frame takes its octets, and one that times out takes none. No call
connects the transport. -/
theorem readFrame_takes :
    Effect.Triple (fun t => t.left = content ∧ t.connected = up) (readFrame cfg)
      (fun frame t => frame.octets ++ t.left = content ∧ t.connected = up)
      (fun e t => (∃ lost, lost ++ t.left = content) ∧ (e = .socketTimeout → t.left = content) ∧
        (t.connected = true → up = true)) := by
  refine .bind (.modify (Q := fun _ => Held content [] up) fun t ht => ⟨ht.1, rfl, ht.2⟩) fun _ => ?_
  refine .bind (.tryCatch readFrameParts_takes fun e => ?_) ?_
  · rintro t ⟨hbuffered, hlost, hconnected⟩
    by_cases htimeout : TimesOut cfg e
    · rw [onReadError_timesOut htimeout]
      have hleft := hbuffered htimeout.isOSError
      rw [left, ← List.append_assoc] at hleft
      exact ⟨⟨[], hleft⟩, fun _ => hleft, fun hup => hconnected.symm.trans hup⟩
    have hsocket : e ≠ .socketTimeout := fun h => htimeout (.inl h)
    by_cases hos : e.isOSError = true
    · rw [onReadError_osError htimeout hos]
      by_cases hdrops : Drops cfg e
      · rw [if_pos hdrops]
        exact ⟨hlost, fun h => absurd h hsocket, fun hup => hconnected.symm.trans hup⟩
      · rw [if_neg hdrops]
        exact ⟨hlost, fun h => absurd h hsocket, fun hup => by simp at hup⟩
    · rw [onReadError_other (by simpa using hos)]
      exact ⟨hlost, fun h => absurd h hsocket, fun hup => hconnected.symm.trans hup⟩
  · rintro ⟨frame, frameEnd⟩ t ⟨hconnected, octet, hoctet, htakes⟩
    dsimp only at hoctet htakes ⊢
    by_cases hend : frameEnd = 206
    · rw [if_pos hend]
      obtain rfl : octet = 0xce := UInt8.toNat_inj.mp (hoctet.trans hend)
      exact ⟨htakes, hconnected⟩
    · rw [if_neg hend]
      exact ⟨⟨_, htakes⟩, fun h => (by cases h), fun hup => hconnected.symm.trans hup⟩

end Takes

end Transport

/-- `sock` is no socket, a plain one, or one wrapped for SSL. `receiving` says that
`_quick_recv` is that of `sock`; then `stream` is all that the peer sends on it, and `taken`
what `read_frame` has used up of it. -/
structure Endpoint extends Transport where
  sock : Option TransportKind := none
  receiving : Bool := false
  stream : Octets := []
  taken : Octets := []

/-- What becomes of an address: `socket.socket` or what follows it raises, and `closing` is what
`self.sock.close()` does then, or the socket is connected. -/
inductive Address where
  | refused (made : Bool) (e : PyError) (closing : Except PyError Unit)
  | connected

/-- What the steps of a `connect` do, and what the peer will send. -/
structure Attempt where
  addresses : Except PyError (List Address) := .ok [.connected]
  options : Except PyError Unit := .ok ()
  wrap : Except PyError Unit := .ok ()
  handshake : Except PyError Unit := .ok ()
  banner : Except PyError Unit := .ok ()
  abandon : Except PyError Unit := .ok ()
  stream : Octets

namespace Attempt

/-- How the addresses are dialled, with a socket `held` before or not. -/
def dialed (held : Bool) : List Address → Except PyError Unit
  | [] | .connected :: _ => .ok ()
  | .refused made e closing :: rest =>
      if e.isOSError then do
        if made || held then closing
        if rest = [] then .error e else dialed false rest
      else .error e

/-- A socket is connected, and wrapped for SSL, with one `held` before or not. -/
def Wraps (attempt : Attempt) (held : Bool) : Prop :=
  (∃ addresses, attempt.addresses = .ok addresses ∧ dialed held addresses = .ok ()) ∧
    attempt.options = .ok () ∧ attempt.wrap = .ok () ∧ attempt.handshake = .ok ()

end Attempt

/-- What the steps of a `close` do. -/
structure CloseCalls where
  unwrap : Except PyError Unit := .ok ()
  shutdown : Except PyError Unit := .ok ()
  close : Except PyError Unit := .ok ()

/-- No step raises anything but an `OSError`. -/
structure CloseCalls.OSErrorsOnly (closing : CloseCalls) : Prop where
  unwrap : ∀ e, closing.unwrap = .error e → e.isOSError = true
  shutdown : ∀ e, closing.shutdown = .error e → e.isOSError = true
  close : ∀ e, closing.close = .error e → e.isOSError = true

namespace Endpoint

/-- `__init__` -/
def init : Endpoint := { connected := false, unread := [], schedule := [] }

/-! Closing a socket -/

/-- `self.sock = None`, with the socket closed. -/
def release (t : Endpoint) : Endpoint :=
  { t with
    sock := none
    receiving := false
    unread := if t.receiving then [] else t.unread }

/-- `try: step` with `except OSError: pass` -/
def ignoring (step : Effect Endpoint PyError Unit) : Effect Endpoint PyError Unit :=
  Effect.tryCatch step fun e => if e.isOSError then pure () else Effect.raise e

/-- `self.sock.unwrap()`; a plain socket has no such method. -/
def unwrap (closing : CloseCalls) (t : Endpoint) : Except PyError Unit :=
  if t.sock = some .ssl then closing.unwrap else .error .attributeError

/-- `_shutdown_transport` -/
def shutdownTransport (cfg : TransportConfig) (closing : CloseCalls) :
    Effect Endpoint PyError Unit :=
  match cfg.kind with
  | .tcp => pure ()
  | .ssl => do
      let t ← Effect.get
      if t.sock.isSome then do
        Effect.liftExcept (unwrap closing t)
        Effect.modify fun t => { t with sock := some .tcp }
      else pure ()

/-- The first statement of `close`. -/
def closeSocket (cfg : TransportConfig) (closing : CloseCalls) : Effect Endpoint PyError Unit := do
  let t ← Effect.get
  if t.sock.isSome then do
    ignoring (shutdownTransport cfg closing)
    ignoring (Effect.liftExcept closing.shutdown)
    ignoring (Effect.liftExcept closing.close)
    Effect.modify release
  else pure ()

/-- `close` -/
def close (cfg : TransportConfig) (closing : CloseCalls) : Effect Endpoint PyError Unit := do
  closeSocket cfg closing
  Effect.modify fun t => { t with connected := false }

/-! Connecting -/

/-- `self.sock = socket.socket(af, socktype, proto)` -/
def makeSocket (t : Endpoint) : Endpoint := { t with sock := some .tcp, receiving := false }

/-- The `except` clause of `_connect`, up to its `raise`. -/
def drop (closing : Except PyError Unit) : Effect Endpoint PyError Unit := do
  let t ← Effect.get
  if t.sock.isSome then Effect.liftExcept closing
  Effect.modify release

/-- The loop of `_connect`. -/
def dial : List Address → Effect Endpoint PyError Unit
  | [] => pure ()
  | .connected :: _ => Effect.modify makeSocket
  | .refused made e closing :: rest => do
      Effect.modify (if made then makeSocket else id)
      if e.isOSError then do
        drop closing
        if rest = [] then Effect.raise e else dial rest
      else Effect.raise e

/-- `self._quick_recv = self.sock.recv`, or `self.sock.read` -/
def receive (stream : Octets) (t : Endpoint) : Endpoint :=
  { t with receiving := true, unread := stream, stream, taken := [] }

/-- `_setup_transport`: only that of `TCPTransport` sets `_read_buffer`. -/
def setupTransport (cfg : TransportConfig) (attempt : Attempt) :
    Effect Endpoint PyError Unit :=
  match cfg.kind with
  | .tcp => Effect.modify fun t => { receive attempt.stream t with readBuffer := [] }
  | .ssl => do
      Effect.liftExcept attempt.wrap
      Effect.modify fun t => { t with sock := some .ssl }
      Effect.liftExcept attempt.handshake
      Effect.modify (receive attempt.stream)

/-- `_init_socket`, which ends by sending the protocol header. -/
def initSocket (cfg : TransportConfig) (attempt : Attempt) : Effect Endpoint PyError Unit := do
  let t ← Effect.get
  if t.sock.isNone then Effect.raise .attributeError
  else do
    Effect.liftExcept attempt.options
    setupTransport cfg attempt
    Effect.liftExcept attempt.banner

/-- `self.sock.close(); self.sock = None` where the transport is not connected. -/
def abandon (attempt : Attempt) : Effect Endpoint PyError Unit := do
  let t ← Effect.get
  if t.sock.isSome ∧ ¬ t.connected then do
    Effect.liftExcept attempt.abandon
    Effect.modify release
  else pure ()

/-- The `except` clause of `connect`. -/
def onConnectError (attempt : Attempt) (e : PyError) : Effect Endpoint PyError Unit :=
  if e.isOSError then do
    abandon attempt
    Effect.raise e
  else Effect.raise e

/-- The `try` block of `connect`. -/
def tryConnect (cfg : TransportConfig) (attempt : Attempt) : Effect Endpoint PyError Unit := do
  let t ← Effect.get
  if t.connected then pure ()
  else do
    dial (← Effect.liftExcept attempt.addresses)
    initSocket cfg attempt
    Effect.modify fun t => { t with connected := true }

/-- `connect` -/
def connect (cfg : TransportConfig) (attempt : Attempt) : Effect Endpoint PyError Unit :=
  Effect.tryCatch (tryConnect cfg attempt) (onConnectError attempt)

/-! Runs -/

/-- What a call that left `t'` has used up. -/
def usedUp (t t' : Transport) : Octets :=
  (t.readBuffer ++ t.unread).take
    ((t.readBuffer ++ t.unread).length - (t'.readBuffer ++ t'.unread).length)

/-- `read_frame`, while which `recv` does what is scheduled. -/
def readFrame (cfg : TransportConfig) (schedule : List Recv) : Effect Endpoint PyError Frame :=
  fun s =>
    let t := { s.toTransport with schedule }
    let (result, t') := Transport.readFrame cfg t
    (result, { s with toTransport := t', taken := s.taken ++ usedUp t t' })

inductive Op where
  | connect (attempt : Attempt)
  | readFrame (schedule : List Recv)
  | close (closing : CloseCalls)

def step (cfg : TransportConfig) (s : Endpoint) : Op → Endpoint
  | .connect attempt => (connect cfg attempt s).2
  | .readFrame schedule => (readFrame cfg schedule s).2
  | .close closing => (close cfg closing s).2

def run (cfg : TransportConfig) (ops : List Op) : Endpoint := ops.foldl (step cfg) init

/-! Octets of its own -/

/-- What was used up and what is left make up the stream of the connection. -/
def Owns (s : Endpoint) : Prop := s.receiving = true → s.taken ++ s.left = s.stream

/-- A `SSLTransport` that connects has nothing in its read buffer. -/
def ConnectsEmpty (cfg : TransportConfig) (s : Endpoint) : Op → Prop
  | .connect attempt =>
      cfg.kind = .ssl → s.connected = false → attempt.Wraps s.sock.isSome → s.readBuffer = []
  | _ => True

/-- A `connect` that returns has left the transport reading from a connection, and one that
set it up has left nothing to read but its stream. A call of `read_frame` uses up the next
octets of the stream: those of the frame, if it returns one, and none, if it times out. -/
def ReadsOwn (cfg : TransportConfig) (s : Endpoint) : Op → Prop
  | .connect attempt =>
      (connect cfg attempt s).1 = .ok () →
        let s' := step cfg s (.connect attempt)
        s'.receiving = true ∧ (s.connected = false →
          s'.stream = attempt.stream ∧ s'.taken = [] ∧ s'.left = attempt.stream)
  | .readFrame schedule =>
      s.receiving = true →
        let (result, s') := readFrame cfg schedule s
        ∃ octets, s'.stream = s.stream ∧ s'.taken = s.taken ++ octets ∧
          s'.taken ++ s'.left = s.stream ∧ (∀ frame, result = .ok frame → octets = frame.octets) ∧
          (result = .error .socketTimeout → octets = [])
  | .close _ => True

section Steps

variable {cfg : TransportConfig} {attempt : Attempt} {s : Endpoint} {held : Bool}

theorem Owns.of_not_receiving (h : s.receiving = false) : s.Owns := fun hreceiving => by
  simp [h] at hreceiving

/-! Connecting -/

/-- A `connect` is under way, and there is nothing to read but what a connection sends; `held`
is whether there was a socket when it began. -/
structure Dialling (cfg : TransportConfig) (attempt : Attempt) (held : Bool) (s : Endpoint) :
    Prop where
  owns : s.Owns
  connected : s.connected = false
  empty : cfg.kind = .ssl → attempt.Wraps held → s.readBuffer = []

/-- The connection is up, and nothing of it has been read. -/
structure Fresh (attempt : Attempt) (s : Endpoint) : Prop where
  receiving : s.receiving = true
  stream : s.stream = attempt.stream
  taken : s.taken = []
  left : s.left = attempt.stream

theorem Fresh.owns (h : s.Fresh attempt) : s.Owns := fun _ => by
  rw [h.stream, h.taken, h.left, List.nil_append]

/-- A `connect` that fails leaves the transport unconnected. -/
def Failed (s : Endpoint) : Prop := s.Owns ∧ s.connected = false

theorem Dialling.failed (h : s.Dialling cfg attempt held) : s.Failed :=
  ⟨h.owns, h.connected⟩

theorem Dialling.makeSocket (h : s.Dialling cfg attempt held) :
    s.makeSocket.Dialling cfg attempt held :=
  ⟨.of_not_receiving rfl, h.connected, h.empty⟩

theorem Dialling.release (h : s.Dialling cfg attempt held) : s.release.Dialling cfg attempt held :=
  ⟨.of_not_receiving rfl, h.connected, h.empty⟩

/-- A socket that was not connected is given up, unless closing it raises. -/
theorem drop_dialling (closing : Except PyError Unit) (has : Bool) :
    Effect.Triple (fun s => s.Dialling cfg attempt held ∧ s.sock.isSome = has) (drop closing)
      (fun _ s => (s.Dialling cfg attempt held ∧ s.sock.isSome = false) ∧
        (has = true → closing = .ok ())) (fun _ => Failed) := by
  refine .bind (.get (Q := fun t s => t.sock.isSome = has ∧ s.Dialling cfg attempt held)
    fun s h => ⟨h.2, h.1⟩) fun t => ?_
  rintro s ⟨hhas, h⟩
  rw [hhas]
  cases has with
  | false => exact ⟨⟨h.release, rfl⟩, fun h => by cases h⟩
  | true =>
      cases closing with
      | ok => exact ⟨⟨h.release, rfl⟩, fun _ => rfl⟩
      | error e => exact h.failed

theorem dial_dialling (addresses : List Address) (has : Bool) :
    Effect.Triple (fun s => s.Dialling cfg attempt held ∧ s.sock.isSome = has) (dial addresses)
      (fun _ s => s.Dialling cfg attempt held ∧ Attempt.dialed has addresses = .ok ())
      (fun _ => Failed) := by
  induction addresses generalizing has with
  | nil => exact .pure () fun s h => ⟨h.1, rfl⟩
  | cons address rest ih =>
      cases address with
      | connected => exact .modify fun s h => ⟨h.1.makeSocket, rfl⟩
      | refused made e closing =>
          refine .bind (.modify (Q := fun _ s => s.Dialling cfg attempt held ∧
            s.sock.isSome = (made || has)) fun s h => ?_) fun _ => ?_
          · cases made with
            | true => exact ⟨h.1.makeSocket, rfl⟩
            | false => exact h
          by_cases hos : e.isOSError = true
          · rw [if_pos hos]
            refine .bind (drop_dialling closing (made || has)) fun _ => ?_
            rintro s ⟨hdropped, hclosed⟩
            by_cases hlast : rest = []
            · rw [if_pos hlast]
              exact hdropped.1.failed
            · rw [if_neg hlast]
              refine (ih false).weaken (fun _ h => h) (fun _ s h => ⟨h.1, ?_⟩) (fun _ _ h => h) s
                hdropped
              rw [Attempt.dialed, if_pos hos, if_neg hlast, h.2]
              cases hsome : made || has with
              | true => rw [hclosed hsome]; rfl
              | false => rfl
          · rw [if_neg hos]
            exact .raise fun s h => h.1.failed

theorem setupTransport_fresh (addresses : List Address)
    (haddresses : attempt.addresses = .ok addresses)
    (hdialed : Attempt.dialed held addresses = .ok ()) (hoptions : attempt.options = .ok ()) :
    Effect.Triple (Dialling cfg attempt held) (setupTransport cfg attempt)
      (fun _ s => s.Fresh attempt ∧ s.connected = false) (fun _ => Failed) := by
  unfold setupTransport
  cases hkind : cfg.kind with
  | tcp => exact .modify fun s h => ⟨⟨rfl, rfl, rfl, rfl⟩, h.connected⟩
  | ssl =>
      refine .bind (.liftExcept (Q := fun _ s => s.Dialling cfg attempt held ∧
        attempt.wrap = .ok ()) (fun _ hwrap s h => ⟨h, hwrap⟩) fun _ _ s h => h.failed) fun _ => ?_
      refine .bind (.modify (Q := fun _ s => s.Dialling cfg attempt held ∧ attempt.wrap = .ok ())
        fun s h => ⟨⟨h.1.owns, h.1.connected, h.1.empty⟩, h.2⟩) fun _ => ?_
      refine .bind (.liftExcept (Q := fun _ s =>
          s.connected = false ∧ s.readBuffer = []) (fun _ hhandshake s h => ?_)
        fun _ _ s h => h.1.failed) fun _ => ?_
      · exact ⟨h.1.connected,
          h.1.empty hkind ⟨⟨addresses, haddresses, hdialed⟩, hoptions, h.2, hhandshake⟩⟩
      · refine .modify fun s h => ⟨⟨rfl, rfl, rfl, ?_⟩, h.1⟩
        exact congrArg (· ++ attempt.stream) h.2

theorem initSocket_fresh (addresses : List Address) (haddresses : attempt.addresses = .ok addresses)
    (hdialed : Attempt.dialed held addresses = .ok ()) :
    Effect.Triple (Dialling cfg attempt held) (initSocket cfg attempt)
      (fun _ => Fresh attempt) (fun _ => Failed) := by
  refine .get_bind fun t => ?_
  by_cases hsock : t.sock.isNone = true
  · rw [if_pos hsock]
    exact .raise fun s h => h.failed
  · rw [if_neg hsock]
    refine .bind (.liftExcept (Q := fun _ s => s.Dialling cfg attempt held ∧
      attempt.options = .ok ()) (fun _ hoptions s h => ⟨h, hoptions⟩) fun _ _ s h => h.failed)
      fun _ => ?_
    rintro s ⟨h, hoptions⟩
    refine Effect.Triple.bind (setupTransport_fresh addresses haddresses hdialed hoptions)
      (fun _ => .liftExcept (fun _ _ s h => h.1) fun _ _ s h => ⟨h.1.owns, h.2⟩) s h

theorem onConnectError_failed (e : PyError) {Q : Unit → Endpoint → Prop} :
    Effect.Triple Failed (onConnectError attempt e) Q (fun _ => Failed) := by
  have habandon : Effect.Triple Failed (abandon attempt) (fun _ => Failed) (fun _ => Failed) := by
    refine .get_bind fun t => ?_
    by_cases hsock : t.sock.isSome = true ∧ ¬ t.connected = true
    · rw [if_pos hsock]
      refine (Effect.Triple.liftExcept_keeps attempt.abandon).bind fun _ => ?_
      exact .modify fun s h => ⟨.of_not_receiving rfl, h.2⟩
    · rw [if_neg hsock]
      exact .pure () fun s h => h
  unfold onConnectError
  by_cases hos : e.isOSError = true
  · rw [if_pos hos]
    exact habandon.bind fun _ => .raise fun s h => h
  · rw [if_neg hos]
    exact .raise fun s h => h

/-- A transport that was not connected is connected anew, or it is not connected. -/
theorem connect_dialling :
    Effect.Triple (fun s => s.Dialling cfg attempt held ∧ s.sock.isSome = held)
      (connect cfg attempt) (fun _ => Fresh attempt) (fun _ => Failed) := by
  refine .tryCatch ?_ fun e => onConnectError_failed e
  intro s hs
  have hbody : Effect.Triple (fun s => s.Dialling cfg attempt held ∧ s.sock.isSome = held) (do
      dial (← Effect.liftExcept attempt.addresses)
      initSocket cfg attempt
      Effect.modify fun t => { t with connected := true })
      (fun _ => Fresh attempt) (fun _ => Failed) := by
    refine .bind (.liftExcept (Q := fun addresses s =>
      (s.Dialling cfg attempt held ∧ s.sock.isSome = held) ∧ attempt.addresses = .ok addresses)
      (fun addresses haddresses s h => ⟨h, haddresses⟩) fun _ _ s h => h.1.failed)
      fun addresses => ?_
    rintro s ⟨h, haddresses⟩
    refine Effect.Triple.bind (dial_dialling addresses held) (fun _ => ?_) s h
    rintro s ⟨h, hdialed⟩
    refine Effect.Triple.bind (initSocket_fresh addresses haddresses hdialed) (fun _ => ?_) s h
    exact .modify fun s h => ⟨h.receiving, h.stream, h.taken, h.left⟩
  have hrun := hbody s hs
  have hconnected := hs.1.connected
  simpa only [tryConnect, Effect.bind_run, Effect.get_run, hconnected, Bool.false_eq_true, if_false]
    using hrun

theorem connect_connected (h : s.connected = true) : connect cfg attempt s = (.ok (), s) := by
  simp [connect, Effect.tryCatch, tryConnect, h]

/-! Reading and closing -/

theorem usedUp_append {t t' : Transport} {octets : Octets} (h : octets ++ t'.left = t.left) :
    usedUp t t' = octets := by
  have hlength := congrArg List.length h
  simp only [Transport.left, List.length_append] at hlength
  rw [usedUp, ← Transport.left, ← Transport.left, ← h]
  simp

/-- The octets are those of the connection, and a connected transport receives. -/
structure Sound (s : Endpoint) : Prop where
  owns : s.Owns
  receives : s.connected = true → s.receiving = true

theorem readFrame_owns (schedule : List Recv) (h : s.Owns) (hreceiving : s.receiving = true) :
    let (result, s') := readFrame cfg schedule s
    ∃ octets, s'.stream = s.stream ∧ s'.taken = s.taken ++ octets ∧
      s'.taken ++ s'.left = s.stream ∧ (∀ frame, result = .ok frame → octets = frame.octets) ∧
      (result = .error .socketTimeout → octets = []) := by
  have htakes := @Transport.readFrame_takes cfg _ _ { s.toTransport with schedule } ⟨rfl, rfl⟩
  dsimp only [readFrame]
  cases hrun : Transport.readFrame cfg { s.toTransport with schedule } with
  | mk result t' =>
      have howned : ∀ octets, octets ++ t'.left = s.left →
          s.taken ++ octets ++ t'.left = s.stream := fun octets hoctets => by
        rw [List.append_assoc, hoctets, h hreceiving]
      rw [hrun] at htakes
      cases result with
      | ok frame =>
          have hused := usedUp_append htakes.1
          dsimp only
          rw [hused]
          refine ⟨frame.octets, rfl, rfl, howned _ htakes.1, fun frame' hframe => ?_,
            fun h => (by cases h)⟩
          rw [Except.ok.inj hframe]
      | error e =>
          obtain ⟨⟨lost, hlost⟩, htimeout, -⟩ := htakes
          have hused := usedUp_append hlost
          dsimp only
          rw [hused]
          refine ⟨lost, rfl, rfl, howned _ hlost, fun _ h => (by cases h), fun herror => ?_⟩
          have hleft := htimeout (Except.error.inj herror)
          exact List.append_left_eq_self.mp (hlost.trans hleft.symm)

theorem readFrame_sound (schedule : List Recv) (h : s.Sound) :
    (readFrame cfg schedule s).2.Sound := by
  have hreceiving : (readFrame cfg schedule s).2.receiving = s.receiving := rfl
  constructor
  · intro hup
    obtain ⟨octets, hstream, -, hleft, -⟩ :=
      @readFrame_owns cfg _ schedule h.owns (hreceiving.symm.trans hup)
    exact hleft.trans hstream.symm
  · intro hup
    have htakes := @Transport.readFrame_takes cfg _ _ { s.toTransport with schedule } ⟨rfl, rfl⟩
    apply h.receives
    dsimp only [readFrame] at hup
    cases hrun : Transport.readFrame cfg { s.toTransport with schedule } with
    | mk result t' =>
        rw [hrun] at htakes hup
        cases result with
        | ok frame => exact htakes.2.symm.trans hup
        | error e => exact htakes.2.2 hup

theorem ignoring_triple {I : Endpoint → Prop} {m : Effect Endpoint PyError Unit}
    (h : Effect.Triple I m (fun _ => I) (fun _ => I)) :
    Effect.Triple I (ignoring m) (fun _ => I) (fun _ => I) := by
  refine .tryCatch h fun e => ?_
  split
  · exact .pure () fun s h => h
  · exact .raise fun s h => h

theorem shutdownTransport_sound (closing : CloseCalls) :
    Effect.Triple Sound (shutdownTransport cfg closing) (fun _ => Sound) (fun _ => Sound) := by
  unfold shutdownTransport
  cases cfg.kind with
  | tcp => exact .pure () fun s h => h
  | ssl =>
      refine .get_bind fun t => ?_
      split
      · refine (Effect.Triple.liftExcept_keeps _).bind fun _ => ?_
        exact .modify fun s h => ⟨h.owns, h.receives⟩
      · exact .pure () fun s h => h

/-- A `close` that does not raise leaves the transport unconnected. -/
theorem close_sound (closing : CloseCalls) :
    Effect.Triple Sound (close cfg closing) (fun _ => Sound) (fun _ => Sound) := by
  have hstep : ∀ r : Except PyError Unit,
      Effect.Triple Sound (ignoring (Effect.liftExcept r)) (fun _ => Sound) (fun _ => Sound) :=
    fun r => ignoring_triple (.liftExcept_keeps r)
  have hclose : Effect.Triple Sound (closeSocket cfg closing) (fun _ => Owns) (fun _ => Sound) := by
    refine .get_bind fun t => ?_
    split
    · exact (ignoring_triple (shutdownTransport_sound closing)).bind fun _ =>
        (hstep closing.shutdown).bind fun _ => (hstep closing.close).bind fun _ =>
          .modify fun s _ => .of_not_receiving rfl
    · exact .pure () fun s h => h.owns
  exact hclose.bind fun _ => .modify fun s h => ⟨h, fun hconnected => by simp at hconnected⟩

/-- The socket that a `SSLTransport` has, if any, is one that was wrapped. -/
def Wrapped (cfg : TransportConfig) (s : Endpoint) : Prop :=
  cfg.kind = .ssl → s.sock ≠ some .tcp

/-- A plain socket cannot be unwrapped, and `close` ends there. -/
theorem close_unwrapped {closing : CloseCalls} (h : ¬ s.Wrapped cfg) :
    close cfg closing s = (.error .attributeError, s) := by
  obtain ⟨hkind, hsock⟩ : cfg.kind = .ssl ∧ s.sock = some .tcp := by
    simpa [Wrapped] using h
  have hos : PyError.attributeError.isOSError = false := rfl
  simp [close, closeSocket, ignoring, Effect.tryCatch, shutdownTransport, unwrap, hkind, hsock, hos]

/-- `close` gives the socket up, or raises and has one still. -/
theorem close_keeps (closing : CloseCalls) (s : Endpoint) :
    Effect.Triple (fun s' => s' = s) (close cfg closing)
      (fun _ s' => s'.sock = none ∧ s'.connected = false)
      (fun _ s' => s.sock.isSome = true ∧ s'.sock.isSome = true ∧ s'.connected = s.connected) := by
  have hstep : ∀ (I : Endpoint → Prop) (r : Except PyError Unit),
      Effect.Triple I (ignoring (Effect.liftExcept r)) (fun _ => I) (fun _ => I) :=
    fun I r => ignoring_triple (.liftExcept_keeps r)
  refine .bind (Q := fun _ s' => s'.sock = none) ?_ fun _ => .modify fun s' hnone => ⟨hnone, rfl⟩
  refine .bind (.get (Q := fun t s' => t = s ∧ s' = s) fun s' h => ⟨h, h⟩) fun t => ?_
  by_cases hsock : t.sock.isSome = true
  · rw [if_pos hsock]
    rintro s ⟨rfl, rfl⟩
    have hunwrap : Effect.Triple
        (fun s' => s'.sock.isSome = true ∧ s'.connected = s.connected)
        (shutdownTransport cfg closing)
        (fun _ s' => s'.sock.isSome = true ∧ s'.connected = s.connected)
        (fun _ s' => s'.sock.isSome = true ∧ s'.connected = s.connected) := by
      unfold shutdownTransport
      cases cfg.kind with
      | tcp => exact .pure () fun s h => h
      | ssl =>
          refine .get_bind fun t => ?_
          split
          · exact (Effect.Triple.liftExcept_keeps _).bind fun _ => .modify fun s h => ⟨rfl, h.2⟩
          · exact .pure () fun s h => h
    have hcloses := (ignoring_triple hunwrap).bind fun _ => (hstep _ closing.shutdown).bind fun _ =>
      (hstep _ closing.close).bind fun _ =>
        Effect.Triple.modify (f := release) (Q := fun _ s' => s'.sock = none) fun s' _ => rfl
    exact (hcloses.weaken_error fun e s' h => ⟨hsock, h⟩) s ⟨hsock, rfl⟩
  · rw [if_neg hsock]
    refine .pure () ?_
    rintro s' ⟨rfl, rfl⟩
    simpa using hsock

theorem ignoring_quiet {I : Endpoint → Prop} {m : Effect Endpoint PyError Unit}
    (h : Effect.Triple I m (fun _ _ => True) (fun e _ => e.isOSError = true)) :
    Effect.Triple I (ignoring m) (fun _ _ => True) (fun _ _ => False) := by
  refine .tryCatch h fun e => ?_
  split
  · exact .pure () fun s _ => trivial
  next hos => exact .raise fun s h => hos h

/-- A `close` whose steps raise nothing but `OSError`s returns with no socket left. -/
theorem close_ends {closing : CloseCalls} (h : closing.OSErrorsOnly) (hwrapped : s.Wrapped cfg) :
    ∃ s', close cfg closing s = (.ok (), s') ∧ s'.sock = none ∧ s'.connected = false := by
  have hstep : ∀ r : Except PyError Unit, (∀ e, r = .error e → e.isOSError = true) →
      Effect.Triple (fun _ : Endpoint => True) (ignoring (Effect.liftExcept r)) (fun _ _ => True)
        (fun _ _ => False) := fun r hr =>
    ignoring_quiet (.liftExcept (fun _ _ _ _ => trivial) fun e he _ _ => hr e he)
  have hunwrap : Effect.Triple (fun s' => s' = s ∧ s'.sock.isSome = true)
      (ignoring (shutdownTransport cfg closing)) (fun _ _ => True) (fun _ _ => False) := by
    apply ignoring_quiet
    unfold shutdownTransport
    cases hkind : cfg.kind with
    | tcp => exact .pure () fun _ _ => trivial
    | ssl =>
        rintro s' ⟨rfl, hsock⟩
        have hunwraps : s'.unwrap closing = closing.unwrap := by
          have hplain := hwrapped hkind
          unfold unwrap
          cases hheld : s'.sock with
          | none => simp [hheld] at hsock
          | some kind =>
              cases kind with
              | tcp => exact absurd hheld hplain
              | ssl => rfl
        simp only [Effect.bind_run, Effect.get_run, hsock, if_true, Effect.liftExcept_run, hunwraps]
        cases hrun : closing.unwrap with
        | ok _ => trivial
        | error e => exact h.unwrap e hrun
  have hclose : Effect.Triple (fun s' => s' = s) (close cfg closing)
      (fun _ s' => s'.sock = none ∧ s'.connected = false) (fun _ _ => False) := by
    refine .bind (Q := fun _ s' => s'.sock = none) ?_ fun _ => .modify fun s' hnone => ⟨hnone, rfl⟩
    refine .bind (.get (Q := fun t s' => t = s ∧ s' = s) fun s' h => ⟨h, h⟩) fun t => ?_
    by_cases hsock : t.sock.isSome = true
    · rw [if_pos hsock]
      refine .bind (hunwrap.weaken ?_ (fun _ _ h => h) fun _ _ h => h) fun _ => ?_
      · rintro s' ⟨rfl, rfl⟩
        exact ⟨rfl, hsock⟩
      · exact (hstep _ h.shutdown).bind fun _ => (hstep _ h.close).bind fun _ =>
          .modify fun s' _ => rfl
    · rw [if_neg hsock]
      refine .pure () ?_
      rintro s' ⟨rfl, rfl⟩
      simpa using hsock
  have hends := hclose s rfl
  cases hrun : close cfg closing s with
  | mk result s' =>
      rw [hrun] at hends
      cases result with
      | ok _ => exact ⟨s', rfl, hends⟩
      | error e => exact hends.elim

theorem ConnectsEmpty.dialling (h : s.Sound) (hempty : ConnectsEmpty cfg s (.connect attempt))
    (hconnected : s.connected = false) : s.Dialling cfg attempt s.sock.isSome :=
  ⟨h.owns, hconnected, fun hkind hwraps => hempty hkind hconnected hwraps⟩

theorem step_sound (op : Op) (h : s.Sound) (hempty : ConnectsEmpty cfg s op) :
    (step cfg s op).Sound := by
  cases op with
  | connect attempt =>
      cases hconnected : s.connected with
      | true => rwa [step, connect_connected hconnected]
      | false =>
          have hconnect := @connect_dialling cfg _ _ s ⟨hempty.dialling h hconnected, rfl⟩
          rw [step]
          cases hrun : connect cfg attempt s with
          | mk result s' =>
              rw [hrun] at hconnect
              cases result with
              | ok _ => exact ⟨hconnect.owns, fun _ => hconnect.receiving⟩
              | error e => exact ⟨hconnect.1, fun hup => by simp [hconnect.2] at hup⟩
  | readFrame schedule => exact readFrame_sound schedule h
  | close closing =>
      have hclose := @close_sound cfg closing s h
      rw [step]
      cases hrun : close cfg closing s with
      | mk result s' =>
          rw [hrun] at hclose
          cases result with
          | ok _ => exact hclose
          | error e => exact hclose

theorem Sound.readsOwn (op : Op) (h : s.Sound) (hempty : ConnectsEmpty cfg s op) :
    ReadsOwn cfg s op := by
  cases op with
  | connect attempt =>
      intro hok
      dsimp only [step]
      cases hconnected : s.connected with
      | true =>
          rw [connect_connected hconnected]
          exact ⟨h.receives hconnected, fun hdown => nomatch hdown⟩
      | false =>
          have hconnect := @connect_dialling cfg _ _ s ⟨hempty.dialling h hconnected, rfl⟩
          cases hrun : connect cfg attempt s with
          | mk result s' =>
              rw [hrun] at hconnect hok
              obtain rfl : result = .ok () := hok
              exact ⟨hconnect.receiving, fun _ => ⟨hconnect.stream, hconnect.taken, hconnect.left⟩⟩
  | readFrame schedule => exact fun hreceiving => readFrame_owns schedule h.owns hreceiving
  | close closing => trivial

end Steps

/-- In every run of a `TCPTransport`, and in every run of a `SSLTransport` that is connected
with an empty read buffer, the octets that `read_frame` takes are those of the connection. -/
theorem run_readsOwn (cfg : TransportConfig) (ops : List Op)
    (h : Run.Along (step cfg) (ConnectsEmpty cfg) init ops) :
    Run.Along (step cfg) (ReadsOwn cfg) init ops :=
  Run.Along.of_invariant (I := Sound) (fun _ op hsound hempty => step_sound op hsound hempty)
    (fun _ op hsound hempty => hsound.readsOwn op hempty) ⟨.of_not_receiving rfl, fun h => by cases h⟩ h

def sslConfig : TransportConfig where
  platform := { eagain := 11, eintr := 4, enoent := 2, ewouldblock := 11, nt := false }
  kind := .ssl

/-- A heartbeat frame. -/
def heartbeat : Frame := ⟨8, 0, []⟩

/-- A frame is read over a connection and another one over the next. -/
theorem run_readsOwn_heartbeats :
    Run.Along (step sslConfig) (ReadsOwn sslConfig) init
      [.connect { stream := heartbeat.octets }, .readFrame [.piece 6, .piece 0], .close {},
        .connect { stream := heartbeat.octets }, .readFrame [.piece 6, .piece 0]] :=
  run_readsOwn sslConfig _ ⟨fun _ _ _ => rfl, trivial, trivial, fun _ _ _ => rfl, trivial, trivial⟩

/-- The header of a frame with a payload of seven octets arrives, and then the connection is
closed. The next one sends a heartbeat. -/
def cutOff : List Op :=
  [.connect { stream := [1, 0, 5, 0, 0, 0, 7] }, .readFrame [.piece 6, .raise .socketTimeout],
    .close {}, .connect { stream := heartbeat.octets }]

/-- The heartbeat becomes the payload of the frame that was cut off. -/
theorem cutOff_leaks :
    (readFrame sslConfig [.piece 6, .piece 0] (run sslConfig cutOff)).1 =
        .ok ⟨1, 5, [8, 0, 0, 0, 0, 0, 0]⟩ ∧
      ¬ Run.Along (step sslConfig) (ReadsOwn sslConfig) init
        (cutOff ++ [.readFrame [.piece 6, .piece 0]]) := by
  refine ⟨by decide +kernel, fun halong => ?_⟩
  obtain ⟨octets, -, -, hstream, -⟩ := halong.drop.1 (by decide +kernel)
  exact absurd hstream (by decide +kernel)

end Endpoint

end PyAmqp
