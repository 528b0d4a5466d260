import PyAmqp.Framing.Handler

/-!
`read_frame` of `amqp/transport.py` with the `_read` of `TCPTransport` and of
`SSLTransport`. The peer's octets not yet received and what the next calls of `recv`
do are part of the transport's state.
-/

namespace PyAmqp

/-- The platform's numbers for `errno` and whether `os.name == 'nt'`. -/
structure Platform where
  eagain : Nat
  eintr : Nat
  enoent : Nat
  ewouldblock : Nat
  nt : Bool

namespace Platform

/-- `_UNAVAIL` -/
def unavail (p : Platform) : List Nat := [p.eagain, p.eintr, p.enoent, p.ewouldblock]

end Platform

inductive TransportKind where
  | tcp
  | ssl
  deriving DecidableEq, Repr

/-- The `_errnos` of the two `_read` methods. -/
def TransportKind.errnos (p : Platform) : TransportKind → List Nat
  | tcp => [p.eagain, p.eintr]
  | ssl => [p.enoent, p.eagain, p.eintr]

/-- What a call of `recv` does: return up to `size + 1` octets, return none at the end
of the stream, or raise. -/
inductive Recv where
  | piece (size : Nat)
  | eof
  | raise (e : PyError)
  deriving DecidableEq, Repr

/-- What a transport is set up with. -/
structure TransportConfig where
  platform : Platform
  kind : TransportKind
  raiseOnInitialEintr : Bool := true

/-- `readFrameBuffer` is the local `read_frame_buffer`, kept here because the handlers
of `read_frame` look at it. -/
structure Transport where
  readBuffer : Octets := []
  readFrameBuffer : Octets := []
  connected : Bool := true
  unread : Octets
  schedule : List Recv

namespace Transport

/-- `self._quick_recv(n)`. It blocks when nothing more is scheduled, or when the peer
has sent nothing more. -/
def recv (n : Nat) : Effect Transport PyError Octets := fun t =>
  match t.schedule with
  | [] => (.error .blocked, t)
  | .piece size :: schedule =>
      if t.unread = [] then (.error .blocked, t)
      else
        let k := min (size + 1) n
        (.ok (t.unread.take k), { t with unread := t.unread.drop k, schedule })
  | .eof :: schedule => (.ok [], { t with schedule })
  | .raise e :: schedule => (.error e, { t with schedule })

/-- `except: self._read_buffer = rbuf; raise` -/
def keep {α : Type} (rbuf : Octets) (e : PyError) : Effect Transport PyError α := do
  Effect.modify fun t => { t with readBuffer := rbuf }
  Effect.raise e

/-- The loop of `_read`. A round uses up one call of `recv`. -/
def readLoop (cfg : TransportConfig) (n : Nat) (initial : Bool) :
    Nat → Octets → Effect Transport PyError Octets
  | 0, _ => Effect.raise .outOfFuel
  | fuel + 1, rbuf => fun t =>
      if rbuf.length < n then
        match recv (n - rbuf.length) t with
        | (.ok s, t) =>
            if s = [] then keep rbuf (.osError none) t
            else readLoop cfg n initial fuel (rbuf ++ s) t
        | (.error e, t) =>
            if e.isOSError ∧ ∃ errno ∈ cfg.kind.errnos cfg.platform, e.errno? = some errno then
              if initial ∧ cfg.raiseOnInitialEintr then keep rbuf .socketTimeout t
              else readLoop cfg n initial fuel rbuf t
            else keep rbuf e t
      else (.ok rbuf, t)

/-- `_read` -/
def read (cfg : TransportConfig) (n : Nat) (initial : Bool) :
    Effect Transport PyError Octets := do
  let t ← Effect.get
  let rbuf ← readLoop cfg n initial (t.schedule.length + 1) t.readBuffer
  Effect.modify fun t => { t with readBuffer := rbuf.drop n }
  return rbuf.take n

/-- `_read` tries again. -/
def Retried (cfg : TransportConfig) (e : PyError) : Prop :=
  e.isOSError = true ∧ ∃ errno ∈ cfg.kind.errnos cfg.platform, e.errno? = some errno

instance (cfg : TransportConfig) (e : PyError) : Decidable (Retried cfg e) :=
  inferInstanceAs (Decidable (_ ∧ _))

theorem not_retried_blocked (cfg : TransportConfig) : ¬ Retried cfg .blocked := by
  rintro ⟨hos, -⟩
  cases hos

/-! One call of `recv`, and the loop -/

section Loop

variable {cfg : TransportConfig} {n : Nat} {initial : Bool} {I : Transport → Prop}
  {E : PyError → Transport → Prop}

/-- What a call of `recv` changes. -/
theorem recv_takes (n : Nat) (t : Transport) :
    match recv n t with
    | (.ok s, t') => ∃ unread schedule, t' = { t with unread, schedule } ∧ s ++ unread = t.unread
    | (.error _, t') => ∃ schedule, t' = { t with schedule } := by
  unfold recv
  cases hschedule : t.schedule with
  | nil => exact ⟨t.schedule, rfl⟩
  | cons event rest =>
      cases event with
      | piece size =>
          by_cases hempty : t.unread = []
          · simp only [if_pos hempty]
            exact ⟨t.schedule, rfl⟩
          · simp only [if_neg hempty]
            exact ⟨_, rest, rfl, List.take_append_drop _ _⟩
      | eof => exact ⟨t.unread, rest, rfl, rfl⟩
      | raise e => exact ⟨rest, rfl⟩

theorem recv_schedule (n : Nat) (t : Transport) :
    (recv n t).2.schedule.length < t.schedule.length ∨ (recv n t).1 = .error .blocked := by
  unfold recv
  cases hschedule : t.schedule with
  | nil => exact .inr rfl
  | cons event rest =>
      cases event with
      | piece size =>
          by_cases hempty : t.unread = []
          · simp [hempty]
          · simp [hempty]
      | eof => exact .inl (Nat.lt_succ_self _)
      | raise e => exact .inl (Nat.lt_succ_self _)

/-- `recv` does not look at the read buffer. -/
theorem recv_readBuffer (n : Nat) (rbuf : Octets) (t : Transport) :
    recv n { t with readBuffer := rbuf } =
      ((recv n t).1, { (recv n t).2 with readBuffer := rbuf }) := by
  obtain ⟨readBuffer, readFrameBuffer, connected, unread, schedule⟩ := t
  cases schedule with
  | nil => rfl
  | cons event rest =>
      cases event with
      | piece size =>
          by_cases hempty : unread = []
          · simp only [recv, if_pos hempty]
          · simp only [recv, if_neg hempty]
      | eof => rfl
      | raise e => rfl

/-- A call of `recv` made with `I` leaves `I` where the loop of `_read` goes on, and `E` where
it ends in an exception. The octets of the loop count as the read buffer. -/
def RecvKeeps (cfg : TransportConfig) (n : Nat) (initial : Bool) (I : Transport → Prop)
    (E : PyError → Transport → Prop) : Prop :=
  ∀ t, I t → t.readBuffer.length < n →
    match recv (n - t.readBuffer.length) t with
    | (.ok s, t') =>
        if s = [] then E (.osError none) t'
        else I { t' with readBuffer := t.readBuffer ++ s }
    | (.error e, t') =>
        if Retried cfg e then
          if initial ∧ cfg.raiseOnInitialEintr then E .socketTimeout t' else I t'
        else E e t'

/-- The induction is on the fuel, of which every call of `recv` takes one. -/
private theorem readLoop_keeps (h : RecvKeeps cfg n initial I E) (fuel : Nat) (rbuf : Octets)
    (t : Transport) (ht : I { t with readBuffer := rbuf }) (hfuel : t.schedule.length < fuel) :
    match readLoop cfg n initial fuel rbuf t with
    | (.ok rbuf', t') => n ≤ rbuf'.length ∧ I { t' with readBuffer := rbuf' }
    | (.error e, t') => E e t' := by
  induction fuel generalizing rbuf t with
  | zero => omega
  | succ fuel ih =>
      by_cases hlt : rbuf.length < n
      · have hrecv := h { t with readBuffer := rbuf } ht hlt
        have hschedule := recv_schedule (n - rbuf.length) t
        rw [recv_readBuffer] at hrecv
        simp only [readLoop, if_pos hlt]
        rcases hrun : recv (n - rbuf.length) t with ⟨e | s, t'⟩
        · rw [hrun] at hrecv hschedule
          simp only at hrecv ⊢
          by_cases hretry : Retried cfg e
          · rw [if_pos hretry] at hrecv
            simp only [if_pos (show e.isOSError = true ∧ _ from hretry)]
            by_cases hfirst : initial = true ∧ cfg.raiseOnInitialEintr = true
            · rw [if_pos hfirst] at hrecv
              simp only [if_pos hfirst]
              exact hrecv
            · rw [if_neg hfirst] at hrecv
              simp only [if_neg hfirst]
              rcases hschedule with hshorter | hblocked
              · exact ih rbuf t' hrecv (Nat.lt_of_lt_of_le hshorter (Nat.le_of_lt_succ hfuel))
              · cases hblocked
                exact absurd hretry (not_retried_blocked cfg)
          · rw [if_neg hretry] at hrecv
            simp only [if_neg (show ¬ (e.isOSError = true ∧ _) from hretry)]
            exact hrecv
        · rw [hrun] at hrecv hschedule
          simp only at hrecv ⊢
          by_cases hend : s = []
          · rw [if_pos hend] at hrecv
            simp only [if_pos hend]
            exact hrecv
          · rw [if_neg hend] at hrecv
            simp only [if_neg hend]
            rcases hschedule with hshorter | hblocked
            · exact ih _ t' hrecv (Nat.lt_of_lt_of_le hshorter (Nat.le_of_lt_succ hfuel))
            · cases hblocked
      · simp only [readLoop, if_neg hlt]
        exact ⟨Nat.not_lt.mp hlt, ht⟩

/-- A read gives out the first `n` octets its loop stopped with and keeps the rest. -/
theorem read_triple {P H : Transport → Prop}
    (hloop : ∀ t, P t → match readLoop cfg n initial (t.schedule.length + 1) t.readBuffer t with
      | (.ok rbuf, t') => n ≤ rbuf.length ∧ H { t' with readBuffer := rbuf }
      | (.error e, t') => E e t') :
    Effect.Triple P (read cfg n initial)
      (fun octets t => octets.length = n ∧ H { t with readBuffer := octets ++ t.readBuffer }) E := by
  intro t ht
  have hrbuf := hloop t ht
  cases hrun : readLoop cfg n initial (t.schedule.length + 1) t.readBuffer t with
  | mk result t' =>
      rw [hrun] at hrbuf
      simp only [read, Effect.bind_run, Effect.get_run, hrun]
      cases result with
      | error e => exact hrbuf
      | ok rbuf =>
          obtain ⟨hlength, hheld⟩ := hrbuf
          simp only [Effect.modify_run, Effect.pure_run]
          refine ⟨by simpa using hlength, ?_⟩
          rw [List.take_append_drop]
          exact hheld

/-- What its calls of `recv` keep, a read keeps. -/
theorem read_keeps (h : RecvKeeps cfg n initial I E) :
    Effect.Triple I (read cfg n initial)
      (fun octets t => octets.length = n ∧ I { t with readBuffer := octets ++ t.readBuffer }) E :=
  read_triple fun t ht =>
    readLoop_keeps h (t.schedule.length + 1) t.readBuffer t ht (Nat.lt_succ_self _)

end Loop

/-- `read_frame_buffer += octets` -/
def buffer (octets : Octets) : Effect Transport PyError Unit :=
  Effect.modify fun t => { t with readFrameBuffer := t.readFrameBuffer ++ octets }

/-- `self._read_buffer = read_frame_buffer + self._read_buffer` -/
def pushBack : Effect Transport PyError Unit :=
  Effect.modify fun t => { t with readBuffer := t.readFrameBuffer ++ t.readBuffer }

/-- `unpack('>BHI', frame_header)` -/
def unpackFrameHeader : Reader (Nat × Nat × Nat) := do
  let frameType ← unpackFrom 1
  let channel ← unpackFrom 2
  let size ← unpackFrom 4
  return (frameType, channel, size)

/-- `SIGNED_INT_MAX` -/
def signedIntMax : Nat := 0x7FFFFFFF

/-- A payload fetched by two reads. A timeout of the second buffers the first part. -/
def readInParts (cfg : TransportConfig) (n m : Nat) : Effect Transport PyError Octets := do
  let part1 ← read cfg n false
  let part2 ← Effect.tryCatch (read cfg m false) fun e => do
    if e.isOSError then buffer part1 else pure ()
    Effect.raise e
  return part1 ++ part2

/-- The payload, in two parts where its size does not fit a signed integer. -/
def readPayload (cfg : TransportConfig) (size : Nat) : Effect Transport PyError Octets :=
  if size > signedIntMax then readInParts cfg signedIntMax (size - signedIntMax)
  else read cfg size false

/-- The `try` block of `read_frame`. -/
def readFrameParts (cfg : TransportConfig) : Effect Transport PyError (Frame × Nat) := do
  let frameHeader ← read cfg 7 true
  buffer frameHeader
  let ((frameType, channel, size), _) ← Effect.liftExcept (unpackFrameHeader frameHeader 0)
  let payload ← readPayload cfg size
  buffer payload
  let frameEnd ← Effect.liftExcept (ord (← read cfg 1 false))
  return (⟨frameType, channel, payload⟩, frameEnd)

/-- The `except` clauses of `read_frame`. -/
def onReadError (cfg : TransportConfig) (e : PyError) :
    Effect Transport PyError (Frame × Nat) :=
  if e = .socketTimeout then do
    pushBack
    Effect.raise e
  else if e.isOSError then
    if cfg.platform.nt ∧ e.errno? = some cfg.platform.ewouldblock then do
      pushBack
      Effect.raise .socketTimeout
    else if e.isSslTimeout then do
      pushBack
      Effect.raise .socketTimeout
    else do
      if ¬ ∃ errno ∈ cfg.platform.unavail, e.errno? = some errno then
        Effect.modify fun t => { t with connected := false }
      else pure ()
      Effect.raise e
  else Effect.raise e

def unexpectedFrameEnd (frameEnd : Nat) : PyError :=
  .amqp { cls := .unexpectedFrame, replyText := .receivedFrameEnd frameEnd }

/-- `read_frame` -/
def readFrame (cfg : TransportConfig) : Effect Transport PyError Frame := do
  Effect.modify fun t => { t with readFrameBuffer := [] }
  let (frame, frameEnd) ← Effect.tryCatch (readFrameParts cfg) (onReadError cfg)
  if frameEnd = 206 then return frame
  else Effect.raise (unexpectedFrameEnd frameEnd)

/-- `read_frame` called again after every frame and after every timeout, `calls` times
in all: the frames returned, the exception that ended it if one did, and the
transport then. -/
def readFrames (cfg : TransportConfig) :
    Nat → Transport → List Frame × Option PyError × Transport
  | 0, t => ([], none, t)
  | calls + 1, t =>
      match readFrame cfg t with
      | (.ok frame, t) =>
          let (frames, stopped, t) := readFrames cfg calls t
          (frame :: frames, stopped, t)
      | (.error .socketTimeout, t) => readFrames cfg calls t
      | (.error e, t) => ([], some e, t)

end Transport

end PyAmqp
