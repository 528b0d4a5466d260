import PyAmqp.Framing.Reentrance
import PyAmqp.Transport.Stream

/-!
`drain_events` and `blocking_read` of `amqp/connection.py`, with `having_timeout` of
`amqp/transport.py`. Code of the user drains a connection with a timeout of its own at
every call, and its callbacks may drain the connection again.
-/

namespace PyAmqp

/-- What a connection reads with: its transport, what `sock.gettimeout()` gives, in a unit
of time that does not matter, and the closure of `frame_handler`. -/
structure Inlet where
  transport : Transport
  timeout : Option Nat := none
  handler : Handler := {}

namespace Inlet

/-- A transport's configuration, with the errors of TLS that say `The operation did not
complete`. -/
structure Config extends TransportConfig where
  incomplete : PyError → Bool

def onTransport {α : Type} (m : Effect Transport PyError α) : Effect Inlet PyError α := fun s =>
  let (r, transport) := m s.transport
  (r, { s with transport })

def onHandler {α : Type} (m : Effect Handler PyError α) : Effect Inlet PyError α := fun s =>
  let (r, handler) := m s.handler
  (r, { s with handler })

/-- The `except` clauses of `having_timeout`. -/
def timedOut (cfg : Config) (e : PyError) : PyError :=
  match e with
  | .sslError _ timedOut => if timedOut ∨ cfg.incomplete e then .socketTimeout else e
  | e =>
      if e.isOSError ∧ e.errno? = some cfg.platform.ewouldblock then .socketTimeout else e

/-- The body of a `with self.transport.having_timeout(timeout)`. -/
def havingTimeout {α : Type} (cfg : Config) (timeout : Option Nat)
    (body : Effect Inlet PyError α) : Effect Inlet PyError α := fun s =>
  if timeout = none then body s
  else
    let prev := s.timeout
    let s := if prev ≠ timeout then { s with timeout } else s
    let (r, s) := Effect.tryCatch body (fun e => Effect.raise (timedOut cfg e)) s
    (r, if timeout ≠ prev then { s with timeout := prev } else s)

/-- `self.on_inbound_frame(frame)`: the callback is called last, and its call is noted. -/
def onInboundFrame (callback : Call → Effect Inlet PyError Unit) (frame : Frame) :
    Effect Inlet PyError Bool := fun s =>
  let (returned, handler) := onFrame record frame s.handler
  match handler.calls.drop s.handler.calls.length with
  | [] => (returned, { s with handler })
  | call :: _ => (callback call >>= fun _ => pure true) { s with handler }

/-- `blocking_read` -/
def blockingRead (cfg : Config) (callback : Call → Effect Inlet PyError Unit)
    (timeout : Option Nat) : Effect Inlet PyError Bool := do
  let frame ← havingTimeout cfg timeout (onTransport (Transport.readFrame cfg.toTransportConfig))
  onInboundFrame callback frame

/-- The loop of `drain_events`. Every round takes a frame. -/
def drainLoop (cfg : Config) (callback : Call → Effect Inlet PyError Unit)
    (timeout : Option Nat) : Nat → Effect Inlet PyError Unit
  | 0 => Effect.raise .outOfFuel
  | fuel + 1 => do
      let dispatched ← blockingRead cfg callback timeout
      if dispatched then pure () else drainLoop cfg callback timeout fuel

/-- What is there to be read. -/
def stream (s : Inlet) : Octets := s.transport.readBuffer ++ s.transport.unread

/-- `drain_events` -/
def drainEvents (cfg : Config) (callback : Call → Effect Inlet PyError Unit)
    (timeout : Option Nat) : Effect Inlet PyError Unit := do
  let s ← Effect.get
  drainLoop cfg callback timeout (s.stream.length + 1)

/-- Code of the user: it drains the connection, with what the callbacks do should they be
called, and goes on by how that ended; in the end it returns or raises. A callback is such
code itself. -/
inductive Client where
  | done (r : Except PyError Unit)
  | drain (timeout : Option Nat) (callback : Call → Client) (next : Except PyError Unit → Client)

/-- Nothing follows on a call that waits for ever. -/
def Client.run (cfg : Config) : Client → Effect Inlet PyError Unit
  | done r => Effect.liftExcept r
  | drain timeout callback next => fun s =>
      match drainEvents cfg (fun call => (callback call).run cfg) timeout s with
      | (.error .blocked, s) => (.error .blocked, s)
      | (r, s) => (next r).run cfg s

/-! The callback -/

/-- The handler after some frames, with the calls it has made. -/
def handled (frames : List Frame) : Handler := (Demultiplex.run onFrameStep {} frames).2

theorem handled_snoc (done : List Frame) (frame : Frame) :
    handled (done ++ [frame]) = (onFrame record frame (handled done)).2 := by
  rw [handled, Demultiplex.run_append]
  rfl

/-- Handling a frame adds its calls to those that were made. -/
theorem onFrame_calls (frame : Frame) (h : Handler) :
    ∃ calls, (onFrame record frame h).2.calls = h.calls ++ calls := by
  rcases onFrame_tails frame h with ⟨r, h', hcalls, hall⟩ | ⟨call, h', hcalls, hall⟩
  · refine ⟨[], ?_⟩
    rw [hall, hcalls, List.append_nil]
  · refine ⟨[call], ?_⟩
    rw [hall, ← hcalls]
    rfl

theorem handled_calls (done : List Frame) :
    (handled done).calls =
      (Demultiplex.run onFrameStep {} done).1.flatMap fun entry => entry.2.calls := by
  have hrun : ∀ h : Handler, (Demultiplex.run onFrameStep h done).2.calls =
      h.calls ++ (Demultiplex.run onFrameStep h done).1.flatMap fun entry => entry.2.calls := by
    induction done with
    | nil => exact fun h => (List.append_nil _).symm
    | cons frame done ih =>
        intro h
        obtain ⟨calls, hcalls⟩ := onFrame_calls frame h
        have hstep : (onFrameStep h frame).1.calls = calls := by
          simp only [onFrameStep, hcalls, List.drop_left]
        simp only [Demultiplex.run, List.flatMap_cons]
        rw [ih, hstep, ← List.append_assoc, ← hcalls]
        rfl
  rw [handled, hrun]
  rfl

theorem onHandler_run {α : Type} (m : Effect Handler PyError α) (s : Inlet) :
    onHandler m s = ((m s.handler).1, { s with handler := (m s.handler).2 }) := rfl

/-- A callback that stays with the handler is called as `on_frame` calls it. -/
theorem onInboundFrame_onFrame (callback : Call → Effect Handler PyError Unit) (frame : Frame) :
    onInboundFrame (fun call => onHandler (callback call)) frame =
      onHandler (onFrame (fun call => record call >>= fun _ => callback call) frame) := by
  funext s
  rw [onHandler_run]
  unfold onInboundFrame
  rcases onFrame_tails frame s.handler with ⟨r, h, hcalls, hall⟩ | ⟨call, h, hcalls, hall⟩
  · simp only [hall, hcalls, List.drop_length]
  · have hnoted : record call h = (.ok (), { h with calls := s.handler.calls ++ [call] }) := by
      rw [← hcalls]
      rfl
    rw [hall, hall, Effect.bind_ok _ hnoted, bind_assoc, Effect.bind_ok _ hnoted]
    simp only [Effect.pure_run, List.drop_left, Effect.bind_run, onHandler_run]
    rcases callback call { h with calls := s.handler.calls ++ [call] } with ⟨_ | _, h'⟩
    · rfl
    · rfl

/-! Draining a stream of frames -/

section Drains

variable {cfg : Config} {short left : Nat} {base : Option Nat} {frames done rest : List Frame}

/-- `done` has been handled and `rest` is still to be read, with the socket's timeout back. -/
structure At (cfg : Config) (short left : Nat) (base : Option Nat) (done rest : List Frame)
    (s : Inlet) : Prop where
  streams : Transport.Streams cfg.toTransportConfig short left (rest.flatMap Frame.octets)
    s.transport
  handler : s.handler = handled done
  timeout : s.timeout = base

/-- The stream is at one of its frames. -/
def Between (cfg : Config) (short left : Nat) (base : Option Nat) (frames : List Frame)
    (s : Inlet) : Prop :=
  ∃ done rest, frames = done ++ rest ∧ At cfg short left base done rest s

/-- A read waits for more than `recv` is scheduled to return. -/
structure Starved (short : Nat) (base : Option Nat) (done rest : List Frame) (s : Inlet) :
    Prop where
  unread : s.transport.unread.length ≤ short
  nothing : s.transport.unread = [] → rest = []
  handler : s.handler = handled done
  timeout : s.timeout = base

/-- What an exception leaves: the stream is where it was, or the call never ends. -/
def Raised (cfg : Config) (short left : Nat) (base : Option Nat) (frames : List Frame)
    (e : PyError) (s : Inlet) : Prop :=
  Between cfg short left base frames s ∨
    (e = .blocked ∧ ∃ done rest, frames = done ++ rest ∧ Starved short base done rest s)

/-- A block that works on the transport leaves the socket's timeout as it was, however it
ends. -/
theorem havingTimeout_onTransport {α : Type} (timeout : Option Nat)
    (m : Effect Transport PyError α) (s : Inlet) :
    havingTimeout cfg timeout (onTransport m) s =
      ((m s.transport).1.mapError fun e => if timeout = none then e else timedOut cfg e,
        { s with transport := (m s.transport).2 }) := by
  obtain ⟨transport, prev, handler⟩ := s
  unfold havingTimeout
  by_cases hnone : timeout = none
  · simp only [if_pos hnone, onTransport]
    rcases m transport with ⟨_ | _, t⟩
    · rfl
    · rfl
  · simp only [if_neg hnone, Effect.tryCatch_raise]
    by_cases hsame : prev = timeout
    · simp only [if_neg (not_not.mpr hsame), if_neg (not_not.mpr hsame.symm), onTransport]
      rcases m transport with ⟨_ | _, t⟩
      · rfl
      · rfl
    · simp only [if_pos hsame, if_pos (Ne.symm hsame), onTransport]
      rcases m transport with ⟨_ | _, t⟩
      · rfl
      · rfl

theorem timedOut_blocked : timedOut cfg .blocked = .blocked := by
  simp [timedOut, PyError.isOSError]

/-- A round of `drain_events` takes the next frame, or leaves the stream as it is. -/
theorem blockingRead_spec (hframes : ∀ frame ∈ frames, frame.WellFormed)
    {callback : Call → Effect Inlet PyError Unit} (timeout : Option Nat)
    (hcallback : ∀ call, Effect.Triple (Between cfg short left base frames) (callback call)
      (fun _ => Between cfg short left base frames) (Raised cfg short left base frames))
    (hsplit : frames = done ++ rest) {s : Inlet} (hs : At cfg short left base done rest s) :
    match blockingRead cfg callback timeout s with
    | (.ok true, s') => Between cfg short left base frames s'
    | (.ok false, s') => ∃ frame rest', rest = frame :: rest' ∧
        At cfg short left base (done ++ [frame]) rest' s'
    | (.error e, s') => Raised cfg short left base frames e s' := by
  have hrest : ∀ frame ∈ rest, frame.WellFormed := by
    intro frame hframe
    apply hframes
    rw [hsplit]
    exact List.mem_append_right _ hframe
  have hread := Transport.readFrame_next hrest hs.streams
  unfold blockingRead
  simp only [Effect.bind_run, havingTimeout_onTransport]
  revert hread
  rcases Transport.readFrame cfg.toTransportConfig s.transport with ⟨e | frame, t⟩
  · rintro (⟨rfl, -, hstreams⟩ | ⟨rfl, hunread, hnothing⟩)
    · exact .inl ⟨done, rest, hsplit, hstreams, hs.handler, hs.timeout⟩
    · right
      refine ⟨?_, done, rest, hsplit, hunread, hnothing, hs.handler, hs.timeout⟩
      split
      · rfl
      · exact timedOut_blocked
  · rintro ⟨rest', rfl, hstreams⟩
    simp only [Except.mapError, onInboundFrame]
    have hafter : ∀ handler, handler = (onFrame record frame s.handler).2 →
        At cfg short left base (done ++ [frame]) rest'
          { transport := t, timeout := s.timeout, handler } := by
      intro handler hhandler
      refine ⟨hstreams, ?_, hs.timeout⟩
      rw [handled_snoc, ← hs.handler]
      exact hhandler
    have hbetween : frames = (done ++ [frame]) ++ rest' := by
      rw [hsplit, List.append_assoc, List.singleton_append]
    revert hafter
    rcases onFrame record frame s.handler with ⟨returned, handler⟩
    intro hafter
    have hat := hafter handler rfl
    simp only
    cases handler.calls.drop s.handler.calls.length with
    | nil =>
        cases returned with
        | error e => exact .inl ⟨_, _, hbetween, hat⟩
        | ok dispatched =>
            cases dispatched with
            | true => exact ⟨_, _, hbetween, hat⟩
            | false => exact ⟨frame, rest', rfl, hat⟩
    | cons call calls =>
        have hcalled := hcallback call _ ⟨_, _, hbetween, hat⟩
        simp only [Effect.bind_run]
        revert hcalled
        rcases callback call { transport := t, timeout := s.timeout, handler } with ⟨e | _, s'⟩
        · exact id
        · exact id

/-- The induction is on the rounds, of which every frame left takes one at most. -/
theorem drainLoop_spec (hframes : ∀ frame ∈ frames, frame.WellFormed)
    {callback : Call → Effect Inlet PyError Unit} (timeout : Option Nat)
    (hcallback : ∀ call, Effect.Triple (Between cfg short left base frames) (callback call)
      (fun _ => Between cfg short left base frames) (Raised cfg short left base frames))
    (fuel : Nat) (hsplit : frames = done ++ rest) (hfuel : rest.length < fuel) :
    Effect.Triple (At cfg short left base done rest) (drainLoop cfg callback timeout fuel)
      (fun _ => Between cfg short left base frames) (Raised cfg short left base frames) := by
  induction fuel generalizing done rest with
  | zero => omega
  | succ fuel ih =>
      intro s hs
      have hround := blockingRead_spec hframes timeout hcallback hsplit hs
      simp only [drainLoop, Effect.bind_run]
      revert hround
      rcases blockingRead cfg callback timeout s with ⟨e | dispatched, s'⟩
      · exact id
      · cases dispatched with
        | true => exact id
        | false =>
            rintro ⟨frame, rest', rfl, hat⟩
            apply ih _ _ s' hat
            · rw [hsplit, List.append_assoc, List.singleton_append]
            · rw [List.length_cons] at hfuel
              omega

theorem drainEvents_spec (hframes : ∀ frame ∈ frames, frame.WellFormed)
    {callback : Call → Effect Inlet PyError Unit} (timeout : Option Nat)
    (hcallback : ∀ call, Effect.Triple (Between cfg short left base frames) (callback call)
      (fun _ => Between cfg short left base frames) (Raised cfg short left base frames)) :
    Effect.Triple (Between cfg short left base frames) (drainEvents cfg callback timeout)
      (fun _ => Between cfg short left base frames) (Raised cfg short left base frames) := by
  rintro s ⟨done, rest, hsplit, hat⟩
  have hfuel : rest.length < s.stream.length + 1 := by
    have hoctets := Frame.length_le_octets rest
    rw [← hat.streams.content] at hoctets
    exact Nat.lt_succ_of_le hoctets
  exact drainLoop_spec hframes timeout hcallback _ hsplit hfuel s hat

/-- A call of `drain_events` that ends is followed by the rest of the code. -/
theorem Client.run_drain {timeout : Option Nat} {callback : Call → Client}
    {next : Except PyError Unit → Client} {s s' : Inlet} {r : Except PyError Unit}
    (hdrain : drainEvents cfg (fun call => (callback call).run cfg) timeout s = (r, s'))
    (hends : r ≠ .error .blocked) :
    (Client.drain timeout callback next).run cfg s = (next r).run cfg s' := by
  simp only [Client.run, hdrain]

/-- The induction is on the code of the user: what a callback does is a smaller client. -/
theorem Client.run_spec (hframes : ∀ frame ∈ frames, frame.WellFormed) (client : Client) :
    Effect.Triple (Between cfg short left base frames) (client.run cfg)
      (fun _ => Between cfg short left base frames) (Raised cfg short left base frames) := by
  induction client with
  | done r =>
      intro s hs
      cases r with
      | error e => exact .inl hs
      | ok _ => exact hs
  | drain timeout callback next ihcallback ihnext =>
      intro s hs
      have hspec := drainEvents_spec hframes timeout ihcallback s hs
      cases hdrain : drainEvents cfg (fun call => (callback call).run cfg) timeout s with
      | mk r s' =>
          rw [hdrain] at hspec
          by_cases hblocked : r = .error .blocked
          · subst hblocked
            simp only [Client.run, hdrain]
            exact hspec
          · rw [Client.run_drain hdrain hblocked]
            apply ihnext r s'
            cases r with
            | ok _ => exact hspec
            | error e =>
                obtain hbetween | ⟨rfl, -⟩ := hspec
                · exact hbetween
                · exact absurd rfl hblocked

end Drains

/-- Code that drains a stream of frames ends at one of them, or waits for ever; it has then had
them all if `recv` has returned all octets. -/
theorem Client.run_ends (cfg : Config) (client : Client) (frames : List Frame)
    (t : Transport) (base : Option Nat) (hframes : ∀ frame ∈ frames, frame.WellFormed)
    (hschedule : ∀ event ∈ t.schedule, Transport.Survivable cfg.toTransportConfig event)
    (hstream : t.readBuffer ++ t.unread = frames.flatMap Frame.octets) :
    let result := (client.run cfg { transport := t, timeout := base }).1
    let s := (client.run cfg { transport := t, timeout := base }).2
    ∃ done rest, frames = done ++ rest ∧ s.timeout = base ∧ s.handler = handled done ∧
      (s.stream = rest.flatMap Frame.octets ∨
        (result = .error .blocked ∧
          (t.unread.length ≤ Transport.pieces t.schedule ∨ s.transport.unread = [] →
            rest = []))) := by
  intro result s
  let short := t.unread.length - Transport.pieces t.schedule
  have hshort : t.unread.length ≤ Transport.pieces t.schedule + short := by omega
  have hspec := @Client.run_spec cfg short t.schedule.length base frames hframes client
    { transport := t, timeout := base }
    ⟨[], frames, rfl, ⟨⟨⟨Nat.le_refl _, hschedule, hshort⟩, hstream⟩, rfl, rfl⟩⟩
  revert hspec
  simp only [result, s]
  rcases client.run cfg { transport := t, timeout := base } with ⟨e | _, s'⟩
  · rintro (⟨done, rest, hsplit, hat⟩ | ⟨rfl, done, rest, hsplit, hstarved⟩)
    · exact ⟨done, rest, hsplit, hat.timeout, hat.handler, .inl hat.streams.content⟩
    · refine ⟨done, rest, hsplit, hstarved.timeout, hstarved.handler,
        .inr ⟨rfl, fun henough => ?_⟩⟩
      apply hstarved.nothing
      rcases henough with hpieces | hall
      · have hunread : s'.transport.unread.length ≤ short := hstarved.unread
        apply List.length_eq_zero_iff.mp
        omega
      · exact hall
  · rintro ⟨done, rest, hsplit, hat⟩
    exact ⟨done, rest, hsplit, hat.timeout, hat.handler, .inl hat.streams.content⟩

/-- A stream of frames is drained by any code, with any timeouts, callbacks that raise and
callbacks that drain. However `recv` cuts the stream up and wherever it times out, the
frames have been handled once each and in their order, with the calls that they make, the
rest of them is still to be read, and the socket has the timeout it had. Code that waits
for ever has had all the frames if `recv` has returned all octets, as it has after as many
pieces as there are octets. -/
theorem Client.run_drains (cfg : Config) (client : Client) (frames : List Frame)
    (t : Transport) (base : Option Nat) (hframes : ∀ frame ∈ frames, frame.WellFormed)
    (hschedule : ∀ event ∈ t.schedule, Transport.Survivable cfg.toTransportConfig event)
    (hstream : t.readBuffer ++ t.unread = frames.flatMap Frame.octets) :
    let result := (client.run cfg { transport := t, timeout := base }).1
    let s := (client.run cfg { transport := t, timeout := base }).2
    ∃ done rest, frames = done ++ rest ∧ s.timeout = base ∧ s.handler = handled done ∧
      s.handler.calls =
        ((Demultiplex.run onFrameStep {} done).1.flatMap fun entry => entry.2.calls) ∧
      (s.stream = rest.flatMap Frame.octets ∨
        (result = .error .blocked ∧
          (t.unread.length ≤ Transport.pieces t.schedule ∨ s.transport.unread = [] →
            rest = []))) := by
  intro result s
  obtain ⟨done, rest, hsplit, htimeout, hhandler, hends⟩ :=
    Client.run_ends cfg client frames t base hframes hschedule hstream
  refine ⟨done, rest, hsplit, htimeout, hhandler, ?_, hends⟩
  have hcalls : s.handler.calls = (handled done).calls := congrArg Handler.calls hhandler
  rw [hcalls, handled_calls]

/-- The callback drains the connection again, and raises; a third call follows. -/
def nestedDrains : Client :=
  .drain (some 0)
    (fun _ => .drain none (fun _ => .done (.ok ())) fun _ => .done (.error .typeError))
    fun _ => .drain (some 3) (fun _ => .done (.ok ())) .done

/-- `Blocked` and `Unblocked`, with a timeout between them that the callback of the first one
runs into. -/
theorem Client.run_drains_nested :
    let cfg : Config :=
      { platform := ⟨11, 4, 2, 11, false⟩, kind := .tcp, incomplete := fun _ => false }
    let frames : List Frame := [⟨1, 0, [0, 10, 0, 60, 0]⟩, ⟨8, 0, []⟩, ⟨1, 0, [0, 10, 0, 61]⟩]
    let t : Transport :=
      { unread := frames.flatMap Frame.octets
        schedule := List.replicate 4 (.piece 6) ++ .raise (.osError (some 11)) ::
          List.replicate 40 (.piece 6) }
    let s := (nestedDrains.run cfg { transport := t, timeout := some 5 }).2
    s.handler.calls.length = 2 ∧ s.timeout = some 5 := by
  intro cfg frames t s
  obtain ⟨done, rest, -, htimeout, -⟩ := Client.run_drains cfg nestedDrains frames t (some 5)
    (by
      simp only [frames, List.mem_cons, List.not_mem_nil, or_false]
      rintro frame (rfl | rfl | rfl)
      · exact ⟨by decide, by decide, by decide⟩
      · exact ⟨by decide, by decide, by decide⟩
      · exact ⟨by decide, by decide, by decide⟩)
    (by simp [t, Transport.Survivable, cfg])
    rfl
  exact ⟨by decide +kernel, htimeout⟩

end Inlet

end PyAmqp
