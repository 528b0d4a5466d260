import PyAmqp.Base.Binary64
import PyAmqp.Framing.Handler
import PyAmqp.Framing.WriterSpec
import Mathlib.Data.List.Induction
import Mathlib.Data.List.Pairwise
import Mathlib.Tactic.Linarith

/-!
`heartbeat_tick` of `amqp/connection.py`. Nothing is stamped with its time when it
arrives: a tick sees that `bytes_recv` has moved and takes its own time for it. So
`last_heartbeat_received` is never before the last frame, and a tick after it falls
due raises. The clock gives floats, the same all through one tick, and what is added to
them is rounded; an interval is a number that a float can have.
-/

namespace PyAmqp

open Binary64

/-- The attributes of the connection that a tick looks at, with the closures that count
for it: the frame handler's `bytes_recv` and the frame writer's `bytes_sent`. -/
structure Heartbeat where
  heartbeat : Option ℚ := none
  handler : Handler
  writer : Writer
  prevSent : Option Nat := none
  prevRecv : Option Nat := none
  lastHeartbeatSent : ℚ := 0
  lastHeartbeatReceived : ℚ := 0

/-- `ConnectionForced('Too many heartbeats missed')` -/
def tooManyHeartbeatsMissed : PyError :=
  .amqp { cls := .connectionForced, replyText := .fixed "Too many heartbeats missed" }

namespace Heartbeat

/-- `send_heartbeat` -/
def sendHeartbeat (transport : TransportWrite) (codec : Codec) :
    Effect Heartbeat PyError Unit := fun s =>
  let (r, writer) := writeFrame transport codec 8 0 none none none s.writer
  (r, { s with writer })

/-- What the counters have done since the last tick is noted. -/
def observe (monotonic : ℚ) (s : Heartbeat) : Heartbeat :=
  { s with
    lastHeartbeatSent :=
      if s.prevSent ≠ some s.writer.bytesSent then monotonic else s.lastHeartbeatSent
    lastHeartbeatReceived :=
      if s.prevRecv ≠ some s.handler.bytesRecv then monotonic else s.lastHeartbeatReceived
    prevSent := some s.writer.bytesSent
    prevRecv := some s.handler.bytesRecv }

/-- If the rate is wrong, it is 2. -/
def effectiveRate (rate : ℚ) : ℚ := if rate ≤ 0 then 2 else rate

/-- `last_heartbeat_received + two_heartbeats` -/
def twoHeartbeatsInterval (heartbeat last : ℚ) : ℚ := nearest (last + nearest (2 * heartbeat))

/-- `last_heartbeat_sent + self.heartbeat / rate` -/
def nextHeartbeat (heartbeat rate last : ℚ) : ℚ :=
  nearest (last + nearest (heartbeat / effectiveRate rate))

/-- The end of a tick: a server that has been silent for two intervals is given up. -/
def checkReceived (heartbeat monotonic : ℚ) : Effect Heartbeat PyError Unit := do
  let s ← Effect.get
  if s.lastHeartbeatReceived ≠ 0 ∧
      twoHeartbeatsInterval heartbeat s.lastHeartbeatReceived < monotonic then
    Effect.raise tooManyHeartbeatsMissed
  else pure ()

/-- `heartbeat_tick` -/
def heartbeatTick (transport : TransportWrite) (codec : Codec) (rate monotonic : ℚ) :
    Effect Heartbeat PyError Unit := do
  let s ← Effect.get
  match s.heartbeat with
  | none => pure ()
  | some heartbeat =>
      if heartbeat = 0 then pure ()
      else do
        Effect.modify (observe monotonic)
        let s ← Effect.get
        if monotonic > nextHeartbeat heartbeat rate s.lastHeartbeatSent then do
          sendHeartbeat transport codec
          Effect.modify fun s => { s with lastHeartbeatSent := monotonic }
        else pure ()
        checkReceived heartbeat monotonic

/-- A connection that has negotiated its heartbeat and has not ticked yet. -/
def negotiated (heartbeat : ℚ) (handler : Handler) (writer : Writer) : Heartbeat :=
  { heartbeat := some heartbeat, handler, writer }

/-- What happens on a connection: a frame comes in, a frame is written, or the
application ticks. -/
inductive Event where
  | frame (frame : Frame)
  | write (call : WriteCall)
  | tick (rate : ℚ)

def step (transport : TransportWrite) (codec : Codec) (s : Heartbeat) :
    ℚ × Event → Heartbeat
  | (_, .frame frame) => { s with handler := (onFrame record frame s.handler).2 }
  | (_, .write call) => { s with writer := (call.run transport codec s.writer).2 }
  | (time, .tick rate) => (heartbeatTick transport codec rate time s).2

def run (transport : TransportWrite) (codec : Codec) (s : Heartbeat)
    (events : List (ℚ × Event)) : Heartbeat :=
  events.foldl (step transport codec) s

/-- The events stand in the order of their times, which are positive, and the time of a tick is
a reading of the clock. -/
structure Timed (events : List (ℚ × Event)) : Prop where
  order : (events.map Prod.fst).Pairwise (· ≤ ·)
  positive : ∀ event ∈ events, 0 < event.1
  clock : ∀ time rate, (time, .tick rate) ∈ events → IsFloat time

theorem Timed.of_append {events events' : List (ℚ × Event)} (h : Timed (events ++ events')) :
    Timed events := by
  have horder := h.order
  rw [List.map_append, List.pairwise_append] at horder
  exact ⟨horder.1, fun e he => h.positive e (by simp [he]),
    fun time rate htick => h.clock time rate (by simp [htick])⟩

theorem Timed.before {events : List (ℚ × Event)} {time : ℚ} {event : Event}
    (h : Timed (events ++ [(time, event)])) : Timed events ∧ 0 < time ∧
      ∀ earlier ∈ events, earlier.1 ≤ time := by
  refine ⟨h.of_append, h.positive (time, event) (by simp), ?_⟩
  have horder := h.order
  rw [List.map_append, List.pairwise_append] at horder
  intro earlier hearlier
  exact horder.2.2 earlier.1 (List.mem_map_of_mem hearlier) time (by simp)

/-! The counters -/

/-- A frame is counted, whatever comes of it. -/
theorem onFrame_bytesRecv (frame : Frame) (h : Handler) :
    (onFrame record frame h).2.bytesRecv = h.bytesRecv + 1 := by
  have hstored : ∀ {α : Type} (m : Effect Message PyError α),
      Effect.Keeps Handler.bytesRecv (Handler.onPartial frame.channel m) := by
    intro α m h
    unfold Handler.onPartial
    cases h.partialMessages frame.channel <;> rfl
  have hfinish : ∀ msg, Effect.Keeps Handler.bytesRecv (finish record frame.channel msg) :=
    fun msg _ => rfl
  unfold onFrame
  rw [Effect.bind_ok _ (Effect.modify_run _)]
  apply Effect.Keeps.bind Effect.Keeps.get
  intro s
  dsimp only
  split
  · exact Effect.Keeps.raise _
  split
  · apply (Effect.Keeps.liftExcept _).bind
    intro value
    split
    · exact fun _ => rfl
    · exact fun _ => rfl
  split
  · apply (hstored _).bind
    intro value
    split
    · exact hfinish _
    · exact fun _ => rfl
  split
  · apply (hstored _).bind
    intro value
    split
    · exact hfinish _
    · exact Effect.Keeps.pure _
  split
  · exact Effect.Keeps.pure _
  · exact Effect.Keeps.pure _

section Ticks

variable {transport : TransportWrite} {codec : Codec} {s : Heartbeat} {h rate time : ℚ}

/-- A heartbeat is due. -/
def Due (h rate time : ℚ) (s : Heartbeat) : Prop :=
  nextHeartbeat h rate (s.observe time).lastHeartbeatSent < time

instance (h rate time : ℚ) (s : Heartbeat) : Decidable (s.Due h rate time) :=
  inferInstanceAs (Decidable (_ < _))

/-- The frame of a heartbeat, written. -/
def beat (transport : TransportWrite) (codec : Codec) (s : Heartbeat) :
    Except PyError Unit × Writer :=
  writeFrame transport codec 8 0 none none none s.writer

/-- A tick where no heartbeat is due. -/
theorem heartbeatTick_quiet (hs : s.heartbeat = some h) (hh : 0 < h)
    (hdue : ¬ s.Due h rate time) :
    heartbeatTick transport codec rate time s = checkReceived h time (s.observe time) := by
  simp only [heartbeatTick, Effect.bind_run, Effect.get_run, hs, if_neg hh.ne',
    Effect.modify_run]
  rw [if_neg (show ¬ time > _ from hdue)]

/-- A tick that sends a heartbeat. -/
theorem heartbeatTick_sends (hs : s.heartbeat = some h) (hh : 0 < h)
    (hdue : s.Due h rate time) :
    heartbeatTick transport codec rate time s =
      match beat transport codec s with
      | (.ok _, writer) =>
          checkReceived h time
            { s.observe time with writer := writer, lastHeartbeatSent := time }
      | (.error e, writer) => (.error e, { s.observe time with writer := writer }) := by
  simp only [heartbeatTick, Effect.bind_run, Effect.get_run, hs, if_neg hh.ne',
    Effect.modify_run]
  rw [if_pos (show time > _ from hdue)]
  simp only [Effect.bind_run, sendHeartbeat, Effect.modify_run, beat, observe]
  cases writeFrame transport codec 8 0 none none none s.writer with
  | mk r writer => cases r <;> rfl

theorem checkReceived_state : (checkReceived h time s).2 = s := by
  simp only [checkReceived, Effect.bind_run, Effect.get_run]
  split <;> rfl

theorem checkReceived_raises :
    (checkReceived h time s).1 = .error tooManyHeartbeatsMissed ↔
      s.lastHeartbeatReceived ≠ 0 ∧ twoHeartbeatsInterval h s.lastHeartbeatReceived < time := by
  simp only [checkReceived, Effect.bind_run, Effect.get_run]
  split
  next hmissed => simp [hmissed]
  next hmissed => simp only [Effect.pure_run, reduceCtorEq, false_iff]; exact hmissed

/-- The transport raises no `ConnectionForced` of a tick. -/
def Unforced (transport : TransportWrite) : Prop :=
  ∀ handed, transport handed ≠ .error tooManyHeartbeatsMissed

/-- A heartbeat that cannot be written raises what the transport raised, or has no room in
the buffer. -/
theorem beat_error {e : PyError} {writer : Writer}
    (hbeat : beat transport codec s = (.error e, writer)) :
    (∃ handed, transport handed = .error e) ∨ e = .structError := by
  have hwf : (Frame.mk 8 0 []).WellFormed := ⟨by decide, by decide, by decide⟩
  have hframes : fastFrames 8 0 none none none = .ok [Frame.mk 8 0 []] := rfl
  rw [beat, writeFrame_bare] at hbeat
  by_cases hroom : 8 ≤ (s.writer.resized s.writer.chunkSize).buf.length
  · obtain ⟨buf, -, hrun⟩ := writeFast_run transport s.writer.chunkSize s.writer hframes
      ⟨by simpa using hwf, by simpa [Frame.octets_length] using hroom⟩
    left
    refine ⟨s.writer.handed ++ [[Frame.mk 8 0 []].flatMap Frame.octets], ?_⟩
    cases hwrite : transport (s.writer.handed ++ [[Frame.mk 8 0 []].flatMap Frame.octets]) with
    | ok _ =>
        rw [hwrite] at hrun
        rw [show Option.map Text.toBytes none = none from rfl, Effect.bind_ok _ hrun] at hbeat
        simp [countSent] at hbeat
    | error e' =>
        rw [hwrite] at hrun
        rw [show Option.map Text.toBytes none = none from rfl, Effect.bind_error _ hrun] at hbeat
        obtain ⟨rfl, -⟩ : e' = e ∧ _ := by simpa using hbeat
        rfl
  · right
    have hpack : packInto 0 8 0 [] (s.writer.resized s.writer.chunkSize) =
        (.error .structError, s.writer.resized s.writer.chunkSize) := by
      have hframe := packFrame_ok hwf
      dsimp only at hframe
      simp only [packInto, hframe, Effect.bind_run, Effect.liftExcept_run, Effect.get_run]
      have hfull : ¬ 0 + (Frame.mk 8 0 []).octets.length ≤
          (s.writer.resized s.writer.chunkSize).buf.length := by
        rw [Nat.zero_add, Frame.octets_length]
        exact hroom
      rw [if_neg hfull]
      rfl
    have hrun : writeFast transport 8 0 none none none s.writer.chunkSize s.writer =
        (.error .structError, s.writer.resized s.writer.chunkSize) := by
      rw [writeFast, Effect.bind_ok _ (Effect.modify_run _),
        Effect.bind_ok _ (Effect.liftExcept_run (methodPayload 8 none none))]
      exact Effect.bind_error _ hpack
    rw [show Option.map Text.toBytes none = none from rfl, Effect.bind_error _ hrun] at hbeat
    obtain ⟨rfl, -⟩ : PyError.structError = e ∧ _ := by simpa using hbeat
    rfl

/-- What a tick does on the receiving side, whatever comes of it. -/
theorem heartbeatTick_receives (transport : TransportWrite) (codec : Codec) (rate time : ℚ)
    (hs : s.heartbeat = some h) (hh : 0 < h) :
    ∃ writer sent, (heartbeatTick transport codec rate time s).2 =
      { s.observe time with writer := writer, lastHeartbeatSent := sent } := by
  by_cases hdue : s.Due h rate time
  · rw [heartbeatTick_sends hs hh hdue]
    cases hbeat : beat transport codec s with
    | mk r writer =>
        cases r with
        | ok _ => exact ⟨writer, time, checkReceived_state⟩
        | error e => exact ⟨writer, _, rfl⟩
  · rw [heartbeatTick_quiet hs hh hdue, checkReceived_state]
    exact ⟨s.writer, _, rfl⟩

/-- A tick that raises has found the last frame it knows of too old. -/
theorem heartbeatTick_forced (hunforced : Unforced transport) (hs : s.heartbeat = some h)
    (hh : 0 < h)
    (hraise : (heartbeatTick transport codec rate time s).1 = .error tooManyHeartbeatsMissed) :
    twoHeartbeatsInterval h (s.observe time).lastHeartbeatReceived < time := by
  by_cases hdue : s.Due h rate time
  · rw [heartbeatTick_sends hs hh hdue] at hraise
    cases hbeat : beat transport codec s with
    | mk r writer =>
        rw [hbeat] at hraise
        cases r with
        | ok _ => exact (checkReceived_raises.mp hraise).2
        | error e =>
            obtain rfl : e = tooManyHeartbeatsMissed := by simpa using hraise
            rcases beat_error hbeat with ⟨handed, h⟩ | h
            · exact absurd h (hunforced handed)
            · simp [tooManyHeartbeatsMissed] at h
  · rw [heartbeatTick_quiet hs hh hdue] at hraise
    exact (checkReceived_raises.mp hraise).2

/-- A tick that can send its heartbeat raises once the last frame is too old. -/
theorem heartbeatTick_forces (hs : s.heartbeat = some h) (hh : 0 < h)
    (hbeat : (beat transport codec s).1 = .ok ())
    (hreceived : (s.observe time).lastHeartbeatReceived ≠ 0)
    (hmissed : twoHeartbeatsInterval h (s.observe time).lastHeartbeatReceived < time) :
    (heartbeatTick transport codec rate time s).1 = .error tooManyHeartbeatsMissed := by
  by_cases hdue : s.Due h rate time
  · rw [heartbeatTick_sends hs hh hdue]
    cases hrun : beat transport codec s with
    | mk r writer =>
        rw [hrun] at hbeat
        subst hbeat
        exact checkReceived_raises.mpr ⟨hreceived, hmissed⟩
  · rw [heartbeatTick_quiet hs hh hdue]
    exact checkReceived_raises.mpr ⟨hreceived, hmissed⟩

end Ticks

/-! Runs -/

/-- What the receiving side of the state says of the events so far. -/
structure Knows (h : ℚ) (events : List (ℚ × Event)) (s : Heartbeat) : Prop where
  heartbeat : s.heartbeat = some h
  counted : ∀ n, s.prevRecv = some n → n ≤ s.handler.bytesRecv
  /-- Where no frame has come since the last tick, none is later than it thinks. -/
  frames : s.prevRecv = some s.handler.bytesRecv →
    ∀ time frame, (time, .frame frame) ∈ events → time ≤ s.lastHeartbeatReceived
  past : s.prevRecv ≠ none → ∃ event ∈ events, s.lastHeartbeatReceived = event.1

variable {transport : TransportWrite} {codec : Codec} {s : Heartbeat} {h : ℚ}
  {events : List (ℚ × Event)}

theorem Knows.observe {time : ℚ} (hknows : s.Knows h events)
    (hbefore : ∀ earlier ∈ events, earlier.1 ≤ time) :
    ∀ t frame, (t, .frame frame) ∈ events → t ≤ (s.observe time).lastHeartbeatReceived := by
  intro t frame hframe
  simp only [Heartbeat.observe]
  split
  · exact hbefore _ hframe
  next hsame => exact hknows.frames (not_not.mp hsame) t frame hframe

theorem Knows.noted (hknows : s.Knows h events) (time : ℚ) {event : Event} :
    ∃ e ∈ events ++ [(time, event)], (s.observe time).lastHeartbeatReceived = e.1 := by
  simp only [Heartbeat.observe]
  split
  · exact ⟨(time, event), by simp, rfl⟩
  next hsame =>
    obtain ⟨e, he, htime⟩ := hknows.past (by simp [not_not.mp hsame])
    exact ⟨e, by simp [he], htime⟩

theorem Knows.step (hh : 0 < h) (hknows : s.Knows h events) {event : ℚ × Event}
    (hbefore : ∀ earlier ∈ events, earlier.1 ≤ event.1) :
    (s.step transport codec event).Knows h (events ++ [event]) := by
  obtain ⟨time, event⟩ := event
  cases event with
  | frame frame =>
      refine ⟨hknows.heartbeat, fun n hn => ?_, fun hsame => ?_, fun hticked => ?_⟩
      · have := hknows.counted n hn
        simp only [Heartbeat.step, onFrame_bytesRecv]
        omega
      · simp only [Heartbeat.step, onFrame_bytesRecv] at hsame
        exact absurd (hknows.counted _ hsame) (by omega)
      · obtain ⟨event, hevent, htime⟩ := hknows.past hticked
        exact ⟨event, by simp [hevent], htime⟩
  | write call =>
      refine ⟨hknows.heartbeat, hknows.counted, fun hsame t frame hframe => ?_, fun hticked => ?_⟩
      · exact hknows.frames hsame t frame (by simpa using hframe)
      · obtain ⟨event, hevent, htime⟩ := hknows.past hticked
        exact ⟨event, by simp [hevent], htime⟩
  | tick rate =>
      obtain ⟨writer, sent, hrun⟩ :=
        heartbeatTick_receives transport codec rate time hknows.heartbeat hh
      simp only [Heartbeat.step, hrun]
      refine ⟨hknows.heartbeat, fun n hn => ?_, fun _ t frame hframe => ?_, fun _ => ?_⟩
      · obtain rfl : s.handler.bytesRecv = n := by simpa [Heartbeat.observe] using hn
        exact le_refl _
      · exact hknows.observe hbefore t frame (by simpa using hframe)
      · exact hknows.noted time

theorem run_append (s : Heartbeat) (events events' : List (ℚ × Event)) :
    s.run transport codec (events ++ events') =
      (s.run transport codec events).run transport codec events' :=
  List.foldl_append

theorem run_knows (transport : TransportWrite) (codec : Codec)
    (hh : 0 < h) (handler : Handler) (writer : Writer) (htimed : Timed events) :
    ((negotiated h handler writer).run transport codec events).Knows h events := by
  induction events using List.reverseRecOn with
  | nil =>
      refine ⟨rfl, by simp [run, negotiated], by simp, by simp [run, negotiated]⟩
  | append_singleton events event ih =>
      obtain ⟨hevents, -, hbefore⟩ := htimed.before
      rw [run, List.foldl_append]
      exact (ih hevents).step hh hbefore

/-- No frame has come since a tick that knew the last one to be of `last`. -/
structure Silent (h last : ℚ) (s : Heartbeat) : Prop where
  heartbeat : s.heartbeat = some h
  uncounted : s.prevRecv = some s.handler.bytesRecv
  received : s.lastHeartbeatReceived = last

theorem Silent.observe {last time : ℚ} (hsilent : s.Silent h last) :
    (s.observe time).lastHeartbeatReceived = last := by
  simp only [Heartbeat.observe, hsilent.uncounted, ne_eq, not_true_eq_false, if_false]
  exact hsilent.received

theorem Silent.step (hh : 0 < h) {last : ℚ} (hsilent : s.Silent h last) {event : ℚ × Event}
    (hframe : ∀ frame, event.2 ≠ .frame frame) :
    (s.step transport codec event).Silent h last := by
  obtain ⟨time, event⟩ := event
  cases event with
  | frame frame => exact absurd rfl (hframe frame)
  | write call => exact ⟨hsilent.heartbeat, hsilent.uncounted, hsilent.received⟩
  | tick rate =>
      obtain ⟨writer, sent, hrun⟩ :=
        heartbeatTick_receives transport codec rate time hsilent.heartbeat hh
      simp only [Heartbeat.step, hrun]
      exact ⟨hsilent.heartbeat, rfl, hsilent.observe⟩

theorem Silent.run (transport : TransportWrite) (codec : Codec)
    (hh : 0 < h) {last : ℚ} (hsilent : s.Silent h last)
    (hframes : ∀ time frame, (time, .frame frame) ∉ events) :
    (s.run transport codec events).Silent h last := by
  induction events generalizing s with
  | nil => exact hsilent
  | cons event events ih =>
      apply ih (hsilent.step hh _) fun time frame hmem => hframes time frame (by simp [hmem])
      intro frame hevent
      exact hframes event.1 frame (by simp [← hevent])

/-- After a tick, no frame has come since. -/
theorem run_silent (transport : TransportWrite) (codec : Codec)
    (hh : 0 < h) (handler : Handler) (writer : Writer) {time rate : ℚ}
    (htimed : Timed (events ++ [(time, .tick rate)])) :
    let s := (negotiated h handler writer).run transport codec (events ++ [(time, .tick rate)])
    s.Silent h s.lastHeartbeatReceived := by
  intro s
  have hknows := run_knows transport codec hh handler writer
    htimed.before.1
  refine ⟨(run_knows transport codec hh handler writer htimed).heartbeat, ?_, rfl⟩
  obtain ⟨writer', sent, hrun⟩ :=
    heartbeatTick_receives transport codec rate time hknows.heartbeat hh
  simp only [s, run_append, run, List.foldl_cons, List.foldl_nil, Heartbeat.step]
  rw [run] at hrun
  rw [hrun]
  rfl

/-- A tick that raises has had no frame for two intervals. And where no frame comes after
a tick, a tick later than two intervals after it, as floats add them, raises, unless it cannot
write its heartbeat. -/
theorem heartbeatTick_detects (transport : TransportWrite) (codec : Codec)
    (hunforced : Unforced transport) {h : ℚ} (hh : 0 < h) (hfloat : IsFloat h)
    (handler : Handler) (writer : Writer) :
    (∀ (events : List (ℚ × Event)) (time rate : ℚ), Timed (events ++ [(time, .tick rate)]) →
      (heartbeatTick transport codec rate time
        ((negotiated h handler writer).run transport codec events)).1 =
          .error tooManyHeartbeatsMissed →
      ∀ received frame, (received, .frame frame) ∈ events →
        ¬ (time - 2 * h ≤ received ∧ received ≤ time)) ∧
    (∀ (earlier between : List (ℚ × Event)) (last time rate rate' : ℚ),
      let events := earlier ++ [(last, .tick rate)] ++ between
      let s := (negotiated h handler writer).run transport codec events
      Timed (events ++ [(time, .tick rate')]) → twoHeartbeatsInterval h last < time →
      (∀ received frame, (received, .frame frame) ∉ between) →
      (beat transport codec s).1 = .ok () →
      (heartbeatTick transport codec rate' time s).1 = .error tooManyHeartbeatsMissed) := by
  constructor
  · intro events time rate htimed hraise received frame hframe
    obtain ⟨hevents, -, hbefore⟩ := htimed.before
    have hknows := run_knows transport codec hh handler writer hevents
    have hlate := heartbeatTick_forced hunforced hknows.heartbeat hh hraise
    have hnoticed := hknows.observe hbefore received frame hframe
    have hclock : IsFloat time := htimed.clock time rate (by simp)
    rintro ⟨hfrom, -⟩
    apply absurd hlate
    apply not_lt.mpr
    apply hclock.le_nearest
    rw [hfloat.two_mul]
    linarith
  · intro earlier between last time rate rate' events s htimed hlate hframes hbeat
    obtain ⟨hevents, -, -⟩ := htimed.before
    have hstart : Timed (earlier ++ [(last, .tick rate)]) := hevents.of_append
    have hknows := run_knows transport codec hh handler writer hstart
    have hsilent := run_silent transport codec hh handler writer hstart
    obtain ⟨event, hevent, hreceived⟩ := hknows.past (by simp [hsilent.uncounted])
    have hpositive : 0 < event.1 := hstart.positive event hevent
    have hpast : event.1 ≤ last := by
      rcases List.mem_append.mp hevent with hmem | hmem
      · exact hstart.before.2.2 event hmem
      · rw [List.mem_singleton.mp hmem]
    have hend := hsilent.run transport codec hh hframes
    rw [← run_append] at hend
    apply heartbeatTick_forces hend.heartbeat hh hbeat
    · rw [hend.observe, hreceived]
      exact hpositive.ne'
    · rw [hend.observe, hreceived]
      calc twoHeartbeatsInterval h event.1 ≤ twoHeartbeatsInterval h last :=
            nearest_mono (add_le_add_left hpast _)
        _ < time := hlate

/-- A second of heartbeat, a frame and a tick: the tick three seconds later raises. -/
theorem heartbeatTick_detects_silence :
    let transport : TransportWrite := fun _ => .ok ()
    let codec : Codec := fun _ _ => .error .lookupError
    let writer : Writer := { frameMax := 16, buf := List.replicate 8 0 }
    let s := (negotiated 1 {} writer).run transport codec
      [(1, .frame ⟨8, 0, []⟩), (2, .tick 2)]
    (heartbeatTick transport codec 2 5 s).1 = .error tooManyHeartbeatsMissed ∧
      ¬ ((5 : ℚ) - 2 * 1 ≤ 1 ∧ (1 : ℚ) ≤ 5) := by
  intro transport codec writer s
  have hunforced : Unforced transport := by simp [Unforced, transport]
  obtain ⟨hsound, hcomplete⟩ :=
    heartbeatTick_detects transport codec hunforced (h := 1) (by norm_num) (by decide +kernel) {}
      writer
  have htimed : Timed ([(1, .frame ⟨8, 0, []⟩)] ++ [(2, .tick 2)] ++ [] ++ [(5, .tick 2)]) := by
    refine ⟨by norm_num, by norm_num, fun time rate htick => ?_⟩
    simp only [List.cons_append, List.nil_append, List.append_nil, List.mem_cons, Prod.mk.injEq,
      reduceCtorEq, and_false, Event.tick.injEq, List.not_mem_nil, or_false, false_or] at htick
    rcases htick with ⟨rfl, -⟩ | ⟨rfl, -⟩
    · decide +kernel
    · decide +kernel
  have hraise := hcomplete [(1, .frame ⟨8, 0, []⟩)] [] 2 5 2 2 htimed (by decide +kernel) (by simp)
    (by decide +kernel)
  exact ⟨hraise, hsound _ 5 2 htimed hraise 1 ⟨8, 0, []⟩ (by simp)⟩

/-- A tick that comes more than two intervals of ten seconds after the last one and its frame,
and the sum is rounded up to the time of the tick itself. -/
theorem heartbeatTick_detects_rounded :
    let transport : TransportWrite := fun _ => .ok ()
    let codec : Codec := fun _ _ => .error .lookupError
    let writer : Writer := { frameMax := 16, buf := List.replicate 8 0 }
    let last : ℚ := 108 + 3 / 2 ^ 46
    let time : ℚ := 128 + 1 / 2 ^ 44
    let s := (negotiated 10 {} writer).run transport codec
      [(1, .frame ⟨8, 0, []⟩), (last, .tick 2)]
    IsFloat last ∧ IsFloat time ∧ last + 2 * 10 < time ∧
      (beat transport codec s).1 = .ok () ∧
      (heartbeatTick transport codec 2 time s).1 = .ok () := by
  decide +kernel

end Heartbeat

end PyAmqp
