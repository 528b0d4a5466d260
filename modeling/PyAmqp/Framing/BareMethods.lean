import PyAmqp.Framing.FrameLimit

/-!
Methods without a content. They take the fast path whatever their size, so the buffer
decides which of them are written: it holds a chunk, eight octets less than a frame.
-/

namespace PyAmqp

section Buffer

variable {transport : TransportWrite} {w : Writer}

theorem writeFast_buf_length (frameType channel : Nat) (methodSig : Option MethodSig)
    (args : Option Octets) (content : Option (Octets × Octets))
    (hroom : w.chunkSize ≤ w.buf.length) :
    (writeFast transport frameType channel methodSig args content w.chunkSize w).2.buf.length =
      w.buf.length := by
  have hlength := w.resized_length w.chunkSize
  by_cases hfits : ∃ frames, fastFrames frameType channel methodSig args content = .ok frames ∧
      Fits (w.resized w.chunkSize).buf.length frames
  · obtain ⟨frames, hframes, hfits⟩ := hfits
    obtain ⟨buf, hbuf, hrun⟩ := writeFast_run transport w.chunkSize w hframes hfits
    rw [hrun]
    simp only
    omega
  · obtain ⟨e, buf, hbuf, hrun⟩ := writeFast_raises transport w.chunkSize w
      fun frames hframes hfit => hfits ⟨frames, hframes, hfit⟩
    rw [hrun]
    simp only
    omega

/-- A buffer that holds a chunk keeps its length. -/
theorem writeFrame_buf_length (codec : Codec) (frameType channel : Nat)
    (methodSig : Option MethodSig) (args : Option Text) (content : Option Message)
    (hroom : w.chunkSize ≤ w.buf.length) :
    (writeFrame transport codec frameType channel methodSig args content w).2.buf.length =
      w.buf.length := by
  have hcounted : ∀ work : Effect Writer PyError Unit, (work w).2.buf.length = w.buf.length →
      ((work >>= fun _ => countSent) w).2.buf.length = w.buf.length := by
    intro work hwork
    obtain ⟨sent, hrun⟩ := bind_countSent (rfl : work w = ((work w).1, (work w).2))
    rw [hrun]
    exact hwork
  cases content with
  | none =>
      rw [writeFrame_bare]
      exact hcounted _ (writeFast_buf_length _ _ _ _ _ hroom)
  | some content =>
      cases hcontent : contentOctets codec content with
      | error e =>
          rw [writeFrame_content_error transport frameType channel methodSig args w hcontent]
      | ok value =>
          cases args with
          | none => rw [writeFrame_content_argless transport frameType channel methodSig w hcontent]
          | some args =>
              rw [writeFrame_content transport frameType channel methodSig args w hcontent]
              apply hcounted
              split
              · exact congrArg List.length
                  (writeSlow_keeps (fun _ _ => rfl) transport _ _ _ _ _ _ _ w)
              · exact writeFast_buf_length _ _ _ _ _ hroom

end Buffer

/-- `frame_max` is this one, and the buffer has been made for it. -/
structure MadeFor (limit : Nat) (w : Writer) : Prop where
  frameMax : w.frameMax = limit
  buf : w.buf.length = limit - 8

theorem MadeFor.step {frameMax : Nat} {s : Session} (h : MadeFor frameMax s.writer)
    (transport : TransportWrite) (codec : Codec) {event : WriterEvent}
    (htune : ∀ limit, event = .tune limit → limit = 0 ∨ limit = frameMax) :
    MadeFor frameMax (s.step transport codec event).writer := by
  obtain ⟨hmax, hbuf⟩ := h
  cases event with
  | tune limit =>
      refine ⟨?_, hbuf⟩
      have hlimit := htune limit rfl
      simp only [Session.step, Writer.onTune]
      split <;> omega
  | write call =>
      have hroom : s.writer.chunkSize ≤ s.writer.buf.length := by
        unfold Writer.chunkSize
        omega
      constructor
      · exact (writeFrame_frameMax transport codec _ _ _ _ _ _).trans hmax
      · exact (writeFrame_buf_length codec _ _ _ _ _ hroom).trans hbuf

theorem MadeFor.run {frameMax : Nat} {s : Session} (h : MadeFor frameMax s.writer)
    (transport : TransportWrite) (codec : Codec) (events : List WriterEvent)
    (htunes : ∀ limit, .tune limit ∈ events → limit = 0 ∨ limit = frameMax) :
    MadeFor frameMax (events.foldl (Session.step transport codec) s).writer := by
  induction events generalizing s with
  | nil => exact h
  | cons event events ih =>
      exact ih (h.step transport codec fun limit hlimit => htunes limit (by simp [hlimit]))
        fun limit hlimit => htunes limit (by simp [hlimit])

/-- The call has handed over this frame and nothing else, and raises only what
`transport.write` does. -/
def SentAlone (transport : TransportWrite) (w : Writer) (frame : Frame)
    (call : Except PyError Unit × Writer) : Prop :=
  call.1 = transport (w.handed ++ [frame.octets]) ∧ call.2.handed = w.handed ++ [frame.octets]

/-- A method without content is written where the whole frame has room in the buffer. -/
theorem writeFrame_bare_iff {frameMax : Nat} {w : Writer} (h : MadeFor frameMax w)
    (transport : TransportWrite) (codec : Codec) {channel : Nat} {sig : MethodSig} {args : Text}
    (hchannel : channel < 2 ^ 16) (h1 : sig.1 < 2 ^ 16) (h2 : sig.2 < 2 ^ 16)
    (hlength : args.toBytes.length + 4 < 2 ^ 32) :
    SentAlone transport w ⟨1, channel, methodOctets sig args.toBytes⟩
        (writeFrame transport codec 1 channel (some sig) (some args) none w) ↔
      12 + args.toBytes.length ≤ frameMax - 8 := by
  obtain ⟨hmax, hbuf⟩ := h
  have hframes : fastFrames 1 channel (some sig) (some args.toBytes) none =
      .ok [⟨1, channel, methodOctets sig args.toBytes⟩] := by
    simp [fastFrames, methodPayload_ok h1 h2, pure, Except.pure]
  have hroom : (w.resized w.chunkSize).buf.length = frameMax - 8 := by
    have hresized := w.resized_length w.chunkSize
    unfold Writer.chunkSize at hresized ⊢
    omega
  have hfits : Fits (frameMax - 8) [⟨1, channel, methodOctets sig args.toBytes⟩] ↔
      12 + args.toBytes.length ≤ frameMax - 8 := by
    have hwf : (Frame.mk 1 channel (methodOctets sig args.toBytes)).WellFormed := by
      refine ⟨by simp, hchannel, ?_⟩
      rw [methodOctets_length]
      omega
    simp only [Fits, List.mem_singleton, forall_eq, hwf, true_and, List.flatMap_singleton,
      Frame.octets_length, methodOctets_length]
    omega
  rw [writeFrame_bare, Option.map_some, ← hfits]
  constructor
  · rintro ⟨-, hhanded⟩
    by_contra hfull
    obtain ⟨e, buf, -, hrun⟩ := writeFast_raises transport w.chunkSize w (by
      intro frames hframes'
      obtain rfl := Except.ok.inj (hframes.symm.trans hframes')
      rwa [hroom])
    rw [Effect.bind_error _ hrun] at hhanded
    simp at hhanded
  · intro hfits
    obtain ⟨buf, -, hrun⟩ := writeFast_run transport w.chunkSize w hframes (by rwa [hroom])
    obtain ⟨sent, hcount⟩ := bind_countSent hrun
    rw [hcount, List.flatMap_singleton]
    exact ⟨rfl, rfl⟩

/-- Of the methods whose frame is at most `frame_max` octets long, those are written whose
frame is eight octets shorter. -/
theorem run_bareMethod (transport : TransportWrite) (codec : Codec) {frameMax : Nat} {w : Writer}
    (events : List WriterEvent) (hmin : 16 ≤ frameMax) (hmax : frameMax < 2 ^ 32)
    (hnew : Writer.new frameMax = .ok w)
    (htunes : ∀ limit, .tune limit ∈ events → limit = 0 ∨ limit = frameMax)
    (channel : Nat) (sig : MethodSig) (args : Text) (hchannel : channel < 2 ^ 16)
    (h1 : sig.1 < 2 ^ 16) (h2 : sig.2 < 2 ^ 16)
    (hfits : (Frame.mk 1 channel (methodOctets sig args.toBytes)).octets.length ≤ frameMax) :
    let w := (events.foldl (Session.step transport codec) { writer := w }).writer
    SentAlone transport w ⟨1, channel, methodOctets sig args.toBytes⟩
        (writeFrame transport codec 1 channel (some sig) (some args) none w) ↔
      12 + args.toBytes.length ≤ frameMax - 8 := by
  intro w'
  have hstart : MadeFor frameMax w := by
    obtain rfl : { frameMax, buf := List.replicate (frameMax - 8) 0 } = w := by
      simpa [Writer.new, show ¬ frameMax < 8 by omega] using hnew
    exact ⟨rfl, List.length_replicate⟩
  rw [Frame.octets_length, methodOctets_length] at hfits
  exact writeFrame_bare_iff (hstart.run transport codec events htunes) transport codec hchannel
    h1 h2 (by omega)

/-- `Queue.Declare` of twelve octets of arguments, after a publish. -/
theorem run_bareMethod_declare :
    let codec : Codec := fun _ _ => .error .lookupError
    let w := ([WriterEvent.write
        { frameType := 1, channel := 1, methodSig := some Spec.Basic.publish
          args := some (.str []), content := some { body := .bytes [7] } }].foldl
      (Session.step (fun _ => .ok ()) codec)
        { writer := { frameMax := 64, buf := List.replicate 56 0 } }).writer
    SentAlone (fun _ => .ok ()) w
        ⟨1, 1, methodOctets Spec.Queue.declare (Text.bytes (List.replicate 12 0)).toBytes⟩
        (writeFrame (fun _ => .ok ()) codec 1 1 (some Spec.Queue.declare)
          (some (.bytes (List.replicate 12 0))) none w) ↔
      12 + (Text.bytes (List.replicate 12 0)).toBytes.length ≤ 64 - 8 :=
  run_bareMethod (fun _ => .ok ()) _ _ (by decide) (by decide) rfl (by simp) 1 Spec.Queue.declare
    (.bytes (List.replicate 12 0)) (by decide) (by decide) (by decide) (by decide)

/-- Twenty octets of arguments fill a frame of 32, and are not written. -/
theorem run_bareMethod_full :
    let w : Writer := { frameMax := 32, buf := List.replicate 24 0 }
    let args : Text := .bytes (List.replicate 20 0)
    Writer.new 32 = .ok w ∧
      (Frame.mk 1 1 (methodOctets Spec.Queue.declare args.toBytes)).octets.length ≤ 32 ∧
      ¬ SentAlone (fun _ => .ok ()) w ⟨1, 1, methodOctets Spec.Queue.declare args.toBytes⟩
        (writeFrame (fun _ => .ok ()) (fun _ _ => .error .lookupError) 1 1
          (some Spec.Queue.declare) (some args) none w) := by
  refine ⟨rfl, by decide, fun hsent => ?_⟩
  have hfits := (writeFrame_bare_iff ⟨rfl, rfl⟩ (fun _ => .ok ()) (fun _ _ => .error .lookupError)
    (by decide) (by decide) (by decide) (by decide)).mp hsent
  exact absurd hfits (by decide)

end PyAmqp
