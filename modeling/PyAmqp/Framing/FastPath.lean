import PyAmqp.Framing.FrameLimit

/-!
The fast path and its buffer. A content goes there when its arguments, properties and
body leave 40 octets of a chunk: three frames of overhead 8, a method signature and the
fixed part of a header. The buffer has room for a chunk by then, whatever `frame_max` was
before, and what is handed over is what this call has packed.
-/

namespace PyAmqp

/-- The frames of a content on the fast path. -/
def contentFrames (frameType channel : Nat) (sig : MethodSig) (args properties body : Octets) :
    List Frame :=
  ⟨frameType, channel, if frameType = 1 then methodOctets sig args else []⟩ ::
    ⟨2, channel, headerOctets sig body.length properties⟩ ::
      (if body = [] then [] else [⟨3, channel, body⟩])

/-- The numbers of a call fit the fields they are packed into. -/
def FieldsFit (frameType channel : Nat) (sig : MethodSig) : Prop :=
  frameType < 2 ^ 8 ∧ channel < 2 ^ 16 ∧ sig.1 < 2 ^ 16 ∧ (frameType = 1 → sig.2 < 2 ^ 16)

instance (frameType channel : Nat) (sig : MethodSig) :
    Decidable (FieldsFit frameType channel sig) :=
  inferInstanceAs (Decidable (_ ∧ _ ∧ _ ∧ (_ → _)))

section Frames

variable {frameType channel : Nat} {sig : MethodSig} {args properties body : Octets}

/-- `FRAME_OVERHEAD` is all there is beside the arguments, the properties and the body. -/
theorem contentFrames_length (frameType channel : Nat) (sig : MethodSig)
    (args properties body : Octets) :
    ((contentFrames frameType channel sig args properties body).flatMap Frame.octets).length ≤
      args.length + properties.length + body.length + frameOverhead := by
  unfold contentFrames frameOverhead
  by_cases htype : frameType = 1 <;> by_cases hbody : body = [] <;>
    simp [htype, hbody] <;> omega

theorem fastFrames_contentFrames (hfit : FieldsFit frameType channel sig)
    (hlength : body.length < 2 ^ 64) (args properties : Octets) :
    fastFrames frameType channel (some sig) (some args) (some (properties, body)) =
      .ok (contentFrames frameType channel sig args properties body) := by
  obtain ⟨-, -, hclass, hmethod⟩ := hfit
  have hpayload : methodPayload frameType (some sig) (some args) =
      .ok (if frameType = 1 then methodOctets sig args else []) := by
    by_cases htype : frameType = 1
    · subst htype
      exact methodPayload_ok hclass (hmethod rfl) args
    · simp [methodPayload, htype]
  rw [fastFrames, hpayload]
  simp only [headerPayload_ok hclass hlength, ok_bind, pure, Except.pure, contentFrames]

/-- The frames are well-formed: a chunk is shorter than a size field can say. -/
theorem contentFrames_wellFormed (hfit : FieldsFit frameType channel sig)
    (hlength : args.length + properties.length + body.length + frameOverhead < 2 ^ 32) :
    ∀ frame ∈ contentFrames frameType channel sig args properties body, frame.WellFormed := by
  obtain ⟨htype, hchannel, -, -⟩ := hfit
  unfold frameOverhead at hlength
  intro frame hframe
  rcases List.mem_cons.mp hframe with rfl | hframe
  · refine ⟨htype, hchannel, ?_⟩
    split
    · rw [methodOctets_length]
      omega
    · simp
  rcases List.mem_cons.mp hframe with rfl | hframe
  · refine ⟨by simp, hchannel, ?_⟩
    rw [headerOctets_length]
    omega
  · by_cases hbody : body = []
    · simp [hbody] at hframe
    · obtain rfl : frame = ⟨3, channel, body⟩ := by simpa [hbody] using hframe
      exact ⟨by simp, hchannel, by simp only; omega⟩

/-- Frames that can be packed have numbers that fit. -/
theorem fieldsFit_of_fastFrames {frames : List Frame}
    (h : fastFrames frameType channel (some sig) (some args) (some (properties, body)) =
      .ok frames) (hwf : ∀ frame ∈ frames, frame.WellFormed) :
    FieldsFit frameType channel sig := by
  unfold fastFrames at h
  cases hmethod : methodPayload frameType (some sig) (some args) with
  | error e => simp [hmethod] at h
  | ok method =>
      cases hheader : headerPayload (some sig) body.length properties with
      | error e => simp [hmethod, hheader] at h
      | ok header =>
          simp only [hmethod, hheader, ok_bind, pure, Except.pure, Except.ok.injEq] at h
          subst h
          have hfirst := hwf _ (List.mem_cons_self ..)
          refine ⟨hfirst.frameType, hfirst.channel, ?_, ?_⟩
          · simp only [headerPayload] at hheader
            cases hclass : pack 2 (sig.1 : Int) with
            | error e => simp [hclass] at hheader
            | ok octets => exact (pack_nat_ok hclass).1
          · intro htype
            subst htype
            exact (methodPayload_eq_ok hmethod).2.1

end Frames

section Call

variable {codec : Codec} {frameType channel : Nat} {sig : MethodSig} {args : Text}
  {content : Message} {body properties : Octets} {w : Writer}

/-- When the packing starts, the buffer has room for all frames. -/
theorem contentFrames_room (hsmall : ¬ Big w args.toBytes properties body) :
    ((contentFrames frameType channel sig args.toBytes properties body).flatMap
      Frame.octets).length ≤ (w.resized w.chunkSize).buf.length := by
  have hlength := contentFrames_length frameType channel sig args.toBytes properties body
  have hroom := w.resized_length w.chunkSize
  unfold Big at hsmall
  omega

theorem size_lt_of_small (hmax : w.frameMax < 2 ^ 32)
    (hsmall : ¬ Big w args.toBytes properties body) :
    args.toBytes.length + properties.length + body.length + frameOverhead < 2 ^ 32 := by
  unfold Big Writer.chunkSize at hsmall
  omega

/-- One call on the fast path. -/
theorem writeFrame_fast (transport : TransportWrite) (hmax : w.frameMax < 2 ^ 32)
    (hcontent : contentOctets codec content = .ok (body, properties))
    (hsmall : ¬ Big w args.toBytes properties body) :
    let octets := (contentFrames frameType channel sig args.toBytes properties body).flatMap
      Frame.octets
    let call := writeFrame transport codec frameType channel (some sig) (some args)
      (some content) w
    if FieldsFit frameType channel sig then
      call.1 = transport (w.handed ++ [octets]) ∧ call.2.handed = w.handed ++ [octets]
    else (∃ e, call.1 = .error e) ∧ call.2.handed = w.handed := by
  intro octets call
  have hsize := size_lt_of_small hmax hsmall
  have hcall : call = (writeFast transport frameType channel (some sig) (some args.toBytes)
      (some (properties, body)) w.chunkSize >>= fun _ => countSent) w := by
    simp only [call]
    rw [writeFrame_content transport frameType channel (some sig) args w hcontent,
      if_neg hsmall]
  rw [hcall]
  split
  next hfit =>
    have hbody : body.length < 2 ^ 64 := by omega
    have hframes := fastFrames_contentFrames hfit hbody args.toBytes properties
    obtain ⟨buf, -, hrun⟩ := writeFast_run transport w.chunkSize w hframes
      ⟨contentFrames_wellFormed hfit hsize, contentFrames_room hsmall⟩
    obtain ⟨sent, hcount⟩ := bind_countSent hrun
    rw [hcount]
    exact ⟨rfl, rfl⟩
  next hfit =>
    obtain ⟨e, buf, -, hrun⟩ := writeFast_raises transport w.chunkSize w
      fun frames hframes hfits => hfit (fieldsFit_of_fastFrames hframes hfits.1)
    rw [Effect.bind_error _ hrun]
    exact ⟨⟨e, rfl⟩, rfl⟩

end Call

/-! Runs -/

theorem run_frameMax (transport : TransportWrite) (codec : Codec) {s : Session}
    (events : List WriterEvent) (hmax : s.writer.frameMax < 2 ^ 32)
    (htunes : ∀ limit, .tune limit ∈ events → limit < 2 ^ 32) :
    (events.foldl (Session.step transport codec) s).writer.frameMax < 2 ^ 32 := by
  induction events generalizing s with
  | nil => exact hmax
  | cons event events ih =>
      refine ih ?_ fun limit hlimit => htunes limit (by simp [hlimit])
      cases event with
      | tune limit =>
          have hlimit := htunes limit (by simp)
          simp only [Session.step, Writer.onTune]
          split
          · exact hmax
          · exact hlimit
      | write call =>
          have hkeeps := writeFrame_frameMax transport codec call.frameType call.channel
            call.methodSig call.args call.content s.writer
          rw [← hkeeps] at hmax
          exact hmax

/-- Whatever was written and tuned before, a content on the fast path has room for its
frames in the buffer, and the one view handed over holds these frames and nothing else.
Only numbers too large for their fields keep it from being written. -/
theorem run_fastPath (transport : TransportWrite) (codec : Codec) {frameMax : Nat}
    {w : Writer} (events : List WriterEvent) (hmax : 16 ≤ frameMax ∧ frameMax < 2 ^ 32)
    (hnew : Writer.new frameMax = .ok w)
    (htunes : ∀ limit, .tune limit ∈ events → 16 ≤ limit ∧ limit < 2 ^ 32)
    (frameType channel : Nat) (sig : MethodSig) (args : Text) (content : Message)
    (body properties : Octets)
    (hcontent : contentOctets codec content = .ok (body, properties)) :
    let w := (events.foldl (Session.step transport codec) { writer := w }).writer
    let octets := (contentFrames frameType channel sig args.toBytes properties body).flatMap
      Frame.octets
    let call := writeFrame transport codec frameType channel (some sig) (some args)
      (some content) w
    ¬ Big w args.toBytes properties body →
      octets.length ≤ (w.resized w.chunkSize).buf.length ∧
        if FieldsFit frameType channel sig then
          call.1 = transport (w.handed ++ [octets]) ∧ call.2.handed = w.handed ++ [octets]
        else (∃ e, call.1 = .error e) ∧ call.2.handed = w.handed := by
  intro w' octets call hsmall
  have hstart : w.frameMax < 2 ^ 32 := by
    obtain rfl : { frameMax, buf := List.replicate (frameMax - 8) 0 } = w := by
      simpa [Writer.new, show ¬ frameMax < 8 by omega] using hnew
    exact hmax.2
  have hlimit := run_frameMax transport codec (s := { writer := w }) events hstart
    fun limit hlimit => (htunes limit hlimit).2
  exact ⟨contentFrames_room hsmall, writeFrame_fast transport hlimit hcontent hsmall⟩

/-- A body of one octet, after one of forty and a tune to a smaller frame size. -/
theorem run_fastPath_smaller :
    let codec : Codec := fun _ _ => .error .lookupError
    let publish (body : Octets) : Message := { body := .bytes body }
    let w := ([WriterEvent.write
        { frameType := 1, channel := 1, methodSig := some Spec.Basic.publish
          args := some (.str []), content := some (publish (List.replicate 40 7)) },
      .tune 64].foldl (Session.step (fun _ => .ok ()) codec)
        { writer := { frameMax := 128, buf := List.replicate 120 0 } }).writer
    let call := writeFrame (fun _ => .ok ()) codec 1 1 (some Spec.Basic.publish) (some (.str []))
      (some (publish [9])) w
    call.2.handed = w.handed ++
      [(contentFrames 1 1 Spec.Basic.publish (Text.str []).toBytes [0, 0] [9]).flatMap
        Frame.octets] := by
  intro codec publish w call
  have htunes : ∀ limit, WriterEvent.tune limit ∈ [WriterEvent.write
        { frameType := 1, channel := 1, methodSig := some Spec.Basic.publish
          args := some (.str []), content := some (publish (List.replicate 40 7)) },
      .tune 64] → 16 ≤ limit ∧ limit < 2 ^ 32 := by
    intro limit hlimit
    obtain rfl : limit = 64 := by simpa using hlimit
    decide
  have hnew : Writer.new 128 = .ok { frameMax := 128, buf := List.replicate 120 0 } := rfl
  obtain ⟨-, hhanded⟩ := run_fastPath (fun _ => .ok ()) codec _ (by decide) hnew htunes 1 1
    Spec.Basic.publish (.str []) (publish [9]) [9] [0, 0] rfl (by decide +kernel)
  rw [if_pos (by decide)] at hhanded
  simp only [call, w]
  exact hhanded.2

end PyAmqp
