import PyAmqp.Framing.WriterSpec
import PyAmqp.Base.Run

/-!
The negotiated frame size over runs of a connection: writes, and tunes that move
`frame_max` up or down. Body frames are cut to size and the fast path has no room for
larger frames; the slow path writes method and header frames of any size.
-/

namespace PyAmqp

namespace WriteCall

/-- The octets of the method frame, or of a frame of another type. -/
def methodSize (call : WriteCall) : Nat :=
  8 + if call.frameType = 1 then 4 + ((call.args.map Text.toBytes).getD []).length else 0

/-- The frames a call cannot split fit within `limit`. -/
def Framable (codec : Codec) (limit : Nat) (call : WriteCall) : Prop :=
  call.methodSize ≤ limit ∧
    ∀ content body properties, call.content = some content →
      contentOctets codec content = .ok (body, properties) → 20 + properties.length ≤ limit

/-- The method frame cannot be packed: a field is out of range. -/
def Unpackable (call : WriteCall) : Prop :=
  ∀ method, methodPayload call.frameType call.methodSig (call.args.map Text.toBytes) = .ok method →
    ¬ (Frame.mk call.frameType call.channel method).WellFormed

end WriteCall

inductive WriterEvent where
  | tune (frameMax : Nat)
  | write (call : WriteCall)

/-- What is known of a call afterwards: the limit it was made under, its result, and
what it handed to the transport. -/
structure WriteRecord where
  frameMax : Nat
  call : WriteCall
  result : Except PyError Unit
  handed : List Octets

/-- All frames kept the limit, and a call that cannot keep it raised without a write. -/
def WriteRecord.Respects (codec : Codec) (record : WriteRecord) : Prop :=
  (∀ octets ∈ record.handed, ∃ frames : List Frame, octets = frames.flatMap Frame.octets ∧
    ∀ frame ∈ frames, frame.WellFormed ∧ frame.octets.length ≤ record.frameMax) ∧
  (¬ record.call.Framable codec record.frameMax →
    (∃ e, record.result = .error e) ∧ record.handed = [])

structure Session where
  writer : Writer
  log : List WriteRecord := []

def Session.step (transport : TransportWrite) (codec : Codec) (s : Session) :
    WriterEvent → Session
  | .tune frameMax => { s with writer := s.writer.onTune frameMax }
  | .write call =>
      let (result, writer) := call.run transport codec s.writer
      { writer
        log := s.log ++ [{ frameMax := s.writer.frameMax, call, result
                           handed := writer.handed.drop s.writer.handed.length }] }

/-- A call that keeps the limit: a method on its own is small enough, or too large for
the output buffer; a content on the slow path has a method and a header that are small
enough. A method frame that cannot be packed is never written. -/
def Keeps (codec : Codec) (w : Writer) (call : WriteCall) : Prop :=
  match call.content with
  | none =>
      call.methodSize ≤ w.frameMax ∨
        (w.frameMax - 8 < call.methodSize ∧ w.buf.length < call.methodSize) ∨ call.Unpackable
  | some content =>
      ∀ body properties, contentOctets codec content = .ok (body, properties) →
        Big w ((call.args.map Text.toBytes).getD []) properties body →
          call.Framable codec w.frameMax ∨ call.Unpackable

/-! One call -/

/-- What a call hands over, and its result, from the run of its path. -/
private def CallRespects (codec : Codec) (call : WriteCall) (w : Writer)
    (run : Except PyError Unit × Writer) : Prop :=
  ∃ handed, run.2.handed = w.handed ++ handed ∧ run.2.frameMax = w.frameMax ∧
    WriteRecord.Respects codec { frameMax := w.frameMax, call, result := run.1, handed }

private theorem outcome_raised {codec : Codec} {call : WriteCall} {w w' : Writer} {e : PyError}
    (hhanded : w'.handed = w.handed) (hmax : w'.frameMax = w.frameMax) :
    CallRespects codec call w (.error e, w') :=
  ⟨[], by simp [hhanded], hmax, by simp, fun _ => ⟨⟨e, rfl⟩, rfl⟩⟩

private theorem outcome_counted {codec : Codec} {call : WriteCall} {w : Writer}
    {m : Effect Writer PyError Unit} (h : CallRespects codec call w (m w)) :
    CallRespects codec call w ((m >>= fun _ => countSent) w) := by
  obtain ⟨sent, hrun⟩ := bind_countSent (rfl : m w = ((m w).1, (m w).2))
  rw [hrun]
  exact h

/-- The fast path keeps the limit where its frames do. -/
private theorem outcome_fast {codec : Codec} {call : WriteCall} {w : Writer}
    (transport : TransportWrite) (frameType channel : Nat) (methodSig : Option MethodSig)
    (args : Option Octets) (content : Option (Octets × Octets))
    (h : ∀ frames, fastFrames frameType channel methodSig args content = .ok frames →
      Fits (w.resized w.chunkSize).buf.length frames →
        call.Framable codec w.frameMax ∧
          ∀ frame ∈ frames, frame.octets.length ≤ w.frameMax) :
    CallRespects codec call w
      (writeFast transport frameType channel methodSig args content w.chunkSize w) := by
  by_cases hfits : ∃ frames, fastFrames frameType channel methodSig args content = .ok frames ∧
      Fits (w.resized w.chunkSize).buf.length frames
  · obtain ⟨frames, hframes, hfits⟩ := hfits
    obtain ⟨hframable, hlimit⟩ := h frames hframes hfits
    obtain ⟨buf, -, hrun⟩ := writeFast_run transport w.chunkSize w hframes hfits
    rw [hrun]
    refine ⟨[frames.flatMap Frame.octets], rfl, rfl, ?_, fun hnot => absurd hframable hnot⟩
    intro octets hoctets
    obtain rfl := List.mem_singleton.mp hoctets
    exact ⟨frames, rfl, fun frame hframe => ⟨hfits.1 frame hframe, hlimit frame hframe⟩⟩
  · obtain ⟨e, buf, -, hrun⟩ := writeFast_raises transport w.chunkSize w
      fun frames hframes hfit => hfits ⟨frames, hframes, hfit⟩
    rw [hrun]
    exact outcome_raised rfl rfl

/-- Frames written one after the other keep the limit one after the other. -/
private theorem respects_sent {limit : Nat} {sent : List Frame}
    (h : ∀ frame ∈ sent, frame.WellFormed ∧ frame.octets.length ≤ limit) :
    ∀ octets ∈ sent.map Frame.octets, ∃ frames : List Frame,
      octets = frames.flatMap Frame.octets ∧
        ∀ frame ∈ frames, frame.WellFormed ∧ frame.octets.length ≤ limit := by
  intro octets hoctets
  obtain ⟨frame, hframe, rfl⟩ := List.mem_map.mp hoctets
  exact ⟨[frame], by simp, by simpa using h frame hframe⟩

private theorem slowFrames_sizes {frameType channel : Nat} {methodSig : Option MethodSig}
    {args : Option Octets} {properties body : Octets} {chunkSize : Nat} {frames : List Frame}
    (h : slowFrames frameType channel methodSig args properties body chunkSize = .ok frames) :
    ∃ method rest, methodPayload frameType methodSig args = .ok method ∧
      frames = ⟨frameType, channel, method⟩ :: rest ∧
      ∀ frame ∈ rest, frame.octets.length ≤ max (20 + properties.length) (chunkSize + 8) := by
  unfold slowFrames at h
  cases hmethod : methodPayload frameType methodSig args with
  | error e => simp [hmethod] at h
  | ok method =>
      simp only [hmethod, ok_bind] at h
      by_cases hbody : body = []
      · refine ⟨method, [], rfl, ?_, by simp⟩
        simpa [hbody, pure, Except.pure, eq_comm] using h
      · cases hheader : headerPayload methodSig body.length properties with
        | error e => simp [hbody, hheader] at h
        | ok header =>
            refine ⟨method, ⟨2, channel, header⟩ :: (chunks chunkSize body).map (Frame.mk 3 channel),
              rfl, by simpa [hbody, hheader, pure, Except.pure, eq_comm] using h, ?_⟩
            intro frame hframe
            rcases List.mem_cons.mp hframe with rfl | hframe
            · rw [Frame.octets_length, headerPayload_length hheader]
              omega
            · obtain ⟨piece, hpiece, rfl⟩ := List.mem_map.mp hframe
              have hlength := Chunks.length_le hpiece
              rw [Frame.octets_length]
              simp only
              omega

private theorem methodFrame_length {call : WriteCall} {method : Octets}
    (h : methodPayload call.frameType call.methodSig (call.args.map Text.toBytes) = .ok method) :
    (Frame.mk call.frameType call.channel method).octets.length = call.methodSize := by
  rw [Frame.octets_length, methodPayload_length h, WriteCall.methodSize]
  omega

/-- The slow path keeps the limit where the method and the header do, and writes
nothing where the method frame cannot be packed. -/
private theorem outcome_slow {codec : Codec} {call : WriteCall} {w : Writer}
    (transport : TransportWrite) (properties body : Octets) (hmax : 16 ≤ w.frameMax)
    (hproperties : call.Framable codec w.frameMax → 20 + properties.length ≤ w.frameMax)
    (hcond : call.Framable codec w.frameMax ∨ call.Unpackable) :
    CallRespects codec call w (writeSlow transport call.frameType call.channel call.methodSig
      (call.args.map Text.toBytes) properties body w.chunkSize w) := by
  have hchunk : 0 < w.chunkSize := Writer.chunkSize_pos (by omega)
  have hchunkSize := w.chunkSize_toNat
  cases hframes : slowFrames call.frameType call.channel call.methodSig
      (call.args.map Text.toBytes) properties body w.chunkSize.toNat with
  | error e =>
      obtain ⟨e', sent, hrun, hsent⟩ := writeSlow_payload_error transport hframes w
      rw [hrun]
      rcases hcond with hframable | hunpackable
      · refine ⟨sent.map Frame.octets, rfl, rfl, respects_sent fun frame hframe => ?_,
          fun hnot => absurd hframable hnot⟩
        obtain ⟨hwf, method, hpayload, rfl⟩ := hsent frame hframe
        exact ⟨hwf, by simp only [methodFrame_length hpayload]; exact hframable.1⟩
      · have hnone : sent = [] := by
          refine List.eq_nil_iff_forall_not_mem.mpr fun frame hframe => ?_
          obtain ⟨hwf, method, hpayload, rfl⟩ := hsent frame hframe
          exact hunpackable method hpayload hwf
        subst hnone
        exact outcome_raised (by simp) rfl
  | ok frames =>
      obtain ⟨method, rest, hpayload, rfl, hrest⟩ := slowFrames_sizes hframes
      obtain ⟨r, sent, hinit, hwf, hrun, hdone⟩ := writeEach_run transport
        (⟨call.frameType, call.channel, method⟩ :: rest) w
      rw [writeSlow_eq transport hchunk hframes, hrun]
      rcases hcond with hframable | hunpackable
      · have hheader := hproperties hframable
        refine ⟨sent.map Frame.octets, rfl, rfl, respects_sent fun frame hframe => ?_,
          fun hnot => absurd hframable hnot⟩
        refine ⟨hwf frame hframe, ?_⟩
        rcases List.mem_cons.mp (hinit.subset hframe) with rfl | hmem
        · rw [methodFrame_length hpayload]
          exact hframable.1
        · have hsize := hrest frame hmem
          simp only
          omega
      · have hnone : sent = [] := by
          cases sent with
          | nil => rfl
          | cons frame sent =>
              obtain ⟨rfl, -⟩ := List.cons_prefix_cons.mp hinit
              exact absurd (hwf _ (by simp)) (hunpackable method hpayload)
        subst hnone
        cases r with
        | ok _ => exact absurd (hdone rfl) (by simp)
        | error e => exact outcome_raised (by simp) rfl

private theorem fastFrames_sizes {frameType channel : Nat} {methodSig : Option MethodSig}
    {args : Option Octets} {properties body : Octets} {frames : List Frame}
    (h : fastFrames frameType channel methodSig args (some (properties, body)) = .ok frames) :
    ∀ frame ∈ frames,
      frame.octets.length ≤ 20 + (args.getD []).length + properties.length + body.length := by
  unfold fastFrames at h
  cases hmethod : methodPayload frameType methodSig args with
  | error e => simp [hmethod] at h
  | ok method =>
      have hlength := methodPayload_length hmethod
      cases hheader : headerPayload methodSig body.length properties with
      | error e => simp [hmethod, hheader] at h
      | ok header =>
          obtain rfl : Frame.mk frameType channel method :: ⟨2, channel, header⟩ ::
              (if body = [] then [] else [⟨3, channel, body⟩]) = frames := by
            simpa [hmethod, hheader, pure, Except.pure] using h
          intro frame hframe
          rw [Frame.octets_length]
          rcases List.mem_cons.mp hframe with rfl | hframe
          · simp only
            split at hlength <;> omega
          rcases List.mem_cons.mp hframe with rfl | hframe
          · simp only [headerPayload_length hheader]
            omega
          · split at hframe
            next => simp at hframe
            next =>
              obtain rfl := List.mem_singleton.mp hframe
              simp only
              omega

private theorem call_respects (transport : TransportWrite) {codec : Codec} {w : Writer}
    {call : WriteCall} (hmax : 16 ≤ w.frameMax) (h : Keeps codec w call) :
    CallRespects codec call w (call.run transport codec w) := by
  unfold WriteCall.run
  cases hcontent : call.content with
  | none =>
      rw [writeFrame_bare]
      refine outcome_counted (outcome_fast transport _ _ _ _ _ fun frames hframes hfits => ?_)
      unfold fastFrames at hframes
      cases hpayload : methodPayload call.frameType call.methodSig
          (call.args.map Text.toBytes) with
      | error e => simp [hpayload] at hframes
      | ok method =>
          obtain rfl : [Frame.mk call.frameType call.channel method] = frames := by
            simpa [hpayload, pure, Except.pure] using hframes
          obtain ⟨hwf, hroom⟩ := hfits
          have hresized := w.resized_length w.chunkSize
          have hchunkSize : w.chunkSize = (w.frameMax : Int) - 8 := rfl
          simp only [List.flatMap_cons, List.flatMap_nil, List.append_nil,
            methodFrame_length hpayload] at hroom
          have hlimit : call.methodSize ≤ w.frameMax := by
            simp only [Keeps, hcontent] at h
            rcases h with h | ⟨hchunk, hbuf⟩ | h
            · exact h
            · omega
            · exact absurd (hwf _ (by simp)) (h method hpayload)
          refine ⟨⟨hlimit, by simp [hcontent]⟩, fun frame hframe => ?_⟩
          obtain rfl := List.mem_singleton.mp hframe
          rwa [methodFrame_length hpayload]
  | some content =>
      cases hoctets : contentOctets codec content with
      | error e =>
          rw [writeFrame_content_error transport _ _ _ _ w hoctets]
          exact outcome_raised rfl rfl
      | ok value =>
          obtain ⟨body, properties⟩ := value
          cases hargs : call.args with
          | none =>
              rw [writeFrame_content_argless transport _ _ _ w hoctets]
              exact outcome_raised rfl rfl
          | some args =>
              rw [writeFrame_content transport _ _ _ args w hoctets]
              refine outcome_counted ?_
              simp only [Keeps, hcontent, hargs, Option.map_some, Option.getD_some] at h
              have hheader : call.Framable codec w.frameMax →
                  20 + properties.length ≤ w.frameMax :=
                fun hframable => hframable.2 content body properties hcontent hoctets
              by_cases hbig : Big w args.toBytes properties body
              · rw [if_pos hbig]
                have hslow := outcome_slow transport properties body hmax hheader
                  (h body properties hoctets hbig)
                rwa [hargs] at hslow
              · rw [if_neg hbig]
                refine outcome_fast transport _ _ _ _ _ fun frames hframes _ => ?_
                have hroom : args.toBytes.length + properties.length + body.length + 48 ≤
                    w.frameMax := by
                  unfold Big frameOverhead Writer.chunkSize at hbig
                  omega
                have hsize : call.methodSize ≤ 12 + args.toBytes.length := by
                  simp only [WriteCall.methodSize, hargs, Option.map_some, Option.getD_some]
                  split <;> omega
                refine ⟨⟨by omega, ?_⟩, fun frame hframe => ?_⟩
                · intro content' body' properties' hcontent' hoctets'
                  obtain rfl : content = content' := by
                    simpa [hcontent] using hcontent'
                  obtain ⟨rfl, rfl⟩ : body = body' ∧ properties = properties' := by
                    simpa [hoctets] using hoctets'
                  omega
                · have hlength := fastFrames_sizes hframes frame hframe
                  simp only [Option.getD_some] at hlength
                  omega

/-! Runs -/

/-- Every call of the session so far has kept its limit. -/
private def SessionOk (codec : Codec) (s : Session) : Prop :=
  16 ≤ s.writer.frameMax ∧ ∀ record ∈ s.log, record.Respects codec

private theorem step_ok (transport : TransportWrite) {codec : Codec} {s : Session}
    {event : WriterEvent} (h : SessionOk codec s)
    (htune : ∀ frameMax, event = .tune frameMax → frameMax = 0 ∨ 16 ≤ frameMax)
    (hkeeps : ∀ call, event = .write call → Keeps codec s.writer call) :
    SessionOk codec (s.step transport codec event) := by
  cases event with
  | tune frameMax =>
      refine ⟨?_, h.2⟩
      have hvalue := htune frameMax rfl
      have hmax := h.1
      simp only [Session.step, Writer.onTune]
      split <;> omega
  | write call =>
      obtain ⟨handed, hhanded, hmax, hrespects⟩ := call_respects transport h.1 (hkeeps call rfl)
      refine ⟨?_, fun record hrecord => ?_⟩
      · simp only [Session.step, hmax]
        exact h.1
      · simp only [Session.step, List.mem_append, List.mem_singleton] at hrecord
        rcases hrecord with hrecord | rfl
        · exact h.2 record hrecord
        · rw [hhanded, List.drop_left]
          exact hrespects

/-- In every run of writes and tunes in which every call keeps the limit as `Keeps`
says, every frame handed to the transport is at most `frame_max` octets long, and a
call whose frames cannot be that small raises without writing. -/
theorem run_respects_frameMax (transport : TransportWrite) (codec : Codec) {frameMax : Nat}
    {w : Writer} (events : List WriterEvent) (hmax : 16 ≤ frameMax)
    (hnew : Writer.new frameMax = .ok w)
    (htune : ∀ limit, .tune limit ∈ events → limit = 0 ∨ 16 ≤ limit)
    (hkeeps : Run.Along (Session.step transport codec)
      (fun s event => ∀ call, event = .write call → Keeps codec s.writer call)
      { writer := w } events) :
    ∀ record ∈ (events.foldl (Session.step transport codec) { writer := w }).log,
      record.Respects codec := by
  have hstart : SessionOk codec { writer := w } := by
    obtain rfl : { frameMax, buf := List.replicate (frameMax - 8) 0 } = w := by
      simpa [Writer.new, show ¬ frameMax < 8 by omega] using hnew
    exact ⟨hmax, by simp⟩
  have hadmissible : Run.Along (Session.step transport codec)
      (fun s event => (∀ limit, event = .tune limit → limit = 0 ∨ 16 ≤ limit) ∧
        ∀ call, event = .write call → Keeps codec s.writer call) { writer := w } events :=
    hkeeps.mono fun s event hevent hcall =>
      ⟨fun limit hlimit => htune limit (hlimit ▸ hevent), hcall⟩
  exact (Run.invariant (fun s event hs hcond => step_ok transport hs hcond.1 hcond.2)
    hstart hadmissible).2

/-- A frame's octets contain no smaller frame in its place. -/
private theorem frame_within {frame : Frame} {limit : Nat} (hwf : frame.WellFormed)
    (h : ∃ frames : List Frame, frame.octets = frames.flatMap Frame.octets ∧
      ∀ f ∈ frames, f.WellFormed ∧ f.octets.length ≤ limit) :
    frame.octets.length ≤ limit := by
  obtain ⟨frames, hoctets, hframes⟩ := h
  cases frames with
  | nil =>
      have hlength := congrArg List.length hoctets
      simp at hlength
  | cons first rest =>
      obtain ⟨hfirst, hlimit⟩ := hframes first (by simp)
      have hframe := Frame.size_field hwf []
      have hsize := Frame.size_field hfirst (rest.flatMap Frame.octets)
      rw [List.flatMap_cons] at hoctets
      rw [List.append_nil, hoctets, hsize] at hframe
      rwa [Frame.octets_length, ← hframe, ← Frame.octets_length]

/-- A publish with a content type of 16 octets, in frames of at most 32: the header
frame is 39 octets long and is written all the same. -/
theorem run_header_over_limit :
    ¬ ∀ record ∈ ([WriterEvent.write
        { frameType := 1, channel := 1, methodSig := some Spec.Basic.publish
          args := some (.str [])
          content := some
            { properties := [("content_type", .str (PyStr.ofString "application/json"))]
              body := .bytes [7] } }].foldl
        (Session.step (fun _ => .ok ()) fun _ _ => .error .lookupError)
        { writer := { frameMax := 32, buf := List.replicate 24 0 } }).log,
      record.Respects fun _ _ => .error .lookupError := by
  intro h
  let codec : Codec := fun _ _ => .error .lookupError
  let content : Message :=
    { properties := [("content_type", .str (PyStr.ofString "application/json"))]
      body := .bytes [7] }
  let call : WriteCall :=
    { frameType := 1, channel := 1, methodSig := some Spec.Basic.publish
      args := some (.str []), content := some content }
  let properties : Octets := 0x80 :: 0 :: 16 :: Utf8.encode (PyStr.ofString "application/json")
  let w : Writer := { frameMax := 32, buf := List.replicate 24 0 }
  let header : Frame := ⟨2, 1, headerOctets Spec.Basic.publish 1 properties⟩
  let frames : List Frame :=
    [⟨1, 1, methodOctets Spec.Basic.publish []⟩, header, ⟨3, 1, [7]⟩]
  have hcontent : contentOctets codec content = .ok ([7], properties) := rfl
  have hbig : Big w (Text.str []).toBytes properties [7] := by decide
  have hframes : slowFrames 1 1 (some Spec.Basic.publish) (some (Text.str []).toBytes)
      properties [7] (w.frameMax - 8) = .ok frames :=
    slowFrames_ok (by decide) (by decide) (by decide) (by decide) 1 [] properties 24
  have hheader : header.WellFormed := ⟨by decide, by decide, by decide⟩
  have hwf : ∀ frame ∈ frames, frame.WellFormed := by
    intro frame hframe
    rcases List.mem_cons.mp hframe with rfl | hframe
    · exact ⟨by decide, by decide, by decide⟩
    rcases List.mem_cons.mp hframe with rfl | hframe
    · exact hheader
    · obtain rfl := List.mem_singleton.mp hframe
      exact ⟨by decide, by decide, by decide⟩
  have hrun := writeFrame_slow_ok (fun _ => rfl) (.str []) hcontent hbig (by decide) hframes hwf
  have hlimit : header.octets.length ≤ 32 := by
    refine frame_within hheader ((h { frameMax := 32, call, result := .ok ()
                                      handed := frames.map Frame.octets } ?_).1 _ ?_)
    · simp only [List.foldl_cons, List.foldl_nil, Session.step, WriteCall.run]
      rw [hrun]
      exact List.mem_singleton.mpr rfl
    · simp [frames]
  exact absurd hlimit (by decide)

/-- A publish, a tune to a smaller frame size and a heartbeat. -/
theorem run_respects_frameMax_lowered :
    List.Forall (fun record => record.Respects fun _ _ => .error .lookupError)
      ([WriterEvent.write
          { frameType := 1, channel := 1, methodSig := some Spec.Basic.publish
            args := some (.str []), content := some { body := .bytes [7] } },
        .tune 32, .write
          { frameType := 8, channel := 0, methodSig := none, args := none
            content := none }].foldl
        (Session.step (fun _ => .ok ()) fun _ _ => .error .lookupError)
        { writer := { frameMax := 64, buf := List.replicate 56 0 } }).log := by
  have hnew : Writer.new 64 = .ok { frameMax := 64, buf := List.replicate 56 0 } := rfl
  rw [List.forall_iff_forall_mem]
  refine run_respects_frameMax _ _ _ (by decide : 16 ≤ 64) hnew ?_ ⟨?_, ?_, ?_, trivial⟩
  · intro limit hlimit
    simp at hlimit
    omega
  · rintro call ⟨⟩ body properties hcontent hbig
    obtain ⟨rfl, rfl⟩ : [7] = body ∧ [0, 0] = properties :=
      Prod.mk.inj (Except.ok.inj hcontent)
    exact absurd hbig (by decide)
  · rintro call ⟨⟩
  · rintro call ⟨⟩
    exact .inl (by simp [Session.step, Writer.onTune, WriteCall.methodSize])

end PyAmqp
