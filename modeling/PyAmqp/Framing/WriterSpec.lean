import PyAmqp.Framing.Writer
import PyAmqp.Base.Chunks

/-!
What the two paths of `write_frame` hand to the transport, as lists of frames. The
fast path hands all frames over in one piece or raises before any; the slow path
hands over one frame after the other.
-/

namespace PyAmqp

/-! Payloads -/

def methodOctets (sig : MethodSig) (args : Octets) : Octets :=
  BigEndian.encode 2 sig.1 ++ BigEndian.encode 2 sig.2 ++ args

def headerOctets (sig : MethodSig) (bodyLen : Nat) (properties : Octets) : Octets :=
  BigEndian.encode 2 sig.1 ++ BigEndian.encode 2 0 ++ BigEndian.encode 8 bodyLen ++ properties

@[simp] theorem methodOctets_length (sig : MethodSig) (args : Octets) :
    (methodOctets sig args).length = 4 + args.length := by
  simp [methodOctets]
  omega

@[simp] theorem headerOctets_length (sig : MethodSig) (bodyLen : Nat) (properties : Octets) :
    (headerOctets sig bodyLen properties).length = 12 + properties.length := by
  simp [headerOctets]
  omega

theorem methodPayload_ok {sig : MethodSig} (h1 : sig.1 < 2 ^ 16) (h2 : sig.2 < 2 ^ 16)
    (args : Octets) : methodPayload 1 (some sig) (some args) = .ok (methodOctets sig args) := by
  have hclass := pack_nat 2 h1
  have hmethod := pack_nat 2 h2
  simp [methodPayload, hclass, hmethod, methodOctets]

theorem methodPayload_eq_ok {sig : MethodSig} {args payload : Octets}
    (h : methodPayload 1 (some sig) (some args) = .ok payload) :
    sig.1 < 2 ^ 16 ∧ sig.2 < 2 ^ 16 ∧ payload = methodOctets sig args := by
  simp only [methodPayload, if_true] at h
  cases hclass : pack 2 (sig.1 : Int) with
  | error e => simp [hclass] at h
  | ok classId =>
      cases hmethod : pack 2 (sig.2 : Int) with
      | error e => simp [hclass, hmethod] at h
      | ok methodId =>
          obtain ⟨h1, rfl⟩ := pack_nat_ok hclass
          obtain ⟨h2, rfl⟩ := pack_nat_ok hmethod
          refine ⟨h1, h2, ?_⟩
          simpa [hclass, hmethod, methodOctets] using h.symm

theorem headerPayload_ok {sig : MethodSig} {bodyLen : Nat} (h1 : sig.1 < 2 ^ 16)
    (h2 : bodyLen < 2 ^ 64) (properties : Octets) :
    headerPayload (some sig) bodyLen properties = .ok (headerOctets sig bodyLen properties) := by
  have hclass := pack_nat 2 h1
  have hweight := pack_nat 2 (n := 0) (by decide)
  have hsize := pack_nat 8 h2
  simp only [Nat.cast_zero] at hweight
  simp [headerPayload, hclass, hweight, hsize, headerOctets]

theorem headerPayload_eq_ok {sig : MethodSig} {bodyLen : Nat} {properties payload : Octets}
    (h : headerPayload (some sig) bodyLen properties = .ok payload) :
    bodyLen < 2 ^ 64 ∧ payload = headerOctets sig bodyLen properties := by
  simp only [headerPayload] at h
  cases hclass : pack 2 (sig.1 : Int) with
  | error e => simp [hclass] at h
  | ok classId =>
      cases hsize : pack 8 (bodyLen : Int) with
      | error e =>
          have hweight := pack_nat 2 (n := 0) (by decide)
          simp only [Nat.cast_zero] at hweight
          simp [hclass, hweight, hsize] at h
      | ok size =>
          obtain ⟨h1, -⟩ := pack_nat_ok hclass
          obtain ⟨h2, -⟩ := pack_nat_ok hsize
          have hok := headerPayload_ok h1 h2 properties
          simp only [headerPayload] at hok
          rw [hok] at h
          exact ⟨h2, (Except.ok.inj h).symm⟩

/-! The fast path -/

/-- The octets `done` stand at the start of the buffer; nothing else has changed since
`w0` but what stands after them. -/
structure Packed (w0 : Writer) (done : Octets) (w : Writer) : Prop where
  same : w = { w0 with buf := w.buf }
  length : w.buf.length = w0.buf.length
  taken : w.buf.take done.length = done

/-- The frames can be packed into a buffer of `size` octets. -/
def Fits (size : Nat) (frames : List Frame) : Prop :=
  (∀ frame ∈ frames, frame.WellFormed) ∧ (frames.flatMap Frame.octets).length ≤ size

def packAll : List Frame → Nat → Effect Writer PyError Nat
  | [], offset => pure offset
  | frame :: frames, offset => do
      let offset ← packInto offset frame.frameType frame.channel frame.payload
      packAll frames offset

private theorem packInto_ok {w0 w : Writer} {done : Octets} {frame : Frame}
    (h : Packed w0 done w) (hwf : frame.WellFormed)
    (hfit : done.length + frame.octets.length ≤ w0.buf.length) :
    ∃ w', packInto done.length frame.frameType frame.channel frame.payload w =
      (.ok (done ++ frame.octets).length, w') ∧ Packed w0 (done ++ frame.octets) w' := by
  have hroom : done.length + frame.octets.length ≤ w.buf.length := by rw [h.length]; exact hfit
  refine ⟨{ w with
    buf := w.buf.take done.length ++ frame.octets ++
      w.buf.drop (done.length + frame.octets.length) }, ?_, ?_⟩
  · simp only [packInto, packFrame_ok hwf, Effect.bind_run, Effect.liftExcept_run,
      Effect.get_run, if_pos hroom, Effect.modify_run, Effect.pure_run]
    simp [Frame.octets_length]
    omega
  · refine ⟨?_, ?_, ?_⟩
    · rw [h.same]
    · simp only [List.length_append, List.length_take, List.length_drop, ← h.length]
      omega
    · rw [h.taken]
      exact List.take_left' rfl

private theorem packInto_error {w : Writer} {offset : Nat} {frame : Frame}
    (h : ¬ (frame.WellFormed ∧ offset + frame.octets.length ≤ w.buf.length)) :
    ∃ e, packInto offset frame.frameType frame.channel frame.payload w = (.error e, w) := by
  cases hpack : packFrame frame.frameType frame.channel frame.payload with
  | error e => exact ⟨e, by simp [packInto, hpack]⟩
  | ok octets =>
      obtain ⟨hwf, hoctets⟩ := packFrame_eq_ok hpack
      have hfull : ¬ offset + octets.length ≤ w.buf.length := by
        rw [hoctets]
        exact fun hfit => h ⟨hwf, hfit⟩
      refine ⟨.structError, ?_⟩
      simp only [packInto, hpack, Effect.bind_run, Effect.liftExcept_run, Effect.get_run,
        if_neg hfull, Effect.raise_run]

private theorem packAll_ok {w0 w : Writer} {done : Octets} {frames : List Frame}
    (h : Packed w0 done w) (hwf : ∀ frame ∈ frames, frame.WellFormed)
    (hfit : done.length + (frames.flatMap Frame.octets).length ≤ w0.buf.length) :
    ∃ w', packAll frames done.length w = (.ok (done ++ frames.flatMap Frame.octets).length, w') ∧
      Packed w0 (done ++ frames.flatMap Frame.octets) w' := by
  induction frames generalizing done w with
  | nil => exact ⟨w, by simp [packAll], by simpa using h⟩
  | cons frame frames ih =>
      simp only [List.flatMap_cons, List.length_append] at hfit
      obtain ⟨mid, hstep, hmid⟩ := packInto_ok h (hwf frame (by simp)) (by omega)
      obtain ⟨w', hrest, hw'⟩ := ih hmid (fun f hf => hwf f (by simp [hf]))
        (by simp only [List.length_append]; omega)
      simp only [List.append_assoc] at hrest hw'
      refine ⟨w', ?_, by simpa using hw'⟩
      rw [packAll, Effect.bind_ok _ hstep, List.flatMap_cons, hrest]

private theorem packAll_error {w0 w : Writer} {done : Octets} {frames : List Frame}
    (h : Packed w0 done w)
    (hbad : ¬ ((∀ frame ∈ frames, frame.WellFormed) ∧
      done.length + (frames.flatMap Frame.octets).length ≤ w0.buf.length)) :
    ∃ e w', packAll frames done.length w = (.error e, w') ∧
      w' = { w0 with buf := w'.buf } ∧ w'.buf.length = w0.buf.length := by
  induction frames generalizing done w with
  | nil =>
      have hroom : done.length ≤ w0.buf.length := by
        rw [← h.length, ← h.taken]
        simp
      exact absurd ⟨by simp, by simpa using hroom⟩ hbad
  | cons frame frames ih =>
      by_cases hfirst : frame.WellFormed ∧ done.length + frame.octets.length ≤ w.buf.length
      · rw [h.length] at hfirst
        obtain ⟨mid, hstep, hmid⟩ := packInto_ok h hfirst.1 hfirst.2
        obtain ⟨e, w', hrest, hw'⟩ := ih hmid (by
          rintro ⟨hwf, hfit⟩
          refine hbad ⟨by simpa using ⟨hfirst.1, hwf⟩, ?_⟩
          simp only [List.flatMap_cons, List.length_append] at hfit ⊢
          omega)
        exact ⟨e, w', by rw [packAll, Effect.bind_ok _ hstep, hrest], hw'⟩
      · obtain ⟨e, hstep⟩ := packInto_error hfirst
        exact ⟨e, w, by rw [packAll, Effect.bind_error _ hstep], h.same, h.length⟩

/-- The frames of the fast path. -/
def fastFrames (frameType channel : Nat) (methodSig : Option MethodSig) (args : Option Octets)
    (content : Option (Octets × Octets)) : Except PyError (List Frame) := do
  let method ← methodPayload frameType methodSig args
  match content with
  | some (properties, body) => do
      let header ← headerPayload methodSig body.length properties
      return ⟨frameType, channel, method⟩ :: ⟨2, channel, header⟩ ::
        (if body = [] then [] else [⟨3, channel, body⟩])
  | none => return [⟨frameType, channel, method⟩]

theorem Writer.chunkSize_toNat (w : Writer) : w.chunkSize.toNat = w.frameMax - 8 := by
  unfold chunkSize
  omega

theorem Writer.chunkSize_pos {w : Writer} (h : 8 < w.frameMax) : 0 < w.chunkSize := by
  unfold chunkSize
  omega

/-- The buffer is as large as a chunk when the packing starts. -/
def Writer.resized (w : Writer) (chunkSize : Int) : Writer :=
  if chunkSize > w.buf.length then { w with buf := List.replicate chunkSize.toNat 0 } else w

/-- Where all payloads can be built, the fast path packs its frames one after the other. -/
private theorem writeFast_eq (transport : TransportWrite) {frameType channel : Nat}
    {methodSig : Option MethodSig} {args : Option Octets} {content : Option (Octets × Octets)}
    {frames : List Frame} (chunkSize : Int) (w : Writer)
    (h : fastFrames frameType channel methodSig args content = .ok frames) :
    writeFast transport frameType channel methodSig args content chunkSize w =
      (do
        let offset ← packAll frames 0
        let w ← Effect.get
        transportWrite transport (w.buf.take offset)) (w.resized chunkSize) := by
  unfold fastFrames at h
  cases hmethod : methodPayload frameType methodSig args with
  | error e => simp [hmethod] at h
  | ok method =>
      cases content with
      | none =>
          obtain rfl : [Frame.mk frameType channel method] = frames := by
            simpa [hmethod] using h
          simp only [writeFast, hmethod, Effect.liftExcept_ok, pure_bind, bind_assoc, packAll]
          rw [Effect.bind_ok _ (Effect.modify_run _), Writer.resized]
      | some content =>
          obtain ⟨properties, body⟩ := content
          cases hheader : headerPayload methodSig body.length properties with
          | error e => simp [hmethod, hheader] at h
          | ok header =>
              simp only [hmethod, hheader, ok_bind] at h
              by_cases hbody : body = []
              · obtain rfl : [Frame.mk frameType channel method, ⟨2, channel, header⟩] = frames := by
                  simpa [hbody, pure, Except.pure] using h
                have hlength : ¬ body.length > 0 := by simp [hbody]
                simp only [writeFast, hmethod, hheader, if_neg hlength, Effect.liftExcept_ok,
                  pure_bind, bind_assoc, packAll]
                rw [Effect.bind_ok _ (Effect.modify_run _), Writer.resized]
              · obtain rfl : [Frame.mk frameType channel method, ⟨2, channel, header⟩,
                    ⟨3, channel, body⟩] = frames := by
                  simpa [hbody, pure, Except.pure] using h
                have hlength : body.length > 0 := List.length_pos_iff.mpr hbody
                simp only [writeFast, hmethod, hheader, if_pos hlength, Effect.liftExcept_ok,
                  pure_bind, bind_assoc, packAll]
                rw [Effect.bind_ok _ (Effect.modify_run _), Writer.resized]

theorem Writer.resized_handed (w : Writer) (chunkSize : Int) :
    (w.resized chunkSize).handed = w.handed ∧ (w.resized chunkSize).frameMax = w.frameMax ∧
      (w.resized chunkSize).bytesSent = w.bytesSent := by
  unfold resized
  split <;> exact ⟨rfl, rfl, rfl⟩

/-- A resize never shrinks the buffer, and leaves room for a chunk. -/
theorem Writer.resized_length (w : Writer) (chunkSize : Int) :
    ((w.resized chunkSize).buf.length : Int) = max chunkSize w.buf.length := by
  unfold resized
  split
  next h =>
    simp only [List.length_replicate]
    omega
  next h => omega

/-- Packing starts at the beginning of the buffer. -/
private theorem packed_nil (w : Writer) : Packed w [] w := ⟨rfl, rfl, rfl⟩

/-- The fast path hands its frames over in one piece. -/
theorem writeFast_run (transport : TransportWrite) {frameType channel : Nat}
    {methodSig : Option MethodSig} {args : Option Octets} {content : Option (Octets × Octets)}
    {frames : List Frame} (chunkSize : Int) (w : Writer)
    (h : fastFrames frameType channel methodSig args content = .ok frames)
    (hfits : Fits (w.resized chunkSize).buf.length frames) :
    ∃ buf, buf.length = (w.resized chunkSize).buf.length ∧
      writeFast transport frameType channel methodSig args content chunkSize w =
        (transport (w.handed ++ [frames.flatMap Frame.octets]),
          { w with buf := buf, handed := w.handed ++ [frames.flatMap Frame.octets] }) := by
  obtain ⟨hhanded, hmax, hsent⟩ := w.resized_handed chunkSize
  obtain ⟨w', hpack, hpacked⟩ := packAll_ok (packed_nil (w.resized chunkSize)) hfits.1
    (by simpa using hfits.2)
  simp only [List.nil_append, List.length_nil] at hpack hpacked
  refine ⟨w'.buf, hpacked.length, ?_⟩
  rw [writeFast_eq transport chunkSize w h, Effect.bind_ok _ hpack,
    Effect.bind_ok _ Effect.get_run, transportWrite, hpacked.taken, hpacked.same]
  simp only [hhanded, hmax, hsent]

/-- A payload that cannot be built ends the fast path before its write. -/
private theorem writeFast_payload_error (transport : TransportWrite) {frameType channel : Nat}
    {methodSig : Option MethodSig} {args : Option Octets} {content : Option (Octets × Octets)}
    {e : PyError} (chunkSize : Int) (w : Writer)
    (h : fastFrames frameType channel methodSig args content = .error e) :
    ∃ e' w', writeFast transport frameType channel methodSig args content chunkSize w =
        (.error e', w') ∧ w' = { w.resized chunkSize with buf := w'.buf } ∧
      w'.buf.length = (w.resized chunkSize).buf.length := by
  have hstart : (Effect.modify fun w : Writer =>
      if chunkSize > w.buf.length then { w with buf := List.replicate chunkSize.toNat 0 } else w :
        Effect Writer PyError Unit) w = (.ok (), w.resized chunkSize) := (rfl)
  unfold fastFrames at h
  cases hmethod : methodPayload frameType methodSig args with
  | error e' =>
      refine ⟨e', w.resized chunkSize, ?_, rfl, rfl⟩
      rw [writeFast, Effect.bind_ok _ hstart, hmethod,
        Effect.bind_error _ (Effect.liftExcept_run _)]
  | ok method =>
      cases content with
      | none => simp [hmethod, pure, Except.pure] at h
      | some content =>
          obtain ⟨properties, body⟩ := content
          cases hheader : headerPayload methodSig body.length properties with
          | ok header => simp [hmethod, hheader, pure, Except.pure] at h
          | error e' =>
              by_cases hfirst : (Frame.mk frameType channel method).WellFormed ∧
                  0 + (Frame.mk frameType channel method).octets.length ≤
                    (w.resized chunkSize).buf.length
              · obtain ⟨mid, hpack, hmid⟩ := packInto_ok (packed_nil (w.resized chunkSize))
                  hfirst.1 (by simpa using hfirst.2)
                rw [List.length_nil] at hpack
                refine ⟨e', mid, ?_, hmid.same, hmid.length⟩
                simp only [writeFast, hmethod, hheader, Effect.liftExcept_ok, pure_bind]
                rw [Effect.bind_ok _ hstart, Effect.bind_ok _ hpack,
                  Effect.bind_error _ (Effect.liftExcept_run _)]
              · obtain ⟨e'', hpack⟩ := packInto_error hfirst
                refine ⟨e'', w.resized chunkSize, ?_, rfl, rfl⟩
                simp only [writeFast, hmethod, Effect.liftExcept_ok, pure_bind]
                rw [Effect.bind_ok _ hstart, Effect.bind_error _ hpack]

/-- Frames that cannot be packed are not handed over at all. -/
theorem writeFast_raises (transport : TransportWrite) {frameType channel : Nat}
    {methodSig : Option MethodSig} {args : Option Octets} {content : Option (Octets × Octets)}
    (chunkSize : Int) (w : Writer)
    (h : ∀ frames, fastFrames frameType channel methodSig args content = .ok frames →
      ¬ Fits (w.resized chunkSize).buf.length frames) :
    ∃ e buf, buf.length = (w.resized chunkSize).buf.length ∧
      writeFast transport frameType channel methodSig args content chunkSize w =
        (.error e, { w with buf := buf }) := by
  obtain ⟨hhanded, hmax, hsent⟩ := w.resized_handed chunkSize
  have hrun : ∃ e w', writeFast transport frameType channel methodSig args content chunkSize w =
      (.error e, w') ∧ w' = { w.resized chunkSize with buf := w'.buf } ∧
        w'.buf.length = (w.resized chunkSize).buf.length := by
    cases hframes : fastFrames frameType channel methodSig args content with
    | error e => exact writeFast_payload_error transport chunkSize w hframes
    | ok frames =>
        obtain ⟨e, w', hpack, hw'⟩ := packAll_error (packed_nil (w.resized chunkSize))
          (by simpa [Fits] using h frames hframes)
        rw [List.length_nil] at hpack
        refine ⟨e, w', ?_, hw'⟩
        rw [writeFast_eq transport chunkSize w hframes, Effect.bind_error _ hpack]
  obtain ⟨e, w', hrun, hsame, hlength⟩ := hrun
  refine ⟨e, w'.buf, hlength, ?_⟩
  rw [hrun, hsame]
  simp only [hhanded, hmax, hsent]

/-! The slow path -/

/-- The frames of the slow path. -/
def slowFrames (frameType channel : Nat) (methodSig : Option MethodSig) (args : Option Octets)
    (properties body : Octets) (chunkSize : Nat) : Except PyError (List Frame) := do
  let method ← methodPayload frameType methodSig args
  if body = [] then return [⟨frameType, channel, method⟩]
  else do
    let header ← headerPayload methodSig body.length properties
    return ⟨frameType, channel, method⟩ :: ⟨2, channel, header⟩ ::
      (chunks chunkSize body).map (Frame.mk 3 channel)

theorem slowFrames_ok {sig : MethodSig} {body : Octets} (h1 : sig.1 < 2 ^ 16)
    (h2 : sig.2 < 2 ^ 16) (hlength : body.length < 2 ^ 64) (hbody : body ≠ [])
    (channel : Nat) (args properties : Octets) (chunkSize : Nat) :
    slowFrames 1 channel (some sig) (some args) properties body chunkSize =
      .ok (⟨1, channel, methodOctets sig args⟩ ::
        ⟨2, channel, headerOctets sig body.length properties⟩ ::
          (chunks chunkSize body).map (Frame.mk 3 channel)) := by
  simp only [slowFrames, methodPayload_ok h1 h2, headerPayload_ok h1 hlength, hbody, if_false,
    ok_bind, pure, Except.pure]

theorem fastFrames_ok {sig : MethodSig} {body : Octets} (h1 : sig.1 < 2 ^ 16)
    (h2 : sig.2 < 2 ^ 16) (hlength : body.length < 2 ^ 64) (hbody : body ≠ [])
    (channel : Nat) (args properties : Octets) :
    fastFrames 1 channel (some sig) (some args) (some (properties, body)) =
      .ok [⟨1, channel, methodOctets sig args⟩,
        ⟨2, channel, headerOctets sig body.length properties⟩, ⟨3, channel, body⟩] := by
  simp only [fastFrames, methodPayload_ok h1 h2, headerPayload_ok h1 hlength, hbody, if_false,
    ok_bind, pure, Except.pure]

def writeEach (transport : TransportWrite) : List Frame → Effect Writer PyError Unit :=
  Effect.forEach fun frame => writePacked transport frame.frameType frame.channel frame.payload

theorem writePacked_run (transport : TransportWrite) {frame : Frame} {octets : Octets}
    (w : Writer) (h : packFrame frame.frameType frame.channel frame.payload = .ok octets) :
    writePacked transport frame.frameType frame.channel frame.payload w =
      (transport (w.handed ++ [octets]), { w with handed := w.handed ++ [octets] }) := by
  simp only [writePacked, h, Effect.liftExcept_ok, pure_bind, transportWrite]

theorem writePacked_error (transport : TransportWrite) {frame : Frame} {e : PyError}
    (w : Writer) (h : packFrame frame.frameType frame.channel frame.payload = .error e) :
    writePacked transport frame.frameType frame.channel frame.payload w = (.error e, w) := by
  rw [writePacked, h, Effect.bind_error _ (Effect.liftExcept_run _)]

/-- Frame after frame is handed over, until one cannot be packed or the transport
raises. -/
theorem writeEach_run (transport : TransportWrite) (frames : List Frame) (w : Writer) :
    ∃ r sent, sent <+: frames ∧ (∀ frame ∈ sent, frame.WellFormed) ∧
      writeEach transport frames w =
        (r, { w with handed := w.handed ++ sent.map Frame.octets }) ∧
      (r = .ok () → sent = frames) := by
  induction frames generalizing w with
  | nil =>
      refine ⟨.ok (), [], List.prefix_rfl, by simp, ?_, fun _ => rfl⟩
      simp [writeEach, Effect.forEach]
  | cons frame frames ih =>
      cases hpack : packFrame frame.frameType frame.channel frame.payload with
      | error e =>
          refine ⟨.error e, [], List.nil_prefix, by simp, ?_, by simp⟩
          rw [writeEach, Effect.forEach, Effect.bind_error _ (writePacked_error transport w hpack)]
          simp
      | ok octets =>
          obtain ⟨hwf, hoctets⟩ := packFrame_eq_ok hpack
          have hstep := writePacked_run transport w hpack
          cases htransport : transport (w.handed ++ [octets]) with
          | error e =>
              rw [htransport] at hstep
              refine ⟨.error e, [frame], by simp, by simpa using hwf, ?_, by simp⟩
              rw [writeEach, Effect.forEach, Effect.bind_error _ hstep, hoctets]
              rfl
          | ok _ =>
              rw [htransport] at hstep
              obtain ⟨r, sent, hinit, hsent, hrest, hdone⟩ :=
                ih { w with handed := w.handed ++ [octets] }
              refine ⟨r, frame :: sent, by simpa using hinit, by simpa using ⟨hwf, hsent⟩, ?_,
                fun hr => by rw [hdone hr]⟩
              rw [writeEach] at hrest
              rw [writeEach, Effect.forEach, Effect.bind_ok _ hstep, hrest, hoctets]
              simp

/-- Frames that can be packed are all handed over to a transport that takes them. -/
theorem writeEach_ok (transport : TransportWrite) (htransport : ∀ handed, transport handed = .ok ())
    (frames : List Frame) (hwf : ∀ frame ∈ frames, frame.WellFormed) (w : Writer) :
    writeEach transport frames w =
      (.ok (), { w with handed := w.handed ++ frames.map Frame.octets }) := by
  induction frames generalizing w with
  | nil => simp [writeEach, Effect.forEach]
  | cons frame frames ih =>
      have hstep := writePacked_run transport w (packFrame_ok (hwf frame (by simp)))
      have hrest := ih (fun f hf => hwf f (by simp [hf]))
        { w with handed := w.handed ++ [frame.octets] }
      rw [htransport] at hstep
      rw [writeEach] at hrest
      rw [writeEach, Effect.forEach, Effect.bind_ok _ hstep, hrest]
      simp

private theorem range_ok {stop : Nat} {step : Int} (h : 0 < step) :
    range stop step =
      .ok ((List.range ((stop + step.toNat - 1) / step.toNat)).map fun i => i * step.toNat) := by
  simp [range, show step ≠ 0 by omega, show ¬ step < 0 by omega]

/-- Where all payloads can be built, the slow path writes its frames one after the other. -/
theorem writeSlow_eq (transport : TransportWrite) {frameType channel : Nat}
    {methodSig : Option MethodSig} {args : Option Octets} {properties body : Octets}
    {chunkSize : Int} {frames : List Frame} (hchunk : 0 < chunkSize)
    (h : slowFrames frameType channel methodSig args properties body chunkSize.toNat =
      .ok frames) :
    writeSlow transport frameType channel methodSig args properties body chunkSize =
      writeEach transport frames := by
  unfold slowFrames at h
  cases hmethod : methodPayload frameType methodSig args with
  | error e => simp [hmethod] at h
  | ok method =>
      simp only [hmethod, ok_bind] at h
      by_cases hbody : body = []
      · obtain rfl : [Frame.mk frameType channel method] = frames := by
          simpa [hbody, pure, Except.pure] using h
        simp [writeSlow, hmethod, hbody, writeEach, Effect.forEach]
      · cases hheader : headerPayload methodSig body.length properties with
        | error e => simp [hheader, hbody] at h
        | ok header =>
            obtain rfl : (Frame.mk frameType channel method :: ⟨2, channel, header⟩ ::
                (chunks chunkSize.toNat body).map (Frame.mk 3 channel)) = frames := by
              simpa [hbody, hheader, pure, Except.pure] using h
            have hloop : ∀ offsets : List Nat,
                Effect.forEach (fun i => writePacked transport 3 channel
                  ((body.drop i).take chunkSize.toNat)) offsets =
                writeEach transport (offsets.map fun i =>
                  Frame.mk 3 channel ((body.drop i).take chunkSize.toNat)) := by
              intro offsets
              induction offsets with
              | nil => rfl
              | cons i offsets ih => simp only [Effect.forEach, ih, List.map_cons, writeEach]
            have hslices : (chunks chunkSize.toNat body).map (Frame.mk 3 channel) =
                ((List.range ((body.length + chunkSize.toNat - 1) / chunkSize.toNat)).map
                  fun i => i * chunkSize.toNat).map fun i =>
                    Frame.mk 3 channel ((body.drop i).take chunkSize.toNat) := by
              simp [chunks, Function.comp_def]
            simp only [writeSlow, hmethod, hheader, range_ok hchunk, Effect.liftExcept_ok,
              pure_bind, ne_eq, hbody, not_false_eq_true, if_true, hloop, hslices]
            simp only [writeEach, Effect.forEach]

/-- Where a payload cannot be built, the slow path has written the method frame at
most. -/
theorem writeSlow_payload_error (transport : TransportWrite) {frameType channel : Nat}
    {methodSig : Option MethodSig} {args : Option Octets} {properties body : Octets}
    {chunkSize : Int} {e : PyError}
    (h : slowFrames frameType channel methodSig args properties body chunkSize.toNat =
      .error e) (w : Writer) :
    ∃ (e' : PyError) (sent : List Frame),
      writeSlow transport frameType channel methodSig args properties body chunkSize w =
          (.error e', { w with handed := w.handed ++ sent.map Frame.octets }) ∧
      ∀ frame ∈ sent, frame.WellFormed ∧
        ∃ method, methodPayload frameType methodSig args = .ok method ∧
          frame = ⟨frameType, channel, method⟩ := by
  unfold slowFrames at h
  cases hmethod : methodPayload frameType methodSig args with
  | error e' =>
      refine ⟨e', [], ?_, by simp⟩
      rw [writeSlow, hmethod, Effect.bind_error _ (Effect.liftExcept_run _)]
      simp
  | ok method =>
      simp only [hmethod, ok_bind] at h
      by_cases hbody : body = []
      · simp [hbody, pure, Except.pure] at h
      · cases hheader : headerPayload methodSig body.length properties with
        | ok header => simp [hbody, hheader, pure, Except.pure] at h
        | error e' =>
            obtain ⟨r, sent, hinit, hwf, hrun, -⟩ :=
              writeEach_run transport [⟨frameType, channel, method⟩] w
            simp only [writeEach, Effect.forEach, bind_pure_unit] at hrun
            have hsent : ∀ frame ∈ sent, frame.WellFormed ∧ ∃ payload,
                (Except.ok method : Except PyError Octets) = .ok payload ∧
                  frame = ⟨frameType, channel, payload⟩ := by
              intro frame hframe
              exact ⟨hwf frame hframe, method, rfl, by simpa using hinit.subset hframe⟩
            simp only [writeSlow, hmethod, hheader, Effect.liftExcept_ok, pure_bind]
            cases r with
            | error e'' =>
                refine ⟨e'', sent, ?_, hsent⟩
                rw [Effect.bind_error _ hrun]
            | ok _ =>
                refine ⟨e', sent, ?_, hsent⟩
                rw [Effect.bind_ok _ hrun, if_pos hbody,
                  Effect.bind_error _ (Effect.liftExcept_run _)]

/-! Sizes -/

theorem methodPayload_length {frameType : Nat} {methodSig : Option MethodSig}
    {args : Option Octets} {payload : Octets}
    (h : methodPayload frameType methodSig args = .ok payload) :
    payload.length = if frameType = 1 then 4 + (args.getD []).length else 0 := by
  by_cases htype : frameType = 1
  · subst htype
    cases methodSig with
    | none => simp [methodPayload] at h
    | some sig =>
        cases args with
        | none => simp [methodPayload] at h
        | some args =>
            obtain ⟨-, -, rfl⟩ := methodPayload_eq_ok h
            simp
  · obtain rfl : [] = payload := by simpa [methodPayload, htype] using h
    simp [htype]

theorem headerPayload_length {methodSig : Option MethodSig} {bodyLen : Nat}
    {properties payload : Octets} (h : headerPayload methodSig bodyLen properties = .ok payload) :
    payload.length = 12 + properties.length := by
  cases methodSig with
  | none => simp [headerPayload] at h
  | some sig => rw [(headerPayload_eq_ok h).2, headerOctets_length]

/-! Contents -/

/-- The encoded body and the property block of a content. -/
def contentOctets (codec : Codec) (content : Message) : Except PyError (Octets × Octets) := do
  let (body, props) ← encodeBody codec content
  let properties ← serializeProperties basicProperties props
  return (body, properties)

/-- The slow path is for contents that do not fit a chunk with all their overhead. -/
def Big (w : Writer) (args properties body : Octets) : Prop :=
  (args.length + properties.length + body.length + frameOverhead : Int) > w.chunkSize

instance (w : Writer) (args properties body : Octets) : Decidable (Big w args properties body) :=
  inferInstanceAs (Decidable ((_ : Int) > _))

def countSent : Effect Writer PyError Unit :=
  Effect.modify fun w => { w with bytesSent := w.bytesSent + 1 }

/-- Counting a frame changes neither what was handed over nor the result. -/
theorem bind_countSent {m : Effect Writer PyError Unit} {w w' : Writer} {r : Except PyError Unit}
    (h : m w = (r, w')) :
    ∃ sent, (m >>= fun _ => countSent) w = (r, { w' with bytesSent := sent }) := by
  cases r with
  | ok _ => exact ⟨w'.bytesSent + 1, by rw [Effect.bind_ok _ h]; rfl⟩
  | error e => exact ⟨w'.bytesSent, by rw [Effect.bind_error _ h]⟩

theorem writeFrame_content (transport : TransportWrite) {codec : Codec} (frameType channel : Nat)
    (methodSig : Option MethodSig) (args : Text) {content : Message} {body properties : Octets}
    (w : Writer) (h : contentOctets codec content = .ok (body, properties)) :
    writeFrame transport codec frameType channel methodSig (some args) (some content) w =
      ((if Big w args.toBytes properties body then
          writeSlow transport frameType channel methodSig (some args.toBytes) properties body
            w.chunkSize
        else
          writeFast transport frameType channel methodSig (some args.toBytes)
            (some (properties, body)) w.chunkSize) >>= fun _ => countSent) w := by
  unfold contentOctets at h
  cases hbody : encodeBody codec content with
  | error e => simp [hbody] at h
  | ok value =>
      obtain ⟨body', props⟩ := value
      cases hproperties : serializeProperties basicProperties props with
      | error e => simp [hbody, hproperties] at h
      | ok properties' =>
          obtain ⟨rfl, rfl⟩ : body' = body ∧ properties' = properties := by
            simpa [hbody, hproperties, pure, Except.pure] using h
          rw [writeFrame, Effect.bind_ok _ Effect.get_run]
          simp only [Option.map_some, hbody, hproperties, Effect.liftExcept_ok, pure_bind]
          by_cases hbig : Big w args.toBytes properties' body'
          · have hsize := hbig
            unfold Big at hsize
            simp only [if_pos hbig, if_pos hsize]
            rfl
          · have hsize := hbig
            unfold Big at hsize
            simp only [if_neg hbig, if_neg hsize]
            rfl

/-- A content that cannot be encoded raises before anything is packed. -/
theorem writeFrame_content_error (transport : TransportWrite) {codec : Codec}
    (frameType channel : Nat) (methodSig : Option MethodSig) (args : Option Text)
    {content : Message} {e : PyError} (w : Writer) (h : contentOctets codec content = .error e) :
    writeFrame transport codec frameType channel methodSig args (some content) w =
      (.error e, w) := by
  unfold contentOctets at h
  cases hbody : encodeBody codec content with
  | error e' =>
      obtain rfl : e' = e := by simpa [hbody] using h
      simp [writeFrame, hbody]
  | ok value =>
      obtain ⟨body, props⟩ := value
      cases hproperties : serializeProperties basicProperties props with
      | ok properties => simp [hbody, hproperties, pure, Except.pure] at h
      | error e' =>
          obtain rfl : e' = e := by simpa [hbody, hproperties] using h
          simp [writeFrame, hbody, hproperties]

/-- Arguments that are `None` have no length to add up. -/
theorem writeFrame_content_argless (transport : TransportWrite) {codec : Codec}
    (frameType channel : Nat) (methodSig : Option MethodSig) {content : Message}
    {value : Octets × Octets} (w : Writer) (h : contentOctets codec content = .ok value) :
    writeFrame transport codec frameType channel methodSig none (some content) w =
      (.error .typeError, w) := by
  unfold contentOctets at h
  cases hbody : encodeBody codec content with
  | error e => simp [hbody] at h
  | ok value' =>
      obtain ⟨body, props⟩ := value'
      cases hproperties : serializeProperties basicProperties props with
      | error e => simp [hbody, hproperties] at h
      | ok properties => simp [writeFrame, hbody, hproperties]

theorem writeFrame_bare (transport : TransportWrite) (codec : Codec) (frameType channel : Nat)
    (methodSig : Option MethodSig) (args : Option Text) (w : Writer) :
    writeFrame transport codec frameType channel methodSig args none w =
      (writeFast transport frameType channel methodSig (args.map Text.toBytes) none
        w.chunkSize >>= fun _ => countSent) w := by
  rw [writeFrame, Effect.bind_ok _ Effect.get_run]
  rfl

/-! Calls that succeed -/

section Success

variable {transport : TransportWrite} {codec : Codec} {frameType channel : Nat}
  {methodSig : Option MethodSig} {content : Message} {body properties : Octets}
  {frames : List Frame} {w : Writer}

theorem writeFrame_slow_ok (htransport : ∀ handed, transport handed = .ok ()) (args : Text)
    (hcontent : contentOctets codec content = .ok (body, properties))
    (hbig : Big w args.toBytes properties body) (hmax : 8 < w.frameMax)
    (hframes : slowFrames frameType channel methodSig (some args.toBytes) properties body
      (w.frameMax - 8) = .ok frames)
    (hwf : ∀ frame ∈ frames, frame.WellFormed) :
    writeFrame transport codec frameType channel methodSig (some args) (some content) w =
      (.ok (), { w with
        bytesSent := w.bytesSent + 1
        handed := w.handed ++ frames.map Frame.octets }) := by
  rw [← w.chunkSize_toNat] at hframes
  rw [writeFrame_content transport frameType channel methodSig args w hcontent, if_pos hbig,
    writeSlow_eq transport (Writer.chunkSize_pos hmax) hframes,
    Effect.bind_ok _ (writeEach_ok transport htransport frames hwf w), countSent,
    Effect.modify_run]

theorem writeFrame_fast_ok (htransport : ∀ handed, transport handed = .ok ()) (args : Text)
    (hcontent : contentOctets codec content = .ok (body, properties))
    (hsmall : ¬ Big w args.toBytes properties body)
    (hframes : fastFrames frameType channel methodSig (some args.toBytes)
      (some (properties, body)) = .ok frames)
    (hfits : Fits (w.resized w.chunkSize).buf.length frames) :
    ∃ buf, buf.length = (w.resized w.chunkSize).buf.length ∧
      writeFrame transport codec frameType channel methodSig (some args) (some content) w =
        (.ok (), { w with
          buf := buf
          bytesSent := w.bytesSent + 1
          handed := w.handed ++ [frames.flatMap Frame.octets] }) := by
  obtain ⟨buf, hlength, hrun⟩ := writeFast_run transport w.chunkSize w hframes hfits
  rw [htransport] at hrun
  refine ⟨buf, hlength, ?_⟩
  rw [writeFrame_content transport frameType channel methodSig args w hcontent, if_neg hsmall,
    Effect.bind_ok _ hrun, countSent, Effect.modify_run]

/-- A call that returned has handed over the frames of the path its content took, whatever
the transport does. -/
theorem writeFrame_handed {args : Text} {w' : Writer} (hmax : 8 < w.frameMax)
    (hcontent : contentOctets codec content = .ok (body, properties))
    (hrun : writeFrame transport codec frameType channel methodSig (some args) (some content) w =
      (.ok (), w')) :
    ∃ frames handed, w'.handed = w.handed ++ handed ∧
      handed.flatten = frames.flatMap Frame.octets ∧ (∀ frame ∈ frames, frame.WellFormed) ∧
      if Big w args.toBytes properties body then
        slowFrames frameType channel methodSig (some args.toBytes) properties body
          (w.frameMax - 8) = .ok frames
      else
        fastFrames frameType channel methodSig (some args.toBytes) (some (properties, body)) =
          .ok frames := by
  rw [writeFrame_content transport frameType channel methodSig args w hcontent] at hrun
  obtain ⟨_, mid, hpath, hcount⟩ := Effect.bind_eq_ok hrun
  have hhanded : w'.handed = mid.handed := by
    rw [countSent, Effect.modify_run] at hcount
    rw [← (Prod.mk.inj hcount).2]
  rw [hhanded]
  by_cases hbig : Big w args.toBytes properties body
  · simp only [if_pos hbig] at hpath ⊢
    cases hframes : slowFrames frameType channel methodSig (some args.toBytes) properties body
        w.chunkSize.toNat with
    | error e =>
        obtain ⟨e', sent, herror, -⟩ := writeSlow_payload_error transport hframes w
        rw [herror] at hpath
        simp at hpath
    | ok frames =>
        rw [writeSlow_eq transport (Writer.chunkSize_pos hmax) hframes] at hpath
        obtain ⟨r, sent, -, hwf, heach, hdone⟩ := writeEach_run transport frames w
        rw [heach] at hpath
        obtain ⟨hr, rfl⟩ := Prod.mk.inj hpath
        obtain rfl := hdone hr
        rw [w.chunkSize_toNat] at hframes
        exact ⟨sent, sent.map Frame.octets, rfl, by rw [List.flatMap_def], hwf, hframes⟩
  · simp only [if_neg hbig] at hpath ⊢
    by_cases hfits : ∃ frames, fastFrames frameType channel methodSig (some args.toBytes)
        (some (properties, body)) = .ok frames ∧ Fits (w.resized w.chunkSize).buf.length frames
    · obtain ⟨frames, hframes, hfits⟩ := hfits
      obtain ⟨buf, -, hfast⟩ := writeFast_run transport w.chunkSize w hframes hfits
      rw [hfast] at hpath
      obtain ⟨-, rfl⟩ := Prod.mk.inj hpath
      exact ⟨frames, [frames.flatMap Frame.octets], rfl, List.flatten_singleton, hfits.1, hframes⟩
    · obtain ⟨e, buf, -, herror⟩ := writeFast_raises transport w.chunkSize w
        fun frames hframes hfit => hfits ⟨frames, hframes, hfit⟩
      rw [herror] at hpath
      simp at hpath

theorem writeFrame_bare_ok (htransport : ∀ handed, transport handed = .ok ())
    (codec : Codec) (args : Option Text)
    (hframes : fastFrames frameType channel methodSig (args.map Text.toBytes) none = .ok frames)
    (hfits : Fits (w.resized w.chunkSize).buf.length frames) :
    ∃ buf, buf.length = (w.resized w.chunkSize).buf.length ∧
      writeFrame transport codec frameType channel methodSig args none w =
        (.ok (), { w with
          buf := buf
          bytesSent := w.bytesSent + 1
          handed := w.handed ++ [frames.flatMap Frame.octets] }) := by
  obtain ⟨buf, hlength, hrun⟩ := writeFast_run transport w.chunkSize w hframes hfits
  rw [htransport] at hrun
  refine ⟨buf, hlength, ?_⟩
  rw [writeFrame_bare, Effect.bind_ok _ hrun, countSent, Effect.modify_run]

end Success

/-! What a call leaves alone -/

/-- `frame_max` and `bytes_sent` -/
def Writer.settings (w : Writer) : Nat × Nat := (w.frameMax, w.bytesSent)

private theorem writeFast_keeps (transport : TransportWrite) (frameType channel : Nat)
    (methodSig : Option MethodSig) (args : Option Octets) (content : Option (Octets × Octets))
    (chunkSize : Int) :
    Effect.Keeps Writer.settings
      (writeFast transport frameType channel methodSig args content chunkSize) := by
  intro w
  by_cases hfits : ∃ frames, fastFrames frameType channel methodSig args content = .ok frames ∧
      Fits (w.resized chunkSize).buf.length frames
  · obtain ⟨frames, hframes, hfits⟩ := hfits
    obtain ⟨buf, -, hrun⟩ := writeFast_run transport chunkSize w hframes hfits
    rw [hrun]
    rfl
  · obtain ⟨e, buf, -, hrun⟩ := writeFast_raises transport chunkSize w
      fun frames hframes hfit => hfits ⟨frames, hframes, hfit⟩
    rw [hrun]
    rfl

/-- Frames written one by one leave everything alone but what was handed over. -/
private theorem writePacked_keeps {τ : Type} {view : Writer → τ}
    (hview : ∀ w handed, view { w with handed } = view w) (transport : TransportWrite)
    (frameType channel : Nat) (payload : Octets) :
    Effect.Keeps view (writePacked transport frameType channel payload) :=
  (Effect.Keeps.liftExcept _).bind fun _ w => hview w _

theorem writeSlow_keeps {τ : Type} {view : Writer → τ}
    (hview : ∀ w handed, view { w with handed } = view w) (transport : TransportWrite)
    (frameType channel : Nat) (methodSig : Option MethodSig) (args : Option Octets)
    (properties body : Octets) (chunkSize : Int) :
    Effect.Keeps view
      (writeSlow transport frameType channel methodSig args properties body chunkSize) := by
  apply (Effect.Keeps.liftExcept _).bind
  intro frame
  apply (writePacked_keeps hview _ _ _ _).bind
  intro _
  split
  · apply (Effect.Keeps.liftExcept _).bind
    intro frame
    apply (writePacked_keeps hview _ _ _ _).bind
    intro _
    apply (Effect.Keeps.liftExcept _).bind
    intro offsets
    exact Effect.Keeps.forEach fun i _ => writePacked_keeps hview _ _ _ _
  · exact Effect.Keeps.pure ()

/-- A call does all its work before it counts, and the work leaves the settings alone. -/
private theorem writeFrame_work (transport : TransportWrite) (codec : Codec)
    (frameType channel : Nat) (methodSig : Option MethodSig) (args : Option Text)
    (content : Option Message) (w : Writer) :
    ∃ work : Effect Writer PyError Unit, Effect.Keeps Writer.settings work ∧
      writeFrame transport codec frameType channel methodSig args content w =
        (work >>= fun _ => countSent) w := by
  cases content with
  | none => exact ⟨_, writeFast_keeps _ _ _ _ _ _ _, writeFrame_bare _ _ _ _ _ _ _⟩
  | some content =>
      cases hcontent : contentOctets codec content with
      | error e =>
          exact ⟨Effect.raise e, Effect.Keeps.raise e,
            writeFrame_content_error transport frameType channel methodSig args w hcontent⟩
      | ok value =>
          cases args with
          | none =>
              exact ⟨Effect.raise .typeError, Effect.Keeps.raise _,
                writeFrame_content_argless transport frameType channel methodSig w hcontent⟩
          | some args =>
              refine ⟨_, ?_,
                writeFrame_content transport frameType channel methodSig args w hcontent⟩
              split
              · exact writeSlow_keeps (fun _ _ => rfl) _ _ _ _ _ _ _ _
              · exact writeFast_keeps _ _ _ _ _ _ _

theorem writeFrame_frameMax (transport : TransportWrite) (codec : Codec)
    (frameType channel : Nat) (methodSig : Option MethodSig) (args : Option Text)
    (content : Option Message) (w : Writer) :
    (writeFrame transport codec frameType channel methodSig args content w).2.frameMax =
      w.frameMax := by
  obtain ⟨work, hkeeps, hrun⟩ :=
    writeFrame_work transport codec frameType channel methodSig args content w
  have hmax : Effect.Keeps Writer.frameMax (work >>= fun _ => countSent) :=
    Effect.Keeps.bind (fun w => congrArg Prod.fst (hkeeps w)) fun _ _ => rfl
  rw [hrun]
  exact hmax w

/-- Only a call that returns is counted. -/
theorem writeFrame_bytesSent (transport : TransportWrite) (codec : Codec)
    (frameType channel : Nat) (methodSig : Option MethodSig) (args : Option Text)
    (content : Option Message) (w : Writer) :
    (writeFrame transport codec frameType channel methodSig args content w).2.bytesSent =
      match (writeFrame transport codec frameType channel methodSig args content w).1 with
      | .ok _ => w.bytesSent + 1
      | .error _ => w.bytesSent := by
  obtain ⟨work, hkeeps, hrun⟩ :=
    writeFrame_work transport codec frameType channel methodSig args content w
  have hsent : (work w).2.bytesSent = w.bytesSent := congrArg Prod.snd (hkeeps w)
  rw [hrun]
  simp only [Effect.bind_run, countSent, Effect.modify_run]
  cases hwork : work w with
  | mk r w' =>
      rw [hwork] at hsent
      cases r <;> simp [← hsent]

end PyAmqp
