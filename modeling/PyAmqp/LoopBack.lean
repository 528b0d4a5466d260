import PyAmqp.Framing.WriterSpec
import PyAmqp.Framing.Demultiplexing
import PyAmqp.Serialization.PropertyRoundTrip
import PyAmqp.Transport.Stream

/-!
Writing frames and reading them back: what `write_frame` hands to the transport,
cut into frames by `read_frame` and passed to `on_frame`, calls the callback once for
every method and content written.
-/

namespace PyAmqp

open Demultiplex Cursor

/-- A call of `write_frame` that a peer can take back: a heartbeat, a method without
content that fits the buffer, or a content that is not empty. -/
inductive Loopable (frameMax : Nat) : WriteCall → Prop
  | heartbeat {channel : Nat} {methodSig : Option MethodSig} {args : Option Text}
      (hchannel : channel < 2 ^ 16) : Loopable frameMax ⟨8, channel, methodSig, args, none⟩
  | method {channel : Nat} {sig : MethodSig} {args : Text} (hchannel : channel < 2 ^ 16)
      (hclassId : sig.1 < 2 ^ 16) (hmethodId : sig.2 < 2 ^ 16) (hbare : sig ∉ contentMethods)
      (hargs : 12 + args.toBytes.length ≤ frameMax - 8) :
      Loopable frameMax ⟨1, channel, some sig, some args, none⟩
  | content {channel : Nat} {sig : MethodSig} {args : Text} {content : Message} {body : Octets}
      (hchannel : channel < 2 ^ 16) (hsig : sig ∈ contentMethods)
      (hargs : 4 + args.toBytes.length < 2 ^ 32)
      (hbody : content.body = .bytes body) (hne : body ≠ []) (hlength : body.length < 2 ^ 64)
      (hrange : content.properties.InRange basicProperties)
      (hheader : ∀ properties,
        serializeProperties basicProperties content.properties = .ok properties →
          12 + properties.length < 2 ^ 32) :
      Loopable frameMax ⟨1, channel, some sig, some args, some content⟩

/-- The call of the callback that a call of `write_frame` comes back as. -/
inductive Echo : WriteCall → Call → Prop
  | method {channel : Nat} {sig : MethodSig} {args : Text} :
      Echo ⟨1, channel, some sig, some args, none⟩
        { channel, methodSig := some sig, args := some (methodOctets sig args.toBytes)
          content := none }
  | content {channel : Nat} {sig : MethodSig} {args : Text} {content msg : Message}
      {body : Octets} (hwritten : content.body = .bytes body) (hbody : msg.body = .bytes body)
      (hproperties : PropertiesBack (content.properties.written basicProperties)
        msg.properties) :
      Echo ⟨1, channel, some sig, some args, some content⟩
        { channel, methodSig := some sig, args := some (methodOctets sig args.toBytes)
          content := some msg }

/-- What comes back of some calls: each but the heartbeats once, in order. -/
def Echoed (calls : List WriteCall) (called : List Call) : Prop :=
  List.Forall₂ Echo (calls.filter fun call => call.frameType ≠ 8) called

/-- The frames make these calls of the callback, raise nothing and leave every channel
between contents. -/
def Decodes (frames : List Frame) (called : List Call) : Prop :=
  ∃ trace, run (stepAt Decoder.step Frame.channel) (fun _ => .idle) frames =
      (trace, fun _ => .idle) ∧
    (∀ entry ∈ trace, ∃ returned, entry.2.returned = .ok returned) ∧
    trace.flatMap (fun entry => entry.2.calls) = called

theorem Decodes.append {frames frames' : List Frame} {called called' : List Call}
    (h : Decodes frames called) (h' : Decodes frames' called') :
    Decodes (frames ++ frames') (called ++ called') := by
  obtain ⟨trace, hrun, hreturned, rfl⟩ := h
  obtain ⟨trace', hrun', hreturned', rfl⟩ := h'
  refine ⟨trace ++ trace', ?_, ?_, List.flatMap_append⟩
  · rw [run_append, hrun]
    simp only [hrun']
  · intro entry hentry
    rcases List.mem_append.mp hentry with hentry | hentry
    · exact hreturned entry hentry
    · exact hreturned' entry hentry

/-! Items -/

namespace Item

theorem traceOf_calls (call : Call) {frames : List Frame} (h : frames ≠ []) :
    (traceOf call frames).flatMap (fun entry => entry.2.calls) = [call] ∧
      ∀ entry ∈ traceOf call frames, ∃ returned, entry.2.returned = .ok returned := by
  induction frames with
  | nil => exact absurd rfl h
  | cons frame frames ih =>
      cases frames with
      | nil => simp [traceOf]
      | cons next rest =>
          obtain ⟨hcalls, hreturned⟩ := ih (by simp)
          refine ⟨by simpa [traceOf] using hcalls, ?_⟩
          intro entry hentry
          rcases List.mem_cons.mp hentry with rfl | hentry
          · exact ⟨false, rfl⟩
          · exact hreturned entry hentry

theorem frames_ne_nil (channel : Nat) (item : Item) : item.frames channel ≠ [] := by
  cases item <;> simp [frames]

theorem frames_channel (channel : Nat) (item : Item) :
    ∀ frame ∈ item.frames channel, frame.channel = channel := by
  cases item <;> simp [frames]

/-- The frames of an item make its call. -/
theorem decodes (channel : Nat) (item : Item) :
    Decodes (item.frames channel) [item.call channel] := by
  obtain ⟨hcalls, hreturned⟩ := traceOf_calls (item.call channel) (item.frames_ne_nil channel)
  refine ⟨item.trace channel, ?_, hreturned, hcalls⟩
  rw [run_alone Decoder.step Frame.channel _ (item.frames_channel channel), run_item,
    Function.update_eq_self]

end Item

theorem heartbeat_decodes (channel : Nat) : Decodes [⟨8, channel, []⟩] [] := by
  refine ⟨[(⟨8, channel, []⟩, { returned := .ok false, calls := [] })], ?_, by simp, rfl⟩
  simp [run, stepAt, Decoder.step, Decoder.wait]

theorem reads_unpackMethodSig {sig : MethodSig} (h1 : sig.1 < 2 ^ 16) (h2 : sig.2 < 2 ^ 16) :
    Reads unpackMethodSig (BigEndian.encode 2 sig.1 ++ BigEndian.encode 2 sig.2) sig :=
  (reads_unpackFrom 2 h1).bind ((reads_unpackFrom 2 h2).bind_pure (Prod.mk sig.1))

/-- The method payload starts with the signature. -/
theorem unpackMethodSig_ok {sig : MethodSig} (h1 : sig.1 < 2 ^ 16) (h2 : sig.2 < 2 ^ 16)
    (args : Octets) : unpackMethodSig (methodOctets sig args) 0 = .ok (sig, 4) := by
  have hread := reads_unpackMethodSig h1 h2 [] args
  simpa [methodOctets] using hread

theorem reads_unpackHeader {classId bodyLen : Nat} (h1 : classId < 2 ^ 16)
    (h2 : bodyLen < 2 ^ 64) :
    Reads unpackHeader (BigEndian.encode 2 classId ++
      (BigEndian.encode 2 0 ++ BigEndian.encode 8 bodyLen)) (classId, bodyLen) := by
  have hweight : Reads (Cursor.exactly PyError.structError 2) (BigEndian.encode 2 0)
      (BigEndian.encode 2 0) := Reads.exactly _ (BigEndian.encode_length 2 0)
  exact (reads_unpackFrom 2 h1).bind (hweight.bind
    ((reads_unpackFrom 8 h2).bind_pure (Prod.mk classId)))

/-- The header payload starts with the class and the size of the body. -/
theorem unpackHeader_ok {sig : MethodSig} {bodyLen : Nat} (h1 : sig.1 < 2 ^ 16)
    (h2 : bodyLen < 2 ^ 64) (properties : Octets) :
    unpackHeader (headerOctets sig bodyLen properties) 0 = .ok ((sig.1, bodyLen), 12) := by
  have hread := reads_unpackHeader h1 h2 [] properties
  simpa [headerOctets] using hread

theorem contentMethods_basic {sig : MethodSig} (h : sig ∈ contentMethods) :
    sig.1 = Spec.Basic.classId ∧ sig.1 < 2 ^ 16 ∧ sig.2 < 2 ^ 16 := by
  have hall : ∀ sig ∈ contentMethods,
      sig.1 = Spec.Basic.classId ∧ sig.1 < 2 ^ 16 ∧ sig.2 < 2 ^ 16 := by decide
  exact hall sig h

/-- The message that is put together from a content. A body without octets leaves the text
a message starts with. -/
def contentMessage (sig : MethodSig) (args : Octets) (back : Properties) (body : Octets) :
    Message where
  frameMethod := some sig
  frameArgs := some (methodOctets sig args)
  properties := back
  body := if body.length = 0 then .str [] else .bytes body
  bodyReceived := body.length
  bodySize := body.length
  ready := true

def contentCall (channel : Nat) (sig : MethodSig) (args : Octets) (back : Properties)
    (body : Octets) : Call :=
  { channel
    methodSig := some sig
    args := some (methodOctets sig args)
    content := some (contentMessage sig args back body) }

/-- The frames of a content are an item. -/
theorem content_decodes {channel : Nat} {sig : MethodSig} {args body properties : Octets}
    {back : Properties} {bodies : List Octets} {next : Nat}
    (hsig : sig ∈ contentMethods) (hlength : body.length < 2 ^ 64)
    (hbodies : bodies.flatten = body) (hpieces : ∀ piece ∈ bodies, piece ≠ [])
    (hback : decodePropertiesBasic (headerOctets sig body.length properties) 12 =
      .ok (back, next)) :
    Decodes (⟨1, channel, methodOctets sig args⟩ ::
      ⟨2, channel, headerOctets sig body.length properties⟩ ::
        bodies.map (Frame.mk 3 channel)) [contentCall channel sig args back body] := by
  obtain ⟨hclassId, h1, h2⟩ := contentMethods_basic hsig
  have hsize := unpackHeader_ok h1 hlength properties
  rw [hclassId] at hsize
  have hlast : if body.length = 0 then bodies = []
      else bodies.dropLast.flatten.length < body.length := by
    rcases List.eq_nil_or_concat' bodies with rfl | ⟨front, last, rfl⟩
    · obtain rfl : [] = body := hbodies
      simp
    · have hpos : 0 < last.length := List.length_pos_iff.mpr (hpieces last (by simp))
      rw [← hbodies]
      simp only [List.dropLast_concat, List.flatten_append, List.length_append,
        List.flatten_singleton]
      rw [if_neg (by omega)]
      omega
  let item : Item := .content (methodOctets sig args) sig (unpackMethodSig_ok h1 h2 args) hsig
    (headerOctets sig body.length properties) body.length back hsize ⟨next, hback⟩ bodies
    (by rw [hbodies]) hlast
  have hcall : item.call channel = contentCall channel sig args back body := by
    simp only [item, Item.call, Item.message?, hbodies]
    rfl
  exact hcall ▸ item.decodes channel

/-! Calls of `write_frame` -/

section Writes

variable {transport : TransportWrite} {codec : Codec} {frameMax : Nat} {w : Writer}

/-- A call hands over frames that decode as it should. -/
def Written (frameMax : Nat) (calls : List WriteCall) (w : Writer)
    (run : Except PyError Unit × Writer) : Prop :=
  ∃ handed frames called, run.1 = .ok () ∧ run.2.frameMax = frameMax ∧
    run.2.handed = w.handed ++ handed ∧ handed.flatten = frames.flatMap Frame.octets ∧
    (∀ frame ∈ frames, frame.WellFormed) ∧ Decodes frames called ∧ Echoed calls called

/-- A frame without content that fits the buffer. -/
private theorem bare_written (htransport : ∀ handed, transport handed = .ok ())
    (hw : w.frameMax = frameMax) {frameType channel : Nat} {methodSig : Option MethodSig}
    {args : Option Text} {payload : Octets} {called : List Call}
    (hpayload : methodPayload frameType methodSig (args.map Text.toBytes) = .ok payload)
    (hwf : (Frame.mk frameType channel payload).WellFormed)
    (hsize : payload.length + 16 ≤ frameMax)
    (hdecodes : Decodes [⟨frameType, channel, payload⟩] called)
    (hechoed : Echoed [⟨frameType, channel, methodSig, args, none⟩] called) :
    Written frameMax [⟨frameType, channel, methodSig, args, none⟩] w
      (writeFrame transport codec frameType channel methodSig args none w) := by
  have hframes : fastFrames frameType channel methodSig (args.map Text.toBytes) none =
      .ok [⟨frameType, channel, payload⟩] := by
    simp [fastFrames, hpayload, pure, Except.pure]
  have hfits : Fits (w.resized w.chunkSize).buf.length [⟨frameType, channel, payload⟩] := by
    have hresized := w.resized_length w.chunkSize
    have hchunkSize : w.chunkSize = (w.frameMax : Int) - 8 := rfl
    refine ⟨by simpa using hwf, ?_⟩
    simp only [List.flatMap_cons, List.flatMap_nil, List.append_nil, Frame.octets_length]
    omega
  obtain ⟨buf, -, hrun⟩ := writeFrame_bare_ok htransport codec args hframes hfits
  rw [hrun]
  exact ⟨_, _, called, rfl, hw, rfl, by simp, by simpa using hwf, hdecodes, hechoed⟩

/-- The frames of a content, on either path. -/
private theorem content_frames (htransport : ∀ handed, transport handed = .ok ())
    (hw : w.frameMax = frameMax) (hmin : 16 ≤ frameMax) (hmax : frameMax < 2 ^ 32)
    {channel : Nat} {sig : MethodSig} {args : Text} {content : Message}
    {body properties : Octets} (hchannel : channel < 2 ^ 16) (h1 : sig.1 < 2 ^ 16)
    (h2 : sig.2 < 2 ^ 16) (hargs : 4 + args.toBytes.length < 2 ^ 32) (hne : body ≠ [])
    (hlength : body.length < 2 ^ 64) (hheader : 12 + properties.length < 2 ^ 32)
    (hcontent : contentOctets codec content = .ok (body, properties)) :
    ∃ (w' : Writer) (handed bodies : List Octets),
      writeFrame transport codec 1 channel (some sig) (some args) (some content) w = (.ok (), w') ∧
      w'.frameMax = frameMax ∧ w'.handed = w.handed ++ handed ∧
      handed.flatten = (⟨1, channel, methodOctets sig args.toBytes⟩ ::
        ⟨2, channel, headerOctets sig body.length properties⟩ ::
          bodies.map (Frame.mk 3 channel)).flatMap Frame.octets ∧
      bodies.flatten = body ∧ ∀ piece ∈ bodies, piece ≠ [] ∧ piece.length < 2 ^ 32 := by
  have hmethodWf : (Frame.mk 1 channel (methodOctets sig args.toBytes)).WellFormed :=
    ⟨by simp, hchannel, by simpa using hargs⟩
  have hheaderWf : (Frame.mk 2 channel (headerOctets sig body.length properties)).WellFormed :=
    ⟨by simp, hchannel, by simpa using hheader⟩
  by_cases hbig : Big w args.toBytes properties body
  · have hframes := slowFrames_ok h1 h2 hlength hne channel args.toBytes properties
      (w.frameMax - 8)
    have hpieces : ∀ piece ∈ chunks (w.frameMax - 8) body,
        piece ≠ [] ∧ piece.length < 2 ^ 32 := by
      intro piece hpiece
      have hle := Chunks.length_le hpiece
      exact ⟨Chunks.ne_nil (by omega) hpiece, by omega⟩
    have hwf : ∀ frame ∈ Frame.mk 1 channel (methodOctets sig args.toBytes) ::
        ⟨2, channel, headerOctets sig body.length properties⟩ ::
          (chunks (w.frameMax - 8) body).map (Frame.mk 3 channel), frame.WellFormed := by
      simp only [List.forall_mem_cons, List.forall_mem_map]
      exact ⟨hmethodWf, hheaderWf, fun piece hpiece =>
        ⟨by simp, hchannel, (hpieces piece hpiece).2⟩⟩
    have hrun := writeFrame_slow_ok htransport args hcontent hbig (by omega) hframes hwf
    exact ⟨_, _, chunks (w.frameMax - 8) body, hrun, hw, rfl, List.flatMap_def.symm,
      Chunks.flatten (by omega) body, hpieces⟩
  · have hframes := fastFrames_ok h1 h2 hlength hne channel args.toBytes properties
    have hsmall := hbig
    unfold Big frameOverhead Writer.chunkSize at hsmall
    have hfits : Fits (w.resized w.chunkSize).buf.length
        [⟨1, channel, methodOctets sig args.toBytes⟩,
          ⟨2, channel, headerOctets sig body.length properties⟩, ⟨3, channel, body⟩] := by
      have hresized := w.resized_length w.chunkSize
      have hchunkSize : w.chunkSize = (w.frameMax : Int) - 8 := rfl
      refine ⟨?_, ?_⟩
      · simp only [List.forall_mem_cons]
        exact ⟨hmethodWf, hheaderWf, ⟨by simp, hchannel, by simp only; omega⟩, by simp⟩
      · simp only [List.flatMap_cons, List.flatMap_nil, List.append_nil, List.length_append,
          Frame.octets_length, methodOctets_length, headerOctets_length]
        omega
    obtain ⟨buf, -, hrun⟩ := writeFrame_fast_ok htransport args hcontent hbig hframes hfits
    exact ⟨_, _, [body], hrun, hw, rfl, by simp, by simp, by simpa using ⟨hne, by omega⟩⟩

theorem writeCall_written (htransport : ∀ handed, transport handed = .ok ())
    (hw : w.frameMax = frameMax) (hmin : 16 ≤ frameMax) (hmax : frameMax < 2 ^ 32)
    {call : WriteCall} (h : Loopable frameMax call) :
    Written frameMax [call] w (call.run transport codec w) := by
  cases h with
  | heartbeat hchannel =>
      exact bare_written htransport hw rfl ⟨by simp, hchannel, by simp⟩ (by simpa using hmin)
        (heartbeat_decodes _) (by simp [Echoed])
  | @method channel sig args hchannel h1 h2 hbare hargs =>
      have hpayload := methodPayload_ok h1 h2 args.toBytes
      let item : Item := .method (methodOctets sig args.toBytes) sig
        (unpackMethodSig_ok h1 h2 args.toBytes) hbare
      refine bare_written htransport hw hpayload ⟨by simp, hchannel, ?_⟩ ?_
        (item.decodes channel) ?_
      · simp only [methodOctets_length]
        omega
      · simp only [methodOctets_length]
        omega
      · simpa [Echoed, item, Item.call] using Echo.method
  | @content channel sig args content body hchannel hsig hargs hbody hne hlength hrange hheader =>
      obtain ⟨properties, props', hserialize, hback, hread⟩ := serializeProperties_reads _ hrange
      obtain ⟨-, h1, h2⟩ := contentMethods_basic hsig
      have hcontent : contentOctets codec content = .ok (body, properties) := by
        simp [contentOctets, encodeBody, hbody, hserialize, pure, Except.pure]
      have hsize := hheader properties hserialize
      obtain ⟨w', handed, bodies, hrun, hframeMax, hhanded, hoctets, hbodies, hpieces⟩ :=
        content_frames htransport hw hmin hmax hchannel h1 h2 hargs hne hlength hsize hcontent
      have hproperties : decodePropertiesBasic (headerOctets sig body.length properties) 12 =
          .ok (props', 12 + properties.length) := by
        have h := hread (BigEndian.encode 2 sig.1 ++ BigEndian.encode 2 0 ++
          BigEndian.encode 8 body.length) []
        simpa [headerOctets] using h
      have hdecodes : Decodes _ [contentCall channel sig args.toBytes props' body] :=
        content_decodes hsig hlength hbodies (fun piece hpiece => (hpieces piece hpiece).1)
          hproperties
      have hecho : Echo ⟨1, channel, some sig, some args, some content⟩
          (contentCall channel sig args.toBytes props' body) :=
        .content hbody (by simp [contentMessage, hne]) hback
      rw [WriteCall.run, hrun]
      refine ⟨handed, _, _, rfl, hframeMax, hhanded, hoctets, ?_, hdecodes, ?_⟩
      · simp only [List.forall_mem_cons, List.forall_mem_map]
        exact ⟨⟨by simp, hchannel, by simpa using hargs⟩,
          ⟨by simp, hchannel, by simpa using hsize⟩,
          fun piece hpiece => ⟨by simp, hchannel, (hpieces piece hpiece).2⟩⟩
      · simpa [Echoed] using hecho

/-- Calls one after the other hand over their frames one after the other. -/
theorem writeCalls_written (htransport : ∀ handed, transport handed = .ok ())
    (hmin : 16 ≤ frameMax) (hmax : frameMax < 2 ^ 32) {calls : List WriteCall}
    (h : ∀ call ∈ calls, Loopable frameMax call) (hw : w.frameMax = frameMax) :
    Written frameMax calls w
      (Effect.forEach (WriteCall.run transport codec) calls w) := by
  induction calls generalizing w with
  | nil =>
      exact ⟨[], [], [], rfl, hw, by simp [Effect.forEach], rfl, by simp, ⟨[], rfl, by simp, rfl⟩,
        by simp [Echoed]⟩
  | cons call calls ih =>
      have hcall : Written frameMax [call] w (call.run transport codec w) :=
        writeCall_written htransport hw hmin hmax (h call (by simp))
      obtain ⟨handed, frames, called, hok, hframeMax, hhanded, hoctets, hwf, hdecodes, hechoed⟩ :=
        hcall
      obtain ⟨handed', frames', called', hok', hframeMax', hhanded', hoctets', hwf', hdecodes',
        hechoed'⟩ := ih (fun other hother => h other (by simp [hother])) hframeMax
      have hrun : call.run transport codec w = (.ok (), (call.run transport codec w).2) := by
        rw [← hok]
      refine ⟨handed ++ handed', frames ++ frames', called ++ called', ?_, ?_, ?_, ?_, ?_,
        hdecodes.append hdecodes', ?_⟩
      · rw [Effect.forEach, Effect.bind_ok _ hrun]
        exact hok'
      · rw [Effect.forEach, Effect.bind_ok _ hrun]
        exact hframeMax'
      · rw [Effect.forEach, Effect.bind_ok _ hrun, hhanded', hhanded, List.append_assoc]
      · rw [List.flatten_append, List.flatMap_append, hoctets, hoctets']
      · intro frame hframe
        exact (List.mem_append.mp hframe).elim (hwf frame) (hwf' frame)
      · have happend := List.rel_append hechoed hechoed'
        simp only [← List.filter_append, List.singleton_append] at happend
        exact happend

end Writes

/-- The frames a peer reads from a transport, with what `on_frame` makes of each. -/
def received (cfg : TransportConfig) (reads : Nat) (t : Transport) : List (Frame × Outcome) :=
  (run onFrameStep {} (Transport.readFrames cfg reads t).1).1

/-- Frames are read back from the octets handed over, however `recv` returns them, and
the callback has exactly the calls written, in order. -/
theorem writeFrame_loopBack {transport : TransportWrite} {codec : Codec} {frameMax : Nat}
    {w : Writer} {calls : List WriteCall} (htransport : ∀ handed, transport handed = .ok ())
    (hmin : 16 ≤ frameMax) (hmax : frameMax < 2 ^ 32) (hnew : Writer.new frameMax = .ok w)
    (h : ∀ call ∈ calls, Loopable frameMax call) :
    ∃ w', Effect.forEach (WriteCall.run transport codec) calls w = (.ok (), w') ∧
      ∀ (cfg : TransportConfig) (t : Transport) (reads : Nat),
        t.readBuffer = [] → t.unread = w'.handed.flatten →
        (∀ event ∈ t.schedule, Transport.Survivable cfg event) →
        t.unread.length ≤ Transport.pieces t.schedule →
        t.unread.length + t.schedule.length < reads →
        (∀ entry ∈ received cfg reads t, ∃ returned, entry.2.returned = .ok returned) ∧
          Echoed calls ((received cfg reads t).flatMap fun entry => entry.2.calls) := by
  obtain rfl : { frameMax, buf := List.replicate (frameMax - 8) 0 } = w := by
    simpa [Writer.new, show ¬ frameMax < 8 by omega] using hnew
  obtain ⟨handed, frames, called, hok, -, hhanded, hoctets, hwf, hdecodes, hechoed⟩ :=
    @writeCalls_written transport codec frameMax
      { frameMax, buf := List.replicate (frameMax - 8) 0 } htransport hmin hmax calls h rfl
  refine ⟨_, Prod.ext hok rfl, fun cfg t reads hbuffer hunread hschedule hpieces hreads => ?_⟩
  rw [hhanded, List.nil_append, hoctets] at hunread
  have hcount : frames.length ≤ t.unread.length := by
    rw [hunread]
    exact Frame.length_le_octets frames
  have hstream : t.readBuffer ++ t.unread = frames.flatMap Frame.octets := by
    rw [hbuffer, List.nil_append, hunread]
  have hframes : (Transport.readFrames cfg reads t).1 = frames :=
    Transport.readFrames_all hwf hschedule hstream (.inl hpieces) (by omega)
  obtain ⟨trace, hrun, hreturned, rfl⟩ := hdecodes
  have htrace : received cfg reads t = trace := by
    rw [received, hframes, onFrameStep_run, hrun]
  rw [htrace]
  exact ⟨hreturned, hechoed⟩

/-- A heartbeat, a method and a delivery with a priority, in frames of at most 64 octets,
read back octet by octet. -/
theorem writeFrame_loopBack_three :
    let codec : Codec := fun _ _ => .error .lookupError
    let cfg : TransportConfig := { platform := ⟨11, 4, 2, 11, false⟩, kind := .tcp }
    let calls : List WriteCall :=
      [⟨8, 0, none, none, none⟩,
        ⟨1, 1, some Spec.Channel.close, some (.bytes [0, 200, 0, 0, 0, 0, 0]), none⟩,
        ⟨1, 1, some Spec.Basic.deliver, some (.str []),
          some { properties := [("priority", .int 5)], body := .bytes (List.replicate 100 7) }⟩]
    ∃ w', Effect.forEach (WriteCall.run (fun _ => .ok ()) codec) calls
        { frameMax := 64, buf := List.replicate 56 0 } = (.ok (), w') ∧
      let t : Transport :=
        { unread := w'.handed.flatten
          schedule := List.replicate w'.handed.flatten.length (.piece 0) }
      let trace := received cfg (2 * w'.handed.flatten.length + 1) t
      (∀ entry ∈ trace, ∃ returned, entry.2.returned = .ok returned) ∧
        Echoed calls (trace.flatMap fun entry => entry.2.calls) := by
  intro codec cfg calls
  have hloopable : ∀ call ∈ calls, Loopable 64 call := by
    simp only [calls, List.forall_mem_cons]
    refine ⟨.heartbeat (by decide), .method (by decide) (by decide) (by decide) (by decide)
      (by decide), .content (by decide) (by decide) (by decide) rfl (by simp) (by simp) ?_ ?_,
      by simp⟩
    · simp [Properties.InRange, basicProperties, Properties.present, Assoc.get?]
      exact .octet (n := 5) (by decide)
    · intro properties hproperties
      obtain rfl : [8, 0, 5] = properties := Except.ok.inj hproperties
      simp
  obtain ⟨w', hrun, hreceived⟩ :=
    @writeFrame_loopBack (fun _ => .ok ()) codec 64 _ calls (fun _ => rfl) (by decide) (by decide)
      rfl hloopable
  refine ⟨w', hrun, hreceived cfg _ _ rfl rfl ?_ ?_ ?_⟩
  · intro event hevent
    rw [List.eq_of_mem_replicate hevent]
    trivial
  · simp
  · simp
    omega

end PyAmqp
