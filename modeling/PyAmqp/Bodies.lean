import PyAmqp.LoopBack
import PyAmqp.Framing.WireFrames
import PyAmqp.Serialization.ContentEncoding
import PyAmqp.Channel.Methods

/-!
A body on its way from publisher to consumer: `write_frame` encodes text and names the
encoding among the properties, `on_frame` puts the octets together again, and
`dispatch_method` decodes them where an encoding is named. A body without octets has no body
frame, and comes back as the text that a message starts with.
-/

namespace PyAmqp

open Demultiplex Cursor

/-! Codecs -/

/-- The codecs of an interpreter beside `utf-8`, by their names. -/
structure Codecs where
  encode : PyStr → PyStr → Except PyError Octets
  decode : PyStr → Octets → Except PyError PyStr

def utf8 : PyStr := PyStr.ofString "utf-8"

namespace Codecs

/-- `text.encode(encoding)` -/
def encoder (codecs : Codecs) : Codec
  | .str name, text =>
      if name = utf8 then
        match Utf8.encodeScalars text with
        | some octets => .ok octets
        | none => .error .unicodeEncodeError
      else codecs.encode name text
  | _, _ => .error .typeError

/-- `octets.decode(encoding)` -/
def decoder (codecs : Codecs) : Value → Octets → Except PyError PyStr
  | .str name, octets =>
      if name = utf8 then
        match Utf8.decodeScalars octets with
        | some text => .ok text
        | none => .error .unicodeDecodeError
      else codecs.decode name octets
  | _, _ => .error .typeError

/-- `auto_decode`. A body that cannot be decoded stays what it is, and so does text, which
has no `decode`. -/
def autoDecode (codecs : Codecs) (msg : Message) : Message :=
  match Assoc.get? msg.properties "content_encoding", msg.body with
  | some encoding, .bytes body =>
      match codecs.decoder encoding body with
      | .ok text => { msg with body := .str text }
      | .error _ => msg
  | _, _ => msg

end Codecs

/-- The message that `dispatch_method` passes on from a call of the callback. -/
def Call.message? (codecs : Codecs) (call : Call) : Option Message :=
  match call.methodSig, call.args with
  | some sig, some payload =>
      match Inbound.parse codecs.autoDecode
          { methodSig := sig, payload, content := call.content } with
      | .ok args =>
          match args.getLast? with
          | some (.content msg) => msg
          | _ => none
      | .error _ => none
  | _, _ => none

/-! What is carried -/

/-- Text of Unicode scalar values in `utf-8`, which need not be named, or octets without an
encoding. -/
def Publishable (content : Message) : Prop :=
  match content.body with
  | .str text =>
      (∀ c ∈ text, Utf8.Scalar c) ∧
        ∀ encoding ∈ Assoc.get? content.properties "content_encoding",
          encoding = .none ∨ encoding = .str utf8
  | .bytes _ => content.properties.present "content_encoding" = none

/-- The body is the published one, and an encoding is named exactly for text. -/
def Faithful (content msg : Message) : Prop :=
  msg.body = content.body ∧
    Assoc.get? msg.properties "content_encoding" =
      match content.body with
      | .str _ => some (.str utf8)
      | .bytes _ => none

/-- A transport from which a peer reads these octets, however `recv` cuts them up. -/
structure Delivers (cfg : TransportConfig) (reads : Nat) (octets : Octets) (t : Transport) :
    Prop where
  readBuffer : t.readBuffer = []
  unread : t.unread = octets
  schedule : ∀ event ∈ t.schedule, Transport.Survivable cfg event
  pieces : t.unread.length ≤ Transport.pieces t.schedule
  reads : t.unread.length + t.schedule.length < reads

/-- The calls of the callback while a peer reads. -/
def calledBack (cfg : TransportConfig) (reads : Nat) (t : Transport) : List Call :=
  (received cfg reads t).flatMap fun entry => entry.2.calls

/-- `write_frame` returns, and a peer that reads what it has written hands one message
over: the published one. -/
def Carried (codecs : Codecs) (channel : Nat) (sig : MethodSig) (args : Text) (content : Message)
    (w : Writer) : Prop :=
  ∃ w' handed,
    writeFrame (fun _ => .ok ()) codecs.encoder 1 channel (some sig) (some args) (some content) w =
      (.ok (), w') ∧
    w'.handed = w.handed ++ handed ∧
    ∀ cfg reads t, Delivers cfg reads handed.flatten t →
      ∃ msg, (calledBack cfg reads t).map (Call.message? codecs) = [some msg] ∧
        Faithful content msg

/-- The properties that are written with a body. -/
def Message.publishedProperties (content : Message) : Properties :=
  match content.body with
  | .str _ => (Assoc.setdefault content.properties "content_encoding" (.str utf8)).2
  | .bytes _ => content.properties

/-- What `write_frame` and the peer need of a message. The encoding of text is not `None`;
octets are not empty; the properties can be written and read back; the frames can be packed,
and for the empty text they include a header; and the arguments can be read. -/
structure Carriable (frameMax channel : Nat) (sig : MethodSig) (args : Octets) (content : Message) :
    Prop where
  encoding : ∀ text, content.body = .str text →
    Assoc.get? content.properties "content_encoding" ≠ some .none
  body : content.body ≠ .bytes []
  length : content.body.toBytes.length < 2 ^ 64
  properties : ∃ properties,
    serializeProperties basicProperties content.publishedProperties = .ok properties ∧
    (∃ back, decodePropertiesBasic
      (headerOctets sig content.body.toBytes.length properties) 12 = .ok back) ∧
    (∀ frame ∈ wireFrames frameMax channel sig args properties content.body.toBytes,
      frame.WellFormed) ∧
    (content.body = .str [] → args.length + properties.length + frameOverhead ≤ frameMax - 8)
  arguments : ∃ method loaded, findMethod sig = .ok method ∧
    loads method.args.toList (methodOctets sig args) 4 = .ok loaded

/-! Writing -/

section Writing

variable {codecs : Codecs} {content : Message}

/-- Text is encoded, and its encoding named. -/
theorem encodeBody_publishable (h : Publishable content)
    (hencoding : ∀ text, content.body = .str text →
      Assoc.get? content.properties "content_encoding" ≠ some .none) :
    encodeBody codecs.encoder content = .ok (content.body.toBytes, content.publishedProperties) := by
  unfold Publishable at h
  unfold encodeBody Message.publishedProperties
  cases hbody : content.body with
  | bytes body => rfl
  | str text =>
      simp only [hbody] at h
      obtain ⟨htext, hnamed⟩ := h
      have hcodec : codecs.encoder (.str utf8) text = .ok (Utf8.encode text) := by
        simp [Codecs.encoder, Utf8.encodeScalars_eq htext]
      cases hget : Assoc.get? content.properties "content_encoding" with
      | none =>
          simp only [Assoc.setdefault, hget]
          exact (congrArg (· >>= _) hcodec).trans rfl
      | some encoding =>
          obtain rfl | rfl := hnamed encoding hget
          · exact absurd hget (hencoding text hbody)
          · simp [Assoc.setdefault, hget, hcodec, Text.toBytes, pure, Except.pure]

theorem contentOctets_publishable (h : Publishable content)
    (hencoding : ∀ text, content.body = .str text →
      Assoc.get? content.properties "content_encoding" ≠ some .none) :
    contentOctets codecs.encoder content =
      (serializeProperties basicProperties content.publishedProperties).map
        fun properties => (content.body.toBytes, properties) := by
  rw [contentOctets, encodeBody_publishable h hencoding]
  rfl

/-- An encoding of `None` is not replaced. -/
theorem encodeBody_none {text : PyStr} (hbody : content.body = .str text)
    (hencoding : Assoc.get? content.properties "content_encoding" = some .none) :
    encodeBody codecs.encoder content = .error .typeError := by
  simp [encodeBody, hbody, Assoc.setdefault, hencoding, Codecs.encoder]

/-- The encoding is written for text, and for nothing else. -/
theorem publishedProperties_encoding (h : Publishable content)
    (hencoding : ∀ text, content.body = .str text →
      Assoc.get? content.properties "content_encoding" ≠ some .none) :
    content.publishedProperties.present "content_encoding" =
      match content.body with
      | .str _ => some (.str utf8)
      | .bytes _ => none := by
  unfold Publishable at h
  unfold Message.publishedProperties
  cases hbody : content.body with
  | bytes body => simpa [hbody] using h
  | str text =>
      simp only [hbody] at h
      obtain ⟨-, hnamed⟩ := h
      cases hget : Assoc.get? content.properties "content_encoding" with
      | none => simp [Assoc.setdefault, hget, Properties.present]
      | some encoding =>
          obtain rfl | rfl := hnamed encoding hget
          · exact absurd hget (hencoding text hbody)
          · simp [Assoc.setdefault, hget, Properties.present]

end Writing

/-! Reading -/

/-- The calls that some frames make, from between contents. -/
def callsOf (frames : List Frame) : List Call :=
  (run (stepAt Decoder.step Frame.channel) (fun _ => .idle) frames).1.flatMap
    fun entry => entry.2.calls

theorem calledBack_frames {cfg : TransportConfig} {reads : Nat} {frames : List Frame}
    {t : Transport} (hwf : ∀ frame ∈ frames, frame.WellFormed)
    (h : Delivers cfg reads (frames.flatMap Frame.octets) t) :
    calledBack cfg reads t = callsOf frames := by
  have hstream : t.readBuffer ++ t.unread = frames.flatMap Frame.octets := by
    rw [h.readBuffer, h.unread, List.nil_append]
  have hcount : frames.length ≤ t.unread.length := by
    rw [h.unread]
    exact Frame.length_le_octets frames
  have hreads := h.reads
  have hframes : (Transport.readFrames cfg reads t).1 = frames :=
    Transport.readFrames_all hwf h.schedule hstream (.inl h.pieces) (by omega)
  rw [calledBack, received, hframes, onFrameStep_run, callsOf]

/-- Some transport delivers the octets. -/
theorem exists_delivers (octets : Octets) : ∃ cfg reads t, Delivers cfg reads octets t := by
  refine ⟨{ platform := ⟨11, 4, 2, 11, false⟩, kind := .tcp }, 2 * octets.length + 1,
    { unread := octets, schedule := List.replicate octets.length (.piece 0) },
    rfl, rfl, ?_, by simp, by simp; omega⟩
  intro event hevent
  rw [List.eq_of_mem_replicate hevent]
  trivial

section Reading

variable {channel : Nat} {sig : MethodSig} {args properties body : Octets} {frameMax : Nat}

theorem callsOf_alone {frames : List Frame} (h : ∀ frame ∈ frames, frame.channel = channel) :
    callsOf frames = (run Decoder.step .idle frames).1.flatMap fun entry => entry.2.calls := by
  rw [callsOf, run_alone Decoder.step Frame.channel _ h]

/-- A method frame of a content waits for its header. -/
theorem step_method (hsig : sig ∈ contentMethods) :
    Decoder.step .idle ⟨1, channel, methodOctets sig args⟩ =
      ({ returned := .ok false, calls := [] },
        .header { frameMethod := some sig, frameArgs := some (methodOctets sig args) }) := by
  obtain ⟨-, h1, h2⟩ := contentMethods_basic hsig
  simp [Decoder.step, Decoder.expectedType, Decoder.onMethod, unpackMethodSig_ok h1 h2, hsig,
    Decoder.wait]

/-- Body frames where a header is expected raise. -/
theorem run_unexpected (msg : Message) (bodies : List Octets) :
    (run Decoder.step (.header msg) (bodies.map (Frame.mk 3 channel))).1.flatMap
      (fun entry => entry.2.calls) = [] := by
  induction bodies with
  | nil => rfl
  | cons body bodies ih =>
      have hstep : Decoder.step (.header msg) ⟨3, channel, body⟩ =
          Decoder.fail (unexpectedFrame 3 2) (.header msg) := by
        simp [Decoder.step, Decoder.expectedType]
      rw [List.map_cons, run_cons hstep rfl, List.flatMap_cons, ih]
      rfl

/-- A header whose properties cannot be read raises. -/
theorem step_unreadable (hsig : sig ∈ contentMethods) (hlength : body.length < 2 ^ 64) {e : PyError}
    (hback : decodePropertiesBasic (headerOctets sig body.length properties) 12 = .error e)
    (msg : Message) :
    ∃ msg', Decoder.step (.header msg) ⟨2, channel, headerOctets sig body.length properties⟩ =
      Decoder.fail e (.header msg') := by
  obtain ⟨hclassId, h1, -⟩ := contentMethods_basic hsig
  have hsize := unpackHeader_ok h1 hlength properties
  rw [hclassId] at hsize
  have hheader : inboundHeader (headerOctets sig body.length properties) 0 msg =
      (.error e, { msg with bodySize := body.length }) := by
    simp [inboundHeader, hsize, loadProperties, hback]
  exact ⟨_, by simp [Decoder.step, Decoder.expectedType, Decoder.onHeader, hheader]; rfl⟩

/-- The call of a content, if its properties can be read. -/
def callsFor (channel : Nat) (sig : MethodSig) (args body : Octets) :
    Except PyError (Properties × Nat) → List Call
  | .ok (back, _) => [contentCall channel sig args back body]
  | .error _ => []

theorem callsOf_content (hsig : sig ∈ contentMethods) (hlength : body.length < 2 ^ 64)
    {bodies : List Octets} (hbodies : bodies.flatten = body)
    (hpieces : ∀ piece ∈ bodies, piece ≠ []) :
    callsOf (⟨1, channel, methodOctets sig args⟩ ::
      ⟨2, channel, headerOctets sig body.length properties⟩ ::
        bodies.map (Frame.mk 3 channel)) =
      callsFor channel sig args body
        (decodePropertiesBasic (headerOctets sig body.length properties) 12) := by
  cases hback : decodePropertiesBasic (headerOctets sig body.length properties) 12 with
  | ok value =>
      obtain ⟨back, next⟩ := value
      obtain ⟨trace, hrun, -, hcalls⟩ := content_decodes hsig hlength hbodies hpieces hback
      rw [callsOf, hrun]
      exact hcalls
  | error e =>
      obtain ⟨msg', hheader⟩ := step_unreadable hsig hlength hback
        { frameMethod := some sig, frameArgs := some (methodOctets sig args) }
      have hbodyFrames := @run_unexpected channel msg' bodies
      have hchannel : ∀ frame ∈ Frame.mk 1 channel (methodOctets sig args) ::
          ⟨2, channel, headerOctets sig body.length properties⟩ ::
            bodies.map (Frame.mk 3 channel), frame.channel = channel := by
        simp
      rw [callsOf_alone hchannel, run_cons (step_method hsig) (run_cons hheader rfl),
        List.flatMap_cons, List.flatMap_cons, hbodyFrames]
      rfl

/-- What a peer makes of the frames of a content. -/
theorem callsOf_wireFrames (hmin : 16 ≤ frameMax) (hsig : sig ∈ contentMethods)
    (hlength : body.length < 2 ^ 64) :
    callsOf (wireFrames frameMax channel sig args properties body) =
      if body = [] ∧ ¬ args.length + properties.length + frameOverhead ≤ frameMax - 8 then []
      else callsFor channel sig args body
        (decodePropertiesBasic (headerOctets sig body.length properties) 12) := by
  have hcontent : ∀ bodies : List Octets, bodies.flatten = body → (∀ piece ∈ bodies, piece ≠ []) →
      callsOf (⟨1, channel, methodOctets sig args⟩ ::
        ⟨2, channel, headerOctets sig body.length properties⟩ ::
          bodies.map (Frame.mk 3 channel)) =
        callsFor channel sig args body
          (decodePropertiesBasic (headerOctets sig body.length properties) 12) :=
    fun bodies => callsOf_content hsig hlength
  unfold wireFrames
  by_cases hbody : body = []
  · by_cases hsmall : args.length + properties.length + frameOverhead ≤ frameMax - 8
    · rw [if_pos (by simpa [hbody] using hsmall), if_neg (fun h => h.2 hsmall), contentFrames,
        if_pos hbody]
      exact hcontent [] hbody.symm (by simp)
    · have halone : callsOf [⟨1, channel, methodOctets sig args⟩] = [] := by
        rw [@callsOf_alone channel _ (by simp), run_cons (step_method hsig) rfl]
        rfl
      rw [if_neg (by simpa [hbody] using hsmall), if_pos hbody, if_pos ⟨hbody, hsmall⟩]
      exact halone
  · rw [if_neg (fun h : body = [] ∧ _ => hbody h.1)]
    by_cases hsmall : args.length + properties.length + body.length + frameOverhead ≤ frameMax - 8
    · rw [if_pos hsmall, contentFrames, if_neg hbody]
      exact hcontent [body] (by simp) (by simpa using hbody)
    · rw [if_neg hsmall, if_neg hbody]
      exact hcontent _ (Chunks.flatten (by omega) body)
        fun piece hpiece => Chunks.ne_nil (by omega) hpiece

end Reading

/-! Dispatching -/

section Dispatching

variable {codecs : Codecs} {channel : Nat} {sig : MethodSig} {args body : Octets}
  {back : Properties}

theorem findMethod_content (hsig : sig ∈ contentMethods) :
    ∃ method, findMethod sig = .ok method ∧ method.content = true ∧ method.args ≠ "" := by
  simp only [contentMethods, List.mem_cons, List.not_mem_nil, or_false] at hsig
  obtain rfl | rfl | rfl := hsig <;> exact ⟨_, rfl, rfl, by decide⟩

/-- The arguments of a method with a content, the last of which is the content. -/
theorem Inbound.args_content {decode : Message → Message} {m : Inbound} {method : AmqpMethod}
    (hcontent : method.content = true) (hargs : method.args ≠ "") :
    m.args decode method = (loads method.args.toList m.payload 4).map fun loaded =>
      loaded.1.map Arg.value ++ [.content (m.content.map decode)] := by
  unfold Inbound.args
  rw [if_neg hargs]
  cases loads method.args.toList m.payload 4 with
  | error e => rfl
  | ok loaded => simp [hcontent, Except.map, pure, Except.pure]

/-- A content is passed on where the arguments of its method can be read. -/
theorem message?_contentCall (hsig : sig ∈ contentMethods) :
    ((∃ method loaded, findMethod sig = .ok method ∧
        loads method.args.toList (methodOctets sig args) 4 = .ok loaded) →
      (contentCall channel sig args back body).message? codecs =
        some (codecs.autoDecode (contentMessage sig args back body))) ∧
    ∀ msg, (contentCall channel sig args back body).message? codecs = some msg →
      ∃ method loaded, findMethod sig = .ok method ∧
        loads method.args.toList (methodOctets sig args) 4 = .ok loaded := by
  obtain ⟨method, hmethod, hcontent, hargs⟩ := findMethod_content hsig
  have hparse : ∀ content, Inbound.parse codecs.autoDecode
      { methodSig := sig, payload := methodOctets sig args, content } =
        (loads method.args.toList (methodOctets sig args) 4).map fun loaded =>
          loaded.1.map Arg.value ++ [.content (content.map codecs.autoDecode)] := by
    intro content
    rw [Inbound.parse, hmethod, ok_bind, Inbound.args_content hcontent hargs]
  constructor
  · rintro ⟨method', loaded, hmethod', hloaded⟩
    obtain rfl := Except.ok.inj (hmethod.symm.trans hmethod')
    simp [Call.message?, contentCall, hparse, hloaded, Except.map]
  · intro msg hmsg
    cases hloaded : loads method.args.toList (methodOctets sig args) 4 with
    | ok loaded => exact ⟨method, loaded, hmethod, hloaded⟩
    | error e => simp [Call.message?, contentCall, hparse, hloaded, Except.map] at hmsg

/-- The encoding that a peer finds. -/
theorem back_encoding {content : Message} {properties : Octets} {bodyLen next : Nat}
    (h : Publishable content)
    (hencoding : ∀ text, content.body = .str text →
      Assoc.get? content.properties "content_encoding" ≠ some .none)
    (hwrite : serializeProperties basicProperties content.publishedProperties = .ok properties)
    (hback : decodePropertiesBasic (headerOctets sig bodyLen properties) 12 = .ok (back, next)) :
    Assoc.get? back "content_encoding" =
      match content.body with
      | .str _ => some (.str utf8)
      | .bytes _ => none := by
  have hpresent := publishedProperties_encoding h hencoding
  have htext : ∀ val ∈ content.publishedProperties.present "content_encoding",
      ∃ text, val = .str text := by
    rw [hpresent]
    cases content.body with
    | str text => simp
    | bytes body => simp
  rw [← hpresent]
  have hdecode : decodePropertiesBasic
      (BigEndian.encode 2 sig.1 ++ BigEndian.encode 2 0 ++ BigEndian.encode 8 bodyLen ++ properties)
      (BigEndian.encode 2 sig.1 ++ BigEndian.encode 2 0 ++ BigEndian.encode 8 bodyLen).length =
        .ok (back, next) := by
    simpa [headerOctets] using hback
  exact decode_contentEncoding hwrite htext hdecode

/-- A message is as it was published, but for a body of octets without any. -/
theorem faithful_iff {content : Message} (h : Publishable content)
    (hback : Assoc.get? back "content_encoding" =
      match content.body with
      | .str _ => some (.str utf8)
      | .bytes _ => none) :
    Faithful content (codecs.autoDecode (contentMessage sig args back content.body.toBytes)) ↔
      content.body ≠ .bytes [] := by
  unfold Publishable at h
  cases hbody : content.body with
  | bytes body =>
      simp only [hbody] at hback
      have hsame : codecs.autoDecode (contentMessage sig args back body) =
          contentMessage sig args back body := by
        simp [Codecs.autoDecode, contentMessage, hback]
      simp only [Faithful, hbody, Text.toBytes, hsame]
      by_cases hempty : body = [] <;> simp [contentMessage, hempty, hback]
  | str text =>
      simp only [hbody] at h hback
      obtain ⟨hscalar, -⟩ := h
      have hdecodes : codecs.decoder (.str utf8) (Utf8.encode text) = .ok text := by
        simp [Codecs.decoder, Utf8.decodeScalars_encode hscalar]
      have hlength : (Utf8.encode text).length = 0 ↔ text = [] := by
        rw [List.length_eq_zero_iff, Utf8.encode_eq_nil]
      have htext : codecs.autoDecode (contentMessage sig args back (Utf8.encode text)) =
          { contentMessage sig args back (Utf8.encode text) with body := .str text } := by
        by_cases hempty : text = []
        · subst hempty
          simp [Codecs.autoDecode, contentMessage, hback, Utf8.encode]
        · simp [Codecs.autoDecode, contentMessage, hback, hlength, hempty, hdecodes]
      simp only [Faithful, hbody, Text.toBytes, htext]
      exact iff_of_true ⟨trivial, hback⟩ (by simp)

end Dispatching

theorem toBytes_eq_nil {body : Text} : body.toBytes = [] ↔ body = .str [] ∨ body = .bytes [] := by
  cases body with
  | bytes octets => simp [Text.toBytes]
  | str text => simp [Text.toBytes, Utf8.encode_eq_nil]

/-- A peer that reads the frames of a publishable message hands over the message as it was
published, exactly if there is a header, its properties and the arguments can be read, and
the body is not one of octets without any. -/
theorem handed_iff {codecs : Codecs} {frameMax channel : Nat} {sig : MethodSig}
    {args properties : Octets} {content : Message} (hsig : sig ∈ contentMethods)
    (hmin : 16 ≤ frameMax) (h : Publishable content)
    (hencoding : ∀ text, content.body = .str text →
      Assoc.get? content.properties "content_encoding" ≠ some .none)
    (hlength : content.body.toBytes.length < 2 ^ 64)
    (hwrite : serializeProperties basicProperties content.publishedProperties = .ok properties) :
    (∃ msg, (callsOf (wireFrames frameMax channel sig args properties
        content.body.toBytes)).map (Call.message? codecs) = [some msg] ∧ Faithful content msg) ↔
      (content.body.toBytes = [] →
        args.length + properties.length + frameOverhead ≤ frameMax - 8) ∧
      (∃ back, decodePropertiesBasic
        (headerOctets sig content.body.toBytes.length properties) 12 = .ok back) ∧
      (∃ method loaded, findMethod sig = .ok method ∧
        loads method.args.toList (methodOctets sig args) 4 = .ok loaded) ∧
      content.body ≠ .bytes [] := by
  rw [callsOf_wireFrames hmin hsig hlength]
  split
  next hheaderless =>
    exact iff_of_false (by simp) fun hall => hheaderless.2 (hall.1 hheaderless.1)
  next hheader =>
    have hsmall : content.body.toBytes = [] →
        args.length + properties.length + frameOverhead ≤ frameMax - 8 := by
      intro hempty
      by_contra hbig
      exact hheader ⟨hempty, hbig⟩
    cases hback : decodePropertiesBasic
        (headerOctets sig content.body.toBytes.length properties) 12 with
    | error e => simp [callsFor]
    | ok value =>
        obtain ⟨back, next⟩ := value
        have hencoded := back_encoding h hencoding hwrite hback
        obtain ⟨hpasses, hreads⟩ := @message?_contentCall codecs channel sig args
          content.body.toBytes back hsig
        constructor
        · rintro ⟨msg, hmsg, hfaithful⟩
          have hsome := List.singleton_inj.mp hmsg
          have hargs := hreads msg hsome
          obtain rfl := Option.some.inj ((hpasses hargs).symm.trans hsome)
          exact ⟨hsmall, ⟨_, rfl⟩, hargs, (faithful_iff h hencoded).mp hfaithful⟩
        · rintro ⟨-, -, hargs, hbody⟩
          exact ⟨_, by rw [callsFor, List.map_singleton, hpasses hargs],
            (faithful_iff h hencoded).mpr hbody⟩

section Carrying

variable {codecs : Codecs} {channel : Nat} {sig : MethodSig} {args : Text} {content : Message}
  {w : Writer}

theorem Carried.carriable (hsig : sig ∈ contentMethods) (hmin : 16 ≤ w.frameMax)
    (h : Publishable content) (hcarried : Carried codecs channel sig args content w) :
    Carriable w.frameMax channel sig args.toBytes content := by
  obtain ⟨w', handed, hrun, hhanded, hcarried⟩ := hcarried
  have hencoding : ∀ text, content.body = .str text →
      Assoc.get? content.properties "content_encoding" ≠ some .none := by
    intro text hbody hnone
    have hcontent : contentOctets codecs.encoder content = .error .typeError := by
      rw [contentOctets, encodeBody_none hbody hnone, error_bind]
    rw [writeFrame_content_error _ 1 channel (some sig) (some args) w hcontent] at hrun
    cases (Prod.mk.inj hrun).1
  cases hwrite : serializeProperties basicProperties content.publishedProperties with
  | error e =>
      have hcontent : contentOctets codecs.encoder content = .error e := by
        rw [contentOctets_publishable h hencoding, hwrite]
        rfl
      rw [writeFrame_content_error _ 1 channel (some sig) (some args) w hcontent] at hrun
      cases (Prod.mk.inj hrun).1
  | ok properties =>
      have hcontent : contentOctets codecs.encoder content =
          .ok (content.body.toBytes, properties) := by
        rw [contentOctets_publishable h hencoding, hwrite]
        rfl
      obtain ⟨hlength, hwf, handed', hhanded', hoctets⟩ :=
        writeFrame_sends (by omega) hcontent hrun
      obtain rfl := List.append_cancel_left (hhanded'.symm.trans hhanded)
      obtain ⟨cfg, reads, t, hdelivers⟩ := exists_delivers handed'.flatten
      have hmsg := hcarried cfg reads t hdelivers
      rw [hoctets] at hdelivers
      rw [calledBack_frames hwf hdelivers,
        handed_iff hsig (by omega) h hencoding hlength hwrite] at hmsg
      obtain ⟨hsmall, hback, hargs, hne⟩ := hmsg
      exact ⟨hencoding, hne, hlength, ⟨properties, hwrite, hback, hwf,
        fun hempty => hsmall (toBytes_eq_nil.mpr (.inl hempty))⟩, hargs⟩

theorem Carriable.carried (hsig : sig ∈ contentMethods) (hmin : 16 ≤ w.frameMax)
    (h : Publishable content)
    (hcarriable : Carriable w.frameMax channel sig args.toBytes content) :
    Carried codecs channel sig args content w := by
  obtain ⟨hencoding, hne, hlength, ⟨properties, hwrite, hback, hwf, hsmall⟩, hargs⟩ := hcarriable
  obtain ⟨-, h1, h2⟩ := contentMethods_basic hsig
  have hcontent : contentOctets codecs.encoder content =
      .ok (content.body.toBytes, properties) := by
    rw [contentOctets_publishable h hencoding, hwrite]
    rfl
  obtain ⟨w', hrun⟩ := @writeFrame_returns codecs.encoder channel sig args content properties
    content.body.toBytes w (fun _ => .ok ()) (fun _ => rfl) (by omega) h1 h2 hcontent hlength hwf
  obtain ⟨-, -, handed, hhanded, hoctets⟩ := writeFrame_sends (by omega) hcontent hrun
  refine ⟨w', handed, hrun, hhanded, fun cfg reads t hdelivers => ?_⟩
  rw [hoctets] at hdelivers
  rw [calledBack_frames hwf hdelivers]
  refine (handed_iff hsig (by omega) h hencoding hlength hwrite).mpr
    ⟨fun hempty => ?_, hback, hargs, hne⟩
  exact hsmall ((toBytes_eq_nil.mp hempty).resolve_right hne)

/-- A publishable message is carried exactly if the writer and the peer have what they need
of it. -/
theorem carried_iff (hsig : sig ∈ contentMethods) (hmin : 4096 ≤ w.frameMax)
    (h : Publishable content) :
    Carried codecs channel sig args content w ↔
      Carriable w.frameMax channel sig args.toBytes content :=
  ⟨Carried.carriable hsig (by omega) h, Carriable.carried hsig (by omega) h⟩

end Carrying

/-- A delivery for the consumer "t". -/
def deliverArgs : Octets := [1, 116, 0, 0, 0, 0, 0, 0, 0, 1, 0, 0, 0]

def plainCodecs : Codecs where
  encode _ _ := .error .lookupError
  decode _ _ := .error .lookupError

def smallWriter : Writer := { frameMax := 4096, buf := List.replicate 4088 0 }

/-- The text "é", whose encoding is not named. -/
def accented : Message := { body := .str [Utf8.point 233] }

theorem accented_publishable : Publishable accented := by
  constructor
  · intro c hc
    obtain rfl := List.mem_singleton.mp hc
    exact .inl (by simp [Utf8.point])
  · simp [accented, Assoc.get?]

theorem carried_iff_accented :
    Carried plainCodecs 1 Spec.Basic.deliver (.bytes deliverArgs) accented smallWriter := by
  refine (carried_iff (by decide) (by decide) accented_publishable).mpr
    ⟨fun text _ => by simp [accented, Assoc.get?], by simp [accented], by decide +kernel,
      ⟨[64, 0, 5, 117, 116, 102, 45, 56], by decide +kernel, ⟨_, rfl⟩, ?_, by simp [accented]⟩,
      ⟨_, _, rfl, rfl⟩⟩
  have hframes : wireFrames smallWriter.frameMax 1 Spec.Basic.deliver
      (Text.bytes deliverArgs).toBytes [64, 0, 5, 117, 116, 102, 45, 56] accented.body.toBytes =
        contentFrames 1 1 Spec.Basic.deliver deliverArgs [64, 0, 5, 117, 116, 102, 45, 56]
          [195, 169] := by
    decide +kernel
  rw [hframes]
  exact contentFrames_wellFormed ⟨by decide, by decide, by decide, by decide⟩ (by decide)

/-- Octets without any. -/
def emptyOctets : Message := { body := .bytes [] }

/-- Text whose encoding is given as `None`. -/
def unnamed : Message :=
  { properties := [("content_encoding", .none)], body := .str [Utf8.point 104] }

theorem unnamed_publishable : Publishable unnamed := by
  constructor
  · intro c hc
    obtain rfl := List.mem_singleton.mp hc
    exact .inl (by simp [Utf8.point])
  · simp [unnamed, Assoc.get?]

/-- The empty text with a header table that fills a frame. -/
def crowded : Message :=
  { properties := [("application_headers",
      .dict [([Utf8.point 107], .str (List.replicate 4096 (Utf8.point 120)))])]
    body := .str [] }

theorem crowded_publishable : Publishable crowded :=
  ⟨by simp, fun _ h => by cases h⟩

/-- The three kinds of message that are not carried. -/
theorem not_carried :
    (Publishable emptyOctets ∧ ¬ Carried plainCodecs 1 Spec.Basic.deliver (.bytes deliverArgs)
      emptyOctets smallWriter) ∧
    (Publishable unnamed ∧ ¬ Carried plainCodecs 1 Spec.Basic.deliver (.bytes deliverArgs)
      unnamed smallWriter) ∧
    (Publishable crowded ∧ ¬ Carried plainCodecs 1 Spec.Basic.deliver (.bytes deliverArgs)
      crowded smallWriter) := by
  refine ⟨⟨rfl, fun hcarried => ?_⟩, ⟨unnamed_publishable, fun hcarried => ?_⟩,
    ⟨crowded_publishable, fun hcarried => ?_⟩⟩
  · have hempty : Publishable emptyOctets := rfl
    exact (hcarried.carriable (by decide) (by decide) hempty).body rfl
  · exact (hcarried.carriable (by decide) (by decide) unnamed_publishable).encoding _ rfl rfl
  · obtain ⟨properties, hwrite, -, -, hsmall⟩ :=
      (hcarried.carriable (by decide) (by decide) crowded_publishable).properties
    have hsize : (serializeProperties basicProperties crowded.publishedProperties).map
        List.length = .ok 4115 := by
      decide +kernel
    rw [hwrite] at hsize
    have hlength : properties.length = 4115 := Except.ok.inj hsize
    have hfits := hsmall rfl
    rw [hlength] at hfits
    exact absurd hfits (by decide)

end PyAmqp
