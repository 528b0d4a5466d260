import PyAmqp.Framing.Handler
import PyAmqp.Base.Demultiplex

/-!
The frame handler as a machine for each channel. `Decoder` is the abstract machine of
one channel; the handler's two dictionaries represent one decoder for every channel
and step it alone, so the frames of the other channels do not matter.
-/

namespace PyAmqp

/-- A channel between contents, waiting for a header, or waiting for more of a body. -/
inductive Decoder where
  | idle
  | header (msg : Message)
  | body (msg : Message)

namespace Decoder

def expectedType : Decoder → Nat
  | idle => 1
  | header _ => 2
  | body _ => 3

def partialMessage : Decoder → Option Message
  | idle => none
  | header msg => some msg
  | body msg => some msg

def call (channel : Nat) (msg : Message) : Call :=
  { channel, methodSig := msg.frameMethod, args := msg.frameArgs, content := some msg }

def deliver (channel : Nat) (msg : Message) : Outcome × Decoder :=
  ({ returned := .ok true, calls := [call channel msg] }, idle)

def wait (d : Decoder) : Outcome × Decoder := ({ returned := .ok false, calls := [] }, d)

def fail (e : PyError) (d : Decoder) : Outcome × Decoder :=
  ({ returned := .error e, calls := [] }, d)

def onMethod (frame : Frame) : Outcome × Decoder :=
  match unpackMethodSig frame.payload 0 with
  | .error e => fail e idle
  | .ok (sig, _) =>
      if sig ∈ contentMethods then
        wait (header { frameMethod := some sig, frameArgs := some frame.payload })
      else
        ({ returned := .ok true
           calls := [{ channel := frame.channel, methodSig := some sig,
                       args := some frame.payload, content := none }] }, idle)

def onHeader (msg : Message) (frame : Frame) : Outcome × Decoder :=
  match inboundHeader frame.payload 0 msg with
  | (.error e, msg) => fail e (header msg)
  | (.ok _, msg) => if msg.ready then deliver frame.channel msg else wait (body msg)

def onBody (msg : Message) (frame : Frame) : Outcome × Decoder :=
  let msg := inboundBody frame.payload msg
  if msg.ready then deliver frame.channel msg else wait (body msg)

/-- One frame of the channel. A heartbeat is none of its business. -/
def step (d : Decoder) (frame : Frame) : Outcome × Decoder :=
  if frame.frameType = 8 then wait d
  else if frame.frameType ≠ d.expectedType then
    fail (unexpectedFrame frame.frameType d.expectedType) d
  else
    match d with
    | idle => onMethod frame
    | header msg => onHeader msg frame
    | body msg => onBody msg frame

end Decoder

/-- The dictionaries hold one decoder's state for every channel. -/
def Handler.Represents (h : Handler) (decoders : Nat → Decoder) : Prop :=
  ∀ channel, h.expectedTypes channel = (decoders channel).expectedType ∧
    h.partialMessages channel = (decoders channel).partialMessage

private theorem represents_update {h h' : Handler} {decoders : Nat → Decoder} {channel : Nat}
    {d : Decoder} (h0 : h.Represents decoders)
    (htypes : h'.expectedTypes = Function.update h.expectedTypes channel d.expectedType)
    (hheld : h'.partialMessages =
      Function.update h.partialMessages channel d.partialMessage) :
    h'.Represents (Function.update decoders channel d) := by
  intro other
  rw [htypes, hheld]
  by_cases hother : other = channel
  · subst hother
    simp
  · simp only [Function.update_of_ne hother]
    exact h0 other

/-- Nothing but the count of frames changes when a decoder stays where it is. -/
private theorem represents_same {h h' : Handler} {decoders : Nat → Decoder} {channel : Nat}
    {d : Decoder} (h0 : h.Represents decoders) (hd : decoders channel = d)
    (htypes : h'.expectedTypes = h.expectedTypes)
    (hheld : h'.partialMessages = h.partialMessages) :
    h'.Represents (Function.update decoders channel d) := by
  rw [← hd, Function.update_eq_self]
  intro other
  rw [htypes, hheld]
  exact h0 other

section Step

variable {h : Handler} {decoders : Nat → Decoder} {frame : Frame}

/-- What a frame does to the handler when its channel's decoder steps to `d`. -/
private def Stepped (h : Handler) (decoders : Nat → Decoder) (frame : Frame)
    (next : Outcome × Decoder) : Prop :=
  ∃ h', onFrame record frame h = (next.1.returned, h') ∧ h'.calls = h.calls ++ next.1.calls ∧
    h'.bytesRecv = h.bytesRecv + 1 ∧
    h'.Represents (Function.update decoders frame.channel next.2)

private theorem onMethod_stepped (h0 : h.Represents decoders)
    (hd : decoders frame.channel = .idle) (htype : frame.frameType = 1) :
    Stepped h decoders frame (Decoder.onMethod frame) := by
  have hexpected := (h0 frame.channel).1
  rw [hd, Decoder.expectedType] at hexpected
  unfold Decoder.onMethod
  cases hsig : unpackMethodSig frame.payload 0 with
  | error e =>
      have hrun : onFrame record frame h =
          (.error e, { h with bytesRecv := h.bytesRecv + 1 }) := by
        simp [onFrame, hexpected, htype, hsig]
      exact ⟨_, hrun, by simp [Decoder.fail], rfl, represents_same h0 hd rfl rfl⟩
  | ok value =>
      obtain ⟨sig, next⟩ := value
      by_cases hcontent : sig ∈ contentMethods
      · have hrun : onFrame record frame h = (.ok false, (Handler.store frame.channel
            (some { frameMethod := some sig, frameArgs := some frame.payload })
            { h with bytesRecv := h.bytesRecv + 1 }).expect frame.channel 2) := by
          simp [onFrame, hexpected, htype, hsig, hcontent]
        simp only [if_pos hcontent, Decoder.wait]
        exact ⟨_, hrun, by simp [Handler.expect, Handler.store], rfl,
          represents_update h0 rfl rfl⟩
      · have hrun : onFrame record frame h = (.ok true, { h with
            bytesRecv := h.bytesRecv + 1
            calls := h.calls ++ [{ channel := frame.channel, methodSig := some sig,
                                   args := some frame.payload, content := none }] }) := by
          simp [onFrame, hexpected, htype, hsig, hcontent, record]
        simp only [if_neg hcontent]
        exact ⟨_, hrun, rfl, rfl, represents_same h0 hd rfl rfl⟩

/-- The end of a content, from the handler that holds the complete message. -/
private theorem finish_stepped (h1 : Handler) {msg : Message} (h0 : h.Represents decoders)
    (htypes : h1.expectedTypes = h.expectedTypes) (hcalls : h1.calls = h.calls)
    (hheld : ∃ kept, h1.partialMessages = Function.update h.partialMessages frame.channel kept)
    (hcount : h1.bytesRecv = h.bytesRecv + 1)
    (hrun : onFrame record frame h = finish record frame.channel msg h1) :
    Stepped h decoders frame (Decoder.deliver frame.channel msg) := by
  obtain ⟨kept, hkept⟩ := hheld
  refine ⟨_, hrun.trans rfl, ?_, hcount, represents_update h0 ?_ ?_⟩
  · simp [Handler.store, Handler.expect, hcalls, Decoder.deliver, Decoder.call]
  · simp [Handler.store, Handler.expect, htypes, Decoder.deliver, Decoder.expectedType]
  · simp [Handler.store, Handler.expect, hkept, Decoder.deliver, Decoder.partialMessage]

private theorem onHeader_stepped {msg : Message} (h0 : h.Represents decoders)
    (hd : decoders frame.channel = .header msg) (htype : frame.frameType = 2) :
    Stepped h decoders frame (Decoder.onHeader msg frame) := by
  obtain ⟨hexpected, hheld⟩ := h0 frame.channel
  rw [hd] at hexpected hheld
  simp only [Decoder.expectedType, Decoder.partialMessage] at hexpected hheld
  unfold Decoder.onHeader
  obtain ⟨result, hresult⟩ : ∃ result, inboundHeader frame.payload 0 msg = result := ⟨_, rfl⟩
  rw [hresult]
  obtain ⟨r, msg'⟩ := result
  have hpop := Handler.onPartial_some (h := { h with bytesRecv := h.bytesRecv + 1 }) hheld hresult
  cases r with
  | error e =>
      have hrun : onFrame record frame h = (.error e, Handler.store frame.channel (some msg')
          { h with bytesRecv := h.bytesRecv + 1 }) := by
        simp [onFrame, hexpected, htype, hpop, Except.map]
      refine ⟨_, hrun, by simp [Decoder.fail, Handler.store], rfl, represents_update h0 ?_ rfl⟩
      simp [Decoder.fail, Decoder.expectedType, Handler.store, ← hexpected]
  | ok offset =>
      by_cases hready : msg'.ready
      · simp only [if_pos hready]
        refine finish_stepped (Handler.store frame.channel (some msg')
          { h with bytesRecv := h.bytesRecv + 1 }) h0 rfl rfl ⟨some msg', rfl⟩ rfl ?_
        simp [onFrame, hexpected, htype, hpop, Except.map, hready]
      · have hrun : onFrame record frame h = (.ok false, (Handler.store frame.channel (some msg')
            { h with bytesRecv := h.bytesRecv + 1 }).expect frame.channel 3) := by
          simp [onFrame, hexpected, htype, hpop, Except.map, hready]
        simp only [if_neg hready]
        exact ⟨_, hrun, by simp [Decoder.wait, Handler.expect, Handler.store], rfl,
          represents_update h0 rfl rfl⟩

private theorem onBody_stepped {msg : Message} (h0 : h.Represents decoders)
    (hd : decoders frame.channel = .body msg) (htype : frame.frameType = 3) :
    Stepped h decoders frame (Decoder.onBody msg frame) := by
  obtain ⟨hexpected, hheld⟩ := h0 frame.channel
  rw [hd] at hexpected hheld
  simp only [Decoder.expectedType, Decoder.partialMessage] at hexpected hheld
  unfold Decoder.onBody
  have hpop := Handler.onPartial_some (h := { h with bytesRecv := h.bytesRecv + 1 }) hheld
    (Effect.modify_run (inboundBody frame.payload))
  by_cases hready : (inboundBody frame.payload msg).ready
  · simp only [if_pos hready]
    refine finish_stepped (Handler.store frame.channel (some (inboundBody frame.payload msg))
      { h with bytesRecv := h.bytesRecv + 1 }) h0 rfl rfl ⟨some _, rfl⟩ rfl ?_
    simp [onFrame, hexpected, htype, hpop, Except.map, hready]
  · have hrun : onFrame record frame h = (.ok false, Handler.store frame.channel
        (some (inboundBody frame.payload msg)) { h with bytesRecv := h.bytesRecv + 1 }) := by
      simp [onFrame, hexpected, htype, hpop, Except.map, hready]
    simp only [if_neg hready]
    refine ⟨_, hrun, by simp [Decoder.wait, Handler.store], rfl, represents_update h0 ?_ rfl⟩
    simp [Decoder.wait, Decoder.expectedType, Handler.store, ← hexpected]

end Step

/-- A frame takes the decoder of its channel one step, and leaves the others alone. -/
theorem onFrame_step {h : Handler} {decoders : Nat → Decoder} (h0 : h.Represents decoders)
    (frame : Frame) :
    ∃ h', onFrame record frame h =
        (((decoders frame.channel).step frame).1.returned, h') ∧
      h'.calls = h.calls ++ ((decoders frame.channel).step frame).1.calls ∧
      h'.bytesRecv = h.bytesRecv + 1 ∧
      h'.Represents (Function.update decoders frame.channel
        ((decoders frame.channel).step frame).2) := by
  have hexpected := (h0 frame.channel).1
  unfold Decoder.step
  by_cases hbeat : frame.frameType = 8
  · have hrun : onFrame record frame h =
        (.ok false, { h with bytesRecv := h.bytesRecv + 1 }) := by
      simp [onFrame, hbeat]
    rw [if_pos hbeat]
    exact ⟨_, hrun, by simp [Decoder.wait], rfl, represents_same h0 rfl rfl rfl⟩
  rw [if_neg hbeat]
  by_cases htype : frame.frameType = (decoders frame.channel).expectedType
  · rw [if_neg (not_not.mpr htype)]
    cases hd : decoders frame.channel with
    | idle => exact onMethod_stepped h0 hd (by rw [htype, hd, Decoder.expectedType])
    | header msg => exact onHeader_stepped h0 hd (by rw [htype, hd, Decoder.expectedType])
    | body msg => exact onBody_stepped h0 hd (by rw [htype, hd, Decoder.expectedType])
  · have hrun : onFrame record frame h =
        (.error (unexpectedFrame frame.frameType (decoders frame.channel).expectedType),
          { h with bytesRecv := h.bytesRecv + 1 }) := by
      simp [onFrame, hbeat, htype, hexpected]
    rw [if_pos htype]
    exact ⟨_, hrun, by simp [Decoder.fail], rfl, represents_same h0 rfl rfl rfl⟩

/-! Items -/

/-- A well-formed inbound item: a method without content, or a content whose header
can be read and whose body frames fill its size, the last one reaching it. -/
inductive Item where
  | method (payload : Octets) (sig : MethodSig)
      (hsig : unpackMethodSig payload 0 = .ok (sig, 4)) (hbare : sig ∉ contentMethods)
  | content (payload : Octets) (sig : MethodSig)
      (hsig : unpackMethodSig payload 0 = .ok (sig, 4)) (hcontent : sig ∈ contentMethods)
      (header : Octets) (bodySize : Nat) (properties : Properties)
      (hsize : unpackHeader header 0 = .ok ((Spec.Basic.classId, bodySize), 12))
      (hproperties : ∃ next, decodePropertiesBasic header 12 = .ok (properties, next))
      (bodies : List Octets) (hbodies : bodies.flatten.length = bodySize)
      (hlast : if bodySize = 0 then bodies = [] else bodies.dropLast.flatten.length < bodySize)

namespace Item

def frames (channel : Nat) : Item → List Frame
  | method payload .. => [⟨1, channel, payload⟩]
  | content payload _ _ _ header _ _ _ _ bodies .. =>
      ⟨1, channel, payload⟩ :: ⟨2, channel, header⟩ :: bodies.map (Frame.mk 3 channel)

/-- The message of a content: its body is what the body frames carry, one after the
other, and the empty text of a fresh message where there are none. -/
def message? : Item → Option Message
  | method .. => none
  | content payload sig _ _ _ bodySize properties _ _ bodies .. => some {
      frameMethod := some sig
      frameArgs := some payload
      properties := properties
      body := if bodySize = 0 then .str [] else .bytes bodies.flatten
      bodyReceived := bodySize
      bodySize := bodySize
      ready := true }

/-- The call an item is for. -/
def call (channel : Nat) : Item → Call
  | method payload sig .. =>
      { channel, methodSig := some sig, args := some payload, content := none }
  | item@(content payload sig ..) =>
      { channel, methodSig := some sig, args := some payload, content := item.message? }

/-- The outcome of every frame of an item: the last one makes the call and returns
`True`, the others return `False`. -/
def traceOf (call : Call) : List Frame → List (Frame × Outcome)
  | [] => []
  | [frame] => [(frame, { returned := .ok true, calls := [call] })]
  | frame :: next :: rest =>
      (frame, { returned := .ok false, calls := [] }) :: traceOf call (next :: rest)

def trace (channel : Nat) (item : Item) : List (Frame × Outcome) :=
  traceOf (item.call channel) (item.frames channel)

end Item

open Demultiplex

private theorem inboundBody_last (buf : Octets) (msg : Message)
    (htotal : msg.bodyReceived + buf.length = msg.bodySize) :
    inboundBody buf msg = { msg with
      body := .bytes (msg.pendingChunks ++ [buf]).flatten
      pendingChunks := []
      bodyReceived := msg.bodySize
      ready := true } := by
  by_cases hchunks : msg.pendingChunks = []
  · simp [inboundBody, htotal, hchunks]
  · simp [inboundBody, htotal, hchunks]

private theorem inboundBody_more (buf : Octets) (msg : Message)
    (hmore : msg.bodyReceived + buf.length < msg.bodySize) :
    inboundBody buf msg = { msg with
      pendingChunks := msg.pendingChunks ++ [buf]
      bodyReceived := msg.bodyReceived + buf.length } := by
  have hnot : ¬ msg.bodyReceived + buf.length ≥ msg.bodySize := by omega
  simp only [inboundBody, if_neg hnot]

/-- The body frames of a content. The induction carries the chunks received so far. -/
private theorem run_bodies (channel : Nat) (bodies : List Octets) (msg : Message)
    (hne : bodies ≠ []) (hready : msg.ready = false)
    (htotal : msg.bodyReceived + bodies.flatten.length = msg.bodySize)
    (hlast : msg.bodyReceived + bodies.dropLast.flatten.length < msg.bodySize) :
    run Decoder.step (.body msg) (bodies.map (Frame.mk 3 channel)) =
      (Item.traceOf (Decoder.call channel { msg with
          body := .bytes (msg.pendingChunks ++ bodies).flatten
          pendingChunks := []
          bodyReceived := msg.bodySize
          ready := true }) (bodies.map (Frame.mk 3 channel)), .idle) := by
  induction bodies generalizing msg with
  | nil => exact absurd rfl hne
  | cons body bodies ih =>
      simp only [List.flatten_cons, List.length_append] at htotal
      cases bodies with
      | nil =>
          have hfull : msg.bodyReceived + body.length = msg.bodySize := by simpa using htotal
          simp [run, Decoder.step, Decoder.expectedType, Decoder.onBody,
            inboundBody_last body msg hfull, Decoder.deliver, Item.traceOf]
      | cons next bodies =>
          simp only [List.dropLast_cons_cons, List.flatten_cons, List.length_append] at hlast
          have hmore := inboundBody_more body msg (by omega)
          have hrest := ih { msg with
              pendingChunks := msg.pendingChunks ++ [body]
              bodyReceived := msg.bodyReceived + body.length }
            (by simp) hready (by simp only; omega) (by simp only; omega)
          simp only [List.append_assoc, List.singleton_append] at hrest
          have hstep : Decoder.step (.body msg) ⟨3, channel, body⟩ =
              ({ returned := .ok false, calls := [] }, .body { msg with
                pendingChunks := msg.pendingChunks ++ [body]
                bodyReceived := msg.bodyReceived + body.length }) := by
            simp [Decoder.step, Decoder.expectedType, Decoder.onBody, hmore, hready,
              Decoder.wait]
          exact run_cons hstep hrest

/-- The header of an item, on the message that waits for it. -/
private theorem inboundHeader_ok {header : Octets} {bodySize next : Nat}
    {properties : Properties} (msg : Message)
    (hsize : unpackHeader header 0 = .ok ((Spec.Basic.classId, bodySize), 12))
    (hproperties : decodePropertiesBasic header 12 = .ok (properties, next)) :
    inboundHeader header 0 msg = (.ok 12, { msg with
      bodySize, properties
      ready := if bodySize = 0 then true else msg.ready }) := by
  by_cases hempty : bodySize = 0 <;>
    simp [inboundHeader, loadProperties, hsize, hproperties, hempty]

/-- The frames of an item take an idle decoder through the item and back to idle. -/
theorem run_item (channel : Nat) (item : Item) :
    run Decoder.step .idle (item.frames channel) = (item.trace channel, .idle) := by
  cases item with
  | method payload sig hsig hbare =>
      simp [Item.frames, Item.trace, Item.traceOf, run, Decoder.step, Decoder.expectedType,
        Decoder.onMethod, hsig, hbare, Item.call]
  | content payload sig hsig hcontent header bodySize properties hsize hproperties bodies
      hbodies hlast =>
      obtain ⟨next, hnext⟩ := hproperties
      have hmethod : Decoder.step .idle ⟨1, channel, payload⟩ =
          ({ returned := .ok false, calls := [] },
            .header { frameMethod := some sig, frameArgs := some payload }) := by
        simp [Decoder.step, Decoder.expectedType, Decoder.onMethod, hsig, hcontent, Decoder.wait]
      have hheader := inboundHeader_ok
        { frameMethod := some sig, frameArgs := some payload } hsize hnext
      by_cases hempty : bodySize = 0
      · rw [if_pos hempty] at hlast
        subst hlast hempty
        have hdone : Decoder.step
            (.header { frameMethod := some sig, frameArgs := some payload })
            ⟨2, channel, header⟩ = Decoder.deliver channel
              { frameMethod := some sig, frameArgs := some payload, properties, ready := true } := by
          simp [Decoder.step, Decoder.expectedType, Decoder.onHeader, hheader]
        exact run_cons hmethod (run_cons hdone rfl)
      · rw [if_neg hempty] at hlast
        have hne : bodies ≠ [] := by
          rintro rfl
          exact hempty hbodies.symm
        have hwait : Decoder.step
            (.header { frameMethod := some sig, frameArgs := some payload })
            ⟨2, channel, header⟩ = Decoder.wait (.body
              { frameMethod := some sig, frameArgs := some payload, bodySize, properties }) := by
          simp [Decoder.step, Decoder.expectedType, Decoder.onHeader, hheader, hempty]
        have hrest := run_bodies channel bodies
          { frameMethod := some sig, frameArgs := some payload, bodySize, properties } hne rfl
          (by simpa using hbodies) (by simpa using hlast)
        obtain ⟨body, rest, rfl⟩ := List.exists_cons_of_ne_nil hne
        have hcall : Decoder.call channel
            { frameMethod := some sig, frameArgs := some payload, properties
              body := .bytes (body :: rest).flatten, bodyReceived := bodySize, bodySize
              ready := true } = (Item.content payload sig hsig hcontent header bodySize properties
                hsize ⟨next, hnext⟩ (body :: rest) hbodies (by rwa [if_neg hempty])).call
                  channel := by
          simp [Decoder.call, Item.call, Item.message?, hempty]
        simp only [List.nil_append, hcall] at hrest
        exact run_cons hmethod (run_cons hwait hrest)

/-! Any interleaving -/

/-- The frames of every channel are those of its items in order; heartbeats may stand
anywhere. -/
def Interleaved (items : Nat → List Item) (frames : List Frame) : Prop :=
  ∀ channel, frames.filter (fun frame => frame.channel = channel ∧ frame.frameType ≠ 8) =
    (items channel).flatMap (Item.frames channel)

/-- Feeding `on_frame` is feeding every channel's decoder. -/
theorem onFrameStep_run (frames : List Frame) :
    (run onFrameStep {} frames).1 =
      (run (stepAt Decoder.step Frame.channel) (fun _ => .idle) frames).1 := by
  refine (run_related Handler.Represents ?_ (fun _ => ⟨rfl, rfl⟩) frames).1
  intro h decoders frame h0
  obtain ⟨h', hrun, hcalls, -, hnext⟩ := onFrame_step h0 frame
  refine ⟨?_, ?_⟩
  · simp [onFrameStep, stepAt, hrun, hcalls]
  · simpa [onFrameStep, stepAt, hrun] using hnext

/-- `on_frame` demultiplexes: whatever the interleaving, no frame raises, the frames of
a channel have the outcomes of its own items, a heartbeat returns `False` and calls
nothing. -/
theorem onFrame_demultiplexes {items : Nat → List Item} {frames : List Frame}
    (h : Interleaved items frames) :
    (∀ entry ∈ (run onFrameStep {} frames).1, entry.1.frameType = 8 →
      entry.2 = { returned := .ok false, calls := [] }) ∧
    ∀ channel,
      ((run onFrameStep {} frames).1.filter fun entry =>
          entry.1.channel = channel ∧ entry.1.frameType ≠ 8) =
        (items channel).flatMap (Item.trace channel) := by
  rw [onFrameStep_run]
  refine ⟨fun entry hentry hbeat => ?_, fun channel => ?_⟩
  · obtain ⟨decoders, hout⟩ := run_mem hentry
    simp [hout, stepAt, Decoder.step, hbeat, Decoder.wait]
  · have hchannel := congrArg Prod.fst
      (run_filter Decoder.step Frame.channel (fun _ => .idle) frames channel)
    have hbeat : ∀ (d : Decoder) (frame : Frame),
        decide (frame.frameType ≠ 8) = false → (d.step frame).2 = d := by
      intro d frame hframe
      have h8 : frame.frameType = 8 := by simpa using hframe
      simp [Decoder.step, h8, Decoder.wait]
    have hskip := congrArg Prod.fst (run_skip hbeat Decoder.idle
      (frames.filter fun frame => frame.channel = channel))
    have hframes : (frames.filter fun frame => frame.channel = channel).filter
        (fun frame => frame.frameType ≠ 8) = (items channel).flatMap (Item.frames channel) := by
      rw [List.filter_filter, ← h channel]
      congr 1
      funext frame
      rw [Bool.decide_and, Bool.and_comm]
    rw [hframes, run_flatMap fun item _ => run_item channel item] at hskip
    refine Eq.trans ?_ hskip
    simp only [← hchannel, List.filter_filter]
    congr 1
    funext entry
    rw [Bool.decide_and, Bool.and_comm]

/-- A delivery in two body frames on channel 1, a method on channel 2 and a heartbeat in
between. -/
theorem onFrame_demultiplexes_two :
    ∃ (items : Nat → List Item) (frames : List Frame),
      frames.map (fun frame => (frame.frameType, frame.channel)) =
        [(1, 1), (2, 1), (1, 2), (3, 1), (8, 0), (3, 1)] ∧
      (∀ entry ∈ (run onFrameStep {} frames).1, entry.1.frameType = 8 →
        entry.2 = { returned := .ok false, calls := [] }) ∧
      ∀ channel,
        ((run onFrameStep {} frames).1.filter fun entry =>
            entry.1.channel = channel ∧ entry.1.frameType ≠ 8) =
          (items channel).flatMap (Item.trace channel) := by
  let header : Octets := [0, 60, 0, 0, 0, 0, 0, 0, 0, 0, 0, 2, 0, 0]
  have hproperties : decodePropertiesBasic header 12 = .ok ([], 14) := by
    have hflags : unpackFrom 2 header 12 = .ok (0, 14) := rfl
    simp only [decodePropertiesBasic, bind, Cursor.bind, hflags]
    rfl
  let delivery : Item := .content [0, 60, 0, 60] Spec.Basic.deliver rfl (by decide) header 2 []
    rfl ⟨14, hproperties⟩ [[7], [8]] rfl (by decide)
  let method : Item := .method [0, 20, 0, 20] Spec.Channel.flow rfl (by decide)
  refine ⟨fun channel => if channel = 1 then [delivery] else if channel = 2 then [method] else [],
    [⟨1, 1, [0, 60, 0, 60]⟩, ⟨2, 1, header⟩, ⟨1, 2, [0, 20, 0, 20]⟩, ⟨3, 1, [7]⟩, ⟨8, 0, []⟩,
      ⟨3, 1, [8]⟩], rfl, onFrame_demultiplexes fun channel => ?_⟩
  by_cases h1 : channel = 1
  · subst h1
    rfl
  · by_cases h2 : channel = 2
    · subst h2
      rfl
    · simp [h1, h2, Ne.symm h1, Ne.symm h2]

end PyAmqp
