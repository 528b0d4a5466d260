import PyAmqp.Framing.Demultiplexing

/-!
Callbacks that raise, or feed frames to `on_frame` themselves. The dictionaries are in
their final state for a frame before its callback runs, so they depend on the frames
alone, in the order in which `on_frame` gets them.
-/

namespace PyAmqp

/-! Abstract channels -/

/-- Where a channel stands: between contents, after the method of one, or in a body of
a declared size. -/
inductive Progress where
  | idle
  | method
  | body (declared received : Nat)
  deriving DecidableEq

/-- The body size a content header declares, if the header is accepted. -/
def acceptedHeader (payload : Octets) : Option Nat :=
  match unpackHeader payload 0 with
  | .error _ => none
  | .ok ((classId, bodySize), _) =>
      if classId = Spec.Basic.classId then
        match decodePropertiesBasic payload 12 with
        | .ok _ => some bodySize
        | .error _ => none
      else none

namespace Progress

def onMethod (payload : Octets) : Progress :=
  match unpackMethodSig payload 0 with
  | .ok (sig, _) => if sig ∈ contentMethods then method else idle
  | .error _ => idle

def onHeader (payload : Octets) : Progress :=
  match acceptedHeader payload with
  | some 0 => idle
  | some declared => body declared 0
  | none => method

def onBody (declared received : Nat) (payload : Octets) : Progress :=
  if received + payload.length < declared then body declared (received + payload.length)
  else idle

/-- A frame that is not expected, or cannot be read, changes nothing. -/
def step (p : Progress) (frame : Frame) : Progress :=
  match p with
  | idle => if frame.frameType = 1 then onMethod frame.payload else idle
  | method => if frame.frameType = 2 then onHeader frame.payload else method
  | body declared received =>
      if frame.frameType = 3 then onBody declared received frame.payload
      else body declared received

/-- The channels after some frames. -/
def after (frames : List Frame) (start : Nat → Progress) : Nat → Progress :=
  frames.foldl
    (fun channels frame =>
      Function.update channels frame.channel ((channels frame.channel).step frame)) start

end Progress

/-- The message is still incomplete, and holds the octets that it has counted. -/
structure Message.Incomplete (msg : Message) : Prop where
  ready : msg.ready = false
  received : msg.pendingChunks.flatten.length = msg.bodyReceived

/-- A decoder is where its channel stands. -/
inductive Decoder.At : Decoder → Progress → Prop where
  | idle : At .idle .idle
  | method {msg : Message} (h : msg.Incomplete) (hnone : msg.bodyReceived = 0) :
      At (.header msg) .method
  | body {msg : Message} (h : msg.Incomplete) (hmore : msg.bodyReceived < msg.bodySize) :
      At (.body msg) (.body msg.bodySize msg.bodyReceived)

/-! One frame of a channel -/

section Decoders

variable {d : Decoder} {p : Progress} {frame : Frame} {msg : Message}

theorem inboundHeader_accepted {payload : Octets} {size : Nat}
    (h : acceptedHeader payload = some size) (msg : Message) (hready : msg.ready = false) :
    ∃ offset properties, inboundHeader payload 0 msg =
      (.ok offset, { msg with bodySize := size, properties, ready := decide (size = 0) }) := by
  unfold acceptedHeader at h
  cases hheader : unpackHeader payload 0 with
  | error e => simp [hheader] at h
  | ok value =>
      obtain ⟨⟨classId, bodySize⟩, next⟩ := value
      simp only [hheader] at h
      by_cases hclass : classId = Spec.Basic.classId
      · rw [if_pos hclass] at h
        cases hproperties : decodePropertiesBasic payload 12 with
        | error e => simp [hproperties] at h
        | ok value =>
            obtain rfl : bodySize = size := by simpa [hproperties] using h
            refine ⟨12, value.1, ?_⟩
            by_cases hsize : bodySize = 0 <;>
              simp [inboundHeader, hheader, loadProperties, hclass, hproperties, hsize, hready]
      · simp [if_neg hclass] at h

theorem inboundHeader_rejected {payload : Octets} (h : acceptedHeader payload = none)
    (msg : Message) :
    ∃ e size, inboundHeader payload 0 msg = (.error e, { msg with bodySize := size }) := by
  unfold acceptedHeader at h
  cases hheader : unpackHeader payload 0 with
  | error e => exact ⟨e, msg.bodySize, by simp [inboundHeader, hheader]⟩
  | ok value =>
      obtain ⟨⟨classId, bodySize⟩, next⟩ := value
      simp only [hheader] at h
      by_cases hclass : classId = Spec.Basic.classId
      · rw [if_pos hclass] at h
        cases hproperties : decodePropertiesBasic payload 12 with
        | error e =>
            exact ⟨e, bodySize, by simp [inboundHeader, hheader, loadProperties, hclass,
              hproperties]⟩
        | ok value => simp [hproperties] at h
      · exact ⟨.keyError, bodySize, by simp [inboundHeader, hheader, loadProperties, hclass]⟩

theorem onMethod_at (frame : Frame) :
    (Decoder.onMethod frame).2.At (Progress.onMethod frame.payload) := by
  unfold Decoder.onMethod Progress.onMethod
  cases unpackMethodSig frame.payload 0 with
  | error e => exact .idle
  | ok value =>
      by_cases hcontent : value.1 ∈ contentMethods
      · simp only [if_pos hcontent]
        exact .method ⟨rfl, rfl⟩ rfl
      · simp only [if_neg hcontent]
        exact .idle

theorem onHeader_at (h : msg.Incomplete) (hnone : msg.bodyReceived = 0) (frame : Frame) :
    (Decoder.onHeader msg frame).2.At (Progress.onHeader frame.payload) := by
  unfold Decoder.onHeader Progress.onHeader
  cases hheader : acceptedHeader frame.payload with
  | none =>
      obtain ⟨e, size, hrun⟩ := inboundHeader_rejected hheader msg
      rw [hrun]
      exact .method ⟨h.ready, h.received⟩ hnone
  | some size =>
      obtain ⟨offset, properties, hrun⟩ := inboundHeader_accepted hheader msg h.ready
      rw [hrun]
      by_cases hsize : size = 0
      · simp only [hsize, decide_true, if_true]
        exact .idle
      · simp only [hsize, decide_false, Bool.false_eq_true, if_false]
        have hbody : Decoder.At
            (.body { msg with bodySize := size, properties, ready := false })
            (.body size msg.bodyReceived) :=
          .body ⟨rfl, h.received⟩ (by simp only [hnone]; omega)
        have hstart : Progress.body size 0 = .body size msg.bodyReceived := by rw [hnone]
        rw [hstart]
        exact hbody

theorem onBody_at (h : msg.Incomplete) (frame : Frame) :
    (Decoder.onBody msg frame).2.At
      (Progress.onBody msg.bodySize msg.bodyReceived frame.payload) := by
  unfold Decoder.onBody Progress.onBody inboundBody
  by_cases hmore : msg.bodyReceived + frame.payload.length < msg.bodySize
  · have hready : ¬ msg.bodyReceived + frame.payload.length ≥ msg.bodySize := not_le.mpr hmore
    simp only [if_neg hready, if_pos hmore, h.ready, Bool.false_eq_true, if_false]
    have hreceived : (msg.pendingChunks ++ [frame.payload]).flatten.length =
        msg.bodyReceived + frame.payload.length := by simp [h.received]
    have hbody : Decoder.At
        (.body { msg with
          bodyReceived := msg.bodyReceived + frame.payload.length
          pendingChunks := msg.pendingChunks ++ [frame.payload]
          ready := false })
        (.body msg.bodySize (msg.bodyReceived + frame.payload.length)) :=
      .body ⟨rfl, hreceived⟩ hmore
    exact hbody
  · have hready : msg.bodyReceived + frame.payload.length ≥ msg.bodySize := not_lt.mp hmore
    simp only [if_pos hready, if_neg hmore]
    split
    · exact .idle
    · exact .idle

/-- A decoder follows its channel. -/
theorem Decoder.At.step (h : d.At p) (frame : Frame) : (d.step frame).2.At (p.step frame) := by
  have hother : ∀ expected, d.expectedType = expected → frame.frameType ≠ expected →
      (d.step frame).2 = d := by
    intro expected hexpected hne
    unfold Decoder.step
    split
    · rfl
    · rw [if_pos (by rwa [hexpected])]
      rfl
  cases h with
  | idle =>
      by_cases htype : frame.frameType = 1
      · simpa [Decoder.step, Progress.step, Decoder.expectedType, htype] using onMethod_at frame
      · rw [hother 1 rfl htype, Progress.step, if_neg htype]
        exact .idle
  | method h hnone =>
      by_cases htype : frame.frameType = 2
      · simpa [Decoder.step, Progress.step, Decoder.expectedType, htype] using
          onHeader_at h hnone frame
      · rw [hother 2 rfl htype, Progress.step, if_neg htype]
        exact .method h hnone
  | body h hmore =>
      by_cases htype : frame.frameType = 3
      · simpa [Decoder.step, Progress.step, Decoder.expectedType, htype] using onBody_at h frame
      · rw [hother 3 rfl htype, Progress.step, if_neg htype]
        exact .body h hmore

/-! What the outcome of a frame says -/

/-- A message but for the size a rejected header may have left in it. -/
def Message.unsized (msg : Message) : Message := { msg with bodySize := 0 }

/-- A frame that makes the handler raise calls nothing, and leaves the octets it has. -/
theorem Decoder.step_error (h : d.At p) (frame : Frame) {e : PyError}
    (herror : (d.step frame).1.returned = .error e) :
    (d.step frame).1.calls = [] ∧ (d.step frame).2.expectedType = d.expectedType ∧
      (d.step frame).2.partialMessage.map Message.unsized =
        d.partialMessage.map Message.unsized := by
  unfold Decoder.step at herror ⊢
  split at herror
  · simp [Decoder.wait] at herror
  next hbeat =>
    rw [if_neg hbeat]
    split at herror
    next htype =>
      rw [if_pos htype]
      exact ⟨rfl, rfl, rfl⟩
    next htype =>
      rw [if_neg htype]
      cases h with
      | idle =>
          unfold Decoder.onMethod at herror ⊢
          cases hsig : unpackMethodSig frame.payload 0 with
          | error e' => exact ⟨rfl, rfl, rfl⟩
          | ok value =>
              simp only [hsig] at herror
              split at herror <;> simp [Decoder.wait] at herror
      | @method msg h hnone =>
          simp only [Decoder.onHeader] at herror ⊢
          cases hheader : acceptedHeader frame.payload with
          | none =>
              obtain ⟨e', size, hrun⟩ := inboundHeader_rejected hheader msg
              rw [hrun]
              exact ⟨rfl, rfl, rfl⟩
          | some size =>
              obtain ⟨offset, properties, hrun⟩ := inboundHeader_accepted hheader msg h.ready
              rw [hrun] at herror
              simp only at herror
              split at herror <;> simp [Decoder.wait, Decoder.deliver] at herror
      | body h hmore =>
          simp only [Decoder.onBody] at herror
          split at herror <;> simp [Decoder.wait, Decoder.deliver] at herror

/-- A frame calls back at most once, for its own channel, which is between contents by
then; it has nothing to raise after that. -/
theorem Decoder.step_call (h : d.At p) (frame : Frame) :
    (d.step frame).1.calls = [] ∨
      ∃ call, (d.step frame).1 = { returned := .ok true, calls := [call] } ∧
        call.channel = frame.channel ∧ (d.step frame).2 = .idle := by
  unfold Decoder.step
  split
  · exact .inl rfl
  split
  · exact .inl rfl
  cases h with
  | idle =>
      simp only [Decoder.onMethod]
      cases unpackMethodSig frame.payload 0 with
      | error e => exact .inl rfl
      | ok value =>
          by_cases hcontent : value.1 ∈ contentMethods
          · simp only [if_pos hcontent]
            exact .inl rfl
          · simp only [if_neg hcontent]
            exact .inr ⟨_, rfl, rfl, trivial⟩
  | @method msg h hnone =>
      simp only [Decoder.onHeader]
      rcases inboundHeader frame.payload 0 msg with ⟨r, msg'⟩
      cases r with
      | error e => exact .inl rfl
      | ok offset =>
          simp only
          split
          · exact .inr ⟨_, rfl, rfl, rfl⟩
          · exact .inl rfl
  | body h hmore =>
      simp only [Decoder.onBody]
      split
      · exact .inr ⟨_, rfl, rfl, rfl⟩
      · exact .inl rfl

end Decoders

/-! Any callback -/

/-- The callback comes last, if at all: what a frame does before it does not depend on
it. -/
def Tails (frame : Frame) (h : Handler) : Prop :=
  (∃ r h', h'.calls = h.calls ∧ ∀ callback, onFrame callback frame h = (r, h')) ∨
    ∃ call h', h'.calls = h.calls ∧ ∀ callback : Call → Effect Handler PyError Unit,
      onFrame callback frame h = (callback call >>= fun _ => pure true) h'

private theorem tails_finish {frame : Frame} {h : Handler} (msg : Message) (h1 : Handler)
    (hcalls : h1.calls = h.calls)
    (hrun : ∀ callback, onFrame callback frame h = finish callback frame.channel msg h1) :
    Tails frame h :=
  .inr ⟨_, (h1.expect frame.channel 1).store frame.channel none, hcalls,
    fun callback => (hrun callback).trans rfl⟩

section Tails

variable {frame : Frame} {h : Handler}

private theorem tails_method (htype : frame.frameType = 1)
    (hexpected : h.expectedTypes frame.channel = 1) : Tails frame h := by
  let counted : Handler := { h with bytesRecv := h.bytesRecv + 1 }
  cases hsig : unpackMethodSig frame.payload 0 with
  | error e =>
      left
      refine ⟨.error e, counted, rfl, fun callback => ?_⟩
      simp [onFrame, hexpected, htype, hsig, counted]
  | ok value =>
      by_cases hcontent : value.1 ∈ contentMethods
      · left
        refine ⟨.ok false, (counted.store frame.channel (some
          { frameMethod := some value.1, frameArgs := some frame.payload })).expect
            frame.channel 2, rfl, fun callback => ?_⟩
        simp [onFrame, hexpected, htype, hsig, hcontent, counted]
      · right
        refine ⟨{ channel := frame.channel, methodSig := some value.1,
                  args := some frame.payload, content := none }, counted, rfl,
          fun callback => ?_⟩
        simp [onFrame, hexpected, htype, hsig, hcontent, counted]

private theorem tails_header (htype : frame.frameType = 2)
    (hexpected : h.expectedTypes frame.channel = 2) : Tails frame h := by
  cases hheld : h.partialMessages frame.channel with
  | none =>
      left
      refine ⟨.error .keyError, { h with bytesRecv := h.bytesRecv + 1 }, rfl,
        fun callback => ?_⟩
      simp [onFrame, hexpected, htype, Handler.onPartial_none, hheld]
  | some msg =>
      obtain ⟨r, msg', hheader⟩ : ∃ r msg', inboundHeader frame.payload 0 msg = (r, msg') :=
        ⟨_, _, rfl⟩
      have hpop := Handler.onPartial_some (h := { h with bytesRecv := h.bytesRecv + 1 }) hheld
        hheader
      cases r with
      | error e =>
          left
          refine ⟨.error e, Handler.store frame.channel (some msg')
            { h with bytesRecv := h.bytesRecv + 1 }, rfl, fun callback => ?_⟩
          simp [onFrame, hexpected, htype, hpop, Except.map]
      | ok offset =>
          by_cases hready : msg'.ready
          · refine tails_finish (h := h) msg' (Handler.store frame.channel (some msg')
              { h with bytesRecv := h.bytesRecv + 1 }) rfl fun callback => ?_
            simp [onFrame, hexpected, htype, hpop, Except.map, hready]
          · left
            refine ⟨.ok false, (Handler.store frame.channel (some msg')
              { h with bytesRecv := h.bytesRecv + 1 }).expect frame.channel 3, rfl,
              fun callback => ?_⟩
            simp [onFrame, hexpected, htype, hpop, Except.map, hready]

private theorem tails_body (htype : frame.frameType = 3)
    (hexpected : h.expectedTypes frame.channel = 3) : Tails frame h := by
  cases hheld : h.partialMessages frame.channel with
  | none =>
      left
      refine ⟨.error .keyError, { h with bytesRecv := h.bytesRecv + 1 }, rfl,
        fun callback => ?_⟩
      simp [onFrame, hexpected, htype, Handler.onPartial_none, hheld]
  | some msg =>
      have hpop := Handler.onPartial_some (h := { h with bytesRecv := h.bytesRecv + 1 }) hheld
        (Effect.modify_run (inboundBody frame.payload))
      by_cases hready : (inboundBody frame.payload msg).ready
      · refine tails_finish (h := h) (inboundBody frame.payload msg) (Handler.store frame.channel
          (some (inboundBody frame.payload msg)) { h with bytesRecv := h.bytesRecv + 1 }) rfl
          fun callback => ?_
        simp [onFrame, hexpected, htype, hpop, Except.map, hready]
      · left
        refine ⟨.ok false, Handler.store frame.channel (some (inboundBody frame.payload msg))
          { h with bytesRecv := h.bytesRecv + 1 }, rfl, fun callback => ?_⟩
        simp [onFrame, hexpected, htype, hpop, Except.map, hready]

end Tails

theorem onFrame_tails (frame : Frame) (h : Handler) : Tails frame h := by
  by_cases hbeat : frame.frameType = 8
  · left
    exact ⟨.ok false, { h with bytesRecv := h.bytesRecv + 1 }, rfl,
      fun callback => by simp [onFrame, hbeat]⟩
  by_cases htype : frame.frameType = h.expectedTypes frame.channel
  swap
  · left
    exact ⟨.error (unexpectedFrame frame.frameType (h.expectedTypes frame.channel)),
      { h with bytesRecv := h.bytesRecv + 1 }, rfl,
      fun callback => by simp [onFrame, hbeat, htype]⟩
  by_cases hmethod : frame.frameType = 1
  · exact tails_method hmethod (htype.symm.trans hmethod)
  by_cases hheader : frame.frameType = 2
  · exact tails_header hheader (htype.symm.trans hheader)
  by_cases hbody : frame.frameType = 3
  · exact tails_body hbody (htype.symm.trans hbody)
  · left
    exact ⟨.ok true, { h with bytesRecv := h.bytesRecv + 1 }, rfl,
      fun callback => by simp [onFrame, ← htype, hbeat, hmethod, hheader, hbody]⟩

/-! Code that feeds frames -/

/-- What code around the handler does: it feeds a frame to `on_frame`, with what the
callback does should it be called, and goes on by what comes back; in the end it returns
or raises. A callback is such code itself. -/
inductive Script where
  | done (r : Except PyError Unit)
  | feed (frame : Frame) (callback : Call → Script) (next : Except PyError Bool → Script)

namespace Script

def run : Script → Effect Handler PyError Unit
  | .done r => Effect.liftExcept r
  | .feed frame callback next => fun h =>
      let (r, h') := onFrame (fun call => record call >>= fun _ => (callback call).run) frame h
      (next r).run h'

/-- The frames in the order in which `on_frame` gets them. -/
def fed : Script → Handler → List Frame
  | .done _, _ => []
  | .feed frame callback next, h =>
      let (outcome, h') := onFrameStep h frame
      frame ::
        match outcome.calls with
        | [] => (next outcome.returned).fed h'
        | call :: _ =>
            let (r, h'') := (callback call).run h'
            (callback call).fed h' ++ (next (r.map fun _ => true)).fed h''

end Script

/-- Every channel's dictionary entries are those of a decoder where the channel stands. -/
def Handler.Follows (h : Handler) (channels : Nat → Progress) : Prop :=
  ∃ decoders, h.Represents decoders ∧ ∀ channel, (decoders channel).At (channels channel)

section Follows

variable {h : Handler} {channels : Nat → Progress}

/-- One frame, with any callback. -/
theorem Handler.Follows.frame (h0 : h.Follows channels) (frame : Frame) :
    (∃ r h', h'.Follows (Progress.after [frame] channels) ∧ h'.calls = h.calls ∧
        (∀ callback, onFrame callback frame h = (r, h')) ∧
        ∀ e, r = .error e → h'.expectedTypes = h.expectedTypes ∧
          ∀ channel, (h'.partialMessages channel).map Message.unsized =
            (h.partialMessages channel).map Message.unsized) ∨
      ∃ call h', h'.Follows (Progress.after [frame] channels) ∧ h'.calls = h.calls ∧
        call.channel = frame.channel ∧ h'.expectedTypes frame.channel = 1 ∧
        h'.partialMessages frame.channel = none ∧
        ∀ callback : Call → Effect Handler PyError Unit,
          onFrame callback frame h = (callback call >>= fun _ => pure true) h' := by
  obtain ⟨decoders, hrep, hat⟩ := h0
  obtain ⟨h1, hrun, hcalls, -, hrep'⟩ := onFrame_step hrep frame
  have hat' : ∀ channel, (Function.update decoders frame.channel
      ((decoders frame.channel).step frame).2 channel).At
        (Progress.after [frame] channels channel) := by
    intro channel
    by_cases hchannel : channel = frame.channel
    · subst hchannel
      simpa [Progress.after] using (hat frame.channel).step frame
    · simpa [Progress.after, hchannel] using hat channel
  have hfollows : h1.Follows (Progress.after [frame] channels) := ⟨_, hrep', hat'⟩
  have hdecoder := hat frame.channel
  rcases onFrame_tails frame h with ⟨r, h', hsame, hall⟩ | ⟨call, h', hsame, hall⟩
  · left
    have heq := (hall record).symm.trans hrun
    obtain ⟨rfl, rfl⟩ := Prod.mk.inj heq
    refine ⟨_, h', hfollows, hsame, hall, fun e he => ?_⟩
    obtain ⟨-, htype, hheld⟩ := Decoder.step_error hdecoder frame he
    refine ⟨funext fun channel => ?_, fun channel => ?_⟩
    · rw [(hrep' channel).1, (hrep channel).1]
      by_cases hchannel : channel = frame.channel
      · subst hchannel
        rw [Function.update_self, htype]
      · rw [Function.update_of_ne hchannel]
    · rw [(hrep' channel).2, (hrep channel).2]
      by_cases hchannel : channel = frame.channel
      · subst hchannel
        rw [Function.update_self, hheld]
      · rw [Function.update_of_ne hchannel]
  · right
    have hrecord : (record call >>= fun _ => pure true : Effect Handler PyError Bool) h' =
        (.ok true, { h' with calls := h'.calls ++ [call] }) := rfl
    obtain ⟨-, rfl⟩ := Prod.mk.inj ((hrecord.symm.trans (hall record).symm).trans hrun)
    simp only [hsame] at hcalls
    rcases Decoder.step_call hdecoder frame with hnone | ⟨call', hout, hchannel, hidle⟩
    · simp [hnone] at hcalls
    · obtain rfl : call = call' := by simpa [hout] using hcalls
      have hback := hrep' frame.channel
      rw [Function.update_self, hidle] at hback
      exact ⟨call, h', hfollows, hsame, hchannel, hback.1, hback.2, hall⟩

theorem Progress.after_append (frames frames' : List Frame) (start : Nat → Progress) :
    Progress.after (frames ++ frames') start =
      Progress.after frames' (Progress.after frames start) :=
  List.foldl_append

/-- Whatever its callbacks do, code around the handler leaves every channel where its
frames put it. -/
theorem Handler.Follows.run (script : Script) (h0 : h.Follows channels) :
    (script.run h).2.Follows (Progress.after (script.fed h) channels) := by
  induction script generalizing h channels with
  | done r => exact h0
  | feed frame callback next ihcallback ihnext =>
      rcases h0.frame frame with
        ⟨r, h', hnext, hcalls, hall, -⟩ | ⟨call, h', hnext, hcalls, -, -, -, hall⟩
      · have hstep : onFrameStep h frame = ({ returned := r, calls := [] }, h') := by
          simp [onFrameStep, hall, hcalls]
        simp only [Script.run, Script.fed, hstep, hall]
        exact ihnext r hnext
      · let h1 : Handler := { h' with calls := h'.calls ++ [call] }
        have hrecord : onFrame record frame h = (.ok true, h1) := by
          rw [hall]
          rfl
        have hstep : onFrameStep h frame = ({ returned := .ok true, calls := [call] }, h1) := by
          simp [onFrameStep, hrecord, h1, hcalls]
        have hrun : onFrame (fun call => record call >>= fun _ => (callback call).run) frame h =
            ((((callback call).run h1).1.map fun _ => true), ((callback call).run h1).2) := by
          rw [hall, bind_assoc, Effect.bind_ok _ (show record call h' = (.ok (), h1) from rfl)]
          simp only [Effect.bind_run]
          cases (callback call).run h1 with
          | mk r h2 => cases r <;> rfl
        have hcalled : h1.Follows (Progress.after [frame] channels) := hnext
        have hrest := ihnext ((((callback call).run h1).1).map fun _ => true)
          (ihcallback call hcalled)
        rw [← Progress.after_append] at hrest
        simp only [Script.run, Script.fed, hstep, hrun]
        exact hrest

end Follows

/-- The dictionaries say of every channel where it stands: type 1 goes with no message, type
2 with one whose header has not been accepted, and type 3 with one that has fewer octets
than its header declared. -/
structure Handler.Consistent (h : Handler) (channels : Nat → Progress) (channel : Nat) : Prop where
  types : h.expectedTypes channel ∈ [1, 2, 3]
  idle : h.expectedTypes channel = 1 ↔ h.partialMessages channel = none
  method : h.expectedTypes channel = 2 ↔
    ∃ msg, h.partialMessages channel = some msg ∧ channels channel = .method
  body : h.expectedTypes channel = 3 ↔
    ∃ msg, h.partialMessages channel = some msg ∧
      channels channel = .body msg.bodySize msg.bodyReceived ∧ msg.bodyReceived < msg.bodySize
  received : ∀ msg, h.partialMessages channel = some msg →
    msg.pendingChunks.flatten.length = msg.bodyReceived

theorem Handler.Follows.consistent {h : Handler} {channels : Nat → Progress}
    (h0 : h.Follows channels) (channel : Nat) : h.Consistent channels channel := by
  obtain ⟨decoders, hrep, hat⟩ := h0
  obtain ⟨htype, hheld⟩ := hrep channel
  have hchannel := hat channel
  generalize decoders channel = d at htype hheld hchannel
  generalize hp : channels channel = p at hchannel
  cases hchannel with
  | idle =>
      constructor <;>
        simp [htype, hheld, hp, Decoder.expectedType, Decoder.partialMessage]
  | method h hnone =>
      have hreceived := h.received
      rw [List.length_flatten] at hreceived
      constructor <;>
        simp [htype, hheld, hp, Decoder.expectedType, Decoder.partialMessage, hreceived]
  | body h hmore =>
      have hreceived := h.received
      rw [List.length_flatten] at hreceived
      constructor <;>
        simp [htype, hheld, hp, Decoder.expectedType, Decoder.partialMessage, hreceived, hmore]

/-- In every state that feeding frames can lead to, with callbacks that raise or feed frames
themselves, the dictionaries say of every channel where its frames have put it. A frame that
makes the handler raise leaves them as they are, but for a size that a rejected header may
have declared; and a callback runs last, with its channel back between contents. -/
theorem feed_consistent (script : Script) :
    let h := (script.run {}).2
    let channels := Progress.after (script.fed {}) fun _ => .idle
    h.Follows channels ∧ (∀ channel, h.Consistent channels channel) ∧
      ∀ frame,
        (∃ r h', (∀ callback, onFrame callback frame h = (r, h')) ∧
          ∀ e, r = .error e → h'.expectedTypes = h.expectedTypes ∧
            ∀ channel, (h'.partialMessages channel).map Message.unsized =
              (h.partialMessages channel).map Message.unsized) ∨
        ∃ call h', call.channel = frame.channel ∧ h'.expectedTypes frame.channel = 1 ∧
          h'.partialMessages frame.channel = none ∧
          ∀ callback : Call → Effect Handler PyError Unit,
            onFrame callback frame h = (callback call >>= fun _ => pure true) h' := by
  intro h channels
  have hstart : ({} : Handler).Follows fun _ => .idle :=
    ⟨fun _ => .idle, fun _ => ⟨rfl, rfl⟩, fun _ => .idle⟩
  have hfollows := hstart.run script
  refine ⟨hfollows, hfollows.consistent, fun frame => ?_⟩
  rcases hfollows.frame frame with
    ⟨r, h', -, -, hall, herror⟩ | ⟨call, h', -, -, hchannel, htype, hheld, hall⟩
  · exact .inl ⟨r, h', hall, herror⟩
  · exact .inr ⟨call, h', hchannel, htype, hheld, hall⟩

/-- The method of a delivery, fed by the callback of another method, and the method, header and
a first body of one whose callback raises when it is complete. -/
def twoDeliveries : Script :=
  .feed ⟨1, 3, [0, 20, 0, 20]⟩
    (fun _ => .feed ⟨1, 1, [0, 60, 0, 60]⟩ (fun _ => .done (.ok ())) fun _ =>
      .done (.error .typeError))
    fun _ => .feed ⟨1, 2, [0, 60, 0, 60]⟩ (fun _ => .done (.ok ())) fun _ =>
      .feed ⟨2, 2, [0, 60, 0, 0, 0, 0, 0, 0, 0, 0, 0, 2, 0, 0]⟩ (fun _ => .done (.ok ())) fun _ =>
        .feed ⟨3, 2, [7]⟩ (fun _ => .done (.error .typeError)) fun _ => .done (.ok ())

example : [1, 2, 3].map (twoDeliveries.run {}).2.expectedTypes = [2, 3, 1] := by decide +kernel

end PyAmqp
