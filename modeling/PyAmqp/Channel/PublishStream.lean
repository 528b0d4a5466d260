import PyAmqp.Channel.Machine
import PyAmqp.Framing.Completeness

/-!
The frames that `basic_publish` calls leave on a channel when single writes may time
out. The fast path sends a content in one write or not at all; the slow path may stop
between two frames, and the next publish then starts inside an unfinished content.
-/

namespace PyAmqp

/-- The parameters of `basic_publish`. -/
structure Publish where
  msg : Message
  exchange : Value := .str []
  routingKey : Value := .str []
  mandatory : Value := .bool false
  immediate : Value := .bool false

def Publish.args (p : Publish) : Except PyError Octets :=
  dumps "Bssbb".toList [.int 0, p.exchange, p.routingKey, p.mandatory, p.immediate]

/-- A transport whose writes send everything, or time out having sent nothing. -/
def timedWrite (times : List Octets → Bool) : TransportWrite :=
  fun handed => if times handed then .error .socketTimeout else .ok ()

/-- `send_method` of `basic_publish`: an exhausted writer is a closed connection. -/
def sendContent (transport : TransportWrite) (codec : Codec) (channel : Nat) (p : Publish) :
    Effect Writer PyError Unit := do
  let args ← Effect.liftExcept p.args
  Effect.tryCatch
    (writeFrame transport codec 1 channel (some Spec.Basic.publish) (some (.bytes args))
      (some p.msg))
    fun e => Effect.raise (if e = .stopIteration then Channel.connectionClosed else e)

/-- `_basic_publish` on a channel that has its connection, without the drain before it. -/
def basicPublish (transport : TransportWrite) (codec : Codec) (channel : Nat) (p : Publish) :
    Effect Writer PyError Unit :=
  Effect.tryCatch (sendContent transport codec channel p)
    fun e => Effect.raise (if e = .socketTimeout then Channel.publishTimedOut else e)

/-- What was sent of the pieces handed over after `before`. -/
def written (times : List Octets → Bool) : List Octets → List Octets → List Octets
  | _, [] => []
  | before, octets :: rest =>
      if times (before ++ [octets]) then written times (before ++ [octets]) rest
      else octets :: written times (before ++ [octets]) rest

/-- The publishes of a channel, and what they returned or raised. -/
structure Publisher where
  writer : Writer
  results : List (Except PyError Unit) := []

def Publisher.step (times : List Octets → Bool) (codec : Codec) (channel : Nat) (s : Publisher)
    (p : Publish) : Publisher :=
  let (result, writer) := basicPublish (timedWrite times) codec channel p s.writer
  { writer, results := s.results ++ [result] }

def Publisher.run (times : List Octets → Bool) (codec : Codec) (channel : Nat) (s : Publisher)
    (publishes : List Publish) : Publisher :=
  publishes.foldl (Publisher.step times codec channel) s

/-! Contents -/

/-- METHOD HEADER BODY*: the header has the length of all the bodies. -/
def ContentFrames (channel : Nat) (frames : List Frame) : Prop :=
  ∃ args properties bodies,
    frames = ⟨1, channel, methodOctets Spec.Basic.publish args⟩ ::
      ⟨2, channel, headerOctets Spec.Basic.publish (List.flatten bodies).length properties⟩ ::
        bodies.map (Frame.mk 3 channel) ∧
    ∀ piece ∈ bodies, piece ≠ []

/-- The octets are frames, the first ones of a sequence of complete contents. -/
def Intact (channel : Nat) (octets : Octets) : Prop :=
  ∃ (frames : List Frame) (contents : List (List Frame)),
    octets = frames.flatMap Frame.octets ∧ (∀ frame ∈ frames, frame.WellFormed) ∧
      (∀ content ∈ contents, ContentFrames channel content) ∧ frames <+: contents.flatten

/-- The frames are complete contents. -/
def Whole (channel : Nat) (octets : Octets) : Prop :=
  ∃ contents : List (List Frame),
    octets = contents.flatten.flatMap Frame.octets ∧
      (∀ frame ∈ contents.flatten, frame.WellFormed) ∧
        ∀ content ∈ contents, ContentFrames channel content

/-- The frames of a content on the slow path. -/
def publishFrames (channel chunkSize : Nat) (args properties body : Octets) : List Frame :=
  ⟨1, channel, methodOctets Spec.Basic.publish args⟩ ::
    ⟨2, channel, headerOctets Spec.Basic.publish body.length properties⟩ ::
      (chunks chunkSize body).map (Frame.mk 3 channel)

/-- A publish that finishes the content it starts: its frames leave in one write, or its
method frame is not sent, or it has a body, all its frames can be packed and none of
the later writes times out. -/
def Finishes (times : List Octets → Bool) (codec : Codec) (channel : Nat) (w : Writer)
    (p : Publish) : Prop :=
  ∀ args body properties, p.args = .ok args →
    contentOctets codec p.msg = .ok (body, properties) → Big w args properties body →
      let method : Frame := ⟨1, channel, methodOctets Spec.Basic.publish args⟩
      let frames := publishFrames channel (w.frameMax - 8) args properties body
      ¬ method.WellFormed ∨ times (w.handed ++ [method.octets]) = true ∨
        (body ≠ [] ∧ body.length < 2 ^ 64 ∧ 8 < w.frameMax ∧
          (∀ frame ∈ frames, frame.WellFormed) ∧
          ∀ sent, sent <+: frames → 2 ≤ sent.length →
            times (w.handed ++ sent.map Frame.octets) = false)

section Written

variable {times : List Octets → Bool}

theorem written_append (before xs ys : List Octets) :
    written times before (xs ++ ys) =
      written times before xs ++ written times (before ++ xs) ys := by
  induction xs generalizing before with
  | nil => simp [written]
  | cons x xs ih =>
      simp only [List.cons_append, written]
      have happend := ih (before ++ [x])
      rw [List.append_assoc, List.singleton_append] at happend
      split
      · exact happend
      · rw [happend, List.cons_append]

/-- One write is all or nothing. -/
theorem written_singleton (before : List Octets) (octets : Octets) :
    written times before [octets] = [] ∨ written times before [octets] = [octets] := by
  simp only [written]
  split
  · exact .inl rfl
  · exact .inr rfl

/-- Frame after frame is sent, until one cannot be packed or its write times out. -/
private theorem writeEach_written (frames : List Frame) (w : Writer) :
    ∃ r handed accepted,
      writeEach (timedWrite times) frames w = (r, { w with handed := w.handed ++ handed }) ∧
      written times w.handed handed = accepted.map Frame.octets ∧
      accepted <+: frames ∧ (∀ frame ∈ accepted, frame.WellFormed) ∧
      (∀ sent, sent <+: accepted → sent ≠ [] →
        times (w.handed ++ sent.map Frame.octets) = false) ∧
      ((∀ frame ∈ frames, frame.WellFormed) →
        (∀ sent, sent <+: frames → sent ≠ [] →
          times (w.handed ++ sent.map Frame.octets) = false) → accepted = frames) := by
  induction frames generalizing w with
  | nil => exact ⟨.ok (), [], [], by simp [writeEach, Effect.forEach], rfl, by simp⟩
  | cons frame frames ih =>
      cases hpack : packFrame frame.frameType frame.channel frame.payload with
      | error e =>
          refine ⟨.error e, [], [], ?_, rfl, by simp, by simp, ?_, ?_⟩
          · rw [writeEach, Effect.forEach,
              Effect.bind_error _ (writePacked_error _ w hpack)]
            simp
          · intro sent hsent hne
            exact absurd (List.prefix_nil.mp hsent) hne
          · intro hwf
            rw [packFrame_ok (hwf frame (by simp))] at hpack
            cases hpack
      | ok octets =>
          obtain ⟨hwf, rfl⟩ := packFrame_eq_ok hpack
          have hstep := writePacked_run (timedWrite times) w hpack
          cases htimes : times (w.handed ++ [frame.octets]) with
          | true =>
              simp only [timedWrite, htimes, if_true] at hstep
              refine ⟨.error .socketTimeout, [frame.octets], [], ?_, ?_, by simp, by simp, ?_, ?_⟩
              · rw [writeEach, Effect.forEach, Effect.bind_error _ hstep]
              · simp [written, htimes]
              · intro sent hsent hne
                exact absurd (List.prefix_nil.mp hsent) hne
              · intro _ hall
                have hfirst := hall [frame] (by simp) (by simp)
                simp [htimes] at hfirst
          | false =>
              simp only [timedWrite, htimes] at hstep
              obtain ⟨r, handed, accepted, hrest, hwritten, hinit, haccepted, hsent, hall⟩ :=
                ih { w with handed := w.handed ++ [frame.octets] }
              refine ⟨r, frame.octets :: handed, frame :: accepted, ?_, ?_, ?_, ?_, ?_, ?_⟩
              · rw [writeEach] at hrest
                rw [writeEach, Effect.forEach, Effect.bind_ok _ hstep]
                simpa using hrest
              · simpa [written, htimes] using hwritten
              · simpa using hinit
              · simpa using ⟨hwf, haccepted⟩
              · intro sent hsent' hne
                cases sent with
                | nil => exact absurd rfl hne
                | cons first sent =>
                    obtain ⟨rfl, htail⟩ := List.cons_prefix_cons.mp hsent'
                    by_cases hnil : sent = []
                    · simpa [hnil] using htimes
                    · simpa using hsent sent htail hnil
              · intro hwf' hall'
                refine congrArg (frame :: ·) (hall (fun f hf => hwf' f (by simp [hf])) ?_)
                intro sent hsent' hne
                have hlater := hall' (frame :: sent) (by simpa using hsent') (by simp)
                simpa using hlater

end Written

/-! One publish -/

section Call

variable {times : List Octets → Bool} {channel : Nat}

/-- The slow path writes the first frames of a content, one after the other. -/
private theorem writeSlow_publishes (transport : TransportWrite) (channel : Nat)
    (args properties body : Octets) (chunkSize : Int) :
    ∃ frames content tail,
      writeSlow transport 1 channel (some Spec.Basic.publish) (some args) properties body
          chunkSize = (writeEach transport frames >>= fun _ => Effect.liftExcept tail) ∧
      ContentFrames channel content ∧ frames <+: content ∧
      frames.head? = some ⟨1, channel, methodOctets Spec.Basic.publish args⟩ ∧
      (body ≠ [] → body.length < 2 ^ 64 → 0 < chunkSize →
        frames = content ∧ frames = publishFrames channel chunkSize.toNat args properties body) := by
  have hclass : Spec.Basic.publish.1 < 2 ^ 16 := by decide
  have hmethod := methodPayload_ok hclass (by decide) args
  by_cases hbody : body = []
  · subst hbody
    refine ⟨[⟨1, channel, methodOctets Spec.Basic.publish args⟩], _, .ok (), ?_,
      ⟨args, properties, [], rfl, by simp⟩, by simp, rfl, by simp⟩
    simp [writeSlow, hmethod, writeEach, Effect.forEach]
  by_cases hlength : body.length < 2 ^ 64
  · have hheader := headerPayload_ok hclass hlength properties
    by_cases hchunk : 0 < chunkSize
    · have hframes := slowFrames_ok hclass (by decide) hlength hbody channel args properties
        chunkSize.toNat
      refine ⟨publishFrames channel chunkSize.toNat args properties body, _, .ok (), ?_,
        ⟨args, properties, chunks chunkSize.toNat body, ?_, ?_⟩, List.prefix_rfl, rfl,
        fun _ _ _ => ⟨rfl, rfl⟩⟩
      · rw [writeSlow_eq transport hchunk hframes]
        simp [publishFrames]
      · rw [Chunks.flatten (by omega), publishFrames]
      · exact fun piece hpiece => Chunks.ne_nil (by omega) hpiece
    · refine ⟨[⟨1, channel, methodOctets Spec.Basic.publish args⟩,
          ⟨2, channel, headerOctets Spec.Basic.publish body.length properties⟩], _,
        if chunkSize = 0 then .error .valueError else .ok (), ?_,
        ⟨args, properties, [body], rfl, by simpa using hbody⟩, by simp, rfl,
        fun _ _ h => absurd h hchunk⟩
      by_cases hzero : chunkSize = 0
      · simp [writeSlow, hmethod, hheader, hbody, writeEach, Effect.forEach, range, hzero,
          Effect.liftExcept_error_bind]
      · have hneg : chunkSize < 0 := by omega
        simp [writeSlow, hmethod, hheader, hbody, writeEach, Effect.forEach, range, hzero, hneg]
  · obtain ⟨e, hheader⟩ : ∃ e, headerPayload (some Spec.Basic.publish) body.length properties =
        .error e := by
      cases hheader : headerPayload (some Spec.Basic.publish) body.length properties with
      | error e => exact ⟨e, rfl⟩
      | ok payload => exact absurd (headerPayload_eq_ok hheader).1 hlength
    refine ⟨[⟨1, channel, methodOctets Spec.Basic.publish args⟩], _, .error e, ?_,
      ⟨args, properties, [body], rfl, by simpa using hbody⟩, by simp, rfl,
      fun _ h => absurd h hlength⟩
    simp [writeSlow, hmethod, hheader, hbody, writeEach, Effect.forEach,
      Effect.liftExcept_error_bind]

/-- What a call leaves on the channel: the first frames of a content, and all or none of
them when it finishes. -/
private def Leaves (times : List Octets → Bool) (channel : Nat) (finishes : Prop) (w : Writer)
    (run : Except PyError Unit × Writer) : Prop :=
  ∃ handed accepted content,
    run.2.handed = w.handed ++ handed ∧ run.2.frameMax = w.frameMax ∧
      (written times w.handed handed).flatten = List.flatMap Frame.octets accepted ∧
      ContentFrames channel content ∧ accepted <+: content ∧
      (∀ frame ∈ accepted, frame.WellFormed) ∧ (finishes → accepted = [] ∨ accepted = content)

variable {finishes : Prop} {w : Writer}

private theorem leaves_nothing {r : Except PyError Unit} {w' : Writer}
    (hhanded : w'.handed = w.handed) (hmax : w'.frameMax = w.frameMax) :
    Leaves times channel finishes w (r, w') := by
  refine ⟨[], [], _, by simp [hhanded], hmax, rfl, ⟨[], [], [], rfl, by simp⟩, by simp, by simp,
    fun _ => .inl rfl⟩

private theorem leaves_counted {m : Effect Writer PyError Unit}
    (h : Leaves times channel finishes w (m w)) :
    Leaves times channel finishes w ((m >>= fun _ => countSent) w) := by
  obtain ⟨sent, hrun⟩ := bind_countSent (rfl : m w = ((m w).1, (m w).2))
  rw [hrun]
  exact h

private theorem leaves_handled {m : Effect Writer PyError Unit} (f : PyError → PyError)
    (h : Leaves times channel finishes w (m w)) :
    Leaves times channel finishes w
      (Effect.tryCatch m (fun e => Effect.raise (f e)) w) := by
  unfold Effect.tryCatch
  cases hrun : m w with
  | mk r w' =>
      rw [hrun] at h
      cases r with
      | ok _ => exact h
      | error e => exact h

/-- The fast path leaves a whole content or nothing. -/
private theorem writeFast_leaves {args properties body : Octets} :
    Leaves times channel finishes w
      (writeFast (timedWrite times) 1 channel (some Spec.Basic.publish) (some args)
        (some (properties, body)) w.chunkSize w) := by
  by_cases hfits : ∃ frames, fastFrames 1 channel (some Spec.Basic.publish) (some args)
      (some (properties, body)) = .ok frames ∧ Fits (w.resized w.chunkSize).buf.length frames
  · obtain ⟨frames, hframes, hfits⟩ := hfits
    obtain ⟨buf, -, hrun⟩ := writeFast_run (timedWrite times) w.chunkSize w hframes hfits
    have hcontent : ContentFrames channel frames := by
      rw [(fastFrames_eq_ok hframes).2]
      refine ⟨args, properties, if body = [] then [] else [body], ?_, ?_⟩
      · split <;> simp_all
      · split <;> simp_all
    rw [hrun]
    obtain hnone | hall := written_singleton w.handed (List.flatMap Frame.octets frames)
    · exact ⟨_, [], frames, rfl, rfl, by rw [hnone]; rfl, hcontent, by simp, by simp,
        fun _ => .inl rfl⟩
    · exact ⟨_, frames, frames, rfl, rfl, by rw [hall]; simp, hcontent, List.prefix_rfl, hfits.1,
        fun _ => .inr rfl⟩
  · obtain ⟨e, buf, -, hrun⟩ := writeFast_raises (timedWrite times) w.chunkSize w
      fun frames hframes hfit => hfits ⟨frames, hframes, hfit⟩
    rw [hrun]
    exact leaves_nothing rfl rfl

/-- The slow path leaves what its writes sent before one timed out. -/
private theorem writeSlow_leaves {args properties body : Octets}
    (hfinishes : finishes →
      let method : Frame := ⟨1, channel, methodOctets Spec.Basic.publish args⟩
      let frames := publishFrames channel (w.frameMax - 8) args properties body
      ¬ method.WellFormed ∨ times (w.handed ++ [method.octets]) = true ∨
        (body ≠ [] ∧ body.length < 2 ^ 64 ∧ 8 < w.frameMax ∧
          (∀ frame ∈ frames, frame.WellFormed) ∧
          ∀ sent, sent <+: frames → 2 ≤ sent.length →
            times (w.handed ++ sent.map Frame.octets) = false)) :
    Leaves times channel finishes w
      (writeSlow (timedWrite times) 1 channel (some Spec.Basic.publish) (some args) properties
        body w.chunkSize w) := by
  obtain ⟨frames, content, tail, hslow, hcontent, hinit, hhead, hcomplete⟩ :=
    writeSlow_publishes (timedWrite times) channel args properties body w.chunkSize
  obtain ⟨r, handed, accepted, heach, hwritten, haccepted, hwf, hsent, hall⟩ :=
    @writeEach_written times frames w
  have hrun : ((writeEach (timedWrite times) frames >>= fun _ => Effect.liftExcept tail) w).2 =
      { w with handed := w.handed ++ handed } := by
    cases r with
    | ok _ => rw [Effect.bind_ok _ heach]; rfl
    | error e => rw [Effect.bind_error _ heach]
  rw [hslow]
  refine ⟨handed, accepted, content, by rw [hrun], by rw [hrun], ?_, hcontent,
    haccepted.trans hinit, hwf, fun h => ?_⟩
  · rw [hwritten, List.flatMap_def]
  -- an accepted method frame is well formed, and its write did not time out
  have hmethod : accepted ≠ [] →
      (Frame.mk 1 channel (methodOctets Spec.Basic.publish args)).WellFormed ∧
        times (w.handed ++
          [(Frame.mk 1 channel (methodOctets Spec.Basic.publish args)).octets]) = false := by
    intro hne
    obtain ⟨first, rest, rfl⟩ := List.exists_cons_of_ne_nil hne
    obtain ⟨suffix, rfl⟩ := haccepted
    obtain rfl : first = ⟨1, channel, methodOctets Spec.Basic.publish args⟩ := by
      simpa using hhead
    exact ⟨hwf _ (by simp), hsent [_] (by simp) (by simp)⟩
  by_cases hne : accepted = []
  · exact .inl hne
  obtain ⟨hmethodWf, hmethodSent⟩ := hmethod hne
  obtain hbad | htimed | ⟨hbody, hlength, hmax, hframesWf, hlater⟩ := hfinishes h
  · exact absurd hmethodWf hbad
  · rw [hmethodSent] at htimed
    cases htimed
  · obtain ⟨rfl, hframes⟩ := hcomplete hbody hlength (Writer.chunkSize_pos (by omega))
    rw [w.chunkSize_toNat] at hframes
    rw [hframes] at hall ⊢
    refine .inr (hall hframesWf fun sent hinit' hnil => ?_)
    by_cases htwo : 2 ≤ sent.length
    · exact hlater sent hinit' htwo
    · obtain ⟨first, rest, rfl⟩ := List.exists_cons_of_ne_nil hnil
      obtain rfl : rest = [] := by
        cases rest with
        | nil => rfl
        | cons _ _ => simp at htwo
      obtain ⟨rfl, -⟩ := List.cons_prefix_cons.mp hinit'
      simpa using hmethodSent

private theorem basicPublish_leaves (codec : Codec) (p : Publish) :
    Leaves times channel (Finishes times codec channel w p) w
      (basicPublish (timedWrite times) codec channel p w) := by
  refine leaves_handled _ ?_
  unfold sendContent
  cases hargs : p.args with
  | error e => exact leaves_nothing rfl rfl
  | ok args =>
      simp only [Effect.liftExcept_ok, pure_bind]
      refine leaves_handled _ ?_
      cases hcontent : contentOctets codec p.msg with
      | error e =>
          rw [writeFrame_content_error (timedWrite times) 1 channel _ _ w hcontent]
          exact leaves_nothing rfl rfl
      | ok value =>
          obtain ⟨body, properties⟩ := value
          rw [writeFrame_content (timedWrite times) 1 channel _ (.bytes args) w hcontent]
          refine leaves_counted ?_
          by_cases hbig : Big w (Text.bytes args).toBytes properties body
          · rw [if_pos hbig]
            exact writeSlow_leaves fun h => h args body properties hargs hcontent hbig
          · rw [if_neg hbig]
            exact writeFast_leaves

end Call

/-! Runs -/

section Runs

variable {times : List Octets → Bool} {codec : Codec} {channel : Nat}

/-- A finished publish leaves complete contents behind complete contents; any publish
leaves the first frames of one. -/
private theorem step_intact (s : Publisher) (p : Publish)
    (h : Whole channel (written times [] s.writer.handed).flatten) :
    Intact channel (written times [] (s.step times codec channel p).writer.handed).flatten ∧
      (Finishes times codec channel s.writer p →
        Whole channel (written times [] (s.step times codec channel p).writer.handed).flatten) := by
  obtain ⟨contents, hoctets, hwf, hcontents⟩ := h
  have hleaves : Leaves times channel (Finishes times codec channel s.writer p) s.writer
      (basicPublish (timedWrite times) codec channel p s.writer) := basicPublish_leaves codec p
  obtain ⟨handed, accepted, content, hhanded, -, hwritten, hcontent, hinit, haccepted,
    hfinishes⟩ := hleaves
  have hstep : (written times [] (s.step times codec channel p).writer.handed).flatten =
      (contents.flatten ++ accepted).flatMap Frame.octets := by
    simp only [Publisher.step]
    rw [hhanded, written_append, List.flatten_append, hoctets, List.nil_append, hwritten,
      List.flatMap_append]
  have hboth : ∀ frame ∈ contents.flatten ++ accepted, frame.WellFormed := by
    intro frame hframe
    obtain hold | hnew := List.mem_append.mp hframe
    · exact hwf frame hold
    · exact haccepted frame hnew
  have hmore : ∀ content' ∈ contents ++ [content], ContentFrames channel content' := by
    intro content' hmem
    obtain hold | hnew := List.mem_append.mp hmem
    · exact hcontents content' hold
    · obtain rfl := List.mem_singleton.mp hnew
      exact hcontent
  rw [hstep]
  constructor
  · refine ⟨_, contents ++ [content], rfl, hboth, hmore, ?_⟩
    simpa using hinit
  · intro h
    obtain rfl | rfl := hfinishes h
    · exact ⟨contents, by simp, hwf, hcontents⟩
    · exact ⟨contents ++ [accepted], by simp, by simpa using hboth, hmore⟩

/-- What is sent of any run of publishes is the first frames of a sequence of complete
contents, when every publish but the last one finishes its content. -/
theorem run_publishes_intact (times : List Octets → Bool) (codec : Codec) (channel : Nat)
    {frameMax : Nat} {w : Writer} (hw : Writer.new frameMax = .ok w) (publishes : List Publish)
    (hfinishes : Run.Along (Publisher.step times codec channel)
      (fun s p => Finishes times codec channel s.writer p) { writer := w } publishes.dropLast) :
    Intact channel (written times []
      (Publisher.run times codec channel { writer := w } publishes).writer.handed).flatten := by
  have hstart : Whole channel (written times [] w.handed).flatten := by
    unfold Writer.new at hw
    split at hw
    · cases hw
    · obtain rfl := Except.ok.inj hw
      exact ⟨[], rfl, by simp, by simp⟩
  have hwhole := Run.invariant
    (I := fun s : Publisher => Whole channel (written times [] s.writer.handed).flatten)
    (fun s p h hcond => (step_intact s p h).2 hcond) hstart hfinishes
  obtain rfl | ⟨earlier, p, rfl⟩ := List.eq_nil_or_concat publishes
  · obtain ⟨contents, hoctets, hwf, hcontents⟩ := hstart
    exact ⟨_, contents, hoctets, hwf, hcontents, List.prefix_rfl⟩
  · rw [List.concat_eq_append, List.dropLast_concat] at hwhole
    rw [List.concat_eq_append, Publisher.run, List.foldl_append]
    exact (step_intact _ p hwhole).1

/-- Behind the first frame of an intact stream comes a header. -/
private theorem intact_second {octets : Octets} (h : Intact channel octets) (hne : octets ≠ []) :
    ∃ first : Frame, first.WellFormed ∧
      (octets = first.octets ∨ ∃ rest, octets = first.octets ++ 2 :: rest) := by
  obtain ⟨frames, contents, rfl, hwf, hcontents, hinit⟩ := h
  cases frames with
  | nil => exact absurd rfl hne
  | cons first frames =>
      refine ⟨first, hwf first (by simp), ?_⟩
      cases frames with
      | nil => exact .inl (by simp)
      | cons second frames =>
          cases contents with
          | nil => simp at hinit
          | cons content contents =>
              obtain ⟨args, properties, bodies, rfl, -⟩ := hcontents content (by simp)
              simp only [List.flatten_cons, List.cons_append] at hinit
              obtain ⟨-, hinit⟩ := List.cons_prefix_cons.mp hinit
              obtain ⟨rfl, -⟩ := List.cons_prefix_cons.mp hinit
              refine .inr ⟨(Frame.mk 2 channel (headerOctets Spec.Basic.publish
                  bodies.flatten.length properties)).octets.tail ++ frames.flatMap Frame.octets, ?_⟩
              simp only [List.flatMap_cons, Frame.octets, Frame.header]
              rw [show BigEndian.encode 1 2 = [2] from rfl]
              simp only [List.cons_append, List.nil_append]
              rfl

end Runs

/-- A body of ten octets in frames of at most 64, published twice; one write times
out, the one that is handed over after `before` others. -/
def publishTwice (before : Nat) : Publisher :=
  Publisher.run (fun handed => handed.length = before + 1) (fun _ _ => .error .lookupError) 1
    { writer := { frameMax := 64, buf := List.replicate 56 0 } }
    [{ msg := { body := .bytes (List.replicate 10 7) } },
      { msg := { body := .bytes (List.replicate 10 7) } }]

/-- The octets `publishTwice` sends. -/
def publishedTwice (before : Nat) : Octets :=
  (written (fun handed => handed.length = before + 1) []
    (publishTwice before).writer.handed).flatten

/-- The header of the first content times out, and the second content follows its method
frame. -/
theorem run_publishes_interrupted :
    (publishTwice 1).results = [.error Channel.publishTimedOut, .ok ()] ∧
      ¬ Intact 1 (publishedTwice 1) := by
  refine ⟨by decide +kernel, fun h => ?_⟩
  have hsize : BigEndian.decode (((publishedTwice 1).drop 3).take 4) = 9 := by decide +kernel
  obtain ⟨first, hwf, hwhole | ⟨rest, hrest⟩⟩ := intact_second h (by decide +kernel)
  · have hfirst := Frame.size_field hwf []
    rw [List.append_nil, ← hwhole, hsize] at hfirst
    have hlength := congrArg List.length hwhole
    rw [Frame.octets_length, ← hfirst] at hlength
    exact absurd hlength (by decide +kernel)
  · have hfirst := Frame.size_field hwf (2 :: rest)
    rw [← hrest, hsize] at hfirst
    have hnext : (publishedTwice 1)[17]? = some 2 := by
      rw [hrest, List.getElem?_append_right (by simp [← hfirst])]
      simp [← hfirst]
    exact absurd hnext (by decide +kernel)

/-- When the last body frame of the second content times out, all before it is intact. -/
theorem run_publishes_intact_two : Intact 1 (publishedTwice 5) := by
  have hnew : Writer.new 64 = .ok { frameMax := 64, buf := List.replicate 56 0 } := rfl
  unfold publishedTwice publishTwice
  refine run_publishes_intact _ _ 1 hnew _ ⟨?_, trivial⟩
  intro args body properties hargs hcontent _
  obtain rfl : [0, 0, 0, 0, 0] = args := Except.ok.inj hargs
  obtain ⟨rfl, rfl⟩ : List.replicate 10 7 = body ∧ [0, 0] = properties :=
    Prod.mk.inj (Except.ok.inj hcontent)
  refine .inr (.inr ⟨by decide, by decide, by decide, ?_, ?_⟩)
  · intro frame hframe
    rcases List.mem_cons.mp hframe with rfl | hframe
    · exact ⟨by decide, by decide, by decide⟩
    rcases List.mem_cons.mp hframe with rfl | hframe
    · exact ⟨by decide, by decide, by decide⟩
    · obtain rfl := List.mem_singleton.mp hframe
      exact ⟨by decide, by decide, by decide⟩
  · intro sent hsent _
    have hlength := hsent.length_le
    have hthree : (publishFrames 1 (64 - 8) [0, 0, 0, 0, 0] [0, 0] (List.replicate 10 7)).length =
        3 := rfl
    simp only [hthree] at hlength
    simp
    omega

end PyAmqp
