import PyAmqp.Framing.WriterSpec

/-!
Contents on the wire: a method frame, a header frame with the length of the body, and
body frames that carry the body. The fast path writes them all; the slow path leaves
the header out when the body is empty.
-/

namespace PyAmqp

/-- The octets of one complete content. -/
def CompleteContent (frameMax channel : Nat) (sig : MethodSig)
    (args properties body octets : Octets) : Prop :=
  ∃ bodies : List Octets,
    octets = (Frame.mk 1 channel (methodOctets sig args)).octets ++
      (Frame.mk 2 channel (headerOctets sig body.length properties)).octets ++
        bodies.flatMap (fun piece => (Frame.mk 3 channel piece).octets) ∧
    bodies.flatten = body ∧ ∀ piece ∈ bodies, piece ≠ [] ∧ piece.length ≤ frameMax - 8

/-- Whatever the transport does: when `write_frame` returns, what it handed over is one
complete content. -/
def CompleteOnReturn (codec : Codec) (channel : Nat) (sig : MethodSig) (args : Text)
    (content : Message) (w : Writer) : Prop :=
  ∀ transport w',
    writeFrame transport codec 1 channel (some sig) (some args) (some content) w =
        (.ok (), w') →
      ∃ body properties handed, contentOctets codec content = .ok (body, properties) ∧
        w'.handed = w.handed ++ handed ∧
        CompleteContent w.frameMax channel sig args.toBytes properties body handed.flatten

/-- The method frame can be packed. -/
def MethodFits (channel : Nat) (sig : MethodSig) (args : Octets) : Prop :=
  sig.1 < 2 ^ 16 ∧ sig.2 < 2 ^ 16 ∧ (Frame.mk 1 channel (methodOctets sig args)).WellFormed

section Paths

variable {channel : Nat} {sig : MethodSig} {args properties body : Octets} {frames : List Frame}

theorem fastFrames_eq_ok (h : fastFrames 1 channel (some sig) (some args)
      (some (properties, body)) = .ok frames) :
    body.length < 2 ^ 64 ∧ frames = ⟨1, channel, methodOctets sig args⟩ ::
      ⟨2, channel, headerOctets sig body.length properties⟩ ::
        (if body = [] then [] else [⟨3, channel, body⟩]) := by
  unfold fastFrames at h
  cases hmethod : methodPayload 1 (some sig) (some args) with
  | error e => simp [hmethod] at h
  | ok method =>
      obtain ⟨-, -, rfl⟩ := methodPayload_eq_ok hmethod
      cases hheader : headerPayload (some sig) body.length properties with
      | error e => simp [hmethod, hheader] at h
      | ok header =>
          obtain ⟨hlength, rfl⟩ := headerPayload_eq_ok hheader
          exact ⟨hlength, by simpa [hmethod, hheader, pure, Except.pure, eq_comm] using h⟩

theorem slowFrames_eq_ok {chunkSize : Nat} (h : slowFrames 1 channel (some sig) (some args)
      properties body chunkSize = .ok frames) :
    sig.1 < 2 ^ 16 ∧ sig.2 < 2 ^ 16 ∧ body.length < 2 ^ 64 ∧
      frames = ⟨1, channel, methodOctets sig args⟩ ::
        (if body = [] then []
          else ⟨2, channel, headerOctets sig body.length properties⟩ ::
            (chunks chunkSize body).map (Frame.mk 3 channel)) := by
  unfold slowFrames at h
  cases hmethod : methodPayload 1 (some sig) (some args) with
  | error e => simp [hmethod] at h
  | ok method =>
      obtain ⟨h1, h2, rfl⟩ := methodPayload_eq_ok hmethod
      refine ⟨h1, h2, ?_⟩
      simp only [hmethod, ok_bind] at h
      by_cases hbody : body = []
      · exact ⟨by simp [hbody], by simpa [hbody, pure, Except.pure, eq_comm] using h⟩
      · cases hheader : headerPayload (some sig) body.length properties with
        | error e => simp [hbody, hheader] at h
        | ok header =>
            obtain ⟨hlength, rfl⟩ := headerPayload_eq_ok hheader
            exact ⟨hlength, by simpa [hbody, hheader, pure, Except.pure, eq_comm] using h⟩

/-- What the fast path hands over is a complete content. -/
private theorem complete_fast {w : Writer} (hsmall : ¬ Big w args properties body) :
    CompleteContent w.frameMax channel sig args properties body
      (List.flatMap Frame.octets (⟨1, channel, methodOctets sig args⟩ ::
        ⟨2, channel, headerOctets sig body.length properties⟩ ::
          (if body = [] then [] else [⟨3, channel, body⟩]))) := by
  refine ⟨if body = [] then [] else [body], ?_, ?_, ?_⟩
  · split <;> simp
  · split <;> simp_all
  · intro piece hpiece
    unfold Big frameOverhead Writer.chunkSize at hsmall
    split at hpiece
    next => simp at hpiece
    next hbody =>
      obtain rfl := List.mem_singleton.mp hpiece
      exact ⟨hbody, by omega⟩

/-- So is what the slow path hands over for a body that is not empty. -/
private theorem complete_slow {frameMax : Nat} (hmax : 8 < frameMax) (hbody : body ≠ []) :
    CompleteContent frameMax channel sig args properties body
      (List.flatMap Frame.octets (⟨1, channel, methodOctets sig args⟩ ::
        (if body = [] then []
          else ⟨2, channel, headerOctets sig body.length properties⟩ ::
            (chunks (frameMax - 8) body).map (Frame.mk 3 channel)))) := by
  refine ⟨chunks (frameMax - 8) body, ?_, Chunks.flatten (by omega) body, ?_⟩
  · simp [hbody, List.flatMap_map]
  · intro piece hpiece
    exact ⟨Chunks.ne_nil (by omega) hpiece, Chunks.length_le hpiece⟩

/-- A method frame alone is no content. -/
private theorem incomplete_slow {frameMax : Nat} :
    ¬ CompleteContent frameMax channel sig args properties []
      (Frame.mk 1 channel (methodOctets sig args)).octets := by
  rintro ⟨bodies, h, -⟩
  have hlength := congrArg List.length h
  simp only [List.length_append, Frame.octets_length] at hlength
  omega

end Paths

/-- An empty body on the slow path: the method frame is all that is written. -/
private theorem writeFrame_slow_empty {codec : Codec} {channel : Nat} {sig : MethodSig}
    {args : Text} {content : Message} {properties : Octets} {w : Writer}
    (hcontent : contentOctets codec content = .ok ([], properties))
    (hbig : Big w args.toBytes properties []) (hfits : MethodFits channel sig args.toBytes) :
    ¬ CompleteOnReturn codec channel sig args content w := by
  intro hcomplete
  obtain ⟨h1, h2, hwf⟩ := hfits
  have hslow : writeSlow (fun _ => .ok ()) 1 channel (some sig) (some args.toBytes) properties []
      w.chunkSize w = (.ok (), { w with
        handed := w.handed ++ [(Frame.mk 1 channel (methodOctets sig args.toBytes)).octets] }) := by
    have heach := writeEach_ok (fun _ => .ok ()) (fun _ => rfl)
      [⟨1, channel, methodOctets sig args.toBytes⟩] (by simpa using hwf) w
    simp only [writeEach, Effect.forEach, bind_pure_unit] at heach
    rw [writeSlow, methodPayload_ok h1 h2]
    simpa using heach
  have hrun := writeFrame_content (fun _ => .ok ()) 1 channel (some sig) args w hcontent
  rw [if_pos hbig, Effect.bind_ok _ hslow] at hrun
  obtain ⟨body, properties', handed, hcontent', hhanded, hoctets⟩ := hcomplete _ _ hrun
  obtain ⟨rfl, rfl⟩ : [] = body ∧ properties = properties' := by
    simpa [hcontent] using hcontent'
  simp only [List.append_cancel_left_eq] at hhanded
  rw [← hhanded, List.flatten_singleton] at hoctets
  exact incomplete_slow hoctets

/-- What a call that returned handed over, when the slow path had a body to write or
the content took the fast path. -/
private theorem writeFrame_complete {codec : Codec} {channel : Nat} {sig : MethodSig}
    {args : Text} {content : Message} {body properties : Octets} {w w' : Writer}
    {transport : TransportWrite} (hmax : 16 ≤ w.frameMax)
    (hcontent : contentOctets codec content = .ok (body, properties))
    (hcond : body ≠ [] ∨ ¬ Big w args.toBytes properties body ∨
      ¬ MethodFits channel sig args.toBytes)
    (hrun : writeFrame transport codec 1 channel (some sig) (some args) (some content) w =
      (.ok (), w')) :
    ∃ handed, w'.handed = w.handed ++ handed ∧
      CompleteContent w.frameMax channel sig args.toBytes properties body handed.flatten := by
  obtain ⟨frames, handed, hhanded, hflatten, hwf, hpath⟩ :=
    writeFrame_handed (by omega) hcontent hrun
  refine ⟨handed, hhanded, ?_⟩
  rw [hflatten]
  by_cases hbig : Big w args.toBytes properties body
  · rw [if_pos hbig] at hpath
    obtain ⟨h1, h2, -, rfl⟩ := slowFrames_eq_ok hpath
    have hmethod : MethodFits channel sig args.toBytes := ⟨h1, h2, hwf _ (.head _)⟩
    have hbody : body ≠ [] := by
      rcases hcond with h | h | h
      · exact h
      · exact absurd hbig h
      · exact absurd hmethod h
    exact complete_slow (by omega) hbody
  · rw [if_neg hbig] at hpath
    rw [(fastFrames_eq_ok hpath).2]
    exact complete_fast hbig

/-- A `write_frame` that returns has handed over one complete content, unless the body
is empty, its properties and arguments do not fit a chunk, and the method frame can be
packed. -/
theorem writeFrame_complete_iff (codec : Codec) (channel : Nat) (sig : MethodSig) (args : Text)
    (content : Message) (w : Writer) (hmax : 16 ≤ w.frameMax) :
    CompleteOnReturn codec channel sig args content w ↔
      ∀ body properties, contentOctets codec content = .ok (body, properties) →
        body ≠ [] ∨
          args.toBytes.length + properties.length + frameOverhead ≤ w.frameMax - 8 ∨
          ¬ MethodFits channel sig args.toBytes := by
  have hsize : ∀ properties, ¬ Big w args.toBytes properties [] ↔
      args.toBytes.length + properties.length + frameOverhead ≤ w.frameMax - 8 := by
    intro properties
    simp only [Big, Writer.chunkSize, List.length_nil]
    omega
  constructor
  · intro hcomplete body properties hcontent
    by_contra hcond
    obtain ⟨hbody, hbig, hfits⟩ :
        body = [] ∧ Big w args.toBytes properties [] ∧ MethodFits channel sig args.toBytes := by
      rw [← hsize] at hcond
      tauto
    subst hbody
    exact writeFrame_slow_empty hcontent hbig hfits hcomplete
  · intro hcond transport w' hrun
    cases hcontent : contentOctets codec content with
    | error e =>
        rw [writeFrame_content_error transport 1 channel (some sig) (some args) w hcontent] at hrun
        simp at hrun
    | ok value =>
        obtain ⟨body, properties⟩ := value
        have hcase : body ≠ [] ∨ ¬ Big w args.toBytes properties body ∨
            ¬ MethodFits channel sig args.toBytes := by
          by_cases hbody : body = []
          · subst hbody
            rw [hsize]
            simpa using hcond [] properties hcontent
          · exact .inl hbody
        obtain ⟨handed, hhanded, hoctets⟩ := writeFrame_complete hmax hcontent hcase hrun
        exact ⟨body, properties, handed, rfl, hhanded, hoctets⟩

/-- An empty body behind properties of 23 octets, in frames of at most 64. -/
theorem writeFrame_headerless :
    ¬ CompleteOnReturn (fun _ _ => .error .lookupError) 1 Spec.Basic.publish (.str [])
      { properties := [("content_type", .str (List.replicate 20 (Utf8.point 120)))]
        body := .bytes [] }
      { frameMax := 64, buf := List.replicate 56 0 } := by
  have hcontent : contentOctets (fun _ _ => .error .lookupError)
      { properties := [("content_type", .str (List.replicate 20 (Utf8.point 120)))]
        body := .bytes [] } = .ok ([], 0x80 :: 0 :: 20 :: List.replicate 20 120) := rfl
  have hfits : MethodFits 1 Spec.Basic.publish (Text.str []).toBytes :=
    ⟨by decide, by decide, by decide, by decide, by decide⟩
  exact writeFrame_slow_empty hcontent (by decide) hfits

theorem writeFrame_complete_iff_one :
    CompleteOnReturn (fun _ _ => .error .lookupError) 1 Spec.Basic.publish (.str [])
        { body := .bytes [7] } { frameMax := 64, buf := List.replicate 56 0 } ↔
      ∀ body properties,
        contentOctets (fun _ _ => .error .lookupError) { body := .bytes [7] } =
            .ok (body, properties) →
          body ≠ [] ∨ (Text.str []).toBytes.length + properties.length + frameOverhead ≤ 64 - 8 ∨
            ¬ MethodFits 1 Spec.Basic.publish (Text.str []).toBytes :=
  writeFrame_complete_iff _ _ _ _ _ _ (by decide)

end PyAmqp
