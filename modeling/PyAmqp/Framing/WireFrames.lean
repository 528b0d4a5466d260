import PyAmqp.Framing.FastPath
import PyAmqp.Framing.Completeness

/-!
The frames of a content, on either path of the writer: `write_frame` returns exactly if they
can be packed, and hands them over. The slow path has no header for a body that is empty.
-/

namespace PyAmqp

/-- The frames that `write_frame` writes of a content. -/
def wireFrames (frameMax channel : Nat) (sig : MethodSig) (args properties body : Octets) :
    List Frame :=
  if args.length + properties.length + body.length + frameOverhead ≤ frameMax - 8 then
    contentFrames 1 channel sig args properties body
  else if body = [] then [⟨1, channel, methodOctets sig args⟩]
  else
    ⟨1, channel, methodOctets sig args⟩ ::
      ⟨2, channel, headerOctets sig body.length properties⟩ ::
        (chunks (frameMax - 8) body).map (Frame.mk 3 channel)

section Writes

variable {codec : Codec} {channel : Nat} {sig : MethodSig} {args : Text} {content : Message}
  {properties body : Octets} {w w' : Writer}

theorem big_iff (w : Writer) (args properties body : Octets) :
    Big w args properties body ↔
      ¬ args.length + properties.length + body.length + frameOverhead ≤ w.frameMax - 8 := by
  unfold Big Writer.chunkSize frameOverhead
  omega

theorem wireFrames_fast (h : ¬ Big w args.toBytes properties body) :
    wireFrames w.frameMax channel sig args.toBytes properties body =
      contentFrames 1 channel sig args.toBytes properties body := by
  rw [big_iff, not_not] at h
  rw [wireFrames, if_pos h]

theorem wireFrames_slow (h : Big w args.toBytes properties body) :
    wireFrames w.frameMax channel sig args.toBytes properties body =
      ⟨1, channel, methodOctets sig args.toBytes⟩ ::
        if body = [] then []
        else ⟨2, channel, headerOctets sig body.length properties⟩ ::
          (chunks (w.frameMax - 8) body).map (Frame.mk 3 channel) := by
  rw [big_iff] at h
  rw [wireFrames, if_neg h]
  split <;> rfl

/-- A call that returns has handed the frames over. -/
theorem writeFrame_sends {transport : TransportWrite} (hmin : 16 ≤ w.frameMax)
    (hcontent : contentOctets codec content = .ok (body, properties))
    (hrun : writeFrame transport codec 1 channel (some sig) (some args) (some content) w =
      (.ok (), w')) :
    let frames := wireFrames w.frameMax channel sig args.toBytes properties body
    body.length < 2 ^ 64 ∧ (∀ frame ∈ frames, frame.WellFormed) ∧
      ∃ handed, w'.handed = w.handed ++ handed ∧ handed.flatten = frames.flatMap Frame.octets := by
  obtain ⟨frames, handed, hhanded, hflatten, hwf, hpath⟩ :=
    writeFrame_handed (by omega) hcontent hrun
  by_cases hbig : Big w args.toBytes properties body
  · rw [if_pos hbig] at hpath
    obtain ⟨-, -, hlength, rfl⟩ := slowFrames_eq_ok hpath
    rw [wireFrames_slow hbig]
    exact ⟨hlength, hwf, handed, hhanded, hflatten⟩
  · rw [if_neg hbig] at hpath
    obtain ⟨hlength, rfl⟩ := fastFrames_eq_ok hpath
    rw [wireFrames_fast hbig]
    exact ⟨hlength, hwf, handed, hhanded, hflatten⟩

/-- Frames that can be packed are handed over to a transport that takes them. -/
theorem writeFrame_returns {transport : TransportWrite}
    (htransport : ∀ handed, transport handed = .ok ()) (hmin : 16 ≤ w.frameMax)
    (h1 : sig.1 < 2 ^ 16) (h2 : sig.2 < 2 ^ 16)
    (hcontent : contentOctets codec content = .ok (body, properties))
    (hlength : body.length < 2 ^ 64)
    (hwf : ∀ frame ∈ wireFrames w.frameMax channel sig args.toBytes properties body,
      frame.WellFormed) :
    ∃ w', writeFrame transport codec 1 channel (some sig) (some args) (some content) w =
      (.ok (), w') := by
  by_cases hbig : Big w args.toBytes properties body
  · have hframes : slowFrames 1 channel (some sig) (some args.toBytes) properties body
        (w.frameMax - 8) = .ok (wireFrames w.frameMax channel sig args.toBytes properties body) := by
      rw [wireFrames_slow hbig]
      by_cases hbody : body = []
      · simp [slowFrames, methodPayload_ok h1 h2, hbody, pure, Except.pure]
      · rw [slowFrames_ok h1 h2 hlength hbody, if_neg hbody]
    exact ⟨_, writeFrame_slow_ok htransport args hcontent hbig (by omega) hframes hwf⟩
  · rw [wireFrames_fast hbig] at hwf
    have hchannel := (hwf _ (.head _)).channel
    have hfit : FieldsFit 1 channel sig := ⟨by decide, hchannel, h1, fun _ => h2⟩
    have hframes := fastFrames_contentFrames hfit hlength args.toBytes properties
    obtain ⟨buf, -, hrun⟩ := writeFrame_fast_ok htransport args hcontent hbig hframes
      ⟨hwf, contentFrames_room hbig⟩
    exact ⟨_, hrun⟩

end Writes

end PyAmqp
