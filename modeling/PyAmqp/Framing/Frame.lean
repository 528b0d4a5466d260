import PyAmqp.Serialization.Fields

/-! Frames: type, channel, size, payload and the frame-end octet. -/

namespace PyAmqp

structure Frame where
  frameType : Nat
  channel : Nat
  payload : Octets
  deriving DecidableEq, Repr

/-- `pack('>BHI%dsB' % framelen, type_, channel, framelen, frame, 0xce)` -/
def packFrame (frameType channel : Nat) (payload : Octets) : Except PyError Octets := do
  let typeOctet ← pack 1 frameType
  let channelOctets ← pack 2 channel
  let size ← pack 4 payload.length
  return typeOctet ++ channelOctets ++ size ++ payload ++ [0xce]

namespace Frame

/-- The fields fit the widths a frame has for them. -/
structure WellFormed (frame : Frame) : Prop where
  frameType : frame.frameType < 2 ^ 8
  channel : frame.channel < 2 ^ 16
  payload : frame.payload.length < 2 ^ 32

/-- The seven octets before the payload. -/
def header (frame : Frame) : Octets :=
  BigEndian.encode 1 frame.frameType ++ BigEndian.encode 2 frame.channel ++
    BigEndian.encode 4 frame.payload.length

def octets (frame : Frame) : Octets := frame.header ++ frame.payload ++ [0xce]

@[simp] theorem header_length (frame : Frame) : frame.header.length = 7 := by
  simp [header]

@[simp] theorem octets_length (frame : Frame) :
    frame.octets.length = frame.payload.length + 8 := by
  simp [octets]
  omega

theorem length_le_octets (frames : List Frame) :
    frames.length ≤ (frames.flatMap octets).length := by
  induction frames with
  | nil => exact Nat.zero_le _
  | cons frame frames ih =>
      simp only [List.flatMap_cons, List.length_append, List.length_cons, octets_length]
      omega

/-- The size field says where a frame ends. -/
theorem size_field {frame : Frame} (h : frame.WellFormed) (rest : Octets) :
    BigEndian.decode (((frame.octets ++ rest).drop 3).take 4) = frame.payload.length := by
  have hstart : (frame.octets ++ rest).drop 3 =
      BigEndian.encode 4 frame.payload.length ++ (frame.payload ++ [0xce] ++ rest) := by
    simp [octets, header, List.drop_append]
  rw [hstart, List.take_left' (BigEndian.encode_length 4 _), BigEndian.decode_encode]
  exact h.payload

theorem header_fields {frame : Frame} (h : frame.WellFormed) (rest : Octets) :
    BigEndian.decode ((frame.octets ++ rest).take 1) = frame.frameType ∧
      BigEndian.decode (((frame.octets ++ rest).drop 1).take 2) = frame.channel := by
  have hstart : frame.octets ++ rest = BigEndian.encode 1 frame.frameType ++
      (BigEndian.encode 2 frame.channel ++
        (BigEndian.encode 4 frame.payload.length ++ (frame.payload ++ [0xce] ++ rest))) := by
    simp [octets, header]
  rw [hstart, List.take_left' (BigEndian.encode_length 1 _),
    List.drop_left' (BigEndian.encode_length 1 _), List.take_left' (BigEndian.encode_length 2 _)]
  exact ⟨BigEndian.decode_encode 1 _ h.frameType, BigEndian.decode_encode 2 _ h.channel⟩

/-- Where a frame comes first, no other frame does. -/
theorem octets_append_inj {frame frame' : Frame} (h : frame.WellFormed) (h' : frame'.WellFormed)
    {rest rest' : Octets} (heq : frame.octets ++ rest = frame'.octets ++ rest') :
    frame = frame' ∧ rest = rest' := by
  have hsize : frame.payload.length = frame'.payload.length := by
    rw [← size_field h rest, heq, size_field h' rest']
  obtain ⟨hoctets, hrest⟩ := List.append_inj heq (by simp [hsize])
  have htype := (header_fields h []).1
  have hchannel := (header_fields h []).2
  rw [hoctets, (header_fields h' []).1] at htype
  rw [hoctets, (header_fields h' []).2] at hchannel
  simp only [octets, List.append_assoc] at hoctets
  have hpayload := (List.append_inj (List.append_inj hoctets (by simp)).2 hsize).1
  obtain ⟨frameType, channel, payload⟩ := frame
  simp only at htype hchannel hpayload
  subst htype hchannel hpayload
  exact ⟨rfl, hrest⟩

/-- What the octets of some frames start with, if it is frames, is the first of these. -/
theorem prefix_of_octets {frames batch : List Frame} (hframes : ∀ frame ∈ frames, frame.WellFormed)
    (hbatch : ∀ frame ∈ batch, frame.WellFormed)
    (h : frames.flatMap octets <+: batch.flatMap octets) : frames <+: batch := by
  induction frames generalizing batch with
  | nil => exact List.nil_prefix
  | cons frame frames ih =>
      obtain ⟨rest, heq⟩ := h
      cases batch with
      | nil =>
          have hlength := congrArg List.length heq
          simp only [List.flatMap_cons, List.flatMap_nil, List.length_append, octets_length,
            List.length_nil] at hlength
          omega
      | cons frame' batch =>
          simp only [List.flatMap_cons, List.append_assoc] at heq
          obtain ⟨rfl, htail⟩ := octets_append_inj (hframes frame List.mem_cons_self)
            (hbatch frame' List.mem_cons_self) heq
          rw [List.prefix_cons_inj]
          apply ih
          · exact fun f hf => hframes f (List.mem_cons_of_mem _ hf)
          · exact fun f hf => hbatch f (List.mem_cons_of_mem _ hf)
          · exact ⟨rest, htail⟩

end Frame

/-- A frame is packed when its fields fit, and then to its octets. -/
theorem packFrame_ok {frame : Frame} (h : frame.WellFormed) :
    packFrame frame.frameType frame.channel frame.payload = .ok frame.octets := by
  have hchannel := pack_nat 2 h.channel
  have hsize := pack_nat 4 h.payload
  have htype := pack_nat 1 h.frameType
  simp [packFrame, htype, hchannel, hsize, Frame.octets, Frame.header]

theorem packFrame_eq_ok {frameType channel : Nat} {payload octets : Octets}
    (h : packFrame frameType channel payload = .ok octets) :
    (Frame.mk frameType channel payload).WellFormed ∧
      octets = (Frame.mk frameType channel payload).octets := by
  unfold packFrame at h
  cases htype : pack 1 (frameType : Int) with
  | error e => simp [htype] at h
  | ok typeOctet =>
      cases hchannel : pack 2 (channel : Int) with
      | error e => simp [htype, hchannel] at h
      | ok channelOctets =>
          cases hsize : pack 4 (payload.length : Int) with
          | error e => simp [htype, hchannel, hsize] at h
          | ok size =>
              simp only [htype, hchannel, hsize, ok_bind] at h
              obtain ⟨ht, rfl⟩ := pack_nat_ok htype
              obtain ⟨hc, rfl⟩ := pack_nat_ok hchannel
              obtain ⟨hs, rfl⟩ := pack_nat_ok hsize
              refine ⟨⟨ht, hc, hs⟩, ?_⟩
              simpa [Frame.octets, Frame.header] using (Except.ok.inj h).symm

end PyAmqp
