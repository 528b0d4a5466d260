import PyAmqp.Transport.ReadFrame

/-!
What a call of `read_frame` leaves behind when `recv` raises. A timeout pushes back all
that was read; an exception that leaves the connection up without being a timeout is
raised as it is, and takes with it what the earlier reads of the frame have returned.
`interruption` says from the input alone which exception stops a call, and after how
many octets.
-/

namespace PyAmqp

namespace Transport

/-! Exceptions -/

/-- `read_frame` takes the exception for a timeout. -/
def TimesOut (cfg : TransportConfig) (e : PyError) : Prop :=
  e = .socketTimeout ∨ (cfg.platform.nt = true ∧ e.errno? = some cfg.platform.ewouldblock) ∨
    e.isSslTimeout = true

/-- The connection stays up, but `read_frame` pushes nothing back. -/
def Drops (cfg : TransportConfig) (e : PyError) : Prop :=
  e.isOSError = true ∧ ¬ TimesOut cfg e ∧
    ∃ errno ∈ cfg.platform.unavail, e.errno? = some errno

instance (cfg : TransportConfig) (e : PyError) : Decidable (TimesOut cfg e) :=
  inferInstanceAs (Decidable (_ ∨ _ ∨ _))

instance (cfg : TransportConfig) (e : PyError) : Decidable (Drops cfg e) :=
  inferInstanceAs (Decidable (_ ∧ _ ∧ _))

/-! Where a call stops -/

/-- The size field of the frame that `content` starts with. -/
def payloadSize (content : Octets) : Nat := BigEndian.decode ((content.drop 3).take 4)

/-- With `held` octets of the frame in, the read under way ends at this many. -/
def boundary (content : Octets) (held : Nat) : Nat :=
  if held < 7 then 7
  else if held < 7 + min (payloadSize content) signedIntMax then
    7 + min (payloadSize content) signedIntMax
  else if held < 7 + payloadSize content then 7 + payloadSize content
  else 8 + payloadSize content

/-- The frame is in. -/
def Whole (content : Octets) (held : Nat) : Prop := 7 ≤ held ∧ 8 + payloadSize content ≤ held

instance (content : Octets) (held : Nat) : Decidable (Whole content held) :=
  inferInstanceAs (Decidable (_ ∧ _))

/-- The exception that stops the reading of a frame, and how many octets of `content` are
in by then; `none` where the frame comes in whole, or the call waits for more. -/
def interruption (cfg : TransportConfig) (content : Octets) :
    List Recv → Nat → Option (PyError × Nat)
  | [], _ => none
  | event :: rest, held =>
      if Whole content held then none
      else
        match event with
        | .piece size =>
            if content.length ≤ held then none
            else interruption cfg content rest
              (held + min (min (size + 1) (boundary content held - held)) (content.length - held))
        | .eof => some (.osError none, held)
        | .raise e =>
            if Retried cfg e then
              if held < 7 ∧ cfg.raiseOnInitialEintr = true then some (.socketTimeout, held)
              else interruption cfg content rest held
            else some (e, held)

theorem interruption_whole {cfg : TransportConfig} {content : Octets} {held : Nat}
    (h : Whole content held) (schedule : List Recv) :
    interruption cfg content schedule held = none := by
  cases schedule with
  | nil => rfl
  | cons event rest => cases event <;> simp only [interruption, if_pos h]

theorem interruption_held {cfg : TransportConfig} {content : Octets} {schedule : List Recv}
    {held k : Nat} {e : PyError} (h : interruption cfg content schedule held = some (e, k))
    (hheld : held ≤ content.length) : held ≤ k ∧ k ≤ content.length := by
  induction schedule generalizing held with
  | nil => simp [interruption] at h
  | cons event rest ih =>
      by_cases hwhole : Whole content held
      · rw [interruption_whole hwhole] at h
        simp at h
      cases event with
      | piece size =>
          simp only [interruption, if_neg hwhole] at h
          split at h
          · simp at h
          · obtain ⟨hle, hlength⟩ := ih h (by omega)
            exact ⟨by omega, hlength⟩
      | eof =>
          simp only [interruption, if_neg hwhole] at h
          obtain ⟨-, rfl⟩ : _ ∧ held = k := by simpa using h
          exact ⟨le_refl _, hheld⟩
      | raise e' =>
          simp only [interruption, if_neg hwhole] at h
          split at h
          · split at h
            · obtain ⟨-, rfl⟩ : _ ∧ held = k := by simpa using h
              exact ⟨le_refl _, hheld⟩
            · exact ih h hheld
          · obtain ⟨-, rfl⟩ : _ ∧ held = k := by simpa using h
            exact ⟨le_refl _, hheld⟩

/-! One read -/

/-- A read of `n` octets after `start` of the frame: it ends where `boundary` says. -/
structure Target (content : Octets) (start n : Nat) (initial : Bool) : Prop where
  boundary : ∀ k, start ≤ k → k < start + n → boundary content k = start + n
  short : ∀ k, k < start + n → ¬ Whole content k
  initial : ∀ k, start ≤ k → k < start + n → (initial = true ↔ k < 7)

/-- The call began with `start` octets of `content` in, has taken `done` of it, and will
stop as `cut` says. -/
structure Reading (cfg : TransportConfig) (content : Octets) (start : Nat)
    (cut : Option (PyError × Nat)) (done buffered : Octets) (t : Transport) : Prop where
  stream : done ++ (t.readBuffer ++ t.unread) = content
  start : start ≤ done.length + t.readBuffer.length
  stops : interruption cfg content t.schedule (done.length + t.readBuffer.length) = cut
  buffered : t.readFrameBuffer = buffered
  connected : t.connected = true

/-- A read has stopped: by the exception that stops the call, with the octets since `done`
in the read buffer, or because nothing more comes. -/
inductive Stopped (content : Octets) (cut : Option (PyError × Nat)) (done buffered : Octets)
    (n : Nat) : PyError → Transport → Prop
  | raised {e : PyError} {k : Nat} {t : Transport} :
      cut = some (e, k) → done ++ t.readBuffer = content.take k → t.unread = content.drop k →
      done.length ≤ k → k < done.length + n → t.readFrameBuffer = buffered →
      t.connected = true → Stopped content cut done buffered n e t
  | blocked {t : Transport} : cut = none → Stopped content cut done buffered n .blocked t

section Reads

variable {cfg : TransportConfig} {content done buffered : Octets} {cut : Option (PyError × Nat)}
  {start n : Nat} {initial : Bool}

theorem recv_reading (htarget : Target content done.length n initial) :
    RecvKeeps cfg n initial (Reading cfg content start cut done buffered)
      (Stopped content cut done buffered n) := by
  rintro t ⟨hcontent, hstart, hcut, hbuffered, hconnected⟩ hlt
  have hwhole := htarget.short (done.length + t.readBuffer.length) (by omega)
  have hboundary := htarget.boundary (done.length + t.readBuffer.length) (by omega) (by omega)
  have hinitial := htarget.initial (done.length + t.readBuffer.length) (by omega) (by omega)
  have htake : done ++ t.readBuffer = content.take (done.length + t.readBuffer.length) := by
    rw [← hcontent, ← List.append_assoc, List.take_left' (List.length_append)]
  have hdrop : t.unread = content.drop (done.length + t.readBuffer.length) := by
    rw [← hcontent, ← List.append_assoc, List.drop_left' (List.length_append)]
  have hlength : content.length = done.length + t.readBuffer.length + t.unread.length := by
    rw [← hcontent]
    simp only [List.length_append]
    omega
  cases hnext : t.schedule with
  | nil =>
      rw [hnext] at hcut
      simp only [recv, hnext]
      rw [if_neg (not_retried_blocked cfg)]
      exact .blocked hcut.symm
  | cons event rest =>
      rw [hnext] at hcut
      cases event with
      | eof =>
          simp only [interruption, if_neg hwhole] at hcut
          simp only [recv, hnext, if_true]
          exact .raised hcut.symm htake hdrop (by omega) (by omega) hbuffered hconnected
      | piece size =>
          simp only [interruption, if_neg hwhole, hboundary] at hcut
          by_cases hempty : t.unread = []
          · rw [if_pos (by rw [hlength, hempty]; simp)] at hcut
            simp only [recv, hnext, if_pos hempty]
            rw [if_neg (not_retried_blocked cfg)]
            exact .blocked hcut.symm
          · have hsome : t.unread.take (min (size + 1) (n - t.readBuffer.length)) ≠ [] := by
              rw [Ne, List.take_eq_nil_iff, not_or]
              exact ⟨by omega, hempty⟩
            have hmore : 0 < t.unread.length := List.length_pos_iff.mpr hempty
            rw [if_neg (by omega)] at hcut
            simp only [recv, hnext, if_neg hempty, if_neg hsome]
            refine ⟨?_, ?_, ?_, hbuffered, hconnected⟩
            · simpa using hcontent
            · simp only [List.length_append]
              omega
            · rw [← hcut]
              congr 1
              simp only [List.length_append, List.length_take]
              omega
      | raise e =>
          simp only [interruption, if_neg hwhole] at hcut
          simp only [recv, hnext]
          by_cases hretry : Retried cfg e
          · rw [if_pos hretry] at hcut ⊢
            by_cases hfirst : initial = true ∧ cfg.raiseOnInitialEintr = true
            · rw [if_pos ⟨hinitial.mp hfirst.1, hfirst.2⟩] at hcut
              rw [if_pos hfirst]
              exact .raised hcut.symm htake hdrop (by omega) (by omega) hbuffered hconnected
            · rw [if_neg (fun h => hfirst ⟨hinitial.mpr h.1, h.2⟩)] at hcut
              rw [if_neg hfirst]
              exact ⟨hcontent, hstart, hcut, hbuffered, hconnected⟩
          · rw [if_neg hretry] at hcut ⊢
            exact .raised hcut.symm htake hdrop (by omega) (by omega) hbuffered hconnected

/-- A read takes the next `n` octets, or stops the call. -/
theorem read_stops (initial : Bool) (htarget : Target content done.length n initial) :
    Effect.Triple (Reading cfg content start cut done buffered) (read cfg n initial)
      (fun octets t => octets.length = n ∧
        Reading cfg content start cut (done ++ octets) buffered t)
      (Stopped content cut done buffered n) := by
  refine (read_keeps (recv_reading htarget)).weaken (fun _ ht => ht) ?_ (fun _ _ h => h)
  rintro octets t ⟨hlength, hstream, hstart, hstops, hbuffered, hconnected⟩
  refine ⟨hlength, ?_, ?_, ?_, hbuffered, hconnected⟩
  · rw [← hstream]
    simp only [List.append_assoc]
  · simp only [List.length_append] at hstart ⊢
    omega
  · rw [← hstops]
    congr 1
    simp only [List.length_append]
    omega

theorem buffer_reading (octets : Octets) {E : PyError → Transport → Prop} :
    Effect.Triple (Reading cfg content start cut done buffered) (buffer octets)
      (fun _ => Reading cfg content start cut done (buffered ++ octets)) E := by
  intro t ht
  exact ⟨ht.stream, ht.start, ht.stops, by simp only [ht.buffered], ht.connected⟩

/-! A frame -/

/-- The reading of a frame is over without the frame. Where an `OSError` has stopped it,
what was read is in the two buffers, and nothing was put aside before the header. -/
inductive BrokenOff (content : Octets) (cut : Option (PyError × Nat)) :
    PyError → Transport → Prop
  | raised {e : PyError} {k : Nat} {t : Transport} :
      cut = some (e, k) → t.readFrameBuffer ++ t.readBuffer = content.take k →
      t.unread = content.drop k → (t.readFrameBuffer = [] ↔ k < 7) → t.connected = true →
      BrokenOff content cut e t
  | other {e : PyError} {k : Nat} {t : Transport} :
      cut = some (e, k) → e.isOSError = false → BrokenOff content cut e t
  | blocked {t : Transport} : cut = none → BrokenOff content cut .blocked t

theorem Stopped.brokenOff {e : PyError} {t : Transport}
    (h : Stopped content cut done done n e t)
    (hstage : (done = [] ∧ n ≤ 7) ∨ 7 ≤ done.length) : BrokenOff content cut e t := by
  cases h with
  | blocked hcut => exact .blocked hcut
  | raised hcut htake hdrop hfrom hto hbuffered hconnected =>
      refine .raised hcut (by rw [hbuffered]; exact htake) hdrop ?_ hconnected
      rw [hbuffered]
      rcases hstage with ⟨rfl, hn⟩ | hdone
      · simp only [List.length_nil] at hto
        exact ⟨fun _ => by omega, fun _ => rfl⟩
      · exact ⟨fun hnil => by simp [hnil] at hdone, fun hk => by omega⟩

theorem target_header (content : Octets) : Target content 0 7 true := by
  constructor
  · intro k _ hk
    rw [boundary, if_pos (by omega)]
  · intro k hk hwhole
    exact absurd hwhole.1 (by omega)
  · intro k _ hk
    exact ⟨fun _ => by omega, fun _ => rfl⟩

/-- Behind the header a read need only end where `boundary` says. -/
theorem target_behind {content : Octets} {start n : Nat} (hstart : 7 ≤ start)
    (hend : start + n ≤ 8 + payloadSize content)
    (hboundary : ∀ k, start ≤ k → k < start + n → boundary content k = start + n) :
    Target content start n false := by
  constructor
  · exact hboundary
  · intro k hk hwhole
    exact absurd hwhole.2 (by omega)
  · intro k hfrom _
    simp only [Bool.false_eq_true, false_iff]
    omega

/-- The payload in one read, or the first part of one in two. -/
theorem target_payload (content : Octets) :
    Target content 7 (min (payloadSize content) signedIntMax) false := by
  generalize hmax : signedIntMax = bound
  apply target_behind (by omega) (by omega)
  intro k hfrom hk
  rw [boundary, hmax, if_neg (by omega), if_pos hk]

theorem target_part2 (content : Octets) (hhuge : signedIntMax < payloadSize content) :
    Target content (7 + signedIntMax) (payloadSize content - signedIntMax) false := by
  generalize hmax : signedIntMax = bound at hhuge
  apply target_behind (by omega) (by omega)
  intro k hfrom hk
  rw [boundary, hmax, if_neg (by omega), if_neg (by omega), if_pos (by omega)]
  omega

theorem target_end (content : Octets) : Target content (7 + payloadSize content) 1 false := by
  generalize hmax : signedIntMax = bound
  apply target_behind (by omega) (by omega)
  intro k hfrom hk
  rw [boundary, hmax, if_neg (by omega), if_neg (by omega), if_neg (by omega)]
  omega

/-- Any seven octets are a header. -/
theorem unpackFrameHeader_size {header : Octets} (hlength : header.length = 7) :
    ∃ frameType channel, unpackFrameHeader header 0 =
        .ok ((frameType, channel, payloadSize header), 7) ∧
      BigEndian.encode 1 frameType ++ BigEndian.encode 2 channel ++
        BigEndian.encode 4 (payloadSize header) = header := by
  have hunpack : ∀ {width : Nat} {octets : Octets}, octets.length = width →
      Cursor.Reads (unpackFrom width) octets (BigEndian.decode octets) := fun h =>
    Cursor.Reads.bind_pure BigEndian.decode (.exactly PyError.structError h)
  have hread : Cursor.Reads unpackFrameHeader
      (header.take 1 ++ ((header.drop 1).take 2 ++ (header.drop 3).take 4))
      (BigEndian.decode (header.take 1), BigEndian.decode ((header.drop 1).take 2),
        payloadSize header) := by
    refine (hunpack (by simp [hlength])).bind ((hunpack (by simp [hlength])).bind ?_)
    exact (hunpack (by simp [hlength])).bind_pure _
  have hparts : header.take 1 ++ ((header.drop 1).take 2 ++ (header.drop 3).take 4) = header := by
    rw [List.take_of_length_le (i := 4) (by simp [hlength]), ← List.drop_drop (i := 2),
      List.take_append_drop, List.take_append_drop]
  rw [hparts] at hread
  have hrun := hread [] []
  simp only [List.nil_append, List.append_nil, List.length_nil, Nat.zero_add, hlength] at hrun
  have hencode : ∀ {width : Nat} {octets : Octets}, octets.length = width →
      BigEndian.encode width (BigEndian.decode octets) = octets := by
    rintro _ octets rfl
    exact BigEndian.encode_decode octets
  refine ⟨_, _, hrun, ?_⟩
  rw [payloadSize, hencode (by simp [hlength]), hencode (by simp [hlength]),
    hencode (by simp [hlength]), List.append_assoc, hparts]

theorem payloadSize_append {header : Octets} (hlength : header.length = 7) (rest : Octets) :
    payloadSize (header ++ rest) = payloadSize header := by
  simp only [payloadSize]
  rw [List.drop_append_of_le_length (by omega), List.take_append_of_le_length (by simp; omega)]

/-- A second part that breaks off leaves the first one put aside. -/
theorem readInParts_stops {n m : Nat} (hdone : 7 ≤ done.length)
    (hpart1 : Target content done.length n false)
    (hpart2 : Target content (done.length + n) m false) :
    Effect.Triple (Reading cfg content start cut done done) (readInParts cfg n m)
      (fun payload t => payload.length = n + m ∧
        Reading cfg content start cut (done ++ payload) done t)
      (BrokenOff content cut) := by
  refine .bind ((read_stops false hpart1).weaken_error fun _ _ h =>
    h.brokenOff (.inr hdone)) fun part1 => ?_
  rintro t ⟨rfl, hreading⟩
  rw [← List.length_append] at hpart2
  have hread := @read_stops cfg content (done ++ part1) done cut start m false hpart2
  refine Effect.Triple.bind (.tryCatch hread fun e => ?_) (fun part2 => ?_) t hreading
  · rintro t' hstopped
    cases hstopped with
    | blocked hcut => exact .blocked hcut
    | raised hcut htake hdrop hfrom hto hbuffered hconnected =>
        by_cases hos : e.isOSError = true
        · simp only [hos, if_true, buffer, Effect.bind_run, Effect.modify_run, Effect.raise_run]
          refine .raised hcut (by rw [hbuffered]; exact htake) hdrop ?_ hconnected
          simp only [List.length_append] at hfrom
          simp only [hbuffered, List.append_eq_nil_iff]
          exact ⟨fun hnil => by simp [hnil.1] at hdone, fun hk => by omega⟩
        · simp only [hos]
          exact .other hcut (by simpa using hos)
  · rintro t' ⟨rfl, hreading'⟩
    exact ⟨by simp, by simpa using hreading'⟩

theorem readPayload_stops {header : Octets} (hlength : header.length = 7) :
    Effect.Triple (Reading cfg content start cut header header)
      (readPayload cfg (payloadSize content))
      (fun payload t => payload.length = payloadSize content ∧
        Reading cfg content start cut (header ++ payload) header t)
      (BrokenOff content cut) := by
  have hpayload := target_payload content
  have hpart2 := target_part2 content
  unfold readPayload
  generalize signedIntMax = bound at hpayload hpart2 ⊢
  rw [← hlength] at hpayload hpart2
  split
  next hhuge =>
    rw [Nat.min_eq_right (by omega)] at hpayload
    refine (readInParts_stops hlength.ge hpayload (hpart2 hhuge)).weaken (fun _ h => h) ?_
      fun _ _ h => h
    rintro payload t ⟨hsize, hreading⟩
    exact ⟨by omega, hreading⟩
  next hsmall =>
    rw [Nat.min_eq_left (by omega)] at hpayload
    exact (read_stops false hpayload).weaken_error fun _ _ h => h.brokenOff (.inr hlength.ge)

/-- A frame was read from the start of `content`. -/
structure Taken (content : Octets) (start : Nat) (cut : Option (PyError × Nat)) (frame : Frame)
    (t : Transport) : Prop where
  whole : cut = none
  stream : ∃ octets : Octets, octets.length = frame.octets.length ∧
    start ≤ octets.length + t.readBuffer.length ∧
    octets ++ (t.readBuffer ++ t.unread) = content
  connected : t.connected = true

/-- The `try` block reads the frame, or stops where `interruption` says. -/
theorem readFrameParts_stops :
    Effect.Triple (Reading cfg content start cut [] []) (readFrameParts cfg)
      (fun parts t => Taken content start cut parts.1 t) (BrokenOff content cut) := by
  refine .bind ((read_stops true (target_header content)).weaken_error fun _ _ h =>
    h.brokenOff (.inl ⟨rfl, Nat.le_refl 7⟩)) fun header => ?_
  rintro t ⟨hlength, hreading⟩
  obtain ⟨frameType, channel, hheader, -⟩ := unpackFrameHeader_size hlength
  have hsize : payloadSize content = payloadSize header := by
    rw [← hreading.stream]
    exact payloadSize_append hlength _
  rw [List.nil_append] at hreading
  refine Effect.Triple.bind (buffer_reading header) (fun _ => ?_) t hreading
  rw [hheader, ← hsize]
  simp only [Effect.liftExcept_ok, pure_bind, List.nil_append]
  refine .bind (readPayload_stops hlength) fun payload => ?_
  rintro t' ⟨hpayload, hreading'⟩
  have htarget := target_end content
  rw [← hlength, ← hpayload, ← List.length_append] at htarget
  refine Effect.Triple.bind (buffer_reading payload) (fun _ => ?_) t' hreading'
  refine .bind ((read_stops false htarget).weaken_error fun _ _ h =>
    h.brokenOff (.inr (by simp; omega))) fun octets => ?_
  rintro t'' ⟨hone, hreading''⟩
  obtain ⟨octet, rfl⟩ := List.length_eq_one_iff.mp hone
  have hwhole : Whole content ((header ++ payload ++ [octet]).length + t''.readBuffer.length) := by
    simp only [Whole, List.length_append, List.length_singleton]
    omega
  have hstops := hreading''.stops
  rw [interruption_whole hwhole] at hstops
  refine ⟨hstops.symm, ⟨_, ?_, hreading''.start, hreading''.stream⟩, hreading''.connected⟩
  simp only [List.length_append, List.length_singleton, Frame.octets_length]
  omega

/-! A call of `read_frame` -/

/-- How a call of `read_frame` ends in an exception, where `cut` stops the reading. -/
inductive Ended (cfg : TransportConfig) (content : Octets) (cut : Option (PyError × Nat)) :
    PyError → Transport → Prop
  | timeout {e : PyError} {k : Nat} {t : Transport} :
      cut = some (e, k) → TimesOut cfg e → t.readBuffer = content.take k →
      t.unread = content.drop k → t.connected = true → Ended cfg content cut .socketTimeout t
  | dropped {e : PyError} {k : Nat} {t : Transport} :
      cut = some (e, k) → Drops cfg e → t.readFrameBuffer ++ t.readBuffer = content.take k →
      t.unread = content.drop k → (t.readFrameBuffer = [] ↔ k < 7) → t.connected = true →
      Ended cfg content cut e t
  | disconnected {e e' : PyError} {k : Nat} {t : Transport} :
      cut = some (e, k) → ¬ Drops cfg e → t.connected = false → Ended cfg content cut e' t
  | other {e : PyError} {t : Transport} :
      (∀ e k, cut = some (e, k) → ¬ Drops cfg e) → e.isOSError = false →
      Ended cfg content cut e t

theorem TimesOut.isOSError {e : PyError} (h : TimesOut cfg e) : e.isOSError = true := by
  rcases h with rfl | ⟨-, herrno⟩ | hssl
  · rfl
  · cases e <;> simp_all [PyError.errno?, PyError.isOSError]
  · cases e <;> simp_all [PyError.isSslTimeout, PyError.isOSError]

theorem onReadError_timesOut {e : PyError} (h : TimesOut cfg e) (t : Transport) :
    onReadError cfg e t =
      (.error .socketTimeout, { t with readBuffer := t.readFrameBuffer ++ t.readBuffer }) := by
  unfold onReadError
  by_cases hsocket : e = .socketTimeout
  · rw [if_pos hsocket, hsocket]
    rfl
  have hother := h.resolve_left hsocket
  rw [if_neg hsocket, if_pos h.isOSError]
  by_cases hwindows : cfg.platform.nt = true ∧ e.errno? = some cfg.platform.ewouldblock
  · rw [if_pos hwindows]
    rfl
  · rw [if_neg hwindows, if_pos (hother.resolve_left hwindows)]
    rfl

theorem onReadError_osError {e : PyError} (h : ¬ TimesOut cfg e) (hos : e.isOSError = true)
    (t : Transport) :
    onReadError cfg e t =
      (.error e, if Drops cfg e then t else { t with connected := false }) := by
  obtain ⟨hsocket, hwindows, hssl⟩ : e ≠ .socketTimeout ∧
      ¬ (cfg.platform.nt = true ∧ e.errno? = some cfg.platform.ewouldblock) ∧
      ¬ e.isSslTimeout = true := by simpa only [TimesOut, not_or] using h
  unfold onReadError
  rw [if_neg hsocket, if_pos hos, if_neg hwindows, if_neg hssl]
  by_cases hunavail : ∃ errno ∈ cfg.platform.unavail, e.errno? = some errno
  · have hdrops : Drops cfg e := ⟨hos, h, hunavail⟩
    rw [if_neg (not_not_intro hunavail)]
    simp only [if_pos hdrops, Effect.raise_run]
  · have hdrops : ¬ Drops cfg e := fun hdrops => hunavail hdrops.2.2
    rw [if_pos hunavail]
    simp only [if_neg hdrops, Effect.bind_run, Effect.modify_run, Effect.raise_run]

theorem onReadError_other {e : PyError} (hos : e.isOSError = false) (t : Transport) :
    onReadError cfg e t = (.error e, t) := by
  unfold onReadError
  rw [if_neg (by rintro rfl; simp [PyError.isOSError] at hos), if_neg (by simp [hos])]
  rfl

theorem onReadError_ends (e : PyError) {Q : Frame × Nat → Transport → Prop} :
    Effect.Triple (BrokenOff content cut e) (onReadError cfg e) Q (Ended cfg content cut) := by
  rintro t (⟨hcut, htake, hdrop, hheader, hconnected⟩ | ⟨hcut, hother⟩ | hcut)
  · by_cases htimeout : TimesOut cfg e
    · rw [onReadError_timesOut htimeout]
      exact .timeout hcut htimeout htake hdrop hconnected
    by_cases hos : e.isOSError = true
    · rw [onReadError_osError htimeout hos]
      by_cases hdrops : Drops cfg e
      · rw [if_pos hdrops]
        exact .dropped hcut hdrops htake hdrop hheader hconnected
      · rw [if_neg hdrops]
        exact .disconnected hcut hdrops rfl
    · have hother : e.isOSError = false := by simpa using hos
      rw [onReadError_other hother]
      refine .other (fun e' k' hcut' hdrops => ?_) hother
      obtain ⟨rfl, -⟩ : e = e' ∧ _ := by simpa [hcut] using hcut'
      exact hos hdrops.1
  · rw [onReadError_other hother]
    refine .other (fun e' k' hcut' hdrops => ?_) hother
    obtain ⟨rfl, -⟩ : e = e' ∧ _ := by simpa [hcut] using hcut'
    simp [hdrops.1] at hother
  · rw [onReadError_other rfl]
    exact .other (fun e' k' hcut' => by simp [hcut] at hcut') rfl

theorem readFrame_ends :
    Effect.Triple (fun t => Reading cfg content start cut [] t.readFrameBuffer t) (readFrame cfg)
      (Taken content start cut) (Ended cfg content cut) := by
  refine .bind (.modify (Q := fun _ => Reading cfg content start cut [] []) fun t ht => ?_) fun _ => ?_
  · exact ⟨ht.stream, ht.start, ht.stops, rfl, ht.connected⟩
  · refine .bind (.tryCatch readFrameParts_stops fun e => onReadError_ends e) ?_
    rintro ⟨frame, frameEnd⟩
    dsimp only
    split
    · exact .pure frame fun t ht => ht
    · refine .raise fun t ht => .other (fun e k hcut => ?_) rfl
      have hnone := ht.whole
      simp [hnone] at hcut

end Reads

/-- What a call has received, that left `t'`. -/
def receivedBy (t t' : Transport) : Octets := t.unread.take (t.unread.length - t'.unread.length)

/-- Calls of `read_frame`, of which each returns a frame, or raises an `OSError` and leaves
the connection up. The octets are what was received since the last frame boundary. -/
inductive Calls (cfg : TransportConfig) (first : Transport) : Transport → Octets → Prop
  | start : Calls cfg first first first.readBuffer
  | frame {t t' : Transport} {received : Octets} {frame : Frame} :
      Calls cfg first t received → readFrame cfg t = (.ok frame, t') →
      Calls cfg first t' ((received ++ receivedBy t t').drop frame.octets.length)
  | survived {t t' : Transport} {received : Octets} {e : PyError} :
      Calls cfg first t received → readFrame cfg t = (.error e, t') → e.isOSError = true →
      t'.connected = true → Calls cfg first t' (received ++ receivedBy t t')

/-- Nothing that was received is lost, where the next call raises and leaves the connection
up. -/
def LosesNothing (cfg : TransportConfig) (t : Transport) (received : Octets) : Prop :=
  ∀ e t', readFrame cfg t = (.error e, t') → e.isOSError = true → t'.connected = true →
    t'.readBuffer = received ++ receivedBy t t'

/-- The exception that stops the next call, if it is one that drops what was read, comes
before the header is in. -/
def StopsEarly (cfg : TransportConfig) (t : Transport) : Prop :=
  ∀ e k, interruption cfg (t.readBuffer ++ t.unread) t.schedule t.readBuffer.length = some (e, k) →
    Drops cfg e → k < 7

section Runs

variable {cfg : TransportConfig} {t t' : Transport}

theorem receivedBy_spec (octets : Octets) (h : octets ++ t'.unread = t.readBuffer ++ t.unread)
    (hlength : t.readBuffer.length ≤ octets.length) :
    t.readBuffer ++ receivedBy t t' = octets := by
  have hlengths := congrArg List.length h
  simp only [List.length_append] at hlengths
  calc
    t.readBuffer ++ receivedBy t t' =
        (t.readBuffer ++ t.unread).take (t.readBuffer.length +
          (t.unread.length - t'.unread.length)) := (List.take_length_add_append ..).symm
    _ = (octets ++ t'.unread).take octets.length := by
        rw [h]
        congr 1
        omega
    _ = octets := List.take_left' rfl

theorem readFrame_connected (hconnected : t.connected = true) :
    Effect.Triple (fun t' => t' = t) (readFrame cfg)
      (Taken (t.readBuffer ++ t.unread) t.readBuffer.length
        (interruption cfg (t.readBuffer ++ t.unread) t.schedule t.readBuffer.length))
      (Ended cfg (t.readBuffer ++ t.unread)
        (interruption cfg (t.readBuffer ++ t.unread) t.schedule t.readBuffer.length)) := by
  refine readFrame_ends.weaken ?_ (fun _ _ h => h) fun _ _ h => h
  rintro _ rfl
  exact ⟨rfl, Nat.le_add_left .., congrArg _ (Nat.zero_add _), rfl, hconnected⟩

theorem receivedBy_take {e : PyError} {k : Nat}
    (hcut : interruption cfg (t.readBuffer ++ t.unread) t.schedule t.readBuffer.length = some (e, k))
    (hdrop : t'.unread = (t.readBuffer ++ t.unread).drop k) :
    t.readBuffer ++ receivedBy t t' = (t.readBuffer ++ t.unread).take k := by
  obtain ⟨hfrom, hto⟩ := interruption_held hcut (by simp)
  refine receivedBy_spec _ ?_ (by rw [List.length_take]; omega)
  rw [hdrop, List.take_append_drop]

theorem losesNothing_iff (hconnected : t.connected = true) :
    LosesNothing cfg t t.readBuffer ↔ StopsEarly cfg t := by
  have hspec := @readFrame_connected cfg t hconnected t rfl
  constructor
  · intro hkeeps e k hcut hdrops
    cases hrun : readFrame cfg t with
    | mk result t' =>
        rw [hrun] at hspec
        cases result with
        | ok frame =>
            have hnone := hspec.whole
            simp [hcut] at hnone
        | error e' =>
            cases hspec with
            | timeout hcut' htimeout =>
                obtain ⟨rfl, rfl⟩ : e = _ ∧ k = _ := by simpa [hcut] using hcut'
                exact absurd htimeout hdrops.2.1
            | dropped hcut' _ htake hdrop hheader hstays =>
                obtain ⟨rfl, rfl⟩ : e = e' ∧ k = _ := by simpa [hcut] using hcut'
                have hbuffer := hkeeps e t' hrun hdrops.1 hstays
                rw [receivedBy_take hcut hdrop, ← htake] at hbuffer
                exact hheader.mp (List.self_eq_append_left.mp hbuffer)
            | disconnected hcut' hother =>
                obtain ⟨rfl, rfl⟩ : e = _ ∧ k = _ := by simpa [hcut] using hcut'
                exact absurd hdrops hother
            | other hother => exact absurd hdrops (hother e k hcut)
  · intro hearly e t' hrun hos hconnected'
    rw [hrun] at hspec
    cases hspec with
    | timeout hcut htimeout htake hdrop => rw [receivedBy_take hcut hdrop, htake]
    | dropped hcut hdrops htake hdrop hheader =>
        have hnone := hheader.mpr (hearly _ _ hcut hdrops)
        rw [receivedBy_take hcut hdrop, ← htake, hnone, List.nil_append]
    | disconnected hcut hdrops hstays => simp [hstays] at hconnected'
    | other hcut hother => simp [hos] at hother

/-- After a frame the read buffer is what was received past its end. -/
theorem readFrame_boundary (hconnected : t.connected = true) {frame : Frame}
    (hrun : readFrame cfg t = (.ok frame, t')) :
    t'.connected = true ∧
      (t.readBuffer ++ receivedBy t t').drop frame.octets.length = t'.readBuffer := by
  have hspec := @readFrame_connected cfg t hconnected t rfl
  rw [hrun] at hspec
  obtain ⟨-, ⟨octets, hlength, hstart, hstream⟩, hconnected'⟩ := hspec
  refine ⟨hconnected', ?_⟩
  rw [receivedBy_spec (octets ++ t'.readBuffer), List.drop_left' hlength]
  · rw [List.append_assoc, hstream]
  · rw [List.length_append]
    exact hstart

/-- While no call loses anything, the read buffer is what was received since the last frame
boundary. -/
theorem Calls.readBuffer {first : Transport} (hconnected : first.connected = true)
    (hkeeps : ∀ t received, Calls cfg first t received → t.connected = true →
      received = t.readBuffer → LosesNothing cfg t received)
    {received : Octets} (h : Calls cfg first t received) :
    t.connected = true ∧ received = t.readBuffer := by
  induction h with
  | start => exact ⟨hconnected, rfl⟩
  | frame hcalls hrun ih =>
      obtain ⟨hstays, rfl⟩ := ih
      exact ⟨(readFrame_boundary hstays hrun).1, (readFrame_boundary hstays hrun).2⟩
  | survived hcalls hrun hos hstays' ih =>
      obtain ⟨hstays, rfl⟩ := ih
      exact ⟨hstays', (hkeeps _ _ hcalls hstays rfl _ _ hrun hos hstays').symm⟩

end Runs

/-- In calls of `read_frame` one after another nothing received is lost, if and only if none
is stopped with the header in by an exception that it neither takes for a timeout nor
disconnects on. -/
theorem readFrame_losesNothing (cfg : TransportConfig) (first : Transport)
    (hconnected : first.connected = true) :
    (∀ t received, Calls cfg first t received → LosesNothing cfg t received) ↔
      ∀ t received, Calls cfg first t received → StopsEarly cfg t := by
  constructor
  · intro hkeeps t received hcalls
    obtain ⟨hstays, rfl⟩ := hcalls.readBuffer hconnected fun t received hcalls _ _ =>
      hkeeps t received hcalls
    exact (losesNothing_iff hstays).mp (hkeeps t _ hcalls)
  · intro hearly t received hcalls
    obtain ⟨hstays, rfl⟩ := hcalls.readBuffer hconnected fun t received hcalls hstays hbuffer =>
      hbuffer ▸ (losesNothing_iff hstays).mpr (hearly t received hcalls)
    exact (losesNothing_iff hstays).mpr (hearly t _ hcalls)

/-- A heartbeat frame, with an `ENOENT` between the header and the frame-end octet. -/
def enoentFrame (kind : TransportKind) : TransportConfig × Transport :=
  ({ platform := ⟨11, 4, 2, 11, false⟩, kind },
    { unread := Frame.octets ⟨8, 0, []⟩
      schedule := [.piece 6, .raise (.osError (some 2)), .piece 0] })

theorem readFrame_losesNothing_heartbeat :
    let (cfg, first) := enoentFrame .ssl
    (∀ t received, Calls cfg first t received → LosesNothing cfg t received) ↔
      ∀ t received, Calls cfg first t received → StopsEarly cfg t :=
  readFrame_losesNothing (enoentFrame .ssl).1 (enoentFrame .ssl).2 rfl

theorem readFrame_losesHeader :
    let (cfg, first) := enoentFrame .tcp
    ¬ ∀ t received, Calls cfg first t received → LosesNothing cfg t received := by
  intro hkeeps
  have hbuffer := hkeeps _ _ .start (.osError (some 2)) _ rfl rfl rfl
  revert hbuffer
  decide

end Transport

end PyAmqp
