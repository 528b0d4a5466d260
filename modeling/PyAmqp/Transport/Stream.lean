import PyAmqp.Transport.ReadFrame

/-!
Frames from a stream, however `recv` cuts it up and wherever it times out. Between
two calls of `read_frame` the read buffer with what the peer has sent since is the
stream after the frames returned so far; a timeout pushes back what was read.
-/

namespace PyAmqp

namespace Transport

/-- What `recv` may do on this kind of transport: return a piece, time out, or raise one
of the errors a read survives. -/
def Survivable (cfg : TransportConfig) : Recv → Prop
  | .piece _ => True
  | .eof => False
  | .raise e =>
      e = .socketTimeout ∨ e = .osError (some cfg.platform.eagain) ∨
        e = .osError (some cfg.platform.eintr) ∨
        (cfg.kind = .ssl ∧ (e = .osError (some cfg.platform.enoent) ∨
          ∃ errno, e = .sslError errno true))

/-- How many calls of `recv` return octets. -/
def pieces (schedule : List Recv) : Nat :=
  schedule.countP fun
    | .piece _ => true
    | _ => false

@[simp] theorem pieces_nil : pieces [] = 0 := rfl

@[simp] theorem pieces_piece (size : Nat) (rest : List Recv) :
    pieces (.piece size :: rest) = pieces rest + 1 := by
  simp [pieces]

@[simp] theorem pieces_raise (e : PyError) (rest : List Recv) :
    pieces (.raise e :: rest) = pieces rest := by
  simp [pieces]

@[simp] theorem pieces_replicate (count size : Nat) :
    pieces (List.replicate count (.piece size)) = count := by
  induction count with
  | zero => rfl
  | succ count ih => rw [List.replicate_succ, pieces_piece, ih]

def IsTimeout (e : PyError) : Prop := e = .socketTimeout ∨ ∃ errno, e = .sslError errno true

/-- What `_read` does not try again is a timeout. -/
theorem Survivable.timeout {cfg : TransportConfig} {e : PyError}
    (h : Survivable cfg (.raise e)) (hretry : ¬ Retried cfg e) : IsTimeout e := by
  obtain rfl | rfl | rfl | ⟨hssl, rfl | hssltimeout⟩ := h
  · exact .inl rfl
  · refine absurd ⟨rfl, cfg.platform.eagain, ?_, rfl⟩ hretry
    cases cfg.kind <;> simp [TransportKind.errnos]
  · refine absurd ⟨rfl, cfg.platform.eintr, ?_, rfl⟩ hretry
    cases cfg.kind <;> simp [TransportKind.errnos]
  · refine absurd ⟨rfl, cfg.platform.enoent, ?_, rfl⟩ hretry
    simp [hssl, TransportKind.errnos]
  · exact .inr hssltimeout

/-- At most `left` calls of `recv` are scheduled, and they leave at most `short` octets
unread. -/
structure Scheduled (cfg : TransportConfig) (short left : Nat) (t : Transport) : Prop where
  schedule : t.schedule.length ≤ left
  survivable : ∀ event ∈ t.schedule, Survivable cfg event
  pieces : t.unread.length ≤ pieces t.schedule + short

/-- The read buffer and the unread octets are `content`. -/
structure Streams (cfg : TransportConfig) (short left : Nat) (content : Octets)
    (t : Transport) : Prop extends Scheduled cfg short left t where
  content : t.readBuffer ++ t.unread = content

/-- A call of `read_frame` has put `buffered` aside, with `content` still to be read. -/
structure Holds (cfg : TransportConfig) (short left : Nat) (content buffered : Octets)
    (t : Transport) : Prop extends Streams cfg short left content t where
  buffered : t.readFrameBuffer = buffered

/-- How a read of `n` octets can end without them: it timed out and the octets are
still there, or it waits for more than `recv` is scheduled to return. -/
inductive Missed (cfg : TransportConfig) (short left : Nat) (content buffered : Octets)
    (n : Nat) : PyError → Transport → Prop
  | timeout {e : PyError} {t : Transport} :
      IsTimeout e → t.schedule.length < left → Holds cfg short left content buffered t →
      Missed cfg short left content buffered n e t
  | blocked {t : Transport} :
      t.readBuffer.length < n → t.unread.length ≤ short →
      Holds cfg short left content buffered t →
      Missed cfg short left content buffered n .blocked t

section Reads

variable {cfg : TransportConfig} {short left : Nat} {content buffered : Octets}

theorem Scheduled.next {t : Transport} {event : Recv} {rest : List Recv}
    (h : Scheduled cfg short left t) (hnext : t.schedule = event :: rest) :
    Survivable cfg event ∧ rest.length < left ∧ (∀ e ∈ rest, Survivable cfg e) ∧
      t.unread.length ≤ Transport.pieces (event :: rest) + short := by
  obtain ⟨hschedule, hsurvivable, hpieces⟩ := h
  rw [hnext] at hschedule hsurvivable hpieces
  rw [List.length_cons] at hschedule
  exact ⟨hsurvivable event (by simp), by omega, fun e he => hsurvivable e (by simp [he]), hpieces⟩

/-- What a call of `recv` leaves is still the stream. -/
theorem recv_holds (n : Nat) (initial : Bool) :
    RecvKeeps cfg n initial (Holds cfg short left content buffered)
      (Missed cfg short left content buffered n) := by
  rintro t ⟨⟨hscheduled, hcontent⟩, hbuffered⟩ hlt
  cases hnext : t.schedule with
  | nil =>
      have hunread := hscheduled.pieces
      simp only [hnext, pieces_nil, Nat.zero_add] at hunread
      simp only [recv, hnext]
      rw [if_neg (not_retried_blocked cfg)]
      exact .blocked hlt hunread ⟨⟨hscheduled, hcontent⟩, hbuffered⟩
  | cons event rest =>
      obtain ⟨hevent, hrest, htail, hunread⟩ := hscheduled.next hnext
      cases event with
      | eof => exact hevent.elim
      | piece size =>
          by_cases hempty : t.unread = []
          · simp only [recv, hnext, if_pos hempty]
            rw [if_neg (not_retried_blocked cfg)]
            exact .blocked hlt (by simp [hempty]) ⟨⟨hscheduled, hcontent⟩, hbuffered⟩
          · have hsome : t.unread.take (min (size + 1) (n - t.readBuffer.length)) ≠ [] := by
              rw [Ne, List.take_eq_nil_iff, not_or]
              exact ⟨by omega, hempty⟩
            simp only [recv, hnext, if_neg hempty, if_neg hsome]
            refine ⟨⟨⟨hrest.le, htail, ?_⟩, ?_⟩, hbuffered⟩
            · rw [pieces_piece] at hunread
              simp only [List.length_drop]
              omega
            · simpa using hcontent
      | raise e =>
          rw [pieces_raise] at hunread
          have hkept : Holds cfg short left content buffered { t with schedule := rest } :=
            ⟨⟨⟨hrest.le, htail, hunread⟩, hcontent⟩, hbuffered⟩
          simp only [recv, hnext]
          by_cases hretry : Retried cfg e
          · rw [if_pos hretry]
            split
            · exact .timeout (.inl rfl) hrest hkept
            · exact hkept
          · rw [if_neg hretry]
            exact .timeout (hevent.timeout hretry) hrest hkept

/-- A read returns the next `n` octets, or it misses them and none is gone. -/
theorem read_spec (n : Nat) (initial : Bool) :
    Effect.Triple (Holds cfg short left content buffered) (read cfg n initial)
      (fun octets t => octets.length = n ∧
        ∃ rest, content = octets ++ rest ∧ Holds cfg short left rest buffered t)
      (Missed cfg short left content buffered n) := by
  refine (read_keeps (recv_holds n initial)).weaken (fun _ ht => ht) ?_ (fun _ _ h => h)
  rintro octets t ⟨hlength, ⟨⟨hscheduled, hcontent⟩, hbuffered⟩⟩
  refine ⟨hlength, t.readBuffer ++ t.unread, ?_, ?_⟩
  · rw [← hcontent, List.append_assoc]
  · exact ⟨⟨⟨hscheduled.schedule, hscheduled.survivable, hscheduled.pieces⟩, rfl⟩, hbuffered⟩

/-- A read of octets that come next. -/
theorem read_exactly (octets rest : Octets) {n : Nat} (hn : octets.length = n)
    (initial : Bool) :
    Effect.Triple (Holds cfg short left (octets ++ rest) buffered) (read cfg n initial)
      (fun octets' t => octets' = octets ∧ Holds cfg short left rest buffered t)
      (Missed cfg short left (octets ++ rest) buffered n) := by
  refine (read_spec n initial).weaken (fun _ h => h) ?_ (fun _ _ h => h)
  rintro octets' t ⟨hlength, rest', hcontent, hholds⟩
  obtain ⟨rfl, rfl⟩ := List.append_inj hcontent (by omega)
  exact ⟨rfl, hholds⟩

theorem buffer_spec (octets : Octets) {E : PyError → Transport → Prop} :
    Effect.Triple (Holds cfg short left content buffered) (buffer octets)
      (fun _ => Holds cfg short left content (buffered ++ octets)) E := by
  intro t ht
  exact ⟨⟨⟨ht.schedule, ht.survivable, ht.pieces⟩, ht.content⟩, by simp only [ht.buffered]⟩

/-- How the reading of a frame can stop within `limit` octets: it timed out with all it
read still there, or it waits for more than `recv` is scheduled to return. -/
inductive Interrupted (cfg : TransportConfig) (short left : Nat) (content : Octets)
    (limit : Nat) : PyError → Transport → Prop
  | timeout {e : PyError} {t : Transport} :
      IsTimeout e → t.schedule.length < left → Scheduled cfg short left t →
      t.readFrameBuffer ++ (t.readBuffer ++ t.unread) = content →
      Interrupted cfg short left content limit e t
  | blocked (held : Octets) {t : Transport} :
      held ++ t.unread = content → held.length < limit → t.unread.length ≤ short →
      Interrupted cfg short left content limit .blocked t

theorem Missed.interrupted {n limit : Nat} {e : PyError} {t : Transport}
    (h : Missed cfg short left content buffered n e t) (hlimit : buffered.length + n ≤ limit) :
    Interrupted cfg short left (buffered ++ content) limit e t := by
  cases h with
  | timeout htimeout hleft hholds =>
      refine .timeout htimeout hleft hholds.toScheduled ?_
      rw [hholds.buffered, hholds.content]
  | blocked hshort hunread hholds =>
      refine .blocked (buffered ++ t.readBuffer) ?_ ?_ hunread
      · rw [List.append_assoc, hholds.content]
      · simp only [List.length_append]
        omega

/-- The second part may time out with the first one no longer in the read buffer. -/
theorem readInParts_spec (part1 part2 rest : Octets) {limit : Nat}
    (hlimit : buffered.length + (part1.length + part2.length) ≤ limit) :
    Effect.Triple (Holds cfg short left (part1 ++ (part2 ++ rest)) buffered)
      (readInParts cfg part1.length part2.length)
      (fun payload t => payload = part1 ++ part2 ∧ Holds cfg short left rest buffered t)
      (Interrupted cfg short left (buffered ++ (part1 ++ (part2 ++ rest))) limit) := by
  refine .bind_value ((read_exactly part1 (part2 ++ rest) rfl false).weaken_error
    fun _ _ h => h.interrupted (by omega)) ?_
  refine .bind_value (.tryCatch (read_exactly part2 rest rfl false) ?_) fun t ht => ⟨rfl, ht⟩
  · rintro e t (⟨htimeout, hleft, hholds⟩ | ⟨hshort, hunread, hholds⟩)
    · have hos : e.isOSError = true := by
        obtain rfl | ⟨errno, rfl⟩ := htimeout <;> rfl
      simp only [hos, if_true, buffer, Effect.bind_run, Effect.modify_run, Effect.raise_run]
      refine .timeout htimeout hleft
        ⟨hholds.schedule, hholds.survivable, hholds.pieces⟩ ?_
      rw [hholds.buffered, hholds.content, List.append_assoc]
    · refine .blocked (buffered ++ part1 ++ t.readBuffer) ?_ ?_ hunread
      · simp only [List.append_assoc, hholds.content]
      · simp only [List.length_append]
        omega

theorem readPayload_spec (payload rest : Octets) {limit : Nat}
    (hlimit : buffered.length + payload.length ≤ limit) :
    Effect.Triple (Holds cfg short left (payload ++ rest) buffered)
      (readPayload cfg payload.length)
      (fun payload' t => payload' = payload ∧ Holds cfg short left rest buffered t)
      (Interrupted cfg short left (buffered ++ (payload ++ rest)) limit) := by
  unfold readPayload
  generalize signedIntMax = bound
  split
  next hhuge =>
    have hpart1 : (payload.take bound).length = bound := by
      simp only [List.length_take]
      omega
    have hpart2 : (payload.drop bound).length = payload.length - bound := by simp
    have hparts := @readInParts_spec cfg short left buffered (payload.take bound)
      (payload.drop bound) rest limit (by omega)
    rw [← List.append_assoc (payload.take bound), List.take_append_drop, hpart1, hpart2] at hparts
    exact hparts
  next =>
    exact (read_exactly payload rest rfl false).weaken_error fun _ _ h => h.interrupted hlimit

theorem reads_unpackFrameHeader {frame : Frame} (h : frame.WellFormed) :
    Cursor.Reads unpackFrameHeader frame.header
      (frame.frameType, frame.channel, frame.payload.length) := by
  unfold unpackFrameHeader Frame.header
  rw [List.append_assoc]
  exact (reads_unpackFrom 1 h.frameType).bind
    ((reads_unpackFrom 2 h.channel).bind ((reads_unpackFrom 4 h.payload).bind_pure _))

/-- The `try` block, when a frame comes next. -/
theorem readFrameParts_spec {frame : Frame} (h : frame.WellFormed) (rest : Octets) :
    Effect.Triple (Holds cfg short left (frame.octets ++ rest) []) (readFrameParts cfg)
      (fun parts t => parts = (frame, 206) ∧ Streams cfg short left rest t)
      (Interrupted cfg short left (frame.octets ++ rest) frame.octets.length) := by
  have hoctets : frame.octets ++ rest = frame.header ++ (frame.payload ++ ([0xce] ++ rest)) := by
    simp [Frame.octets]
  have hheader : unpackFrameHeader frame.header 0 =
      .ok ((frame.frameType, frame.channel, frame.payload.length), 7) := by
    have hread := reads_unpackFrameHeader h [] []
    simpa using hread
  have hend : ord [0xce] = .ok 206 := rfl
  have hlength := frame.octets_length
  rw [hoctets]
  refine .bind_value ((read_exactly frame.header _ frame.header_length true).weaken_error
    fun _ _ h => h.interrupted (by simp)) ?_
  refine .bind (buffer_spec frame.header) fun _ => ?_
  simp only [hheader, Effect.liftExcept_ok, pure_bind]
  refine .bind_value (readPayload_spec frame.payload _ (by simp; omega)) ?_
  refine .bind (buffer_spec frame.payload) fun _ => ?_
  refine .bind_value ((read_exactly [0xce] rest rfl false).weaken_error fun e t h => ?_) ?_
  · have hmissed : Interrupted cfg short left _ frame.octets.length e t :=
      h.interrupted (by simp; omega)
    simpa using hmissed
  · intro t ht
    exact ⟨rfl, ht.toStreams⟩

/-- Where nothing more comes, no header is read. -/
theorem readFrameParts_nothing {limit : Nat} (hlimit : 7 ≤ limit) :
    Effect.Triple (Holds cfg short left [] []) (readFrameParts cfg) (fun _ _ => False)
      (Interrupted cfg short left [] limit) := by
  refine .bind (((read_spec 7 true).weaken (fun _ h => h) ?_ fun _ _ h =>
    h.interrupted hlimit) : Effect.Triple _ _ (fun _ _ => False) _) fun _ t h => h.elim
  rintro octets t ⟨hlength, rest, hcontent, -⟩
  have hnone := (List.append_eq_nil_iff.mp hcontent.symm).1
  simp [hnone] at hlength

/-- How a call of `read_frame` can end without a frame. -/
inductive Unread (cfg : TransportConfig) (short left : Nat) (content : Octets)
    (limit : Nat) : PyError → Transport → Prop
  | timeout {t : Transport} :
      t.schedule.length < left → Streams cfg short left content t →
      Unread cfg short left content limit .socketTimeout t
  | blocked (held : Octets) {t : Transport} :
      held ++ t.unread = content → held.length < limit → t.unread.length ≤ short →
      Unread cfg short left content limit .blocked t

theorem onReadError_spec {limit : Nat} (e : PyError) {Q : Frame × Nat → Transport → Prop} :
    Effect.Triple (Interrupted cfg short left content limit e) (onReadError cfg e) Q
      (Unread cfg short left content limit) := by
  rintro t (⟨htimeout, hleft, hscheduled, hcontent⟩ | ⟨held, hcontent, hheld, hunread⟩)
  · have hpushed : Unread cfg short left content limit .socketTimeout
        { t with readBuffer := t.readFrameBuffer ++ t.readBuffer } := by
      refine .timeout hleft
        ⟨⟨hscheduled.schedule, hscheduled.survivable, hscheduled.pieces⟩, ?_⟩
      rw [← hcontent, List.append_assoc]
    obtain rfl | ⟨errno, rfl⟩ := htimeout
    · exact hpushed
    · unfold onReadError
      by_cases hwindows : cfg.platform.nt ∧ (PyError.sslError errno true).errno? =
          some cfg.platform.ewouldblock
      · simp only [reduceCtorEq, if_false, PyError.isOSError, if_true, if_pos hwindows]
        exact hpushed
      · simp only [reduceCtorEq, if_false, PyError.isOSError, if_true, if_neg hwindows,
          PyError.isSslTimeout]
        exact hpushed
  · exact .blocked held hcontent hheld hunread

/-- `read_frame` around a `try` block that returns a known frame, if it returns. -/
private theorem readFrame_around {limit : Nat} {frame : Frame} {Q : Transport → Prop}
    (hparts : Effect.Triple (Holds cfg short left content []) (readFrameParts cfg)
      (fun parts t => parts = (frame, 206) ∧ Q t) (Interrupted cfg short left content limit)) :
    Effect.Triple (Streams cfg short left content) (readFrame cfg)
      (fun frame' t => frame' = frame ∧ Q t) (Unread cfg short left content limit) := by
  refine .bind (.modify (Q := fun _ => Holds cfg short left content []) fun t ht => ?_) fun _ => ?_
  · exact ⟨⟨⟨ht.schedule, ht.survivable, ht.pieces⟩, ht.content⟩, rfl⟩
  · exact .bind_value (.tryCatch hparts fun e => onReadError_spec e) fun t ht => ⟨rfl, ht⟩

/-- A call of `read_frame` returns the frame that comes next, or times out with the
stream as it was, or waits for octets that `recv` does not return. -/
theorem readFrame_spec {frame : Frame} (h : frame.WellFormed) (rest : Octets) :
    Effect.Triple (Streams cfg short left (frame.octets ++ rest)) (readFrame cfg)
      (fun frame' t => frame' = frame ∧ Streams cfg short left rest t)
      (Unread cfg short left (frame.octets ++ rest) frame.octets.length) :=
  readFrame_around (readFrameParts_spec h rest)

theorem readFrame_nothing {limit : Nat} (hlimit : 7 ≤ limit) :
    Effect.Triple (Streams cfg short left []) (readFrame cfg) (fun _ _ => False)
      (Unread cfg short left [] limit) := by
  have hparts := @readFrameParts_nothing cfg short left limit hlimit
  have hframe := @readFrame_around cfg short left [] limit ⟨0, 0, []⟩ (fun _ => False)
    (hparts.weaken (fun _ h => h) (fun _ _ h => h.elim) fun _ _ h => h)
  exact hframe.weaken (fun _ h => h) (fun _ _ h => h.2) fun _ _ h => h

/-- A call of `read_frame` on a stream of frames. -/
theorem readFrame_next {frames : List Frame} (hframes : ∀ frame ∈ frames, frame.WellFormed)
    {t : Transport} (ht : Streams cfg short left (frames.flatMap Frame.octets) t) :
    match readFrame cfg t with
    | (.ok frame, t') => ∃ rest, frames = frame :: rest ∧
        Streams cfg short left (rest.flatMap Frame.octets) t'
    | (.error e, t') =>
        (e = .socketTimeout ∧ t'.schedule.length < left ∧
          Streams cfg short left (frames.flatMap Frame.octets) t') ∨
        (e = .blocked ∧ t'.unread.length ≤ short ∧ (t'.unread = [] → frames = [])) := by
  cases frames with
  | nil =>
      have hspec := readFrame_nothing (Nat.le_refl 7) t ht
      revert hspec
      rcases readFrame cfg t with ⟨frame | e, t'⟩
      · rintro (⟨hleft, hstreams⟩ | ⟨held, hcontent, hheld, hunread⟩)
        · exact .inl ⟨rfl, hleft, hstreams⟩
        · exact .inr ⟨rfl, hunread, fun _ => rfl⟩
      · exact False.elim
  | cons frame rest =>
      have hspec := readFrame_spec (hframes frame (by simp)) (rest.flatMap Frame.octets) t ht
      revert hspec
      rcases readFrame cfg t with ⟨frame' | e, t'⟩
      · rintro (⟨hleft, hstreams⟩ | ⟨held, hcontent, hheld, hunread⟩)
        · exact .inl ⟨rfl, hleft, hstreams⟩
        · refine .inr ⟨rfl, hunread, fun hempty => ?_⟩
          -- what is held cannot be the whole frame
          have hwhole := congrArg List.length hcontent
          simp only [hempty, List.append_nil, List.length_append] at hwhole
          omega
      · rintro ⟨rfl, hstreams⟩
        exact ⟨rest, rfl, hstreams⟩

/-- Calls of `read_frame`: each returns the next frame, or uses up a call of `recv`. -/
theorem readFrames_spec (calls : Nat) {frames : List Frame} {left : Nat}
    (hframes : ∀ frame ∈ frames, frame.WellFormed) {t : Transport}
    (ht : Streams cfg short left (frames.flatMap Frame.octets) t) :
    ∃ rest, frames = (readFrames cfg calls t).1 ++ rest ∧
      match (readFrames cfg calls t).2 with
      | (none, t') => calls ≤ frames.length + left ∧
          t'.readBuffer ++ t'.unread = rest.flatMap Frame.octets
      | (some e, t') => e = .blocked ∧ t'.unread.length ≤ short ∧
          (t'.unread = [] → rest = []) := by
  induction calls generalizing frames left t with
  | zero => exact ⟨frames, rfl, Nat.zero_le _, ht.content⟩
  | succ calls ih =>
      have hnext := readFrame_next hframes ht
      unfold readFrames
      revert hnext
      rcases readFrame cfg t with ⟨e | frame, t'⟩
      · rintro (⟨rfl, hleft, hstreams⟩ | ⟨rfl, hunread, hrest⟩)
        · obtain ⟨rest, hrest, hstopped⟩ := ih hframes
            ⟨⟨Nat.le_refl _, hstreams.survivable, hstreams.pieces⟩, hstreams.content⟩
          refine ⟨rest, hrest, ?_⟩
          simp only
          generalize readFrames cfg calls t' = run at hstopped
          obtain ⟨returned, stopped | e, t''⟩ := run
          · exact ⟨by have hcalls := hstopped.1; omega, hstopped.2⟩
          · exact hstopped
        · exact ⟨frames, rfl, rfl, hunread, hrest⟩
      · rintro ⟨rest', rfl, hstreams⟩
        obtain ⟨rest, hrest, hstopped⟩ := ih (fun f hf => hframes f (by simp [hf])) hstreams
        refine ⟨rest, by simp only [List.cons_append, ← hrest], ?_⟩
        simp only [List.length_cons]
        generalize readFrames cfg calls t' = run at hstopped
        obtain ⟨returned, stopped | e, t''⟩ := run
        · exact ⟨by have hcalls := hstopped.1; omega, hstopped.2⟩
        · exact hstopped

/-- Once `recv` has returned all octets, as it has after a piece for every one of them, all
frames are returned. -/
theorem readFrames_all {frames : List Frame} (hframes : ∀ frame ∈ frames, frame.WellFormed)
    {t : Transport} (hschedule : ∀ event ∈ t.schedule, Survivable cfg event)
    (hstream : t.readBuffer ++ t.unread = frames.flatMap Frame.octets) {calls : Nat}
    (henough : t.unread.length ≤ pieces t.schedule ∨ (readFrames cfg calls t).2.2.unread = [])
    (hcalls : frames.length + t.schedule.length < calls) :
    (readFrames cfg calls t).1 = frames := by
  have ht : Streams cfg (t.unread.length - pieces t.schedule) t.schedule.length
      (frames.flatMap Frame.octets) t :=
    ⟨⟨Nat.le_refl _, hschedule, by omega⟩, hstream⟩
  obtain ⟨rest, hrest, hstopped⟩ := readFrames_spec calls hframes ht
  revert hstopped hrest henough
  rcases readFrames cfg calls t with ⟨returned, stopped | e, t'⟩
  · rintro - hrest ⟨hle, -⟩
    omega
  · rintro henough hrest ⟨-, hunread, hempty⟩
    have hnone : t'.unread = [] := by
      rcases henough with hpieces | hall
      · exact List.length_eq_zero_iff.mp (by omega)
      · exact hall
    rw [hrest, hempty hnone, List.append_nil]

end Reads

/-- Calls of `read_frame`, repeated after every frame and every timeout, return the
frames of the stream in order; what they have not returned is left in the stream. All
are returned once `recv` has returned all octets, as it has after as many pieces as there are
octets. -/
theorem readFrames_stream (cfg : TransportConfig) (frames : List Frame) (t : Transport)
    (hframes : ∀ frame ∈ frames, frame.WellFormed)
    (hschedule : ∀ event ∈ t.schedule, Survivable cfg event)
    (hstream : t.readBuffer ++ t.unread = frames.flatMap Frame.octets) (calls : Nat) :
    (∃ rest, frames = (readFrames cfg calls t).1 ++ rest ∧
      match (readFrames cfg calls t).2 with
      | (none, t') => t'.readBuffer ++ t'.unread = rest.flatMap Frame.octets
      | (some e, t') => e = .blocked ∧ (t'.unread = [] → rest = [])) ∧
    (t.unread.length ≤ pieces t.schedule ∨ (readFrames cfg calls t).2.2.unread = [] →
      frames.length + t.schedule.length < calls → (readFrames cfg calls t).1 = frames) := by
  refine ⟨?_, fun henough hcalls => readFrames_all hframes hschedule hstream henough hcalls⟩
  have ht : Streams cfg (t.unread.length - pieces t.schedule) t.schedule.length
      (frames.flatMap Frame.octets) t :=
    ⟨⟨Nat.le_refl _, hschedule, by omega⟩, hstream⟩
  obtain ⟨rest, hrest, hstopped⟩ := readFrames_spec calls hframes ht
  revert hstopped hrest
  rcases readFrames cfg calls t with ⟨returned, stopped | e, t'⟩
  · exact fun hrest ⟨_, hcontent⟩ => ⟨rest, hrest, hcontent⟩
  · exact fun hrest ⟨hblocked, _, hempty⟩ => ⟨rest, hrest, hblocked, hempty⟩

/-- A heartbeat and a body frame in pieces, with timeouts inside the header, the payload
and before the frame-end octet. -/
theorem readFrames_stream_pieces :
    let cfg : TransportConfig := { platform := ⟨11, 4, 2, 11, false⟩, kind := .ssl }
    let frames : List Frame := [⟨8, 0, []⟩, ⟨3, 1, [7, 8]⟩]
    let t : Transport :=
      { unread := frames.flatMap Frame.octets
        schedule := [.piece 2, .raise .socketTimeout, .piece 9, .piece 0, .piece 6,
          .raise (.osError (some 11)), .piece 0, .raise (.sslError none true), .piece 0,
          .raise .socketTimeout, .piece 5] ++ List.replicate 12 (.piece 0) }
    (readFrames cfg 30 t).1 = frames := by
  intro cfg frames t
  refine (readFrames_stream cfg frames t ?_ ?_ rfl 30).2 (.inl (by decide)) (by decide)
  · simp only [frames, List.mem_cons, List.not_mem_nil, or_false]
    rintro frame (rfl | rfl)
    · exact ⟨by decide, by decide, by decide⟩
    · exact ⟨by decide, by decide, by decide⟩
  · simp [t, Survivable, cfg]

end Transport

end PyAmqp
