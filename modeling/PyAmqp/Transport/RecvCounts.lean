import PyAmqp.Base.Watched
import PyAmqp.Transport.Lifetime

/-!
What `read_frame` asks `recv` for. Each call asks for what is missing of the read under way:
seven octets of header, one of frame end, and a payload that is fetched in two parts where its
size is not a signed integer. The second part of the largest size is not one either.
-/

namespace PyAmqp

namespace Transport

/-- Calls of `recv` are noted, by their argument. -/
abbrev Watch (α : Type) := Watched Nat Transport PyError α

open Watched

/-! The functions of `read_frame`, each with its calls of `recv` -/

def watchedReadLoop (cfg : TransportConfig) (n : Nat) (initial : Bool) :
    Nat → Octets → Watch Octets
  | 0, _ => lift (Effect.raise .outOfFuel)
  | fuel + 1, rbuf => fun t =>
      if rbuf.length < n then
        note (n - rbuf.length) (fun t =>
          match recv (n - rbuf.length) t with
          | (.ok s, t) =>
              if s = [] then lift (keep rbuf (.osError none)) t
              else watchedReadLoop cfg n initial fuel (rbuf ++ s) t
          | (.error e, t) =>
              if e.isOSError ∧ ∃ errno ∈ cfg.kind.errnos cfg.platform, e.errno? = some errno then
                if initial ∧ cfg.raiseOnInitialEintr then lift (keep rbuf .socketTimeout) t
                else watchedReadLoop cfg n initial fuel rbuf t
              else lift (keep rbuf e) t) t
      else ([], .ok rbuf, t)

def watchedRead (cfg : TransportConfig) (n : Nat) (initial : Bool) : Watch Octets := do
  let t ← lift Effect.get
  let rbuf ← watchedReadLoop cfg n initial (t.schedule.length + 1) t.readBuffer
  lift (Effect.modify fun t => { t with readBuffer := rbuf.drop n })
  return rbuf.take n

def watchedReadInParts (cfg : TransportConfig) (n m : Nat) : Watch Octets := do
  let part1 ← watchedRead cfg n false
  let part2 ← tryCatch (watchedRead cfg m false) fun e => lift do
    if e.isOSError then buffer part1 else pure ()
    Effect.raise e
  return part1 ++ part2

def watchedReadPayload (cfg : TransportConfig) (size : Nat) : Watch Octets :=
  if size > signedIntMax then watchedReadInParts cfg signedIntMax (size - signedIntMax)
  else watchedRead cfg size false

def watchedReadFrameParts (cfg : TransportConfig) : Watch (Frame × Nat) := do
  let frameHeader ← watchedRead cfg 7 true
  lift (buffer frameHeader)
  let ((frameType, channel, size), _) ← lift (Effect.liftExcept (unpackFrameHeader frameHeader 0))
  let payload ← watchedReadPayload cfg size
  lift (buffer payload)
  let frameEnd ← lift (Effect.liftExcept (ord (← watchedRead cfg 1 false)))
  return (⟨frameType, channel, payload⟩, frameEnd)

def watchedReadFrame (cfg : TransportConfig) : Watch Frame := do
  lift (Effect.modify fun t => { t with readFrameBuffer := [] })
  let (frame, frameEnd) ← tryCatch (watchedReadFrameParts cfg) fun e => lift (onReadError cfg e)
  if frameEnd = 206 then return frame
  else lift (Effect.raise (unexpectedFrameEnd frameEnd))

/-- What `recv` is asked for while `read_frame` is called, and called again after each
timeout, `calls` times in all. -/
def asked (cfg : TransportConfig) : Nat → Transport → List Nat
  | 0, _ => []
  | calls + 1, t =>
      match watchedReadFrame cfg t with
      | (counts, .error .socketTimeout, t) => counts ++ asked cfg calls t
      | (counts, _) => counts

/-! Without the notes -/

section Erase

variable (cfg : TransportConfig)

theorem erase_readLoop (n : Nat) (initial : Bool) (fuel : Nat) (rbuf : Octets) :
    erase (watchedReadLoop cfg n initial fuel rbuf) = readLoop cfg n initial fuel rbuf := by
  induction fuel generalizing rbuf with
  | zero => rfl
  | succ fuel ih =>
      funext t
      have hrest : ∀ rbuf t, (watchedReadLoop cfg n initial fuel rbuf t).2 =
          readLoop cfg n initial fuel rbuf t := fun rbuf t => congrFun (ih rbuf) t
      simp only [erase, watchedReadLoop, readLoop, note]
      split
      · rcases recv (n - rbuf.length) t with ⟨e | s, t'⟩
        · simp only
          split
          · split
            · rfl
            · exact hrest rbuf t'
          · rfl
        · simp only
          split
          · rfl
          · exact hrest (rbuf ++ s) t'
      · rfl

theorem erase_read (n : Nat) (initial : Bool) :
    erase (watchedRead cfg n initial) = read cfg n initial := by
  simp only [watchedRead, read, erase_bind, erase_lift, erase_readLoop, erase_pure]

theorem erase_readInParts (n m : Nat) :
    erase (watchedReadInParts cfg n m) = readInParts cfg n m := by
  simp only [watchedReadInParts, readInParts, erase_bind, erase_tryCatch, erase_read, erase_lift,
    erase_pure]

theorem erase_readPayload (size : Nat) :
    erase (watchedReadPayload cfg size) = readPayload cfg size := by
  unfold watchedReadPayload readPayload
  split
  · exact erase_readInParts cfg _ _
  · exact erase_read cfg _ _

theorem erase_readFrameParts : erase (watchedReadFrameParts cfg) = readFrameParts cfg := by
  simp only [watchedReadFrameParts, readFrameParts, erase_bind, erase_read, erase_lift,
    erase_readPayload, erase_pure]

/-- The notes leave what `read_frame` does as it is. -/
theorem erase_readFrame : erase (watchedReadFrame cfg) = readFrame cfg := by
  have hend : ∀ (frame : Frame) (frameEnd : Nat),
      erase (if frameEnd = 206 then pure frame
        else lift (Effect.raise (unexpectedFrameEnd frameEnd)) : Watch Frame) =
        if frameEnd = 206 then pure frame else Effect.raise (unexpectedFrameEnd frameEnd) := by
    intro frame frameEnd
    split <;> rfl
  simp only [watchedReadFrame, readFrame, erase_bind, erase_tryCatch, erase_readFrameParts,
    erase_lift, hend]

end Erase

/-! The loop -/

section Loop

variable {cfg : TransportConfig} {n : Nat} {initial : Bool} {N : Nat → Prop}
  {I : Transport → Prop} {E : PyError → Transport → Prop}

/-- Every count that is asked for is asked for from `I`. -/
private theorem watchedReadLoop_notes (h : RecvKeeps cfg n initial I E)
    (hcount : ∀ t, I t → t.readBuffer.length < n → N (n - t.readBuffer.length)) (fuel : Nat)
    (rbuf : Octets) (t : Transport) (ht : I { t with readBuffer := rbuf }) :
    ∀ count ∈ (watchedReadLoop cfg n initial fuel rbuf t).1, N count := by
  induction fuel generalizing rbuf t with
  | zero => exact fun count hmem => absurd hmem List.not_mem_nil
  | succ fuel ih =>
      by_cases hlt : rbuf.length < n
      · have hrecv := h { t with readBuffer := rbuf } ht hlt
        rw [recv_readBuffer] at hrecv
        simp only [watchedReadLoop, if_pos hlt, note]
        refine List.forall_mem_cons.mpr ⟨hcount _ ht hlt, ?_⟩
        rcases hrun : recv (n - rbuf.length) t with ⟨e | s, t'⟩
        · rw [hrun] at hrecv
          simp only at hrecv ⊢
          by_cases hretry : Retried cfg e
          · rw [if_pos hretry] at hrecv
            simp only [if_pos (show e.isOSError = true ∧ _ from hretry)]
            by_cases hfirst : initial = true ∧ cfg.raiseOnInitialEintr = true
            · simp only [if_pos hfirst]
              exact fun count hmem => absurd hmem List.not_mem_nil
            · rw [if_neg hfirst] at hrecv
              simp only [if_neg hfirst]
              exact ih rbuf t' hrecv
          · simp only [if_neg (show ¬ (e.isOSError = true ∧ _) from hretry)]
            exact fun count hmem => absurd hmem List.not_mem_nil
        · rw [hrun] at hrecv
          simp only at hrecv ⊢
          by_cases hend : s = []
          · simp only [if_pos hend]
            exact fun count hmem => absurd hmem List.not_mem_nil
          · rw [if_neg hend] at hrecv
            simp only [if_neg hend]
            exact ih _ t' hrecv
      · simp only [watchedReadLoop, if_neg hlt]
        exact fun count hmem => absurd hmem List.not_mem_nil

theorem watchedRead_notes (t : Transport) :
    (watchedRead cfg n initial t).1 =
      (watchedReadLoop cfg n initial (t.schedule.length + 1) t.readBuffer t).1 := by
  simp only [watchedRead, Bind.bind, Watched.bind, lift, Effect.get, List.nil_append]
  rcases watchedReadLoop cfg n initial (t.schedule.length + 1) t.readBuffer t with
    ⟨counts, e | rbuf, t'⟩
  · rfl
  · exact List.append_nil counts

/-- What its calls of `recv` keep, a read keeps, and asks for nothing but what is asked for
from there. -/
theorem watchedRead_keeps (h : RecvKeeps cfg n initial I E)
    (hcount : ∀ t, I t → t.readBuffer.length < n → N (n - t.readBuffer.length)) :
    Watched.Triple N I (watchedRead cfg n initial)
      (fun octets t => octets.length = n ∧ I { t with readBuffer := octets ++ t.readBuffer }) E := by
  refine .of_erase (fun t ht => ?_) ?_
  · rw [watchedRead_notes]
    exact watchedReadLoop_notes h hcount _ t.readBuffer t ht
  · rw [erase_read]
    exact read_keeps h

end Loop

/-! What a call asks for -/

/-- `n` octets are missing up to the end of a read, where it has `start` octets of the frame at
least. -/
def Missing (content : Octets) (start n : Nat) : Prop :=
  ∃ held, start ≤ held ∧ held ≤ content.length ∧ ¬ Whole content held ∧
    n = boundary content held - held

/-- `done` of `content` is taken and the rest is left, with `start` octets of it in, and
`buffered` is put aside. -/
structure Placed (content : Octets) (start : Nat) (done buffered : Octets) (t : Transport) :
    Prop where
  stream : done ++ t.left = content
  start : start ≤ done.length + t.readBuffer.length
  buffered : t.readFrameBuffer = buffered

/-- An `OSError` leaves all octets in the two buffers or unread. -/
def KeptBack (content : Octets) (start : Nat) (e : PyError) (t : Transport) : Prop :=
  e.isOSError = true →
    t.readFrameBuffer ++ t.left = content ∧
      start ≤ t.readFrameBuffer.length + t.readBuffer.length

section Counts

variable {cfg : TransportConfig} {content done buffered : Octets} {start n : Nat}

theorem Placed.keptBack {e : PyError} {t : Transport} (h : Placed content start done done t) :
    KeptBack content start e t :=
  fun _ => ⟨by rw [h.buffered]; exact h.stream, by rw [h.buffered]; exact h.start⟩

theorem recv_placed (n : Nat) (initial : Bool) :
    RecvKeeps cfg n initial (Placed content start done buffered)
      (fun _ => Placed content start done buffered) := by
  refine .of_left n initial fun t readBuffer unread schedule ht hleft hmore => ⟨?_, ?_, ht.buffered⟩
  · rw [← ht.stream, ← hleft]
    rfl
  · have hstart := ht.start
    simp only
    omega

/-- What `recv` is asked for in a read is missing of it. -/
theorem Placed.missing {initial : Bool} {t : Transport} (h : Placed content start done buffered t)
    (htarget : Target content done.length n initial) (hlt : t.readBuffer.length < n) :
    Missing content start (n - t.readBuffer.length) := by
  refine ⟨done.length + t.readBuffer.length, h.start, ?_, htarget.short _ (by omega), ?_⟩
  · rw [← h.stream]
    simp only [left, List.length_append]
    omega
  · rw [htarget.boundary _ (by omega) (by omega)]
    omega

theorem watchedRead_asks {initial : Bool} (htarget : Target content done.length n initial) :
    Watched.Triple (Missing content start) (Placed content start done buffered)
      (watchedRead cfg n initial)
      (fun octets t => octets.length = n ∧ Placed content start (done ++ octets) buffered t)
      (fun _ => Placed content start done buffered) := by
  refine (watchedRead_keeps (recv_placed n initial) fun t ht hlt =>
    ht.missing htarget hlt).weaken (fun _ ht => ht) ?_ (fun _ _ h => h)
  rintro octets t ⟨hlength, hstream, hstart, hbuffered⟩
  refine ⟨hlength, ?_, ?_, hbuffered⟩
  · rw [← hstream]
    simp only [left, List.append_assoc]
  · simp only [List.length_append] at hstart ⊢
    omega

theorem buffer_placed (octets : Octets) {E : PyError → Transport → Prop} :
    Effect.Triple (Placed content start done buffered) (buffer octets)
      (fun _ => Placed content start done (buffered ++ octets)) E :=
  fun _ ht => ⟨ht.stream, ht.start, congrArg (· ++ octets) ht.buffered⟩

theorem watchedReadInParts_asks {m : Nat} (hpart1 : Target content done.length n false)
    (hpart2 : Target content (done.length + n) m false) :
    Watched.Triple (Missing content start) (Placed content start done done)
      (watchedReadInParts cfg n m)
      (fun payload t => payload.length = n + m ∧ Placed content start (done ++ payload) done t)
      (KeptBack content start) := by
  refine .bind ((watchedRead_asks hpart1).weaken_error fun _ _ h => h.keptBack) fun part1 => ?_
  rintro t ⟨rfl, hplaced⟩
  rw [← List.length_append] at hpart2
  have hread := @watchedRead_asks cfg content (done ++ part1) done start m false hpart2
  refine Watched.Triple.bind (.tryCatch hread fun e => .lift ?_) (fun part2 => ?_) t hplaced
  · rintro t' ⟨hstream, hstart, hbuffered⟩
    by_cases hos : e.isOSError = true
    · simp only [hos, if_true, buffer, Effect.bind_run, Effect.modify_run, Effect.raise_run]
      have hback : Placed content start (done ++ part1) (done ++ part1)
          { t' with readFrameBuffer := t'.readFrameBuffer ++ part1 } :=
        ⟨hstream, hstart, congrArg (· ++ part1) hbuffered⟩
      exact hback.keptBack
    · simp only [hos]
      exact fun h => absurd h hos
  · refine .pure _ ?_
    rintro t' ⟨rfl, hplaced'⟩
    exact ⟨by simp, by simpa using hplaced'⟩

theorem watchedReadPayload_asks {header : Octets} (hlength : header.length = 7) :
    Watched.Triple (Missing content start) (Placed content start header header)
      (watchedReadPayload cfg (payloadSize content))
      (fun payload t => payload.length = payloadSize content ∧
        Placed content start (header ++ payload) header t)
      (KeptBack content start) := by
  have hpayload := target_payload content
  have hpart2 := target_part2 content
  unfold watchedReadPayload
  generalize signedIntMax = bound at hpayload hpart2 ⊢
  rw [← hlength] at hpayload hpart2
  split
  next hhuge =>
    rw [Nat.min_eq_right (by omega)] at hpayload
    refine (watchedReadInParts_asks hpayload (hpart2 hhuge)).weaken (fun _ h => h) ?_
      fun _ _ h => h
    rintro payload t ⟨hsize, hplaced⟩
    exact ⟨by omega, hplaced⟩
  next hsmall =>
    rw [Nat.min_eq_left (by omega)] at hpayload
    exact (watchedRead_asks hpayload).weaken_error fun _ _ h => h.keptBack

theorem watchedReadFrameParts_asks :
    Watched.Triple (Missing content start) (Placed content start [] []) (watchedReadFrameParts cfg)
      (fun _ _ => True) (KeptBack content start) := by
  refine .bind ((watchedRead_asks (target_header content)).weaken_error fun _ _ h => h.keptBack)
    fun header => ?_
  rintro t ⟨hlength, hplaced⟩
  obtain ⟨frameType, channel, hheader, -⟩ := unpackFrameHeader_size hlength
  have hsize : payloadSize content = payloadSize header := by
    rw [← hplaced.stream]
    exact payloadSize_append hlength _
  rw [List.nil_append] at hplaced
  refine Watched.Triple.bind (.lift (buffer_placed header)) (fun _ => ?_) t hplaced
  rw [hheader, ← hsize]
  simp only [Effect.liftExcept_ok, lift_pure_bind, List.nil_append]
  refine .bind (watchedReadPayload_asks hlength) fun payload => ?_
  rintro t' ⟨hpayload, hplaced'⟩
  have htarget := target_end content
  rw [← hlength, ← hpayload, ← List.length_append] at htarget
  refine Watched.Triple.bind (.lift (buffer_placed payload)) (fun _ => ?_) t' hplaced'
  refine .bind ((watchedRead_asks htarget).weaken_error fun _ _ h => h.keptBack) fun octets => ?_
  rintro t'' ⟨hone, -⟩
  obtain ⟨octet, rfl⟩ := List.length_eq_one_iff.mp hone
  rw [show ord [octet] = .ok octet.toNat from rfl]
  exact ⟨fun _ hcount => absurd hcount List.not_mem_nil, trivial⟩

/-- A call asks for what is missing of its frame, and one that times out leaves all of it. -/
theorem watchedReadFrame_asks :
    Watched.Triple (Missing content start)
      (fun t => t.left = content ∧ start ≤ t.readBuffer.length) (watchedReadFrame cfg)
      (fun _ _ => True)
      (fun e t => e = .socketTimeout → t.left = content ∧ start ≤ t.readBuffer.length) := by
  refine .bind (.lift (.modify (Q := fun _ => Placed content start [] []) fun t ht =>
    ⟨ht.1, by simpa using ht.2, rfl⟩)) fun _ => ?_
  refine .bind (.tryCatch watchedReadFrameParts_asks fun e => .lift fun t hback => ?_) ?_
  · by_cases htimeout : TimesOut cfg e
    · obtain ⟨hleft, hstart⟩ := hback htimeout.isOSError
      rw [onReadError_timesOut htimeout]
      rw [left, ← List.append_assoc] at hleft
      exact fun _ => ⟨hleft, by simpa using hstart⟩
    have hsocket : e ≠ .socketTimeout := fun h => htimeout (.inl h)
    by_cases hos : e.isOSError = true
    · rw [onReadError_osError htimeout hos]
      exact fun h => absurd h hsocket
    · rw [onReadError_other (by simpa using hos)]
      exact fun h => absurd h hsocket
  · rintro ⟨frame, frameEnd⟩
    dsimp only
    split
    · exact .pure frame fun _ _ => trivial
    · exact .lift (.raise fun t _ h => by cases h)

/-- So do all calls of a frame that times out again and again. -/
theorem asked_missing (calls : Nat) (t : Transport) (hleft : t.left = content)
    (hstart : start ≤ t.readBuffer.length) :
    ∀ count ∈ asked cfg calls t, Missing content start count := by
  induction calls generalizing t with
  | zero => simp [asked]
  | succ calls ih =>
      obtain ⟨hcounts, hend⟩ := @watchedReadFrame_asks cfg content start t ⟨hleft, hstart⟩
      intro count hcount
      rw [asked] at hcount
      split at hcount
      next counts t' hrun =>
        rw [hrun] at hcounts hend
        obtain ⟨hleft', hstart'⟩ := hend rfl
        rcases List.mem_append.mp hcount with hcount | hcount
        · exact hcounts count hcount
        · exact ih t' hleft' hstart' count hcount
      next counts _ _ hrun =>
        rw [hrun] at hcounts
        exact hcounts count hcount

theorem payloadSize_lt (content : Octets) : payloadSize content < 2 ^ 32 := by
  have hdecode := BigEndian.decode_lt ((content.drop 3).take 4)
  have hlength : ((content.drop 3).take 4).length ≤ 4 := List.length_take_le _ _
  have hpow : 256 ^ ((content.drop 3).take 4).length ≤ 256 ^ 4 :=
    Nat.pow_le_pow_right (by decide) hlength
  unfold payloadSize
  omega

/-- Only the second part of a payload of the largest size, with nothing of it in, is no signed
integer. -/
theorem Missing.signed (h : Missing content start n) :
    1 ≤ n ∧ (n ≤ signedIntMax ∨
      payloadSize content = 2 ^ 32 - 1 ∧ start ≤ 7 + signedIntMax ∧
        7 + signedIntMax ≤ content.length) := by
  obtain ⟨held, hstart, hlength, hwhole, rfl⟩ := h
  have hsize := payloadSize_lt content
  have hmax : signedIntMax = 2 ^ 31 - 1 := rfl
  simp only [Whole, not_and, not_le] at hwhole
  unfold boundary
  generalize signedIntMax = bound at hmax ⊢
  split
  · omega
  · split
    · omega
    · split
      · omega
      · omega

end Counts

/-! Where a call asks for more -/

/-- `content` is left, `held` octets of it in the read buffer, and the next `calls` calls of
`recv` return what they are asked for, up to `size + 1` octets. -/
structure Serving (size : Nat) (content : Octets) (held calls : Nat) (t : Transport) : Prop where
  left : t.left = content
  held : t.readBuffer.length = held
  schedule : ∃ more, t.schedule = List.replicate (calls + more) (.piece size)

section Serves

variable {cfg : TransportConfig} {size held calls n : Nat} {content : Octets}

theorem recv_serves {t : Transport} {rest : List Recv} (hn : 0 < n) (hsize : n ≤ size + 1)
    (hlength : n ≤ t.unread.length) (hnext : t.schedule = .piece size :: rest) :
    recv n t = (.ok (t.unread.take n), { t with unread := t.unread.drop n, schedule := rest }) := by
  have hsome : t.unread ≠ [] := List.ne_nil_of_length_pos (by omega)
  simp only [recv, hnext, if_neg hsome, Nat.min_eq_right hsize]

theorem readLoop_done {initial : Bool} {fuel : Nat} {rbuf : Octets} {t : Transport}
    (hdone : n ≤ rbuf.length) : readLoop cfg n initial (fuel + 1) rbuf t = (.ok rbuf, t) := by
  simp only [readLoop, if_neg (Nat.not_lt.mpr hdone)]

/-- One call of `recv` brings in what is missing. -/
private theorem readLoop_serves (initial : Bool) (hsize : n ≤ size + 1)
    (hlength : n ≤ content.length) (t : Transport)
    (ht : Serving size content held (calls + 1) t) :
    match readLoop cfg n initial (t.schedule.length + 1) t.readBuffer t with
    | (.ok rbuf, t') => n ≤ rbuf.length ∧
        Serving size content (max held n) calls { t' with readBuffer := rbuf }
    | (.error _, _) => False := by
  obtain ⟨hleft, rfl, more, hschedule⟩ := ht
  by_cases hshort : t.readBuffer.length < n
  · have hnext : t.schedule = .piece size :: List.replicate (calls + more) (.piece size) := by
      rw [hschedule, ← List.replicate_succ, Nat.add_right_comm]
    have henough : n - t.readBuffer.length ≤ t.unread.length := by
      rw [← hleft, left, List.length_append] at hlength
      omega
    have hsome : t.unread.take (n - t.readBuffer.length) ≠ [] := by
      refine List.ne_nil_of_length_pos ?_
      rw [List.length_take]
      omega
    have hlen : (t.readBuffer ++ t.unread.take (n - t.readBuffer.length)).length = n := by
      rw [List.length_append, List.length_take]
      omega
    simp only [readLoop, if_pos hshort, recv_serves (by omega) (by omega) henough hnext,
      if_neg hsome]
    rw [hnext, List.length_cons, readLoop_done (by omega)]
    refine ⟨by omega, ?_, by simp only [hlen]; omega, more, rfl⟩
    simp only [left, List.append_assoc, List.take_append_drop]
    exact hleft
  · simp only [readLoop, if_neg hshort]
    have hmore : calls + 1 + more = calls + (more + 1) := by omega
    rw [hmore] at hschedule
    exact ⟨by omega, hleft, (Nat.max_eq_left (Nat.not_lt.mp hshort)).symm, more + 1, hschedule⟩

theorem read_serves (initial : Bool) (hsize : n ≤ size + 1) (hlength : n ≤ content.length) :
    Effect.Triple (Serving size content held (calls + 1)) (read cfg n initial)
      (fun octets t => octets = content.take n ∧
        Serving size (content.drop n) (held - n) calls t)
      (fun _ _ => False) := by
  refine (read_triple (readLoop_serves initial hsize hlength)).weaken (fun _ h => h) ?_
    fun _ _ h => h
  rintro octets t ⟨rfl, hleft, hheld, hschedule⟩
  simp only [left, List.append_assoc] at hleft
  simp only [List.length_append] at hheld
  rw [← hleft]
  exact ⟨by simp, by simp [left], by omega, hschedule⟩

theorem buffer_serves (octets : Octets) {E : PyError → Transport → Prop} :
    Effect.Triple (Serving size content held calls) (buffer octets)
      (fun _ => Serving size content held calls) E :=
  fun _ ht => ⟨ht.left, ht.held, ht.schedule⟩

/-- With nothing in the read buffer, a read asks for all it is to return. -/
theorem watchedRead_emits (initial : Bool) (hn : 0 < n) :
    Emits n (Serving size content 0 calls) (watchedRead cfg n initial) := by
  rintro t ⟨-, hheld, -⟩
  rw [watchedRead_notes]
  simp only [watchedReadLoop, hheld, if_pos hn, Nat.sub_zero, note]
  exact List.mem_cons_self

/-- The second part of a payload, with nothing of it in the read buffer. -/
theorem watchedReadPayload_emits (hlength : signedIntMax ≤ content.length)
    (hheld : held ≤ signedIntMax) (hn : 0 < n) :
    Emits n (Serving signedIntMax content held 1)
      (watchedReadPayload cfg (signedIntMax + n)) := by
  unfold watchedReadPayload watchedReadInParts
  generalize signedIntMax = bound at hlength hheld ⊢
  rw [if_pos (by omega), Nat.add_sub_cancel_left]
  refine Emits.behind (Q := fun _ => Serving bound (content.drop bound) 0 0) ?_ fun part1 =>
    (watchedRead_emits false hn).tryCatch.first
  rw [erase_read]
  refine (read_serves false (Nat.le_succ bound) hlength).weaken (fun _ h => h) ?_ fun _ _ h => h
  rintro part1 t ⟨-, hserving⟩
  rwa [Nat.sub_eq_zero_of_le hheld] at hserving

theorem watchedReadFrame_emits (hsize : payloadSize content = signedIntMax + n)
    (hlength : 7 + signedIntMax ≤ content.length) (hheld : held ≤ 7 + signedIntMax) (hn : 0 < n) :
    Emits n (Serving signedIntMax content held 2) (watchedReadFrame cfg) := by
  have hmax : 7 ≤ signedIntMax + 1 := by decide
  refine Emits.behind (Q := fun _ => Serving signedIntMax content held 2)
    (Effect.Triple.modify fun _ h => ⟨h.left, h.held, h.schedule⟩) fun _ => ?_
  refine Emits.first (Emits.tryCatch ?_)
  refine Emits.behind (by rw [erase_read]; exact read_serves true hmax (by omega)) fun header => ?_
  rintro t ⟨rfl, hserving⟩
  have hheader : (content.take 7).length = 7 := List.length_take_of_le (by omega)
  obtain ⟨frameType, channel, hunpack, -⟩ := unpackFrameHeader_size hheader
  have hsplit : payloadSize (content.take 7) = payloadSize content := by
    rw [← payloadSize_append hheader (content.drop 7), List.take_append_drop]
  refine Emits.behind (buffer_serves (content.take 7)) (fun _ => ?_) t hserving
  rw [hunpack, hsplit, hsize]
  simp only [Effect.liftExcept_ok, lift_pure_bind]
  refine Emits.first (watchedReadPayload_emits ?_ (by omega) hn)
  rw [List.length_drop]
  omega

/-- What a call asks for is asked for, whatever comes of the call. -/
theorem mem_asked {count : Nat} {t : Transport} (h : count ∈ (watchedReadFrame cfg t).1) :
    count ∈ asked cfg 1 t := by
  rw [asked]
  split
  next counts t' hrun =>
    rw [hrun] at h
    exact List.mem_append_left _ h
  next counts _ _ hrun =>
    rw [hrun] at h
    exact h

end Serves

/-- Whatever `recv` does and however often a call that timed out is made again, it is asked for
a signed integer, unless a payload of the largest size gets to its second part with nothing of
that part in the read buffer beforehand. -/
theorem asked_signed_iff (cfg : TransportConfig) (t : Transport) :
    erase (watchedReadFrame cfg) = readFrame cfg ∧
      ((∀ schedule calls, ∀ n ∈ asked cfg calls { t with schedule }, 1 ≤ n ∧ n ≤ signedIntMax) ↔
        ¬ (payloadSize t.left = 2 ^ 32 - 1 ∧ t.readBuffer.length ≤ 7 + signedIntMax ∧
          7 + signedIntMax ≤ t.left.length)) := by
  have hmax : 2 ^ 32 - 1 = signedIntMax + (signedIntMax + 1) := rfl
  refine ⟨erase_readFrame cfg, ?_, ?_⟩
  · rintro hsigned ⟨hsize, hheld, hlength⟩
    rw [hmax] at hsize
    have hasked := @watchedReadFrame_emits cfg _ _ _ hsize hlength hheld (Nat.succ_pos _)
      { t with schedule := List.replicate 2 (.piece signedIntMax) } ⟨rfl, rfl, 0, rfl⟩
    exact Nat.not_succ_le_self _ (hsigned _ 1 _ (mem_asked hasked)).2
  · intro hsmall schedule calls n hn
    obtain ⟨hpos, hle | ⟨hsize, hheld, hlength⟩⟩ :=
      (asked_missing calls { t with schedule } rfl le_rfl n hn).signed
    · exact ⟨hpos, hle⟩
    · exact absurd ⟨hsize, hheld, hlength⟩ hsmall

/-- The header of a payload of the largest size, and the first part of it. -/
def largestSize (part1 : Octets) : TransportConfig × Transport :=
  ({ platform := ⟨11, 4, 2, 11, false⟩, kind := .tcp },
    { unread := [1, 0, 1, 255, 255, 255, 255] ++ part1
      schedule := List.replicate 2 (.piece signedIntMax) })

theorem asked_unsigned :
    let (cfg, t) := largestSize (List.replicate signedIntMax 0)
    signedIntMax + 1 ∈ asked cfg 1 t ∧ ¬ signedIntMax + 1 ≤ signedIntMax := by
  have hsize : payloadSize ([1, 0, 1, 255, 255, 255, 255] ++ List.replicate signedIntMax 0) =
      signedIntMax + (signedIntMax + 1) := payloadSize_append rfl _
  have hlength : 7 + signedIntMax ≤
      ([1, 0, 1, 255, 255, 255, 255] ++ List.replicate signedIntMax (0 : UInt8)).length := by
    rw [List.length_append, List.length_replicate]
    exact le_rfl
  refine ⟨mem_asked ?_, Nat.not_succ_le_self _⟩
  exact watchedReadFrame_emits hsize hlength (Nat.zero_le _) (Nat.succ_pos _)
    (largestSize (List.replicate signedIntMax 0)).2 ⟨rfl, rfl, 0, rfl⟩

end Transport

end PyAmqp
