import PyAmqp.Connection.Link
import PyAmqp.Framing.FrameLimit
import PyAmqp.Transport.Stream

/-!
The writing side of `amqp/transport.py`: `write` over the `_write` of `TCPTransport`, which
is the socket's `sendall`, and of `SSLTransport`. What the calls of `send` do is part of
the state, with all that they have taken, so that a write that raises may have been half
done.
-/

namespace PyAmqp

/-- What a call of `send` does: take so many octets, after which the handler of a signal
that came meanwhile may raise, or raise at once. -/
inductive Send where
  | takes (n : Nat) (signal : Option PyError)
  | raise (e : PyError)
  deriving DecidableEq

namespace Send

def error? : Send → Option PyError
  | takes _ signal => signal
  | raise e => some e

/-- No handler raises behind octets that were taken. -/
def Quiet : Send → Prop
  | takes _ signal => signal = none
  | raise _ => True

end Send

/-- The octets sent, and the calls of `send` to come. -/
structure Outbound where
  sent : Octets := []
  connected : Bool := true
  sends : List Send

namespace Outbound

/-- A call of `send`, which blocks when nothing more is scheduled. -/
def send (s : Octets) : Effect Outbound PyError Nat := fun t =>
  match t.sends with
  | [] => (.error .blocked, t)
  | .takes n signal :: sends =>
      let n := min n s.length
      let t := { t with sent := t.sent ++ s.take n, sends }
      match signal with
      | some e => (.error e, t)
      | none => (.ok n, t)
  | .raise e :: sends => (.error e, { t with sends })

/-- `sendall`: the first call of `send` is made for no octets, too. -/
def sendall : Nat → Octets → Effect Outbound PyError Unit
  | 0, _ => Effect.raise .outOfFuel
  | fuel + 1, s => do
      let n ← send s
      if n < s.length then sendall fuel (s.drop n) else pure ()

/-- `SSLTransport._write` -/
def writeSsl : Nat → Octets → Effect Outbound PyError Unit
  | 0, _ => Effect.raise .outOfFuel
  | fuel + 1, s =>
      if s = [] then pure ()
      else do
        let n ← Effect.tryCatch (send s) fun e =>
          if e = .valueError then pure 0 else Effect.raise e
        if n = 0 then Effect.raise (.osError none) else writeSsl fuel (s.drop n)

/-- `self._write(s)`. A round uses up one call of `send`. -/
def rawWrite (kind : TransportKind) (s : Octets) : Effect Outbound PyError Unit := do
  let t ← Effect.get
  match kind with
  | .tcp => sendall (t.sends.length + 1) s
  | .ssl => writeSsl (t.sends.length + 1) s

/-- `write` -/
def write (cfg : TransportConfig) (s : Octets) : Effect Outbound PyError Unit :=
  Effect.tryCatch (rawWrite cfg.kind s) fun e => do
    if Connection.drops cfg.platform e then
      Effect.modify fun t => { t with connected := false }
    else pure ()
    Effect.raise e

/-! What a write does -/

/-- `taken` went out, and nothing else is changed. -/
structure Sent (t t' : Outbound) (taken : Octets) : Prop where
  sent : t'.sent = t.sent ++ taken
  connected : t'.connected = t.connected
  sends : t'.sends <:+ t.sends

namespace Sent

theorem refl (t : Outbound) : Sent t t [] := ⟨(List.append_nil _).symm, rfl, List.suffix_refl _⟩

theorem trans {t t' t'' : Outbound} {s s' : Octets} (h : Sent t t' s) (h' : Sent t' t'' s') :
    Sent t t'' (s ++ s') := by
  constructor
  · rw [h'.sent, h.sent, List.append_assoc]
  · rw [h'.connected, h.connected]
  · exact h'.sends.trans h.sends

end Sent

/-- Where the exception of a write comes from: a call of `send` raised it, or never
returned, or it says that a TLS socket is closed. -/
def Cause (kind : TransportKind) (sends : List Send) (e : PyError) : Prop :=
  e = .blocked ∨ (kind = .ssl ∧ e = .osError none) ∨ ∃ event ∈ sends, event.error? = some e

/-- A write of `s` that raises leaves `rest` of it. Octets are left unless a signal's handler
has raised. -/
def Failed (kind : TransportKind) (s : Octets) (t t' : Outbound) (e : PyError) : Prop :=
  ∃ taken rest, s = taken ++ rest ∧ Sent t t' taken ∧ Cause kind t.sends e ∧
    ((∀ event ∈ t.sends, event.Quiet) → s ≠ [] → rest ≠ [])

/-- A write of `s` puts all of it on the wire, or raises with a part of it there. -/
def Writes (kind : TransportKind) (s : Octets) (t : Outbound) :
    Except PyError Unit × Outbound → Prop
  | (.ok _, t') => Sent t t' s
  | (.error e, t') => Failed kind s t t' e

section Write

variable {kind : TransportKind} {cfg : TransportConfig} {s : Octets} {t t' : Outbound}

theorem Cause.mono {sends sends' : List Send} {e : PyError} (h : Cause kind sends' e)
    (hsends : sends' <:+ sends) : Cause kind sends e := by
  obtain hblocked | hclosed | ⟨event, hevent, he⟩ := h
  · exact .inl hblocked
  · exact .inr (.inl hclosed)
  · exact .inr (.inr ⟨event, hsends.mem hevent, he⟩)

/-- A call of `send` raises with what it took, or returns how much it took. -/
theorem send_writes (kind : TransportKind) (s : Octets) (t : Outbound) :
    match send s t with
    | (.ok n, t') => n ≤ s.length ∧ Sent t t' (s.take n) ∧ t'.sends.length < t.sends.length
    | (.error e, t') => Failed kind s t t' e := by
  obtain ⟨sent, connected, sends⟩ := t
  cases sends with
  | nil => exact ⟨[], s, rfl, .refl _, .inl rfl, fun _ hne => hne⟩
  | cons event sends =>
      cases event with
      | raise e =>
          refine ⟨[], s, rfl, ⟨(List.append_nil _).symm, rfl, List.suffix_cons _ _⟩, ?_,
            fun _ hne => hne⟩
          exact .inr (.inr ⟨_, List.mem_cons_self, rfl⟩)
      | takes n signal =>
          cases signal with
          | none =>
              exact ⟨Nat.min_le_right _ _, ⟨rfl, rfl, List.suffix_cons _ _⟩, Nat.lt_succ_self _⟩
          | some e =>
              refine ⟨s.take (min n s.length), s.drop (min n s.length),
                (List.take_append_drop _ _).symm, ⟨rfl, rfl, List.suffix_cons _ _⟩, ?_, ?_⟩
              · exact .inr (.inr ⟨_, List.mem_cons_self, rfl⟩)
              · intro hquiet
                exact absurd (hquiet _ List.mem_cons_self) (Option.some_ne_none e)

/-- What is left of a write after a call of `send` is written like the whole. -/
theorem Writes.after {n : Nat} {run : Except PyError Unit × Outbound}
    (hsent : Sent t t' (s.take n)) (hleft : s.drop n ≠ [])
    (h : Writes kind (s.drop n) t' run) : Writes kind s t run := by
  have hs : s.take n ++ s.drop n = s := List.take_append_drop _ _
  obtain ⟨_ | _, t''⟩ := run
  · obtain ⟨taken, rest, hrest, hsent', hcause, hquiet⟩ := h
    refine ⟨s.take n ++ taken, rest, ?_, hsent.trans hsent', hcause.mono hsent.sends, ?_⟩
    · rw [List.append_assoc, ← hrest, hs]
    · intro hall _
      exact hquiet (fun event hevent => hall event (hsent.sends.mem hevent)) hleft
  · have hwhole := hsent.trans h
    rw [hs] at hwhole
    exact hwhole

theorem sendall_writes (fuel : Nat) (s : Octets) (t : Outbound) (hfuel : t.sends.length < fuel) :
    Writes .tcp s t (sendall fuel s t) := by
  induction fuel generalizing s t with
  | zero => omega
  | succ fuel ih =>
      have hsend := send_writes .tcp s t
      simp only [sendall, Effect.bind_run]
      revert hsend
      rcases send s t with ⟨e | n, t'⟩
      · exact id
      · rintro ⟨hn, hsent, hfewer⟩
        by_cases hlt : n < s.length
        · simp only [if_pos hlt]
          apply Writes.after hsent
          · rw [Ne, List.drop_eq_nil_iff]
            omega
          · exact ih _ _ (by omega)
        · simp only [if_neg hlt]
          rw [List.take_of_length_le (by omega)] at hsent
          exact hsent

theorem writeSsl_writes (fuel : Nat) (s : Octets) (t : Outbound)
    (hfuel : t.sends.length < fuel) : Writes .ssl s t (writeSsl fuel s t) := by
  induction fuel generalizing s t with
  | zero => omega
  | succ fuel ih =>
      by_cases hempty : s = []
      · subst hempty
        exact .refl t
      have hsend := send_writes .ssl s t
      simp only [writeSsl, if_neg hempty, Effect.bind_run, Effect.tryCatch]
      revert hsend
      rcases send s t with ⟨e | n, t'⟩
      · rintro ⟨taken, rest, hs, hsent, hcause, hquiet⟩
        by_cases hnull : e = .valueError
        · simp only [if_pos hnull, Effect.pure_run, if_true, Effect.raise_run]
          exact ⟨taken, rest, hs, hsent, .inr (.inl ⟨rfl, rfl⟩), hquiet⟩
        · simp only [if_neg hnull, Effect.raise_run]
          exact ⟨taken, rest, hs, hsent, hcause, hquiet⟩
      · rintro ⟨hn, hsent, hfewer⟩
        by_cases hzero : n = 0
        · subst hzero
          exact ⟨[], s, rfl, hsent, .inr (.inl ⟨rfl, rfl⟩), fun _ hne => hne⟩
        · simp only [if_neg hzero]
          by_cases hdone : s.drop n = []
          · rw [List.take_of_length_le (List.drop_eq_nil_iff.mp hdone)] at hsent
            rw [hdone]
            cases fuel with
            | zero => omega
            | succ fuel => exact hsent
          · exact .after hsent hdone (ih _ _ (by omega))

theorem rawWrite_writes (kind : TransportKind) (s : Octets) (t : Outbound) :
    Writes kind s t (rawWrite kind s t) := by
  cases kind with
  | tcp => exact sendall_writes _ s t (Nat.lt_succ_self _)
  | ssl => exact writeSsl_writes _ s t (Nat.lt_succ_self _)

/-- The transport is disconnected after some errors, and the error goes on. -/
theorem write_run (cfg : TransportConfig) (s : Octets) (t : Outbound) :
    write cfg s t =
      match rawWrite cfg.kind s t with
      | (.ok (), t') => (.ok (), t')
      | (.error e, t') =>
          (.error e,
            { t' with connected := t'.connected && !decide (Connection.drops cfg.platform e) }) := by
  unfold write Effect.tryCatch
  rcases rawWrite cfg.kind s t with ⟨e | _, t'⟩
  · by_cases hdrops : Connection.drops cfg.platform e
    · simp [hdrops]
    · simp [hdrops]
  · rfl

end Write

/-! The writes of a connection -/

/-- A call of `write`: what it was handed, how it ended, and how much of it went out. -/
structure Handover where
  handed : Octets
  outcome : Except PyError Unit
  taken : Octets

def writes (cfg : TransportConfig) : List Octets → Outbound → List Handover × Outbound
  | [], t => ([], t)
  | s :: handed, t =>
      let (outcome, t') := write cfg s t
      let (log, t'') := writes cfg handed t'
      (⟨s, outcome, t'.sent.drop t.sent.length⟩ :: log, t'')

/-- The transport of a frame writer: the last of the writes made so far says how it ends. -/
def transport (cfg : TransportConfig) (t : Outbound) : TransportWrite := fun handed =>
  ((writes cfg handed t).1.getLast?.map Handover.outcome).getD (.ok ())

/-- All of it went out if the call returned, and a part if it raised. -/
structure Handover.Fair (kind : TransportKind) (sends : List Send) (h : Handover) : Prop where
  part : h.taken <+: h.handed
  whole : h.outcome = .ok () → h.taken = h.handed
  cause : ∀ e, h.outcome = .error e → Cause kind sends e
  quiet : (∀ event ∈ sends, event.Quiet) → h.handed ≠ [] → h.taken = h.handed →
    h.outcome = .ok ()

section Runs

variable {cfg : TransportConfig} {t t' : Outbound} {s : Octets}

/-- One call of `write`, as it is noted. -/
theorem write_fair (cfg : TransportConfig) (s : Octets) (t : Outbound) :
    match write cfg s t with
    | (outcome, t') => ∃ taken, (Handover.mk s outcome taken).Fair cfg.kind t.sends ∧
        t'.sent = t.sent ++ taken ∧ t'.sends <:+ t.sends ∧
        (t'.connected = true ↔ t.connected = true ∧
          ∀ e, outcome = .error e → ¬ Connection.drops cfg.platform e) := by
  have hwrites := rawWrite_writes cfg.kind s t
  rw [write_run]
  revert hwrites
  rcases rawWrite cfg.kind s t with ⟨e | _, t'⟩
  · rintro ⟨taken, rest, hs, hsent, hcause, hquiet⟩
    refine ⟨taken, ⟨⟨rest, hs.symm⟩, nofun, ?_, ?_⟩, hsent.sent, hsent.sends, ?_⟩
    · rintro _ ⟨⟩
      exact hcause
    · intro hall hne (htaken : taken = s)
      rw [htaken, List.self_eq_append_right] at hs
      exact absurd hs (hquiet hall hne)
    · simp [hsent.connected]
  · intro hsent
    refine ⟨s, ⟨List.prefix_rfl, fun _ => rfl, nofun, fun _ _ _ => rfl⟩, hsent.sent, hsent.sends, ?_⟩
    simp [hsent.connected]

theorem Handover.Fair.mono {kind : TransportKind} {sends sends' : List Send} {h : Handover}
    (hfair : h.Fair kind sends') (hsends : sends' <:+ sends) : h.Fair kind sends where
  part := hfair.part
  whole := hfair.whole
  cause e he := (hfair.cause e he).mono hsends
  quiet hall := hfair.quiet fun event hevent => hall event (hsends.mem hevent)

/-- What the writes of a run have sent, and when the transport is still connected. -/
structure Noted (cfg : TransportConfig) (t : Outbound) (handed : List Octets)
    (run : List Handover × Outbound) : Prop where
  handed : run.1.map Handover.handed = handed
  fair : ∀ h ∈ run.1, h.Fair cfg.kind t.sends
  sent : run.2.sent = t.sent ++ run.1.flatMap Handover.taken
  connected : run.2.connected = true ↔ t.connected = true ∧
    ∀ h ∈ run.1, ∀ e, h.outcome = .error e → ¬ Connection.drops cfg.platform e

theorem writes_noted (cfg : TransportConfig) (handed : List Octets) (t : Outbound) :
    Noted cfg t handed (writes cfg handed t) := by
  induction handed generalizing t with
  | nil => exact ⟨rfl, nofun, (List.append_nil _).symm, by simp [writes]⟩
  | cons s handed ih =>
      have hwrite := write_fair cfg s t
      unfold writes
      revert hwrite
      rcases write cfg s t with ⟨outcome, t'⟩
      rintro ⟨taken, hfair, hsent, hsends, hconnected⟩
      obtain ⟨hhanded, hfairs, hsents, hconnecteds⟩ := ih t'
      have htaken : t'.sent.drop t.sent.length = taken := by
        rw [hsent, List.drop_left]
      simp only [htaken]
      constructor
      · rw [List.map_cons, hhanded]
      · intro h hmem
        obtain rfl | hrest := List.mem_cons.mp hmem
        · exact hfair
        · exact (hfairs h hrest).mono hsends
      · rw [hsents, hsent, List.flatMap_cons, List.append_assoc]
      · rw [hconnecteds, hconnected, and_assoc, List.forall_mem_cons]

theorem writes_append (cfg : TransportConfig) (handed handed' : List Octets) (t : Outbound) :
    writes cfg (handed ++ handed') t =
      ((writes cfg handed t).1 ++ (writes cfg handed' (writes cfg handed t).2).1,
        (writes cfg handed' (writes cfg handed t).2).2) := by
  induction handed generalizing t with
  | nil => rfl
  | cons s handed ih => simp only [List.cons_append, writes, ih]

/-- The frame writer is told how each of the writes ended. -/
theorem transport_outcome (cfg : TransportConfig) (t : Outbound) {handed : List Octets}
    {before after : List Handover} {h : Handover}
    (hlog : (writes cfg handed t).1 = before ++ ([h] ++ after)) :
    transport cfg t (before.map Handover.handed ++ [h.handed]) = h.outcome := by
  have hhanded := (writes_noted cfg handed t).handed
  have hfirst := (writes_noted cfg (before.map Handover.handed ++ [h.handed]) t).handed
  have hsplit : handed =
      (before.map Handover.handed ++ [h.handed]) ++ after.map Handover.handed := by
    rw [← hhanded, hlog]
    simp
  rw [hsplit, writes_append, ← List.append_assoc before [h]] at hlog
  have hlength : (writes cfg (before.map Handover.handed ++ [h.handed]) t).1.length =
      (before ++ [h]).length := by
    simpa using congrArg List.length hfirst
  rw [transport, (List.append_inj hlog hlength).1]
  simp

end Runs

/-! What a frame writer hands over -/

def HandsFrames (w : Writer) : Prop :=
  ∀ octets ∈ w.handed, ∃ frames : List Frame, (∀ frame ∈ frames, frame.WellFormed) ∧
    octets = frames.flatMap Frame.octets

section Frames

variable {transport : TransportWrite}

theorem HandsFrames.append {w w' : Writer} {frames : List Frame} (h : HandsFrames w)
    (hwf : ∀ frame ∈ frames, frame.WellFormed)
    (hhanded : w'.handed = w.handed ++ [frames.flatMap Frame.octets]) : HandsFrames w' := by
  intro octets hoctets
  rw [hhanded, List.mem_append, List.mem_singleton] at hoctets
  obtain hbefore | rfl := hoctets
  · exact h octets hbefore
  · exact ⟨frames, hwf, rfl⟩

/-- A program of the writer keeps handing over frames, whether it returns or raises. -/
structure Hands {α : Type} (m : Effect Writer PyError α) : Prop where
  triple : Effect.Triple HandsFrames m (fun _ => HandsFrames) fun _ => HandsFrames

namespace Hands

variable {α β : Type}

theorem bind {m : Effect Writer PyError α} {k : α → Effect Writer PyError β} (hm : Hands m)
    (hk : ∀ a, Hands (k a)) : Hands (m >>= k) :=
  ⟨hm.triple.bind fun a => (hk a).triple⟩

theorem liftExcept (r : Except PyError α) : Hands (Effect.liftExcept r) :=
  ⟨.liftExcept (fun _ _ _ h => h) fun _ _ _ h => h⟩

theorem forEach {body : β → Effect Writer PyError Unit} {xs : List β}
    (h : ∀ x, Hands (body x)) : Hands (Effect.forEach body xs) :=
  ⟨.forEach fun x _ => (h x).triple⟩

theorem counted {m : Effect Writer PyError Unit} (h : Hands m) :
    Hands (m >>= fun _ => countSent) :=
  h.bind fun _ => ⟨.modify fun _ hw => hw⟩

theorem of_run {m : Effect Writer PyError α}
    (h : ∀ w, HandsFrames w → HandsFrames (m w).2) : Hands m := by
  constructor
  intro w hw
  have hafter := h w hw
  revert hafter
  rcases m w with ⟨_ | _, w'⟩
  · exact id
  · exact id

theorem handed {m : Effect Writer PyError α} (h : Hands m) {w : Writer} (hw : HandsFrames w) :
    HandsFrames (m w).2 := by
  have hafter := h.triple w hw
  revert hafter
  rcases m w with ⟨_ | _, w'⟩
  · exact id
  · exact id

end Hands

theorem writePacked_hands (transport : TransportWrite) (frame : Frame) :
    Hands (writePacked transport frame.frameType frame.channel frame.payload) := by
  apply Hands.of_run
  intro w hw
  cases hpack : packFrame frame.frameType frame.channel frame.payload with
  | error e =>
      rw [writePacked_error transport w hpack]
      exact hw
  | ok octets =>
      have hframe := packFrame_eq_ok hpack
      rw [writePacked_run transport w hpack]
      apply hw.append (List.forall_mem_singleton.mpr hframe.1)
      rw [List.flatMap_singleton, hframe.2]

theorem writeFast_hands (transport : TransportWrite) (frameType channel : Nat)
    (methodSig : Option MethodSig) (args : Option Octets) (content : Option (Octets × Octets))
    (chunkSize : Int) :
    Hands (writeFast transport frameType channel methodSig args content chunkSize) := by
  apply Hands.of_run
  intro w hw
  by_cases hfits : ∃ frames, fastFrames frameType channel methodSig args content = .ok frames ∧
      Fits (w.resized chunkSize).buf.length frames
  · obtain ⟨frames, hframes, hfit⟩ := hfits
    obtain ⟨buf, -, hrun⟩ := writeFast_run transport chunkSize w hframes hfit
    rw [hrun]
    exact hw.append hfit.1 rfl
  · obtain ⟨e, buf, -, hrun⟩ := writeFast_raises transport chunkSize w
      fun frames hframes hfit => hfits ⟨frames, hframes, hfit⟩
    rw [hrun]
    exact hw

theorem writeSlow_hands (transport : TransportWrite) (frameType channel : Nat)
    (methodSig : Option MethodSig) (args : Option Octets) (properties body : Octets)
    (chunkSize : Int) :
    Hands (writeSlow transport frameType channel methodSig args properties body chunkSize) := by
  unfold writeSlow
  apply (Hands.liftExcept _).bind
  intro method
  apply (writePacked_hands transport ⟨frameType, channel, method⟩).bind
  intro _
  split
  · apply (Hands.liftExcept _).bind
    intro header
    apply (writePacked_hands transport ⟨2, channel, header⟩).bind
    intro _
    apply (Hands.liftExcept _).bind
    intro offsets
    exact .forEach fun i => writePacked_hands transport ⟨3, channel, _⟩
  · exact ⟨.pure () fun _ h => h⟩

theorem writeFrame_hands (transport : TransportWrite) (codec : Codec) (call : WriteCall) :
    Hands (call.run transport codec) := by
  apply Hands.of_run
  intro w hw
  unfold WriteCall.run
  cases call.content with
  | none =>
      rw [writeFrame_bare]
      exact (writeFast_hands transport _ _ _ _ _ _).counted.handed hw
  | some content =>
      cases hcontent : contentOctets codec content with
      | error e =>
          rw [writeFrame_content_error transport _ _ _ _ w hcontent]
          exact hw
      | ok value =>
          cases call.args with
          | none =>
              rw [writeFrame_content_argless transport _ _ _ w hcontent]
              exact hw
          | some args =>
              rw [writeFrame_content transport _ _ _ args w hcontent]
              by_cases hbig : Big w args.toBytes value.2 value.1
              · rw [if_pos hbig]
                exact (writeSlow_hands transport _ _ _ _ _ _ _).counted.handed hw
              · rw [if_neg hbig]
                exact (writeFast_hands transport _ _ _ _ _ _).counted.handed hw

/-- Over all calls and tunes, whatever the transport does. -/
theorem session_hands (transport : TransportWrite) (codec : Codec) (events : List WriterEvent)
    {session : Session} (h : HandsFrames session.writer) :
    HandsFrames (events.foldl (Session.step transport codec) session).writer := by
  induction events generalizing session with
  | nil => exact h
  | cons event events ih =>
      apply ih
      cases event with
      | tune frameMax => exact h
      | write call => exact (writeFrame_hands transport codec call).handed h

end Frames

/-- The frames that went out in a call, where what went out is frames. -/
def Handover.Carries (frames : List Frame) (h : Handover) : Prop :=
  (∀ frame ∈ frames, frame.WellFormed) ∧ h.taken = frames.flatMap Frame.octets

/-- The call was handed frames; what went out are the first of them, or it ends inside of
one. -/
def Handover.Framed (h : Handover) : Prop :=
  ∃ batch : List Frame, (∀ frame ∈ batch, frame.WellFormed) ∧
    h.handed = batch.flatMap Frame.octets ∧
    ∀ frames, h.Carries frames → frames <+: batch ∧ (h.outcome = .ok () → frames = batch)

theorem Handover.Fair.framed {kind : TransportKind} {sends : List Send} {h : Handover}
    (hfair : h.Fair kind sends) {batch : List Frame}
    (hbatch : ∀ frame ∈ batch, frame.WellFormed) (hhanded : h.handed = batch.flatMap Frame.octets) :
    h.Framed := by
  refine ⟨batch, hbatch, hhanded, fun frames ⟨hframes, htaken⟩ => ⟨?_, fun hok => ?_⟩⟩
  · apply Frame.prefix_of_octets hframes hbatch
    rw [← htaken, ← hhanded]
    exact hfair.part
  · have hwhole : frames.flatMap Frame.octets = batch.flatMap Frame.octets := by
      rw [← htaken, ← hhanded, hfair.whole hok]
    have hthere := Frame.prefix_of_octets hframes hbatch (hwhole ▸ List.prefix_rfl)
    have hback := Frame.prefix_of_octets hbatch hframes (hwhole ▸ List.prefix_rfl)
    exact hthere.eq_of_length_le hback.length_le

theorem carried_octets {arrived : List (List Frame)} {log : List Handover}
    (h : List.Forall₂ (fun frames entry => Handover.Carries frames entry) arrived log) :
    (∀ frame ∈ arrived.flatten, frame.WellFormed) ∧
      log.flatMap Handover.taken = arrived.flatten.flatMap Frame.octets := by
  induction h with
  | nil => exact ⟨nofun, rfl⟩
  | cons hcarries _ ih =>
      obtain ⟨hwf, hoctets⟩ := ih
      constructor
      · intro frame hframe
        rw [List.flatten_cons, List.mem_append] at hframe
        exact hframe.elim (hcarries.1 frame) (hwf frame)
      · rw [List.flatMap_cons, List.flatten_cons, List.flatMap_append, hoctets, hcarries.2]

/-- However the calls of `send` cut up what a frame writer hands over and wherever they
raise, the wire has a part of every call's frames, in order, and all of them for a call that
returned; the transport stays connected unless an error was one that disconnects. As long
as no call stopped inside of a frame, the peer reads the frames that went out, and no
others. -/
theorem session_received (cfg : TransportConfig) (codec : Codec) (frameMax : Nat) (buf : Octets)
    (events : List WriterEvent) (t : Outbound) :
    let session := events.foldl (Session.step (transport cfg t) codec)
      { writer := { frameMax, buf } }
    let log := (writes cfg session.writer.handed t).1
    let t' := (writes cfg session.writer.handed t).2
    log.map Handover.handed = session.writer.handed ∧
      (∀ before h after, log = before ++ h :: after →
        transport cfg t (before.map Handover.handed ++ [h.handed]) = h.outcome) ∧
      (∀ h ∈ log, h.Fair cfg.kind t.sends ∧ h.Framed) ∧
      t'.sent = t.sent ++ log.flatMap Handover.taken ∧
      (t'.connected = true ↔ t.connected = true ∧
        ∀ h ∈ log, ∀ e, h.outcome = .error e → ¬ Connection.drops cfg.platform e) ∧
      ∀ arrived, List.Forall₂ (fun frames h => Handover.Carries frames h) arrived log →
        ∀ (peer : TransportConfig) (r : Transport) (calls : Nat),
          r.readBuffer ++ r.unread = log.flatMap Handover.taken →
          (∀ event ∈ r.schedule, Transport.Survivable peer event) →
          r.unread.length ≤ Transport.pieces r.schedule →
          arrived.flatten.length + r.schedule.length < calls →
          (Transport.readFrames peer calls r).1 = arrived.flatten := by
  intro session log t'
  have hnoted : Noted cfg t session.writer.handed (log, t') := writes_noted cfg _ t
  have hhands : HandsFrames session.writer := session_hands _ codec events nofun
  refine ⟨hnoted.handed, fun before h after hlog => transport_outcome cfg t hlog,
    fun h hmem => ⟨hnoted.fair h hmem, ?_⟩, hnoted.sent, hnoted.connected, ?_⟩
  · have hhanded : h.handed ∈ session.writer.handed := by
      rw [← hnoted.handed]
      exact List.mem_map_of_mem hmem
    obtain ⟨batch, hbatch, hoctets⟩ := hhands _ hhanded
    exact (hnoted.fair h hmem).framed hbatch hoctets
  · intro arrived hcarried peer r calls hstream hschedule hpieces hcalls
    obtain ⟨hwf, hoctets⟩ := carried_octets hcarried
    apply Transport.readFrames_all hwf hschedule _ (.inl hpieces) hcalls
    rw [hstream, hoctets]

end Outbound

end PyAmqp
