import PyAmqp.Connection.Drain
import PyAmqp.LoopBack

/-!
What the channels of a connection are told. The items of each channel come in their order,
as soon as their last frame is read, whatever else is on the stream and whoever reads it.
-/

namespace PyAmqp

open Demultiplex

/-! One channel -/

namespace Item

/-- The items that are complete with the first `n` frames of their channel. -/
def complete (channel : Nat) : Nat → List Item → List Item
  | _, [] => []
  | n, item :: items =>
      let length := (item.frames channel).length
      if length ≤ n then item :: complete channel (n - length) items else []

variable {channel : Nat}

theorem complete_all (channel : Nat) (items : List Item) :
    complete channel (items.flatMap (frames channel)).length items = items := by
  induction items with
  | nil => rfl
  | cons item items ih =>
      simp only [complete, List.flatMap_cons, List.length_append, Nat.le_add_right, if_true,
        Nat.add_sub_cancel_left, ih]

theorem traceOf_length (call : Call) (frames : List Frame) :
    (traceOf call frames).length = frames.length := by
  induction frames with
  | nil => rfl
  | cons frame frames ih =>
      cases frames with
      | nil => rfl
      | cons next rest => simp only [traceOf, List.length_cons, ih]

/-- Nothing is called before the last frame. -/
theorem traceOf_take (call : Call) {frames : List Frame} {n : Nat} (h : n < frames.length) :
    ((traceOf call frames).take n).flatMap (fun entry => entry.2.calls) = [] := by
  induction frames generalizing n with
  | nil => simp at h
  | cons frame frames ih =>
      cases n with
      | zero => rfl
      | succ n =>
          cases frames with
          | nil => simp at h
          | cons next rest =>
              simp only [traceOf, List.take_succ_cons, List.flatMap_cons, List.nil_append]
              exact ih (Nat.lt_of_succ_lt_succ h)

theorem trace_length (channel : Nat) (item : Item) :
    (item.trace channel).length = (item.frames channel).length :=
  traceOf_length _ _

/-- With the first frames of a channel come the calls of the items that are complete. -/
theorem calls_take (channel n : Nat) (items : List Item) :
    ((items.flatMap (trace channel)).take n).flatMap (fun entry => entry.2.calls) =
      (complete channel n items).map (call channel) := by
  induction items generalizing n with
  | nil => simp [complete]
  | cons item items ih =>
      have hlength := trace_length channel item
      simp only [List.flatMap_cons, complete]
      by_cases hn : (item.frames channel).length ≤ n
      · have hrest := ih (n - (item.frames channel).length)
        rw [if_pos hn, List.take_append, hlength, List.take_of_length_le (by omega),
          List.flatMap_append, hrest, trace, (traceOf_calls _ (frames_ne_nil channel item)).1]
        rfl
      · rw [if_neg hn, List.take_append_of_le_length (by omega)]
        exact traceOf_take _ (by omega)

end Item

/-! All channels -/

/-- A frame calls for its own channel. -/
theorem Decoder.step_channel (d : Decoder) (frame : Frame) :
    ∀ call ∈ (d.step frame).1.calls, call.channel = frame.channel := by
  unfold Decoder.step
  split
  · simp [Decoder.wait]
  split
  · simp [Decoder.fail]
  cases d with
  | idle =>
      simp only [Decoder.onMethod]
      split
      · simp [Decoder.fail]
      split
      · simp [Decoder.wait]
      · simp
  | header msg =>
      simp only [Decoder.onHeader]
      split
      · simp [Decoder.fail]
      split
      · simp [Decoder.deliver, Decoder.call]
      · simp [Decoder.wait]
  | body msg =>
      simp only [Decoder.onBody]
      split
      · simp [Decoder.deliver, Decoder.call]
      · simp [Decoder.wait]

/-- The frames of one channel have the outcomes that they have alone. -/
theorem onFrameStep_alone (frames : List Frame) (channel : Nat) :
    ((run onFrameStep {} frames).1.filter fun entry =>
        entry.1.channel = channel ∧ entry.1.frameType ≠ 8) =
      (run Decoder.step .idle
        (frames.filter fun frame => frame.channel = channel ∧ frame.frameType ≠ 8)).1 := by
  have hchannel := congrArg Prod.fst
    (run_filter Decoder.step Frame.channel (fun _ => .idle) frames channel)
  have hbeat : ∀ (d : Decoder) (frame : Frame),
      decide (frame.frameType ≠ 8) = false → (d.step frame).2 = d := by
    intro d frame hframe
    have h8 : frame.frameType = 8 := by simpa using hframe
    simp [Decoder.step, h8, Decoder.wait]
  have hskip := congrArg Prod.fst (run_skip hbeat Decoder.idle
    (frames.filter fun frame => frame.channel = channel))
  simp only [List.filter_filter, ← hchannel] at hskip
  rw [onFrameStep_run]
  simp only [Bool.decide_and]
  simp only [Bool.and_comm (decide (_ = channel))]
  exact hskip

/-- A call is made by a frame of its channel, and by no heartbeat. -/
theorem outcome_calls {frames : List Frame} {entry : Frame × Outcome}
    (h : entry ∈ (run onFrameStep {} frames).1) :
    (∀ call ∈ entry.2.calls, call.channel = entry.1.channel) ∧
      (entry.1.frameType = 8 → entry.2.calls = []) := by
  rw [onFrameStep_run] at h
  obtain ⟨decoders, hout⟩ := run_mem h
  rw [hout]
  constructor
  · exact Decoder.step_channel (decoders entry.1.channel) entry.1
  · intro hbeat
    simp [stepAt, Decoder.step, hbeat, Decoder.wait]

theorem flatMap_calls_filter {entries : List (Frame × Outcome)} (channel : Nat)
    (h : ∀ entry ∈ entries, (∀ call ∈ entry.2.calls, call.channel = entry.1.channel) ∧
      (entry.1.frameType = 8 → entry.2.calls = [])) :
    ((entries.flatMap fun entry => entry.2.calls).filter fun call => call.channel = channel) =
      (entries.filter fun entry => entry.1.channel = channel ∧ entry.1.frameType ≠ 8).flatMap
        fun entry => entry.2.calls := by
  induction entries with
  | nil => rfl
  | cons entry entries ih =>
      have hrest := ih fun other hother => h other (List.mem_cons_of_mem _ hother)
      obtain ⟨hcalls, hbeat⟩ := h entry List.mem_cons_self
      rw [List.flatMap_cons, List.filter_append, hrest]
      by_cases hchannel : entry.1.channel = channel
      · have hall : entry.2.calls.filter (fun call => call.channel = channel) = entry.2.calls := by
          rw [List.filter_eq_self]
          intro call hcall
          simpa [hchannel] using hcalls call hcall
        rw [hall]
        by_cases htype : entry.1.frameType = 8
        · rw [hbeat htype, List.filter_cons_of_neg (by simp [htype]), List.nil_append]
        · rw [List.filter_cons_of_pos (by simp [hchannel, htype]), List.flatMap_cons]
      · have hnone : entry.2.calls.filter (fun call => call.channel = channel) = [] := by
          rw [List.filter_eq_nil_iff]
          intro call hcall
          simpa [hcalls call hcall] using hchannel
        rw [hnone, List.filter_cons_of_neg (by simp [hchannel]), List.nil_append]

/-- The items of a channel that are complete have been called for, and no others. -/
theorem calls_complete {items : Nat → List Item} {frames done rest : List Frame}
    (h : Interleaved items frames) (hsplit : frames = done ++ rest) (channel : Nat) :
    (((run onFrameStep {} done).1.flatMap fun entry => entry.2.calls).filter
        fun call => call.channel = channel) =
      (Item.complete channel
        (done.filter fun frame => frame.channel = channel ∧ frame.frameType ≠ 8).length
        (items channel)).map (Item.call channel) := by
  let own := done.filter fun frame => frame.channel = channel ∧ frame.frameType ≠ 8
  have hown : own = ((items channel).flatMap (Item.frames channel)).take own.length := by
    rw [← h channel, hsplit, List.filter_append]
    exact (List.take_left' rfl).symm
  have hitems := run_flatMap fun item (_ : item ∈ items channel) => run_item channel item
  rw [flatMap_calls_filter channel fun entry => outcome_calls, onFrameStep_alone]
  change (run Decoder.step .idle own).1.flatMap _ = _
  rw [hown, run_take, hitems, Item.calls_take]

namespace Inlet

/-- A stream of the items of some channels, however their frames are interleaved, and however
`recv` cuts it up and times out: whatever code drains it, each channel has been called with its
own items in their order, each once, up to the last one whose frames have all been read. Code
that waits for ever has had all of them if `recv` has returned all octets, as it has after as
many pieces as there are octets. -/
theorem Client.run_delivers (cfg : Config) (client : Client) (items : Nat → List Item)
    (frames : List Frame) (t : Transport) (base : Option Nat) (hitems : Interleaved items frames)
    (hframes : ∀ frame ∈ frames, frame.WellFormed)
    (hschedule : ∀ event ∈ t.schedule, Transport.Survivable cfg.toTransportConfig event)
    (hstream : t.readBuffer ++ t.unread = frames.flatMap Frame.octets) :
    let result := (client.run cfg { transport := t, timeout := base }).1
    let s := (client.run cfg { transport := t, timeout := base }).2
    ∃ done rest, frames = done ++ rest ∧
      (∀ channel, (s.handler.calls.filter fun call => call.channel = channel) =
        (Item.complete channel
          (done.filter fun frame => frame.channel = channel ∧ frame.frameType ≠ 8).length
          (items channel)).map (Item.call channel)) ∧
      (s.stream = rest.flatMap Frame.octets ∨
        (result = .error .blocked ∧
          (t.unread.length ≤ Transport.pieces t.schedule ∨ s.transport.unread = [] →
            ∀ channel, (s.handler.calls.filter fun call => call.channel = channel) =
              (items channel).map (Item.call channel)))) := by
  intro result s
  obtain ⟨done, rest, hsplit, -, hhandler, hends⟩ :=
    Client.run_ends cfg client frames t base hframes hschedule hstream
  have hcalls : ∀ channel, (s.handler.calls.filter fun call => call.channel = channel) =
      (Item.complete channel
        (done.filter fun frame => frame.channel = channel ∧ frame.frameType ≠ 8).length
        (items channel)).map (Item.call channel) := by
    intro channel
    have hhandled : s.handler.calls = (handled done).calls := congrArg Handler.calls hhandler
    rw [hhandled, handled_calls]
    exact calls_complete hitems hsplit channel
  refine ⟨done, rest, hsplit, hcalls, ?_⟩
  obtain hleft | ⟨hblocked, hall⟩ := hends
  · exact .inl hleft
  · right
    refine ⟨hblocked, fun henough channel => ?_⟩
    have hdone : frames = done := by rw [hsplit, hall henough, List.append_nil]
    rw [hcalls, ← hdone, hitems channel, Item.complete_all]

/-- Two channels and a heartbeat, drained by callbacks that drain and raise. -/
theorem Client.run_delivers_two :
    ∃ (items : Nat → List Item) (frames : List Frame) (t : Transport),
      (frames.map fun frame => (frame.frameType, frame.channel)) =
        [(1, 1), (2, 1), (1, 2), (3, 1), (8, 0), (3, 1)] ∧
      let s := (nestedDrains.run
        { platform := ⟨11, 4, 2, 11, false⟩, kind := .tcp, incomplete := fun _ => false }
        { transport := t }).2
      ∃ done rest, frames = done ++ rest ∧
        ∀ channel, (s.handler.calls.filter fun call => call.channel = channel) =
          (Item.complete channel
            (done.filter fun frame => frame.channel = channel ∧ frame.frameType ≠ 8).length
            (items channel)).map (Item.call channel) := by
  let header : Octets := [0, 60, 0, 0, 0, 0, 0, 0, 0, 0, 0, 2, 0, 0]
  have hproperties : decodePropertiesBasic header 12 = .ok ([], 14) := by
    have hflags : unpackFrom 2 header 12 = .ok (0, 14) := rfl
    simp only [decodePropertiesBasic, bind, Cursor.bind, hflags]
    rfl
  let delivery : Item := .content [0, 60, 0, 60] Spec.Basic.deliver rfl (by decide) header 2 []
    rfl ⟨14, hproperties⟩ [[7], [8]] rfl (by decide)
  let method : Item := .method [0, 20, 0, 20] Spec.Channel.flow rfl (by decide)
  let frames : List Frame := [⟨1, 1, [0, 60, 0, 60]⟩, ⟨2, 1, header⟩, ⟨1, 2, [0, 20, 0, 20]⟩,
    ⟨3, 1, [7]⟩, ⟨8, 0, []⟩, ⟨3, 1, [8]⟩]
  let t : Transport :=
    { unread := frames.flatMap Frame.octets
      schedule := .raise .socketTimeout :: List.replicate 90 (.piece 3) }
  refine ⟨fun channel => if channel = 1 then [delivery] else if channel = 2 then [method] else [],
    frames, t, rfl, ?_⟩
  obtain ⟨done, rest, hsplit, hcalls, -⟩ := Client.run_delivers
    { platform := ⟨11, 4, 2, 11, false⟩, kind := .tcp, incomplete := fun _ => false }
    nestedDrains (fun channel => if channel = 1 then [delivery] else if channel = 2 then [method]
      else []) frames t none
    (by
      intro channel
      by_cases h1 : channel = 1
      · subst h1
        rfl
      · by_cases h2 : channel = 2
        · subst h2
          rfl
        · simp [frames, h1, h2, Ne.symm h1, Ne.symm h2])
    (by
      intro frame hframe
      simp only [frames, List.mem_cons, List.not_mem_nil, or_false] at hframe
      rcases hframe with rfl | rfl | rfl | rfl | rfl | rfl <;>
        exact ⟨by decide, by decide, by decide⟩)
    (by simp [t, Transport.Survivable])
    rfl
  exact ⟨done, rest, hsplit, hcalls⟩

end Inlet

end PyAmqp
