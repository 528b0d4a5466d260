import PyAmqp.Connection.Heartbeat
import PyAmqp.Base.Run
import Mathlib.Data.List.Chain
import Mathlib.Data.List.TakeWhile
import Mathlib.Algebra.Order.Field.Basic
import Mathlib.Algebra.Field.Rat

/-!
How long a ticking connection can be silent. A tick takes its own time for writes it
has not seen yet, its heartbeats among them, so `last_heartbeat_sent` is at most a tick
late, and the next heartbeat, whose time is rounded to a float, at most another one.
-/

namespace PyAmqp

open Binary64

namespace Heartbeat

def tickTimes (events : List (ℚ × Event)) : List ℚ :=
  events.filterMap fun
    | (time, .tick _) => some time
    | _ => none

def isTick : Event → Bool
  | .tick _ => true
  | _ => false

/-- The times of the frames that are written: each is counted in `bytes_sent`. -/
def writeTimes (transport : TransportWrite) (codec : Codec) :
    Heartbeat → List (ℚ × Event) → List ℚ
  | _, [] => []
  | s, event :: events =>
      let s' := s.step transport codec event
      if s'.writer.bytesSent = s.writer.bytesSent then writeTimes transport codec s' events
      else event.1 :: writeTimes transport codec s' events

/-- A heartbeat that is due is written. -/
def Beats (transport : TransportWrite) (codec : Codec) (s : Heartbeat) : ℚ × Event → Prop
  | (time, .tick rate) =>
      ∀ h ∈ s.heartbeat, s.Due h rate time → (beat transport codec s).1 = .ok ()
  | _ => True

/-- The times are at most `gap` apart. -/
def Within (gap : ℚ) (times : List ℚ) : Prop := times.IsChain fun a b => b - a ≤ gap

/-- Each of the times is followed until `next` of it. -/
def Spaced (next : ℚ → ℚ) (times : List ℚ) : Prop := times.IsChain fun a b => b ≤ next a

/-- From a tick at `tick` to one at `last`, tick after tick. -/
def Ticking (rate τ last : ℚ) : ℚ → List (ℚ × Event) → Prop
  | tick, [] => tick = last
  | tick, (time, .tick rate') :: events =>
      tick ≤ time ∧ time ≤ tick + τ ∧ IsFloat time ∧ rate' = rate ∧
        Ticking rate τ last time events
  | tick, (time, _) :: events =>
      tick ≤ time ∧ time ≤ tick + τ ∧ Ticking rate τ last tick events

section Invariant

variable {transport : TransportWrite} {codec : Codec} {s : Heartbeat}
  {h rate τ tick mark time : ℚ}

theorem effectiveRate_pos (rate : ℚ) : 0 < effectiveRate rate := by
  unfold effectiveRate
  split
  · norm_num
  next hrate => exact not_le.mp hrate

theorem nextHeartbeat_mono (h rate : ℚ) {a b : ℚ} (hab : a ≤ b) :
    nextHeartbeat h rate a ≤ nextHeartbeat h rate b :=
  nearest_mono (add_le_add_left hab _)

/-- A heartbeat is not due before the time it counts from. -/
theorem le_nextHeartbeat (rate : ℚ) (hh : 0 < h) (hclock : IsFloat time) {a : ℚ}
    (ha : time ≤ a) : time ≤ nextHeartbeat h rate a := by
  apply hclock.le_nearest
  have hperiod : 0 ≤ nearest (h / effectiveRate rate) :=
    nearest_nonneg (div_nonneg hh.le (effectiveRate_pos rate).le)
  linarith

/-- After the tick at `tick`: the last write, or the first tick, is at `mark`. Either it
has been noted, at most a tick late, or it is not before the last tick. -/
structure Keeping (h rate τ tick mark : ℚ) (s : Heartbeat) : Prop where
  heartbeat : s.heartbeat = some h
  clock : IsFloat tick
  counted : ∃ n, s.prevSent = some n ∧ n ≤ s.writer.bytesSent
  noted : (s.prevSent = some s.writer.bytesSent ∧ s.lastHeartbeatSent ≤ mark + τ ∧
      tick ≤ nextHeartbeat h rate s.lastHeartbeatSent) ∨
    (s.prevSent ≠ some s.writer.bytesSent ∧ tick ≤ mark)

/-- The last tick is not late for a heartbeat after the last write. -/
theorem Keeping.early (hkeeping : s.Keeping h rate τ tick mark) (hh : 0 < h) (hτ : 0 ≤ τ) :
    tick ≤ nextHeartbeat h rate (mark + τ) := by
  rcases hkeeping.noted with ⟨-, hsent, htick⟩ | ⟨-, htick⟩
  · exact htick.trans (nextHeartbeat_mono h rate hsent)
  · apply le_nextHeartbeat rate hh hkeeping.clock
    linarith

theorem Keeping.write (hkeeping : s.Keeping h rate τ tick mark) (hfrom : tick ≤ time)
    {writer : Writer} (hsent : writer.bytesSent = s.writer.bytesSent + 1) :
    ({ s with writer } : Heartbeat).Keeping h rate τ tick time := by
  obtain ⟨n, hn, hle⟩ := hkeeping.counted
  refine ⟨hkeeping.heartbeat, hkeeping.clock, ⟨n, hn, by simp only [hsent]; omega⟩,
    .inr ⟨?_, hfrom⟩⟩
  simp only [hn, hsent, ne_eq, Option.some.injEq]
  omega

theorem Keeping.unwritten (hkeeping : s.Keeping h rate τ tick mark) {writer : Writer}
    (hsent : writer.bytesSent = s.writer.bytesSent) :
    ({ s with writer } : Heartbeat).Keeping h rate τ tick mark := by
  refine ⟨hkeeping.heartbeat, hkeeping.clock, ?_, ?_⟩
  · simpa only [hsent] using hkeeping.counted
  · simpa only [hsent] using hkeeping.noted

/-- A tick where no heartbeat is due has noted all writes. -/
theorem Keeping.quiet (hkeeping : s.Keeping h rate τ tick mark) (hto : time ≤ tick + τ)
    (hclock : IsFloat time) (hdue : ¬ s.Due h rate time) :
    (s.observe time).Keeping h rate τ time mark := by
  refine ⟨hkeeping.heartbeat, hclock, ⟨_, rfl, le_refl _⟩, .inl ⟨rfl, ?_, not_lt.mp hdue⟩⟩
  simp only [observe]
  rcases hkeeping.noted with ⟨hsame, hsent, -⟩ | ⟨hother, htick⟩
  · rw [if_neg (not_not.mpr hsame)]
    exact hsent
  · rw [if_pos hother]
    linarith

/-- After a heartbeat, the tick itself is the last write. -/
theorem Keeping.sends (hs : s.heartbeat = some h) (hclock : IsFloat time) {writer : Writer}
    (hsent : writer.bytesSent = s.writer.bytesSent + 1) :
    ({ s.observe time with writer := writer, lastHeartbeatSent := time } : Heartbeat).Keeping
      h rate τ time time := by
  refine ⟨hs, hclock, ⟨_, rfl, ?_⟩, .inr ⟨?_, le_refl _⟩⟩
  · simp only [hsent]
    omega
  · simp [observe, hsent]

/-- The last tick after an event. -/
def tickAfter (tick : ℚ) (event : ℚ × Event) : ℚ := if isTick event.2 then event.1 else tick

/-- One event keeps the invariant, with its own time for the mark if it has written. -/
theorem Keeping.step (hkeeping : s.Keeping h rate τ tick mark) (hh : 0 < h)
    {event : ℚ × Event} (hfrom : tick ≤ event.1) (hto : event.1 ≤ tick + τ)
    (hbeats : Beats transport codec s event)
    (htick : ∀ r, event.2 = .tick r → IsFloat event.1 ∧ r = rate) :
    ((s.step transport codec event).writer.bytesSent = s.writer.bytesSent ∧
      (s.step transport codec event).Keeping h rate τ (tickAfter tick event) mark) ∨
    ((s.step transport codec event).writer.bytesSent ≠ s.writer.bytesSent ∧
      (s.step transport codec event).Keeping h rate τ (tickAfter tick event) event.1) := by
  obtain ⟨time, event⟩ := event
  cases event with
  | frame frame =>
      exact .inl ⟨rfl, hkeeping.heartbeat, hkeeping.clock, hkeeping.counted, hkeeping.noted⟩
  | write call =>
      have hcount := writeFrame_bytesSent transport codec call.frameType call.channel
        call.methodSig call.args call.content s.writer
      split at hcount
      · exact .inr ⟨fun hsame => Nat.succ_ne_self _ (hcount.symm.trans hsame),
          hkeeping.write hfrom hcount⟩
      · exact .inl ⟨hcount, hkeeping.unwritten hcount⟩
  | tick rate' =>
      obtain ⟨hclock, rfl⟩ : IsFloat time ∧ rate' = rate := htick rate' rfl
      simp only [Heartbeat.step, tickAfter, isTick, if_true]
      by_cases hdue : s.Due h rate' time
      · right
        have hok := hbeats h hkeeping.heartbeat hdue
        have hcount := writeFrame_bytesSent transport codec 8 0 none none none s.writer
        rw [heartbeatTick_sends hkeeping.heartbeat hh hdue]
        cases hbeat : beat transport codec s with
        | mk r writer =>
            rw [hbeat] at hok
            obtain rfl : r = .ok () := hok
            rw [← beat, hbeat] at hcount
            change writer.bytesSent = s.writer.bytesSent + 1 at hcount
            simp only [checkReceived_state]
            exact ⟨by simp [hcount], Keeping.sends hkeeping.heartbeat hclock hcount⟩
      · left
        rw [heartbeatTick_quiet hkeeping.heartbeat hh hdue, checkReceived_state]
        exact ⟨rfl, hkeeping.quiet hto hclock hdue⟩

theorem Ticking.next {last : ℚ} {event : ℚ × Event} {events : List (ℚ × Event)}
    (h : Ticking rate τ last tick (event :: events)) :
    tick ≤ event.1 ∧ event.1 ≤ tick + τ ∧
      (∀ r, event.2 = .tick r → IsFloat event.1 ∧ r = rate) ∧
      Ticking rate τ last (tickAfter tick event) events := by
  obtain ⟨time, event⟩ := event
  cases event with
  | tick rate' =>
      obtain ⟨hfrom, hto, hclock, rfl, hticking⟩ := h
      exact ⟨hfrom, hto, fun r hr => ⟨hclock, by simpa using hr.symm⟩, hticking⟩
  | frame frame =>
      obtain ⟨hfrom, hto, hticking⟩ := h
      exact ⟨hfrom, hto, by simp, hticking⟩
  | write call =>
      obtain ⟨hfrom, hto, hticking⟩ := h
      exact ⟨hfrom, hto, by simp, hticking⟩

/-- From the first tick to the last: no two writes are far apart, and neither are the
last write and the last tick. -/
theorem Keeping.run (hkeeping : s.Keeping h rate τ tick mark) (hh : 0 < h) (hτ : 0 ≤ τ)
    {last : ℚ} {events : List (ℚ × Event)} (hticking : Ticking rate τ last tick events)
    (hbeats : Run.Along (Heartbeat.step transport codec) (Beats transport codec) s events) :
    Spaced (fun a => nextHeartbeat h rate (a + τ) + τ)
        (mark :: writeTimes transport codec s events) ∧
      ∀ z ∈ (mark :: writeTimes transport codec s events).getLast?,
        last ≤ nextHeartbeat h rate (z + τ) := by
  induction events generalizing s tick mark with
  | nil =>
      obtain rfl : tick = last := hticking
      refine ⟨List.isChain_singleton mark, ?_⟩
      intro z hz
      obtain rfl : mark = z := by simpa [writeTimes] using hz
      exact hkeeping.early hh hτ
  | cons event events ih =>
      obtain ⟨hfrom, hto, htick, hticking⟩ : tick ≤ event.1 ∧ event.1 ≤ tick + τ ∧
          (∀ r, event.2 = .tick r → IsFloat event.1 ∧ r = rate) ∧
          Ticking rate τ last (tickAfter tick event) events := hticking.next
      rcases hkeeping.step hh hfrom hto hbeats.1 htick with ⟨hsame, hnext⟩ | ⟨hwritten, hnext⟩
      · simp only [writeTimes, if_pos hsame]
        exact ih hnext hticking hbeats.2
      · obtain ⟨hchain, hend⟩ := ih hnext hticking hbeats.2
        simp only [writeTimes, if_neg hwritten]
        have hearly := hkeeping.early hh hτ
        refine ⟨List.isChain_cons_cons.mpr ⟨?_, hchain⟩, ?_⟩
        · exact hto.trans (add_le_add_left hearly τ)
        rw [List.getLast?_cons_cons]
        exact hend

end Invariant

/-! Ticks -/

theorem mem_tickTimes {events : List (ℚ × Event)} {time : ℚ} :
    time ∈ tickTimes events ↔ ∃ rate, (time, .tick rate) ∈ events := by
  simp only [tickTimes, List.mem_filterMap]
  constructor
  · rintro ⟨⟨time', event⟩, hmem, hevent⟩
    cases event <;> simp at hevent
    subst hevent
    exact ⟨_, hmem⟩
  · rintro ⟨rate, hmem⟩
    exact ⟨_, hmem, rfl⟩

theorem ticking_of_times {rate τ tick last : ℚ} {events : List (ℚ × Event)}
    (horder : (tick :: events.map Prod.fst).Pairwise (· ≤ ·))
    (hrates : ∀ time rate', (time, .tick rate') ∈ events → IsFloat time ∧ rate' = rate)
    (hticks : Within τ (tick :: tickTimes events))
    (hlast : (events = [] ∧ tick = last) ∨ ∃ rate', events.getLast? = some (last, .tick rate')) :
    Ticking rate τ last tick events := by
  induction events generalizing tick with
  | nil =>
      rcases hlast with ⟨-, hlast⟩ | ⟨rate', hlast⟩
      · exact hlast
      · simp at hlast
  | cons event events ih =>
      obtain ⟨time, event⟩ := event
      obtain ⟨hfrom, hrest⟩ := List.pairwise_cons.mp horder
      have hrates' : ∀ time rate', (time, .tick rate') ∈ events → IsFloat time ∧ rate' = rate :=
        fun t r ht => hrates t r (by simp [ht])
      have hother : (∀ rate', event ≠ .tick rate') → tick ≤ time ∧ time ≤ tick + τ ∧
          Ticking rate τ last tick events := by
        intro hevent
        have htimes : tickTimes ((time, event) :: events) = tickTimes events := by
          cases event with
          | tick rate' => exact absurd rfl (hevent rate')
          | frame frame => rfl
          | write call => rfl
        rw [htimes] at hticks
        have hlast' : ∃ rate', events.getLast? = some (last, .tick rate') := by
          rcases hlast with ⟨hnil, -⟩ | ⟨rate', hlast⟩
          · simp at hnil
          · cases events with
            | nil => simp [hevent rate'] at hlast
            | cons e es => exact ⟨rate', by simpa using hlast⟩
        obtain ⟨rate', hlast'⟩ := hlast'
        have hmem : last ∈ tickTimes events :=
          mem_tickTimes.mpr ⟨rate', List.mem_of_getLast? hlast'⟩
        refine ⟨hfrom time (by simp), ?_, ih ?_ hrates' hticks (.inr ⟨rate', hlast'⟩)⟩
        · cases hnext : tickTimes events with
          | nil => simp [hnext] at hmem
          | cons next more =>
              have hmore : next ∈ tickTimes events := by simp [hnext]
              obtain ⟨rate'', hnext'⟩ := mem_tickTimes.mp hmore
              have hbefore : time ≤ next :=
                (List.pairwise_cons.mp hrest).1 next (List.mem_map_of_mem hnext')
              rw [hnext] at hticks
              have := (List.isChain_cons_cons.mp hticks).1
              linarith
        · exact List.pairwise_cons.mpr
            ⟨fun t ht => hfrom t (List.mem_cons_of_mem _ ht), (List.pairwise_cons.mp hrest).2⟩
      cases event with
      | frame frame => exact hother (by simp)
      | write call => exact hother (by simp)
      | tick rate' =>
          obtain ⟨hnext, hmore⟩ := List.isChain_cons_cons.mp
            (show List.IsChain _ (tick :: time :: tickTimes events) from hticks)
          obtain ⟨hclock, hrate⟩ := hrates time rate' (by simp)
          refine ⟨hfrom time (by simp), by linarith, hclock, hrate, ih hrest hrates' hmore ?_⟩
          rcases hlast with ⟨hnil, -⟩ | ⟨rate'', hlast⟩
          · simp at hnil
          · cases events with
            | nil =>
                obtain ⟨rfl, -⟩ : time = last ∧ _ := by simpa using hlast
                exact .inl ⟨rfl, rfl⟩
            | cons e es => exact .inr ⟨rate'', by simpa using hlast⟩

/-! The writes of a run -/

section Writes

variable {transport : TransportWrite} {codec : Codec} {s : Heartbeat} {h rate τ : ℚ}
  {events : List (ℚ × Event)}

theorem writeTimes_append (s : Heartbeat) (events events' : List (ℚ × Event)) :
    writeTimes transport codec s (events ++ events') =
      writeTimes transport codec s events ++
        writeTimes transport codec (s.run transport codec events) events' := by
  induction events generalizing s with
  | nil => rfl
  | cons event events ih =>
      simp only [List.cons_append, writeTimes, ih, run, List.foldl_cons]
      split <;> simp

theorem writeTimes_sublist (transport : TransportWrite) (codec : Codec)
    (s : Heartbeat) (events : List (ℚ × Event)) :
    (writeTimes transport codec s events).Sublist (events.map Prod.fst) := by
  induction events generalizing s with
  | nil => exact List.Sublist.refl []
  | cons event events ih =>
      simp only [writeTimes, List.map_cons]
      split
      · exact (ih _).cons _
      · exact (ih _).cons_cons _

/-- Without a tick nothing is noted. -/
theorem run_unticked (transport : TransportWrite) (codec : Codec)
    (hevents : ∀ event ∈ events, isTick event.2 = false)
    (hs : s.heartbeat = some h) (hprev : s.prevSent = none) :
    (s.run transport codec events).heartbeat = some h ∧
      (s.run transport codec events).prevSent = none := by
  induction events generalizing s with
  | nil => exact ⟨hs, hprev⟩
  | cons event events ih =>
      obtain ⟨time, event⟩ := event
      have hrest : ∀ e ∈ events, isTick e.2 = false := fun e he => hevents e (by simp [he])
      cases event with
      | frame frame => exact ih hrest hs hprev
      | write call => exact ih hrest hs hprev
      | tick rate => simpa [isTick] using hevents (time, .tick rate) (by simp)

theorem observe_firstTick (hprev : s.prevSent = none) (time : ℚ) :
    (s.observe time).lastHeartbeatSent = time := by
  simp [observe, hprev]

/-- The first tick notes whatever has been written, and sends nothing. -/
theorem step_firstTick (transport : TransportWrite) (codec : Codec) (rate : ℚ)
    (hh : 0 < h) (hs : s.heartbeat = some h) (hprev : s.prevSent = none)
    {time : ℚ} (hclock : IsFloat time) :
    s.step transport codec (time, .tick rate) = s.observe time := by
  have hdue : ¬ s.Due h rate time := by
    unfold Due
    rw [observe_firstTick hprev]
    exact not_lt.mpr (le_nextHeartbeat rate hh hclock le_rfl)
  rw [Heartbeat.step, heartbeatTick_quiet hs hh hdue, checkReceived_state]

theorem Keeping.first (rate : ℚ) (hh : 0 < h) (hs : s.heartbeat = some h)
    (hprev : s.prevSent = none)
    {first mark : ℚ} (hclock : IsFloat first) (hmark : first ≤ mark + τ) :
    (s.observe first).Keeping h rate τ first mark := by
  refine ⟨hs, hclock, ⟨_, rfl, le_refl _⟩, .inl ⟨rfl, ?_, ?_⟩⟩
  · rw [observe_firstTick hprev]
    exact hmark
  · rw [observe_firstTick hprev]
    exact le_nextHeartbeat rate hh hclock le_rfl

/-- In order and not long before their end, times are close to one another. -/
theorem spaced_of_span {gap last : ℚ} {next : ℚ → ℚ} {times : List ℚ}
    (horder : times.Pairwise (· ≤ ·)) (hlast : ∀ t ∈ times, t ≤ last)
    (hspan : ∀ first ∈ times.head?, last ≤ first + gap)
    (hnext : ∀ a, last ≤ a + gap → last ≤ next a) : Spaced next times := by
  apply List.Pairwise.isChain
  apply List.Pairwise.imp_of_mem _ horder
  intro a b ha hb hab
  cases times with
  | nil => simp at ha
  | cons first times =>
      have hfirst : first ≤ a := by
        rcases List.mem_cons.mp ha with rfl | ha
        · exact le_refl _
        · exact (List.pairwise_cons.mp horder).1 a ha
      have hstart := hspan first rfl
      exact (hlast b hb).trans (hnext a (by linarith))

/-- Where each of the marks is followed before long, every window as long has one. -/
theorem window {next bound : ℚ → ℚ} {last mark : ℚ} {times : List ℚ}
    (hspaced : Spaced next (mark :: times)) {t : ℚ} (hbound : ∀ a, a ≤ t → next a ≤ bound t)
    (hend : ∀ z ∈ (mark :: times).getLast?, z ≤ t → last < bound t) (hfrom : mark ≤ t)
    (hto : bound t ≤ last) : ∃ w ∈ times, t ≤ w ∧ w ≤ bound t := by
  induction times generalizing mark with
  | nil => exact absurd hto (not_le.mpr (hend mark rfl hfrom))
  | cons w times ih =>
      obtain ⟨hstep, hrest⟩ := List.isChain_cons_cons.mp hspaced
      by_cases hw : t ≤ w
      · exact ⟨w, by simp, hw, hstep.trans (hbound mark hfrom)⟩
      · obtain ⟨w', hmem, hw'⟩ := ih hrest (by simpa using hend) (le_of_not_ge hw)
        exact ⟨w', by simp [hmem], hw'⟩

/-- The last of such times, or else their end, is close to their end. -/
theorem mark_of_span {gap last : ℚ} {times : List ℚ} (horder : times.Pairwise (· ≤ ·))
    (hlast : ∀ t ∈ times, t ≤ last) (hspan : ∀ first ∈ times.head?, last ≤ first + gap)
    (hgap : 0 ≤ gap) :
    times.getLast?.getD last ≤ last ∧ last ≤ times.getLast?.getD last + gap := by
  cases hend : times.getLast? with
  | none => exact ⟨le_refl _, by simpa using hgap⟩
  | some z =>
      have hz := List.mem_of_getLast? hend
      refine ⟨hlast z hz, ?_⟩
      cases times with
      | nil => simp at hz
      | cons first times =>
          have hstart := hspan first rfl
          have hfirst : first ≤ z := by
            rcases List.mem_cons.mp hz with rfl | hz
            · exact le_refl _
            · exact (List.pairwise_cons.mp horder).1 z hz
          simp only [Option.getD_some]
          linarith

theorem Spaced.append {next : ℚ → ℚ} (last : ℚ) {times times' : List ℚ} (h : Spaced next times)
    (h' : Spaced next (times.getLast?.getD last :: times')) : Spaced next (times ++ times') := by
  apply List.IsChain.append h h'.tail
  intro x hx y hy
  rw [Option.mem_def.mp hx] at h'
  exact (List.isChain_cons.mp h').1 y hy

theorem split_firstTick (hticks : ∃ event ∈ events, isTick event.2 = true) :
    ∃ first rate rest,
      events = (events.takeWhile fun e => !isTick e.2) ++ (first, .tick rate) :: rest ∧
        (tickTimes events).head? = some first := by
  induction events with
  | nil => simp at hticks
  | cons event events ih =>
      obtain ⟨time, event⟩ := event
      have hother : isTick event = false →
          tickTimes ((time, event) :: events) = tickTimes events →
          ∃ first rate rest, (time, event) :: events =
            (((time, event) :: events).takeWhile fun e => !isTick e.2) ++
              (first, .tick rate) :: rest ∧
            (tickTimes ((time, event) :: events)).head? = some first := by
        intro hevent htimes
        obtain ⟨first, rate, rest, hsplit, hfirst⟩ := ih (by simpa [hevent] using hticks)
        refine ⟨first, rate, rest, ?_, by rw [htimes]; exact hfirst⟩
        rw [List.takeWhile_cons_of_pos (by simp [hevent]), List.cons_append, ← hsplit]
      cases event with
      | frame frame => exact hother rfl rfl
      | write call => exact hother rfl rfl
      | tick rate => exact ⟨time, rate, events, by simp [isTick], rfl⟩

end Writes

section FirstTick

variable {transport : TransportWrite} {codec : Codec} {s : Heartbeat}
  {h rate τ first last : ℚ} {times : List ℚ} {rest : List (ℚ × Event)}

/-- Without room between ticks, the first tick is the last, and follows no write. -/
theorem nothing_of_neg (hτ : τ < 0) (hbefore : ∀ t ∈ times, t ≤ first)
    (hspan : ∀ w ∈ times.head?, first ≤ w + τ) (hticking : Ticking rate τ last first rest) :
    times = [] ∧ rest = [] ∧ first = last := by
  have htimes : times = [] := by
    cases times with
    | nil => rfl
    | cons w times =>
        have := hspan w rfl
        have := hbefore w (by simp)
        linarith
  cases rest with
  | nil => exact ⟨htimes, rfl, hticking⟩
  | cons event rest =>
      obtain ⟨hfrom, hto, -⟩ := hticking.next
      linarith

/-- From the first tick on, with what has been written before it. -/
theorem keepsAlive_from (rate : ℚ) (hh : 0 < h) (hs : s.heartbeat = some h)
    (hprev : s.prevSent = none) (hclock : IsFloat first)
    (horder : times.Pairwise (· ≤ ·)) (hbefore : ∀ t ∈ times, t ≤ first)
    (hspan : ∀ w ∈ times.head?, first ≤ w + τ) (hticking : Ticking rate τ last first rest)
    (hbeats : Run.Along (step transport codec) (Beats transport codec) (s.observe first) rest) :
    Spaced (fun a => nextHeartbeat h rate (a + τ) + τ)
        (times ++ writeTimes transport codec (s.observe first) rest) ∧
      (τ ≤ h / 4 → ∀ t, first ≤ t → nextHeartbeat h rate (t + h / 4) + h / 4 ≤ last →
        ∃ w ∈ times ++ writeTimes transport codec (s.observe first) rest,
          t ≤ w ∧ w ≤ nextHeartbeat h rate (t + h / 4) + h / 4) := by
  by_cases hτ : τ < 0
  · obtain ⟨rfl, rfl, rfl⟩ := nothing_of_neg hτ hbefore hspan hticking
    refine ⟨List.isChain_nil, fun _ t hfrom hto => ?_⟩
    have hafter : first ≤ nextHeartbeat h rate (t + h / 4) :=
      le_nextHeartbeat rate hh hclock (by linarith)
    linarith
  have hτ := not_lt.mp hτ
  obtain ⟨hmark, hclose⟩ := mark_of_span horder hbefore hspan hτ
  have hkeeping := Keeping.first rate hh hs hprev hclock hclose
  obtain ⟨hspaced, hend⟩ := hkeeping.run hh hτ hticking hbeats
  constructor
  · apply Spaced.append first _ hspaced
    apply spaced_of_span horder hbefore hspan
    intro a ha
    have hafter := le_nextHeartbeat rate hh hclock ha
    linarith
  · intro hquarter t hfrom hto
    have hsooner : ∀ a, a ≤ t → nextHeartbeat h rate (a + τ) ≤ nextHeartbeat h rate (t + h / 4) :=
      fun a ha => nextHeartbeat_mono h rate (by linarith)
    have hbound : ∀ a, a ≤ t →
        nextHeartbeat h rate (a + τ) + τ ≤ nextHeartbeat h rate (t + h / 4) + h / 4 :=
      fun a ha => add_le_add (hsooner a ha) hquarter
    have hlate : ∀ z ∈ (times.getLast?.getD first ::
        writeTimes transport codec (s.observe first) rest).getLast?,
        z ≤ t → last < nextHeartbeat h rate (t + h / 4) + h / 4 := by
      intro z hz hbefore
      have := (hend z hz).trans (hsooner z hbefore)
      linarith
    obtain ⟨w, hw, hwindow⟩ :=
      @window _ (fun t => nextHeartbeat h rate (t + h / 4) + h / 4) _ _ _ hspaced t hbound hlate
        (hmark.trans hfrom) hto
    exact ⟨w, by simp [hw], hwindow⟩

end FirstTick

/-- A run of a connection that ticks at one rate, its ticks at most `τ` apart and the first
of them at most `τ` after the first write, and whose heartbeats are written. -/
structure Paced (transport : TransportWrite) (codec : Codec) (rate τ : ℚ) (s : Heartbeat)
    (events : List (ℚ × Event)) : Prop where
  order : (events.map Prod.fst).Pairwise (· ≤ ·)
  rates : ∀ time rate', (time, .tick rate') ∈ events → IsFloat time ∧ rate' = rate
  ticks : Within τ (tickTimes events)
  beats : Run.Along (step transport codec) (Beats transport codec) s events
  first : ∀ first ∈ (tickTimes events).head?,
    ∀ write ∈ (writeTimes transport codec s (events.takeWhile fun e => !isTick e.2)).head?,
      first ≤ write + τ

/-- A paced connection keeps alive: up to its last tick no two writes are further apart than
its period and two ticks, as floats add the period to a time. At rate 2, with ticks every
quarter of an interval, every interval, so added up, has a write in it. -/
theorem paced_keepsAlive (transport : TransportWrite) (codec : Codec) {h : ℚ} (hh : 0 < h)
    (rate τ last : ℚ) (handler : Handler) (writer : Writer) (events : List (ℚ × Event))
    (hpaced : Paced transport codec rate τ (negotiated h handler writer)
      (events ++ [(last, .tick rate)])) :
    let writes := writeTimes transport codec (negotiated h handler writer)
      (events ++ [(last, .tick rate)])
    Spaced (fun a => nearest (a + τ + nearest (h / effectiveRate rate)) + τ) writes ∧
      (effectiveRate rate = 2 → τ ≤ h / 4 →
        ∀ first ∈ (tickTimes (events ++ [(last, .tick rate)])).head?,
          ∀ t, first ≤ t → nearest (t + h / 4 + nearest (h / 2)) + h / 4 ≤ last →
            ∃ w ∈ writes, t ≤ w ∧ w ≤ nearest (t + h / 4 + nearest (h / 2)) + h / 4) := by
  intro writes
  have hlastTick : ∃ event ∈ events ++ [(last, Event.tick rate)], isTick event.2 = true :=
    ⟨(last, .tick rate), by simp, rfl⟩
  obtain ⟨first, rate', rest, hsplit, hfirst⟩ := split_firstTick hlastTick
  have hspan := hpaced.first first hfirst
  have hunticked : ∀ event ∈ (events ++ [(last, Event.tick rate)]).takeWhile
      (fun e => !isTick e.2), isTick event.2 = false := by
    intro event hevent
    simpa using List.mem_takeWhile_imp hevent
  generalize (events ++ [(last, Event.tick rate)]).takeWhile (fun e => !isTick e.2) = before
    at hsplit hspan hunticked
  have hlast : ((first, Event.tick rate') :: rest).getLast? = some (last, .tick rate) := by
    rw [← List.getLast?_append_cons before, ← hsplit]
    simp
  obtain ⟨horder, hrates, hticks, hbeats, -⟩ := hpaced
  simp only [writes]
  rw [hsplit] at horder hrates hticks hbeats hfirst ⊢
  obtain ⟨hclock, rfl⟩ : IsFloat first ∧ rate' = rate := hrates first rate' (by simp)
  have htickTimes : tickTimes (before ++ (first, .tick rate') :: rest) =
      first :: tickTimes rest := by
    have hnone : tickTimes before = [] := by
      rw [List.eq_nil_iff_forall_not_mem]
      intro time htime
      obtain ⟨r, hr⟩ := mem_tickTimes.mp htime
      simpa [isTick] using hunticked _ hr
    unfold tickTimes at hnone ⊢
    rw [List.filterMap_append, hnone]
    rfl
  obtain ⟨hs, hprev⟩ := run_unticked transport codec hunticked
    (s := negotiated h handler writer) rfl rfl
  have hstep := step_firstTick transport codec rate' hh hs hprev hclock
  rw [writeTimes_append]
  have hquiet : ∀ s : Heartbeat, s.step transport codec (first, .tick rate') = s.observe first →
      writeTimes transport codec s ((first, .tick rate') :: rest) =
        writeTimes transport codec (s.observe first) rest := by
    intro s hs
    simp [writeTimes, hs, observe]
  rw [hquiet _ hstep]
  rw [List.map_append, List.map_cons, List.pairwise_append] at horder
  obtain ⟨hbeforeOrder, hrestOrder, hbefore⟩ := horder
  rw [htickTimes] at hticks
  have hsub := writeTimes_sublist transport codec
    (negotiated h handler writer) before
  have hticking : Ticking rate' τ last first rest := by
    apply ticking_of_times hrestOrder (fun t r ht => hrates t r (by simp [ht])) hticks
    cases rest with
    | nil =>
        exact .inl ⟨rfl, by simpa using hlast⟩
    | cons e es => exact .inr ⟨rate', by simpa using hlast⟩
  have hbeatsRest := hbeats.drop.2
  change Run.Along _ _ (step transport codec (run transport codec _ before) _) rest at hbeatsRest
  rw [hstep] at hbeatsRest
  obtain ⟨hspaced, hwindow⟩ := keepsAlive_from rate' hh hs hprev hclock
    (List.Pairwise.sublist hsub hbeforeOrder)
    (fun t ht => hbefore t (hsub.subset ht) first (by simp)) hspan hticking hbeatsRest
  refine ⟨hspaced, fun hrate hquarter first' hfirst' => ?_⟩
  rw [htickTimes] at hfirst'
  obtain rfl : first = first' := by simpa using hfirst'
  have hnext : ∀ a, nextHeartbeat h rate' a = nearest (a + nearest (h / 2)) := by
    intro a
    rw [nextHeartbeat, hrate]
  simpa only [hnext] using hwindow hquarter

/-- A method without arguments. -/
def data : WriteCall where
  frameType := 1
  channel := 1
  methodSig := some Spec.Tx.select
  args := some (.bytes [])
  content := none

/-- Ticks a second apart, with an interval of four seconds and one write between them. -/
theorem paced_keepsAlive_data :
    let transport : TransportWrite := fun _ => .ok ()
    let codec : Codec := fun _ _ => .error .lookupError
    let writer : Writer := { frameMax := 64, buf := List.replicate 56 0 }
    let writes := writeTimes transport codec (negotiated 4 {} writer)
      ([(1, .tick 2), (1, .write data), (2, .tick 2), (3, .tick 2), (4, .tick 2)] ++ [(5, .tick 2)])
    writes = [1, 5] ∧ Spaced (fun a => nearest (a + 1 + nearest (4 / effectiveRate 2)) + 1) writes ∧
      ∃ w ∈ writes, 1 ≤ w ∧ w ≤ nearest (1 + 4 / 4 + nearest (4 / 2)) + 4 / 4 := by
  intro transport codec writer writes
  have hpaced : Paced transport codec 2 1 (negotiated 4 {} writer)
      ([(1, .tick 2), (1, .write data), (2, .tick 2), (3, .tick 2), (4, .tick 2)] ++
        [(5, .tick 2)]) := by
    refine ⟨by norm_num, ?_, ?_, ?_, by simp [isTick, writeTimes]⟩
    · intro time rate htick
      simp only [List.cons_append, List.nil_append, List.mem_cons, Prod.mk.injEq, Event.tick.injEq,
        reduceCtorEq, and_false, List.not_mem_nil, or_false, false_or] at htick
      rcases htick with ⟨rfl, rfl⟩ | ⟨rfl, rfl⟩ | ⟨rfl, rfl⟩ | ⟨rfl, rfl⟩ | ⟨rfl, rfl⟩
      all_goals exact ⟨by decide +kernel, rfl⟩
    · simp only [Within, tickTimes, List.cons_append, List.nil_append, List.filterMap_cons,
        List.filterMap_nil]
      norm_num
    · refine ⟨?_, trivial, ?_, ?_, ?_, ?_, trivial⟩ <;> exact fun _ _ _ => by decide +kernel
  obtain ⟨hspaced, hwindow⟩ :=
    paced_keepsAlive transport codec (by norm_num) 2 1 5 {} writer _ hpaced
  exact ⟨by decide +kernel, hspaced, hwindow (by norm_num [effectiveRate]) (by norm_num) 1 rfl 1
    (by norm_num) (by decide +kernel)⟩

/-- A write right after the first tick, which the next tick takes for its own, and a tick so near
to the next heartbeat that the time of that is rounded up to its own: the heartbeat comes more
than half of an interval of 40 seconds and two ticks of ten after the write. -/
theorem paced_keepsAlive_rounded :
    let transport : TransportWrite := fun _ => .ok ()
    let codec : Codec := fun _ _ => .error .lookupError
    let writer : Writer := { frameMax := 64, buf := List.replicate 56 0 }
    let first : ℚ := 98 + 3 / 2 ^ 46
    let late : ℚ := 128 + 1 / 2 ^ 44
    let events : List (ℚ × Event) :=
      [(first, .tick 2), (first, .write data), (first + 10, .tick 2), (first + 20, .tick 2),
        (first + 29, .tick 2), (late, .tick 2)] ++ [(late + 10, .tick 2)]
    let writes := writeTimes transport codec (negotiated 40 {} writer) events
    Paced transport codec 2 10 (negotiated 40 {} writer) events ∧ writes = [first, late + 10] ∧
      ¬ Within (40 / effectiveRate 2 + 2 * 10) writes := by
  intro transport codec writer first late events writes
  have hwrites : writes = [first, late + 10] := by decide +kernel
  have hlong : 40 / effectiveRate 2 + 2 * 10 < late + 10 - first := by decide +kernel
  refine ⟨⟨?_, ?_, ?_, ?_, ?_⟩, hwrites, ?_⟩
  · norm_num [events, first, late]
  · intro time rate htick
    simp only [events, List.cons_append, List.nil_append, List.mem_cons, Prod.mk.injEq,
      Event.tick.injEq, reduceCtorEq, and_false, List.not_mem_nil, or_false, false_or] at htick
    rcases htick with ⟨rfl, rfl⟩ | ⟨rfl, rfl⟩ | ⟨rfl, rfl⟩ | ⟨rfl, rfl⟩ | ⟨rfl, rfl⟩ | ⟨rfl, rfl⟩
    all_goals exact ⟨by decide +kernel, rfl⟩
  · simp only [events, Within, tickTimes, List.cons_append, List.nil_append, List.filterMap_cons,
      List.filterMap_nil]
    norm_num [first, late]
  · refine ⟨?_, trivial, ?_, ?_, ?_, ?_, ?_, trivial⟩ <;> exact fun _ _ _ => by decide +kernel
  · simp [events, isTick, writeTimes]
  · rw [hwrites, Within, List.isChain_pair, not_le]
    exact hlong

end Heartbeat

end PyAmqp
