import PyAmqp.Connection.Promised
import PyAmqp.Base.Run

/-!
`Channel.close` always gives up the connection, but only `collect` takes the channel out
of the connection's `channels`. A registered channel keeps its connection and its id in
every run where each `close` of an open channel is written and answered.
-/

namespace PyAmqp

namespace Connection

variable {P : Promises Reply}

namespace Registry

/-- Every channel that is registered has its connection, and its id. -/
def Attached (r : Registry) : Prop :=
  ∀ channels, r.channels = some channels → ∀ entry ∈ channels, entry.1 ≠ 0 →
    r.attached entry.2 = true ∧ r.channelId entry.2 = some entry.1

theorem Attached.issue {r : Registry} (h : r.Attached) (hallocated : r.Allocated) {id : Nat}
    (hunused : id ∉ r.usedChannelIds) (hid : id ≠ 0) : (r.issue id).Attached := by
  intro channels' heq entry hentry hne
  cases hr : r.channels with
  | none => simp [Registry.issue, register, hr] at heq
  | some channels =>
      rw [hallocated.issue_channels hr hunused hid] at heq
      obtain rfl := Option.some.inj heq
      rcases List.mem_append.mp hentry with hmem | hmem
      · have hlt := (hallocated.known channels hr entry hmem).1
        simp only [Registry.issue, register, Function.update_of_ne hlt.ne]
        exact h channels hr entry hmem hne
      · obtain rfl := List.mem_singleton.mp hmem
        exact ⟨Function.update_self .., Function.update_self ..⟩

/-- A channel that is collected is registered nowhere else. -/
theorem Attached.collectChannel {r : Registry} (h : r.Attached) (o : Nat) :
    (r.collectChannel o).Attached := by
  intro channels' heq entry hentry hne
  have hother : ∀ channels, r.channels = some channels → entry ∈ channels → entry.2 ≠ o →
      Function.update r.attached o false entry.2 = true ∧
        Function.update r.channelId o none entry.2 = some entry.1 := by
    intro channels hr hmem ho
    rw [Function.update_of_ne ho, Function.update_of_ne ho]
    exact h channels hr entry hmem hne
  unfold Registry.collectChannel at heq ⊢
  cases hid : r.channelId o with
  | none =>
      rw [hid] at heq
      obtain ⟨hattached, hnamed⟩ := h channels' heq entry hentry hne
      have ho : entry.2 ≠ o := by
        rintro rfl
        simp [hid] at hnamed
      exact ⟨(hother channels' heq hentry ho).1, hnamed⟩
  | some id =>
      simp only [hid] at heq
      split at heq
      next hattached =>
        obtain ⟨channels, hr, rfl⟩ := Option.map_eq_some_iff.mp heq
        obtain ⟨hmem, hkey⟩ := List.mem_filter.mp hentry
        refine hother channels hr hmem ?_
        rintro rfl
        have hnamed := (h channels hr entry hmem hne).2
        rw [hid] at hnamed
        simp [Option.some.inj hnamed] at hkey
      next hattached =>
        refine hother channels' heq hentry ?_
        rintro rfl
        exact hattached (h channels' heq entry hentry hne).1

theorem Attached.op {detaches : Nat → Prop} {r r' : Registry} (h : r.Attached)
    (hallocated : r.Allocated) (hop : Op detaches r r')
    (hdetaches : ∀ o, detaches o → r.attached o = false ∨ r.channels = none) : r'.Attached := by
  cases hop with
  | same | tunes => exact h
  | issues hunused hid => exact h.issue hallocated hunused hid
  | collectsChannel => exact h.collectChannel _
  | detaches ho =>
      intro channels hr entry hentry hne
      obtain ⟨hattached, hnamed⟩ := h channels hr entry hentry hne
      obtain hdetached | hnone := hdetaches _ ho
      · refine ⟨(Function.update_of_ne ?_ ..).trans hattached, hnamed⟩
        rintro rfl
        simp [hdetached] at hattached
      · simp [Registry.detach, hnone] at hr
  | collects => simp [Attached, Registry.collect]

end Registry

/-- A `close` of a channel that has its connection is of an open channel, and is
written; and no exception reaches it while the channel still has its connection. -/
def ClosesCleanly (cfg : Config) (s : Connection P) : Event → Prop
  | .closeChannel o =>
      s.MayCall o → s.attached o = true → s.channels ≠ none →
        s.isOpen o = true ∧ cfg.write s.writes = .ok ()
  | .go =>
      ∀ raised ∈ s.raisesTo, raised.1.task.isCloseChannel = true →
        s.attached raised.1.owner = false
  | _ => True

instance (cfg : Config) (s : Connection P) : (event : Event) →
    Decidable (ClosesCleanly cfg s event)
  | .closeChannel _ => inferInstanceAs (Decidable (_ → _ → _ → _ ∧ _))
  | .go => inferInstanceAs (Decidable (∀ raised ∈ s.raisesTo, _ → _))
  | .connect _ | .close | .collect | .channel _ | .open _ | .collectChannel _ | .send _ _
    | .call _ _ _ _ | .return | .raise _ | .deliver _ _ | .fail _ => .isTrue trivial

/-- A step that closes cleanly detaches no channel that has its connection. -/
theorem ClosesCleanly.detached {cfg : Config} {s : Connection P} {event : Event} {o : Nat}
    (h : ClosesCleanly cfg s event) (hreachable : s.Reachable)
    (hdetaches : Detaches cfg s event o) : s.attached o = false ∨ s.channels = none := by
  cases hdetaches with
  | refused _ hcall hrefused =>
      by_contra hnot
      simp only [not_or, Bool.not_eq_false] at hnot
      obtain ⟨hopen, hwrite⟩ := h hcall hnot.1 hnot.2
      obtain ⟨e, herror⟩ := hrefused hnot.1 hnot.2 hopen
      rw [hwrite] at herror
      cases herror
  | ended hstack htask hended =>
      obtain hready | ⟨e, hcontrol⟩ := hended
      · refine .inl (hreachable.promised.ready _ ?_ (by rw [htask]; rfl) hready)
        exact hreachable.promised.stack _ (by simp [hstack])
      · exact .inl (h _ (raisesTo_eq hstack hcontrol) (by rw [htask]; rfl))

/-- In every run whose steps close cleanly, a channel that is registered under an id has
its connection and that id. -/
theorem run_attached (cfg : Config) (events : List Event) {channels : List (Nat × Nat)}
    (hclean : Run.Along (step cfg) (ClosesCleanly cfg) (init cfg : Connection P) events)
    (hchannels : (run cfg events : Connection P).channels = some channels) {id o : Nat}
    (hid : id ≠ 0) (hget : Assoc.get? channels id = some o) :
    (run cfg events : Connection P).attached o = true ∧
      (run cfg events : Connection P).channelId o = some id := by
  have hstart : (init cfg : Connection P).Reachable ∧ (init cfg : Connection P).Attached := by
    refine ⟨init_reachable cfg, ?_⟩
    simp [Registry.Attached, init]
  have hrun := Run.invariant
    (I := fun s : Connection P => s.Reachable ∧ s.Attached)
    (fun s event h hcond => ⟨h.1.step cfg event,
      h.2.op h.1.allocated (step_move cfg s event).op fun o ho => hcond.detached h.1 ho⟩)
    hstart hclean
  exact hrun.2 channels hchannels _ (Assoc.mem_of_get? hget) hid

/-- `channel()` beside the open channel, and the `close` of the first with its reply. -/
def closeEvents : List Event :=
  openEvents ++
    [.channel none, .go, .deliver 1 { methodSig := Spec.Channel.openOk, payload := [] },
      .return, .go, .go, .go,
      .closeChannel 1, .go, .deliver 2 { methodSig := Spec.Channel.closeOk, payload := [] },
      .go, .go, .go]

theorem run_attached_closed :
    let s : Connection (plainPromises Reply) := run plainConfig closeEvents
    s.channels = some [(0, 0), (1, 2)] ∧ s.attached 2 = true ∧ s.channelId 2 = some 1 := by
  have hchannels : (run plainConfig closeEvents : Connection (plainPromises Reply)).channels =
      some [(0, 0), (1, 2)] := by
    decide +kernel
  exact ⟨hchannels, run_attached plainConfig closeEvents (by decide +kernel) hchannels
    Nat.one_ne_zero rfl⟩

/-- The `close` of the open channel, which times out. -/
def timeoutEvents : List Event :=
  openEvents ++ [.closeChannel 1, .go, .fail .socketTimeout, .go, .go]

/-- `close` has raised and no call is in progress: the channel is registered under 2 still,
has no connection, and is what `channel(2)` gives. -/
theorem run_attached_timeout :
    let s : Connection (plainPromises Reply) := run plainConfig timeoutEvents
    s.Idle ∧ s.stack.length = 1 ∧ s.channels = some [(0, 0), (2, 1)] ∧
      s.channelId 1 = some 2 ∧ s.attached 1 = false ∧
      (step plainConfig s (.channel (some 2))).channels = s.channels ∧
      (step plainConfig s (.channel (some 2))).control = .running ∧
      ¬ ∀ entry ∈ s.channels.getD [], entry.1 ≠ 0 → s.attached entry.2 = true := by
  decide +kernel

end Connection

end PyAmqp
