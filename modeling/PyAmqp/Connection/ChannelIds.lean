import PyAmqp.Connection.Moves
import Mathlib.Order.Bounds.Basic

/-!
The ids of a connection's channels are kept twice, as the array `_used_channel_ids` and
as keys of the dictionary `channels`. In every run the two agree, and so a free id is
free in both.
-/

namespace PyAmqp

namespace Connection

namespace Registry

/-! Allocation -/

/-- An id that an automatic allocation may give. -/
def Free (r : Registry) (id : Nat) : Prop :=
  1 ≤ id ∧ id ≤ r.channelMax ∧ id ∉ r.usedChannelIds

/-- A new channel that got `id`. -/
def issue (id : Nat) (r : Registry) : Registry :=
  register id { r with usedChannelIds := r.usedChannelIds ++ [id] }

theorem getFreeChannelId_least {r : Registry} {id : Nat} (h : IsLeast {id | r.Free id} id) :
    r.getFreeChannelId = appendUsed id r := by
  have hfind : (r.channelIds.find? fun id => id ∉ r.usedChannelIds) = some id := by
    rw [channelIds, List.find?_range'_eq_some]
    obtain ⟨hfree, hleast⟩ := h
    refine ⟨by simpa using hfree.2.2, ?_, fun other hother hlt => ?_⟩
    · rw [List.mem_range'_1]
      have hle := hfree.2.1
      exact ⟨hfree.1, by omega⟩
    · simp only [Bool.not_eq_true', decide_eq_false_iff_not, not_not]
      by_contra hunused
      have hle : id ≤ other := hleast ⟨hother, hlt.le.trans hfree.2.1, hunused⟩
      omega
  unfold getFreeChannelId
  rw [hfind]

theorem getFreeChannelId_full {r : Registry} (h : ∀ id, ¬ r.Free id) :
    r.getFreeChannelId = (.error r.noFreeChannelIds, r) := by
  have hfind : (r.channelIds.find? fun id => id ∉ r.usedChannelIds) = none := by
    rw [List.find?_eq_none]
    intro id hid
    rw [channelIds, List.mem_range'_1] at hid
    by_contra hfree
    exact h id ⟨hid.1, by omega, by simpa using hfree⟩
  unfold getFreeChannelId
  rw [hfind]

theorem appendUsed_of_lt {r : Registry} {id : Nat} (h : id < 2 ^ 16) :
    appendUsed id r = (.ok id, { r with usedChannelIds := r.usedChannelIds ++ [id] }) :=
  if_pos h

theorem appendUsed_cases (id : Nat) (r : Registry) :
    appendUsed id r = (.ok id, { r with usedChannelIds := r.usedChannelIds ++ [id] }) ∨
      appendUsed id r = (.error .overflowError, r) := by
  unfold appendUsed
  split
  · exact .inl rfl
  · exact .inr rfl

theorem exists_least {r : Registry} {id : Nat} (h : r.Free id) :
    ∃ id, IsLeast {id | r.Free id} id := by
  classical
  refine ⟨Nat.find ⟨id, h⟩, Nat.find_spec ⟨id, h⟩, fun other hother => ?_⟩
  exact Nat.find_min' ⟨id, h⟩ hother

theorem allocateId_cases (id : Option Nat) (r : Registry) :
    (∃ id', id' ∉ r.usedChannelIds ∧ id' ≠ 0 ∧
        allocateId id r = (.ok id', { r with usedChannelIds := r.usedChannelIds ++ [id'] })) ∨
      ∃ e, allocateId id r = (.error e, r) := by
  have happend : ∀ id', id' ∉ r.usedChannelIds → id' ≠ 0 → allocateId id r = appendUsed id' r →
      (∃ id', id' ∉ r.usedChannelIds ∧ id' ≠ 0 ∧
          allocateId id r = (.ok id', { r with usedChannelIds := r.usedChannelIds ++ [id'] })) ∨
        ∃ e, allocateId id r = (.error e, r) := by
    intro id' hunused hid hrun
    obtain happend | happend := appendUsed_cases id' r
    · exact .inl ⟨id', hunused, hid, hrun.trans happend⟩
    · exact .inr ⟨_, hrun.trans happend⟩
  match id with
  | some (id + 1) =>
      by_cases hused : id + 1 ∈ r.usedChannelIds
      · exact .inr ⟨_, if_pos hused⟩
      · exact happend _ hused (by omega) (if_neg hused)
  | some 0 | none =>
      by_cases hfull : ∀ id, ¬ r.Free id
      · exact .inr ⟨_, getFreeChannelId_full hfull⟩
      · simp only [not_forall, not_not] at hfull
        obtain ⟨id', hleast⟩ := exists_least hfull.choose_spec
        exact happend id' hleast.1.2.2 (Nat.one_le_iff_ne_zero.mp hleast.1.1)
          (getFreeChannelId_least hleast)

/-- A new channel gets an id that was not in use; without one nothing changes. -/
theorem construct_cases (id : Option Nat) (r : Registry) :
    (∃ id', id' ∉ r.usedChannelIds ∧ id' ≠ 0 ∧
        construct id r = (.ok r.created, r.issue id')) ∨
      ∃ e, construct id r = (.error e, r) := by
  obtain ⟨id', hunused, hid, hrun⟩ | ⟨e, hrun⟩ := allocateId_cases id r
  · refine .inl ⟨id', hunused, hid, ?_⟩
    rw [construct, Effect.bind_ok _ hrun]
    rfl
  · exact .inr ⟨e, by rw [construct, Effect.bind_error _ hrun]⟩

theorem construct_least {r : Registry} {id : Nat} (h : IsLeast {id | r.Free id} id)
    (hmax : r.channelMax ≤ 65535) : construct none r = (.ok r.created, r.issue id) := by
  have hlt : id < 2 ^ 16 := by
    have hle := h.1.2.1
    omega
  have hrun : allocateId none r =
      (.ok id, { r with usedChannelIds := r.usedChannelIds ++ [id] }) := by
    rw [← appendUsed_of_lt hlt]
    exact getFreeChannelId_least h
  rw [construct, Effect.bind_ok _ hrun]
  rfl

theorem construct_full {r : Registry} (h : ∀ id, ¬ r.Free id) :
    construct none r = (.error r.noFreeChannelIds, r) := by
  have hrun : allocateId none r = (.error r.noFreeChannelIds, r) := getFreeChannelId_full h
  rw [construct, Effect.bind_error _ hrun]

/-! The two copies -/

/-- The array and the dictionary have the same ids, the dictionary has them once, and
knows the connection as channel 0 only. -/
structure Allocated (r : Registry) : Prop where
  created : 0 < r.created
  named : ∀ o, o ≠ 0 → r.channelId o ≠ some 0
  nodup : r.usedChannelIds.Nodup
  keys : ∀ channels, r.channels = some channels → (Assoc.keys channels).Nodup
  used : ∀ channels, r.channels = some channels →
    ∀ id, id ∈ r.usedChannelIds ↔ id ∈ Assoc.keys channels ∧ id ≠ 0
  known : ∀ channels, r.channels = some channels →
    ∀ entry ∈ channels, entry.2 < r.created ∧ (entry.2 = 0 → entry.1 = 0)

namespace Allocated

variable {r : Registry}

theorem notMem_keys (h : r.Allocated) {channels : List (Nat × Nat)} {id : Nat}
    (hchannels : r.channels = some channels) (hunused : id ∉ r.usedChannelIds) (hid : id ≠ 0) :
    id ∉ Assoc.keys channels :=
  fun hmem => hunused ((h.used channels hchannels id).mpr ⟨hmem, hid⟩)

theorem issue_channels (h : r.Allocated) {channels : List (Nat × Nat)} {id : Nat}
    (hchannels : r.channels = some channels) (hunused : id ∉ r.usedChannelIds) (hid : id ≠ 0) :
    (r.issue id).channels = some (channels ++ [(id, r.created)]) := by
  simp only [Registry.issue, register, hchannels, Option.map_some]
  rw [Assoc.set_fresh _ _ _ (h.notMem_keys hchannels hunused hid)]

theorem issue (h : r.Allocated) {id : Nat} (hunused : id ∉ r.usedChannelIds) (hid : id ≠ 0) :
    (r.issue id).Allocated := by
  have hchannels : ∀ channels', (r.issue id).channels = some channels' →
      ∃ channels, r.channels = some channels ∧ channels' = channels ++ [(id, r.created)] := by
    intro channels' heq
    cases hr : r.channels with
    | none => simp [Registry.issue, register, hr] at heq
    | some channels =>
        rw [h.issue_channels hr hunused hid] at heq
        exact ⟨channels, rfl, (Option.some.inj heq).symm⟩
  refine ⟨Nat.succ_pos _, fun o ho hname => ?_, ?_, fun channels' heq => ?_,
    fun channels' heq id' => ?_, fun channels' heq entry hentry => ?_⟩
  · by_cases hnew : o = r.created
    · subst hnew
      simp [Registry.issue, register, hid] at hname
    · exact h.named o ho (by simpa [Registry.issue, register, hnew] using hname)
  · have hnodup := h.nodup.concat hunused
    rwa [List.concat_eq_append] at hnodup
  all_goals obtain ⟨channels, hr, rfl⟩ := hchannels channels' heq
  · have hnodup := (h.keys channels hr).concat (h.notMem_keys hr hunused hid)
    simpa only [Assoc.keys, List.concat_eq_append, List.map_append, List.map_cons, List.map_nil]
      using hnodup
  · have hused := h.used channels hr id'
    simp only [Registry.issue, register, Assoc.keys, List.map_append, List.mem_append,
      List.map_cons, List.map_nil, List.mem_singleton] at hused ⊢
    rw [hused]
    constructor
    · rintro (⟨hmem, hne⟩ | rfl)
      · exact ⟨.inl hmem, hne⟩
      · exact ⟨.inr rfl, hid⟩
    · rintro ⟨hmem | rfl, hne⟩
      · exact .inl ⟨hmem, hne⟩
      · exact .inr rfl
  · rcases List.mem_append.mp hentry with hmem | hmem
    · obtain ⟨hlt, hzero⟩ := h.known channels hr entry hmem
      exact ⟨hlt.trans (Nat.lt_succ_self _), hzero⟩
    · obtain rfl := List.mem_singleton.mp hmem
      exact ⟨Nat.lt_succ_self _, fun hzero => absurd h.created (by simp_all)⟩

theorem collectChannel (h : r.Allocated) (o : Nat) : (r.collectChannel o).Allocated := by
  unfold Registry.collectChannel
  cases hid : r.channelId o with
  | none => exact ⟨h.created, h.named, h.nodup, h.keys, h.used, h.known⟩
  | some id =>
      have hnamed : ∀ o', o' ≠ 0 → Function.update r.channelId o none o' ≠ some 0 := by
        intro o' ho' hname
        by_cases hsame : o' = o
        · simp [hsame] at hname
        · exact h.named o' ho' (by simpa [hsame] using hname)
      cases hattached : r.attached o with
      | false => exact ⟨h.created, hnamed, h.nodup, h.keys, h.used, h.known⟩
      | true =>
          simp only [if_true]
          have hchannels : ∀ channels',
              r.channels.map (fun channels => Assoc.erase channels id) = some channels' →
              ∃ channels, r.channels = some channels ∧ channels' = Assoc.erase channels id := by
            intro channels' heq
            obtain ⟨channels, hr, rfl⟩ := Option.map_eq_some_iff.mp heq
            exact ⟨channels, hr, rfl⟩
          refine ⟨h.created, hnamed, h.nodup.erase id, fun channels' heq => ?_,
            fun channels' heq id' => ?_, fun channels' heq entry hentry => ?_⟩
          all_goals obtain ⟨channels, hr, rfl⟩ := hchannels channels' heq
          · rw [Assoc.keys_erase]
            exact (h.keys channels hr).filter _
          · rw [h.nodup.mem_erase_iff, h.used channels hr, Assoc.keys_erase, List.mem_filter,
              decide_eq_true_eq]
            tauto
          · exact h.known channels hr entry (List.mem_filter.mp hentry).1

theorem detach (h : r.Allocated) (o : Nat) : (r.detach o).Allocated :=
  ⟨h.created, h.named, h.nodup, h.keys, h.used, h.known⟩

theorem collect (h : r.Allocated) : r.collect.Allocated := by
  have hfold : ∀ (objects : List Nat) (r : Registry), r.Allocated →
      (objects.foldl Registry.collectChannel r).Allocated := by
    intro objects
    induction objects with
    | nil => exact fun _ h => h
    | cons o objects ih => exact fun r h => ih _ (h.collectChannel o)
  obtain ⟨hcreated, hnamed, hnodup, -, -, -⟩ := hfold r.others r h
  exact ⟨hcreated, hnamed, hnodup, by simp [Registry.collect], by simp [Registry.collect],
    by simp [Registry.collect]⟩

end Allocated

/-! Operations of the registry -/

/-- What a step does to the registry, with the objects whose `close` may end. -/
inductive Op (detaches : Nat → Prop) (r : Registry) : Registry → Prop
  | same : Op detaches r r
  | tunes (channelMax : Nat) : Op detaches r { r with channelMax }
  | issues {id : Nat} (hunused : id ∉ r.usedChannelIds) (hid : id ≠ 0) :
      Op detaches r (r.issue id)
  | collectsChannel {o : Nat} (ho : o ≠ 0) : Op detaches r (r.collectChannel o)
  | detaches {o : Nat} (ho : detaches o) : Op detaches r (r.detach o)
  | collects : Op detaches r r.collect

theorem Allocated.op {detaches : Nat → Prop} {r r' : Registry} (h : r.Allocated)
    (hop : Op detaches r r') : r'.Allocated := by
  cases hop with
  | same => exact h
  | tunes channelMax => exact ⟨h.created, h.named, h.nodup, h.keys, h.used, h.known⟩
  | issues hunused hid => exact h.issue hunused hid
  | collectsChannel ho => exact h.collectChannel _
  | detaches => exact h.detach _
  | collects => exact h.collect

end Registry

variable {P : Promises Reply}

/-- The `finally` of the `close` of a channel runs. -/
inductive Detaches (cfg : Config) (s : Connection P) : Event → Nat → Prop
  | refused {o : Nat} (ho : o ≠ 0) (hcall : s.MayCall o)
      (hrefused : s.attached o = true → s.channels ≠ none → s.isOpen o = true →
        ∃ e, cfg.write s.writes = .error e) :
      Detaches cfg s (.closeChannel o) o
  | ended {id : Nat} {rest : List Activation} (hstack : s.stack = .wait id :: rest)
      (htask : (s.waits id).task = .closeChannel) (hended : s.Ended id) :
      Detaches cfg s .go (s.waits id).owner

theorem CollectsOn.op {detaches : Nat → Prop} {closing : Except PyError Unit} {e : PyError}
    {r r' : Registry} {l l' : Link} (h : CollectsOn closing e r l r' l') : r.Op detaches r' := by
  cases h with
  | kept => exact .same
  | collected => exact .collects

theorem Move.op {cfg : Config} {s : Connection P} {event : Event} {r : Registry} {l : Link}
    {k : Calls P} {log : List Entry} (hmove : Move cfg s event r l k log) :
    s.toRegistry.Op (Detaches cfg s event) r := by
  cases hmove with
  | connectFails _ _ _ hcollects | connectRaises _ _ hcollects | closeRefused _ _ _ _ hcollects
    | closeRaises _ _ _ hcollects => exact hcollects.op
  | collects | closesDown => exact .collects
  | constructs hconstruct =>
      obtain ⟨id', hunused, hid, hrun⟩ | ⟨e, hrun⟩ := Registry.construct_cases _ s.toRegistry
      all_goals obtain ⟨-, rfl⟩ := Prod.mk.inj (hconstruct.symm.trans hrun)
      · exact .issues hunused hid
      · exact .same
  | detaches ho hcall hrefused => exact .detaches (.refused ho hcall hrefused)
  | closeChannelEnds hstack htask hended => exact .detaches (.ended hstack htask hended)
  | collectsChannel ho | closesDownChannel ho => exact .collectsChannel ho
  | listens => exact .tunes _
  | _ => exact .same

theorem run_allocated (cfg : Config) (events : List Event) :
    (run cfg events : Connection P).toRegistry.Allocated := by
  have hstart : (init cfg : Connection P).toRegistry.Allocated := by
    refine ⟨Nat.one_pos, fun o ho => ?_, List.nodup_nil, ?_, ?_, ?_⟩
    · simp [init, ho]
    all_goals simp [init, Assoc.keys]
  exact List.foldlRecOn (motive := fun s : Connection P => s.toRegistry.Allocated) events
    (step cfg) hstart fun s h event _ => h.op (step_move cfg s event).op

/-- What the two copies of the channel ids say, and what an allocation does: a channel
gets an id that no registered channel has, without a `channel_id` the least free one, and
only when there is none it raises `ResourceError`. -/
structure Registry.ChannelIds (r : Registry) (channels : List (Nat × Nat)) : Prop where
  nodup : r.usedChannelIds.Nodup
  used : ∀ id, id ∈ r.usedChannelIds ↔ id ∈ Assoc.keys channels ∧ id ≠ 0
  issued : ∀ id o r', construct id r = (.ok o, r') →
    ∃ id', id' ∉ Assoc.keys channels ∧ r'.channelId o = some id' ∧
      r'.channels = some (channels ++ [(id', o)])
  least : ∀ id, IsLeast {id | r.Free id} id → construct none r = (.ok r.created, r.issue id)
  full : (∃ e, (construct none r).1 = .error e) ↔
    ∀ id, 1 ≤ id → id ≤ r.channelMax → id ∈ r.usedChannelIds
  refused : ∀ e r', construct none r = (.error e, r') → e = r.noFreeChannelIds ∧ r' = r

theorem Registry.Allocated.channelIds {r : Registry} {channels : List (Nat × Nat)}
    (h : r.Allocated) (hchannels : r.channels = some channels) (hmax : r.channelMax ≤ 65535) :
    r.ChannelIds channels := by
  have hleast : ∀ id, IsLeast {id | r.Free id} id → construct none r = (.ok r.created, r.issue id) :=
    fun id hleast => construct_least hleast hmax
  have hnone : (∀ id, ¬ r.Free id) ∨ ∃ id, IsLeast {id | r.Free id} id := by
    by_cases hfull : ∀ id, ¬ r.Free id
    · exact .inl hfull
    · simp only [not_forall, not_not] at hfull
      exact .inr (exists_least hfull.choose_spec)
  refine ⟨h.nodup, h.used channels hchannels, fun id o r' hrun => ?_, hleast, ⟨?_, fun hall => ?_⟩,
    fun e r' hrun => ?_⟩
  · obtain ⟨id', hunused, hid, hissue⟩ | ⟨e, hissue⟩ := construct_cases id r
    · obtain ⟨ho, rfl⟩ := Prod.mk.inj (hrun.symm.trans hissue)
      obtain rfl := Except.ok.inj ho
      exact ⟨id', h.notMem_keys hchannels hunused hid, Function.update_self ..,
        h.issue_channels hchannels hunused hid⟩
    · rw [hissue] at hrun
      simp at hrun
  · rintro ⟨e, herror⟩ id hpos hle
    obtain hfull | ⟨least, hleast'⟩ := hnone
    · by_contra hunused
      exact hfull id ⟨hpos, hle, hunused⟩
    · rw [hleast least hleast'] at herror
      simp at herror
  · exact ⟨r.noFreeChannelIds, by rw [construct_full fun id hfree => hfree.2.2 (hall id hfree.1 hfree.2.1)]⟩
  · obtain hfull | ⟨least, hleast'⟩ := hnone
    · rw [construct_full hfull] at hrun
      obtain ⟨he, rfl⟩ := Prod.mk.inj hrun
      exact ⟨(Except.error.inj he).symm, rfl⟩
    · rw [hleast least hleast'] at hrun
      simp at hrun

/-- `channel()` makes a channel, or raises what making one raises. -/
theorem channel_construct (cfg : Config) {s : Connection P} (h : s.channels ≠ none) :
    (channel cfg none s).toRegistry = (Registry.construct none s.toRegistry).2 ∧
      ∀ e, (Registry.construct none s.toRegistry).1 = .error e →
        (channel cfg none s).control = .raising e := by
  have hopens : ∀ o (s : Connection P), (openChannel cfg o s).toRegistry = s.toRegistry := by
    intro o s
    unfold openChannel
    split
    · rfl
    · obtain ⟨l, writes, -, hrun | ⟨e, hrun⟩⟩ :=
        sendAndWait_cases cfg o Spec.Channel.open .open s
      all_goals rw [hrun]
      rfl
  unfold channel
  split
  next hnone => exact absurd hnone h
  next =>
    simp only [Option.bind_none]
    split
    next o r hrun =>
      rw [hrun]
      exact ⟨hopens o _, by simp⟩
    next e r hrun =>
      rw [hrun]
      refine ⟨rfl, fun e' he => ?_⟩
      obtain rfl := Except.error.inj he
      rfl

/-- In every run that has not collected the connection, the two copies of the channel ids
agree, and `channel()` allocates by them. -/
theorem run_channelIds (cfg : Config) (events : List Event) {channels : List (Nat × Nat)}
    (hchannels : (run cfg events : Connection P).channels = some channels)
    (hmax : (run cfg events : Connection P).channelMax ≤ 65535) :
    let s : Connection P := run cfg events
    s.ChannelIds channels ∧
      (channel cfg none s).toRegistry = (Registry.construct none s.toRegistry).2 ∧
      ∀ e, (Registry.construct none s.toRegistry).1 = .error e →
        (channel cfg none s).control = .raising e := by
  have hids := (run_allocated (P := P) cfg events).channelIds hchannels hmax
  exact ⟨hids, channel_construct cfg (by simp [hchannels])⟩

/-- After the handshake `channel(2)`, opened by the server. -/
def openEvents : List Event :=
  handshake ++ [.channel (some 2), .go, .deliver 2 { methodSig := Spec.Channel.openOk, payload := [] },
    .return, .go, .go, .go]

theorem run_channelIds_opened :
    let s : Connection (plainPromises Reply) := run plainConfig openEvents
    s.ChannelIds [(0, 0), (2, 1)] ∧
      (channel plainConfig none s).toRegistry = (Registry.construct none s.toRegistry).2 ∧
      ∀ e, (Registry.construct none s.toRegistry).1 = .error e →
        (channel plainConfig none s).control = .raising e :=
  run_channelIds plainConfig openEvents (by decide +kernel) (by decide +kernel)

end Connection

end PyAmqp
