import PyAmqp.Connection.Closing
import PyAmqp.Base.Run

/-!
After `close` has sent its method, every method but a `Close` or a `CloseOk` must be
discarded. `is_closing` is a flag of the object that closes alone, and the `close` of a
connection does not set that of its channels.
-/

namespace PyAmqp

namespace Connection

variable {P : Promises Reply}

/-- A `close` of the object waits. -/
def Closing (s : Connection P) (o : Nat) : Prop := o ∈ s.closing.map Prod.fst

instance (s : Connection P) (o : Nat) : Decidable (s.Closing o) :=
  inferInstanceAs (Decidable (_ ∈ _))

def closeMethods : List MethodSig :=
  [Spec.Connection.close, Spec.Connection.closeOk, Spec.Channel.close, Spec.Channel.closeOk]

/-- An object hears a method that it knows, and that it has a listener or a promise for. -/
def Hears (s : Connection P) (o : Nat) (sig : MethodSig) : Prop :=
  (lookup o sig).isOk = true ∧ (s.pending o sig ≠ none ∨ Listened o sig)

instance (s : Connection P) (o : Nat) (sig : MethodSig) : Decidable (s.Hears o sig) :=
  inferInstanceAs (Decidable (_ ∧ (_ ∨ _)))

/-- No object is closed while a `close` of it waits; and while that of the connection
does, a method other than a `Close` or a `CloseOk` comes only for objects that close too,
or do not hear it. -/
def ClosesAlone (s : Connection P) : Event → Prop
  | .close => s.MayCall 0 → s.transport ≠ none → ¬ s.Closing 0
  | .closeChannel o => s.MayCall o → ¬ s.Closing o
  | .deliver channel m =>
      s.MayRead → s.Closing 0 → m.methodSig ∉ closeMethods →
        ∀ o ∈ s.routed channel, s.Closing o ∨ ¬ s.Hears o m.methodSig
  | _ => True

instance (s : Connection P) : (event : Event) → Decidable (ClosesAlone s event)
  | .close => inferInstanceAs (Decidable (_ → _ → _))
  | .closeChannel _ => inferInstanceAs (Decidable (_ → _))
  | .deliver channel _ =>
      inferInstanceAs (Decidable (_ → _ → _ → ∀ o ∈ s.routed channel, _ ∨ _))
  | .go | .connect _ | .collect | .channel _ | .open _ | .collectChannel _ | .send _ _
    | .call _ _ _ _ | .return | .raise _ | .fail _ => .isTrue trivial

/-- A method is discarded: no listener and no promise is called, and all else stays. -/
structure Discarded (s s' : Connection P) : Prop where
  calls : s'.toCalls = s.toCalls
  registry : s'.toRegistry = s.toRegistry
  isOpen : s'.isOpen = s.isOpen
  writes : s'.writes = s.writes
  log : s'.log = s.log

/-- While a `close` of the connection waits every method but a `Close` or a `CloseOk` is
discarded, and while one of a channel does those for that channel are. -/
def Discards (cfg : Config) (s : Connection P) : Event → Prop
  | .deliver channel m =>
      m.methodSig ∉ closeMethods → (s.Closing 0 ∨ ∃ o ∈ s.routed channel, s.Closing o) →
        Discarded s (step cfg s (.deliver channel m))
  | _ => True

/-! The flags -/

/-- An object closes once at a time, and says so. -/
structure FlagsOk (k : Calls P) : Prop where
  nodup : (k.closing.map Prod.fst).Nodup
  flags : ∀ o ∈ k.closing.map Prod.fst, k.isClosing o = true

theorem FlagsOk.closes {s : Connection P} {k : Calls P} {event : Event} (h : FlagsOk s.toCalls)
    (halone : ClosesAlone s event) (hcloses : Closes s k event) : FlagsOk k := by
  have hstarts : ∀ {o : Nat} {task : Task}, ¬ s.Closing o →
      k.closing = (o, task) :: s.closing → k.isClosing = Function.update s.isClosing o true →
      FlagsOk k := by
    intro o task hnot hclosing hflags
    refine ⟨?_, fun o' ho' => ?_⟩
    · rw [hclosing]
      exact List.nodup_cons.mpr ⟨hnot, h.nodup⟩
    · by_cases ho : o' = o
      · rw [hflags, ho, Function.update_self]
      · rw [hclosing] at ho'
        rw [hflags, Function.update_of_ne ho]
        exact h.flags o' ((List.mem_cons.mp ho').resolve_left ho)
  cases hcloses with
  | keeps hclosing hflags =>
      refine ⟨by rw [hclosing]; exact h.nodup, fun o ho => ?_⟩
      rw [hflags]
      exact h.flags o (hclosing ▸ ho)
  | starts htransport _ hcall hclosing hflags =>
      exact hstarts (halone hcall (by simp [htransport])) hclosing hflags
  | startsChannel hcall hclosing hflags => exact hstarts (halone hcall) hclosing hflags
  | @refused o _ hcall hevent hclosing hflags =>
      have hnot : ¬ s.Closing o := by
        obtain rfl | ⟨rfl, rfl, htransport⟩ := hevent
        · exact halone hcall
        · exact halone hcall htransport
      refine ⟨by rw [hclosing]; exact h.nodup, fun o' ho' => ?_⟩
      rw [hclosing] at ho'
      have ho : o' ≠ o := fun heq => hnot (heq ▸ ho')
      rw [hflags, Function.update_of_ne ho]
      exact h.flags o' ho'
  | @ends o task hclosing hflags =>
      have hnodup := h.nodup
      rw [hclosing, List.map_cons, List.nodup_cons] at hnodup
      refine ⟨hnodup.2, fun o' ho' => ?_⟩
      have ho : o' ≠ o := fun heq => hnodup.1 (heq ▸ ho')
      rw [hflags, Function.update_of_ne ho]
      exact h.flags o' (by rw [hclosing]; exact List.mem_cons_of_mem _ ho')

theorem allowedWhenClosing_subset (o : Nat) : ∀ sig ∈ allowedWhenClosing o, sig ∈ closeMethods := by
  unfold allowedWhenClosing
  split <;> decide

/-- A method that the object does not hear, or must ignore, is discarded. -/
theorem dispatchMethod_discarded {cfg : Config} {s : Connection P} {o : Nat} {m : Inbound}
    {l : Link} (hsig : m.methodSig ∉ closeMethods)
    (hignored : s.isClosing o = true ∨ ¬ s.Hears o m.methodSig) :
    Discarded s (dispatchMethod cfg o m { s with toLink := l }) := by
  unfold dispatchMethod
  split
  next => exact ⟨rfl, rfl, rfl, rfl, rfl⟩
  next hnot =>
    have hclosing : ¬ s.isClosing o = true := fun hclosing =>
      hnot ⟨hclosing, fun hallowed => hsig (allowedWhenClosing_subset o _ hallowed)⟩
    have hunheard := hignored.resolve_left hclosing
    split
    next => exact ⟨rfl, rfl, rfl, rfl, rfl⟩
    next method hlookup =>
      have hnone : s.pending o m.methodSig = none ∧ ¬ Listened o m.methodSig := by
        rw [Hears, hlookup] at hunheard
        simpa [Except.isOk, Except.toBool] using hunheard
      simp only
      rw [if_pos hnone]
      refine ⟨?_, rfl, rfl, rfl, rfl⟩
      have hpending : Function.update s.pending o
          (Function.update (s.pending o) m.methodSig none) = s.pending := by
        rw [← hnone.1, Function.update_eq_self, Function.update_eq_self]
      simp only [goOn, Calls.take, hpending]

theorem FlagsOk.discards {cfg : Config} {s : Connection P} {event : Event}
    (h : FlagsOk s.toCalls) (halone : ClosesAlone s event) : Discards cfg s event := by
  cases event with
  | deliver channel m =>
      intro hsig hcloses
      simp only [step]
      split
      next hread =>
        obtain ⟨l, hreceive, -, -⟩ := receive_eq channel m s
        rw [hreceive]
        unfold onInboundMethod
        split
        next => exact ⟨rfl, rfl, rfl, rfl, rfl⟩
        next channels hchannels =>
          split
          next o hget =>
            have hrouted : s.routed channel = some o := by rw [routed, hchannels]; exact hget
            refine dispatchMethod_discarded hsig ?_
            obtain hzero | ⟨o', ho', hclosing⟩ := hcloses
            · exact (halone hread hzero hsig o hrouted).imp_left (h.flags o)
            · obtain rfl := Option.some.inj (ho'.symm.trans hrouted)
              exact .inl (h.flags _ hclosing)
          next => exact ⟨rfl, rfl, rfl, rfl, rfl⟩
      next => exact ⟨rfl, rfl, rfl, rfl, rfl⟩
  | _ => trivial

/-- In every run where objects close alone, methods that come while a `close` waits are
discarded. -/
theorem run_discards (cfg : Config) (events : List Event)
    (halone : Run.Along (step cfg) ClosesAlone (init cfg : Connection P) events) :
    Run.Along (step cfg) (Discards cfg) (init cfg : Connection P) events := by
  have hstart : (init cfg : Connection P).Reachable ∧ FlagsOk (init cfg : Connection P).toCalls :=
    ⟨init_reachable cfg, ⟨List.nodup_nil, by simp [init, Calls.closing, Activation.closing?]⟩⟩
  refine Run.Along.of_invariant (I := fun s : Connection P => s.Reachable ∧ FlagsOk s.toCalls)
    (fun s event h hcond => ⟨h.1.step cfg event, ?_⟩) (fun s event h hcond => h.2.discards hcond)
    hstart halone
  exact h.2.closes hcond ((step_move cfg s event).closing h.1)

/-- A message for a consumer. -/
def delivery : Inbound :=
  { methodSig := Spec.Basic.deliver
    payload := [0, 60, 0, 60, 0, 0, 0, 0, 0, 0, 0, 0, 1, 0, 0, 0] }

/-- A message arrives while the channel closes, and a `Blocked` while the connection does. -/
def ignoredEvents : List Event :=
  openEvents ++
    [.closeChannel 1, .go, .deliver 2 delivery, .go,
      .deliver 2 { methodSig := Spec.Channel.closeOk, payload := [] }, .go, .go, .go,
      .close, .go, .deliver 0 { methodSig := Spec.Connection.blocked, payload := [] }, .go,
      .deliver 0 { methodSig := Spec.Connection.closeOk, payload := [] }, .go, .go]

theorem run_discards_ignored :
    Run.Along (step plainConfig) (Discards plainConfig)
      (init plainConfig : Connection (plainPromises Reply)) ignoredEvents :=
  run_discards plainConfig ignoredEvents (by decide +kernel)

/-- While the connection closes, the message for its channel runs the consumer. -/
theorem run_discards_delivery :
    let s : Connection (plainPromises Reply) := run plainConfig (openEvents ++ [.close, .go])
    s.Closing 0 ∧ ¬ Discards plainConfig s (.deliver 2 delivery) := by
  intro s
  have hclosing : s.Closing 0 := by decide +kernel
  have hlength : (step plainConfig s (.deliver 2 delivery)).stack.length = s.stack.length + 2 := by
    decide +kernel
  refine ⟨hclosing, fun hdiscards => ?_⟩
  have hsame := (hdiscards (by decide) (.inl hclosing)).calls
  have hstack := congrArg (fun k => k.stack.length) hsame
  omega

end Connection

end PyAmqp
