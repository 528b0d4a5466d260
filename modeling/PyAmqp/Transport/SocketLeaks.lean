import PyAmqp.Transport.SocketReady

/-!
The sockets of a transport over a whole run of `connect`, `close` and failed reads and writes: no
socket is left open but the one that is held, as long as no `connect` puts a new socket in the
place of an open one.
-/

namespace PyAmqp

namespace Sockets

variable {α : Type}

section Leaks

variable {cfg : SocketConfig} {n : Nat} {sock : Sock α} {s : Sockets α}

/-! What other states keep -/

/-- Of the socket that is held, `I` depends on no more than `view`. -/
structure Sees {β : Type} (view : Sock α → β) (I : Sockets α → Prop) : Prop where
  calls : ∀ s calls, I s → I { s with calls }
  change : ∀ s i f, I s → s.sock = some i → (∀ sock, view (f sock) = view sock) → I (s.change i f)

/-- What calls of the libraries on the socket that is held do not change. -/
structure Kept (I : Sockets α → Prop) : Prop where
  calls : ∀ s calls, I s → I { s with calls }
  receiver : ∀ s receiver, I s → I { s with receiver }
  change : ∀ s i f, I s → s.sock = some i → (∀ sock, (f sock).closed = sock.closed) →
    I (s.change i f)

theorem Kept.sees {I : Sockets α → Prop} (hI : Kept I) : Sees Sock.closed I := ⟨hI.calls, hI.change⟩

theorem Sees.mono {β γ : Type} {view : Sock α → β} {view' : Sock α → γ} {I : Sockets α → Prop}
    (hI : Sees view I) (g : γ → β) (hg : ∀ sock, view sock = g (view' sock)) : Sees view' I :=
  ⟨hI.calls, fun s i f hs hi hf => hI.change s i f hs hi fun sock => by rw [hg, hg, hf]⟩

section Steps

variable {β : Type} {view : Sock α → β} {I : Sockets α → Prop}

theorem onSock_keeps (hI : Sees view I) (f : Sock α → Sock α)
    (hf : ∀ sock, view (f sock) = view sock) :
    Effect.Triple I (onSock cfg f) (fun _ => I) (fun _ => I) := by
  intro s hs
  cases hheld : s.sock with
  | none =>
      simp only [onSock, hheld]
      exact hs
  | some i =>
      simp only [onSock, hheld]
      cases s.made[i]?.any fun sock => sock.closed with
      | true => exact hs
      | false =>
          have hcall := @call_keeps α cfg (fun s => I s ∧ s.sock = some i) (Sockets.change i f) I
            (fun s calls h => ⟨hI.calls s calls h.1, h.2⟩)
            (fun s h => hI.change s i f h.1 h.2 hf) s ⟨hs, hheld⟩
          revert hcall
          simp only [Bool.false_eq_true, if_false]
          rcases call cfg (Sockets.change i f) s with ⟨e | _, s'⟩
          · exact And.left
          · exact id

theorem getTcpSocketDefaults_keeps (hI : Sees view I) (opts : List String)
    (tcpOpts : List (Nat × OptionValue)) :
    Effect.Triple I (getTcpSocketDefaults cfg opts tcpOpts) (fun _ => I) (fun _ => I) := by
  induction opts generalizing tcpOpts with
  | nil => exact .pure _ fun s h => h
  | cons opt rest ih =>
      unfold getTcpSocketDefaults
      simp only
      split
      · exact ih _
      · exact ih _
      split
      · exact ih _
      · exact (onSock_keeps hI id fun _ => rfl).bind fun _ => ih _
      · exact ih _

theorem setInterval_keeps (hI : Sees view I) (interval : Option ℚ)
    (f : Int × Int → Sock α → Sock α) (hf : ∀ value sock, view (f value sock) = view sock) :
    Effect.Triple I (setInterval cfg interval f) (fun _ => I) (fun _ => I) := by
  cases interval with
  | none => exact .pure () fun s h => h
  | some interval => exact onSock_keeps hI _ (hf _)

end Steps

/-- Whether a socket is closed, and whether it is wrapped. -/
def Sock.outline (sock : Sock α) : Bool × Bool := (sock.closed, sock.session.isSome)

variable {I : Sockets α → Prop}

theorem Kept.outline (hI : Kept I) : Sees Sock.outline I := hI.sees.mono Prod.fst fun _ => rfl

/-- What `_init_socket` does before it sets the transport up. -/
theorem options_keep (hI : Sees Sock.outline I) :
    Effect.Triple I
      (do
        onSock cfg fun sock => { sock with timeout := none }
        onSock cfg fun sock => { sock with keepAlive := true }
        setSocketOptions cfg
        setInterval cfg cfg.writeTimeout fun value sock => { sock with sndTimeo := some value }
        setInterval cfg cfg.readTimeout fun value sock => { sock with rcvTimeo := some value })
      (fun _ => I) (fun _ => I) := by
  have hoptions : Effect.Triple I (setSocketOptions cfg) (fun _ => I) (fun _ => I) :=
    (getTcpSocketDefaults_keeps hI _ _).bind fun _ =>
      .forEach fun entry _ => onSock_keeps hI _ fun _ => rfl
  refine .bind (onSock_keeps hI _ fun _ => rfl) fun _ => ?_
  refine .bind (onSock_keeps hI _ fun _ => rfl) fun _ => ?_
  refine .bind hoptions fun _ => ?_
  refine .bind (setInterval_keeps hI _ _ fun _ _ => rfl) fun _ => ?_
  exact setInterval_keeps hI _ _ fun _ _ => rfl

theorem setupTransport_keeps (hI : Kept I) :
    Effect.Triple I (setupTransport cfg) (fun _ => I) (fun _ => I) := by
  have hwrap : Effect.Triple I (wrapSock cfg) (fun _ => I) (fun _ => I) := by
    unfold wrapSock
    cases cfg.kind with
    | tcp => exact .pure () fun s h => h
    | ssl =>
        refine (Effect.Triple.liftExcept_keeps _).bind fun session => ?_
        refine .bind (onSock_keeps hI.sees _ fun _ => rfl) fun _ => ?_
        refine .bind (onSock_keeps hI.sees _ fun _ => rfl) fun _ => ?_
        exact onSock_keeps hI.sees _ fun _ => rfl
  exact hwrap.bind fun _ => .modify fun s h => hI.receiver s _ h

theorem writeHeader_keeps (hI : Sees Sock.outline I) (sends : List Send) :
    Effect.Triple I (writeHeader cfg sends) (fun _ => I) (fun _ => I) := by
  intro s hs
  cases hheld : s.sock with
  | none =>
      simp only [writeHeader, hheld]
      exact hs
  | some i =>
      simp only [writeHeader, hheld]
      rcases Outbound.rawWrite cfg.kind amqpProtocolHeader
        { sent := (s.made[i]?.map Sock.sent).getD [], sends } with ⟨e | _, out⟩
      · exact hI.change s i _ hs hheld fun _ => rfl
      · exact hI.change s i _ hs hheld fun _ => rfl

theorem initSocket_keeps (hI : Kept I) (sends : List Send) :
    Effect.Triple I (initSocket cfg sends) (fun _ => I) (fun _ => I) := by
  have hoptions := @options_keep α cfg I hI.outline
  have hheader := @writeHeader_keeps α cfg I hI.outline sends
  have hsetup := @setupTransport_keeps α cfg I hI
  have hall := hoptions.bind fun _ => hsetup.bind fun _ => hheader
  simpa only [initSocket, bind_assoc] using hall

theorem Tidy.change (h : s.Tidy) {i : Nat} (hi : s.sock = some i) (f : Sock α → Sock α) :
    (s.change i f).Tidy := by
  constructor
  · intro j hj
    rw [Sockets.change, List.length_modify]
    exact h.held j hj
  · intro j sock hj hopen
    by_cases hij : i = j
    · rw [← hij]
      exact hi
    · rw [Sockets.change, List.getElem?_modify_ne _ _ hij] at hj
      exact h.opened j sock hj hopen

theorem kept_down : Kept (Down (α := α) n) := by
  refine ⟨fun s calls h => ?_, fun s receiver h => ?_, fun s i f h hi _ => ?_⟩
  · exact h.calls calls
  · exact ⟨⟨h.tidy.held, h.tidy.opened⟩, h.connected, h.count⟩
  · refine ⟨h.tidy.change hi f, h.connected, ?_⟩
    rw [Sockets.change, List.length_modify]
    exact h.count

/-- The transport has its socket. -/
def HasSock (i : Nat) (s : Sockets α) : Prop := s.Tidy ∧ s.sock = some i

theorem kept_hasSock (i : Nat) : Kept (HasSock (α := α) i) := by
  refine ⟨fun s calls h => ?_, fun s receiver h => ?_, fun s j f h hj _ => ?_⟩
  · exact ⟨⟨h.1.held, h.1.opened⟩, h.2⟩
  · exact ⟨⟨h.1.held, h.1.opened⟩, h.2⟩
  · exact ⟨h.1.change hj f, h.2⟩

/-- A socket is open, and the transport does not hold it. -/
structure Lost (i : Nat) (s : Sockets α) : Prop where
  isOpen : ∃ sock, s.made[i]? = some sock ∧ sock.closed = false
  lost : s.sock ≠ some i

theorem Lost.change {i j : Nat} (h : Lost i s) (hj : s.sock = some j) (f : Sock α → Sock α) :
    Lost i (s.change j f) := by
  obtain ⟨sock, hsock, hopen⟩ := h.isOpen
  refine ⟨⟨sock, ?_, hopen⟩, h.lost⟩
  have hij : j ≠ i := fun hij => h.lost (hij ▸ hj)
  rw [Sockets.change, List.getElem?_modify_ne _ _ hij]
  exact hsock

theorem kept_lost (i : Nat) : Kept (Lost (α := α) i) :=
  ⟨fun _ _ h => ⟨h.isOpen, h.lost⟩, fun _ _ h => ⟨h.isOpen, h.lost⟩,
    fun _ _ f h hj _ => h.change hj f⟩

/-- The transport is connected to `address` with a socket that is ready, and those that it made
before, at most `n`, are closed. -/
structure ConnectedTo (cfg : SocketConfig) (n : Nat) (address : α) (s : Sockets α) : Prop where
  ready : ∃ others sock, s.made = others ++ [sock] ∧ AllClosed others ∧ others.length ≤ n ∧
    s.sock = some others.length ∧ Ready cfg address sock
  receiver : s.receiver = s.sock
  connected : s.connected = true

/-- From `s`, the first address that was reached is the one that the transport is connected to in
`s'`: those before it were tried in turn, and not reached. -/
def Reached (cfg : SocketConfig) (s : Sockets α) (addresses : List α) (s' : Sockets α) : Prop :=
  ∃ tried address rest failed reached, addresses = tried ++ address :: rest ∧
    Unreached cfg tried s failed ∧ reach cfg address failed = (.ok (), reached) ∧
    ConnectedTo cfg (s.made.length + tried.length) address s'

theorem ConnectedTo.tidy {address : α} (h : ConnectedTo cfg n address s) : s.Tidy := by
  obtain ⟨others, sock, hmade, hclosed, hcount, hheld, hready⟩ := h.ready
  have hdown : Holds n sock { s with connected := false } :=
    ⟨⟨others, hmade, hclosed, hcount, hheld⟩, hready.isOpen, rfl⟩
  exact ⟨hdown.tidy.held, hdown.tidy.opened⟩

/-- The `try` block of `connect` connects the transport to an address, or it raises. An empty
list of addresses leaves it with the socket it had. -/
theorem tryConnect_reached (addresses : Except PyError (List α)) (sends : List Send)
    (hs : s.Tidy) (hconnected : s.connected = false)
    (hfrees : ∀ address rest, addresses = .ok (address :: rest) → s.Frees cfg) :
    match tryConnect cfg addresses sends s with
    | (.ok _, s') => ∃ list, addresses = .ok list ∧ s'.Tidy ∧ (list = [] ∨ Reached cfg s list s')
    | (.error _, s') => ∃ m, Down m s' := by
  have hdown := hs.down hconnected
  simp only [tryConnect, Effect.bind_run, Effect.get_run, hconnected, Bool.false_eq_true,
    if_false, Effect.liftExcept_run]
  cases addresses with
  | error e => exact ⟨_, hdown⟩
  | ok list =>
      cases list with
      | nil =>
          have hinit := @initSocket_keeps α cfg _ (kept_down (n := s.made.length)) sends s hdown
          simp only [dial, Effect.pure_run]
          revert hinit
          rcases initSocket cfg sends s with ⟨e | _, s'⟩
          · exact fun h => ⟨_, h⟩
          · exact fun h => ⟨[], rfl, ⟨h.tidy.held, h.tidy.opened⟩, .inl rfl⟩
      | cons address rest =>
          have hdial := @dial_reaches α cfg _ s (address :: rest) hdown (hfrees address rest rfl)
          simp only
          revert hdial
          rcases dial cfg (address :: rest) s with ⟨e | _, s'⟩
          · exact id
          · rintro (⟨hnil, -⟩ | ⟨tried, address', rest', failed, hlist, hfailed, hreached, hholds⟩)
            · cases hnil
            · have hinit := @initSocket_settled α cfg _ address' sends cfg.connectTimeout s' hholds
              simp only
              revert hinit
              rcases initSocket cfg sends s' with ⟨e | _, s''⟩
              · rintro ⟨sock, hsock⟩
                exact ⟨_, hsock.down⟩
              · intro hsettled
                obtain ⟨sock, hsock, hready⟩ := hsettled.ready
                obtain ⟨others, hmade, hclosed, hcount, hheld⟩ := hsock.others
                have hto : ConnectedTo cfg (s.made.length + tried.length) address'
                    { s'' with connected := true } :=
                  ⟨⟨others, sock, hmade, hclosed, hcount, hheld, hready⟩, hsettled.receiver, rfl⟩
                exact ⟨_, rfl, hto.tidy, .inr ⟨tried, address', rest', failed, s', hlist, hfailed,
                  hreached, hto⟩⟩

/-- A `connect` that raises leaves the transport unconnected, and if what it raises is an
`OSError`, no socket open. -/
structure Refused (e : PyError) (s : Sockets α) : Prop where
  connected : s.connected = false
  tidy : s.Tidy
  closed : e.isOSError = true → AllClosed s.made

theorem Spent.refused {e : PyError} (h : Spent n s) : Refused e s :=
  ⟨h.connected, h.tidy, fun _ => h.closed⟩

theorem abandon_spent :
    Effect.Triple (Down n) (abandon (α := α) cfg) (fun _ => Spent n) (fun _ => Spent n) := by
  intro s hs
  by_cases hsock : s.sock.isSome = true
  · have hclose : Effect.Triple (Down n) (do
        closeSock cfg
        Effect.modify fun s : Sockets α => { s with sock := none })
        (fun _ => Spent n) (fun _ => Spent n) :=
      closeSock_spent.bind fun _ => .modify fun s h => h.forget
    have hrun := hclose s hs
    have hconnected := hs.connected
    simpa only [abandon, Effect.bind_run, Effect.get_run, hsock, hconnected, Bool.false_eq_true,
      not_false_eq_true, and_self, if_true] using hrun
  · have hnone : s.sock = none := by simpa using hsock
    simp only [abandon, Effect.bind_run, Effect.get_run, hnone, Option.isSome_none,
      Bool.false_eq_true, false_and, if_false, Effect.pure_run]
    exact hs.spent hnone

theorem onConnectError_refused (e : PyError) {Q : Unit → Sockets α → Prop} :
    Effect.Triple (Down n) (onConnectError cfg e) Q Refused := by
  unfold onConnectError
  by_cases hos : e.isOSError = true
  · rw [if_pos hos]
    exact .bind (abandon_spent.weaken_error fun _ s h => h.refused) fun _ =>
      .raise fun s h => h.refused
  · rw [if_neg hos]
    exact .raise fun s h => ⟨h.connected, h.tidy, fun h => absurd h hos⟩

/-- `connect` of a transport that is not connected. -/
theorem connect_reached (addresses : Except PyError (List α)) (sends : List Send)
    (hs : s.Tidy) (hconnected : s.connected = false)
    (hfrees : ∀ address rest, addresses = .ok (address :: rest) → s.Frees cfg) :
    match connect cfg addresses sends s with
    | (.ok _, s') => ∃ list, addresses = .ok list ∧ s'.Tidy ∧ (list = [] ∨ Reached cfg s list s')
    | (.error e, s') => Refused e s' := by
  have htry := tryConnect_reached addresses sends hs hconnected hfrees
  unfold connect Effect.tryCatch
  revert htry
  rcases tryConnect cfg addresses sends s with ⟨e | _, s'⟩
  · rintro ⟨m, hdown⟩
    have hrefused := @onConnectError_refused α cfg m e (fun _ s' => ∃ list,
      addresses = .ok list ∧ s'.Tidy ∧ (list = [] ∨ Reached cfg s list s')) s' hdown
    simp only
    revert hrefused
    rcases onConnectError cfg e s' with ⟨e' | _, s''⟩
    · exact id
    · exact id
  · exact id

theorem connect_connected (addresses : Except PyError (List α)) (sends : List Send)
    (h : s.connected = true) : connect cfg addresses sends s = (.ok (), s) := by
  simp [connect, Effect.tryCatch, tryConnect, h]

/-! A socket that is lost -/

theorem closeSock_lost (i : Nat) :
    Effect.Triple (Lost i) (closeSock (α := α) cfg) (fun _ => Lost i) (fun _ => Lost i) := by
  intro s hs
  cases hheld : s.sock with
  | none =>
      simp only [closeSock, hheld]
      exact hs
  | some j =>
      simp only [closeSock, hheld]
      exact call_keeps (fun s calls h => (kept_lost i).calls s calls h) (fun s h => h) _
        (hs.change hheld _)

theorem Lost.forget {i : Nat} (h : Lost i s) : Lost i { s with sock := none } :=
  ⟨h.isOpen, fun hi => (by cases hi)⟩

theorem makeSocket_lost (i : Nat) :
    Effect.Triple (Lost i) (makeSocket (α := α) cfg) (fun _ => Lost i) (fun _ => Lost i) := by
  apply call_keeps
  · exact (kept_lost i).calls
  · intro s hs
    obtain ⟨sock, hsock, hopen⟩ := hs.isOpen
    have hi : i < s.made.length := (List.getElem?_eq_some_iff.mp hsock).1
    refine ⟨⟨sock, ?_, hopen⟩, fun hlast => ?_⟩
    · rw [List.getElem?_append_left hi]
      exact hsock
    · exact absurd (Option.some.inj hlast) hi.ne'

theorem drop_lost (i : Nat) :
    Effect.Triple (Lost i) (drop (α := α) cfg) (fun _ => Lost i) (fun _ => Lost i) := by
  have hclose : Effect.Triple (Lost i) (closeHeld (α := α) cfg) (fun _ => Lost i)
      (fun _ => Lost i) := by
    refine .bind (Q := fun _ => Lost i) (.get fun s h => h) fun t => ?_
    split
    · exact closeSock_lost i
    · exact .pure () fun s h => h
  exact hclose.bind fun _ => .modify fun s h => h.forget

/-- The loop of `_connect`, of which the first round makes a socket in place of an open one. -/
theorem dial_lost_cons {i : Nat} {address : α} {rest : List α}
    (hmake : Effect.Triple I (makeSocket cfg) (fun _ => Lost i) (fun _ => Lost i))
    (hrest : Effect.Triple (Lost i) (dial cfg rest) (fun _ => Lost i) (fun _ => Lost i)) :
    Effect.Triple I (dial cfg (address :: rest)) (fun _ => Lost i) (fun _ => Lost i) := by
  have hreach : Effect.Triple I (reach cfg address) (fun _ => Lost i) (fun _ => Lost i) := by
    refine hmake.bind fun _ => ?_
    refine .bind (onSock_keeps (kept_lost i).sees _ fun _ => rfl) fun _ => ?_
    refine .bind (onSock_keeps (kept_lost i).sees _ fun _ => rfl) fun _ => ?_
    exact onSock_keeps (kept_lost i).sees _ fun _ => rfl
  refine .tryCatch hreach fun e => ?_
  split
  · refine .bind (drop_lost i) fun _ => ?_
    split
    · exact .raise fun s h => h
    · exact hrest
  · exact .raise fun s h => h

theorem dial_lost (i : Nat) (addresses : List α) :
    Effect.Triple (Lost i) (dial cfg addresses) (fun _ => Lost i) (fun _ => Lost i) := by
  induction addresses with
  | nil => exact .pure () fun s h => h
  | cons address rest ih => exact dial_lost_cons (makeSocket_lost i) ih

theorem onConnectError_lost (i : Nat) (e : PyError) :
    Effect.Triple (Lost i) (onConnectError (α := α) cfg e) (fun _ => Lost i)
      (fun _ => Lost i) := by
  have habandon : Effect.Triple (Lost i) (abandon (α := α) cfg) (fun _ => Lost i)
      (fun _ => Lost i) := by
    refine .bind (Q := fun _ => Lost i) (.get fun s h => h) fun t => ?_
    split
    · exact (closeSock_lost i).bind fun _ => .modify fun s h => h.forget
    · exact .pure () fun s h => h
  unfold onConnectError
  split
  · exact habandon.bind fun _ => .raise fun s h => h
  · exact .raise fun s h => h

/-- A socket that is lost by the loop of `_connect`, or before, stays lost. -/
theorem connect_loses {i : Nat} (addresses : Except PyError (List α)) (sends : List Send)
    (hI : ∀ s, I s → s.connected = false)
    (hdial : ∀ list, addresses = .ok list →
      Effect.Triple I (dial cfg list) (fun _ => Lost i) (fun _ => Lost i))
    (herror : ∀ e, addresses = .error e → ∀ s, I s → Lost i s) :
    Effect.Triple I (connect cfg addresses sends) (fun _ => Lost i) (fun _ => Lost i) := by
  have hbody : Effect.Triple I (do
      dial cfg (← Effect.liftExcept addresses)
      initSocket cfg sends
      Effect.modify fun s => { s with connected := true }) (fun _ => Lost i) (fun _ => Lost i) := by
    refine .bind (Q := fun list s => addresses = .ok list ∧ I s)
      (.liftExcept (fun list hlist s hs => ⟨hlist, hs⟩) herror) fun list => ?_
    rintro s ⟨hlist, hs⟩
    refine Effect.Triple.bind (hdial list hlist) (fun _ => ?_) s hs
    refine .bind (initSocket_keeps (kept_lost i) sends) fun _ => ?_
    exact .modify fun s h => ⟨h.isOpen, h.lost⟩
  refine .tryCatch (F := fun _ => Lost i) ?_ fun e => onConnectError_lost i e
  intro s hs
  have hrun := hbody s hs
  simpa only [tryConnect, Effect.bind_run, Effect.get_run, hI s hs, Bool.false_eq_true, if_false]
    using hrun

/-- A `connect` that makes a socket in place of an open one loses that. -/
theorem connect_lost {address : α} {rest : List α} (sends : List Send) (hs : s.Tidy)
    (hconnected : s.connected = false) (hfrees : ¬ s.Frees cfg) :
    ∃ i, Lost i (connect cfg (.ok (address :: rest)) sends s).2 := by
  simp only [Frees, AllClosed, not_or, not_not, not_forall] at hfrees
  obtain ⟨⟨sock, hmem, hopen⟩, hmakes⟩ := hfrees
  obtain ⟨i, hi⟩ := List.getElem?_of_mem hmem
  have hheld : s.sock = some i := hs.opened i sock hi (by simpa using hopen)
  have hmake : Effect.Triple (fun s' => s' = s) (makeSocket cfg) (fun _ => Lost i)
      (fun _ => Lost i) := by
    rintro s' rfl
    have hlast := hs.held i hheld
    simp only [makeSocket, call, hmakes]
    refine ⟨⟨sock, ?_, by simpa using hopen⟩, fun hsome => ?_⟩
    · rw [List.getElem?_append_left hlast]
      exact hi
    · exact absurd (Option.some.inj hsome) hlast.ne'
  have hloses := connect_loses (I := fun s' => s' = s) (.ok (address :: rest)) sends
    (fun _ h => h ▸ hconnected)
    (fun list hlist => Except.ok.inj hlist ▸ dial_lost_cons hmake (dial_lost i rest))
    (fun e he => by cases he)
  exact ⟨i, hloses.state rfl⟩

/-- All sockets are closed. -/
def Over (s : Sockets α) : Prop := AllClosed s.made ∧ ∀ i, s.sock = some i → i < s.made.length

theorem Over.tidy (h : s.Over) : s.Tidy := by
  have hspent : Spent s.made.length { s with connected := false } :=
    ⟨h.1, Nat.le_refl _, h.2, rfl⟩
  exact ⟨hspent.tidy.held, hspent.tidy.opened⟩

theorem closeSock_over (i : Nat) :
    Effect.Triple (HasSock i) (closeSock (α := α) cfg) (fun _ => Over) (fun _ => Over) := by
  rintro s ⟨htidy, hheld⟩
  simp only [closeSock, hheld]
  refine call_keeps (fun s calls h => h) (fun s h => h) _ ⟨htidy.allClosed hheld, fun j hj => ?_⟩
  rw [Sockets.change, List.length_modify]
  exact htidy.held j hj

/-- What holds however a statement of `close` ends holds after it. -/
theorem ignoring_keeps {I' : Sockets α → Prop} {m : Effect (Sockets α) PyError Unit}
    (hm : Effect.Triple I m (fun _ => I') (fun _ => I')) :
    Effect.Triple I (ignoring m) (fun _ => I') (fun _ => I') := by
  refine .tryCatch hm fun e => ?_
  split
  · exact .pure () fun s h => h
  · exact .raise fun s h => h

theorem shutdownTransport_keeps (hI : Kept I) :
    Effect.Triple I (shutdownTransport cfg) (fun _ => I) (fun _ => I) := by
  unfold shutdownTransport
  cases cfg.kind with
  | tcp => exact .pure () fun s h => h
  | ssl =>
      refine .bind (Q := fun _ => I) (.get fun s h => h) fun t => ?_
      split
      · exact onSock_keeps hI.sees _ fun _ => rfl
      · exact .raise fun s h => h

/-- The statements of `close` that are about the socket. -/
theorem closeSocket_closed :
    Effect.Triple Tidy (closeSocket (α := α) cfg)
      (fun _ s => AllClosed s.made ∧ s.sock = none) (fun _ => Tidy) := by
  intro s hs
  cases hheld : s.sock with
  | none =>
      simp only [closeSocket, Effect.bind_run, Effect.get_run, hheld, Option.isSome_none,
        Bool.false_eq_true, if_false, Effect.pure_run]
      exact ⟨hs.closed_of_none hheld, trivial⟩
  | some i =>
      have htidy : ∀ (_ : PyError) (s : Sockets α), HasSock i s → s.Tidy := fun _ s h => h.1
      have hbody : Effect.Triple (HasSock i) (do
          ignoring (shutdownTransport (α := α) cfg)
          ignoring (onSock cfg id)
          ignoring (closeSock cfg)
          Effect.modify fun s => { s with sock := none })
          (fun _ s => AllClosed s.made ∧ s.sock = none) (fun _ => Tidy) := by
        have hshutdown := ignoring_keeps (@shutdownTransport_keeps α cfg _ (kept_hasSock i))
        have hquiet :=
          ignoring_keeps (@onSock_keeps α cfg _ _ _ (kept_hasSock i).sees id fun _ => rfl)
        have hclose := ignoring_keeps (@closeSock_over α cfg i)
        refine .bind (hshutdown.weaken_error htidy) fun _ => ?_
        refine .bind (hquiet.weaken_error htidy) fun _ => ?_
        refine .bind (hclose.weaken_error fun _ s => Over.tidy) fun _ => ?_
        exact .modify fun s h => ⟨h.1, rfl⟩
      have hrun := hbody s ⟨hs, hheld⟩
      simpa only [closeSocket, Effect.bind_run, Effect.get_run, hheld, Option.isSome_some, if_true]
        using hrun

/-- A `close` that returns leaves no socket, and one that raises at most the one it had. -/
theorem close_closed :
    Effect.Triple Tidy (close (α := α) cfg)
      (fun _ s => AllClosed s.made ∧ s.sock = none ∧ s.connected = false) (fun _ => Tidy) :=
  closeSocket_closed.bind fun _ => .modify fun _ h => ⟨h.1, h.2, rfl⟩

/-- The transport is not connected but has an open socket, and makes another one. -/
def Replaces (cfg : SocketConfig) (s : Sockets α) : Op α → Prop
  | .connect (.ok (_ :: _)) _ => s.connected = false ∧ ¬ s.Frees cfg
  | _ => False

/-- What an operation leaves. A `connect` that returns has left a connected transport as it was,
and has connected another one to the first address that it reached, with a socket that is
ready; `getaddrinfo` finds one address at least. -/
def Leaves (cfg : SocketConfig) (s : Sockets α) : Op α → Prop
  | .connect addresses sends =>
      match connect cfg addresses sends s with
      | (.ok _, s') => if s.connected = true then s' = s else
          ∃ list, addresses = .ok list ∧ (list = [] ∨ Reached cfg s list s')
      | (.error e, s') => Refused e s'
  | .lose => True
  | .close =>
      match close cfg s with
      | (.ok _, s') => AllClosed s'.made ∧ s'.sock = none ∧ s'.connected = false
      | (.error _, _) => True

/-- An operation that does not replace an open socket. -/
theorem Tidy.step (hs : s.Tidy) {op : Op α} (h : ¬ Replaces cfg s op) :
    (step cfg s op).Tidy ∧ Leaves cfg s op := by
  cases op with
  | lose => exact ⟨⟨hs.held, hs.opened⟩, trivial⟩
  | close =>
      have hclose := @close_closed α cfg s hs
      simp only [Leaves, Sockets.step]
      revert hclose
      rcases close cfg s with ⟨e | _, s'⟩
      · exact fun h => ⟨h, trivial⟩
      · exact fun h => ⟨Over.tidy ⟨h.1, fun i hi => absurd (h.2.1.symm.trans hi) (by simp)⟩, h⟩
  | connect addresses sends =>
      cases hconnected : s.connected with
      | true =>
          simp only [Leaves, Sockets.step, connect_connected addresses sends hconnected, hconnected,
            if_true]
          exact ⟨hs, trivial⟩
      | false =>
          have hfrees : ∀ address rest, addresses = .ok (address :: rest) → s.Frees cfg := by
            rintro address rest rfl
            by_contra hnot
            exact h ⟨hconnected, hnot⟩
          have hreached := connect_reached addresses sends hs hconnected hfrees
          simp only [Leaves, Sockets.step, hconnected, Bool.false_eq_true, if_false]
          revert hreached
          rcases connect cfg addresses sends s with ⟨e | _, s'⟩
          · exact fun h => ⟨h.tidy, h⟩
          · rintro ⟨list, hlist, htidy, hend⟩
            exact ⟨htidy, list, hlist, hend⟩

/-- An operation that replaces an open socket loses it. -/
theorem Replaces.lost {op : Op α} (h : Replaces cfg s op) (hs : s.Tidy) :
    ∃ i, Lost i (step cfg s op) := by
  match op, h with
  | .connect (.ok (_ :: _)) sends, ⟨hconnected, hfrees⟩ =>
      exact connect_lost sends hs hconnected hfrees

end Leaks

end Sockets

end PyAmqp
