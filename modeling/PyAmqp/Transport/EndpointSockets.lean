import PyAmqp.Base.Simulation
import PyAmqp.Transport.Lifetime
import PyAmqp.Transport.SocketLeaks

/-!
The two models of a transport's `connect` and `close` in `amqp/transport.py`: `Endpoint` is told
what comes of their steps, which `Sockets` computes from the calls of the libraries. What the
sockets do, the endpoint does when it is told so.
-/

namespace PyAmqp

namespace Sockets

variable {α : Type}

/-- The socket that is held, as a plain or a wrapped one. -/
def kind (s : Sockets α) : Option TransportKind :=
  s.sock.map fun i => if s.made[i]?.any fun sock => sock.session.isSome then .ssl else .tcp

/-- The endpoint has the same socket, as one that is wrapped or not and read from or not, and is
connected or not with it. -/
structure Shows (s : Sockets α) (t : Endpoint) : Prop where
  sock : t.sock = s.kind
  connected : t.connected = s.connected
  receiving : t.receiving = true ↔ s.sock.isSome = true ∧ s.receiver = s.sock
  held : ∀ i, s.sock = some i → i < s.made.length
  receiver : ∀ i, s.receiver = some i → i < s.made.length

/-- The endpoint has the same socket, which is there. -/
def ShowsSock (s : Sockets α) (t : Endpoint) : Prop := s.Shows t ∧ t.sock.isSome = true

section Shows

variable {cfg : SocketConfig} {s : Sockets α} {t t' : Endpoint}

theorem isSome_kind (s : Sockets α) : s.kind.isSome = s.sock.isSome := Option.isSome_map

theorem Shows.isSome (h : s.Shows t) : t.sock.isSome = s.sock.isSome := by
  rw [h.sock, isSome_kind]

theorem Shows.calls (h : s.Shows t) (calls : Nat) : Shows { s with calls } t :=
  ⟨h.sock, h.connected, h.receiving, h.held, h.receiver⟩

theorem Shows.connect (h : s.Shows t) (connected : Bool) :
    Shows { s with connected } { t with connected } :=
  ⟨h.sock, rfl, h.receiving, h.held, h.receiver⟩

/-- What is done to a socket shows where it is held and wrapped, or unwrapped. -/
theorem kind_change {f : Sock α → Sock α}
    (hf : ∀ sock, (f sock).session.isSome = sock.session.isSome) (i : Nat) :
    (s.change i f).kind = s.kind := by
  unfold kind change
  congr 1
  funext j
  dsimp only
  by_cases hij : i = j
  · rw [hij, List.getElem?_modify_eq]
    cases s.made[j]? with
    | none => rfl
    | some sock => simp only [Option.map_eq_map, Option.map_some, Option.any_some, hf]
  · rw [List.getElem?_modify_ne _ _ hij]

theorem Shows.change {f : Sock α → Sock α} (h : s.Shows t)
    (hf : ∀ sock, (f sock).session.isSome = sock.session.isSome) (i : Nat) :
    (s.change i f).Shows t := by
  refine ⟨?_, h.connected, h.receiving, ?_, ?_⟩
  · rw [kind_change hf]
    exact h.sock
  · rw [Sockets.change, List.length_modify]
    exact h.held
  · rw [Sockets.change, List.length_modify]
    exact h.receiver

/-- A socket is wrapped, or unwrapped. -/
theorem Shows.wrap {f : Sock α → Sock α} (wrapped : Bool) (h : s.Shows t) {i : Nat}
    (hi : s.sock = some i) (hf : ∀ sock, (f sock).session.isSome = wrapped) :
    (s.change i f).Shows { t with sock := some (if wrapped then .ssl else .tcp) } := by
  obtain ⟨sock, hsock⟩ : ∃ sock, s.made[i]? = some sock :=
    ⟨_, List.getElem?_eq_getElem (h.held i hi)⟩
  refine ⟨?_, h.connected, h.receiving, ?_, ?_⟩
  · simp [kind, Sockets.change, hi, List.getElem?_modify_eq, hsock, hf]
  · rw [Sockets.change, List.length_modify]
    exact h.held
  · rw [Sockets.change, List.length_modify]
    exact h.receiver

/-! Calls -/

theorem call_shows {f : Sockets α → Sockets α} (h : ∀ s : Sockets α, s.Shows t → (f s).Shows t') :
    Effect.Triple (fun s => s.Shows t) (call cfg f) (fun _ s => s.Shows t')
      (fun _ s => s.Shows t) :=
  call_keeps (fun _ calls hs => hs.calls calls) h

/-- A call of a method of the socket that is held is made, or raises. -/
theorem onSock_shows {f : Sock α → Sock α}
    (h : ∀ (s : Sockets α) i, s.Shows t → s.sock = some i → (s.change i f).Shows t') :
    Effect.Triple (fun s => s.Shows t) (onSock cfg f) (fun _ s => s.Shows t')
      (fun _ s => s.Shows t) := by
  intro s hs
  cases hi : s.sock with
  | none =>
      simp only [onSock, hi]
      exact hs
  | some i =>
      simp only [onSock, hi]
      by_cases hclosed : (s.made[i]?.any fun sock => sock.closed) = true
      · rw [if_pos hclosed]
        exact hs
      · rw [if_neg hclosed]
        have hcall := @call_keeps α cfg (fun s => s.Shows t ∧ s.sock = some i) (Sockets.change i f)
          (fun s => s.Shows t') (fun s calls h => ⟨h.1.calls calls, h.2⟩)
          (fun s hs => h s i hs.1 hs.2) s ⟨hs, hi⟩
        revert hcall
        rcases call cfg (Sockets.change i f) s with ⟨e | _, s'⟩
        · exact And.left
        · exact id

/-- Of the socket, the endpoint shows whether it is wrapped. -/
theorem shows_sees (t : Endpoint) :
    Sees (fun sock => sock.session.isSome) fun s : Sockets α => s.Shows t :=
  ⟨fun _ calls hs => hs.calls calls, fun _ i _ hs _ hf => hs.change hf i⟩

theorem shows_outline (t : Endpoint) : Sees Sock.outline fun s : Sockets α => s.Shows t :=
  (shows_sees t).mono Prod.snd fun _ => rfl

theorem makeSocket_shows :
    Effect.Triple (fun s : Sockets α => s.Shows t) (makeSocket cfg)
      (fun _ s => s.Shows t.makeSocket) (fun _ s => s.Shows t) := by
  refine call_shows fun s hs => ⟨?_, hs.connected, ?_, ?_, ?_⟩
  · simp [kind, Endpoint.makeSocket]
  · refine ⟨fun hup => (by cases hup), fun h => ?_⟩
    exact absurd (hs.receiver _ h.2) (Nat.lt_irrefl _)
  · rintro i hi
    obtain rfl := Option.some.inj hi
    simp
  · intro i hi
    have hlt := hs.receiver i hi
    simp only [List.length_append, List.length_singleton]
    omega

/-- Closing the socket that is held does not show. -/
theorem closeSock_keeps :
    Effect.Triple (fun s : Sockets α => s.Shows t) (closeSock cfg) (fun _ s => s.Shows t)
      (fun _ s => s.Shows t) := by
  intro s hs
  cases hi : s.sock with
  | none =>
      simp only [closeSock, hi]
      exact hs
  | some i =>
      have hclosed := @Shows.change α s t (fun sock => { sock with closed := true }) hs
        (fun _ => rfl) i
      simp only [closeSock, hi]
      exact call_shows (fun _ hs => hs) _ hclosed

theorem Shows.release (h : s.Shows t) : Shows { s with sock := none } t.release := by
  refine ⟨rfl, h.connected, ⟨fun hup => ?_, fun hup => ?_⟩, fun i hi => ?_, h.receiver⟩
  · cases hup
  · cases hup.1
  · cases hi

/-! Connecting -/

/-- An address is tried with a new socket, or `socket.socket` raises. -/
theorem reach_shows (address : α) :
    Effect.Triple (fun s => s.Shows t) (reach cfg address) (fun _ s => s.Shows t.makeSocket)
      (fun _ s => ∃ made : Bool, s.Shows ((if made then Endpoint.makeSocket else id) t)) := by
  refine .bind (makeSocket_shows.weaken_error fun _ s hs => ⟨false, hs⟩) fun _ => ?_
  have hstep : ∀ f : Sock α → Sock α, (∀ sock, (f sock).session.isSome = sock.session.isSome) →
      Effect.Triple (fun s => s.Shows t.makeSocket) (onSock cfg f)
        (fun _ s => s.Shows t.makeSocket)
        (fun _ s => ∃ made : Bool, s.Shows ((if made then Endpoint.makeSocket else id) t)) :=
    fun f hf => (onSock_keeps (shows_sees _) f hf).weaken_error fun _ s hs => ⟨true, hs⟩
  refine .bind (hstep id fun _ => rfl) fun _ => ?_
  refine .bind (hstep _ fun _ => rfl) fun _ => ?_
  exact hstep _ fun _ => rfl

theorem drop_simulates : Effect.Simulates (Shows (α := α)) (drop cfg) Endpoint.drop Shows := by
  have hclose : Effect.Simulates (Shows (α := α)) (closeHeld cfg)
      (fun closing => Effect.get >>= fun t : Endpoint =>
        if t.sock.isSome then Effect.liftExcept closing else pure ()) Shows := by
    refine .branch (fun s t hs => by rw [hs.isSome]) ?_ ?_
    · exact .answered fun t s hs => closeSock_keeps s hs.1
    · exact .pure () fun _ _ hs => hs.1
  refine (hclose.bind (fun _ => .modify (γ := Unit) fun _ _ hs => hs.release)
    fun _ _ hs => hs).of_choice Prod.fst fun c => ?_
  funext t
  simp only [Endpoint.drop, Effect.bind_run, Effect.get_run]
  cases t.sock.isSome with
  | false => rfl
  | true => rfl

/-- An address that is refused is dropped, and the next one is tried. -/
theorem dial_refused (made : Bool) {e : PyError} (closing : Except PyError Unit)
    (rest : List Address) (hos : e.isOSError = true) :
    Endpoint.dial (.refused made e closing :: rest) t =
      (Endpoint.drop closing >>= fun _ =>
        if rest = [] then Effect.raise e else Endpoint.dial rest)
      ((if made then Endpoint.makeSocket else id) t) := by
  simp only [Endpoint.dial, hos, if_true]
  rfl

/-- The addresses can come out so that the loop ends alike. -/
theorem dial_shows (addresses : List α) (h : s.Shows t) :
    ∃ outcomes, (outcomes = [] ↔ addresses = []) ∧
      (Endpoint.dial outcomes t).1 = (dial cfg addresses s).1 ∧
      (dial cfg addresses s).2.Shows (Endpoint.dial outcomes t).2 := by
  induction addresses generalizing s t with
  | nil => exact ⟨[], by simp, rfl, h⟩
  | cons address rest ih =>
      have hreach := @reach_shows α cfg t address s h
      simp only [dial, Effect.tryCatch]
      cases hrun : reach cfg address s with
      | mk r raised =>
          rw [hrun] at hreach
          cases r with
          | ok => exact ⟨[.connected], by simp, rfl, hreach⟩
          | error e =>
              obtain ⟨made, hmade⟩ := hreach
              dsimp only
              by_cases hos : e.isOSError = true
              · rw [if_pos hos]
                obtain ⟨closing, hresult, hdropped⟩ := @drop_simulates α cfg _ _ hmade
                rcases hdrop : drop cfg raised with ⟨r, dropped⟩
                rcases hdrop' : Endpoint.drop closing ((if made then Endpoint.makeSocket else id) t)
                  with ⟨r', dropped'⟩
                rw [hdrop, hdrop'] at hresult hdropped
                obtain rfl : r' = r := hresult
                cases r' with
                | error e' =>
                    refine ⟨[.refused made e closing], by simp, ?_⟩
                    rw [dial_refused made closing [] hos, Effect.bind_error _ hdrop,
                      Effect.bind_error _ hdrop']
                    exact ⟨rfl, hdropped⟩
                | ok =>
                    rw [Effect.bind_ok _ hdrop]
                    by_cases hlast : rest = []
                    · refine ⟨[.refused made e closing], by simp, ?_⟩
                      rw [dial_refused made closing [] hos, Effect.bind_ok _ hdrop', if_pos hlast,
                        if_pos rfl]
                      exact ⟨rfl, hdropped⟩
                    · obtain ⟨outcomes, hempty, hends⟩ := ih hdropped
                      have hsome : outcomes ≠ [] := fun hnil => hlast (hempty.mp hnil)
                      refine ⟨.refused made e closing :: outcomes, by simp, ?_⟩
                      rw [dial_refused made closing outcomes hos, Effect.bind_ok _ hdrop',
                        if_neg hlast, if_neg hsome]
                      exact hends
              · rw [if_neg hos]
                refine ⟨[.refused made e (.ok ())], by simp, ?_, ?_⟩
                · simp [Endpoint.dial, hos]
                · simpa [Endpoint.dial, hos] using hmade

/-- The socket is wrapped by both calls together, or not. -/
theorem wrap_shows :
    Effect.Triple (fun s : Sockets α => s.Shows t)
      (do
        let session ← Effect.liftExcept (Tls.wrapSocket cfg.hasSni cfg.sslopts)
        onSock cfg fun sock => { sock with
          session := some session
          handshakes :=
            if session.handshakes then sock.handshakes ++ [sock.timeout] else sock.handshakes })
      (fun _ s => s.Shows { t with sock := some .ssl }) (fun _ s => s.Shows t) := by
  refine .bind (.liftExcept (fun _ _ s hs => hs) fun _ _ s hs => hs) fun session => ?_
  exact onSock_shows fun s i hs hi => hs.wrap true hi fun _ => rfl

/-- The socket that is held is the one that is read. -/
theorem receive_shows (stream readBuffer : Octets) (h : s.ShowsSock t) :
    Shows { s with receiver := s.sock } { Endpoint.receive stream t with readBuffer } := by
  have hsome : s.sock.isSome = true := h.1.isSome.symm.trans h.2
  exact ⟨h.1.sock, h.1.connected, ⟨fun _ => ⟨hsome, rfl⟩, fun _ => rfl⟩, h.1.held, h.1.held⟩

theorem triple_sock {β : Type} {m : Effect (Sockets α) PyError β}
    (h : Effect.Triple (fun s => s.Shows t) m (fun _ s => s.Shows t') (fun _ s => s.Shows t))
    (ht : t.sock.isSome = true → t'.sock.isSome = true) :
    Effect.Triple (fun s => s.ShowsSock t) m (fun _ s => s.ShowsSock t')
      (fun _ s => s.ShowsSock t) :=
  fun s hs => h.weaken (fun _ h => h) (fun _ _ h => ⟨h, ht hs.2⟩) (fun _ _ h => ⟨h, hs.2⟩) s hs.1

/-- The handshake does not show. -/
theorem handshake_keeps :
    Effect.Triple (fun s : Sockets α => s.Shows t)
      (do
        onSock cfg fun sock => { sock with timeout := cfg.connectTimeout }
        onSock cfg fun sock => { sock with handshakes := sock.handshakes ++ [sock.timeout] })
      (fun _ s => s.Shows t) (fun _ s => s.Shows t) := by
  refine .bind (onSock_keeps (shows_sees t) _ fun _ => rfl) fun _ => ?_
  exact onSock_keeps (shows_sees t) _ fun _ => rfl

theorem setupTransport_simulates (stream : Octets) :
    Effect.Simulates (ShowsSock (α := α)) (setupTransport cfg)
      (fun c : Except PyError Unit × Except PyError Unit =>
        Endpoint.setupTransport cfg.toTransportConfig { wrap := c.1, handshake := c.2, stream })
      Shows := by
  unfold setupTransport wrapSock Endpoint.setupTransport
  cases cfg.kind with
  | tcp => exact .modify fun s t hs => receive_shows stream [] hs
  | ssl =>
      have hwraps := Effect.Simulates.done fun t : Endpoint =>
        triple_sock (@wrap_shows α cfg t) fun _ => rfl
      have hshakes := Effect.Simulates.answered fun t : Endpoint =>
        triple_sock (@handshake_keeps α cfg t) id
      have hreceives : Effect.Simulates (ShowsSock (α := α))
          (Effect.modify fun s => { s with receiver := s.sock } : Effect _ PyError Unit)
          (fun _ : Unit => Effect.modify (Endpoint.receive stream)) Shows :=
        .modify fun s t hs => receive_shows stream t.readBuffer hs
      have hall := hwraps.bind (fun _ => hshakes.bind (fun _ => hreceives) fun _ _ hs => hs.1)
        fun _ _ hs => hs.1
      simp only [bind_assoc] at hall ⊢
      exact hall.of_choice (fun c => (c.1, c.2.1)) fun c => rfl

theorem initSocket_simulates (sends : List Send) (stream : Octets) :
    Effect.Simulates (Shows (α := α)) (initSocket cfg sends)
      (fun c : Except PyError Unit × (Except PyError Unit × Except PyError Unit) ×
          Except PyError Unit =>
        Endpoint.initSocket cfg.toTransportConfig
          { options := c.1, wrap := c.2.1.1, handshake := c.2.1.2, banner := c.2.2, stream })
      Shows := by
  intro s t hs
  by_cases hsock : t.sock.isSome = true
  · have hoptions := Effect.Simulates.answered fun t : Endpoint =>
      triple_sock (@options_keep α cfg _ (shows_outline t)) id
    have hbanner := Effect.Simulates.answered fun t : Endpoint =>
      @writeHeader_keeps α cfg _ (shows_outline t) sends
    have hsetup := (@setupTransport_simulates α cfg stream).bind (fun _ => hbanner) fun _ _ hs => hs
    have hall := hoptions.bind (fun _ => hsetup) fun _ _ hs => hs.1
    obtain ⟨c, hends⟩ := hall s t ⟨hs, hsock⟩
    refine ⟨c, ?_⟩
    have hnone : t.sock.isNone = false := by simpa [Option.isNone_iff_eq_none] using hsock
    simp only [bind_assoc] at hends
    simp only [initSocket, Endpoint.initSocket, Effect.bind_run, Effect.get_run, hnone,
      Bool.false_eq_true, if_false] at hends ⊢
    exact hends
  · have hnone : s.sock = none := by simpa [hs.isSome] using hsock
    have hnone' : t.sock.isNone = true := by simpa using hsock
    refine ⟨default, ?_⟩
    simp only [initSocket, onSock, Endpoint.initSocket, Effect.bind_run, Effect.get_run, hnone,
      hnone', if_true, Effect.raise_run]
    exact ⟨trivial, hs⟩

theorem abandon_simulates (stream : Octets) :
    Effect.Simulates (Shows (α := α)) (abandon cfg)
      (fun r => Endpoint.abandon { abandon := r, stream }) Shows := by
  unfold abandon Endpoint.abandon
  refine .branch (fun s t hs => by rw [hs.isSome, hs.connected]) ?_ ?_
  · have hclose := Effect.Simulates.answered fun t : Endpoint => @closeSock_keeps α cfg t
    have hrelease := hclose.bind (fun _ => .modify (γ := Unit) fun _ _ hs => hs.release)
      fun _ _ hs => hs
    exact (hrelease.weaken (fun _ _ hs => hs.1) fun _ _ hs => hs).of_choice Prod.fst fun _ => rfl
  · exact .pure () fun _ _ hs => hs.1

theorem tryConnect_simulates (addresses : Except PyError (List α)) (sends : List Send)
    (stream : Octets) :
    Effect.Simulates Shows (tryConnect cfg addresses sends)
      (fun c : Except PyError (List Address) × Except PyError Unit ×
          (Except PyError Unit × Except PyError Unit) × Except PyError Unit =>
        Endpoint.tryConnect cfg.toTransportConfig
          { addresses := c.1, options := c.2.1, wrap := c.2.2.1.1, handshake := c.2.2.1.2,
            banner := c.2.2.2, stream }) Shows := by
  have hdial : Effect.Simulates Shows (Effect.liftExcept addresses >>= dial cfg)
      (fun outcomes => Effect.liftExcept outcomes >>= Endpoint.dial) Shows := by
    intro s t hs
    cases addresses with
    | error e => exact ⟨.error e, rfl, hs⟩
    | ok addresses =>
        obtain ⟨outcomes, -, hends⟩ := @dial_shows α cfg s t addresses hs
        exact ⟨.ok outcomes, hends⟩
  have hconnected : Effect.Simulates Shows
      (Effect.modify fun s : Sockets α => { s with connected := true } : Effect _ PyError Unit)
      (fun _ : Unit => Effect.modify fun t => { t with connected := true }) Shows :=
    .modify fun _ _ hs => hs.connect true
  have hinit := (@initSocket_simulates α cfg sends stream).bind (fun _ => hconnected)
    fun _ _ hs => hs
  have hall := hdial.bind (fun _ => hinit) fun _ _ hs => hs
  have hbranch := Effect.Simulates.branch (p := fun s : Sockets α => s.connected = true)
    (q := fun t : Endpoint => t.connected = true) (fun s t hs => by rw [hs.connected])
    (.pure () fun s t (hs : s.Shows t ∧ _) => hs.1)
    (hall.weaken (fun s t (hs : s.Shows t ∧ _) => hs.1) fun _ _ hs => hs)
  simp only [bind_assoc] at hbranch
  refine hbranch.of_choice (fun c => (c.1, c.2.1)) fun c => ?_
  rfl

theorem onConnectError_simulates (e : PyError) (stream : Octets) :
    Effect.Simulates (Shows (α := α)) (onConnectError cfg e)
      (fun r => Endpoint.onConnectError { abandon := r, stream } e) Shows := by
  unfold onConnectError Endpoint.onConnectError
  by_cases hos : e.isOSError = true
  · simp only [hos, if_true]
    exact ((abandon_simulates stream).bind (fun _ => .raise (γ := Unit) e fun _ _ hs => hs)
      fun _ _ hs => hs).of_choice Prod.fst fun _ => rfl
  · simp only [hos]
    exact .raise e fun _ _ hs => hs

/-- Whatever the calls of the libraries do in a `connect`, its steps can come out so that it ends
alike, with any octets to be read. -/
theorem connect_shows (addresses : Except PyError (List α)) (sends : List Send) (stream : Octets)
    (h : s.Shows t) :
    ∃ attempt : Attempt, attempt.stream = stream ∧
      (Endpoint.connect cfg.toTransportConfig attempt t).1 = (connect cfg addresses sends s).1 ∧
      (connect cfg addresses sends s).2.Shows
        (Endpoint.connect cfg.toTransportConfig attempt t).2 := by
  obtain ⟨⟨⟨addresses', options, ⟨wrap, handshake⟩, banner⟩, abandon⟩, hends⟩ :=
    (@tryConnect_simulates α cfg addresses sends stream).tryCatch
      (fun e => onConnectError_simulates e stream) (fun _ _ hs => hs) s t h
  exact ⟨{ addresses := addresses', options, wrap, handshake, banner, abandon, stream }, rfl, hends⟩

/-! Closing -/

theorem ignoring_simulates {γ : Type} {P : Sockets α → Endpoint → Prop}
    {m : Effect (Sockets α) PyError Unit} {n : γ → Effect Endpoint PyError Unit}
    (h : Effect.Simulates P m n Shows) :
    Effect.Simulates P (ignoring m) (fun c => Endpoint.ignoring (n c)) Shows := by
  have hpass : ∀ e : PyError, Effect.Simulates Shows
      (if e.isOSError then pure () else Effect.raise e : Effect (Sockets α) PyError Unit)
      (fun _ : Unit => if e.isOSError then pure () else Effect.raise e) Shows := by
    intro e
    split
    · exact .pure () fun _ _ hs => hs
    · exact .raise e fun _ _ hs => hs
  exact (h.tryCatch hpass fun _ _ hs => hs).of_choice Prod.fst fun _ => rfl

/-- `unwrap` finds the socket wrapped in both, or in none. -/
theorem wrapped_iff (h : s.Shows t) :
    ((s.sock.bind fun i => s.made[i]?).any fun sock => sock.session.isSome) = true ↔
      t.sock = some .ssl := by
  rw [h.sock, kind]
  cases s.sock with
  | none => simp
  | some i =>
      simp only [Option.bind_some, Option.map_some, Option.some.injEq]
      split
      next hwrapped => simp [hwrapped]
      next hplain => simp [hplain]

theorem shutdownTransport_simulates :
    Effect.Simulates (ShowsSock (α := α)) (shutdownTransport cfg)
      (fun r => Endpoint.shutdownTransport cfg.toTransportConfig { unwrap := r }) Shows := by
  unfold shutdownTransport Endpoint.shutdownTransport
  cases cfg.kind with
  | tcp => exact .pure () fun _ _ hs => hs.1
  | ssl =>
      have hunwraps := Effect.Simulates.done fun t : Endpoint =>
        @onSock_shows α cfg t _ (fun sock => { sock with session := none })
          fun s i hs hi => hs.wrap false hi fun _ => rfl
      rintro s t ⟨hs, hsock⟩
      by_cases hwrapped : t.sock = some .ssl
      · obtain ⟨r, hends⟩ := hunwraps s t hs
        refine ⟨r, ?_⟩
        simp only [unwrap, Endpoint.unwrap, Effect.bind_run, Effect.get_run, hsock, if_true,
          (wrapped_iff hs).mpr hwrapped, if_pos hwrapped] at hends ⊢
        exact hends
      · have hplain := mt (wrapped_iff hs).mp hwrapped
        refine ⟨.ok (), ?_⟩
        simp only [unwrap, Endpoint.unwrap, Effect.bind_run, Effect.get_run, hsock, if_true,
          if_neg hplain, if_neg hwrapped, Effect.raise_run, Effect.liftExcept_run]
        exact ⟨trivial, hs⟩

/-- Whatever the calls of the libraries do in a `close`, its steps can come out so that it ends
alike. -/
theorem close_shows (h : s.Shows t) :
    ∃ closing : CloseCalls,
      (Endpoint.close cfg.toTransportConfig closing t).1 = (close cfg s).1 ∧
      (close cfg s).2.Shows (Endpoint.close cfg.toTransportConfig closing t).2 := by
  have hshutdown := ignoring_simulates (Effect.Simulates.answered fun t : Endpoint =>
    @onSock_keeps α cfg _ _ _ (shows_sees t) id fun _ => rfl)
  have hcloses := ignoring_simulates (Effect.Simulates.answered fun t : Endpoint =>
    @closeSock_keeps α cfg t)
  have hrelease : Effect.Simulates Shows
      (Effect.modify fun s : Sockets α => { s with sock := none } : Effect _ PyError Unit)
      (fun _ : Unit => Effect.modify Endpoint.release) Shows := .modify fun _ _ hs => hs.release
  have hcalls := hshutdown.bind (fun _ => hcloses.bind (fun _ => hrelease) fun _ _ hs => hs)
    fun _ _ hs => hs
  have hheld := (ignoring_simulates (@shutdownTransport_simulates α cfg)).bind (fun _ => hcalls)
    fun _ _ hs => hs
  have hsocket := Effect.Simulates.branch (p := fun s : Sockets α => s.sock.isSome = true)
    (q := fun t : Endpoint => t.sock.isSome = true) (fun s t hs => by rw [hs.isSome]) hheld
    (.pure () fun s t hs => hs.1)
  have hconnected : Effect.Simulates Shows
      (Effect.modify fun s : Sockets α => { s with connected := false } : Effect _ PyError Unit)
      (fun _ : Unit => Effect.modify fun t => { t with connected := false }) Shows :=
    .modify fun _ _ hs => hs.connect false
  obtain ⟨⟨⟨unwrap, shutdown, close, _⟩, _⟩, hends⟩ :=
    hsocket.bind (fun _ => hconnected) (fun _ _ hs => hs) s t h
  refine ⟨{ unwrap, shutdown, close }, ?_⟩
  exact hends

end Shows

/-! Runs -/

/-- What a step of the sockets is for the endpoint, which loses its connection in a `read_frame`. -/
def Op.Is : Op α → Endpoint.Op → Prop
  | .connect _ _, .connect _ => True
  | .lose, .readFrame _ => True
  | .close, .close _ => True
  | _, _ => False

/-- The endpoint shows the sockets in a run that reads no frames. -/
structure Stands (s : Sockets α) (t : Endpoint) : Prop where
  shows : s.Shows t
  sound : t.Sound
  empty : t.readBuffer = []

section Runs

variable {cfg : SocketConfig} {s : Sockets α} {t : Endpoint}

/-- `recv` raises an `OSError` that has no number. -/
def hangUp : List Recv := [.raise (.osError none)]

theorem read_hangUp (cfg : TransportConfig) {u : Transport} (hempty : u.readBuffer = [])
    (hschedule : u.schedule = hangUp) :
    Transport.read cfg 7 true u = (.error (.osError none), { u with schedule := [] }) := by
  have hrecv : Transport.recv 7 u = (.error (.osError none), { u with schedule := [] }) := by
    simp [Transport.recv, hschedule, hangUp]
  have hretried : ¬ (PyError.isOSError (.osError none) = true ∧
      ∃ errno ∈ cfg.kind.errnos cfg.platform, PyError.errno? (.osError none) = some errno) := by
    rintro ⟨-, errno, -, herrno⟩
    cases herrno
  have hloop : Transport.readLoop cfg 7 true 2 [] u =
      Transport.keep [] (.osError none) { u with schedule := [] } := by
    unfold Transport.readLoop
    dsimp only
    rw [if_pos (by decide), List.length_nil, Nat.sub_zero, hrecv]
    dsimp only
    rw [if_neg hretried]
  have hfuel : u.schedule.length + 1 = 2 := by rw [hschedule]; rfl
  have hkept : { u with readBuffer := [], schedule := [] } = { u with schedule := [] } := by
    rw [hempty]
  simp only [Transport.read, Effect.bind_run, Effect.get_run, hempty, hfuel, hloop, Transport.keep,
    Effect.modify_run, Effect.raise_run]

/-- `read_frame` loses the connection, and leaves the rest as it was. -/
theorem readFrame_hangUp (cfg : TransportConfig) (h : t.readBuffer = []) :
    Endpoint.step cfg t (.readFrame hangUp) =
      { t with connected := false, readFrameBuffer := [], schedule := [] } := by
  have hread := @read_hangUp cfg
    { t.toTransport with schedule := hangUp, readFrameBuffer := [] } h rfl
  have htimeout : ¬ Transport.TimesOut cfg (.osError none) := by
    simp [Transport.TimesOut, PyError.errno?, PyError.isSslTimeout]
  have hdrops : ¬ Transport.Drops cfg (.osError none) := by
    simp [Transport.Drops, PyError.errno?]
  have hrun : Transport.readFrame cfg { t.toTransport with schedule := hangUp } =
      (.error (.osError none),
        { t.toTransport with connected := false, readFrameBuffer := [], schedule := [] }) := by
    simp only [Transport.readFrame, Transport.readFrameParts, Effect.bind_run, Effect.modify_run,
      Effect.tryCatch, hread, Transport.onReadError_osError htimeout rfl, if_neg hdrops]
  simp only [Endpoint.step, Endpoint.readFrame, hrun]
  simp [Endpoint.usedUp]

/-- The read buffer is empty. -/
def Drained (t : Endpoint) : Prop := t.readBuffer = []

theorem drop_drained (closing : Except PyError Unit) :
    Effect.Triple Drained (Endpoint.drop closing) (fun _ => Drained) (fun _ => Drained) := by
  refine .get_bind fun t => ?_
  split
  · exact (Effect.Triple.liftExcept_keeps closing).bind fun _ => .modify fun _ h => h
  · exact .modify fun _ h => h

theorem dial_drained (addresses : List Address) :
    Effect.Triple Drained (Endpoint.dial addresses) (fun _ => Drained) (fun _ => Drained) := by
  induction addresses with
  | nil => exact .pure () fun _ h => h
  | cons address rest ih =>
      cases address with
      | connected => exact .modify fun _ h => h
      | refused made e closing =>
          have hmade : Effect.Triple Drained
              (Effect.modify (if made then Endpoint.makeSocket else id) : Effect _ PyError Unit)
              (fun _ => Drained) (fun _ => Drained) := .modify fun t h => by cases made <;> exact h
          refine hmade.bind fun _ => ?_
          split
          · refine (drop_drained closing).bind fun _ => ?_
            split
            · exact .raise fun _ h => h
            · exact ih
          · exact .raise fun _ h => h

theorem initSocket_drained (cfg : TransportConfig) (attempt : Attempt) :
    Effect.Triple Drained (Endpoint.initSocket cfg attempt) (fun _ => Drained)
      (fun _ => Drained) := by
  have hsetup : Effect.Triple Drained (Endpoint.setupTransport cfg attempt) (fun _ => Drained)
      (fun _ => Drained) := by
    unfold Endpoint.setupTransport
    cases cfg.kind with
    | tcp => exact .modify fun _ _ => rfl
    | ssl =>
        refine (Effect.Triple.liftExcept_keeps attempt.wrap).bind fun _ => ?_
        refine .bind (Q := fun _ => Drained) (.modify fun _ h => h) fun _ => ?_
        exact (Effect.Triple.liftExcept_keeps attempt.handshake).bind fun _ => .modify fun _ h => h
  refine .get_bind fun t => ?_
  split
  · exact .raise fun _ h => h
  · refine (Effect.Triple.liftExcept_keeps attempt.options).bind fun _ => ?_
    exact hsetup.bind fun _ => .liftExcept_keeps attempt.banner

theorem connect_drained (cfg : TransportConfig) (attempt : Attempt) :
    Effect.Triple Drained (Endpoint.connect cfg attempt) (fun _ => Drained) (fun _ => Drained) := by
  have htry : Effect.Triple Drained (Endpoint.tryConnect cfg attempt) (fun _ => Drained)
      (fun _ => Drained) := by
    refine .get_bind fun t => ?_
    split
    · exact .pure () fun _ h => h
    · refine (Effect.Triple.liftExcept_keeps attempt.addresses).bind fun addresses => ?_
      exact (dial_drained addresses).bind fun _ => (initSocket_drained cfg attempt).bind fun _ =>
        .modify fun _ h => h
  have habandon : Effect.Triple Drained (Endpoint.abandon attempt) (fun _ => Drained)
      (fun _ => Drained) := by
    refine .get_bind fun t => ?_
    split
    · exact (Effect.Triple.liftExcept_keeps attempt.abandon).bind fun _ => .modify fun _ h => h
    · exact .pure () fun _ h => h
  refine .tryCatch htry fun e => ?_
  unfold Endpoint.onConnectError
  split
  · exact habandon.bind fun _ => .raise fun _ h => h
  · exact .raise fun _ h => h

theorem close_drained (cfg : TransportConfig) (closing : CloseCalls) :
    Effect.Triple Drained (Endpoint.close cfg closing) (fun _ => Drained) (fun _ => Drained) := by
  have hstep : ∀ r : Except PyError Unit, Effect.Triple Drained
      (Endpoint.ignoring (Effect.liftExcept r)) (fun _ => Drained) (fun _ => Drained) :=
    fun r => Endpoint.ignoring_triple (.liftExcept_keeps r)
  have hshutdown : Effect.Triple Drained (Endpoint.shutdownTransport cfg closing)
      (fun _ => Drained) (fun _ => Drained) := by
    unfold Endpoint.shutdownTransport
    cases cfg.kind with
    | tcp => exact .pure () fun _ h => h
    | ssl =>
        refine .get_bind fun t => ?_
        split
        · exact (Effect.Triple.liftExcept_keeps _).bind fun _ => .modify fun _ h => h
        · exact .pure () fun _ h => h
  have hsocket : Effect.Triple Drained (Endpoint.closeSocket cfg closing) (fun _ => Drained)
      (fun _ => Drained) := by
    refine .get_bind fun t => ?_
    split
    · exact (Endpoint.ignoring_triple hshutdown).bind fun _ => (hstep closing.shutdown).bind
        fun _ => (hstep closing.close).bind fun _ => .modify fun _ h => h
    · exact .pure () fun _ h => h
  exact hsocket.bind fun _ => .modify fun _ h => h

/-- A step of the sockets is one of the endpoint. -/
theorem step_stands (op : Op α) (h : s.Stands t) :
    ∃ op', op.Is op' ∧ (step cfg s op).Stands (Endpoint.step cfg.toTransportConfig t op') := by
  cases op with
  | connect addresses sends =>
      obtain ⟨attempt, -, -, hshows⟩ := @connect_shows α cfg s t addresses sends [] h.shows
      have hdrained : Drained (Endpoint.connect cfg.toTransportConfig attempt t).2 :=
        (connect_drained _ attempt).state h.empty
      have hempty : Endpoint.ConnectsEmpty cfg.toTransportConfig t (.connect attempt) :=
        fun _ _ _ => h.empty
      exact ⟨.connect attempt, trivial, hshows, Endpoint.step_sound _ h.sound hempty, hdrained⟩
  | lose =>
      refine ⟨.readFrame hangUp, trivial, ?_, Endpoint.step_sound _ h.sound trivial, ?_⟩
      · rw [readFrame_hangUp _ h.empty]
        exact ⟨h.shows.sock, rfl, h.shows.receiving, h.shows.held, h.shows.receiver⟩
      · rw [readFrame_hangUp _ h.empty]
        exact h.empty
  | close =>
      obtain ⟨closing, -, hshows⟩ := @close_shows α cfg s t h.shows
      have hdrained : Drained (Endpoint.close cfg.toTransportConfig closing t).2 :=
        (close_drained _ closing).state h.empty
      exact ⟨.close closing, trivial, hshows, Endpoint.step_sound _ h.sound trivial, hdrained⟩

theorem stands_init : Stands ({} : Sockets α) Endpoint.init :=
  ⟨⟨rfl, rfl, by simp [Endpoint.init], fun _ h => (by cases h), fun _ h => (by cases h)⟩,
    ⟨.of_not_receiving rfl, fun h => (by cases h)⟩, rfl⟩

/-- Every run of the sockets is one of the endpoint, step by step. -/
theorem run_shows (cfg : SocketConfig) (ops : List (Op α)) :
    ∃ ops', List.Forall₂ Op.Is ops ops' ∧
      (ops.foldl (step cfg) {}).Stands (Endpoint.run cfg.toTransportConfig ops') :=
  Run.exists_matching (fun _ _ op h => step_stands op h) stands_init ops

/-- A transport that is connected has a socket, and reads from that one. -/
theorem run_receives (cfg : SocketConfig) (ops : List (Op α)) :
    let s := ops.foldl (step cfg) {}
    s.connected = true → s.sock.isSome = true ∧ s.receiver = s.sock := by
  intro s hconnected
  obtain ⟨ops', -, hstands⟩ := run_shows cfg ops
  have hreceiving := hstands.sound.receives (hstands.shows.connected.trans hconnected)
  exact hstands.shows.receiving.mp hreceiving

end Runs


end Sockets

end PyAmqp
