import PyAmqp.Transport.Sockets

/-!
What `connect` of `amqp/transport.py` makes of a transport without an open socket: the addresses
are tried one after the other, each with a socket of its own, and the one that is reached is made
ready.
-/

namespace PyAmqp

namespace Sockets

variable {α : Type}

/-! One socket -/

/-- All sockets are closed, and there are at most `n` of them. -/
structure Spent (n : Nat) (s : Sockets α) : Prop where
  closed : AllClosed s.made
  count : s.made.length ≤ n
  held : ∀ i, s.sock = some i → i < s.made.length
  connected : s.connected = false

/-- The transport holds `sock`, and the sockets before it, at most `n`, are closed. -/
structure Holds (n : Nat) (sock : Sock α) (s : Sockets α) : Prop where
  others : ∃ others, s.made = others ++ [sock] ∧ AllClosed others ∧ others.length ≤ n ∧
    s.sock = some others.length
  isOpen : sock.closed = false
  connected : s.connected = false

/-- The transport is not connected, and has made at most `n` sockets, of which it holds the one
that may be open. -/
structure Down (n : Nat) (s : Sockets α) : Prop where
  tidy : s.Tidy
  connected : s.connected = false
  count : s.made.length ≤ n

section Holds

variable {cfg : SocketConfig} {n : Nat} {sock : Sock α} {s : Sockets α}

theorem Spent.tidy (h : Spent n s) : s.Tidy := by
  refine ⟨h.held, fun i sock hsock hopen => ?_⟩
  have hclosed := h.closed sock (List.mem_of_getElem? hsock)
  rw [hclosed] at hopen
  cases hopen

theorem Holds.tidy (h : Holds n sock s) : s.Tidy := by
  obtain ⟨others, hmade, hclosed, -, hheld⟩ := h.others
  constructor
  · intro i hi
    rw [hheld] at hi
    rw [hmade, List.length_append, ← Option.some.inj hi]
    exact Nat.lt_succ_self _
  · intro i other hother hopen
    rw [hmade] at hother
    by_cases hi : i < others.length
    · rw [List.getElem?_append_left hi] at hother
      have hother' := hclosed other (List.mem_of_getElem? hother)
      rw [hother'] at hopen
      cases hopen
    · rw [List.getElem?_append_right (by omega)] at hother
      have hlast : i - others.length = 0 := by
        by_contra hne
        rw [List.getElem?_eq_none (by simp only [List.length_singleton]; omega)] at hother
        cases hother
      rw [hheld]
      congr 1
      omega

theorem Down.mono {n' : Nat} (h : Down n s) (hn : n ≤ n') : Down n' s :=
  ⟨h.tidy, h.connected, h.count.trans hn⟩

theorem Spent.down (h : Spent n s) : Down n s := ⟨h.tidy, h.connected, h.count⟩

theorem Tidy.down (h : s.Tidy) (hconnected : s.connected = false) : Down s.made.length s :=
  ⟨h, hconnected, Nat.le_refl _⟩

theorem Holds.mono {n' : Nat} (h : Holds n sock s) (hn : n ≤ n') : Holds n' sock s := by
  obtain ⟨others, hmade, hclosed, hcount, hheld⟩ := h.others
  exact ⟨⟨others, hmade, hclosed, hcount.trans hn, hheld⟩, h.isOpen, h.connected⟩

theorem Holds.down (h : Holds n sock s) : Down (n + 1) s := by
  obtain ⟨others, hmade, -, hcount, -⟩ := h.others
  refine ⟨h.tidy, h.connected, ?_⟩
  rw [hmade, List.length_append]
  exact Nat.succ_le_succ hcount

theorem modify_last (others : List (Sock α)) (sock : Sock α) (f : Sock α → Sock α) :
    (others ++ [sock]).modify others.length f = others ++ [f sock] := by
  induction others with
  | nil => rfl
  | cons other others ih =>
      rw [List.cons_append, List.length_cons, List.modify_succ_cons, ih]
      rfl

theorem Holds.change {f : Sock α → Sock α} (h : Holds n sock s) (hopen : (f sock).closed = false)
    {i : Nat} (hi : s.sock = some i) : Holds n (f sock) (s.change i f) := by
  obtain ⟨others, hmade, hclosed, hcount, hheld⟩ := h.others
  refine ⟨⟨others, ?_, hclosed, hcount, hheld⟩, hopen, h.connected⟩
  rw [hheld] at hi
  rw [Sockets.change, hmade, ← Option.some.inj hi]
  exact modify_last others sock f

/-- The socket that is held is open. -/
theorem Holds.not_closed (h : Holds n sock s) {i : Nat} (hi : s.sock = some i) :
    (s.made[i]?.any fun sock => sock.closed) = false := by
  obtain ⟨others, hmade, -, -, hheld⟩ := h.others
  rw [hheld] at hi
  rw [hmade, ← Option.some.inj hi, List.getElem?_concat_length, Option.any_some]
  exact h.isOpen

theorem call_keeps {I : Sockets α → Prop} {f : Sockets α → Sockets α} {Q : Sockets α → Prop}
    (hcalls : ∀ s calls, I s → I { s with calls }) (hf : ∀ s, I s → Q (f s)) :
    Effect.Triple I (call cfg f) (fun _ => Q) (fun _ => I) := by
  intro s hs
  have hcounted := hcalls s (s.calls + 1) hs
  simp only [call]
  cases cfg.fails (s.calls + 1) with
  | some e => exact hcounted
  | none => exact hf _ hcounted

/-- A call of a method changes the open socket, or raises. -/
theorem onSock_holds (f : Sock α → Sock α) (hopen : (f sock).closed = sock.closed) :
    Effect.Triple (Holds n sock) (onSock cfg f) (fun _ => Holds n (f sock))
      (fun _ => Holds n sock) := by
  intro s hs
  obtain ⟨others, -, -, -, hheld⟩ := hs.others
  simp only [onSock, hheld]
  rw [hs.not_closed hheld, if_neg Bool.false_ne_true]
  have hcall := @call_keeps α cfg (fun s => Holds n sock s ∧ s.sock = some others.length)
    (Sockets.change others.length f) (Holds n (f sock))
    (fun s calls h => ⟨⟨h.1.others, h.1.isOpen, h.1.connected⟩, h.2⟩)
    (fun s h => h.1.change (hopen.trans h.1.isOpen) h.2) s ⟨hs, hheld⟩
  revert hcall
  rcases call cfg (Sockets.change others.length f) s with ⟨e | _, s'⟩
  · exact And.left
  · exact id

theorem makeSocket_holds :
    Effect.Triple (Spent n) (makeSocket cfg) (fun _ => Holds (α := α) n {}) (fun _ => Spent n) := by
  apply call_keeps
  · exact fun s calls h => ⟨h.closed, h.count, h.held, h.connected⟩
  · exact fun s h => ⟨⟨s.made, rfl, h.closed, h.count, rfl⟩, rfl, h.connected⟩

/-- An address is reached by a new socket, or the socket is not there or not connected. -/
theorem reach_holds (address : α) :
    Effect.Triple (Spent n) (reach cfg address)
      (fun _ => Holds n { address := some address, timeout := cfg.connectTimeout })
      (fun _ => Down (n + 1)) := by
  refine .bind (makeSocket_holds.weaken_error fun _ s h => h.down.mono (Nat.le_succ n)) fun _ => ?_
  refine .bind ((onSock_holds id rfl).weaken_error fun _ s => Holds.down) fun _ => ?_
  refine .bind ((onSock_holds _ rfl).weaken_error fun _ s => Holds.down) fun _ => ?_
  exact (onSock_holds _ rfl).weaken_error fun _ s => Holds.down

theorem Spent.calls (h : Spent n s) (calls : Nat) : Spent n { s with calls } :=
  ⟨h.closed, h.count, h.held, h.connected⟩

/-- With the socket that is held closed, all are. -/
theorem Tidy.allClosed (h : s.Tidy) {i : Nat} (hi : s.sock = some i) :
    AllClosed (s.change i fun sock => { sock with closed := true }).made := by
  intro sock hsock
  obtain ⟨j, hj⟩ := List.getElem?_of_mem hsock
  simp only [Sockets.change] at hj
  by_cases hij : i = j
  · rw [← hij, List.getElem?_modify_eq] at hj
    obtain ⟨sock', -, rfl⟩ := Option.map_eq_some_iff.mp hj
    rfl
  · rw [List.getElem?_modify_ne _ _ hij] at hj
    by_contra hopen
    have hheld := h.opened j sock hj (by simpa using hopen)
    rw [hi] at hheld
    exact hij (Option.some.inj hheld)

theorem Tidy.closed_of_none (h : s.Tidy) (hnone : s.sock = none) : AllClosed s.made := by
  intro sock hsock
  obtain ⟨i, hi⟩ := List.getElem?_of_mem hsock
  by_contra hopen
  have hheld := h.opened i sock hi (by simpa using hopen)
  rw [hnone] at hheld
  cases hheld

theorem Down.spent (h : Down n s) (hnone : s.sock = none) : Spent n s :=
  ⟨h.tidy.closed_of_none hnone, h.count, h.tidy.held, h.connected⟩

/-- Closing the socket leaves none open, also if it raises. -/
theorem closeSock_spent :
    Effect.Triple (Down n) (closeSock (α := α) cfg) (fun _ => Spent n) (fun _ => Spent n) := by
  intro s hs
  cases hheld : s.sock with
  | none =>
      simp only [closeSock, hheld]
      exact hs.spent hheld
  | some i =>
      have hclosed : Spent n (s.change i fun sock => { sock with closed := true }) := by
        refine ⟨hs.tidy.allClosed hheld, ?_, ?_, hs.connected⟩
        · rw [Sockets.change, List.length_modify]
          exact hs.count
        · intro j hj
          rw [Sockets.change, List.length_modify]
          exact hs.tidy.held j hj
      simp only [closeSock, hheld]
      exact call_keeps (fun s calls h => h.calls calls) (fun s h => h) _ hclosed

theorem Spent.forget (h : Spent n s) : Spent n { s with sock := none } :=
  ⟨h.closed, h.count, fun i hi => (by cases hi), h.connected⟩

theorem drop_spent :
    Effect.Triple (Down n) (drop (α := α) cfg) (fun _ => Spent n) (fun _ => Spent n) := by
  have hclose : Effect.Triple (Down n) (closeHeld (α := α) cfg) (fun _ => Spent n)
      (fun _ => Spent n) := by
    refine .bind (Q := fun t s => t = s ∧ Down n s) (.get fun s h => ⟨rfl, h⟩) fun t => ?_
    by_cases hsock : t.sock.isSome = true
    · rw [if_pos hsock]
      exact closeSock_spent.weaken (fun s h => h.2) (fun _ _ h => h) fun _ _ h => h
    · rw [if_neg hsock]
      refine .pure () ?_
      rintro s ⟨rfl, hdown⟩
      exact hdown.spent (by simpa using hsock)
  exact hclose.bind fun _ => .modify fun s h => h.forget

/-- No socket is open, or none is made: `socket.socket` is the next call, and raises. -/
def Frees (cfg : SocketConfig) (s : Sockets α) : Prop :=
  AllClosed s.made ∨ cfg.fails (s.calls + 1) ≠ none

theorem Down.calls (h : Down n s) (calls : Nat) : Down n { s with calls } :=
  ⟨⟨h.tidy.held, h.tidy.opened⟩, h.connected, h.count⟩

/-- An address is tried by a transport that has no open socket, or makes no other one. -/
theorem reach_frees (address : α) :
    Effect.Triple (fun s => Down n s ∧ s.Frees cfg) (reach cfg address)
      (fun _ => Holds n { address := some address, timeout := cfg.connectTimeout })
      (fun _ => Down (n + 1)) := by
  rintro s ⟨hdown, hclosed | hraises⟩
  · exact reach_holds address s ⟨hclosed, hdown.count, hdown.tidy.held, hdown.connected⟩
  · obtain ⟨e, he⟩ := Option.ne_none_iff_exists'.mp hraises
    have hmake : makeSocket cfg s = (.error e, { s with calls := s.calls + 1 }) := by
      simp only [makeSocket, call, he]
    have hreach : reach cfg address s = (.error e, { s with calls := s.calls + 1 }) :=
      Effect.bind_error _ hmake
    rw [hreach]
    exact (hdown.calls _).mono (Nat.le_succ n)

/-- The addresses were tried, one after the other, and none was reached: every try raised an
`OSError`, after which its socket was closed. -/
inductive Unreached (cfg : SocketConfig) : List α → Sockets α → Sockets α → Prop
  | nil {s : Sockets α} : Unreached cfg [] s s
  | cons {address : α} {rest : List α} {e : PyError} {s raised dropped s' : Sockets α} :
      reach cfg address s = (.error e, raised) → e.isOSError = true →
      drop cfg raised = (.ok (), dropped) → Unreached cfg rest dropped s' →
      Unreached cfg (address :: rest) s s'

/-- The addresses are tried one after the other, each with a socket of its own, until one is
reached. -/
theorem dial_reaches {addresses : List α} (hs : Down n s) (hfrees : s.Frees cfg) :
    match dial cfg addresses s with
    | (.ok _, s') => (addresses = [] ∧ s' = s) ∨ ∃ tried address rest failed,
        addresses = tried ++ address :: rest ∧ Unreached cfg tried s failed ∧
          reach cfg address failed = (.ok (), s') ∧
          Holds (n + tried.length) { address := some address, timeout := cfg.connectTimeout } s'
    | (.error _, s') => ∃ m, Down m s' := by
  induction addresses generalizing n s with
  | nil => exact .inl ⟨rfl, rfl⟩
  | cons address rest ih =>
      have hreach := @reach_frees α cfg n address s ⟨hs, hfrees⟩
      simp only [dial, Effect.tryCatch]
      cases hrun : reach cfg address s with
      | mk r raised =>
          rw [hrun] at hreach
          cases r with
          | ok =>
              simp only
              exact .inr ⟨[], address, rest, s, rfl, .nil, hrun, hreach⟩
          | error e =>
              simp only
              by_cases hos : e.isOSError = true
              · have hdrop := @drop_spent α cfg (n + 1) raised hreach
                simp only [hos, if_true, Effect.bind_run]
                cases hdropped : drop cfg raised with
                | mk r dropped =>
                    rw [hdropped] at hdrop
                    cases r with
                    | error e' => exact ⟨_, hdrop.down⟩
                    | ok =>
                        simp only
                        by_cases hlast : rest = []
                        · rw [if_pos hlast]
                          exact ⟨_, hdrop.down⟩
                        · rw [if_neg hlast]
                          have hrest := ih hdrop.down (.inl hdrop.closed)
                          revert hrest
                          rcases dial cfg rest dropped with ⟨e' | _, s'⟩
                          · exact id
                          · rintro (⟨hnil, -⟩ | ⟨tried, address', rest', failed, rfl, hfailed,
                              hreached, hholds⟩)
                            · exact absurd hnil hlast
                            · refine .inr ⟨address :: tried, address', rest', failed, rfl,
                                .cons hrun hos hdropped hfailed, hreached, ?_⟩
                              rw [List.length_cons, ← Nat.add_assoc, Nat.add_right_comm]
                              exact hholds
              · rw [if_neg hos]
                exact ⟨_, hreach⟩

/-! Options -/

/-- The defaults that `_get_tcp_socket_defaults` puts together. -/
def tcpSocketDefaults (cfg : SocketConfig) :
    List String → List (Nat × OptionValue) → List (Nat × OptionValue)
  | [], tcpOpts => tcpOpts
  | opt :: rest, tcpOpts =>
      let enum :=
        if opt = "TCP_USER_TIMEOUT" then some ((cfg.constant opt).getD 18) else cfg.constant opt
      match enum with
      | none | some 0 => tcpSocketDefaults cfg rest tcpOpts
      | some enum =>
          match Assoc.get? defaultSocketSettings opt, cfg.constant opt with
          | some value, _ => tcpSocketDefaults cfg rest (Assoc.set tcpOpts enum (.int value))
          | none, some number =>
              tcpSocketDefaults cfg rest (Assoc.set tcpOpts enum (.int (cfg.getsockopt number)))
          | none, none => tcpSocketDefaults cfg rest tcpOpts

/-- The options that a socket is given: the defaults and the user's. -/
def tcpOptions (cfg : SocketConfig) : List (Nat × OptionValue) :=
  update (tcpSocketDefaults cfg cfg.knownTcpOpts []) cfg.socketSettings

theorem getTcpSocketDefaults_holds (opts : List String) (tcpOpts : List (Nat × OptionValue)) :
    Effect.Triple (Holds n sock) (getTcpSocketDefaults cfg opts tcpOpts)
      (fun r s => r = tcpSocketDefaults cfg opts tcpOpts ∧ Holds n sock s)
      (fun _ => Holds n sock) := by
  induction opts generalizing tcpOpts with
  | nil => exact .pure _ fun s h => ⟨rfl, h⟩
  | cons opt rest ih =>
      unfold getTcpSocketDefaults tcpSocketDefaults
      simp only
      generalize (if opt = "TCP_USER_TIMEOUT" then some ((cfg.constant opt).getD 18)
        else cfg.constant opt) = enum
      match enum with
      | none => exact ih _
      | some 0 => exact ih _
      | some (enum + 1) =>
          cases Assoc.get? defaultSocketSettings opt with
          | some value => exact ih _
          | none =>
              cases cfg.constant opt with
              | some number => exact (onSock_holds id rfl).bind fun _ => ih _
              | none => exact ih _

theorem nodup_tcpSocketDefaults (opts : List String) {tcpOpts : List (Nat × OptionValue)}
    (h : (Assoc.keys tcpOpts).Nodup) : (Assoc.keys (tcpSocketDefaults cfg opts tcpOpts)).Nodup := by
  induction opts generalizing tcpOpts with
  | nil => exact h
  | cons opt rest ih =>
      unfold tcpSocketDefaults
      simp only
      split
      · exact ih h
      · exact ih h
      split
      · exact ih (Assoc.nodup_set h _ _)
      · exact ih (Assoc.nodup_set h _ _)
      · exact ih h

theorem nodup_update {tcpOpts : List (Nat × OptionValue)} (h : (Assoc.keys tcpOpts).Nodup)
    (settings : List (Nat × OptionValue)) : (Assoc.keys (update tcpOpts settings)).Nodup := by
  induction settings generalizing tcpOpts with
  | nil => exact h
  | cons entry rest ih => exact ih (Assoc.nodup_set h _ _)

/-- Every option is set on the socket, in turn. -/
theorem setOptions_holds (entries : List (Nat × OptionValue)) :
    Effect.Triple (Holds n sock)
      (Effect.forEach (fun entry => onSock cfg fun sock =>
        { sock with options := Assoc.set sock.options entry.1 entry.2 }) entries)
      (fun _ => Holds n { sock with options := update sock.options entries })
      (fun _ s => ∃ sock, Holds n sock s) := by
  induction entries generalizing sock with
  | nil => exact .pure () fun s h => h
  | cons entry rest ih =>
      refine .bind ((onSock_holds _ rfl).weaken_error fun _ s h => ⟨_, h⟩) fun _ => ?_
      exact ih

theorem setSocketOptions_holds (hnone : sock.options = []) :
    Effect.Triple (Holds n sock) (setSocketOptions cfg)
      (fun _ => Holds n { sock with options := tcpOptions cfg })
      (fun _ s => ∃ sock, Holds n sock s) := by
  have hempty : (Assoc.keys ([] : List (Nat × OptionValue))).Nodup := List.nodup_nil
  have hnodup : (Assoc.keys (tcpOptions cfg)).Nodup :=
    nodup_update (nodup_tcpSocketDefaults cfg.knownTcpOpts hempty) cfg.socketSettings
  have hall : update sock.options (tcpOptions cfg) = tcpOptions cfg := by
    rw [hnone]
    exact Assoc.foldl_set_fresh [] _ hnodup fun _ _ => List.not_mem_nil
  refine .bind_value ((getTcpSocketDefaults_holds _ _).weaken_error fun _ s h => ⟨_, h⟩) ?_
  have hset := @setOptions_holds α cfg n sock (tcpOptions cfg)
  rw [hall] at hset
  exact hset

/-! A transport that is ready -/

/-- A socket as `connect` leaves it, connected to the address. Over TLS it is left with the
timeout of `connect`, under which it has done the handshake, unless `wrap_socket` has done that
before without a timeout. -/
structure Ready (cfg : SocketConfig) (address : α) (sock : Sock α) : Prop where
  address : sock.address = some address
  isOpen : sock.closed = false
  keepAlive : sock.keepAlive = true
  options : sock.options = tcpOptions cfg
  sndTimeo : sock.sndTimeo = cfg.writeTimeout.map secUsec
  rcvTimeo : sock.rcvTimeo = cfg.readTimeout.map secUsec
  sent : sock.sent = amqpProtocolHeader
  tcp : cfg.kind = .tcp → sock.timeout = none ∧ sock.session = none
  ssl : cfg.kind = .ssl → sock.timeout = cfg.connectTimeout ∧
    ∃ session, sock.session = some session ∧ session.Trusts cfg.hasSni cfg.sslopts ∧
      sock.handshakes = (if session.handshakes then [none] else []) ++ [cfg.connectTimeout]

/-- `connect` is under way with an open socket. -/
def Held (n : Nat) (s : Sockets α) : Prop := ∃ sock, Holds n sock s

theorem setInterval_holds (interval : Option ℚ) (f : Option (Int × Int) → Sock α → Sock α)
    (hnone : f none sock = sock) (hopen : ∀ value, (f value sock).closed = sock.closed) :
    Effect.Triple (Holds n sock) (setInterval cfg interval fun value => f (some value))
      (fun _ => Holds n (f (interval.map secUsec) sock)) (fun _ => Held n) := by
  cases interval with
  | none =>
      refine .pure () fun s h => ?_
      rw [Option.map_none, hnone]
      exact h
  | some interval => exact (onSock_holds _ (hopen _)).weaken_error fun _ s h => ⟨_, h⟩

/-- The socket with its options, before it is wrapped. -/
def prepared (cfg : SocketConfig) (address : α) : Sock α where
  address := some address
  keepAlive := true
  options := tcpOptions cfg
  sndTimeo := cfg.writeTimeout.map secUsec
  rcvTimeo := cfg.readTimeout.map secUsec

/-- The socket is as it is to be, but for the header that is not sent yet. -/
def Armed (cfg : SocketConfig) (n : Nat) (address : α) (s : Sockets α) : Prop :=
  ∃ sock, Holds n sock s ∧ sock.sent = [] ∧
    Ready cfg address { sock with sent := amqpProtocolHeader }

theorem wrapSock_armed (address : α) :
    Effect.Triple (Holds n (prepared cfg address)) (wrapSock cfg)
      (fun _ => Armed cfg n address) (fun _ => Held n) := by
  have hheld : ∀ (_ : PyError) (s : Sockets α) (sock : Sock α), Holds n sock s → Held n s :=
    fun _ s sock h => ⟨sock, h⟩
  unfold wrapSock
  cases hkind : cfg.kind with
  | tcp =>
      refine .pure () fun s h => ⟨_, h, rfl, rfl, rfl, rfl, rfl, rfl, rfl, rfl, ?_, ?_⟩
      · exact fun _ => ⟨rfl, rfl⟩
      · rw [hkind]
        intro hssl
        cases hssl
  | ssl =>
      refine .bind (Q := fun session s => Tls.wrapSocket cfg.hasSni cfg.sslopts = .ok session ∧
        Holds n (prepared cfg address) s) (.liftExcept (fun _ hwrap s h => ⟨hwrap, h⟩)
          fun e _ s h => hheld e s _ h) fun session => ?_
      rintro s ⟨hwrap, hs⟩
      refine Effect.Triple.bind ((onSock_holds _ rfl).weaken_error fun e s => hheld e s _)
        (fun _ => ?_) s hs
      refine .bind ((onSock_holds _ rfl).weaken_error fun e s => hheld e s _) fun _ => ?_
      refine (onSock_holds _ rfl).weaken (fun _ h => h) (fun _ s h => ?_) fun e s => hheld e s _
      refine ⟨_, h, rfl, rfl, hs.isOpen, rfl, rfl, rfl, rfl, rfl, ?_, ?_⟩
      · rw [hkind]
        intro htcp
        cases htcp
      · refine fun _ => ⟨rfl, session, rfl, Tls.wrapSocket_trusts hwrap, ?_⟩
        cases session.handshakes with
        | true => rfl
        | false => rfl

theorem setupTransport_armed (address : α) :
    Effect.Triple (Holds n (prepared cfg address)) (setupTransport cfg)
      (fun _ s => Armed cfg n address s ∧ s.receiver = s.sock) (fun _ => Held n) := by
  refine (wrapSock_armed address).bind fun _ => .modify ?_
  rintro s ⟨sock, hholds, hsent, hready⟩
  exact ⟨⟨sock, ⟨hholds.others, hholds.isOpen, hholds.connected⟩, hsent, hready⟩, rfl⟩

/-- The transport is connected by all means but its flag. -/
structure Settled (cfg : SocketConfig) (n : Nat) (address : α) (s : Sockets α) : Prop where
  ready : ∃ sock, Holds n sock s ∧ Ready cfg address sock
  receiver : s.receiver = s.sock

theorem writeHeader_settled (address : α) (sends : List Send) :
    Effect.Triple (fun s => Armed cfg n address s ∧ s.receiver = s.sock) (writeHeader cfg sends)
      (fun _ => Settled cfg n address) (fun _ => Held n) := by
  rintro s ⟨⟨sock, hholds, hsent, hready⟩, hreceiver⟩
  obtain ⟨others, hmade, -, -, hheld⟩ := hholds.others
  have hwrites := Outbound.rawWrite_writes cfg.kind amqpProtocolHeader
    { sent := (s.made[others.length]?.map Sock.sent).getD [], sends }
  have hempty : (s.made[others.length]?.map Sock.sent).getD [] = [] := by
    rw [hmade, List.getElem?_concat_length]
    exact hsent
  simp only [writeHeader, hheld]
  revert hwrites
  rw [hempty]
  rcases Outbound.rawWrite cfg.kind amqpProtocolHeader { sent := [], sends } with ⟨e | _, out⟩
  · intro _
    exact ⟨_, hholds.change hholds.isOpen hheld⟩
  · intro hwrites
    refine ⟨⟨_, hholds.change hholds.isOpen hheld, ?_⟩, hreceiver⟩
    have hall : out.sent = amqpProtocolHeader := hwrites.sent.trans (List.nil_append _)
    rw [hall]
    exact hready

/-- `_init_socket` makes a new socket ready. -/
theorem initSocket_settled (address : α) (sends : List Send) (timeout : Option ℚ) :
    Effect.Triple (Holds n { address := some address, timeout }) (initSocket cfg sends)
      (fun _ => Settled cfg n address) (fun _ => Held n) := by
  have hheld : ∀ (_ : PyError) (s : Sockets α) (sock : Sock α), Holds n sock s → Held n s :=
    fun _ s sock h => ⟨sock, h⟩
  refine .bind ((onSock_holds _ rfl).weaken_error fun e s => hheld e s _) fun _ => ?_
  refine .bind ((onSock_holds _ rfl).weaken_error fun e s => hheld e s _) fun _ => ?_
  refine .bind (setSocketOptions_holds rfl) fun _ => ?_
  refine .bind (setInterval_holds cfg.writeTimeout
    (fun value sock => { sock with sndTimeo := value }) rfl fun _ => rfl) fun _ => ?_
  refine .bind (setInterval_holds cfg.readTimeout
    (fun value sock => { sock with rcvTimeo := value }) rfl fun _ => rfl) fun _ => ?_
  exact (setupTransport_armed address).bind fun _ => writeHeader_settled address sends

end Holds

end Sockets

end PyAmqp
