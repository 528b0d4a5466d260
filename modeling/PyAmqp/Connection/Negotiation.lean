import PyAmqp.Connection.Sasl
import PyAmqp.Framing.WriterSpec
import PyAmqp.Serialization.Arguments
import PyAmqp.Serialization.Concatenation

/-!
What a connection settles with its server before it is open: the listeners `_on_start`,
`_on_tune` and `_on_open_ok` of `amqp/connection.py`, with all they read and send.
-/

namespace PyAmqp

open Cursor Connection

/-- `LIBRARY_PROPERTIES` -/
def libraryProperties : List (PyStr × Value) :=
  [(PyStr.ofString "product", .str (PyStr.ofString "py-amqp")),
    (PyStr.ofString "product_version", .str (PyStr.ofString "5.3.1"))]

/-- `NEGOTIATE_CAPABILITIES` -/
def defaultCapabilities : List (PyStr × Bool) :=
  [(PyStr.ofString "consumer_cancel_notify", true),
    (PyStr.ofString "connection.blocked", true),
    (PyStr.ofString "authentication_failure_close", true)]

/-- What a connection is made with; zero is a limit that was not given. -/
structure Options where
  authentication : List Mechanism
  negotiateCapabilities : List (PyStr × Bool) := defaultCapabilities
  clientProperties : List (PyStr × Value) := []
  virtualHost : PyStr := PyStr.ofString "/"
  locale : PyStr := PyStr.ofString "en_US"
  channelMax : Int := 0
  frameMax : Int := 0
  heartbeat : Int := 0
  distinct : (Value.dict clientProperties).every Value.distinctKeys = true := by decide

/-- The limits of a connection. -/
structure Limits where
  channelMax : Int
  frameMax : Int
  heartbeat : Int
  deriving DecidableEq

/-- The attributes of a connection that are settled, and what it has sent. -/
structure Negotiation where
  clientProperties : List (PyStr × Value)
  serverProperties : List (PyStr × Value) := []
  mechanisms : List Octets := []
  limits : Limits
  serverHeartbeat : Int := 0
  handshakeComplete : Bool := false
  sent : List Inbound := []

namespace Negotiation

/-- `dict(d, **added)` -/
def updated {α : Type} (d added : List (PyStr × α)) : List (PyStr × α) :=
  added.foldl (fun d entry => Assoc.set d entry.1 entry.2) d

/-- `Connection.__init__` -/
def init (o : Options) : Negotiation where
  clientProperties := updated libraryProperties o.clientProperties
  limits :=
    { channelMax := if o.channelMax = 0 then 65535 else o.channelMax
      frameMax := if o.frameMax = 0 then 131072 else o.frameMax
      heartbeat := 0 }

/-- `send_method` -/
def sendMethod (sig : MethodSig) (format : String) (args : List Value) :
    Effect Negotiation PyError Unit := do
  let octets ← Effect.liftExcept (dumps format.toList args)
  Effect.modify fun s =>
    { s with sent := s.sent ++ [{ methodSig := sig, payload := methodOctets sig octets }] }

/-! Start -/

def capabilities : PyStr := PyStr.ofString "capabilities"

/-- The wanted capabilities that `scap`, the server's, has. -/
def offered (wanted : List (PyStr × Bool)) : Value → Except PyError (List (PyStr × Bool))
  | .dict scap =>
      .ok (wanted.filter fun entry => ((Assoc.get? scap entry.1).getD .none).truthy)
  | _ => if wanted = [] then .ok [] else .error .attributeError

/-- `cap.update(...)`, and the key is removed when there are none. -/
def enable (enabled : List (PyStr × Bool)) (cap properties : List (PyStr × Value)) :
    List (PyStr × Value) :=
  let cap := updated cap (enabled.map fun entry => (entry.1, .bool entry.2))
  if cap = [] then Assoc.erase properties capabilities
  else Assoc.set properties capabilities (.dict cap)

/-- `_on_start`, up to the choice of a mechanism. -/
def negotiateCapabilities (o : Options) (serverProperties : List (PyStr × Value)) :
    Effect Negotiation PyError Unit := do
  let scap := ((Assoc.get? serverProperties capabilities).getD .none).orElse (.dict [])
  let s ← Effect.get
  let (cap, properties) := Assoc.setdefault s.clientProperties capabilities (.dict [])
  Effect.modify fun s => { s with clientProperties := properties }
  match cap with
  | .dict cap => do
      let enabled ← Effect.liftExcept (offered o.negotiateCapabilities scap)
      Effect.modify fun s => { s with clientProperties := enable enabled cap properties }
  | _ => Effect.raise .attributeError

/-- Whether a mechanism is offered is decided by equality. -/
local instance instOctets : LawfulBEq Octets := inferInstance

/-- The loop over `self.authentication`: the first mechanism that is offered and has a
response, with the response. -/
def chooseAuthentication (offered : List Octets) :
    List Mechanism → Except PyError (Option (Octets × Octets))
  | [] => .ok none
  | authentication :: rest =>
      match authentication.mechanism with
      | some mechanism =>
          if mechanism ∈ offered then do
            match ← authentication.start with
            | some response => return some (mechanism, response)
            | none => chooseAuthentication offered rest
          else chooseAuthentication offered rest
      | none => chooseAuthentication offered rest

/-- `_on_start` -/
def onStart (o : Options) : List Arg → Effect Negotiation PyError Unit
  | [.value _, .value _, .value (.dict serverProperties), .value (.str mechanisms),
      .value (.str _)] => do
      let mechanisms := split 0x20 (Utf8.encode mechanisms)
      Effect.modify fun s => { s with serverProperties, mechanisms }
      negotiateCapabilities o serverProperties
      match ← Effect.liftExcept (chooseAuthentication mechanisms o.authentication) with
      | some (mechanism, response) => do
          let s ← Effect.get
          sendMethod Spec.Connection.startOk "FsSs"
            [.dict s.clientProperties, .bytes mechanism, .bytes response, .str o.locale]
      | none =>
          Effect.raise (.amqp {
            cls := .connectionError
            replyText := .noAuthMechanism (o.authentication.filterMap Mechanism.mechanism)
              mechanisms })
  | _ => Effect.raise .typeError

/-! Tune -/

/-- The heartbeat interval of `_on_tune`. -/
def settleHeartbeat (client server : Int) : Int :=
  if client = 0 then 0
  else if server = 0 ∨ client = 0 then max server client
  else min server client

/-- What `_on_tune` makes of the server's limits; zero is no limit. -/
def settle (o : Options) (own server : Limits) : Limits where
  channelMax := if server.channelMax = 0 then own.channelMax else server.channelMax
  frameMax := if server.frameMax = 0 then own.frameMax else server.frameMax
  heartbeat := settleHeartbeat o.heartbeat server.heartbeat

/-- `_on_tune` and `_on_tune_sent` -/
def onTune (o : Options) : List Arg → Effect Negotiation PyError Unit
  | [.value (.int channelMax), .value (.int frameMax), .value (.int serverHeartbeat)] => do
      Effect.modify fun s =>
        { s with
          limits := settle o s.limits { channelMax, frameMax, heartbeat := serverHeartbeat }
          serverHeartbeat }
      let s ← Effect.get
      sendMethod Spec.Connection.tuneOk "BlB"
        [.int s.limits.channelMax, .int s.limits.frameMax, .int s.limits.heartbeat]
      sendMethod Spec.Connection.open "ssb" [.str o.virtualHost, .str [], .bool false]
  | _ => Effect.raise .typeError

/-! Dispatch -/

/-- `_on_close` -/
def onClose (args : List Arg) : Effect Negotiation PyError Unit := do
  sendMethod Spec.Connection.closeOk "" []
  Effect.raise (Connection.closeError args)

/-- The listener of a method. -/
def listen (o : Options) (sig : MethodSig) (args : List Arg) : Effect Negotiation PyError Unit :=
  if sig = Spec.Connection.start then onStart o args
  else if sig = Spec.Connection.tune then onTune o args
  else if sig = Spec.Connection.openOk then
    Effect.modify fun s => { s with handshakeComplete := true }
  else if sig = Spec.Connection.close then onClose args
  -- `_on_secure` does nothing
  else pure ()

/-- A method is read and dispatched. -/
def dispatchMethod (o : Options) (m : Inbound) : Effect Negotiation PyError Unit := do
  let method ← Effect.liftExcept (lookup 0 m.methodSig)
  let args ← Effect.liftExcept (m.args id method)
  listen o m.methodSig args

end Negotiation

/-! What the server reads -/

/-- A `StartOk` as a server reads it. -/
structure Greeting where
  clientProperties : List (PyStr × Value)
  mechanism : Octets
  response : Octets
  locale : PyStr

def readGreeting : Reader Greeting := do
  let clientProperties ← readTable readItem
  let mechanism ← readSized 1
  let response ← readSized 4
  let locale ← readText 1
  return { clientProperties, mechanism, response, locale }

namespace Inbound

def greeting (m : Inbound) : Except PyError Greeting := (readGreeting m.payload 4).map Prod.fst

/-- The arguments of a `TuneOk`. -/
def limits (m : Inbound) : Except PyError Limits := do
  match (← loads "BlB".toList m.payload 4).1 with
  | [.int channelMax, .int frameMax, .int heartbeat] => return { channelMax, frameMax, heartbeat }
  | _ => .error .typeError

/-- The virtual host of an `Open`. -/
def virtualHost (m : Inbound) : Except PyError PyStr := do
  match (← loads "ssb".toList m.payload 4).1 with
  | [.str virtualHost, _, _] => return virtualHost
  | _ => .error .typeError

end Inbound

/-- What stands behind the class and the method of a frame. -/
theorem reads_method {α : Type} {r : Reader α} {octets : Octets} {a : α} (h : Reads r octets a)
    (sig : MethodSig) : r (methodOctets sig octets) 4 = .ok (a, 4 + octets.length) := by
  have hread := h (BigEndian.encode 2 sig.1 ++ BigEndian.encode 2 sig.2) []
  have hoffset : (BigEndian.encode 2 sig.1 ++ BigEndian.encode 2 sig.2).length = 4 := by simp
  rwa [List.append_nil, hoffset] at hread

/-! Fields -/

theorem writeText_bytes (width : Nat) (octets : Octets) :
    writeText width (.bytes octets) = writeSized width octets := by
  cases octets <;> rfl

theorem writeText_str (width : Nat) (text : PyStr) :
    writeText width (.str text) = writeSized width (Utf8.encode text) := by
  cases text <;> rfl

theorem writeSized_sized {width : Nat} {data octets : Octets} (h : writeSized width data = .ok octets) :
    data.length < 256 ^ width ∧ octets = sized width data := by
  have hlength := (writeSized_eq_ok h).1
  exact ⟨hlength, Except.ok.inj (h.symm.trans (writeSized_ok width hlength))⟩

theorem dumps_greeting (properties : List (PyStr × Value)) (mechanism response : Octets)
    (locale : PyStr) :
    dumps "FsSs".toList [.dict properties, .bytes mechanism, .bytes response, .str locale] = do
      let table ← writeTable (.dict properties)
      let mechanism ← writeSized 1 mechanism
      let response ← writeSized 4 response
      let locale ← writeSized 1 (Utf8.encode locale)
      return table ++ mechanism ++ response ++ locale := by
  have hformat : "FsSs".toList = ['F', 's', 'S', 's'] := by decide
  rw [hformat]
  simp only [dumps, dumpsLoop, dumpsStep, dumpsField, orElse_dict, writeText_bytes, writeText_str]
  cases writeTable (.dict properties) with
  | error e => rfl
  | ok table =>
    cases writeSized 1 mechanism with
    | error e => rfl
    | ok name =>
      cases writeSized 4 response with
      | error e => rfl
      | ok answer =>
        cases writeSized 1 (Utf8.encode locale) with
        | error e => rfl
        | ok tongue => simp [Dumper.flushbits, Dumper.write]

/-- A `StartOk` that is written is read as it was meant. -/
theorem reads_greeting {properties : List (PyStr × Value)} {mechanism response : Octets}
    {locale : PyStr} {octets : Octets}
    (hkeys : (Value.dict properties).every Value.distinctKeys = true)
    (h : dumps "FsSs".toList [.dict properties, .bytes mechanism, .bytes response, .str locale] =
      .ok octets) :
    Reads readGreeting octets
      { clientProperties := readBackEntries properties, mechanism, response, locale } := by
  rw [dumps_greeting] at h
  obtain ⟨table, htable, h⟩ := bind_eq_ok h
  obtain ⟨name, hname, h⟩ := bind_eq_ok h
  obtain ⟨answer, hanswer, h⟩ := bind_eq_ok h
  obtain ⟨tongue, htongue, h⟩ := bind_eq_ok h
  obtain rfl := Except.ok.inj h
  have hencodable := encodable_of_table hkeys htable
  obtain rfl := Except.ok.inj ((writeTable_ok hencodable).symm.trans htable)
  obtain ⟨hmechanism, rfl⟩ := writeSized_sized hname
  obtain ⟨hresponse, rfl⟩ := writeSized_sized hanswer
  obtain ⟨hlocale, rfl⟩ := writeSized_sized htongue
  rw [List.append_assoc, List.append_assoc]
  apply (reads_tableOctets hencodable).bind
  apply (reads_sized 1 hmechanism).bind
  apply (reads_sized 4 hresponse).bind
  exact Reads.bind_pure _ (reads_text 1 hlocale)

theorem inRange_short {i : Int} (h : Accepts 'B' (.int i)) : InRange 'B' (.int i) := by
  obtain ⟨octets, h⟩ := h
  have hrange := pack_range (show pack 2 i = .ok octets from h)
  obtain ⟨n, rfl⟩ := Int.eq_ofNat_of_zero_le hrange.1
  exact .short (by omega)

theorem inRange_long {i : Int} (h : Accepts 'l' (.int i)) : InRange 'l' (.int i) := by
  obtain ⟨octets, h⟩ := h
  have hrange := pack_range (show pack 4 i = .ok octets from h)
  obtain ⟨n, rfl⟩ := Int.eq_ofNat_of_zero_le hrange.1
  exact .long (by omega)

theorem inRange_shortstr {text : PyStr} (h : Accepts 's' (.str text)) : InRange 's' (.str text) := by
  obtain ⟨octets, h⟩ := h
  rw [dumpsField, writeText_str] at h
  have hlength := (writeSized_eq_ok h).1
  exact .shortstr (by omega)

/-- A `TuneOk` that is written is read as it was meant. -/
theorem reads_limits {l : Limits} {octets : Octets}
    (h : dumps "BlB".toList [.int l.channelMax, .int l.frameMax, .int l.heartbeat] = .ok octets) :
    Reads (loads "BlB".toList) octets [.int l.channelMax, .int l.frameMax, .int l.heartbeat] := by
  have hformat : "BlB".toList = ['B', 'l', 'B'] := by decide
  rw [hformat] at h ⊢
  have haccepts := accepts_of_dumps rfl h
  obtain ⟨hchannel, haccepts⟩ := List.forall₂_cons.mp haccepts
  obtain ⟨hframe, haccepts⟩ := List.forall₂_cons.mp haccepts
  obtain ⟨hheartbeat, -⟩ := List.forall₂_cons.mp haccepts
  obtain ⟨octets', hdumps, hreads⟩ := dumps_reads
    (.cons (inRange_short hchannel) (.cons (inRange_long hframe)
      (.cons (inRange_short hheartbeat) .nil)))
  obtain rfl := Except.ok.inj (hdumps.symm.trans h)
  exact hreads

/-- An `Open` that is written is read as it was meant. -/
theorem reads_virtualHost {text : PyStr} {octets : Octets}
    (h : dumps "ssb".toList [.str text, .str [], .bool false] = .ok octets) :
    Reads (loads "ssb".toList) octets [.str text, .str [], .bool false] := by
  have hformat : "ssb".toList = ['s', 's', 'b'] := by decide
  rw [hformat] at h ⊢
  have haccepts := accepts_of_dumps rfl h
  obtain ⟨hhost, -⟩ := List.forall₂_cons.mp haccepts
  have hempty : InRange 's' (.str []) := .shortstr (by decide)
  obtain ⟨octets', hdumps, hreads⟩ := dumps_reads
    (.cons (inRange_shortstr hhost) (.cons hempty (.cons (.bit (.bool false)) .nil)))
  obtain rfl := Except.ok.inj (hdumps.symm.trans h)
  exact hreads

/-! Capabilities -/

namespace Negotiation

/-- The capabilities among the properties. -/
def capabilitiesOf (properties : List (PyStr × Value)) : List (PyStr × Value) :=
  match Assoc.get? properties capabilities with
  | some (.dict entries) => entries
  | _ => []

/-- The server says that it has the capability. -/
def Has (properties : List (PyStr × Value)) (key : PyStr) : Prop :=
  ((Assoc.get? (capabilitiesOf properties) key).getD .none).truthy = true

theorem distinct_set {properties : List (PyStr × Value)} {v : Value} (key : PyStr)
    (h : (Value.dict properties).every Value.distinctKeys = true)
    (hv : v.every Value.distinctKeys = true) :
    (Value.dict (Assoc.set properties key v)).every Value.distinctKeys = true := by
  simp only [Value.every, Value.distinctKeys, Bool.and_eq_true, everyEntry_iff,
    decide_eq_true_eq] at h ⊢
  refine ⟨Assoc.nodup_set h.1 key v, fun entry hmem => ?_⟩
  rcases Assoc.mem_set hmem with rfl | hold
  · exact hv
  · exact h.2 entry hold

theorem distinct_erase {properties : List (PyStr × Value)} (key : PyStr)
    (h : (Value.dict properties).every Value.distinctKeys = true) :
    (Value.dict (Assoc.erase properties key)).every Value.distinctKeys = true := by
  simp only [Value.every, Value.distinctKeys, Bool.and_eq_true, everyEntry_iff,
    decide_eq_true_eq] at h ⊢
  constructor
  · rw [Assoc.keys_erase]
    exact h.1.filter _
  · exact fun entry hmem => h.2 entry (List.mem_filter.mp hmem).1

theorem distinct_updated {properties added : List (PyStr × Value)}
    (h : (Value.dict properties).every Value.distinctKeys = true)
    (hadded : ∀ entry ∈ added, entry.2.every Value.distinctKeys = true) :
    (Value.dict (updated properties added)).every Value.distinctKeys = true := by
  induction added generalizing properties with
  | nil => exact h
  | cons entry rest ih =>
      apply ih
      · exact distinct_set entry.1 h (hadded entry (by simp))
      · exact fun entry hmem => hadded entry (by simp [hmem])

/-- A value that was read is true if and only if the one that was written is. -/
theorem truthy_readBack (v : Value) : v.readBack.truthy = v.truthy := by
  cases v with
  | bytes octets =>
      simp only [Value.readBack, strOrBytes]
      cases hdecode : Utf8.decode octets with
      | none => rfl
      | some text =>
          obtain rfl := Utf8.encode_decode hdecode
          cases text with
          | nil => rfl
          | cons c text =>
              have hne : Utf8.encode (c :: text) ≠ [] := fun h =>
                List.cons_ne_nil _ _ (Utf8.encode_eq_nil.mp h)
              simp [Value.truthy, hne]
  | decimal d =>
      cases d with
      | finite negative coefficient exponent =>
          have habs : (Decimal.signed negative coefficient).natAbs = coefficient := by
            cases negative <;> simp [Decimal.signed]
          simp only [Value.readBack, Value.truthy, Decimal.isZero, Decimal.divPow10, habs]
          rcases Nat.eq_zero_or_pos coefficient with rfl | hpos
          · have hzero := (Decimal.shed_le 0 (-exponent).toNat).1
            simp [Nat.le_zero.mp hzero]
          · have hshed := Decimal.shed_pos hpos (-exponent).toNat
            simp [Nat.pos_iff_ne_zero.mp hpos, Nat.pos_iff_ne_zero.mp hshed]
      | infinite negative => rfl
      | nan negative signaling payload => rfl
  | datetime t =>
      simp only [Value.readBack]
      split
      · rfl
      · rfl
  | dict entries => simp [Value.readBack, Value.truthy, readBackEntries_eq]
  | list items => simp [Value.readBack, Value.truthy, readBackItems_eq]
  | tuple items => simp [Value.readBack, Value.truthy, readBackItems_eq]
  | _ => rfl

theorem get?_readBack (entries : List (PyStr × Value)) (key : PyStr) :
    Assoc.get? (readBackEntries entries) key = (Assoc.get? entries key).map Value.readBack := by
  induction entries with
  | nil => rfl
  | cons entry rest ih =>
      obtain ⟨k, v⟩ := entry
      simp only [readBackEntries, Assoc.get?]
      split
      · rfl
      · exact ih

theorem capabilitiesOf_readBack (properties : List (PyStr × Value)) :
    capabilitiesOf (readBackEntries properties) = readBackEntries (capabilitiesOf properties) := by
  unfold capabilitiesOf
  rw [get?_readBack]
  cases Assoc.get? properties capabilities with
  | none => rfl
  | some v =>
      cases v with
      | bytes octets =>
          simp only [Option.map_some, Value.readBack, strOrBytes]
          cases Utf8.decode octets <;> rfl
      | decimal d => cases d <;> rfl
      | datetime t =>
          simp only [Option.map_some, Value.readBack]
          cases DateTime.fromtimestamp (t.utcMicros / 1000000).toNat <;> rfl
      | _ => rfl

/-- What a server says it has is what the client reads. -/
theorem has_readBack {properties : List (PyStr × Value)} {key : PyStr} :
    Has (readBackEntries properties) key ↔ Has properties key := by
  unfold Has
  rw [capabilitiesOf_readBack, get?_readBack]
  cases Assoc.get? (capabilitiesOf properties) key with
  | none => rfl
  | some v => simp only [Option.map_some, Option.getD_some, truthy_readBack]

theorem keys_readBack (entries : List (PyStr × Value)) :
    Assoc.keys (readBackEntries entries) = Assoc.keys entries := by
  simp [readBackEntries_eq, Assoc.keys]

/-- The properties after a `Start`: the server is told of the capabilities that the user asked
for, and of those that are wanted and that it has. -/
structure Enabled (wanted : List (PyStr × Bool)) (announced before after : List (PyStr × Value)) :
    Prop where
  distinct : (Value.dict after).every Value.distinctKeys = true
  rest : ∀ key, capabilities ≠ key → Assoc.get? after key = Assoc.get? before key
  told : ∀ key, key ∈ Assoc.keys (capabilitiesOf after) ↔
    key ∈ Assoc.keys (capabilitiesOf before) ∨ key ∈ Assoc.keys wanted ∧ Has announced key

theorem offered_keys {wanted enabled : List (PyStr × Bool)} {announced : List (PyStr × Value)}
    (h : offered wanted (((Assoc.get? announced capabilities).getD .none).orElse (.dict [])) =
      .ok enabled) (key : PyStr) :
    key ∈ Assoc.keys enabled ↔ key ∈ Assoc.keys wanted ∧ Has announced key := by
  have hdict : ∀ scap, offered wanted (.dict scap) = .ok enabled → capabilitiesOf announced = scap →
      (key ∈ Assoc.keys enabled ↔ key ∈ Assoc.keys wanted ∧ Has announced key) := by
    intro scap h hscap
    obtain rfl := Except.ok.inj h
    simp only [Assoc.keys, List.mem_map, List.mem_filter, Has, hscap]
    constructor
    · rintro ⟨entry, ⟨hmem, hhas⟩, rfl⟩
      exact ⟨⟨entry, hmem, rfl⟩, hhas⟩
    · rintro ⟨⟨entry, hmem, rfl⟩, hhas⟩
      exact ⟨entry, ⟨hmem, hhas⟩, rfl⟩
  cases hget : Assoc.get? announced capabilities with
  | none =>
      rw [hget] at h
      exact hdict [] h (by simp [capabilitiesOf, hget])
  | some v =>
      rw [hget, Option.getD_some] at h
      by_cases htruthy : v.truthy = true
      · rw [Value.orElse, if_pos htruthy] at h
        unfold offered at h
        split at h
        next scap => exact hdict scap h (by simp [capabilitiesOf, hget])
        next hother =>
          split at h
          next hnone =>
            obtain rfl := Except.ok.inj h
            simp [hnone, Assoc.keys]
          next => cases h
      · rw [Value.orElse, if_neg htruthy] at h
        apply hdict [] h
        unfold capabilitiesOf
        rw [hget]
        cases v with
        | dict entries => simpa [Value.truthy] using htruthy
        | _ => rfl

theorem keys_updated {α : Type} {d added : List (PyStr × α)} {key : PyStr} :
    key ∈ Assoc.keys (updated d added) ↔ key ∈ Assoc.keys d ∨ key ∈ Assoc.keys added :=
  Assoc.mem_keys_foldl_set

theorem enable_enabled {wanted enabled : List (PyStr × Bool)}
    {announced before properties cap : List (PyStr × Value)}
    (hdistinct : (Value.dict properties).every Value.distinctKeys = true)
    (hcap : Assoc.get? properties capabilities = some (.dict cap))
    (hrest : ∀ key, capabilities ≠ key → Assoc.get? properties key = Assoc.get? before key)
    (hbefore : capabilitiesOf before = cap)
    (henabled : ∀ key, key ∈ Assoc.keys enabled ↔ key ∈ Assoc.keys wanted ∧ Has announced key) :
    Enabled wanted announced before (enable enabled cap properties) := by
  have hkeys : ∀ key, key ∈ Assoc.keys
      (updated cap (enabled.map fun entry => (entry.1, Value.bool entry.2))) ↔
      key ∈ Assoc.keys cap ∨ key ∈ Assoc.keys enabled := by
    intro key
    rw [keys_updated]
    simp [Assoc.keys]
  have hmember : (Value.dict cap).every Value.distinctKeys = true := by
    simp only [Value.every, Bool.and_eq_true, everyEntry_iff] at hdistinct
    exact hdistinct.2 _ (Assoc.mem_of_get? hcap)
  unfold enable
  simp only
  split
  next hempty =>
    refine ⟨distinct_erase _ hdistinct, fun key hne => ?_, fun key => ?_⟩
    · rw [Assoc.get?_erase_ne _ hne, hrest key hne]
    · rw [← henabled, hbefore, ← hkeys, hempty]
      simp [capabilitiesOf, Assoc.keys]
  next =>
    have hnew : (Value.dict (updated cap (enabled.map fun entry => (entry.1, Value.bool entry.2)))).every
        Value.distinctKeys = true := by
      apply distinct_updated hmember
      intro entry hmem
      obtain ⟨source, -, rfl⟩ := List.mem_map.mp hmem
      rfl
    refine ⟨distinct_set _ hdistinct hnew, fun key hne => ?_, fun key => ?_⟩
    · rw [Assoc.get?_set_ne _ _ hne, hrest key hne]
    · rw [← henabled, hbefore, ← hkeys]
      simp [capabilitiesOf]

/-- How `_on_start` may go on to the choice of a mechanism. -/
def Settles (o : Options) (announced : List (PyStr × Value)) (s : Negotiation)
    (run : Except PyError Unit × Negotiation) : Prop :=
  (∃ e properties, run = (.error e, { s with clientProperties := properties })) ∨
    ∃ properties, run = (.ok (), { s with clientProperties := properties }) ∧
      Enabled o.negotiateCapabilities announced s.clientProperties properties

theorem settles_dict {o : Options} {announced cap properties : List (PyStr × Value)}
    {s : Negotiation}
    (hdefault : Assoc.setdefault s.clientProperties capabilities (.dict []) = (.dict cap, properties))
    (hdistinct : (Value.dict properties).every Value.distinctKeys = true)
    (hcap : Assoc.get? properties capabilities = some (.dict cap))
    (hrest : ∀ key, capabilities ≠ key →
      Assoc.get? properties key = Assoc.get? s.clientProperties key)
    (hbefore : capabilitiesOf s.clientProperties = cap) :
    Settles o announced s (negotiateCapabilities o announced s) := by
  simp only [negotiateCapabilities, Effect.bind_run, Effect.get_run, hdefault,
    Effect.modify_run, Effect.liftExcept_run]
  cases henabled : offered o.negotiateCapabilities
      (((Assoc.get? announced capabilities).getD .none).orElse (.dict [])) with
  | error e => exact .inl ⟨e, _, rfl⟩
  | ok enabled =>
      exact .inr ⟨_, rfl, enable_enabled hdistinct hcap hrest hbefore (offered_keys henabled)⟩

/-- `_on_start` raises before it chooses a mechanism, or it has settled the capabilities. -/
theorem negotiateCapabilities_settles (o : Options) (announced : List (PyStr × Value))
    {s : Negotiation} (hdistinct : (Value.dict s.clientProperties).every Value.distinctKeys = true) :
    Settles o announced s (negotiateCapabilities o announced s) := by
  cases hget : Assoc.get? s.clientProperties capabilities with
  | none =>
      apply @settles_dict o announced [] (Assoc.set s.clientProperties capabilities (.dict []))
      · simp [Assoc.setdefault, hget]
      · exact distinct_set _ hdistinct rfl
      · exact Assoc.get?_set_self _ _ _
      · exact fun key hne => Assoc.get?_set_ne _ _ hne
      · simp [capabilitiesOf, hget]
  | some v =>
      have hdefault : Assoc.setdefault s.clientProperties capabilities (.dict []) =
          (v, s.clientProperties) := by simp [Assoc.setdefault, hget]
      cases v with
      | dict cap =>
          apply settles_dict hdefault hdistinct hget (fun _ _ => rfl)
          simp [capabilitiesOf, hget]
      | _ =>
          refine .inl ⟨.attributeError, s.clientProperties, ?_⟩
          simp only [negotiateCapabilities, Effect.bind_run, Effect.get_run, hdefault,
            Effect.modify_run, Effect.raise_run]

/-! Listeners -/

/-- The mechanism and the response that are sent: those of the first mechanism that is offered
and has a response. -/
def Chosen (offered : List Octets) (authentication : List Mechanism) (mechanism response : Octets) :
    Prop :=
  ∃ before chosen after, authentication = before ++ chosen :: after ∧
    chosen.mechanism = some mechanism ∧ mechanism ∈ offered ∧ chosen.start = .ok (some response) ∧
    ∀ other ∈ before, ∀ name, other.mechanism = some name → name ∈ offered → other.start = .ok none

theorem Chosen.cons {offered : List Octets} {authentication : List Mechanism}
    {mechanism response : Octets} (h : Chosen offered authentication mechanism response)
    {first : Mechanism} (hfirst : ∀ name, first.mechanism = some name → name ∈ offered →
      first.start = .ok none) : Chosen offered (first :: authentication) mechanism response := by
  obtain ⟨before, chosen, after, rfl, hname, hoffered, hstart, hbefore⟩ := h
  refine ⟨first :: before, chosen, after, rfl, hname, hoffered, hstart, fun other hother => ?_⟩
  rcases List.mem_cons.mp hother with rfl | hlater
  · exact hfirst
  · exact hbefore other hlater

theorem chooseAuthentication_chosen {offered : List Octets} {authentication : List Mechanism}
    {mechanism response : Octets}
    (h : chooseAuthentication offered authentication = .ok (some (mechanism, response))) :
    Chosen offered authentication mechanism response := by
  induction authentication with
  | nil => cases h
  | cons first rest ih =>
      rw [chooseAuthentication] at h
      split at h
      next name hname =>
        split at h
        next hoffered =>
          obtain ⟨answer, hstart, h⟩ := bind_eq_ok h
          cases answer with
          | none => exact (ih h).cons fun _ _ _ => hstart
          | some answer =>
              obtain ⟨rfl, rfl⟩ := Prod.mk.inj (Option.some.inj (Except.ok.inj h))
              exact ⟨[], first, rest, rfl, hname, hoffered, hstart, by simp⟩
        next hnot =>
          apply (ih h).cons
          intro other hother hoffered
          obtain rfl := Option.some.inj (hname.symm.trans hother)
          exact absurd hoffered hnot
      next hname => exact (ih h).cons fun name hsome => absurd (hname.symm.trans hsome) (by simp)

/-- A mechanism that always has a response is taken when it is offered. -/
theorem chooseAuthentication_cons {offered : List Octets} {first : Mechanism}
    {rest : List Mechanism} {name mechanism response : Octets} (hname : first.mechanism = some name)
    (hresponds : first.start ≠ .ok none)
    (h : chooseAuthentication offered (first :: rest) = .ok (some (mechanism, response))) :
    if name ∈ offered then mechanism = name ∧ first.start = .ok (some response)
    else chooseAuthentication offered rest = .ok (some (mechanism, response)) := by
  rw [chooseAuthentication, hname] at h
  split
  next hoffered =>
    simp only [hoffered, if_true] at h
    obtain ⟨answer, hstart, h⟩ := bind_eq_ok h
    cases answer with
    | none => exact absurd hstart hresponds
    | some answer =>
        obtain ⟨rfl, rfl⟩ := Prod.mk.inj (Option.some.inj (Except.ok.inj h))
        exact ⟨rfl, hstart⟩
  next hnot =>
    simp only [hnot, if_false] at h
    exact h

/-- What a connection that was not told how to log in says where there is no GSSAPI: that the
server knows it already, and if that is not offered its user name and its password, by `AMQPLAIN`
rather than by `PLAIN`. -/
theorem chooseAuthentication_default {offered : List Octets} {username password : PyStr}
    {mechanism response : Octets}
    (h : chooseAuthentication offered
      (Sasl.defaultAuthentication Sasl.fakeGSSAPI (.str username) (.str password)) =
        .ok (some (mechanism, response))) :
    if Sasl.literal "EXTERNAL" ∈ offered then
      mechanism = Sasl.literal "EXTERNAL" ∧ response = []
    else if Sasl.literal "AMQPLAIN" ∈ offered then
      mechanism = Sasl.literal "AMQPLAIN" ∧
        Sasl.readAmqplain response = some { username, password }
    else
      mechanism = Sasl.literal "PLAIN" ∧ Sasl.literal "PLAIN" ∈ offered ∧
        Sasl.readPlain response =
          if Sasl.Safe username ∧ Sasl.Safe password then some { username, password }
          else none := by
  have hafter : chooseAuthentication offered
      [Sasl.external, Sasl.amqplain (.str username) (.str password),
        Sasl.plain (.str username) (.str password)] = .ok (some (mechanism, response)) := h
  have hexternal := chooseAuthentication_cons rfl (by simp [Sasl.external]) hafter
  split
  next hoffered =>
    rw [if_pos hoffered] at hexternal
    obtain ⟨rfl, hstart⟩ := hexternal
    exact ⟨rfl, (Option.some.inj (Except.ok.inj hstart)).symm⟩
  next hnot =>
    rw [if_neg hnot] at hexternal
    have hamqplain := chooseAuthentication_cons rfl (Sasl.amqplain_responds _ _) hexternal
    split
    next hoffered =>
      rw [if_pos hoffered] at hamqplain
      exact ⟨hamqplain.1, Sasl.readAmqplain_eq hamqplain.2⟩
    next hnot =>
      rw [if_neg hnot] at hamqplain
      have hplain := chooseAuthentication_cons rfl (Sasl.plain_responds _ _) hamqplain
      split at hplain
      next hoffered => exact ⟨hplain.1, hoffered, Sasl.readPlain_eq hplain.2⟩
      next => cases hplain

/-- The response is the one of the machine of the connection. -/
theorem authenticate_eq (offered : List Octets) (authentication : List Mechanism) :
    authenticate offered authentication =
      (chooseAuthentication offered authentication).map (Option.map Prod.snd) := by
  induction authentication with
  | nil => rfl
  | cons first rest ih =>
      rw [authenticate, chooseAuthentication]
      cases first.mechanism with
      | none => exact ih
      | some name =>
          simp only
          split
          next =>
            cases first.start with
            | error e => rfl
            | ok answer =>
                cases answer with
                | none => exact ih
                | some response => rfl
          next => exact ih

/-- What a `StartOk` says to a server that announced these properties and mechanisms; `before`
are the properties of the client until then. -/
structure Greeted (o : Options) (announced : List (PyStr × Value)) (mechanisms : PyStr)
    (before : List (PyStr × Value)) (g : Greeting) : Prop where
  properties : ∃ properties, Enabled o.negotiateCapabilities announced before properties ∧
    g.clientProperties = readBackEntries properties
  chosen : Chosen (split 0x20 (Utf8.encode mechanisms)) o.authentication g.mechanism g.response
  locale : g.locale = o.locale

theorem sendMethod_run (sig : MethodSig) (format : String) (args : List Value) (s : Negotiation) :
    sendMethod sig format args s =
      match dumps format.toList args with
      | .ok octets => (.ok (), { s with
          sent := s.sent ++ [{ methodSig := sig, payload := methodOctets sig octets }] })
      | .error e => (.error e, s) := by
  rw [sendMethod, Effect.bind_run, Effect.liftExcept_run]
  cases dumps format.toList args <;> rfl

theorem onStart_cases (o : Options) (major minor : Value) (announced : List (PyStr × Value))
    (mechanisms locales : PyStr) {s : Negotiation}
    (hdistinct : (Value.dict s.clientProperties).every Value.distinctKeys = true) :
    ∃ r s', onStart o [.value major, .value minor, .value (.dict announced),
        .value (.str mechanisms), .value (.str locales)] s = (r, s') ∧
      s'.handshakeComplete = s.handshakeComplete ∧ s'.limits = s.limits ∧
      ((∃ e, r = .error e ∧ s'.sent = s.sent) ∨
        ∃ m g, r = .ok () ∧ s'.sent = s.sent ++ [m] ∧ m.methodSig = Spec.Connection.startOk ∧
          m.greeting = .ok g ∧ Greeted o announced mechanisms s.clientProperties g) := by
  simp only [onStart, Effect.bind_run, Effect.modify_run, Effect.liftExcept_run]
  rcases @negotiateCapabilities_settles o announced
      { s with serverProperties := announced, mechanisms := split 0x20 (Utf8.encode mechanisms) }
      hdistinct with
    ⟨e, properties, hrun⟩ | ⟨properties, hrun, henabled⟩
  · rw [hrun]
    exact ⟨_, _, rfl, rfl, rfl, .inl ⟨e, rfl, rfl⟩⟩
  · simp only [hrun]
    cases hchoice : chooseAuthentication (split 0x20 (Utf8.encode mechanisms)) o.authentication with
    | error e => exact ⟨_, _, rfl, rfl, rfl, .inl ⟨e, rfl, rfl⟩⟩
    | ok choice =>
        cases choice with
        | none => exact ⟨_, _, rfl, rfl, rfl, .inl ⟨_, rfl, rfl⟩⟩
        | some chosen =>
            obtain ⟨mechanism, response⟩ := chosen
            simp only [Effect.bind_run, Effect.get_run, sendMethod_run]
            cases hdumps : dumps "FsSs".toList [.dict properties, .bytes mechanism,
                .bytes response, .str o.locale] with
            | error e => exact ⟨_, _, rfl, rfl, rfl, .inl ⟨e, rfl, rfl⟩⟩
            | ok octets =>
                have hgreeting : Inbound.greeting
                    ⟨Spec.Connection.startOk, methodOctets Spec.Connection.startOk octets, none⟩ =
                    .ok ⟨readBackEntries properties, mechanism, response, o.locale⟩ := by
                  rw [Inbound.greeting, reads_method (reads_greeting henabled.distinct hdumps)]
                  rfl
                refine ⟨_, _, rfl, rfl, rfl, .inr ⟨_, _, rfl, rfl, rfl, hgreeting, ?_⟩⟩
                exact ⟨⟨properties, henabled, rfl⟩, chooseAuthentication_chosen hchoice, rfl⟩

/-- What the server's capabilities are told apart by. -/
theorem offered_outcome {wanted : List (PyStr × Bool)} (hwanted : wanted ≠ [])
    (announced : List (PyStr × Value)) :
    (offered wanted (((Assoc.get? announced capabilities).getD .none).orElse (.dict []))).map
        (fun _ => ()) =
      match Assoc.get? announced capabilities with
      | some (.dict _) | none => .ok ()
      | some scap => if scap.truthy then .error .attributeError else .ok () := by
  cases Assoc.get? announced capabilities with
  | none => rfl
  | some v =>
      cases htruthy : v.truthy with
      | false =>
          have hnone : v.orElse (.dict []) = .dict [] := by rw [Value.orElse, htruthy]; rfl
          simp only [Option.getD_some, hnone, offered]
          cases v <;> simp [Except.map, htruthy]
      | true =>
          have hsame : v.orElse (.dict []) = v := by rw [Value.orElse, htruthy]; rfl
          simp only [Option.getD_some, hsame]
          cases v <;> simp_all [offered, Except.map]

/-- The machine of the connection raises in `_on_start` what is raised here before the `StartOk`
is packed, and it sends one where it is packed here. -/
theorem onStart_chooseMechanism {o : Options} {cfg : Connection.Config}
    (hauthentication : cfg.authentication = o.authentication)
    (hwanted : o.negotiateCapabilities ≠ []) {s : Negotiation}
    (hown : ∀ v, Assoc.get? s.clientProperties capabilities = some v → ∃ cap, v = .dict cap)
    (major minor : Value) (announced : List (PyStr × Value)) (mechanisms locales : PyStr) :
    let args : List Arg := [.value major, .value minor, .value (.dict announced),
      .value (.str mechanisms), .value (.str locales)]
    (∃ e, chooseMechanism cfg args = .error e ∧ (onStart o args s).1 = .error e) ∨
      ∃ properties mechanism response, chooseMechanism cfg args = .ok () ∧
        (onStart o args s).1 = (dumps "FsSs".toList [.dict properties, .bytes mechanism,
          .bytes response, .str o.locale]).map fun _ => () := by
  intro args
  have houtcome := offered_outcome hwanted announced
  obtain ⟨cap, properties, hdefault⟩ : ∃ cap properties,
      Assoc.setdefault s.clientProperties capabilities (.dict []) = (.dict cap, properties) := by
    unfold Assoc.setdefault
    cases hget : Assoc.get? s.clientProperties capabilities with
    | none => exact ⟨[], _, rfl⟩
    | some v =>
        obtain ⟨cap, rfl⟩ := hown v hget
        exact ⟨cap, _, rfl⟩
  have hmachine : chooseMechanism cfg args =
      ((offered o.negotiateCapabilities (((Assoc.get? announced capabilities).getD .none).orElse
        (.dict []))).map fun _ => ()) >>= fun _ =>
      authenticate (split 0x20 (Utf8.encode mechanisms)) cfg.authentication >>= fun response =>
      match response with
      | some _ => .ok ()
      | none => .error (.amqp {
          cls := .connectionError
          replyText := .noAuthMechanism (cfg.authentication.filterMap Mechanism.mechanism)
            (split 0x20 (Utf8.encode mechanisms)) }) := by
    rw [houtcome]
    simp only [args, chooseMechanism, capabilities]
    cases Assoc.get? announced (PyStr.ofString "capabilities") with
    | none => rfl
    | some v =>
        by_cases htruthy : v.truthy = true
        · cases v
          case dict => rfl
          all_goals
            simp only [htruthy, if_true]
            rfl
        · cases v
          case dict => rfl
          all_goals
            simp only [htruthy]
            rfl
  rw [hmachine, hauthentication, authenticate_eq]
  simp only [args, onStart, negotiateCapabilities, Effect.bind_run, Effect.get_run, hdefault,
    Effect.modify_run, Effect.liftExcept_run]
  cases offered o.negotiateCapabilities
      (((Assoc.get? announced capabilities).getD .none).orElse (.dict [])) with
  | error e => exact .inl ⟨e, rfl, rfl⟩
  | ok enabled =>
      simp only
      cases chooseAuthentication (split 0x20 (Utf8.encode mechanisms)) o.authentication with
      | error e => exact .inl ⟨e, rfl, rfl⟩
      | ok choice =>
          cases choice with
          | none => exact .inl ⟨_, rfl, rfl⟩
          | some chosen =>
              obtain ⟨mechanism, response⟩ := chosen
              refine .inr ⟨enable enabled cap properties, mechanism, response, rfl, ?_⟩
              simp only [Effect.bind_run, Effect.get_run, sendMethod_run]
              cases dumps "FsSs".toList [.dict (enable enabled cap properties), .bytes mechanism,
                .bytes response, .str o.locale] <;> rfl

theorem onTune_cases (o : Options) (server : Limits) (s : Negotiation) :
    ∃ r s', onTune o [.value (.int server.channelMax), .value (.int server.frameMax),
        .value (.int server.heartbeat)] s = (r, s') ∧
      s'.handshakeComplete = s.handshakeComplete ∧ s'.limits = settle o s.limits server ∧
      ((∃ e, r = .error e ∧ s'.sent = s.sent) ∨
        ∃ m, m.methodSig = Spec.Connection.tuneOk ∧ m.limits = .ok s'.limits ∧
          ((∃ e, r = .error e ∧ s'.sent = s.sent ++ [m]) ∨
            ∃ m', m'.methodSig = Spec.Connection.open ∧ m'.virtualHost = .ok o.virtualHost ∧
              r = .ok () ∧ s'.sent = s.sent ++ [m] ++ [m'])) := by
  simp only [onTune, Effect.bind_run, Effect.modify_run, Effect.get_run, sendMethod_run]
  cases htuneOk : dumps "BlB".toList [.int (settle o s.limits server).channelMax,
      .int (settle o s.limits server).frameMax, .int (settle o s.limits server).heartbeat] with
  | error e => exact ⟨_, _, rfl, rfl, rfl, .inl ⟨e, rfl, rfl⟩⟩
  | ok octets =>
      have hlimits : Inbound.limits
          ⟨Spec.Connection.tuneOk, methodOctets Spec.Connection.tuneOk octets, none⟩ =
          .ok (settle o s.limits server) := by
        rw [Inbound.limits, reads_method (reads_limits htuneOk)]
        rfl
      simp only
      cases hopen : dumps "ssb".toList [.str o.virtualHost, .str [], .bool false] with
      | error e => exact ⟨_, _, rfl, rfl, rfl, .inr ⟨_, rfl, hlimits, .inl ⟨e, rfl, rfl⟩⟩⟩
      | ok more =>
          have hhost : Inbound.virtualHost
              ⟨Spec.Connection.open, methodOctets Spec.Connection.open more, none⟩ =
              .ok o.virtualHost := by
            rw [Inbound.virtualHost, reads_method (reads_virtualHost hopen)]
            rfl
          exact ⟨_, _, rfl, rfl, rfl, .inr ⟨_, rfl, hlimits, .inr ⟨_, rfl, hhost, rfl, rfl⟩⟩⟩

theorem onClose_run (args : List Arg) (s : Negotiation) :
    ∃ m e s', onClose args s = (.error e, s') ∧ m.methodSig = Spec.Connection.closeOk ∧
      s' = { s with sent := s.sent ++ [m] } := by
  have hnothing : dumps "".toList [] = .ok [] := rfl
  simp only [onClose, Effect.bind_run, Effect.raise_run, sendMethod_run, hnothing]
  exact ⟨_, _, _, rfl, rfl, rfl⟩

/-! The machine of the connection -/

section Machine

variable {P : Promises Reply} {cfg : Connection.Config} {o : Options} {c : Connection P}
  {s : Negotiation}

/-- The machine has settled what is settled here, as far as it keeps it. -/
structure Shows (cfg : Connection.Config) (o : Options) (c : Connection P) (s : Negotiation) :
    Prop where
  authentication : cfg.authentication = o.authentication
  channelMax : (c.channelMax : Int) = s.limits.channelMax
  handshakeComplete : c.handshakeComplete = s.handshakeComplete

theorem onWire_handshakeComplete (l : Link) (t : Option Nat) (f : Wire → Wire) :
    (l.onWire t f).handshakeComplete = l.handshakeComplete := by
  cases t <;> rfl

theorem sendMethod_keeps (channel : Nat) (sig : MethodSig) :
    (Connection.sendMethod cfg channel sig c).2.channelMax = c.channelMax ∧
      (Connection.sendMethod cfg channel sig c).2.handshakeComplete = c.handshakeComplete := by
  unfold Connection.sendMethod
  split
  · split
    · exact ⟨rfl, onWire_handshakeComplete _ _ _⟩
    · constructor
      · rfl
      · simp only
        split
        · exact onWire_handshakeComplete _ _ _
        · rfl
  · exact ⟨rfl, rfl⟩

theorem sendOnly_keeps (channel : Nat) (sig : MethodSig) :
    (sendOnly cfg channel sig c).channelMax = c.channelMax ∧
      (sendOnly cfg channel sig c).handshakeComplete = c.handshakeComplete := by
  have hkeeps := @sendMethod_keeps P cfg c channel sig
  unfold sendOnly
  generalize Connection.sendMethod cfg channel sig c = sent at hkeeps ⊢
  obtain ⟨outcome, c'⟩ := sent
  cases outcome <;> exact hkeeps

/-- Where the machine raises in `_on_start` nothing is sent here and the same is raised; otherwise
it writes a `StartOk`, the one that is packed here. -/
theorem onStart_shows (hshows : Shows cfg o c s) (hwanted : o.negotiateCapabilities ≠ [])
    (hown : ∀ v, Assoc.get? s.clientProperties capabilities = some v → ∃ cap, v = .dict cap)
    (hdistinct : (Value.dict s.clientProperties).every Value.distinctKeys = true)
    (major minor : Value) (announced : List (PyStr × Value)) (mechanisms locales : PyStr) :
    let args : List Arg := [.value major, .value minor, .value (.dict announced),
      .value (.str mechanisms), .value (.str locales)]
    ∃ r s', onStart o args s = (r, s') ∧ Shows cfg o (Connection.onStart cfg args c) s' ∧
      ((∃ e, r = .error e ∧ s'.sent = s.sent ∧
          Connection.onStart cfg args c = goOn (.raising e) c) ∨
        Connection.onStart cfg args c = sendOnly cfg 0 Spec.Connection.startOk c ∧
          ((∃ e, r = .error e ∧ s'.sent = s.sent) ∨
            ∃ m g, r = .ok () ∧ s'.sent = s.sent ++ [m] ∧ m.methodSig = Spec.Connection.startOk ∧
              m.greeting = .ok g ∧ Greeted o announced mechanisms s.clientProperties g)) := by
  intro args
  obtain ⟨r, s', hrun, hcomplete, hlimits, houtcome⟩ :=
    onStart_cases o major minor announced mechanisms locales hdistinct
  have hshown {c' : Connection P} (hmax : c'.channelMax = c.channelMax)
      (hhandshake : c'.handshakeComplete = c.handshakeComplete) : Shows cfg o c' s' :=
    ⟨hshows.authentication, by rw [hmax, hlimits]; exact hshows.channelMax,
      by rw [hhandshake, hcomplete]; exact hshows.handshakeComplete⟩
  refine ⟨r, s', hrun, ?_⟩
  rcases onStart_chooseMechanism hshows.authentication hwanted hown major minor announced mechanisms
      locales with ⟨e, hmachine, hraised⟩ | ⟨properties, mechanism, response, hmachine, -⟩
  · have hmachine : Connection.onStart cfg args c = goOn (.raising e) c := by
      rw [Connection.onStart, hmachine]
    rw [hrun] at hraised
    constructor
    · rw [hmachine]
      exact hshown rfl rfl
    · rcases houtcome with ⟨e', hr, hsent⟩ | ⟨m, g, hr, -⟩
      · exact .inl ⟨e, hraised, hsent, hmachine⟩
      · cases hraised.symm.trans hr
  · have hmachine : Connection.onStart cfg args c = sendOnly cfg 0 Spec.Connection.startOk c := by
      rw [Connection.onStart, hmachine]
    have hkeeps := @sendOnly_keeps P cfg c 0 Spec.Connection.startOk
    constructor
    · rw [hmachine]
      exact hshown hkeeps.1 hkeeps.2
    · exact .inr ⟨hmachine, houtcome⟩

/-- The machine takes the same number of channels from the server. -/
theorem onTune_shows (hshows : Shows cfg o c s) {server : Limits}
    (hserver : 0 ≤ server.channelMax) :
    let args : List Arg := [.value (.int server.channelMax), .value (.int server.frameMax),
      .value (.int server.heartbeat)]
    Shows cfg o (Connection.onTune cfg args c) (onTune o args s).2 := by
  intro args
  obtain ⟨r, s', hrun, hcomplete, hlimits, -⟩ := onTune_cases o server s
  have htuned : ((tune args c).channelMax : Int) = s'.limits.channelMax := by
    obtain ⟨n, hn⟩ := Int.eq_ofNat_of_zero_le hserver
    simp only [args, tune, hlimits, settle, hn, Int.toNat_natCast, Int.natCast_eq_zero,
      ← hshows.channelMax]
    split <;> rfl
  have hkeeps : (Connection.onTune cfg args c).channelMax = (tune args c).channelMax ∧
      (Connection.onTune cfg args c).handshakeComplete = c.handshakeComplete := by
    have htuneOk := @sendMethod_keeps P cfg (tune args c) 0 Spec.Connection.tuneOk
    have hhandshake : (tune args c).handshakeComplete = c.handshakeComplete := rfl
    unfold Connection.onTune
    generalize Connection.sendMethod cfg 0 Spec.Connection.tuneOk (tune args c) = sent at htuneOk ⊢
    obtain ⟨outcome, c'⟩ := sent
    cases outcome with
    | error e => exact htuneOk
    | ok =>
        have hopen := @sendOnly_keeps P cfg c' 0 Spec.Connection.open
        exact ⟨hopen.1.trans htuneOk.1, hopen.2.trans htuneOk.2⟩
  rw [hrun]
  constructor
  · exact hshows.authentication
  · rw [hkeeps.1]
    exact htuned
  · rw [hkeeps.2, hcomplete]
    exact hshows.handshakeComplete

end Machine

end Negotiation

end PyAmqp
