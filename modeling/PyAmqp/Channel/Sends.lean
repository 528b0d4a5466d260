import PyAmqp.Channel.Operations
import PyAmqp.Channel.AbstractChannel
import PyAmqp.Framing.BareMethods
import PyAmqp.LoopBack

/-!
`send_method` of `amqp/abstract_channel.py` and what a server reads of it. A request is handed
to the transport as one frame, or it raises and nothing is handed over; so the server is asked
what the calls that returned have asked for, and nothing else.
-/

namespace PyAmqp

open Cursor

/-- The requests of a channel, as a server knows them. -/
def requestMethods : List AmqpMethod :=
  [{ methodSig := Spec.Channel.flow, args := "b" },
    { methodSig := Spec.Channel.flowOk, args := "b" },
    { methodSig := Spec.Channel.open, args := "s" },
    { methodSig := Spec.Channel.close, args := "BsBB" },
    { methodSig := Spec.Channel.closeOk },
    { methodSig := Spec.Exchange.declare, args := "BssbbbbbF" },
    { methodSig := Spec.Exchange.delete, args := "Bsbb" },
    { methodSig := Spec.Exchange.bind, args := "BsssbF" },
    { methodSig := Spec.Exchange.unbind, args := "BsssbF" },
    { methodSig := Spec.Queue.bind, args := "BsssbF" },
    { methodSig := Spec.Queue.unbind, args := "BsssF" },
    { methodSig := Spec.Queue.declare, args := "BsbbbbbF" },
    { methodSig := Spec.Queue.delete, args := "Bsbbb" },
    { methodSig := Spec.Queue.purge, args := "Bsb" },
    { methodSig := Spec.Basic.ack, args := "Lb" },
    { methodSig := Spec.Basic.cancel, args := "sb" },
    { methodSig := Spec.Basic.consume, args := "BssbbbbF" },
    { methodSig := Spec.Basic.get, args := "Bsb" },
    { methodSig := Spec.Basic.qos, args := "lBb" },
    { methodSig := Spec.Basic.recover, args := "b" },
    { methodSig := Spec.Basic.recoverAsync, args := "b" },
    { methodSig := Spec.Basic.reject, args := "Lb" },
    { methodSig := Spec.Tx.commit },
    { methodSig := Spec.Tx.rollback },
    { methodSig := Spec.Tx.select },
    { methodSig := Spec.Confirm.select, args := "b" }]

/-- The server's end of a channel. -/
def serverClass : ChannelClass where
  methods := requestMethods
  allowedWhenClosing := allowedMethodsWhenClosing

/-- A request as the server reads it. -/
structure Demand where
  channel : Nat
  sig : MethodSig
  args : List Value

/-- What the server makes of a method frame. -/
def Demand.read (frame : Frame) : Except PyError Demand := do
  let (sig, offset) ← unpackMethodSig frame.payload 0
  let method ← serverClass.findMethod sig
  let (args, _) ← loads method.args.toList frame.payload offset
  return { channel := frame.channel, sig, args }

namespace Request

/-- The arguments are in range for their format. -/
def InRange (r : Request) : Prop := List.Forall₂ PyAmqp.InRange r.format.toList r.args

/-- What a request means to the server: its arguments as they come back. -/
def asked (channel : Nat) (r : Request) : Demand :=
  { channel, sig := r.sig, args := List.zipWith argumentBack r.format.toList r.args }

/-- The arguments as `send_method` passes them to `frame_writer`. -/
def packed (r : Request) : Except PyError Text :=
  if r.format = "" then .ok (.str [])
  else (dumps r.format.toList r.args).map Text.bytes

end Request

namespace AbstractChannel

/-- `except StopIteration` -/
def stopped (e : PyError) : PyError := if e = .stopIteration then Channel.connectionClosed else e

/-- `send_method`, up to its `wait`. -/
def sendMethod (transport : TransportWrite) (codec : Codec) (attached : Bool) (channel : Nat)
    (r : Request) (content : Option Message) : Effect Writer PyError Unit :=
  if attached then do
    let args ← Effect.liftExcept r.packed
    Effect.tryCatch (writeFrame transport codec 1 channel (some r.sig) (some args) content)
      fun e => Effect.raise (stopped e)
  else Effect.raise Channel.connectionClosed

end AbstractChannel

/-! One request -/

namespace Operation

/-- Every request is one that the server knows, with the format it is sent in. -/
theorem request_known (op : Operation) :
    serverClass.findMethod op.request.sig =
        .ok { methodSig := op.request.sig, args := op.request.format } ∧
      op.request.sig.1 < 2 ^ 16 ∧ op.request.sig.2 < 2 ^ 16 := by
  have hknown : serverClass.findMethod op.request.sig =
      .ok { methodSig := op.request.sig, args := op.request.format } := by
    cases op <;> rfl
  have hsizes : ∀ method ∈ requestMethods,
      method.methodSig.1 < 2 ^ 16 ∧ method.methodSig.2 < 2 ^ 16 := by decide
  refine ⟨hknown, ?_⟩
  unfold ChannelClass.findMethod at hknown
  split at hknown
  next method hfind =>
    obtain rfl := Except.ok.inj hknown
    exact hsizes _ (List.mem_of_find?_eq_some hfind)
  next => cases hknown

/-- A request without a format has no arguments. -/
theorem request_bare (op : Operation) (h : op.request.format = "") : op.request.args = [] := by
  cases op
  case closeOk | txCommit | txRollback | txSelect => rfl
  all_goals exact absurd (congrArg String.isEmpty h) Bool.false_ne_true

/-- The arguments that go to the writer are those that `dumps` writes. -/
theorem request_packed (op : Operation) {octets : Octets}
    (h : dumps op.request.format.toList op.request.args = .ok octets) :
    ∃ args, op.request.packed = .ok args ∧ args.toBytes = octets := by
  unfold Request.packed
  split
  next hformat =>
    rw [hformat, op.request_bare hformat] at h
    exact ⟨.str [], rfl, Except.ok.inj h⟩
  next =>
    rw [h]
    exact ⟨.bytes octets, rfl, rfl⟩

/-- What `dumps` refuses is not passed on. -/
theorem request_refused (op : Operation) {e : PyError}
    (h : dumps op.request.format.toList op.request.args = .error e) :
    op.request.packed = .error e := by
  unfold Request.packed
  split
  next hformat =>
    have hnothing : dumps "".toList [] = .ok [] := rfl
    rw [hformat, op.request_bare hformat, hnothing] at h
    cases h
  next => rw [h, Except.map]

/-- The server reads a request with its arguments. -/
theorem request_read (op : Operation) (h : op.request.InRange) (channel : Nat) :
    ∃ octets, dumps op.request.format.toList op.request.args = .ok octets ∧
      Demand.read ⟨1, channel, methodOctets op.request.sig octets⟩ =
        .ok (op.request.asked channel) := by
  obtain ⟨octets, hdumps, hreads⟩ := dumps_reads h
  obtain ⟨hknown, h1, h2⟩ := op.request_known
  have hargs := hreads (BigEndian.encode 2 op.request.sig.1 ++ BigEndian.encode 2 op.request.sig.2) []
  have hoffset : (BigEndian.encode 2 op.request.sig.1 ++
      BigEndian.encode 2 op.request.sig.2).length = 4 := by simp
  rw [List.append_nil, hoffset] at hargs
  refine ⟨octets, hdumps, ?_⟩
  simp only [Demand.read, unpackMethodSig_ok h1 h2, hknown, ok_bind]
  simp only [methodOctets, hargs, ok_bind]
  rfl

end Operation

section Calls

variable {transport : TransportWrite} {codec : Codec}

/-- A method whose frame cannot be packed raises, and one that returns has handed over its
frame. -/
theorem writeFrame_bare_cases (htransport : ∀ handed, transport handed = .ok ()) (codec : Codec)
    (channel : Nat) {sig : MethodSig} (h1 : sig.1 < 2 ^ 16) (h2 : sig.2 < 2 ^ 16) (args : Text)
    (w : Writer) :
    (∃ e w', writeFrame transport codec 1 channel (some sig) (some args) none w = (.error e, w') ∧
        w'.handed = w.handed) ∨
      ∃ w', writeFrame transport codec 1 channel (some sig) (some args) none w = (.ok (), w') ∧
        (Frame.mk 1 channel (methodOctets sig args.toBytes)).WellFormed ∧
        w'.handed = w.handed ++ [(Frame.mk 1 channel (methodOctets sig args.toBytes)).octets] := by
  have hframes : fastFrames 1 channel (some sig) ((some args).map Text.toBytes) none =
      .ok [⟨1, channel, methodOctets sig args.toBytes⟩] := by
    simp [fastFrames, methodPayload_ok h1 h2, pure, Except.pure]
  by_cases hfits : Fits (w.resized w.chunkSize).buf.length
      [⟨1, channel, methodOctets sig args.toBytes⟩]
  · obtain ⟨buf, -, hrun⟩ := writeFrame_bare_ok htransport codec (some args) hframes hfits
    rw [List.flatMap_singleton] at hrun
    exact .inr ⟨_, hrun, hfits.1 _ (by simp), rfl⟩
  · obtain ⟨e, buf, -, hrun⟩ := writeFast_raises transport w.chunkSize w (by
      intro frames hframes'
      obtain rfl := Except.ok.inj (hframes.symm.trans hframes')
      exact hfits)
    refine .inl ⟨e, { w with buf := buf }, ?_, rfl⟩
    rw [writeFrame_bare, Effect.bind_error _ hrun]

/-- The arguments of an operation are in range, or the encoder refuses them. -/
def Operation.Sendable (op : Operation) : Prop :=
  op.request.InRange ∨ ∃ e, dumps op.request.format.toList op.request.args = .error e

/-- Arguments that are packed go to the writer. -/
theorem sendMethod_packed (transport : TransportWrite) (codec : Codec) (channel : Nat) {r : Request}
    {args : Text} (hpacked : r.packed = .ok args) (w : Writer) :
    AbstractChannel.sendMethod transport codec true channel r none w =
      Effect.tryCatch (writeFrame transport codec 1 channel (some r.sig) (some args) none)
        (fun e => Effect.raise (AbstractChannel.stopped e)) w := by
  have hargs : Effect.liftExcept r.packed w = (.ok args, w) := by rw [Effect.liftExcept, hpacked]
  unfold AbstractChannel.sendMethod
  rw [if_pos rfl, Effect.bind_ok _ hargs]

/-- A request is handed over as one frame that the server reads as it was meant, or it raises and
nothing is handed over. -/
theorem sendMethod_cases (htransport : ∀ handed, transport handed = .ok ()) (codec : Codec)
    (channel : Nat) {op : Operation} (hop : op.Sendable) (w : Writer) :
    (∃ e w', AbstractChannel.sendMethod transport codec true channel op.request none w =
        (.error e, w') ∧ w'.handed = w.handed) ∨
      ∃ w' frame, AbstractChannel.sendMethod transport codec true channel op.request none w =
          (.ok (), w') ∧
        w'.handed = w.handed ++ [frame.octets] ∧ frame.WellFormed ∧
        Demand.read frame = .ok (op.request.asked channel) := by
  rcases hop with hrange | ⟨e, hrefused⟩
  · obtain ⟨octets, hdumps, hread⟩ := op.request_read hrange channel
    obtain ⟨args, hpacked, rfl⟩ := op.request_packed hdumps
    obtain ⟨-, h1, h2⟩ := op.request_known
    have hsend := (sendMethod_packed transport codec channel hpacked w).trans
      (Effect.tryCatch_raise _ AbstractChannel.stopped)
    rcases writeFrame_bare_cases htransport codec channel h1 h2 args w with
      ⟨e, w', hrun, hhanded⟩ | ⟨w', hrun, hwf, hhanded⟩
    · rw [hrun] at hsend
      exact .inl ⟨_, w', hsend, hhanded⟩
    · rw [hrun] at hsend
      exact .inr ⟨w', _, hsend, hhanded, hwf, hread⟩
  · have hargs : Effect.liftExcept op.request.packed w = (.error e, w) := by
      rw [Effect.liftExcept, op.request_refused hrefused]
    refine .inl ⟨e, w, ?_, rfl⟩
    unfold AbstractChannel.sendMethod
    rw [if_pos rfl, Effect.bind_error _ hargs]

end Calls

/-! Runs -/

/-- Requests one after the other, whatever they raise: those that returned, in order. -/
def issue (transport : TransportWrite) (codec : Codec) :
    List (Nat × Operation) → Writer → List (Nat × Operation) × Writer
  | [], w => ([], w)
  | (channel, op) :: calls, w =>
      match AbstractChannel.sendMethod transport codec true channel op.request none w with
      | (.ok _, w) =>
          let (returned, w) := issue transport codec calls w
          ((channel, op) :: returned, w)
      | (.error _, w) => issue transport codec calls w

section Runs

variable {transport : TransportWrite} {codec : Codec}

end Runs

end PyAmqp
