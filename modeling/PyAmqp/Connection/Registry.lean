import PyAmqp.Channel.Methods
import PyAmqp.Base.Effect

/-!
The channels of a connection: the dictionary `channels`, the array `_used_channel_ids`,
and what each channel object says of itself, its `channel_id` and whether it has its
`connection`. Objects are numbered as they are made; number 0 is the connection itself.
-/

namespace PyAmqp

namespace Connection

structure Registry where
  channels : Option (List (Nat × Nat)) := some [(0, 0)]
  usedChannelIds : List Nat := []
  channelMax : Nat := 65535
  channelId : Nat → Option Nat := fun o => if o = 0 then some 0 else none
  attached : Nat → Bool := fun o => o = 0
  created : Nat := 1

namespace Registry

/-- `ResourceError('No free channel ids, ...', spec.Channel.Open)` -/
def noFreeChannelIds (r : Registry) : PyError :=
  .amqp { cls := .resourceError
          replyText := .noFreeChannelIds ((r.channels.getD []).length) r.channelMax
          methodSig := some Spec.Channel.open }

/-- `self._used_channel_ids.append(channel_id)`: the array holds 16-bit numbers. -/
def appendUsed (id : Nat) : Effect Registry PyError Nat := fun r =>
  if id < 2 ^ 16 then (.ok id, { r with usedChannelIds := r.usedChannelIds ++ [id] })
  else (.error .overflowError, r)

/-- The numbers from 1 to `channel_max`. -/
def channelIds (r : Registry) : List Nat := List.range' 1 r.channelMax

/-- `_get_free_channel_id` -/
def getFreeChannelId : Effect Registry PyError Nat := fun r =>
  match r.channelIds.find? fun id => id ∉ r.usedChannelIds with
  | some id => appendUsed id r
  | none => (.error r.noFreeChannelIds, r)

/-- `_claim_channel_id` -/
def claimChannelId (id : Nat) : Effect Registry PyError Nat := fun r =>
  if id ∈ r.usedChannelIds then
    (.error (.amqp { cls := .connectionError, replyText := .channelAlreadyOpen id }), r)
  else appendUsed id r

/-- `AbstractChannel.__init__`: a new object is registered under its number. -/
def register (id : Nat) (r : Registry) : Registry :=
  { r with
    channels := r.channels.map fun channels => Assoc.set channels id r.created
    channelId := Function.update r.channelId r.created (some id)
    attached := Function.update r.attached r.created true
    created := r.created + 1 }

/-- The id of a new channel; a `channel_id` of zero is none. -/
def allocateId : Option Nat → Effect Registry PyError Nat
  | some (id + 1) => claimChannelId (id + 1)
  | _ => getFreeChannelId

/-- `Channel.__init__` up to its registration. -/
def construct (id : Option Nat) : Effect Registry PyError Nat := do
  let id ← allocateId id
  let r ← Effect.get
  Effect.modify (register id)
  return r.created

/-- What `Channel.collect` does to the connection's structures. -/
def collectChannel (r : Registry) (o : Nat) : Registry :=
  match r.channelId o with
  | some id =>
      { r with
        channels :=
          if r.attached o then r.channels.map fun channels => Assoc.erase channels id
          else r.channels
        usedChannelIds :=
          if r.attached o then r.usedChannelIds.erase id else r.usedChannelIds
        channelId := Function.update r.channelId o none
        attached := Function.update r.attached o false }
  | none => { r with attached := Function.update r.attached o false }

/-- The `finally` of `Channel.close`. -/
def detach (r : Registry) (o : Nat) : Registry :=
  { r with attached := Function.update r.attached o false }

/-- The channels that `Connection.collect` collects. -/
def others (r : Registry) : List Nat :=
  ((r.channels.getD []).map Prod.snd).filter fun o => o ≠ 0

/-- What `Connection.collect` does to `connection` and `channels`. -/
def collect (r : Registry) : Registry :=
  let r := r.others.foldl collectChannel r
  { r with channels := none, attached := Function.update r.attached 0 false }

end Registry

end Connection

end PyAmqp
