import PyAmqp.LoopBack
import PyAmqp.Serialization.Arguments
import PyAmqp.Serialization.PropertyRoundTrip
import PyAmqp.Serialization.Republish
import PyAmqp.Framing.Completeness
import PyAmqp.Framing.FastPath
import PyAmqp.Transport.Stream
import PyAmqp.Transport.Interrupted
import PyAmqp.Channel.ConfirmMode
import PyAmqp.Channel.Requests
import PyAmqp.Channel.Confirms
import PyAmqp.Channel.PublishStream
import PyAmqp.Channel.Revive
import PyAmqp.Connection.ChannelIds
import PyAmqp.Connection.CloseChannel
import PyAmqp.Connection.Handshake
import PyAmqp.Connection.Discards
import PyAmqp.Connection.Teardown
import PyAmqp.Channel.NoAck
import PyAmqp.Channel.Waits
import PyAmqp.Channel.ConsumerTags
import PyAmqp.Channel.Disposition
import PyAmqp.Channel.FlowControl
import PyAmqp.Connection.KeepAlive
import PyAmqp.Framing.Reentrance
import PyAmqp.Bodies
import PyAmqp.Framing.BareMethods
import PyAmqp.Transport.HostPort
import PyAmqp.Connection.Collect
import PyAmqp.Serialization.Concatenation
import PyAmqp.Serialization.BitAlignment
import PyAmqp.Serialization.Termination
import PyAmqp.Serialization.Delimited
import PyAmqp.Serialization.Signedness
import PyAmqp.Serialization.Faults
import PyAmqp.Base.Traced
import PyAmqp.Serialization.Trace
import PyAmqp.Serialization.PropertyFlags
import PyAmqp.Base.Watched
import PyAmqp.Transport.RecvCounts
import PyAmqp.Serialization.Locality
import PyAmqp.Channel.Synchrony
import PyAmqp.Connection.Agreement
import PyAmqp.Transport.Write
import PyAmqp.Connection.Spent
import PyAmqp.Connection.Drain
import PyAmqp.Connection.Arrivals
import PyAmqp.Transport.SocketLeaks
import PyAmqp.Transport.EndpointSockets
